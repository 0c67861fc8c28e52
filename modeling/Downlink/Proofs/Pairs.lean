import Downlink.Proofs.Roster
import Downlink.Proofs.Transcript
import Mathlib.Data.Finset.Card

/-!
A roster as a finite set of pairs of a topic and an id. Joining puts a pair in and leaving takes it
out; what a roster answers, and all that it says of its topics, can be read off that set.
-/
namespace Downlink.Roster

variable {K S : Type} [DecidableEq K]

def ofChanges (history : List (Change K S)) : Roster K S := history.foldl change empty

theorem ofChanges_append (history more : List (Change K S)) :
    ofChanges (history ++ more) = more.foldl change (ofChanges history) :=
  List.foldl_append

inductive Answer where
  /-- Whether the member is the first of its topic. -/
  | joined (first : Bool)
  /-- Whether it was the last one; nothing for a topic without members. -/
  | left (last : Option Bool)
  deriving DecidableEq, Repr

def answer (roster : Roster K S) : Change K S → Answer
  | .join topic id member => .joined (roster.join topic id member).2
  | .leave topic id => .left (roster.leave topic id).2

/-! The same on sets. -/

def seatsOf (seats : Finset (K × Nat)) (topic : K) : Finset (K × Nat) := seats.filter (·.1 = topic)

def changeSeats (seats : Finset (K × Nat)) : Change K S → Finset (K × Nat)
  | .join topic id _ => insert (topic, id) seats
  | .leave topic id => seats.erase (topic, id)

def seatsAfter (history : List (Change K S)) : Finset (K × Nat) := history.foldl changeSeats ∅

def answerSeats (seats : Finset (K × Nat)) : Change K S → Answer
  | .join topic _ _ => .joined (decide (seatsOf seats topic = ∅))
  | .leave topic id =>
    .left (if seatsOf seats topic = ∅ then none
      else some (decide (seatsOf seats topic = {(topic, id)})))

/-- A first member is told as `true`, and a last one as `false`. -/
def Answer.news? : Answer → Option Bool
  | .joined true => some true
  | .left (some true) => some false
  | _ => none

def Change.topic : Change K S → K
  | .join topic _ _ => topic
  | .leave topic _ => topic

def newsOf (topic : K) (roster : Roster K S) : List (Change K S) → List Bool
  | [] => []
  | edit :: rest =>
    let later := newsOf topic (roster.change edit) rest
    if edit.topic = topic then (roster.answer edit).news?.toList ++ later else later

def places (roster : Roster K S) (topic : K) : List (K × Nat) :=
  (roster.ids topic).map fun id => (topic, id)

/-- The members of the roster are the pairs of the set, each once. -/
structure Occupies (roster : Roster K S) (seats : Finset (K × Nat)) : Prop where
  valid : roster.Valid
  distinct : ∀ topic, (roster.ids topic).Nodup
  mem_iff : ∀ topic id, id ∈ roster.ids topic ↔ (topic, id) ∈ seats

variable {roster : Roster K S} {seats : Finset (K × Nat)} {topic : K} {id : Nat}

theorem empty_occupies : Occupies (empty : Roster K S) ∅ := by
  constructor
  · exact empty_valid
  · intro topic
    exact List.nodup_nil
  · intro topic id
    simp [ids, members, empty]

theorem Occupies.change (h : Occupies roster seats) (edit : Change K S) :
    Occupies (roster.change edit) (changeSeats seats edit) := by
  cases edit with
  | join topic id member =>
    constructor
    · exact join_valid h.valid topic id member
    · intro other
      exact ids_join_nodup (h.distinct other) topic id member
    · intro other m
      rw [Roster.change, mem_ids_join, h.mem_iff, changeSeats, Finset.mem_insert, Prod.mk.injEq,
        eq_comm, @eq_comm _ id]
  | leave topic id =>
    constructor
    · exact leave_valid h.valid topic id
    · intro other
      exact ids_leave_nodup (h.distinct other) topic id
    · intro other m
      rw [Roster.change, mem_ids_leave, h.mem_iff, changeSeats, Finset.mem_erase, ne_eq,
        Prod.mk.injEq, and_comm, @eq_comm _ topic, @eq_comm _ id]

theorem ofChanges_occupies (history : List (Change K S)) :
    Occupies (ofChanges history) (seatsAfter history) := by
  induction history using List.reverseRecOn with
  | nil => exact empty_occupies
  | append_singleton history edit ih =>
    rw [ofChanges_append, seatsAfter, List.foldl_append]
    exact ih.change edit

theorem Occupies.contains_iff (h : Occupies roster seats) :
    roster.contains topic = true ↔ ∃ id, (topic, id) ∈ seats := by
  rw [← ids_ne_nil_iff h.valid]
  constructor
  · intro hne
    obtain ⟨id, hid⟩ := List.exists_mem_of_ne_nil _ hne
    exact ⟨id, (h.mem_iff topic id).mp hid⟩
  · rintro ⟨id, hm⟩
    exact List.ne_nil_of_mem ((h.mem_iff topic id).mpr hm)

theorem Occupies.seatsOf_eq (h : Occupies roster seats) (topic : K) :
    seatsOf seats topic = (roster.places topic).toFinset := by
  ext ⟨other, id⟩
  simp only [seatsOf, places, Finset.mem_filter, List.mem_toFinset, List.mem_map, Prod.mk.injEq]
  constructor
  · rintro ⟨hm, rfl⟩
    exact ⟨id, (h.mem_iff other id).mpr hm, rfl, rfl⟩
  · rintro ⟨_, hm, rfl, rfl⟩
    exact ⟨(h.mem_iff topic _).mp hm, rfl⟩

theorem places_nodup (h : (roster.ids topic).Nodup) : (roster.places topic).Nodup :=
  h.map fun _ _ he => (Prod.mk.inj he).2

theorem Occupies.card_seatsOf (h : Occupies roster seats) (topic : K) :
    (seatsOf seats topic).card = (roster.ids topic).length := by
  rw [h.seatsOf_eq, List.toFinset_card_of_nodup (places_nodup (h.distinct topic))]
  exact List.length_map _

theorem Occupies.seatsOf_eq_empty_iff (h : Occupies roster seats) :
    seatsOf seats topic = ∅ ↔ roster.contains topic = false := by
  rw [← Finset.card_eq_zero, h.card_seatsOf, List.length_eq_zero_iff, ← Bool.not_eq_true,
    ← ids_ne_nil_iff h.valid, ne_eq, not_not]

theorem leave_last (roster : Roster K S) (topic : K) (id : Nat) :
    (roster.leave topic id).2 =
      if roster.contains topic then some (decide (∀ other ∈ roster.ids topic, other = id))
      else none := by
  unfold leave
  split
  next hc =>
    have hempty : ((roster.members topic).filter (·.1 ≠ id)).isEmpty =
        decide (∀ other ∈ roster.ids topic, other = id) := by
      rw [Bool.eq_iff_iff, decide_eq_true_eq, List.isEmpty_iff, List.filter_eq_nil_iff]
      simp [ids]
    rw [← hempty]
    dsimp only
    split
    next he => rw [he]
    next he => rw [eq_false_of_ne_true he]
  next => rfl

theorem Occupies.seatsOf_nonempty (h : Occupies roster seats) (hc : roster.contains topic = true) :
    (seatsOf seats topic).Nonempty := by
  rw [Finset.nonempty_iff_ne_empty, ne_eq, h.seatsOf_eq_empty_iff, hc]
  exact Bool.noConfusion

theorem Occupies.only_iff (h : Occupies roster seats) (hc : roster.contains topic = true) :
    (∀ other ∈ roster.ids topic, other = id) ↔ seatsOf seats topic = {(topic, id)} := by
  rw [Finset.eq_singleton_iff_nonempty_unique_mem, and_iff_right (h.seatsOf_nonempty hc),
    h.seatsOf_eq]
  simp [places]

theorem Occupies.answer_eq (h : Occupies roster seats) (edit : Change K S) :
    roster.answer edit = answerSeats seats edit := by
  cases edit with
  | join topic id member =>
    have hfirst : (!roster.contains topic) = decide (seatsOf seats topic = ∅) := by
      rw [Bool.eq_iff_iff, decide_eq_true_eq, h.seatsOf_eq_empty_iff, Bool.not_eq_true']
    rw [answer, answerSeats, join_first, hfirst]
  | leave topic id =>
    rw [answer, answerSeats, leave_last]
    by_cases hc : roster.contains topic = true
    · rw [if_pos hc, if_neg (h.seatsOf_nonempty hc).ne_empty]
      simp only [h.only_iff hc]
    · rw [if_neg hc, if_pos (h.seatsOf_eq_empty_iff.mpr (eq_false_of_ne_true hc))]

/-! The topics, and the pairs one by one. -/

theorem Occupies.topics_eq (h : Occupies roster seats) :
    roster.topics.toFinset = seats.image Prod.fst := by
  ext topic
  rw [List.mem_toFinset, ← Roster.contains_iff, h.contains_iff]
  simp

theorem members_of_mem (h : roster.Valid) {group : K × List (Nat × S)}
    (hg : group ∈ roster.groups) : roster.members group.1 = group.2 := by
  unfold members
  cases hf : roster.groups.find? (·.1 = group.1) with
  | none =>
    have hn := List.find?_eq_none.mp hf group hg
    simp at hn
  | some found =>
    have hsame : found = group := by
      apply List.inj_on_of_nodup_map h.distinct (List.mem_of_find?_eq_some hf) hg
      simpa using List.find?_some hf
    rw [hsame]
    rfl

theorem pairs_eq (h : roster.Valid) : roster.pairs = roster.topics.flatMap roster.places := by
  rw [pairs, topics, List.flatMap_map]
  apply List.flatMap_congr
  intro group hg
  rw [places, ids, members_of_mem h hg, List.map_map]
  rfl

theorem mem_pairs_iff (h : roster.Valid) : (topic, id) ∈ roster.pairs ↔ id ∈ roster.ids topic := by
  rw [pairs_eq h]
  simp only [List.mem_flatMap, places, List.mem_map, Prod.mk.injEq]
  constructor
  · rintro ⟨_, _, _, hid, rfl, rfl⟩
    exact hid
  · intro hid
    have ht : roster.contains topic = true :=
      (ids_ne_nil_iff h topic).mp (List.ne_nil_of_mem hid)
    exact ⟨topic, (Roster.contains_iff topic).mp ht, id, hid, rfl, rfl⟩

theorem pairs_nodup (h : roster.Valid) (hd : ∀ topic, (roster.ids topic).Nodup) :
    roster.pairs.Nodup := by
  rw [pairs_eq h, List.nodup_flatMap]
  constructor
  · intro topic _
    exact places_nodup (hd topic)
  · apply h.distinct.imp
    intro topic other hne pair ht ho
    obtain ⟨_, _, rfl⟩ := List.mem_map.mp ht
    obtain ⟨_, _, he⟩ := List.mem_map.mp ho
    exact hne (Prod.mk.inj he).1.symm

theorem Occupies.mem_pairs (h : Occupies roster seats) :
    (topic, id) ∈ roster.pairs ↔ (topic, id) ∈ seats := by
  rw [mem_pairs_iff h.valid, h.mem_iff]

theorem Occupies.pairs_nodup (h : Occupies roster seats) : roster.pairs.Nodup :=
  Roster.pairs_nodup h.valid h.distinct

/-! First and last members take turns. -/

theorem change_other (roster : Roster K S) {edit : Change K S} (h : topic ≠ edit.topic) :
    (roster.change edit).contains topic = roster.contains topic := by
  cases edit with
  | join other id member =>
    rw [change, contains_join]
    exact Function.update_of_ne h ..
  | leave other id =>
    rw [change, contains_leave]
    split
    · exact Function.update_of_ne h ..
    · rfl

/-- A change tells something of its topic exactly when the topic comes or goes. -/
theorem answer_cases (roster : Roster K S) (edit : Change K S) :
    ((roster.answer edit).news? = none ∧
        (roster.change edit).contains edit.topic = roster.contains edit.topic) ∨
      ((roster.answer edit).news? = some (!roster.contains edit.topic) ∧
        (roster.change edit).contains edit.topic = !roster.contains edit.topic) := by
  cases edit with
  | join topic id member =>
    simp only [answer, change, Change.topic, contains_join, join_first, Function.update_self]
    cases hc : roster.contains topic with
    | false => exact Or.inr ⟨rfl, rfl⟩
    | true => exact Or.inl ⟨rfl, rfl⟩
  | leave topic id =>
    simp only [answer, change, Change.topic, contains_leave]
    cases hl : (roster.leave topic id).2 with
    | none => exact Or.inl ⟨rfl, rfl⟩
    | some last =>
      cases last with
      | false => exact Or.inl ⟨rfl, rfl⟩
      | true =>
        rw [contains_of_last hl]
        exact Or.inr ⟨rfl, by simp⟩

theorem newsOf_alternates (topic : K) (roster : Roster K S) (history : List (Change K S)) :
    Alternates (!roster.contains topic) (newsOf topic roster history) := by
  induction history generalizing roster with
  | nil => trivial
  | cons edit rest ih =>
    rw [newsOf]
    by_cases ht : edit.topic = topic
    · rw [if_pos ht]
      subst ht
      rcases roster.answer_cases edit with ⟨hnews, hc⟩ | ⟨hnews, hc⟩
      · rw [hnews, ← hc]
        exact ih _
      · rw [hnews]
        refine ⟨rfl, ?_⟩
        rw [← hc]
        exact ih _
    · rw [if_neg ht, ← roster.change_other (Ne.symm ht)]
      exact ih _

/-- After any history a roster is the set of the pairs that joined and have not left. It answers
each change as the set does, its topics, its members and their numbers are those of the set, and for
each topic first and last members take turns, a first one coming first. -/
theorem roster_is_set (history : List (Change K S)) :
    (ofChanges history).pairs.Nodup ∧
      (ofChanges history).pairs.toFinset = seatsAfter history ∧
      (∀ edit, (ofChanges history).answer edit = answerSeats (seatsAfter history) edit) ∧
      (∀ topic,
        (ofChanges history).contains topic = true ↔ ∃ id, (topic, id) ∈ seatsAfter history) ∧
      (∀ topic,
        ((ofChanges history).ids topic).length = (seatsOf (seatsAfter history) topic).card) ∧
      (ofChanges history).topics.Nodup ∧
      (ofChanges history).topics.toFinset = (seatsAfter history).image Prod.fst ∧
      (ofChanges history).topics.length = ((seatsAfter history).image Prod.fst).card ∧
      ((ofChanges history).topics.isEmpty = true ↔ seatsAfter history = ∅) ∧
      ∀ topic, Alternates true (newsOf topic empty history) := by
  have h := ofChanges_occupies history
  refine ⟨h.pairs_nodup, ?_, h.answer_eq, ?_, ?_, h.valid.distinct, h.topics_eq, ?_, ?_, ?_⟩
  · ext ⟨topic, id⟩
    rw [List.mem_toFinset]
    exact h.mem_pairs
  · intro topic
    exact h.contains_iff
  · intro topic
    exact (h.card_seatsOf topic).symm
  · rw [← h.topics_eq, List.toFinset_card_of_nodup h.valid.distinct]
  · rw [List.isEmpty_iff, ← List.toFinset_eq_empty_iff, h.topics_eq, Finset.image_eq_empty]
  · intro topic
    exact newsOf_alternates topic empty history

end Downlink.Roster
