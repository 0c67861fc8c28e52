import Downlink.Audience
import Mathlib.Data.List.Nodup
import Mathlib.Logic.Function.Basic

/-!
Rosters seen through their topics: which topics they hold, and when a topic gains its first or loses
its last member.
-/
namespace Downlink

namespace Roster

variable {K S : Type} [DecidableEq K] {roster : Roster K S}

structure Valid (roster : Roster K S) : Prop where
  distinct : roster.topics.Nodup
  inhabited : ∀ group ∈ roster.groups, group.2 ≠ []

omit [DecidableEq K] in
theorem empty_valid : (empty : Roster K S).Valid := by
  constructor <;> simp [empty, topics]

theorem contains_iff (topic : K) : roster.contains topic = true ↔ topic ∈ roster.topics := by
  simp [contains, topics]

theorem topics_join (topic : K) (id : Nat) (member : S) :
    (roster.join topic id member).1.topics =
      if roster.contains topic then roster.topics else roster.topics ++ [topic] := by
  unfold join
  split
  · simp only [topics, List.map_map]
    apply List.map_congr_left
    intro group _
    by_cases hg : group.1 = topic <;> simp [hg]
  · simp [topics]

theorem join_first (topic : K) (id : Nat) (member : S) :
    (roster.join topic id member).2 = !roster.contains topic := by
  unfold join
  split <;> simp_all

theorem contains_join (topic : K) (id : Nat) (member : S) :
    (roster.join topic id member).1.contains = Function.update roster.contains topic true := by
  funext other
  rw [Bool.eq_iff_iff, contains_iff, topics_join]
  by_cases ho : other = topic
  · subst ho
    by_cases hc : roster.contains other <;> simp [hc, ← contains_iff]
  · by_cases hc : roster.contains topic <;> simp [hc, ho, ← contains_iff]

theorem join_valid (h : roster.Valid) (topic : K) (id : Nat) (member : S) :
    (roster.join topic id member).1.Valid := by
  constructor
  · rw [topics_join]
    by_cases hc : roster.contains topic
    · simpa [hc] using h.distinct
    · have hn : topic ∉ roster.topics := fun ht => hc ((contains_iff topic).mpr ht)
      simpa [hc] using List.nodup_append.mpr ⟨h.distinct, List.nodup_singleton topic, by
        intro other ho _ ht
        rw [List.mem_singleton.mp ht]
        exact fun he => hn (he ▸ ho)⟩
  · unfold join
    split
    · intro group hg
      obtain ⟨old, ho, rfl⟩ := List.mem_map.mp hg
      by_cases hk : old.1 = topic
      · have hold := h.inhabited old ho
        simp only [hk, if_true, seat]
        split <;> simp [hold]
      · simpa [hk] using h.inhabited old ho
    · intro group hg
      rcases List.mem_append.mp hg with hg | hg
      · exact h.inhabited group hg
      · simp [List.mem_singleton.mp hg]

theorem leave_cases (roster : Roster K S) (topic : K) (id : Nat) :
    (roster.contains topic = false ∧ roster.leave topic id = (roster, none)) ∨
    (roster.contains topic = true ∧ roster.leave topic id =
      (⟨roster.groups.filter (·.1 ≠ topic)⟩, some true)) ∨
    (roster.contains topic = true ∧ ∃ rest : List (Nat × S), rest ≠ [] ∧
      roster.leave topic id =
        (⟨roster.groups.map fun group => if group.1 = topic then (topic, rest) else group⟩,
          some false)) := by
  unfold leave
  by_cases hc : roster.contains topic
  · by_cases hr : ((roster.members topic).filter (·.1 ≠ id)).isEmpty
    · exact Or.inr (Or.inl ⟨hc, by simp only [hc, hr, if_true]⟩)
    · refine Or.inr (Or.inr ⟨hc, _, ?_, by simp only [hc, hr, if_true]; rfl⟩)
      simpa using hr
  · exact Or.inl ⟨by simpa using hc, by simp [hc]⟩

theorem contains_of_last {topic : K} {id : Nat} (h : (roster.leave topic id).2 = some true) :
    roster.contains topic = true := by
  rcases leave_cases roster topic id with ⟨_, hl⟩ | ⟨hc, _⟩ | ⟨hc, _⟩
  · simp [hl] at h
  · exact hc
  · exact hc

theorem topics_leave (topic : K) (id : Nat) :
    (roster.leave topic id).1.topics =
      if (roster.leave topic id).2 = some true then roster.topics.filter (· ≠ topic)
      else roster.topics := by
  rcases leave_cases roster topic id with ⟨_, hl⟩ | ⟨_, hl⟩ | ⟨_, rest, _, hl⟩
  · simp [hl]
  · simp [hl, topics, List.filter_map, Function.comp_def]
  · simp only [hl, topics, List.map_map, Option.some.injEq, Bool.false_eq_true, if_false]
    apply List.map_congr_left
    intro group _
    by_cases hg : group.1 = topic <;> simp [hg]

theorem contains_leave (topic : K) (id : Nat) :
    (roster.leave topic id).1.contains =
      if (roster.leave topic id).2 = some true then Function.update roster.contains topic false
      else roster.contains := by
  funext other
  rw [Bool.eq_iff_iff, contains_iff, topics_leave]
  by_cases hl : (roster.leave topic id).2 = some true
  · by_cases ho : other = topic
    · simp [hl, ho]
    · simp [hl, ho, contains_iff]
  · simp [hl, contains_iff]

theorem leave_valid (h : roster.Valid) (topic : K) (id : Nat) :
    (roster.leave topic id).1.Valid := by
  constructor
  · rw [topics_leave]
    split
    · exact h.distinct.filter _
    · exact h.distinct
  · rcases leave_cases roster topic id with ⟨_, hl⟩ | ⟨_, hl⟩ | ⟨_, rest, hr, hl⟩
    · simpa [hl] using h.inhabited
    · rw [hl]
      intro group hg
      exact h.inhabited group (List.mem_of_mem_filter hg)
    · rw [hl]
      intro group hg
      obtain ⟨old, ho, rfl⟩ := List.mem_map.mp hg
      by_cases hk : old.1 = topic
      · simpa [hk] using hr
      · simpa [hk] using h.inhabited old ho

theorem ids_ne_nil_iff (h : roster.Valid) (topic : K) :
    roster.ids topic ≠ [] ↔ roster.contains topic = true := by
  unfold ids members contains
  cases hf : roster.groups.find? (·.1 = topic) with
  | none =>
    have hn := List.find?_eq_none.mp hf
    simp only [decide_eq_true_eq] at hn
    simpa using fun rest hr => hn (topic, rest) hr rfl
  | some group =>
    have hm := List.mem_of_find?_eq_some hf
    have hk := List.find?_some hf
    have := h.inhabited group hm
    simp only [Option.map_some, Option.getD_some, ne_eq, List.map_eq_nil_iff, List.any_eq_true]
    exact ⟨fun _ => ⟨group, hm, hk⟩, fun _ => this⟩

/-! The members of each topic, as joining and leaving change them. -/

theorem find?_eq_none {topic : K} (hc : roster.contains topic = false) :
    roster.groups.find? (·.1 = topic) = none := by
  rw [List.find?_eq_none]
  exact List.any_eq_false.mp hc

/-- Another group for one topic changes the members of that topic only. -/
theorem members_map (topic : K) (change : List (Nat × S) → List (Nat × S))
    (hc : roster.contains topic = true) :
    members ⟨roster.groups.map fun group =>
        if group.1 = topic then (topic, change group.2) else group⟩ =
      Function.update roster.members topic (change (roster.members topic)) := by
  have hkey : ∀ other : K, ((fun group : K × List (Nat × S) => decide (group.1 = other)) ∘
      fun group => if group.1 = topic then (topic, change group.2) else group) =
        fun group => decide (group.1 = other) := by
    intro other
    funext group
    by_cases hg : group.1 = topic <;> simp [hg]
  funext other
  simp only [members, List.find?_map, hkey]
  cases hf : roster.groups.find? (·.1 = other) with
  | none =>
    have hn : other ≠ topic := by
      rintro rfl
      obtain ⟨group, hg, hk⟩ := List.any_eq_true.mp hc
      exact List.find?_eq_none.mp hf group hg hk
    simp [members, hn, hf]
  | some group =>
    have hk : group.1 = other := by simpa using List.find?_some hf
    by_cases ho : other = topic
    · subst ho
      simp [hf, hk]
    · simp [members, ho, hf, hk]

theorem members_join (topic : K) (id : Nat) (member : S) :
    (roster.join topic id member).1.members =
      Function.update roster.members topic (seat id member (roster.members topic)) := by
  unfold join
  split
  next hc => exact members_map topic (seat id member) hc
  next hc =>
    have hf := find?_eq_none (eq_false_of_ne_true hc)
    funext other
    by_cases ho : other = topic
    · subst ho
      simp [members, hf, seat]
    · simp [members, ho, List.find?_append, Ne.symm ho]

theorem members_leave (topic : K) (id : Nat) :
    (roster.leave topic id).1.members =
      Function.update roster.members topic ((roster.members topic).filter (·.1 ≠ id)) := by
  unfold leave
  split
  next hc =>
    dsimp only
    split
    next hr =>
      rw [List.isEmpty_iff.mp hr]
      funext other
      simp only [members, List.find?_filter]
      by_cases ho : other = topic
      · subst ho
        rw [Function.update_self, List.find?_eq_none.mpr (by simp)]
        rfl
      · have hkey : ∀ group : K × List (Nat × S),
            (decide (group.1 ≠ topic) = true ∧ decide (group.1 = other) = true) ↔
              group.1 = other := by
          intro group
          by_cases hg : group.1 = other <;> simp [hg, ho]
        simp only [Function.update_of_ne ho, hkey, members]
    next => exact members_map topic (fun _ => (roster.members topic).filter (·.1 ≠ id)) hc
  next hc =>
    have hn : roster.members topic = [] := by
      rw [members, find?_eq_none (eq_false_of_ne_true hc)]
      rfl
    rw [hn, List.filter_nil, ← hn, Function.update_eq_self]

theorem ids_join {topic : K} {id : Nat} (h : id ∉ roster.ids topic) (member : S) :
    (roster.join topic id member).1.ids =
      Function.update roster.ids topic (roster.ids topic ++ [id]) := by
  have hnew : (roster.members topic).any (·.1 = id) = false := by
    rw [List.any_eq_false]
    intro m hm he
    exact h (List.mem_map.mpr ⟨m, hm, of_decide_eq_true he⟩)
  funext other
  rw [ids, members_join]
  by_cases ho : other = topic
  · subst ho
    rw [Function.update_self, Function.update_self, seat, hnew]
    exact List.map_append
  · rw [Function.update_of_ne ho, Function.update_of_ne ho, ids]

theorem ids_join_of_mem {topic : K} {id : Nat} (h : id ∈ roster.ids topic) (member : S) :
    (roster.join topic id member).1.ids = roster.ids := by
  have hold : (roster.members topic).any (·.1 = id) = true := by
    obtain ⟨m, hm, he⟩ := List.mem_map.mp h
    exact List.any_eq_true.mpr ⟨m, hm, decide_eq_true he⟩
  have hkey : ∀ m : Nat × S, (if m.1 = id then (id, member) else m).1 = m.1 := by
    intro m
    by_cases hm : m.1 = id <;> simp [hm]
  funext other
  rw [ids, members_join]
  by_cases ho : other = topic
  · subst ho
    rw [Function.update_self, seat, if_pos hold, List.map_map, ids]
    exact List.map_congr_left fun m _ => hkey m
  · rw [Function.update_of_ne ho, ids]

theorem ids_leave (topic : K) (id : Nat) :
    (roster.leave topic id).1.ids =
      Function.update roster.ids topic ((roster.ids topic).filter (· ≠ id)) := by
  funext other
  rw [ids, members_leave]
  by_cases ho : other = topic
  · subst ho
    rw [Function.update_self, Function.update_self, ids, List.filter_map]
    rfl
  · rw [Function.update_of_ne ho, Function.update_of_ne ho, ids]

theorem mem_ids_join {topic other : K} {id m : Nat} (member : S) :
    m ∈ (roster.join topic id member).1.ids other ↔
      topic = other ∧ id = m ∨ m ∈ roster.ids other := by
  by_cases hid : id ∈ roster.ids topic
  · rw [ids_join_of_mem hid, iff_or_self]
    rintro ⟨rfl, rfl⟩
    exact hid
  · rw [ids_join hid]
    by_cases ho : topic = other
    · subst ho
      rw [Function.update_self, List.mem_append, List.mem_singleton, or_comm, and_iff_right rfl,
        eq_comm]
    · simp [ho, Ne.symm ho]

theorem ids_join_nodup {other : K} (h : (roster.ids other).Nodup) (topic : K) (id : Nat)
    (member : S) : ((roster.join topic id member).1.ids other).Nodup := by
  by_cases hid : id ∈ roster.ids topic
  · rwa [ids_join_of_mem hid]
  · rw [ids_join hid]
    by_cases ho : other = topic
    · subst ho
      rw [Function.update_self]
      exact List.nodup_middle.mpr (by simpa [hid] using h)
    · rwa [Function.update_of_ne ho]

theorem mem_ids_leave {topic other : K} {id m : Nat} :
    m ∈ (roster.leave topic id).1.ids other ↔
      m ∈ roster.ids other ∧ ¬ (topic = other ∧ id = m) := by
  rw [ids_leave]
  by_cases ho : topic = other
  · subst ho
    simp [@eq_comm _ id]
  · simp [ho, Ne.symm ho]

theorem ids_leave_nodup {other : K} (h : (roster.ids other).Nodup) (topic : K) (id : Nat) :
    ((roster.leave topic id).1.ids other).Nodup := by
  rw [ids_leave]
  by_cases ho : other = topic
  · subst ho
    rw [Function.update_self]
    exact h.filter _
  · rwa [Function.update_of_ne ho]

end Roster

namespace Audience

variable {audience : Audience}

structure Valid (audience : Audience) : Prop where
  outputs : audience.outputs.Valid
  images : audience.images.Valid
  parameters : audience.parameters.Valid

theorem empty_valid : empty.Valid := ⟨Roster.empty_valid, Roster.empty_valid, Roster.empty_valid⟩

theorem join_valid (h : audience.Valid) (topic : Topic) (id : Nat) :
    (audience.join topic id).1.Valid := by
  obtain ⟨ho, hi, hp⟩ := h
  cases topic with
  | output topic => exact ⟨Roster.join_valid ho topic id (), hi, hp⟩
  | image cycler => exact ⟨ho, Roster.join_valid hi cycler id (), hp⟩
  | parameter path => exact ⟨ho, hi, Roster.join_valid hp path id ()⟩

theorem leave_valid (h : audience.Valid) (topic : Topic) (id : Nat) :
    (audience.leave topic id).1.Valid := by
  obtain ⟨ho, hi, hp⟩ := h
  cases topic with
  | output topic => exact ⟨Roster.leave_valid ho topic id, hi, hp⟩
  | image cycler => exact ⟨ho, Roster.leave_valid hi cycler id, hp⟩
  | parameter path => exact ⟨ho, hi, Roster.leave_valid hp path id⟩

theorem join_first (topic : Topic) (id : Nat) :
    (audience.join topic id).2 = !audience.contains topic := by
  cases topic <;> exact Roster.join_first ..

theorem contains_join (topic : Topic) (id : Nat) :
    (audience.join topic id).1.contains = Function.update audience.contains topic true := by
  funext other
  cases topic <;> cases other <;>
    simp [join, contains, Roster.contains_join, Function.update_apply]

theorem contains_of_last {topic : Topic} {id : Nat}
    (h : (audience.leave topic id).2 = some true) : audience.contains topic = true := by
  cases topic <;> exact Roster.contains_of_last h

theorem contains_leave (topic : Topic) (id : Nat) :
    (audience.leave topic id).1.contains =
      if (audience.leave topic id).2 = some true then
        Function.update audience.contains topic false
      else audience.contains := by
  funext other
  by_cases hl : (audience.leave topic id).2 = some true
  · rw [if_pos hl]
    cases topic <;> cases other <;> simp only [leave] at hl <;>
      simp [leave, contains, Roster.contains_leave, Function.update_apply, hl]
  · rw [if_neg hl]
    cases topic <;> cases other <;> simp only [leave] at hl <;>
      simp [leave, contains, Roster.contains_leave, hl]

theorem ids_ne_nil_iff (h : audience.Valid) (topic : Topic) :
    audience.ids topic ≠ [] ↔ audience.contains topic = true := by
  cases topic with
  | output topic => exact Roster.ids_ne_nil_iff h.outputs topic
  | image cycler => exact Roster.ids_ne_nil_iff h.images cycler
  | parameter path => exact Roster.ids_ne_nil_iff h.parameters path

theorem ids_join {topic : Topic} {id : Nat} (h : id ∉ audience.ids topic) :
    (audience.join topic id).1.ids =
      Function.update audience.ids topic (audience.ids topic ++ [id]) := by
  funext other
  cases topic <;> cases other <;>
    simp [join, ids, Roster.ids_join h, Function.update_apply]

theorem ids_leave (topic : Topic) (id : Nat) :
    (audience.leave topic id).1.ids =
      Function.update audience.ids topic ((audience.ids topic).filter (· ≠ id)) := by
  funext other
  cases topic <;> cases other <;>
    simp [leave, ids, Roster.ids_leave, Function.update_apply]

theorem mem_ids_join {topic other : Topic} {id member : Nat} :
    member ∈ (audience.join topic id).1.ids other ↔
      topic = other ∧ id = member ∨ member ∈ audience.ids other := by
  cases topic <;> cases other <;> simp [join, ids, Roster.mem_ids_join]

theorem ids_join_nodup {other : Topic} (h : (audience.ids other).Nodup) (topic : Topic) (id : Nat) :
    ((audience.join topic id).1.ids other).Nodup := by
  cases topic <;> cases other <;> first | exact h | exact Roster.ids_join_nodup h ..

theorem mem_ids_leave {topic other : Topic} {id member : Nat} :
    member ∈ (audience.leave topic id).1.ids other ↔
      member ∈ audience.ids other ∧ ¬ (topic = other ∧ id = member) := by
  cases topic <;> cases other <;> simp [leave, ids, Roster.mem_ids_leave]

theorem ids_leave_nodup {other : Topic} (h : (audience.ids other).Nodup) (topic : Topic)
    (id : Nat) : ((audience.leave topic id).1.ids other).Nodup := by
  cases topic <;> cases other <;> first | exact h | exact Roster.ids_leave_nodup h ..

theorem mem_topics_iff (topic : Topic) :
    topic ∈ audience.topics ↔ audience.contains topic = true := by
  cases topic <;> simp [topics, contains, Roster.contains_iff]

theorem topics_nodup (h : audience.Valid) : audience.topics.Nodup := by
  unfold topics
  refine List.nodup_append.mpr ⟨List.nodup_append.mpr ⟨?_, ?_, ?_⟩, ?_, ?_⟩
  · exact List.Nodup.map (fun _ _ => Topic.output.inj) h.outputs.distinct
  · exact List.Nodup.map (fun _ _ => Topic.image.inj) h.images.distinct
  · simp
  · exact List.Nodup.map (fun _ _ => Topic.parameter.inj) h.parameters.distinct
  · rintro topic ht _ hp rfl
    obtain ⟨path, _, rfl⟩ := List.mem_map.mp hp
    simp at ht

end Audience
end Downlink
