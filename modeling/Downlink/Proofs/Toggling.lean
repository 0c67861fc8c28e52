import Downlink.Proofs.Session
import Mathlib.Algebra.Ring.Parity
import Mathlib.Data.List.Chain
import Mathlib.Data.List.Dedup

/-!
Changes that take each other back. While a batch is open, topics may be subscribed and unsubscribed
in turns as often as one likes: nothing is sent, and what is queued in the end is what makes a
difference, the last change of each topic that was changed an odd number of times.
-/
namespace Downlink

def Demand.about (topic : Topic) (changes : List Demand) : List Demand :=
  changes.filter (·.topic = topic)

namespace Session

variable {s : Session} {changes more queue : List Demand} {change queued : Demand} {topic : Topic}

/-- Each change of the topic undoes the one before. -/
def Alternates (topic : Topic) (changes : List Demand) : Prop :=
  (Demand.about topic changes).IsChain fun a b => a.subscribe ≠ b.subscribe

instance (topic : Topic) (changes : List Demand) : Decidable (Alternates topic changes) :=
  inferInstanceAs (Decidable (List.IsChain _ _))

def Single (changes : List Demand) (topic : Topic) : Prop :=
  (Demand.about topic changes).length = 1

instance (changes : List Demand) : DecidablePred (Single changes) :=
  fun _ => inferInstanceAs (Decidable (_ = _))

/-- What is left of changes that take each other back. -/
structure Net (changes left : List Demand) : Prop where
  /-- Of an odd number of changes of one topic the last one is left, of an even number none. -/
  last : ∀ topic, Demand.about topic left =
    if Odd (Demand.about topic changes).length then (Demand.about topic changes).getLast?.toList
    else []
  /-- They stand in the order in which these last changes came. -/
  order : left.map (·.topic) = (changes.map (·.topic)).dedup.filter fun topic =>
    Odd (Demand.about topic changes).length

/-! The changes of one topic. -/

theorem about_append (topic : Topic) (changes more : List Demand) :
    Demand.about topic (changes ++ more) = Demand.about topic changes ++ Demand.about topic more :=
  List.filter_append ..

theorem about_append_self (changes : List Demand) (change : Demand) :
    Demand.about change.topic (changes ++ [change]) =
      Demand.about change.topic changes ++ [change] := by
  simp [Demand.about]

theorem about_append_other (h : change.topic ≠ topic) (changes : List Demand) :
    Demand.about topic (changes ++ [change]) = Demand.about topic changes := by
  simp [Demand.about, h]

theorem about_filter_self (topic : Topic) (changes : List Demand) :
    Demand.about topic (changes.filter (·.topic ≠ topic)) = [] := by
  simp [Demand.about]

theorem about_filter_other {other : Topic} (h : other ≠ topic) (changes : List Demand) :
    Demand.about topic (changes.filter (·.topic ≠ other)) = Demand.about topic changes := by
  rw [Demand.about, Demand.about, List.filter_filter]
  refine List.filter_congr fun change _ => ?_
  by_cases hc : change.topic = topic
  · simp [hc, h.symm]
  · simp [hc]

theorem about_eq_nil_iff : Demand.about topic changes = [] ↔ topic ∉ changes.map (·.topic) := by
  simp [Demand.about]

theorem length_about (topic : Topic) (changes : List Demand) :
    (Demand.about topic changes).length = (changes.map (·.topic)).count topic := by
  rw [Demand.about, ← List.countP_eq_length_filter, List.count, List.countP_map]
  rfl

theorem odd_about_append_self (changes : List Demand) (change : Demand) :
    Odd (Demand.about change.topic (changes ++ [change])).length ↔
      ¬ Odd (Demand.about change.topic changes).length := by
  rw [about_append_self, List.length_append, List.length_singleton, Nat.odd_add_one]

theorem about_of_mem (hn : (queue.map (·.topic)).Nodup) (hm : queued ∈ queue) :
    Demand.about queued.topic queue = [queued] := by
  have hlength : (Demand.about queued.topic queue).length = 1 := by
    rw [length_about]
    exact List.count_eq_one_of_mem hn (List.mem_map_of_mem hm)
  obtain ⟨only, honly⟩ := List.length_eq_one_iff.mp hlength
  have hin : queued ∈ Demand.about queued.topic queue := by simp [Demand.about, hm]
  rw [honly, List.mem_singleton] at hin
  rw [honly, hin]

theorem forall_alternates_iff :
    (∀ topic, Alternates topic changes) ↔
      ∀ topic ∈ changes.map (·.topic), Alternates topic changes := by
  refine ⟨fun h topic _ => h topic, fun h topic => ?_⟩
  by_cases hm : topic ∈ changes.map (·.topic)
  · exact h topic hm
  · rw [Alternates, about_eq_nil_iff.mpr hm]
    exact List.isChain_nil

instance (changes : List Demand) : Decidable (∀ topic, Alternates topic changes) :=
  decidable_of_iff _ forall_alternates_iff.symm

theorem Alternates.append_left (h : Alternates topic (changes ++ more)) :
    Alternates topic changes := by
  rw [Alternates, about_append] at h
  exact h.left_of_append

theorem Alternates.last_ne (h : Alternates change.topic (changes ++ [change]))
    (hq : (Demand.about change.topic changes).getLast? = some queued) :
    queued.subscribe ≠ change.subscribe := by
  rw [Alternates, about_append_self] at h
  exact (List.isChain_append.mp h).2.2 queued hq change rfl

/-! The topics in the order of their last changes. -/

section Dedup

variable {α : Type} [DecidableEq α] {l : List α}

theorem dedup_append_singleton (l : List α) (a : α) :
    (l ++ [a]).dedup = l.dedup.filter (· ≠ a) ++ [a] := by
  induction l with
  | nil => simp
  | cons b l ih =>
    rw [List.cons_append, List.dedup_cons, List.dedup_cons, ih]
    by_cases hb : b ∈ l
    · rw [if_pos (List.mem_append_left _ hb), if_pos hb]
    · by_cases hba : b = a
      · subst hba
        simp [hb]
      · simp [hb, hba]

/-- What occurs once stands where it stood. -/
theorem filter_dedup {p : α → Bool} (h : ∀ a, p a = true → l.count a ≤ 1) :
    l.dedup.filter p = l.filter p := by
  induction l with
  | nil => rfl
  | cons a l ih =>
    have hrest := ih fun b hb => List.count_le_count_cons.trans (h b hb)
    by_cases ha : a ∈ l
    · have hfalse : ¬ p a = true := by
        intro hp
        have htwice := h a hp
        have hpos := List.count_pos_iff.mpr ha
        rw [List.count_cons_self] at htwice
        omega
      rw [List.dedup_cons_of_mem ha, hrest, List.filter_cons_of_neg hfalse]
    · rw [List.dedup_cons_of_notMem ha, List.filter_cons, List.filter_cons, hrest]

end Dedup

namespace Net

theorem distinct (h : Net changes queue) : (queue.map (·.topic)).Nodup := by
  rw [h.order]
  exact (List.nodup_dedup _).filter _

theorem single (h : Net changes queue) :
    (queue.map (·.topic)).filter (Single changes) =
      (changes.map (·.topic)).filter (Single changes) := by
  have honce : ∀ topic, decide (Single changes topic) = true →
      (changes.map (·.topic)).count topic ≤ 1 := by
    intro topic ht
    rw [← length_about]
    exact (of_decide_eq_true ht).le
  rw [h.order, List.filter_filter, ← filter_dedup honce]
  refine List.filter_congr fun topic _ => ?_
  by_cases ht : Single changes topic
  · have hlength : (Demand.about topic changes).length = 1 := ht
    simp [ht, hlength]
  · simp [ht]

theorem of_nodup (hn : (queue.map (·.topic)).Nodup) : Net queue queue where
  last topic := by
    by_cases hm : topic ∈ queue.map (·.topic)
    · obtain ⟨queued, hqueued, rfl⟩ := List.mem_map.mp hm
      rw [about_of_mem hn hqueued]
      simp
    · rw [about_eq_nil_iff.mpr hm]
      simp
  order := by
    rw [hn.dedup]
    refine (List.filter_eq_self.mpr fun topic hm => ?_).symm
    obtain ⟨queued, hqueued, rfl⟩ := List.mem_map.mp hm
    rw [about_of_mem hn hqueued]
    simp

/-- One more change moves its topic to the end, if it is left at all. -/
theorem order_append (h : Net changes queue) (change : Demand) :
    ((changes ++ [change]).map (·.topic)).dedup.filter
        (fun topic => Odd (Demand.about topic (changes ++ [change])).length) =
      (queue.map (·.topic)).filter (· ≠ change.topic) ++
        if Odd (Demand.about change.topic changes).length then [] else [change.topic] := by
  rw [List.map_append, List.map_singleton, dedup_append_singleton, List.filter_append, h.order,
    List.filter_filter, List.filter_filter, List.filter_singleton]
  congr 1
  · refine List.filter_congr fun topic _ => ?_
    by_cases ht : change.topic = topic
    · simp [ht]
    · rw [about_append_other ht, Bool.and_comm]
  · by_cases hodd : Odd (Demand.about change.topic changes).length
    · simp [odd_about_append_self, hodd]
    · simp [odd_about_append_self, hodd]

/-- A change of a topic of which one is left takes it away. -/
theorem taken_back (h : Net changes queue) (hodd : Odd (Demand.about change.topic changes).length) :
    Net (changes ++ [change]) (queue.filter (·.topic ≠ change.topic)) where
  last topic := by
    by_cases ht : change.topic = topic
    · subst ht
      have heven : ¬ Odd (Demand.about change.topic (changes ++ [change])).length := by
        rw [odd_about_append_self, not_not]
        exact hodd
      rw [if_neg heven, about_filter_self]
    · rw [about_append_other ht, about_filter_other ht]
      exact h.last topic
  order := by
    rw [h.order_append, if_pos hodd, List.append_nil, List.filter_map]
    rfl

/-- A change of a topic of which none is left is left itself. -/
theorem appended (h : Net changes queue)
    (heven : ¬ Odd (Demand.about change.topic changes).length) :
    Net (changes ++ [change]) (queue ++ [change]) where
  last topic := by
    by_cases ht : change.topic = topic
    · subst ht
      have hnone := h.last change.topic
      rw [if_neg heven] at hnone
      rw [if_pos ((odd_about_append_self changes change).mpr heven), about_append_self,
        about_append_self, hnone, List.getLast?_concat]
      rfl
    · rw [about_append_other ht, about_append_other ht]
      exact h.last topic
  order := by
    have hnone := h.last change.topic
    rw [if_neg heven, about_eq_nil_iff] at hnone
    have hothers : (queue.map (·.topic)).filter (· ≠ change.topic) = queue.map (·.topic) := by
      refine List.filter_eq_self.mpr fun topic hm => decide_eq_true ?_
      rintro rfl
      exact hnone hm
    rw [h.order_append, if_neg heven, hothers, List.map_append, List.map_singleton]

theorem planned (h : Net changes queue) (ha : Alternates change.topic (changes ++ [change])) :
    Net (changes ++ [change]) (planned queue change) := by
  have hlast := h.last change.topic
  by_cases hodd : Odd (Demand.about change.topic changes).length
  · have hsome : Demand.about change.topic changes ≠ [] := by
      intro hnil
      simp [hnil] at hodd
    obtain ⟨queued, hq⟩ := Option.isSome_iff_exists.mp (List.getLast?_isSome.mpr hsome)
    rw [if_pos hodd, hq, Option.toList_some] at hlast
    have hm : queued ∈ Demand.about change.topic queue := by
      rw [hlast]
      exact List.mem_singleton_self _
    obtain ⟨hqueued, ht⟩ := List.mem_filter.mp hm
    rw [planned_opposite h.distinct hqueued (of_decide_eq_true ht) (ha.last_ne hq)]
    exact h.taken_back hodd
  · rw [if_neg hodd, about_eq_nil_iff] at hlast
    rw [planned_new hlast]
    exact h.appended hodd

theorem foldl_planned (h : Net changes queue) (ha : ∀ topic, Alternates topic (changes ++ more)) :
    Net (changes ++ more) (more.foldl Session.planned queue) := by
  induction more generalizing changes queue with
  | nil => simpa using h
  | cons change more ih =>
    rw [List.append_cons] at ha ⊢
    exact ih (h.planned (ha change.topic).append_left) ha

end Net

/-! Nothing but the queue changes while a batch is open. -/

theorem demand_of_blocked (hs : s.state = .subscribing) (hb : s.isBlocked = true)
    (change : Demand) : s.demand change = ({ s with queue := planned s.queue change }, .none) := by
  have hl : s.state.isLive := State.isLive_iff.mpr (Or.inl hs)
  rw [demand, if_pos hl, plan_eq]
  apply advance_of_not_ready
  exact not_ready_of_blocked hb

theorem feed_demands_of_blocked (hs : s.state = .subscribing) (hb : s.isBlocked = true)
    (changes : List Demand) :
    s.feed (changes.map .demand) = ({ s with queue := changes.foldl planned s.queue }, .none) := by
  induction changes generalizing s with
  | nil => rfl
  | cons change changes ih =>
    have hrest := ih (s := { s with queue := planned s.queue change }) hs hb
    simp only [List.map_cons, feed, respond, demand_of_blocked hs hb, andThen, hrest]
    rfl

/-- While a batch is open, changes that undo each other in turns change the queue only. Of each
topic whose changes, the queued one among them, are odd in number the last one is queued, and of any
other topic none, so that none is queued twice; topics whose changes nothing takes back stand in the
order in which they came. -/
theorem toggles_leave_net (inputs : List Input) (changes : List Demand)
    (hs : (start.feed inputs).1.state = .subscribing)
    (ha : ∀ topic, Alternates topic ((start.feed inputs).1.queue ++ changes)) :
    ∃ queue,
      (start.feed inputs).1.feed (changes.map .demand) =
        ({ (start.feed inputs).1 with queue }, .none) ∧
      Net ((start.feed inputs).1.queue ++ changes) queue ∧
      (queue.map (·.topic)).Nodup ∧
      (queue.map (·.topic)).filter (Single ((start.feed inputs).1.queue ++ changes)) =
        (((start.feed inputs).1.queue ++ changes).map (·.topic)).filter
          (Single ((start.feed inputs).1.queue ++ changes)) := by
  have hi := feed_preserves_invariant start_invariant inputs
  have hnet := (Net.of_nodup hi.distinct).foldl_planned ha
  exact ⟨_, feed_demands_of_blocked hs (hi.blocked hs) changes, hnet, hnet.distinct, hnet.single⟩

def batchOpen : List Input :=
  [.join (.parameter "p") 1, .socket .connected,
    .text "\x7b\"id\":1,\"ok\":true,\"parameter_hierarchy\":\x7b\x7d\x7d",
    .text "\x7b\"id\":0,\"ok\":true,\"output_hierarchy\":\x7b\x7d\x7d",
    .demand ⟨true, .image "a"⟩, .demand ⟨true, .image "b"⟩]

def toggles : List Demand :=
  [⟨false, .image "a"⟩, ⟨true, .image "c"⟩, ⟨false, .parameter "p"⟩, ⟨true, .image "a"⟩,
    ⟨false, .image "c"⟩]

theorem toggles_leave_net_mixed :
    (start.feed batchOpen).1.state = .subscribing ∧
      (start.feed batchOpen).1.queue = [⟨true, .image "a"⟩, ⟨true, .image "b"⟩] ∧
      (∀ topic, Alternates topic ((start.feed batchOpen).1.queue ++ toggles)) ∧
      ((start.feed batchOpen).1.feed (toggles.map .demand)).2 = .none ∧
      ((start.feed batchOpen).1.feed (toggles.map .demand)).1.queue.map (·.topic) =
        [.image "b", .parameter "p", .image "a"] := by
  have hs : (start.feed batchOpen).1.state = .subscribing := by decide +kernel
  have hqueue : (start.feed batchOpen).1.queue = [⟨true, .image "a"⟩, ⟨true, .image "b"⟩] := by
    decide +kernel
  have ha : ∀ topic, Alternates topic ((start.feed batchOpen).1.queue ++ toggles) := by
    rw [hqueue]
    decide +kernel
  obtain ⟨queue, hfeed, hnet, _⟩ := toggles_leave_net batchOpen toggles hs ha
  refine ⟨hs, hqueue, ha, ?_, ?_⟩
  · rw [hfeed]
  · rw [hfeed, hnet.order, hqueue]
    decide +kernel

end Session
end Downlink
