import Downlink.Proofs.Session
import Downlink.Proofs.Transcript

/-!
The queue between the topics that have members and the topics that are subscribed on the wire: it
holds exactly the changes that lead from the second to the first.
-/
namespace Downlink.Session

/-- What is queued takes the wire to what is held, and nothing else differs. -/
structure Agreement (queue : List Demand) (held wired : Topic → Bool) : Prop where
  distinct : (queue.map (·.topic)).Nodup
  queued : ∀ demand ∈ queue, demand.subscribe = held demand.topic ∧
    demand.subscribe ≠ wired demand.topic
  settled : ∀ topic, (∀ demand ∈ queue, demand.topic ≠ topic) → wired topic = held topic

variable {queue : List Demand} {held wired : Topic → Bool}

/-- The change of a topic that gains its first or loses its last member is queued, or it takes the
queued opposite one away: then the wire is right already. -/
theorem Agreement.planned_cases (h : Agreement queue held wired) {change : Demand}
    (hc : held change.topic = !change.subscribe) :
    (∀ demand ∈ queue, demand.topic ≠ change.topic) ∧
        Session.planned queue change = queue ++ [change] ∨
      wired change.topic = change.subscribe ∧
        Session.planned queue change = queue.filter (·.topic ≠ change.topic) := by
  by_cases hm : change.topic ∈ queue.map (·.topic)
  · obtain ⟨queued, hqueued, ht⟩ := List.mem_map.mp hm
    obtain ⟨hs, hw⟩ := h.queued queued hqueued
    rw [ht] at hs hw
    have hopposite : queued.subscribe = !change.subscribe := hs.trans hc
    refine Or.inr ⟨?_, planned_opposite h.distinct hqueued ht (by simp [hopposite])⟩
    rw [hopposite] at hw
    simpa using Bool.eq_not_of_ne hw.symm
  · refine Or.inl ⟨?_, planned_new hm⟩
    exact fun demand hd he => hm (List.mem_map.mpr ⟨demand, hd, he⟩)

theorem Agreement.planned (h : Agreement queue held wired) {change : Demand}
    (hc : held change.topic = !change.subscribe) :
    Agreement (Session.planned queue change) (Function.update held change.topic change.subscribe)
      wired := by
  have hkeep : ∀ demand ∈ queue, demand.topic ≠ change.topic →
      demand.subscribe = Function.update held change.topic change.subscribe demand.topic ∧
        demand.subscribe ≠ wired demand.topic := by
    intro demand hd hne
    rw [Function.update_of_ne hne]
    exact h.queued demand hd
  have hdistinct := planned_nodup h.distinct change
  rcases h.planned_cases hc with ⟨hnew, hp⟩ | ⟨hw, hp⟩ <;> rw [hp] at hdistinct ⊢ <;>
    refine ⟨hdistinct, ?_, ?_⟩
  · intro demand hd
    rcases List.mem_append.mp hd with hd | hd
    · exact hkeep demand hd (hnew demand hd)
    · rw [List.mem_singleton.mp hd, Function.update_self, h.settled _ hnew, hc]
      exact ⟨rfl, by simp⟩
  · intro topic hn
    have hne : topic ≠ change.topic := (hn change (by simp)).symm
    rw [Function.update_of_ne hne]
    exact h.settled topic fun demand hd => hn demand (List.mem_append_left _ hd)
  · intro demand hd
    obtain ⟨hd, hne⟩ := List.mem_filter.mp hd
    exact hkeep demand hd (by simpa using hne)
  · intro topic hn
    by_cases ht : topic = change.topic
    · rw [ht, Function.update_self, hw]
    · rw [Function.update_of_ne ht]
      refine h.settled topic ?_
      intro demand hd hdt
      have hne : demand.topic ≠ change.topic := hdt ▸ ht
      exact hn demand (List.mem_filter.mpr ⟨hd, by simpa using hne⟩) hdt

def firstBatch (audience : Audience) : List Demand :=
  Demand.sort (audience.topics.map fun topic => ⟨true, topic⟩)

theorem firstBatch_perm (audience : Audience) :
    (firstBatch audience).Perm (audience.topics.map fun topic => ⟨true, topic⟩) :=
  List.mergeSort_perm ..

theorem mem_firstBatch {audience : Audience} {demand : Demand} :
    demand ∈ firstBatch audience ↔
      demand.subscribe = true ∧ audience.contains demand.topic = true := by
  obtain ⟨subscribe, topic⟩ := demand
  rw [(firstBatch_perm audience).mem_iff, ← Audience.mem_topics_iff]
  simp [eq_comm, and_comm]

theorem firstBatch_topics_nodup {audience : Audience} (h : audience.Valid) :
    ((firstBatch audience).map (·.topic)).Nodup := by
  rw [((firstBatch_perm audience).map (·.topic)).nodup_iff, List.map_map]
  simpa [Function.comp_def] using Audience.topics_nodup h

theorem firstBatch_eq_nil_iff {audience : Audience} :
    firstBatch audience = [] ↔ audience.topics = [] := by
  rw [← List.length_eq_zero_iff, (firstBatch_perm audience).length_eq, List.length_map,
    List.length_eq_zero_iff]

theorem agreement_firstBatch {audience : Audience} (h : audience.Valid)
    (hw : ∀ topic, wired topic = false) :
    Agreement (firstBatch audience) audience.contains wired := by
  refine ⟨firstBatch_topics_nodup h, ?_, ?_⟩
  · intro demand hd
    obtain ⟨hs, hheld⟩ := mem_firstBatch.mp hd
    rw [hs, hheld, hw]
    exact ⟨rfl, by simp⟩
  · intro topic hq
    rw [hw, eq_comm, Bool.eq_false_iff]
    intro hheld
    exact hq ⟨true, topic⟩ (mem_firstBatch.mpr ⟨rfl, hheld⟩) rfl

def batch (first : Nat) (queue : List Demand) : List Request :=
  (numbered first queue).map fun p => ⟨p.1, .demand p.2⟩

theorem batch_queries (first : Nat) (queue : List Demand) :
    (batch first queue).map (·.query) = queue.map .demand := by
  rw [batch, List.map_map, ← numbered_map_snd first queue, List.map_map]
  simp [Function.comp_def]

theorem batch_ids (first : Nat) (queue : List Demand) :
    (batch first queue).map (·.id) = List.range' first queue.length := by
  rw [batch, List.map_map]
  exact numbered_map_fst first queue

theorem batch_length (first : Nat) (queue : List Demand) :
    (batch first queue).length = queue.length := by
  simpa using congrArg List.length (batch_ids first queue)

theorem batch_topics (first : Nat) (queue : List Demand) :
    (batch first queue).filterMap Request.topic? = queue.map (·.topic) := by
  rw [batch, List.filterMap_map]
  have hf : (Request.topic? ∘ fun p : Nat × Demand => ⟨p.1, .demand p.2⟩) =
      some ∘ fun p : Nat × Demand => p.2.topic := rfl
  rw [hf, List.filterMap_eq_map, ← numbered_map_snd first queue, List.map_map]
  simp [Function.comp_def]

theorem mem_batch {first : Nat} {queue : List Demand} {request : Request}
    (h : request ∈ batch first queue) : ∃ demand ∈ queue, request.query = .demand demand := by
  obtain ⟨p, hp, rfl⟩ := List.mem_map.mp h
  refine ⟨p.2, ?_, rfl⟩
  rw [← numbered_map_snd first queue]
  exact List.mem_map_of_mem hp

theorem exists_mem_batch (first : Nat) {queue : List Demand} {demand : Demand}
    (h : demand ∈ queue) : ∃ id, ⟨id, .demand demand⟩ ∈ batch first queue := by
  rw [← numbered_map_snd first queue] at h
  obtain ⟨p, hp, rfl⟩ := List.mem_map.mp h
  exact ⟨p.1, List.mem_map_of_mem hp⟩

theorem Agreement.said {words : List Word} (h : Agreement queue held (Downlink.wired words))
    (first : Nat) :
    Agreement [] held (Downlink.wired (words ++ (batch first queue).map .said)) := by
  refine ⟨List.nodup_nil, by simp, fun topic _ => ?_⟩
  by_cases hq : ∃ demand ∈ queue, demand.topic = topic
  · obtain ⟨demand, hd, rfl⟩ := hq
    obtain ⟨id, hid⟩ := exists_mem_batch first hd
    rw [wired_said_all_of_mem (by rw [batch_topics]; exact h.distinct) hid]
    exact (h.queued demand hd).1
  · have hne : ∀ demand ∈ queue, demand.topic ≠ topic := fun d hd ht => hq ⟨d, hd, ht⟩
    rw [wired_said_all_of_ne, h.settled topic hne]
    intro request hr ht
    obtain ⟨demand, hd, hquery⟩ := mem_batch hr
    rw [Request.topic?, hquery] at ht
    exact hne demand hd (Option.some.inj ht)

theorem Agreement.orderly {words : List Word} (h : Agreement queue held (Downlink.wired words))
    (ho : Orderly words) (hopen : ∀ topic, (Ledger.of words).openFor topic = []) (first : Nat) :
    Orderly (words ++ (batch first queue).map .said) := by
  refine ho.said_all (by rw [batch_topics]; exact h.distinct) fun request hr demand hd => ?_
  obtain ⟨other, hm, hq⟩ := mem_batch hr
  have he : other = demand := Query.demand.inj (hq.symm.trans hd)
  rw [he] at hm
  exact ⟨Bool.eq_not_of_ne (h.queued demand hm).2, hopen _⟩

end Downlink.Session
