import Downlink.Proofs.Pairs
import Downlink.Roster.Dispatch

/-!
A call to the members of a topic. Whatever they do to the roster while they are called, those are
called that the topic had when the call began, each of them once and in the way that the call says,
and the roster ends up with all their changes in the order of the calls.
-/
namespace Downlink.Roster

variable {K S : Type} [DecidableEq K]

/-- What was done in a call that went to these members, one after the other. -/
structure Reaches (roster : Roster K S) (behaviour : Behaviour K S) (signal : Signal)
    (called : List (Nat × S)) (result : Roster K S × List (Visit K S)) : Prop where
  called_eq : result.2.map (·.called) = called
  signal_eq : ∀ visit ∈ result.2, visit.signal = signal
  roster_eq : result.1 = (result.2.flatMap (·.changes)).foldl change roster
  changes_eq : ∀ before visit after, result.2 = before ++ visit :: after →
    visit.changes = behaviour before signal visit.called

theorem Reaches.visit {roster : Roster K S} {behaviour : Behaviour K S} {signal : Signal}
    {called : List (Nat × S)} {done : Roster K S × List (Visit K S)}
    (h : Reaches roster behaviour signal called done) (last : Nat × S) :
    Reaches roster behaviour signal (called ++ [last]) (visit behaviour signal done last) := by
  obtain ⟨hcalled, hsignal, hroster, hchanges⟩ := h
  constructor
  · rw [Roster.visit, List.map_append, hcalled]
    rfl
  · intro one hm
    rcases List.mem_append.mp hm with hm | hm
    · exact hsignal one hm
    · rw [List.mem_singleton.mp hm]
  · simp [Roster.visit, hroster]
  · intro before one after hsplit
    rcases List.eq_nil_or_concat' after with rfl | ⟨after, other, rfl⟩
    · obtain ⟨rfl, hone⟩ := List.append_inj' hsplit rfl
      rw [← List.singleton_inj.mp hone]
    · rw [← List.cons_append, ← List.append_assoc] at hsplit
      obtain ⟨hvisits, _⟩ := List.append_inj' hsplit rfl
      exact hchanges before one after hvisits

theorem visitAll_reaches (roster : Roster K S) (behaviour : Behaviour K S) (signal : Signal)
    (called : List (Nat × S)) :
    Reaches roster behaviour signal called (roster.visitAll behaviour signal called) := by
  induction called using List.reverseRecOn with
  | nil => constructor <;> simp [visitAll]
  | append_singleton called last ih =>
    rw [visitAll, List.foldl_append]
    exact ih.visit last

/-- Calling the members of a topic, in whatever order, reaches exactly those that it had when the
call began, each once, although some may be gone or replaced when their turn comes, and nobody who
has come meanwhile. Each acts on what the visits before it left behind, and the roster afterwards is
the one before with all changes made in the order of the visits. -/
theorem call_reaches_members (history : List (Change K S)) (topic : K) (signal : Signal)
    (behaviour : Behaviour K S) (order : List (Nat × S) → List (Nat × S))
    (ho : ∀ members, (order members).Perm members) :
    ∃ visits,
      (ofChanges history).callMembers behaviour order signal topic =
          (ofChanges (history ++ visits.flatMap (·.changes)), visits) ∧
        (visits.map (·.called)).Perm ((ofChanges history).members topic) ∧
        (visits.map (·.called.1)).Nodup ∧
        visits.length = ((ofChanges history).ids topic).length ∧
        (∀ visit ∈ visits, visit.signal = signal) ∧
        ∀ before visit after, visits = before ++ visit :: after →
          visit.changes = behaviour before signal visit.called := by
  have hperm := ho ((ofChanges history).members topic)
  obtain ⟨hcalled, hsignal, hroster, hchanges⟩ := visitAll_reaches (ofChanges history) behaviour
    signal (order ((ofChanges history).members topic))
  rw [← hcalled] at hperm
  have hids := hperm.map Prod.fst
  rw [List.map_map] at hids
  refine ⟨_, ?_, hperm, ?_, ?_, hsignal, hchanges⟩
  · rw [ofChanges_append, ← hroster]
    rfl
  · exact hids.nodup_iff.mpr ((ofChanges_occupies history).distinct topic)
  · rw [← List.length_map, hids.length_eq]
    rfl

/-- When it is called, the first member removes the second one, replaces itself and adds a third. -/
def unruly : List (Change String (Conduct String)) :=
  [.join "a" 1 ⟨[.leave "a" 2, .join "a" 1 [] [], .join "a" 3 [] []], []⟩, .join "a" 2 ⟨[], []⟩,
    .join "b" 3 ⟨[.leave "a" 1], []⟩]

theorem call_reaches_members_unruly :
    (∀ members : List (Nat × Conduct String), (id members).Perm members) ∧
      ((ofChanges unruly).dispatch .data "a").2 = [1, 2] ∧
      ((ofChanges unruly).dispatch .data "a").1.ids "a" = [1, 3] ∧
      ∃ visits : List (Visit String (Conduct String)),
        (ofChanges unruly).dispatch .data "a" =
            (ofChanges (unruly ++ visits.flatMap (·.changes)), visits.map (·.called.1)) ∧
          visits.length = 2 ∧ (visits.map (·.called.1)).Nodup := by
  have horder : ∀ members : List (Nat × Conduct String), (id members).Perm members :=
    fun _ => .refl _
  obtain ⟨visits, hcall, _, hnodup, hlength, _⟩ :=
    call_reaches_members unruly "a" .data scripted id horder
  exact ⟨horder, by decide, by decide, visits, by rw [dispatch, hcall], hlength, hnodup⟩

end Downlink.Roster
