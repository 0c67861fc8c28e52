import Downlink.Proofs.Link

/-!
The barrier of a session: its state alone tells which requests can be open, what may be queued,
which schemas are in and whether image halves may wait. It stands after any inputs at all.
-/
namespace Downlink.Session

variable {s : Session} {inputs : List Input}

structure Barrier (s : Session) : Prop where
  offline : s.state = .offline →
    s.awaited = [] ∧ s.queue = [] ∧ s.outputTypes = none ∧ s.parameterTypes = none
  /-- A schema is asked for at most once, it is not in while it is asked for, and never are both
  in. -/
  fetching : s.state = .fetching →
    s.queue = [] ∧ (∀ a ∈ s.awaited, a.2 = .outputSchema ∨ a.2 = .parameterSchema) ∧
      (s.awaited.map (·.2)).Nodup ∧
      (s.outputTypes.isSome → ∀ a ∈ s.awaited, a.2 ≠ .outputSchema) ∧
      (s.parameterTypes.isSome → ∀ a ∈ s.awaited, a.2 ≠ .parameterSchema) ∧
      ¬ (s.outputTypes.isSome ∧ s.parameterTypes.isSome)
  subscribing : s.state = .subscribing →
    s.outputTypes.isSome ∧ s.parameterTypes.isSome ∧
      (∀ a ∈ s.awaited, a.2 ≠ .outputSchema ∧ a.2 ≠ .parameterSchema) ∧
      ∃ a ∈ s.awaited, ∃ demand, a.2 = .demand demand
  subscribed : s.state = .subscribed →
    s.outputTypes.isSome ∧ s.parameterTypes.isSome ∧
      (∀ a ∈ s.awaited, ∃ tag, a.2 = .update tag) ∧ s.queue = []
  distinct : (s.queue.map (·.topic)).Nodup
  ids : (s.awaited.map (·.1)).Nodup
  below : ∀ a ∈ s.awaited, a.1 < s.nextId

theorem Awaited.blocks_iff {a : Awaited} :
    a.blocks = true ↔ a = .outputSchema ∨ a = .parameterSchema ∨ ∃ demand, a = .demand demand := by
  cases a <;> simp [Awaited.blocks]

theorem Invariant.barrier (h : s.Invariant) : s.Barrier where
  offline := h.offline
  fetching hs := by
    obtain ⟨hq, ha⟩ := h.fetching hs
    refine ⟨hq, ha, h.once hs, ?_, ?_, ?_⟩
    · intro ho a hm he
      simp [h.noOutput a hm he] at ho
    · intro hp a hm he
      simp [h.noParameter a hm he] at hp
    · rintro ⟨ho, hp⟩
      rcases h.incomplete hs with hn | hn
      · simp [hn] at ho
      · simp [hn] at hp
  subscribing hs := by
    have hl : s.state.isLive := State.isLive_iff.mpr (Or.inl hs)
    obtain ⟨ho, hp⟩ := h.live hl
    obtain ⟨a, ha, hb⟩ := List.any_eq_true.mp (h.blocked hs)
    have hn := h.no_schema hl
    refine ⟨ho, hp, hn, a, ha, ?_⟩
    rcases Awaited.blocks_iff.mp hb with he | he | hd
    · exact absurd he (hn a ha).1
    · exact absurd he (hn a ha).2
    · exact hd
  subscribed hs := by
    obtain ⟨ho, hp⟩ := h.live (State.isLive_iff.mpr (Or.inr hs))
    refine ⟨ho, hp, fun a ha => ?_, h.drained hs⟩
    have hb := isBlocked_eq_false_iff.mp (h.subscribed hs) a ha
    cases he : a.2 with
    | update tag => exact ⟨tag, rfl⟩
    | outputSchema | parameterSchema | demand => simp [he, Awaited.blocks] at hb
  distinct := h.distinct
  ids := h.ids
  below := h.below

/-! Image halves do not outlive a connection, as long as none come in between. -/

def Input.isHeard : Input → Bool
  | .text _ | .frame _ => true
  | _ => false

/-- Texts and frames come only while the session is online. -/
def HearsOnline (s : Session) : List Input → Prop
  | [] => True
  | input :: inputs =>
    (input.isHeard = true → s.state ≠ .offline) ∧ (s.respond input).1.HearsOnline inputs

instance (s : Session) (inputs : List Input) : Decidable (s.HearsOnline inputs) := by
  induction inputs generalizing s with
  | nil => exact .isTrue trivial
  | cons input inputs ih => exact inferInstanceAs (Decidable (_ ∧ _))

theorem hearsOnline_append {more : List Input} :
    s.HearsOnline (inputs ++ more) ↔ s.HearsOnline inputs ∧ (s.feed inputs).1.HearsOnline more := by
  induction inputs generalizing s with
  | nil => exact ⟨fun hm => ⟨trivial, hm⟩, And.right⟩
  | cons input inputs ih => exact (and_congr_right fun _ => ih).trans and_assoc.symm

def Discards (s : Session) : Prop := s.state = .offline → s.images = .empty

theorem onSocket_discards (h : s.Discards) (status : Status) : (s.onSocket status).1.Discards := by
  rcases s.onSocket_cases status with ⟨rfl, ho⟩ | ⟨hsame, _⟩ | ⟨hs, ho⟩
  · rw [onSocket_connected ho]
    exact fun hf => absurd hf (by simp)
  · rwa [hsame]
  · rw [onSocket_lost hs ho]
    exact fun _ => rfl

theorem respond_discards (h : s.Discards) {input : Input}
    (hi : input.isHeard = true → s.state ≠ .offline) : (s.respond input).1.Discards := by
  cases input with
  | socket status => exact onSocket_discards h status
  | demand change =>
    intro ho
    have hs : s.state = .offline := (demand_offline_iff change).mp ho
    simpa [respond, demand, hs, State.isLive] using h hs
  | update tag path value =>
    intro ho
    have hs : s.state = .offline := (update_offline_iff tag path value).mp ho
    simpa [respond, update, hs, State.isLive] using h hs
  | text text => exact fun ho => absurd ((onText_offline_iff text).mp ho) (hi rfl)
  | frame bytes =>
    intro ho
    have hiff := respond_offline_iff (s := s) (.frame bytes) fun _ => Input.noConfusion
    exact absurd (hiff.mp ho) (hi rfl)
  | join | leave => exact h

theorem feed_discards (h : s.Discards) (hi : s.HearsOnline inputs) :
    (s.feed inputs).1.Discards := by
  induction inputs generalizing s with
  | nil => exact h
  | cons input inputs ih => exact ih (respond_discards h hi.1) hi.2

end Session

namespace Link

variable {l : Link} {policy : Retry} {turns : List Turn}

theorem Invariant.inputs_hearsOnline (h : l.Invariant) (event : Event) :
    l.session.HearsOnline (l.inputs event) := by
  have honline : ∀ socket, l.accepts socket = true → l.session.state ≠ .offline := by
    intro socket ha
    refine h.online_iff.mpr ?_
    simpa [Dialer.canSend] using (Bool.and_eq_true_iff.mp ha).2
  cases event with
  | text socket text =>
    by_cases ha : l.accepts socket
    · simpa [inputs, ha, Session.HearsOnline] using fun _ => honline socket ha
    · simp [inputs, ha, Session.HearsOnline]
  | frame socket bytes =>
    by_cases ha : l.accepts socket
    · simpa [inputs, ha, Session.HearsOnline] using fun _ => honline socket ha
    · simp [inputs, ha, Session.HearsOnline]
  | subscribe topic =>
    by_cases hf : (l.session.join topic l.nextMember).2 <;>
      simp [inputs, hf, Session.HearsOnline, Session.Input.isHeard]
  | unsubscribe topic id =>
    by_cases hl : (l.session.leave topic id).2 = some true <;>
      simp [inputs, hl, Session.HearsOnline, Session.Input.isHeard]
  | _ => simp [inputs, Event.toDialer?, Session.HearsOnline, Session.Input.isHeard]

/-- The session of a link hears texts and frames only while it is online. -/
theorem run_hearsOnline (h : Run policy turns l) :
    ∃ inputs, Session.start.HearsOnline inputs ∧ (Session.start.feed inputs).1 = l.session := by
  induction h with
  | start => exact ⟨[], trivial, rfl⟩
  | @step turns l event hr ih =>
    obtain ⟨inputs, hon, hfeed⟩ := ih
    refine ⟨inputs ++ l.inputs event, Session.hearsOnline_append.mpr ⟨hon, ?_⟩, ?_⟩
    · rw [hfeed]
      exact (run_invariant hr).inputs_hearsOnline event
    · rw [Session.feed_append_fst, hfeed, step_session]
      rfl

end Link

namespace Session

/-- The barrier stands after any inputs. Where texts and frames come only online, no image half is
left offline, and that is how they come to the session of a link. -/
theorem barrier_stands (inputs : List Input) :
    (start.feed inputs).1.Barrier ∧
      (start.HearsOnline inputs → (start.feed inputs).1.state = .offline →
        (start.feed inputs).1.images = .empty) ∧
      ∀ {policy turns l}, Link.Run policy turns l →
        ∃ inputs, start.HearsOnline inputs ∧ (start.feed inputs).1 = l.session :=
  ⟨(feed_preserves_invariant start_invariant inputs).barrier,
    fun hi => feed_discards (fun _ => rfl) hi, Link.run_hearsOnline⟩

def losing : List Input :=
  [.join (.image "c") 1, .socket .connected,
    .text "\x7b\"id\":1,\"ok\":true,\"parameter_hierarchy\":\x7b\x7d\x7d",
    .text "\x7b\"id\":0,\"ok\":true,\"output_hierarchy\":\x7b\x7d\x7d",
    .frame [0, 0, 0, 0, 5, 0, 0, 0, 7], .socket .disconnected]

theorem barrier_stands_losing :
    start.HearsOnline losing ∧ (start.feed losing.dropLast).1.state = .subscribing ∧
      (start.feed losing.dropLast).1.images = ⟨[(5, [7])], []⟩ ∧
      (start.feed losing).1.state = .offline ∧ (start.feed losing).1.awaited = [] ∧
      (start.feed losing).1.images = .empty := by
  have hon : start.HearsOnline losing := by decide +kernel
  have hoff : (start.feed losing).1.state = .offline := by decide +kernel
  obtain ⟨hbarrier, himages, _⟩ := barrier_stands losing
  exact ⟨hon, by decide +kernel, by decide +kernel, hoff, (hbarrier.offline hoff).1,
    himages hon hoff⟩

end Session
end Downlink
