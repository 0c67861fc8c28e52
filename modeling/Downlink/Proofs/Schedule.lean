import Downlink.Proofs.Dialer
import Mathlib.Data.List.DropRight

/-!
The delays between attempts as a function of the history. The counter is set back when a socket
opens, and when a dialer that waits is told that no connection is wanted. Since then every loss of a
socket has made it grow once, and nothing else has touched it.
-/
namespace Downlink

namespace Retry

theorem delay_le_longest (policy : Retry) (counter : Duration) :
    (policy.delay counter).nanoseconds ≤ policy.longest.nanoseconds := by
  unfold delay Duration.min
  split
  · assumption
  · exact Nat.le_refl _

theorem after_next (policy : Retry) (counter : Duration) (n : Nat) :
    policy.after (policy.next counter) n = policy.next (policy.after counter n) := by
  induction n with
  | zero => rfl
  | succ n ih => exact congrArg policy.next ih

theorem delays_succ (policy : Retry) (counter : Duration) (n : Nat) :
    policy.delays counter (n + 1) =
      policy.delays counter n ++ [policy.delay (policy.after counter n)] := by
  induction n generalizing counter with
  | zero => rfl
  | succ n ih =>
    rw [delays, ih, after_next]
    rfl

end Retry

namespace Dialer

variable {d e : Dialer} {event : Event} {actions : List Action} {policy : Retry}
  {turns : List Turn}

def Resets (d : Dialer) : Event → Prop
  | .opened socket => d.socket = some socket ∧ d.state = .connecting
  | .want wanted => wanted = false ∧ d.state = .backOff
  | _ => False

def Loses (d : Dialer) : Event → Prop
  | .closed socket => d.socket = some socket ∧ d.state.isUp
  | _ => False

instance (d : Dialer) : (event : Event) → Decidable (d.Resets event)
  | .opened _ | .want _ => inferInstanceAs (Decidable (_ ∧ _))
  | .url _ | .closed _ | .elapsed | .drop => .isFalse id

instance (d : Dialer) : (event : Event) → Decidable (d.Loses event)
  | .closed _ => inferInstanceAs (Decidable (_ ∧ _))
  | .want _ | .url _ | .opened _ | .elapsed | .drop => .isFalse id

def Action.delay? : Action → Option Duration
  | .schedule delay => some delay
  | _ => none

/-- The delays that were scheduled since the counter was last set back, or since the start. -/
def delaysSinceReset (turns : List Turn) : List Duration :=
  (turns.rtakeWhile fun turn => !decide (turn.before.Resets turn.event)).flatMap fun turn =>
    turn.actions.filterMap Action.delay?

theorem delaysSinceReset_append_singleton (turns : List Turn) (turn : Turn) :
    delaysSinceReset (turns ++ [turn]) =
      if turn.before.Resets turn.event then []
      else delaysSinceReset turns ++ turn.actions.filterMap Action.delay? := by
  unfold delaysSinceReset
  rw [List.rtakeWhile_concat]
  by_cases hr : turn.before.Resets turn.event <;> simp [hr]

theorem Ignores.not_loses (hi : d.Ignores event) : ¬ d.Loses event := by
  cases event with
  | closed socket =>
    rintro ⟨hk, _⟩
    exact hi hk
  | _ => exact id

theorem Ignores.not_resets (hi : d.Ignores event) (h : d.Invariant) : ¬ d.Resets event := by
  cases event with
  | want wanted =>
    rintro ⟨rfl, hs⟩
    have hw := h.wanted
    rw [hs, ← show false = d.wanted from hi] at hw
    cases hw
  | opened socket =>
    rintro ⟨hk, hs⟩
    exact hi.elim (· hk) (· hs)
  | _ => exact id

theorem Move.counter_eq (m : d.Move event e actions) (h : d.Invariant) :
    e.counter =
      if d.Resets event then d.policy.initial
      else if d.Loses event then d.policy.next d.counter
      else d.counter := by
  cases m with
  | ignore hi => simp [hi.not_resets h, hi.not_loses]
  | connect hs hk => simp [Resets, hs, hk]
  | giveUp hs => simp [Resets, hs]
  | lose hs hk => simp [Resets, Loses, hs, hk]
  | leave hs =>
    rcases State.isUp_iff.mp hs with hs | hs <;> simp [Resets, Loses, hs]
  | redial hs | part hs => simp [Resets, Loses, State.isUp, hs, dialling]
  | wish hs | wishDial hs | wishBack hs | forget hs | stayAway hs =>
    simp [Resets, Loses, hs, dialling]
  | learn | learnDial | turn | turnDial | note | retry | drop => simp [Resets, Loses, dialling]

/-- A loss is what schedules an attempt. -/
theorem Move.delays_eq (m : d.Move event e actions) :
    actions.filterMap Action.delay? =
      if d.Loses event then [d.policy.delay d.counter] else [] := by
  cases m with
  | ignore hi => simp [hi.not_loses]
  | lose hs hk => simp [Loses, hs, hk, Action.delay?]
  | redial hs | part hs => simp [Loses, State.isUp, hs, Action.delay?]
  | _ => simp [Loses, Action.delay?]

theorem run_delaysSinceReset (h : Run policy turns d) :
    delaysSinceReset turns = policy.delays policy.initial (delaysSinceReset turns).length ∧
      d.counter = policy.after policy.initial (delaysSinceReset turns).length := by
  induction h with
  | start => exact ⟨rfl, rfl⟩
  | @step turns d event hr ih =>
    obtain ⟨hdelays, hcounter⟩ := ih
    have hi := run_invariant hr
    have hm := step_moves hi event
    have hturn : (⟨d, event⟩ : Turn).actions = (d.step event).2 := rfl
    rw [delaysSinceReset_append_singleton, hturn, hm.delays_eq, hm.counter_eq hi, run_policy hr]
    by_cases hreset : d.Resets event
    · simp [hreset, Retry.delays, Retry.after]
    · by_cases hlost : d.Loses event
      · simp only [hreset, hlost, if_true, if_false, List.length_append, List.length_singleton,
          Retry.delays_succ, Retry.after]
        rw [← hdelays, ← hcounter]
        exact ⟨rfl, rfl⟩
      · simpa only [hreset, hlost, if_false, List.append_nil] using ⟨hdelays, hcounter⟩

/-- After any history the counter has grown once for each delay since it was last set back, these
delays are the first ones of the policy, and a step that loses a socket schedules the next of them.
No other step schedules anything, and none but a loss and a reset changes the counter. -/
theorem delays_follow_history (h : Run policy turns d) :
    d.counter = policy.after policy.initial (delaysSinceReset turns).length ∧
      delaysSinceReset turns = policy.delays policy.initial (delaysSinceReset turns).length ∧
      ∀ event,
        (d.step event).2.filterMap Action.delay? =
            (if d.Loses event then
              [policy.delay (policy.after policy.initial (delaysSinceReset turns).length)]
            else []) ∧
          (∀ delay, .schedule delay ∈ (d.step event).2 →
            delay.nanoseconds ≤ policy.longest.nanoseconds) ∧
          (d.step event).1.counter =
            if d.Resets event then policy.initial
            else if d.Loses event then policy.next d.counter
            else d.counter := by
  obtain ⟨hdelays, hcounter⟩ := run_delaysSinceReset h
  refine ⟨hcounter, hdelays, ?_⟩
  intro event
  have hi := run_invariant h
  have hm := step_moves hi event
  have hstep := hm.delays_eq
  rw [run_policy h] at hstep
  refine ⟨?_, ?_, ?_⟩
  · rw [hstep, hcounter]
  · intro delay hmem
    have hdelay : delay ∈ (d.step event).2.filterMap Action.delay? :=
      List.mem_filterMap.mpr ⟨_, hmem, rfl⟩
    rw [hstep] at hdelay
    split at hdelay
    · rw [List.mem_singleton.mp hdelay]
      exact policy.delay_le_longest d.counter
    · cases hdelay
  · rw [hm.counter_eq hi, run_policy h]

def impatient : Retry := { Retry.standard with longest := .ofSeconds 1 }

/-- A loss, a change of mind that sets the counter back, another loss, a close event that comes too
late, and a socket that closes because the url has changed. -/
def wavering : List Event :=
  [.want true, .url "ws://a", .closed 1, .want false, .want true, .closed 2, .elapsed, .closed 2,
    .url "ws://b", .closed 3]

theorem delays_follow_history_wavering :
    Run impatient (play impatient wavering).1 (play impatient wavering).2 ∧
      (play impatient wavering).2.counter = ⟨1500000000⟩ ∧
      delaysSinceReset (play impatient wavering).1 = [.ofSeconds 1] ∧
      ((play impatient wavering).2.step (.closed 4)).2.filterMap Action.delay? = [.ofSeconds 1] ∧
      ((play impatient wavering).2.step (.opened 4)).1.counter = .ofSeconds 1 := by
  have hrun := run_play impatient wavering
  have hcount : (delaysSinceReset (play impatient wavering).1).length = 1 := by decide +kernel
  have hloses : (play impatient wavering).2.Loses (.closed 4) := by decide +kernel
  have hresets : (play impatient wavering).2.Resets (.opened 4) := by decide +kernel
  obtain ⟨hcounter, hdelays, hstep⟩ := delays_follow_history hrun
  rw [hcount] at hcounter hdelays hstep
  refine ⟨hrun, ?_, ?_, ?_, ?_⟩
  · rw [hcounter]
    decide +kernel
  · rw [hdelays]
    decide +kernel
  · rw [(hstep (.closed 4)).1, if_pos hloses]
    decide +kernel
  · rw [(hstep (.opened 4)).2.2, if_pos hresets]
    rfl

end Dialer
end Downlink
