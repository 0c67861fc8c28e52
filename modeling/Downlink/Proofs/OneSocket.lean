import Downlink.Proofs.Dialer
import Mathlib.Data.Finset.Option

/-!
A dialer in its surroundings: the sockets that live and the timer. Sockets close and the timer fires
only if they are there; everything else may happen at any time. In every run there is never more
than one socket or one timer, and the dialer knows both.
-/
namespace Downlink.Dialer

structure Surroundings where
  live : Finset Nat
  timerRuns : Bool
  dialled : List Nat

namespace Surroundings

def initial : Surroundings := ⟨∅, false, []⟩

def perform (s : Surroundings) : Action → Surroundings
  | .dial socket _ => { s with live := insert socket s.live, dialled := s.dialled ++ [socket] }
  | .hangUp _ => s
  | .schedule _ => { s with timerRuns := true }
  | .cancel => { s with timerRuns := false }

def deliver (s : Surroundings) : Event → Surroundings
  | .closed socket => { s with live := s.live.erase socket }
  | .elapsed => { s with timerRuns := false }
  | _ => s

def Possible (s : Surroundings) : Event → Prop
  | .closed socket => socket ∈ s.live
  | .elapsed => s.timerRuns
  | _ => True

/-- A socket is dialled under a new id and only where none lives, only the one that lives is hung
up, and the timer is started only while it stands still and cancelled only while it runs. -/
def Proper (s : Surroundings) : Action → Prop
  | .dial socket _ => s.live = ∅ ∧ ∀ earlier ∈ s.dialled, earlier < socket
  | .hangUp socket => s.live = {socket}
  | .schedule _ => s.timerRuns = false
  | .cancel => s.timerRuns = true

def AllProper (s : Surroundings) : List Action → Prop
  | [] => True
  | action :: actions => s.Proper action ∧ (s.perform action).AllProper actions

instance (s : Surroundings) (action : Action) : Decidable (s.Proper action) := by
  cases action <;> unfold Proper <;> infer_instance

instance (s : Surroundings) (event : Event) : Decidable (s.Possible event) := by
  cases event <;> unfold Possible <;> infer_instance

end Surroundings

structure World where
  dialer : Dialer
  around : Surroundings

namespace World

def next (w : World) (event : Event) : World :=
  ⟨(w.dialer.step event).1,
    (w.dialer.step event).2.foldl Surroundings.perform (w.around.deliver event)⟩

inductive Reachable (policy : Retry) : World → Prop where
  | start : Reachable policy ⟨.start policy, .initial⟩
  | next {w event} : Reachable policy w → w.around.Possible event → Reachable policy (w.next event)

structure Agrees (d : Dialer) (s : Surroundings) : Prop where
  live : s.live = d.socket.toFinset
  timer : s.timerRuns = d.timerSet
  dialled : ∀ socket ∈ s.dialled, socket < d.nextSocket

variable {d e : Dialer} {s : Surroundings} {event : Event} {actions : List Action}

theorem dial_agrees (url : String) (ha : Agrees d s) (hl : s.live = ∅) :
    s.AllProper [.dial d.nextSocket url] ∧
      Agrees d.dialling (s.perform (.dial d.nextSocket url)) := by
  refine ⟨⟨⟨hl, ha.dialled⟩, trivial⟩, ?_, ha.timer, ?_⟩
  · simp [Surroundings.perform, dialling, hl]
  · intro socket hs
    rcases List.mem_append.mp hs with hs | hs
    · exact Nat.lt_succ_of_lt (ha.dialled socket hs)
    · rw [List.mem_singleton.mp hs]
      exact Nat.lt_succ_self _

theorem Agrees.no_live (ha : Agrees d s) (h : d.Invariant) (hs : d.state.hasSocket = false) :
    s.live = ∅ := by
  rw [ha.live, h.no_socket hs]
  rfl

theorem Agrees.one_live {socket : Nat} (ha : Agrees d s) (hk : d.socket = some socket) :
    s.live = {socket} := by
  rw [ha.live, hk]
  rfl

theorem deliver_ignored (h : d.Invariant) (ha : Agrees d s) (hp : s.Possible event)
    (hi : d.Ignores event) : s.deliver event = s := by
  cases event with
  | closed socket =>
    have hk : d.socket = some socket := by
      simpa [ha.live] using (show socket ∈ s.live from hp)
    exact absurd hk hi
  | elapsed =>
    have ht : d.timerSet := ha.timer ▸ (show s.timerRuns from hp)
    exact absurd (h.timer_iff.mp ht) hi
  | _ => rfl

/-- One row of the transition table: its actions are proper, and dialer and surroundings agree
again after them. -/
theorem move_agrees (m : d.Move event e actions) (h : d.Invariant) (ha : Agrees d s)
    (hp : s.Possible event) :
    (s.deliver event).AllProper actions ∧
      Agrees e (actions.foldl Surroundings.perform (s.deliver event)) := by
  have ⟨hl, ht, hd⟩ := ha
  cases m with
  | ignore hi =>
    rw [deliver_ignored h ha hp hi]
    exact ⟨trivial, ha⟩
  | wish | wishBack | forget | stayAway | learn | note | connect =>
    exact ⟨trivial, hl, ht, hd⟩
  | leave _ hk | turn _ hk | drop _ hk =>
    exact ⟨⟨ha.one_live hk, trivial⟩, hl, ht, hd⟩
  | giveUp _ hon => exact ⟨⟨ht.trans hon, trivial⟩, hl, rfl, hd⟩
  | wishDial hs =>
    exact dial_agrees (d := { d with wanted := true }) _ ⟨hl, ht, hd⟩
      (ha.no_live h (by rw [hs]; rfl))
  | @learnDial url hs =>
    exact dial_agrees (d := { d with url := some url }) url ⟨hl, ht, hd⟩
      (ha.no_live h (by rw [hs]; rfl))
  | @turnDial url hs hon =>
    have hdial := dial_agrees (d := { d with url := some url, timerSet := false })
      (s := s.perform .cancel) url ⟨hl, rfl, hd⟩ (ha.no_live h (by rw [hs]; rfl))
    exact ⟨⟨ht.trans hon, hdial.1⟩, hdial.2⟩
  | lose _ hk hoff =>
    refine ⟨⟨ht.trans hoff, trivial⟩, ?_, rfl, hd⟩
    simp [Surroundings.perform, Surroundings.deliver, ha.one_live hk]
  | part _ hk =>
    refine ⟨trivial, ?_, ht, hd⟩
    simp [Surroundings.deliver, ha.one_live hk]
  | @redial socket url _ hk =>
    have hempty : (s.deliver (.closed socket)).live = ∅ := by
      simp [Surroundings.deliver, ha.one_live hk]
    exact dial_agrees (d := { d with socket := none }) url ⟨hempty, ht, hd⟩ hempty
  | retry hs =>
    exact dial_agrees (d := { d with timerSet := false }) (s := s.deliver .elapsed) _
      ⟨hl, rfl, hd⟩ (ha.no_live h (by rw [hs]; rfl))

theorem reachable_agrees {policy : Retry} {w : World} (h : Reachable policy w) :
    w.dialer.Invariant ∧ Agrees w.dialer w.around := by
  induction h with
  | start => exact ⟨start_invariant policy, by constructor <;> simp [start, Surroundings.initial]⟩
  | @next w event _ hp ih =>
    obtain ⟨hi, ha⟩ := ih
    exact ⟨step_preserves_invariant hi event, (move_agrees (step_moves hi event) hi ha hp).2⟩

/-- In every run, whatever happens next, the dialer's actions are proper, and the sockets that live
and the timer are those that it knows of. -/
theorem one_socket_one_timer {policy : Retry} {w : World} (h : Reachable policy w) :
    w.around.live = w.dialer.socket.toFinset ∧
      (w.around.timerRuns = true ↔ w.dialer.state = .backOff) ∧
      ∀ event, w.around.Possible event →
        (w.around.deliver event).AllProper (w.dialer.step event).2 := by
  obtain ⟨hi, ha⟩ := reachable_agrees h
  refine ⟨ha.live, ?_, ?_⟩
  · rw [ha.timer]
    exact hi.timer_iff
  · intro event hp
    exact (move_agrees (step_moves hi event) hi ha hp).1

/-- A lost socket, a second one, and a new url while that one is open: it is closing, and its close
event leads to the third. -/
def turning : World :=
  [.want true, .url "ws://a", .closed 1, .elapsed, .opened 2, .url "ws://b"].foldl next
    ⟨.start .standard, .initial⟩

theorem turning_reachable : Reachable .standard turning :=
  .next (.next (.next (.next (.next (.next .start trivial) trivial)
    (show 1 ∈ _ by decide)) (show _ = true by decide)) trivial) trivial

theorem one_socket_one_timer_turning :
    Reachable .standard turning ∧ turning.around.Possible (.closed 2) ∧
      turning.around.live = {2} ∧ turning.around.timerRuns = false ∧
      (turning.around.deliver (.closed 2)).AllProper [.dial 3 "ws://b"] := by
  have h := one_socket_one_timer turning_reachable
  have hp : turning.around.Possible (.closed 2) := by decide
  have ht : turning.dialer.state ≠ .backOff := by decide
  exact ⟨turning_reachable, hp, h.1, Bool.eq_false_iff.mpr fun hr => ht (h.2.1.mp hr),
    h.2.2 (.closed 2) hp⟩

end World
end Downlink.Dialer
