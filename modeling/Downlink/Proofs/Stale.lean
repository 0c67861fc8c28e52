import Downlink.Proofs.Link

/-!
What comes too late. The word of a socket counts only while the socket is the current one and in its
turn: to open while it is opening, texts and frames while it is connected. All else leaves the link
as it is, and nobody hears of it.
-/
namespace Downlink

theorem Dialer.step_of_ignores {d : Dialer} {event : Dialer.Event} (h : d.Ignores event) :
    d.step event = (d, []) := by
  cases event with
  | want wanted => exact if_pos h
  | url url => exact if_pos h
  | opened socket =>
    have hn : ¬ (d.socket = some socket ∧ d.state = .connecting) :=
      Decidable.not_and_iff_not_or_not.mpr h
    rw [step, onOpened, if_neg hn]
  | closed socket => exact if_pos h
  | elapsed =>
    apply if_neg
    rintro ⟨hs, _⟩
    exact h hs
  | drop =>
    apply if_neg
    rw [← State.isUp_iff]
    simpa [Ignores] using h

namespace Link

variable {l : Link} {policy : Retry} {turns : List Turn} {event : Event}

/-- The event is the word of a socket that is not the current one, or not in its turn. -/
def Stale (l : Link) : Event → Prop
  | .opened socket => l.dialer.socket ≠ some socket ∨ l.dialer.state ≠ .connecting
  | .closed socket => l.dialer.socket ≠ some socket
  | .text socket _ | .frame socket _ =>
    l.dialer.socket ≠ some socket ∨ l.dialer.state ≠ .connected
  | _ => False

theorem not_accepts_iff {socket : Nat} :
    l.accepts socket = false ↔ l.dialer.socket ≠ some socket ∨ l.dialer.state ≠ .connected := by
  rw [← Bool.not_eq_true, accepts_iff, Decidable.not_and_iff_not_or_not]

/-- The session is told of the socket after every event of the dialer, also after one that counts
for nothing; between two events it knows already. -/
theorem Invariant.onDialer_of_ignores (h : l.Invariant) (event : Dialer.Event)
    (hi : l.dialer.Ignores event) : l.onDialer event = (l, []) := by
  have hsocket : l.session.onSocket l.dialer.status = (l.session, .none) := by
    apply Session.onSocket_same
    rw [Dialer.status_eq_connected_iff, h.online_iff]
  have htold : l.carryOut .none = (l, []) := by
    simp [carryOut, Session.Effects.none, tellStatus_same h.status]
  simp [onDialer, Dialer.step_of_ignores hi, hsocket, htold]

/-- An event that comes too late changes nothing at all, asks for nothing and is told to nobody. -/
theorem stale_ignored (h : Run policy turns l) (hs : l.Stale event) : l.step event = (l, []) := by
  have hi := run_invariant h
  cases event with
  | opened socket => exact hi.onDialer_of_ignores (.opened socket) hs
  | closed socket => exact hi.onDialer_of_ignores (.closed socket) hs
  | text socket text => simp [step, onText, not_accepts_iff.mpr hs]
  | frame socket bytes => simp [step, onFrame, not_accepts_iff.mpr hs]
  | _ => exact hs.elim

/-- A schema could not be had, and the socket that was hung up has not ended when the url changes.
It ends, and the next one is opening. -/
def reopening : List Event :=
  [.listenStatus, .subscribe (.parameter "p"), .want true, .url "ws://a", .opened 1,
    .text 1 "\x7b\"id\":0,\"ok\":false\x7d", .url "ws://b", .closed 1]

theorem stale_ignored_reopening :
    (play .standard reopening).2.dialer.socket = some 2 ∧
      (play .standard reopening).2.step (.closed 1) = ((play .standard reopening).2, []) ∧
      (play .standard reopening).2.step (.frame 2 [0, 0, 0, 0, 5, 0, 0, 0, 7]) =
        ((play .standard reopening).2, []) := by
  have hrun := run_play .standard reopening
  have hsocket : (play .standard reopening).2.dialer.socket = some 2 := by decide +kernel
  have hlate : (play .standard reopening).2.Stale (.closed 1) := by
    simp [Stale, hsocket]
  have hearly : (play .standard reopening).2.dialer.state ≠ .connected := by decide +kernel
  exact ⟨hsocket, stale_ignored hrun hlate, stale_ignored hrun (Or.inr hearly)⟩

end Link
end Downlink
