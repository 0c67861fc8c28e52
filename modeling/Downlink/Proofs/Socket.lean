import Downlink.Proofs.Dialer

/-!
The socket that a dialer has. While it is opening or open it is the one dialled last, to the url of
now; and wherever a step comes to dial or to hang up, there is a url or a socket to do it with.
-/
namespace Downlink.Dialer

variable {d e caller : Dialer} {event : Event} {actions : List Action} {policy : Retry}
  {turns : List Turn}

def Action.dialled? : Action → Option (Nat × String)
  | .dial socket url => some (socket, url)
  | _ => none

def lastDialled (turns : List Turn) : Option (Nat × String) :=
  ((turns.flatMap Turn.actions).filterMap Action.dialled?).getLast?

/-- The places where a step dials, with the dialer as it is there. -/
inductive Dials (d : Dialer) : Event → Dialer → Prop where
  | want (hw : d.wanted = false) (hs : d.state = .disconnected) :
      Dials d (.want true) { d with wanted := true }
  | url {url} (hu : d.url ≠ some url) (hs : d.state = .lacksUrl) :
      Dials d (.url url) { d with url := some url }
  | urlWaiting {url} (hu : d.url ≠ some url) (hs : d.state = .backOff) :
      Dials d (.url url) { d with url := some url : Dialer }.stopTimer.1
  | closed {socket} (hk : d.socket = some socket) (hs : d.state = .redialing) :
      Dials d (.closed socket) { d with socket := none }
  | elapsed (hs : d.state = .backOff) (ht : d.timerSet) :
      Dials d .elapsed { d with timerSet := false }

inductive HangsUp (d : Dialer) : Event → Dialer → Prop where
  | want (hw : d.wanted = true) (hs : d.state.isUp) :
      HangsUp d (.want false) { d with wanted := false }
  | url {url} (hu : d.url ≠ some url) (hs : d.state.isUp) :
      HangsUp d (.url url) { d with url := some url }
  | drop (hs : d.state.isUp) : HangsUp d .drop d

theorem stopTimer_url (d : Dialer) : d.stopTimer.1.url = d.url := by
  unfold stopTimer
  split <;> rfl

theorem dial_of_url {url : String} (hu : d.url = some url) :
    d.dial = (d.dialling, [.dial d.nextSocket url]) := by
  simp [dial, dialling, hu]

/-! What the places say of the steps holds of every dialer, also of one that no run leads to. -/

theorem Dials.step_eq (h : d.Dials event caller) :
    ∃ earlier, d.step event = (caller.dial.1, earlier ++ caller.dial.2) := by
  cases h with
  | want hw hs => exact ⟨[], by simp [step, setWanted, hw, hs]⟩
  | url hu hs => exact ⟨[], by simp [step, setUrl, hu, hs]⟩
  | @urlWaiting url hu hs =>
    exact ⟨({ d with url := some url } : Dialer).stopTimer.2, by simp [step, setUrl, hu, hs]⟩
  | closed hk hs => exact ⟨[], by simp [step, onClosed, hk, hs]⟩
  | elapsed hs ht => exact ⟨[], by simp [step, onElapsed, hs, ht]⟩

theorem HangsUp.step_eq (h : d.HangsUp event caller) :
    ∃ state, d.step event = caller.hangUp state := by
  cases h with
  | want hw hs =>
    refine ⟨.disconnecting, ?_⟩
    rcases State.isUp_iff.mp hs with hs | hs <;> simp [step, setWanted, hw, hs]
  | url hu hs =>
    refine ⟨.redialing, ?_⟩
    rcases State.isUp_iff.mp hs with hs | hs <;> simp [step, setUrl, hu, hs]
  | drop hs => exact ⟨d.state, if_pos (State.isUp_iff.mp hs)⟩

@[simp] theorem dial_not_mem_hangUp {state : State} {socket : Nat} {url : String} :
    .dial socket url ∉ (d.hangUp state).2 := by
  simp [hangUp]

@[simp] theorem hangUp_not_mem_dial {socket : Nat} : .hangUp socket ∉ d.dial.2 := by
  unfold dial
  split <;> simp

theorem eq_cancel_of_mem {action : Action} (hm : action ∈ d.stopTimer.2) : action = .cancel := by
  unfold stopTimer at hm
  split at hm
  · exact List.mem_singleton.mp hm
  · cases hm

@[simp] theorem dial_not_mem_stopTimer {socket : Nat} {url : String} :
    .dial socket url ∉ d.stopTimer.2 := fun hm => nomatch eq_cancel_of_mem hm

@[simp] theorem hangUp_not_mem_stopTimer {socket : Nat} : .hangUp socket ∉ d.stopTimer.2 :=
  fun hm => nomatch eq_cancel_of_mem hm

theorem exists_dials {socket : Nat} {url : String} (hm : .dial socket url ∈ (d.step event).2) :
    ∃ caller, d.Dials event caller := by
  cases event with
  | want wanted =>
    by_cases hw : wanted = d.wanted
    · simp [step, setWanted, hw] at hm
    · cases wanted with
      | true =>
        have hn : d.wanted = false := by simpa using Ne.symm hw
        cases hs : d.state with
        | disconnected => exact ⟨_, .want hn hs⟩
        | _ => simp [step, setWanted, hn, hs] at hm
      | false =>
        have hn : d.wanted = true := by simpa using Ne.symm hw
        cases hs : d.state <;> simp [step, setWanted, hn, hs] at hm
  | url other =>
    by_cases hu : d.url = some other
    · simp [step, setUrl, hu] at hm
    · cases hs : d.state with
      | lacksUrl => exact ⟨_, .url hu hs⟩
      | backOff => exact ⟨_, .urlWaiting hu hs⟩
      | _ => simp [step, setUrl, hu, hs] at hm
  | opened other => simp [step] at hm
  | closed other =>
    by_cases hk : d.socket = some other
    · cases hs : d.state with
      | redialing => exact ⟨_, .closed hk hs⟩
      | _ => simp [step, onClosed, hk, hs] at hm
    · simp [step, onClosed, hk] at hm
  | elapsed =>
    by_cases hs : d.state = .backOff ∧ d.timerSet
    · exact ⟨_, .elapsed hs.1 hs.2⟩
    · simp [step, onElapsed, hs] at hm
  | drop =>
    simp only [step, Dialer.drop] at hm
    split at hm
    · exact absurd hm dial_not_mem_hangUp
    · cases hm

theorem exists_hangsUp {socket : Nat} (hm : .hangUp socket ∈ (d.step event).2) :
    ∃ caller, d.HangsUp event caller := by
  cases event with
  | want wanted =>
    by_cases hw : wanted = d.wanted
    · simp [step, setWanted, hw] at hm
    · cases wanted with
      | true =>
        have hn : d.wanted = false := by simpa using Ne.symm hw
        cases hs : d.state <;> simp [step, setWanted, hn, hs] at hm
      | false =>
        have hn : d.wanted = true := by simpa using Ne.symm hw
        cases hs : d.state with
        | connecting | connected => exact ⟨_, .want hn (by rw [hs]; rfl)⟩
        | _ => simp [step, setWanted, hn, hs] at hm
  | url other =>
    by_cases hu : d.url = some other
    · simp [step, setUrl, hu] at hm
    · cases hs : d.state with
      | connecting | connected => exact ⟨_, .url hu (by rw [hs]; rfl)⟩
      | _ => simp [step, setUrl, hu, hs] at hm
  | opened other => simp [step] at hm
  | closed other =>
    by_cases hk : d.socket = some other
    · cases hs : d.state <;> simp [step, onClosed, hk, hs] at hm
    · simp [step, onClosed, hk] at hm
  | elapsed =>
    simp only [step, onElapsed] at hm
    split at hm
    · exact absurd hm hangUp_not_mem_dial
    · cases hm
  | drop =>
    by_cases hs : d.state = .connecting ∨ d.state = .connected
    · exact ⟨_, .drop (State.isUp_iff.mpr hs)⟩
    · simp [step, Dialer.drop, hs] at hm

theorem Dials.exists_url (h : d.Dials event caller) (hi : d.Invariant) :
    ∃ url, caller.url = some url := by
  cases h with
  | want _ hs | closed _ hs | elapsed hs => exact hi.exists_url (by rw [hs]; rfl)
  | @url url => exact ⟨url, rfl⟩
  | @urlWaiting url => exact ⟨url, stopTimer_url _⟩

theorem HangsUp.exists_socket (h : d.HangsUp event caller) (hi : d.Invariant) :
    ∃ socket, caller.socket = some socket := by
  cases h with
  | want _ hs | url _ hs | drop hs => exact hi.exists_socket (State.hasSocket_of_isUp hs)

/-- A socket that is up has been dialled by the step that led there, to the url that the step left
behind, or it was up already and nothing has changed about it. -/
theorem Move.up (m : d.Move event e actions) (hup : e.state.isUp) :
    (∃ socket url, actions.filterMap Action.dialled? = [(socket, url)] ∧
        e.socket = some socket ∧ e.url = some url) ∨
      d.state.isUp ∧ actions.filterMap Action.dialled? = [] ∧ e.socket = d.socket ∧
        e.url = d.url := by
  cases m with
  | ignore | drop => exact Or.inr ⟨hup, rfl, rfl, rfl⟩
  | connect hs => exact Or.inr ⟨State.isUp_iff.mpr (Or.inl hs), rfl, rfl, rfl⟩
  | @wishDial url _ hu | @redial _ url _ _ hu | @retry url _ _ hu =>
    exact Or.inl ⟨d.nextSocket, url, rfl, rfl, hu⟩
  | @learnDial url | @turnDial url => exact Or.inl ⟨d.nextSocket, url, rfl, rfl, rfl⟩
  | note hs => rcases hs with hs | hs | hs <;> simp [hs, State.isUp] at hup
  | _ => cases hup

theorem lastDialled_append_singleton (turns : List Turn) (turn : Turn) :
    lastDialled (turns ++ [turn]) =
      (turn.actions.filterMap Action.dialled?).getLast?.or (lastDialled turns) := by
  simp [lastDialled, List.getLast?_append]

theorem run_lastDialled (h : Run policy turns d) (hup : d.state.isUp) :
    ∃ socket url, lastDialled turns = some (socket, url) ∧ d.socket = some socket ∧
      d.url = some url := by
  induction h with
  | start => cases hup
  | @step turns d event hr ih =>
    have hm := step_moves (run_invariant hr) event
    have hturn : (⟨d, event⟩ : Turn).actions = (d.step event).2 := rfl
    rw [lastDialled_append_singleton, hturn]
    rcases hm.up hup with ⟨socket, url, hdialled, hk, hu⟩ | ⟨hbefore, hnone, hk, hu⟩
    · exact ⟨socket, url, by rw [hdialled]; rfl, hk, hu⟩
    · rw [hnone, hk, hu]
      exact ih hbefore

/-- In every state that a run leads to: a socket that is opening or open is the last one dialled, to
the url of now; the state says whether a connection is wanted and whether there are a url and a
socket; and no step comes to dial without a url, or to hang up without a socket. -/
theorem socket_is_current (h : Run policy turns d) :
    (d.state = .connecting ∨ d.state = .connected →
      ∃ socket url, lastDialled turns = some (socket, url) ∧ d.socket = some socket ∧
        d.url = some url) ∧
      (d.wanted = true ↔
        d.state ∈ [.lacksUrl, .connecting, .connected, .backOff, .redialing]) ∧
      (d.url = none ↔ d.state ∈ [.idle, .lacksUrl]) ∧
      (d.socket.isSome ↔ d.state ∈ [.connecting, .connected, .disconnecting, .redialing]) ∧
      (∀ event caller, d.Dials event caller → caller.url.isSome) ∧
      (∀ event caller, d.HangsUp event caller → caller.socket.isSome) ∧
      ∀ event,
        ((∃ caller, d.Dials event caller) ↔
          ∃ socket url, .dial socket url ∈ (d.step event).2) ∧
        ((∃ caller, d.HangsUp event caller) ↔ ∃ socket, .hangUp socket ∈ (d.step event).2) := by
  have hi := run_invariant h
  refine ⟨?_, ?_, ?_, ?_, ?_, ?_, ?_⟩
  · intro hs
    exact run_lastDialled h (State.isUp_iff.mpr hs)
  · rw [hi.wanted]
    cases d.state <;> simp [State.wants]
  · rw [← Option.not_isSome_iff_eq_none, hi.url]
    cases d.state <;> simp [State.hasUrl]
  · rw [hi.socket]
    cases d.state <;> simp [State.hasSocket]
  · intro event caller hc
    exact Option.isSome_iff_exists.mpr (hc.exists_url hi)
  · intro event caller hc
    exact Option.isSome_iff_exists.mpr (hc.exists_socket hi)
  · intro event
    constructor
    · constructor
      · rintro ⟨caller, hc⟩
        obtain ⟨url, hu⟩ := hc.exists_url hi
        obtain ⟨earlier, hstep⟩ := hc.step_eq
        refine ⟨caller.nextSocket, url, ?_⟩
        rw [hstep, dial_of_url hu]
        exact List.mem_append_right _ (List.mem_singleton_self _)
      · rintro ⟨socket, url, hm⟩
        exact exists_dials hm
    · constructor
      · rintro ⟨caller, hc⟩
        obtain ⟨socket, hk⟩ := hc.exists_socket hi
        obtain ⟨state, hstep⟩ := hc.step_eq
        refine ⟨socket, ?_⟩
        rw [hstep, hangUp, hk]
        exact List.mem_singleton_self _
      · rintro ⟨socket, hm⟩
        exact exists_hangsUp hm

/-- While the first socket is closing the url changes twice, back to what it was. -/
def swinging : List Event :=
  [.want true, .url "ws://a", .opened 1, .url "ws://b", .url "ws://a", .closed 1]

theorem socket_is_current_swinging :
    Run .standard (play .standard swinging).1 (play .standard swinging).2 ∧
      (play .standard swinging).2.socket = some 2 ∧
      (play .standard swinging).2.url = some "ws://a" ∧
      lastDialled (play .standard swinging).1 = some (2, "ws://a") ∧
      (play .standard swinging).2.wanted = true ∧
      ∃ socket, .hangUp socket ∈ ((play .standard swinging).2.step (.url "ws://c")).2 := by
  have hrun := run_play .standard swinging
  have hs : (play .standard swinging).2.state = .connecting := by decide +kernel
  have hk : (play .standard swinging).2.socket = some 2 := by decide +kernel
  have hu : (play .standard swinging).2.url = some "ws://a" := by decide +kernel
  obtain ⟨hcurrent, hwanted, _, _, _, _, hplaces⟩ := socket_is_current hrun
  obtain ⟨socket, url, hlast, hsocket, hurl⟩ := hcurrent (Or.inl hs)
  rw [hk] at hsocket
  rw [hu] at hurl
  cases hsocket
  cases hurl
  have hup : (play .standard swinging).2.HangsUp (.url "ws://c") _ :=
    .url (by simp [hu]) (by rw [hs]; rfl)
  exact ⟨hrun, hk, hu, hlast, hwanted.mpr (by simp [hs]),
    (hplaces (.url "ws://c")).2.mp ⟨_, hup⟩⟩

end Downlink.Dialer
