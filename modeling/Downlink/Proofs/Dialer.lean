import Downlink.Dialer
import Mathlib.Data.List.Induction

/-!
The transition table of a dialer, and what holds in every state that it reaches: the state alone
says whether a connection is wanted, whether there is a url and a socket, and whether the timer
runs.
-/
namespace Downlink.Dialer

def State.wants : State → Bool
  | .lacksUrl | .connecting | .connected | .backOff | .redialing => true
  | .idle | .disconnecting | .disconnected => false

def State.hasUrl : State → Bool
  | .idle | .lacksUrl => false
  | _ => true

def State.hasSocket : State → Bool
  | .connecting | .connected | .disconnecting | .redialing => true
  | .idle | .lacksUrl | .backOff | .disconnected => false

def State.waits : State → Bool
  | .backOff => true
  | _ => false

def State.isUp : State → Bool
  | .connecting | .connected => true
  | _ => false

structure Invariant (d : Dialer) : Prop where
  wanted : d.wanted = d.state.wants
  url : d.url.isSome = d.state.hasUrl
  socket : d.socket.isSome = d.state.hasSocket
  timer : d.timerSet = d.state.waits
  fresh : ∀ socket ∈ d.socket, socket < d.nextSocket

theorem start_invariant (policy : Retry) : (start policy).Invariant := by
  constructor <;> simp [start, State.wants, State.hasUrl, State.hasSocket, State.waits]

theorem State.isUp_iff {s : State} : s.isUp ↔ s = .connecting ∨ s = .connected := by
  cases s <;> simp [isUp]

theorem State.hasSocket_of_isUp {s : State} (h : s.isUp) : s.hasSocket := by
  cases s <;> first | rfl | cases h

theorem State.waits_iff {s : State} : s.waits ↔ s = .backOff := by
  cases s <;> simp [waits]

def dialling (d : Dialer) : Dialer :=
  { d with socket := some d.nextSocket, nextSocket := d.nextSocket + 1, state := .connecting }

def Ignores (d : Dialer) : Event → Prop
  | .want wanted => wanted = d.wanted
  | .url url => d.url = some url
  | .opened socket => d.socket ≠ some socket ∨ d.state ≠ .connecting
  | .closed socket => d.socket ≠ some socket
  | .elapsed => d.state ≠ .backOff
  | .drop => d.state.isUp = false

/-- The transition table: all that an event can do, with the actions that it leads to. -/
inductive Move (d : Dialer) : Event → Dialer → List Action → Prop where
  | ignore {e} (h : d.Ignores e) : Move d e d []
  | wish (hs : d.state = .idle) :
      Move d (.want true) { d with wanted := true, state := .lacksUrl } []
  | wishDial {url} (hs : d.state = .disconnected) (hu : d.url = some url) :
      Move d (.want true) { d with wanted := true }.dialling [.dial d.nextSocket url]
  | wishBack (hs : d.state = .disconnecting) :
      Move d (.want true) { d with wanted := true, state := .redialing } []
  | forget (hs : d.state = .lacksUrl) :
      Move d (.want false) { d with wanted := false, state := .idle } []
  | leave {socket} (hs : d.state.isUp) (hk : d.socket = some socket) :
      Move d (.want false) { d with wanted := false, state := .disconnecting } [.hangUp socket]
  | giveUp (hs : d.state = .backOff) (ht : d.timerSet) :
      Move d (.want false)
        { d with wanted := false, timerSet := false, counter := d.policy.initial,
                 state := .disconnected } [.cancel]
  | stayAway (hs : d.state = .redialing) :
      Move d (.want false) { d with wanted := false, state := .disconnecting } []
  | learn {url} (hs : d.state = .idle) :
      Move d (.url url) { d with url := some url, state := .disconnected } []
  | learnDial {url} (hs : d.state = .lacksUrl) :
      Move d (.url url) { d with url := some url }.dialling [.dial d.nextSocket url]
  | turn {url socket} (hs : d.state.isUp) (hk : d.socket = some socket) :
      Move d (.url url) { d with url := some url, state := .redialing } [.hangUp socket]
  | turnDial {url} (hs : d.state = .backOff) (ht : d.timerSet) :
      Move d (.url url) { d with url := some url, timerSet := false }.dialling
        [.cancel, .dial d.nextSocket url]
  | note {url}
      (hs : d.state = .disconnecting ∨ d.state = .redialing ∨ d.state = .disconnected) :
      Move d (.url url) { d with url := some url } []
  | connect {socket} (hs : d.state = .connecting) (hk : d.socket = some socket) :
      Move d (.opened socket) { d with counter := d.policy.initial, state := .connected } []
  | lose {socket} (hs : d.state.isUp) (hk : d.socket = some socket) (ht : d.timerSet = false) :
      Move d (.closed socket)
        { d with socket := none, counter := d.policy.next d.counter, timerSet := true,
                 state := .backOff } [.schedule (d.policy.delay d.counter)]
  | redial {socket url} (hs : d.state = .redialing) (hk : d.socket = some socket)
      (hu : d.url = some url) :
      Move d (.closed socket) { d with socket := none }.dialling [.dial d.nextSocket url]
  | part {socket} (hs : d.state = .disconnecting) (hk : d.socket = some socket) :
      Move d (.closed socket) { d with socket := none, state := .disconnected } []
  | retry {url} (hs : d.state = .backOff) (ht : d.timerSet) (hu : d.url = some url) :
      Move d .elapsed { d with timerSet := false }.dialling [.dial d.nextSocket url]
  | drop {socket} (hs : d.state.isUp) (hk : d.socket = some socket) :
      Move d .drop d [.hangUp socket]

variable {d e : Dialer}

theorem Invariant.exists_url (h : d.Invariant) (hs : d.state.hasUrl) : ∃ url, d.url = some url :=
  Option.isSome_iff_exists.mp (h.url.trans hs)

theorem Invariant.exists_socket (h : d.Invariant) (hs : d.state.hasSocket) :
    ∃ socket, d.socket = some socket :=
  Option.isSome_iff_exists.mp (h.socket.trans hs)

theorem Invariant.no_socket (h : d.Invariant) (hs : d.state.hasSocket = false) :
    d.socket = none := by
  simpa using h.socket.trans hs

theorem Invariant.timer_iff (h : d.Invariant) : d.timerSet ↔ d.state = .backOff := by
  rw [h.timer, State.waits_iff]

private theorem setWanted_true_moves (h : d.Invariant) (hw : d.wanted = false) :
    d.Move (.want true) (d.setWanted true).1 (d.setWanted true).2 := by
  have hn : d.state.wants = false := h.wanted.symm.trans hw
  cases hs : d.state with
  | idle => simpa [setWanted, hw, hs] using Move.wish hs
  | disconnecting => simpa [setWanted, hw, hs] using Move.wishBack hs
  | disconnected =>
    obtain ⟨url, hu⟩ := h.exists_url (by rw [hs]; rfl)
    simpa [setWanted, dial, dialling, hw, hs, hu] using Move.wishDial hs hu
  | lacksUrl | connecting | connected | backOff | redialing =>
    rw [hs] at hn
    cases hn

private theorem setWanted_false_moves (h : d.Invariant) (hw : d.wanted = true) :
    d.Move (.want false) (d.setWanted false).1 (d.setWanted false).2 := by
  have hn : d.state.wants = true := h.wanted.symm.trans hw
  cases hs : d.state with
  | lacksUrl => simpa [setWanted, hw, hs] using Move.forget hs
  | connecting | connected =>
    obtain ⟨socket, hk⟩ := h.exists_socket (by rw [hs]; rfl)
    simpa [setWanted, hangUp, hw, hs, hk] using Move.leave (by rw [hs]; rfl) hk
  | backOff =>
    have ht := h.timer_iff.mpr hs
    simpa [setWanted, stopTimer, hw, hs, ht] using Move.giveUp hs ht
  | redialing => simpa [setWanted, hw, hs] using Move.stayAway hs
  | idle | disconnecting | disconnected =>
    rw [hs] at hn
    cases hn

private theorem setUrl_moves (h : d.Invariant) (url : String) :
    d.Move (.url url) (d.setUrl url).1 (d.setUrl url).2 := by
  by_cases hu : d.url = some url
  · simpa [setUrl, hu] using Move.ignore (d := d) (e := .url url) hu
  · cases hs : d.state with
    | idle => simpa [setUrl, hu, hs] using Move.learn hs
    | lacksUrl => simpa [setUrl, dial, dialling, hu, hs] using Move.learnDial hs
    | connecting | connected =>
      obtain ⟨socket, hk⟩ := h.exists_socket (by rw [hs]; rfl)
      simpa [setUrl, hangUp, hu, hs, hk] using Move.turn (by rw [hs]; rfl) hk
    | backOff =>
      have ht := h.timer_iff.mpr hs
      simpa [setUrl, stopTimer, hu, hs, ht, dial, dialling] using Move.turnDial hs ht
    | disconnecting | redialing | disconnected =>
      have hnote : d.Move (.url url) { d with url := some url } [] := Move.note (by simp [hs])
      simpa [setUrl, hu, hs] using hnote

private theorem onOpened_moves (socket : Nat) : d.Move (.opened socket) (d.onOpened socket) [] := by
  by_cases ho : d.socket = some socket ∧ d.state = .connecting
  · simpa [onOpened, ho] using Move.connect ho.2 ho.1
  · have hi : d.Ignores (.opened socket) := Decidable.not_and_iff_not_or_not.mp ho
    simpa [onOpened, ho] using Move.ignore hi

private theorem onClosed_moves (h : d.Invariant) (socket : Nat) :
    d.Move (.closed socket) (d.onClosed socket).1 (d.onClosed socket).2 := by
  by_cases hk : d.socket = some socket
  · have hn : d.state.hasSocket = true := h.socket.symm.trans (by rw [hk]; rfl)
    cases hs : d.state with
    | connecting | connected =>
      have ht : d.timerSet = false := by rw [h.timer, hs]; rfl
      simpa [onClosed, stopTimer, hk, hs, ht] using Move.lose (by rw [hs]; rfl) hk ht
    | redialing =>
      obtain ⟨url, hu⟩ := h.exists_url (by rw [hs]; rfl)
      simpa [onClosed, dial, dialling, hk, hs, hu] using Move.redial hs hk hu
    | disconnecting => simpa [onClosed, hk, hs] using Move.part hs hk
    | idle | lacksUrl | backOff | disconnected =>
      rw [hs] at hn
      cases hn
  · simpa [onClosed, hk] using Move.ignore (d := d) (e := .closed socket) hk

private theorem onElapsed_moves (h : d.Invariant) :
    d.Move .elapsed d.onElapsed.1 d.onElapsed.2 := by
  by_cases hs : d.state = .backOff
  · have ht := h.timer_iff.mpr hs
    obtain ⟨url, hu⟩ := h.exists_url (by rw [hs]; rfl)
    simpa [onElapsed, dial, dialling, hs, ht, hu] using Move.retry hs ht hu
  · simpa [onElapsed, hs] using Move.ignore (d := d) (e := .elapsed) hs

private theorem drop_moves (h : d.Invariant) : d.Move .drop d.drop.1 d.drop.2 := by
  cases hs : d.state with
  | connecting | connected =>
    obtain ⟨socket, hk⟩ := h.exists_socket (by rw [hs]; rfl)
    have hd : d.drop = (d, [.hangUp socket]) := by
      obtain ⟨state, wanted, url, socket, next, timer, counter, policy⟩ := d
      cases hs
      cases hk
      rfl
    simpa [hd] using Move.drop (by rw [hs]; rfl) hk
  | _ =>
    have hi : d.Ignores .drop := by simp [Ignores, State.isUp, hs]
    simpa [Dialer.drop, hs] using Move.ignore hi

theorem step_moves (h : d.Invariant) (e : Event) : d.Move e (d.step e).1 (d.step e).2 := by
  cases e with
  | want wanted =>
    cases hw : d.wanted <;> cases wanted
    · simpa [step, setWanted, hw] using Move.ignore (d := d) (e := .want false) hw.symm
    · exact setWanted_true_moves h hw
    · exact setWanted_false_moves h hw
    · simpa [step, setWanted, hw] using Move.ignore (d := d) (e := .want true) hw.symm
  | url url => exact setUrl_moves h url
  | opened socket => exact onOpened_moves socket
  | closed socket => exact onClosed_moves h socket
  | elapsed => exact onElapsed_moves h
  | drop => exact drop_moves h

theorem dialling_invariant (hw : d.wanted = true) (hu : d.url.isSome) (ht : d.timerSet = false) :
    d.dialling.Invariant where
  wanted := hw
  url := hu
  socket := rfl
  timer := ht
  fresh := by simp [dialling]

theorem Move.invariant {ev : Event} {actions : List Action} (m : d.Move ev e actions)
    (h : d.Invariant) : e.Invariant := by
  have ⟨hw, hu, hk, ht, hf⟩ := h
  cases m with
  | ignore | drop => exact h
  | wishDial hs hu' =>
    exact dialling_invariant rfl (by simp [hu']) (ht.trans (by rw [hs]; rfl))
  | learnDial hs =>
    exact dialling_invariant (hw.trans (by rw [hs]; rfl)) rfl (ht.trans (by rw [hs]; rfl))
  | turnDial hs => exact dialling_invariant (hw.trans (by rw [hs]; rfl)) rfl rfl
  | redial hs _ hu' =>
    exact dialling_invariant (hw.trans (by rw [hs]; rfl)) (by simp [hu'])
      (ht.trans (by rw [hs]; rfl))
  | retry hs _ hu' => exact dialling_invariant (hw.trans (by rw [hs]; rfl)) (by simp [hu']) rfl
  | note hs =>
    rcases hs with hs | hs | hs <;> constructor <;>
      simp_all [State.wants, State.hasUrl, State.hasSocket, State.waits]
  | leave hs | turn hs | lose hs =>
    rcases State.isUp_iff.mp hs with hs | hs <;> constructor <;>
      simp_all [State.wants, State.hasUrl, State.hasSocket, State.waits]
  | _ => constructor <;> simp_all [State.wants, State.hasUrl, State.hasSocket, State.waits]

theorem step_preserves_invariant (h : d.Invariant) (ev : Event) : (d.step ev).1.Invariant :=
  (step_moves h ev).invariant h

theorem Move.policy {ev : Event} {actions : List Action} (m : d.Move ev e actions) :
    e.policy = d.policy := by
  cases m <;> rfl

theorem Move.url {ev : Event} {actions : List Action} (m : d.Move ev e actions) :
    e.url = match ev with
      | .url url => some url
      | _ => d.url := by
  cases m with
  | ignore hi =>
    cases ev with
    | url url => exact hi
    | _ => rfl
  | _ => rfl

/-- A socket that was never open: still to be dialled, or opening. -/
def Unused (d : Dialer) (socket : Nat) : Prop :=
  d.nextSocket ≤ socket ∨ d.socket = some socket ∧ d.state = .connecting

theorem dialling_unused {socket : Nat} (hs : d.dialling.Unused socket) :
    d.nextSocket ≤ socket := by
  rcases hs with hs | ⟨hs, _⟩
  · exact Nat.le_of_succ_le hs
  · exact Nat.le_of_eq (Option.some.inj hs)

theorem Move.unused {ev : Event} {actions : List Action} (m : d.Move ev e actions) {socket : Nat}
    (hs : e.Unused socket) : d.Unused socket := by
  cases m with
  | ignore | drop => exact hs
  | wishDial | learnDial | turnDial | redial | retry => exact Or.inl (dialling_unused hs)
  | note => exact hs
  | _ => exact Or.inl (by simpa [Unused] using hs)

theorem Move.connected {ev : Event} {actions : List Action} (m : d.Move ev e actions)
    (hc : e.state = .connected) : e.socket = d.socket ∧ d.state.isUp := by
  cases m with
  | ignore | drop => exact ⟨rfl, State.isUp_iff.mpr (Or.inr hc)⟩
  | connect hs => exact ⟨rfl, State.isUp_iff.mpr (Or.inl hs)⟩
  | wishDial | learnDial | turnDial | redial | retry => cases hc
  | note hs => rcases hs with hs | hs | hs <;> cases hs.symm.trans hc
  | _ => cases hc

/-! Runs under any events at all, also of sockets that the dialer never had. -/

structure Turn where
  before : Dialer
  event : Event

def Turn.actions (turn : Turn) : List Action := (turn.before.step turn.event).2

inductive Run (policy : Retry) : List Turn → Dialer → Prop where
  | start : Run policy [] (start policy)
  | step {turns d} (event : Event) : Run policy turns d →
      Run policy (turns ++ [⟨d, event⟩]) (d.step event).1

def play (policy : Retry) (events : List Event) : List Turn × Dialer :=
  events.foldl (fun run event => (run.1 ++ [⟨run.2, event⟩], (run.2.step event).1))
    ([], start policy)

theorem run_play (policy : Retry) (events : List Event) :
    Run policy (play policy events).1 (play policy events).2 := by
  induction events using List.reverseRecOn with
  | nil => exact .start
  | append_singleton events event ih =>
    have hplay : play policy (events ++ [event]) =
        ((play policy events).1 ++ [⟨(play policy events).2, event⟩],
          ((play policy events).2.step event).1) := by
      simp [play]
    rw [hplay]
    exact .step event ih

theorem run_invariant {policy : Retry} {turns : List Turn} (h : Run policy turns d) :
    d.Invariant := by
  induction h with
  | start => exact start_invariant policy
  | step event _ ih => exact step_preserves_invariant ih event

theorem run_policy {policy : Retry} {turns : List Turn} (h : Run policy turns d) :
    d.policy = policy := by
  induction h with
  | start => rfl
  | step event hr ih => exact (step_moves (run_invariant hr) event).policy.trans ih

end Downlink.Dialer
