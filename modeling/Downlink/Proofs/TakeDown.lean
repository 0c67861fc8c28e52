import Downlink.Proofs.Listeners
import Downlink.Proofs.Task

/-!
The end of a task. Whatever it was about to do when it is told to stop, it takes nothing with it: no
timer, no socket, and no status but one of not being connected.
-/
namespace Downlink

/-- Where no connection is wanted any more, the socket stays as it is and none is dialled. -/
theorem Dialer.Move.unwanted {d e : Dialer} {acts : List Action}
    (m : d.Move (.want false) e acts) :
    e.wanted = false ∧ e.socket = d.socket ∧ ∀ socket url, .dial socket url ∉ acts := by
  cases m with
  | ignore hi => exact ⟨hi.symm, rfl, by simp⟩
  | _ => simp

theorem Dialer.Invariant.status_unwanted {d : Dialer} (h : d.Invariant) (hw : d.wanted = false) :
    d.status = if d.socket.isSome then .disconnecting else .disconnected := by
  have hwants : d.state.wants = false := h.wanted.symm.trans hw
  rw [h.socket, Dialer.status]
  cases hs : d.state with
  | idle | disconnecting | disconnected => rfl
  | lacksUrl | connecting | connected | backOff | redialing =>
    rw [hs] at hwants
    cases hwants

namespace Link

variable {l : Link}

def Entry.status? : Entry → Option Status
  | .status _ current => some current
  | _ => none

def Entry.dial? : Entry → Option (Nat × String)
  | .action (.dial socket url) => some (socket, url)
  | _ => none

theorem statuses_step {listener : Nat} (h : l.statusListeners = [listener]) (event : Event) :
    (l.step event).2.filterMap Entry.status? =
      if (l.step event).1.status = l.status then [] else [(l.step event).1.status] := by
  have hlistener : ∀ other status, .status other status ∈ (l.step event).2 → other = listener := by
    intro other status hm
    by_contra ho
    have htold := l.step_tells event other
    have hnone : List.replicate (l.statusListeners.count other) (l.step event).1.status = [] := by
      rw [h, List.count_eq_zero.mpr (by simpa using ho)]
      rfl
    rw [hnone, ite_self, told, List.filterMap_eq_nil_iff] at htold
    simpa using htold _ hm
  have hsame : (l.step event).2.filterMap Entry.status? = told listener (l.step event).2 := by
    refine List.filterMap_congr fun entry hm => ?_
    cases entry with
    | status other status => exact (if_pos (hlistener other status hm)).symm
    | _ => rfl
  have hone : List.replicate (l.statusListeners.count listener) (l.step event).1.status =
      [(l.step event).1.status] := by
    rw [h, List.count_singleton_self]
    rfl
  rw [hsame, l.step_tells event listener, hone]

/-- What is left of a link that is no longer wanted is the end of its socket. -/
theorem Invariant.step_unwanted (h : l.Invariant) :
    (l.step (.want false)).1.status =
        (if l.dialer.socket.isSome then .disconnecting else .disconnected) ∧
      (l.step (.want false)).2.filterMap Entry.dial? = [] := by
  have hnext := step_preserves_invariant h (.want false)
  obtain ⟨ev, hev, hmove⟩ := (h.step_moves (.want false)).resolve_right (by simp [Event.toDialer?])
  cases hev
  obtain ⟨hwanted, hsocket, hdials⟩ := hmove.unwanted
  constructor
  · have hstatus := hnext.dialer.status_unwanted hwanted
    rw [hsocket] at hstatus
    rw [hnext.status_of_down, hstatus]
    rw [hstatus]
    split <;> simp
  · rw [List.filterMap_eq_nil_iff]
    intro entry hm
    cases entry with
    | action action =>
      cases action with
      | dial socket url =>
        have hdial : .dial socket url ∈ actions (l.step (.want false)).2 :=
          List.mem_filterMap.mpr ⟨_, hm, rfl⟩
        exact absurd hdial (hdials socket url)
      | _ => rfl
    | _ => rfl

end Link

namespace Task

variable {t u : Task} {policy : Retry} {turns after : List Turn} {input stop : Input}
  {effects : List Effect}

def Effect.status? : Effect → Option Status
  | .status current => some current
  | _ => none

def Effect.dial? : Effect → Option (Nat × String)
  | .dial socket url => some (socket, url)
  | _ => none

/-- The status that was last told; at first that is taken to be disconnected. -/
def observed (turns : List Turn) : Status :=
  ((turns.flatMap (·.effects)).filterMap Effect.status?).getLastD .disconnected

def effectOf? : Link.Entry → Option Effect
  | .action (.dial socket url) => some (.dial socket url)
  | .status _ status => some (.status status)
  | .fault _ fault => some (.fault fault)
  | .call call => some (.call call)
  | .action (.hangUp _) | .action (.schedule _) | .action .cancel | .sent _ _ => none

def Effect.isInner : Effect → Bool
  | .hangUp _ | .send _ _ | .startTimer _ _ | .stopTimer _ => true
  | .dial _ _ | .status _ | .fault _ | .call _ => false

theorem perform_filterMap {A : Type} {f : Effect → Option A}
    (hf : ∀ effect : Effect, effect.isInner = true → f effect = none) (t : Task)
    (entry : Link.Entry) : (t.perform entry).2.filterMap f = ((effectOf? entry).bind f).toList := by
  have hinner : ∀ effects : List Effect, (∀ effect ∈ effects, effect.isInner = true) →
      effects.filterMap f = [] := by
    intro effects he
    exact List.filterMap_eq_nil_iff.mpr fun effect hm => hf effect (he effect hm)
  have houter : ∀ effect, [effect].filterMap f = (f effect).toList := by
    intro effect
    rw [List.filterMap_cons]
    cases f effect <;> rfl
  cases entry with
  | action action =>
    cases action with
    | dial socket url => exact houter _
    | hangUp socket =>
      apply hinner
      simp only [perform, hangUp]
      split <;> simp [Effect.isInner]
    | schedule delay =>
      apply hinner
      simp only [perform, startTimer, stopTimer]
      cases t.timer <;> simp [Effect.isInner]
    | cancel =>
      apply hinner
      simp only [perform, stopTimer]
      cases t.timer <;> simp [Effect.isInner]
  | sent socket request =>
    apply hinner
    simp only [perform]
    split <;> simp [Effect.isInner]
  | status | fault | call => exact houter _

theorem performAll_filterMap {A : Type} {f : Effect → Option A}
    (hf : ∀ effect : Effect, effect.isInner = true → f effect = none) (t : Task)
    (log : List Link.Entry) :
    (t.performAll log).2.filterMap f = log.filterMap fun entry => (effectOf? entry).bind f := by
  induction log generalizing t with
  | nil => rfl
  | cons entry log ih =>
    rw [performAll, List.filterMap_append, perform_filterMap hf, ih, List.filterMap_cons]
    cases (effectOf? entry).bind f <;> rfl

theorem status?_of_inner (effect : Effect) (h : effect.isInner = true) : effect.status? = none := by
  cases effect <;> cases h <;> rfl

theorem dial?_of_inner (effect : Effect) (h : effect.isInner = true) : effect.dial? = none := by
  cases effect <;> cases h <;> rfl

theorem follow_statuses (t : Task) (result : Link × List Link.Entry) :
    (t.follow result).2.filterMap Effect.status? = result.2.filterMap Link.Entry.status? := by
  rw [follow, performAll_filterMap status?_of_inner]
  refine List.filterMap_congr fun entry _ => ?_
  cases entry with
  | action action => cases action <;> rfl
  | _ => rfl

theorem follow_dials (t : Task) (result : Link × List Link.Entry) :
    (t.follow result).2.filterMap Effect.dial? = result.2.filterMap Link.Entry.dial? := by
  rw [follow, performAll_filterMap dial?_of_inner]
  refine List.filterMap_congr fun entry _ => ?_
  cases entry with
  | action action => cases action <;> rfl
  | _ => rfl

/-- What is taken down at the end, the timer and the sockets, is neither a status nor a dial. -/
theorem takeDown_filterMap {A : Type} {f : Effect → Option A}
    (hf : ∀ effect : Effect, effect.isInner = true → f effect = none) (t : Task) :
    t.takeDown.2.filterMap f = (t.follow (t.link.step (.want false))).2.filterMap f := by
  have hrest : ∀ effect ∈ (t.follow (t.link.step (.want false))).1.stopTimer.2 ++
      (t.follow (t.link.step (.want false))).1.sockets.map .hangUp, effect.isInner = true := by
    intro effect hm
    rcases List.mem_append.mp hm with hm | hm
    · obtain ⟨timer, _, rfl⟩ := List.mem_map.mp hm
      rfl
    · obtain ⟨socket, _, rfl⟩ := List.mem_map.mp hm
      rfl
  rw [takeDown_eq, List.append_assoc, List.filterMap_append,
    List.filterMap_eq_nil_iff.mpr fun effect hm => hf effect (hrest effect hm), List.append_nil]

theorem observed_append_singleton (turns : List Turn) (turn : Turn) :
    observed (turns ++ [turn]) =
      (turn.effects.filterMap Effect.status?).getLastD (observed turns) := by
  rw [observed, observed, List.flatMap_append, List.filterMap_append, List.flatMap_singleton]
  rcases List.eq_nil_or_concat' (turn.effects.filterMap Effect.status?) with hnil | ⟨told, last, hl⟩
  · rw [hnil, List.append_nil, List.getLastD_nil]
  · rw [hl, ← List.append_assoc, List.getLastD_concat, List.getLastD_concat]

theorem event?_listeners {event : Link.Event} (he : t.event? input = some event) :
    (t.link.step event).1.statusListeners = t.link.statusListeners := by
  rw [(Link.step_listeners t.link event).1]
  cases input with
  | command command => cases command <;> cases he <;> rfl
  | report report =>
    cases report with
    | elapsed timer => rw [(event?_elapsed he).2]
    | _ => cases he; rfl
  | deserted => cases he

theorem observed_step (event : Link.Event) {turn : Turn} (hlisteners : t.link.statusListeners = [1])
    (hobserved : observed turns = t.link.status)
    (hturn : turn.effects.filterMap Effect.status? =
      (t.link.step event).2.filterMap Link.Entry.status?) :
    observed (turns ++ [turn]) = (t.link.step event).1.status := by
  rw [observed_append_singleton, hturn, Link.statuses_step hlisteners, hobserved]
  split
  next hs => rw [hs, List.getLastD_nil]
  next => rfl

/-- What is observed of a task is the status of its link. -/
theorem run_observed (h : Run policy turns t) :
    t.link.statusListeners = [1] ∧ observed turns = t.link.status := by
  induction h with
  | start => exact ⟨rfl, rfl⟩
  | @act turns t input _ ih =>
    obtain ⟨hlisteners, hobserved⟩ := ih
    generalize hact : t.act input = result
    cases hact ▸ act_acted t input with
    | rests =>
      refine ⟨hlisteners, ?_⟩
      rw [observed_append_singleton]
      exact hobserved
    | @follows event hr he =>
      rw [(follow_keeps _ _).1]
      constructor
      · exact (event?_listeners he).trans hlisteners
      · exact observed_step event hlisteners hobserved (follow_statuses _ _)
    | ends =>
      have hlink : t.takeDown.1.link = (t.link.step (.want false)).1 := (follow_keeps _ _).1
      rw [hlink]
      constructor
      · exact (Link.step_listeners t.link (.want false)).1.trans hlisteners
      · apply observed_step (.want false) hlisteners hobserved
        rw [takeDown_filterMap status?_of_inner]
        exact follow_statuses _ _

/-- A task that has stopped does nothing any more. -/
theorem Run.stopped (ht : Run policy turns t) (hr : t.running = false)
    (h : Run policy (turns ++ after) u) : u = t ∧ ∀ turn ∈ after, turn.effects = [] := by
  induction after using List.reverseRecOn generalizing u with
  | nil =>
    rw [List.append_nil] at h
    exact ⟨h.eq ht, by simp⟩
  | append_singleton after last ih =>
    rw [← List.append_assoc] at h
    obtain ⟨t₀, ht₀, hlast, rfl⟩ := h.last
    obtain ⟨rfl, hafter⟩ := ih ht₀
    have hact := act_of_stopped hr last.input
    rw [hact] at hlast ⊢
    refine ⟨rfl, fun turn hm => ?_⟩
    rcases List.mem_append.mp hm with hm | hm
    · exact hafter turn hm
    · rw [List.mem_singleton.mp hm, hlast]

/-- When a task is told to stop, or nobody is left who could tell it anything, no timer and no
socket of all that it ever began is left running. It dials nothing on the way, and afterwards it
does nothing at all, whatever is still reported, and refuses every command. What is last observed is
that the socket is closing if there was one, and else that there is none. -/
theorem shutdown_leaves_nothing (h : Run policy turns t) (hr : t.running = true)
    (hstop : stop = .command .shutdown ∨ stop = .deserted)
    (hu : Run policy (turns ++ ⟨stop, effects⟩ :: after) u) :
    u.timer = none ∧ u.sockets = [] ∧
      (∀ resource, ¬ Lasts resource (marks (turns ++ ⟨stop, effects⟩ :: after))) ∧
      (∀ socket url, .dial socket url ∉ effects) ∧ (∀ turn ∈ after, turn.effects = []) ∧
      observed (turns ++ ⟨stop, effects⟩ :: after) =
        (if t.link.dialer.socket.isSome then .disconnecting else .disconnected) ∧
      ∀ command, u.command command = ((u, []), .fault .stopped) := by
  obtain ⟨_, hlink⟩ := run_link h
  obtain ⟨hstatus, hdials⟩ := (Link.run_invariant hlink).step_unwanted
  obtain ⟨heffects, hstopped⟩ := h.next hu
  have hact : t.act stop = t.takeDown := act_of_ends hr (by rcases hstop with rfl | rfl <;> rfl)
  dsimp only at heffects hstopped
  rw [hact] at heffects hstopped
  rw [List.append_cons] at hu
  obtain ⟨rfl, hafter⟩ := hstopped.stopped rfl hu
  obtain ⟨hinventory, _⟩ := run_inventory hu
  rw [List.append_cons]
  refine ⟨rfl, rfl, ?_, ?_, hafter, ?_, fun command => rfl⟩
  · intro resource hlasts
    cases resource with
    | socket socket =>
      have hs : socket ∈ ([] : List Nat) := (hinventory.sockets socket).mpr hlasts
      cases hs
    | timer timer =>
      have ht : none = some timer := (hinventory.timer timer).mpr hlasts
      cases ht
  · intro socket url hm
    have hnone : t.takeDown.2.filterMap Effect.dial? = [] := by
      rw [takeDown_filterMap dial?_of_inner, follow_dials, hdials]
    rw [heffects] at hm
    rw [List.filterMap_eq_nil_iff] at hnone
    cases hnone _ hm
  · rw [(run_observed hu).2, ← hstatus]
    exact congrArg Link.status (follow_keeps _ _).1

def leaving : List Input :=
  [.command (.want true), .command (.url "ws://a"), .report (.failed 1 (.socket "refused")),
    .report (.closed 1), .command (.url "ws://b")]

/-- The first timer has expired already, and the second socket ends after all. -/
def late : List Input := [.report (.elapsed 1), .report (.closed 2), .command (.want true)]

theorem shutdown_leaves_nothing_late :
    (play .standard leaving).2.link.dialer.socket = some 2 ∧
      (play .standard leaving).2.sockets = [2] ∧
      observed (play .standard leaving).1 = .connecting ∧
      (play .standard (leaving ++ .command .shutdown :: late)).2.sockets = [] ∧
      observed (play .standard (leaving ++ .command .shutdown :: late)).1 = .disconnecting := by
  have hr : (play .standard leaving).2.running = true := by decide +kernel
  have hsocket : (play .standard leaving).2.link.dialer.socket = some 2 := by decide +kernel
  have hsplit : (play .standard (leaving ++ .command .shutdown :: late)).1 =
      (play .standard leaving).1 ++
        ⟨.command .shutdown, [.hangUp 2, .status .disconnecting]⟩ :: late.map (⟨·, []⟩) := by
    decide +kernel
  have hrun := run_play .standard (leaving ++ .command .shutdown :: late)
  rw [hsplit] at hrun ⊢
  obtain ⟨_, hsockets, _, _, _, hlast, _⟩ :=
    shutdown_leaves_nothing (run_play .standard leaving) hr (Or.inl rfl) hrun
  rw [hsocket] at hlast
  exact ⟨hsocket, by decide +kernel, by decide +kernel, hsockets, hlast⟩

end Task
end Downlink
