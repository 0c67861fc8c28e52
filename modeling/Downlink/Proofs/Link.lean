import Downlink.Link
import Downlink.Proofs.Dialer
import Downlink.Proofs.Session
import Mathlib.Data.List.Induction

/-!
Runs of a link. Every event first moves the dialer, then reaches the session, and what the session
asks for is carried out; between two events the two layers are in step.
-/
namespace Downlink

theorem Dialer.drop_fst (d : Dialer) : d.drop.1 = d := by
  unfold drop
  split <;> rfl

theorem Dialer.status_eq_connected_iff (d : Dialer) :
    d.status = .connected ↔ d.state = .connected := by
  cases hs : d.state <;> simp [Dialer.status, Dialer.State.status, hs]

namespace Link

variable {l : Link} {policy : Retry}

structure Turn where
  event : Event
  log : List Entry

inductive Run (policy : Retry) : List Turn → Link → Prop where
  | start : Run policy [] (.start policy)
  | step {turns l} (event : Event) : Run policy turns l →
      Run policy (turns ++ [⟨event, (l.step event).2⟩]) (l.step event).1

def play (policy : Retry) (events : List Event) : List Turn × Link :=
  events.foldl
    (fun run event => (run.1 ++ [⟨event, (run.2.step event).2⟩], (run.2.step event).1))
    ([], .start policy)

theorem play_append_singleton (policy : Retry) (events : List Event) (event : Event) :
    play policy (events ++ [event]) =
      ((play policy events).1 ++ [⟨event, ((play policy events).2.step event).2⟩],
        ((play policy events).2.step event).1) := by
  simp [play]

theorem run_play (policy : Retry) (events : List Event) :
    Run policy (play policy events).1 (play policy events).2 := by
  induction events using List.reverseRecOn with
  | nil => exact .start
  | append_singleton events event ih =>
    rw [play_append_singleton]
    exact .step event ih

theorem Run.nil (h : Run policy [] l) : l = .start policy := by
  generalize hall : [] = all at h
  cases h with
  | start => rfl
  | step => simp at hall

theorem Run.last {turns : List Turn} {event : Event} {log : List Entry}
    (h : Run policy (turns ++ [⟨event, log⟩]) l) :
    ∃ l₀, Run policy turns l₀ ∧ log = (l₀.step event).2 ∧ l = (l₀.step event).1 := by
  generalize hall : turns ++ [⟨event, log⟩] = all at h
  cases h with
  | start => simp at hall
  | @step earlier l₀ event h₀ =>
    obtain ⟨rfl, hturn⟩ := List.append_inj' hall rfl
    cases hturn
    exact ⟨l₀, h₀, rfl, rfl⟩

theorem Run.eq {turns : List Turn} {m : Link} (h : Run policy turns l) (hm : Run policy turns m) :
    l = m := by
  induction h generalizing m with
  | start => exact hm.nil.symm
  | step event _ ih =>
    obtain ⟨m₀, hm₀, _, rfl⟩ := hm.last
    rw [ih hm₀]

theorem Run.before {turns after : List Turn} (h : Run policy (turns ++ after) l) :
    ∃ l₀, Run policy turns l₀ := by
  induction after using List.reverseRecOn generalizing l with
  | nil => exact ⟨l, by simpa using h⟩
  | append_singleton after turn ih =>
    rw [← List.append_assoc] at h
    obtain ⟨l₀, h₀, _⟩ := h.last
    exact ih h₀

/-- A longer run goes on from the link that a shorter one leads to. -/
theorem Run.next {turns after : List Turn} {turn : Turn} {m : Link} (hm : Run policy turns m)
    (h : Run policy (turns ++ turn :: after) l) :
    turn = ⟨turn.event, (m.step turn.event).2⟩ ∧
      Run policy (turns ++ [turn]) (m.step turn.event).1 := by
  rw [List.append_cons] at h
  obtain ⟨_, hturn⟩ := h.before
  obtain ⟨event, log⟩ := turn
  obtain ⟨m₀, hm₀, rfl, rfl⟩ := hturn.last
  obtain rfl := hm.eq hm₀
  exact ⟨rfl, hturn⟩

def course (l : Link) : List Event → List Turn × Link
  | [] => ([], l)
  | event :: events =>
    (⟨event, (l.step event).2⟩ :: ((l.step event).1.course events).1,
      ((l.step event).1.course events).2)

theorem Run.course {turns : List Turn} (h : Run policy turns l) (events : List Event) :
    Run policy (turns ++ (l.course events).1) (l.course events).2 := by
  induction events generalizing turns l with
  | nil =>
    rw [Link.course, List.append_nil]
    exact h
  | cons event events ih =>
    rw [Link.course, List.append_cons]
    exact ih (.step event h)

theorem Run.course_eq {turns after : List Turn} {m : Link} (hm : Run policy turns m)
    (h : Run policy (turns ++ after) l) : m.course (after.map (·.event)) = (after, l) := by
  induction after generalizing turns m with
  | nil =>
    rw [List.append_nil] at h
    rw [hm.eq h]
    rfl
  | cons turn after ih =>
    obtain ⟨hturn, hnext⟩ := hm.next h
    rw [List.append_cons] at h
    have hrest := ih hnext h
    rw [List.map_cons, Link.course, hrest, ← hturn]

/-- What holds when a run has come to a link, and is kept by every step from there on, holds
whenever the run goes on. -/
@[elab_as_elim]
theorem Run.later {turns after : List Turn} {l₀ : Link} {P : List Turn → Link → Prop}
    (h₀ : Run policy turns l₀) (start : P [] l₀)
    (step : ∀ after l event, Run policy (turns ++ after) l → P after l →
      P (after ++ [⟨event, (l.step event).2⟩]) (l.step event).1)
    (h : Run policy (turns ++ after) l) : P after l := by
  induction after using List.reverseRecOn generalizing l with
  | nil =>
    rw [List.append_nil] at h
    rwa [h.eq h₀]
  | append_singleton after turn ih =>
    obtain ⟨event, log⟩ := turn
    rw [← List.append_assoc] at h
    obtain ⟨l₁, h₁, rfl, rfl⟩ := h.last
    exact step after l₁ event h₁ (ih h₁)

def sent (log : List Entry) : List (Nat × Request) :=
  log.filterMap fun
    | .sent socket request => some (socket, request)
    | _ => none

def called (log : List Entry) : List Call :=
  log.filterMap fun
    | .call call => some call
    | _ => none

def actions (log : List Entry) : List Dialer.Action :=
  log.filterMap fun
    | .action action => some action
    | _ => none

def Event.toDialer? : Event → Option Dialer.Event
  | .want wanted => some (.want wanted)
  | .url address => some (.url address)
  | .opened socket => some (.opened socket)
  | .closed socket => some (.closed socket)
  | .elapsed => some .elapsed
  | _ => none

def moved (l : Link) (event : Event) : Dialer × List Dialer.Action :=
  match event.toDialer? with
  | some event => l.dialer.step event
  | none => (l.dialer, [])

def inputs (l : Link) : Event → List Session.Input
  | .text socket text => if l.accepts socket then [.text text] else []
  | .frame socket bytes => if l.accepts socket then [.frame bytes] else []
  | .subscribe topic =>
    .join topic l.nextMember ::
      if (l.session.join topic l.nextMember).2 then [.demand ⟨true, topic⟩] else []
  | .unsubscribe topic id =>
    .leave topic id ::
      if (l.session.leave topic id).2 = some true then [.demand ⟨false, topic⟩] else []
  | .update tag path value => [.update tag path value]
  | event =>
    match event.toDialer? with
    | some event => [.socket (l.dialer.step event).1.status]
    | none => []

def onWire (d : Dialer) (requests : List Request) : List (Nat × Request) :=
  match d.socket with
  | some socket => if d.canSend then requests.map (socket, ·) else []
  | none => []

def reaction (l : Link) (event : Event) : Session × Session.Effects :=
  l.session.feed (l.inputs event)

theorem accepts_iff {socket : Nat} :
    l.accepts socket = true ↔ l.dialer.socket = some socket ∧ l.dialer.state = .connected := by
  simp [accepts, Dialer.canSend]

theorem reaction_text {socket : Nat} {text : String} (ha : l.accepts socket = true) :
    l.reaction (.text socket text) = l.session.onText text := by
  rw [reaction, inputs, if_pos ha, Session.feed_singleton]
  rfl

theorem reaction_frame {socket : Nat} {bytes : List UInt8} (ha : l.accepts socket = true) :
    l.reaction (.frame socket bytes) = l.session.onFrame bytes := by
  rw [reaction, inputs, if_pos ha, Session.feed_singleton]
  rfl

@[simp] theorem onWire_nil (d : Dialer) : onWire d [] = [] := by
  unfold onWire
  split <;> simp

@[simp] theorem sendRequests_nil (l : Link) : l.sendRequests [] = [] := by
  unfold sendRequests
  split <;> simp

theorem sent_sendRequests (l : Link) (requests : List Request) :
    sent (l.sendRequests requests) = onWire l.dialer requests := by
  unfold sendRequests onWire
  cases l.dialer.socket with
  | none => rfl
  | some socket => by_cases hc : l.dialer.canSend <;> simp [hc, sent, List.filterMap_map]

@[simp] theorem sent_nil : sent [] = [] := rfl

@[simp] theorem sent_append (a b : List Entry) : sent (a ++ b) = sent a ++ sent b :=
  List.filterMap_append

theorem tellStatus_fst (l : Link) :
    l.tellStatus.1 = { l with status := Status.combine l.dialer.status l.session.status } := by
  unfold tellStatus
  dsimp only
  split
  next h => rw [h]
  next => rfl

theorem tellStatus_same (h : l.status = Status.combine l.dialer.status l.session.status) :
    l.tellStatus = (l, []) := if_pos h.symm

theorem sent_tellStatus (l : Link) : sent l.tellStatus.2 = [] := by
  unfold tellStatus
  dsimp only
  split <;> simp [sent, List.filterMap_map]

theorem sent_calls (calls : List Call) : sent (calls.map .call) = [] := by
  simp [sent, List.filterMap_map]

theorem sent_actions (actions : List Dialer.Action) : sent (actions.map .action) = [] := by
  simp [sent, List.filterMap_map]

@[simp] theorem called_nil : called [] = [] := rfl

@[simp] theorem called_append (a b : List Entry) : called (a ++ b) = called a ++ called b :=
  List.filterMap_append

@[simp] theorem called_calls (calls : List Call) : called (calls.map .call) = calls := by
  simp [called, List.filterMap_map]

theorem called_actions (actions : List Dialer.Action) : called (actions.map .action) = [] := by
  simp [called, List.filterMap_map]

theorem called_tellFault (l : Link) (fault : Fault) : called (l.tellFault fault) = [] := by
  simp [called, tellFault, List.filterMap_map]

theorem carryOut_fst (l : Link) (effects : Session.Effects) :
    (l.carryOut effects).1 =
      { l with status := Status.combine l.dialer.status l.session.status } := by
  have hd : (if effects.abort then l.dialer.drop else (l.dialer, [])).1 = l.dialer := by
    split
    · exact l.dialer.drop_fst
    · rfl
  simp only [carryOut, tellStatus_fst, hd]

theorem sent_carryOut (l : Link) (effects : Session.Effects) :
    sent (l.carryOut effects).2 = onWire l.dialer effects.requests := by
  simp only [carryOut, sent_append, sent_tellStatus, sent_sendRequests, List.append_nil]
  have hf : sent (effects.faults.flatMap l.tellFault) = [] := by
    simp [sent, tellFault, List.filterMap_flatMap, List.filterMap_map]
  rw [sent_calls, hf, sent_actions, List.nil_append, List.append_nil, List.append_nil]

theorem called_carryOut (l : Link) (effects : Session.Effects) :
    called (l.carryOut effects).2 = effects.calls := by
  have hr : called (l.sendRequests effects.requests) = [] := by
    unfold sendRequests
    split
    · split <;> simp [called, List.filterMap_map]
    · rfl
  have hf : called (effects.faults.flatMap l.tellFault) = [] := by
    simp [called, tellFault, List.filterMap_flatMap, List.filterMap_map]
  have ht : ∀ m : Link, called m.tellStatus.2 = [] := by
    intro m
    unfold tellStatus
    dsimp only
    split <;> simp [called, List.filterMap_map]
  simp [carryOut, hr, hf, ht, called_actions]

@[simp] theorem actions_append (a b : List Entry) : actions (a ++ b) = actions a ++ actions b :=
  List.filterMap_append

theorem actions_eq_nil {log : List Entry} (h : ∀ action, .action action ∉ log) :
    actions log = [] := by
  rw [actions, List.filterMap_eq_nil_iff]
  intro entry hm
  cases entry with
  | action action => exact absurd hm (h action)
  | _ => rfl

theorem actions_actions (acts : List Dialer.Action) : actions (acts.map .action) = acts := by
  simp [actions, List.filterMap_map]

/-- A session can only ask for the end of the socket. -/
theorem actions_carryOut (l : Link) (effects : Session.Effects) :
    actions (l.carryOut effects).2 = if effects.abort then l.dialer.drop.2 else [] := by
  have hcalls : actions (effects.calls.map .call) = [] := actions_eq_nil (by simp)
  have hsent : actions (l.sendRequests effects.requests) = [] := by
    apply actions_eq_nil
    unfold sendRequests
    split
    · split <;> simp
    · simp
  have hfaults : actions (effects.faults.flatMap l.tellFault) = [] :=
    actions_eq_nil (by simp [tellFault])
  have htold : ∀ m : Link, actions m.tellStatus.2 = [] := by
    intro m
    apply actions_eq_nil
    unfold tellStatus
    dsimp only
    split <;> simp
  simp only [carryOut, actions_append, hcalls, hsent, hfaults, htold, actions_actions,
    List.nil_append, List.append_nil]
  split <;> rfl

/-- What a step does to dialer and session, what it sends and whom it calls. -/
theorem step_parts (l : Link) (event : Event) :
    (l.step event).1.dialer = (l.moved event).1 ∧
      (l.step event).1.session = (l.reaction event).1 ∧
      sent (l.step event).2 = onWire (l.moved event).1 (l.reaction event).2.requests ∧
      called (l.step event).2 = (l.reaction event).2.calls := by
  cases event with
  | want wanted | url address | opened socket | closed socket | elapsed =>
    simp [step, onDialer, carryOut_fst, sent_carryOut, sent_actions, called_carryOut,
      called_actions, reaction, inputs, moved, Event.toDialer?, Session.respond]
  | text socket text =>
    by_cases ha : l.accepts socket <;>
      simp [step, onText, ha, carryOut_fst, sent_carryOut, called_carryOut, reaction, inputs, moved,
        Event.toDialer?, Session.respond, Session.feed]
  | frame socket bytes =>
    by_cases ha : l.accepts socket
    · obtain ⟨images, calls, hf⟩ := l.session.onFrame_quiet bytes
      simp [step, onFrame, ha, hf, sent_calls, reaction, inputs, moved, Event.toDialer?,
        Session.respond]
    · simp [step, onFrame, ha, reaction, inputs, moved, Event.toDialer?, Session.feed]
  | subscribe topic =>
    by_cases hf : (l.session.join topic l.nextMember).2 <;>
      simp [step, subscribe, hf, carryOut_fst, sent_carryOut, called_carryOut, reaction, inputs,
        moved, Event.toDialer?, Session.respond, Session.feed]
  | unsubscribe topic id =>
    by_cases hl : (l.session.leave topic id).2 = some true <;>
      simp [step, unsubscribe, hl, carryOut_fst, sent_carryOut, called_carryOut, reaction, inputs,
        moved, Event.toDialer?, Session.respond, Session.feed]
  | update tag path value =>
    simp [step, update, carryOut_fst, sent_carryOut, called_carryOut, reaction, inputs, moved,
      Event.toDialer?, Session.respond]
  | fault socket fault =>
    have hf : sent (l.tellFault fault) = [] := by simp [sent, tellFault, List.filterMap_map]
    simp [step, hf, called_tellFault, reaction, inputs, moved, Event.toDialer?, Session.feed]
  | listenStatus | listenFaults | unlisten listener =>
    simp [step, listenStatus, listenFaults, unlisten, reaction, inputs, moved, Event.toDialer?,
      Session.feed]

theorem step_dialer (l : Link) (event : Event) : (l.step event).1.dialer = (l.moved event).1 :=
  (step_parts l event).1

theorem step_session (l : Link) (event : Event) :
    (l.step event).1.session = (l.reaction event).1 := (step_parts l event).2.1

theorem sent_step (l : Link) (event : Event) :
    sent (l.step event).2 = onWire (l.moved event).1 (l.reaction event).2.requests :=
  (step_parts l event).2.2.1

theorem called_step (l : Link) (event : Event) :
    called (l.step event).2 = (l.reaction event).2.calls := (step_parts l event).2.2.2

/-- Numbers are given, and listeners come and go, with the events that are meant for it. -/
theorem step_registers (l : Link) (event : Event) :
    (l.step event).1.nextMember =
        (match event with
        | .subscribe _ => l.nextMember + 1
        | _ => l.nextMember) ∧
      (l.step event).1.nextListener =
        (match event with
        | .listenStatus | .listenFaults => l.nextListener + 1
        | _ => l.nextListener) ∧
      (l.step event).1.statusListeners =
        (match event with
        | .listenStatus => l.statusListeners ++ [l.nextListener]
        | .unlisten listener => l.statusListeners.filter (· ≠ listener)
        | _ => l.statusListeners) ∧
      (l.step event).1.faultListeners =
        match event with
        | .listenFaults => l.faultListeners ++ [l.nextListener]
        | .unlisten listener => l.faultListeners.filter (· ≠ listener)
        | _ => l.faultListeners := by
  cases event with
  | want | url | opened | closed | elapsed => simp [step, onDialer, carryOut_fst]
  | text socket text => by_cases ha : l.accepts socket <;> simp [step, onText, ha, carryOut_fst]
  | frame socket bytes => by_cases ha : l.accepts socket <;> simp [step, onFrame, ha]
  | subscribe topic =>
    by_cases hf : (l.session.join topic l.nextMember).2 <;>
      simp [step, subscribe, hf, carryOut_fst]
  | unsubscribe topic id =>
    by_cases hl : (l.session.leave topic id).2 = some true <;>
      simp [step, unsubscribe, hl, carryOut_fst]
  | update => simp [step, update, carryOut_fst]
  | fault | listenStatus | listenFaults | unlisten => exact ⟨rfl, rfl, rfl, rfl⟩

structure Invariant (l : Link) : Prop where
  dialer : l.dialer.Invariant
  session : l.session.Invariant
  together : l.session.state = .offline ↔ l.dialer.state ≠ .connected
  status : l.status = Status.combine l.dialer.status l.session.status

theorem start_invariant (policy : Retry) : (start policy).Invariant where
  dialer := Dialer.start_invariant policy
  session := Session.start_invariant
  together := by simp [start, Dialer.start, Session.start]
  status := rfl

theorem moved_invariant (h : l.dialer.Invariant) (event : Event) : (l.moved event).1.Invariant := by
  unfold moved
  split
  · exact Dialer.step_preserves_invariant h _
  · exact h

theorem moved_of_quiet {event : Event} (h : event.toDialer? = none) :
    l.moved event = (l.dialer, []) := by
  rw [moved, h]

theorem inputs_of_quiet {event : Event} (h : event.toDialer? = none) :
    ∀ input ∈ l.inputs event, ∀ status, input ≠ .socket status := by
  cases event with
  | want | url | opened | closed | elapsed => cases h
  | text socket text | frame socket bytes =>
    by_cases ha : l.accepts socket <;> simp [inputs, ha]
  | subscribe topic =>
    by_cases hf : (l.session.join topic l.nextMember).2 <;> simp [inputs, hf]
  | unsubscribe topic id =>
    by_cases hl : (l.session.leave topic id).2 = some true <;> simp [inputs, hl]
  | update | fault | listenStatus | listenFaults | unlisten => simp [inputs, Event.toDialer?]

/-- An event that moves the dialer tells the session of the socket, and no other event does. -/
theorem inputs_cases (l : Link) (event : Event) :
    l.inputs event = [.socket (l.moved event).1.status] ∨
      (l.moved event).1 = l.dialer ∧
        ∀ input ∈ l.inputs event, ∀ status, input ≠ .socket status := by
  cases event with
  | want | url | opened | closed | elapsed => exact Or.inl rfl
  | _ => exact Or.inr ⟨rfl, inputs_of_quiet rfl⟩

theorem feed_offline_iff {s : Session} {inputs : List Session.Input}
    (hi : ∀ input ∈ inputs, ∀ status, input ≠ .socket status) :
    (s.feed inputs).1.state = .offline ↔ s.state = .offline := by
  induction inputs generalizing s with
  | nil => rfl
  | cons input inputs ih =>
    have hhead := Session.respond_offline_iff (s := s) input (hi input List.mem_cons_self)
    exact (ih fun i hm => hi i (List.mem_cons_of_mem _ hm)).trans hhead

theorem together_step (h : l.Invariant) (event : Event) :
    (l.reaction event).1.state = .offline ↔ (l.moved event).1.state ≠ .connected := by
  rcases inputs_cases l event with hi | ⟨hd, hi⟩
  · rw [reaction, hi, Session.feed_singleton]
    exact (Session.onSocket_offline_iff _).trans (not_congr (Dialer.status_eq_connected_iff _))
  · rw [reaction, feed_offline_iff hi, hd]
    exact h.together

/-- The status is merged again, or nothing that it is merged from has changed. -/
theorem step_status (l : Link) (event : Event) :
    (l.step event).1.status = Status.combine (l.moved event).1.status (l.reaction event).1.status ∨
      (l.step event).1.status = l.status ∧ (l.moved event).1 = l.dialer ∧
        (l.reaction event).1.state = l.session.state := by
  cases event with
  | want wanted | url address | opened socket | closed socket | elapsed =>
    simp [step, onDialer, carryOut_fst, reaction, inputs, moved, Event.toDialer?, Session.respond]
  | text socket text =>
    by_cases ha : l.accepts socket <;>
      simp [step, onText, ha, carryOut_fst, reaction, inputs, moved, Event.toDialer?,
        Session.respond, Session.feed]
  | frame socket bytes =>
    by_cases ha : l.accepts socket
    · obtain ⟨images, calls, hf⟩ := l.session.onFrame_quiet bytes
      simp [step, onFrame, ha, hf, reaction, inputs, moved, Event.toDialer?, Session.respond]
    · simp [step, onFrame, ha, reaction, inputs, moved, Event.toDialer?, Session.feed]
  | subscribe topic =>
    by_cases hf : (l.session.join topic l.nextMember).2
    · simp [step, subscribe, hf, carryOut_fst, reaction, inputs, moved, Event.toDialer?,
        Session.respond, Session.feed]
    · refine Or.inr ⟨by simp [step, subscribe, hf], rfl, ?_⟩
      simp only [reaction, inputs, hf]
      rfl
  | unsubscribe topic id =>
    by_cases hl : (l.session.leave topic id).2 = some true
    · simp [step, unsubscribe, hl, carryOut_fst, reaction, inputs, moved, Event.toDialer?,
        Session.respond, Session.feed]
    · refine Or.inr ⟨by simp [step, unsubscribe, hl], rfl, ?_⟩
      simp only [reaction, inputs, hl, if_false, Session.feed_singleton]
      rfl
  | update tag path value =>
    simp [step, update, carryOut_fst, reaction, inputs, moved, Event.toDialer?, Session.respond]
  | fault | listenStatus | listenFaults | unlisten => exact Or.inr ⟨rfl, rfl, rfl⟩

theorem step_preserves_invariant (h : l.Invariant) (event : Event) :
    (l.step event).1.Invariant where
  dialer := by
    rw [step_dialer]
    exact moved_invariant h.dialer event
  session := by
    rw [step_session]
    exact Session.feed_preserves_invariant h.session _
  together := by
    rw [step_dialer, step_session]
    exact together_step h event
  status := by
    rw [step_dialer, step_session]
    rcases step_status l event with hs | ⟨hs, hd, hstate⟩
    · exact hs
    · rw [hs, hd, h.status, Session.status, Session.status, hstate]

/-- Where an event does not move the dialer, all that can happen to the socket is that the session
wants its end. -/
theorem actions_step (l : Link) (event : Event) :
    actions (l.step event).2 = (l.moved event).2 ∨
      event.toDialer? = none ∧ actions (l.step event).2 = l.dialer.drop.2 := by
  have hquiet : ∀ (m : Link) (effects : Session.Effects), m.dialer = l.dialer →
      actions (m.carryOut effects).2 = [] ∨
        (none : Option Dialer.Event) = none ∧ actions (m.carryOut effects).2 = l.dialer.drop.2 := by
    intro m effects hm
    rw [actions_carryOut, hm]
    split
    · exact Or.inr ⟨rfl, rfl⟩
    · exact Or.inl rfl
  cases event with
  | want | url | opened | closed | elapsed =>
    have habort := fun status => Session.onSocket_abort l.session status
    simp [step, onDialer, actions_carryOut, actions_actions, habort, moved, Event.toDialer?]
  | text socket text =>
    simp only [step, onText]
    split
    · exact hquiet _ _ rfl
    · exact Or.inl rfl
  | frame socket bytes =>
    apply Or.inl
    simp only [step, onFrame]
    split
    · exact actions_eq_nil (by simp)
    · rfl
  | subscribe topic =>
    simp only [step, subscribe]
    split
    · exact hquiet _ _ rfl
    · exact Or.inl rfl
  | unsubscribe topic id =>
    simp only [step, unsubscribe]
    split
    · exact hquiet _ _ rfl
    · exact Or.inl rfl
  | update tag path value => exact hquiet _ _ rfl
  | fault => exact Or.inl (actions_eq_nil (by simp [step, tellFault]))
  | listenStatus | listenFaults | unlisten => exact Or.inl rfl

/-- A step moves the dialer and does what the move asks for, or it leaves the dialer as it is and at
most hangs up. -/
theorem Invariant.step_moves (h : l.Invariant) (event : Event) :
    (∃ ev, event.toDialer? = some ev ∧
        l.dialer.Move ev (l.step event).1.dialer (actions (l.step event).2)) ∨
      event.toDialer? = none ∧ (l.step event).1.dialer = l.dialer ∧
        ∀ action ∈ actions (l.step event).2, ∃ socket, action = .hangUp socket := by
  rw [step_dialer]
  cases hev : event.toDialer? with
  | some ev =>
    have hactions : actions (l.step event).2 = (l.moved event).2 :=
      (actions_step l event).resolve_right (by simp [hev])
    have hmoved : l.moved event = l.dialer.step ev := by rw [moved, hev]
    rw [hactions, hmoved]
    exact Or.inl ⟨ev, rfl, Dialer.step_moves h.dialer ev⟩
  | none =>
    have hmoved : l.moved event = (l.dialer, []) := moved_of_quiet hev
    refine Or.inr ⟨rfl, by rw [hmoved], fun action hm => ?_⟩
    rcases actions_step l event with ha | ⟨_, ha⟩
    · rw [ha, hmoved] at hm
      cases hm
    · rw [ha, Dialer.drop] at hm
      split at hm
      · obtain ⟨socket, _, rfl⟩ := List.mem_map.mp hm
        exact ⟨socket, rfl⟩
      · cases hm

theorem run_invariant {turns : List Turn} (h : Run policy turns l) : l.Invariant := by
  induction h with
  | start => exact start_invariant policy
  | step event _ ih => exact step_preserves_invariant ih event

/-- A text that the session only reports a fault of is told as that fault, and nothing else. -/
theorem Invariant.step_text_fault (h : l.Invariant) {socket : Nat} {text : String} {fault : Fault}
    (ha : l.accepts socket = true)
    (ht : l.session.onText text = (l.session, { faults := [fault] })) :
    l.step (.text socket text) = (l, l.tellFault fault) := by
  simp [step, onText, ha, ht, carryOut, tellStatus_same h.status]

theorem feed_offline_requests {s : Session} {inputs : List Session.Input}
    (hi : ∀ input ∈ inputs, ∀ status, input ≠ .socket status) (h : s.state = .offline) :
    (s.feed inputs).2.requests = [] := by
  induction inputs generalizing s with
  | nil => rfl
  | cons input inputs ih =>
    have ho := (Session.respond_offline_iff (s := s) input (hi input List.mem_cons_self)).mpr h
    have htail := ih (fun i hm => hi i (List.mem_cons_of_mem _ hm)) ho
    simp [Session.feed, Session.respond_offline_requests ho, htail]

theorem reaction_offline_requests (l : Link) (event : Event)
    (h : (l.reaction event).1.state = .offline) : (l.reaction event).2.requests = [] := by
  unfold reaction at h ⊢
  rcases inputs_cases l event with hi | ⟨_, hi⟩
  · rw [hi, Session.feed_singleton] at h ⊢
    exact Session.respond_offline_requests h
  · exact feed_offline_requests hi ((feed_offline_iff hi).mp h)

theorem moved_socket (h : l.Invariant) {event : Event} (hc : (l.moved event).1.state = .connected) :
    ∃ socket, (l.moved event).1.socket = some socket :=
  (moved_invariant h.dialer event).exists_socket (by rw [hc]; rfl)

theorem onWire_connected {d : Dialer} {socket : Nat} (hk : d.socket = some socket)
    (hc : d.state = .connected) (requests : List Request) :
    onWire d requests = requests.map (socket, ·) := by
  simp [onWire, hk, hc, Dialer.canSend]

/-- Whatever the session asks to be sent is sent, on the socket that is connected. -/
theorem sent_eq_requests (h : l.Invariant) (event : Event) :
    (sent (l.step event).2).map (·.2) = (l.reaction event).2.requests ∧
      ∀ p ∈ sent (l.step event).2,
        (l.step event).1.dialer.socket = some p.1 ∧ (l.step event).1.dialer.state = .connected := by
  rw [sent_step, step_dialer]
  by_cases hc : (l.moved event).1.state = .connected
  · obtain ⟨socket, hk⟩ := moved_socket h hc
    rw [onWire_connected hk hc]
    refine ⟨by simp [Function.comp_def], fun p hp => ?_⟩
    obtain ⟨request, _, rfl⟩ := List.mem_map.mp hp
    exact ⟨hk, hc⟩
  · have hr := reaction_offline_requests l event ((together_step h event).mpr hc)
    simp [hr]

theorem Invariant.online_iff (h : l.Invariant) :
    l.session.state ≠ .offline ↔ l.dialer.state = .connected := by
  rw [ne_eq, h.together, not_not]

/-- The two layers stay in step, and the status says what it means. -/
theorem layers_in_step {turns : List Turn} (h : Run policy turns l) :
    (l.session.state ≠ .offline ↔ l.dialer.state = .connected) ∧
      l.status = Status.combine l.dialer.status l.session.status ∧
      (l.status = .connecting ∨ l.status = .connected ↔ l.dialer.wanted = true) ∧
      (l.status = .connected ↔
        l.session.state = .subscribing ∨ l.session.state = .subscribed) ∧
      ∀ event, (l.step event).1.session = (l.reaction event).1 ∧
        (sent (l.step event).2).map (·.2) = (l.reaction event).2.requests ∧
        ∀ p ∈ sent (l.step event).2, (l.step event).1.dialer.socket = some p.1 ∧
          (l.step event).1.dialer.state = .connected := by
  have hi := run_invariant h
  have ht := hi.online_iff
  have hw := hi.dialer.wanted
  refine ⟨ht, hi.status, ?_, ?_, fun event => ⟨step_session l event, sent_eq_requests hi event⟩⟩
  · rw [hi.status, hw]
    cases hd : l.dialer.state <;> cases hs : l.session.state <;>
      simp_all [Status.combine, Dialer.status, Dialer.State.status, Session.status,
        Session.State.status, Dialer.State.wants]
  · rw [hi.status]
    cases hd : l.dialer.state <;> cases hs : l.session.state <;>
      simp_all [Status.combine, Dialer.status, Dialer.State.status, Session.status,
        Session.State.status]

def halfway : List Event :=
  [.subscribe (.parameter "p"), .want true, .url "ws://a", .opened 1,
    .text 1 "\x7b\"id\":0,\"ok\":true,\"output_hierarchy\":\x7b\x7d\x7d"]

def otherHalf : Event :=
  .text 1 "\x7b\"id\":1,\"ok\":true,\"parameter_hierarchy\":\x7b\x7d\x7d"

theorem layers_in_step_halfway :
    Run .standard (play .standard halfway).1 (play .standard halfway).2 ∧
      (play .standard halfway).2.status = .connecting ∧
      ((play .standard halfway).2.reaction otherHalf).2.requests =
        [⟨2, .demand ⟨true, .parameter "p"⟩⟩] := by
  have hrun := run_play .standard halfway
  obtain ⟨_, _, _, _, hstep⟩ := layers_in_step hrun
  have hsent : sent ((play .standard halfway).2.step otherHalf).2 =
      [(1, ⟨2, .demand ⟨true, .parameter "p"⟩⟩)] := by decide +kernel
  have hrequests := (hstep otherHalf).2.1
  rw [hsent] at hrequests
  exact ⟨hrun, by decide +kernel, hrequests.symm⟩

end Link
end Downlink
