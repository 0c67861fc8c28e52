import Downlink.Proofs.Wire

/-!
What listeners hear of the status. From its registration to its removal a listener is told of every
change of the status, once and when it happens, and the status itself takes only certain steps.
-/
namespace Downlink

/-- The steps that a status takes: it is connected only after connecting, and ends only in order. -/
def Status.Leads : Status → Status → Prop
  | .disconnected, next => next = .connecting
  | .connecting, next => next ≠ .connecting
  | .connected, next => next = .connecting ∨ next = .disconnecting
  | .disconnecting, next => next = .connecting ∨ next = .disconnected

theorem Status.Leads.ne {a b : Status} (h : a.Leads b) : a ≠ b := by
  rintro rfl
  cases a <;> simp [Leads] at h

theorem Dialer.Move.status {d e : Dialer} {event : Dialer.Event} {actions : List Dialer.Action}
    (m : d.Move event e actions) : e.status = d.status ∨ d.status.Leads e.status := by
  cases m with
  | ignore | drop => exact Or.inl rfl
  | note hs => exact Or.inl rfl
  | wishDial hs | learnDial hs | turnDial hs | redial hs | retry hs | wish hs | wishBack hs
  | forget hs | giveUp hs | stayAway hs | learn hs | connect hs | part hs =>
    simp [Dialer.status, State.status, dialling, hs, Status.Leads]
  | leave hs | turn hs | lose hs =>
    rcases State.isUp_iff.mp hs with hs | hs <;>
      simp [Dialer.status, State.status, hs, Status.Leads]

namespace Link

variable {l m : Link} {policy : Retry} {turns before mid rest : List Turn} {event : Event}
  {listener : Nat}

/-! The steps of the status. -/

theorem Invariant.status_of_down (h : l.Invariant) (hd : l.dialer.status ≠ .connected) :
    l.status = l.dialer.status := by
  rw [h.status, Status.combine, if_neg hd]

theorem Invariant.status_of_up (h : l.Invariant) (hd : l.dialer.status = .connected) :
    l.status = .connecting ∨ l.status = .connected := by
  have honline := h.online_iff.mpr ((Dialer.status_eq_connected_iff _).mp hd)
  rw [h.status, Status.combine, if_pos hd]
  cases hs : l.session.state with
  | offline => exact absurd hs honline
  | fetching => exact Or.inl (by rw [Session.status, hs]; rfl)
  | subscribing | subscribed => exact Or.inr (by rw [Session.status, hs]; rfl)

/-- Between connected and not, the status goes where the dialer goes; all that the session decides
is when a connected dialer counts as connected. -/
theorem Invariant.status_step (h : l.Invariant) (event : Event) :
    (l.step event).1.status = l.status ∨ l.status.Leads (l.step event).1.status := by
  have hnext := step_preserves_invariant h event
  have hdialer : (l.step event).1.dialer.status = l.dialer.status ∨
      l.dialer.status.Leads (l.step event).1.dialer.status := by
    rw [step_dialer]
    rcases moved_cases h event with hd | ⟨ev, actions, hm⟩
    · exact Or.inl (by rw [hd])
    · exact hm.status
  by_cases hup : l.dialer.status = .connected <;>
    by_cases hup' : (l.step event).1.dialer.status = .connected
  · rcases h.status_of_up hup with hs | hs <;> rcases hnext.status_of_up hup' with hs' | hs' <;>
      simp [hs, hs', Status.Leads]
  · rw [hup] at hdialer
    have hdown := hdialer.resolve_left hup'
    rw [hnext.status_of_down hup']
    rcases h.status_of_up hup with hs | hs <;> rw [hs]
    · rcases hdown with he | he <;> simp [he, Status.Leads]
    · exact Or.inr hdown
  · rw [h.status_of_down hup]
    have hconnecting : l.dialer.status = .connecting := by
      rw [hup'] at hdialer
      cases hd : l.dialer.status <;> simp_all [Status.Leads]
    rcases hnext.status_of_up hup' with hs' | hs' <;>
      simp [hconnecting, hs', Status.Leads]
  · rw [h.status_of_down hup, hnext.status_of_down hup']
    exact hdialer

/-! What a listener is told of them. -/

def merged (l : Link) : Status := Status.combine l.dialer.status l.session.status

def change (l : Link) (event : Event) : List Status :=
  if (l.step event).1.merged = l.merged then [] else [(l.step event).1.merged]

def news (l : Link) : List Event → List (List Status)
  | [] => []
  | event :: events => l.change event :: (l.step event).1.news events

/-- The link has looked at the end of every event, so its own status changes with the layers. -/
theorem Invariant.change_eq (h : l.Invariant) (event : Event) :
    l.change event =
      if (l.step event).1.status = l.status then [] else [(l.step event).1.status] := by
  have hbefore : l.merged = l.status := h.status.symm
  have hafter : (l.step event).1.merged = (l.step event).1.status :=
    (step_preserves_invariant h event).status.symm
  rw [change, hbefore, hafter]

theorem Invariant.news_chain (h : l.Invariant) (events : List Event) :
    (l.status :: (l.news events).flatten).IsChain Status.Leads ∧
      (l.news events).flatten.getLastD l.status = (l.course events).2.status := by
  induction events generalizing l with
  | nil => exact ⟨.singleton _, rfl⟩
  | cons event events ih =>
    obtain ⟨hchain, hlast⟩ := ih (step_preserves_invariant h event)
    rw [news, List.flatten_cons, h.change_eq, course]
    split
    next hs =>
      rw [List.nil_append, ← hs]
      exact ⟨hchain, hlast⟩
    next hs =>
      have hstep := (h.status_step event).resolve_left hs
      rw [List.singleton_append, List.getLastD_cons]
      exact ⟨.cons_cons hstep hchain, hlast⟩

def told (listener : Nat) (log : List Entry) : List Status :=
  log.filterMap fun
    | .status other status => if other = listener then some status else none
    | _ => none

@[simp] theorem told_append (listener : Nat) (a b : List Entry) :
    told listener (a ++ b) = told listener a ++ told listener b := List.filterMap_append

theorem told_eq_nil {log : List Entry} (h : ∀ other status, .status other status ∉ log) :
    told listener log = [] := by
  rw [told, List.filterMap_eq_nil_iff]
  intro entry hm
  cases entry with
  | status other status => exact absurd hm (h other status)
  | _ => rfl

theorem told_statuses (listeners : List Nat) (status : Status) :
    told listener (listeners.map (.status · status)) =
      List.replicate (listeners.count listener) status := by
  induction listeners with
  | nil => rfl
  | cons other listeners ih =>
    rw [List.map_cons, ← List.singleton_append, told_append, ih]
    by_cases ho : other = listener <;> simp [told, ho, List.replicate_succ]

def Tells (l : Link) (result : Link × List Entry) : Prop :=
  ∀ listener, told listener result.2 =
    if result.1.status = l.status then []
    else List.replicate (l.statusListeners.count listener) result.1.status

theorem tellStatus_tells (l : Link) : l.Tells l.tellStatus := by
  intro listener
  unfold tellStatus
  dsimp only
  split
  next => simp [told]
  next => simp [told_statuses]

theorem told_actions (actions : List Dialer.Action) :
    told listener (actions.map .action) = [] := told_eq_nil (by simp)

theorem told_calls (calls : List Call) : told listener (calls.map .call) = [] :=
  told_eq_nil (by simp)

theorem told_tellFault (l : Link) (fault : Fault) : told listener (l.tellFault fault) = [] :=
  told_eq_nil (by simp [tellFault])

theorem told_sendRequests (l : Link) (requests : List Request) :
    told listener (l.sendRequests requests) = [] := by
  apply told_eq_nil
  unfold sendRequests
  split
  · split <;> simp
  · simp

/-- Whatever is carried out, the status is compared once, at the end. -/
theorem carryOut_tells (l : Link) (effects : Session.Effects) : l.Tells (l.carryOut effects) := by
  intro listener
  have hdrop : (if effects.abort then l.dialer.drop else (l.dialer, [])).1 = l.dialer := by
    split
    · exact l.dialer.drop_fst
    · rfl
  have hfaults : told listener (effects.faults.flatMap l.tellFault) = [] :=
    told_eq_nil (by simp [tellFault])
  have htold : told listener (l.carryOut effects).2 = told listener l.tellStatus.2 := by
    simp only [carryOut, told_append, told_calls, told_sendRequests, hfaults, told_actions, hdrop,
      List.nil_append]
  rw [htold, l.tellStatus_tells listener, carryOut_fst, tellStatus_fst]

theorem tells_of_same {l m : Link} {log : List Entry} (hs : m.status = l.status)
    (h : ∀ listener, told listener log = []) : l.Tells (m, log) := by
  intro listener
  rw [if_pos hs, h listener]

theorem onDialer_tells (l : Link) (event : Dialer.Event) : l.Tells (l.onDialer event) := by
  intro listener
  simp only [onDialer, told_append, told_actions, List.nil_append]
  exact carryOut_tells _ _ listener

/-- A step changes the status at most once, and tells every listener of it. -/
theorem step_tells (l : Link) (event : Event) : l.Tells (l.step event) := by
  cases event with
  | want | url | opened | closed | elapsed =>
    simp only [step]
    exact onDialer_tells l _
  | text socket text =>
    simp only [step, onText]
    split
    · exact carryOut_tells _ _
    · exact tells_of_same rfl fun _ => rfl
  | frame socket bytes =>
    simp only [step, onFrame]
    split
    · exact tells_of_same rfl fun _ => told_calls _
    · exact tells_of_same rfl fun _ => rfl
  | fault socket fault => exact tells_of_same rfl fun _ => told_tellFault l fault
  | subscribe topic =>
    simp only [step, subscribe]
    split
    · exact carryOut_tells _ _
    · exact tells_of_same rfl fun _ => rfl
  | unsubscribe topic id =>
    simp only [step, unsubscribe]
    split
    · exact carryOut_tells _ _
    · exact tells_of_same rfl fun _ => rfl
  | update tag path value =>
    simp only [step, update]
    exact carryOut_tells _ _
  | listenStatus | listenFaults | unlisten => exact tells_of_same rfl fun _ => rfl

/-- Listeners come and go with the events that are meant for it; every one gets a number of its
own. -/
theorem step_listeners (l : Link) (event : Event) :
    (l.step event).1.statusListeners =
        (match event with
        | .listenStatus => l.statusListeners ++ [l.nextListener]
        | .unlisten listener => l.statusListeners.filter (· ≠ listener)
        | _ => l.statusListeners) ∧
      (l.step event).1.nextListener =
        match event with
        | .listenStatus | .listenFaults => l.nextListener + 1
        | _ => l.nextListener := by
  obtain ⟨_, hnext, hlisteners, _⟩ := step_registers l event
  exact ⟨hlisteners, hnext⟩

theorem run_listeners (h : Run policy turns l) :
    ∀ listener ∈ l.statusListeners, listener < l.nextListener := by
  induction h with
  | start => simp [start]
  | @step turns l event _ ih =>
    obtain ⟨hlisteners, hnext⟩ := step_listeners l event
    rw [hlisteners, hnext]
    intro listener hm
    cases event with
    | listenStatus =>
      rcases List.mem_append.mp hm with hm | hm
      · exact Nat.lt_succ_of_lt (ih listener hm)
      · rw [List.mem_singleton.mp hm]
        exact Nat.lt_succ_self _
    | listenFaults => exact Nat.lt_succ_of_lt (ih listener hm)
    | unlisten => exact ih listener (List.mem_of_mem_filter hm)
    | _ => exact ih listener hm

theorem nextListener_le_step (l : Link) (event : Event) :
    l.nextListener ≤ (l.step event).1.nextListener := by
  rw [(step_listeners l event).2]
  split <;> omega

theorem count_step (hid : listener < l.nextListener) (hs : event ≠ .unlisten listener) :
    (l.step event).1.statusListeners.count listener = l.statusListeners.count listener := by
  rw [(step_listeners l event).1]
  cases event with
  | listenStatus =>
    have hne : l.nextListener ≠ listener := by omega
    simp [hne]
  | unlisten other =>
    have hne : listener ≠ other := by
      rintro rfl
      exact hs rfl
    exact List.count_filter (by simpa using hne)
  | _ => rfl

def toldIn (listener : Nat) (turns : List Turn) : List Status :=
  turns.flatMap fun turn => told listener turn.log

/-- As long as a listener is registered it is told of every change in the turn that makes it. -/
theorem Run.told_while (h₀ : Run policy before m) (h : Run policy (before ++ mid) l)
    (hc : m.statusListeners.count listener = 1) (hid : listener < m.nextListener)
    (hs : ∀ turn ∈ mid, turn.event ≠ .unlisten listener) :
    mid.map (fun turn => told listener turn.log) = m.news (mid.map (·.event)) ∧
      l.statusListeners.count listener = 1 ∧ listener < l.nextListener := by
  induction mid generalizing before m with
  | nil =>
    rw [List.append_nil] at h
    rw [← h₀.eq h]
    exact ⟨rfl, hc, hid⟩
  | cons turn mid ih =>
    obtain ⟨hturn, hnext⟩ := h₀.next h
    have hcount := count_step hid (hs turn List.mem_cons_self)
    have hid' := Nat.lt_of_lt_of_le hid (nextListener_le_step m turn.event)
    rw [List.append_cons] at h
    obtain ⟨htold, hlast⟩ := ih hnext h (hcount.trans hc) hid' fun turn ht =>
      hs turn (List.mem_cons_of_mem _ ht)
    have hlog : told listener turn.log = m.change turn.event := by
      rw [hturn, m.step_tells turn.event listener, hc, (run_invariant h₀).change_eq]
      rfl
    exact ⟨by rw [List.map_cons, List.map_cons, news, htold, hlog], hlast⟩

/-- A number that is not registered and has been given away is told nothing any more. -/
theorem Run.told_after (h₀ : Run policy before m) (h : Run policy (before ++ mid) l)
    (hc : m.statusListeners.count listener = 0) (hid : listener < m.nextListener) :
    toldIn listener mid = [] := by
  induction mid generalizing before m with
  | nil => rfl
  | cons turn mid ih =>
    obtain ⟨hturn, hnext⟩ := h₀.next h
    have hcount : (m.step turn.event).1.statusListeners.count listener = 0 := by
      by_cases hs : turn.event = .unlisten listener
      · rw [(step_listeners m turn.event).1, hs, List.count_eq_zero]
        simp
      · exact (count_step hid hs).trans hc
    rw [List.append_cons] at h
    have hrest := ih hnext h hcount (Nat.lt_of_lt_of_le hid (nextListener_le_step m turn.event))
    rw [toldIn, List.flatMap_cons, ← toldIn, hrest, hturn, m.step_tells turn.event listener, hc]
    simp

theorem Run.told_early (h : Run policy turns l) (hid : l.nextListener ≤ listener) :
    toldIn listener turns = [] := by
  induction h with
  | start => rfl
  | @step turns l event hr ih =>
    have hearly := Nat.le_trans (nextListener_le_step l event) hid
    have hcount : l.statusListeners.count listener = 0 := by
      rw [List.count_eq_zero]
      intro hm
      exact Nat.not_le_of_lt (run_listeners hr listener hm) hearly
    rw [toldIn, List.flatMap_append, ← toldIn, ih hearly, List.flatMap_singleton,
      l.step_tells event listener, hcount]
    simp

/-- From its registration until it is removed or the run ends, a listener is told of each change of
the status in the turn that makes it, once and with the new status, and of nothing before and after
that. So what it is told goes from status to another status, beginning with the one at its
registration and ending with the one of the link. Over the whole run the status takes only the steps
that lead from one to the next. -/
theorem listener_hears_changes {log : List Entry} (h₀ : Run policy before m)
    (h : Run policy (before ++ ⟨.listenStatus, log⟩ :: (mid ++ rest)) l)
    (hmid : ∀ turn ∈ mid, turn.event ≠ .unlisten m.listenStatus.2)
    (hrest : ∀ turn ∈ rest.head?, turn.event = .unlisten m.listenStatus.2) :
    (toldIn m.listenStatus.2 before = [] ∧ told m.listenStatus.2 log = [] ∧
        toldIn m.listenStatus.2 rest = []) ∧
      mid.map (fun turn => told m.listenStatus.2 turn.log) =
        m.listenStatus.1.news (mid.map (·.event)) ∧
      (m.status :: toldIn m.listenStatus.2 mid).IsChain (· ≠ ·) ∧
      (∃ k, Run policy (before ++ ⟨.listenStatus, log⟩ :: mid) k ∧
        (toldIn m.listenStatus.2 mid).getLastD m.status = k.status) ∧
      ∀ events, (Status.disconnected ::
        ((start policy).news events).flatten).IsChain Status.Leads := by
  have hfresh := run_listeners h₀
  obtain ⟨hturn, hadded⟩ := h₀.next h
  obtain ⟨hlisteners, hnext⟩ := step_listeners m .listenStatus
  have hone : (m.step .listenStatus).1.statusListeners.count m.nextListener = 1 := by
    have hnone : m.nextListener ∉ m.statusListeners := by
      intro hm
      exact Nat.lt_irrefl _ (hfresh _ hm)
    rw [hlisteners, List.count_append, List.count_eq_zero.mpr hnone]
    simp
  have hid : m.nextListener < (m.step .listenStatus).1.nextListener := by
    rw [hnext]
    exact Nat.lt_succ_self _
  rw [List.append_cons, ← List.append_assoc] at h
  obtain ⟨k, hk⟩ := h.before
  obtain ⟨htold, hone', hid'⟩ := hadded.told_while hk hone hid hmid
  have hflat : toldIn m.nextListener mid =
      (m.listenStatus.1.news (mid.map (·.event))).flatten := by
    rw [toldIn, List.flatMap_def, htold]
    rfl
  obtain ⟨hchain, hlast⟩ := (run_invariant hadded).news_chain (mid.map (·.event))
  rw [hadded.course_eq hk] at hlast
  refine ⟨⟨h₀.told_early (Nat.le_refl _), ?_, ?_⟩, htold, ?_, ⟨k, by simpa using hk, ?_⟩,
    fun events => ((start_invariant policy).news_chain events).1⟩
  · rw [(Turn.mk.inj hturn).2]
    rfl
  · cases rest with
    | nil => rfl
    | cons turn rest =>
      obtain ⟨hturn, hremoved⟩ := hk.next h
      have hevent : turn.event = .unlisten m.nextListener := hrest turn rfl
      rw [hevent] at hturn hremoved
      have hnone : (k.step (.unlisten m.nextListener)).1.statusListeners.count m.nextListener =
          0 := by
        rw [(step_listeners k _).1, List.count_eq_zero]
        simp
      have hid'' := Nat.lt_of_lt_of_le hid' (nextListener_le_step k (.unlisten m.nextListener))
      rw [List.append_cons] at h
      have hafter := hremoved.told_after h hnone hid''
      have hleaving : told m.nextListener turn.log = [] := by
        rw [hturn]
        rfl
      change toldIn m.nextListener (turn :: rest) = []
      rw [toldIn, List.flatMap_cons, ← toldIn, hafter, hleaving]
      rfl
  · exact (hflat ▸ hchain).imp fun _ _ => Status.Leads.ne
  · exact hflat ▸ hlast

def attended : Link := ((play .standard [.url "ws://a"]).2.step .listenStatus).1

def rising : List Event :=
  [.url "ws://a", .want true, .opened 1,
    .text 1 "\x7b\"id\":0,\"ok\":true,\"output_hierarchy\":\x7b\x7d\x7d", otherHalf, .closed 1]

def deserted : List Event := [.unlisten 1, .want false]

theorem listener_hears_changes_rising :
    toldIn 1 (attended.course rising).1 = [.connecting, .connected, .connecting] ∧
      toldIn 1 ((attended.course rising).2.course deserted).1 = [] ∧
      ((attended.course rising).2.course deserted).2.status = .disconnected := by
  have hrun := run_play .standard [.url "ws://a"]
  have hall := ((hrun.step .listenStatus).course rising).course deserted
  rw [List.append_assoc, List.append_assoc, List.singleton_append] at hall
  obtain ⟨⟨_, _, hrest⟩, htold, _⟩ :=
    listener_hears_changes hrun hall (by decide +kernel) (by decide +kernel)
  refine ⟨?_, hrest, by decide +kernel⟩
  have hnews := congrArg List.flatten htold
  rw [← List.flatMap_def] at hnews
  exact hnews.trans (by decide +kernel)

end Link
end Downlink
