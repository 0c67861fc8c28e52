import Downlink.Proofs.Updates

/-!
A schema that cannot be had. The link asks for the end of the socket, and until it ends nothing can
make the session go on without the schema; the end of the socket then leads to the next attempt.
-/
namespace Downlink

namespace Dialer

variable {d e : Dialer} {socket : Nat}

theorem drop_connected (hk : d.socket = some socket) (hc : d.state = .connected) :
    d.drop = (d, [.hangUp socket]) := by
  obtain ⟨state, wanted, url, _, next, timer, counter, policy⟩ := d
  cases hk
  cases hc
  rfl

theorem onClosed_connected (h : d.Invariant) (hk : d.socket = some socket)
    (hc : d.state = .connected) :
    d.onClosed socket =
      ({ d with
          socket := none, counter := d.policy.next d.counter, timerSet := true, state := .backOff },
        [.schedule (d.policy.delay d.counter)]) := by
  have ht : d.timerSet = false := by
    rw [h.timer, hc]
    rfl
  simp [onClosed, stopTimer, hk, hc, ht]

theorem Move.counter {ev : Event} {actions : List Action} (m : d.Move ev e actions)
    (h : d.state = .connected → d.counter = d.policy.initial) (hc : e.state = .connected) :
    e.counter = e.policy.initial := by
  cases m with
  | ignore | drop => exact h hc
  | connect => rfl
  | note hs => rcases hs with hs | hs | hs <;> cases hs.symm.trans hc
  | _ => cases hc

end Dialer

namespace Session

variable {s : Session} {reply : Reply} {query : Query} {field : String} {fault : Fault}

def Awaited.schema? : Awaited → Option (Query × String)
  | .outputSchema => some (.outputSchema, "output_hierarchy")
  | .parameterSchema => some (.parameterSchema, "parameter_hierarchy")
  | _ => none

def Describes (value : Json) : Prop :=
  ∃ members fields, value = .obj members ∧ Schema.ofMembers? .named members = some fields

inductive Fails (reply : Reply) (query : Query) (field : String) : Fault → Prop where
  | refused (h : reply.ok = false) : Fails reply query field (.rejected query.name reply.cause)
  | missing (h : reply.ok = true) (hf : Table.get? field reply.payload = none) :
      Fails reply query field (.missingField field)
  | malformed {value} (h : reply.ok = true) (hf : Table.get? field reply.payload = some value)
      (hv : ¬ Describes value) : Fails reply query field (.json .shape)

theorem pathTypes_eq_error_iff {payload : List (String × Json)} {value : Json}
    (hf : Table.get? field payload = some value) :
    Schema.pathTypes field payload = .error fault ↔ ¬ Describes value ∧ fault = .json .shape := by
  cases value with
  | obj members =>
    cases hfields : Schema.ofMembers? .named members with
    | none => simp [Schema.pathTypes, hf, Describes, hfields, eq_comm]
    | some fields => simp [Schema.pathTypes, hf, Describes, hfields]
  | _ => simp [Schema.pathTypes, hf, Describes, eq_comm]

theorem schemaOf_eq_error_iff :
    schemaOf reply query field = .error fault ↔ Fails reply query field fault := by
  constructor
  · intro h
    cases hok : reply.ok with
    | false =>
      simp only [schemaOf, hok, Bool.false_eq_true, if_false, Except.error.injEq] at h
      rw [← h]
      exact .refused hok
    | true =>
      rw [schemaOf, if_pos hok] at h
      cases hf : Table.get? field reply.payload with
      | none =>
        simp only [Schema.pathTypes, hf, Except.error.injEq] at h
        rw [← h]
        exact .missing hok hf
      | some value =>
        obtain ⟨hv, rfl⟩ := (pathTypes_eq_error_iff hf).mp h
        exact .malformed hok hf hv
  · intro h
    cases h with
    | refused hok => simp [schemaOf, hok]
    | missing hok hf => simp [schemaOf, hok, Schema.pathTypes, hf]
    | malformed hok hf hv =>
      rw [schemaOf, if_pos hok]
      exact (pathTypes_eq_error_iff hf).mpr ⟨hv, rfl⟩

/-- One of the schemas is missing, and no open request is for it. -/
structure Barred (s : Session) : Prop where
  fetching : s.state = .fetching
  missing : s.outputTypes = none ∧ (∀ a ∈ s.awaited, a.2 ≠ .outputSchema) ∨
    s.parameterTypes = none ∧ ∀ a ∈ s.awaited, a.2 ≠ .parameterSchema

theorem Barred.not_live (h : s.Barred) : ¬ s.state.isLive := by
  rw [h.fetching]
  simp [State.isLive]

theorem Barred.finishFetching (h : s.Barred) : s.finishFetching = (s, .none) := by
  apply if_neg
  rintro ⟨_, _, ho, hp⟩
  rcases h.missing with ⟨hn, _⟩ | ⟨hn, _⟩
  · simp [hn] at ho
  · simp [hn] at hp

theorem Barred.replied (h : s.Barred) (hi : s.Invariant) {result : Session × Effects}
    (hr : s.Replied reply result) : result.1.Barred ∧ result.2.requests = [] := by
  cases hr with
  | unmatched => exact ⟨h, rfl⟩
  | output hm =>
    have hbarred : Barred { s with
        awaited := Table.erase reply.id s.awaited
        outputTypes := (schemaOf reply .outputSchema "output_hierarchy").toOption } := by
      refine ⟨h.fetching, ?_⟩
      rcases h.missing with ⟨_, ha⟩ | ⟨hn, ha⟩
      · exact absurd rfl (ha _ hm)
      · exact Or.inr ⟨hn, fun a hm => ha a (List.mem_of_mem_filter hm)⟩
    simp [hbarred.finishFetching, hbarred]
  | parameter hm =>
    have hbarred : Barred { s with
        awaited := Table.erase reply.id s.awaited
        parameterTypes :=
          (schemaOf reply .parameterSchema "parameter_hierarchy").toOption } := by
      refine ⟨h.fetching, ?_⟩
      rcases h.missing with ⟨hn, ha⟩ | ⟨_, ha⟩
      · exact Or.inl ⟨hn, fun a hm => ha a (List.mem_of_mem_filter hm)⟩
      · exact absurd rfl (ha _ hm)
    simp [hbarred.finishFetching, hbarred]
  | other hm ho hp =>
    rcases (hi.fetching h.fetching).2 _ hm with he | he
    · exact absurd he ho
    · exact absurd he hp

/-- Only the socket can help a session that lacks a schema. -/
theorem Barred.respond (h : s.Barred) (hi : s.Invariant) {input : Input}
    (hn : ∀ status, input ≠ .socket status) :
    (s.respond input).1.Barred ∧ (s.respond input).2.requests = [] := by
  cases input with
  | socket status => exact absurd rfl (hn status)
  | demand change => simp [Session.respond, demand, h.not_live, h, Effects.none]
  | update tag path value => simp [Session.respond, update, h.not_live, h]
  | text text =>
    rcases onText_cases s text with
      ⟨fault, _, ht⟩ | ⟨reply, _, ht⟩ | ⟨push, images, calls, _, ht⟩ <;>
      simp only [Session.respond, ht]
    · exact ⟨h, trivial⟩
    · exact h.replied hi (onReply_replied s reply)
    · exact ⟨⟨h.fetching, h.missing⟩, trivial⟩
  | frame bytes =>
    obtain ⟨images, calls, hf⟩ := onFrame_quiet s bytes
    simp only [Session.respond, hf]
    exact ⟨⟨h.fetching, h.missing⟩, trivial⟩
  | join | leave => exact ⟨⟨h.fetching, h.missing⟩, rfl⟩

theorem Barred.feed (h : s.Barred) (hi : s.Invariant) {inputs : List Input}
    (hn : ∀ input ∈ inputs, ∀ status, input ≠ .socket status) :
    (s.feed inputs).1.Barred ∧ (s.feed inputs).2.requests = [] := by
  induction inputs generalizing s with
  | nil => exact ⟨h, rfl⟩
  | cons input inputs ih =>
    obtain ⟨hbarred, hquiet⟩ := h.respond hi (hn input List.mem_cons_self)
    obtain ⟨hlast, hrest⟩ := ih hbarred (respond_preserves_invariant hi input)
      fun i hm => hn i (List.mem_cons_of_mem _ hm)
    refine ⟨hlast, ?_⟩
    simp [Session.feed, hquiet, hrest]

/-- The reply leaves nothing but its fault behind, and the session without the schema. -/
theorem Fails.onReply (h : Fails reply query field fault) (hi : s.Invariant) {awaited : Awaited}
    (hs : awaited.schema? = some (query, field)) (hm : (reply.id, awaited) ∈ s.awaited) :
    ∃ t : Session, t.Barred ∧ t.state = s.state ∧
      s.onReply reply = (t, { faults := [fault], abort := true }) := by
  have hnone := schemaOf_eq_error_iff.mpr h
  rw [Session.onReply, Table.get?_of_mem hi.ids hm]
  cases awaited with
  | outputSchema =>
    cases hs
    have hf := hi.fetching_of_schema hm (Or.inl rfl)
    have hbarred : Barred { s with
        awaited := Table.erase reply.id s.awaited, outputTypes := none } :=
      ⟨hf, Or.inl ⟨rfl, hi.ne_of_erase hf hm⟩⟩
    refine ⟨_, hbarred, rfl, ?_⟩
    simp [onAnswer, hnone, andThen, Except.toOption, hbarred.finishFetching, schemaEffects]
  | parameterSchema =>
    cases hs
    have hf := hi.fetching_of_schema hm (Or.inr rfl)
    have hbarred : Barred { s with
        awaited := Table.erase reply.id s.awaited, parameterTypes := none } :=
      ⟨hf, Or.inr ⟨rfl, hi.ne_of_erase hf hm⟩⟩
    refine ⟨_, hbarred, rfl, ?_⟩
    simp [onAnswer, hnone, andThen, Except.toOption, hbarred.finishFetching, schemaEffects]
  | demand | update => cases hs

end Session
namespace Link

variable {l m : Link} {policy : Retry} {turns before after : List Turn} {event : Event}
  {socket : Nat} {text : String}

theorem run_counter (h : Run policy turns l) :
    l.dialer.policy = policy ∧
      (l.dialer.state = .connected → l.dialer.counter = policy.initial) := by
  induction h with
  | start => exact ⟨rfl, fun _ => rfl⟩
  | @step turns l event hr ih =>
    obtain ⟨hpolicy, hcounter⟩ := ih
    rw [step_dialer]
    rcases moved_cases (run_invariant hr) event with hd | ⟨ev, actions, hmove⟩
    · rw [hd]
      exact ⟨hpolicy, hcounter⟩
    · refine ⟨hmove.policy.trans hpolicy, ?_⟩
      intro hc
      rw [← hpolicy] at hcounter
      rw [hmove.counter hcounter hc, hmove.policy, hpolicy]

/-- The socket is up, but its session lacks a schema that will not come over it. -/
structure Condemned (l : Link) (socket : Nat) : Prop where
  accepts : l.accepts socket = true
  session : l.session.Barred

theorem Condemned.status (h : l.Condemned socket) (hi : l.Invariant) : l.status = .connecting := by
  obtain ⟨_, hc⟩ := accepts_iff.mp h.accepts
  rw [hi.status, Dialer.status, hc, Session.status, h.session.fetching]
  rfl

/-- What the dialer takes no part in does not help a condemned socket. -/
theorem Condemned.step (h : l.Condemned socket) (hi : l.Invariant)
    (hq : event.toDialer? = none) :
    (l.step event).1.Condemned socket ∧ (l.step event).1.dialer = l.dialer ∧
      sent (l.step event).2 = [] := by
  have hd : (l.step event).1.dialer = l.dialer := by rw [step_dialer, moved_of_quiet hq]
  obtain ⟨hbarred, hrequests⟩ := h.session.feed hi.session (inputs_of_quiet hq)
  refine ⟨⟨?_, ?_⟩, hd, ?_⟩
  · rw [accepts_iff, hd]
    exact accepts_iff.mp h.accepts
  · rw [step_session]
    exact hbarred
  · rw [sent_step, reaction, hrequests, onWire_nil]

/-- A condemned socket stays so until it ends. -/
theorem Condemned.later (h : l.Condemned socket) (h₀ : Run policy before l)
    (hm : Run policy (before ++ after) m) (hquiet : ∀ turn ∈ after, turn.event.toDialer? = none) :
    m.Condemned socket ∧ m.dialer = l.dialer ∧ sentIn after = [] ∧
      ∀ turn ∈ after, ∀ tag path value, turn.event = .update tag path value →
        turn.log = [.call (.updateFailed tag .notConnected)] := by
  induction after generalizing before l with
  | nil =>
    rw [List.append_nil] at hm
    rw [← h₀.eq hm]
    exact ⟨h, rfl, rfl, by simp⟩
  | cons turn after ih =>
    have hi := run_invariant h₀
    obtain ⟨hturn, hnext⟩ := h₀.next hm
    obtain ⟨hstill, hd, hsent⟩ := h.step hi (hquiet turn List.mem_cons_self)
    rw [List.append_cons] at hm
    obtain ⟨hc, hlast, hrest, hupdates⟩ := ih hstill hnext hm fun turn ht =>
      hquiet turn (List.mem_cons_of_mem _ ht)
    refine ⟨hc, hlast.trans hd, ?_, ?_⟩
    · rw [sentIn, List.flatMap_cons, ← sentIn, hrest, hturn, hsent]
      rfl
    · intro other ho tag path value he
      rcases List.mem_cons.mp ho with rfl | ho
      · rw [hturn, he, step_refused hi h.session.not_live]
      · exact hupdates other ho tag path value he

/-- The link tells the fault and asks for the end of the socket, and that is all that happens. -/
theorem step_failed (hi : l.Invariant) (ha : l.accepts socket = true) {reply : Reply}
    {awaited : Session.Awaited} {query : Query} {field : String} {fault : Fault}
    (hread : Message.read text = .ok (.reply reply)) (hm : (reply.id, awaited) ∈ l.session.awaited)
    (hs : awaited.schema? = some (query, field)) (hf : Session.Fails reply query field fault) :
    (l.step (.text socket text)).1.Condemned socket ∧
      (l.step (.text socket text)).1.dialer = l.dialer ∧
      (l.step (.text socket text)).2 = l.tellFault fault ++ [.action (.hangUp socket)] := by
  obtain ⟨t, hbarred, hstate, hreply⟩ := hf.onReply hi.session hs hm
  have ht : l.session.onText text = (t, { faults := [fault], abort := true }) := by
    rw [Session.onText, hread]
    exact hreply
  have hd : (l.step (.text socket text)).1.dialer = l.dialer := step_dialer l _
  refine ⟨⟨?_, ?_⟩, hd, ?_⟩
  · rw [accepts_iff, hd]
    exact accepts_iff.mp ha
  · rw [step_session, reaction_text ha, ht]
    exact hbarred
  · obtain ⟨hk, hc⟩ := accepts_iff.mp ha
    have hstatus : tellStatus { l with session := t } = ({ l with session := t }, []) := by
      apply tellStatus_same
      rw [hi.status, Session.status, Session.status, hstate]
    simp [Link.step, Link.onText, ha, ht, carryOut, Dialer.drop_connected hk hc, hstatus, tellFault]

/-- The end of a condemned socket is followed by one attempt after the first delay. -/
theorem Condemned.closed (h : m.Condemned socket) (hr : Run policy turns m) :
    (m.step (.closed socket)).2 = [.action (.schedule (policy.delay policy.initial))] ∧
      (m.step (.closed socket)).1.dialer.state = .backOff ∧
      (m.step (.closed socket)).1.session.state = .offline ∧
      (m.step (.closed socket)).1.session.awaited = [] := by
  have hi := run_invariant hr
  obtain ⟨hk, hc⟩ := accepts_iff.mp h.accepts
  obtain ⟨hpolicy, hcounter⟩ := run_counter hr
  have hclosed := Dialer.onClosed_connected hi.dialer hk hc
  rw [hpolicy, hcounter hc] at hclosed
  have honline : m.session.state ≠ .offline := hi.online_iff.mpr hc
  have hlost : m.session.onSocket .connecting = _ := Session.onSocket_lost (by simp) honline
  have hstatus := h.status hi
  simp [Link.step, onDialer, Dialer.step, hclosed, Dialer.status, Dialer.State.status, hlost,
    carryOut, tellStatus, Status.combine, hstatus]

/-- A reply that fails to bring a schema is told as one fault, and the link asks for the end of the
socket, which it still takes for connected. Whatever then happens over the socket or at the members,
the session goes on waiting for its schemas, nothing is sent, and updates are refused. When the
socket ends, the session gives up what it waits for, and the next attempt comes after the first
delay. -/
theorem failed_fetch_retries {reply : Reply} {awaited : Session.Awaited} {query : Query}
    {field : String} {fault : Fault} {log : List Entry} (h₀ : Run policy before l)
    (ha : l.accepts socket = true) (hread : Message.read text = .ok (.reply reply))
    (hm : (reply.id, awaited) ∈ l.session.awaited) (hs : awaited.schema? = some (query, field))
    (hf : Session.Fails reply query field fault)
    (h : Run policy (before ++ ⟨.text socket text, log⟩ :: after) m)
    (hquiet : ∀ turn ∈ after, turn.event.toDialer? = none) :
    log = l.tellFault fault ++ [.action (.hangUp socket)] ∧
      (m.dialer = l.dialer ∧ m.dialer.wanted = true ∧ m.dialer.state = .connected) ∧
      (m.session.state = .fetching ∧ m.status = .connecting ∧ sentIn after = []) ∧
      (∀ turn ∈ after, ∀ tag path value, turn.event = .update tag path value →
        turn.log = [.call (.updateFailed tag .notConnected)]) ∧
      (m.step (.closed socket)).2 = [.action (.schedule (policy.delay policy.initial))] ∧
      (m.step (.closed socket)).1.dialer.state = .backOff ∧
      (m.step (.closed socket)).1.session.state = .offline ∧
      (m.step (.closed socket)).1.session.awaited = [] := by
  obtain ⟨hcondemned, hdialer, hlog⟩ := step_failed (run_invariant h₀) ha hread hm hs hf
  obtain ⟨hturn, h₁⟩ := h₀.next h
  rw [List.append_cons] at h
  obtain ⟨hc, hd, hsent, hupdates⟩ := hcondemned.later h₁ h hquiet
  have hr := run_invariant h
  obtain ⟨_, hup⟩ := accepts_iff.mp hc.accepts
  refine ⟨(Turn.mk.inj hturn).2.trans hlog, ⟨hd.trans hdialer, ?_, hup⟩,
    ⟨hc.session.fetching, hc.status hr, hsent⟩, hupdates, hc.closed h⟩
  rw [hr.dialer.wanted, hup]
  rfl

def asking : List Event := [.listenFaults, .want true, .url "ws://a", .opened 1]

def bareReply : String := "\x7b\"id\":0,\"ok\":true\x7d"

def abandoned : Link := ((play .standard asking).2.step (.text 1 bareReply)).1

def lingering : List Event :=
  [.text 1 "\x7b\"id\":1,\"ok\":true,\"parameter_hierarchy\":\x7b\x7d\x7d",
    .update 7 "p" (.bool true), .subscribe (.parameter "p")]

theorem failed_fetch_retries_lingering :
    ((play .standard asking).2.step (.text 1 bareReply)).2 =
        [.fault 1 (.missingField "output_hierarchy"), .action (.hangUp 1)] ∧
      sentIn (abandoned.course lingering).1 = [] ∧
      ((abandoned.course lingering).2.step (.closed 1)).2 =
        [.action (.schedule (Retry.standard.delay Retry.standard.initial))] := by
  have hrun := run_play .standard asking
  have hall := (hrun.step (.text 1 bareReply)).course lingering
  rw [List.append_assoc, List.singleton_append] at hall
  have hread : Message.read bareReply = .ok (.reply ⟨0, true, none, []⟩) := by decide +kernel
  have hopen : (0, .outputSchema) ∈ (play .standard asking).2.session.awaited := by decide +kernel
  obtain ⟨hlog, _, ⟨_, _, hsent⟩, _, hclosed, _⟩ :=
    failed_fetch_retries hrun (by decide +kernel) hread hopen rfl (.missing rfl rfl) hall
      (by decide +kernel)
  exact ⟨by rw [hlog]; decide +kernel, hsent, hclosed⟩

end Link
end Downlink
