import Downlink.Proofs.Matching

/-!
The fate of an update. It is refused on the spot or asked for once; what was asked for is answered
by one callback, or none is made at all because the connection was lost before.
-/
namespace Downlink

def Call.tag? : Call → Option Nat
  | .updated tag | .updateFailed tag _ => some tag
  | _ => none

namespace Session

variable {s : Session} {id tag : Nat}

def Awaited.tag? : Awaited → Option Nat
  | .update tag => some tag
  | _ => none

def updatesOf (awaited : Table Nat Awaited) : Table Nat Nat :=
  awaited.filterMap fun a => a.2.tag?.map (a.1, ·)

def updates (s : Session) : Table Nat Nat := updatesOf s.awaited

def outcomes (calls : List Call) : List Call := calls.filter (·.tag?.isSome)

def verdict (tag : Nat) (reply : Reply) : Call :=
  if reply.ok then .updated tag else .updateFailed tag (.rejected "UpdateParameter" reply.cause)

theorem Awaited.tag?_eq_some {a : Awaited} : a.tag? = some tag ↔ a = .update tag := by
  cases a <;> simp [Awaited.tag?]

theorem mem_updatesOf {awaited : Table Nat Awaited} :
    (id, tag) ∈ updatesOf awaited ↔ (id, .update tag) ∈ awaited := by
  simp [updatesOf, List.mem_filterMap, Awaited.tag?_eq_some]

theorem updatesOf_append (awaited more : Table Nat Awaited) :
    updatesOf (awaited ++ more) = updatesOf awaited ++ updatesOf more := List.filterMap_append

theorem updatesOf_erase (id : Nat) (awaited : Table Nat Awaited) :
    updatesOf (Table.erase id awaited) = Table.erase id (updatesOf awaited) := by
  simp only [updatesOf, Table.erase, List.filterMap_filter, List.filter_filterMap]
  refine List.filterMap_congr fun a _ => ?_
  cases a.2.tag? <;> by_cases hk : a.1 = id <;> simp [hk, Option.filter]

theorem mem_updates : (id, tag) ∈ s.updates ↔ (id, .update tag) ∈ s.awaited := mem_updatesOf

theorem updatesOf_demands (demands : List (Nat × Demand)) :
    updatesOf (demands.map fun p => (p.1, Awaited.demand p.2)) = [] := by
  simp [updatesOf, List.filterMap_map, Awaited.tag?]

@[simp] theorem outcomes_nil : outcomes [] = [] := rfl

@[simp] theorem outcomes_append (calls more : List Call) :
    outcomes (calls ++ more) = outcomes calls ++ outcomes more := List.filter_append ..

@[simp] theorem verdict_tag? (reply : Reply) : (verdict tag reply).tag? = some tag := by
  unfold verdict
  split <;> rfl

/-- No update is asked for, and none is settled. -/
structure Spares (s : Session) (result : Session × Effects) : Prop where
  updates : result.1.updates = s.updates
  outcomes : outcomes result.2.calls = []

theorem Spares.andThen {result : Session × Effects} {next : Session → Session × Effects}
    (h : s.Spares result) (h' : result.1.Spares (next result.1)) :
    s.Spares (andThen result next) where
  updates := h'.updates.trans h.updates
  outcomes := by simp [h.outcomes, h'.outcomes]

theorem advance_spares (s : Session) : s.Spares s.advance := by
  by_cases hr : s.Ready
  · by_cases hq : s.queue = []
    · rw [advance_of_empty hr hq]
      exact ⟨rfl, by simp [entering_calls]⟩
    · rw [advance_of_queue hr hq]
      refine ⟨?_, by simp [entering_calls]⟩
      simp [updates, updatesOf_append, updatesOf_demands]
  · rw [advance_of_not_ready hr]
    exact ⟨rfl, rfl⟩

theorem finishFetching_spares (s : Session) : s.Spares s.finishFetching := by
  unfold finishFetching
  split
  · exact ⟨(advance_spares _).updates, (advance_spares _).outcomes⟩
  · exact ⟨rfl, rfl⟩

theorem demand_spares (s : Session) (change : Demand) : s.Spares (s.demand change) := by
  unfold demand
  split
  · rw [plan_eq]
    exact ⟨(advance_spares _).updates, (advance_spares _).outcomes⟩
  · exact ⟨rfl, rfl⟩

theorem outcomes_valueCalls (topic : Topic) (value : Json) :
    outcomes (s.valueCalls topic value) = [] := by
  simp [outcomes, valueCalls, Call.tag?]

theorem outcomes_faultCalls (topic : Topic) (fault : Fault) :
    outcomes (s.faultCalls topic fault) = [] := by
  simp [outcomes, faultCalls, Call.tag?]

theorem outcomes_imageCalls (pair : Option (String × List UInt8)) :
    outcomes (s.imageCalls pair) = [] := by
  cases pair <;> simp [outcomes, imageCalls, Call.tag?]

theorem onFrame_spares (s : Session) (bytes : List UInt8) : s.Spares (s.onFrame bytes) := by
  unfold onFrame
  split
  · exact ⟨rfl, rfl⟩
  · exact ⟨rfl, outcomes_imageCalls _⟩

theorem outcomes_readingCalls (cycler : String) (readings : List Reading) :
    outcomes (readings.flatMap (s.readingCalls cycler)) = [] := by
  induction readings with
  | nil => rfl
  | cons reading readings ih =>
    rw [List.flatMap_cons, outcomes_append, ih, List.append_nil]
    unfold readingCalls
    split
    · exact outcomes_valueCalls _ _
    · rfl

theorem onPush_spares (s : Session) (push : Push) : s.Spares (s.onPush push) := by
  cases push with
  | parameter path value => exact ⟨rfl, outcomes_valueCalls _ _⟩
  | outputs cycler readings imageId =>
    have hvalues := outcomes_readingCalls (s := s) cycler readings
    cases imageId with
    | none => exact ⟨rfl, hvalues⟩
    | some imageId => exact ⟨rfl, by simp [onPush, hvalues, outcomes_imageCalls]⟩

theorem onAnswer_spares (s : Session) (reply : Reply) {a : Awaited} (ha : a.tag? = none) :
    s.Spares (s.onAnswer reply a) := by
  cases a with
  | outputSchema | parameterSchema =>
    simp only [onAnswer]
    refine Spares.andThen ⟨rfl, ?_⟩ (finishFetching_spares _)
    rw [schemaEffects_calls, outcomes_nil]
  | demand demand =>
    simp only [onAnswer]
    refine Spares.andThen ⟨rfl, ?_⟩ (advance_spares _)
    dsimp only
    split
    · rfl
    · exact outcomes_faultCalls _ _
  | update tag => cases ha

theorem onReply_spares {reply : Reply} (h : ∀ tag, (reply.id, tag) ∉ s.updates) :
    s.Spares (s.onReply reply) := by
  cases hget : Table.get? reply.id s.awaited with
  | none =>
    rw [onReply, hget]
    exact ⟨rfl, rfl⟩
  | some a =>
    have htag : a.tag? = none := by
      cases ht : a.tag? with
      | none => rfl
      | some tag =>
        rw [Awaited.tag?_eq_some.mp ht] at hget
        exact absurd (mem_updates.mpr (Table.mem_of_get? hget)) (h tag)
    have hspares := onAnswer_spares { s with awaited := Table.erase reply.id s.awaited } reply htag
    have herase : updatesOf (Table.erase reply.id s.awaited) = s.updates := by
      rw [updatesOf_erase]
      exact Table.erase_of_not_mem h
    rw [onReply, hget]
    exact ⟨hspares.updates.trans herase, hspares.outcomes⟩

theorem onText_spares {text : String} (h : ∀ reply, Message.read text = .ok (.reply reply) →
    ∀ tag, (reply.id, tag) ∉ s.updates) : s.Spares (s.onText text) := by
  unfold onText
  split
  · exact ⟨rfl, rfl⟩
  next reply hread => exact onReply_spares (h reply hread)
  · exact onPush_spares s _

/-- The answer to an update makes the one callback for it. -/
theorem onReply_settles (hids : (s.awaited.map (·.1)).Nodup) {reply : Reply}
    (hm : (reply.id, tag) ∈ s.updates) :
    (s.onReply reply).1.updates = Table.erase reply.id s.updates ∧
      outcomes (s.onReply reply).2.calls = [verdict tag reply] := by
  have hspares := advance_spares { s with awaited := Table.erase reply.id s.awaited }
  have hverdict : outcomes [verdict tag reply] = [verdict tag reply] := by simp [outcomes]
  rw [onReply, Table.get?_of_mem hids (mem_updates.mp hm)]
  refine ⟨hspares.updates.trans (updatesOf_erase _ _), ?_⟩
  simp only [onAnswer, andThen_snd, Effects.calls_append, outcomes_append, hspares.outcomes,
    List.append_nil]
  exact hverdict

theorem onSocket_connected_spares (s : Session) : s.Spares (s.onSocket .connected) := by
  by_cases ho : s.state = .offline
  · rw [onSocket_connected ho]
    exact ⟨by simp [updates, updatesOf, Awaited.tag?], rfl⟩
  · rw [onSocket_same (by simp [ho])]
    exact ⟨rfl, rfl⟩

theorem feed_spares {inputs : List Input}
    (h : ∀ input ∈ inputs, ∀ s : Session, s.Spares (s.respond input)) :
    s.Spares (s.feed inputs) :=
  feed_induction (fun _ => ⟨rfl, rfl⟩) Spares.andThen h s

theorem Invariant.updates_offline (h : s.Invariant) (ho : s.state = .offline) : s.updates = [] := by
  simp [updates, (h.offline ho).1, updatesOf]

end Session

namespace Link

variable {l m : Link} {policy : Retry} {turns before after : List Turn} {turn : Turn}
  {event : Event} {socket id tag : Nat} {path : String} {value : Json}

def Event.tag? : Event → Option Nat
  | .update tag _ _ => some tag
  | _ => none

def Hears (l : Link) (event : Event) (reply : Reply) : Prop :=
  ∃ socket text, event = .text socket text ∧ l.accepts socket = true ∧
    Message.read text = .ok (.reply reply)

/-- All that an event can do to the updates that wait, and the callbacks it makes for them. -/
inductive Settles (l : Link) : Event → Table Nat Nat → List Call → Prop where
  | ask {tag : Nat} {path : String} {value : Json} (hl : l.session.state.isLive) :
      Settles l (.update tag path value) (l.session.updates ++ [(l.session.nextId, tag)]) []
  | refuse {tag : Nat} {path : String} {value : Json} (hl : ¬ l.session.state.isLive) :
      Settles l (.update tag path value) l.session.updates [.updateFailed tag .notConnected]
  | answer {event : Event} {reply : Reply} {tag : Nat} (hr : l.Hears event reply)
      (hm : (reply.id, tag) ∈ l.session.updates) :
      Settles l event (Table.erase reply.id l.session.updates) [Session.verdict tag reply]
  | lose {event : Event} (ht : event.tag? = none) (hc : (l.moved event).1.state ≠ .connected) :
      Settles l event [] []
  | keep {event : Event} (ht : event.tag? = none) (hc : (l.moved event).1.state = .connected)
      (hn : ∀ reply, l.Hears event reply → ∀ tag, (reply.id, tag) ∉ l.session.updates) :
      Settles l event l.session.updates []

/-- An event that settles nothing keeps the updates as long as the link stays connected. -/
theorem settles_of_quiet (hi : l.Invariant) (ht : event.tag? = none)
    (hcalls : Session.outcomes (l.reaction event).2.calls = [])
    (hsame : (l.moved event).1.state = .connected →
      (l.reaction event).1.updates = l.session.updates)
    (hn : ∀ reply, l.Hears event reply → ∀ tag, (reply.id, tag) ∉ l.session.updates) :
    l.Settles event (l.reaction event).1.updates (Session.outcomes (l.reaction event).2.calls) := by
  rw [hcalls]
  by_cases hc : (l.moved event).1.state = .connected
  · rw [hsame hc]
    exact .keep ht hc hn
  · have hinvariant := Session.feed_preserves_invariant hi.session (l.inputs event)
    rw [reaction, hinvariant.updates_offline ((together_step hi event).mpr hc)]
    exact .lose ht hc

theorem settles_of_spares (hi : l.Invariant) (ht : event.tag? = none)
    (h : l.session.Spares (l.reaction event))
    (hn : ∀ reply, l.Hears event reply → ∀ tag, (reply.id, tag) ∉ l.session.updates) :
    l.Settles event (l.reaction event).1.updates (Session.outcomes (l.reaction event).2.calls) :=
  settles_of_quiet hi ht h.outcomes (fun _ => h.updates) hn

theorem text_settles (hi : l.Invariant) (ha : l.accepts socket = true) (text : String) :
    l.Settles (.text socket text) (l.reaction (.text socket text)).1.updates
      (Session.outcomes (l.reaction (.text socket text)).2.calls) := by
  by_cases hm : ∃ reply tag, Message.read text = .ok (.reply reply) ∧
      (reply.id, tag) ∈ l.session.updates
  · obtain ⟨reply, tag, hread, hm⟩ := hm
    obtain ⟨hupdates, houtcomes⟩ := Session.onReply_settles hi.session.ids hm
    rw [reaction_text ha, Session.onText, hread]
    dsimp only
    rw [hupdates, houtcomes]
    exact .answer ⟨socket, text, rfl, ha, hread⟩ hm
  · have hn : ∀ reply, Message.read text = .ok (.reply reply) →
        ∀ tag, (reply.id, tag) ∉ l.session.updates :=
      fun reply hread tag hmem => hm ⟨reply, tag, hread, hmem⟩
    refine settles_of_spares hi rfl ?_ ?_
    · rw [reaction_text ha]
      exact Session.onText_spares hn
    · rintro reply ⟨_, _, he, _, hread⟩
      cases he
      exact hn reply hread

theorem reaction_settles (hi : l.Invariant) (event : Event) :
    l.Settles event (l.reaction event).1.updates (Session.outcomes (l.reaction event).2.calls) := by
  cases event with
  | want wanted | url url | opened socket | closed socket | elapsed =>
    refine settles_of_quiet hi rfl ?_ (fun hc => ?_) (by simp [Hears])
    · simp [reaction, inputs, Event.toDialer?, Session.respond, Session.onSocket_calls]
    · have hstatus := (Dialer.status_eq_connected_iff _).mpr hc
      simp only [moved, Event.toDialer?] at hstatus
      simp only [reaction, inputs, Event.toDialer?, Session.feed_singleton, Session.respond,
        hstatus]
      exact (Session.onSocket_connected_spares _).updates
  | text socket text =>
    by_cases ha : l.accepts socket
    · exact text_settles hi ha text
    · refine settles_of_spares hi rfl ?_ ?_
      · rw [reaction, inputs, if_neg ha]
        exact ⟨rfl, rfl⟩
      · rintro reply ⟨_, _, he, ha', _⟩
        cases he
        exact absurd ha' ha
  | frame socket bytes =>
    refine settles_of_spares hi rfl (Session.feed_spares fun input hm s => ?_) (by simp [Hears])
    obtain rfl := List.mem_singleton.mp (List.mem_ite_nil_right.mp hm).2
    exact s.onFrame_spares bytes
  | subscribe topic =>
    refine settles_of_spares hi rfl (Session.feed_spares fun input hm s => ?_) (by simp [Hears])
    rcases List.mem_cons.mp hm with rfl | hm
    · exact ⟨rfl, rfl⟩
    · obtain rfl := List.mem_singleton.mp (List.mem_ite_nil_right.mp hm).2
      exact s.demand_spares _
  | unsubscribe topic id =>
    refine settles_of_spares hi rfl (Session.feed_spares fun input hm s => ?_) (by simp [Hears])
    rcases List.mem_cons.mp hm with rfl | hm
    · exact ⟨rfl, rfl⟩
    · obtain rfl := List.mem_singleton.mp (List.mem_ite_nil_right.mp hm).2
      exact s.demand_spares _
  | update tag path value =>
    by_cases hl : l.session.state.isLive
    · have hreaction : l.reaction (.update tag path value) =
          l.session.send (.update path value) (.update tag) := by
        simp [reaction, inputs, Session.respond, Session.update, hl]
      have hupdates : (l.session.send (.update path value) (.update tag)).1.updates =
          l.session.updates ++ [(l.session.nextId, tag)] := Session.updatesOf_append _ _
      rw [hreaction, hupdates]
      exact .ask hl
    · have hreaction : l.reaction (.update tag path value) =
          (l.session, { calls := [.updateFailed tag .notConnected] }) := by
        simp [reaction, inputs, Session.respond, Session.update, hl]
      rw [hreaction]
      exact .refuse hl
  | fault socket fault =>
    exact settles_of_spares hi rfl ⟨rfl, rfl⟩ (by simp [Hears])
  | listenStatus | listenFaults | unlisten listener =>
    exact settles_of_spares hi rfl ⟨rfl, rfl⟩ (by simp [Hears])

theorem step_settles (hi : l.Invariant) (event : Event) :
    l.Settles event (l.step event).1.session.updates
      (Session.outcomes (called (l.step event).2)) := by
  rw [step_session, called_step]
  exact reaction_settles hi event

def outcomesOf (tag : Nat) (turns : List Turn) : List Call :=
  turns.flatMap fun turn => (Session.outcomes (called turn.log)).filter (·.tag? = some tag)

theorem outcomesOf_append_singleton (turns : List Turn) (turn : Turn) :
    outcomesOf tag (turns ++ [turn]) =
      outcomesOf tag turns ++ (Session.outcomes (called turn.log)).filter (·.tag? = some tag) := by
  simp [outcomesOf]

variable {updates : Table Nat Nat} {calls : List Call}

/-- An update that does not wait hears nothing, until it is asked for. -/
theorem Settles.without (h : l.Settles event updates calls) (he : event.tag? ≠ some tag)
    (hn : ∀ id, (id, tag) ∉ l.session.updates) :
    (∀ id, (id, tag) ∉ updates) ∧ calls.filter (·.tag? = some tag) = [] := by
  cases h with
  | @ask other _ _ hl =>
    have hne : other ≠ tag := by simpa [Event.tag?] using he
    refine ⟨fun id hm => ?_, rfl⟩
    rcases List.mem_append.mp hm with hm | hm
    · exact hn id hm
    · exact hne (Prod.mk.inj (List.mem_singleton.mp hm)).2.symm
  | @refuse other _ _ hl =>
    have hne : other ≠ tag := by simpa [Event.tag?] using he
    exact ⟨hn, by simp [Call.tag?, hne]⟩
  | @answer _ reply other hr hm =>
    have hne : other ≠ tag := by
      rintro rfl
      exact hn _ hm
    exact ⟨fun id hm => hn id (List.mem_of_mem_filter hm), by simp [hne]⟩
  | lose => exact ⟨by simp, rfl⟩
  | keep => exact ⟨hn, rfl⟩

theorem Run.without (h₀ : Run policy before m) (hn : ∀ id, (id, tag) ∉ m.session.updates)
    (h : Run policy (before ++ after) l) (he : ∀ turn ∈ after, turn.event.tag? ≠ some tag) :
    (∀ id, (id, tag) ∉ l.session.updates) ∧ outcomesOf tag after = [] := by
  revert he
  refine Run.later h₀ (fun _ => ⟨hn, rfl⟩) ?_ h
  intro after l event hr ih he
  obtain ⟨hnone, houtcomes⟩ := ih fun turn ht => he turn (List.mem_append_left _ ht)
  have hother := he ⟨event, _⟩ (List.mem_append_right _ (List.mem_singleton_self _))
  obtain ⟨hstill, hquiet⟩ := (step_settles (run_invariant hr) event).without hother hnone
  exact ⟨hstill, by rw [outcomesOf_append_singleton, houtcomes, hquiet, List.append_nil]⟩

structure Waiting (l : Link) (socket id tag : Nat) : Prop where
  accepts : l.accepts socket = true
  waits : (id, tag) ∈ l.session.updates
  only : ∀ i, (i, tag) ∈ l.session.updates → i = id

/-- An update that waits goes on waiting, is lost with the connection or has its answer. -/
theorem Settles.waiting (h : l.Settles event updates calls) (hi : l.Invariant)
    (hw : l.Waiting socket id tag) (he : event.tag? ≠ some tag) :
    ((l.moved event).1.state = .connected ∧
        ((id, tag) ∈ updates ∧ ∀ i, (i, tag) ∈ updates → i = id) ∧
        (∀ reply, l.Hears event reply → reply.id ≠ id) ∧ calls.filter (·.tag? = some tag) = []) ∨
      (∀ i, (i, tag) ∉ updates) ∧
        ((l.moved event).1.state ≠ .connected ∧ calls = [] ∨
          ∃ reply, l.Hears event reply ∧ reply.id = id ∧ calls = [Session.verdict tag reply]) := by
  have hc := (accepts_iff.mp hw.accepts).2
  have hsame : ∀ {i other}, (i, other) ∈ l.session.updates → i = id → other = tag := by
    rintro i other hm rfl
    have heq := hi.session.awaited_eq (Session.mem_updates.mp hm) (Session.mem_updates.mp hw.waits)
    exact Session.Awaited.update.inj heq
  cases h with
  | @ask other _ _ hl =>
    have hne : other ≠ tag := by simpa [Event.tag?] using he
    refine Or.inl ⟨hc, ⟨List.mem_append_left _ hw.waits, fun i hm => ?_⟩, by simp [Hears], rfl⟩
    rcases List.mem_append.mp hm with hm | hm
    · exact hw.only i hm
    · exact absurd (Prod.mk.inj (List.mem_singleton.mp hm)).2.symm hne
  | @refuse other _ _ hl =>
    have hne : other ≠ tag := by simpa [Event.tag?] using he
    exact Or.inl ⟨hc, ⟨hw.waits, hw.only⟩, by simp [Hears], by simp [Call.tag?, hne]⟩
  | @answer _ reply other hr hm =>
    by_cases hid : reply.id = id
    · obtain rfl := hsame hm hid
      refine Or.inr ⟨fun i hk => ?_, Or.inr ⟨reply, hr, hid, rfl⟩⟩
      obtain ⟨hk, hne⟩ := List.mem_filter.mp hk
      simp [hw.only i hk, hid] at hne
    · have hne : other ≠ tag := by
        rintro rfl
        exact hid (hw.only _ hm)
      obtain ⟨source, text, rfl, ha, hread⟩ := hr
      refine Or.inl ⟨hc, ⟨?_, fun i hk => hw.only i (List.mem_of_mem_filter hk)⟩, ?_, by simp [hne]⟩
      · exact List.mem_filter.mpr ⟨hw.waits, decide_eq_true (Ne.symm hid)⟩
      · rintro heard ⟨_, _, htext, _, hread'⟩
        cases htext
        cases hread.symm.trans hread'
        exact hid
  | lose ht hoff => exact Or.inr ⟨by simp, Or.inl ⟨hoff, rfl⟩⟩
  | keep ht hon hn =>
    refine Or.inl ⟨hon, ⟨hw.waits, hw.only⟩, ?_, rfl⟩
    rintro reply hr rfl
    exact hn reply hr tag hw.waits

/-- How it went on with an update that was asked for: the first reply to it came while the socket
was connected and made its one callback, or the link left the socket before and nothing was
called. -/
inductive Fate (policy : Retry) (before : List Turn) (socket id tag : Nat) :
    List Turn → List Call → Prop where
  | answered {mid rest : List Turn} {l : Link} {text : String} {reply : Reply}
      (h : Run policy (before ++ mid) l) (ha : l.accepts socket = true)
      (hu : Unheard socket id mid) (hread : Message.read text = .ok (.reply reply))
      (hid : reply.id = id)
      (hcalls : Session.outcomes (called (l.step (.text socket text)).2) =
        [Session.verdict tag reply]) :
      Fate policy before socket id tag
        (mid ++ ⟨.text socket text, (l.step (.text socket text)).2⟩ :: rest)
        [Session.verdict tag reply]
  | lost {mid rest : List Turn} {l : Link} {event : Event}
      (h : Run policy (before ++ mid) l) (ha : l.accepts socket = true)
      (hu : Unheard socket id mid) (hc : (l.step event).1.dialer.state ≠ .connected) :
      Fate policy before socket id tag (mid ++ ⟨event, (l.step event).2⟩ :: rest) []

theorem Fate.append (h : Fate policy before socket id tag after calls) (more : List Turn) :
    Fate policy before socket id tag (after ++ more) calls := by
  cases h with
  | answered h ha hu hread hid hcalls =>
    rw [List.append_assoc, List.cons_append]
    exact .answered h ha hu hread hid hcalls
  | lost h ha hu hc =>
    rw [List.append_assoc, List.cons_append]
    exact .lost h ha hu hc

theorem Hears.text {reply : Reply} (h : l.Hears event reply) (ha : l.accepts socket = true) :
    ∃ text, event = .text socket text ∧ Message.read text = .ok (.reply reply) := by
  obtain ⟨source, text, rfl, ha', hread⟩ := h
  obtain rfl := Option.some.inj ((accepts_iff.mp ha').1.symm.trans (accepts_iff.mp ha).1)
  exact ⟨text, rfl, hread⟩

theorem hears_of_heardOn {reply : Reply} (ha : l.accepts socket = true)
    (h : .heard reply ∈ heardOn socket event) : l.Hears event reply := by
  cases event with
  | text source text =>
    obtain ⟨rfl, hm⟩ := List.mem_ite_nil_right.mp h
    exact ⟨source, text, rfl, ha, Session.mem_heardIn.mp hm⟩
  | _ => cases h

theorem Run.fate (h₀ : Run policy before m) (hw : m.Waiting socket id tag)
    (h : Run policy (before ++ after) l) (he : ∀ turn ∈ after, turn.event.tag? ≠ some tag) :
    l.Waiting socket id tag ∧ Unheard socket id after ∧ outcomesOf tag after = [] ∨
      (∀ i, (i, tag) ∉ l.session.updates) ∧
        Fate policy before socket id tag after (outcomesOf tag after) := by
  revert he
  refine Run.later h₀ (fun _ => Or.inl ⟨hw, by simp [Unheard], rfl⟩) ?_ h
  intro after l event hr ih he
  have hi := run_invariant hr
  have hother := he ⟨event, _⟩ (List.mem_append_right _ (List.mem_singleton_self _))
  have hsettles := step_settles hi event
  rw [outcomesOf_append_singleton]
  rcases ih fun turn ht => he turn (List.mem_append_left _ ht) with
    ⟨hw, hu, houtcomes⟩ | ⟨hnone, hfate⟩
  · rw [houtcomes, List.nil_append]
    rcases hsettles.waiting hi hw hother with
      ⟨hc, ⟨hm, honly⟩, hn, hquiet⟩ | ⟨hgone, ⟨hc, hcalls⟩ | ⟨reply, hh, hid, hcalls⟩⟩
    · refine Or.inl ⟨⟨?_, hm, honly⟩, unheard_append.mpr ⟨hu, ?_⟩, hquiet⟩
      · rw [← step_dialer] at hc
        exact accepts_step hi hw.accepts hc
      · simpa [Unheard] using fun reply hm => hn reply (hears_of_heardOn hw.accepts hm)
    · rw [hcalls]
      exact Or.inr ⟨hgone, .lost hr hw.accepts hu (by rwa [step_dialer])⟩
    · obtain ⟨text, rfl, hread⟩ := hh.text hw.accepts
      have hone : [Session.verdict tag reply].filter (·.tag? = some tag) =
        [Session.verdict tag reply] := by simp
      rw [hcalls, hone]
      exact Or.inr ⟨hgone, .answered hr hw.accepts hu hread hid hcalls⟩
  · obtain ⟨hstill, hquiet⟩ := hsettles.without hother hnone
    rw [hquiet, List.append_nil]
    exact Or.inr ⟨hstill, hfate.append _⟩

theorem step_refused (hi : l.Invariant) (hl : ¬ l.session.state.isLive) (tag : Nat)
    (path : String) (value : Json) :
    l.step (.update tag path value) = (l, [.call (.updateFailed tag .notConnected)]) := by
  simp [step, update, Session.update, hl, carryOut, tellStatus_same hi.status]

theorem step_asked (hi : l.Invariant) (hl : l.session.state.isLive)
    (ha : l.accepts socket = true) (tag : Nat) (path : String) (value : Json) :
    l.step (.update tag path value) =
      ({ l with session := (l.session.send (.update path value) (.update tag)).1 },
        [.sent socket ⟨l.session.nextId, .update path value⟩]) := by
  obtain ⟨hk, hc⟩ := accepts_iff.mp ha
  have hupdate : l.session.update tag path value =
      ((l.session.send (.update path value) (.update tag)).1,
        { requests := [⟨l.session.nextId, .update path value⟩] }) := by
    rw [Session.update, if_pos hl]
    rfl
  have hstatus : tellStatus
      { l with session := (l.session.send (.update path value) (.update tag)).1 } =
        ({ l with session := (l.session.send (.update path value) (.update tag)).1 }, []) :=
    tellStatus_same hi.status
  simp [step, update, hupdate, carryOut, hstatus, sendRequests, hk, Dialer.canSend, hc]

/-- An update, told from others by its tag, is refused where no schemas are in, and then that is all
that happens. Otherwise it is asked for once, and either it still waits on the connected socket, or
its fate is settled; no callback for it is made at any other time. -/
theorem update_has_one_fate {log : List Entry} (h₀ : Run policy before m)
    (h : Run policy (before ++ ⟨.update tag path value, log⟩ :: after) l)
    (hother : ∀ turn ∈ before ++ after, turn.event.tag? ≠ some tag) :
    outcomesOf tag before = [] ∧
      (m.session.state ≠ .subscribing ∧ m.session.state ≠ .subscribed →
        m.step (.update tag path value) = (m, log) ∧
          log = [.call (.updateFailed tag .notConnected)] ∧ outcomesOf tag after = []) ∧
      (m.session.state = .subscribing ∨ m.session.state = .subscribed →
        ∃ socket id, log = [.sent socket ⟨id, .update path value⟩] ∧
          (l.accepts socket = true ∧ Unheard socket id after ∧ outcomesOf tag after = [] ∨
            Fate policy (before ++ [⟨.update tag path value, log⟩]) socket id tag after
              (outcomesOf tag after))) := by
  have hi := run_invariant h₀
  have hafter : ∀ turn ∈ after, turn.event.tag? ≠ some tag := fun turn ht =>
    hother turn (List.mem_append_right _ ht)
  obtain ⟨hnone, hbefore⟩ := Run.start.without (by simp [start, Session.start, Session.updates,
    Session.updatesOf]) h₀ fun turn ht => hother turn (List.mem_append_left _ ht)
  rw [List.append_cons] at h
  obtain ⟨_, hturn⟩ := h.before
  obtain ⟨m', hm', rfl, rfl⟩ := hturn.last
  obtain rfl := h₀.eq hm'
  refine ⟨hbefore, fun hoff => ?_, fun hon => ?_⟩
  · have hstep := step_refused hi (mt Session.State.isLive_iff.mp (not_or.mpr hoff)) tag path value
    rw [hstep] at hturn h ⊢
    exact ⟨rfl, rfl, (hturn.without hnone h hafter).2⟩
  · have hl := Session.State.isLive_iff.mpr hon
    have hc := hi.online_iff.mp (Session.State.ne_of_isLive hl).1
    obtain ⟨socket, hk⟩ := hi.dialer.exists_socket (by rw [hc]; rfl)
    have ha := accepts_iff.mpr ⟨hk, hc⟩
    have hstep := step_asked hi hl ha tag path value
    have hupdates : (m.step (.update tag path value)).1.session.updates =
        m.session.updates ++ [(m.session.nextId, tag)] := by
      rw [hstep]
      exact Session.updatesOf_append _ _
    have hw : (m.step (.update tag path value)).1.Waiting socket m.session.nextId tag := by
      refine ⟨by rw [hstep]; exact ha, by simp [hupdates], fun i hm => ?_⟩
      rw [hupdates] at hm
      rcases List.mem_append.mp hm with hm | hm
      · exact absurd hm (hnone i)
      · exact (Prod.mk.inj (List.mem_singleton.mp hm)).1
    refine ⟨socket, m.session.nextId, by rw [hstep], ?_⟩
    rcases hturn.fate hw h hafter with ⟨hw', hu, houtcomes⟩ | ⟨_, hfate⟩
    · exact Or.inl ⟨hw'.accepts, hu, houtcomes⟩
    · exact Or.inr hfate

def overwriting : List Event := halfway ++ [otherHalf]

def overwrite : Event := .update 7 "p" (.bool true)

def overwritten : Link := ((play .standard overwriting).2.step overwrite).1

def refusal : Event := .text 1 "\x7b\"id\":3,\"ok\":false,\"reason\":\"read-only\"\x7d"

def refused : List Turn :=
  [⟨refusal, (overwritten.step refusal).2⟩,
    ⟨.closed 1, ((overwritten.step refusal).1.step (.closed 1)).2⟩]

theorem update_has_one_fate_refused :
    (play .standard overwriting).2.session.state = .subscribing ∧
      ((play .standard overwriting).2.step overwrite).2 =
        [.sent 1 ⟨3, .update "p" (.bool true)⟩] ∧
      Fate .standard ((play .standard overwriting).1 ++
        [⟨overwrite, [.sent 1 ⟨3, .update "p" (.bool true)⟩]⟩]) 1 3 7 refused
        [.updateFailed 7 (.rejected "UpdateParameter" "read-only")] := by
  have hstate : (play .standard overwriting).2.session.state = .subscribing := by decide +kernel
  have hlog : ((play .standard overwriting).2.step overwrite).2 =
      [.sent 1 ⟨3, .update "p" (.bool true)⟩] := by decide +kernel
  have hcalls : outcomesOf 7 refused =
      [.updateFailed 7 (.rejected "UpdateParameter" "read-only")] := by decide +kernel
  have hother : ∀ turn ∈ (play .standard overwriting).1 ++ refused,
      turn.event.tag? ≠ some 7 := by decide +kernel
  have hrun := run_play .standard overwriting
  have hall := ((hrun.step overwrite).step refusal).step (.closed 1)
  rw [List.append_assoc, List.append_assoc, hlog] at hall
  obtain ⟨_, _, hon⟩ := update_has_one_fate hrun hall hother
  obtain ⟨socket, id, hsent, hfate⟩ := hon (Or.inl hstate)
  cases hsent
  refine ⟨hstate, hlog, ?_⟩
  rcases hfate with ⟨_, _, hquiet⟩ | hfate
  · cases hcalls.symm.trans hquiet
  · rw [← hcalls]
    exact hfate

end Link
end Downlink
