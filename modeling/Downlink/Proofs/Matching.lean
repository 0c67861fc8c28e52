import Downlink.Proofs.Since
import Downlink.Proofs.Wire

/-!
Requests and their replies. The requests of a run are numbered through, over all its sockets, and a
reply belongs to the request of its id only on the socket on which that was sent, and only once.
-/
namespace Downlink

namespace Session

variable {s : Session}

structure Numbers (s : Session) (result : Session × Effects) : Prop where
  nextId : result.1.nextId = s.nextId + result.2.requests.length
  ids : result.2.requests.map (·.id) = List.range' s.nextId result.2.requests.length
  awaited : ∀ a ∈ result.1.awaited, a ∈ s.awaited ∨ s.nextId ≤ a.1

theorem numbers_of_silent {t : Session} {effects : Effects} (hid : t.nextId = s.nextId)
    (ha : ∀ a ∈ t.awaited, a ∈ s.awaited) (he : effects.requests = []) :
    s.Numbers (t, effects) where
  nextId := by simp [hid, he]
  ids := by simp [he]
  awaited a hm := Or.inl (ha a hm)

theorem Numbers.andThen {result : Session × Effects} {next : Session → Session × Effects}
    (h : s.Numbers result) (h' : result.1.Numbers (next result.1)) :
    s.Numbers (andThen result next) where
  nextId := by
    rw [andThen_fst, h'.nextId, h.nextId, andThen_snd, Effects.requests_append, List.length_append,
      Nat.add_assoc]
  ids := by
    rw [andThen_snd, Effects.requests_append, List.map_append, h.ids, h'.ids, h.nextId,
      List.length_append, ← List.range'_append_1]
  awaited a hm := by
    rcases h'.awaited a hm with hm | hid
    · exact h.awaited a hm
    · rw [h.nextId] at hid
      exact Or.inr (Nat.le_of_add_right_le hid)

theorem advance_numbers (s : Session) : s.Numbers s.advance := by
  by_cases hr : s.Ready
  · by_cases hq : s.queue = []
    · rw [advance_of_empty hr hq]
      exact numbers_of_silent rfl (fun _ hm => hm) (entering_requests _)
    · rw [advance_of_queue hr hq]
      have hrequests : (s.entering .subscribing ++
          { requests := (numbered s.nextId s.queue).map fun p => ⟨p.1, .demand p.2⟩ }).requests =
            batch s.nextId s.queue := by simp [batch]
      constructor <;> dsimp only <;> try rw [hrequests, batch_length]
      · exact batch_ids s.nextId s.queue
      · intro a hm
        rcases List.mem_append.mp hm with hm | hm
        · exact Or.inl hm
        · obtain ⟨p, hp, rfl⟩ := List.mem_map.mp hm
          exact Or.inr (numbered_bounds hp).1
  · rw [advance_of_not_ready hr]
    exact numbers_of_silent rfl (fun _ hm => hm) rfl

theorem Numbers.of_queue {queue : List Demand} {result : Session × Effects}
    (h : Numbers { s with queue } result) : s.Numbers result := ⟨h.nextId, h.ids, h.awaited⟩

theorem finishFetching_numbers (s : Session) : s.Numbers s.finishFetching := by
  unfold finishFetching
  split
  · exact (advance_numbers _).of_queue
  · exact numbers_of_silent rfl (fun _ hm => hm) rfl

theorem onAnswer_numbers (s : Session) (reply : Reply) (a : Awaited) :
    s.Numbers (s.onAnswer reply a) := by
  have hkeep : ∀ a ∈ s.awaited, a ∈ s.awaited := fun _ hm => hm
  cases a with
  | outputSchema | parameterSchema =>
    simp only [onAnswer]
    refine Numbers.andThen ?_ (finishFetching_numbers _)
    exact numbers_of_silent rfl hkeep (schemaEffects_requests _)
  | demand | update =>
    simp only [onAnswer]
    exact Numbers.andThen (numbers_of_silent rfl hkeep rfl) (advance_numbers _)

theorem onReply_numbers (s : Session) (reply : Reply) : s.Numbers (s.onReply reply) := by
  unfold onReply
  split
  · exact numbers_of_silent rfl (fun _ hm => hm) rfl
  next a _ =>
    have h := onAnswer_numbers { s with awaited := Table.erase reply.id s.awaited } reply a
    exact ⟨h.nextId, h.ids, fun a ha => (h.awaited a ha).imp_left List.mem_of_mem_filter⟩

theorem onSocket_numbers (s : Session) (status : Status) : s.Numbers (s.onSocket status) := by
  rcases s.onSocket_cases status with ⟨rfl, ho⟩ | ⟨hsame, _⟩ | ⟨hs, ho⟩
  · rw [onSocket_connected ho]
    refine ⟨rfl, rfl, fun a hm => ?_⟩
    rcases List.mem_append.mp hm with hm | hm
    · exact Or.inl hm
    · simp only [List.mem_cons, List.not_mem_nil, or_false] at hm
      rcases hm with rfl | rfl
      · exact Or.inr (Nat.le_refl _)
      · exact Or.inr (Nat.le_succ _)
  · rw [hsame]
    exact numbers_of_silent rfl (fun _ hm => hm) rfl
  · rw [onSocket_lost hs ho]
    exact numbers_of_silent rfl (by simp) rfl

theorem respond_numbers (s : Session) (input : Input) : s.Numbers (s.respond input) := by
  have hsame : ∀ {t : Session} {effects : Effects}, t.nextId = s.nextId → t.awaited = s.awaited →
      effects.requests = [] → s.Numbers (t, effects) :=
    fun hid ha => numbers_of_silent hid fun a hm => ha ▸ hm
  cases input with
  | socket status => exact onSocket_numbers s status
  | demand change =>
    simp only [respond, demand]
    split
    · rw [plan_eq]
      exact (advance_numbers _).of_queue
    · exact hsame rfl rfl rfl
  | update tag path value =>
    simp only [respond, update]
    split
    · refine ⟨rfl, rfl, fun a hm => ?_⟩
      rcases List.mem_append.mp hm with hm | hm
      · exact Or.inl hm
      · rw [List.mem_singleton.mp hm]
        exact Or.inr (Nat.le_refl _)
    · exact hsame rfl rfl rfl
  | text text =>
    simp only [respond]
    rcases onText_cases s text with
      ⟨fault, _, ht⟩ | ⟨reply, _, ht⟩ | ⟨push, images, calls, _, ht⟩ <;> rw [ht]
    · exact hsame rfl rfl rfl
    · exact onReply_numbers s reply
    · exact hsame rfl rfl rfl
  | frame bytes =>
    obtain ⟨images, calls, hf⟩ := onFrame_quiet s bytes
    simp only [respond, hf]
    exact hsame rfl rfl rfl
  | join | leave => exact hsame rfl rfl rfl

theorem feed_numbers (s : Session) (inputs : List Input) : s.Numbers (s.feed inputs) :=
  feed_induction (fun _ => numbers_of_silent rfl (fun _ hm => hm) rfl) Numbers.andThen
    (fun input _ s => respond_numbers s input) s

theorem onReply_unmatched {reply : Reply} (h : ∀ a, (reply.id, a) ∉ s.awaited) :
    s.onReply reply = (s, { faults := [.unmatchedResponse reply.id] }) := by
  cases hget : Table.get? reply.id s.awaited with
  | none => rw [onReply, hget]
  | some a => exact absurd (Table.mem_of_get? hget) (h a)

/-- The reply is taken for the query: what was awaited is awaited no more, and the session goes on
as for such an answer. -/
def Takes (s : Session) (reply : Reply) (query : Query) (result : Session × Effects) : Prop :=
  ∃ a, (reply.id, a) ∈ s.awaited ∧ a.blocking? = query.blocking? ∧
    result = { s with awaited := Table.erase reply.id s.awaited }.onAnswer reply a

theorem Tracks.takes {words : List Word} (h : Tracks s words) (hn : (s.awaited.map (·.1)).Nodup)
    {reply : Reply} {query : Query} (hq : (reply.id, query) ∈ (Ledger.of words).unanswered) :
    s.Takes reply query (s.onReply reply) := by
  obtain ⟨a, ha, hb⟩ := h.waits.exists_awaited hq
  refine ⟨a, ha, hb, ?_⟩
  rw [onReply, Table.get?_of_mem hn ha]

theorem Takes.gone {reply : Reply} {query : Query} {result : Session × Effects}
    (h : s.Takes reply query result) (hb : ∀ a ∈ s.awaited, a.1 < s.nextId) (a : Awaited) :
    (reply.id, a) ∉ result.1.awaited := by
  obtain ⟨taken, ht, _, rfl⟩ := h
  intro ha
  rcases (onAnswer_numbers _ reply taken).awaited _ ha with ha | hid
  · simp [Table.erase] at ha
  · exact Nat.not_le_of_lt (hb _ ht) hid

end Session

namespace Link

variable {l m : Link} {policy : Retry} {turns before after : List Turn} {turn : Turn}
  {socket : Nat} {text : String} {request : Request}

def sentIn (turns : List Turn) : List (Nat × Request) := turns.flatMap fun turn => sent turn.log

theorem sentIn_append_singleton (turns : List Turn) (turn : Turn) :
    sentIn (turns ++ [turn]) = sentIn turns ++ sent turn.log := by
  simp [sentIn]

theorem mem_requests : request ∈ turn.requests socket ↔ (socket, request) ∈ sent turn.log := by
  simp [Turn.requests, List.mem_filterMap]

theorem said_mem_transcript (h : (socket, request) ∈ sentIn turns) :
    .said request ∈ transcript socket turns := by
  obtain ⟨turn, ht, hs⟩ := List.mem_flatMap.mp h
  refine List.mem_flatMap.mpr ⟨turn, ht, List.mem_append_right _ ?_⟩
  exact List.mem_map_of_mem (mem_requests.mpr hs)

theorem run_numbers (h : Run policy turns l) :
    l.session.nextId = (sentIn turns).length ∧
      (sentIn turns).map (·.2.id) = List.range (sentIn turns).length := by
  induction h with
  | start => exact ⟨rfl, rfl⟩
  | @step turns l event hr ih =>
    obtain ⟨hnext, hids⟩ := ih
    have hnumbers := Session.feed_numbers l.session (l.inputs event)
    obtain ⟨hsent, _⟩ := sent_eq_requests (run_invariant hr) event
    have hlength : (l.reaction event).2.requests.length = (sent (l.step event).2).length := by
      rw [← hsent, List.length_map]
    rw [sentIn_append_singleton, List.length_append, step_session, reaction, hnumbers.nextId, hnext]
    refine ⟨congrArg (_ + ·) hlength, ?_⟩
    have hnew : (sent (l.step event).2).map (·.2.id) =
        List.range' (sentIn turns).length (sent (l.step event).2).length := by
      rw [← hnext, ← hlength, reaction, ← hnumbers.ids, ← reaction, ← hsent, List.map_map]
      rfl
    rw [List.map_append, hids, hnew, List.range_eq_range', List.range_eq_range',
      ← List.range'_append_1, Nat.zero_add]

/-- What is awaited later on was awaited already, or has been asked for since. -/
theorem Run.awaited_later (h : Run policy turns l) (hm : Run policy (turns ++ after) m) :
    l.session.nextId ≤ m.session.nextId ∧
      ∀ a ∈ m.session.awaited, a ∈ l.session.awaited ∨ l.session.nextId ≤ a.1 := by
  refine Run.later h ⟨Nat.le_refl _, fun a ha => Or.inl ha⟩ ?_ hm
  rintro after m event _ ⟨hnext, hawaited⟩
  have hnumbers := Session.feed_numbers m.session (m.inputs event)
  rw [step_session, reaction]
  refine ⟨by rw [hnumbers.nextId]; exact Nat.le_add_right_of_le hnext, fun a ha => ?_⟩
  rcases hnumbers.awaited a ha with ha | hid
  · exact hawaited a ha
  · exact Or.inr (Nat.le_trans hnext hid)

def Unheard (socket id : Nat) (turns : List Turn) : Prop :=
  ∀ turn ∈ turns, ∀ reply, .heard reply ∈ heardOn socket turn.event → reply.id ≠ id

/-- The request was sent on the socket, and no reply with its id has come on that since. -/
def Outstanding (turns : List Turn) (socket : Nat) (request : Request) : Prop :=
  ∃ before turn after, turns = before ++ turn :: after ∧ (socket, request) ∈ sent turn.log ∧
    Unheard socket request.id after

theorem unheard_append {id : Nat} :
    Unheard socket id (before ++ after) ↔ Unheard socket id before ∧ Unheard socket id after := by
  simp [Unheard, or_imp, forall_and]

theorem outstanding_iff_since :
    Outstanding turns socket request ↔
      Since (fun _ turn => (socket, request) ∈ sent turn.log)
        (fun turn => ¬ Unheard socket request.id [turn]) turns := by
  simp [Outstanding, Since, Unheard]

theorem outstanding_append_singleton :
    Outstanding (turns ++ [turn]) socket request ↔
      Outstanding turns socket request ∧ Unheard socket request.id [turn] ∨
        (socket, request) ∈ sent turn.log := by
  rw [outstanding_iff_since, outstanding_iff_since, since_append_singleton, not_not, or_comm]

theorem outstanding_iff {id : Nat} {query : Query} :
    Outstanding turns socket ⟨id, query⟩ ↔
      (id, query) ∈ (Ledger.of (transcript socket turns)).unanswered := by
  induction turns using List.reverseRecOn with
  | nil => simp [Outstanding, transcript, Ledger.of, Ledger.empty]
  | append_singleton turns turn ih =>
    rw [outstanding_append_singleton, ih, transcript_append_singleton, Ledger.of_said,
      List.mem_append]
    refine or_congr ?_ ?_
    · rcases heardOn_cases socket turn.event with hh | ⟨reply, hh⟩
      · simp [hh, Unheard]
      · rw [hh, Ledger.of_append_singleton, Ledger.mem_unanswered_take]
        simp [hh, Unheard]
    · simp only [List.mem_map, mem_requests, Prod.mk.injEq]
      constructor
      · exact fun hm => ⟨_, hm, rfl, rfl⟩
      · rintro ⟨said, hm, rfl, rfl⟩
        exact hm

/-- A socket on which something was sent, and that is connected now, has been connected ever
since. -/
theorem Run.accepts_since (h : Run policy before m) (hs : (socket, request) ∈ sentIn before)
    (hl : Run policy (before ++ after) l) (ha : l.accepts socket = true) :
    m.accepts socket = true := by
  revert ha
  refine Run.later h id ?_ hl
  intro after l event hr ih ha
  obtain ⟨hk, hc⟩ := accepts_iff.mp ha
  rw [step_dialer] at hk hc
  obtain ⟨hsame, hup⟩ := moved_connected (run_invariant hr) hc
  rw [hsame] at hk
  rcases Dialer.State.isUp_iff.mp hup with hopening | hopen
  · have hsaid : (socket, request) ∈ sentIn (before ++ after) := by
      rw [sentIn, List.flatMap_append]
      exact List.mem_append_left _ hs
    exact absurd (said_mem_transcript hsaid)
      ((run_history hr).unused socket (Or.inr ⟨hk, hopening⟩) request)
  · exact ih (accepts_iff.mpr ⟨hk, hopen⟩)

theorem step_unmatched (hi : l.Invariant) (ha : l.accepts socket = true) {reply : Reply}
    (hread : Message.read text = .ok (.reply reply))
    (hn : ∀ a, (reply.id, a) ∉ l.session.awaited) :
    l.step (.text socket text) = (l, l.tellFault (.unmatchedResponse reply.id)) := by
  apply hi.step_text_fault ha
  rw [Session.onText, hread]
  exact Session.onReply_unmatched hn

/-- All requests of a run, on whatever sockets, are numbered in the order of sending. A reply on the
connected socket is taken for the request of its id if that is outstanding on this socket, which has
then been connected since it was sent; every later reply with that id is unmatched. A reply without
an outstanding request is told as unmatched, and is all that happens. -/
theorem answered_once (h : Run policy turns l) :
    (sentIn turns).map (·.2.id) = List.range (sentIn turns).length ∧
      ∀ socket text reply, l.accepts socket = true → Message.read text = .ok (.reply reply) →
        (∀ query, Outstanding turns socket ⟨reply.id, query⟩ →
          l.session.Takes reply query (l.reaction (.text socket text)) ∧
            (∀ before after m, turns = before ++ after → Run policy before m →
              (socket, ⟨reply.id, query⟩) ∈ sentIn before → m.accepts socket = true) ∧
            ∀ after m,
              Run policy (turns ++ ⟨.text socket text, (l.step (.text socket text)).2⟩ :: after) m →
                ∀ source again other, m.accepts source = true →
                  Message.read again = .ok (.reply other) → other.id = reply.id →
                    m.step (.text source again) =
                      (m, m.tellFault (.unmatchedResponse reply.id))) ∧
        ((∀ query, ¬ Outstanding turns socket ⟨reply.id, query⟩) →
          l.step (.text socket text) = (l, l.tellFault (.unmatchedResponse reply.id))) := by
  have hi := run_invariant h
  refine ⟨(run_numbers h).2, fun socket text reply ha hread => ?_⟩
  obtain ⟨hk, hc⟩ := accepts_iff.mp ha
  have hfollows := (run_history h).follows socket hk hc
  refine ⟨fun query hq => ?_, fun hn => ?_⟩
  · have htakes : l.session.Takes reply query (l.reaction (.text socket text)) := by
      have hreply : l.session.onText text = l.session.onReply reply := by
        rw [Session.onText, hread]
      rw [reaction_text ha, hreply]
      exact hfollows.takes hi.session.ids (outstanding_iff.mp hq)
    refine ⟨htakes, ?_, ?_⟩
    · rintro before after m rfl hm hs
      exact hm.accepts_since hs h ha
    · intro after m hm source again other ha' hread' hid
      rw [List.append_cons] at hm
      have hstep := Run.step (.text socket text) h
      obtain ⟨_, hlater⟩ := hstep.awaited_later hm
      rw [← hid]
      refine step_unmatched (run_invariant hm) ha' hread' fun a hawaited => ?_
      rw [hid] at hawaited
      rcases hlater _ hawaited with hold | hnew
      · rw [step_session] at hold
        exact htakes.gone hi.session.below a hold
      · obtain ⟨taken, ht, _⟩ := htakes
        have hgiven := hi.session.below _ ht
        obtain ⟨hmono, _⟩ := h.awaited_later (Run.step (.text socket text) h)
        exact Nat.not_le_of_lt hgiven (Nat.le_trans hmono hnew)
  · refine step_unmatched hi ha hread fun a hawaited => ?_
    obtain ⟨query, hq, _⟩ := hfollows.waits.exists_row hawaited
    exact hn query (outstanding_iff.mpr hq)

def reopened : List Event :=
  [.listenFaults, .want true, .url "ws://a", .opened 1, .closed 1, .elapsed, .opened 2]

def replyToFirst : String := "\x7b\"id\":1,\"ok\":true,\"parameter_hierarchy\":\x7b\x7d\x7d"

def replyToSecond : String := "\x7b\"id\":3,\"ok\":true,\"parameter_hierarchy\":\x7b\x7d\x7d"

/-- Both sockets were asked for both schemas. A reply to a request of the first one comes too late,
and one to a request of the second is taken once. -/
theorem answered_once_reopened :
    (sentIn (play .standard reopened).1).map (·.2.id) = [0, 1, 2, 3] ∧
      (play .standard reopened).2.step (.text 2 replyToFirst) =
        ((play .standard reopened).2, [.fault 1 (.unmatchedResponse 1)]) ∧
      ((play .standard reopened).2.step (.text 2 replyToSecond)).1.session.parameterTypes.isSome ∧
      ((play .standard reopened).2.step (.text 2 replyToSecond)).1.step (.text 2 replyToSecond) =
        (((play .standard reopened).2.step (.text 2 replyToSecond)).1,
          [.fault 1 (.unmatchedResponse 3)]) := by
  have hrun := run_play .standard reopened
  obtain ⟨hids, hreplies⟩ := answered_once hrun
  have ha : (play .standard reopened).2.accepts 2 = true := by decide +kernel
  have hopen : (Ledger.of (transcript 2 (play .standard reopened).1)).unanswered =
      [(2, .outputSchema), (3, .parameterSchema)] := by decide +kernel
  have hlisteners : (play .standard reopened).2.faultListeners = [1] ∧
      ((play .standard reopened).2.step (.text 2 replyToSecond)).1.faultListeners = [1] := by
    decide +kernel
  have hread : Message.read replyToSecond =
      .ok (.reply ⟨3, true, none, [("parameter_hierarchy", .obj [])]⟩) := by decide +kernel
  refine ⟨?_, ?_, by decide +kernel, ?_⟩
  · rw [hids]
    decide +kernel
  · obtain ⟨_, hlate⟩ := hreplies 2 replyToFirst
      ⟨1, true, none, [("parameter_hierarchy", .obj [])]⟩ ha (by decide +kernel)
    rw [hlate, tellFault, hlisteners.1]
    · rfl
    · intro query hq
      rw [outstanding_iff, hopen] at hq
      simp at hq
  · obtain ⟨hfirst, _⟩ := hreplies 2 replyToSecond _ ha hread
    have hq : Outstanding (play .standard reopened).1 2 ⟨3, .parameterSchema⟩ := by
      rw [outstanding_iff, hopen]
      simp
    obtain ⟨_, _, hagain⟩ := hfirst _ hq
    rw [hagain [] _ (.step (.text 2 replyToSecond) hrun) 2 replyToSecond _ (by decide +kernel)
      hread rfl, tellFault, hlisteners.2]
    rfl

end Link
end Downlink
