import Downlink.Proofs.Conversation
import Downlink.Proofs.Link

/-!
The wire as a run of a link leaves it: what was said and heard on each socket. On every socket the
demands are in order, and on the connected one they lead to the topics that have members.
-/
namespace Downlink.Link

variable {l : Link} {policy : Retry} {turns : List Turn} {socket : Nat} {event : Event}

/-- A reply counts for its socket also where the link no longer listens to it. -/
def heardOn (socket : Nat) : Event → List Word
  | .text source text => if source = socket then Session.heardIn text else []
  | _ => []

def Turn.requests (turn : Turn) (socket : Nat) : List Request :=
  (sent turn.log).filterMap fun p => if p.1 = socket then some p.2 else none

def transcript (socket : Nat) (turns : List Turn) : List Word :=
  turns.flatMap fun turn => heardOn socket turn.event ++ (turn.requests socket).map .said

theorem transcript_append_singleton (socket : Nat) (turns : List Turn) (turn : Turn) :
    transcript socket (turns ++ [turn]) =
      transcript socket turns ++ heardOn socket turn.event ++ (turn.requests socket).map .said := by
  simp [transcript]

theorem heardOn_cases (socket : Nat) (event : Event) :
    heardOn socket event = [] ∨ ∃ reply, heardOn socket event = [.heard reply] := by
  cases event with
  | text source text =>
    by_cases hs : source = socket
    · rw [heardOn, if_pos hs]
      exact Session.heardIn_cases text
    · exact Or.inl (by rw [heardOn, if_neg hs])
  | _ => exact Or.inl rfl

theorem silent_heardOn (socket : Nat) (event : Event) : Silent (heardOn socket event) := by
  rcases heardOn_cases socket event with hh | ⟨reply, hh⟩ <;> simp [hh, Silent]

theorem orderly_heardOn {words : List Word} (h : Orderly words) (socket : Nat) (event : Event) :
    Orderly (words ++ heardOn socket event) := by
  rcases heardOn_cases socket event with hh | ⟨reply, hh⟩
  · simpa [hh] using h
  · rw [hh]
    exact h.heard reply

/-- Only on the connected socket anything is said, and that is what the session asks for. -/
theorem requests_connected (event : Event) (hk : (l.moved event).1.socket = some socket)
    (hc : (l.moved event).1.state = .connected) :
    (Turn.mk event (l.step event).2).requests socket = (l.reaction event).2.requests := by
  simp [Turn.requests, sent_step, onWire_connected hk hc, List.filterMap_map]

theorem requests_other (event : Event)
    (h : ¬ ((l.moved event).1.socket = some socket ∧ (l.moved event).1.state = .connected)) :
    (Turn.mk event (l.step event).2).requests socket = [] := by
  rw [Turn.requests, sent_step]
  unfold onWire
  split
  next other hk =>
    by_cases hc : (l.moved event).1.state = .connected
    · have hne : other ≠ socket := fun he => h ⟨he ▸ hk, hc⟩
      simp [Dialer.canSend, hc, hne]
    · simp [Dialer.canSend, hc]
  next => rfl

theorem moved_cases (h : l.Invariant) (event : Event) :
    (l.moved event).1 = l.dialer ∨
      ∃ ev actions, l.dialer.Move ev (l.moved event).1 actions := by
  unfold moved
  split
  next ev _ => exact Or.inr ⟨ev, _, Dialer.step_moves h.dialer ev⟩
  next => exact Or.inl rfl

theorem moved_unused (h : l.Invariant) (hu : (l.moved event).1.Unused socket) :
    l.dialer.Unused socket := by
  rcases moved_cases h event with hd | ⟨ev, actions, hm⟩
  · rwa [hd] at hu
  · exact hm.unused hu

theorem moved_connected (h : l.Invariant) (hc : (l.moved event).1.state = .connected) :
    (l.moved event).1.socket = l.dialer.socket ∧ l.dialer.state.isUp := by
  rcases moved_cases h event with hd | ⟨ev, actions, hm⟩
  · rw [hd] at hc ⊢
    exact ⟨rfl, Dialer.State.isUp_iff.mpr (Or.inr hc)⟩
  · exact hm.connected hc

theorem accepts_step (h : l.Invariant) (ha : l.accepts socket = true)
    (hc : (l.step event).1.dialer.state = .connected) :
    (l.step event).1.accepts socket = true := by
  rw [step_dialer] at hc
  rw [accepts_iff, step_dialer, (moved_connected h hc).1]
  exact ⟨(accepts_iff.mp ha).1, hc⟩

structure History (l : Link) (turns : List Turn) : Prop where
  follows : ∀ socket, l.dialer.socket = some socket → l.dialer.state = .connected →
    l.session.Follows (transcript socket turns)
  orderly : ∀ socket, Orderly (transcript socket turns)
  unused : ∀ socket, l.dialer.Unused socket → Silent (transcript socket turns)
  timely : ∀ before turn, before ++ [turn] <+: turns → ∀ socket, ∀ request ∈ turn.requests socket,
    ∀ demand, request.query = .demand demand →
      (Ledger.of (transcript socket before ++ heardOn socket turn.event)).Clear

theorem start_history (policy : Retry) : (start policy).History [] where
  follows socket hk _ := by cases hk
  orderly socket := orderly_nil
  unused socket _ request hr := by cases hr
  timely before turn hp := by
    have hnil := List.prefix_nil.mp hp
    simp at hnil

/-- The session goes on in step with what crosses a socket that stays connected. -/
theorem reaction_connected (hi : l.Invariant) (hc : l.dialer.state = .connected)
    (hk : l.dialer.socket = some socket) (hc' : (l.moved event).1.state = .connected)
    {words : List Word} (h : l.session.Follows words) :
    Session.Continues (words ++ heardOn socket event) (l.reaction event) := by
  have honline : l.session.state ≠ .offline := hi.online_iff.mpr hc
  have hcan : l.dialer.canSend = true := by simp [Dialer.canSend, hc]
  have hsame : l.session.Follows (words ++ []) := by simpa using h
  unfold reaction
  cases event with
  | want | url | opened | closed | elapsed =>
    have hstatus := (Dialer.status_eq_connected_iff _).mpr hc'
    simp only [moved, Event.toDialer?] at hstatus
    simp only [inputs, Event.toDialer?, Session.feed_singleton, Session.respond]
    rw [Session.onSocket_same ⟨fun _ => honline, fun _ => hstatus⟩]
    exact hsame.continues rfl
  | text source text =>
    by_cases hf : source = socket
    · have ha : l.accepts source = true := by simp [accepts, hk, hf, hcan]
      rw [heardOn, inputs, if_pos hf, if_pos ha, Session.feed_singleton]
      exact h.onText_continues hi.session text
    · have ha : ¬ l.accepts source := by simp [accepts, hk, Ne.symm hf]
      rw [heardOn, inputs, if_neg hf, if_neg ha]
      exact hsame.continues rfl
  | frame source bytes =>
    obtain ⟨images, calls, hq⟩ := l.session.onFrame_quiet bytes
    have hquiet : Session.Follows { l.session with images } (words ++ []) :=
      hsame.congr rfl rfl rfl rfl rfl rfl
    by_cases ha : l.accepts source
    · simp only [inputs, ha, if_true, Session.feed_singleton, Session.respond, hq]
      exact hquiet.continues rfl
    · simp only [inputs, ha]
      exact hsame.continues rfl
  | subscribe topic => exact hsame.join_continues hi.session topic l.nextMember
  | unsubscribe topic id => exact hsame.leave_continues hi.session topic id
  | update tag path value =>
    simp only [inputs, Session.feed_singleton, Session.respond]
    exact hsame.update_continues tag path value
  | fault | listenStatus | listenFaults | unlisten => exact hsame.continues rfl

theorem reaction_opened (hi : l.Invariant) (hc : l.dialer.state = .connecting)
    (hc' : (l.moved event).1.state = .connected) {words : List Word} (hs : Silent words) :
    Session.Continues words (l.reaction event) := by
  have hoffline : l.session.state = .offline := hi.together.mpr (by simp [hc])
  rcases inputs_cases l event with hin | ⟨hd, _⟩
  · rw [reaction, hin, Session.feed_singleton, (Dialer.status_eq_connected_iff _).mpr hc']
    exact Session.onSocket_continues hi.session hoffline hs
  · rw [hd, hc] at hc'
    cases hc'

theorem History.reaction_continues (h : l.History turns) (hi : l.Invariant)
    (hk : (l.moved event).1.socket = some socket) (hc : (l.moved event).1.state = .connected) :
    Session.Continues (transcript socket turns ++ heardOn socket event) (l.reaction event) := by
  obtain ⟨hsocket, hup⟩ := moved_connected hi hc
  rw [hsocket] at hk
  rcases Dialer.State.isUp_iff.mp hup with hstate | hstate
  · exact reaction_opened hi hstate hc
      ((h.unused socket (Or.inr ⟨hk, hstate⟩)).append (silent_heardOn socket event))
  · exact reaction_connected hi hstate hk hc (h.follows socket hk hstate)

theorem step_preserves_history (hi : l.Invariant) (h : l.History turns) (event : Event) :
    (l.step event).1.History (turns ++ [⟨event, (l.step event).2⟩]) := by
  have hd := step_dialer l event
  constructor
  · intro socket hk hc
    rw [hd] at hk hc
    rw [step_session, transcript_append_singleton, requests_connected event hk hc]
    exact (h.reaction_continues hi hk hc).follows
  · intro socket
    rw [transcript_append_singleton]
    by_cases hw : (l.moved event).1.socket = some socket ∧ (l.moved event).1.state = .connected
    · rw [requests_connected event hw.1 hw.2]
      exact (h.reaction_continues hi hw.1 hw.2).orderly (orderly_heardOn (h.orderly socket) _ _)
    · rw [requests_other event hw]
      simpa using orderly_heardOn (h.orderly socket) socket event
  · intro socket hu
    rw [hd] at hu
    have hn : ¬ ((l.moved event).1.socket = some socket ∧
        (l.moved event).1.state = .connected) := by
      rintro ⟨hk, hc⟩
      rcases hu with hu | ⟨_, hu⟩
      · exact Nat.lt_irrefl _
          (Nat.lt_of_lt_of_le ((moved_invariant hi.dialer event).fresh socket hk) hu)
      · cases hc.symm.trans hu
    rw [transcript_append_singleton, requests_other event hn]
    simpa using (h.unused socket (moved_unused hi hu)).append (silent_heardOn socket event)
  · intro before turn hp socket request hr demand hq
    rcases List.prefix_concat_iff.mp hp with hp | hp
    · obtain ⟨rfl, hturn⟩ := List.append_inj' hp rfl
      cases hturn
      by_cases hw : (l.moved event).1.socket = some socket ∧ (l.moved event).1.state = .connected
      · rw [requests_connected event hw.1 hw.2] at hr
        exact (h.reaction_continues hi hw.1 hw.2).timely request hr demand hq
      · rw [requests_other event hw] at hr
        cases hr
    · exact h.timely before turn hp socket request hr demand hq

theorem run_history (h : Run policy turns l) : l.History turns := by
  induction h with
  | start => exact start_history policy
  | step event hr ih => exact step_preserves_history (run_invariant hr) ih event

/-- On every socket and for every topic, subscribing and unsubscribing take turns and subscribing
comes first, no two demands are open at once, and whenever a turn says a demand, every demand of the
turns before has its reply and both schemas are in. -/
theorem demands_in_order (h : Run policy turns l) (socket : Nat) :
    (∀ topic, Alternates true (directions topic (transcript socket turns))) ∧
      (∀ words, words <+: transcript socket turns → ∀ topic,
        ((Ledger.of words).openFor topic).length ≤ 1) ∧
      ∀ before turn, before ++ [turn] <+: turns → ∀ request ∈ turn.requests socket,
        ∀ demand, request.query = .demand demand →
          (Ledger.of (transcript socket before ++ heardOn socket turn.event)).Clear := by
  have hh := run_history h
  obtain ⟨halternates, hsingle⟩ := hh.orderly socket
  exact ⟨halternates, hsingle, fun before turn hp => hh.timely before turn hp socket⟩

def toggling : List Event :=
  halfway ++ [otherHalf, .unsubscribe (.parameter "p") 1, .subscribe (.parameter "q")]

def batchDone : Event := .text 1 "\x7b\"id\":2,\"ok\":true\x7d"

theorem demands_in_order_toggling :
    directions (.parameter "p") (transcript 1 (play .standard (toggling ++ [batchDone])).1) =
        [true, false] ∧
      Alternates true
        (directions (.parameter "p") (transcript 1 (play .standard (toggling ++ [batchDone])).1)) ∧
      (Ledger.of (transcript 1 (play .standard toggling).1 ++ heardOn 1 batchDone)).Clear := by
  obtain ⟨halternates, _, htimely⟩ :=
    demands_in_order (run_play .standard (toggling ++ [batchDone])) 1
  have hrequest : ⟨3, .demand ⟨false, .parameter "p"⟩⟩ ∈
      (Turn.mk batchDone ((play .standard toggling).2.step batchDone).2).requests 1 := by
    decide +kernel
  have hturns := congrArg Prod.fst (play_append_singleton .standard toggling batchDone)
  have hprefix : (play .standard toggling).1 ++
      [⟨batchDone, ((play .standard toggling).2.step batchDone).2⟩] <+:
        (play .standard (toggling ++ [batchDone])).1 := ⟨[], by rw [hturns, List.append_nil]⟩
  exact ⟨by decide +kernel, halternates _, htimely _ _ hprefix _ hrequest _ rfl⟩

/-- As long as both schemas are in, the queue leads from what is subscribed on the wire to the
topics with members, and without a queue the two are the same. -/
theorem wire_agrees (h : Run policy turns l) (hl : l.session.state.isLive) (topic : Topic) :
    ∃ socket, l.dialer.socket = some socket ∧
      (∀ demand ∈ l.session.queue, demand.topic = topic →
        demand.subscribe = l.session.audience.contains topic ∧
          demand.subscribe ≠ wired (transcript socket turns) topic) ∧
      ((∀ demand ∈ l.session.queue, demand.topic ≠ topic) →
        wired (transcript socket turns) topic = l.session.audience.contains topic) ∧
      (l.session.state = .subscribed → l.session.queue = [] ∧
        (wired (transcript socket turns) topic = true ↔ l.session.audience.ids topic ≠ [])) := by
  have hi := run_invariant h
  have hc : l.dialer.state = .connected :=
    hi.online_iff.mp (Session.State.ne_of_isLive hl).1
  obtain ⟨socket, hk⟩ := hi.dialer.exists_socket (by rw [hc]; rfl)
  have ha := ((run_history h).follows socket hk hc).agreement hl
  refine ⟨socket, hk, ?_, ha.settled topic, ?_⟩
  · rintro demand hd rfl
    exact ha.queued demand hd
  · intro hs
    have hq := hi.session.drained hs
    refine ⟨hq, ?_⟩
    rw [Audience.ids_ne_nil_iff hi.session.audience, ha.settled topic (by simp [hq])]

theorem wire_agrees_toggling :
    (play .standard toggling).2.session.state = .subscribing ∧
      (play .standard toggling).2.session.queue =
        [⟨false, .parameter "p"⟩, ⟨true, .parameter "q"⟩] ∧
      ∃ socket, (play .standard toggling).2.dialer.socket = some socket ∧
        (play .standard toggling).2.session.audience.contains (.parameter "p") = false ∧
        wired (transcript socket (play .standard toggling).1) (.parameter "p") = true := by
  have hstate : (play .standard toggling).2.session.state = .subscribing := by decide +kernel
  have hqueue : (play .standard toggling).2.session.queue =
      [⟨false, .parameter "p"⟩, ⟨true, .parameter "q"⟩] := by decide +kernel
  obtain ⟨socket, hk, hqueued, _⟩ := wire_agrees (run_play .standard toggling)
    (Session.State.isLive_iff.mpr (Or.inl hstate)) (.parameter "p")
  obtain ⟨hheld, hwired⟩ := hqueued ⟨false, .parameter "p"⟩ (by simp [hqueue]) rfl
  exact ⟨hstate, hqueue, socket, hk, hheld.symm, by simpa using hwired⟩

end Downlink.Link
