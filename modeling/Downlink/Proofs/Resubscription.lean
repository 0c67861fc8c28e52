import Downlink.Proofs.Wire

/-!
What follows the schemas of a new connection: one batch that subscribes every topic with members,
whatever has happened before.
-/
namespace Downlink

namespace Session

variable {s : Session} {words : List Word}

/-- The first batch goes out at once, and without one the session is done. -/
structure Resubscribes (s : Session) (result : Session × Effects) : Prop where
  requests : result.2.requests = batch s.nextId (firstBatch s.audience)
  audience : result.1.audience = s.audience
  some : s.audience.topics ≠ [] →
    result.1.state = .subscribing ∧ result.2.entered = [.subscribing]
  none : s.audience.topics = [] →
    result.1.state = .subscribed ∧ result.2.entered = [.subscribed]

theorem Sound.finishFetching_resubscribes (h : s.Sound) (hf : s.state = .fetching)
    (ho : s.outputTypes.isSome) (hp : s.parameterTypes.isSome) :
    s.Resubscribes s.finishFetching := by
  have hawaited := h.awaited_eq_nil hf (Option.isSome_iff_ne_none.mp ho)
    (Option.isSome_iff_ne_none.mp hp)
  have hb : s.isBlocked = false := by simp [isBlocked, hawaited]
  have hfinish : s.finishFetching = { s with queue := firstBatch s.audience }.advance := by
    rw [finishFetching, if_pos ⟨hf, by simp [hb], ho, hp⟩]
    rfl
  have hr : Ready { s with queue := firstBatch s.audience } :=
    ⟨by simp [hf], fun _ => ⟨ho, hp⟩, hb⟩
  rw [hfinish]
  by_cases ht : s.audience.topics = []
  · have hq : firstBatch s.audience = [] := firstBatch_eq_nil_iff.mpr ht
    rw [advance_of_empty hr hq]
    exact ⟨by simp [hq, batch, numbered], rfl, absurd ht, fun _ => ⟨rfl, by simp [entering, hf]⟩⟩
  · have hq : firstBatch s.audience ≠ [] := mt firstBatch_eq_nil_iff.mp ht
    rw [advance_of_queue hr hq]
    exact ⟨by simp [batch], rfl, fun _ => ⟨rfl, by simp [entering, hf]⟩, fun hn => absurd hn ht⟩

theorem Resubscribes.of_schema {t : Session} {types : Except Fault PathTypes}
    (h : t.Resubscribes t.finishFetching) (hid : t.nextId = s.nextId)
    (ha : t.audience = s.audience) (ht : types.toOption.isSome) :
    s.Resubscribes (andThen (t, schemaEffects types) finishFetching) := by
  cases types with
  | error fault => cases ht
  | ok types =>
    obtain ⟨hrequests, haudience, hsome, hnone⟩ := h
    rw [hid, ha] at hrequests
    rw [ha] at haudience hsome hnone
    exact ⟨hrequests, haudience, hsome, hnone⟩

/-- As long as the schemas are fetched, one of them has not been got. -/
theorem Follows.not_served (h : Follows s words) (hi : s.Invariant) (hf : s.state = .fetching)
    (ho : (Ledger.of words).Served .outputSchema "output_hierarchy") :
    ¬ (Ledger.of words).Served .parameterSchema "parameter_hierarchy" := by
  intro hp
  have hot := h.output.isSome ho
  have hpt := h.parameter.isSome hp
  rcases hi.incomplete hf with hn | hn
  · simp [hn] at hot
  · simp [hn] at hpt

theorem Follows.replied_resubscribes (h : Follows s words) (hi : s.Invariant)
    (hf : s.state = .fetching) {reply : Reply} {result : Session × Effects}
    (hr : s.Replied reply result)
    (ho : (Ledger.of (words ++ [.heard reply])).Served .outputSchema "output_hierarchy")
    (hp : (Ledger.of (words ++ [.heard reply])).Served .parameterSchema "parameter_hierarchy") :
    s.Resubscribes result := by
  cases hr with
  | unmatched hn => exact absurd hp ((h.heard_unmatched hn).not_served hi hf ho)
  | output ha =>
    have htracks := h.heard_output hi ha
    have htypes := htracks.output.isSome ho
    exact ((hi.erase_output ha _).finishFetching_resubscribes hf htypes
      (htracks.parameter.isSome hp)).of_schema rfl rfl htypes
  | parameter ha =>
    have htracks := h.heard_parameter hi ha
    have htypes := htracks.parameter.isSome hp
    exact ((hi.erase_parameter ha _).finishFetching_resubscribes hf
      (htracks.output.isSome ho) htypes).of_schema rfl rfl htypes
  | other ha hno hnp => exact absurd hf (State.ne_of_isLive (hi.live_of_other ha hno hnp)).2

/-- The text with which both schemas have been got leads to the first batch. -/
theorem Follows.onText_resubscribes (h : Follows s words) (hi : s.Invariant)
    (hf : s.state = .fetching) {text : String}
    (ho : (Ledger.of (words ++ heardIn text)).Served .outputSchema "output_hierarchy")
    (hp : (Ledger.of (words ++ heardIn text)).Served .parameterSchema "parameter_hierarchy") :
    s.Resubscribes (s.onText text) := by
  rcases onText_cases s text with
    ⟨fault, hread, ht⟩ | ⟨reply, hread, ht⟩ | ⟨push, images, calls, hread, ht⟩
  · rw [heardIn, hread, List.append_nil] at ho hp
    exact absurd hp (h.not_served hi hf ho)
  · rw [heardIn, hread] at ho hp
    rw [ht]
    exact h.replied_resubscribes hi hf (onReply_replied s reply) ho hp
  · rw [heardIn, hread, List.append_nil] at ho hp
    exact absurd hp (h.not_served hi hf ho)

end Session

namespace Link

variable {l : Link} {policy : Retry} {turns : List Turn} {socket : Nat} {text : String}

theorem sent_text (ha : l.accepts socket = true) :
    sent (l.step (.text socket text)).2 =
      (l.session.onText text).2.requests.map (socket, ·) := by
  obtain ⟨hk, hc⟩ := accepts_iff.mp ha
  rw [sent_step, reaction_text ha]
  exact onWire_connected hk hc _

/-- When a text on the current socket brings the schemas to completion, the link sends one demand to
subscribe for each topic that has members, and nothing else; it then waits for the answers, or is
done at once if no topic has members. -/
theorem resubscribes_exactly (h : Run policy turns l) (hf : l.session.state = .fetching)
    (hk : l.dialer.socket = some socket)
    (ho : (Ledger.of (transcript socket turns ++ heardOn socket (.text socket text))).Served
      .outputSchema "output_hierarchy")
    (hp : (Ledger.of (transcript socket turns ++ heardOn socket (.text socket text))).Served
      .parameterSchema "parameter_hierarchy") :
    (∀ p ∈ sent (l.step (.text socket text)).2, p.1 = socket ∧
        ∃ topic, p.2.query = .demand ⟨true, topic⟩ ∧ l.session.audience.ids topic ≠ []) ∧
      (∀ topic, l.session.audience.ids topic ≠ [] →
        ((sent (l.step (.text socket text)).2).map (·.2.query)).count (.demand ⟨true, topic⟩) =
          1) ∧
      (l.step (.text socket text)).1.session.audience = l.session.audience ∧
      ((∃ topic, l.session.audience.ids topic ≠ []) →
        (l.step (.text socket text)).1.session.state = .subscribing ∧
          (l.reaction (.text socket text)).2.entered = [.subscribing]) ∧
      ((∀ topic, l.session.audience.ids topic = []) →
        (l.step (.text socket text)).1.session.state = .subscribed ∧
          (l.reaction (.text socket text)).2.entered = [.subscribed]) := by
  have hi := run_invariant h
  have honline : l.session.state ≠ .offline := by simp [hf]
  have hc := hi.online_iff.mp honline
  have ha := accepts_iff.mpr ⟨hk, hc⟩
  have hfollows := (run_history h).follows socket hk hc
  rw [heardOn, if_pos rfl] at ho hp
  obtain ⟨hrequests, haudience, hsome, hnone⟩ :=
    hfollows.onText_resubscribes hi.session hf ho hp
  have hheld : ∀ topic, l.session.audience.ids topic ≠ [] ↔ topic ∈ l.session.audience.topics := by
    intro topic
    rw [Audience.ids_ne_nil_iff hi.session.audience, Audience.mem_topics_iff]
  rw [sent_text ha, step_session, reaction_text ha, hrequests]
  refine ⟨?_, ?_, haudience, ?_, ?_⟩
  · intro p hm
    obtain ⟨request, hr, rfl⟩ := List.mem_map.mp hm
    obtain ⟨⟨subscribe, topic⟩, hd, hq⟩ := Session.mem_batch hr
    obtain ⟨rfl, hc⟩ := Session.mem_firstBatch.mp hd
    exact ⟨rfl, topic, hq, (Audience.ids_ne_nil_iff hi.session.audience topic).mpr hc⟩
  · intro topic ht
    have hc := (Audience.ids_ne_nil_iff hi.session.audience topic).mp ht
    have hqueries : ((Session.batch l.session.nextId
        (Session.firstBatch l.session.audience)).map (socket, ·)).map (·.2.query) =
          (Session.firstBatch l.session.audience).map .demand := by
      rw [List.map_map]
      exact Session.batch_queries ..
    rw [hqueries]
    refine List.count_eq_one_of_mem ?_ (List.mem_map_of_mem (Session.mem_firstBatch.mpr ⟨rfl, hc⟩))
    have hnodup := (Session.firstBatch_topics_nodup hi.session.audience).of_map
    exact hnodup.map fun _ _ => Query.demand.inj
  · rintro ⟨topic, ht⟩
    exact hsome (List.ne_nil_of_mem ((hheld topic).mp ht))
  · intro hn
    refine hnone (List.eq_nil_iff_forall_not_mem.mpr fun topic ht => ?_)
    exact (hheld topic).mpr ht (hn topic)

/-- A connection is lost while its schemas are fetched. Before it and after it topics gain and lose
members, and on the next connection the first of the two schemas is in. -/
def resuming : List Event :=
  [.subscribe (.image "c"), .subscribe (.parameter "p"), .want true, .url "ws://a", .opened 1,
    .subscribe (.parameter "p"), .unsubscribe (.image "c") 1, .closed 1,
    .subscribe (.output ⟨"c", .main, "p"⟩), .elapsed, .opened 2,
    .text 2 "\x7b\"id\":3,\"ok\":true,\"parameter_hierarchy\":\x7b\x7d\x7d"]

def resumed : String := "\x7b\"id\":2,\"ok\":true,\"output_hierarchy\":\x7b\x7d\x7d"

theorem resubscribes_exactly_resuming :
    (play .standard resuming).2.session.state = .fetching ∧
      (∀ p ∈ sent ((play .standard resuming).2.step (.text 2 resumed)).2,
        p.1 = 2 ∧ p.2.query ≠ .demand ⟨true, .image "c"⟩) ∧
      ((sent ((play .standard resuming).2.step (.text 2 resumed)).2).map (·.2.query)).count
        (.demand ⟨true, .parameter "p"⟩) = 1 ∧
      ((play .standard resuming).2.step (.text 2 resumed)).1.session.state = .subscribing := by
  have hf : (play .standard resuming).2.session.state = .fetching := by decide +kernel
  have hp : (play .standard resuming).2.session.audience.ids (.parameter "p") ≠ [] := by
    decide +kernel
  have hc : (play .standard resuming).2.session.audience.ids (.image "c") = [] := by
    decide +kernel
  have hserved : (Ledger.of (transcript 2 (play .standard resuming).1 ++
      heardOn 2 (.text 2 resumed))).Served .outputSchema "output_hierarchy" := by decide +kernel
  obtain ⟨honly, hcount, _, hsome, _⟩ :=
    resubscribes_exactly (run_play .standard resuming) hf (by decide +kernel) hserved
      (by decide +kernel)
  refine ⟨hf, fun p hm => ?_, hcount _ hp, (hsome ⟨_, hp⟩).1⟩
  obtain ⟨hk, topic, hq, ht⟩ := honly p hm
  refine ⟨hk, fun he => ht ?_⟩
  obtain rfl : topic = .image "c" := (Demand.mk.inj (Query.demand.inj (hq.symm.trans he))).2
  exact hc

end Link
end Downlink
