import Downlink.Proofs.AnyOrder
import Downlink.Proofs.FailedFetch

/-!
Left alone, a session comes to an end. Replies to all that is open make it ask for the next batch at
most, and replies to that batch leave nothing open and nothing queued.
-/
namespace Downlink.Session

variable {s : Session} {reply : Reply} {awaited : Awaited} {query : Query} {field : String}
  {inputs : List Input} {texts : List String}

/-! Where a session lacks a schema for good, a reply has failed to bring it. -/

def typesOf (s : Session) : Awaited → Option PathTypes
  | .outputSchema => s.outputTypes
  | .parameterSchema => s.parameterTypes
  | _ => none

theorem absorb_typesOf (hs : awaited.schema? = some (query, field)) :
    (s.absorb reply).typesOf awaited =
      if (reply.id, awaited) ∈ s.awaited then (schemaOf reply query field).toOption
      else s.typesOf awaited := by
  cases awaited with
  | outputSchema | parameterSchema =>
    cases hs
    rfl
  | demand | update => cases hs

def Lacks (s : Session) (awaited : Awaited) : Prop :=
  s.typesOf awaited = none ∧ ∀ a ∈ s.awaited, a.2 ≠ awaited

theorem barred_iff :
    s.Barred ↔ s.state = .fetching ∧
      ∃ awaited query field, awaited.schema? = some (query, field) ∧ s.Lacks awaited := by
  constructor
  · intro h
    refine ⟨h.fetching, ?_⟩
    rcases h.missing with hm | hm
    · exact ⟨.outputSchema, _, _, rfl, hm⟩
    · exact ⟨.parameterSchema, _, _, rfl, hm⟩
  · rintro ⟨hf, awaited, query, field, hs, hl⟩
    refine ⟨hf, ?_⟩
    cases awaited with
    | outputSchema => exact Or.inl hl
    | parameterSchema => exact Or.inr hl
    | demand | update => cases hs

theorem advance_live (h : s.Ready) : s.advance.1.state.isLive := by
  by_cases hq : s.queue = []
  · rw [advance_of_empty h hq]
    rfl
  · rw [advance_of_queue h hq]
    rfl

theorem advance_stays_live (h : s.state.isLive) : s.advance.1.state.isLive := by
  by_cases hr : s.Ready
  · exact advance_live hr
  · rwa [advance_of_not_ready hr]

theorem barred_of_settle (h : s.settle.1.Barred) : s.Barred := by
  by_cases hr : s.Ready
  · obtain ⟨queue, hready, hsettle, _⟩ := settle_of_ready hr
    rw [hsettle] at h
    exact absurd (advance_live hready) h.not_live
  · rwa [settle_of_not_ready hr] at h

/-- The input is a reply that fails to bring a schema that was asked for. -/
def Misses (s : Session) (input : Input) : Prop :=
  ∃ text reply awaited query field fault, input = .text text ∧
    Message.read text = .ok (.reply reply) ∧ (reply.id, awaited) ∈ s.awaited ∧
    awaited.schema? = some (query, field) ∧ Fails reply query field fault

/-- A reply has failed to bring a schema, and the connection that it came over is not lost. -/
inductive Missed : List Input → Prop where
  | now {inputs input} (h : (start.feed inputs).1.Misses input) : Missed (inputs ++ [input])
  | still {inputs input} (h : Missed inputs)
      (ho : (start.feed (inputs ++ [input])).1.state ≠ .offline) : Missed (inputs ++ [input])

theorem Invariant.barred_of_reply (h : s.Invariant) (hb : (s.onReply reply).1.Barred) :
    s.Barred ∨ ∃ awaited query field fault, (reply.id, awaited) ∈ s.awaited ∧
      awaited.schema? = some (query, field) ∧ Fails reply query field fault := by
  rw [(h.onReply_alike reply).session] at hb
  obtain ⟨hf, awaited, query, field, hs, hn, ha⟩ := barred_iff.mp (barred_of_settle hb)
  rw [absorb_typesOf hs] at hn
  by_cases hm : (reply.id, awaited) ∈ s.awaited
  · rw [if_pos hm] at hn
    cases hschema : schemaOf reply query field with
    | ok types => simp [hschema, Except.toOption] at hn
    | error fault =>
      exact Or.inr ⟨awaited, query, field, fault, hm, hs, schemaOf_eq_error_iff.mp hschema⟩
  · rw [if_neg hm] at hn
    refine Or.inl (barred_iff.mpr ⟨hf, awaited, query, field, hs, hn, ?_⟩)
    rintro ⟨id, _⟩ hopen rfl
    have hne : id ≠ reply.id := by
      rintro rfl
      exact hm hopen
    exact ha (id, _) (List.mem_filter.mpr ⟨hopen, by simpa using hne⟩) rfl

theorem Invariant.barred_before (h : s.Invariant) {input : Input}
    (hb : (s.respond input).1.Barred) : s.Barred ∨ s.Misses input := by
  cases input with
  | socket status =>
    simp only [respond] at hb
    rcases s.onSocket_cases status with ⟨rfl, ho⟩ | ⟨hsame, _⟩ | ⟨hs, ho⟩
    · rw [onSocket_connected ho] at hb
      rcases hb.missing with ⟨_, ha⟩ | ⟨_, ha⟩
      · exact absurd rfl (ha (s.nextId, .outputSchema) (by simp))
      · exact absurd rfl (ha (s.nextId + 1, .parameterSchema) (by simp))
    · rw [hsame] at hb
      exact Or.inl hb
    · rw [onSocket_lost hs ho] at hb
      cases hb.fetching
  | demand change =>
    by_cases hl : s.state.isLive
    · rw [respond, demand, if_pos hl, plan_eq] at hb
      exact (hb.not_live (advance_stays_live hl)).elim
    · simp only [respond, demand, hl] at hb
      exact Or.inl hb
  | update tag path value =>
    by_cases hl : s.state.isLive
    · simp only [respond, update, hl, if_true] at hb
      exact absurd hl hb.not_live
    · simp only [respond, update, hl] at hb
      exact Or.inl hb
  | text text =>
    simp only [respond] at hb
    rcases onText_cases s text with
      ⟨fault, _, ht⟩ | ⟨reply, hread, ht⟩ | ⟨push, images, calls, _, ht⟩ <;> rw [ht] at hb
    · exact Or.inl hb
    · rcases h.barred_of_reply hb with hb | ⟨awaited, query, field, fault, hm, hs, hf⟩
      · exact Or.inl hb
      · exact Or.inr ⟨text, reply, awaited, query, field, fault, rfl, hread, hm, hs, hf⟩
    · exact Or.inl ⟨hb.fetching, hb.missing⟩
  | frame bytes =>
    obtain ⟨images, calls, hf⟩ := onFrame_quiet s bytes
    simp only [respond, hf] at hb
    exact Or.inl ⟨hb.fetching, hb.missing⟩
  | join | leave => exact Or.inl ⟨hb.fetching, hb.missing⟩

theorem missed_of_barred (h : (start.feed inputs).1.Barred) : Missed inputs := by
  induction inputs using List.reverseRecOn with
  | nil => cases h.fetching
  | append_singleton inputs input ih =>
    have hi := feed_preserves_invariant start_invariant inputs
    have hstep : ((start.feed inputs).1.respond input).1.Barred := by
      rwa [feed_append_fst, feed_singleton] at h
    rcases hi.barred_before hstep with hb | hm
    · exact .still (ih hb) (by simp [h.fetching])
    · exact .now hm

/-! One round of replies. -/

def Brings (reply : Reply) (field : String) : Prop :=
  reply.ok = true ∧ ∃ value, Table.get? field reply.payload = some value ∧ Describes value

theorem Brings.isSome (h : Brings reply field) (query : Query) :
    (schemaOf reply query field).toOption.isSome := by
  cases hschema : schemaOf reply query field with
  | ok types => rfl
  | error fault =>
    obtain ⟨hok, value, hfield, hvalue⟩ := h
    cases schemaOf_eq_error_iff.mp hschema with
    | refused hn => simp [hok] at hn
    | missing _ hn => simp [hfield] at hn
    | malformed _ hf hn =>
      rw [hfield] at hf
      exact absurd (Option.some.inj hf ▸ hvalue) hn

structure Covers (texts : List String) (ids : List Nat) : Prop where
  reads : ∀ text ∈ texts, (replyIn text).isSome
  perm : ((replies texts).map (·.id)).Perm ids

theorem Covers.answers (h : Covers texts (s.awaited.map (·.1))) (hi : s.Invariant) :
    s.Answers texts where
  reads := h.reads
  distinct := h.perm.nodup_iff.mpr hi.ids
  pending := fun _ hr => h.perm.mem_iff.mp (List.mem_map_of_mem hr)

theorem foldl_absorb_state (s : Session) (replies : List Reply) :
    (replies.foldl absorb s).state = s.state ∧ (replies.foldl absorb s).queue = s.queue := by
  induction replies generalizing s with
  | nil => exact ⟨rfl, rfl⟩
  | cons reply replies ih => exact ih (s.absorb reply)

theorem mem_foldl_absorb_iff {replies : List Reply} {a : Nat × Awaited} :
    a ∈ (replies.foldl absorb s).awaited ↔ a ∈ s.awaited ∧ a.1 ∉ replies.map (·.id) := by
  induction replies generalizing s with
  | nil => simp
  | cons reply replies ih =>
    rw [List.foldl_cons, ih]
    simp [absorb, Table.erase, and_assoc]

/-- A schema that is in stays, and one that is asked for comes with its reply. -/
theorem Sound.foldl_absorb_typesOf (h : s.Sound) (hs : awaited.schema? = some (query, field))
    {replies : List Reply}
    (hb : ∀ reply ∈ replies, (reply.id, awaited) ∈ s.awaited → Brings reply field)
    (hin : (s.typesOf awaited).isSome ∨
      ∃ id, (id, awaited) ∈ s.awaited ∧ id ∈ replies.map (·.id)) :
    ((replies.foldl Session.absorb s).typesOf awaited).isSome := by
  induction replies generalizing s with
  | nil => simpa using hin
  | cons reply replies ih =>
    have hstep : (s.absorb reply).typesOf awaited = _ := s.absorb_typesOf hs
    refine ih (h.absorb reply) ?_ ?_
    · intro other ho hm
      exact hb other (List.mem_cons_of_mem _ ho) (List.mem_of_mem_filter hm)
    · by_cases hm : (reply.id, awaited) ∈ s.awaited
      · rw [if_pos hm] at hstep
        rw [hstep]
        exact Or.inl ((hb reply List.mem_cons_self hm).isSome query)
      · rw [if_neg hm] at hstep
        rw [hstep]
        refine hin.imp_right ?_
        rintro ⟨id, hopen, hid⟩
        have hne : id ≠ reply.id := by
          rintro rfl
          exact hm hopen
        refine ⟨id, List.mem_filter.mpr ⟨hopen, by simpa using hne⟩, ?_⟩
        exact (List.mem_cons.mp hid).resolve_left hne

/-- After the replies only the new batch is open, nothing is queued, and a live session that had
nothing queued is done. -/
structure Round (s : Session) (result : Session × Effects) : Prop where
  live : result.1.state.isLive
  queue : result.1.queue = []
  ids : result.1.awaited.map (·.1) = result.2.requests.map (·.id)
  done : s.state.isLive → s.queue = [] →
    result.1.state = .subscribed ∧ result.2.requests = []

theorem advance_round (h : s.Ready) (ha : s.awaited = []) :
    s.advance.1.queue = [] ∧ s.advance.1.awaited.map (·.1) = s.advance.2.requests.map (·.id) ∧
      (s.queue = [] → s.advance.1.state = .subscribed ∧ s.advance.2.requests = []) := by
  by_cases hq : s.queue = []
  · rw [advance_of_empty h hq]
    simp [hq, ha]
  · rw [advance_of_queue h hq]
    simp [hq, ha, Function.comp_def]

theorem Invariant.feed_round (h : s.Invariant) (ho : s.state ≠ .offline) (hb : ¬ s.Barred)
    (hc : Covers texts (s.awaited.map (·.1)))
    (hv : ∀ reply ∈ replies texts, ∀ awaited query field, (reply.id, awaited) ∈ s.awaited →
      awaited.schema? = some (query, field) → Brings reply field) :
    s.Round (s.feed (texts.map .text)) := by
  have halike := (hc.answers h).feed_alike h
  obtain ⟨hstate, hqueue⟩ := foldl_absorb_state s (replies texts)
  have hawaited : ((replies texts).foldl absorb s).awaited = [] := by
    apply List.eq_nil_iff_forall_not_mem.mpr
    intro a ha
    obtain ⟨hm, hn⟩ := mem_foldl_absorb_iff.mp ha
    exact hn (hc.perm.mem_iff.mpr (List.mem_map_of_mem hm))
  have htypes : s.state = .fetching → ∀ awaited query field,
      awaited.schema? = some (query, field) →
      (((replies texts).foldl absorb s).typesOf awaited).isSome := by
    intro hf awaited query field hs
    refine h.foldl_absorb_typesOf hs (fun reply hr hm => hv reply hr _ _ _ hm hs) ?_
    by_contra hn
    obtain ⟨hnone, hopen⟩ := not_or.mp hn
    refine hb (barred_iff.mpr ⟨hf, awaited, query, field, hs, by simpa using hnone, ?_⟩)
    rintro a ha rfl
    exact hopen ⟨a.1, ha, hc.perm.mem_iff.mpr (List.mem_map_of_mem ha)⟩
  have hready : ((replies texts).foldl absorb s).Ready := by
    refine ⟨by rwa [hstate], ?_, by simp [isBlocked, hawaited]⟩
    intro hf
    rw [hstate] at hf
    exact ⟨htypes hf .outputSchema _ _ rfl, htypes hf .parameterSchema _ _ rfl⟩
  obtain ⟨queue, hready', hsettle, hsame⟩ := settle_of_ready hready
  obtain ⟨hempty, hids, hdone⟩ := advance_round hready' hawaited
  rw [hsettle] at halike
  constructor
  · rw [halike.session]
    exact advance_live hready'
  · rw [halike.session, hempty]
  · rw [halike.session, halike.requests, hids]
  · intro hl hq
    rw [halike.session, halike.requests]
    apply hdone
    change queue = []
    rw [hsame (by rw [hstate]; exact (State.ne_of_isLive hl).2), hqueue, hq]

/-- An online session, unless it lacks a schema that could not be had, is done after two rounds: one
reply to each open request, with a schema where one was asked for, and one reply to each request
made meanwhile. Then all is subscribed, nothing is open, nothing is queued, and nothing more is
asked. -/
theorem reconciliation_converges (inputs : List Input) {first second : List String}
    (ho : (start.feed inputs).1.state ≠ .offline)
    (hm : (start.feed inputs).1.state = .fetching → ¬ Missed inputs)
    (h₁ : Covers first ((start.feed inputs).1.awaited.map (·.1)))
    (hv : ∀ reply ∈ replies first, ∀ awaited query field,
      (reply.id, awaited) ∈ (start.feed inputs).1.awaited →
        awaited.schema? = some (query, field) → Brings reply field)
    (h₂ : Covers second (((start.feed inputs).1.feed (first.map .text)).2.requests.map (·.id))) :
    (((start.feed inputs).1.feed (first.map .text)).1.feed (second.map .text)).1.state =
        .subscribed ∧
      (((start.feed inputs).1.feed (first.map .text)).1.feed (second.map .text)).1.awaited = [] ∧
      (((start.feed inputs).1.feed (first.map .text)).1.feed (second.map .text)).1.queue = [] ∧
      (((start.feed inputs).1.feed (first.map .text)).1.feed (second.map .text)).2.requests =
        [] := by
  have hi := feed_preserves_invariant start_invariant inputs
  have hb : ¬ (start.feed inputs).1.Barred := by
    intro hb
    exact hm hb.fetching (missed_of_barred hb)
  obtain ⟨hlive, hqueue, hids, _⟩ := hi.feed_round ho hb h₁ hv
  have hi' := feed_preserves_invariant hi (first.map .text)
  rw [← hids] at h₂
  have hnone := hi'.no_schema hlive
  have hv' : ∀ reply ∈ replies second, ∀ awaited query field,
      (reply.id, awaited) ∈ ((start.feed inputs).1.feed (first.map .text)).1.awaited →
        awaited.schema? = some (query, field) → Brings reply field := by
    intro reply _ awaited query field hopen hs
    obtain ⟨hno, hnp⟩ := hnone _ hopen
    cases awaited with
    | outputSchema => exact absurd rfl hno
    | parameterSchema => exact absurd rfl hnp
    | demand | update => cases hs
  obtain ⟨_, hempty, hids', hdone⟩ :=
    hi'.feed_round (State.ne_of_isLive hlive).1 (fun hb => hb.not_live hlive) h₂ hv'
  obtain ⟨hstate, hrequests⟩ := hdone hlive hqueue
  rw [hrequests] at hids'
  exact ⟨hstate, List.map_eq_nil_iff.mp hids', hempty, hrequests⟩

theorem missed_append_singleton {input : Input} :
    Missed (inputs ++ [input]) ↔
      (start.feed inputs).1.Misses input ∨
        Missed inputs ∧ (start.feed (inputs ++ [input])).1.state ≠ .offline := by
  constructor
  · intro h
    generalize hall : inputs ++ [input] = all at h
    cases h with
    | now h =>
      obtain ⟨rfl, hinput⟩ := List.append_inj' hall rfl
      cases hinput
      exact Or.inl h
    | still h ho =>
      obtain ⟨rfl, hinput⟩ := List.append_inj' hall rfl
      cases hinput
      exact Or.inr ⟨h, ho⟩
  · rintro (h | ⟨h, ho⟩)
    · exact .now h
    · exact .still h ho

theorem Missed.online (h : Missed inputs) : (start.feed inputs).1.state ≠ .offline := by
  cases h with
  | still _ ho => exact ho
  | @now inputs input h =>
    obtain ⟨text, reply, awaited, query, field, fault, rfl, _, hm, hs, _⟩ := h
    have hi := feed_preserves_invariant start_invariant inputs
    rw [feed_append_fst, feed_singleton, respond, ne_eq, onText_offline_iff]
    intro ho
    rw [(hi.offline ho).1] at hm
    cases hm

def opening : List Input :=
  [.join (.image "c") 1, .socket .connected,
    .text "\x7b\"id\":0,\"ok\":false\x7d", .socket .disconnected, .socket .connected]

def schemasIn : List String :=
  ["\x7b\"id\":3,\"ok\":true,\"parameter_hierarchy\":\x7b\x7d\x7d",
    "\x7b\"id\":2,\"ok\":true,\"output_hierarchy\":\x7b\x7d\x7d"]

def batchIn : List String := ["\x7b\"id\":4,\"ok\":false\x7d"]

theorem reconciliation_converges_opening :
    (start.feed opening).1.awaited = [(2, .outputSchema), (3, .parameterSchema)] ∧
      ((start.feed opening).1.feed (schemasIn.map .text)).1.state = .subscribing ∧
      (((start.feed opening).1.feed (schemasIn.map .text)).1.feed (batchIn.map .text)).1.state =
        .subscribed := by
  have hawaited : (start.feed opening).1.awaited =
      [(2, .outputSchema), (3, .parameterSchema)] := by decide +kernel
  have hreplies : replies schemasIn =
      [⟨3, true, none, [("parameter_hierarchy", .obj [])]⟩,
        ⟨2, true, none, [("output_hierarchy", .obj [])]⟩] := by decide +kernel
  have hmissed : ¬ Missed opening := by
    have hlast : opening = opening.dropLast ++ [.socket .connected] := rfl
    rw [hlast, missed_append_singleton]
    rintro (⟨_, _, _, _, _, _, hinput, _⟩ | ⟨hm, _⟩)
    · cases hinput
    · exact hm.online (by decide +kernel)
  have hvalid : ∀ reply ∈ replies schemasIn, ∀ awaited query field,
      (reply.id, awaited) ∈ (start.feed opening).1.awaited →
        awaited.schema? = some (query, field) → Brings reply field := by
    rw [hreplies, hawaited]
    intro reply hr awaited query field hm hs
    have hempty : Describes (.obj []) := ⟨[], [], rfl, rfl⟩
    simp only [List.mem_cons, List.not_mem_nil, or_false] at hr
    rcases hr with rfl | rfl
    · obtain rfl : awaited = .parameterSchema := by simpa using hm
      cases hs
      exact ⟨rfl, _, rfl, hempty⟩
    · obtain rfl : awaited = .outputSchema := by simpa using hm
      cases hs
      exact ⟨rfl, _, rfl, hempty⟩
  have hsecond : Covers batchIn
      (((start.feed opening).1.feed (schemasIn.map .text)).2.requests.map (·.id)) :=
    ⟨by decide +kernel, by decide +kernel⟩
  obtain ⟨hstate, _⟩ := reconciliation_converges opening (by decide +kernel) (fun _ => hmissed)
    ⟨by decide +kernel, by decide +kernel⟩ hvalid hsecond
  exact ⟨hawaited, by decide +kernel, hstate⟩

end Downlink.Session
