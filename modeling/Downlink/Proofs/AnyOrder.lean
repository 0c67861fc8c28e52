import Downlink.Proofs.Updates

/-!
The order of replies does not matter. A reply only takes its request off the table and, for a
schema, fills in the types; when the session then goes on is decided by what is left on the table.
-/
namespace Downlink.Session

variable {s : Session} {reply other : Reply} {id : Nat} {a : Awaited} {text : String}
  {texts : List String}

/-- The results are the same but for the callbacks and faults, which come in the order of the
replies. -/
structure Alike (x y : Session × Effects) : Prop where
  session : x.1 = y.1
  requests : x.2.requests = y.2.requests
  entered : x.2.entered = y.2.entered

theorem Alike.trans {x y z : Session × Effects} (h : Alike x y) (h' : Alike y z) : Alike x z :=
  ⟨h.session.trans h'.session, h.requests.trans h'.requests, h.entered.trans h'.entered⟩

theorem Alike.symm {x y : Session × Effects} (h : Alike x y) : Alike y x :=
  ⟨h.session.symm, h.requests.symm, h.entered.symm⟩

theorem Alike.andThen {x y : Session × Effects} {f g : Session → Session × Effects}
    (h : Alike x y) (h' : Alike (f y.1) (g y.1)) : Alike (andThen x f) (andThen y g) where
  session := by
    rw [andThen_fst, andThen_fst, h.session]
    exact h'.session
  requests := by
    simp only [andThen_snd, Effects.requests_append, h.session, h.requests, h'.requests]
  entered := by
    simp only [andThen_snd, Effects.entered_append, h.session, h.entered, h'.entered]

/-- What a reply does by itself, before the session looks for its next batch. -/
def absorb (s : Session) (reply : Reply) : Session :=
  { s with
    awaited := Table.erase reply.id s.awaited
    outputTypes :=
      if (reply.id, .outputSchema) ∈ s.awaited then
        (schemaOf reply .outputSchema "output_hierarchy").toOption
      else s.outputTypes
    parameterTypes :=
      if (reply.id, .parameterSchema) ∈ s.awaited then
        (schemaOf reply .parameterSchema "parameter_hierarchy").toOption
      else s.parameterTypes }

def settle (s : Session) : Session × Effects :=
  if s.state = .fetching then s.finishFetching else s.advance

theorem Sound.absorb_output (h : s.Sound) (hm : (reply.id, .outputSchema) ∈ s.awaited) :
    s.absorb reply =
      { s with
        awaited := Table.erase reply.id s.awaited
        outputTypes := (schemaOf reply .outputSchema "output_hierarchy").toOption } := by
  have hp : (reply.id, .parameterSchema) ∉ s.awaited := by
    intro hp
    cases h.awaited_eq hm hp
  rw [Session.absorb, if_pos hm, if_neg hp]

theorem Sound.absorb_parameter (h : s.Sound) (hm : (reply.id, .parameterSchema) ∈ s.awaited) :
    s.absorb reply =
      { s with
        awaited := Table.erase reply.id s.awaited
        parameterTypes := (schemaOf reply .parameterSchema "parameter_hierarchy").toOption } := by
  have ho : (reply.id, .outputSchema) ∉ s.awaited := by
    intro ho
    cases h.awaited_eq hm ho
  rw [Session.absorb, if_neg ho, if_pos hm]

theorem absorb_other (ho : (reply.id, .outputSchema) ∉ s.awaited)
    (hp : (reply.id, .parameterSchema) ∉ s.awaited) :
    s.absorb reply = { s with awaited := Table.erase reply.id s.awaited } := by
  rw [absorb, if_neg ho, if_neg hp]

theorem Sound.absorb (h : s.Sound) (reply : Reply) : (s.absorb reply).Sound := by
  by_cases ho : (reply.id, .outputSchema) ∈ s.awaited
  · rw [h.absorb_output ho]
    exact h.erase_output ho _
  · by_cases hp : (reply.id, .parameterSchema) ∈ s.awaited
    · rw [h.absorb_parameter hp]
      exact h.erase_parameter hp _
    · rw [absorb_other ho hp]
      exact h.erase reply.id

theorem Sound.absorb_of_live (h : s.Sound) (hl : s.state.isLive) (reply : Reply) :
    s.absorb reply = { s with awaited := Table.erase reply.id s.awaited } := by
  have hn := h.no_schema hl
  exact absorb_other (fun hm => (hn _ hm).1 rfl) (fun hm => (hn _ hm).2 rfl)

theorem Sound.absorb_comm (h : s.Sound) (hne : reply.id ≠ other.id) :
    (s.absorb reply).absorb other = (s.absorb other).absorb reply := by
  have hleft : ∀ a, (other.id, a) ∈ Table.erase reply.id s.awaited ↔ (other.id, a) ∈ s.awaited := by
    simp [Table.erase, Ne.symm hne]
  have hright : ∀ a,
      (reply.id, a) ∈ Table.erase other.id s.awaited ↔ (reply.id, a) ∈ s.awaited := by
    simp [Table.erase, hne]
  have honce : ∀ a, a = .outputSchema ∨ a = .parameterSchema → (reply.id, a) ∈ s.awaited →
      (other.id, a) ∉ s.awaited := by
    intro a ha hr ho
    exact hne (h.id_eq (h.fetching_of_schema hr ha) hr ho)
  have herase : Table.erase other.id (Table.erase reply.id s.awaited) =
      Table.erase reply.id (Table.erase other.id s.awaited) := List.filter_comm ..
  simp only [Session.absorb, hleft, hright, herase]
  congr 1
  · by_cases hr : (reply.id, .outputSchema) ∈ s.awaited
    · simp [hr, honce _ (Or.inl rfl) hr]
    · simp [hr]
  · by_cases hr : (reply.id, .parameterSchema) ∈ s.awaited
    · simp [hr, honce _ (Or.inr rfl) hr]
    · simp [hr]

theorem settle_of_fetching (h : s.state = .fetching) : s.settle = s.finishFetching := if_pos h

theorem settle_of_live (h : s.state.isLive) : s.settle = s.advance :=
  if_neg (State.ne_of_isLive h).2

theorem settle_of_not_ready (h : ¬ s.Ready) : s.settle = (s, .none) := by
  unfold settle
  split
  next hf =>
    apply if_neg
    rintro ⟨_, hb, ho, hp⟩
    exact h ⟨by simp [hf], fun _ => ⟨ho, hp⟩, by simpa using hb⟩
  next => exact advance_of_not_ready h

theorem settle_of_blocked (h : s.isBlocked = true) : s.settle = (s, .none) :=
  settle_of_not_ready (not_ready_of_blocked h)

theorem settle_of_ready (h : s.Ready) :
    ∃ queue, Ready { s with queue } ∧ s.settle = { s with queue }.advance ∧
      (s.state ≠ .fetching → queue = s.queue) := by
  by_cases hf : s.state = .fetching
  · obtain ⟨ho, hp⟩ := h.2.1 hf
    have hb := h.2.2
    refine ⟨firstBatch s.audience, h, ?_, fun hn => absurd hf hn⟩
    rw [settle_of_fetching hf]
    exact if_pos ⟨hf, by simp [hb], ho, hp⟩
  · exact ⟨s.queue, h, if_neg hf, fun _ => rfl⟩

theorem Invariant.settle_eq (h : s.Invariant) : s.settle = (s, .none) := by
  cases hs : s.state with
  | offline => exact settle_of_not_ready fun hr => hr.1 hs
  | fetching =>
    apply settle_of_not_ready
    rintro ⟨_, hin, _⟩
    obtain ⟨ho, hp⟩ := hin hs
    rcases h.incomplete hs with hn | hn
    · simp [hn] at ho
    · simp [hn] at hp
  | subscribing => exact settle_of_blocked (h.blocked hs)
  | subscribed =>
    have hr : s.Ready := ⟨by simp [hs], by simp [hs], h.subscribed hs⟩
    have hsame : ({ s with state := .subscribed } : Session) = s := by
      rw [← hs]
    rw [settle_of_live (by rw [hs]; rfl), advance_of_empty hr (h.drained hs), hsame, entering,
      if_pos hs]

theorem schemaEffects_entered (types : Except Fault PathTypes) :
    (schemaEffects types).entered = [] := by
  cases types <;> rfl

theorem alike_andThen_of_silent {effects : Effects} {next : Session → Session × Effects}
    (hr : effects.requests = []) (he : effects.entered = []) :
    Alike (Session.andThen (s, effects) next) (next s) where
  session := rfl
  requests := by simp [hr]
  entered := by simp [he]

theorem Invariant.onReply_alike (h : s.Invariant) (reply : Reply) :
    Alike (s.onReply reply) (s.absorb reply).settle := by
  have hr := onReply_replied s reply
  generalize s.onReply reply = result at hr
  cases hr with
  | unmatched hn =>
    have hsame : s.absorb reply = s := by
      rw [absorb_other (hn _) (hn _), Table.erase_of_not_mem hn]
    rw [hsame, h.settle_eq]
    exact ⟨rfl, rfl, rfl⟩
  | output hm =>
    have hf : (s.absorb reply).state = .fetching := h.fetching_of_schema hm (Or.inl rfl)
    rw [settle_of_fetching hf, h.absorb_output hm]
    exact alike_andThen_of_silent (schemaEffects_requests _) (schemaEffects_entered _)
  | parameter hm =>
    have hf : (s.absorb reply).state = .fetching := h.fetching_of_schema hm (Or.inr rfl)
    rw [settle_of_fetching hf, h.absorb_parameter hm]
    exact alike_andThen_of_silent (schemaEffects_requests _) (schemaEffects_entered _)
  | other hm ho hp =>
    have hl : (s.absorb reply).state.isLive := h.live_of_other hm ho hp
    rw [settle_of_live hl, h.absorb_of_live hl]
    exact alike_andThen_of_silent rfl rfl

/-- A session that goes on with a reply still to come has gone live, and the reply is to an update,
which does not hold it up. -/
theorem Sound.settle_cases (h : s.Sound) (hm : (id, a) ∈ s.awaited) :
    s.settle = (s, .none) ∨ s.state.isLive ∧ s.Ready := by
  by_cases hr : s.Ready
  · refine Or.inr ⟨?_, hr⟩
    cases hs : s.state with
    | offline => exact absurd hs hr.1
    | fetching =>
      have hopen := isBlocked_eq_false_iff.mp hr.2.2 _ hm
      rcases (h.fetching hs).2 _ hm with he | he
      · rw [he] at hopen
        cases hopen
      · rw [he] at hopen
        cases hopen
    | subscribing | subscribed => rfl
  · exact Or.inl (settle_of_not_ready hr)

theorem Sound.erase_batch (h : s.Sound) (hm : (reply.id, a) ∈ s.awaited) (demands : List Demand) :
    Table.erase reply.id ((numbered s.nextId demands).map fun p => (p.1, Awaited.demand p.2)) =
      (numbered s.nextId demands).map fun p => (p.1, Awaited.demand p.2) := by
  apply Table.erase_of_not_mem
  intro value hv
  obtain ⟨p, hp, he⟩ := List.mem_map.mp hv
  have hold := h.below _ hm
  have hnew := (numbered_bounds hp).1
  rw [(Prod.mk.inj he).1] at hnew
  exact Nat.not_le_of_lt hold hnew

/-- A batch goes out with a reply to an update still to come as it does after that reply. -/
theorem Sound.advance_absorb (h : s.Sound) (hl : s.state.isLive) (hr : s.Ready)
    (hm : (reply.id, a) ∈ s.awaited) :
    s.advance.1.absorb reply = (s.absorb reply).advance.1 ∧
      s.advance.2 = (s.absorb reply).advance.2 := by
  have hready : (s.absorb reply).Ready := by
    refine ⟨hr.1, fun hf => absurd hf (State.ne_of_isLive hl).2, ?_⟩
    have hopen := isBlocked_eq_false_iff.mp hr.2.2
    exact isBlocked_eq_false_iff.mpr fun a ha => hopen a (List.mem_of_mem_filter ha)
  by_cases hq : s.queue = []
  · rw [advance_of_empty hr hq, advance_of_empty hready hq]
    exact ⟨rfl, rfl⟩
  · have hi := (h.advance_invariant hl).toSound
    rw [advance_of_queue hr hq] at hi
    have hbatch : ∀ demands, Table.erase reply.id (s.awaited ++ demands) =
        Table.erase reply.id s.awaited ++ Table.erase reply.id demands :=
      fun _ => List.filter_append ..
    rw [advance_of_queue hr hq, advance_of_queue hready hq, hi.absorb_of_live rfl]
    refine ⟨?_, rfl⟩
    simp only [h.absorb_of_live hl, hbatch, h.erase_batch hm]

/-- It makes no difference whether the session goes on before a reply is absorbed or after that. -/
theorem Sound.settle_absorb (h : s.Sound) (hm : (reply.id, a) ∈ s.awaited) :
    Alike (Session.andThen s.settle fun t => (t.absorb reply).settle)
      (s.absorb reply).settle := by
  rcases h.settle_cases hm with hnone | ⟨hl, hr⟩
  · rw [hnone]
    exact alike_andThen_of_silent rfl rfl
  obtain ⟨hsession, heffects⟩ := h.advance_absorb hl hr hm
  have hl' : (s.absorb reply).state.isLive := hl
  have hdone := ((h.absorb reply).advance_invariant hl').settle_eq
  rw [settle_of_live hl, settle_of_live hl']
  constructor
  · rw [andThen_fst, hsession, hdone]
  · rw [andThen_snd, hsession, hdone, heffects, Effects.append_none]
  · rw [andThen_snd, hsession, hdone, heffects, Effects.append_none]

theorem Sound.foldl_absorb (h : s.Sound) (replies : List Reply) :
    (replies.foldl Session.absorb s).Sound := by
  induction replies generalizing s with
  | nil => exact h
  | cons reply replies ih => exact ih (h.absorb reply)

theorem Sound.foldl_absorb_perm (h : s.Sound) {replies replies' : List Reply}
    (hp : replies.Perm replies') (hn : (replies.map (·.id)).Nodup) :
    replies.foldl Session.absorb s = replies'.foldl Session.absorb s := by
  induction hp generalizing s with
  | nil => rfl
  | cons reply _ ih => exact ih (h.absorb reply) (List.nodup_cons.mp hn).2
  | swap reply other replies =>
    have hne : other.id ≠ reply.id := by
      intro he
      simp [he] at hn
    simp only [List.foldl_cons, h.absorb_comm hne]
  | trans hleft _ ihl ihr =>
    exact (ihl h hn).trans (ihr h ((hleft.map _).nodup_iff.mp hn))

theorem mem_foldl_absorb {replies : List Reply} (hm : (id, a) ∈ s.awaited)
    (hn : id ∉ replies.map (·.id)) : (id, a) ∈ (replies.foldl Session.absorb s).awaited := by
  induction replies generalizing s with
  | nil => exact hm
  | cons reply replies ih =>
    rw [List.map_cons, List.mem_cons, not_or] at hn
    exact ih (List.mem_filter.mpr ⟨hm, by simpa using hn.1⟩) hn.2

def replyIn (text : String) : Option Reply :=
  match Message.read text with
  | .ok (.reply reply) => some reply
  | _ => none

theorem replyIn_eq_some : replyIn text = some reply ↔ Message.read text = .ok (.reply reply) := by
  unfold replyIn
  split
  next other hread => simp [hread]
  next hne => simpa using hne reply

def replies (texts : List String) : List Reply := texts.filterMap replyIn

theorem replies_append (texts more : List String) :
    replies (texts ++ more) = replies texts ++ replies more := List.filterMap_append

/-- The texts are replies to open requests, to each at most one. -/
structure Answers (s : Session) (texts : List String) : Prop where
  reads : ∀ text ∈ texts, (replyIn text).isSome
  distinct : ((replies texts).map (·.id)).Nodup
  pending : ∀ reply ∈ replies texts, reply.id ∈ s.awaited.map (·.1)

theorem Answers.of_append {more : List String} (h : s.Answers (texts ++ more)) :
    s.Answers texts where
  reads := fun text ht => h.reads text (List.mem_append_left _ ht)
  distinct := by
    have hn := h.distinct
    rw [replies_append, List.map_append] at hn
    exact (List.nodup_append.mp hn).1
  pending := by
    intro reply hr
    apply h.pending reply
    rw [replies_append]
    exact List.mem_append_left _ hr

/-- Replies are absorbed one by one, and only then does it matter what is left. -/
theorem Answers.feed_alike (h : s.Answers texts) (hi : s.Invariant) :
    Alike (s.feed (texts.map .text)) ((replies texts).foldl absorb s).settle := by
  induction texts using List.reverseRecOn with
  | nil =>
    rw [replies, List.filterMap_nil, List.foldl_nil, hi.settle_eq]
    exact ⟨rfl, rfl, rfl⟩
  | append_singleton texts text ih =>
    -- the reply comes to a session that has settled, and could as well come to one that has not
    have hbefore := ih h.of_append
    have hsome := h.reads text (List.mem_append_right _ (List.mem_singleton_self _))
    obtain ⟨reply, hreply⟩ := Option.isSome_iff_exists.mp hsome
    have hreplies : replies (texts ++ [text]) = replies texts ++ [reply] := by
      rw [replies_append]
      simp [replies, hreply]
    have hlast : reply ∈ replies (texts ++ [text]) := by
      rw [hreplies]
      exact List.mem_append_right _ (List.mem_singleton_self _)
    obtain ⟨⟨id, a⟩, ha, rfl⟩ := List.mem_map.mp (h.pending reply hlast)
    have hfresh : reply.id ∉ (replies texts).map (·.id) := by
      have hn := h.distinct
      rw [hreplies, List.map_append] at hn
      intro hm
      exact (List.nodup_append.mp hn).2.2 _ hm _ (by simp) rfl
    have htext : Alike ((s.feed (texts.map .text)).1.feed [.text text])
        ((s.feed (texts.map .text)).1.absorb reply).settle := by
      rw [feed_singleton, respond, onText, replyIn_eq_some.mp hreply]
      exact (feed_preserves_invariant hi _).onReply_alike reply
    rw [hbefore.session] at htext
    rw [List.map_append, List.map_singleton, feed_append, hreplies, List.foldl_append]
    have hboth : Alike
        (Session.andThen (s.feed (texts.map .text)) fun t => t.feed [.text text])
        (Session.andThen ((replies texts).foldl absorb s).settle fun t =>
          (t.absorb reply).settle) := hbefore.andThen htext
    apply hboth.trans
    exact (hi.foldl_absorb (replies texts)).settle_absorb (mem_foldl_absorb ha hfresh)

/-- Replies to open requests, in whatever order they come, lead to the same session, the same
requests and the same states on the way; and nothing is asked for before the last of the open
requests that hold the session up has its reply. -/
theorem replies_in_any_order (inputs : List Input) {texts' : List String}
    (h : (start.feed inputs).1.Answers texts) (hp : texts.Perm texts') :
    Alike ((start.feed inputs).1.feed (texts.map .text))
        ((start.feed inputs).1.feed (texts'.map .text)) ∧
      ∀ first rest, texts = first ++ rest →
        (∃ a ∈ (start.feed inputs).1.awaited, a.2.blocks = true ∧
          a.1 ∉ (replies first).map (·.id)) →
        ((start.feed inputs).1.feed (first.map .text)).2.requests = [] := by
  have hi := feed_preserves_invariant start_invariant inputs
  constructor
  · have hreplies : (replies texts).Perm (replies texts') := hp.filterMap _
    have h' : (start.feed inputs).1.Answers texts' := by
      refine ⟨fun text ht => h.reads text (hp.mem_iff.mpr ht), ?_, ?_⟩
      · exact (hreplies.map _).nodup_iff.mp h.distinct
      · exact fun reply hr => h.pending reply (hreplies.mem_iff.mpr hr)
    have hsame := hi.toSound.foldl_absorb_perm hreplies h.distinct
    have hright := h'.feed_alike hi
    rw [← hsame] at hright
    exact (h.feed_alike hi).trans hright.symm
  · rintro first rest rfl ⟨a, ha, hb, hn⟩
    have hblocked : ((replies first).foldl absorb (start.feed inputs).1).isBlocked = true :=
      List.any_eq_true.mpr ⟨a, mem_foldl_absorb ha hn, hb⟩
    have hfirst := (h.of_append.feed_alike hi).requests
    rw [settle_of_blocked hblocked] at hfirst
    exact hfirst

def busy : List Input :=
  [.join (.parameter "p") 1, .socket .connected,
    .text "\x7b\"id\":1,\"ok\":true,\"parameter_hierarchy\":\x7b\x7d\x7d",
    .text "\x7b\"id\":0,\"ok\":true,\"output_hierarchy\":\x7b\x7d\x7d",
    .update 7 "p" (.bool true), .update 8 "p" (.bool false),
    .join (.parameter "q") 2, .demand ⟨true, .parameter "q"⟩]

def mixed : List String :=
  ["\x7b\"id\":3,\"ok\":true\x7d", "\x7b\"id\":2,\"ok\":false,\"reason\":\"busy\"\x7d",
    "\x7b\"id\":4,\"ok\":false\x7d"]

theorem replies_in_any_order_mixed :
    (start.feed busy).1.awaited.map (·.1) = [2, 3, 4] ∧
      ((start.feed busy).1.feed ((mixed.take 1).map .text)).2.requests = [] ∧
      ((start.feed busy).1.feed (mixed.map .text)).2.requests =
        [⟨5, .demand ⟨true, .parameter "q"⟩⟩] ∧
      ((start.feed busy).1.feed (mixed.reverse.map .text)).2.requests =
        [⟨5, .demand ⟨true, .parameter "q"⟩⟩] := by
  have hanswers : (start.feed busy).1.Answers mixed :=
    ⟨by decide +kernel, by decide +kernel, by decide +kernel⟩
  have hlast : ((start.feed busy).1.feed (mixed.map .text)).2.requests =
      [⟨5, .demand ⟨true, .parameter "q"⟩⟩] := by decide +kernel
  obtain ⟨halike, hbarrier⟩ := replies_in_any_order busy hanswers (List.reverse_perm mixed).symm
  refine ⟨by decide +kernel, ?_, hlast, ?_⟩
  · exact hbarrier (mixed.take 1) _ rfl (by decide +kernel)
  · rw [← halike.requests]
    exact hlast

end Downlink.Session
