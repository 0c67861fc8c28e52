import Downlink.Proofs.Agreement

/-!
A session and what has crossed its socket so far. The session always knows which requests have no
reply and what the schemas were, and its queue leads from the wire to its members.
-/
namespace Downlink

def Query.blocking? : Query → Option Query
  | .update _ _ => none
  | query => some query

theorem Query.blocking?_eq_output {query : Query} :
    query.blocking? = some .outputSchema ↔ query = .outputSchema := by
  cases query <;> simp [Query.blocking?]

theorem Query.blocking?_eq_parameter {query : Query} :
    query.blocking? = some .parameterSchema ↔ query = .parameterSchema := by
  cases query <;> simp [Query.blocking?]

/-- A schema was asked for and got, each time that it was asked for. -/
def Ledger.Served (ledger : Ledger) (query : Query) (field : String) : Prop :=
  (∀ row ∈ ledger.unanswered, row.2 ≠ query) ∧ (∃ reply, (query, reply) ∈ ledger.answered) ∧
    ∀ reply, (query, reply) ∈ ledger.answered →
      ∃ types, Session.schemaOf reply query field = .ok types

theorem Ledger.served_iff {ledger : Ledger} {query : Query} {field : String} :
    ledger.Served query field ↔
      (∀ row ∈ ledger.unanswered, row.2 ≠ query) ∧ (∃ p ∈ ledger.answered, p.1 = query) ∧
        ∀ p ∈ ledger.answered, p.1 = query →
          (Session.schemaOf p.2 query field).toOption.isSome = true := by
  have hok : ∀ reply, (∃ types, Session.schemaOf reply query field = .ok types) ↔
      (Session.schemaOf reply query field).toOption.isSome = true := by
    intro reply
    cases Session.schemaOf reply query field <;> simp [Except.toOption]
  simp only [Served, hok, Prod.forall, Prod.exists]
  refine and_congr_right fun _ => and_congr ?_ ?_
  · exact ⟨fun ⟨reply, hr⟩ => ⟨query, reply, hr, rfl⟩, fun ⟨_, reply, hr, he⟩ => ⟨reply, he ▸ hr⟩⟩
  · exact ⟨fun h other reply hr he => h reply (he ▸ hr), fun h reply hr => h query reply hr rfl⟩

instance (ledger : Ledger) (query : Query) (field : String) :
    Decidable (ledger.Served query field) :=
  decidable_of_iff _ Ledger.served_iff.symm

structure Ledger.Clear (ledger : Ledger) : Prop where
  demands : ∀ row ∈ ledger.unanswered, ∀ demand, row.2 ≠ .demand demand
  output : ledger.Served .outputSchema "output_hierarchy"
  parameter : ledger.Served .parameterSchema "parameter_hierarchy"

theorem Ledger.Clear.openFor {ledger : Ledger} (h : ledger.Clear) (topic : Topic) :
    ledger.openFor topic = [] := by
  refine List.filter_eq_nil_iff.mpr fun row hr ht => ?_
  obtain ⟨subscribe, hq⟩ := Query.topic?_eq_some.mp (of_decide_eq_true ht)
  exact h.demands row hr _ hq

namespace Session

def Awaited.blocking? : Awaited → Option Query
  | .outputSchema => some .outputSchema
  | .parameterSchema => some .parameterSchema
  | .demand change => some (.demand change)
  | .update _ => none

theorem Awaited.blocking?_eq_none {awaited : Awaited} :
    awaited.blocking? = none ↔ awaited.blocks = false := by
  cases awaited <;> simp [Awaited.blocking?, Awaited.blocks]

theorem Awaited.blocking?_eq_output {awaited : Awaited} :
    awaited.blocking? = some .outputSchema ↔ awaited = .outputSchema := by
  cases awaited <;> simp [Awaited.blocking?]

theorem Awaited.blocking?_eq_parameter {awaited : Awaited} :
    awaited.blocking? = some .parameterSchema ↔ awaited = .parameterSchema := by
  cases awaited <;> simp [Awaited.blocking?]

def Waits (awaited : Table Nat Awaited) (unanswered : Table Nat Query) : Prop :=
  awaited.map (fun a => (a.1, a.2.blocking?)) =
    unanswered.map fun row => (row.1, row.2.blocking?)

section Waits

variable {awaited : Table Nat Awaited} {unanswered : Table Nat Query}

theorem Waits.append (h : Waits awaited unanswered) {awaited' : Table Nat Awaited}
    {unanswered' : Table Nat Query} (h' : Waits awaited' unanswered') :
    Waits (awaited ++ awaited') (unanswered ++ unanswered') := by
  unfold Waits at *
  rw [List.map_append, List.map_append, h, h']

theorem Waits.erase (h : Waits awaited unanswered) (id : Nat) :
    Waits (Table.erase id awaited) (Table.erase id unanswered) := by
  unfold Waits Table.erase at *
  have hkeep : ∀ {V : Type} (f : V → Option Query) (table : Table Nat V),
      (table.filter fun row => row.1 ≠ id).map (fun row => (row.1, f row.2)) =
        (table.map fun row => (row.1, f row.2)).filter fun row => row.1 ≠ id := by
    intro V f table
    rw [List.filter_map]
    rfl
  rw [hkeep Awaited.blocking?, hkeep Query.blocking?, h]

theorem Waits.exists_awaited (h : Waits awaited unanswered) {id : Nat} {query : Query}
    (hm : (id, query) ∈ unanswered) :
    ∃ a, (id, a) ∈ awaited ∧ a.blocking? = query.blocking? := by
  have hrow := List.mem_map_of_mem (f := fun row => (row.1, row.2.blocking?)) hm
  rw [← h] at hrow
  obtain ⟨⟨other, a⟩, ha, he⟩ := List.mem_map.mp hrow
  obtain ⟨rfl, hb⟩ := Prod.mk.inj he
  exact ⟨a, ha, hb⟩

theorem Waits.exists_row (h : Waits awaited unanswered) {id : Nat} {a : Awaited}
    (hm : (id, a) ∈ awaited) : ∃ query, (id, query) ∈ unanswered ∧
      query.blocking? = a.blocking? := by
  have hrow := List.mem_map_of_mem (f := fun a => (a.1, a.2.blocking?)) hm
  rw [h] at hrow
  obtain ⟨⟨other, query⟩, hq, he⟩ := List.mem_map.mp hrow
  obtain ⟨rfl, hb⟩ := Prod.mk.inj he
  exact ⟨query, hq, hb⟩

/-- Ids stand once, so that a reply belongs to one request on both sides. -/
theorem Waits.blocking_eq (h : Waits awaited unanswered) (hn : (awaited.map (·.1)).Nodup) {id : Nat}
    {a : Awaited} {query : Query} (ha : (id, a) ∈ awaited) (hq : (id, query) ∈ unanswered) :
    query.blocking? = a.blocking? := by
  obtain ⟨other, ho, hb⟩ := h.exists_awaited hq
  have he := List.inj_on_of_nodup_map hn ho ha rfl
  rw [← hb, (Prod.mk.inj he).2]

theorem waits_batch (first : Nat) (queue : List Demand) :
    Waits ((numbered first queue).map fun p => (p.1, .demand p.2))
      ((batch first queue).map fun request => (request.id, request.query)) := by
  simp [Waits, batch, Awaited.blocking?, Query.blocking?]

end Waits

/-- A schema is still awaited, or its reply is the one that the types are from. -/
def Fetched (ledger : Ledger) (query : Query) (field : String) (types : Option PathTypes) : Prop :=
  ((∃ id, (id, query) ∈ ledger.unanswered) ∧ ∀ reply, (query, reply) ∉ ledger.answered) ∨
    ((∀ row ∈ ledger.unanswered, row.2 ≠ query) ∧ (∃ reply, (query, reply) ∈ ledger.answered) ∧
      ∀ reply, (query, reply) ∈ ledger.answered →
        types = (schemaOf reply query field).toOption)

section Fetched

variable {ledger : Ledger} {query : Query} {field : String} {types : Option PathTypes}

theorem Fetched.said (h : Fetched ledger query field types) {rows : Table Nat Query}
    (hn : ∀ row ∈ rows, row.2 ≠ query) :
    Fetched ⟨ledger.unanswered ++ rows, ledger.answered⟩ query field types := by
  rcases h with ⟨⟨id, hid⟩, ha⟩ | ⟨hu, ha⟩
  · exact Or.inl ⟨⟨id, List.mem_append_left _ hid⟩, ha⟩
  · refine Or.inr ⟨fun row hr => ?_, ha⟩
    rcases List.mem_append.mp hr with hr | hr
    · exact hu row hr
    · exact hn row hr

theorem mem_answered_heard {reply : Reply} {row : Query × Reply}
    (h : row ∈ (ledger.take (.heard reply)).answered) :
    row ∈ ledger.answered ∨ (reply.id, row.1) ∈ ledger.unanswered ∧ row.2 = reply := by
  rcases List.mem_append.mp h with h | h
  · exact Or.inl h
  · obtain ⟨⟨id, query⟩, hm, rfl⟩ := List.mem_map.mp h
    obtain ⟨hm, hid⟩ := List.mem_filter.mp hm
    have hid : id = reply.id := of_decide_eq_true hid
    exact Or.inr ⟨hid ▸ hm, rfl⟩

theorem Fetched.heard_other (h : Fetched ledger query field types) {reply : Reply}
    (hn : (reply.id, query) ∉ ledger.unanswered) :
    Fetched (ledger.take (.heard reply)) query field types := by
  rcases h with ⟨⟨id, hid⟩, ha⟩ | ⟨hu, ⟨earlier, he⟩, ha⟩
  · refine Or.inl ⟨⟨id, List.mem_filter.mpr ⟨hid, ?_⟩⟩, fun other ho => ?_⟩
    · have hne : id ≠ reply.id := fun he => hn (he ▸ hid)
      simpa using hne
    · rcases mem_answered_heard ho with ho | ⟨ho, _⟩
      · exact ha other ho
      · exact hn ho
  · refine Or.inr ⟨fun row hr => hu row (List.mem_of_mem_filter hr),
      ⟨earlier, List.mem_append_left _ he⟩, fun other ho => ?_⟩
    rcases mem_answered_heard ho with ho | ⟨ho, _⟩
    · exact ha other ho
    · exact absurd ho hn

theorem Fetched.heard (h : Fetched ledger query field types) {reply : Reply}
    (hm : (reply.id, query) ∈ ledger.unanswered)
    (hu : ∀ id, (id, query) ∈ ledger.unanswered → id = reply.id) :
    Fetched (ledger.take (.heard reply)) query field (schemaOf reply query field).toOption := by
  rcases h with ⟨_, ha⟩ | ⟨hn, _⟩
  · refine Or.inr ⟨?_, ⟨reply, ?_⟩, fun other ho => ?_⟩
    · rintro ⟨id, other⟩ hr hq
      obtain ⟨hr, hid⟩ := List.mem_filter.mp hr
      subst hq
      have hne : id ≠ reply.id := by simpa using hid
      exact hne (hu id hr)
    · refine List.mem_append_right _ (List.mem_map.mpr ⟨(reply.id, query), ?_, rfl⟩)
      exact List.mem_filter.mpr ⟨hm, by simp⟩
    · rcases mem_answered_heard ho with ho | ⟨_, ho⟩
      · exact absurd ho (ha other)
      · rw [show other = reply from ho]
  · exact absurd rfl (hn _ hm)

theorem Fetched.served (h : Fetched ledger query field types)
    (hn : ∀ row ∈ ledger.unanswered, row.2 ≠ query) (ht : types.isSome) :
    ledger.Served query field := by
  rcases h with ⟨⟨id, hid⟩, _⟩ | ⟨_, he, ha⟩
  · exact absurd rfl (hn _ hid)
  · refine ⟨hn, he, fun reply hr => ?_⟩
    rw [ha reply hr] at ht
    cases hs : schemaOf reply query field with
    | ok types => exact ⟨types, rfl⟩
    | error fault =>
      rw [hs] at ht
      cases ht

theorem Fetched.isSome (h : Fetched ledger query field types) (hs : ledger.Served query field) :
    types.isSome := by
  obtain ⟨hn, ⟨reply, hr⟩, ht⟩ := hs
  rcases h with ⟨⟨id, hid⟩, _⟩ | ⟨_, _, ha⟩
  · exact absurd rfl (hn _ hid)
  · obtain ⟨types, hok⟩ := ht reply hr
    rw [ha reply hr, hok]
    rfl

end Fetched

structure Tracks (s : Session) (words : List Word) : Prop where
  waits : Waits s.awaited (Ledger.of words).unanswered
  output : Fetched (Ledger.of words) .outputSchema "output_hierarchy" s.outputTypes
  parameter : Fetched (Ledger.of words) .parameterSchema "parameter_hierarchy" s.parameterTypes

/-- What holds between two inputs of a session that is online. -/
structure Follows (s : Session) (words : List Word) : Prop extends Tracks s words where
  agreement : s.state.isLive → Agreement s.queue s.audience.contains (wired words)
  silent : s.state = .fetching → ∀ topic, wired words topic = false

structure Continues (words : List Word) (result : Session × Effects) : Prop where
  follows : Follows result.1 (words ++ result.2.requests.map .said)
  orderly : Orderly words → Orderly (words ++ result.2.requests.map .said)
  timely : ∀ request ∈ result.2.requests, ∀ demand, request.query = .demand demand →
    (Ledger.of words).Clear

variable {s : Session} {words : List Word}

theorem Follows.continues (h : Follows s words) {effects : Effects} (he : effects.requests = []) :
    Continues words (s, effects) where
  follows := by simpa [he] using h
  orderly := by simp [he]
  timely := by simp [he]

theorem Continues.andThen {effects : Effects} {next : Session → Session × Effects}
    (h : Continues words (next s)) (he : effects.requests = []) :
    Continues words (andThen (s, effects) next) where
  follows := by simpa [he] using h.follows
  orderly := by simpa [he] using h.orderly
  timely := by simpa [he] using h.timely

theorem Tracks.quiet (h : Tracks s words) (hb : s.isBlocked = false) :
    ∀ row ∈ (Ledger.of words).unanswered, row.2.blocking? = none := by
  rintro ⟨id, query⟩ hr
  obtain ⟨a, ha, he⟩ := h.waits.exists_awaited hr
  rw [← he, Awaited.blocking?_eq_none]
  exact isBlocked_eq_false_iff.mp hb _ ha

/-- The barrier: where nothing holds up the next batch, no demand is open and both schemas are
in. -/
theorem Tracks.clear (h : Tracks s words) (hb : s.isBlocked = false) (ho : s.outputTypes.isSome)
    (hp : s.parameterTypes.isSome) : (Ledger.of words).Clear := by
  have hq := h.quiet hb
  have hne : ∀ row ∈ (Ledger.of words).unanswered, ∀ query, query.blocking? ≠ none →
      row.2 ≠ query := by
    intro row hr query hb he
    exact hb (he ▸ hq row hr)
  exact {
    demands := fun row hr demand => hne row hr _ (by simp [Query.blocking?])
    output := h.output.served (fun row hr => hne row hr _ (by simp [Query.blocking?])) ho
    parameter := h.parameter.served (fun row hr => hne row hr _ (by simp [Query.blocking?])) hp }

theorem Tracks.said (h : Tracks s words) (awaited : Table Nat Awaited) (requests : List Request)
    (hw : Waits awaited (requests.map fun request => (request.id, request.query)))
    (ho : ∀ request ∈ requests, request.query ≠ .outputSchema)
    (hp : ∀ request ∈ requests, request.query ≠ .parameterSchema) :
    Tracks { s with awaited := s.awaited ++ awaited } (words ++ requests.map .said) := by
  constructor <;> rw [Ledger.of_said]
  · exact h.waits.append hw
  · refine h.output.said fun row hr => ?_
    obtain ⟨request, hm, rfl⟩ := List.mem_map.mp hr
    exact ho request hm
  · refine h.parameter.said fun row hr => ?_
    obtain ⟨request, hm, rfl⟩ := List.mem_map.mp hr
    exact hp request hm

theorem Tracks.batch_said (h : Tracks s words) (queue : List Demand) :
    Tracks { s with awaited := s.awaited ++
        (numbered s.nextId queue).map fun p => (p.1, Awaited.demand p.2) }
      (words ++ (batch s.nextId queue).map .said) := by
  refine h.said _ _ (waits_batch s.nextId queue) ?_ ?_
  · intro request hm he
    obtain ⟨demand, _, hd⟩ := mem_batch hm
    cases hd.symm.trans he
  · intro request hm he
    obtain ⟨demand, _, hd⟩ := mem_batch hm
    cases hd.symm.trans he

theorem Tracks.follows_of_live (h : Tracks s words) (hl : s.state.isLive)
    (ha : Agreement s.queue s.audience.contains (wired words)) : Follows s words :=
  ⟨h, fun _ => ha, fun hf => absurd hf (State.ne_of_isLive hl).2⟩

theorem Tracks.advance_continues (h : Tracks s words)
    (ha : Agreement s.queue s.audience.contains (wired words)) (ho : s.outputTypes.isSome)
    (hp : s.parameterTypes.isSome) (hs : s.state.isLive ∨ s.Ready) :
    Continues words s.advance := by
  by_cases hr : s.Ready
  · have hclear := h.clear hr.2.2 ho hp
    by_cases hq : s.queue = []
    · rw [advance_of_empty hr hq]
      have htracks : Tracks { s with state := .subscribed } words :=
        ⟨h.waits, h.output, h.parameter⟩
      exact (htracks.follows_of_live rfl ha).continues (entering_requests _)
    · rw [advance_of_queue hr hq]
      have hbatch := h.batch_said s.queue
      have hrequests : (s.entering .subscribing ++
          { requests := (numbered s.nextId s.queue).map fun p => ⟨p.1, .demand p.2⟩ }).requests =
            batch s.nextId s.queue := by simp [batch]
      constructor <;> dsimp only <;> rw [hrequests]
      · exact Tracks.follows_of_live ⟨hbatch.waits, hbatch.output, hbatch.parameter⟩ rfl
          (ha.said s.nextId)
      · intro horder
        exact ha.orderly horder hclear.openFor s.nextId
      · intro _ _ _ _
        exact hclear
  · rw [advance_of_not_ready hr]
    exact (h.follows_of_live (hs.resolve_right hr) ha).continues rfl

/-- Images and members do not matter for what has been said. -/
theorem Follows.congr {t : Session} (h : Follows s words) (hstate : t.state = s.state)
    (ha : t.awaited = s.awaited) (hq : t.queue = s.queue) (ho : t.outputTypes = s.outputTypes)
    (hp : t.parameterTypes = s.parameterTypes)
    (hc : t.audience.contains = s.audience.contains) : Follows t words := by
  refine ⟨⟨?_, ?_, ?_⟩, ?_, ?_⟩
  · rw [ha]
    exact h.waits
  · rw [ho]
    exact h.output
  · rw [hp]
    exact h.parameter
  · rw [hstate, hq, hc]
    exact h.agreement
  · rw [hstate]
    exact h.silent

theorem Tracks.finishFetching_continues (h : Tracks s words) (hs : s.Sound)
    (hf : s.state = .fetching) (hw : ∀ topic, wired words topic = false) :
    Continues words s.finishFetching := by
  unfold finishFetching
  split
  next hc =>
    obtain ⟨_, hb, ho, hp⟩ := hc
    have hr : s.Ready := ⟨by simp [hf], fun _ => ⟨ho, hp⟩, by simpa using hb⟩
    have hfill := agreement_firstBatch hs.audience hw
    exact Tracks.advance_continues (s := { s with queue := _ }) ⟨h.waits, h.output, h.parameter⟩
      hfill ho hp (Or.inr hr)
  next =>
    have hl : ¬ s.state.isLive := fun hl => (State.ne_of_isLive hl).2 hf
    exact Follows.continues ⟨h, fun hl' => absurd hl' hl, fun _ => hw⟩ rfl

private theorem fetched_other {reply : Reply} {a : Awaited} {query : Query} {field : String}
    {types : Option PathTypes} (hw : Waits s.awaited (Ledger.of words).unanswered)
    (hn : (s.awaited.map (·.1)).Nodup) (ha : (reply.id, a) ∈ s.awaited)
    (h : Fetched (Ledger.of words) query field types) (hne : a.blocking? ≠ query.blocking?) :
    Fetched (Ledger.of (words ++ [.heard reply])) query field types := by
  rw [Ledger.of_append_singleton]
  exact h.heard_other fun hm => hne (hw.blocking_eq hn ha hm).symm

private theorem fetched_schema {reply : Reply} {a : Awaited} {query : Query} {field : String}
    {types : Option PathTypes} (hw : Waits s.awaited (Ledger.of words).unanswered)
    (ha : (reply.id, a) ∈ s.awaited) (hn : (s.awaited.map (·.2)).Nodup)
    (h : Fetched (Ledger.of words) query field types)
    (hquery : ∀ other : Query, other.blocking? = a.blocking? ↔ other = query)
    (hself : ∀ other : Awaited, other.blocking? = a.blocking? ↔ other = a) :
    Fetched (Ledger.of (words ++ [.heard reply])) query field
      (schemaOf reply query field).toOption := by
  rw [Ledger.of_append_singleton]
  obtain ⟨other, ho, hb⟩ := hw.exists_row ha
  rw [(hquery other).mp hb] at ho
  refine h.heard ho fun id hid => ?_
  obtain ⟨again, hg, hb⟩ := hw.exists_awaited hid
  have he : again = a := (hself again).mp (hb.trans ((hquery query).mpr rfl))
  exact (Prod.mk.inj (List.inj_on_of_nodup_map hn hg ha he)).1

private theorem waits_heard (hw : Waits s.awaited (Ledger.of words).unanswered) (reply : Reply) :
    Waits (Table.erase reply.id s.awaited) (Ledger.of (words ++ [.heard reply])).unanswered := by
  rw [Ledger.of_append_singleton]
  exact hw.erase reply.id

theorem Follows.heard_unmatched (h : Follows s words) {reply : Reply}
    (hn : ∀ a, (reply.id, a) ∉ s.awaited) : Follows s (words ++ [.heard reply]) := by
  have hrow : ∀ query, (reply.id, query) ∉ (Ledger.of words).unanswered := by
    intro query hm
    obtain ⟨a, ha, _⟩ := h.waits.exists_awaited hm
    exact hn a ha
  have herase : Table.erase reply.id s.awaited = s.awaited := by
    refine List.filter_eq_self.mpr fun a ha => ?_
    have hne : a.1 ≠ reply.id := fun he => hn a.2 (he ▸ ha)
    simpa using hne
  have hwaits := waits_heard h.waits reply
  rw [herase] at hwaits
  refine ⟨⟨hwaits, ?_, ?_⟩, ?_, ?_⟩
  · rw [Ledger.of_append_singleton]
    exact h.output.heard_other (hrow _)
  · rw [Ledger.of_append_singleton]
    exact h.parameter.heard_other (hrow _)
  · rw [wired_heard]
    exact h.agreement
  · rw [wired_heard]
    exact h.silent

theorem Follows.heard_output (h : Follows s words) (hi : s.Invariant) {reply : Reply}
    (ha : (reply.id, .outputSchema) ∈ s.awaited) :
    Tracks { s with
        awaited := Table.erase reply.id s.awaited
        outputTypes := (schemaOf reply .outputSchema "output_hierarchy").toOption }
      (words ++ [.heard reply]) where
  waits := waits_heard h.waits reply
  output := fetched_schema h.waits ha (hi.once (hi.fetching_of_schema ha (Or.inl rfl))) h.output
    (fun _ => Query.blocking?_eq_output) fun _ => Awaited.blocking?_eq_output
  parameter := fetched_other h.waits hi.ids ha h.parameter
    (by simp [Awaited.blocking?, Query.blocking?])

theorem Follows.heard_parameter (h : Follows s words) (hi : s.Invariant) {reply : Reply}
    (ha : (reply.id, .parameterSchema) ∈ s.awaited) :
    Tracks { s with
        awaited := Table.erase reply.id s.awaited
        parameterTypes := (schemaOf reply .parameterSchema "parameter_hierarchy").toOption }
      (words ++ [.heard reply]) where
  waits := waits_heard h.waits reply
  output := fetched_other h.waits hi.ids ha h.output (by simp [Awaited.blocking?, Query.blocking?])
  parameter := fetched_schema h.waits ha (hi.once (hi.fetching_of_schema ha (Or.inr rfl)))
    h.parameter (fun _ => Query.blocking?_eq_parameter) fun _ => Awaited.blocking?_eq_parameter

theorem Follows.replied_continues (h : Follows s words) (hi : s.Invariant) {reply : Reply}
    {result : Session × Effects} (hr : s.Replied reply result) :
    Continues (words ++ [.heard reply]) result := by
  cases hr with
  | unmatched hn => exact (h.heard_unmatched hn).continues rfl
  | output ha =>
    have hf := hi.fetching_of_schema ha (Or.inl rfl)
    refine Continues.andThen ?_ (schemaEffects_requests _)
    refine (h.heard_output hi ha).finishFetching_continues (hi.erase_output ha _) hf ?_
    rw [wired_heard]
    exact h.silent hf
  | parameter ha =>
    have hf := hi.fetching_of_schema ha (Or.inr rfl)
    refine Continues.andThen ?_ (schemaEffects_requests _)
    refine (h.heard_parameter hi ha).finishFetching_continues (hi.erase_parameter ha _) hf ?_
    rw [wired_heard]
    exact h.silent hf
  | other ha ho hp =>
    have hl := hi.live_of_other ha ho hp
    obtain ⟨hot, hpt⟩ := hi.live hl
    refine Continues.andThen ?_ rfl
    refine Tracks.advance_continues ⟨waits_heard h.waits reply, ?_, ?_⟩ ?_ hot hpt (Or.inl hl)
    · exact fetched_other h.waits hi.ids ha h.output (mt Awaited.blocking?_eq_output.mp ho)
    · exact fetched_other h.waits hi.ids ha h.parameter (mt Awaited.blocking?_eq_parameter.mp hp)
    · rw [wired_heard]
      exact h.agreement hl

/-- What a text is for its socket: a push answers nothing. -/
def heardIn (text : String) : List Word :=
  match Message.read text with
  | .ok (.reply reply) => [.heard reply]
  | _ => []

theorem heardIn_cases (text : String) :
    heardIn text = [] ∨ ∃ reply, heardIn text = [.heard reply] := by
  unfold heardIn
  split
  · exact Or.inr ⟨_, rfl⟩
  · exact Or.inl rfl

theorem mem_heardIn {text : String} {reply : Reply} :
    .heard reply ∈ heardIn text ↔ Message.read text = .ok (.reply reply) := by
  unfold heardIn
  split
  next other hread => simp [hread, eq_comm]
  next hne =>
    exact ⟨fun hm => absurd hm List.not_mem_nil, fun hread => absurd hread (hne reply)⟩

theorem Follows.onText_continues (h : Follows s words) (hi : s.Invariant) (text : String) :
    Continues (words ++ heardIn text) (s.onText text) := by
  rcases onText_cases s text with
    ⟨fault, hread, ht⟩ | ⟨reply, hread, ht⟩ | ⟨push, images, calls, hread, ht⟩
  · rw [ht, heardIn, hread, List.append_nil]
    exact h.continues rfl
  · rw [ht, heardIn, hread]
    exact h.replied_continues hi (onReply_replied s reply)
  · have hsame : Follows { s with images } words := h.congr rfl rfl rfl rfl rfl rfl
    rw [ht, heardIn, hread, List.append_nil]
    exact hsame.continues rfl

theorem Follows.demand_continues (h : Follows s words) (hi : s.Invariant) {audience : Audience}
    (change : Demand) (hold : s.audience.contains change.topic = !change.subscribe)
    (hnew : audience.contains =
      Function.update s.audience.contains change.topic change.subscribe) :
    Continues words ({ s with audience }.demand change) := by
  unfold demand
  split
  next hl =>
    obtain ⟨ho, hp⟩ := hi.live hl
    have hplanned := (h.agreement hl).planned hold
    rw [← hnew] at hplanned
    rw [plan_eq]
    exact Tracks.advance_continues ⟨h.waits, h.output, h.parameter⟩ hplanned ho hp (Or.inl hl)
  next hl =>
    have hfollows : Follows { s with audience } words :=
      ⟨⟨h.waits, h.output, h.parameter⟩, fun hl' => absurd hl' hl, h.silent⟩
    exact hfollows.continues rfl

theorem Follows.join_continues (h : Follows s words) (hi : s.Invariant) (topic : Topic) (id : Nat) :
    Continues words (s.feed (.join topic id ::
      if (s.join topic id).2 then [.demand ⟨true, topic⟩] else [])) := by
  have hcontains : (s.audience.join topic id).1.contains = _ := Audience.contains_join topic id
  have hfirst : (s.join topic id).2 = !s.audience.contains topic := Audience.join_first topic id
  by_cases hf : (s.join topic id).2
  · rw [if_pos hf, feed]
    simp only [feed_singleton]
    have hn : s.audience.contains topic = false := by simpa [hf] using hfirst
    have hcontinues := h.demand_continues hi ⟨true, topic⟩ hn hcontains
    exact hcontinues.andThen rfl
  · rw [if_neg hf, feed_singleton]
    have hc : s.audience.contains topic = true := by simpa [hf] using hfirst
    rw [← hc, Function.update_eq_self] at hcontains
    have hsame : Follows (s.join topic id).1 words := h.congr rfl rfl rfl rfl rfl hcontains
    exact hsame.continues rfl

theorem Follows.leave_continues (h : Follows s words) (hi : s.Invariant) (topic : Topic)
    (id : Nat) :
    Continues words (s.feed (.leave topic id ::
      if (s.leave topic id).2 = some true then [.demand ⟨false, topic⟩] else [])) := by
  have hcontains : (s.audience.leave topic id).1.contains = _ := Audience.contains_leave topic id
  by_cases hlast : (s.leave topic id).2 = some true
  · rw [if_pos hlast, feed]
    simp only [feed_singleton]
    rw [if_pos (show (s.audience.leave topic id).2 = some true from hlast)] at hcontains
    have hc : s.audience.contains topic = true := Audience.contains_of_last hlast
    have hcontinues := h.demand_continues hi ⟨false, topic⟩ hc hcontains
    exact hcontinues.andThen rfl
  · rw [if_neg hlast, feed_singleton]
    rw [if_neg (show (s.audience.leave topic id).2 ≠ some true from hlast)] at hcontains
    have hsame : Follows (s.leave topic id).1 words := h.congr rfl rfl rfl rfl rfl hcontains
    exact hsame.continues rfl

theorem Follows.update_continues (h : Follows s words) (tag : Nat) (path : String) (value : Json) :
    Continues words (s.update tag path value) := by
  unfold update
  split
  next hl =>
    have htracks := h.toTracks.said [(s.nextId, .update tag)]
      [⟨s.nextId, .update path value⟩] rfl (by simp) (by simp)
    have hwired : wired (words ++ [.said ⟨s.nextId, .update path value⟩]) = wired words := by
      funext topic
      exact wired_said_of_ne (by simp [Request.topic?, Query.topic?])
    constructor
    · refine ⟨⟨htracks.waits, htracks.output, htracks.parameter⟩, ?_, ?_⟩
      · simpa [send, hwired] using h.agreement
      · simpa [send, hwired] using h.silent
    · intro ho
      exact ho.said_all List.nodup_nil (by simp [send, Allowed])
    · simp [send]
  next => exact h.continues rfl

def schemaRequests (first : Nat) : List Request :=
  [⟨first, .outputSchema⟩, ⟨first + 1, .parameterSchema⟩]

/-- A new connection, on a socket on which nothing has been said. -/
theorem onSocket_continues (hi : s.Invariant) (ho : s.state = .offline) (hs : Silent words) :
    Continues words (s.onSocket .connected) := by
  obtain ⟨ha, _, _, _⟩ := hi.offline ho
  have hledger := Ledger.of_said words (schemaRequests s.nextId)
  rw [hs.ledger] at hledger
  rw [onSocket_connected ho, ha]
  constructor <;> dsimp only <;> rw [← schemaRequests]
  · refine ⟨⟨?_, ?_, ?_⟩, fun hl => absurd hl (by simp [State.isLive]), fun _ topic => ?_⟩
    · rw [hledger]
      rfl
    · rw [hledger]
      exact Or.inl ⟨⟨s.nextId, by simp [Ledger.empty, schemaRequests]⟩, by simp [Ledger.empty]⟩
    · rw [hledger]
      exact Or.inl ⟨⟨s.nextId + 1, by simp [Ledger.empty, schemaRequests]⟩, by simp [Ledger.empty]⟩
    · rw [wired_said_all_of_ne, hs.wired topic]
      simp [schemaRequests, Request.topic?, Query.topic?]
  · intro horder
    exact horder.said_all List.nodup_nil (by simp [schemaRequests, Allowed])
  · simp [schemaRequests]

end Session
end Downlink
