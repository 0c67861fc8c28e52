import Downlink.Session
import Downlink.Proofs.Roster
import Downlink.Proofs.Table
import Mathlib.Data.List.Perm.Basic

/-!
A session seen as a machine with one kind of input, and the barrier that orders what it says: the
state alone tells which answers can still be open and what may be queued.
-/
namespace Downlink

namespace Session

namespace Effects

variable (a b : Effects)

@[simp] theorem requests_append : (a ++ b).requests = a.requests ++ b.requests := rfl
@[simp] theorem faults_append : (a ++ b).faults = a.faults ++ b.faults := rfl
@[simp] theorem entered_append : (a ++ b).entered = a.entered ++ b.entered := rfl
@[simp] theorem abort_append : (a ++ b).abort = (a.abort || b.abort) := rfl
@[simp] theorem calls_append : (a ++ b).calls = a.calls ++ b.calls := rfl
@[simp] theorem requests_none : none.requests = [] := rfl
@[simp] theorem abort_none : none.abort = false := rfl
@[simp] theorem calls_none : none.calls = [] := rfl

@[simp] theorem append_none : a ++ none = a := by
  obtain ⟨requests, faults, entered, abort, calls⟩ := a
  change append _ _ = _
  simp [append, none]

@[simp] theorem none_append : none ++ a = a := rfl

theorem append_assoc (c : Effects) : a ++ b ++ c = a ++ (b ++ c) := by
  change append (append a b) c = append a (append b c)
  simp [append, Bool.or_assoc]

end Effects

@[simp] theorem andThen_fst (result : Session × Effects) (next : Session → Session × Effects) :
    (andThen result next).1 = (next result.1).1 := rfl

@[simp] theorem andThen_snd (result : Session × Effects) (next : Session → Session × Effects) :
    (andThen result next).2 = result.2 ++ (next result.1).2 := rfl

inductive Input where
  | socket (status : Status)
  | demand (change : Demand)
  | update (tag : Nat) (path : String) (value : Json)
  | text (text : String)
  | frame (bytes : List UInt8)
  | join (topic : Topic) (id : Nat)
  | leave (topic : Topic) (id : Nat)
  deriving DecidableEq, Repr

def respond (s : Session) : Input → Session × Effects
  | .socket status => s.onSocket status
  | .demand change => s.demand change
  | .update tag path value => s.update tag path value
  | .text text => s.onText text
  | .frame bytes => s.onFrame bytes
  | .join topic id => ((s.join topic id).1, .none)
  | .leave topic id => ((s.leave topic id).1, .none)

def feed (s : Session) : List Input → Session × Effects
  | [] => (s, .none)
  | input :: inputs => andThen (s.respond input) fun s => s.feed inputs

@[simp] theorem feed_singleton (s : Session) (input : Input) :
    s.feed [input] = s.respond input := by
  simp [feed, andThen]

theorem feed_append (s : Session) (inputs more : List Input) :
    s.feed (inputs ++ more) = andThen (s.feed inputs) fun s => s.feed more := by
  induction inputs generalizing s with
  | nil => rfl
  | cons input inputs ih =>
    simp only [List.cons_append, feed, ih]
    exact Prod.ext rfl (Effects.append_assoc ..).symm

/-- What is so of each input, and goes on over two steps, is so of a row of inputs. -/
theorem feed_induction {P : Session → Session × Effects → Prop} {inputs : List Input}
    (idle : ∀ s, P s (s, .none))
    (next : ∀ {s result} {f : Session → Session × Effects},
      P s result → P result.1 (f result.1) → P s (andThen result f))
    (step : ∀ input ∈ inputs, ∀ s, P s (s.respond input)) (s : Session) :
    P s (s.feed inputs) := by
  induction inputs generalizing s with
  | nil => exact idle s
  | cons input inputs ih =>
    apply next (step input List.mem_cons_self s)
    exact ih (fun i hm => step i (List.mem_cons_of_mem _ hm)) _

theorem feed_append_fst (s : Session) (inputs more : List Input) :
    (s.feed (inputs ++ more)).1 = ((s.feed inputs).1.feed more).1 := by
  rw [feed_append, andThen_fst]

variable {s : Session}

def numbered (first : Nat) : List Demand → List (Nat × Demand)
  | [] => []
  | demand :: demands => (first, demand) :: numbered (first + 1) demands

@[simp] theorem numbered_map_snd (first : Nat) (demands : List Demand) :
    (numbered first demands).map (·.2) = demands := by
  induction demands generalizing first with
  | nil => rfl
  | cons demand demands ih => simp [numbered, ih]

theorem numbered_map_fst (first : Nat) (demands : List Demand) :
    (numbered first demands).map (·.1) = List.range' first demands.length := by
  induction demands generalizing first with
  | nil => rfl
  | cons demand demands ih => exact congrArg (first :: ·) (ih (first + 1))

theorem numbered_bounds {first : Nat} {demands : List Demand} {p : Nat × Demand}
    (hp : p ∈ numbered first demands) : first ≤ p.1 ∧ p.1 < first + demands.length := by
  have hm := List.mem_map_of_mem (f := (·.1)) hp
  rw [numbered_map_fst] at hm
  exact List.mem_range'_1.mp hm

theorem numbered_ids_nodup (first : Nat) (demands : List Demand) :
    ((numbered first demands).map (·.1)).Nodup := by
  rw [numbered_map_fst]
  exact List.nodup_range'

theorem sendDemands_eq (s : Session) (demands : List Demand) :
    s.sendDemands demands =
      ({ s with
          nextId := s.nextId + demands.length
          awaited := s.awaited ++
            (numbered s.nextId demands).map fun p => (p.1, Awaited.demand p.2) },
        { requests := (numbered s.nextId demands).map fun p => ⟨p.1, .demand p.2⟩ }) := by
  induction demands generalizing s with
  | nil => simp [sendDemands, numbered, Effects.none]
  | cons demand demands ih =>
    have he : ∀ a b : List Request, ({ requests := a } : Effects) ++ { requests := b } =
        { requests := a ++ b } := fun a b => rfl
    simp [sendDemands, andThen, ih, send, numbered, he, Nat.add_assoc, Nat.add_comm 1]

def entering (s : Session) (state : State) : Effects :=
  if s.state = state then .none else { entered := [state] }

@[simp] theorem entering_requests (state : State) : (s.entering state).requests = [] := by
  unfold entering
  split <;> rfl

theorem entering_calls (state : State) : (s.entering state).calls = [] := by
  unfold entering
  split <;> rfl

@[simp] theorem entering_abort (state : State) : (s.entering state).abort = false := by
  unfold entering
  split <;> rfl

theorem enter_eq (s : Session) (state : State) :
    s.enter state = ({ s with state }, s.entering state) := by
  unfold enter entering
  split
  next h => subst h; rfl
  next => rfl

def Ready (s : Session) : Prop :=
  s.state ≠ .offline ∧
    (s.state = .fetching → s.outputTypes.isSome ∧ s.parameterTypes.isSome) ∧ s.isBlocked = false

instance (s : Session) : Decidable s.Ready := inferInstanceAs (Decidable (_ ∧ _ ∧ _))

theorem not_ready_of_blocked (h : s.isBlocked = true) : ¬ s.Ready := by
  rintro ⟨_, _, hb⟩
  rw [h] at hb
  cases hb

theorem advance_of_not_ready (h : ¬ s.Ready) : s.advance = (s, .none) := by
  unfold advance
  by_cases ho : s.state = .offline
  · rw [if_pos ho]
  rw [if_neg ho]
  by_cases hf : s.state = .fetching ∧ (s.outputTypes.isNone ∨ s.parameterTypes.isNone)
  · rw [if_pos hf]
  rw [if_neg hf]
  by_cases hb : s.isBlocked
  · rw [if_pos hb]
  refine absurd ⟨ho, fun hs => ?_, by simpa using hb⟩ h
  have hn := not_or.mp fun hn => hf ⟨hs, hn⟩
  simpa [Option.isSome_iff_ne_none] using hn

private theorem advance_of_ready (h : s.Ready) :
    s.advance = if s.queue.isEmpty then s.enter .subscribed
      else andThen (s.enter .subscribing) fun s => { s with queue := [] }.sendDemands s.queue := by
  obtain ⟨ho, hf, hb⟩ := h
  have hn : ¬ (s.state = .fetching ∧ (s.outputTypes.isNone ∨ s.parameterTypes.isNone)) := by
    rintro ⟨hs, hn⟩
    obtain ⟨h₁, h₂⟩ := hf hs
    rcases hn with hn | hn
    · simp [Option.isNone_iff_eq_none.mp hn] at h₁
    · simp [Option.isNone_iff_eq_none.mp hn] at h₂
  unfold advance
  rw [if_neg ho, if_neg hn, if_neg (by simp [hb])]

theorem advance_of_empty (h : s.Ready) (hq : s.queue = []) :
    s.advance = ({ s with state := .subscribed }, s.entering .subscribed) := by
  rw [advance_of_ready h, if_pos (by rw [hq]; rfl), enter_eq]

theorem advance_of_queue (h : s.Ready) (hq : s.queue ≠ []) :
    s.advance =
      ({ s with
          state := .subscribing
          nextId := s.nextId + s.queue.length
          awaited := s.awaited ++
            (numbered s.nextId s.queue).map fun p => (p.1, Awaited.demand p.2)
          queue := [] },
        s.entering .subscribing ++
          { requests := (numbered s.nextId s.queue).map fun p => ⟨p.1, .demand p.2⟩ }) := by
  rw [advance_of_ready h, if_neg (by simpa using hq), enter_eq, andThen, sendDemands_eq]

theorem isBlocked_eq_false_iff : s.isBlocked = false ↔ ∀ a ∈ s.awaited, a.2.blocks = false := by
  simp [isBlocked]

theorem State.isLive_iff {state : State} :
    state.isLive ↔ state = .subscribing ∨ state = .subscribed := by
  cases state <;> simp [State.isLive]

theorem State.ne_of_isLive {state : State} (h : state.isLive) :
    state ≠ .offline ∧ state ≠ .fetching := by
  cases state <;> simp_all [State.isLive]

/-- What also holds inside of an input, before the session looks for its next batch. -/
structure Sound (s : Session) : Prop where
  audience : s.audience.Valid
  distinct : (s.queue.map (·.topic)).Nodup
  ids : (s.awaited.map (·.1)).Nodup
  below : ∀ a ∈ s.awaited, a.1 < s.nextId
  offline : s.state = .offline →
    s.awaited = [] ∧ s.queue = [] ∧ s.outputTypes = none ∧ s.parameterTypes = none
  fetching : s.state = .fetching →
    s.queue = [] ∧ ∀ a ∈ s.awaited, a.2 = .outputSchema ∨ a.2 = .parameterSchema
  once : s.state = .fetching → (s.awaited.map (·.2)).Nodup
  live : s.state.isLive → s.outputTypes.isSome ∧ s.parameterTypes.isSome
  noOutput : ∀ a ∈ s.awaited, a.2 = .outputSchema → s.outputTypes = none
  noParameter : ∀ a ∈ s.awaited, a.2 = .parameterSchema → s.parameterTypes = none
  subscribed : s.state = .subscribed → s.isBlocked = false

theorem Sound.awaited_eq (h : s.Sound) {id : Nat} {a b : Awaited} (ha : (id, a) ∈ s.awaited)
    (hb : (id, b) ∈ s.awaited) : a = b :=
  (Prod.mk.inj (List.inj_on_of_nodup_map h.ids ha hb rfl)).2

theorem Sound.id_eq (h : s.Sound) (hf : s.state = .fetching) {i j : Nat} {a : Awaited}
    (hi : (i, a) ∈ s.awaited) (hj : (j, a) ∈ s.awaited) : i = j :=
  (Prod.mk.inj (List.inj_on_of_nodup_map (h.once hf) hi hj rfl)).1

structure Invariant (s : Session) : Prop extends Sound s where
  incomplete : s.state = .fetching → s.outputTypes = none ∨ s.parameterTypes = none
  blocked : s.state = .subscribing → s.isBlocked = true
  drained : s.state = .subscribed → s.queue = []

theorem start_invariant : start.Invariant := by
  constructor
  · constructor <;> simp [start, Audience.empty_valid, State.isLive]
  all_goals simp [start]

/-- Only a schema that is still to come can be answered while the schemas are fetched, and none can
later. -/
theorem Sound.fetching_of_schema (h : s.Sound) {a : Nat × Awaited} (ha : a ∈ s.awaited)
    (hs : a.2 = .outputSchema ∨ a.2 = .parameterSchema) : s.state = .fetching := by
  cases hstate : s.state with
  | fetching => rfl
  | offline => simp [(h.offline hstate).1] at ha
  | subscribing | subscribed =>
    obtain ⟨ho, hp⟩ := h.live (by rw [hstate]; rfl)
    rcases hs with hs | hs
    · simp [h.noOutput a ha hs] at ho
    · simp [h.noParameter a ha hs] at hp

theorem Sound.live_of_other (h : s.Sound) {a : Nat × Awaited} (ha : a ∈ s.awaited)
    (ho : a.2 ≠ .outputSchema) (hp : a.2 ≠ .parameterSchema) : s.state.isLive := by
  cases hstate : s.state with
  | fetching => exact absurd ((h.fetching hstate).2 a ha) (not_or.mpr ⟨ho, hp⟩)
  | offline => simp [(h.offline hstate).1] at ha
  | subscribing | subscribed => rfl

theorem Sound.no_schema (h : s.Sound) (hl : s.state.isLive) :
    ∀ a ∈ s.awaited, a.2 ≠ .outputSchema ∧ a.2 ≠ .parameterSchema := by
  intro a ha
  refine not_or.mp fun hs => ?_
  exact (State.ne_of_isLive hl).2 (h.fetching_of_schema ha hs)

theorem Sound.erase (h : s.Sound) (id : Nat) :
    Sound { s with awaited := Table.erase id s.awaited } := by
  have hsub : (Table.erase id s.awaited).Sublist s.awaited := List.filter_sublist
  have hmem : ∀ a ∈ Table.erase id s.awaited, a ∈ s.awaited := fun a ha => hsub.subset ha
  constructor
  · exact h.audience
  · exact h.distinct
  · exact h.ids.sublist (hsub.map _)
  · exact fun a ha => h.below a (hmem a ha)
  · intro hs
    obtain ⟨ha, hq, hp⟩ := h.offline hs
    exact ⟨by simp [Table.erase, ha], hq, hp⟩
  · exact fun hs => ⟨(h.fetching hs).1, fun a ha => (h.fetching hs).2 a (hmem a ha)⟩
  · exact fun hs => (h.once hs).sublist (hsub.map _)
  · exact h.live
  · exact fun a ha => h.noOutput a (hmem a ha)
  · exact fun a ha => h.noParameter a (hmem a ha)
  · intro hs
    have hb := isBlocked_eq_false_iff.mp (h.subscribed hs)
    exact isBlocked_eq_false_iff.mpr fun a ha => hb a (hmem a ha)

theorem sound_of_live (hl : s.state.isLive) (ha : s.audience.Valid)
    (hd : (s.queue.map (·.topic)).Nodup) (hi : (s.awaited.map (·.1)).Nodup)
    (hb : ∀ a ∈ s.awaited, a.1 < s.nextId) (ho : s.outputTypes.isSome)
    (hp : s.parameterTypes.isSome)
    (hn : ∀ a ∈ s.awaited, a.2 ≠ .outputSchema ∧ a.2 ≠ .parameterSchema)
    (hs : s.state = .subscribed → s.isBlocked = false) : s.Sound where
  audience := ha
  distinct := hd
  ids := hi
  below := hb
  offline h := absurd h (State.ne_of_isLive hl).1
  fetching h := absurd h (State.ne_of_isLive hl).2
  once h := absurd h (State.ne_of_isLive hl).2
  live _ := ⟨ho, hp⟩
  noOutput a h he := absurd he (hn a h).1
  noParameter a h he := absurd he (hn a h).2
  subscribed := hs

/-- New ids are not below the next one. -/
theorem ids_append_nodup {awaited more : Table Nat Awaited} {first : Nat}
    (hi : (awaited.map (·.1)).Nodup) (hb : ∀ a ∈ awaited, a.1 < first)
    (hm : (more.map (·.1)).Nodup) (hf : ∀ a ∈ more, first ≤ a.1) :
    ((awaited ++ more).map (·.1)).Nodup := by
  rw [List.map_append]
  refine List.nodup_append.mpr ⟨hi, hm, ?_⟩
  intro i hold j hnew he
  obtain ⟨a, ha, rfl⟩ := List.mem_map.mp hold
  obtain ⟨b, hb', rfl⟩ := List.mem_map.mp hnew
  have hlow := hb a ha
  have hhigh := hf b hb'
  omega

/-- A batch leaves nothing queued, and an empty batch leaves nothing open. -/
theorem advance_of_ready_invariant (hr : s.Ready) (ha : s.audience.Valid)
    (hi : (s.awaited.map (·.1)).Nodup) (hb : ∀ a ∈ s.awaited, a.1 < s.nextId)
    (ho : s.outputTypes.isSome) (hp : s.parameterTypes.isSome) : s.advance.1.Invariant := by
  have hopen := isBlocked_eq_false_iff.mp hr.2.2
  have hschema : ∀ a ∈ s.awaited, a.2 ≠ .outputSchema ∧ a.2 ≠ .parameterSchema := by
    intro a ha
    have := hopen a ha
    constructor <;> intro he <;> simp [he, Awaited.blocks] at this
  by_cases hq : s.queue = []
  · rw [advance_of_empty hr hq]
    refine ⟨sound_of_live rfl ha ?_ hi hb ho hp hschema fun _ => hr.2.2, ?_, ?_, fun _ => hq⟩
    · simp [hq]
    · simp
    · simp
  · rw [advance_of_queue hr hq]
    refine ⟨sound_of_live rfl ha (by simp) ?_ ?_ ho hp ?_ (by simp), by simp, ?_, by simp⟩
    · refine ids_append_nodup hi hb ?_ ?_
      · simpa [Function.comp_def] using numbered_ids_nodup s.nextId s.queue
      · intro a hm
        obtain ⟨p, hp', rfl⟩ := List.mem_map.mp hm
        exact (numbered_bounds hp').1
    · intro a hm
      rcases List.mem_append.mp hm with hm | hm
      · exact Nat.lt_add_right _ (hb a hm)
      · obtain ⟨p, hp', rfl⟩ := List.mem_map.mp hm
        exact (numbered_bounds hp').2
    · intro a hm
      rcases List.mem_append.mp hm with hm | hm
      · exact hschema a hm
      · obtain ⟨p, _, rfl⟩ := List.mem_map.mp hm
        simp
    · intro _
      obtain ⟨demand, demands, hcons⟩ := List.exists_cons_of_ne_nil hq
      simp [isBlocked, hcons, numbered, Awaited.blocks]

theorem Sound.advance_invariant (h : s.Sound) (hl : s.state.isLive) : s.advance.1.Invariant := by
  obtain ⟨ho, hp⟩ := h.live hl
  by_cases hr : s.Ready
  · exact advance_of_ready_invariant hr h.audience h.ids h.below ho hp
  · rw [advance_of_not_ready hr]
    have ⟨hoff, hfetch⟩ := State.ne_of_isLive hl
    have hb : s.isBlocked = true := by
      by_contra hb
      exact hr ⟨hoff, fun hs => absurd hs hfetch, by simpa using hb⟩
    refine ⟨h, fun hs => absurd hs hfetch, fun _ => hb, fun hs => ?_⟩
    rw [h.subscribed hs] at hb
    cases hb

theorem Sound.awaited_eq_nil (h : s.Sound) (hf : s.state = .fetching) (ho : s.outputTypes ≠ none)
    (hp : s.parameterTypes ≠ none) : s.awaited = [] := by
  apply List.eq_nil_iff_forall_not_mem.mpr
  intro a ha
  rcases (h.fetching hf).2 a ha with hs | hs
  · exact ho (h.noOutput a ha hs)
  · exact hp (h.noParameter a ha hs)

theorem Sound.finishFetching_invariant (h : s.Sound) (hf : s.state = .fetching) :
    s.finishFetching.1.Invariant := by
  unfold finishFetching
  split
  next hc =>
    obtain ⟨_, hb, ho, hp⟩ := hc
    have hr : s.Ready := ⟨by simp [hf], fun _ => ⟨ho, hp⟩, by simpa using hb⟩
    exact advance_of_ready_invariant (s := { s with queue := _ }) hr h.audience h.ids h.below ho hp
  next hc =>
    refine ⟨h, ?_, by simp [hf], by simp [hf]⟩
    intro _
    by_contra hn
    obtain ⟨ho, hp⟩ := not_or.mp hn
    have hempty := h.awaited_eq_nil hf ho hp
    refine hc ⟨hf, ?_, Option.isSome_iff_ne_none.mpr ho, Option.isSome_iff_ne_none.mpr hp⟩
    simp [isBlocked, hempty]

def planned (queue : List Demand) (demand : Demand) : List Demand :=
  match queue.find? (·.topic = demand.topic) with
  | none => queue ++ [demand]
  | some queued =>
    if queued.subscribe = demand.subscribe then queue
    else queue.filter (·.topic ≠ demand.topic)

theorem plan_eq (s : Session) (demand : Demand) :
    s.plan demand = { s with queue := planned s.queue demand } := by
  unfold plan planned
  cases s.queue.find? (·.topic = demand.topic) with
  | none => rfl
  | some queued => dsimp only; split <;> rfl

section Planned

variable {queue : List Demand} {queued demand : Demand}

theorem planned_new (h : demand.topic ∉ queue.map (·.topic)) :
    planned queue demand = queue ++ [demand] := by
  have hfind : queue.find? (·.topic = demand.topic) = none := by
    refine List.find?_eq_none.mpr fun queued hm ht => h ?_
    exact List.mem_map.mpr ⟨queued, hm, by simpa using ht⟩
  rw [planned, hfind]

theorem planned_opposite (hn : (queue.map (·.topic)).Nodup) (hm : queued ∈ queue)
    (ht : queued.topic = demand.topic) (hs : queued.subscribe ≠ demand.subscribe) :
    planned queue demand = queue.filter (·.topic ≠ demand.topic) := by
  cases hf : queue.find? (·.topic = demand.topic) with
  | none => exact absurd (decide_eq_true ht) (List.find?_eq_none.mp hf queued hm)
  | some found =>
    have hfound : found.topic = demand.topic := by simpa using List.find?_some hf
    obtain rfl := List.inj_on_of_nodup_map hn (List.mem_of_find?_eq_some hf) hm
      (hfound.trans ht.symm)
    rw [planned, hf]
    exact if_neg hs

end Planned

theorem planned_nodup {queue : List Demand} (h : (queue.map (·.topic)).Nodup) (demand : Demand) :
    ((planned queue demand).map (·.topic)).Nodup := by
  unfold planned
  split
  next hn =>
    rw [List.map_append]
    refine List.nodup_append.mpr ⟨h, by simp, ?_⟩
    intro topic ht other ho he
    obtain ⟨queued, hq, rfl⟩ := List.mem_map.mp ht
    rw [List.map_singleton, List.mem_singleton] at ho
    have := List.find?_eq_none.mp hn queued hq
    exact this (by simp [he, ho])
  next =>
    split
    · exact h
    · exact h.sublist (List.filter_sublist.map _)

theorem Sound.with_queue (h : s.Sound) (hl : s.state.isLive) {queue : List Demand}
    (hd : (queue.map (·.topic)).Nodup) : Sound { s with queue } := by
  have ⟨hoff, hfetch⟩ := State.ne_of_isLive hl
  exact { h with
    distinct := hd
    offline := fun hs => absurd hs hoff
    fetching := fun hs => absurd hs hfetch }

theorem Invariant.demand_invariant (h : s.Invariant) (change : Demand) :
    (s.demand change).1.Invariant := by
  unfold demand
  split
  next hl =>
    rw [plan_eq]
    exact (h.toSound.with_queue hl (planned_nodup h.distinct change)).advance_invariant hl
  next => exact h

theorem Invariant.update_invariant (h : s.Invariant) (tag : Nat) (path : String) (value : Json) :
    (s.update tag path value).1.Invariant := by
  unfold update
  split
  next hl =>
    obtain ⟨ho, hp⟩ := h.live hl
    have hb : (s.send (.update path value) (.update tag)).1.isBlocked = s.isBlocked := by
      simp [send, isBlocked, Awaited.blocks]
    have hsound : (s.send (.update path value) (.update tag)).1.Sound := by
      refine sound_of_live hl h.audience h.distinct ?_ ?_ ho hp ?_
        fun hs => hb.trans (h.subscribed hs)
      · exact ids_append_nodup h.ids h.below (List.nodup_singleton _) (by simp)
      · intro a ha
        rcases List.mem_append.mp ha with ha | ha
        · exact Nat.lt_succ_of_lt (h.below a ha)
        · rw [List.mem_singleton.mp ha]
          exact Nat.lt_succ_self _
      · intro a ha
        rcases List.mem_append.mp ha with ha | ha
        · exact h.no_schema hl a ha
        · rw [List.mem_singleton.mp ha]
          simp
    exact ⟨hsound, h.incomplete, fun hs => hb.trans (h.blocked hs), h.drained⟩
  next => exact h

theorem Invariant.with_images (h : s.Invariant) (images : Pairing) :
    Invariant { s with images } :=
  ⟨⟨h.audience, h.distinct, h.ids, h.below, h.offline, h.fetching, h.once, h.live, h.noOutput,
    h.noParameter, h.subscribed⟩, h.incomplete, h.blocked, h.drained⟩

theorem Invariant.with_audience (h : s.Invariant) {audience : Audience} (ha : audience.Valid) :
    Invariant { s with audience } :=
  ⟨⟨ha, h.distinct, h.ids, h.below, h.offline, h.fetching, h.once, h.live, h.noOutput,
    h.noParameter, h.subscribed⟩, h.incomplete, h.blocked, h.drained⟩

theorem onSocket_connected (h : s.state = .offline) :
    s.onSocket .connected =
      ({ s with
          state := .fetching
          nextId := s.nextId + 2
          awaited := s.awaited ++ [(s.nextId, .outputSchema), (s.nextId + 1, .parameterSchema)] },
        { requests := [⟨s.nextId, .outputSchema⟩, ⟨s.nextId + 1, .parameterSchema⟩]
          entered := [.fetching] }) := by
  have he : s.entering .fetching = { entered := [.fetching] } := by simp [entering, h]
  simp only [onSocket, h, if_true, enter_eq, he, andThen, send, List.append_assoc]
  rfl

/-- A lost connection leaves only the members behind. -/
theorem onSocket_lost {status : Status} (hs : status ≠ .connected) (h : s.state ≠ .offline) :
    s.onSocket status =
      ({ s with
          state := .offline, awaited := [], queue := [], images := .empty, outputTypes := none,
          parameterTypes := none },
        { entered := [.offline] }) := by
  simp [onSocket, hs, h, enter]

theorem onSocket_same {status : Status} (h : status = .connected ↔ s.state ≠ .offline) :
    s.onSocket status = (s, .none) := by
  by_cases hs : status = .connected
  · simp [onSocket, hs, h.mp hs]
  · have ho : s.state = .offline := by
      by_contra ho
      exact hs (h.mpr ho)
    simp [onSocket, hs, ho]

/-- The session comes online, nothing changes for it, or it loses the connection. -/
theorem onSocket_cases (s : Session) (status : Status) :
    status = .connected ∧ s.state = .offline ∨
      s.onSocket status = (s, .none) ∧ (status = .connected ↔ s.state ≠ .offline) ∨
      status ≠ .connected ∧ s.state ≠ .offline := by
  by_cases hs : status = .connected <;> by_cases ho : s.state = .offline
  · exact Or.inl ⟨hs, ho⟩
  · have hiff : status = .connected ↔ s.state ≠ .offline := by simp [hs, ho]
    exact Or.inr (Or.inl ⟨onSocket_same hiff, hiff⟩)
  · have hiff : status = .connected ↔ s.state ≠ .offline := by simp [hs, ho]
    exact Or.inr (Or.inl ⟨onSocket_same hiff, hiff⟩)
  · exact Or.inr (Or.inr ⟨hs, ho⟩)

theorem Invariant.onSocket_invariant (h : s.Invariant) (status : Status) :
    (s.onSocket status).1.Invariant := by
  rcases s.onSocket_cases status with ⟨rfl, ho⟩ | ⟨hsame, _⟩ | ⟨hs, ho⟩
  · obtain ⟨ha, hq, hot, hpt⟩ := h.offline ho
    rw [onSocket_connected ho, ha]
    refine ⟨⟨h.audience, ?_, ?_, ?_, ?_, ?_, ?_, ?_, ?_, ?_, ?_⟩, ?_, ?_, ?_⟩ <;>
      simp [hq, hot, hpt, State.isLive]
  · rwa [hsame]
  · rw [onSocket_lost hs ho]
    refine ⟨⟨h.audience, ?_, ?_, ?_, ?_, ?_, ?_, ?_, ?_, ?_, ?_⟩, ?_, ?_, ?_⟩ <;>
      simp [State.isLive]

theorem onSocket_calls (s : Session) (status : Status) : (s.onSocket status).2.calls = [] := by
  rcases s.onSocket_cases status with ⟨rfl, ho⟩ | ⟨hsame, _⟩ | ⟨hs, ho⟩
  · rw [onSocket_connected ho]
  · rw [hsame]
    rfl
  · rw [onSocket_lost hs ho]

theorem onSocket_abort (s : Session) (status : Status) : (s.onSocket status).2.abort = false := by
  rcases s.onSocket_cases status with ⟨rfl, ho⟩ | ⟨hsame, _⟩ | ⟨hs, ho⟩
  · rw [onSocket_connected ho]
  · rw [hsame]
    rfl
  · rw [onSocket_lost hs ho]

/-- A frame changes nothing but the image halves, and says nothing. -/
theorem onFrame_quiet (s : Session) (bytes : List UInt8) :
    ∃ images calls, s.onFrame bytes = ({ s with images }, { calls := calls }) := by
  unfold onFrame
  split
  · exact ⟨s.images, [], rfl⟩
  · exact ⟨_, _, rfl⟩

theorem onPush_quiet (s : Session) (push : Push) :
    ∃ images calls, s.onPush push = ({ s with images }, { calls := calls }) := by
  cases push with
  | parameter path value => exact ⟨s.images, _, rfl⟩
  | outputs cycler readings imageId =>
    cases imageId with
    | none => exact ⟨s.images, _, rfl⟩
    | some id => exact ⟨_, _, rfl⟩

/-- Once a schema is answered, no other request for it is open. -/
theorem Sound.ne_of_erase (h : s.Sound) (hf : s.state = .fetching) {id : Nat} {awaited : Awaited}
    (hm : (id, awaited) ∈ s.awaited) : ∀ a ∈ Table.erase id s.awaited, a.2 ≠ awaited := by
  rintro ⟨other, a⟩ ha rfl
  obtain ⟨ha, hk⟩ := List.mem_filter.mp ha
  simp [h.id_eq hf ha hm] at hk

theorem Sound.erase_output (h : s.Sound) {id : Nat} (hm : (id, .outputSchema) ∈ s.awaited)
    (types : Option PathTypes) :
    Sound { s with awaited := Table.erase id s.awaited, outputTypes := types } := by
  have hf := h.fetching_of_schema hm (Or.inl rfl)
  have he := h.erase id
  exact { he with
    offline := fun hs => absurd hs (by simp [hf])
    live := fun hs => absurd hf (State.ne_of_isLive hs).2
    noOutput := fun a ha hs => absurd hs (h.ne_of_erase hf hm a ha) }

theorem Sound.erase_parameter (h : s.Sound) {id : Nat} (hm : (id, .parameterSchema) ∈ s.awaited)
    (types : Option PathTypes) :
    Sound { s with awaited := Table.erase id s.awaited, parameterTypes := types } := by
  have hf := h.fetching_of_schema hm (Or.inr rfl)
  have he := h.erase id
  exact { he with
    offline := fun hs => absurd hs (by simp [hf])
    live := fun hs => absurd hf (State.ne_of_isLive hs).2
    noParameter := fun a ha hs => absurd hs (h.ne_of_erase hf hm a ha) }

inductive Replied (s : Session) (reply : Reply) : Session × Effects → Prop where
  | unmatched (h : ∀ a, (reply.id, a) ∉ s.awaited) :
      Replied s reply (s, { faults := [.unmatchedResponse reply.id] })
  | output (h : (reply.id, .outputSchema) ∈ s.awaited) :
      Replied s reply (andThen
        ({ s with
            awaited := Table.erase reply.id s.awaited
            outputTypes := (schemaOf reply .outputSchema "output_hierarchy").toOption },
          schemaEffects (schemaOf reply .outputSchema "output_hierarchy")) finishFetching)
  | parameter (h : (reply.id, .parameterSchema) ∈ s.awaited) :
      Replied s reply (andThen
        ({ s with
            awaited := Table.erase reply.id s.awaited
            parameterTypes := (schemaOf reply .parameterSchema "parameter_hierarchy").toOption },
          schemaEffects (schemaOf reply .parameterSchema "parameter_hierarchy")) finishFetching)
  | other {a calls} (h : (reply.id, a) ∈ s.awaited) (ho : a ≠ .outputSchema)
      (hp : a ≠ .parameterSchema) :
      Replied s reply (andThen
        ({ s with awaited := Table.erase reply.id s.awaited }, { calls := calls }) advance)

theorem onReply_replied (s : Session) (reply : Reply) : s.Replied reply (s.onReply reply) := by
  cases hget : Table.get? reply.id s.awaited with
  | none =>
    rw [onReply, hget]
    exact .unmatched (Table.not_mem_of_get? hget)
  | some awaited =>
    have hm := Table.mem_of_get? hget
    rw [onReply, hget]
    cases awaited with
    | outputSchema => exact .output hm
    | parameterSchema => exact .parameter hm
    | demand demand => exact .other hm (by simp) (by simp)
    | update tag => exact .other hm (by simp) (by simp)

theorem onText_cases (s : Session) (text : String) :
    (∃ fault, Message.read text = .error fault ∧ s.onText text = (s, { faults := [fault] })) ∨
      (∃ reply, Message.read text = .ok (.reply reply) ∧ s.onText text = s.onReply reply) ∨
      ∃ push images calls, Message.read text = .ok (.push push) ∧
        s.onText text = ({ s with images }, { calls := calls }) := by
  unfold onText
  cases Message.read text with
  | error fault => exact Or.inl ⟨fault, rfl, rfl⟩
  | ok message =>
    cases message with
    | reply reply => exact Or.inr (Or.inl ⟨reply, rfl, rfl⟩)
    | push push =>
      obtain ⟨images, calls, hp⟩ := onPush_quiet s push
      exact Or.inr (Or.inr ⟨push, images, calls, rfl, hp⟩)

theorem Replied.invariant {reply : Reply} {result : Session × Effects}
    (hr : s.Replied reply result) (h : s.Invariant) : result.1.Invariant := by
  cases hr with
  | unmatched => exact h
  | output hm =>
    exact (h.erase_output hm _).finishFetching_invariant (h.fetching_of_schema hm (Or.inl rfl))
  | parameter hm =>
    exact (h.erase_parameter hm _).finishFetching_invariant (h.fetching_of_schema hm (Or.inr rfl))
  | other hm ho hp => exact (h.erase reply.id).advance_invariant (h.live_of_other hm ho hp)

theorem Invariant.onText_invariant (h : s.Invariant) (text : String) :
    (s.onText text).1.Invariant := by
  rcases onText_cases s text with ⟨fault, _, ht⟩ | ⟨reply, _, ht⟩ | ⟨push, images, calls, _, ht⟩
  · rwa [ht]
  · rw [ht]
    exact (onReply_replied s reply).invariant h
  · rw [ht]
    exact h.with_images images

theorem respond_preserves_invariant (h : s.Invariant) (input : Input) :
    (s.respond input).1.Invariant := by
  cases input with
  | socket status => exact h.onSocket_invariant status
  | demand change => exact h.demand_invariant change
  | update tag path value => exact h.update_invariant tag path value
  | text text => exact h.onText_invariant text
  | frame bytes =>
    obtain ⟨images, calls, hf⟩ := onFrame_quiet s bytes
    simp only [respond, hf]
    exact h.with_images images
  | join topic id => exact h.with_audience (Audience.join_valid h.audience topic id)
  | leave topic id => exact h.with_audience (Audience.leave_valid h.audience topic id)

theorem feed_preserves_invariant (h : s.Invariant) (inputs : List Input) :
    (s.feed inputs).1.Invariant := by
  induction inputs generalizing s with
  | nil => exact h
  | cons input inputs ih => exact ih (respond_preserves_invariant h input)

/-! What an input says of the connection. -/

@[simp] theorem advance_offline_iff : s.advance.1.state = .offline ↔ s.state = .offline := by
  by_cases hr : s.Ready
  · by_cases hq : s.queue = []
    · simp [advance_of_empty hr hq, hr.1]
    · simp [advance_of_queue hr hq, hr.1]
  · rw [advance_of_not_ready hr]

@[simp] theorem finishFetching_offline_iff :
    s.finishFetching.1.state = .offline ↔ s.state = .offline := by
  unfold finishFetching
  split
  · rw [advance_offline_iff]
  · rfl

theorem Replied.offline_iff {reply : Reply} {result : Session × Effects}
    (hr : s.Replied reply result) : result.1.state = .offline ↔ s.state = .offline := by
  cases hr <;> simp

theorem onText_offline_iff (text : String) :
    (s.onText text).1.state = .offline ↔ s.state = .offline := by
  rcases onText_cases s text with ⟨fault, _, ht⟩ | ⟨reply, _, ht⟩ | ⟨push, images, calls, _, ht⟩
  · rw [ht]
  · rw [ht]
    exact (onReply_replied s reply).offline_iff
  · rw [ht]

theorem demand_offline_iff (change : Demand) :
    (s.demand change).1.state = .offline ↔ s.state = .offline := by
  unfold demand
  split
  · rw [advance_offline_iff, plan_eq]
  · rfl

theorem update_offline_iff (tag : Nat) (path : String) (value : Json) :
    (s.update tag path value).1.state = .offline ↔ s.state = .offline := by
  unfold update
  split <;> rfl

theorem onSocket_offline_iff (status : Status) :
    (s.onSocket status).1.state = .offline ↔ status ≠ .connected := by
  rcases s.onSocket_cases status with ⟨rfl, ho⟩ | ⟨hsame, hiff⟩ | ⟨hs, ho⟩
  · simp [onSocket_connected ho]
  · rw [hsame, ne_eq, hiff, not_not]
  · simp [onSocket_lost hs ho, hs]

/-- Only the socket takes a session online and offline. -/
theorem respond_offline_iff (input : Input) (hi : ∀ status, input ≠ .socket status) :
    (s.respond input).1.state = .offline ↔ s.state = .offline := by
  cases input with
  | socket status => exact absurd rfl (hi status)
  | demand change => exact demand_offline_iff change
  | update tag path value => exact update_offline_iff tag path value
  | text text => exact onText_offline_iff text
  | frame bytes =>
    obtain ⟨images, calls, hf⟩ := onFrame_quiet s bytes
    simp only [respond, hf]
  | join topic id => rfl
  | leave topic id => rfl

theorem advance_offline (h : s.state = .offline) : s.advance = (s, .none) :=
  advance_of_not_ready fun hr => hr.1 h

theorem finishFetching_offline (h : s.state = .offline) : s.finishFetching = (s, .none) := by
  simp [finishFetching, h]

@[simp] theorem schemaEffects_requests (types : Except Fault PathTypes) :
    (schemaEffects types).requests = [] := by
  cases types <;> rfl

theorem schemaEffects_calls (types : Except Fault PathTypes) :
    (schemaEffects types).calls = [] := by
  cases types <;> rfl

theorem Replied.offline_requests {reply : Reply} {result : Session × Effects}
    (hr : s.Replied reply result) (h : s.state = .offline) : result.2.requests = [] := by
  cases hr <;> simp [advance_offline, finishFetching_offline, h]

theorem onText_offline_requests (h : s.state = .offline) (text : String) :
    (s.onText text).2.requests = [] := by
  rcases onText_cases s text with ⟨fault, _, ht⟩ | ⟨reply, _, ht⟩ | ⟨push, images, calls, _, ht⟩
  · rw [ht]
  · rw [ht]
    exact (onReply_replied s reply).offline_requests h
  · rw [ht]

theorem respond_offline_requests {input : Input} (ho : (s.respond input).1.state = .offline) :
    (s.respond input).2.requests = [] := by
  cases input with
  | socket status =>
    have hs : status ≠ .connected := (onSocket_offline_iff status).mp ho
    by_cases hs' : s.state = .offline
    · simp [respond, onSocket, hs, hs', Effects.none]
    · simp [respond, onSocket_lost hs hs']
  | demand change =>
    have hs : s.state = .offline := (demand_offline_iff change).mp ho
    simp [respond, demand, hs, State.isLive]
  | update tag path value =>
    have hs : s.state = .offline := (update_offline_iff tag path value).mp ho
    simp [respond, update, hs, State.isLive]
  | text text => exact onText_offline_requests ((onText_offline_iff text).mp ho) text
  | frame bytes =>
    obtain ⟨images, calls, hf⟩ := onFrame_quiet s bytes
    simp only [respond, hf]
  | join topic id => rfl
  | leave topic id => rfl

end Session
end Downlink
