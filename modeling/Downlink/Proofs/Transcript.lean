import Downlink.Wire.Incoming
import Downlink.Wire.Request
import Mathlib.Data.List.Induction
import Mathlib.Logic.Function.Basic

/-!
What crosses one socket: the requests that were said and the replies that were heard, in order. From
that alone follow the requests that wait for their reply, and for each topic the demand that stands.
-/
namespace Downlink

inductive Word where
  | said (request : Request)
  | heard (reply : Reply)
  deriving DecidableEq, Repr

def Query.topic? : Query → Option Topic
  | .demand change => some change.topic
  | _ => none

theorem Query.topic?_eq_some {query : Query} {topic : Topic} :
    query.topic? = some topic ↔ ∃ subscribe, query = .demand ⟨subscribe, topic⟩ := by
  cases query with
  | demand change =>
    obtain ⟨subscribe, other⟩ := change
    simp [topic?]
  | outputSchema | parameterSchema | update => simp [topic?]

def Request.topic? (request : Request) : Option Topic := request.query.topic?

theorem Request.topic?_eq_some {request : Request} {topic : Topic} :
    request.topic? = some topic ↔ ∃ subscribe, request.query = .demand ⟨subscribe, topic⟩ :=
  Query.topic?_eq_some

/-- The requests of a socket: those without a reply by their ids, and the others with the reply. -/
structure Ledger where
  unanswered : Table Nat Query
  answered : List (Query × Reply)

namespace Ledger

def empty : Ledger := ⟨[], []⟩

/-- A reply belongs to the request of its id; without one it belongs to nothing. -/
def take (ledger : Ledger) : Word → Ledger
  | .said request =>
    { ledger with unanswered := ledger.unanswered ++ [(request.id, request.query)] }
  | .heard reply =>
    { unanswered := Table.erase reply.id ledger.unanswered
      answered := ledger.answered ++
        (ledger.unanswered.filter (·.1 = reply.id)).map fun row => (row.2, reply) }

def of (words : List Word) : Ledger := words.foldl take empty

def openFor (ledger : Ledger) (topic : Topic) : Table Nat Query :=
  ledger.unanswered.filter (·.2.topic? = some topic)

@[simp] theorem of_append_singleton (words : List Word) (word : Word) :
    of (words ++ [word]) = (of words).take word := by
  simp [of]

theorem of_said (words : List Word) (requests : List Request) :
    of (words ++ requests.map .said) =
      ⟨(of words).unanswered ++ requests.map fun request => (request.id, request.query),
        (of words).answered⟩ := by
  induction requests using List.reverseRecOn with
  | nil => simp
  | append_singleton requests request ih =>
    rw [List.map_append, List.map_singleton, ← List.append_assoc, of_append_singleton, ih]
    simp [take]

theorem mem_unanswered_take (ledger : Ledger) (word : Word) (id : Nat) (query : Query) :
    (id, query) ∈ (ledger.take word).unanswered ↔
      (id, query) ∈ ledger.unanswered ∧ (∀ reply, word = .heard reply → reply.id ≠ id) ∨
        word = .said ⟨id, query⟩ := by
  cases word with
  | said request =>
    obtain ⟨other, asked⟩ := request
    simp [take, eq_comm]
  | heard reply => simp [take, Table.erase, ne_comm]

end Ledger

def directions (topic : Topic) (words : List Word) : List Bool :=
  words.filterMap fun
    | .said ⟨_, .demand demand⟩ => if demand.topic = topic then some demand.subscribe else none
    | _ => none

/-- Whether the last demand for a topic was to subscribe. -/
def wired (words : List Word) (topic : Topic) : Bool :=
  ((directions topic words).getLast?).getD false

def Alternates (first : Bool) : List Bool → Prop
  | [] => True
  | direction :: rest => direction = first ∧ Alternates (!first) rest

instance (first : Bool) (directions : List Bool) : Decidable (Alternates first directions) := by
  induction directions generalizing first with
  | nil => exact .isTrue trivial
  | cons direction rest ih => exact inferInstanceAs (Decidable (_ ∧ _))

theorem alternates_append_singleton (first : Bool) (directions : List Bool) (last : Bool) :
    Alternates first (directions ++ [last]) ↔
      Alternates first directions ∧ last = !(directions.getLast?.getD !first) := by
  induction directions generalizing first with
  | nil => simp [Alternates]
  | cons direction rest ih =>
    rw [List.cons_append, Alternates, Alternates, ih, and_assoc]
    refine and_congr_right fun hd => and_congr_right fun _ => ?_
    cases rest with
    | nil => simp [hd]
    | cons next rest => simp [List.getLast?_cons]

variable {words : List Word} {topic : Topic}

@[simp] theorem directions_heard (topic : Topic) (words : List Word) (reply : Reply) :
    directions topic (words ++ [.heard reply]) = directions topic words := by
  simp [directions]

@[simp] theorem wired_heard (words : List Word) (reply : Reply) :
    wired (words ++ [.heard reply]) = wired words := by
  funext topic
  simp [wired]

theorem directions_said (topic : Topic) (words : List Word) (request : Request) :
    directions topic (words ++ [.said request]) =
      match request.query with
      | .demand demand =>
        if demand.topic = topic then directions topic words ++ [demand.subscribe]
        else directions topic words
      | _ => directions topic words := by
  obtain ⟨id, query⟩ := request
  cases query with
  | demand demand => by_cases ht : demand.topic = topic <;> simp [directions, ht]
  | _ => simp [directions]

theorem wired_said_demand (words : List Word) (id : Nat) (demand : Demand) :
    wired (words ++ [.said ⟨id, .demand demand⟩]) demand.topic = demand.subscribe := by
  simp [wired, directions_said]

theorem wired_said_of_ne {request : Request} (h : request.topic? ≠ some topic) :
    wired (words ++ [.said request]) topic = wired words topic := by
  obtain ⟨id, query⟩ := request
  cases query with
  | demand demand =>
    have hne : demand.topic ≠ topic := by simpa [Request.topic?, Query.topic?] using h
    simp [wired, directions_said, hne]
  | _ => simp [wired, directions_said]

theorem wired_said_all_of_ne {requests : List Request}
    (h : ∀ request ∈ requests, request.topic? ≠ some topic) :
    wired (words ++ requests.map .said) topic = wired words topic := by
  induction requests generalizing words with
  | nil => simp
  | cons request requests ih =>
    rw [List.map_cons, List.append_cons, ih fun r hr => h r (List.mem_cons_of_mem _ hr)]
    exact wired_said_of_ne (h request List.mem_cons_self)

theorem topic?_ne_of_nodup {request other : Request} {requests : List Request}
    (hn : ((request :: requests).filterMap Request.topic?).Nodup) (ho : other ∈ requests)
    (ht : other.topic? = some topic) : request.topic? ≠ some topic := by
  intro hr
  rw [List.filterMap_cons_some hr] at hn
  exact (List.nodup_cons.mp hn).1 (List.mem_filterMap.mpr ⟨other, ho, ht⟩)

/-- Where a batch has one demand for a topic, that demand stands afterwards. -/
theorem wired_said_all_of_mem {requests : List Request}
    (hn : (requests.filterMap Request.topic?).Nodup) {id : Nat} {demand : Demand}
    (hm : ⟨id, .demand demand⟩ ∈ requests) :
    wired (words ++ requests.map .said) demand.topic = demand.subscribe := by
  induction requests generalizing words with
  | nil => cases hm
  | cons request requests ih =>
    rw [List.map_cons, List.append_cons]
    rcases List.mem_cons.mp hm with rfl | hm
    · rw [wired_said_all_of_ne, wired_said_demand]
      intro other ho ht
      exact topic?_ne_of_nodup hn ho ht rfl
    · exact ih (hn.sublist ((List.sublist_cons_self _ _).filterMap _)) hm

theorem Ledger.openFor_said (ledger : Ledger) (request : Request) (topic : Topic) :
    (ledger.take (.said request)).openFor topic =
      ledger.openFor topic ++
        if request.topic? = some topic then [(request.id, request.query)] else [] := by
  unfold Request.topic?
  by_cases ht : request.query.topic? = some topic <;> simp [openFor, take, ht]

theorem Ledger.openFor_heard (ledger : Ledger) (reply : Reply) (topic : Topic) :
    ((ledger.take (.heard reply)).openFor topic).Sublist (ledger.openFor topic) :=
  List.filter_sublist.filter _

/-- Subscribing and unsubscribing take turns, and no demand overtakes another one for its topic. -/
structure Orderly (words : List Word) : Prop where
  alternates : ∀ topic, Alternates true (directions topic words)
  single : ∀ earlier, earlier <+: words → ∀ topic, ((Ledger.of earlier).openFor topic).length ≤ 1

theorem orderly_nil : Orderly [] where
  alternates _ := trivial
  single earlier he topic := by
    rw [List.prefix_nil.mp he]
    exact Nat.zero_le 1

theorem Orderly.heard (h : Orderly words) (reply : Reply) : Orderly (words ++ [.heard reply]) where
  alternates topic := by
    rw [directions_heard]
    exact h.alternates topic
  single earlier he topic := by
    rcases List.prefix_concat_iff.mp he with rfl | he
    · rw [Ledger.of_append_singleton]
      exact Nat.le_trans (Ledger.openFor_heard _ reply topic).length_le
        (h.single words List.prefix_rfl topic)
    · exact h.single earlier he topic

/-- A demand may be said if it changes what stands and no other one for its topic is open. -/
def Allowed (words : List Word) (request : Request) : Prop :=
  ∀ demand, request.query = .demand demand →
    demand.subscribe = !wired words demand.topic ∧
      (Ledger.of words).openFor demand.topic = []

theorem Orderly.said (h : Orderly words) {request : Request} (ha : Allowed words request) :
    Orderly (words ++ [.said request]) where
  alternates topic := by
    rw [directions_said]
    split
    next demand hd =>
      split
      next ht =>
        subst ht
        exact (alternates_append_singleton ..).mpr ⟨h.alternates _, (ha demand hd).1⟩
      next => exact h.alternates topic
    next => exact h.alternates topic
  single earlier he topic := by
    rcases List.prefix_concat_iff.mp he with rfl | he
    · rw [Ledger.of_append_singleton, Ledger.openFor_said]
      split
      next ht =>
        obtain ⟨subscribe, hq⟩ := Request.topic?_eq_some.mp ht
        rw [(ha _ hq).2]
        exact Nat.le_refl 1
      next =>
        rw [List.append_nil]
        exact h.single words List.prefix_rfl topic
    · exact h.single earlier he topic

theorem Orderly.said_all (h : Orderly words) {requests : List Request}
    (hn : (requests.filterMap Request.topic?).Nodup)
    (ha : ∀ request ∈ requests, Allowed words request) :
    Orderly (words ++ requests.map .said) := by
  induction requests generalizing words with
  | nil => simpa using h
  | cons request requests ih =>
    rw [List.map_cons, List.append_cons]
    refine ih (h.said (ha request List.mem_cons_self))
      (hn.sublist ((List.sublist_cons_self _ _).filterMap _)) ?_
    intro other ho demand hd
    obtain ⟨hw, hopen⟩ := ha other (List.mem_cons_of_mem _ ho) demand hd
    have hne : request.topic? ≠ some demand.topic :=
      topic?_ne_of_nodup hn ho (Request.topic?_eq_some.mpr ⟨demand.subscribe, hd⟩)
    constructor
    · rwa [wired_said_of_ne hne]
    · rw [Ledger.of_append_singleton, Ledger.openFor_said, hopen, if_neg hne, List.append_nil]

def Silent (words : List Word) : Prop := ∀ request, .said request ∉ words

theorem Silent.append (hs : Silent words) {more : List Word} (hm : Silent more) :
    Silent (words ++ more) := by
  intro request hr
  rcases List.mem_append.mp hr with hr | hr
  · exact hs request hr
  · exact hm request hr

theorem Silent.ledger (hs : Silent words) : Ledger.of words = .empty := by
  induction words using List.reverseRecOn with
  | nil => rfl
  | append_singleton words word ih =>
    cases word with
    | said request => exact absurd (by simp) (hs request)
    | heard reply =>
      rw [Ledger.of_append_singleton, ih fun request hr => hs request (List.mem_append_left _ hr)]
      rfl

theorem Silent.wired (hs : Silent words) (topic : Topic) : wired words topic = false := by
  have hd : directions topic words = [] := by
    refine List.filterMap_eq_nil_iff.mpr fun word hw => ?_
    cases word with
    | said request => exact absurd hw (hs request)
    | heard reply => rfl
  rw [Downlink.wired, hd]
  rfl

end Downlink
