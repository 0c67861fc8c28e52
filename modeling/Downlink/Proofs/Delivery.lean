import Downlink.Proofs.Members

/-!
What members are handed. From joining to leaving, a member receives exactly the values that the
pushes carry for its topic, in order, and no other ones, over however many connections.
-/
namespace Downlink

def Reading.IsOf (reading : Reading) (cycler : String) (topic : OutputTopic) : Prop :=
  cycler = topic.cycler ∧ reading.feed = .ofTopic topic

instance (reading : Reading) (cycler : String) (topic : OutputTopic) :
    Decidable (reading.IsOf cycler topic) := inferInstanceAs (Decidable (_ ∧ _))

def Push.values (push : Push) (topic : Topic) : List Json :=
  match push, topic with
  | .outputs cycler readings _, .output topic =>
    (readings.filter (·.IsOf cycler topic)).map (·.value)
  | .parameter other value, .parameter path => if other = path then [value] else []
  | _, _ => []

theorem Reading.isOf_iff {reading : Reading} {cycler : String} {topic : OutputTopic} :
    reading.IsOf cycler topic ↔ reading.feed.topic? cycler = some topic := by
  obtain ⟨other, kind, path⟩ := topic
  obtain ⟨feed, value⟩ := reading
  cases feed <;> cases kind <;> simp [IsOf, Feed.topic?, Feed.ofTopic]

/-- The member stands under this topic alone, or under none. -/
def Audience.Places (audience : Audience) (id : Nat) (place : Option Topic) : Prop :=
  ∀ topic, (audience.ids topic).count id = if place = some topic then 1 else 0

def handed (id : Nat) (calls : List Call) : List Json :=
  calls.filterMap fun
    | .value member _ value => if member = id then some value else none
    | _ => none

theorem handed_append (id : Nat) (calls more : List Call) :
    handed id (calls ++ more) = handed id calls ++ handed id more := List.filterMap_append

theorem handed_eq_nil {id : Nat} {calls : List Call} (h : ∀ call ∈ calls, call.isData = false) :
    handed id calls = [] := by
  rw [handed, List.filterMap_eq_nil_iff]
  intro call hm
  cases call with
  | value => exact absurd (h _ hm) (by simp [Call.isData])
  | _ => rfl

namespace Session

variable {s : Session} {id : Nat} {place : Option Topic}

theorem handed_valueCalls (hp : s.audience.Places id place) (topic : Topic) (value : Json) :
    handed id (s.valueCalls topic value) = if place = some topic then [value] else [] := by
  have hreplicate : ∀ ids : List Nat,
      handed id (ids.map fun member => .value member topic value) =
        List.replicate (ids.count id) value := by
    intro ids
    induction ids with
    | nil => rfl
    | cons member ids ih =>
      rw [List.map_cons, ← List.singleton_append, handed_append, ih]
      by_cases hm : member = id <;> simp [handed, hm, List.replicate_succ]
  rw [valueCalls, hreplicate, hp topic]
  split <;> rfl

theorem handed_imageCalls (pair : Option (String × List UInt8)) :
    handed id (s.imageCalls pair) = [] := by
  cases pair <;> simp [handed, imageCalls, List.filterMap_map]

theorem handed_readingCalls (hp : s.audience.Places id place) (cycler : String)
    (reading : Reading) :
    handed id (s.readingCalls cycler reading) =
      place.elim [] (Push.outputs cycler [reading] none).values := by
  have hcalls : handed id (s.readingCalls cycler reading) =
      if ∃ topic ∈ reading.feed.topic? cycler, place = some (.output topic) then [reading.value]
      else [] := by
    unfold readingCalls
    cases reading.feed.topic? cycler with
    | none => simp [handed]
    | some topic => simp [handed_valueCalls hp]
  rw [hcalls]
  cases place with
  | none => simp
  | some place =>
    cases place with
    | output topic =>
      have hiff : reading.IsOf cycler topic ↔ reading.feed.topic? cycler = some topic :=
        Reading.isOf_iff
      by_cases hr : reading.IsOf cycler topic
      · simp [Push.values, hr, hiff.mp hr]
      · simp [Push.values, hr, mt hiff.mpr hr]
    | image | parameter => simp [Push.values]

theorem handed_readings (hp : s.audience.Places id place) (cycler : String)
    (readings : List Reading) (imageId : Option Nat) :
    handed id (readings.flatMap (s.readingCalls cycler)) =
      place.elim [] (Push.outputs cycler readings imageId).values := by
  induction readings with
  | nil =>
    cases place with
    | none => rfl
    | some topic => cases topic <;> rfl
  | cons reading readings ih =>
    rw [List.flatMap_cons, handed_append, ih, handed_readingCalls hp]
    cases place with
    | none => rfl
    | some topic =>
      cases topic with
      | output topic => by_cases hr : reading.IsOf cycler topic <;> simp [Push.values, hr]
      | image | parameter => rfl

/-- A push hands a member what it carries for the topic of the member, once. -/
theorem handed_onPush (hp : s.audience.Places id place) (push : Push) :
    handed id (s.onPush push).2.calls = place.elim [] push.values := by
  cases push with
  | parameter path value =>
    rw [onPush, handed_valueCalls hp]
    cases place with
    | none => rfl
    | some topic => cases topic <;> simp [Push.values, eq_comm]
  | outputs cycler readings imageId =>
    have hvalues := handed_readings hp cycler readings
    cases imageId with
    | none => exact hvalues none
    | some imageId =>
      rw [← hvalues, onPush, handed_append, handed_imageCalls, List.append_nil]

theorem handed_onFrame (bytes : List UInt8) : handed id (s.onFrame bytes).2.calls = [] := by
  unfold onFrame
  split
  · rfl
  · exact handed_imageCalls _

end Session

namespace Link

variable {l m : Link} {policy : Retry} {turns before mid rest : List Turn} {event : Event}
  {id : Nat} {topic : Topic} {place : Option Topic}

def pushIn (l : Link) : Event → Option Push
  | .text socket text =>
    if l.accepts socket then
      match Message.read text with
      | .ok (.push push) => some push
      | _ => none
    else none
  | _ => none

def pushes (l : Link) : List Event → List Push
  | [] => []
  | event :: events => (l.pushIn event).toList ++ (l.step event).1.pushes events

theorem pushIn_of_heeds (h : l.heeds event = false) : l.pushIn event = none := by
  cases event with
  | text socket text =>
    have ha : l.accepts socket = false := h
    simp [pushIn, ha]
  | _ => rfl

theorem handed_step (hp : l.session.audience.Places id place) (event : Event) :
    handed id (called (l.step event).2) =
      (l.pushIn event).toList.flatMap fun push => place.elim [] push.values := by
  rw [called_step]
  cases hh : l.heeds event with
  | false =>
    rw [pushIn_of_heeds hh]
    exact handed_eq_nil (reaction_withholds hh).calls
  | true =>
    cases event with
    | text socket text =>
      have ha : l.accepts socket = true := hh
      rw [reaction_text ha]
      simp only [pushIn, ha, if_true, Session.onText]
      cases Message.read text with
      | error fault => rfl
      | ok message =>
        cases message with
        | reply reply => exact handed_eq_nil (Session.onReply_rests l.session reply).calls
        | push push => simp [Session.handed_onPush hp]
    | frame socket bytes =>
      have ha : l.accepts socket = true := hh
      rw [reaction_frame ha]
      exact Session.handed_onFrame bytes
    | _ => cases hh

theorem Seated.places_none (h : l.Seated) (hid : l.nextMember ≤ id) :
    l.session.audience.Places id none := by
  intro topic
  rw [if_neg (by simp), List.count_eq_zero]
  intro hm
  exact Nat.not_le_of_lt (h.below topic id hm) hid

/-- A member stays where it is until it leaves. -/
theorem Seated.places_step (h : l.Seated) (hp : l.session.audience.Places id place)
    (hid : id < l.nextMember) (hs : ∀ topic, place = some topic → event ≠ .unsubscribe topic id) :
    (l.step event).1.session.audience.Places id place := by
  intro topic
  have hids := step_ids h event
  rw [← hp topic]
  cases event with
  | subscribe other =>
    dsimp only at hids
    rw [hids]
    by_cases ho : topic = other
    · subst ho
      have hne : l.nextMember ≠ id := by omega
      simp [hne]
    · rw [Function.update_of_ne ho]
  | unsubscribe other member =>
    dsimp only at hids
    rw [hids]
    by_cases ho : topic = other
    · subst ho
      rw [Function.update_self]
      by_cases hm : member = id
      · subst hm
        have hn : place ≠ some topic := by
          intro he
          exact hs topic he rfl
        rw [hp topic, if_neg hn, List.count_eq_zero]
        simp
      · exact List.count_filter (by simpa using Ne.symm hm)
    · rw [Function.update_of_ne ho]
  | _ => rw [hids]

theorem Seated.places_join (h : l.Seated) (topic : Topic) :
    (l.step (.subscribe topic)).1.session.audience.Places l.nextMember (some topic) := by
  intro other
  have hids := step_ids h (.subscribe topic)
  have hnew := h.places_none (Nat.le_refl _) other
  rw [if_neg (by simp)] at hnew
  dsimp only at hids
  rw [hids]
  by_cases ho : other = topic
  · subst ho
    simp [hnew]
  · simp [ho, Ne.symm ho, hnew]

theorem Seated.places_leave (h : l.Seated) (hp : l.session.audience.Places id (some topic)) :
    (l.step (.unsubscribe topic id)).1.session.audience.Places id none := by
  intro other
  have hids := step_ids h (.unsubscribe topic id)
  rw [if_neg (by simp)]
  dsimp only at hids
  rw [hids]
  by_cases ho : other = topic
  · subst ho
    rw [Function.update_self, List.count_eq_zero]
    simp
  · rw [Function.update_of_ne ho, hp other, if_neg]
    simpa using Ne.symm ho

def received (id : Nat) (turns : List Turn) : List Json :=
  turns.flatMap fun turn => handed id (called turn.log)

/-- Before its id is given, a member receives nothing. -/
theorem Run.received_early (h : Run policy turns l) (hid : l.nextMember ≤ id) :
    received id turns = [] := by
  induction h with
  | start => rfl
  | @step turns l event hr ih =>
    have hearly := Nat.le_trans (nextMember_le_step l event) hid
    have hstep := handed_step ((run_seated hr).places_none hearly) event
    rw [received, List.flatMap_append, ← received, ih hearly]
    simp [hstep]

/-- As long as a member does not leave, it receives what the pushes carry for its topic. -/
theorem Run.received_while (h₀ : Run policy before m) (h : Run policy (before ++ mid) l)
    (hp : m.session.audience.Places id place) (hid : id < m.nextMember)
    (hs : ∀ turn ∈ mid, ∀ topic, place = some topic → turn.event ≠ .unsubscribe topic id) :
    received id mid =
        (m.pushes (mid.map (·.event))).flatMap (fun push => place.elim [] push.values) ∧
      l.session.audience.Places id place ∧ id < l.nextMember := by
  induction mid generalizing before m with
  | nil =>
    rw [List.append_nil] at h
    rw [← h₀.eq h]
    exact ⟨rfl, hp, hid⟩
  | cons turn mid ih =>
    obtain ⟨hturn, hnext⟩ := h₀.next h
    have hplaces := (run_seated h₀).places_step hp hid (hs turn List.mem_cons_self)
    have hid' := Nat.lt_of_lt_of_le hid (nextMember_le_step m turn.event)
    rw [List.append_cons] at h
    obtain ⟨hreceived, hlast⟩ := ih hnext h hplaces hid' fun turn ht =>
      hs turn (List.mem_cons_of_mem _ ht)
    refine ⟨?_, hlast⟩
    rw [received, List.flatMap_cons, ← received, hreceived, hturn, handed_step hp, List.map_cons,
      pushes, List.flatMap_append]

/-- A member, named by the id that it got when it joined, is handed what the pushes carry for its
topic, each value once and in order, from then on until it leaves or the run ends; before and after
that it is handed nothing. -/
theorem handed_exactly_once {log : List Entry} (h₀ : Run policy before m)
    (h : Run policy (before ++ ⟨.subscribe topic, log⟩ :: (mid ++ rest)) l)
    (hmid : ∀ turn ∈ mid, turn.event ≠ .unsubscribe topic (m.subscribe topic).2)
    (hrest : ∀ turn ∈ rest.head?, turn.event = .unsubscribe topic (m.subscribe topic).2) :
    received (m.subscribe topic).2 before = [] ∧
      handed (m.subscribe topic).2 (called log) = [] ∧
      received (m.subscribe topic).2 mid =
        ((m.step (.subscribe topic)).1.pushes (mid.map (·.event))).flatMap (·.values topic) ∧
      received (m.subscribe topic).2 rest = [] := by
  rw [subscribe_id] at *
  have hseated := run_seated h₀
  obtain ⟨hturn, hjoined⟩ := h₀.next h
  have hnew : m.nextMember < (m.step (.subscribe topic)).1.nextMember := by
    rw [step_nextMember]
    exact Nat.lt_succ_self _
  rw [List.append_cons, ← List.append_assoc] at h
  obtain ⟨m₁, hm₁⟩ := h.before
  have hstays : ∀ turn ∈ mid, ∀ other, some topic = some other →
      turn.event ≠ .unsubscribe other m.nextMember := by
    rintro turn ht _ ⟨⟩
    exact hmid turn ht
  obtain ⟨hreceived, hplaces, hid⟩ :=
    hjoined.received_while hm₁ (hseated.places_join topic) hnew hstays
  refine ⟨h₀.received_early (Nat.le_refl _), ?_, hreceived, ?_⟩
  · rw [(Turn.mk.inj hturn).2, handed_step (hseated.places_none (Nat.le_refl _))]
    rfl
  · cases rest with
    | nil => rfl
    | cons turn rest =>
      obtain ⟨hlast, hleft⟩ := hm₁.next h
      -- the turn in which the member leaves brings no push, and from then on it stands nowhere
      have hevent : turn.event = .unsubscribe topic m.nextMember := hrest turn rfl
      rw [hevent] at hlast hleft
      have hgone := (run_seated hm₁).places_leave hplaces
      have hid' := Nat.lt_of_lt_of_le hid (nextMember_le_step m₁ (.unsubscribe topic m.nextMember))
      rw [List.append_cons] at h
      obtain ⟨hafter, _⟩ := hleft.received_while h hgone hid' (by simp)
      rw [received, List.flatMap_cons, ← received, hafter, hlast, handed_step hplaces]
      simp [pushIn]

def listening : List Event :=
  [.subscribe (.parameter "c.Main.p"), .want true, .url "ws://a", .opened 1]

def mainOutput : Topic := .output ⟨"c", .main, "p"⟩

def bothKinds : String :=
  "\x7b\"type\":\"OutputsUpdated\",\"cycler\":\"c\",\"outputs\":" ++
    "[[[\"Main\",\"p\"],1],[[\"Additional\",\"p\"],2],[[\"Main\",\"p\"],3]]\x7d"

def sameText : String := "\x7b\"type\":\"ParameterUpdated\",\"path\":\"c.Main.p\",\"data\":4\x7d"

def lastValue : String :=
  "\x7b\"type\":\"OutputsUpdated\",\"cycler\":\"c\",\"outputs\":[[[\"Main\",\"p\"],5]]\x7d"

/-- Values of two outputs and of the parameter come. The connection is lost, a push comes late, and
another one comes on the next connection. -/
def pushing : List Event :=
  [.text 1 bothKinds, .text 1 sameText, .closed 1, .text 1 lastValue, .elapsed, .opened 2,
    .text 2 lastValue]

def leaving : List Event := [.unsubscribe mainOutput 2, .text 2 lastValue]

def joined : Link := ((play .standard listening).2.step (.subscribe mainOutput)).1

theorem handed_exactly_once_reconnecting :
    ((play .standard listening).2.subscribe mainOutput).2 = 2 ∧
      received 2 (joined.course pushing).1 = [.int 1, .int 3, .int 5] ∧
      received 2 ((joined.course pushing).2.course leaving).1 = [] := by
  have hid : ((play .standard listening).2.subscribe mainOutput).2 = 2 := by decide +kernel
  have hrun := run_play .standard listening
  have hall := ((hrun.step (.subscribe mainOutput)).course pushing).course leaving
  rw [List.append_assoc, List.append_assoc, List.singleton_append] at hall
  obtain ⟨_, _, hmid, hrest⟩ := handed_exactly_once hrun hall
    (by rw [hid]; decide +kernel) (by rw [hid]; decide +kernel)
  rw [hid] at hmid hrest
  refine ⟨hid, ?_, hrest⟩
  rw [joined, hmid]
  decide +kernel

end Link
end Downlink
