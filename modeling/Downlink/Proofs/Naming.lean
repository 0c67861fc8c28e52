import Downlink.Proofs.Pushes
import Downlink.Session

/-!
What a subscription names and what pushes name is the same. Where the remote process hands on the
members of a request as they stand in its text, the values that it sends with them reach the members
of the topic that the request was for, and nobody else.
-/
namespace Downlink

theorem Feed.topic?_ofTopic (topic : OutputTopic) :
    (ofTopic topic).topic? topic.cycler = some topic := by
  obtain ⟨cycler, kind, path⟩ := topic
  cases kind <;> rfl

def Query.WrittenAs (query : Query) (text : String) : Prop :=
  text = (Json.obj query.members).write ∨ ∃ id < Nat.pow 2 64, text = (Request.mk id query).text

/-- The push that names an output by two members of a request as they stand. -/
def echo (cycler output value : Json) : Json :=
  .obj [("type", .str "OutputsUpdated"), ("cycler", cycler),
    ("outputs", .arr [.obj [("output", output), ("data", value)]])]

variable {topic : OutputTopic} {text : String} {value : Json}

/-- Both texts of a subscription read as an object with its members, besides which there may be its
id. -/
theorem read?_subscription (ht : (Query.demand ⟨true, .output topic⟩).WrittenAs text) :
    ∃ request, Json.read? text = some (.obj request) ∧
      Table.get? "cycler" request = some (.str topic.cycler) ∧
      Table.get? "output" request = some (Feed.ofTopic topic).toJson.normal := by
  rcases ht with rfl | ⟨id, hid, rfl⟩
  · have hmembers : (Query.demand ⟨true, .output topic⟩).members =
        [("type", .str "SubscribeOutput"), ("cycler", .str topic.cycler),
          ("output", (Feed.ofTopic topic).toJson)] := rfl
    rw [hmembers]
    refine ⟨_, Json.read?_write (.obj ?_), ?_, ?_⟩
    · simpa using ⟨.str _, .str _, (Feed.ofTopic topic).legible 125⟩
    · simp [Json.normalMembers, Json.normal, Table.insertAll, Table.get?_insert]
    · simp [Json.normalMembers, Table.insertAll, Table.get?_insert]
  · have hquery : (Query.demand ⟨true, .output topic⟩).ReadsBack := trivial
    refine ⟨_, Request.read?_text hid hquery, rfl, ?_⟩
    rw [Feed.normal_toJson]
    rfl

theorem echo_legible {depth : Nat} (hv : value.Legible (depth + 1)) (cycler : String)
    (feed : Feed) : (echo (.str cycler) feed.toJson.normal value).Legible (depth + 4) := by
  have hfeed := (feed.legible depth).normal_legible
  have hreading : (Json.obj [("output", feed.toJson.normal), ("data", value)]).Legible
      (depth + 2) := .obj (by simpa using ⟨hfeed, hv⟩)
  have hreadings := Json.Legible.arr (List.forall_mem_singleton.mpr hreading)
  exact .obj (by simpa using ⟨.str _, .str _, hreadings⟩)

theorem Reading.ofJson?_normal (hv : value.normal = value) (feed : Feed) :
    ofJson? (Json.obj [("output", feed.toJson.normal), ("data", value)]).normal =
      some ⟨feed, value⟩ := by
  refine ofJson?_eq_some_iff.mpr (.obj ?_ (Feed.spelledOut_toJson feed).written ?_) <;>
    simp [Json.normalMembers, Json.normal_normal, hv, Table.insertAll, Table.get?_insert]

/-- A push that hands on a feed is a push for that feed. -/
theorem Message.ofJson_echo (hv : value.normal = value) (cycler : String) (feed : Feed) :
    Message.ofJson (echo (.str cycler) feed.toJson.normal value).normal =
      .ok (.push (.outputs cycler [⟨feed, value⟩] none)) := by
  have hreading := Reading.ofJson?_normal hv feed
  rw [echo]
  generalize Json.obj [("output", feed.toJson.normal), ("data", value)] = reading at hreading ⊢
  simp [Json.normal, Json.normalItems, Json.normalMembers, Table.insertAll, ofJson,
    Push.ofMembers?, Table.get?_insert, Table.get?, Push.readings?, Json.optionalMember?,
    Json.text?, hreading]

/-- What a subscription asks for and what the pushes with its names bring is the same topic. The
members of its text that name the topic, handed on as they stand with a value in order, bring that
value to each member of the topic, nothing to anybody else and no fault; and such a push is read
back from its text wherever the value is. -/
theorem pushes_name_subscription (s : Session) (topic : OutputTopic) {text : String}
    (ht : (Query.demand ⟨true, .output topic⟩).WrittenAs text) :
    ∃ request cycler output, Json.read? text = some (.obj request) ∧
      Table.get? "cycler" request = some cycler ∧ Table.get? "output" request = some output ∧
      ∀ value : Json, value.normal = value →
        (value.Legible (Json.maxDepth - 3) →
          Json.read? (echo cycler output value).write = some (echo cycler output value).normal) ∧
        ∀ push, Json.read? push = some (echo cycler output value).normal →
          s.onText push = (s,
            { calls :=
                (s.audience.ids (.output topic)).map (.value · (.output topic) value) }) := by
  obtain ⟨request, hread, hcycler, houtput⟩ := read?_subscription ht
  refine ⟨request, _, _, hread, hcycler, houtput, fun value hv => ⟨?_, ?_⟩⟩
  · intro hl
    exact Json.read?_write (echo_legible hl topic.cycler (Feed.ofTopic topic))
  · intro push hp
    have hmessage : Message.read push =
        .ok (.push (.outputs topic.cycler [⟨Feed.ofTopic topic, value⟩] none)) := by
      rw [Message.read, hp]
      exact Message.ofJson_echo hv topic.cycler (Feed.ofTopic topic)
    rw [Session.onText, hmessage]
    simp [Session.onPush, Session.readingCalls, Feed.topic?_ofTopic, Session.valueCalls]

def quoted : OutputTopic := ⟨"Vision \"Top\"", .main, "ball\n\\größe"⟩

def crowd : Session :=
  let s := (Session.start.join (.output quoted) 1).1
  let s := (s.join (.output { quoted with kind := .additional }) 2).1
  (s.join (.output quoted) 3).1

def seen : Json :=
  .obj [("x", .float (.finite false (3 * Nat.pow 2 51) (-52))), ("y", .arr [.null, .int (-3)])]

theorem seen_legible (depth : Nat) : seen.Legible (depth + 2) := by
  have hx : (Json.float (.finite false (3 * Nat.pow 2 51) (-52))).Legible (depth + 1) :=
    .float (by decide +kernel)
  have hy : (Json.arr [.null, .int (-3)]).Legible (depth + 1) :=
    .arr (by simpa using ⟨.null, .int (by decide)⟩)
  exact .obj (by simpa using ⟨hx, hy⟩)

theorem pushes_name_subscription_quoted :
    ∃ request, Json.read? (Request.text ⟨7, .demand ⟨true, .output quoted⟩⟩) = some (.obj request) ∧
      ∃ cycler output, Table.get? "cycler" request = some cycler ∧
        Table.get? "output" request = some output ∧
        crowd.onText (echo cycler output seen).write = (crowd,
          { calls := [.value 1 (.output quoted) seen, .value 3 (.output quoted) seen] }) := by
  have ht : (Query.demand ⟨true, .output quoted⟩).WrittenAs
      (Request.text ⟨7, .demand ⟨true, .output quoted⟩⟩) := Or.inr ⟨7, by decide, rfl⟩
  obtain ⟨request, cycler, output, hread, hcycler, houtput, hpushes⟩ :=
    pushes_name_subscription crowd quoted ht
  have hnormal : seen.normal = seen := by decide +kernel
  obtain ⟨hback, hpush⟩ := hpushes seen hnormal
  exact ⟨request, hread, cycler, output, hcycler, houtput,
    hpush _ (hback (seen_legible 122))⟩

end Downlink
