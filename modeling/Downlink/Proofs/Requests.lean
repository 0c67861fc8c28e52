import Downlink.Proofs.ReadBack
import Downlink.Wire.Request

/-!
What the texts of requests say. The text of a request is read as an object of its id, its type and
the fields of its query, and no two requests have the same text.
-/
namespace Downlink

theorem Feed.legible (feed : Feed) (depth : Nat) : feed.toJson.Legible (depth + 1) := by
  cases feed with
  | main path | additional path | image =>
    refine .obj fun member hm => ?_
    simp only [List.mem_cons, List.not_mem_nil, or_false] at hm
    rcases hm with rfl | rfl <;> exact .str _

theorem Feed.normal_toJson (topic : OutputTopic) :
    (Feed.ofTopic topic).toJson.normal =
      .obj [("path", .str topic.path), ("type", .str topic.kind.name)] := by
  obtain ⟨cycler, kind, path⟩ := topic
  cases kind <;>
    simp +decide only [Feed.ofTopic, Feed.toJson, OutputKind.name, Json.normal,
      Json.normalMembers, Table.insertAll, Table.insert, List.foldl, if_true, if_false]

theorem Feed.normal_toJson_image : Feed.image.toJson.normal = .obj [("type", .str "Image")] := rfl

/-- The value that the query carries, if it carries one, is read back from its text as it is. -/
def Query.ReadsBack : Query → Prop
  | .update _ value => value.ReadsBack (Json.maxDepth - 1) ∧ value.normal = value
  | _ => True

variable {query : Query}

theorem Query.fields_readBack (h : query.ReadsBack) :
    ∀ field ∈ query.fields, field.2.ReadsBack (Json.maxDepth - 1) := by
  have hstr : ∀ text, (Json.str text).ReadsBack (Json.maxDepth - 1) := fun text =>
    (Json.Legible.str text).readsBack
  have hfeed : ∀ feed : Feed, feed.toJson.ReadsBack (Json.maxDepth - 1) := fun feed =>
    (feed.legible 125).readsBack
  cases query with
  | outputSchema | parameterSchema => simp [fields]
  | update path value => simpa [fields] using ⟨hstr path, h.1⟩
  | demand change =>
    obtain ⟨subscribe, topic⟩ := change
    cases topic with
    | output topic => simpa [fields, Demand.members] using ⟨hstr _, hfeed _⟩
    | image cycler => simpa [fields, Demand.members] using ⟨hstr _, hfeed _⟩
    | parameter path => simpa [fields, Demand.members] using hstr path

namespace Request

variable {request other : Request}

/-- The members that the text of a request is read as, in the order of their names. -/
def readAs (request : Request) : List (String × Json) :=
  match request.query with
  | .outputSchema => [("id", .int request.id), ("type", .str "GetOutputHierarchy")]
  | .parameterSchema => [("id", .int request.id), ("type", .str "GetParameterHierarchy")]
  | .demand ⟨subscribe, .output ⟨cycler, kind, path⟩⟩ =>
    [("cycler", .str cycler), ("id", .int request.id),
      ("output", .obj [("path", .str path), ("type", .str kind.name)]),
      ("type", .str (if subscribe then "SubscribeOutput" else "UnsubscribeOutput"))]
  | .demand ⟨subscribe, .image cycler⟩ =>
    [("cycler", .str cycler), ("id", .int request.id), ("output", .obj [("type", .str "Image")]),
      ("type", .str (if subscribe then "SubscribeOutput" else "UnsubscribeOutput"))]
  | .demand ⟨subscribe, .parameter path⟩ =>
    [("id", .int request.id), ("path", .str path),
      ("type", .str (if subscribe then "SubscribeParameter" else "UnsubscribeParameter"))]
  | .update path value =>
    [("data", value), ("id", .int request.id), ("path", .str path),
      ("type", .str "UpdateParameter")]

theorem normal_toJson_eq (request : Request) :
    request.toJson.normal =
      .obj (Table.insertAll (Json.normalMembers request.query.fields)
        [("id", .int request.id), ("type", .str request.query.name)]) := by
  simp +decide only [toJson, Query.members, Json.normal, Json.normalMembers, Table.insertAll,
    Table.insert, List.foldl, if_true, if_false]

theorem normal_toJson (h : request.query.ReadsBack) :
    request.toJson.normal = .obj request.readAs := by
  rw [normal_toJson_eq]
  obtain ⟨id, query⟩ := request
  cases query with
  | outputSchema | parameterSchema => rfl
  | update path value =>
    simp +decide only [Query.fields, Query.name, readAs, h.2, Json.normal, Json.normalMembers,
      Table.insertAll, Table.insert, List.foldl, if_true, if_false]
  | demand change =>
    obtain ⟨subscribe, topic⟩ := change
    cases topic with
    | output topic | image cycler | parameter path =>
      cases subscribe <;>
        simp +decide only [Query.fields, Query.name, Demand.members, Demand.name, readAs,
          Feed.normal_toJson, Feed.normal_toJson_image, Json.normal, Json.normalMembers,
          Table.insertAll, Table.insert, List.foldl, if_true, if_false]

theorem read?_text (hid : request.id < Nat.pow 2 64) (h : request.query.ReadsBack) :
    Json.read? request.text = some (.obj request.readAs) := by
  have hfits : Json.Fits request.id := ⟨by omega, Int.ofNat_lt.mpr hid⟩
  have hback : request.toJson.ReadsBack Json.maxDepth := by
    refine Json.readsBack_obj fun member hm => ?_
    rcases List.mem_cons.mp hm with rfl | hm
    · exact (Json.Legible.int hfits).readsBack
    · rcases List.mem_cons.mp hm with rfl | hm
      · exact (Json.Legible.str _).readsBack
      · exact Query.fields_readBack h member hm
  rw [text, hback.read?_eq, normal_toJson h]

theorem get?_id_readAs (request : Request) :
    Table.get? "id" request.readAs = some (.int request.id) := by
  obtain ⟨id, query⟩ := request
  rcases query with _ | _ | ⟨_ | _, _ | _ | _⟩ | _ <;> rfl

/-- Requests of different forms differ in the names of their members or in their type. -/
theorem readAs_injective : Function.Injective readAs := by
  rintro ⟨id, query⟩ ⟨next, other⟩ h
  have hids := congrArg (Table.get? "id") h
  rw [get?_id_readAs, get?_id_readAs] at hids
  obtain rfl : id = next := Int.ofNat_inj.mp (Json.int.inj (Option.some.inj hids))
  rcases query with _ | _ | ⟨_ | _, ⟨_, _ | _, _⟩ | _ | _⟩ | _ <;>
    rcases other with _ | _ | ⟨_ | _, ⟨_, _ | _, _⟩ | _ | _⟩ | _ <;>
      simp_all [readAs, OutputKind.name]

theorem eq_of_text (hid : request.id < Nat.pow 2 64) (h : request.query.ReadsBack)
    (hid' : other.id < Nat.pow 2 64) (h' : other.query.ReadsBack)
    (ht : request.text = other.text) : request = other := by
  have hread := read?_text hid h
  rw [ht, read?_text hid' h'] at hread
  exact (readAs_injective (Json.obj.inj (Option.some.inj hread))).symm

theorem get?_type_readAs (request : Request) :
    Table.get? "type" request.readAs = some (.str request.query.name) := by
  obtain ⟨id, query⟩ := request
  rcases query with _ | _ | ⟨_ | _, _ | _ | _⟩ | _ <;> rfl

/-- The text of a request is read as an object of its id, the name of its query and the fields of
the query, and of nothing else. It tells the whole request, and for demands nothing need be known of
the names in them. -/
theorem texts_determine_requests :
    (∀ request : Request, request.id < Nat.pow 2 64 → request.query.ReadsBack →
      Json.read? request.text = some (.obj request.readAs) ∧
        Table.get? "type" request.readAs = some (.str request.query.name)) ∧
      (∀ request other : Request, request.id < Nat.pow 2 64 → request.query.ReadsBack →
        other.id < Nat.pow 2 64 → other.query.ReadsBack → request.text = other.text →
          request = other) ∧
      ∀ (id next : Nat) (topic other : Topic) (subscribe subscribe' : Bool),
        id < Nat.pow 2 64 → next < Nat.pow 2 64 →
        (Request.mk id (.demand ⟨subscribe, topic⟩)).text =
          (Request.mk next (.demand ⟨subscribe', other⟩)).text →
        id = next ∧ topic = other ∧ subscribe = subscribe' := by
  refine ⟨?_, ?_, ?_⟩
  · intro request hid h
    exact ⟨read?_text hid h, get?_type_readAs request⟩
  · intro request other hid h hid' h' ht
    exact eq_of_text hid h hid' h' ht
  · intro id next topic other subscribe subscribe' hid hid' ht
    have h : (Query.demand ⟨subscribe, topic⟩).ReadsBack := trivial
    have h' : (Query.demand ⟨subscribe', other⟩).ReadsBack := trivial
    cases eq_of_text hid h hid' h' ht
    exact ⟨rfl, rfl, rfl⟩

def gain : Json :=
  .obj [("gain", .float (.finite false (Nat.pow 2 52) (-53))), ("unit", .str "\n\"°\"")]

theorem gain_readsBack : gain.ReadsBack (Json.maxDepth - 1) := by
  have hgain : (Json.float (.finite false (Nat.pow 2 52) (-53))).Legible 125 :=
    .float (by decide +kernel)
  have hlegible : gain.Legible 126 := .obj (by simpa using ⟨hgain, .str _⟩)
  exact hlegible.readsBack

theorem texts_determine_requests_quoted :
    Json.read? (Request.mk (Nat.pow 2 64 - 1) (.update "a\\.\"b\"" gain)).text =
        some (.obj [("data", gain), ("id", .int (Nat.pow 2 64 - 1)), ("path", .str "a\\.\"b\""),
          ("type", .str "UpdateParameter")]) ∧
      (Request.mk 7 (.demand ⟨true, .image "c"⟩)).text ≠
        (Request.mk 7 (.demand ⟨true, .output ⟨"c", .main, ""⟩⟩)).text := by
  obtain ⟨hread, _, hdemands⟩ := texts_determine_requests
  have hgain : (Query.update "a\\.\"b\"" gain).ReadsBack := ⟨gain_readsBack, by decide +kernel⟩
  refine ⟨?_, ?_⟩
  · exact (hread ⟨Nat.pow 2 64 - 1, .update "a\\.\"b\"" gain⟩ (by decide) hgain).1
  · intro ht
    obtain ⟨_, htopic, _⟩ := hdemands 7 7 _ _ _ _ (by decide) (by decide) ht
    cases htopic

end Request
end Downlink
