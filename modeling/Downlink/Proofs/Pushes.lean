import Downlink.Proofs.Replies
import Downlink.Proofs.Requests
import Mathlib.Data.List.Forall2

/-!
What is a push. The forms in which a push and its parts may stand in JSON are relations between
values and JSON. An object without an id is a push exactly if it has such a form, and it is the push
that the form says.
-/
namespace Downlink

variable {members : List (String × Json)} {json tag : Json}

namespace Feed

def Kind.name : Kind → String
  | .main => "Main"
  | .additional => "Additional"
  | .image => "Image"

def Kind.position : Kind → Nat
  | .main => 0
  | .additional => 1
  | .image => 2

def kind : Feed → Kind
  | .main _ => .main
  | .additional _ => .additional
  | .image => .image

def path? : Feed → Option String
  | .main path | .additional path => some path
  | .image => none

/-- An object with the name of the kind as its type, and the path if there is one. -/
inductive SpelledOut (feed : Feed) : Json → Prop where
  | obj {members : List (String × Json)}
      (hkind : Table.get? "type" members = some (.str feed.kind.name))
      (hpath : ∀ path ∈ feed.path?, Table.get? "path" members = some (.str path)) :
      SpelledOut feed (.obj members)

/-- Below the top of a message a kind is told by its name or by its position. -/
def Kind.Tag (kind : Kind) (tag : Json) : Prop := tag = .str kind.name ∨ tag = .int kind.position

/-- An object, or an array of the tag and the path without their names. -/
inductive Written (feed : Feed) : Json → Prop where
  | obj {members : List (String × Json)} {tag : Json} (htype : Table.get? "type" members = some tag)
      (htag : feed.kind.Tag tag)
      (hpath : ∀ path ∈ feed.path?, Table.get? "path" members = some (.str path)) :
      Written feed (.obj members)
  | arr {tag : Json} (htag : feed.kind.Tag tag) :
      Written feed (.arr (tag :: feed.path?.toList.map .str))

variable {feed : Feed} {kind : Kind}

theorem SpelledOut.written (h : feed.SpelledOut json) : feed.Written json := by
  cases h with
  | obj hkind hpath => exact .obj hkind (Or.inl rfl) hpath

theorem variant?_eq_some_iff :
    Json.variant? .namedOrNumbered kinds tag = some kind ↔ kind.Tag tag := by
  have hkind : kinds[kind.position]? = some (kind.name, kind) := by cases kind <;> rfl
  rw [Json.variant?_eq_some_iff (by decide) (by decide) hkind, Kind.Tag, eq_self, true_and]

theorem ofKind?_eq_some_iff {path : Option String} :
    ofKind? path kind = some feed ↔ feed.kind = kind ∧ ∀ p ∈ feed.path?, path = some p := by
  cases kind <;> cases feed <;> simp [ofKind?, Feed.kind, path?]

theorem ofMembers?_eq_some_iff :
    ofJson? .namedOrNumbered (.obj members) = some feed ↔
      ∃ tag, Table.get? "type" members = some tag ∧ feed.kind.Tag tag ∧
        ∀ path ∈ feed.path?, Table.get? "path" members = some (.str path) := by
  simp only [ofJson?, Json.memberVariant?, Option.bind_eq_some_iff, variant?_eq_some_iff,
    ofKind?_eq_some_iff, Json.text?_eq_some_iff, exists_eq_right]
  constructor
  · rintro ⟨_, ⟨tag, htype, htag⟩, rfl, hpath⟩
    exact ⟨tag, htype, htag, hpath⟩
  · rintro ⟨tag, htype, htag, hpath⟩
    exact ⟨feed.kind, ⟨tag, htype, htag⟩, rfl, hpath⟩

theorem ofItems?_eq_some_iff {fields : List Json} :
    ofJson? .namedOrNumbered (.arr (tag :: fields)) = some feed ↔
      feed.kind.Tag tag ∧ fields = feed.path?.toList.map .str := by
  rw [← variant?_eq_some_iff]
  constructor
  · intro h
    dsimp only [ofJson?] at h
    split at h
    next hkind => cases h; exact ⟨hkind, rfl⟩
    next hkind => cases h; exact ⟨hkind, rfl⟩
    next hkind => cases h; exact ⟨hkind, rfl⟩
    next => cases h
  · rintro ⟨hkind, rfl⟩
    dsimp only [ofJson?]
    rw [hkind]
    cases feed <;> rfl

theorem ofJson?_eq_some_iff : ofJson? .namedOrNumbered json = some feed ↔ feed.Written json := by
  constructor
  · intro h
    cases json with
    | obj members =>
      obtain ⟨tag, htype, htag, hpath⟩ := ofMembers?_eq_some_iff.mp h
      exact .obj htype htag hpath
    | arr items =>
      cases items with
      | nil => cases h
      | cons tag fields =>
        obtain ⟨htag, rfl⟩ := ofItems?_eq_some_iff.mp h
        exact .arr htag
    | _ => cases h
  · intro h
    cases h with
    | obj htype htag hpath => exact ofMembers?_eq_some_iff.mpr ⟨_, htype, htag, hpath⟩
    | arr htag => exact ofItems?_eq_some_iff.mpr ⟨htag, rfl⟩

theorem spelledOut_toJson (feed : Feed) : feed.SpelledOut feed.toJson.normal := by
  cases feed with
  | main path | additional path | image =>
    refine .obj ?_ ?_ <;>
      simp [Json.normalMembers, Json.normal, Table.insertAll, Table.get?_insert, path?, Feed.kind,
        Kind.name]

end Feed

namespace Reading

inductive SpelledOut (reading : Reading) : Json → Prop where
  | obj {members : List (String × Json)} {json : Json}
      (houtput : Table.get? "output" members = some json) (hfeed : reading.feed.SpelledOut json)
      (hdata : Table.get? "data" members = some reading.value) : SpelledOut reading (.obj members)

inductive Written (reading : Reading) : Json → Prop where
  | obj {members : List (String × Json)} {json : Json}
      (houtput : Table.get? "output" members = some json) (hfeed : reading.feed.Written json)
      (hdata : Table.get? "data" members = some reading.value) : Written reading (.obj members)
  | arr {json : Json} (hfeed : reading.feed.Written json) :
      Written reading (.arr [json, reading.value])

variable {reading : Reading}

theorem SpelledOut.written (h : reading.SpelledOut json) : reading.Written json := by
  cases h with
  | obj houtput hfeed hdata => exact .obj houtput hfeed.written hdata

theorem ofMembers?_eq_some_iff :
    ofJson? (.obj members) = some reading ↔
      (∃ json, Table.get? "output" members = some json ∧ reading.feed.Written json) ∧
        Table.get? "data" members = some reading.value := by
  constructor
  · intro h
    dsimp only [ofJson?] at h
    split at h
    next houtput hdata =>
      cases h
      obtain ⟨json, houtput, hfeed⟩ := Option.bind_eq_some_iff.mp houtput
      exact ⟨⟨json, houtput, Feed.ofJson?_eq_some_iff.mp hfeed⟩, hdata⟩
    next => cases h
  · rintro ⟨⟨json, houtput, hfeed⟩, hdata⟩
    dsimp only [ofJson?]
    rw [houtput, Option.bind_some, Feed.ofJson?_eq_some_iff.mpr hfeed, hdata]

theorem ofJson?_eq_some_iff : ofJson? json = some reading ↔ reading.Written json := by
  constructor
  · intro h
    unfold ofJson? at h
    split at h
    next members =>
      obtain ⟨⟨json, houtput, hfeed⟩, hdata⟩ := ofMembers?_eq_some_iff.mp h
      exact .obj houtput hfeed hdata
    next json value =>
      obtain ⟨feed, hfeed, rfl⟩ := Option.map_eq_some_iff.mp h
      exact .arr (Feed.ofJson?_eq_some_iff.mp hfeed)
    next => cases h
  · intro h
    cases h with
    | obj houtput hfeed hdata => exact ofMembers?_eq_some_iff.mpr ⟨⟨_, houtput, hfeed⟩, hdata⟩
    | arr hfeed =>
      dsimp only [ofJson?]
      rw [Feed.ofJson?_eq_some_iff.mpr hfeed, Option.map_some]

theorem mapM_eq_some_iff {items : List Json} {readings : List Reading} :
    items.mapM ofJson? = some readings ↔ List.Forall₂ Written readings items := by
  induction items generalizing readings with
  | nil => simp [eq_comm]
  | cons item items ih =>
    simp only [List.mapM_cons, Option.bind_eq_bind, Option.bind_eq_some_iff, Option.pure_def,
      Option.some.injEq, ih, ofJson?_eq_some_iff, List.forall₂_cons_right_iff]
    constructor
    · rintro ⟨reading, h, readings, hs, rfl⟩
      exact ⟨reading, readings, h, hs, rfl⟩
    · rintro ⟨reading, readings, h, hs, rfl⟩
      exact ⟨reading, h, readings, hs, rfl⟩

def toJson (reading : Reading) : Json :=
  .obj [("output", reading.feed.toJson), ("data", reading.value)]

theorem spelledOut_toJson (hv : reading.value.normal = reading.value) :
    reading.SpelledOut reading.toJson.normal := by
  refine .obj ?_ (Feed.spelledOut_toJson reading.feed) ?_ <;>
    simp [Json.normalMembers, Table.insertAll, Table.get?_insert, hv]

end Reading

namespace Push

/-- The members hold a list of readings in the given form. A missing list is empty. -/
inductive Lists (form : Reading → Json → Prop) (members : List (String × Json)) :
    List Reading → Prop where
  | absent (houtputs : Table.get? "outputs" members = none) : Lists form members []
  | items {items : List Json} {readings : List Reading}
      (houtputs : Table.get? "outputs" members = some (.arr items))
      (hforms : List.Forall₂ form readings items) : Lists form members readings

/-- The members are those of the push, with its readings in the given form, and any others. -/
inductive Conforms (form : Reading → Json → Prop) (members : List (String × Json)) :
    Push → Prop where
  | outputs {cycler : String} {readings : List Reading} {imageId : Option Nat}
      (htype : Table.get? "type" members = some (.str "OutputsUpdated"))
      (hcycler : Table.get? "cycler" members = some (.str cycler))
      (hreadings : Lists form members readings)
      (himage : Json.Holds (fun n : Nat => .int n) "image_id" members imageId)
      (hbelow : ∀ n ∈ imageId, n < Nat.pow 2 32) :
      Conforms form members (.outputs cycler readings imageId)
  | parameter {path : String} {value : Json}
      (htype : Table.get? "type" members = some (.str "ParameterUpdated"))
      (hpath : Table.get? "path" members = some (.str path))
      (hdata : Table.get? "data" members = some value) :
      Conforms form members (.parameter path value)

variable {push : Push} {form form' : Reading → Json → Prop} {readings : List Reading}

theorem Lists.mono (himp : ∀ reading json, form reading json → form' reading json)
    (h : Lists form members readings) : Lists form' members readings := by
  cases h with
  | absent houtputs => exact .absent houtputs
  | items houtputs hforms => exact .items houtputs (hforms.imp himp)

theorem Conforms.mono (himp : ∀ reading json, form reading json → form' reading json)
    (h : Conforms form members push) : Conforms form' members push := by
  cases h with
  | outputs htype hcycler hreadings himage hbelow =>
    exact .outputs htype hcycler (hreadings.mono himp) himage hbelow
  | parameter htype hpath hdata => exact .parameter htype hpath hdata

theorem Lists.forall_mem (h : Lists form members readings) {items : List Json}
    (houtputs : Table.get? "outputs" members = some (.arr items)) :
    ∀ item ∈ items, ∃ reading, form reading item := by
  cases h with
  | absent hnone => rw [hnone] at houtputs; cases houtputs
  | items hsome hforms =>
    rw [hsome] at houtputs
    cases houtputs
    clear hsome
    induction hforms with
    | nil => simp
    | cons hform _ ih => exact List.forall_mem_cons.mpr ⟨⟨_, hform⟩, ih⟩

theorem Conforms.each_entry (h : Conforms form members push)
    (htype : Table.get? "type" members = some (.str "OutputsUpdated")) {items : List Json}
    (houtputs : Table.get? "outputs" members = some (.arr items)) :
    ∀ item ∈ items, ∃ reading, form reading item := by
  cases h with
  | outputs _ _ hreadings => exact hreadings.forall_mem houtputs
  | parameter hother => simp [hother] at htype

theorem Conforms.image_id (h : Conforms form members push)
    (htype : Table.get? "type" members = some (.str "OutputsUpdated")) {value : Json}
    (himage : Table.get? "image_id" members = some value) :
    value = .null ∨ ∃ n < Nat.pow 2 32, value = .int n := by
  cases h with
  | @outputs _ _ imageId _ _ _ hholds hbelow =>
    cases imageId with
    | none => exact Or.inl (by simpa [Json.Holds, himage] using hholds)
    | some n => exact Or.inr ⟨n, hbelow n rfl, by simpa [Json.Holds, himage] using hholds⟩
  | parameter hother => simp [hother] at htype

theorem readings?_eq_some_iff :
    readings? members = some readings ↔ Lists Reading.Written members readings := by
  constructor
  · intro h
    unfold readings? at h
    split at h
    next houtputs => cases h; exact .absent houtputs
    next houtputs => exact .items houtputs (Reading.mapM_eq_some_iff.mp h)
    next => cases h
  · intro h
    unfold readings?
    cases h with
    | absent houtputs => rw [houtputs]
    | items houtputs hforms => rw [houtputs]; exact Reading.mapM_eq_some_iff.mpr hforms

theorem imageId_eq_some_iff {imageId : Option Nat} :
    Json.optionalMember? (Json.natBelow? (Nat.pow 2 32)) "image_id" members = some imageId ↔
      Json.Holds (fun n : Nat => .int n) "image_id" members imageId ∧
        ∀ n ∈ imageId, n < Nat.pow 2 32 :=
  Json.optionalMember?_eq_some_iff (fun _ _ => Json.natBelow?_eq_some_iff) (by simp)

theorem ofMembers?_eq_some_iff :
    ofMembers? members = some push ↔ Conforms Reading.Written members push := by
  constructor
  · intro h
    unfold ofMembers? at h
    split at h
    next htype =>
      split at h
      next hcycler hreadings himage =>
        cases h
        obtain ⟨_, hget, hread⟩ := Option.bind_eq_some_iff.mp hcycler
        obtain rfl := Json.text?_eq_some_iff.mp hread
        obtain ⟨himage, hbelow⟩ := imageId_eq_some_iff.mp himage
        exact .outputs htype hget (readings?_eq_some_iff.mp hreadings) himage hbelow
      next => cases h
    next htype =>
      split at h
      next hpath hdata =>
        cases h
        obtain ⟨_, hget, hread⟩ := Option.bind_eq_some_iff.mp hpath
        obtain rfl := Json.text?_eq_some_iff.mp hread
        exact .parameter htype hget hdata
      next => cases h
    next => cases h
  · intro h
    cases h with
    | outputs htype hcycler hreadings himage hbelow =>
      simp only [ofMembers?, htype, hcycler, Option.bind_some, Json.text?,
        readings?_eq_some_iff.mpr hreadings, imageId_eq_some_iff.mpr ⟨himage, hbelow⟩]
    | parameter htype hpath hdata =>
      simp only [ofMembers?, htype, hpath, hdata, Option.bind_some, Json.text?]

def toJson : Push → Json
  | .outputs cycler readings imageId =>
    .obj ([("type", .str "OutputsUpdated"), ("cycler", .str cycler),
      ("outputs", .arr (readings.map Reading.toJson))] ++
        imageId.toList.map fun n => ("image_id", .int n))
  | .parameter path value =>
    .obj [("type", .str "ParameterUpdated"), ("path", .str path), ("data", value)]

/-- The values are in order and not too deep for their places, and the image id has its width. -/
def Legible : Push → Prop
  | .outputs _ readings imageId =>
    (∀ reading ∈ readings,
      reading.value.Legible (Json.maxDepth - 3) ∧ reading.value.normal = reading.value) ∧
        ∀ n ∈ imageId, n < Nat.pow 2 32
  | .parameter _ value => value.Legible (Json.maxDepth - 1) ∧ value.normal = value

theorem Legible.toJson_legible (h : push.Legible) : push.toJson.Legible Json.maxDepth := by
  cases push with
  | outputs cycler readings imageId =>
    obtain ⟨hvalues, hbelow⟩ := h
    have hreading : ∀ reading ∈ readings, reading.toJson.Legible (Json.maxDepth - 2) := by
      intro reading hr
      exact .obj (by simpa using ⟨reading.feed.legible _, (hvalues reading hr).1⟩)
    have hreadings : (Json.arr (readings.map Reading.toJson)).Legible (Json.maxDepth - 1) :=
      .arr (List.forall_mem_map.mpr hreading)
    refine .obj (List.forall_mem_append.mpr ⟨?_, ?_⟩)
    · simpa using ⟨.str _, .str _, hreadings⟩
    · have hfits : ∀ n ∈ imageId, Json.Fits n := by
        intro n hn
        have hlt : n < Nat.pow 2 64 := Nat.lt_trans (hbelow n hn) (by decide)
        exact ⟨by omega, Int.ofNat_lt.mpr hlt⟩
      cases imageId with
      | none => simp
      | some n => simpa using Json.Legible.int (hfits n rfl)
  | parameter path value =>
    exact .obj (by simpa using ⟨.str _, .str _, h.1⟩)

theorem Legible.conforms (h : push.Legible) :
    ∃ members, push.toJson.normal = .obj members ∧ Table.get? "id" members = none ∧
      Conforms Reading.SpelledOut members push := by
  cases push with
  | outputs cycler readings imageId =>
    obtain ⟨hvalues, hbelow⟩ := h
    have hforms : List.Forall₂ Reading.SpelledOut readings
        (Json.normalItems (readings.map Reading.toJson)) := by
      rw [Json.normalItems_eq, List.map_map, List.forall₂_map_right_iff, List.forall₂_same]
      exact fun reading hr => Reading.spelledOut_toJson (hvalues reading hr).2
    refine ⟨_, rfl, ?_, .outputs ?_ ?_ (.items ?_ hforms) ?_ hbelow⟩ <;> cases imageId <;>
      simp [Json.normalMembers, Json.normal, Table.insertAll, Table.get?_insert, Table.get?,
        Json.Holds]
  | parameter path value =>
    refine ⟨_, rfl, ?_, .parameter ?_ ?_ ?_⟩ <;>
      simp [Json.normalMembers, Json.normal, Table.insertAll, Table.get?_insert, Table.get?, h.2]

end Push

namespace Message

variable {text : String}

theorem read_push_iff (h : Json.read? text = some (.obj members))
    (hid : Table.get? "id" members = none) {message : Message} :
    Message.read text = .ok message ↔
      ∃ push, message = .push push ∧ Push.Conforms Reading.Written members push := by
  rw [read_of_no_id h hid]
  simp only [← Push.ofMembers?_eq_some_iff]
  cases Push.ofMembers? members <;> simp [eq_comm]

theorem read_no_push (h : Json.read? text = some (.obj members))
    (hid : Table.get? "id" members = none)
    (hnone : ∀ push, ¬ Push.Conforms Reading.Written members push) :
    Message.read text = .error (.json .shape) := by
  rw [read_of_no_id h hid]
  cases hp : Push.ofMembers? members with
  | none => rfl
  | some push => exact absurd (Push.ofMembers?_eq_some_iff.mp hp) (hnone push)

/-- A push with values in order is read back from its text. Any text of an object without an id
that holds the members of a push, whatever it holds besides, is read as exactly that push. What is
read of such a text is a push that the object holds, where entries and what they name may also stand
in arrays; if it holds none, as with one entry of no form or an image id out of its range, nothing
is read. -/
theorem pushes_decoded :
    (∀ push : Push, push.Legible → Message.read push.toJson.write = .ok (.push push)) ∧
      ∀ text members, Json.read? text = some (.obj members) → Table.get? "id" members = none →
        (∀ push, push.Conforms Reading.SpelledOut members →
          Message.read text = .ok (.push push)) ∧
        (∀ message, Message.read text = .ok message ↔
          ∃ push, message = .push push ∧ push.Conforms Reading.Written members) ∧
        ((∀ push : Push, ¬ push.Conforms Reading.Written members) →
          Message.read text = .error (.json .shape)) ∧
        (Table.get? "type" members = some (.str "OutputsUpdated") →
          (∀ items, Table.get? "outputs" members = some (.arr items) →
            (∃ item ∈ items, ∀ reading : Reading, ¬ reading.Written item) →
              Message.read text = .error (.json .shape)) ∧
          ∀ value, Table.get? "image_id" members = some value → value ≠ .null →
            (∀ n < Nat.pow 2 32, value ≠ .int n) → Message.read text = .error (.json .shape)) := by
  refine ⟨?_, ?_⟩
  · intro push hp
    obtain ⟨members, hnormal, hid, hconforms⟩ := hp.conforms
    have hread : Json.read? push.toJson.write = some (.obj members) := by
      rw [Json.read?_write hp.toJson_legible, hnormal]
    have hwritten := hconforms.mono fun _ _ => Reading.SpelledOut.written
    exact (read_push_iff hread hid).mpr ⟨push, rfl, hwritten⟩
  · intro text members h hid
    refine ⟨?_, fun _ => read_push_iff h hid, read_no_push h hid, fun htype => ⟨?_, ?_⟩⟩
    · intro push hp
      exact (read_push_iff h hid).mpr ⟨push, rfl, hp.mono fun _ _ => Reading.SpelledOut.written⟩
    · rintro items houtputs ⟨item, hi, hbad⟩
      refine read_no_push h hid fun push hp => ?_
      obtain ⟨reading, hform⟩ := hp.each_entry htype houtputs item hi
      exact hbad reading hform
    · intro value himage hnull hrange
      refine read_no_push h hid fun push hp => ?_
      rcases hp.image_id htype himage with hv | ⟨n, hlt, hv⟩
      · exact hnull hv
      · exact hrange n hlt hv

def annotated : String :=
  "\x7b\"type\":\"OutputsUpdated\",\"frame\":7,\"cycler\":\"c\",\"outputs\":[" ++
    "\x7b\"output\":\x7b\"type\":\"Image\",\"path\":3\x7d,\"data\":null,\"id\":1\x7d," ++
    "\x7b\"data\":[2],\"output\":" ++
    "\x7b\"path\":\"a.b\",\"unit\":\"m\",\"type\":\"Additional\"\x7d\x7d]," ++
    "\"image_id\":4294967295\x7d"

def oversized : String :=
  "\x7b\"type\":\"OutputsUpdated\",\"cycler\":\"c\",\"image_id\":4294967296\x7d"

theorem pushes_decoded_annotated :
    Message.read (Push.parameter "a" .null).toJson.write =
        .ok (.push (.parameter "a" .null)) ∧
      Message.read annotated = .ok (.push (.outputs "c"
        [⟨.image, .null⟩, ⟨.additional "a.b", .arr [.int 2]⟩] (some (Nat.pow 2 32 - 1)))) ∧
      Message.read oversized = .error (.json .shape) := by
  obtain ⟨hback, hread⟩ := pushes_decoded
  refine ⟨hback _ ⟨.null, rfl⟩, ?_, ?_⟩
  · have h : Json.read? annotated = some (.obj [("cycler", .str "c"), ("frame", .int 7),
        ("image_id", .int (Nat.pow 2 32 - 1)),
        ("outputs", .arr [
          .obj [("data", .null), ("id", .int 1),
            ("output", .obj [("path", .int 3), ("type", .str "Image")])],
          .obj [("data", .arr [.int 2]),
            ("output", .obj [("path", .str "a.b"), ("type", .str "Additional"),
              ("unit", .str "m")])]]),
        ("type", .str "OutputsUpdated")]) := by decide +kernel
    obtain ⟨hpush, _⟩ := hread _ _ h rfl
    have himage : Reading.SpelledOut ⟨.image, .null⟩ (.obj [("data", .null), ("id", .int 1),
        ("output", .obj [("path", .int 3), ("type", .str "Image")])]) :=
      .obj rfl (.obj rfl (by simp [Feed.path?])) rfl
    have hpath : Reading.SpelledOut ⟨.additional "a.b", .arr [.int 2]⟩
        (.obj [("data", .arr [.int 2]), ("output", .obj [("path", .str "a.b"),
          ("type", .str "Additional"), ("unit", .str "m")])]) :=
      .obj rfl (.obj rfl (by simp [Feed.path?, Table.get?])) rfl
    exact hpush _ (.outputs rfl rfl (.items rfl (.cons himage (.cons hpath .nil))) rfl (by simp))
  · have h : Json.read? oversized = some (.obj [("cycler", .str "c"),
        ("image_id", .int (Nat.pow 2 32)), ("type", .str "OutputsUpdated")]) := by decide +kernel
    obtain ⟨_, _, _, hbad⟩ := hread _ _ h rfl
    refine (hbad rfl).2 _ rfl (by simp) fun n hn hv => ?_
    have heq : (Nat.pow 2 32 : Int) = n := Json.int.inj hv
    omega

def positional : String :=
  "\x7b\"type\":\"OutputsUpdated\",\"cycler\":\"c\"," ++
    "\"outputs\":[[\x7b\"type\":\"Image\"\x7d,1]]\x7d"

/-- A push is read of an object that spells out none. -/
theorem positional_accepted :
    ∃ members, Json.read? positional = some (.obj members) ∧ Table.get? "id" members = none ∧
      Message.read positional = .ok (.push (.outputs "c" [⟨.image, .int 1⟩] none)) ∧
      ∀ push : Push, ¬ push.Conforms Reading.SpelledOut members := by
  refine ⟨[("cycler", .str "c"), ("outputs", .arr [.arr [.obj [("type", .str "Image")], .int 1]]),
    ("type", .str "OutputsUpdated")], by decide +kernel, rfl, by decide +kernel, fun push hp => ?_⟩
  obtain ⟨reading, hform⟩ := hp.each_entry rfl rfl _ (List.mem_singleton_self _)
  cases hform

end Message
end Downlink
