import Downlink.Proofs.Positions
import Downlink.Proofs.ReadBack
import Downlink.Proofs.Replies
import Downlink.Schema.Reader

/-!
Which JSON describes a schema. A node is tagged with its kind and holds the contents of that kind.
What is read of a value is the tree that its nodes make, and one node of no kind or without its
contents, however deep it lies, is enough for nothing to be read.
-/
namespace Downlink.Schema

def Kind.name : Kind → String
  | .leaf => "Primary"
  | .record => "Struct"
  | .generic => "GenericStruct"
  | .optional => "Option"
  | .sequence => "Vec"

def Kind.position : Kind → Nat
  | .leaf => 0
  | .record => 1
  | .generic => 2
  | .optional => 3
  | .sequence => 4

def Kind.fields : Kind → List String
  | .leaf => ["name"]
  | .record => ["fields"]
  | .generic => []
  | .optional | .sequence => ["nested"]

/-- Everywhere a kind is told by its name, and below the top of a tree also by its position. -/
def Kind.Tag (kind : Kind) (form : Json.TagForm) (tag : Json) : Prop :=
  tag = .str kind.name ∨ form = .namedOrNumbered ∧ tag = .int kind.position

/-- An object with the name of the kind as its type and the contents, and any other members. -/
inductive SpelledNode (kind : Kind) (contents : List Json) : Json → Prop where
  | obj {members : List (String × Json)}
      (htype : Table.get? "type" members = some (.str kind.name))
      (hcontents : kind.fields.mapM (Table.get? · members) = some contents) :
      SpelledNode kind contents (.obj members)

/-- An object, or an array of the tag and the contents without their names. -/
inductive Node (form : Json.TagForm) (kind : Kind) (contents : List Json) : Json → Prop where
  | obj {members : List (String × Json)} {tag : Json}
      (htype : Table.get? "type" members = some tag) (htag : kind.Tag form tag)
      (hcontents : kind.fields.mapM (Table.get? · members) = some contents) :
      Node form kind contents (.obj members)
  | arr {tag : Json} (htag : kind.Tag form tag) (hlength : contents.length = kind.fields.length) :
      Node form kind contents (.arr (tag :: contents))

inductive Stands (node : Json.TagForm → Kind → List Json → Json → Prop) :
    Json.TagForm → Schema → Json → Prop where
  | leaf {form : Json.TagForm} {name : String} {json : Json}
      (hnode : node form .leaf [.str name] json) : Stands node form (.leaf name) json
  | record {form : Json.TagForm} {fields : List (String × Schema)} {rows : List (String × Json)}
      {json : Json} (hnode : node form .record [.obj rows] json)
      (hnames : fields.map (·.1) = rows.map (·.1))
      (heach : ∀ pair ∈ fields.zip rows, Stands node .namedOrNumbered pair.1.2 pair.2.2) :
      Stands node form (.record fields) json
  | generic {form : Json.TagForm} {json : Json} (hnode : node form .generic [] json) :
      Stands node form .generic json
  | optional {form : Json.TagForm} {schema : Schema} {inner json : Json}
      (hnode : node form .optional [inner] json)
      (hinner : Stands node .namedOrNumbered schema inner) :
      Stands node form (.optional schema) json
  | sequence {form : Json.TagForm} {schema : Schema} {inner json : Json}
      (hnode : node form .sequence [inner] json)
      (hinner : Stands node .namedOrNumbered schema inner) :
      Stands node form (.sequence schema) json

def RowsStand (node : Json.TagForm → Kind → List Json → Json → Prop) (form : Json.TagForm)
    (fields : List (String × Schema)) (rows : List (String × Json)) : Prop :=
  fields.map (·.1) = rows.map (·.1) ∧ ∀ pair ∈ fields.zip rows, Stands node form pair.1.2 pair.2.2

variable {form form' : Json.TagForm} {kind kind' : Kind} {tag json : Json}
  {contents contents' : List Json} {members rows : List (String × Json)} {schema : Schema}
  {fields : List (String × Schema)}

/-! Tags tell the kinds apart. -/

theorem variant?_eq_some_iff : Json.variant? form kinds tag = some kind ↔ kind.Tag form tag := by
  have hkind : kinds[kind.position]? = some (kind.name, kind) := by cases kind <;> rfl
  exact Json.variant?_eq_some_iff (by decide) (by decide) hkind

theorem Kind.Tag.numbered (h : kind.Tag form tag) : kind.Tag .namedOrNumbered tag :=
  h.imp_right fun ⟨_, htag⟩ => ⟨rfl, htag⟩

theorem Kind.Tag.unique (h : kind.Tag form tag) (h' : kind'.Tag form' tag) : kind = kind' := by
  have hvariant := variant?_eq_some_iff.mpr h.numbered
  rw [variant?_eq_some_iff.mpr h'.numbered] at hvariant
  exact (Option.some.inj hvariant).symm

/-- A value is a node in one way only. -/
theorem Node.unique (h : Node form kind contents json) (h' : Node form' kind' contents' json) :
    kind = kind' ∧ contents = contents' := by
  cases h with
  | obj htype htag hcontents =>
    cases h' with
    | obj htype' htag' hcontents' =>
      rw [htype] at htype'
      cases htype'
      obtain rfl := htag.unique htag'
      rw [hcontents] at hcontents'
      exact ⟨rfl, Option.some.inj hcontents'⟩
  | arr htag =>
    cases h' with
    | arr htag' => exact ⟨htag.unique htag', rfl⟩

/-! One node is read at a time. -/

inductive Makes : Kind → List Json → Schema → Prop where
  | leaf {name : String} : Makes .leaf [.str name] (.leaf name)
  | record {rows : List (String × Json)} {fields : List (String × Schema)}
      (h : ofMembers? .namedOrNumbered rows = some fields) :
      Makes .record [.obj rows] (.record fields)
  | generic : Makes .generic [] .generic
  | optional {json : Json} {schema : Schema} (h : ofJson? .namedOrNumbered json = some schema) :
      Makes .optional [json] (.optional schema)
  | sequence {json : Json} {schema : Schema} (h : ofJson? .namedOrNumbered json = some schema) :
      Makes .sequence [json] (.sequence schema)

theorem ofMember?_eq (key : String) (members : List (String × Json)) :
    ofMember? key members = (Table.get? key members).bind (ofJson? .namedOrNumbered) := by
  induction members with
  | nil => rfl
  | cons member members ih =>
    obtain ⟨name, value⟩ := member
    rw [ofMember?, Table.get?, ih]
    split
    next => rfl
    next => rfl

theorem fieldsAt?_eq_some_iff {key : String} :
    fieldsAt? key members = some fields ↔
      ∃ rows, Table.get? key members = some (.obj rows) ∧
        ofMembers? .namedOrNumbered rows = some fields := by
  induction members with
  | nil => simp [fieldsAt?, Table.get?]
  | cons member members ih =>
    obtain ⟨name, value⟩ := member
    unfold fieldsAt? Table.get?
    split
    next => cases value <;> simp
    next => exact ih

theorem mapM_single {key : String} {content : Json} :
    [key].mapM (Table.get? · members) = some [content] ↔
      Table.get? key members = some content := by
  simp [Option.bind_eq_some_iff]

theorem get?_of_mem_mapM {keys : List String} {content : Json}
    (h : keys.mapM (Table.get? · members) = some contents) (hm : content ∈ contents) :
    ∃ key, Table.get? key members = some content := by
  induction keys generalizing contents with
  | nil =>
    cases h
    cases hm
  | cons key keys ih =>
    simp only [List.mapM_cons, Option.bind_eq_bind, Option.bind_eq_some_iff, Option.pure_def,
      Option.some.injEq] at h
    obtain ⟨first, hfirst, rest, hrest, rfl⟩ := h
    rcases List.mem_cons.mp hm with rfl | hm
    · exact ⟨key, hfirst⟩
    · exact ih hrest hm

theorem memberVariant?_eq_some_iff :
    Json.memberVariant? form kinds members = some kind ↔
      ∃ tag, Table.get? "type" members = some tag ∧ kind.Tag form tag := by
  simp only [Json.memberVariant?, Option.bind_eq_some_iff, variant?_eq_some_iff]

theorem ofJson?_obj_of_kind (hk : Json.memberVariant? form kinds members = some kind) :
    ofJson? form (.obj members) = some schema ↔
      ∃ contents, kind.fields.mapM (Table.get? · members) = some contents ∧
        Makes kind contents schema := by
  unfold ofJson?
  rw [hk]
  cases kind with
  | leaf =>
    constructor
    · intro h
      obtain ⟨name, hname, rfl⟩ := Option.map_eq_some_iff.mp h
      obtain ⟨value, hvalue, htext⟩ := Option.bind_eq_some_iff.mp hname
      obtain rfl := Json.text?_eq_some_iff.mp htext
      exact ⟨_, mapM_single.mpr hvalue, .leaf⟩
    · rintro ⟨_, hcontents, ⟨⟩⟩
      simp only [mapM_single.mp hcontents, Option.bind_some, Json.text?, Option.map_some]
  | record =>
    constructor
    · intro h
      obtain ⟨fields, hfields, rfl⟩ := Option.map_eq_some_iff.mp h
      obtain ⟨rows, hrows, hread⟩ := fieldsAt?_eq_some_iff.mp hfields
      exact ⟨_, mapM_single.mpr hrows, .record hread⟩
    · rintro ⟨_, hcontents, ⟨⟩⟩
      next hread =>
        have hfields := fieldsAt?_eq_some_iff.mpr ⟨_, mapM_single.mp hcontents, hread⟩
        simp only [hfields, Option.map_some]
  | generic =>
    constructor
    · intro h
      cases h
      exact ⟨[], rfl, .generic⟩
    · rintro ⟨_, _, ⟨⟩⟩
      rfl
  | optional | sequence =>
    constructor
    · intro h
      obtain ⟨inner, hinner, rfl⟩ := Option.map_eq_some_iff.mp h
      rw [ofMember?_eq] at hinner
      obtain ⟨value, hvalue, hread⟩ := Option.bind_eq_some_iff.mp hinner
      refine ⟨_, mapM_single.mpr hvalue, ?_⟩
      constructor
      exact hread
    · rintro ⟨_, hcontents, ⟨⟩⟩
      next hread =>
        simp only [ofMember?_eq, mapM_single.mp hcontents, Option.bind_some, hread,
          Option.map_some]

theorem ofJson?_arr_of_kind (hk : Json.variant? form kinds tag = some kind) :
    ofJson? form (.arr (tag :: contents)) = some schema ↔ Makes kind contents schema := by
  unfold ofJson?
  rw [hk]
  constructor
  · intro h
    cases kind with
    | leaf =>
      dsimp only at h
      split at h
      next =>
        cases h
        exact .leaf
      next => cases h
    | record =>
      dsimp only at h
      split at h
      next =>
        obtain ⟨fields, hread, rfl⟩ := Option.map_eq_some_iff.mp h
        exact .record hread
      next => cases h
    | generic =>
      obtain ⟨hempty, hs⟩ := Option.ite_none_right_eq_some.mp h
      cases hs
      obtain rfl := List.isEmpty_iff.mp hempty
      exact .generic
    | optional | sequence =>
      dsimp only at h
      split at h
      next =>
        obtain ⟨inner, hread, rfl⟩ := Option.map_eq_some_iff.mp h
        constructor
        exact hread
      next => cases h
  · intro hmakes
    cases hmakes with
    | leaf | generic => rfl
    | record h | optional h | sequence h =>
      simp only [h]
      rfl

theorem Makes.length_eq (h : Makes kind contents schema) :
    contents.length = kind.fields.length := by
  cases h <;> rfl

theorem ofJson?_obj_eq_some_iff :
    ofJson? form (.obj members) = some schema ↔
      ∃ kind contents, Node form kind contents (.obj members) ∧ Makes kind contents schema := by
  constructor
  · intro h
    cases hk : Json.memberVariant? form kinds members with
    | none =>
      unfold ofJson? at h
      rw [hk] at h
      cases h
    | some kind =>
      obtain ⟨tag, htype, htag⟩ := memberVariant?_eq_some_iff.mp hk
      obtain ⟨contents, hcontents, hmakes⟩ := (ofJson?_obj_of_kind hk).mp h
      exact ⟨kind, contents, .obj htype htag hcontents, hmakes⟩
  · rintro ⟨kind, contents, ⟨htype, htag, hcontents⟩, hmakes⟩
    have hk := memberVariant?_eq_some_iff.mpr ⟨_, htype, htag⟩
    exact (ofJson?_obj_of_kind hk).mpr ⟨contents, hcontents, hmakes⟩

theorem ofJson?_arr_eq_some_iff {items : List Json} :
    ofJson? form (.arr items) = some schema ↔
      ∃ kind contents, Node form kind contents (.arr items) ∧ Makes kind contents schema := by
  constructor
  · intro h
    cases items with
    | nil => cases h
    | cons tag items =>
      cases hk : Json.variant? form kinds tag with
      | none =>
        unfold ofJson? at h
        rw [hk] at h
        cases h
      | some kind =>
        have hmakes := (ofJson?_arr_of_kind hk).mp h
        exact ⟨kind, items, .arr (variant?_eq_some_iff.mp hk) hmakes.length_eq, hmakes⟩
  · rintro ⟨kind, contents, ⟨⟩ | ⟨htag, _⟩, hmakes⟩
    exact (ofJson?_arr_of_kind (variant?_eq_some_iff.mpr htag)).mpr hmakes

theorem ofJson?_eq_some_iff_makes :
    ofJson? form json = some schema ↔
      ∃ kind contents, Node form kind contents json ∧ Makes kind contents schema := by
  cases json with
  | obj members => exact ofJson?_obj_eq_some_iff
  | arr items => exact ofJson?_arr_eq_some_iff
  | _ =>
    constructor
    · intro h
      cases h
    · rintro ⟨_, _, ⟨⟩, _⟩

theorem rowsStand_cons_iff {node : Json.TagForm → Kind → List Json → Json → Prop}
    {field : String × Schema} {row : String × Json} :
    RowsStand node form (field :: fields) (row :: rows) ↔
      (field.1 = row.1 ∧ Stands node form field.2 row.2) ∧ RowsStand node form fields rows := by
  simp only [RowsStand, List.map_cons, List.cons.injEq, List.zip_cons_cons, List.forall_mem_cons]
  exact and_and_and_comm

theorem ofMembers?_cons_eq_some_iff {field : String × Schema} {row : String × Json} :
    ofMembers? form (row :: rows) = some (field :: fields) ↔
      (field.1 = row.1 ∧ ofJson? form row.2 = some field.2) ∧
        ofMembers? form rows = some fields := by
  obtain ⟨name, schema⟩ := field
  obtain ⟨name', value⟩ := row
  rw [ofMembers?]
  cases ofJson? form value <;> cases ofMembers? form rows <;> simp [eq_comm, and_assoc]

theorem RowsStand.length_eq {node : Json.TagForm → Kind → List Json → Json → Prop}
    (h : RowsStand node form fields rows) : fields.length = rows.length := by
  simpa using congrArg List.length h.1

theorem RowsStand.exists_of_mem {node : Json.TagForm → Kind → List Json → Json → Prop}
    (h : RowsStand node form fields rows) {row : String × Json} (hm : row ∈ rows) :
    ∃ schema, Stands node form schema row.2 := by
  rw [← List.map_snd_zip h.length_eq.ge] at hm
  obtain ⟨pair, hpair, rfl⟩ := List.mem_map.mp hm
  exact ⟨_, h.2 pair hpair⟩

mutual

/-- What is read of a value is the tree that it stands for. -/
theorem ofJson?_eq_some_iff : ∀ (schema : Schema) {form : Json.TagForm} {json : Json},
    ofJson? form json = some schema ↔ Stands Node form schema json
  | .leaf name, form, json => by
    rw [ofJson?_eq_some_iff_makes]
    constructor
    · rintro ⟨_, _, hnode, ⟨⟩⟩
      exact .leaf hnode
    · intro h
      cases h with
      | leaf hnode => exact ⟨_, _, hnode, .leaf⟩
  | .record fields, form, json => by
    rw [ofJson?_eq_some_iff_makes]
    constructor
    · rintro ⟨_, _, hnode, ⟨⟩⟩
      next hread =>
        obtain ⟨hnames, heach⟩ := (ofMembers?_eq_some_iff fields).mp hread
        exact .record hnode hnames heach
    · intro h
      cases h with
      | record hnode hnames heach =>
        exact ⟨_, _, hnode, .record ((ofMembers?_eq_some_iff fields).mpr ⟨hnames, heach⟩)⟩
  | .generic, form, json => by
    rw [ofJson?_eq_some_iff_makes]
    constructor
    · rintro ⟨_, _, hnode, ⟨⟩⟩
      exact .generic hnode
    · intro h
      cases h with
      | generic hnode => exact ⟨_, _, hnode, .generic⟩
  | .optional inner, form, json => by
    rw [ofJson?_eq_some_iff_makes]
    constructor
    · rintro ⟨_, _, hnode, ⟨⟩⟩
      next hread => exact .optional hnode ((ofJson?_eq_some_iff inner).mp hread)
    · intro h
      cases h with
      | optional hnode hinner =>
        exact ⟨_, _, hnode, .optional ((ofJson?_eq_some_iff inner).mpr hinner)⟩
  | .sequence inner, form, json => by
    rw [ofJson?_eq_some_iff_makes]
    constructor
    · rintro ⟨_, _, hnode, ⟨⟩⟩
      next hread => exact .sequence hnode ((ofJson?_eq_some_iff inner).mp hread)
    · intro h
      cases h with
      | sequence hnode hinner =>
        exact ⟨_, _, hnode, .sequence ((ofJson?_eq_some_iff inner).mpr hinner)⟩

theorem ofMembers?_eq_some_iff :
    ∀ (fields : List (String × Schema)) {form : Json.TagForm} {rows : List (String × Json)},
      ofMembers? form rows = some fields ↔ RowsStand Node form fields rows
  | [], form, [] => by simp [ofMembers?, RowsStand]
  | [], form, (name, value) :: rows => by
    rw [ofMembers?]
    cases ofJson? form value <;> cases ofMembers? form rows <;> simp [RowsStand]
  | field :: fields, form, [] => by simp [ofMembers?, RowsStand]
  | (name, schema) :: fields, form, row :: rows => by
    rw [ofMembers?_cons_eq_some_iff, rowsStand_cons_iff, ofJson?_eq_some_iff schema,
      ofMembers?_eq_some_iff fields]

end

/-! The way back. Nothing that is written is lost, and what is read of a value whose members are in
order is a tree whose fields are. -/

mutual

def toJson : Schema → Json
  | .leaf name => .obj [("name", .str name), ("type", .str "Primary")]
  | .record fields => .obj [("fields", .obj (toMembers fields)), ("type", .str "Struct")]
  | .generic => .obj [("type", .str "GenericStruct")]
  | .optional inner => .obj [("nested", toJson inner), ("type", .str "Option")]
  | .sequence inner => .obj [("nested", toJson inner), ("type", .str "Vec")]

def toMembers : List (String × Schema) → List (String × Json)
  | [] => []
  | (name, field) :: fields => (name, toJson field) :: toMembers fields

end

mutual

theorem stands_toJson :
    ∀ (schema : Schema) (form : Json.TagForm),
      Stands (fun _ => SpelledNode) form schema schema.toJson
  | .leaf _, _ => .leaf (.obj rfl rfl)
  | .record fields, _ =>
    have ⟨hnames, heach⟩ := rowsStand_toMembers fields .namedOrNumbered
    .record (.obj rfl rfl) hnames heach
  | .generic, _ => .generic (.obj rfl rfl)
  | .optional inner, _ => .optional (.obj rfl rfl) (stands_toJson inner _)
  | .sequence inner, _ => .sequence (.obj rfl rfl) (stands_toJson inner _)

theorem rowsStand_toMembers :
    ∀ (fields : List (String × Schema)) (form : Json.TagForm),
      RowsStand (fun _ => SpelledNode) form fields (toMembers fields)
  | [], _ => by simp [toMembers, RowsStand]
  | (_, field) :: fields, form =>
    rowsStand_cons_iff.mpr ⟨⟨rfl, stands_toJson field form⟩, rowsStand_toMembers fields form⟩

end

theorem SpelledNode.node (h : SpelledNode kind contents json) : Node form kind contents json := by
  cases h with
  | obj htype hcontents => exact .obj htype (Or.inl rfl) hcontents

theorem Stands.node (h : Stands (fun _ => SpelledNode) form schema json) :
    Stands Node form schema json := by
  induction h with
  | leaf hnode => exact .leaf hnode.node
  | record hnode hnames _ ih => exact .record hnode.node hnames ih
  | generic hnode => exact .generic hnode.node
  | optional hnode _ ih => exact .optional hnode.node ih
  | sequence hnode _ ih => exact .sequence hnode.node ih

theorem RowsStand.node (h : RowsStand (fun _ => SpelledNode) form fields rows) :
    RowsStand Node form fields rows :=
  ⟨h.1, fun pair hm => (h.2 pair hm).node⟩

theorem Node.normal_contents (h : Node form kind contents json) (hn : json.normal = json) :
    ∀ content ∈ contents, content.normal = content := by
  cases h with
  | obj _ _ hcontents =>
    intro content hm
    obtain ⟨key, hget⟩ := get?_of_mem_mapM hcontents hm
    exact (Json.members_of_normal hn).2 _ (Table.mem_of_get? hget)
  | arr => exact fun content hm => Json.items_of_normal hn content (List.mem_cons_of_mem _ hm)

theorem RowsStand.ordered (h : RowsStand Node form fields rows) (hs : Table.Sorted rows)
    (heach : ∀ pair ∈ fields.zip rows, pair.1.2.Ordered) : (record fields).Ordered := by
  have hkeys : (fields.map (·.1)).Pairwise (· < ·) := by
    rw [h.1]
    exact List.pairwise_map.mpr hs
  refine .record (List.pairwise_map.mp hkeys) fun field hm => ?_
  rw [← List.map_fst_zip h.length_eq.le] at hm
  obtain ⟨pair, hpair, rfl⟩ := List.mem_map.mp hm
  exact heach pair hpair

theorem Stands.ordered (h : Stands Node form schema json) (hn : json.normal = json) :
    schema.Ordered := by
  induction h with
  | leaf => exact .leaf
  | record hnode hnames heach ih =>
    obtain ⟨hsorted, hrows⟩ := Json.members_of_normal
      (hnode.normal_contents hn _ (List.mem_singleton_self _))
    refine RowsStand.ordered ⟨hnames, heach⟩ hsorted fun pair hm => ih pair hm ?_
    exact hrows _ (List.of_mem_zip hm).2
  | generic => exact .generic
  | optional hnode _ ih =>
    exact .optional (ih (hnode.normal_contents hn _ (List.mem_singleton_self _)))
  | sequence hnode _ ih =>
    exact .sequence (ih (hnode.normal_contents hn _ (List.mem_singleton_self _)))

/-! One bad node anywhere. -/

/-- What the contents of a node have to be in JSON. Those of an option and of a sequence are nodes
themselves. -/
def Kind.Takes : Kind → List Json → Prop
  | .leaf, contents => ∃ name, contents = [.str name]
  | .record, contents => ∃ rows, contents = [.obj rows]
  | .generic, contents => contents = []
  | .optional, contents | .sequence, contents =>
    (∃ members, contents = [.obj members]) ∨ ∃ items, contents = [.arr items]

/-- The ways in which a node can be no node, whatever lies below it. -/
inductive Faulty : Json → Prop where
  | untyped {members : List (String × Json)} (h : Table.get? "type" members = none) :
      Faulty (.obj members)
  | unknown {members : List (String × Json)} {name : String}
      (h : Table.get? "type" members = some (.str name)) (hname : ∀ kind : Kind, name ≠ kind.name) :
      Faulty (.obj members)
  | missing {members : List (String × Json)} {kind : Kind} {tag : Json}
      (htype : Table.get? "type" members = some tag) (htag : kind.Tag .namedOrNumbered tag)
      (h : kind.fields.mapM (Table.get? · members) = none) : Faulty (.obj members)
  | misfit {json : Json} {kind : Kind} {contents : List Json}
      (hnode : Node .namedOrNumbered kind contents json) (h : ¬ kind.Takes contents) : Faulty json
  | formless {json : Json} (h : ∀ kind contents, ¬ Node .namedOrNumbered kind contents json) :
      Faulty json

/-- A value has itself as a node, the fields of a record and what an option or a sequence is of. -/
inductive HasNode : Json → Json → Prop where
  | root (json : Json) : HasNode json json
  | field {json node : Json} {rows : List (String × Json)} {row : String × Json}
      (hnode : Node .namedOrNumbered .record [.obj rows] json) (hm : row ∈ rows)
      (h : HasNode row.2 node) : HasNode json node
  | inner {json inner node : Json} {kind : Kind} (hkind : kind = .optional ∨ kind = .sequence)
      (hnode : Node .namedOrNumbered kind [inner] json) (h : HasNode inner node) :
      HasNode json node

theorem Node.numbered (h : Node form kind contents json) :
    Node .namedOrNumbered kind contents json := by
  cases h with
  | obj htype htag hcontents => exact .obj htype htag.numbered hcontents
  | arr htag hlength => exact .arr htag.numbered hlength

theorem Makes.takes (h : Makes kind contents schema) : kind.Takes contents := by
  cases h with
  | @leaf name => exact ⟨name, rfl⟩
  | @record rows => exact ⟨rows, rfl⟩
  | generic => rfl
  | optional h | sequence h =>
    obtain ⟨_, _, hnode, _⟩ := ofJson?_eq_some_iff_makes.mp h
    cases hnode with
    | @obj members => exact Or.inl ⟨members, rfl⟩
    | arr => exact Or.inr ⟨_, rfl⟩

theorem Faulty.ofJson?_eq_none (h : Faulty json) : ofJson? form json = none := by
  refine Option.eq_none_iff_forall_ne_some.mpr fun schema hread => ?_
  obtain ⟨kind, contents, hnode, hmakes⟩ := ofJson?_eq_some_iff_makes.mp hread
  cases h with
  | untyped hnone =>
    cases hnode with
    | obj htype =>
      rw [hnone] at htype
      cases htype
  | unknown hname hother =>
    cases hnode with
    | obj htype htag =>
      rw [hname] at htype
      cases htype
      rcases htag with htag | ⟨_, htag⟩
      · exact hother kind (Json.str.inj htag)
      · cases htag
  | missing htype' htag' hnone =>
    cases hnode with
    | obj htype htag hcontents =>
      rw [htype'] at htype
      cases htype
      obtain rfl := htag.unique htag'
      rw [hnone] at hcontents
      cases hcontents
  | misfit hnode' hbad =>
    obtain ⟨rfl, rfl⟩ := hnode.unique hnode'
    exact hbad hmakes.takes
  | formless hnone => exact hnone kind contents hnode.numbered

theorem HasNode.read {node : Json} (h : HasNode json node)
    (hread : ofJson? form json = some schema) :
    ∃ form schema, ofJson? form node = some schema := by
  induction h generalizing form schema with
  | root => exact ⟨form, schema, hread⟩
  | field hnode hm _ ih =>
    obtain ⟨_, _, hnode', hmakes⟩ := ofJson?_eq_some_iff_makes.mp hread
    obtain ⟨rfl, rfl⟩ := hnode'.unique hnode
    cases hmakes with
    | record hrows =>
      obtain ⟨field, hrow⟩ := ((ofMembers?_eq_some_iff _).mp hrows).exists_of_mem hm
      exact ih ((ofJson?_eq_some_iff field).mpr hrow)
  | inner hkind hnode _ ih =>
    obtain ⟨_, _, hnode', hmakes⟩ := ofJson?_eq_some_iff_makes.mp hread
    obtain ⟨rfl, rfl⟩ := hnode'.unique hnode
    rcases hkind with rfl | rfl
    · cases hmakes with
      | optional hinner => exact ih hinner
    · cases hmakes with
      | sequence hinner => exact ih hinner

theorem HasNode.ofMembers?_eq_none {row : String × Json} {node : Json} (h : HasNode row.2 node)
    (hm : row ∈ rows) (hf : Faulty node) : ofMembers? form rows = none := by
  refine Option.eq_none_iff_forall_ne_some.mpr fun fields hread => ?_
  obtain ⟨field, hrow⟩ := ((ofMembers?_eq_some_iff fields).mp hread).exists_of_mem hm
  obtain ⟨_, _, hnode⟩ := h.read ((ofJson?_eq_some_iff field).mpr hrow)
  rw [hf.ofJson?_eq_none] at hnode
  cases hnode

section PathTypes

variable {field : String} {payload : List (String × Json)} {value : Json} {types : PathTypes}

theorem pathTypes_of_read (hf : Table.get? field payload = some (.obj members))
    (hread : ofMembers? .named members = some fields) :
    pathTypes field payload = .ok ((record fields).paths "") := by
  simp only [pathTypes, hf, hread]

theorem pathTypes_of_unread (hf : Table.get? field payload = some (.obj members))
    (hread : ofMembers? .named members = none) :
    pathTypes field payload = .error (.json .shape) := by
  simp only [pathTypes, hf, hread]

theorem pathTypes_of_no_object (hf : Table.get? field payload = some value)
    (hv : ∀ members, value ≠ .obj members) : pathTypes field payload = .error (.json .shape) := by
  rw [pathTypes, hf]
  cases value with
  | obj members => exact absurd rfl (hv members)
  | _ => rfl

theorem pathTypes_eq_ok_iff (hf : Table.get? field payload = some value) :
    pathTypes field payload = .ok types ↔ ∃ members fields, value = .obj members ∧
      RowsStand Node .named fields members ∧ types = (record fields).paths "" := by
  simp only [← ofMembers?_eq_some_iff]
  cases value with
  | obj members =>
    cases hread : ofMembers? .named members with
    | none => simp [pathTypes_of_unread hf hread, hread]
    | some fields => simp [pathTypes_of_read hf hread, hread, eq_comm]
  | _ =>
    rw [pathTypes_of_no_object hf (by simp)]
    simp

theorem pathTypes_cases (hf : Table.get? field payload = some value) :
    (∃ types, pathTypes field payload = .ok types) ∨
      pathTypes field payload = .error (.json .shape) := by
  cases value with
  | obj members =>
    cases hread : ofMembers? .named members with
    | none => exact Or.inr (pathTypes_of_unread hf hread)
    | some fields => exact Or.inl ⟨_, pathTypes_of_read hf hread⟩
  | _ => exact Or.inr (pathTypes_of_no_object hf (by simp))

/-- Every table of trees can be written as an object, and of any payload that holds an object with
these trees spelled out, whatever else its nodes hold, the flat form of exactly these trees is read.
Without the field that is missed. In general the trees are read that the object stands for, where
nodes below the top may be arrays and tell their kinds by position; they are tables of tables if the
members of the object are in order. If it stands for none, as with one faulty node at any depth,
nothing is read. -/
theorem schemas_read_back (field : String) (payload : List (String × Json)) :
    (∀ fields, RowsStand (fun _ => SpelledNode) .named fields (toMembers fields)) ∧
      (Table.get? field payload = none → pathTypes field payload = .error (.missingField field)) ∧
      ∀ value, Table.get? field payload = some value →
        (∀ members fields, value = .obj members →
          RowsStand (fun _ => SpelledNode) .named fields members →
            pathTypes field payload = .ok ((record fields).paths "")) ∧
        (∀ types, pathTypes field payload = .ok types ↔ ∃ members fields, value = .obj members ∧
          RowsStand Node .named fields members ∧ types = (record fields).paths "") ∧
        (∀ members fields, value = .obj members → value.normal = value →
          RowsStand Node .named fields members → (record fields).Ordered) ∧
        ((∀ types, pathTypes field payload ≠ .ok types) →
          pathTypes field payload = .error (.json .shape)) ∧
        ((∀ members, value ≠ .obj members) → pathTypes field payload = .error (.json .shape)) ∧
        ∀ members, value = .obj members → ∀ row ∈ members, ∀ node, HasNode row.2 node →
          Faulty node → pathTypes field payload = .error (.json .shape) := by
  refine ⟨fun fields => rowsStand_toMembers fields .named, ?_, ?_⟩
  · intro hnone
    rw [pathTypes, hnone]
  · intro value hf
    refine ⟨?_, fun types => pathTypes_eq_ok_iff hf, ?_, ?_, pathTypes_of_no_object hf, ?_⟩
    · intro members fields hv hrows
      exact (pathTypes_eq_ok_iff hf).mpr ⟨members, fields, hv, hrows.node, rfl⟩
    · rintro members fields rfl hn hrows
      obtain ⟨hsorted, heach⟩ := Json.members_of_normal hn
      refine hrows.ordered hsorted fun pair hm => (hrows.2 pair hm).ordered ?_
      exact heach _ (List.of_mem_zip hm).2
    · intro hnone
      rcases pathTypes_cases hf with ⟨types, hok⟩ | herror
      · exact absurd hok (hnone types)
      · exact herror
    · rintro members rfl row hm node hnode hfaulty
      exact pathTypes_of_unread hf (hnode.ofMembers?_eq_none hm hfaulty)

def annotated : List (String × Json) :=
  [("a", .obj [("name", .int 1),
    ("nested", .obj [("fields", .obj [("b", .obj [("name", .str "f32"), ("nested", .null),
      ("type", .str "Primary")])]), ("type", .str "Struct")]), ("type", .str "Option")])]

def nameless : List (String × Json) :=
  [("a", .obj [("nested", .obj [("fields", .obj [("b", .obj [("type", .str "Primary")])]),
    ("type", .str "Struct")]), ("type", .str "Option")])]

theorem schemas_read_back_annotated :
    pathTypes "output_hierarchy" [("output_hierarchy", .obj annotated)] =
        .ok [("a", "Option<GenericStruct>"), ("a.b", "Option<f32>")] ∧
      pathTypes "output_hierarchy" [("output_hierarchy", .obj nameless)] =
        .error (.json .shape) ∧
      pathTypes "output_hierarchy" [("parameter_hierarchy", .obj annotated)] =
        .error (.missingField "output_hierarchy") := by
  refine ⟨?_, ?_, ?_⟩
  · obtain ⟨_, _, hvalue⟩ :=
      schemas_read_back "output_hierarchy" [("output_hierarchy", .obj annotated)]
    obtain ⟨hread, _⟩ := hvalue _ rfl
    have hrows : RowsStand (fun _ => SpelledNode) .named
        [("a", .optional (.record [("b", .leaf "f32")]))] annotated := by
      refine ⟨rfl, List.forall_mem_singleton.mpr (.optional (.obj rfl rfl) ?_)⟩
      refine .record (.obj rfl rfl) rfl (List.forall_mem_singleton.mpr ?_)
      exact .leaf (.obj rfl rfl)
    have hpaths : (record [("a", .optional (.record [("b", .leaf "f32")]))]).paths "" =
        [("a", "Option<GenericStruct>"), ("a.b", "Option<f32>")] := by decide +kernel
    rw [hread _ _ rfl hrows, hpaths]
  · obtain ⟨_, _, hvalue⟩ :=
      schemas_read_back "output_hierarchy" [("output_hierarchy", .obj nameless)]
    obtain ⟨_, _, _, _, _, hfaulty⟩ := hvalue _ rfl
    refine hfaulty nameless rfl _ (List.mem_singleton_self _) (.obj [("type", .str "Primary")])
      ?_ ?_
    · refine .inner (Or.inl rfl) (.obj rfl (Or.inl rfl) rfl) ?_
      refine .field (.obj rfl (Or.inl rfl) rfl) (List.mem_singleton_self _) (.root _)
    · exact .missing rfl (Or.inl rfl : Kind.leaf.Tag _ _) rfl
  · obtain ⟨_, hmissing, _⟩ :=
      schemas_read_back "output_hierarchy" [("parameter_hierarchy", .obj annotated)]
    exact hmissing rfl

def positional : List (String × Json) :=
  [("nested", .arr [.str "Primary", .str "f32"]), ("type", .str "Option")]

/-- A tree is read of a node whose inner node is no object. -/
theorem nested_array_accepted :
    Table.get? "type" positional = some (.str "Option") ∧
      (∃ items, Table.get? "nested" positional = some (.arr items)) ∧
      pathTypes "output_hierarchy" [("output_hierarchy", .obj [("a", .obj positional)])] =
        .ok [("a", "Option<f32>")] := by
  refine ⟨rfl, ⟨_, rfl⟩, ?_⟩
  decide +kernel

end PathTypes

end Downlink.Schema
