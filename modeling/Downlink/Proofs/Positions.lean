import Downlink.Proofs.Walk
import Mathlib.Data.Set.Function

/-!
The positions of a schema and the paths of its flat form. Where names are neither empty nor divided
by dots, the two answer each other one by one, and each path tells the type at its position with
everything that wraps it.
-/
namespace Downlink.Schema

inductive Each (p : List (String × Schema) → Prop) : Schema → Prop where
  | leaf {name : String} : Each p (.leaf name)
  | record {fields : List (String × Schema)} (here : p fields)
      (below : ∀ row ∈ fields, Each p row.2) : Each p (.record fields)
  | generic : Each p .generic
  | optional {inner : Schema} (h : Each p inner) : Each p (.optional inner)
  | sequence {inner : Schema} (h : Each p inner) : Each p (.sequence inner)

def Ordered (schema : Schema) : Prop := schema.Each Table.Sorted

def PlainName (name : String) : Prop := name ≠ "" ∧ '.' ∉ name.toList

def Plain (schema : Schema) : Prop := schema.Each fun fields => ∀ row ∈ fields, PlainName row.1

inductive Wrap where
  | optional
  | sequence
  deriving DecidableEq, Repr

def Wrap.around : Wrap → String → String
  | .optional => optionalName
  | .sequence => sequenceName

def wrapped (wraps : List Wrap) (type : String) : String := wraps.foldr Wrap.around type

/-- A chain of field names leads from the root to a type, through these options and sequences. -/
inductive At : Schema → List String → List Wrap → String → Prop where
  | leaf {name : String} : At (.leaf name) [] [] name
  | record {fields : List (String × Schema)} : At (.record fields) [] [] genericName
  | generic : At .generic [] [] genericName
  | field {fields : List (String × Schema)} {name : String} {schema : Schema}
      {names : List String} {wraps : List Wrap} {type : String} (hm : (name, schema) ∈ fields)
      (h : At schema names wraps type) : At (.record fields) (name :: names) wraps type
  | optional {inner : Schema} {names : List String} {wraps : List Wrap} {type : String}
      (h : At inner names wraps type) : At (.optional inner) names (.optional :: wraps) type
  | sequence {inner : Schema} {names : List String} {wraps : List Wrap} {type : String}
      (h : At inner names wraps type) : At (.sequence inner) names (.sequence :: wraps) type

def isRecord : Schema → Bool
  | .record _ => true
  | .optional inner | .sequence inner => inner.isRecord
  | .leaf _ | .generic => false

/-- A record at the root of everything has no path of its own. -/
def Shown (schema : Schema) (base : String) (names : List String) : Prop :=
  base = "" → names = [] → schema.isRecord = false

def IsPosition (schema : Schema) (names : List String) : Prop :=
  ∃ wraps type, schema.At names wraps type

/-- The path of a position: the base, if there is one, and the names, divided by dots. -/
def pathOf (base : String) (names : List String) : String :=
  ".".intercalate (if base = "" then names else base :: names)

variable {schema : Schema} {fields : List (String × Schema)} {base name key shown : String}
  {names others : List String} {wraps wraps' : List Wrap} {type type' : String}

/-! Names without dots can be told from the path they make. -/

theorem splitOn_intercalate (h : ∀ name ∈ names, PlainName name) (hne : names ≠ []) :
    (".".intercalate names).toList.splitOn '.' = names.map String.toList := by
  rw [String.toList_intercalate]
  apply List.splitOn_intercalate
  · intro text hm
    obtain ⟨name, hname, rfl⟩ := List.mem_map.mp hm
    exact (h name hname).2
  · simpa using hne

theorem eq_nil_of_intercalate (h : ∀ name ∈ names, PlainName name)
    (he : ".".intercalate names = "") : names = [] := by
  cases names with
  | nil => rfl
  | cons name names =>
    cases names with
    | nil =>
      rw [String.intercalate_singleton] at he
      exact absurd he (h name List.mem_cons_self).1
    | cons next names => simp [String.append_eq_empty_iff] at he

theorem intercalate_injective (h : ∀ name ∈ names, PlainName name)
    (h' : ∀ name ∈ others, PlainName name)
    (he : ".".intercalate names = ".".intercalate others) : names = others := by
  by_cases hnil : names = []
  · rw [hnil, String.intercalate_nil] at he
    rw [hnil, eq_nil_of_intercalate h' he.symm]
  · by_cases hnil' : others = []
    · rw [hnil', String.intercalate_nil] at he
      rw [hnil', eq_nil_of_intercalate h he]
    · have hlists := splitOn_intercalate h hnil
      rw [he, splitOn_intercalate h' hnil'] at hlists
      exact List.map_injective_iff.mpr (fun _ _ => String.toList_injective) hlists.symm

theorem pathOf_nil (base : String) : pathOf base [] = base := by
  unfold pathOf
  split
  next hb => rw [hb, String.intercalate_nil]
  next => rw [String.intercalate_singleton]

theorem pathOf_cons (hb : base ≠ "") :
    pathOf base (name :: names) = base ++ ("." ++ ".".intercalate (name :: names)) := by
  rw [pathOf, if_neg hb, String.intercalate_cons_cons, String.append_assoc]

theorem pathOf_injective (h : ∀ name ∈ names, PlainName name)
    (h' : ∀ name ∈ others, PlainName name) (he : pathOf base names = pathOf base others) :
    names = others := by
  by_cases hb : base = ""
  · rw [pathOf, pathOf, if_pos hb, if_pos hb] at he
    exact intercalate_injective h h' he
  · cases names with
    | nil =>
      cases others with
      | nil => rfl
      | cons next others =>
        rw [pathOf_nil, pathOf_cons hb] at he
        simpa [String.append_eq_empty_iff] using String.append_eq_left_iff.mp he.symm
    | cons name names =>
      cases others with
      | nil =>
        rw [pathOf_nil, pathOf_cons hb] at he
        simpa [String.append_eq_empty_iff] using String.append_eq_left_iff.mp he
      | cons next others =>
        rw [pathOf_cons hb, pathOf_cons hb, String.append_right_inj, String.append_right_inj] at he
        exact intercalate_injective h h' he

theorem joinPath_ne (h : PlainName name) : joinPath base name ≠ "" := by
  unfold joinPath
  split
  next => exact h.1
  next => simp [String.append_eq_empty_iff]

/-- To go down to a field is to take its name over into the base. -/
theorem pathOf_joinPath (h : PlainName name) :
    pathOf (joinPath base name) names = pathOf base (name :: names) := by
  rw [pathOf, if_neg (joinPath_ne h), pathOf]
  by_cases hb : base = ""
  · rw [joinPath, if_pos (String.isEmpty_iff.mpr hb), if_pos hb]
  · rw [joinPath, if_neg (mt String.isEmpty_iff.mp hb), if_neg hb, String.intercalate_cons_append,
      String.intercalate_cons_cons]

/-! What is met on the walk are the positions. -/

theorem mem_walkFields {row : String × String} :
    row ∈ walkFields base fields ↔
      ∃ field ∈ fields, row ∈ field.2.walk (joinPath base field.1) := by
  induction fields with
  | nil => simp [walkFields]
  | cons field fields ih => simp [walkFields, ← joinPath_eq, ih]

theorem mem_walk_record :
    (key, shown) ∈ (record fields).walk base ↔ base ≠ "" ∧ key = base ∧ shown = genericName ∨
      ∃ field ∈ fields, (key, shown) ∈ field.2.walk (joinPath base field.1) := by
  rw [walk, List.mem_append, mem_walkFields]
  by_cases hb : base = "" <;> simp [hb, genericName]

theorem mem_walk_iff (hp : schema.Plain) :
    (key, shown) ∈ schema.walk base ↔ ∃ names wraps type, schema.At names wraps type ∧
      schema.Shown base names ∧ key = pathOf base names ∧ shown = wrapped wraps type := by
  induction hp generalizing base key shown with
  | leaf | generic =>
    rw [walk, List.mem_singleton, Prod.mk.injEq]
    constructor
    · rintro ⟨rfl, rfl⟩
      exact ⟨[], [], _, by constructor, fun _ _ => rfl, (pathOf_nil _).symm, rfl⟩
    · rintro ⟨_, _, _, ⟨⟩, _, rfl, rfl⟩
      exact ⟨pathOf_nil base, rfl⟩
  | record here below ih =>
    rw [mem_walk_record]
    constructor
    · rintro (⟨hb, rfl, rfl⟩ | ⟨⟨name, field⟩, hm, h⟩)
      · have hshown : ∀ fields, (record fields).Shown key [] := fun _ hempty => absurd hempty hb
        exact ⟨[], [], genericName, .record, hshown _, (pathOf_nil key).symm, rfl⟩
      · obtain ⟨names, wraps, type, hat, _, rfl, rfl⟩ := (ih _ hm).mp h
        refine ⟨name :: names, wraps, type, .field hm hat, ?_, pathOf_joinPath (here _ hm), rfl⟩
        intro _ hnil
        cases hnil
    · rintro ⟨_, wraps, type, hat, hshown, rfl, rfl⟩
      cases hat with
      | record =>
        refine Or.inl ⟨?_, pathOf_nil base, rfl⟩
        intro hempty
        cases hshown hempty rfl
      | field hm hat =>
        refine Or.inr ⟨_, hm, (ih _ hm).mpr ⟨_, wraps, type, hat, ?_, ?_, rfl⟩⟩
        · intro hempty
          exact absurd hempty (joinPath_ne (here _ hm))
        · exact (pathOf_joinPath (here _ hm)).symm
  | optional _ ih | sequence _ ih =>
    rw [walk, List.mem_map]
    constructor
    · rintro ⟨⟨_, _⟩, hm, ⟨⟩⟩
      obtain ⟨names, wraps, type, hat, hshown, rfl, rfl⟩ := ih.mp hm
      exact ⟨names, _ :: wraps, type, by constructor; exact hat, hshown, rfl, rfl⟩
    · rintro ⟨names, _, type, hat, hshown, rfl, rfl⟩
      cases hat
      next hat => exact ⟨_, ih.mpr ⟨names, _, type, hat, hshown, rfl, rfl⟩, rfl⟩

theorem At.plain (h : schema.At names wraps type) (hp : schema.Plain) :
    ∀ name ∈ names, PlainName name := by
  induction h with
  | leaf | record | generic => simp
  | field hm _ ih =>
    cases hp with
    | record here below => exact List.forall_mem_cons.mpr ⟨here _ hm, ih (below _ hm)⟩
  | optional _ ih | sequence _ ih =>
    cases hp
    next hp => exact ih hp

/-- There is one type at a position, and one way of wrapping it. -/
theorem At.unique (h : schema.At names wraps type) (ho : schema.Ordered)
    (h' : schema.At names wraps' type') : wraps = wraps' ∧ type = type' := by
  induction h generalizing wraps' type' with
  | leaf | record | generic =>
    cases h'
    exact ⟨rfl, rfl⟩
  | field hm _ ih =>
    cases ho with
    | record here below =>
      cases h' with
      | field hm' h' =>
        obtain rfl := (Prod.mk.inj (List.inj_on_of_nodup_map here.nodup hm' hm rfl)).2
        exact ih (below _ hm) h'
  | optional _ ih | sequence _ ih =>
    cases ho
    next ho =>
      cases h'
      next h' =>
        obtain ⟨rfl, rfl⟩ := ih ho h'
        exact ⟨rfl, rfl⟩

theorem mem_keys_iff (hp : schema.Plain) :
    key ∈ (schema.paths base).map (·.1) ↔
      ∃ names, schema.IsPosition names ∧ schema.Shown base names ∧ key = pathOf base names := by
  rw [mem_keys_paths, List.mem_map]
  constructor
  · rintro ⟨⟨_, shown⟩, hm, rfl⟩
    obtain ⟨names, wraps, type, hat, hshown, rfl, rfl⟩ := (mem_walk_iff hp).mp hm
    exact ⟨names, ⟨wraps, type, hat⟩, hshown, rfl⟩
  · rintro ⟨names, ⟨wraps, type, hat⟩, hshown, rfl⟩
    exact ⟨_, (mem_walk_iff hp).mpr ⟨names, wraps, type, hat, hshown, rfl, rfl⟩, rfl⟩

theorem get?_paths_pathOf (ho : schema.Ordered) (hp : schema.Plain)
    (h : schema.At names wraps type) (hs : schema.Shown base names) :
    Table.get? (pathOf base names) (schema.paths base) = some (wrapped wraps type) := by
  cases hget : Table.get? (pathOf base names) (schema.paths base) with
  | none =>
    have hkey : pathOf base names ∈ (schema.paths base).map (·.1) :=
      (mem_keys_iff hp).mpr ⟨names, ⟨wraps, type, h⟩, hs, rfl⟩
    exact absurd hkey (Table.get?_eq_none_iff.mp hget)
  | some shown =>
    rw [get?_paths] at hget
    have hm := List.mem_reverse.mp (Table.mem_of_get? hget)
    obtain ⟨others, wraps', type', h', _, hpath, rfl⟩ := (mem_walk_iff hp).mp hm
    obtain rfl := pathOf_injective (h.plain hp) (h'.plain hp) hpath
    obtain ⟨rfl, rfl⟩ := h.unique ho h'
    rfl

/-- The positions of a tree and the paths of its flat form are in one-to-one correspondence, where a
record at the root of everything has no path. Each path is listed once and tells the type at its
position with the options and sequences on the way there around it. -/
theorem positions_have_paths (ho : schema.Ordered) (hp : schema.Plain) (base : String) :
    Set.BijOn (pathOf base) {names | schema.IsPosition names ∧ schema.Shown base names}
        {path | path ∈ (schema.paths base).map (·.1)} ∧
      ((schema.paths base).map (·.1)).Nodup ∧
      ∀ names wraps type, schema.At names wraps type → schema.Shown base names →
        Table.get? (pathOf base names) (schema.paths base) = some (wrapped wraps type) := by
  refine ⟨⟨?_, ?_, ?_⟩, (paths_sorted schema base).nodup, ?_⟩
  · rintro names ⟨hposition, hs⟩
    exact (mem_keys_iff hp).mpr ⟨names, hposition, hs, rfl⟩
  · rintro names ⟨⟨_, _, h⟩, _⟩ others ⟨⟨_, _, h'⟩, _⟩ he
    exact pathOf_injective (h.plain hp) (h'.plain hp) he
  · intro path hm
    obtain ⟨names, hposition, hs, rfl⟩ := (mem_keys_iff hp).mp hm
    exact ⟨names, ⟨hposition, hs⟩, rfl⟩
  · intro names wraps type h hs
    exact get?_paths_pathOf ho hp h hs

def ball : Schema :=
  .optional (.record [("extra", .generic), ("points", .sequence (.record [("x", .leaf "f32")]))])

theorem ball_each {p : List (String × Schema) → Prop}
    (h : p [("extra", .generic), ("points", .sequence (.record [("x", .leaf "f32")]))])
    (h' : p [("x", .leaf "f32")]) : ball.Each p := by
  refine .optional (.record h (List.forall_mem_cons.mpr ⟨.generic, ?_⟩))
  exact List.forall_mem_singleton.mpr
    (.sequence (.record h' (List.forall_mem_singleton.mpr .leaf)))

/-- At the root of everything the outer record is not listed. -/
theorem positions_have_paths_ball :
    ¬ ball.Shown "" [] ∧
      Set.BijOn (pathOf "") {names | ball.IsPosition names ∧ ball.Shown "" names}
        {path | path ∈ ["extra", "points", "points.x"]} ∧
      Table.get? "points.x" (ball.paths "") = some "Option<Vec<f32>>" ∧
      Table.get? "a.b" (ball.paths "a.b") = some "Option<GenericStruct>" := by
  have ho : ball.Ordered :=
    ball_each (List.pairwise_pair.mpr (by decide)) (List.pairwise_singleton _ _)
  have hp : ball.Plain := ball_each (by simp [PlainName]) (by simp [PlainName])
  obtain ⟨hroot, _, hget⟩ := positions_have_paths ho hp ""
  obtain ⟨_, _, hget'⟩ := positions_have_paths ho hp "a.b"
  have hat : ball.At ["points", "x"] [.optional, .sequence] "f32" :=
    .optional (.field (.tail _ (.head _)) (.sequence (.field (.head _) .leaf)))
  refine ⟨?_, hroot, ?_, ?_⟩
  · intro hs
    cases hs rfl rfl
  · exact hget _ _ _ hat fun _ h => nomatch h
  · exact hget' [] _ _ (.optional .record) fun h => nomatch h

end Downlink.Schema
