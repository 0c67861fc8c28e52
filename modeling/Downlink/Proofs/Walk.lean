import Downlink.Proofs.Table
import Downlink.Schema
import Mathlib.Data.String.Basic

/-!
The flat form of a schema as what is left of a walk through its tree. Where paths fall together, the
type that is met last stays, on whatever level and inside of whatever is wrapped.
-/
namespace Downlink.Schema

mutual

/-- The paths of a tree that stands at `base`, each with its type, as they are met on a walk from
the root down. A record below the root comes before its fields, and these come in their order, which
is that of their names. -/
def walk (base : String) : Schema → List (String × String)
  | .leaf name => [(base, name)]
  | .record fields =>
    (if base = "" then [] else [(base, "GenericStruct")]) ++ walkFields base fields
  | .generic => [(base, "GenericStruct")]
  | .optional inner => (walk base inner).map fun row => (row.1, "Option<" ++ row.2 ++ ">")
  | .sequence inner => (walk base inner).map fun row => (row.1, "Vec<" ++ row.2 ++ ">")

def walkFields (base : String) : List (String × Schema) → List (String × String)
  | [] => []
  | (name, field) :: fields =>
    walk (if base = "" then name else base ++ "." ++ name) field ++ walkFields base fields

end

theorem joinPath_eq (base name : String) :
    joinPath base name = if base = "" then name else base ++ "." ++ name := by
  simp only [joinPath, String.isEmpty_iff]

mutual

theorem pathsInto_sorted {types : PathTypes} (h : types.Sorted) (base : String) :
    ∀ schema : Schema, (schema.pathsInto base types).Sorted
  | .leaf _ | .generic => Table.insert_sorted h _ _
  | .record fields => by
    rw [pathsInto]
    apply fieldPathsInto_sorted _ base fields
    split
    next => exact h
    next => exact Table.insert_sorted h _ _
  | .optional _ | .sequence _ => Table.insertAll_sorted h _

theorem fieldPathsInto_sorted {types : PathTypes} (h : types.Sorted) (base : String) :
    ∀ fields : List (String × Schema), (fieldPathsInto base types fields).Sorted
  | [] => h
  | (name, field) :: fields =>
    fieldPathsInto_sorted (pathsInto_sorted h (joinPath base name) field) base fields

end

theorem paths_sorted (schema : Schema) (base : String) : (schema.paths base).Sorted :=
  pathsInto_sorted List.Pairwise.nil base schema

/-- To gather rows on their own, so that of two with one path the later stays, and to put them in
wrapped leaves the same types as to put the rows in wrapped one by one. -/
theorem get?_insertAll_wrapped {rows : List (String × String)} {gathered : PathTypes}
    (hs : gathered.Sorted)
    (hrows : ∀ path, Table.get? path gathered = Table.get? path rows.reverse)
    (wrap : String → String) (path : String) (types : PathTypes) :
    Table.get? path (types.insertAll (gathered.map fun row => (row.1, wrap row.2))) =
      (Table.get? path (rows.map fun row => (row.1, wrap row.2)).reverse).or
        (Table.get? path types) := by
  rw [Table.get?_insertAll, ← List.map_reverse, ← List.map_reverse, Table.get?_map, Table.get?_map,
    Table.get?_reverse hs.nodup, hrows]

theorem get?_insert_row (base name path : String) (types : PathTypes) :
    Table.get? path (types.insert base name) =
      (Table.get? path [(base, name)]).or (Table.get? path types) := by
  rw [Table.get?_insert, Table.get?, Table.get?]
  split
  next => rfl
  next => rfl

mutual

/-- A path has the type with which it was met last. What it had before counts if it is not met. -/
theorem get?_pathsInto (path base : String) : ∀ (schema : Schema) (types : PathTypes),
    Table.get? path (schema.pathsInto base types) =
      (Table.get? path (schema.walk base).reverse).or (Table.get? path types)
  | .leaf name, types => get?_insert_row base name path types
  | .generic, types => get?_insert_row base genericName path types
  | .record fields, types => by
    rw [pathsInto, get?_fieldPathsInto path base fields, walk, List.reverse_append,
      Table.get?_append, Option.or_assoc]
    congr 1
    by_cases hb : base = ""
    · rw [if_pos (String.isEmpty_iff.mpr hb), if_pos hb]
      rfl
    · rw [if_neg (mt String.isEmpty_iff.mp hb), if_neg hb]
      exact get?_insert_row base genericName path types
  | .optional inner, types | .sequence inner, types => by
    rw [pathsInto, walk]
    refine get?_insertAll_wrapped (pathsInto_sorted List.Pairwise.nil base inner) ?_ _ path types
    intro other
    rw [get?_pathsInto other base inner, Table.get?, Option.or_none]

theorem get?_fieldPathsInto (path base : String) :
    ∀ (fields : List (String × Schema)) (types : PathTypes),
      Table.get? path (fieldPathsInto base types fields) =
        (Table.get? path (walkFields base fields).reverse).or (Table.get? path types)
  | [], _ => rfl
  | (name, field) :: fields, types => by
    rw [fieldPathsInto, get?_fieldPathsInto path base fields, get?_pathsInto path _ field,
      walkFields, ← joinPath_eq, List.reverse_append, Table.get?_append, Option.or_assoc]

end

theorem get?_paths (schema : Schema) (base path : String) :
    Table.get? path (schema.paths base) = Table.get? path (schema.walk base).reverse := by
  rw [paths, get?_pathsInto, Table.get?, Option.or_none]

theorem mem_keys_paths (schema : Schema) (base path : String) :
    path ∈ (schema.paths base).map (·.1) ↔ path ∈ (schema.walk base).map (·.1) := by
  rw [← not_iff_not, ← Table.get?_eq_none_iff, get?_paths, Table.get?_eq_none_iff,
    List.map_reverse, List.mem_reverse]

/-- The flat form has exactly the paths that are met on the walk, each once and with the type with
which it was met last. Nothing is assumed of the names. -/
theorem last_met_stays (schema : Schema) (base : String) :
    (schema.paths base).Sorted ∧
      (∀ path, path ∈ (schema.paths base).map (·.1) ↔ path ∈ (schema.walk base).map (·.1)) ∧
      ∀ path type, Table.get? path (schema.paths base) = some type ↔
        Table.Last path type (schema.walk base) := by
  refine ⟨paths_sorted schema base, mem_keys_paths schema base, ?_⟩
  intro path type
  rw [get?_paths, Table.get?_reverse_eq_some_iff]

/-- A field is named as a path of an earlier one, and names below the root are empty. -/
def colliding : Schema :=
  .record [("", .generic), ("a", .optional (.record [("b", .leaf "f32")])),
    ("a.b", .sequence (.record [("", .leaf "u8")]))]

theorem last_met_stays_colliding :
    colliding.walk "" =
        [("", "GenericStruct"), ("a", "Option<GenericStruct>"), ("a.b", "Option<f32>"),
          ("a.b", "Vec<GenericStruct>"), ("a.b.", "Vec<u8>")] ∧
      (∀ path, path ∈ (colliding.paths "").map (·.1) ↔ path ∈ ["", "a", "a.b", "a.b", "a.b."]) ∧
      Table.get? "a.b" (colliding.paths "") = some "Vec<GenericStruct>" ∧
      Table.get? "a.b." (colliding.paths "") = some "Vec<u8>" := by
  obtain ⟨_, hkeys, htypes⟩ := last_met_stays colliding ""
  have hwalk : colliding.walk "" =
      [("", "GenericStruct"), ("a", "Option<GenericStruct>"), ("a.b", "Option<f32>"),
        ("a.b", "Vec<GenericStruct>"), ("a.b.", "Vec<u8>")] := by decide +kernel
  rw [hwalk] at hkeys
  refine ⟨hwalk, hkeys, ?_, ?_⟩
  · rw [htypes, hwalk]
    exact ⟨[("", "GenericStruct"), ("a", "Option<GenericStruct>"), ("a.b", "Option<f32>")],
      [("a.b.", "Vec<u8>")], rfl, by decide +kernel⟩
  · rw [htypes, hwalk]
    exact ⟨[("", "GenericStruct"), ("a", "Option<GenericStruct>"), ("a.b", "Option<f32>"),
      ("a.b", "Vec<GenericStruct>")], [], rfl, List.not_mem_nil⟩

end Downlink.Schema
