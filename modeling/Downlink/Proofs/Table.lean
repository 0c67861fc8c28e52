import Downlink.Table
import Mathlib.Data.List.Nodup
import Mathlib.Order.Lattice

/-!
Looking up, putting in and taking out rows of a table. A table that is in order is what putting in
its rows one after the other makes of nothing, and of the rows of one key the last one stays.
-/
namespace Downlink.Table

variable {K V W : Type} {key : K} {value : V} {table : Table K V} {row : K × V}

section Lookup

variable [DecidableEq K]

theorem mem_of_get? (h : get? key table = some value) : (key, value) ∈ table := by
  induction table with
  | nil => cases h
  | cons row rows ih =>
    obtain ⟨other, first⟩ := row
    by_cases hk : other = key
    · simp only [get?, hk, if_true, Option.some.injEq] at h
      simp [hk, h]
    · rw [get?, if_neg hk] at h
      exact List.mem_cons_of_mem _ (ih h)

theorem not_mem_of_get? (h : get? key table = none) : ∀ value, (key, value) ∉ table := by
  induction table with
  | nil => simp
  | cons row rows ih =>
    obtain ⟨other, first⟩ := row
    by_cases hk : other = key
    · simp [get?, hk] at h
    · rw [get?, if_neg hk] at h
      intro value hm
      rcases List.mem_cons.mp hm with he | hm
      · exact hk (Prod.mk.inj he).1.symm
      · exact ih h value hm

theorem get?_of_mem (hn : (table.map (·.1)).Nodup) (hm : (key, value) ∈ table) :
    get? key table = some value := by
  cases hget : get? key table with
  | none => exact absurd hm (not_mem_of_get? hget value)
  | some other =>
    rw [(Prod.mk.inj (List.inj_on_of_nodup_map hn (mem_of_get? hget) hm rfl)).2]

theorem get?_eq_some_iff (hn : (table.map (·.1)).Nodup) :
    get? key table = some value ↔ (key, value) ∈ table := by
  constructor
  · exact mem_of_get?
  · exact get?_of_mem hn

theorem get?_eq_none_iff : get? key table = none ↔ key ∉ table.map (·.1) := by
  constructor
  · intro h hm
    obtain ⟨row, hrow, rfl⟩ := List.mem_map.mp hm
    exact not_mem_of_get? h row.2 hrow
  · intro h
    refine Option.eq_none_iff_forall_ne_some.mpr fun value hv => h ?_
    exact List.mem_map.mpr ⟨_, mem_of_get? hv, rfl⟩

theorem get?_append (key : K) (table rows : List (K × V)) :
    get? key (table ++ rows) = (get? key table).or (get? key rows) := by
  induction table with
  | nil => rfl
  | cons row table ih =>
    obtain ⟨k, v⟩ := row
    rw [List.cons_append, get?, get?, ih]
    split
    next => rfl
    next => rfl

theorem get?_map (key : K) (table : Table K V) (f : V → W) :
    get? key (table.map fun row => (row.1, f row.2)) = (get? key table).map f := by
  induction table with
  | nil => rfl
  | cons row table ih =>
    obtain ⟨k, v⟩ := row
    rw [List.map_cons, get?, get?, ih]
    split
    next => rfl
    next => rfl

theorem get?_reverse (hn : (table.map (·.1)).Nodup) : get? key table.reverse = get? key table := by
  have hr : (table.reverse.map (·.1)).Nodup := by
    rw [List.map_reverse]
    exact List.nodup_reverse.mpr hn
  ext value
  rw [get?_eq_some_iff hr, get?_eq_some_iff hn, List.mem_reverse]

/-- The key stands in some row, and the last such row has the value. -/
def Last (key : K) (value : V) (rows : List (K × V)) : Prop :=
  ∃ before after, rows = before ++ (key, value) :: after ∧ key ∉ after.map (·.1)

theorem get?_reverse_eq_some_iff {rows : List (K × V)} :
    get? key rows.reverse = some value ↔ Last key value rows := by
  constructor
  · intro h
    induction rows with
    | nil => cases h
    | cons first rows ih =>
      rw [List.reverse_cons, get?_append] at h
      cases hrows : get? key rows.reverse with
      | some other =>
        rw [hrows] at h ih
        obtain ⟨before, after, rfl, hafter⟩ := ih h
        exact ⟨first :: before, after, rfl, hafter⟩
      | none =>
        rw [hrows, Option.none_or] at h
        obtain rfl := List.mem_singleton.mp (mem_of_get? h)
        have hafter := get?_eq_none_iff.mp hrows
        rw [List.map_reverse, List.mem_reverse] at hafter
        exact ⟨[], rows, rfl, hafter⟩
  · rintro ⟨before, after, rfl, hafter⟩
    have hnone : get? key after.reverse = none := by
      rw [get?_eq_none_iff, List.map_reverse, List.mem_reverse]
      exact hafter
    simp [get?_append, hnone, get?]

theorem erase_of_not_mem (h : ∀ value, (key, value) ∉ table) : erase key table = table := by
  refine List.filter_eq_self.mpr fun row hr => decide_eq_true ?_
  rintro rfl
  exact h row.2 hr

theorem mem_erase_iff : row ∈ erase key table ↔ row ∈ table ∧ row.1 ≠ key := by
  simp [erase]

theorem erase_append_cons {before after : Table K V}
    (hn : ((before ++ (key, value) :: after).map (·.1)).Nodup) :
    erase key (before ++ (key, value) :: after) = before ++ after := by
  rw [List.map_append, List.map_cons, List.nodup_middle, List.nodup_cons, ← List.map_append] at hn
  have hkey : key ∉ (before ++ after).map (·.1) := hn.1
  have habsent : ∀ other, (key, other) ∉ before ++ after :=
    fun other hm => hkey (List.mem_map_of_mem hm)
  have hfirst : erase key ((key, value) :: after) = erase key after := by simp [erase]
  rw [erase, List.filter_append, ← erase, ← erase, hfirst, erase, erase, ← List.filter_append]
  exact erase_of_not_mem habsent

end Lookup

section Order

variable [LinearOrder K]

theorem Sorted.nodup (h : table.Sorted) : (table.map (·.1)).Nodup :=
  List.pairwise_map.mpr (h.imp ne_of_lt)

theorem Sorted.first_le (h : Sorted (row :: table)) : ∀ other ∈ row :: table, row.1 ≤ other.1 := by
  intro other hm
  rcases List.mem_cons.mp hm with rfl | hm
  · exact le_rfl
  · exact ((List.pairwise_cons.mp h).1 other hm).le

theorem mem_insert (h : row ∈ insert key value table) : row = (key, value) ∨ row ∈ table := by
  induction table with
  | nil => exact Or.inl (List.mem_singleton.mp h)
  | cons first rows ih =>
    unfold insert at h
    split at h
    · exact List.mem_cons.mp h
    · split at h
      · rcases List.mem_cons.mp h with rfl | h
        · exact Or.inr List.mem_cons_self
        · exact (ih h).imp_right (List.mem_cons_of_mem _)
      · exact (List.mem_cons.mp h).imp_right (List.mem_cons_of_mem _)

theorem Sorted.erase [DecidableEq K] (h : table.Sorted) (key : K) : (erase key table).Sorted :=
  List.Pairwise.filter _ h

theorem get?_insert [DecidableEq K] (key other : K) (value : V) (table : Table K V) :
    get? other (insert key value table) =
      if key = other then some value else get? other table := by
  induction table with
  | nil => rfl
  | cons row rows ih =>
    obtain ⟨k, v⟩ := row
    rw [insert]
    split
    next => rw [get?]
    next hge =>
      split
      next hlt =>
        rw [get?, ih, get?]
        by_cases hk : k = other
        · subst hk
          simp [ne_of_gt hlt]
        · simp [hk]
      next hle =>
        obtain rfl := le_antisymm (not_lt.mp hge) (not_lt.mp hle)
        rw [get?, get?]
        split
        next => rfl
        next => rfl

theorem insert_sorted (h : table.Sorted) (key : K) (value : V) :
    (insert key value table).Sorted := by
  induction table with
  | nil => exact List.pairwise_singleton _ _
  | cons row rows ih =>
    obtain ⟨k, v⟩ := row
    obtain ⟨hfirst, hrows⟩ := List.pairwise_cons.mp h
    rw [insert]
    split
    next hlt =>
      refine List.pairwise_cons.mpr ⟨?_, h⟩
      intro row hm
      rcases List.mem_cons.mp hm with rfl | hm
      · exact hlt
      · exact lt_trans hlt (hfirst row hm)
    next hge =>
      split
      next hlt =>
        refine List.pairwise_cons.mpr ⟨?_, ih hrows⟩
        intro row hm
        rcases mem_insert hm with rfl | hm
        · exact hlt
        · exact hfirst row hm
      next hle =>
        obtain rfl := le_antisymm (not_lt.mp hge) (not_lt.mp hle)
        exact List.pairwise_cons.mpr ⟨hfirst, hrows⟩

theorem insertAll_sorted (h : table.Sorted) (rows : List (K × V)) :
    (insertAll rows table).Sorted := by
  induction rows generalizing table with
  | nil => exact h
  | cons row rows ih => exact ih (insert_sorted h row.1 row.2)

theorem mem_insert_iff (h : table.Sorted) (hk : key ∉ table.map (·.1)) :
    row ∈ insert key value table ↔ row = (key, value) ∨ row ∈ table := by
  classical
  obtain ⟨other, shown⟩ := row
  rw [← get?_eq_some_iff (insert_sorted h key value).nodup, ← get?_eq_some_iff h.nodup, get?_insert]
  by_cases he : key = other
  · subst he
    simp [get?_eq_none_iff.mpr hk, eq_comm]
  · simp [he, eq_comm]

/-- What is put in stands before what was there, and what is put in later before what was put in
earlier. -/
theorem get?_insertAll (key : K) (rows : List (K × V)) (table : Table K V) :
    get? key (insertAll rows table) = (get? key rows.reverse).or (get? key table) := by
  induction rows generalizing table with
  | nil => rfl
  | cons row rows ih =>
    obtain ⟨k, v⟩ := row
    rw [insertAll, List.foldl_cons, ← insertAll, ih, get?_insert, List.reverse_cons, get?_append,
      Option.or_assoc, get?, get?]
    split
    next => rfl
    next => rfl

theorem mem_insertAll {rows : List (K × V)} (h : row ∈ insertAll rows table) :
    row ∈ rows ∨ row ∈ table := by
  induction rows generalizing table with
  | nil => exact Or.inr h
  | cons first rows ih =>
    rcases ih h with hm | hm
    · exact Or.inl (List.mem_cons_of_mem _ hm)
    · rcases mem_insert hm with rfl | hm
      · exact Or.inl List.mem_cons_self
      · exact Or.inr hm

theorem length_insert_le (key : K) (value : V) (table : Table K V) :
    (insert key value table).length ≤ table.length + 1 := by
  induction table with
  | nil => exact le_rfl
  | cons row rows ih =>
    rw [insert]
    split
    next => exact le_rfl
    next =>
      split
      next => exact Nat.succ_le_succ ih
      next => exact Nat.le_succ _

theorem length_insert_of_mem (h : table.Sorted) (hm : key ∈ table.map (·.1)) (value : V) :
    (insert key value table).length = table.length := by
  induction table with
  | nil => cases hm
  | cons row rows ih =>
    obtain ⟨hfirst, hrows⟩ := List.pairwise_cons.mp h
    rw [insert]
    rcases List.mem_cons.mp hm with rfl | hm
    · rw [if_neg (lt_irrefl _), if_neg (lt_irrefl _)]
      rfl
    · obtain ⟨other, ho, rfl⟩ := List.mem_map.mp hm
      have hlt := hfirst other ho
      rw [if_neg (not_lt_of_gt hlt), if_pos hlt, List.length_cons,
        ih hrows (List.mem_map_of_mem ho), List.length_cons]

theorem insert_first (h : ∀ row ∈ table, key < row.1) (value : V) :
    insert key value table = (key, value) :: table := by
  cases table with
  | nil => rfl
  | cons row rows => exact if_pos (h row List.mem_cons_self)

theorem insert_last (h : ∀ row ∈ table, row.1 < key) (value : V) :
    insert key value table = table ++ [(key, value)] := by
  induction table with
  | nil => rfl
  | cons row rows ih =>
    obtain ⟨hfirst, hrows⟩ := List.forall_mem_cons.mp h
    rw [insert, if_neg (not_lt_of_gt hfirst), if_pos hfirst, ih hrows, List.cons_append]

theorem insertAll_append {rows : List (K × V)} (h : Sorted (table ++ rows)) :
    insertAll rows table = table ++ rows := by
  induction rows generalizing table with
  | nil => simp [insertAll]
  | cons row rows ih =>
    have hlast : ∀ other ∈ table, other.1 < row.1 := fun other hm =>
      (List.pairwise_append.mp h).2.2 other hm row List.mem_cons_self
    rw [List.append_cons] at h ⊢
    rw [← ih h, ← insert_last hlast row.2]
    rfl

theorem insertAll_of_sorted (h : table.Sorted) : insertAll table [] = table :=
  insertAll_append h

end Order

end Downlink.Table
