import Downlink.Proofs.Capacity

/-!
What may be lost while halves wait. No id waits on both sides, of each kind no more wait than the
limit allows, and a half that joins its kind costs at most one, the one with the lowest id. That one
is the half that has just come where as many wait as may and all of them have higher ids; in all
other cases the next half of its id meets it.
-/
namespace Downlink.Pairing

section Rows

variable {V W : Type} {table own : Table Nat V} {other : Table Nat W} {id : Nat} {value : V}
  {mate : W}

/-- Gives up the half with the lowest id, which stands first, as long as more wait than may: those
that are given up, and those that are left. -/
def giveUp : Table Nat V → Table Nat V × Table Nat V
  | [] => ([], [])
  | row :: rows =>
    if capacity < (row :: rows).length then (row :: (giveUp rows).1, (giveUp rows).2)
    else ([], row :: rows)

theorem giveUp_eq (table : Table Nat V) :
    giveUp table = (table.take (table.length - capacity), trim table) := by
  induction table with
  | nil => rfl
  | cons row rows ih =>
    by_cases h : capacity < (row :: rows).length
    · have hn : (row :: rows).length - capacity = rows.length - capacity + 1 := by
        rw [List.length_cons] at h ⊢
        omega
      rw [giveUp, if_pos h, ih, trim, trim, hn, List.take_succ_cons, List.drop_succ_cons]
    · rw [giveUp, if_neg h, trim, Nat.sub_eq_zero_of_le (not_lt.mp h)]
      rfl

theorem giveUp_append (table : Table Nat V) : (giveUp table).1 ++ (giveUp table).2 = table := by
  rw [giveUp_eq]
  exact List.take_append_drop _ _

theorem trim_of_full {row : Nat × V} (h : table.length = capacity) :
    trim (row :: table) = table := by
  have hn : (row :: table).length - capacity = 1 := by
    rw [List.length_cons]
    omega
  rw [trim, hn, List.drop_one, List.tail_cons]

/-- Where at most one more waits than may, that one is all that is given up. -/
theorem giveUp_cases (h : table.length ≤ capacity + 1) :
    table.length ≤ capacity ∧ giveUp table = ([], table) ∨
      ∃ row rows, table = row :: rows ∧ rows.length = capacity ∧ giveUp table = ([row], rows) := by
  by_cases hl : table.length ≤ capacity
  · refine Or.inl ⟨hl, ?_⟩
    rw [giveUp_eq, trim_of_length_le hl, Nat.sub_eq_zero_of_le hl, List.take_zero]
  · cases table with
    | nil => exact absurd (Nat.zero_le _) hl
    | cons row rows =>
      rw [List.length_cons] at h hl
      have hrows : rows.length = capacity := by omega
      refine Or.inr ⟨row, rows, rfl, hrows, ?_⟩
      rw [giveUp_eq, trim_of_full hrows, List.length_cons, hrows, Nat.add_sub_cancel_left]
      rfl

theorem giveUp_lowest (hs : table.Sorted) (h : table.length ≤ capacity + 1) :
    (giveUp table).1.length ≤ 1 ∧ ∀ row ∈ (giveUp table).1, ∀ half ∈ table, row.1 ≤ half.1 := by
  rcases giveUp_cases h with ⟨_, hg⟩ | ⟨row, rows, rfl, _, hg⟩
  · simp [hg]
  · rw [hg]
    exact ⟨le_rfl, List.forall_mem_singleton.mpr hs.first_le⟩

/-- The halves of two kinds wait in the order of their ids, not too many, and none that has met. -/
structure Tidy (own : Table Nat V) (other : Table Nat W) : Prop where
  own_sorted : own.Sorted
  other_sorted : other.Sorted
  own_within : own.length ≤ capacity
  other_within : other.length ≤ capacity
  apart : (own.map (·.1)).Disjoint (other.map (·.1))

theorem Tidy.symm (h : Tidy own other) : Tidy other own :=
  ⟨h.other_sorted, h.own_sorted, h.other_within, h.own_within, List.disjoint_symm h.apart⟩

/-- What a half can do to those of its own kind and to those of the other. It meets the one that has
its id, and nothing else changes; or it joins its own kind, from which then at most one is given up,
the one with the lowest id. -/
inductive Taken (id : Nat) (value : V) (own : Table Nat V) (other : Table Nat W) :
    Table Nat V → Table Nat W → Option W → Prop where
  | meets {before after mate} (h : other = before ++ (id, mate) :: after) :
      Taken id value own other own (before ++ after) (some mate)
  | waits {given left} (h : id ∉ other.map (·.1))
      (hgiven : giveUp (Table.insert id value own) = (given, left)) (honce : given.length ≤ 1)
      (hlowest : ∀ row ∈ given, ∀ half ∈ Table.insert id value own, row.1 ≤ half.1) :
      Taken id value own other left other none

theorem taken_of_some (h : Tidy own other) (hget : Table.get? id other = some mate) (value : V) :
    Taken id value own other own (Table.erase id other) (some mate) := by
  obtain ⟨before, after, rfl⟩ := List.append_of_mem (Table.mem_of_get? hget)
  rw [Table.erase_append_cons h.other_sorted.nodup]
  exact .meets rfl

theorem taken_of_none (h : Tidy own other) (hget : Table.get? id other = none) (value : V) :
    Taken id value own other (trim (Table.insert id value own)) other none := by
  have hlength := (Table.length_insert_le id value own).trans (Nat.succ_le_succ h.own_within)
  have hleft : trim (Table.insert id value own) = (giveUp (Table.insert id value own)).2 := by
    rw [giveUp_eq]
  obtain ⟨honce, hlowest⟩ := giveUp_lowest (Table.insert_sorted h.own_sorted id value) hlength
  rw [hleft]
  exact .waits (Table.get?_eq_none_iff.mp hget) rfl honce hlowest

theorem length_giveUp_le (h : table.length ≤ capacity + 1) :
    (giveUp table).2.length ≤ capacity := by
  rcases giveUp_cases h with ⟨hl, hg⟩ | ⟨row, rows, _, hrows, hg⟩
  · rwa [hg]
  · rw [hg]
    exact hrows.le

theorem Taken.tidy {left : Table Nat V} {rest : Table Nat W} {met : Option W}
    (ht : Taken id value own other left rest met) (h : Tidy own other) : Tidy left rest := by
  cases ht with
  | @meets before after mate ho =>
    subst ho
    have hsub : (before ++ after).Sublist (before ++ (id, mate) :: after) :=
      (List.sublist_cons_self _ _).append_left _
    exact {
      own_sorted := h.own_sorted
      other_sorted := h.other_sorted.sublist hsub
      own_within := h.own_within
      other_within := hsub.length_le.trans h.other_within
      apart := fun i hi hm => h.apart hi ((hsub.map _).subset hm) }
  | @waits given _ hid hgiven =>
    have hlength := (Table.length_insert_le id value own).trans (Nat.succ_le_succ h.own_within)
    have hall := giveUp_append (Table.insert id value own)
    have hle := length_giveUp_le hlength
    rw [hgiven] at hall hle
    have hsub : left.Sublist (Table.insert id value own) := by
      rw [← hall]
      exact List.sublist_append_right given left
    refine ⟨(Table.insert_sorted h.own_sorted id value).sublist hsub, h.other_sorted, hle,
      h.other_within, ?_⟩
    intro i hi hm
    obtain ⟨row, hrow, rfl⟩ := List.mem_map.mp hi
    rcases Table.mem_insert (hsub.subset hrow) with rfl | hrow
    · exact hid hm
    · exact h.apart (List.mem_map_of_mem hrow) hm

def Crowded (table : Table Nat V) (id : Nat) : Prop :=
  capacity ≤ table.length ∧ ∀ row ∈ table, id < row.1

instance (table : Table Nat V) (id : Nat) : Decidable (Crowded table id) :=
  inferInstanceAs (Decidable (_ ∧ _))

/-- A new half does not come first where another has a lower id. -/
theorem first_ne_of_lower {first : Nat × V} {rows : Table Nat V} (hs : own.Sorted)
    (hnew : id ∉ own.map (·.1)) (hlow : ∃ row ∈ own, row.1 ≤ id)
    (he : Table.insert id value own = first :: rows) : first.1 ≠ id := by
  obtain ⟨row, hrow, hle⟩ := hlow
  have hsorted := Table.insert_sorted hs id value
  have hm : row ∈ Table.insert id value own := (Table.mem_insert_iff hs hnew).mpr (Or.inr hrow)
  rw [he] at hsorted hm
  have hne : row.1 ≠ id := fun hid => hnew (List.mem_map.mpr ⟨row, hrow, hid⟩)
  exact ((hsorted.first_le row hm).trans_lt (lt_of_le_of_ne hle hne)).ne

/-- A half that joins its kind waits there, unless it is the one that is given up. -/
theorem get?_trim_insert (hs : own.Sorted) (hl : own.length ≤ capacity) (id : Nat) (value : V) :
    Table.get? id (trim (Table.insert id value own)) =
      if Crowded own id then none else some value := by
  by_cases hc : Crowded own id
  · obtain ⟨hfull, hhigher⟩ := hc
    rw [Table.insert_first hhigher, trim_of_full (le_antisymm hl hfull), if_pos ⟨hfull, hhigher⟩]
    refine Table.get?_eq_none_iff.mpr fun hm => ?_
    obtain ⟨row, hrow, hid⟩ := List.mem_map.mp hm
    exact (hhigher row hrow).ne hid.symm
  · have hin : Table.get? id (Table.insert id value own) = some value := by
      rw [Table.get?_insert, if_pos rfl]
    have hlength := Table.length_insert_le id value own
    rw [if_neg hc]
    rcases giveUp_cases (hlength.trans (Nat.succ_le_succ hl)) with
      ⟨hle, _⟩ | ⟨first, rows, he, hrows, _⟩
    · rwa [trim_of_length_le hle]
    · -- One is given up, so the id is new and all places were taken before.
      rw [he, List.length_cons, hrows] at hlength
      have hfull : capacity ≤ own.length := Nat.le_of_succ_le_succ hlength
      have hnew : id ∉ own.map (·.1) := by
        intro hm
        have hsame := Table.length_insert_of_mem hs hm value
        rw [he, List.length_cons, hrows] at hsame
        omega
      have hlow : ∃ row ∈ own, row.1 ≤ id := by
        by_contra hn
        exact hc ⟨hfull, fun row hrow => not_le.mp fun hle => hn ⟨row, hrow, hle⟩⟩
      have hfirst := first_ne_of_lower hs hnew hlow he
      rw [he] at hin ⊢
      rw [trim_of_full hrows]
      rwa [Table.get?, if_neg hfirst] at hin

end Rows

def Takes (pairing : Pairing) : Half → Pairing × Option (String × List UInt8) → Prop
  | .frame id image, (next, pair) => ∃ mate,
    Taken id image pairing.frames pairing.announcements next.frames next.announcements mate ∧
      pair = mate.map fun cycler => (cycler, image)
  | .announcement id cycler, (next, pair) => ∃ mate,
    Taken id cycler pairing.announcements pairing.frames next.announcements next.frames mate ∧
      pair = mate.map fun image => (cycler, image)

variable {pairing : Pairing}

theorem takes_take (h : Tidy pairing.frames pairing.announcements) (half : Half) :
    pairing.Takes half (pairing.take half) := by
  cases half with
  | frame id image =>
    cases hget : Table.get? id pairing.announcements with
    | some cycler =>
      simp only [take, onFrame, hget]
      exact ⟨_, taken_of_some h hget image, rfl⟩
    | none =>
      simp only [take, onFrame, hget]
      exact ⟨_, taken_of_none h hget image, rfl⟩
  | announcement id cycler =>
    cases hget : Table.get? id pairing.frames with
    | some image =>
      simp only [take, onAnnouncement, hget]
      exact ⟨_, taken_of_some h.symm hget cycler, rfl⟩
    | none =>
      simp only [take, onAnnouncement, hget]
      exact ⟨_, taken_of_none h.symm hget cycler, rfl⟩

theorem Takes.tidy {half : Half} {result : Pairing × Option (String × List UInt8)}
    (ht : pairing.Takes half result) (h : Tidy pairing.frames pairing.announcements) :
    Tidy result.1.frames result.1.announcements := by
  cases half with
  | frame id image =>
    obtain ⟨mate, htaken, _⟩ := ht
    exact htaken.tidy h
  | announcement id cycler =>
    obtain ⟨mate, htaken, _⟩ := ht
    exact (htaken.tidy h.symm).symm

theorem tidy_empty : Tidy empty.frames empty.announcements :=
  ⟨List.Pairwise.nil, List.Pairwise.nil, Nat.zero_le _, Nat.zero_le _, List.disjoint_nil_left _⟩

theorem respond_tidy (h : Tidy pairing.frames pairing.announcements) (input : Input) :
    Tidy (respond take pairing input).1.frames (respond take pairing input).1.announcements := by
  cases input with
  | half half => exact (takes_take h half).tidy h
  | clear => exact tidy_empty

theorem after_tidy (h : Tidy pairing.frames pairing.announcements) (inputs : List Input) :
    Tidy (after take pairing inputs).frames (after take pairing inputs).announcements := by
  induction inputs generalizing pairing with
  | nil => exact h
  | cons input inputs ih => exact ih (respond_tidy h input)

/-- Whatever halves came, and however often all that waited were given up: of each kind no more wait
than the limit allows, no id waits on both sides, and the next half takes away just the one that it
meets, or it joins its kind and costs at most the lowest of them. -/
theorem waits_within_limit (inputs : List Input) :
    Tidy (after take empty inputs).frames (after take empty inputs).announcements ∧
      (after take empty inputs).waiting ≤ 2 * capacity ∧
      ∀ half, (after take empty inputs).Takes half ((after take empty inputs).take half) := by
  have h := after_tidy tidy_empty inputs
  refine ⟨h, ?_, fun half => takes_take h half⟩
  have hframes := h.own_within
  have hannouncements := h.other_within
  rw [waiting]
  omega

def Crowds (pairing : Pairing) : Half → Prop
  | .frame id _ => Crowded pairing.frames id
  | .announcement id _ => Crowded pairing.announcements id

instance (pairing : Pairing) (half : Half) : Decidable (pairing.Crowds half) :=
  match half with
  | .frame id _ => inferInstanceAs (Decidable (Crowded pairing.frames id))
  | .announcement id _ => inferInstanceAs (Decidable (Crowded pairing.announcements id))

theorem take_take_eq (h : Tidy pairing.frames pairing.announcements) {half other : Half}
    {pair : String × List UInt8} (hf : half.Fits other pair)
    (hnone : (pairing.take half).2 = none) :
    ((pairing.take half).1.take other).2 = if pairing.Crowds half then none else some pair := by
  cases hf with
  | @frame id image cycler =>
    cases hget : Table.get? id pairing.announcements with
    | some other => simp [take, onFrame, hget] at hnone
    | none =>
      have hwaits := get?_trim_insert h.own_sorted h.own_within id image
      by_cases hc : Crowded pairing.frames id
      · rw [if_pos hc] at hwaits
        simp only [take, onFrame, onAnnouncement, hget, hwaits]
        exact (if_pos hc).symm
      · rw [if_neg hc] at hwaits
        simp only [take, onFrame, onAnnouncement, hget, hwaits]
        exact (if_neg hc).symm
  | @announcement id image cycler =>
    cases hget : Table.get? id pairing.frames with
    | some other => simp [take, onAnnouncement, hget] at hnone
    | none =>
      have hwaits := get?_trim_insert h.other_sorted h.other_within id cycler
      by_cases hc : Crowded pairing.announcements id
      · rw [if_pos hc] at hwaits
        simp only [take, onAnnouncement, onFrame, hget, hwaits]
        exact (if_pos hc).symm
      · rw [if_neg hc] at hwaits
        simp only [take, onAnnouncement, onFrame, hget, hwaits]
        exact (if_neg hc).symm

/-- A half that meets none meets the next one of its id, which makes the image whole, except where
as many of its kind waited as may and all of them had higher ids: then it is given up itself. -/
theorem first_half_waits (inputs : List Input) {half other : Half} {pair : String × List UInt8}
    (hf : half.Fits other pair) (hnone : ((after take empty inputs).take half).2 = none) :
    (((after take empty inputs).take half).1.take other).2 =
      if (after take empty inputs).Crowds half then none else some pair :=
  take_take_eq (after_tidy tidy_empty inputs) hf hnone

def stuck : List Input := (List.range capacity).map fun id => .half (.frame (id + 1) [])

/-- A frame with a lower id than all of them does not meet its announcement. -/
theorem lowest_not_met :
    Half.Fits (.frame 0 [7]) (.announcement 0 "c") ("c", [7]) ∧
      ((after take empty stuck).take (.frame 0 [7])).2 = none ∧
      (((after take empty stuck).take (.frame 0 [7])).1.take (.announcement 0 "c")).2 = none :=
  ⟨.frame, by decide +kernel, by decide +kernel⟩

/-- A frame with a higher id than one of them does, though all places are taken. -/
theorem first_half_waits_stuck :
    (after take empty stuck).frames.length = capacity ∧
      Half.Fits (.frame 20 [7]) (.announcement 20 "c") ("c", [7]) ∧
      ((after take empty stuck).take (.frame 20 [7])).2 = none ∧
      (((after take empty stuck).take (.frame 20 [7])).1.take (.announcement 20 "c")).2 =
        some ("c", [7]) := by
  have hnone : ((after take empty stuck).take (.frame 20 [7])).2 = none := by decide +kernel
  refine ⟨by decide +kernel, .frame, hnone, ?_⟩
  rw [first_half_waits stuck .frame hnone, if_neg (by decide +kernel)]

end Downlink.Pairing
