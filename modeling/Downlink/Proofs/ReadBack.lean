import Downlink.Json.Reader
import Downlink.Proofs.Numerals
import Downlink.Proofs.Table
import Mathlib.Data.String.Basic

/-!
Texts of JSON values are read back: what is read is the value that was written, with the members of
its objects in order. Strings and integers are read back whatever they are; of a floating point
number it is taken for granted that its digits are.
-/
namespace Downlink.Json

variable {input rest : List Char} {depth : Nat}

/-! Strings are read back one escape at a time. -/

theorem unit?_hexDigit :
    ∀ n < 32, unit? '0' '0' (hexDigit (n / 16)) (hexDigit (n % 16)) = some n := by
  decide

theorem takeString?_plain {c : Char} (hq : c ≠ '"') (hb : c ≠ '\\') (hc : ¬ c < ' ')
    (rest : List Char) :
    takeString? (c :: rest) = (takeString? rest).map fun (text, rest) => (c :: text, rest) := by
  rw [takeString?]
  · simp [hb, hc]
  · simpa using hq
  · intros
    simp_all
  · intros
    simp_all

theorem takeString?_control {c : Char} (hc : c < ' ') (rest : List Char) :
    takeString? ('\\' :: 'u' :: '0' :: '0' :: hexDigit (c.toNat / 16) :: hexDigit (c.toNat % 16) ::
        rest) =
      (takeString? rest).map fun (text, rest) => (c :: text, rest) := by
  have hn : c.toNat < 32 := hc
  have hlow : isLowSurrogate c.toNat = false := by
    simp only [isLowSurrogate, Bool.and_eq_false_iff, decide_eq_false_iff_not]
    omega
  have hhigh : isHighSurrogate c.toNat = false := by
    simp only [isHighSurrogate, Bool.and_eq_false_iff, decide_eq_false_iff_not]
    omega
  rw [takeString?]
  simp [unit?_hexDigit _ hn, hlow, hhigh]

theorem takeString?_escape (c : Char) (rest : List Char) :
    takeString? (escape c ++ rest) =
      (takeString? rest).map fun (text, rest) => (c :: text, rest) := by
  unfold escape
  split
  next => simp [takeString?, shortEscape?]
  next => simp [takeString?, shortEscape?]
  next => simp [takeString?, shortEscape?]
  next => simp [takeString?, shortEscape?]
  next => simp [takeString?, shortEscape?]
  next => simp [takeString?, shortEscape?]
  next => simp [takeString?, shortEscape?]
  next hq hb _ _ _ _ _ =>
    split
    next hc => exact takeString?_control hc rest
    next hc => exact takeString?_plain hq hb hc rest

theorem takeString?_escaped (text rest : List Char) :
    takeString? (text.flatMap escape ++ '"' :: rest) = some (text, rest) := by
  induction text with
  | nil => simp [takeString?]
  | cons c text ih =>
    rw [List.flatMap_cons, List.append_assoc, takeString?_escape, ih]
    rfl

/-! Values. -/

mutual

/-- The value with the members of its objects in order; of equal names the last one counts. -/
def normal : Json → Json
  | .arr items => .arr (normalItems items)
  | .obj members => .obj (Table.insertAll (normalMembers members) [])
  | value => value

def normalItems : List Json → List Json
  | [] => []
  | item :: items => normal item :: normalItems items

def normalMembers : List (String × Json) → List (String × Json)
  | [] => []
  | (name, value) :: members => (name, normal value) :: normalMembers members

end

theorem normalItems_eq (items : List Json) : normalItems items = items.map normal := by
  induction items with
  | nil => rfl
  | cons item items ih => rw [normalItems, ih, List.map_cons]

theorem normalMembers_eq (members : List (String × Json)) :
    normalMembers members = members.map fun member => (member.1, member.2.normal) := by
  induction members with
  | nil => rfl
  | cons member members ih => rw [normalMembers, ih, List.map_cons]

theorem mem_normalMembers {row : String × Json} {members : List (String × Json)}
    (h : row ∈ Table.insertAll (normalMembers members) []) :
    ∃ member ∈ members, row = (member.1, member.2.normal) := by
  rcases Table.mem_insertAll h with hm | hm
  · rw [normalMembers_eq] at hm
    obtain ⟨member, hmember, rfl⟩ := List.mem_map.mp hm
    exact ⟨member, hmember, rfl⟩
  · cases hm

theorem normal_obj_of_sorted {members : List (String × Json)} (hs : Table.Sorted members)
    (h : ∀ member ∈ members, member.2.normal = member.2) :
    (Json.obj members).normal = .obj members := by
  have hmap : normalMembers members = members := by
    rw [normalMembers_eq]
    calc
      members.map (fun member => (member.1, member.2.normal)) = members.map id :=
        List.map_congr_left fun member hm => Prod.ext rfl (h member hm)
      _ = members := List.map_id members
  rw [normal, hmap, Table.insertAll_of_sorted hs]

mutual

theorem normal_normal : ∀ value : Json, value.normal.normal = value.normal
  | .null | .bool _ | .int _ | .float _ | .str _ => rfl
  | .arr items => by rw [normal, normal, normalItems_normal items]
  | .obj members => by
    rw [normal]
    apply normal_obj_of_sorted (Table.insertAll_sorted List.Pairwise.nil _)
    intro row hm
    obtain ⟨member, hmember, rfl⟩ := mem_normalMembers hm
    exact members_normal members member hmember

theorem normalItems_normal :
    ∀ items : List Json, normalItems (normalItems items) = normalItems items
  | [] => rfl
  | item :: items => by
    rw [normalItems, normalItems, normal_normal item, normalItems_normal items]

theorem members_normal :
    ∀ members : List (String × Json), ∀ member ∈ members,
      member.2.normal.normal = member.2.normal
  | [] => fun _ hm => by cases hm
  | (_, value) :: members =>
    List.forall_mem_cons.mpr ⟨normal_normal value, members_normal members⟩

end

theorem members_of_normal {members : List (String × Json)}
    (h : (Json.obj members).normal = .obj members) :
    Table.Sorted members ∧ ∀ member ∈ members, member.2.normal = member.2 := by
  have hrows : Table.insertAll (normalMembers members) [] = members := Json.obj.inj h
  constructor
  · rw [← hrows]
    exact Table.insertAll_sorted List.Pairwise.nil _
  · intro row hm
    rw [← hrows] at hm
    obtain ⟨member, _, rfl⟩ := mem_normalMembers hm
    exact normal_normal member.2

theorem items_of_normal {items : List Json} (h : (Json.arr items).normal = .arr items) :
    ∀ item ∈ items, item.normal = item := by
  intro item hm
  rw [← Json.arr.inj h, normalItems_eq] at hm
  obtain ⟨first, _, rfl⟩ := List.mem_map.mp hm
  exact normal_normal first

/-- The text of the value is read back: it nests at most so deep, its integers fit 64 bits, and the
digits of its other numbers are read as those numbers. -/
inductive Legible : Nat → Json → Prop
  | null {depth : Nat} : Legible depth .null
  | bool {depth : Nat} (value : Bool) : Legible depth (.bool value)
  | int {depth : Nat} {n : Int} (fits : Fits n) : Legible depth (.int n)
  | float {depth : Nat} {x : Binary64}
      (digits : takeNumber? (x.render numberStyle) = some (.float x, [])) : Legible depth (.float x)
  | str {depth : Nat} (text : String) : Legible depth (.str text)
  | arr {depth : Nat} {items : List Json} (each : ∀ item ∈ items, Legible depth item) :
      Legible (depth + 1) (.arr items)
  | obj {depth : Nat} {members : List (String × Json)}
      (each : ∀ member ∈ members, Legible depth member.2) : Legible (depth + 1) (.obj members)

theorem Legible.normal_legible {value : Json} (h : Legible depth value) :
    Legible depth value.normal := by
  induction h with
  | null => exact .null
  | bool value => exact .bool value
  | int fits => exact .int fits
  | float digits => exact .float digits
  | str text => exact .str text
  | arr each ih =>
    refine .arr fun item hm => ?_
    rw [normalItems_eq] at hm
    obtain ⟨first, hfirst, rfl⟩ := List.mem_map.mp hm
    exact ih first hfirst
  | obj each ih =>
    refine .obj fun row hm => ?_
    obtain ⟨member, hmember, rfl⟩ := mem_normalMembers hm
    exact ih member hmember

theorem skipBlanks_cons {c : Char} (h : isBlank c = false) (tail : List Char) :
    skipBlanks (c :: tail) = c :: tail := by
  simp [skipBlanks, h]

def Opens (c : Char) : Prop := isBlank c = false ∧ c ≠ ']'

theorem ne_of_number {c : Char} (h : c = '-' ∨ c.isDigit) (d : Char)
    (hd : ¬ (d = '-' ∨ d.isDigit)) : c ≠ d := by
  rintro rfl
  exact hd h

theorem opens_of_number {c : Char} (h : c = '-' ∨ c.isDigit) : Opens c := by
  constructor
  · simp [isBlank, ne_of_number h ' ' (by decide), ne_of_number h '\t' (by decide),
      ne_of_number h '\n' (by decide), ne_of_number h '\r' (by decide)]
  · exact ne_of_number h ']' (by decide)

/-- No other value begins as a number does. -/
theorem takeValue_number {c : Char} (h : c = '-' ∨ c.isDigit) (depth : Nat) (tail : List Char) :
    takeValue depth (c :: tail) = takeNumber? (c :: tail) := by
  rw [takeValue.eq_def, skipBlanks_cons (opens_of_number h).1]
  simp [ne_of_number h 'n' (by decide), ne_of_number h 't' (by decide),
    ne_of_number h 'f' (by decide), ne_of_number h '"' (by decide),
    ne_of_number h '[' (by decide), ne_of_number h '\x7b' (by decide)]

theorem Legible.head {value : Json} (h : Legible depth value) :
    ∃ c tail, value.render = c :: tail ∧ Opens c := by
  cases h with
  | null => exact ⟨'n', _, rfl, by decide, by decide⟩
  | bool value => cases value <;> exact ⟨_, _, rfl, by decide, by decide⟩
  | int fits =>
    obtain ⟨c, tail, hr, hc⟩ := takeNumber?_head (takeNumber?_renderInt fits)
    exact ⟨c, tail, hr, opens_of_number hc⟩
  | float digits =>
    obtain ⟨c, tail, hr, hc⟩ := takeNumber?_head digits
    exact ⟨c, tail, hr, opens_of_number hc⟩
  | str text => exact ⟨'"', _, rfl, by decide, by decide⟩
  | @arr _ items each => cases items <;> exact ⟨'[', _, rfl, by decide, by decide⟩
  | @obj _ members each => cases members <;> exact ⟨'\x7b', _, rfl, by decide, by decide⟩

/-- Wherever the text of the value stands, the value is taken off and all that follows is left. -/
def ReadsBack (depth : Nat) (value : Json) : Prop :=
  ∀ rest, Ends rest → takeValue depth (value.render ++ rest) = some (value.normal, rest)

theorem readsBack_number {value : Json} (hn : value.normal = value)
    (h : takeNumber? value.render = some (value, [])) : ReadsBack depth value := by
  intro rest hr
  obtain ⟨c, tail, hc, hnumber⟩ := takeNumber?_head h
  have happend := takeNumber?_append hr h
  rw [hc, List.cons_append] at happend ⊢
  rw [takeValue_number hnumber, happend, hn]
  rfl

theorem renderItems_length (items : List Json) : items.length < (renderItems items).length := by
  induction items with
  | nil => decide
  | cons item items ih =>
    simp only [renderItems, List.length_cons, List.length_append]
    omega

theorem renderMembers_length (members : List (String × Json)) :
    members.length < (renderMembers members).length := by
  induction members with
  | nil => decide
  | cons member members ih =>
    simp only [renderMembers, List.length_cons, List.length_append]
    omega

theorem takeItems_render {item : Json} {items : List Json} {fuel : Nat}
    (h : ∀ value ∈ item :: items, ReadsBack depth value) (hf : items.length < fuel)
    (rest : List Char) :
    takeItems (takeValue depth) fuel (item.render ++ (renderItems items ++ rest)) =
      some (normalItems (item :: items), rest) := by
  induction items generalizing item fuel with
  | nil =>
    cases fuel with
    | zero => cases hf
    | succ fuel =>
      have hitem := h item List.mem_cons_self _ (.bracket rest)
      simp [takeItems, renderItems, hitem, skipBlanks, isBlank, normalItems]
  | cons next items ih =>
    cases fuel with
    | zero => cases hf
    | succ fuel =>
      have hitem := h item List.mem_cons_self _
        (.comma (next.render ++ (renderItems items ++ rest)))
      have hnext := ih (fun value hm => h value (List.mem_cons_of_mem _ hm))
        (Nat.lt_of_succ_lt_succ hf)
      simp [takeItems, renderItems, hitem, hnext, skipBlanks, isBlank, normalItems]

theorem takeMember_render {value : Json} (h : ReadsBack depth value) (name : String)
    (hr : Ends rest) :
    takeMember (takeValue depth) (renderString name.toList ++ ':' :: (value.render ++ rest)) =
      some ((name, value.normal), rest) := by
  simp [takeMember, renderString, skipBlanks, isBlank, takeString?_escaped, h rest hr]

theorem takeMembers_render {member : String × Json} {members : List (String × Json)} {fuel : Nat}
    (h : ∀ row ∈ member :: members, ReadsBack depth row.2) (hf : members.length < fuel)
    (rest : List Char) :
    takeMembers (takeValue depth) fuel
        (renderString member.1.toList ++ ':' :: (member.2.render ++
          (renderMembers members ++ rest))) =
      some (normalMembers (member :: members), rest) := by
  induction members generalizing member fuel with
  | nil =>
    cases fuel with
    | zero => cases hf
    | succ fuel =>
      have hmember := takeMember_render (h member List.mem_cons_self) member.1 (.brace rest)
      simp [takeMembers, renderMembers, hmember, skipBlanks, isBlank, normalMembers]
  | cons next members ih =>
    cases fuel with
    | zero => cases hf
    | succ fuel =>
      have hmember := takeMember_render (h member List.mem_cons_self) member.1
        (.comma (renderString next.1.toList ++ ':' :: (next.2.render ++
          (renderMembers members ++ rest))))
      have hnext := ih (fun row hm => h row (List.mem_cons_of_mem _ hm))
        (Nat.lt_of_succ_lt_succ hf)
      simp [takeMembers, renderMembers, hmember, hnext, skipBlanks, isBlank, normalMembers]

theorem takeValue_bracket {c : Char} (h : Opens c) (tail : List Char) :
    takeValue (depth + 1) ('[' :: c :: tail) =
      (takeItems (takeValue depth) (tail.length + 1) (c :: tail)).map
        fun (items, rest) => (.arr items, rest) := by
  rw [takeValue.eq_def, skipBlanks_cons (by decide)]
  simp only [skipBlanks_cons h.1]
  split
  next heq => exact absurd (List.cons.inj heq).1 h.2
  next => rfl

theorem takeValue_brace (tail : List Char) :
    takeValue (depth + 1) ('\x7b' :: '"' :: tail) =
      (takeMembers (takeValue depth) (tail.length + 1) ('"' :: tail)).map
        fun (members, rest) => (.obj (Table.insertAll members []), rest) := by
  simp [takeValue, skipBlanks, isBlank]

theorem takeWord_append (word : String) (value : Json) (rest : List Char) :
    takeWord word value (word.toList ++ rest) = some (value, rest) := by
  have hprefix : word.toList.isPrefixOf (word.toList ++ rest) := by simp
  rw [takeWord, if_pos hprefix, ← String.length_toList, List.drop_left]

theorem readsBack_obj {members : List (String × Json)}
    (h : ∀ member ∈ members, ReadsBack depth member.2) : ReadsBack (depth + 1) (.obj members) := by
  intro rest _
  cases members with
  | nil => simp [render, takeValue, skipBlanks, isBlank, normal, normalMembers, Table.insertAll]
  | cons member members =>
    have hlength := renderMembers_length members
    have hfuel : members.length < (member.1.toList.flatMap escape ++ '"' :: ':' ::
        (member.2.render ++ (renderMembers members ++ rest))).length + 1 := by
      simp only [List.length_append, List.length_cons]
      omega
    have hmembers := takeMembers_render h hfuel rest
    simp only [render, renderString, List.cons_append, List.append_assoc, List.nil_append]
      at hmembers ⊢
    rw [takeValue_brace, hmembers]
    rfl

theorem Legible.readsBack {value : Json} (h : Legible depth value) : ReadsBack depth value := by
  induction h with
  | null =>
    intro rest _
    have hword := takeWord_append "ull" .null rest
    simpa [render, takeValue, skipBlanks, isBlank, normal] using hword
  | bool value =>
    intro rest _
    cases value with
    | true =>
      have hword := takeWord_append "rue" (.bool true) rest
      simpa [render, takeValue, skipBlanks, isBlank, normal] using hword
    | false =>
      have hword := takeWord_append "alse" (.bool false) rest
      simpa [render, takeValue, skipBlanks, isBlank, normal] using hword
  | int fits => exact readsBack_number rfl (takeNumber?_renderInt fits)
  | float digits => exact readsBack_number rfl digits
  | str text =>
    intro rest _
    simp [render, renderString, takeValue, skipBlanks, isBlank, takeString?_escaped, normal]
  | @arr depth items each ih =>
    intro rest _
    cases items with
    | nil => simp [render, takeValue, skipBlanks, isBlank, normal, normalItems]
    | cons item items =>
      obtain ⟨c, tail, hc, hopens⟩ := (each item List.mem_cons_self).head
      have hlength := renderItems_length items
      have hfuel : items.length < (tail ++ (renderItems items ++ rest)).length + 1 := by
        simp only [List.length_append]
        omega
      have hitems := takeItems_render ih hfuel rest
      rw [hc, List.cons_append] at hitems
      simp only [render, hc, List.cons_append, List.append_assoc]
      rw [takeValue_bracket hopens, hitems]
      rfl
  | obj each ih => exact readsBack_obj ih

theorem ReadsBack.read?_eq {value : Json} (h : ReadsBack maxDepth value) :
    read? value.write = some value.normal := by
  have htake := h [] .nil
  rw [List.append_nil] at htake
  rw [read?, write, String.toList_ofList, readChars?, htake]
  rfl

/-- What is read of a text is the value that was written, with the members of its objects in order.
Values nest at most as deep as they are read. -/
theorem read?_write {value : Json} (h : Legible maxDepth value) :
    read? value.write = some value.normal := h.readsBack.read?_eq

end Downlink.Json
