import Downlink.Json.Number
import Downlink.Json.Writer
import Mathlib.Data.List.TakeWhile

/-!
Numbers inside texts. A number is read the same whatever follows it, as long as that cannot belong
to the number; and integers of 64 bits are read back from their digits.
-/
namespace Downlink.Json

/-- What may follow a value inside a text: nothing, or the next punctuation. -/
inductive Ends : List Char → Prop
  | nil : Ends []
  | comma (rest : List Char) : Ends (',' :: rest)
  | bracket (rest : List Char) : Ends (']' :: rest)
  | brace (rest : List Char) : Ends ('\x7d' :: rest)

variable {input rest left digits : List Char}

theorem takeDigits_append (hr : Ends rest) (input : List Char) :
    takeDigits (input ++ rest) = ((takeDigits input).1, (takeDigits input).2 ++ rest) := by
  induction input with
  | nil => cases hr <;> rfl
  | cons c input ih =>
    by_cases hc : c.isDigit
    · simpa [takeDigits, hc] using ih
    · simp [takeDigits, hc]

theorem takeWhole?_append (hr : Ends rest) (h : takeWhole? input = some (digits, left)) :
    takeWhole? (input ++ rest) = some (digits, left ++ rest) := by
  cases input with
  | nil => cases h
  | cons c input =>
    by_cases hc : c = '0'
    · subst hc
      cases h
      rfl
    · rw [takeWhole?] at h
      · rw [List.cons_append, takeWhole?, ← List.cons_append, takeDigits_append hr]
        · cases hd : takeDigits (c :: input) with
          | mk digits more =>
            rw [hd] at h
            cases digits with
            | nil => cases h
            | cons d digits =>
              cases h
              rfl
        · simp [hc]
      · simp [hc]

theorem takeFraction?_append (hr : Ends rest) {fraction : Option (List Char)}
    (h : takeFraction? input = some (fraction, left)) :
    takeFraction? (input ++ rest) = some (fraction, left ++ rest) := by
  cases input with
  | nil =>
    cases h
    cases hr <;> rfl
  | cons c input =>
    by_cases hc : c = '.'
    · subst hc
      rw [takeFraction?] at h
      rw [List.cons_append, takeFraction?, takeDigits_append hr]
      cases hd : takeDigits input with
      | mk digits more =>
        rw [hd] at h
        cases digits with
        | nil => cases h
        | cons d digits =>
          cases h
          rfl
    · rw [takeFraction?] at h
      · cases h
        rw [List.cons_append, takeFraction?]
        simp [hc]
      · simp [hc]

/-- No sign follows a value, so an exponent that lacks its digits gains none. -/
theorem takeSign_append (hr : Ends rest) (input : List Char) :
    takeSign (input ++ rest) = ((takeSign input).1, (takeSign input).2 ++ rest) := by
  cases input with
  | nil => cases hr <;> rfl
  | cons c input =>
    by_cases hm : c = '-'
    · subst hm
      rfl
    · by_cases hp : c = '+'
      · subst hp
        rfl
      · rw [List.cons_append, takeSign, takeSign]
        all_goals simp [hm, hp]

theorem takeExponent?_letter {c : Char} (hc : c = 'e' ∨ c = 'E') (input : List Char) :
    takeExponent? (c :: input) =
      match takeDigits (takeSign input).2 with
      | ([], _) => none
      | (digits, rest) =>
        let size : Int := natOfDigits digits
        some (some (if (takeSign input).1 then -size else size), rest) := by
  rcases hc with rfl | rfl <;> rfl

theorem takeExponent?_append (hr : Ends rest) {exponent : Option Int}
    (h : takeExponent? input = some (exponent, left)) :
    takeExponent? (input ++ rest) = some (exponent, left ++ rest) := by
  cases input with
  | nil =>
    cases h
    cases hr <;> rfl
  | cons c input =>
    by_cases hc : c = 'e' ∨ c = 'E'
    · rw [takeExponent?_letter hc] at h
      rw [List.cons_append, takeExponent?_letter hc, takeSign_append hr, takeDigits_append hr]
      cases hd : takeDigits (takeSign input).2 with
      | mk digits more =>
        rw [hd] at h
        cases digits with
        | nil => cases h
        | cons d digits =>
          cases h
          rfl
    · obtain ⟨he, hE⟩ := not_or.mp hc
      rw [takeExponent?] at h
      · cases h
        rw [List.cons_append, takeExponent?]
        all_goals simp [he, hE]
      all_goals simp [he, hE]

def takeUnsigned? (negative : Bool) (input : List Char) : Option (Json × List Char) := do
  let (whole, input) ← takeWhole? input
  let (fraction, input) ← takeFraction? input
  let (exponent, input) ← takeExponent? input
  let value ← Numeral.value? ⟨negative, whole, fraction, exponent⟩
  return (value, input)

theorem takeNumber?_minus (input : List Char) :
    takeNumber? ('-' :: input) = takeUnsigned? true input := rfl

theorem takeNumber?_unsigned (h : ∀ tail, input ≠ '-' :: tail) :
    takeNumber? input = takeUnsigned? false input := by
  unfold takeNumber?
  split
  next heq =>
    split at heq
    next => exact absurd rfl (h _)
    next =>
      cases heq
      rfl

theorem takeUnsigned?_append (hr : Ends rest) {negative : Bool} {value : Json}
    (h : takeUnsigned? negative input = some (value, left)) :
    takeUnsigned? negative (input ++ rest) = some (value, left ++ rest) := by
  simp only [takeUnsigned?, Option.bind_eq_bind, Option.bind_eq_some_iff] at h ⊢
  obtain ⟨⟨whole, a⟩, hw, ⟨fraction, b⟩, hf, ⟨exponent, c⟩, he, number, hn, heq⟩ := h
  cases heq
  exact ⟨_, takeWhole?_append hr hw, _, takeFraction?_append hr hf, _,
    takeExponent?_append hr he, _, hn, rfl⟩

theorem takeNumber?_append (hr : Ends rest) {value : Json}
    (h : takeNumber? input = some (value, left)) :
    takeNumber? (input ++ rest) = some (value, left ++ rest) := by
  cases input with
  | nil => cases h
  | cons c input =>
    by_cases hc : c = '-'
    · subst hc
      rw [takeNumber?_minus] at h
      rw [List.cons_append, takeNumber?_minus]
      exact takeUnsigned?_append hr h
    · rw [takeNumber?_unsigned (by simp [hc])] at h
      rw [takeNumber?_unsigned (by simp [hc])]
      exact takeUnsigned?_append hr h

theorem takeNumber?_head {value : Json} (h : takeNumber? input = some (value, left)) :
    ∃ c tail, input = c :: tail ∧ (c = '-' ∨ c.isDigit) := by
  cases input with
  | nil => cases h
  | cons c input =>
    refine ⟨c, input, rfl, ?_⟩
    by_contra hn
    obtain ⟨hm, hd⟩ := not_or.mp hn
    have hz : c ≠ '0' := by rintro rfl; exact hd rfl
    rw [takeNumber?_unsigned (by simp [hm]), takeUnsigned?, takeWhole?] at h
    · simp [takeDigits, hd] at h
    · simp [hz]

/-! The digits of a natural number. -/

theorem le_foldl_digits (digits : List Char) (n : Nat) :
    n ≤ digits.foldl (fun n digit => n * 10 + digitValue digit) n := by
  induction digits generalizing n with
  | nil => exact Nat.le_refl n
  | cons digit digits ih =>
    have hnext := ih (n * 10 + digitValue digit)
    simp only [List.foldl_cons]
    omega

theorem gather_of_fits (digits : List Char) (n : Nat)
    (h : digits.foldl (fun n digit => n * 10 + digitValue digit) n < Nat.pow 2 64) :
    gather n digits = (digits.foldl (fun n digit => n * 10 + digitValue digit) n, 0) := by
  induction digits generalizing n with
  | nil => rfl
  | cons digit digits ih =>
    have hnext := Nat.lt_of_le_of_lt (le_foldl_digits digits _) h
    rw [gather, if_pos hnext, ih _ h, List.foldl_cons]

theorem natOfDigits_toDigits (n : Nat) : natOfDigits (Nat.toDigits 10 n) = n := by
  have h := Nat.ofDigitChars_ten_toDigits (n := n)
  rw [Nat.ofDigitChars] at h
  simpa only [natOfDigits, digitValue, Nat.mul_comm] using h

theorem toDigits_head {n : Nat} (h : 0 < n) : ∀ tail, Nat.toDigits 10 n ≠ '0' :: tail := by
  induction n using Nat.strong_induction_on with
  | _ n ih =>
    intro tail ht
    rw [Nat.toDigits_eq_if (by decide)] at ht
    split at ht
    next hn =>
      have hdigit : ∀ m < 10, 0 < m → Nat.digitChar m ≠ '0' := by decide
      exact hdigit n hn h (List.cons.inj ht).1
    next hn =>
      have hlt : n / 10 < n := Nat.div_lt_self h (by decide)
      cases hd : Nat.toDigits 10 (n / 10) with
      | nil => exact absurd hd Nat.toDigits_ne_nil
      | cons c digits =>
        rw [hd] at ht
        cases ht
        exact ih (n / 10) hlt (by omega) digits hd

theorem takeWhole?_toDigits (n : Nat) :
    takeWhole? (Nat.toDigits 10 n) = some (Nat.toDigits 10 n, []) := by
  rcases Nat.eq_zero_or_pos n with rfl | hn
  · rfl
  · have hall : ∀ c ∈ Nat.toDigits 10 n, c.isDigit := fun c hc =>
      Nat.isDigit_of_mem_toDigits (by decide) (by decide) hc
    have hd : takeDigits (Nat.toDigits 10 n) = (Nat.toDigits 10 n, []) := by
      simpa [takeDigits, Prod.ext_iff] using hall
    rw [takeWhole?, hd]
    · cases hc : Nat.toDigits 10 n with
      | nil => exact absurd hc Nat.toDigits_ne_nil
      | cons c digits => rfl
    · exact toDigits_head hn

theorem gather_toDigits {n : Nat} (h : n < Nat.pow 2 64) :
    gather 0 (Nat.toDigits 10 n) = (n, 0) := by
  have hn := natOfDigits_toDigits n
  rw [natOfDigits] at hn
  have hg := gather_of_fits (Nat.toDigits 10 n) 0
  rw [hn] at hg
  exact hg h

theorem takeUnsigned?_toDigits (negative : Bool) (n : Nat) :
    takeUnsigned? negative (Nat.toDigits 10 n) =
      (Numeral.value? ⟨negative, Nat.toDigits 10 n, none, none⟩).map (·, []) := by
  rw [takeUnsigned?, takeWhole?_toDigits, Option.map_eq_bind]
  rfl

def Fits (n : Int) : Prop := -(Nat.pow 2 63 : Int) ≤ n ∧ n < (Nat.pow 2 64 : Int)

instance (n : Int) : Decidable (Fits n) := inferInstanceAs (Decidable (_ ∧ _))

theorem takeNumber?_renderInt {n : Int} (h : Fits n) :
    takeNumber? (renderInt n) = some (.int n, []) := by
  obtain ⟨hlow, hhigh⟩ := h
  have hpow : Nat.pow 2 63 < Nat.pow 2 64 := by decide
  have hfits : n.natAbs < Nat.pow 2 64 := by omega
  unfold renderInt
  generalize hm : n.natAbs = m at hfits ⊢
  split
  next hneg =>
    obtain rfl : n = -m := by omega
    have hzero : m ≠ 0 := by omega
    have hbound : ¬ m > Nat.pow 2 63 := by omega
    rw [takeNumber?_minus, takeUnsigned?_toDigits, Numeral.value?, gather_toDigits hfits]
    simp [hzero, hbound]
  next hpos =>
    obtain rfl : n = m := by omega
    have hminus : ∀ tail, Nat.toDigits 10 m ≠ '-' :: tail := by
      intro tail ht
      have hmem : '-' ∈ Nat.toDigits 10 m := by simp [ht]
      have hdigit := Nat.isDigit_of_mem_toDigits (by decide) (by decide) hmem
      cases hdigit
    rw [takeNumber?_unsigned hminus, takeUnsigned?_toDigits, Numeral.value?,
      gather_toDigits hfits]
    simp

end Downlink.Json
