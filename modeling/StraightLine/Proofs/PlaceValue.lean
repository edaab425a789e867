import Mathlib
import StraightLine.Text.Decimal

/-!
# Numerals, place by place

A numeral is at most one sign and, behind it, one or more ASCII digits. It denotes the integer that
the places of its digits say, so zeros in front count for nothing and a text may be as long as it
likes. This is said here without a reader, and then the readers are shown to follow it.

## Main definitions

* `Decimal.placeValue`, `Decimal.integerValue` — the number of a row of digits, also with a sign
* `Decimal.Denotes` — a text is a numeral of an integer
* `Decimal.FitsWord` — an integer is a word

## Main results

* `Decimal.toInt?_eq_some_iff` — the texts that are read as integers
* `Decimal.toInt32?_eq_some_iff`, `Decimal.toInt32?_eq_none_iff` — those that are words
-/

namespace StraightLine

namespace Decimal

/-! ## Numerals -/

/-- The number that a row of digits denotes: every digit counts as much as its place. -/
def placeValue : List Char → Nat
  | [] => 0
  | c :: cs => (c.toNat - '0'.toNat) * 10 ^ cs.length + placeValue cs

/-- The integer of a row of digits behind at most one sign. -/
def integerValue : List Char → Int
  | '+' :: cs => placeValue cs
  | '-' :: cs => -placeValue cs
  | cs => placeValue cs

/-- One or more ASCII digits. -/
def IsDigitRow (cs : List Char) : Prop :=
  cs ≠ [] ∧ ∀ c ∈ cs, '0'.toNat ≤ c.toNat ∧ c.toNat ≤ '9'.toNat

/-- The text is a numeral of the integer: a row of digits behind at most one sign. -/
inductive Denotes : List Char → Int → Prop where
  | unsigned {cs : List Char} (digits : IsDigitRow cs) : Denotes cs (placeValue cs)
  | positive {cs : List Char} (digits : IsDigitRow cs) : Denotes ('+' :: cs) (placeValue cs)
  | negative {cs : List Char} (digits : IsDigitRow cs) : Denotes ('-' :: cs) (-placeValue cs)

/-! ## Reading integers -/

/-- Adding up from the left, ten times what there was and the next digit, gives the same as the
places do. -/
theorem ofDigitChars_eq_placeValue (cs : List Char) : Nat.ofDigitChars 10 cs 0 = placeValue cs := by
  induction cs with
  | nil => rfl
  | cons c cs ih =>
    rw [Nat.ofDigitChars_cons, Nat.ofDigitChars_eq_ofDigitChars_zero, ih, placeValue]
    ring

theorem digitsValue?_eq_some_iff {cs : List Char} {n : Nat} :
    digitsValue? cs = some n ↔ IsDigitRow cs ∧ placeValue cs = n := by
  have hrow : (cs ≠ [] ∧ cs.all Char.isDigit = true) ↔ IsDigitRow cs := by
    simp only [IsDigitRow, List.all_eq_true, Char.isDigit_iff_toNat]
  rw [digitsValue?, ofDigitChars_eq_placeValue]
  by_cases h : IsDigitRow cs
  · rw [if_pos (hrow.mpr h), Option.some.injEq]
    exact (and_iff_right h).symm
  · rw [if_neg fun hcs => h (hrow.mp hcs)]
    simp [h]

/-- A row of digits does not begin with a sign. -/
theorem IsDigitRow.head_ne {c : Char} {cs : List Char} (h : IsDigitRow (c :: cs)) :
    c ≠ '+' ∧ c ≠ '-' := by
  have hc := h.2 c (by simp)
  constructor
  · rintro rfl
    exact absurd hc (by decide)
  · rintro rfl
    exact absurd hc (by decide)

theorem integerValue_of_digitRow {cs : List Char} (h : IsDigitRow cs) :
    integerValue cs = placeValue cs := by
  unfold integerValue
  split
  · exact absurd rfl h.head_ne.1
  · exact absurd rfl h.head_ne.2
  · rfl

theorem signedValue?_of_digitRow {cs : List Char} (h : IsDigitRow cs) :
    signedValue? cs = some (placeValue cs : Int) := by
  have hvalue : digitsValue? cs = some (placeValue cs) := digitsValue?_eq_some_iff.mpr ⟨h, rfl⟩
  unfold signedValue?
  split
  · exact absurd rfl h.head_ne.1
  · exact absurd rfl h.head_ne.2
  · rw [hvalue]
    rfl

theorem signedValue?_eq_some_iff {cs : List Char} {n : Int} :
    signedValue? cs = some n ↔ Denotes cs n := by
  constructor
  · intro h
    unfold signedValue? at h
    split at h
    all_goals
      obtain ⟨m, hm, rfl⟩ := Option.map_eq_some_iff.mp h
      obtain ⟨hrow, rfl⟩ := digitsValue?_eq_some_iff.mp hm
    · exact .positive hrow
    · exact .negative hrow
    · exact .unsigned hrow
  · intro h
    cases h with
    | unsigned digits => exact signedValue?_of_digitRow digits
    | positive digits =>
      rw [signedValue?, digitsValue?_eq_some_iff.mpr ⟨digits, rfl⟩]
      rfl
    | negative digits =>
      rw [signedValue?, digitsValue?_eq_some_iff.mpr ⟨digits, rfl⟩]
      rfl

/-- **The texts that are read as integers** are the numerals. -/
theorem toInt?_eq_some_iff {text : String} {n : Int} :
    toInt? text = some n ↔ Denotes text.toList n :=
  signedValue?_eq_some_iff

theorem integerValue_of_toInt? {text : String} {n : Int} (h : toInt? text = some n) :
    integerValue text.toList = n := by
  rw [toInt?_eq_some_iff] at h
  generalize text.toList = cs at h
  cases h with
  | unsigned digits => exact integerValue_of_digitRow digits
  | positive digits => rfl
  | negative digits => rfl

/-! ## Reading words -/

/-- The integer fits a signed word of 32 bits. -/
def FitsWord (n : Int) : Prop :=
  -2147483648 ≤ n ∧ n ≤ 2147483647

theorem fitsWord_toInt (w : Int32) : FitsWord w.toInt := by
  have hmin := w.le_toInt
  have hmax := w.toInt_lt
  rw [FitsWord]
  omega

theorem toInt_ofInt_of_fits {n : Int} (h : FitsWord n) : (Int32.ofInt n).toInt = n := by
  obtain ⟨hmin, hmax⟩ := h
  exact Int32.toInt_ofInt_of_le (by omega) (by omega)

/-- **The texts that are read as words** are the numerals of words. -/
theorem toInt32?_eq_some_iff {text : String} {w : Int32} :
    toInt32? text = some w ↔ Denotes text.toList w.toInt := by
  rw [toInt32?, Option.bind_eq_some_iff]
  constructor
  · rintro ⟨n, hn, hw⟩
    split at hw
    · next hrange =>
      obtain rfl := Option.some.inj hw
      rw [toInt_ofInt_of_fits hrange]
      exact toInt?_eq_some_iff.mp hn
    · cases hw
  · intro h
    refine ⟨w.toInt, toInt?_eq_some_iff.mpr h, ?_⟩
    exact (if_pos (fitsWord_toInt w)).trans (congrArg some w.ofInt_toInt)

theorem toInt32?_eq_none_iff {text : String} :
    toInt32? text = none ↔ ¬ ∃ n, Denotes text.toList n ∧ FitsWord n := by
  rw [Option.eq_none_iff_forall_ne_some]
  constructor
  · rintro h ⟨n, hn, hword⟩
    refine h (Int32.ofInt n) (toInt32?_eq_some_iff.mpr ?_)
    rwa [toInt_ofInt_of_fits hword]
  · intro h w hw
    exact h ⟨w.toInt, toInt32?_eq_some_iff.mp hw, fitsWord_toInt w⟩

-- there is one more word below zero than above
example : toInt32? "-002147483648" = some Int32.minValue ∧ toInt32? "+2147483648" = none := by
  decide +kernel

end Decimal

end StraightLine
