/-!
# Decimal numerals

Integers as decimal text and back. Writing gives the one numeral without leading zeros, with `-` in
front of a negative number. Reading takes an optional sign and one or more ASCII digits, leading
zeros included; a 32-bit reader refuses what does not fit its range.

## Main definitions

* `Decimal.ofNat`, `Decimal.ofInt` — the numeral of a number
* `Decimal.toInt?` — the number that a numeral denotes
* `Decimal.toInt32?` — the same within the signed 32-bit range

## Main results

* `Decimal.toInt?_ofInt` — a written number is read back
-/

namespace StraightLine.Decimal

/-- The digits of a natural number, most significant first. -/
def digits (n : Nat) : List Char :=
  Nat.toDigits 10 n

/-- The numeral of a natural number. -/
def ofNat (n : Nat) : String :=
  String.ofList (digits n)

/-- The characters of the numeral of an integer. -/
def signedDigits : Int → List Char
  | .ofNat n => digits n
  | .negSucc n => '-' :: digits (n + 1)

/-- The numeral of an integer. -/
def ofInt (n : Int) : String :=
  String.ofList (signedDigits n)

/-- The number that a nonempty row of digits denotes. -/
def digitsValue? (cs : List Char) : Option Nat :=
  if cs ≠ [] ∧ cs.all Char.isDigit then some (Nat.ofDigitChars 10 cs 0) else none

/-- The number that a row of digits behind at most one sign denotes. -/
def signedValue? : List Char → Option Int
  | '+' :: cs => (digitsValue? cs).map Int.ofNat
  | '-' :: cs => (digitsValue? cs).map fun n => -Int.ofNat n
  | cs => (digitsValue? cs).map Int.ofNat

/-- The integer that a numeral denotes. -/
def toInt? (text : String) : Option Int :=
  signedValue? text.toList

/-- The 32-bit integer that a numeral denotes, if it is in range. -/
def toInt32? (text : String) : Option Int32 :=
  (toInt? text).bind fun n =>
    if -2147483648 ≤ n ∧ n ≤ 2147483647 then some (Int32.ofInt n) else none

/-! ## Reading back what was written -/

theorem isDigit_of_mem_digits {n : Nat} {c : Char} (h : c ∈ digits n) : c.isDigit = true :=
  Nat.isDigit_of_mem_toDigits (by decide) (by decide) h

theorem digits_ne_nil (n : Nat) : digits n ≠ [] :=
  Nat.toDigits_ne_nil

theorem digitsValue?_digits (n : Nat) : digitsValue? (digits n) = some n := by
  have hall : (digits n).all Char.isDigit = true :=
    List.all_eq_true.2 fun _ => isDigit_of_mem_digits
  simp only [digitsValue?, ne_eq, digits_ne_nil, not_false_eq_true, hall, and_self, if_true]
  simp [digits, Nat.ofDigitChars_ten_toDigits]

/-- No digit is mistaken for a sign. -/
theorem signedValue?_digits (n : Nat) : signedValue? (digits n) = some (Int.ofNat n) := by
  have hd : ∀ c ∈ digits n, c.isDigit = true := fun _ => isDigit_of_mem_digits
  have hv := digitsValue?_digits n
  unfold signedValue?
  split
  · next h => simp [h, Char.isDigit] at hd
  · next h => simp [h, Char.isDigit] at hd
  · simp [hv]

theorem signedValue?_signedDigits (n : Int) : signedValue? (signedDigits n) = some n := by
  cases n with
  | ofNat n => exact signedValue?_digits n
  | negSucc n =>
    simp only [signedDigits, signedValue?, digitsValue?_digits, Option.map_some, Option.some.injEq]
    exact rfl

/-- A written number is read back. -/
theorem toInt?_ofInt (n : Int) : toInt? (ofInt n) = some n := by
  simp [toInt?, ofInt, signedValue?_signedDigits]

end StraightLine.Decimal
