import Mathlib
import StraightLine.Proofs.PlaceValue
import StraightLine.Proofs.Reductions

/-!
# Which texts are integer literals

A literal is read exactly if it is a numeral of a signed word of 32 bits: the reader neither wraps
around nor takes one number too few at either end, and every other text is refused by name.

What a listing shows of a number is such a numeral, so it can be read back.

## Main definitions

* `Analysis.readLiteral` — what becomes of a literal on top of the stack

## Main results

* `Analysis.readLiteral_eq_ok_iff`, `Analysis.readLiteral_eq_error_iff` — literals that are read, and
  those that are not
* `literals_read_exactly` — what a literal is reduced to
-/

namespace StraightLine

/-- A word that was written is read back. -/
theorem Decimal.toInt32?_renderWord (w : Int32) : toInt32? (renderWord w) = some w :=
  toInt32?_eq_some_iff.mpr (toInt?_eq_some_iff.mp (toInt?_ofInt w.toInt))

namespace Analysis

open Decimal

/-- What the observer that emits code makes of a literal on top of its stack. -/
def readLiteral (a : Analysis) (text : String) : Except SemanticError Unit × Analysis :=
  (codeEmitter.notify (.reduce .literal)).run
    { a with valueCells := .token (.literal text) :: a.valueCells }

/-- The analysis with a number on top of its stack. -/
def withNumber (a : Analysis) (w : Int32) : Analysis :=
  { a with valueCells := .value (.imm w) :: a.valueCells }

theorem withNumber_inj {a : Analysis} {v w : Int32} : a.withNumber v = a.withNumber w ↔ v = w := by
  constructor
  · intro h
    have hcells := congrArg valueCells h
    simpa [withNumber] using hcells
  · rintro rfl
    rfl

variable {a : Analysis} {text : String} {w : Int32}

theorem readLiteral_of_some (h : toInt32? text = some w) :
    a.readLiteral text = (.ok (), a.withNumber w) := by
  have hvalues : (Analysis.onValues (valueReduction a.symbols (.temp a.nextTemp) .literal)).run
      { a with valueCells := .token (.literal text) :: a.valueCells } =
        (.ok (.value (.imm w), none), a) :=
    Analysis.run_onValues_eq_ok.mpr ⟨a.valueCells, run_literal_some h a.valueCells, rfl⟩
  exact Action.run_bind_of_ok hvalues _

theorem readLiteral_of_none (h : toInt32? text = none) :
    a.readLiteral text = (.error (.badLiteral text), a) :=
  run_codeEmitter_reduce_error (run_literal_none h a.valueCells)

theorem readLiteral_eq_ok_iff :
    a.readLiteral text = (.ok (), a.withNumber w) ↔ toInt32? text = some w := by
  constructor
  · intro h
    cases hread : toInt32? text with
    | none =>
      rw [readLiteral_of_none hread] at h
      cases congrArg Prod.fst h
    | some v =>
      rw [readLiteral_of_some hread] at h
      rw [withNumber_inj.mp (congrArg Prod.snd h)]
  · exact readLiteral_of_some

theorem readLiteral_eq_error_iff :
    a.readLiteral text = (.error (.badLiteral text), a) ↔ toInt32? text = none := by
  constructor
  · intro h
    cases hread : toInt32? text with
    | none => rfl
    | some v =>
      rw [readLiteral_of_some hread] at h
      cases congrArg Prod.fst h
  · exact readLiteral_of_none

end Analysis

/-- **Literals are read exactly.** In every state of the analysis, a literal becomes a number exactly
if its text is a numeral of that number and the number is a word; a literal whose text is no such
numeral is refused with that text. The text that a listing has for a number is read as that
number. -/
theorem literals_read_exactly (a : Analysis) :
    (∀ text n, (∃ w : Int32, w.toInt = n ∧ a.readLiteral text = (.ok (), a.withNumber w)) ↔
      Decimal.Denotes text.toList n ∧ -2147483648 ≤ n ∧ n ≤ 2147483647) ∧
    (∀ text, a.readLiteral text = (.error (.badLiteral text), a) ↔
      ¬ ∃ n, Decimal.Denotes text.toList n ∧ -2147483648 ≤ n ∧ n ≤ 2147483647) ∧
    ∀ w : Int32, a.readLiteral (Operand.imm w).render = (.ok (), a.withNumber w) := by
  refine ⟨fun text n => ?_, fun text => ?_, fun w => ?_⟩
  · constructor
    · rintro ⟨w, rfl, hread⟩
      rw [Analysis.readLiteral_eq_ok_iff] at hread
      exact ⟨Decimal.toInt32?_eq_some_iff.mp hread, Decimal.fitsWord_toInt w⟩
    · rintro ⟨hdenotes, hword⟩
      have hn := Decimal.toInt_ofInt_of_fits hword
      refine ⟨Int32.ofInt n, hn, Analysis.readLiteral_of_some ?_⟩
      rw [Decimal.toInt32?_eq_some_iff, hn]
      exact hdenotes
  · rw [Analysis.readLiteral_eq_error_iff]
    exact Decimal.toInt32?_eq_none_iff
  · exact Analysis.readLiteral_of_some (Decimal.toInt32?_renderWord w)

end StraightLine
