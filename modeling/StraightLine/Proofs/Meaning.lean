import Mathlib
import StraightLine.Proofs.PlaceValue
import StraightLine.Proofs.Syntax

/-!
# What programs mean

Programs compute with integers, without bound. Statements take effect from first to last: an
assignment gives its name the value of its expression, a declaration does nothing, and the first
`return` ends the program with its value. What stands behind that is never executed.

A name has no value before it is assigned. An expression that reads such a name has no meaning to
speak of; `Expression.value` takes 0 there. So the meaning of a program is to be read together with
`UnassignedAt`, which says where a program reads what nothing has assigned.

## Main definitions

* `Env` — the values of names
* `Expression.value` — the value of an expression
* `meaning` — the value that statements return
* `executed` — the statements up to the first `return`, and with it
* `UnassignedAt`, `FirstUnassigned` — reads of a name without a value
-/

namespace StraightLine

/-- The values of the names that have been assigned. -/
abbrev Env := String → Option ℤ

/-- The integer that a literal denotes. -/
def literalValue (text : String) : ℤ :=
  Decimal.integerValue text.toList

mutual

/-- The value of an expression. -/
def Expression.value (env : Env) : Expression → ℤ
  | .single t => t.value env
  | .more e .plus t => e.value env + t.value env
  | .more e .minus t => e.value env - t.value env

/-- The value of a term. -/
def Term.value (env : Env) : Term → ℤ
  | .single f => f.value env
  | .times t f => t.value env * f.value env

/-- The value of a factor. -/
def Factor.value (env : Env) : Factor → ℤ
  | .paren e => e.value env
  | .name x => (env x).getD 0
  | .literal text => literalValue text

end

mutual

/-- The names that an expression reads. -/
def Expression.names : Expression → List String
  | .single t => t.names
  | .more e _ t => e.names ++ t.names

/-- The names that a term reads. -/
def Term.names : Term → List String
  | .single f => f.names
  | .times t f => t.names ++ f.names

/-- The names that a factor reads. -/
def Factor.names : Factor → List String
  | .paren e => e.names
  | .name x => [x]
  | .literal _ => []

end

namespace Statement

/-- The names that a statement reads. -/
def names : Statement → List String
  | declare _ => []
  | assign _ e => e.names
  | ret e => e.names

/-- The name that a statement assigns. -/
def target? : Statement → Option String
  | assign x _ => some x
  | _ => none

/-- Whether a statement ends the program. -/
def isRet : Statement → Bool
  | ret _ => true
  | _ => false

/-- The values of names behind a statement. -/
def exec (env : Env) : Statement → Env
  | assign x e => Function.update env x (some (e.value env))
  | _ => env

end Statement

/-- The value that statements return, if they do. -/
def meaning (env : Env) : List Statement → Option ℤ
  | [] => none
  | .ret e :: _ => some (e.value env)
  | s :: ss => meaning (s.exec env) ss

/-- The statements up to the first `return`, and with it. -/
def executed : List Statement → List Statement
  | [] => []
  | .ret e :: _ => [.ret e]
  | s :: ss => s :: executed ss

/-- The statement at place `i` is executed and reads `x`, which has no value in `env` and which no
earlier statement assigns. -/
def UnassignedAt (env : Env) (ss : List Statement) (i : Nat) (x : String) : Prop :=
  ∃ s, (executed ss)[i]? = some s ∧ x ∈ s.names ∧ env x = none ∧
    ∀ s' ∈ (executed ss).take i, s'.target? ≠ some x

/-- The name `x` is read without a value by the first statement that reads such a name. -/
def FirstUnassigned (env : Env) (ss : List Statement) (x : String) : Prop :=
  ∃ i, UnassignedAt env ss i x ∧ ∀ j < i, ∀ y, ¬ UnassignedAt env ss j y

namespace Program

/-- The value that a program returns, if it does. -/
def meaning (p : Program) : Option ℤ :=
  StraightLine.meaning (fun _ => none) p.statements

/-- Some statement that is executed reads a name that no earlier statement assigns. -/
def ReadsUnassigned (p : Program) : Prop :=
  ∃ i x, UnassignedAt (fun _ => none) p.statements i x

end Program

/-! ## From one statement to the next -/

section

variable {env : Env} {s : Statement} {ss : List Statement} {i : Nat} {x : String}

/-- A statement that ends nothing is followed by the others. -/
theorem meaning_cons (h : s.isRet = false) : meaning env (s :: ss) = meaning (s.exec env) ss := by
  cases s with
  | ret e => cases h
  | _ => rfl

theorem executed_cons (h : s.isRet = false) : executed (s :: ss) = s :: executed ss := by
  cases s with
  | ret e => cases h
  | _ => rfl

/-- A name has no value behind a statement exactly when it had none and is not assigned. -/
theorem Statement.exec_eq_none_iff :
    s.exec env x = none ↔ env x = none ∧ s.target? ≠ some x := by
  cases s with
  | assign y e =>
    by_cases h : x = y
    · subst h
      simp [exec, target?]
    · simp [exec, target?, h, Ne.symm h]
  | _ => simp [exec, target?]

theorem unassignedAt_nil : ¬ UnassignedAt env [] i x := by
  rintro ⟨s, hs, -⟩
  simp [executed] at hs

/-- The first statement is always executed. -/
theorem unassignedAt_zero : UnassignedAt env (s :: ss) 0 x ↔ x ∈ s.names ∧ env x = none := by
  have hfirst : (executed (s :: ss))[0]? = some s := by cases s <;> rfl
  simp [UnassignedAt, hfirst]

/-- Behind the first statement, the others find what it assigned. -/
theorem unassignedAt_succ (h : s.isRet = false) :
    UnassignedAt env (s :: ss) (i + 1) x ↔ UnassignedAt (s.exec env) ss i x := by
  simp only [UnassignedAt, executed_cons h, List.getElem?_cons_succ, List.take_succ_cons,
    List.forall_mem_cons, Statement.exec_eq_none_iff]
  constructor
  · rintro ⟨s', hs', hx, hnone, htarget, hothers⟩
    exact ⟨s', hs', hx, ⟨hnone, htarget⟩, hothers⟩
  · rintro ⟨s', hs', hx, ⟨hnone, htarget⟩, hothers⟩
    exact ⟨s', hs', hx, hnone, htarget, hothers⟩

/-- Behind a `return` nothing is executed. -/
theorem not_unassignedAt_succ_of_isRet (h : s.isRet = true) :
    ¬ UnassignedAt env (s :: ss) (i + 1) x := by
  cases s with
  | ret e =>
    rintro ⟨s', hs', -⟩
    simp [executed] at hs'
  | _ => cases h

theorem not_unassignedAt_zero (hreads : ∀ y ∈ s.names, env y ≠ none) :
    ¬ UnassignedAt env (s :: ss) 0 x := by
  intro h
  obtain ⟨hread, hnone⟩ := unassignedAt_zero.mp h
  exact hreads x hread hnone

/-- If neither the first statement nor any other behind it reads a name without a value, no statement
does. -/
theorem not_unassignedAt_cons (hret : s.isRet = false) (hreads : ∀ y ∈ s.names, env y ≠ none)
    (h : ∀ i x, ¬ UnassignedAt (s.exec env) ss i x) (i : Nat) (x : String) :
    ¬ UnassignedAt env (s :: ss) i x := by
  cases i with
  | zero => exact not_unassignedAt_zero hreads
  | succ i =>
    rw [unassignedAt_succ hret]
    exact h i x

/-- Where the first statement is a `return`, only that one counts. -/
theorem not_unassignedAt_of_isRet (hret : s.isRet = true)
    (hreads : ∀ y ∈ s.names, env y ≠ none) (i : Nat) (x : String) :
    ¬ UnassignedAt env (s :: ss) i x := by
  cases i with
  | zero => exact not_unassignedAt_zero hreads
  | succ i => exact not_unassignedAt_succ_of_isRet hret

theorem firstUnassigned_of_mem (hread : x ∈ s.names) (hnone : env x = none) :
    FirstUnassigned env (s :: ss) x :=
  ⟨0, unassignedAt_zero.mpr ⟨hread, hnone⟩, fun j hj => absurd hj (Nat.not_lt_zero j)⟩

/-- If the first statement reads nothing without a value, the first that does is behind it. -/
theorem FirstUnassigned.cons (hret : s.isRet = false) (hreads : ∀ y ∈ s.names, env y ≠ none)
    (h : FirstUnassigned (s.exec env) ss x) : FirstUnassigned env (s :: ss) x := by
  obtain ⟨i, hi, hfirst⟩ := h
  refine ⟨i + 1, (unassignedAt_succ hret).mpr hi, fun j hj y hy => ?_⟩
  cases j with
  | zero => exact not_unassignedAt_zero hreads hy
  | succ j => exact hfirst j (by omega) y ((unassignedAt_succ hret).mp hy)

end

end StraightLine
