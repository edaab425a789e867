import Mathlib
import StraightLine.Compilation
import StraightLine.Proofs.Action

/-!
# How many cells a reduction takes

The observers of a parse take cells off their stacks by hand, one after the other, and the table of
productions says nothing about that. Still every reduction takes as many cells as the body of its
production has symbols, and none of those below. `Takes` counts them: it says how many cells an
action takes if it succeeds, allows no more if it fails, and the counts of a sequence add up. So the
count of a reduction is read off its steps.

## Main definitions

* `Takes` — an action takes a number of cells off the top of a stack

## Main results

* `Takes.bind` — the counts of a sequence add up
* `typeReduction_takes`, `valueReduction_takes` — the count of a reduction is the arity
-/

namespace StraightLine

open AttributeStack

/-! ## Counting cells -/

variable {α β γ : Type} {n m : Nat}

/-- The action takes `n` cells off the top of the stack if it succeeds, and at most `n` if it fails.
Either way the cells below are as they were. -/
def Takes (n : Nat) (x : StackAction α β) : Prop :=
  ∀ cells, x.Ends cells (fun _ rest => ∃ taken, taken.length = n ∧ cells = taken ++ rest)
    (fun _ rest => ∃ taken, taken.length ≤ n ∧ cells = taken ++ rest)

theorem takes_pure (b : β) : Takes 0 (pure b : StackAction α β) := fun _ =>
  Action.ends_of_ok rfl ⟨[], rfl, rfl⟩

theorem takes_fail (n : Nat) (e : SemanticError) : Takes n (.fail e : StackAction α β) := fun _ =>
  Action.ends_of_error rfl ⟨[], Nat.zero_le n, rfl⟩

/-- **The counts of a sequence add up.** -/
theorem Takes.bind {x : StackAction α β} {f : β → StackAction α γ} (hx : Takes n x)
    (hf : ∀ b, Takes m (f b)) : Takes (n + m) (x >>= f) := by
  intro cells
  obtain ⟨hok, herror⟩ := hx cells
  rcases hrun : x.run cells with ⟨e | b, mid⟩
  · obtain ⟨taken, hlen, hcells⟩ := herror e mid hrun
    exact Action.ends_of_error (Action.run_bind_of_error hrun f) ⟨taken, by omega, hcells⟩
  · obtain ⟨taken, hlen, rfl⟩ := hok b mid hrun
    obtain ⟨hok', herror'⟩ := hf b mid
    rw [Action.Ends, Action.run_bind_of_ok hrun f]
    constructor
    · intro c rest hrest
      obtain ⟨more, hmore, rfl⟩ := hok' c rest hrest
      exact ⟨taken ++ more, by simp [hlen, hmore], (List.append_assoc ..).symm⟩
    · intro e rest hrest
      obtain ⟨more, hmore, rfl⟩ := herror' e rest hrest
      refine ⟨taken ++ more, ?_, (List.append_assoc ..).symm⟩
      rw [List.length_append]
      omega

/-! ## The steps of a reduction -/

variable (p : Production) (expected : String)

theorem takes_pop : Takes 1 (pop p : StackAction α (Cell α)) := by
  intro cells
  cases cells with
  | nil => exact Action.ends_of_error rfl ⟨[], Nat.zero_le 1, rfl⟩
  | cons c rest => exact Action.ends_of_ok rfl ⟨[c], rfl, rfl⟩

theorem takes_popValue : Takes 1 (popValue p expected : StackAction α α) := by
  refine (takes_pop p).bind (m := 0) fun c => ?_
  cases c with
  | value a => exact takes_pure a
  | token t => exact takes_fail 0 _
  | blank => exact takes_fail 0 _

theorem takes_popToken : Takes 1 (popToken p expected : StackAction α Token) := by
  refine (takes_pop p).bind (m := 0) fun c => ?_
  cases c with
  | value a => exact takes_fail 0 _
  | token t => exact takes_pure t
  | blank => exact takes_fail 0 _

theorem takes_discard : Takes p.arity (AttributeStack.discard p : StackAction α Unit) := by
  intro cells
  by_cases hlen : cells.length < p.arity
  · have hrun : (AttributeStack.discard p).run cells = (.error (.stackUnderflow p), cells) :=
      if_pos hlen
    exact Action.ends_of_error hrun ⟨[], Nat.zero_le _, rfl⟩
  · have hrun : (AttributeStack.discard p).run cells = (.ok (), cells.drop p.arity) := if_neg hlen
    refine Action.ends_of_ok hrun ⟨cells.take p.arity, ?_, (List.take_append_drop ..).symm⟩
    exact List.length_take_of_le (Nat.le_of_not_lt hlen)

theorem takes_popDeclaredName : Takes 1 (popDeclaredName p) := by
  refine (takes_pop p).bind (m := 0) fun c => ?_
  cases c with
  | value a => exact takes_fail 0 _
  | blank => exact takes_fail 0 _
  | token t =>
    cases t with
    | ident x => exact takes_pure x
    | _ => exact takes_fail 0 _

theorem takes_popName : Takes 1 (popName p) := by
  refine (takes_popToken p _).bind (m := 0) fun t => ?_
  cases t with
  | ident x => exact takes_pure x
  | _ => exact takes_fail 0 _

theorem takes_resolve (symbols : SymbolTable) (x : String) : Takes 0 (resolve symbols x) := by
  rw [resolve]
  split
  · exact takes_pure _
  · exact takes_fail 0 _

/-! ## Reductions -/

/-- **The observer of declarations takes the body of a production** off its stack. -/
theorem typeReduction_takes : Takes p.arity (typeReduction p) := by
  cases p with
  | declarator => exact (takes_pop _).bind fun _ => takes_pure _
  | declaration =>
    exact (takes_popDeclaredName _).bind fun _ => (takes_popValue _ _).bind fun _ => takes_pure _
  | _ => exact (takes_discard _).bind fun _ => takes_pure _

theorem arithReduction_takes (temp : Var) (op : ArithOp) : Takes 3 (arithReduction temp op p) :=
  (takes_popValue p _).bind fun _ => (takes_pop p).bind fun _ =>
    (takes_popValue p _).bind fun _ => takes_pure _

/-- **So does the observer that emits code.** -/
theorem valueReduction_takes (symbols : SymbolTable) (temp : Var) :
    Takes p.arity (valueReduction symbols temp p) := by
  cases p with
  | assignment =>
    exact (takes_popValue _ _).bind fun _ => (takes_pop _).bind fun _ =>
      (takes_popName _).bind fun _ => (takes_resolve _ _).bind fun _ => takes_pure _
  | ret => exact (takes_popValue _ _).bind fun _ => (takes_pop _).bind fun _ => takes_pure _
  | add | sub | mul => exact arithReduction_takes _ temp _
  | expression | term => exact (takes_popValue _ _).bind fun _ => takes_pure _
  | paren =>
    exact (takes_pop _).bind fun _ => (takes_popValue _ _).bind fun _ =>
      (takes_pop _).bind fun _ => takes_pure _
  | name =>
    exact (takes_popName _).bind fun _ => (takes_resolve _ _).bind fun _ => takes_pure _
  | literal =>
    refine (takes_popToken _ _).bind (m := 0) fun t => ?_
    cases t with
    | literal text =>
      dsimp only
      split
      · exact takes_pure _
      · exact takes_fail 0 _
    | _ => exact takes_fail 0 _
  | program | statementList | lastStatement | declaration | declarator =>
    exact (takes_discard _).bind fun _ => takes_pure _

end StraightLine
