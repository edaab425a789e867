import Mathlib
import StraightLine.Proofs.Machine

/-!
# Code that is run from a used store

A store may hold values from earlier runs. Code that never reads a variable before it has written it
cannot tell: laid over the store that is there, the store of a run from nothing is the store of the
run that takes place. Only where the run from nothing stops can the other one go on, with a leftover
in the place of the missing value. So leftovers hide errors and never cause any.

A run that stops leaves the store as it was in front of the instruction that cannot be executed.

## Main definitions

* `Store.LaidOver` — a store with the values of one, and else with those of another
* `Store.Records` — a store with the latest writes of code, and else with what was there before

## Main results

* `Store.LaidOver.effect`, `Store.LaidOver.runCode` — one instruction, and a whole run
* `exists_stop_of_error` — where a run stops
* `records_runCode` — what code leaves behind that runs to its end
* `stale_values_keep_defined_runs` — runs from the empty store and from any other
-/

namespace StraightLine

variable {i : Instr} {code : List Instr} {s : Store}

/-! ## Leftovers -/

/-- The store `t` has the values of `f`, and where `f` has none, those of `s`. -/
def Store.LaidOver (f s t : Store) : Prop :=
  ∀ v, t.get? v = (f.get? v).or (s.get? v)

namespace Store.LaidOver

variable {f t : Store}

theorem empty (s : Store) : LaidOver {} s s :=
  fun _ => rfl

theorem set (h : LaidOver f s t) (v : Var) (x : Int32) : LaidOver (f.set v x) s (t.set v x) := by
  intro w
  rw [get?_set, get?_set, h]
  split <;> rfl

theorem eval {a : Operand} {x : Int32} (h : LaidOver f s t) (ha : a.eval f = .ok x) :
    a.eval t = .ok x := by
  cases a with
  | imm y => exact ha
  | var v =>
    rw [Operand.eval] at ha ⊢
    rw [h v]
    cases hv : f.get? v with
    | none =>
      rw [hv] at ha
      cases ha
    | some y =>
      rw [hv] at ha
      exact ha

/-- An instruction that has an effect in the store on top has the same effect in both. -/
theorem effect {e : Effect} (h : LaidOver f s t) (he : i.effect f = .ok e) :
    i.effect t = .ok e := by
  cases i with
  | mov dest src =>
    obtain ⟨x, hx, rfl⟩ := Instr.effect_mov_eq_ok.mp he
    exact Instr.effect_mov_eq_ok.mpr ⟨x, h.eval hx, rfl⟩
  | arith op dest lhs rhs =>
    obtain ⟨x, y, hx, hy, rfl⟩ := Instr.effect_arith_eq_ok.mp he
    exact Instr.effect_arith_eq_ok.mpr ⟨x, y, h.eval hx, h.eval hy, rfl⟩
  | ret value =>
    obtain ⟨x, hx, rfl⟩ := Instr.effect_ret_eq_ok.mp he
    exact Instr.effect_ret_eq_ok.mpr ⟨x, h.eval hx, rfl⟩

/-- **Two runs of the same code.** The one from the store on top stops, and then the other one gets
there as well; or both end alike. -/
theorem runCode (h : LaidOver f s t) (code : List Instr) :
    ((∃ e, (runCode code f).result = .error e) ∧
      (runCode code f).begun <+: (runCode code t).begun) ∨
    ((runCode code t).result = (runCode code f).result ∧
      (runCode code t).begun = (runCode code f).begun ∧
      LaidOver (runCode code f).store s (runCode code t).store) := by
  induction code generalizing f t with
  | nil => exact .inr ⟨rfl, rfl, h⟩
  | cons i code ih =>
    rcases hf : i.effect f with e | ⟨dest, x⟩ | x
    · refine .inl ⟨⟨e, by rw [StraightLine.runCode, hf]⟩, ?_⟩
      rw [StraightLine.runCode, StraightLine.runCode, hf]
      rcases i.effect t with e' | ⟨dest, x⟩ | x <;> simp
    · rw [StraightLine.runCode, StraightLine.runCode, hf, h.effect hf]
      rcases ih (h.set dest x) with ⟨herror, hbegun⟩ | ⟨hresult, hbegun, hstore⟩
      · exact .inl ⟨herror, List.cons_prefix_cons.mpr ⟨rfl, hbegun⟩⟩
      · exact .inr ⟨hresult, congrArg (i :: ·) hbegun, hstore⟩
    · rw [StraightLine.runCode, StraightLine.runCode, hf, h.effect hf]
      exact .inr ⟨rfl, rfl, h⟩

end Store.LaidOver

/-! ## Where a run stops -/

theorem get?_of_eval_eq_error {a : Operand} {v : Var}
    (h : a.eval s = .error (.uninitialized v)) : s.get? v = none := by
  cases a with
  | imm x => cases h
  | var w =>
    rw [Operand.eval] at h
    cases hw : s.get? w with
    | none =>
      rw [hw] at h
      cases h
      exact hw
    | some x =>
      rw [hw] at h
      cases h

/-- An instruction fails because of a variable without a value. -/
theorem get?_of_effect_eq_error {v : Var} (h : i.effect s = .error (.uninitialized v)) :
    s.get? v = none := by
  cases i with
  | mov dest src =>
    rcases hsrc : src.eval s with e | x
    · rw [Instr.effect, hsrc] at h
      cases h
      exact get?_of_eval_eq_error hsrc
    · rw [Instr.effect, hsrc] at h
      cases h
  | arith op dest lhs rhs =>
    rcases hlhs : lhs.eval s with e | x
    · rw [Instr.effect, hlhs] at h
      cases h
      exact get?_of_eval_eq_error hlhs
    · rcases hrhs : rhs.eval s with e | y
      · rw [Instr.effect, hlhs, hrhs] at h
        cases h
        exact get?_of_eval_eq_error hrhs
      · rw [Instr.effect, hlhs, hrhs] at h
        cases h
  | ret value =>
    rcases hvalue : value.eval s with e | x
    · rw [Instr.effect, hvalue] at h
      cases h
      exact get?_of_eval_eq_error hvalue
    · rw [Instr.effect, hvalue] at h
      cases h

/-- **Where a run stops.** The instructions in front have run to their end, and the store is the one
that they left. -/
theorem exists_stop_of_error {e : EvalError} (h : (runCode code s).result = .error e) :
    ∃ done i rest, code = done ++ i :: rest ∧ (runCode code s).begun = done ++ [i] ∧
      (runCode done s).result = .ok none ∧ (runCode done s).store = (runCode code s).store ∧
      i.effect (runCode code s).store = .error e := by
  induction code generalizing s with
  | nil => cases h
  | cons i code ih =>
    rw [runCode] at h ⊢
    rcases heffect : i.effect s with e' | ⟨dest, x⟩ | x
    · rw [heffect] at h
      cases h
      exact ⟨[], i, code, rfl, rfl, rfl, rfl, heffect⟩
    · rw [heffect] at h
      obtain ⟨done, j, rest, rfl, hbegun, hresult, hstore, hj⟩ := ih h
      refine ⟨i :: done, j, rest, rfl, congrArg (i :: ·) hbegun, ?_, ?_, hj⟩
      · rw [runCode, heffect]
        exact hresult
      · rw [runCode, heffect]
        exact hstore
    · rw [heffect] at h
      cases h

/-! ## What is written -/

/-- What code wrote that ran to its end is in the store: the latest write to each variable, and
where there was none, what was there before. -/
structure Store.Records (s : Store) (done : List Instr) (t : Store) : Prop where
  /-- Variables that were not written. -/
  untouched : ∀ w, (∀ j ∈ done, j.dest? ≠ some w) → t.get? w = s.get? w
  /-- The latest writes. -/
  latest : ∀ front j back w, done = front ++ j :: back → j.dest? = some w →
    (∀ k ∈ back, k.dest? ≠ some w) →
      ∃ x, j.effect (runCode front s).store = .ok (.write w x) ∧ t.get? w = some x

/-- A run changes only the variables that its code writes. -/
theorem get?_runCode {w : Var} (h : ∀ j ∈ code, j.dest? ≠ some w) :
    (runCode code s).store.get? w = s.get? w := by
  induction code generalizing s with
  | nil => rfl
  | cons i code ih =>
    obtain ⟨hi, hcode⟩ := List.forall_mem_cons.mp h
    rw [runCode]
    rcases heffect : i.effect s with e | ⟨dest, x⟩ | x
    · rfl
    · have hdest : w ≠ dest := by
        rintro rfl
        exact hi (Instr.dest?_of_effect heffect)
      exact (ih hcode).trans (by rw [Store.get?_set, if_neg hdest])
    · rfl

/-- Code that runs to its end can be cut in two anywhere. -/
theorem runCode_append_of_ok {front back : List Instr}
    (h : (runCode (front ++ back) s).result = .ok none) :
    (runCode back (runCode front s).store).result = .ok none ∧
      (runCode (front ++ back) s).store = (runCode back (runCode front s).store).store := by
  induction front generalizing s with
  | nil => exact ⟨h, rfl⟩
  | cons i front ih =>
    rw [List.cons_append, runCode] at h
    rw [List.cons_append, runCode, runCode]
    rcases heffect : i.effect s with e | ⟨dest, x⟩ | x
    · rw [heffect] at h
      cases h
    · rw [heffect] at h
      exact ih h
    · rw [heffect] at h
      cases h

/-- **What code leaves behind** that runs to its end. -/
theorem records_runCode (h : (runCode code s).result = .ok none) :
    s.Records code (runCode code s).store := by
  refine ⟨fun w hw => get?_runCode hw, ?_⟩
  rintro front j back w rfl hj hback
  obtain ⟨hrest, hstore⟩ := runCode_append_of_ok h
  rw [runCode] at hrest
  rcases heffect : j.effect (runCode front s).store with e | ⟨dest, x⟩ | x
  · rw [heffect] at hrest
    cases hrest
  · obtain rfl : dest = w := Option.some.inj ((Instr.dest?_of_effect heffect).symm.trans hj)
    refine ⟨x, rfl, ?_⟩
    rw [hstore, runCode, heffect]
    exact (get?_runCode hback).trans (by rw [Store.get?_set, if_pos rfl])
  · rw [heffect] at hrest
    cases hrest

/-! ## Used stores -/

/-- **Leftovers never change a run that is defined without them.** If code runs from the empty store
and gives a result, it gives the same result from every store; the variables that the first run has
written have the same values then, and the others those they had before. If a run from some store
stops at a variable, that variable has no value; the run from the empty store stops as well, there
or before; and what the instructions in front have written is all in the store, while the one at
which the run stops has written nothing. -/
theorem stale_values_keep_defined_runs (code : List Instr) (s : Store) :
    (∀ r, (evaluate code).result = .ok r →
      (runCode code s).result = .ok r ∧
        (∀ v x, (evaluate code).store.get? v = some x → (runCode code s).store.get? v = some x) ∧
        ∀ v, (evaluate code).store.get? v = none → (runCode code s).store.get? v = s.get? v) ∧
    ∀ v, (runCode code s).result = .error (.uninitialized v) →
      (runCode code s).store.get? v = none ∧
        (∃ w, (evaluate code).result = .error (.uninitialized w)) ∧
        (evaluate code).begun <+: (runCode code s).begun ∧
        ∃ done i rest, code = done ++ i :: rest ∧ (runCode code s).begun = done ++ [i] ∧
          i.effect (runCode code s).store = .error (.uninitialized v) ∧
          (runCode done s).store = (runCode code s).store ∧
          s.Records done (runCode code s).store := by
  have hboth := (Store.LaidOver.empty s).runCode code
  constructor
  · intro r hr
    rcases hboth with ⟨⟨e, he⟩, -⟩ | ⟨hresult, -, hstore⟩
    · cases he.symm.trans hr
    · refine ⟨hresult.trans hr, fun v x hx => ?_, fun v hv => ?_⟩
      · have hv := hstore v
        rw [show (runCode code {}).store.get? v = some x from hx] at hv
        exact hv
      · have hv' := hstore v
        rw [show (runCode code {}).store.get? v = none from hv] at hv'
        exact hv'
  · intro v hv
    obtain ⟨done, i, rest, hcode, hbegun, hresult, hstore, heffect⟩ := exists_stop_of_error hv
    have hfresh : (∃ w, (evaluate code).result = .error (.uninitialized w)) ∧
        (evaluate code).begun <+: (runCode code s).begun := by
      rcases hboth with ⟨⟨⟨w⟩, he⟩, hfront⟩ | ⟨hresult, hbegun, -⟩
      · exact ⟨⟨w, he⟩, hfront⟩
      · exact ⟨⟨v, hresult.symm.trans hv⟩, hbegun ▸ List.prefix_refl _⟩
    refine ⟨get?_of_effect_eq_error heffect, hfresh.1, hfresh.2, done, i, rest, hcode, hbegun,
      heffect, hstore, ?_⟩
    rw [← hstore]
    exact records_runCode hresult

/-- Code that reads two variables without writing them. -/
def unsetSum : List Instr :=
  [.mov (.named "a") (.imm 1), .arith .add (.temp 0) (.var (.named "b")) (.var (.named "c"))]

/-- A store in which one of them has a value. -/
def usedStore : Store where
  writes := [(.named "a", 9), (.named "b", 5)]

/-- The run from the used store gets past the first of them, so the two runs stop at different
variables. What was written in front is there. -/
theorem stale_values_keep_defined_runs_unsetSum :
    (runCode unsetSum usedStore).result = .error (.uninitialized (.named "c")) ∧
      (evaluate unsetSum).result = .error (.uninitialized (.named "b")) ∧
      (runCode unsetSum usedStore).store.get? (.named "c") = none ∧
      (runCode unsetSum usedStore).store.get? (.named "a") = some 1 ∧
      (evaluate unsetSum).begun <+: (runCode unsetSum usedStore).begun := by
  have hrun : (runCode unsetSum usedStore).result = .error (.uninitialized (.named "c")) := by
    decide
  obtain ⟨hnone, -, hbegun, -⟩ := (stale_values_keep_defined_runs unsetSum usedStore).2 _ hrun
  exact ⟨hrun, by decide, hnone, by decide, hbegun⟩

-- a leftover may stand in for a value that was never written
example : (evaluate [.ret (.var (.named "b"))]).result = .error (.uninitialized (.named "b")) ∧
    (runCode [.ret (.var (.named "b"))] usedStore).result = .ok (some 5) := by
  decide

end StraightLine
