import Mathlib
import StraightLine.Proofs.Simulation
import StraightLine.Proofs.Translation

/-!
# Every temporary is read once

Lowering frees the register of a temporary when it has been read. Code that comes from a program
never notices, because it reads every temporary once. The reads of temporaries are counted as a list
here, and for the code of an expression, together with the operand that comes out of it, this list
is a rearrangement of all the temporaries that were handed out. An operator reads the two operands
that came out on its sides and adds one of its own, so the count goes through by appending ranges.

The list has no repetitions as long as different numbers are different words. Code without
repeated reads never reads what is spent, whatever else it does.

## Main definitions

* `Operand.temps`, `tempReads` — the temporaries that are read
* `Translation.UsesOnce` — every temporary that was handed out is read once

## Main results

* `Expression.usesOnce`, `Statement.perm_tempReads_list` — every temporary is read once
* `readsUnspent_of_nodup` — code without repeated reads never reads what is spent
* `Program.readsUnspent_code` — so does the code of a program
-/

namespace StraightLine

/-- The temporary that an operand reads, if it is one. -/
def Operand.temps (o : Operand) : List Var :=
  o.vars.filter Var.isTemp

/-- The temporaries that code reads, in order. -/
def tempReads (code : List Instr) : List Var :=
  code.flatMap fun i => i.reads.filter Var.isTemp

theorem tempReads_append (front back : List Instr) :
    tempReads (front ++ back) = tempReads front ++ tempReads back :=
  List.flatMap_append

theorem tempReads_mov (dest : Var) (src : Operand) : tempReads [.mov dest src] = src.temps :=
  List.append_nil _

theorem tempReads_ret (value : Operand) : tempReads [.ret value] = value.temps :=
  List.append_nil _

/-! ## Counting the reads -/

/-- The temporaries from `n` up to `m`. -/
def tempRange (n m : Nat) : List Var :=
  (List.range' n (m - n)).map tempVar

theorem tempRange_self (n : Nat) : tempRange n n = [] := by
  simp [tempRange]

theorem length_tempRange (n m : Nat) : (tempRange n m).length = m - n := by
  simp [tempRange]

/-- Adjacent ranges are one range. -/
theorem tempRange_append {n m k : Nat} (hnm : n ≤ m) (hmk : m ≤ k) :
    tempRange n m ++ tempRange m k = tempRange n k := by
  have hstart : m = n + 1 * (m - n) := by omega
  have hlen : k - n = (m - n) + (k - m) := by omega
  rw [tempRange, tempRange, tempRange, ← List.map_append, hlen, ← List.range'_append, ← hstart]

theorem tempRange_succ (n : Nat) : tempRange n (n + 1) = [tempVar n] := by
  simp [tempRange]

namespace Translation

/-- The code and whoever takes its result read every temporary from `n` on once. -/
def UsesOnce (tr : Translation) (n : Nat) : Prop :=
  n ≤ tr.next ∧ (tempReads tr.code ++ tr.result.temps).Perm (tempRange n tr.next)

/-- An operator takes the results of its sides and has one of its own. -/
theorem UsesOnce.arith {lhs rhs : Translation} {n : Nat} (op : ArithOp) (hl : lhs.UsesOnce n)
    (hr : rhs.UsesOnce lhs.next) : (Translation.arith op lhs rhs).UsesOnce n := by
  obtain ⟨hn, hlperm⟩ := hl
  obtain ⟨hnext, hrperm⟩ := hr
  have hreads : tempReads (Translation.arith op lhs rhs).code =
      tempReads lhs.code ++ tempReads rhs.code ++ (lhs.result.temps ++ rhs.result.temps) := by
    simp [Translation.arith, tempReads, Instr.reads, Operand.temps]
  have hresult : (Translation.arith op lhs rhs).result.temps = [tempVar rhs.next] := rfl
  refine ⟨by rw [next_arith]; omega, ?_⟩
  rw [hreads, hresult, next_arith]
  -- each result next to the code it came out of
  have hswap : (tempReads lhs.code ++ tempReads rhs.code ++
      (lhs.result.temps ++ rhs.result.temps)).Perm
      ((tempReads lhs.code ++ lhs.result.temps) ++ (tempReads rhs.code ++ rhs.result.temps)) := by
    rw [List.append_assoc, List.append_assoc]
    exact (List.perm_append_comm_assoc ..).append_left _
  have hranges : (tempRange n lhs.next ++ tempRange lhs.next rhs.next) ++ [tempVar rhs.next] =
      tempRange n (rhs.next + 1) := by
    rw [← tempRange_succ, tempRange_append hn hnext,
      tempRange_append (hn.trans hnext) (Nat.le_succ _)]
  rw [← hranges]
  exact (hswap.trans (hlperm.append hrperm)).append_right _

end Translation

mutual

/-- The code of an expression and whoever takes its result read every temporary once. -/
theorem Expression.usesOnce (n : Nat) (e : Expression) : (e.translate n).UsesOnce n := by
  match e with
  | .single t => exact t.usesOnce n
  | .more e sign t => exact (e.usesOnce n).arith sign.op (t.usesOnce _)

theorem Term.usesOnce (n : Nat) (t : Term) : (t.translate n).UsesOnce n := by
  match t with
  | .single f => exact f.usesOnce n
  | .times t f => exact (t.usesOnce n).arith .mul (f.usesOnce _)

theorem Factor.usesOnce (n : Nat) (f : Factor) : (f.translate n).UsesOnce n := by
  match f with
  | .paren e => exact e.usesOnce n
  | .name x => exact ⟨Nat.le_refl n, by simp [Factor.translate, tempRange_self, tempReads,
      Operand.temps, Operand.vars, Var.isTemp]⟩
  | .literal text => exact ⟨Nat.le_refl n, by simp [Factor.translate, tempRange_self, tempReads,
      Operand.temps, Operand.vars]⟩

end

namespace Statement

/-- A statement takes the result of its expression. -/
theorem perm_tempReads (n : Nat) (s : Statement) :
    n ≤ s.next n ∧ (tempReads (s.code n)).Perm (tempRange n (s.next n)) := by
  cases s with
  | declare x => exact ⟨Nat.le_refl n, by simp [code, next, tempReads, tempRange_self]⟩
  | assign x e =>
    obtain ⟨hle, hperm⟩ := e.usesOnce n
    refine ⟨hle, ?_⟩
    rw [code, tempReads_append, tempReads_mov]
    exact hperm
  | ret e =>
    obtain ⟨hle, hperm⟩ := e.usesOnce n
    refine ⟨hle, ?_⟩
    rw [code, tempReads_append, tempReads_ret]
    exact hperm

/-- **Statements read every temporary once.** -/
theorem perm_tempReads_list (n : Nat) (ss : List Statement) :
    n ≤ listNext n ss ∧ (tempReads (listCode n ss)).Perm (tempRange n (listNext n ss)) := by
  induction ss generalizing n with
  | nil => exact ⟨Nat.le_refl n, by simp [listCode, listNext, tempReads, tempRange_self]⟩
  | cons s ss ih =>
    obtain ⟨hle, hperm⟩ := s.perm_tempReads n
    obtain ⟨hle', hperm'⟩ := ih (s.next n)
    refine ⟨hle.trans hle', ?_⟩
    rw [listCode, listNext, tempReads_append, ← tempRange_append hle hle']
    exact hperm.append hperm'

end Statement

/-! ## Reading once and reading what is spent -/

/-- Code that reads no temporary twice, and nothing that is spent at its beginning, never reads what
is spent. -/
theorem readsUnspent_of_nodup {spent : Var → Prop} {code : List Instr}
    (hspent : ∀ i ∈ code, ∀ v ∈ i.reads, ¬ spent v) (hnodup : (tempReads code).Nodup) :
    ReadsUnspent spent code := by
  induction code generalizing spent with
  | nil => trivial
  | cons i code ih =>
    rw [← List.singleton_append, tempReads_append] at hnodup
    obtain ⟨-, hcode, hdisjoint⟩ := List.nodup_append.mp hnodup
    refine ⟨hspent i List.mem_cons_self, ih (fun j hj v hv => ?_) hcode⟩
    rintro (⟨htemp, hmem⟩ | ⟨hv', -⟩)
    · -- the first instruction has read `v`, so nobody behind it does
      have hread : v ∈ i.reads := by
        cases i with
        | ret value => simp [Instr.consumed] at hmem
        | _ => exact hmem
      have hfirst : v ∈ tempReads [i] := by simp [tempReads, hread, htemp]
      have hlater : v ∈ tempReads code := by
        rw [tempReads, List.mem_flatMap]
        exact ⟨j, hj, List.mem_filter.mpr ⟨hv, htemp⟩⟩
      exact hdisjoint v hfirst v hlater rfl
    · exact hspent j (List.mem_cons_of_mem i hj) v hv hv'

/-- Temporaries below the bound are all different. -/
theorem nodup_tempRange {n m : Nat} (hm : m ≤ 2 ^ 32) : (tempRange n m).Nodup := by
  refine List.Nodup.map_on (fun j hj k hk h => ?_) List.nodup_range'
  rw [List.mem_range'_1] at hj hk
  exact (tempVar_inj (by omega) (by omega)).mp h

/-- **The code of a program never reads what is spent**, if there are not too many operators. -/
theorem Program.readsUnspent_code (p : Program)
    (hlt : p.tokens.countP Token.isOperator ≤ 2 ^ 32) :
    ReadsUnspent (fun _ => False) p.code := by
  obtain ⟨-, hperm⟩ := Statement.perm_tempReads_list 0 p.statements
  rw [Statement.listNext_eq, Nat.zero_add] at hperm
  exact readsUnspent_of_nodup (fun _ _ _ _ => not_false)
    (hperm.nodup_iff.mpr (nodup_tempRange hlt))

end StraightLine
