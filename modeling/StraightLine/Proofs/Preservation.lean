import Mathlib
import StraightLine.Proofs.Lexing
import StraightLine.Proofs.Machine
import StraightLine.Proofs.Meaning
import StraightLine.Proofs.Translation

/-!
# The code of a program means what the program means

Running the code of a program gives the program's value, reduced to a word. The code computes with
words all along and the meaning with integers; reducing at every step and reducing once at the end
come to the same, since the operators are compatible with it.

The code of an expression either computes the value of the expression and leaves everything but its
own temporaries as it was, or it stops at a name without a value. An expression without operators
has no code, so such a name may also come out of it as the operand, and then whoever reads that
operand stops. `Translation.Computes` says all this at once, for any code that follows, and one
lemma, `Translation.Computes.arith`, carries it through every operator.

Temporaries are numbered by words. The argument needs different numbers to be different words, and
here enters the bound on the number of operators.

## Main definitions

* `Store.Agrees` — a store has the words of the values of names
* `Translation.Computes` — what the code of an expression does

## Main results

* `Expression.computes` — every expression is translated correctly
* `Statement.outcome_listCode` — so are statements
* `evaluate_analysed_source` — running the code of a source gives the meaning of its statements
-/

namespace StraightLine

/-! ## Words and integers -/

/-- The operators on integers. -/
def ArithOp.onInts : ArithOp → ℤ → ℤ → ℤ
  | .add, x, y => x + y
  | .sub, x, y => x - y
  | .mul, x, y => x * y

/-- Operators may be applied before or after reducing to words. -/
theorem ArithOp.apply_ofInt (op : ArithOp) (x y : ℤ) :
    op.apply (Int32.ofInt x) (Int32.ofInt y) = Int32.ofInt (op.onInts x y) := by
  cases op <;> simp [apply, onInts]

/-- A literal that fits is the word of its value. -/
theorem literalWord_eq {text : String} {value : Int32} (h : Decimal.toInt32? text = some value) :
    literalWord text = Int32.ofInt (literalValue text) := by
  rw [literalWord, literalValue, h]
  obtain ⟨n, hn, hvalue⟩ := Option.bind_eq_some_iff.mp h
  rw [Decimal.integerValue_of_toInt? hn]
  split at hvalue
  · exact (Option.some.inj hvalue).symm
  · cases hvalue

/-! ## Running code, one instruction at a time -/

section

variable {i : Instr} {code : List Instr} {s : Store}

theorem result_runCode_of_write {dest : Var} {value : Int32}
    (h : i.effect s = .ok (.write dest value)) :
    (runCode (i :: code) s).result = (runCode code (s.set dest value)).result := by
  rw [runCode, h]

theorem result_runCode_of_finish {value : Int32} (h : i.effect s = .ok (.finish value)) :
    (runCode (i :: code) s).result = .ok (some value) := by
  rw [runCode, h]

theorem result_runCode_of_error {e : EvalError} (h : i.effect s = .error e) :
    (runCode (i :: code) s).result = .error e := by
  rw [runCode, h]

end

/-! ## What the code of an expression does -/

namespace Store

/-- The store has the words of the values of names, and nothing for a name without a value. -/
def Agrees (s : Store) (env : Env) : Prop :=
  ∀ x, s.get? (.named x) = (env x).map Int32.ofInt

/-- Outside the temporaries from `n` up to `m`, the second store is like the first. -/
def KeptOutside (n m : Nat) (s s' : Store) : Prop :=
  ∀ v, (∀ k, n ≤ k → k < m → v ≠ tempVar k) → s'.get? v = s.get? v

variable {n m k : Nat} {s s' s'' : Store} {env : Env}

theorem KeptOutside.refl (s : Store) : KeptOutside n m s s :=
  fun _ _ => rfl

theorem KeptOutside.trans (h : KeptOutside n m s s') (h' : KeptOutside m k s' s'') (hnm : n ≤ m)
    (hmk : m ≤ k) : KeptOutside n k s s'' := by
  intro v hv
  rw [h' v fun j hmj hjk => hv j (by omega) hjk, h v fun j hnj hjm => hv j hnj (by omega)]

/-- A write to the next temporary. -/
theorem KeptOutside.set (h : KeptOutside n m s s') (hnm : n ≤ m) (value : Int32) :
    KeptOutside n (m + 1) s (s'.set (tempVar m) value) := by
  intro v hv
  rw [get?_set, if_neg (hv m hnm (by omega)), h v fun j hnj hjm => hv j hnj (by omega)]

/-- Temporaries are not names. -/
theorem Agrees.keptOutside (h : s.Agrees env) (hkept : KeptOutside n m s s') : s'.Agrees env := by
  intro x
  rw [hkept (.named x) fun k _ _ => by simp [tempVar], h x]

end Store

/-- A name without a value cannot be read. -/
theorem Store.Agrees.eval_eq_error {s : Store} {env : Env} {x : String} (h : s.Agrees env)
    (hnone : env x = none) :
    (Operand.var (.named x)).eval s = .error (.uninitialized (.named x)) := by
  have hget : s.get? (.named x) = none := by rw [h x, hnone]; rfl
  rw [Operand.eval, hget]

/-- An operand that is none of the temporaries in between is read as before. -/
theorem Store.KeptOutside.eval_eq {n m : Nat} {s s' : Store} {o : Operand}
    (h : KeptOutside n m s s') (ho : ∀ k, n ≤ k → k < m → o ≠ .var (tempVar k)) :
    o.eval s' = o.eval s := by
  cases o with
  | imm value => rfl
  | var v =>
    have hget : s'.get? v = s.get? v :=
      h v fun k hnk hkm hv => ho k hnk hkm (by rw [hv])
    rw [Operand.eval, Operand.eval, hget]

namespace Translation

variable {tr lhs rhs : Translation} {n : Nat} {s : Store} {op : ArithOp}

/-- The code runs to its end, whatever follows it, changes nothing but temporaries from `n` on, and
the value is where the result is. -/
def Delivers (tr : Translation) (n : Nat) (s : Store) (value : Int32) : Prop :=
  ∃ s', (∀ rest, (runCode (tr.code ++ rest) s).result = (runCode rest s').result) ∧
    s.KeptOutside n tr.next s' ∧ tr.result.eval s' = .ok value

/-- The code stops at the name `x`, or there is no code and the result is that name. -/
def Stops (tr : Translation) (s : Store) (x : String) : Prop :=
  (∀ rest, (runCode (tr.code ++ rest) s).result = .error (.uninitialized (.named x))) ∨
    tr.code = [] ∧ tr.result = .var (.named x)

/-- The code reads the given names and computes the given function of their values, with
temporaries from `n` on. -/
structure Computes (tr : Translation) (n : Nat) (names : List String) (value : Env → ℤ) :
    Prop where
  /-- Temporaries are taken in order. -/
  le_next : n ≤ tr.next
  /-- The result is none of the temporaries that are still free. -/
  settled : ∀ k, tr.next ≤ k → k < 2 ^ 32 → tr.result ≠ .var (tempVar k)
  /-- The code delivers the value if all names have one, and stops at a name otherwise. -/
  outcome : ∀ env s, s.Agrees env →
    (∀ x ∈ names, env x ≠ none) ∧ tr.Delivers n s (Int32.ofInt (value env)) ∨
      ∃ x ∈ names, env x = none ∧ tr.Stops s x

/-- The code of an operator is that of its operands and one more instruction. -/
theorem code_arith_append (op : ArithOp) (lhs rhs : Translation) (rest : List Instr) :
    (arith op lhs rhs).code ++ rest =
      lhs.code ++ (rhs.code ++ .arith op (tempVar rhs.next) lhs.result rhs.result :: rest) := by
  simp [arith]

/-- Both operands have values: so has the operator. -/
theorem Delivers.arith {x y : ℤ} {s₁ : Store}
    (hrun : ∀ rest, (runCode (lhs.code ++ rest) s).result = (runCode rest s₁).result)
    (hkept : s.KeptOutside n lhs.next s₁) (hx : lhs.result.eval s₁ = .ok (Int32.ofInt x))
    (hy : rhs.Delivers lhs.next s₁ (Int32.ofInt y)) (hn : n ≤ lhs.next)
    (hnext : lhs.next ≤ rhs.next)
    (hsettled : ∀ k, lhs.next ≤ k → k < rhs.next → lhs.result ≠ .var (tempVar k)) :
    (Translation.arith op lhs rhs).Delivers n s (Int32.ofInt (op.onInts x y)) := by
  obtain ⟨s₂, hrun₂, hkept₂, hy⟩ := hy
  have hx₂ : lhs.result.eval s₂ = .ok (Int32.ofInt x) := by rw [hkept₂.eval_eq hsettled, hx]
  have heffect : (Instr.arith op (tempVar rhs.next) lhs.result rhs.result).effect s₂ =
      .ok (.write (tempVar rhs.next) (Int32.ofInt (op.onInts x y))) := by
    rw [Instr.effect_arith_eq_ok]
    exact ⟨_, _, hx₂, hy, by rw [op.apply_ofInt]⟩
  refine ⟨s₂.set (tempVar rhs.next) (Int32.ofInt (op.onInts x y)), fun rest => ?_, ?_, ?_⟩
  · rw [code_arith_append, hrun, hrun₂, result_runCode_of_write heffect]
  · exact (hkept.trans hkept₂ hn hnext).set (hn.trans hnext) _
  · have hget : (s₂.set (tempVar rhs.next) (Int32.ofInt (op.onInts x y))).get? (tempVar rhs.next) =
        some (Int32.ofInt (op.onInts x y)) := by rw [Store.get?_set, if_pos rfl]
    rw [Translation.arith, Operand.eval, hget]

/-- The left operand of an operator cannot be read. -/
theorem effect_arith_of_lhs {dest : Var} {l r : Operand} {e : EvalError}
    (h : l.eval s = .error e) : (Instr.arith op dest l r).effect s = .error e := by
  rw [Instr.effect, h]
  rfl

/-- The right operand of an operator cannot be read. -/
theorem effect_arith_of_rhs {dest : Var} {l r : Operand} {x : Int32} {e : EvalError}
    (hl : l.eval s = .ok x) (hr : r.eval s = .error e) :
    (Instr.arith op dest l r).effect s = .error e := by
  rw [Instr.effect, hl]
  change (r.eval s >>= fun y => pure (Effect.write dest (op.apply x y))) = _
  rw [hr]
  rfl

/-- The left operand has a value and the right one stops: so does the operator. -/
theorem Stops.arith_rhs {env : Env} {x : Int32} {y : String} {s₁ : Store} (hs₁ : s₁.Agrees env)
    (hrun : ∀ rest, (runCode (lhs.code ++ rest) s).result = (runCode rest s₁).result)
    (hx : lhs.result.eval s₁ = .ok x) (hy : rhs.Stops s₁ y) (hnone : env y = none) :
    (arith op lhs rhs).Stops s y := by
  refine .inl fun rest => ?_
  rw [code_arith_append, hrun]
  rcases hy with herror | ⟨hcode, hresult⟩
  · exact herror _
  · rw [hcode, hresult, List.nil_append]
    exact result_runCode_of_error (effect_arith_of_rhs hx (hs₁.eval_eq_error hnone))

/-- The left operand stops: so does the operator, there or in the code of the right operand, which
comes before the left operand is read. -/
theorem Stops.arith_lhs {env : Env} {x : String} {m : Nat} {ys : List String} {g : Env → ℤ}
    (hs : s.Agrees env) (hx : lhs.Stops s x) (hnone : env x = none) (hr : rhs.Computes m ys g) :
    (arith op lhs rhs).Stops s x ∨ ∃ y ∈ ys, env y = none ∧ (arith op lhs rhs).Stops s y := by
  rcases hx with herror | ⟨hcode, hresult⟩
  · refine .inl (.inl fun rest => ?_)
    rw [code_arith_append]
    exact herror _
  have hread : ∀ s' : Store, s'.Agrees env → ∀ rest,
      (runCode (.arith op (tempVar rhs.next) lhs.result rhs.result :: rest) s').result =
        .error (.uninitialized (.named x)) := by
    intro s' hs' rest
    rw [hresult]
    exact result_runCode_of_error (effect_arith_of_lhs (hs'.eval_eq_error hnone))
  rcases hr.outcome env s hs with ⟨-, s₂, hrun₂, hkept₂, -⟩ | ⟨y, hy, hynone, herror | ⟨hcode₂, -⟩⟩
  · refine .inl (.inl fun rest => ?_)
    rw [code_arith_append, hcode, List.nil_append, hrun₂]
    exact hread s₂ (hs.keptOutside hkept₂) rest
  · refine .inr ⟨y, hy, hynone, .inl fun rest => ?_⟩
    rw [code_arith_append, hcode, List.nil_append]
    exact herror _
  · refine .inl (.inl fun rest => ?_)
    rw [code_arith_append, hcode, hcode₂, List.nil_append, List.nil_append]
    exact hread s hs rest

/-- **Operators are translated correctly.** -/
theorem Computes.arith {xs ys : List String} {f g : Env → ℤ} (hl : lhs.Computes n xs f)
    (hr : rhs.Computes lhs.next ys g) (hlt : rhs.next < 2 ^ 32) :
    (Translation.arith op lhs rhs).Computes n (xs ++ ys) fun env => op.onInts (f env) (g env) where
  le_next := by
    have hn := hl.le_next
    have hnext := hr.le_next
    rw [next_arith]
    omega
  settled k hk hk' := by
    intro h
    rw [next_arith] at hk
    have hvar : tempVar rhs.next = tempVar k := Operand.var.inj h
    have heq : rhs.next = k := (tempVar_inj hlt hk').mp hvar
    omega
  outcome env s hs := by
    rcases hl.outcome env s hs with ⟨hxs, s₁, hrun, hkept, hx⟩ | ⟨x, hx, hnone, hstop⟩
    · have hs₁ := hs.keptOutside hkept
      rcases hr.outcome env s₁ hs₁ with ⟨hys, hdeliver⟩ | ⟨y, hy, hnone, hstop⟩
      · refine .inl ⟨List.forall_mem_append.mpr ⟨hxs, hys⟩, ?_⟩
        exact Delivers.arith hrun hkept hx hdeliver hl.le_next hr.le_next
          fun k hk hk' => hl.settled k hk (hk'.trans hlt)
      · exact .inr ⟨y, List.mem_append_right xs hy, hnone,
          Stops.arith_rhs hs₁ hrun hx hstop hnone⟩
    · rcases Stops.arith_lhs hs hstop hnone hr with hstop | ⟨y, hy, hynone, hstop⟩
      · exact .inr ⟨x, List.mem_append_left ys hx, hnone, hstop⟩
      · exact .inr ⟨y, List.mem_append_right xs hy, hynone, hstop⟩

/-- A name is its own result. -/
theorem computes_name (n : Nat) (x : String) :
    (⟨[], .var (.named x), n⟩ : Translation).Computes n [x] fun env => (env x).getD 0 where
  le_next := Nat.le_refl n
  settled k _ _ := by simp [tempVar]
  outcome env s hs := by
    cases hx : env x with
    | none => exact .inr ⟨x, by simp, hx, .inr ⟨rfl, rfl⟩⟩
    | some value =>
      have hget : s.get? (.named x) = some (Int32.ofInt value) := by rw [hs x, hx]; rfl
      refine .inl ⟨by simp [hx], s, fun rest => rfl, .refl s, ?_⟩
      rw [Operand.eval, hget]
      rfl

/-- A number is its own result. -/
theorem computes_literal (n : Nat) (value : ℤ) :
    (⟨[], .imm (Int32.ofInt value), n⟩ : Translation).Computes n [] fun _ => value where
  le_next := Nat.le_refl n
  settled k _ _ := by simp
  outcome env s _ := .inl ⟨by simp, s, fun rest => rfl, .refl s, rfl⟩

end Translation

mutual

/-- **Expressions are translated correctly.** -/
theorem Expression.computes (n : Nat) (e : Expression) (hfits : e.Fits)
    (hlt : (e.translate n).next ≤ 2 ^ 32) :
    (e.translate n).Computes n e.names fun env => e.value env := by
  match e with
  | .single t => exact t.computes n hfits hlt
  | .more e sign t =>
    rw [Expression.translate, Translation.next_arith] at hlt
    have hle : (e.translate n).next ≤ (t.translate (e.translate n).next).next := by
      rw [t.translate_next]
      omega
    have he := e.computes n hfits.1 (by omega)
    have ht := t.computes (e.translate n).next hfits.2 (by omega)
    cases sign with
    | plus => exact he.arith ht hlt
    | minus => exact he.arith ht hlt

theorem Term.computes (n : Nat) (t : Term) (hfits : t.Fits)
    (hlt : (t.translate n).next ≤ 2 ^ 32) :
    (t.translate n).Computes n t.names fun env => t.value env := by
  match t with
  | .single f => exact f.computes n hfits hlt
  | .times t f =>
    rw [Term.translate, Translation.next_arith] at hlt
    have hle : (t.translate n).next ≤ (f.translate (t.translate n).next).next := by
      rw [f.translate_next]
      omega
    have ht := t.computes n hfits.1 (by omega)
    have hf := f.computes (t.translate n).next hfits.2 (by omega)
    exact ht.arith hf hlt

theorem Factor.computes (n : Nat) (f : Factor) (hfits : f.Fits)
    (hlt : (f.translate n).next ≤ 2 ^ 32) :
    (f.translate n).Computes n f.names fun env => f.value env := by
  match f with
  | .paren e => exact e.computes n hfits hlt
  | .name x => exact Translation.computes_name n x
  | .literal text =>
    obtain ⟨value, hvalue⟩ := hfits
    rw [Factor.translate, literalWord_eq hvalue]
    exact Translation.computes_literal n (literalValue text)

end

/-! ## Statements -/

/-- Whoever reads the result of code that stops, stops too. -/
theorem Translation.Stops.result_runCode {tr : Translation} {s : Store} {env : Env} {x : String}
    {i : Instr} (h : tr.Stops s x) (hs : s.Agrees env) (hnone : env x = none)
    (hi : ∀ e, tr.result.eval s = .error e → i.effect s = .error e) (rest : List Instr) :
    (runCode (tr.code ++ i :: rest) s).result = .error (.uninitialized (.named x)) := by
  rcases h with herror | ⟨hcode, hresult⟩
  · exact herror _
  · rw [hcode, List.nil_append]
    refine result_runCode_of_error (hi _ ?_)
    rw [hresult, hs.eval_eq_error hnone]

namespace Statement

variable {n : Nat} {env : Env} {s : Store}

/-- The code of a statement that ends nothing leaves a store with the values behind it, or stops at
a name without a value. -/
theorem outcome_code (st : Statement) (hret : st.isRet = false) (hfits : st.Fits)
    (hlt : st.next n ≤ 2 ^ 32) (hs : s.Agrees env) :
    (∀ x ∈ st.names, env x ≠ none) ∧ (∃ s' : Store, s'.Agrees (st.exec env) ∧
        ∀ rest, (runCode (st.code n ++ rest) s).result = (runCode rest s').result) ∨
      ∃ x ∈ st.names, env x = none ∧
        ∀ rest, (runCode (st.code n ++ rest) s).result = .error (.uninitialized (.named x)) := by
  cases st with
  | declare x => exact .inl ⟨by simp [names], s, hs, fun rest => rfl⟩
  | assign x e =>
    have hcode : ∀ rest, (assign x e).code n ++ rest =
        (e.translate n).code ++ .mov (.named x) (e.translate n).result :: rest := by
      simp [code]
    rcases (e.computes n hfits hlt).outcome env s hs with
      ⟨hreads, s', hrun, hkept, hvalue⟩ | ⟨y, hy, hnone, hstop⟩
    · have heffect : (Instr.mov (.named x) (e.translate n).result).effect s' =
          .ok (.write (.named x) (Int32.ofInt (e.value env))) :=
        Instr.effect_mov_eq_ok.mpr ⟨_, hvalue, rfl⟩
      refine .inl ⟨hreads, s'.set (.named x) (Int32.ofInt (e.value env)), fun y => ?_,
        fun rest => ?_⟩
      · have hy := hs.keptOutside hkept y
        rw [Store.get?_set, exec, Function.update_apply]
        by_cases hyx : y = x
        · simp [hyx]
        · simpa [hyx] using hy
      · rw [hcode, hrun, result_runCode_of_write heffect]
    · refine .inr ⟨y, hy, hnone, fun rest => ?_⟩
      rw [hcode]
      refine hstop.result_runCode hs hnone (fun e he => ?_) rest
      rw [Instr.effect, he]
      rfl
  | ret e => cases hret

/-- The code of a `return` ends with its value, or stops at a name without a value. -/
theorem outcome_code_ret (e : Expression) (hfits : e.Fits) (hlt : (e.translate n).next ≤ 2 ^ 32)
    (hs : s.Agrees env) :
    (∀ x ∈ e.names, env x ≠ none) ∧ (∀ rest, (runCode ((ret e).code n ++ rest) s).result =
        .ok (some (Int32.ofInt (e.value env)))) ∨
      ∃ x ∈ e.names, env x = none ∧ ∀ rest,
        (runCode ((ret e).code n ++ rest) s).result = .error (.uninitialized (.named x)) := by
  have hcode : ∀ rest, (ret e).code n ++ rest =
      (e.translate n).code ++ .ret (e.translate n).result :: rest := by
    simp [code]
  rcases (e.computes n hfits hlt).outcome env s hs with
    ⟨hreads, s', hrun, hkept, hvalue⟩ | ⟨y, hy, hnone, hstop⟩
  · refine .inl ⟨hreads, fun rest => ?_⟩
    rw [hcode, hrun]
    exact result_runCode_of_finish (Instr.effect_ret_eq_ok.mpr ⟨_, hvalue, rfl⟩)
  · refine .inr ⟨y, hy, hnone, fun rest => ?_⟩
    rw [hcode]
    refine hstop.result_runCode hs hnone (fun e he => ?_) rest
    rw [Instr.effect, he]
    rfl

theorem le_listNext (n : Nat) (ss : List Statement) : n ≤ listNext n ss := by
  rw [listNext_eq]
  omega

/-- **Statements are translated correctly.** Either every name that is read has a value, and the
code returns the meaning, or the code stops at a name that the first statement in question reads. -/
theorem outcome_listCode (ss : List Statement) (hfits : ∀ st ∈ ss, st.Fits)
    (hlt : listNext n ss ≤ 2 ^ 32) (hs : s.Agrees env) :
    (∀ i x, ¬ UnassignedAt env ss i x) ∧
        (runCode (listCode n ss) s).result = .ok ((meaning env ss).map Int32.ofInt) ∨
      ∃ x, FirstUnassigned env ss x ∧
        (runCode (listCode n ss) s).result = .error (.uninitialized (.named x)) := by
  induction ss generalizing n env s with
  | nil => exact .inl ⟨fun i x => unassignedAt_nil, rfl⟩
  | cons st ss ih =>
    obtain ⟨hst, hss⟩ := List.forall_mem_cons.mp hfits
    have hnext : st.next n ≤ 2 ^ 32 := (le_listNext _ ss).trans hlt
    rw [listCode]
    by_cases hret : st.isRet = true
    · cases st with
      | ret e =>
        rcases outcome_code_ret e hst hnext hs with ⟨hreads, hrun⟩ | ⟨x, hx, hnone, hrun⟩
        · exact .inl ⟨not_unassignedAt_of_isRet hret hreads, hrun _⟩
        · exact .inr ⟨x, firstUnassigned_of_mem hx hnone, hrun _⟩
      | _ => cases hret
    · have hret : st.isRet = false := Bool.eq_false_iff.mpr hret
      rcases st.outcome_code hret hst hnext hs with ⟨hreads, s', hs', hrun⟩ | ⟨x, hx, hnone, hrun⟩
      · rw [hrun, meaning_cons hret]
        rcases ih hss hlt hs' with ⟨hnot, hresult⟩ | ⟨x, hfirst, hresult⟩
        · exact .inl ⟨not_unassignedAt_cons hret hreads hnot, hresult⟩
        · exact .inr ⟨x, hfirst.cons hret hreads, hresult⟩
      · exact .inr ⟨x, firstUnassigned_of_mem hx hnone, hrun _⟩

end Statement

/-! ## Sources -/

/-- If the tokens of a source are analysed, they are those of a program and the end token: the end
token stands only at the end, so nothing is left behind it. -/
theorem exists_program_of_source {source : String} {given symbols : SymbolTable}
    {tokens : List Token} {a : Analysis}
    (hlex : tokenize source given = (.ok tokens, symbols))
    (hparse : analyse tokens symbols = (.ok (), a)) :
    ∃ p : Program, tokens = p.tokens ++ [.eof] := by
  obtain ⟨ts, rfl, hts⟩ := exists_tokens_eof hlex
  obtain ⟨p, rest, heq⟩ := exists_program_of_analyse hparse
  rcases List.eq_nil_or_concat rest with rfl | ⟨rest, t, rfl⟩
  · exact ⟨p, heq⟩
  · rw [List.concat_eq_append, ← List.cons_append, ← List.append_assoc] at heq
    obtain ⟨rfl, -⟩ := List.append_inj' heq rfl
    simp at hts

/-- The store at the beginning has no values. -/
theorem agrees_empty : ({} : Store).Agrees fun _ => none :=
  fun _ => rfl

/-- The code of a program returns what the program means, or stops where the program first reads a
name without a value. -/
theorem Program.outcome_code {p : Program} (hfits : ∀ st ∈ p.statements, st.Fits)
    (hlt : p.tokens.countP Token.isOperator ≤ 2 ^ 32) :
    ¬ p.ReadsUnassigned ∧ (evaluate p.code).result = .ok (p.meaning.map Int32.ofInt) ∨
      ∃ x, FirstUnassigned (fun _ => none) p.statements x ∧
        (evaluate p.code).result = .error (.uninitialized (.named x)) := by
  have hnext : Statement.listNext 0 p.statements ≤ 2 ^ 32 := by
    rw [Statement.listNext_eq, Nat.zero_add]
    exact hlt
  rcases Statement.outcome_listCode p.statements hfits hnext agrees_empty with
    ⟨hnot, hresult⟩ | ⟨x, hfirst, hresult⟩
  · exact .inl ⟨fun ⟨i, x, hx⟩ => hnot i x hx, hresult⟩
  · exact .inr ⟨x, hfirst, hresult⟩

/-- **The code of a source means what its statements mean.** The tokens of a source that is analysed
are those of a program. If what the program executes reads only names that were assigned before,
running the code gives the value of the program as a word, or nothing if it returns nothing. The run
stops exactly when a name is read that was not assigned before, and then at such a name, read by the
first statement that reads one. -/
theorem evaluate_analysed_source {source : String} {given symbols : SymbolTable}
    {tokens : List Token} {a : Analysis}
    (hlex : tokenize source given = (.ok tokens, symbols))
    (hparse : analyse tokens symbols = (.ok (), a))
    (hoperators : tokens.countP Token.isOperator < 2 ^ 32) :
    (∃ p : Program, tokens = p.tokens ++ [.eof]) ∧
    ∀ p : Program, tokens = p.tokens ++ [.eof] →
      (¬ p.ReadsUnassigned →
        (evaluate a.code.toList).result = .ok (p.meaning.map Int32.ofInt)) ∧
      ((∃ e, (evaluate a.code.toList).result = .error e) ↔ p.ReadsUnassigned) ∧
      ∀ v, (evaluate a.code.toList).result = .error (.uninitialized v) →
        ∃ x, v = .named x ∧ FirstUnassigned (fun _ => none) p.statements x := by
  refine ⟨exists_program_of_source hlex hparse, fun p hp => ?_⟩
  subst hp
  obtain ⟨hfits, hcode⟩ := p.code_of_analyse hparse
  have hlt : p.tokens.countP Token.isOperator ≤ 2 ^ 32 := by
    rw [List.countP_append] at hoperators
    omega
  rw [hcode]
  rcases p.outcome_code hfits hlt with ⟨hnot, hresult⟩ | ⟨x, hfirst, hresult⟩
  · rw [hresult]
    refine ⟨fun _ => rfl, ⟨?_, fun h => absurd h hnot⟩, ?_⟩
    · rintro ⟨e, he⟩
      cases he
    · intro v hv
      cases hv
  · obtain ⟨i, hi, -⟩ := id hfirst
    have hreads : p.ReadsUnassigned := ⟨i, x, hi⟩
    rw [hresult]
    refine ⟨fun hnot => absurd hreads hnot, ⟨fun _ => hreads, fun _ => ⟨_, rfl⟩⟩, ?_⟩
    intro v hv
    cases hv
    exact ⟨x, rfl, hfirst⟩

/-- The statements of `x = 2147483647; return x + 1;`. -/
def overflowProgram : Program where
  statements := [.assign "x" (.single (.single (.literal "2147483647"))),
    .ret (.more (.single (.single (.name "x"))) .plus (.single (.literal "1")))]
  nonempty := by simp

theorem evaluate_overflow_source :
    ∃ tokens symbols a,
      tokenize "x = 2147483647; return x + 1;" .empty = (.ok tokens, symbols) ∧
      analyse tokens symbols = (.ok (), a) ∧ tokens.countP Token.isOperator < 2 ^ 32 ∧
      tokens = overflowProgram.tokens ++ [.eof] ∧
      overflowProgram.meaning = some 2147483648 ∧
      (evaluate a.code.toList).result = .ok (some (-2147483648)) := by
  have hlex : (tokenize "x = 2147483647; return x + 1;" .empty).1 =
      .ok (overflowProgram.tokens ++ [.eof]) := by decide +kernel
  have hparse : (analyse (overflowProgram.tokens ++ [.eof])
      (tokenize "x = 2147483647; return x + 1;" .empty).2).1 = .ok () := by decide +kernel
  have hoperators : (overflowProgram.tokens ++ [Token.eof]).countP Token.isOperator < 2 ^ 32 := by
    decide +kernel
  have hmeaning : overflowProgram.meaning = some 2147483648 := by decide +kernel
  have hassigned : ¬ overflowProgram.ReadsUnassigned := by
    rintro ⟨i, x, hx⟩
    refine not_unassignedAt_cons rfl (by simp [Statement.names, Expression.names, Term.names,
      Factor.names]) (not_unassignedAt_of_isRet rfl ?_) i x hx
    simp [Statement.names, Expression.names, Term.names, Factor.names, Statement.exec]
  have hlex' := Prod.fst_eq_iff.mp hlex
  have hparse' := Prod.fst_eq_iff.mp hparse
  have hresult := ((evaluate_analysed_source hlex' hparse' hoperators).2 overflowProgram rfl).1
    hassigned
  rw [hmeaning] at hresult
  have hword : Int32.ofInt 2147483648 = -2147483648 := by decide
  rw [Option.map_some, hword] at hresult
  exact ⟨_, _, _, hlex', hparse', hoperators, rfl, hmeaning, hresult⟩

end StraightLine
