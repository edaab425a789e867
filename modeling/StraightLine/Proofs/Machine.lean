import Mathlib
import StraightLine.Assembly.Line
import StraightLine.Code.Run

/-!
# The two executions that lowering relates

On one side the machine: a number in every register, and assembly lines executed from first to last.
There is no line that ends a program, so a list of lines is always executed to its end.

On the other side straight-line code run the same way, to its end: a `ret` records its value and
the run goes on. This differs from `runCode`, which ends at the first `ret`; the two are the same
run up to there.

## Total, permissive semantics

A machine has a number in every register, also in those that nothing was put into. Whether a program
reads a register before it writes it is not a question for the machine. It is one for the code, and
`WellRead` is the answer there: what is read has been written, and what is read of a temporary has
not been read before.

## Main definitions

* `Machine`, `AsmLine.exec`, `execLines` — the machine
* `FullRun`, `runThrough` — code run to its end
* `Instr.reads`, `Instr.dest?`, `Instr.vars`, `Instr.consumed` — what an instruction has to do with variables
* `Held`, `WellRead` — every read finds a value that is still there

## Main results

* `execLines_append`, `runThrough_append_eq_ok` — both executions compose
* `WellRead.exists_runThrough` — well-read code runs to its end
-/

namespace StraightLine

/-! ## The machine -/

/-- A number in every register. -/
abbrev Machine := Register → Int32

/-- Execute one line. Arithmetic wraps around. -/
def AsmLine.exec (m : Machine) : AsmLine → Machine
  | .li rd imm => Function.update m rd imm
  | .mv rd rs => Function.update m rd (m rs)
  | .addi rd rs1 imm => Function.update m rd (m rs1 + imm)
  | .arith op rd rs1 rs2 => Function.update m rd (op.apply (m rs1) (m rs2))

/-- Execute lines from first to last. -/
def execLines (lines : List AsmLine) (m : Machine) : Machine :=
  lines.foldl AsmLine.exec m

@[simp] theorem execLines_nil (m : Machine) : execLines [] m = m :=
  rfl

@[simp] theorem execLines_cons (l : AsmLine) (lines : List AsmLine) (m : Machine) :
    execLines (l :: lines) m = execLines lines (l.exec m) :=
  rfl

theorem execLines_append (front back : List AsmLine) (m : Machine) :
    execLines (front ++ back) m = execLines back (execLines front m) :=
  List.foldl_append

/-! ## Code to its end -/

/-- How far a run that does not end at `ret` has come. -/
structure FullRun where
  /-- The values of variables. -/
  store : Store := {}
  /-- The value of the latest `ret`, if there has been one. -/
  returned : Option Int32 := none

/-- Let an effect take place: a value that ends a program is only recorded. -/
def FullRun.apply (p : FullRun) : Effect → FullRun
  | .write dest value => { p with store := p.store.set dest value }
  | .finish value => { p with returned := some value }

/-- Run one instruction. -/
def FullRun.step (p : FullRun) (i : Instr) : Except EvalError FullRun :=
  (i.effect p.store).map p.apply

/-- Run code to its end. -/
def runThrough : List Instr → FullRun → Except EvalError FullRun
  | [], p => .ok p
  | i :: code, p => do
    let p' ← p.step i
    runThrough code p'

theorem FullRun.step_eq_ok {p p' : FullRun} {i : Instr} :
    p.step i = .ok p' ↔ ∃ e, i.effect p.store = .ok e ∧ p' = p.apply e := by
  rw [FullRun.step]
  rcases i.effect p.store with err | e
  · simp [Except.map]
  · simp [Except.map, eq_comm]

theorem runThrough_cons_eq_ok {i : Instr} {code : List Instr} {p p' : FullRun} :
    runThrough (i :: code) p = .ok p' ↔
      ∃ q, p.step i = .ok q ∧ runThrough code q = .ok p' := by
  rw [runThrough]
  rcases p.step i with err | q
  · simp [bind, Except.bind]
  · simp [bind, Except.bind]

theorem runThrough_append_eq_ok {front back : List Instr} {p p' : FullRun} :
    runThrough (front ++ back) p = .ok p' ↔
      ∃ q, runThrough front p = .ok q ∧ runThrough back q = .ok p' := by
  induction front generalizing p with
  | nil => simp [runThrough]
  | cons i front ih =>
    simp only [List.cons_append, runThrough_cons_eq_ok, ih]
    constructor
    · rintro ⟨r, hr, q, hq, hback⟩
      exact ⟨q, ⟨r, hr, hq⟩, hback⟩
    · rintro ⟨q, ⟨r, hr, hq⟩, hback⟩
      exact ⟨r, hr, q, hq, hback⟩

/-! ## What an instruction reads and writes -/

/-- The variable that an operand reads, if it is one. -/
def Operand.vars : Operand → List Var
  | .imm _ => []
  | .var v => [v]

namespace Instr

/-- The variables that an instruction reads. -/
def reads : Instr → List Var
  | mov _ src => src.vars
  | arith _ _ lhs rhs => lhs.vars ++ rhs.vars
  | ret value => value.vars

/-- The variable that an instruction writes. -/
def dest? : Instr → Option Var
  | mov dest _ => some dest
  | arith _ dest _ _ => some dest
  | ret _ => none

/-- The variables of an instruction, in the order in which registers are found for them. -/
def vars (i : Instr) : List Var :=
  i.reads ++ i.dest?.toList

/-- The variables that `mov` and operators read. A temporary among them is used up; the value of a
`ret` is not. -/
def consumed : Instr → List Var
  | ret _ => []
  | i => i.reads

theorem mem_vars {i : Instr} {v : Var} : v ∈ i.vars ↔ v ∈ i.reads ∨ i.dest? = some v := by
  rw [vars, List.mem_append, Option.mem_toList]

theorem mem_reads_of_mem_consumed {i : Instr} {v : Var} (h : v ∈ i.consumed) : v ∈ i.reads := by
  cases i with
  | ret value => cases h
  | mov dest src => exact h
  | arith op dest lhs rhs => exact h

/-- A temporary is used up by an instruction. -/
def Spends (i : Instr) (v : Var) : Prop :=
  v.isTemp ∧ v ∈ i.consumed

end Instr

/-- A variable may be read behind `before`. A named variable has been written there. A temporary has
been written there and, from its last write on, has not been consumed: neither by a later
instruction nor by the one that wrote it. -/
def Held (before : List Instr) : Var → Prop
  | .named name => ∃ w ∈ before, w.dest? = some (.named name)
  | .temp id => ∃ earlier w between, before = earlier ++ w :: between ∧
      w.dest? = some (.temp id) ∧ (∀ k ∈ between, k.dest? ≠ some (.temp id)) ∧
      ∀ k ∈ w :: between, .temp id ∉ k.consumed

/-- Every instruction reads only what may be read behind the instructions before it. -/
def WellRead (code : List Instr) : Prop :=
  ∀ before i after, code = before ++ i :: after → ∀ v ∈ i.reads, Held before v

theorem Held.exists_write {before : List Instr} {v : Var} (h : Held before v) :
    ∃ w ∈ before, w.dest? = some v := by
  cases v with
  | named name => exact h
  | temp id =>
    obtain ⟨earlier, w, between, rfl, hw, -⟩ := h
    exact ⟨w, by simp, hw⟩

/-- Code is well read up to an instruction and with it. -/
theorem wellRead_concat {code : List Instr} {i : Instr} :
    WellRead (code ++ [i]) ↔ WellRead code ∧ ∀ v ∈ i.reads, Held code v := by
  constructor
  · intro h
    refine ⟨fun before j after hcode => ?_, h code i [] rfl⟩
    exact h before j (after ++ [i]) (by simp [hcode])
  · rintro ⟨hcode, hi⟩ before j after hsplit
    rcases List.eq_nil_or_concat after with rfl | ⟨after, k, rfl⟩
    · obtain ⟨rfl, rfl⟩ := List.append_inj' hsplit rfl |>.imp_right List.singleton_inj.mp
      exact hi
    · rw [List.concat_eq_append, ← List.cons_append, ← List.append_assoc] at hsplit
      exact hcode before j after (List.append_inj' hsplit rfl).1

/-! ## Well-read code runs to its end -/

namespace Instr

variable {s : Store} {e : Effect}

theorem effect_mov_eq_ok {dest : Var} {src : Operand} :
    (mov dest src).effect s = .ok e ↔ ∃ x, src.eval s = .ok x ∧ e = .write dest x := by
  rw [effect]
  rcases src.eval s with err | x
  · simp [bind, Except.bind]
  · simp [bind, Except.bind, pure, Except.pure, eq_comm]

theorem effect_arith_eq_ok {op : ArithOp} {dest : Var} {lhs rhs : Operand} :
    (arith op dest lhs rhs).effect s = .ok e ↔
      ∃ x y, lhs.eval s = .ok x ∧ rhs.eval s = .ok y ∧ e = .write dest (op.apply x y) := by
  rw [effect]
  rcases lhs.eval s with err | x
  · simp [bind, Except.bind]
  · rcases rhs.eval s with err | y
    · simp [bind, Except.bind]
    · simp [bind, Except.bind, pure, Except.pure, eq_comm]

theorem effect_ret_eq_ok {value : Operand} :
    (ret value).effect s = .ok e ↔ ∃ x, value.eval s = .ok x ∧ e = .finish x := by
  rw [effect]
  rcases value.eval s with err | x
  · simp [bind, Except.bind]
  · simp [bind, Except.bind, pure, Except.pure, eq_comm]

/-- The destination of an instruction is the variable that its effect writes. -/
theorem dest?_of_effect {i : Instr} (h : i.effect s = .ok e) :
    i.dest? = match e with
      | .write d _ => some d
      | .finish _ => none := by
  cases i with
  | mov dest src =>
    obtain ⟨x, -, rfl⟩ := effect_mov_eq_ok.mp h
    rfl
  | arith op dest lhs rhs =>
    obtain ⟨x, y, -, -, rfl⟩ := effect_arith_eq_ok.mp h
    rfl
  | ret value =>
    obtain ⟨x, -, rfl⟩ := effect_ret_eq_ok.mp h
    rfl

end Instr

/-- An operand has a value where its variable does. -/
theorem Operand.exists_eval {s : Store} {a : Operand}
    (h : ∀ v ∈ a.vars, ∃ x, s.get? v = some x) : ∃ x, a.eval s = .ok x := by
  cases a with
  | imm x => exact ⟨x, rfl⟩
  | var v =>
    obtain ⟨x, hx⟩ := h v (by simp [Operand.vars])
    exact ⟨x, by simp [Operand.eval, hx]⟩

/-- An instruction whose variables have values has an effect. -/
theorem Instr.exists_effect {s : Store} {i : Instr}
    (h : ∀ v ∈ i.reads, ∃ x, s.get? v = some x) : ∃ e, i.effect s = .ok e := by
  cases i with
  | mov dest src =>
    obtain ⟨x, hx⟩ := Operand.exists_eval h
    exact ⟨_, effect_mov_eq_ok.mpr ⟨x, hx, rfl⟩⟩
  | arith op dest lhs rhs =>
    obtain ⟨x, hx⟩ := Operand.exists_eval (a := lhs) fun v hv => h v (by simp [reads, hv])
    obtain ⟨y, hy⟩ := Operand.exists_eval (a := rhs) fun v hv => h v (by simp [reads, hv])
    exact ⟨_, effect_arith_eq_ok.mpr ⟨x, y, hx, hy, rfl⟩⟩
  | ret value =>
    obtain ⟨x, hx⟩ := Operand.exists_eval h
    exact ⟨_, effect_ret_eq_ok.mpr ⟨x, hx, rfl⟩⟩

/-- What has a value keeps having one. -/
theorem FullRun.exists_get?_apply {p : FullRun} {v : Var} (h : ∃ x, p.store.get? v = some x)
    (e : Effect) : ∃ x, (p.apply e).store.get? v = some x := by
  cases e with
  | write dest value =>
    rw [FullRun.apply, Store.get?_set]
    split
    · exact ⟨value, rfl⟩
    · exact h
  | finish value => exact h

/-- Well-read code runs to its end, and every variable that it writes has a value there. -/
theorem WellRead.exists_runThrough {code : List Instr} (h : WellRead code) :
    ∃ p, runThrough code {} = .ok p ∧
      ∀ w ∈ code, ∀ v, w.dest? = some v → ∃ x, p.store.get? v = some x := by
  -- from the front: the last instruction finds what the instructions before it have written
  induction code using List.reverseRecOn with
  | nil => exact ⟨{}, rfl, by simp⟩
  | append_singleton code i ih =>
    obtain ⟨hcode, hi⟩ := wellRead_concat.mp h
    obtain ⟨p, hp, hvalues⟩ := ih hcode
    have hreads : ∀ v ∈ i.reads, ∃ x, p.store.get? v = some x := by
      intro v hv
      obtain ⟨w, hw, hdest⟩ := (hi v hv).exists_write
      exact hvalues w hw v hdest
    obtain ⟨e, he⟩ := Instr.exists_effect hreads
    have hstep : runThrough [i] p = .ok (p.apply e) :=
      runThrough_cons_eq_ok.mpr ⟨_, FullRun.step_eq_ok.mpr ⟨e, he, rfl⟩, rfl⟩
    refine ⟨p.apply e, runThrough_append_eq_ok.mpr ⟨p, hp, hstep⟩, fun w hw v hv => ?_⟩
    rcases List.mem_append.mp hw with hw | hw
    · exact FullRun.exists_get?_apply (hvalues w hw v hv) e
    · obtain rfl := List.mem_singleton.mp hw
      rw [Instr.dest?_of_effect he] at hv
      cases e with
      | write d x =>
        cases hv
        exact ⟨x, by rw [FullRun.apply, Store.get?_set, if_pos rfl]⟩
      | finish x => cases hv

end StraightLine
