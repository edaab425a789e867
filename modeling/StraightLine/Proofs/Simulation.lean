import StraightLine.Proofs.Lowering

/-!
# Assembly does what the code does

Lowering keeps no record of which variables are live. It frees the register of a temporary as soon
as an operator or a `mov` has read it, and relies on nobody reading the temporary again. So the
invariant between code and machine is not about all variables that have a value. It leaves out
those that are *spent*: temporaries that were read and not written since. Everybody else is in a
register, and the register holds the value.

`Simulates` is that invariant, for an arbitrary set of spent variables. Lowering one instruction
keeps it if the instruction reads nothing spent; over a list, by induction, it holds at the end if
no instruction reads what is spent where it stands, which is `ReadsUnspent`. The initial contents of
the registers play no part: nobody has a value at the start, so nothing is required of them.

## Main definitions

* `spentAfter`, `ReadsUnspent` — temporaries used up, and code that never reads one
* `Simulates` — machine and registers have what the run has

## Main results

* `Simulates.lower`, `Simulates.lowerAll` — one instruction, and all of them
* `WellRead.readsUnspent` — well-read code never reads what is spent
* `generate_simulates_code` — generated assembly leaves the value of the last `ret` in `a0`, and
  every named variable in its register
-/

namespace StraightLine

/-! ## Spent variables -/

/-- What is spent behind an instruction: the temporaries that it uses up, and whatever was spent
before and is not written by it. -/
def spentAfter (spent : Var → Prop) (i : Instr) (v : Var) : Prop :=
  i.Spends v ∨ (spent v ∧ i.dest? ≠ some v)

/-- No instruction reads a variable that is spent where the instruction stands. -/
def ReadsUnspent (spent : Var → Prop) : List Instr → Prop
  | [] => True
  | i :: code => (∀ v ∈ i.reads, ¬ spent v) ∧ ReadsUnspent (spentAfter spent i) code

theorem readsUnspent_append {spent : Var → Prop} {front back : List Instr} :
    ReadsUnspent spent (front ++ back) ↔
      ReadsUnspent spent front ∧ ReadsUnspent (front.foldl spentAfter spent) back := by
  induction front generalizing spent with
  | nil => simp [ReadsUnspent]
  | cons i front ih => simp only [List.cons_append, ReadsUnspent, List.foldl_cons, ih, and_assoc]

/-- Named variables are never spent. -/
theorem not_spent_named {spent : Var → Prop} {name : String} (h : ¬ spent (.named name))
    (code : List Instr) : ¬ code.foldl spentAfter spent (.named name) := by
  induction code generalizing spent with
  | nil => exact h
  | cons i code ih =>
    refine ih ?_
    rintro (⟨htemp, -⟩ | ⟨hspent, -⟩)
    · simp [Var.isTemp] at htemp
    · exact h hspent

/-- What nobody consumes does not become spent. -/
theorem not_spent_of_not_consumed {spent : Var → Prop} {v : Var} (h : ¬ spent v)
    {code : List Instr} (hcode : ∀ k ∈ code, v ∉ k.consumed) :
    ¬ code.foldl spentAfter spent v := by
  induction code generalizing spent with
  | nil => exact h
  | cons i code ih =>
    refine ih ?_ fun k hk => hcode k (List.mem_cons_of_mem i hk)
    rintro (⟨-, hmem⟩ | ⟨hspent, -⟩)
    · exact hcode i List.mem_cons_self hmem
    · exact h hspent

/-- What may be read is not spent. -/
theorem Held.not_spent {before : List Instr} {v : Var} (h : Held before v) :
    ¬ before.foldl spentAfter (fun _ => False) v := by
  cases v with
  | named name => exact not_spent_named not_false before
  | temp id =>
    obtain ⟨earlier, w, between, rfl, hw, -, hconsumed⟩ := h
    rw [List.foldl_append, List.foldl_cons]
    refine not_spent_of_not_consumed ?_ fun k hk => hconsumed k (List.mem_cons_of_mem w hk)
    rintro (⟨-, hmem⟩ | ⟨-, hne⟩)
    · exact hconsumed w List.mem_cons_self hmem
    · exact hne hw

/-- Well-read code never reads what is spent. -/
theorem WellRead.readsUnspent {code : List Instr} (h : WellRead code) :
    ReadsUnspent (fun _ => False) code := by
  induction code using List.reverseRecOn with
  | nil => trivial
  | append_singleton code i ih =>
    obtain ⟨hcode, hi⟩ := wellRead_concat.mp h
    exact readsUnspent_append.mpr ⟨ih hcode, fun v hv => (hi v hv).not_spent, trivial⟩

/-! ## The invariant -/

/-- The machine has what the run has: every variable with a value that is not spent is in a
register, with that value, and the latest returned value is in `a0`. Before there is one, `a0` has
its initial contents. -/
structure Simulates (spent : Var → Prop) (initial : Int32) (p : FullRun) (f : RegisterFile)
    (m : Machine) : Prop where
  /-- Values of variables are in their registers. -/
  placed : ∀ ⦃v x⦄, ¬ spent v → p.store.get? v = some x → ∃ r, f.locate? v = some r ∧ m r = x
  /-- The return value is in its register. -/
  answer : m .a0 = p.returned.getD initial

variable {spent : Var → Prop} {initial : Int32} {p p' : FullRun} {f : RegisterFile} {m : Machine}

/-- At the start there is nothing to have. -/
theorem simulates_start (f : RegisterFile) (m : Machine) :
    Simulates (fun _ => False) (m .a0) {} f m :=
  ⟨fun v x _ h => by simp at h, rfl⟩

/-- An operand that is not spent is read from a register as from the store. -/
theorem Simulates.readFrom {mid : RegisterFile} {a : Operand} {x : Int32}
    (h : Simulates spent initial p f m) (hext : f.Extends mid) (hread : ∀ v ∈ a.vars, ¬ spent v)
    (ha : a.eval p.store = .ok x) : a.readFrom mid m = x := by
  cases a with
  | imm y => exact Except.ok.inj ha
  | var v =>
    rw [Operand.eval] at ha
    split at ha
    · next y hy =>
      obtain ⟨r, hr, hm⟩ := h.placed (hread v (by simp [Operand.vars])) hy
      rw [Operand.readFrom_var (hext hr), hm]
      exact Except.ok.inj ha
    · cases ha

/-- An instruction that reads nothing spent does in the machine what it does in the store. -/
theorem Simulates.effectFrom {mid : RegisterFile} {i : Instr} {e : Effect}
    (h : Simulates spent initial p f m) (hext : f.Extends mid) (hread : ∀ v ∈ i.reads, ¬ spent v)
    (he : i.effect p.store = .ok e) : i.effectFrom mid m = e := by
  cases i with
  | mov dest src =>
    obtain ⟨x, hx, he⟩ := Instr.effect_mov_eq_ok.mp he
    rw [Instr.effectFrom, h.readFrom hext hread hx, he]
  | arith op dest lhs rhs =>
    obtain ⟨x, y, hx, hy, he⟩ := Instr.effect_arith_eq_ok.mp he
    rw [Instr.effectFrom, h.readFrom hext (fun v hv => hread v (by simp [Instr.reads, hv])) hx,
      h.readFrom hext (fun v hv => hread v (by simp [Instr.reads, hv])) hy, he]
  | ret value =>
    obtain ⟨x, hx, he⟩ := Instr.effect_ret_eq_ok.mp he
    rw [Instr.effectFrom, h.readFrom hext hread hx, he]

/-! ## Step and run -/

/-- **One instruction.** If it reads nothing spent, its lines keep machine and run together. -/
theorem Simulates.lower {g g' : Generator} {i : Instr} (h : Simulates spent initial p g.registers m)
    (hlower : (Generator.lower i).run g = (.ok (), g')) (hread : ∀ v ∈ i.reads, ¬ spent v)
    (hstep : p.step i = .ok p') :
    ∃ lines, g'.lines.toList = g.lines.toList ++ lines ∧
      Simulates (spentAfter spent i) initial p' g'.registers (execLines lines m) := by
  obtain ⟨mid, lines, hl⟩ := Generator.lower_spec hlower
  obtain ⟨e, he, rfl⟩ := FullRun.step_eq_ok.mp hstep
  refine ⟨lines, hl.emitted, ?_⟩
  have hlands := hl.lands m
  rw [h.effectFrom hl.found hread he] at hlands
  cases e with
  | write d x =>
    obtain ⟨rd, hd, hputs⟩ := hlands
    have hdest : i.dest? = some d := Instr.dest?_of_effect he
    refine ⟨fun v y hv hy => ?_, hputs.answer.trans h.answer⟩
    obtain ⟨hnotspends, hunspent⟩ := not_or.mp hv
    rw [FullRun.apply, Store.get?_set] at hy
    split at hy
    · next hvd =>
      -- the destination itself: it has the new value and keeps its register
      subst hvd
      exact ⟨rd, hl.kept hd hnotspends, hputs.value.trans (Option.some.inj hy)⟩
    · next hvd =>
      have hspent : ¬ spent v := fun hs =>
        hunspent ⟨hs, fun hc => hvd (Option.some.inj (hdest.symm.trans hc)).symm⟩
      obtain ⟨r, hr, hm⟩ := h.placed hspent hy
      have hne : r ≠ rd := by
        rintro rfl
        exact hvd (RegisterFile.locate?_injective (hl.found hr) hd)
      exact ⟨r, hl.kept (hl.found hr) hnotspends, (hputs.others (hl.found hr) hne).trans hm⟩
  | finish x =>
    obtain ⟨hanswer, hothers⟩ := hlands
    refine ⟨fun v y hv hy => ?_, hanswer⟩
    obtain ⟨hnotspends, hunspent⟩ := not_or.mp hv
    have hdest : i.dest? = none := Instr.dest?_of_effect he
    have hspent : ¬ spent v := fun hs => hunspent ⟨hs, by simp [hdest]⟩
    obtain ⟨r, hr, hm⟩ := h.placed hspent hy
    exact ⟨r, hl.kept (hl.found hr) hnotspends, (hothers (hl.found hr)).trans hm⟩

/-- **A list of instructions**, by induction from the front. -/
theorem Simulates.lowerAll {g g' : Generator} {code : List Instr}
    (h : Simulates spent initial p g.registers m)
    (hlower : (Generator.lowerAll code).run g = (.ok (), g')) (hread : ReadsUnspent spent code)
    (hrun : runThrough code p = .ok p') :
    ∃ lines, g'.lines.toList = g.lines.toList ++ lines ∧
      Simulates (code.foldl spentAfter spent) initial p' g'.registers (execLines lines m) := by
  induction code generalizing spent g p m with
  | nil =>
    obtain ⟨-, rfl⟩ := Action.run_pure_eq_ok.mp hlower
    cases hrun
    exact ⟨[], by simp, h⟩
  | cons i code ih =>
    rw [Generator.lowerAll, Action.run_bind_eq_ok] at hlower
    obtain ⟨⟨⟩, g₁, hi, hrest⟩ := hlower
    obtain ⟨q, hstep, hrun⟩ := runThrough_cons_eq_ok.mp hrun
    obtain ⟨lines₁, hlines₁, h₁⟩ := h.lower hi hread.1 hstep
    obtain ⟨lines₂, hlines₂, h₂⟩ := ih h₁ hrest hread.2 hrun
    refine ⟨lines₁ ++ lines₂, by rw [hlines₂, hlines₁, List.append_assoc], ?_⟩
    rw [execLines_append]
    exact h₂

/-! ## Whole programs -/

/-- The generator when it has lowered code, or as far as it came. -/
def generatorAfter (code : List Instr) : Generator :=
  ((Generator.lowerAll code).run {}).2

theorem generate_eq_ok {code : List Instr} {asm : List AsmLine} :
    generate code = .ok asm ↔ (Generator.lowerAll code).run {} = (.ok (), generatorAfter code) ∧
      asm = (generatorAfter code).lines.toList := by
  rw [generate, generatorAfter]
  rcases h : (Generator.lowerAll code).run {} with ⟨err | ⟨⟩, g⟩
  · simp
  · simp [eq_comm]

/-- Generated assembly keeps machine and run together, from the start of the code to its end. -/
theorem simulates_generate {code : List Instr} {asm : List AsmLine}
    (hread : ReadsUnspent (fun _ => False) code) (hrun : runThrough code {} = .ok p)
    (hgen : generate code = .ok asm) (m : Machine) :
    Simulates (code.foldl spentAfter fun _ => False) (m .a0) p (generatorAfter code).registers
      (execLines asm m) := by
  obtain ⟨hlower, rfl⟩ := generate_eq_ok.mp hgen
  obtain ⟨lines, hlines, hsim⟩ := (simulates_start _ m).lowerAll hlower hread hrun
  have hasm : (generatorAfter code).lines.toList = lines := hlines
  rw [hasm]
  exact hsim

/-- **Simulation of code by assembly.** Let every read of `code` find a value that is still there.
Then `code` runs to its end, and the assembly generated for it, from any contents of the registers,
leaves in `a0` the value of the last `ret`, or what was there if there is none, and every named
variable that is written in the register that the generator has for it. -/
theorem generate_simulates_code {code : List Instr} {asm : List AsmLine} (hread : WellRead code)
    (hgen : generate code = .ok asm) :
    ∃ p : FullRun, runThrough code {} = .ok p ∧ ∀ m : Machine,
      execLines asm m .a0 = p.returned.getD (m .a0) ∧
      ∀ name, (∃ w ∈ code, w.dest? = some (.named name)) →
        ∃ r x, (generatorAfter code).registers.locate? (.named name) = some r ∧
          p.store.get? (.named name) = some x ∧ execLines asm m r = x := by
  obtain ⟨p, hrun, hvalues⟩ := hread.exists_runThrough
  refine ⟨p, hrun, fun m => ?_⟩
  have hsim := simulates_generate hread.readsUnspent hrun hgen m
  refine ⟨hsim.answer, ?_⟩
  rintro name ⟨w, hw, hdest⟩
  obtain ⟨x, hx⟩ := hvalues w hw _ hdest
  obtain ⟨r, hr, hm⟩ := hsim.placed (not_spent_named not_false code) hx
  exact ⟨r, x, hr, hx, hm⟩

/-- Code that returns two values, with numbers that fit no instruction and a temporary whose register
is freed and taken again. -/
def reuseCode : List Instr :=
  [.arith .mul (.temp 0) (.imm 5000) (.imm 3),
    .mov (.named "x") (.var (.temp 0)),
    .ret (.var (.named "x")),
    .arith .sub (.temp 0) (.imm 1) (.var (.named "x")),
    .ret (.var (.temp 0))]

theorem wellRead_reuseCode : WellRead reuseCode := by
  intro before i after h v hv
  rcases before with _ | ⟨a, _ | ⟨b, _ | ⟨c, _ | ⟨d, _ | ⟨e, before⟩⟩⟩⟩⟩ <;>
    simp only [reuseCode, List.nil_append, List.cons_append, List.cons.injEq, reduceCtorEq,
      List.nil_eq_append_iff, and_false] at h
  · obtain ⟨rfl, rfl⟩ := h
    simp [Instr.reads, Operand.vars] at hv
  · obtain ⟨rfl, rfl, rfl⟩ := h
    obtain rfl : v = .temp 0 := by simpa [Instr.reads, Operand.vars] using hv
    exact ⟨[], _, [], rfl, rfl, by simp, by simp [Instr.consumed, Instr.reads, Operand.vars]⟩
  · obtain ⟨rfl, rfl, rfl, rfl⟩ := h
    obtain rfl : v = .named "x" := by simpa [Instr.reads, Operand.vars] using hv
    exact ⟨.mov (.named "x") (.var (.temp 0)), by simp, rfl⟩
  · obtain ⟨rfl, rfl, rfl, rfl, rfl⟩ := h
    obtain rfl : v = .named "x" := by simpa [Instr.reads, Operand.vars] using hv
    exact ⟨.mov (.named "x") (.var (.temp 0)), by simp, rfl⟩
  · obtain ⟨rfl, rfl, rfl, rfl, rfl, rfl⟩ := h
    obtain rfl : v = .temp 0 := by simpa [Instr.reads, Operand.vars] using hv
    exact ⟨reuseCode.take 3, .arith .sub (.temp 0) (.imm 1) (.var (.named "x")), [], rfl, rfl,
      by simp, by simp [Instr.consumed, Instr.reads, Operand.vars]⟩

/-- The assembly of `reuseCode` leaves the second value that is returned, not the first. -/
theorem generate_simulates_reuseCode : WellRead reuseCode ∧ generate reuseCode = .ok
    [.li (.t 0) 5000, .li (.t 1) 3, .arith .mul (.t 0) (.t 0) (.t 1), .mv (.t 1) (.t 0),
      .mv .a0 (.t 1), .li (.t 2) 1, .arith .sub (.t 0) (.t 2) (.t 1), .mv .a0 (.t 0)] ∧
    ∀ m : Machine, execLines
      [.li (.t 0) 5000, .li (.t 1) 3, .arith .mul (.t 0) (.t 0) (.t 1), .mv (.t 1) (.t 0),
        .mv .a0 (.t 1), .li (.t 2) 1, .arith .sub (.t 0) (.t 2) (.t 1), .mv .a0 (.t 0)] m .a0 =
        -14999 := by
  refine ⟨wellRead_reuseCode, by cbv, fun m => ?_⟩
  obtain ⟨p, hp, h⟩ := generate_simulates_code wellRead_reuseCode (by cbv)
  have hreturned : p.returned = some (-14999) := by
    have hrun : (runThrough reuseCode {}).map FullRun.returned = .ok (some (-14999)) := by cbv
    rw [hp] at hrun
    exact Except.ok.inj hrun
  rw [(h m).1, hreturned, Option.getD_some]

end StraightLine
