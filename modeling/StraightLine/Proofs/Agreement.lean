import StraightLine.Proofs.Preservation
import StraightLine.Proofs.SingleUse

/-!
# Running a program and executing its assembly

A program can be run as code, and then it ends at its first `return`, or as assembly, and then it is
executed to the end of the list: there is no line that ends a program. So the two agree up to the
first `return` and no further. Where the lines of the first `return` end, its value is in `a0`. If
another `return` follows, its lines overwrite `a0`, although the program never gets there.

## Main results

* `exists_split_of_returns` — code that returns, cut behind its first `ret`
* `Generator.lowerAll_emits` — lines of anything but `ret` leave `a0` alone
* `compile_eq_ok` — what a successful compilation consists of
* `assembly_returns_iff` — exactly when the assembly of a source ends with the value of its code
-/

namespace StraightLine

/-- Whether an instruction ends the code. -/
def Instr.isRet : Instr → Bool
  | .ret _ => true
  | _ => false

/-! ## Code up to its first `ret` -/

/-- Code that returns a value has a first `ret`, and the run that goes up to it and no further
records that value. -/
theorem exists_split_of_returns {code : List Instr} {p : FullRun} {v : Int32}
    (h : (runCode code p.store).result = .ok (some v)) :
    ∃ front value back, code = front ++ .ret value :: back ∧ (∀ i ∈ front, i.isRet = false) ∧
      ∃ q, runThrough (front ++ [.ret value]) p = .ok q ∧ q.returned = some v := by
  induction code generalizing p with
  | nil => cases h
  | cons i code ih =>
    rw [runCode] at h
    split at h
    · cases h
    · next x heffect =>
      -- an instruction that finishes is a `ret`
      cases i with
      | ret value =>
        refine ⟨[], value, code, rfl, by simp, p.apply (.finish x), ?_, Except.ok.inj h⟩
        exact runThrough_cons_eq_ok.mpr
          ⟨_, FullRun.step_eq_ok.mpr ⟨_, heffect, rfl⟩, rfl⟩
      | mov dest src =>
        obtain ⟨y, -, hy⟩ := Instr.effect_mov_eq_ok.mp heffect
        cases hy
      | arith op dest lhs rhs =>
        obtain ⟨y, z, -, -, hy⟩ := Instr.effect_arith_eq_ok.mp heffect
        cases hy
    · next dest x heffect =>
      obtain ⟨front, value, back, rfl, hfront, q, hq, hreturned⟩ :=
        ih (p := p.apply (.write dest x)) h
      have hi : i.isRet = false := by
        cases i with
        | ret value =>
          obtain ⟨y, -, hy⟩ := Instr.effect_ret_eq_ok.mp heffect
          cases hy
        | _ => rfl
      refine ⟨i :: front, value, back, rfl, List.forall_mem_cons.mpr ⟨hi, hfront⟩, q, ?_, hreturned⟩
      exact runThrough_cons_eq_ok.mpr ⟨_, FullRun.step_eq_ok.mpr ⟨_, heffect, rfl⟩, hq⟩

/-! ## Lowering piece by piece -/

namespace Generator

/-- Code is lowered piece by piece. -/
theorem run_lowerAll_append_eq_ok {front back : List Instr} {g g' : Generator} :
    (lowerAll (front ++ back)).run g = (.ok (), g') ↔
      ∃ mid, (lowerAll front).run g = (.ok (), mid) ∧ (lowerAll back).run mid = (.ok (), g') := by
  induction front generalizing g with
  | nil =>
    constructor
    · intro h
      exact ⟨g, rfl, h⟩
    · rintro ⟨mid, hmid, h⟩
      obtain ⟨-, rfl⟩ := Action.run_pure_eq_ok.mp hmid
      exact h
  | cons i front ih =>
    rw [List.cons_append, lowerAll, lowerAll, Action.run_bind_eq_ok]
    constructor
    · rintro ⟨⟨⟩, g₁, hi, hrest⟩
      obtain ⟨mid, hfront, hback⟩ := ih.mp hrest
      exact ⟨mid, Action.run_bind_eq_ok.mpr ⟨(), g₁, hi, hfront⟩, hback⟩
    · rintro ⟨mid, hfirst, hback⟩
      obtain ⟨⟨⟩, g₁, hi, hfront⟩ := Action.run_bind_eq_ok.mp hfirst
      exact ⟨(), g₁, hi, ih.mpr ⟨mid, hfront, hback⟩⟩

/-- The lines of an instruction stand behind those that were there, and leave `a0` alone unless the
instruction is a `ret`. -/
theorem lower_emits {i : Instr} {g g' : Generator} (h : (lower i).run g = (.ok (), g')) :
    ∃ lines, g'.lines.toList = g.lines.toList ++ lines ∧
      (i.isRet = false → ∀ m, execLines lines m .a0 = m .a0) := by
  obtain ⟨mid, lines, hl⟩ := lower_spec h
  refine ⟨lines, hl.emitted, fun hi m => ?_⟩
  have hlands := hl.lands m
  cases i with
  | ret value => cases hi
  | mov dest src =>
    obtain ⟨rd, -, hputs⟩ := hlands
    exact hputs.answer
  | arith op dest lhs rhs =>
    obtain ⟨rd, -, hputs⟩ := hlands
    exact hputs.answer

/-- The same for code, which leaves `a0` alone unless there is a `ret` in it. -/
theorem lowerAll_emits {code : List Instr} {g g' : Generator}
    (h : (lowerAll code).run g = (.ok (), g')) :
    ∃ lines, g'.lines.toList = g.lines.toList ++ lines ∧
      ((∀ i ∈ code, i.isRet = false) → ∀ m, execLines lines m .a0 = m .a0) := by
  induction code generalizing g with
  | nil =>
    obtain ⟨-, rfl⟩ := Action.run_pure_eq_ok.mp h
    exact ⟨[], by simp, fun _ m => rfl⟩
  | cons i code ih =>
    obtain ⟨⟨⟩, g₁, hi, hrest⟩ := Action.run_bind_eq_ok.mp h
    obtain ⟨lines₁, hlines₁, hkeep₁⟩ := lower_emits hi
    obtain ⟨lines₂, hlines₂, hkeep₂⟩ := ih hrest
    refine ⟨lines₁ ++ lines₂, by rw [hlines₂, hlines₁, List.append_assoc], fun hret m => ?_⟩
    obtain ⟨hiret, hcode⟩ := List.forall_mem_cons.mp hret
    rw [execLines_append, hkeep₂ hcode, hkeep₁ hiret]

end Generator

/-- The assembly of code is that of its front part and more lines, which leave `a0` alone unless
there is a `ret` in the back part. -/
theorem generate_append_eq_ok {front back : List Instr} {asm : List AsmLine}
    (h : generate (front ++ back) = .ok asm) :
    ∃ asm₁ asm₂, generate front = .ok asm₁ ∧ asm = asm₁ ++ asm₂ ∧
      ((∀ i ∈ back, i.isRet = false) → ∀ m, execLines asm₂ m .a0 = m .a0) := by
  obtain ⟨hlower, rfl⟩ := generate_eq_ok.mp h
  obtain ⟨mid, hfront, hback⟩ := Generator.run_lowerAll_append_eq_ok.mp hlower
  obtain ⟨lines, hlines, hkeep⟩ := Generator.lowerAll_emits hback
  have hmid : generatorAfter front = mid := congrArg Prod.snd hfront
  refine ⟨mid.lines.toList, lines, ?_, hlines, hkeep⟩
  rw [generate_eq_ok, hmid]
  exact ⟨hfront, rfl⟩

/-! ## Compilations -/

/-- A compilation that succeeds has the tokens of the source, the code of their analysis, and the
assembly of that code. -/
theorem compile_eq_ok {source : String} {c : Compilation} (h : compile source = .ok c) :
    tokenize source .empty = (.ok c.tokens, c.scannedSymbols) ∧
      (∃ a, analyse c.tokens c.scannedSymbols = (.ok (), a) ∧ c.code = a.code.toList) ∧
      generate c.code = .ok c.assembly := by
  obtain ⟨log, hrun⟩ : ∃ log, (compileLogged source).run #[] = (.ok c, log) :=
    ⟨_, Prod.fst_eq_iff.mp h⟩
  obtain ⟨⟨⟩, _, -, hrun⟩ := Action.run_bind_eq_ok.mp hrun
  obtain ⟨tokens, _, hlex, hrun⟩ := Action.run_bind_eq_ok.mp hrun
  obtain ⟨⟨⟩, _, -, hrun⟩ := Action.run_bind_eq_ok.mp hrun
  obtain ⟨⟨⟩, _, -, hrun⟩ := Action.run_bind_eq_ok.mp hrun
  obtain ⟨⟨⟩, _, hparse, hrun⟩ := Action.run_bind_eq_ok.mp hrun
  obtain ⟨⟨⟩, _, -, hrun⟩ := Action.run_bind_eq_ok.mp hrun
  obtain ⟨⟨⟩, _, -, hrun⟩ := Action.run_bind_eq_ok.mp hrun
  obtain ⟨⟨⟩, _, hlower, hrun⟩ := Action.run_bind_eq_ok.mp hrun
  obtain ⟨⟨⟩, _, -, hrun⟩ := Action.run_bind_eq_ok.mp hrun
  obtain ⟨hlex, -⟩ := Action.run_ofExcept_mapError_eq_ok.mp hlex
  obtain ⟨hparse, -⟩ := Action.run_ofExcept_mapError_eq_ok.mp hparse
  obtain ⟨hlower, -⟩ := Action.run_ofExcept_mapError_eq_ok.mp hlower
  obtain ⟨rfl, -⟩ := Action.run_pure_eq_ok.mp hrun
  refine ⟨Prod.ext hlex rfl, ⟨_, Prod.fst_eq_iff.mp hparse, rfl⟩, ?_⟩
  exact generate_eq_ok.mpr ⟨Prod.fst_eq_iff.mp hlower, rfl⟩

/-! ## The value in `a0` -/

/-- The assembly of code that is run to its end leaves a given value in `a0`, whatever was there,
exactly when this is the value of the last `ret`. -/
theorem answer_iff {code : List Instr} {asm : List AsmLine} {q : FullRun} {v : Int32}
    (hread : ReadsUnspent (fun _ => False) code) (hgen : generate code = .ok asm)
    (hrun : runThrough code {} = .ok q) :
    (∀ m, execLines asm m .a0 = v) ↔ q.returned = some v := by
  have hanswer := fun m => (simulates_generate hread hrun hgen m).answer
  constructor
  · intro h
    cases hq : q.returned with
    | some x =>
      have hx := (hanswer fun _ => 0).symm.trans (h fun _ => 0)
      rw [hq] at hx
      exact congrArg some hx
    | none =>
      -- without a `ret`, `a0` has what it had, and that may be anything
      have hx := (hanswer fun _ => v + 1).symm.trans (h fun _ => v + 1)
      rw [hq] at hx
      have hne : v + 1 ≠ v := by simp
      exact absurd hx hne
  · intro h m
    rw [hanswer m, h, Option.getD_some]

/-- **When the assembly of a source ends with the value of its code.** Let running the code of a
source return `v`. Where the lines of the code up to the first `ret` end, `v` is in `a0`, and it
stays there if no other `ret` follows. In general the assembly goes on: if the code can be run to
its end, the assembly ends with `v` in `a0` exactly when the last `ret` gives `v`, too. -/
theorem assembly_returns_iff {source : String} {c : Compilation} {v : Int32}
    (hcompile : compile source = .ok c) (hvalue : c.evaluate.result = .ok (some v))
    (hoperators : c.tokens.countP Token.isOperator ≤ 2 ^ 32) :
    (∃ front value back asm₁ asm₂, c.code = front ++ .ret value :: back ∧
      (∀ i ∈ front, i.isRet = false) ∧ generate (front ++ [.ret value]) = .ok asm₁ ∧
      c.assembly = asm₁ ++ asm₂ ∧ (∀ m, execLines asm₁ m .a0 = v) ∧
      ((∀ i ∈ back, i.isRet = false) → ∀ m, execLines c.assembly m .a0 = v)) ∧
    ∀ q, runThrough c.code {} = .ok q →
      ((∀ m, execLines c.assembly m .a0 = v) ↔ q.returned = some v) := by
  obtain ⟨hlex, ⟨a, hparse, hcode⟩, hgen⟩ := compile_eq_ok hcompile
  obtain ⟨p, hp⟩ := exists_program_of_source hlex hparse
  rw [hp] at hparse hoperators
  have hread : ReadsUnspent (fun _ => False) c.code := by
    rw [hcode, (p.code_of_analyse hparse).2]
    refine p.readsUnspent_code (le_trans ?_ hoperators)
    rw [List.countP_append]
    omega
  refine ⟨?_, fun q hq => answer_iff hread hgen hq⟩
  obtain ⟨front, value, back, hsplit, hfront, q, hq, hreturned⟩ :=
    exists_split_of_returns (p := {}) hvalue
  have hcut : c.code = (front ++ [.ret value]) ++ back := by
    rw [hsplit, List.append_assoc, List.singleton_append]
  rw [hcut] at hread hgen
  obtain ⟨asm₁, asm₂, hgen₁, hasm, hkeep⟩ := generate_append_eq_ok hgen
  have hanswer := (answer_iff (readsUnspent_append.mp hread).1 hgen₁ hq).mpr hreturned
  refine ⟨front, value, back, asm₁, asm₂, hsplit, hfront, hgen₁, hasm, hanswer, fun hback m => ?_⟩
  rw [hasm, execLines_append, hkeep hback, hanswer]

/-- A source with two returns: the code returns 1, and the assembly does not end with 1 in `a0`. -/
theorem assembly_of_two_returns :
    ∃ c, compile "return 1; return 2;" = .ok c ∧ c.evaluate.result = .ok (some 1) ∧
      c.tokens.countP Token.isOperator ≤ 2 ^ 32 ∧ ¬ ∀ m, execLines c.assembly m .a0 = 1 := by
  have hparts : (compile "return 1; return 2;").map (fun c => (c.code, c.tokens)) =
      .ok ([.ret (.imm 1), .ret (.imm 2)], [.keyword .ret, .literal "1", .semicolon,
        .keyword .ret, .literal "2", .semicolon, .eof]) := by
    decide +kernel
  rcases hcompile : compile "return 1; return 2;" with err | c
  · rw [hcompile] at hparts
    cases hparts
  rw [hcompile] at hparts
  obtain ⟨hcode, htokens⟩ := Prod.mk.inj (Except.ok.inj hparts)
  have hvalue : c.evaluate.result = .ok (some 1) := by
    rw [Compilation.evaluate, hcode]
    rfl
  have hoperators : c.tokens.countP Token.isOperator ≤ 2 ^ 32 := by
    rw [htokens]
    decide
  have hrun : runThrough c.code {} = .ok ⟨{}, some 2⟩ := by
    rw [hcode]
    rfl
  refine ⟨c, rfl, hvalue, hoperators, fun hall => ?_⟩
  have hreturned := ((assembly_returns_iff hcompile hvalue hoperators).2 _ hrun).mp hall
  simp at hreturned

end StraightLine
