import Mathlib
import StraightLine.Proofs.Occupancy
import StraightLine.Proofs.Outcome
import StraightLine.Proofs.Renaming
import StraightLine.Proofs.SourceText

/-!
# Compilation does not depend on names

Two texts may have the same tokens but for names that correspond one to one. Then they are compiled
side by side. The analysis of renamed tokens has been compared before. The generator asks whether a
variable is in a register, and running code asks which variable was written last; both only compare
variables with each other, and variables that correspond are found in the same places. So the
assembly is the same, line for line, and every error is the same but for the name in it.

The order of the names plays no part, although symbol tables are kept in order.

## Main definitions

* `Resident.Renamed`, `CodegenError.Renamed`, `EvalError.Renamed`, `CompileError.Renamed` — the same
  but for names
* `RegisterFile.Renamed`, `Generator.Renamed`, `Store.Renamed` — the same for states

## Main results

* `Generator.lowerAll_alike`, `generate_renamed` — code that is renamed has the same assembly
* `runCode_renamed` — and the same outcome
* `compile_renamed` — compiling texts that are the same but for names
-/

namespace StraightLine

variable {ρ : String → String → Prop}

/-! ## Variables and residents -/

/-- Variables correspond one to one if names do. -/
theorem Var.biUnique_renamed (hρ : Relator.BiUnique ρ) : Relator.BiUnique (Var.Renamed ρ) := by
  constructor
  · intro v w v' hv hw
    cases hv with
    | named hx =>
      cases hw with
      | named hy => rw [hρ.1 hx hy]
    | temp id =>
      cases hw
      rfl
  · intro v v' w' hv hw
    cases hv with
    | named hx =>
      cases hw with
      | named hy => rw [hρ.2 hx hy]
    | temp id =>
      cases hw
      rfl

theorem Var.Renamed.isTemp_eq {v v' : Var} (h : v.Renamed ρ v') : v'.isTemp = v.isTemp := by
  cases h <;> rfl

/-- The same resident, but for the name of a variable. -/
inductive Resident.Renamed (ρ : String → String → Prop) : Resident → Resident → Prop where
  | var {v v' : Var} (vars : v.Renamed ρ v') : Renamed ρ (.var v) (.var v')
  | scratch : Renamed ρ .scratch .scratch

/-- The same error, but for the name of the resident in it. -/
inductive CodegenError.Renamed (ρ : String → String → Prop) :
    CodegenError → CodegenError → Prop where
  | outOfRegisters {who who' : Resident} (residents : who.Renamed ρ who') :
      Renamed ρ (.outOfRegisters who) (.outOfRegisters who')

/-! ## The register file -/

namespace RegisterFile

variable {f f' : RegisterFile}

/-- The same registers are taken, by residents that are the same but for names. -/
def Renamed (ρ : String → String → Prop) (f f' : RegisterFile) : Prop :=
  ∀ r, Option.Rel (Resident.Renamed ρ) (f.resident? r) (f'.resident? r)

theorem Renamed.resident?_eq_var_iff (h : f.Renamed ρ f') (hρ : Relator.BiUnique ρ) {v v' : Var}
    (hv : v.Renamed ρ v') (r : Register) :
    f'.resident? r = some (.var v') ↔ f.resident? r = some (.var v) := by
  have hr := h r
  generalize f.resident? r = x, f'.resident? r = x' at hr
  cases hr with
  | none => simp
  | some hwho =>
    cases hwho with
    | scratch => simp
    | var hw =>
      have hsame := Relator.rel_eq (Var.biUnique_renamed hρ) hw hv
      simpa using hsame.symm

/-- Variables that correspond are in the same register. -/
theorem Renamed.locate?_eq (h : f.Renamed ρ f') (hρ : Relator.BiUnique ρ) {v v' : Var}
    (hv : v.Renamed ρ v') : f'.locate? v' = f.locate? v := by
  refine Option.ext fun r => ?_
  simp only [locate?_eq_some_iff, ne_eq, h.resident?_eq_var_iff hρ hv]

theorem Renamed.set (h : f.Renamed ρ f') (i : Fin poolSize) {x x' : Option Resident}
    (hx : Option.Rel (Resident.Renamed ρ) x x') :
    Renamed ρ ⟨f.slots.set i x i.isLt⟩ ⟨f'.slots.set i x' i.isLt⟩ := by
  intro r
  rw [resident?_set, resident?_set]
  split
  · exact hx
  · exact h r

/-- The first free register is the same. -/
theorem Renamed.findFinIdx?_eq (h : f.Renamed ρ f') :
    f'.slots.findFinIdx? Option.isNone = f.slots.findFinIdx? Option.isNone := by
  have hfree : ∀ i, (f'.slots.get i).isNone = (f.slots.get i).isNone := by
    intro i
    have hi := h (.t i)
    rw [resident?_t, resident?_t] at hi
    generalize f.slots.get i = x, f'.slots.get i = x' at hi
    cases hi <;> rfl
  refine Option.ext fun i => ?_
  simp only [findFinIdx?_vector_eq_some_iff, hfree]

theorem Renamed.allocate? (h : f.Renamed ρ f') {who who' : Resident} (hwho : who.Renamed ρ who') :
    Option.Rel (fun taken taken' => taken.1 = taken'.1 ∧ taken.2.Renamed ρ taken'.2)
      (f.allocate? who) (f'.allocate? who') := by
  rw [RegisterFile.allocate?, RegisterFile.allocate?, h.findFinIdx?_eq]
  split
  · next i hi => exact .some ⟨rfl, h.set i (.some hwho)⟩
  · exact .none

theorem Renamed.release (h : f.Renamed ρ f') (r : Register) :
    (f.release r).Renamed ρ (f'.release r) := by
  intro r'
  rw [resident?_release, resident?_release]
  split
  · exact .none
  · exact h r'

end RegisterFile

/-! ## The generator -/

namespace Generator

variable {α β : Type} {v v' : Var}

/-- The same lines, and registers that are the same but for names. -/
structure Renamed (ρ : String → String → Prop) (g g' : Generator) : Prop where
  /-- The registers. -/
  registers : g.registers.Renamed ρ g'.registers
  /-- The lines so far. -/
  lines : g.lines = g'.lines

/-- Two steps of code generation that are the same but for names. -/
abbrev Alike (ρ : String → String → Prop) (Q : α → β → Prop) (x : Lowering α) (y : Lowering β) :
    Prop :=
  Action.Alike (Generator.Renamed ρ) (CodegenError.Renamed ρ) Q x y

theorem emit_alike (l : AsmLine) : Alike ρ Eq (emit l) (emit l) := by
  refine .modify fun g g' hg => ⟨hg.registers, ?_⟩
  rw [hg.lines]

theorem allocate_alike {who who' : Resident} (hwho : who.Renamed ρ who') :
    Alike ρ Eq (allocate who) (allocate who') := by
  intro g g' hg
  have htaken := hg.registers.allocate? hwho
  rw [Action.run, Action.run, allocate, allocate, g.registers.hasFree_eq_isSome who,
    g'.registers.hasFree_eq_isSome who']
  generalize g.registers.allocate? who = taken, g'.registers.allocate? who' = taken' at htaken
  cases htaken with
  | none => exact ⟨.error (.outOfRegisters hwho), hg⟩
  | some htaken => exact ⟨.ok htaken.1, htaken.2, hg.lines⟩

theorem releaseRegister_alike (r : Register) :
    Alike ρ Eq (releaseRegister r) (releaseRegister r) :=
  .modify fun _ _ hg => ⟨hg.registers.release r, hg.lines⟩

theorem registerOf_alike (hρ : Relator.BiUnique ρ) (hv : v.Renamed ρ v') :
    Alike ρ Eq (registerOf v) (registerOf v') := by
  have hlocate : ∀ g g' : Generator, g.Renamed ρ g' →
      g.registers.locate? v = g'.registers.locate? v' :=
    fun g g' hg => (hg.registers.locate?_eq hρ hv).symm
  refine (Action.Alike.inspect hlocate).bind ?_
  rintro found _ rfl
  cases found with
  | some r => exact .pure rfl
  | none => exact allocate_alike (.var hv)

theorem releaseTemp_alike (hv : v.Renamed ρ v') (r : Register) :
    Alike ρ Eq (releaseTemp v r) (releaseTemp v' r) := by
  rw [releaseTemp, releaseTemp, hv.isTemp_eq]
  split
  · exact releaseRegister_alike r
  · exact .pure rfl

theorem throughScratch_alike (op : ArithOp) (rd rs : Register) (imm : Int32) (side : Side) :
    Alike ρ Eq (throughScratch op rd rs imm side) (throughScratch op rd rs imm side) := by
  refine (allocate_alike .scratch).bind ?_
  rintro scratch _ rfl
  refine (emit_alike _).bind fun _ _ _ => ?_
  cases side with
  | left => exact (emit_alike _).bind fun _ _ _ => releaseRegister_alike scratch
  | right => exact (emit_alike _).bind fun _ _ _ => releaseRegister_alike scratch

theorem withImmediate_alike (op : ArithOp) (rd rs : Register) (imm : Int32) (side : Side) :
    Alike ρ Eq (withImmediate op rd rs imm side) (withImmediate op rd rs imm side) := by
  rw [withImmediate]
  split
  · split
    · exact emit_alike _
    · exact throughScratch_alike op rd rs imm side
  · exact throughScratch_alike op rd rs imm side

theorem lowerArith_alike (hρ : Relator.BiUnique ρ) (op : ArithOp) {dest dest' : Var}
    {lhs lhs' rhs rhs' : Operand} (hdest : dest.Renamed ρ dest') (hlhs : lhs.Renamed ρ lhs')
    (hrhs : rhs.Renamed ρ rhs') :
    Alike ρ Eq (lowerArith op dest lhs rhs) (lowerArith op dest' lhs' rhs') := by
  cases hlhs with
  | var hl =>
    cases hrhs with
    | var hr =>
      refine (registerOf_alike hρ hl).bind ?_
      rintro rs1 _ rfl
      refine (registerOf_alike hρ hr).bind ?_
      rintro rs2 _ rfl
      refine (registerOf_alike hρ hdest).bind ?_
      rintro rd _ rfl
      refine (emit_alike _).bind fun _ _ _ => ?_
      exact (releaseTemp_alike hl rs1).bind fun _ _ _ => releaseTemp_alike hr rs2
    | imm imm =>
      refine (registerOf_alike hρ hl).bind ?_
      rintro rs _ rfl
      refine (registerOf_alike hρ hdest).bind ?_
      rintro rd _ rfl
      exact (withImmediate_alike op rd rs imm .right).bind fun _ _ _ => releaseTemp_alike hl rs
  | imm left =>
    cases hrhs with
    | var hr =>
      refine (registerOf_alike hρ hr).bind ?_
      rintro rs _ rfl
      refine (registerOf_alike hρ hdest).bind ?_
      rintro rd _ rfl
      exact (withImmediate_alike op rd rs left .left).bind fun _ _ _ => releaseTemp_alike hr rs
    | imm right =>
      refine (registerOf_alike hρ hdest).bind ?_
      rintro rd _ rfl
      exact (emit_alike _).bind fun _ _ _ => withImmediate_alike op rd rd right .right

/-- **Instructions that are the same but for names have the same lines.** -/
theorem lower_alike (hρ : Relator.BiUnique ρ) {i i' : Instr} (hi : i.Renamed ρ i') :
    Alike ρ Eq (lower i) (lower i') := by
  cases hi with
  | mov hdest hsrc =>
    cases hsrc with
    | imm imm =>
      refine (registerOf_alike hρ hdest).bind ?_
      rintro rd _ rfl
      exact emit_alike _
    | var hsrc =>
      refine (registerOf_alike hρ hsrc).bind ?_
      rintro rs _ rfl
      refine (registerOf_alike hρ hdest).bind ?_
      rintro rd _ rfl
      exact (emit_alike _).bind fun _ _ _ => releaseTemp_alike hsrc rs
  | arith op hdest hlhs hrhs => exact lowerArith_alike hρ op hdest hlhs hrhs
  | ret hvalue =>
    cases hvalue with
    | imm imm => exact emit_alike _
    | var hv =>
      refine (registerOf_alike hρ hv).bind ?_
      rintro rs _ rfl
      exact emit_alike _

theorem lowerAll_alike (hρ : Relator.BiUnique ρ) {code code' : List Instr}
    (h : List.Forall₂ (Instr.Renamed ρ) code code') :
    Alike ρ Eq (lowerAll code) (lowerAll code') := by
  induction h with
  | nil => exact .pure rfl
  | cons hi _ ih => exact (lower_alike hρ hi).bind fun _ _ _ => ih

end Generator

/-- Code that is the same but for names has the same assembly, or fails alike. -/
theorem generate_renamed (hρ : Relator.BiUnique ρ) {code code' : List Instr}
    (h : List.Forall₂ (Instr.Renamed ρ) code code') :
    BothEnd (CodegenError.Renamed ρ) Eq (generate code) (generate code') := by
  have hfree : RegisterFile.empty.Renamed ρ .empty := by
    intro r
    rw [RegisterFile.resident?_empty]
    exact .none
  obtain ⟨hend, hstates⟩ := Generator.lowerAll_alike hρ h (s := {}) (t := {}) ⟨hfree, rfl⟩
  rw [generate, generate]
  generalize (Generator.lowerAll code).run {} = x, (Generator.lowerAll code').run {} = x'
    at hend hstates
  obtain ⟨result, g⟩ := x
  obtain ⟨result', g'⟩ := x'
  cases hend with
  | ok _ => exact .ok (by rw [hstates.lines])
  | error he => exact .error he

/-! ## Running code -/

/-- The same error, but for the name of the variable in it. -/
inductive EvalError.Renamed (ρ : String → String → Prop) : EvalError → EvalError → Prop where
  | uninitialized {v v' : Var} (vars : v.Renamed ρ v') :
      Renamed ρ (.uninitialized v) (.uninitialized v')

/-- The same effect, but for the name of the variable that is written. -/
inductive Effect.Renamed (ρ : String → String → Prop) : Effect → Effect → Prop where
  | write {dest dest' : Var} (dests : dest.Renamed ρ dest') (value : Int32) :
      Renamed ρ (.write dest value) (.write dest' value)
  | finish (value : Int32) : Renamed ρ (.finish value) (.finish value)

/-- Variables that correspond have the same value. -/
def Store.Renamed (ρ : String → String → Prop) (s s' : Store) : Prop :=
  ∀ v v', Var.Renamed ρ v v' → s'.get? v' = s.get? v

section Run

variable {s s' : Store}

theorem Store.Renamed.set (h : s.Renamed ρ s') (hρ : Relator.BiUnique ρ) {v v' : Var}
    (hv : v.Renamed ρ v') (value : Int32) : (s.set v value).Renamed ρ (s'.set v' value) := by
  intro w w' hw
  have hsame : w = v ↔ w' = v' := Relator.rel_eq (Var.biUnique_renamed hρ) hw hv
  rw [Store.get?_set, Store.get?_set, h w w' hw]
  by_cases hwv : w = v
  · rw [if_pos hwv, if_pos (hsame.mp hwv)]
  · rw [if_neg hwv, if_neg (mt hsame.mpr hwv)]

theorem Operand.eval_renamed (hs : s.Renamed ρ s') {o o' : Operand} (ho : o.Renamed ρ o') :
    BothEnd (EvalError.Renamed ρ) Eq (o.eval s) (o'.eval s') := by
  cases ho with
  | imm value => exact .ok rfl
  | @var v v' hv =>
    rw [Operand.eval, Operand.eval, hs v v' hv]
    cases s.get? v with
    | some value => exact .ok rfl
    | none => exact .error (.uninitialized hv)

theorem Instr.effect_renamed (hs : s.Renamed ρ s') {i i' : Instr} (hi : i.Renamed ρ i') :
    BothEnd (EvalError.Renamed ρ) (Effect.Renamed ρ) (i.effect s) (i'.effect s') := by
  cases hi with
  | mov hdest hsrc =>
    refine (Operand.eval_renamed hs hsrc).bind ?_
    rintro value _ rfl
    exact .ok (.write hdest value)
  | arith op hdest hlhs hrhs =>
    refine (Operand.eval_renamed hs hlhs).bind ?_
    rintro x _ rfl
    refine (Operand.eval_renamed hs hrhs).bind ?_
    rintro y _ rfl
    exact .ok (.write hdest (op.apply x y))
  | ret hvalue =>
    refine (Operand.eval_renamed hs hvalue).bind ?_
    rintro value _ rfl
    exact .ok (.finish value)

/-- **Code that is the same but for names ends alike**, with the same value or at the same
variable. -/
theorem runCode_renamed (hρ : Relator.BiUnique ρ) {code code' : List Instr}
    (h : List.Forall₂ (Instr.Renamed ρ) code code') (hs : s.Renamed ρ s') :
    BothEnd (EvalError.Renamed ρ) Eq (runCode code s).result (runCode code' s').result := by
  induction h generalizing s s' with
  | nil => exact .ok rfl
  | @cons i i' code code' hi _ ih =>
    have heffect := Instr.effect_renamed hs hi
    rw [runCode, runCode]
    generalize i.effect s = x, i'.effect s' = x' at heffect
    cases heffect with
    | error he => exact .error he
    | ok he =>
      cases he with
      | finish value => exact .ok rfl
      | write hdest value => exact ih (hs.set hρ hdest value)

end Run

/-! ## Compiling -/

/-- The same error, but for the name in it. -/
inductive CompileError.Renamed (ρ : String → String → Prop) :
    CompileError → CompileError → Prop where
  | lexical (e : LexError) : Renamed ρ (.lexical e) (.lexical e)
  | grammatical {e e' : ParseError SemanticError}
      (errors : e.Renamed ρ (SemanticError.Renamed ρ) e') :
      Renamed ρ (.grammatical e) (.grammatical e')
  | semantic {e e' : SemanticError} (errors : e.Renamed ρ e') :
      Renamed ρ (.semantic e) (.semantic e')
  | codegen {e e' : CodegenError} (errors : e.Renamed ρ e') : Renamed ρ (.codegen e) (.codegen e')

theorem CompileError.renamed_ofParse (e e' : ParseError SemanticError)
    (h : e.Renamed ρ (SemanticError.Renamed ρ) e') :
    CompileError.Renamed ρ (.ofParse e) (.ofParse e') := by
  cases h with
  | unexpectedToken expected htoken => exact .grammatical (.unexpectedToken expected htoken)
  | unexpectedEnd => exact .grammatical .unexpectedEnd
  | action he => exact .semantic he

theorem Token.Renamed.eq_ident_iff {t t' : Token} {x y : String} (h : t.Renamed ρ t')
    (hρ : Relator.BiUnique ρ) (hxy : ρ x y) : t = .ident x ↔ t' = .ident y := by
  cases h with
  | ident hnames => simpa using Relator.rel_eq hρ hnames hxy
  | same hunnamed => exact iff_of_false (hunnamed x) (hunnamed y)

/-- The tables of renamed texts have the same entries for names that correspond. -/
theorem tokenize_renamed (hρ : Relator.BiUnique ρ) {source source' : String}
    {ts ts' : List Token} (hlex : (tokenize source .empty).1 = .ok ts)
    (hlex' : (tokenize source' .empty).1 = .ok ts')
    (hts : List.Forall₂ (Token.Renamed ρ) ts ts') :
    (tokenize source .empty).2.Renamed ρ (tokenize source' .empty).2 := by
  intro x y hxy
  have hmem : .ident x ∈ ts ↔ .ident y ∈ ts' := by
    clear hlex hlex'
    induction hts with
    | nil => simp
    | cons htoken _ ih =>
      simp only [List.mem_cons, ih, eq_comm (a := Token.ident _), htoken.eq_ident_iff hρ hxy]
  rw [find?_tokenize hlex, find?_tokenize hlex']
  simp only [hmem]
  rfl

/-- Compiling a text whose tokens are known. -/
theorem compile_of_tokenize {source : String} {ts : List Token}
    (h : (tokenize source .empty).1 = .ok ts) :
    compile source = (do
      (analyse ts (tokenize source .empty).2).1.mapError .ofParse
      let assembly ← (generate (analyse ts (tokenize source .empty).2).2.code.toList).mapError
        .codegen
      return {
        tokens := ts
        scannedSymbols := (tokenize source .empty).2
        symbols := (analyse ts (tokenize source .empty).2).2.symbols
        code := (analyse ts (tokenize source .empty).2).2.code.toList
        assembly }) := by
  rw [compile_eq, h]
  rfl

/-- What compilations of renamed texts have in common. -/
structure Compilation.Renamed (ρ : String → String → Prop) (c c' : Compilation) : Prop where
  /-- The assembly is the same. -/
  assembly : c'.assembly = c.assembly
  /-- The code is the same but for names. -/
  code : List.Forall₂ (Instr.Renamed ρ) c.code c'.code
  /-- Names that correspond have the same type. -/
  symbols : c.symbols.Renamed ρ c'.symbols

theorem compile_bothEnd (hρ : Relator.BiUnique ρ) {source source' : String} {ts ts' : List Token}
    (hlex : (tokenize source .empty).1 = .ok ts) (hlex' : (tokenize source' .empty).1 = .ok ts')
    (hts : List.Forall₂ (Token.Renamed ρ) ts ts') :
    BothEnd (CompileError.Renamed ρ) (Compilation.Renamed ρ) (compile source)
      (compile source') := by
  obtain ⟨hparse, ha⟩ := analyse_renamed hρ hts (tokenize_renamed hρ hlex hlex' hts)
  rw [compile_of_tokenize hlex, compile_of_tokenize hlex']
  refine (hparse.mapError CompileError.renamed_ofParse).bind fun _ _ _ => ?_
  refine ((generate_renamed hρ ha.code).mapError fun _ _ => .codegen).bind ?_
  rintro assembly _ rfl
  exact .ok ⟨rfl, ha.code, ha.symbols⟩

/-- **Compiling does not depend on names.** Let the tokens of two texts be the same but for names
that `ρ` relates one to one, as a function does that is injective on the names of the first. Both
texts are compiled or neither is. If they are, the assembly is the same, the code is the same but
for names, and it ends with the same value or at variables that correspond. If they are not, the
errors are the same but for the name in them. -/
theorem compile_renamed {ρ : String → String → Prop} (hρ : Relator.BiUnique ρ)
    {source source' : String} {ts ts' : List Token}
    (hlex : (tokenize source .empty).1 = .ok ts) (hlex' : (tokenize source' .empty).1 = .ok ts')
    (hts : List.Forall₂ (Token.Renamed ρ) ts ts') :
    ((∃ c, compile source = .ok c) ↔ ∃ c', compile source' = .ok c') ∧
    (∀ c c', compile source = .ok c → compile source' = .ok c' →
      c'.assembly = c.assembly ∧ List.Forall₂ (Instr.Renamed ρ) c.code c'.code ∧
        c.symbols.Renamed ρ c'.symbols ∧
        BothEnd (EvalError.Renamed ρ) Eq c.evaluate.result c'.evaluate.result) ∧
    ∀ e e', compile source = .error e → compile source' = .error e' → e.Renamed ρ e' := by
  have hboth := compile_bothEnd hρ hlex hlex' hts
  generalize compile source = x, compile source' = x' at hboth
  cases hboth with
  | error he =>
    refine ⟨by simp, fun _ _ h => (by cases h), fun _ _ h h' => ?_⟩
    cases h
    cases h'
    exact he
  | ok hc =>
    refine ⟨by simp, fun _ _ h h' => ?_, fun _ _ h => (by cases h)⟩
    cases h
    cases h'
    have hempty : ({} : Store).Renamed ρ {} := fun _ _ _ => rfl
    exact ⟨hc.assembly, hc.code, hc.symbols, runCode_renamed hρ hc.code hempty⟩

/-- Two names and two others, which stand in another order. -/
def crossedNames (x y : String) : Prop :=
  (x, y) ∈ [("x", "b"), ("y", "a")]

theorem compile_renamed_crossedNames :
    Relator.BiUnique crossedNames ∧
    ∃ c c', compile "x = 1; return x * y;" = .ok c ∧ compile "b = 1; return b * a;" = .ok c' ∧
      c'.assembly = c.assembly ∧ c.evaluate.result = .error (.uninitialized (.named "y")) ∧
      c'.evaluate.result = .error (.uninitialized (.named "a")) := by
  have hone : Relator.BiUnique crossedNames := by
    constructor
    · intro x y z hx hy
      simp only [crossedNames, List.mem_cons, Prod.mk.injEq, List.not_mem_nil, or_false] at hx hy
      grind
    · intro x y z hy hz
      simp only [crossedNames, List.mem_cons, Prod.mk.injEq, List.not_mem_nil, or_false] at hy hz
      grind
  have hlex : (tokenize "x = 1; return x * y;" .empty).1 = .ok [.ident "x", .assign, .literal "1",
      .semicolon, .keyword .ret, .ident "x", .times, .ident "y", .semicolon, .eof] := by
    decide +kernel
  have hlex' : (tokenize "b = 1; return b * a;" .empty).1 = .ok [.ident "b", .assign, .literal "1",
      .semicolon, .keyword .ret, .ident "b", .times, .ident "a", .semicolon, .eof] := by
    decide +kernel
  have hts : List.Forall₂ (Token.Renamed crossedNames)
      [.ident "x", .assign, .literal "1", .semicolon, .keyword .ret, .ident "x", .times, .ident "y",
        .semicolon, .eof]
      [.ident "b", .assign, .literal "1", .semicolon, .keyword .ret, .ident "b", .times, .ident "a",
        .semicolon, .eof] := by
    have hx : crossedNames "x" "b" := List.mem_cons_self ..
    have hy : crossedNames "y" "a" := List.mem_cons_of_mem _ (List.mem_cons_self ..)
    exact .cons (.ident hx) (.cons (.same nofun) (.cons (.same nofun) (.cons (.same nofun)
      (.cons (.same nofun) (.cons (.ident hx) (.cons (.same nofun) (.cons (.ident hy)
        (.cons (.same nofun) (.cons (.same nofun) .nil)))))))))
  obtain ⟨hiff, hok, -⟩ := compile_renamed hone hlex hlex' hts
  have hcode : (compile "x = 1; return x * y;").map Compilation.code =
      .ok [.mov (.named "x") (.imm 1),
        .arith .mul (.temp 0) (.var (.named "x")) (.var (.named "y")), .ret (.var (.temp 0))] := by
    decide +kernel
  obtain ⟨c, hc⟩ : ∃ c, compile "x = 1; return x * y;" = .ok c := by
    rcases hcompile : compile "x = 1; return x * y;" with err | c
    · rw [hcompile] at hcode
      cases hcode
    · exact ⟨c, rfl⟩
  obtain ⟨c', hc'⟩ := hiff.mp ⟨c, hc⟩
  obtain ⟨hassembly, -, -, hresult⟩ := hok c c' hc hc'
  have hvalue : c.evaluate.result = .error (.uninitialized (.named "y")) := by
    rw [hc] at hcode
    rw [Compilation.evaluate, Except.ok.inj hcode]
    rfl
  refine ⟨hone, c, c', hc, hc', hassembly, hvalue, ?_⟩
  rw [hvalue] at hresult
  generalize c'.evaluate.result = x' at hresult
  cases hresult with
  | error he =>
    cases he with
    | uninitialized hv =>
      cases hv with
      | named hy =>
        rw [hone.2 hy (List.mem_cons_of_mem _ (List.mem_cons_self ..))]

end StraightLine
