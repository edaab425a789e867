import StraightLine.Assembly.Generator
import StraightLine.Proofs.Action
import StraightLine.Proofs.Machine
import StraightLine.Proofs.RegisterFile

/-!
# What the lines of one instruction do

Lowering an instruction finds registers for its operands and its destination, emits lines, and frees
the registers of the temporaries it has read. In between there is a file of registers, `mid` below,
in which every variable of the instruction has its place and everybody who had one before has kept
it. The lines are correct with respect to that file: they compute the value of the instruction from
the registers that `mid` gives to the operands, put it into the register that `mid` gives to the
destination, and change no other register that `mid` gives to anybody.

This is everything that later proofs need to know about an instruction. It is said once, in
`lower_spec`, so that no other proof looks at the shapes of operands or the range of immediates.

## Main definitions

* `RegisterFile.Extends` — a file in which everybody has kept their register
* `Operand.readFrom`, `Instr.effectFrom` — operands and instructions evaluated in the machine
* `Lands` — the machine after an effect, as far as a register file can tell

## Main results

* `Generator.run_withImmediate` — an operator with a number, with or without a scratch register
* `Generator.lower_spec` — the lines of one instruction
-/

namespace StraightLine

/-! ## Registers and effects -/

/-- Everybody who had a register in `f` has the same one in `f'`. -/
def RegisterFile.Extends (f f' : RegisterFile) : Prop :=
  ∀ ⦃w r⦄, f.locate? w = some r → f'.locate? w = some r

theorem RegisterFile.Extends.refl (f : RegisterFile) : f.Extends f :=
  fun _ _ h => h

theorem RegisterFile.Extends.trans {f g h : RegisterFile} (hfg : f.Extends g) (hgh : g.Extends h) :
    f.Extends h :=
  fun _ _ hw => hgh (hfg hw)

/-- The value of an operand, read from the register of its variable. A variable without a register
reads as zero. -/
def Operand.readFrom (f : RegisterFile) (m : Machine) : Operand → Int32
  | .imm value => value
  | .var v => ((f.locate? v).map m).getD 0

theorem Operand.readFrom_var {f : RegisterFile} {v : Var} {r : Register}
    (h : f.locate? v = some r) (m : Machine) : (Operand.var v).readFrom f m = m r := by
  simp [readFrom, h]

/-- What an instruction does, its operands read from registers. -/
def Instr.effectFrom (f : RegisterFile) (m : Machine) : Instr → Effect
  | .mov dest src => .write dest (src.readFrom f m)
  | .arith op dest lhs rhs => .write dest (op.apply (lhs.readFrom f m) (rhs.readFrom f m))
  | .ret value => .finish (value.readFrom f m)

/-- `m'` is `m` with `x` in register `rd`, as far as the file `f` and the return value can tell. The
registers that are nobody's in `f` are unconstrained, since a number may have passed through one. -/
structure Puts (f : RegisterFile) (rd : Register) (x : Int32) (m m' : Machine) : Prop where
  /-- The register has the number. -/
  value : m' rd = x
  /-- The return value is as it was. -/
  answer : m' .a0 = m .a0
  /-- The other registers of the file are as they were. -/
  others : ∀ ⦃w r⦄, f.locate? w = some r → r ≠ rd → m' r = m r

/-- `m'` is `m` after an effect, as far as the file `f` and the return value can tell. -/
def Lands (f : RegisterFile) (m m' : Machine) : Effect → Prop
  | .write dest x => ∃ rd, f.locate? dest = some rd ∧ Puts f rd x m m'
  | .finish x => m' .a0 = x ∧ ∀ ⦃w r⦄, f.locate? w = some r → m' r = m r

/-- One line that writes a register of the file. -/
theorem puts_update {f : RegisterFile} {v : Var} {rd : Register} (h : f.locate? v = some rd)
    (x : Int32) (m : Machine) : Puts f rd x m (Function.update m rd x) where
  value := Function.update_self ..
  answer := Function.update_of_ne (RegisterFile.locate?_ne_a0 h).symm ..
  others _ _ _ hne := Function.update_of_ne hne ..

/-- One line that writes the return value. -/
theorem lands_update_a0 (f : RegisterFile) (x : Int32) (m : Machine) :
    Lands f m (Function.update m .a0 x) (.finish x) :=
  ⟨Function.update_self .., fun _ _ h =>
    Function.update_of_ne (RegisterFile.locate?_ne_a0 h) ..⟩

namespace Generator

variable {g g' : Generator} {r : Register} {v : Var}

/-! ## One spec for each primitive -/

theorem run_emit {l : AsmLine} (h : (emit l).run g = (.ok (), g')) :
    g'.registers = g.registers ∧ g'.lines.toList = g.lines.toList ++ [l] := by
  obtain rfl := Action.run_modify_eq_ok.mp h
  simp

theorem run_allocate {who : Resident} (h : (allocate who).run g = (.ok r, g')) :
    g.registers.allocate? who = some (r, g'.registers) ∧ g'.lines = g.lines := by
  simp only [Action.run, allocate] at h
  split at h
  · split at h
    · next r' file hfile =>
      cases h
      exact ⟨hfile, rfl⟩
    · cases h
  · cases h

theorem run_releaseRegister (h : (releaseRegister r).run g = (.ok (), g')) :
    g'.registers = g.registers.release r ∧ g'.lines = g.lines := by
  obtain rfl := Action.run_modify_eq_ok.mp h
  exact ⟨rfl, rfl⟩

/-- Finding a register for a variable moves nobody and emits nothing. -/
theorem run_registerOf (h : (registerOf v).run g = (.ok r, g')) :
    g'.lines = g.lines ∧ g.registers.Extends g'.registers ∧
      g'.registers.locate? v = some r := by
  rw [registerOf, Action.run_bind_eq_ok] at h
  obtain ⟨found, t, hfound, h⟩ := h
  obtain ⟨rfl, rfl⟩ := Action.run_inspect_eq_ok.mp hfound
  split at h
  · next r' hr' =>
    obtain ⟨rfl, rfl⟩ := Action.run_pure_eq_ok.mp h
    exact ⟨rfl, RegisterFile.Extends.refl _, hr'⟩
  · next hnone =>
    obtain ⟨halloc, hlines⟩ := run_allocate h
    refine ⟨hlines, fun w r' hw => ?_, RegisterFile.locate?_allocate?_self halloc hnone⟩
    -- the variable that gets the register is not `w`, which has one
    have hne : Resident.var v ≠ .var w := by
      rintro ⟨⟩
      rw [hnone] at hw
      cases hw
    exact (RegisterFile.locate?_of_allocate? halloc hne hw).1

/-- Freeing the register of a temporary moves only the temporary. -/
theorem run_releaseTemp (h : (releaseTemp v r).run g = (.ok (), g')) :
    g'.lines = g.lines ∧ ∀ ⦃w r'⦄, g.registers.locate? w = some r' → (v.isTemp → r ≠ r') →
      g'.registers.locate? w = some r' := by
  rw [releaseTemp] at h
  split at h
  · next htemp =>
    obtain ⟨hfile, hlines⟩ := run_releaseRegister h
    refine ⟨hlines, fun w r' hw hne => ?_⟩
    rw [hfile]
    exact RegisterFile.locate?_release_of_ne hw (hne htemp)
  · obtain ⟨-, rfl⟩ := Action.run_pure_eq_ok.mp h
    exact ⟨rfl, fun _ _ hw _ => hw⟩

/-! ## Operators with a number -/

/-- An operator with a number on one side. -/
def Side.apply (side : Side) (op : ArithOp) (x imm : Int32) : Int32 :=
  match side with
  | .left => op.apply imm x
  | .right => op.apply x imm

/-- Where an operator comes down to adding, it is adding. -/
theorem add_addend? {op : ArithOp} {imm addend : Int32} {side : Side}
    (h : addend? op imm side = some addend) (x : Int32) : x + addend = side.apply op x imm := by
  cases op <;> cases side <;> simp only [addend?] at h
  · cases h
    exact Int32.add_comm x imm
  · cases h
    rfl
  · cases h
  · split at h
    · cases h
    · cases h
      exact (Int32.sub_eq_add_neg x imm).symm
  · cases h
  · cases h

/-- The number passes through a register that is nobody's, so nobody notices. -/
theorem run_throughScratch {op : ArithOp} {rd rs : Register} {imm : Int32} {side : Side} {d s : Var}
    (h : (throughScratch op rd rs imm side).run g = (.ok (), g'))
    (hd : g.registers.locate? d = some rd) (hs : g.registers.locate? s = some rs) :
    g.registers.Extends g'.registers ∧ ∃ lines, g'.lines.toList = g.lines.toList ++ lines ∧
      ∀ m, Puts g.registers rd (side.apply op (m rs) imm) m (execLines lines m) := by
  rw [throughScratch, Action.run_bind_eq_ok] at h
  obtain ⟨scratch, g₁, hscratch, h⟩ := h
  rw [Action.run_bind_eq_ok] at h
  obtain ⟨⟨⟩, g₂, hli, h⟩ := h
  obtain ⟨halloc, hlines₁⟩ := run_allocate hscratch
  obtain ⟨hregs₂, hlines₂⟩ := run_emit hli
  have hkeep := fun {w r'} (hw : g.registers.locate? w = some r') =>
    RegisterFile.locate?_of_allocate? halloc (w := w) (by simp) hw
  have hscratch0 : scratch ≠ .a0 := by
    obtain ⟨i, rfl, -⟩ := RegisterFile.allocate?_spec halloc
    simp
  -- whichever side the number is on, one more line is emitted and the scratch register is freed
  have hrest : ∃ l g₃, (emit l).run g₂ = (.ok (), g₃) ∧
      (releaseRegister scratch).run g₃ = (.ok (), g') ∧
      ∀ m : Machine, m scratch = imm →
        l.exec m = Function.update m rd (side.apply op (m rs) imm) := by
    cases side with
    | left =>
      obtain ⟨⟨⟩, g₃, hop, hfree⟩ := Action.run_bind_eq_ok.mp h
      exact ⟨_, g₃, hop, hfree, fun m hm => by rw [AsmLine.exec, hm]; rfl⟩
    | right =>
      obtain ⟨⟨⟩, g₃, hop, hfree⟩ := Action.run_bind_eq_ok.mp h
      exact ⟨_, g₃, hop, hfree, fun m hm => by rw [AsmLine.exec, hm]; rfl⟩
  obtain ⟨l, g₃, hop, hfree, hl⟩ := hrest
  obtain ⟨hregs₃, hlines₃⟩ := run_emit hop
  obtain ⟨hregs', hlines'⟩ := run_releaseRegister hfree
  refine ⟨fun w r' hw => ?_, [.li scratch imm, l], ?_, fun m => ?_⟩
  · rw [hregs', hregs₃, hregs₂]
    exact RegisterFile.locate?_release_of_ne (hkeep hw).1 (hkeep hw).2.symm
  · rw [hlines', hlines₃, hlines₂, hlines₁, List.append_assoc, List.singleton_append]
  · have hrs : Function.update m scratch imm rs = m rs := Function.update_of_ne (hkeep hs).2 ..
    rw [execLines_cons, execLines_cons, execLines_nil, AsmLine.exec,
      hl _ (Function.update_self ..), hrs]
    have hput := puts_update hd (side.apply op (m rs) imm) (Function.update m scratch imm)
    refine ⟨hput.value, ?_, fun w r' hw hne => ?_⟩
    · rw [hput.answer, Function.update_of_ne hscratch0.symm]
    · rw [hput.others hw hne, Function.update_of_ne (hkeep hw).2]

/-- An operator with a number on one side computes the operator, whether the number fits the
instruction or not. -/
theorem run_withImmediate {op : ArithOp} {rd rs : Register} {imm : Int32} {side : Side} {d s : Var}
    (h : (withImmediate op rd rs imm side).run g = (.ok (), g'))
    (hd : g.registers.locate? d = some rd) (hs : g.registers.locate? s = some rs) :
    g.registers.Extends g'.registers ∧ ∃ lines, g'.lines.toList = g.lines.toList ++ lines ∧
      ∀ m, Puts g.registers rd (side.apply op (m rs) imm) m (execLines lines m) := by
  rw [withImmediate] at h
  split at h
  · next addend haddend =>
    split at h
    · obtain ⟨hregs, hlines⟩ := run_emit h
      refine ⟨hregs ▸ RegisterFile.Extends.refl _, _, hlines, fun m => ?_⟩
      rw [execLines_cons, execLines_nil, AsmLine.exec, add_addend? haddend]
      exact puts_update hd _ m
    · exact run_throughScratch h hd hs
  · exact run_throughScratch h hd hs

/-! ## One instruction -/

/-- What has happened when an instruction is lowered: the registers found are those of `mid`, and
`lines` were emitted. -/
structure Lowered (i : Instr) (g g' : Generator) (mid : RegisterFile) (lines : List AsmLine) :
    Prop where
  /-- Finding registers moves nobody. -/
  found : g.registers.Extends mid
  /-- The lines stand behind those that were there. -/
  emitted : g'.lines.toList = g.lines.toList ++ lines
  /-- The lines do what the instruction does. -/
  lands : ∀ m, Lands mid m (execLines lines m) (i.effectFrom mid m)
  /-- Everybody stays except the temporaries that were read. -/
  kept : ∀ ⦃w r⦄, mid.locate? w = some r → ¬ i.Spends w → g'.registers.locate? w = some r

/-- The register of a temporary that is used up is not that of a variable that is not. -/
theorem ne_of_not_spends {f : RegisterFile} {i : Instr} {s w : Var} {rs r : Register}
    (hs : f.locate? s = some rs) (hw : f.locate? w = some r) (hmem : s ∈ i.consumed)
    (hspend : ¬ i.Spends w) : s.isTemp → rs ≠ r := by
  rintro htemp rfl
  obtain rfl := RegisterFile.locate?_injective hs hw
  exact hspend ⟨htemp, hmem⟩

theorem lower_mov_imm {dest : Var} {imm : Int32}
    (h : (lower (.mov dest (.imm imm))).run g = (.ok (), g')) :
    ∃ mid lines, Lowered (.mov dest (.imm imm)) g g' mid lines := by
  rw [lower, Action.run_bind_eq_ok] at h
  obtain ⟨rd, g₁, hdest, hemit⟩ := h
  obtain ⟨hlines₁, hext, hd⟩ := run_registerOf hdest
  obtain ⟨hregs, hlines⟩ := run_emit hemit
  refine ⟨g₁.registers, _, hext, hlines₁ ▸ hlines, fun m => ?_, fun w r hw _ => hregs ▸ hw⟩
  exact ⟨rd, hd, puts_update hd imm m⟩

theorem lower_mov_var {dest src : Var} (h : (lower (.mov dest (.var src))).run g = (.ok (), g')) :
    ∃ mid lines, Lowered (.mov dest (.var src)) g g' mid lines := by
  rw [lower, Action.run_bind_eq_ok] at h
  obtain ⟨rs, g₁, hsrc, h⟩ := h
  rw [Action.run_bind_eq_ok] at h
  obtain ⟨rd, g₂, hdest, h⟩ := h
  rw [Action.run_bind_eq_ok] at h
  obtain ⟨⟨⟩, g₃, hemit, hfree⟩ := h
  obtain ⟨hlines₁, hext₁, hs₁⟩ := run_registerOf hsrc
  obtain ⟨hlines₂, hext₂, hd⟩ := run_registerOf hdest
  obtain ⟨hregs₃, hlines₃⟩ := run_emit hemit
  obtain ⟨hlines', hkept⟩ := run_releaseTemp hfree
  have hs := hext₂ hs₁
  refine ⟨g₂.registers, [.mv rd rs], hext₁.trans hext₂, ?_, fun m => ?_,
    fun w r hw hspend => ?_⟩
  · rw [hlines', hlines₃, hlines₂, hlines₁]
  · rw [Instr.effectFrom, Operand.readFrom_var hs]
    exact ⟨rd, hd, puts_update hd (m rs) m⟩
  · exact hkept (hregs₃ ▸ hw) (ne_of_not_spends hs hw (by simp [Instr.consumed, Instr.reads,
      Operand.vars]) hspend)

theorem lower_arith_vars {op : ArithOp} {dest lhs rhs : Var}
    (h : (lower (.arith op dest (.var lhs) (.var rhs))).run g = (.ok (), g')) :
    ∃ mid lines, Lowered (.arith op dest (.var lhs) (.var rhs)) g g' mid lines := by
  rw [lower, lowerArith, Action.run_bind_eq_ok] at h
  obtain ⟨rs₁, g₁, hlhs, h⟩ := h
  rw [Action.run_bind_eq_ok] at h
  obtain ⟨rs₂, g₂, hrhs, h⟩ := h
  rw [Action.run_bind_eq_ok] at h
  obtain ⟨rd, g₃, hdest, h⟩ := h
  rw [Action.run_bind_eq_ok] at h
  obtain ⟨⟨⟩, g₄, hemit, h⟩ := h
  rw [Action.run_bind_eq_ok] at h
  obtain ⟨⟨⟩, g₅, hfree₁, hfree₂⟩ := h
  obtain ⟨hlines₁, hext₁, hl₁⟩ := run_registerOf hlhs
  obtain ⟨hlines₂, hext₂, hr₂⟩ := run_registerOf hrhs
  obtain ⟨hlines₃, hext₃, hd⟩ := run_registerOf hdest
  obtain ⟨hregs₄, hlines₄⟩ := run_emit hemit
  obtain ⟨hlines₅, hkept₁⟩ := run_releaseTemp hfree₁
  obtain ⟨hlines', hkept₂⟩ := run_releaseTemp hfree₂
  have hl := hext₃ (hext₂ hl₁)
  have hr := hext₃ hr₂
  refine ⟨g₃.registers, [.arith op rd rs₁ rs₂], hext₁.trans (hext₂.trans hext₃), ?_, fun m => ?_,
    fun w r hw hspend => ?_⟩
  · rw [hlines', hlines₅, hlines₄, hlines₃, hlines₂, hlines₁]
  · rw [Instr.effectFrom, Operand.readFrom_var hl, Operand.readFrom_var hr]
    exact ⟨rd, hd, puts_update hd _ m⟩
  · refine hkept₂ (hkept₁ (hregs₄ ▸ hw) (ne_of_not_spends hl hw ?_ hspend))
      (ne_of_not_spends hr hw ?_ hspend) <;> simp [Instr.consumed, Instr.reads, Operand.vars]

/-- The two shapes of an operator with one number differ only in the side of the number. -/
theorem lowered_withImmediate {i : Instr} {op : ArithOp} {dest src : Var} {imm : Int32}
    (side : Side)
    (h : (do
      let rs ← registerOf src
      let rd ← registerOf dest
      withImmediate op rd rs imm side
      releaseTemp src rs : Lowering Unit).run g = (.ok (), g'))
    (hmem : src ∈ i.consumed)
    (heffect : ∀ f m, i.effectFrom f m =
      .write dest (side.apply op ((Operand.var src).readFrom f m) imm)) :
    ∃ mid lines, Lowered i g g' mid lines := by
  rw [Action.run_bind_eq_ok] at h
  obtain ⟨rs, g₁, hsrc, h⟩ := h
  rw [Action.run_bind_eq_ok] at h
  obtain ⟨rd, g₂, hdest, h⟩ := h
  rw [Action.run_bind_eq_ok] at h
  obtain ⟨⟨⟩, g₃, himm, hfree⟩ := h
  obtain ⟨hlines₁, hext₁, hs₁⟩ := run_registerOf hsrc
  obtain ⟨hlines₂, hext₂, hd⟩ := run_registerOf hdest
  have hs := hext₂ hs₁
  obtain ⟨hext₃, lines, hlines₃, hputs⟩ := run_withImmediate himm hd hs
  obtain ⟨hlines', hkept⟩ := run_releaseTemp hfree
  refine ⟨g₂.registers, lines, hext₁.trans hext₂, ?_, fun m => ?_, fun w r hw hspend => ?_⟩
  · rw [hlines', hlines₃, hlines₂, hlines₁]
  · rw [heffect, Operand.readFrom_var hs]
    exact ⟨rd, hd, hputs m⟩
  · exact hkept (hext₃ hw) (ne_of_not_spends hs hw hmem hspend)

theorem lower_arith_imms {op : ArithOp} {dest : Var} {left right : Int32}
    (h : (lower (.arith op dest (.imm left) (.imm right))).run g = (.ok (), g')) :
    ∃ mid lines, Lowered (.arith op dest (.imm left) (.imm right)) g g' mid lines := by
  rw [lower, lowerArith, Action.run_bind_eq_ok] at h
  obtain ⟨rd, g₁, hdest, h⟩ := h
  rw [Action.run_bind_eq_ok] at h
  obtain ⟨⟨⟩, g₂, hemit, himm⟩ := h
  obtain ⟨hlines₁, hext₁, hd⟩ := run_registerOf hdest
  obtain ⟨hregs₂, hlines₂⟩ := run_emit hemit
  have hd₂ : g₂.registers.locate? dest = some rd := hregs₂ ▸ hd
  obtain ⟨hext₃, lines, hlines', hputs⟩ := run_withImmediate himm hd₂ hd₂
  refine ⟨g₁.registers, .li rd left :: lines, hext₁, ?_, fun m => ⟨rd, hd, ?_⟩,
    fun w r hw _ => hext₃ (hregs₂ ▸ hw)⟩
  · rw [hlines', hlines₂, hlines₁, List.append_assoc, List.singleton_append]
  · -- the left number stands in the destination when the operator reads it there
    have hload : Puts g₁.registers rd left m ((AsmLine.li rd left).exec m) :=
      puts_update hd left m
    have hop := hputs ((AsmLine.li rd left).exec m)
    rw [hload.value, hregs₂] at hop
    exact ⟨hop.value, hop.answer.trans hload.answer,
      fun w r hw hne => (hop.others hw hne).trans (hload.others hw hne)⟩

theorem lower_ret {value : Operand} (h : (lower (.ret value)).run g = (.ok (), g')) :
    ∃ mid lines, Lowered (.ret value) g g' mid lines := by
  cases value with
  | imm imm =>
    obtain ⟨hregs, hlines⟩ := run_emit h
    exact ⟨g.registers, _, RegisterFile.Extends.refl _, hlines,
      fun m => lands_update_a0 _ imm m, fun w r hw _ => hregs ▸ hw⟩
  | var v =>
    rw [lower, Action.run_bind_eq_ok] at h
    obtain ⟨rs, g₁, hsrc, hemit⟩ := h
    obtain ⟨hlines₁, hext, hs⟩ := run_registerOf hsrc
    obtain ⟨hregs, hlines⟩ := run_emit hemit
    refine ⟨g₁.registers, _, hext, hlines₁ ▸ hlines, fun m => ?_, fun w r hw _ => hregs ▸ hw⟩
    rw [Instr.effectFrom, Operand.readFrom_var hs]
    exact lands_update_a0 _ (m rs) m

/-- **The lines of one instruction** do what the instruction does, and move nobody but the
temporaries that it uses up. -/
theorem lower_spec {i : Instr} (h : (lower i).run g = (.ok (), g')) :
    ∃ mid lines, Lowered i g g' mid lines := by
  match i, h with
  | .mov _ (.imm _), h => exact lower_mov_imm h
  | .mov _ (.var _), h => exact lower_mov_var h
  | .arith _ _ (.var _) (.var _), h => exact lower_arith_vars h
  | .arith _ _ (.var _) (.imm _), h =>
    exact lowered_withImmediate .right h
      (by simp [Instr.consumed, Instr.reads, Operand.vars]) fun _ _ => rfl
  | .arith _ _ (.imm _) (.var _), h =>
    exact lowered_withImmediate .left h
      (by simp [Instr.consumed, Instr.reads, Operand.vars]) fun _ _ => rfl
  | .arith _ _ (.imm _) (.imm _), h => exact lower_arith_imms h
  | .ret _, h => exact lower_ret h

end Generator

end StraightLine
