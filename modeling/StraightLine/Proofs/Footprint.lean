import Mathlib
import StraightLine.Assembly.Generator
import StraightLine.Proofs.Action
import StraightLine.Proofs.Machine
import StraightLine.Proofs.Occupancy

/-!
# What lowering one instruction takes and leaves

Lowering an instruction takes a register for each of its variables that has none, then perhaps one
for a number, and at the end frees the registers of the temporaries that it used up. It can run out
of registers at any of the takings. This module follows the registers, the peak and the lines
through all of this, for arbitrary instructions and for both ends.

In the middle of an instruction the variables that have been given a register so far are `held`; the
structure `Generator.Working` says what is true then. The instruction ends with all its variables
held and some of them released again, `Generator.Done`, or with every register taken and somebody
left without one, `Generator.Stuck`. Nothing else can happen, and this is `Generator.lower_ends`.

## Main definitions

* `AsmLine.Proper` — the registers and the number of a line are what they may be
* `Instr.needsScratch` — whether an instruction needs a register for a number
* `Generator.Sound` — what is true of a generator between instructions
* `Generator.Working`, `Generator.Done`, `Generator.Stuck` — inside an instruction and behind it

## Main results

* `Generator.needsScratch_right`, `Generator.needsScratch_left` — when a number needs a register
* `Generator.lower_ends` — how lowering an instruction ends
-/

namespace StraightLine

/-! ## Lines -/

/-- One of the registers `t0` to `t6`. -/
def Register.InPool (r : Register) : Prop :=
  ∃ k : Fin poolSize, r = .t k

theorem RegisterFile.inPool_of_resident? {f : RegisterFile} {r : Register} {who : Resident}
    (h : f.resident? r = some who) : r.InPool :=
  exists_eq_t_of_resident? h

namespace AsmLine

/-- The register that a line writes. -/
def dest : AsmLine → Register
  | li rd _ => rd
  | mv rd _ => rd
  | addi rd _ _ => rd
  | arith _ rd _ _ => rd

/-- The registers that a line reads. -/
def sources : AsmLine → List Register
  | li _ _ => []
  | mv _ rs => [rs]
  | addi _ rs1 _ => [rs1]
  | arith _ _ rs1 rs2 => [rs1, rs2]

/-- A line as the instruction `i` may have it: it reads registers of the pool, it writes one of
them or, for a `ret`, the return value, and a number in `addi` fits its twelve bits. -/
structure Proper (i : Instr) (l : AsmLine) : Prop where
  /-- Only registers of the pool are read. -/
  sources : ∀ r ∈ l.sources, r.InPool
  /-- A register of the pool is written, or `a0` for a `ret`. -/
  dest : l.dest.InPool ∨ l.dest = .a0 ∧ ∃ value, i = .ret value
  /-- The number of `addi` is small. -/
  small : ∀ rd rs imm, l = .addi rd rs imm → -2048 ≤ imm.toInt ∧ imm.toInt ≤ 2047

variable {i : Instr} {rd rs rs' : Register}

theorem proper_li (hrd : rd.InPool) (imm : Int32) : (li rd imm).Proper i :=
  ⟨by simp [sources], .inl hrd, by simp⟩

theorem proper_mv (hrd : rd.InPool) (hrs : rs.InPool) : (mv rd rs).Proper i :=
  ⟨by simpa [sources] using hrs, .inl hrd, by simp⟩

theorem proper_arith (op : ArithOp) (hrd : rd.InPool) (hrs : rs.InPool) (hrs' : rs'.InPool) :
    (arith op rd rs rs').Proper i :=
  ⟨by simpa [sources] using ⟨hrs, hrs'⟩, .inl hrd, by simp⟩

theorem proper_addi {imm : Int32} (hrd : rd.InPool) (hrs : rs.InPool)
    (himm : fitsImmediate imm = true) : (addi rd rs imm).Proper i := by
  refine ⟨by simpa [sources] using hrs, .inl hrd, ?_⟩
  rintro _ _ _ ⟨⟩
  rw [fitsImmediate, Bool.and_eq_true, decide_eq_true_eq, decide_eq_true_eq,
    Int32.le_iff_toInt_le, Int32.le_iff_toInt_le] at himm
  exact himm

end AsmLine

/-- Whether an instruction has a number that needs a register: every number of a product, the left
number of a difference with a variable, and otherwise a number that, added or subtracted, does not
fit twelve bits. If both operands are numbers, it is the right one that matters. -/
def Instr.needsScratch : Instr → Bool
  | .arith .mul _ _ (.imm _) => true
  | .arith .mul _ (.imm _) (.var _) => true
  | .arith .add _ _ (.imm imm) => imm < -2048 || 2047 < imm
  | .arith .add _ (.imm imm) (.var _) => imm < -2048 || 2047 < imm
  | .arith .sub _ _ (.imm imm) => imm < -2047 || 2048 < imm
  | .arith .sub _ (.imm _) (.var _) => true
  | _ => false

namespace Generator

/-! ## Numbers that need a register -/

/-- Whether an operator on a register and a number goes through a register for the number. -/
def throughRegister (op : ArithOp) (imm : Int32) (side : Side) : Bool :=
  (addend? op imm side).all fun addend => !fitsImmediate addend

theorem not_fitsImmediate (imm : Int32) :
    (!fitsImmediate imm) = (decide (imm < -2048) || decide (2047 < imm)) := by
  simp only [fitsImmediate, Bool.not_and, ← decide_not, Int32.not_le]

/-- The range of what can be subtracted is that of what can be added, turned over. -/
theorem throughRegister_sub (imm : Int32) :
    throughRegister .sub imm .right = (decide (imm < -2047) || decide (2048 < imm)) := by
  rw [throughRegister, addend?]
  split
  · next h =>
    subst h
    rfl
  · next h =>
    have hmin : imm.toInt ≠ -2147483648 := fun hc => h (Int32.toInt_inj.mp hc)
    have hlow := imm.le_toInt
    have hhigh := imm.toInt_lt
    have hneg : (-imm).toInt = -imm.toInt := by
      rw [Int32.toInt_neg]
      exact Int.bmod_eq_of_le (by omega) (by omega)
    have hranges : (-imm < -2048 ∨ 2047 < -imm) ↔ (imm < -2047 ∨ 2048 < imm) := by
      have h₁ : (-2048 : Int32).toInt = -2048 := rfl
      have h₂ : (2047 : Int32).toInt = 2047 := rfl
      have h₃ : (-2047 : Int32).toInt = -2047 := rfl
      have h₄ : (2048 : Int32).toInt = 2048 := rfl
      rw [Int32.lt_iff_toInt_lt, Int32.lt_iff_toInt_lt, Int32.lt_iff_toInt_lt,
        Int32.lt_iff_toInt_lt, hneg, h₁, h₂, h₃, h₄]
      omega
    rw [Option.all_some, not_fitsImmediate, ← Bool.decide_or, ← Bool.decide_or]
    exact decide_eq_decide.mpr hranges

/-- A number on the right needs a register if and only if the generator gives it one. -/
theorem needsScratch_right (op : ArithOp) (dest : Var) (lhs : Operand) (imm : Int32) :
    (Instr.arith op dest lhs (.imm imm)).needsScratch = throughRegister op imm .right := by
  cases op with
  | add => exact (not_fitsImmediate imm).symm
  | sub => exact (throughRegister_sub imm).symm
  | mul => rfl

/-- The same for a number on the left of a variable. -/
theorem needsScratch_left (op : ArithOp) (dest v : Var) (imm : Int32) :
    (Instr.arith op dest (.imm imm) (.var v)).needsScratch = throughRegister op imm .left := by
  cases op with
  | add => exact (not_fitsImmediate imm).symm
  | sub => rfl
  | mul => rfl

/-- An operator with a number goes through a register, or is one line with a number that fits. -/
theorem withImmediate_cases (op : ArithOp) (rd rs : Register) (imm : Int32) (side : Side) :
    (throughRegister op imm side = true ∧
      withImmediate op rd rs imm side = throughScratch op rd rs imm side) ∨
    (throughRegister op imm side = false ∧ ∃ addend, fitsImmediate addend = true ∧
      withImmediate op rd rs imm side = emit (.addi rd rs addend)) := by
  rw [withImmediate, throughRegister]
  cases addend? op imm side with
  | none => exact .inl ⟨rfl, rfl⟩
  | some addend =>
    by_cases hfits : fitsImmediate addend = true
    · exact .inr ⟨by simp [hfits], addend, hfits, by simp [hfits]⟩
    · exact .inl ⟨by simp [hfits], by simp [hfits]⟩

/-! ## Between and inside instructions -/

/-- What is true between instructions: nobody has two registers, no number is left in one, and the
peak is what it is called. -/
structure Sound (g : Generator) : Prop where
  /-- Nobody has two registers. -/
  distinct : g.registers.Distinct
  /-- No number is left in a register. -/
  noScratch : ¬ g.registers.Houses .scratch
  /-- The peak is no less than what is taken. -/
  bound_le : g.registers.bound ≤ g.peak
  /-- The peak is no more than there is. -/
  peak_le : g.peak ≤ poolSize

theorem sound_start : Sound {} where
  distinct := by
    intro who r r' h
    rw [RegisterFile.resident?_empty] at h
    cases h
  noScratch := by
    rintro ⟨r, hr⟩
    rw [RegisterFile.resident?_empty] at hr
    cases hr
  bound_le := by decide
  peak_le := by decide

/-- What is true inside the instruction `i`, begun at `g₀`, when the variables `held` have been
given registers and `extra` registers more have been taken for a time. -/
structure Working (i : Instr) (g₀ : Generator) (held : List Var) (extra : Nat) (g : Generator) :
    Prop where
  /-- Nobody has lost a register. -/
  kept : g₀.registers.Keeps g.registers
  /-- Nobody but those who are held has got one. -/
  houses : ∀ v, g.registers.Houses (.var v) ↔ g₀.registers.Houses (.var v) ∨ v ∈ held
  /-- Nobody has two registers. -/
  distinct : g.registers.Distinct
  /-- No number is left in a register. -/
  noScratch : ¬ g.registers.Houses .scratch
  /-- There was a register for everybody. -/
  room : g.registers.bound + extra ≤ poolSize
  /-- The peak has followed. -/
  peak : g.peak = max g₀.peak (g.registers.bound + extra)
  /-- All lines are proper. -/
  lines : ∃ new, g.lines.toList = g₀.lines.toList ++ new ∧ ∀ l ∈ new, l.Proper i

/-- The registers of temporaries among `vs` have been freed, and nothing else has happened. -/
structure Released (vs : List Var) (mid g : Generator) : Prop where
  /-- Exactly those temporaries have gone. -/
  resident : ∀ r who, g.registers.resident? r = some who ↔
    mid.registers.resident? r = some who ∧ ∀ v ∈ vs, v.isTemp = true → who ≠ .var v
  /-- The peak is as it was. -/
  peak : g.peak = mid.peak
  /-- The lines are as they were. -/
  lines : g.lines = mid.lines

/-- The instruction has been lowered: all its variables had registers at one time, and then those of
the temporaries it uses up were freed. -/
def Done (i : Instr) (g₀ g : Generator) : Prop :=
  ∃ mid, Working i g₀ i.vars i.needsScratch.toNat mid ∧ Released i.consumed mid g

/-- The instruction has not been lowered: every register is taken, and a variable of the instruction
has none, or all have one and there is none for a number. -/
def Stuck (i : Instr) (g₀ g : Generator) : Prop :=
  ∃ held ⊆ i.vars, Working i g₀ held 0 g ∧ g.registers.bound = poolSize ∧
    ((∃ v ∈ i.vars, ¬ g.registers.Houses (.var v)) ∨ (held = i.vars ∧ i.needsScratch = true))

variable {i : Instr} {g₀ g : Generator} {held : List Var} {extra : Nat} {v : Var}

theorem Sound.working (h : Sound g) (i : Instr) : Working i g [] 0 g where
  kept := RegisterFile.Keeps.refl _
  houses v := by simp
  distinct := h.distinct
  noScratch := h.noScratch
  room := g.registers.bound_le_poolSize
  peak := (max_eq_left h.bound_le).symm
  lines := ⟨[], by simp, by simp⟩

/-! ## One lemma for each primitive -/

theorem allocate_ends (g : Generator) (who : Resident) :
    (allocate who).Ends g
      (fun r g' => g.registers.allocate? who = some (r, g'.registers) ∧
        g'.peak = max g.peak g'.registers.bound ∧ g'.lines = g.lines)
      (fun _ g' => g' = g ∧ g.registers.bound = poolSize) := by
  have hfree := g.registers.hasFree_eq_isSome who
  rcases halloc : g.registers.allocate? who with _ | ⟨r, file⟩
  · have hrun : (allocate who).run g = (.error (.outOfRegisters who), g) := by
      rw [halloc, Option.isSome_none] at hfree
      simp only [Action.run, allocate, hfree, Bool.false_eq_true, if_false]
    exact Action.ends_of_error hrun ⟨rfl, RegisterFile.allocate?_eq_none_iff.mp halloc⟩
  · have hrun : (allocate who).run g = (.ok r, { g with
        registers := file
        peak := max g.peak file.bound
        log := g.log ++ g.registers.allocateLog who }) := by
      rw [halloc, Option.isSome_some] at hfree
      simp only [Action.run, allocate, hfree, halloc, if_true]
    exact Action.ends_of_ok hrun ⟨rfl, rfl, rfl⟩

/-- Finding a register for a variable of the instruction, or running out of them. -/
theorem Working.registerOf (h : Working i g₀ held 0 g) (hheld : held ⊆ i.vars) (hv : v ∈ i.vars) :
    (registerOf v).Ends g
      (fun r g' => Working i g₀ (held ++ [v]) 0 g' ∧ g'.registers.resident? r = some (.var v) ∧
        g.registers.Keeps g'.registers)
      (fun _ g' => Stuck i g₀ g') := by
  rcases hloc : g.registers.locate? v with _ | r
  · have hnot := RegisterFile.locate?_eq_none_iff_not_houses.mp hloc
    have hrun : (Generator.registerOf v).run g = (allocate (.var v)).run g := by
      rw [Generator.registerOf, Action.run_bind_of_ok (Action.run_inspect _ g), hloc]
    rw [Action.Ends, hrun]
    refine ⟨fun r g' hok => ?_, fun e g' herror => ?_⟩
    · obtain ⟨halloc, hpeak, hlines⟩ := (allocate_ends g (.var v)).1 r g' hok
      have hbound := RegisterFile.bound_allocate? halloc
      refine ⟨⟨?_, fun w => ?_, ?_, ?_, ?_, ?_, ?_⟩, ?_, ?_⟩
      · exact h.kept.trans (RegisterFile.keeps_allocate? halloc)
      · rw [RegisterFile.houses_allocate? halloc, h.houses]
        simp [or_assoc]
      · exact h.distinct.allocate? halloc hnot
      · rw [RegisterFile.houses_allocate? halloc]
        simp [h.noScratch]
      · exact g'.registers.bound_le_poolSize
      · rw [hpeak, h.peak, hbound]
        omega
      · rw [hlines]
        exact h.lines
      · rw [RegisterFile.resident?_allocate? halloc, if_pos rfl]
      · exact RegisterFile.keeps_allocate? halloc
    · obtain ⟨rfl, hfull⟩ := (allocate_ends g (.var v)).2 e g' herror
      exact ⟨held, hheld, h, hfull, .inl ⟨v, hv, hnot⟩⟩
  · -- the variable has a register, and nothing happens
    have hrun : (Generator.registerOf v).run g = (.ok r, g) := by
      rw [Generator.registerOf, Action.run_bind_of_ok (Action.run_inspect _ g), hloc]
      rfl
    have hr := RegisterFile.resident?_of_locate? hloc
    refine Action.ends_of_ok hrun ⟨⟨h.kept, fun w => ?_, h.distinct, h.noScratch, h.room, h.peak,
      h.lines⟩, hr, RegisterFile.Keeps.refl _⟩
    rw [h.houses, List.mem_append, List.mem_singleton]
    constructor
    · rintro (hw | hw)
      · exact .inl hw
      · exact .inr (.inl hw)
    · rintro (hw | hw | rfl)
      · exact .inl hw
      · exact .inr hw
      · exact (h.houses w).mp ⟨r, hr⟩

theorem Working.emit {l : AsmLine} (h : Working i g₀ held extra g) (hl : l.Proper i) :
    (emit l).Ends g
      (fun _ g' => Working i g₀ held extra g' ∧ g'.registers = g.registers)
      (fun _ g' => Stuck i g₀ g') := by
  refine Action.ends_of_ok rfl
    ⟨⟨h.kept, h.houses, h.distinct, h.noScratch, h.room, h.peak, ?_⟩, rfl⟩
  obtain ⟨new, hlines, hproper⟩ := h.lines
  refine ⟨new ++ [l], by simp [hlines], ?_⟩
  rw [List.forall_mem_append]
  exact ⟨hproper, by simpa using hl⟩

/-- A register for a number is taken and freed again, so that only the peak tells of it. -/
theorem Working.throughScratch {rd rs : Register} (h : Working i g₀ i.vars 0 g)
    (hneeds : i.needsScratch = true) (hrd : rd.InPool) (hrs : rs.InPool) (op : ArithOp)
    (imm : Int32) (side : Side) :
    (throughScratch op rd rs imm side).Ends g
      (fun _ g' => Working i g₀ i.vars 1 g' ∧ g'.registers = g.registers)
      (fun _ g' => Stuck i g₀ g') := by
  rcases hrun : (allocate .scratch).run g with ⟨err | r, g₁⟩
  · obtain ⟨rfl, hfull⟩ := (allocate_ends g .scratch).2 err g₁ hrun
    exact Action.ends_of_error (Action.run_bind_of_error hrun _)
      ⟨i.vars, List.Subset.refl _, h, hfull, .inr ⟨rfl, hneeds⟩⟩
  · obtain ⟨halloc, hpeak, hlines⟩ := (allocate_ends g .scratch).1 r g₁ hrun
    have hr : r.InPool := by
      obtain ⟨k, hk, -⟩ := RegisterFile.allocate?_spec halloc
      exact ⟨k, hk⟩
    -- whichever side the number is on, two lines are emitted and the register is freed
    have hrest : ∃ g₂ l, (Generator.throughScratch op rd rs imm side).run g = (.ok (), g₂) ∧
        g₂.registers = g₁.registers.release r ∧ g₂.peak = g₁.peak ∧
        g₂.lines.toList = g₁.lines.toList ++ [.li r imm, l] ∧ l.Proper i := by
      cases side with
      | left =>
        exact ⟨_, _, Action.run_bind_of_ok hrun _, rfl, rfl, by simp,
          AsmLine.proper_arith op hrd hr hrs⟩
      | right =>
        exact ⟨_, _, Action.run_bind_of_ok hrun _, rfl, rfl, by simp,
          AsmLine.proper_arith op hrd hrs hr⟩
    obtain ⟨g₂, l, hrun₂, hregs, hpeak₂, hlines₂, hl⟩ := hrest
    have hregs' : g₂.registers = g.registers :=
      hregs.trans (RegisterFile.release_of_allocate? halloc)
    have hbound := RegisterFile.bound_allocate? halloc
    have hroom := g₁.registers.bound_le_poolSize
    refine Action.ends_of_ok hrun₂ ⟨⟨?_, fun w => ?_, ?_, ?_, ?_, ?_, ?_⟩, hregs'⟩
    · rw [hregs']
      exact h.kept
    · rw [hregs']
      exact h.houses w
    · rw [hregs']
      exact h.distinct
    · rw [hregs']
      exact h.noScratch
    · rw [hregs', ← hbound]
      exact hroom
    · rw [hregs', hpeak₂, hpeak, h.peak, hbound]
      omega
    · obtain ⟨new, hnew, hproper⟩ := h.lines
      refine ⟨new ++ [.li r imm, l], by rw [hlines₂, hlines, hnew, List.append_assoc], ?_⟩
      rw [List.forall_mem_append]
      exact ⟨hproper, by simpa using ⟨AsmLine.proper_li hr imm, hl⟩⟩

/-- An operator with a number, when all variables have their registers. -/
theorem Working.withImmediate {op : ArithOp} {imm : Int32} {side : Side} {rd rs : Register}
    (h : Working i g₀ i.vars 0 g) (hneeds : i.needsScratch = throughRegister op imm side)
    (hrd : rd.InPool) (hrs : rs.InPool) :
    (withImmediate op rd rs imm side).Ends g
      (fun _ g' => Working i g₀ i.vars i.needsScratch.toNat g' ∧ g'.registers = g.registers)
      (fun _ g' => Stuck i g₀ g') := by
  rcases withImmediate_cases op rd rs imm side with ⟨hthrough, heq⟩ | ⟨hthrough, a, hfits, heq⟩
  · rw [heq, hneeds, hthrough]
    exact h.throughScratch (hneeds.trans hthrough) hrd hrs op imm side
  · rw [heq, hneeds, hthrough]
    exact h.emit (AsmLine.proper_addi hrd hrs hfits)

theorem released_nil (g : Generator) : Released [] g g :=
  ⟨by simp, rfl, rfl⟩

/-- Freeing the register that a temporary had frees nobody else's. -/
theorem Released.releaseTemp {mid : Generator} {vs : List Var} {r : Register}
    {E : CodegenError → Generator → Prop} (h : Released vs mid g)
    (hmid : mid.registers.Distinct) (hr : mid.registers.resident? r = some (.var v)) :
    (releaseTemp v r).Ends g (fun _ g' => Released (vs ++ [v]) mid g') E := by
  rw [Generator.releaseTemp]
  split
  · next htemp =>
    refine Action.ends_of_ok rfl ⟨fun r' who => ?_, h.peak, h.lines⟩
    change (g.registers.release r).resident? r' = some who ↔ _
    rw [RegisterFile.resident?_release, List.forall_mem_append, List.forall_mem_singleton]
    constructor
    · intro hwho
      split at hwho
      · cases hwho
      · next hne =>
        obtain ⟨hresident, hothers⟩ := (h.resident r' who).mp hwho
        refine ⟨hresident, hothers, fun _ heq => hne ?_⟩
        subst heq
        exact hmid hresident hr
    · rintro ⟨hresident, hothers, hv⟩
      have hne : r' ≠ r := by
        rintro rfl
        rw [hr] at hresident
        exact hv htemp (Option.some.inj hresident).symm
      rw [if_neg hne]
      exact (h.resident r' who).mpr ⟨hresident, hothers⟩
  · next htemp =>
    refine Action.ends_of_ok rfl ⟨fun r' who => ?_, h.peak, h.lines⟩
    rw [h.resident, List.forall_mem_append, List.forall_mem_singleton]
    simp [htemp]

/-! ## One instruction -/

/-- The two shapes of an operator with one number differ only in the side of the number. -/
theorem ends_withImmediate {op : ArithOp} {dest src : Var} {imm : Int32} {side : Side}
    (h : Sound g) (hvars : i.vars = [src, dest]) (hconsumed : i.consumed = [src])
    (hneeds : i.needsScratch = throughRegister op imm side) :
    (do
      let rs ← registerOf src
      let rd ← registerOf dest
      withImmediate op rd rs imm side
      releaseTemp src rs : Lowering Unit).Ends g
      (fun _ g' => Done i g g') (fun _ g' => Stuck i g g') := by
  refine ((h.working i).registerOf (by simp) (by simp [hvars])).bind ?_
  rintro rs g₁ ⟨h₁, hrs, -⟩
  refine (h₁.registerOf (by simp [hvars]) (by simp [hvars])).bind ?_
  rintro rd g₂ ⟨h₂, hrd, hkeeps⟩
  have hrs₂ := hkeeps hrs
  have hheld : Working i g i.vars 0 g₂ := by
    rw [hvars]
    exact h₂
  refine (hheld.withImmediate hneeds (RegisterFile.inPool_of_resident? hrd)
    (RegisterFile.inPool_of_resident? hrs₂)).bind ?_
  rintro ⟨⟩ g₃ ⟨h₃, hregs⟩
  rw [← hregs] at hrs₂
  refine ((released_nil g₃).releaseTemp h₃.distinct hrs₂).mono ?_
  rintro ⟨⟩ g₄ h₄
  exact ⟨g₃, h₃, by rw [hconsumed]; exact h₄⟩

/-- An operator on two variables. -/
theorem ends_arith_vars (h : Sound g) (op : ArithOp) (dest lhs rhs : Var) :
    (lower (.arith op dest (.var lhs) (.var rhs))).Ends g
      (fun _ g' => Done (.arith op dest (.var lhs) (.var rhs)) g g')
      (fun _ g' => Stuck (.arith op dest (.var lhs) (.var rhs)) g g') := by
  have hvars : (Instr.arith op dest (.var lhs) (.var rhs)).vars = [lhs, rhs, dest] := rfl
  have hneeds : (Instr.arith op dest (.var lhs) (.var rhs)).needsScratch = false := by
    cases op <;> rfl
  refine ((h.working _).registerOf (by simp) (by simp [hvars])).bind ?_
  rintro rs₁ g₁ ⟨h₁, hrs₁, -⟩
  refine (h₁.registerOf (by simp [hvars]) (by simp [hvars])).bind ?_
  rintro rs₂ g₂ ⟨h₂, hrs₂, hkeeps₂⟩
  refine (h₂.registerOf (by simp [hvars]) (by simp [hvars])).bind ?_
  rintro rd g₃ ⟨h₃, hrd, hkeeps₃⟩
  have hl := hkeeps₃ (hkeeps₂ hrs₁)
  have hr := hkeeps₃ hrs₂
  refine (h₃.emit (AsmLine.proper_arith op (RegisterFile.inPool_of_resident? hrd)
    (RegisterFile.inPool_of_resident? hl) (RegisterFile.inPool_of_resident? hr))).bind ?_
  rintro ⟨⟩ g₄ ⟨h₄, hregs⟩
  rw [← hregs] at hl hr
  refine ((released_nil g₄).releaseTemp h₄.distinct hl).bind ?_
  rintro ⟨⟩ g₅ h₅
  refine (h₅.releaseTemp h₄.distinct hr).mono ?_
  rintro ⟨⟩ g₆ h₆
  exact ⟨g₄, by rw [hneeds]; exact h₄, h₆⟩

/-- An operator on two numbers: the left one is loaded into the destination. -/
theorem ends_arith_imms (h : Sound g) (op : ArithOp) (dest : Var) (left right : Int32) :
    (lower (.arith op dest (.imm left) (.imm right))).Ends g
      (fun _ g' => Done (.arith op dest (.imm left) (.imm right)) g g')
      (fun _ g' => Stuck (.arith op dest (.imm left) (.imm right)) g g') := by
  have hvars : (Instr.arith op dest (.imm left) (.imm right)).vars = [dest] := rfl
  refine ((h.working _).registerOf (by simp) (by simp [hvars])).bind ?_
  rintro rd g₁ ⟨h₁, hrd, -⟩
  have hpool := RegisterFile.inPool_of_resident? hrd
  refine (h₁.emit (AsmLine.proper_li hpool left)).bind ?_
  rintro ⟨⟩ g₂ ⟨h₂, -⟩
  refine (Working.withImmediate h₂ (needsScratch_right op dest _ right) hpool hpool).mono ?_
  rintro ⟨⟩ g₃ ⟨h₃, -⟩
  exact ⟨g₃, h₃, released_nil g₃⟩

theorem ends_mov (h : Sound g) (dest : Var) (src : Operand) :
    (lower (.mov dest src)).Ends g
      (fun _ g' => Done (.mov dest src) g g') (fun _ g' => Stuck (.mov dest src) g g') := by
  cases src with
  | imm imm =>
    have hvars : (Instr.mov dest (.imm imm)).vars = [dest] := rfl
    refine ((h.working _).registerOf (by simp) (by simp [hvars])).bind ?_
    rintro rd g₁ ⟨h₁, hrd, -⟩
    refine (h₁.emit (AsmLine.proper_li (RegisterFile.inPool_of_resident? hrd) imm)).mono ?_
    rintro ⟨⟩ g₂ ⟨h₂, -⟩
    exact ⟨g₂, h₂, released_nil g₂⟩
  | var src =>
    have hvars : (Instr.mov dest (.var src)).vars = [src, dest] := rfl
    refine ((h.working _).registerOf (by simp) (by simp [hvars])).bind ?_
    rintro rs g₁ ⟨h₁, hrs, -⟩
    refine (h₁.registerOf (by simp [hvars]) (by simp [hvars])).bind ?_
    rintro rd g₂ ⟨h₂, hrd, hkeeps⟩
    have hrs₂ := hkeeps hrs
    refine (h₂.emit (AsmLine.proper_mv (RegisterFile.inPool_of_resident? hrd)
      (RegisterFile.inPool_of_resident? hrs₂))).bind ?_
    rintro ⟨⟩ g₃ ⟨h₃, hregs⟩
    rw [← hregs] at hrs₂
    refine ((released_nil g₃).releaseTemp h₃.distinct hrs₂).mono ?_
    rintro ⟨⟩ g₄ h₄
    exact ⟨g₃, h₃, h₄⟩

/-- A `ret` takes a register for a variable that has none, and frees none. -/
theorem ends_ret (h : Sound g) (value : Operand) :
    (lower (.ret value)).Ends g
      (fun _ g' => Done (.ret value) g g') (fun _ g' => Stuck (.ret value) g g') := by
  cases value with
  | imm imm =>
    have hproper : (AsmLine.li .a0 imm).Proper (.ret (.imm imm)) :=
      ⟨by simp [AsmLine.sources], .inr ⟨rfl, _, rfl⟩, by simp⟩
    refine ((h.working _).emit hproper).mono ?_
    rintro ⟨⟩ g₁ ⟨h₁, -⟩
    exact ⟨g₁, h₁, released_nil g₁⟩
  | var v =>
    have hvars : (Instr.ret (.var v)).vars = [v] := rfl
    refine ((h.working _).registerOf (by simp) (by simp [hvars])).bind ?_
    rintro rs g₁ ⟨h₁, hrs, -⟩
    have hproper : (AsmLine.mv .a0 rs).Proper (.ret (.var v)) :=
      ⟨by simpa [AsmLine.sources] using RegisterFile.inPool_of_resident? hrs,
        .inr ⟨rfl, _, rfl⟩, by simp⟩
    refine (h₁.emit hproper).mono ?_
    rintro ⟨⟩ g₂ ⟨h₂, -⟩
    exact ⟨g₂, h₂, released_nil g₂⟩

/-- **How lowering an instruction ends**: with registers found for all its variables and those of
the temporaries it uses up freed, or with every register taken and somebody without one. -/
theorem lower_ends (h : Sound g) (i : Instr) :
    (lower i).Ends g (fun _ g' => Done i g g') (fun _ g' => Stuck i g g') := by
  match i with
  | .mov dest src => exact ends_mov h dest src
  | .arith op dest (.var lhs) (.var rhs) => exact ends_arith_vars h op dest lhs rhs
  | .arith op dest (.var lhs) (.imm imm) =>
    exact ends_withImmediate h rfl rfl (needsScratch_right op dest _ imm)
  | .arith op dest (.imm imm) (.var rhs) =>
    exact ends_withImmediate h rfl rfl (needsScratch_left op dest rhs imm)
  | .arith op dest (.imm left) (.imm right) => exact ends_arith_imms h op dest left right
  | .ret value => exact ends_ret h value

end Generator

end StraightLine
