import Mathlib
import StraightLine.Proofs.Footprint

/-!
# The generator keeps its registers in order

A generator can be given any instructions, not only those of a program: temporaries that were never
written, a destination that is an operand, the same temporary on both sides. And it can be used on
after an instruction failed half-way, with the registers taken that were taken until then. Whatever
it is given, the registers stay in order between the instructions. Nobody has two of them, no number
is left in one, and a named variable that has one has it for good. The lines that come out use
nothing but the pool, and `a0` for a value that is returned.

Everything here follows from `Generator.lower_ends`, which gives both ends of an instruction.

## Main definitions

* `Generator.attempt`, `Generator.attemptAll` — lower an instruction and go on, failed or not

## Main results

* `Generator.Sound.attempt`, `Generator.sound_attemptAll` — the registers stay in order
* `Generator.Sound.resident?_attempt`, `Generator.locate?_attemptAll_append` — named variables stay
* `registers_stay_in_order` — all of it, behind every instruction
-/

namespace StraightLine

namespace Generator

variable {i : Instr} {g₀ g : Generator} {r : Register}

/-! ## One instruction, failed or not -/

/-- The generator behind an instruction, lowered or not. -/
def attempt (g : Generator) (i : Instr) : Generator :=
  ((lower i).run g).2

/-- The generator behind instructions lowered one after another, going on where one fails. -/
def attemptAll (code : List Instr) : Generator :=
  code.foldl attempt {}

theorem attemptAll_concat (code : List Instr) (i : Instr) :
    attemptAll (code ++ [i]) = (attemptAll code).attempt i := by
  simp [attemptAll]

theorem Sound.done_or_stuck (h : Sound g) (i : Instr) :
    Done i g (g.attempt i) ∨ Stuck i g (g.attempt i) := by
  obtain ⟨hok, herror⟩ := lower_ends h i
  rcases hrun : (lower i).run g with ⟨err | ⟨⟩, g'⟩
  · rw [attempt, hrun]
    exact .inr (herror err g' hrun)
  · rw [attempt, hrun]
    exact .inl (hok () g' hrun)

/-! ## What an instruction leaves in order -/

theorem Done.sound (hpeak : g₀.peak ≤ poolSize) (h : Done i g₀ g) : Sound g := by
  obtain ⟨mid, hmid, hreleased⟩ := h
  have hsub : ∀ who, g.registers.Houses who → mid.registers.Houses who := by
    rintro who ⟨r, hr⟩
    exact ⟨r, ((hreleased.resident r who).mp hr).1⟩
  have hdistinct : g.registers.Distinct := by
    intro who r r' hr hr'
    exact hmid.distinct ((hreleased.resident r who).mp hr).1 ((hreleased.resident r' who).mp hr').1
  have hbound := hdistinct.bound_le hsub
  have hroom := hmid.room
  have hmidPeak := hmid.peak
  refine ⟨hdistinct, fun hscratch => hmid.noScratch (hsub _ hscratch), ?_, ?_⟩
  · rw [hreleased.peak, hmidPeak]
    omega
  · rw [hreleased.peak, hmidPeak]
    omega

theorem Working.sound {held : List Var} (hpeak : g₀.peak ≤ poolSize)
    (h : Working i g₀ held 0 g) : Sound g := by
  have hroom := h.room
  have hworkingPeak := h.peak
  exact ⟨h.distinct, h.noScratch, by omega, by omega⟩

/-- **One instruction** leaves the registers in order, whether it is lowered or not. -/
theorem Sound.attempt (h : Sound g) (i : Instr) : Sound (g.attempt i) := by
  rcases h.done_or_stuck i with hdone | ⟨held, -, hworking, -⟩
  · exact hdone.sound h.peak_le
  · exact hworking.sound h.peak_le

/-- A named variable stays in its register: only temporaries are ever freed. -/
theorem Sound.resident?_attempt (h : Sound g) (i : Instr) {name : String}
    (hr : g.registers.resident? r = some (.var (.named name))) :
    (g.attempt i).registers.resident? r = some (.var (.named name)) := by
  rcases h.done_or_stuck i with ⟨mid, hmid, hreleased⟩ | ⟨held, -, hworking, -⟩
  · refine (hreleased.resident r _).mpr ⟨hmid.kept hr, ?_⟩
    rintro v - htemp heq
    cases heq
    cases htemp
  · exact hworking.kept hr

/-- The lines of an instruction stand behind those that were there, and they are proper, also if
there is one missing. -/
theorem Sound.lines_attempt (h : Sound g) (i : Instr) :
    ∃ new, (g.attempt i).lines.toList = g.lines.toList ++ new ∧ ∀ l ∈ new, l.Proper i := by
  rcases h.done_or_stuck i with ⟨mid, hmid, hreleased⟩ | ⟨held, -, hworking, -⟩
  · rw [hreleased.lines]
    exact hmid.lines
  · exact hworking.lines

/-! ## Any number of instructions -/

theorem sound_attemptAll (code : List Instr) : Sound (attemptAll code) := by
  induction code using List.reverseRecOn with
  | nil => exact sound_start
  | append_singleton code i ih =>
    rw [attemptAll_concat]
    exact ih.attempt i

/-- A named variable that has a register has it for good. -/
theorem locate?_attemptAll_append {code : List Instr} {name : String}
    (hr : (attemptAll code).registers.locate? (.named name) = some r) (more : List Instr) :
    (attemptAll (code ++ more)).registers.locate? (.named name) = some r := by
  induction more using List.reverseRecOn with
  | nil => rwa [List.append_nil]
  | append_singleton more i ih =>
    have hsound := sound_attemptAll (code ++ more)
    rw [← List.append_assoc, attemptAll_concat]
    rw [hsound.distinct.locate?_eq_some_iff] at ih
    rw [(hsound.attempt i).distinct.locate?_eq_some_iff]
    exact hsound.resident?_attempt i ih

/-- Every line is a proper line of some instruction. -/
theorem exists_proper_of_mem_lines (code : List Instr) :
    ∀ l ∈ (attemptAll code).lines.toList, ∃ i ∈ code, l.Proper i := by
  induction code using List.reverseRecOn with
  | nil => simp [attemptAll]
  | append_singleton code i ih =>
    obtain ⟨new, hlines, hproper⟩ := (sound_attemptAll code).lines_attempt i
    rw [attemptAll_concat, hlines]
    intro l hl
    rcases List.mem_append.mp hl with hl | hl
    · obtain ⟨j, hj, hlj⟩ := ih l hl
      exact ⟨j, List.mem_append_left _ hj, hlj⟩
    · exact ⟨i, by simp, hproper l hl⟩

end Generator

open Generator

/-- **The registers stay in order.** Let instructions be lowered one after another, going on where
one fails. Behind each of them, nobody has two registers, no number is left in one, a named variable
that is located in a register is located there ever after, and no more registers are taken than the
peak, which is at most seven. Every line that was emitted uses the registers `t0` to `t6` and `a0`
only, does not read `a0`, and has a number of twelve bits if it is an `addi`; the instruction has
added lines to those that were there, and if one of them writes `a0`, the instruction is a `ret`. -/
theorem registers_stay_in_order (code : List Instr) (i : Instr) :
    (∀ v r r', (attemptAll (code ++ [i])).registers.resident? r = some (.var v) →
      (attemptAll (code ++ [i])).registers.resident? r' = some (.var v) → r = r') ∧
    (∀ r, (attemptAll (code ++ [i])).registers.resident? r ≠ some .scratch) ∧
    (∀ name r more, (attemptAll (code ++ [i])).registers.locate? (.named name) = some r →
      (attemptAll (code ++ [i] ++ more)).registers.locate? (.named name) = some r) ∧
    (attemptAll (code ++ [i])).registers.bound ≤ (attemptAll (code ++ [i])).peak ∧
    (attemptAll (code ++ [i])).peak ≤ 7 ∧
    (∀ l ∈ (attemptAll (code ++ [i])).lines.toList,
      (∀ r ∈ l.dest :: l.sources, r.InPool ∨ r = .a0) ∧ .a0 ∉ l.sources ∧
        ∀ rd rs imm, l = .addi rd rs imm → -2048 ≤ imm.toInt ∧ imm.toInt ≤ 2047) ∧
    ∃ new, (attemptAll (code ++ [i])).lines.toList = (attemptAll code).lines.toList ++ new ∧
      ∀ l ∈ new, l.dest = .a0 → ∃ value, i = .ret value := by
  have hsound := sound_attemptAll (code ++ [i])
  refine ⟨fun v r r' hr hr' => hsound.distinct hr hr', fun r hr => hsound.noScratch ⟨r, hr⟩,
    fun name r more hr => locate?_attemptAll_append hr more, hsound.bound_le, hsound.peak_le,
    fun l hl => ?_, ?_⟩
  · obtain ⟨j, -, hproper⟩ := exists_proper_of_mem_lines _ l hl
    refine ⟨fun r hr => ?_, fun ha0 => ?_, hproper.small⟩
    · rcases List.mem_cons.mp hr with rfl | hr
      · exact hproper.dest.imp_right And.left
      · exact .inl (hproper.sources r hr)
    · obtain ⟨k, hk⟩ := hproper.sources _ ha0
      cases hk
  · obtain ⟨new, hlines, hproper⟩ := (sound_attemptAll code).lines_attempt i
    refine ⟨new, by rw [attemptAll_concat, hlines], fun l hl ha0 => ?_⟩
    rcases (hproper l hl).dest with ⟨k, hk⟩ | ⟨-, hret⟩
    · rw [ha0] at hk
      cases hk
    · exact hret

end StraightLine
