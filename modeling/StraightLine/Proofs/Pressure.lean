import Mathlib
import StraightLine.Proofs.Agreement
import StraightLine.Proofs.EventStream
import StraightLine.Proofs.RegisterDiscipline

/-!
# How many registers code needs

Whether the generator runs out of registers can be told from the code without running the generator.
In the middle of an instruction there is a register for every name so far, one for every temporary
that has been written and not used up before, and perhaps one for a number. This is the `pressure`
of the instruction, and the generator fails if and only if it is more than seven somewhere.

That needs code in which temporaries are in order. A temporary that is read must still be there, or
reading it would take a register anew; one that is written must not have been used up before. The
code of a program is of this kind as long as its temporaries are all different.

## Main definitions

* `namedVars`, `writtenTemps`, `usedUp` — what happened to variables in code
* `pressure` — how many registers are taken at once in an instruction
* `Disciplined` — temporaries are written, then used up, and not seen again

## Main results

* `Emission.Orderly.disciplined` — the code of any events is disciplined
* `Generator.Tracks.done`, `Generator.Tracks.stuck` — one instruction needs what its pressure says
* `Generator.tracks_or_stuck` — so does all of the code
* `registers_needed` — what follows for the code of a source
-/

namespace StraightLine

/-! ## Counting variables -/

/-- The names in code. -/
def namedVars (code : List Instr) : Finset Var :=
  ((code.flatMap Instr.vars).filter fun v => !v.isTemp).toFinset

/-- The temporaries that code writes. -/
def writtenTemps (code : List Instr) : Finset Var :=
  ((code.filterMap Instr.dest?).filter Var.isTemp).toFinset

/-- What `mov` and operators read in code. -/
def usedUp (code : List Instr) : Finset Var :=
  (code.flatMap Instr.consumed).toFinset

/-- How many registers are taken at once in instruction `k`: one for every name up to it, one for
every temporary that has been written and not used up before, and one for a number that needs it. -/
def pressure (code : List Instr) (k : Nat) : Nat :=
  (namedVars (code.take (k + 1))).card +
    (writtenTemps (code.take (k + 1)) \ usedUp (code.take k)).card +
    (code[k]?.any Instr.needsScratch).toNat

variable {code before after : List Instr} {i : Instr} {v : Var} {k : Nat}

theorem mem_namedVars : v ∈ namedVars code ↔ v.isTemp = false ∧ ∃ i ∈ code, v ∈ i.vars := by
  simp [namedVars, and_comm]

theorem mem_writtenTemps :
    v ∈ writtenTemps code ↔ v.isTemp = true ∧ ∃ i ∈ code, i.dest? = some v := by
  simp [writtenTemps, and_comm]

theorem mem_usedUp : v ∈ usedUp code ↔ ∃ i ∈ code, v ∈ i.consumed := by
  simp [usedUp]

theorem mem_namedVars_concat :
    v ∈ namedVars (before ++ [i]) ↔ v ∈ namedVars before ∨ v.isTemp = false ∧ v ∈ i.vars := by
  simp [mem_namedVars, or_and_right, exists_or, and_or_left]

theorem mem_writtenTemps_concat :
    v ∈ writtenTemps (before ++ [i]) ↔
      v ∈ writtenTemps before ∨ v.isTemp = true ∧ i.dest? = some v := by
  simp [mem_writtenTemps, or_and_right, exists_or, and_or_left]

theorem mem_usedUp_concat : v ∈ usedUp (before ++ [i]) ↔ v ∈ usedUp before ∨ v ∈ i.consumed := by
  simp [mem_usedUp, or_and_right, exists_or]

/-- The pressure of an instruction does not depend on what follows. -/
theorem pressure_append (hk : k < before.length) :
    pressure (before ++ after) k = pressure before k := by
  rw [pressure, pressure, List.take_append_of_le_length hk, List.take_append_of_le_length hk.le,
    List.getElem?_append_left hk]

/-- Everybody who has a register behind code. -/
def occupants (code : List Instr) : Finset Var :=
  namedVars code ∪ (writtenTemps code \ usedUp code)

/-- Everybody who has a register in the middle of an instruction. -/
def crowd (before : List Instr) (i : Instr) : Finset Var :=
  namedVars (before ++ [i]) ∪ (writtenTemps (before ++ [i]) \ usedUp before)

/-- The pressure of the last instruction counts the crowd. -/
theorem pressure_concat (before : List Instr) (i : Instr) :
    pressure (before ++ [i]) before.length = (crowd before i).card + i.needsScratch.toNat := by
  have hdisjoint : Disjoint (namedVars (before ++ [i]))
      (writtenTemps (before ++ [i]) \ usedUp before) := by
    rw [Finset.disjoint_left]
    intro v hv hv'
    have hname := (mem_namedVars.mp hv).1
    have htemp := (mem_writtenTemps.mp (Finset.mem_sdiff.mp hv').1).1
    rw [hname] at htemp
    cases htemp
  have htake : (before ++ [i]).take (before.length + 1) = before ++ [i] := by
    rw [List.take_of_length_le (by simp)]
  rw [pressure, crowd, Finset.card_union_of_disjoint hdisjoint, htake]
  simp

/-! ## Temporaries in order -/

/-- The next instruction finds the temporaries that it reads, and none of those in it has been used
up. -/
structure InTurn (before : List Instr) (i : Instr) : Prop where
  /-- What is read of temporaries has been written. -/
  written : ∀ v ∈ i.reads, v.isTemp = true → v ∈ writtenTemps before
  /-- What is mentioned of temporaries has not been used up. -/
  unused : ∀ v ∈ i.vars, v.isTemp = true → v ∉ usedUp before

/-- Every instruction comes in turn. -/
def Disciplined (code : List Instr) : Prop :=
  ∀ before i after, code = before ++ i :: after → InTurn before i

theorem Disciplined.append_left (h : Disciplined (before ++ after)) : Disciplined before := by
  rintro front j back rfl
  exact h front j (back ++ after) (by simp)

theorem mem_occupants :
    v ∈ occupants code ↔ v ∈ namedVars code ∨ v ∈ writtenTemps code ∧ v ∉ usedUp code := by
  rw [occupants, Finset.mem_union, Finset.mem_sdiff]

/-- The variables of an instruction join those who have registers. -/
theorem InTurn.mem_crowd (h : InTurn before i) :
    v ∈ crowd before i ↔ v ∈ occupants before ∨ v ∈ i.vars := by
  rw [crowd, Finset.mem_union, Finset.mem_sdiff, mem_occupants, mem_namedVars_concat,
    mem_writtenTemps_concat]
  cases hv : v.isTemp with
  | false => simp [mem_writtenTemps, hv]
  | true =>
    have hname : v ∉ namedVars before := fun hmem => by simp [mem_namedVars, hv] at hmem
    simp only [hname, Bool.true_eq_false, false_and, false_or, true_and]
    constructor
    · rintro ⟨hwritten | hdest, hunused⟩
      · exact .inl ⟨hwritten, hunused⟩
      · exact .inr (Instr.mem_vars.mpr (.inr hdest))
    · rintro (⟨hwritten, hunused⟩ | hvars)
      · exact ⟨.inl hwritten, hunused⟩
      · refine ⟨?_, h.unused v hvars hv⟩
        exact (Instr.mem_vars.mp hvars).imp_left fun hread => h.written v hread hv

/-- Those who are used up leave. -/
theorem mem_occupants_concat :
    v ∈ occupants (before ++ [i]) ↔ v ∈ crowd before i ∧ ¬ (v.isTemp = true ∧ v ∈ i.consumed) := by
  rw [mem_occupants, crowd, Finset.mem_union, Finset.mem_sdiff, mem_usedUp_concat]
  cases hv : v.isTemp with
  | false => simp [mem_writtenTemps, hv]
  | true =>
    simp only [mem_namedVars, hv]
    tauto

/-! ## Following the generator -/

namespace Generator

variable {g g' : Generator}

/-- The generator behind code: the registers are those of the occupants, and the peak is that of the
pressure. -/
structure Tracks (code : List Instr) (g : Generator) : Prop where
  /-- The registers are in order. -/
  sound : Sound g
  /-- Exactly the occupants have registers. -/
  houses : ∀ v, g.registers.Houses (.var v) ↔ v ∈ occupants code
  /-- The peak is the highest pressure. -/
  peak : g.peak = (Finset.range code.length).sup (pressure code)

theorem tracks_start : Tracks [] {} where
  sound := sound_start
  houses v := by
    constructor
    · rintro ⟨r, hr⟩
      rw [RegisterFile.resident?_empty] at hr
      cases hr
    · intro hv
      cases hv
  peak := rfl

/-- The highest pressure goes up to that of the last instruction. -/
theorem sup_pressure_concat (before : List Instr) (i : Instr) :
    (Finset.range (before ++ [i]).length).sup (pressure (before ++ [i])) =
      max ((Finset.range before.length).sup (pressure before))
        ((crowd before i).card + i.needsScratch.toNat) := by
  have hlen : (before ++ [i]).length = before.length + 1 := by simp
  have hbefore : (Finset.range before.length).sup (pressure (before ++ [i])) =
      (Finset.range before.length).sup (pressure before) :=
    Finset.sup_congr rfl fun k hk => pressure_append (Finset.mem_range.mp hk)
  rw [hlen, Finset.range_add_one, Finset.sup_insert, hbefore, pressure_concat]
  exact max_comm _ _

/-- Exactly the temporaries that were freed have gone. -/
theorem Released.houses_iff {vs : List Var} {mid : Generator} (h : Released vs mid g) :
    g.registers.Houses (.var v) ↔ mid.registers.Houses (.var v) ∧ ¬ (v.isTemp = true ∧ v ∈ vs) := by
  constructor
  · rintro ⟨r, hr⟩
    obtain ⟨hmid, hne⟩ := (h.resident r _).mp hr
    exact ⟨⟨r, hmid⟩, fun ⟨htemp, hv⟩ => hne v hv htemp rfl⟩
  · rintro ⟨⟨r, hr⟩, hv⟩
    refine ⟨r, (h.resident r _).mpr ⟨hr, fun w hw htemp heq => hv ?_⟩⟩
    obtain rfl := Resident.var.inj heq
    exact ⟨htemp, hw⟩

/-- **An instruction that is lowered** had room for its pressure. -/
theorem Tracks.done (h : Tracks before g) (hturn : InTurn before i) (hdone : Done i g g') :
    Tracks (before ++ [i]) g' ∧ pressure (before ++ [i]) before.length ≤ poolSize := by
  have hsound := hdone.sound h.sound.peak_le
  obtain ⟨mid, hmid, hreleased⟩ := hdone
  have hcrowd : ∀ v, v ∈ crowd before i ↔ mid.registers.Houses (.var v) := by
    intro v
    rw [hturn.mem_crowd, hmid.houses, h.houses]
  have hbound : mid.registers.bound = (crowd before i).card :=
    RegisterFile.bound_eq_card hmid.distinct hmid.noScratch hcrowd
  refine ⟨⟨hsound, fun v => ?_, ?_⟩, ?_⟩
  · rw [mem_occupants_concat, hcrowd]
    exact hreleased.houses_iff
  · rw [sup_pressure_concat, hreleased.peak, hmid.peak, h.peak, hbound]
  · rw [pressure_concat, ← hbound]
    exact hmid.room

/-- **An instruction that is not lowered** had none. -/
theorem Tracks.stuck (h : Tracks before g) (hturn : InTurn before i) (hstuck : Stuck i g g') :
    poolSize < pressure (before ++ [i]) before.length := by
  obtain ⟨held, hheld, hworking, hfull, hlacking⟩ := hstuck
  have hset : ∀ v, v ∈ occupants before ∪ held.toFinset ↔ g'.registers.Houses (.var v) := by
    intro v
    rw [Finset.mem_union, List.mem_toFinset, hworking.houses, h.houses]
  have hcard : poolSize = (occupants before ∪ held.toFinset).card := by
    rw [← hfull]
    exact RegisterFile.bound_eq_card hworking.distinct hworking.noScratch hset
  have hsub : occupants before ∪ held.toFinset ⊆ crowd before i := by
    intro v hv
    rw [Finset.mem_union, List.mem_toFinset] at hv
    exact hturn.mem_crowd.mpr (hv.imp_right fun hv => hheld hv)
  rw [pressure_concat]
  rcases hlacking with ⟨v, hv, hnot⟩ | ⟨rfl, hscratch⟩
  · -- somebody in the crowd has no register
    have hssub : occupants before ∪ held.toFinset ⊂ crowd before i := by
      refine Finset.ssubset_iff_subset_ne.mpr ⟨hsub, fun heq => hnot ?_⟩
      rw [← hset, heq]
      exact hturn.mem_crowd.mpr (.inr hv)
    have hlt := Finset.card_lt_card hssub
    omega
  · have hle := Finset.card_le_card hsub
    rw [hscratch, Bool.toNat_true]
    omega

theorem run_lowerAll_concat (before : List Instr) (i : Instr) (g : Generator) :
    (lowerAll (before ++ [i])).run g = (do lowerAll before; lower i).run g := by
  induction before generalizing g with
  | nil =>
    change (do lower i; lowerAll []).run g = (lower i).run g
    rw [Action.run_bind]
    rcases (lower i).run g with ⟨_ | ⟨⟩, g'⟩ <;> rfl
  | cons j before ih =>
    rw [List.cons_append, lowerAll, lowerAll]
    rcases h : (lower j).run g with ⟨err | ⟨⟩, g'⟩
    · rw [Action.run_bind_of_error h, Action.run_bind_of_error (Action.run_bind_of_error h _)]
    · rw [Action.run_bind_of_ok h, ih, Action.run_bind, Action.run_bind, Action.run_bind_of_ok h]

/-- **All of the code** needs what the pressure says: it is lowered and no pressure is too high, or
it is not and one is. -/
theorem tracks_or_stuck (h : Disciplined code) :
    (∃ g, (lowerAll code).run {} = (.ok (), g) ∧ Tracks code g ∧
      ∀ k < code.length, pressure code k ≤ poolSize) ∨
    ∃ e g, (lowerAll code).run {} = (.error e, g) ∧
      ∃ k < code.length, poolSize < pressure code k := by
  induction code using List.reverseRecOn with
  | nil => exact .inl ⟨{}, rfl, tracks_start, by simp⟩
  | append_singleton before i ih =>
    have hturn : InTurn before i := h before i [] rfl
    rcases ih h.append_left with ⟨g, hrun, htracks, hlow⟩ | ⟨e, g, hrun, k, hk, hhigh⟩
    · obtain ⟨hok, herror⟩ := lower_ends htracks.sound i
      rw [run_lowerAll_concat, Action.run_bind_of_ok hrun]
      have hlast : before.length < (before ++ [i]).length := by simp
      rcases hlower : (lower i).run g with ⟨e | ⟨⟩, g'⟩
      · exact .inr ⟨e, g', rfl, before.length, hlast, htracks.stuck hturn (herror e g' hlower)⟩
      · obtain ⟨htracks', hlow'⟩ := htracks.done hturn (hok () g' hlower)
        refine .inl ⟨g', rfl, htracks', fun k hk => ?_⟩
        rw [List.length_append, List.length_singleton, Nat.lt_succ_iff_lt_or_eq] at hk
        rcases hk with hk | rfl
        · rw [pressure_append hk]
          exact hlow k hk
        · exact hlow'
    · have hk' : k < (before ++ [i]).length := by
        rw [List.length_append]
        omega
      refine .inr ⟨e, g, ?_, k, hk', by rwa [pressure_append hk]⟩
      rw [run_lowerAll_concat, Action.run_bind_of_error hrun]

end Generator

/-- The generator runs out of registers exactly if the pressure is too high somewhere. -/
theorem Disciplined.generate_error_iff (h : Disciplined code) :
    (∃ who, generate code = .error (.outOfRegisters who)) ↔
      ∃ k < code.length, poolSize < pressure code k := by
  rcases Generator.tracks_or_stuck h with ⟨g, hrun, -, hlow⟩ | ⟨⟨who⟩, g, hrun, hhigh⟩
  · constructor
    · rintro ⟨who, herror⟩
      rw [generate, hrun] at herror
      cases herror
    · rintro ⟨k, hk, hhigh⟩
      exact absurd (hlow k hk) (Nat.not_le.mpr hhigh)
  · exact ⟨fun _ => hhigh, fun _ => ⟨who, by rw [generate, hrun]⟩⟩

/-- Where it does not, registers and peak are those of the occupants and the pressure. -/
theorem Disciplined.tracks (h : Disciplined code) {asm : List AsmLine}
    (hgen : generate code = .ok asm) : Generator.Tracks code (generatorAfter code) := by
  obtain ⟨hlower, -⟩ := generate_eq_ok.mp hgen
  rcases Generator.tracks_or_stuck h with ⟨g, hrun, htracks, -⟩ | ⟨e, g, hrun, -⟩
  · rwa [generatorAfter, hrun]
  · rw [hrun] at hlower
    cases hlower

/-! ## The code of a source -/

namespace Emission.Orderly

variable {x : Emission} {j : Instr}

/-- What has been read is not read again. -/
theorem not_read_again (h : x.Orderly) (hfew : x.operators < 2 ^ 32)
    (hsplit : x.code = before ++ i :: after) (htemp : v.isTemp = true) (hj : j ∈ before)
    (hread : v ∈ j.reads) : v ∉ i.reads := by
  intro hagain
  cases v with
  | named name => cases htemp
  | temp id =>
    have hle := h.count_reads_le hfew id
    have hbefore : 0 < (before.flatMap Instr.reads).count (.temp id) :=
      List.count_pos_iff.mpr (List.mem_flatMap_of_mem hj hread)
    have hi : 0 < i.reads.count (.temp id) := List.count_pos_iff.mpr hagain
    rw [hsplit, List.flatMap_append, List.flatMap_cons, List.count_append, List.count_append] at hle
    omega

/-- What has been read is not written again: it was written before, and once. -/
theorem not_written_again (h : x.Orderly) (hfew : x.operators < 2 ^ 32)
    (hsplit : x.code = before ++ i :: after) (htemp : v.isTemp = true) (hj : j ∈ before)
    (hread : v ∈ j.reads) : i.dest? ≠ some v := by
  intro hdest
  obtain ⟨front, back, rfl⟩ := List.append_of_mem hj
  obtain ⟨w, hw, hwarith, hwdest⟩ :=
    h.written front j (back ++ i :: after) (by simpa using hsplit) v hread htemp
  have hiarith : i.isArith = true := by
    by_contra hi
    have hfalse := h.unshared i (by simp [hsplit]) (by simpa using hi) v hdest
    rw [htemp] at hfalse
    cases hfalse
  have hnodup : ((x.code.filter Instr.isArith).map Instr.dest?).Nodup := by
    rw [h.numbered]
    exact (nodup_tempRange hfew.le).map (Option.some_injective _)
  rw [hsplit, List.filter_append, List.map_append, List.nodup_append] at hnodup
  refine hnodup.2.2 (some v) ?_ (some v) ?_ rfl
  · exact List.mem_map.mpr ⟨w, by simp [hw, hwarith], hwdest⟩
  · exact List.mem_map.mpr ⟨i, by simp [hiarith], hdest⟩

end Emission.Orderly

/-- The code of events is disciplined, as long as its temporaries are all different. -/
theorem Emission.Orderly.disciplined {x : Emission} (h : x.Orderly) (hfew : x.operators < 2 ^ 32) :
    Disciplined x.code := by
  intro before i after hsplit
  refine ⟨fun v hv htemp => ?_, fun v hv htemp hused => ?_⟩
  · obtain ⟨w, hw, -, hdest⟩ := h.written before i after hsplit v hv htemp
    exact mem_writtenTemps.mpr ⟨htemp, w, hw, hdest⟩
  · obtain ⟨j, hj, hconsumed⟩ := mem_usedUp.mp hused
    have hread : v ∈ j.reads := Instr.mem_reads_of_mem_consumed hconsumed
    rcases Instr.mem_vars.mp hv with hagain | hdest
    · exact h.not_read_again hfew hsplit htemp hj hread hagain
    · exact h.not_written_again hfew hsplit htemp hj hread hdest

/-- Behind a parse, as many temporaries have been read as there are operators. -/
theorem Emission.Settled.length_tempReads {x : Emission} (h : x.Settled []) :
    (tempReads x.code).length = x.operators := by
  rw [← h.ledger_eq, h.balanced.length_eq, length_tempRange, Nat.sub_zero]

/-- An analysis that was refused nothing is orderly, and behind a parse it is settled. -/
theorem orderly_of_deliver {a a' : Analysis} {es : List Event} (h : a.emission.Orderly)
    (hrun : (analyst.deliver es).run a = (.ok (), a')) :
    a'.emission.Orderly ∧ ∀ ss ss', Event.FitAll es ss ss' → a.emission.Settled ss →
      a'.emission.Settled ss' := by
  induction es generalizing a with
  | nil =>
    obtain ⟨-, rfl⟩ := Action.run_pure_eq_ok.mp hrun
    refine ⟨h, fun ss ss' hfit hsettled => ?_⟩
    cases hfit
    exact hsettled
  | cons e es ih =>
    obtain ⟨⟨⟩, b, hnotify, hrest⟩ := Action.run_bind_eq_ok.mp hrun
    obtain ⟨c, hc, hcode⟩ := exists_codeEmitter_of_analyst hnotify
    obtain ⟨-, hstep⟩ := (codeEmitter_ends e c).1 () b hcode
    rw [hc] at hstep
    obtain ⟨horder, hsettle⟩ := ih (hstep.orderly h) hrest
    refine ⟨horder, fun ss ss' hfit hsettled => ?_⟩
    cases hfit with
    | cons first others => exact hsettle _ _ others (hstep.settled h first hsettled)

/-- The code of a source is disciplined, if there are not too many operators. -/
theorem disciplined_of_source {source : String} {given symbols : SymbolTable} {tokens : List Token}
    {a : Analysis} (hlex : tokenize source given = (.ok tokens, symbols))
    (hparse : analyse tokens symbols = (.ok (), a))
    (hfew : tokens.countP Token.isOperator < 2 ^ 32) : Disciplined a.code.toList := by
  obtain ⟨p, rfl⟩ := exists_program_of_source hlex hparse
  obtain ⟨-, hcode⟩ := p.code_of_analyse hparse
  rw [analyse, parse, Reading.run_parseFrom_eq_ok] at hparse
  obtain ⟨hdeliver, houtcome⟩ := hparse
  have hstart : (Analysis.fresh symbols).emission.Orderly := Emission.orderly_start
  obtain ⟨horder, hsettle⟩ := orderly_of_deliver hstart hdeliver
  obtain ⟨ss, hfit, hss⟩ :=
    Reading.fitAll_eventsFrom (ε := SemanticError) Reading.start (p.tokens ++ [.eof])
  obtain rfl := hss houtcome
  have hsettled := hsettle [] [] hfit Emission.settled_start
  -- every temporary is read once, so counting reads counts operators
  have hlength : a.emission.operators = p.tokens.countP Token.isOperator := by
    obtain ⟨-, hperm⟩ := Statement.perm_tempReads_list 0 p.statements
    have hreads : (tempReads a.code.toList).length = p.tokens.countP Token.isOperator := by
      rw [hcode, Program.code, hperm.length_eq, length_tempRange, Statement.listNext_eq]
      simp [Program.tokens]
    rw [← hreads]
    exact hsettled.length_tempReads.symm
  refine horder.disciplined ?_
  rw [hlength]
  simpa [Token.isOperator] using hfew

/-- **The registers that a source needs.** Let a source with fewer than `2 ^ 32` operators be read
and analysed without a failure. The generator runs out of registers on its code exactly if the
pressure of some instruction is more than seven. Otherwise the most registers ever taken at once are
the highest pressure, and behind every instruction the registers are those of the names so far and
of the temporaries that have been written and not used up. -/
theorem registers_needed {source : String} {symbols : SymbolTable} {tokens : List Token}
    {a : Analysis} (hlex : tokenize source .empty = (.ok tokens, symbols))
    (hparse : analyse tokens symbols = (.ok (), a))
    (hfew : tokens.countP Token.isOperator < 2 ^ 32) :
    ((∃ who, generate a.code.toList = .error (.outOfRegisters who)) ↔
      ∃ k < a.code.toList.length, 7 < pressure a.code.toList k) ∧
    ∀ asm, generate a.code.toList = .ok asm →
      (generatorAfter a.code.toList).peak =
        (Finset.range a.code.toList.length).sup (pressure a.code.toList) ∧
      ∀ k < a.code.toList.length, ∀ who,
        (generatorAfter (a.code.toList.take (k + 1))).registers.Houses who ↔
          ∃ v, who = .var v ∧ (v ∈ namedVars (a.code.toList.take (k + 1)) ∨
            v ∈ writtenTemps (a.code.toList.take (k + 1)) ∧
              v ∉ usedUp (a.code.toList.take (k + 1))) := by
  have hcode := disciplined_of_source hlex hparse hfew
  refine ⟨hcode.generate_error_iff, fun asm hgen => ⟨(hcode.tracks hgen).peak, fun k hk who => ?_⟩⟩
  rw [← List.take_append_drop (k + 1) a.code.toList] at hcode hgen
  obtain ⟨asm', -, hgen', -⟩ := generate_append_eq_ok hgen
  have htracks := hcode.append_left.tracks hgen'
  constructor
  · intro hwho
    cases who with
    | scratch => exact absurd hwho htracks.sound.noScratch
    | var v => exact ⟨v, rfl, mem_occupants.mp ((htracks.houses v).mp hwho)⟩
  · rintro ⟨v, rfl, hv⟩
    exact (htracks.houses v).mpr (mem_occupants.mpr hv)

/-- In `return a * 5 - (b - 5000);` five registers are needed at once: the two names, the product,
the difference in parentheses and the number that is too large for twelve bits. -/
theorem registers_needed_difference :
    ∃ tokens symbols a asm, tokenize "return a * 5 - (b - 5000);" .empty = (.ok tokens, symbols) ∧
      analyse tokens symbols = (.ok (), a) ∧ tokens.countP Token.isOperator < 2 ^ 32 ∧
      generate a.code.toList = .ok asm ∧ (generatorAfter a.code.toList).peak = 5 := by
  have hparts : (compile "return a * 5 - (b - 5000);").map
      (fun c => (c.code, c.tokens.countP Token.isOperator)) =
      .ok ([.arith .mul (.temp 0) (.var (.named "a")) (.imm 5),
        .arith .sub (.temp 1) (.var (.named "b")) (.imm 5000),
        .arith .sub (.temp 2) (.var (.temp 0)) (.var (.temp 1)), .ret (.var (.temp 2))], 3) := by
    decide +kernel
  rcases hcompile : compile "return a * 5 - (b - 5000);" with err | c
  · rw [hcompile] at hparts
    cases hparts
  rw [hcompile] at hparts
  obtain ⟨hcode, hcount⟩ := Prod.mk.inj (Except.ok.inj hparts)
  obtain ⟨hlex, ⟨a, hparse, hcode'⟩, hgen⟩ := compile_eq_ok hcompile
  have hfew : c.tokens.countP Token.isOperator < 2 ^ 32 := by
    rw [hcount]
    decide
  rw [hcode'] at hcode hgen
  have hpeak := ((registers_needed hlex hparse hfew).2 _ hgen).1
  refine ⟨_, _, a, _, hlex, hparse, hfew, hgen, ?_⟩
  rw [hpeak, hcode]
  decide +kernel

end StraightLine
