import Mathlib
import StraightLine.Proofs.Occupancy

/-!
# A register file behind any history

Registers are taken and freed in any order. The same resident may take several, and a register may
be freed that is free already, that is not in the pool, or that is `a0`. Whether one is free is
asked by counting those that are taken; which one is given is found by searching. This module says
that the count and the search agree whatever has happened before, and what each request leaves.

No more than one register changes hands at a request. `RegisterFile.resident?_apply` says what a
single request does to a register, and `RegisterFile.resident?_afterRequests`, by induction on the
history, who is where in the end: whoever was given the register, if it was not freed since.

## Main definitions

* `Register.IsLowest` — the register with the lowest number among those with a property
* `RegisterFile.taken`, `RegisterFile.Free` — the registers with and without a resident
* `RegisterFile.Request`, `RegisterFile.afterRequests` — requests, and the file behind them
* `RegisterFile.Granted` — a history gives a register to somebody and leaves it to them

## Main results

* `RegisterFile.bound_eq_ncard_taken`, `RegisterFile.allocates_tfae` — what the count says
* `RegisterFile.isLowest_of_allocate?`, `RegisterFile.locate?_eq_some_iff_isLowest` — what the
  searches find
* `RegisterFile.release_release`, `RegisterFile.bound_release` — what freeing a register does
* `RegisterFile.resident?_afterRequests` — who is where behind a history
* `registers_of_requests` — all of it
-/

namespace StraightLine

/-- The register with the lowest number among those with a property. -/
def Register.IsLowest (p : Register → Prop) (r : Register) : Prop :=
  ∃ n, r = .t n ∧ IsLeast {n | p (.t n)} n

/-- If only registers of the pool have the property, the lowest is the first of the pool. -/
theorem Register.isLowest_iff {p : Register → Prop} {r : Register}
    (hpool : ∀ r, p r → ∃ i : Fin poolSize, r = .t i) :
    r.IsLowest p ↔ ∃ i : Fin poolSize, r = .t i ∧ p r ∧ ∀ j < i, ¬ p (.t j) := by
  constructor
  · rintro ⟨n, rfl, hn, hleast⟩
    obtain ⟨i, hi⟩ := hpool _ hn
    cases hi
    exact ⟨i, rfl, hn, fun j hj hp => absurd (hleast hp) (by simpa using hj)⟩
  · rintro ⟨i, rfl, hi, hbefore⟩
    refine ⟨i, rfl, hi, fun n hn => ?_⟩
    obtain ⟨j, hj⟩ := hpool _ hn
    cases hj
    exact not_lt.mp fun hlt => hbefore j hlt hn

namespace RegisterFile

variable {f f' : RegisterFile} {who : Resident} {v : Var} {r : Register}

/-! ## Counting and searching -/

/-- The registers that somebody resides in. -/
def taken (f : RegisterFile) : Set Register :=
  {r | f.resident? r ≠ none}

/-- The register is in the pool, and nobody resides in it. -/
def Free (f : RegisterFile) (r : Register) : Prop :=
  (∃ i : Fin poolSize, r = .t i) ∧ f.resident? r = none

theorem taken_eq_image (f : RegisterFile) : f.taken =
    ((Finset.univ.filter fun i => (f.slots.get i).isSome = true).image
      fun i : Fin poolSize => Register.t i : Finset Register) := by
  ext r
  rw [taken, Set.mem_ofPred_eq, Finset.mem_coe, Finset.mem_image, Option.ne_none_iff_exists']
  constructor
  · rintro ⟨who, hr⟩
    obtain ⟨i, rfl⟩ := exists_eq_t_of_resident? hr
    rw [resident?_t] at hr
    exact ⟨i, by simp [hr], rfl⟩
  · rintro ⟨i, hi, rfl⟩
    rw [resident?_t]
    exact Option.isSome_iff_exists.mp (Finset.mem_filter.mp hi).2

theorem finite_taken (f : RegisterFile) : f.taken.Finite := by
  rw [taken_eq_image]
  exact Finset.finite_toSet _

/-- The count is the number of registers that are taken, also if somebody takes several. -/
theorem bound_eq_ncard_taken (f : RegisterFile) : f.bound = f.taken.ncard := by
  have hinj : Function.Injective fun i : Fin poolSize => Register.t i := fun i j h =>
    Fin.ext (Register.t.inj h)
  have hslots : f.slots.toList = (List.finRange poolSize).map f.slots.get := by
    refine List.ext_getElem (by simp) fun i hi hi' => ?_
    simp [Vector.get]
  rw [taken_eq_image, Set.ncard_coe_finset, Finset.card_image_of_injective _ hinj,
    ← List.toFinset_finRange, (List.nodup_finRange poolSize).card_eq_countP, bound,
    ← Vector.countP_toList, hslots, List.countP_map]
  simp only [Bool.decide_eq_true, Function.comp_def]

/-- All registers are counted exactly if none is free. -/
theorem bound_eq_poolSize_iff : f.bound = poolSize ↔ ∀ r, ¬ f.Free r := by
  rw [bound, Vector.countP_eq_size]
  constructor
  · rintro hall r ⟨⟨i, rfl⟩, hfree⟩
    rw [resident?_t] at hfree
    have hsome := hall (f.slots.get i) (Vector.getElem_mem i.isLt)
    rw [hfree] at hsome
    cases hsome
  · intro hnone x hx
    obtain ⟨i, hi, rfl⟩ := Vector.mem_iff_getElem.mp hx
    refine Option.isSome_iff_ne_none.mpr fun hfree => hnone (.t i) ⟨⟨⟨i, hi⟩, rfl⟩, ?_⟩
    exact (resident?_t f ⟨i, hi⟩).trans hfree

/-- There is a register to give exactly if the count leaves one, and exactly if one is free. -/
theorem allocates_tfae (f : RegisterFile) (who : Resident) :
    [∃ r f', f.allocate? who = some (r, f'), f.hasFree = true, f.bound < poolSize,
      ∃ r, f.Free r].TFAE := by
  tfae_have 1 ↔ 2 := by
    rw [f.hasFree_eq_isSome who, Option.isSome_iff_exists, Prod.exists]
  tfae_have 2 ↔ 3 := by rw [hasFree, decide_eq_true_eq]
  tfae_have 3 ↔ 4 := by
    rw [f.bound_le_poolSize.lt_iff_ne, Ne, bound_eq_poolSize_iff, not_forall_not]
  tfae_finish

theorem allocate?_eq_none_of_hasFree (who : Resident) (h : f.hasFree = false) :
    f.allocate? who = none := by
  rwa [f.hasFree_eq_isSome who, Option.isSome_eq_false_iff, Option.isNone_iff_eq_none] at h

theorem isLowest_of_allocate? (h : f.allocate? who = some (r, f')) : r.IsLowest f.Free := by
  obtain ⟨i, rfl, hfree, hbefore⟩ := allocate?_spec h
  exact (Register.isLowest_iff fun r hr => hr.1).mpr
    ⟨i, rfl, ⟨⟨i, rfl⟩, hfree⟩, fun j hj hp => hbefore j hj hp.2⟩

theorem locate?_eq_some_iff_isLowest :
    f.locate? v = some r ↔ r.IsLowest fun r => f.resident? r = some (.var v) := by
  rw [locate?_eq_some_iff, Register.isLowest_iff fun r hr => exists_eq_t_of_resident? hr]

/-! ## Freeing a register -/

/-- Freeing a register that is free, or that is not in the pool, changes nothing. -/
theorem release_of_resident?_eq_none (h : f.resident? r = none) : f.release r = f := by
  refine eq_of_resident?_eq fun r' => ?_
  rw [resident?_release]
  split
  · next heq => rw [heq, h]
  · rfl

theorem release_release (f : RegisterFile) (r : Register) :
    (f.release r).release r = f.release r := by
  refine release_of_resident?_eq_none ?_
  rw [resident?_release, if_pos rfl]

theorem taken_release (f : RegisterFile) (r : Register) : (f.release r).taken = f.taken \ {r} := by
  ext r'
  rw [Set.mem_sdiff, Set.mem_singleton_iff, taken, taken, Set.mem_ofPred_eq, Set.mem_ofPred_eq,
    resident?_release]
  by_cases hr : r' = r <;> simp [hr]

/-- Freeing a register that is taken leaves one less. -/
theorem bound_release (h : f.resident? r ≠ none) : (f.release r).bound + 1 = f.bound := by
  rw [bound_eq_ncard_taken, bound_eq_ncard_taken, taken_release]
  exact Set.ncard_sdiff_singleton_add_one h f.finite_taken

/-! ## Histories -/

/-- What a register file can be asked to do. -/
inductive Request where
  /-- Give the lowest free register to a resident. -/
  | allocate (who : Resident)
  /-- Free a register. -/
  | release (r : Register)

/-- The file behind a request. It stays as it is if there is no register to give. -/
def Request.apply (f : RegisterFile) : Request → RegisterFile
  | .allocate who =>
    match f.allocate? who with
    | some (_, f') => f'
    | none => f
  | .release r => f.release r

/-- The file behind a history of requests, which begins with every register free. -/
def afterRequests (history : List Request) : RegisterFile :=
  history.foldl Request.apply empty

/-- The register was given to the resident and has not been freed since. -/
def Granted (history : List Request) (r : Register) (who : Resident) : Prop :=
  ∃ front back, history = front ++ Request.allocate who :: back ∧
    (∃ f', (afterRequests front).allocate? who = some (r, f')) ∧ Request.release r ∉ back

variable {history : List Request} {e : Request}

theorem afterRequests_concat (history : List Request) (e : Request) :
    afterRequests (history ++ [e]) = e.apply (afterRequests history) := by
  rw [afterRequests, List.foldl_append]
  rfl

theorem apply_allocate_of_some (h : f.allocate? who = some (r, f')) :
    (Request.allocate who).apply f = f' := by
  simp only [Request.apply, h]

theorem apply_allocate_of_none (h : f.allocate? who = none) :
    (Request.allocate who).apply f = f := by
  simp only [Request.apply, h]

/-- **One request.** Who is in a register behind it was there before and the register is not freed,
or is given the register now. -/
theorem resident?_apply : (e.apply f).resident? r = some who ↔
    f.resident? r = some who ∧ e ≠ .release r ∨
      e = .allocate who ∧ ∃ f', f.allocate? who = some (r, f') := by
  cases e with
  | release r' =>
    rw [Request.apply, resident?_release]
    by_cases hr : r = r'
    · simp [hr]
    · simp [hr, Ne.symm hr]
  | allocate w =>
    rcases hallocate : f.allocate? w with _ | ⟨r', f'⟩
    · rw [apply_allocate_of_none hallocate]
      constructor
      · exact fun hr => .inl ⟨hr, by simp⟩
      · rintro (⟨hr, -⟩ | ⟨he, f', hf'⟩)
        · exact hr
        · cases he
          rw [hallocate] at hf'
          cases hf'
    · rw [apply_allocate_of_some hallocate]
      constructor
      · intro hr
        rw [resident?_allocate? hallocate] at hr
        split at hr
        · next heq =>
          cases hr
          exact .inr ⟨rfl, f', by rw [heq, hallocate]⟩
        · exact .inl ⟨hr, by simp⟩
      · rintro (⟨hr, -⟩ | ⟨he, f'', hf''⟩)
        · -- the register that is given was free, so nobody loses theirs
          exact keeps_allocate? hallocate hr
        · cases he
          rw [hallocate] at hf''
          cases hf''
          rw [resident?_allocate? hallocate, if_pos rfl]

/-- The same of a history with one more request. -/
theorem granted_concat : Granted (history ++ [e]) r who ↔
    Granted history r who ∧ e ≠ .release r ∨
      e = .allocate who ∧ ∃ f', (afterRequests history).allocate? who = some (r, f') := by
  constructor
  · rintro ⟨front, back, hhistory, hgives, hkept⟩
    -- the last request either gives the register or comes later
    rcases List.eq_nil_or_concat back with rfl | ⟨back, e', rfl⟩
    · obtain ⟨rfl, he⟩ := List.append_inj' hhistory rfl
      exact .inr ⟨List.singleton_inj.mp he, hgives⟩
    · rw [List.concat_eq_append, ← List.cons_append, ← List.append_assoc] at hhistory
      obtain ⟨rfl, he⟩ := List.append_inj' hhistory rfl
      cases he
      simp only [List.concat_eq_append, List.mem_append, List.mem_singleton, not_or] at hkept
      exact .inl ⟨⟨front, back, rfl, hgives, hkept.1⟩, Ne.symm hkept.2⟩
  · rintro (⟨⟨front, back, rfl, hgives, hkept⟩, he⟩ | ⟨rfl, hgives⟩)
    · refine ⟨front, back ++ [e], by simp, hgives, ?_⟩
      simp [hkept, Ne.symm he]
    · exact ⟨history, [], rfl, hgives, by simp⟩

/-- **Who is where behind a history**: whoever was given the register, if it was not freed since. -/
theorem resident?_afterRequests :
    (afterRequests history).resident? r = some who ↔ Granted history r who := by
  induction history using List.reverseRecOn with
  | nil =>
    rw [afterRequests, List.foldl_nil, resident?_empty]
    simp [Granted]
  | append_singleton history e ih =>
    rw [afterRequests_concat, resident?_apply, granted_concat, ih]

end RegisterFile

open RegisterFile

/-- **A register file behind any history of requests.** A register is given exactly if the file says
that one is free, that is if less than seven are counted, that is if one is free. It is the lowest
free one; then one more is counted, and only that register changes hands. If none is free, asking
for a register changes nothing. Freeing a register frees that one and no other, and to do it twice
is to do it once; nothing changes if the register was free or is not in the pool. A variable is
located in the lowest register that it resides in, nowhere if there is none, and never in one that
holds a number. Somebody is in a register exactly if they were given it and it was not freed
since. -/
theorem registers_of_requests (history : List Request) :
    (∀ who, [∃ r f', (afterRequests history).allocate? who = some (r, f'),
      (afterRequests history).hasFree = true, (afterRequests history).bound < 7,
      ∃ r, (afterRequests history).Free r].TFAE) ∧
    (afterRequests history).bound = (afterRequests history).taken.ncard ∧
    (∀ who r f', (afterRequests history).allocate? who = some (r, f') →
      r.IsLowest (afterRequests history).Free ∧ f'.bound = (afterRequests history).bound + 1 ∧
        (∀ r', f'.resident? r' =
          if r' = r then some who else (afterRequests history).resident? r') ∧
        afterRequests (history ++ [Request.allocate who]) = f') ∧
    (∀ who, (afterRequests history).hasFree = false →
      (afterRequests history).allocate? who = none ∧
        afterRequests (history ++ [Request.allocate who]) = afterRequests history) ∧
    (∀ r r', (afterRequests (history ++ [Request.release r])).resident? r' =
      if r' = r then none else (afterRequests history).resident? r') ∧
    (∀ r, afterRequests (history ++ [Request.release r, .release r]) =
      afterRequests (history ++ [Request.release r])) ∧
    (∀ r, (afterRequests history).resident? r = none →
      afterRequests (history ++ [Request.release r]) = afterRequests history) ∧
    (∀ r, (afterRequests history).resident? r ≠ none → (∃ n < 7, r = .t n) ∧
      (afterRequests (history ++ [Request.release r])).bound + 1 = (afterRequests history).bound) ∧
    (∀ v r, (afterRequests history).locate? v = some r ↔
      r.IsLowest fun r => (afterRequests history).resident? r = some (.var v)) ∧
    (∀ v, (afterRequests history).locate? v = none ↔
      ∀ r, (afterRequests history).resident? r ≠ some (.var v)) ∧
    (∀ v r, (afterRequests history).locate? v = some r →
      (afterRequests history).resident? r = some (.var v)) ∧
    (∀ r, (afterRequests history).resident? r = some .scratch →
      ∀ v, (afterRequests history).locate? v ≠ some r) ∧
    ∀ r who, (afterRequests history).resident? r = some who ↔ Granted history r who := by
  refine ⟨fun who => allocates_tfae _ who, bound_eq_ncard_taken _, fun who r f' h => ?_,
    fun who hfull => ?_, fun r r' => ?_, fun r => ?_, fun r hr => ?_, fun r hr => ⟨?_, ?_⟩,
    fun v r => locate?_eq_some_iff_isLowest, fun v => locate?_eq_none_iff,
    fun v r => resident?_of_locate?, fun r hr v hv => ?_, fun r who => resident?_afterRequests⟩
  · refine ⟨isLowest_of_allocate? h, bound_allocate? h, resident?_allocate? h, ?_⟩
    rw [afterRequests_concat, apply_allocate_of_some h]
  · have hnone := allocate?_eq_none_of_hasFree who hfull
    exact ⟨hnone, by rw [afterRequests_concat, apply_allocate_of_none hnone]⟩
  · rw [afterRequests_concat, Request.apply, resident?_release]
  · rw [← List.singleton_append, ← List.append_assoc, afterRequests_concat, afterRequests_concat]
    exact release_release _ r
  · rw [afterRequests_concat]
    exact release_of_resident?_eq_none hr
  · obtain ⟨who, hwho⟩ := Option.ne_none_iff_exists'.mp hr
    obtain ⟨i, rfl⟩ := exists_eq_t_of_resident? hwho
    exact ⟨i, i.isLt, rfl⟩
  · rw [afterRequests_concat]
    exact bound_release hr
  · rw [resident?_of_locate? hv] at hr
    cases hr

/-- One variable takes two registers, the first of them is freed, and then two that are not in the
pool. -/
def sharedHistory : List Request :=
  [.allocate (.var (.named "x")), .allocate (.var (.named "y")), .allocate (.var (.named "x")),
    .release (.t 0), .release .a0, .release (.t 9)]

/-- The variable with two registers is located in the one that was not freed, and the other is the
next to be given. With all seven registers taken by one variable, asking once more changes
nothing. -/
theorem registers_of_requests_shared :
    (∃ f', (afterRequests sharedHistory).allocate? .scratch = some (.t 0, f') ∧ f'.bound = 3 ∧
      f'.resident? (.t 2) = some (.var (.named "x"))) ∧
    (afterRequests sharedHistory).locate? (.named "x") = some (.t 2) ∧
    afterRequests (List.replicate 8 (.allocate (.var (.named "x")))) =
      afterRequests (List.replicate 7 (.allocate (.var (.named "x")))) := by
  obtain ⟨hfree, -, hallocate, -⟩ := registers_of_requests sharedHistory
  obtain ⟨-, -, -, hfull, -⟩ :=
    registers_of_requests (List.replicate 7 (.allocate (.var (.named "x"))))
  refine ⟨?_, by decide +kernel, (hfull (.var (.named "x")) (by decide +kernel)).2⟩
  obtain ⟨r, f', hgiven⟩ := ((hfree .scratch).out 0 1).mpr (by decide +kernel)
  obtain ⟨-, hbound, hresident, -⟩ := hallocate .scratch r f' hgiven
  have hfirst : ((afterRequests sharedHistory).allocate? .scratch).map Prod.fst = some (.t 0) := by
    decide +kernel
  rw [hgiven] at hfirst
  obtain rfl : r = .t 0 := Option.some.inj hfirst
  refine ⟨f', hgiven, ?_, ?_⟩
  · rw [hbound]
    decide +kernel
  · rw [hresident]
    decide +kernel

end StraightLine
