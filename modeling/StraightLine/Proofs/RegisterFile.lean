import Mathlib
import StraightLine.Assembly.RegisterFile

/-!
# Where variables are, and what moves them

The register file is searched from `t0` upward, both for a variable and for a free register. This
module says what the two searches find, in terms of who resides in which register, and from that
what taking and freeing a register does to the place of a variable: taking a register moves nobody
who has one, freeing a register moves nobody who is in another.

No invariant of the file is assumed. A file in which a variable resides twice is possible here, and
what is said about the first of its registers holds there too.

## Main results

* `RegisterFile.resident?_allocate?`, `RegisterFile.resident?_release` — one register changes hands
* `RegisterFile.locate?_eq_some_iff`, `RegisterFile.allocate?_spec` — what the searches find
* `RegisterFile.locate?_injective` — two variables are never in one register
* `RegisterFile.locate?_of_allocate?`, `RegisterFile.locate?_allocate?_self` — taking a register
* `RegisterFile.locate?_release_of_ne` — freeing a register
-/

namespace StraightLine

/-- A search through a vector finds the first place where the condition holds. -/
theorem findFinIdx?_vector_eq_some_iff {α : Type} {n : Nat} {xs : Vector α n} {p : α → Bool}
    {i : Fin n} : xs.findFinIdx? p = some i ↔ p (xs.get i) ∧ ∀ j < i, ¬ p (xs.get j) := by
  rcases xs with ⟨xs, rfl⟩
  rw [Vector.findFinIdx?_mk, Option.map_eq_some_iff]
  constructor
  · rintro ⟨i', hi', rfl⟩
    obtain ⟨hp, hbefore⟩ := Array.findFinIdx?_eq_some_iff.mp hi'
    exact ⟨hp, fun j hj => hbefore j hj⟩
  · rintro ⟨hp, hbefore⟩
    exact ⟨i, Array.findFinIdx?_eq_some_iff.mpr ⟨hp, fun j hj => hbefore j hj⟩, rfl⟩

namespace RegisterFile

variable {f f' : RegisterFile} {who : Resident} {v w : Var} {r r' : Register}

/-! ## Residents -/

theorem resident?_t (f : RegisterFile) (i : Fin poolSize) :
    f.resident? (.t i) = f.slots.get i := by
  simp [resident?, Register.slot?, Vector.get]

/-- A file is determined by who resides where. -/
theorem eq_of_resident?_eq (h : ∀ r, f.resident? r = f'.resident? r) : f = f' := by
  have hslots : f.slots = f'.slots := by
    refine Vector.ext fun i hi => ?_
    have hi' := h (.t i)
    rwa [resident?_t f ⟨i, hi⟩, resident?_t f' ⟨i, hi⟩] at hi'
  cases f
  cases f'
  congr

/-- Only registers of the pool have residents. -/
theorem exists_eq_t_of_resident? (h : f.resident? r = some who) :
    ∃ i : Fin poolSize, r = .t i := by
  cases r with
  | t number =>
    rw [resident?, Register.slot?] at h
    split at h
    · next hlt => exact ⟨⟨number, hlt⟩, rfl⟩
    · cases h
  | a0 => cases h

/-- Who is where after the slot of one register has been given a new content. -/
theorem resident?_set (i : Fin poolSize) (x : Option Resident) (r : Register) :
    (⟨f.slots.set i x i.isLt⟩ : RegisterFile).resident? r =
      if r = .t i then x else f.resident? r := by
  cases r with
  | t number =>
    rw [resident?, resident?, Register.slot?]
    split
    · next hlt =>
      simp only [Option.bind_some, Fin.getElem_fin, Vector.getElem_set, Register.t.injEq, eq_comm]
    · next hge =>
      have hne : number ≠ i := fun h => hge (h ▸ i.isLt)
      simp [hne]
  | a0 => rfl

/-- Taking a register takes the first free one. -/
theorem allocate?_spec (h : f.allocate? who = some (r, f')) : ∃ i : Fin poolSize, r = .t i ∧
    f.resident? r = none ∧ ∀ j < i, f.resident? (.t j) ≠ none := by
  rw [allocate?] at h
  split at h
  · next i hi =>
    cases h
    obtain ⟨hp, hbefore⟩ := findFinIdx?_vector_eq_some_iff.mp hi
    refine ⟨i, rfl, ?_, fun j hj => ?_⟩
    · rw [resident?_t]
      exact Option.isNone_iff_eq_none.mp hp
    · rw [resident?_t]
      exact fun hc => hbefore j hj (Option.isNone_iff_eq_none.mpr hc)
  · cases h

/-- The register that is taken has the new resident, and no other register changes hands. -/
theorem resident?_allocate? (h : f.allocate? who = some (r, f')) (r' : Register) :
    f'.resident? r' = if r' = r then some who else f.resident? r' := by
  rw [allocate?] at h
  split at h
  · cases h
    exact resident?_set ..
  · cases h

/-- The register that is freed has no resident, and no other register changes hands. -/
theorem resident?_release (f : RegisterFile) (r r' : Register) :
    (f.release r).resident? r' = if r' = r then none else f.resident? r' := by
  cases r with
  | t number =>
    rw [release, Register.slot?]
    split
    · next i hi =>
      split at hi
      · next hlt =>
        cases hi
        exact resident?_set ..
      · cases hi
    · next hi =>
      split at hi
      · cases hi
      · next hge =>
        split
        · next heq => simp [heq, resident?, Register.slot?, hge]
        · rfl
  | a0 =>
    have hrelease : f.release .a0 = f := rfl
    rw [hrelease]
    split
    · next heq => rw [heq]; rfl
    · rfl

/-! ## Places of variables -/

/-- A variable is located in the first register that it resides in. -/
theorem locate?_eq_some_iff : f.locate? v = some r ↔ ∃ i : Fin poolSize, r = .t i ∧
    f.resident? r = some (.var v) ∧ ∀ j < i, f.resident? (.t j) ≠ some (.var v) := by
  rw [locate?]
  constructor
  · intro h
    split at h
    · next i hi =>
      cases h
      obtain ⟨hp, hbefore⟩ := findFinIdx?_vector_eq_some_iff.mp hi
      refine ⟨i, rfl, ?_, fun j hj => ?_⟩
      · rw [resident?_t]
        exact beq_iff_eq.mp hp
      · rw [resident?_t]
        exact fun hc => hbefore j hj (beq_iff_eq.mpr hc)
    · cases h
  · rintro ⟨i, rfl, hi, hbefore⟩
    have hfind : f.slots.findFinIdx? (· == some (.var v)) = some i := by
      refine findFinIdx?_vector_eq_some_iff.mpr ⟨?_, fun j hj hc => hbefore j hj ?_⟩
      · rw [beq_iff_eq, ← resident?_t, hi]
      · rw [resident?_t, beq_iff_eq.mp hc]
    rw [hfind]

/-- A variable is located nowhere exactly if it resides nowhere. -/
theorem locate?_eq_none_iff : f.locate? v = none ↔ ∀ r, f.resident? r ≠ some (.var v) := by
  constructor
  · intro h r hr
    rw [locate?] at h
    split at h
    · cases h
    · next hnone =>
      obtain ⟨i, rfl⟩ := exists_eq_t_of_resident? hr
      rw [resident?_t] at hr
      have hall := Vector.findFinIdx?_eq_none_iff.mp hnone (f.slots.get i)
        (Vector.getElem_mem i.isLt)
      exact hall (beq_iff_eq.mpr hr)
  · intro h
    rcases hloc : f.locate? v with _ | r
    · rfl
    · obtain ⟨i, -, hi, -⟩ := locate?_eq_some_iff.mp hloc
      exact absurd hi (h r)

theorem resident?_of_locate? (h : f.locate? v = some r) : f.resident? r = some (.var v) := by
  obtain ⟨i, -, hi, -⟩ := locate?_eq_some_iff.mp h
  exact hi

theorem locate?_ne_a0 (h : f.locate? v = some r) : r ≠ .a0 := by
  obtain ⟨i, rfl, -⟩ := locate?_eq_some_iff.mp h
  simp

/-- Two variables are never in one register. -/
theorem locate?_injective (hv : f.locate? v = some r) (hw : f.locate? w = some r) : v = w := by
  have h := (resident?_of_locate? hv).symm.trans (resident?_of_locate? hw)
  simpa using h

/-- A variable stays located where it is if it keeps that register and gets none before it. -/
theorem locate?_of_resident? (hw : f.locate? w = some r) (hr : f'.resident? r = f.resident? r)
    (hbefore : ∀ r', f'.resident? r' = some (.var w) → f.resident? r' = some (.var w)) :
    f'.locate? w = some r := by
  obtain ⟨i, rfl, hi, hfirst⟩ := locate?_eq_some_iff.mp hw
  exact locate?_eq_some_iff.mpr ⟨i, rfl, hr.trans hi, fun j hj hc => hfirst j hj (hbefore _ hc)⟩

/-- Taking a register moves nobody else, and the register that is taken was nobody's. -/
theorem locate?_of_allocate? (h : f.allocate? who = some (r, f')) (hwho : who ≠ .var w)
    (hw : f.locate? w = some r') : f'.locate? w = some r' ∧ r' ≠ r := by
  obtain ⟨i, -, hfree, -⟩ := allocate?_spec h
  have hne : r' ≠ r := by
    rintro rfl
    rw [resident?_of_locate? hw] at hfree
    cases hfree
  refine ⟨locate?_of_resident? hw ?_ fun s hs => ?_, hne⟩
  · rw [resident?_allocate? h, if_neg hne]
  · rw [resident?_allocate? h] at hs
    split at hs
    · exact absurd (Option.some.inj hs) hwho
    · exact hs

/-- A variable that had no register is in the one that was taken for it. -/
theorem locate?_allocate?_self (h : f.allocate? (.var v) = some (r, f'))
    (hnone : f.locate? v = none) : f'.locate? v = some r := by
  obtain ⟨i, rfl, -, -⟩ := allocate?_spec h
  refine locate?_eq_some_iff.mpr ⟨i, rfl, by rw [resident?_allocate? h, if_pos rfl],
    fun j hj => ?_⟩
  have hne : Register.t j ≠ .t i := by simp [Fin.val_inj, ne_of_lt hj]
  rw [resident?_allocate? h, if_neg hne]
  exact locate?_eq_none_iff.mp hnone _

/-- Freeing a register moves nobody who is in another. -/
theorem locate?_release_of_ne (hw : f.locate? w = some r') (hne : r ≠ r') :
    (f.release r).locate? w = some r' := by
  refine locate?_of_resident? hw ?_ fun s hs => ?_
  · rw [resident?_release, if_neg hne.symm]
  · rw [resident?_release] at hs
    split at hs
    · cases hs
    · exact hs

end RegisterFile

end StraightLine
