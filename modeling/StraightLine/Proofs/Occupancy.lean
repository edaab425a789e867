import Mathlib
import StraightLine.Proofs.RegisterFile

/-!
# How many registers are taken

A register file counts the registers that are taken, not the residents. The two numbers are the same
as long as nobody resides in two registers. Then the count is the size of the set of residents, and
whether a register is free is a question about that set.

## Main definitions

* `RegisterFile.Houses` — somebody resides in some register
* `RegisterFile.Distinct` — nobody resides in two registers
* `RegisterFile.Keeps` — everybody stays where they are
* `RegisterFile.residents` — everybody who resides in a register, from `t0` on

## Main results

* `RegisterFile.allocate?_eq_none_iff`, `RegisterFile.hasFree_eq_isSome` — there is no register to
  take exactly if all are counted
* `RegisterFile.bound_allocate?`, `RegisterFile.release_of_allocate?` — one more register is taken,
  and freeing it undoes that
* `RegisterFile.bound_eq_card` — the count is the size of the set of residents
-/

namespace StraightLine

namespace RegisterFile

variable {f f' : RegisterFile} {who w : Resident} {v : Var} {r r' : Register}

/-- Somebody resides in some register. -/
def Houses (f : RegisterFile) (who : Resident) : Prop :=
  ∃ r, f.resident? r = some who

/-- Nobody resides in two registers. -/
def Distinct (f : RegisterFile) : Prop :=
  ∀ ⦃who r r'⦄, f.resident? r = some who → f.resident? r' = some who → r = r'

/-- Everybody who resides in a register of `f` resides in the same register of `f'`. -/
def Keeps (f f' : RegisterFile) : Prop :=
  ∀ ⦃who r⦄, f.resident? r = some who → f'.resident? r = some who

theorem Keeps.refl (f : RegisterFile) : f.Keeps f :=
  fun _ _ h => h

theorem Keeps.trans {f f' f'' : RegisterFile} (h : f.Keeps f') (h' : f'.Keeps f'') : f.Keeps f'' :=
  fun _ _ hr => h' (h hr)

theorem resident?_empty (r : Register) : empty.resident? r = none := by
  cases r with
  | t number =>
    rw [resident?, Register.slot?]
    split
    · simp [empty]
    · rfl
  | a0 => rfl

/-! ## Places, when nobody has two -/

theorem locate?_eq_none_iff_not_houses : f.locate? v = none ↔ ¬ f.Houses (.var v) := by
  rw [locate?_eq_none_iff, Houses, not_exists]

/-- A variable that resides nowhere else is located where it resides. -/
theorem Distinct.locate?_eq_some_iff (h : f.Distinct) :
    f.locate? v = some r ↔ f.resident? r = some (.var v) := by
  constructor
  · exact resident?_of_locate?
  · intro hr
    rcases hloc : f.locate? v with _ | r'
    · exact absurd hr (locate?_eq_none_iff.mp hloc r)
    · rw [h (resident?_of_locate? hloc) hr]

/-! ## Taking and freeing -/

theorem keeps_allocate? (h : f.allocate? who = some (r, f')) : f.Keeps f' := by
  intro w r' hr'
  obtain ⟨-, -, hfree, -⟩ := allocate?_spec h
  have hne : r' ≠ r := by
    rintro rfl
    rw [hfree] at hr'
    cases hr'
  rw [resident?_allocate? h, if_neg hne, hr']

theorem houses_allocate? (h : f.allocate? who = some (r, f')) :
    f'.Houses w ↔ f.Houses w ∨ w = who := by
  constructor
  · rintro ⟨r', hr'⟩
    rw [resident?_allocate? h] at hr'
    split at hr'
    · exact .inr (Option.some.inj hr').symm
    · exact .inl ⟨r', hr'⟩
  · rintro (⟨r', hr'⟩ | rfl)
    · exact ⟨r', keeps_allocate? h hr'⟩
    · exact ⟨r, by rw [resident?_allocate? h, if_pos rfl]⟩

/-- Whoever takes a register for the first time does not have two afterwards. -/
theorem Distinct.allocate? (hf : f.Distinct) (h : f.allocate? who = some (r, f'))
    (hwho : ¬ f.Houses who) : f'.Distinct := by
  intro w r₁ r₂ h₁ h₂
  rw [resident?_allocate? h] at h₁ h₂
  split at h₁ <;> split at h₂
  · next e₁ e₂ => rw [e₁, e₂]
  · cases h₁
    exact absurd ⟨r₂, h₂⟩ hwho
  · cases h₂
    exact absurd ⟨r₁, h₁⟩ hwho
  · exact hf h₁ h₂

/-- Freeing the register that was just taken undoes the taking. -/
theorem release_of_allocate? (h : f.allocate? who = some (r, f')) : f'.release r = f := by
  refine eq_of_resident?_eq fun r' => ?_
  rw [resident?_release, resident?_allocate? h]
  split
  · next heq =>
    obtain ⟨-, -, hfree, -⟩ := allocate?_spec h
    rw [heq, hfree]
  · rfl

/-! ## Counting -/

/-- Everybody who resides in a register, from `t0` on. -/
def residents (f : RegisterFile) : List Resident :=
  f.slots.toList.reduceOption

theorem mem_residents : who ∈ f.residents ↔ f.Houses who := by
  rw [residents, List.reduceOption_mem_iff, Vector.mem_toList_iff, Vector.mem_iff_getElem]
  constructor
  · rintro ⟨i, hi, hslot⟩
    exact ⟨.t i, by rw [← hslot]; exact resident?_t f ⟨i, hi⟩⟩
  · rintro ⟨r, hr⟩
    obtain ⟨i, rfl⟩ := exists_eq_t_of_resident? hr
    rw [resident?_t] at hr
    exact ⟨i, i.isLt, hr⟩

theorem length_residents (f : RegisterFile) : f.residents.length = f.bound := by
  rw [residents, List.reduceOption_length_eq, bound, ← Vector.countP_toList,
    List.countP_eq_length_filter]

theorem Distinct.nodup_residents (h : f.Distinct) : f.residents.Nodup := by
  rw [residents, List.reduceOption, List.Nodup, List.pairwise_filterMap,
    List.pairwise_iff_getElem]
  intro i j hi hj hij who hwho who' hwho' heq
  simp only [Vector.length_toList] at hi hj
  -- the same resident in the registers of two places
  have hregisters : Register.t i = .t j := by
    refine @h who _ _ ?_ ?_
    · rw [resident?_t f ⟨i, hi⟩]
      exact hwho
    · rw [resident?_t f ⟨j, hj⟩, heq]
      exact hwho'
  have hplaces := Register.t.inj hregisters
  omega

theorem bound_le_poolSize (f : RegisterFile) : f.bound ≤ poolSize :=
  Vector.countP_le_size

/-- There is no register to take exactly if all are taken. -/
theorem allocate?_eq_none_iff : f.allocate? who = none ↔ f.bound = poolSize := by
  have hfind : f.allocate? who = none ↔ f.slots.findFinIdx? Option.isNone = none := by
    rw [RegisterFile.allocate?]
    split <;> simp_all
  rw [hfind, Vector.findFinIdx?_eq_none_iff, bound, Vector.countP_eq_size]
  simp [Option.isSome_iff_ne_none]

/-- **The count and the search agree**: the file says that a register is free exactly if there is
one to take. -/
theorem hasFree_eq_isSome (f : RegisterFile) (who : Resident) :
    f.hasFree = (f.allocate? who).isSome := by
  rw [Bool.eq_iff_iff, hasFree, decide_eq_true_eq, f.bound_le_poolSize.lt_iff_ne,
    Option.isSome_iff_ne_none, ← (@allocate?_eq_none_iff f who).ne]

/-- Taking a register takes one more. -/
theorem bound_allocate? (h : f.allocate? who = some (r, f')) : f'.bound = f.bound + 1 := by
  rw [RegisterFile.allocate?] at h
  split at h
  · next i hi =>
    cases h
    have hnone : f.slots.get i = none :=
      Option.isNone_iff_eq_none.mp (findFinIdx?_vector_eq_some_iff.mp hi).1
    have hslot : f.slots[(i : Nat)] = none := hnone
    rw [bound, Vector.countP_set, hslot]
    simp [bound]
  · cases h

/-- Fewer residents take fewer registers. -/
theorem Distinct.bound_le (h : f.Distinct) (hsub : ∀ w, f.Houses w → f'.Houses w) :
    f.bound ≤ f'.bound := by
  have hsubset : f.residents ⊆ f'.residents := fun w hw =>
    mem_residents.mpr (hsub w (mem_residents.mp hw))
  rw [← length_residents, ← length_residents]
  exact (List.subperm_of_subset h.nodup_residents hsubset).length_le

/-- **The count is the size of the set of residents**, if nobody has two registers and only
variables have one. -/
theorem bound_eq_card (h : f.Distinct) (hscratch : ¬ f.Houses .scratch) {s : Finset Var}
    (hs : ∀ v, v ∈ s ↔ f.Houses (.var v)) : f.bound = s.card := by
  have hinj : Function.Injective Resident.var := fun _ _ => Resident.var.inj
  have hset : f.residents.toFinset = s.map ⟨Resident.var, hinj⟩ := by
    ext who
    rw [List.mem_toFinset, mem_residents, Finset.mem_map]
    constructor
    · intro hwho
      cases who with
      | var v => exact ⟨v, (hs v).mpr hwho, rfl⟩
      | scratch => exact absurd hwho hscratch
    · rintro ⟨v, hv, rfl⟩
      exact (hs v).mp hv
  rw [← length_residents, ← List.toFinset_card_of_nodup h.nodup_residents, hset,
    Finset.card_map]

end RegisterFile

end StraightLine
