import Mathlib

/-! `resident_suffix_begin`: the pages for which attention addresses the ring of hot pages
directly, without the checked page reader. -/
namespace AxiomKernel.Qwen38.MixedKv

variable (current slots : UInt32) (pageIds : UInt32 → UInt32)

lemma toNat_pred {page : UInt32} (positive : page ≠ 0) : (page - 1).toNat + 1 = page.toNat := by
  have lower : 1 ≤ page.toNat := Nat.pos_of_ne_zero fun zero => positive (UInt32.toNat_inj.mp zero)
  rw [UInt32.toNat_sub_of_le page 1 lower]
  exact Nat.sub_add_cancel lower

/-- The `while` loop, on `begin`. -/
def suffixLoop (start : UInt32) : UInt32 :=
  if start ≠ 0 ∧ current - start + 1 < slots ∧ pageIds ((start - 1) % slots) = start - 1 then
    suffixLoop (start - 1)
  else start
termination_by start.toNat
decreasing_by
  rename_i step
  rw [← toNat_pred step.1]
  exact Nat.lt_succ_self _

/-- A null `page_ids` is `none`. -/
def residentSuffixBegin : Option (UInt32 → UInt32) → UInt32
  | none => current + 1
  | some pageIds =>
    if slots = 0 ∨ pageIds (current % slots) ≠ current then current + 1
    else suffixLoop current slots pageIds current

/-- Every page from `start` to the current one is among the last `slots` pages and stands in
the ring under its own identity. -/
def Resident (start : UInt32) : Prop :=
  current.toNat + 1 - slots.toNat ≤ start.toNat ∧ start.toNat ≤ current.toNat + 1 ∧
    ∀ page, start ≤ page → page ≤ current → pageIds (page % slots) = page

variable {current slots pageIds}

lemma toNat_span {start : UInt32} (fits : current.toNat < 2 ^ 32 - 1)
    (le : start.toNat ≤ current.toNat + 1) :
    (current - start + 1).toNat = current.toNat + 1 - start.toNat := by
  have := start.toNat_lt
  simp only [UInt32.toNat_add, UInt32.toNat_sub, UInt32.toNat_one]
  omega

lemma suffixLoop_isLeast (fits : current.toNat < 2 ^ 32 - 1) (start : UInt32)
    (resident : Resident current slots pageIds start) :
    IsLeast {b | Resident current slots pageIds b} (suffixLoop current slots pageIds start) := by
  fun_induction suffixLoop current slots pageIds start with
  | case1 start step ih =>
    obtain ⟨positive, inside, own⟩ := step
    obtain ⟨window, le, others⟩ := resident
    have pred := toNat_pred positive
    rw [UInt32.lt_iff_toNat_lt, toNat_span fits le] at inside
    apply ih
    refine ⟨by omega, by omega, ?_⟩
    intro page low high
    rcases eq_or_ne page (start - 1) with rfl | other
    · exact own
    · apply others page _ high
      rw [UInt32.le_iff_toNat_le] at low ⊢
      rw [ne_eq, ← UInt32.toNat_inj] at other
      omega
  | case2 start stop =>
    refine ⟨resident, ?_⟩
    intro b ⟨window, _, others⟩
    by_contra below
    rw [UInt32.not_le, UInt32.lt_iff_toNat_lt] at below
    have le := resident.2.1
    -- with a smaller begin the loop would have gone on
    apply stop
    have positive : start ≠ 0 := by
      rintro rfl
      exact absurd below (Nat.not_lt_zero _)
    have pred := toNat_pred positive
    refine ⟨positive, ?_, ?_⟩
    · rw [UInt32.lt_iff_toNat_lt, toNat_span fits le]
      omega
    · apply others <;> rw [UInt32.le_iff_toNat_le] <;> omega

/-- The check of the current page is the loop's check one page on. -/
lemma suffixLoop_next (fits : current + 1 ≠ 0) : suffixLoop current slots pageIds (current + 1) =
    residentSuffixBegin current slots (some pageIds) := by
  have outside : current - (current + 1) + 1 = 0 := by grind
  rw [suffixLoop, residentSuffixBegin, outside, UInt32.add_sub_cancel, ← ite_not]
  simp [fits, UInt32.pos_iff_ne_zero, or_iff_not_imp_left]

theorem residentSuffixBegin_isLeast (current slots : UInt32) (pageIds : UInt32 → UInt32)
    (fits : current.toNat < 2 ^ 32 - 1) :
    IsLeast {b | Resident current slots pageIds b}
      (residentSuffixBegin current slots (some pageIds)) ∧
    ((slots = 0 ∨ pageIds (current % slots) ≠ current) →
      residentSuffixBegin current slots (some pageIds) = current + 1) ∧
    residentSuffixBegin current slots none = current + 1 := by
  have next : (current + 1).toNat = current.toNat + 1 := by
    simp only [UInt32.toNat_add, UInt32.toNat_one]
    omega
  refine ⟨?_, fun out => if_pos out, rfl⟩
  rw [← suffixLoop_next fun zero => by simp [zero] at next]
  apply suffixLoop_isLeast fits
  refine ⟨by omega, by omega, ?_⟩
  intro page low high
  rw [UInt32.le_iff_toNat_le] at low high
  omega

theorem residentSuffixBegin_full : (5 : UInt32).toNat < 2 ^ 32 - 1 ∧
    IsLeast {b | Resident 5 3 (· + 3) b} (residentSuffixBegin 5 3 (some (· + 3))) :=
  ⟨by decide, (residentSuffixBegin_isLeast 5 3 _ (by decide)).1⟩

end AxiomKernel.Qwen38.MixedKv
