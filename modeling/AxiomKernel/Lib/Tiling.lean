import Mathlib

/-!
# Tilings of an interval

A family of intervals, each given by its start and its size, tiles `[lo, hi)` when no two of them
meet and together they are `[lo, hi)`. Equal cells in a row tile, an index may be renamed, and two
tilings that follow one another make one.
-/
namespace Tiling

variable {ι κ : Type*}

def In (start size : ι → Nat) (i : ι) (x : Nat) : Prop := start i ≤ x ∧ x < start i + size i

structure Tiles (start size : ι → Nat) (lo hi : Nat) : Prop where
  disjoint : ∀ i j x, In start size i x → In start size j x → i = j
  covers : ∀ x, lo ≤ x ∧ x < hi ↔ ∃ i, In start size i x

theorem tiles_row (ba cell n : Nat) :
    Tiles (fun k : Fin n => ba + k * cell) (fun _ => cell) ba (ba + n * cell) := by
  refine ⟨?_, ?_⟩
  · rintro ⟨i, hi⟩ ⟨j, hj⟩ x ⟨hi₁, hi₂⟩ ⟨hj₁, hj₂⟩
    have hlt : ∀ a b : Nat, ba + a * cell ≤ x → x < ba + b * cell + cell → a < b + 1 := by
      intro a b ha hb
      have : a * cell < (b + 1) * cell := by
        rw [Nat.add_one_mul]
        omega
      exact Nat.lt_of_mul_lt_mul_right this
    have h₁ := hlt i j hi₁ hj₂
    have h₂ := hlt j i hj₁ hi₂
    exact Fin.ext (show i = j by omega)
  · intro x
    constructor
    · rintro ⟨hl, hh⟩
      have hc : 0 < cell := by
        rcases Nat.eq_zero_or_pos cell with h | h
        · simp [h] at hh
          omega
        · exact h
      have hx : (x - ba) / cell < n := by
        rw [Nat.div_lt_iff_lt_mul hc]
        omega
      have hdiv := Nat.div_add_mod' (x - ba) cell
      have hmod := Nat.mod_lt (x - ba) hc
      refine ⟨⟨(x - ba) / cell, hx⟩, ?_, ?_⟩
      · change ba + (x - ba) / cell * cell ≤ x
        omega
      · change x < ba + (x - ba) / cell * cell + cell
        omega
    · rintro ⟨⟨k, hk⟩, hl, hh⟩
      have hk' : (k + 1) * cell ≤ n * cell := Nat.mul_le_mul_right _ hk
      rw [Nat.add_one_mul] at hk'
      have hl : ba + k * cell ≤ x := hl
      have hh : x < ba + k * cell + cell := hh
      omega

lemma Tiles.comp {st si : ι → Nat} {lo hi : Nat} (h : Tiles st si lo hi) (e : κ ≃ ι) :
    Tiles (st ∘ e) (si ∘ e) lo hi := by
  refine ⟨fun i j x hi hj => e.injective (h.disjoint _ _ x hi hj), fun x => ?_⟩
  rw [h.covers x]
  constructor
  · rintro ⟨i, hi⟩
    refine ⟨e.symm i, ?_⟩
    rw [In, Function.comp_apply, Function.comp_apply, e.apply_symm_apply]
    exact hi
  · rintro ⟨i, hi⟩
    exact ⟨e i, hi⟩

lemma Tiles.sum {st si : ι → Nat} {st' si' : κ → Nat} {lo mid hi : Nat}
    (h : Tiles st si lo mid) (h' : Tiles st' si' mid hi) (hl : lo ≤ mid)
    (hh : mid ≤ hi) : Tiles (Sum.elim st st') (Sum.elim si si') lo hi := by
  refine ⟨?_, ?_⟩
  · rintro (i | i) (j | j) x hi hj
    · rw [h.disjoint i j x hi hj]
    · have := (h.covers x).2 ⟨i, hi⟩
      have := (h'.covers x).2 ⟨j, hj⟩
      omega
    · have := (h'.covers x).2 ⟨i, hi⟩
      have := (h.covers x).2 ⟨j, hj⟩
      omega
    · rw [h'.disjoint i j x hi hj]
  · intro x
    constructor
    · rintro ⟨hx₁, hx₂⟩
      by_cases hx : x < mid
      · obtain ⟨i, hi⟩ := (h.covers x).1 ⟨hx₁, hx⟩
        exact ⟨.inl i, hi⟩
      · obtain ⟨i, hi⟩ := (h'.covers x).1 ⟨by omega, hx₂⟩
        exact ⟨.inr i, hi⟩
    · rintro ⟨i | i, hi⟩
      · have := (h.covers x).2 ⟨i, hi⟩
        omega
      · have := (h'.covers x).2 ⟨i, hi⟩
        omega

theorem tiles_rows (b ce rs cs : Nat) : Tiles (fun i : Fin rs × Fin cs => b + (i.1 * cs + i.2) * ce)
      (fun _ => ce) b (b + rs * cs * ce) := by
  have h := (tiles_row b ce (rs * cs)).comp finProdFinEquiv
  have hs : (fun i : Fin rs × Fin cs => b + (i.1 * cs + i.2) * ce) =
      (fun k : Fin (rs * cs) => b + k * ce) ∘ finProdFinEquiv := by
    funext ⟨i, j⟩
    simp [finProdFinEquiv, Nat.add_comm, Nat.mul_comm cs]
  rw [hs]
  exact h

end Tiling
