import Mathlib.Data.List.Basic

/-!
# The first occurrence of a word in a text

`find needle text` is where `needle` first stands in `text`. It depends on the text only up to the
end of that occurrence, so it may be looked for in the beginning of a text as it arrives.
-/
namespace Search

open List Option

variable {α : Type*} [DecidableEq α]

def find (needle : List α) : List α → Option Nat
  | [] => if needle.isEmpty then some 0 else none
  | a :: text =>
    if needle.isPrefixOf (a :: text) then some 0 else (find needle text).map (· + 1)

section
variable {needle text : List α} {e : Nat}

lemma find_length (h : find needle text = some e) : e + needle.length ≤ text.length := by
  induction text generalizing e with
  | nil =>
    rw [find] at h
    split at h
    next he =>
      obtain rfl : 0 = e := by simpa using h
      simp [isEmpty_iff.1 he]
    · simp at h
  | cons a text ih =>
    rw [find] at h
    split at h
    next hp =>
      obtain rfl : 0 = e := by simpa using h
      have := ( isPrefixOf_iff_prefix.1 hp).length_le
      omega
    · obtain ⟨i, hi, rfl⟩ := map_eq_some_iff.1 h
      have := ih hi
      rw [length_cons]
      omega

theorem find_stands (h : find needle text = some e) :
    (text.drop e).take needle.length = needle := by
  induction text generalizing e with
  | nil =>
    rw [find] at h
    split at h
    next he => simp [isEmpty_iff.1 he]
    · simp at h
  | cons a text ih =>
    rw [find] at h
    split at h
    next hp =>
      obtain rfl : 0 = e := by simpa using h
      obtain ⟨re, hr⟩ := isPrefixOf_iff_prefix.1 hp
      rw [drop_zero, ← hr, take_left]
    · obtain ⟨i, hi, rfl⟩ := map_eq_some_iff.1 h
      exact ih hi

section
variable (hne : needle ≠ [])
include hne

/-- In the beginning of a text the same occurrence is found, as soon as all of it is there. -/
theorem find_take (text : List α) (k : Nat) : find needle (text.take k) =
      (find needle text).bind fun e => if e + needle.length ≤ k then some e else none := by
  have hpo : 0 < needle.length := length_pos_of_ne_nil hne
  have he : needle.isEmpty = false := by simpa using hne
  induction text generalizing k with
  | nil => simp [find, he]
  | cons a text ih =>
    cases k with
    | zero =>
      have hn : ∀ e, ¬ e + needle.length ≤ 0 := by omega
      simp [find, he, hn]
    | succ k =>
      by_cases hp : needle.isPrefixOf (a :: text) = true
      · -- an occurrence at the front that is cut off leaves too little room for a later one
        have hf : find needle (a :: text) = some 0 := by simp [find, hp]
        rw [hf, bind_some, Nat.zero_add]
        split
        next hl =>
          have hcut : needle.isPrefixOf (a :: text.take k) = true := by
            rw [ isPrefixOf_iff_prefix] at hp ⊢
            have hcut := prefix_take_iff.2 ⟨hp, hl⟩
            exact hcut
          simp [find, hcut]
        next hlt =>
          cases hsh : find needle ((a :: text).take (k + 1)) with
          | none => rfl
          | some e =>
            have := find_length hsh
            simp only [length_take] at this
            omega
      · have hcut : ¬ needle.isPrefixOf (a :: text.take k) = true := by
          rw [ isPrefixOf_iff_prefix] at hp ⊢
          exact fun h => hp (h.trans ( take_prefix (k + 1) (a :: text)))
        simp only [take_succ_cons, find, if_neg hcut, if_neg hp, ih]
        cases find needle text with
        | none => rfl
        | some e =>
          simp only [bind_some, map_some]
          have hi : e + 1 + needle.length ≤ k + 1 ↔ e + needle.length ≤ k := by omega
          simp only [hi]
          split <;> rfl

lemma find_take_isSome (h : find needle text = some e) (k : Nat) :
    (find needle (text.take k)).isSome = decide (e + needle.length ≤ k) := by
  rw [find_take hne, h, bind_some]
  split <;> simp_all

lemma find_take_none (h : find needle text = none) (k : Nat) :
    find needle (text.take k) = none := by
  rw [find_take hne, h, bind_none]

lemma find_append (h : find needle text = some e) (re : List α) :
    find needle (text ++ re) = some e := by
  have hta := find_take hne (text ++ re) text.length
  rw [take_left, h] at hta
  cases hfo : find needle (text ++ re) with
  | none =>
    rw [hfo] at hta
    cases hta
  | some e' =>
    rw [hfo, bind_some] at hta
    split at hta
    · exact hta.symm
    · cases hta

end

theorem find_append_of_notMem {a : α} {sk : List α} (h : a ∉ sk) (text : List α) :
    find (a :: needle) (sk ++ text) = (find (a :: needle) text).map (· + sk.length) := by
  induction sk with
  | nil => simp
  | cons b sk ih =>
    have hb : (a == b) = false := by
      rw [beq_eq_false_iff_ne]
      exact fun he => h (he ▸ mem_cons_self)
    have hre := ih fun hm => h (mem_cons_of_mem b hm)
    simp only [cons_append, find, List.isPrefixOf, hb, Bool.false_and, Bool.false_eq_true,
      if_false, hre, Option.map_map, length_cons]
    rfl

end

end Search
