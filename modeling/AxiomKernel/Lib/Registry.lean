import Mathlib

/-!
# Records under consecutive ids

A store that hands out the ids 1, 2, 3, … and never removes a record is the list of its records
in the order of their ids. This file has lookup, change and insertion by id, the number of
records with a property, and how each of them acts on the others.
-/

structure Registry (α : Type*) where
  rows : List α
  deriving Repr, DecidableEq

namespace Registry

open List Nat

variable {α : Type*}

def empty : Registry α := ⟨[]⟩

variable (r : Registry α)

def nextId : Nat := r.rows.length + 1

def find : Nat → Option α
  | 0 => none
  | i + 1 => r.rows[i]?

def emplace (a : α) : Registry α := ⟨r.rows ++ [a]⟩

def modify (r : Registry α) (id : Nat) (f : α → α) : Registry α :=
  match id with
  | 0 => r
  | i + 1 => ⟨r.rows.modify i f⟩

def entries : List (Nat × α) := (r.rows.zipIdx 1).map Prod.swap

def count (p : α → Bool) : Nat := r.rows.countP p

def sum (r : Registry α) (f : α → Nat) : Nat := (r.rows.map f).sum

@[simp] lemma find_empty (id : Nat) : (empty : Registry α).find id = none := by
  cases id <;> rfl

variable (r : Registry α)

lemma find_modify (id other : Nat) (f : α → α) :
    (r.modify id f).find other = if other = id then (r.find other).map f else r.find other := by
  cases other with
  | zero => cases id <;> simp [find]
  | succ j =>
    cases id with
    | zero => simp [find, modify]
    | succ i =>
      simp only [find, modify, getElem?_modify, add_right_cancel_iff]
      by_cases h : i = j
      · simp [h]
      · simp [h, Ne.symm h]

@[simp] lemma find_modify_self (id : Nat) (f : α → α) :
    (r.modify id f).find id = (r.find id).map f := by
  simp [find_modify]

variable {id : Nat} {a : α} {f : α → α} {p : α → Bool}

lemma find_modify_of_ne {other : Nat} (f : α → α) (h : other ≠ id) :
    (r.modify id f).find other = r.find other := by
  simp [find_modify, h]

/-- What a field of the records reads after the record under one id changed. -/
theorem map_find_modify {β : Type*} (id o : Nat) (f : α → α) (g : α → β) :
    ((r.modify id f).find o).map g = (r.find o).map fun a => if o = id then g (f a) else g a := by
  rw [find_modify]
  split <;> simp [Option.map_map, Function.comp_def]

/-- A change of the record under one id leaves every id known that was known. -/
@[simp] theorem isSome_find_modify (id o : Nat) (f : α → α) :
    ((r.modify id f).find o).isSome = (r.find o).isSome := by
  rw [find_modify]
  split <;> simp

lemma find_emplace (a : α) (id : Nat) :
    (r.emplace a).find id = if id = r.nextId then some a else r.find id := by
  cases id with
  | zero => simp [find, nextId]
  | succ i =>
    simp only [find, emplace, nextId, Nat.add_right_cancel_iff, getElem?_append]
    rcases Nat.lt_trichotomy i r.rows.length with h | h | h
    · simp [h, Nat.ne_of_lt h]
    · simp [h]
    · have h1 : ¬ i < r.rows.length := by omega
      have h2 : i ≠ r.rows.length := by omega
      have h3 : [a][i - r.rows.length]? = none := by
        simp only [getElem?_eq_none_iff, length_singleton]
        omega
      simp [h1, h2, h3]

lemma find_nextId : r.find r.nextId = none := by
  simp [find, nextId]

section
variable {r : Registry α}

lemma lt_nextId (h : (r.find id).isSome) : id < r.nextId := by
  cases id with
  | zero => exact succ_pos _
  | succ i =>
    obtain ⟨hi, -⟩ := List.getElem?_eq_some_iff.1 (Option.get_mem h)
    exact succ_lt_succ hi

lemma find_emplace_of_find {b : α} (a : α) (h : r.find id = some b) :
    (r.emplace a).find id = some b := by
  rw [find_emplace, if_neg, h]
  intro hi
  rw [hi, find_nextId] at h
  simp at h

theorem mem_rows_iff : a ∈ r.rows ↔ ∃ id, r.find id = some a := by
  constructor
  · intro h
    obtain ⟨i, hi⟩ := getElem?_of_mem h
    exact ⟨i + 1, hi⟩
  · rintro ⟨id, h⟩
    cases id with
    | zero => simp [find] at h
    | succ i => exact mem_of_getElem? h

lemma mem_entries_iff : (id, a) ∈ r.entries ↔ r.find id = some a := by
  simp only [entries, mem_map, Prod.exists, Prod.swap_prod_mk, Prod.mk.injEq]
  constructor
  · rintro ⟨b, i, hm, rfl, rfl⟩
    obtain ⟨hl, hg⟩ := mk_mem_zipIdx_iff_le_and_getElem?_sub.1 hm
    obtain ⟨j, rfl⟩ : ∃ j, i = j + 1 := ⟨i - 1, by omega⟩
    simpa [find] using hg
  · intro h
    refine ⟨a, id, ?_, rfl, rfl⟩
    cases id with
    | zero => simp [find] at h
    | succ i =>
      refine mk_mem_zipIdx_iff_le_and_getElem?_sub.2 ⟨by omega, ?_⟩
      simpa [find] using h

theorem map_rows_modify {β : Type*} {g : α → β} (h : ∀ a, r.find id = some a → g (f a) = g a) :
    (r.modify id f).rows.map g = r.rows.map g := by
  cases id with
  | zero => rfl
  | succ i =>
    refine ext_getElem? fun j => ?_
    simp only [modify, getElem?_map, getElem?_modify]
    split
    next hi =>
      subst hi
      cases hget : r.rows[i]? with
      | none => rfl
      | some a => simp [h a hget]
    · simp

/-- A change of one record that a selection of the records does not see. -/
theorem filter_rows_modify (h : ∀ a, r.find id = some a → p a = false ∧ p (f a) = false) :
    (r.modify id f).rows.filter p = r.rows.filter p := by
  cases id with
  | zero => rfl
  | succ i =>
    rw [find] at h
    rw [modify]
    generalize r.rows = rs at h
    induction rs generalizing i with
    | nil => simp
    | cons b rs ih =>
      cases i with
      | zero =>
        obtain ⟨hb, hf⟩ := h b rfl
        simp [hb, hf]
      | succ i =>
        simp only [modify_succ_cons, filter_cons, ih i h]

/-- A change of one record moves a sum by what the change does to that record alone. -/
theorem sum_modify (h : r.find id = some a) (f : α → α) (g : α → Nat) :
    (r.modify id f).sum g + g a = r.sum g + g (f a) := by
  cases id with
  | zero => simp [find] at h
  | succ i =>
    rw [find] at h
    simp only [sum, modify]
    generalize r.rows = rs at h
    induction rs generalizing i with
    | nil => simp at h
    | cons b rs ih =>
      cases i with
      | zero =>
        obtain rfl : b = a := by simpa using h
        simp only [modify_zero_cons, map_cons, sum_cons]
        omega
      | succ i =>
        have := ih i h
        simp only [modify_succ_cons, map_cons, sum_cons]
        omega

end

lemma count_eq_sum (p : α → Bool) : r.count p = r.sum fun a => (p a).toNat := by
  rw [count, sum]
  induction r.rows with
  | nil => rfl
  | cons a rs ih =>
    rw [countP_cons, map_cons, sum_cons, ih]
    cases p a <;> simp [add_comm]

lemma count_modify {r : Registry α} (h : r.find id = some a) (f : α → α) (p : α → Bool) :
    (r.modify id f).count p + (p a).toNat = r.count p + (p (f a)).toNat := by
  rw [count_eq_sum, count_eq_sum]
  exact sum_modify h f fun a => (p a).toNat

lemma count_emplace (a : α) (p : α → Bool) : (r.emplace a).count p = r.count p + (p a).toNat := by
  simp only [count, emplace, countP_append, countP_singleton]
  cases p a <;> rfl

lemma count_eq_zero_iff {r : Registry α} :
    r.count p = 0 ↔ ∀ id a, r.find id = some a → p a = false := by
  simp only [count, countP_eq_zero, mem_rows_iff, Bool.not_eq_true]
  exact ⟨fun h id a hi => h a ⟨id, hi⟩, fun h a ⟨id, hi⟩ => h id a hi⟩

end Registry
