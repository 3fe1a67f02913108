import Mathlib.Data.List.Induction

/-! Past-time facts about an event list: what happened since the last reset event, and what held
before every event of a kind. Nothing here names a program. -/
namespace Trace

open List

variable {α : Type*} {l pre post : List α} {x y : α} {q : α → Bool}

/-- Where a given event of a list with a last event `y` stands: at the end or before it. -/
theorem append_singleton_eq_cases (h : l ++ [y] = pre ++ x :: post) :
    (post = [] ∧ l = pre ∧ y = x) ∨ ∃ rest, post = rest ++ [y] ∧ l = pre ++ x :: rest := by
  induction post using reverseRecOn with
  | nil =>
    obtain ⟨hl, hy⟩ := append_inj' h rfl
    exact .inl ⟨rfl, hl, singleton_inj.1 hy⟩
  | append_singleton rest z _ =>
    rw [← cons_append, ← append_assoc] at h
    obtain ⟨hl, hyz⟩ := append_inj' h rfl
    exact .inr ⟨rest, by rw [singleton_inj.1 hyz], hl⟩

/-- Some event satisfying `p` came after the last event satisfying `r`. -/
def since (p r : α → Bool) (l : List α) : Bool :=
  l.foldl (fun b x => if r x then false else b || p x) false

@[simp] lemma since_nil (p r : α → Bool) : since p r [] = false := rfl

@[simp] lemma since_append_singleton (p r : α → Bool) (l : List α) (x : α) :
    since p r (l ++ [x]) = if r x then false else since p r l || p x := by
  simp [since]

lemma since_eq_true_iff (p r : α → Bool) (l : List α) : since p r l ↔
    ∃ pre x post, l = pre ++ x :: post ∧ p x ∧ ∀ y ∈ x :: post, r y = false := by
  induction l using reverseRecOn with
  | nil => simp
  | append_singleton l y ih =>
    rw [since_append_singleton]
    constructor
    · intro h
      cases hr : r y with
      | true => simp [hr] at h
      | false =>
        simp only [hr, Bool.false_eq_true, if_false, Bool.or_eq_true] at h
        rcases h with h | h
        · obtain ⟨pre, x, post, rfl, hp, hpo⟩ := ih.1 h
          refine ⟨pre, x, post ++ [y], by simp, hp, ?_⟩
          intro z hz
          rcases mem_append.1 (show z ∈ (x :: post) ++ [y] from hz) with hz | hz
          · exact hpo z hz
          · rw [mem_singleton.1 hz]; exact hr
        · exact ⟨l, y, [], rfl, h, by simpa using hr⟩
    · rintro ⟨pre, x, post, he, hp, hpo⟩
      rcases append_singleton_eq_cases he with ⟨rfl, rfl, rfl⟩ | ⟨re, rfl, rfl⟩
      · have hy : r y = false := hpo y (by simp)
        simp [hy, hp]
      · have hy : r y = false := hpo y (by simp)
        have hre : since p r (pre ++ x :: re) := ih.2 ⟨pre, x, re, rfl, hp, fun z hz => hpo z (by
            rcases mem_cons.1 hz with rfl | hz <;> simp [*])⟩
        simp [hy, hre]

/-- Every event satisfying `q` found the events before it in `P`. -/
def Always (q : α → Bool) (P : List α → Prop) (l : List α) : Prop :=
  ∀ pre x post, l = pre ++ x :: post → q x = true → P pre

lemma always_nil (q : α → Bool) (P : List α → Prop) : Always q P [] := by
  intro pre x post h
  simp at h

lemma Always.append_singleton {P : List α → Prop} (h : Always q P l) (hx : q x → P l) :
    Always q P (l ++ [x]) := by
  intro pre y post he hy
  rcases append_singleton_eq_cases he with ⟨rfl, rfl, rfl⟩ | ⟨re, rfl, rfl⟩
  · exact hx hy
  · exact h pre y re rfl hy

/-- If no `q` event ever found a `p` since the last `r`, then between a `p` event and a later `q`
event stands an `r` event. -/
theorem Always.reset_between {p r : α → Bool} (h : Always q (fun pre => since p r pre = false) l)
    {mid : List α} (hl : l = pre ++ x :: (mid ++ y :: post)) (hx : p x) (hy : q y)
    (hr : r x = false) : ∃ z ∈ mid, r z = true := by
  by_contra hno
  have hn : since p r (pre ++ x :: mid) := by
    rw [since_eq_true_iff]
    refine ⟨pre, x, mid, rfl, hx, ?_⟩
    intro z hz
    rcases mem_cons.1 hz with rfl | hz
    · exact hr
    · cases hrz : r z with
      | false => rfl
      | true => exact absurd ⟨z, hz, hrz⟩ hno
  have hp : since p r (pre ++ x :: mid) = false := h _ y post (by simp [hl]) hy
  rw [hn] at hp
  exact Bool.noConfusion hp

end Trace
