import Mathlib

/-! Hoare triples for programs over a state that may fail, and the runs they speak of. -/
namespace Hoare

open Std.Do

variable {σ ε α β : Type}

/-- A run that ends well satisfies `Q`, and one that fails satisfies `R`. -/
def Ends (Q : α → σ → Prop) (R : ε → σ → Prop) : Except ε α × σ → Prop
  | (.ok a, s) => Q a s
  | (.error e, s) => R e s

section
variable (Q : α → σ → Prop) (R : ε → σ → Prop)

@[simp, grind =]
lemma ends_ok (a : α) (s : σ) : Ends Q R (.ok a, s) ↔ Q a s := Iff.rfl

@[simp, grind =]
lemma ends_error (e : ε) (s : σ) : Ends Q R (.error e, s) ↔ R e s := Iff.rfl

end

variable {x : ExceptT ε (StateM σ) α} {Q : α → σ → Prop} {R : ε → σ → Prop}

abbrev Runs (x : ExceptT ε (StateM σ) α) (s₀ : σ) (Q : α → σ → Prop) (R : ε → σ → Prop) : Prop :=
  ⦃fun s => ⌜s = s₀⌝⦄ x ⦃post⟨fun a s => ⌜Q a s⌝, fun e s => ⌜R e s⌝⟩⦄

lemma wp_iff_ends (s : σ) :
    (wp⟦x⟧ (post⟨fun a s => ⌜Q a s⌝, fun e s => ⌜R e s⌝⟩) s).down ↔ Ends Q R (x.run.run s) := by
  simp only [WP.wp, PredTrans.apply_pushExcept, PredTrans.apply_pushArg, PredTrans.apply_Pure_pure]
  rcases x.run.run s with ⟨_ | a, s'⟩
  · rfl
  · rfl

theorem triple_iff_ends {P : σ → Prop} :
    ⦃fun s => ⌜P s⌝⦄ x ⦃post⟨fun a s => ⌜Q a s⌝, fun e s => ⌜R e s⌝⟩⦄ ↔
      ∀ s, P s → Ends Q R (x.run.run s) := by
  constructor
  · intro h s hs
    exact (wp_iff_ends s).1 (h s hs)
  · intro h s hs
    exact (wp_iff_ends s).2 (h s hs)

variable {s : σ}

theorem ends_of_triple (h : ⦃fun t => ⌜t = s⌝⦄ x ⦃post⟨fun a s => ⌜Q a s⌝, fun e s => ⌜R e s⌝⟩⦄) :
    Ends Q R (x.run.run s) :=
  triple_iff_ends.1 h s rfl

theorem run_bind (x : ExceptT ε (StateM σ) α) (f : α → ExceptT ε (StateM σ) β) (s : σ) :
    (x >>= f).run.run s = match x.run.run s with
      | (.ok a, s') => (f a).run.run s'
      | (.error e, s') => (.error e, s') := by
  rcases hx : x.run.run s with ⟨e | a, s'⟩
  · rw [ExceptT.run_bind, StateT.run_bind, hx]
    rfl
  · rw [ExceptT.run_bind, StateT.run_bind, hx]
    rfl

lemma run_tryCatch (x : ExceptT ε (StateM σ) α) (f : ε → ExceptT ε (StateM σ) α) (s : σ) :
    (tryCatch x f).run.run s = match x.run.run s with
      | (.ok a, s') => (.ok a, s')
      | (.error e, s') => (f e).run.run s' := by
  have h : (tryCatch x f).run = x.run >>= fun r => match r with
    | .ok a => pure (.ok a)
    | .error e => (f e).run := rfl
  rw [h, StateT.run_bind]
  rcases hx : x.run.run s with ⟨e | a, s'⟩ <;> rfl

variable {f : α → ExceptT ε (StateM σ) β} {R' : ε → σ → Prop} {out : Except ε α × σ}

/-- The rule for one program after another, with the run of the first at hand. -/
theorem Ends.bind {Q' : β → σ → Prop} (h : Ends Q R (x.run.run s))
    (ho : ∀ a s', x.run.run s = (.ok a, s') → Q a s' → Ends Q' R' ((f a).run.run s'))
    (he : ∀ e s', x.run.run s = (.error e, s') → R e s' → R' e s') :
    Ends Q' R' ((x >>= f).run.run s) := by
  rw [run_bind]
  rcases hx : x.run.run s with ⟨e | a, s'⟩ <;> rw [hx] at h
  · exact he e s' hx h
  · exact ho a s' hx h

lemma Ends.get_bind {f : σ → ExceptT ε (StateM σ) β} {Q : β → σ → Prop}
    (h : Ends Q R ((f s).run.run s)) : Ends Q R ((get >>= f).run.run s) := by
  rw [run_bind]
  exact h

lemma Ends.modify_bind {change : σ → σ} {f : Unit → ExceptT ε (StateM σ) β} {Q : β → σ → Prop}
    (h : Ends Q R ((f ()).run.run (change s))) :
    Ends Q R ((modify change >>= f).run.run s) := by
  rw [run_bind]
  exact h

lemma Ends.tryCatch {f : ε → ExceptT ε (StateM σ) α} (h : Ends Q R (x.run.run s))
    (he : ∀ e t, R e t → Ends Q R' ((f e).run.run t)) :
    Ends Q R' ((tryCatch x f).run.run s) := by
  rw [run_tryCatch]
  rcases hx : x.run.run s with ⟨e | a, t⟩ <;> rw [hx] at h
  · exact he e t h
  · exact h

lemma ends_true (out : Except ε α × σ) : Ends (fun _ _ => True) (fun _ _ => True) out := by
  rcases out with ⟨_ | _, _⟩ <;> trivial

lemma Ends.imp {Q' : α → σ → Prop} (h : Ends Q R out) (ho : ∀ a s, Q a s → Q' a s)
    (he : ∀ e s, R e s → R' e s) : Ends Q' R' out := by
  rcases out with ⟨e | a, s⟩
  · exact he e s h
  · exact ho a s h

/-- Every failure of a program satisfies `P`, whatever state it starts from. -/
def Throws (P : ε → Prop) (x : ExceptT ε (StateM σ) α) : Prop :=
  ∀ s, Ends (fun _ _ => True) (fun e _ => P e) (x.run.run s)

variable {P : ε → Prop}

lemma Throws.bind (hx : Throws P x) (hf : ∀ a, Throws P (f a)) : Throws P (x >>= f) := fun s =>
  (hx s).bind (fun a s' _ _ => hf a s') fun _ _ _ h => h

lemma throws_pure (a : α) : Throws P (pure a : ExceptT ε (StateM σ) α) := fun _ => trivial

lemma throws_get : Throws P (get : ExceptT ε (StateM σ) σ) := fun _ => trivial

lemma throws_modify (f : σ → σ) :
    Throws P (modify f : ExceptT ε (StateM σ) Unit) := fun _ => trivial

theorem Ends.state {P : σ → Prop} (h : Ends Q R out) (ho : ∀ a s, Q a s → P s)
    (he : ∀ e s, R e s → P s) : P out.2 := by
  rcases out with ⟨e | a, s⟩
  · exact he e s h
  · exact ho a s h

end Hoare
