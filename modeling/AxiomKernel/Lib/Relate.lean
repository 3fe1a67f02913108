import AxiomKernel.Lib.Hoare

/-!
# Two runs side by side

Programs over a state that may fail, run from related states: they end alike, with one value and in
related states again. Failures need not carry the same error. A program that runs on one side only
and keeps the relation is unseen from the other side.
-/
namespace Relate

open List Function Hoare

variable {σ ε α β κ : Type}

variable (W : κ → Prop)

/-- Two maps that differ at most at the keys of `W`. -/
def AgreeOff (f g : κ → α) : Prop := ∀ k, ¬ W k → f k = g k

lemma AgreeOff.refl (f : κ → α) : AgreeOff W f f := fun _ _ => rfl

variable {W : κ → Prop} {g : κ → α} {s t : σ} {f : κ → α} {m : ExceptT ε (StateM σ) α}

lemma AgreeOff.update [DecidableEq κ] (h : AgreeOff W f g) (k : κ) (a : α) :
    AgreeOff W (update f k a) (update g k a) := by
  intro o ho
  by_cases he : o = k
  · rw [he, update_self, update_self]
  · rw [update_of_ne he, update_of_ne he, h o ho]

lemma AgreeOff.update_left [DecidableEq κ] (h : AgreeOff W f g) {k : κ} (hk : W k) (a : α) :
    AgreeOff W (Function.update f k a) g := by
  intro o ho
  have hn : o ≠ k := fun he => ho (he ▸ hk)
  rw [update_of_ne hn, h o ho]

variable (R : σ → σ → Prop)

/-- Both runs end with one value that satisfies `Q`, or both fail. -/
def Alike (Q : α → Prop) : Except ε α × σ → Except ε α × σ → Prop
  | (.ok a, s), (.ok a', s') => a = a' ∧ Q a ∧ R s s'
  | (.error _, s), (.error _, s') => R s s'
  | _, _ => False

def Related (Q : α → Prop) (m m' : ExceptT ε (StateM σ) α) : Prop :=
  ∀ s s', R s s' → Alike R Q (m.run.run s) (m'.run.run s')

def Paired (Q : α → Prop) (x x' : Except ε α × σ) : Prop :=
  ∃ a t t', x = (.ok a, t) ∧ x' = (.ok a, t') ∧ Q a ∧ R t t'

def Surely (Q : α → Prop) (m m' : ExceptT ε (StateM σ) α) : Prop :=
  ∀ s s', R s s' → Paired R Q (m.run.run s) (m'.run.run s')

def Unseen (Q : α → Prop) (m : ExceptT ε (StateM σ) α) : Prop :=
  ∀ s s', R s s' → R (m.run.run s).2 s' ∧ ∀ a, (m.run.run s).1 = .ok a → Q a

def UnseenFailure (m : ExceptT ε (StateM σ) α) : Prop :=
  ∀ s s', R s s' → ∀ e t, m.run.run s = (.error e, t) → R t s'

lemma run_bind_ok {a : α} (h : m.run.run s = (.ok a, t)) (f : α → ExceptT ε (StateM σ) β) :
    (m >>= f).run.run s = (f a).run.run t := by
  rw [run_bind, h]

lemma run_bind_error {e : ε} (h : m.run.run s = (.error e, t)) (f : α → ExceptT ε (StateM σ) β) :
    (m >>= f).run.run s = (.error e, t) := by
  rw [run_bind, h]

section
variable {R : σ → σ → Prop} {P : α → Prop} {Q : β → Prop} {x' : Except ε α × σ}
  {x : Except ε α × σ} {t s s' : σ} {g : σ → σ} {h : ε → ExceptT ε (StateM σ) α}

lemma Paired.alike (h : Paired R P x x') : Alike R P x x' := by
  obtain ⟨a, t, t', rfl, rfl, hP, hR⟩ := h
  exact ⟨rfl, hP, hR⟩

variable {a : α}

lemma Alike.ok (h : Alike R P (.ok a, t) x') : ∃ t', x' = (.ok a, t') ∧ P a ∧ R t t' := by
  rcases x' with ⟨e | a', t'⟩
  · exact h.elim
  · obtain ⟨rfl, hP, hR⟩ := h
    exact ⟨t', rfl, hP, hR⟩

lemma Alike.error {e : ε} (h : Alike R P (.error e, t) x') :
    ∃ e' t', x' = (.error e', t') ∧ R t t' := by
  rcases x' with ⟨e' | a', t'⟩
  · exact ⟨e', t', rfl, h⟩
  · exact h.elim

variable {P' : α → Prop}

lemma Alike.imp (h : Alike R P x x') (hi : ∀ a, P a → P' a) : Alike R P' x x' := by
  rcases x with ⟨e | a, t⟩
  · obtain ⟨e', t', rfl, hR⟩ := h.error
    exact hR
  · obtain ⟨t', rfl, hP, hR⟩ := h.ok
    exact ⟨rfl, hi a hP, hR⟩

variable {m m' : ExceptT ε (StateM σ) α} {f f' : α → ExceptT ε (StateM σ) β}

theorem Alike.bind (h : Alike R P (m.run.run s) (m'.run.run s'))
    (hf : ∀ a, P a → Related R Q (f a) (f' a)) :
    Alike R Q ((m >>= f).run.run s) ((m' >>= f').run.run s') := by
  rcases hr : m.run.run s with ⟨e | a, t⟩ <;> rw [hr] at h
  · obtain ⟨e', t', hr', hR⟩ := h.error
    rw [run_bind_error hr, run_bind_error hr']
    exact hR
  · obtain ⟨t', hr', hP, hR⟩ := h.ok
    rw [run_bind_ok hr, run_bind_ok hr']
    exact hf a hP t t' hR

lemma Paired.bind (h : Paired R P (m.run.run s) (m'.run.run s'))
    (hf : ∀ a, P a → Surely R Q (f a) (f' a)) :
    Paired R Q ((m >>= f).run.run s) ((m' >>= f').run.run s') := by
  obtain ⟨a, t, t', hr, hr', hP, hR⟩ := h
  rw [run_bind_ok hr, run_bind_ok hr']
  exact hf a hP t t' hR

lemma related_pure (h : P a) : Related (ε := ε) R P (pure a) (pure a) :=
  fun _ _ hR => ⟨rfl, h, hR⟩

lemma related_throw (e e' : ε) : Related R P (throw e : ExceptT ε (StateM σ) α) (throw e') :=
  fun _ _ hR => hR

lemma Related.bind (h : Related R P m m') (hf : ∀ a, P a → Related R Q (f a) (f' a)) :
    Related R Q (m >>= f) (m' >>= f') :=
  fun s s' hR => (h s s' hR).bind hf

lemma Related.imp (h : Related R P m m') (hi : ∀ a, P a → P' a) : Related R P' m m' :=
  fun s s' hR => (h s s' hR).imp hi

theorem related_get {f f' : σ → ExceptT ε (StateM σ) β}
    (h : ∀ s s', R s s' → Alike R Q ((f s).run.run s) ((f' s').run.run s')) :
    Related R Q (get >>= f) (get >>= f') := by
  intro s s' hR
  rw [run_bind, run_bind]
  exact h s s' hR

lemma Related.foldlM {γ : Type} {xs : List γ} {f f' : α → γ → ExceptT ε (StateM σ) α}
    (h : ∀ a, P a → ∀ x ∈ xs, Related R P (f a x) (f' a x)) (ha : P a) :
    Related R P (xs.foldlM f a) (xs.foldlM f' a) := by
  induction xs generalizing a with
  | nil => exact related_pure ha
  | cons x xs ih =>
    rw [foldlM_cons, foldlM_cons]
    refine (h a ha x mem_cons_self).bind fun b hb => ?_
    exact ih (fun a ha y hy => h a ha y (mem_cons_of_mem _ hy)) hb

lemma Surely.related (h : Surely R P m m') : Related R P m m' :=
  fun s s' hR => (h s s' hR).alike

lemma surely_pure (h : P a) : Surely (ε := ε) R P (pure a) (pure a) :=
  fun s s' hR => ⟨a, s, s', rfl, rfl, h, hR⟩

lemma surely_modify {g' : σ → σ} (h : ∀ s s', R s s' → R (g s) (g' s')) :
    Surely (ε := ε) R (fun _ : Unit => True) (modify g) (modify g') :=
  fun s s' hR => ⟨(), g s, g' s', rfl, rfl, trivial, h s s' hR⟩

lemma Surely.bind (h : Surely R P m m') (hf : ∀ a, P a → Surely R Q (f a) (f' a)) :
    Surely R Q (m >>= f) (m' >>= f') :=
  fun s s' hR => (h s s' hR).bind hf

lemma Paired.tryCatch (h : Paired R P (m.run.run s) (m'.run.run s'))
    (f f' : ε → ExceptT ε (StateM σ) α) :
    Paired R P ((tryCatch m f).run.run s) ((tryCatch m' f').run.run s') := by
  obtain ⟨a, t, t', hr, hr', hP, hR⟩ := h
  exact ⟨a, t, t', by rw [run_tryCatch, hr], by rw [run_tryCatch, hr'], hP, hR⟩

/-- A handler that does not fail makes up for the failures of the program. -/
theorem Related.recover {h' : ε → ExceptT ε (StateM σ) α} (hm : Related R P m m')
    (hh : ∀ e e', Surely R P (h e) (h' e')) : Surely R P (tryCatch m h) (tryCatch m' h') := by
  intro s s' hR
  have hen := hm s s' hR
  rw [run_tryCatch, run_tryCatch]
  rcases hr : m.run.run s with ⟨e | a, t⟩ <;> rw [hr] at hen
  · obtain ⟨e', t', hr', hR'⟩ := hen.error
    rw [hr']
    exact hh e e' t t' hR'
  · obtain ⟨t', hr', hP, hR'⟩ := hen.ok
    rw [hr']
    exact ⟨a, t, t', rfl, rfl, hP, hR'⟩

lemma unseen_pure (h : P a) : Unseen (ε := ε) R P (pure a) := by
  refine fun s s' hR => ⟨hR, fun b hb => ?_⟩
  cases hb
  exact h

lemma unseen_throw (e : ε) : Unseen R P (throw e : ExceptT ε (StateM σ) α) :=
  fun _ _ hR => ⟨hR, nofun⟩

lemma Unseen.bind (h : Unseen R P m) (hf : ∀ a, P a → Unseen R Q (f a)) : Unseen R Q (m >>= f) := by
  intro s s' hR
  obtain ⟨hR', hP⟩ := h s s' hR
  rcases hr : m.run.run s with ⟨e | a, t⟩ <;> rw [hr] at hR' hP
  · rw [run_bind_error hr]
    exact ⟨hR', nofun⟩
  · rw [run_bind_ok hr]
    exact hf a (hP a rfl) t s' hR'

lemma Unseen.imp (h : Unseen R P m) (hi : ∀ a, P a → P' a) : Unseen R P' m :=
  fun s s' hR => ⟨(h s s' hR).1, fun a ha => hi a ((h s s' hR).2 a ha)⟩

theorem unseen_get {f : σ → ExceptT ε (StateM σ) β} (h : ∀ s, Unseen R Q (f s)) :
    Unseen R Q (get >>= f) := by
  intro s s' hR
  rw [run_bind]
  exact h s s s' hR

lemma unseen_modify (h : ∀ s s', R s s' → R (g s) s') :
    Unseen (ε := ε) R (fun _ : Unit => True) (modify g) :=
  fun s s' hR => ⟨h s s' hR, fun _ _ => trivial⟩

lemma Unseen.foldlM {γ : Type} {xs : List γ} {f : α → γ → ExceptT ε (StateM σ) α}
    (h : ∀ a, P a → ∀ x ∈ xs, Unseen R P (f a x)) (ha : P a) : Unseen R P (xs.foldlM f a) := by
  induction xs generalizing a with
  | nil => exact unseen_pure ha
  | cons x xs ih =>
    rw [foldlM_cons]
    refine (h a ha x mem_cons_self).bind fun b hb => ?_
    exact ih (fun a ha y hy => h a ha y (mem_cons_of_mem _ hy)) hb

lemma Unseen.tryCatch (hm : Unseen R P m) (hh : ∀ e, Unseen R P (h e)) :
    Unseen R P (tryCatch m h) := by
  intro s s' hR
  obtain ⟨hR', hP⟩ := hm s s' hR
  rw [run_tryCatch]
  rcases hr : m.run.run s with ⟨e | a, t⟩ <;> rw [hr] at hR' hP
  · exact hh e t s' hR'
  · exact ⟨hR', hP⟩

lemma Unseen.failure (h : Unseen R P m) : UnseenFailure R m := by
  intro s s' hR e t hr
  have := (h s s' hR).1
  rwa [hr] at this

lemma UnseenFailure.bind (h : Unseen R P m) (hf : ∀ a, P a → UnseenFailure R (f a)) :
    UnseenFailure R (m >>= f) := by
  intro s s' hR e t hfa
  obtain ⟨hR', hP⟩ := h s s' hR
  rcases hr : m.run.run s with ⟨e' | a, u⟩ <;> rw [hr] at hR' hP
  · rw [run_bind_error hr] at hfa
    cases hfa
    exact hR'
  · rw [run_bind_ok hr] at hfa
    exact hf a (hP a rfl) u s' hR' e t hfa

lemma unseenFailure_get {f : σ → ExceptT ε (StateM σ) β} (h : ∀ s, UnseenFailure R (f s)) :
    UnseenFailure R (get >>= f) := by
  intro s s' hR e t hf
  rw [run_bind] at hf
  exact h s s s' hR e t hf

theorem unseenFailure_modify (g : σ → σ) (a : α) :
    UnseenFailure (ε := ε) R (modify g >>= fun _ => pure a) := by
  intro s s' _ e t hf
  rw [run_bind] at hf
  cases hf
end

end Relate
