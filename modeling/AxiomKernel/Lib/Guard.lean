import Mathlib.Tactic.Common

/-!
# Checks in front of a result

Programs that refuse their input check by check, and what is known when none of the checks
refused.
-/
namespace Guard

variable {ε α β : Type}

def refuse (condition : Prop) [Decidable condition] (error : ε) : Except ε Unit :=
  if condition then .error error else .ok ()

def need (error : ε) : Option α → Except ε α
  | none => .error error
  | some a => .ok a

variable {f : α → Except ε β} {b : β} {e : ε}

lemma bind_eq_ok {x : Except ε α} : x >>= f = .ok b ↔ ∃ a, x = .ok a ∧ f a = .ok b := by
  cases x with
  | error e => exact ⟨nofun, nofun⟩
  | ok a => exact ⟨fun h => ⟨a, rfl, h⟩, fun ⟨_, h, hb⟩ => by cases h; exact hb⟩

lemma refuse_eq_ok {c : Prop} [Decidable c] {f : Unit → Except ε β} :
    refuse c e >>= f = .ok b ↔ ¬ c ∧ f () = .ok b := by
  by_cases hc : c
  · rw [refuse, if_pos hc]
    exact ⟨nofun, fun h => absurd hc h.1⟩
  · rw [refuse, if_neg hc]
    exact ⟨fun h => ⟨hc, h⟩, fun h => h.2⟩

lemma need_eq_ok {x : Option α} : need e x >>= f = .ok b ↔ ∃ a, x = some a ∧ f a = .ok b := by
  cases x with
  | none => exact ⟨nofun, nofun⟩
  | some a => exact ⟨fun h => ⟨a, rfl, h⟩, fun ⟨_, h, hb⟩ => by cases h; exact hb⟩

lemma pure_eq_ok {a b : α} : (pure a : Except ε α) = .ok b ↔ b = a :=
  ⟨fun h => (Except.ok.inj h).symm, fun h => congrArg Except.ok h.symm⟩

theorem forM_eq_ok {xs : List α} {f : α → Except ε Unit} :
    xs.forM f = .ok () ↔ ∀ x ∈ xs, f x = .ok () := by
  induction xs with
  | nil => exact ⟨fun _ => nofun, fun _ => rfl⟩
  | cons x xs ih =>
    change (f x >>= fun _ => xs.forM f) = .ok () ↔ _
    rw [bind_eq_ok, List.forall_mem_cons, ← ih]
    exact ⟨fun ⟨_, hx, hxs⟩ => ⟨hx, hxs⟩, fun ⟨hx, hxs⟩ => ⟨_, hx, hxs⟩⟩

end Guard
