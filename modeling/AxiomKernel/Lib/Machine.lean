import Mathlib.Data.List.Basic

/-!
# Runs of a machine with inputs and outputs

A machine is a total step function: from a state and an input it gives the next state and an
output. This file has its runs over a list of inputs, the trace of outputs, and the one
induction that every whole-run statement uses: a relation between the state and the outputs so
far that each step keeps holds after every run. Steps may be restricted by a condition on the
state and the input.
-/
namespace Machine

open List

variable {σ ι ω : Type*}

def run (step : σ → ι → σ × ω) : σ → List ι → σ
  | s, [] => s
  | s, i :: is => run step (step s i).1 is

def outputs (step : σ → ι → σ × ω) : σ → List ι → List ω
  | _, [] => []
  | s, i :: is => (step s i).2 :: outputs step (step s i).1 is

section
variable (step : σ → ι → σ × ω) (s : σ)

@[simp] lemma run_nil : run step s [] = s := rfl

@[simp] lemma run_cons (i : ι) (is : List ι) :
    run step s (i :: is) = run step (step s i).1 is := rfl

@[simp] lemma outputs_nil : outputs step s [] = [] := rfl

@[simp] lemma outputs_cons (i : ι) (is : List ι) :
    outputs step s (i :: is) = (step s i).2 :: outputs step (step s i).1 is := rfl

lemma run_append (is js : List ι) : run step s (is ++ js) = run step (run step s is) js := by
  induction is generalizing s with
  | nil => rfl
  | cons i is ih => exact ih _

end

/-- Every step of the run from `s` over the inputs meets `C`. -/
def Meets (step : σ → ι → σ × ω) (C : σ → ι → Prop) : σ → List ι → Prop
  | _, [] => True
  | s, i :: is => C s i ∧ Meets step C (step s i).1 is

variable {step : σ → ι → σ × ω} {C : σ → ι → Prop} {s : σ} {is : List ι}

lemma meets_append {js : List ι} :
    Meets step C s (is ++ js) ↔ Meets step C s is ∧ Meets step C (run step s is) js := by
  induction is generalizing s with
  | nil => simp [Meets]
  | cons i is ih => simp [Meets, ih, and_assoc]

variable {P : σ → List ω → Prop} {os : List ω} {D : σ → ι → Prop}

section
variable (hstep : ∀ s os i, P s os → C s i → P (step s i).1 (os ++ [(step s i).2]))
include hstep

/-- What every admitted step keeps, with its output added, holds after the run. -/
theorem run_trace_append (h : P s os) (hC : Meets step C s is) :
    P (run step s is) (os ++ outputs step s is) := by
  induction is generalizing s os with
  | nil => simpa using h
  | cons i is ih =>
    have hre := ih (hstep s os i h hC.1) hC.2
    simpa using hre

theorem run_trace_of_meets (h : P s []) (hC : Meets step C s is) :
    P (run step s is) (outputs step s is) := by
  simpa using run_trace_append hstep h hC

end

lemma meets_of_forall (h : ∀ s, ∀ i ∈ is, C s i) : Meets step C s is := by
  induction is generalizing s with
  | nil => trivial
  | cons i is ih =>
    exact ⟨h s i (by simp), ih fun s j hj => h s j (mem_cons_of_mem i hj)⟩

lemma Meets.mono (h : ∀ s i, C s i → D s i) (hC : Meets step C s is) : Meets step D s is := by
  induction is generalizing s with
  | nil => trivial
  | cons i is ih => exact ⟨h s i hC.1, ih hC.2⟩

/-- A condition that follows from another one where what the steps keep holds. -/
theorem Meets.of_kept (hstep : ∀ s os i, P s os → C s i → P (step s i).1 (os ++ [(step s i).2]))
    (hD : ∀ s os i, P s os → C s i → D s i) (h : P s os) (hC : Meets step C s is) :
    Meets step D s is := by
  induction is generalizing s os with
  | nil => trivial
  | cons i is ih => exact ⟨hD s os i h hC.1, ih (hstep s os i h hC.1) hC.2⟩

lemma Meets.take (hC : Meets step C s is) (n : Nat) : Meets step C s (is.take n) := by
  rw [← take_append_drop n is] at hC
  exact (meets_append.1 hC).1

/-- What every admitted step says of its own output holds of every output of the run. -/
theorem forall_outputs {Q : ω → Prop} (hstep : ∀ s i, C s i → Q (step s i).2)
    (hC : Meets step C s is) : ∀ o ∈ outputs step s is, Q o := by
  have h := run_trace_of_meets (P := fun _ os => ∀ o ∈ os, Q o) (s := s) ?_ (by simp) hC
  · exact h
  · intro s os i hos hi o ho
    rcases mem_append.1 ho with ho | ho
    · exact hos o ho
    · rw [mem_singleton.1 ho]
      exact hstep s i hi

theorem run_trace (hstep : ∀ s os i, P s os → P (step s i).1 (os ++ [(step s i).2])) (h : P s [])
    (is : List ι) : P (run step s is) (outputs step s is) :=
  run_trace_of_meets (C := fun _ _ => True) (fun s os i hP _ => hstep s os i hP) h
    (meets_of_forall fun _ _ _ => trivial)

theorem run_preserves {P : σ → Prop} (hstep : ∀ s i, P s → P (step s i).1) (h : P s) (is : List ι) :
    P (run step s is) :=
  run_trace (P := fun s _ => P s) (fun s _ i hP => hstep s i hP) h is

end Machine
