import Mathlib.Data.List.Basic

/-!
# Readers that may be fed in pieces

A reader takes one unit off the front of its input and gives what that unit stands for, or asks
for more input. If more input never changes a verdict already given, reading a text piece by piece
and keeping what is not yet decided gives the same output as reading the whole text at once.
-/

structure Reader (α β : Type*) where
  read : List α → Option (List β × List α)
  shorter : ∀ {input out rest}, read input = some (out, rest) → rest.length < input.length
  stable : ∀ {input out rest} (more), read input = some (out, rest) →
    read (input ++ more) = some (out, rest ++ more)

namespace Reader

variable {α β : Type*} (r : Reader α β)

def scan (input : List α) : List β × List α :=
  match _h : r.read input with
  | none => ([], input)
  | some (out, rest) => (out ++ (scan rest).1, (scan rest).2)
termination_by input.length
decreasing_by exact r.shorter _h

lemma scan_none {input : List α} (h : r.read input = none) : r.scan input = ([], input) := by
  unfold scan
  split
  · rfl
  next heq => simp [h] at heq

lemma scan_some {input rest : List α} {out : List β} (h : r.read input = some (out, rest)) :
    r.scan input = (out ++ (r.scan rest).1, (r.scan rest).2) := by
  rw [scan]
  split
  next heq => simp [h] at heq
  next out' rest' heq =>
    rw [h] at heq
    cases heq
    rfl

theorem scan_induction {motive : List α → Prop} (wait : ∀ input, r.read input = none → motive input)
    (take : ∀ input out rest, r.read input = some (out, rest) → motive rest → motive input)
    (input : List α) : motive input := by
  induction hn : input.length using Nat.strongRecOn generalizing input with
  | _ n ih =>
    cases h : r.read input with
    | none => exact wait input h
    | some result =>
      obtain ⟨out, rest⟩ := result
      exact take input out rest h (ih rest.length (hn ▸ r.shorter h) rest rfl)

lemma scan_nil : r.scan [] = ([], []) := by
  refine r.scan_none ?_
  cases h : r.read [] with
  | none => rfl
  | some result =>
    obtain ⟨out, rest⟩ := result
    have := r.shorter h
    simp at this

theorem scan_append (input more : List α) : r.scan (input ++ more) =
    ((r.scan input).1 ++ (r.scan ((r.scan input).2 ++ more)).1,
    (r.scan ((r.scan input).2 ++ more)).2) := by
  induction input using r.scan_induction with
  | wait input h => simp [r.scan_none h]
  | take input out rest h ih =>
    rw [r.scan_some (r.stable more h), r.scan_some h, ih]
    simp

/-- What holds of the empty output and is kept by every unit holds of a whole output. -/
theorem scan_out {P : List β → Prop} (nil : P [])
    (unit : ∀ input out rest more, r.read input = some (out, rest) → P more → P (out ++ more))
    (input : List α) : P (r.scan input).1 := by
  induction input using r.scan_induction with
  | wait input h => rw [r.scan_none h]; exact nil
  | take input out rest h ih =>
    rw [r.scan_some h]
    exact unit input out rest _ h ih

end Reader
