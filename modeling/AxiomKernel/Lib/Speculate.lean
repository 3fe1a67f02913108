import AxiomKernel.Lib.Greedy

/-!
# Lossless speculative decoding, abstractly

A decoder holds the tokens its target has consumed and one anchor token that the target reads
next. One cycle either does nothing, or emits a nonempty piece of greedy output in which only the
last token may be a stop: the target consumes the anchor and the piece without its last token,
which becomes the anchor. Whatever runs in such cycles emits the greedy output cut after its first
stop, and is idle from then on.
-/
namespace Greedy

open List

variable {τ : Type*}

@[ext] structure Context (τ : Type*) where
  consumed : List τ
  anchor : τ
  deriving DecidableEq, Repr

def Context.text (c : Context τ) : List τ := c.consumed ++ [c.anchor]

inductive Cycle (f : List τ → τ) (stop : τ → Bool) : Context τ → List τ → Context τ → Prop
  | idle (c : Context τ) : Cycle f stop c [] c
  | advance (c : Context τ) (accepted : List τ) (t : τ) (running : stop c.anchor = false)
      (output : accepted ++ [t] = greedy f c.text (accepted.length + 1))
      (clear : ∀ x ∈ accepted, stop x = false) :
      Cycle f stop c (accepted ++ [t]) ⟨c.consumed ++ c.anchor :: accepted, t⟩

/-- What a whole run keeps: the text is the first text and the output, the output is greedy, and
no stop stands before the anchor. -/
structure Emitted (f : List τ → τ) (stop : τ → Bool) (start : Context τ) (out : List τ)
    (c : Context τ) : Prop where
  text : c.text = start.text ++ out
  output : out = greedy f start.text out.length
  clear : ∀ x ∈ (start.anchor :: out).dropLast, stop x = false

lemma emitted_start (f : List τ → τ) (stop : τ → Bool) (c : Context τ) :
    Emitted f stop c [] c := ⟨by simp, rfl, by simp⟩

variable {f : List τ → τ} {stop : τ → Bool} {start c : Context τ} {out : List τ}

section
variable (h : Emitted f stop start out c)
include h

lemma Emitted.anchor_eq : start.anchor :: out = (start.anchor :: out).dropLast ++ [c.anchor] := by
  have ht : c.consumed ++ [c.anchor] = start.consumed ++ (start.anchor :: out) := by
    simpa [Context.text] using h.text
  have hl : (start.anchor :: out).getLast (by simp) = c.anchor := by
    have := congrArg getLast? ht
    rw [getLast?_append_of_ne_nil _ (by simp), getLast?_append_of_ne_nil _ (by simp),
      getLast?_eq_some_getLast (by simp), getLast?_eq_some_getLast (by simp)] at this
    exact (Option.some.inj this).symm
  rw [← hl, dropLast_concat_getLast]

lemma Emitted.append {c' : Context τ} {e : List τ} (hc : Cycle f stop c e c') :
    Emitted f stop start (out ++ e) c' := by
  cases hc with
  | idle => simpa using h
  | advance accepted t ru o cl =>
    refine ⟨?_, ?_, ?_⟩
    · calc c.consumed ++ c.anchor :: accepted ++ [t]
          = c.text ++ (accepted ++ [t]) := by simp [Context.text]
        _ = start.text ++ (out ++ (accepted ++ [t])) := by rw [h.text, append_assoc]
    · rw [length_append, length_append, length_singleton, greedy_add, ← h.output, ← h.text, ← o]
    · -- every token before the new last one is old text, the old anchor, or accepted draft
      have hs : (start.anchor :: (out ++ (accepted ++ [t]))).dropLast =
          (start.anchor :: out).dropLast ++ [c.anchor] ++ accepted := by
        rw [← h.anchor_eq, ← append_assoc, ← cons_append, ← cons_append, dropLast_concat]
      intro x hx
      rw [hs] at hx
      simp only [mem_append, mem_singleton] at hx
      rcases hx with (hx | rfl) | hx
      · exact h.clear x hx
      · exact ru
      · exact cl x hx

/-- The output of a run is the greedy output, cut right after the first stop. -/
theorem Emitted.cutGreedy : CutGreedy f stop start.text out := by
  refine (cutGreedy_iff f stop _ _).2 ⟨h.output, fun x hx => h.clear x ?_⟩
  cases out with
  | nil => simp at hx
  | cons y ys => simpa using .inr hx

/-- Once a stop was emitted, or stood at the anchor to begin with, the anchor is a stop. -/
theorem Emitted.anchor_stop {x : τ} (hx : x ∈ start.anchor :: out) (hs : stop x) :
    stop c.anchor = true := by
  rw [h.anchor_eq, mem_append, mem_singleton] at hx
  rcases hx with hx | rfl
  · rw [h.clear x hx] at hs
    cases hs
  · exact hs

end

/-- A block accepted against the verifier's rows is one advancing cycle. -/
theorem Cycle.of_accepted [DecidableEq τ] {ds : List τ} {k : Nat} {t : τ}
    (ru : stop c.anchor = false)
    (hk : k ≤ matchLength ds (blockRows f c.consumed (c.anchor :: ds)))
    (ht : (blockRows f c.consumed (c.anchor :: ds))[k]? = some t)
    (cl : ∀ x ∈ ds.take k, stop x = false) :
    Cycle f stop c (ds.take k ++ [t]) ⟨c.consumed ++ c.anchor :: ds.take k, t⟩ := by
  have hl : (ds.take k).length = k := by
    have := hk.trans (matchLength_le_left _ _)
    rw [length_take]; omega
  exact .advance c (ds.take k) t ru
    (by rw [hl]; exact accepted_eq_greedy f c.consumed c.anchor ds hk ht) cl

variable {text out' : List τ} (ho : CutGreedy f stop text out) (ho' : CutGreedy f stop text out')
include ho ho'

lemma CutGreedy.comparable : out <+: out' ∨ out' <+: out := by
  rw [((cutGreedy_iff f stop text out).1 ho).1, ((cutGreedy_iff f stop text out').1 ho').1]
  exact (le_total _ _).imp (greedy_isPrefix f text) (greedy_isPrefix f text)

lemma CutGreedy.eq_of_stops (hs : out.any stop) (hs' : out'.any stop) : out = out' := by
  wlog hp : out <+: out' generalizing out out'
  · exact (this ho' ho hs' hs ((ho.comparable ho').resolve_left hp)).symm
  obtain ⟨rest, rfl⟩ := hp
  obtain ⟨x, hx, hx'⟩ := any_eq_true.1 hs
  by_contra hr
  rw [self_eq_append_right] at hr
  -- the stop would stand before the last token of the longer output
  have hc := ((cutGreedy_iff f stop text _).1 ho').2 x (by simp [dropLast_append_of_ne_nil hr, hx])
  simp [hx'] at hc

end Greedy
