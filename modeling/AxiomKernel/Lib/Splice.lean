import Mathlib.Data.List.Basic
import Mathlib.Data.List.Range
import Mathlib.Tactic.Common

/-!
# Pieces of a text joined together

A text out of which parts were cut, as the pieces that are left. Every symbol of the joined pieces
has a position in the text; a span of the joined pieces stands in the text as it is exactly when no
two pieces meet inside it.
-/
namespace Splice

open List

variable {α : Type*}

structure Piece (α : Type*) where
  offset : Nat
  symbols : List α

namespace Piece

def stop (p : Piece α) : Nat := p.offset + p.symbols.length

end Piece

variable (ps : List (Piece α))

def joined : List α := ps.flatMap Piece.symbols

def positions : List Nat := ps.flatMap fun p => List.range' p.offset p.symbols.length

def cuts : List (Piece α) → List Nat
  | [] => []
  | p :: ps => p.symbols.length :: (cuts ps).map (· + p.symbols.length)

def Gapped : Prop := ps.Pairwise fun p q => p.stop < q.offset

def Within (text : List α) (ps : List (Piece α)) : Prop :=
  ∀ p ∈ ps, (text.drop p.offset).take p.symbols.length = p.symbols

/-- The span of the joined pieces stands in the text from `position` on. -/
def StandsAt (start stop position : Nat) : Prop :=
  ((positions ps).drop start).take (stop - start) = List.range' position (stop - start)

@[simp]
lemma joined_cons (p : Piece α) (ps : List (Piece α)) :
    joined (p :: ps) = p.symbols ++ joined ps := rfl

@[simp]
lemma positions_cons (p : Piece α) (ps : List (Piece α)) :
    positions (p :: ps) = range' p.offset p.symbols.length ++ positions ps := rfl

variable {ps : List (Piece α)} {i start : Nat}

lemma mem_positions : i ∈ positions ps ↔ ∃ p ∈ ps, p.offset ≤ i ∧ i < p.stop := by
  simp [positions, Piece.stop, mem_range'_1]

/-- The symbols of the joined pieces are those of the text at their positions. -/
lemma map_positions {te : List α} (h : Within te ps) :
    (positions ps).map (fun i => te[i]?) = (joined ps).map some := by
  induction ps with
  | nil => rfl
  | cons p ps ih =>
    have hre := ih fun q hq => h q (mem_cons_of_mem p hq)
    have hp := h p mem_cons_self
    rw [positions_cons, joined_cons, map_append, map_append, hre]
    congr 1
    refine ext_getElem? fun i => ?_
    rw [getElem?_map, getElem?_map]
    by_cases hi : i < p.symbols.length
    · have hs : p.symbols[i]? = te[p.offset + i]? := by
        conv_lhs => rw [← hp]
        rw [getElem?_take_of_lt hi, getElem?_drop]
      rw [getElem?_range' hi, Option.map_some, Nat.one_mul, ← hs, getElem?_eq_getElem hi]
      rfl
    · rw [getElem?_eq_none (by simpa using hi), getElem?_eq_none (by simpa using hi)]
      rfl

lemma StandsAt.getElem? {st position : Nat} (h : StandsAt ps start st position)
    (hi : i < st - start) : (positions ps)[start + i]? = some (position + i) := by
  have hget := congrArg (fun l => l[i]?) h
  simpa only [getElem?_take_of_lt hi, getElem?_drop, getElem?_range' hi, Nat.one_mul] using hget

lemma StandsAt.text {te : List α} {st p : Nat} (h : StandsAt ps start st p)
    (hw : Within te ps) (hs : st ≤ (joined ps).length) :
    (te.drop p).take (st - start) = ((joined ps).drop start).take (st - start) := by
  refine ext_getElem? fun i => ?_
  by_cases hi : i < st - start
  · have hl : start + i < (joined ps).length := by omega
    have hsymb := congrArg (fun l => l[start + i]?) (map_positions hw)
    simp only [getElem?_map, h.getElem? hi, Option.map_some, getElem?_eq_getElem hl,
      Option.some.injEq] at hsymb
    rw [getElem?_take_of_lt hi, getElem?_take_of_lt hi, getElem?_drop,
      getElem?_drop, hsymb, getElem?_eq_getElem hl]
  · rw [getElem?_eq_none (by simp; omega), getElem?_eq_none (by simp; omega)]

lemma positions_after {p : Piece α} (h : Gapped (p :: ps)) (hi : i ∈ positions ps) :
    p.stop < i := by
  obtain ⟨q, hq, hl, _⟩ := mem_positions.1 hi
  exact Nat.lt_of_lt_of_le ((pairwise_cons.1 h).1 q hq) hl

section
variable {p : Piece α} {st : Nat}

lemma not_standsAt_across (h : Gapped (p :: ps)) (hst : start < p.symbols.length)
    (hcu : p.symbols.length < st) (position : Nat) : ¬ StandsAt (p :: ps) start st position := by
  intro hs
  have hla := hs.getElem? (i := p.symbols.length - 1 - start) (by omega)
  have hne := hs.getElem? (i := p.symbols.length - start) (by omega)
  rw [show start + (p.symbols.length - 1 - start) = p.symbols.length - 1 by omega,
    positions_cons, getElem?_append_left (by simp; omega),
    getElem?_range' (by omega)] at hla
  rw [show start + (p.symbols.length - start) = p.symbols.length by omega,
    positions_cons, getElem?_append_right (by simp)] at hne
  have hm := positions_after h (mem_of_getElem? hne)
  have := Option.some.inj hla
  rw [Piece.stop] at hm
  omega

lemma standsAt_within (hlt : start < st) (hcu : st ≤ p.symbols.length) :
    StandsAt (p :: ps) start st (p.offset + start) := by
  have hsp : range' p.offset p.symbols.length = range' p.offset start ++
      (range' (p.offset + start) (st - start) ++
        range' (p.offset + st) (p.symbols.length - st)) := by
    have hin := @range'_append_1 (p.offset + start) (st - start) (p.symbols.length - st)
    have ho := @range'_append_1 p.offset start (p.symbols.length - start)
    rw [show p.offset + start + (st - start) = p.offset + st by omega,
      show st - start + (p.symbols.length - st) = p.symbols.length - start by omega] at hin
    rw [hin, ho, Nat.add_sub_cancel' (by omega)]
  rw [StandsAt, positions_cons, hsp, append_assoc, drop_left' (by simp),
    append_assoc, take_left' (by simp)]

lemma standsAt_behind (hst : p.symbols.length ≤ start) (position : Nat) :
    StandsAt (p :: ps) start st position ↔
    StandsAt ps (start - p.symbols.length) (st - p.symbols.length) position := by
  unfold StandsAt
  rw [positions_cons, drop_append, drop_eq_nil_of_le (by simpa using hst), nil_append,
    length_range', show st - p.symbols.length - (start - p.symbols.length) = st - start by omega]

end

/-- A span stands in the text as it is exactly when no two pieces meet inside it. -/
lemma standsAt_iff (h : Gapped ps) {st : Nat} (hlt : start < st)
    (hsto : st ≤ (joined ps).length) :
    (∃ position, StandsAt ps start st position) ↔ ∀ c ∈ cuts ps, ¬ (start < c ∧ c < st) := by
  induction ps generalizing start st with
  | nil =>
    simp only [joined, flatMap_nil, length_nil] at hsto
    omega
  | cons p ps ih =>
    have hl : st ≤ p.symbols.length + (joined ps).length := by
      simpa using hsto
    rcases Nat.lt_or_ge start p.symbols.length with hst | hst
    · rcases Nat.lt_or_ge p.symbols.length st with hcu | hcu
      · refine iff_of_false ?_ fun ha => ha _ mem_cons_self ⟨hst, hcu⟩
        rintro ⟨position, hs⟩
        exact not_standsAt_across h hst hcu position hs
      · refine iff_of_true ⟨_, standsAt_within hlt hcu⟩ fun c hc => ?_
        rcases mem_cons.1 hc with rfl | hc
        · omega
        · obtain ⟨d, _, rfl⟩ := mem_map.1 hc
          omega
    · have hsh : (∃ position, StandsAt ps (start - p.symbols.length)
          (st - p.symbols.length) position) ↔ _ := ih (pairwise_cons.1 h).2 (by omega) (by omega)
      simp only [standsAt_behind hst, hsh, cuts, mem_cons, mem_map, forall_eq_or_imp,
        forall_exists_index, and_imp, forall_apply_eq_imp_iff₂]
      constructor
      · intro ha
        refine ⟨by omega, fun c hc => ?_⟩
        have := ha c hc
        omega
      · rintro ⟨_, ha⟩ c hc
        have := ha c hc
        omega

end Splice
