import AxiomKernel.Qwen4exp.PleSession

/-! The hashed rows of `ple.cpp`: how the multipliers and the heads of a layer are derived, what
`ple_validate_metadata` asks of them, and that the rows of accepted metadata are in range. -/
namespace AxiomKernel.Qwen4exp

open Guard List

def maxLong : Nat := 0x7fffffffffffffff

def signed (x : UInt64) : Int := if x.toNat ≤ maxLong then x.toNat else x.toNat - 2 ^ 64

/-- The loop of `is_prime` from `divisor` on. -/
def noDivisor (value divisor : Nat) : Bool :=
  if divisor ≤ value / divisor then
    if value % divisor = 0 then false else noDivisor value (divisor + 2)
  else true
termination_by value + 1 - divisor
decreasing_by
  have := Nat.div_le_self value divisor
  omega

def isPrime (value : Int) : Bool :=
  if value < 2 then false
  else if value % 2 = 0 then value = 2
  else noDivisor value.toNat 3

def splitmix64 (value : UInt64) : UInt64 :=
  let value := value + 0x9e3779b97f4a7c15
  let value := (value ^^^ value >>> 30) * 0xbf58476d1ce4e5b9
  let value := (value ^^^ value >>> 27) * 0x94d049bb133111eb
  value ^^^ value >>> 31

/-- `ple_derive_layer_multipliers`; whichever index overflows, the message is the same. -/
def deriveLayerMultipliers (unigramVocabSize : Int64) (pleLayerIndex seed : UInt64) :
    Except PleStatus (Fin 3 → UInt64) := do
  refuse (unigramVocabSize.toInt ≤ 0)
    (.invalidArgument, "PLE unigram vocabulary must be positive")
  let halfBound := max 1 (maxLong / unigramVocabSize.toInt.toNat / 2)
  let baseSeed := seed + 10007 * pleLayerIndex
  let multiplier (index : Fin 3) : Nat :=
    2 * ((splitmix64 (baseSeed + 0x9e3779b97f4a7c15 * (UInt64.ofNat index + 1))).toNat %
      halfBound) + 1
  refuse (∃ index, maxLong < multiplier index)
    (.arithmeticOverflow, "PLE multiplier overflows I64")
  pure fun index => UInt64.ofInt (multiplier index)

/-- The loop of `ple_derive_head_layout`; a head is its offset and its size. -/
def searchHeads (first required candidate found : Nat) (total : Int) (heads : List (Int × Int)) :
    Except PleStatus (List (Int × Int)) :=
  if found < required then
    if maxLong ≤ candidate then .error (.arithmeticOverflow, "PLE prime search overflowed I64")
    else if ¬ isPrime (candidate + 1) then
      searchHeads first required (candidate + 1) found total heads
    else if first ≤ found then
      if 16 ≤ heads.length then
        .error (.invalidState, "PLE prime derivation produced excess heads")
      else if (maxLong : Int) - total < candidate + 1 then
        .error (.arithmeticOverflow, "PLE combined head vocabulary overflows I64")
      else
        searchHeads first required (candidate + 1) (found + 1) (total + (candidate + 1))
          (heads ++ [(total, (candidate + 1 : Int))])
    else searchHeads first required (candidate + 1) (found + 1) total heads
  else .ok heads
termination_by maxLong - candidate

def deriveHeadLayout (ngramVocabSizeBase : Int64) (pleLayerIndex : UInt64) :
    Except PleStatus ((Fin 16 → UInt64) × (Fin 16 → UInt64)) := do
  refuse (ngramVocabSizeBase.toInt < 2)
    (.invalidArgument, "PLE n-gram vocabulary base must be at least two")
  refuse ((2 ^ 64 - 1 - 16) / 16 < pleLayerIndex.toNat)
    (.arithmeticOverflow, "PLE layer index overflows head derivation")
  let first := pleLayerIndex.toNat * 16
  let heads ← searchHeads first (first + 16) (ngramVocabSizeBase.toInt.toNat - 1) 0 0 []
  refuse (heads.length ≠ 16) (.invalidState, "PLE prime derivation produced too few heads")
  pure (fun head => UInt64.ofInt (heads.getD head (0, 0)).1,
    fun head => UInt64.ofInt (heads.getD head (0, 0)).2)

/-- A turn of the loop over the heads; the state is the head's number, the offset that is expected
and the size before. -/
def checkHead (s : Nat × Int × Int) (head : Int × Int) : Except String (Nat × Int × Int) := do
  refuse (¬ isPrime head.2 ∨ 0 < s.1 ∧ head.2 ≤ s.2.2)
    "PLE head vocabulary sizes must be increasing primes"
  refuse (head.1 ≠ s.2.1) "PLE head offsets are not contiguous"
  refuse ((maxLong : Int) - s.2.1 < head.2) "PLE combined head vocabulary overflows I64"
  .ok (s.1 + 1, s.2.1 + head.2, head.2)

namespace PleMetadata

variable (m : PleMetadata)

def multiplier (index : Fin 3) : Int := signed (m.layerMultipliers index)

variable (head : Fin 16)

def offset : Int := signed (m.ngramHeadsOffsets head)

def size : Int := signed (m.ngramHeadsVocabSizes head)

/-- `ple_validate_metadata`; the code of a failure is `invalid_metadata`. -/
def validate : Except String Unit := do
  refuse (m.unigramVocabSize ≤ 0) "PLE unigram vocabulary must be positive"
  refuse (m.eosTokenId < 0 ∨ m.unigramVocabSize ≤ m.eosTokenId)
    "PLE EOS token is outside the unigram vocabulary"
  refuse (∃ i, m.multiplier i ≤ 0 ∨ m.multiplier i % 2 = 0 ∨
      maxLong / m.unigramVocabSize < m.multiplier i)
    "PLE layer multiplier violates the odd bounded contract"
  let _ ← (ofFn fun head => (m.offset head, m.size head)).foldlM checkHead (0, 0, 0)

end PleMetadata

variable {s r : Nat × Int × Int} {hs : List (Int × Int)} {x : Int} {m : PleMetadata}

lemma signed_eq {x : UInt64} (h : 0 ≤ signed x) : x.toNat = signed x := by
  have := x.toNat_lt
  unfold signed at *
  split_ifs at * <;> omega

lemma signed_ofInt (h0 : 0 ≤ x) (h : x ≤ maxLong) : signed (UInt64.ofInt x) = x := by
  unfold signed maxLong at *
  rw [UInt64.ofInt, UInt64.toNat_ofNat']
  split_ifs <;> omega

lemma two_le (h : isPrime x = true) : 2 ≤ x := by
  unfold isPrime at h
  split_ifs at h <;> omega

lemma checkHead_eq_ok {head : Int × Int} : checkHead s head = .ok r ↔ isPrime head.2 = true ∧
    (s.1 = 0 ∨ s.2.2 < head.2) ∧ head.1 = s.2.1 ∧ s.2.1 + head.2 ≤ maxLong ∧
    r = (s.1 + 1, s.2.1 + head.2, head.2) := by
  simp only [checkHead, refuse_eq_ok, Except.ok.injEq]
  constructor <;> grind

lemma heads_checked (hs0 : 0 ≤ s.2.1) (h : hs.foldlM checkHead s = .ok r) :
    (∀ a ∈ hs, s.2.1 ≤ a.1 ∧ 2 ≤ a.2 ∧ a.1 + a.2 ≤ maxLong) ∧
      hs.Pairwise fun a b => a.1 + a.2 ≤ b.1 := by
  induction hs generalizing s with
  | nil => exact ⟨nofun, .nil⟩
  | cons head hs ih =>
    rw [foldlM_cons] at h
    obtain ⟨s', hs', h⟩ := bind_eq_ok.1 h
    obtain ⟨hp, -, ho, hle, rfl⟩ := checkHead_eq_ok.1 hs'
    have h2 := two_le hp
    obtain ⟨hall, hpair⟩ := ih (by dsimp only; omega) h
    dsimp only at hall
    refine ⟨forall_mem_cons.2 ⟨by omega, fun a ha => ?_⟩, pairwise_cons.2 ⟨fun a ha => ?_, hpair⟩⟩
    · have := hall a ha
      omega
    · have := hall a ha
      omega

lemma searchHeads_checked {first required n found : Nat} {total last : Int}
    {out : List (Int × Int)} (hlast : last ≤ n)
    (hhs : hs.foldlM checkHead (0, 0, 0) = .ok (hs.length, total, last))
    (h : searchHeads first required n found total hs = .ok out) :
    ∃ s, out.foldlM checkHead (0, 0, 0) = .ok s := by
  induction n, found, total, hs using searchHeads.induct first required generalizing last with
  | case1 | case3 | case4 =>
    unfold searchHeads at h
    grind
  | case2 n found total hs hf hm hp ih =>
    rw [searchHeads, if_pos hf, if_neg hm, if_pos hp] at h
    exact ih (by omega) hhs h
  | case5 n found total hs hf hm hp hfirst hlen htotal ih =>
    rw [searchHeads, if_pos hf, if_neg hm, if_neg hp, if_pos hfirst, if_neg hlen,
      if_neg htotal] at h
    refine @ih (n + 1) (by omega) ?_ h
    rw [foldlM_append, hhs, length_append]
    refine bind_eq_ok.2 ⟨_, rfl, ?_⟩
    rw [foldlM_cons]
    have hp' : isPrime (n + 1) = true := by simpa using hp
    exact bind_eq_ok.2 ⟨_, checkHead_eq_ok.2
      ⟨hp', .inr (by dsimp only; omega), rfl, by dsimp only; omega, rfl⟩, rfl⟩
  | case6 n found total hs hf hm hp hfirst ih =>
    rw [searchHeads, if_pos hf, if_neg hm, if_neg hp, if_neg hfirst] at h
    exact ih (by omega) hhs h
  | case7 n found total hs hf =>
    rw [searchHeads, if_neg hf] at h
    cases h
    exact ⟨_, hhs⟩

lemma validate_eq_ok : m.validate = .ok () ↔ 0 < m.unigramVocabSize ∧
    (0 ≤ m.eosTokenId ∧ m.eosTokenId < m.unigramVocabSize) ∧
    (∀ i, 0 < m.multiplier i ∧ ¬ m.multiplier i % 2 = 0 ∧
      m.multiplier i ≤ maxLong / m.unigramVocabSize) ∧
    ∃ s, (ofFn fun head => (m.offset head, m.size head)).foldlM checkHead (0, 0, 0) = .ok s := by
  simp only [PleMetadata.validate, refuse_eq_ok, not_or, not_exists, not_le, not_lt]
  refine and_congr_right fun _ => and_congr_right fun _ => and_congr_right fun _ =>
    bind_eq_ok.trans ⟨?_, ?_⟩
  · rintro ⟨s, h, -⟩
    exact ⟨s, h⟩
  · rintro ⟨s, h⟩
    exact ⟨s, h, rfl⟩

lemma multipliers_checked {vocab : Int64} {layer seed : UInt64} {mult : Fin 3 → UInt64}
    (h : deriveLayerMultipliers vocab layer seed = .ok mult) : 0 < vocab.toInt ∧
    ∀ i, 0 < signed (mult i) ∧ ¬ signed (mult i) % 2 = 0 ∧
    signed (mult i) ≤ maxLong / vocab.toInt := by
  simp only [deriveLayerMultipliers, refuse_eq_ok, not_exists, not_lt, not_le] at h
  obtain ⟨hvocab, hmax, hmult⟩ := h
  cases hmult
  refine ⟨hvocab, fun i => ?_⟩
  obtain ⟨n, hn⟩ := Int.eq_ofNat_of_zero_le hvocab.le
  have hlt : vocab.toInt < 2 ^ 63 := vocab.toInt_lt
  have hle := hmax i
  dsimp only
  rw [hn, Int.toNat_natCast] at hle ⊢
  generalize (splitmix64 _).toNat = x at hle ⊢
  have hpos : 0 < maxLong / n := Nat.div_pos (by unfold maxLong; omega) (by omega)
  have hx := Nat.mod_lt x (show 0 < max 1 (maxLong / n / 2) by omega)
  rw [signed_ofInt (by omega) (by omega)]
  norm_cast
  omega

lemma heads_derived {base : Int64} {layer : UInt64} {o z : Fin 16 → UInt64}
    (h : deriveHeadLayout base layer = .ok (o, z)) :
    ∃ s, (ofFn fun i => (signed (o i), signed (z i))).foldlM checkHead (0, 0, 0) = .ok s := by
  simp only [deriveHeadLayout, refuse_eq_ok] at h
  obtain ⟨-, -, h⟩ := h
  obtain ⟨hs, hsearch, h⟩ := bind_eq_ok.1 h
  obtain ⟨hlen, hout⟩ := refuse_eq_ok.1 h
  cases hout
  obtain ⟨s, hchecked⟩ := searchHeads_checked (Int.natCast_nonneg _) rfl hsearch
  obtain ⟨hall, -⟩ := heads_checked (by simp) hchecked
  refine ⟨s, (congrArg (foldlM checkHead (0, 0, 0)) ?_).trans hchecked⟩
  refine ext_getElem (by simpa using (not_not.1 hlen).symm) fun i h1 h2 => ?_
  have hi := hall hs[i] (getElem_mem h2)
  dsimp only at hi
  rw [List.getElem_ofFn]
  dsimp only
  rw [getD_eq_getElem _ _ h2, signed_ofInt (by omega) (by omega),
    signed_ofInt (by omega) (by omega)]

lemma mapM_ok {α β ε : Type} {f : α → Except ε β} {g : α → β} :
    ∀ {l : List α}, (∀ a ∈ l, f a = .ok (g a)) → l.mapM f = .ok (l.map g)
  | [], _ => rfl
  | a :: l, h => by
    obtain ⟨ha, hl⟩ := forall_mem_cons.1 h
    rw [mapM_cons, ha, mapM_ok hl]
    rfl

section

variable (hm : m.validate = .ok ()) (head : Fin 16)
include hm

lemma head_bounds : (m.ngramHeadsOffsets head).toNat = m.offset head ∧
    (m.ngramHeadsVocabSizes head).toNat = m.size head ∧ 2 ≤ m.size head ∧
    m.offset head + m.size head ≤ maxLong := by
  obtain ⟨-, -, -, s, hs⟩ := validate_eq_ok.1 hm
  obtain ⟨hall, -⟩ := heads_checked (by simp) hs
  obtain ⟨h0, h2, hle⟩ := hall _ (mem_ofFn.2 ⟨head, rfl⟩)
  exact ⟨signed_eq h0, signed_eq (show 0 ≤ m.size head by omega), h2, hle⟩

variable (mixed : UInt64)

lemma row_toNat : ((m.ngramHeadsOffsets head + mixed % m.ngramHeadsVocabSizes head).toNat : Int) =
    m.offset head + mixed.toNat % m.size head ∧ 0 ≤ mixed.toNat % m.size head ∧
    mixed.toNat % m.size head < m.size head := by
  obtain ⟨ho, hz, h2, hle⟩ := head_bounds hm head
  have h0 := Int.emod_nonneg mixed.toNat (show m.size head ≠ 0 by omega)
  have hlt := Int.emod_lt_of_pos mixed.toNat (show 0 < m.size head by omega)
  refine ⟨?_, h0, hlt⟩
  rw [← ho, ← hz] at *
  rw [UInt64.toNat_add, UInt64.toNat_mod]
  unfold maxLong at hle
  omega

lemma row_le :
    (m.ngramHeadsOffsets head + mixed % m.ngramHeadsVocabSizes head).toNat ≤ maxLong := by
  have := head_bounds hm head
  have := row_toNat hm head mixed
  omega

omit head in
lemma computeIds_eq {left : Int × Int} {token : Int} (h : 0 ≤ token ∧ token < m.unigramVocabSize)
    (h1 : 0 ≤ left.1 ∧ left.1 < m.unigramVocabSize)
    (h2 : 0 ≤ left.2 ∧ left.2 < m.unigramVocabSize) :
    ∃ mixed : Fin 16 → UInt64, m.computeIds left token = .ok (ofFn fun head =>
      m.ngramHeadsOffsets head + mixed head % m.ngramHeadsVocabSizes head) := by
  apply Exists.intro
  simp only [PleMetadata.computeIds, PleMetadata.validateToken, refuse_eq_ok]
  refine ⟨by omega, by omega, by omega, ?_⟩
  rw [ofFn_eq_map]
  refine mapM_ok fun head _ => refuse_eq_ok.2 ⟨?_, rfl⟩
  rw [UInt64.not_lt, UInt64.le_iff_toNat_le]
  exact row_le hm head _

omit head in
lemma heads_apart {a b : Fin 16} (hab : a < b) : m.offset a + m.size a ≤ m.offset b := by
  obtain ⟨-, -, -, s, hs⟩ := validate_eq_ok.1 hm
  exact pairwise_ofFn.1 (heads_checked (by simp) hs).2 hab

end

/-- What the derivations return is accepted with every end token of the vocabulary. For metadata
that is accepted and tokens of the vocabulary no product and no sum leaves the I64 range, the row of
each head is in the head's part of the table, and the rows of two heads differ. -/
theorem ple_hashing :
    (∀ vocab base layer seed eos mult offsets sizes,
      deriveLayerMultipliers vocab layer seed = .ok mult →
      deriveHeadLayout base layer = .ok (offsets, sizes) → 0 ≤ eos → eos < vocab.toInt →
      (PleMetadata.mk vocab.toInt eos mult offsets sizes).validate = .ok ()) ∧
    ∀ m : PleMetadata, m.validate = .ok () →
      let inVocab (token : Int) := 0 ≤ token ∧ token < m.unigramVocabSize
      (∀ token, inVocab token → ∀ index, token * m.multiplier index ≤ maxLong) ∧
      (∀ head (mixed : UInt64), m.offset head + mixed.toNat % m.size head ≤ maxLong) ∧
      ∀ left token, inVocab token → inVocab left.1 → inVocab left.2 →
        ∃ ids : Fin 16 → UInt64, m.computeIds left token = .ok (ofFn ids) ∧
          (∀ head, m.offset head ≤ signed (ids head) ∧
            signed (ids head) < m.offset head + m.size head) ∧ ids.Injective := by
  refine ⟨fun vocab base layer seed eos mult offsets sizes hmult hlayout h0 hlt => ?_,
    fun m hm => ⟨fun token ht i => ?_, fun head mixed => ?_, fun left token ht h1 h2 => ?_⟩⟩
  · obtain ⟨hvocab, hmult⟩ := multipliers_checked hmult
    exact validate_eq_ok.2 ⟨hvocab, ⟨h0, hlt⟩, hmult, heads_derived hlayout⟩
  · obtain ⟨hvocab, -, hmult, -⟩ := validate_eq_ok.1 hm
    obtain ⟨hpos, -, hle⟩ := hmult i
    calc token * m.multiplier i
        ≤ m.unigramVocabSize * (maxLong / m.unigramVocabSize) :=
          mul_le_mul ht.2.le hle hpos.le hvocab.le
      _ ≤ maxLong := Int.mul_ediv_self_le hvocab.ne'
  · have := row_le hm head mixed
    have := row_toNat hm head mixed
    omega
  · obtain ⟨mixed, hids⟩ := computeIds_eq hm ht h1 h2
    have hrow (head : Fin 16) := row_toNat hm head (mixed head)
    refine ⟨_, hids, fun head => ?_, fun a b hab => ?_⟩
    · have hr := hrow head
      rw [signed, if_pos (row_le hm head _)]
      omega
    · have ha := hrow a
      have hb := hrow b
      dsimp only at hab
      rw [hab] at ha
      rcases lt_trichotomy a b with h | h | h
      · have := heads_apart hm h
        omega
      · exact h
      · have := heads_apart hm h
        omega

/-- The multipliers and the heads derived for a vocabulary of a thousand tokens. -/
theorem ple_hashing_thousand : ∃ mult offsets sizes,
    deriveLayerMultipliers 1000 0 7 = .ok mult ∧ deriveHeadLayout 10 0 = .ok (offsets, sizes) ∧
      let m := PleMetadata.mk (1000 : Int64).toInt 2 mult offsets sizes
      m.validate = .ok () ∧ ∃ ids : Fin 16 → UInt64,
        m.computeIds (5, 7) 9 = .ok (ofFn ids) ∧ ids.Injective := by
  have hmult : (deriveLayerMultipliers 1000 0 7).isOk := by decide +kernel
  have hheads : (deriveHeadLayout 10 0).isOk := by decide +kernel
  rcases hm : deriveLayerMultipliers 1000 0 7 with e | mult
  · rw [hm] at hmult
    cases hmult
  rcases hh : deriveHeadLayout 10 0 with e | ⟨offsets, sizes⟩
  · rw [hh] at hheads
    cases hheads
  have hv := ple_hashing.1 1000 10 0 7 2 mult offsets sizes hm hh (by decide) (by decide)
  have hin : ∀ token ∈ [(5 : Int), 7, 9], 0 ≤ token ∧ token < (1000 : Int64).toInt := by decide
  obtain ⟨-, -, hids⟩ := ple_hashing.2 _ hv
  obtain ⟨ids, hids, -, hinj⟩ := hids (5, 7) 9 (hin 9 (by simp)) (hin 5 (by simp))
    (hin 7 (by simp))
  exact ⟨mult, offsets, sizes, rfl, rfl, hv, ids, hids, hinj⟩

end AxiomKernel.Qwen4exp
