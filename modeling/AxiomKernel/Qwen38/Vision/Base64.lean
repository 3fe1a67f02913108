import AxiomKernel.Lib.Guard
import AxiomKernel.Lib.Text

/-!
# Base64 media

`decode_base64` reads the digits of a data URL into a 32-bit word that it never clears and takes a
byte off whenever eight bits are there. White space is passed over and padding ends the digits. It
returns exactly the bytes whose standard encoding the digits are.
-/
namespace AxiomKernel.Qwen38.Vision.Base64

open List Image Text

variable (c : UInt8)

/-- The lambda `value` of `decode_base64`. -/
def value : Option Nat :=
  if 65 ≤ c ∧ c ≤ 90 then some (c.toNat - 65)
  else if 97 ≤ c ∧ c ≤ 122 then some (c.toNat - 97 + 26)
  else if 48 ≤ c ∧ c ≤ 57 then some (c.toNat - 48 + 52)
  else if c = 43 then some 62
  else if c = 47 then some 63
  else none

def isBlank : Bool := c = 32 || c = 9 || c = 13 || c = 10

structure Decoder where
  accumulator : Nat := 0
  bits : Nat := 0
  padding : Bool := false
  out : Bytes := []

/-- What a digit does. -/
def Decoder.push (s : Decoder) (digit : Nat) : Decoder :=
  let accumulator := (s.accumulator * 64 + digit) % 2 ^ 32
  if 8 ≤ s.bits + 6 then
    { s with
      accumulator
      bits := s.bits + 6 - 8
      out := s.out ++ [UInt8.ofNat (accumulator / 2 ^ (s.bits + 6 - 8))] }
  else { s with accumulator, bits := s.bits + 6 }

/-- One turn of the loop. -/
def decodeChar (s : Decoder) (ch : UInt8) : Except String Decoder :=
  if ch = 61 then .ok { s with padding := true }
  else if isBlank ch then .ok s
  else if s.padding then .error "invalid base64 padding"
  else
    match value ch with
    | none => .error "data URL is not valid base64"
    | some digit => .ok (s.push digit)

/-- `decode_base64`; an empty result is refused without a message. -/
def decodeBase64 (encoded : Bytes) : Except String Bytes := do
  let s ← encoded.foldlM decodeChar {}
  if 6 ≤ s.bits ∨ s.bits ≠ 0 ∧ s.accumulator % 2 ^ s.bits ≠ 0 then
    .error "data URL has truncated base64"
  else if s.out = [] then .error ""
  else .ok s.out

/-- The alphabet of RFC 4648. -/
def alphabet : Bytes :=
  ascii "ABCDEFGHIJKLMNOPQRSTUVWXYZabcdefghijklmnopqrstuvwxyz0123456789+/"

/-- The digits of the standard encoding, without padding. -/
def digitsOf : Bytes → List Nat
  | a :: b :: c :: rest =>
    a.toNat / 4 :: (a.toNat % 4 * 16 + b.toNat / 16) :: (b.toNat % 16 * 4 + c.toNat / 64) ::
      c.toNat % 64 :: digitsOf rest
  | [a, b] => [a.toNat / 4, a.toNat % 4 * 16 + b.toNat / 16, b.toNat % 16 * 4]
  | [a] => [a.toNat / 4, a.toNat % 4 * 16]
  | [] => []

variable (b : Bytes)

def encode : Bytes := (digitsOf b).map (alphabet.getD · 0)

lemma value_alphabet : ∀ d < 64, value (alphabet.getD d 0) = some d ∧ alphabet.getD d 0 ≠ 61 ∧
    isBlank (alphabet.getD d 0) = false := by
  decide +kernel

lemma alphabet_value {c : UInt8} {d : Nat} (h : value c = some d) :
    d < 64 ∧ alphabet.getD d 0 = c := by
  have ha : ∀ n < 256, ∀ d ∈ value (UInt8.ofNat n), d < 64 ∧
      alphabet.getD d 0 = UInt8.ofNat n := by decide +kernel
  have hc := ha c.toNat c.toNat_lt
  rw [UInt8.ofNat_toNat] at hc
  exact hc d h

variable {s : Decoder}

/-- The leftover bits are those of an encoding. -/
def Decoder.Complete (s : Decoder) : Prop :=
  ¬ (6 ≤ s.bits ∨ s.bits ≠ 0 ∧ s.accumulator % 2 ^ s.bits ≠ 0)

lemma ofNat_eq {n : Nat} {a : UInt8} (h : n % 256 = a.toNat) : UInt8.ofNat n = a := by
  rw [← UInt8.toNat_inj, UInt8.toNat_ofNat', h]

lemma push_digitsOf (hs : s.bits = 0) : ((digitsOf b).foldl Decoder.push s).out = s.out ++ b ∧
    ((digitsOf b).foldl Decoder.push s).Complete := by
  induction b using digitsOf.induct generalizing s with
  | case1 a b c rest ih =>
    have ha := a.toNat_lt
    have hb := b.toNat_lt
    have hc := c.toNat_lt
    simp only [digitsOf, foldl_cons]
    set s' := (((s.push _).push _).push _).push _ with hs'
    have ho : s'.bits = 0 ∧ s'.out = s.out ++ [a, b, c] := by
      simp only [hs', Decoder.push, hs]
      norm_num
      refine ⟨?_, ?_, ?_⟩ <;> refine ofNat_eq ?_ <;> omega
    obtain ⟨hr, hco⟩ := ih ho.1
    exact ⟨by rw [hr, ho.2]; simp, hco⟩
  | case2 a b =>
    have ha := a.toNat_lt
    have hb := b.toNat_lt
    simp only [digitsOf, foldl_cons, foldl_nil, Decoder.Complete, Decoder.push, hs]
    norm_num
    exact ⟨⟨ofNat_eq (by omega), ofNat_eq (by omega)⟩, by omega⟩
  | case3 a =>
    have ha := a.toNat_lt
    simp only [digitsOf, foldl_cons, foldl_nil, Decoder.Complete, Decoder.push, hs]
    norm_num
    exact ⟨ofNat_eq (by omega), by omega⟩
  | case4 => simp [digitsOf, Decoder.Complete, hs]

/-- Digits that leave no bits over are those of the bytes they push. -/
lemma digitsOf_push {s : Decoder} (ds : List Nat) (hds : ∀ d ∈ ds, d < 64) (hs : s.bits = 0)
    (h : (ds.foldl Decoder.push s).Complete) :
    ∃ b, (ds.foldl Decoder.push s).out = s.out ++ b ∧ ds = digitsOf b := by
  match ds, hds, h with
  | [], _, _ => exact ⟨[], by simp, rfl⟩
  | [d], _, h => simp [Decoder.Complete, Decoder.push, hs] at h
  | [d, e], hds, h =>
    have hd := hds d (by simp)
    have he := hds e (by simp)
    simp only [foldl_cons, foldl_nil, Decoder.Complete, Decoder.push, hs] at h ⊢
    norm_num at h ⊢
    simp only [digitsOf, UInt8.toNat_ofNat', cons.injEq, and_true]
    omega
  | [d, e, f], hds, h =>
    have hd := hds d (by simp)
    have he := hds e (by simp)
    have hf := hds f (by simp)
    simp only [foldl_cons, foldl_nil, Decoder.Complete, Decoder.push, hs] at h ⊢
    norm_num at h ⊢
    simp only [digitsOf, UInt8.toNat_ofNat', cons.injEq, and_true]
    omega
  | d :: e :: f :: g :: ds, hds, h =>
    have hd := hds d (by simp)
    have he := hds e (by simp)
    have hf := hds f (by simp)
    have hg := hds g (by simp)
    simp only [foldl_cons] at h ⊢
    set s' := (((s.push d).push e).push f).push g with hs'
    have hbi : s'.bits = 0 := by simp [hs', Decoder.push, hs]
    obtain ⟨b, hb, rfl⟩ := digitsOf_push ds (fun d hd => hds d (by simp [hd])) hbi h
    rw [hb]
    simp only [hs', Decoder.push, hs]
    norm_num
    simp only [digitsOf, UInt8.toNat_ofNat', cons.injEq, and_true]
    omega

/-- The characters that are digits. -/
def isDigit : Bool := !isBlank c && c != 61

/-- A run that ends well: behind padding there are no digits, and before it each one is pushed. -/
lemma run_ok {e : Bytes} {r : Decoder} (h : e.foldlM decodeChar s = .ok r) :
    (s.padding = true → e.filter isDigit = []) ∧
    ∃ ds : List Nat, e.filter isDigit = ds.map (alphabet.getD · 0) ∧ (∀ d ∈ ds, d < 64) ∧
    r = { ds.foldl Decoder.push s with padding := r.padding } := by
  induction e generalizing s with
  | nil =>
    cases h
    exact ⟨fun _ => rfl, [], rfl, by simp, rfl⟩
  | cons c e ih =>
    rw [foldlM_cons] at h
    obtain ⟨s', hs', h⟩ := Guard.bind_eq_ok.1 h
    obtain ⟨hpa, ds, hf, hds, hr⟩ := ih h
    unfold decodeChar at hs'
    split_ifs at hs' with heq hb hp
    · cases hs'
      have hnil := hpa rfl
      rw [hnil, nil_eq, map_eq_nil_iff] at hf
      subst hf
      have hc : (c :: e).filter isDigit = [] := by
        rw [filter_cons_of_neg (by simp [isDigit, heq]), hnil]
      exact ⟨fun _ => hc, [], hc, by simp, hr⟩
    · cases hs'
      rw [filter_cons_of_neg (by simp [isDigit, hb])]
      exact ⟨hpa, ds, hf, hds, hr⟩
    · split at hs'
      · cases hs'
      next d hd =>
        cases hs'
        obtain ⟨hlt, hc⟩ := alphabet_value hd
        refine ⟨fun h => absurd h hp, d :: ds, ?_, ?_, hr⟩
        · rw [filter_cons_of_pos (by simp [isDigit, heq, hb]), hf, map_cons, hc]
        · simpa [hlt] using hds

/-- Blanks are passed over. -/
lemma run_filter (e : Bytes) : e.foldlM decodeChar s =
    (e.filter (!isBlank ·)).foldlM decodeChar s := by
  induction e generalizing s with
  | nil => rfl
  | cons c e ih =>
    rw [foldlM_cons, filter_cons]
    cases hc : isBlank c with
    | true =>
      have hne : c ≠ 61 := by
        rintro rfl
        simp [isBlank] at hc
      rw [decodeChar, if_neg hne, if_pos hc]
      exact ih
    | false => simp [ih]

lemma run_padding (k : Nat) :
    ∃ p, (replicate k 61).foldlM decodeChar s = .ok { s with padding := p } := by
  induction k generalizing s with
  | zero => exact ⟨s.padding, rfl⟩
  | succ k ih =>
    obtain ⟨p, hp⟩ := @ih { s with padding := true }
    exact ⟨p, hp⟩

lemma run_digits (ds : List Nat) (hds : ∀ d ∈ ds, d < 64) (hp : s.padding = false) (k : Nat) :
    ∃ p, (ds.map (alphabet.getD · 0) ++ replicate k 61).foldlM decodeChar s =
    .ok { ds.foldl Decoder.push s with padding := p } := by
  induction ds generalizing s with
  | nil => exact run_padding k
  | cons d ds ih =>
    obtain ⟨hlt, hds⟩ := forall_mem_cons.1 hds
    obtain ⟨hv, hpa, hb⟩ := value_alphabet d hlt
    rw [map_cons, cons_append, foldlM_cons, decodeChar, if_neg hpa, hb, if_neg (by simp), hp,
      if_neg (by simp), hv]
    refine ih hds ?_
    unfold Decoder.push
    dsimp only
    split <;> exact hp

lemma digitsOf_lt : ∀ d ∈ digitsOf b, d < 64 := by
  induction b using digitsOf.induct with
  | case1 a b c rest ih =>
    have ha := a.toNat_lt
    have hb := b.toNat_lt
    have hc := c.toNat_lt
    simp only [digitsOf, forall_mem_cons]
    exact ⟨by omega, by omega, by omega, by omega, ih⟩
  | case2 a b =>
    have ha := a.toNat_lt
    have hb := b.toNat_lt
    simp only [digitsOf, forall_mem_cons]
    exact ⟨by omega, by omega, by omega, by simp⟩
  | case3 a =>
    have ha := a.toNat_lt
    simp only [digitsOf, forall_mem_cons]
    exact ⟨by omega, by omega, by simp⟩
  | case4 => simp [digitsOf]

lemma digits_of_decoded {b e : Bytes} (h : decodeBase64 e = .ok b) :
    e.filter isDigit = encode b := by
  obtain ⟨r, hr, h⟩ := Guard.bind_eq_ok.1 h
  obtain ⟨-, ds, hf, hds, hru⟩ := run_ok hr
  split_ifs at h with hc hn
  cases h
  have hco : (ds.foldl Decoder.push {}).Complete := by
    rw [hru] at hc
    exact hc
  obtain ⟨b, hb, rfl⟩ := digitsOf_push ds hds rfl hco
  rw [hf, encode, hru, hb]
  rfl

/-- A text whose characters other than blanks are the encoding of `b`, with padding or without, is
decoded to `b`; the digits of a text that is decoded to `b` are the encoding of `b`, and so are
those of every other one. -/
theorem decodeBase64_exact (b encoded : Bytes) :
    (b ≠ [] → ∀ k, encoded.filter (!isBlank ·) = encode b ++ replicate k 61 →
      decodeBase64 encoded = .ok b) ∧
    (decodeBase64 encoded = .ok b → encoded.filter isDigit = encode b ∧
      ∀ other, decodeBase64 other = .ok b → other.filter isDigit = encoded.filter isDigit) := by
  refine ⟨fun hb k he => ?_, fun h => ?_⟩
  · obtain ⟨p, hp⟩ := run_digits (s := {}) (digitsOf b) (digitsOf_lt b) rfl k
    obtain ⟨hou, hc⟩ := push_digitsOf (s := {}) b rfl
    rw [decodeBase64, run_filter, he, encode, hp]
    refine (if_neg hc).trans ?_
    dsimp only
    rw [hou, nil_append, if_neg hb]
  · refine ⟨digits_of_decoded h, fun other ho => ?_⟩
    rw [digits_of_decoded ho, digits_of_decoded h]

end AxiomKernel.Qwen38.Vision.Base64
