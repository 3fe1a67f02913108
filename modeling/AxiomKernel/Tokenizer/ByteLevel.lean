import Mathlib.Tactic.Common
import AxiomKernel.Lib.Image

/-!
# The byte-level alphabet

Bytes are written as code points below 512 and read back (`src/axiom_runtime.cpp`), so that token
strings are texts whatever bytes they stand for.
-/
namespace AxiomKernel.Tokenization

open Image List

/-- `axiom_utf8_next`: the code point, its bytes and what follows. Malformed bytes stand for
themselves, and continuation bytes are not checked. -/
def utf8Next : Bytes → Option (Nat × Bytes × Bytes)
  | [] => none
  | c0 :: t =>
    if c0 &&& 0x80 = 0 then some (c0.toNat, [c0], t)
    else
      match t with
      | [] => some (c0.toNat, [c0], t)
      | c1 :: t1 =>
        if c0 &&& 0xe0 = 0xc0 then
          some ((c0 &&& 0x1f).toNat * 64 + (c1 &&& 0x3f).toNat, [c0, c1], t1)
        else
          match t1 with
          | [] => some (c0.toNat, [c0], t)
          | c2 :: t2 =>
            if c0 &&& 0xf0 = 0xe0 then
              some ((c0 &&& 0x0f).toNat * 4096 + (c1 &&& 0x3f).toNat * 64 +
                (c2 &&& 0x3f).toNat, [c0, c1, c2], t2)
            else
              match t2 with
              | [] => some (c0.toNat, [c0], t)
              | c3 :: t3 =>
                if c0 &&& 0xf8 = 0xf0 then
                  some ((c0 &&& 0x07).toNat * 262144 + (c1 &&& 0x3f).toNat * 4096 +
                    (c2 &&& 0x3f).toNat * 64 + (c3 &&& 0x3f).toNat, [c0, c1, c2, c3], t3)
                else some (c0.toNat, [c0], t)

variable {s raw rest : Bytes} {cp : Nat}

variable (h : utf8Next s = some (cp, raw, rest))
include h

lemma utf8Next_eq : s = raw ++ rest ∧ raw ≠ [] := by
  unfold utf8Next at h
  repeat' split at h
  all_goals cases h
  all_goals exact ⟨rfl, by simp⟩

lemma utf8Next_lt : rest.length < s.length := by
  obtain ⟨rfl, hn⟩ := utf8Next_eq h
  have := length_pos_iff.2 hn
  rw [length_append]
  omega

omit h

def direct (byte : Nat) : Bool :=
  (33 ≤ byte && byte ≤ 126) || (161 ≤ byte && byte ≤ 172) || 174 ≤ byte

def byteDecoderLookup (cp : Nat) : Option UInt8 :=
  if cp < 256 then if direct cp then some (UInt8.ofNat cp) else none
  else (((List.range 256).filter (!direct ·))[cp - 256]?).map UInt8.ofNat

variable (byte : UInt8)

def byteEncoderCodepoint : Nat :=
  if direct byte.toNat then byte.toNat
  else 256 + (List.range byte.toNat).countP (!direct ·)

def utf8 (cp : Nat) : Bytes :=
  if cp ≤ 0x7f then [UInt8.ofNat cp]
  else if cp ≤ 0x7ff then [UInt8.ofNat (0xc0 ||| cp >>> 6), UInt8.ofNat (0x80 ||| cp &&& 0x3f)]
  else if cp ≤ 0xffff then
    [UInt8.ofNat (0xe0 ||| cp >>> 12), UInt8.ofNat (0x80 ||| cp >>> 6 &&& 0x3f),
      UInt8.ofNat (0x80 ||| cp &&& 0x3f)]
  else
    [UInt8.ofNat (0xf0 ||| cp >>> 18), UInt8.ofNat (0x80 ||| cp >>> 12 &&& 0x3f),
      UInt8.ofNat (0x80 ||| cp >>> 6 &&& 0x3f), UInt8.ofNat (0x80 ||| cp &&& 0x3f)]

def byteSymbol : Bytes := utf8 (byteEncoderCodepoint byte)

variable (text : Bytes)

def byteEncode : Bytes := text.flatMap byteSymbol

def byteDecode (piece : Bytes) : Bytes :=
  match _h : utf8Next piece with
  | none => []
  | some (cp, raw, rest) =>
    (match byteDecoderLookup cp with
      | some byte => [byte]
      | none => raw) ++ byteDecode rest
termination_by piece.length
decreasing_by exact utf8Next_lt _h

def utf8Parts (encoded : Bytes) : List Bytes :=
  match _h : utf8Next encoded with
  | none => []
  | some (_, raw, rest) => raw :: utf8Parts rest
termination_by encoded.length
decreasing_by exact utf8Next_lt _h

/-- Every symbol has one byte below 128 or two of which the first says so. -/
def symbolShape : Bool :=
  match byteSymbol byte with
  | [x] => x &&& 0x80 == 0 && x.toNat == byteEncoderCodepoint byte
  | [y, z] => y &&& 0x80 != 0 && y &&& 0xe0 == 0xc0 &&
      (y &&& 0x1f).toNat * 64 + (z &&& 0x3f).toNat == byteEncoderCodepoint byte
  | _ => false

lemma forall_byte {P : UInt8 → Prop} (h : ∀ n < 256, P (UInt8.ofNat n)) (byte : UInt8) :
    P byte := by
  have := h byte.toNat byte.toNat_lt
  rwa [UInt8.ofNat_toNat] at this

lemma symbolShape_eq : symbolShape byte = true :=
  forall_byte (P := fun byte => symbolShape byte = true) (by decide +kernel) byte

lemma byteDecoderLookup_codepoint :
    byteDecoderLookup (byteEncoderCodepoint byte) = some byte :=
  forall_byte (P := fun byte => byteDecoderLookup (byteEncoderCodepoint byte) = some byte)
    (by decide +kernel) byte

lemma one_not_mem_byteSymbol : (1 : UInt8) ∉ byteSymbol byte :=
  forall_byte (P := fun byte => (1 : UInt8) ∉ byteSymbol byte) (by decide +kernel) byte

lemma utf8Next_byteSymbol (rest : Bytes) :
    utf8Next (byteSymbol byte ++ rest) =
      some (byteEncoderCodepoint byte, byteSymbol byte, rest) := by
  have hsh := symbolShape_eq byte
  unfold symbolShape at hsh
  split at hsh
  next x hx =>
    simp only [Bool.and_eq_true, beq_iff_eq] at hsh
    rw [hx, singleton_append]
    simp [utf8Next, hsh.1, hsh.2]
  next y z hy =>
    simp only [Bool.and_eq_true, beq_iff_eq, bne_iff_ne, ne_eq] at hsh
    rw [hy, cons_append, singleton_append]
    simp only [utf8Next, if_neg hsh.1.1, if_pos hsh.1.2, hsh.2]
  next => cases hsh

lemma byteDecode_byteEncode : byteDecode (byteEncode text) = text := by
  induction text with
  | nil =>
    rw [byteDecode]
    rfl
  | cons byte text ih =>
    rw [byteEncode, flatMap_cons, byteDecode]
    split
    next h =>
      rw [utf8Next_byteSymbol] at h
      cases h
    next h =>
      rw [utf8Next_byteSymbol] at h
      cases h
      rw [byteDecoderLookup_codepoint]
      exact congrArg (byte :: ·) ih

lemma utf8Parts_byteEncode : utf8Parts (byteEncode text) = text.map byteSymbol := by
  induction text with
  | nil =>
    rw [utf8Parts]
    rfl
  | cons byte text ih =>
    rw [byteEncode, flatMap_cons, utf8Parts]
    split
    next h =>
      rw [utf8Next_byteSymbol] at h
      cases h
    next h =>
      rw [utf8Next_byteSymbol] at h
      cases h
      exact congrArg (byteSymbol byte :: ·) ih

lemma byteEncode_append (a b : Bytes) : byteEncode (a ++ b) = byteEncode a ++ byteEncode b :=
  flatMap_append

lemma byteEncode_singleton : byteEncode [byte] = byteSymbol byte := flatMap_singleton _ _

lemma one_not_mem_byteEncode : (1 : UInt8) ∉ byteEncode text := by
  intro h
  obtain ⟨byte, _, hm⟩ := mem_flatMap.1 h
  exact one_not_mem_byteSymbol byte hm

end AxiomKernel.Tokenization
