import Mathlib.Data.UInt
import Mathlib.Logic.Function.Basic
import AxiomKernel.Lib.Image

/-!
# Checksums folded over bytes

A fold whose step loses neither the state nor the byte tells any two inputs apart that differ in
one byte. FNV-1a is such a fold: the xor is undone by itself, and the prime is odd, so the product
is undone by its inverse modulo `2 ^ 64`. An image that holds its own checksum then cannot stay
valid when one byte of it changes.
-/
namespace Checksum

open Image Function List

section

variable {σ β : Type*} {step : σ → β → σ}

variable (hs : ∀ byte, Injective fun state => step state byte)
include hs

lemma foldl_injective (bs : List β) : Injective fun state => bs.foldl step state := by
  induction bs with
  | nil => exact injective_id
  | cons byte bs ih => exact ih.comp (hs byte)

lemma foldl_ne (hb : ∀ state, Injective (step state)) {x y : β} (hn : x ≠ y) (state : σ)
    (b af : List β) :
    (b ++ x :: af).foldl step state ≠ (b ++ y :: af).foldl step state := by
  rw [foldl_append, foldl_append, foldl_cons, foldl_cons]
  intro h
  exact hn (hb _ (foldl_injective hs af h))

end

def fnvOffset : UInt64 := 1469598103934665603
def fnvPrime : UInt64 := 1099511628211

def fnvStep (hash : UInt64) (byte : UInt8) : UInt64 := (hash ^^^ byte.toUInt64) * fnvPrime

lemma fnvPrime_mul_inverse : fnvPrime * 14886173955864302971 = 1 := by decide

lemma mul_fnvPrime_injective : Injective fun ha : UInt64 => ha * fnvPrime := by
  intro x y h
  have := congrArg (· * 14886173955864302971) h
  simpa only [UInt64.mul_assoc, fnvPrime_mul_inverse, UInt64.mul_one] using this

lemma fnvStep_injective_hash (byte : UInt8) : Injective fun ha => fnvStep ha byte := by
  intro x y h
  exact UInt64.xor_left_inj byte.toUInt64 |>.1 (mul_fnvPrime_injective h)

lemma fnvStep_injective_byte (ha : UInt64) : Injective (fnvStep ha) := by
  intro x y h
  have hword := (UInt64.xor_right_inj ha).1 (mul_fnvPrime_injective h)
  exact UInt8.toUInt64_inj.1 hword

/-- A checksum that tells apart two inputs of one length which differ in one byte. -/
def Detects (checksum : Bytes → UInt64) : Prop :=
  ∀ before after x y, x ≠ y → checksum (before ++ x :: after) ≠ checksum (before ++ y :: after)

lemma detects_fnv (seed : UInt64) : Detects fun bs => bs.foldl fnvStep seed :=
  fun b af _ _ hn =>
    foldl_ne fnvStep_injective_hash fnvStep_injective_byte hn seed b af

variable {checksum : Bytes → UInt64} {image : Bytes} {i offset : Nat} {byte : UInt8}

lemma Detects.set (h : Detects checksum) (hi : i < image.length) (hn : image[i]? ≠ some byte) :
    checksum (image.set i byte) ≠ checksum image := by
  have ho : image = image.take i ++ image[i] :: image.drop (i + 1) := by
    rw [← drop_eq_getElem_cons hi, take_append_drop]
  rw [set_eq_take_append_cons_drop, if_pos hi]
  conv => rhs; rw [ho]
  apply h
  rintro rfl
  exact hn (getElem?_eq_getElem hi)

/-- The image holds at an offset the checksum of itself with that field cleared. -/
def Sealed (checksum : Bytes → UInt64) (offset : Nat) (image : Bytes) : Prop :=
  u64At offset image = checksum (write offset (zeros 8) image)

lemma sealed_write (hc : slice offset 8 image = zeros 8) (hl : offset + 8 ≤ image.length) :
    Sealed checksum offset (write offset (le64 (checksum image)) image) := by
  have hw : (le64 (checksum image)).length = (zeros 8).length := by
    rw [length_le64, length_zeros]
  have hs : write offset (zeros 8) image = image := by
    rw [← hc, write_slice_self hl]
  rw [Sealed, u64At_eq (slice_write_same (length_le64 _) (by omega)),
    write_write_same hw (by rw [length_le64]; exact hl), hs]

lemma Sealed.not_set (hs : Sealed checksum offset image) (hd : Detects checksum)
    (hl : offset + 8 ≤ image.length) (hi : i < image.length) (hn : image[i]? ≠ some byte) :
    ¬ Sealed checksum offset (image.set i byte) := by
  have hz : (zeros 8).length = 8 := length_zeros 8
  intro hs'
  rw [Sealed] at hs hs'
  by_cases hin : offset ≤ i ∧ i < offset + 8
  · -- the field itself: the cleared image is the same, the stored value is not
    rw [write_set_of_mem hin.1 (by omega) (by omega), ← hs] at hs'
    exact slice_set_ne hin.1 hin.2 hi hn
      (slice_eq_of_u64At_eq (by rw [length_set]; exact hl) hl hs')
  · -- elsewhere: the stored value is the same, the checksum is not
    have ho : i < offset ∨ offset + 8 ≤ i := by omega
    rw [write_set_of_not_mem (by omega) (by omega), u64At, slice_set_of_not_mem ho, ← u64At,
      hs] at hs'
    have hw : (write offset (zeros 8) image)[i]? = image[i]? := by
      rw [getElem?_write (by omega)]
      split_ifs <;> first | rfl | omega
    refine hd.set ?_ (by rwa [hw]) hs'.symm
    rw [length_write (by omega)]
    exact hi

end Checksum
