import Mathlib.Data.List.Basic
import Mathlib.Tactic.Ring

/-!
# Byte images

A file or a structure in memory as a list of bytes: a range of it, the image after a write to a
range, and little-endian numbers in it. A write is seen by a read of its own range and by no read
of another one.
-/
namespace Image

open List

abbrev Bytes := List UInt8

def slice (offset width : Nat) (image : Bytes) : Bytes := (image.drop offset).take width

def write (offset : Nat) (bytes image : Bytes) : Bytes :=
  image.take offset ++ bytes ++ image.drop (offset + bytes.length)

def zeros (width : Nat) : Bytes := List.replicate width 0

@[simp] lemma length_zeros (width : Nat) : (zeros width).length = width := length_replicate

variable {offset width : Nat} {image : Bytes}

lemma length_slice (h : offset + width ≤ image.length) :
    (slice offset width image).length = width := by
  rw [slice, length_take, length_drop]
  omega

variable {bytes : Bytes}

lemma length_write (h : offset + bytes.length ≤ image.length) :
    (write offset bytes image).length = image.length := by
  rw [write, length_append, length_append, length_take, length_drop]
  omega

lemma getElem?_write (h : offset ≤ image.length) (i : Nat) : (write offset bytes image)[i]? =
    if i < offset then image[i]? else if i < offset + bytes.length then bytes[i - offset]?
    else image[i]? := by
  have hl : (image.take offset).length = offset := by rw [length_take, Nat.min_eq_left h]
  rw [write, append_assoc]
  split_ifs with hp hi
  · rw [getElem?_append_left (by omega), getElem?_take_of_lt hp]
  · rw [getElem?_append_right (by omega), hl, getElem?_append_left (by omega)]
  · rw [getElem?_append_right (by omega), hl, getElem?_append_right (by omega), getElem?_drop]
    congr 1
    omega

lemma slice_write_same (hw : bytes.length = width) (h : offset ≤ image.length) :
    slice offset width (write offset bytes image) = bytes := by
  rw [slice, write, append_assoc, drop_append, drop_of_length_le (by simp),
    length_take, Nat.min_eq_left h, Nat.sub_self, drop_zero, nil_append,
    take_append_of_le_length hw.ge, take_of_length_le hw.le]

variable {o w p : Nat}

lemma slice_write_before (h : o + w ≤ p) (hp : p ≤ image.length) :
    slice o w (write p bytes image) = slice o w image := by
  have hl : (image.take p).length = p := by rw [length_take, Nat.min_eq_left hp]
  rw [slice, write, append_assoc, drop_append_of_le_length (by omega),
    take_append_of_le_length (by rw [length_drop]; omega), drop_take,
    take_take, Nat.min_eq_left (by omega), slice]

lemma slice_write_after (h : p + bytes.length ≤ o) (hp : p ≤ image.length) :
    slice o w (write p bytes image) = slice o w image := by
  have hl : (image.take p ++ bytes).length = p + bytes.length := by
    rw [length_append, length_take, Nat.min_eq_left hp]
  rw [slice, write, drop_append, drop_of_length_le (by omega), nil_append, drop_drop, hl, slice]
  congr 2
  omega

lemma write_slice_self (h : offset + width ≤ image.length) :
    write offset (slice offset width image) image = image := by
  rw [write, length_slice h, append_assoc, slice, ← drop_drop, take_append_drop, take_append_drop]

variable {x y : Bytes}

lemma write_write_same (hl : x.length = y.length) (h : offset + x.length ≤ image.length) :
    write offset y (write offset x image) = write offset y image := by
  have hp : (image.take offset).length = offset := by
    rw [length_take, Nat.min_eq_left (by omega)]
  have ht : (write offset x image).take offset = image.take offset := by
    rw [write, append_assoc, take_append_of_le_length hp.ge, take_of_length_le hp.le]
  have hd : (write offset x image).drop (offset + y.length) = image.drop (offset + y.length) := by
    rw [write, drop_append, drop_of_length_le (by simp [hp, hl]), nil_append,
      length_append, hp, hl, Nat.sub_self, drop_zero]
  rw [write, ht, hd, ← write]

lemma slice_slice {v : Nat} (h : p + v ≤ w) :
    slice p v (slice o w image) = slice (o + p) v image := by
  rw [slice, slice, slice, drop_take, take_take, Nat.min_eq_left (by omega), drop_drop]

lemma slice_append_slice (o w v : Nat) (image : Bytes) :
    slice o w image ++ slice (o + w) v image = slice o (w + v) image := by
  rw [slice, slice, slice, ← drop_drop, take_add]

lemma slice_zero_length {n : Nat} (h : image.length = n) : slice 0 n image = image := by
  rw [slice, drop_zero, take_of_length_le h.le]

lemma slice_append_left (h : o + w ≤ x.length) : slice o w (x ++ y) = slice o w x := by
  rw [slice, slice, drop_append_of_le_length (by omega),
    take_append_of_le_length (by rw [length_drop]; omega)]

lemma slice_append_middle {z : Bytes} (hx : x.length = o) (hy : y.length = w) :
    slice o w (x ++ y ++ z) = y := by
  rw [slice, append_assoc, drop_left' hx, take_left' hy]

lemma write_append_left (h : o + bytes.length ≤ x.length) :
    write o bytes (x ++ y) = write o bytes x ++ y := by
  rw [write, write, take_append_of_le_length (by omega), drop_append_of_le_length h,
    append_assoc, append_assoc, append_assoc]

variable {i : Nat} {byte : UInt8}

lemma slice_set_of_not_mem (h : i < o ∨ o + w ≤ i) :
    slice o w (image.set i byte) = slice o w image := by
  apply ext_getElem?
  intro j
  by_cases hj : j < w
  · rw [slice, slice, getElem?_take_of_lt hj, getElem?_take_of_lt hj,
      getElem?_drop, getElem?_drop, getElem?_set_ne (by omega)]
  · rw [slice, slice, getElem?_take_eq_none (by omega), getElem?_take_eq_none (by omega)]

lemma slice_set_ne (hl : o ≤ i) (hh : i < o + w) (hi : i < image.length)
    (hn : image[i]? ≠ some byte) : slice o w (image.set i byte) ≠ slice o w image := by
  intro he
  apply hn
  have ha : ∀ image : Bytes, (slice o w image)[i - o]? = image[i]? := by
    intro image
    rw [slice, getElem?_take_of_lt (by omega), getElem?_drop, Nat.add_sub_of_le hl]
  rw [← ha, ← he, ha, getElem?_set_self hi]

lemma write_set_of_mem (hl : o ≤ i) (hh : i < o + bytes.length) (ho : o ≤ image.length) :
    write o bytes (image.set i byte) = write o bytes image := by
  apply ext_getElem?
  intro j
  rw [getElem?_write (by rwa [length_set]), getElem?_write ho]
  split_ifs with hp hi
  · rw [getElem?_set_ne (by omega)]
  · rfl
  · rw [getElem?_set_ne (by omega)]

lemma write_set_of_not_mem (h : i < o ∨ o + bytes.length ≤ i)
    (ho : o + bytes.length ≤ image.length) :
    write o bytes (image.set i byte) = (write o bytes image).set i byte := by
  have hp : o ≤ image.length := Nat.le_of_add_right_le ho
  apply ext_getElem?
  intro j
  rw [getElem?_write (by rwa [length_set]), getElem?_set, getElem?_set,
    length_write ho, getElem?_write hp]
  split_ifs <;> first | rfl | omega

def toLE : Nat → Nat → Bytes
  | 0, _ => []
  | width + 1, value => UInt8.ofNat value :: toLE width (value / 256)

def ofLE : Bytes → Nat
  | [] => 0
  | byte :: bytes => byte.toNat + 256 * ofLE bytes

@[simp] lemma length_toLE (width va : Nat) : (toLE width va).length = width := by
  induction width generalizing va with
  | zero => rfl
  | succ width ih => rw [toLE, length_cons, ih]

lemma ofLE_lt (bytes : Bytes) : ofLE bytes < 256 ^ bytes.length := by
  induction bytes with
  | nil => decide
  | cons byte bytes ih =>
    have := byte.toNat_lt
    rw [ofLE, length_cons, pow_succ]
    omega

lemma ofLE_toLE {value : Nat} (h : value < 256 ^ width) : ofLE (toLE width value) = value := by
  induction width generalizing value with
  | zero =>
    rw [pow_zero] at h
    rw [toLE, ofLE]
    omega
  | succ width ih =>
    rw [pow_succ] at h
    rw [toLE, ofLE, ih (by omega), UInt8.toNat_ofNat']
    omega

lemma toLE_ofLE (bytes : Bytes) : toLE bytes.length (ofLE bytes) = bytes := by
  induction bytes with
  | nil => rfl
  | cons byte bytes ih =>
    have hlt := byte.toNat_lt
    have hb : UInt8.ofNat (byte.toNat + 256 * ofLE bytes) = byte := by
      apply UInt8.toNat_inj.1
      rw [UInt8.toNat_ofNat']
      omega
    have hr : (byte.toNat + 256 * ofLE bytes) / 256 = ofLE bytes := by omega
    rw [length_cons, ofLE, toLE, hb, hr, ih]

lemma ofLE_injective {xs ys : Bytes} (hl : xs.length = ys.length) (h : ofLE xs = ofLE ys) :
    xs = ys := by
  rw [← toLE_ofLE xs, ← toLE_ofLE ys, hl, h]

def le32 (value : UInt32) : Bytes := toLE 4 value.toNat
def le64 (value : UInt64) : Bytes := toLE 8 value.toNat

def u32At (offset : Nat) (image : Bytes) : UInt32 := UInt32.ofNat (ofLE (slice offset 4 image))
def u64At (offset : Nat) (image : Bytes) : UInt64 := UInt64.ofNat (ofLE (slice offset 8 image))

@[simp] lemma length_le32 (va : UInt32) : (le32 va).length = 4 := length_toLE 4 _
@[simp] lemma length_le64 (va : UInt64) : (le64 va).length = 8 := length_toLE 8 _

lemma u32At_eq {value : UInt32} (h : slice offset 4 image = le32 value) :
    u32At offset image = value := by
  rw [u32At, h, le32, ofLE_toLE (by have := value.toNat_lt; omega), UInt32.ofNat_toNat]

lemma u64At_eq {value : UInt64} (h : slice offset 8 image = le64 value) :
    u64At offset image = value := by
  rw [u64At, h, le64, ofLE_toLE (by have := value.toNat_lt; omega), UInt64.ofNat_toNat]

variable (words : List UInt32)

def le32s : Bytes := words.flatMap le32

def words32 : Nat → Bytes → List UInt32
  | 0, _ => []
  | count + 1, bytes => u32At 0 bytes :: words32 count (bytes.drop 4)

@[simp] lemma length_le32s : (le32s words).length = 4 * words.length := by
  induction words with
  | nil => rfl
  | cons wo words ih =>
    rw [le32s, flatMap_cons, length_append, ← le32s, ih, length_le32, length_cons]
    omega

lemma words32_le32s : words32 words.length (le32s words) = words := by
  induction words with
  | nil => rfl
  | cons word words ih =>
    have hh : slice 0 4 (le32 word ++ le32s words) = le32 word := by
      rw [slice_append_left (by simp), slice, drop_zero, take_of_length_le (by simp)]
    rw [length_cons, words32, le32s, flatMap_cons, ← le32s, u32At_eq hh,
      drop_left' (length_le32 word), ih]

lemma le32_u32At (h : 4 ≤ bytes.length) : le32 (u32At 0 bytes) = bytes.take 4 := by
  have hl : (slice 0 4 bytes).length = 4 := length_slice (by omega)
  have hlt := ofLE_lt (slice 0 4 bytes)
  have hbk := toLE_ofLE (slice 0 4 bytes)
  rw [hl] at hlt hbk
  rw [le32, u32At, UInt32.toNat_ofNat_of_lt' hlt, hbk]
  rfl

lemma le32s_words32 {co : Nat} (h : bytes.length = 4 * co) : le32s (words32 co bytes) = bytes := by
  induction co generalizing bytes with
  | zero => exact (eq_nil_of_length_eq_zero h).symm
  | succ co ih =>
    rw [words32, le32s, flatMap_cons, ← le32s, le32_u32At (by omega),
      ih (by rw [length_drop]; omega), take_append_drop]

lemma slice_eq_of_u64At_eq {image' : Bytes} (h : offset + 8 ≤ image.length)
    (h' : offset + 8 ≤ image'.length) (he : u64At offset image = u64At offset image') :
    slice offset 8 image = slice offset 8 image' := by
  have hl : ∀ {image : Bytes}, offset + 8 ≤ image.length →
      ofLE (slice offset 8 image) < 2 ^ 64 := by
    intro image h
    have := ofLE_lt (slice offset 8 image)
    rw [length_slice h] at this
    exact this
  apply ofLE_injective (by rw [length_slice h, length_slice h'])
  have hnat := congrArg UInt64.toNat he
  rwa [u64At, u64At, UInt64.toNat_ofNat_of_lt' (hl h), UInt64.toNat_ofNat_of_lt' (hl h')]
    at hnat

/-! A structure of fixed size, filled field by field. -/

structure Field (size : Nat) where
  offset : Nat
  bytes : Bytes
  fits : offset + bytes.length ≤ size

def Field.Apart {size : Nat} (f g : Field size) : Prop :=
  f.offset + f.bytes.length ≤ g.offset ∨ g.offset + g.bytes.length ≤ f.offset

instance {size : Nat} : DecidableRel (@Field.Apart size) := fun _ _ =>
  inferInstanceAs (Decidable (_ ∨ _))

structure Block (size : Nat) where
  image : Bytes
  length_image : image.length = size
  deriving DecidableEq

namespace Block

variable {size : Nat}

@[ext] lemma ext {x y : Block size} (h : x.image = y.image) : x = y := by
  cases x
  cases y
  congr

def clear (size : Nat) : Block size := ⟨zeros size, length_zeros size⟩

variable (block : Block size) (field : Field size)

def put : Block size := ⟨write field.offset field.bytes block.image, by
    rw [length_write (by rw [block.length_image]; exact field.fits), block.length_image]⟩

def putAll (fields : List (Field size)) (block : Block size) : Block size := fields.foldl put block

def setByte (i : Nat) (byte : UInt8) : Block size :=
  ⟨block.image.set i byte, by rw [length_set, block.length_image]⟩

lemma offset_le : field.offset ≤ block.image.length := by
  have := field.fits
  rw [block.length_image]
  omega

lemma slice_put_self :
    slice field.offset field.bytes.length (block.put field).image = field.bytes :=
  slice_write_same rfl (block.offset_le field)

variable {o : Nat} {field : Field size} {fields : List (Field size)}

lemma slice_put_apart {w : Nat} (h : o + w ≤ field.offset ∨ field.offset + field.bytes.length ≤ o) :
    slice o w (block.put field).image = slice o w block.image := by
  obtain h | h := h
  · exact slice_write_before h (block.offset_le field)
  · exact slice_write_after h (block.offset_le field)

lemma put_put_same {x y : Bytes} (hx : o + x.length ≤ size)
    (hy : o + y.length ≤ size) (hl : x.length = y.length) :
    (block.put ⟨o, x, hx⟩).put ⟨o, y, hy⟩ = block.put ⟨o, y, hy⟩ :=
  Block.ext (write_write_same hl (by rw [block.length_image]; exact hx))

lemma put_self (h : slice field.offset field.bytes.length block.image = field.bytes) :
    block.put field = block := by
  apply Block.ext
  change write field.offset field.bytes block.image = block.image
  rw [← h, write_slice_self (by rw [block.length_image]; exact field.fits)]

lemma slice_putAll_apart {block : Block size} {w : Nat}
    (h : ∀ field ∈ fields, o + w ≤ field.offset ∨ field.offset + field.bytes.length ≤ o) :
    slice o w (putAll fields block).image = slice o w block.image := by
  induction fields generalizing block with
  | nil => rfl
  | cons field fields ih =>
    rw [putAll, foldl_cons, ← putAll, ih fun f hf => h f (mem_cons_of_mem _ hf)]
    exact slice_put_apart block (h field mem_cons_self)

lemma slice_putAll (ha : fields.Pairwise Field.Apart) (hm : field ∈ fields) (block : Block size) :
    slice field.offset field.bytes.length (putAll fields block).image = field.bytes := by
  induction fields generalizing block with
  | nil => cases hm
  | cons first fields ih =>
    rw [pairwise_cons] at ha
    rw [putAll, foldl_cons, ← putAll]
    obtain rfl | hm := mem_cons.1 hm
    · rw [slice_putAll_apart ha.1, slice_put_self]
    · exact ih ha.2 hm _

end Block

end Image
