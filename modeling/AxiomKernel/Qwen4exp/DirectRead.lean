import AxiomKernel.Lib.Image

/-!
# Direct reads of expert ranges

`read_direct_range` reads aligned blocks through a staging buffer and copies the range out of them;
`read_range` without direct reads fills the range itself.
-/
namespace AxiomKernel.Qwen4exp

open Image List Nat

def kDirectAlignment : Nat := 4096
def kDirectChunkBytes : Nat := 4 * 1024 * 1024

structure RangeRecord where
  path : String
  offset : Nat
  length : Nat

/-- The answer of `pread` to an offset and a request, after the interrupted calls; an error has the
text of `strerror`. -/
abbrev Pread := Nat → Nat → Except String Bytes

def errnoMessage (operation path error : String) : String :=
  operation ++ " failed for " ++ path ++ ": " ++ error

variable (pread : Pread) (range : RangeRecord)

namespace RangeRecord

def first : Nat := range.offset / kDirectAlignment * kDirectAlignment

def paddedEnd : Nat :=
  (range.offset + range.length + kDirectAlignment - 1) / kDirectAlignment * kDirectAlignment

def staging : Nat := min kDirectChunkBytes (range.paddedEnd - range.first)

def request (offset : Nat) : Nat := min range.staging (range.paddedEnd - offset)

end RangeRecord

/-- The `memcpy` of one round, and the bytes copied. -/
def copyOut (offset expected : Nat) (data destination : Bytes) (copied : Nat) : Bytes × Nat :=
  let copyStart := max offset range.offset
  let copyEnd := min (offset + expected) (range.offset + range.length)
  if copyStart < copyEnd then
    (write (copyStart - range.offset) (slice (copyStart - offset) (copyEnd - copyStart) data)
      destination, copied + (copyEnd - copyStart))
  else (destination, copied)

def readDirectLoop (fileSize offset : Nat) (out : Bytes × Nat) : Except String (Bytes × Nat) :=
  -- the staging buffer is empty only where nothing is to be read
  if _h : offset < range.paddedEnd ∧ 0 < range.staging then
    if fileSize ≤ offset then .error "aligned direct read starts beyond admitted EOF"
    else
      match pread offset (range.request offset) with
      | .error error => .error (errnoMessage "pread(O_DIRECT; no fallback)" range.path error)
      | .ok data =>
        let expected := min (range.request offset) (fileSize - offset)
        if data.length ≠ expected ∨ data.length < range.request offset ∧
            offset + expected < range.offset + range.length then
          .error ("unexpected short/EOF direct read: " ++ range.path)
        else readDirectLoop fileSize (offset + range.request offset)
          (copyOut range offset expected data out.1 out.2)
  else .ok out
termination_by range.paddedEnd - offset
decreasing_by
  unfold RangeRecord.request
  omega

def readDirectRange (fileSize : Nat) : Except String Bytes :=
  match readDirectLoop pread range fileSize range.first (zeros range.length, 0) with
  | .error text => .error text
  | .ok (destination, copied) =>
    if copied ≠ range.length then .error "direct reads did not cover the complete expert range"
    else .ok destination

/-- The loop of `read_range`, with the bytes completed so far. -/
def readBuffered (completed : Bytes) : Except String Bytes :=
  if completed.length < range.length then
    match pread (range.offset + completed.length) (range.length - completed.length) with
    | .error error => .error (errnoMessage "pread" range.path error)
    | .ok [] => .error ("unexpected EOF while reading expert range: " ++ range.path)
    | .ok (byte :: data) => readBuffered (completed ++ byte :: data)
  else .ok completed
termination_by range.length - completed.length
decreasing_by
  rw [length_append, length_cons]
  omega

variable {pread range}

lemma paddedEnd_bounds : range.offset + range.length ≤ range.paddedEnd ∧
    range.paddedEnd < range.offset + range.length + kDirectAlignment := by
  unfold RangeRecord.paddedEnd kDirectAlignment
  omega

lemma dvd_paddedEnd : kDirectAlignment ∣ range.paddedEnd := dvd_mul_left ..

lemma dvd_next {offset : Nat} (h : kDirectAlignment ∣ offset) (hl : offset ≤ range.paddedEnd) :
    kDirectAlignment ∣ offset + range.request offset := by
  rw [RangeRecord.request]
  rcases min_choice range.staging (range.paddedEnd - offset) with hm | hm <;> rw [hm]
  · refine Nat.dvd_add h ?_
    rw [RangeRecord.staging]
    rcases min_choice kDirectChunkBytes (range.paddedEnd - range.first) with hm | hm <;>
      rw [hm]
    · exact ⟨1024, rfl⟩
    · exact Nat.dvd_sub dvd_paddedEnd (Nat.dvd_mul_left ..)
  · rw [Nat.add_sub_cancel' hl]
    exact dvd_paddedEnd

lemma slice_write_next {p n : Nat} {bytes i : Bytes} (hp : p ≤ i.length)
    (hn : bytes.length = n) : slice 0 (p + n) (write p bytes i) = slice 0 p i ++ bytes := by
  rw [← slice_append_slice, slice_write_before (zero_add p).le hp, zero_add, slice_write_same hn hp]

variable {file : Bytes} (hadm : range.offset + range.length ≤ file.length)
include hadm

def Copied (range : RangeRecord) (file : Bytes) (offset : Nat) (out : Bytes × Nat) : Prop :=
  out.1.length = range.length ∧ slice 0 out.2 out.1 = slice range.offset out.2 file ∧
    out.2 = min offset (range.offset + range.length) - range.offset

lemma Copied.copyOut {offset re : Nat} {out : Bytes × Nat} (h : Copied range file offset out)
    (hlt : offset < range.offset + range.length) :
    Copied range file (offset + re) (copyOut range offset
    (min re (file.length - offset)) (slice offset re file) out.1 out.2) := by
  obtain ⟨hl, hb, hcp⟩ := h
  unfold Qwen4exp.copyOut
  dsimp only
  split_ifs with hco
  · obtain ⟨n, hn⟩ : ∃ n, n = min (offset + min re (file.length - offset))
      (range.offset + range.length) - max offset range.offset := ⟨_, rfl⟩
    rw [← hn, show max offset range.offset - range.offset = out.2 by omega, slice_slice (by omega),
      show offset + (max offset range.offset - offset) = range.offset + out.2 by omega]
    have hc : (slice (range.offset + out.2) n file).length = n := length_slice (by omega)
    refine ⟨?_, ?_, by dsimp only; omega⟩
    · rw [length_write (by omega), hl]
    · rw [slice_write_next (by omega) hc, hb, slice_append_slice]
  · exact ⟨hl, hb, by dsimp only; omega⟩

variable (hfile : ∀ o n, pread o n = .ok (slice o n file))
include hfile

lemma readDirectLoop_whole {offset : Nat} {out : Bytes × Nat} (hd : kDirectAlignment ∣ offset)
    (hla : offset ≤ range.paddedEnd) (hs : range.paddedEnd ≤ offset ∨ 0 < range.staging)
    (hc : Copied range file offset out) : readDirectLoop pread range file.length offset out =
    .ok (slice range.offset range.length file, range.length) := by
  induction hle : range.paddedEnd - offset using Nat.strong_induction_on
    generalizing offset out with
  | _ left ih =>
    obtain ⟨he, hp⟩ := @paddedEnd_bounds range
    rw [readDirectLoop]
    by_cases hm : offset < range.paddedEnd ∧ 0 < range.staging
    · -- the last block begins in front of the end of the range
      have hlt : offset < range.offset + range.length := by
        have := Nat.le_of_dvd (Nat.sub_pos_of_lt hm.1) (Nat.dvd_sub dvd_paddedEnd hd)
        omega
      have hda : (slice offset (range.request offset) file).length =
          min (range.request offset) (file.length - offset) := by
        rw [slice, length_take, length_drop]
      have hr : range.request offset = min range.staging (range.paddedEnd - offset) := rfl
      rw [dif_pos hm, if_neg (by omega), hfile]
      dsimp only
      rw [if_neg (by omega)]
      exact ih _ (by omega) (dvd_next hd hla) (by omega) (by omega) (hc.copyOut hadm hlt) rfl
    · rw [dif_neg hm]
      obtain ⟨hl, hb, hc⟩ := hc
      have ha : out.2 = range.length := by omega
      rw [← ha, ← hb, slice_zero_length (hl.trans ha.symm)]

lemma readBuffered_whole :
    readBuffered pread range [] = .ok (slice range.offset range.length file) := by
  have hl := length_slice hadm
  rw [readBuffered, hfile]
  split_ifs with hm
  · rw [length_nil, add_zero, Nat.sub_zero]
    cases hdata : slice range.offset range.length file with
    | nil =>
      rw [hdata] at hl
      exact absurd hl.symm (Nat.ne_of_gt hm)
    | cons b d =>
      rw [hdata] at hl
      dsimp only
      rw [nil_append, readBuffered, if_neg (by omega)]
  · rw [eq_nil_of_length_eq_zero (hl.trans (Nat.eq_zero_of_not_pos hm))]

omit hadm hfile

variable {fileSize offset : Nat} {out out' : Bytes × Nat}

def Expected (pread : Pread) (range : RangeRecord) (fileSize o : Nat) : Prop :=
  (pread o (range.request o)).map length = .ok (min (range.request o) (fileSize - o))

variable (h : readDirectLoop pread range fileSize offset out = .ok out')
include h

lemma readDirectLoop_step (hm : offset < range.paddedEnd ∧ 0 < range.staging) :
    Expected pread range fileSize offset ∧ ∃ next,
    readDirectLoop pread range fileSize (offset + range.request offset) next = .ok out' := by
  rw [readDirectLoop, dif_pos hm] at h
  split at h
  · cases h
  split at h
  · cases h
  next d hd =>
    dsimp only at h
    split at h
    · cases h
    next hc =>
      rw [not_or, not_not] at hc
      rw [Expected, hd]
      exact ⟨congrArg Except.ok hc.1, _, h⟩

lemma readDirectLoop_counts
    (hs : 0 < range.staging) (k : Nat) (hk : offset + k * range.staging < range.paddedEnd) :
    Expected pread range fileSize (offset + k * range.staging) := by
  induction k generalizing offset out with
  | zero =>
    rw [zero_mul, add_zero] at hk ⊢
    exact (readDirectLoop_step h ⟨hk, hs⟩).1
  | succ k ih =>
    rw [succ_mul, add_comm (k * _), ← add_assoc] at hk ⊢
    obtain ⟨-, next, hn⟩ := readDirectLoop_step h ⟨by omega, hs⟩
    rw [RangeRecord.request, min_eq_left (by omega)] at hn
    exact ih hn hk

omit h

/-- For every file and every admitted range: if `pread` returns the bytes that are there, the direct
read delivers the range, as the buffered one does; and whatever it returns, a direct read that
delivers had the expected count in every call. -/
theorem direct_read_eq_buffered (file : Bytes) (range : RangeRecord)
    (hadmitted : range.offset + range.length ≤ file.length) (pread : Pread) :
    ((∀ o n, pread o n = .ok (slice o n file)) →
      readDirectRange pread range file.length = .ok (slice range.offset range.length file) ∧
      readBuffered pread range [] = .ok (slice range.offset range.length file)) ∧
    ∀ destination, readDirectRange pread range file.length = .ok destination →
      ∀ k, range.first + k * range.staging < range.paddedEnd →
        Expected pread range file.length (range.first + k * range.staging) := by
  have hs : range.first < range.paddedEnd → 0 < range.staging := fun hlt =>
    lt_min (by decide) (Nat.sub_pos_of_lt hlt)
  have hf : range.first ≤ range.offset := Nat.div_mul_le_self ..
  have hpad := @paddedEnd_bounds range
  refine ⟨fun hfile => ⟨?_, readBuffered_whole hadmitted hfile⟩, fun destination h k hk => ?_⟩
  · have hl : readDirectLoop pread range file.length range.first (zeros range.length, 0) =
        .ok (slice range.offset range.length file, range.length) :=
      readDirectLoop_whole hadmitted hfile (Nat.dvd_mul_left ..) (by omega) (by omega)
        ⟨length_zeros _, rfl, by dsimp only; omega⟩
    rw [readDirectRange, hl]
    exact if_neg (not_not.2 rfl)
  · unfold readDirectRange at h
    split at h
    · cases h
    next hl => exact readDirectLoop_counts hl (hs (by omega)) k hk

/-- Two bytes at an offset that is not aligned, up to the end of the file. -/
theorem direct_read_eq_buffered_last_bytes :
    readDirectRange (fun o n => .ok (slice o n [1, 2, 3])) ⟨"experts", 1, 2⟩ 3 = .ok [2, 3] :=
  ((direct_read_eq_buffered [1, 2, 3] ⟨"experts", 1, 2⟩ (by decide) _).1 fun _ _ => rfl).1

end AxiomKernel.Qwen4exp
