import AxiomKernel.Qwen38.KvTier.DiskFormat
import AxiomKernel.Qwen38.SessionStore.RoundTrip

/-!
One changed byte is found in all three formats: the tier header, the transaction journal and the
session manifest of version 1. Each of them holds the checksum of itself with the checksum field
cleared, and each reader compares it over the whole file.
-/
namespace AxiomKernel.Qwen38

open Image Checksum List Option

namespace SessionStore

variable {sha256 : Bytes → Block 32}
  {store : Store} {digests : Bool} {key : Key} {file : Bytes} {header : ManifestHeader}

variable (h : FileAccepted sha256 store digests key file header)
include h

lemma FileAccepted.file_eq : file = header.image ++ le32s (payloadOf header file).tokenIds ++
    (payloadOf header file).recurrent ++ (payloadOf header file).speculative := by
  have hl := h.length_file
  rw [ManifestHeader.payloadLength] at hl
  have hw : le32s (payloadOf header file).tokenIds =
      slice 4096 (header.tokenCount.toNat * 4) file :=
    le32s_words32 (by rw [length_slice (by omega)]; omega)
  have ha : file = slice 0 (4096 + header.tokenCount.toNat * 4 + header.recurrentBytes.toNat +
      header.speculativeBytes.toNat) file := (slice_zero_length (by omega)).symm
  rw [hw, h.image, payloadOf]
  refine ha.trans ?_
  rw [← slice_append_slice, ← slice_append_slice, ← slice_append_slice, zero_add,
    zero_add, zero_add]

lemma FileAccepted.sealed (ha : header.abi = 1) : Sealed (fnvUpdate fnvOffset) 56 file := by
  have hl := header.length_image
  obtain ⟨sh, hsl, hc, -⟩ := h.seals
  rw [sealManifest_v1 ha] at hsl
  have hs : ManifestHeader.checksum sh =
      fnvUpdate fnvOffset ((cleared header).image ++ le32s (payloadOf header file).tokenIds ++
        (payloadOf header file).recurrent ++ (payloadOf header file).speculative) := by
    rw [← some.inj hsl]
    exact u64At_eq (slice_write_same (length_le64 _) (by rw [Block.length_image]; decide))
  have hcl : write 56 (zeros 8) file = (cleared header).image ++
      le32s (payloadOf header file).tokenIds ++ (payloadOf header file).recurrent ++
      (payloadOf header file).speculative := by
    conv => lhs; rw [h.file_eq]
    rw [append_assoc, append_assoc, write_append_left (by rw [hl]; simp),
      append_assoc, append_assoc]
    rfl
  have hf : u64At 56 file = header.checksum := by
    conv => lhs; rw [h.file_eq]
    rw [u64At, append_assoc, append_assoc, slice_append_left (by omega)]
    rfl
  rw [Sealed, hf, hc, hs, hcl]

omit h

lemma load_set {env env' : LoadEnv} {d d' : Disk} {ma : Manifest} {ps : Paths}
    (hf : d (store.pathsFor key 1).manifestPath = some file)
    (h : load sha256 store env key d = .ok (.found ma ps)) (hv : u32At 8 file = 1)
    {i : Nat} {b : UInt8} (hi : i < file.length) (hab : i < 8 ∨ 12 ≤ i)
    (hn : file[i]? ≠ some b)
    (hf' : d' (store.pathsFor key 1).manifestPath = some (file.set i b)) :
    ∃ failure, load sha256 store env' key d' = .error failure := by
  obtain ⟨-, -, _, hf₂, him⟩ := load_eq_found.1 h
  rw [hf] at hf₂
  cases hf₂
  obtain ⟨-, header, ha, -⟩ := loadImage_eq_ok.1 him
  have hl := ha.length_file
  have hve : ∀ {file : Bytes} {header : ManifestHeader}, header.image = slice 0 4096 file →
      header.abi = u32At 8 file := by
    intro file header him
    rw [ManifestHeader.abi, u32At, u32At, him, slice_slice (by decide)]
  have hsl := ha.sealed ((hve ha.image).trans hv)
  cases hld : load sha256 store env' key d' with
  | error failure => exact ⟨failure, rfl⟩
  | ok re =>
    exfalso
    cases re with
    | missing mp =>
      rw [load_eq_missing hld] at hf'
      cases hf'
    | found m' ps' =>
      obtain ⟨-, -, _, hf₂, hi'⟩ := load_eq_found.1 hld
      rw [hf'] at hf₂
      cases hf₂
      obtain ⟨-, h', ha', -⟩ := loadImage_eq_ok.1 hi'
      have hv' : u32At 8 (file.set i b) = 1 := by
        rw [u32At, slice_set_of_not_mem (by omega), ← u32At, hv]
      exact hsl.not_set (detects_fnvUpdate fnvOffset) (by omega) hi hn
        (ha'.sealed ((hve ha'.image).trans hv'))

end SessionStore

open SessionStore KvTier

/-- A change of one byte anywhere in an accepted tier header, journal or manifest of version 1 (in
the latter anywhere but in the version field) makes it refused; and the checksums tell apart any
two inputs that differ in one byte, whatever stands before and behind it. -/
theorem single_byte_detected : (∀ (plan : Plan) (header : DiskHeader) (i : Nat) (byte : UInt8),
        validHeader header plan = true → i < 4096 → header.image[i]? ≠ some byte →
        validHeader (header.setByte i byte) plan = false) ∧
      (∀ (view view' : FileView) (allocates allocates' : Bool) (loaded : LoadedJournal) (i : Nat)
          (byte : UInt8), loadTransactionJournal (.file view) allocates = .ok (some loaded) →
        i < view.bytes.length → view.bytes[i]? ≠ some byte → view'.bytes = view.bytes.set i byte →
        ∃ status, loadTransactionJournal (.file view') allocates' = .error status) ∧
      (∀ (sha256 : Bytes → Block 32) (store : Store) (env env' : LoadEnv) (key : Key)
          (disk disk' : Disk) (file : Bytes) (manifest : Manifest) (paths : Paths) (i : Nat)
          (byte : UInt8), disk (store.pathsFor key 1).manifestPath = some file →
        load sha256 store env key disk = .ok (.found manifest paths) → u32At 8 file = 1 →
        i < file.length → (i < 8 ∨ 12 ≤ i) → file[i]? ≠ some byte →
        disk' (store.pathsFor key 1).manifestPath = some (file.set i byte) →
        ∃ failure, load sha256 store env' key disk' = .error failure) ∧
      ∀ (before after : Bytes) (x y : UInt8), x ≠ y →
        checksum64 (before ++ x :: after) ≠ checksum64 (before ++ y :: after) ∧
        (∀ header, journalChecksum header (before ++ x :: after) ≠
          journalChecksum header (before ++ y :: after)) ∧
        ∀ seed, fnvUpdate seed (before ++ x :: after) ≠ fnvUpdate seed (before ++ y :: after) := by
  refine ⟨fun plan header i byte h hi hn => validHeader_setByte h hi hn,
    fun view view' allocates allocates' loaded i byte h hi hn hvi =>
      loadTransactionJournal_set h hi hn hvi,
    fun sha256 store env env' key disk disk' file manifest paths i byte hf h hv hi habi
      hn hfl' => load_set hf h hv hi habi hn hfl',
    fun before after x y hn => ⟨detects_checksum64 before after x y hn, fun header => ?_,
      fun seed => detects_fnvUpdate seed before after x y hn⟩⟩
  exact detects_fnv _ before after x y hn

/-- An empty tier of one page, with a byte of its generation changed. -/
theorem single_byte_detected_generation :
    ∃ plan, planGet kAbi 256 0 = .ok plan ∧ validHeader (fillHeader plan 1 0) plan = true ∧
      validHeader ((fillHeader plan 1 0).setByte 80 2) plan = false := by
  have ho : (planGet kAbi 256 0).isOk := by decide +kernel
  rcases h : planGet kAbi 256 0 with e | plan
  · rw [h] at ho
    cases ho
  · have hvl := validHeader_fillHeader plan 1 (show 0 ≤ plan.maxContext from UInt32.zero_le)
    have hb : (fillHeader plan 1 0).image[80]? = some 1 := by
      have hs : slice 80 8 (fillHeader plan 1 0).image = le64 1 :=
        slice_fillHeader (by simp) (length_le64 1) (by decide) (by simp [headerFields])
      have hon : (le64 1)[0]? = some 1 := by decide
      rw [← hon, ← hs, slice, List.getElem?_take_of_lt (by decide), List.getElem?_drop]
    refine ⟨plan, rfl, hvl, single_byte_detected.1 plan _ 80 2 hvl (by decide) ?_⟩
    rw [hb]
    decide

end AxiomKernel.Qwen38
