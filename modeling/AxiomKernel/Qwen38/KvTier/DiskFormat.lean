import AxiomKernel.Lib.Checksum
import AxiomKernel.Lib.Text
import AxiomKernel.Qwen38.KvTier.Plan

/-!
The header block of a tier file and the journal of an append transaction, as bytes.
`fill_header`, `valid_header`, `journal_checksum` and `load_transaction_journal`.
-/
namespace AxiomKernel.Qwen38.KvTier

open Image Checksum Text List

def checksum64 (data : Bytes) : UInt64 := data.foldl fnvStep fnvOffset

lemma detects_checksum64 : Detects checksum64 := detects_fnv fnvOffset

abbrev DiskHeader := Block 4096

namespace DiskHeader

variable (header : DiskHeader)

def magic : Bytes := slice 0 8 header.image
def abiVersion : UInt32 := u32At 8 header.image
def headerBytes : UInt32 := u32At 12 header.image
def maxContext : UInt32 := u32At 16 header.image
def pageTokens : UInt32 := u32At 20 header.image
def logicalPages : UInt32 := u32At 24 header.image
def targetLayers : UInt32 := u32At 28 header.image
def dsparkLayers : UInt32 := u32At 32 header.image
def targetPageBytes : UInt64 := u64At 40 header.image
def dsparkPageBytes : UInt64 := u64At 48 header.image
def targetPayloadBytes : UInt64 := u64At 56 header.image
def dsparkPayloadBytes : UInt64 := u64At 64 header.image
def fileBytes : UInt64 := u64At 72 header.image
def generation : UInt64 := u64At 80 header.image
def committedTokens : UInt64 := u64At 88 header.image
def checksum : UInt64 := u64At 96 header.image

end DiskHeader

def headerMagic : Bytes := ascii "AXQ38KV1"

/-- The assignments of `fill_header` in front of the checksum. -/
def headerFields (plan : Plan) (generation : UInt64) (committedTokens : UInt32) :
    List (Field 4096) :=
  [⟨0, headerMagic, by decide⟩, ⟨8, le32 kAbi, by simp⟩, ⟨12, le32 4096, by simp⟩,
    ⟨16, le32 plan.maxContext, by simp⟩, ⟨20, le32 plan.pageTokens, by simp⟩,
    ⟨24, le32 plan.logicalPages, by simp⟩, ⟨28, le32 plan.targetLayers, by simp⟩,
    ⟨32, le32 plan.dsparkLayers, by simp⟩, ⟨40, le64 plan.targetPageBytes, by simp⟩,
    ⟨48, le64 plan.dsparkPageBytes, by simp⟩, ⟨56, le64 plan.targetPayloadBytes, by simp⟩,
    ⟨64, le64 plan.dsparkPayloadBytes, by simp⟩, ⟨72, le64 plan.fileBytes, by simp⟩,
    ⟨80, le64 generation, by simp⟩, ⟨88, le64 committedTokens.toUInt64, by simp⟩,
    ⟨96, le64 0, by simp⟩]

def fillHeader (plan : Plan) (generation : UInt64) (committedTokens : UInt32) : DiskHeader :=
  let out := (Block.clear 4096).putAll (headerFields plan generation committedTokens)
  out.put ⟨96, le64 (checksum64 out.image), by simp⟩

def validHeader (header : DiskHeader) (plan : Plan) : Bool :=
  if header.magic ≠ headerMagic ∨ header.abiVersion ≠ kAbi ∨ header.headerBytes ≠ 4096 ∨
      header.maxContext ≠ plan.maxContext ∨ header.pageTokens ≠ plan.pageTokens ∨
      header.logicalPages ≠ plan.logicalPages ∨ header.targetLayers ≠ plan.targetLayers ∨
      header.dsparkLayers ≠ plan.dsparkLayers ∨
      header.targetPageBytes ≠ plan.targetPageBytes ∨
      header.dsparkPageBytes ≠ plan.dsparkPageBytes ∨
      header.targetPayloadBytes ≠ plan.targetPayloadBytes ∨
      header.dsparkPayloadBytes ≠ plan.dsparkPayloadBytes ∨
      header.fileBytes ≠ plan.fileBytes ∨
      plan.maxContext.toUInt64 < header.committedTokens then false
  else
    let copy := header.put ⟨96, zeros 8, by simp⟩
    checksum64 copy.image = header.checksum

variable {plan : Plan} {i : Nat} {byte : UInt8} {view : FileView} {allocates : Bool}
  {loaded : LoadedJournal}

lemma sealed_of_validHeader {header : DiskHeader} (h : validHeader header plan) :
    Sealed checksum64 96 header.image := by
  rw [validHeader] at h
  split at h
  · cases h
  · exact (of_decide_eq_true h).symm

lemma headerFields_apart (plan : Plan) (g : UInt64) (ct : UInt32) :
    (headerFields plan g ct).Pairwise Field.Apart :=
  -- offsets and widths are fixed, whatever the values
  of_decide_eq_true rfl

/-- What `fill_header` assigned to a field in front of the checksum is there. -/
lemma slice_fillHeader {g : UInt64} {ct : UInt32} {o wi : Nat}
    {bytes : Bytes} (fs : o + bytes.length ≤ 4096) (hw : bytes.length = wi)
    (hp : o + wi ≤ 96)
    (hm : ⟨o, bytes, fs⟩ ∈ headerFields plan g ct) :
    slice o wi (fillHeader plan g ct).image = bytes := by
  rw [fillHeader, Block.slice_put_apart _ (.inl hp), ← hw]
  exact Block.slice_putAll (headerFields_apart plan g ct) hm _

lemma sealed_fillHeader (plan : Plan) (g : UInt64) (ct : UInt32) :
    Sealed checksum64 96 (fillHeader plan g ct).image := by
  set out := (Block.clear 4096).putAll (headerFields plan g ct)
  have hc : slice 96 8 out.image = zeros 8 := Block.slice_putAll (headerFields_apart plan g ct)
      (show ⟨96, le64 0, by simp⟩ ∈ _ by simp [headerFields]) _
  exact sealed_write hc (by rw [out.length_image]; decide)

/-- The header that `fill_header` makes is valid for its plan. -/
lemma validHeader_fillHeader (plan : Plan) (g : UInt64) {ct : UInt32} (h : ct ≤ plan.maxContext) :
    validHeader (fillHeader plan g ct) plan = true := by
  set header := fillHeader plan g ct
  have wo : ∀ {o : Nat} {value : UInt32}, (∃ fs, o + 4 ≤ 96 ∧
      ⟨o, le32 value, fs⟩ ∈ headerFields plan g ct) →
      u32At o header.image = value := by
    rintro _ _ ⟨fs, hp, hm⟩
    exact u32At_eq (slice_fillHeader fs (length_le32 _) hp hm)
  have l : ∀ {o : Nat} {value : UInt64}, (∃ fs, o + 8 ≤ 96 ∧
      ⟨o, le64 value, fs⟩ ∈ headerFields plan g ct) →
      u64At o header.image = value := by
    rintro _ _ ⟨fs, hp, hm⟩
    exact u64At_eq (slice_fillHeader fs (length_le64 _) hp hm)
  have hma : header.magic = headerMagic :=
    slice_fillHeader (by decide) (by decide) (by decide) (by simp [headerFields])
  have ha : header.abiVersion = kAbi := wo (by simp [headerFields])
  have hb : header.headerBytes = 4096 := wo (by simp [headerFields])
  have hc : header.maxContext = plan.maxContext := wo (by simp [headerFields])
  have hto : header.pageTokens = plan.pageTokens := wo (by simp [headerFields])
  have hpa : header.logicalPages = plan.logicalPages := wo (by simp [headerFields])
  have htr : header.targetLayers = plan.targetLayers := wo (by simp [headerFields])
  have hdsp : header.dsparkLayers = plan.dsparkLayers := wo (by simp [headerFields])
  have hta : header.targetPageBytes = plan.targetPageBytes := l (by simp [headerFields])
  have hd : header.dsparkPageBytes = plan.dsparkPageBytes := l (by simp [headerFields])
  have ht : header.targetPayloadBytes = plan.targetPayloadBytes := l (by simp [headerFields])
  have hds : header.dsparkPayloadBytes = plan.dsparkPayloadBytes := l (by simp [headerFields])
  have hf : header.fileBytes = plan.fileBytes := l (by simp [headerFields])
  have hco : header.committedTokens = ct.toUInt64 := l (by simp [headerFields])
  have hl : ¬ plan.maxContext.toUInt64 < ct.toUInt64 := by
    rw [UInt32.le_iff_toNat_le] at h
    rw [UInt64.lt_iff_toNat_lt, UInt32.toNat_toUInt64, UInt32.toNat_toUInt64]
    omega
  rw [validHeader, hma, ha, hb, hc, hto, hpa, htr, hdsp, hta,
    hd, ht, hds, hf, hco, if_neg (by simp [hl])]
  exact decide_eq_true (sealed_fillHeader plan g ct).symm

lemma validHeader_setByte {header : DiskHeader} (h : validHeader header plan) (hi : i < 4096)
    (hne : header.image[i]? ≠ some byte) : validHeader (header.setByte i byte) plan = false := by
  have hl := header.length_image
  refine Bool.eq_false_iff.2 fun hvl => ?_
  exact (sealed_of_validHeader h).not_set detects_checksum64 (by omega) (by omega) hne
    (sealed_of_validHeader hvl)

def kTransactionAbi : UInt32 := 1

abbrev JournalHeader := Block 4096

namespace JournalHeader

variable (header : JournalHeader)

def magic : Bytes := slice 0 8 header.image
def abiVersion : UInt32 := u32At 8 header.image
def headerBytes : UInt32 := u32At 12 header.image
def recordCount : UInt32 := u32At 16 header.image
def logicalPage : UInt32 := u32At 20 header.image
def baseCommittedTokens : UInt32 := u32At 24 header.image
def targetLayers : UInt32 := u32At 28 header.image
def dsparkLayers : UInt32 := u32At 32 header.image
def targetPageBytes : UInt32 := u32At 36 header.image
def dsparkPageBytes : UInt32 := u32At 40 header.image
def tierGeneration : UInt64 := u64At 48 header.image
def tierFileBytes : UInt64 := u64At 56 header.image
def payloadBytes : UInt64 := u64At 64 header.image
def checksum : UInt64 := u64At 72 header.image

end JournalHeader

def journalMagic : Bytes := ascii "AXQ38TX1"

variable (header : JournalHeader) (payload : Bytes)

def journalChecksum : UInt64 :=
  let copy := header.put ⟨72, zeros 8, by simp⟩
  payload.foldl fnvStep (checksum64 copy.image)

/-- A file as an open descriptor shows it: its bytes, whether it is a regular file with one link
that belongs to the process, and at which offsets a read meets no device error. -/
structure FileView where
  bytes : Bytes
  regularPrivate : Bool
  readable : Nat → Bool

/-- What `open` gave: `ENOENT`, another error, or a descriptor. -/
inductive Opened where
  | missing
  | failed
  | file (view : FileView)

def regularPrivateFile (view : FileView) (expectedBytes : UInt64) : Bool :=
  view.regularPrivate && view.bytes.length = expectedBytes.toNat

def exactPread (view : FileView) (bytes offset : Nat) : Except Status Bytes :=
  if view.readable offset ∧ offset + bytes ≤ view.bytes.length then
    .ok (slice offset bytes view.bytes)
  else .error .io

def preadBlock (view : FileView) (offset : Nat) : Except Status (Block 4096) :=
  if h : view.readable offset ∧ offset + 4096 ≤ view.bytes.length then
    .ok ⟨slice offset 4096 view.bytes, length_slice h.2⟩
  else .error .io

structure LoadedJournal where
  header : JournalHeader
  oldTierHeader : DiskHeader
  plan : Plan
  payload : Bytes

def journalContract : Bool := header.magic = journalMagic && header.abiVersion = kTransactionAbi &&
    header.headerBytes = 4096 && header.targetLayers = kTargetLayers &&
    header.dsparkLayers = kDsparkLayers &&
    header.targetPageBytes.toUInt64 = kTargetPageBytes &&
    header.dsparkPageBytes.toUInt64 = kDsparkPageBytes &&
    header.recordCount = (if header.baseCommittedTokens % kPageTokens = 0 then 0
      else header.targetLayers + header.dsparkLayers)

/-- The old header, and with records one page of every layer of both families. -/
def journalPayloadBytes : Option UInt64 :=
  if header.recordCount ≠ 0 then do
    let targetBytes ← checkedMul header.targetLayers.toUInt64 header.targetPageBytes.toUInt64
    let dsparkBytes ← checkedMul header.dsparkLayers.toUInt64 header.dsparkPageBytes.toUInt64
    let expected ← checkedAdd 4096 targetBytes
    checkedAdd expected dsparkBytes
  else some 4096

def oldHeaderOf (h : 4096 ≤ payload.length) : DiskHeader := ⟨payload.take 4096, length_take_of_le h⟩

/-- `load_transaction_journal`; `allocates` says whether the payload vector can be allocated. -/
def loadTransactionJournal (opened : Opened) (allocates : Bool) :
    Except Status (Option LoadedJournal) :=
  match opened with
  | .missing => .ok none
  | .failed => .error .io
  | .file view => do
      let header : JournalHeader ← preadBlock view 0
      if !journalContract header then throw .io
      let some expectedPayload := journalPayloadBytes header | throw .io
      if header.payloadBytes ≠ expectedPayload ∨
          !regularPrivateFile view (4096 + header.payloadBytes) then throw .io
      if !allocates then throw .budget
      let payload ← exactPread view header.payloadBytes.toNat 4096
      if header.checksum ≠ journalChecksum header payload then throw .io
      if h : 4096 ≤ payload.length then
        let oldHeader := oldHeaderOf payload h
        match planGet kAbi oldHeader.maxContext 0 with
        | .error _ => throw .io
        | .ok plan =>
          if !validHeader oldHeader plan ∨
              header.baseCommittedTokens.toUInt64 ≠ oldHeader.committedTokens ∨
              header.tierGeneration ≠ oldHeader.generation ∨
              header.tierFileBytes ≠ oldHeader.fileBytes ∨
              header.logicalPage ≠ header.baseCommittedTokens / kPageTokens then throw .io
          return some ⟨header, oldHeader, plan, payload⟩
      else throw .io

/-- What holds of a journal that `load_transaction_journal` accepts. -/
structure JournalAccepted (view : FileView) (loaded : LoadedJournal) : Prop where
  header : preadBlock view 0 = .ok loaded.header
  contract : journalContract loaded.header = true
  payloadBytes : journalPayloadBytes loaded.header = some loaded.header.payloadBytes
  regularPrivate : regularPrivateFile view (4096 + loaded.header.payloadBytes) = true
  payload : exactPread view loaded.header.payloadBytes.toNat 4096 = .ok loaded.payload
  checksum : loaded.header.checksum = journalChecksum loaded.header loaded.payload
  oldTierHeader : ∃ h, loaded.oldTierHeader = oldHeaderOf loaded.payload h
  plan : planGet kAbi loaded.oldTierHeader.maxContext 0 = .ok loaded.plan
  valid : validHeader loaded.oldTierHeader loaded.plan = true
  baseCommittedTokens :
    loaded.header.baseCommittedTokens.toUInt64 = loaded.oldTierHeader.committedTokens
  tierGeneration : loaded.header.tierGeneration = loaded.oldTierHeader.generation
  tierFileBytes : loaded.header.tierFileBytes = loaded.oldTierHeader.fileBytes
  logicalPage : loaded.header.logicalPage = loaded.header.baseCommittedTokens / kPageTokens

lemma accepted_of_loadTransactionJournal {re : Option LoadedJournal}
    (h : loadTransactionJournal (.file view) allocates = .ok re) :
    ∃ loaded, re = some loaded ∧ JournalAccepted view loaded := by
  simp only [loadTransactionJournal, bind, Except.bind, pure, Except.pure, throw, throwThe,
    MonadExceptOf.throw] at h
  split at h
  · cases h
  rename_i header hh
  split at h
  · cases h
  rename_i hco
  split at h
  case h_2 => cases h
  rename_i e he
  split at h
  · cases h
  rename_i hs
  split at h
  · cases h
  split at h
  · cases h
  rename_i payload hpa
  split at h
  · cases h
  rename_i hc
  split at h
  case isFalse => cases h
  rename_i hl
  split at h
  · cases h
  rename_i plan hpl
  split at h
  · cases h
  rename_i hf
  cases h
  simp only [not_or, not_not, Bool.not_eq_true', Bool.not_eq_false] at hco hs
  simp only [not_or, not_not, Bool.not_eq_true', Bool.not_eq_false] at hc hf
  obtain ⟨hv, hb, hg, hfl, hp⟩ := hf
  exact ⟨_, rfl, {
    header := hh, contract := hco
    payloadBytes := hs.1 ▸ he, regularPrivate := hs.2
    payload := hpa, checksum := hc, oldTierHeader := ⟨hl, rfl⟩
    plan := hpl, valid := hv, baseCommittedTokens := hb
    tierGeneration := hg, tierFileBytes := hfl, logicalPage := hp }⟩

lemma JournalAccepted.bytes_eq (h : JournalAccepted view loaded) :
    view.bytes = loaded.header.image ++ loaded.payload := by
  obtain ⟨hh, _, _, hpr, hp, _⟩ := h
  rw [preadBlock] at hh
  split at hh
  case isFalse => cases hh
  have hi : slice 0 4096 view.bytes = loaded.header.image := by
    rw [← Except.ok.inj hh]
  rw [exactPread] at hp
  split at hp
  case isFalse => cases hp
  rename_i hrd
  rw [regularPrivateFile, Bool.and_eq_true, decide_eq_true_eq, UInt64.toNat_add] at hpr
  have hl : view.bytes.length = 4096 + loaded.header.payloadBytes.toNat := by
    have : (4096 : UInt64).toNat = 4096 := by decide
    omega
  have hr : slice 4096 loaded.header.payloadBytes.toNat view.bytes = view.bytes.drop 4096 :=
    take_of_length_le (by rw [length_drop]; omega)
  rw [← hi, ← Except.ok.inj hp, hr, slice, drop_zero, take_append_drop]

lemma JournalAccepted.sealed (h : JournalAccepted view loaded) :
    Sealed checksum64 72 view.bytes := by
  have hl := loaded.header.length_image
  have hchec := h.checksum
  rw [JournalHeader.checksum, u64At] at hchec
  rw [Sealed, h.bytes_eq, u64At, slice_append_left (by omega), hchec,
    write_append_left (by rw [length_zeros]; omega), checksum64, foldl_append]
  rfl

lemma loadTransactionJournal_set {view' : FileView} {allocates' : Bool}
    (h : loadTransactionJournal (.file view) allocates = .ok (some loaded))
    (hi : i < view.bytes.length) (hne : view.bytes[i]? ≠ some byte)
    (hview : view'.bytes = view.bytes.set i byte) :
    ∃ status, loadTransactionJournal (.file view') allocates' = .error status := by
  obtain ⟨loaded, -, hold⟩ := accepted_of_loadTransactionJournal h
  have hl : 4096 ≤ view.bytes.length := by
    rw [hold.bytes_eq, length_append, loaded.header.length_image]
    omega
  cases hnew : loadTransactionJournal (.file view') allocates' with
  | error status => exact ⟨status, rfl⟩
  | ok result =>
    obtain ⟨loaded', -, hacc⟩ := accepted_of_loadTransactionJournal hnew
    have hsl := hacc.sealed
    rw [hview] at hsl
    exact absurd hsl (hold.sealed.not_set detects_checksum64 (by omega) hi hne)

end AxiomKernel.Qwen38.KvTier
