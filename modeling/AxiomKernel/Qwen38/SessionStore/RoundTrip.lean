import Mathlib.Data.List.TakeWhile
import AxiomKernel.Qwen38.SessionStore.Manifest

/-!
What `load` makes of the file that `save` published. `load` is opened up check by check; the
header that `save` seals is read back field by field.
-/
namespace AxiomKernel.Qwen38.SessionStore

open ManifestHeader Image Checksum Text Guard List Option

lemma toNat_kMaxRecurrentBytes : kMaxRecurrentBytes.toNat = 2 ^ 30 := by decide
lemma toNat_kMaxSpeculativeBytes : kMaxSpeculativeBytes.toNat = 2 ^ 24 := by decide

def ManifestHeader.payloadLength (header : ManifestHeader) : Nat :=
  header.tokenCount.toNat * 4 + header.recurrentBytes.toNat + header.speculativeBytes.toNat

def payloadOf (header : ManifestHeader) (file : Bytes) : Payload :=
  { tokenIds := words32 header.tokenCount.toNat (slice 4096 (header.tokenCount.toNat * 4) file)
    recurrent := slice (4096 + header.tokenCount.toNat * 4) header.recurrentBytes.toNat file
    speculative := slice (4096 + header.tokenCount.toNat * 4 + header.recurrentBytes.toNat)
      header.speculativeBytes.toNat file }

lemma payload_toNat (tokens recurrent speculative : UInt32) :
    (tokens.toUInt64 * 4).toNat = tokens.toNat * 4 ∧
    (tokens.toUInt64 * 4 + recurrent.toUInt64).toNat = tokens.toNat * 4 + recurrent.toNat ∧
    (tokens.toUInt64 * 4 + recurrent.toUInt64 + speculative.toUInt64).toNat =
    tokens.toNat * 4 + recurrent.toNat + speculative.toNat := by
  have htok := tokens.toNat_lt
  have hrec := recurrent.toNat_lt
  have hsp := speculative.toNat_lt
  have hf : (4 : UInt64).toNat = 4 := by decide
  have hfi : (tokens.toUInt64 * 4).toNat = tokens.toNat * 4 := by
    rw [UInt64.toNat_mul, UInt32.toNat_toUInt64, hf]
    omega
  have hs : (tokens.toUInt64 * 4 + recurrent.toUInt64).toNat =
      tokens.toNat * 4 + recurrent.toNat := by
    rw [UInt64.toNat_add, hfi, UInt32.toNat_toUInt64]
    omega
  refine ⟨hfi, hs, ?_⟩
  rw [UInt64.toNat_add, hs, UInt32.toNat_toUInt64]
  omega

/-- A sum below `2 ^ 64` passes the overflow check. -/
lemma not_overflow {a b : UInt64} (h : a.toNat + b.toNat < 2 ^ 64) :
    ¬ 0xffffffffffffffff - a < b := by
  have hm : (0xffffffffffffffff : UInt64).toNat = 2 ^ 64 - 1 := by decide
  have ha : a ≤ 0xffffffffffffffff := by
    rw [UInt64.le_iff_toNat_le, hm]
    omega
  rw [UInt64.lt_iff_toNat_lt, UInt64.toNat_sub_of_le _ _ ha, hm]
  omega

variable {store : Store} {header : ManifestHeader}

lemma payload_bounded (h : manifestContract store header)
    (hb : header.payloadBytes.toNat = header.payloadLength) :
    ¬ store.maxContext.toUInt64 * 4 + kMaxRecurrentBytes + kMaxSpeculativeBytes <
    header.payloadBytes := by
  simp only [manifestContract, Bool.and_eq_true, decide_eq_true_eq, UInt32.le_iff_toNat_le,
    UInt64.le_iff_toNat_le, UInt32.toNat_toUInt64, toNat_kMaxRecurrentBytes,
    toNat_kMaxSpeculativeBytes] at h
  obtain ⟨⟨⟨⟨⟨⟨-, hc⟩, -⟩, hrec⟩, hsp⟩, -⟩, -⟩ := h
  have hcont := store.maxContext.toNat_lt
  rw [payloadLength] at hb
  rw [UInt64.lt_iff_toNat_lt, UInt64.toNat_add, UInt64.toNat_add,
    (payload_toNat store.maxContext 0 0).1, toNat_kMaxRecurrentBytes, toNat_kMaxSpeculativeBytes,
    hb]
  omega

lemma loadPayload_eq_ok {env : LoadEnv} {file : Bytes} {p : Payload} :
    loadPayload store env header file = .ok p ↔
    (env.fstat ∧ env.allocate ∧ env.readPayload) ∧
    manifestContract store header ∧ header.payloadBytes.toNat = header.payloadLength ∧
    file.length = 4096 + header.payloadLength ∧ p = payloadOf header file := by
  obtain ⟨hfi, hs, ht⟩ :=
    payload_toNat header.tokenCount header.recurrentBytes header.speculativeBytes
  have htok := header.tokenCount.toNat_lt
  have hrec := header.recurrentBytes.toNat_lt
  have hsp := header.speculativeBytes.toNat_lt
  have hno := not_overflow (a := header.tokenCount.toUInt64 * 4)
    (b := header.recurrentBytes.toUInt64) (by rw [hfi, UInt32.toNat_toUInt64]; omega)
  have hno₂ := not_overflow (a := header.tokenCount.toUInt64 * 4 + header.recurrentBytes.toUInt64)
    (b := header.speculativeBytes.toUInt64) (by rw [hs, UInt32.toNat_toUInt64]; omega)
  have hb : (4096 : UInt64).toNat = 4096 := by decide
  have hle : header.payloadLength < 2 ^ 35 := by
    rw [payloadLength]
    omega
  have hsz : header.payloadBytes.toNat = header.payloadLength →
      (4096 + header.payloadBytes).toNat = 4096 + header.payloadLength := by
    intro h
    rw [UInt64.toNat_add, h, hb]
    omega
  rw [← payloadLength] at ht
  simp only [loadPayload, refuse_eq_ok, pure_eq_ok, Bool.not_eq_true', Bool.not_eq_false,
    not_or, not_not, not_lt, ne_eq, hno, hno₂, not_false_eq_true, true_and]
  constructor
  · rintro ⟨hc, ⟨hbyt, -⟩, ⟨hf, hfl⟩, ha, ⟨hr, -⟩, hp⟩
    have hl : header.payloadBytes.toNat = header.payloadLength := by rw [hbyt, ht]
    exact ⟨⟨hf, ha, hr⟩, hc, hl, hfl.trans (hsz hl), hp⟩
  · rintro ⟨⟨hf, ha, hr⟩, hc, hl, hfl, hp⟩
    have hbyt := UInt64.toNat_inj.1 (hl.trans ht.symm)
    refine ⟨hc, ⟨hbyt, payload_bounded hc hl⟩, ⟨hf, hfl.trans (hsz hl).symm⟩, ha, ⟨hr, ?_⟩, hp⟩
    rw [hfl, payloadLength]
    omega

section

variable {sha256 : Bytes → Block 32}

/-- The stored seal is the one that `seal_manifest` computes. -/
def SealMatches (sha256 : Bytes → Block 32) (digests : Bool) (header : ManifestHeader)
    (payload : Payload) : Prop :=
  ∃ sealedHeader, sealManifest sha256 digests header payload.tokenIds payload.recurrent
      payload.speculative = some sealedHeader ∧
    header.checksum = checksum sealedHeader ∧
    (header.abi = 2 → header.digest = digest sealedHeader)

def manifestOf (key : Key) (header : ManifestHeader) (payload : Payload) : Manifest :=
  { generation := header.generation, committedTokens := header.committedTokens
    nextToken := header.nextToken, tokenHash := header.tokenHash
    sessionId := key.sessionId, namespaceId := namespaceId key
    namespaceText := namespaceText key, profile := key.profile
    tokenIds := payload.tokenIds, recurrentState := payload.recurrent
    speculativeState := payload.speculative }

structure TextsMatch (key : Key) (header : ManifestHeader) : Prop where
  namespaceId : readText header.namespaceId = some (namespaceId key)
  sessionId : readText header.sessionId = some key.sessionId
  namespaceText : readText header.namespaceText = some (namespaceText key)
  profile : readText header.profile = some key.profile

variable {store : Store} {key : Key} {header : ManifestHeader} {manifest : Manifest} {paths : Paths}
  {env loadEnv : LoadEnv} {version : UInt32} {capacity : Nat}

lemma acceptManifest_eq_ok {p : Payload} :
    acceptManifest sha256 store env key header p = .ok (manifest, paths) ↔
    SealMatches sha256 env.digests header p ∧ TextsMatch key header ∧
    header.tokenHash = tokenHash p.tokenIds ∧ manifest = manifestOf key header p ∧
    paths = store.pathsFor key header.generation := by
  simp only [acceptManifest, refuse_eq_ok, need_eq_ok, pure_eq_ok, not_or, not_not,
    ne_eq, not_and, Prod.mk.injEq]
  constructor
  · rintro ⟨sh, hsl, ⟨hc, hd⟩, _, hi, _, hs, _, ht, _, hp,
      ⟨hid', hsess', ht', hprof', hto⟩, hman, hpa⟩
    -- rewritten one by one: `subst` would evaluate the hash in `namespaceId`
    rw [hid'] at hi
    rw [hsess'] at hs
    rw [ht'] at ht
    rw [hprof'] at hp
    rw [hid', hsess', ht', hprof'] at hman
    exact ⟨⟨sh, hsl, hc, hd⟩, ⟨hi, hs, ht, hp⟩, hto, hman, hpa⟩
  · rintro ⟨⟨sh, hsl, hc, hd⟩, ⟨hi, hs, ht, hp⟩, hto, hman, hpa⟩
    exact ⟨sh, hsl, ⟨hc, hd⟩, _, hi, _, hs, _, ht, _, hp, ⟨rfl, rfl, rfl, rfl, hto⟩, hman, hpa⟩

/-- What holds of a manifest file that `load` accepts. -/
structure FileAccepted (sha256 : Bytes → Block 32) (store : Store) (digests : Bool) (key : Key)
    (file : Bytes) (header : ManifestHeader) : Prop where
  image : header.image = slice 0 4096 file
  contract : manifestContract store header = true
  payloadBytes : header.payloadBytes.toNat = header.payloadLength
  length_file : file.length = 4096 + header.payloadLength
  seals : SealMatches sha256 digests header (payloadOf header file)
  texts : TextsMatch key header
  tokenHash : header.tokenHash = SessionStore.tokenHash (payloadOf header file).tokenIds

variable {file : Bytes}

lemma loadImage_eq_ok : loadImage sha256 store env key file = .ok (manifest, paths) ↔
    (env.readHeader ∧ env.fstat ∧ env.allocate ∧ env.readPayload) ∧
    ∃ header, FileAccepted sha256 store env.digests key file header ∧
    manifest = manifestOf key header (payloadOf header file) ∧
    paths = store.pathsFor key header.generation := by
  rw [loadImage]
  constructor
  · intro h
    split at h
    case isFalse => cases h
    rename_i hr
    obtain ⟨p, hp, hac⟩ := bind_eq_ok.1 h
    obtain ⟨he, hc, hb, hf, rfl⟩ := loadPayload_eq_ok.1 hp
    obtain ⟨hs, hte, ht, hm, hpa⟩ := acceptManifest_eq_ok.1 hac
    exact ⟨⟨hr.1, he⟩, _, ⟨rfl, hc, hb, hf, hs, hte, ht⟩, hm, hpa⟩
  · rintro ⟨⟨hr, he⟩, header, ha, hm, hpa⟩
    have hl := ha.length_file
    rw [dif_pos ⟨hr, by omega⟩]
    have hh : header = ⟨slice 0 4096 file, length_slice (by omega)⟩ := Block.ext ha.image
    rw [← hh]
    exact bind_eq_ok.2 ⟨_, loadPayload_eq_ok.2 ⟨he, ha.contract, ha.payloadBytes, hl, rfl⟩,
      acceptManifest_eq_ok.2 ⟨ha.seals, ha.texts, ha.tokenHash, hm, hpa⟩⟩

variable {disk : Disk}

lemma load_eq_found : load sha256 store env key disk = .ok (.found manifest paths) ↔
    (store.enabled ∧ validSessionId key.sessionId) ∧
    (env.stat ∧ env.opens) ∧
    ∃ file, disk (store.pathsFor key 1).manifestPath = some file ∧
    loadImage sha256 store env key file = .ok (manifest, paths) := by
  simp only [load, refuse_eq_ok, Bool.not_eq_true', Bool.not_eq_false, Bool.or_eq_true, not_or]
  constructor
  · rintro ⟨ha, hs, h⟩
    split at h
    · cases h
    · rename_i file hf
      obtain ⟨ho, h⟩ := refuse_eq_ok.1 h
      obtain ⟨⟨m', ps'⟩, hi, h⟩ := bind_eq_ok.1 h
      cases h
      exact ⟨ha, ⟨hs, by simpa using ho⟩, file, hf, hi⟩
  · rintro ⟨ha, ⟨hs, ho⟩, file, hf, hi⟩
    refine ⟨ha, hs, ?_⟩
    rw [hf]
    exact refuse_eq_ok.2 ⟨by simpa using ho, bind_eq_ok.2 ⟨_, hi, rfl⟩⟩

lemma load_eq_missing (h : load sha256 store env key disk = .ok (.missing paths)) :
    disk (store.pathsFor key 1).manifestPath = none := by
  simp only [load, refuse_eq_ok] at h
  obtain ⟨-, -, h⟩ := h
  split at h
  · assumption
  · obtain ⟨-, h⟩ := refuse_eq_ok.1 h
    obtain ⟨_, -, h⟩ := bind_eq_ok.1 h
    cases h

variable {env : SaveEnv}

lemma prepare_eq_ok {generation : UInt64} (h : prepare store env key generation = .ok paths) :
    validSessionId key.sessionId ∧ paths = store.pathsFor key generation := by
  obtain ⟨ha, h⟩ := refuse_eq_ok.1 h
  obtain ⟨-, h⟩ := refuse_eq_ok.1 h
  obtain ⟨-, -, h⟩ := bind_eq_ok.1 h
  obtain ⟨-, h⟩ := refuse_eq_ok.1 h
  obtain ⟨-, -, h⟩ := bind_eq_ok.1 h
  simp only [Bool.or_eq_true, Bool.not_eq_true', not_or, Bool.not_eq_false] at ha
  exact ⟨ha.1.1.2, pure_eq_ok.1 h⟩

structure ManifestSaved (sha256 : Bytes → Block 32) (store : Store) (digests : Bool) (key : Key)
    (paths : Paths) (manifest : Manifest) (source header : ManifestHeader) : Prop where
  savable : savable store key paths manifest = true
  sessionId : validSessionId key.sessionId = true
  manifestPath : paths.manifestPath = (store.pathsFor key manifest.generation).manifestPath
  tierPath : paths.tierPath = (store.pathsFor key manifest.generation).tierPath
  transactionPath : paths.transactionPath = (store.pathsFor key manifest.generation).transactionPath
  fills : manifestHeader store.manifestVersion manifest = some source
  seals : sealManifest sha256 digests source manifest.tokenIds manifest.recurrentState
    manifest.speculativeState = some header

lemma saved_of_saveImage (h : saveImage sha256 store env key paths manifest = .ok file) :
    ∃ source header, ManifestSaved sha256 store env.digests key paths manifest source header ∧
    file = header.image ++ le32s manifest.tokenIds ++ manifest.recurrentState ++
    manifest.speculativeState := by
  obtain ⟨hs, h⟩ := refuse_eq_ok.1 h
  obtain ⟨p, hp, h⟩ := bind_eq_ok.1 h
  simp only [refuse_eq_ok, need_eq_ok, pure_eq_ok, not_or, not_not, ne_eq] at h
  obtain ⟨⟨hm, ht, htr⟩, -, source, hsour, header, hh, hfl⟩ := h
  rw [Bool.not_eq_true', Bool.not_eq_false] at hs
  obtain ⟨hse, rfl⟩ := prepare_eq_ok hp
  exact ⟨source, header, ⟨hs, hse, hm.symm, ht.symm, htr.symm, hsour, hh⟩, hfl⟩

variable {disk' : Disk}

lemma save_eq_ok (h : save sha256 store env key paths manifest disk = (.ok (), disk')) :
    ∃ file, saveImage sha256 store env key paths manifest = .ok file ∧
    disk' = Function.update disk paths.manifestPath (some file) := by
  unfold save at h
  generalize saveImage sha256 store env key paths manifest = image at h ⊢
  cases image with
  | error f => exact absurd (congrArg Prod.fst h) nofun
  | ok file =>
    refine ⟨file, rfl, ?_⟩
    dsimp only at h
    split at h
    · exact absurd (congrArg Prod.fst h) nofun
    split at h
    · split at h
      · exact (congrArg Prod.snd h).symm
      · exact absurd (congrArg Prod.fst h) nofun
    · exact absurd (congrArg Prod.fst h) nofun

lemma abi_cleared (source : ManifestHeader) : (cleared source).abi = source.abi := by
  rw [cleared, abi, u32At, Block.slice_put_apart _ (by simp)]
  rfl

variable {digests : Bool} {source : ManifestHeader} {tokens : List UInt32}
  {recurrent speculative : Bytes}

lemma sealManifest_v1 (h : source.abi = 1) :
    sealManifest sha256 digests source tokens recurrent speculative =
      some ((cleared source).put ⟨56, le64 (fnvUpdate fnvOffset
        ((cleared source).image ++ le32s tokens ++ recurrent ++ speculative)), by simp⟩) := by
  simp [sealManifest, abi_cleared, h, fnvUpdate_append]

lemma sealManifest_v2 (h : source.abi = 2) :
    sealManifest sha256 digests source tokens recurrent speculative =
      if digests then some ((blank source).put ⟨1797, (sha256 ((blank source).image ++
        le32s tokens ++ recurrent ++ speculative)).image, by simp [Block.length_image]⟩)
      else none := by
  rw [sealManifest, abi_cleared, h, if_neg (by decide), if_pos rfl]

section
variable (h : sealManifest sha256 digests source tokens recurrent speculative = some header)
include h

lemma abi_of_sealManifest : source.abi = 1 ∨ source.abi = 2 := by
  rw [sealManifest, abi_cleared] at h
  split at h
  · rename_i ho
    exact .inl ho
  split at h
  · rename_i ht
    exact .inr ht
  · cases h

lemma slice_sealManifest {o w : Nat} (hc : o + w ≤ 56 ∨ 64 ≤ o) (hd : o + w ≤ 1797 ∨ 1829 ≤ o) :
    slice o w header.image = slice o w source.image := by
  have hcl : slice o w (cleared source).image = slice o w source.image :=
    Block.slice_put_apart _ (by simpa using hc)
  obtain habi | habi := abi_of_sealManifest h
  · rw [sealManifest_v1 habi] at h
    rw [← some.inj h, Block.slice_put_apart _ (by simpa using hc), hcl]
  · rw [sealManifest_v2 habi] at h
    split at h
    · rw [← some.inj h, Block.slice_put_apart _ (by simpa [Block.length_image] using hd), blank,
        Block.slice_put_apart _ (by simpa using hd), hcl]
    · cases h

end

lemma manifestFields_apart (version : UInt32) (manifest : Manifest) (ni : Block 33)
    (si : Block 128) (nt : Block 1536) (p : Block 32) :
    (manifestFields version manifest ni si nt p).Pairwise
    Field.Apart := by
  have hm : kManifestMagic.length = 8 := by decide
  simp [manifestFields, Field.Apart, hm, Block.length_image]

structure HeaderOf (version : UInt32) (manifest : Manifest) (header : ManifestHeader) : Prop where
  magic : header.magic = kManifestMagic
  abi : header.abi = version
  headerBytes : header.headerBytes = 4096
  generation : header.generation = manifest.generation
  committedTokens : header.committedTokens = manifest.committedTokens
  nextToken : header.nextToken = manifest.nextToken
  tokenCount : header.tokenCount = UInt32.ofNat manifest.tokenIds.length
  recurrentBytes : header.recurrentBytes = UInt32.ofNat manifest.recurrentState.length
  speculativeBytes : header.speculativeBytes = UInt32.ofNat manifest.speculativeState.length
  tokenHash : header.tokenHash = SessionStore.tokenHash manifest.tokenIds
  payloadBytes : header.payloadBytes = UInt64.ofNat (manifest.tokenIds.length * 4 +
    manifest.recurrentState.length + manifest.speculativeState.length)
  namespaceId : ∃ block, copyText 33 manifest.namespaceId = some block ∧
    header.namespaceId = block.image
  sessionId : ∃ block, copyText 128 manifest.sessionId = some block ∧ header.sessionId = block.image
  namespaceText : ∃ block, copyText 1536 manifest.namespaceText = some block ∧
    header.namespaceText = block.image
  profile : ∃ block, copyText 32 manifest.profile = some block ∧ header.profile = block.image

lemma headerOf_sealed (hs : manifestHeader version manifest = some source)
    (hh : sealManifest sha256 digests source manifest.tokenIds manifest.recurrentState
    manifest.speculativeState = some header) : HeaderOf version manifest header := by
  rw [manifestHeader] at hs
  obtain ⟨namespaceId, hi, hs⟩ := bind_eq_some_iff.1 hs
  obtain ⟨sessionId, hse, hs⟩ := bind_eq_some_iff.1 hs
  obtain ⟨namespaceText, ht, hs⟩ := bind_eq_some_iff.1 hs
  obtain ⟨profile, hp, hs⟩ := bind_eq_some_iff.1 hs
  set fields := manifestFields version manifest namespaceId sessionId namespaceText profile
  have f : ∀ {o w : Nat} {bytes : Bytes}, bytes.length = w → (∃ fs,
      ⟨o, bytes, fs⟩ ∈ fields ∧ (o + w ≤ 56 ∨ 64 ≤ o) ∧ o + w ≤ 1797) →
      slice o w header.image = bytes := by
    rintro o w bytes hw ⟨fs, hm, hc, hd⟩
    rw [slice_sealManifest hh hc (.inl hd), ← some.inj hs, ← hw]
    exact Block.slice_putAll (manifestFields_apart version manifest namespaceId sessionId
      namespaceText profile) hm _
  have wo : ∀ {o : Nat} {value : UInt32}, (∃ fs,
      ⟨o, le32 value, fs⟩ ∈ fields ∧ (o + 4 ≤ 56 ∨ 64 ≤ o) ∧ o + 4 ≤ 1797) →
      u32At o header.image = value := fun h => u32At_eq (f (length_le32 _) h)
  have l : ∀ {o : Nat} {value : UInt64}, (∃ fs,
      ⟨o, le64 value, fs⟩ ∈ fields ∧ (o + 8 ≤ 56 ∨ 64 ≤ o) ∧ o + 8 ≤ 1797) →
      u64At o header.image = value := fun h => u64At_eq (f (length_le64 _) h)
  exact {
    magic := f (by decide) ⟨by decide, by simp [fields, manifestFields], by decide⟩
    abi := wo (by simp [fields, manifestFields])
    headerBytes := wo (by simp [fields, manifestFields])
    generation := l (by simp [fields, manifestFields])
    committedTokens := wo (by simp [fields, manifestFields])
    nextToken := wo (by simp [fields, manifestFields])
    tokenCount := wo (by simp [fields, manifestFields])
    recurrentBytes := wo (by simp [fields, manifestFields])
    speculativeBytes := wo (by simp [fields, manifestFields])
    tokenHash := l (by simp [fields, manifestFields])
    payloadBytes := l (by simp [fields, manifestFields])
    namespaceId := ⟨namespaceId, hi, f namespaceId.length_image
      (by simp [fields, manifestFields, namespaceId.length_image])⟩
    sessionId := ⟨sessionId, hse, f sessionId.length_image
      (by simp [fields, manifestFields, sessionId.length_image])⟩
    namespaceText := ⟨namespaceText, ht, f namespaceText.length_image
      (by simp [fields, manifestFields, namespaceText.length_image])⟩
    profile := ⟨profile, hp, f profile.length_image
      (by simp [fields, manifestFields, profile.length_image])⟩ }

structure Savable (store : Store) (key : Key) (paths : Paths) (manifest : Manifest) : Prop where
  enabled : store.enabled = true
  generation_ne : manifest.generation ≠ 0
  generation : manifest.generation = paths.generation
  committedTokens : manifest.committedTokens ≤ store.maxContext
  tokenIds : manifest.tokenIds.length ≤ store.maxContext.toNat
  tokenIds_lt : manifest.tokenIds.length < 2 ^ 32
  committed_le : manifest.committedTokens.toNat ≤ manifest.tokenIds.length
  recurrent_lt : manifest.recurrentState.length < 2 ^ 32
  recurrent : manifest.recurrentState.length = store.recurrentStateBytes.toNat
  speculative_lt : manifest.speculativeState.length < 2 ^ 32
  speculative : manifest.speculativeState.length = store.speculativeStateBytes.toNat
  sessionId : manifest.sessionId = key.sessionId
  namespaceId : manifest.namespaceId = SessionStore.namespaceId key
  namespaceText : manifest.namespaceText = SessionStore.namespaceText key
  profile : manifest.profile = key.profile

lemma savable_iff : savable store key paths manifest ↔ Savable store key paths manifest := by
  simp only [savable, Bool.and_eq_true, decide_eq_true_eq, and_assoc]
  constructor
  · rintro ⟨h1, h2, h3, h4, h5, h6, h7, h8, h9, h10, h11, h12, h13, h14, h15⟩
    exact ⟨h1, h2, h3, h4, h5, h6, h7, h8, h9, h10, h11, h12, h13, h14, h15⟩
  · rintro ⟨h1, h2, h3, h4, h5, h6, h7, h8, h9, h10, h11, h12, h13, h14, h15⟩
    exact ⟨h1, h2, h3, h4, h5, h6, h7, h8, h9, h10, h11, h12, h13, h14, h15⟩

def fileOf (header : ManifestHeader) (manifest : Manifest) : Bytes :=
  header.image ++ le32s manifest.tokenIds ++ manifest.recurrentState ++ manifest.speculativeState

lemma slice_fileOf (header : ManifestHeader) (manifest : Manifest) :
    slice 0 4096 (fileOf header manifest) = header.image := by
  rw [fileOf, append_assoc, append_assoc, slice_append_left (by
    rw [header.length_image]), slice, drop_zero,
    take_of_length_le header.length_image.le]

lemma payloadOf_fileOf (ht : header.tokenCount.toNat = manifest.tokenIds.length)
    (hr : header.recurrentBytes.toNat = manifest.recurrentState.length)
    (hs : header.speculativeBytes.toNat = manifest.speculativeState.length) :
    payloadOf header (fileOf header manifest) =
    ⟨manifest.tokenIds, manifest.recurrentState, manifest.speculativeState⟩ := by
  have hf : (header.image ++ le32s manifest.tokenIds).length =
      4096 + manifest.tokenIds.length * 4 := by
    rw [length_append, header.length_image, length_le32s]
    omega
  have hw : slice 4096 (manifest.tokenIds.length * 4) (fileOf header manifest) =
      le32s manifest.tokenIds := by
    rw [fileOf, append_assoc]
    exact slice_append_middle header.length_image (by rw [length_le32s]; omega)
  have hm : slice (4096 + manifest.tokenIds.length * 4) manifest.recurrentState.length
      (fileOf header manifest) = manifest.recurrentState :=
    slice_append_middle hf rfl
  have hl : slice (4096 + manifest.tokenIds.length * 4 + manifest.recurrentState.length)
      manifest.speculativeState.length (fileOf header manifest) = manifest.speculativeState := by
    rw [← append_nil (fileOf header manifest)]
    exact slice_append_middle (by rw [length_append, hf]) rfl
  rw [payloadOf, ht, hr, hs, hw, hm, hl, words32_le32s]

lemma length_fileOf (header : ManifestHeader) (manifest : Manifest) :
    (fileOf header manifest).length = 4096 + (manifest.tokenIds.length * 4 +
    manifest.recurrentState.length + manifest.speculativeState.length) := by
  rw [fileOf, length_append, length_append, length_append, header.length_image, length_le32s]
  omega

lemma HeaderOf.counts (h : HeaderOf version manifest header)
    (hs : Savable store key paths manifest) :
    header.tokenCount.toNat = manifest.tokenIds.length ∧
    header.recurrentBytes.toNat = manifest.recurrentState.length ∧
    header.speculativeBytes.toNat = manifest.speculativeState.length := by
  rw [h.tokenCount, h.recurrentBytes, h.speculativeBytes]
  exact ⟨UInt32.toNat_ofNat_of_lt' hs.tokenIds_lt, UInt32.toNat_ofNat_of_lt' hs.recurrent_lt,
    UInt32.toNat_ofNat_of_lt' hs.speculative_lt⟩

lemma sealManifest_sealed {ds' : Bool}
    (h : sealManifest sha256 digests source tokens recurrent speculative = some header)
    (hd : ds') :
    sealManifest sha256 ds' header tokens recurrent speculative = some header := by
  have ha : header.abi = source.abi := by
    rw [abi, u32At, slice_sealManifest h (by decide) (by decide)]
    rfl
  obtain hone | htwo := abi_of_sealManifest h
  · rw [sealManifest_v1 hone] at h
    have hh := some.inj h
    have hc : cleared header = cleared source := by
      rw [← hh, cleared, Block.put_put_same _ _ _ (by simp), cleared, Block.put_put_same _ _ _ rfl]
    rw [sealManifest_v1 (ha.trans hone), hc, hh]
  · rw [sealManifest_v2 htwo] at h
    split at h
    case isFalse => cases h
    have hh := some.inj h
    have hc : cleared header = header := by
      apply Block.put_self
      rw [← hh, Block.slice_put_apart _ (by simp), blank, Block.slice_put_apart _ (by simp)]
      exact Block.slice_put_self _ _
    have hb : blank header = blank source := by
      rw [blank, hc, ← hh, Block.put_put_same _ _ _ (by simp [Block.length_image]), blank,
        Block.put_put_same _ _ _ rfl]
    rw [sealManifest_v2 (ha.trans htwo), if_pos hd, hb, hh]

variable {text : Bytes}

lemma readText_copyText {b : Block capacity} (h : copyText capacity text = some b) :
    readText b.image = some (text.takeWhile (· ≠ 0)) := by
  rw [copyText] at h
  split at h
  case isFalse => cases h
  rename_i hl
  have hi : b.image = text ++ zeros (capacity - text.length) := by
    rw [← some.inj h]
  have hz : zeros (capacity - text.length) = 0 :: zeros (capacity - text.length - 1) := by
    rw [zeros, zeros, ← replicate_succ]
    congr 1
    omega
  have hm : 0 ∈ text ++ 0 :: zeros (capacity - text.length - 1) := mem_append_right _ mem_cons_self
  rw [readText, hi, hz, if_pos hm, takeWhile_append]
  split
  · rename_i ha
    rw [takeWhile_cons_of_neg (by simp), append_nil, ( takeWhile_prefix _).eq_of_length ha]
  · rfl

lemma takeWhile_ne_zero_eq : text.takeWhile (· ≠ 0) = text ↔ 0 ∉ text := by
  rw [takeWhile_eq_self_iff]
  constructor
  · intro h hm
    exact absurd rfl (of_decide_eq_true (h 0 hm))
  · intro h b hm
    exact decide_eq_true fun he => h (he ▸ hm)

lemma zero_mem_netstring : 0 ∈ netstring text ↔ 0 ∈ text := by
  have hd : 0 ∉ decimal text.length := fun h => absurd (isDigit_of_mem_decimal h) (by decide)
  simp [netstring, hd]

lemma zero_mem_namespaceText : 0 ∈ namespaceText key ↔ ∃ text ∈ key.fields, 0 ∈ text := by
  rw [namespaceText, mem_flatMap]
  exact exists_congr fun text => and_congr_right fun _ => zero_mem_netstring

/-- The header that `load` reads of a saved file is the one that was written. -/
lemma FileAccepted.header_eq {h' : ManifestHeader}
    (h : FileAccepted sha256 store digests key (fileOf header manifest) h') :
    h' = header :=
  Block.ext (h.image.trans (slice_fileOf header manifest))

variable {reader : Store} {loadedPaths : Paths} {loaded : Manifest}

lemma loadImage_saved {key' : Key}
    (hsave : saveImage sha256 store env key paths manifest = .ok file)
    (hl : loadImage sha256 reader loadEnv key' file = .ok (loaded, loadedPaths)) :
    key' = key ∧ loaded = { manifest with tokenHash := tokenHash manifest.tokenIds } ∧
      loadedPaths = reader.pathsFor key manifest.generation := by
  obtain ⟨source, header, hsa, rfl⟩ := saved_of_saveImage hsave
  have hs := savable_iff.1 hsa.savable
  have hof := headerOf_sealed hsa.fills hsa.seals
  obtain ⟨-, h', ha, rfl, rfl⟩ := loadImage_eq_ok.1 hl
  obtain rfl : h' = header := ha.header_eq
  have hk : key' = key := by
    -- the stored text may be cut at a zero byte, but no namespace text starts another one
    obtain ⟨bl, hc, hi⟩ := hof.namespaceText
    have ht := ha.texts.namespaceText
    rw [hi, readText_copyText hc, hs.namespaceText] at ht
    have hspl := takeWhile_append_dropWhile (p := fun b : UInt8 => decide (b ≠ 0))
      (l := namespaceText key)
    rw [some.inj ht, ← append_nil (namespaceText key)] at hspl
    exact namespaceText_append_injective hspl
  subst hk
  obtain ⟨hto, hr, hsp⟩ := hof.counts hs
  have hpayl := payloadOf_fileOf hto hr hsp
  rw [fileOf] at hpayl
  refine ⟨rfl, ?_, by rw [hof.generation]⟩
  rw [manifestOf, hpayl, hof.generation, hof.committedTokens, hof.nextToken, hof.tokenHash,
    ← hs.sessionId, ← hs.namespaceId, ← hs.namespaceText, ← hs.profile]

lemma manifestPath_eq (h : reader.basePath = store.basePath) (key : Key)
    (g g' : UInt64) : (reader.pathsFor key g).manifestPath =
    (store.pathsFor key g').manifestPath := by
  rw [Store.pathsFor, Store.pathsFor, Store.rootPath, Store.rootPath, h]
  rfl

/-- A `load` that follows reads the file that was published. -/
lemma loadImage_of_load_saved (hb : reader.basePath = store.basePath)
    (hsave : save sha256 store env key paths manifest disk = (.ok (), disk'))
    (hl : load sha256 reader loadEnv key disk' = .ok (.found loaded loadedPaths)) :
    ∃ file, saveImage sha256 store env key paths manifest = .ok file ∧
    loadImage sha256 reader loadEnv key file = .ok (loaded, loadedPaths) := by
  obtain ⟨file, hi, rfl⟩ := save_eq_ok hsave
  obtain ⟨source, header, hs, -⟩ := saved_of_saveImage hi
  obtain ⟨-, -, f', hf, hl⟩ := load_eq_found.1 hl
  rw [manifestPath_eq hb key 1 manifest.generation, ← hs.manifestPath, Function.update_self] at hf
  cases hf
  exact ⟨file, hi, hl⟩

/-- A following `load` of the same key in the same directory, whatever version (or sizes) its store
is configured for, returns the saved manifest and the paths of its generation, if it returns one. -/
theorem save_load_faithful {store reader : Store} {env : SaveEnv} {loadEnv : LoadEnv} {key : Key}
    {paths loadedPaths : Paths} {manifest loaded : Manifest} {disk disk' : Disk}
    (hbase : reader.basePath = store.basePath)
    (hsave : save sha256 store env key paths manifest disk = (.ok (), disk'))
    (hload : load sha256 reader loadEnv key disk' = .ok (.found loaded loadedPaths)) :
    loaded = { manifest with tokenHash := tokenHash manifest.tokenIds } ∧
      loadedPaths = store.pathsFor key manifest.generation ∧
      loadedPaths.generation = paths.generation ∧
      loadedPaths.manifestPath = paths.manifestPath ∧ loadedPaths.tierPath = paths.tierPath ∧
      loadedPaths.transactionPath = paths.transactionPath := by
  obtain ⟨file, hi, hload⟩ := loadImage_of_load_saved hbase hsave hload
  obtain ⟨source, header, hsa, -⟩ := saved_of_saveImage hi
  have hs := savable_iff.1 hsa.savable
  obtain ⟨-, hl, hp⟩ := loadImage_saved hi hload
  have hp' : loadedPaths = store.pathsFor key manifest.generation := by
    rw [hp, Store.pathsFor, Store.pathsFor, Store.rootPath, Store.rootPath, hbase]
  rw [hp']
  exact ⟨hl, rfl, hs.generation, hsa.manifestPath.symm, hsa.tierPath.symm,
    hsa.transactionPath.symm⟩

lemma contract_saved (ho : HeaderOf store.manifestVersion manifest header)
    (hs : Savable store key paths manifest) : manifestContract store header ↔
    store.recurrentStateBytes ≤ kMaxRecurrentBytes ∧
    store.speculativeStateBytes ≤ kMaxSpeculativeBytes := by
  obtain ⟨ht, hre, hspe⟩ := ho.counts hs
  have hr : header.recurrentBytes.toUInt64 = store.recurrentStateBytes := by
    rw [← UInt64.toNat_inj, UInt32.toNat_toUInt64, hre, hs.recurrent]
  have hsp : header.speculativeBytes.toUInt64 = store.speculativeStateBytes := by
    rw [← UInt64.toNat_inj, UInt32.toNat_toUInt64, hspe, hs.speculative]
  have hco : header.tokenCount ≤ store.maxContext := by
    rw [UInt32.le_iff_toNat_le, ht]
    exact hs.tokenIds
  have hc : manifest.committedTokens ≤ header.tokenCount := by
    rw [UInt32.le_iff_toNat_le, ht]
    exact hs.committed_le
  simp [manifestContract, ho.magic, ho.abi, store.version_valid, ho.headerBytes,
    ho.generation, hs.generation_ne, ho.committedTokens, hs.committedTokens, hco, hc,
    hr, hsp]

lemma readText_iff {bs : Bytes}
    (h : ∃ b : Block capacity, copyText capacity text = some b ∧ bs = b.image) :
    readText bs = some text ↔ 0 ∉ text := by
  obtain ⟨b, hc, rfl⟩ := h
  rw [readText_copyText hc, some.injEq, takeWhile_ne_zero_eq]

lemma zero_not_mem_hash128 (text : Bytes) : 0 ∉ hash128 text :=
  fun h => absurd (isLowerHex_of_mem_hash128 h) (by decide)

lemma texts_saved (ho : HeaderOf store.manifestVersion manifest header)
    (hs : Savable store key paths manifest) :
    TextsMatch key header ↔ ∀ text ∈ key.fields, 0 ∉ text := by
  have hid := readText_iff ho.namespaceId
  have hsess := readText_iff ho.sessionId
  have ht := readText_iff ho.namespaceText
  have hprof := readText_iff ho.profile
  rw [hs.namespaceId] at hid
  rw [hs.sessionId] at hsess
  rw [hs.namespaceText, zero_mem_namespaceText] at ht
  rw [hs.profile] at hprof
  constructor
  · intro h text hm hz
    exact ht.1 h.namespaceText ⟨text, hm, hz⟩
  · intro h
    exact {
      namespaceId := hid.2 (zero_not_mem_hash128 _)
      sessionId := hsess.2 (h _ (by simp [Key.fields]))
      namespaceText := ht.2 fun ⟨text, hm, hz⟩ => h text hm hz
      profile := hprof.2 (h _ (by simp [Key.fields])) }

/-- A saved file is accepted under its key exactly if the sizes keep to the limits of `load` and no
text of the key has a zero byte. -/
lemma fileAccepted_saved
    (hsa : ManifestSaved sha256 store digests key paths manifest source header) :
    FileAccepted sha256 store true key (fileOf header manifest) header ↔
    store.recurrentStateBytes ≤ kMaxRecurrentBytes ∧
    store.speculativeStateBytes ≤ kMaxSpeculativeBytes ∧ ∀ text ∈ key.fields, 0 ∉ text := by
  have hs := savable_iff.1 hsa.savable
  have hof := headerOf_sealed hsa.fills hsa.seals
  obtain ⟨hto, hre, hspe⟩ := hof.counts hs
  have hpayl := payloadOf_fileOf hto hre hspe
  have hl : header.payloadLength = manifest.tokenIds.length * 4 +
      manifest.recurrentState.length + manifest.speculativeState.length := by
    rw [payloadLength, hto, hre, hspe]
  rw [← and_assoc, ← contract_saved hof hs, ← texts_saved hof hs]
  constructor
  · intro h
    exact ⟨h.contract, h.texts⟩
  · rintro ⟨hc, hte⟩
    have ht := hs.tokenIds_lt
    have hr := hs.recurrent_lt
    have hsp := hs.speculative_lt
    exact {
      image := (slice_fileOf header manifest).symm
      contract := hc
      payloadBytes := by
        rw [hof.payloadBytes, hl]
        exact UInt64.toNat_ofNat_of_lt' (by
          change _ < 2 ^ 64
          omega)
      length_file := by rw [length_fileOf, hl]
      seals := by
        rw [hpayl]
        exact ⟨header, sealManifest_sealed hsa.seals rfl, rfl, fun _ => rfl⟩
      texts := hte
      tokenHash := by rw [hpayl, hof.tokenHash] }

section
variable (hsave : save sha256 store env key paths manifest disk = (.ok (), disk'))
include hsave

/-- A saved file that is accepted is what `load` finds. -/
lemma load_of_accepted (hl : store.recurrentStateBytes ≤ kMaxRecurrentBytes ∧
    store.speculativeStateBytes ≤ kMaxSpeculativeBytes ∧ ∀ text ∈ key.fields, 0 ∉ text) :
    ∃ loaded loadedPaths,
    load sha256 store .faultless key disk' = .ok (.found loaded loadedPaths) := by
  obtain ⟨file, hi, rfl⟩ := save_eq_ok hsave
  obtain ⟨source, header, hsa, rfl⟩ := saved_of_saveImage hi
  have hs := savable_iff.1 hsa.savable
  have hp : paths.manifestPath = (store.pathsFor key 1).manifestPath := hsa.manifestPath
  refine ⟨_, _, load_eq_found.2 ⟨⟨hs.enabled, hsa.sessionId⟩, ⟨rfl, rfl⟩, _, ?_,
    loadImage_eq_ok.2 ⟨⟨rfl, rfl, rfl, rfl⟩, header, (fileAccepted_saved hsa).2 hl, rfl, rfl⟩⟩⟩
  rw [← hp, Function.update_self]
  rfl

/-- What `load` finds of a saved file keeps to the limits. -/
lemma limits_of_load_saved
    (hl : load sha256 store .faultless key disk' = .ok (.found loaded loadedPaths)) :
    store.recurrentStateBytes ≤ kMaxRecurrentBytes ∧
    store.speculativeStateBytes ≤ kMaxSpeculativeBytes ∧ ∀ text ∈ key.fields, 0 ∉ text := by
  obtain ⟨file, hi, hl⟩ := loadImage_of_load_saved rfl hsave hl
  obtain ⟨source, header, hs, rfl⟩ := saved_of_saveImage hi
  obtain ⟨-, h', ha, -⟩ := loadImage_eq_ok.1 hl
  obtain rfl : h' = header := ha.header_eq
  exact (fileAccepted_saved hs).1 ha

end

/-- After a `save` that returned OK, `load` with the same key and store finds a manifest exactly if
the configured sizes keep to the limits of `load` and no text of the key has a zero byte. -/
theorem load_of_save_iff {store : Store} {env : SaveEnv} {key : Key} {paths : Paths}
    {manifest : Manifest} {disk disk' : Disk}
    (hsave : save sha256 store env key paths manifest disk = (.ok (), disk')) :
    (∃ loaded loadedPaths,
        load sha256 store .faultless key disk' = .ok (.found loaded loadedPaths)) ↔
      store.recurrentStateBytes ≤ kMaxRecurrentBytes ∧
        store.speculativeStateBytes ≤ kMaxSpeculativeBytes ∧ ∀ text ∈ key.fields, 0 ∉ text :=
  ⟨fun ⟨_, _, hld⟩ => limits_of_load_saved hsave hld, load_of_accepted hsave⟩

def SaveEnv.faultless : SaveEnv :=
  ⟨true, .isPrivate, true, .isPrivate, true, true, true, true, true, true, true, 1, 1, none, []⟩

def manifestFor (key : Key) (tokens : List UInt32) : Manifest :=
  { generation := 1, committedTokens := 1, nextToken := 7, tokenHash := 0
    sessionId := key.sessionId, namespaceId := namespaceId key
    namespaceText := namespaceText key, profile := key.profile
    tokenIds := tokens, recurrentState := [], speculativeState := [] }

lemma smallStore_version : (1 : UInt32) = 1 ∨ (1 : UInt32) = 2 := .inl rfl

def smallStore : Store := ⟨ascii "kv", 16, 0, 0, 1, smallStore_version⟩

variable (profile : Bytes)

def smallKey : Key :=
  ⟨ascii "s", ascii "m", ascii "t", ascii "d", ascii "c", profile⟩

def smallSave : Except Failure Unit × Disk :=
  save (fun _ => Block.clear 32) smallStore .faultless (smallKey profile)
    (smallStore.pathsFor (smallKey profile) 1) (manifestFor (smallKey profile) [3, 5])
    fun _ => none

lemma smallSave_eq {p : Bytes} (h : (smallSave p).1 = .ok ()) :
    smallSave p = (.ok (), (smallSave p).2) := by
  generalize smallSave p = result at h ⊢
  rw [← h]

lemma smallStore_limits : smallStore.recurrentStateBytes ≤ kMaxRecurrentBytes ∧
    smallStore.speculativeStateBytes ≤ kMaxSpeculativeBytes ∧
    ∀ text ∈ (smallKey (ascii "p")).fields, 0 ∉ text := by
  refine ⟨by decide, by decide, ?_⟩
  decide +kernel

theorem load_of_save_iff_small :
    ∃ loaded loadedPaths, load (fun _ => Block.clear 32) smallStore .faultless
      (smallKey (ascii "p")) (smallSave (ascii "p")).2 = .ok (.found loaded loadedPaths) :=
  (load_of_save_iff (smallSave_eq (by decide +kernel))).2 smallStore_limits

/-- A profile with a zero byte is saved, and the manifest is then refused. -/
theorem load_of_save_zero_byte : (smallSave (ascii "p" ++ [0])).1 = .ok () ∧
      ¬ ∃ loaded loadedPaths, load (fun _ => Block.clear 32) smallStore .faultless
        (smallKey (ascii "p" ++ [0])) (smallSave (ascii "p" ++ [0])).2 =
          .ok (.found loaded loadedPaths) := by
  have ho : (smallSave (ascii "p" ++ [0])).1 = .ok () := by decide +kernel
  refine ⟨ho, fun ⟨_, _, hld⟩ => ?_⟩
  have hp : ascii "p" ++ [0] ∈ (smallKey (ascii "p" ++ [0])).fields := by
    simp [smallKey, Key.fields]
  exact (limits_of_load_saved (smallSave_eq ho) hld).2.2 _ hp (by simp)

theorem save_load_faithful_small :
    ∃ loaded loadedPaths, load (fun _ => Block.clear 32) smallStore .faultless
        (smallKey (ascii "p")) (smallSave (ascii "p")).2 = .ok (.found loaded loadedPaths) ∧
      loaded.tokenIds = [3, 5] ∧ loadedPaths.generation = 1 := by
  have hsave := smallSave_eq (show (smallSave (ascii "p")).1 = .ok () by decide +kernel)
  obtain ⟨loaded, loadedPaths, hl⟩ := load_of_accepted hsave smallStore_limits
  obtain ⟨hlo, -, hg, -⟩ := save_load_faithful rfl hsave hl
  exact ⟨loaded, loadedPaths, hl, by rw [hlo]; rfl, hg⟩

end

end AxiomKernel.Qwen38.SessionStore
