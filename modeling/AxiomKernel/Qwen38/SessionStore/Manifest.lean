import AxiomKernel.Status
import AxiomKernel.Lib.Guard
import AxiomKernel.Qwen38.SessionStore.Key

/-!
The session manifest on disk: `copy_text`, `read_text`, `seal_manifest`, `save` and `load` of
`qwen38_persistent_session_store`. The file system is a map from paths to the bytes of regular
files; what system calls may refuse is given by an environment.
-/
namespace AxiomKernel.Qwen38.SessionStore

open Image Checksum Text Guard

def kManifestMagic : Bytes := ascii "AXQ38SM1"
def kMaxRecurrentBytes : UInt64 := 1073741824
def kMaxSpeculativeBytes : UInt64 := 16777216

structure Manifest where
  generation : UInt64
  committedTokens : UInt32
  nextToken : UInt32
  tokenHash : UInt64
  sessionId : Bytes
  namespaceId : Bytes
  namespaceText : Bytes
  profile : Bytes
  tokenIds : List UInt32
  recurrentState : Bytes
  speculativeState : Bytes
  deriving DecidableEq

/-- A configured store; `set_manifest_version` takes no other version. -/
structure Store where
  basePath : Bytes
  maxContext : UInt32
  recurrentStateBytes : UInt64
  speculativeStateBytes : UInt64
  manifestVersion : UInt32
  version_valid : manifestVersion = 1 ∨ manifestVersion = 2

namespace Store

variable (store : Store)

def enabled : Bool := store.basePath ≠ []

def rootPath : Bytes :=
  if store.basePath = [] then [] else store.basePath ++ ascii ".sessions"

def pathsFor (store : Store) (key : Key) (generation : UInt64) : Paths :=
  SessionStore.pathsFor store.rootPath key generation

end Store

/-- A failing call: its status and the text it leaves in `error`. -/
structure Failure where
  status : Status
  text : Bytes
  deriving DecidableEq

abbrev ManifestHeader := Block 4096

namespace ManifestHeader

variable (header : ManifestHeader)

def magic : Bytes := slice 0 8 header.image
def abi : UInt32 := u32At 8 header.image
def headerBytes : UInt32 := u32At 12 header.image
def generation : UInt64 := u64At 16 header.image
def committedTokens : UInt32 := u32At 24 header.image
def nextToken : UInt32 := u32At 28 header.image
def tokenCount : UInt32 := u32At 32 header.image
def recurrentBytes : UInt32 := u32At 36 header.image
def tokenHash : UInt64 := u64At 40 header.image
def payloadBytes : UInt64 := u64At 48 header.image
def checksum : UInt64 := u64At 56 header.image
def namespaceId : Bytes := slice 64 33 header.image
def sessionId : Bytes := slice 97 128 header.image
def namespaceText : Bytes := slice 225 1536 header.image
def profile : Bytes := slice 1761 32 header.image
def speculativeBytes : UInt32 := u32At 1793 header.image
/-- `reserved[0:32]`, where version 2 keeps its digest. -/
def digest : Bytes := slice 1797 32 header.image

end ManifestHeader

def copyText (capacity : Nat) (text : Bytes) : Option (Block capacity) :=
  if h : text.length < capacity then
    some ⟨text ++ zeros (capacity - text.length), by
      rw [List.length_append, length_zeros]
      omega⟩
  else none

def readText (source : Bytes) : Option Bytes :=
  if 0 ∈ source then some (source.takeWhile (· ≠ 0)) else none

lemma headerBytes_fits : 12 + (le32 4096).length ≤ 4096 := by simp

variable (version : UInt32)

def manifestFields (manifest : Manifest) (namespaceId : Block 33)
    (sessionId : Block 128) (namespaceText : Block 1536) (profile : Block 32) :
    List (Field 4096) :=
  [⟨0, kManifestMagic, by decide⟩, ⟨8, le32 version, by simp⟩, ⟨12, le32 4096, headerBytes_fits⟩,
    ⟨16, le64 manifest.generation, by simp⟩, ⟨24, le32 manifest.committedTokens, by simp⟩,
    ⟨28, le32 manifest.nextToken, by simp⟩,
    ⟨32, le32 (UInt32.ofNat manifest.tokenIds.length), by simp⟩,
    ⟨36, le32 (UInt32.ofNat manifest.recurrentState.length), by simp⟩,
    ⟨1793, le32 (UInt32.ofNat manifest.speculativeState.length), by simp⟩,
    ⟨40, le64 (tokenHash manifest.tokenIds), by simp⟩,
    ⟨48, le64 (UInt64.ofNat (manifest.tokenIds.length * 4 + manifest.recurrentState.length +
      manifest.speculativeState.length)), by simp⟩,
    ⟨64, namespaceId.image, by simp [namespaceId.length_image]⟩,
    ⟨97, sessionId.image, by simp [sessionId.length_image]⟩,
    ⟨225, namespaceText.image, by simp [namespaceText.length_image]⟩,
    ⟨1761, profile.image, by simp [profile.length_image]⟩]

/-- The header that `save` seals, unless a text is too long for its field. -/
def manifestHeader (manifest : Manifest) : Option ManifestHeader := do
  let namespaceId ← copyText 33 manifest.namespaceId
  let sessionId ← copyText 128 manifest.sessionId
  let namespaceText ← copyText 1536 manifest.namespaceText
  let profile ← copyText 32 manifest.profile
  some ((Block.clear 4096).putAll
    (manifestFields version manifest namespaceId sessionId namespaceText profile))

section

-- SHA-256
variable (sha256 : Bytes → Block 32) (source : ManifestHeader)

def cleared : ManifestHeader := source.put ⟨56, zeros 8, by simp⟩

def blank : ManifestHeader := (cleared source).put ⟨1797, zeros 32, by simp⟩

/-- `seal_manifest`: version 1 keeps an FNV checksum in the header, version 2 a SHA-256 digest in
the reserved bytes and a checksum of zero. `digests` says whether the library computes the digest
(it may fail to allocate its context). -/
def sealManifest (digests : Bool) (source : ManifestHeader) (tokens : List UInt32)
    (recurrent speculative : Bytes) : Option ManifestHeader :=
  if (cleared source).abi = 1 then
    let header := cleared source
    let hash := fnvUpdate fnvOffset header.image
    let hash := fnvUpdate hash (le32s tokens)
    let hash := fnvUpdate hash recurrent
    some (header.put ⟨56, le64 (fnvUpdate hash speculative), by simp⟩)
  else if (cleared source).abi = 2 then
    let header := blank source
    if digests then
      let digest := sha256 (header.image ++ le32s tokens ++ recurrent ++ speculative)
      some (header.put ⟨1797, digest.image, by simp [digest.length_image]⟩)
    else none
  else none

abbrev Disk := Bytes → Option Bytes

inductive DirectoryState where
  | isPrivate
  | cannotOpen
  | cannotStat
  | notPrivate
  deriving DecidableEq

/-- What the system calls of a `save` answer, with the text of `strerror`. `leftover` is what stays
under the temporary name of a failed `save` when it cannot be unlinked. -/
structure SaveEnv where
  makeRoot : Bool
  root : DirectoryState
  makeNamespace : Bool
  namespaceDir : DirectoryState
  digests : Bool
  create : Bool
  write : Bool
  sync : Bool
  close : Bool
  rename : Bool
  directorySync : Bool
  pid : UInt64
  sequence : UInt64
  leftover : Option Bytes
  strerror : Bytes

def validatePrivateDirectory (state : DirectoryState) (strerror path : Bytes) :
    Except Failure Unit :=
  let foreign :=
    ascii "persistent KV directory is not private and owned by the daemon: " ++ path
  match state with
  | .isPrivate => .ok ()
  | .cannotOpen =>
    .error ⟨.io, ascii "cannot open private persistent KV directory " ++ path ++ ascii ": " ++
      strerror⟩
  | .cannotStat => .error ⟨.io, foreign ++ ascii ": " ++ strerror⟩
  | .notPrivate => .error ⟨.io, foreign⟩

variable (store : Store) (env : SaveEnv) (key : Key)

def prepare (generation : UInt64) : Except Failure Paths := do
  refuse (!store.enabled || generation = 0 || !validSessionId key.sessionId ||
      key.modelId = [] || key.profile = [])
    ⟨.invalidArgument, ascii "invalid persistent KV session key"⟩
  refuse (!env.makeRoot) ⟨.io, ascii "cannot create persistent KV root: " ++ store.rootPath⟩
  validatePrivateDirectory env.root env.strerror store.rootPath
  let paths := store.pathsFor key generation
  refuse (!env.makeNamespace)
    ⟨.io, ascii "cannot create persistent KV namespace: " ++ paths.namespaceDir⟩
  validatePrivateDirectory env.namespaceDir env.strerror paths.namespaceDir
  return paths

variable (paths : Paths)

variable (manifest : Manifest)

def savable : Bool :=
  store.enabled && manifest.generation ≠ 0 && manifest.generation = paths.generation &&
    manifest.committedTokens ≤ store.maxContext &&
    manifest.tokenIds.length ≤ store.maxContext.toNat && manifest.tokenIds.length < 2 ^ 32 &&
    manifest.committedTokens.toNat ≤ manifest.tokenIds.length &&
    manifest.recurrentState.length < 2 ^ 32 &&
    manifest.recurrentState.length = store.recurrentStateBytes.toNat &&
    manifest.speculativeState.length < 2 ^ 32 &&
    manifest.speculativeState.length = store.speculativeStateBytes.toNat &&
    manifest.sessionId = key.sessionId && manifest.namespaceId = namespaceId key &&
    manifest.namespaceText = namespaceText key && manifest.profile = key.profile

/-- The name under which `save` writes before it publishes. -/
def temporaryPath (manifestPath : Bytes) : Bytes :=
  manifestPath ++ ascii ".tmp." ++ decimal env.pid.toNat ++ ascii "." ++
    decimal env.sequence.toNat

/-- The file that `save` publishes, or why it does not come to write it. -/
def saveImage : Except Failure Bytes := do
  refuse (!savable store key paths manifest)
    ⟨.invalidArgument, ascii "invalid persistent KV manifest to save"⟩
  let prepared ← prepare store env key manifest.generation
  refuse (prepared.manifestPath ≠ paths.manifestPath ∨ prepared.tierPath ≠ paths.tierPath ∨
      prepared.transactionPath ≠ paths.transactionPath)
    ⟨.invalidArgument, ascii "persistent KV manifest path does not match namespace"⟩
  let tokenBytes := manifest.tokenIds.length * 4
  let recurrentBytes := manifest.recurrentState.length
  let speculativeBytes := manifest.speculativeState.length
  refuse (2 ^ 64 - 1 - recurrentBytes < tokenBytes ∨
      2 ^ 64 - 1 - speculativeBytes < tokenBytes + recurrentBytes ∨
      2 ^ 64 - 1 < tokenBytes + recurrentBytes + speculativeBytes)
    ⟨.budget, ascii "persistent KV manifest payload overflow"⟩
  let header ← need
    ⟨.invalidArgument, ascii "persistent KV manifest string field is too long"⟩
    (manifestHeader store.manifestVersion manifest)
  let header ← need ⟨.runtime, ascii "session manifest checksum computation failed"⟩
    (sealManifest sha256 env.digests header manifest.tokenIds manifest.recurrentState
      manifest.speculativeState)
  return header.image ++ le32s manifest.tokenIds ++ manifest.recurrentState ++
    manifest.speculativeState

/-- `save`: the file is written under a temporary name that must not exist, synced and renamed. -/
def save (disk : Disk) : Except Failure Unit × Disk :=
  match saveImage sha256 store env key paths manifest with
  | .error failure => (.error failure, disk)
  | .ok image =>
    let temporary := temporaryPath env paths.manifestPath
    if !env.create ∨ (disk temporary).isSome then
      (.error ⟨.io, ascii "cannot create temporary session manifest: " ++ env.strerror⟩, disk)
    else if env.write && env.sync && env.close && env.rename then
      let published := Function.update disk paths.manifestPath (some image)
      if env.directorySync then (.ok (), published)
      else (.error ⟨.io, ascii "cannot atomically publish session manifest: " ++ env.strerror⟩,
        published)
    else (.error ⟨.io, ascii "cannot atomically publish session manifest: " ++ env.strerror⟩,
      Function.update disk temporary env.leftover)

structure LoadEnv where
  stat : Bool
  opens : Bool
  readHeader : Bool
  fstat : Bool
  allocate : Bool
  readPayload : Bool
  digests : Bool
  strerror : Bytes

def LoadEnv.faultless : LoadEnv := ⟨true, true, true, true, true, true, true, []⟩

/-- `load` with `exists = false`, and with `exists = true`. -/
inductive Loaded where
  | missing (paths : Paths)
  | found (manifest : Manifest) (paths : Paths)
  deriving DecidableEq

def manifestContract (header : ManifestHeader) : Bool :=
  header.magic = kManifestMagic && (header.abi = 1 || header.abi = 2) &&
    header.headerBytes = 4096 && header.generation ≠ 0 &&
    header.committedTokens ≤ store.maxContext && header.tokenCount ≤ store.maxContext &&
    header.committedTokens ≤ header.tokenCount &&
    header.recurrentBytes.toUInt64 ≤ kMaxRecurrentBytes &&
    header.speculativeBytes.toUInt64 ≤ kMaxSpeculativeBytes &&
    (store.recurrentStateBytes = 0 || header.recurrentBytes.toUInt64 = store.recurrentStateBytes) &&
    (store.speculativeStateBytes = 0 ||
      header.speculativeBytes.toUInt64 = store.speculativeStateBytes)

structure Payload where
  tokenIds : List UInt32
  recurrent : Bytes
  speculative : Bytes

/-- The part of `load` that checks the sizes and reads the payload. -/
def loadPayload (env : LoadEnv) (header : ManifestHeader) (file : Bytes) :
    Except Failure Payload := do
  refuse (!manifestContract store header) ⟨.io, ascii "session manifest contract mismatch"⟩
  let expected := header.tokenCount.toUInt64 * 4
  refuse (0xffffffffffffffff - expected < header.recurrentBytes.toUInt64)
    ⟨.io, ascii "session manifest payload overflow"⟩
  let expected := expected + header.recurrentBytes.toUInt64
  refuse (0xffffffffffffffff - expected < header.speculativeBytes.toUInt64)
    ⟨.io, ascii "session manifest speculative payload overflow"⟩
  let expected := expected + header.speculativeBytes.toUInt64
  refuse (header.payloadBytes ≠ expected ∨
      store.maxContext.toUInt64 * 4 + kMaxRecurrentBytes + kMaxSpeculativeBytes <
        header.payloadBytes)
    ⟨.io, ascii "session manifest payload mismatch"⟩
  refuse (!env.fstat ∨ file.length ≠ (4096 + header.payloadBytes).toNat)
    ⟨.io, ascii "session manifest size mismatch"⟩
  refuse (!env.allocate) ⟨.budget, ascii "session manifest allocation failed"⟩
  let tokenBytes := header.tokenCount.toNat * 4
  let recurrentBytes := header.recurrentBytes.toNat
  let speculativeBytes := header.speculativeBytes.toNat
  refuse (!env.readPayload ∨ file.length < 4096 + tokenBytes + recurrentBytes + speculativeBytes)
    ⟨.io, ascii "truncated session manifest payload"⟩
  return {
    tokenIds := words32 header.tokenCount.toNat (slice 4096 tokenBytes file)
    recurrent := slice (4096 + tokenBytes) recurrentBytes file
    speculative := slice (4096 + tokenBytes + recurrentBytes) speculativeBytes file }

/-- The part of `load` that checks the seal and the texts. -/
def acceptManifest (env : LoadEnv) (key : Key) (header : ManifestHeader)
    (payload : Payload) : Except Failure (Manifest × Paths) := do
  let mismatch : Failure := ⟨.io, ascii "session manifest checksum mismatch"⟩
  let sealedHeader ← need mismatch
    (sealManifest sha256 env.digests header payload.tokenIds payload.recurrent payload.speculative)
  refuse (header.checksum ≠ ManifestHeader.checksum sealedHeader ∨
    header.abi = 2 ∧ header.digest ≠ ManifestHeader.digest sealedHeader) mismatch
  let unterminated : Failure := ⟨.io, ascii "session manifest string field is not terminated"⟩
  let namespaceIdText ← need unterminated (readText header.namespaceId)
  let sessionIdText ← need unterminated (readText header.sessionId)
  let namespaceTextValue ← need unterminated (readText header.namespaceText)
  let profileText ← need unterminated (readText header.profile)
  refuse (namespaceIdText ≠ namespaceId key ∨ sessionIdText ≠ key.sessionId ∨
      namespaceTextValue ≠ namespaceText key ∨ profileText ≠ key.profile ∨
      header.tokenHash ≠ tokenHash payload.tokenIds)
    ⟨.io, ascii "session manifest namespace or token checksum mismatch"⟩
  return ({
    generation := header.generation, committedTokens := header.committedTokens
    nextToken := header.nextToken, tokenHash := header.tokenHash
    sessionId := sessionIdText, namespaceId := namespaceIdText
    namespaceText := namespaceTextValue, profile := profileText
    tokenIds := payload.tokenIds, recurrentState := payload.recurrent
    speculativeState := payload.speculative }, store.pathsFor key header.generation)

/-- What `load` does with the bytes of the manifest file. -/
def loadImage (env : LoadEnv) (key : Key) (file : Bytes) : Except Failure (Manifest × Paths) :=
  if h : env.readHeader ∧ 0 + 4096 ≤ file.length then do
    let header : ManifestHeader := ⟨slice 0 4096 file, length_slice h.2⟩
    let payload ← loadPayload store env header file
    acceptManifest sha256 store env key header payload
  else .error ⟨.io, ascii "truncated session manifest header"⟩

def load (store : Store) (env : LoadEnv) (key : Key) (disk : Disk) : Except Failure Loaded := do
  refuse (!store.enabled || !validSessionId key.sessionId)
    ⟨.invalidArgument, ascii "invalid persistent KV session load arguments"⟩
  let paths := store.pathsFor key 1
  refuse (!env.stat) ⟨.io, ascii "cannot stat session manifest: " ++ env.strerror⟩
  match disk paths.manifestPath with
  | none => return .missing paths
  | some file =>
    refuse (!env.opens) ⟨.io, ascii "cannot open session manifest: " ++ env.strerror⟩
    let (manifest, paths) ← loadImage sha256 store env key file
    return .found manifest paths

end

end AxiomKernel.Qwen38.SessionStore
