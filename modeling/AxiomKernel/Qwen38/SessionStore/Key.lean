import AxiomKernel.Lib.Checksum
import AxiomKernel.Lib.Text

/-!
The identity of a persistent session: its key, the namespace text and id made from the key, and
the paths of its manifest, tier and journal. Strings are strings of bytes, as in the source.
-/
namespace AxiomKernel.Qwen38.SessionStore

open Image Checksum Text

structure Key where
  sessionId : Bytes
  modelId : Bytes
  targetIdentity : Bytes
  dsparkIdentity : Bytes
  configSignature : Bytes
  profile : Bytes
  deriving DecidableEq

structure Paths where
  namespaceId : Bytes
  namespaceDir : Bytes
  sessionStem : Bytes
  manifestPath : Bytes
  tierPath : Bytes
  transactionPath : Bytes
  generation : UInt64
  deriving DecidableEq

def fnvUpdate (hash : UInt64) (data : Bytes) : UInt64 := data.foldl fnvStep hash

def hex64 (value : UInt64) : Bytes := hex 16 value.toNat

def hash128 (text : Bytes) : Bytes :=
  let first := fnvUpdate fnvOffset text
  let second := fnvUpdate (fnvPrime ^^^ 0x9e3779b97f4a7c15) text
  hex64 first ++ hex64 (fnvUpdate second (le64 first))

def kSessionIdBytes : Nat := 128

def validSessionId (sessionId : Bytes) : Bool :=
  if sessionId = [] ∨ kSessionIdBytes - 1 < sessionId.length then false
  else
    -- no control character, slash or backslash
    sessionId.all fun character =>
      !(character < 0x20 || character = 0x7f || character = 0x2f || character = 0x5c)

variable (key : Key)

def Key.fields : List Bytes :=
  [key.modelId, key.targetIdentity, key.dsparkIdentity, key.configSignature, key.profile,
    key.sessionId]

def namespaceText : Bytes := key.fields.flatMap netstring

def namespaceId : Bytes := hash128 (namespaceText key)

def tokenHash (tokens : List UInt32) : UInt64 :=
  if tokens = [] then fnvOffset else fnvUpdate fnvOffset (le32s tokens)

def pathsFor (rootPath : Bytes) (key : Key) (generation : UInt64) : Paths :=
  let id := namespaceId key
  let namespaceDir := rootPath ++ ascii "/" ++ id
  let sessionStem := hash128 key.sessionId
  let tierPath := namespaceDir ++ ascii "/" ++ sessionStem ++ ascii ".g" ++
    decimal generation.toNat ++ ascii ".kv"
  { namespaceId := id
    namespaceDir := namespaceDir
    sessionStem := sessionStem
    manifestPath := namespaceDir ++ ascii "/" ++ sessionStem ++ ascii ".manifest"
    tierPath := tierPath
    transactionPath := tierPath ++ ascii ".txn"
    generation := generation }

lemma fields_injective {key key' : Key} (h : key.fields = key'.fields) : key = key' := by
  cases key
  cases key'
  simp only [Key.fields, List.cons.injEq, and_true] at h
  obtain ⟨rfl, rfl, rfl, rfl, rfl, rfl⟩ := h
  rfl

lemma namespaceText_append_injective {key key' : Key} {xs ys : Bytes}
    (h : namespaceText key ++ xs = namespaceText key' ++ ys) : key = key' := by
  have hl : key.fields.length = key'.fields.length := rfl
  exact fields_injective (flatMap_netstring_append_injective hl h).1

lemma isLowerHex_of_mem_hash128 {te : Bytes} {b : UInt8} (h : b ∈ hash128 te) :
    isLowerHex b = true := by
  rw [hash128, List.mem_append] at h
  exact h.elim isLowerHex_of_mem_hex isLowerHex_of_mem_hex

lemma detects_fnvUpdate (se : UInt64) : Detects (fnvUpdate se) := detects_fnv se

lemma fnvUpdate_append (ha : UInt64) (xs ys : Bytes) :
    fnvUpdate (fnvUpdate ha xs) ys = fnvUpdate ha (xs ++ ys) :=
  List.foldl_append.symm

end AxiomKernel.Qwen38.SessionStore
