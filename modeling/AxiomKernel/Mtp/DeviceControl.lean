import Mathlib.Data.Vector.Defs
import AxiomKernel.Device

/-!
# Device control kernels of the native MTP graph

The kernels of `src/axiom_qwen38_mtp_device_control.cu` that the captured decode graph runs:
building the verify input, stop-aware greedy acceptance (revision 2), selecting the next pending
hidden row and publishing the state (both commit aware). Each is a function from the device
buffers it reads to the buffers it writes. Token ids, positions and logits are 32-bit words; a
logit is its bit pattern. Counters that stay below nine are naturals.
-/
namespace AxiomKernel.Mtp
open Greedy
open List hiding Vector

def kInvalidToken : UInt32 := 0xffffffff
def kMaxStopTokens : Nat := 16

/-- The device stop-token buffer: a fixed array of sixteen ids and the count in use. -/
structure StopTokens where
  ids : Vector Token 16
  count : Nat
  deriving Repr

variable (stops : StopTokens)

def StopTokens.active : List Token := stops.ids.toList.take stops.count

def tokenIsStop (token : Token) : Bool := stops.active.contains token

variable (anchor : Token)

/-- All eight threads read the status word before any of them publishes: a bad id leaves a zero
row and reports; a failed status leaves only zero rows. -/
def buildVerifyInput (draft : Vector Token 7) (status : Status) : Vector Token 8 × Status :=
  let tokens := verifyTokens anchor draft
  if status ≠ .ok then (Vector.replicate 8 0, status)
  else
    (tokens.map fun token => if token ≥ kVocab then 0 else token,
      if tokens.toList.any (· ≥ kVocab) then publishStatus status .invalidArgument else status)

structure AcceptOutputs where
  acceptedPrefix : Nat
  targetCommitCount : Nat
  emittedTokenCount : Nat
  continuationToken : Token
  continuationLogit : UInt32
  emitted : List Token
  stopDetected : Bool
  matchedStopToken : Token
  nextAnchor : Token
  nextPosition : UInt32
  deriving DecidableEq, Repr

variable (position : UInt32)

def writeFailedAcceptOutputsV2 : AcceptOutputs where
  acceptedPrefix := 0
  targetCommitCount := 0
  emittedTokenCount := 0
  continuationToken := kInvalidToken
  continuationLogit := 0x7fffffff
  emitted := List.replicate 8 kInvalidToken
  stopDetected := false
  matchedStopToken := kInvalidToken
  nextAnchor := anchor
  nextPosition := position

/-- The verification loop over the eight target rows: the first bad row decides the code. -/
def targetRowsError : List Token → List UInt32 → Option Status
  | token :: tokens, logit :: logits =>
    if token ≥ kVocab then some .invalidArgument
    else if !isFinite logit then some .runtime
    else targetRowsError tokens logits
  | _, _ => none

/-- Write `accepted` draft tokens and the continuation after them, unless the position word
would overflow. -/
def writeAccepted (failed : AcceptOutputs) (position : UInt32) (draft : Vector Token 7)
    (logits : Vector UInt32 8) (accepted : Nat) (continuation : Token) (stop : Bool) :
    AcceptOutputs × Status :=
  let committed := UInt32.ofNat (accepted + 1)
  if position > kInvalidToken - committed then (failed, .budget)
  else
    ({ acceptedPrefix := accepted
       targetCommitCount := accepted + 1
       emittedTokenCount := accepted + 1
       continuationToken := continuation
       continuationLogit := logits.toList.getD accepted 0
       emitted := draft.toList.take accepted ++
         continuation :: List.replicate (7 - accepted) kInvalidToken
       stopDetected := stop
       matchedStopToken := if stop then continuation else failed.matchedStopToken
       nextAnchor := continuation
       nextPosition := position + committed }, .ok)

/-- How much of the draft is accepted and the token after it: the draft is matched against the
target rows, clamped to the commit limit, and cut at its first stop token, which then is the
continuation itself. -/
def acceptedCut (draft targetTop1 : List Token) (limit : Nat) : Nat × Token × Bool :=
  let accepted := min (matchLength draft targetTop1) (limit - 1)
  match (draft.take accepted).findIdx? (tokenIsStop stops) with
  | some index => (index, draft.getD index 0, true)
  | none =>
    let continuation := targetTop1.getD accepted 0
    (accepted, continuation, tokenIsStop stops continuation)

variable (draft : Vector Token 7)

variable (targetTop1 : Vector Token 8)

def acceptGreedyStopAware (logits : Vector UInt32 8)
    (limit : UInt32) (status : Status) : AcceptOutputs × Status :=
  let failed := writeFailedAcceptOutputsV2 anchor position
  if status ≠ .ok then (failed, status)
  else if limit = 0 ∨ limit > 8 ∨ anchor ≥ kVocab ∨ stops.count > kMaxStopTokens then
    (failed, .invalidArgument)
  else if stops.active.any (· ≥ kVocab) then (failed, .invalidArgument)
  else if draft.toList.any (· ≥ kVocab) then (failed, .invalidArgument)
  else
    match targetRowsError targetTop1.toList logits.toList with
    | some error => (failed, error)
    | none =>
      if tokenIsStop stops anchor then
        ({ failed with stopDetected := true, matchedStopToken := anchor }, .ok)
      else
        let (accepted, continuation, stop) :=
          acceptedCut stops draft.toList targetTop1.toList limit.toNat
        writeAccepted failed position draft logits accepted continuation stop

/-- Row `committed - 1` becomes the candidate pending hidden; a zero count keeps it. -/
def selectNextPendingCommitAware {H : Type*} (targetHidden : Vector H 8) (committed : Nat)
    (nextPending : H) (status : Status) : H × Status :=
  if status ≠ .ok then (nextPending, status)
  else if committed > 8 then (nextPending, publishStatus status .invalidArgument)
  else if committed ≠ 0 then (targetHidden.toList.getD (committed - 1) nextPending, status)
  else (nextPending, status)

structure Authoritative (H : Type*) where
  anchor : Token
  position : UInt32
  pending : H
  deriving DecidableEq, Repr

def publishStateCommitAware {H : Type*} (candidate : Authoritative H) (committed : Nat)
    (status : Status) (authoritative : Authoritative H) : Authoritative H × Status :=
  if status ≠ .ok then (authoritative, status)
  else if committed > 8 then (authoritative, publishStatus status .invalidArgument)
  else if committed ≠ 0 then (candidate, status)
  else (authoritative, status)

lemma buildVerifyInput_ok {anchor : Token} {draft : Vector Token 7} {st : Status}
    (h : (buildVerifyInput anchor draft st).2 = .ok) :
    st = .ok ∧ (buildVerifyInput anchor draft st).1.toList = anchor :: draft.toList := by
  unfold buildVerifyInput at h ⊢
  by_cases hs : st = .ok
  · subst hs
    simp only [ne_eq, not_true_eq_false, if_false, toList_verifyTokens] at h ⊢
    split at h
    · simp at h
    · rename_i hb
      refine ⟨trivial, ?_⟩
      rw [Vector.toList_map, toList_verifyTokens]
      have hi : ∀ token ∈ anchor :: draft.toList,
          (if token ≥ kVocab then 0 else token) = token := by
        intro token ht
        refine if_neg fun hg => hb ?_
        exact any_eq_true.2 ⟨token, ht, decide_eq_true hg⟩
      rw [map_congr_left hi, map_id']
  · simp [hs] at h

lemma writeAccepted_cases (f : AcceptOutputs) (position : UInt32) (draft : Vector Token 7)
    (ls : Vector UInt32 8) (accepted : Nat) (co : Token) (st : Bool)
    (ha : accepted ≤ 7) :
    (writeAccepted f position draft ls accepted co st = (f, .budget)) ∨
    (∃ out, writeAccepted f position draft ls accepted co st = (out, .ok) ∧
    out.targetCommitCount = accepted + 1 ∧ out.emittedTokenCount = accepted + 1 ∧
    out.emitted.take (accepted + 1) = draft.toList.take accepted ++ [co] ∧
    out.nextAnchor = co ∧
    out.nextPosition.toNat = position.toNat + (accepted + 1)) := by
  unfold writeAccepted
  by_cases ho : position > kInvalidToken - UInt32.ofNat (accepted + 1)
  · exact .inl (by simp only [if_pos ho])
  · right
    refine ⟨_, by simp only [if_neg ho]; rfl, rfl, rfl, ?_, rfl, ?_⟩
    · have hl : (draft.toList.take accepted).length = accepted := by simp; omega
      simp [take_append, hl]
    · have hc : (UInt32.ofNat (accepted + 1)).toNat = accepted + 1 := by
        simp; omega
      have hk : kInvalidToken.toNat = 4294967295 := rfl
      rw [gt_iff_lt, UInt32.lt_iff_toNat_lt,
        UInt32.toNat_sub_of_le _ _ (by rw [UInt32.le_iff_toNat_le, hc, hk]; omega), hc, hk] at ho
      show (position + UInt32.ofNat (accepted + 1)).toNat = _
      rw [UInt32.toNat_add, hc]
      omega

lemma acceptedCut_spec {draft targetTop1 : List Token} {limit : Nat}
    (hl : targetTop1.length = draft.length + 1) {accepted : Nat} {continuation : Token}
    {stop : Bool} (h : acceptedCut stops draft targetTop1 limit = (accepted, continuation, stop)) :
    accepted ≤ matchLength draft targetTop1 ∧ accepted ≤ limit - 1 ∧
    targetTop1[accepted]? = some continuation ∧
    ∀ token ∈ draft.take accepted, tokenIsStop stops token = false := by
  unfold acceptedCut at h
  have hm := matchLength_le_left draft targetTop1
  dsimp only at h
  split at h
  · rename_i index hidx
    obtain ⟨rfl, rfl, rfl⟩ := h
    obtain ⟨hlt, -, hp⟩ := findIdx?_eq_some_iff_getElem.1 hidx
    rw [length_take] at hlt
    have hma : accepted < matchLength draft targetTop1 := by omega
    refine ⟨hma.le, by omega, ?_, ?_⟩
    · rw [← getElem?_of_lt_matchLength hma, getD_eq_getElem?_getD,
        getElem?_eq_getElem (by omega), Option.getD_some]
    · intro token ht
      obtain ⟨j, hj, rfl⟩ := mem_iff_getElem.1 ht
      rw [length_take] at hj
      simpa using hp j (by omega)
  · rename_i hno
    obtain ⟨rfl, rfl, -⟩ := h
    refine ⟨by omega, by omega, ?_, findIdx?_eq_none_iff.1 hno⟩
    rw [getD_eq_getElem?_getD, getElem?_eq_getElem (by omega), Option.getD_some]

lemma targetRowsError_ne_ok {tokens : List Token} {logits : List UInt32} {error : Status}
    (h : targetRowsError tokens logits = some error) : error ≠ .ok := by
  induction tokens generalizing logits with
  | nil => simp [targetRowsError] at h
  | cons token tokens ih =>
    cases logits with
    | nil => simp [targetRowsError] at h
    | cons logit logits =>
      unfold targetRowsError at h
      split at h
      · cases h; decide
      · split at h
        · cases h; decide
        · exact ih h

/-- Everything an acceptance can do: report or keep an error, stop at the anchor, or accept a
matching part of the draft with the target row after it. -/
lemma acceptGreedyStopAware_cases (logits : Vector UInt32 8)
    (limit : UInt32) (status : Status) {out : AcceptOutputs} {status' : Status}
    (h : acceptGreedyStopAware stops anchor position draft targetTop1 logits limit status =
    (out, status')) : (status' ≠ .ok ∧ out.targetCommitCount = 0 ∧ out.emittedTokenCount = 0) ∨
    (status = .ok ∧ status' = .ok ∧ tokenIsStop stops anchor ∧
    out.targetCommitCount = 0 ∧ out.emittedTokenCount = 0) ∨
    (status = .ok ∧ status' = .ok ∧ tokenIsStop stops anchor = false ∧
    ∃ accepted continuation, accepted ≤ matchLength draft.toList targetTop1.toList ∧
    accepted + 1 ≤ limit.toNat ∧ limit.toNat ≤ 8 ∧
    targetTop1.toList[accepted]? = some continuation ∧
    (∀ token ∈ draft.toList.take accepted, tokenIsStop stops token = false) ∧
    out.targetCommitCount = accepted + 1 ∧ out.emittedTokenCount = accepted + 1 ∧
    out.emitted.take (accepted + 1) = draft.toList.take accepted ++ [continuation] ∧
    out.nextAnchor = continuation ∧
    out.nextPosition.toNat = position.toNat + (accepted + 1)) := by
  unfold acceptGreedyStopAware at h
  -- the failing checks all leave the failed outputs
  by_cases hs : status = .ok
  case neg =>
    simp only [ne_eq, hs, not_false_eq_true, if_true, Prod.mk.injEq] at h
    obtain ⟨rfl, rfl⟩ := h
    exact .inl ⟨hs, rfl, rfl⟩
  simp only [ne_eq, hs, not_true_eq_false, if_false] at h
  split at h
  · cases h
    exact .inl ⟨by decide, rfl, rfl⟩
  rename_i hlim
  split at h
  · cases h
    exact .inl ⟨by decide, rfl, rfl⟩
  split at h
  · cases h
    exact .inl ⟨by decide, rfl, rfl⟩
  split at h
  · rename_i error herr
    cases h
    exact .inl ⟨targetRowsError_ne_ok herr, rfl, rfl⟩
  split at h
  · rename_i hst
    cases h
    exact .inr (.inl ⟨hs, rfl, hst, rfl, rfl⟩)
  rename_i hanch
  have hanch : tokenIsStop stops anchor = false := by simpa using hanch
  have hpos : 1 ≤ limit.toNat := by
    have h0 : limit ≠ 0 := fun h0 => hlim (.inl h0)
    have : limit.toNat ≠ 0 := fun h => h0 (UInt32.toNat_inj.1 h)
    omega
  have hle : limit.toNat ≤ 8 := by
    have h8 : ¬ limit > 8 := fun h8 => hlim (.inr (.inl h8))
    simpa [UInt32.lt_iff_toNat_lt] using h8
  rcases hcut : acceptedCut stops draft.toList targetTop1.toList limit.toNat with
    ⟨accepted, continuation, stop⟩
  rw [hcut] at h
  obtain ⟨hma, hcla, hrow, hcl⟩ := acceptedCut_spec stops (by simp) hcut
  rcases writeAccepted_cases (writeFailedAcceptOutputsV2 anchor position) position draft logits
    accepted continuation stop (by omega) with hfa | ⟨out', hok, hsp⟩
  · rw [hfa] at h
    cases h
    exact .inl ⟨by decide, rfl, rfl⟩
  · rw [hok] at h
    cases h
    exact .inr (.inr ⟨hs, rfl, hanch, accepted, continuation, hma, by omega, hle, hrow, hcl, hsp⟩)

end AxiomKernel.Mtp
