import Mathlib
import AxiomKernel.Qwen4exp.Endpoint

/-! `text_session` over its decoder session: one-token decode, the staged speculative block and its
commit or rollback, the prompt, and reset. The 48 layers, the output head and the CUDA calls are
leaves: each takes the next answer of a script, so a run quantifies over every pattern of their
failures. What a token computes is a parameter. -/
namespace AxiomKernel.Qwen4exp

inductive ModelSessionStatus where
  | ok | invalidArgument | unsupportedConfig | sizeOverflow | allocationFailure
  | unsupportedDevice | invalidDevicePointer | streamMismatch | invalidState | capacityExceeded
  | transactionOpen | noTransaction | stageAlreadyComplete | layerError | rollbackError | resetError
  | poisoned | cudaError
  deriving DecidableEq, Repr

def mapSessionStatus : ModelSessionStatus → TextModelStatus
  | .ok => .ok
  | .invalidArgument => .invalidArgument
  | .unsupportedConfig | .unsupportedDevice => .unsupportedConfig
  | .allocationFailure => .allocationFailure
  | .capacityExceeded => .capacityExceeded
  | .rollbackError | .poisoned => .transactionError
  | .cudaError => .cudaError
  | .invalidDevicePointer | .streamMismatch | .invalidState | .transactionOpen | .noTransaction
  | .stageAlreadyComplete | .layerError | .resetError | .sizeOverflow => .sessionError

structure TextError where
  status : TextModelStatus
  detail : String
  failed : status ≠ .ok

def textModelStatusString : TextModelStatus → String
  | .ok => "ok"
  | .invalidArgument => "invalid_argument"
  | .unsupportedConfig => "unsupported_config"
  | .unsupportedDevice => "unsupported_device"
  | .admissionError => "admission_error"
  | .checkpointError => "checkpoint_error"
  | .allocationFailure => "allocation_failure"
  | .residencyError => "residency_error"
  | .decoderLayerError => "decoder_layer_error"
  | .outputHeadError => "output_head_error"
  | .ropeError => "rope_error"
  | .sessionError => "session_error"
  | .capacityExceeded => "capacity_exceeded"
  | .tokenRejected => "token_rejected"
  | .transactionError => "transaction_error"
  | .cudaError => "cuda_error"
  | .invalidState => "invalid_state"

def kRopeMaxContext : UInt32 := 262144
def kImageTokenId : Token := 248056
def kVideoTokenId : Token := 248057

structure MropePosition where
  t : UInt32
  h : UInt32
  w : UInt32
  deriving DecidableEq, Repr

def MropePosition.fill (position : UInt32) : MropePosition := ⟨position, position, position⟩

def MropePosition.inDomain (p : MropePosition) : Bool :=
  p.t < kRopeMaxContext && p.h < kRopeMaxContext && p.w < kRopeMaxContext

/-- What admission reports of a multimodal prompt, as far as the sessions read it. -/
structure MultimodalReport where
  visionTokens : Nat
  nextTextPosition : UInt32 := 0
  nextTextPositionAvailable : Bool := false
  deriving DecidableEq, Repr

/-- A multimodal prompt with the answer of `validate_multimodal_text_prompt`, whose status is mapped
and whose text reads `multimodal prompt rejected: ...`. -/
structure MultimodalPrompt where
  tokens : List (Token × MropePosition)
  admission : Except TextError MultimodalReport

/-- What the resident model computes for a token after a history: the argmax, or a sample. The
first argument numbers the computation, so that two of them may differ. -/
structure ModelFunction where
  argmax : Nat → List Token → Token × UInt32
  sample : Nat → OutputHeadSamplingConfig → List Token → Token × UInt32

variable (m : ModelFunction) (generation : TextGenerationConfig)

def ModelFunction.select (tick : Nat) (history : List Token) : Token × UInt32 :=
  match generation.mode with
  | .argmax => m.argmax tick history
  | .sample => m.sample tick generation.sampling history

def kModelSessionLayerCount : Nat := 48
def kDecoderMaxSpeculativeTokens : Nat := 4

variable (token : Token)

def isVisualToken : Bool := token == kImageTokenId || token == kVideoTokenId

/-- `model_session_state` with its layers left out. -/
structure DecoderSession where
  contextCapacity : Nat
  committed : List Token := []
  staged : List Token := []
  stagedLayers : Nat := 0
  transactionOpen : Bool := false
  poisoned : Bool := false
  /-- The resets that succeeded so far. -/
  resets : Nat := 0

/-- `transaction_open = false; staged_tokens = 0; staged_layers = 0;`. -/
def DecoderSession.close (d : DecoderSession) : DecoderSession :=
  { d with transactionOpen := false, staged := [], stagedLayers := 0 }

structure TextSession where
  decoder : DecoderSession
  multimodalMropeActive : Bool := false
  nextMropeTextPosition : UInt32 := 0
  nextMropeTextPositionAvailable : Bool := false
  speculativePrefillActive : Bool := false
  ropeTableTextPristine : Bool := true
  stagedSpeculativeTokens : Nat := 0
  /-- The computations made so far. -/
  tick : Nat := 0
  /-- The answers of the leaf operations to come: `none` is success, and so is every answer after
  the last one. -/
  script : List (Option TextError) := []

abbrev TextM := ExceptT TextError (StateM TextSession)

namespace TextSession

def fail {α : Type} (status : TextModelStatus) (detail : String)
    (h : status ≠ .ok := by decide) : TextM α :=
  throw ⟨status, detail, h⟩

/-- A failure of the decoder session, as `text_session` reports it. -/
def sessionFail {α : Type} (status : ModelSessionStatus) (detail : String)
    (h : mapSessionStatus status ≠ .ok := by decide) : TextM α :=
  throw ⟨mapSessionStatus status, detail, h⟩

def leaf : TextM Unit := do
  let s ← get
  match s.script with
  | [] => pure ()
  | none :: script => set { s with script := script }
  | some e :: script =>
    set { s with script := script }
    throw e

def modifyDecoder (f : DecoderSession → DecoderSession) : TextM Unit :=
  modify fun s => { s with decoder := f s.decoder }

/-! The decoder session (`model_session_state`), with its layers as leaves. -/

def begin_ : TextM Unit := do
  let d := (← get).decoder
  if d.poisoned then
    sessionFail .poisoned "model session is poisoned and requires reset"
  else if d.transactionOpen then
    sessionFail .transactionOpen "model session transaction is already open"
  else
    leaf -- validate
    if d.contextCapacity ≤ d.committed.length then
      sessionFail .capacityExceeded "model session reached its physical context capacity"
    else
      modifyDecoder fun d => { d with transactionOpen := true, staged := [], stagedLayers := 0 }

/-- `rollback_open_layers`, then the session's flags; a failure poisons the session. -/
def rollbackOpenLayers : TextM Unit := do
  tryCatch leaf fun e => do
    modifyDecoder fun d => { d.close with poisoned := true }
    sessionFail .rollbackError e.detail
  modifyDecoder fun d => d.close

variable (tokens : List Token)

def stageAllSequence : TextM Unit := do
  let d := (← get).decoder
  if d.poisoned then
    sessionFail .poisoned "model session is poisoned and requires reset"
  else if !d.transactionOpen then
    sessionFail .noTransaction "stage_all requires begin()"
  else if tokens.length = 0 ∨ kDecoderMaxSpeculativeTokens < tokens.length then
    sessionFail .invalidArgument "invalid contiguous model sequence"
  else if d.stagedLayers ≠ 0 ∨ d.staged ≠ [] then
    sessionFail .stageAlreadyComplete "one token is already staged in this model transaction"
  else if d.contextCapacity < d.committed.length + tokens.length then
    sessionFail .capacityExceeded "RoPE position or committed context exceeds capacity"
  else
    leaf -- the device pointers
    -- the layers roll back what they opened when one of them fails
    tryCatch leaf fun e => do
      rollbackOpenLayers
      sessionFail .layerError e.detail
    modifyDecoder fun d => { d with staged := tokens, stagedLayers := kModelSessionLayerCount }
    leaf -- validate

/-- The closing `validate` of a published commit always passes, since publication leaves the layers
in agreement with the session. -/
def commitAll : TextM Unit := do
  let d := (← get).decoder
  if !d.transactionOpen then
    sessionFail .noTransaction "commit_all requires an open model transaction"
  else if d.staged.length = 0 ∨ kDecoderMaxSpeculativeTokens < d.staged.length ∨
      d.stagedLayers ≠ kModelSessionLayerCount then
    sessionFail .invalidState "commit_all requires one bounded sequence through all 48 layers"
  else
    leaf -- validate
    tryCatch leaf fun e => do -- prepare_commit
      rollbackOpenLayers
      sessionFail .layerError e.detail
    tryCatch leaf fun _ => do -- commit_prepared_noexcept
      modifyDecoder fun d => { d.close with committed := [], poisoned := true }
      sessionFail .poisoned
        "prepared decoder publication invariant failed; session was reset and poisoned"
    modifyDecoder fun d => { d.close with committed := d.committed ++ d.staged }

def rollbackAll : TextM Unit := do
  let d := (← get).decoder
  if !d.transactionOpen then
    sessionFail .noTransaction "rollback_all requires an open model transaction"
  else
    rollbackOpenLayers
    leaf -- validate

/-- As for a commit, the closing `validate` passes once every layer was reset. -/
def resetDecoder : TextM Unit := do
  tryCatch leaf fun e => do
    modifyDecoder fun d => { d.close with committed := [], poisoned := true }
    sessionFail .resetError e.detail
  modifyDecoder fun d => { d.close with committed := [], poisoned := false, resets := d.resets + 1 }

def generationValid : Bool :=
  match generation.mode with
  | .argmax => true
  -- a finite temperature in (0, 100], read off the bit pattern
  | .sample => 0 < generation.sampling.temperature && generation.sampling.temperature ≤ 0x42c80000

def abortTransaction {α : Type} (cause : TextError) : TextM α := do
  let s ← get
  if s.decoder.transactionOpen then
    tryCatch rollbackAll fun e =>
      fail .transactionError (cause.detail ++ "; global rollback failed: " ++ e.detail)
  throw cause

/-- A leaf operation inside an open decoder transaction, which its failure aborts. -/
def leafOrAbort : TextM Unit := tryCatch leaf fun e => abortTransaction e

def restoreTextRopeTable : TextM Unit := do
  leaf
  modify fun s => { s with ropeTableTextPristine := true }

def installMropeRow (position : MropePosition) : TextM Unit := do
  let s ← get
  if s.decoder.contextCapacity ≤ s.decoder.committed.length then
    fail .invalidArgument "invalid MRoPE row installation request"
  else if !position.inDomain then
    fail .ropeError "MRoPE position exceeds the native 262K domain"
  else
    leaf
    modify fun s => { s with ropeTableTextPristine := false }

variable (mropePosition : Option MropePosition)

def runToken
    (produceOutput : Bool) (generation : TextGenerationConfig) : TextM TextTokenResult := do
  let before ← get
  if produceOutput && !generationValid generation then
    fail .invalidArgument "output token destination or generation config is invalid"
  else if before.decoder.poisoned then
    fail .invalidState "decoder session is not usable"
  else if before.decoder.contextCapacity ≤ before.decoder.committed.length then
    fail .capacityExceeded "text session reached its bounded context capacity"
  else
    match mropePosition with
    | none => pure ()
    | some position => installMropeRow position
    begin_
    leafOrAbort -- the token upload
    leafOrAbort -- the embedding
    tryCatch (stageAllSequence [token]) fun e => abortTransaction e
    if produceOutput then leafOrAbort -- the output tail
    leafOrAbort -- the device status
    if produceOutput then leafOrAbort -- the selected token
    tryCatch commitAll fun e => abortTransaction e
    let s ← get
    set { s with tick := s.tick + 1 }
    if produceOutput then
      let (tokenId, logit) := m.select generation s.tick s.decoder.committed
      pure { tokenId := tokenId, selectedLogit := logit
             committedContext := UInt64.ofNat s.decoder.committed.length
             sampled := generation.mode == .sample }
    else pure {}

def decode (m : ModelFunction) (input : Token) (generation : TextGenerationConfig) :
    TextM TextTokenResult := do
  let s ← get
  if !generationValid generation then
    fail .invalidArgument "invalid one-token decode request"
  else if s.decoder.committed.length = 0 ∨ s.decoder.transactionOpen = true then
    fail .invalidState "decode requires a committed prompt and no open transaction"
  else if s.multimodalMropeActive && !s.nextMropeTextPositionAvailable then
    fail .capacityExceeded "multimodal MRoPE reached the native 262K domain"
  else
    let position := if s.multimodalMropeActive then some (.fill s.nextMropeTextPosition) else none
    let result ← runToken m input position true generation
    if s.multimodalMropeActive then
      if s.nextMropeTextPosition + 1 < kRopeMaxContext then
        modify fun s => { s with nextMropeTextPosition := s.nextMropeTextPosition + 1 }
      else
        modify fun s => { s with nextMropeTextPositionAvailable := false }
    pure result

/-- The rows of a staged block: what the model selects after each of its tokens. -/
def blockRows (tick : Nat) (history tokens : List Token) : List TextTokenResult :=
  tokens.inits.tail.map fun block =>
    let (tokenId, logit) := m.argmax tick (history ++ block)
    { tokenId := tokenId, selectedLogit := logit
      committedContext := UInt64.ofNat (history.length + block.length) }

def stageDecodeSequenceForSpeculation : TextM (List TextTokenResult) := do
  let before ← get
  if tokens.length < 2 ∨ kDecoderMaxSpeculativeTokens < tokens.length ∨
      before.multimodalMropeActive = true ∨ before.stagedSpeculativeTokens ≠ 0 then
    fail .invalidArgument "invalid text-only speculative block request"
  else if before.decoder.poisoned = true ∨ before.decoder.transactionOpen = true ∨
      before.decoder.committed.length = 0 ∨
      before.decoder.contextCapacity < before.decoder.committed.length + tokens.length then
    fail .invalidState "speculative block requires bounded committed target state"
  else if tokens.any (kVocab ≤ ·) then
    fail .tokenRejected "speculative block contains an invalid token id"
  else
    begin_
    leafOrAbort -- the token upload
    leafOrAbort -- the embeddings
    tryCatch (stageAllSequence tokens) fun e => abortTransaction e
    leafOrAbort -- the output tail
    leafOrAbort -- the selected tokens
    let s ← get
    set { s with tick := s.tick + 1, stagedSpeculativeTokens := tokens.length }
    pure (blockRows m s.tick s.decoder.committed tokens)

def commitStagedSpeculativeSequence : TextM Unit := do
  let s ← get
  if s.stagedSpeculativeTokens = 0 ∨ s.decoder.transactionOpen = false then
    fail .invalidState "no speculative target block is staged"
  else
    tryCatch commitAll fun e => do
      modify fun s => { s with stagedSpeculativeTokens := 0 }
      throw e
    modify fun s => { s with stagedSpeculativeTokens := 0 }

def rollbackStagedSpeculativeSequence : TextM Unit := do
  let s ← get
  if s.stagedSpeculativeTokens = 0 ∨ s.decoder.transactionOpen = false then
    fail .invalidState "no speculative target block is staged"
  else
    tryCatch rollbackAll fun e => do
      modify fun s => { s with stagedSpeculativeTokens := 0 }
      throw e
    modify fun s => { s with stagedSpeculativeTokens := 0 }

def prefillTokenForSpeculation (final : Bool) (generation : TextGenerationConfig) :
    TextM TextTokenResult := do
  let before ← get
  if !generationValid generation then
    fail .invalidArgument "invalid speculative prefill token request"
  else if before.decoder.transactionOpen = true ∨
      before.decoder.contextCapacity ≤ before.decoder.committed.length then
    fail .invalidState "speculative prefill requires bounded committed state"
  else if before.decoder.committed.length = 0 then
    if before.speculativePrefillActive then
      fail .invalidState "speculative prefill is already active"
    else
      if mropePosition.isNone && !before.ropeTableTextPristine then restoreTextRopeTable
      modify fun s => { s with
        multimodalMropeActive := false, nextMropeTextPosition := 0
        nextMropeTextPositionAvailable := false, speculativePrefillActive := true }
  else if !before.speculativePrefillActive then
    fail .invalidState "speculative prefill continuation was not opened"
  let produced ← runToken m token mropePosition final generation
  if final then
    modify fun s => { s with speculativePrefillActive := false }
  pure produced

def finishSpeculativeMultimodalPrefill (nextTextPosition : UInt32)
    (nextTextPositionAvailable : Bool) : TextM Unit := do
  let s ← get
  if s.speculativePrefillActive = true ∨
      (nextTextPositionAvailable = true ∧ kRopeMaxContext ≤ nextTextPosition) then
    fail .invalidState "cannot finalize speculative multimodal continuation"
  else
    set { s with
      multimodalMropeActive := true, nextMropeTextPosition := nextTextPosition
      nextMropeTextPositionAvailable := nextTextPositionAvailable }

def prefillTokens (m : ModelFunction) (generation : TextGenerationConfig) :
    List (Token × Option MropePosition) → TextM TextTokenResult
  | [] => pure {}
  | [(token, position)] => runToken m token position true generation
  | (token, position) :: tokens => do
      let _ ← runToken m token position false generation
      prefillTokens m generation tokens

def textRows : List (Token × Option MropePosition) := tokens.map (·, none)

def mropeRows (tokens : List (Token × MropePosition)) : List (Token × Option MropePosition) :=
  tokens.map fun row => (row.1, some row.2)

/-- `multimodal_mrope_active = false` with its two companions. -/
def clearMrope : TextM Unit := modify fun s => { s with
    multimodalMropeActive := false, nextMropeTextPosition := 0
    nextMropeTextPositionAvailable := false }

def prefill (m : ModelFunction) (tokens : List Token) (generation : TextGenerationConfig) :
    TextM TextTokenResult := do
  let initial ← get
  if tokens.length = 0 ∨ generationValid generation = false then
    fail .invalidArgument "invalid text prefill request"
  else if initial.decoder.committed.length ≠ 0 ∨ initial.decoder.transactionOpen = true then
    fail .invalidState "prefill requires a fresh or reset text session"
  else if initial.decoder.contextCapacity < tokens.length then
    fail .capacityExceeded "prompt exceeds the bounded text session capacity"
  else
    if !initial.ropeTableTextPristine then restoreTextRopeTable
    clearMrope
    tryCatch (prefillTokens m generation (textRows tokens)) fun e => do
      tryCatch resetDecoder fun r =>
        fail .transactionError ("prefill failed and session reset failed: " ++ r.detail)
      throw e

def prefillMultimodal (prompt : MultimodalPrompt)
    (generation : TextGenerationConfig) : TextM TextTokenResult := do
  let initial ← get
  if generationValid generation = false then
    fail .invalidArgument "invalid multimodal prefill request"
  else if initial.decoder.committed.length ≠ 0 ∨ initial.decoder.transactionOpen = true then
    fail .invalidState "multimodal prefill requires a fresh or reset session"
  else if initial.decoder.contextCapacity < prompt.tokens.length then
    fail .capacityExceeded "multimodal prompt exceeds the bounded session capacity"
  else
    match prompt.admission with
    | .error e => throw e
    | .ok report =>
      let result ← tryCatch (prefillTokens m generation (mropeRows prompt.tokens)) fun e => do
          tryCatch resetDecoder fun r => do
            clearMrope
            fail .transactionError ("multimodal prefill failed and reset failed: " ++ r.detail)
          clearMrope
          throw e
      if prompt.tokens.countP (isVisualToken ·.1) ≠ report.visionTokens then
        tryCatch resetDecoder fun _ => pure ()
        clearMrope
        fail .invalidState "multimodal visual row accounting diverged after admission"
      else
        modify fun s => { s with
          multimodalMropeActive := true, nextMropeTextPosition := report.nextTextPosition
          nextMropeTextPositionAvailable := report.nextTextPositionAvailable }
        pure result

/-- The device views handed to the draft; only the visible length differs between calls. -/
structure MtpInputsView where
  inputEmbedding : DevicePointer := 1
  targetHidden : DevicePointer := 2
  fullCos : DevicePointer := 3
  fullSin : DevicePointer := 4
  positionCount : Nat

def prepareMtpInputs (nextInputToken : Token) (mropePosition : Option MropePosition) :
    TextM MtpInputsView := do
  let s ← get
  if kVocab ≤ nextInputToken then
    fail .invalidArgument "invalid target-to-MTP handoff request"
  else if s.decoder.poisoned = true ∨ s.decoder.transactionOpen = true ∨
      s.decoder.committed.length = 0 ∨
      s.decoder.contextCapacity ≤ s.decoder.committed.length then
    fail .invalidState
      "target-to-MTP handoff requires committed target state and one free context position"
  else
    match mropePosition with
    | none => pure ()
    | some position => installMropeRow position
    leaf
    pure { positionCount := s.decoder.committed.length }

def reset : TextM Unit := do
  resetDecoder
  clearMrope
  modify fun s => { s with speculativePrefillActive := false, stagedSpeculativeTokens := 0 }

end TextSession

end AxiomKernel.Qwen4exp
