import AxiomKernel.Lib.Hoare
import AxiomKernel.Qwen4exp.Endpoint

/-! `mtp_session`: one staged draft row over an attention cache, its commit, rollback and
truncation. The graph launches, copies and cache metadata faults are leaves that answer from a
script, and the predictions are arbitrary. -/
namespace AxiomKernel.Qwen4exp

def mtpStatusString : MtpStatus → String
  | .ok => "ok"
  | .invalidArgument => "invalid_argument"
  | .unsupportedConfig => "unsupported_config"
  | .unsupportedDevice => "unsupported_device"
  | .tensorNotFound => "tensor_not_found"
  | .tensorContractMismatch => "tensor_contract_mismatch"
  | .checkpointIoError => "checkpoint_io_error"
  | .allocationFailure => "allocation_failure"
  | .invalidDevicePointer => "invalid_device_pointer"
  | .invalidState => "invalid_state"
  | .capacityExceeded => "capacity_exceeded"
  | .linearError => "linear_error"
  | .qsaError => "qsa_error"
  | .attentionError => "attention_error"
  | .routerError => "router_error"
  | .expertPagingError => "expert_paging_error"
  | .expertComputeError => "expert_compute_error"
  | .nonFinite => "non_finite"
  | .cudaError => "cuda_error"

structure MtpError where
  status : MtpStatus
  detail : String
  failed : status ≠ .ok

structure AttentionCache where
  capacityTokens : Nat
  committedTokens : Nat := 0
  stagedTokens : Nat := 0
  transactionOpen : Bool := false

structure MtpSession where
  capacity : Nat
  committed : Nat := 0
  transactionOpen : Bool := false
  staged : Bool := false
  poisoned : Bool := false
  attentionCache : AttentionCache
  /-- The prediction of each staged row, in order. -/
  predictions : Nat → MtpPrediction
  tick : Nat := 0
  script : List (Option MtpError) := []

abbrev MtpM := ExceptT MtpError (StateM MtpSession)

namespace MtpSession

def fail {α : Type} (status : MtpStatus) (detail : String) (h : status ≠ .ok := by decide) :
    MtpM α :=
  throw ⟨status, detail, h⟩

def leaf : MtpM Unit := do
  let s ← get
  match s.script with
  | [] => pure ()
  | none :: script => set { s with script := script }
  | some e :: script =>
    set { s with script := script }
    throw e

def beginTransaction : MtpM Unit := do
  let s ← get
  leaf
  if s.attentionCache.transactionOpen then
    fail .invalidState "failed to begin MTP attention transaction"
  else
    modify fun s => { s with
      attentionCache := { s.attentionCache with stagedTokens := 0, transactionOpen := true } }

def commitPrefix (acceptedTokens : Nat) : MtpM Unit := do
  let s ← get
  leaf
  if s.attentionCache.transactionOpen = false then
    fail .invalidState "MTP attention commit failed"
  else if s.attentionCache.stagedTokens < acceptedTokens then
    fail .invalidArgument "MTP attention commit failed"
  else if s.attentionCache.capacityTokens < s.attentionCache.committedTokens + acceptedTokens then
    fail .attentionError "MTP attention commit failed"
  else
    modify fun s => { s with
      attentionCache := { s.attentionCache with
        committedTokens := s.attentionCache.committedTokens + acceptedTokens
        stagedTokens := 0, transactionOpen := false } }

def rollbackCache : MtpM Unit := do
  let s ← get
  leaf
  if s.attentionCache.transactionOpen = false then
    fail .invalidState "MTP attention rollback failed"
  else
    modify fun s => { s with
      attentionCache := { s.attentionCache with stagedTokens := 0, transactionOpen := false } }

/-- `abort_transaction`: a failed cache rollback poisons the session. -/
def abortTransaction {α : Type} (original : MtpError) : MtpM α := do
  let s ← get
  if s.attentionCache.transactionOpen then
    tryCatch rollbackCache fun _ => do
      modify fun s => { s with poisoned := true, transactionOpen := false, staged := false }
      fail .invalidState (original.detail ++ "; attention rollback failed")
  modify fun s => { s with transactionOpen := false, staged := false }
  throw original

def stageToken (inputs : SpeculativeDraftInputs) : MtpM MtpPrediction := do
  let s ← get
  if inputs.inputEmbedding = 0 ∨ inputs.targetHidden = 0 ∨ inputs.fullCos = 0 ∨
      inputs.fullSin = 0 ∨ inputs.outputHidden = 0 then
    fail .invalidArgument "invalid stage_token arguments"
  else if s.poisoned = true ∨ s.transactionOpen = true ∨ s.staged = true then
    fail .invalidState "session is poisoned or already has an open transaction"
  else if s.capacity ≤ s.committed ∨ inputs.positionCount ≤ s.committed ∨
      s.capacity < inputs.positionCount then
    fail .capacityExceeded "MTP position exceeds session cache capacity"
  else
    leaf -- the device, the pointer ranges and the status words
    beginTransaction
    modify fun s => { s with transactionOpen := true }
    -- the launches up to the cache staging, then those after it
    tryCatch leaf fun e => abortTransaction e
    modify fun s => { s with attentionCache := { s.attentionCache with stagedTokens := 1 } }
    tryCatch leaf fun e => abortTransaction e
    modify fun s => { s with staged := true, tick := s.tick + 1 }
    pure (s.predictions s.tick)

def commit : MtpM Unit := do
  let s ← get
  if s.poisoned = true ∨ s.transactionOpen = false ∨ s.staged = false then
    fail .invalidState "no prepared MTP transaction to commit"
  else
    tryCatch (commitPrefix 1) fun e => do
      modify fun s => { s with poisoned := true }
      throw e
    modify fun s => { s with
      committed := s.committed + 1, transactionOpen := false, staged := false }

def rollback : MtpM Unit := do
  let s ← get
  if s.poisoned = true ∨ s.transactionOpen = false then
    fail .invalidState "no MTP transaction to roll back"
  else
    tryCatch (do leaf; rollbackCache) fun e => do
      modify fun s => { s with poisoned := true }
      throw e
    modify fun s => { s with transactionOpen := false, staged := false }

def truncateCommitted (committedTokens : Nat) : MtpM Unit := do
  let s ← get
  if s.poisoned = true ∨ s.transactionOpen = true ∨ s.staged = true ∨
      s.committed < committedTokens then
    fail .invalidState "invalid MTP committed-tail truncation"
  else
    tryCatch leaf fun _ => do
      modify fun s => { s with poisoned := true }
      fail .cudaError "MTP truncation stream failed"
    if s.attentionCache.transactionOpen = true ∨ s.attentionCache.stagedTokens ≠ 0 ∨
        s.attentionCache.committedTokens ≠ s.committed then
      modify fun s => { s with poisoned := true }
      fail .invalidState "MTP cache metadata diverged before truncation"
    else
      modify fun s => { s with
        attentionCache := { s.attentionCache with committedTokens := committedTokens }
        committed := committedTokens }

def reset : MtpM Unit := do
  let s ← get
  tryCatch leaf fun _ => do
    modify fun s => { s with poisoned := true }
    fail .cudaError "MTP reset stream failed"
  if s.attentionCache.transactionOpen then
    tryCatch rollbackCache fun _ => do
      modify fun s => { s with poisoned := true }
      fail .invalidState "MTP reset rollback failed"
  tryCatch leaf fun _ => do
    modify fun s => { s with poisoned := true }
    fail .invalidState "MTP attention cache reset failed"
  modify fun s => { s with
    attentionCache := { s.attentionCache with
      committedTokens := 0, stagedTokens := 0, transactionOpen := false }
    committed := 0, transactionOpen := false, staged := false, poisoned := false }

/-! A stage leaves the committed rows as they are. -/

section

open Std.Do Hoare

set_option mvcgen.warning false

section
variable (d : MtpSession)

@[spec]
lemma leaf_spec : Runs leaf d
    (fun _ s => s.committed = d.committed ∧ s.transactionOpen = d.transactionOpen)
    fun _ s => s.committed = d.committed := by
  mvcgen [leaf]
  all_goals grind -ring -linarith

@[spec]
lemma beginTransaction_spec : Runs beginTransaction d (fun _ s => s.committed = d.committed)
    fun _ s => s.committed = d.committed := by
  mvcgen [beginTransaction, fail]
  all_goals grind -ring -linarith

@[spec]
lemma rollbackCache_spec : Runs rollbackCache d (fun _ s => s.committed = d.committed)
    fun _ s => s.committed = d.committed := by
  mvcgen [rollbackCache, fail]
  all_goals grind -ring -linarith

@[spec]
lemma abortTransaction_spec {α : Type} (original : MtpError) :
    Runs (abortTransaction original : MtpM α) d
    (fun _ _ => False)
    fun _ s => s.committed = d.committed := by
  mvcgen [abortTransaction, fail]
  all_goals grind -ring -linarith

lemma stageToken_spec (inputs : SpeculativeDraftInputs) : Runs (stageToken inputs) d
    (fun _ s => s.committed = d.committed ∧ s.transactionOpen)
    fun _ s => s.committed = d.committed := by
  mvcgen [stageToken, fail]
  all_goals grind -ring -linarith

end

end

end MtpSession

end AxiomKernel.Qwen4exp
