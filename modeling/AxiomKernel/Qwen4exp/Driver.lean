import AxiomKernel.Qwen4exp.Endpoint

/-! `speculative_transaction_driver`: the draft transaction policy over two arbitrary endpoints.
A call answers its status, the text it writes to `*error` (none when it writes nothing) and its
output; a caller may pass a null output pointer, and then the call is refused. -/
namespace AxiomKernel.Qwen4exp

structure SpeculativeProposal where
  prediction : MtpPrediction := {}
  staged : Bool := false
  deriving DecidableEq, Repr

structure SpeculativeStepResult where
  authoritative : TextTokenResult := {}
  proposal : SpeculativeProposal := {}
  path : SpeculativePath := .targetOnly
  draftWasAvailable : Bool := false
  accepted : Bool := false
  diagnostic : String := ""
  deriving DecidableEq, Repr

structure SpeculativeMetrics where
  targetAttempts : UInt64 := 0
  targetTokens : UInt64 := 0
  draftedTokens : UInt64 := 0
  acceptedTokens : UInt64 := 0
  rejectedTokens : UInt64 := 0
  targetOnlyTokens : UInt64 := 0
  primedContextTokens : UInt64 := 0
  draftStageFailures : UInt64 := 0
  draftCommitFailures : UInt64 := 0
  rollbackAttempts : UInt64 := 0
  rollbackFailures : UInt64 := 0
  disconnectRollbacks : UInt64 := 0
  resets : UInt64 := 0
  blockCycles : UInt64 := 0
  blockVerifiedRows : UInt64 := 0
  blockEmittedTokens : UInt64 := 0
  deriving DecidableEq, Repr

namespace SpeculativeMetrics

variable (m : SpeculativeMetrics)

def addTargetAttempt : SpeculativeMetrics := { m with targetAttempts := m.targetAttempts + 1 }
def addTargetToken : SpeculativeMetrics := { m with targetTokens := m.targetTokens + 1 }
def addDraftedToken : SpeculativeMetrics := { m with draftedTokens := m.draftedTokens + 1 }
def addAcceptedToken : SpeculativeMetrics := { m with acceptedTokens := m.acceptedTokens + 1 }
def addRejectedToken : SpeculativeMetrics := { m with rejectedTokens := m.rejectedTokens + 1 }
def addTargetOnlyToken : SpeculativeMetrics := { m with targetOnlyTokens := m.targetOnlyTokens + 1 }
def addPrimedContextToken : SpeculativeMetrics :=
  { m with primedContextTokens := m.primedContextTokens + 1 }
def addStageFailure : SpeculativeMetrics :=
  { m with draftStageFailures := m.draftStageFailures + 1 }
def addCommitFailure : SpeculativeMetrics :=
  { m with draftCommitFailures := m.draftCommitFailures + 1 }
def addRollbackAttempt : SpeculativeMetrics := { m with rollbackAttempts := m.rollbackAttempts + 1 }
def addRollbackFailure : SpeculativeMetrics := { m with rollbackFailures := m.rollbackFailures + 1 }
def addDisconnectRollback : SpeculativeMetrics :=
  { m with disconnectRollbacks := m.disconnectRollbacks + 1 }
def addReset : SpeculativeMetrics := { m with resets := m.resets + 1 }

def addNativeBlock (verifiedRows acceptedDrafts emittedTokens : UInt64) (m : SpeculativeMetrics) :
    SpeculativeMetrics :=
  { m with
    blockCycles := m.blockCycles + 1
    blockVerifiedRows := m.blockVerifiedRows + verifiedRows
    blockEmittedTokens := m.blockEmittedTokens + emittedTokens
    targetAttempts := m.targetAttempts + 1
    targetTokens := m.targetTokens + verifiedRows
    draftedTokens := m.draftedTokens + verifiedRows
    acceptedTokens := m.acceptedTokens + acceptedDrafts
    rejectedTokens :=
      if acceptedDrafts < verifiedRows then m.rejectedTokens + 1 else m.rejectedTokens }

end SpeculativeMetrics

structure Driver where
  current : SpeculativeProposal := {}
  metrics : SpeculativeMetrics := {}
  proposalOpen : Bool := false
  draftEnabled : Bool
  draftSynchronized : Bool
  disconnected : Bool := false
  deriving DecidableEq, Repr

structure DriverWorld (T D : Type) where
  driver : Driver
  target : T
  draft : D

structure Answer (α : Type) where
  status : SpeculativeStatus
  error : Option String := none
  output : Option α := none

namespace Driver

variable {T D : Type} (E : Endpoints T D)

def create : Driver := { draftEnabled := E.draft.isSome, draftSynchronized := E.draft.isSome }

def fail {α : Type} (status : SpeculativeStatus) (message : String) : Answer α :=
  ⟨status, some message, none⟩

def orElse (detail fallback : String) : String :=
  if detail.isEmpty then fallback else detail

/-- `if (!extra.empty()) { if (!detail.empty()) detail += "; "; detail += extra; }`. -/
def joinDetail (detail extra : String) : String :=
  if extra.isEmpty then detail
  else (if detail.isEmpty then detail else detail ++ "; ") ++ extra

def count (f : SpeculativeMetrics → SpeculativeMetrics) (s : Driver) : Driver :=
  { s with metrics := f s.metrics }

/-- `draft_enabled_ = false; draft_synchronized_ = false;`. -/
def withoutDraft (s : Driver) : Driver :=
  { s with draftEnabled := false, draftSynchronized := false }

def closeProposal (s : Driver) : Driver := { s with proposalOpen := false, current := {} }

section

variable (s : Driver) (f : SpeculativeMetrics → SpeculativeMetrics)

@[simp] lemma count_metrics : (s.count f).metrics = f s.metrics := rfl
@[simp] lemma count_proposalOpen : (s.count f).proposalOpen = s.proposalOpen := rfl
@[simp] lemma count_draftEnabled : (s.count f).draftEnabled = s.draftEnabled := rfl
@[simp] lemma withoutDraft_proposalOpen : s.withoutDraft.proposalOpen = s.proposalOpen := rfl
@[simp] lemma withoutDraft_draftEnabled : s.withoutDraft.draftEnabled = false := rfl
@[simp] lemma closeProposal_proposalOpen : s.closeProposal.proposalOpen = false := rfl
@[simp] lemma closeProposal_draftEnabled : s.closeProposal.draftEnabled = s.draftEnabled := rfl

end

def abortOpen (disconnect : Bool) (w : DriverWorld T D) : DriverWorld T D × Answer Unit :=
  if !w.driver.proposalOpen && !E.draftOpen w.draft then (w, ⟨.ok, none, none⟩)
  else
    let attempted := w.driver.count .addRollbackAttempt
    let (draft, status, detail) :=
      match E.draft with
      | none => (w.draft, MtpStatus.invalidState, "")
      | some e => e.rollback w.draft
    let closed := attempted.closeProposal
    if status ≠ .ok then
      let failed := closed.count .addRollbackFailure
      (⟨failed.withoutDraft, w.target, draft⟩, fail .rollbackError (orElse detail
            (if disconnect then "disconnect rollback failed" else "draft rollback failed")))
    else (⟨closed, w.target, draft⟩, ⟨.ok, none, none⟩)

variable (w : DriverWorld T D)

/-- `(void)abort_open(false, &detail)` where the draft transaction is still open. -/
def abortIfDraftOpen (detail : String) : DriverWorld T D × String :=
  if E.draftOpen w.draft then
    let (w, a) := abortOpen E false w
    (w, joinDetail detail (a.error.getD ""))
  else (w, detail)

def targetOnly (E : Endpoints T D) (input : Token) (generation : TextGenerationConfig)
    (hasResult : Bool) (w : DriverWorld T D) : DriverWorld T D × Answer SpeculativeStepResult :=
  match E.target with
  | none => (w, fail .invalidState "target-only step used an invalid transaction state")
  | some e =>
    if !hasResult || w.driver.disconnected || w.driver.proposalOpen then
      (w, fail .invalidState "target-only step used an invalid transaction state")
    else
      let driver := w.driver.count .addTargetAttempt
      let (target, status, result, detail) := e.decode input generation w.target
      if status ≠ .ok then
        (⟨driver, target, w.draft⟩,
          ⟨.targetError, some (orElse detail "target decode failed"), some {}⟩)
      else
        let driver := (driver.count .addTargetToken).count .addTargetOnlyToken
        (⟨driver, target, w.draft⟩,
          ⟨.ok, none, some { authoritative := result, path := .targetOnly
                             draftWasAvailable := w.driver.draftEnabled }⟩)

def propose (inputs : SpeculativeDraftInputs) (hasProposal : Bool)
    (w : DriverWorld T D) : DriverWorld T D × Answer SpeculativeProposal :=
  match E.draft with
  | none => (w, fail .invalidState "draft proposal is unavailable in the current state")
  | some e =>
    if !hasProposal || E.target.isNone || !w.driver.draftEnabled || !w.driver.draftSynchronized ||
        w.driver.disconnected || w.driver.proposalOpen then
      (w, fail .invalidState "draft proposal is unavailable in the current state")
    else if !inputs.complete then
      (w, fail .invalidArgument "draft proposal requires complete device inputs")
    else
      let (draft, status, prediction, detail) := e.stage inputs w.draft
      let failed := w.driver.count .addStageFailure
      if status ≠ .ok then
        let (w, detail) := abortIfDraftOpen E ⟨failed, w.target, draft⟩ detail
        (⟨w.driver.withoutDraft, w.target, w.draft⟩,
          ⟨.draftError, some (orElse detail "MTP stage failed"), some {}⟩)
      else if !e.transactionOpen draft then
        (⟨failed.withoutDraft, w.target, draft⟩,
          ⟨.draftError, some "MTP stage returned without an open transaction", some {}⟩)
      else
        let proposal : SpeculativeProposal := ⟨prediction, true⟩
        (⟨{ w.driver with proposalOpen := true, current := proposal }, w.target, draft⟩,
          ⟨.ok, none, some proposal⟩)

/-- What follows a commit that failed or stayed open: count it, roll an open transaction back and
drop the draft. -/
def commitFailure (detail : String) : DriverWorld T D × String :=
  let failed := w.driver.count .addCommitFailure
  let (w, detail) := abortIfDraftOpen E ⟨failed, w.target, w.draft⟩ detail
  (⟨w.driver.withoutDraft, w.target, w.draft⟩, detail)

def verify (input : Token) (generation : TextGenerationConfig)
    (hasResult : Bool) (w : DriverWorld T D) : DriverWorld T D × Answer SpeculativeStepResult :=
  match E.target, E.draft with
  | some t, some e =>
    if !hasResult || w.driver.disconnected || !w.driver.proposalOpen ||
        !w.driver.current.staged then
      (w, fail .invalidState "target verification requires one open proposal")
    else
      let pending : SpeculativeStepResult :=
        { proposal := w.driver.current, draftWasAvailable := true }
      let driver := w.driver.count .addTargetAttempt
      let (target, targetStatus, targetResult, targetDetail) := t.decode input generation w.target
      if targetStatus ≠ .ok then
        let (w, rollback) := abortOpen E false ⟨driver, target, w.draft⟩
        let targetDetail := joinDetail targetDetail (rollback.error.getD "")
        (⟨w.driver.withoutDraft, w.target, w.draft⟩,
          ⟨if rollback.status = .ok then .targetError else .rollbackError,
            some (orElse targetDetail "target decode failed"), some pending⟩)
      else
        let driver := (driver.count .addTargetToken).count .addDraftedToken
        let pending := { pending with authoritative := targetResult }
        let accepted := w.driver.current.prediction.tokenId == targetResult.tokenId
        let (draft, commitStatus, commitDetail) := e.commit w.draft
        let driver := driver.closeProposal
        if commitStatus ≠ .ok || e.transactionOpen draft then
          let (w, commitDetail) := commitFailure E ⟨driver, target, draft⟩ commitDetail
          let driver := w.driver.count .addTargetOnlyToken
          (⟨driver, w.target, w.draft⟩,
            ⟨.ok, none, some { pending with
              path := .draftCommitErrorTargetOnly
              accepted := false
              diagnostic := orElse commitDetail "MTP commit failed" }⟩)
        else if accepted then
          (⟨driver.count .addAcceptedToken, target, draft⟩,
            ⟨.ok, none, some { pending with path := .draftVerifiedAccepted, accepted := true }⟩)
        else
          (⟨driver.count .addRejectedToken, target, draft⟩,
            ⟨.ok, none, some { pending with path := .draftVerifiedRejected, accepted := false }⟩)
  | _, _ => (w, fail .invalidState "target verification requires one open proposal")

/-- The guard that `commit_context` and `commit_open_for_block` share. -/
def commitReady (s : Driver) : Bool :=
  s.draftEnabled && s.draftSynchronized && !s.disconnected && s.proposalOpen && s.current.staged

def commitContext : DriverWorld T D × Answer Unit :=
  match E.draft with
  | none => (w, fail .invalidState "MTP context commit requires one open proposal")
  | some e =>
    if !w.driver.commitReady then
      (w, fail .invalidState "MTP context commit requires one open proposal")
    else
      let (draft, status, detail) := e.commit w.draft
      let driver := w.driver.closeProposal
      if status ≠ .ok || e.transactionOpen draft then
        let (w, detail) := commitFailure E ⟨driver, w.target, draft⟩ detail
        (w, fail .draftError (orElse detail "MTP context commit failed"))
      else
        let driver := driver.count .addPrimedContextToken
        (⟨driver, w.target, draft⟩, ⟨.ok, none, none⟩)

/-- Unlike `verify` and `commit_context`, this exit leaves a transaction that the failed commit
left open as it is. -/
def commitOpenForBlock (hasProposal : Bool) (w : DriverWorld T D) :
    DriverWorld T D × Answer SpeculativeProposal :=
  match E.draft with
  | none => (w, fail .invalidState "MTP block root requires one open proposal")
  | some e =>
    if !hasProposal || !w.driver.commitReady then
      (w, fail .invalidState "MTP block root requires one open proposal")
    else
      let proposal := w.driver.current
      let (draft, status, detail) := e.commit w.draft
      let driver := w.driver.closeProposal
      if status ≠ .ok || e.transactionOpen draft then
        let failed := driver.count .addCommitFailure
        (⟨failed.withoutDraft, w.target, draft⟩,
          ⟨.draftError, some (orElse detail "MTP block-root commit failed"), some proposal⟩)
      else (⟨driver, w.target, draft⟩, ⟨.ok, none, some proposal⟩)

def recordNativeBlock (verifiedRows acceptedDrafts emittedTokens : UInt64) (s : Driver) : Driver :=
  s.count (.addNativeBlock verifiedRows acceptedDrafts emittedTokens)

def step (E : Endpoints T D) (input : Token) (generation : TextGenerationConfig)
    (draftInputs : Option SpeculativeDraftInputs) (hasResult : Bool) (w : DriverWorld T D) :
    DriverWorld T D × Answer SpeculativeStepResult :=
  if !hasResult then (w, fail .invalidArgument "speculative step output is null")
  else
    match draftInputs with
    | none => targetOnly E input generation true w
    | some inputs =>
      if !w.driver.draftEnabled || !w.driver.draftSynchronized then
        targetOnly E input generation true w
      else
        let (w, proposed) := propose E inputs true w
        if proposed.status = .ok then verify E input generation true w
        else
          let (w, a) := targetOnly E input generation true w
          if a.status = .ok then
            (w, { a with output := a.output.map fun result => { result with
              proposal := proposed.output.getD {}
              draftWasAvailable := true
              path := .draftErrorTargetOnly
              diagnostic := proposed.error.getD "" } })
          else (w, a)

def disconnect : DriverWorld T D × Answer Unit :=
  if w.driver.disconnected then (w, ⟨.ok, none, none⟩)
  else
    let (w, a) :=
      if w.driver.proposalOpen || E.draftOpen w.draft then
        let driver := w.driver.count .addDisconnectRollback
        abortOpen E true ⟨driver, w.target, w.draft⟩
      else (w, ⟨.ok, none, none⟩)
    (⟨{ w.driver.withoutDraft with disconnected := true }, w.target, w.draft⟩, a)

/-- `draft_ == nullptr ? mtp_status::invalid_state : draft_->reset(&draft_detail)`. -/
def resetDraft (d : D) : D × MtpStatus × String :=
  match E.draft with
  | none => (d, .invalidState, "")
  | some e => e.reset d

def reset (E : Endpoints T D) (w : DriverWorld T D) : DriverWorld T D × Answer Unit :=
  match E.target with
  | none => (w, fail .invalidState "speculative target endpoint is null")
  | some t =>
    let (w, aborted) := abortOpen E false w
    if aborted.status ≠ .ok then
      (⟨{ w.driver.withoutDraft with disconnected := true }, w.target, w.draft⟩, aborted)
    else
      let (target, targetStatus, targetDetail) := t.reset w.target
      let (draft, draftStatus, draftDetail) := resetDraft E w.draft
      let driver := w.driver.count .addReset
      let driver := { driver with disconnected := false }
      if targetStatus ≠ .ok then
        (⟨driver.withoutDraft, target, draft⟩,
          fail .targetError (orElse targetDetail "target reset failed"))
      else
        let enabled := E.draft.isSome && draftStatus == .ok
        (⟨{ driver with draftEnabled := enabled, draftSynchronized := enabled }, target, draft⟩,
          ⟨.ok, if E.draft.isSome && draftStatus ≠ .ok then
            some (orElse draftDetail "MTP reset failed") else none, none⟩)

def disableDraft : DriverWorld T D :=
  let (w, _) := abortOpen E false w
  ⟨w.driver.withoutDraft, w.target, w.draft⟩

end Driver

end AxiomKernel.Qwen4exp
