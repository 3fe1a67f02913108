import AxiomKernel.Qwen4exp.Driver
import AxiomKernel.Qwen4exp.MtpSession
import AxiomKernel.Qwen4exp.TextSession

/-! `speculative_session`: the native compositor of a text session, a draft session and the
transaction driver. A call answers its result, or a status that is not ok with its text. -/
namespace AxiomKernel.Qwen4exp

variable (m : ModelFunction)

def targetEndpoint : TargetEndpoint TextSession where
  decode input generation t :=
    match (TextSession.decode m input generation).run.run t with
    | (.ok result, t) => (t, .ok, result, "")
    | (.error e, t) => (t, e.status, {}, e.detail)
  reset t :=
    match TextSession.reset.run.run t with
    | (.ok _, t) => (t, .ok, "")
    | (.error e, t) => (t, e.status, e.detail)

def draftAnswer {α : Type} (x : MtpM α) (d : MtpSession) : MtpSession × MtpStatus × String :=
  match x.run.run d with
  | (.ok _, d) => (d, .ok, "")
  | (.error e, d) => (d, e.status, e.detail)

def draftEndpoint : DraftEndpoint MtpSession where
  stage inputs d :=
    match (MtpSession.stageToken inputs).run.run d with
    | (.ok prediction, d) => (d, .ok, prediction, "")
    | (.error e, d) => (d, e.status, {}, e.detail)
  commit := draftAnswer MtpSession.commit
  rollback := draftAnswer MtpSession.rollback
  reset := draftAnswer MtpSession.reset
  transactionOpen d := d.transactionOpen

def nativeEndpoints (hasDraft : Bool) : Endpoints TextSession MtpSession :=
  ⟨some (targetEndpoint m), if hasDraft then some draftEndpoint else none⟩

structure SpeculativeError where
  status : SpeculativeStatus
  detail : String
  failed : status ≠ .ok

structure SpeculativeSession where
  requireExactDraft : Bool
  proposalWidth : Nat
  /-- `draft != nullptr`, with its two handoff buffers. -/
  hasDraft : Bool
  driver : Driver
  target : TextSession
  draft : MtpSession
  /-- The committed tokens not yet handed out: the input each expects, and its result. -/
  queue : List (Token × TextTokenResult) := []
  /-- The handoff buffer written last, zero for none. -/
  latestDraftHidden : DevicePointer := 0

abbrev SpeculativeM := ExceptT SpeculativeError (StateM SpeculativeSession)

namespace SpeculativeSession

/-- `create_session` once the endpoints stand; the draft session may hold anything. -/
def create (m : ModelFunction) (requireExactDraft : Bool) (proposalWidth contextCapacity : Nat)
    (hasDraft : Bool) (draft : MtpSession) : SpeculativeSession :=
  { requireExactDraft := requireExactDraft, proposalWidth := proposalWidth, hasDraft := hasDraft
    driver := Driver.create (nativeEndpoints m hasDraft)
    target := { decoder := { contextCapacity := contextCapacity } }, draft := draft }

/-- `draft_output_hidden[0]` and `draft_output_hidden[1]`. -/
def draftOutputHidden0 : DevicePointer := 5
def draftOutputHidden1 : DevicePointer := 6

def fail {α : Type} (status : SpeculativeStatus) (detail : String)
    (h : status ≠ .ok := by decide) : SpeculativeM α :=
  throw ⟨status, detail, h⟩

def onTarget {α : Type} (x : TextM α) : SpeculativeM (Except TextError α) := do
  let s ← get
  let (r, t) := x.run.run s.target
  set { s with target := t }
  pure r

def onDraft {α : Type} (x : MtpM α) : SpeculativeM (Except MtpError α) := do
  let s ← get
  let (r, d) := x.run.run s.draft
  set { s with draft := d }
  pure r

def onDriver {α : Type} (m : ModelFunction)
    (f : Endpoints TextSession MtpSession → DriverWorld TextSession MtpSession →
      DriverWorld TextSession MtpSession × Answer α) : SpeculativeM (Answer α) := do
  let s ← get
  let (w, a) := f (nativeEndpoints m s.hasDraft) ⟨s.driver, s.target, s.draft⟩
  set { s with driver := w.driver, target := w.target, draft := w.draft }
  pure a

def driverPropose (inputs : SpeculativeDraftInputs) (hasProposal : Bool) :
    SpeculativeM (Answer SpeculativeProposal) :=
  onDriver m fun E w => Driver.propose E inputs hasProposal w

variable (input : Token) (generation : TextGenerationConfig)

def driverVerify (hasResult : Bool) : SpeculativeM (Answer SpeculativeStepResult) :=
  onDriver m fun E w => Driver.verify E input generation hasResult w

def driverTargetOnly : SpeculativeM (Answer SpeculativeStepResult) :=
  onDriver m fun E w => Driver.targetOnly E input generation true w

def driverStep (inputs : Option SpeculativeDraftInputs) (hasResult : Bool) :
    SpeculativeM (Answer SpeculativeStepResult) :=
  onDriver m fun E w => Driver.step E input generation inputs hasResult w

def driverCommitContext : SpeculativeM (Answer Unit) :=
  onDriver m fun E w => Driver.commitContext E w

def driverCommitOpenForBlock : SpeculativeM (Answer SpeculativeProposal) :=
  onDriver m fun E w => Driver.commitOpenForBlock E true w

def driverDisableDraft : SpeculativeM Unit := do
  let _ ← onDriver (α := Unit) m fun E w => (Driver.disableDraft E w, ⟨.ok, none, none⟩)

def driverDisconnect : SpeculativeM (Answer Unit) := onDriver m fun E w => Driver.disconnect E w

def driverReset : SpeculativeM (Answer Unit) := onDriver m fun E w => Driver.reset E w

def throwAnswer {α β : Type} (a : Answer α) (fallback : String) (h : a.status ≠ .ok) :
    SpeculativeM β :=
  throw ⟨a.status, Driver.orElse (a.error.getD "") fallback, h⟩

def stageNativeProposal (nextInput : Token)
    (mropePosition : Option MropePosition) : SpeculativeM Unit := do
  let s ← get
  if !s.hasDraft then fail .draftError "native MTP proposal path is unavailable"
  else if s.draft.poisoned = true ∨ s.draft.transactionOpen = true ∨
      s.target.decoder.committed.length = 0 ∨
      s.target.decoder.committed.length ≠ s.draft.committed + 1 then
    driverDisableDraft m
    fail .draftError "target/MTP context alignment check failed"
  else
    match ← onTarget (TextSession.prepareMtpInputs nextInput mropePosition) with
    | .error e =>
      driverDisableDraft m
      fail .draftError (Driver.orElse e.detail
        ("target-to-MTP handoff failed: " ++ textModelStatusString e.status))
    | .ok native =>
      let a ← driverPropose m
        ⟨native.inputEmbedding, native.targetHidden, native.fullCos, native.fullSin,
          native.positionCount, draftOutputHidden0⟩ true
      if h : a.status ≠ .ok then
        driverDisableDraft m
        throwAnswer a "native MTP proposal failed" h
      else modify fun s => { s with latestDraftHidden := draftOutputHidden0 }

/-- The draft's share of one prompt token: a proposal, committed unless it is the last. -/
def primeDraft (candidate : Token) (position : Option MropePosition)
    (final : Bool) : SpeculativeM Unit := do
  stageNativeProposal m candidate position
  if !final then
    let a ← driverCommitContext m
    if h : a.status ≠ .ok then throwAnswer a "" h

/-- A draft that cannot be primed is given up, and with it the prompt where it is required. -/
def primeOrDisable (candidate : Token) (position : Option MropePosition)
    (final : Bool) (required : String) : SpeculativeM Unit :=
  tryCatch (primeDraft m candidate position final) fun e => do
    driverDisableDraft m
    if (← get).requireExactDraft then
      let _ ← driverReset m
      fail .draftError (Driver.orElse e.detail required)

def prefillToken (token : Token) (position : Option MropePosition)
    (final : Bool) (generation : TextGenerationConfig) : SpeculativeM TextTokenResult := do
  match ← onTarget (TextSession.prefillTokenForSpeculation m token position final generation) with
  | .error e =>
    let _ ← driverReset m
    fail .targetError e.detail
  | .ok produced => pure produced

/-- The loop of `target_prefill` over a session with a draft. -/
def prefillTokens (m : ModelFunction) (generation : TextGenerationConfig) :
    List Token → SpeculativeM TextTokenResult
  | [] => pure {}
  | token :: tokens => do
      let final := tokens.isEmpty
      let produced ← prefillToken m token none final generation
      primeOrDisable m (tokens.headD produced.tokenId) none final
        "required MTP prompt priming failed"
      if final then pure produced else prefillTokens m generation tokens

def targetPrefill (tokens : List Token) (generation : TextGenerationConfig) :
    SpeculativeM TextTokenResult := do
  if tokens.isEmpty then fail .invalidArgument "invalid speculative target prefill request"
  else if !(← get).hasDraft then
    match ← onTarget (TextSession.prefill m tokens generation) with
    | .error e => fail .targetError e.detail
    | .ok result => pure result
  else prefillTokens m generation tokens

/-- The loop of `target_prefill_multimodal`: the last candidate stands at the next text position,
and where there is none the draft is given up. -/
def prefillRows (m : ModelFunction) (generation : TextGenerationConfig)
    (report : MultimodalReport) : List (Token × MropePosition) → SpeculativeM TextTokenResult
  | [] => pure {}
  | (token, position) :: rows => do
      let final := rows.isEmpty
      let produced ← prefillToken m token (some position) final generation
      match rows with
      | (candidate, candidatePosition) :: _ =>
        primeOrDisable m candidate (some candidatePosition) final
          "required multimodal MTP priming failed"
      | [] =>
        if report.nextTextPositionAvailable then
          primeOrDisable m produced.tokenId (some (.fill report.nextTextPosition)) final
            "required multimodal MTP priming failed"
        else driverDisableDraft m
      if final then pure produced else prefillRows m generation report rows

def targetPrefillMultimodal (prompt : MultimodalPrompt)
    (generation : TextGenerationConfig) : SpeculativeM TextTokenResult := do
  match prompt.admission with
  | .error e => fail .unsupportedConfig e.detail
  | .ok report =>
    if !(← get).hasDraft then
      match ← onTarget (TextSession.prefillMultimodal m prompt generation) with
      | .error e => fail .targetError e.detail
      | .ok result => pure result
    else
      let result ← prefillRows m generation report prompt.tokens
      match ← onTarget (TextSession.finishSpeculativeMultimodalPrefill report.nextTextPosition
          report.nextTextPositionAvailable) with
      | .error e =>
        let _ ← driverReset m
        fail .targetError e.detail
      | .ok _ => pure result

/-- `target_fallback`: give the draft up and decode the token alone. -/
def targetFallback
    (targetCommitted : Nat) (diagnostic : String) : SpeculativeM SpeculativeStepResult := do
  driverDisableDraft m
  let s ← get
  if s.hasDraft = true ∧ s.draft.poisoned = false ∧ s.draft.transactionOpen = false ∧
      targetCommitted ≤ s.draft.committed then
    let _ ← onDraft (MtpSession.truncateCommitted targetCommitted)
  match ← onTarget (TextSession.decode m input generation) with
  | .error e =>
    fail .targetError (Driver.orElse e.detail "target fallback after MTP block failed")
  | .ok result =>
    pure { authoritative := result, path := .draftErrorTargetOnly, draftWasAvailable := true
           diagnostic := diagnostic }

/-- The draft rows after the root: each staged on the last prediction and committed, with the two
handoff buffers in turn. -/
def draftChain : Nat → Token → SpeculativeM (List Token)
  | 0, _ => pure []
  | n + 1, previous => do
      match ← onTarget (TextSession.prepareMtpInputs previous none) with
      | .error e => fail .draftError (Driver.orElse e.detail "recursive MTP embedding failed")
      | .ok native =>
        let s ← get
        let output :=
          if s.latestDraftHidden = draftOutputHidden0 then draftOutputHidden1
          else draftOutputHidden0
        match ← onDraft (MtpSession.stageToken ⟨native.inputEmbedding, s.latestDraftHidden,
            native.fullCos, native.fullSin, s.draft.committed + 1, output⟩) with
        | .error e =>
          fail .draftError (Driver.orElse e.detail
            ("recursive MTP stage failed: " ++ mtpStatusString e.status))
        | .ok prediction =>
          match ← onDraft MtpSession.commit with
          | .error e =>
            fail .draftError (Driver.orElse e.detail
              ("recursive MTP commit failed: " ++ mtpStatusString e.status))
          | .ok _ =>
            modify fun s => { s with latestDraftHidden := output }
            let rest ← draftChain n prediction.tokenId
            pure (prediction.tokenId :: rest)

/-- A block of drafts, the inputs it is verified on and the target's rows for them. -/
structure VerifiedBlock where
  drafts : List Token
  inputs : List Token
  verified : List TextTokenResult

/-- `while (accepted < width && drafts[accepted] == verified[accepted].token_id) ++accepted;`. -/
def VerifiedBlock.accepted (b : VerifiedBlock) : Nat :=
  Greedy.matchLength b.drafts (b.verified.map (·.tokenId))

def verifyBlock (root : Token) (width : Nat) : SpeculativeM VerifiedBlock := do
  let rest ← draftChain (width - 1) root
  let drafts := root :: rest
  let inputs := input :: drafts.dropLast
  match ← onTarget (TextSession.stageDecodeSequenceForSpeculation m inputs) with
  | .error e => fail .targetError (Driver.orElse e.detail "target block stage failed")
  | .ok verified => pure ⟨drafts, inputs, verified⟩

/-- What the block path has come to before any replay: the token is decoded alone, the block stands
as it was verified, or it was rolled back and its first rows are to be replayed. -/
inductive BlockVerdict where
  | fallback (diagnostic : String)
  | committed (root : SpeculativeProposal) (rows : List TextTokenResult)
  | replay (root : SpeculativeProposal) (accepted : Nat) (rows : List (Token × TextTokenResult))

variable (root : SpeculativeProposal)

/-- Make a verified block permanent when every draft was accepted, and else take it back from the
target and its tail from the draft. -/
def settleBlock (targetCommitted : Nat) (b : VerifiedBlock) : SpeculativeM BlockVerdict := do
  if b.accepted = b.drafts.length then
    match ← onTarget TextSession.commitStagedSpeculativeSequence with
    | .error e => fail .targetError (Driver.orElse e.detail "target block commit failed")
    | .ok _ => pure (.committed root b.verified)
  else
    match ← onTarget TextSession.rollbackStagedSpeculativeSequence with
    | .error e => fail .rollbackError (Driver.orElse e.detail "target block rollback failed")
    | .ok _ =>
      match ← onDraft (MtpSession.truncateCommitted (targetCommitted - 1 + (b.accepted + 1))) with
      | .error e => fail .rollbackError (Driver.orElse e.detail "MTP suffix truncation failed")
      | .ok _ =>
        pure (.replay root b.accepted ((b.inputs.zip b.verified).take (b.accepted + 1)))

def blockVerdict : SpeculativeM BlockVerdict := do
  let s ← get
  let a ← driverCommitOpenForBlock m
  if h : a.status ≠ .ok then
    if s.requireExactDraft then throwAnswer a "required MTP block root failed" h
    else pure (.fallback (Driver.orElse (a.error.getD "") "MTP block root commit failed"))
  else
    let root := a.output.getD {}
    match ← observing (verifyBlock m input root.prediction.tokenId s.proposalWidth) with
    | .error e => if s.requireExactDraft then throw e else pure (.fallback e.detail)
    | .ok b => settleBlock root s.target.decoder.committed.length b

/-- The replay of the verified rows, one decode each; a row that differs fails the call. -/
def replayRows (m : ModelFunction) (generation : TextGenerationConfig) :
    List (Token × TextTokenResult) → SpeculativeM (List TextTokenResult)
  | [] => pure []
  | (input, verified) :: rows => do
      match ← onTarget (TextSession.decode m input generation) with
      | .error e => fail .targetError (Driver.orElse e.detail "target prefix replay diverged")
      | .ok replayed =>
        if replayed.tokenId ≠ verified.tokenId then
          fail .targetError "target prefix replay diverged"
        else
          let rest ← replayRows m generation rows
          pure (replayed :: rest)

/-- What is left to do once a token is certain: a proposal for the one after it, at a position, with
the text of a required proposal that fails and what a failure notes in the result. -/
structure NextProposal where
  token : Token
  position : Option MropePosition
  fallback : String
  noted : String → String

/-- `positions.fill(next_mrope_text_position)` where the multimodal table is active. -/
def nextPosition (t : TextSession) : Option MropePosition :=
  if t.multimodalMropeActive then some (.fill t.nextMropeTextPosition) else none

/-- What follows the settled rows: the metrics, the queue and the result. -/
def publishBlock (accepted : Nat) (rows : List TextTokenResult) :
    SpeculativeM (SpeculativeStepResult × Option NextProposal) := do
  let s ← get
  set { s with
    driver := s.driver.recordNativeBlock (UInt64.ofNat s.proposalWidth) (UInt64.ofNat accepted)
      (UInt64.ofNat rows.length)
    queue := (rows.map TextTokenResult.tokenId).zip rows.tail }
  let diagnostic :=
    "mtp_block width=" ++ toString s.proposalWidth ++ " accepted=" ++ toString accepted
  pure ({ authoritative := rows.headD {}, proposal := root, draftWasAvailable := true
          accepted := accepted != 0
          path := if accepted = 0 then .draftVerifiedRejected else .draftVerifiedAccepted
          diagnostic := diagnostic },
    some ⟨(rows.getLastD {}).tokenId, nextPosition s.target, "",
      fun detail => diagnostic ++ "; next proposal unavailable: " ++ detail⟩)

variable (generation : TextGenerationConfig)

def decodeBlock : SpeculativeM (SpeculativeStepResult × Option NextProposal) := do
  let targetCommitted := (← get).target.decoder.committed.length
  match ← blockVerdict m input with
  | .fallback diagnostic =>
    let result ← targetFallback m input generation targetCommitted diagnostic
    pure (result, none)
  | .committed root rows => publishBlock root rows.length rows
  | .replay root accepted rows =>
    let replayed ← replayRows m generation rows
    publishBlock root accepted replayed

def decodeOne : SpeculativeM (SpeculativeStepResult × Option NextProposal) := do
  let proposalOpen := (← get).driver.proposalOpen
  let a ← if proposalOpen then driverVerify m input generation true
    else driverTargetOnly m input generation
  if h : a.status ≠ .ok then throwAnswer a "" h
  else
    let result := a.output.getD {}
    let s ← get
    if proposalOpen = false ∨ s.driver.draftEnabled = false ∨
        s.driver.draftSynchronized = false then
      pure (result, none)
    else if s.target.multimodalMropeActive = true ∧
        s.target.nextMropeTextPositionAvailable = false then
      driverDisableDraft m
      pure (result, none)
    else
      pure (result, some ⟨result.authoritative.tokenId, nextPosition s.target,
        "required continuous MTP proposal failed", id⟩)

def blockEligible (s : SpeculativeSession) (generation : TextGenerationConfig) : Bool :=
  s.driver.proposalOpen && s.driver.draftEnabled && s.driver.draftSynchronized && s.hasDraft &&
    s.latestDraftHidden != 0 && generation.mode == .argmax && !s.target.multimodalMropeActive &&
    s.target.decoder.committed.length + s.proposalWidth ≤ s.target.decoder.contextCapacity

def advance : SpeculativeM (SpeculativeStepResult × Option NextProposal) := do
  if (← get).blockEligible generation then decodeBlock m input generation
  else decodeOne m input generation

/-- The proposal for the next token; without one the draft is given up, which fails the call only
where an exact draft is required. -/
def stageNext (result : SpeculativeStepResult) (next : NextProposal) :
    SpeculativeM SpeculativeStepResult :=
  tryCatch (do stageNativeProposal m next.token next.position; pure result) fun e => do
    driverDisableDraft m
    if (← get).requireExactDraft then fail .draftError (Driver.orElse e.detail next.fallback)
    else pure { result with diagnostic := next.noted e.detail }

def decode (m : ModelFunction) (input : Token) (generation : TextGenerationConfig)
    (hasResult : Bool) : SpeculativeM SpeculativeStepResult := do
  let s ← get
  if !hasResult then
    fail .invalidState "native speculative decode session is not initialized"
  else
    match s.queue with
    | (queuedInput, queued) :: queue =>
      if input ≠ queuedInput then
        fail .invalidState "caller token diverged from the committed speculative queue"
      else
        set { s with queue := queue }
        pure { authoritative := queued, path := .draftVerifiedAccepted, draftWasAvailable := true
               accepted := true }
    | [] =>
      let (result, next) ← advance m input generation
      match next with
      | none => pure result
      | some next => stageNext m result next

def disconnect : SpeculativeM (Answer Unit) := do
  modify fun s => { s with queue := [] }
  driverDisconnect m

def reset : SpeculativeM (Answer Unit) := do
  modify fun s => { s with queue := [], latestDraftHidden := 0 }
  driverReset m

end SpeculativeSession

end AxiomKernel.Qwen4exp
