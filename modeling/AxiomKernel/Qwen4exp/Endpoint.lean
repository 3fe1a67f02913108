import AxiomKernel.Device

/-! The endpoint interface of the speculative driver: statuses, token records and the two endpoint
classes, each over a state type of its own. Floating-point fields are kept as their bit patterns;
timing is left out. -/
namespace AxiomKernel.Qwen4exp

inductive TextModelStatus where
  | ok | invalidArgument | unsupportedConfig | unsupportedDevice | admissionError
  | checkpointError | allocationFailure | residencyError | decoderLayerError | outputHeadError
  | ropeError | sessionError | capacityExceeded | tokenRejected | transactionError | cudaError
  | invalidState
  deriving DecidableEq, Repr

inductive MtpStatus where
  | ok | invalidArgument | unsupportedConfig | unsupportedDevice | tensorNotFound
  | tensorContractMismatch | checkpointIoError | allocationFailure | invalidDevicePointer
  | invalidState | capacityExceeded | linearError | qsaError | attentionError | routerError
  | expertPagingError | expertComputeError | nonFinite | cudaError
  deriving DecidableEq, Repr

inductive SpeculativeStatus where
  | ok | invalidArgument | unsupportedConfig | targetError | draftError | rollbackError
  | invalidState
  deriving DecidableEq, Repr

inductive SpeculativePath where
  | targetOnly | draftVerifiedAccepted | draftVerifiedRejected | draftErrorTargetOnly
  | draftCommitErrorTargetOnly
  deriving DecidableEq, Repr

inductive TextSelectionMode where
  | argmax | sample
  deriving DecidableEq, Repr

structure OutputHeadSamplingConfig where
  temperature : UInt32 := 0x3f800000
  seed : UInt64 := 0
  sequence : UInt64 := 0
  deriving DecidableEq, Repr

structure TextGenerationConfig where
  mode : TextSelectionMode := .argmax
  sampling : OutputHeadSamplingConfig := {}
  deriving DecidableEq, Repr

structure TextTokenResult where
  tokenId : Token := 0
  selectedLogit : UInt32 := 0
  committedContext : UInt64 := 0
  sampled : Bool := false
  deriving DecidableEq, Repr

/-- What the driver reads of a prediction; the routing diagnostics beside it are not read. -/
structure MtpPrediction where
  tokenId : Token := 0
  selectedLogit : UInt32 := 0
  deriving DecidableEq, Repr

abbrev DevicePointer := UInt64

structure SpeculativeDraftInputs where
  inputEmbedding : DevicePointer := 0
  targetHidden : DevicePointer := 0
  fullCos : DevicePointer := 0
  fullSin : DevicePointer := 0
  positionCount : Nat := 0
  outputHidden : DevicePointer := 0
  deriving DecidableEq, Repr

def SpeculativeDraftInputs.complete (i : SpeculativeDraftInputs) : Bool :=
  i.inputEmbedding != 0 && i.targetHidden != 0 && i.fullCos != 0 && i.fullSin != 0 &&
    i.positionCount != 0 && i.outputHidden != 0

/-- `speculative_target_endpoint`: every call answers a status, its output and an error text. -/
structure TargetEndpoint (T : Type) where
  decode : Token → TextGenerationConfig → T → T × TextModelStatus × TextTokenResult × String
  reset : T → T × TextModelStatus × String

structure DraftEndpoint (D : Type) where
  stage : SpeculativeDraftInputs → D → D × MtpStatus × MtpPrediction × String
  commit : D → D × MtpStatus × String
  rollback : D → D × MtpStatus × String
  reset : D → D × MtpStatus × String
  transactionOpen : D → Bool

/-- What a draft endpoint owes its driver: a rollback that reports success has closed the
transaction, and a reset opens none. -/
structure DraftEndpoint.Lawful {D : Type} (e : DraftEndpoint D) : Prop where
  rollback_closes : ∀ d, (e.rollback d).2.1 = .ok → e.transactionOpen (e.rollback d).1 = false
  reset_keeps_closed : ∀ d, e.transactionOpen d = false → e.transactionOpen (e.reset d).1 = false

structure Endpoints (T D : Type) where
  target : Option (TargetEndpoint T)
  draft : Option (DraftEndpoint D)

namespace Endpoints

variable {T D : Type}

/-- `draft_ != nullptr && draft_->transaction_open()`. -/
def draftOpen (E : Endpoints T D) (d : D) : Bool := E.draft.any (·.transactionOpen d)

def Lawful (E : Endpoints T D) : Prop := ∀ e ∈ E.draft, e.Lawful

end Endpoints

/-! Observed endpoints: the same endpoints, noting every call in a list. -/

inductive TargetEvent where
  | decode (input : Token) (generation : TextGenerationConfig) (status : TextModelStatus)
      (result : TextTokenResult)
  | reset (status : TextModelStatus)
  deriving DecidableEq, Repr

/-- A draft call with its status and, for a stage or a commit, whether it left the transaction
open; `driverReset` notes a reset of the driver that returned ok. -/
inductive DraftEvent where
  | stage (status : MtpStatus) (openAfter : Bool)
  | commit (status : MtpStatus) (openAfter : Bool)
  | rollback (status : MtpStatus)
  | reset (status : MtpStatus)
  | driverReset
  deriving DecidableEq, Repr

namespace DraftEvent

def isStage : DraftEvent → Bool
  | .stage _ _ => true
  | _ => false

def isDriverReset : DraftEvent → Bool
  | .driverReset => true
  | _ => false

def rollbackFailed : DraftEvent → Bool
  | .rollback status => status != .ok
  | _ => false

def commitFailed : DraftEvent → Bool
  | .commit status openAfter => status != .ok || openAfter
  | _ => false

/-- A stage that reported an error or opened no transaction, or a failed commit. -/
def draftFailed : DraftEvent → Bool
  | .stage status openAfter => status != .ok || !openAfter
  | .commit status openAfter => status != .ok || openAfter
  | _ => false

end DraftEvent

def TargetEndpoint.observed {T : Type} (e : TargetEndpoint T) :
    TargetEndpoint (T × List TargetEvent) where
  decode input generation s :=
    let (t, status, result, detail) := e.decode input generation s.1
    ((t, s.2 ++ [.decode input generation status result]), status, result, detail)
  reset s :=
    let (t, status, detail) := e.reset s.1
    ((t, s.2 ++ [.reset status]), status, detail)

def DraftEndpoint.observed {D : Type} (e : DraftEndpoint D) :
    DraftEndpoint (D × List DraftEvent) where
  stage inputs s :=
    let (d, status, prediction, detail) := e.stage inputs s.1
    ((d, s.2 ++ [.stage status (e.transactionOpen d)]), status, prediction, detail)
  commit s :=
    let (d, status, detail) := e.commit s.1
    ((d, s.2 ++ [.commit status (e.transactionOpen d)]), status, detail)
  rollback s :=
    let (d, status, detail) := e.rollback s.1
    ((d, s.2 ++ [.rollback status]), status, detail)
  reset s :=
    let (d, status, detail) := e.reset s.1
    ((d, s.2 ++ [.reset status]), status, detail)
  transactionOpen s := e.transactionOpen s.1

def Endpoints.observed {T D : Type} (E : Endpoints T D) :
    Endpoints (T × List TargetEvent) (D × List DraftEvent) :=
  ⟨E.target.map (·.observed), E.draft.map (·.observed)⟩

section

variable {T D : Type} (E : Endpoints T D)

@[simp] lemma Endpoints.observed_target : E.observed.target = E.target.map (·.observed) := rfl

@[simp] lemma Endpoints.observed_draft : E.observed.draft = E.draft.map (·.observed) := rfl

@[simp] lemma Endpoints.draftOpen_observed (s : D × List DraftEvent) :
    E.observed.draftOpen s = E.draftOpen s.1 := by
  rcases E with ⟨target, _ | e⟩ <;> rfl

variable (target : Option (TargetEndpoint T))

@[simp] lemma Endpoints.draftOpen_some (e : DraftEndpoint D)
    (d : D) : Endpoints.draftOpen ⟨target, some e⟩ d = e.transactionOpen d := rfl

variable (t : TargetEndpoint T) (e : DraftEndpoint D)

@[simp] lemma TargetEndpoint.observed_decode (i : Token) (g : TextGenerationConfig)
    (s : T × List TargetEvent) : t.observed.decode i g s =
    (((t.decode i g s.1).1,
    s.2 ++ [.decode i g (t.decode i g s.1).2.1
    (t.decode i g s.1).2.2.1]), (t.decode i g s.1).2) := rfl

@[simp] lemma TargetEndpoint.observed_reset (s : T × List TargetEvent) : t.observed.reset s =
    (((t.reset s.1).1, s.2 ++ [.reset (t.reset s.1).2.1]), (t.reset s.1).2) := rfl

@[simp] lemma DraftEndpoint.observed_stage (i : SpeculativeDraftInputs)
    (s : D × List DraftEvent) : e.observed.stage i s =
    (((e.stage i s.1).1, s.2 ++ [.stage (e.stage i s.1).2.1
    (e.transactionOpen (e.stage i s.1).1)]), (e.stage i s.1).2) := rfl

section
variable (s : D × List DraftEvent)

@[simp] lemma DraftEndpoint.observed_commit : e.observed.commit s =
    (((e.commit s.1).1, s.2 ++ [.commit (e.commit s.1).2.1
    (e.transactionOpen (e.commit s.1).1)]), (e.commit s.1).2) := rfl

@[simp] lemma DraftEndpoint.observed_rollback : e.observed.rollback s =
    (((e.rollback s.1).1, s.2 ++ [.rollback (e.rollback s.1).2.1]), (e.rollback s.1).2) := rfl

@[simp] lemma DraftEndpoint.observed_reset : e.observed.reset s =
    (((e.reset s.1).1, s.2 ++ [.reset (e.reset s.1).2.1]), (e.reset s.1).2) := rfl

@[simp] lemma DraftEndpoint.observed_transactionOpen :
    e.observed.transactionOpen s = e.transactionOpen s.1 := rfl

end

end

end AxiomKernel.Qwen4exp
