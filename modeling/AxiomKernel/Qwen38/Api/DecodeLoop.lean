import AxiomKernel.Dspark.DeviceCycle
import AxiomKernel.Qwen38.Api.OutputBudget

/-!
# The device decode loop

The loop of `native_generate` that enqueues batches of captured cycles, reads their records back
and appends the committed tokens (`tools/axiom_qwen38_api.cpp`). A batch is sized before any of
its records is known. The records, the failures of the device calls, the client and the sink are
its surroundings. Positions stay below `session_context`, which fits in 32 bits, so they are
naturals here.
-/
namespace AxiomKernel.Qwen38.Api

open Guard Dspark Nat
open List hiding Vector

def verifyWidth : Nat := 8
def draftTokens : Nat := 7

/-- `native_cycle_history`: what a native MTP cycle leaves for the host. -/
structure NativeHistory where
  asyncStatus : Status
  acceptedPrefix : Nat
  commitCount : Nat
  emittedCount : Nat
  continuation : Token
  logitFinite : Bool
  stopDetected : Nat
  matchedStopToken : Token
  nextAnchor : Token
  nextPosition : Nat
  draft : Vector Token 7
  verify : Vector Token 8
  emitted : Vector Token 8
  deriving DecidableEq, Repr

def NativeHistory.translated (native : NativeHistory) : DeviceHistory :=
  if native.commitCount = 0 then
    ⟨Vector.replicate 7 0, 0, native.matchedStopToken, native.asyncStatus, native.nextPosition, 0⟩
  else
    ⟨native.draft, native.acceptedPrefix, native.continuation, native.asyncStatus,
      native.nextPosition, native.commitCount⟩

/-- A record as the engine of the session leaves it. The DSpark engine also observes the draft
confidence of a committing cycle, which can fail. -/
inductive CycleResult where
  | dspark (history : DeviceHistory) (confidence : Status)
  | nativeMtp (history : NativeHistory)
  deriving DecidableEq, Repr

def CycleResult.history : CycleResult → DeviceHistory
  | .dspark history _ => history
  | .nativeMtp native => native.translated

structure DecodeConfig where
  prompt : List Token
  maxNew : UInt32
  sessionContext : Nat
  maxCommitTokens : Nat
  chunkCycles : Nat
  isStop : Token → Bool
  cancelled : List Token → Bool
  emit : List Token → Status

structure LoopState where
  result : Generation
  position : Nat
  anchor : Token
  stopped : Bool
  deriving DecidableEq, Repr

section
variable (cfg : DecodeConfig)

def appendGeneratedToken (result : Generation) (token : Token) : Except Status Generation := do
  refuse (cfg.cancelled result.ids = true) .io
  let result := appendToken result token
  refuse (cfg.emit result.ids ≠ .ok) (cfg.emit result.ids)
  return result

variable (s : LoopState)

/-- The checks on a native record. A cycle queued after a stop publishes no continuation, only the
stop token it found as its anchor. -/
def checkNative (native : NativeHistory) : Except Status Unit :=
  if native.commitCount = 0 then
    refuse (native.asyncStatus ≠ .ok ∨ native.acceptedPrefix ≠ 0 ∨ native.emittedCount ≠ 0 ∨
      native.stopDetected ≠ 1 ∨ native.matchedStopToken ≠ s.anchor ∨
      native.nextAnchor ≠ s.anchor ∨ native.nextPosition ≠ s.position ∨
      native.verify[0] ≠ s.anchor ∨ cfg.isStop s.anchor = false) .runtime
  else do
    let stopContract := (native.stopDetected = 0 ∧ native.matchedStopToken = tokenIdInvalid) ∨
      (native.stopDetected = 1 ∧ native.matchedStopToken = native.continuation ∧
        cfg.isStop native.continuation = true)
    refuse (native.asyncStatus ≠ .ok ∨ native.acceptedPrefix > draftTokens ∨
      native.commitCount > verifyWidth ∨ native.emittedCount ≠ native.commitCount ∨
      native.commitCount ≠ native.acceptedPrefix + 1 ∨ native.continuation ≥ kVocab ∨
      native.logitFinite = false ∨ ¬ stopContract ∨ native.verify[0] ≠ s.anchor) .runtime
    refuse (¬ (native.draft.toList.all (· < kVocab) ∧
      native.verify.toList.tail = native.draft.toList)) .runtime
    refuse (native.emitted.toList.take native.acceptedPrefix ≠
      native.draft.toList.take native.acceptedPrefix) .runtime
    refuse (native.emitted.toList[native.acceptedPrefix]? ≠ some native.continuation) .runtime

/-- The accepted proposals, while there is room; a stop token among them is refused. -/
def appendAccepted : List Token → Generation → Except Status Generation
  | [], result => .ok result
  | token :: tokens, result =>
    if result.ids.length < cfg.maxNew.toNat then do
      refuse (cfg.isStop token = true) .runtime
      let result ← appendGeneratedToken cfg result token
      appendAccepted tokens result
    else .ok result

variable (history : DeviceHistory)

def appendCommitted : Except Status LoopState :=
  if s.stopped ∨ cfg.maxNew.toNat ≤ s.result.ids.length then .ok s
  else do
    let result ← appendAccepted cfg
      (history.proposalTokens.toList.take history.acceptedPrefix) s.result
    let s := { s with result }
    if result.ids.length < cfg.maxNew.toNat then
      if cfg.isStop history.continuationToken then return { s with stopped := true }
      let result ← appendGeneratedToken cfg result history.continuationToken
      return { s with result }
    else return s

def consumeHistory (confidence : Status) : Except Status LoopState := do
  refuse (history.status ≠ .ok) .runtime
  refuse (history.acceptedPrefix > draftTokens ∨ history.continuationToken ≥ kVocab ∨
    history.committedTokens > verifyWidth ∨
    (history.committedTokens ≠ 0 ∧ history.committedTokens ≠ history.acceptedPrefix + 1) ∨
    s.position + history.committedTokens > cfg.sessionContext) .runtime
  refuse (¬ history.proposalTokens.toList.all (· < kVocab)) .runtime
  if history.committedTokens = 0 then
    refuse (history.nextPosition ≠ s.position ∨ cfg.isStop history.continuationToken = false)
      .runtime
    return { s with anchor := history.continuationToken, stopped := true }
  else
    let position := s.position + history.committedTokens
    refuse (history.nextPosition ≠ position) .runtime
    refuse (confidence ≠ .ok) confidence
    appendCommitted cfg { s with position, anchor := history.continuationToken } history

def consume : CycleResult → Except Status LoopState
  | .dspark history confidence => consumeHistory cfg s history confidence
  | .nativeMtp native => do
      checkNative cfg s native
      consumeHistory cfg s native.translated .ok

def consumeAll : List CycleResult → LoopState → Except Status LoopState
  | [], s => .ok s
  | record :: records, s => do
      let s ← consume cfg s record
      consumeAll records s

def needed : Nat := (generationTokensRemaining s.result cfg.maxNew).toNat

def cycleCommitLimit : Nat := min (needed cfg s) cfg.maxCommitTokens

def limitedCommitCycle : Bool := cycleCommitLimit cfg s < verifyWidth

def batchCycles : Nat :=
  let boundarySafeCycles := if limitedCommitCycle cfg s then 1 else needed cfg s / verifyWidth
  let cycles := if limitedCommitCycle cfg s then 1 else cfg.chunkCycles
  let safeCycles := (cfg.sessionContext - s.position) / verifyWidth
  min (min cycles boundarySafeCycles) safeCycles

/-- What one pass of the loop meets: the client, the device calls, and the records read back. -/
structure Batch where
  cancelled : Bool
  commitLimitSet : Status
  replay : Status
  records : Nat → CycleResult

variable (batch : Batch)

def batchRecords (s : LoopState) : List CycleResult :=
  (List.range (batchCycles cfg s)).map batch.records

/-- The body of the loop; `none` is its `break` in front of the context boundary. -/
def runBatch (s : LoopState) : Except Status (Option LoopState) := do
  refuse (batch.cancelled = true) .io
  if verifyWidth > cfg.sessionContext - s.position then return none
  refuse (batchCycles cfg s = 0) .budget
  refuse (limitedCommitCycle cfg s = true ∧ batch.commitLimitSet ≠ .ok) batch.commitLimitSet
  refuse (batch.replay ≠ .ok) batch.replay
  let s ← consumeAll cfg (batchRecords cfg batch s) s
  return some s

def loopCondition : Bool := !s.stopped && needed cfg s != 0 && s.position < cfg.sessionContext

inductive LoopEnd where
  | ended (s : LoopState)
  | failed (rc : Status)
  | running (s : LoopState)
  deriving DecidableEq, Repr

def decodeLoop : List Batch → LoopState → LoopEnd
  | batches, s =>
    if loopCondition cfg s = false then .ended s
    else
      match batches with
      | [] => .running s
      | batch :: batches =>
        match runBatch cfg batch s with
        | .error rc => .failed rc
        | .ok none => .ended s
        | .ok (some s) => decodeLoop batches s

def consumedRecords : List Batch → LoopState → List CycleResult
  | [], _ => []
  | batch :: batches, s =>
    if loopCondition cfg s = false then []
    else
      match runBatch cfg batch s with
      | .ok (some s') => batchRecords cfg batch s ++ consumedRecords batches s'
      | _ => []

/-- The part of `end_device_session_exact` that builds the history it hands over. -/
def endDeviceSessionExact (exactPosition : Nat) : Except Status (List Token) := do
  refuse (exactPosition < cfg.prompt.length) .invalidArgument
  refuse (exactPosition ≠ s.position) .runtime
  let generatedToCommit := exactPosition - cfg.prompt.length
  refuse (generatedToCommit > s.result.ids.length) .runtime
  let committedHistory := cfg.prompt ++ s.result.ids.take generatedToCommit
  refuse (committedHistory.length ≠ exactPosition) .runtime
  return committedHistory

/-- The state in front of the loop: the anchor is the first token of the answer. -/
def loopStart (budget : Option OutputBudget) (anchor : Token) : LoopState :=
  ⟨appendToken { budget } anchor, cfg.prompt.length, anchor, false⟩

end

section
variable {cfg : DecodeConfig} {result result' : Generation}

lemma appendGeneratedToken_eq_ok {token : Token}
    (h : appendGeneratedToken cfg result token = .ok result') :
    result' = appendToken result token := by
  obtain ⟨_, h⟩ := refuse_eq_ok.1 h
  obtain ⟨_, h⟩ := refuse_eq_ok.1 h
  exact pure_eq_ok.1 h

variable {tokens : List Token}

lemma appendAccepted_eq_ok (hro : result.ids.length + tokens.length ≤ cfg.maxNew.toNat)
    (h : appendAccepted cfg tokens result = .ok result') :
    result' = tokens.foldl appendToken result := by
  induction tokens generalizing result with
  | nil => exact (Except.ok.inj h).symm
  | cons token tokens ih =>
    rw [length_cons] at hro
    unfold appendAccepted at h
    rw [if_pos (by omega)] at h
    obtain ⟨_, h⟩ := refuse_eq_ok.1 h
    obtain ⟨next, hne, h⟩ := bind_eq_ok.1 h
    rw [appendGeneratedToken_eq_ok hne] at h
    refine ih ?_ h
    change (result.ids ++ [token]).length + _ ≤ _
    rw [length_append, length_singleton]
    omega

variable {history : DeviceHistory}

lemma length_accepted (h : history.acceptedPrefix ≤ 7) :
    (history.proposalTokens.toList.take history.acceptedPrefix).length =
    history.acceptedPrefix := by
  rw [length_take, Vector.length_toList]
  omega

variable {s s' : LoopState}

lemma appendCommitted_eq_ok (h : appendCommitted cfg s history = .ok s')
    (ho : s.stopped = false) (ha : history.acceptedPrefix ≤ 7)
    (hro : s.result.ids.length + (history.acceptedPrefix + 1) ≤ cfg.maxNew.toNat) : s' = { s with
      result := (history.proposalTokens.toList.take history.acceptedPrefix ++
        if cfg.isStop history.continuationToken then [] else [history.continuationToken]).foldl
          appendToken s.result
      stopped := cfg.isStop history.continuationToken } := by
  unfold appendCommitted at h
  rw [if_neg (by rw [ho]; simp; omega)] at h
  obtain ⟨result, hr, h⟩ := bind_eq_ok.1 h
  have hl := length_accepted ha
  have heq := appendAccepted_eq_ok (by omega) hr
  have hi : result.ids.length = s.result.ids.length + history.acceptedPrefix := by
    rw [heq, ids_foldl_appendToken, length_append, hl]
  dsimp only at h
  rw [if_pos (by omega)] at h
  rw [foldl_append, ← heq]
  cases hst : cfg.isStop history.continuationToken with
  | true =>
    rw [if_pos hst] at h
    rw [pure_eq_ok.1 h]
    rfl
  | false =>
    rw [if_neg (by rw [hst]; exact Bool.false_ne_true)] at h
    obtain ⟨next, hn, h⟩ := bind_eq_ok.1 h
    rw [pure_eq_ok.1 h, appendGeneratedToken_eq_ok hn, ho]
    rfl

/-- A record that passes the checks commits nothing at a stop token, or its accepted proposals and
its continuation. -/
lemma consumeHistory_eq_ok {co : Status} (h : consumeHistory cfg s history co = .ok s') :
    (history.committedTokens = 0 ∧ cfg.isStop history.continuationToken ∧
    s' = { s with anchor := history.continuationToken, stopped := true }) ∨
    (history.committedTokens = history.acceptedPrefix + 1 ∧ history.acceptedPrefix ≤ 7 ∧
      appendCommitted cfg { s with
        position := s.position + history.committedTokens
        anchor := history.continuationToken } history = .ok s') := by
  obtain ⟨_, h⟩ := refuse_eq_ok.1 h
  obtain ⟨hr, h⟩ := refuse_eq_ok.1 h
  obtain ⟨_, h⟩ := refuse_eq_ok.1 h
  simp only [not_or, not_and, not_lt, ne_eq, Decidable.not_not] at hr
  split at h
  next hz =>
    obtain ⟨hs, h⟩ := refuse_eq_ok.1 h
    simp only [not_or, Bool.not_eq_false] at hs
    exact .inl ⟨hz, hs.2, pure_eq_ok.1 h⟩
  next hp =>
    obtain ⟨_, h⟩ := refuse_eq_ok.1 h
    obtain ⟨_, h⟩ := refuse_eq_ok.1 h
    exact .inr ⟨hr.2.2.2.1 hp, hr.1, h⟩

variable {record : CycleResult}

lemma consume_eq_ok (h : consume cfg s record = .ok s') :
    ∃ co, consumeHistory cfg s record.history co = .ok s' := by
  cases record with
  | dspark history co => exact ⟨co, h⟩
  | nativeMtp n =>
    obtain ⟨_, _, h⟩ := bind_eq_ok.1 h
    exact ⟨.ok, h⟩

/-- What the device writes: nothing is committed exactly at a stop anchor, and the cycle then
repeats the token. -/
def AsDevice (isStop : Token → Bool) (anchor : Token) (history : DeviceHistory) : Prop :=
  (history.committedTokens = 0 ↔ isStop anchor = true) ∧
    (history.committedTokens = 0 → history.continuationToken = anchor)

instance (isStop : Token → Bool) (anchor : Token) (history : DeviceHistory) :
    Decidable (AsDevice isStop anchor history) :=
  inferInstanceAs (Decidable (_ ∧ _))

/-- The same along the records of a batch: each continuation is the next anchor. -/
def AsDeviceFrom (isStop : Token → Bool) : Token → List CycleResult → Prop
  | _, [] => True
  | anchor, record :: records =>
    AsDevice isStop anchor record.history ∧
      AsDeviceFrom isStop record.history.continuationToken records

def WithinLimit (cfg : DecodeConfig) (batch : Batch) (s : LoopState) : Prop :=
  ∀ record ∈ batchRecords cfg batch s, record.history.committedTokens ≤ cycleCommitLimit cfg s

instance (cfg : DecodeConfig) (batch : Batch) (s : LoopState) :
    Decidable (WithinLimit cfg batch s) :=
  inferInstanceAs (Decidable (∀ _ ∈ _, _))

def EveryBatch (cfg : DecodeConfig) (C : Batch → LoopState → Prop) : List Batch → LoopState → Prop
  | [], _ => True
  | batch :: batches, s =>
    C batch s ∧ ∀ s', runBatch cfg batch s = .ok (some s') → EveryBatch cfg C batches s'

def committedTokens (records : List CycleResult) : List Token :=
  records.flatMap fun record => record.history.tokens

/-- The three counters and the anchor agree; `tokens` are those committed so far. -/
structure Tracks (cfg : DecodeConfig) (first : Token) (s : LoopState) (tokens : List Token) :
    Prop where
  position : s.position = cfg.prompt.length + tokens.length
  ids : first :: tokens = s.result.ids ++ if s.stopped then [s.anchor] else []
  last : s.stopped = false → s.result.ids.getLast? = some s.anchor
  stop : cfg.isStop s.anchor = s.stopped

variable {first : Token}

lemma tracks_start (b : Option OutputBudget) (hf : cfg.isStop first = false) :
    Tracks cfg first (loopStart cfg b first) [] :=
  ⟨rfl, rfl, fun _ => rfl, hf⟩

lemma tokens_of_committed (h : history.committedTokens = history.acceptedPrefix + 1) :
    history.tokens = history.proposalTokens.toList.take history.acceptedPrefix ++
    [history.continuationToken] := by
  rw [DeviceHistory.tokens, if_pos (by omega)]

lemma consume_tracks (ht : Tracks cfg first s tokens)
    (hd : AsDevice cfg.isStop s.anchor record.history) (hr : s.stopped = false →
    s.result.ids.length + record.history.committedTokens ≤ cfg.maxNew.toNat)
    (h : consume cfg s record = .ok s') : Tracks cfg first s' (tokens ++ record.history.tokens) ∧
    s'.anchor = record.history.continuationToken ∧ (s'.stopped = false → s.stopped = false ∧
    s'.result.ids.length = s.result.ids.length + record.history.committedTokens) := by
  obtain ⟨co, h⟩ := consume_eq_ok h
  generalize record.history = history at *
  obtain ⟨hz, hsm⟩ := hd
  rw [ht.stop] at hz
  rcases consumeHistory_eq_ok h with ⟨hn, hsto, rfl⟩ | ⟨hso, ha, hap⟩
  · have hto : history.tokens = [] := by
      rw [DeviceHistory.tokens, if_neg (by omega)]
    have hst : s.stopped := hz.1 hn
    rw [hto, append_nil]
    refine ⟨⟨ht.position, ?_, (fun h => by cases h), hsto⟩, rfl, fun h => by cases h⟩
    have hi := ht.ids
    rw [hst, if_pos rfl] at hi
    rw [hi, if_pos rfl, hsm hn]
  · have ho : s.stopped = false := by
      cases hs : s.stopped with
      | false => rfl
      | true =>
        have := hz.2 hs
        omega
    have hsp := hr ho
    have hi := ht.ids
    rw [ho, if_neg Bool.false_ne_true, append_nil] at hi
    have hl := length_accepted ha
    have heq := appendCommitted_eq_ok hap ho ha (by rw [← hso]; exact hsp)
    rw [tokens_of_committed hso, heq]
    cases hsto : cfg.isStop history.continuationToken with
    | true =>
      refine ⟨⟨?_, ?_, (fun h => by cases h), hsto⟩, rfl, fun h => by cases h⟩
      · change s.position + history.committedTokens = _
        rw [ht.position, length_append, length_append, hl, hso, length_singleton]
        omega
      · change _ = (foldl appendToken s.result _).ids ++ [history.continuationToken]
        rw [ids_foldl_appendToken, ← hi]
        simp
    | false =>
      refine ⟨⟨?_, ?_, ?_, hsto⟩, rfl, fun _ => ⟨ho, ?_⟩⟩
      · change s.position + history.committedTokens = _
        rw [ht.position, length_append, length_append, hl, hso, length_singleton]
        omega
      · change _ = (foldl appendToken s.result _).ids ++ []
        rw [ids_foldl_appendToken, ← hi]
        simp
      · intro _
        change (foldl appendToken s.result _).ids.getLast? = some history.continuationToken
        rw [ids_foldl_appendToken]
        simp
      · change (foldl appendToken s.result _).ids.length = _
        rw [ids_foldl_appendToken, length_append, length_append, hl, hso]
        rfl

variable {records : List CycleResult}

lemma consumeAll_tracks {l : Nat} (ht : Tracks cfg first s tokens)
    (hd : AsDeviceFrom cfg.isStop s.anchor records)
    (hli : ∀ record ∈ records, record.history.committedTokens ≤ l)
    (hro : s.stopped = false → s.result.ids.length + l * records.length ≤ cfg.maxNew.toNat)
    (h : consumeAll cfg records s = .ok s') :
    Tracks cfg first s' (tokens ++ committedTokens records) := by
  induction records generalizing s tokens with
  | nil =>
    rw [← Except.ok.inj h]
    simpa [committedTokens] using ht
  | cons record records ih =>
    obtain ⟨next, hn, h⟩ := bind_eq_ok.1 h
    have hle := hli record (mem_cons_self ..)
    rw [length_cons, mul_succ] at hro
    obtain ⟨hk, ha, hs⟩ := consume_tracks ht hd.1 (fun ho => by have := hro ho; omega) hn
    have hre := ih hk (by rw [ha]; exact hd.2) (fun r hr => hli r (mem_cons_of_mem _ hr))
      (fun ho => by
        obtain ⟨hp, hl⟩ := hs ho
        have := hro hp
        omega) h
    rw [append_assoc] at hre
    exact hre

lemma limit_mul_cycles_le (s : LoopState) : cycleCommitLimit cfg s ≤ 8 →
    cycleCommitLimit cfg s * batchCycles cfg s ≤ needed cfg s := by
  intro hle
  unfold batchCycles limitedCommitCycle verifyWidth
  have hm : cycleCommitLimit cfg s ≤ needed cfg s := min_le_left _ _
  by_cases hl : cycleCommitLimit cfg s < 8
  · simp only [hl, decide_true, if_true]
    calc cycleCommitLimit cfg s * min (min 1 1) _ ≤ cycleCommitLimit cfg s * 1 :=
          mul_le_mul_left _ (le_trans (min_le_left _ _) (min_le_left _ _))
      _ ≤ needed cfg s := by omega
  · simp only [hl, decide_false, Bool.false_eq_true, if_false]
    have he : cycleCommitLimit cfg s = 8 := by omega
    rw [he]
    calc 8 * min (min cfg.chunkCycles (needed cfg s / 8)) _ ≤ 8 * (needed cfg s / 8) :=
          mul_le_mul_left _ (le_trans (min_le_left _ _) (min_le_right _ _))
      _ ≤ needed cfg s := mul_div_le _ _

variable {batch : Batch}

lemma runBatch_eq_some (h : runBatch cfg batch s = .ok (some s')) :
    consumeAll cfg (batchRecords cfg batch s) s = .ok s' := by
  unfold runBatch at h
  obtain ⟨_, h⟩ := refuse_eq_ok.1 h
  split at h
  · cases pure_eq_ok.1 h
  · obtain ⟨_, h⟩ := refuse_eq_ok.1 h
    obtain ⟨_, h⟩ := refuse_eq_ok.1 h
    obtain ⟨_, h⟩ := refuse_eq_ok.1 h
    obtain ⟨next, hn, h⟩ := bind_eq_ok.1 h
    rw [Option.some.inj (pure_eq_ok.1 h)]
    exact hn

lemma length_batchRecords (batch : Batch) (s : LoopState) :
    (batchRecords cfg batch s).length = batchCycles cfg s := by
  rw [batchRecords, length_map, length_range]

lemma runBatch_tracks (hm : cfg.maxCommitTokens ≤ 8) (ht : Tracks cfg first s tokens)
    (hn : needed cfg s ≠ 0) (hl : WithinLimit cfg batch s)
    (hd : AsDeviceFrom cfg.isStop s.anchor (batchRecords cfg batch s))
    (h : runBatch cfg batch s = .ok (some s')) :
    Tracks cfg first s' (tokens ++ committedTokens (batchRecords cfg batch s)) := by
  refine consumeAll_tracks ht hd hl (fun _ => ?_) (runBatch_eq_some h)
  have hcycl := @limit_mul_cycles_le cfg s (le_trans (min_le_right _ _) hm)
  have hle : needed cfg s ≤ cfg.maxNew.toNat - s.result.ids.length :=
    remaining_le s.result cfg.maxNew
  rw [length_batchRecords]
  omega

lemma needed_ne_zero (h : ¬ loopCondition cfg s = false) : needed cfg s ≠ 0 := by
  simp only [loopCondition, Bool.not_eq_false, Bool.and_eq_true, bne_iff_ne, ne_eq] at h
  exact h.1.2

def FromDevice (cfg : DecodeConfig) (batch : Batch) (s : LoopState) : Prop :=
  WithinLimit cfg batch s ∧ AsDeviceFrom cfg.isStop s.anchor (batchRecords cfg batch s)

lemma decodeLoop_tracks (hm : cfg.maxCommitTokens ≤ 8) {bs : List Batch}
    (ht : Tracks cfg first s tokens) (hb : EveryBatch cfg (FromDevice cfg) bs s)
    (h : decodeLoop cfg bs s = .ended s') :
    Tracks cfg first s' (tokens ++ committedTokens (consumedRecords cfg bs s)) := by
  induction bs generalizing s tokens with
  | nil =>
    unfold decodeLoop at h
    split at h
    · rw [← LoopEnd.ended.inj h]
      simpa [consumedRecords, committedTokens] using ht
    · cases h
  | cons batch bs ih =>
    unfold decodeLoop at h
    unfold consumedRecords
    split at h
    next ho =>
      rw [if_pos ho, ← LoopEnd.ended.inj h]
      simpa [committedTokens] using ht
    next hi =>
      rw [if_neg hi]
      obtain ⟨⟨hl, hd⟩, hre⟩ := hb
      dsimp only at h
      cases hba : runBatch cfg batch s with
      | error rc =>
        rw [hba] at h
        cases h
      | ok next =>
        rw [hba] at h
        cases next with
        | none =>
          rw [← LoopEnd.ended.inj h]
          simpa [committedTokens] using ht
        | some next =>
          have hke := runBatch_tracks hm ht (needed_ne_zero hi) hl hd hba
          have hr := ih hke (hre next hba) h
          rw [append_assoc] at hr
          simpa [committedTokens] using hr

/-- The bookkeeping at the end of the loop: position, ids and anchor agree, no committed token is
missing, and the history handed over is the prompt with that many ids. -/
structure Booked (cfg : DecodeConfig) (first : Token) (records : List CycleResult)
    (s : LoopState) : Prop where
  running : s.stopped = false → s.position - cfg.prompt.length + 1 = s.result.ids.length ∧
      s.result.ids.getLast? = some s.anchor ∧
      s.result.ids = first :: committedTokens records
  stopped : s.stopped = true →
    s.position - cfg.prompt.length = s.result.ids.length ∧ cfg.isStop s.anchor = true ∧
      s.result.ids ++ [s.anchor] = first :: committedTokens records
  history : endDeviceSessionExact cfg s s.position =
    .ok (cfg.prompt ++ s.result.ids.take (s.position - cfg.prompt.length))
  exact : (cfg.prompt ++ s.result.ids.take (s.position - cfg.prompt.length)).length = s.position

lemma Tracks.booked (h : Tracks cfg first s (committedTokens records)) :
    Booked cfg first records s := by
  have hpos := h.position
  have hl := congrArg length h.ids
  have hle : s.position - cfg.prompt.length ≤ s.result.ids.length := by
    rw [length_cons, length_append] at hl
    split at hl <;> simp only [length_singleton, length_nil] at hl <;> omega
  have he : (cfg.prompt ++ s.result.ids.take (s.position - cfg.prompt.length)).length =
      s.position := by
    rw [length_append, length_take]
    omega
  refine ⟨?_, ?_, ?_, he⟩
  · intro ho
    have hi := h.ids
    rw [ho, if_neg Bool.false_ne_true, append_nil] at hi
    refine ⟨?_, h.last ho, hi.symm⟩
    rw [← hi, length_cons]
    omega
  · intro hs
    have hi := h.ids
    rw [hs, if_pos rfl] at hi
    refine ⟨?_, h.stop.trans hs, hi.symm⟩
    have hsz := congrArg length hi
    rw [length_cons, length_append, length_singleton] at hsz
    omega
  · unfold endDeviceSessionExact
    rw [refuse_eq_ok]
    refine ⟨by omega, ?_⟩
    rw [refuse_eq_ok]
    refine ⟨by simp, ?_⟩
    rw [refuse_eq_ok]
    refine ⟨by omega, ?_⟩
    rw [refuse_eq_ok]
    exact ⟨by simpa using he, rfl⟩

end

/-- Whenever the loop ends without an error on records as the device writes them, the position, the
ids, the anchor and the history handed over agree. -/
theorem decode_bookkeeping (cfg : DecodeConfig) (budget : Option OutputBudget) (first : Token)
    (batches : List Batch) (s : LoopState) (hmax : cfg.maxCommitTokens ≤ 8)
    (hfirst : cfg.isStop first = false)
    (hbatches : EveryBatch cfg (FromDevice cfg) batches (loopStart cfg budget first))
    (h : decodeLoop cfg batches (loopStart cfg budget first) = .ended s) :
    Booked cfg first (consumedRecords cfg batches (loopStart cfg budget first)) s :=
  (decodeLoop_tracks hmax (tracks_start budget hfirst) hbatches h).booked

/-- A request with room for two cycles of eight, and `9` as its stop token. -/
def twoCycles : DecodeConfig where
  prompt := [1, 2]
  maxNew := 17
  sessionContext := 100
  maxCommitTokens := 8
  chunkCycles := 33
  isStop := (· == 9)
  cancelled := fun _ => false
  emit := fun _ => .ok

def bareRecord (continuation : Token) (nextPosition committed : Nat) : CycleResult :=
  .dspark ⟨Vector.replicate 7 0, 0, continuation, .ok, nextPosition, committed⟩ .ok

def pairBatch (first second : CycleResult) : Batch :=
  ⟨false, .ok, .ok, fun cycle => if cycle = 0 then first else second⟩

theorem decode_bookkeeping_stop :
    decodeLoop twoCycles [pairBatch (bareRecord 9 3 1) (bareRecord 9 3 0)]
        (loopStart twoCycles none 5) = .ended ⟨⟨[5], none⟩, 3, 9, true⟩ ∧
      Booked twoCycles 5 [bareRecord 9 3 1, bareRecord 9 3 0] ⟨⟨[5], none⟩, 3, 9, true⟩ := by
  have hr : decodeLoop twoCycles [pairBatch (bareRecord 9 3 1) (bareRecord 9 3 0)]
      (loopStart twoCycles none 5) = .ended ⟨⟨[5], none⟩, 3, 9, true⟩ := by decide +kernel
  have hre : consumedRecords twoCycles [pairBatch (bareRecord 9 3 1) (bareRecord 9 3 0)]
      (loopStart twoCycles none 5) = [bareRecord 9 3 1, bareRecord 9 3 0] := by decide +kernel
  have hb : batchRecords twoCycles (pairBatch (bareRecord 9 3 1) (bareRecord 9 3 0))
      (loopStart twoCycles none 5) = [bareRecord 9 3 1, bareRecord 9 3 0] := by decide +kernel
  have hbook := decode_bookkeeping twoCycles none 5
    [pairBatch (bareRecord 9 3 1) (bareRecord 9 3 0)] _ (by decide) (by decide)
    ⟨⟨by decide +kernel, by
      rw [hb]
      exact ⟨by decide +kernel, by decide +kernel, trivial⟩⟩, fun _ _ => trivial⟩ hr
  rw [hre] at hbook
  exact ⟨hr, hbook⟩

/-- The checks of the host alone let a cycle commit behind a stop: its token is dropped while the
position moves past it. -/
theorem commit_behind_stop_drops_token :
    let batch := pairBatch (bareRecord 9 3 1) (bareRecord 6 4 1)
    let start := loopStart twoCycles none 5
    let s : LoopState := ⟨⟨[5], none⟩, 4, 6, true⟩
    twoCycles.isStop 5 = false ∧ WithinLimit twoCycles batch start ∧
      (∀ record ∈ consumedRecords twoCycles [batch] start,
        ∀ token ∈ record.history.proposalTokens.toList.take record.history.acceptedPrefix,
          twoCycles.isStop token = false) ∧
      decodeLoop twoCycles [batch] start = .ended s ∧
      ¬ Booked twoCycles 5 (consumedRecords twoCycles [batch] start) s := by
  refine ⟨by decide, by decide +kernel, ?_, by decide +kernel, fun hb => ?_⟩
  · have hre : consumedRecords twoCycles [pairBatch (bareRecord 9 3 1) (bareRecord 6 4 1)]
        (loopStart twoCycles none 5) = [bareRecord 9 3 1, bareRecord 6 4 1] := by decide +kernel
    intro record hr token ht
    rw [hre, mem_pair] at hr
    -- Neither record accepts a proposal.
    rcases hr with rfl | rfl <;> cases ht
  have hpos := (hb.stopped rfl).1
  exact absurd hpos (by decide)

end AxiomKernel.Qwen38.Api
