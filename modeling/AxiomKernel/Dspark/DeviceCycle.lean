import Mathlib
import AxiomKernel.Mtp.DeviceGraph

/-!
# The captured DSpark decode cycle

One replay of the graph that `prepare_device_cycle_graph` captures
(`src/axiom_qwen38_speculative.cpp`, kernels in `src/axiom_qwen38_dspark_compute.cu`), and runs of
it. The step outputs and the status word are cleared at the start of every cycle; the terminal
word is not. The proposal is arbitrary. Positions are at most `max_context`, which fits in 32
bits, and the advance kernel compares them as 64-bit numbers, so they are naturals here.
-/
namespace AxiomKernel.Dspark
open Greedy Machine Option
open List hiding Vector

structure StopPair where
  count : Nat
  token0 : Token
  token1 : Token
  deriving DecidableEq, Repr

variable (stops : StopPair)

def StopPair.isStop (token : Token) : Bool :=
  (0 < stops.count && token == stops.token0) || (1 < stops.count && token == stops.token1)

/-- The terminal word: `0`, `1` (a stop was continued with in this cycle), `2`. -/
inductive Terminal where
  | running
  | stopping
  | stopped
  deriving DecidableEq, Repr

structure DeviceSession where
  history : List Token
  anchor : Token
  position : Nat
  terminal : Terminal
  deriving DecidableEq, Repr

/-- The words that `clear_device_step_state` zeroes. -/
structure StepState where
  acceptedPrefix : Nat
  targetCommitPrefix : Nat
  continuationToken : Token
  continuationLogit : UInt32
  status : Status
  deriving DecidableEq, Repr

def clearDeviceStepState : StepState := ⟨0, 0, 0, 0, .ok⟩

structure CycleInput where
  proposal : Vector Token 7
  logits : Vector UInt32 8
  limit : UInt32

structure DeviceHistory where
  proposalTokens : Vector Token 7
  acceptedPrefix : Nat
  continuationToken : Token
  status : Status
  nextPosition : Nat
  committedTokens : Nat
  deriving DecidableEq, Repr

def DeviceHistory.tokens (r : DeviceHistory) : List Token :=
  if 0 < r.committedTokens then
    r.proposalTokens.toList.take r.acceptedPrefix ++ [r.continuationToken]
  else []

/-- The matching loop; a draft id outside the vocabulary ends the cycle. -/
def matchDraft : List Token → List Token → Option Nat
  | draft :: drafts, target :: targets =>
    if draft ≥ kVocab then none
    else if draft ≠ target then some 0
    else (matchDraft drafts targets).map (· + 1)
  | _, _ => some 0

def clampAtStop (proposal : List Token) (accepted : Nat) : Nat :=
  ((proposal.take accepted).findIdx? stops.isStop).getD accepted

def acceptGreedy (anchor : Token) (proposal : Vector Token 7)
    (target : Vector Token 8) (logits : Vector UInt32 8) (limit : UInt32) (terminal : Terminal)
    (step : StepState) : StepState × Terminal :=
  if terminal ≠ .running then
    ({ step with
        acceptedPrefix := 0
        targetCommitPrefix := 0
        continuationToken := anchor
        continuationLogit := 0 }, .stopped)
  else if limit = 0 ∨ limit > 8 then ({ step with status := .invalidArgument }, terminal)
  else if (target.toList.zip logits.toList).any fun row => row.1 ≥ kVocab || !isFinite row.2 then
    ({ step with status := .runtime }, terminal)
  else
    match matchDraft proposal.toList target.toList with
    | none => ({ step with status := .runtime }, terminal)
    | some matched =>
      let accepted := clampAtStop stops proposal.toList (min matched (limit.toNat - 1))
      let continuation := target.toList.getD accepted 0
      ({ step with
          acceptedPrefix := accepted
          targetCommitPrefix := accepted + 1
          continuationToken := continuation
          continuationLogit := logits.toList.getD accepted 0 },
        if stops.isStop continuation then .stopping else terminal)

def injectTarget (maxContext position : Nat) (status : Status) : Status :=
  if status ≠ .ok then status
  else if position ≥ maxContext then .invalidArgument
  else status

def advanceDevicePosition (maxContext : Nat) (s : DeviceSession) (step : StepState)
    (terminal : Terminal) : (Token × Nat × Terminal) × Status :=
  if step.status ≠ .ok then ((s.anchor, s.position, terminal), step.status)
  else if terminal = .stopped then ((s.anchor, s.position, terminal), step.status)
  else if step.acceptedPrefix > 7 ∨ s.position > maxContext ∨
      s.position + 1 + step.acceptedPrefix > maxContext then
    ((s.anchor, s.position, terminal), .invalidArgument)
  else
    ((step.continuationToken, s.position + 1 + step.acceptedPrefix,
      if terminal = .stopping then .stopped else terminal), step.status)

def cycle (f : List Token → Token) (maxContext : Nat) (stops : StopPair) (s : DeviceSession)
    (c : CycleInput) : DeviceSession × DeviceHistory :=
  let verify := verifyTokens s.anchor c.proposal
  let target := targetVerify f s.history verify
  let (step, terminal) :=
    acceptGreedy stops s.anchor c.proposal target c.logits c.limit s.terminal clearDeviceStepState
  let step := { step with status := injectTarget maxContext s.position step.status }
  let rows := finalizeRows step.targetCommitPrefix step.status
  let ((anchor, position, terminal), status) := advanceDevicePosition maxContext s step terminal
  (⟨s.history ++ verify.toList.take rows, anchor, position, terminal⟩,
    ⟨c.proposal, step.acceptedPrefix, step.continuationToken, status, position,
      step.targetCommitPrefix⟩)

lemma matchDraft_eq {ds targets : List Token} {k : Nat}
    (h : matchDraft ds targets = some k) : k = matchLength ds targets := by
  induction ds generalizing targets k with
  | nil => simpa [matchDraft, matchLength] using h.symm
  | cons d ds ih =>
    cases targets with
    | nil => simpa [matchDraft, matchLength] using h.symm
    | cons ta targets =>
      unfold matchDraft at h
      split at h
      · cases h
      · split at h
        · rename_i hn
          simpa [matchLength, hn] using h.symm
        · rename_i he
          obtain ⟨j, hj, rfl⟩ := map_eq_some_iff.1 h
          simp [matchLength, not_not.1 he, ih hj]

section
variable (stops : StopPair) (proposal : List Token) (accepted : Nat)

lemma clampAtStop_le : clampAtStop stops proposal accepted ≤ accepted := by
  unfold clampAtStop
  cases h : (proposal.take accepted).findIdx? stops.isStop with
  | none => exact Nat.le_refl _
  | some i =>
    obtain ⟨hl, -⟩ := findIdx?_eq_some_iff_getElem.1 h
    rw [length_take] at hl
    rw [getD_some]
    omega

lemma clampAtStop_clear :
    ∀ token ∈ proposal.take (clampAtStop stops proposal accepted), stops.isStop token = false := by
  unfold clampAtStop
  cases h : (proposal.take accepted).findIdx? stops.isStop with
  | none => exact findIdx?_eq_none_iff.1 h
  | some index =>
    obtain ⟨hlt, -, hp⟩ := findIdx?_eq_some_iff_getElem.1 h
    intro token ht
    obtain ⟨j, hj, rfl⟩ := mem_iff_getElem.1 ht
    rw [getD_some, length_take] at hj
    simpa using hp j (by omega)

end

/-- A running acceptance from cleared step state reports an error and commits nothing, or accepts
a matching part of the proposal with the target row after it. -/
lemma acceptGreedy_cases (stops : StopPair) (anchor : Token) (proposal : Vector Token 7)
    (target : Vector Token 8) (logits : Vector UInt32 8) (limit : UInt32) {step : StepState}
    {terminal : Terminal}
    (h : acceptGreedy stops anchor proposal target logits limit .running clearDeviceStepState =
    (step, terminal)) :
    (step.status ≠ .ok ∧ step.acceptedPrefix = 0 ∧ step.targetCommitPrefix = 0 ∧
    terminal = .running) ∨
    (step.status = .ok ∧ step.targetCommitPrefix = step.acceptedPrefix + 1 ∧
    step.acceptedPrefix ≤ matchLength proposal.toList target.toList ∧
    step.acceptedPrefix + 1 ≤ limit.toNat ∧ step.acceptedPrefix ≤ 7 ∧
    target.toList[step.acceptedPrefix]? = some step.continuationToken ∧
    (∀ token ∈ proposal.toList.take step.acceptedPrefix, stops.isStop token = false) ∧
    terminal = if stops.isStop step.continuationToken then .stopping else .running) := by
  unfold acceptGreedy at h
  rw [if_neg (by simp)] at h
  split at h
  · cases h
    exact .inl ⟨by decide, rfl, rfl, rfl⟩
  rename_i hlim
  split at h
  · cases h
    exact .inl ⟨by decide, rfl, rfl, rfl⟩
  split at h
  · cases h
    exact .inl ⟨by decide, rfl, rfl, rfl⟩
  rename_i matched hma
  cases h
  right
  have hpos : 1 ≤ limit.toNat := by
    have : limit.toNat ≠ 0 := fun h0 => hlim (.inl (UInt32.toNat_inj.1 h0))
    omega
  have hm := matchDraft_eq hma
  have hl := matchLength_le_left proposal.toList target.toList
  have hcl := clampAtStop_le stops proposal.toList (min matched (limit.toNat - 1))
  rw [Vector.length_toList] at hl
  refine ⟨rfl, rfl, by dsimp only; omega, by dsimp only; omega, by dsimp only; omega, ?_,
    clampAtStop_clear _ _ _, rfl⟩
  dsimp only
  rw [getD_eq_getElem?_getD, List.getElem?_eq_getElem (by simp; omega), getD_some]

def DeviceSession.context (s : DeviceSession) : Context Token := ⟨s.history, s.anchor⟩

structure Idle (s s' : DeviceSession) (r : DeviceHistory) : Prop where
  committed : r.committedTokens = 0
  history : s'.history = s.history
  anchor : s'.anchor = s.anchor
  position : s'.position = s.position
  next : r.nextPosition = s.position
  terminal : s'.terminal = if s.terminal = .running then .running else .stopped

structure Advance (f : List Token → Token) (stops : StopPair) (limit : UInt32)
    (s s' : DeviceSession) (r : DeviceHistory) : Prop where
  running : s.terminal = .running
  accepted : r.committedTokens = r.acceptedPrefix + 1
  length : r.tokens.length = r.committedTokens
  le_limit : r.committedTokens ≤ limit.toNat
  status : r.status = .ok
  cycle : stops.isStop s.anchor = false → Cycle f stops.isStop s.context r.tokens s'.context
  position : s'.position = s.position + r.committedTokens
  next : r.nextPosition = s'.position
  terminal : s'.terminal = if stops.isStop s'.anchor then .stopped else .running

variable {maxContext : Nat} {s : DeviceSession}

lemma cycle_cases (f : List Token → Token) (stops : StopPair) (c : CycleInput)
    (hro : s.position + 8 ≤ maxContext) :
    Idle s (cycle f maxContext stops s c).1 (cycle f maxContext stops s c).2 ∨
    Advance f stops c.limit s (cycle f maxContext stops s c).1
    (cycle f maxContext stops s c).2 := by
  by_cases hte : s.terminal = .running
  case neg =>
    left
    constructor <;>
      simp [cycle, acceptGreedy, hte, clearDeviceStepState, injectTarget, finalizeRows,
        advanceDevicePosition, show ¬ maxContext ≤ s.position by omega]
  rcases hacc : acceptGreedy stops s.anchor c.proposal
    (targetVerify f s.history (verifyTokens s.anchor c.proposal)) c.logits c.limit .running
    clearDeviceStepState with ⟨step, terminal⟩
  rcases acceptGreedy_cases _ _ _ _ _ _ hacc with
    ⟨hne, hp, hco, rfl⟩ | ⟨hok, hco, hma, hlim, h7, hrow, hcl, rfl⟩
  · left
    constructor <;>
      simp [cycle, hacc, hte, injectTarget, finalizeRows, advanceDevicePosition, hne, hco]
  · right
    rw [toList_targetVerify, toList_verifyTokens] at hma hrow
    have hl : (c.proposal.toList.take step.acceptedPrefix).length = step.acceptedPrefix := by
      simp; omega
    have hrows : finalizeRows (step.acceptedPrefix + 1) .ok = step.acceptedPrefix + 1 := by
      simp only [finalizeRows]; rw [if_neg]; simp; omega
    have hcy : cycle f maxContext stops s c =
        (⟨s.history ++ s.anchor :: c.proposal.toList.take step.acceptedPrefix,
          step.continuationToken, s.position + 1 + step.acceptedPrefix,
          if stops.isStop step.continuationToken then .stopped else .running⟩,
        ⟨c.proposal, step.acceptedPrefix, step.continuationToken, .ok,
          s.position + 1 + step.acceptedPrefix, step.acceptedPrefix + 1⟩) := by
      have hinj : injectTarget maxContext s.position .ok = .ok := by
        simp [injectTarget, show ¬ maxContext ≤ s.position by omega]
      have hfit : ¬ (7 < step.acceptedPrefix ∨ maxContext < s.position ∨
          maxContext < s.position + 1 + step.acceptedPrefix) := by omega
      cases hst : stops.isStop step.continuationToken <;>
        simp [cycle, hacc, hte, hok, hinj, hco, hrows, advanceDevicePosition, hfit, hst]
    rw [hcy]
    have htok : DeviceHistory.tokens ⟨c.proposal, step.acceptedPrefix, step.continuationToken,
        .ok, s.position + 1 + step.acceptedPrefix, step.acceptedPrefix + 1⟩ =
        c.proposal.toList.take step.acceptedPrefix ++ [step.continuationToken] := by
      simp [DeviceHistory.tokens]
    refine ⟨hte, rfl, ?_, ?_, rfl, ?_, ?_, rfl, rfl⟩
    · simp [htok, hl]
    · exact hlim
    · intro hr
      rw [htok]
      exact Cycle.of_accepted (c := s.context) hr hma hrow hcl
    · simp only []; omega

variable {r : DeviceHistory} {f : List Token → Token} {stops : StopPair}
  {records : List DeviceHistory}

lemma Idle.tokens {s' : DeviceSession} (h : Idle s s' r) : r.tokens = [] := by
  simp [DeviceHistory.tokens, h.committed]

def recordTokens (records : List DeviceHistory) : List Token := records.flatMap DeviceHistory.tokens

def committedTotal (records : List DeviceHistory) : Nat :=
  (records.map DeviceHistory.committedTokens).sum

section
variable (records : List DeviceHistory) (r : DeviceHistory)

@[simp] lemma recordTokens_append_singleton :
    recordTokens (records ++ [r]) = recordTokens records ++ r.tokens := by
  simp [recordTokens]

@[simp] lemma committedTotal_append_singleton :
    committedTotal (records ++ [r]) = committedTotal records + r.committedTokens := by
  simp [committedTotal]

end

/-- What a run from `start` keeps between the session and its records. The terminal word says
whether the anchor is a stop. -/
structure Tracks (f : List Token → Token) (stops : StopPair) (start s : DeviceSession)
    (records : List DeviceHistory) : Prop where
  emitted : Emitted f stops.isStop start.context (recordTokens records) s.context
  position : s.position = start.position + committedTotal records
  terminal : s.terminal = if stops.isStop s.anchor then .stopped else .running

def Room (maxContext : Nat) (s : DeviceSession) (_ : CycleInput) : Prop :=
  s.position + 8 ≤ maxContext

instance (maxContext : Nat) (s : DeviceSession) (c : CycleInput) :
    Decidable (Room maxContext s c) := inferInstanceAs (Decidable (_ ≤ _))

lemma Tracks.cycle {maxContext : Nat} {st s : DeviceSession} {c : CycleInput}
    (h : Tracks f stops st s records) (hro : Room maxContext s c) :
    Tracks f stops st (cycle f maxContext stops s c).1
    (records ++ [(cycle f maxContext stops s c).2]) := by
  rcases cycle_cases f stops c hro with hi | hadv
  · have hc : (Dspark.cycle f maxContext stops s c).1.context = s.context := by
      simp [DeviceSession.context, hi.history, hi.anchor]
    refine ⟨?_, ?_, ?_⟩
    · simpa [hi.tokens, hc] using h.emitted
    · simpa [hi.committed, hi.position] using h.position
    · rw [hi.terminal, hi.anchor, h.terminal]
      cases stops.isStop s.anchor <;> rfl
  · have hr : stops.isStop s.anchor = false := by
      have := h.terminal
      rw [hadv.running] at this
      cases hs : stops.isStop s.anchor
      · rfl
      · simp [hs] at this
    refine ⟨?_, ?_, hadv.terminal⟩
    · simpa using h.emitted.append (hadv.cycle hr)
    · rw [hadv.position, h.position, committedTotal_append_singleton]
      omega

variable {cycles : List CycleInput}

lemma run_tracks (f : List Token → Token) (stops : StopPair)
    (ha : stops.isStop s.anchor = false) (ht : s.terminal = .running)
    (hr : Meets (cycle f maxContext stops) (Room maxContext) s cycles) :
    Tracks f stops s (run (cycle f maxContext stops) s cycles)
    (outputs (cycle f maxContext stops) s cycles) := by
  exact run_trace_of_meets (P := Tracks f stops s) (fun _ _ _ hP hC => hP.cycle hC)
    ⟨emitted_start .., rfl, by simp [ha, ht]⟩ hr

lemma run_stopped (ht : s.terminal = .stopped)
    (hro : Meets (cycle f maxContext stops) (Room maxContext) s cycles) :
    (run (cycle f maxContext stops) s cycles).anchor = s.anchor ∧
    (run (cycle f maxContext stops) s cycles).position = s.position ∧
    ∀ r ∈ outputs (cycle f maxContext stops) s cycles, r.committedTokens = 0 := by
  induction cycles generalizing s with
  | nil => simp
  | cons c cycles ih =>
    have hi : Idle s (cycle f maxContext stops s c).1 (cycle f maxContext stops s c).2 := by
      rcases cycle_cases f stops c hro.1 with hi | hadv
      · exact hi
      · rw [hadv.running] at ht
        cases ht
    have hn : (cycle f maxContext stops s c).1.terminal = .stopped := by
      rw [hi.terminal, ht]
      rfl
    obtain ⟨ha, hp, hre⟩ := ih hn hro.2
    refine ⟨ha.trans hi.anchor, hp.trans hi.position, ?_⟩
    intro r hr
    rcases mem_cons.1 hr with rfl | hr
    · exact hi.committed
    · exact hre r hr

lemma outputs_accepted (hr : Meets (cycle f maxContext stops) (Room maxContext) s cycles) :
    ∀ r ∈ outputs (cycle f maxContext stops) s cycles,
    0 < r.committedTokens ↔ r.committedTokens = r.acceptedPrefix + 1 := by
  refine forall_outputs (fun s c hs => ?_) hr
  rcases cycle_cases f stops c hs with hi | hadv
  · simp [hi.committed]
  · simp [hadv.accepted]

lemma stop_mem_recordTokens (hr : r ∈ records) (hc : 0 < r.committedTokens) :
    r.continuationToken ∈ recordTokens records := by
  refine mem_flatMap.2 ⟨r, hr, ?_⟩
  simp [DeviceHistory.tokens, hc]

/-- Every run of the captured cycle in which each cycle starts with room for the verify block is
lossless: the tokens read from the records are greedy output of `f` from the anchor, cut right
after the first stop; a record commits exactly its accepted prefix and the continuation; the
positions count the committed tokens; and after a stop nothing commits or moves. -/
theorem deviceCycle_lossless (f : List Token → Token) {maxContext : Nat} (stops : StopPair)
    {s : DeviceSession} (hanchor : stops.isStop s.anchor = false) (hterm : s.terminal = .running)
    {cycles : List CycleInput}
    (hroom : Meets (cycle f maxContext stops) (Room maxContext) s cycles) :
    CutGreedy f stops.isStop (s.history ++ [s.anchor])
        (recordTokens (outputs (cycle f maxContext stops) s cycles)) ∧
      (∀ r ∈ outputs (cycle f maxContext stops) s cycles,
        0 < r.committedTokens ↔ r.committedTokens = r.acceptedPrefix + 1) ∧
      (∀ before c after, cycles = before ++ c :: after →
        (cycle f maxContext stops (run (cycle f maxContext stops) s before) c).2.nextPosition =
          s.position + committedTotal (outputs (cycle f maxContext stops) s (before ++ [c]))) ∧
      ∀ before after, cycles = before ++ after → (∃ r ∈ outputs (cycle f maxContext stops) s before,
          0 < r.committedTokens ∧ stops.isStop r.continuationToken = true) →
        (∀ r ∈ outputs (cycle f maxContext stops)
            (run (cycle f maxContext stops) s before) after, r.committedTokens = 0) ∧
          (run (cycle f maxContext stops) s cycles).anchor =
            (run (cycle f maxContext stops) s before).anchor ∧
          (run (cycle f maxContext stops) s cycles).position =
            (run (cycle f maxContext stops) s before).position := by
  refine ⟨(run_tracks f stops hanchor hterm hroom).emitted.cutGreedy, outputs_accepted hroom, ?_,
    ?_⟩
  · rintro before c after rfl
    rw [append_cons, meets_append] at hroom
    have htrac := run_tracks f stops hanchor hterm hroom.1
    rw [meets_append] at hroom
    rw [← htrac.position, run_append]
    rcases cycle_cases f stops c hroom.1.2.1 with hi | hadv
    · exact hi.next.trans hi.position.symm
    · exact hadv.next
  · rintro before after rfl ⟨r, hr, hc, hs⟩
    rw [meets_append] at hroom
    have htrac := run_tracks f stops hanchor hterm hroom.1
    have hanch' := htrac.emitted.anchor_stop
      (mem_cons_of_mem _ (stop_mem_recordTokens hr hc)) hs
    have hst : (run (cycle f maxContext stops) s before).terminal = .stopped := by
      rw [htrac.terminal]
      exact if_pos hanch'
    obtain ⟨ha, hp, hrs⟩ := run_stopped hst hroom.2
    rw [run_append]
    exact ⟨hrs, ha, hp⟩

/-! A target that counts its history, a context of eight tokens and no stop ids. -/

def exampleTarget (h : List Token) : Token := UInt32.ofNat h.length

def exampleStart : DeviceSession := ⟨[], 40, 0, .running⟩

def exampleCycle (limit : UInt32) : CycleInput :=
  ⟨#v[1, 2, 3, 9, 9, 9, 9], Vector.replicate 8 0, limit⟩

/-- Two cycles with a stop at `3`: the first commits `1, 2, 3`, the second nothing. -/
theorem deviceCycle_lossless_stops : Meets (cycle exampleTarget 32 ⟨1, 3, 0⟩) (Room 32) exampleStart
        [exampleCycle 8, exampleCycle 8] ∧ ∀ r ∈ outputs (cycle exampleTarget 32 ⟨1, 3, 0⟩)
        (run (cycle exampleTarget 32 ⟨1, 3, 0⟩) exampleStart [exampleCycle 8])
        [exampleCycle 8], r.committedTokens = 0 := by
  have hr : Meets (cycle exampleTarget 32 ⟨1, 3, 0⟩) (Room 32) exampleStart
      [exampleCycle 8, exampleCycle 8] := ⟨by decide, by decide +kernel, trivial⟩
  exact ⟨hr, ((deviceCycle_lossless exampleTarget ⟨1, 3, 0⟩ (by decide) rfl hr).2.2.2
    [exampleCycle 8] [exampleCycle 8] rfl
    ⟨_, mem_singleton_self _, by decide +kernel, by decide +kernel⟩).1⟩

/-- Without room in the later cycles the records go wrong: from position `0` with a context of
eight tokens, the ninth and tenth cycle commit in their records, report an error and move nothing,
so their token is read twice and the position no longer counts the committed tokens. -/
theorem deviceCycle_past_context : Room 8 exampleStart (exampleCycle 1) ∧
      StopPair.isStop ⟨0, 0, 0⟩ exampleStart.anchor = false ∧
      ¬ CutGreedy exampleTarget (StopPair.isStop ⟨0, 0, 0⟩)
        (exampleStart.history ++ [exampleStart.anchor])
        (recordTokens (outputs (cycle exampleTarget 8 ⟨0, 0, 0⟩) exampleStart
          (List.replicate 10 (exampleCycle 1)))) ∧
      (run (cycle exampleTarget 8 ⟨0, 0, 0⟩) exampleStart
        (List.replicate 10 (exampleCycle 1))).position = 8 ∧
      committedTotal (outputs (cycle exampleTarget 8 ⟨0, 0, 0⟩) exampleStart
        (List.replicate 10 (exampleCycle 1))) = 10 := by
  refine ⟨by decide, by decide, ?_, by decide +kernel, by decide +kernel⟩
  rw [cutGreedy_iff]
  decide +kernel

/-- The texts that runs of either captured graph emit from one history and anchor, with one target
and one set of stop tokens, whatever the proposals, limits and statuses are. -/
inductive Decodes (H : Type*) (f : List Token → Token) (stop : Token → Bool) (c : Context Token) :
    List Token → Prop where
  | mtp (stops : Mtp.StopTokens) (s : Mtp.DeviceSession H) (cycles : List (Mtp.CycleInput H)) :
    Mtp.tokenIsStop stops = stop → s.context = c →
      Decodes H f stop c (Mtp.emittedTokens (outputs (Mtp.cycle f stops) s cycles))
  | dspark (stops : StopPair) (maxContext : Nat) (s : DeviceSession) (cycles : List CycleInput) :
    stops.isStop = stop → s.context = c → stop c.anchor = false → s.terminal = .running →
      Meets (cycle f maxContext stops) (Room maxContext) s cycles →
      Decodes H f stop c (recordTokens (outputs (cycle f maxContext stops) s cycles))

lemma Decodes.cutGreedy {H : Type*} {stop : Token → Bool} {c : Context Token} {out : List Token}
    (h : Decodes H f stop c out) : CutGreedy f stop c.text out := by
  cases h with
  | mtp stops s cycles hstop hc =>
    subst hstop hc
    exact (Mtp.run_tracks f stops s cycles).emitted.cutGreedy
  | dspark stops maxContext s cycles hstop hc ha ht hr =>
    subst hstop hc
    exact (run_tracks f stops ha ht hr).emitted.cutGreedy

/-- Neither the drafts nor the choice of the graph changes the text: of two texts decoded from one
context one begins the other, and two that came to a stop are equal. -/
theorem drafts_never_change_text (H : Type*) (f : List Token → Token) (stop : Token → Bool)
    (c : Context Token) :
    (∀ out out', Decodes H f stop c out → Decodes H f stop c out' → out <+: out' ∨ out' <+: out) ∧
    ∀ out out', Decodes H f stop c out → Decodes H f stop c out' →
      out.any stop → out'.any stop → out = out' :=
  ⟨fun _ _ h h' => h.cutGreedy.comparable h'.cutGreedy,
    fun _ _ h h' => h.cutGreedy.eq_of_stops h'.cutGreedy⟩

end AxiomKernel.Dspark
