import Mathlib
import AxiomKernel.Qwen4exp.DriverDiscipline

/-! Whole runs of the speculative driver: any sequence of its public calls, with endpoints that
answer in any way. -/
namespace AxiomKernel.Qwen4exp

open Trace DraftEvent Driver Machine Option

/-- The public calls that change the driver; `current_proposal` and `view` only read it. -/
inductive DriverCall where
  | targetOnly (input : Token) (generation : TextGenerationConfig) (hasResult : Bool)
  | propose (inputs : SpeculativeDraftInputs) (hasProposal : Bool)
  | verify (input : Token) (generation : TextGenerationConfig) (hasResult : Bool)
  | commitContext
  | commitOpenForBlock (hasProposal : Bool)
  | recordNativeBlock (verifiedRows acceptedDrafts emittedTokens : UInt64)
  | step (input : Token) (generation : TextGenerationConfig)
      (draftInputs : Option SpeculativeDraftInputs) (hasResult : Bool)
  | disconnect
  | reset
  | disableDraft
  deriving DecidableEq, Repr

namespace DriverCall

def decodes : DriverCall → Option (Token × TextGenerationConfig)
  | .targetOnly input generation _ => some (input, generation)
  | .verify input generation _ => some (input, generation)
  | .step input generation _ _ => some (input, generation)
  | _ => none

def verifies : DriverCall → Bool
  | .verify _ _ _ => true
  | .step _ _ _ _ => true
  | _ => false

def isNativeBlock : DriverCall → Bool
  | .recordNativeBlock _ _ _ => true
  | _ => false

end DriverCall

variable {T D : Type} (E : Endpoints T D)

/-- One public call: the new world, the status and the step result it returns. -/
def callDriver (w : DriverWorld T D) :
    DriverCall → DriverWorld T D × SpeculativeStatus × Option SpeculativeStepResult
  | .targetOnly input generation hasResult =>
    let (w', a) := targetOnly E input generation hasResult w
    (w', a.status, a.output)
  | .propose inputs hasProposal =>
    let (w', a) := propose E inputs hasProposal w
    (w', a.status, none)
  | .verify input generation hasResult =>
    let (w', a) := verify E input generation hasResult w
    (w', a.status, a.output)
  | .commitContext =>
    let (w', a) := commitContext E w
    (w', a.status, none)
  | .commitOpenForBlock hasProposal =>
    let (w', a) := commitOpenForBlock E hasProposal w
    (w', a.status, none)
  | .recordNativeBlock verifiedRows acceptedDrafts emittedTokens =>
    (⟨w.driver.recordNativeBlock verifiedRows acceptedDrafts emittedTokens, w.target, w.draft⟩,
      .ok, none)
  | .step input generation draftInputs hasResult =>
    let (w', a) := Driver.step E input generation draftInputs hasResult w
    (w', a.status, a.output)
  | .disconnect =>
    let (w', a) := disconnect E w
    (w', a.status, none)
  | .reset =>
    let (w', a) := Driver.reset E w
    (w', a.status, none)
  | .disableDraft => (disableDraft E w, .ok, none)

structure DriverRecord where
  call : DriverCall
  status : SpeculativeStatus
  result : Option SpeculativeStepResult
  targetEvents : List TargetEvent
  draftEvents : List DraftEvent

variable (w : ObservedWorld T D)

/-- One call over observed endpoints. A reset that returned ok is noted among the draft calls. -/
def observedCall (c : DriverCall) : ObservedWorld T D × DriverRecord :=
  let (w', status, result) := callDriver E.observed w c
  let log := if c = .reset ∧ status = .ok then w'.draft.2 ++ [.driverReset] else w'.draft.2
  (⟨w'.driver, w'.target, (w'.draft.1, log)⟩,
    ⟨c, status, result, w'.target.2.drop w.target.2.length, w'.draft.2.drop w.draft.2.length⟩)

def startWorld (t : T) (d : D) : ObservedWorld T D := ⟨Driver.create E, (t, []), (d, [])⟩

/-- The condition on a step: where `commit_open_for_block` reaches the draft's commit, that commit
leaves no transaction open. -/
def BlockCommitCloses : DriverCall → Prop
  | .commitOpenForBlock hasProposal =>
    hasProposal = true → w.driver.commitReady = true → ∀ e ∈ E.draft,
      e.transactionOpen (e.commit w.draft.1).1 = false
  | _ => True

lemma observedCall_path {E : Endpoints T D} (hE : E.Lawful) (w : ObservedWorld T D)
    (c : DriverCall) :
    ∃ l, Ledger.Path (ledger E w) l ∧ (ledger E (observedCall E w c).1).enabled = l.enabled ∧
    (ledger E (observedCall E w c).1).log = l.log ∧
    (BlockCommitCloses E w c → ledger E (observedCall E w c).1 = l) := by
  cases c with
  | targetOnly i g hr =>
    refine ⟨_, ?_, rfl, rfl, fun _ => rfl⟩
    have h := targetOnly_ledger E i g hr w
    simp only [observedCall, callDriver, reduceCtorEq, false_and, if_false]
    exact h ▸ .refl
  | propose inp hp => exact ⟨_, propose_path hE inp hp w, rfl, rfl, fun _ => rfl⟩
  | verify i g hr =>
    exact ⟨_, verify_path hE i g hr w, rfl, rfl, fun _ => rfl⟩
  | commitContext => exact ⟨_, commitContext_path hE w, rfl, rfl, fun _ => rfl⟩
  | commitOpenForBlock hp => exact commitOpenForBlock_path E hp w
  | recordNativeBlock vr ad et =>
    exact ⟨_, .refl, rfl, rfl, fun _ => rfl⟩
  | step i g di hr =>
    exact ⟨_, step_path hE i g di hr w, rfl, rfl, fun _ => rfl⟩
  | disconnect => exact ⟨_, disconnect_path hE w, rfl, rfl, fun _ => rfl⟩
  | reset =>
    rcases h : Driver.reset E.observed w with ⟨w', a⟩
    have hpa := reset_path hE w h
    refine ⟨_, hpa, ?_⟩
    simp only [observedCall, callDriver, h, true_and]
    split <;> exact ⟨rfl, rfl, fun _ => rfl⟩
  | disableDraft => exact ⟨_, disableDraft_path hE w, rfl, rfl, fun _ => rfl⟩

/-- A record of a decoding call that returned ok shows one decode, with the result returned. -/
def DriverRecord.DecodesOnce (r : DriverRecord) : Prop :=
  ∀ input generation, r.call.decodes = some (input, generation) → r.status = .ok →
    ∃ result, r.result = some result ∧
      r.targetEvents = [.decode input generation .ok result.authoritative]

lemma decodesOnce_of {i : Token} {g : TextGenerationConfig} {w w' : ObservedWorld T D}
    {a : Answer SpeculativeStepResult} (h : DecodedOnce i g w w' a) :
    a.status = .ok → ∃ re, a.output = some re ∧
    w'.target.2.drop w.target.2.length = [.decode i g .ok re.authoritative] := by
  intro ho
  obtain ⟨re, hr, hl⟩ := h ho
  exact ⟨re, hr, by simp [hl]⟩

lemma observedCall_decodesOnce (c : DriverCall) : (observedCall E w c).2.DecodesOnce := by
  intro i g hc ho
  cases c with
  | targetOnly i' g' hr =>
    cases hc
    exact decodesOnce_of (targetOnly_decodedOnce rfl) ho
  | verify i' g' hr =>
    cases hc
    exact decodesOnce_of (verify_effect E _ _ hr w rfl).1 ho
  | step i' g' di hr =>
    cases hc
    exact decodesOnce_of (step_effect E _ _ di hr w rfl).1 ho
  | propose | commitContext | commitOpenForBlock | recordNativeBlock | disconnect | reset
  | disableDraft => simp [observedCall, DriverCall.decodes] at hc

variable (records : List DriverRecord)

/-- The commit failures that happened inside `verify`, alone or in a `step`. -/
def verifyCommitFailures : Nat :=
  ((records.filter (·.call.verifies)).map (·.draftEvents.countP commitFailed)).sum

lemma verifyCommitFailures_append_singleton (r : DriverRecord) :
    verifyCommitFailures (records ++ [r]) = verifyCommitFailures records +
    if r.call.verifies then r.draftEvents.countP commitFailed else 0 := by
  cases h : r.call.verifies <;> simp [verifyCommitFailures, h]

lemma unsettled_of_settles {w w' : ObservedWorld T D} (h : Settles w w') : w'.driver.unsettled =
    w.driver.unsettled +
    UInt64.ofNat ((w'.draft.2.drop w.draft.2.length).countP commitFailed) := by
  obtain ⟨es, hl, hc⟩ := h
  rw [hc, hl]
  simp [commitFailures]

/-- A call other than a recorded native block leaves unsettled exactly what its verification
failed to commit. -/
lemma observedCall_unsettled (E : Endpoints T D) (w : ObservedWorld T D) {c : DriverCall}
    (hc : c.isNativeBlock = false) :
    (observedCall E w c).1.driver.unsettled = w.driver.unsettled +
    UInt64.ofNat (if c.verifies then
    (observedCall E w c).2.draftEvents.countP commitFailed else 0) := by
  have hz : ∀ u : UInt64, u + UInt64.ofNat 0 = u := fun u => UInt64.add_zero u
  cases c with
  | verify i g hr =>
    exact unsettled_of_settles (verify_effect E i g hr w rfl).2
  | step i g di hr =>
    exact unsettled_of_settles (step_effect E i g di hr w rfl).2
  | targetOnly i g hr =>
    exact (targetOnly_unsettled E i g hr w).trans (hz _).symm
  | propose inp hp =>
    exact (propose_untouched E inp hp w).counters.trans (hz _).symm
  | commitContext => exact (commitContext_unsettled E w).trans (hz _).symm
  | commitOpenForBlock hp =>
    exact (commitOpenForBlock_unsettled E hp w).trans (hz _).symm
  | recordNativeBlock => simp [DriverCall.isNativeBlock] at hc
  | disconnect => exact (disconnect_unsettled E w).trans (hz _).symm
  | reset => exact (reset_unsettled E w).trans (hz _).symm
  | disableDraft => exact (abortOpen_untouched E false w).counters.trans (hz _).symm

section

variable {E : Endpoints T D} {t : T} {d : D} {calls : List DriverCall}

lemma run_guarded (hE : E.Lawful) (hcl : E.draftOpen d = false)
    (hco : Meets (observedCall E) (BlockCommitCloses E) (startWorld E t d) calls) :
    (ledger E (run (observedCall E) (startWorld E t d) calls)).Guarded := by
  refine run_trace_of_meets (P := fun w _ => (ledger E w).Guarded) ?_ ?_ hco
  · intro w _ c hw hc
    obtain ⟨l, hp, -, -, hl⟩ := observedCall_path hE w c
    rw [hl hc]
    exact hp.guarded hw
  · intro _ ho
    simp [ledger, startWorld, hcl] at ho

lemma run_fresh (hE : E.Lawful) :
    (ledger E (run (observedCall E) (startWorld E t d) calls)).Latched ∧
    (ledger E (run (observedCall E) (startWorld E t d) calls)).StagesFresh := by
  refine run_preserves (P := fun w => (ledger E w).Latched ∧ (ledger E w).StagesFresh) ?_ ?_ calls
  · intro w c hw
    obtain ⟨l, hp, he, hlo, -⟩ := observedCall_path hE w c
    have hl := hp.fresh hw
    rw [Ledger.Latched, Ledger.StagesFresh] at hl ⊢
    rw [he, hlo]
    exact hl
  · exact ⟨by simp [Ledger.Latched, ledger, startWorld], always_nil _ _⟩

lemma run_unsettled (hn : ∀ c ∈ calls, c.isNativeBlock = false) :
    (run (observedCall E) (startWorld E t d) calls).driver.unsettled =
    UInt64.ofNat (verifyCommitFailures (outputs (observedCall E) (startWorld E t d) calls)) := by
  refine run_trace_of_meets (C := fun _ (c : DriverCall) => c.isNativeBlock = false)
    (P := fun (w : ObservedWorld T D) records =>
      w.driver.unsettled = UInt64.ofNat (verifyCommitFailures records))
    ?_ (by simp [startWorld, create, unsettled, verifyCommitFailures])
    (meets_of_forall fun _ => hn)
  intro w records c hw hc
  rw [observedCall_unsettled E w hc, hw, verifyCommitFailures_append_singleton, UInt64.ofNat_add]
  rfl

/-- With no proposal open the draft endpoint has no open transaction, unless a rollback on it
failed since the last reset that returned ok. -/
def NoTransactionLeft (E : Endpoints T D) (w : ObservedWorld T D) : Prop :=
  w.driver.proposalOpen = false → E.draftOpen w.draft.1 = true →
    ∃ before status after, w.draft.2 = before ++ .rollback status :: after ∧ status ≠ .ok ∧
      .driverReset ∉ after

lemma Ledger.Guarded.noTransactionLeft {w : ObservedWorld T D} (h : (ledger E w).Guarded) :
    NoTransactionLeft E w := by
  intro hp ho
  obtain ⟨before, x, after, hlog, hx, haft⟩ := (since_eq_true_iff ..).1 (h hp ho)
  cases x with
  | rollback status =>
    refine ⟨before, status, after, hlog, by simpa [rollbackFailed] using hx, fun hm => ?_⟩
    have hres := haft _ (List.mem_cons_of_mem _ hm)
    simp [isDriverReset] at hres
  | stage | commit | reset | driverReset => simp [rollbackFailed] at hx

/-- The draft transaction discipline over every run of public calls from a new driver: no
transaction is left behind where every block root commit closes its transaction; a decoding call
that returned ok decoded once and returns that result; after a draft failure the draft is staged
again only after a reset that returned ok; and the drafted tokens are the accepted, the rejected
and the commit failures inside `verify`. -/
theorem driver_discipline (hE : E.Lawful) (hclosed : E.draftOpen d = false)
    (hcommit : Meets (observedCall E) (BlockCommitCloses E) (startWorld E t d) calls) :
    NoTransactionLeft E (run (observedCall E) (startWorld E t d) calls) ∧
      (∀ r ∈ outputs (observedCall E) (startWorld E t d) calls, r.DecodesOnce) ∧
      (∀ before x between y after, (run (observedCall E) (startWorld E t d) calls).draft.2 =
          before ++ x :: (between ++ y :: after) →
        x.draftFailed = true → y.isStage = true → .driverReset ∈ between) ∧
      ((∀ c ∈ calls, c.isNativeBlock = false) →
        (run (observedCall E) (startWorld E t d) calls).driver.metrics.draftedTokens =
          (run (observedCall E) (startWorld E t d) calls).driver.metrics.acceptedTokens +
          (run (observedCall E) (startWorld E t d) calls).driver.metrics.rejectedTokens +
          UInt64.ofNat (verifyCommitFailures
            (outputs (observedCall E) (startWorld E t d) calls))) := by
  refine ⟨(run_guarded hE hclosed hcommit).noTransactionLeft, ?_, ?_, ?_⟩
  · exact forall_outputs (fun w c _ => observedCall_decodesOnce E w c) hcommit
  · intro before x between y after hlog hx hy
    have hr : isDriverReset x = false := by cases x <;> simp_all [draftFailed, isDriverReset]
    obtain ⟨z, hz, hres⟩ := (run_fresh hE).2.reset_between hlog hx hy hr
    cases z with
    | driverReset => exact hz
    | stage | commit | rollback | reset => simp [isDriverReset] at hres
  · intro hnat
    have h := run_unsettled (E := E) (t := t) (d := d) hnat
    rw [← h, unsettled]
    grind -ring -linarith

end

/-! A draft endpoint whose state is its transaction flag; its commit may fail and stay open. -/

def exampleEndpoints (commitFails : Bool) : Endpoints Unit Bool where
  target := some
    { decode := fun input _ t => (t, .ok, { tokenId := input + 1 }, "")
      reset := fun t => (t, .ok, "") }
  draft := some
    { stage := fun _ _ => (true, .ok, { tokenId := 8 }, "")
      commit := fun _ => if commitFails then (true, .attentionError, "") else (false, .ok, "")
      rollback := fun _ => (false, .ok, "")
      reset := fun _ => (false, .ok, "")
      transactionOpen := id }

def exampleInputs : SpeculativeDraftInputs := ⟨1, 1, 1, 1, 1, 1⟩

lemma exampleEndpoints_lawful (cf : Bool) : (exampleEndpoints cf).Lawful := by
  intro e he
  cases he
  exact ⟨fun _ _ => rfl, fun _ _ => rfl⟩

/-- A block root commit that closes its transaction; and a verified step whose commit fails and is
rolled back: the drafted token is neither accepted nor rejected but counted as a commit failure. -/
theorem driver_discipline_verify :
    NoTransactionLeft (exampleEndpoints false) (run (observedCall (exampleEndpoints false))
      (startWorld (exampleEndpoints false) () false)
      [.propose exampleInputs true, .commitOpenForBlock true]) ∧
    (run (observedCall (exampleEndpoints true)) (startWorld (exampleEndpoints true) () false)
      [.step 7 {} (some exampleInputs) true]).driver.metrics.draftedTokens = 0 + 0 + 1 := by
  have hb : Meets (observedCall (exampleEndpoints false))
      (BlockCommitCloses (exampleEndpoints false)) (startWorld (exampleEndpoints false) () false)
      [.propose exampleInputs true, .commitOpenForBlock true] :=
    ⟨trivial, fun _ _ e he => by cases he; rfl, trivial⟩
  have hc : Meets (observedCall (exampleEndpoints true))
      (BlockCommitCloses (exampleEndpoints true)) (startWorld (exampleEndpoints true) () false)
      [.step 7 {} (some exampleInputs) true] := ⟨trivial, trivial⟩
  exact ⟨(driver_discipline (exampleEndpoints_lawful false) rfl hb).1,
    (driver_discipline (exampleEndpoints_lawful true) rfl hc).2.2.2 (by decide)⟩

/-- A block root commit that fails and stays open leaves the transaction behind: the driver has no
proposal open and never rolled back. -/
theorem driver_discipline_block :
    (exampleEndpoints true).Lawful ∧ (exampleEndpoints true).draftOpen false = false ∧
      ¬ NoTransactionLeft (exampleEndpoints true) (run (observedCall (exampleEndpoints true))
          (startWorld (exampleEndpoints true) () false)
          [.propose exampleInputs true, .commitOpenForBlock true]) := by
  refine ⟨exampleEndpoints_lawful true, rfl, fun h => ?_⟩
  obtain ⟨b, st, af, hl, -, -⟩ := h (by decide) (by decide)
  have hm : DraftEvent.rollback st ∈ [.stage .ok true, .commit .attentionError true] := by
    rw [show ([.stage .ok true, .commit .attentionError true] : List DraftEvent) = _ from hl]
    simp
  simp at hm

end AxiomKernel.Qwen4exp
