import AxiomKernel.Lib.Machine
import AxiomKernel.Lib.Since
import AxiomKernel.Qwen4exp.Driver
import Mathlib.Logic.Relation

/-! The draft transaction discipline of `speculative_transaction_driver`. A small automaton says
what the driver may do with its draft endpoint; every public call of the driver is a path of it,
`commit_open_for_block` only where the commit closed the transaction. -/
namespace AxiomKernel.Qwen4exp

open DraftEndpoint Endpoints Trace DraftEvent List Option Bool

/-- What the discipline sees: the driver's proposal and draft flags, the draft endpoint's
transaction and every draft call so far. -/
structure Ledger where
  proposalOpen : Bool
  enabled : Bool
  transactionOpen : Bool
  log : List DraftEvent

namespace Ledger

/-- The allowed moves. A stage or a commit that leaves the transaction open is still owed a
rollback, so the proposal counts as open until then. -/
inductive Move : Ledger → Ledger → Prop where
  | stage (p e t : Bool) (log) (status : MtpStatus) (o : Bool) (enabled : e = true)
      (closed : p = false) :
      Move ⟨p, e, t, log⟩ ⟨o, !draftFailed (.stage status o), o, log ++ [.stage status o]⟩
  | commit (p e t : Bool) (log) (status : MtpStatus) (o : Bool) :
      Move ⟨p, e, t, log⟩ ⟨o, e && !commitFailed (.commit status o), o, log ++ [.commit status o]⟩
  | rollback (p e t : Bool) (log) (status : MtpStatus) (o : Bool)
      (closes : status = .ok → o = false) :
      Move ⟨p, e, t, log⟩ ⟨false, e && status == .ok, o, log ++ [.rollback status]⟩
  | close (p e : Bool) (log) : Move ⟨p, e, false, log⟩ ⟨false, e, false, log⟩
  | disable (p e t : Bool) (log) : Move ⟨p, e, t, log⟩ ⟨p, false, t, log⟩
  | draftReset (p e : Bool) (log) (status : MtpStatus) :
      Move ⟨p, e, false, log⟩ ⟨p, e, false, log ++ [.reset status]⟩
  | driverReset (p e e' : Bool) (log) :
      Move ⟨p, e, false, log⟩ ⟨p, e', false, log ++ [.driverReset]⟩

abbrev Path : Ledger → Ledger → Prop := Relation.ReflTransGen Move

/-- With no proposal open the transaction is closed, unless a rollback failed since the last
reset. -/
def Guarded (l : Ledger) : Prop :=
  l.proposalOpen = false → l.transactionOpen = true →
    since rollbackFailed isDriverReset l.log = true

def Latched (l : Ledger) : Prop := since draftFailed isDriverReset l.log = true → l.enabled = false

/-- No stage was tried after a draft failure without a reset between them. -/
def StagesFresh (l : Ledger) : Prop :=
  Always isStage (fun before => since draftFailed isDriverReset before = false) l.log

variable {l l' : Ledger}

lemma Move.guarded (h : Move l l') (hl : Guarded l) : Guarded l' := by
  cases h with
  | stage p e t log status o _ _ => intro hp ht; simp_all
  | commit p e t log status o => intro hp ht; simp_all
  | rollback p e t log status o cs =>
    intro _ ht
    have hs : status ≠ .ok := fun h => by simp [cs h] at ht
    simp [rollbackFailed, isDriverReset, hs]
  | close p e log => intro _ ht; simp at ht
  | disable p e t log => exact hl
  | draftReset p e log status => intro _ ht; simp at ht
  | driverReset p e e' log => intro _ ht; simp at ht

lemma Move.latched (h : Move l l') (hl : Latched l) : Latched l' := by
  cases h with
  | stage p e t log status o en _ =>
    intro hs
    have hpr : since draftFailed isDriverReset log = false := by
      cases hb : since draftFailed isDriverReset log with
      | false => rfl
      | true => have := hl hb; simp_all
    simpa [hpr, isDriverReset] using hs
  | commit p e t log status o =>
    intro hs
    simp only [since_append_singleton, isDriverReset, false_eq_true, if_false, or_eq_true] at hs
    rcases hs with hs | hs
    · simp [show e = false from hl hs]
    · simp [show commitFailed (.commit status o) = true from hs]
  | rollback p e t log status o _ =>
    intro hs
    have he : e = false := hl (by simpa [isDriverReset, draftFailed] using hs)
    simp [he]
  | close p e log => exact hl
  | disable p e t log => intro _; rfl
  | draftReset p e log status => intro hs; exact hl (by simpa [isDriverReset, draftFailed] using hs)
  | driverReset p e e' log => intro hs; simp [isDriverReset] at hs

lemma Move.stagesFresh (h : Move l l') (hl : Latched l) (hf : StagesFresh l) : StagesFresh l' := by
  cases h with
  | stage p e t log status o en _ =>
    refine Always.append_singleton hf fun _ => ?_
    cases hb : since draftFailed isDriverReset log with
    | false => rfl
    | true => have := hl hb; simp_all
  | commit p e t log status o => exact Always.append_singleton hf (by simp [isStage])
  | rollback p e t log status o _ => exact Always.append_singleton hf (by simp [isStage])
  | close p e log => exact hf
  | disable p e t log => exact hf
  | draftReset p e log status => exact Always.append_singleton hf (by simp [isStage])
  | driverReset p e e' log => exact Always.append_singleton hf (by simp [isStage])

lemma Path.guarded (h : Path l l') (hl : Guarded l) : Guarded l' := by
  induction h with
  | refl => exact hl
  | tail _ hm ih => exact hm.guarded ih

lemma Path.fresh (h : Path l l') (hl : Latched l ∧ StagesFresh l) :
    Latched l' ∧ StagesFresh l' := by
  induction h with
  | refl => exact hl
  | tail _ hm ih => exact ⟨hm.latched ih.1, hm.stagesFresh ih.1 ih.2⟩

end Ledger

variable {T D : Type}

abbrev ObservedWorld (T D : Type) := DriverWorld (T × List TargetEvent) (D × List DraftEvent)

def ledger (E : Endpoints T D) (w : ObservedWorld T D) : Ledger :=
  ⟨w.driver.proposalOpen, w.driver.draftEnabled, E.draftOpen w.draft.1, w.draft.2⟩

namespace Driver

open Ledger

variable {E : Endpoints T D} {w' : ObservedWorld T D}

section
variable (hE : E.Lawful) (disconnect : Bool) (w : ObservedWorld T D)
include hE

/-- What `abort_open` comes to: nothing, a proposal dropped without a draft, or one rollback. -/
lemma abortOpen_cases {a : Answer Unit} (h : abortOpen E.observed disconnect w = (w', a)) :
    (w' = w ∧ a.status = .ok ∧ w.driver.proposalOpen = false ∧ E.draftOpen w.draft.1 = false) ∨
    (a.status ≠ .ok ∧ E.draftOpen w.draft.1 = false ∧
    ledger E w' = ⟨false, false, false, w.draft.2⟩) ∨
    ∃ status o, (status = .ok → o = false) ∧ (a.status = .ok ↔ status = .ok) ∧
    ledger E w' = ⟨false, w.driver.draftEnabled && status == .ok, o,
    w.draft.2 ++ [.rollback status]⟩ := by
  by_cases hi : w.driver.proposalOpen = false ∧ E.draftOpen w.draft.1 = false
  · simp only [abortOpen, draftOpen_observed, hi, Bool.not_false, Bool.and_self, if_true,
      Prod.mk.injEq] at h
    obtain ⟨rfl, rfl⟩ := h
    exact .inl ⟨rfl, rfl, hi⟩
  have hg : (!w.driver.proposalOpen && !E.draftOpen w.draft.1) = false := by
    cases hp : w.driver.proposalOpen <;> cases ho : E.draftOpen w.draft.1 <;> simp_all
  right
  rw [abortOpen, draftOpen_observed, hg] at h
  rcases E with ⟨target, _ | e⟩
  · left
    cases h
    exact ⟨by simp [fail], rfl, rfl⟩
  · right
    refine ⟨_, _, (hE e rfl).rollback_closes w.draft.1, ?_⟩
    simp only [Bool.false_eq_true, if_false, observed_draft, map_some, observed_rollback] at h
    by_cases hs : (e.rollback w.draft.1).2.1 = .ok
    · simp only [hs, ne_eq, not_true_eq_false, if_false] at h
      cases h
      simp [hs, ledger]
    · simp only [ne_eq, hs, not_false_eq_true, if_true] at h
      cases h
      simp [hs, fail, ledger]

lemma abortOpen_path : Path (ledger E w) (ledger E (abortOpen E.observed disconnect w).1) := by
  rcases h : abortOpen E.observed disconnect w with ⟨w', a⟩
  rcases abortOpen_cases hE disconnect w h with
    ⟨rfl, -, -, -⟩ | ⟨-, ho, hl⟩ | ⟨status, o, hcl, -, hl⟩
  · exact .refl
  · rw [hl]
    have hw : ledger E w = ⟨w.driver.proposalOpen, w.driver.draftEnabled, false, w.draft.2⟩ := by
      simp [ledger, ho]
    rw [hw]
    exact (Relation.ReflTransGen.single (Move.close ..)).tail (Move.disable ..)
  · rw [hl]
    exact .single (Move.rollback _ _ _ _ _ _ hcl)

end

section
variable (hE : E.Lawful) (w : ObservedWorld T D) (detail : String)
  (hp : w.driver.proposalOpen = false)
include hE hp

lemma abortIfDraftOpen_path : Path ⟨E.draftOpen w.draft.1, false, E.draftOpen w.draft.1, w.draft.2⟩
    (ledger E ⟨(abortIfDraftOpen E.observed w detail).1.driver.withoutDraft,
    (abortIfDraftOpen E.observed w detail).1.target,
    (abortIfDraftOpen E.observed w detail).1.draft⟩) := by
  simp only [abortIfDraftOpen, draftOpen_observed]
  cases ho : E.draftOpen w.draft.1 with
  | false =>
    simp only [false_eq_true, if_false, ledger, withoutDraft_proposalOpen, hp,
      withoutDraft_draftEnabled, ho]
    exact .refl
  | true =>
    rcases hab : abortOpen E.observed false w with ⟨w', a⟩
    rcases abortOpen_cases hE false w hab with
      ⟨-, -, -, hn⟩ | ⟨-, hn, -⟩ | ⟨status, o, hcl, -, hl⟩
    · simp [ho] at hn
    · simp [ho] at hn
    · have hen : ledger E ⟨w'.driver.withoutDraft, w'.target, w'.draft⟩ =
          ⟨false, false, o, w.draft.2 ++ [.rollback status]⟩ := by
        simp only [ledger, Ledger.mk.injEq] at hl
        simp [ledger, hl]
      simp only [if_true, hen]
      exact .single (by simpa using Move.rollback true false true w.draft.2 status o hcl)

lemma commitFailure_path : Path ⟨E.draftOpen w.draft.1, false, E.draftOpen w.draft.1, w.draft.2⟩
    (ledger E (commitFailure E.observed w detail).1) :=
  abortIfDraftOpen_path hE ⟨w.driver.count _, w.target, w.draft⟩ detail hp

end

lemma targetOnly_ledger (E : Endpoints T D) (input : Token) (generation : TextGenerationConfig)
    (hasResult : Bool) (w : ObservedWorld T D) :
    ledger E (targetOnly E.observed input generation hasResult w).1 = ledger E w := by
  rcases E with ⟨_ | t, draft⟩
  · rfl
  · simp only [targetOnly, observed_target, map_some]
    split
    · rfl
    · split <;> rfl

lemma propose_path (hE : E.Lawful) (i : SpeculativeDraftInputs) (ha : Bool)
    (w : ObservedWorld T D) :
    Path (ledger E w) (ledger E (propose E.observed i ha w).1) := by
  rcases E with ⟨target, _ | e⟩
  · exact .refl
  rcases hsta : e.stage i w.draft.1 with ⟨d, status, p, detail⟩
  simp only [propose, observed_draft, map_some, observed_stage, observed_transactionOpen, hsta]
  split
  · exact .refl
  rename_i hg
  split
  · exact .refl
  have hena : w.driver.draftEnabled := by
    cases hen : w.driver.draftEnabled <;> simp_all
  have hc : w.driver.proposalOpen = false := by
    cases hop : w.driver.proposalOpen <;> simp_all
  -- the stage itself, as a move
  have hm : Move (ledger ⟨target, some e⟩ w) ⟨e.transactionOpen d,
      !draftFailed (.stage status (e.transactionOpen d)), e.transactionOpen d,
      w.draft.2 ++ [.stage status (e.transactionOpen d)]⟩ :=
    Move.stage _ _ _ _ _ _ hena hc
  by_cases hs : status = .ok
  · subst hs
    refine .single ?_
    cases ho : e.transactionOpen d with
    | false => simpa [ledger, ho, draftFailed, hc] using hm
    | true => simpa [ledger, ho, draftFailed, hena] using hm
  · have hf : draftFailed (.stage status (e.transactionOpen d)) := by
      simp [draftFailed, hs]
    rw [hf] at hm
    refine .head hm ?_
    simp only [ne_eq, hs, not_false_eq_true, if_true]
    exact abortIfDraftOpen_path hE ⟨w.driver.count _, w.target,
      (d, w.draft.2 ++ [.stage status (e.transactionOpen d)])⟩ detail hc

lemma commitFailed_commit (status : MtpStatus) (o : Bool) :
    commitFailed (.commit status o) = (decide (status ≠ .ok) || o) := by
  cases status <;> rfl

section

variable {target : Option (TargetEndpoint T)} {e : DraftEndpoint D} {w v : ObservedWorld T D}
  {d : D} {status : MtpStatus}
  (hdraft : v.draft = (d, w.draft.2 ++ [.commit status (e.transactionOpen d)]))
  (hp : v.driver.proposalOpen = false) (he : v.driver.draftEnabled = w.driver.draftEnabled)

include hdraft hp

lemma commitFailed_path (hE : Endpoints.Lawful ⟨target, some e⟩) (detail : String)
    (hfa : (decide (status ≠ .ok) || e.transactionOpen d)) :
    Path (ledger ⟨target, some e⟩ w) (ledger ⟨target, some e⟩
    (commitFailure (observed ⟨target, some e⟩) v detail).1) := by
  have hf := (commitFailed_commit ..).trans hfa
  refine .head (Move.commit _ _ _ _ status (e.transactionOpen d)) ?_
  simpa [hf, hdraft] using commitFailure_path hE v detail hp

include he

lemma commitClosed_path (hok : ¬ (decide (status ≠ .ok) || e.transactionOpen d)) :
    Path (ledger ⟨target, some e⟩ w) (ledger ⟨target, some e⟩ v) := by
  have hf := (commitFailed_commit ..).trans (Bool.eq_false_iff.2 hok)
  have ho : e.transactionOpen d = false := by
    cases ho : e.transactionOpen d <;> simp_all
  refine .head (Move.commit _ _ _ _ status (e.transactionOpen d)) ?_
  simp only [ledger, hp, he, hdraft, draftOpen_some, ho] at hf ⊢
  rw [hf]
  simp only [Bool.not_false, Bool.and_true]
  exact .refl

end

lemma verify_path (hE : E.Lawful) (input : Token) (generation : TextGenerationConfig)
    (hasResult : Bool) (w : ObservedWorld T D) :
    Path (ledger E w) (ledger E (verify E.observed input generation hasResult w).1) := by
  rcases E with ⟨_ | t, _ | e⟩
  · exact .refl
  · exact .refl
  · exact .refl
  rcases hdec : t.decode input generation w.target.1 with ⟨target, ts, re, detail⟩
  rcases hco : e.commit w.draft.1 with ⟨d, status, cd⟩
  simp only [verify, observed_target, observed_draft, map_some,
    TargetEndpoint.observed_decode, observed_commit,
    observed_transactionOpen, hdec, hco]
  split
  · exact .refl
  by_cases ht : ts = .ok
  · simp only [ht, ne_eq, not_true_eq_false, if_false]
    split
    · rename_i hf
      exact commitFailed_path (v := ⟨_, _, _⟩) rfl rfl hE cd hf
    · rename_i ho
      split
      · exact commitClosed_path (v := ⟨_, _, _⟩) rfl rfl rfl ho
      · exact commitClosed_path (v := ⟨_, _, _⟩) rfl rfl rfl ho
  · simp only [ne_eq, ht, not_false_eq_true, if_true]
    exact (abortOpen_path hE false ⟨w.driver.count _, _, w.draft⟩).tail (Move.disable ..)

lemma commitContext_path (hE : E.Lawful) (w : ObservedWorld T D) :
    Path (ledger E w) (ledger E (commitContext E.observed w).1) := by
  rcases E with ⟨target, _ | e⟩
  · exact .refl
  rcases hco : e.commit w.draft.1 with ⟨d, status, detail⟩
  simp only [commitContext, observed_draft, map_some,
    observed_commit, observed_transactionOpen, hco]
  split
  · exact .refl
  split
  · rename_i hf
    exact commitFailed_path (v := ⟨_, _, _⟩) rfl rfl hE detail hf
  · rename_i ho
    exact commitClosed_path (v := ⟨_, _, _⟩) rfl rfl rfl ho

/-- The root commit of a block is a path too where the commit closes the transaction; where it
does not, only the proposal flag differs from what the automaton would keep. -/
lemma commitOpenForBlock_path (E : Endpoints T D) (ha : Bool) (w : ObservedWorld T D) :
    ∃ l, Path (ledger E w) l ∧
    (ledger E (commitOpenForBlock E.observed ha w).1).enabled = l.enabled ∧
    (ledger E (commitOpenForBlock E.observed ha w).1).log = l.log ∧
    ((ha → w.driver.commitReady → ∀ e ∈ E.draft,
    e.transactionOpen (e.commit w.draft.1).1 = false) →
    ledger E (commitOpenForBlock E.observed ha w).1 = l) := by
  rcases E with ⟨target, _ | e⟩
  · exact ⟨_, .refl, rfl, rfl, fun _ => rfl⟩
  rcases hco : e.commit w.draft.1 with ⟨d, status, detail⟩
  simp only [commitOpenForBlock, observed_draft, map_some,
    observed_commit, observed_transactionOpen, hco]
  split
  · exact ⟨_, .refl, rfl, rfl, fun _ => rfl⟩
  rename_i hg
  have hr : ha = true ∧ w.driver.commitReady := by
    cases hp : ha <;> cases hc : w.driver.commitReady <;> simp_all
  refine ⟨_, .single (Move.commit _ _ _ _ status (e.transactionOpen d)), ?_⟩
  split
  · rename_i hfa
    have hf := (commitFailed_commit ..).trans hfa
    refine ⟨by simp [ledger, hf], rfl, fun hcl => ?_⟩
    have ho : e.transactionOpen d = false := by
      simpa [hco] using hcl hr.1 hr.2 e rfl
    rw [ho] at hf
    simp [ledger, ho, hf]
  · rename_i hok
    have hf := (commitFailed_commit ..).trans (eq_false_iff.2 hok)
    have ho : e.transactionOpen d = false := by
      cases ho : e.transactionOpen d <;> simp_all
    rw [hf]
    exact ⟨by simp [ledger], rfl, fun _ => by simp [ledger, ho]⟩

section
variable (hE : E.Lawful)
include hE

lemma step_path (input : Token) (generation : TextGenerationConfig)
    (di : Option SpeculativeDraftInputs) (hasResult : Bool) (w : ObservedWorld T D) :
    Path (ledger E w) (ledger E (step E.observed input generation di hasResult w).1) := by
  have hs : ∀ w : ObservedWorld T D,
      Path (ledger E w) (ledger E (targetOnly E.observed input generation true w).1) := by
    intro w
    rw [targetOnly_ledger]
  unfold step
  split
  · exact .refl
  cases di with
  | none => exact hs w
  | some i =>
    simp only
    have hprop := propose_path hE i true w
    split
    · exact hs w
    split
    · exact hprop.trans (verify_path hE input generation true _)
    · have htarg := hprop.trans (hs (propose E.observed i true w).1)
      split <;> exact htarg

variable (w : ObservedWorld T D)

lemma disconnect_path : Path (ledger E w) (ledger E (disconnect E.observed w).1) := by
  unfold disconnect
  split
  · exact .refl
  simp only
  split
  · exact (abortOpen_path hE true ⟨w.driver.count _, w.target, w.draft⟩).tail (Move.disable ..)
  · exact .single (Move.disable ..)

lemma disableDraft_path : Path (ledger E w) (ledger E (disableDraft E.observed w)) :=
  (abortOpen_path hE false w).tail (Move.disable ..)

lemma resetDraft_path {s s' : D × List DraftEvent} {an : MtpStatus × String}
    (ho : E.draftOpen s.1 = false) (h : resetDraft E.observed s = (s', an)) (en : Bool) :
    E.draftOpen s'.1 = false ∧ Path ⟨false, en, false, s.2⟩ ⟨false, en, false, s'.2⟩ := by
  rcases E with ⟨target, _ | e⟩
  · cases h
    exact ⟨rfl, .refl⟩
  · simp only [resetDraft, observed_draft, map_some, observed_reset] at h
    cases h
    exact ⟨(hE e rfl).reset_keeps_closed s.1 ho, .single (Move.draftReset ..)⟩

/-- A reset that returns ok, and notes itself, is a path; so is one that fails. -/
lemma reset_path {a : Answer Unit} (h : reset E.observed w = (w', a)) :
    Path (ledger E w) (if a.status = .ok then
      { ledger E w' with log := w'.draft.2 ++ [.driverReset] } else ledger E w') := by
  rcases E with ⟨_ | t, draft⟩
  · cases h
    simp only [fail, reduceCtorEq, if_false]
    exact .refl
  rcases hab : abortOpen (observed ⟨some t, draft⟩) false w with ⟨w₁, ab⟩
  have hpa := abortOpen_path hE false w
  rw [hab] at hpa
  simp only [reset, observed_target, map_some, hab] at h
  refine hpa.trans ?_
  split at h
  · rename_i hf
    cases h
    rw [if_neg hf]
    exact .single (Move.disable ..)
  rename_i hok
  -- the abort returned ok, so nothing is open when the endpoints are reset
  have hw₁ : w₁.driver.proposalOpen = false ∧ draftOpen ⟨some t, draft⟩ w₁.draft.1 = false := by
    rcases abortOpen_cases hE false w hab with
      ⟨rfl, -, hp, ho⟩ | ⟨hn, -, -⟩ | ⟨status, o, hcl, hiff, hl⟩
    · exact ⟨hp, ho⟩
    · exact absurd hn hok
    · simp only [ledger, Ledger.mk.injEq] at hl
      exact ⟨hl.1, hl.2.2.1.trans (hcl (hiff.1 (not_not.1 hok)))⟩
  have hs : ledger ⟨some t, draft⟩ w₁ = ⟨false, w₁.driver.draftEnabled, false, w₁.draft.2⟩ := by
    simp [ledger, hw₁]
  rw [hs]
  rcases hdraft : resetDraft (observed ⟨some t, draft⟩) w₁.draft with ⟨d, status, detail⟩
  obtain ⟨ho, hr⟩ := resetDraft_path hE hw₁.2 hdraft w₁.driver.draftEnabled
  refine hr.trans ?_
  rw [hdraft] at h
  split at h
  · cases h
    simp only [fail, reduceCtorEq, if_false, ledger, withoutDraft_proposalOpen,
      withoutDraft_draftEnabled, count_proposalOpen, hw₁.1, ho]
    exact .single (Move.disable ..)
  · cases h
    simp only [if_true, ledger, count_proposalOpen, hw₁.1, ho]
    exact .single (Move.driverReset ..)

end

/-! What the target and the token counters see of a call. -/

def unsettled (s : Driver) : UInt64 :=
  s.metrics.draftedTokens - (s.metrics.acceptedTokens + s.metrics.rejectedTokens)

section

variable (s : Driver)

@[simp] lemma unsettled_closeProposal : s.closeProposal.unsettled = s.unsettled := rfl

@[simp] lemma unsettled_addTargetAttempt :
    (s.count .addTargetAttempt).unsettled = s.unsettled := rfl

@[simp] lemma unsettled_addTargetToken : (s.count .addTargetToken).unsettled = s.unsettled := rfl

@[simp] lemma unsettled_addDraftedToken :
    (s.count .addDraftedToken).unsettled = s.unsettled + 1 := by
  simp only [unsettled, count_metrics, SpeculativeMetrics.addDraftedToken]
  grind -ring -linarith

@[simp] lemma unsettled_addAcceptedToken :
    (s.count .addAcceptedToken).unsettled = s.unsettled - 1 := by
  simp only [unsettled, count_metrics, SpeculativeMetrics.addAcceptedToken]
  grind -ring -linarith

@[simp] lemma unsettled_addRejectedToken :
    (s.count .addRejectedToken).unsettled = s.unsettled - 1 := by
  simp only [unsettled, count_metrics, SpeculativeMetrics.addRejectedToken]
  grind -ring -linarith

end

def commitFailures (events : List DraftEvent) : UInt64 := UInt64.ofNat (events.countP commitFailed)

lemma commitFailures_eq_zero {es : List DraftEvent} (h : es.countP commitFailed = 0) :
    commitFailures es = 0 := by
  rw [commitFailures, h]
  rfl

/-- The target and the token counters are untouched, and no commit failed. -/
structure Untouched (w w' : ObservedWorld T D) : Prop where
  target : w'.target = w.target
  counters : w'.driver.unsettled = w.driver.unsettled
  log : ∃ events, w'.draft.2 = w.draft.2 ++ events ∧ events.countP commitFailed = 0

variable {w : ObservedWorld T D}

lemma Untouched.of_same (ht : w'.target = w.target)
    (hc : w'.driver.unsettled = w.driver.unsettled) (hd : w'.draft.2 = w.draft.2) :
    Untouched w w' :=
  ⟨ht, hc, [], by simp [hd], rfl⟩

variable {w₁ w₂ : ObservedWorld T D} {input : Token} {generation : TextGenerationConfig}

lemma Untouched.trans (h : Untouched w w₁) (h' : Untouched w₁ w₂) : Untouched w w₂ := by
  obtain ⟨es, hl, hn⟩ := h.log
  obtain ⟨es', hl', hn'⟩ := h'.log
  exact ⟨h'.target.trans h.target, h'.counters.trans h.counters, es ++ es',
    by rw [hl', hl, append_assoc], by rw [countP_append, hn, hn']⟩

lemma abortOpen_untouched (E : Endpoints T D) (disconnect : Bool) (w : ObservedWorld T D) :
    Untouched w (abortOpen E.observed disconnect w).1 := by
  unfold abortOpen
  split
  · exact .of_same rfl rfl rfl
  · rcases E with ⟨target, _ | e⟩
    · exact .of_same rfl rfl rfl
    · rcases hro : e.rollback w.draft.1 with ⟨d, status, detail⟩
      simp only [observed_draft, map_some, observed_rollback, hro]
      split
      · exact ⟨rfl, rfl, _, rfl, rfl⟩
      · exact ⟨rfl, rfl, _, rfl, rfl⟩

section
variable (E : Endpoints T D) (w : ObservedWorld T D) (detail : String)

lemma abortIfDraftOpen_untouched : Untouched w (abortIfDraftOpen E.observed w detail).1 := by
  unfold abortIfDraftOpen
  split
  · exact abortOpen_untouched E false w
  · exact .of_same rfl rfl rfl

lemma commitFailure_untouched : Untouched w (commitFailure E.observed w detail).1 := by
  have h := abortIfDraftOpen_untouched E
    ⟨w.driver.count .addCommitFailure, w.target, w.draft⟩ detail
  exact ⟨h.target, h.counters, h.log⟩

end

lemma propose_untouched (E : Endpoints T D) (i : SpeculativeDraftInputs) (ha : Bool)
    (w : ObservedWorld T D) : Untouched w (propose E.observed i ha w).1 := by
  rcases E with ⟨target, _ | e⟩
  · exact .of_same rfl rfl rfl
  rcases hst : e.stage i w.draft.1 with ⟨d, status, p, detail⟩
  simp only [propose, observed_draft, map_some, observed_stage, observed_transactionOpen, hst]
  have hs : ∀ driver : Driver, driver.unsettled = w.driver.unsettled →
      Untouched w ⟨driver, w.target, (d, w.draft.2 ++ [.stage status (e.transactionOpen d)])⟩ :=
    fun _ h => ⟨rfl, h, _, rfl, rfl⟩
  split
  · exact .of_same rfl rfl rfl
  split
  · exact .of_same rfl rfl rfl
  split
  · have hab := (hs (w.driver.count .addStageFailure) rfl).trans
      (abortIfDraftOpen_untouched ⟨target, some e⟩ _ detail)
    exact ⟨hab.target, hab.counters, hab.log⟩
  split
  · exact hs _ rfl
  · exact hs _ rfl

def DecodedOnce (input : Token) (generation : TextGenerationConfig) (w w' : ObservedWorld T D)
    (a : Answer SpeculativeStepResult) : Prop :=
  a.status = .ok → ∃ result, a.output = some result ∧
    w'.target.2 = w.target.2 ++ [.decode input generation .ok result.authoritative]

/-- The tokens left unsettled between two worlds are the commit failures between them. -/
def Settles (w w' : ObservedWorld T D) : Prop := ∃ events, w'.draft.2 = w.draft.2 ++ events ∧
    w'.driver.unsettled = w.driver.unsettled + commitFailures events

lemma Untouched.settles (h : Untouched w w') : Settles w w' := by
  obtain ⟨es, hl, hn⟩ := h.log
  exact ⟨es, hl, by rw [commitFailures_eq_zero hn, UInt64.add_zero, h.counters]⟩

lemma Settles.trans (h : Settles w w₁) (h' : Settles w₁ w₂) : Settles w w₂ := by
  obtain ⟨es, hl, hc⟩ := h
  obtain ⟨es', hl', hc'⟩ := h'
  refine ⟨es ++ es', by rw [hl', hl, append_assoc], ?_⟩
  rw [hc', hc, commitFailures, commitFailures, commitFailures, countP_append,
    UInt64.ofNat_add, UInt64.add_assoc]

variable {a : Answer SpeculativeStepResult}

lemma refused_effect (h : a.status ≠ .ok) : DecodedOnce input generation w w a ∧ Settles w w :=
  ⟨fun ho => absurd ho h, [], (append_nil _).symm, by simp [commitFailures]⟩

lemma targetOnly_decodedOnce {hasResult : Bool}
    (h : targetOnly E.observed input generation hasResult w = (w', a)) :
    DecodedOnce input generation w w' a := by
  intro ho
  rcases E with ⟨_ | t, draft⟩
  · cases h
    simp [fail] at ho
  rcases hdec : t.decode input generation w.target.1 with ⟨target, status, re, detail⟩
  simp only [targetOnly, observed_target, map_some, TargetEndpoint.observed_decode, hdec] at h
  split at h
  · cases h
    simp [fail] at ho
  split at h
  · cases h
    simp at ho
  · rename_i hs
    cases h
    exact ⟨_, rfl, by simp [not_not.1 hs]⟩

section
variable (E : Endpoints T D) (input : Token) (generation : TextGenerationConfig)

section
variable (hasResult : Bool) (w : ObservedWorld T D)
include hasResult

lemma targetOnly_unsettled :
    (targetOnly E.observed input generation hasResult w).1.driver.unsettled =
      w.driver.unsettled := by
  rcases E with ⟨_ | t, draft⟩
  · rfl
  · simp only [targetOnly, observed_target, map_some]
    split
    · rfl
    · split <;> rfl

lemma targetOnly_settles : Settles w (targetOnly E.observed input generation hasResult w).1 := by
  have hlog := congrArg Ledger.log (targetOnly_ledger E input generation hasResult w)
  refine ⟨[], hlog.trans (append_nil _).symm, ?_⟩
  rw [targetOnly_unsettled]
  simp [commitFailures]

/-- The token of an ok `verify` is accepted, rejected, or left unsettled by a commit failure. -/
lemma verify_effect (h : verify E.observed input generation hasResult w = (w', a)) :
    DecodedOnce input generation w w' a ∧ Settles w w' := by
  rcases E with ⟨_ | t, _ | e⟩
  · cases h
    exact refused_effect (by simp [fail])
  · cases h
    exact refused_effect (by simp [fail])
  · cases h
    exact refused_effect (by simp [fail])
  rcases hdec : t.decode input generation w.target.1 with ⟨target, ts, re, detail⟩
  rcases hcomm : e.commit w.draft.1 with ⟨d, status, cd⟩
  simp only [verify, observed_target, observed_draft, map_some,
    TargetEndpoint.observed_decode, observed_commit,
    observed_transactionOpen, hdec, hcomm] at h
  split at h
  · cases h
    exact refused_effect (by simp [fail])
  by_cases ht : ts = .ok
  · simp only [ht, ne_eq, not_true_eq_false, if_false] at h
    split at h
    · rename_i hfa
      cases h
      have hco := commitFailure_untouched ⟨some t, some e⟩ ⟨closeProposal
        (((w.driver.count .addTargetAttempt).count .addTargetToken).count .addDraftedToken),
        (target, w.target.2 ++ [.decode input generation .ok re]),
        (d, w.draft.2 ++ [.commit status (e.transactionOpen d)])⟩ cd
      obtain ⟨es, hl, hn⟩ := hco.log
      refine ⟨fun _ => ⟨_, rfl, congrArg Prod.snd hco.target⟩,
        .commit status (e.transactionOpen d) :: es, hl.trans (by simp), ?_⟩
      have ho : commitFailures (.commit status (e.transactionOpen d) :: es) = 1 := by
        have hf := (commitFailed_commit ..).trans hfa
        simp [commitFailures, hf, hn]
      rw [ho]
      exact hco.counters.trans (by simp)
    · rename_i hc
      have hn : commitFailures [.commit status (e.transactionOpen d)] = 0 := by
        have hf := (commitFailed_commit ..).trans (eq_false_iff.2 hc)
        simp [commitFailures, hf]
      split at h
      · cases h
        refine ⟨fun _ => ⟨_, rfl, rfl⟩, _, rfl, ?_⟩
        simp [hn]
      · cases h
        refine ⟨fun _ => ⟨_, rfl, rfl⟩, _, rfl, ?_⟩
        simp [hn]
  · simp only [ne_eq, ht, not_false_eq_true, if_true] at h
    cases h
    have hab := abortOpen_untouched ⟨some t, some e⟩ false ⟨w.driver.count .addTargetAttempt,
      (target, w.target.2 ++ [.decode input generation ts re]), w.draft⟩
    obtain ⟨es, hl, hn⟩ := hab.log
    refine ⟨?_, es, hl, ?_⟩
    · intro hok
      split at hok <;> simp at hok
    · rw [commitFailures_eq_zero hn, UInt64.add_zero]
      exact hab.counters

end

lemma step_effect (di : Option SpeculativeDraftInputs) (hasResult : Bool)
    (w : ObservedWorld T D) (h : step E.observed input generation di hasResult w = (w', a)) :
    DecodedOnce input generation w w' a ∧ Settles w w' := by
  have ho : ∀ {w' a}, targetOnly E.observed input generation true w = (w', a) →
      DecodedOnce input generation w w' a ∧ Settles w w' := fun {w' a} h =>
    ⟨targetOnly_decodedOnce h, by simpa [h] using targetOnly_settles E input generation true w⟩
  unfold step at h
  split at h
  · cases h
    exact refused_effect (by simp [fail])
  cases di with
  | none => exact ho h
  | some i =>
    simp only at h
    split at h
    · exact ho h
    -- the proposal leaves the target alone, so its decodes are those of what follows
    have hprop := propose_untouched E i true w
    rcases hp : propose E.observed i true w with ⟨w₁, p⟩
    rw [hp] at hprop
    rw [hp] at h
    split at h
    · obtain ⟨hd, hs⟩ := verify_effect E input generation true w₁ h
      refine ⟨?_, hprop.settles.trans hs⟩
      rw [DecodedOnce, hprop.target] at hd
      exact hd
    · rcases ht : targetOnly E.observed input generation true w₁ with ⟨w₂, b⟩
      have hd := targetOnly_decodedOnce ht
      have hs := targetOnly_settles E input generation true w₁
      rw [ht] at hs
      rw [DecodedOnce, hprop.target] at hd
      rw [ht] at h
      split at h
      · rename_i hok
        cases h
        refine ⟨fun _ => ?_, hprop.settles.trans hs⟩
        obtain ⟨re, hr, hl⟩ := hd hok
        exact ⟨_, congrArg (Option.map _) hr, hl⟩
      · cases h
        exact ⟨hd, hprop.settles.trans hs⟩

end

section
variable (E : Endpoints T D)

lemma commitContext_unsettled (w : ObservedWorld T D) :
    (commitContext E.observed w).1.driver.unsettled = w.driver.unsettled := by
  rcases E with ⟨target, _ | e⟩
  · rfl
  simp only [commitContext, observed_draft, map_some]
  split
  · rfl
  split
  · exact (commitFailure_untouched ⟨target, some e⟩ ⟨_, _, _⟩ _).counters
  · rfl

lemma commitOpenForBlock_unsettled (ha : Bool) (w : ObservedWorld T D) :
    (commitOpenForBlock E.observed ha w).1.driver.unsettled = w.driver.unsettled := by
  rcases E with ⟨target, _ | e⟩
  · rfl
  simp only [commitOpenForBlock, observed_draft, map_some]
  split
  · rfl
  split <;> rfl

lemma disconnect_unsettled (w : ObservedWorld T D) :
    (disconnect E.observed w).1.driver.unsettled = w.driver.unsettled := by
  unfold disconnect
  split
  · rfl
  simp only
  split
  · exact (abortOpen_untouched E true
      ⟨w.driver.count .addDisconnectRollback, w.target, w.draft⟩).counters
  · rfl

lemma reset_unsettled (w : ObservedWorld T D) :
    (reset E.observed w).1.driver.unsettled = w.driver.unsettled := by
  have hab := (abortOpen_untouched E false w).counters
  rcases E with ⟨_ | t, draft⟩
  · rfl
  simp only [reset, observed_target, map_some]
  split
  · exact hab
  split <;> exact hab

end

end Driver

end AxiomKernel.Qwen4exp
