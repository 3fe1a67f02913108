import AxiomKernel.Qwen4exp.SpeculativeSession
import AxiomKernel.Qwen4exp.TextSpecs

/-! Specifications of the speculative session: what its driver calls and the phases of `decode` do
to the target, to the queue and to the open proposal. -/
set_option mvcgen.warning false

namespace AxiomKernel.Qwen4exp

/-! What the driver's calls do to the target and to the proposal. -/
namespace Driver

variable {T D : Type} (t : TargetEndpoint T) (draft : Option (DraftEndpoint D)) (E : Endpoints T D)

lemma abortOpen_effect (d : Bool) (w : DriverWorld T D) : (abortOpen E d w).1.target = w.target ∧
    (abortOpen E d w).1.driver.proposalOpen = false := by
  unfold abortOpen
  grind -ring -linarith [count, closeProposal, withoutDraft]

section
variable (w : DriverWorld T D)

lemma disableDraft_effect :
    (disableDraft E w).target = w.target ∧ (disableDraft E w).driver.proposalOpen = false := by
  have h := abortOpen_effect E false w
  simpa [disableDraft] using h

variable (detail : String)

lemma abortIfDraftOpen_target : (abortIfDraftOpen E w detail).1.target = w.target := by
  unfold abortIfDraftOpen
  split
  · exact (abortOpen_effect E false w).1
  · rfl

lemma abortIfDraftOpen_closed (h : w.driver.proposalOpen = false) :
    (abortIfDraftOpen E w detail).1.driver.proposalOpen = false := by
  unfold abortIfDraftOpen
  split
  · exact (abortOpen_effect E false w).2
  · exact h

lemma commitFailure_effect (h : w.driver.proposalOpen = false) :
    (commitFailure E w detail).1.target = w.target ∧
    (commitFailure E w detail).1.driver.proposalOpen = false :=
  ⟨abortIfDraftOpen_target E _ detail, abortIfDraftOpen_closed E _ detail h⟩

end

lemma propose_effect (inputs : SpeculativeDraftInputs) (hp : Bool)
    (w : DriverWorld T D) : (propose E inputs hp w).1.target = w.target ∧
    ((propose E inputs hp w).2.status = .ok →
    (propose E inputs hp w).1.driver.proposalOpen ∧
    ∃ e ∈ E.draft, (e.stage inputs w.draft).2.1 = .ok ∧
    (propose E inputs hp w).1.draft = (e.stage inputs w.draft).1) := by
  rcases E with ⟨ta, _ | e⟩
  · simp [propose, fail]
  · rcases hs : e.stage inputs w.draft with ⟨d, st, p, detail⟩
    have := abortIfDraftOpen_target ⟨ta, some e⟩
      ⟨w.driver.count .addStageFailure, w.target, d⟩ detail
    simp only [propose, hs]
    grind -ring -linarith [fail]

lemma commitContext_effect (w : DriverWorld T D) : (commitContext E w).1.target = w.target ∧
    ((commitContext E w).2.status = .ok → (commitContext E w).1.driver.proposalOpen = false) := by
  rcases E with ⟨ta, _ | e⟩
  · simp [commitContext, fail]
  · rcases hc : e.commit w.draft with ⟨d, st, detail⟩
    have h := commitFailure_effect ⟨ta, some e⟩ ⟨w.driver.closeProposal, w.target, d⟩ detail rfl
    simp only [commitContext, hc]
    grind -ring -linarith [fail, count, closeProposal]

lemma commitOpenForBlock_effect (hp : Bool) (w : DriverWorld T D) :
    (commitOpenForBlock E hp w).1.target = w.target ∧
    ((commitOpenForBlock E hp w).1.driver.proposalOpen = false ∨
    (commitOpenForBlock E hp w).1 = w ∧
    (commitOpenForBlock E hp w).2.status ≠ .ok) := by
  rcases E with ⟨ta, _ | e⟩
  · simp [commitOpenForBlock, fail]
  · rcases hc : e.commit w.draft with ⟨d, st, detail⟩
    simp only [commitOpenForBlock, hc]
    grind -ring -linarith [fail, withoutDraft, count, closeProposal]

/-- A call that decodes once or not at all: it returns ok exactly if it decoded and the decode did,
and then hands out the decode's result. -/
structure DecodesAtMostOnce (t : TargetEndpoint T) (input : Token)
    (generation : TextGenerationConfig) (w : DriverWorld T D)
    (out : DriverWorld T D × Answer SpeculativeStepResult) : Prop where
  target : out.1.target = w.target ∧ out.2.status ≠ .ok ∨
    out.1.target = (t.decode input generation w.target).1 ∧
      (out.2.status = .ok ↔ (t.decode input generation w.target).2.1 = .ok)
  result : out.2.status = .ok →
    (out.2.output.getD {}).authoritative = (t.decode input generation w.target).2.2.1

variable (generation : TextGenerationConfig) (input : Token)

lemma targetOnly_decodes (hr : Bool) (w : DriverWorld T D) : DecodesAtMostOnce t input generation w
    (targetOnly ⟨some t, draft⟩ input generation hr w) ∧
    (targetOnly ⟨some t, draft⟩ input generation hr w).1.driver.proposalOpen =
    w.driver.proposalOpen ∧
    (targetOnly ⟨some t, draft⟩ input generation hr w).1.draft = w.draft ∧
    (w.driver.proposalOpen →
    (targetOnly ⟨some t, draft⟩ input generation hr w).1 = w) := by
  rcases hd : t.decode input generation w.target with ⟨ta, st, re, detail⟩
  simp only [targetOnly, hd]
  grind -ring -linarith [fail, count, DecodesAtMostOnce]

lemma verify_decodes (hr : Bool) (w : DriverWorld T D) : DecodesAtMostOnce t input generation w
    (verify ⟨some t, draft⟩ input generation hr w) ∧
    ((verify ⟨some t, draft⟩ input generation hr w).1.driver.proposalOpen = false ∨
    (verify ⟨some t, draft⟩ input generation hr w).1 = w) := by
  rcases draft with _ | e
  · rw [verify]
    grind -ring -linarith [fail, DecodesAtMostOnce]
  · rcases hd : t.decode input generation w.target with ⟨ta, st, re, detail⟩
    rcases hc : e.commit w.draft with ⟨d, cs, cd⟩
    have ha := abortOpen_effect ⟨some t, some e⟩ false
      ⟨w.driver.count .addTargetAttempt, ta, w.draft⟩
    have hf := commitFailure_effect ⟨some t, some e⟩
      ⟨(((w.driver.count .addTargetAttempt).count .addTargetToken).count
        .addDraftedToken).closeProposal, ta, d⟩ cd rfl
    simp only [verify, hd, hc]
    grind -ring -linarith [fail, count, withoutDraft, closeProposal, DecodesAtMostOnce]

lemma step_decodes (inputs : Option SpeculativeDraftInputs) (hr : Bool) (w : DriverWorld T D) :
    (step ⟨some t, draft⟩ input generation inputs hr w).1.target = w.target ∨
    (step ⟨some t, draft⟩ input generation inputs hr w).1.target =
    (t.decode input generation w.target).1 := by
  have htarg := fun w : DriverWorld T D => (targetOnly_decodes t draft generation input true w).1
  have hver := fun w : DriverWorld T D => (verify_decodes t draft generation input true w).1
  cases hr
  · exact .inl rfl
  · rcases inputs with _ | inputs
    · exact (htarg w).target.imp And.left And.left
    · have hp := (propose_effect ⟨some t, draft⟩ inputs true w).1
      have hv := (hver (propose ⟨some t, draft⟩ inputs true w).1).target
      have ht := (htarg (propose ⟨some t, draft⟩ inputs true w).1).target
      have hw := (htarg w).target
      rw [hp] at hv ht
      rw [step]
      grind -ring -linarith

lemma reset_effect (w : DriverWorld T D) :
    (reset ⟨some t, draft⟩ w).1.target = w.target ∧ (reset ⟨some t, draft⟩ w).2.status ≠ .ok ∨
    (reset ⟨some t, draft⟩ w).1.target = (t.reset w.target).1 ∧
    ((reset ⟨some t, draft⟩ w).2.status = .ok ↔ (t.reset w.target).2.1 = .ok) := by
  have ha := (abortOpen_effect ⟨some t, draft⟩ false w).1
  rcases hr : t.reset w.target with ⟨ta, st, detail⟩
  simp only [reset, ha, hr]
  grind -ring -linarith [fail]

end Driver

open Std.Do TextSession Hoare Greedy

variable (m : ModelFunction) (generation : TextGenerationConfig) (s₀ : SpeculativeSession)
  (input : Token)

lemma targetEndpoint_decode (t : TextSession) :
    ((targetEndpoint m).decode input generation t).2.1 = .ok ∧
    Decoded m input generation t ((targetEndpoint m).decode input generation t).2.2.1
    ((targetEndpoint m).decode input generation t).1 ∨
    ((targetEndpoint m).decode input generation t).2.1 ≠ .ok ∧
    NotDecoded generation t ((targetEndpoint m).decode input generation t).1 := by
  have h := ends_of_triple (decode_spec m generation t input)
  rcases hx : (TextSession.decode m input generation).run.run t with ⟨e | r, t'⟩ <;> rw [hx] at h
  · exact .inr (by simpa [targetEndpoint, hx] using ⟨e.failed, h⟩)
  · exact .inl (by simpa [targetEndpoint, hx] using h)

lemma targetEndpoint_reset (t : TextSession) : ((targetEndpoint m).reset t).2.1 = .ok ∧
        ((targetEndpoint m).reset t).1.decoder.resets = t.decoder.resets + 1 ∨
      ((targetEndpoint m).reset t).2.1 ≠ .ok ∧ ((targetEndpoint m).reset t).1.decoder =
          { t.decoder.close with committed := [], poisoned := true } := by
  have h := ends_of_triple (reset_spec t)
  rcases hx : TextSession.reset.run.run t with ⟨e | r, t'⟩ <;> rw [hx] at h
  · exact .inr (by simpa [targetEndpoint, hx] using ⟨e.failed, h.1⟩)
  · exact .inl ⟨by simp [targetEndpoint, hx], by simp [targetEndpoint, hx, h.1]⟩

variable (inputs : SpeculativeDraftInputs)

lemma draftEndpoint_stage (d : MtpSession) :
    (draftEndpoint.stage inputs d).1.committed = d.committed := by
  have h := ends_of_triple (MtpSession.stageToken_spec d inputs)
  rcases hx : (MtpSession.stageToken inputs).run.run d with ⟨e | r, d'⟩ <;> rw [hx] at h
  · simpa [draftEndpoint, hx] using h
  · simpa [draftEndpoint, hx] using h.1

namespace SpeculativeSession

structure SameConfig (s s' : SpeculativeSession) : Prop where
  requireExactDraft : s'.requireExactDraft = s.requireExactDraft
  proposalWidth : s'.proposalWidth = s.proposalWidth
  hasDraft : s'.hasDraft = s.hasDraft

structure TargetMoves (s s' : SpeculativeSession) : Prop extends SameConfig s s' where
  driver : s'.driver = s.driver
  draft : s'.draft = s.draft
  queue : s'.queue = s.queue

/-- The target's decoder and the queue stand; the draft and its proposal may have moved. -/
structure TargetStands (s s' : SpeculativeSession) : Prop extends SameConfig s s' where
  decoder : s'.target.decoder = s.target.decoder
  frame : Frame s.target s'.target
  queue : s'.queue = s.queue

attribute [grind cases] SameConfig TargetMoves TargetStands

lemma onTarget_triple {α : Type} {x : TextM α} {Q : α → TextSession → Prop}
    {R : TextError → TextSession → Prop}
    (h : ⦃fun t => ⌜t = s₀.target⌝⦄ x ⦃post⟨fun a t => ⌜Q a t⌝, fun e t => ⌜R e t⌝⟩⦄) :
    Runs (onTarget x) s₀
    (fun r s => TargetMoves s₀ s ∧ Ends Q R (r, s.target))
    fun _ _ => False := by
  have h' := ends_of_triple h
  mvcgen [onTarget]
  rename_i s hs r t hx
  subst hs
  rw [StateT.run, hx] at h'
  exact ⟨⟨⟨rfl, rfl, rfl⟩, rfl, rfl, rfl⟩, h'⟩

lemma onDraft_spec {α : Type} (x : MtpM α) : Runs (onDraft x) s₀
    (fun _ s => SameConfig s₀ s ∧ s.driver = s₀.driver ∧ s.target = s₀.target ∧ s.queue = s₀.queue)
    fun _ _ => False := by
  mvcgen [onDraft]
  rename_i s hs _ _ _
  subst hs
  exact ⟨⟨rfl, rfl, rfl⟩, rfl, rfl, rfl⟩

lemma onDriver_triple {α : Type} {m : ModelFunction}
    {f : Endpoints TextSession MtpSession → DriverWorld TextSession MtpSession →
      DriverWorld TextSession MtpSession × Answer α}
    {Q : Answer α → DriverWorld TextSession MtpSession → Prop}
    (h : Q (f (nativeEndpoints m s₀.hasDraft) ⟨s₀.driver, s₀.target, s₀.draft⟩).2
      (f (nativeEndpoints m s₀.hasDraft) ⟨s₀.driver, s₀.target, s₀.draft⟩).1) :
    Runs (onDriver m f) s₀
    (fun a s => SameConfig s₀ s ∧ s.queue = s₀.queue ∧ Q a ⟨s.driver, s.target, s.draft⟩)
    fun _ _ => False := by
  mvcgen [onDriver]
  rename_i s hs
  subst hs
  exact ⟨⟨rfl, rfl, rfl⟩, rfl, h⟩

@[spec]
lemma onTarget_decode : Runs (onTarget (TextSession.decode m input generation)) s₀
    (fun r s => TargetMoves s₀ s ∧ Ends (Decoded m input generation s₀.target)
        (fun _ => NotDecoded generation s₀.target) (r, s.target))
    fun _ _ => False :=
  onTarget_triple s₀ (decode_spec m generation s₀.target input)

@[spec]
lemma onTarget_stage (ts : List Token) :
    Runs (onTarget (TextSession.stageDecodeSequenceForSpeculation m ts)) s₀
    (fun r s => TargetMoves s₀ s ∧ Ends (BlockStaged m ts s₀.target)
        (fun _ => NotStaged s₀.target) (r, s.target))
    fun _ _ => False :=
  onTarget_triple s₀ (stageDecodeSequenceForSpeculation_spec m s₀.target ts)

@[spec]
lemma onTarget_prepareMtpInputs (next : Token) (p : Option MropePosition) :
    Runs (onTarget (TextSession.prepareMtpInputs next p)) s₀
    (fun r s => TargetMoves s₀ s ∧ Ends
        (fun _ t => t.decoder = s₀.target.decoder ∧ Frame s₀.target t ∧
          s₀.target.decoder.poisoned = false ∧ s₀.target.decoder.transactionOpen = false)
        (fun _ t => t.decoder = s₀.target.decoder ∧ Frame s₀.target t) (r, s.target))
    fun _ _ => False :=
  onTarget_triple s₀ (prepareMtpInputs_spec s₀.target next p)

@[spec]
lemma onTarget_commitStaged : Runs (onTarget TextSession.commitStagedSpeculativeSequence) s₀
    (fun r s => TargetMoves s₀ s ∧ Ends (fun _ t => t.decoder = { s₀.target.decoder.close with
            committed := s₀.target.decoder.committed ++ s₀.target.decoder.staged } ∧
          Frame { s₀.target with stagedSpeculativeTokens := 0 } t)
        (fun _ t => Failed s₀.target.decoder t.decoder ∧ (s₀.target.script = [] →
          s₀.target.stagedSpeculativeTokens = 0 ∨ Unready s₀.target.decoder)) (r, s.target))
    fun _ _ => False :=
  onTarget_triple s₀ (commitStagedSpeculativeSequence_spec s₀.target)

@[spec]
lemma onTarget_rollbackStaged : Runs (onTarget TextSession.rollbackStagedSpeculativeSequence) s₀
    (fun r s => TargetMoves s₀ s ∧ Ends (fun _ t => t.decoder = s₀.target.decoder.close ∧
          Frame { s₀.target with stagedSpeculativeTokens := 0 } t)
        (fun _ t => Harmless s₀.target.decoder t.decoder ∧ (s₀.target.script = [] →
          s₀.target.stagedSpeculativeTokens = 0 ∨ s₀.target.decoder.transactionOpen = false))
        (r, s.target))
    fun _ _ => False :=
  onTarget_triple s₀ (rollbackStagedSpeculativeSequence_spec s₀.target)

@[spec]
lemma driverDisableDraft_spec : Runs (driverDisableDraft m) s₀
    (fun _ s => SameConfig s₀ s ∧ s.queue = s₀.queue ∧ s.target = s₀.target ∧
        s.driver.proposalOpen = false)
    fun _ _ => False := by
  have h := onDriver_triple (m := m)
    (f := fun E w => (Driver.disableDraft E w, (⟨.ok, none, none⟩ : Answer Unit)))
    (Q := fun _ w => w.target = s₀.target ∧ w.driver.proposalOpen = false) s₀
    (Driver.disableDraft_effect _ _)
  mvcgen [driverDisableDraft, h]

@[spec]
lemma driverPropose_spec (hp : Bool) : Runs (driverPropose m inputs hp) s₀
    (fun a s => SameConfig s₀ s ∧ s.queue = s₀.queue ∧ s.target = s₀.target ∧
        (a.status = .ok → s.driver.proposalOpen ∧ s.draft.committed = s₀.draft.committed))
    fun _ _ => False := by
  refine onDriver_triple s₀ (Q := fun a w => w.target = s₀.target ∧ (a.status = .ok →
    w.driver.proposalOpen = true ∧ w.draft.committed = s₀.draft.committed)) ?_
  have h := Driver.propose_effect (nativeEndpoints m s₀.hasDraft) inputs hp
    ⟨s₀.driver, s₀.target, s₀.draft⟩
  refine ⟨h.1, fun ho => ?_⟩
  obtain ⟨hop, e, he, -, hdr⟩ := h.2 ho
  refine ⟨hop, ?_⟩
  have he' : e = draftEndpoint := by
    cases hd : s₀.hasDraft <;> simp_all [nativeEndpoints]
  rw [hdr, he', draftEndpoint_stage]

/-- A driver call that decodes at most once, with what became of the proposal. -/
structure DriverDecodes (m : ModelFunction) (input : Token) (generation : TextGenerationConfig)
    (s : SpeculativeSession) (a : Answer SpeculativeStepResult) (s' : SpeculativeSession) :
    Prop extends SameConfig s s' where
  queue : s'.queue = s.queue
  outcome :
    a.status = .ok ∧
      Decoded m input generation s.target (a.output.getD {}).authoritative s'.target ∨
    a.status ≠ .ok ∧ (s'.target = s.target ∨ NotDecoded generation s.target s'.target)
  proposal : s'.driver.proposalOpen = false ∨
    s'.driver = s.driver ∧ s'.target = s.target ∧ s'.draft = s.draft

attribute [grind cases] DriverDecodes

lemma decodesAtMostOnce_outcome {m : ModelFunction} {input : Token}
    {generation : TextGenerationConfig} {w : DriverWorld TextSession MtpSession}
    {out : DriverWorld TextSession MtpSession × Answer SpeculativeStepResult}
    (h : Driver.DecodesAtMostOnce (targetEndpoint m) input generation w out) : out.2.status = .ok ∧
    Decoded m input generation w.target (out.2.output.getD {}).authoritative out.1.target ∨
    out.2.status ≠ .ok ∧
      (out.1.target = w.target ∨ NotDecoded generation w.target out.1.target) := by
  have hd := targetEndpoint_decode m generation input w.target
  obtain ⟨ht, hr⟩ := h
  grind -ring -linarith

@[spec]
lemma driverVerify_spec (hr : Bool) : Runs (driverVerify m input generation hr) s₀
    (fun a s => DriverDecodes m input generation s₀ a s)
    fun _ _ => False := by
  have h := Driver.verify_decodes (targetEndpoint m) (nativeEndpoints m s₀.hasDraft).draft
    generation input hr ⟨s₀.driver, s₀.target, s₀.draft⟩
  have hs := decodesAtMostOnce_outcome h.1
  mvcgen [driverVerify, onDriver]
  rename_i s hs
  subst hs
  refine ⟨⟨rfl, rfl, rfl⟩, rfl, hs, h.2.imp id fun hw => ?_⟩
  exact ⟨congrArg DriverWorld.driver hw, congrArg DriverWorld.target hw,
    congrArg DriverWorld.draft hw⟩

@[spec]
lemma driverTargetOnly_spec : Runs (driverTargetOnly m input generation) s₀
    (fun a s => DriverDecodes m input generation s₀ a s)
    fun _ _ => False := by
  have h := Driver.targetOnly_decodes (targetEndpoint m) (nativeEndpoints m s₀.hasDraft).draft
    generation input true ⟨s₀.driver, s₀.target, s₀.draft⟩
  have hs := decodesAtMostOnce_outcome h.1
  mvcgen [driverTargetOnly, onDriver]
  rename_i s hs
  subst hs
  refine ⟨⟨rfl, rfl, rfl⟩, rfl, hs, ?_⟩
  cases ho : s.driver.proposalOpen with
  | false => exact .inl (h.2.1.trans ho)
  | true =>
    have hw := h.2.2.2 ho
    exact .inr ⟨congrArg DriverWorld.driver hw, congrArg DriverWorld.target hw,
      congrArg DriverWorld.draft hw⟩

@[spec]
lemma driverCommitOpenForBlock_spec : Runs (driverCommitOpenForBlock m) s₀
    (fun a s => SameConfig s₀ s ∧ s.queue = s₀.queue ∧ s.target = s₀.target ∧
        (s.driver.proposalOpen = false ∨
          s.driver = s₀.driver ∧ s.draft = s₀.draft ∧ a.status ≠ .ok))
    fun _ _ => False := by
  have h := Driver.commitOpenForBlock_effect (nativeEndpoints m s₀.hasDraft) true
    ⟨s₀.driver, s₀.target, s₀.draft⟩
  refine onDriver_triple s₀ (Q := fun a w => w.target = s₀.target ∧ (w.driver.proposalOpen = false ∨
      w.driver = s₀.driver ∧ w.draft = s₀.draft ∧ a.status ≠ .ok)) ⟨h.1, ?_⟩
  exact h.2.imp id fun hw =>
    ⟨congrArg DriverWorld.driver hw.1, congrArg DriverWorld.draft hw.1, hw.2⟩

def Aligned (s : SpeculativeSession) : Prop :=
  s.driver.proposalOpen = true → s.draft.committed + 1 = s.target.decoder.committed.length

attribute [grind =] Aligned

@[spec]
lemma stageNativeProposal_spec (next : Token) (p : Option MropePosition) :
    Runs (stageNativeProposal m next p) s₀
    (fun _ s => TargetStands s₀ s ∧ Aligned s)
    fun _ s => TargetStands s₀ s := by
  mvcgen [stageNativeProposal, throwAnswer, fail]
  all_goals grind -ring -linarith [TargetStands, SameConfig, Frame]

@[spec]
lemma stageNext_spec (re : SpeculativeStepResult) (next : NextProposal) :
    Runs (stageNext m re next) s₀
    (fun r s => TargetStands s₀ s ∧ Aligned s ∧ r.authoritative = re.authoritative)
    fun _ s => TargetStands s₀ s ∧ Aligned s ∧ s₀.requireExactDraft = true := by
  mvcgen [stageNext, fail]
  all_goals grind -ring -linarith [TargetStands, SameConfig, Frame]

@[spec]
lemma targetFallback_spec (co : Nat) (d : String) : Runs (targetFallback m input generation co d) s₀
    (fun r s => SameConfig s₀ s ∧ s.queue = s₀.queue ∧ s.driver.proposalOpen = false ∧
        Decoded m input generation s₀.target r.authoritative s.target)
    fun _ s => SameConfig s₀ s ∧ s.queue = s₀.queue ∧ s.driver.proposalOpen = false ∧
        NotDecoded generation s₀.target s.target := by
  mvcgen [targetFallback, onDraft_spec, fail]
  all_goals grind -ring -linarith [SameConfig]

lemma draftChain_spec (n : Nat) (p : Token) : Runs (draftChain n p) s₀
    (fun ds s => TargetStands s₀ s ∧ s.driver = s₀.driver ∧ ds.length = n)
    fun _ s => TargetStands s₀ s ∧ s.driver = s₀.driver := by
  induction n generalizing p s₀ with
  | zero =>
    mvcgen [draftChain]
    all_goals grind -ring -linarith [TargetStands, SameConfig, Frame]
  | succ n ih =>
    mvcgen [draftChain, onDraft_spec, ih, fail]
    all_goals grind -ring -linarith [TargetStands, SameConfig, Frame]

@[spec]
lemma verifyBlock_spec (ro : Token) (wi : Nat) : Runs (verifyBlock m input ro wi) s₀
    (fun b s => SameConfig s₀ s ∧ s.queue = s₀.queue ∧ s.driver = s₀.driver ∧
        b.drafts ≠ [] ∧ b.inputs = input :: b.drafts.dropLast ∧
        BlockStaged m b.inputs s₀.target b.verified s.target)
    fun _ s => SameConfig s₀ s ∧ s.queue = s₀.queue ∧ s.driver = s₀.driver ∧
        NotStaged s₀.target s.target := by
  mvcgen [verifyBlock, draftChain_spec, fail]
  all_goals grind -ring -linarith [SameConfig, Frame, Harmless, NotStaged, BlockStaged.of_frame,
    NotStaged.of_frame]

@[spec]
lemma settleBlock_spec (ro : SpeculativeProposal) (committed : Nat) (b : VerifiedBlock) :
    Runs (settleBlock ro committed b) s₀
    (fun v s => SameConfig s₀ s ∧ s.queue = s₀.queue ∧ s.driver = s₀.driver ∧
        Frame { s₀.target with stagedSpeculativeTokens := 0 } s.target ∧
        (b.accepted = b.drafts.length ∧ v = .committed ro b.verified ∧
            s.target.decoder = { s₀.target.decoder.close with
              committed := s₀.target.decoder.committed ++ s₀.target.decoder.staged } ∨
          b.accepted ≠ b.drafts.length ∧
            v = .replay ro b.accepted ((b.inputs.zip b.verified).take (b.accepted + 1)) ∧
            s.target.decoder = s₀.target.decoder.close))
    fun _ s => SameConfig s₀ s ∧ s.queue = s₀.queue ∧ s.driver = s₀.driver ∧
        Failed s₀.target.decoder s.target.decoder ∧ (s₀.target.script = [] →
          s.target.decoder = s₀.target.decoder.close ∧
            Frame { s₀.target with stagedSpeculativeTokens := 0 } s.target ∨
          s₀.target.stagedSpeculativeTokens = 0 ∨ Unready s₀.target.decoder) := by
  mvcgen [settleBlock, onDraft_spec, fail]
  all_goals grind -ring -linarith [SameConfig, Failed, Frame]

end SpeculativeSession

end AxiomKernel.Qwen4exp
