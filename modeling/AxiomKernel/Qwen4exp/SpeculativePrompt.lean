import AxiomKernel.Qwen4exp.SpeculativeSpecs

/-! The prompt of the speculative session and its remaining calls: what a prompt reads into the
target, and that a stuck target waits for a reset. -/
set_option mvcgen.warning false

namespace AxiomKernel.Qwen4exp.SpeculativeSession

open Std.Do TextSession Hoare

def Waits (s s' : SpeculativeSession) : Prop :=
  s'.queue = s.queue ∧ StaysStuck s.target.decoder s'.target.decoder

attribute [grind =] Waits

variable (m : ModelFunction) (generation : TextGenerationConfig) (s₀ : SpeculativeSession)

lemma targetEndpoint_reset_staysStuck (t : TextSession) :
    StaysStuck t.decoder ((targetEndpoint m).reset t).1.decoder := by
  have h := targetEndpoint_reset m t
  constructor <;> grind -ring -linarith

@[spec]
lemma driverReset_spec : Runs (driverReset m) s₀ (fun _ s => SameConfig s₀ s ∧ Waits s₀ s)
    fun _ _ => False := by
  refine onDriver_triple s₀ (Q := fun _ w => StaysStuck s₀.target.decoder w.target.decoder) ?_
  have h := Driver.reset_effect (targetEndpoint m) (nativeEndpoints m s₀.hasDraft).draft
    ⟨s₀.driver, s₀.target, s₀.draft⟩
  rcases h with ⟨h, -⟩ | ⟨h, -⟩
  · exact h ▸ StaysStuck.refl _
  · exact h ▸ targetEndpoint_reset_staysStuck m s₀.target

@[spec]
lemma driverCommitContext_spec : Runs (driverCommitContext m) s₀
    (fun a s => SameConfig s₀ s ∧ s.queue = s₀.queue ∧ s.target = s₀.target ∧
        (a.status = .ok → s.driver.proposalOpen = false))
    fun _ _ => False :=
  onDriver_triple s₀ (Q := fun a w => w.target = s₀.target ∧
    (a.status = .ok → w.driver.proposalOpen = false)) (Driver.commitContext_effect _ _)

section
variable (token : Token) (position : Option MropePosition) (final : Bool)

@[spec]
lemma onTarget_prefillToken :
    Runs (onTarget (TextSession.prefillTokenForSpeculation m token position final generation)) s₀
    (fun r s => TargetMoves s₀ s ∧ Ends (Prefilled m token final generation s₀.target)
        (fun _ t => Failed s₀.target.decoder t.decoder ∧
          (s₀.target.decoder.transactionOpen → t.decoder = s₀.target.decoder))
        (r, s.target))
    fun _ _ => False :=
  onTarget_triple s₀ (prefillTokenForSpeculation_spec m generation s₀.target token position final)

@[spec]
lemma prefillToken_spec : Runs (prefillToken m token position final generation) s₀
    (fun r s => TargetMoves s₀ s ∧ Prefilled m token final generation s₀.target r s.target)
    fun _ s => Waits s₀ s := by
  mvcgen [prefillToken, fail]
  all_goals grind -ring -linarith [StaysStuck]

end

section
variable (candidate : Token) (position : Option MropePosition) (final : Bool)

@[spec]
lemma primeDraft_spec : Runs (primeDraft m candidate position final) s₀
    (fun _ s => TargetStands s₀ s ∧ Aligned s)
    fun _ s => TargetStands s₀ s := by
  mvcgen [primeDraft, throwAnswer]
  all_goals grind -ring -linarith [TargetStands, SameConfig, Frame]

@[spec]
lemma primeOrDisable_spec (re : String) : Runs (primeOrDisable m candidate position final re) s₀
    (fun _ s => TargetStands s₀ s ∧ Aligned s)
    fun _ s => Waits s₀ s := by
  mvcgen [primeOrDisable, fail]
  all_goals grind -ring -linarith [TargetStands, SameConfig, Frame, StaysStuck]

end

structure Reads (m : ModelFunction) (generation : TextGenerationConfig) (tokens : List Token)
    (s : SpeculativeSession) (r : TextTokenResult) (s' : SpeculativeSession) : Prop
    extends SameConfig s s' where
  nonempty : tokens ≠ []
  queue : s'.queue = s.queue
  commits : Commits s.target.decoder s'.target.decoder tokens
  quiet : s.target.script = [] → s'.target.script = []
  mrope : s.target.decoder.committed = [] ∨ s.target.multimodalMropeActive = false →
    s'.target.multimodalMropeActive = false
  token : Selects m generation (s.target.decoder.committed ++ tokens) r.tokenId

attribute [grind cases] Reads

variable (tokens : List Token)

lemma prefillTokens_spec (hn : tokens ≠ []) : Runs (prefillTokens m generation tokens) s₀
    (fun r s => Reads m generation tokens s₀ r s ∧ Aligned s)
    fun _ s => Waits s₀ s := by
  induction tokens generalizing s₀ with
  | nil => exact absurd rfl hn
  | cons token tokens ih =>
    rw [prefillTokens]
    cases tokens with
    | nil =>
      mvcgen
      case vc1 =>
        rename_i s hs r s₁ h₁ _ _ s₂ h₂
        obtain ⟨hm, hr⟩ := h₁
        have htok := hr.token rfl
        refine ⟨⟨by grind -ring -linarith [SameConfig], hn, by grind -ring -linarith, ?_,
          by grind -ring -linarith, by grind -ring -linarith, s.target.tick,
          by grind -ring -linarith⟩, h₂.2⟩
        constructor <;> grind -ring -linarith
      all_goals grind -ring -linarith [StaysStuck]
    | cons to' tokens =>
      have ih := fun s => ih s (by simp)
      mvcgen [ih]
      case vc2 =>
        rename_i s hs r s₁ h₁ _ _ s₂ h₂ re s₃
        intro hre ha
        obtain ⟨hm, hr⟩ := h₁
        obtain ⟨ti, htok⟩ := hre.token
        refine ⟨⟨by grind -ring -linarith [SameConfig], hn, by grind -ring -linarith, ?_,
          by grind -ring -linarith, by grind -ring -linarith, ti,
          by grind -ring -linarith⟩, ha⟩
        constructor <;> grind -ring -linarith
      all_goals grind -ring -linarith [StaysStuck]

@[spec]
lemma onTarget_prefill : Runs (onTarget (TextSession.prefill m tokens generation)) s₀
    (fun r s => TargetMoves s₀ s ∧ Ends (fun r t => Commits s₀.target.decoder t.decoder tokens ∧
          s₀.target.decoder.committed = [] ∧ (s₀.target.script = [] → t.script = []) ∧
          t.stagedSpeculativeTokens = s₀.target.stagedSpeculativeTokens ∧
          t.multimodalMropeActive = false ∧ ∃ ti, r.tokenId = (m.select generation ti tokens).1)
        (fun _ t => StaysStuck s₀.target.decoder t.decoder) (r, s.target))
    fun _ _ => False :=
  onTarget_triple s₀ (prefill_spec m generation s₀.target tokens)

@[spec]
lemma targetPrefill_spec : Runs (targetPrefill m tokens generation) s₀
    (fun r s => Reads m generation tokens s₀ r s ∧ (s₀.driver.proposalOpen = false → Aligned s))
    fun _ s => Waits s₀ s := by
  mvcgen [targetPrefill, prefillTokens_spec, fail]
  case vc3 =>
    rename_i hs _ _ r _ s₁ h
    obtain ⟨hm, hco, hf, hq, -, hmr, ti, ht⟩ := h
    refine ⟨⟨by grind -ring -linarith [SameConfig], by grind -ring -linarith,
      by grind -ring -linarith, by grind -ring -linarith, by grind -ring -linarith,
      fun _ => hmr, ti, ?_⟩, ?_⟩
    · rw [ht, ← hs, hf]
      rfl
    · intro hc ho
      rw [hm.driver, hs, hc] at ho
      cases ho
  all_goals grind -ring -linarith [StaysStuck]

/-! The other calls move a stuck target only by a reset. -/

lemma prefillRows_keeps (re : MultimodalReport) (rs : List (Token × MropePosition)) :
    ⦃fun s => ⌜Waits s₀ s⌝⦄ prefillRows m generation re rs
    ⦃post⟨fun _ s => ⌜Waits s₀ s⌝, fun _ s => ⌜Waits s₀ s⌝⟩⦄ := by
  induction rs with
  | nil => mvcgen [prefillRows]
  | cons row rs ih =>
    obtain ⟨token, position⟩ := row
    rw [prefillRows]
    mvcgen [ih]
    all_goals grind -ring -linarith [StaysStuck]

variable (prompt : MultimodalPrompt)

@[spec]
lemma onTarget_prefillMultimodal :
    Runs (onTarget (TextSession.prefillMultimodal m prompt generation)) s₀
    (fun r s => TargetMoves s₀ s ∧ Ends (fun _ t => StaysStuck s₀.target.decoder t.decoder)
        (fun _ t => StaysStuck s₀.target.decoder t.decoder) (r, s.target))
    fun _ _ => False :=
  onTarget_triple s₀ (prefillMultimodal_spec m generation s₀.target prompt)

@[spec]
lemma onTarget_finishMultimodal (position : UInt32) (av : Bool) :
    Runs (onTarget (TextSession.finishSpeculativeMultimodalPrefill position av)) s₀
    (fun r s => TargetMoves s₀ s ∧ Ends (fun _ t => t.decoder = s₀.target.decoder)
        (fun _ t => t.decoder = s₀.target.decoder) (r, s.target))
    fun _ _ => False :=
  onTarget_triple s₀ (finishSpeculativeMultimodalPrefill_spec s₀.target position av)

@[spec]
lemma targetPrefillMultimodal_spec : Runs (targetPrefillMultimodal m prompt generation) s₀
    (fun _ s => Waits s₀ s)
    fun _ s => Waits s₀ s := by
  mvcgen [targetPrefillMultimodal, prefillRows_keeps, fail]
  all_goals grind -ring -linarith [StaysStuck]

lemma driverStep_spec (i : Token) (inp : Option SpeculativeDraftInputs) (hr : Bool) :
    Runs (driverStep m i generation inp hr) s₀
    (fun _ s => SameConfig s₀ s ∧ Waits s₀ s)
    fun _ _ => False := by
  refine onDriver_triple s₀ (Q := fun _ w => StaysStuck s₀.target.decoder w.target.decoder) ?_
  rcases Driver.step_decodes (targetEndpoint m) (nativeEndpoints m s₀.hasDraft).draft
    generation i inp hr ⟨s₀.driver, s₀.target, s₀.draft⟩ with h | h
  · exact h ▸ StaysStuck.refl _
  · rw [show (Driver.step (nativeEndpoints m s₀.hasDraft) i generation inp hr
      ⟨s₀.driver, s₀.target, s₀.draft⟩).1.target = _ from h]
    rcases targetEndpoint_decode m generation i s₀.target with ⟨-, hd⟩ | ⟨-, hd⟩
    · exact hd.commits.staysStuck
    · exact hd.failed.staysStuck hd.opened

end AxiomKernel.Qwen4exp.SpeculativeSession
