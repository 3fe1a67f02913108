import AxiomKernel.Lib.Hoare
import AxiomKernel.Qwen4exp.TextSession

/-! Specifications of the text session: what each operation commits, what a failure leaves, and that
nothing fails without a reason once the leaf operations succeed. -/
set_option mvcgen.warning false

namespace AxiomKernel.Qwen4exp

/-! Relations between the decoder before and after an operation. -/

variable (d : DecoderSession) (d' : DecoderSession)

structure Harmless : Prop where
  committed : d'.committed = d.committed
  poisoned : d.poisoned = true → d'.poisoned = true
  resets : d'.resets = d.resets
  capacity : d'.contextCapacity = d.contextCapacity

/-- Nothing was committed, or the decoder is poisoned; and no reset was made. -/
structure Failed : Prop where
  committed : d'.committed = d.committed ∨ d'.poisoned = true
  poisoned : d.poisoned = true → d'.poisoned = true
  resets : d'.resets = d.resets
  capacity : d'.contextCapacity = d.contextCapacity

/-- The tokens were committed to a decoder that is closed and usable before and after. -/
structure Commits (tokens : List Token) : Prop where
  committed : d'.committed = d.committed ++ tokens
  usable : d.poisoned = false
  stays : d'.poisoned = false
  closed : d.transactionOpen = false
  closes : d'.transactionOpen = false
  resets : d'.resets = d.resets
  capacity : d'.contextCapacity = d.contextCapacity

def Stuck : Prop := d.poisoned = true ∨ d.transactionOpen = true

structure StaysStuck : Prop where
  resets : d.resets ≤ d'.resets
  stuck : Stuck d → Stuck d' ∨ d.resets < d'.resets

attribute [grind cases] Harmless Failed Commits StaysStuck
attribute [grind =] Stuck DecoderSession.close

lemma StaysStuck.refl : StaysStuck d d := ⟨le_rfl, .inl⟩

lemma Commits.staysStuck {d d' : DecoderSession} {ts : List Token}
    (h : Commits d d' ts) : StaysStuck d d' := by
  constructor <;> grind -ring -linarith

lemma Failed.staysStuck {d d' : DecoderSession} (h : Failed d d')
    (ho : d.transactionOpen → d' = d) : StaysStuck d d' := by
  constructor <;> grind -ring -linarith

namespace TextSession

open Std.Do Greedy Hoare

structure Frame (t t' : TextSession) : Prop where
  quiet : t.script = [] → t'.script = []
  mrope : t'.multimodalMropeActive = t.multimodalMropeActive
  pending : t'.stagedSpeculativeTokens = t.stagedSpeculativeTokens
  tick : t'.tick = t.tick

attribute [grind cases] Frame

section
variable (t : TextSession)

@[spec]
lemma leaf_spec : Runs leaf t (fun _ s => s.decoder = t.decoder ∧ Frame t s)
    fun _ s => s.decoder = t.decoder ∧ Frame t s ∧ t.script ≠ [] := by
  mvcgen [leaf]
  all_goals grind -ring -linarith [Frame]

@[spec]
lemma begin_spec : Runs begin_ t (fun _ s => s.decoder =
          { t.decoder with transactionOpen := true, staged := [], stagedLayers := 0 } ∧
        t.decoder.poisoned = false ∧ t.decoder.transactionOpen = false ∧ Frame t s)
    fun _ s => s.decoder = t.decoder ∧ Frame t s ∧
        (t.script = [] → t.decoder.poisoned ∨ t.decoder.transactionOpen ∨
          t.decoder.contextCapacity ≤ t.decoder.committed.length) := by
  mvcgen [begin_, sessionFail, modifyDecoder]
  all_goals grind -ring -linarith [Frame]

@[spec]
lemma rollbackOpenLayers_spec : Runs rollbackOpenLayers t
    (fun _ s => s.decoder = t.decoder.close ∧ Frame t s)
    fun _ s => s.decoder = { t.decoder.close with poisoned := true } ∧ Frame t s ∧
        t.script ≠ [] := by
  mvcgen [rollbackOpenLayers, sessionFail, modifyDecoder]
  all_goals grind -ring -linarith [Frame]

@[spec]
lemma stageAllSequence_spec (tokens : List Token) : Runs (stageAllSequence tokens) t
    (fun _ s => s.decoder =
          { t.decoder with staged := tokens, stagedLayers := kModelSessionLayerCount } ∧
        Frame t s)
    fun _ s => Harmless t.decoder s.decoder ∧ Frame t s ∧ (t.script = [] →
        t.decoder.poisoned ∨ t.decoder.transactionOpen = false ∨ tokens.length = 0 ∨
        kDecoderMaxSpeculativeTokens < tokens.length ∨ t.decoder.stagedLayers ≠ 0 ∨
        t.decoder.staged ≠ [] ∨
        t.decoder.contextCapacity < t.decoder.committed.length + tokens.length) := by
  mvcgen [stageAllSequence, sessionFail, modifyDecoder]
  all_goals grind -ring -linarith [Frame, Harmless]

@[simp, grind =]
def Unready (d : DecoderSession) : Prop := d.transactionOpen = false ∨ d.staged.length = 0 ∨
    kDecoderMaxSpeculativeTokens < d.staged.length ∨ d.stagedLayers ≠ kModelSessionLayerCount

@[spec]
lemma commitAll_spec : Runs commitAll t (fun _ s => s.decoder =
        { t.decoder.close with committed := t.decoder.committed ++ t.decoder.staged } ∧ Frame t s)
    fun _ s => Failed t.decoder s.decoder ∧ Frame t s ∧ (t.script = [] → Unready t.decoder) := by
  mvcgen [commitAll, sessionFail, modifyDecoder]
  all_goals grind -ring -linarith [Frame, Failed]

@[spec]
lemma rollbackAll_spec : Runs rollbackAll t (fun _ s => s.decoder = t.decoder.close ∧ Frame t s)
    fun _ s => Harmless t.decoder s.decoder ∧ s.decoder.transactionOpen = false ∧ Frame t s ∧
        (t.script = [] → t.decoder.transactionOpen = false) := by
  mvcgen [rollbackAll, sessionFail]
  all_goals grind -ring -linarith [Frame, Harmless]

@[spec]
lemma resetDecoder_spec : Runs resetDecoder t (fun _ s => s.decoder = { t.decoder.close with
            committed := [], poisoned := false, resets := t.decoder.resets + 1 } ∧ Frame t s)
    fun _ s => s.decoder = { t.decoder.close with committed := [], poisoned := true } ∧
        Frame t s ∧ t.script ≠ [] := by
  mvcgen [resetDecoder, sessionFail, modifyDecoder]
  all_goals grind -ring -linarith [Frame]

@[spec]
lemma abortTransaction_spec {α : Type} (cause : TextError) :
    Runs (abortTransaction cause : TextM α) t
    (fun _ _ => False)
    fun _ s => Harmless t.decoder s.decoder ∧ s.decoder.transactionOpen = false ∧ Frame t s := by
  mvcgen [abortTransaction, fail]
  all_goals grind -ring -linarith [Frame, Harmless]

@[spec]
lemma leafOrAbort_spec : Runs leafOrAbort t (fun _ s => s.decoder = t.decoder ∧ Frame t s)
    fun _ s => Harmless t.decoder s.decoder ∧ s.decoder.transactionOpen = false ∧ Frame t s ∧
        t.script ≠ [] := by
  mvcgen [leafOrAbort]
  all_goals grind -ring -linarith [Frame]

@[spec]
lemma restoreTextRopeTable_spec : Runs restoreTextRopeTable t
    (fun _ s => s.decoder = t.decoder ∧ Frame t s)
    fun _ s => s.decoder = t.decoder ∧ Frame t s := by
  mvcgen [restoreTextRopeTable]
  all_goals grind -ring -linarith [Frame]

@[spec]
lemma installMropeRow_spec (p : MropePosition) : Runs (installMropeRow p) t
    (fun _ s => s.decoder = t.decoder ∧ Frame t s)
    fun _ s => s.decoder = t.decoder ∧ Frame t s := by
  mvcgen [installMropeRow, fail]
  all_goals grind -ring -linarith [Frame]

end

variable (m : ModelFunction) (generation : TextGenerationConfig)

@[spec]
lemma runToken_spec (t : TextSession) (token : Token) (position : Option MropePosition)
    (produce : Bool) :
    Runs (runToken m token position produce generation) t
    (fun r s => Commits t.decoder s.decoder [token] ∧ Frame { t with tick := t.tick + 1 } s ∧
        (produce → r.tokenId = (m.select generation t.tick (t.decoder.committed ++ [token])).1))
    fun _ s => Failed t.decoder s.decoder ∧ Frame t s ∧ (t.script = [] →
        s.decoder = t.decoder ∧ (generationValid generation = false ∨ t.decoder.poisoned ∨
          t.decoder.transactionOpen ∨ position ≠ none ∨
          t.decoder.contextCapacity ≤ t.decoder.committed.length)) := by
  mvcgen [runToken, fail]
  all_goals grind -ring -linarith [Frame, Harmless, Failed, Commits, kDecoderMaxSpeculativeTokens]

/-- A decode that returned ok: the input is committed, and the token is the model's. -/
structure Decoded (m : ModelFunction) (input : Token) (generation : TextGenerationConfig)
    (t : TextSession) (r : TextTokenResult) (t' : TextSession) : Prop where
  commits : Commits t.decoder t'.decoder [input]
  frame : Frame { t with tick := t.tick + 1 } t'
  token : r.tokenId = (m.select generation t.tick (t.decoder.committed ++ [input])).1
  prompted : t.decoder.committed ≠ []

/-- A decode that failed; where the leaves succeed it had a reason and changed nothing. -/
structure NotDecoded (generation : TextGenerationConfig) (t t' : TextSession) : Prop where
  failed : Failed t.decoder t'.decoder
  frame : Frame t t'
  opened : t.decoder.transactionOpen = true → t'.decoder = t.decoder
  unchanged : t.script = [] → t'.decoder = t.decoder
  reason : t.script = [] → generationValid generation = false ∨ t.decoder.poisoned = true ∨
    t.decoder.transactionOpen = true ∨ t.multimodalMropeActive = true ∨
    t.decoder.committed = [] ∨ t.decoder.contextCapacity ≤ t.decoder.committed.length

attribute [grind cases] Decoded NotDecoded

variable (t : TextSession)

@[spec]
lemma decode_spec (input : Token) : Runs (decode m input generation) t
    (fun r s => Decoded m input generation t r s)
    fun _ s => NotDecoded generation t s := by
  mvcgen [decode, fail]
  all_goals (intros; constructor <;> grind -ring -linarith [Frame, Failed, Commits])

/-! The staged block and the handoff to the draft. -/

/-- A block that was staged: the transaction is open over it, with the model's rows. -/
structure BlockStaged (m : ModelFunction) (tokens : List Token) (t : TextSession)
    (rows : List TextTokenResult) (t' : TextSession) : Prop where
  staged : t'.decoder = { t.decoder with
    transactionOpen := true, staged := tokens, stagedLayers := kModelSessionLayerCount }
  frame : Frame { t with tick := t.tick + 1, stagedSpeculativeTokens := tokens.length } t'
  usable : t.decoder.poisoned = false
  closed : t.decoder.transactionOpen = false
  prompted : t.decoder.committed ≠ []
  bounds : 2 ≤ tokens.length ∧ tokens.length ≤ kDecoderMaxSpeculativeTokens
  room : t.decoder.committed.length + tokens.length ≤ t.decoder.contextCapacity
  rows : rows = blockRows m t.tick t.decoder.committed tokens

structure NotStaged (t' : TextSession) : Prop where
  harmless : Harmless t.decoder t'.decoder
  frame : Frame t t'
  opened : t.decoder.transactionOpen = true → t'.decoder = t.decoder
  unchanged : t.script = [] → t'.decoder = t.decoder

attribute [grind cases] BlockStaged NotStaged

@[spec]
lemma stageDecodeSequenceForSpeculation_spec
    (tokens : List Token) : Runs (stageDecodeSequenceForSpeculation m tokens) t
    (fun rows s => BlockStaged m tokens t rows s)
    fun _ s => NotStaged t s := by
  mvcgen [stageDecodeSequenceForSpeculation, fail]
  all_goals (intros; constructor <;> grind -ring -linarith [Frame, Harmless])

section
variable {t₀ t t' : TextSession} (hd : t.decoder = t₀.decoder) (hf : Frame t₀ t)
include hd hf

/-- What happened before, short of moving the decoder, does not matter to a block. -/
lemma BlockStaged.of_frame {m : ModelFunction} {ts : List Token} {rs : List TextTokenResult}
    (h : BlockStaged m ts t rs t') : BlockStaged m ts t₀ rs t' := by
  constructor <;> grind -ring -linarith [Frame]

lemma NotStaged.of_frame (h : NotStaged t t') : NotStaged t₀ t' := by
  constructor <;> grind -ring -linarith [Frame, Harmless]

end

@[spec]
lemma commitStagedSpeculativeSequence_spec (t : TextSession) :
    Runs commitStagedSpeculativeSequence t
    (fun _ s => s.decoder =
        { t.decoder.close with committed := t.decoder.committed ++ t.decoder.staged } ∧
        Frame { t with stagedSpeculativeTokens := 0 } s)
    fun _ s => Failed t.decoder s.decoder ∧ (t.script = [] → t.stagedSpeculativeTokens = 0 ∨
        Unready t.decoder) := by
  mvcgen [commitStagedSpeculativeSequence, fail]
  all_goals grind -ring -linarith [Frame, Failed]

@[spec]
lemma rollbackStagedSpeculativeSequence_spec (t : TextSession) :
    Runs rollbackStagedSpeculativeSequence t
    (fun _ s => s.decoder = t.decoder.close ∧ Frame { t with stagedSpeculativeTokens := 0 } s)
    fun _ s => Harmless t.decoder s.decoder ∧ (t.script = [] → t.stagedSpeculativeTokens = 0 ∨
        t.decoder.transactionOpen = false) := by
  mvcgen [rollbackStagedSpeculativeSequence, fail]
  all_goals grind -ring -linarith [Frame, Harmless]

variable (t : TextSession)

@[spec]
lemma prepareMtpInputs_spec (next : Token) (p : Option MropePosition) :
    Runs (prepareMtpInputs next p) t
    (fun _ s => s.decoder = t.decoder ∧ Frame t s ∧ t.decoder.poisoned = false ∧
        t.decoder.transactionOpen = false)
    fun _ s => s.decoder = t.decoder ∧ Frame t s := by
  mvcgen [prepareMtpInputs, fail]
  all_goals grind -ring -linarith [Frame]

/-- A token the model selects after a history, in one of its computations. -/
def Selects (m : ModelFunction) (generation : TextGenerationConfig) (h : List Token)
    (token : Token) : Prop :=
  ∃ tick, token = (m.select generation tick h).1

lemma blockRows_cons (ti : Nat) (h : List Token) (x : Token)
    (xs : List Token) : (blockRows m ti h (x :: xs)).map TextTokenResult.tokenId =
    (m.argmax ti (h ++ [x])).1 ::
    (blockRows m ti (h ++ [x]) xs).map TextTokenResult.tokenId := by
  cases xs <;> simp [blockRows, Function.comp_def]

lemma answers_blockRows {generation : TextGenerationConfig}
    (hg : generation.mode = .argmax) (ti : Nat) (h ts : List Token) :
    Answers (Selects m generation) h ts
    ((blockRows m ti h ts).map TextTokenResult.tokenId) := by
  induction ts generalizing h with
  | nil => simp [blockRows, Answers]
  | cons x xs ih =>
    rw [blockRows_cons]
    refine ⟨⟨ti, ?_⟩, ih (h ++ [x])⟩
    rw [ModelFunction.select, hg]

structure Prefilled (m : ModelFunction) (token : Token) (final : Bool)
    (generation : TextGenerationConfig) (t : TextSession) (r : TextTokenResult)
    (t' : TextSession) : Prop where
  commits : Commits t.decoder t'.decoder [token]
  quiet : t.script = [] → t'.script = []
  pending : t'.stagedSpeculativeTokens = t.stagedSpeculativeTokens
  mrope : t.decoder.committed = [] ∨ t.multimodalMropeActive = false →
    t'.multimodalMropeActive = false
  token : final = true → r.tokenId = (m.select generation t.tick (t.decoder.committed ++ [token])).1

attribute [grind cases] Prefilled

@[spec]
lemma prefillTokenForSpeculation_spec (token : Token)
    (position : Option MropePosition) (final : Bool) :
    Runs (prefillTokenForSpeculation m token position final generation) t
    (fun r s => Prefilled m token final generation t r s)
    fun _ s => Failed t.decoder s.decoder ∧
        (t.decoder.transactionOpen → s.decoder = t.decoder) := by
  mvcgen [prefillTokenForSpeculation, fail]
  all_goals grind -ring -linarith [Frame, Failed, Commits, Prefilled]

lemma prefillTokens_spec (rows : List (Token × Option MropePosition)) (t : TextSession) :
    Runs (prefillTokens m generation rows) t
    (fun r s => (rows = [] ∧ s.decoder = t.decoder) ∨ (rows ≠ [] ∧
        Commits t.decoder s.decoder (rows.map Prod.fst) ∧ (t.script = [] → s.script = []) ∧
        s.stagedSpeculativeTokens = t.stagedSpeculativeTokens ∧
        s.multimodalMropeActive = t.multimodalMropeActive ∧ ∃ tick, r.tokenId =
          (m.select generation tick (t.decoder.committed ++ rows.map Prod.fst)).1))
    fun _ s => s.decoder.resets = t.decoder.resets ∧ (t.decoder.poisoned → s.decoder.poisoned) := by
  induction rows generalizing t with
  | nil =>
    mvcgen [prefillTokens]
    grind -ring -linarith
  | cons row rows ih =>
    obtain ⟨token, position⟩ := row
    cases rows with
    | nil =>
      mvcgen [prefillTokens]
      all_goals grind -ring -linarith [Frame, Failed, Commits]
    | cons row rows =>
      mvcgen [prefillTokens, ih]
      all_goals grind -ring -linarith [Frame, Failed, Commits]

@[simp, grind =]
lemma textRows_fst (tokens : List Token) : (textRows tokens).map Prod.fst = tokens := by
  simp [textRows, Function.comp_def]

@[simp, grind =]
lemma textRows_eq_nil (ts : List Token) : textRows ts = [] ↔ ts = [] := by
  simp [textRows]

section
variable (t : TextSession)

@[spec]
lemma prefill_spec (ts : List Token) : Runs (prefill m ts generation) t
    (fun r s => Commits t.decoder s.decoder ts ∧ t.decoder.committed = [] ∧
        (t.script = [] → s.script = []) ∧
        s.stagedSpeculativeTokens = t.stagedSpeculativeTokens ∧ s.multimodalMropeActive = false ∧
        ∃ ti, r.tokenId = (m.select generation ti ts).1)
    fun _ s => StaysStuck t.decoder s.decoder := by
  mvcgen [prefill, prefillTokens_spec, clearMrope, fail]
  all_goals grind -ring -linarith [Frame, Commits, StaysStuck]

@[spec]
lemma prefillMultimodal_spec (p : MultimodalPrompt) : Runs (prefillMultimodal m p generation) t
    (fun _ s => StaysStuck t.decoder s.decoder)
    fun _ s => StaysStuck t.decoder s.decoder := by
  mvcgen [prefillMultimodal, prefillTokens_spec, clearMrope, fail]
  all_goals grind -ring -linarith [Frame, Commits, StaysStuck]

@[spec]
lemma finishSpeculativeMultimodalPrefill_spec (p : UInt32) (av : Bool) :
    Runs (finishSpeculativeMultimodalPrefill p av) t
    (fun _ s => s.decoder = t.decoder)
    fun _ s => s.decoder = t.decoder := by
  mvcgen [finishSpeculativeMultimodalPrefill, fail]
  all_goals grind -ring -linarith

@[spec]
lemma reset_spec : Runs reset t (fun _ s => s.decoder = { t.decoder.close with
            committed := [], poisoned := false, resets := t.decoder.resets + 1 } ∧
        (t.script = [] → s.script = []))
    fun _ s => s.decoder = { t.decoder.close with committed := [], poisoned := true } ∧
        Frame t s ∧ t.script ≠ [] := by
  mvcgen [reset, clearMrope]
  all_goals grind -ring -linarith [Frame]

end

end TextSession

end AxiomKernel.Qwen4exp
