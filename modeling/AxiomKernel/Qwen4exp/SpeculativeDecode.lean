import AxiomKernel.Qwen4exp.SpeculativeSpecs

/-! How a call of `decode` can end: the rows that a block or a single decode emits, and the ways in
which either fails. -/
set_option mvcgen.warning false

namespace AxiomKernel.Qwen4exp.SpeculativeSession

open Std.Do TextSession Hoare Greedy List

/-- The target moved by the rows it emitted: each is what the model selects once it has read the
input and the rows before. -/
structure Emits (m : ModelFunction) (input : Token) (generation : TextGenerationConfig)
    (t : TextSession) (rows : List TextTokenResult) (t' : TextSession) : Prop where
  nonempty : rows ≠ []
  commits : Commits t.decoder t'.decoder (input :: (rows.map (·.tokenId)).dropLast)
  answers : Answers (Selects m generation) t.decoder.committed
    (input :: (rows.map (·.tokenId)).dropLast) (rows.map (·.tokenId))
  quiet : t.script = [] → t'.script = []
  mrope : t'.multimodalMropeActive = t.multimodalMropeActive

/-- The target stands as before a block, and the rows to be replayed are the ones it verified. -/
structure Replayable (m : ModelFunction) (input : Token) (generation : TextGenerationConfig)
    (t : TextSession) (rows : List (Token × TextTokenResult)) (t' : TextSession) : Prop where
  nonempty : rows ≠ []
  standing : Harmless t.decoder t'.decoder
  usable : t.decoder.poisoned = false ∧ t'.decoder.poisoned = false
  closed : t.decoder.transactionOpen = false ∧ t'.decoder.transactionOpen = false
  prompted : t.decoder.committed ≠ []
  room : t.decoder.committed.length + rows.length ≤ t.decoder.contextCapacity
  inputs : rows.map Prod.fst = input :: (rows.map (·.2.tokenId)).dropLast
  answers : Answers (Selects m generation) t.decoder.committed (rows.map Prod.fst)
    (rows.map (·.2.tokenId))
  quiet : t.script = [] → t'.script = []
  mrope : t'.multimodalMropeActive = t.multimodalMropeActive

variable {m : ModelFunction} {input : Token} {b : VerifiedBlock} {t t' : TextSession}

lemma VerifiedBlock.verified_length (hd : b.drafts ≠ [])
    (hi : b.inputs = input :: b.drafts.dropLast) (h : BlockStaged m b.inputs t b.verified t') :
    b.verified.length = b.drafts.length := by
  have := length_pos_of_ne_nil hd
  simp [h.rows, TextSession.blockRows, hi]
  omega

variable {generation : TextGenerationConfig} {t₁ : TextSession}

section
variable (hg : generation.mode = .argmax) (hd : b.drafts ≠ [])
  (hi : b.inputs = input :: b.drafts.dropLast) (h : BlockStaged m b.inputs t b.verified t₁)
include hg hd hi h

lemma emits_of_accepted (ha : b.accepted = b.drafts.length)
    (hf : Frame { t₁ with stagedSpeculativeTokens := 0 } t')
    (hc : t'.decoder = { t₁.decoder.close with
      committed := t₁.decoder.committed ++ t₁.decoder.staged }) :
    Emits m input generation t b.verified t' := by
  have hl := VerifiedBlock.verified_length hd hi h
  have hdr : b.drafts = b.verified.map (·.tokenId) := by
    have := take_matchLength b.drafts (b.verified.map (·.tokenId)) ha.ge
    rwa [take_length, take_of_length_le (by simp [hl])] at this
  have hin : b.inputs = input :: (b.verified.map (·.tokenId)).dropLast := by rw [hi, hdr]
  have hans := answers_blockRows m hg t.tick t.decoder.committed b.inputs
  rw [← h.rows, hin] at hans
  refine ⟨?_, ?_, hans, ?_, ?_⟩
  · rintro hn
    simp [hn] at hl
    exact hd (eq_nil_of_length_eq_zero hl.symm)
  · rw [← hin]
    constructor <;> grind -ring -linarith
  · grind -ring -linarith
  · grind -ring -linarith

/-- The rows of a block that was not accepted whole, up to the first difference. -/
lemma replayable_of_rejected (ha : b.accepted ≠ b.drafts.length)
    (hf : Frame { t₁ with stagedSpeculativeTokens := 0 } t') (hc : t'.decoder = t₁.decoder.close) :
    Replayable m input generation t ((b.inputs.zip b.verified).take (b.accepted + 1)) t' := by
  have hl := VerifiedBlock.verified_length hd hi h
  have hlt : b.accepted < b.drafts.length := lt_of_le_of_ne (matchLength_le_left _ _) ha
  have hil : b.inputs.length = b.verified.length := by
    rw [hi, hl, length_cons, length_dropLast]
    omega
  have hfs : ((b.inputs.zip b.verified).take (b.accepted + 1)).map Prod.fst =
      b.inputs.take (b.accepted + 1) := by
    rw [map_take, map_fst_zip hil.le]
  have hs : ((b.inputs.zip b.verified).take (b.accepted + 1)).map (·.2.tokenId) =
      (b.verified.map (·.tokenId)).take (b.accepted + 1) := by
    have hz : (b.inputs.zip b.verified).map Prod.snd = b.verified := map_snd_zip hil.ge
    rw [map_take]
    conv_rhs => rw [← hz, map_map]
    rfl
  have hin : b.inputs.take (b.accepted + 1) =
      input :: ((b.verified.map (·.tokenId)).take (b.accepted + 1)).dropLast := by
    rw [hi]
    exact take_verified (by simpa using hl) le_rfl hlt
  have hans := (answers_blockRows m hg t.tick t.decoder.committed b.inputs).take (b.accepted + 1)
  rw [← h.rows] at hans
  have hro := h.room
  refine ⟨?_, ?_, ?_, ?_, h.prompted, ?_, ?_, ?_, ?_, ?_⟩
  · intro hn
    have := congrArg length hfs
    rw [hn, hin] at this
    simp at this
  · constructor <;> grind -ring -linarith
  · grind -ring -linarith
  · grind -ring -linarith
  · rw [length_take, length_zip]
    omega
  · rw [hfs, hs, hin]
  · rw [hfs, hs]
    exact hans
  · grind -ring -linarith
  · grind -ring -linarith

end

def VerdictHolds (m : ModelFunction) (input : Token) (generation : TextGenerationConfig)
    (s s' : SpeculativeSession) : BlockVerdict → Prop
  | .fallback _ => NotStaged s.target s'.target
  | .committed _ rows =>
    s'.driver.proposalOpen = false ∧ Emits m input generation s.target rows s'.target
  | .replay _ _ rows =>
    s'.driver.proposalOpen = false ∧ Replayable m input generation s.target rows s'.target

@[spec]
lemma blockVerdict_spec (m : ModelFunction) (input : Token) (generation : TextGenerationConfig)
    (hg : generation.mode = .argmax) (s₀ : SpeculativeSession) :
    Runs (blockVerdict m input) s₀
    (fun v s => SameConfig s₀ s ∧ s.queue = s₀.queue ∧ VerdictHolds m input generation s₀ s v)
    fun _ s => SameConfig s₀ s ∧ s.queue = s₀.queue ∧ (s.driver.proposalOpen = false ∨
          s.driver = s₀.driver ∧ s.target = s₀.target ∧ s.draft = s₀.draft) ∧
        Failed s₀.target.decoder s.target.decoder ∧
        (s₀.target.decoder.transactionOpen → s.target.decoder = s₀.target.decoder) ∧
        (s₀.target.script = [] → s₀.requireExactDraft = false →
          s.target.decoder = s₀.target.decoder.close ∧ s₀.target.decoder.transactionOpen = false ∧
          s₀.target.decoder.poisoned = false ∧ s.target.script = [] ∧
          s.target.multimodalMropeActive = s₀.target.multimodalMropeActive) := by
  mvcgen [blockVerdict, observing, throwAnswer]
  case vc3 =>
    rename_i s hs a ha ro s₁ h₁ b s₂ h₂ v s₃
    intro hc hq hdri hf hv
    obtain ⟨hc₂, hq₂, hd₂, hdr, hin, hst⟩ := h₂
    have hcl : s₃.driver.proposalOpen = false := by grind -ring -linarith
    have ht : s₁.target = s₀.target := by grind -ring -linarith
    rw [ht] at hst
    refine ⟨by grind -ring -linarith [SameConfig], by grind -ring -linarith, ?_⟩
    rcases hv with ⟨hac, rfl, hd⟩ | ⟨hac, rfl, hd⟩
    · exact ⟨hcl, emits_of_accepted hg hdr hin hst hac hf hd⟩
    · exact ⟨hcl, replayable_of_rejected hg hdr hin hst hac hf hd⟩
  case vc2 =>
    refine ⟨by grind -ring -linarith [SameConfig], by grind -ring -linarith, ?_⟩
    constructor <;> grind -ring -linarith [Harmless, Frame]
  case vc6 =>
    refine ⟨by grind -ring -linarith [SameConfig], by grind -ring -linarith, ?_⟩
    constructor <;> grind -ring -linarith [Harmless, Frame]
  all_goals grind -ring -linarith [SameConfig, Failed]

attribute [grind cases] Emits Replayable

structure Replays (m : ModelFunction) (generation : TextGenerationConfig)
    (s : SpeculativeSession) (rows : List (Token × TextTokenResult))
    (replayed : List TextTokenResult) (s' : SpeculativeSession) : Prop
    extends SameConfig s s' where
  driver : s'.driver = s.driver
  queue : s'.queue = s.queue
  tokens : replayed.map (·.tokenId) = rows.map (·.2.tokenId)
  commits : rows = [] ∧ s'.target.decoder = s.target.decoder ∨
      Commits s.target.decoder s'.target.decoder (rows.map Prod.fst)
  answers : Answers (Selects m generation) s.target.decoder.committed (rows.map Prod.fst)
    (replayed.map (·.tokenId))
  quiet : s.target.script = [] → s'.target.script = []
  mrope : s'.target.multimodalMropeActive = s.target.multimodalMropeActive

attribute [grind cases] Replays

lemma replayRows_spec (m : ModelFunction) (generation : TextGenerationConfig)
    (rs : List (Token × TextTokenResult)) (s₀ : SpeculativeSession) :
    Runs (replayRows m generation rs) s₀
    (fun re s => Replays m generation s₀ rs re s)
    fun _ s => SameConfig s₀ s ∧ s.driver = s₀.driver ∧ s.queue = s₀.queue := by
  induction rs generalizing s₀ with
  | nil =>
    mvcgen [replayRows]
    rename_i s hs
    subst hs
    exact ⟨⟨rfl, rfl, rfl⟩, rfl, rfl, rfl, .inl ⟨rfl, rfl⟩, trivial, id, rfl⟩
  | cons row rs ih =>
    obtain ⟨input, verified⟩ := row
    mvcgen [replayRows, ih, fail]
    case vc3 =>
      rename_i s hs _ p _ ht s₁ h₁ re s₂ h₂
      subst hs
      obtain ⟨hm, hde⟩ := h₁
      have hde : Decoded m input generation s.target p s₁.target := hde
      have hc := hde.commits
      have hansw := h₂.answers
      rw [hc.committed] at hansw
      refine ⟨by grind -ring -linarith [SameConfig], by grind -ring -linarith,
        by grind -ring -linarith, ?_, .inr ?_, ⟨⟨_, hde.token⟩, hansw⟩, by grind -ring -linarith,
        by grind -ring -linarith⟩
      · simp [h₂.tokens, not_not.1 ht]
      · rcases h₂.commits with ⟨rfl, hsm⟩ | hre
        · rw [hsm]
          exact hc
        · constructor <;> grind -ring -linarith
    all_goals grind -ring -linarith [SameConfig]

/-- A target that decodes any token it is given: nothing can fail but the room. -/
structure Ready (generation : TextGenerationConfig) (t : TextSession) : Prop where
  valid : generationValid generation = true
  quiet : t.script = []
  usable : t.decoder.poisoned = false
  closed : t.decoder.transactionOpen = false
  mrope : t.multimodalMropeActive = false
  prompted : t.decoder.committed ≠ []

attribute [grind cases] Ready

/-- Where the model computes `f`, a replay of its own rows cannot fail. -/
lemma replayRows_total (m : ModelFunction) (generation : TextGenerationConfig)
    (f : List Token → Token) (hf : ∀ ti h, (m.select generation ti h).1 = f h)
    (rs : List (Token × TextTokenResult)) (s₀ : SpeculativeSession)
    (hr : Ready generation s₀.target)
    (hro : s₀.target.decoder.committed.length + rs.length ≤ s₀.target.decoder.contextCapacity)
    (ha : Answers (fun h y => y = f h) s₀.target.decoder.committed (rs.map Prod.fst)
      (rs.map (·.2.tokenId))) : Runs (replayRows m generation rs) s₀
    (fun _ _ => True)
    fun _ _ => False := by
  induction rs generalizing s₀ with
  | nil => mvcgen [replayRows]
  | cons row rs ih =>
    obtain ⟨input, verified⟩ := row
    obtain ⟨hv, ha⟩ := ha
    mvcgen [replayRows, ih, fail]
    all_goals grind -ring -linarith [Ready]

@[spec]
lemma publishBlock_spec (ro : SpeculativeProposal) (ac : Nat)
    (rs : List TextTokenResult) (s₀ : SpeculativeSession) :
    Runs (publishBlock ro ac rs) s₀
    (fun r s => SameConfig s₀ s ∧ s.target = s₀.target ∧
        s.driver.proposalOpen = s₀.driver.proposalOpen ∧
        s.queue = (rs.map (·.tokenId)).zip rs.tail ∧ r.1.authoritative = rs.headD {})
    fun _ _ => False := by
  mvcgen [publishBlock]
  all_goals grind -ring -linarith [SameConfig, Driver.recordNativeBlock, Driver.count]

@[spec]
lemma decodeOne_spec (m : ModelFunction) (input : Token) (generation : TextGenerationConfig)
    (s₀ : SpeculativeSession) : Runs (decodeOne m input generation) s₀
    (fun r s => SameConfig s₀ s ∧ s.queue = s₀.queue ∧ s.driver.proposalOpen = false ∧
        Decoded m input generation s₀.target r.1.authoritative s.target)
    fun _ s => SameConfig s₀ s ∧ s.queue = s₀.queue ∧ (s.driver.proposalOpen = false ∨
          s.driver = s₀.driver ∧ s.target = s₀.target ∧ s.draft = s₀.draft) ∧
        (s.target = s₀.target ∨ NotDecoded generation s₀.target s.target) := by
  mvcgen [decodeOne, throwAnswer]
  all_goals grind -ring -linarith [SameConfig]

variable {r : TextTokenResult}

lemma emits_of_decoded (h : Decoded m input generation t r t') :
    Emits m input generation t [r] t' :=
  ⟨by simp, h.commits, ⟨⟨t.tick, h.token⟩, trivial⟩, h.frame.quiet, h.frame.mrope⟩

lemma NotStaged.decoded (h : NotStaged t t₁) (hd : Decoded m input generation t₁ r t') :
    Emits m input generation t [r] t' := by
  obtain ⟨-, hc, ha, hq, hm⟩ := emits_of_decoded hd
  have hco := h.harmless.committed
  rw [hco] at ha
  refine ⟨by simp, ?_, ha, by grind -ring -linarith, by grind -ring -linarith⟩
  constructor <;> grind -ring -linarith

variable {s : SpeculativeSession} {s' : SpeculativeSession} {queue : List (Token × TextTokenResult)}

lemma Replayable.replays {rs : List (Token × TextTokenResult)} {re : List TextTokenResult}
    (h : Replayable m input generation t rs s.target)
    (hr : Replays m generation s rs re s') :
    Emits m input generation t re s'.target := by
  have hansw := hr.answers
  rw [h.inputs, ← hr.tokens, h.standing.committed] at hansw
  have hco := hr.commits.resolve_left fun hn => h.nonempty hn.1
  rw [h.inputs, ← hr.tokens] at hco
  refine ⟨?_, ?_, hansw, by grind -ring -linarith, by grind -ring -linarith⟩
  · rintro rfl
    exact h.nonempty (map_eq_nil_iff.1 hr.tokens.symm)
  · constructor <;> grind -ring -linarith

/-- How a block path fails: before its verdict stood, in the single decode it fell back to, or in
its replay. -/
inductive BlockFails (m : ModelFunction) (input : Token) (generation : TextGenerationConfig)
    (s s' : SpeculativeSession) : Prop where
  | early (failed : Failed s.target.decoder s'.target.decoder)
      (opened : s.target.decoder.transactionOpen = true → s'.target.decoder = s.target.decoder)
      (unchanged : s.target.script = [] → s.requireExactDraft = false →
        s'.target.decoder = s.target.decoder.close ∧ s.target.decoder.transactionOpen = false ∧
        s.target.decoder.poisoned = false ∧ s'.target.script = [] ∧
        s'.target.multimodalMropeActive = s.target.multimodalMropeActive)
  | alone (t : TextSession) (staged : NotStaged s.target t)
      (failed : NotDecoded generation t s'.target)
  | replay (root : SpeculativeProposal) (accepted : Nat) (rows : List (Token × TextTokenResult))
      (s₁ : SpeculativeSession) (e : SpeculativeError)
      (verdict : (blockVerdict m input).run.run s = (.ok (.replay root accepted rows), s₁))
      (broken : (replayRows m generation rows).run.run s₁ = (.error e, s'))

/-- The target moved by the rows it emitted, the first of which is the result and the others are
queued; no proposal is open. -/
structure Advances (m : ModelFunction) (input : Token) (generation : TextGenerationConfig)
    (s : SpeculativeSession) (result : SpeculativeStepResult) (s' : SpeculativeSession) : Prop
    extends SameConfig s s' where
  closed : s'.driver.proposalOpen = false
  emits : ∃ rows, Emits m input generation s.target rows s'.target ∧
    result.authoritative = rows.headD {} ∧ s'.queue = (rows.map (·.tokenId)).zip rows.tail

/-- What a call that did not advance leaves of the proposal and the queue. -/
structure Holds (s s' : SpeculativeSession) : Prop extends SameConfig s s' where
  queue : s'.queue = s.queue
  proposal : s'.driver.proposalOpen = false ∨
    s'.driver = s.driver ∧ s'.target = s.target ∧ s'.draft = s.draft

attribute [grind cases] Holds

section
variable (m : ModelFunction) (input : Token) (generation : TextGenerationConfig)

lemma decodeBlock_ends (hg : generation.mode = .argmax) (s : SpeculativeSession)
    (hq : s.queue = []) :
    Ends (fun r s' => Advances m input generation s r.1 s')
      (fun _ s' => Holds s s' ∧ BlockFails m input generation s s')
      ((decodeBlock m input generation).run.run s) := by
  have hverd := ends_of_triple (blockVerdict_spec m input generation hg s)
  refine Ends.get_bind (hverd.bind ?_ ?_)
  · rintro (d | ⟨ro, rs⟩ | ⟨ro, ac, rs⟩) s₁ hr ⟨hc, hqu, hv⟩
    · refine (ends_of_triple (targetFallback_spec m generation s₁ input
        s.target.decoder.committed.length d)).bind ?_ ?_
      · rintro r s₂ - ⟨hc₂, hq₂, hcl, hde⟩
        refine ⟨by grind -ring -linarith [SameConfig], hcl, [r.authoritative],
          NotStaged.decoded hv hde, rfl, ?_⟩
        simp [hq₂, hqu, hq]
      · rintro e s₂ - ⟨hc₂, hq₂, hcl, hf⟩
        exact ⟨⟨by grind -ring -linarith [SameConfig], by grind -ring -linarith, .inl hcl⟩,
          .alone s₁.target hv hf⟩
    · refine (ends_of_triple (publishBlock_spec ro rs.length rs s₁)).imp ?_ (by simp)
      rintro r s₂ ⟨hc₂, ht, hp, hq₂, hre⟩
      exact ⟨by grind -ring -linarith [SameConfig], hp.trans hv.1, rs, ht ▸ hv.2, hre, hq₂⟩
    · refine (ends_of_triple (replayRows_spec m generation rs s₁)).bind ?_ ?_
      · rintro re s₂ - hrp
        refine (ends_of_triple (publishBlock_spec ro ac re s₂)).imp ?_ (by simp)
        rintro r s₃ ⟨hc₃, ht, hp, hq₃, hre⟩
        refine ⟨by grind -ring -linarith [SameConfig], ?_, re, ?_, hre, hq₃⟩
        · rw [hp, hrp.driver]
          exact hv.1
        · rw [ht]
          exact hv.2.replays hrp
      · rintro e s₂ hb ⟨hc₂, hdr, hq₂⟩
        refine ⟨⟨by grind -ring -linarith [SameConfig], by grind -ring -linarith, .inl ?_⟩,
          .replay ro ac rs s₁ e hr hb⟩
        rw [hdr]
        exact hv.1
  · rintro e s₁ - ⟨hc, hqu, hp, hf, ho, hu⟩
    exact ⟨⟨hc, hqu, hp⟩, .early hf ho hu⟩

lemma advance_ends (s : SpeculativeSession) (hq : s.queue = []) :
    Ends (fun r s' => Advances m input generation s r.1 s') (fun _ s' => Holds s s' ∧
        (s.blockEligible generation ∧ BlockFails m input generation s s' ∨
          s'.target = s.target ∨ NotDecoded generation s.target s'.target))
      ((advance m input generation).run.run s) := by
  refine Ends.get_bind ?_
  by_cases hb : s.blockEligible generation = true
  · rw [if_pos hb]
    have hg : generation.mode = .argmax := by
      simp only [blockEligible, Bool.and_eq_true, beq_iff_eq] at hb
      exact hb.1.1.2
    exact (decodeBlock_ends m input generation hg s hq).imp (fun _ _ h => h)
      fun _ _ h => ⟨h.1, .inl ⟨hb, h.2⟩⟩
  · rw [if_neg hb]
    refine (ends_of_triple (decodeOne_spec m input generation s)).imp ?_ ?_
    · rintro r s' ⟨hc, hqu, hcl, hde⟩
      exact ⟨hc, hcl, [r.1.authoritative], emits_of_decoded hde, rfl, by simp [hqu, hq]⟩
    · rintro e s' ⟨hc, hqu, hp, ht⟩
      exact ⟨⟨hc, hqu, hp⟩, .inr ht⟩

end

lemma Emits.of_stands {rs : List TextTokenResult} (h : Emits m input generation t rs s.target)
    (hs : TargetStands s s') :
    Emits m input generation t rs s'.target :=
  ⟨h.nonempty, by rw [hs.decoder]; exact h.commits, h.answers,
    fun hq => hs.frame.quiet (h.quiet hq), hs.frame.mrope.trans h.mrope⟩

lemma ends_stageNext (m : ModelFunction) (re : SpeculativeStepResult) (next : NextProposal)
    (s : SpeculativeSession) :
    Ends (fun r s' => TargetStands s s' ∧ Aligned s' ∧ r.authoritative = re.authoritative)
      (fun _ _ => s.requireExactDraft ∧ ∃ e s₂,
        (stageNativeProposal m next.token next.position).run.run s = (.error e, s₂))
      ((stageNext m re next).run.run s) := by
  have h := ends_of_triple (stageNext_spec m s re next)
  rcases hx : (stageNativeProposal m next.token next.position).run.run s with ⟨e | u, s₂⟩
  · exact h.imp (fun _ _ h => h) fun _ _ h => ⟨h.2.2, e, s₂, rfl⟩
  · have hr : (stageNext m re next).run.run s = (.ok re, s₂) := by
      rw [stageNext, run_tryCatch, run_bind, hx]
      rfl
    rw [hr] at h ⊢
    exact h

section
variable (m : ModelFunction) (generation : TextGenerationConfig)

lemma decode_queued (hq : s.queue = (input, r) :: queue) :
    (decode m input generation true).run.run s =
      (.ok { authoritative := r, path := .draftVerifiedAccepted, draftWasAvailable := true
             accepted := true }, { s with queue := queue }) := by
  have hge : (get : SpeculativeM SpeculativeSession).run.run s = (.ok s, s) := rfl
  rw [decode, run_bind, hge]
  simp only [hq]
  rw [if_neg (by simp), if_neg (by simp)]
  rfl

lemma decode_diverged {q : Token} (hq : s.queue = (q, r) :: queue) (hn : input ≠ q) :
    (decode m input generation true).run.run s =
      (.error ⟨.invalidState, "caller token diverged from the committed speculative queue",
        by decide⟩, s) := by
  have hge : (get : SpeculativeM SpeculativeSession).run.run s = (.ok s, s) := rfl
  rw [decode, run_bind, hge]
  simp only [hq]
  rw [if_neg (by simp), if_pos hn]
  rfl

end

section
variable (m : ModelFunction) (input : Token) (generation : TextGenerationConfig)
  (s : SpeculativeSession)

lemma decode_null : (decode m input generation false).run.run s =
      (.error ⟨.invalidState, "native speculative decode session is not initialized",
        by decide⟩, s) := rfl

/-- How `decode` ends when nothing is queued: with the target moved by the rows it emitted, with an
advance that failed, or with a required next proposal that could not be staged. -/
lemma decode_ends (hq : s.queue = []) : Ends (fun r s' => SameConfig s s' ∧ Aligned s' ∧ ∃ rs,
        Emits m input generation s.target rs s'.target ∧
        r.authoritative = rs.headD {} ∧ s'.queue = (rs.map (·.tokenId)).zip rs.tail)
      (fun _ s' => Holds s s' ∧ (s.blockEligible generation ∧ BlockFails m input generation s s' ∨
            s'.target = s.target ∨ NotDecoded generation s.target s'.target) ∨
        s.requireExactDraft ∧ ∃ re next s₁ e s₂,
          (advance m input generation).run.run s = (.ok (re, some next), s₁) ∧
          (stageNativeProposal m next.token next.position).run.run s₁ = (.error e, s₂))
      ((decode m input generation true).run.run s) := by
  refine Ends.get_bind ?_
  rw [hq]
  refine (advance_ends m input generation s hq).bind ?_ ?_
  · rintro ⟨re, _ | next⟩ s₁ hru ⟨hc, hcl, rs, hem, hre, hqu⟩
    · exact ⟨hc, fun h => by simp [hcl] at h, rs, hem, hre, hqu⟩
    · refine Ends.imp (ends_stageNext m re next s₁) ?_ ?_
      · rintro r s₂ ⟨hs, ha, hr⟩
        refine ⟨by grind -ring -linarith [SameConfig], ha, rs, ?_, hr.trans hre,
          by grind -ring -linarith⟩
        exact hem.of_stands hs
      · rintro e s₂ ⟨he, e', s₃, hst⟩
        exact .inr ⟨by grind -ring -linarith, re, next, s₁, e', s₃, hru, hst⟩
  · rintro e s₁ - h
    exact .inl h

end

end AxiomKernel.Qwen4exp.SpeculativeSession
