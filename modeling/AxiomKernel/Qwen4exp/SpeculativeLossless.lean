import AxiomKernel.Qwen4exp.SpeculativeDecode
import AxiomKernel.Qwen4exp.SpeculativePrompt

/-! The tokens a session serves: a prompt, then any number of `decode` calls that each pass the
token returned last, over a target whose operations succeed and a draft that does anything. -/
namespace AxiomKernel.Qwen4exp

open TextSession Hoare Greedy List

structure Served where
  session : SpeculativeSession
  returned : List Token

namespace Served

def last (v : Served) : Token := v.returned.getLastD 0

/-- One call of `decode` with the token returned last; `hasResult` is whether the caller passes a
result pointer. -/
def call (m : ModelFunction) (generation : TextGenerationConfig) (v : Served) (hasResult : Bool) :
    Served :=
  match (SpeculativeSession.decode m v.last generation hasResult).run.run v.session with
  | (.ok r, s) => ⟨s, v.returned ++ [r.authoritative.tokenId]⟩
  | (.error _, s) => ⟨s, v.returned⟩

def calls (m : ModelFunction) (generation : TextGenerationConfig) (v : Served)
    (hasResults : List Bool) : Served :=
  hasResults.foldl (call m generation) v

/-- The queued results are the greedy continuation of a history and its last token. -/
def Queued (f : List Token → Token) : List Token → Token → List (Token × TextTokenResult) → Prop
  | _, _, [] => True
  | h, last, (input, r) :: queue =>
    input = last ∧ r.tokenId = f (h ++ [last]) ∧ Queued f (h ++ [last]) r.tokenId queue

structure Inv (f : List Token → Token) (generation : TextGenerationConfig) (prompt : List Token)
    (v : Served) : Prop where
  exact_ : v.session.requireExactDraft = false
  ready : SpeculativeSession.Ready generation v.session.target
  nonempty : v.returned ≠ []
  greedy : v.returned = greedy f prompt v.returned.length
  committed : v.session.target.decoder.committed =
    prompt ++ v.returned.dropLast ++ v.session.queue.map Prod.fst
  queued : Queued f (prompt ++ v.returned.dropLast) v.last v.session.queue
  aligned : v.session.Aligned

lemma queued_of_answers {f : List Token → Token} {h : List Token} {i : Token}
    {r : TextTokenResult} {rs : List TextTokenResult}
    (ha : Answers (fun h y => y = f h) h (i :: ((r :: rs).map (·.tokenId)).dropLast)
      ((r :: rs).map (·.tokenId))) : r.tokenId = f (h ++ [i]) ∧
      Queued f (h ++ [i]) r.tokenId (((r :: rs).map (·.tokenId)).zip rs) := by
  induction rs generalizing h i r with
  | nil => exact ⟨ha.1, trivial⟩
  | cons r' rs ih =>
    obtain ⟨ht, hr⟩ := ih ha.2
    exact ⟨ha.1, rfl, ht, hr⟩

lemma map_fst_zip_tail (r : TextTokenResult) (rs : List TextTokenResult) :
    (((r :: rs).map (·.tokenId)).zip rs).map Prod.fst =
    ((r :: rs).map (·.tokenId)).dropLast := by
  induction rs generalizing r with
  | nil => rfl
  | cons r' rs ih => exact congrArg (r.tokenId :: ·) (ih r')

end Served

namespace SpeculativeSession

variable {m : ModelFunction} {generation : TextGenerationConfig} {f : List Token → Token}

lemma Ready.of_decoder {t t' : TextSession} (h : Ready generation t)
    (hd : t'.decoder = t.decoder) (hq : t'.script = [])
    (hm : t'.multimodalMropeActive = t.multimodalMropeActive) : Ready generation t' := by
  constructor <;> grind -ring -linarith

variable {s s' : SpeculativeSession}

lemma not_replay_broken (hf : ∀ ti h, (m.select generation ti h).1 = f h) {i : Token}
    {s₁ : SpeculativeSession} {ro : SpeculativeProposal} {ac : Nat}
    {rs : List (Token × TextTokenResult)} {e : SpeculativeError} (hg : generation.mode = .argmax)
    (hr : Ready generation s.target)
    (hv : (blockVerdict m i).run.run s = (.ok (.replay ro ac rs), s₁))
    (hb : (replayRows m generation rs).run.run s₁ = (.error e, s')) : False := by
  have hverd := ends_of_triple (blockVerdict_spec m i generation hg s)
  rw [hv] at hverd
  obtain ⟨-, -, -, hrp⟩ := hverd
  have hre : Ready generation s₁.target := by
    constructor <;> grind -ring -linarith
  have hro : s₁.target.decoder.committed.length + rs.length ≤
      s₁.target.decoder.contextCapacity := by
    rw [hrp.standing.committed, hrp.standing.capacity]
    exact hrp.room
  have ha : Answers (fun h y => y = f h) _ _ _ :=
    hrp.answers.mono fun h y ⟨ti, hy⟩ => hy.trans (hf ti h)
  rw [← hrp.standing.committed] at ha
  have h := ends_of_triple (replayRows_total m generation f hf rs s₁ hre hro ha)
  rw [hb] at h
  exact h

lemma failure_keeps_ready (hf : ∀ ti h, (m.select generation ti h).1 = f h)
    (hg : generation.mode = .argmax) {i : Token} (he : s.requireExactDraft = false)
    (hr : Ready generation s.target)
    (h : s.blockEligible generation ∧ BlockFails m i generation s s' ∨
    s'.target = s.target ∨ NotDecoded generation s.target s'.target) :
    Ready generation s'.target ∧ s'.target.decoder.committed = s.target.decoder.committed := by
  rcases h with ⟨-, hbl⟩ | hs | hfa
  · cases hbl with
    | early _ _ hu =>
      obtain ⟨hd, -, -, hq, hm⟩ := hu hr.quiet he
      refine ⟨?_, by rw [hd]; rfl⟩
      constructor <;> grind -ring -linarith
    | alone t hst hfa =>
      have ht : Ready generation t := hr.of_decoder (hst.unchanged hr.quiet)
        (hst.frame.quiet hr.quiet) hst.frame.mrope
      refine ⟨ht.of_decoder (hfa.unchanged ht.quiet) (hfa.frame.quiet ht.quiet) hfa.frame.mrope, ?_⟩
      rw [hfa.unchanged ht.quiet, hst.unchanged hr.quiet]
    | replay ro ac rs s₁ e hv hb => exact (not_replay_broken hf hg hr hv hb).elim
  · rw [hs]
    exact ⟨hr, rfl⟩
  · exact ⟨hr.of_decoder (hfa.unchanged hr.quiet) (hfa.frame.quiet hr.quiet)
      hfa.frame.mrope, by rw [hfa.unchanged hr.quiet]⟩

lemma Holds.aligned (h : Holds s s') (ha : Aligned s) : Aligned s' := by
  intro ho
  rcases h.proposal with hc | ⟨hd, ht, hdr⟩
  · rw [hc] at ho
    cases ho
  · rw [hd] at ho
    rw [ht, hdr]
    exact ha ho

end SpeculativeSession

namespace Served

open SpeculativeSession

variable {m : ModelFunction} {generation : TextGenerationConfig} {f : List Token → Token}
  {prompt : List Token} {v : Served}

lemma Inv.returned_eq (h : Inv f generation prompt v) :
    v.returned = v.returned.dropLast ++ [v.last] := by
  rw [last, getLastD_eq_getLast?, getLast?_eq_some_getLast h.nonempty, Option.getD_some,
    dropLast_append_getLast]

variable {s : SpeculativeSession}

section
variable (h : Inv f generation prompt v)
include h

lemma Inv.of_failure (hexa : s.requireExactDraft = false) (hr : Ready generation s.target)
    (hc : s.target.decoder.committed = v.session.target.decoder.committed)
    (hq : s.queue = v.session.queue) (ha : s.Aligned) : Inv f generation prompt ⟨s, v.returned⟩ :=
  ⟨hexa, hr, h.nonempty, h.greedy, by rw [hc, hq, h.committed], by rw [hq]; exact h.queued, ha⟩

lemma Inv.returns {token : Token} (htok : token = f (prompt ++ v.returned))
    (hexa : s.requireExactDraft = false) (hr : Ready generation s.target)
    (hc : s.target.decoder.committed = prompt ++ v.returned ++ s.queue.map Prod.fst)
    (hq : Queued f (prompt ++ v.returned) token s.queue) (ha : s.Aligned) :
    Inv f generation prompt ⟨s, v.returned ++ [token]⟩ := by
  refine ⟨hexa, hr, by simp, ?_, by simpa using hc, ?_, ha⟩
  · have hgree := h.greedy
    rw [length_append, length_singleton, greedy_succ_last, ← hgree, htok]
  · simpa [last] using hq

lemma call_queued {input : Token} {r : TextTokenResult} {queue : List (Token × TextTokenResult)}
    (hq : v.session.queue = (input, r) :: queue) :
    Inv f generation prompt (v.call m generation true) := by
  have hqueu := h.queued
  have hco := h.committed
  rw [hq] at hqueu hco
  obtain ⟨hinp, htok, hre⟩ := hqueu
  have hret : prompt ++ v.returned.dropLast ++ [v.last] = prompt ++ v.returned := by
    rw [append_assoc, ← h.returned_eq]
  rw [hret] at htok hre
  rw [call, ← hinp, decode_queued m generation hq]
  refine h.returns htok h.exact_ h.ready ?_ hre h.aligned
  rw [hco, map_cons, hinp, ← hret]
  simp

end

lemma Inv.advances (hf : ∀ tick h, (m.select generation tick h).1 = f h)
    (h : Inv f generation prompt v) (hq : v.session.queue = []) {result : SpeculativeStepResult}
    {rows : List TextTokenResult} (hcfg : SameConfig v.session s) (hal : s.Aligned)
    (hem : Emits m v.last generation v.session.target rows s.target)
    (hres : result.authoritative = rows.headD {})
    (hqu : s.queue = (rows.map (·.tokenId)).zip rows.tail) :
    Inv f generation prompt ⟨s, v.returned ++ [result.authoritative.tokenId]⟩ := by
  cases rows with
  | nil => exact absurd rfl hem.nonempty
  | cons r rows =>
    have hco : v.session.target.decoder.committed ++ [v.last] = prompt ++ v.returned := by
      rw [h.committed, hq, map_nil, append_nil, append_assoc, ← h.returned_eq]
    obtain ⟨htok, hqueu⟩ := queued_of_answers
      (hem.answers.mono fun h y ⟨tick, hy⟩ => hy.trans (hf tick h))
    rw [hco] at htok hqueu
    rw [hres]
    refine h.returns htok (hcfg.requireExactDraft.trans h.exact_) ?_ ?_ ?_ hal
    · have hr := h.ready
      constructor <;> grind -ring -linarith
    · rw [hem.commits.committed, hqu, append_cons, hco]
      exact congrArg _ (map_fst_zip_tail r rows).symm
    · rw [hqu]
      exact hqueu

lemma call_inv (hf : ∀ ti h, (m.select generation ti h).1 = f h)
    (hg : generation.mode = .argmax) (h : Inv f generation prompt v) (ha : Bool) :
    Inv f generation prompt (v.call m generation ha) := by
  cases ha with
  | false =>
    rw [call, decode_null]
    exact h
  | true =>
    rcases hq : v.session.queue with _ | ⟨⟨i, r⟩, queue⟩
    · have hen := decode_ends m v.last generation v.session hq
      unfold call
      rcases hrun : (SpeculativeSession.decode m v.last generation true).run.run v.session with
        ⟨e | result, s⟩ <;> rw [hrun] at hen
      · rcases hen with ⟨hh, hfa⟩ | ⟨he, -⟩
        · obtain ⟨hr, hc⟩ := failure_keeps_ready hf hg h.exact_ h.ready hfa
          exact h.of_failure (hh.requireExactDraft.trans h.exact_) hr hc hh.queue
            (hh.aligned h.aligned)
        · rw [h.exact_] at he
          cases he
      · obtain ⟨hcf, hal, rs, hem, hre, hqu⟩ := hen
        exact h.advances hf hq hcf hal hem hre hqu
    · exact call_queued h hq

lemma calls_inv (hf : ∀ ti h, (m.select generation ti h).1 = f h)
    (hg : generation.mode = .argmax) (hr : List Bool) (h : Inv f generation prompt v) :
    Inv f generation prompt (v.calls m generation hr) := by
  induction hr generalizing v with
  | nil => exact h
  | cons ha hr ih => exact ih (call_inv hf hg h ha)

lemma inv_of_prefill (hf : ∀ tick h, (m.select generation tick h).1 = f h)
    (hg : generation.mode = .argmax) {width capacity : Nat} {hasDraft : Bool} {draft : MtpSession}
    {first : TextTokenResult} (hp : (targetPrefill m prompt generation).run.run
    (SpeculativeSession.create m false width capacity hasDraft draft) = (.ok first, s)) :
    Inv f generation prompt ⟨s, [first.tokenId]⟩ := by
  have h := ends_of_triple (targetPrefill_spec m generation
    (SpeculativeSession.create m false width capacity hasDraft draft) prompt)
  rw [hp] at h
  obtain ⟨hre, hal⟩ := h
  obtain ⟨tick, htok⟩ := hre.token
  refine ⟨hre.requireExactDraft, ⟨?_, hre.quiet rfl, hre.commits.stays,
    hre.commits.closes, hre.mrope (.inl rfl), ?_⟩, by simp, ?_, ?_, ?_, hal rfl⟩
  · rw [generationValid, hg]
  · rw [hre.commits.committed]
    exact hre.nonempty
  · exact congrArg (fun token => [token]) (htok.trans (hf tick _))
  · rw [hre.commits.committed, hre.queue]
    simp [SpeculativeSession.create]
  · rw [hre.queue]
    trivial

/-- Where the target computes `f`, whatever the draft does: the tokens returned, the prompt's first,
are the greedy sequence; the target has committed the prompt, one token for each `decode` that
returned one and those still queued; an open proposal finds the draft one token behind; and a call
with another token than the queued one is rejected, and changes nothing. -/
theorem decode_lossless (f : List Token → Token) (m : ModelFunction)
    (hf : ∀ tick history, (m.argmax tick history).1 = f history) (generation : TextGenerationConfig)
    (hg : generation.mode = .argmax) (proposalWidth contextCapacity : Nat) (hasDraft : Bool)
    (draft : MtpSession) (prompt : List Token) (first : TextTokenResult) (s : SpeculativeSession)
    (hp : (targetPrefill m prompt generation).run.run
      (SpeculativeSession.create m false proposalWidth contextCapacity hasDraft draft) =
        (.ok first, s))
    (hasResults : List Bool) :
    let v := Served.calls m generation ⟨s, [first.tokenId]⟩ hasResults
    v.returned = Greedy.greedy f prompt v.returned.length ∧
      v.session.target.decoder.committed.length =
        prompt.length + (v.returned.length - 1) + v.session.queue.length ∧
      (v.session.driver.proposalOpen = true →
        v.session.draft.committed + 1 = v.session.target.decoder.committed.length) ∧
      ∀ queued r queue input, v.session.queue = (queued, r) :: queue → input ≠ queued →
        ∃ e, (SpeculativeSession.decode m input generation true).run.run v.session =
          (.error e, v.session) := by
  have hs : ∀ tick history, (m.select generation tick history).1 = f history := by
    intro tick history
    rw [ModelFunction.select, hg]
    exact hf tick history
  have h := calls_inv hs hg hasResults (inv_of_prefill hs hg hp)
  intro v
  refine ⟨h.greedy, ?_, h.aligned, ?_⟩
  · rw [h.committed, length_append, length_append, length_dropLast, length_map]
  · intro queued r queue input hq hn
    exact ⟨_, decode_diverged m generation hq hn⟩

def lengthModel : ModelFunction :=
  ⟨fun _ history => (UInt32.ofNat history.length, 0), fun _ _ history => (history.headD 0, 0)⟩

/-- A draft that is right about every row but one; below, the session over it, and what that session
answers to a prompt of one token. -/
def guessingDraft : MtpSession :=
  { capacity := 64, attentionCache := { capacityTokens := 64 }
    predictions := fun row => { tokenId := if row = 4 then 0 else UInt32.ofNat (row + 2) } }

def guessed : SpeculativeSession :=
  SpeculativeSession.create lengthModel false 4 64 true guessingDraft

def prompted : Except SpeculativeError TextTokenResult × SpeculativeSession :=
  (targetPrefill lengthModel [7] {}).run.run guessed

theorem decode_lossless_block :
    let v := Served.calls lengthModel {} ⟨prompted.2, [1]⟩ [true, true, true, false, true, true]
    v.returned = [1, 2, 3, 4, 5, 6] ∧
      v.returned = Greedy.greedy (fun h => UInt32.ofNat h.length) [7] v.returned.length :=
  ⟨by decide +kernel,
    (decode_lossless (fun h => UInt32.ofNat h.length) lengthModel (fun _ _ => rfl) {} rfl 4 64 true
      guessingDraft [7] ⟨1, 0, 1, false⟩ prompted.2 (Prod.ext rfl rfl)
      [true, true, true, false, true, true]).1⟩

end Served

end AxiomKernel.Qwen4exp
