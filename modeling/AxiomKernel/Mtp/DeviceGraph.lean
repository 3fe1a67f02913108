import AxiomKernel.Mtp.DeviceControl
import AxiomKernel.Lib.Machine
import AxiomKernel.Lib.Speculate

/-!
# The captured MTP decode graph

One replay of the graph that `capture_device_graph` builds, node by node, and runs of it. The
draft forwards and the KV catch-up are the only other nodes that write the status word, before the
verify input is built and between acceptance and selection; what they report is an input of the
cycle, like the draft tokens, the logits and the hidden rows. Target verification answers row `i`
with `f` of the consumed history and the rows up to `i`.

The history record of a cycle counts only when its status word is `ok`: the reader rejects every
other record.
-/
namespace AxiomKernel.Mtp
open Greedy Machine
open List hiding Vector

/-- The device words that live from one replay to the next, with the tokens the target's caches
hold. -/
structure DeviceSession (H : Type*) where
  history : List Token
  state : Authoritative H
  candidatePending : H
  status : Status

structure CycleInput (H : Type*) where
  draft : Vector Token 7
  draftStatus : Status
  logits : Vector UInt32 8
  hidden : Vector H 8
  catchupStatus : Status
  limit : UInt32

/-- What the cycle leaves for the host, and how many rows `finalize` materialised. -/
structure CycleRecord where
  accept : AcceptOutputs
  status : Status
  committedRows : Nat

def CycleRecord.emitted (r : CycleRecord) : List Token :=
  if r.status = .ok then r.accept.emitted.take r.accept.emittedTokenCount else []

variable {H : Type*}

def DeviceSession.context (s : DeviceSession H) : Context Token := ⟨s.history, s.state.anchor⟩

/-- A cycle that leaves the session as it was, up to the status word and the candidate buffer. -/
structure Idle (stops : StopTokens) (s s' : DeviceSession H) (r : CycleRecord) : Prop where
  emitted : r.emitted = []
  rows : r.committedRows = 0
  history : s'.history = s.history
  state : s'.state = s.state
  reason : s'.status ≠ .ok ∨ tokenIsStop stops s.state.anchor = true
  sticky : s.status ≠ .ok → s'.status ≠ .ok

structure Advance (f : List Token → Token) (stops : StopTokens) (limit : UInt32)
    (s s' : DeviceSession H) (r : CycleRecord) : Prop where
  running : s.status = .ok
  open_ : tokenIsStop stops s.state.anchor = false
  cycle : Cycle f (tokenIsStop stops) s.context r.emitted s'.context
  rows : r.committedRows = r.emitted.length
  le_limit : r.emitted.length ≤ limit.toNat
  position : s'.state.position.toNat = s.state.position.toNat + r.emitted.length

def cycleTail (s : DeviceSession H) (c : CycleInput H) (verify : Vector Token 8)
    (accept : AcceptOutputs) (status : Status) : DeviceSession H × CycleRecord :=
  let status := publishStatus status c.catchupStatus
  let (candidatePending, status) :=
    selectNextPendingCommitAware c.hidden accept.targetCommitCount s.candidatePending status
  let rows := finalizeRows accept.targetCommitCount status
  let (state, status) := publishStateCommitAware
    ⟨accept.nextAnchor, accept.nextPosition, candidatePending⟩ accept.targetCommitCount status
    s.state
  (⟨s.history ++ verify.toList.take rows, state, candidatePending, status⟩, ⟨accept, status, rows⟩)

def cycle (f : List Token → Token) (stops : StopTokens) (s : DeviceSession H)
    (c : CycleInput H) : DeviceSession H × CycleRecord :=
  let status := publishStatus s.status c.draftStatus
  let (verify, status) := buildVerifyInput s.state.anchor c.draft status
  let target := targetVerify f s.history verify
  let (accept, status) := acceptGreedyStopAware stops s.state.anchor s.state.position c.draft
    target c.logits c.limit status
  cycleTail s c verify accept status

variable {stops : StopTokens} {s : DeviceSession H} {c : CycleInput H} {verify : Vector Token 8}
  {accept : AcceptOutputs} {f : List Token → Token}

lemma cycleTail_failed {st : Status} (h : publishStatus st c.catchupStatus ≠ .ok) :
    Idle stops s (cycleTail s c verify accept st).1 (cycleTail s c verify accept st).2 := by
  constructor <;>
    simp [cycleTail, selectNextPendingCommitAware, publishStateCommitAware, finalizeRows,
      CycleRecord.emitted, h]

lemma cycleTail_zero (hs : s.status = .ok) (hc : accept.targetCommitCount = 0)
    (he : accept.emittedTokenCount = 0) (hst : tokenIsStop stops s.state.anchor) :
    Idle stops s (cycleTail s c verify accept .ok).1 (cycleTail s c verify accept .ok).2 := by
  by_cases h : c.catchupStatus = .ok
  · constructor <;>
      simp [cycleTail, selectNextPendingCommitAware, publishStateCommitAware, finalizeRows,
        CycleRecord.emitted, h, hc, he, hst, hs]
  · exact cycleTail_failed (by simpa using h)

lemma cycle_cases (f : List Token → Token) (stops : StopTokens) (s : DeviceSession H)
    (c : CycleInput H) : Idle stops s (cycle f stops s c).1 (cycle f stops s c).2 ∨
    Advance f stops c.limit s (cycle f stops s c).1 (cycle f stops s c).2 := by
  rcases hbu : buildVerifyInput s.state.anchor c.draft (publishStatus s.status c.draftStatus)
    with ⟨verify, status₁⟩
  rcases hacc : acceptGreedyStopAware stops s.state.anchor s.state.position c.draft
    (targetVerify f s.history verify) c.logits c.limit status₁ with ⟨accept, status₂⟩
  have hcy : cycle f stops s c = cycleTail s c verify accept status₂ := by
    simp [cycle, hbu, hacc]
  rw [hcy]
  -- a status that acceptance still found ok means the verify input is the anchor and the draft
  have hve : status₁ = .ok → s.status = .ok ∧ verify.toList = s.state.anchor :: c.draft.toList := by
    intro h1
    have hb := buildVerifyInput_ok (congrArg Prod.snd hbu |>.trans h1)
    rw [hbu] at hb
    exact ⟨(publishStatus_eq_ok_iff.1 hb.1).1, hb.2⟩
  rcases acceptGreedyStopAware_cases _ _ _ _ _ _ _ _ hacc with
    ⟨hn, -, -⟩ | ⟨h1, rfl, hst, hc, he⟩ |
      ⟨h1, rfl, hr, accepted, continuation, hma, hlim, h8, hrow, hcl, hc, he, hout, hanch, hpos⟩
  · refine .inl (cycleTail_failed fun ho => hn (publishStatus_eq_ok_iff.1 ho).1)
  · exact .inl (cycleTail_zero (hve h1).1 hc he hst)
  · obtain ⟨hs, hv⟩ := hve h1
    by_cases hca : c.catchupStatus = .ok
    case neg => exact .inl (cycleTail_failed (by simpa using hca))
    right
    rw [toList_targetVerify, hv] at hma hrow
    have hcyc := Cycle.of_accepted (c := s.context) hr hma hrow hcl
    have hl : (c.draft.toList.take accepted).length = accepted := by simp; omega
    have hro : finalizeRows (accepted + 1) .ok = accepted + 1 := by
      simp only [finalizeRows]; rw [if_neg]; simp; omega
    have ht : cycleTail s c verify accept .ok = (⟨s.history ++ verify.toList.take (accepted + 1),
          ⟨continuation, accept.nextPosition, c.hidden.toList.getD accepted s.candidatePending⟩,
          c.hidden.toList.getD accepted s.candidatePending, .ok⟩, ⟨accept, .ok, accepted + 1⟩) := by
      simp [cycleTail, selectNextPendingCommitAware, publishStateCommitAware, hca, hc,
        hro, hanch, show ¬ 8 < accepted + 1 by omega]
    have hem : CycleRecord.emitted ⟨accept, .ok, accepted + 1⟩ =
        c.draft.toList.take accepted ++ [continuation] := by
      simp [CycleRecord.emitted, he, hout]
    rw [ht]
    refine ⟨hs, hr, ?_, ?_, ?_, ?_⟩
    · rw [hem]
      simpa [DeviceSession.context, hv] using hcyc
    · simp [hem, hl]
    · simp only [hem, length_append, hl, length_singleton]; omega
    · simp [hem, hl, hpos]

def emittedTokens (records : List CycleRecord) : List Token := records.flatMap CycleRecord.emitted

@[simp] lemma emittedTokens_append (rs qs : List CycleRecord) :
    emittedTokens (rs ++ qs) = emittedTokens rs ++ emittedTokens qs := flatMap_append

@[simp] lemma emittedTokens_singleton (r : CycleRecord) : emittedTokens [r] = r.emitted := by
  simp [emittedTokens]

/-- What a run from `s` keeps between the session and the records so far. -/
structure Tracks (f : List Token → Token) (stops : StopTokens) (s s' : DeviceSession H)
    (records : List CycleRecord) : Prop where
  emitted : Emitted f (tokenIsStop stops) s.context (emittedTokens records) s'.context
  position : s'.state.position.toNat = s.state.position.toNat + (emittedTokens records).length

lemma Tracks.cycle {s' : DeviceSession H} {rs : List CycleRecord}
    (h : Tracks f stops s s' rs) (c : CycleInput H) :
    Tracks f stops s (cycle f stops s' c).1 (rs ++ [(cycle f stops s' c).2]) := by
  rcases cycle_cases f stops s' c with hi | hadv
  · have hc : (Mtp.cycle f stops s' c).1.context = s'.context := by
      simp [DeviceSession.context, hi.history, hi.state]
    constructor
    · simpa [hi.emitted, hc] using h.emitted
    · simpa [hi.emitted, hi.state] using h.position
  · constructor
    · simpa using h.emitted.append hadv.cycle
    · rw [hadv.position, h.position]
      simp only [emittedTokens_append, emittedTokens_singleton, length_append]
      omega

lemma run_tracks (f : List Token → Token) (stops : StopTokens) (s : DeviceSession H)
    (cs : List (CycleInput H)) : Tracks f stops s (run (cycle f stops) s cs)
    (outputs (cycle f stops) s cs) := by
  exact run_trace (P := Tracks f stops s) (fun _ _ c hP => hP.cycle c) ⟨emitted_start .., rfl⟩ cs

lemma run_idle (h : s.status ≠ .ok ∨ tokenIsStop stops s.state.anchor) (cs : List (CycleInput H)) :
    (run (cycle f stops) s cs).history = s.history ∧
    (run (cycle f stops) s cs).state = s.state ∧
    ∀ r ∈ outputs (cycle f stops) s cs, r.emitted = [] ∧ r.committedRows = 0 := by
  induction cs generalizing s with
  | nil => simp
  | cons c cs ih =>
    have hi : Idle stops s (cycle f stops s c).1 (cycle f stops s c).2 := by
      rcases cycle_cases f stops s c with hi | hadv
      · exact hi
      · rcases h with hs | hstop
        · exact absurd hadv.running hs
        · rw [hadv.open_] at hstop
          cases hstop
    have hn : (cycle f stops s c).1.status ≠ .ok ∨
        tokenIsStop stops (cycle f stops s c).1.state.anchor := by
      rw [hi.state]
      exact h.imp_left hi.sticky
    obtain ⟨hh, hs, hrs⟩ := ih hn
    rw [run_cons, outputs_cons]
    refine ⟨hh.trans hi.history, hs.trans hi.state, ?_⟩
    intro r hr
    rcases mem_cons.1 hr with rfl | hr
    · exact ⟨hi.emitted, hi.rows⟩
    · exact hrs r hr

lemma outputs_rows (f : List Token → Token) (stops : StopTokens) (s : DeviceSession H)
    (cs : List (CycleInput H)) : ∀ p ∈ cs.zip (outputs (cycle f stops) s cs),
    p.2.committedRows = p.2.emitted.length ∧ p.2.emitted.length ≤ p.1.limit.toNat := by
  induction cs generalizing s with
  | nil => simp
  | cons c cs ih =>
    intro p hp
    rw [outputs_cons, zip_cons_cons] at hp
    rcases mem_cons.1 hp with rfl | hp
    · dsimp only
      rcases cycle_cases f stops s c with hi | hadv
      · simp [hi.emitted, hi.rows]
      · exact ⟨hadv.rows, hadv.le_limit⟩
    · exact ih _ p hp

/-- Every run of the captured graph is lossless: the emitted tokens are greedy output of `f` from
the anchor, cut right after the first stop; every cycle commits what it emits, within its limit;
the published position counts the emitted tokens; and after a stop or an error nothing moves. -/
theorem deviceGraph_lossless (f : List Token → Token) (stops : StopTokens) (s : DeviceSession H)
    (cycles : List (CycleInput H)) : CutGreedy f (tokenIsStop stops) (s.history ++ [s.state.anchor])
        (emittedTokens (outputs (cycle f stops) s cycles)) ∧
      (∀ p ∈ cycles.zip (outputs (cycle f stops) s cycles),
        p.2.committedRows = p.2.emitted.length ∧ p.2.emitted.length ≤ p.1.limit.toNat) ∧
      (run (cycle f stops) s cycles).state.position.toNat = s.state.position.toNat +
          (emittedTokens (outputs (cycle f stops) s cycles)).length ∧
      ∀ before after, cycles = before ++ after → ((run (cycle f stops) s before).status ≠ .ok ∨
          ∃ t ∈ s.state.anchor :: emittedTokens (outputs (cycle f stops) s before),
            tokenIsStop stops t = true) → (run (cycle f stops) s cycles).state =
            (run (cycle f stops) s before).state ∧ (run (cycle f stops) s cycles).history =
            (run (cycle f stops) s before).history ∧
          ∀ r ∈ outputs (cycle f stops) (run (cycle f stops) s before) after,
            r.emitted = [] ∧ r.committedRows = 0 := by
  have htrac := run_tracks f stops s cycles
  refine ⟨htrac.emitted.cutGreedy, outputs_rows f stops s cycles, htrac.position, ?_⟩
  rintro before after rfl he
  have hp := run_tracks f stops s before
  have hstu : (run (cycle f stops) s before).status ≠ .ok ∨
      tokenIsStop stops (run (cycle f stops) s before).state.anchor :=
    he.imp_right fun ⟨_, ht, hs⟩ => hp.emitted.anchor_stop ht hs
  obtain ⟨hh, hst, hr⟩ := run_idle hstu after
  rw [run_append]
  exact ⟨hst, hh, hr⟩

/-! A run of two cycles: the first accepts two draft tokens and the stop `7`, the second is idle. -/

def exampleTarget (h : List Token) : Token := if h.length = 3 then 7 else UInt32.ofNat h.length

def exampleStops : StopTokens := ⟨Vector.replicate 16 7, 1⟩

def exampleSession : DeviceSession Unit := ⟨[], ⟨40, 0, ()⟩, (), .ok⟩

def exampleCycle : CycleInput Unit :=
  ⟨#v[1, 2, 7, 9, 9, 9, 9], .ok, Vector.replicate 8 0, Vector.replicate 8 (), .ok, 8⟩

lemma exampleCycle_emits :
    emittedTokens (outputs (cycle exampleTarget exampleStops) exampleSession [exampleCycle]) =
      [1, 2, 7] := by decide +kernel

theorem deviceGraph_lossless_stops : ∀ r ∈ outputs (cycle exampleTarget exampleStops)
        (run (cycle exampleTarget exampleStops) exampleSession [exampleCycle]) [exampleCycle],
      r.emitted = [] ∧ r.committedRows = 0 :=
  ((deviceGraph_lossless exampleTarget exampleStops exampleSession
    [exampleCycle, exampleCycle]).2.2.2 [exampleCycle] [exampleCycle] rfl
    (.inr ⟨7, by rw [exampleCycle_emits]; decide, by decide⟩)).2.2

end AxiomKernel.Mtp
