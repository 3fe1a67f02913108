import Mathlib
import AxiomKernel.Device
import AxiomKernel.Lib.Guard
import AxiomKernel.Lib.Machine

/-! `ple_session_state`: tokens and convolution frames staged in a transaction, the prefix of them
that a commit publishes, and what a staged call reads of both. A frame is the bits of its floats.
The session is configured: its buffers have room for what a transaction may stage. -/
namespace AxiomKernel.Qwen4exp

open Guard List Machine

abbrev PleFrame := List UInt32

inductive PleStatusCode where
  | invalidArgument | invalidState | outOfRange | arithmeticOverflow

abbrev PleStatus := PleStatusCode × String

structure PleMetadata where
  unigramVocabSize : Int
  eosTokenId : Int
  layerMultipliers : Fin 3 → UInt64
  ngramHeadsOffsets : Fin 16 → UInt64
  ngramHeadsVocabSizes : Fin 16 → UInt64

namespace PleMetadata

variable (m : PleMetadata)

def validateToken (token : Int) : Except PleStatus Unit :=
  refuse (token < 0 ∨ m.unigramVocabSize ≤ token)
    (.outOfRange, "PLE token ID is outside the unigram vocabulary")

/-- `compute_ids_validated`; the context is in the order of the tokens. -/
def computeIds (leftContext : Int × Int) (token : Int) : Except PleStatus (List UInt64) := do
  m.validateToken token
  m.validateToken leftContext.1
  m.validateToken leftContext.2
  let eos := m.eosTokenId
  let shiftOne := if leftContext.2 = eos then eos else leftContext.2
  let shiftTwo := if leftContext.2 = eos ∨ leftContext.1 = eos then eos else leftContext.1
  let bigram := UInt64.ofInt token * m.layerMultipliers 0 ^^^
    UInt64.ofInt shiftOne * m.layerMultipliers 1
  let trigram := bigram ^^^ UInt64.ofInt shiftTwo * m.layerMultipliers 2
  (finRange 16).mapM fun head => do
    let mixed := if head < 8 then bigram else trigram
    let row := m.ngramHeadsOffsets head + mixed % m.ngramHeadsVocabSizes head
    refuse (0x7fffffffffffffff < row) (.arithmeticOverflow, "PLE embedding row overflows I64")
    pure row

end PleMetadata

structure PleCommitted where
  context : Int × Int
  tokenCount : Nat
  convHistory : List PleFrame
  convNext : Nat
  convValid : Nat

def PleCommitted.append (c : PleCommitted) (pair : Int × PleFrame) : PleCommitted where
  context := (c.context.2, pair.1)
  tokenCount := c.tokenCount + 1
  convHistory := c.convHistory.set c.convNext pair.2
  convNext := (c.convNext + 1) % 9
  convValid := min 9 (c.convValid + 1)

structure PleSession where
  metadata : PleMetadata
  convChannels : Nat
  maxSpeculativeTokens : Nat
  committed : PleCommitted
  transactionOpen : Bool
  stagedTokens : List Int
  stagedConvFrames : List PleFrame

inductive PleCall where
  | beginTransaction
  | stageToken (token : Int) (ids : Bool)
  | stageConvFrame (frame : Option PleFrame) (tapWindowElements : Option Nat)
  | commitPrefix (acceptedTokens : Nat)
  | rollback
  | reset

inductive PleOutput where
  | done
  | ids (rows : List UInt64)
  | taps (window : List PleFrame)

namespace PleSession

def fresh (metadata : PleMetadata) (convChannels maxSpeculativeTokens : Nat) : PleSession where
  metadata := metadata
  convChannels := convChannels
  maxSpeculativeTokens := maxSpeculativeTokens
  committed := ⟨(metadata.eosTokenId, metadata.eosTokenId), 0,
    replicate 9 (replicate convChannels 0), 0, 0⟩
  transactionOpen := false
  stagedTokens := []
  stagedConvFrames := []

variable (s : PleSession)

def priorToken (distance : Nat) : Int :=
  if distance = 0 then s.metadata.eosTokenId
  else if distance ≤ s.stagedTokens.length then
    s.stagedTokens.getD (s.stagedTokens.length - distance) s.metadata.eosTokenId
  else if distance - s.stagedTokens.length = 1 then s.committed.context.2
  else if distance - s.stagedTokens.length = 2 then s.committed.context.1
  else s.metadata.eosTokenId

def priorConvFrame (distance stagedCount : Nat) : Option PleFrame :=
  if distance = 0 then none
  else if distance ≤ stagedCount then s.stagedConvFrames[stagedCount - distance]?
  else if s.committed.convValid < distance - stagedCount then none
  else s.committed.convHistory[(s.committed.convNext + 9 - (distance - stagedCount)) % 9]?

def closeTransaction : PleSession :=
  { s with transactionOpen := false, stagedTokens := [], stagedConvFrames := [] }

/-- A call that is not rejected: every check comes before the first write. -/
def call : PleCall → Except PleStatus (PleSession × PleOutput)
  | .beginTransaction => do
    refuse s.transactionOpen (.invalidState, "PLE transaction is already open")
    pure ({ s.closeTransaction with transactionOpen := true }, .done)
  | .stageToken token ids => do
    refuse (¬ s.transactionOpen)
      (.invalidState, "PLE token staging requires an open transaction")
    refuse (¬ ids) (.invalidArgument, "PLE head-ID output is null")
    refuse (s.stagedTokens.length ≠ s.stagedConvFrames.length)
      (.invalidState, "PLE conv frame for the previous token is pending")
    refuse (s.maxSpeculativeTokens ≤ s.stagedTokens.length)
      (.outOfRange, "PLE transaction capacity exceeded")
    let rows ← s.metadata.computeIds (s.priorToken 2, s.priorToken 1) token
    pure ({ s with stagedTokens := s.stagedTokens ++ [token] }, .ids rows)
  | .stageConvFrame frame tapWindowElements => do
    refuse (¬ s.transactionOpen) (.invalidState, "PLE conv staging requires an open transaction")
    let frame ← need (.invalidArgument, "PLE conv input or tap output is null") frame
    let elements ← need (.invalidArgument, "PLE conv input or tap output is null") tapWindowElements
    refuse (frame.length ≠ s.convChannels ∨ elements ≠ s.convChannels * 4)
      (.invalidArgument, "PLE conv input or tap-window size is invalid")
    refuse (s.stagedTokens.length ≠ s.stagedConvFrames.length + 1)
      (.invalidState, "PLE conv staging has no matching pending token")
    refuse (¬ frame.all isFinite)
      (.invalidArgument, "PLE conv input contains a non-finite value")
    let tap distance := (s.priorConvFrame distance s.stagedConvFrames.length).getD
      (replicate s.convChannels 0)
    pure ({ s with stagedConvFrames := s.stagedConvFrames ++ [frame] },
      .taps [tap 9, tap 6, tap 3, frame])
  | .commitPrefix acceptedTokens => do
    refuse (¬ s.transactionOpen) (.invalidState, "PLE commit requires an open transaction")
    refuse (s.stagedTokens.length ≠ s.stagedConvFrames.length)
      (.invalidState, "PLE commit rejected an incomplete token/conv pair")
    refuse (s.stagedTokens.length < acceptedTokens)
      (.outOfRange, "PLE accepted prefix exceeds the staged transaction")
    refuse (0xffffffffffffffff - s.committed.tokenCount < acceptedTokens)
      (.arithmeticOverflow, "PLE committed token counter overflowed")
    let accepted := (s.stagedTokens.zip s.stagedConvFrames).take acceptedTokens
    pure ({ s.closeTransaction with
      committed := accepted.foldl PleCommitted.append s.committed }, .done)
  | .rollback => do
    refuse (¬ s.transactionOpen) (.invalidState, "PLE rollback requires an open transaction")
    pure (s.closeTransaction, .done)
  | .reset => do
    refuse s.transactionOpen (.invalidState, "cannot reset PLE during a transaction")
    pure (fresh s.metadata s.convChannels s.maxSpeculativeTokens, .done)

def step (c : PleCall) : PleSession × Except PleStatus PleOutput :=
  match s.call c with
  | .ok (t, output) => (t, .ok output)
  | .error e => (s, .error e)

/-- What the calls since the last reset were given, as far as they were not rejected: the pairs
accepted by commits, the newest first, and the tokens and frames of the open transaction. -/
structure History where
  pairs : List (Int × PleFrame) := []
  tokens : List Int := []
  frames : List PleFrame := []
  deriving DecidableEq

def History.record (h : History) : PleCall → Except PleStatus PleOutput → History
  | _, .error _ => h
  | .beginTransaction, _ | .rollback, _ => { pairs := h.pairs }
  | .stageToken token _, _ => { h with tokens := h.tokens ++ [token] }
  | .stageConvFrame frame _, _ => { h with frames := h.frames ++ frame.toList }
  | .commitPrefix acceptedTokens, _ =>
    { pairs := ((h.tokens.zip h.frames).take acceptedTokens).reverse ++ h.pairs }
  | .reset, _ => {}

def history : PleSession → History → List PleCall → History
  | _, h, [] => h
  | s, h, c :: calls => history (s.step c).1 (h.record c (s.step c).2) calls

def transaction (convChannels : Nat) (pair : Int × PleFrame) : List PleCall :=
  [.beginTransaction, .stageToken pair.1 true,
    .stageConvFrame (some pair.2) (some (convChannels * 4)), .commitPrefix 1]

/-! ## What the staged calls read

The lists of the past have the newest entry first. -/

/-- The rows of the sixteen heads, eight for the pair of tokens and eight for the triple; behind an
end of text the older token counts as one, too. -/
def headIds (m : PleMetadata) (context : Int × Int) (token : Int) : List UInt64 :=
  let older := if context.2 = m.eosTokenId then m.eosTokenId else context.1
  let pair := UInt64.ofInt token * m.layerMultipliers 0 ^^^
    UInt64.ofInt context.2 * m.layerMultipliers 1
  let triple := pair ^^^ UInt64.ofInt older * m.layerMultipliers 2
  (finRange 16).map fun head =>
    m.ngramHeadsOffsets head + (if head < 8 then pair else triple) % m.ngramHeadsVocabSizes head

def contextOf (m : PleMetadata) (tokens : List Int) : Int × Int :=
  (tokens[1]?.getD m.eosTokenId, tokens[0]?.getD m.eosTokenId)

/-- A session configured as `z` after the pairs were committed, with what is staged on top. -/
def behind (z : PleSession) (l : List (Int × PleFrame)) (opened : Bool) (tokens : List Int)
    (frames : List PleFrame) : PleSession :=
  ⟨z.metadata, z.convChannels, z.maxSpeculativeTokens, l.foldr (fun pair c => c.append pair)
    (fresh z.metadata z.convChannels z.maxSpeculativeTokens).committed, opened, tokens, frames⟩

variable {s z : PleSession} {l : List (Int × PleFrame)} {opened : Bool} {tokens : List Int}
  {frames : List PleFrame}

/-- The ring slot at a distance before the next one holds the frame at that distance. -/
lemma committed_spec : ∃ c, (behind z l opened tokens frames).committed = c ∧
    c.context = contextOf z.metadata (l.map Prod.fst) ∧ c.tokenCount = l.length ∧
    c.convHistory.length = 9 ∧ c.convNext < 9 ∧ ∀ d < 9, (if c.convValid < d + 1 then none
    else c.convHistory[(c.convNext + 9 - (d + 1)) % 9]?) = (l.map Prod.snd)[d]? := by
  induction l with
  | nil => exact ⟨_, rfl, rfl, rfl, rfl, Nat.succ_pos 8, fun d _ => if_pos (Nat.succ_pos d)⟩
  | cons p l ih =>
    obtain ⟨c, hc, hcn, hco, hl, hn, hr⟩ := ih
    refine ⟨c.append p, congrArg (·.append p) hc, ?_, congrArg (· + 1) hco, ?_,
      Nat.mod_lt _ (by decide), fun d hd => ?_⟩
    · rw [PleCommitted.append, hcn]
      rfl
    · rw [PleCommitted.append, length_set, hl]
    · change (if min 9 (c.convValid + 1) < d + 1 then none else
        (c.convHistory.set c.convNext p.2)[((c.convNext + 1) % 9 + 9 - (d + 1)) % 9]?) = _
      cases d with
      | zero =>
        have hs : ((c.convNext + 1) % 9 + 9 - (0 + 1)) % 9 = c.convNext := by omega
        rw [if_neg (by omega), hs, getElem?_set_self (by omega)]
        rfl
      | succ d =>
        have hs : ((c.convNext + 1) % 9 + 9 - (d + 1 + 1)) % 9 =
            (c.convNext + 9 - (d + 1)) % 9 := by omega
        rw [hs, getElem?_set_ne (by omega)]
        refine Eq.trans ?_ (hr d (by omega))
        congr 1
        rw [eq_iff_iff]
        omega

lemma priorToken_behind : ((behind z l opened tokens frames).priorToken 2,
    (behind z l opened tokens frames).priorToken 1) =
    contextOf z.metadata (tokens.reverse ++ l.map Prod.fst) := by
  obtain ⟨c, hc, hco, -⟩ := @committed_spec z l opened tokens frames
  obtain ⟨p, rfl⟩ := reverse_surjective tokens
  rw [priorToken, priorToken, hc, hco, reverse_reverse]
  rcases p with - | ⟨a, - | ⟨b, p⟩⟩
  · rfl
  · rfl
  · simp [behind, contextOf]

lemma priorConvFrame_behind {d : Nat} (hd : d < 9) :
    (behind z l opened tokens frames).priorConvFrame (d + 1) frames.length =
    (frames.reverse ++ l.map Prod.snd)[d]? := by
  obtain ⟨c, hc, -, -, -, -, hr⟩ := @committed_spec z l opened tokens frames
  rw [priorConvFrame, if_neg d.succ_ne_zero, hc]
  by_cases h : d + 1 ≤ frames.length
  · rw [if_pos h, getElem?_append_left (by rwa [length_reverse]), getElem?_reverse h,
      Nat.sub_sub, Nat.add_comm 1]
    rfl
  · rw [if_neg h, getElem?_append_right (by rw [length_reverse]; omega), length_reverse,
      ← hr _ (by omega), Nat.sub_add_comm (by omega)]

def Stageable (m : PleMetadata) : List Int → Prop
  | [] => True
  | token :: tokens =>
    (∃ rows, m.computeIds (contextOf m tokens) token = .ok rows) ∧ Stageable m tokens

lemma Stageable.of_append {m : PleMetadata} {xs ys : List Int} (h : Stageable m (xs ++ ys)) :
    Stageable m ys := by
  induction xs with
  | nil => exact h
  | cons x xs ih => exact ih h.2

structure Checked (z : PleSession) (l : List (Int × PleFrame)) (opened : Bool) (tokens : List Int)
    (frames : List PleFrame) : Prop where
  closed : opened = false → tokens = [] ∧ frames = []
  stageable : Stageable z.metadata (tokens.reverse ++ l.map Prod.fst)
  frames : ∀ f ∈ frames ++ l.map Prod.snd, f.length = z.convChannels ∧ f.all isFinite
  count : l.length < 2 ^ 64

lemma Checked.drop (o : Bool) (h : Checked z l opened tokens frames) : Checked z l o [] [] :=
  ⟨fun _ => ⟨rfl, rfl⟩, h.stageable.of_append, fun f hf => h.frames f (mem_append_right _ hf),
    h.count⟩

def Follows (z s : PleSession) (h : History) : Prop :=
  ∃ opened, s = behind z h.pairs opened h.tokens h.frames ∧
    Checked z h.pairs opened h.tokens h.frames

lemma follows_nil : Follows z (behind z [] false [] []) {} :=
  ⟨_, rfl, fun _ => ⟨rfl, rfl⟩, trivial, (fun _ h => by cases h), Nat.two_pow_pos 64⟩

lemma Follows.step {past : History} (h : Follows z s past) (c : PleCall) :
    Follows z (s.step c).1 (past.record c (s.step c).2) := by
  unfold PleSession.step
  rcases hca : s.call c with e | ⟨t, output⟩
  · cases c <;> exact h
  · obtain ⟨l, tokens, frames⟩ := past
    obtain ⟨opened, rfl, h⟩ := h
    change Checked z l opened tokens frames at h
    cases c with
    | beginTransaction =>
      obtain ⟨-, hca⟩ := refuse_eq_ok.mp hca
      cases hca
      exact ⟨_, rfl, h.drop true⟩
    | stageToken token ids =>
      simp only [call, refuse_eq_ok] at hca
      obtain ⟨hop, -, -, -, hca⟩ := hca
      obtain ⟨rows, hrows, hca⟩ := bind_eq_ok.mp hca
      cases hca
      rw [priorToken_behind] at hrows
      refine ⟨_, rfl, fun hc => absurd hc (by simpa using hop), ?_, h.frames, h.count⟩
      change Stageable z.metadata ((tokens ++ [token]).reverse ++ l.map Prod.fst)
      rw [reverse_concat]
      exact ⟨⟨rows, hrows⟩, h.stageable⟩
    | stageConvFrame frame elements =>
      simp only [call, refuse_eq_ok, need_eq_ok] at hca
      obtain ⟨hop, frame, rfl, _, -, hsz, -, hfin, hca⟩ := hca
      cases hca
      refine ⟨_, rfl, fun hc => absurd hc (by simpa using hop), h.stageable,
        fun f hf => ?_, h.count⟩
      have hf : f ∈ frames ++ [frame] ++ l.map Prod.snd := hf
      rw [append_assoc, mem_append, singleton_append, mem_cons, or_left_comm, ← mem_append] at hf
      rcases hf with rfl | hf
      · exact ⟨by_contra fun hne => hsz (.inl hne), not_not.mp hfin⟩
      · exact h.frames f hf
    | commitPrefix k =>
      simp only [call, refuse_eq_ok] at hca
      obtain ⟨-, hpair, -, hro, hca⟩ := hca
      cases hca
      have hpair : tokens.length = frames.length := not_not.mp hpair
      obtain ⟨c, hc, -, hco, -⟩ := @committed_spec z l opened tokens frames
      rw [hc, hco] at hro
      change Follows z _ ⟨((tokens.zip frames).take k).reverse ++ l, [], []⟩
      refine ⟨false, ?_, fun _ => ⟨rfl, rfl⟩, ?_, fun f hf => ?_, ?_⟩
      · simp [behind, closeTransaction]
      · have hstag := h.stageable
        rw [← take_append_drop k tokens, reverse_append, append_assoc] at hstag
        simpa [behind, map_fst_zip hpair.le] using hstag.of_append
      · refine h.frames f ?_
        simp [map_snd_zip hpair.ge] at hf ⊢
        exact hf.imp_left mem_of_mem_take
      · have := length_take_le k (tokens.zip frames)
        have := h.count
        change (((tokens.zip frames).take k).reverse ++ l).length < 2 ^ 64
        rw [length_append, length_reverse]
        omega
    | rollback =>
      obtain ⟨-, hca⟩ := refuse_eq_ok.mp hca
      cases hca
      exact ⟨_, rfl, h.drop false⟩
    | reset =>
      obtain ⟨-, hca⟩ := refuse_eq_ok.mp hca
      cases hca
      exact follows_nil

lemma follows_run {past : History} (h : Follows z s past) (cs : List PleCall) :
    Follows z (run step s cs) (history s past cs) := by
  induction cs generalizing s past with
  | nil => exact h
  | cons c cs ih => exact ih (h.step c)

lemma run_transaction {p : Int × PleFrame} {rs : List UInt64} (hca : 0 < z.maxSpeculativeTokens)
    (hr : z.metadata.computeIds (contextOf z.metadata (l.map Prod.fst)) p.1 = .ok rs)
    (hf : p.2.length = z.convChannels ∧ p.2.all isFinite)
    (hco : l.length < 2 ^ 64 - 1) :
    run step (behind z l false [] []) (transaction z.convChannels p) =
    behind z (p :: l) false [] [] := by
  obtain ⟨c, hc, -, hl, -⟩ := @committed_spec z l true [] []
  have hi := @priorToken_behind z l true [] []
  have hro : ¬ z.maxSpeculativeTokens ≤ 0 := by omega
  have hcn : ¬ 0xffffffffffffffff - c.tokenCount < 1 := by omega
  simp only [behind] at hc
  simp only [behind, hc, reverse_nil, nil_append] at hi
  simp [transaction, run, step, call, refuse, need, behind, closeTransaction, hc, hi,
    hr, hro, hcn, hf, bind, Except.bind, pure, Except.pure]

lemma run_replay (hc : 0 < z.maxSpeculativeTokens) (h : Checked z l false [] []) :
    run step (behind z [] false [] []) (l.reverse.flatMap (transaction z.convChannels)) =
    behind z l false [] [] := by
  induction l with
  | nil => rfl
  | cons p l ih =>
    obtain ⟨hcl, ⟨⟨rs, hr⟩, hstag⟩, hfram, hco⟩ := h
    rw [length_cons] at hco
    have hp : Checked z l false [] [] :=
      ⟨hcl, hstag, fun f hf => hfram f (mem_cons_of_mem _ hf), by omega⟩
    rw [reverse_cons, flatMap_append, run_append, ih hp, flatMap_singleton]
    exact run_transaction hc hr (hfram p.2 mem_cons_self) (by omega)

lemma call_of_ok {c : PleCall} {o : PleOutput} (h : (s.step c).2 = .ok o) :
    ∃ t, s.call c = .ok (t, o) := by
  unfold step at h
  split at h
  next t _ hc =>
    cases h
    exact ⟨t, hc⟩
  next => cases h

lemma eq_map_of_mapM {α β ε : Type} {f : α → Except ε β} {g : α → β}
    (h : ∀ x y, f x = .ok y → y = g x) {xs : List α} {ys : List β} (hm : xs.mapM f = .ok ys) :
    ys = xs.map g := by
  induction xs generalizing ys with
  | nil =>
    cases hm
    rfl
  | cons x xs ih =>
    rw [mapM_cons] at hm
    obtain ⟨y, hy, hm⟩ := bind_eq_ok.mp hm
    obtain ⟨rest, hr, hm⟩ := bind_eq_ok.mp hm
    cases hm
    rw [map_cons, ← h x y hy, ← ih hr]

/-- The two shifts of the source mask what `headIds` masks. -/
lemma eq_headIds {m : PleMetadata} {context : Int × Int} {token : Int} {rows : List UInt64}
    (h : m.computeIds context token = .ok rows) : rows = headIds m context token := by
  unfold PleMetadata.computeIds at h
  obtain ⟨-, -, h⟩ := bind_eq_ok.mp h
  obtain ⟨-, -, h⟩ := bind_eq_ok.mp h
  obtain ⟨-, -, h⟩ := bind_eq_ok.mp h
  refine eq_map_of_mapM (fun head row hrow => ?_) h
  obtain ⟨-, hrow⟩ := refuse_eq_ok.mp hrow
  cases hrow
  have hone : (if context.2 = m.eosTokenId then m.eosTokenId else context.2) = context.2 := by
    split_ifs with he
    · exact he.symm
    · rfl
  have htwo : (if context.2 = m.eosTokenId ∨ context.1 = m.eosTokenId then m.eosTokenId
      else context.1) = if context.2 = m.eosTokenId then m.eosTokenId else context.1 := by
    grind
  rw [hone, htwo]

/-- Two heads' worth of tables, and end of text is the token 0. -/
def smallTables : PleMetadata := ⟨10, 0, fun i => i.val.toUInt64 + 1, fun _ => 0, fun _ => 50⟩

/-- Three pairs are staged and two of them accepted; of the next transaction one pair is staged
after a call that is rejected, and the end of text is its token. -/
def twoTransactions : List PleCall :=
  .beginTransaction ::
    ([(3, [1]), (4, [2]), (5, [3])] : List (Int × PleFrame)).flatMap
      (fun pair => [.stageToken pair.1 true, .stageConvFrame (some pair.2) (some 4)]) ++
    [.commitPrefix 2, .commitPrefix 1, .beginTransaction, .stageToken 0 true,
      .stageConvFrame (some [4]) (some 4), .reset]

end PleSession

end AxiomKernel.Qwen4exp
