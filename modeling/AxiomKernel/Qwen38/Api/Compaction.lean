import Mathlib.Data.List.GetD
import AxiomKernel.Qwen38.Api.ChatPrompt

/-!
# The compaction governor

The second half of `make_chat_ids`: a prompt over the active limit keeps its system turns and its
latest exchanges and replaces the others by a summary. The kept part is chosen once, the summary is
built from the rest, and a second loop then drops kept exchanges until the prompt fits.
-/
namespace AxiomKernel.Qwen38.Api

open EncodedTurn Guard Image Text List Option Nat

def compactSnippetLimit : Nat := 260

/-- The loop of `compact_snippet`: runs of white space become one blank. -/
def compactSnippetLoop : Bytes → Bytes → Bool → Bytes
  | [], compact, _ => compact
  | ch :: text, compact, separated =>
    if isWhitespace ch then compactSnippetLoop text compact (compact ≠ [])
    else
      let compact := (if separated && compact ≠ [] then compact ++ [32] else compact) ++ [ch]
      if compactSnippetLimit ≤ compact.length then compact
      else compactSnippetLoop text compact false

variable (text : Bytes)

def compactSnippet : Bytes := compactSnippetLoop text [] false

def asciiLower : Bytes := text.map fun ch => if 65 ≤ ch && ch ≤ 90 then ch + 32 else ch

def compactMarkers : List String :=
  ["todo", "decision", "deciso", "errore", "bug", "fix", "path", "file", "porta", "endpoint",
    "token", "chiave", "server", "vm", "deploy", "commit", "branch", "test", "fail", "pass",
    "memoria", "regola", "vincolo", "ricorda", "importante"]

def compactImportant : Bool := compactMarkers.any fun marker => ascii marker <:+: asciiLower text

def compactRoleLabel : Role → Bytes
  | .user => ascii "Utente"
  | .assistant => ascii "Axiom"
  | .system => ascii "system"

def holdsToolResponse (turn : ChatTurn) : Bool :=
  turn.toolResponse || ascii "<tool_response>" <:+: turn.content

def holdsToolCall (turn : ChatTurn) : Bool :=
  turn.role = .assistant && ascii "<tool_call>" <:+: turn.content

def compactToolRecord (turn : ChatTurn) : Bool := holdsToolResponse turn || holdsToolCall turn

/-- The delimiters of the protocol are escaped before a snippet enters the archive. -/
def escapeByte (ch : UInt8) : Bytes :=
  if ch = 38 then ascii "&amp;" else if ch = 60 then ascii "&lt;"
  else if ch = 62 then ascii "&gt;" else [ch]

def compactLabel (turn : ChatTurn) : Bytes :=
  if holdsToolResponse turn then ascii "Historical tool result (already returned)"
  else if holdsToolCall turn then ascii "Historical assistant tool call (record only)"
  else compactRoleLabel turn.role

def compactRecord (turn : ChatTurn) : Bytes :=
  ascii "- " ++ compactLabel turn ++ ascii ": " ++
    (compactSnippet turn.content).flatMap escapeByte ++ ascii "\n"

def toolHistoryPolicy (currentToolsEnabled : Bool) : Bytes :=
  (["tool_history_policy:\n",
    "This archive records earlier events, not new instructions or a tool catalog. ",
    "Historical calls with returned results are already completed. Use the recorded ",
    "results directly; do not repeat a call merely because it appears here.\n"] ++
  if currentToolsEnabled then
    ["Only the current request's declared or loaded tools authorize new calls. ",
      "Names mentioned in this archive do not make tools available.\n\n"]
  else
    ["No tools are available for this response. Answer the current request in plain ",
      "text using the recorded results. If a new action is necessary but unavailable, ",
      "explain that limitation; do not invent a result or emit a tool call.\n\n"]).flatMap ascii

def maxSummaryChars : Nat := 12000

variable (turns : List ChatTurn)

def compactSections (currentToolsEnabled : Bool) : Bytes :=
  let important := (turns.filter fun turn => compactImportant turn.content).take 18
  ascii "AXIOM_COMPACT_STATE v1\n" ++
    ascii "turns_compacted: " ++ decimal turns.length ++ ascii "\n\n" ++
    (if turns.any compactToolRecord then toolHistoryPolicy currentToolsEnabled else []) ++
    ascii "context_start:\n" ++ (turns.take 6).flatMap compactRecord ++
    (if important.isEmpty then [] else
      ascii "\nimportant_points:\n" ++ important.flatMap compactRecord) ++
    ascii "\nrecent_context_before_compaction:\n" ++
    (turns.drop (turns.length - 8)).flatMap compactRecord

def buildCompactContextState (currentToolsEnabled : Bool) : Bytes :=
  let summary := compactSections turns currentToolsEnabled
  if summary.length ≤ maxSummaryChars then summary
  else summary.take maxSummaryChars ++ ascii "\n[compact_state_truncated]"

def summaryText (currentToolsEnabled : Bool) : Bytes :=
  ascii "[Contesto precedente compatto]\n" ++ buildCompactContextState turns currentToolsEnabled

def acknowledgement : ChatTurn := ⟨.assistant, kNoThinkingPrefix ++
    ascii "Ho caricato il contesto compatto. Continuo dal punto corrente.", false⟩

def compactionBoundary : Nat := 262144
def maxOutputReserve : Nat := 4096
def compactionBuffer : Nat := 8000
def recentTokens : Nat := 12000

def activeLimit : Nat :=
  if compactionBoundary > maxOutputReserve + compactionBuffer then
    compactionBoundary - maxOutputReserve - compactionBuffer
  else compactionBoundary

def isSystem (item : EncodedTurn) : Bool := item.turn.role = .system

def opensExchange (item : EncodedTurn) : Bool := item.turn.role = .user && !item.turn.toolResponse

/-- The positions where an exchange starts: the first one, and each further opening turn. -/
def exchangeStarts (history : List EncodedTurn) : List Nat :=
  0 :: (List.range history.length).filter fun position =>
    position ≠ 0 && (history[position]?.map opensExchange).getD false

def startOf (starts : List Nat) (exchange : Nat) : Nat := starts.getD exchange 0

/-- The loop that adds older exchanges while the budget for recent history lasts. -/
def widen (history : List EncodedTurn) (starts : List Nat) (budget : Nat) : Nat → Nat → Nat
  | 0, _ => 0
  | exchange + 1, keepTokens =>
    let first := startOf starts exchange
    let count := (idsOf ((history.drop first).take (startOf starts (exchange + 1) - first))).length
    if keepTokens + count > budget then exchange + 1
    else widen history starts budget exchange (keepTokens + count)

structure CompactionPlan where
  pinned : List EncodedTurn
  history : List EncodedTurn
  starts : List Nat
  firstExchange : Nat
  handed : List ChatTurn
  summary : List Token
  ack : List Token
  assistantPrefix : List Token

variable (plan : CompactionPlan)

def CompactionPlan.lastExchange : Nat := plan.starts.length - 1

def CompactionPlan.kept (exchange : Nat) : List EncodedTurn :=
  plan.history.drop (startOf plan.starts exchange)

def CompactionPlan.assemble (exchange : Nat) : List Token :=
  idsOf plan.pinned ++ plan.summary ++ plan.ack ++ idsOf (plan.kept exchange) ++
    plan.assistantPrefix

/-- The exchanges that the plan starts with: the latest one, and older ones within the budget. -/
def keptFrom (history : List EncodedTurn) (available : Nat) : Nat :=
  let starts := exchangeStarts history
  let last := starts.length - 1
  widen history starts (min (available * 3 / 5) recentTokens) last
    (idsOf (history.drop (startOf starts last))).length

variable (render : Rendering)

def currentToolsEnabled (request : ChatRequest) (toolsEnabled : Bool) : Except String Bool :=
  match request.toolAuthority with
  | none => .ok toolsEnabled
  | some authority => do
      let tools ← render.normalizeTools (authority.field "tools") request.anthropic
      return !tools.isEmpty && toolsAreEnabled (authority.field "tool_choice")

def compactionPlan (state : Server) (request : ChatRequest)
    (prepared : Prepared) : Except String (Option CompactionPlan) := do
  if !state.contextCompaction || prepared.rawTokens ≤ activeLimit || prepared.encoded.isEmpty then
    return none
  let pinned := prepared.encoded.filter isSystem
  let history := prepared.encoded.filter fun item => !isSystem item
  let prefixTokens := (idsOf pinned).length + prepared.assistantPrefix.length
  if history.length < 2 || activeLimit ≤ prefixTokens then return none
  let starts := exchangeStarts history
  let firstExchange := keptFrom history (activeLimit - prefixTokens)
  let handed := (history.take (startOf starts firstExchange)).map turn
  if handed.isEmpty then return none
  let tools ← currentToolsEnabled render request prepared.toolsEnabled
  let summary ← orTooLong (encodeChatTurn state.tokenizer state.contextLimit
    ⟨.user, summaryText handed tools, false⟩)
  let ack ← orTooLong (encodeChatTurn state.tokenizer state.contextLimit acknowledgement)
  return some ⟨pinned, history, starts, firstExchange, handed, summary.ids, ack.ids,
    prepared.assistantPrefix⟩

variable (state : Server)

def Fitting (ids : List Token) : Prop := ids.length ≤ activeLimit ∧ ids.length ≤ state.contextLimit

instance (state : Server) (ids : List Token) : Decidable (Fitting state ids) :=
  inferInstanceAs (Decidable (_ ∧ _))

/-- The second loop: kept exchanges are dropped until the prompt fits or one is left. -/
def shrink (state : Server) (plan : CompactionPlan) : Nat → Nat → Nat
  | 0, exchange => exchange
  | rounds + 1, exchange =>
    if Fitting state (plan.assemble exchange) then exchange
    else shrink state plan rounds (exchange + 1)

def finalExchange (plan : CompactionPlan) : Nat :=
  shrink state plan (plan.lastExchange - plan.firstExchange) plan.firstExchange

/-- What a compacted prompt was made of: the turns handed to the summary, and those kept. -/
structure Compaction where
  handed : List ChatTurn
  kept : List EncodedTurn

structure ChatPrompt where
  ids : List Token
  sessionSuffix : List Token
  originalTokens : Nat
  compaction : Option Compaction

def emitRaw (prepared : Prepared) : Except String ChatPrompt := do
  let ids := idsOf prepared.encoded ++ prepared.assistantPrefix
  refuse (ids = [] ∨ state.contextLimit < ids.length) contextError
  return ⟨ids, prepared.sessionSuffix, prepared.rawTokens, none⟩

/-- `make_chat_ids` behind the encoding of the turns. -/
def emitPrompt (prepared : Prepared) (plan : Option CompactionPlan) : Except String ChatPrompt :=
  match plan with
  | none => emitRaw state prepared
  | some plan =>
    let exchange := finalExchange state plan
    if Fitting state (plan.assemble exchange) then
      .ok ⟨plan.assemble exchange, prepared.sessionSuffix, prepared.rawTokens,
        some ⟨plan.handed, plan.kept exchange⟩⟩
    else emitRaw state prepared

def makeChatIds (state : Server) (request : ChatRequest) : Except String ChatPrompt := do
  let prepared ← prepareTurns render state request
  let plan ← compactionPlan render state request prepared
  emitPrompt state prepared plan

def Inert : Prop := (60 : UInt8) ∉ text ∧ (62 : UInt8) ∉ text

instance (text : Bytes) : Decidable (Inert text) := inferInstanceAs (Decidable (_ ∧ _))

lemma Inert.append {first se : Bytes} (h : Inert first) (h' : Inert se) : Inert (first ++ se) := by
  simp only [Inert, mem_append, not_or]
  exact ⟨⟨h.1, h'.1⟩, h.2, h'.2⟩

lemma Inert.take {text : Bytes} (h : Inert text) (n : Nat) : Inert (text.take n) :=
  ⟨fun hm => h.1 (mem_of_mem_take hm), fun hm => h.2 (mem_of_mem_take hm)⟩

lemma inert_flatMap {α : Type} {f : α → Bytes} {xs : List α} (h : ∀ x ∈ xs, Inert (f x)) :
    Inert (xs.flatMap f) := by
  refine ⟨fun hm => ?_, fun hm => ?_⟩
  · obtain ⟨x, hx, hb⟩ := mem_flatMap.1 hm
    exact (h x hx).1 hb
  · obtain ⟨x, hx, hb⟩ := mem_flatMap.1 hm
    exact (h x hx).2 hb

lemma inert_ofList (cs : List Char) (h : Inert (cs.map Char.toUInt8)) :
    Inert (ascii (String.ofList cs)) := by
  rw [ascii, String.toList_ofList]
  exact h

lemma inert_escapeByte (ch : UInt8) : Inert (escapeByte ch) := by
  unfold escapeByte
  split
  · exact inert_ofList _ (by decide)
  · split
    · exact inert_ofList _ (by decide)
    · split
      · exact inert_ofList _ (by decide)
      next hl hg => exact ⟨by simpa using Ne.symm hl, by simpa using Ne.symm hg⟩

lemma inert_compactLabel (tu : ChatTurn) : Inert (compactLabel tu) := by
  unfold compactLabel
  split
  · exact inert_ofList _ (by decide)
  · split
    · exact inert_ofList _ (by decide)
    · cases tu.role <;> exact inert_ofList _ (by decide)

lemma inert_compactRecord (tu : ChatTurn) : Inert (compactRecord tu) := by
  have ho : Inert (ascii "- ") := inert_ofList _ (by decide)
  have hc : Inert (ascii ": ") := inert_ofList _ (by decide)
  have he : Inert (ascii "\n") := inert_ofList _ (by decide)
  exact (((ho.append (inert_compactLabel tu)).append hc).append
    (inert_flatMap fun ch _ => inert_escapeByte ch)).append he

lemma inert_decimal (n : Nat) : Inert (decimal n) := by
  refine ⟨fun h => ?_, fun h => ?_⟩
  · exact absurd (isDigit_of_mem_decimal h) (by decide)
  · exact absurd (isDigit_of_mem_decimal h) (by decide)

set_option maxRecDepth 10000 in
lemma inert_toolHistoryPolicy (ts : Bool) : Inert (toolHistoryPolicy ts) := by
  refine inert_flatMap fun text ht => ?_
  cases ts with
  | true =>
    simp only [if_true, mem_cons, mem_append, not_mem_nil, or_false] at ht
    rcases ht with (rfl | rfl | rfl | rfl) | rfl | rfl
    all_goals exact inert_ofList _ (by decide +kernel)
  | false =>
    simp only [Bool.false_eq_true, if_false, mem_cons, mem_append, not_mem_nil, or_false] at ht
    rcases ht with (rfl | rfl | rfl | rfl) | rfl | rfl | rfl
    all_goals exact inert_ofList _ (by decide +kernel)

variable (turns : List ChatTurn)

lemma inert_records : Inert (turns.flatMap compactRecord) :=
  inert_flatMap fun tu _ => inert_compactRecord tu

lemma inert_ite {c : Prop} [Decidable c] {a b : Bytes} (ha : Inert a) (hb : Inert b) :
    Inert (if c then a else b) := by
  split
  · exact ha
  · exact hb

lemma inert_compactSections (ts : Bool) : Inert (compactSections turns ts) := by
  have he : Inert [] := by decide
  unfold compactSections
  refine .append (.append (.append (.append (.append (.append (.append (.append (.append ?_ ?_)
    (inert_decimal _)) ?_) (inert_ite (inert_toolHistoryPolicy ts) he)) ?_)
    (inert_records _)) (inert_ite he (.append ?_ (inert_records _)))) ?_) (inert_records _)
  all_goals exact inert_ofList _ (by decide)

lemma inert_summaryText (ts : Bool) : Inert (summaryText turns ts) := by
  have hsect := inert_compactSections turns ts
  unfold summaryText buildCompactContextState
  refine .append (inert_ofList _ (by decide)) ?_
  exact inert_ite hsect (.append (hsect.take _) (inert_ofList _ (by decide)))

lemma pairwise_exchangeStarts (history : List EncodedTurn) :
    (exchangeStarts history).Pairwise (· < ·) := by
  unfold exchangeStarts
  rw [pairwise_cons]
  refine ⟨fun p h => ?_, ?_⟩
  · have := (mem_filter.1 h).2
    simp only [ne_eq, Bool.and_eq_true, decide_eq_true_eq] at this
    omega
  · exact List.Pairwise.filter _ pairwise_lt_range

variable {history : List EncodedTurn}

lemma mem_exchangeStarts {p : Nat} : p ∈ exchangeStarts history ↔
    p = 0 ∨ ∃ i, history[p]? = some i ∧ opensExchange i ∧
    p ≠ 0 := by
  unfold exchangeStarts
  rw [mem_cons, mem_filter, mem_range]
  refine or_congr Iff.rfl ⟨fun h => ?_, fun h => ?_⟩
  · obtain ⟨hl, h⟩ := h
    rw [List.getElem?_eq_getElem hl] at h ⊢
    simp only [ne_eq, map_some, getD_some, Bool.and_eq_true, decide_eq_true_eq] at h
    exact ⟨_, rfl, h.2, h.1⟩
  · obtain ⟨i, hi, ho, hn⟩ := h
    obtain ⟨hl, _⟩ := List.getElem?_eq_some_iff.1 hi
    refine ⟨hl, ?_⟩
    rw [hi]
    simp [ho, hn]

variable {exchange : Nat}

lemma startOf_mem {starts : List Nat} (h : exchange < starts.length) :
    startOf starts exchange ∈ starts := by
  rw [startOf, getD_eq_getElem _ _ h]
  exact getElem_mem h

lemma startOf_lt {i j : Nat} (hi : i < j) (hj : j < (exchangeStarts history).length) :
    startOf (exchangeStarts history) i < startOf (exchangeStarts history) j := by
  rw [startOf, startOf, getD_eq_getElem _ _ (lt_trans hi hj), getD_eq_getElem _ _ hj]
  exact pairwise_iff_getElem.1 (pairwise_exchangeStarts history) i j _ hj hi

lemma startOf_le_length (h : exchange < (exchangeStarts history).length) :
    startOf (exchangeStarts history) exchange ≤ history.length := by
  rcases mem_exchangeStarts.1 (startOf_mem h) with hz | ⟨i, hi, _⟩
  · omega
  · obtain ⟨hl, _⟩ := List.getElem?_eq_some_iff.1 hi
    omega

lemma widen_le (history : List EncodedTurn) (ss : List Nat) (b exchange ts : Nat) :
    widen history ss b exchange ts ≤ exchange := by
  induction exchange generalizing ts with
  | zero => exact le_refl _
  | succ exchange ih =>
    unfold widen
    dsimp only
    split
    · exact le_refl _
    · exact le_succ_of_le (ih _)

lemma shrink_spec (state : Server) (plan : CompactionPlan) (rs exchange : Nat) :
    let final := shrink state plan rs exchange
    exchange ≤ final ∧ final ≤ exchange + rs ∧
      (∀ j, exchange ≤ j → j < final → ¬ Fitting state (plan.assemble j)) ∧
      (final < exchange + rs → Fitting state (plan.assemble final)) := by
  induction rs generalizing exchange with
  | zero =>
    refine ⟨le_refl _, le_refl _, fun j h h' => ?_, fun h => ?_⟩
    · rw [shrink] at h'
      omega
    · rw [shrink] at h
      omega
  | succ rs ih =>
    dsimp only
    unfold shrink
    split
    next hf => exact ⟨le_refl _, by omega, fun j h h' => by omega, fun _ => hf⟩
    next hn =>
      obtain ⟨hl, hb, hp, ha⟩ := ih (exchange + 1)
      refine ⟨by omega, by omega, fun j h h' => ?_, fun h => ha (by omega)⟩
      by_cases hj : j = exchange
      · rw [hj]
        exact hn
      · exact hp j (by omega) h'

structure PlanOf (render : Rendering) (state : Server) (request : ChatRequest)
    (prepared : Prepared) (plan : CompactionPlan) : Prop where
  pinned : plan.pinned = prepared.encoded.filter isSystem
  history : plan.history = prepared.encoded.filter fun item => !isSystem item
  starts : plan.starts = exchangeStarts plan.history
  first : plan.firstExchange ≤ plan.lastExchange
  handed : plan.handed = (plan.history.take (startOf plan.starts plan.firstExchange)).map turn
  summary : ∃ tools turn, encodeChatTurn state.tokenizer state.contextLimit
    ⟨.user, summaryText plan.handed tools, false⟩ = .ok turn ∧ plan.summary = turn.ids
  ack : ∃ turn, encodeChatTurn state.tokenizer state.contextLimit acknowledgement = .ok turn ∧
    plan.ack = turn.ids
  assistantPrefix : plan.assistantPrefix = prepared.assistantPrefix

lemma orTooLong_eq_ok {α : Type} {x : Except Status α} {a : α} :
    orTooLong x = .ok a ↔ x = .ok a := by
  cases x <;> simp [orTooLong]

variable {state : Server} {prepared : Prepared}
  {render : Rendering} {request : ChatRequest} {plan : CompactionPlan}

lemma compactionPlan_eq_some (h : compactionPlan render state request prepared = .ok (some plan)) :
    PlanOf render state request prepared plan := by
  unfold compactionPlan at h
  split at h
  · cases pure_eq_ok.1 h
  · dsimp only at h
    split at h
    · cases pure_eq_ok.1 h
    · split at h
      · cases pure_eq_ok.1 h
      · obtain ⟨ts, _, h⟩ := bind_eq_ok.1 h
        obtain ⟨summary, hsummary, h⟩ := bind_eq_ok.1 h
        obtain ⟨ack, ha, h⟩ := bind_eq_ok.1 h
        obtain rfl := some.inj (pure_eq_ok.1 h)
        exact ⟨rfl, rfl, rfl, widen_le .., rfl, ⟨ts, summary, orTooLong_eq_ok.1 hsummary, rfl⟩,
          ⟨ack, orTooLong_eq_ok.1 ha, rfl⟩, rfl⟩

section
variable {render : Rendering} {state : Server} {request : ChatRequest} {prepared : Prepared}
  {plan : CompactionPlan} {exchange : Nat}

section
variable (h : PlanOf render state request prepared plan)
include h

lemma PlanOf.lt_length (hl : exchange ≤ plan.lastExchange) :
    exchange < (exchangeStarts plan.history).length := by
  rw [CompactionPlan.lastExchange, h.starts] at hl
  have hp : 0 < (exchangeStarts plan.history).length := succ_pos _
  omega

lemma PlanOf.length_kept (hl : exchange ≤ plan.lastExchange) :
    startOf plan.starts exchange + (plan.kept exchange).length = plan.history.length := by
  have hst := startOf_le_length (h.lt_length hl)
  rw [← h.starts] at hst
  rw [CompactionPlan.kept, length_drop]
  omega

lemma PlanOf.length_handed : plan.handed.length = startOf plan.starts plan.firstExchange := by
  have hst := startOf_le_length (h.lt_length h.first)
  rw [← h.starts] at hst
  rw [h.handed, length_map, length_take]
  omega

/-- The turns of the summary and the kept ones are all of the history exactly when the kept part
still is the one that the summary was built beside. -/
lemma PlanOf.partition_iff (hf : plan.firstExchange ≤ exchange)
    (hla : exchange ≤ plan.lastExchange) :
    plan.handed ++ (plan.kept exchange).map turn =
    plan.history.map turn ↔ exchange = plan.firstExchange := by
  constructor
  · intro he
    have hl := congrArg length he
    rw [length_append, length_map, length_map, h.length_handed] at hl
    have hke := h.length_kept hla
    rcases eq_or_lt_of_le hf with hs | hlt
    · exact hs.symm
    · have hless := startOf_lt hlt (h.lt_length hla)
      rw [← h.starts] at hless
      omega
  · rintro rfl
    rw [h.handed, CompactionPlan.kept, ← map_append, take_append_drop]

lemma PlanOf.starts_at_exchange (hl : exchange ≤ plan.lastExchange) :
    ∃ p, plan.kept exchange = plan.history.drop p ∧
    (p = 0 ∨ ∃ i, plan.history[p]? = some i ∧ opensExchange i) := by
  refine ⟨startOf plan.starts exchange, rfl, ?_⟩
  have hm := startOf_mem (h.lt_length hl)
  rw [← h.starts] at hm
  rw [h.starts] at hm ⊢
  rcases mem_exchangeStarts.1 hm with hz | ⟨i, hi, ho, _⟩
  · exact .inl hz
  · exact .inr ⟨i, hi, ho⟩

lemma PlanOf.keeps_latest (hla : exchange ≤ plan.lastExchange) {position : Nat}
    (hl : ∀ l i, position < l → plan.history[l]? = some i →
    opensExchange i = false) : plan.history.drop position <:+ plan.kept exchange := by
  have hm := startOf_mem (h.lt_length hla)
  have hle : startOf plan.starts exchange ≤ position := by
    rw [h.starts]
    rcases mem_exchangeStarts.1 hm with hz | ⟨o, ho, hop, _⟩
    · omega
    · by_contra hlt
      have hcl := hl _ o (by omega) ho
      rw [hop] at hcl
      cases hcl
  rw [CompactionPlan.kept]
  have hd : plan.history.drop position = (plan.history.drop (startOf plan.starts exchange)).drop
        (position - startOf plan.starts exchange) := by
    rw [drop_drop]
    congr 1
    omega
  rw [hd]
  exact drop_suffix _ _

end

end

/-- What the prompt of a request is to be: all encoded turns, or a compacted prompt that accounts
for every turn. -/
structure LosesNoTurn (state : Server) (prepared : Prepared) (prompt : ChatPrompt) : Prop where
  size : prompt.ids.length ≤ state.contextLimit
  raw : prompt.compaction = none → prompt.ids = idsOf prepared.encoded ++ prepared.assistantPrefix
  compacted : ∀ c, prompt.compaction = some c →
    let history := prepared.encoded.filter fun item => !isSystem item
    prompt.ids.length ≤ activeLimit ∧ (∃ tools summary ack,
        encodeChatTurn state.tokenizer state.contextLimit
          ⟨.user, summaryText c.handed tools, false⟩ = .ok summary ∧
        encodeChatTurn state.tokenizer state.contextLimit acknowledgement = .ok ack ∧
        prompt.ids = idsOf (prepared.encoded.filter isSystem) ++ summary.ids ++ ack.ids ++
          idsOf c.kept ++ prepared.assistantPrefix ∧
        Inert (summaryText c.handed tools)) ∧
      (∃ position, c.kept = history.drop position ∧
        (position = 0 ∨ ∃ item, history[position]? = some item ∧ opensExchange item = true)) ∧
      (∀ position item, history[position]? = some item → opensExchange item = true →
        (∀ later item, position < later → history[later]? = some item →
          opensExchange item = false) → history.drop position <:+ c.kept) ∧
      c.handed ++ c.kept.map turn = history.map turn ∧
      c.handed.length + c.kept.length = history.length

/-- The prompt with every exchange that the budget for recent history keeps fits, or none of the
shorter ones does either (and the raw prompt is used). -/
def KeptExchangesFit (render : Rendering) (state : Server) (request : ChatRequest)
    (prepared : Prepared) : Prop :=
  ∀ plan, compactionPlan render state request prepared = .ok (some plan) →
    Fitting state (plan.assemble plan.firstExchange) ∨
      ∀ exchange, plan.firstExchange ≤ exchange → exchange ≤ plan.lastExchange →
        ¬ Fitting state (plan.assemble exchange)

lemma emitRaw_losesNoTurn {prompt : ChatPrompt} (h : emitRaw state prepared = .ok prompt) :
    LosesNoTurn state prepared prompt := by
  obtain ⟨hs, h⟩ := refuse_eq_ok.1 h
  obtain rfl := pure_eq_ok.1 h
  simp only [not_or, not_lt] at hs
  exact ⟨hs.2, fun _ => rfl, fun c hc => by cases hc⟩

lemma assembled_losesNoTurn_iff (hpl : PlanOf render state request prepared plan)
    (hfi : plan.firstExchange ≤ exchange) (hla : exchange ≤ plan.lastExchange)
    (hf : Fitting state (plan.assemble exchange)) :
    LosesNoTurn state prepared ⟨plan.assemble exchange, prepared.sessionSuffix,
    prepared.rawTokens, some ⟨plan.handed, plan.kept exchange⟩⟩ ↔
    exchange = plan.firstExchange := by
  rw [← hpl.partition_iff hfi hla]
  constructor
  · intro h
    obtain ⟨_, _, _, _, hp, _⟩ := h.compacted _ rfl
    rw [hpl.history]
    exact hp
  · intro hp
    have hco := congrArg length hp
    rw [length_append, length_map, length_map] at hco
    obtain ⟨ts, summary, hsummary, hi⟩ := hpl.summary
    obtain ⟨ack, hac, ha⟩ := hpl.ack
    refine ⟨hf.2, nofun, ?_⟩
    rintro c ⟨⟩
    rw [← hpl.history]
    refine ⟨hf.1, ⟨ts, summary, ack, hsummary, hac, ?_, inert_summaryText _ _⟩,
      hpl.starts_at_exchange hla, ?_, hp, hco⟩
    · rw [CompactionPlan.assemble, hpl.pinned, hi, ha, hpl.assistantPrefix]
    · intro p _ _ _ hl
      exact hpl.keeps_latest hla hl

/-- The governor loses no turn exactly when the exchanges it keeps first fit beside their
summary. -/
theorem governor_loses_no_turn_iff (render : Rendering) (state : Server) (request : ChatRequest)
    (prepared : Prepared) (prompt : ChatPrompt)
    (hprepared : prepareTurns render state request = .ok prepared)
    (h : makeChatIds render state request = .ok prompt) :
    LosesNoTurn state prepared prompt ↔ KeptExchangesFit render state request prepared := by
  obtain ⟨p', hs, h⟩ := bind_eq_ok.1 h
  cases hprepared.symm.trans hs
  obtain ⟨plan, hpl, h⟩ := bind_eq_ok.1 h
  cases plan with
  | none =>
    refine ⟨fun _ plan hso => ?_, fun _ => emitRaw_losesNoTurn h⟩
    rw [hpl] at hso
    cases Except.ok.inj hso
  | some plan =>
    have hof := compactionPlan_eq_some hpl
    have hfi := hof.first
    obtain ⟨hl, hb, hp, ha⟩ := shrink_spec state plan
      (plan.lastExchange - plan.firstExchange) plan.firstExchange
    unfold emitPrompt at h
    dsimp only at h
    change plan.firstExchange ≤ finalExchange state plan at hl
    change finalExchange state plan ≤ _ at hb
    have hla : finalExchange state plan ≤ plan.lastExchange := by omega
    have hon : KeptExchangesFit render state request prepared ↔
        (Fitting state (plan.assemble plan.firstExchange) ∨
          ∀ exchange, plan.firstExchange ≤ exchange → exchange ≤ plan.lastExchange →
            ¬ Fitting state (plan.assemble exchange)) := by
      constructor
      · intro hk
        exact hk plan hpl
      · intro hk o ho
        rw [hpl] at ho
        cases Option.some.inj (Except.ok.inj ho)
        exact hk
    rw [hon]
    split at h
    next hf =>
      cases h
      rw [assembled_losesNoTurn_iff hof hl hla hf]
      constructor
      · intro hs
        rw [hs] at hf
        exact .inl hf
      · rintro (hk | hno)
        · -- a fitting first choice stops the loop at once
          by_contra hne
          exact hp plan.firstExchange (le_refl _) (Nat.lt_of_le_of_ne hl (Ne.symm hne)) hk
        · exact absurd hf (hno _ hl hla)
    next hn =>
      refine ⟨fun _ => .inr fun exchange hg hle' => ?_, fun _ => emitRaw_losesNoTurn h⟩
      by_cases hlt : exchange < finalExchange state plan
      · exact hp exchange hg hlt
      · have hen : ¬ finalExchange state plan <
            plan.firstExchange + (plan.lastExchange - plan.firstExchange) :=
          fun hl' => hn (ha hl')
        have he : exchange = finalExchange state plan := by omega
        rw [he]
        exact hn

/-- A reader of plain string messages without tools and without reasoning. -/
def plainRendering : Rendering where
  dumps := fun _ => []
  parse := fun _ => none
  resolveNoThink := fun _ => .ok true
  normalizeTools := fun _ _ => .ok []
  reasoningInstruction := fun _ => []
  toolsPrompt := fun _ _ => []

def plainMessage (role content : String) : Ajson :=
  .obj [(ascii "role", .str (ascii role)), (ascii "content", .str (ascii content))]

def plainRequest (messages : List Ajson) : ChatRequest :=
  ⟨.obj [(ascii "messages", .arr messages)], false, none⟩

def threeTexts (old middle summary : List Token) : Tokenizer where
  encode := fun text => .ok
    (if ascii "user\nold" <+: text then old
      else if ascii "user\nmiddle" <+: text then middle
      else if ascii "user\n[Contesto" <+: text then summary
      else [4])
  piece := fun _ => some []
  imStart := 2
  imEnd := 3

def threeExchanges : ChatRequest :=
  plainRequest [plainMessage "user" "old", plainMessage "assistant" "a",
    plainMessage "user" "middle", plainMessage "assistant" "b", plainMessage "user" "new"]

def smallWindow (tokenizer : Tokenizer) : Server := ⟨tokenizer, true, 1048576, 1000⟩

lemma field_role (ro co : String) :
    (plainMessage ro co).field "role" = some (.str (ascii ro)) := rfl

lemma field_content (ro co : String) :
    (plainMessage ro co).field "content" = some (.str (ascii co)) := rfl

lemma messageContentText_str (render : Rendering) (s : Bytes) :
    messageContentText render (.str s) = s := by
  rw [messageContentText]

lemma messageContentText_nil (render : Rendering) : messageContentText render (.arr []) = [] := by
  rw [messageContentText]
  rfl

lemma appendMessage_user (pt : Bool) (co : String) :
    appendMessage plainRendering turns pt (plainMessage "user" co) =
    .ok (turns ++ [⟨.user, ascii co, ascii "<tool_response>" <:+: ascii co⟩],
    false) := by
  unfold appendMessage
  rw [field_role, field_content]
  dsimp only
  rw [messageContentText_str]
  rfl

lemma appendMessage_assistant (pt : Bool) (content : String)
    (hp : ¬ ascii "<think>" <+: ascii content) :
    appendMessage plainRendering turns pt (plainMessage "assistant" content) =
    .ok (turns ++ [⟨.assistant, kNoThinkingPrefix ++ ascii content, false⟩], false) := by
  have ht : assistantText plainRendering (plainMessage "assistant" content) =
      kNoThinkingPrefix ++ ascii content := by
    have hh : assistantHistoryPrefix plainRendering (plainMessage "assistant" content) =
        kNoThinkingPrefix := by
      unfold assistantHistoryPrefix
      change (if ascii "<think>" <+: contentText plainRendering (some (.str (ascii content)))
        then _ else _) = _
      rw [contentText, messageContentText_str, if_neg hp]
    unfold assistantText
    rw [hh, field_content, contentText, messageContentText_str]
    rfl
  unfold appendMessage
  rw [field_role, ht]
  rfl

def threeTurns : List ChatTurn :=
  [⟨.user, ascii "old", false⟩, ⟨.assistant, kNoThinkingPrefix ++ ascii "a", false⟩,
    ⟨.user, ascii "middle", false⟩, ⟨.assistant, kNoThinkingPrefix ++ ascii "b", false⟩,
    ⟨.user, ascii "new", false⟩]

lemma chatTurns_threeExchanges : chatTurns plainRendering threeExchanges.payload
    [plainMessage "user" "old", plainMessage "assistant" "a", plainMessage "user" "middle",
    plainMessage "assistant" "b", plainMessage "user" "new"] [] true = .ok threeTurns := by
  unfold chatTurns
  change appendMessages plainRendering
    (if messageContentText plainRendering (.arr []) = [] then [] else _) false _ = _
  rw [messageContentText_nil, if_pos rfl]
  change appendMessages plainRendering [] false
    [plainMessage "user" "old", plainMessage "assistant" "a", plainMessage "user" "middle",
      plainMessage "assistant" "b", plainMessage "user" "new"] = _
  rw [appendMessages, appendMessage_user]
  change appendMessages _ _ _ _ = _
  rw [appendMessages, appendMessage_assistant _ _ _ (by decide)]
  change appendMessages _ _ _ _ = _
  rw [appendMessages, appendMessage_user]
  change appendMessages _ _ _ _ = _
  rw [appendMessages, appendMessage_assistant _ _ _ (by decide)]
  change appendMessages _ _ _ _ = _
  rw [appendMessages, appendMessage_user]
  rfl

section
variable {old middle summary : List Token}

def threeEncoded (old middle : List Token) : List EncodedTurn :=
  (threeTurns.zip [old, [4], middle, [4], [4]]).map fun item => ⟨item.1, 2 :: item.2 ++ [3, 4]⟩

def threePrepared (old middle : List Token) : Prepared :=
  ⟨threeTurns, threeEncoded old middle, [2, 4, 4], 260621,
    4 :: idsOf [⟨⟨.user, ascii "new", false⟩, [2, 4, 3, 4]⟩] ++ [2, 4, 4], false⟩

lemma encodeTurns_cons {tokenizer : Tokenizer} {limit rawTokens total : Nat} {turn : ChatTurn}
    {turns : List ChatTurn} {item : EncodedTurn} {items : List EncodedTurn}
    (hit : encodeChatTurn tokenizer limit turn = .ok item)
    (hft : rawTokens + item.ids.length ≤ limit)
    (hre : encodeTurns tokenizer limit turns (rawTokens + item.ids.length) = .ok (items, total)) :
    encodeTurns tokenizer limit (turn :: turns) rawTokens = .ok (item :: items, total) := by
  refine bind_eq_ok.2 ⟨item, orTooLong_eq_ok.2 hit, ?_⟩
  refine refuse_eq_ok.2 ⟨by omega, ?_⟩
  rw [hre]
  rfl

lemma encodeTurns_three (hold : old.length = 260000) (hmiddle : middle.length = 600) :
    encodeTurns (threeTexts old middle summary) 1048576 threeTurns 0 =
    .ok (threeEncoded old middle, 260618) := by
  have hturn : ∀ (turn : ChatTurn) (text : List Token), text.length ≤ 260000 →
      (threeTexts old middle summary).encode
        (cString (turn.role.text ++ ascii "\n" ++ turn.content)) = .ok text →
      encodeChatTurn (threeTexts old middle summary) 1048576 turn =
        .ok ⟨turn, 2 :: text ++ [3, 4]⟩ := fun turn text hl ht =>
    @encodeChatTurn_of_fits _ _ _ _ [4] ht rfl (by omega) (by simp; omega)
  refine encodeTurns_cons (hturn _ old (by omega) rfl) (by simp; omega) ?_
  refine encodeTurns_cons (hturn _ [4] (by simp) rfl) (by simp; omega) ?_
  refine encodeTurns_cons (hturn _ middle (by omega) rfl) (by simp; omega) ?_
  refine encodeTurns_cons (hturn _ [4] (by simp) rfl) (by simp; omega) ?_
  refine encodeTurns_cons (hturn _ [4] (by simp) rfl) (by simp; omega) ?_
  rw [encodeTurns]
  simp [hold, hmiddle]

lemma prepareTurns_threeExchanges (hold : old.length = 260000) (hmiddle : middle.length = 600) :
    prepareTurns plainRendering (smallWindow (threeTexts old middle summary)) threeExchanges =
    .ok (threePrepared old middle) := by
  refine bind_eq_ok.2 ⟨_, rfl, ?_⟩
  refine refuse_eq_ok.2 ⟨by simp [smallWindow, threeTexts, tokenIdInvalid], ?_⟩
  refine bind_eq_ok.2 ⟨true, rfl, ?_⟩
  refine bind_eq_ok.2 ⟨[], rfl, ?_⟩
  refine bind_eq_ok.2 ⟨threeTurns, chatTurns_threeExchanges, ?_⟩
  refine bind_eq_ok.2 ⟨_, encodeTurns_three hold hmiddle, ?_⟩
  refine bind_eq_ok.2 ⟨[2, 4, 4], rfl, ?_⟩
  refine refuse_eq_ok.2 ⟨by simp [Server.historyLimit, smallWindow], ?_⟩
  rfl

def threePlan (old middle summary : List Token) : CompactionPlan where
  pinned := []
  history := threeEncoded old middle
  starts := [0, 2, 4]
  firstExchange := 1
  handed := threeTurns.take 2
  summary := 2 :: summary ++ [3, 4]
  ack := [2, 4, 3, 4]
  assistantPrefix := [2, 4, 4]

lemma keptFrom_threeExchanges (hold : old.length = 260000) (hmiddle : middle.length = 600) :
    keptFrom (threeEncoded old middle) 250045 = 1 := by
  have hs : exchangeStarts (threeEncoded old middle) = [0, 2, 4] := rfl
  unfold keptFrom
  rw [hs]
  simp [widen, startOf, threeEncoded, threeTurns, idsOf, recentTokens, hold, hmiddle]

lemma encode_summary (tools : Bool) : (threeTexts old middle summary).encode
    (cString (Role.user.text ++ ascii "\n" ++ summaryText turns tools)) = .ok summary := by
  have ht : cString (Role.user.text ++ ascii "\n" ++ summaryText turns tools) =
      (Role.user.text ++ ascii "\n" ++ ascii "[Contesto precedente compatto]\n") ++
        cString (buildCompactContextState turns tools) := by
    rw [summaryText, ← append_assoc, cString_append (by decide)]
  rw [ht]
  generalize cString (buildCompactContextState turns tools) = rest
  rfl

section
variable (hold : old.length = 260000) (hmiddle : middle.length = 600)
  (hsummary : summary.length = 600)
include hold hmiddle hsummary

lemma compactionPlan_threeExchanges :
    compactionPlan plainRendering (smallWindow (threeTexts old middle summary)) threeExchanges
    (threePrepared old middle) = .ok (some (threePlan old middle summary)) := by
  have hp : (threePrepared old middle).encoded.filter isSystem = [] := rfl
  have hhi : (threePrepared old middle).encoded.filter (fun i => !isSystem i) =
      threeEncoded old middle := rfl
  have hs : exchangeStarts (threeEncoded old middle) = [0, 2, 4] := rfl
  have hk : keptFrom (threeEncoded old middle) (activeLimit -
      ((idsOf []).length + (threePrepared old middle).assistantPrefix.length)) = 1 :=
    keptFrom_threeExchanges hold hmiddle
  have hh : ((threeEncoded old middle).take (startOf [0, 2, 4] 1)).map turn =
      threeTurns.take 2 := rfl
  have hsu : encodeChatTurn (threeTexts old middle summary) 1000
      ⟨.user, summaryText (threeTurns.take 2) false, false⟩ =
      .ok ⟨⟨.user, summaryText (threeTurns.take 2) false, false⟩, 2 :: summary ++ [3, 4]⟩ :=
    @encodeChatTurn_of_fits _ _ _ summary [4] (encode_summary _ _) rfl (by omega) (by simp; omega)
  unfold compactionPlan
  rw [if_neg (by simp [smallWindow, threePrepared, activeLimit, threeEncoded, threeTurns,
    compactionBoundary, maxOutputReserve, compactionBuffer]), hp, hhi]
  dsimp only
  rw [if_neg (by simp [threePrepared, activeLimit, threeEncoded, threeTurns, idsOf,
    compactionBoundary, maxOutputReserve, compactionBuffer]), hs]
  rw [hk, hh, if_neg (by simp [threeTurns])]
  refine bind_eq_ok.2 ⟨false, rfl, ?_⟩
  dsimp only [smallWindow]
  rw [hsu]
  rfl

/-- The second loop drops the middle exchange, which is not part of the summary either. -/
lemma makeChatIds_threeExchanges :
    makeChatIds plainRendering (smallWindow (threeTexts old middle summary)) threeExchanges =
    .ok ⟨(threePlan old middle summary).assemble 2, (threePrepared old middle).sessionSuffix,
    260621, some ⟨threeTurns.take 2, (threeEncoded old middle).drop 4⟩⟩ := by
  have hl : ¬ Fitting (smallWindow (threeTexts old middle summary))
      ((threePlan old middle summary).assemble 1) := by
    simp [Fitting, smallWindow, CompactionPlan.assemble, CompactionPlan.kept, threePlan, startOf,
      threeEncoded, threeTurns, idsOf, hmiddle, hsummary]
  have hs : Fitting (smallWindow (threeTexts old middle summary))
      ((threePlan old middle summary).assemble 2) := by
    simp [Fitting, smallWindow, CompactionPlan.assemble, CompactionPlan.kept, threePlan, startOf,
      threeEncoded, threeTurns, idsOf, hsummary, activeLimit, compactionBoundary,
      maxOutputReserve, compactionBuffer]
  have hf : finalExchange (smallWindow (threeTexts old middle summary))
      (threePlan old middle summary) = 2 := by
    change shrink _ _ 1 1 = 2
    rw [shrink, if_neg hl]
    rfl
  refine bind_eq_ok.2 ⟨_, prepareTurns_threeExchanges hold hmiddle, ?_⟩
  refine bind_eq_ok.2 ⟨_, compactionPlan_threeExchanges hold hmiddle hsummary, ?_⟩
  unfold emitPrompt
  dsimp only
  rw [hf, if_pos hs]
  rfl

end

lemma not_losesNoTurn_threeExchanges :
    ¬ LosesNoTurn (smallWindow (threeTexts old middle summary)) (threePrepared old middle)
    ⟨(threePlan old middle summary).assemble 2, (threePrepared old middle).sessionSuffix,
    260621, some ⟨threeTurns.take 2, (threeEncoded old middle).drop 4⟩⟩ := by
  intro h
  obtain ⟨_, _, _, _, _, hc⟩ := h.compacted _ rfl
  change 2 + 1 = 5 at hc
  omega

end

/-- With a request window of 1000 tokens: the summary stands for two of the five turns and one is
kept, so two are lost. -/
theorem dropped_exchange_is_lost :
    let old : List Token := List.replicate 260000 1
    let middle : List Token := List.replicate 600 5
    let summary : List Token := List.replicate 600 6
    ∃ prompt, makeChatIds plainRendering (smallWindow (threeTexts old middle summary))
        threeExchanges = .ok prompt ∧
      prepareTurns plainRendering (smallWindow (threeTexts old middle summary)) threeExchanges =
        .ok (threePrepared old middle) ∧
      ¬ LosesNoTurn (smallWindow (threeTexts old middle summary)) (threePrepared old middle)
        prompt := by
  intro old middle summary
  have hold : old.length = 260000 := length_replicate
  have hmiddle : middle.length = 600 := length_replicate
  have hsummary : summary.length = 600 := length_replicate
  exact ⟨_, makeChatIds_threeExchanges hold hmiddle hsummary,
    prepareTurns_threeExchanges hold hmiddle, not_losesNoTurn_threeExchanges⟩

/-- There the exchanges kept first do not fit beside the summary. -/
theorem governor_loses_no_turn_iff_threeExchanges :
    let old : List Token := List.replicate 260000 1
    let middle : List Token := List.replicate 600 5
    let summary : List Token := List.replicate 600 6
    ¬ KeptExchangesFit plainRendering (smallWindow (threeTexts old middle summary))
      threeExchanges (threePrepared old middle) := by
  intro old middle summary hk
  have hold : old.length = 260000 := length_replicate
  have hmiddle : middle.length = 600 := length_replicate
  have hsummary : summary.length = 600 := length_replicate
  exact not_losesNoTurn_threeExchanges
    ((governor_loses_no_turn_iff _ _ _ _ _ (prepareTurns_threeExchanges hold hmiddle)
      (makeChatIds_threeExchanges hold hmiddle hsummary)).2 hk)

end AxiomKernel.Qwen38.Api
