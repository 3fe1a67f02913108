import Mathlib.Data.Nat.Find
import AxiomKernel.Device
import AxiomKernel.Lib.Machine
import AxiomKernel.Lib.Guard

/-! The visible-output budget of a generation (`tools/axiom_qwen38_api.cpp`): the allowance is
taken before a scalar step or a speculative batch is scheduled, so a batch must leave room for the
reasoning marker closing at its first token. -/
namespace AxiomKernel.Qwen38.Api

open Guard List Machine Option Nat

def tokenIdInvalid : Token := 0xffffffff

/-- `generation_output_budget`. The two counters are 32-bit words. -/
structure OutputBudget where
  reasoningEndMarker : List Token := []
  visibleLimit : UInt32 := 0
  visibleCount : UInt32 := 0
  reasoningEnded : Bool := false
  deriving DecidableEq, Repr

namespace OutputBudget

def allowance (budget : OutputBudget) (remaining : UInt32) : UInt32 :=
  if budget.reasoningEndMarker = [] then remaining
  else if budget.reasoningEnded then
    min remaining (if budget.visibleLimit ≤ budget.visibleCount then 0
        else budget.visibleLimit - budget.visibleCount)
  else
    -- The next token could close reasoning; the sum is a 64-bit one.
    UInt32.ofNat (min remaining.toNat (budget.visibleLimit.toNat + 1))

def observe (budget : OutputBudget) (ids : List Token) : OutputBudget :=
  if budget.reasoningEndMarker = [] then budget
  else if budget.reasoningEnded then { budget with visibleCount := budget.visibleCount + 1 }
  else if budget.reasoningEndMarker <:+ ids then { budget with reasoningEnded := true }
  else budget

end OutputBudget

/-- What a generation has produced, with the budget of its sink when it has one. -/
structure Generation where
  ids : List Token := []
  budget : Option OutputBudget := none
  deriving DecidableEq, Repr

variable (result : Generation)

variable (maxNew : UInt32)

def generationTokensRemaining : UInt32 :=
  if maxNew.toNat ≤ result.ids.length then 0
  else
    let remaining := maxNew - UInt32.ofNat result.ids.length
    match result.budget with
    | some budget => budget.allowance remaining
    | none => remaining

/-- The part of `append_generated_token` that changes the result: the token is pushed and the
budget observes it. -/
def appendToken (token : Token) : Generation :=
  let ids := result.ids ++ [token]
  ⟨ids, result.budget.map fun budget => budget.observe ids⟩

def commitBatch (batch : List Token) : Generation × Unit := (batch.foldl appendToken result, ())

def Fits (result : Generation) (batch : List Token) : Prop :=
  batch.length ≤ (generationTokensRemaining result maxNew).toNat

instance (maxNew : UInt32) (result : Generation) (batch : List Token) :
    Decidable (Fits maxNew result batch) :=
  inferInstanceAs (Decidable (_ ≤ _))

def findFirstTokenSequence (ids needle : List Token) : Option Nat :=
  if needle = [] ∨ ids.length < needle.length then none
  else (List.range (ids.length - needle.length + 1)).find? fun start => needle <+: ids.drop start

/-- The tokens after the first occurrence of the marker; none while it is not complete. -/
def visibleTokens (marker ids : List Token) : Nat :=
  match findFirstTokenSequence ids marker with
  | some start => ids.length - (start + marker.length)
  | none => 0

section
variable {marker ids : List Token} {k : Nat}

section
variable (hne : marker ≠ [])
include hne

lemma occurs_bound (h : marker <+: ids.drop k) : k + marker.length ≤ ids.length := by
  have hl := h.length_le
  have hp : 0 < marker.length := length_pos_of_ne_nil hne
  rw [length_drop] at hl
  omega

lemma findFirst_eq_some_iff : findFirstTokenSequence ids marker = some k ↔
    marker <+: ids.drop k ∧ ∀ j < k, ¬ marker <+: ids.drop j := by
  unfold findFirstTokenSequence
  split
  next hs =>
    constructor
    · intro h
      cases h
    · rintro ⟨h, _⟩
      have hbo := occurs_bound hne h
      rcases hs with hn | hlt
      · exact absurd hn hne
      · omega
  next hl =>
    rw [find?_range_eq_some]
    constructor
    · rintro ⟨h, _, hf⟩
      exact ⟨by simpa using h, fun j hj => by simpa using hf j hj⟩
    · rintro ⟨h, hf⟩
      have hbo := occurs_bound hne h
      exact ⟨by simpa using h, by rw [mem_range]; omega, fun j hj => by simpa using hf j hj⟩

lemma findFirst_eq_none_iff :
    findFirstTokenSequence ids marker = none ↔ ∀ k, ¬ marker <+: ids.drop k := by
  constructor
  · intro h k hk
    -- the least occurrence would have been found
    classical
    have hex : ∃ k, marker <+: ids.drop k := ⟨k, hk⟩
    have hfo := (findFirst_eq_some_iff hne).2 ⟨Nat.find_spec hex, fun j hj => Nat.find_min hex hj⟩
    rw [h] at hfo
    cases hfo
  · intro h
    cases hf : findFirstTokenSequence ids marker with
    | none => rfl
    | some k => exact absurd ((findFirst_eq_some_iff hne).1 hf).1 (h k)

variable (token : Token)

lemma occurs_append_singleton (k : Nat) :
    marker <+: (ids ++ [token]).drop k ↔ marker <+: ids.drop k ∨
    (k + marker.length = ids.length + 1 ∧ marker <:+ ids ++ [token]) := by
  constructor
  · intro h
    have hbo := occurs_bound hne h
    rw [length_append, length_singleton] at hbo
    by_cases hla : k + marker.length = ids.length + 1
    · refine .inr ⟨hla, ?_⟩
      have heq : marker = (ids ++ [token]).drop k := by
        apply h.eq_of_length
        rw [length_drop, length_append, length_singleton]
        omega
      rw [heq]
      exact drop_suffix k _
    · left
      have hk : k ≤ ids.length := by omega
      rw [drop_append_of_le_length hk, prefix_concat_iff] at h
      rcases h with h | h
      · have hl := congrArg length h
        rw [length_append, length_drop, length_singleton] at hl
        omega
      · exact h
  · rintro (h | ⟨hla, h⟩)
    · have hbo := occurs_bound hne h
      rw [drop_append_of_le_length (by omega)]
      exact h.trans (prefix_append _ _)
    · have heq := suffix_iff_eq_drop.1 h
      rw [length_append, length_singleton] at heq
      have hk : ids.length + 1 - marker.length = k := by omega
      rw [hk] at heq
      rw [← heq]

lemma findFirst_append_of_some (h : findFirstTokenSequence ids marker = some k) :
    findFirstTokenSequence (ids ++ [token]) marker = some k := by
  rw [findFirst_eq_some_iff hne] at h ⊢
  have hbo := occurs_bound hne h.1
  refine ⟨(occurs_append_singleton hne token k).2 (.inl h.1), fun j hj ho => ?_⟩
  rcases (occurs_append_singleton hne token j).1 ho with hl | ⟨hla, _⟩
  · exact h.2 j hj hl
  · omega

section
variable (token : Token) (h : findFirstTokenSequence ids marker = none)
include h

lemma findFirst_append_of_closes (hc : marker <:+ ids ++ [token]) :
    findFirstTokenSequence (ids ++ [token]) marker = some (ids.length + 1 - marker.length) := by
  rw [findFirst_eq_none_iff hne] at h
  rw [findFirst_eq_some_iff hne]
  have hl := hc.length_le
  rw [length_append, length_singleton] at hl
  refine ⟨(occurs_append_singleton hne token _).2 (.inr ⟨by omega, hc⟩), ?_⟩
  intro j hj ho
  rcases (occurs_append_singleton hne token j).1 ho with hol | ⟨hla, _⟩
  · exact h j hol
  · omega

lemma findFirst_append_of_open (hop : ¬ marker <:+ ids ++ [token]) :
    findFirstTokenSequence (ids ++ [token]) marker = none := by
  rw [findFirst_eq_none_iff hne] at h ⊢
  intro k ho
  rcases (occurs_append_singleton hne token k).1 ho with hl | ⟨_, hc⟩
  · exact h k hl
  · exact hop hc

end

end

end

structure Counted (budget : OutputBudget) (ids : List Token) : Prop where
  marked : budget.reasoningEndMarker ≠ []
  ended : budget.reasoningEnded = (findFirstTokenSequence ids budget.reasoningEndMarker).isSome
  count : budget.visibleCount.toNat = visibleTokens budget.reasoningEndMarker ids

/-- The visible tokens that `more` further ones can at most lead to stay within the limit. While
the marker is open its last token is not a visible one. -/
def Room (budget : OutputBudget) (more : Nat) : Prop :=
  if budget.reasoningEnded then budget.visibleCount.toNat + more ≤ budget.visibleLimit.toNat
  else more ≤ budget.visibleLimit.toNat + 1

variable {marker ids : List Token}

lemma visibleTokens_of_none (h : findFirstTokenSequence ids marker = none) :
    visibleTokens marker ids = 0 := by
  rw [visibleTokens, h]

lemma visibleTokens_of_some {start : Nat} (h : findFirstTokenSequence ids marker = some start) :
    visibleTokens marker ids = ids.length - (start + marker.length) := by
  rw [visibleTokens, h]

lemma counted_new (marker : List Token) (hne : marker ≠ []) (limit : UInt32) :
    Counted { reasoningEndMarker := marker, visibleLimit := limit } [] := by
  have hn : findFirstTokenSequence [] marker = none := by
    rw [findFirst_eq_none_iff hne]
    intro k h
    have hbo := occurs_bound hne h
    have hp : 0 < marker.length := length_pos_of_ne_nil hne
    rw [length_nil] at hbo
    omega
  exact ⟨hne, by rw [hn]; rfl, by rw [visibleTokens_of_none hn]; rfl⟩

variable (b : OutputBudget)

@[simp] lemma observe_marker (ids : List Token) :
    (b.observe ids).reasoningEndMarker = b.reasoningEndMarker := by
  unfold OutputBudget.observe
  split_ifs <;> rfl

@[simp] lemma observe_limit (ids : List Token) : (b.observe ids).visibleLimit = b.visibleLimit := by
  unfold OutputBudget.observe
  split_ifs <;> rfl

variable {more : Nat} {result : Generation} {limit : UInt32}

lemma observe_step {b : OutputBudget} (token : Token) (hc : Counted b ids)
    (hr : Room b (more + 1)) :
    Counted (b.observe (ids ++ [token])) (ids ++ [token]) ∧
    Room (b.observe (ids ++ [token])) more := by
  obtain ⟨hne, he, hco⟩ := hc
  have hlim := b.visibleLimit.toNat_lt
  unfold OutputBudget.observe
  rw [if_neg hne]
  by_cases ho : b.reasoningEnded = true
  · rw [if_pos ho]
    rw [Room, if_pos ho] at hr
    rw [ho] at he
    obtain ⟨start, hst⟩ := isSome_iff_exists.1 he.symm
    have hbo := occurs_bound hne ((findFirst_eq_some_iff hne).1 hst).1
    have hnew := findFirst_append_of_some hne token hst
    rw [visibleTokens_of_some hst] at hco
    have hs : (b.visibleCount + 1).toNat = b.visibleCount.toNat + 1 := by
      rw [UInt32.toNat_add]
      exact mod_eq_of_lt (by simp only [UInt32.toNat_one]; omega)
    refine ⟨⟨hne, ?_, ?_⟩, ?_⟩
    · change b.reasoningEnded = _
      rw [hnew, ho, isSome_some]
    · change (b.visibleCount + 1).toNat = _
      rw [hs, visibleTokens_of_some hnew, length_append, length_singleton]
      omega
    · rw [Room]
      change (if b.reasoningEnded = true then (b.visibleCount + 1).toNat + more ≤ _ else _)
      rw [if_pos ho, hs]
      change _ ≤ b.visibleLimit.toNat
      omega
  · rw [if_neg ho]
    rw [Room, if_neg ho] at hr
    have hn : findFirstTokenSequence ids b.reasoningEndMarker = none := by
      rw [← not_isSome_iff_eq_none, ← he]
      exact ho
    rw [visibleTokens_of_none hn] at hco
    by_cases hcl : b.reasoningEndMarker <:+ ids ++ [token]
    · rw [if_pos hcl]
      have hnew := findFirst_append_of_closes hne token hn hcl
      have hl := hcl.length_le
      rw [length_append, length_singleton] at hl
      refine ⟨⟨hne, ?_, ?_⟩, ?_⟩
      · change true = _
        rw [hnew, isSome_some]
      · change b.visibleCount.toNat = _
        rw [hco, visibleTokens_of_some hnew, length_append, length_singleton]
        omega
      · rw [Room]
        change b.visibleCount.toNat + more ≤ b.visibleLimit.toNat
        omega
    · rw [if_neg hcl]
      have hnew := findFirst_append_of_open hne token hn hcl
      refine ⟨⟨hne, by rw [he, hn, hnew], ?_⟩, ?_⟩
      · rw [hco, visibleTokens_of_none hnew]
      · rw [Room, if_neg ho]
        omega

lemma toNat_min_word (a b : UInt32) : (min a b).toNat = min a.toNat b.toNat := by
  change (if a ≤ b then a else b).toNat = _
  split
  next h =>
    rw [UInt32.le_iff_toNat_le] at h
    omega
  next h =>
    rw [UInt32.le_iff_toNat_le] at h
    omega

lemma room_allowance {b : OutputBudget} (hne : b.reasoningEndMarker ≠ []) (hl : b.reasoningEnded →
    b.visibleCount.toNat ≤ b.visibleLimit.toNat) (re : UInt32) :
    Room b (b.allowance re).toNat := by
  unfold OutputBudget.allowance Room
  rw [if_neg hne]
  have hrem := re.toNat_lt
  split
  next he =>
    have hco := hl he
    rw [toNat_min_word]
    split
    next => simpa using hco
    next =>
      rw [UInt32.toNat_sub_of_le _ _ (UInt32.le_iff_toNat_le.2 hco)]
      omega
  next ho =>
    rw [UInt32.toNat_ofNat_of_lt' (by simp only [UInt32.size]; omega)]
    omega

lemma allowance_le (re : UInt32) : (b.allowance re).toNat ≤ re.toNat := by
  unfold OutputBudget.allowance
  have hrem := re.toNat_lt
  split_ifs
  · exact le_refl _
  · rw [toNat_min_word]
    exact min_le_left _ _
  · rw [toNat_min_word]
    exact min_le_left _ _
  · rw [UInt32.toNat_ofNat_of_lt' (by simp only [UInt32.size]; omega)]
    exact min_le_left _ _

lemma remaining_le (result : Generation) (maxNew : UInt32) :
    (generationTokensRemaining result maxNew).toNat ≤ maxNew.toNat - result.ids.length := by
  unfold generationTokensRemaining
  split
  next => exact zero_le _
  next hl =>
    have hmax := maxNew.toNat_lt
    have hsz : (UInt32.ofNat result.ids.length).toNat = result.ids.length :=
      UInt32.toNat_ofNat_of_lt' (by simp only [UInt32.size]; omega)
    have hs : (maxNew - UInt32.ofNat result.ids.length).toNat =
        maxNew.toNat - result.ids.length := by
      rw [UInt32.toNat_sub_of_le _ _ (UInt32.le_iff_toNat_le.2 (by omega)), hsz]
    rw [← hs]
    cases result.budget with
    | none => exact le_refl _
    | some b => exact allowance_le b _

/-- The invariant of a generation under a marked budget, with `more` tokens still to come. -/
structure Bounded (marker : List Token) (limit maxNew : UInt32) (result : Generation)
    (more : Nat) : Prop where
  size : result.ids.length + more ≤ maxNew.toNat
  within : ∃ budget, result.budget = some budget ∧ budget.reasoningEndMarker = marker ∧
    budget.visibleLimit = limit ∧ Counted budget result.ids ∧ Room budget more

section
variable {marker : List Token} {limit maxNew : UInt32} {result : Generation} {more : Nat}

lemma Bounded.mono {less : Nat} (h : Bounded marker limit maxNew result more) (hle : less ≤ more) :
    Bounded marker limit maxNew result less := by
  obtain ⟨hs, b, hb, hm, hl, hc, hr⟩ := h
  refine ⟨by omega, b, hb, hm, hl, hc, ?_⟩
  rw [Room] at hr ⊢
  split at hr
  · rw [if_pos ‹_›]
    omega
  · rw [if_neg ‹_›]
    omega

lemma bounded_append (token : Token) (h : Bounded marker limit maxNew result (more + 1)) :
    Bounded marker limit maxNew (appendToken result token) more := by
  obtain ⟨hs, b, hb, hm, hl, hc, hr⟩ := h
  have hst := observe_step token hc hr
  refine ⟨?_, b.observe (result.ids ++ [token]), ?_, ?_, ?_, hst⟩
  · change (result.ids ++ [token]).length + more ≤ _
    rw [length_append, length_singleton]
    omega
  · change result.budget.map _ = _
    rw [hb]
    rfl
  · rw [observe_marker, hm]
  · rw [observe_limit, hl]

lemma bounded_foldl (batch : List Token)
    (h : Bounded marker limit maxNew result (batch.length + more)) :
    Bounded marker limit maxNew (batch.foldl appendToken result) more := by
  induction batch generalizing result with
  | nil => simpa using h
  | cons token batch ih =>
    apply ih
    apply bounded_append token
    have he : (token :: batch).length + more = batch.length + more + 1 := by
      rw [length_cons]
      omega
    rwa [he] at h

variable (h : Bounded marker limit maxNew result 0)
include h

lemma bounded_remaining :
    Bounded marker limit maxNew result (generationTokensRemaining result maxNew).toNat := by
  obtain ⟨hs, b, hb, hm, hl, hc, hr⟩ := h
  have hle := remaining_le result maxNew
  refine ⟨by omega, b, hb, hm, hl, hc, ?_⟩
  have hco : b.reasoningEnded = true → b.visibleCount.toNat ≤ b.visibleLimit.toNat := by
    intro he
    rw [Room, if_pos he] at hr
    exact hr
  unfold generationTokensRemaining
  split
  next =>
    rw [Room] at hr ⊢
    exact hr
  next =>
    rw [hb]
    exact room_allowance hc.marked hco _

lemma bounded_commitBatch {batch : List Token} (hf : Fits maxNew result batch) :
    Bounded marker limit maxNew (commitBatch result batch).1 0 :=
  bounded_foldl batch ((bounded_remaining h).mono hf)

omit h

lemma bounded_new (hne : marker ≠ []) : Bounded marker limit maxNew
    { budget := some { reasoningEndMarker := marker, visibleLimit := limit } } 0 := by
  refine ⟨zero_le _, _, rfl, rfl, rfl, counted_new marker hne limit, ?_⟩
  rw [Room]
  exact zero_le _

end

lemma ids_foldl_appendToken (batch : List Token) (result : Generation) :
    (batch.foldl appendToken result).ids = result.ids ++ batch := by
  induction batch generalizing result with
  | nil => simp
  | cons token batch ih =>
    rw [foldl_cons, ih]
    simp [appendToken]

variable {maxNew : UInt32}
  {batch : List Token} {plan : ThinkingPlan} {env : Surroundings} {second : Pass}
  {merged : Merged}

/-- Under any budget, marked or not, the ids stay within `max_new`. -/
lemma size_commitBatch (h : result.ids.length ≤ maxNew.toNat) (hf : Fits maxNew result batch) :
    (commitBatch result batch).1.ids.length ≤ maxNew.toNat := by
  have hle := remaining_le result maxNew
  change (batch.foldl appendToken result).ids.length ≤ _
  rw [ids_foldl_appendToken, length_append]
  rw [Fits] at hf
  omega

lemma ids_run_commitBatch (batches : List (List Token)) (start : Generation) :
    (run commitBatch start batches).ids = start.ids ++ batches.flatten := by
  induction batches generalizing start with
  | nil => simp
  | cons batch batches ih =>
    rw [run_cons, ih]
    change (batch.foldl appendToken start).ids ++ _ = _
    rw [ids_foldl_appendToken, flatten_cons, append_assoc]

open Machine in
def Scheduled (maxNew : UInt32) (start : Generation) (batches : List (List Token)) : Prop :=
  Meets commitBatch (Fits maxNew) start batches

variable {start : Generation} {batches : List (List Token)}

lemma bounded_run (h : Bounded marker limit maxNew start 0) (hr : Scheduled maxNew start batches) :
    Bounded marker limit maxNew (run commitBatch start batches) 0 :=
  run_trace_of_meets (P := fun result _ => Bounded marker limit maxNew result 0)
    (fun _ _ _ hb hf => bounded_commitBatch hb hf) h hr

lemma size_run (h : start.ids.length ≤ maxNew.toNat) (hr : Scheduled maxNew start batches) :
    (run commitBatch start batches).ids.length ≤ maxNew.toNat :=
  run_trace_of_meets (P := fun result _ => result.ids.length ≤ maxNew.toNat)
    (fun _ _ _ hs hf => size_commitBatch hs hf) h hr

/-- One call of `native_generate` as its surroundings see it: the batches it commits, why it
ended, and its return code. -/
structure Pass where
  batches : List (List Token)
  stopped : Bool
  rc : Status
  deriving DecidableEq, Repr

structure ThinkingPlan where
  enabled : Bool
  thinkingBudget : UInt32
  visibleBudget : UInt32
  deriving DecidableEq, Repr

/-- `native_generate`: an empty request is refused, and the result starts empty. -/
def nativeGenerate (maxNew : UInt32) (budget : Option OutputBudget) (pass : Pass) :
    Except Status Generation :=
  if maxNew = 0 then .error .budget
  else if pass.rc ≠ .ok then .error pass.rc
  else .ok (run commitBatch { budget } pass.batches)

/-- What the caller gets: the ids of the first pass and those of the second. -/
structure Merged where
  thinking : Generation
  visible : Option Generation
  deriving DecidableEq, Repr

/-- What the two passes meet outside of them: the token ids of the reasoning-end text, the prompt
of the second pass fitting the context, and the client taking the visible prefix. -/
structure Surroundings where
  hasSink : Bool
  marker : Except Status (List Token)
  earlyStop : Status
  visiblePrefix : Status

def Surroundings.sinkBudget (env : Surroundings) : Option OutputBudget :=
  if env.hasSink then some {} else none

def thinkingBudgetOf (plan : ThinkingPlan) (marker : List Token) : OutputBudget :=
  { reasoningEndMarker := marker, visibleLimit := plan.visibleBudget }

/-- What follows the first pass: nothing, or the visible pass with what is left of the budget. -/
def visiblePass (plan : ThinkingPlan) (env : Surroundings) (thinking : Generation)
    (stopped : Bool) (second : Pass) : Except Status Merged := do
  let output := thinking.budget.getD {}
  if output.reasoningEnded && stopped then return ⟨thinking, none⟩
  refuse (output.reasoningEnded = false ∧ env.earlyStop ≠ .ok) env.earlyStop
  if plan.visibleBudget ≤ output.visibleCount then return ⟨thinking, none⟩
  refuse (env.visiblePrefix ≠ .ok) env.visiblePrefix
  let visible ← nativeGenerate (plan.visibleBudget - output.visibleCount) env.sinkBudget second
  return ⟨thinking, some visible⟩

def nativeGenerateWithThinking (plan : ThinkingPlan) (env : Surroundings) (first second : Pass) :
    Except Status Merged :=
  if plan.enabled then do
    let marker ← env.marker
    refuse (marker = []) .runtime
    let thinking ← nativeGenerate plan.thinkingBudget (some (thinkingBudgetOf plan marker)) first
    visiblePass plan env thinking first.stopped second
  else do
    let visible ← nativeGenerate plan.visibleBudget env.sinkBudget first
    return ⟨{}, some visible⟩

structure BothScheduled (plan : ThinkingPlan) (env : Surroundings) (first second : Pass) :
    Prop where
  plain : plan.enabled = false →
    Scheduled plan.visibleBudget { budget := env.sinkBudget } first.batches
  thinking : ∀ marker, plan.enabled = true → env.marker = .ok marker →
    Scheduled plan.thinkingBudget { budget := some (thinkingBudgetOf plan marker) } first.batches
  visible : ∀ marker, plan.enabled = true → env.marker = .ok marker →
    ∀ output, (run commitBatch { budget := some (thinkingBudgetOf plan marker) }
      first.batches).budget = some output →
    Scheduled (plan.visibleBudget - output.visibleCount) { budget := env.sinkBudget } second.batches

/-- The visible tokens of both passes: those behind the marker in the first, and all of the
second. -/
def Merged.visibleTotal (marker : List Token) (merged : Merged) : Nat :=
  visibleTokens marker merged.thinking.ids +
    (merged.visible.map fun visible => visible.ids.length).getD 0

lemma scheduled_append_part {p : List Token} (hr : Scheduled maxNew start (batches ++ [batch]))
    (hpa : p <+: batch) :
    Scheduled maxNew start (batches ++ [p]) := by
  obtain ⟨hp, hl, _⟩ := meets_append.1 hr
  exact meets_append.2 ⟨hp, le_trans hpa.length_le hl, trivial⟩

lemma Bounded.budget (h : Bounded marker limit maxNew result more) : ∃ b, result.budget = some b ∧
    b.visibleCount.toNat = visibleTokens marker result.ids ∧
    b.visibleCount.toNat ≤ limit.toNat := by
  obtain ⟨_, b, hb, rfl, rfl, hc, hr⟩ := h
  refine ⟨b, hb, hc.count, ?_⟩
  rw [Room] at hr
  split at hr
  · omega
  next ho =>
    -- nothing is visible while the marker is open
    have hn : findFirstTokenSequence result.ids b.reasoningEndMarker = none := by
      rw [← not_isSome_iff_eq_none, ← hc.ended]
      exact ho
    rw [hc.count, visibleTokens_of_none hn]
    exact zero_le _

lemma nativeGenerate_eq_ok {budget : Option OutputBudget} {p : Pass}
    (h : nativeGenerate maxNew budget p = .ok result) :
    result = run commitBatch { budget } p.batches := by
  unfold nativeGenerate at h
  split_ifs at h
  exact (Except.ok.inj h).symm

lemma visiblePass_eq_ok {th : Generation} {st : Bool} {o : OutputBudget} (hb : th.budget = some o)
    (h : visiblePass plan env th st second = .ok merged) : merged = ⟨th, none⟩ ∨
    (o.visibleCount.toNat < plan.visibleBudget.toNat ∧
    merged = ⟨th, some (run commitBatch { budget := env.sinkBudget } second.batches)⟩) := by
  unfold visiblePass at h
  rw [hb, getD_some] at h
  dsimp only at h
  split at h
  · exact .inl (pure_eq_ok.1 h)
  · obtain ⟨_, h⟩ := refuse_eq_ok.1 h
    split at h
    · exact .inl (pure_eq_ok.1 h)
    next hr =>
      obtain ⟨_, h⟩ := refuse_eq_ok.1 h
      obtain ⟨vi, hv, h⟩ := bind_eq_ok.1 h
      rw [UInt32.le_iff_toNat_le] at hr
      refine .inr ⟨by omega, ?_⟩
      rw [← nativeGenerate_eq_ok hv]
      exact pure_eq_ok.1 h

lemma visibleTotal_plain (marker : List Token) (vi : Generation) :
    Merged.visibleTotal marker ⟨{}, some vi⟩ = vi.ids.length := by
  have hn : findFirstTokenSequence [] marker = none := by
    unfold findFirstTokenSequence
    rw [if_pos]
    cases marker with
    | nil => exact .inl rfl
    | cons => exact .inr (succ_pos _)
  simp [Merged.visibleTotal, visibleTokens_of_none hn]

lemma visible_total_le {first : Pass} (hr : BothScheduled plan env first second)
    (h : nativeGenerateWithThinking plan env first second = .ok merged)
    (hm : plan.enabled → env.marker = .ok marker) :
    merged.visibleTotal marker ≤ plan.visibleBudget.toNat := by
  unfold nativeGenerateWithThinking at h
  split at h
  next he =>
    rw [hm he] at h
    obtain ⟨hne, h⟩ := refuse_eq_ok.1 h
    obtain ⟨th, ht, h⟩ := bind_eq_ok.1 h
    have hfi := nativeGenerate_eq_ok ht
    have hbo := bounded_run (bounded_new hne) (hr.thinking marker he (hm he))
    obtain ⟨o, ho, hc, hl⟩ := hbo.budget
    have hvis := hr.visible marker he (hm he) o ho
    rw [thinkingBudgetOf] at hfi
    rw [← hfi] at ho hc
    rcases visiblePass_eq_ok ho h with rfl | ⟨hro, rfl⟩
    · rw [Merged.visibleTotal, ← hc]
      exact hl
    · have hsz := size_run (zero_le _) hvis
      rw [UInt32.toNat_sub_of_le _ _ (UInt32.le_iff_toNat_le.2 hl)] at hsz
      change visibleTokens marker th.ids + _ ≤ _
      rw [← hc]
      change _ + (run commitBatch _ second.batches).ids.length ≤ _
      omega
  next he =>
    obtain ⟨vi, hvis, h⟩ := bind_eq_ok.1 h
    rw [pure_eq_ok.1 h, visibleTotal_plain, nativeGenerate_eq_ok hvis]
    exact size_run (zero_le _) (hr.plain (by simpa using he))

/-- The budget is kept after every token of every run, and over both passes. A batch may end
anywhere, so the state inside a batch is the state after a part of it. -/
theorem visible_output_budget :
    (∀ (marker : List Token) (limit maxNew : UInt32) (batches : List (List Token))
      (batch part : List Token), marker ≠ [] → part <+: batch → Scheduled maxNew
        { budget := some { reasoningEndMarker := marker, visibleLimit := limit } }
        (batches ++ [batch]) →
      let result := run commitBatch
        { budget := some { reasoningEndMarker := marker, visibleLimit := limit } }
        (batches ++ [part])
      result.ids = batches.flatten ++ part ∧
        result.ids.length ≤ maxNew.toNat ∧
        ∃ budget, result.budget = some budget ∧
          budget.visibleCount.toNat = visibleTokens marker result.ids ∧
          visibleTokens marker result.ids ≤ limit.toNat) ∧
    ∀ (plan : ThinkingPlan) (env : Surroundings) (first second : Pass) (merged : Merged)
      (marker : List Token), (plan.enabled = true → env.marker = .ok marker) →
      BothScheduled plan env first second →
      nativeGenerateWithThinking plan env first second = .ok merged →
      merged.visibleTotal marker ≤ plan.visibleBudget.toNat := by
  refine ⟨?_, ?_⟩
  · intro marker limit maxNew batches batch part hne hp hr result
    have hbo := bounded_run (bounded_new hne) (scheduled_append_part hr hp)
    obtain ⟨budget, hb, hc, hl⟩ := hbo.budget
    refine ⟨?_, hbo.size, budget, hb, hc, ?_⟩
    · have hi := ids_run_commitBatch (batches ++ [part])
        { budget := some { reasoningEndMarker := marker, visibleLimit := limit } }
      simpa using hi
    · rw [← hc]
      exact hl
  · intro plan env first second merged marker hm hr h
    exact visible_total_le hr h hm

/-- A marker of two ids split over two batches, closed in the middle of the second, with two
visible tokens allowed and one of them left to the second pass. -/
theorem visible_output_budget_split :
    let plan : ThinkingPlan := ⟨true, 8, 2⟩
    let env : Surroundings := ⟨true, .ok [7, 9], .ok, .ok⟩
    let merged : Merged :=
      ⟨⟨[1, 7, 9, 4], some ⟨[7, 9], 2, 1, true⟩⟩, some ⟨[5], some {}⟩⟩
    nativeGenerateWithThinking plan env ⟨[[1, 7], [9, 4]], false, .ok⟩ ⟨[[5]], false, .ok⟩ =
        .ok merged ∧
      visibleTokens [7, 9] [1, 7, 9, 4] ≤ 2 ∧ merged.visibleTotal [7, 9] ≤ 2 := by
  have hr : nativeGenerateWithThinking ⟨true, 8, 2⟩ ⟨true, .ok [7, 9], .ok, .ok⟩
      ⟨[[1, 7], [9, 4]], false, .ok⟩ ⟨[[5]], false, .ok⟩ =
      .ok ⟨⟨[1, 7, 9, 4], some ⟨[7, 9], 2, 1, true⟩⟩, some ⟨[5], some {}⟩⟩ := by
    decide +kernel
  have hfi := visible_output_budget.1 [7, 9] 2 8 [[1, 7]] [9, 4] [9, 4] (by decide)
    (prefix_refl _) ⟨by decide +kernel, by decide +kernel, trivial⟩
  have hboth := visible_output_budget.2 ⟨true, 8, 2⟩ ⟨true, .ok [7, 9], .ok, .ok⟩
    ⟨[[1, 7], [9, 4]], false, .ok⟩ ⟨[[5]], false, .ok⟩ _ [7, 9] (fun _ => rfl)
    ⟨nofun, ?_, ?_⟩ hr
  · obtain ⟨hi, _, budget, _, _, hl⟩ := hfi
    rw [hi] at hl
    exact ⟨hr, hl, hboth⟩
  · intro marker _ hm
    cases hm
    exact ⟨by decide +kernel, by decide +kernel, trivial⟩
  · intro marker _ hm o hou
    cases hm
    have ho : o = ⟨[7, 9], 2, 1, true⟩ := by
      have hb : (run commitBatch { budget := some (thinkingBudgetOf ⟨true, 8, 2⟩ [7, 9]) }
          [[1, 7], [9, 4]]).budget = some ⟨[7, 9], 2, 1, true⟩ := by decide +kernel
      exact (some.inj (hb.symm.trans hou)).symm
    subst ho
    exact ⟨by decide +kernel, trivial⟩

end AxiomKernel.Qwen38.Api
