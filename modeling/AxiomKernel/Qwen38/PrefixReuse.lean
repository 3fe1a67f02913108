import Mathlib.Tactic.Common
import AxiomKernel.Device
import AxiomKernel.Lib.Image

/-! `equivalent_prefix`: whether a saved token sequence spells a prefix of an incoming one, byte by
byte, with control tokens as indivisible symbols; and the prompt that is built on a match. -/
namespace AxiomKernel.Qwen38.PrefixReuse

open Image List Option Nat

/-- Why two sequences were not matched: they differ, or the bytes to compare exceed the budget. -/
inductive Reject where
  | mismatch
  | budget
  deriving DecidableEq, Repr

section
variable (baseVocab : UInt32) (decode : Token → Option Bytes)

/-- The bytes of the token at a cursor: what is left of it, or its decoding when nothing of it was
compared yet. A control token, a failed decoding and an empty one have none. -/
def piece (token : Token) (left : Bytes) : Option Bytes :=
  if left ≠ [] then some left
  else if baseVocab ≤ token then none
  else
    match decode token with
    | some (byte :: bytes) => some (byte :: bytes)
    | _ => none

variable {token : Token} {left bytes : Bytes}

lemma piece_ne_nil (h : piece baseVocab decode token left = some bytes) : bytes ≠ [] := by
  rw [piece] at h
  split at h
  · rwa [← some.inj h]
  · split at h
    · cases h
    · split at h
      · rw [← some.inj h]
        exact cons_ne_nil _ _
      · cases h

/-- The tokens from a cursor on, whose current token is finished when nothing of it is left. -/
def fromCursor (token : Token) (tokens : List Token) (left : Bytes) : List Token :=
  if left = [] then tokens else token :: tokens

lemma length_fromCursor_le (token : Token) (tokens : List Token) (left : Bytes) :
    (fromCursor token tokens left).length ≤ tokens.length + 1 := by
  rw [fromCursor]
  split <;> simp

lemma fromCursor_nil (token : Token) (tokens : List Token) :
    fromCursor token tokens [] = tokens := if_pos rfl

def finished (left : Bytes) (count : Nat) : Nat := if left = [] then count + 1 else count

lemma drop_min_eq_nil (xs ys : Bytes) :
    xs.drop (min xs.length ys.length) = [] ∨ ys.drop (min xs.length ys.length) = [] := by
  rcases le_total xs.length ys.length with h | h
  · exact .inl (by rw [min_eq_left h, drop_length])
  · exact .inr (by rw [min_eq_right h, drop_length])

/-- The loop. `left` and `right` are the bytes of the two current tokens that are not compared yet,
empty at a token boundary. -/
def equivalentLoop (byteBudget : Nat) (saved incoming : List Token) (left right : Bytes)
    (bytes consumed : Nat) : Except Reject Nat :=
  match saved, incoming with
  | [], _ => if right ≠ [] then .error .mismatch else .ok consumed
  | _ :: _, [] => .error .mismatch
  | s :: saved, t :: incoming =>
    if left = [] ∧ right = [] ∧ s = t then
      equivalentLoop byteBudget saved incoming [] [] bytes (consumed + 1)
    else if left = [] ∧ right = [] ∧ (baseVocab ≤ s ∨ baseVocab ≤ t) then .error .mismatch
    else
      match piece baseVocab decode s left, piece baseVocab decode t right with
      | some left, some right =>
        let n := min left.length right.length
        if byteBudget - bytes < n then .error .budget
        else if left.take n ≠ right.take n then .error .mismatch
        else
          equivalentLoop byteBudget
            (fromCursor s saved (left.drop n)) (fromCursor t incoming (right.drop n))
            (left.drop n) (right.drop n) (bytes + n)
            (finished (right.drop n) consumed)
      | _, _ => .error .mismatch
termination_by saved.length + incoming.length
decreasing_by
  · simp only [length_cons]
    omega
  · rename_i left right _ _ _ _
    have hs := length_fromCursor_le s saved (left.drop (min left.length right.length))
    have ht := length_fromCursor_le t incoming (right.drop (min left.length right.length))
    simp only [length_cons]
    rcases drop_min_eq_nil left right with h | h
    · rw [h, fromCursor_nil] at hs ⊢
      omega
    · rw [h, fromCursor_nil] at ht ⊢
      omega

/-- `equivalent_prefix`, with the value of `consumed`; the output pointer is given. -/
def equivalentPrefix (byteBudget : Nat) (saved : List Token) (committed : Nat)
    (incoming : List Token) : Bool × Nat :=
  if baseVocab = 0 ∨ committed = 0 ∨ saved.length < committed then (false, 0)
  else
    match equivalentLoop baseVocab decode byteBudget (saved.take committed) incoming [] [] 0 0 with
    | .ok consumed => (true, consumed)
    | .error _ => (false, 0)

/-- A match was given up because the bytes to compare exceeded the budget. -/
def BudgetExceeded (byteBudget : Nat) (saved : List Token) (committed : Nat)
    (incoming : List Token) : Prop :=
  equivalentLoop baseVocab decode byteBudget (saved.take committed) incoming [] [] 0 0 =
    .error .budget

/-- What a token sequence spells: bytes, and tokens that stand for themselves, which are the control
tokens and those without a decoding. -/
inductive Symbol where
  | byte (byte : UInt8)
  | control (token : Token)
  | undecoded (token : Token)
  deriving DecidableEq, Repr

def symbols (token : Token) : List Symbol :=
  if baseVocab ≤ token then [.control token]
  else
    match decode token with
    | some (byte :: bytes) => (byte :: bytes).map .byte
    | _ => [.undecoded token]

def flatten (tokens : List Token) : List Symbol := tokens.flatMap (symbols baseVocab decode)

/-- What the tokens from a cursor on spell, with `left` not yet compared of the first. -/
def stream (tokens : List Token) (left : Bytes) : List Symbol :=
  if left = [] then flatten baseVocab decode tokens
  else left.map .byte ++ flatten baseVocab decode tokens.tail

variable {baseVocab decode}

lemma flatten_cons (token : Token) (tokens : List Token) :
    flatten baseVocab decode (token :: tokens) =
    symbols baseVocab decode token ++ flatten baseVocab decode tokens := flatMap_cons

lemma flatten_append (xs ys : List Token) : flatten baseVocab decode (xs ++ ys) =
    flatten baseVocab decode xs ++ flatten baseVocab decode ys := flatMap_append

lemma symbols_ne_nil (token : Token) : symbols baseVocab decode token ≠ [] := by
  rw [symbols]
  split
  · exact cons_ne_nil _ _
  · split <;> exact cons_ne_nil _ _

lemma stream_nil (tokens : List Token) :
    stream baseVocab decode tokens [] = flatten baseVocab decode tokens := if_pos rfl

variable {tokens : List Token}

lemma stream_of_piece (h : piece baseVocab decode token left = some bytes) :
    stream baseVocab decode (token :: tokens) left =
    bytes.map .byte ++ flatten baseVocab decode tokens := by
  rw [piece] at h
  split at h
  · rename_i hl
    rw [stream, if_neg hl, some.inj h]
    rfl
  · rename_i hl
    rw [not_not.1 hl, stream_nil, flatten_cons, symbols]
    split at h
    · cases h
    · rename_i ht
      rw [if_neg ht]
      split at h
      · rw [← some.inj h]
      · cases h

variable {n : Nat}

lemma stream_fromCursor (hn : n ≤ bytes.length) :
    stream baseVocab decode (fromCursor token tokens (bytes.drop n)) (bytes.drop n) =
    (bytes.map Symbol.byte ++ flatten baseVocab decode tokens).drop n := by
  rw [drop_append_of_le_length (by simpa using hn), ← map_drop, stream, fromCursor]
  split
  · rename_i h
    rw [h, map_nil, nil_append]
  · rfl

variable {s t : Token} {saved : List Token} {right : Bytes}

/-- Two streams whose first tokens have the same first `n` bytes agree when they do behind them. -/
lemma streams_eq_iff {ys : List Token} {l₀ r₀ : Bytes}
    (hl : piece baseVocab decode s l₀ = some left)
    (hr : piece baseVocab decode t r₀ = some right) (hn : n ≤ left.length)
    (hn' : n ≤ right.length) :
    stream baseVocab decode (s :: saved) l₀ = stream baseVocab decode (t :: ys) r₀ ↔
    left.take n = right.take n ∧
    stream baseVocab decode (fromCursor s saved (left.drop n)) (left.drop n) =
    stream baseVocab decode (fromCursor t ys (right.drop n)) (right.drop n) := by
  have hi : Function.Injective (map Symbol.byte) :=
    map_injective_iff.2 fun _ _ h => Symbol.byte.inj h
  have ht : left.take n = right.take n ↔
      (left.map Symbol.byte ++ flatten baseVocab decode saved).take n =
        (right.map Symbol.byte ++ flatten baseVocab decode ys).take n := by
    rw [take_append_of_le_length (by simpa using hn),
      take_append_of_le_length (by simpa using hn'), ← map_take, ← map_take,
      hi.eq_iff]
  rw [stream_of_piece hl, stream_of_piece hr, stream_fromCursor hn, stream_fromCursor hn', ht]
  constructor
  · intro h
    rw [h]
    exact ⟨rfl, rfl⟩
  · rintro ⟨ht, hd⟩
    rw [← take_append_drop n (left.map Symbol.byte ++ flatten baseVocab decode saved), ht,
      hd, take_append_drop]

variable {incoming : List Token} {k : Nat}

lemma take_fromCursor (hk : right ≠ [] → 1 ≤ k) :
    ∃ ys, (t :: incoming).take (finished right k) = t :: ys ∧
    (fromCursor t incoming right).take k = fromCursor t ys right := by
  by_cases hr : right = []
  · exact ⟨incoming.take k, by rw [finished, if_pos hr, take_succ_cons],
      by rw [fromCursor, fromCursor, if_pos hr, if_pos hr]⟩
  · obtain ⟨k, rfl⟩ : ∃ j, k = j + 1 := ⟨k - 1, by have := hk hr; omega⟩
    exact ⟨incoming.take k, by rw [finished, if_neg hr, take_succ_cons],
      by rw [fromCursor, fromCursor, if_neg hr, if_neg hr, take_succ_cons]⟩

lemma finished_add (right : Bytes) (consumed k : Nat) :
    finished right consumed + k = consumed + finished right k := by
  rw [finished, finished]
  split <;> omega

lemma one_le_finished (hk : right ≠ [] → 1 ≤ k) : 1 ≤ finished right k := by
  rw [finished]
  split
  · omega
  · exact hk ‹_›

lemma finished_le :
    finished right k ≤ (t :: incoming).length ↔ k ≤ (fromCursor t incoming right).length := by
  rw [finished, fromCursor, length_cons]
  split
  · exact succ_le_succ_iff
  · exact Iff.rfl

lemma fromCursor_eq_nil (h : fromCursor s saved left = []) : left = [] := by
  by_contra hne
  rw [fromCursor, if_neg hne] at h
  cases h

variable {byteBudget consumed : Nat}

lemma equivalentLoop_sound {bytes m : Nat} (hl : saved = [] → left = [])
    (h : equivalentLoop baseVocab decode byteBudget saved incoming left right bytes consumed =
    .ok m) : ∃ k ≤ incoming.length, m = consumed + k ∧ (right ≠ [] → 1 ≤ k) ∧
    stream baseVocab decode saved left = stream baseVocab decode (incoming.take k) right := by
  fun_induction equivalentLoop with
  | case1 => cases h
  | case2 incoming left right bytes consumed hr =>
    rw [hl rfl, not_not.1 hr]
    exact ⟨0, zero_le _, (Except.ok.inj h).symm, fun hn => absurd rfl hn, rfl⟩
  | case3 => cases h
  | case4 left right bytes consumed s saved t incoming hs ih =>
    obtain ⟨rfl, rfl, rfl⟩ := hs
    obtain ⟨k, hk, rfl, -, hst⟩ := ih (fun _ => rfl) h
    refine ⟨k + 1, succ_le_succ hk, by omega, fun _ => by omega, ?_⟩
    rw [stream_nil, stream_nil] at hst
    rw [stream_nil, stream_nil, take_succ_cons, flatten_cons, flatten_cons, hst]
  | case5 => cases h
  | case6 => cases h
  | case7 => cases h
  | case8 left₀ right₀ bytes consumed s saved t incoming hs hcon left right hr hle' n
      hbudget htake ih =>
      obtain ⟨k, hk, hco, hp, hst⟩ := ih fromCursor_eq_nil h
      obtain ⟨ys, hy, hc⟩ := take_fromCursor hp
      refine ⟨finished (right.drop n) k, finished_le.2 hk, by rw [hco, finished_add],
        fun _ => one_le_finished hp, ?_⟩
      · rw [hy, streams_eq_iff hle' hr (min_le_left _ _) (min_le_right _ _)]
        exact ⟨not_not.1 htake, hc ▸ hst⟩
  | case9 => cases h

lemma stream_ne_nil_of_left (tokens : List Token) (h : left ≠ []) :
    stream baseVocab decode tokens left ≠ [] := by
  rw [stream, if_neg h]
  exact append_ne_nil_of_left_ne_nil (by simpa using h) _

lemma stream_cons_ne_nil (token : Token) (tokens : List Token) (left : Bytes) :
    stream baseVocab decode (token :: tokens) left ≠ [] := by
  by_cases h : left = []
  · rw [h, stream_nil, flatten_cons]
    exact append_ne_nil_of_left_ne_nil (symbols_ne_nil token) _
  · exact stream_ne_nil_of_left _ h

lemma head_of_control (h : baseVocab ≤ token) :
    (stream baseVocab decode (token :: tokens) []).head? = some (.control token) := by
  rw [stream_nil, flatten_cons, symbols, if_pos h]
  rfl

lemma head_of_piece (tokens : List Token) (h : piece baseVocab decode token left = some bytes) :
    ∃ b, (stream baseVocab decode (token :: tokens) left).head? = some (.byte b) := by
  rw [stream_of_piece h]
  cases bytes with
  | nil => exact absurd rfl (piece_ne_nil baseVocab decode h)
  | cons b bytes => exact ⟨b, rfl⟩

lemma piece_total (hd : ∀ token, ¬ baseVocab ≤ token → ∃ b bytes, decode token = some (b :: bytes))
    (h : ¬ (left = [] ∧ baseVocab ≤ token)) :
    ∃ bytes, piece baseVocab decode token left = some bytes := by
  by_cases hl : left = []
  · have ht : ¬ baseVocab ≤ token := fun ht => h ⟨hl, ht⟩
    obtain ⟨b, bytes, hb⟩ := hd token ht
    exact ⟨b :: bytes, by rw [piece, if_neg (not_not.2 hl), if_neg ht, hb]⟩
  · exact ⟨left, by rw [piece, if_pos hl]⟩

lemma control_ne_piece {ys : List Token} (hs : baseVocab ≤ s)
    (ht : piece baseVocab decode t right = some bytes) :
    stream baseVocab decode (s :: saved) [] ≠ stream baseVocab decode (t :: ys) right := by
  intro h
  obtain ⟨b, hb⟩ := head_of_piece ys ht
  rw [← h, head_of_control hs] at hb
  cases hb

lemma finished_surj (right : Bytes) (hk : 1 ≤ k) :
    ∃ j, finished right j = k ∧ (right ≠ [] → 1 ≤ j) := by
  by_cases h : right = []
  · exact ⟨k - 1, by rw [finished, if_pos h]; omega, fun hn => absurd h hn⟩
  · exact ⟨k, by rw [finished, if_neg h], fun _ => hk⟩

/-- With a token on either side, at least one incoming token is used. -/
lemma take_of_streams_eq (hp : right ≠ [] → 1 ≤ k) (h : stream baseVocab decode (s :: saved) left =
    stream baseVocab decode ((t :: incoming).take k) right) :
    ∃ j, k = j + 1 ∧ (t :: incoming).take k = t :: incoming.take j := by
  cases k with
  | zero =>
    have hni : right = [] := by
      by_contra hne
      exact absurd (hp hne) (by decide)
    rw [take_zero, hni] at h
    exact absurd h (stream_cons_ne_nil _ _ _)
  | succ j => exact ⟨j, rfl, take_succ_cons⟩

lemma equivalentLoop_complete
    (hd : ∀ token, ¬ baseVocab ≤ token → ∃ b bytes, decode token = some (b :: bytes))
    {bytes : Nat} (hl : saved = [] → left = []) (hr : incoming = [] → right = [])
    (hp : right ≠ [] → 1 ≤ k)
    (hbu : equivalentLoop baseVocab decode byteBudget saved incoming left right bytes
    consumed ≠ .error .budget) (hk : k ≤ incoming.length)
    (h : stream baseVocab decode saved left = stream baseVocab decode (incoming.take k) right) :
    equivalentLoop baseVocab decode byteBudget saved incoming left right bytes consumed =
    .ok (consumed + k) := by
  fun_induction equivalentLoop generalizing k with
  | case1 incoming left right bytes consumed hne =>
    rw [hl rfl] at h
    exact absurd h.symm (stream_ne_nil_of_left _ hne)
  | case2 incoming left right bytes consumed hni =>
    rw [hl rfl, not_not.1 hni, stream_nil, stream_nil] at h
    have hz : k = 0 := by
      cases incoming with
      | nil => exact le_zero.1 hk
      | cons t incoming =>
        cases k with
        | zero => rfl
        | succ j =>
          rw [take_succ_cons, ← stream_nil (t :: _)] at h
          exact absurd h.symm (stream_cons_ne_nil _ _ _)
    rw [hz, add_zero]
  | case3 left right bytes consumed s saved =>
    rw [hr rfl, take_nil] at h
    exact absurd h (stream_cons_ne_nil _ _ _)
  | case4 left right bytes consumed s saved t incoming hsm ih =>
    obtain ⟨rfl, rfl, rfl⟩ := hsm
    obtain ⟨j, rfl, hta⟩ := take_of_streams_eq hp h
    rw [hta, stream_nil, stream_nil, flatten_cons, flatten_cons, append_cancel_left_eq]
      at h
    rw [ih (fun _ => rfl) (fun _ => rfl) (fun hne => absurd rfl hne) hbu
      (le_of_succ_le_succ hk) (by rw [stream_nil, stream_nil, h])]
    congr 1
    omega
  | case5 left right bytes consumed s saved t incoming hsm hco =>
    obtain ⟨rfl, rfl, hco⟩ := hco
    obtain ⟨j, rfl, hta⟩ := take_of_streams_eq hp h
    rw [hta] at h
    by_cases hs : baseVocab ≤ s
    · by_cases ht : baseVocab ≤ t
      · have hh := congrArg List.head? h
        rw [head_of_control hs, head_of_control ht] at hh
        exact absurd ⟨rfl, rfl, Symbol.control.inj (some.inj hh)⟩ hsm
      · obtain ⟨bytes, hb⟩ : ∃ bytes, piece baseVocab decode t [] = some bytes :=
          piece_total hd fun hc => ht hc.2
        exact absurd h (control_ne_piece hs hb)
    · obtain ⟨bytes, hb⟩ : ∃ bytes, piece baseVocab decode s [] = some bytes :=
        piece_total hd fun hc => hs hc.2
      exact absurd h.symm (control_ne_piece (hco.resolve_left hs) hb)
  | case6 => exact absurd rfl hbu
  | case7 =>
    rename_i left right hr' hl' n hn hne
    obtain ⟨j, rfl, hta⟩ := take_of_streams_eq hp h
    rw [hta, streams_eq_iff hl' hr' (min_le_left _ _) (min_le_right _ _)] at h
    exact absurd h.1 hne
  | case8 =>
    rename_i s saved t incoming hsm hco left right hr' hl' n hn hta ih
    obtain ⟨j, hj, hy⟩ := take_of_streams_eq hp h
    rw [hy, streams_eq_iff hl' hr' (min_le_left _ _) (min_le_right _ _)] at h
    obtain ⟨i, hi, hip⟩ := finished_surj (right.drop n) (show 1 ≤ k by omega)
    obtain ⟨ys, hy', hcu⟩ := take_fromCursor hip
    rw [hi, hy] at hy'
    obtain rfl := (List.cons.inj hy').2
    rw [ih fromCursor_eq_nil fromCursor_eq_nil hip hbu
      (finished_le.1 (hi.trans_le hk)) (by rw [hcu]; exact h.2), finished_add, hi]
  | case9 left right bytes consumed s saved t incoming hsm hco hpi =>
    obtain ⟨j, rfl, hta⟩ := take_of_streams_eq hp h
    rw [hta] at h
    by_cases hs : left = [] ∧ baseVocab ≤ s
    · obtain ⟨rfl, hs⟩ := hs
      obtain ⟨bytes, hb⟩ := piece_total hd (fun ht => hco ⟨rfl, ht.1, .inl hs⟩)
      exact absurd h (control_ne_piece hs hb)
    · obtain ⟨bytes, hb⟩ := piece_total hd hs
      by_cases ht : right = [] ∧ baseVocab ≤ t
      · obtain ⟨rfl, ht⟩ := ht
        exact absurd h.symm (control_ne_piece ht hb)
      · obtain ⟨bs', hb'⟩ := piece_total hd ht
        exact (hpi bytes bs' hb hb').elim

lemma equivalentLoop_within_budget {bytes : Nat}
    (h : bytes + (stream baseVocab decode saved left).length ≤ byteBudget) :
    equivalentLoop baseVocab decode byteBudget saved incoming left right bytes consumed ≠
    .error .budget := by
  fun_induction equivalentLoop with
  | case4 left right bytes consumed s saved t incoming hs ih =>
    obtain ⟨rfl, rfl, rfl⟩ := hs
    apply ih
    rw [stream_nil, flatten_cons, length_append] at h
    rw [stream_nil]
    omega
  | case6 =>
    rename_i left right hr hl n hn
    rw [stream_of_piece hl, length_append, length_map] at h
    have hle : n ≤ left.length := min_le_left _ _
    omega
  | case8 =>
    rename_i left right hr hl n hn ht ih
    apply ih
    rw [stream_of_piece hl] at h
    rw [stream_fromCursor (min_le_left _ _), length_drop]
    rw [length_append, length_map] at h ⊢
    have hle : n ≤ left.length := min_le_left _ _
    omega
  | _ => exact fun h => nomatch h

variable {committed : Nat}

lemma equivalentPrefix_sound
    (h : equivalentPrefix baseVocab decode byteBudget saved committed incoming = (true, n)) :
    n ≤ incoming.length ∧ flatten baseVocab decode (saved.take committed) =
    flatten baseVocab decode (incoming.take n) := by
  rw [equivalentPrefix] at h
  split at h
  · cases h
  · split at h
    · rename_i consumed hl
      obtain ⟨k, hk, hc, -, hs⟩ := equivalentLoop_sound (fun _ => rfl) hl
      rw [stream_nil, stream_nil] at hs
      obtain rfl : n = k := by
        rw [← (Prod.mk.inj h).2, hc, zero_add]
      exact ⟨hk, hs⟩
    · cases h

lemma equivalentPrefix_false
    (h : (equivalentPrefix baseVocab decode byteBudget saved committed incoming).1 = false) :
    equivalentPrefix baseVocab decode byteBudget saved committed incoming = (false, 0) := by
  rw [equivalentPrefix] at h ⊢
  split
  · rfl
  · rename_i hg
    rw [if_neg hg] at h
    split
    · rename_i hl
      rw [hl] at h
      cases h
    · rfl

lemma equivalentPrefix_complete
    (hd : ∀ token, ¬ baseVocab ≤ token → ∃ b bytes, decode token = some (b :: bytes))
    (hbs : baseVocab ≠ 0) (hco : 0 < committed) (hsa : committed ≤ saved.length)
    (hbu : ¬ BudgetExceeded baseVocab decode byteBudget saved committed incoming)
    (hn : n ≤ incoming.length) (h : flatten baseVocab decode (saved.take committed) =
    flatten baseVocab decode (incoming.take n)) :
    equivalentPrefix baseVocab decode byteBudget saved committed incoming = (true, n) := by
  have hg : ¬ (baseVocab = 0 ∨ committed = 0 ∨ saved.length < committed) := by
    rintro (hb | hc | hs)
    · exact hbs hb
    · omega
    · omega
  rw [equivalentPrefix, if_neg hg,
    equivalentLoop_complete hd (fun _ => rfl) (fun _ => rfl) (fun hne => absurd rfl hne)
      hbu hn (by rw [stream_nil, stream_nil, h]), zero_add]

end

/-- `session_equivalent_prompt` without tools to project, over the decoding of the tokenizer. -/
def sessionEquivalentPrompt (vocabSize : UInt32) (decode : Token → Option Bytes)
    (tokenIds : List Token) (committedTokens : UInt32) (promptIds : List Token) (limit : UInt32) :
    Option (List Token) :=
  match equivalentPrefix vocabSize decode (64 <<< 20) tokenIds committedTokens.toNat promptIds with
  | (false, _) => none
  | (true, consumed) =>
    if limit.toNat < committedTokens.toNat + promptIds.length - consumed then none
    else some (tokenIds.take committedTokens.toNat ++ promptIds.drop consumed)

/-- The matching is exact: with a decoding for every ordinary token and a budget that is not
exceeded it finds the one prefix that spells the committed tokens, and without one it returns false
and zero; with any decoding a match spells the same symbols; and the effective prompt of a session
spells what the incoming prompt does. -/
theorem equivalentPrefix_exact (baseVocab : UInt32) (decode : Token → Option Bytes) :
    (baseVocab ≠ 0 → ∀ byteBudget saved committed incoming, 0 < committed →
        committed ≤ saved.length →
        (∀ token, ¬ baseVocab ≤ token → ∃ byte bytes, decode token = some (byte :: bytes)) →
        ¬ BudgetExceeded baseVocab decode byteBudget saved committed incoming →
        (∀ n, equivalentPrefix baseVocab decode byteBudget saved committed incoming = (true, n) ↔
          n ≤ incoming.length ∧ flatten baseVocab decode (saved.take committed) =
            flatten baseVocab decode (incoming.take n)) ∧
        ((¬ ∃ n ≤ incoming.length, flatten baseVocab decode (saved.take committed) =
            flatten baseVocab decode (incoming.take n)) →
          equivalentPrefix baseVocab decode byteBudget saved committed incoming = (false, 0))) ∧
      (∀ byteBudget saved committed incoming n,
        equivalentPrefix baseVocab decode byteBudget saved committed incoming = (true, n) →
        n ≤ incoming.length ∧ flatten baseVocab decode (saved.take committed) =
          flatten baseVocab decode (incoming.take n)) ∧
      ∀ tokenIds committedTokens promptIds limit effective,
        sessionEquivalentPrompt baseVocab decode tokenIds committedTokens promptIds limit =
          some effective →
        flatten baseVocab decode effective = flatten baseVocab decode promptIds := by
  refine ⟨?_, fun _ _ _ _ _ h => equivalentPrefix_sound h, ?_⟩
  · intro hbase byteBudget saved committed incoming hc hs hd hb
    refine ⟨fun n => ⟨equivalentPrefix_sound, fun h =>
      equivalentPrefix_complete hd hbase hc hs hb h.1 h.2⟩, fun hn => ?_⟩
    cases hfo : (equivalentPrefix baseVocab decode byteBudget saved committed incoming).1 with
    | false => exact equivalentPrefix_false hfo
    | true => exact absurd ⟨_, equivalentPrefix_sound (Prod.ext hfo rfl)⟩ hn
  · intro tokenIds committedTokens promptIds limit effective h
    rw [sessionEquivalentPrompt] at h
    split at h
    · cases h
    · rename_i consumed hm
      split at h
      · cases h
      · have hso := (equivalentPrefix_sound hm).2
        rw [← some.inj h, flatten_append, hso, ← flatten_append, take_append_drop]

/-- Tokens 1, 2 and 3 spell `So`, `ft` and `Soft`, other ordinary tokens an exclamation mark. -/
def softPieces (token : Token) : Option Bytes :=
  if token = 1 then some [83, 111]
  else if token = 2 then some [102, 116]
  else if token = 3 then some [83, 111, 102, 116]
  else some [33]

theorem equivalentPrefix_exact_soft :
    equivalentPrefix 100 softPieces 1000 [100, 1, 2] 3 [100, 3, 4] = (true, 2) := by
  have hd : ∀ token, ¬ (100 : UInt32) ≤ token →
      ∃ b bytes, softPieces token = some (b :: bytes) := by
    intro token _
    unfold softPieces
    split_ifs <;> exact ⟨_, _, rfl⟩
  have hb : ¬ BudgetExceeded 100 softPieces 1000 [100, 1, 2] 3 [100, 3, 4] :=
    equivalentLoop_within_budget (by decide)
  exact (((equivalentPrefix_exact 100 softPieces).1 (by decide) 1000 [100, 1, 2] 3 [100, 3, 4]
    (by decide) (by decide) hd hb).1 2).2 ⟨by decide, by decide⟩

/-- A vocabulary without ordinary tokens is refused, whatever the sequences spell. -/
theorem equivalentPrefix_no_vocabulary :
    ¬ ∀ n, equivalentPrefix 0 (fun _ => some [0]) 1000 [5] 1 [5] = (true, n) ↔
      n ≤ [5].length ∧ flatten 0 (fun _ => some [0]) ([5].take 1) =
        flatten 0 (fun _ => some [0]) ([5].take n) := by
  intro h
  have hf : equivalentPrefix 0 (fun _ => some [0]) 1000 [5] 1 [5] = (false, 0) := rfl
  have htrue := (h 1).2 ⟨le_rfl, rfl⟩
  rw [hf] at htrue
  cases htrue

end AxiomKernel.Qwen38.PrefixReuse
