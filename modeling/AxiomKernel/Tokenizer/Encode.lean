import AxiomKernel.Json
import AxiomKernel.Status
import AxiomKernel.Tokenizer.ByteLevel

/-!
# Encoding and decoding with a byte-pair tokenizer

`axiom_tokenizer_encode_text` and `axiom_tokenizer_decode_ids` of `src/axiom_runtime.cpp`: added
tokens are cut out of the text, the rest is cut into pieces and every piece is merged pair by pair.
What is emitted does not influence the cutting, so the text is first turned into the symbols that
are looked up and emitted one after the other. Character classes are those of the C locale.
-/
namespace AxiomKernel.Tokenization

open Image List

/-- What `axiom_tokenizer_open` read, in the order it was read. -/
structure Tokenizer where
  vocab : List (Bytes × UInt32)
  added : List (Bytes × UInt32)
  merges : List (Bytes × Bytes)

namespace Tokenizer

variable (t : Tokenizer)

def tokenToId (token : Bytes) : Option UInt32 :=
  ((t.vocab ++ t.added).reverse.find? (·.1 == token)).map Prod.snd

/-- The writes to the table of pieces: vocabulary strings are decoded, added contents are not. -/
def pieceWrites : List (Bytes × UInt32) :=
  t.vocab.map (fun entry => (byteDecode entry.1, entry.2)) ++ t.added

/-- An entry of the table of pieces; entries that were skipped are empty. -/
def idToToken (id : UInt32) : Option Bytes :=
  if t.pieceWrites.all (·.2 < id) then none
  else some (((t.pieceWrites.reverse.find? (·.2 == id)).map Prod.fst).getD [])

end Tokenizer

def mergeKey (left right : Bytes) : Bytes := left ++ 1 :: right

def mergeRank (t : Tokenizer) (key : Bytes) : Option UInt32 :=
  (t.merges.zipIdx.reverse.find? fun merge => mergeKey merge.1.1 merge.1.2 == key).map
    fun merge => UInt32.ofNat merge.2

def bestPair (t : Tokenizer) (parts : List Bytes) : Option (Bytes × Bytes) :=
  ((parts.zip parts.tail).foldl (fun best pair =>
      match mergeRank t (mergeKey pair.1 pair.2) with
      | some rank => if rank < best.1 then (rank, some pair) else best
      | none => best)
    ((0xffffffff : UInt32), (none : Option (Bytes × Bytes)))).2

def mergePass (left right : Bytes) : List Bytes → List Bytes
  | a :: b :: parts =>
    if a = left ∧ b = right then (a ++ b) :: mergePass left right parts
    else a :: mergePass left right (b :: parts)
  | parts => parts

variable {t : Tokenizer} {pair : Bytes × Bytes} {rest : Bytes}

lemma foldl_bestPair (ps : List (Bytes × Bytes)) {ra : UInt32} {b : Option (Bytes × Bytes)}
    (h : (ps.foldl (fun b pair =>
        match mergeRank t (mergeKey pair.1 pair.2) with
        | some ra => if ra < b.1 then (ra, some pair) else b
        | none => b) (ra, b)).2 = some pair) :
    b = some pair ∨ pair ∈ ps ∧ (mergeRank t (mergeKey pair.1 pair.2)).isSome := by
  induction ps generalizing ra b with
  | nil => exact .inl h
  | cons first ps ih =>
    rw [foldl_cons] at h
    split at h
    next f hfo =>
      split at h
      · rcases ih h with hf | ⟨hm, hr⟩
        · cases hf
          exact .inr ⟨mem_cons_self, by rw [hfo]; rfl⟩
        · exact .inr ⟨mem_cons_of_mem _ hm, hr⟩
      · rcases ih h with hb | ⟨hm, hr⟩
        · exact .inl hb
        · exact .inr ⟨mem_cons_of_mem _ hm, hr⟩
    next =>
      rcases ih h with hb | ⟨hm, hr⟩
      · exact .inl hb
      · exact .inr ⟨mem_cons_of_mem _ hm, hr⟩

lemma bestPair_spec {ps : List Bytes} (h : bestPair t ps = some pair) :
    pair ∈ ps.zip ps.tail ∧ (mergeRank t (mergeKey pair.1 pair.2)).isSome :=
  (foldl_bestPair _ h).resolve_left nofun

lemma length_mergePass_le (left right : Bytes) (ps : List Bytes) :
    (mergePass left right ps).length ≤ ps.length := by
  fun_induction mergePass left right ps with
  | case1 a b ps _ ih =>
    simp only [length_cons]
    omega
  | case2 a b ps _ ih =>
    simp only [length_cons] at ih ⊢
    omega
  | case3 ps _ => exact le_refl _

lemma length_mergePass_lt {left right : Bytes} (ps : List Bytes)
    (h : (left, right) ∈ ps.zip ps.tail) :
    (mergePass left right ps).length < ps.length := by
  fun_induction mergePass left right ps with
  | case1 a b ps _ ih =>
    have := length_mergePass_le left right ps
    simp only [length_cons]
    omega
  | case2 a b ps hn ih =>
    rw [tail_cons, zip_cons_cons, mem_cons] at h
    rcases h with he | hm
    · cases he
      exact absurd ⟨rfl, rfl⟩ hn
    · have := ih hm
      simp only [length_cons] at this ⊢
      omega
  | case3 ps hs =>
    match ps with
    | [] => cases h
    | [a] => cases h
    | a :: b :: ps => exact absurd rfl (hs a b ps)

/-- The merge loop of `axiom_tokenizer_emit_bpe_piece`. -/
def mergeLoop (t : Tokenizer) (parts : List Bytes) : List Bytes :=
  if parts.length ≤ 1 then parts
  else
    match _h : bestPair t parts with
    | none => parts
    | some pair => mergeLoop t (mergePass pair.1 pair.2 parts)
termination_by parts.length
decreasing_by exact length_mergePass_lt parts (bestPair_spec _h).1

def bpeParts (t : Tokenizer) (piece : Bytes) : List Bytes :=
  if piece.isEmpty then [] else mergeLoop t (utf8Parts (byteEncode piece))

variable (c : UInt8)

def isDigit : Bool := 48 ≤ c && c ≤ 57

def isAlpha : Bool := (65 ≤ c && c ≤ 90) || (97 ≤ c && c ≤ 122)

def isSpace : Bool := c == 32 || (9 ≤ c && c ≤ 13)

def isPunct : Bool :=
  (33 ≤ c && c ≤ 47) || (58 ≤ c && c ≤ 64) || (91 ≤ c && c ≤ 96) || (123 ≤ c && c ≤ 126)

def isNewline : Bool := c == 13 || c == 10

def isBlank : Bool := isSpace c && !isNewline c

def isWordByte : Bool := isAlpha c || 0x80 ≤ c

def chunks3 : Bytes → List Bytes
  | a :: b :: c :: rest => [a, b, c] :: chunks3 rest
  | [] => []
  | rest => [rest]

def punctRun (rest : Bytes) : Bytes × Bytes :=
  let tail := rest.dropWhile isPunct
  (rest.takeWhile isPunct ++ tail.takeWhile isNewline, tail.dropWhile isNewline)

/-- The pieces a run of blanks makes with what follows it, and where the scan goes on. -/
def blankPieces (blanks after : Bytes) : List Bytes × Bytes :=
  match after with
  | [] => ([blanks], after)
  | c :: rest =>
    if isWordByte c then
      ([blanks.dropLast, blanks.drop (blanks.length - 1) ++ after.takeWhile isWordByte],
        after.dropWhile isWordByte)
    else if isPunct c then
      if blanks.getLast? = some 32 then
        (blanks.dropLast.map ([·]) ++ [32 :: c :: (punctRun rest).1], (punctRun rest).2)
      else (blanks.map ([·]), after)
    else if isNewline c then
      ([blanks ++ after.takeWhile isNewline], after.dropWhile isNewline)
    else ([blanks], after)

/-- The pieces a punctuation byte makes with the plain text in front of it and what follows. -/
def punctPieces (plain : Bytes) (c : UInt8) (rest : Bytes) : List Bytes × Bytes :=
  if plain.getLast? = some 32 then
    ([plain.dropLast, 32 :: c :: (punctRun rest).1], (punctRun rest).2)
  else if (rest.head?.map isAlpha).getD false then
    ([plain, c :: rest.takeWhile isAlpha], rest.dropWhile isAlpha)
  else ([plain, c :: (punctRun rest).1], (punctRun rest).2)

lemma dropWhile_length_le (p : UInt8 → Bool) (s : Bytes) : (s.dropWhile p).length ≤ s.length :=
  (dropWhile_suffix p).length_le

lemma punctRun_append (rest : Bytes) : (punctRun rest).1 ++ (punctRun rest).2 = rest := by
  simp [punctRun]

lemma length_punctRun_le (rest : Bytes) : (punctRun rest).2.length ≤ rest.length := by
  have := congrArg length (punctRun_append rest)
  rw [length_append] at this
  omega

lemma length_blankPieces_le (bs af : Bytes) : (blankPieces bs af).2.length ≤ af.length := by
  unfold blankPieces
  split
  · exact le_refl _
  next c rest =>
    split
    · exact dropWhile_length_le ..
    · split
      · split
        · exact (length_punctRun_le rest).trans (Nat.le_succ _)
        · exact le_refl _
      · split
        · exact dropWhile_length_le ..
        · exact le_refl _

lemma length_punctPieces_le (p : Bytes) (c : UInt8) (rest : Bytes) :
    (punctPieces p c rest).2.length ≤ rest.length := by
  unfold punctPieces
  split
  · exact length_punctRun_le rest
  · split
    · exact dropWhile_length_le ..
    · exact length_punctRun_le rest

lemma length_dropWhile_head {p : UInt8 → Bool} {c : UInt8} (h : p c) :
    ((c :: rest).dropWhile p).length ≤ rest.length := by
  rw [dropWhile_cons_of_pos h]
  exact dropWhile_length_le p rest

/-- `axiom_tokenizer_emit_pretokenized_piece` with the text since `plain_start` that was passed. -/
def pretokenize (plain : Bytes) : Bytes → List Bytes
  | [] => [plain]
  | c :: rest =>
    if isDigit c then
      plain :: chunks3 ((c :: rest).takeWhile isDigit) ++
        pretokenize [] ((c :: rest).dropWhile isDigit)
    else if isBlank c then
      let cut := blankPieces ((c :: rest).takeWhile isBlank) ((c :: rest).dropWhile isBlank)
      plain :: cut.1 ++ pretokenize [] cut.2
    else if isPunct c then
      let cut := punctPieces plain c rest
      cut.1 ++ pretokenize [] cut.2
    else pretokenize (plain ++ [c]) rest
termination_by text => text.length
decreasing_by
  · have := @length_dropWhile_head rest isDigit c ‹_›
    simp only [length_cons]
    omega
  · have := @length_dropWhile_head rest isBlank c ‹_›
    have := length_blankPieces_le ((c :: rest).takeWhile isBlank) ((c :: rest).dropWhile isBlank)
    simp only [length_cons]
    omega
  · have := length_punctPieces_le plain c rest
    simp only [length_cons]
    omega
  · simp

/-- `axiom_tokenizer_match_added`: the longest content that starts the text, the first on ties. -/
def matchAdded (t : Tokenizer) (rest : Bytes) : Option (Bytes × UInt32) :=
  let best := t.added.foldl (fun best item =>
      if best.1.length < item.1.length ∧ item.1.isPrefixOf rest then item else best)
    (([] : Bytes), (0 : UInt32))
  if best.1.isEmpty then none else some best

inductive Symbol
  | part (token : Bytes)
  | added (content : Bytes) (id : UInt32)
  deriving DecidableEq

inductive Segment
  | plain (text : Bytes)
  | added (content : Bytes) (id : UInt32)
  deriving DecidableEq

lemma matchAdded_ne_nil {co : Bytes} {id : UInt32} (h : matchAdded t rest = some (co, id)) :
    co ≠ [] := by
  unfold matchAdded at h
  dsimp only at h
  split at h
  · cases h
  next hn =>
    rintro rfl
    rw [Option.some.inj h] at hn
    exact hn rfl

/-- The scan of `axiom_tokenizer_encode_text` with the text since `plain_start`. -/
def segments (t : Tokenizer) (plain : Bytes) : Bytes → List Segment
  | [] => [.plain plain]
  | c :: rest =>
    match _h : matchAdded t (c :: rest) with
    | some (content, id) =>
      .plain plain :: .added content id :: segments t [] ((c :: rest).drop content.length)
    | none => segments t (plain ++ [c]) rest
termination_by text => text.length
decreasing_by
  · have := length_pos_iff.2 (matchAdded_ne_nil _h)
    simp only [length_drop, length_cons]
    omega
  · simp

def segmentSymbols (t : Tokenizer) : Segment → List Symbol
  | .plain text => ((pretokenize [] text).flatMap (bpeParts t)).map .part
  | .added content id => [.added content id]

def symbolId (t : Tokenizer) : Symbol → Option UInt32
  | .part token => t.tokenToId token
  | .added _ id => some id

def emit (t : Tokenizer) (capacity : Nat) (out : List UInt32) (symbol : Symbol) :
    Except Status (List UInt32) :=
  match symbolId t symbol with
  | none => .error .io
  | some id => if capacity ≤ out.length then .error .budget else .ok (out ++ [id])

def encodeText (t : Tokenizer) (text : Bytes) (capacity : Nat) : Except Status (List UInt32) :=
  if capacity = 0 then .error .invalidArgument
  else ((segments t [] (cString text)).flatMap (segmentSymbols t)).foldlM (emit t capacity) []

def decodeId (t : Tokenizer) (capacity : Nat) (out : Bytes) (id : UInt32) : Except Status Bytes :=
  match t.idToToken id with
  | none => .error .invalidArgument
  | some piece =>
    if piece = [] ∧ id ≠ 0 then .error .invalidArgument
    else if capacity - out.length - 1 < piece.length then .error .budget
    else .ok (out ++ piece)

def decodeIds (t : Tokenizer) (ids : List UInt32) (capacity : Nat) : Except Status Bytes :=
  if ids.isEmpty ∨ capacity = 0 then .error .invalidArgument
  else ids.foldlM (decodeId t capacity) []

end AxiomKernel.Tokenization
