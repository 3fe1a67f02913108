import AxiomKernel.Lib.Guard
import AxiomKernel.Tokenizer.Encode

/-!
# Encoding loses nothing

Every byte of a text is in one symbol, and the id of a symbol is decoded to the bytes it stands for.
-/
namespace AxiomKernel.Tokenization

open Guard Image List Nat

lemma flatten_chunks3 (digits : Bytes) : (chunks3 digits).flatten = digits := by
  fun_induction chunks3 digits with
  | case1 a b c rest ih => rw [flatten_cons, ih]; rfl
  | case2 => rfl
  | case3 rest _ _ => simp

lemma dropLast_append_last (s : Bytes) : s.dropLast ++ s.drop (s.length - 1) = s := by
  rw [dropLast_eq_take, take_append_drop]

variable {c : UInt8} {text' part rest left right : Bytes} {symbols' : List Symbol}

lemma dropLast_append_of_getLast? {s : Bytes} (h : s.getLast? = some c) (rest : Bytes) :
    s.dropLast ++ c :: rest = s ++ rest := by
  have hn : s ≠ [] := by
    rintro rfl
    cases h
  have hl : s.getLast hn = c := by
    rw [getLast?_eq_some_getLast hn] at h
    exact Option.some.inj h
  conv_rhs => rw [← dropLast_append_getLast hn, hl]
  rw [append_assoc]
  rfl

lemma flatten_singletons (s : Bytes) : (s.map ([·])).flatten = s := by
  induction s with
  | nil => rfl
  | cons c s ih => rw [map_cons, flatten_cons, ih]; rfl

lemma flatten_blankPieces (bs after : Bytes) :
    (blankPieces bs after).1.flatten ++ (blankPieces bs after).2 = bs ++ after := by
  unfold blankPieces
  split
  · simp
  next c rest =>
    split
    · simp only [flatten_cons, flatten_nil, append_nil, append_assoc, takeWhile_append_dropWhile]
      rw [← append_assoc, dropLast_append_last]
    · split
      · split
        next hl =>
          rw [flatten_append, flatten_singletons, flatten_singleton,
            dropLast_append_of_getLast? hl, append_assoc, cons_append,
            punctRun_append]
        · rw [flatten_singletons]
      · split
        · simp
        · rw [flatten_singleton]

lemma flatten_punctPieces (p : Bytes) (c : UInt8) (rest : Bytes) :
    (punctPieces p c rest).1.flatten ++ (punctPieces p c rest).2 = p ++ c :: rest := by
  unfold punctPieces
  split
  next hl =>
    simp only [flatten_cons, flatten_nil, append_nil]
    rw [dropLast_append_of_getLast? hl, append_assoc, cons_append, punctRun_append]
  · split
    · simp [flatten_cons]
    · simp [flatten_cons, punctRun_append]

lemma flatten_pretokenize (p text : Bytes) : (pretokenize p text).flatten = p ++ text := by
  fun_induction pretokenize p text with
  | case1 p => simp
  | case2 p c rest _ ih =>
    rw [flatten_append, flatten_cons, flatten_chunks3, ih, nil_append,
      append_assoc, takeWhile_append_dropWhile]
  | case3 p c rest _ _ cut ih =>
    rw [flatten_append, flatten_cons, ih, nil_append, append_assoc,
      flatten_blankPieces, takeWhile_append_dropWhile]
  | case4 p c rest _ _ _ cut ih =>
    rw [flatten_append, ih, nil_append, flatten_punctPieces]
  | case5 p c rest _ _ _ ih =>
    rw [ih, append_assoc]
    rfl

def Chunked (text : Bytes) (parts : List Bytes) : Prop :=
  ∃ chunks : List Bytes, parts = chunks.map byteEncode ∧ chunks.flatten = text ∧
    ∀ chunk ∈ chunks, chunk ≠ []

lemma chunked_nil : Chunked [] [] := ⟨[], rfl, rfl, nofun⟩

lemma Chunked.cons {text chunk : Bytes} {parts : List Bytes} (hne : chunk ≠ [])
    (h : Chunked text parts) : Chunked (chunk ++ text) (byteEncode chunk :: parts) := by
  obtain ⟨chunks, rfl, rfl, hchun⟩ := h
  exact ⟨chunk :: chunks, rfl, rfl, forall_mem_cons.2 ⟨hne, hchun⟩⟩

variable {text : Bytes} {parts : List Bytes}

lemma Chunked.append {ps' : List Bytes} (h : Chunked text parts) (h' : Chunked text' ps') :
    Chunked (text ++ text') (parts ++ ps') := by
  obtain ⟨cs, rfl, rfl, hc⟩ := h
  obtain ⟨cs', rfl, rfl, hc'⟩ := h'
  refine ⟨cs ++ cs', map_append.symm, flatten_append, fun ch hch => ?_⟩
  rcases mem_append.1 hch with hm | hm
  · exact hc ch hm
  · exact hc' ch hm

lemma Chunked.inv (h : Chunked text (part :: parts)) :
    ∃ ch text', part = byteEncode ch ∧ ch ≠ [] ∧ text = ch ++ text' ∧
    Chunked text' parts := by
  obtain ⟨cs, hp, rfl, hc⟩ := h
  cases cs with
  | nil => cases hp
  | cons ch cs =>
    rw [map_cons] at hp
    cases hp
    rw [forall_mem_cons] at hc
    exact ⟨ch, cs.flatten, rfl, hc.1, rfl, cs, rfl, rfl, hc.2⟩

lemma chunked_symbols (text : Bytes) : Chunked text (text.map byteSymbol) := by
  induction text with
  | nil => exact chunked_nil
  | cons byte text ih =>
    have := Chunked.cons (cons_ne_nil byte []) ih
    rwa [byteEncode_singleton] at this

lemma Chunked.mergePass (left right : Bytes) (parts : List Bytes) (h : Chunked text parts) :
    Chunked text (mergePass left right parts) := by
  fun_induction Tokenization.mergePass left right parts generalizing text with
  | case1 a b parts _ ih =>
    obtain ⟨chunk, _, rfl, hne, rfl, hre⟩ := h.inv
    obtain ⟨chunk', _, rfl, _, rfl, hre'⟩ := hre.inv
    rw [← byteEncode_append, ← append_assoc]
    exact .cons (by simp [hne]) (ih hre')
  | case2 a b parts _ ih =>
    obtain ⟨chunk, _, rfl, hne, rfl, hre⟩ := h.inv
    exact .cons hne (ih hre)
  | case3 parts _ => exact h

lemma Chunked.mergeLoop (t : Tokenizer) (parts : List Bytes) (h : Chunked text parts) :
    Chunked text (mergeLoop t parts) := by
  fun_induction Tokenization.mergeLoop t parts with
  | case1 parts _ => exact h
  | case2 parts _ _ => exact h
  | case3 parts _ p _ ih => exact ih (h.mergePass p.1 p.2 parts)

lemma chunked_bpeParts (t : Tokenizer) (p : Bytes) : Chunked p (bpeParts t p) := by
  unfold bpeParts
  split
  next he =>
    rw [isEmpty_iff.1 he]
    exact chunked_nil
  next =>
    rw [utf8Parts_byteEncode]
    exact (chunked_symbols p).mergeLoop t _

lemma chunked_flatMap (t : Tokenizer) (ps : List Bytes) :
    Chunked ps.flatten (ps.flatMap (bpeParts t)) := by
  induction ps with
  | nil => exact chunked_nil
  | cons p ps ih =>
    rw [flatten_cons, flatMap_cons]
    exact (chunked_bpeParts t p).append ih

def NoneStarts (t : Tokenizer) (text : Bytes) : Prop :=
  ∀ item ∈ t.added, item.1 <+: text → item.1 = []

/-- The segments of a text: each added token is the longest one where it stands, and none starts
anywhere in the plain text in front of it. -/
inductive LeftmostLongest (t : Tokenizer) : Bytes → List Segment → Prop
  | last {plain : Bytes} (none : ∀ i < plain.length, NoneStarts t (plain.drop i)) :
      LeftmostLongest t plain [.plain plain]
  | token {plain content rest : Bytes} {id : UInt32} {segments : List Segment}
      (none : ∀ i < plain.length, NoneStarts t (plain.drop i ++ content ++ rest))
      (mem : (content, id) ∈ t.added) (nonempty : content ≠ [])
      (longest : ∀ item ∈ t.added, item.1 <+: content ++ rest → item.1.length ≤ content.length)
      (tail : LeftmostLongest t rest segments) :
      LeftmostLongest t (plain ++ content ++ rest) (.plain plain :: .added content id :: segments)

lemma foldl_matchAdded (rest : Bytes) (i : List (Bytes × UInt32)) {b b' : Bytes × UInt32}
    (h : i.foldl (fun b ite =>
      if b.1.length < ite.1.length ∧ ite.1.isPrefixOf rest then ite else b) b = b') :
    (b' = b ∨ (b' ∈ i ∧ b'.1 <+: rest)) ∧ b.1.length ≤ b'.1.length ∧
      ∀ ite ∈ i, ite.1 <+: rest → ite.1.length ≤ b'.1.length := by
  induction i generalizing b with
  | nil => exact ⟨.inl h.symm, le_of_eq (congrArg (·.1.length) h), nofun⟩
  | cons first i ih =>
    rw [foldl_cons] at h
    obtain ⟨hf, hl, ha⟩ := ih h
    by_cases hb : b.1.length < first.1.length ∧ first.1.isPrefixOf rest
    · rw [if_pos hb] at hf hl
      refine ⟨.inr ?_, by omega, forall_mem_cons.2 ⟨fun _ => hl, ha⟩⟩
      rcases hf with hfi | ⟨hm, hp⟩
      · rw [hfi]
        exact ⟨mem_cons_self, isPrefixOf_iff_prefix.1 hb.2⟩
      · exact ⟨mem_cons_of_mem _ hm, hp⟩
    · rw [if_neg hb] at hf hl
      refine ⟨?_, hl, forall_mem_cons.2 ⟨fun hp => ?_, ha⟩⟩
      · rcases hf with hbe | ⟨hm, hp⟩
        · exact .inl hbe
        · exact .inr ⟨mem_cons_of_mem _ hm, hp⟩
      · have : ¬ b.1.length < first.1.length := fun hlt =>
          hb ⟨hlt, isPrefixOf_iff_prefix.2 hp⟩
        omega

variable {t : Tokenizer}

lemma matchAdded_none (h : matchAdded t rest = none) : NoneStarts t rest := by
  unfold matchAdded at h
  dsimp only at h
  split at h
  next he =>
    intro i hi hp
    have := (@foldl_matchAdded rest t.added ([], 0) _ rfl).2.2 i hi hp
    rw [isEmpty_iff.1 he] at this
    exact eq_nil_of_length_eq_zero (le_zero.1 this)
  · cases h

variable {id : UInt32}

lemma matchAdded_some {co : Bytes} (h : matchAdded t rest = some (co, id)) :
    (co, id) ∈ t.added ∧ co <+: rest ∧
    ∀ i ∈ t.added, i.1 <+: rest → i.1.length ≤ co.length := by
  have hne := matchAdded_ne_nil h
  unfold matchAdded at h
  dsimp only at h
  split at h
  · cases h
  next =>
    have hbest := Option.some.inj h
    obtain ⟨hf, _, ha⟩ := foldl_matchAdded rest t.added hbest
    rcases hf with hs | ⟨hm, hp⟩
    · cases hs
      exact absurd rfl hne
    · exact ⟨hm, hp, ha⟩

lemma segments_leftmostLongest (t : Tokenizer) (p text : Bytes)
    (h : ∀ i < p.length, NoneStarts t (p.drop i ++ text)) :
    LeftmostLongest t (p ++ text) (segments t p text) := by
  fun_induction segments t p text with
  | case1 p =>
    rw [append_nil]
    exact .last fun i hi => by simpa using h i hi
  | case2 p c rest co id hma ih =>
    obtain ⟨hm, hp, hl⟩ := matchAdded_some hma
    obtain ⟨tail, ht⟩ := hp
    have hd : (c :: rest).drop co.length = tail := by
      rw [← ht, drop_left]
    rw [hd] at ih ⊢
    rw [← ht] at h hl ⊢
    rw [← append_assoc]
    refine .token (fun i hi => ?_) hm (matchAdded_ne_nil hma) hl ?_
    · rw [append_assoc]
      exact h i hi
    · have := ih nofun
      rwa [nil_append] at this
  | case3 p c rest hma ih =>
    have := ih fun i hi => by
      rw [length_append, length_singleton] at hi
      rcases lt_or_ge i p.length with hlt | hge
      · rw [drop_append_of_le_length (by omega), append_assoc]
        exact h i hlt
      · have hi' : i = p.length := by omega
        rw [hi', drop_left]
        exact matchAdded_none hma
    rwa [append_assoc] at this

inductive Spells (t : Tokenizer) : Symbol → Bytes → Prop
  | part {chunk : Bytes} (nonempty : chunk ≠ []) : Spells t (.part (byteEncode chunk)) chunk
  | added {content : Bytes} {id : UInt32} (mem : (content, id) ∈ t.added)
      (nonempty : content ≠ []) : Spells t (.added content id) content

inductive Spelled (t : Tokenizer) : List Symbol → Bytes → Prop
  | nil : Spelled t [] []
  | cons {symbol : Symbol} {symbols : List Symbol} {bytes text : Bytes}
      (head : Spells t symbol bytes) (tail : Spelled t symbols text) :
      Spelled t (symbol :: symbols) (bytes ++ text)

lemma Spelled.append {symbols : List Symbol} (h : Spelled t symbols text)
    (h' : Spelled t symbols' text') : Spelled t (symbols ++ symbols') (text ++ text') := by
  induction h with
  | nil => exact h'
  | cons he _ ih =>
    rw [append_assoc]
    exact .cons he ih

lemma Chunked.spelled (parts : List Bytes) (h : Chunked text parts) :
    Spelled t (parts.map .part) text := by
  induction parts generalizing text with
  | nil =>
    obtain ⟨cs, hp, rfl, _⟩ := h
    rw [map_eq_nil_iff.1 hp.symm]
    exact .nil
  | cons part parts ih =>
    obtain ⟨ch, text', rfl, hn, rfl, hr⟩ := h.inv
    exact .cons (.part hn) (ih hr)

lemma spelled_plain (t : Tokenizer) (text : Bytes) :
    Spelled t (segmentSymbols t (.plain text)) text := by
  have := chunked_flatMap t (pretokenize [] text)
  rw [flatten_pretokenize, nil_append] at this
  exact this.spelled _

lemma LeftmostLongest.spelled {ss : List Segment} (h : LeftmostLongest t text ss) :
    Spelled t (ss.flatMap (segmentSymbols t)) text := by
  induction h with
  | last _ =>
    rw [flatMap_singleton]
    exact spelled_plain t _
  | token _ hm hn _ _ ih =>
    rw [flatMap_cons, flatMap_cons, append_assoc]
    exact (spelled_plain t _).append (.cons (.added hm hn) ih)

/-- The conditions under which ids are read back: distinct vocabulary strings have distinct ids, no
added token shares an id or a content with the vocabulary or its id with another content, and
contents are not texts of the byte-level alphabet for something else. -/
structure ReadsBack (t : Tokenizer) : Prop where
  vocab : ∀ a ∈ t.vocab, ∀ b ∈ t.vocab, a.2 = b.2 → a.1 = b.1
  apart : ∀ a ∈ t.vocab, ∀ b ∈ t.added, a.2 ≠ b.2 ∧ a.1 ≠ b.1
  added : ∀ a ∈ t.added, ∀ b ∈ t.added, a.2 = b.2 → a.1 = b.1
  literal : ∀ a ∈ t.added, byteDecode a.1 = a.1

section
variable {t : Tokenizer} {id : UInt32}

lemma idToToken_eq {piece : Bytes} (hm : (piece, id) ∈ t.pieceWrites)
    (h : ∀ wr ∈ t.pieceWrites, wr.2 = id → wr.1 = piece) :
    t.idToToken id = some piece := by
  have ha : t.pieceWrites.all (·.2 < id) = false := by
    rw [all_eq_false]
    exact ⟨_, hm, by simp⟩
  rw [Tokenizer.idToToken, if_neg (by rw [ha]; decide)]
  cases hf : t.pieceWrites.reverse.find? (·.2 == id) with
  | none =>
    have := find?_eq_none.1 hf (piece, id) (mem_reverse.2 hm)
    simp at this
  | some wr =>
    have hwr := mem_reverse.1 (mem_of_find?_eq_some hf)
    have hi : wr.2 = id := by simpa using find?_some hf
    rw [Option.map_some, Option.getD_some, h wr hwr hi]

variable {token : Bytes} {capacity : Nat} {out : List UInt32} {symbols : List Symbol}

lemma mem_of_tokenToId (h : t.tokenToId token = some id) :
    (token, id) ∈ t.vocab ∨ (token, id) ∈ t.added := by
  rw [Tokenizer.tokenToId, Option.map_eq_some_iff] at h
  obtain ⟨e, hf, rfl⟩ := h
  have hm := mem_reverse.1 (mem_of_find?_eq_some hf)
  have hk : e.1 = token := by simpa using find?_some hf
  rw [← hk]
  exact mem_append.1 hm

variable (h : ReadsBack t)
include h

lemma idToToken_vocab (hm : (token, id) ∈ t.vocab) : t.idToToken id = some (byteDecode token) := by
  refine idToToken_eq (mem_append_left _ (mem_map_of_mem hm)) fun wr hw hi => ?_
  rcases mem_append.1 hw with hv | hadd
  · obtain ⟨e, he, rfl⟩ := mem_map.1 hv
    exact congrArg byteDecode (h.vocab e he _ hm hi)
  · exact absurd hi.symm (h.apart _ hm wr hadd).1

lemma idToToken_added {content : Bytes} (hm : (content, id) ∈ t.added) :
    t.idToToken id = some content := by
  refine idToToken_eq (mem_append_right _ hm) fun wr hw hi => ?_
  rcases mem_append.1 hw with hv | hadd
  · obtain ⟨e, he, rfl⟩ := mem_map.1 hv
    exact absurd hi (h.apart e he _ hm).1
  · exact h.added wr hadd _ hm hi

lemma idToToken_symbol {sy : Symbol} {bs : Bytes}
    (hsp : Spells t sy bs) (hi : symbolId t sy = some id) :
    t.idToToken id = some bs ∧ bs ≠ [] := by
  cases hsp with
  | part hn =>
    refine ⟨?_, hn⟩
    rcases mem_of_tokenToId hi with hv | hadd
    · rw [idToToken_vocab h hv, byteDecode_byteEncode]
    · have hs := h.literal _ hadd
      rw [byteDecode_byteEncode] at hs
      rw [idToToken_added h hadd]
      exact congrArg some hs.symm
  | added hm hn =>
    cases hi
    exact ⟨idToToken_added h hm, hn⟩

omit h

def Ids (t : Tokenizer) (symbols : List Symbol) (ids : List UInt32) : Prop :=
  List.Forall₂ (fun symbol id => symbolId t symbol = some id) symbols ids

variable {ids : List UInt32}

lemma emitAll_ok (symbols : List Symbol) (h : symbols.foldlM (emit t capacity) out = .ok ids) :
    ∃ new, Ids t symbols new ∧ ids = out ++ new := by
  induction symbols generalizing out with
  | nil =>
    cases h
    exact ⟨[], .nil, (append_nil _).symm⟩
  | cons sy symbols ih =>
    rw [foldlM_cons] at h
    obtain ⟨out', he, hr⟩ := bind_eq_ok.1 h
    unfold emit at he
    split at he
    · cases he
    next id hi =>
      split at he
      · cases he
      · cases he
        obtain ⟨new, hn, rfl⟩ := ih hr
        exact ⟨id :: new, .cons hi hn, by rw [append_assoc]; rfl⟩

lemma emitAll_eq (symbols : List Symbol) (hi : Ids t symbols ids) (ho : out.length ≤ capacity) :
    symbols.foldlM (emit t capacity) out =
    if out.length + ids.length ≤ capacity then .ok (out ++ ids) else .error .budget := by
  induction symbols generalizing out ids with
  | nil =>
    cases hi
    simp only [foldlM_nil, length_nil, add_zero, append_nil, if_pos ho]
    rfl
  | cons sy symbols ih =>
    cases hi with
    | @cons _ id _ ids hid hi =>
      rw [foldlM_cons, emit, hid]
      by_cases hf : capacity ≤ out.length
      · simp only [if_pos hf, length_cons]
        rw [if_neg (by omega)]
        rfl
      · simp only [if_neg hf]
        change symbols.foldlM (emit t capacity) (out ++ [id]) = _
        rw [ih hi (by simp; omega)]
        simp only [length_append, length_cons, length_nil, append_assoc, singleton_append]
        congr 1
        exact propext ⟨fun h => by omega, fun h => by omega⟩

lemma decodeAll_eq (h : ReadsBack t) (hs : Spelled t symbols text) (hi : Ids t symbols ids)
    {out : Bytes} (hr : out.length + text.length < capacity) :
    ids.foldlM (decodeId t capacity) out = .ok (out ++ text) := by
  induction hs generalizing ids out with
  | nil =>
    cases hi
    rw [append_nil]
    rfl
  | @cons sy symbols bs text hh _ ih =>
    cases hi with
    | @cons _ id _ ids hid hi =>
      obtain ⟨hp, hn⟩ := idToToken_symbol h hh hid
      rw [length_append] at hr
      rw [foldlM_cons, decodeId, hp]
      simp only [hn, false_and, if_false]
      rw [if_neg (by omega)]
      change ids.foldlM (decodeId t capacity) (out ++ bs) = _
      rw [ih hi (by rw [length_append]; omega), append_assoc]

lemma ids_ne_nil (hs : Spelled t symbols text) (hi : Ids t symbols ids) (hn : text ≠ []) :
    ids ≠ [] := by
  rintro rfl
  cases hi
  cases hs
  exact hn rfl
end

structure Complete (t : Tokenizer) : Prop where
  bytes : ∀ byte, byteSymbol byte ∈ t.vocab.map Prod.fst
  merges : ∀ merge ∈ t.merges, merge.1 ++ merge.2 ∈ t.vocab.map Prod.fst

lemma tokenToId_isSome {token : Bytes} (h : token ∈ t.vocab.map Prod.fst) :
    (t.tokenToId token).isSome := by
  obtain ⟨e, he, rfl⟩ := mem_map.1 h
  rw [Tokenizer.tokenToId, Option.isSome_map, find?_isSome]
  exact ⟨e, mem_reverse.2 (mem_append_left _ he), by simp⟩

lemma mergeKey_injective {a b a' b' : Bytes} (ha : (1 : UInt8) ∉ a) (hb : (1 : UInt8) ∉ b)
    (h : mergeKey a' b' = mergeKey a b) : a' = a ∧ b' = b := by
  unfold mergeKey at h
  induction a' generalizing a with
  | nil =>
    cases a with
    | nil => exact ⟨rfl, (cons.inj h).2⟩
    | cons c a =>
      have hc := (cons.inj h).1
      rw [hc] at ha
      exact absurd mem_cons_self ha
  | cons c' a' ih =>
    cases a with
    | nil =>
      have hre := (cons.inj h).2
      exact absurd (hre ▸ mem_append_right a' mem_cons_self) hb
    | cons c a =>
      obtain ⟨hc, hre⟩ := cons.inj h
      obtain ⟨rfl, rfl⟩ := ih (fun hm => ha (mem_cons_of_mem _ hm)) hre
      exact ⟨by rw [hc], rfl⟩

lemma mem_mergePass (parts : List Bytes) (h : part ∈ mergePass left right parts) :
    part ∈ parts ∨ part = left ++ right := by
  fun_induction mergePass left right parts with
  | case1 a b parts he ih =>
    rcases mem_cons.1 h with rfl | hm
    · rw [he.1, he.2]
      exact .inr rfl
    · rcases ih hm with hp | hjoin
      · exact .inl (mem_cons_of_mem _ (mem_cons_of_mem _ hp))
      · exact .inr hjoin
  | case2 a b parts _ ih =>
    rcases mem_cons.1 h with rfl | hm
    · exact .inl mem_cons_self
    · rcases ih hm with hp | hjoin
      · exact .inl (mem_cons_of_mem _ hp)
      · exact .inr hjoin
  | case3 parts _ => exact .inl h

lemma one_not_mem_of_chunked (h : Chunked text parts) : ∀ part ∈ parts, (1 : UInt8) ∉ part := by
  obtain ⟨cs, rfl, _, _⟩ := h
  intro part hp
  obtain ⟨ch, _, rfl⟩ := mem_map.1 hp
  exact one_not_mem_byteEncode ch

variable (h : Complete t)
include h

lemma known_of_mergeRank (hl : (1 : UInt8) ∉ left)
    (hri : (1 : UInt8) ∉ right) (hr : (mergeRank t (mergeKey left right)).isSome) :
    left ++ right ∈ t.vocab.map Prod.fst := by
  rw [mergeRank, Option.isSome_map, find?_isSome] at hr
  obtain ⟨⟨me, i⟩, hm, hk⟩ := hr
  obtain ⟨rfl, rfl⟩ := mergeKey_injective hl hri (eq_of_beq hk)
  exact h.merges me (fst_mem_of_mem_zipIdx (mem_reverse.1 hm))

lemma known_mergeLoop (parts : List Bytes) (hc : Chunked text parts)
    (hk : ∀ part ∈ parts, part ∈ t.vocab.map Prod.fst) :
    ∀ part ∈ mergeLoop t parts, part ∈ t.vocab.map Prod.fst := by
  fun_induction mergeLoop t parts with
  | case1 parts _ => exact hk
  | case2 parts _ _ => exact hk
  | case3 parts _ p hb ih =>
    refine ih (hc.mergePass p.1 p.2 parts) fun part hpa => ?_
    rcases mem_mergePass parts hpa with hm | rfl
    · exact hk part hm
    · obtain ⟨hp, hr⟩ := bestPair_spec hb
      have hone := one_not_mem_of_chunked hc
      exact known_of_mergeRank h (hone _ (of_mem_zip hp).1)
        (hone _ (mem_of_mem_tail (of_mem_zip hp).2)) hr

lemma known_bpeParts (p : Bytes) : ∀ part ∈ bpeParts t p, part ∈ t.vocab.map Prod.fst := by
  unfold bpeParts
  split
  · exact nofun
  · rw [utf8Parts_byteEncode]
    refine known_mergeLoop h _ (chunked_symbols p) fun part hp => ?_
    obtain ⟨b, _, rfl⟩ := mem_map.1 hp
    exact h.bytes b

lemma exists_ids (ss : List Segment) : ∃ ids, Ids t (ss.flatMap (segmentSymbols t)) ids := by
  have hso : ∀ sy ∈ ss.flatMap (segmentSymbols t), ∃ id, symbolId t sy = some id := by
    intro sy hs
    obtain ⟨se, _, hm⟩ := mem_flatMap.1 hs
    cases se with
    | plain text =>
      obtain ⟨part, hp, rfl⟩ := mem_map.1 hm
      obtain ⟨p, _, hpi⟩ := mem_flatMap.1 hp
      exact Option.isSome_iff_exists.1 (tokenToId_isSome (known_bpeParts h p part hpi))
    | added co id =>
      rw [mem_singleton.1 hm]
      exact ⟨id, rfl⟩
  generalize ss.flatMap (segmentSymbols t) = symbols at hso
  induction symbols with
  | nil => exact ⟨[], .nil⟩
  | cons sy symbols ih =>
    rw [forall_mem_cons] at hso
    obtain ⟨id, hid⟩ := hso.1
    obtain ⟨ids, hi⟩ := ih hso.2
    exact ⟨id :: ids, .cons hid hi⟩

omit h

inductive SegmentIds (t : Tokenizer) : List Segment → List UInt32 → Prop
  | nil : SegmentIds t [] []
  | plain {text : Bytes} {segments : List Segment} {ids rest : List UInt32}
      (head : Ids t (segmentSymbols t (.plain text)) ids) (tail : SegmentIds t segments rest) :
      SegmentIds t (.plain text :: segments) (ids ++ rest)
  | added {content : Bytes} {id : UInt32} {segments : List Segment} {rest : List UInt32}
      (tail : SegmentIds t segments rest) :
      SegmentIds t (.added content id :: segments) (id :: rest)

variable {ids : List UInt32}

lemma ids_append (symbols : List Symbol) (h : Ids t (symbols ++ symbols') ids) :
    ∃ ids₁ ids₂, Ids t symbols ids₁ ∧ Ids t symbols' ids₂ ∧ ids = ids₁ ++ ids₂ := by
  induction symbols generalizing ids with
  | nil => exact ⟨[], ids, .nil, h, rfl⟩
  | cons sy symbols ih =>
    cases h with
    | @cons _ id _ _ hi hr =>
      obtain ⟨ids₁, ids₂, h₁, h₂, rfl⟩ := ih hr
      exact ⟨id :: ids₁, ids₂, .cons hi h₁, h₂, rfl⟩

lemma segmentIds_of_ids (ss : List Segment)
    (h : Ids t (ss.flatMap (segmentSymbols t)) ids) : SegmentIds t ss ids := by
  induction ss generalizing ids with
  | nil =>
    cases h
    exact .nil
  | cons se ss ih =>
    rw [flatMap_cons] at h
    cases se with
    | plain text =>
      obtain ⟨ids₁, ids₂, hh, ht, rfl⟩ := ids_append _ h
      exact .plain hh (ih ht)
    | added co id =>
      cases h with
      | cons hi hr =>
        cases hi
        exact .added (ih hr)

lemma ids_of_encodeText (hn : (0 : UInt8) ∉ text) (he : encodeText t text capacity = .ok ids) :
    Ids t ((segments t [] text).flatMap (segmentSymbols t)) ids := by
  unfold encodeText at he
  rw [cString_of_not_mem hn] at he
  split at he
  · cases he
  · obtain ⟨new, hnw, rfl⟩ := emitAll_ok _ he
    exact hnw

lemma decodeIds_encodeText (h : ReadsBack t) (hn : (0 : UInt8) ∉ text) (hne : text ≠ [])
    (he : encodeText t text capacity = .ok ids) {outCapacity : Nat}
    (hr : text.length < outCapacity) : decodeIds t ids outCapacity = .ok text := by
  have hi := ids_of_encodeText hn he
  have hsp := (segments_leftmostLongest t [] text (by simp)).spelled
  have hnon := ids_ne_nil hsp hi hne
  rw [decodeIds, if_neg (by simp [hnon]; omega)]
  have := @decodeAll_eq _ t outCapacity _ _ h hsp hi [] (by simpa using hr)
  rwa [nil_append] at this

theorem tokenizer_round_trip (t : Tokenizer) (h : ReadsBack t) :
    (∀ text capacity ids outCapacity, (0 : UInt8) ∉ text → text ≠ [] →
      encodeText t text capacity = .ok ids → text.length < outCapacity →
      decodeIds t ids outCapacity = .ok text) ∧
    (Complete t → ∀ text, (0 : UInt8) ∉ text → ∃ ids, ∀ capacity, 0 < capacity →
      encodeText t text capacity =
        if ids.length ≤ capacity then .ok ids else .error .budget) ∧
    ∀ text capacity ids, (0 : UInt8) ∉ text → encodeText t text capacity = .ok ids →
      ∃ segments, LeftmostLongest t text segments ∧ SegmentIds t segments ids := by
  refine ⟨fun text capacity ids outCapacity hn hne he hr => decodeIds_encodeText h hn hne he hr,
    fun hc text hn => ?_, fun text capacity ids hn he => ?_⟩
  · obtain ⟨ids, hi⟩ := exists_ids hc (segments t [] text)
    refine ⟨ids, fun capacity hca => ?_⟩
    rw [encodeText, if_neg (by omega), cString_of_not_mem hn, emitAll_eq _ hi (Nat.zero_le _)]
    simp
  · exact ⟨_, segments_leftmostLongest t [] text (by simp),
      segmentIds_of_ids _ (ids_of_encodeText hn he)⟩

lemma bpeParts_singleton (t : Tokenizer) (b : UInt8) : bpeParts t [b] = [byteSymbol b] := by
  rw [bpeParts, if_neg (by simp), utf8Parts_byteEncode, map_singleton, mergeLoop, if_pos (by simp)]

lemma segments_empty (t : Tokenizer) (p : Bytes) : segments t p [] = [.plain p] := by
  rw [segments]

lemma pretokenize_empty (p : Bytes) : pretokenize p [] = [p] := by
  rw [pretokenize]

lemma pretokenize_space : pretokenize [] [32] = [[], [32], []] := by
  rw [pretokenize, if_neg (by decide), if_pos (by decide)]
  dsimp only
  rw [show (blankPieces (([32] : Bytes).takeWhile isBlank) (([32] : Bytes).dropWhile isBlank))
    = ([[32]], []) by decide, pretokenize_empty]
  rfl

def addedOnly (added : List (Bytes × UInt32)) : Tokenizer := ⟨[], added, []⟩

lemma encodeText_match {rest : Bytes} (hn : (0 : UInt8) ∉ c :: rest)
    (h : matchAdded t (c :: rest) = some (c :: rest, id)) :
    encodeText t (c :: rest) 1 = .ok [id] := by
  have hs : segments t [] (c :: rest) = [.plain [], .added (c :: rest) id, .plain []] := by
    rw [segments]
    split
    next co id' h' =>
      rw [h] at h'
      cases h'
      rw [drop_length, segments_empty]
    next h' =>
      rw [h] at h'
      cases h'
  rw [encodeText, if_neg (by decide), cString_of_not_mem hn, hs]
  simp only [flatMap_cons, flatMap_nil, segmentSymbols, pretokenize_empty]
  rfl

lemma encodeText_space (h : matchAdded t [32] = none)
    (hi : t.tokenToId (byteSymbol 32) = some id) : encodeText t [32] 1 = .ok [id] := by
  have hs : segments t [] [32] = [.plain [32]] := by
    rw [segments]
    split
    next h' =>
      rw [h] at h'
      cases h'
    next => rw [segments_empty]; rfl
  rw [encodeText, if_neg (by decide), cString_of_not_mem (by decide), hs]
  simp only [flatMap_cons, flatMap_nil, segmentSymbols, pretokenize_space, bpeParts_singleton]
  change ([Symbol.part (byteSymbol 32)]).foldlM (emit t 1) [] = _
  rw [foldlM_cons, emit, symbolId, hi]
  rfl

/-- The empty text has no ids to decode; of two added tokens with one id the last one is decoded;
and an added token can be found where the byte-level alphabet writes a space. -/
theorem round_trip_fails : (encodeText (addedOnly []) [] 1 = .ok [] ∧
      decodeIds (addedOnly []) [] 8 = .error .invalidArgument) ∧
    (encodeText (addedOnly [([97], 1), ([98], 1)]) [97] 1 = .ok [1] ∧
      decodeIds (addedOnly [([97], 1), ([98], 1)]) [1] 8 = .ok [98]) ∧
    (encodeText (addedOnly [([0xc4, 0xa0], 1)]) [32] 1 = .ok [1] ∧
      decodeIds (addedOnly [([0xc4, 0xa0], 1)]) [1] 8 = .ok [0xc4, 0xa0]) := by
  refine ⟨⟨?_, rfl⟩, ⟨encodeText_match (by decide) (by decide), rfl⟩,
    ⟨encodeText_space (by decide) (by decide), rfl⟩⟩
  rw [encodeText, if_neg (by decide), cString_of_not_mem (by decide), segments_empty]
  simp only [flatMap_cons, flatMap_nil, segmentSymbols, pretokenize_empty]
  rfl

def smallTokenizer : Tokenizer := ⟨[([97], 0), ([97, 97], 1)], [([60, 120, 62], 2)], [([97], [97])]⟩

lemma readsBack_smallTokenizer : ReadsBack smallTokenizer := by
  refine ⟨by decide, by decide, by decide, fun a ha => ?_⟩
  have hc : a.1 = byteEncode [60, 120, 62] := by
    rw [mem_singleton.1 ha]
    decide
  rw [hc, byteDecode_byteEncode]
  decide

theorem tokenizer_round_trip_small : ReadsBack smallTokenizer ∧
    encodeText smallTokenizer [60, 120, 62] 1 = .ok [2] ∧
    decodeIds smallTokenizer [2] 8 = .ok [60, 120, 62] := by
  have he : encodeText smallTokenizer [60, 120, 62] 1 = .ok [2] :=
    encodeText_match (by decide) (by decide)
  exact ⟨readsBack_smallTokenizer, he, (tokenizer_round_trip smallTokenizer
    readsBack_smallTokenizer).1 _ _ _ _ (by decide) (by decide) he (by decide)⟩

end AxiomKernel.Tokenization
