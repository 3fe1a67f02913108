import AxiomKernel.Qwen38.Api.ResponsesRuns

/-!
# The content stream

`live_chat_emit_token` and `live_responses_emit_token` hold back what may be the beginning of a tool
call. However the text is split, the content deltas add up to what stands before the first call.
-/
namespace AxiomKernel.Qwen38.Api

open Codex Image Text Search Tools List

/-- The fields of an open `live_chat_stream` that the text goes through, and the contents of the
chunks written so far. -/
structure LiveChatStream where
  rawText : Bytes := []
  emittedBytes : Nat := 0
  contents : List Bytes := []

def liveChatFlushText (s : LiveChatStream) (final : Bool) : LiveChatStream :=
  if safeTextEnd s.rawText final ≤ s.emittedBytes then s
  else
    { s with
      contents := s.contents ++
        [(s.rawText.drop s.emittedBytes).take (safeTextEnd s.rawText final - s.emittedBytes)]
      emittedBytes := safeTextEnd s.rawText final }

def liveChatEmitToken (s : LiveChatStream) (piece : Bytes) : LiveChatStream :=
  liveChatFlushText { s with rawText := s.rawText ++ piece } false

/-- The offset up to which the text was emitted, and the content deltas together. -/
def LiveChatStream.received (s : LiveChatStream) : Nat × Bytes :=
  (s.emittedBytes, s.contents.flatten)

def ResponsesStream.received (s : ResponsesStream) : Nat × Bytes :=
  (s.emittedBytes, s.sent.flatMap Event.delta)

def beforeToolCall (text : Bytes) : Bytes :=
  match find toolOpen text with
  | some start => text.take start
  | none => text

/-- For every split of a text into pieces: after each piece the deltas are a beginning of what
stands before the first call, the offset does not decrease, and the final flush delivers all. -/
def DeliversContent (after flushed : List Bytes → Nat × Bytes) : Prop :=
  ∀ pieces, (flushed pieces).2 = beforeToolCall pieces.flatten ∧
    (after pieces).1 ≤ (flushed pieces).1 ∧
    ∀ more, (after pieces).2 <+: beforeToolCall (pieces ++ more).flatten ∧
      (after pieces).1 ≤ (after (pieces ++ more)).1

lemma liveChatFlushText_ends {s : LiveChatStream}
    (h : s.contents.flatten = s.rawText.take s.emittedBytes) (f : Bool) :
    (liveChatFlushText s f).rawText = s.rawText ∧ (liveChatFlushText s f).received =
    (max s.emittedBytes (safeTextEnd s.rawText f),
    s.rawText.take (max s.emittedBytes (safeTextEnd s.rawText f))) := by
  unfold liveChatFlushText
  split_ifs with hs
  · rw [max_eq_left hs, ← h]
    exact ⟨rfl, rfl⟩
  · have hlt := not_le.1 hs
    rw [max_eq_right hlt.le, LiveChatStream.received, flatten_append, h, flatten_singleton,
      ← take_add, Nat.add_sub_cancel' hlt.le]
    exact ⟨rfl, rfl⟩

variable {m : Restorer} {s : ResponsesStream}

lemma Emitting.received (h : Emitting s []) :
    s.received = (s.emittedBytes, s.rawText.take s.emittedBytes) := by
  rw [ResponsesStream.received, h.log.delta]

lemma received_flushText (h : Emitting s []) : (leaves (flushText m s true)).received =
    (max s.emittedBytes (safeTextEnd s.rawText true),
    s.rawText.take (max s.emittedBytes (safeTextEnd s.rawText true))) := by
  obtain ⟨s', hs', he, hs⟩ := flushText_ok (m := m) h true
  rw [hs', leaves, he.received, hs.emittedBytes, hs.rawText]

/-- What was emitted stays before the first call however the text goes on. -/
lemma Streaming.isPrefix (h : Streaming s) (mo : Bytes) :
    s.rawText.take s.emittedBytes <+: beforeToolCall (s.rawText ++ mo) := by
  rw [← take_append_of_le_length h.emitting.bound, beforeToolCall]
  split
  next st hs => exact take_prefix_take_left (h.held mo st hs)
  · exact take_prefix ..

lemma Streaming.take_safeTextEnd (h : Streaming s) :
    s.rawText.take (max s.emittedBytes (safeTextEnd s.rawText true)) =
    beforeToolCall s.rawText := by
  rw [max_eq_right (emitted_le_safeTextEnd h), safeTextEnd, beforeToolCall]
  cases find toolOpen s.rawText with
  | some st => rfl
  | none => simp

/-- After the same pieces the two streams have the same text and sent the same. -/
structure InStep (c : LiveChatStream) (s : ResponsesStream) : Prop where
  rawText : c.rawText = s.rawText
  received : c.received = s.received

variable {c : LiveChatStream} (h : Streaming s)
include h

lemma InStep.flush (hc : InStep c s) :
    (liveChatFlushText c true).received = (leaves (flushText m s true)).received := by
  obtain ⟨he, hco⟩ := Prod.mk.inj (hc.received.trans h.emitting.received)
  rw [received_flushText h.emitting, ← he, ← hc.rawText]
  refine (liveChatFlushText_ends ?_ true).2
  rw [hco, he, hc.rawText]

lemma InStep.piece (hc : InStep c s) (piece : Bytes) :
    InStep (liveChatEmitToken c piece) (live m s (.piece piece)) := by
  obtain ⟨hn, hr, hm⟩ := h.piece (m := m) piece
  obtain ⟨he, hco⟩ := Prod.mk.inj (hc.received.trans h.emitting.received)
  obtain ⟨hr', hre⟩ := liveChatFlushText_ends (s := { c with rawText := c.rawText ++ piece }) (by
      rw [hco, he, hc.rawText, take_append_of_le_length h.emitting.bound]) false
  refine ⟨hr'.trans ?_, hre.trans ?_⟩
  · rw [hr, hc.rawText]
  · rw [hn.emitting.received, hm, hr, he, hc.rawText]

lemma InStep.pieces (hc : InStep c s) (ps : List Bytes) :
    InStep (ps.foldl liveChatEmitToken c) ((ps.map .piece).foldl (live m) s) := by
  induction ps generalizing c s with
  | nil => exact hc
  | cons p ps ih => exact ih (h.piece p).1 (hc.piece h p)

lemma Streaming.pieces (pieces : List Bytes) :
    Streaming ((pieces.map .piece).foldl (Api.live m) s) ∧
    ((pieces.map .piece).foldl (Api.live m) s).rawText = s.rawText ++ pieces.flatten ∧
    s.emittedBytes ≤ ((pieces.map .piece).foldl (Api.live m) s).emittedBytes := by
  induction pieces generalizing s with
  | nil => exact ⟨h, (append_nil _).symm, le_rfl⟩
  | cons piece pieces ih =>
    obtain ⟨hne, hraw, hmax⟩ := h.piece (m := m) piece
    obtain ⟨hla, hre, hle⟩ := ih hne
    rw [hraw, append_assoc] at hre
    exact ⟨hla, hre, (hmax ▸ le_max_left _ _).trans hle⟩

omit h

/-- Both streams deliver what stands before the first tool call, for every split of the text. -/
theorem content_before_tool_call (m : Restorer) (responseId messageId sessionId : Bytes)
    (createdAt : Int) :
    DeliversContent (fun pieces => (pieces.foldl liveChatEmitToken {}).received)
      (fun pieces => (liveChatFlushText (pieces.foldl liveChatEmitToken {}) true).received) ∧
    DeliversContent (fun pieces =>
        (generated m responseId messageId sessionId createdAt (pieces.map .piece)).received)
      fun pieces => (leaves (flushText m (generated m responseId messageId sessionId createdAt
        (pieces.map .piece)) true)).received := by
  obtain ⟨hst, hr, he⟩ :=
    streaming_start (m := m) responseId messageId sessionId createdAt
  have hs := InStep.pieces (m := m) (c := {}) hst
    ⟨hr.symm, by rw [hst.emitting.received, he]; rfl⟩
  have ha := hst.pieces (m := m)
  rw [show (fun pieces : List Bytes => _) = _ from funext fun pieces => (hs pieces).received,
    show (fun pieces : List Bytes => _) = _ from
      funext fun pieces => (hs pieces).flush (m := m) (ha pieces).1]
  refine (and_self _).mpr fun pieces => ?_
  dsimp only [generated]
  obtain ⟨h, ht, -⟩ := ha pieces
  rw [hr, nil_append] at ht
  have hfl := received_flushText (m := m) h.emitting
  refine ⟨?_, ?_, fun mo => ⟨?_, ?_⟩⟩
  · rw [hfl, ← ht]
    exact h.take_safeTextEnd
  · rw [hfl]
    exact le_max_left ..
  · rw [h.emitting.received, flatten_append, ← ht]
    exact h.isPrefix mo.flatten
  · rw [map_append, foldl_append]
    exact (h.pieces mo).2.2

end AxiomKernel.Qwen38.Api
