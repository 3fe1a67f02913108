import AxiomKernel.Qwen38.Api.ResponsesConsistency

/-!
# Whole responses

While the model generates, the deltas add up to the beginning of the raw text, and no tool call can
begin inside it. At the end the text is computed anew; the response is consistent exactly when that
text holds no tool call and the data of the last events can be restored.
-/
namespace AxiomKernel.Qwen38.Api

open Ajson Image Text Search Codex Tools List Nat
open Option hiding mem_map

lemma toolOpen_ne_nil : toolOpen ≠ [] := by decide

variable {text : Bytes}

lemma le_heldBack {n k : Nat} (hk : k ≤ n) (h : text.drop (text.length - k) = toolOpen.take k) :
    k ≤ heldBack text n := by
  induction n with
  | zero => omega
  | succ n ih =>
    rw [heldBack]
    split
    · exact hk
    next hn =>
      refine ih ?_
      rcases lt_or_ge n k with hl | hge
      · obtain rfl : k = n + 1 := by omega
        exact absurd h hn
      · exact hge

lemma safeTextEnd_le (text : Bytes) (fi : Bool) : safeTextEnd text fi ≤ text.length := by
  unfold safeTextEnd
  split
  next st hs =>
    have := find_length hs
    omega
  · split
    · exact le_refl _
    · exact sub_le _ _

lemma safeTextEnd_le_find {mo : Bytes} {j : Nat} (h : find toolOpen (text ++ mo) = some j) :
    safeTextEnd text false ≤ j := by
  unfold safeTextEnd
  split
  next st hst =>
    rw [find_append toolOpen_ne_nil hst] at h
    exact (some.inj h).le
  next hn =>
    rcases lt_or_ge j text.length with hl | hge
    · -- the call that begins in the text reaches beyond it, so its beginning is held back
      have hb : ¬ j + 11 ≤ text.length := by
        intro hle
        have hta := find_take toolOpen_ne_nil (text ++ mo) text.length
        rw [take_left, hn, h, bind_some,
          if_pos (show j + toolOpen.length ≤ text.length from hle)] at hta
        cases hta
      have hs : ((text ++ mo).drop j).take 11 = toolOpen := find_stands h
      have hsu : text.drop (text.length - (text.length - j)) = toolOpen.take (text.length - j) := by
        rw [← hs, take_take, Nat.sub_sub_self (le_of_lt hl), drop_append_of_le_length (le_of_lt hl),
          take_left' (by rw [length_drop]; omega)]
      have hheld := le_heldBack (n := min text.length (toolOpen.length - 1))
        (by change _ ≤ min text.length 10; omega) hsu
      have he : text.isEmpty = false := by
        rw [isEmpty_eq_false_iff]
        exact ne_nil_of_length_pos (by omega)
      simp only [he, Bool.or_self, Bool.false_eq_true, if_false]
      omega
    · have := safeTextEnd_le text false
      simp only [safeTextEnd, hn] at this
      omega

section
variable {m : Restorer}

lemma says_startMessage (id : Bytes) :
    SaysAll m [(.itemAdded, itemData 0 (messageItem id "in_progress" [])),
    (.partAdded, contentData id "part" (outputText []))] [] [] :=
  .quiet rfl (fun _ _ _ => ⟨rfl, rfl⟩) (.quiet rfl (fun _ _ _ => ⟨rfl, rfl⟩) .nil)

lemma restores_startMessage (id : Bytes) :
    Restores m [(.itemAdded, itemData 0 (messageItem id "in_progress" [])),
    (.partAdded, contentData id "part" (outputText []))] := by
  intro e he
  rcases mem_cons.1 he with rfl | he
  · obtain ⟨i, hi⟩ := (plain_messageItem id "in_progress" []).restores (m := m)
    exact itemData_restores hi
  · rw [mem_singleton.1 he]
    exact (plain_part id _).restores

variable {s : ResponsesStream} {texts : List (Option Bytes)}

lemma startMessage_ok {d : Bytes} (h : Log s d texts) :
    ∃ s', startMessage m s = .ok s' ∧ Log s' d texts ∧
      SameMessage { s with messageStarted := true } s' := by
  cases hst : s.messageStarted with
  | true =>
    refine ⟨s, ?_, h, ⟨rfl, rfl, rfl, rfl, hst⟩⟩
    simp [startMessage, h.isOpen, hst]
  | false =>
    have hl : Log { s with messageStarted := true } d texts :=
      ⟨h.isOpen, h.running, h.count, h.numbered, h.nonterminal, h.delta, h.texts⟩
    obtain ⟨s', hs', hl', hs⟩ := sendAll_ok (says_startMessage s.messageId)
      (restores_startMessage (m := m) s.messageId) hl
    refine ⟨s', ?_, by simpa using hl', hs⟩
    rw [startMessage, if_neg (by simp [h.isOpen]), if_neg (by simp [hst])]
    exact hs'

/-- The stream while text is emitted: the deltas add up to the beginning of the raw text. -/
structure Emitting (s : ResponsesStream) (texts : List (Option Bytes)) : Prop where
  log : Log s (s.rawText.take s.emittedBytes) texts
  bound : s.emittedBytes ≤ s.rawText.length

lemma flushText_ok (h : Emitting s texts) (final : Bool) :
    ∃ s', flushText m s final = .ok s' ∧ Emitting s' texts ∧ SameMessage { s with
          emittedBytes := max s.emittedBytes (safeTextEnd s.rawText final)
          messageStarted := s.messageStarted ||
            decide (s.emittedBytes < safeTextEnd s.rawText final) } s' := by
  by_cases hsa : safeTextEnd s.rawText final ≤ s.emittedBytes
  · refine ⟨s, ?_, h, ⟨rfl, rfl, rfl, (Nat.max_eq_left hsa).symm, ?_⟩⟩
    · simp [flushText, h.log.isOpen, if_pos hsa]
    · simp [not_lt.2 hsa]
  · have hlt : s.emittedBytes < safeTextEnd s.rawText final := Nat.lt_of_not_le hsa
    obtain ⟨st, hst, hl, hs⟩ := startMessage_ok (m := m) h.log
    obtain ⟨v, hv⟩ := (plain_delta s.messageId (.str ((s.rawText.drop s.emittedBytes).take
      (safeTextEnd s.rawText final - s.emittedBytes)))).restores (m := m)
    obtain ⟨hde, ht⟩ := says_delta _ _ st.sequenceNumber v hv
    have hpush := hl.push rfl hde ht
    have hd : s.rawText.take s.emittedBytes ++ (s.rawText.drop s.emittedBytes).take
        (safeTextEnd s.rawText final - s.emittedBytes) =
          s.rawText.take (safeTextEnd s.rawText final) := by
      rw [← take_add, Nat.add_sub_cancel' (le_of_lt hlt)]
    rw [hd, append_nil] at hpush
    refine ⟨{ st.push .textDelta v with emittedBytes := safeTextEnd s.rawText final }, ?_,
      ⟨?_, ?_⟩, ⟨hs.messageId, hs.createdAt, hs.rawText, (max_eq_right (le_of_lt hlt)).symm, ?_⟩⟩
    · rw [flushText, if_neg (by simp [h.log.isOpen]), if_neg hsa, hst]
      change sendEvent m st .textDelta _ >>= _ = _
      rw [sendEvent_ok hl .textDelta hv]
      rfl
    · change Log _ (st.rawText.take _) texts
      rw [hs.rawText]
      exact ⟨hpush.isOpen, hpush.running, hpush.count, hpush.numbered,
        hpush.nonterminal, hpush.delta, hpush.texts⟩
    · change _ ≤ st.rawText.length
      rw [hs.rawText]
      exact safeTextEnd_le s.rawText final
    · change st.messageStarted = _
      rw [hs.messageStarted]
      simp [hlt]

lemma response_restores {v : Ajson} (hob : ∃ ms, v = .obj ms)
    (ht : v.member (ascii "type") = none)
    (hc : ∀ key ∈ [ascii "item", ascii "response"], v.member key = none)
    {i is' : List Ajson} (hou : v.member (ascii "output") = some (.arr i))
    (hi : i.mapM (restore m) = .ok is') :
    ∃ data, restore m (object [("response", v)]) = .ok data := by
  obtain ⟨ms, rfl⟩ := hob
  obtain ⟨v', hv'⟩ : ∃ v', restore m (.obj ms) = .ok v' := by
    refine restore_isOk (isCall_of_untyped ht) ?_ ?_
    · intro key hk ch hf
      cases (hc key hk).symm.trans hf
    · intro o ho
      obtain rfl := Ajson.arr.inj (some.inj (hou.symm.trans ho))
      exact ⟨is', hi⟩
  exact responseData_restores hv'

def stubNames : List String :=
  ["id", "object", "created_at", "status", "model", "output", "output_text", "parallel_tool_calls",
    "axiom"]

section
variable (s : ResponsesStream) (value : Option Ajson)

lemma member_stub : (responsesStub s value).member (ascii "type") = none ∧
    (∀ key ∈ [ascii "item", ascii "response"], (responsesStub s value).member key = none) ∧
    (responsesStub s value).member (ascii "output") = some (.arr []) := by
  refine ⟨member_object stubNames 9 rfl (by decide), ?_, member_object stubNames 5 rfl (by decide)⟩
  intro key hk
  exact member_object stubNames 9 rfl ((by decide : ∀ key ∈ [ascii "item", ascii "response"],
    (stubNames.map ascii).idxOf key = 9) key hk)

lemma stub_restores :
    ∃ data, restore m (object [("response", responsesStub s value)]) = .ok data := by
  obtain ⟨ht, hc, ho⟩ := member_stub s value
  have hi : ([] : List Ajson).mapM (restore m) = .ok [] := rfl
  exact response_restores ⟨_, rfl⟩ ht hc ho hi

lemma failedResponse_spec (me : Bytes) (co : String) :
    (∃ d, restore m (object [("response", failedResponse s value me co)]) = .ok d) ∧
    ∃ texts, Says m .failed (object [("response", failedResponse s value me co)]) [] texts ∧
    ∀ text ∈ texts, text = some (s.rawText.take s.emittedBytes) := by
  set shown := s.rawText.take s.emittedBytes
  set item := messageItem s.messageId "incomplete" [outputText shown]
  obtain ⟨hty, hc, hou⟩ := member_stub s value
  -- the three fields written on top of the stub
  let written : List (Bytes × Ajson) := [(ascii "status", .str (ascii "failed")),
    (ascii "error", object [("code", .str (ascii co)), ("message", .str me)]),
    (ascii "output_text", .str shown)]
  obtain ⟨response, hr⟩ : ∃ response, response = setAll (responsesStub s value) written := ⟨_, rfl⟩
  obtain ⟨ho, hkp⟩ := setAll_spec written (show responsesStub s value = .obj _ from rfl)
  rw [← hr] at ho hkp
  have hkp : ∀ key ∈ [ascii "type", ascii "item", ascii "response", ascii "output"],
      response.member key = (responsesStub s value).member key := fun key hk =>
    hkp key ((by decide : ∀ key ∈ [ascii "type", ascii "item", ascii "response", ascii "output"],
      key ∉ [ascii "status", ascii "error", ascii "output_text"]) key hk)
  have ht : response.member (ascii "output_text") = some (.str shown) := by
    rw [hr]
    exact member_setAll (responsesStub s value) [_, _] [] _ (by simp)
  have hty := (hkp _ (by decide)).trans hty
  have hou := (hkp _ (by decide)).trans hou
  have hc : ∀ key ∈ [ascii "item", ascii "response"], response.member key = none :=
    fun key hk => (hkp key ((by decide : ∀ key ∈ [ascii "item", ascii "response"],
      key ∈ [ascii "type", ascii "item", ascii "response", ascii "output"]) key hk)).trans
        (hc key hk)
  have hf : failedResponse s value me co =
      if s.messageStarted then response.set (ascii "output") (.arr [item]) else response := by
    rw [hr]
    rfl
  rw [hf]
  cases s.messageStarted with
  | false =>
    have hit : ([] : List Ajson).mapM (restore m) = .ok [] := rfl
    simp only [Bool.false_eq_true, if_false]
    exact ⟨response_restores ho hty hc hou hit, _, says_response rfl ht hou, by simp⟩
  | true =>
    obtain ⟨ms, hmb⟩ := ho
    obtain ⟨i, hi⟩ := (plain_messageItem s.messageId "incomplete"
      [outputText shown]).restores (m := m)
    have hit : [item].mapM (restore m) = .ok [i] := by
      rw [mapM_cons, hi]
      rfl
    obtain ⟨hms, hme⟩ := message_messageItem s.messageId shown "incomplete"
    have ht' : (response.set (ascii "output") (.arr [item])).member (ascii "output_text") = _ :=
      (member_set_ne hmb (by decide) _).trans ht
    simp only [if_true]
    refine ⟨response_restores (isObj_set ..) ?_ ?_ (member_set_self ..) hit, _,
      says_response rfl ht' (member_set_self ..), ?_⟩
    · rw [member_set_ne hmb (by decide), hty]
    · intro key hk
      rw [member_set_ne hmb, hc key hk]
      exact (by decide : ∀ key ∈ [ascii "item", ascii "response"], key ≠ ascii "output") key hk
    · intro text hm
      simpa [item, hms, hme] using hm

end

lemma sendError_ok (h : Emitting s []) (value : Option Ajson) (me : Bytes) (co : String) :
    ∃ s', sendError m s value me co = .ok s' ∧ Consistent s'.sent ∧
    s'.terminalSent = true := by
  obtain ⟨⟨v, hv⟩, texts, hsaid, ha⟩ := failedResponse_spec (m := m) s value me co
  obtain ⟨hd, ht⟩ := hsaid s.sequenceNumber v hv
  refine ⟨s.push .failed v, ?_, (h.log.consistent_iff rfl hd ht).2 ha, rfl⟩
  rw [sendError, if_neg (by simp [h.log.isOpen]), if_neg (by simp [h.log.running])]
  exact sendEvent_ok h.log .failed hv

section
variable (s : ResponsesStream) (text : Bytes) (incomplete : Bool)

lemma says_messageDoneAll :
    SaysAll m (messageDone s text incomplete) [] [some text, some text, some text] :=
  .cons rfl (says_textDone s.messageId text) (.cons rfl (says_partDone s.messageId text)
    (.cons rfl (says_messageDone 0 s.messageId text _) .nil))

lemma restores_messageDone : Restores m (messageDone s text incomplete) := by
  intro e he
  simp only [messageDone, mem_cons, not_mem_nil, or_false] at he
  rcases he with rfl | rfl | rfl
  · exact (plain_text _ _).restores
  · exact (plain_part _ _).restores
  · obtain ⟨i, hi⟩ := (plain_messageItem s.messageId
      (if incomplete then "incomplete" else "completed") [outputText text]).restores (m := m)
    exact itemData_restores hi

end

lemma finishMessage_ok {d : Bytes} (h : Log s d []) (text : Bytes) (incomplete : Bool) :
    ∃ s' texts, finishMessage m s text incomplete = .ok s' ∧ Log s' d texts ∧
    SameMessage s s' ∧ ∀ t ∈ texts, t = some text := by
  cases hst : s.messageStarted with
  | false =>
    refine ⟨s, [], ?_, h, .refl s, nofun⟩
    rw [finishMessage, if_pos (by simp [hst])]
  | true =>
    obtain ⟨s', hs', hl, hs⟩ := sendAll_ok (says_messageDoneAll s text incomplete)
      (restores_messageDone (m := m) s text incomplete) h
    refine ⟨s', _, ?_, by simpa using hl, hs, by simp⟩
    rw [finishMessage, if_neg (by simp [hst, h.isOpen])]
    exact hs'

lemma isMessage_searchItem (ca : Call) (st ar : Bytes) :
    isMessage (searchItem ca st ar) = false := by
  have ht : (searchItem ca st ar).stringField "type" = ascii "function_call" := by
    refine stringField_of_field ?_
    rw [field_eq_member (by decide)]
    exact member_object ["type", "name", "id", "call_id", "status", "arguments"] 0 rfl (by decide)
  rw [isMessage, ht]
  decide

lemma isMessage_callItem (ca : Call) (cu : Bool) (st : String) (value : Bytes) :
    isMessage (callItem ca cu st value) = false := by
  cases cu with
  | true =>
    have ht : (callItem ca true st value).stringField "type" =
        ascii "custom_tool_call" := by
      refine stringField_of_field ?_
      rw [field_eq_member (by decide)]
      exact member_object ["id", "type", "status", "call_id", "name", "input"] 1 rfl (by decide)
    rw [isMessage, ht]
    decide
  | false =>
    have ht : (callItem ca false st value).stringField "type" = ascii "function_call" := by
      refine stringField_of_field ?_
      rw [field_eq_member (by decide)]
      exact member_object ["id", "type", "status", "call_id", "name", "arguments"] 1 rfl (by decide)
    rw [isMessage, ht]
    decide

lemma says_callEvents (ts : Option Ajson) (ca : Call) (i : Nat) :
    SaysAll m (callEvents m ts ca i) [] [] := by
  unfold callEvents
  split
  · exact .quiet rfl (fun _ _ _ => ⟨rfl, rfl⟩)
      (.quiet rfl (says_callDone i (isMessage_searchItem ..)) .nil)
  · cases isCustom ts ca.name with
    | true =>
      exact .quiet rfl (fun _ _ _ => ⟨rfl, rfl⟩) (.quiet rfl (fun _ _ _ => ⟨rfl, rfl⟩)
        (.quiet rfl (fun _ _ _ => ⟨rfl, rfl⟩)
          (.quiet rfl (says_callDone i (isMessage_callItem ..)) .nil)))
    | false =>
      exact .quiet rfl (fun _ _ _ => ⟨rfl, rfl⟩) (.quiet rfl (fun _ _ _ => ⟨rfl, rfl⟩)
        (.quiet rfl (fun _ _ _ => ⟨rfl, rfl⟩)
          (.quiet rfl (says_callDone i (isMessage_callItem ..)) .nil)))

lemma says_toolCallEvents (ts : Option Ajson) (cs : List Call) (st : Nat) :
    SaysAll m (toolCallEvents m ts cs st) [] [] := by
  unfold toolCallEvents
  induction cs.zipIdx with
  | nil => exact .nil
  | cons ca cs ih => exact (says_callEvents ts ca.1 (st + ca.2)).append ih

lemma says_finalResponse (s : ResponsesStream) (re : Ajson) (st : ResponseStatus)
    (text : Bytes) : ∃ texts, Says m st.event
    (object [("response", finalResponse s re st text)]) [] texts ∧
    some text ∈ texts ∧ ∀ t ∈ texts, t = some text := by
  have ho : ∀ i ∈ otherItems re, isMessage i = false := by
    intro i hi
    unfold otherItems at hi
    split at hi
    · have := (mem_filter.1 hi).2
      rw [isMessage]
      simpa using this
    · cases hi
  unfold finalResponse
  simp only
  have hte : st.event.isTerminal := by cases st <;> rfl
  obtain ⟨_, hob⟩ := isObj_set
    (applyStatus (re.set (ascii "created_at") (.int s.createdAt)) st)
    (ascii "output_text") (.str text)
  refine ⟨_, says_response hte
    ((member_set_ne hob (by decide) _).trans (member_set_self ..)) (member_set_self ..),
    mem_cons_self, ?_⟩
  intro t ht
  rcases mem_cons.1 ht with rfl | ht
  · rfl
  · obtain ⟨i, hi, rfl⟩ := mem_map.1 ht
    obtain ⟨hi, hm⟩ := mem_filter.1 hi
    rcases mem_append.1 hi with hi | hi
    · split at hi
      · rw [mem_singleton.1 hi]
        exact (message_messageItem ..).2
      · cases hi
    · split at hi
      · rw [ho i hi] at hm
        cases hm
      · cases hi

structure Streaming (s : ResponsesStream) : Prop where
  emitting : Emitting s []
  /-- However the text goes on, no tool call begins in what was emitted. -/
  held : ∀ more j, find toolOpen (s.rawText ++ more) = some j → s.emittedBytes ≤ j

def startedBy (s : ResponsesStream) (text : Bytes) : Bool :=
  s.messageStarted || decide (s.emittedBytes < safeTextEnd text true)

def lastEvents (m : Restorer) (s : ResponsesStream) (f : Finish) (text : Bytes) :
    List (EventType × Ajson) :=
  (if haveToolCalls f.toolResult && f.status text == .completed then
      toolCallEvents m f.tools f.calls (if startedBy s text then 1 else 0)
    else []) ++
    [((f.status text).event, object [("response",
      finalResponse { s with messageStarted := startedBy s text } f.response (f.status text)
        text)])]

/-- The final text, if there is one that follows what was emitted, holds no tool call, and the data
of the last events can be restored. -/
def Agrees (m : Restorer) (s : ResponsesStream) (f : Finish) : Prop :=
  ∀ text, f.text s = some text → find toolOpen text = none ∧ Restores m (lastEvents m s f text)

lemma emitted_le_safeTextEnd (h : Streaming s) : s.emittedBytes ≤ safeTextEnd s.rawText true := by
  unfold safeTextEnd
  split
  next st hs => exact h.held [] st (by rwa [append_nil])
  · simp only [Bool.true_or, if_true]
    exact h.emitting.bound

variable {f : Finish} {text : Bytes}

lemma text_follows (h : Streaming s) (ht : f.text s = some text) :
    text.take s.emittedBytes = s.rawText.take s.emittedBytes ∧ s.emittedBytes ≤ text.length := by
  have hln : (s.rawText.take s.emittedBytes).length = s.emittedBytes := by
    rw [length_take, min_eq_left h.emitting.bound]
  have hle := emitted_le_safeTextEnd h
  unfold Finish.text reconcile at ht
  split at ht
  next hta =>
    cases ht
    rw [hln] at hta
    refine ⟨hta, ?_⟩
    have hl := congrArg length hta
    rw [hln, length_take] at hl
    omega
  · split at ht
    · cases ht
      refine ⟨by rw [take_take, min_eq_left hle], ?_⟩
      rw [length_take]
      have := h.emitting.bound
      omega
    · cases ht

lemma flushed_iff (h : Streaming s) (ht : f.text s = some text) :
    text = text.take (max s.emittedBytes (safeTextEnd text true)) ↔ find toolOpen text = none := by
  obtain ⟨hfo, hle⟩ := text_follows h ht
  constructor
  · intro he
    by_contra hf
    obtain ⟨i, hi⟩ := ne_none_iff_exists'.1 hf
    have hl := find_length hi
    change i + 11 ≤ text.length at hl
    have hs : safeTextEnd text true = i := by simp only [safeTextEnd, hi]
    have hta := congrArg length he
    rw [length_take, hs] at hta
    -- all of the text was emitted before, so it is the beginning of the raw text
    have ha : text = s.rawText.take s.emittedBytes := by
      rw [← hfo, take_of_length_le (by omega)]
    have hr : find toolOpen (s.rawText ++ []) = some i := by
      rw [append_nil, ← take_append_drop s.emittedBytes s.rawText, ← ha]
      exact find_append toolOpen_ne_nil hi _
    have := h.held [] i hr
    omega
  · intro hn
    have hs : safeTextEnd text true = text.length := by
      simp [safeTextEnd, hn]
    rw [hs, max_eq_right hle, take_length]

lemma Emitting.reread (h : Emitting s texts)
    (hf : text.take s.emittedBytes = s.rawText.take s.emittedBytes)
    (hl : s.emittedBytes ≤ text.length) : Emitting { s with rawText := text } texts :=
  ⟨⟨h.log.isOpen, h.log.running, h.log.count, h.log.numbered, h.log.nonterminal,
    h.log.delta.trans hf.symm, h.log.texts⟩, hl⟩

lemma finalResponse_congr {s' : ResponsesStream} (hi : s'.messageId = s.messageId)
    (hc : s'.createdAt = s.createdAt) (hs : s'.messageStarted = s.messageStarted)
    (re : Ajson) (st : ResponseStatus) (text : Bytes) :
    finalResponse s' re st text = finalResponse s re st text := by
  simp only [finalResponse, hi, hc, hs]

lemma finish_of_mismatch (h : Streaming s) (ht : f.text s = none) (value : Option Ajson) :
    ∃ s', finish m s f value = .error (.refused, s') ∧ Consistent s'.sent ∧
    s'.terminalSent = true := by
  have he : Emitting { s with rawText := s.rawText.take s.emittedBytes } [] := by
    refine h.emitting.reread (by rw [take_take, min_self]) ?_
    rw [length_take, min_eq_left h.emitting.bound]
  obtain ⟨s', hs', hc, hte⟩ := sendError_ok (m := m) he value
    (ascii "final text disagrees with already emitted deltas") "stream_content_mismatch"
  refine ⟨s', ?_, hc, hte⟩
  rw [finish, if_neg (by simp [h.emitting.log.isOpen]), ht]
  rw [hs']

/-- The calls, from a stream that has told its message. -/
lemma finishCalls_eq {told : ResponsesStream} (ho : told.isOpen)
    (hst : told.messageStarted = startedBy s text) :
    ∃ calls, SaysAll m calls [] [] ∧ finishCalls m told f text = sendAll m told calls ∧
      lastEvents m s f text = calls ++ [((f.status text).event, object [("response",
        finalResponse { s with messageStarted := startedBy s text } f.response (f.status text)
          text)])] := by
  refine ⟨if haveToolCalls f.toolResult && f.status text == .completed then
    toolCallEvents m f.tools f.calls (if startedBy s text then 1 else 0) else [], ?_, ?_, rfl⟩
  · split
    · exact says_toolCallEvents ..
    · exact .nil
  · rw [finishCalls, hst]
    split
    · rw [sendToolCalls, if_neg (by simp [ho])]
    · rfl

lemma consistent_final {d : Bytes} {st : ResponseStatus} {re v : Ajson} (h : Log s d texts)
    (ht : ∀ t ∈ texts, t = some text)
    (hv : restore m (object [("response", finalResponse s re st text)]) = .ok v) :
    Consistent (s.push st.event v).sent ↔ text = d := by
  obtain ⟨finals, hsaid, hm, hfina⟩ := says_finalResponse (m := m) s re st text
  obtain ⟨hnod, hfin⟩ := hsaid s.sequenceNumber v hv
  have hterm : st.event.isTerminal = true := by
    cases st <;> rfl
  rw [h.consistent_iff hterm hnod hfin]
  constructor
  · intro ha
    exact some.inj (ha _ (mem_append_right _ hm))
  · intro heq t hmem
    rw [← heq]
    rcases mem_append.1 hmem with hmem | hmem
    · exact ht t hmem
    · exact hfina t hmem

lemma finish_of_text (h : Streaming s) (htext : f.text s = some text) (value : Option Ajson) :
    (Restores m (lastEvents m s f text) ∧ ∃ s', finish m s f value = .ok s' ∧
    (Consistent s'.sent ↔ find toolOpen text = none)) ∨
    (¬ Restores m (lastEvents m s f text) ∧ ∃ message s',
    finish m s f value = .error (.threw message, s') ∧
    ∀ e ∈ s'.sent, e.type.isTerminal = false) := by
  obtain ⟨hfoll, hle⟩ := text_follows h htext
  obtain ⟨flushed, hfl, hem, hs⟩ := flushText_ok (m := m) (h.emitting.reread hfoll hle) true
  obtain ⟨told, texts, htold, hlog, hsm', hte⟩ :=
    finishMessage_ok (m := m) hem.log text (f.status text != .completed)
  have hde : flushed.rawText.take flushed.emittedBytes =
      text.take (max s.emittedBytes (safeTextEnd text true)) := by
    rw [hs.rawText, hs.emittedBytes]
  have hst : told.messageStarted = startedBy s text := hsm'.messageStarted.trans hs.messageStarted
  rw [hde] at hlog
  obtain ⟨calls, hqu, hse, hla⟩ := finishCalls_eq (m := m) (f := f) hlog.isOpen hst
  have hfini : finish m s f value = (sendAll m told calls >>= fun called => do
      let done ← sendEvent m called (f.status text).event
        (object [("response", finalResponse called f.response (f.status text) text)])
      pure { done with isOpen := false }) := by
    rw [finish, if_neg (by simp [h.emitting.log.isOpen]), htext]
    simp only [hfl]
    change finishMessage m flushed text _ >>= _ = _
    rw [htold]
    change finishCalls m told f text >>= _ = _
    rw [hse]
  rw [hfini, hla]
  rcases sendAll_cases hqu hlog with ⟨hre, called, hc, hlog', hs''⟩ | ⟨hnot, message, s', hs', hno⟩
  · rw [append_nil, append_nil] at hlog'
    have hresp : finalResponse called f.response (f.status text) text = finalResponse
        { s with messageStarted := startedBy s text } f.response (f.status text) text := by
      refine finalResponse_congr ?_ ?_ ?_ _ _ _
      · rw [hs''.messageId, hsm'.messageId, hs.messageId]
      · rw [hs''.createdAt, hsm'.createdAt, hs.createdAt]
      · rw [hs''.messageStarted, hst]
    rw [hc, ← hresp]
    change (_ ∧ ∃ s', sendEvent m called _ _ >>= _ = _ ∧ _) ∨
      (_ ∧ ∃ message s', sendEvent m called _ _ >>= _ = _ ∧ _)
    cases hv : restore m
        (object [("response", finalResponse called f.response (f.status text) text)]) with
    | error message =>
      rw [sendEvent_threw hlog' _ hv]
      refine .inr ⟨fun ha => ?_, message, called, rfl, hlog'.nonterminal⟩
      obtain ⟨v, hok⟩ := ha _ (mem_append_right _ (mem_singleton_self _))
      cases hv.symm.trans hok
    | ok v =>
      rw [sendEvent_ok hlog' _ hv]
      refine .inl ⟨?_, _, rfl, ?_⟩
      · intro event hev
        rcases mem_append.1 hev with hev | hev
        · exact hre event hev
        · rw [mem_singleton.1 hev]
          exact ⟨v, hv⟩
      · change Consistent (called.push _ v).sent ↔ _
        rw [consistent_final hlog' hte hv, flushed_iff h htext]
  · rw [hs']
    refine .inr ⟨fun ha => hnot fun event hev =>
      ha event (mem_append_left _ hev), message, s', rfl, hno⟩

lemma close_of_terminal (h : s.terminalSent) (value : Option Ajson) :
    (close m s value).sent = s.sent := by
  unfold close
  split
  · rfl
  · rfl

lemma conclude_finish_iff (h : Streaming s) (f : Finish) (value : Option Ajson) :
    Consistent (conclude m s (.finish f) value).sent ↔ Agrees m s f := by
  cases ht : f.text s with
  | none =>
    obtain ⟨s', hs', hc, hte⟩ := finish_of_mismatch (m := m) h ht value
    refine iff_of_true ?_ fun text hs => ?_
    · simp only [conclude, hs', close_of_terminal hte]
      exact hc
    · cases ht.symm.trans hs
  | some text =>
    have hag : Agrees m s f ↔ find toolOpen text = none ∧ Restores m (lastEvents m s f text) := by
      constructor
      · intro ha
        exact ha text ht
      · intro hb o ho
        cases ht.symm.trans ho
        exact hb
    rw [hag]
    rcases finish_of_text (m := m) h ht value with ⟨hr, s', hs', hi⟩ | ⟨hnot, message, s', hs', hno⟩
    · simp [conclude, hs', hi, hr]
    · simp only [conclude, hs']
      exact iff_of_false (not_consistent hno) fun hb => hnot hb.2

lemma conclude_error (h : Streaming s) (me : Bytes) (co : String) (value : Option Ajson) :
    Consistent (conclude m s (.error me co) value).sent := by
  obtain ⟨s', hs', hc, ht⟩ := sendError_ok (m := m) h.emitting value me co
  simp only [conclude, hs', leaves, close_of_terminal ht]
  exact hc

lemma Streaming.piece (h : Streaming s) (bytes : Bytes) : Streaming (Api.live m s (.piece bytes)) ∧
    (Api.live m s (.piece bytes)).rawText = s.rawText ++ bytes ∧
    (Api.live m s (.piece bytes)).emittedBytes =
    max s.emittedBytes (safeTextEnd (s.rawText ++ bytes) false) := by
  have he : Emitting { s with rawText := s.rawText ++ bytes } [] := by
    refine h.emitting.reread (take_append_of_le_length h.emitting.bound) ?_
    rw [length_append]
    exact Nat.le_add_right_of_le h.emitting.bound
  obtain ⟨s', hs', he', hs⟩ := flushText_ok (m := m) he false
  have hv : Api.live m s (.piece bytes) = s' := by
    rw [Api.live, emitToken, if_neg (by simp [h.emitting.log.isOpen]), hs']
    rfl
  rw [hv]
  refine ⟨⟨he', fun mo j hj => ?_⟩, hs.rawText, hs.emittedBytes⟩
  rw [hs.rawText] at hj
  rw [hs.emittedBytes]
  refine Nat.max_le.2 ⟨?_, safeTextEnd_le_find hj⟩
  refine h.held (bytes ++ mo) j ?_
  rw [← append_assoc]
  exact hj

lemma Streaming.progress (h : Streaming s) (value : Option Ajson) :
    Streaming (Api.live m s (.progress value)) := by
  obtain ⟨v, hv⟩ := stub_restores (m := m) s value
  have hlog := h.emitting.log
  have hl : Api.live m s (.progress value) = s.push .inProgress v := by
    simp only [Api.live, Api.progress, hlog.running, Bool.false_eq_true, if_false,
      sendEvent_ok hlog .inProgress hv]
    rfl
  have hp : Log (s.push .inProgress v) (s.rawText.take s.emittedBytes ++ []) ([] ++ []) :=
    hlog.push rfl rfl rfl
  rw [append_nil, append_nil] at hp
  rw [hl]
  exact ⟨⟨hp, h.emitting.bound⟩, h.held⟩

lemma Streaming.live {s : ResponsesStream} (h : Streaming s) (st : Live) :
    Streaming (live m s st) := by
  cases st with
  | piece bs => exact (h.piece bs).1
  | progress value => exact h.progress value

lemma streaming_start (responseId messageId sessionId : Bytes) (createdAt : Int) :
    Streaming (leaves (startStream m responseId messageId sessionId createdAt)) ∧
    (leaves (startStream m responseId messageId sessionId createdAt)).rawText = [] ∧
    (leaves (startStream m responseId messageId sessionId createdAt)).emittedBytes = 0 := by
  obtain ⟨s, hs⟩ : ∃ s : ResponsesStream,
      s = { responseId, messageId, sessionId, createdAt, isOpen := true } := ⟨_, rfl⟩
  have hlog : Log s [] [] := by
    rw [hs]
    exact ⟨rfl, rfl, rfl, rfl, nofun, rfl, rfl⟩
  obtain ⟨v, hv⟩ := stub_restores (m := m) s none
  have hsaid : SaysAll m [(.created, object [("response", responsesStub s none)]),
      (.inProgress, object [("response", responsesStub s none)])] [] [] :=
    .quiet rfl (fun _ _ _ => ⟨rfl, rfl⟩) (.quiet rfl (fun _ _ _ => ⟨rfl, rfl⟩) .nil)
  have hre : Restores m [(.created, object [("response", responsesStub s none)]),
      (.inProgress, object [("response", responsesStub s none)])] := by
    intro event hev
    simp only [mem_cons, not_mem_nil, or_false] at hev
    rcases hev with rfl | rfl <;> exact ⟨v, hv⟩
  obtain ⟨s', hs', hlog', hsm⟩ := sendAll_ok hsaid hre hlog
  have hst : startStream m responseId messageId sessionId createdAt = .ok s' := by
    rw [← hs', hs]
    rfl
  have hraw : s'.rawText = [] := by rw [hsm.rawText, hs]
  have hem : s'.emittedBytes = 0 := by rw [hsm.emittedBytes, hs]
  rw [hst]
  refine ⟨⟨⟨?_, ?_⟩, fun _ _ _ => ?_⟩, hraw, hem⟩
  · simpa [leaves, hraw] using hlog'
  · exact hem.symm ▸ zero_le _
  · exact hem.symm ▸ zero_le _

def generated (m : Restorer) (responseId messageId sessionId : Bytes) (createdAt : Int)
    (steps : List Live) : ResponsesStream :=
  steps.foldl (live m) (leaves (startStream m responseId messageId sessionId createdAt))

lemma streaming_generated (ri mi si : Bytes) (ca : Int)
    (ss : List Live) : Streaming (generated m ri mi si ca ss) :=
  foldlRecOn ss (live m) (streaming_start ..).1 fun _ h st _ => h.live st

end

/-- The events of a response are consistent exactly when it ends with an error, or with a final text
that agrees: it holds no tool call, and the data of the last events can be restored. -/
theorem response_consistent_iff (m : Restorer) (responseId messageId sessionId : Bytes)
    (createdAt : Int) (steps : List Live) (ending : Ending) (value : Option Ajson) :
    Consistent (conclude m (generated m responseId messageId sessionId createdAt steps) ending
      value).sent ↔
    match ending with
    | .finish f => Agrees m (generated m responseId messageId sessionId createdAt steps) f
    | .error _ _ => True := by
  have h := streaming_generated (m := m) responseId messageId sessionId createdAt steps
  cases ending with
  | finish f => exact conclude_finish_iff h f value
  | error me co => exact iff_of_true (conclude_error h me co value) trivial

lemma emptyMap_keys : ∀ fi ∈ ([] : List (Bytes × Ajson)), fi.1 ∈ responseKeys :=
  fun _ h => absurd h not_mem_nil

def emptyMap : Restorer where
  reverse := fun _ => none
  toolSearchWire := []
  rejected := []
  responseFields := []
  parse := fun _ => .error "invalid JSON"
  keys := emptyMap_keys

def written (text : Bytes) : ResponsesStream :=
  generated emptyMap (ascii "resp-axiom-1") (ascii "msg-axiom-1") (ascii "s") 0 [.piece text]

def toolless (text : Bytes) : Finish where
  response := .obj []
  result := ⟨text, ascii "stop", 0⟩
  toolResult := none
  tools := none

lemma written_spec (text : Bytes) : Streaming (written text) ∧ (written text).rawText = text ∧
    (written text).emittedBytes = safeTextEnd text false := by
  obtain ⟨hst, hr, he⟩ := streaming_start (m := emptyMap) (ascii "resp-axiom-1")
    (ascii "msg-axiom-1") (ascii "s") 0
  obtain ⟨hs, hr', he'⟩ := hst.piece (m := emptyMap) text
  rw [hr, nil_append] at hr' he'
  rw [he, max_eq_right (zero_le _)] at he'
  exact ⟨hs, hr', he'⟩

lemma text_written (text : Bytes) : (toolless text).text (written text) = some text := by
  obtain ⟨_, hr, he⟩ := written_spec text
  have hl := safeTextEnd_le text false
  have hp : parsedText (toolless text).result (toolless text).toolResult = text := rfl
  simp [Finish.text, reconcile, hr, he, min_eq_left hl, hp]

/-- Without tools the text of a tool call is kept back from the deltas and stated at the end. -/
theorem toolless_call_disagrees :
    let text := ascii "a<think><tool_call></think>b"
    ¬ Consistent (conclude emptyMap (written text) (.finish (toolless text)) none).sent := by
  intro text
  rw [conclude_finish_iff (written_spec _).1]
  intro ha
  have hf := (ha _ (text_written _)).1
  exact absurd hf (by decide)

lemma toolless_restores (s : ResponsesStream) (text : Bytes) :
    ∃ data, restore emptyMap (object [("response", finalResponse s (.obj []) .completed text)]) =
    .ok data := by
  obtain ⟨i, hit⟩ : ∃ i, i = if s.messageStarted then
      [messageItem s.messageId "completed" [outputText text]] else [] := ⟨_, rfl⟩
  have hf : finalResponse s (.obj []) .completed text = setAll (.obj [])
      [(ascii "created_at", .int s.createdAt), (ascii "status", .str (ascii "completed")),
        (ascii "output_text", .str text), (ascii "output", .arr (i ++ []))] := by
    rw [hit]
    rfl
  obtain ⟨ho, hkp⟩ := setAll_spec [(ascii "created_at", Ajson.int s.createdAt),
    (ascii "status", .str (ascii "completed")), (ascii "output_text", .str text),
    (ascii "output", .arr (i ++ []))] (rfl : Ajson.obj [] = .obj [])
  have hn : ∀ key ∈ [ascii "type", ascii "item", ascii "response"],
      (setAll (.obj []) [(ascii "created_at", Ajson.int s.createdAt),
        (ascii "status", .str (ascii "completed")), (ascii "output_text", .str text),
        (ascii "output", .arr (i ++ []))]).member key = none := fun key hk =>
    hkp key ((by decide : ∀ key ∈ [ascii "type", ascii "item", ascii "response"],
      key ∉ [ascii "created_at", ascii "status", ascii "output_text", ascii "output"]) key hk)
  have hm : ∃ items', (i ++ []).mapM (restore emptyMap) = .ok items' := by
    rw [append_nil, hit]
    split
    · obtain ⟨ite, hi⟩ := (plain_messageItem s.messageId "completed"
        [outputText text]).restores (m := emptyMap)
      exact ⟨[ite], by rw [mapM_cons, hi]; rfl⟩
    · exact ⟨[], rfl⟩
  obtain ⟨items', hi'⟩ := hm
  rw [hf]
  refine response_restores ho (hn _ (by decide)) (fun key hk => ?_)
    (member_setAll (.obj []) [_, _, _] [] _ (by simp)) hi'
  exact hn key (mem_cons_of_mem _ hk)

theorem toolless_text_consistent : Consistent (conclude emptyMap (written (ascii "a"))
      (.finish (toolless (ascii "a"))) none).sent := by
  refine (response_consistent_iff emptyMap _ _ _ _ _ (.finish (toolless (ascii "a"))) none).2 ?_
  intro text ht
  obtain rfl := some.inj ((text_written (ascii "a")).symm.trans ht)
  refine ⟨by decide, fun e he => ?_⟩
  obtain rfl := mem_singleton.1 he
  exact toolless_restores _ _

end AxiomKernel.Qwen38.Api
