import AxiomKernel.Qwen38.Api.ResponsesStream

/-!
# What the events of a response say

The text an event adds to the message and the texts it states in full, read from its data after
`restore`. A response is consistent when its events are numbered from zero, the last one and no
other is terminal, and every text stated in full is what the deltas add up to.
-/
namespace AxiomKernel.Qwen38.Api

open Ajson Image Text Search Codex Tools List Option

variable (item : Ajson)

def isMessage : Bool := item.stringField "type" == ascii "message"

def messageText : Option Bytes :=
  match item.field "content" with
  | some (.arr [part]) => (part.field "text").bind text?
  | _ => none

/-- The texts a response states: its `output_text`, and that of each of its messages. -/
def responseTexts (response : Ajson) : List (Option Bytes) :=
  (response.field "output_text").bind text? ::
    match response.field "output" with
    | some (.arr items) => (items.filter isMessage).map messageText
    | _ => []

namespace Event

def delta (e : Event) : Bytes :=
  match e.type with
  | .textDelta => ((e.data.field "delta").bind text?).getD []
  | _ => []

/-- The texts the event states in full; `none` where it should and does not. -/
def texts (e : Event) : List (Option Bytes) :=
  match e.type with
  | .textDone => [(e.data.field "text").bind text?]
  | .partDone => [((e.data.field "part").bind (·.field "text")).bind text?]
  | .itemDone =>
    match e.data.field "item" with
    | some item => if isMessage item then [messageText item] else []
    | none => [none]
  | .completed | .incomplete | .failed =>
    match e.data.field "response" with
    | some response => responseTexts response
    | none => [none]
  | _ => []

end Event

structure Consistent (sent : List Event) : Prop where
  numbered : sent.map Event.sequence = List.range sent.length
  terminal : ∃ before last, sent = before ++ [last] ∧ last.type.isTerminal = true ∧
    ∀ e ∈ before, e.type.isTerminal = false
  texts : ∀ text ∈ sent.flatMap Event.texts, text = some (sent.flatMap Event.delta)

section
variable {m : Restorer}

def Says (m : Restorer) (type : EventType) (data : Ajson) (delta : Bytes)
    (texts : List (Option Bytes)) : Prop :=
  ∀ n v, restore m data = .ok v →
    Event.delta ⟨type, n, v⟩ = delta ∧ Event.texts ⟨type, n, v⟩ = texts

/-- An object without the children `restore` follows, and that is no call. -/
structure Plain (v : Ajson) : Prop where
  isObj : ∃ members, v = .obj members
  call : isCall v = false
  children : ∀ key ∈ childKeys, v.member key = none

variable {v : Ajson}

lemma Plain.restores (h : Plain v) : ∃ v', restore m v = .ok v' := by
  obtain ⟨ms, rfl⟩ := h.isObj
  refine restore_isOk h.call ?_ ?_
  · intro key hk ch hc
    rw [h.children key (mem_append_left [ascii "output"] hk)] at hc
    cases hc
  · intro items hi
    rw [h.children _ (by decide)] at hi
    cases hi

variable {key : String} {fields : List (String × Ajson)} {item' response : Ajson} {index : Nat}
  {items : List Ajson} {events : List (EventType × Ajson)}

lemma field_eq_member (h : (0 : UInt8) ∉ ascii key) :
    v.field key = v.member (ascii key) := get_eq_member h

/-- A field that `restore` does not know is read as it was written. -/
lemma field_of_restore {v' : Ajson} (ho : ∃ ms, v = .obj ms)
    (h : restore m v = .ok v') (hz : (0 : UInt8) ∉ ascii key) (hk : ascii key ∉ touchedFields) :
    v'.field key = v.field key := by
  obtain ⟨ms, rfl⟩ := ho
  rw [field_eq_member hz, field_eq_member hz]
  exact (kept_of_restore h).fields _ hk

variable (ns : List String)

lemma member_object (i : Nat) {key : Bytes}
    (hn : fields.map Prod.fst = ns) (hi : (ns.map ascii).idxOf key = i) :
    (object fields).member key = (fields[i]?).map Prod.snd := by
  subst hn hi
  induction fields with
  | nil => rfl
  | cons f fields ih =>
    change (if ascii f.1 = key then some f.2 else (object fields).member key) = _
    rw [map_cons, map_cons, idxOf_cons]
    by_cases hk : ascii f.1 = key
    · simp [hk]
    · have hb : (ascii f.1 == key) = false := beq_eq_false_iff_ne.2 hk
      rw [if_neg hk, ih, hb]
      rfl

lemma isCall_of_untyped {v : Ajson} (h : v.member (ascii "type") = none) : isCall v = false := by
  rw [isCall, stringField, field_eq_member (by decide), h]
  decide

lemma plain_object (hn : fields.map Prod.fst = ns)
    (h : ∀ key ∈ ascii "type" :: childKeys, (ns.map ascii).idxOf key = ns.length) :
    Plain (object fields) := by
  have hno : ∀ key ∈ ascii "type" :: childKeys, (object fields).member key = none := by
    intro key hk
    rw [member_object ns ns.length hn (h key hk), ← hn, length_map]
    simp
  exact ⟨⟨_, rfl⟩, isCall_of_untyped (hno _ mem_cons_self),
    fun key hk => hno key (mem_cons_of_mem _ hk)⟩

abbrev contentNames (key : String) : List String :=
  ["item_id", "output_index", "content_index", key]

lemma field_contentData {id : Bytes} {value v : Ajson} {key : String}
    (h : restore m (contentData id key value) = .ok v) (hz : (0 : UInt8) ∉ ascii key)
    (hk : ascii key ∉ touchedFields)
    (hi : ((contentNames key).map ascii).idxOf (ascii key) = 3) : v.field key = some value := by
  rw [field_of_restore ⟨_, rfl⟩ h hz hk, field_eq_member hz]
  exact member_object (contentNames key) 3 rfl hi

section
variable (id : Bytes) (value : Ajson)

lemma plain_delta : Plain (contentData id "delta" value) :=
  plain_object (contentNames "delta") rfl (by decide)

lemma plain_text : Plain (contentData id "text" value) :=
  plain_object (contentNames "text") rfl (by decide)

lemma plain_part : Plain (contentData id "part" value) :=
  plain_object (contentNames "part") rfl (by decide)

end

lemma says_delta (id te : Bytes) :
    Says m .textDelta (contentData id "delta" (.str te)) te [] := by
  intro n v h
  have hf := field_contentData h (by decide) (by decide) (by decide)
  exact ⟨by simp only [Event.delta, hf]; rfl, rfl⟩

lemma says_textDone (id te : Bytes) :
    Says m .textDone (contentData id "text" (.str te)) [] [some te] := by
  intro n v h
  have hf := field_contentData h (by decide) (by decide) (by decide)
  exact ⟨rfl, by simp only [Event.texts, hf]; rfl⟩

lemma text_outputText (text : Bytes) : ((outputText text).field "text").bind text? = some text := by
  rw [field_eq_member (by decide),
    outputText, member_object ["type", "text", "annotations"] 1 rfl (by decide)]
  rfl

lemma says_partDone (id te : Bytes) :
    Says m .partDone (contentData id "part" (outputText te)) [] [some te] := by
  intro n v h
  have hf := field_contentData h (by decide) (by decide) (by decide)
  exact ⟨rfl, by simp [Event.texts, hf, text_outputText]⟩

def itemNames : List String := ["id", "type", "status", "role", "content"]

section
variable (id : Bytes) (status : String) (content : List Ajson)

lemma member_messageItem :
    (messageItem id status content).member (ascii "type") = some (.str (ascii "message")) ∧
    (messageItem id status content).member (ascii "content") = some (.arr content) ∧
    ∀ key ∈ childKeys, (messageItem id status content).member key = none := by
  refine ⟨member_object itemNames 1 rfl (by decide), member_object itemNames 4 rfl (by decide), ?_⟩
  intro key hk
  exact member_object itemNames 5 rfl
    ((by decide : ∀ key ∈ childKeys, (itemNames.map ascii).idxOf key = 5) key hk)

lemma plain_messageItem : Plain (messageItem id status content) := by
  obtain ⟨ht, _, hc⟩ := member_messageItem id status content
  refine ⟨⟨_, rfl⟩, ?_, hc⟩
  have hs : (messageItem id status content).stringField "type" = ascii "message" :=
    stringField_of_field (by rw [field_eq_member (by decide), ht])
  rw [isCall, hs]
  decide

end

variable {item : Ajson}

/-- `restore` keeps what is a message and its text. -/
lemma message_of_restore (h : restore m item = .ok item') :
    isMessage item' = isMessage item ∧ messageText item' = messageText item := by
  cases item with
  | obj ms =>
    have hke := kept_of_restore h
    have hco : item'.field "content" = field (.obj ms) "content" :=
      field_of_restore ⟨ms, rfl⟩ h (by decide) (by decide)
    refine ⟨?_, by rw [messageText, messageText, hco]⟩
    rcases hke.type with he | ⟨hc, he⟩
    · rw [isMessage, isMessage, stringField_congr (by decide) he]
    · -- a call is no message, neither before nor as a tool search
      have hp : isMessage (.obj ms) = false := by
        rw [isCall, Bool.or_eq_true, beq_iff_eq, beq_iff_eq] at hc
        rcases hc with ht | ht <;> rw [isMessage, ht] <;> decide
      have ha : item'.stringField "type" = ascii "tool_search_call" :=
        stringField_of_field (by rw [field_eq_member (by decide), he])
      rw [hp, isMessage, ha]
      decide
  | _ =>
    rw [restore] at h
    · cases h
      exact ⟨rfl, rfl⟩
    all_goals exact fun _ h => by cases h

lemma message_messageItem (id text : Bytes) (status : String) :
    isMessage (messageItem id status [outputText text]) ∧
    messageText (messageItem id status [outputText text]) = some text := by
  obtain ⟨ht, hc, _⟩ := member_messageItem id status [outputText text]
  have hs : (messageItem id status [outputText text]).stringField "type" = ascii "message" :=
    stringField_of_field (by rw [field_eq_member (by decide), ht])
  refine ⟨by rw [isMessage, hs]; decide, ?_⟩
  rw [messageText, field_eq_member (by decide), hc]
  exact text_outputText text

lemma member_itemData (index : Nat) (item : Ajson) :
    (itemData index item).member (ascii "item") = some item ∧ isCall (itemData index item) = false ∧
    (itemData index item).member (ascii "response") = none ∧
    (itemData index item).member (ascii "output") = none := by
  refine ⟨member_object ["output_index", "item"] 1 rfl (by decide), ?_,
    member_object ["output_index", "item"] 2 rfl (by decide),
    member_object ["output_index", "item"] 2 rfl (by decide)⟩
  exact isCall_of_untyped (member_object ["output_index", "item"] 2 rfl (by decide))

lemma item_of_restore (h : restore m (itemData index item) = .ok v) :
    ∃ item', restore m item = .ok item' ∧ v.field "item" = some item' := by
  obtain ⟨hi, hc, _⟩ := member_itemData index item
  obtain ⟨item', hr, hm⟩ :=
    (kept_of_restore h).child hc (ascii "item") (by decide) item hi
  exact ⟨item', hr, by rw [field_eq_member (by decide), hm]⟩

lemma itemData_restores (h : restore m item = .ok item') :
    ∃ v, restore m (itemData index item) = .ok v := by
  obtain ⟨hi, hc, hr, ho⟩ := member_itemData index item
  refine restore_isOk hc ?_ ?_
  · intro key hk ch hch
    rcases mem_cons.1 hk with rfl | hk
    · cases hi.symm.trans hch
      exact ⟨item', h⟩
    · obtain rfl := mem_singleton.1 hk
      cases hr.symm.trans hch
  · intro items hit
    cases ho.symm.trans hit

lemma says_messageDone (index : Nat) (id te : Bytes) (status : String) :
    Says m .itemDone (itemData index (messageItem id status [outputText te])) [] [some te] := by
  intro n v h
  obtain ⟨item, hi, hf⟩ := item_of_restore h
  obtain ⟨hm, ht⟩ := message_of_restore hi
  obtain ⟨hm', ht'⟩ := message_messageItem id te status
  rw [hm'] at hm
  rw [ht'] at ht
  exact ⟨rfl, by simp [Event.texts, hf, hm, ht]⟩

lemma says_callDone (index : Nat) (hi : isMessage item = false) :
    Says m .itemDone (itemData index item) [] [] := by
  intro n v h
  obtain ⟨item', hr, hf⟩ := item_of_restore h
  have hmsg := (message_of_restore hr).1.trans hi
  exact ⟨rfl, by simp [Event.texts, hf, hmsg]⟩

lemma member_responseData (response : Ajson) :
    (object [("response", response)]).member (ascii "response") = some response ∧
    isCall (object [("response", response)]) = false ∧
    (object [("response", response)]).member (ascii "item") = none ∧
    (object [("response", response)]).member (ascii "output") = none := by
  refine ⟨member_object ["response"] 0 rfl (by decide), ?_,
    member_object ["response"] 1 rfl (by decide), member_object ["response"] 1 rfl (by decide)⟩
  exact isCall_of_untyped (member_object ["response"] 1 rfl (by decide))

lemma responseData_restores {r' : Ajson} (h : restore m response = .ok r') :
    ∃ v, restore m (object [("response", response)]) = .ok v := by
  obtain ⟨hr, hc, hi, ho⟩ := member_responseData response
  refine restore_isOk hc ?_ ?_
  · intro key hk ch hch
    rcases mem_cons.1 hk with rfl | hk
    · cases hi.symm.trans hch
    · obtain rfl := mem_singleton.1 hk
      cases hr.symm.trans hch
      exact ⟨r', h⟩
  · intro items hit
    cases ho.symm.trans hit

lemma messages_of_mapM {is' : List Ajson} (h : items.mapM (restore m) = .ok is') :
    (is'.filter isMessage).map messageText = (items.filter isMessage).map messageText := by
  induction items generalizing is' with
  | nil =>
    cases h
    rfl
  | cons item items ih =>
    rw [mapM_cons] at h
    obtain ⟨item', hi, h⟩ := Guard.bind_eq_ok.1 h
    obtain ⟨re, hr, h⟩ := Guard.bind_eq_ok.1 h
    cases h
    obtain ⟨hm, ht⟩ := message_of_restore hi
    rw [filter_cons, filter_cons, hm]
    split
    · rw [map_cons, map_cons, ih hr, ht]
    · exact ih hr

variable {type : EventType}

/-- The texts of a terminal event are those of its response before `restore`. -/
lemma says_response (hty : type.isTerminal) {text : Bytes}
    (ht : response.member (ascii "output_text") = some (.str text))
    (hit : response.member (ascii "output") = some (.arr items)) :
    Says m type (object [("response", response)]) []
    (some text :: (items.filter isMessage).map messageText) := by
  intro n v h
  obtain ⟨hresp, hc, _⟩ := member_responseData response
  obtain ⟨response', hre, hmb⟩ :=
    (kept_of_restore h).child hc (ascii "response") (by decide) response hresp
  have hobj : ∃ members, response = .obj members := by
    cases response with
    | obj members => exact ⟨members, rfl⟩
    | _ => cases ht
  have hfi : v.field "response" = some response' := by
    rw [field_eq_member (by decide), hmb]
  have ht' : response'.field "output_text" = some (.str text) := by
    rw [field_of_restore hobj hre (by decide) (by decide), field_eq_member (by decide), ht]
  obtain ⟨members, rfl⟩ := hobj
  obtain ⟨items', hit', hke⟩ := (kept_of_restore hre).output items hit
  have hmess : (items'.filter isMessage).map messageText =
      (items.filter isMessage).map messageText := by
    rcases hke with rfl | hmap
    · rfl
    · exact messages_of_mapM hmap
  have hte : responseTexts response' = some text :: (items.filter isMessage).map messageText := by
    rw [responseTexts, ht', field_eq_member (by decide), hit', ← hmess]
    rfl
  cases type with
  | completed | incomplete | failed => exact ⟨rfl, by simp only [Event.texts, hfi, hte]⟩
  | _ => cases hty

structure Log (s : ResponsesStream) (delta : Bytes) (texts : List (Option Bytes)) : Prop where
  isOpen : s.isOpen = true
  running : s.terminalSent = false
  count : s.sequenceNumber = s.sent.length
  numbered : s.sent.map Event.sequence = List.range s.sent.length
  nonterminal : ∀ e ∈ s.sent, e.type.isTerminal = false
  delta : s.sent.flatMap Event.delta = delta
  texts : s.sent.flatMap Event.texts = texts

variable {s : ResponsesStream}

lemma numbered_push (hc : s.sequenceNumber = s.sent.length)
    (h : s.sent.map Event.sequence = range s.sent.length) (type : EventType) (v : Ajson) :
    (s.push type v).sent.map Event.sequence = range (s.push type v).sent.length := by
  simp only [ResponsesStream.push, map_append, h, length_append, map_singleton,
    length_singleton, range_succ, hc]

variable {delta delta' : Bytes} {texts texts' : List (Option Bytes)}

lemma Log.push (h : Log s delta texts) (ht : type.isTerminal = false)
    (hd : Event.delta ⟨type, s.sequenceNumber, v⟩ = delta')
    (hte : Event.texts ⟨type, s.sequenceNumber, v⟩ = texts') :
    Log (s.push type v) (delta ++ delta') (texts ++ texts') where
  isOpen := h.isOpen
  running := ht
  count := by simp [ResponsesStream.push, h.count]
  numbered := numbered_push h.count h.numbered type v
  nonterminal := by
    intro e he
    rcases mem_append.1 he with he | he
    · exact h.nonterminal e he
    · rw [mem_singleton.1 he]
      exact ht
  delta := by
    simp [ResponsesStream.push, h.delta, hd]
  texts := by
    simp [ResponsesStream.push, h.texts, hte]

/-- A terminal event ends the log; it is consistent when all texts agree with the deltas. -/
lemma Log.consistent_iff (h : Log s delta texts) (hty : type.isTerminal)
    (hde : Event.delta ⟨type, s.sequenceNumber, v⟩ = [])
    (ht : Event.texts ⟨type, s.sequenceNumber, v⟩ = texts') :
    Consistent (s.push type v).sent ↔ ∀ te ∈ texts ++ texts', te = some delta := by
  have ha : (s.push type v).sent.flatMap Event.texts = texts ++ texts' := by
    simp [ResponsesStream.push, h.texts, ht]
  have hd : (s.push type v).sent.flatMap Event.delta = delta := by
    simp [ResponsesStream.push, h.delta, hde]
  constructor
  · intro hc
    rw [← ha, ← hd]
    exact hc.texts
  · intro hag
    exact
      { numbered := numbered_push h.count h.numbered type v
        terminal := ⟨s.sent, _, rfl, hty, h.nonterminal⟩
        texts := by rw [ha, hd]; exact hag }

lemma not_consistent {sent : List Event} (h : ∀ e ∈ sent, e.type.isTerminal = false) :
    ¬ Consistent sent := by
  intro hc
  obtain ⟨b, l, rfl, hl, _⟩ := hc.terminal
  have := h l (mem_append_right _ (mem_singleton_self l))
  rw [hl] at this
  cases this

structure SameMessage (s s' : ResponsesStream) : Prop where
  messageId : s'.messageId = s.messageId
  createdAt : s'.createdAt = s.createdAt
  rawText : s'.rawText = s.rawText
  emittedBytes : s'.emittedBytes = s.emittedBytes
  messageStarted : s'.messageStarted = s.messageStarted

lemma SameMessage.refl (s : ResponsesStream) : SameMessage s s := ⟨rfl, rfl, rfl, rfl, rfl⟩

lemma SameMessage.of_push {s' : ResponsesStream} (h : SameMessage (s.push type v) s') :
    SameMessage s s' :=
  ⟨h.messageId, h.createdAt, h.rawText, h.emittedBytes, h.messageStarted⟩

variable {data : Ajson}

lemma sendEvent_ok (h : Log s delta texts) (type : EventType) (hv : restore m data = .ok v) :
    sendEvent m s type data = .ok (s.push type v) := by
  simp [sendEvent, h.isOpen, h.running, hv]

lemma sendEvent_threw (h : Log s delta texts) (type : EventType) {me : String}
    (hv : restore m data = .error me) :
    sendEvent m s type data = .error (.threw me, s) := by
  simp [sendEvent, h.isOpen, h.running, hv]

inductive SaysAll (m : Restorer) :
    List (EventType × Ajson) → Bytes → List (Option Bytes) → Prop
  | nil : SaysAll m [] [] []
  | cons {type data rest delta delta' texts texts'} (htype : type.isTerminal = false)
      (hsaid : Says m type data delta texts) (hrest : SaysAll m rest delta' texts') :
      SaysAll m ((type, data) :: rest) (delta ++ delta') (texts ++ texts')

lemma SaysAll.quiet {re : List (EventType × Ajson)} (ht : type.isTerminal = false)
    (hs : Says m type data [] []) (hr : SaysAll m re delta texts) :
    SaysAll m ((type, data) :: re) delta texts :=
  @SaysAll.cons m type data re [] delta [] texts ht hs hr

def Restores (m : Restorer) (events : List (EventType × Ajson)) : Prop :=
  ∀ event ∈ events, ∃ v, restore m event.2 = .ok v

lemma SaysAll.append {first se : List (EventType × Ajson)} (h : SaysAll m first delta texts)
    (h' : SaysAll m se delta' texts') :
    SaysAll m (first ++ se) (delta ++ delta') (texts ++ texts') := by
  induction h with
  | nil => exact h'
  | cons ht hs _ ih =>
    rw [append_assoc, append_assoc]
    exact .cons ht hs ih

lemma sendAll_cases (hsa : SaysAll m events delta' texts') (h : Log s delta texts) :
    (Restores m events ∧ ∃ s', sendAll m s events = .ok s' ∧
    Log s' (delta ++ delta') (texts ++ texts') ∧ SameMessage s s') ∨
    (¬ Restores m events ∧ ∃ me s', sendAll m s events = .error (.threw me, s') ∧
    ∀ e ∈ s'.sent, e.type.isTerminal = false) := by
  induction hsa generalizing s delta texts with
  | nil =>
    refine .inl ⟨nofun, s, rfl, ?_, .refl s⟩
    rw [append_nil, append_nil]
    exact h
  | @cons type data rest d₁ d₂ ts₁ ts₂ hty hsa hr ih =>
    cases hv : restore m data with
    | error me =>
      refine .inr ⟨fun ha => ?_, me, s, ?_, h.nonterminal⟩
      · obtain ⟨v, ho⟩ := ha (type, data) mem_cons_self
        cases hv.symm.trans ho
      · rw [sendAll, sendEvent_threw h type hv]
        rfl
    | ok v =>
      obtain ⟨hd, ht⟩ := hsa s.sequenceNumber v hv
      have hse : sendAll m s ((type, data) :: rest) = sendAll m (s.push type v) rest := by
        rw [sendAll, sendEvent_ok h type hv]
        rfl
      rw [hse]
      rcases ih (h.push hty hd ht) with ⟨ha, s', hs', hl, hs⟩ | ⟨hn, hs'⟩
      · refine .inl ⟨?_, s', hs', ?_, hs.of_push⟩
        · intro ev he
          rcases mem_cons.1 he with rfl | he
          · exact ⟨v, hv⟩
          · exact ha ev he
        · rw [← append_assoc, ← append_assoc]
          exact hl
      · exact .inr ⟨fun ha => hn fun ev he =>
          ha ev (mem_cons_of_mem _ he), hs'⟩

lemma sendAll_ok (hs : SaysAll m events delta' texts') (hr : Restores m events)
    (h : Log s delta texts) :
    ∃ s', sendAll m s events = .ok s' ∧ Log s' (delta ++ delta') (texts ++ texts') ∧
    SameMessage s s' := by
  rcases sendAll_cases hs h with ⟨_, ho⟩ | ⟨hn, _⟩
  · exact ho
  · exact absurd hr hn

end

end AxiomKernel.Qwen38.Api
