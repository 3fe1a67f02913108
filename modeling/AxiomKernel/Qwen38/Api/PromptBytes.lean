import Mathlib.Data.List.ModifyLast
import AxiomKernel.Qwen38.Api.Compaction
import AxiomKernel.Tokenizer.RoundTrip

/-! What an uncompacted prompt spells: the texts of the turns travel through the C-string interface
of the tokenizer, so a turn is carried as far as its first NUL byte. -/
namespace AxiomKernel.Qwen38.Api

open Guard Image Text List

section
variable (tokenizer : Tokenizer)

def Tokenizer.spell (ids : List Token) : Option Bytes := (ids.mapM tokenizer.piece).map List.flatten

end

section
variable {tokenizer : Tokenizer}

lemma spell_append {first se : List Token} {text te' : Bytes}
    (h : tokenizer.spell first = some text) (h' : tokenizer.spell se = some te') :
    tokenizer.spell (first ++ se) = some (text ++ te') := by
  obtain ⟨ps, hp, rfl⟩ := Option.map_eq_some_iff.1 h
  obtain ⟨ps', hp', rfl⟩ := Option.map_eq_some_iff.1 h'
  rw [Tokenizer.spell, mapM_append, hp, hp']
  simp

lemma spell_singleton {id : Token} {text : Bytes} (h : tokenizer.piece id = some text) :
    tokenizer.spell [id] = some text := by
  simp [Tokenizer.spell, h]

lemma spell_of_decodeIds {ids : List Token} {text : Bytes}
    (h : tokenizer.decodeIds ids = some text) : tokenizer.spell ids = some text := by
  unfold Tokenizer.decodeIds at h
  split at h
  · cases h
  · exact h

/-- Decoding what was encoded gives the text back, for every text the interface can be given. -/
structure Tokenizer.RoundTrips (tokenizer : Tokenizer) (start stop : Bytes) : Prop where
  text : ∀ text ids, (0 : UInt8) ∉ text → text ≠ [] → tokenizer.encode text = .ok ids →
    tokenizer.decodeIds ids = some text
  start : tokenizer.piece tokenizer.imStart = some start
  stop : tokenizer.piece tokenizer.imEnd = some stop

end

/-- The tokenizer that was read from its file, as the server calls it. -/
def Tokenizer.ofFile (t : Tokenization.Tokenizer) (capacity : Nat) (imStart imEnd : Token) :
    Tokenizer where
  encode text := Tokenization.encodeText t text capacity
  piece id := (t.idToToken id).filter fun piece => piece ≠ [] ∨ id = 0
  imStart
  imEnd

section
variable {t : Tokenization.Tokenizer} {capacity room : Nat} {imStart imEnd : Token}

lemma spell_of_decodeAll {ids : List Token} {out text : Bytes}
    (h : ids.foldlM (Tokenization.decodeId t room) out = .ok text) :
    ∃ pieces, ids.mapM (Tokenizer.ofFile t capacity imStart imEnd).piece = some pieces ∧
      text = out ++ pieces.flatten := by
  induction ids generalizing out with
  | nil =>
    cases h
    exact ⟨[], rfl, by simp⟩
  | cons id ids ih =>
    rw [foldlM_cons] at h
    obtain ⟨next, hn, h⟩ := bind_eq_ok.1 h
    obtain ⟨pieces, hp, rfl⟩ := ih h
    unfold Tokenization.decodeId at hn
    split at hn
    · cases hn
    next piece hpiece =>
      split_ifs at hn with hempty hroom
      cases hn
      refine ⟨piece :: pieces, ?_, by simp⟩
      have hfirst : (Tokenizer.ofFile t capacity imStart imEnd).piece id = some piece := by
        simp only [Tokenizer.ofFile, hpiece, Option.filter_eq_some_iff, true_and]
        grind
      rw [mapM_cons, hfirst, hp]
      rfl

/-- What is assumed of the server's tokenizer holds of one whose tables read back. -/
theorem Tokenizer.roundTrips_ofFile {start stop : Bytes} (h : Tokenization.ReadsBack t)
    (hstart : (ofFile t capacity imStart imEnd).piece imStart = some start)
    (hstop : (ofFile t capacity imStart imEnd).piece imEnd = some stop) :
    (ofFile t capacity imStart imEnd).RoundTrips start stop where
  text text ids hn hne he := by
    have hd := Tokenization.decodeIds_encodeText h hn hne he (Nat.lt_succ_self text.length)
    rw [Tokenization.decodeIds] at hd
    split at hd
    · cases hd
    next hids =>
      obtain ⟨pieces, hp, htext⟩ := @spell_of_decodeAll _ capacity _ imStart imEnd _ _ _ hd
      rw [Tokenizer.decodeIds, if_neg (by simp_all), hp, htext]
      rfl
  start := hstart
  stop := hstop

end

section
variable (start stop : Bytes)

def turnText (turn : ChatTurn) : Bytes :=
  start ++ turn.role.text ++ ascii "\n" ++ turn.content ++ stop ++ ascii "\n"

def promptText (turns : List ChatTurn) (noThink : Bool) : Bytes :=
  turns.flatMap (turnText start stop) ++ (start ++ ascii "assistant\n" ++ thinkPrefix noThink)

end

def ChatTurn.cut (turn : ChatTurn) : ChatTurn := { turn with content := cString turn.content }

section
variable {tokenizer : Tokenizer} {limit : Nat} {start stop : Bytes}

lemma zero_not_mem_role (ro : Role) : (0 : UInt8) ∉ ro.text ++ ascii "\n" := by
  cases ro <;> decide

section
variable (hround : tokenizer.RoundTrips start stop)
include hround

lemma spell_encodeChatTurn {turn : ChatTurn} {item : EncodedTurn}
    (h : encodeChatTurn tokenizer limit turn = .ok item) :
    item.turn = turn ∧ tokenizer.spell item.ids = some (turnText start stop turn.cut) := by
  obtain ⟨text, newline, htext, hnewl, rfl⟩ := encodeChatTurn_eq_ok h
  refine ⟨rfl, ?_⟩
  rw [cString_append (zero_not_mem_role turn.role)] at htext
  have hbd := spell_of_decodeIds (hround.text _ _ (by
    rw [mem_append, not_or]
    exact ⟨zero_not_mem_role turn.role, zero_not_mem_cString _⟩) (by
    cases turn.role <;> exact append_ne_nil_of_left_ne_nil (by decide) _) htext)
  rw [cString_of_not_mem (by decide)] at hnewl
  have hli := spell_of_decodeIds (hround.text _ newline (by decide) (by decide) hnewl)
  have ha := spell_append (spell_append (spell_append (spell_singleton hround.start) hbd)
    (spell_singleton hround.stop)) hli
  simpa [turnText, ChatTurn.cut] using ha

lemma spell_encodeTurns {turns : List ChatTurn} {rawTokens total : Nat} {encoded : List EncodedTurn}
    (h : encodeTurns tokenizer limit turns rawTokens = .ok (encoded, total)) :
    tokenizer.spell (idsOf encoded) =
    some ((turns.map ChatTurn.cut).flatMap (turnText start stop)) := by
  induction turns generalizing rawTokens encoded with
  | nil =>
    cases h
    rfl
  | cons turn turns ih =>
    obtain ⟨item, hitem, h⟩ := bind_eq_ok.1 h
    obtain ⟨_, h⟩ := refuse_eq_ok.1 h
    obtain ⟨⟨items, total'⟩, hit, h⟩ := bind_eq_ok.1 h
    obtain ⟨rfl, rfl⟩ := Prod.mk.inj (pure_eq_ok.1 h)
    have hh := (spell_encodeChatTurn hround (orTooLong_eq_ok.1 hitem)).2
    exact spell_append hh (ih hit)

lemma spell_encodeAssistantPrefix {noThink : Bool} {ids : List Token}
    (h : encodeAssistantPrefix tokenizer limit noThink = .ok ids) :
    tokenizer.spell ids = some (start ++ ascii "assistant\n" ++ thinkPrefix noThink) := by
  obtain ⟨first, hf, h⟩ := bind_eq_ok.1 h
  obtain ⟨he, hh, rfl⟩ := appendTextIds_eq_ok hf
  obtain ⟨th, ht, rfl⟩ := appendTextIds_eq_ok h
  have htext : ∀ text ids, (0 : UInt8) ∉ text → text ≠ [] →
      tokenizer.encode (cString text) = .ok ids → tokenizer.spell ids = some text := by
    intro text ids hz hn hi
    rw [cString_of_not_mem hz] at hi
    exact spell_of_decodeIds (hround.text text ids hz hn hi)
  have hz : (0 : UInt8) ∉ thinkPrefix noThink := by cases noThink <;> decide
  have hn : thinkPrefix noThink ≠ [] := by cases noThink <;> decide
  exact spell_append (spell_append (spell_singleton hround.start)
    (htext _ _ (by decide) (by decide) hh)) (htext _ _ hz hn ht)

end

lemma length_turnText (tu : ChatTurn) : (turnText start stop tu).length =
    start.length + tu.role.text.length + stop.length + 2 + tu.content.length := by
  have hl : (ascii "\n").length = 1 := by decide
  simp only [turnText, length_append, hl]
  omega

variable (turns : List ChatTurn)

lemma length_cut_le : ((turns.map ChatTurn.cut).flatMap (turnText start stop)).length ≤
    (turns.flatMap (turnText start stop)).length := by
  induction turns with
  | nil => exact le_refl _
  | cons tu turns ih =>
    have hl : (cString tu.content).length ≤ tu.content.length :=
      IsPrefix.length_le <| takeWhile_prefix _
    rw [map_cons, flatMap_cons, flatMap_cons, length_append,
      length_append, length_turnText, length_turnText]
    change _ + (cString tu.content).length + _ ≤ _
    change start.length + tu.role.text.length + stop.length + 2 + _ + _ ≤ _
    omega

lemma cut_eq_iff :
    (turns.map ChatTurn.cut).flatMap (turnText start stop) = turns.flatMap (turnText start stop) ↔
    ∀ tu ∈ turns, (0 : UInt8) ∉ tu.content := by
  constructor
  · intro he
    have hl := congrArg length he
    clear he
    induction turns with
    | nil => simp
    | cons tu turns ih =>
      have hle : (cString tu.content).length ≤ tu.content.length :=
        IsPrefix.length_le <| takeWhile_prefix _
      have hre := @length_cut_le start stop turns
      rw [map_cons, flatMap_cons, flatMap_cons, length_append,
        length_append, length_turnText, length_turnText] at hl
      change start.length + tu.role.text.length + stop.length + 2 +
        (cString tu.content).length + _ = _ at hl
      intro o ho
      rcases mem_cons.1 ho with rfl | hm
      · intro hz
        have := length_cString_lt hz
        omega
      · exact ih (by omega) o hm
  · intro ha
    congr 1
    rw [map_congr_left, map_id]
    intro tu ht
    rw [ChatTurn.cut, cString_of_not_mem (ha tu ht)]
    rfl

end

section
variable {render : Rendering}

def Within (text : Bytes) (turns : List ChatTurn) : Prop := ∃ turn ∈ turns, text <:+: turn.content

/-- The content and, in an assistant message, the tool calls of a message stand in the turns. -/
def MessageWithin (render : Rendering) (message : Ajson) (turns : List ChatTurn) : Prop :=
  Within (contentText render (message.field "content")) turns ∧
    ((message.field "role").bind Ajson.text? = some (ascii "assistant") →
      Within (toolCallText render message) turns)

variable {turns turns' : List ChatTurn} {previous : Bool}

lemma within_append {text : Bytes} (mo : List ChatTurn) (h : Within text turns) :
    Within text (turns ++ mo) := by
  obtain ⟨tu, ht, hi⟩ := h
  exact ⟨tu, mem_append_left _ ht, hi⟩

lemma within_last {text : Bytes} (turns : List ChatTurn) {tu : ChatTurn}
    (h : text <:+: tu.content) : Within text (turns ++ [tu]) :=
  ⟨tu, by simp, h⟩

lemma joinToolReply_concat (turns : List ChatTurn) (turn : ChatTurn) (text : Bytes) :
    joinToolReply (turns ++ [turn]) text =
    turns ++ [{ turn with content := turn.content ++ ascii "\n" ++ text }] := by
  rw [joinToolReply, modifyLast_concat]

lemma within_joinToolReply {text re : Bytes} (h : Within text turns) :
    Within text (joinToolReply turns re) := by
  obtain ⟨tu, ht, hi⟩ := h
  rcases eq_nil_or_concat turns with rfl | ⟨f, l, rfl⟩
  · cases ht
  · rw [concat_eq_append] at ht ⊢
    rw [joinToolReply_concat]
    rcases mem_append.1 ht with hf | hla
    · exact ⟨tu, mem_append_left _ hf, hi⟩
    · rw [mem_singleton.1 hla] at hi
      refine within_last f ?_
      dsimp only
      rw [append_assoc]
      exact hi.trans infix_append_left

lemma infix_assistantText (message : Ajson) :
    contentText render (message.field "content") <:+: assistantText render message ∧
    toolCallText render message <:+: assistantText render message := by
  unfold assistantText
  dsimp only
  split
  next hca =>
    rw [hca]
    exact ⟨infix_append_right, nil_infix⟩
  next =>
    split
    next hc =>
      rw [hc]
      exact And.intro nil_infix infix_append_right
    next =>
      refine ⟨?_, ?_⟩
      · rw [append_assoc]
        exact infix_append_left.trans infix_append_right
      · exact infix_append_right.trans infix_append_right

variable (hn : previous → turns ≠ [])
include hn

/-- One message: what stood in the turns still does, and so does the message. -/
lemma appendMessage_within {p' : Bool} {me : Ajson}
    (h : appendMessage render turns previous me = .ok (turns', p')) :
    (∀ text, Within text turns → Within text turns') ∧ MessageWithin render me turns' ∧
    (p' → turns' ≠ []) := by
  unfold appendMessage at h
  dsimp only at h
  split at h
  next =>
    cases h
    obtain ⟨hc, hca⟩ := @infix_assistantText render me
    exact ⟨fun text => within_append _, ⟨within_last _ hc, fun _ => within_last _ hca⟩, nofun⟩
  next hr =>
    split at h
    · cases h
    next content hc =>
      have ho : ∀ turns', Within (messageContentText render content) turns' →
          MessageWithin render me turns' := by
        intro turns' hw
        refine ⟨?_, fun ha => absurd ha hr⟩
        rw [hc]
        exact hw
      split at h
      next =>
        cases h
        have hre : messageContentText render content <:+:
            toolResponseOpen ++ messageContentText render content ++ toolResponseClose :=
          infix_append _ _ _
        cases hprev : previous with
        | false =>
          exact ⟨fun text => within_append _, ho _ (within_last _ hre), by simp⟩
        | true =>
          refine ⟨fun text => within_joinToolReply, ?_, fun _ => ?_⟩
          · obtain ⟨f, l, rfl⟩ := (eq_nil_or_concat turns).resolve_left (hn hprev)
            rw [concat_eq_append] at *
            rw [if_pos rfl, joinToolReply_concat]
            exact ho _ (within_last _ (hre.trans infix_append_right))
          · obtain ⟨f, l, rfl⟩ := (eq_nil_or_concat turns).resolve_left (hn hprev)
            rw [concat_eq_append, if_pos rfl, joinToolReply_concat]
            simp
      next =>
        split at h
        · cases h
          exact ⟨fun text => within_append _, ho _ (within_last _ (infix_refl _)), nofun⟩
        · split at h
          · cases h
            exact ⟨fun text => within_append _, ho _ (within_last _ (infix_refl _)), nofun⟩
          · cases h

lemma appendMessages_within {ms : List Ajson}
    (h : appendMessages render turns previous ms = .ok turns') :
    (∀ text, Within text turns → Within text turns') ∧
    ∀ me ∈ ms, MessageWithin render me turns' := by
  induction ms generalizing turns previous with
  | nil =>
    rw [← Except.ok.inj h]
    exact ⟨fun _ => id, by simp⟩
  | cons me ms ih =>
    obtain ⟨⟨next, p'⟩, hnext, h⟩ := bind_eq_ok.1 h
    obtain ⟨hk, hms, hn'⟩ := appendMessage_within hn hnext
    obtain ⟨hk', hre⟩ := ih hn' h
    refine ⟨fun text ht => hk' text (hk text ht), ?_⟩
    intro o ho
    rcases mem_cons.1 ho with rfl | hm
    · exact ⟨hk' _ hms.1, fun hr => hk' _ (hms.2 hr)⟩
    · exact hre o hm

end

def requestMessages (request : ChatRequest) : List Ajson :=
  match request.payload.field "messages" with
  | some (.arr messages) => messages
  | _ => []

section
variable (render : Rendering)

/-- The arguments of a call, given as an object or as the text of one. -/
def ArgumentsOf (function : Ajson) (args : List (Bytes × Ajson)) : Prop :=
  function.field "arguments" = some (.obj args) ∨
    ∃ s, function.field "arguments" = some (.str s) ∧ render.parse s = some (.obj args)

/-- The parts of a tool call: its name, the names and the values of its arguments, and an argument
text that is no object. -/
inductive SaysCall (call : Ajson) : Bytes → Prop
  | name {function : Ajson} {name : Bytes} (hf : call.field "function" = some function)
      (hn : function.field "name" = some (.str name)) : SaysCall call name
  | key {function : Ajson} {args : List (Bytes × Ajson)} {arg : Bytes × Ajson}
      (hf : call.field "function" = some function) (ha : ArgumentsOf render function args)
      (hm : arg ∈ args) : SaysCall call arg.1
  | text {function : Ajson} {args : List (Bytes × Ajson)} {key s : Bytes}
      (hf : call.field "function" = some function) (ha : ArgumentsOf render function args)
      (hm : (key, .str s) ∈ args) : SaysCall call s
  | value {function value : Ajson} {args : List (Bytes × Ajson)} {key : Bytes}
      (hf : call.field "function" = some function) (ha : ArgumentsOf render function args)
      (hm : (key, value) ∈ args) (hv : ∀ s, value ≠ .str s) : SaysCall call (render.dumps value)
  | other {function : Ajson} {s : Bytes} (hf : call.field "function" = some function)
      (hs : function.field "arguments" = some (.str s))
      (hno : ∀ args, render.parse s ≠ some (.obj args)) : SaysCall call s

/-- A call has a function with a name, and an argument text is that of an object. -/
def WellFormed (call : Ajson) : Prop :=
  ∃ members name, call.field "function" = some (.obj members) ∧
    (Ajson.obj members).field "name" = some (.str name) ∧ name ≠ [] ∧
    ∀ s, (Ajson.obj members).field "arguments" = some (.str s) →
      ∃ args, render.parse s = some (.obj args)

/-- `call` is one of the `tool_calls` of an assistant message. -/
def CallIn (request : ChatRequest) (call : Ajson) : Prop :=
  ∃ message ∈ requestMessages request, ∃ calls,
    (message.field "role").bind Ajson.text? = some (ascii "assistant") ∧
      message.field "tool_calls" = some (.arr calls) ∧ call ∈ calls

end

/-- The ids decode to the ChatML text of the turns, and the turns hold every text that is the
content of a message, a leading system message included, and every part of every tool call. -/
structure CarriesTranscript (render : Rendering) (state : Server) (request : ChatRequest)
    (start stop : Bytes) (noThink : Bool) (turns : List ChatTurn) (ids : List Token) : Prop where
  text : state.tokenizer.decodeIds ids = some (promptText start stop turns noThink)
  contents : ∀ message ∈ requestMessages request, ∀ text,
    message.field "content" = some (.str text) → text ≠ [] → Within text turns
  calls : ∀ call, CallIn request call → ∀ part, SaysCall render call part → Within part turns

section
variable {render : Rendering}

/-- What is joined already stays in front of the texts that follow. -/
lemma infix_joined (texts : List Bytes) (out : Bytes) : out <:+: texts.foldl (fun out text =>
    if text = [] then out else if out = [] then text else out ++ ascii "\n" ++ text) out := by
  induction texts generalizing out with
  | nil => exact infix_rfl
  | cons first texts ih =>
    refine IsInfix.trans ?_ (ih _)
    dsimp only
    split_ifs with h1 h2
    · exact infix_rfl
    · rw [h2]
      exact nil_infix
    · rw [append_assoc]
      exact infix_append_left

lemma infix_joinLines {text : Bytes} {texts : List Bytes} (h : text ∈ texts) :
    text <:+: joinLines texts := by
  obtain ⟨xs, ys, rfl⟩ := append_of_mem h
  rw [joinLines, foldl_append, foldl_cons]
  refine IsInfix.trans ?_ (infix_joined ys _)
  split_ifs with h1 h2
  · rw [h1]
    exact nil_infix
  · exact infix_rfl
  · exact infix_append_right

def argumentText (render : Rendering) (arg : Bytes × Ajson) : Bytes :=
  ascii "<parameter=" ++ arg.1 ++ ascii ">\n" ++
    (match arg.2 with
    | .str s => s
    | value => render.dumps value) ++ ascii "\n</parameter>\n"

/-- A call that is well formed is written with its name and all of its arguments. -/
lemma nativeToolCallText_eq {call : Ajson} (h : WellFormed render call) :
    ∃ function name args, call.field "function" = some function ∧
      function.field "name" = some (.str name) ∧
      (∀ args', ArgumentsOf render function args' → args' = args) ∧
      nativeToolCallText render call = ascii "<tool_call>\n<function=" ++ name ++ ascii ">\n" ++
        args.flatMap (argumentText render) ++ ascii "</function>\n</tool_call>" := by
  obtain ⟨members, name, hf, hn, hne, hargs⟩ := h
  cases name with
  | nil => exact absurd rfl hne
  | cons first name =>
    refine ⟨.obj members, first :: name, _, hf, hn, fun args' ha => ?_, by
      unfold nativeToolCallText
      rw [hf]
      dsimp only
      rw [hn]
      rfl⟩
    rcases ha with ha | ⟨s, ha, hp⟩
    · rw [ha]
    · rw [ha]
      dsimp only
      rw [hp]

lemma saysCall_infix {call : Ajson} {part : Bytes} (h : WellFormed render call)
    (hs : SaysCall render call part) : part <:+: nativeToolCallText render call := by
  obtain ⟨function, name, args, hf, hn, hargs, heq⟩ := nativeToolCallText_eq h
  have harg {arg : Bytes × Ajson} (hm : arg ∈ args) :
      argumentText render arg <:+: nativeToolCallText render call := by
    rw [heq]
    refine IsInfix.trans (infix_of_mem_flatten (mem_map_of_mem hm)) ?_
    exact infix_append_right.trans infix_append_left
  cases hs with
  | name hf' hn' =>
    cases hf.symm.trans hf'
    cases hn.symm.trans hn'
    rw [heq, append_assoc, append_assoc]
    exact ⟨_, _, rfl⟩
  | key hf' ha hm =>
    cases hf.symm.trans hf'
    rw [hargs _ ha] at hm
    refine IsInfix.trans ?_ (harg hm)
    unfold argumentText
    exact ((infix_append_right.trans infix_append_left).trans infix_append_left).trans
      infix_append_left
  | text hf' ha hm =>
    cases hf.symm.trans hf'
    rw [hargs _ ha] at hm
    exact IsInfix.trans ⟨_, _, rfl⟩ (harg hm)
  | @value _ value _ key hf' ha hm hv =>
    cases hf.symm.trans hf'
    rw [hargs _ ha] at hm
    have heq : argumentText render (key, value) = ascii "<parameter=" ++ key ++ ascii ">\n" ++
        render.dumps value ++ ascii "\n</parameter>\n" := by
      cases value with
      | str s => exact absurd rfl (hv s)
      | null | bool _ | int _ | num _ | arr _ | obj _ => rfl
    exact IsInfix.trans ⟨_, _, heq.symm⟩ (harg hm)
  | other hf' hs hno =>
    cases hf.symm.trans hf'
    obtain ⟨members, name', hf'', hn', -, hall⟩ := h
    cases hf.symm.trans hf''
    obtain ⟨args', hp⟩ := hall _ hs
    exact absurd hp (hno args')

lemma contentText_str (s : Bytes) : contentText render (some (.str s)) = s := by
  rw [contentText, messageContentText]

/-- A leading system message stands in the system turn. -/
lemma infix_systemParts {payload first : Ajson} {rest tools : List Ajson} {noThink : Bool}
    {text : Bytes} (hr : (first.field "role").bind Ajson.text? = some (ascii "system"))
    (hc : first.field "content" = some (.str text)) (hne : text ≠ []) :
    text <:+: messageContentText render
      (.arr (systemParts render payload (first :: rest) tools noThink)) := by
  have hm : Ajson.str text ∈ systemParts render payload (first :: rest) tools noThink := by
    unfold systemParts
    dsimp only
    rw [if_pos hr, hc, Option.toList_some, foldl_append, foldl_cons, foldl_nil]
    cases text with
    | nil => exact absurd rfl hne
    | cons c text => exact mem_append_right _ (mem_singleton_self _)
  rw [messageContentText]
  exact infix_of_mem_flatten (mem_map.2 ⟨⟨.str text, hm⟩, mem_attach _ _, rfl⟩)

lemma chatTurns_within {payload : Ajson} {messages tools : List Ajson} {noThink : Bool}
    {turns : List ChatTurn} (h : chatTurns render payload messages tools noThink = .ok turns) :
    (∀ message ∈ messages, ∀ text, message.field "content" = some (.str text) → text ≠ [] →
      Within text turns) ∧
    ∀ message ∈ messages, (message.field "role").bind Ajson.text? = some (ascii "assistant") →
      Within (toolCallText render message) turns := by
  unfold chatTurns at h
  obtain ⟨hkept, hall⟩ := appendMessages_within (fun h => absurd h Bool.false_ne_true) h
  have hcontent {message : Ajson} (hm : message ∈ messages.drop (firstMessage messages))
      {text : Bytes} (hc : message.field "content" = some (.str text)) : Within text turns := by
    have hw := (hall message hm).1
    rwa [hc, contentText_str] at hw
  rcases messages with _ | ⟨first, rest⟩
  · exact ⟨fun _ h => absurd h not_mem_nil, fun _ h => absurd h not_mem_nil⟩
  by_cases hf : (first.field "role").bind Ajson.text? = some (ascii "system") ∧
      (first.field "content").isSome
  · have hfirst : firstMessage (first :: rest) = 1 := if_pos hf
    rw [hfirst] at hall hcontent
    refine ⟨fun message hm text hc hne => ?_, fun message hm hr => ?_⟩
    · rcases mem_cons.1 hm with rfl | hm
      · have hinf := @infix_systemParts render payload _ rest tools noThink text hf.1 hc hne
        refine hkept text ?_
        rw [if_neg fun h0 => hne (by rw [h0] at hinf; exact infix_nil.1 hinf)]
        exact ⟨_, mem_singleton_self _, hinf⟩
      · exact hcontent hm hc
    · rcases mem_cons.1 hm with rfl | hm
      · rw [hf.1] at hr
        exact absurd hr (by decide)
      · exact (hall message hm).2 hr
  · have hfirst : firstMessage (first :: rest) = 0 := if_neg hf
    rw [hfirst, drop_zero] at hall hcontent
    exact ⟨fun message hm text hc _ => hcontent hm hc, fun message hm => (hall message hm).2⟩

end

variable {state : Server} {request : ChatRequest} {prepared : Prepared}

lemma prepareTurns_eq_ok {render : Rendering}
    (h : prepareTurns render state request = .ok prepared) :
    ∃ noThink tools total, render.resolveNoThink request.payload = .ok noThink ∧
    chatTurns render request.payload (requestMessages request) tools noThink =
    .ok prepared.turns ∧ encodeTurns state.tokenizer state.historyLimit prepared.turns 0 =
    .ok (prepared.encoded, total) ∧
    encodeAssistantPrefix state.tokenizer state.contextLimit noThink =
    .ok prepared.assistantPrefix := by
  obtain ⟨messages, hmess, h⟩ := bind_eq_ok.1 h
  obtain ⟨_, h⟩ := refuse_eq_ok.1 h
  obtain ⟨noThink, hnoTh, h⟩ := bind_eq_ok.1 h
  obtain ⟨tools, _, h⟩ := bind_eq_ok.1 h
  obtain ⟨turns, htu, h⟩ := bind_eq_ok.1 h
  obtain ⟨⟨encoded, total⟩, henc, h⟩ := bind_eq_ok.1 h
  obtain ⟨assistantPrefix, hassistant, h⟩ := bind_eq_ok.1 h
  obtain ⟨_, h⟩ := refuse_eq_ok.1 h
  obtain ⟨suffix, _, h⟩ := bind_eq_ok.1 h
  obtain rfl := pure_eq_ok.1 h
  have hs : requestMessages request = messages := by
    unfold requestMessages
    revert hmess
    split
    · rename_i heq
      intro hmess
      rw [heq]
      exact Except.ok.inj hmess
    · intro hmess
      cases hmess
  rw [hs]
  exact ⟨noThink, tools, total, hnoTh, htu, henc, orTooLong_eq_ok.1 hassistant⟩

lemma makeChatIds_raw {render : Rendering} {prompt : ChatPrompt}
    (hp : prepareTurns render state request = .ok prepared)
    (h : makeChatIds render state request = .ok prompt) (hr : prompt.compaction = none) :
    prompt.ids = idsOf prepared.encoded ++ prepared.assistantPrefix ∧ prompt.ids ≠ [] := by
  have he : emitRaw state prepared = .ok prompt := by
    obtain ⟨p', hs, h⟩ := bind_eq_ok.1 h
    cases hp.symm.trans hs
    obtain ⟨p, _, h⟩ := bind_eq_ok.1 h
    cases p with
    | none => exact h
    | some p =>
      unfold emitPrompt at h
      dsimp only at h
      split at h
      · rw [← Except.ok.inj h] at hr
        cases hr
      · exact h
  obtain ⟨hsz, he⟩ := refuse_eq_ok.1 he
  obtain rfl := pure_eq_ok.1 he
  exact ⟨rfl, fun hn => hsz (.inl hn)⟩

def byteTokenizer : Tokenizer where
  encode := fun text => .ok (text.map UInt8.toUInt32)
  piece := fun id =>
    if id = 1000 then some (ascii "<|im_start|>")
    else if id = 1001 then some (ascii "<|im_end|>")
    else if id < 256 then some [id.toUInt8] else none
  imStart := 1000
  imEnd := 1001

lemma byteTokenizer_piece (b : UInt8) : byteTokenizer.piece b.toUInt32 = some [b] := by
  have hl : b.toUInt32.toNat < 256 := by
    rw [UInt8.toNat_toUInt32]
    exact b.toNat_lt
  have hn : ∀ id : UInt32, 256 ≤ id.toNat → b.toUInt32 ≠ id := by
    rintro id hi rfl
    omega
  change (if b.toUInt32 = 1000 then _ else _) = _
  rw [if_neg (hn 1000 (by decide)), if_neg (hn 1001 (by decide)),
    if_pos (UInt32.lt_iff_toNat_lt.2 hl), UInt8.toUInt8_toUInt32]

lemma byteTokenizer_roundTrips :
    byteTokenizer.RoundTrips (ascii "<|im_start|>") (ascii "<|im_end|>") := by
  refine ⟨fun text ids _ hn hi => ?_, rfl, rfl⟩
  have hs : ∀ text : Bytes, byteTokenizer.spell (text.map UInt8.toUInt32) = some text := by
    intro text
    induction text with
    | nil => rfl
    | cons b text ih => exact spell_append (spell_singleton (byteTokenizer_piece b)) ih
  cases hi
  rw [Tokenizer.decodeIds, if_neg (by simpa using hn)]
  exact hs text

def byteServer : Server := ⟨byteTokenizer, false, 200, 200⟩

def oneMessage (content : String) : ChatRequest := plainRequest [plainMessage "user" content]

def oneTurn (content : String) : ChatTurn :=
  ⟨.user, ascii content, ascii "<tool_response>" <:+: ascii content⟩

def opening : List Token :=
  1000 :: (ascii "assistant\n").map UInt8.toUInt32 ++ kNoThinkingPrefix.map UInt8.toUInt32

/-- What `oneMessage` is prepared to; `text` is what the tokenizer sees of the turn. -/
def onePrepared (content : String) (text : Bytes) : Prepared :=
  ⟨[oneTurn content], [⟨oneTurn content, 1000 :: text.map UInt8.toUInt32 ++ [1001, 10]⟩], opening,
    text.length + 33, [], false⟩

lemma chatTurns_oneMessage (content : String) :
    chatTurns plainRendering (oneMessage content).payload [plainMessage "user" content] [] true =
    .ok [oneTurn content] := by
  unfold chatTurns
  change appendMessages plainRendering
    (if messageContentText plainRendering (.arr []) = [] then [] else _) false
    [plainMessage "user" content] = _
  rw [messageContentText_nil, if_pos rfl, appendMessages, appendMessage_user]
  rfl

section
variable {content : String} {text : Bytes}

section
variable (htext : cString (Role.user.text ++ ascii "\n" ++ ascii content) = text)
  (hshort : text.length ≤ 20)
include htext hshort

lemma prepareTurns_oneMessage : prepareTurns plainRendering byteServer (oneMessage content) =
    .ok (onePrepared content text) := by
  have ht : encodeChatTurn byteTokenizer 200 (oneTurn content) =
      .ok ⟨oneTurn content, 1000 :: text.map UInt8.toUInt32 ++ [1001, 10]⟩ :=
    @encodeChatTurn_of_fits byteTokenizer 200 _ _ [10] (congrArg byteTokenizer.encode htext) rfl
      (by simp; omega) (by simp; omega)
  have ho : opening.length = 30 := by decide
  refine bind_eq_ok.2 ⟨_, rfl, ?_⟩
  refine refuse_eq_ok.2 ⟨by decide, ?_⟩
  refine bind_eq_ok.2 ⟨true, rfl, ?_⟩
  refine bind_eq_ok.2 ⟨[], rfl, ?_⟩
  refine bind_eq_ok.2 ⟨_, chatTurns_oneMessage content, ?_⟩
  refine bind_eq_ok.2 ⟨_, encodeTurns_cons ht ?_ rfl, ?_⟩
  · change 0 + (1000 :: text.map UInt8.toUInt32 ++ [1001, 10]).length ≤ 200
    simp
    omega
  refine bind_eq_ok.2 ⟨opening, rfl, ?_⟩
  dsimp only
  refine refuse_eq_ok.2 ⟨?_, ?_⟩
  · rw [ho]
    change ¬ (200 < 0 + (1000 :: text.map UInt8.toUInt32 ++ [1001, 10]).length + 30)
    simp
    omega
  · rw [ho]
    simp [resumeSuffix, resumeTail, onePrepared, add_assoc]

lemma makeChatIds_oneMessage : makeChatIds plainRendering byteServer (oneMessage content) =
    .ok ⟨1000 :: text.map UInt8.toUInt32 ++ [1001, 10] ++ opening, [], text.length + 33,
    none⟩ := by
  have ho : opening.length = 30 := by decide
  refine bind_eq_ok.2 ⟨_, prepareTurns_oneMessage htext hshort, ?_⟩
  refine bind_eq_ok.2 ⟨none, rfl, ?_⟩
  refine refuse_eq_ok.2 ⟨?_, ?_⟩
  · simp [onePrepared, idsOf, ho, byteServer]
    omega
  · simp [onePrepared, idsOf]
    rfl

end

end

lemma noCalls_oneMessage {text : String} :
    ∀ call, CallIn (oneMessage text) call → WellFormed plainRendering call := by
  rintro call ⟨message, hm, calls, -, hc, -⟩
  rw [mem_singleton.1 hm] at hc
  cases hc

end AxiomKernel.Qwen38.Api
