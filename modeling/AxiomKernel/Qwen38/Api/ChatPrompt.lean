import AxiomKernel.Json
import AxiomKernel.Qwen38.Api.OutputBudget

/-!
# The prompt of a chat request

`make_chat_ids` of `tools/axiom_qwen38_api.cpp`: messages become turns, turns become tokens, and
the governor compacts a long history. Texts are bytes. The tokenizer, the JSON reader and writer,
the tool catalog and the reasoning switch are the surroundings of the function.
-/
namespace AxiomKernel.Qwen38.Api

open Guard Image Text

/-- `axiom_tokenizer_encode_text` reads a C string; its answer is the ids of that text, or an
error. Decoding goes piece by piece. -/
structure Tokenizer where
  encode : Bytes → Except Status (List Token)
  piece : Token → Option Bytes
  imStart : Token
  imEnd : Token

def Tokenizer.decodeIds (tokenizer : Tokenizer) (ids : List Token) : Option Bytes :=
  if ids = [] then none else (ids.mapM tokenizer.piece).map List.flatten

inductive Role where
  | system
  | user
  | assistant
  deriving DecidableEq, Repr

def Role.text : Role → Bytes
  | .system => ascii "system"
  | .user => ascii "user"
  | .assistant => ascii "assistant"

structure ChatTurn where
  role : Role
  content : Bytes
  toolResponse : Bool := false
  deriving DecidableEq, Repr

structure EncodedTurn where
  turn : ChatTurn
  ids : List Token
  deriving DecidableEq, Repr

structure Rendering where
  dumps : Ajson → Bytes
  parse : Bytes → Option Ajson
  resolveNoThink : Ajson → Except String Bool
  normalizeTools : Option Ajson → Bool → Except String (List Ajson)
  reasoningInstruction : Ajson → Bytes
  toolsPrompt : List Ajson → Option Ajson → Bytes

def kNoThinkingPrefix : Bytes := ascii "<think>\n\n</think>\n\n"
def toolResponseOpen : Bytes := ascii "<tool_response>\n"
def toolResponseClose : Bytes := ascii "\n</tool_response>"

def isWhitespace (byte : UInt8) : Bool := byte = 32 || byte = 9 || byte = 13 || byte = 10

def trimText (value : Bytes) : Bytes :=
  ((value.dropWhile isWhitespace).reverse.dropWhile isWhitespace).reverse

section
variable (render : Rendering)

def messageContentText (content : Ajson) : Bytes :=
  match content with
  | .null => []
  | .str s => s
  | .arr items =>
    (items.attach.map fun ⟨item, _hmem⟩ =>
      match item with
      | .str s => s
      | .obj members =>
        let object := Ajson.obj members
        if (object.field "type").bind Ajson.text? = some (ascii "tool_result") then
          toolResponseOpen ++
            (match _hget : object.field "content" with
            | some inner => messageContentText inner
            | none => []) ++ toolResponseClose
        else
          match (object.field "text").bind Ajson.text? with
          | some s => s
          | none =>
            match _hget : object.field "content" with
            | some (.str s) => s
            | some (.arr inner) => messageContentText (.arr inner)
            | _ => []
      | _ => []).flatten
  | value => render.dumps value
termination_by sizeOf content
decreasing_by
  all_goals
    have hchild := Ajson.sizeOf_get _hget
    have hitem := List.sizeOf_lt_of_mem _hmem
    simp only [Ajson.arr.sizeOf_spec] at hchild ⊢
    simp only [object] at hchild
    omega

variable (content : Option Ajson)

def contentText : Bytes :=
  match content with
  | some content => messageContentText render content
  | none => []

def nativeToolCallText (call : Ajson) : Bytes :=
  match call.field "function" with
  | some (.obj members) =>
    let function := Ajson.obj members
    match (function.field "name").bind Ajson.text? with
    | none | some [] => []
    | some name =>
      let args : List (Bytes × Ajson) :=
        match function.field "arguments" with
        | some (.str s) =>
          match render.parse s with
          | some (.obj args) => args
          | _ => []
        | some (.obj args) => args
        | _ => []
      ascii "<tool_call>\n<function=" ++ name ++ ascii ">\n" ++
        args.flatMap (fun arg =>
          ascii "<parameter=" ++ arg.1 ++ ascii ">\n" ++
            (match arg.2 with
            | .str s => s
            | value => render.dumps value) ++ ascii "\n</parameter>\n") ++
        ascii "</function>\n</tool_call>"
  | _ => []

def joinLines (texts : List Bytes) : Bytes := texts.foldl (fun out text =>
    if text = [] then out else if out = [] then text else out ++ ascii "\n" ++ text) []

def nativeToolCallsFromContent : Bytes :=
  match content with
  | some (.arr items) =>
    joinLines <| items.filterMap fun item =>
      if (item.field "type").bind Ajson.text? = some (ascii "tool_use") then
        (item.field "name").bind fun name => name.text?.map fun _ =>
          let arguments := match item.field "input" with
            | some input => render.dumps input
            | none => ascii "\x7b\x7d"
          nativeToolCallText render (.obj [(ascii "function",
            .obj [(ascii "name", name), (ascii "arguments", .str arguments)])])
      else none
  | _ => []

variable (message : Ajson)

def assistantHistoryPrefix : Bytes :=
  match message.field "reasoning_content" with
  | some (.str reasoning) =>
    ascii "<think>\n" ++ trimText reasoning ++ ascii "\n</think>\n\n"
  | _ =>
    if ascii "<think>" <+: contentText render (message.field "content") then []
    else kNoThinkingPrefix

/-- The calls of an assistant message: its `tool_calls`, or those in its content. -/
def toolCallText : Bytes :=
  match message.field "tool_calls" with
  | some (.arr calls) => joinLines (calls.map (nativeToolCallText render))
  | _ => nativeToolCallsFromContent render (message.field "content")

def assistantText : Bytes :=
  let content := contentText render (message.field "content")
  let calls := toolCallText render message
  assistantHistoryPrefix render message ++ (if calls = [] then content
      else if content = [] then calls else content ++ ascii "\n\n" ++ calls)

/-- A further part of the system turn, behind an empty line; empty parts are left out. -/
def appendPart (parts : List Ajson) (content : Ajson) : List Ajson :=
  let parts' := if parts.isEmpty then [] else parts ++ [.str (ascii "\n\n")]
  match content with
  | .null | .str [] | .arr [] => parts
  | .arr items => parts' ++ items
  | content => parts' ++ [content]

variable (payload : Ajson)

/-- The parts of the system turn: conditioning, tools, the request's system text and a leading
system message. -/
def systemParts (messages tools : List Ajson) (noThink : Bool) : List Ajson :=
  let conditioning : List Ajson :=
    if noThink then [] else [.str (render.reasoningInstruction payload)]
  let leading : List Ajson :=
    match messages with
    | first :: _ =>
      if (first.field "role").bind Ajson.text? = some (ascii "system") then
        (first.field "content").toList
      else []
    | [] => []
  let contents : List Ajson :=
    conditioning ++ [.str (render.toolsPrompt tools (payload.field "tool_choice"))] ++
      (payload.field "system").toList ++ leading
  contents.foldl appendPart []

def messageError : String :=
  "each message must have role system/user/assistant/tool and content"

variable (turns : List ChatTurn)

def joinToolReply (text : Bytes) : List ChatTurn :=
  turns.modifyLast fun turn => { turn with content := turn.content ++ ascii "\n" ++ text }

/-- One message; the flag says whether the one before it was a tool reply. -/
def appendMessage (previousTool : Bool) (message : Ajson) : Except String (List ChatTurn × Bool) :=
  let role := (message.field "role").bind Ajson.text?
  if role = some (ascii "assistant") then
    .ok (turns ++ [⟨.assistant, assistantText render message, false⟩], false)
  else
    match message.field "content" with
    | none => .error messageError
    | some content =>
      let text := messageContentText render content
      if role = some (ascii "tool") then
        let text := toolResponseOpen ++ text ++ toolResponseClose
        .ok (if previousTool then joinToolReply turns text
          else turns ++ [⟨.user, text, true⟩], true)
      else if role = some (ascii "user") then
        .ok (turns ++ [⟨.user, text, ascii "<tool_response>" <:+: text⟩], false)
      else if role = some (ascii "system") then
        .ok (turns ++ [⟨.system, text, false⟩], false)
      else .error messageError

def appendMessages (turns : List ChatTurn) (previousTool : Bool) :
    List Ajson → Except String (List ChatTurn)
  | [] => .ok turns
  | message :: messages => do
      let (turns, previousTool) ← appendMessage render turns previousTool message
      appendMessages turns previousTool messages

def firstMessage (messages : List Ajson) : Nat :=
  match messages with
  | first :: _ =>
    if (first.field "role").bind Ajson.text? = some (ascii "system") ∧
      (first.field "content").isSome then 1 else 0
  | [] => 0

def chatTurns (messages tools : List Ajson) (noThink : Bool) : Except String (List ChatTurn) :=
  let text := messageContentText render (.arr (systemParts render payload messages tools noThink))
  appendMessages render (if text = [] then [] else [⟨.system, text, false⟩]) false
    (messages.drop (firstMessage messages))

end

/-- What the function reads of the server; `contextLimit` is the window of this request. -/
structure Server where
  tokenizer : Tokenizer
  contextCompaction : Bool
  maxContext : Nat
  contextLimit : Nat

structure ChatRequest where
  payload : Ajson
  anthropic : Bool
  toolAuthority : Option Ajson

def contextError : String := "prompt exceeds configured context"

section
variable (tokenizer : Tokenizer) (limit : Nat)

def appendTextIds (text : Bytes) (out : List Token) : Except Status (List Token) := do
  refuse (limit ≤ out.length) .budget
  let ids ← tokenizer.encode (cString text)
  refuse (limit - out.length < ids.length) .budget
  return out ++ ids

def encodeChatTurn (turn : ChatTurn) : Except Status EncodedTurn := do
  let ids ← appendTextIds tokenizer limit (turn.role.text ++ ascii "\n" ++ turn.content)
    [tokenizer.imStart]
  refuse (limit ≤ ids.length) .budget
  let ids ← appendTextIds tokenizer limit (ascii "\n") (ids ++ [tokenizer.imEnd])
  return ⟨turn, ids⟩

variable (noThink : Bool)

def thinkPrefix : Bytes :=
  if noThink then kNoThinkingPrefix else ascii "<think>\n"

def encodeAssistantPrefix : Except Status (List Token) := do
  let ids ← appendTextIds tokenizer limit (ascii "assistant\n") [tokenizer.imStart]
  appendTextIds tokenizer limit (thinkPrefix noThink) ids

def orTooLong {α : Type} : Except Status α → Except String α
  | .ok a => .ok a
  | .error _ => .error contextError

def encodeTurns : List ChatTurn → Nat → Except String (List EncodedTurn × Nat)
  | [], rawTokens => .ok ([], rawTokens)
  | turn :: turns, rawTokens => do
      let item ← orTooLong (encodeChatTurn tokenizer limit turn)
      refuse (limit < rawTokens + item.ids.length) contextError
      let (items, rawTokens) ← encodeTurns turns (rawTokens + item.ids.length)
      return (item :: items, rawTokens)

end

def idsOf (turns : List EncodedTurn) : List Token := turns.flatMap EncodedTurn.ids

/-- The turns behind the last assistant turn that is not the last turn, if there is one. -/
def resumeTail : List EncodedTurn → Option (List EncodedTurn)
  | [] => none
  | item :: items =>
    match resumeTail items with
    | some tail => some tail
    | none => if item.turn.role = .assistant ∧ items ≠ [] then some items else none

/-- What a saved session is extended with: the line end of its last answer, the turns behind it and
the new assistant prefix. -/
def resumeSuffix (tokenizer : Tokenizer) (limit : Nat) (encoded : List EncodedTurn)
    (assistantPrefix : List Token) : Except String (List Token) :=
  match resumeTail encoded with
  | none => .ok []
  | some tail =>
    match appendTextIds tokenizer limit (ascii "\n") [] with
    | .error _ => .error "session resume tail exceeds configured context"
    | .ok ids => .ok (ids ++ idsOf tail ++ assistantPrefix)

structure Prepared where
  turns : List ChatTurn
  encoded : List EncodedTurn
  assistantPrefix : List Token
  rawTokens : Nat
  sessionSuffix : List Token
  toolsEnabled : Bool

def toolsAreEnabled (toolChoice : Option Ajson) : Bool :=
  match toolChoice with
  | some (.str s) => s ≠ ascii "none"
  | _ => true

def Server.historyLimit (state : Server) : Nat :=
  if state.contextCompaction then max state.contextLimit state.maxContext else state.contextLimit

def prepareTurns (render : Rendering) (state : Server) (request : ChatRequest) :
    Except String Prepared := do
  let messages ← need "messages must be a non-empty array"
    (match request.payload.field "messages" with
      | some (.arr (message :: messages)) => some (message :: messages)
      | _ => none)
  refuse (state.tokenizer.imStart = tokenIdInvalid ∨ state.tokenizer.imEnd = tokenIdInvalid)
    "Qwen ChatML tokens are missing from the tokenizer"
  let noThink ← render.resolveNoThink request.payload
  let tools ← render.normalizeTools (request.payload.field "tools") request.anthropic
  let turns ← chatTurns render request.payload messages tools noThink
  let (encoded, rawTokens) ← encodeTurns state.tokenizer state.historyLimit turns 0
  let assistantPrefix ← orTooLong (encodeAssistantPrefix state.tokenizer state.contextLimit noThink)
  let rawTokens := rawTokens + assistantPrefix.length
  refuse (state.historyLimit < rawTokens) contextError
  let sessionSuffix ← resumeSuffix state.tokenizer state.contextLimit encoded assistantPrefix
  return ⟨turns, encoded, assistantPrefix, rawTokens, sessionSuffix,
    !tools.isEmpty && toolsAreEnabled (request.payload.field "tool_choice")⟩

section
variable {tokenizer : Tokenizer} {limit : Nat} {te : Bytes}

lemma appendTextIds_eq_ok {out ids : List Token}
    (h : appendTextIds tokenizer limit te out = .ok ids) :
    ∃ tail, tokenizer.encode (cString te) = .ok tail ∧ ids = out ++ tail := by
  obtain ⟨_, h⟩ := refuse_eq_ok.1 h
  obtain ⟨tail, ht, h⟩ := bind_eq_ok.1 h
  obtain ⟨_, h⟩ := refuse_eq_ok.1 h
  exact ⟨tail, ht, pure_eq_ok.1 h⟩

lemma appendTextIds_of_fits {out ta : List Token}
    (he : tokenizer.encode (cString te) = .ok ta) (hr : out.length < limit)
    (hf : out.length + ta.length ≤ limit) :
    appendTextIds tokenizer limit te out = .ok (out ++ ta) := by
  unfold appendTextIds
  rw [refuse_eq_ok]
  refine ⟨by omega, ?_⟩
  rw [he]
  exact refuse_eq_ok.2 ⟨by omega, rfl⟩

lemma encodeChatTurn_eq_ok {tu : ChatTurn} {i : EncodedTurn}
    (h : encodeChatTurn tokenizer limit tu = .ok i) : ∃ te n,
    tokenizer.encode (cString (tu.role.text ++ ascii "\n" ++ tu.content)) = .ok te ∧
    tokenizer.encode (cString (ascii "\n")) = .ok n ∧
    i = ⟨tu, tokenizer.imStart :: te ++ tokenizer.imEnd :: n⟩ := by
  obtain ⟨ids, hi, h⟩ := bind_eq_ok.1 h
  obtain ⟨_, h⟩ := refuse_eq_ok.1 h
  obtain ⟨ids', hi', h⟩ := bind_eq_ok.1 h
  obtain ⟨te, ht, rfl⟩ := appendTextIds_eq_ok hi
  obtain ⟨n, hn, rfl⟩ := appendTextIds_eq_ok hi'
  refine ⟨te, n, ht, hn, ?_⟩
  rw [pure_eq_ok.1 h]
  simp

lemma encodeChatTurn_of_fits {tu : ChatTurn} {te n : List Token}
    (ht : tokenizer.encode (cString (tu.role.text ++ ascii "\n" ++ tu.content)) = .ok te)
    (hn : tokenizer.encode (cString (ascii "\n")) = .ok n)
    (hr : te.length + 2 < limit) (hf : te.length + n.length + 2 ≤ limit) :
    encodeChatTurn tokenizer limit tu =
    .ok ⟨tu, tokenizer.imStart :: te ++ tokenizer.imEnd :: n⟩ := by
  unfold encodeChatTurn
  rw [appendTextIds_of_fits ht (by simp; omega) (by simp; omega)]
  refine refuse_eq_ok.2 ⟨by simp; omega, ?_⟩
  rw [appendTextIds_of_fits hn (by simp; omega) (by simp; omega)]
  change Except.ok _ = _
  simp

end

end AxiomKernel.Qwen38.Api
