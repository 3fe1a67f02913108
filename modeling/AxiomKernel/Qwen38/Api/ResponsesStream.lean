import AxiomKernel.Codex.RestoreFields
import AxiomKernel.Qwen38.Tools.NativeCalls

/-!
# The event stream of a Codex response

A live Responses stream with a tool map (`codex_wire`), on a socket whose writes succeed. The
stream remembers every event it wrote. A send can be refused by the stream itself, and `restore`
can throw on the data of an event; both end the caller early and leave the stream as it is then.
-/
namespace AxiomKernel.Qwen38.Api

open Ajson Image Text Search Codex Tools

inductive EventType
  | created | inProgress | itemAdded | itemDone | partAdded | partDone | textDelta | textDone
  | argumentsDelta | argumentsDone | inputDelta | inputDone | completed | incomplete | failed
  deriving DecidableEq, Repr

namespace EventType

def name : EventType → String
  | created => "response.created"
  | inProgress => "response.in_progress"
  | itemAdded => "response.output_item.added"
  | itemDone => "response.output_item.done"
  | partAdded => "response.content_part.added"
  | partDone => "response.content_part.done"
  | textDelta => "response.output_text.delta"
  | textDone => "response.output_text.done"
  | argumentsDelta => "response.function_call_arguments.delta"
  | argumentsDone => "response.function_call_arguments.done"
  | inputDelta => "response.custom_tool_call_input.delta"
  | inputDone => "response.custom_tool_call_input.done"
  | completed => "response.completed"
  | incomplete => "response.incomplete"
  | failed => "response.failed"

def isTerminal : EventType → Bool
  | completed | incomplete | failed => true
  | _ => false

end EventType

/-- An event as it was written: the data without the two fields that repeat its type and number. -/
structure Event where
  type : EventType
  sequence : Nat
  data : Ajson

def object (fields : List (String × Ajson)) : Ajson :=
  .obj (fields.map fun field => (ascii field.1, field.2))

structure ResponsesStream where
  responseId : Bytes
  messageId : Bytes
  sessionId : Bytes
  createdAt : Int
  rawText : Bytes := []
  emittedBytes : Nat := 0
  sequenceNumber : Nat := 0
  isOpen : Bool := false
  messageStarted : Bool := false
  terminalSent : Bool := false
  sent : List Event := []

inductive Stop
  | refused
  | threw (message : String)

abbrev Sending := Except (Stop × ResponsesStream) ResponsesStream

def leaves : Sending → ResponsesStream
  | .ok s => s
  | .error (_, s) => s

namespace ResponsesStream

def push (s : ResponsesStream) (type : EventType) (data : Ajson) : ResponsesStream := { s with
    sequenceNumber := s.sequenceNumber + 1
    terminalSent := type.isTerminal
    sent := s.sent ++ [⟨type, s.sequenceNumber, data⟩] }

end ResponsesStream

def kModelId : String := "qwen3.8-27b-nvfp4"

def responsesStub (s : ResponsesStream) (progress : Option Ajson) : Ajson := object
    [("id", .str s.responseId), ("object", .str (ascii "response")),
      ("created_at", .int s.createdAt), ("status", .str (ascii "in_progress")),
      ("model", .str (ascii kModelId)), ("output", .arr []), ("output_text", .str []),
      ("parallel_tool_calls", .bool true),
      ("axiom", object (("session_id", .str s.sessionId) ::
        (progress.map fun value => ("progress", value)).toList))]

section
variable (m : Restorer) (s : ResponsesStream)

def sendEvent (type : EventType) (data : Ajson) : Sending :=
  if !s.isOpen || s.terminalSent then .error (.refused, s)
  else
    match restore m data with
    | .error message => .error (.threw message, s)
    | .ok data => .ok (s.push type data)

def sendAll (s : ResponsesStream) : List (EventType × Ajson) → Sending
  | [] => .ok s
  | (type, data) :: rest => do
      let s ← sendEvent m s type data
      sendAll s rest

def startStream (responseId messageId sessionId : Bytes) (createdAt : Int) : Sending :=
  let s : ResponsesStream := { responseId, messageId, sessionId, createdAt, isOpen := true }
  sendAll m s
    [(.created, object [("response", responsesStub s none)]),
      (.inProgress, object [("response", responsesStub s none)])]

def outputText (text : Bytes) : Ajson :=
  object [("type", .str (ascii "output_text")), ("text", .str text), ("annotations", .arr [])]

variable (messageId : Bytes)

def messageItem (status : String) (content : List Ajson) : Ajson :=
  object [("id", .str messageId), ("type", .str (ascii "message")),
    ("status", .str (ascii status)), ("role", .str (ascii "assistant")), ("content", .arr content)]

def itemData (index : Nat) (item : Ajson) : Ajson :=
  object [("output_index", .int index), ("item", item)]

def contentData (field : String) (value : Ajson) : Ajson :=
  object [("item_id", .str messageId), ("output_index", .int 0), ("content_index", .int 0),
    (field, value)]

def startMessage : Sending :=
  if !s.isOpen then .error (.refused, s)
  else if s.messageStarted then .ok s
  else
    sendAll m { s with messageStarted := true }
      [(.itemAdded, itemData 0 (messageItem s.messageId "in_progress" [])),
        (.partAdded, contentData s.messageId "part" (outputText []))]

/-- The longest end of the text that may be the beginning of a tool call, among the lengths up to
the given one. -/
def heldBack (text : Bytes) : Nat → Nat
  | 0 => 0
  | suffix + 1 =>
    if text.drop (text.length - (suffix + 1)) = toolOpen.take (suffix + 1) then suffix + 1
    else heldBack text suffix

def safeTextEnd (text : Bytes) (final : Bool) : Nat :=
  match find toolOpen text with
  | some start => start
  | none =>
    if final || text.isEmpty then text.length
    else text.length - heldBack text (min text.length (toolOpen.length - 1))

def flushText (final : Bool) : Sending :=
  if !s.isOpen then .error (.refused, s)
  else if safeTextEnd s.rawText final ≤ s.emittedBytes then .ok s
  else do
    let started ← startMessage m s
    let sent ← sendEvent m started .textDelta (contentData s.messageId "delta"
      (.str ((s.rawText.drop s.emittedBytes).take (safeTextEnd s.rawText final - s.emittedBytes))))
    pure { sent with emittedBytes := safeTextEnd s.rawText final }

def emitToken (piece : Bytes) : Sending :=
  if !s.isOpen then .error (.refused, s)
  else flushText m { s with rawText := s.rawText ++ piece } false

def progress (value : Option Ajson) : Sending :=
  if s.terminalSent then .error (.refused, s)
  else sendEvent m s .inProgress (object [("response", responsesStub s value)])

def messageDone (text : Bytes) (incomplete : Bool) : List (EventType × Ajson) :=
  [(.textDone, contentData s.messageId "text" (.str text)),
    (.partDone, contentData s.messageId "part" (outputText text)),
    (.itemDone, itemData 0 (messageItem s.messageId
      (if incomplete then "incomplete" else "completed") [outputText text]))]

def finishMessage (text : Bytes) (incomplete : Bool) : Sending :=
  if !s.isOpen || !s.messageStarted then .ok s else sendAll m s (messageDone s text incomplete)

variable (tools : Option Ajson)

def isCustom (name : Bytes) : Bool :=
  match (tools.bind (toolFunctionByName · name)).bind (·.field "axiom_responses_type") with
  | some type => type.text? == some (ascii "custom")
  | none => false

/-- The `input` of a custom tool's arguments, or the arguments as they are. -/
def customInput (arguments : Bytes) : Bytes :=
  match m.parse arguments with
  | .ok (.obj members) => (((Ajson.obj members).field "input").bind text?).getD arguments
  | _ => arguments

variable (call : Call)

def searchItem (status arguments : Bytes) : Ajson :=
  object [("type", .str (ascii "function_call")), ("name", .str call.name), ("id", .str call.id),
    ("call_id", .str call.id), ("status", .str status), ("arguments", .str arguments)]

def callItem (custom : Bool) (status : String) (value : Bytes) : Ajson :=
  object [("id", .str call.id),
    ("type", .str (ascii (if custom then "custom_tool_call" else "function_call"))),
    ("status", .str (ascii status)), ("call_id", .str call.id), ("name", .str call.name),
    (if custom then "input" else "arguments", .str value)]

def callEvents (index : Nat) : List (EventType × Ajson) :=
  if m.isClientToolSearch call.name then
    [(.itemAdded, itemData index (searchItem call (ascii "in_progress") (ascii "\x7b\x7d"))),
      (.itemDone, itemData index (searchItem call (ascii "completed") call.arguments))]
  else
    let custom := isCustom tools call.name
    let value := if custom then customInput m call.arguments else call.arguments
    [(.itemAdded, itemData index (callItem call custom "in_progress" [])),
      (if custom then .inputDelta else .argumentsDelta,
        object [("item_id", .str call.id), ("output_index", .int index), ("delta", .str value)]),
      (if custom then .inputDone else .argumentsDone,
        object [("item_id", .str call.id), ("output_index", .int index),
          (if custom then "input" else "arguments", .str value)]),
      (.itemDone, itemData index (callItem call custom "completed" value))]

def toolCallEvents (calls : List Call) (start : Nat) : List (EventType × Ajson) :=
  calls.zipIdx.flatMap fun call => callEvents m tools call.1 (start + call.2)

def sendToolCalls (tools : Option Ajson) (calls : List Call) (start : Nat) :
    Sending :=
  if !s.isOpen then .error (.refused, s) else sendAll m s (toolCallEvents m tools calls start)

variable (value : Option Ajson) (message : Bytes)

/-- The response of a stream that failed: only what was emitted is part of it. -/
def failedResponse (code : String) : Ajson :=
  let text := s.rawText.take s.emittedBytes
  let response := (((responsesStub s value).set (ascii "status") (.str (ascii "failed"))).set
    (ascii "error") (object [("code", .str (ascii code)), ("message", .str message)])).set
    (ascii "output_text") (.str text)
  if s.messageStarted then
    response.set (ascii "output") (.arr [messageItem s.messageId "incomplete" [outputText text]])
  else response

def sendError (code : String) :
    Sending :=
  if !s.isOpen then .error (.refused, s)
  else if s.terminalSent then .ok s
  else sendEvent m s .failed (object [("response", failedResponse s value message code)])

inductive ResponseStatus
  | completed | incomplete | failed
  deriving DecidableEq, Repr

namespace ResponseStatus

def name : ResponseStatus → String
  | completed => "completed"
  | incomplete => "incomplete"
  | failed => "failed"

def event : ResponseStatus → EventType
  | completed => .completed
  | incomplete => .incomplete
  | failed => .failed

end ResponseStatus

structure GenerationResult where
  text : Bytes
  finishReason : Bytes
  thinkingBudget : Nat

variable (result : GenerationResult)

def responseStatus (haveToolCalls : Bool) (visible : Bytes) :
    ResponseStatus :=
  if result.finishReason = ascii "length" then .incomplete
  else if !haveToolCalls && (trimText visible).isEmpty then .failed
  else .completed

variable (response : Ajson)

def applyStatus (status : ResponseStatus) : Ajson :=
  let response := response.set (ascii "status") (.str (ascii status.name))
  match status with
  | .incomplete =>
    response.set (ascii "incomplete_details")
      (object [("reason", .str (ascii "max_output_tokens"))])
  | .failed =>
    response.set (ascii "error") (object [("code", .str (ascii "empty_model_response")),
      ("message", .str (ascii "The model stopped without visible text or a tool call"))])
  | .completed => response

def visibleModelText (text : Bytes) (reasoningEnabled : Bool) : Bytes :=
  if !reasoningEnabled then text
  else
    match find thinkClose text with
    | some stop =>
      let first := stop + 8
      text.drop (first + if (text.drop first).take 2 = [10, 10] then 2 else 0)
    | none =>
      match find thinkOpen text with
      | some start => trimText (text.take start)
      | none => text

variable (toolResult : Option NativeToolResult)

def haveToolCalls : Bool :=
  match toolResult with
  | some result => result.status == .pass && !result.calls.isEmpty
  | none => false

def parsedText : Bytes :=
  let text :=
    match toolResult with
    | some tools =>
      if tools.content ≠ [] then tools.content
      else visibleModelText result.text (result.thinkingBudget != 0)
    | none => visibleModelText result.text (result.thinkingBudget != 0)
  if haveToolCalls toolResult then
    match find toolOpen text with
    | some start => trimText (text.take start)
    | none => text
  else text

/-- The final text that keeps what was emitted already, if there is one. -/
def reconcile (emitted accumulated parsed : Bytes) : Option Bytes :=
  if parsed.take emitted.length = emitted then some parsed
  else if trimText accumulated = trimText parsed then some accumulated
  else none

def otherItems : List Ajson :=
  match response.field "output" with
  | some (.arr items) => items.filter fun item => item.stringField "type" != ascii "message"
  | _ => []

def finalResponse (status : ResponseStatus) (text : Bytes) : Ajson :=
  let message := if s.messageStarted then
      [messageItem s.messageId (if status = .completed then "completed" else "incomplete")
        [outputText text]]
    else []
  let items := if status = .completed then otherItems response else []
  ((applyStatus (response.set (ascii "created_at") (.int s.createdAt)) status).set
    (ascii "output_text") (.str text)).set (ascii "output") (.arr (message ++ items))

structure Finish where
  response : Ajson
  result : GenerationResult
  toolResult : Option NativeToolResult
  tools : Option Ajson

namespace Finish

def calls (f : Finish) : List Call := (f.toolResult.map NativeToolResult.calls).getD []

def status (f : Finish) (text : Bytes) : ResponseStatus :=
  responseStatus f.result (haveToolCalls f.toolResult) text

def text (f : Finish) (s : ResponsesStream) : Option Bytes :=
  reconcile (s.rawText.take s.emittedBytes) (s.rawText.take (safeTextEnd s.rawText true))
    (parsedText f.result f.toolResult)

end Finish

def finishCalls (f : Finish) (text : Bytes) : Sending :=
  if haveToolCalls f.toolResult && f.status text == .completed then
    sendToolCalls m s f.tools f.calls (if s.messageStarted then 1 else 0)
  else .ok s

def finish (f : Finish) (value : Option Ajson) : Sending :=
  if !s.isOpen then .error (.refused, s)
  else
    match f.text s with
    | none =>
      -- the text of the generation cannot follow what was emitted
      match sendError m { s with rawText := s.rawText.take s.emittedBytes } value
          (ascii "final text disagrees with already emitted deltas") "stream_content_mismatch" with
      | .ok failed => .error (.refused, failed)
      | .error stop => .error stop
    | some text => do
        let flushed ← flushText m { s with rawText := text } true
        let told ← finishMessage m flushed text (f.status text != .completed)
        let called ← finishCalls m told f text
        let done ← sendEvent m called (f.status text).event
          (object [("response", finalResponse called f.response (f.status text) text)])
        pure { done with isOpen := false }

def close : ResponsesStream :=
  if !s.isOpen then s
  else if s.terminalSent then { s with isOpen := false }
  else
    match sendError m s value (ascii "response stream ended before completion") "server_error" with
    | .error (.threw _, failed) => failed
    | sending => { leaves sending with isOpen := false }

inductive Live
  | piece (bytes : Bytes)
  | progress (value : Option Ajson)

def live : Live → ResponsesStream
  | .piece bytes => leaves (emitToken m s bytes)
  | .progress value => leaves (progress m s value)

inductive Ending
  | finish (f : Finish)
  | error (message : Bytes) (code : String)

/-- The handler's calls at the end; one that throws leaves the stream as it is. -/
def conclude (ending : Ending) (value : Option Ajson) : ResponsesStream :=
  match ending with
  | .finish f =>
    match finish m s f value with
    | .ok done => done
    | .error (.refused, s) => close m s value
    | .error (.threw _, s) => s
  | .error message code =>
    match sendError m s value message code with
    | .error (.threw _, s) => s
    | sending => close m (leaves sending) value

end

end AxiomKernel.Qwen38.Api
