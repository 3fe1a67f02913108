import AxiomKernel.Json
import AxiomKernel.Codex.WireNames

/-!
# Preparing a Codex request

`prepare` of `tools/axiom_codex_provider.h`: tool definitions are renamed and checked one by one, a
definition that fails is rejected in the catch block around it, and the history and the tool choice
of the request are renamed with the maps the definitions left. Exceptions keep what was written
before they were thrown. The schema compiler, the native checks and the JSON reader and writer are
parameters; the path given to the compiler only shows in its errors.
-/
namespace AxiomKernel.Codex

open Ajson Image Text Function

inductive Failure
  | schema (path keyword reason : Bytes)
  | other (what : Bytes)

structure Checks where
  sha256 : Bytes → Vector UInt8 32
  dumps : Ajson → Bytes
  parse : Bytes → Except Bytes Ajson
  /-- `lower_schema_alternatives` with the checks of the daemon. -/
  lower : Ajson → Bytes → Except Failure (List Ajson)
  /-- `hoist_schema_documentation`: the schema and the notes. -/
  hoist : Ajson → Ajson × Ajson
  /-- `tool_check_`: what is wrong with the tool. -/
  toolCheck : Ajson → Option Bytes
  argumentCheck : Ajson → Ajson → Bool
  lower_ne_nil : ∀ schema path, lower schema path ≠ .ok []
  lower_path : ∀ schema path path' alternatives,
    lower schema path = .ok alternatives → lower schema path' = .ok alternatives

/-- The maps of `tool_wire_map` that `prepare` reads. -/
structure Catalog where
  reverse : Reverse
  branches : Bytes → Option Ajson
  variants : Bytes → Option (List Bytes)
  declared : Bytes → Option Bytes
  preparedDefinitions : Bytes → Option (List Ajson)
  toolSearchWire : Bytes
  unavailable : Bytes → Bool
  rejected : List Ajson
  selected : Bytes → Bool
  restrictCatalog : Bool

def Catalog.empty : Catalog where
  reverse := fun _ => none
  branches := fun _ => none
  variants := fun _ => none
  declared := fun _ => none
  preparedDefinitions := fun _ => none
  toolSearchWire := []
  unavailable := fun _ => false
  rejected := []
  selected := fun _ => false
  restrictCatalog := false

abbrev M := ExceptT Failure (StateM Catalog)

def liftExcept {α : Type} : Except Failure α → M α
  | .error e => throw e
  | .ok a => pure a

variable (tool : Ajson)

def nestedOf : Ajson := (tool.field "function").getD tool

def toolName : Bytes := (nestedOf tool).stringField "name"

def effectiveScope (scope : Bytes) (tool : Ajson) : Bytes :=
  if scope.isEmpty then (nestedOf tool).stringField "namespace" else scope

section
variable (c : Checks)

def schemaPath (base key : Bytes) : Bytes := base ++ ascii "[" ++ c.dumps (.str key) ++ ascii "]"

def bindWire (id : Identity) : M Bytes := do
  let s ← get
  match bind c.sha256 s.reverse id with
  | .error e => throw (.other (ascii e))
  | .ok (wire, reverse) => do
      set { s with reverse := reverse }
      pure wire

/-- The tool is unavailable; `variants_[wire]` makes an empty entry where there is none. -/
def markRejected (wire : Bytes) (s : Catalog) : Catalog :=
  let listed := (s.variants wire).getD []
  { s with
    unavailable := fun w => s.unavailable w || w == wire || listed.contains w
    variants := update s.variants wire (some listed) }

def pushDiagnostic (diagnostic : Ajson) (s : Catalog) : Catalog :=
  { s with rejected := s.rejected ++ [diagnostic] }

variable (tool : Ajson)

def diagnosticOf (scope path : Bytes) (failure : Failure) : Ajson :=
  let (jsonPath, keyword, reason) := match failure with
    | .schema path keyword reason => (path, keyword, reason)
    | .other what => (path, ascii "tool", what)
  let name := toolName tool
  .obj [(ascii "code", .str (ascii "codex_tool_schema_unavailable")),
    (ascii "tool_name", .str (if name.isEmpty then tool.stringField "type" else name)),
    (ascii "namespace", .str scope), (ascii "json_path", .str jsonPath),
    (ascii "unsupported_keyword", .str keyword), (ascii "reason", .str reason)]

def reject (scope path : Bytes) (failure : Failure) : M Unit :=
  if (toolName tool).isEmpty then modify (pushDiagnostic (diagnosticOf tool scope path failure))
  else do
    let wire ← bindWire c ⟨toolName tool, scope, []⟩
    modify fun s => pushDiagnostic ((diagnosticOf tool scope path failure).set (ascii "wire_name")
      (.str wire)) (markRejected wire s)

def describeCustomFormat (definition : Ajson) (path : Bytes) : Except Failure Ajson :=
  match definition.field "format" with
  | none | some .null => .ok definition
  | some (.obj members) =>
    let format : Ajson := .obj members
    let at_ := schemaPath c path (ascii "format")
    let type := format.stringField "type"
    let grammar := format.stringField "definition"
    let syntax_ := format.stringField "syntax"
    if type == ascii "text" then .ok definition
    else if type != ascii "grammar" then
      .error (.schema at_ (ascii "type") (ascii "unsupported custom format type"))
    else if syntax_ != ascii "lark" && syntax_ != ascii "regex" then
      .error (.schema (schemaPath c at_ (ascii "syntax")) (ascii "syntax")
        (ascii "custom grammar syntax must be lark or regex"))
    else if grammar.isEmpty then
      .error (.schema (schemaPath c at_ (ascii "definition")) (ascii "definition")
        (ascii "custom grammar must be nonempty"))
    else
      let contract :=
        ascii "\nCore custom input contract: call this native function with a JSON object whose "
          ++ ascii "input field is the raw custom-tool text. The input string (not the "
          ++ ascii "surrounding JSON object) must follow the exact " ++ syntax_
          ++ ascii " grammar below. Do not substitute another patch or command format. "
          ++ ascii "Core validates and executes the input.\n" ++ grammar
      let description := definition.stringField "description"
      if contract.isSuffixOf description then .ok definition
      else .ok (definition.set (ascii "description") (.str (description ++ contract)))
  | some _ =>
    .error (.schema (schemaPath c path (ascii "format")) (ascii "format")
      (ascii "custom format must be an object"))

structure FunctionTool where
  original : Ajson
  type : Bytes
  name : Bytes
  scope : Bytes
  base : Bytes
  primary : Bytes
  alternatives : List Ajson

namespace FunctionTool
variable (f : FunctionTool)

def definition : Ajson := nestedOf f.original

def many : Bool := 1 < f.alternatives.length

def documentation : Ajson :=
  match f.definition.field "parameters" with
  | some parameters => if f.many then (c.hoist parameters).2 else .obj []
  | none => .obj []

def hasNotes : Ajson → Bool
  | .obj members => !members.isEmpty
  | _ => false

def sharedDescription (wire : Bytes) : Bytes :=
  if wire = f.primary then
    f.definition.stringField "description" ++
      if hasNotes (f.documentation c) then
        ascii "\nShared parameter documentation (original schema paths): " ++
          c.dumps (f.documentation c)
      else []
  else ascii "Same tool as " ++ f.primary ++
    ascii "; alternative argument schema. Use its shared documentation."

def coreDescription (wire description : Bytes) : Bytes :=
  ascii "Core tool " ++ (if f.scope.isEmpty then [] else f.scope ++ ascii ".") ++ f.name ++
    ascii ". Call directly with <function=" ++ wire ++
    ascii "> inside <tool_call>, using this schema's parameters. " ++
    ascii "This is a callable tool, not a shell command. Printing its name or passing it to " ++
    ascii "another tool does not invoke it. " ++ description

variable (described : Ajson)

def function (wire : Bytes) (branch : Ajson) : Ajson :=
  let named := (described.set (ascii "name") (.str wire)).erase (ascii "namespace")
  let typed := if (f.definition.field "parameters").isSome then
      named.set (ascii "parameters") (if f.many then (c.hoist branch).1 else branch)
    else named
  let shared := if f.many then
      typed.set (ascii "description") (.str (f.sharedDescription c wire))
    else typed
  if wire = f.name then shared
  else shared.set (ascii "description")
    (.str (f.coreDescription wire (shared.stringField "description")))

def candidate (wire : Bytes) (branch : Ajson) : Ajson :=
  let function := f.function c described wire branch
  let whole := match f.original.field "function" with
    | some _ => f.original.set (ascii "function") function
    | none => function
  if f.type.isEmpty then whole.set (ascii "type") (.str (ascii "function")) else whole

end FunctionTool

variable (f : FunctionTool)

def branchWire (branch : Ajson) : M Bytes :=
  if f.alternatives.length = 1 then pure f.base else bindWire c ⟨f.name, f.scope, c.dumps branch⟩

variable (path : Bytes)

def describe : M Ajson :=
  if f.type = ascii "custom" then liftExcept (describeCustomFormat c f.definition path)
  else pure f.definition

def recordBranch (wire : Bytes) (branch : Ajson) (s : Catalog) : Catalog :=
  if (f.definition.field "parameters").isSome then
    { s with branches := update s.branches wire (some branch) }
  else s

def defineBranch (out : List Bytes × List Ajson)
    (branch : Ajson) : M (List Bytes × List Ajson) := do
  let described ← describe c f path
  let wire ← branchWire c f branch
  match c.toolCheck (f.candidate c described wire branch) with
  | some error => throw (.schema path (ascii "tool") error)
  | none => do
      modify (recordBranch f wire branch)
      pure (if out.1.contains wire then out
        else (out.1 ++ [wire], out.2 ++ [f.candidate c described wire branch]))

variable (replay : Bool)

def deferred (tool : Ajson) : Ajson :=
  if replay then tool.set (ascii "defer_loading") (.bool true) else tool

def recordTool (base encoded : Bytes) (wires : List Bytes) (prepared : List Ajson) (s : Catalog) :
    Catalog :=
  { s with
    variants := update s.variants base (some wires)
    declared := update s.declared base (some encoded)
    preparedDefinitions := update s.preparedDefinitions base (some prepared) }

variable (original : Ajson)

def encodedDefinition : Bytes :=
  c.dumps (original.erase (ascii "defer_loading"))

def alternativesOf (definition : Ajson) (path : Bytes) : Except Failure (List Ajson) :=
  match definition.field "parameters" with
  | none => .ok [.obj []]
  | some parameters => c.lower parameters (schemaPath c path (ascii "parameters"))

def defineBranches (type scope path name base : Bytes) : M (List Bytes × List Ajson) := do
  let alternatives ← liftExcept (alternativesOf c (nestedOf original) path)
  let f : FunctionTool := ⟨original, type, name, scope, base, base, alternatives⟩
  let primary ← branchWire c f (alternatives.headD (.obj []))
  alternatives.foldlM (defineBranch c { f with primary := primary } path) ([], [])

def defineNew (type scope path : Bytes) (replay : Bool) (name base : Bytes) : M (List Ajson) := do
  let out ← defineBranches c original type scope path name base
  modify (recordTool base (encodedDefinition c original) out.1 out.2)
  pure (out.2.map (deferred replay))

variable (path : Bytes)

/-- A function tool that was declared before: the same definition is loaded again at most. -/
def defineAgain (replay : Bool) (base previous : Bytes)
    (s : Catalog) : Except Failure (List Ajson) :=
  if previous = encodedDefinition c original then
    .ok (if replay then ((s.preparedDefinitions base).getD []).map (deferred true) else [])
  else .error (.schema path (ascii "name")
    (ascii "conflicting duplicate tool definitions; all instances are unavailable"))

def defineFunction (type scope path : Bytes) (replay : Bool) : M (List Ajson) :=
  match (nestedOf original).field "name" with
  | some (.str name) => do
      let base ← bindWire c ⟨name, scope, []⟩
      let s ← get
      match s.declared base with
      | some previous => liftExcept (defineAgain c original path replay base previous s)
      | none => defineNew c original type scope path replay name base
  | _ => throw (.schema path (ascii "name") (ascii "tool requires a string name"))

def defineBuiltin : M (List Ajson) :=
  match c.toolCheck original with
  | some error => throw (.schema path (ascii "tool") error)
  | none =>
    if (toolName original).isEmpty then pure [original]
    else do
      let s ← get
      match s.declared (toolName original) with
      | some previous =>
        if previous = c.dumps original then pure []
        else throw (.schema path (ascii "name")
          (ascii "conflicting duplicate tool definitions; all instances are unavailable"))
      | none => do
          set { s with
            declared := update s.declared (toolName original) (some (c.dumps original)) }
          pure [original]

variable (scope : Bytes)

def isFunction (type : Bytes) : Bool :=
  type == ascii "function" || type == ascii "custom" || (type.isEmpty && !scope.isEmpty)

def defineLeaf (replay : Bool) (original : Ajson) (path : Bytes) : M (List Ajson) :=
  if isFunction scope (original.stringField "type") then
    defineFunction c original (original.stringField "type") (effectiveScope scope original) path
      replay
  else defineBuiltin c original path

def guarded (original : Ajson) (path : Bytes) (body : M (List Ajson)) : M (List Ajson) :=
  tryCatch body fun failure => do
    reject c original (effectiveScope scope original) path failure
    pure []

variable (base : Bytes)

def indexed (index : Nat) : Bytes :=
  base ++ ascii "[" ++ decimal index ++ ascii "]"

def collect (define_ : Ajson → Bytes → M (List Ajson)) (base : Bytes) :
    Nat → List Ajson → M (List Ajson)
  | _, [] => pure []
  | index, tool :: tools => do
      let out ← define_ tool (indexed base index)
      let rest ← collect define_ base (index + 1) tools
      pure (out ++ rest)

/-- A tool inside a namespace, or the one function a tool search is turned into. -/
def innerBody (replay : Bool) (original : Ajson) (path : Bytes) : M (List Ajson) :=
  if original.stringField "type" = ascii "namespace" then
    throw (.other (ascii "Nested Codex namespaces are unsupported"))
  else if original.stringField "type" = ascii "tool_search" then
    throw (.schema path (ascii "execution")
      (ascii "tool_search requires execution=client and the Core parameter schema"))
  else defineLeaf c scope replay original path

def innerTool (replay : Bool) (original : Ajson) (path : Bytes) : M (List Ajson) :=
  guarded c scope original path (innerBody c scope replay original path)

def searchFunction : Ajson :=
  ((original.set (ascii "type") (.str (ascii "function"))).set (ascii "name")
    (.str (ascii "tool_search"))).erase (ascii "execution")

def defineSearch (original : Ajson) (path : Bytes) : M (List Ajson) :=
  if original.stringField "execution" ≠ ascii "client" ∨ (original.field "parameters").isNone then
    throw (.schema path (ascii "execution")
      (ascii "tool_search requires execution=client and the Core parameter schema"))
  else do
    let lowered ← collect (innerTool c [] replay) path 0 [searchFunction original]
    match lowered with
    | [tool] => do
        modify fun s => { s with toolSearchWire := tool.stringField "name" }
        pure [tool]
    | _ => throw (.schema path (ascii "parameters")
        (ascii "client tool_search requires one exact native schema"))

def defineNamespace (original : Ajson) (path : Bytes) : M (List Ajson) :=
  let scope := original.stringField "name"
  match original.field "tools" with
  | none => throw (.other (ascii "Invalid Codex namespace tool"))
  | some children =>
    if scope.isEmpty then throw (.other (ascii "Invalid Codex namespace tool"))
    else
      match children with
      | .arr tools =>
        collect (innerTool c scope replay) (schemaPath c path (ascii "tools")) 0 tools
      | _ => throw (.other (ascii "Codex tools must be an array"))

def outerBody (original : Ajson) (path : Bytes) : M (List Ajson) :=
  if original.stringField "type" = ascii "namespace" then defineNamespace c replay original path
  else if original.stringField "type" = ascii "tool_search" then defineSearch c replay original path
  else defineLeaf c [] replay original path

def outerTool (original : Ajson) (path : Bytes) : M (List Ajson) :=
  guarded c [] original path (outerBody c replay original path)

def definitions : Ajson → M (List Ajson)
  | .arr tools => collect (outerTool c replay) base 0 tools
  | _ => throw (.other (ascii "Codex tools must be an array"))

variable (item : Ajson)

def rename : M Ajson :=
  match item.field "name" with
  | some (.str name) =>
    match item.field "namespace" with
    | none | some .null | some (.str _) => do
        let wire ← bindWire c ⟨name, item.stringField "namespace", []⟩
        pure ((item.set (ascii "name") (.str wire)).erase (ascii "namespace"))
    | some _ => throw (.other (ascii "Codex tool namespace must be a string"))
  | _ => throw (.other (ascii "Codex tool requires a string name"))

/-- The first alternative that takes the arguments; `at` throws where a branch is missing. -/
def matching (branches : Bytes → Option Ajson) (arguments : Ajson) :
    List Bytes → Except Failure (Option Bytes)
  | [] => .ok none
  | wire :: wires =>
    match branches wire with
    | none => .error (.other (ascii "map::at"))
    | some branch =>
      if c.argumentCheck arguments branch then .ok (some wire)
      else matching branches arguments wires

def historyBranch (wires : List Bytes) (s : Catalog) : Except Failure Ajson :=
  match c.parse (item.stringField "arguments") with
  | .error e => .error (.other (ascii "invalid tool history arguments: " ++ e))
  | .ok arguments =>
    match matching c s.branches arguments wires with
    | .error e => .error e
    | .ok (some wire) => .ok ((item.set (ascii "name") (.str wire)).erase (ascii "namespace"))
    | .ok none =>
      .error (.other (ascii "tool history arguments match no exact schema alternative"))

def history : M Ajson := do
  let base ← bindWire c ⟨item.stringField "name", item.stringField "namespace", []⟩
  let s ← get
  match s.variants base with
  | none => rename c item
  | some wires =>
    if wires.length = 1 then rename c item else liftExcept (historyBranch c item wires s)

variable (v : Ajson)

def reference : M (List Bytes) := do
  let base ← bindWire c ⟨toolName v, (nestedOf v).stringField "namespace", []⟩
  let s ← get
  if s.unavailable base then
    throw (.other (ascii "tool_choice selects an unavailable tool: " ++ toolName v))
  else
    match s.variants base with
    | none => throw (.other (ascii "tool_choice references an undeclared tool: " ++ toolName v))
    | some wires => pure wires

def select (wires : List Bytes) (s : Catalog) : Catalog :=
  { s with selected := fun w => s.selected w || wires.contains w }

def restrict (s : Catalog) : Catalog := { s with restrictCatalog := true }

def selectAll : List Ajson → M Unit
  | [] => pure ()
  | tool :: tools => do
      let wires ← reference c tool
      modify (select wires)
      selectAll tools

def allowedTools : M Ajson := do
  modify restrict
  if v.stringField "mode" ≠ ascii "auto" ∧ v.stringField "mode" ≠ ascii "required" then
    throw (.other (ascii "allowed_tools.mode must be auto or required"))
  else
    match v.field "tools" with
    | some (.arr (tool :: tools)) => do
        selectAll c (tool :: tools)
        pure (.str (v.stringField "mode"))
    | _ => throw (.other (ascii "allowed_tools requires nonempty tool references"))

def chooseFunction : M Ajson := do
  let wires ← reference c v
  modify (select wires)
  match wires with
  | [wire] => pure (.obj [(ascii "type", .str (v.stringField "type")), (ascii "name", .str wire)])
  | _ => do
      modify restrict
      pure (.str (ascii "required"))

def chooseSearch : M Ajson := do
  let s ← get
  if s.toolSearchWire.isEmpty then
    throw (.other (ascii "tool_choice references undeclared client tool_search"))
  else do
    set (select [s.toolSearchWire] s)
    pure (.obj [(ascii "type", .str (ascii "function")), (ascii "name", .str s.toolSearchWire)])

def choice : M Ajson :=
  match v with
  | .obj _ =>
    if v.stringField "type" = ascii "tool_search" then chooseSearch
    else if v.stringField "type" = ascii "allowed_tools" then allowedTools c v
    else if v.stringField "type" = ascii "function" ∨ v.stringField "type" = ascii "custom" then
      chooseFunction c v
    else throw (.other (ascii "unsupported Codex tool_choice type: " ++ v.stringField "type"))
  | .str s =>
    if s = ascii "auto" ∨ s = ascii "none" ∨ s = ascii "required" then pure v
    else throw (.other (ascii "invalid Codex tool_choice"))
  | _ => throw (.other (ascii "invalid Codex tool_choice"))

def prepareTools (tools : Ajson) : M (List Ajson) := do
  let admitted ← definitions c false (ascii "$.tools") tools
  let s ← get
  pure (admitted.filter fun tool => !s.unavailable (toolName tool))

def isHistoryCall : Bool :=
  item.stringField "type" == ascii "function_call" ||
    item.stringField "type" == ascii "custom_tool_call"

def inputPath (index : Nat) : Bytes := ascii "$.input[" ++ decimal index ++ ascii "].tools"

def prepareItem (index : Nat) (item : Ajson) : M Ajson :=
  if isHistoryCall item then history c item
  else if item.stringField "type" = ascii "tool_search_output" then
    match item.field "tools" with
    | none => pure item
    | some tools => do
        let loaded ← definitions c true (inputPath index) tools
        pure (item.set (ascii "tools") (.arr loaded))
  else pure item

def prepareItems : Nat → List Ajson → M (List Ajson)
  | _, [] => pure []
  | index, item :: items => do
      let item' ← prepareItem c index item
      let rest ← prepareItems (index + 1) items
      pure (item' :: rest)

/-- A request: its tools, its input and its tool choice, and all other fields. -/
structure ToolRequest where
  tools : Option Ajson
  input : Option (List Ajson)
  toolChoice : Option Ajson
  others : Ajson

variable (others : Ajson)

def checkIdentity (key : String) : Except Failure Unit :=
  match others.field "client_metadata" with
  | some (.obj metadata) =>
    match (Ajson.obj metadata).field key with
    | none => .ok ()
    | some (.str value) =>
      if value.isEmpty then
        .error (.other (ascii "invalid Core client_metadata." ++ ascii key))
      else
        match others.field key with
        | none => .ok ()
        | some (.str explicit) =>
          if explicit = value then .ok ()
          else .error (.other (ascii "conflicting Core identity: " ++ ascii key))
        | some _ => .error (.other (ascii "conflicting Core identity: " ++ ascii key))
    | some _ => .error (.other (ascii "invalid Core client_metadata." ++ ascii key))
  | _ => .ok ()

def checkOthers : Except Failure Unit := do
  ["session_id", "thread_id", "turn_id"].forM (checkIdentity others)
  match others.field "parallel_tool_calls" with
  | none | some (.bool _) => .ok ()
  | some _ => .error (.other (ascii "parallel_tool_calls must be boolean"))

def optional {α β : Type} (f : α → M β) : Option α → M (Option β)
  | none => pure none
  | some a => do
      let b ← f a
      pure (some b)

def requiresTool : Option Ajson → Bool
  | some (.str s) => s == ascii "required"
  | _ => false

def offeredTools (s : Catalog) (tools : Option (List Ajson)) : Option (List Ajson) :=
  if s.restrictCatalog then
    some ((tools.getD []).filter fun tool => s.selected (toolName tool))
  else tools

def finish (toolChoice : Option Ajson) (tools input : Option (List Ajson)) :
    M (Option (List Ajson) × Option (List Ajson) × Option Ajson) := do
  let chosen ← optional (choice c) toolChoice
  let s ← get
  if requiresTool chosen ∧ ((offeredTools s tools).getD []).isEmpty then
    throw (.other (ascii "tool_choice=required but no tool can be advertised safely"))
  else pure (offeredTools s tools, input, chosen)

variable (request : ToolRequest)

/-- `prepare`: the prepared tools, input and tool choice. -/
def prepare : M (Option (List Ajson) × Option (List Ajson) × Option Ajson) := do
  liftExcept (checkOthers request.others)
  let tools ← optional (prepareTools c) request.tools
  let input ← optional (prepareItems c 0) request.input
  finish c request.toolChoice tools input

/-- `prepare` starts with empty maps; without a value the request stays as it was. -/
def outcome : Option (Option (List Ajson) × Option (List Ajson) × Option Ajson) :=
  ((prepare c request).run.run Catalog.empty).1.toOption

end

end AxiomKernel.Codex
