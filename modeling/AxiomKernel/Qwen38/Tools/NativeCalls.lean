import AxiomKernel.Lib.Search
import AxiomKernel.Lib.Splice
import AxiomKernel.Qwen38.Api.ChatPrompt
import AxiomKernel.Qwen38.Tools.Arguments

/-!
# Native tool calls in the text of the model

`parse_native_tool_calls` cuts the think blocks out of the text, joins what is left and reads the
`<tool_call>` blocks of the joined text. The parser and the writer of JSON and the clock are
parameters here.
-/
namespace AxiomKernel.Qwen38.Tools

open Ajson Image Text Search Splice List Option Nat
open AxiomKernel.Qwen38.Api (trimText)

def thinkOpen : Bytes := ascii "<think>"
def thinkClose : Bytes := ascii "</think>"
def toolOpen : Bytes := ascii "<tool_call>"
def toolClose : Bytes := ascii "</tool_call>"
def functionOpen : Bytes := ascii "<function="
def functionClose : Bytes := ascii "</function>"
def parameterOpen : Bytes := ascii "<parameter="
def parameterClose : Bytes := ascii "</parameter>"

def findFrom (needle text : Bytes) (pos : Nat) : Option Nat :=
  (find needle (text.drop pos)).map (· + pos)

variable {text : Bytes} {i : Nat}

lemma findFrom_bounds {n : Bytes} {pos : Nat} (hn : n ≠ [])
    (h : findFrom n text pos = some i) : pos ≤ i ∧ i + n.length ≤ text.length := by
  obtain ⟨j, hj, rfl⟩ := map_eq_some_iff.1 h
  have hl := find_length hj
  have hp : 0 < n.length := length_pos_of_ne_nil hn
  rw [length_drop] at hl
  omega

/-- The pieces outside the think blocks, of a text that starts at `offset`. -/
def visiblePieces (offset : Nat) (text : Bytes) : List (Piece UInt8) :=
  match _hstart : find thinkOpen text with
  | none => [⟨offset, text⟩]
  | some start =>
    match find thinkClose (text.drop (start + 7)) with
    | none => [⟨offset, text.take start⟩]
    | some stop =>
      ⟨offset, text.take start⟩ ::
        visiblePieces (offset + (start + 7 + stop + 8)) (text.drop (start + 7 + stop + 8))
termination_by text.length
decreasing_by
  have h := find_length _hstart
  change start + 7 ≤ text.length at h
  rw [length_drop]
  omega

def pieces (text : Bytes) (implicitThinking : Bool) : List (Piece UInt8) :=
  if implicitThinking then
    match find thinkClose text with
    | none => []
    | some stop => visiblePieces (stop + 8) (text.drop (stop + 8))
  else visiblePieces 0 text

def thinkless (text : Bytes) (implicitThinking : Bool) : Bytes :=
  joined (pieces text implicitThinking)

def toolFunctionByName (tools : Ajson) (name : Bytes) : Option Ajson :=
  match tools with
  | .arr functions => functions.find? fun function =>
    ((function.field "name").bind text?) == some name
  | _ => none

def toolParameterIsString (function : Ajson) (name : Bytes) : Bool :=
  match (((function.field "parameters").bind (·.field "properties")).bind (·.get name)).bind
      (·.field "type") with
  | some type => type.text? == some (ascii "string")
  | none => false

def safeToolName (name : Bytes) : Bytes :=
  let out := (name.take 48).map fun ch =>
    if (97 ≤ ch ∧ ch ≤ 122) ∨ (65 ≤ ch ∧ ch ≤ 90) ∨ (48 ≤ ch ∧ ch ≤ 57) ∨ ch = 95 ∨ ch = 45 then ch
    else 95
  if out.isEmpty then ascii "tool" else out

structure Call where
  id : Bytes
  name : Bytes
  arguments : Bytes
  deriving Repr, DecidableEq

/-- A call, its arguments, and where its block stands in the text without think blocks. -/
structure Found where
  start : Nat
  stop : Nat
  args : Ajson
  call : Call

inductive Status
  | none | pass | fail
  deriving DecidableEq, Repr

structure NativeToolResult where
  status : Status
  raw : Bytes
  content : Bytes
  error : Bytes := []
  calls : List Call := []

def codeName : ArgumentErrorCode → String
  | .required => "required"
  | .type => "type"
  | .enumValue => "enum"
  | .constValue => "const"
  | .additionalProperty => "additional_property"
  | .schema => "schema"

section
variable (parse : Bytes → Option Ajson) (dumps : Ajson → Bytes) (now : Nat)

def parseNativeParameter (body : Bytes) (stringParameter : Bool) : Ajson :=
  if stringParameter then .str (trimText body)
  else (parse (trimText body)).getD (.str (trimText body))

def readParameters (function : Ajson) (block : Bytes) (functionEnd scan : Nat) (args : Ajson) :
    Except Bytes Ajson :=
  match _hstart : findFrom parameterOpen block scan with
  | none => .ok args
  | some start =>
    if functionEnd ≤ start then .ok args
    else
      match _hname : findFrom [62] block (start + 11) with
      | none => .error (ascii "tool_call has an invalid parameter header")
      | some nameEnd =>
        if functionEnd ≤ nameEnd then
          .error (ascii "tool_call has an invalid parameter header")
        else
          match _hstop : findFrom parameterClose block (nameEnd + 1) with
          | none => .error (ascii "tool_call has an unterminated parameter")
          | some stop =>
            if functionEnd < stop then
              .error (ascii "tool_call has an unterminated parameter")
            else
              let name := (block.drop (start + 11)).take (nameEnd - (start + 11))
              let body := (block.drop (nameEnd + 1)).take (stop - (nameEnd + 1))
              readParameters function block functionEnd (stop + 12)
                (args.set name (parseNativeParameter parse body
                  (toolParameterIsString function name)))
termination_by block.length - scan
decreasing_by
  have h1 := findFrom_bounds (by decide) _hstart
  have h2 := findFrom_bounds (by decide) _hname
  have h3 := findFrom_bounds (by decide) _hstop
  change nameEnd + 1 ≤ stop ∧ stop + 12 ≤ block.length at h3
  omega

def formatArgumentError (tool : Bytes) (error : ArgumentError) : Bytes :=
  ascii "tool argument validation failed: tool=" ++ dumps (.str tool) ++ ascii " code=" ++
    ascii (codeName error.code) ++ ascii " path=" ++ error.path ++ ascii " detail=" ++ error.detail

def validates (args schema : Ajson) : Except ArgumentError Unit :=
  validateArgument (fun text => dumps (.str text)) 65 args schema (ascii "$")

variable (name : Bytes)

def checkArguments (function args : Ajson) : Except Bytes Unit :=
  match function.field "parameters" with
  | none => .ok ()
  | some schema =>
    match validates dumps args schema with
    | .ok () => .ok ()
    | .error error => .error (formatArgumentError dumps name error)

variable (tools : Ajson)

/-- What stands between the tags of one call: its name and its arguments. -/
def readBlock (block : Bytes) : Except Bytes (Bytes × Ajson) :=
  match findFrom functionOpen block 0 with
  | none => .error (ascii "tool_call is missing <function=...>")
  | some functionStart =>
    match findFrom [62] block (functionStart + 10) with
    | none => .error (ascii "tool_call has an invalid function name")
    | some nameEnd =>
      if nameEnd = functionStart + 10 then
        .error (ascii "tool_call has an invalid function name")
      else
        let name := (block.drop (functionStart + 10)).take (nameEnd - (functionStart + 10))
        match toolFunctionByName tools name with
        | none => .error (ascii "model emitted an unknown tool: " ++ name)
        | some function =>
          match findFrom functionClose block (nameEnd + 1) with
          | none => .error (ascii "tool_call is missing </function>")
          | some functionEnd => do
              let args ← readParameters parse function block functionEnd (nameEnd + 1) (.obj [])
              checkArguments dumps name function args
              pure (name, args)

def callOf (args : Ajson) (index : Nat) : Call where
  id := ascii "call_axiom_qwen_" ++ safeToolName name ++ ascii "_" ++ decimal now ++ ascii "_" ++
    decimal index
  name := name
  arguments := dumps args

/-- The loop over the blocks: the calls read, and the error that ended it. -/
def scanCalls (tools : Ajson) (text : Bytes) (scan index : Nat) : List Found × Option Bytes :=
  match _hstart : findFrom toolOpen text scan with
  | none => ([], none)
  | some start =>
    match _hend : findFrom toolClose text (start + 11) with
    | none => ([], some (ascii "unterminated <tool_call> block"))
    | some endTag =>
      match readBlock parse dumps tools ((text.drop (start + 11)).take (endTag - (start + 11))) with
      | .error error => ([], some error)
      | .ok (name, args) =>
        let rest := scanCalls tools text (endTag + 12) (index + 1)
        (⟨start, endTag + 12, args, callOf dumps now name args index⟩ :: rest.1, rest.2)
termination_by text.length - scan
decreasing_by
  have h1 := findFrom_bounds (by decide) _hstart
  have h2 := findFrom_bounds (by decide) _hend
  change start + 11 ≤ endTag ∧ endTag + 12 ≤ text.length at h2
  omega

def foundCalls (text : Bytes) (implicitThinking : Bool) : List Found :=
  (scanCalls parse dumps now tools (thinkless text implicitThinking) 0 0).1

def parseNativeToolCalls (text : Bytes) (tools : Ajson) (implicitThinking : Bool) :
    NativeToolResult :=
  let raw := thinkless text implicitThinking
  let scanned := scanCalls parse dumps now tools raw 0 0
  let calls := scanned.1.map Found.call
  match scanned.2 with
  | some error => { status := .fail, raw, content := trimText raw, error, calls }
  | none =>
    match scanned.1.head?, scanned.1.getLast? with
    | some first, some last =>
      { status := .pass
        raw
        content := trimText (raw.take first.start ++ raw.drop last.stop)
        calls }
    | _, _ => { status := .none, raw, content := trimText raw }

end

/-- The think blocks, from their first byte to the byte behind them, of a text that starts at
`offset`. One that is not closed reaches to the end. -/
def thinkBlocks (offset : Nat) (text : Bytes) : List (Nat × Nat) :=
  match _hstart : find thinkOpen text with
  | none => []
  | some start =>
    match find thinkClose (text.drop (start + 7)) with
    | none => [(offset + start, offset + text.length)]
    | some stop =>
      (offset + start, offset + (start + 7 + stop + 8)) ::
        thinkBlocks (offset + (start + 7 + stop + 8)) (text.drop (start + 7 + stop + 8))
termination_by text.length
decreasing_by
  have h := find_length _hstart
  change start + 7 ≤ text.length at h
  rw [length_drop]
  omega

/-- The think blocks of the model's text; with implicit thinking the first is open already. -/
def reasoning (text : Bytes) (implicitThinking : Bool) : List (Nat × Nat) :=
  if implicitThinking then
    match find thinkClose text with
    | none => [(0, text.length)]
    | some stop => (0, stop + 8) :: thinkBlocks (stop + 8) (text.drop (stop + 8))
  else thinkBlocks 0 text

variable {offset : Nat} {p : Piece UInt8}

lemma offset_le_of_mem (hp : p ∈ visiblePieces offset text) : offset ≤ p.offset := by
  fun_induction visiblePieces offset text with
  | case1 offset text hst =>
    rw [mem_singleton.1 hp]
  | case2 offset text st hst hs =>
    rw [mem_singleton.1 hp]
  | case3 offset text st hst sto hs ih =>
    rcases mem_cons.1 hp with rfl | hp
    · exact le_refl _
    · have := ih hp
      omega

lemma gapped_visiblePieces (offset : Nat) (text : Bytes) : Gapped (visiblePieces offset text) := by
  fun_induction visiblePieces offset text with
  | case1 offset text hst => exact pairwise_singleton _ _
  | case2 offset text st hst hs => exact pairwise_singleton _ _
  | case3 offset text st hst sto hs ih =>
    refine pairwise_cons.2 ⟨fun q hq => ?_, ih⟩
    have := offset_le_of_mem hq
    simp only [Piece.stop, length_take]
    omega

lemma within_visiblePieces {f : Bytes} (h : f.drop offset = text) :
    Within f (visiblePieces offset text) := by
  fun_induction visiblePieces offset text with
  | case1 offset text hst =>
    intro p hp
    rw [mem_singleton.1 hp, h, take_length]
  | case2 offset text st hst hs =>
    intro p hp
    rw [mem_singleton.1 hp, h, length_take]
    exact take_eq_take_iff.2 (by omega)
  | case3 offset text st hst sto hs ih =>
    intro p hp
    rcases mem_cons.1 hp with rfl | hp
    · rw [h, length_take]
      exact take_eq_take_iff.2 (by omega)
    · exact ih (by rw [← h, drop_drop]) p hp

variable {b : Nat × Nat}

lemma offset_le_of_mem_thinkBlocks (hb : b ∈ thinkBlocks offset text) : offset ≤ b.1 := by
  fun_induction thinkBlocks offset text with
  | case1 offset text hst => cases hb
  | case2 offset text st hst hs =>
    rw [mem_singleton.1 hb]
    exact le_add_right _ _
  | case3 offset text st hst sto hs ih =>
    rcases mem_cons.1 hb with rfl | hb
    · exact le_add_right _ _
    · have := ih hb
      omega

lemma outside_thinkBlocks (hp : p ∈ visiblePieces offset text)
    (hi : p.offset ≤ i ∧ i < p.stop) (hb : b ∈ thinkBlocks offset text) :
    ¬ (b.1 ≤ i ∧ i < b.2) := by
  fun_induction visiblePieces offset text with
  | case1 offset text hst =>
    rw [thinkBlocks] at hb
    split at hb
    · cases hb
    next st hs' => rw [hst] at hs'; cases hs'
  | case2 offset text st hst hs =>
    rw [mem_singleton.1 hp] at hi
    simp only [Piece.stop, length_take] at hi
    rw [thinkBlocks] at hb
    split at hb
    · cases hb
    next st' hs' =>
      cases hst.symm.trans hs'
      simp only [hs, mem_singleton] at hb
      rw [hb]
      omega
  | case3 offset text st hst sto hs ih =>
    rw [thinkBlocks] at hb
    split at hb
    · cases hb
    next st' hs' =>
      cases hst.symm.trans hs'
      rw [hs] at hb
      rcases mem_cons.1 hp with rfl | hp
      · simp only [Piece.stop, length_take] at hi
        rcases mem_cons.1 hb with rfl | hb
        · simp only
          omega
        · have := offset_le_of_mem_thinkBlocks hb
          omega
      · rcases mem_cons.1 hb with rfl | hb
        · have := offset_le_of_mem hp
          simp only
          omega
        · exact ih hp hb

lemma gapped_pieces (text : Bytes) (im : Bool) : Gapped (pieces text im) := by
  unfold pieces
  split
  · split
    · exact List.Pairwise.nil
    · exact gapped_visiblePieces _ _
  · exact gapped_visiblePieces _ _

lemma within_pieces (text : Bytes) (implicitThinking : Bool) :
    Within text (pieces text implicitThinking) := by
  unfold pieces
  split
  · split
    · exact nofun
    · exact within_visiblePieces rfl
  · exact within_visiblePieces drop_zero

lemma outside_reasoning {im : Bool}
    (hi : i ∈ positions (pieces text im)) (hb : b ∈ reasoning text im) :
    ¬ (b.1 ≤ i ∧ i < b.2) := by
  obtain ⟨p, hp, hi⟩ := mem_positions.1 hi
  unfold pieces at hp
  unfold reasoning at hb
  split at hp
  next him =>
    rw [if_pos him] at hb
    split at hp
    · cases hp
    next st hs =>
      rw [hs] at hb
      rcases mem_cons.1 hb with rfl | hb
      · have := offset_le_of_mem hp
        simp only
        omega
      · exact outside_thinkBlocks hp hi hb
  next him =>
    rw [if_neg him] at hb
    exact outside_thinkBlocks hp hi hb

section
variable {parse : Bytes → Option Ajson} {dumps : Ajson → Bytes} {now : Nat} {text : Bytes}

lemma findFrom_stands {needle : Bytes} {pos i : Nat} (h : findFrom needle text pos = some i) :
    (text.drop i).take needle.length = needle := by
  obtain ⟨j, hj, rfl⟩ := map_eq_some_iff.1 h
  have hstan := find_stands hj
  rwa [drop_drop, add_comm] at hstan

/-- The call was read from the block at its place, and its tool and arguments are checked. -/
structure Read (parse : Bytes → Option Ajson) (dumps : Ajson → Bytes) (tools : Ajson)
    (text : Bytes) (f : Found) : Prop where
  lt : f.start < f.stop
  le : f.stop ≤ text.length
  block : ∃ block, (text.drop f.start).take (f.stop - f.start) = toolOpen ++ block ++ toolClose ∧
    readBlock parse dumps tools block = .ok (f.call.name, f.args)
  arguments : f.call.arguments = dumps f.args

lemma slice_of_tags {st et : Nat} (ho : (text.drop st).take 11 = toolOpen)
    (hc : (text.drop et).take 12 = toolClose) (hl : st + 11 ≤ et) :
    (text.drop st).take (et + 12 - st) =
    toolOpen ++ (text.drop (st + 11)).take (et - (st + 11)) ++ toolClose := by
  rw [show et + 12 - st = 11 + ((et - (st + 11)) + 12) by omega, take_add,
    ho, drop_drop, take_add, drop_drop, append_assoc,
    show st + 11 + (et - (st + 11)) = et by omega, hc]

variable {tools : Ajson}

lemma read_of_mem_scanCalls {sc ind : Nat} {f : Found}
    (hf : f ∈ (scanCalls parse dumps now tools text sc ind).1) :
    Read parse dumps tools text f := by
  fun_induction scanCalls parse dumps now tools text sc ind with
  | case1 => cases hf
  | case2 => cases hf
  | case3 => cases hf
  | case4 sc ind st hs et he n ar hbl re ih =>
    rcases mem_cons.1 hf with rfl | hf
    · have ho : (text.drop st).take 11 = toolOpen := findFrom_stands hs
      have hc : (text.drop et).take 12 = toolClose := findFrom_stands he
      have hb : st + 11 ≤ et ∧ et + 12 ≤ text.length := findFrom_bounds (by decide) he
      exact
        { lt := by simp only; omega
          le := hb.2
          block := ⟨_, slice_of_tags ho hc hb.1, hbl⟩
          arguments := rfl }
    · exact ih hf

lemma readBlock_spec {bl n : Bytes} {ar : Ajson}
    (h : readBlock parse dumps tools bl = .ok (n, ar)) :
    ∃ f start ne fe, toolFunctionByName tools n = some f ∧
    findFrom [62] bl (start + 10) = some ne ∧ ne ≠ start + 10 ∧
    n = (bl.drop (start + 10)).take (ne - (start + 10)) ∧
    readParameters parse f bl fe (ne + 1) (.obj []) = .ok ar ∧
    checkArguments dumps n f ar = .ok () := by
  revert h
  fun_cases readBlock parse dumps tools bl with
  | case6 start _ ne hn hne name f hf fe =>
    intro h
    obtain ⟨ar', hr, h⟩ := Guard.bind_eq_ok.1 h
    obtain ⟨_, hc, h⟩ := Guard.bind_eq_ok.1 h
    obtain ⟨rfl, rfl⟩ := Prod.mk.inj (Except.ok.inj h)
    exact ⟨f, start, ne, fe, hf, hn, hne, rfl, hr, hc⟩
  | _ =>
    intro h
    cases h

lemma readBlock_ok {bl n : Bytes} {ar : Ajson} (h : readBlock parse dumps tools bl = .ok (n, ar)) :
    ∃ f, toolFunctionByName tools n = some f ∧
    ∀ sc, f.field "parameters" = some sc →
    validates dumps ar sc = .ok () := by
  obtain ⟨f, _, _, _, hf, -, -, -, -, hc⟩ := readBlock_spec h
  refine ⟨f, hf, fun sc hs => ?_⟩
  rw [checkArguments, hs] at hc
  simp only at hc
  split at hc
  next hv => exact hv
  · cases hc

lemma mem_of_toolFunctionByName {f : Ajson} {name : Bytes}
    (h : toolFunctionByName tools name = some f) :
    ∃ fs, tools = .arr fs ∧ f ∈ fs ∧
    (f.field "name").bind text? = some name := by
  unfold toolFunctionByName at h
  split at h
  next fs =>
    have hn := find?_some h
    exact ⟨fs, rfl, mem_of_find?_eq_some h, by simpa using hn⟩
  · cases h

/-- What makes a call authorised: its block stands in the model's text, from the first byte of its
opening tag to the last of its closing tag, outside all reasoning; it names a tool of the catalog,
and its arguments pass the schema of that tool. -/
structure Authorised (parse : Bytes → Option Ajson) (dumps : Ajson → Bytes) (tools : Ajson)
    (text : Bytes) (implicitThinking : Bool) (f : Found) : Prop where
  block : ∃ position block, StandsAt (pieces text implicitThinking) f.start f.stop position ∧
    (text.drop position).take (f.stop - f.start) = toolOpen ++ block ++ toolClose ∧
    readBlock parse dumps tools block = .ok (f.call.name, f.args) ∧
    ∀ b ∈ reasoning text implicitThinking, ∀ i, position ≤ i → i < position + (f.stop - f.start) →
      ¬ (b.1 ≤ i ∧ i < b.2)
  tool : ∃ functions function, tools = .arr functions ∧ function ∈ functions ∧
    (function.field "name").bind text? = some f.call.name ∧
    ∀ schema, function.field "parameters" = some schema → validates dumps f.args schema = .ok ()
  arguments : f.call.arguments = dumps f.args

/-- Every call returned is authorised exactly when no think block was cut out inside the block of a
call. -/
theorem calls_authorised_iff (parse : Bytes → Option Ajson) (dumps : Ajson → Bytes) (now : Nat)
    (tools : Ajson) (text : Bytes) (implicitThinking : Bool) :
    (parseNativeToolCalls parse dumps now text tools implicitThinking).calls =
      (foundCalls parse dumps now tools text implicitThinking).map Found.call ∧
    ((∀ f ∈ foundCalls parse dumps now tools text implicitThinking,
      Authorised parse dumps tools text implicitThinking f) ↔
    ∀ f ∈ foundCalls parse dumps now tools text implicitThinking,
      ∀ c ∈ cuts (pieces text implicitThinking), ¬ (f.start < c ∧ c < f.stop)) := by
  constructor
  · unfold parseNativeToolCalls foundCalls
    simp only
    split
    · rfl
    · split
      · rfl
      next hno =>
        -- the calls are empty when there is no first or no last one
        generalize (scanCalls parse dumps now tools (thinkless text implicitThinking) 0 0).1 = fs
          at hno
        cases fs with
        | nil => rfl
        | cons f fs =>
          exact (hno f _ rfl List.getLast?_cons).elim
  · refine forall₂_congr fun f hf => ?_
    have hrd := read_of_mem_scanCalls hf
    have hstan := standsAt_iff (gapped_pieces text implicitThinking) hrd.lt hrd.le
    constructor
    · rintro ⟨⟨p, _, hp, _⟩, _, _⟩
      exact hstan.1 ⟨p, hp⟩
    · intro hc
      obtain ⟨p, hp⟩ := hstan.2 hc
      obtain ⟨bl, hbl, hr⟩ := hrd.block
      refine ⟨⟨p, bl, hp, ?_, hr, ?_⟩, ?_, hrd.arguments⟩
      · rw [hp.text (within_pieces text implicitThinking) hrd.le]
        exact hbl
      · intro b hb i hl hlt
        refine outside_reasoning ?_ hb
        have hm : i ∈ List.range' p (f.stop - f.start) := by
          rw [mem_range'_1]
          omega
        rw [← hp] at hm
        exact mem_of_mem_drop (mem_of_mem_take hm)
      · obtain ⟨fn, hfu, hv⟩ := readBlock_ok hr
        obtain ⟨fu, ht, hm, hn⟩ := mem_of_toolFunctionByName hfu
        exact ⟨fu, fn, ht, hm, hn, hv⟩

end

def splicedText : Bytes :=
  ascii "<tool_<think>x</think>call><function=f></function></tool_call>"

def splicedPieces : List (Piece UInt8) :=
  [⟨0, ascii "<tool_"⟩, ⟨22, ascii "call><function=f></function></tool_call>"⟩]

def oneTool : Ajson := .arr [.obj [(ascii "name", .str (ascii "f"))]]

lemma pieces_splicedText : pieces splicedText false = splicedPieces := by
  have ho : find thinkOpen splicedText = some 6 := by decide
  have hc : find thinkClose (splicedText.drop (6 + 7)) = some 1 := by decide
  have hr : find thinkOpen (splicedText.drop (6 + 7 + 1 + 8)) = none := by decide
  simp only [pieces, Bool.false_eq_true, if_false]
  rw [visiblePieces]
  split
  next h => rw [ho] at h; cases h
  next st h =>
    cases ho.symm.trans h
    simp only [hc]
    rw [visiblePieces]
    split
    · rfl
    next h => rw [hr] at h; cases h

section
variable (parse : Bytes → Option Ajson) (dumps : Ajson → Bytes)

lemma readBlock_oneTool :
    readBlock parse dumps oneTool (ascii "<function=f></function>") = .ok (ascii "f", .obj []) := by
  have hp : readParameters parse (.obj [(ascii "name", .str (ascii "f"))])
      (ascii "<function=f></function>") 12 12 (.obj []) = .ok (.obj []) := by
    have hno : findFrom parameterOpen (ascii "<function=f></function>") 12 = none := by decide
    rw [readParameters]
    split
    · rfl
    next h => rw [hno] at h; cases h
  have ho : findFrom functionOpen (ascii "<function=f></function>") 0 = some 0 := by decide
  have hn : findFrom [62] (ascii "<function=f></function>") 10 = some 11 := by decide
  have hc : findFrom functionClose (ascii "<function=f></function>") 12 = some 12 := by decide
  have hw : ((ascii "<function=f></function>").drop 10).take 1 = ascii "f" := by decide
  have ht : toolFunctionByName oneTool (ascii "f") =
      some (.obj [(ascii "name", .str (ascii "f"))]) := by rfl
  simp only [readBlock, ho, zero_add, hn, reduceSub, reduceAdd, reduceEqDiff,
    if_false, hw, ht, hc, hp]
  rfl

lemma scanCalls_splicedText (now : Nat) :
    scanCalls parse dumps now oneTool (joined splicedPieces) 0 0 =
    ([⟨0, 46, .obj [], callOf dumps now (ascii "f") (.obj []) 0⟩], none) := by
  have ho : findFrom toolOpen (joined splicedPieces) 0 = some 0 := by decide
  have hc : findFrom toolClose (joined splicedPieces) (0 + 11) = some 34 := by decide
  have hb : ((joined splicedPieces).drop (0 + 11)).take (34 - (0 + 11)) =
      ascii "<function=f></function>" := by decide
  have he : findFrom toolOpen (joined splicedPieces) (34 + 12) = none := by decide
  have hr : scanCalls parse dumps now oneTool (joined splicedPieces) (34 + 12) (0 + 1) =
      ([], none) := by
    rw [scanCalls]
    split
    · rfl
    next h => rw [he] at h; cases h
  rw [scanCalls]
  split
  next h => rw [ho] at h; cases h
  next st h =>
    cases ho.symm.trans h
    split
    next h => rw [hc] at h; cases h
    next et h =>
      cases hc.symm.trans h
      rw [hb, readBlock_oneTool]
      rw [hr]

end

/-- The opening tag is put together of the bytes before and behind a think block. -/
theorem spliced_tag_authorises :
    (parseNativeToolCalls (fun _ => none) (fun _ => ascii "\x7b\x7d") 0 splicedText oneTool
      false).calls.map Call.name = [ascii "f"] ∧
    ¬ ∀ f ∈ foundCalls (fun _ => none) (fun _ => ascii "\x7b\x7d") 0 oneTool splicedText false,
      Authorised (fun _ => none) (fun _ => ascii "\x7b\x7d") oneTool splicedText false f := by
  have hsc := scanCalls_splicedText (fun _ => none) (fun _ => ascii "\x7b\x7d") 0
  constructor
  · simp only [parseNativeToolCalls, thinkless, pieces_splicedText, hsc]
    rfl
  · intro ha
    obtain ⟨⟨p, _, hs, _⟩, _, _⟩ := ha _ (by
      simp only [foundCalls, thinkless, pieces_splicedText, hsc]
      exact mem_singleton_self _)
    have hcuts := (standsAt_iff (gapped_pieces splicedText false) (by decide)
      (by rw [pieces_splicedText]; decide)).1 ⟨p, hs⟩
    rw [pieces_splicedText] at hcuts
    exact hcuts 6 (by decide) (by decide)

end AxiomKernel.Qwen38.Tools
