import Mathlib.Data.List.DropRight
import AxiomKernel.Codex.WireNames
import AxiomKernel.JsonRead
import AxiomKernel.Qwen38.Tools.NativeCalls

/-!
# Calls of the history

`native_tool_call_text` writes a call into the prompt of a later turn, in the form the model writes
its calls in. String values go in as they are and everything else as JSON; reading the text again
trims each value and tries JSON on it unless the parameter is declared a string.
-/
namespace AxiomKernel.Qwen38.Tools

open Ajson Image Text Search Guard List
open Option hiding map_id map_map mem_map
open AxiomKernel.Qwen38.Api (trimText isWhitespace)

section
variable (parse : Bytes → Option Ajson) (dumps : Ajson → Bytes)

def renderValue : Ajson → Bytes
  | .str s => s
  | v => dumps v

def renderParameter (m : Bytes × Ajson) : Bytes :=
  parameterOpen ++ (m.1 ++ 62 :: 10 :: (renderValue dumps m.2 ++ 10 :: (parameterClose ++ [10])))

variable (name : Bytes)

def callBody (members : List (Bytes × Ajson)) : Bytes := 10 :: (functionOpen ++ (name ++ 62 :: 10 ::
    (members.flatMap (renderParameter dumps) ++ (functionClose ++ [10]))))

def callText (members : List (Bytes × Ajson)) : Bytes :=
  toolOpen ++ (callBody dumps name members ++ toolClose)

/-- The arguments of a call; a text that is no JSON object counts as none. -/
def callArguments (function : Ajson) : List (Bytes × Ajson) :=
  match function.field "arguments" with
  | some (.str text) =>
    match parse text with
    | some (.obj members) => members
    | _ => []
  | some (.obj members) => members
  | _ => []

def nativeToolCallText (call : Ajson) : Bytes :=
  match call.field "function" with
  | some (.obj function) =>
    match (obj function).field "name" with
    | some (.str name) =>
      if name.isEmpty then [] else callText dumps name (callArguments parse (.obj function))
    | _ => []
  | _ => []

end

lemma renderParameter_eq (dumps : Ajson → Bytes) (arg : Bytes × Ajson) :
    renderParameter dumps arg = ascii "<parameter=" ++ arg.1 ++ ascii ">\n" ++
      renderValue dumps arg.2 ++ ascii "\n</parameter>\n" := by
  simp only [append_assoc]
  rfl

/-- The history of a prompt is written with the same text. -/
theorem nativeToolCallText_eq_prompt (render : Api.Rendering) (call : Ajson) :
    nativeToolCallText render.parse render.dumps call = Api.nativeToolCallText render call := by
  unfold nativeToolCallText Api.nativeToolCallText
  cases call.field "function" with
  | none => rfl
  | some function =>
    cases function with
    | null | bool _ | int _ | num _ | str _ | arr _ => rfl
    | obj members =>
      dsimp only
      cases (obj members).field "name" with
      | none => rfl
      | some name =>
        cases name with
        | null | bool _ | int _ | num _ | arr _ | obj _ => rfl
        | str name =>
          cases name with
          | nil => rfl
          | cons first name =>
            change callText render.dumps (first :: name) (callArguments render.parse _) = _
            rw [callText, callBody, funext (renderParameter_eq render.dumps)]
            dsimp only [Option.bind_some, text?]
            simp only [append_assoc, cons_append]
            rfl

def Call.json (call : Call) : Ajson :=
  .obj [(ascii "id", .str call.id), (ascii "type", .str (ascii "function")),
    (ascii "function", .obj [(ascii "name", .str call.name),
      (ascii "arguments", .str call.arguments)])]

lemma find_self (n re : Bytes) : find n (n ++ re) = some 0 := by
  cases hneed : n with
  | nil =>
    cases re with
    | nil => rfl
    | cons c re => rfl
  | cons a n' =>
    rw [cons_append, find, if_pos]
    exact isPrefixOf_iff_prefix.2 (prefix_append (a :: n') re)

lemma find_tag (tag re : Bytes) : find (60 :: tag) (10 :: (60 :: tag ++ re)) = some 1 := by
  have hs : (60 : UInt8) ∉ [10] := by decide
  have hf : find (60 :: tag) ([10] ++ (60 :: tag ++ re)) =
      (find (60 :: tag) (60 :: tag ++ re)).map (· + 1) := find_append_of_notMem hs _
  rw [find_self] at hf
  exact hf

variable {a : UInt8} {block tail : Bytes} {scan : Nat}

lemma find_byte {name : Bytes} (h : a ∉ name) (re : Bytes) :
    find [a] (name ++ a :: re) = some name.length := by
  have hf : find [a] (name ++ ([a] ++ re)) =
      (find [a] ([a] ++ re)).map (· + name.length) := find_append_of_notMem h _
  rw [find_self, map_some, zero_add] at hf
  exact hf

lemma findFrom_of_drop {n : Bytes} {e : Nat} (hd : block.drop scan = tail)
    (h : find n tail = some e) :
    findFrom n block scan = some (e + scan) := by
  rw [findFrom, hd, h]
  rfl

lemma drop_of_drop (he : Bytes) (h : block.drop scan = he ++ tail) :
    block.drop (scan + he.length) = tail := by
  rw [← drop_drop, h, drop_left]

section
variable {parse : Bytes → Option Ajson} {dumps : Ajson → Bytes}

def reread (parse : Bytes → Option Ajson) (dumps : Ajson → Bytes) (function : Ajson)
    (m : Bytes × Ajson) : Ajson :=
  parseNativeParameter parse (10 :: (renderValue dumps m.2 ++ [10]))
    (toolParameterIsString function m.1)

def Closed (dumps : Ajson → Bytes) (m : Bytes × Ajson) : Prop :=
  find parameterClose (10 :: (renderValue dumps m.2 ++ 10 :: parameterClose)) =
    some ((renderValue dumps m.2).length + 2)

variable {function args : Ajson} {block : Bytes} {functionEnd scan : Nat}

lemma readParameters_nil (hd : block.drop scan = 10 :: (functionClose ++ [10])) :
    readParameters parse function block functionEnd scan args = .ok args := by
  have hn : findFrom parameterOpen block scan = none := by
    have hf : find parameterOpen (10 :: (functionClose ++ [10])) = none := by decide
    rw [findFrom, hd, hf]
    rfl
  rw [readParameters]
  split
  · rfl
  next st hs =>
    rw [hn] at hs
    cases hs

lemma length_renderParameter (m : Bytes × Ajson) :
    (renderParameter dumps m).length = m.1.length + (renderValue dumps m.2).length + 27 := by
  have ho : parameterOpen.length = 11 := by decide
  have hc : parameterClose.length = 12 := by decide
  simp only [renderParameter, length_append, length_cons, length_nil, ho, hc]
  omega

lemma readParameters_cons {tail : Bytes} {m : Bytes × Ajson} (hk : (62 : UInt8) ∉ m.1)
    (hc : Closed dumps m) (hd : block.drop scan = 10 :: (renderParameter dumps m ++ tail))
    (he : scan + 1 + (renderParameter dumps m).length ≤ functionEnd) :
    readParameters parse function block functionEnd scan args =
    readParameters parse function block functionEnd (scan + (renderParameter dumps m).length)
    (args.set m.1 (reread parse dumps function m)) := by
  rw [length_renderParameter] at he ⊢
  -- What is left of the block at the tag, at the name, at the value and behind the value.
  have ho : block.drop (scan + 1) = parameterOpen ++ (m.1 ++ 62 :: 10 ::
      (renderValue dumps m.2 ++ 10 :: (parameterClose ++ 10 :: tail))) := by
    refine drop_of_drop [10] (hd.trans ?_)
    simp [renderParameter]
  have hn : block.drop (scan + 1 + 11) = m.1 ++ 62 :: 10 ::
      (renderValue dumps m.2 ++ 10 :: (parameterClose ++ 10 :: tail)) :=
    drop_of_drop parameterOpen ho
  have hv : block.drop (scan + 1 + 11 + m.1.length + 1) =
      (10 :: (renderValue dumps m.2 ++ [10])) ++ (parameterClose ++ 10 :: tail) := by
    refine drop_of_drop [62] ((drop_of_drop m.1 hn).trans ?_)
    simp
  have hst : findFrom parameterOpen block scan = some (1 + scan) := by
    refine findFrom_of_drop (e := 1) hd ?_
    rw [renderParameter, append_assoc]
    exact find_tag (ascii "parameter=") _
  have hna : findFrom [62] block (1 + scan + 11) = some (m.1.length + (1 + scan + 11)) :=
    findFrom_of_drop ((congrArg (fun n => block.drop (n + 11)) (add_comm 1 scan)).trans hn)
      (find_byte hk _)
  have hp : m.1.length + (1 + scan + 11) + 1 = scan + 1 + 11 + m.1.length + 1 := by omega
  have hs : findFrom parameterClose block (m.1.length + (1 + scan + 11) + 1) =
      some ((renderValue dumps m.2).length + 2 + (m.1.length + (1 + scan + 11) + 1)) := by
    rw [hp]
    refine findFrom_of_drop hv ?_
    have hf := find_append (by decide) hc (10 :: tail)
    simpa only [append_assoc, cons_append, nil_append] using hf
  have hke : (block.drop (1 + scan + 11)).take
      (m.1.length + (1 + scan + 11) - (1 + scan + 11)) = m.1 := by
    rw [add_comm 1 scan, hn, Nat.add_sub_cancel, take_left]
  have hb : (block.drop (m.1.length + (1 + scan + 11) + 1)).take
      ((renderValue dumps m.2).length + 2 + (m.1.length + (1 + scan + 11) + 1) -
        (m.1.length + (1 + scan + 11) + 1)) = 10 :: (renderValue dumps m.2 ++ [10]) := by
    have hl : (renderValue dumps m.2).length + 2 =
        (10 :: (renderValue dumps m.2 ++ [10])).length := by
      rw [length_cons, length_append, length_singleton]
    rw [Nat.add_sub_cancel, hp, hv, hl, take_left]
  rw [readParameters]
  split
  next hno =>
    rw [hst] at hno
    cases hno
  next st hst' =>
    cases hst.symm.trans hst'
    rw [if_neg (by omega)]
    split
    next hno =>
      rw [hna] at hno
      cases hno
    next ne hn' =>
      cases hna.symm.trans hn'
      rw [if_neg (by omega)]
      split
      next hno =>
        rw [hs] at hno
        cases hno
      next sto hs' =>
        cases hs.symm.trans hs'
        rw [if_neg (by omega)]
        dsimp only
        rw [hke, hb]
        have hsc : (renderValue dumps m.2).length + 2 + (m.1.length + (1 + scan + 11) + 1) + 12 =
            scan + (m.1.length + (renderValue dumps m.2).length + 27) := by omega
        rw [hsc]
        rfl

lemma readParameters_render (members : List (Bytes × Ajson))
    (hk : ∀ m ∈ members, (62 : UInt8) ∉ m.1) (hc : ∀ m ∈ members, Closed dumps m)
    (hd : block.drop scan =
      10 :: (members.flatMap (renderParameter dumps) ++ (functionClose ++ [10])))
    (he : functionEnd = scan + 1 + (members.flatMap (renderParameter dumps)).length) :
    readParameters parse function block functionEnd scan args =
      .ok (members.foldl (fun args m => args.set m.1 (reread parse dumps function m)) args) := by
  induction members generalizing scan args with
  | nil => exact readParameters_nil hd
  | cons m members ih =>
    rw [flatMap_cons, append_assoc] at hd
    rw [flatMap_cons, length_append] at he
    rw [readParameters_cons (hk m mem_cons_self) (hc m mem_cons_self) hd (by omega), foldl_cons]
    refine ih (fun m' hm' => hk m' (mem_cons_of_mem _ hm'))
      (fun m' hm' => hc m' (mem_cons_of_mem _ hm')) ?_ (by omega)
    -- The line break that ends a parameter stands before the next one.
    obtain ⟨f, hf⟩ : ∃ f, renderParameter dumps m = f ++ [10] := by
      refine ⟨parameterOpen ++ (m.1 ++ 62 :: 10 ::
        (renderValue dumps m.2 ++ 10 :: parameterClose)), ?_⟩
      simp [renderParameter]
    have hl : (renderParameter dumps m).length = (10 :: f).length := by
      rw [hf, length_append]
      rfl
    rw [hl]
    refine drop_of_drop (10 :: f) (hd.trans ?_)
    rw [hf]
    simp

/-- The tags of a written call stand where the writer puts them, and nowhere before. -/
structure Sealed (dumps : Ajson → Bytes) (name : Bytes) (members : List (Bytes × Ajson)) :
    Prop where
  noThinking : find thinkOpen (callText dumps name members) = none
  call : find toolClose (callBody dumps name members ++ toolClose) =
    some (callBody dumps name members).length
  function : find functionClose (10 :: (members.flatMap (renderParameter dumps) ++ functionClose)) =
    some ((members.flatMap (renderParameter dumps)).length + 1)
  parameters : ∀ m ∈ members, Closed dumps m

variable {tools function : Ajson} {name : Bytes} {members : List (Bytes × Ajson)} {now : Nat}

def rereadAll (parse : Bytes → Option Ajson) (dumps : Ajson → Bytes) (function : Ajson)
    (members : List (Bytes × Ajson)) : Ajson :=
  members.foldl (fun args m => args.set m.1 (reread parse dumps function m)) (.obj [])

lemma readBlock_callBody (hn : name ≠ []) (hc : (62 : UInt8) ∉ name)
    (hfu : toolFunctionByName tools name = some function)
    (hk : ∀ m ∈ members, (62 : UInt8) ∉ m.1) (hs : Sealed dumps name members) :
    readBlock parse dumps tools (callBody dumps name members) = (do
      checkArguments dumps name function (rereadAll parse dumps function members)
      pure (name, rereadAll parse dumps function members)) := by
  have hz : (callBody dumps name members).drop 0 = 10 :: (functionOpen ++ (name ++ 62 :: 10 ::
      (members.flatMap (renderParameter dumps) ++ (functionClose ++ [10])))) := rfl
  have hst : findFrom functionOpen (callBody dumps name members) 0 = some 1 :=
    findFrom_of_drop hz (find_tag (ascii "function=") _)
  have hd : (callBody dumps name members).drop (1 + 10) = name ++ 62 :: 10 ::
      (members.flatMap (renderParameter dumps) ++ (functionClose ++ [10])) :=
    drop_of_drop functionOpen rfl
  have hnm : findFrom [62] (callBody dumps name members) (1 + 10) =
      some (name.length + (1 + 10)) := findFrom_of_drop hd (find_byte hc _)
  have hb : (callBody dumps name members).drop (name.length + (1 + 10) + 1) =
      10 :: (members.flatMap (renderParameter dumps) ++ (functionClose ++ [10])) := by
    rw [add_comm name.length]
    exact drop_of_drop [62] (drop_of_drop name hd)
  have he : findFrom functionClose (callBody dumps name members) (name.length + (1 + 10) + 1) =
      some ((members.flatMap (renderParameter dumps)).length + 1 +
        (name.length + (1 + 10) + 1)) := by
    refine findFrom_of_drop hb ?_
    have hf := find_append (by decide) hs.function [10]
    simpa only [append_assoc, cons_append] using hf
  have hna : ((callBody dumps name members).drop (1 + 10)).take
      (name.length + (1 + 10) - (1 + 10)) = name := by
    rw [hd, Nat.add_sub_cancel, take_left]
  have hl : 0 < name.length := length_pos_of_ne_nil hn
  rw [readBlock, hst]
  dsimp only
  rw [hnm]
  dsimp only
  rw [if_neg (by omega), hna, hfu]
  dsimp only
  rw [he]
  dsimp only
  rw [readParameters_render members hk hs.parameters hb (by omega)]
  rfl

variable {text : Bytes}

lemma thinkless_of_none (h : find thinkOpen text = none) : thinkless text false = text := by
  rw [thinkless, pieces, if_neg (by decide), visiblePieces]
  split
  · exact append_nil text
  next hs =>
    rw [h] at hs
    cases hs

lemma scanCalls_callText (hsl : Sealed dumps name members) :
    scanCalls parse dumps now tools (callText dumps name members) 0 0 =
      match readBlock parse dumps tools (callBody dumps name members) with
      | .error er => ([], some er)
      | .ok (n', args) =>
        ([⟨0, (callText dumps name members).length, args, callOf dumps now n' args 0⟩], none) := by
  have ho : toolOpen.length = 11 := by decide
  have hc : toolClose.length = 12 := by decide
  have hst : findFrom toolOpen (callText dumps name members) 0 = some 0 :=
    findFrom_of_drop rfl (find_self toolOpen _)
  have hd : (callText dumps name members).drop (0 + 11) =
      callBody dumps name members ++ toolClose := drop_of_drop toolOpen rfl
  have he : findFrom toolClose (callText dumps name members) (0 + 11) =
      some ((callBody dumps name members).length + (0 + 11)) := findFrom_of_drop hd hsl.call
  have hb : ((callText dumps name members).drop (0 + 11)).take
      ((callBody dumps name members).length + (0 + 11) - (0 + 11)) =
        callBody dumps name members := by
    rw [hd, Nat.add_sub_cancel, take_left]
  have hl : (callBody dumps name members).length + (0 + 11) + 12 =
      (callText dumps name members).length := by
    rw [callText, length_append, length_append, ho, hc]
    omega
  have hr : scanCalls parse dumps now tools (callText dumps name members)
      (callText dumps name members).length 1 = ([], none) := by
    have hn : findFrom toolOpen (callText dumps name members)
        (callText dumps name members).length = none := by
      rw [findFrom, drop_length]
      rfl
    rw [scanCalls]
    split
    · rfl
    next hs =>
      rw [hn] at hs
      cases hs
  rw [scanCalls]
  split
  next hn =>
    rw [hst] at hn
    cases hn
  next st hs' =>
    cases hst.symm.trans hs'
    split
    next hn =>
      rw [he] at hn
      cases hn
    next et he' =>
      cases he.symm.trans he'
      rw [hb]
      rcases readBlock parse dumps tools (callBody dumps name members) with er | ⟨n', args⟩
      · rfl
      · dsimp only
        rw [hl, hr]

variable {a : UInt8} {e : Nat}

lemma notMem_of_find (h : find [a] text = some e) : a ∉ text.take e := by
  intro hm
  have hn : find [a] (text.take e) = none := by
    rw [find_take (cons_ne_nil a []) text e, h, bind_some, if_neg (by simp)]
  obtain ⟨f, b, hs, hf⟩ := eq_append_cons_of_mem hm
  rw [hs, find_byte hf] at hn
  cases hn

lemma notMem_of_findFrom {pos : Nat} (h : findFrom [a] text pos = some e) :
    a ∉ (text.drop pos).take (e - pos) := by
  obtain ⟨e', he', rfl⟩ := map_eq_some_iff.1 h
  rw [Nat.add_sub_cancel]
  exact notMem_of_find he'

def Parameter (parse : Bytes → Option Ajson) (function : Ajson) (m : Bytes × Ajson) : Prop :=
  (62 : UInt8) ∉ m.1 ∧
    ∃ body, m.2 = parseNativeParameter parse body (toolParameterIsString function m.1)

lemma members_readParameters {out : Ajson} (ha : Members (Parameter parse function) args)
    (h : readParameters parse function block functionEnd scan args = .ok out) :
    Members (Parameter parse function) out := by
  fun_induction readParameters parse function block functionEnd scan args with
  | case1 =>
    cases h
    exact ha
  | case2 =>
    cases h
    exact ha
  | case3 => cases h
  | case4 => cases h
  | case5 => cases h
  | case6 => cases h
  | case7 scan args st hst hlt ne hn hl' sto hs hl name b ih =>
    exact ih (ha.set ⟨notMem_of_findFrom hn, b, rfl⟩) h

lemma readBlock_facts (h : readBlock parse dumps tools block = .ok (name, args)) :
    ∃ function, toolFunctionByName tools name = some function ∧ name ≠ [] ∧ (62 : UInt8) ∉ name ∧
    Members (Parameter parse function) args ∧
    checkArguments dumps name function args = .ok () := by
  obtain ⟨function, fs, ne, fe, hf, hn, hne, rfl, hr, hc⟩ := readBlock_spec h
  have hb : fs + 10 ≤ ne ∧ ne + 1 ≤ block.length := findFrom_bounds (by decide) hn
  refine ⟨function, hf, fun hni => ?_, notMem_of_findFrom hn,
    members_readParameters members_nil hr, hc⟩
  have hl := congrArg length hni
  rw [length_take, length_drop, length_nil] at hl
  omega

end

variable (text : Bytes)

lemma trimText_padded : trimText (10 :: (text ++ [10])) = trimText text := by
  have ht : isWhitespace 10 := by decide
  rw [trimText, trimText, dropWhile_cons_of_pos ht]
  rcases Classical.em (∀ b ∈ text, isWhitespace b = true) with ha | hso
  · have hn : text.dropWhile isWhitespace = [] := dropWhile_eq_nil_iff.2 ha
    rw [dropWhile_append_of_pos ha, hn]
    rfl
  · have hne : text.dropWhile isWhitespace ≠ [] := fun hn =>
      hso (dropWhile_eq_nil_iff.1 hn)
    rw [dropWhile_append, if_neg (by simpa using hne), reverse_append,
      reverse_singleton, singleton_append, dropWhile_cons_of_pos ht]

lemma trimText_of_ends {text f : Bytes} {b : UInt8} {ba : Bytes} (hf : text = a :: ba)
    (ha : isWhitespace a = false) (hbk : text = f ++ [b]) (hb : isWhitespace b = false) :
    trimText text = text := by
  have hd : text.dropWhile isWhitespace = text := by
    rw [hf, dropWhile_cons_of_neg (by simp [ha])]
  have hr : text.reverse.dropWhile isWhitespace = text.reverse := by
    rw [hbk, reverse_append, reverse_singleton, singleton_append,
      dropWhile_cons_of_neg (by simp [hb])]
  rw [trimText, hd, hr, reverse_reverse]

lemma trimText_trimText : trimText (trimText text) = trimText text := by
  have hd : (trimText text).dropWhile isWhitespace = trimText text := by
    obtain ⟨back, hb⟩ : ∃ back, text.dropWhile isWhitespace = trimText text ++ back := by
      refine ⟨((text.dropWhile isWhitespace).reverse.takeWhile isWhitespace).reverse, ?_⟩
      rw [trimText, ← reverse_append, takeWhile_append_dropWhile, reverse_reverse]
    cases htrim : trimText text with
    | nil => rfl
    | cons a re =>
      -- What is left starts where the text without its leading blanks does.
      have hself := dropWhile_idempotent isWhitespace text
      rw [hb, htrim, cons_append] at hself
      cases ha : isWhitespace a with
      | false => exact dropWhile_cons_of_neg (by simp [ha])
      | true =>
        rw [dropWhile_cons_of_pos ha] at hself
        have hl := congrArg length hself
        have hle := (dropWhile_sublist isWhitespace (l := re ++ back)).length_le
        rw [length_cons] at hl
        omega
  have hr : (trimText text).reverse.dropWhile isWhitespace = (trimText text).reverse := by
    rw [trimText, reverse_reverse, dropWhile_idempotent]
  rw [trimText, hd, hr, reverse_reverse]

lemma length_trimText_le : (trimText text).length ≤ text.length := by
  rw [trimText, length_reverse]
  have hbk := (dropWhile_sublist isWhitespace
    (l := (text.dropWhile isWhitespace).reverse)).length_le
  have hfr := (dropWhile_sublist isWhitespace (l := text)).length_le
  rw [length_reverse] at hbk
  omega

lemma isWhitespace_eq_isWs (c : UInt8) : isWhitespace c = isWs c := by
  have hb (d : UInt8) : decide (c = d) = (c == d) := rfl
  rw [isWhitespace, isWs, hb, hb, hb, hb, Bool.or_assoc _ (c == 13), Bool.or_comm (c == 13),
    ← Bool.or_assoc]

section
variable {strtod : Bytes → Option ℚ} {double : ℚ → Bytes} {function : Ajson} {m : Bytes × Ajson}
  {dumps : Ajson → Bytes} {v : Ajson} {members : List (Bytes × Ajson)}

lemma renderValue_of_not_str (h : ¬ ∃ s, v = .str s) : renderValue dumps v = dumps v := by
  cases v with
  | str s => exact absurd ⟨s, rfl⟩ h
  | _ => rfl

lemma reread_json {bo : Bytes}
    (hbd : v = (Ajson.parse strtod (trimText bo)).getD (.str (trimText bo)))
    (ho : ¬ ∃ s, v = .str s) (hn : NoDoubles v) :
    (Ajson.parse strtod (trimText (renderValue (Ajson.dumps double) v))).getD
    (.str (trimText (renderValue (Ajson.dumps double) v))) = v := by
  have hp : Ajson.parse strtod (trimText bo) = some v := by
    cases hp : Ajson.parse strtod (trimText bo) with
    | none =>
      rw [hp] at hbd
      exact absurd ⟨_, hbd⟩ ho
    | some w =>
      rw [hp] at hbd
      exact congrArg some hbd.symm
  obtain ⟨hh, hr⟩ := within_parse hp
  have hpl : Regular (fun _ => False) v := regular_of_noDoubles hr hn
  have hd : Doubles strtod double fun _ => False := doubles_none
  obtain ⟨a, ba, hf, ha, -⟩ := dumps_cons hd hpl
  obtain ⟨f, b, hbk, hb⟩ : ∃ f b, Ajson.dumps double v = f ++ [b] ∧ isWs b = false := by
    refine dumps_concat ?_
    rintro d rfl
    exact hn.elim
  have ht : trimText (Ajson.dumps double v) = Ajson.dumps double v :=
    trimText_of_ends hf ((isWhitespace_eq_isWs a).trans ha) hbk ((isWhitespace_eq_isWs b).trans hb)
  rw [renderValue_of_not_str ho, ht, parse_dumps hd hpl hh, getD_some]

/-- A value comes back unless it is a string of a parameter that is not declared one, and it is not
trimmed or is a JSON text itself. -/
lemma reread_eq_iff (hm : Parameter (Ajson.parse strtod) function m) (hn : NoDoubles m.2) :
    reread (Ajson.parse strtod) (Ajson.dumps double) function m = m.2 ↔
    (toolParameterIsString function m.1 = false → ∀ s, m.2 = .str s →
    trimText s = s ∧ Ajson.parse strtod s = none) := by
  obtain ⟨-, b, hb⟩ := hm
  unfold reread
  cases hstr : toolParameterIsString function m.1 with
  | true =>
    rw [hstr, parseNativeParameter, if_pos rfl] at hb
    rw [hb, parseNativeParameter, if_pos rfl, renderValue, trimText_padded, trimText_trimText]
    simp
  | false =>
    rw [hstr, parseNativeParameter, if_neg (by decide)] at hb
    rw [parseNativeParameter, if_neg (by decide), trimText_padded]
    rcases Classical.em (∃ s, m.2 = .str s) with ⟨s, hs⟩ | ho
    · rw [hs, renderValue]
      constructor
      · intro h _ s' hs'
        cases hs'
        cases hp : Ajson.parse strtod (trimText s) with
        | none =>
          rw [hp, getD_none] at h
          have ht : trimText s = s := Ajson.str.inj h
          rw [ht] at hp
          exact ⟨ht, hp⟩
        | some v =>
          rw [hp, getD_some] at h
          have hsh := length_of_parse_str (h ▸ hp)
          have hle := length_trimText_le s
          omega
      · intro h
        obtain ⟨ht, hp⟩ := h rfl s rfl
        rw [ht, hp, getD_none]
    · constructor
      · intro _ _ s hs
        exact absurd ⟨s, hs⟩ ho
      · intro _
        exact reread_json hb ho hn

lemma foldl_set {f : Bytes × Ajson → Ajson} (members out : List (Bytes × Ajson))
    (hn : ((out ++ members).map Prod.fst).Nodup) :
    members.foldl (fun (args : Ajson) m => args.set m.1 (f m)) (.obj out) =
      .obj (out ++ members.map fun m => (m.1, f m)) := by
  induction members generalizing out with
  | nil => rw [foldl_nil, map_nil, append_nil]
  | cons m members ih =>
    have hf : m.1 ∉ out.map Prod.fst := fresh_of_nodup hn
    have hs : (obj out).set m.1 (f m) = .obj (out ++ [(m.1, f m)]) :=
      congrArg obj (setMember_of_not_mem hf)
    rw [foldl_cons, hs, ih (out ++ [(m.1, f m)]) (by simpa using hn), map_cons, append_assoc]
    rfl

lemma rereadAll_eq {parse : Bytes → Option Ajson} (hn : (members.map Prod.fst).Nodup) :
    rereadAll parse dumps function members =
      .obj (members.map fun m => (m.1, reread parse dumps function m)) :=
  foldl_set members [] hn

lemma regular_reread (m : Bytes × Ajson) :
    Regular (FromText strtod) (reread (Ajson.parse strtod) (Ajson.dumps double) function m) := by
  unfold reread parseNativeParameter
  split
  · trivial
  · cases hpa : Ajson.parse strtod
        (trimText (10 :: (renderValue (Ajson.dumps double) m.2 ++ [10]))) with
    | none => trivial
    | some v => exact (within_parse hpa).2

lemma regular_rereadAll (hn : (members.map Prod.fst).Nodup) : Regular (FromText strtod)
    (rereadAll (Ajson.parse strtod) (Ajson.dumps double) function members) := by
  rw [rereadAll_eq hn, Regular]
  refine ⟨?_, regularMembers_iff.2 fun m hm => ?_⟩
  · rw [map_map]
    exact hn
  · obtain ⟨m', -, rfl⟩ := mem_map.1 hm
    exact regular_reread m'

lemma regular_of_parameters {args : Ajson}
    (h : Members (Parameter (Ajson.parse strtod) function) args) :
    Regular (FromText strtod) args := by
  obtain ⟨members, rfl, hn, hmb⟩ := h
  rw [Regular]
  refine ⟨hn, regularMembers_iff.2 fun m hm => ?_⟩
  obtain ⟨-, b, hb⟩ := hmb m hm
  rw [hb, parseNativeParameter]
  split
  · trivial
  · cases hpa : Ajson.parse strtod (trimText b) with
    | none => trivial
    | some v => exact (within_parse hpa).2

end

section
variable (strtod : Bytes → Option ℚ) (double : ℚ → Bytes) (now : Nat)

def writtenArguments (call : Call) : List (Bytes × Ajson) :=
  match Ajson.parse strtod call.arguments with
  | some (.obj members) => members
  | _ => []

def RoundTrips (tools : Ajson) (call : Call) : Prop :=
  let result := parseNativeToolCalls (Ajson.parse strtod) (Ajson.dumps double) now
    (nativeToolCallText (Ajson.parse strtod) (Ajson.dumps double) call.json) tools false
  result.status = .pass ∧
    result.calls.map (fun c => (c.name, c.arguments)) = [(call.name, call.arguments)]

end

section
variable {strtod : Bytes → Option ℚ} {double : ℚ → Bytes} {now : Nat} {tools function : Ajson}
  {call : Call}

lemma nativeToolCallText_json (hn : call.name ≠ []) :
    nativeToolCallText (Ajson.parse strtod) (Ajson.dumps double) call.json =
    callText (Ajson.dumps double) call.name (writtenArguments strtod call) := by
  have he : ¬ call.name.isEmpty := by simpa using hn
  obtain ⟨function, hf, hfi, ha⟩ : ∃ function,
      call.json.field "function" = some (.obj function) ∧
      (obj function).field "name" = some (.str call.name) ∧
      callArguments (Ajson.parse strtod) (.obj function) = writtenArguments strtod call :=
    ⟨_, rfl, rfl, rfl⟩
  rw [nativeToolCallText, hf]
  dsimp only
  rw [hfi]
  dsimp only
  rw [if_neg he, ha]

lemma roundTrips_iff (hn : call.name ≠ []) (hcl : (62 : UInt8) ∉ call.name)
    (hf : toolFunctionByName tools call.name = some function)
    (hk : ∀ m ∈ writtenArguments strtod call, (62 : UInt8) ∉ m.1)
    (hs : Sealed (Ajson.dumps double) call.name (writtenArguments strtod call)) :
    RoundTrips strtod double now tools call ↔ checkArguments (Ajson.dumps double) call.name function
    (rereadAll (Ajson.parse strtod) (Ajson.dumps double) function
    (writtenArguments strtod call)) = .ok () ∧
    Ajson.dumps double (rereadAll (Ajson.parse strtod) (Ajson.dumps double) function
    (writtenArguments strtod call)) = call.arguments := by
  have hsc := @scanCalls_callText (Ajson.parse strtod) _ tools _ _ now hs
  rw [readBlock_callBody hn hcl hf hk hs] at hsc
  rw [RoundTrips, nativeToolCallText_json hn, parseNativeToolCalls,
    thinkless_of_none hs.noThinking, hsc]
  cases hch : checkArguments (Ajson.dumps double) call.name function
      (rereadAll (Ajson.parse strtod) (Ajson.dumps double) function
        (writtenArguments strtod call)) with
  | error e =>
    constructor
    · rintro ⟨hp, -⟩
      cases hp
    · rintro ⟨ho, -⟩
      cases ho
  | ok u =>
    constructor
    · rintro ⟨-, hca⟩
      obtain ⟨hc, -⟩ := cons.inj hca
      exact ⟨rfl, (Prod.mk.inj hc).2⟩
    · rintro ⟨-, ha⟩
      refine ⟨rfl, ?_⟩
      change [(call.name, Ajson.dumps double _)] = _
      rw [ha]

/-- A returned call, written for a later turn and read again, is the call that was executed exactly
when its arguments string is read back at all, and no string among its arguments that is not
declared one has blanks around it or is a JSON text itself. The tags inside the written call have to
be the writer's own. -/
theorem call_round_trip_iff (hlib : Doubles strtod double (FromText strtod)) {text : Bytes}
    {implicitThinking : Bool} {f : Found}
    (hf : f ∈ foundCalls (Ajson.parse strtod) (Ajson.dumps double) now tools text implicitThinking)
    (hno : NoDoubles f.args)
    (hsealed : Sealed (Ajson.dumps double) f.call.name (writtenArguments strtod f.call))
    (later : Nat) : ∃ function members, toolFunctionByName tools f.call.name = some function ∧
      f.args = .obj members ∧ (RoundTrips strtod double later tools f.call ↔
        (Ajson.parse strtod f.call.arguments).isSome ∧
          ∀ m ∈ members, toolParameterIsString function m.1 = false → ∀ s, m.2 = .str s →
            trimText s = s ∧ Ajson.parse strtod s = none) := by
  obtain ⟨-, -, ⟨block, -, hb⟩, harg⟩ := read_of_mem_scanCalls hf
  obtain ⟨function, hfu, hn, hc, hp, hch⟩ := readBlock_facts hb
  have hreg := regular_of_parameters hp
  obtain ⟨members, har, hnd, hmb⟩ := hp
  refine ⟨function, members, hfu, har, ?_⟩
  cases hpa : Ajson.parse strtod f.call.arguments with
  | none =>
    have hw : writtenArguments strtod f.call = [] := by rw [writtenArguments, hpa]
    rw [roundTrips_iff hn hc hfu (by rw [hw]; nofun) hsealed, hw]
    constructor
    · -- Nothing is written, but the arguments were not empty.
      rintro ⟨-, hd⟩
      have hem : Ajson.parse strtod (Ajson.dumps double (.obj [])) = some (.obj []) := by
        refine parse_dumps doubles_none ?_ (by decide)
        rw [Regular]
        exact ⟨nodup_nil, trivial⟩
      rw [← hd] at hpa
      rw [show rereadAll (Ajson.parse strtod) (Ajson.dumps double) function [] = .obj [] from rfl,
        hem] at hpa
      cases hpa
    · rintro ⟨hs, -⟩
      cases hs
  | some w =>
    rw [harg] at hpa
    obtain ⟨rfl, -⟩ := parse_dumps_eq hlib hreg hpa
    have hw : writtenArguments strtod f.call = members := by
      rw [writtenArguments, harg, hpa, har]
    have ha : rereadAll (Ajson.parse strtod) (Ajson.dumps double) function members = f.args ↔
        ∀ m ∈ members, reread (Ajson.parse strtod) (Ajson.dumps double) function m = m.2 := by
      rw [rereadAll_eq hnd, har, obj.injEq]
      constructor
      · intro he m hm
        have hmap := map_inj_left.1 (he.trans (map_id members).symm) m hm
        exact (Prod.mk.inj hmap).2
      · intro he
        refine (map_congr_left fun m hm => ?_).trans (map_id members)
        rw [he m hm]
        rfl
    have hv : (∀ m ∈ members,
        reread (Ajson.parse strtod) (Ajson.dumps double) function m = m.2) ↔
        ∀ m ∈ members, toolParameterIsString function m.1 = false → ∀ s, m.2 = .str s →
          trimText s = s ∧ Ajson.parse strtod s = none := by
      rw [har, NoDoubles] at hno
      exact forall₂_congr fun m hm =>
        reread_eq_iff (hmb m hm) (noDoublesMembers_iff.1 hno m hm)
    rw [roundTrips_iff hn hc hfu
      (by rw [hw]; exact fun m hm => (hmb m hm).1) hsealed, hw, harg,
      ← hv, ← ha]
    constructor
    · rintro ⟨-, hd⟩
      exact ⟨rfl, dumps_injective hlib (regular_rereadAll hnd) hreg hd⟩
    · rintro ⟨-, he⟩
      rw [he]
      exact ⟨hch, rfl⟩

end

section
variable (dumps : Bytes → Bytes)

def checkCatalogFunction (path : Bytes) (names : List Bytes) (function : Ajson) :
    Except Bytes Bytes :=
  match function with
  | .obj _ =>
    match function.field "name" with
    | some (.str name) => do
        refuse (!Codex.canonical name) (catalogError dumps name (path ++ ascii "[\"name\"]")
          (ascii "name must match ^[a-z][a-z0-9]*(?:_[a-z0-9]+)*$"))
        refuse (names.contains name) (catalogError dumps name (path ++ ascii "[\"name\"]")
          (ascii "duplicate tool name"))
        match function.field "parameters" with
        | some (.obj parameters) => do
            refuse (!hasType (.obj parameters) "object") (catalogError dumps name
              (path ++ ascii "[\"parameters\"]")
              (ascii "parameters must be an object schema with type=object"))
            validateSchema dumps name 65 (.obj parameters) (path ++ ascii "[\"parameters\"]")
            pure name
        | _ => .error (catalogError dumps name (path ++ ascii "[\"parameters\"]")
            (ascii "parameters must be an object schema with type=object"))
    | _ => .error (catalogError dumps (ascii "<invalid>") (path ++ ascii "[\"name\"]")
        (ascii "name must be a string"))
  | _ => .error (catalogError dumps (ascii "<invalid>") path
      (ascii "function must be an object"))

def checkCatalogFrom : Nat → List Bytes → List Ajson → Except Bytes Unit
  | _, _, [] => .ok ()
  | index, names, function :: functions => do
      let name ←
        checkCatalogFunction dumps (ascii "$[" ++ decimal index ++ ascii "]") names function
      checkCatalogFrom (index + 1) (names ++ [name]) functions

/-- `validate_native_tool_catalog`; what is no array is refused without a text. -/
def validateNativeToolCatalog : Ajson → Except Bytes Unit
  | .arr functions => checkCatalogFrom dumps 0 [] functions
  | _ => .error []

end

section
variable {strtod : Bytes → Option ℚ} {double : ℚ → Bytes} {now : Nat} {tools function : Ajson}

lemma foundCalls_callText {name : Bytes} {members : List (Bytes × Ajson)} (hn : name ≠ [])
    (hcl : (62 : UInt8) ∉ name) (hf : toolFunctionByName tools name = some function)
    (hk : ∀ m ∈ members, (62 : UInt8) ∉ m.1) (hs : Sealed (Ajson.dumps double) name members)
    (hc : checkArguments (Ajson.dumps double) name function
    (rereadAll (Ajson.parse strtod) (Ajson.dumps double) function members) = .ok ()) :
    scanCalls (Ajson.parse strtod) (Ajson.dumps double) now tools
    (thinkless (callText (Ajson.dumps double) name members) false) 0 0 =
    ([⟨0, (callText (Ajson.dumps double) name members).length,
    rereadAll (Ajson.parse strtod) (Ajson.dumps double) function members,
    callOf (Ajson.dumps double) now name
    (rereadAll (Ajson.parse strtod) (Ajson.dumps double) function members) 0⟩], none) := by
  rw [thinkless_of_none hs.noThinking, scanCalls_callText hs,
    readBlock_callBody hn hcl hf hk hs, hc]
  rfl

end

def anyTool : Ajson :=
  .obj [(ascii "name", .str (ascii "f")), (ascii "parameters", .obj [
    (ascii "type", .str (ascii "object")),
    (ascii "properties", .obj [(ascii "x", .obj [])])])]

def writeAny : Ajson → Bytes := Ajson.dumps fun _ => []

def readAny : Bytes → Option Ajson := Ajson.parse fun _ => none

def anyCall (body : String) : Bytes :=
  ascii "<tool_call>\n<function=f>\n<parameter=x>\n" ++ ascii body ++
    ascii "\n</parameter>\n</function>\n</tool_call>"

/-- The call with a string as its argument, read of what the model wrote. -/
def anyFound (body value : String) : Found :=
  ⟨0, (anyCall body).length, .obj [(ascii "x", .str (ascii value))],
    callOf writeAny 0 (ascii "f") (.obj [(ascii "x", .str (ascii value))]) 0⟩

lemma sealed_any (va : String)
    (h : find thinkOpen (callText writeAny (ascii "f") [(ascii "x", .str (ascii va))]) = none ∧
    find toolClose
    (callBody writeAny (ascii "f") [(ascii "x", .str (ascii va))] ++ toolClose) =
    some (callBody writeAny (ascii "f") [(ascii "x", .str (ascii va))]).length ∧
    find functionClose (10 :: ([(ascii "x", Ajson.str (ascii va))].flatMap
    (renderParameter writeAny) ++ functionClose)) =
    some (([(ascii "x", Ajson.str (ascii va))].flatMap
    (renderParameter writeAny)).length + 1) ∧
    find parameterClose (10 :: (ascii va ++ 10 :: parameterClose)) =
    some ((ascii va).length + 2)) :
    Sealed writeAny (ascii "f") [(ascii "x", .str (ascii va))] := by
  obtain ⟨ht, hc, hf, hcl⟩ := h
  exact ⟨ht, hc, hf, fun m hm => mem_singleton.1 hm ▸ hcl⟩

lemma check_any (va : Bytes) :
    checkArguments writeAny (ascii "f") anyTool (.obj [(ascii "x", .str va)]) = .ok () := by
  have hp : sortNames [ascii "x"] = [ascii "x"] := mergeSort_singleton _
  have hu : sortNames [] = [] := mergeSort_nil
  have ho : checkObject (fun text => writeAny (.str text))
      (validateArgument (fun text => writeAny (.str text)) 64) (.obj [(ascii "x", .str va)])
      (.obj [(ascii "type", .str (ascii "object")),
        (ascii "properties", .obj [(ascii "x", .obj [])])]) (ascii "$") = .ok () := by
    change ((sortNames []).forM _ >>= fun _ => (sortNames [ascii "x"]).forM _) =
      (Except.ok () : Except ArgumentError Unit)
    rw [hp, hu]
    rfl
  have hv : validates writeAny (.obj [(ascii "x", .str va)])
      (.obj [(ascii "type", .str (ascii "object")),
        (ascii "properties", .obj [(ascii "x", .obj [])])]) = .ok () := by
    change (checkObject _ _ _ _ _ >>= fun _ => Except.ok ()) = _
    rw [ho]
    rfl
  rw [checkArguments, show anyTool.field "parameters" =
    some (.obj [(ascii "type", .str (ascii "object")),
      (ascii "properties", .obj [(ascii "x", .obj [])])]) from rfl]
  dsimp only
  rw [hv]

lemma scan_anyCall {b va : String}
    (ht : anyCall b = callText writeAny (ascii "f") [(ascii "x", .str (ascii b))])
    (hsl : Sealed writeAny (ascii "f") [(ascii "x", .str (ascii b))])
    (ha : rereadAll readAny writeAny anyTool [(ascii "x", .str (ascii b))] =
    .obj [(ascii "x", .str (ascii va))]) :
    scanCalls readAny writeAny 0 (.arr [anyTool]) (thinkless (anyCall b) false) 0 0 =
    ([anyFound b va], none) := by
  have hk : ∀ m ∈ [(ascii "x", Ajson.str (ascii b))], (62 : UInt8) ∉ m.1 := by
    intro m hm
    rw [mem_singleton.1 hm]
    change (62 : UInt8) ∉ ascii "x"
    decide
  have hs : scanCalls readAny writeAny 0 (.arr [anyTool])
      (thinkless (callText writeAny (ascii "f") [(ascii "x", .str (ascii b))]) false) 0 0 =
        ([⟨0, (callText writeAny (ascii "f") [(ascii "x", .str (ascii b))]).length,
          rereadAll readAny writeAny anyTool [(ascii "x", .str (ascii b))],
          callOf writeAny 0 (ascii "f")
            (rereadAll readAny writeAny anyTool [(ascii "x", .str (ascii b))]) 0⟩], none) :=
    foundCalls_callText (by decide) (by decide) rfl hk hsl (ha.symm ▸ check_any _)
  rw [ht, hs, ha, anyFound, ht]

/-- A word comes back. -/
theorem call_round_trip_iff_word :
    anyFound "a" "a" ∈ foundCalls readAny writeAny 0 (.arr [anyTool]) (anyCall "a") false ∧
      RoundTrips (fun _ => none) (fun _ => []) 0 (.arr [anyTool]) (anyFound "a" "a").call := by
  have hsl : Sealed writeAny (ascii "f") [(ascii "x", .str (ascii "a"))] :=
    sealed_any "a" (by decide +kernel)
  have hme : anyFound "a" "a" ∈
      foundCalls readAny writeAny 0 (.arr [anyTool]) (anyCall "a") false := by
    have hsc : scanCalls readAny writeAny 0 (.arr [anyTool]) (thinkless (anyCall "a") false) 0 0 =
        ([anyFound "a" "a"], none) := scan_anyCall (by decide +kernel) hsl rfl
    rw [foundCalls, hsc]
    exact mem_singleton_self _
  have hl : Doubles (fun _ => none) (fun _ => []) (FromText fun _ => none) := by
    constructor
    · rintro d ⟨_, hd⟩
      cases hd
    · rintro d ⟨_, hd⟩
      cases hd
  obtain ⟨function, members, hf, ha, hi⟩ :=
    call_round_trip_iff hl hme ⟨trivial, trivial⟩ hsl 0
  refine ⟨hme, hi.2 ⟨rfl, ?_⟩⟩
  obtain rfl : [(ascii "x", Ajson.str (ascii "a"))] = members := obj.inj ha
  intro m hm _ s hs
  rw [mem_singleton.1 hm] at hs
  cases hs
  exact ⟨by decide, rfl⟩

/-- The model calls the tool with the string `"1"`, and in a later turn the call has the number. -/
theorem quoted_number_changes :
    validateNativeToolCatalog (fun s => writeAny (.str s)) (.arr [anyTool]) = .ok () ∧
      (parseNativeToolCalls readAny writeAny 0 (anyCall "\"1\"") (.arr [anyTool]) false).status =
        .pass ∧ anyFound "\"1\"" "1" ∈
        foundCalls readAny writeAny 0 (.arr [anyTool]) (anyCall "\"1\"") false ∧
      NoDoubles (anyFound "\"1\"" "1").args ∧
      ¬ RoundTrips (fun _ => none) (fun _ => []) 0 (.arr [anyTool])
        (anyFound "\"1\"" "1").call := by
  have hs : scanCalls readAny writeAny 0 (.arr [anyTool]) (thinkless (anyCall "\"1\"") false)
      0 0 = ([anyFound "\"1\"" "1"], none) :=
    scan_anyCall (by decide +kernel) (sealed_any _ (by decide +kernel)) rfl
  refine ⟨rfl, ?_, ?_, ⟨trivial, trivial⟩, ?_⟩
  · rw [parseNativeToolCalls, hs]
    rfl
  · rw [foundCalls, hs]
    exact mem_singleton_self _
  · have hk : ∀ m ∈ writtenArguments (fun _ => none) (anyFound "\"1\"" "1").call,
        (62 : UInt8) ∉ m.1 := by
      intro m hm
      rw [show writtenArguments (fun _ => none) (anyFound "\"1\"" "1").call =
        [(ascii "x", .str (ascii "1"))] from rfl] at hm
      rw [mem_singleton.1 hm]
      change (62 : UInt8) ∉ ascii "x"
      decide
    intro hr
    obtain ⟨-, hd⟩ := (roundTrips_iff (by decide) (by decide)
      (show toolFunctionByName _ _ = some anyTool from rfl) hk
        (sealed_any "1" (by decide +kernel))).1 hr
    revert hd
    decide +kernel

end AxiomKernel.Qwen38.Tools
