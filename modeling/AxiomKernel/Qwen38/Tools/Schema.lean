import Mathlib.Data.Rat.Cast.Defs
import Mathlib.Data.List.Perm.Subperm
import AxiomKernel.Json
import AxiomKernel.Lib.Guard

/-!
# Tool schemas and tool arguments

The two recursive checks of `tools/axiom_qwen38_api.cpp`: `validate_native_tool_schema_definition`
on the schema of a tool and `validate_native_tool_argument` on a call. Both stop below 64 levels, so
the levels still allowed carry the recursion. The JSON writer that paths quote names with is a
parameter.
-/
namespace AxiomKernel.Qwen38.Tools

open Ajson Guard Image Text

mutual
/-- `native_tool_json_equal`: members of the left are looked up in the right by C string. -/
def jsonEqual : Ajson → Ajson → Bool
  | .int i, .int j => i == j
  | .int i, .num d => (i : ℚ) == d
  | .num d, .int i => d == (i : ℚ)
  | .num d, .num e => d == e
  | .null, .null => true
  | .bool a, .bool b => a == b
  | .str s, .str t => s == t
  | .arr xs, .arr ys => xs.length == ys.length && jsonEqualItems xs ys
  | .obj ms, .obj ns => ms.length == ns.length && jsonEqualMembers ms ns
  | _, _ => false

def jsonEqualItems : List Ajson → List Ajson → Bool
  | [], _ => true
  | _ :: _, [] => false
  | x :: xs, y :: ys => jsonEqual x y && jsonEqualItems xs ys

def jsonEqualMembers : List (Bytes × Ajson) → List (Bytes × Ajson) → Bool
  | [], _ => true
  | (key, x) :: ms, ns =>
    (match (Ajson.obj ns).get key with
      | none => false
      | some y => jsonEqual x y) && jsonEqualMembers ms ns
end

def supportedTypes : List Bytes :=
  ["object", "array", "string", "integer", "number", "boolean", "null"].map ascii

def typeSupported (type : Bytes) : Bool := supportedTypes.contains type

def typeMatches (value : Ajson) (type : Bytes) : Bool :=
  match value with
  | .obj _ => type == ascii "object"
  | .arr _ => type == ascii "array"
  | .str _ => type == ascii "string"
  | .int _ => type == ascii "integer" || type == ascii "number"
  | .num d => (type == ascii "integer" && d.den == 1) || type == ascii "number"
  | .bool _ => type == ascii "boolean"
  | .null => type == ascii "null"

def kindName : Ajson → String
  | .null => "null"
  | .bool _ => "boolean"
  | .int _ => "integer"
  | .num _ => "number"
  | .str _ => "string"
  | .arr _ => "array"
  | .obj _ => "object"

def isObject : Ajson → Bool
  | .obj _ => true
  | _ => false

def keys : Ajson → List Bytes
  | .obj members => members.map Prod.fst
  | _ => []

def sortNames (names : List Bytes) : List Bytes := names.mergeSort fun a b => !(b.lex a (· < ·))

def uniqueNames : List Bytes → List Bytes
  | a :: b :: names => if a = b then uniqueNames (b :: names) else a :: uniqueNames (b :: names)
  | names => names

inductive ArgumentErrorCode
  | required | type | enumValue | constValue | additionalProperty | schema
  deriving DecidableEq, Repr

structure ArgumentError where
  code : ArgumentErrorCode
  path : Bytes
  detail : Bytes

section
variable (dumps : Bytes → Bytes)

def objectPath (parent property : Bytes) : Bytes :=
  parent ++ ascii "[" ++ dumps property ++ ascii "]"

def arrayPath (parent : Bytes) (index : Nat) : Bytes :=
  parent ++ ascii "[" ++ decimal index ++ ascii "]"

def schemaError (path : Bytes) (detail : String) : Except ArgumentError Unit :=
  .error ⟨.schema, path, ascii detail⟩

def checkType (value schema : Ajson) (path : Bytes) : Except ArgumentError Unit :=
  match schema.field "type" with
  | none => .ok ()
  | some (.str type) =>
    if typeSupported type then
      refuse (!typeMatches value type)
        ⟨.type, path, ascii "expected " ++ type ++ ascii ", got " ++ ascii (kindName value)⟩
    else
      schemaError path
        "type must be one of object, array, string, integer, number, boolean or null"
  | some _ =>
    schemaError path "type must be one of object, array, string, integer, number, boolean or null"

def checkEnum (value schema : Ajson) (path : Bytes) : Except ArgumentError Unit :=
  match schema.field "enum" with
  | none => .ok ()
  | some (.arr candidates) =>
    refuse (!candidates.any (jsonEqual value ·))
      ⟨.enumValue, path, ascii "value is not a declared enum member"⟩
  | some _ => schemaError path "enum must be an array"

def checkConst (value schema : Ajson) (path : Bytes) : Except ArgumentError Unit :=
  match schema.field "const" with
  | none => .ok ()
  | some constant =>
    refuse (!jsonEqual value constant)
      ⟨.constValue, path, ascii "value does not equal the declared const"⟩

def requiredNames (path : Bytes) : List Ajson → Except ArgumentError (List Bytes)
  | [] => .ok []
  | .str name :: entries => (requiredNames path entries).map (name :: ·)
  | _ :: _ => .error ⟨.schema, path, ascii "required must be an array of strings"⟩

def checkRequired (value schema : Ajson) (path : Bytes) : Except ArgumentError Unit :=
  match schema.field "required" with
  | none => .ok ()
  | some (.arr entries) => do
      let names ← requiredNames path entries
      (uniqueNames (sortNames names)).forM fun name =>
        refuse (value.get name).isNone
          ⟨.required, objectPath dumps path name, ascii "missing required property"⟩
  | some _ => schemaError path "required must be an array of strings"

def isUnknown (properties : Option Ajson) (key : Bytes) : Bool :=
  match properties with
  | none => true
  | some properties => (properties.get key).isNone

variable (child : Ajson → Ajson → Bytes → Except ArgumentError Unit) (additional : Option Ajson)

def checkUnknown (value : Ajson) (path name : Bytes) : Except ArgumentError Unit :=
  match additional with
  | some (.bool false) =>
    .error ⟨.additionalProperty, objectPath dumps path name, ascii "property is not declared"⟩
  | some (.obj members) =>
    match value.get name with
    | none =>
      schemaError (objectPath dumps path name)
        "argument object lookup failed during validation"
    | some x => child x (.obj members) (objectPath dumps path name)
  | _ => .ok ()

def checkProperty (properties value : Ajson) (path name : Bytes) : Except ArgumentError Unit :=
  match value.get name with
  | none => .ok ()
  | some x =>
    match properties.get name with
    | none =>
      schemaError (objectPath dumps path name)
        "property schema lookup failed during validation"
    | some schema => child x schema (objectPath dumps path name)

def additionalShape : Bool :=
  match additional with
  | none | some (.bool _) | some (.obj _) => true
  | some _ => false

def optionalObject (value : Option Ajson) : Bool := (value.map isObject).getD true

def checkObject (value schema : Ajson) (path : Bytes) : Except ArgumentError Unit :=
  if isObject value then do
    let properties := schema.field "properties"
    refuse (!optionalObject properties) ⟨.schema, path, ascii "properties must be an object"⟩
    checkRequired dumps value schema path
    let additional := schema.field "additionalProperties"
    refuse (!additionalShape additional)
      ⟨.schema, path, ascii "additionalProperties must be a boolean or object schema"⟩
    (sortNames ((keys value).filter (isUnknown properties))).forM
      (checkUnknown dumps child additional value path)
    match properties with
    | none => .ok ()
    | some properties =>
      (sortNames (keys properties)).forM (checkProperty dumps child properties value path)
  else .ok ()

def checkArray (value schema : Ajson) (path : Bytes) : Except ArgumentError Unit :=
  match value with
  | .arr items => do
      refuse (!optionalObject (schema.field "items"))
        ⟨.schema, path, ascii "items must be an object schema"⟩
      match schema.field "items" with
      | none => .ok ()
      | some itemSchema =>
        items.zipIdx.forM fun item => child item.1 itemSchema (arrayPath path item.2)
  | _ => .ok ()

/-- `validate_native_tool_argument` with that many levels left. -/
def validateArgument : Nat → Ajson → Ajson → Bytes → Except ArgumentError Unit
  | 0, _, schema, path => do
      refuse (!isObject schema) ⟨.schema, path, ascii "schema node must be an object"⟩
      schemaError path "schema nesting exceeds the supported depth"
  | levels + 1, value, schema, path => do
      refuse (!isObject schema) ⟨.schema, path, ascii "schema node must be an object"⟩
      checkType value schema path
      checkEnum value schema path
      checkConst value schema path
      checkObject dumps (validateArgument levels) value schema path
      checkArray (validateArgument levels) value schema path

def unsupportedKeywords : List String := ["$ref", "allOf", "anyOf", "not", "oneOf"]

def catalogError (tool path detail : Bytes) : Bytes :=
  ascii "tool catalog validation failed: tool=" ++ dumps tool ++ ascii " path=" ++ path ++
    ascii " detail=" ++ detail

variable (schema : Ajson)

def hasType (type : String) : Bool :=
  match schema.field "type" with
  | some (.str s) => s == ascii type
  | _ => false

variable (fail : String → Bytes)

def defineType : Except Bytes Unit :=
  match schema.field "type" with
  | none => .ok ()
  | some (.str type) =>
    refuse (!typeSupported type) (fail "type must be one supported JSON type string")
  | some _ => .error (fail "type must be one supported JSON type string")

def fitsType (value : Ajson) : Bool :=
  match schema.field "type" with
  | some (.str type) => typeMatches value type
  | _ => true

def defineEnum : Except Bytes Unit :=
  match schema.field "enum" with
  | none => .ok ()
  | some (.arr candidates) => do
      refuse candidates.isEmpty (fail "enum must be a non-empty array")
      candidates.forM fun candidate =>
        refuse (!fitsType schema candidate) (fail "enum member does not match the declared type")
  | some _ => .error (fail "enum must be a non-empty array")

def defineConst : Except Bytes Unit :=
  match schema.field "const" with
  | none => .ok ()
  | some constant =>
    refuse (!fitsType schema constant) (fail "const does not match the declared type")

/-- The loop over a `required` list with the names seen so far. -/
def defineRequiredNames (properties : Option Ajson) (fail : String → Bytes) :
    List Bytes → List Ajson → Except Bytes Unit
  | _, [] => .ok ()
  | seen, .str name :: entries => do
      refuse (name.isEmpty || isUnknown properties name)
        (fail "required must name declared properties")
      refuse (seen.contains name) (fail "required must not contain duplicates")
      defineRequiredNames properties fail (seen ++ [name]) entries
  | _, _ :: _ => .error (fail "required must name declared properties")

def defineRequired : Except Bytes Unit :=
  match schema.field "required" with
  | none => .ok ()
  | some (.arr entries) => defineRequiredNames (schema.field "properties") fail [] entries
  | some _ => .error (fail "required must be an array of unique strings")

def defineProperties (child : Ajson → Bytes → Except Bytes Unit) (schema : Ajson) (path : Bytes) :
    Except Bytes Unit :=
  match schema.field "properties" with
  | some (.obj members) =>
    members.forM fun member => child member.2 (objectPath dumps path member.1)
  | _ => .ok ()

def defineChild (child : Ajson → Bytes → Except Bytes Unit) (schema : Option Ajson) (path : Bytes) :
    Except Bytes Unit :=
  match schema with
  | some (.obj members) => child (.obj members) path
  | _ => .ok ()

def isOpen : Bool :=
  (match schema.field "properties" with
    | none => true
    | some properties => (keys properties).isEmpty) &&
  match schema.field "additionalProperties" with
    | none | some (.bool true) => true
    | _ => false

/-- `validate_native_tool_schema_definition` with that many levels left. -/
def validateSchema (tool : Bytes) : Nat → Ajson → Bytes → Except Bytes Unit
  | 0, schema, path => do
      refuse (!isObject schema)
        (catalogError dumps tool path (ascii "schema node must be an object"))
      .error (catalogError dumps tool path (ascii "schema nesting exceeds the supported depth"))
  | levels + 1, schema, path => do
      let fail := fun detail => catalogError dumps tool path (ascii detail)
      refuse (!isObject schema) (fail "schema node must be an object")
      unsupportedKeywords.forM fun keyword =>
        refuse (schema.field keyword).isSome
          (catalogError dumps tool path (ascii "unsupported schema keyword " ++ ascii keyword))
      defineType schema fail
      defineEnum schema fail
      defineConst schema fail
      refuse (!optionalObject (schema.field "properties")) (fail "properties must be an object")
      refuse ((schema.field "properties").isSome && (schema.field "type").isSome &&
        !hasType schema "object") (fail "properties require type=object")
      defineRequired schema fail
      defineProperties dumps (validateSchema tool levels) schema path
      refuse (!additionalShape (schema.field "additionalProperties"))
        (fail "additionalProperties must be a boolean or object schema")
      defineChild (validateSchema tool levels) (schema.field "additionalProperties")
        (path ++ ascii "[*]")
      refuse (hasType schema "object" && isOpen schema)
        (fail "unbounded object schemas must be encoded before transport")
      refuse (!optionalObject (schema.field "items")) (fail "items must be an object schema")
      refuse ((schema.field "items").isSome && (schema.field "type").isSome &&
        !hasType schema "array") (fail "items require type=array")
      refuse (hasType schema "array" && (schema.field "items").isNone)
        (fail "array schemas require items")
      defineChild (validateSchema tool levels) (schema.field "items") (path ++ ascii "[]")
end

end AxiomKernel.Qwen38.Tools
