import Mathlib.Data.Rat.Defs
import SurfaceLoom.Lib.Checked
import SurfaceLoom.Lib.JsonParse

/-! # The release tools' JSON parser

`parseStrictJson` over a list of code units; the source's `offset` is what is left of the text.
How a number token becomes a number, and which numbers are finite, are parameters. -/
namespace SurfaceLoom.Scripts.StrictJson
open SurfaceLoom.Lib SurfaceLoom.Lib.JsonText

abbrev Text := List Nat

structure StrictJsonError where
  code : String
  message : Text
  deriving DecidableEq

abbrev Parse (α : Type) := Except StrictJsonError α

def fail {α : Type} (code : String) (message : String) : Parse α :=
  .error ⟨code, codes message⟩

def skip (s : Text) : Text := s.dropWhile isWhite

/-! ## Strings -/

/-- After a backslash. -/
def escape : Text → Parse Text
  | [] => fail "invalidString" "Truncated JSON escape."
  | c :: rest =>
    if c = code 'u' then
      match readUnit rest with
      | some (_, rest) => .ok rest
      | none => fail "invalidString" "Invalid Unicode escape."
    else if c ∈ codes "\"\\/bfnrt" then .ok rest
    else fail "invalidString" "Invalid JSON escape."

/-- The loop over a string: what is left after its closing mark. -/
def stringEnd : Nat → Text → Parse Text
  | 0, _ | _, [] => fail "invalidString" "Unterminated JSON string."
  | fuel + 1, c :: rest =>
    if c = code '"' then .ok rest
    else if c < 0x20 then fail "invalidString" "JSON strings cannot contain control bytes."
    else if c = code '\\' then do
      let rest ← escape rest
      stringEnd fuel rest
    else stringEnd fuel rest

/-- `JSON.parse` of a string's token. -/
def decoded (token : Text) : Parse Text :=
  match JsonText.parse (fun _ => ()) token with
  | some (.string value) => .ok value
  | _ => fail "invalidString" "Invalid JSON string escape."

def parseString (s : Text) : Parse (Text × Text) :=
  match expect '"' s with
  | none => fail "invalidString" "Expected a JSON string."
  | some rest => do
    let left ← stringEnd rest.length rest
    let value ← decoded (s.take (s.length - left.length))
    return (value, left)

/-! ## Values -/

section Parser

variable {ν : Type} (number : NumberText → ν) (isFinite : ν → Bool)
variable (maxDepth : Option ℚ)

/-- A `maxDepth` that is infinite or no number is `none`. -/
def exceeds (depth : Nat) : Bool :=
  match maxDepth with
  | none => false
  | some limit => limit < depth

def literals : List (String × JsValue ν) :=
  [("true", .bool true), ("false", .bool false), ("null", .null)]

/-- `size` is the length of the whole text. -/
def parseLiteral (size : Nat) (s : Text) : Parse (JsValue ν × Text) :=
  match literals.find? fun literal => codes literal.1 <+: s with
  | some literal => .ok (literal.2, s.drop (codes literal.1).length)
  | none =>
    match readNumber s with
    | none => fail "invalidToken" ("Unexpected JSON token at byte " ++ toString (size - s.length) ++ ".")
    | some (token, rest) =>
      if isFinite (number token) then .ok (.number (number token), rest)
      else fail "invalidNumber" "JSON number must be finite."

/-- A container is opened: it is empty, or its loop begins. -/
def opened {α : Type} (close : Char) (empty : α) (loop : Text → Parse (α × Text)) (s : Text) :
    Parse (α × Text) :=
  match expect close (skip s) with
  | some rest => .ok (empty, rest)
  | none => loop (skip s)

/-- After an item: whether it was the last, and the rest. -/
def separator (close : Char) (code message : String) (s : Text) : Parse (Bool × Text) :=
  match expect close (skip s) with
  | some rest => .ok (true, rest)
  | none =>
    match expect ',' (skip s) with
    | some rest => .ok (false, rest)
    | none => fail code message

def colon (s : Text) : Parse Text :=
  match expect ':' (skip s) with
  | some rest => .ok rest
  | none => fail "invalidObject" "Expected ':' after a JSON key."

abbrev Properties (ν : Type) := List (Text × JsValue ν)

local instance lawful_codes : LawfulBEq (List Nat) := inferInstance

mutual

def parseValue (size : Nat) : Nat → Nat → Text → Parse (JsValue ν × Text)
  | 0, _, _ => fail "outOfFuel" ""
  | fuel + 1, depth, s =>
    if exceeds maxDepth depth then fail "tooDeep" "JSON exceeds the maximum nesting depth."
    else
      match skip s with
      | [] => parseLiteral number isFinite size []
      | c :: rest =>
        if c = code '"' then
          (parseString (c :: rest)).map fun read => (.string read.1, read.2)
        else if c = code '{' then
          (opened '}' [] (parseMembers size fuel (depth + 1) []) rest).map
            fun read => (.object read.1, read.2)
        else if c = code '[' then
          (opened ']' [] (parseItems size fuel (depth + 1)) rest).map
            fun read => (.array read.1, read.2)
        else parseLiteral number isFinite size (c :: rest)

/-- The loop of `parseObject`; the keys of `output` are the source's `seen`. -/
def parseMembers (size : Nat) : Nat → Nat → Properties ν → Text → Parse (Properties ν × Text)
  | 0, _, _, _ => fail "outOfFuel" ""
  | fuel + 1, depth, output, s => do
    let (key, rest) ← parseString (skip s)
    if key ∈ output.map Prod.fst then .error ⟨"duplicateKey", codes "Duplicate JSON key: " ++ key⟩
    else do
      let rest ← colon rest
      let (value, rest) ← parseValue size fuel depth rest
      let (last, rest) ← separator '}' "invalidObject" "Expected ',' or '\x7d' in a JSON object." rest
      if last then .ok (OrderedMap.upsert key value output, rest)
      else parseMembers size fuel depth (OrderedMap.upsert key value output) rest

/-- The loop of `parseArray`. -/
def parseItems (size : Nat) : Nat → Nat → Text → Parse (List (JsValue ν) × Text)
  | 0, _, _ => fail "outOfFuel" ""
  | fuel + 1, depth, s => do
    let (value, rest) ← parseValue size fuel depth s
    let (last, rest) ← separator ']' "invalidArray" "Expected ',' or ']' in a JSON array." rest
    if last then .ok ([value], rest)
    else do
      let (values, rest) ← parseItems size fuel depth rest
      return (value :: values, rest)

end

/-- The source's callers leave `maxDepth` at its default, which is 128. -/
def parseStrictJson (text : Text) (maxDepth : Option ℚ) : Parse (JsValue ν) := do
  let (value, rest) ← parseValue number isFinite maxDepth text.length (2 * text.length + 1) 0 text
  if skip rest = [] then .ok value else fail "trailingData" "Strict JSON has trailing data."

end Parser

end SurfaceLoom.Scripts.StrictJson
