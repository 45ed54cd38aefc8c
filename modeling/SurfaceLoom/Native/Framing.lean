import SurfaceLoom.Lib.JsonParse

/-! # The client's scanner of a wire frame

`rejectDuplicateObjectKeys` reads the text of a frame before `JSON.parse` does. A text is the
list of its code units, and the source's `offset` is what is left of it. -/
namespace SurfaceLoom.Native.Framing
open SurfaceLoom.Lib SurfaceLoom.Lib.JsonText

structure NativeProtocolError where
  code : String
  message : String
  deriving DecidableEq

abbrev Scan (α : Type) := Except NativeProtocolError α

abbrev CodeUnit := Nat

def invalidJson {α : Type} (message : String := "Wire frame is not valid JSON.") : Scan α :=
  .error ⟨"invalid_json", message⟩

def whitespace (source : List CodeUnit) : List CodeUnit :=
  source.dropWhile fun c => c = 0x09 ∨ c = 0x20

/-- The number of four hexadecimal digits, and the rest. -/
def hexDigits : List CodeUnit → Option (Nat × List CodeUnit)
  | a :: b :: c :: d :: rest => do
    let a ← hexValue? a
    let b ← hexValue? b
    let c ← hexValue? c
    let d ← hexValue? d
    return (quadValue a b c d, rest)
  | _ => none

/-- After `\u`; a high surrogate must be followed by the escape of a low one. -/
def unicodeEscape (source : List CodeUnit) : Scan (List CodeUnit) :=
  match hexDigits source with
  | none => invalidJson
  | some (first, rest) =>
    if isHigh first then
      match rest with
      | backslash :: u :: digits =>
        if backslash ≠ code '\\' ∨ u ≠ code 'u' then invalidJson
        else
          match hexDigits digits with
          | none => invalidJson
          | some (second, rest) => if isLow second then .ok rest else invalidJson
      | _ => invalidJson
    else if isLow first then invalidJson
    else .ok rest

/-- After a backslash. -/
def escape : List CodeUnit → Scan (List CodeUnit)
  | [] => invalidJson
  | c :: rest =>
    if c = code 'u' then unicodeEscape rest
    else if c ∈ codes "\"\\/bfnrt" then .ok rest
    else invalidJson

/-- A character of a string that is neither its end nor a backslash. -/
def plainCharacter (character : CodeUnit) (rest : List CodeUnit) : Scan (List CodeUnit) :=
  if character < 0x20 then invalidJson
  else if isHigh character then
    match rest with
    | [] => invalidJson
    | second :: rest => if isLow second then .ok rest else invalidJson
  else if isLow character then invalidJson
  else .ok rest

def stringStep (character : CodeUnit) (rest : List CodeUnit) : Scan (List CodeUnit) :=
  if character = code '\\' then escape rest else plainCharacter character rest

/-- The loop over a string's characters: what is left after its closing mark. -/
def stringCharacters : Nat → List CodeUnit → Scan (List CodeUnit)
  | 0, _ => invalidJson
  | _, [] => invalidJson
  | fuel + 1, character :: rest =>
    if character = code '"' then .ok rest
    else do
      let rest ← stringStep character rest
      stringCharacters fuel rest

/-- The string `JSON.parse` makes of a token. -/
def parseToken (token : List CodeUnit) : Scan (List CodeUnit) :=
  match JsonText.parse (fun _ => ()) token with
  | some (.string key) => .ok key
  | _ => invalidJson

def stringToken (source : List CodeUnit) : Scan (List CodeUnit × List CodeUnit) :=
  match source with
  | [] => invalidJson
  | quote :: characters =>
    if quote ≠ code '"' then invalidJson
    else do
      let rest ← stringCharacters characters.length characters
      let key ← parseToken (source.take (source.length - rest.length))
      return (key, rest)

def isDigit (c : CodeUnit) : Bool := code '0' ≤ c && c ≤ code '9'

/-- `[0-9]+` -/
def digits : List CodeUnit → Option (List CodeUnit)
  | [] => none
  | c :: rest => if isDigit c then some (rest.dropWhile isDigit) else none

/-- `0|[1-9][0-9]*` -/
def integerPart : List CodeUnit → Option (List CodeUnit)
  | [] => none
  | c :: rest =>
    if c = code '0' then some rest
    else if code '1' ≤ c ∧ c ≤ code '9' then some (rest.dropWhile isDigit)
    else none

/-- `(?:\.[0-9]+)?` -/
def fractionPart : List CodeUnit → List CodeUnit
  | [] => []
  | c :: rest => if c = code '.' then (digits rest).getD (c :: rest) else c :: rest

/-- `[+-]?` -/
def signPart : List CodeUnit → List CodeUnit
  | [] => []
  | c :: rest => if c = code '+' ∨ c = code '-' then rest else c :: rest

/-- `(?:[eE][+-]?[0-9]+)?` -/
def exponentPart : List CodeUnit → List CodeUnit
  | [] => []
  | c :: rest =>
    if c = code 'e' ∨ c = code 'E' then (digits (signPart rest)).getD (c :: rest) else c :: rest

def numberPattern (source : List CodeUnit) : Option (List CodeUnit) :=
  let unsigned := match source with
    | [] => []
    | c :: rest => if c = code '-' then rest else c :: rest
  (integerPart unsigned).map fun rest => exponentPart (fractionPart rest)

/-- What is left after a match of `literalPattern`. -/
def literalPattern (source : List CodeUnit) : Option (List CodeUnit) :=
  if codes "true" <+: source then some (source.drop 4)
  else if codes "false" <+: source then some (source.drop 5)
  else if codes "null" <+: source then some (source.drop 4)
  else numberPattern source

/-- A container is opened: it is empty, or its loop begins. -/
def opened (close : Char) (rest : List CodeUnit)
    (loop : List CodeUnit → Scan (List CodeUnit)) : Scan (List CodeUnit) :=
  match whitespace rest with
  | [] => invalidJson
  | c :: rest => if c = code close then .ok rest else loop (c :: rest)

/-- After an item: whether it was the last, and the rest. -/
def separator (close : Char) (rest : List CodeUnit) : Scan (Bool × List CodeUnit) :=
  match whitespace rest with
  | [] => invalidJson
  | c :: rest =>
    if c = code close then .ok (true, rest)
    else if c ≠ code ',' then invalidJson
    else .ok (false, rest)

def colon (rest : List CodeUnit) : Scan (List CodeUnit) :=
  match whitespace rest with
  | [] => invalidJson
  | c :: rest => if c ≠ code ':' then invalidJson else .ok rest

mutual

def value : Nat → Nat → List CodeUnit → Scan (List CodeUnit)
  | 0, _, _ => invalidJson
  | fuel + 1, depth, source =>
    match whitespace source with
    | [] => invalidJson
    | character :: rest =>
      if character = code '{' then
        if depth ≥ 64 then invalidJson "Wire frame exceeds the JSON nesting limit."
        else opened '}' rest (object fuel (depth + 1) [])
      else if character = code '[' then
        if depth ≥ 64 then invalidJson "Wire frame exceeds the JSON nesting limit."
        else opened ']' rest (array fuel (depth + 1))
      else if character = code '"' then (stringToken (character :: rest)).map Prod.snd
      else
        match literalPattern (character :: rest) with
        | none => invalidJson
        | some rest => .ok rest

/-- The loop over the members. -/
def object : Nat → Nat → List (List CodeUnit) → List CodeUnit → Scan (List CodeUnit)
  | 0, _, _, _ => invalidJson
  | fuel + 1, depth, keys, source => do
    let (key, rest) ← stringToken source
    if key ∈ keys then invalidJson "Wire frame contains a duplicate object key."
    else do
      let rest ← colon rest
      let rest ← value fuel depth rest
      let (last, rest) ← separator '}' rest
      if last then .ok rest else object fuel depth (keys ++ [key]) (whitespace rest)

/-- The loop over the items. -/
def array : Nat → Nat → List CodeUnit → Scan (List CodeUnit)
  | 0, _, _ => invalidJson
  | fuel + 1, depth, source => do
    let rest ← value fuel depth source
    let (last, rest) ← separator ']' rest
    if last then .ok rest else array fuel depth rest

end

def rejectDuplicateObjectKeys (source : List CodeUnit) : Scan Unit := do
  let rest ← value (2 * source.length + 1) 0 source
  if whitespace rest ≠ [] then invalidJson else .ok ()

end SurfaceLoom.Native.Framing
