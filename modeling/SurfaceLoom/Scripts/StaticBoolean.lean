import Mathlib.Tactic.Common
import SurfaceLoom.Core.CaseSpec
import SurfaceLoom.Lib.Checked

/-! # Constant boolean expressions

The conditions of conditional compilation, evaluated without knowing what their identifiers
stand for. A text is a list of characters; a value is `none` where the source has
`undefined`. The recursions run on fuel, of which there is enough. -/
namespace SurfaceLoom.Scripts.StaticBoolean
open SurfaceLoom.Core (isSpace)

inductive Failure
  | error (message : String)
  | outOfFuel
  deriving DecidableEq

abbrev Evaluated (α : Type) := Except Failure α

inductive Token
  | and
  | or
  | eq
  | ne
  | not
  | opening
  | closing
  | literal (value : Bool)
  | identifier (value : List Char)
  deriving DecidableEq

def quoted (text : String) : String := "\"" ++ text ++ "\""

/-- `JSON.stringify(token)` -/
def Token.json : Token → String
  | .and => quoted "&&"
  | .or => quoted "||"
  | .eq => quoted "=="
  | .ne => quoted "!="
  | .not => quoted "!"
  | .opening => quoted "("
  | .closing => quoted ")"
  | .literal true => quoted "true"
  | .literal false => quoted "false"
  | .identifier value => "\x7b" ++ quoted "type" ++ ":" ++ quoted "identifier" ++ "," ++
      quoted "value" ++ ":" ++ quoted (String.ofList value) ++ "\x7d"

def unexpected {α : Type} (token : Option Token) : Evaluated α :=
  .error (.error ("unexpected token " ++ (token.map Token.json).getD (quoted "<end>")))

/-! ## Tokens -/

def isIdentifierStart (c : Char) : Bool :=
  ('A' ≤ c && c ≤ 'Z') || ('a' ≤ c && c ≤ 'z') || c = '_'

def isIdentifierPart (c : Char) : Bool := isIdentifierStart c || ('0' ≤ c && c ≤ '9')

/-- The operators of two characters. -/
def operator : List Char → Option (Token × List Char)
  | '&' :: '&' :: rest => some (.and, rest)
  | '|' :: '|' :: rest => some (.or, rest)
  | '=' :: '=' :: rest => some (.eq, rest)
  | '!' :: '=' :: rest => some (.ne, rest)
  | _ => none

def symbol (c : Char) : Option Token :=
  if c = '!' then some .not
  else if c = '(' then some .opening
  else if c = ')' then some .closing
  else none

def wordToken (word : List Char) : Token :=
  if word = ['t', 'r', 'u', 'e'] then .literal true
  else if word = ['f', 'a', 'l', 's', 'e'] then .literal false
  else .identifier word

def tokenizeFrom : Nat → Nat → List Char → Evaluated (List Token)
  | 0, _, _ => .error .outOfFuel
  | _ + 1, _, [] => .ok []
  | fuel + 1, cursor, c :: rest =>
    if isSpace c then tokenizeFrom fuel (cursor + 1) rest
    else
      match operator (c :: rest) with
      | some (token, rest) => (tokenizeFrom fuel (cursor + 2) rest).map (token :: ·)
      | none =>
        match symbol c with
        | some token => (tokenizeFrom fuel (cursor + 1) rest).map (token :: ·)
        | none =>
          if isIdentifierStart c then
            let word := c :: rest.takeWhile isIdentifierPart
            (tokenizeFrom fuel (cursor + word.length) (rest.dropWhile isIdentifierPart)).map
              (wordToken word :: ·)
          else .error (.error ("unsupported token at column " ++ toString (cursor + 1)))

def tokenize (expression : List Char) : Evaluated (List Token) :=
  tokenizeFrom (expression.length + 1) 0 expression

/-! ## Three truth values -/

abbrev Value := Option Bool

def triNot (value : Value) : Value := value.map Bool.not

def triAnd (left right : Value) : Value :=
  if left = some false ∨ right = some false then some false
  else if left = none ∨ right = none then none
  else some true

def triOr (left right : Value) : Value :=
  if left = some true ∨ right = some true then some true
  else if left = none ∨ right = none then none
  else some false

/-- One round of the loop of `parseEquality`; `same` for `==`. -/
def triEqual (same : Bool) (left right : Value) : Value :=
  match left, right with
  | some left, some right => some (if same then left == right else left != right)
  | _, _ => none

/-! ## The parser -/

abbrev Parsed := Evaluated (Value × List Token)

mutual

def parsePrimary : Nat → List Token → Parsed
  | 0, _ => .error .outOfFuel
  | fuel + 1, tokens =>
    match tokens with
    | .literal value :: rest => .ok (some value, rest)
    | .opening :: rest => do
      let (value, rest) ← parseOr fuel rest
      match rest with
      | .closing :: rest => .ok (value, rest)
      | _ => .error (.error "missing closing parenthesis")
    | .identifier _ :: rest => .ok (none, rest)
    | tokens => unexpected tokens.head?

def parseUnary : Nat → List Token → Parsed
  | 0, _ => .error .outOfFuel
  | fuel + 1, tokens =>
    match tokens with
    | .not :: rest => do
      let (value, rest) ← parseUnary fuel rest
      .ok (triNot value, rest)
    | tokens => parsePrimary fuel tokens

def parseEquality : Nat → List Token → Parsed
  | 0, _ => .error .outOfFuel
  | fuel + 1, tokens => do
    let (value, rest) ← parseUnary fuel tokens
    equalityLoop fuel value rest

def equalityLoop : Nat → Value → List Token → Parsed
  | 0, _, _ => .error .outOfFuel
  | fuel + 1, value, tokens =>
    match tokens with
    | .eq :: rest => do
      let (right, rest) ← parseUnary fuel rest
      equalityLoop fuel (triEqual true value right) rest
    | .ne :: rest => do
      let (right, rest) ← parseUnary fuel rest
      equalityLoop fuel (triEqual false value right) rest
    | tokens => .ok (value, tokens)

def parseAnd : Nat → List Token → Parsed
  | 0, _ => .error .outOfFuel
  | fuel + 1, tokens => do
    let (value, rest) ← parseEquality fuel tokens
    andLoop fuel value rest

def andLoop : Nat → Value → List Token → Parsed
  | 0, _, _ => .error .outOfFuel
  | fuel + 1, value, tokens =>
    match tokens with
    | .and :: rest => do
      let (right, rest) ← parseEquality fuel rest
      andLoop fuel (triAnd value right) rest
    | tokens => .ok (value, tokens)

def parseOr : Nat → List Token → Parsed
  | 0, _ => .error .outOfFuel
  | fuel + 1, tokens => do
    let (value, rest) ← parseAnd fuel tokens
    orLoop fuel value rest

def orLoop : Nat → Value → List Token → Parsed
  | 0, _, _ => .error .outOfFuel
  | fuel + 1, value, tokens =>
    match tokens with
    | .or :: rest => do
      let (right, rest) ← parseAnd fuel rest
      orLoop fuel (triOr value right) rest
    | tokens => .ok (value, tokens)

end

def evaluateTokens (tokens : List Token) : Evaluated Value := do
  let (value, rest) ← parseOr (6 * tokens.length + 6) tokens
  match rest with
  | [] => .ok value
  | token :: _ => unexpected (some token)

def evaluateStaticBooleanExpression (expression : List Char) : Evaluated Value := do
  let tokens ← tokenize expression
  evaluateTokens tokens

end SurfaceLoom.Scripts.StaticBoolean
