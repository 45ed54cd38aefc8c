import SurfaceLoom.Lib.JsonWrite
import SurfaceLoom.Scripts.CSharpLexical
import SurfaceLoom.Scripts.SwiftLineEnds

/-! # Conditional compilation

`maskConditionalCompilation` writes spaces for the directive lines of a source and for the
branches that are not compiled. It keeps a stack of the open blocks, and goes over comments
and literals only where the source is active. -/
namespace SurfaceLoom.Scripts.ConditionalCompilation
open SurfaceLoom.Core (isSpace)
open SurfaceLoom.Lib SurfaceLoom.Lib.Cursor SurfaceLoom.Scripts.StaticBoolean
open SurfaceLoom.Scripts.SourceText

/-! ## Directives -/

inductive Keyword
  | ifBlock
  | elseBranch
  | endif
  | elseif
  | elif
  deriving DecidableEq

namespace Keyword

def name : Keyword → String
  | ifBlock => "if"
  | elseBranch => "else"
  | endif => "endif"
  | elseif => "elseif"
  | elif => "elif"

def all : List Keyword := [ifBlock, elseBranch, endif, elseif, elif]

def ofWord (word : List Char) : Option Keyword := all.find? (·.name.toList = word)

end Keyword

/-- A directive with its text, from the `#` to the end of the line. -/
structure Directive where
  keyword : Keyword
  text : List Char
  expression : List Char

def stripLineComment : List Char → List Char
  | [] => []
  | c :: rest => if ['/', '/'].isPrefixOf (c :: rest) then [] else c :: stripLineComment rest

def trim (text : List Char) : List Char :=
  ((text.dropWhile isSpace).reverse.dropWhile isSpace).reverse

/-- The regular expression of `readDirective`: a keyword that is a word, and then no line end. -/
def parseDirective : List Char → Option Directive
  | '#' :: rest =>
    let word := (rest.dropWhile isSpace).takeWhile isIdentifierPart
    let tail := (rest.dropWhile isSpace).dropWhile isIdentifierPart
    match Keyword.ofWord word with
    | some keyword =>
      if '\r' ∈ tail ∨ '\n' ∈ tail then none
      else some ⟨keyword, '#' :: rest, trim (stripLineComment tail)⟩
    | none => none
  | _ => none

def lineText (p : Cursor) : List Char := p.rest.takeWhile (· ≠ '\n')

def readDirective (p : Cursor) : Option Directive := parseDirective (lineText p)

def isFirstTokenOnLine (p : Cursor) : Bool :=
  (p.before.takeWhile (· ≠ '\n')).all (· ∈ [' ', '\t', '\r'])

/-- The directive that begins here. -/
def directiveAt (p : Cursor) : Option Directive :=
  if p.startsWith ['#'] && isFirstTokenOnLine p then readDirective p else none

/-! ## The languages -/

inductive Language
  | csharp
  | swift

namespace Language

def name : Language → String
  | csharp => "C#"
  | swift => "Swift"

def elseifKeyword : Language → Keyword
  | csharp => .elif
  | swift => .elseif

def skipOpaque : Language → Cursor → Evaluated (Option Cursor)
  | csharp, p => CSharpLexical.skipCSharpOpaque (CSharpLexical.fuelFor p) p
  | swift, p => SwiftLexical.skipSwiftOpaque (SwiftLexical.fuelFor p) p

end Language

/-! ## The mask -/

structure Frame where
  start : Cursor
  parentActive : Bool
  branchTaken : Bool
  active : Bool
  sawElse : Bool

/-- The loop: `masked` is the result for what is before the place. -/
structure State where
  place : Cursor
  masked : List Char
  stack : List Frame
  active : Bool

def compilationError (language : Language) (p : Cursor) (message : String) : Failure :=
  sourceError p (language.name ++ " conditional compilation " ++ message)

def stringify (text : List Char) : String :=
  String.ofList (JsonText.chars (JsonText.quoted (JsonText.Str.ofString (String.ofList text)) []))

def requireKnownCondition (language : Language) (p : Cursor) (expression : List Char) :
    Evaluated Bool :=
  if expression = [] then .error (compilationError language p "#if condition is empty")
  else
    match evaluateStaticBooleanExpression expression with
    | .error (.error detail) =>
      .error (compilationError language p ("cannot parse conditional expression: " ++ detail))
    | .error .outOfFuel => .error .outOfFuel
    | .ok none => .error (compilationError language p
      ("cannot statically evaluate conditional expression " ++ stringify expression))
    | .ok (some value) => .ok value

def requireEmptyExpression (language : Language) (p : Cursor) (d : Directive) : Evaluated Unit :=
  if d.expression = [] then .ok ()
  else .error (compilationError language p ("#" ++ d.keyword.name ++ " has trailing tokens"))

/-- A new block, in the branch of its `#if`. -/
def openBlock (language : Language) (p : Cursor) (d : Directive) (currentActive : Bool) :
    Evaluated Frame :=
  let condition :=
    if currentActive then requireKnownCondition language p d.expression else .ok false
  condition.map fun condition =>
    ⟨p, currentActive, currentActive && condition, currentActive && condition, false⟩

/-- The next branch of a block; `#else` has no condition. -/
def nextBranch (language : Language) (p : Cursor) (d : Directive) (frame : Frame) :
    Evaluated Frame :=
  if d.keyword = .elseBranch then
    (requireEmptyExpression language p d).map fun () =>
      let active := frame.parentActive && !frame.branchTaken
      { frame with sawElse := true, active, branchTaken := frame.branchTaken || active }
  else if !frame.parentActive || frame.branchTaken then .ok { frame with active := false }
  else
    (requireKnownCondition language p d.expression).map fun active =>
      { frame with active, branchTaken := frame.branchTaken || active }

/-- Whether the source is active after a directive, and the open blocks. -/
def applyDirective (language : Language) (p : Cursor) (d : Directive) (stack : List Frame)
    (currentActive : Bool) : Evaluated (Bool × List Frame) :=
  if d.keyword = .ifBlock then
    (openBlock language p d currentActive).map fun frame => (frame.active, frame :: stack)
  else
    match stack with
    | [] => .error (compilationError language p ("unexpected #" ++ d.keyword.name))
    | frame :: rest =>
      if d.keyword = .endif then
        (requireEmptyExpression language p d).map fun () => (frame.parentActive, rest)
      else if frame.sawElse then
        .error (compilationError language p ("#" ++ d.keyword.name ++ " follows #else"))
      else (nextBranch language p d frame).map fun frame => (frame.active, frame :: rest)

/-- A character is as many spaces as it has code units; line ends stay. -/
def blank (c : Char) : List Char :=
  if c = '\n' ∨ c = '\r' then [c] else List.replicate (units [c]) ' '

def maskRange (text : List Char) : List Char := text.flatMap blank

/-- What is between a place and a later one. -/
def between (p q : Cursor) : List Char := p.rest.take (p.rest.length - q.rest.length)

/-- A directive is applied, and its line is masked. -/
def State.direct (language : Language) (s : State) (d : Directive) : Evaluated State :=
  if (d.keyword = .elseif ∨ d.keyword = .elif) ∧ d.keyword ≠ language.elseifKeyword then
    .error (compilationError language s.place ("uses unsupported #" ++ d.keyword.name ++
      "; expected #" ++ language.elseifKeyword.name))
  else
    (applyDirective language s.place d s.stack s.active).map fun (active, stack) =>
      ⟨s.place.forward d.text.length, s.masked ++ maskRange d.text, stack, active⟩

/-- The next character, or the comment or literal that begins here. -/
def State.read (language : Language) (s : State) : Evaluated State :=
  let c := s.place.rest.take 1
  if s.active then
    (language.skipOpaque s.place).map fun
      | some opaqueEnd =>
        { s with place := opaqueEnd, masked := s.masked ++ between s.place opaqueEnd }
      | none => { s with place := s.place.forward 1, masked := s.masked ++ c }
  else .ok { s with place := s.place.forward 1, masked := s.masked ++ maskRange c }

/-- One round of the loop. -/
def State.round (language : Language) (s : State) : Evaluated State :=
  match directiveAt s.place with
  | some d => s.direct language d
  | none => s.read language

def maskLoop (language : Language) : Nat → State → Evaluated (List Char)
  | 0, _ => .error .outOfFuel
  | fuel + 1, s =>
    if s.place.rest = [] then
      match s.stack with
      | [] => .ok s.masked
      | frame :: _ => .error (compilationError language frame.start "unterminated #if block")
    else do
      let t ← s.round language
      maskLoop language fuel t

def begin (source : List Char) : State := ⟨start source, [], [], true⟩

def maskConditionalCompilation (language : Language) (source : List Char) :
    Evaluated (List Char) := maskLoop language (source.length + 1) (begin source)

/-- Whether the loop reaches a state of this kind. -/
def reaches (language : Language) (bad : State → Bool) : Nat → State → Bool
  | 0, _ => false
  | fuel + 1, s =>
    if s.place.rest = [] then false
    else
      bad s ||
        match s.round language with
        | .ok t => reaches language bad fuel t
        | .error _ => false

end SurfaceLoom.Scripts.ConditionalCompilation
