import SurfaceLoom.Lib.Utf8

/-! # What the native hosts read

Both hosts cut what they read into frames at each line feed, skip blank frames, and hand
the others to their JSON parsers, up to the first one that fails a check. The Swift host
goes over the input byte by byte, the C# host line by line. A host may also stop after a
frame that it handed on; that is not modelled, and may depend on all frames handed on so
far (`goesOn`). -/
namespace SurfaceLoom.Native.InboundFraming
open SurfaceLoom.Lib

abbrev Bytes := List UInt8

def lineFeed : UInt8 := 0x0A

def carriageReturn : UInt8 := 0x0D

def maxMessageBytes : Nat := 1048576

structure NativeWireFrame where
  bytes : Bytes
  delimiterBytes : Nat
  deriving DecidableEq

inductive ProtocolError
  | invalidFrame
  | messageTooLarge
  | invalidJson
  | invalidUtf8
  deriving DecidableEq

/-- Why a host stopped reading: at the end of its input, at a frame that it refused before
its JSON parser, or after one that it handed on. -/
inductive Ended
  | input
  | framing (frame : Nat)
  | host
  deriving DecidableEq

structure Reading where
  handed : List NativeWireFrame
  ended : Ended
  deriving DecidableEq

inductive Verdict
  | blank
  | refused
  | handed
  deriving DecidableEq

/-- What a host does with a frame: it goes on with what it has handed to its parser. -/
def settle (goesOn : List NativeWireFrame → Bool) (handed : List NativeWireFrame) (number : Nat)
    (frame : NativeWireFrame) : Verdict → Except Reading (List NativeWireFrame)
  | .blank => .ok handed
  | .refused => .error ⟨handed, .framing number⟩
  | .handed =>
    if goesOn (handed ++ [frame]) then .ok (handed ++ [frame])
    else .error ⟨handed ++ [frame], .host⟩

/-! ## The Swift host -/

namespace Mac

structure NativeFrameReader where
  buffer : Bytes
  finished : Bool

namespace NativeFrameReader

def append (r : NativeFrameReader) (byte : UInt8) :
    Except ProtocolError (NativeFrameReader × Option NativeWireFrame) :=
  if r.finished then .error .invalidFrame
  else if byte = lineFeed then
    let isCRLF := r.buffer.getLast? = some carriageReturn
    .ok ({ r with buffer := [] }, some (if isCRLF then ⟨r.buffer.dropLast, 2⟩ else ⟨r.buffer, 1⟩))
  else if r.buffer.length < maxMessageBytes - 1 then
    .ok ({ r with buffer := r.buffer ++ [byte] }, none)
  else .error .messageTooLarge

def finish (r : NativeFrameReader) : Option NativeWireFrame :=
  if r.finished ∨ r.buffer = [] then none else some ⟨r.buffer, 1⟩

end NativeFrameReader

def byteOrderMark : Bytes := [0xEF, 0xBB, 0xBF]

/-- `parseFrame` up to its JSON parser. -/
def parseFrame (frame : NativeWireFrame) : Except ProtocolError (List Char) :=
  if ¬(frame.delimiterBytes = 1 ∨ frame.delimiterBytes = 2) then .error .invalidFrame
  else if frame.bytes.length + frame.delimiterBytes > maxMessageBytes then .error .messageTooLarge
  else if byteOrderMark.isPrefixOf frame.bytes then .error .invalidJson
  else
    match Utf8.decodeFatal frame.bytes with
    | none => .error .invalidUtf8
    | some text =>
      if text = [] ∨ '\r' ∈ text ∨ '\n' ∈ text then .error .invalidFrame else .ok text

def isBlank (byte : UInt8) : Bool := byte = 0x20 || byte = 0x09

def ingest (frame : NativeWireFrame) : Verdict :=
  if frame.bytes.all isBlank then .blank
  else
    match parseFrame frame with
    | .error _ => .refused
    | .ok _ => .handed

/-- The loop of `runCore`; `number` counts the frames. -/
def runCore (goesOn : List NativeWireFrame → Bool) :
    NativeFrameReader → List NativeWireFrame → Nat → Bytes → Reading
  | r, handed, number, [] =>
    match r.finish with
    | none => ⟨handed, .input⟩
    | some frame =>
      match settle goesOn handed number frame (ingest frame) with
      | .error reading => reading
      | .ok handed => ⟨handed, .input⟩
  | r, handed, number, byte :: rest =>
    match r.append byte with
    | .error _ => ⟨handed, .framing number⟩
    | .ok (r, none) => runCore goesOn r handed number rest
    | .ok (r, some frame) =>
      match settle goesOn handed number frame (ingest frame) with
      | .error reading => reading
      | .ok handed => runCore goesOn r handed (number + 1) rest

def read (goesOn : List NativeWireFrame → Bool) (input : Bytes) : Reading :=
  runCore goesOn ⟨[], false⟩ [] 0 input

end Mac

/-! ## The C# host -/

namespace Windows

structure NdjsonWireLine where
  line : List Char
  delimiterBytes : Nat
  exceededByteLimit : Bool

/-- What `ReadLine` gives; `undecodable` is the exception of its decoder. -/
inductive LineRead
  | ended
  | undecodable
  | line (line : NdjsonWireLine)

/-- `StrictUtf8.GetString`, as the line it becomes. -/
def getString (content : Bytes) (delimiterBytes : Nat) : LineRead :=
  match Utf8.decodeFatal content with
  | none => .undecodable
  | some line => .line ⟨line, delimiterBytes, false⟩

def decode (bytes : Bytes) (delimiterBytes : Nat) : LineRead :=
  let length := if delimiterBytes = 2 then bytes.length - 1 else bytes.length
  getString (bytes.take length) delimiterBytes

/-- `ReadLine`, with what is left of the input. -/
def readLine (bytes : Bytes) : Bytes → LineRead × Bytes
  | [] => (if bytes = [] then .ended else decode bytes 1, [])
  | next :: input =>
    if next = lineFeed then
      (decode bytes (if bytes.getLast? = some carriageReturn then 2 else 1), input)
    else if bytes.length ≥ maxMessageBytes - 1 then (.line ⟨[], 1, true⟩, input)
    else readLine (bytes ++ [next]) input

/-- `char.IsWhiteSpace`. -/
def isWhiteSpace (c : Char) : Bool :=
  (9 ≤ c.toNat && c.toNat ≤ 13) || c = ' ' || c.toNat = 0x85 || c.toNat = 0xA0 ||
    c.toNat = 0x1680 || (0x2000 ≤ c.toNat && c.toNat ≤ 0x200A) || c.toNat = 0x2028 ||
    c.toNat = 0x2029 || c.toNat = 0x202F || c.toNat = 0x205F || c.toNat = 0x3000

def hexDigit (c : Char) : Option Nat :=
  if '0' ≤ c ∧ c ≤ '9' then some (c.toNat - '0'.toNat)
  else if 'A' ≤ c ∧ c ≤ 'F' then some (c.toNat - 'A'.toNat + 10)
  else if 'a' ≤ c ∧ c ≤ 'f' then some (c.toNat - 'a'.toNat + 10)
  else none

/-- `TryReadHexQuad` at the head of what is left of the source. -/
def tryReadHexQuad (source : List Char) : Option Nat :=
  if source.length < 4 then none
  else ((source.take 4).mapM hexDigit).map fun digits => digits.foldl (16 * · + ·) 0

/-- `RejectInvalidUnicodeScalars` throws. A decoded text has no surrogates of its own, so
only the escapes of its strings can be unpaired. -/
def rejectInvalidUnicodeScalars : Nat → Bool → List Char → Bool
  | 0, _, _ => false
  | _, _, [] => false
  | fuel + 1, false, character :: rest =>
    rejectInvalidUnicodeScalars fuel (character = '"') rest
  | fuel + 1, true, character :: rest =>
    if character = '"' then rejectInvalidUnicodeScalars fuel false rest
    else if character = '\\' then
      let source := rest.drop 1
      match if rest.head? = some 'u' then tryReadHexQuad source else none with
      | none => rejectInvalidUnicodeScalars fuel true source
      | some first =>
        let source := source.drop 4
        if 0xD800 ≤ first ∧ first ≤ 0xDBFF then
          match if source.take 2 = ['\\', 'u'] then tryReadHexQuad (source.drop 2) else none with
          | none => true
          | some second =>
            if second < 0xDC00 ∨ second > 0xDFFF then true
            else rejectInvalidUnicodeScalars fuel true (source.drop 6)
        else if 0xDC00 ≤ first ∧ first ≤ 0xDFFF then true
        else rejectInvalidUnicodeScalars fuel true source
    else rejectInvalidUnicodeScalars fuel true rest

/-- `ParseFrame` up to its JSON parser. -/
def parseFrame (line : List Char) (delimiterBytes : Nat) : Except ProtocolError Unit :=
  if delimiterBytes < 1 ∨ delimiterBytes > 2 then .error .invalidFrame
  else if (Utf8.encode line).length + delimiterBytes > maxMessageBytes then
    .error .messageTooLarge
  else if line = [] ∨ '\n' ∈ line ∨ '\r' ∈ line then .error .invalidFrame
  else if rejectInvalidUnicodeScalars line.length false line then .error .invalidJson
  else .ok ()

def ingest (line : NdjsonWireLine) : Verdict :=
  if line.line.all isWhiteSpace then .blank
  else
    match parseFrame line.line line.delimiterBytes with
    | .error _ => .refused
    | .ok () => .handed

/-- The loop of `ReadFrames`. -/
def readFrames (goesOn : List NativeWireFrame → Bool) :
    Nat → List NativeWireFrame → Nat → Bytes → Option Reading
  | 0, _, _, _ => none
  | fuel + 1, handed, number, input =>
    match readLine [] input with
    | (.ended, _) => some ⟨handed, .input⟩
    | (.undecodable, _) => some ⟨handed, .framing number⟩
    | (.line line, rest) =>
      if line.exceededByteLimit then some ⟨handed, .framing number⟩
      else
        match settle goesOn handed number ⟨Utf8.encode line.line, line.delimiterBytes⟩
            (ingest line) with
        | .error reading => some reading
        | .ok handed => readFrames goesOn fuel handed (number + 1) rest

def read (goesOn : List NativeWireFrame → Bool) (input : Bytes) : Option Reading :=
  readFrames goesOn (input.length + 1) [] 0 input

end Windows

end SurfaceLoom.Native.InboundFraming
