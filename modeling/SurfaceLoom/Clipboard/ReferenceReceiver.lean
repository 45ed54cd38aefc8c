import Mathlib.Data.Rat.Defs
import Mathlib.Data.String.Basic
import SurfaceLoom.Clipboard.Protocol
import SurfaceLoom.Clipboard.Ranges
import SurfaceLoom.Lib.FileTree
import SurfaceLoom.Lib.Locked

/-! # The reference receiver

The calls of a receiver on one manifest below one root, each with the file operations it
makes in turn. A JSON text on disk is modelled by its value. The root and what is above it
are plain directories. -/
namespace SurfaceLoom.Clipboard.ReferenceReceiver
open SurfaceLoom.Lib SurfaceLoom.Lib.FileTree SurfaceLoom.Lib.Transition
open SurfaceLoom.Clipboard.Protocol SurfaceLoom.Clipboard.Ranges

/-! ## Files -/

/-- A stored chunk. -/
structure Frame where
  i : Nat
  l : Nat
  s : String
  p : String
  deriving DecidableEq

inductive Content
  | bytes (bytes : Bytes)
  | manifest (manifest : Manifest)
  | frame (frame : Frame)
  deriving DecidableEq

inductive Failure
  | protocol (error : ProtocolError)
  | system (errno : Errno)
  | conversion
  deriving DecidableEq

abbrev Job (α : Type) := Program (Command Content) Reply Failure α

variable (m : Manifest)

def statePath : Path := [stateDirectory]
def sessionPath : Path := [stateDirectory, m.sessionId]
def manifestPath : Path := [stateDirectory, m.sessionId, "manifest.json"]
def chunksPath : Path := [stateDirectory, m.sessionId, "chunks"]
def targetPath : Path := [m.targetName]
def partialPath : Path := [".slm-clipboard-" ++ m.sessionId ++ ".partial"]

/-- The zeros of `padStart` run out at the hundred millionth chunk. -/
def chunkFileName (index : Nat) : String := String.ofList (Decimal.padded 8 index) ++ ".chunk.json"

/-- `/^\d{8}\.chunk\.json$/` -/
def isChunkFileName (name : String) : Bool :=
  let digits := name.toList.take 8
  digits.length = 8 && digits.all Char.isDigit && name.toList.drop 8 = ".chunk.json".toList

def chunkPath (index : Nat) : Path :=
  [stateDirectory, m.sessionId, "chunks", chunkFileName index]

/-- What `randomUUID` gives; the name of a temporary file is never that of the target. -/
structure Uuid where
  text : String
  fresh : ".tmp-" ++ text ≠ m.targetName

variable {m}

def temporaryName (uuid : Uuid m) : String := ".tmp-" ++ uuid.text

/-! ## File operations -/

def lstat (path : Path) : Job Kind :=
  .call (.lstat path) fun (reply : Except Errno Kind) => .done (reply.mapError .system)

def readFile (path : Path) : Job Content :=
  .call (.readFile path) fun (reply : Except Errno Content) => .done (reply.mapError .system)

def readdir (path : Path) : Job (List (String × Kind)) :=
  .call (.readdir path) fun (reply : Except Errno (List (String × Kind))) =>
    .done (reply.mapError .system)

def mkdir (path : Path) : Job Unit :=
  .call (.mkdir path) fun (reply : Except Errno Unit) => .done (reply.mapError .system)

def openExclusive (path : Path) : Job Unit :=
  .call (.openExclusive path (.bytes [])) fun (reply : Except Errno Unit) =>
    .done (reply.mapError .system)

def writeFile (path : Path) (content : Content) : Job Unit :=
  .call (.writeFile path content) fun (reply : Except Errno Unit) => .done (reply.mapError .system)

def link (existing path : Path) : Job Unit :=
  .call (.link existing path) fun (reply : Except Errno Unit) => .done (reply.mapError .system)

def unlink (path : Path) : Job Unit :=
  .call (.unlink path) fun (reply : Except Errno Unit) => .done (reply.mapError .system)

def removeForce (path : Path) : Job Unit :=
  .call (.removeForce path) fun (reply : Except Errno Unit) => .done (reply.mapError .system)

def removeTree (path : Path) : Job Unit :=
  .call (.removeTree path) fun (reply : Except Errno Unit) => .done (reply.mapError .system)

def rmdir (path : Path) : Job Unit :=
  .call (.rmdir path) fun (reply : Except Errno Unit) => .done (reply.mapError .system)

def fail {α : Type} (code : String) : Job α := .throw (.protocol ⟨code⟩)

def check {α : Type} (result : Except ProtocolError α) : Job α :=
  .done (result.mapError .protocol)

/-! ## Primitives -/

def pathExists (candidate : Path) : Job Bool :=
  .call (.lstat candidate) fun (reply : Except Errno Kind) =>
    match reply with
    | .ok _ => .done (.ok true)
    | .error .ENOENT => .done (.ok false)
    | .error errno => .done (.error (.system errno))

def assertPlain (candidate : Path) (kind : Kind) : Job Unit := do
  let found ← lstat candidate
  if found = kind then pure () else fail "REPARSE_REJECTED"

def readOptional (candidate : Path) : Job (Option Content) := do
  let found ← pathExists candidate
  if found then do
    assertPlain candidate .file
    let content ← readFile candidate
    pure (some content)
  else pure none

/-! ## Chunk objects -/

inductive JsNumber
  | nan
  | negativeInfinity
  | finite (value : ℚ)
  | infinity
  deriving DecidableEq

/-- A member of a chunk object; one that is neither a number nor a text carries the number
it converts to, if it does. -/
inductive Member
  | number (value : JsNumber)
  | string (text : String)
  | other (converted : Option JsNumber)
  deriving DecidableEq

structure ChunkObject where
  index : Member
  rawLength : Member
  sha256 : Member
  base64 : Member
  deriving DecidableEq

def Member.natural (n : Nat) : Member := .number (.finite n)

def toObject (c : Chunk) : ChunkObject :=
  ⟨.natural c.index, .natural c.rawLength, .string c.sha256, .string c.base64⟩

/-- `value < 0 || value >= bound` -/
def JsNumber.outside (value : JsNumber) (bound : Nat) : Bool :=
  match value with
  | .nan => false
  | .negativeInfinity | .infinity => true
  | .finite q => q < 0 || (bound : ℚ) ≤ q

/-- The same of a member, which is converted first. -/
def Member.outside (toNumber : String → JsNumber) (member : Member) (bound : Nat) :
    Except Failure Bool :=
  match member with
  | .number value | .other (some value) => .ok (value.outside bound)
  | .string text => .ok ((toNumber text).outside bound)
  | .other none => .error .conversion

/-- `member === n` -/
def Member.isNatural (member : Member) (n : Nat) : Bool :=
  match member with
  | .number (.finite q) => q = n
  | _ => false

/-- `member === s` -/
def Member.isText (member : Member) (s : String) : Bool :=
  match member with
  | .string text => text = s
  | _ => false

/-- The index `expectedChunkLength` goes by. -/
def chunkIndex (m : Manifest) (index : Member) : Except ProtocolError Nat :=
  match index with
  | .number (.finite q) =>
    if q.isInt ∧ 0 ≤ q ∧ q < m.chunkCount then .ok q.num.toNat
    else protocolError "INVALID_CHUNK_INDEX"
  | _ => protocolError "INVALID_CHUNK_INDEX"

def decodeMember (member : Member) : Except ProtocolError Bytes :=
  match member with
  | .string text => decodeCanonicalBase64 text
  | _ => protocolError "NON_CANONICAL_BASE64"

/-! ## The calls -/

structure Status where
  received : Nat
  missing : List Nat
  missingRanges : String
  deriving DecidableEq

inductive Answer
  | createdOrPresent
  | stored
  | alreadyPresent
  | status (status : Status)
  | created
  | removed
  deriving DecidableEq

inductive Call (m : Manifest)
  | init (uuid : Uuid m)
  | add (chunk : ChunkObject) (uuid : Uuid m)
  | status
  | finalize (uuid : Uuid m)
  | cleanup

def isOnePart (name : String) : Bool :=
  name ∉ ["", ".", ".."] && name.toList.all fun c => c ≠ '/' && c ≠ '\\'

/-- The paths are those above, if the target is directly below the root. -/
def checkPaths (m : Manifest) : Job Unit :=
  if isOnePart m.targetName then pure () else fail "PATH_REJECTED"

def ensurePlainDirectory (directory : Path) : Job Unit := do
  let found ← pathExists directory
  if found then assertPlain directory .directory else mkdir directory

def atomicCreate (destination : Path) (content : Content) (uuid : Uuid m) : Job Unit := do
  let temporary := destination.dropLast ++ [temporaryName uuid]
  openExclusive temporary
  writeFile temporary content
  .tryFinally (link temporary destination) (removeForce temporary)

def writeExact (destination : Path) (content : Content) (conflictCode : String) (uuid : Uuid m) :
    Job Unit := do
  let existing ← readOptional destination
  match existing with
  | some found => if found = content then pure () else fail conflictCode
  | none => atomicCreate destination content uuid

def loadSession (m : Manifest) : Job Unit := do
  checkPaths m
  assertPlain statePath .directory
  assertPlain (sessionPath m) .directory
  assertPlain (manifestPath m) .file
  assertPlain (chunksPath m) .directory
  let actual ← readFile (manifestPath m)
  if actual = .manifest m then pure () else fail "SESSION_CONFLICT"

variable (sha256 : Bytes → String) (toNumber : String → JsNumber)

/-- What is read of a chunk file is checked like what is added. -/
def parseChunk (m : Manifest) (index : Nat) (content : Content) : Except ProtocolError Bytes :=
  match content with
  | .frame frame => do
    let raw ← decodeCanonicalBase64 frame.p
    if frame.i ≠ index ∨ frame.l ≠ chunkLength m index ∨ raw.length ≠ frame.l ∨
        sha256 raw ≠ frame.s then protocolError "CHUNK_CORRUPT"
    else .ok raw
  | _ => protocolError "CHUNK_CORRUPT"

def readChunk (m : Manifest) (index : Nat) : Job Bytes := do
  assertPlain (chunkPath m index) .file
  let content ← readFile (chunkPath m index)
  check (parseChunk sha256 m index content)

def init (isNFC : String → Bool) (uuid : Uuid m) : Job Answer := do
  check (validateSessionId m.sessionId)
  check (validateTargetName isNFC m.targetName)
  checkPaths m
  ensurePlainDirectory statePath
  ensurePlainDirectory (sessionPath m)
  writeExact (manifestPath m) (.manifest m) "SESSION_CONFLICT" uuid
  ensurePlainDirectory (chunksPath m)
  pure .createdOrPresent

/-- The chunk as it is stored. -/
def acceptChunk (m : Manifest) (chunk : ChunkObject) : Except Failure Frame := do
  let outside ← chunk.index.outside toNumber m.chunkCount
  if outside then .error (.protocol ⟨"CHUNK_INDEX_INVALID"⟩)
  else do
    let index ← (chunkIndex m chunk.index).mapError .protocol
    let raw ← (decodeMember chunk.base64).mapError .protocol
    if chunk.rawLength.isNatural (chunkLength m index) ∧ raw.length = chunkLength m index ∧
        chunk.sha256.isText (sha256 raw) then
      .ok ⟨index, chunkLength m index, sha256 raw, canonicalBase64 raw⟩
    else .error (.protocol ⟨"CHUNK_INTEGRITY_FAILED"⟩)

def storeChunk (frame : Frame) (uuid : Uuid m) : Job Answer := do
  let existing ← readOptional (chunkPath m frame.i)
  match existing with
  | some found =>
    if found = .frame frame then do
      let _ ← readChunk sha256 m frame.i
      pure .alreadyPresent
    else fail "CHUNK_CONFLICT"
  | none => do
    atomicCreate (chunkPath m frame.i) (.frame frame) uuid
    pure .stored

def add (chunk : ChunkObject) (uuid : Uuid m) : Job Answer := do
  loadSession m
  let frame ← .done (acceptChunk sha256 toNumber m chunk)
  storeChunk sha256 frame uuid

/-- The indices without a chunk; each chunk there is is read. -/
def scan (m : Manifest) : List Nat → Job (List Nat)
  | [] => pure []
  | index :: rest => do
    let found ← pathExists (chunkPath m index)
    if found then do
      let _ ← readChunk sha256 m index
      scan m rest
    else do
      let missing ← scan m rest
      pure (index :: missing)

def status (m : Manifest) : Job Status := do
  loadSession m
  let missing ← scan sha256 m (List.range m.chunkCount)
  pure ⟨m.chunkCount - missing.length, missing, formatRanges missing⟩

/-- The length and the hash are those of the manifest. -/
def announced (m : Manifest) : Content → Bool
  | .bytes bytes => bytes.length = m.totalLength && sha256 bytes = m.fileSha256
  | _ => false

def readChunks (m : Manifest) : List Nat → Job (List Bytes)
  | [] => pure []
  | index :: rest => do
    let raw ← readChunk sha256 m index
    let others ← readChunks m rest
    pure (raw :: others)

def removePlainFile (file : Path) : Job Unit := do
  assertPlain file .file
  unlink file

def removePartial (m : Manifest) : Job Unit := do
  let found ← pathExists (partialPath m)
  if found then removePlainFile (partialPath m) else pure ()

def linkTarget (m : Manifest) : Job Answer := do
  link (partialPath m) (targetPath m)
  unlink (partialPath m)
  pure .created

/-- The target is linked, unless another one came first. -/
def publish (m : Manifest) : Job Answer :=
  .tryCatch (linkTarget m) fun _ => do
    let racedTarget ← readOptional (targetPath m)
    if racedTarget.any (announced sha256 m) then do
      removeForce (partialPath m)
      pure .alreadyPresent
    else fail "TARGET_CONFLICT"

/-- The rest of `finalize` for bytes that are those of the manifest. -/
def commit (bytes : Bytes) (uuid : Uuid m) : Job Answer := do
  removePartial m
  atomicCreate (partialPath m) (.bytes bytes) uuid
  let reopened ← readOptional (partialPath m)
  if reopened.any (announced sha256 m) then publish sha256 m else fail "FINAL_INTEGRITY_FAILED"

/-- `finalize` where there is no target yet. -/
def assemble (uuid : Uuid m) : Job Answer := do
  let report ← status sha256 m
  if report.missing ≠ [] then fail "CHUNKS_MISSING"
  else do
    let names ← readdir (chunksPath m)
    if (names.map Prod.fst).insertionSort (· ≤ ·) ≠ (List.range m.chunkCount).map chunkFileName then
      fail "CHUNK_SET_CONFLICT"
    else do
      let chunks ← readChunks sha256 m (List.range m.chunkCount)
      if announced sha256 m (.bytes chunks.flatten) then commit sha256 chunks.flatten uuid
      else fail "FINAL_INTEGRITY_FAILED"

def finalize (uuid : Uuid m) : Job Answer := do
  loadSession m
  let existingTarget ← readOptional (targetPath m)
  match existingTarget with
  | some content =>
    if announced sha256 m content then pure .alreadyPresent else fail "TARGET_CONFLICT"
  | none => assemble sha256 uuid

def isSessionEntry (entry : String × Kind) : Bool :=
  entry = ("manifest.json", .file) || entry = ("chunks", .directory)

def isChunkEntry (entry : String × Kind) : Bool :=
  entry.2 = .file && isChunkFileName entry.1

def removeSession (m : Manifest) : Job Answer := do
  removeTree (chunksPath m)
  unlink (manifestPath m)
  rmdir (sessionPath m)
  pure .removed

def cleanup (m : Manifest) : Job Answer := do
  loadSession m
  removePartial m
  let sessionEntries ← readdir (sessionPath m)
  if sessionEntries.all isSessionEntry then do
    let entries ← readdir (chunksPath m)
    if entries.all isChunkEntry then removeSession m else fail "CLEANUP_CONFLICT"
  else fail "CLEANUP_CONFLICT"

/-- The calls of any receivers of the process; one session has one lock. -/
def program (isNFC : String → Bool) : Call m → Job Answer
  | .init uuid => init isNFC uuid
  | .add chunk uuid => add sha256 toNumber chunk uuid
  | .status => do
    let report ← status sha256 m
    pure (.status report)
  | .finalize uuid => finalize sha256 uuid
  | .cleanup => cleanup m

abbrev Store := Files Content

/-- Below the root there is at most the target and the state directory. -/
def initial (m : Manifest) (target : Option Bytes) (state : Bool) : Store :=
  let files : Store := if state then OrderedMap.empty.set statePath .directory else .empty
  match target with
  | some bytes => files.set (targetPath m) (.file (.bytes bytes))
  | none => files

abbrev Receivers (m : Manifest) :=
  Locked.State (Call m) (Command Content) Reply Failure Answer Store

abbrev CallEntry (m : Manifest) := Locked.Entry (Call m) Failure Answer Store

def receiving (isNFC : String → Bool) (m : Manifest) (target : Option Bytes) (state : Bool) :
    System (Receivers m) (Locked.Event (Call m)) :=
  Locked.locked perform (program sha256 toNumber isNFC) (initial m target state)

end SurfaceLoom.Clipboard.ReferenceReceiver
