import Mathlib.Data.List.Sort
import SurfaceLoom.Lib.FileStore
import SurfaceLoom.Lib.JsonWrite
import SurfaceLoom.Lib.Locked
import SurfaceLoom.AgentService.StoredRun

/-! # The file artifact store

The bytes of an artifact are a file named by their digest; a manifest, named by
the digest of the artifact's identifier, says what they are. Puts wait for each
other, `get` and `list` do not, and the files may be damaged from outside. The
digest and the conversion of a number token are parameters. -/
namespace SurfaceLoom.Service.ArtifactStore
open SurfaceLoom.Lib SurfaceLoom.Lib.FileStore SurfaceLoom.Lib.JsonText
open SurfaceLoom.Lib.PromiseTail SurfaceLoom.Lib.Transition
open SurfaceLoom.Service.SafeData (SafeDataErrorCode)
open SurfaceLoom.Service.Validation SurfaceLoom.Service.StoredRun

/-- `#maxArtifactBytes`, as the constructor checks it. -/
abbrev ByteLimit := { n : SafeInteger // 0 < n.1 }

def defaultMaxArtifactBytes : Nat := 64 * 1024 * 1024

structure PutArtifactRequest where
  runId : String
  name : String
  mediaType : String
  data : Bytes

structure StoredArtifact where
  artifact : Artifact
  data : Bytes

def manifests : String := "manifests"

def blobs : String := "blobs"

/-! ## Digests -/

section
variable (sha256 : Bytes → Sha256)

/-- The digest of a string. -/
def hash (value : String) : Sha256 := sha256 (Utf8.encode value.toList)

/-- The texts an identifier is derived from. -/
def identity (runId : RunId) (name mediaType : Text) (digest : Sha256) : String :=
  runId.1 ++ "\x00" ++ name.1 ++ "\x00" ++ mediaType.1 ++ "\x00" ++ digest.1

theorem isText_of_isSha256 {s : String} (h : isSha256 s = true) (before : String)
    (hbefore : '\x00' ∉ before.toList) : isText (before ++ s) = true := by
  obtain ⟨hlength, hdigits⟩ : s.toList.length = 64 ∧ ∀ c ∈ s.toList, hexDigit c = true := by
    simpa [isSha256] using h
  unfold isText
  simp only [Bool.and_eq_true, decide_eq_true_eq, Bool.not_eq_true', List.contains_eq_mem,
    decide_eq_false_iff_not, String.toList_append, List.mem_append, not_or]
  refine ⟨fun hempty => ?_, hbefore, fun hzero => ?_⟩
  · have := congrArg (List.length ∘ String.toList) hempty
    simp only [Function.comp_apply, String.toList_append, List.length_append, hlength,
      String.toList_empty, List.length_nil] at this
    omega
  · exact absurd (hdigits _ hzero) (by decide)

def createArtifactId (runId : RunId) (name mediaType : Text) (digest : Sha256) : Text :=
  ⟨"artifact:" ++ (hash sha256 (identity runId name mediaType digest)).1,
    isText_of_isSha256 (hash sha256 _).2.2 _ (by decide)⟩

def manifestName (artifactId : String) : String := (hash sha256 artifactId).1 ++ ".json"

def manifestPlace (artifactId : String) : Place := ⟨manifests, manifestName sha256 artifactId⟩

def blobPlace (digest : Sha256) : Place := ⟨blobs, digest.1⟩

/-- `/^[0-9a-f]{64}\.json$/u.test(entry)`. -/
def isManifestName (entry : String) : Bool :=
  matchesAll (List.replicate 64 hexDigit ++ ".json".toList.map isChar) entry.toList

/-! ## Texts -/

def boundedText (value label : String) (maxBytes : Nat) : Except Failure Text :=
  if h : isText value = true ∧ value.utf8ByteSize ≤ maxBytes then .ok ⟨value, h.1⟩
  else .error (.typeError (label ++ " is invalid."))

def text (value : String) : Tree := .string (.ofString value)

def artifactMembers (a : Artifact) : List (Str × Tree) :=
  [(.ofString "artifactId", text a.artifactId.1), (.ofString "runId", text a.runId.1),
    (.ofString "name", text a.name.1), (.ofString "mediaType", text a.mediaType.1),
    (.ofString "sizeBytes", .literal (.number (.ofNat a.sizeBytes.1))),
    (.ofString "sha256", text a.sha256.1)]

def artifactTree (a : Artifact) : Tree := .object (artifactMembers a)

/-- `JSON.stringify`. -/
def stringify (a : Artifact) : List Char := chars (artifactTree a).write

def manifestBytes (a : Artifact) : Bytes := Utf8.encode (stringify a ++ ['\n'])

mutual

/-- A parsed value. A number that is not finite is one the parsers of the fields
refuse. -/
def fromJson : JsonText.JsValue (Option ℚ) → SafeData.JsValue
  | .null => .null
  | .bool b => .boolean b
  | .number none => .refused .invalidNumber
  | .number (some q) => .number q
  | .string units => .string (.ofList (fromUnits units))
  | .array items => .array (fromItems items)
  | .object properties => .object (fromProperties properties)

def fromItems : List (JsonText.JsValue (Option ℚ)) → List SafeData.JsValue
  | [] => []
  | item :: rest => fromJson item :: fromItems rest

def fromProperties : List (List Nat × JsonText.JsValue (Option ℚ)) → SafeData.Fields
  | [] => []
  | (key, item) :: rest => (.ofList (fromUnits key), fromJson item) :: fromProperties rest

end

variable (number : NumberText → Option ℚ)

/-- `parseArtifact(JSON.parse(input))`; what else it throws is a corruption too. -/
def parseManifest (input : List Char) : Except Failure Artifact :=
  match JsonText.parse number (input.map code) with
  | none => .error (.corruption "Artifact manifest is invalid.")
  | some value =>
    match parseArtifact (some (fromJson value)) with
    | .ok artifact => .ok artifact
    | .error (.corruption message) => .error (.corruption message)
    | .error _ => .error (.corruption "Artifact manifest is invalid.")

/-- `#readManifest`, from the content of the file of this name. -/
def checkManifest (name : String) (expectedId : Option String) (content : Bytes) :
    Except Failure Artifact :=
  let input := Utf8.decodeLossy content
  if (Utf8.encode input).length > 4096 then
    .error (.corruption "Artifact manifest is too large.")
  else do
    let artifact ← parseManifest number input
    let derivedId := createArtifactId sha256 artifact.runId artifact.name artifact.mediaType
      artifact.sha256
    if artifact.artifactId ≠ derivedId ∨ expectedId.any (fun id => artifact.artifactId.1 ≠ id) ∨
        name ≠ manifestName sha256 artifact.artifactId.1 then
      .error (.corruption "Artifact manifest identity does not match its location.")
    else return artifact

end

/-! ## Calls to the file system -/

abbrev Work (α : Type) := Program Command Reply Failure α

/-- A call whose error is thrown on. -/
def orThrow : Except Errno Unit → Work Unit
  | .ok () => pure ()
  | .error _ => .throw .write

/-- `unlink(place).catch(() => undefined)`. -/
def unlinkQuietly (place : Place) : Work Unit := .call (.unlink place) fun _ => pure ()

def unlink (place : Place) : Work Unit := .call (.unlink place) orThrow

def readFile (place : Place) : Work Bytes :=
  .call (.readFile place) fun
    | .ok content => pure content
    | .error _ => .throw .write

/-- `stat(place)`, where nothing there is no error. -/
def stat (place : Place) : Work (Option Stats) :=
  .call (.stat place) fun
    | .ok stats => pure (some stats)
    | .error .ENOENT => pure none
    | .error _ => .throw .write

def temporary (target : Place) (uuid : String) : Place :=
  ⟨target.directory, "." ++ target.name ++ "." ++ uuid ++ ".tmp"⟩

def writeAtomicFile (target : Place) (data : Bytes) (uuid : String) : Work Unit :=
  Program.tryFinally
    ((.call (.writeNew (temporary target uuid) data) orThrow : Work Unit) >>= fun _ =>
      .call (.rename (temporary target uuid) target) orThrow)
    (unlinkQuietly (temporary target uuid))

section
variable (sha256 : Bytes → Sha256) (number : NumberText → Option ℚ) (limit : ByteLimit)

def readManifest (target : Place) (expectedId : Option String) : Work (Option Artifact) :=
  .call (.readFile target) fun
    | .error .ENOENT => pure none
    | .error _ => .throw .write
    | .ok content => .done ((checkManifest sha256 number target.name expectedId content).map some)

/-! ## Puts -/

/-- A put whose request is valid. The texts are the two random identifiers its
temporary files would be named by. -/
structure Put where
  artifact : Artifact
  data : Bytes
  uuids : String × String
  name : artifact.name.1.utf8ByteSize ≤ 255
  mediaType : artifact.mediaType.1.utf8ByteSize ≤ 255
  size : artifact.sizeBytes.1 = data.length
  small : data.length ≤ limit.1.1
  digest : artifact.sha256 = sha256 data
  identified : artifact.artifactId =
    createArtifactId sha256 artifact.runId artifact.name artifact.mediaType artifact.sha256

theorem boundedText_ok {value label : String} {maxBytes : Nat} {t : Text}
    (h : boundedText value label maxBytes = .ok t) :
    t.1 = value ∧ isText value = true ∧ value.utf8ByteSize ≤ maxBytes := by
  unfold boundedText at h
  split at h
  · rename_i hvalid
    cases h
    exact ⟨rfl, hvalid⟩
  · cases h

/-- The synchronous part of `put`. -/
def prepare (request : PutArtifactRequest) (uuids : String × String) :
    Except Failure (Put sha256 limit) :=
  match parseRunId (some (.string request.runId)) with
  | .error e => .error e
  | .ok runId =>
    match hname : boundedText request.name "Artifact name" 255 with
    | .error e => .error e
    | .ok name =>
      match hmediaType : boundedText request.mediaType "Artifact mediaType" 255 with
      | .error e => .error e
      | .ok mediaType =>
        if hsmall : request.data.length > limit.1.1 then
          .error (.conflict "Artifact exceeds the configured byte limit.")
        else
          let digest := sha256 request.data
          .ok
            { artifact :=
                { artifactId := createArtifactId sha256 runId name mediaType digest
                  runId := runId
                  name := name
                  mediaType := mediaType
                  sizeBytes := ⟨request.data.length,
                    Nat.le_trans (Nat.not_lt.mp hsmall) limit.1.2⟩
                  sha256 := digest }
              data := request.data
              uuids := uuids
              name := (boundedText_ok hname).1 ▸ (boundedText_ok hname).2.2
              mediaType := (boundedText_ok hmediaType).1 ▸ (boundedText_ok hmediaType).2.2
              size := rfl
              small := Nat.not_lt.mp hsmall
              digest := rfl
              identified := rfl }

def ensureBlob (digest : Sha256) (data : Bytes) (uuid : String) : Work Unit := do
  let target := blobPlace digest
  let write := writeAtomicFile target data uuid
  match ← stat target with
  | none => write
  | some descriptor =>
    if descriptor.isFile = true ∧ descriptor.size = data.length then do
      let existing ← readFile target
      if sha256 existing = digest then pure ()
      else do
        unlink target
        write
    else do
      unlink target
      write

variable {sha256 limit} in
/-- The end of `#put`, where no manifest is there. -/
def Put.store (p : Put sha256 limit) : Work Artifact := do
  ensureBlob sha256 p.artifact.sha256 p.data p.uuids.1
  writeAtomicFile (manifestPlace sha256 p.artifact.artifactId.1) (manifestBytes p.artifact)
    p.uuids.2
  return p.artifact

variable {sha256 limit} in
/-- `#put`. -/
def Put.program (p : Put sha256 limit) : Work Artifact :=
  let manifestPath := manifestPlace sha256 p.artifact.artifactId.1
  (readManifest sha256 number manifestPath (some p.artifact.artifactId.1)).attempt fun
    | .error (.corruption _) => unlinkQuietly manifestPath >>= fun _ => p.store
    | .error e => .throw e
    | .ok none => p.store
    | .ok (some existing) =>
      if stringify existing ≠ stringify p.artifact then
        .throw (.conflict "Artifact identity collision.")
      else do
        ensureBlob sha256 p.artifact.sha256 p.data p.uuids.1
        return existing

/-! ## Reads -/

def get (artifactId : String) : Work (Option StoredArtifact) :=
  match boundedText artifactId "artifactId" 128 with
  | .error e => .throw e
  | .ok requestedId => do
    match ← readManifest sha256 number (manifestPlace sha256 requestedId.1) (some requestedId.1) with
    | none => return none
    | some artifact =>
      let mismatch : Work (Option StoredArtifact) :=
        .throw (.corruption "Artifact blob metadata does not match.")
      match ← stat (blobPlace artifact.sha256) with
      | none => mismatch
      | some descriptor =>
        if descriptor.isFile = false ∨ descriptor.size ≠ artifact.sizeBytes.1 ∨
            descriptor.size > limit.1.1 then mismatch
        else do
          let data ← readFile (blobPlace artifact.sha256)
          if sha256 data ≠ artifact.sha256 then
            .throw (.corruption "Artifact blob digest does not match.")
          else return some ⟨artifact, data⟩

/-- The loop of `list` over the entries. -/
def listEntries (runId : RunId) : List String → List Artifact → Work (List Artifact)
  | [], values => return values
  | entry :: rest, values =>
    if isManifestName entry = false then listEntries runId rest values
    else readManifest sha256 number ⟨manifests, entry⟩ none >>= fun
      | none => listEntries runId rest values
      | some artifact =>
        if artifact.runId = runId then listEntries runId rest (values ++ [artifact])
        else listEntries runId rest values

def list (runId : RunId) : Work (List Artifact) :=
  .call (.readdir manifests) fun entries =>
    listEntries sha256 number runId (entries.insertionSort fun a b => a ≤ b) []

inductive ReadRequest
  | get (artifactId : String)
  | list (runId : RunId)

inductive ReadResult
  | stored (value : Option StoredArtifact)
  | listed (values : List Artifact)

def readProgram : ReadRequest → Work ReadResult
  | .get artifactId => get sha256 number limit artifactId >>= fun value => return .stored value
  | .list runId => list sha256 number runId >>= fun values => return .listed values

/-! ## The store in use -/

/-- Every manifest can be read. -/
def healthy (files : Files) : Bool :=
  (names files manifests).all fun name => !isManifestName name ||
    match files.get? ⟨manifests, name⟩ with
    | some (.file content) => (checkManifest sha256 number name none content).isOk
    | _ => false

/-- A read under way. It owes the artifacts of the puts that had succeeded when it began, if
nothing was damaged from the begin of the put until now. -/
structure Reader where
  request : ReadRequest
  program : Work ReadResult
  owed : List (Put sha256 limit)
  /-- Every manifest could be read all the time. -/
  healthy : Bool

structure Answer where
  request : ReadRequest
  result : Except Failure ReadResult
  owed : List (Put sha256 limit)
  healthy : Bool

structure State where
  lock : Locked.State (Put sha256 limit) Command Reply Failure Artifact Files
  /-- Something was damaged since the running put began. -/
  disturbed : Bool
  /-- The puts that succeeded with nothing damaged since they began. -/
  intact : List (Put sha256 limit)
  calls : List (Put sha256 limit)
  readers : List (Reader sha256 limit)
  answers : List (Answer sha256 limit)

inductive Event
  | put (request : PutArtifactRequest) (uuids : String × String)
  | startPut (i : Nat)
  | stepPut (i : Nat)
  | settlePut (i : Nat)
  | read (request : ReadRequest)
  | stepRead (i : Nat)
  | settleRead (i : Nat)
  /-- A file that is there is removed, or comes to have another content. -/
  | damage (place : Place) (node : Option Node)

variable {sha256 limit}

def State.files (s : State sha256 limit) : Files := s.lock.shared

/-- The readers take note of the files. -/
def State.observe (s : State sha256 limit) : State sha256 limit :=
  { s with
    readers := s.readers.map fun r =>
      { r with healthy := r.healthy && healthy sha256 number s.files } }

def damaged (files : Files) (place : Place) : Option Node → Files
  | none => files.erase place
  | some node => files.set place node

/-- The puts that succeeded, once the put at `i` is over. -/
def State.succeeded (s : State sha256 limit) (i : Nat) : List (Put sha256 limit) :=
  match s.lock.tail.running[i]? with
  | some ⟨work, .done (.ok _), _⟩ => if s.disturbed then s.intact else s.intact ++ [work]
  | _ => s.intact

def next (s : State sha256 limit) : Event → Option (State sha256 limit)
  | .put request uuids =>
    match prepare sha256 limit request uuids with
    | .error _ => some s
    | .ok p =>
      (Locked.next perform (Put.program number) s.lock (.call p)).map fun lock =>
        { s with lock := lock, calls := s.calls ++ [p] }
  | .startPut i =>
    (Locked.next perform (Put.program number) s.lock (.start i)).map fun lock =>
      { s with lock := lock, disturbed := false }
  | .stepPut i =>
    (Locked.next perform (Put.program number) s.lock (.step i)).map fun lock =>
      State.observe number { s with lock := lock }
  | .settlePut i =>
    (Locked.next perform (Put.program number) s.lock (.settle i)).map fun lock =>
      { s with lock := lock, intact := s.succeeded i }
  | .read request =>
    some { s with
      readers := s.readers ++ [⟨request, readProgram sha256 number limit request, s.intact,
        healthy sha256 number s.files⟩] }
  | .stepRead i =>
    s.readers[i]?.bind fun r =>
      (r.program.advance perform s.files).map fun advanced =>
        State.observe number
          { s with
            lock := { s.lock with shared := advanced.2 }
            readers := s.readers.set i { r with program := advanced.1 } }
  | .settleRead i =>
    match s.readers[i]? with
    | some ⟨request, .done result, owed, healthy⟩ =>
      some { s with
        readers := s.readers.eraseIdx i
        answers := s.answers ++ [⟨request, result, owed, healthy⟩] }
    | _ => none
  | .damage place node =>
    if s.files.has place then
      some (State.observe number
        { s with
          lock := { s.lock with shared := damaged s.files place node }
          disturbed := true
          intact := []
          readers := s.readers.map fun r => { r with owed := [] } })
    else none

variable (sha256 limit) in
def opened : State sha256 limit := ⟨Locked.idle .empty, false, [], [], [], []⟩

variable (sha256 limit) in
def store : System (State sha256 limit) Event := .ofMachine (opened sha256 limit) (next number)

end

end SurfaceLoom.Service.ArtifactStore
