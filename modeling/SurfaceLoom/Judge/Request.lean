import SurfaceLoom.Judge.Data
import SurfaceLoom.Lib.Base64

/-! # The request of a judge

What `normalizeJudgeRequest` makes of a value, and that a normalized request passes it
again unchanged. -/
namespace SurfaceLoom.Judge.Request
open SurfaceLoom.Lib SurfaceLoom.Lib.Checked SurfaceLoom.Judge.Data
open SurfaceLoom.Core (utf16Length)

def maxAllowedLabels : Nat := 32
def maxEvidenceItems : Nat := 32
def maxQuestionChars : Nat := 4000
def maxTextCharsPerEvidence : Nat := 32000
def maxTotalTextChars : Nat := 128000
def maxImageBytesPerEvidence : Nat := 5242880
def maxTotalImageBytes : Nat := 10485760

inductive ImageMediaType
  | jpeg
  | png
  | webp
  deriving DecidableEq

def ImageMediaType.name : ImageMediaType → String
  | .jpeg => "image/jpeg"
  | .png => "image/png"
  | .webp => "image/webp"

def imageTypes : List ImageMediaType := [.jpeg, .png, .webp]

inductive EvidenceContent
  | text (text : String)
  | image (mediaType : ImageMediaType) (byteLength : Nat) (dataBase64 : String)

/-- `artifactId` is that of the origin. -/
structure EvidenceDescriptor where
  evidenceId : String
  serviceRunId : String
  artifactId : String
  content : EvidenceContent

structure JudgeRequest where
  serviceRunId : String
  rubricVersion : String
  question : String
  allowedLabels : List String
  evidence : List EvidenceDescriptor

def JudgeRequest.evidenceIds (request : JudgeRequest) : List String :=
  request.evidence.map EvidenceDescriptor.evidenceId

/-! ## Normalization -/

def normalizeOrigin (value : JsData) (path : String) : Contract String := do
  let input ← record value path
  exactKeys input ["kind", "artifactId"] path
  match get input "kind" with
  | .string "serviceArtifact" => identifier (get input "artifactId") (path ++ ".artifactId")
  | _ => contractError (path ++ ".kind") "must be serviceArtifact"

/-- A text that is not the encoding of the bytes it decodes to is refused. -/
def decodedBytes (data path : String) : Contract Nat :=
  match Base64.decode data.toList with
  | some bytes => .ok bytes.length
  | none => contractError path "must be canonical base64"

def normalizeText (input : Fields) (path : String) : Contract EvidenceContent := do
  exactKeys input ["kind", "evidenceId", "serviceRunId", "origin", "contentType", "text"] path
  match get input "contentType" with
  | .string "text/plain" =>
    (text (get input "text") (path ++ ".text") maxTextCharsPerEvidence).map .text
  | _ => contractError (path ++ ".contentType") "must be text/plain"

def normalizeMediaType (value : JsData) (path : String) : Contract ImageMediaType :=
  match value with
  | .string s =>
    match imageTypes.find? fun type => type.name = s with
    | some type => .ok type
    | none => contractError path "must be image/jpeg, image/png, or image/webp"
  | _ => contractError path "must be image/jpeg, image/png, or image/webp"

def normalizeImage (input : Fields) (path : String) : Contract EvidenceContent := do
  exactKeys input
    ["kind", "evidenceId", "serviceRunId", "origin", "mediaType", "byteLength", "dataBase64"] path
  let mediaType ← normalizeMediaType (get input "mediaType") (path ++ ".mediaType")
  let byteLength ←
    finiteInteger (get input "byteLength") (path ++ ".byteLength") maxImageBytesPerEvidence
  if byteLength = 0 then contractError (path ++ ".byteLength") "must be greater than zero"
  else match get input "dataBase64" with
    | .string dataBase64 => do
      let encodedLength := 4 * ((byteLength + 2) / 3)
      if utf16Length dataBase64 ≠ encodedLength then
        contractError (path ++ ".dataBase64") "length does not match declared image bytes"
      else do
        let decoded ← decodedBytes dataBase64 (path ++ ".dataBase64")
        if decoded ≠ byteLength then
          contractError (path ++ ".byteLength") "does not match decoded image bytes"
        else .ok (.image mediaType byteLength dataBase64)
    | _ => contractError (path ++ ".dataBase64") "must be a base64 string"

def normalizeContent (input : Fields) (path : String) : Contract EvidenceContent :=
  match get input "kind" with
  | .string "text" => normalizeText input path
  | .string "image" => normalizeImage input path
  | _ => contractError (path ++ ".kind") "must be text or image"

def normalizeEvidence (serviceRunId : String) (value : JsData) (path : String) :
    Contract EvidenceDescriptor := do
  let input ← record value path
  let evidenceId ← identifier (get input "evidenceId") (path ++ ".evidenceId")
  let evidenceRunId ← identifier (get input "serviceRunId") (path ++ ".serviceRunId")
  if evidenceRunId ≠ serviceRunId then
    contractError (path ++ ".serviceRunId") "must match the current service run"
  else do
    let artifactId ← normalizeOrigin (get input "origin") (path ++ ".origin")
    let content ← normalizeContent input path
    .ok ⟨evidenceId, evidenceRunId, artifactId, content⟩

def textChars : EvidenceContent → Nat
  | .text text => utf16Length text
  | .image .. => 0

def imageBytes : EvidenceContent → Nat
  | .text _ => 0
  | .image _ byteLength _ => byteLength

/-- The checks on a copied value. -/
def parseJudgeRequest (value : JsData) : Contract JudgeRequest := do
  let input ← record value "request"
  exactKeys input ["serviceRunId", "rubricVersion", "question", "allowedLabels", "evidence"] "request"
  let serviceRunId ← identifier (get input "serviceRunId") "request.serviceRunId"
  let labelItems ← array (get input "allowedLabels") "request.allowedLabels" maxAllowedLabels
  let labels ← mapItems identifier "request.allowedLabels" labelItems
  if labels = [] then contractError "request.allowedLabels" "must not be empty"
  else do
    unique labels "request.allowedLabels"
    let evidenceItems ← array (get input "evidence") "request.evidence" maxEvidenceItems
    let evidence ← mapItems (normalizeEvidence serviceRunId) "request.evidence" evidenceItems
    unique (evidence.map EvidenceDescriptor.evidenceId) "request.evidence[].evidenceId"
    if (evidence.map fun item => textChars item.content).sum > maxTotalTextChars then
      contractError "request.evidence" "exceeds total text limit"
    else if (evidence.map fun item => imageBytes item.content).sum > maxTotalImageBytes then
      contractError "request.evidence" "exceeds total image limit"
    else do
      let rubricVersion ← identifier (get input "rubricVersion") "request.rubricVersion"
      let question ← text (get input "question") "request.question" maxQuestionChars
      .ok ⟨serviceRunId, rubricVersion, question, labels, evidence⟩

def contentFields : EvidenceContent → Fields
  | .text text => [("contentType", .string "text/plain"), ("text", .string text)]
  | .image mediaType byteLength dataBase64 =>
    [("mediaType", .string mediaType.name), ("byteLength", .number (some byteLength)),
      ("dataBase64", .string dataBase64)]

def contentKind : EvidenceContent → String
  | .text _ => "text"
  | .image .. => "image"

def evidenceFields (evidence : EvidenceDescriptor) : Fields :=
  [("kind", .string (contentKind evidence.content)),
    ("evidenceId", .string evidence.evidenceId), ("serviceRunId", .string evidence.serviceRunId),
    ("origin", .object [("kind", .string "serviceArtifact"),
      ("artifactId", .string evidence.artifactId)])] ++ contentFields evidence.content

def EvidenceDescriptor.toData (evidence : EvidenceDescriptor) : JsData :=
  .object (evidenceFields evidence)

/-- The request as the value it is handed on as. -/
def JudgeRequest.toData (request : JudgeRequest) : JsData :=
  .object [("serviceRunId", .string request.serviceRunId),
    ("rubricVersion", .string request.rubricVersion), ("question", .string request.question),
    ("allowedLabels", .array (request.allowedLabels.map .string)),
    ("evidence", .array (request.evidence.map EvidenceDescriptor.toData))]

def normalizeJudgeRequest (value : JsData) : Contract JudgeRequest := do
  let copy ← sanitizeUntrusted value "request" requestDataBudget
  let request ← parseJudgeRequest copy
  let _ ← sanitizeUntrusted request.toData "request" requestDataBudget
  .ok request

/-! ## A normalized request is its own normal form -/

theorem record_object (fields : Fields) (path : String) :
    record (.object fields) path = .ok fields := rfl

theorem normalizeOrigin_again {value : JsData} {path artifactId : String}
    (h : normalizeOrigin value path = .ok artifactId) (path' : String) :
    normalizeOrigin (.object [("kind", .string "serviceArtifact"),
      ("artifactId", .string artifactId)]) path' = .ok artifactId := by
  obtain ⟨input, -, h⟩ := bind_ok.mp h
  obtain ⟨-, -, h⟩ := bind_ok.mp h
  split at h
  · have hagain := identifier_again h (path' ++ ".artifactId")
    refine bind_ok.mpr ⟨_, record_object _ path', bind_ok.mpr ⟨(), rfl, ?_⟩⟩
    exact hagain
  · cases h

theorem normalizeMediaType_again (mediaType : ImageMediaType) (path : String) :
    normalizeMediaType (.string mediaType.name) path = .ok mediaType := by
  cases mediaType <;> rfl

theorem normalizeText_again {input : Fields} {path : String} {content : EvidenceContent}
    (h : normalizeText input path = .ok content) (evidence : EvidenceDescriptor)
    (hcontent : evidence.content = content) (path' : String) :
    normalizeContent (evidenceFields evidence) path' = .ok content := by
  obtain ⟨-, -, h⟩ := bind_ok.mp h
  split at h
  · obtain ⟨t, ht, rfl⟩ := map_ok.mp h
    have hagain := text_again ht (path' ++ ".text")
    rw [evidenceFields, hcontent]
    show normalizeText _ path' = _
    refine bind_ok.mpr ⟨(), rfl, ?_⟩
    exact map_ok.mpr ⟨t, hagain, rfl⟩
  · cases h

theorem normalizeImage_again {input : Fields} {path : String} {content : EvidenceContent}
    (h : normalizeImage input path = .ok content) (evidence : EvidenceDescriptor)
    (hcontent : evidence.content = content) (path' : String) :
    normalizeContent (evidenceFields evidence) path' = .ok content := by
  obtain ⟨-, -, h⟩ := bind_ok.mp h
  obtain ⟨mediaType, -, h⟩ := bind_ok.mp h
  obtain ⟨byteLength, hbytes, h⟩ := bind_ok.mp h
  obtain ⟨hmax, hsafe⟩ := finiteInteger_ok hbytes
  split at h
  · cases h
  rename_i hpositive
  split at h
  · rename_i dataBase64 _
    dsimp only at h
    split at h
    · cases h
    rename_i hlength
    obtain ⟨decoded, hdecoded, h⟩ := bind_ok.mp h
    split at h
    · cases h
    rename_i hdecodes
    cases h
    have hagain : decodedBytes dataBase64 (path' ++ ".dataBase64") = .ok decoded := by
      unfold decodedBytes at hdecoded ⊢
      split at hdecoded
      · exact hdecoded
      · cases hdecoded
    rw [evidenceFields, hcontent]
    show normalizeImage _ path' = _
    refine bind_ok.mpr ⟨(), rfl, bind_ok.mpr ⟨mediaType, normalizeMediaType_again _ _, ?_⟩⟩
    refine bind_ok.mpr ⟨byteLength, finiteInteger_again _ hmax hsafe, ?_⟩
    rw [if_neg hpositive]
    show (if utf16Length dataBase64 ≠ 4 * ((byteLength + 2) / 3) then _ else _) = _
    rw [if_neg hlength]
    refine bind_ok.mpr ⟨decoded, hagain, ?_⟩
    rw [if_neg hdecodes]
  · cases h

theorem normalizeContent_again {input : Fields} {path : String} {content : EvidenceContent}
    (h : normalizeContent input path = .ok content) (evidence : EvidenceDescriptor)
    (hcontent : evidence.content = content) (path' : String) :
    normalizeContent (evidenceFields evidence) path' = .ok content := by
  unfold normalizeContent at h
  split at h
  · exact normalizeText_again h evidence hcontent path'
  · exact normalizeImage_again h evidence hcontent path'
  · cases h

theorem normalizeEvidence_again {serviceRunId : String} {value : JsData} {path : String}
    {evidence : EvidenceDescriptor} (h : normalizeEvidence serviceRunId value path = .ok evidence)
    (path' : String) : normalizeEvidence serviceRunId evidence.toData path' = .ok evidence := by
  obtain ⟨input, -, h⟩ := bind_ok.mp h
  obtain ⟨evidenceId, hevidence, h⟩ := bind_ok.mp h
  obtain ⟨evidenceRunId, hrun, h⟩ := bind_ok.mp h
  split at h
  · cases h
  rename_i hsame
  obtain ⟨artifactId, hartifact, h⟩ := bind_ok.mp h
  obtain ⟨content, hcontent, h⟩ := bind_ok.mp h
  cases h
  refine bind_ok.mpr ⟨evidenceFields ⟨evidenceId, evidenceRunId, artifactId, content⟩, rfl, ?_⟩
  refine bind_ok.mpr ⟨evidenceId, identifier_again hevidence _, ?_⟩
  refine bind_ok.mpr ⟨evidenceRunId, identifier_again hrun _, ?_⟩
  rw [if_neg hsame]
  refine bind_ok.mpr ⟨artifactId, normalizeOrigin_again hartifact _, ?_⟩
  refine bind_ok.mpr ⟨content, normalizeContent_again hcontent _ rfl _, rfl⟩

theorem array_map {α : Type} {value : JsData} {path : String} {max : Nat} {items : List JsData}
    (h : array value path max = .ok items) {values : List α} (hlength : values.length = items.length)
    (encode : α → JsData) (path' : String) :
    array (.array (values.map encode)) path' max = .ok (values.map encode) := by
  unfold array at h
  split at h
  · split at h
    · cases h
    · rename_i hmax
      cases h
      rw [array, List.length_map, hlength, if_neg hmax]
  · cases h

theorem parseJudgeRequest_again {value : JsData} {request : JudgeRequest}
    (h : parseJudgeRequest value = .ok request) :
    parseJudgeRequest request.toData = .ok request := by
  obtain ⟨input, -, h⟩ := bind_ok.mp h
  obtain ⟨-, -, h⟩ := bind_ok.mp h
  obtain ⟨serviceRunId, hrun, h⟩ := bind_ok.mp h
  obtain ⟨labelItems, hlabelItems, h⟩ := bind_ok.mp h
  obtain ⟨labels, hlabels, h⟩ := bind_ok.mp h
  split at h
  · cases h
  rename_i hsome
  obtain ⟨⟨⟩, hdistinct, h⟩ := bind_ok.mp h
  obtain ⟨evidenceItems, hevidenceItems, h⟩ := bind_ok.mp h
  obtain ⟨evidence, hevidence, h⟩ := bind_ok.mp h
  obtain ⟨⟨⟩, hids, h⟩ := bind_ok.mp h
  split at h
  · cases h
  rename_i htext
  split at h
  · cases h
  rename_i himages
  obtain ⟨rubricVersion, hrubric, h⟩ := bind_ok.mp h
  obtain ⟨question, hquestion, h⟩ := bind_ok.mp h
  cases h
  have hidentifiers : ∀ item path value, identifier item path = .ok value →
      ∀ path', identifier (JsData.string value) path' = .ok value :=
    fun _ _ _ hitem path' => identifier_again hitem path'
  have hlabels' := mapItems_again hidentifiers hlabels "request.allowedLabels" 0
  have hitems : ∀ item path value, normalizeEvidence serviceRunId item path = .ok value →
      ∀ path', normalizeEvidence serviceRunId (EvidenceDescriptor.toData value) path' = .ok value :=
    fun _ _ _ hitem path' => normalizeEvidence_again hitem path'
  have hevidence' := mapItems_again hitems hevidence "request.evidence" 0
  refine bind_ok.mpr ⟨_, rfl, bind_ok.mpr ⟨(), rfl, ?_⟩⟩
  refine bind_ok.mpr ⟨serviceRunId, identifier_again hrun _, ?_⟩
  refine bind_ok.mpr ⟨_, array_map hlabelItems (mapItems_length hlabels) .string _, ?_⟩
  refine bind_ok.mpr ⟨labels, hlabels', ?_⟩
  rw [if_neg hsome]
  refine bind_ok.mpr ⟨(), hdistinct, ?_⟩
  refine bind_ok.mpr
    ⟨_, array_map hevidenceItems (mapItems_length hevidence) EvidenceDescriptor.toData _, ?_⟩
  refine bind_ok.mpr ⟨evidence, hevidence', ?_⟩
  refine bind_ok.mpr ⟨(), hids, ?_⟩
  rw [if_neg htext, if_neg himages]
  refine bind_ok.mpr ⟨rubricVersion, identifier_again hrubric _, ?_⟩
  exact bind_ok.mpr ⟨question, text_again hquestion _, rfl⟩

/-- A normalized request passes the normalization again and comes out the same. -/
theorem normalizeJudgeRequest_again {value : JsData} {request : JudgeRequest}
    (h : normalizeJudgeRequest value = .ok request) :
    normalizeJudgeRequest request.toData = .ok request := by
  obtain ⟨copy, -, h⟩ := bind_ok.mp h
  obtain ⟨request', hparse, h⟩ := bind_ok.mp h
  obtain ⟨again, hsanitize, h⟩ := bind_ok.mp h
  cases h
  have hcopy := sanitizeUntrusted_ok hsanitize
  rw [hcopy] at hsanitize
  refine bind_ok.mpr ⟨request.toData, hsanitize, ?_⟩
  refine bind_ok.mpr ⟨request, parseJudgeRequest_again hparse, ?_⟩
  exact bind_ok.mpr ⟨_, hsanitize, rfl⟩

end SurfaceLoom.Judge.Request
