import SurfaceLoom.Native.Client
import SurfaceLoom.Native.WindowsIngestSafety

/-! # Where the responses of the Windows host go

A response carries the id of its message or `invalid`. The first look at an id takes a
newline behind it for the end of the text, the reader of identifiers does not, and a
message that fails between the two is answered under an id no client can have sent. -/
namespace SurfaceLoom.Native.WindowsAddresses
open SurfaceLoom.Lib SurfaceLoom.Lib.Transition SurfaceLoom.Lib.Checked SurfaceLoom.Native.Wire
open SurfaceLoom.Native.WindowsParser SurfaceLoom.Native.WindowsParserErrors
open SurfaceLoom.Native.WindowsIngest SurfaceLoom.Native.WindowsIngestSafety
open SurfaceLoom.Native.WindowsDispatcher (WireResult WindowsHost Reads executeCore outbound
  outboundFailure failure success Addressed failure_addressed success_addressed
  outboundFailure_addressed receipt_operationID executeCore_response outbound_response)
open SurfaceLoom.Native.Client (WireResponse)
open SurfaceLoom.Native.Client.NativeClient (validateResponseForRequest)

/-! ## Identifiers -/

/-- What `ReadIdentifier` takes for an identifier. -/
def wireIdentifier (text : String) : Bool := isText 128 text && identifierRegex text

theorem readIdentifier_wireIdentifier {parent : JsonElement} {property requestId id : String} :
    readIdentifier parent property requestId = .ok id ↔
      stringProperty parent property = some id ∧ wireIdentifier id = true := by
  rw [readIdentifier_iff, stringProperty_eq_some, wireIdentifier, Bool.and_eq_true]
  refine and_congr_right fun _ => and_congr_right fun hbounded => ?_
  rw [identifierRegex, endsBeforeNewline_iff (isText_newline hbounded)]
  exact Iff.rfl

theorem isAlphanum_ascii {c : Char} (h : c.isAlphanum = true) : c.val ≤ 127 := by
  unfold Char.isAlphanum Char.isAlpha Char.isUpper Char.isLower Char.isDigit at h
  simp only [Bool.or_eq_true, Bool.and_eq_true, decide_eq_true_eq, UInt32.le_iff_toNat_le] at h
  have hupper : 'Z'.val.toNat = 90 := rfl
  have hlower : 'z'.val.toNat = 122 := rfl
  have hdigit : '9'.val.toNat = 57 := rfl
  have hascii : (127 : UInt32).toNat = 127 := rfl
  rw [UInt32.le_iff_toNat_le]
  omega

theorem identifierTail_ascii {c : Char} (h : identifierTail c = true) : c.val ≤ 127 := by
  rw [identifierTail, Bool.or_eq_true, decide_eq_true_eq] at h
  rcases h with h | h
  · exact isAlphanum_ascii h
  · simp only [List.mem_cons, List.not_mem_nil, or_false] at h
    rcases h with rfl | rfl | rfl | rfl <;> decide

theorem utf8ByteSize_ofList {chars : List Char} (h : ∀ c ∈ chars, c.val ≤ 127) :
    (String.ofList chars).utf8ByteSize = chars.length := by
  induction chars with
  | nil => rfl
  | cons c rest ih =>
    rw [String.ofList_cons, String.utf8ByteSize_append, String.utf8ByteSize_singleton,
      Char.utf8Size_eq_one_iff.mpr (h c List.mem_cons_self),
      ih fun c' hc' => h c' (List.mem_cons_of_mem _ hc'), List.length_cons, Nat.add_comm]

theorem isIdentifier_isText {text : String} (h : isIdentifier text = true) :
    isText 128 text = true := by
  have htail := isIdentifier_tail h
  have hsize : text.utf8ByteSize ≤ 128 := by
    have hbytes := utf8ByteSize_ofList fun c hc => identifierTail_ascii (htail c hc)
    rw [String.ofList_toList, String.length_toList] at hbytes
    rw [hbytes]
    exact isIdentifier_length h
  have hplain : ∀ c, identifierTail c = false → c ∉ text.toList := by
    intro c hc hmem
    rw [htail c hmem] at hc
    cases hc
  refine decide_eq_true ⟨?_, hsize, hplain _ (by decide), hplain _ (by decide), hplain _ (by decide)⟩
  intro hempty
  rw [hempty] at h
  exact absurd h (by decide)

/-- The strict reader takes the identifiers and nothing else. -/
theorem wireIdentifier_eq (text : String) : wireIdentifier text = isIdentifier text := by
  by_cases hbounded : isText 128 text = true
  · rw [wireIdentifier, hbounded, identifierRegex, endsBeforeNewline_iff (isText_newline hbounded)]
    rfl
  · have hnot : isIdentifier text = false := by
      by_contra h
      exact hbounded (isIdentifier_isText (Bool.eq_true_of_not_eq_false h))
    rw [wireIdentifier, Bool.eq_false_of_not_eq_true hbounded, hnot]
    rfl

/-- An identifier and one newline behind it. -/
def newlineEnds (text : String) : Bool :=
  text.toList.getLast? = some '\n' && identifierChars text.toList.dropLast

theorem newlineEnds_not_identifier {text : String} (h : newlineEnds text = true) :
    isIdentifier text = false := by
  rw [newlineEnds, Bool.and_eq_true, decide_eq_true_eq] at h
  by_contra hid
  have htail := isIdentifier_tail (Bool.eq_true_of_not_eq_false hid) '\n'
    (List.mem_of_getLast? h.1)
  exact absurd htail (by decide)

/-- The lenient reader takes these texts too. -/
theorem identifierRegex_eq (text : String) :
    identifierRegex text = (isIdentifier text || newlineEnds text) := rfl

theorem tryReadMessageId_eq (root : JsonElement) :
    tryReadMessageId root =
      (stringProperty root "id").filter fun text => isIdentifier text || newlineEnds text := by
  unfold tryReadMessageId tryReadIdentifier stringProperty
  cases tryGetProperty root "id" with
  | none => rfl
  | some value =>
    cases value with
    | string text => exact (Option.filter_some ..).symm
    | _ => rfl

/-! ## Responses and their requests -/

variable {l ρ : Type}

/-- A response as its reader gets it: a result or an error. -/
def wireResponse (response : Response ρ) : Option (WireResponse (WireResult ρ)) :=
  match response.result, response.error with
  | some result, none => some ⟨response.id, .ok result, response.operation⟩
  | none, some error => some ⟨response.id, .error error, response.operation⟩
  | some _, some _ | none, none => none

/-- The response is whole, and what it says of the operation fits the rest of it. -/
structure Answers (request : Request) (response : Response ρ) : Prop where
  addressed : Addressed request response
  whole : response.result.isSome ↔ response.error = none
  executed : response.error = none → ∀ receipt ∈ response.operation, receipt.outcome = .executed
  retry : response.RetrySafe → response.outcome = some .notExecuted

theorem receipt_isSome {request : Request} {response : Response ρ}
    (h : Addressed request response) :
    response.operation.isSome ↔ request.call.intent ≠ .observe := by
  rw [← request.call.sideEffecting, ← h.2, Option.isSome_map]

/-- The client finds nothing wrong with such a response. -/
theorem Answers.validates {request : Request} {response : Response ρ} (h : Answers request response) :
    ∃ wire, wireResponse response = some wire ∧ validateResponseForRequest request wire = none := by
  obtain ⟨id, result, error, operation⟩ := response
  obtain ⟨haddressed, hwhole, hexecuted, hretry⟩ := h
  have hreceipt : operation.isSome ↔ request.call.intent ≠ .observe := receipt_isSome haddressed
  have hnone : request.call.intent = .observe → operation = none := by
    intro hobserve
    cases operation with
    | none => rfl
    | some receipt => exact absurd hobserve (hreceipt.mp rfl)
  have hid : request.id = id := haddressed.1.symm
  have hop : operation.map (·.operationID) = request.call.operationID := haddressed.2
  cases error with
  | none =>
    obtain ⟨result, rfl⟩ := Option.isSome_iff_exists.mp (hwhole.mpr rfl)
    refine ⟨_, rfl, ?_⟩
    have hproven : request.call.intent ≠ .observe →
        operation.map (·.outcome) = some .executed := by
      intro heffect
      obtain ⟨receipt, rfl⟩ := Option.isSome_iff_exists.mp (hreceipt.mpr heffect)
      exact congrArg some (hexecuted rfl receipt rfl)
    by_cases hobserve : request.call.intent = .observe
    · simp [validateResponseForRequest, hid, hobserve, hnone hobserve]
    · simp [validateResponseForRequest, hid, hobserve, hop, hproven hobserve]
  | some error =>
    have hresult : result = none := by
      cases result with
      | none => rfl
      | some result => exact absurd (hwhole.mp rfl) (by nofun)
    subst hresult
    refine ⟨_, rfl, ?_⟩
    have hsafe : error.retry = .safe → operation.map (·.outcome) = some .notExecuted :=
      fun hsafe => hretry (congrArg some hsafe)
    by_cases hobserve : request.call.intent = .observe
    · have hnever : error.retry ≠ .safe := by
        intro h
        have houtcome := hsafe h
        rw [hnone hobserve] at houtcome
        cases houtcome
      simp [validateResponseForRequest, hid, hobserve, hnone hobserve, hnever, Except.toBool]
    · by_cases hretries : error.retry = .safe
      · simp [validateResponseForRequest, hid, hobserve, hop, hretries, hsafe hretries, Except.toBool]
      · simp [validateResponseForRequest, hid, hobserve, hop, hretries, Except.toBool]

theorem success_answers {request : Request} {result : WireResult ρ} :
    Answers request (success request result) where
  addressed := success_addressed
  whole := ⟨fun _ => rfl, fun _ => rfl⟩
  executed := by
    intro _ receipt hreceipt
    obtain ⟨id, -, rfl⟩ := Option.map_eq_some_iff.mp hreceipt
    rfl
  retry h := absurd h WindowsDispatcher.success_not_retrySafe

theorem failure_answers {request : Request} {code : String} {category : NativeErrorCategory}
    {message : String} {submitted : Bool} {provenOutcome : Option NativeOperationOutcome} :
    Answers request (failure request code category message submitted provenOutcome :
      Response ρ) where
  addressed := failure_addressed
  whole := ⟨(fun h => nomatch h), (fun h => nomatch h)⟩
  executed := fun h => nomatch h
  retry h := by
    have hsafe := Option.some.inj h
    exact (NativeRetryDisposition.ite_eq_safe.mp hsafe).1

theorem outboundFailure_answers {request : Request} {original : Response ρ} {code : String}
    {category : NativeErrorCategory} {message : String} (h : Answers request original) :
    Answers request (outboundFailure request original code category message) where
  addressed := outboundFailure_addressed h.addressed
  whole := ⟨(fun h => nomatch h), (fun h => nomatch h)⟩
  executed := fun h => nomatch h
  retry hsafe := by
    have hsafe := Option.some.inj hsafe
    exact (NativeRetryDisposition.ite_eq_safe.mp hsafe).1

/-- What is published for an execution answers its request. -/
theorem published_answers {host : WindowsHost JsonElement l ρ} {sessions : WindowsDispatcher.Sessions}
    {used : Finset String} {request : Request} {reads : Reads ρ} {remaining : Nat}
    {published : Response ρ}
    (h : outbound host request remaining
      (executeCore host sessions used request reads).response = some published) :
    Answers request published :=
  outbound_response (fun _ _ _ _ => outboundFailure_answers) h
    (executeCore_response (fun _ _ _ _ _ => failure_answers) fun _ => success_answers)

/-- So does the rejection of a request whose id is taken. -/
theorem conflict_answers {request : Request} {exception : NativeV1ProtocolException}
    (h : exception.requestId = request.id) :
    Answers request (rejection (ρ := ρ) exception (some request)) where
  addressed := ⟨h, receipt_operationID _ _⟩
  whole := ⟨(fun h => nomatch h), (fun h => nomatch h)⟩
  executed := fun h => nomatch h
  retry h := nomatch h

/-! ## The ids of a message that fails -/

/-- The message has the fields of its type and no others. -/
def carriesOnly (root : JsonElement) (fields : List String) : Bool :=
  (requireOnlyProperties root "message" fields "invalid").toBool

/-- The id of the message is an identifier with a newline behind it, the type is a text,
and a message of a type clients send has its fields only. -/
def recoversNewline (root : JsonElement) : Bool :=
  (stringProperty root "id").any newlineEnds &&
    match stringProperty root "type" with
    | none => false
    | some type =>
      if type = "cancel" then carriesOnly root cancelFields
      else if type = "request" then carriesOnly root requestFields
      else true

theorem tryReadMessageId_newline {root : JsonElement} {id : String}
    (h : tryReadMessageId root = some id) (hnot : isIdentifier id = false) :
    (stringProperty root "id").any newlineEnds = true := by
  rw [tryReadMessageId_eq, Option.filter_eq_some_iff, hnot, Bool.false_or] at h
  rw [h.1]
  exact h.2

/-- Once its fields are right, a message fails under the id the first look found. -/
theorem readHeader_recovered {root : JsonElement} {expectedType : String} {fields : List String}
    {found : List (String × JsonElement)} (hlength : expectedType.length ≤ 64)
    (honly : requireOnlyProperties root "message" fields "invalid" = .ok found) :
    Fails (Rejects (· = (tryReadMessageId root).getD "invalid"))
      (readHeader root expectedType fields) := by
  refine .bind (by rw [honly]; exact .ok _) fun _ _ => ?_
  refine .bind (readText_fails (by decide)) fun protocol _ => ?_
  split
  · exact invalid_fails rfl (by decide)
  refine .bind (readText_fails (by decide)) fun version _ => ?_
  split
  · exact invalid_fails rfl (by decide)
  refine .bind (readIdentifier_fails (by decide)) fun id hid => ?_
  have hown : id = (tryReadMessageId root).getD "invalid" := by
    have hrecovered : tryReadMessageId root = some id := (readIdentifier_ok hid).2.1
    rw [hrecovered, Option.getD_some]
  rw [← hown]
  refine .bind (readText_fails (by decide)) fun type _ => ?_
  split
  · refine invalidMessage_fails ?_
    have hfirst : "Expected a ".length = 11 := rfl
    have hlast : " message.".length = 9 := rfl
    rw [String.length_append, String.length_append]
    omega
  · exact .ok _

/-- The ids a rejection of the message may carry. -/
def Carried (root : JsonElement) (id : String) : Prop :=
  isIdentifier id = true ∨ recoversNewline root = true

theorem readHeader_carries {root : JsonElement} {expectedType : String} {fields : List String}
    (hlength : expectedType.length ≤ 64)
    (h : (stringProperty root "id").any newlineEnds = true → carriesOnly root fields = true →
      recoversNewline root = true) :
    Fails (Rejects (Carried root)) (readHeader root expectedType fields) := by
  cases honly : requireOnlyProperties root "message" fields "invalid" with
  | error e =>
    refine .bind (.mono (requireOnlyProperties_fails (by decide)) ?_) fun found hfound => ?_
    · exact Rejects.mono fun id hid => .inl (hid ▸ by decide)
    · rw [honly] at hfound
      cases hfound
  | ok found =>
    refine (readHeader_recovered hlength honly).mono (Rejects.mono fun id hid => ?_)
    by_cases hidentifier : isIdentifier id = true
    · exact .inl hidentifier
    · have hnot := Bool.eq_false_of_not_eq_true hidentifier
      refine .inr (h ?_ (by rw [carriesOnly, honly]; rfl))
      cases hrecovered : tryReadMessageId root with
      | none =>
        rw [hrecovered, Option.getD_none] at hid
        rw [hid] at hnot
        exact absurd hnot (by decide)
      | some own =>
        rw [hrecovered, Option.getD_some] at hid
        exact tryReadMessageId_newline hrecovered (hid ▸ hnot)

theorem readMessageType_ok {root : JsonElement} {type : String} :
    readMessageType root = .ok type ↔ stringProperty root "type" = some type := by
  unfold readMessageType stringProperty
  cases tryGetProperty root "type" with
  | none => simp [invalidMessage, invalid]
  | some value => cases value <;> simp [invalidMessage, invalid]

theorem Carried.own {root : JsonElement} {id : String} (h : isIdentifier id = true) {α : Type}
    {x : Parsed α} (hx : Fails (Rejects (· = id)) x) : Fails (Rejects (Carried root)) x :=
  hx.mono (Rejects.mono fun _ heq => .inl (heq ▸ h))

theorem parseCancel_carries {root : JsonElement}
    (htype : stringProperty root "type" = some "cancel") :
    Fails (Rejects (Carried root)) (parseCancel root) := by
  refine .bind (readHeader_carries (by decide) fun hid honly => ?_) fun id hid => ?_
  · simp [recoversNewline, hid, htype, honly]
  have hidentifier := (readHeader_ok hid).2.1
  refine .bind (Carried.own hidentifier (readIdentifier_fails (by decide))) fun requestId _ => ?_
  split
  · exact Carried.own hidentifier (invalidMessage_fails (by decide))
  · exact .bind (Carried.own hidentifier (readChoice_fails (by decide))) fun _ _ => .ok _

theorem parseRequest_carries {root : JsonElement}
    (htype : stringProperty root "type" = some "request") :
    Fails (fun e => Rejects (Carried root) e ∨ e = .invalidOperation) (parseRequest root) := by
  have hprotocol : ∀ {α : Type} {x : Parsed α}, Fails (Rejects (Carried root)) x →
      Fails (fun e => Rejects (Carried root) e ∨ e = .invalidOperation) x :=
    fun hx => hx.mono fun _ he => .inl he
  refine .bind (hprotocol (readHeader_carries (by decide) fun hid honly => ?_)) fun id hid => ?_
  · simp [recoversNewline, hid, htype, honly]
  have hidentifier := (readHeader_ok hid).2.1
  refine .bind (hprotocol (Carried.own hidentifier (requireObject_fails (by decide))))
    fun deadline _ => ?_
  refine .bind ((readInteger_fails (by decide)).mono fun e he => ?_) fun timeoutMs _ => ?_
  · rcases he with he | ⟨he, -⟩
    · exact .inl (Rejects.mono (fun _ heq => .inl (heq ▸ hidentifier)) e he)
    · exact .inr he
  refine .bind (hprotocol (Carried.own hidentifier (requireObject_fails (by decide))))
    fun callElement _ => ?_
  exact .bind (hprotocol (Carried.own hidentifier parseCall_fails)) fun _ _ => .ok _

theorem parseMessage_carries {root : JsonElement} :
    Fails (fun e => Rejects (Carried root) e ∨ e = .invalidOperation) (parseMessage root) := by
  have hmissing : Fails (Rejects (Carried root)) (readMessageType root) := by
    unfold readMessageType
    split
    · exact .ok _
    · exact invalid_fails (.inl (by decide)) (by decide)
  refine .bind (hmissing.mono fun e he => .inl he) fun type htype => ?_
  rw [readMessageType_ok] at htype
  by_cases hcancel : type = "cancel"
  · rw [if_pos hcancel]
    exact .map ((parseCancel_carries (hcancel ▸ htype)).mono fun e he => .inl he)
  rw [if_neg hcancel]
  by_cases hrequest : type = "request"
  · rw [if_neg (not_not.mpr hrequest)]
    exact .map (parseRequest_carries (hrequest ▸ htype))
  rw [if_pos hrequest]
  refine (invalid_fails ?_ (by decide)).mono fun e he => .inl he
  cases hrecovered : tryReadMessageId root with
  | none => exact .inl (by decide)
  | some id =>
    by_cases hidentifier : isIdentifier id = true
    · exact .inl hidentifier
    · have hid := tryReadMessageId_newline hrecovered (Bool.eq_false_of_not_eq_true hidentifier)
      exact .inr (by simp [recoversNewline, hid, htype, hcancel, hrequest])

/-- An id that is recovered and is none of the identifiers is in the rejection. -/
theorem parseMessage_recovered {root : JsonElement} (h : recoversNewline root = true) :
    ∃ exception, parseMessage root = .error (.protocol exception) ∧
      isIdentifier exception.requestId = false := by
  unfold recoversNewline at h
  rw [Bool.and_eq_true, Option.any_eq_true] at h
  obtain ⟨⟨id, hid, hnewline⟩, htype⟩ := h
  have hnot := newlineEnds_not_identifier hnewline
  have hrecovered : tryReadMessageId root = some id := by
    rw [tryReadMessageId_eq, hid, Option.filter_some, hnewline, Bool.or_true, if_pos rfl]
  -- no header is read under such an id, so every failure before its end carries it
  have hheader : ∀ (type : String) (fields : List String), type.length ≤ 64 →
      carriesOnly root fields = true → ∃ exception,
        readHeader root type fields = .error (.protocol exception) ∧ exception.requestId = id := by
    intro type fields hlength honly
    unfold carriesOnly at honly
    cases honly' : requireOnlyProperties root "message" fields "invalid" with
    | error e =>
      rw [honly'] at honly
      cases honly
    | ok found =>
      have hfails := readHeader_recovered hlength honly'
      rw [hrecovered, Option.getD_some] at hfails
      cases hread : readHeader root type fields with
      | ok id' =>
        obtain ⟨htry, hidentifier, -⟩ := readHeader_ok hread
        rw [hrecovered] at htry
        cases htry
        rw [hnot] at hidentifier
        cases hidentifier
      | error e =>
        have he := hfails e hread
        cases e with
        | protocol exception => exact ⟨exception, rfl, he.1⟩
        | invalidOperation => exact False.elim he
  cases hstring : stringProperty root "type" with
  | none =>
    rw [hstring] at htype
    cases htype
  | some type =>
    simp only [hstring] at htype
    have hread := readMessageType_ok.mpr hstring
    by_cases hcancel : type = "cancel"
    · rw [if_pos hcancel] at htype
      obtain ⟨exception, hfails, rfl⟩ := hheader "cancel" cancelFields (by decide) htype
      refine ⟨exception, ?_, hnot⟩
      simp [parseMessage, hread, hcancel, parseCancel, hfails, bind, Except.bind, Except.map]
    rw [if_neg hcancel] at htype
    by_cases hrequest : type = "request"
    · rw [if_pos hrequest] at htype
      obtain ⟨exception, hfails, rfl⟩ := hheader "request" requestFields (by decide) htype
      refine ⟨exception, ?_, hnot⟩
      simp [parseMessage, hread, hrequest, parseRequest, hfails, bind, Except.bind, Except.map]
    · refine ⟨⟨"invalid_message", .invalidRequest,
        "Clients may send only request or cancel frames.", id, none⟩, ?_, hnot⟩
      simp only [parseMessage, hread, bind, Except.bind, if_neg hcancel, if_pos hrequest,
        hrecovered, Option.getD_some]
      rfl

/-! ## The responses of a run -/

/-- A response to a message: what answers its request, or its rejection. -/
def AnswerFor (root : JsonElement) (response : Response ρ) : Prop :=
  (∃ request, parseMessage root = .ok (.request request) ∧ Answers request response) ∨
    ∃ exception, parseMessage root = .error (.protocol exception) ∧
      response = rejection exception none

/-- A line was parsed to the request. -/
def LineRequest (lines : List JsonElement) (line : Nat) (request : Request) : Prop :=
  ∃ root, lines[line]? = some root ∧ parseMessage root = .ok (.request request)

def LineAnswer (lines : List JsonElement) (line : Nat) (response : Response ρ) : Prop :=
  ∃ root, lines[line]? = some root ∧ AnswerFor root response

def ReaderAnswers (lines : List JsonElement) : Reader ρ → Prop
  | .reading | .addingLegacy | .cancelling _ _ | .closed => True
  | .checking line root => lines[line]? = some root
  | .preparing line _ request | .adding line request => LineRequest lines line request
  | .rejecting line _ exception parsedRequest =>
    LineAnswer lines line (rejection exception parsedRequest : Response ρ)
  | .answering line response => LineAnswer lines line response

def ItemAnswers (lines : List JsonElement) : InboundItem ρ → Prop
  | .legacy => True
  | .native line request => LineRequest lines line request
  | .response line response => LineAnswer lines line response

def DispatcherAnswers (lines : List JsonElement) : Dispatcher ρ → Prop
  | .waiting | .releasing _ _ | .crashed => True
  | .taken item => ItemAnswers lines item
  | .writing line _ response => LineAnswer lines line response

/-- Every response of the host is for a line it accepted. -/
structure Answering (s : NdjsonHost ρ) : Prop where
  accepted : ∀ root ∈ s.lines, ingestFrame root = .native
  reader : ReaderAnswers s.lines s.reader
  dispatcher : DispatcherAnswers s.lines s.dispatcher
  queued : ∀ item ∈ s.inbound, ItemAnswers s.lines item
  frames : ∀ frame ∈ s.output, LineAnswer s.lines frame.line frame.response

section Lines

variable {lines : List JsonElement} {root : JsonElement} {line : Nat}

theorem line_mono {old : JsonElement} (h : lines[line]? = some old) :
    (lines ++ [root])[line]? = some old := by
  rw [List.getElem?_append_left (List.getElem?_eq_some_iff.mp h).1]
  exact h

theorem LineRequest.mono {request : Request} (h : LineRequest lines line request) :
    LineRequest (lines ++ [root]) line request := by
  obtain ⟨old, hold, hparse⟩ := h
  exact ⟨old, line_mono hold, hparse⟩

theorem LineAnswer.mono {response : Response ρ} (h : LineAnswer lines line response) :
    LineAnswer (lines ++ [root]) line response := by
  obtain ⟨old, hold, hanswer⟩ := h
  exact ⟨old, line_mono hold, hanswer⟩

theorem ItemAnswers.mono {item : InboundItem ρ} (h : ItemAnswers lines item) :
    ItemAnswers (lines ++ [root]) item := by
  cases item with
  | legacy => trivial
  | native line request => exact LineRequest.mono h
  | response line response => exact LineAnswer.mono h

theorem DispatcherAnswers.mono {dispatcher : Dispatcher ρ} (h : DispatcherAnswers lines dispatcher) :
    DispatcherAnswers (lines ++ [root]) dispatcher := by
  cases dispatcher with
  | taken item => exact ItemAnswers.mono h
  | writing line request response => exact LineAnswer.mono h
  | _ => trivial

end Lines

section Steps

variable {s s' : NdjsonHost ρ}

theorem answering_initial : Answering (initial ρ) where
  accepted _ hroot := absurd hroot List.not_mem_nil
  reader := trivial
  dispatcher := trivial
  queued _ hitem := absurd hitem List.not_mem_nil
  frames _ hframe := absurd hframe List.not_mem_nil

/-- The reader moves on, with what it puts into the queue. -/
theorem Answering.move (h : Answering s) (reader : Reader ρ) (hreader : ReaderAnswers s.lines reader)
    (outstanding : OrderedMap String Nat) (verdicts : List (Verdict ρ))
    (items : List (InboundItem ρ)) (hitems : ∀ item ∈ items, ItemAnswers s.lines item) :
    Answering { s with outstanding, verdicts, reader, inbound := s.inbound ++ items } where
  accepted := h.accepted
  reader := hreader
  dispatcher := h.dispatcher
  queued item hitem := by
    rcases List.mem_append.mp hitem with hitem | hitem
    · exact h.queued item hitem
    · exact hitems item hitem
  frames := h.frames

/-- The reader moves on without putting anything into the queue. -/
theorem Answering.pass (h : Answering s) (reader : Reader ρ) (hreader : ReaderAnswers s.lines reader)
    (outstanding : OrderedMap String Nat) (verdicts : List (Verdict ρ)) :
    Answering { s with outstanding, verdicts, reader } where
  accepted := h.accepted
  reader := hreader
  dispatcher := h.dispatcher
  queued := h.queued
  frames := h.frames

theorem Answering.readLine (h : Answering s) (line : WireLine) : Answering (s.readLine line) := by
  cases line with
  | blank => exact h
  | document root =>
    rw [NdjsonHost.readLine]
    split
    · exact h.pass .closed trivial s.outstanding s.verdicts
    · exact h.pass .addingLegacy trivial s.outstanding s.verdicts
    · rename_i hnative
      exact
        { accepted := fun old hold => by
            rcases List.mem_append.mp hold with hold | hnew
            · exact h.accepted old hold
            · rw [List.mem_singleton.mp hnew]
              exact hnative
          reader := List.getElem?_concat_length
          dispatcher := h.dispatcher.mono
          queued := fun item hitem => (h.queued item hitem).mono
          frames := fun frame hframe => (h.frames frame hframe).mono }
  | _ => exact h.pass .closed trivial s.outstanding s.verdicts

theorem Answering.check (h : Answering s) {line : Nat} {root : JsonElement}
    (hline : s.lines[line]? = some root) : Answering (s.check line root) := by
  simp only [NdjsonHost.check]
  split
  · exact h.pass .closed trivial s.outstanding _
  split
  · rename_i cancel _
    exact h.pass (.cancelling line cancel) trivial s.outstanding s.verdicts
  · rename_i request hparse
    exact h.pass (.preparing line (tryReadMessageId root) request) ⟨root, hline, hparse⟩
      s.outstanding s.verdicts
  · rename_i exception hparse
    have hanswer : AnswerFor root (rejection (ρ := ρ) exception none) :=
      .inr ⟨exception, hparse, rfl⟩
    exact h.pass (.rejecting line (tryReadMessageId root) exception none) ⟨root, hline, hanswer⟩
      s.outstanding s.verdicts
  · exact h.pass .closed trivial s.outstanding _

theorem Answering.advanceReader (h : Answering s) (hstep : s.advanceReader = some s') :
    Answering s' := by
  have hreader := h.reader
  unfold NdjsonHost.advanceReader at hstep
  cases hcase : s.reader with
  | reading =>
    rw [hcase] at hstep
    cases hstep
  | closed =>
    rw [hcase] at hstep
    cases hstep
  | addingLegacy =>
    rw [hcase] at hstep
    cases hstep
    refine h.move .reading trivial s.outstanding s.verdicts [.legacy] fun item hitem => ?_
    rw [List.mem_singleton.mp hitem]
    trivial
  | checking line root =>
    rw [hcase] at hstep hreader
    cases hstep
    exact h.check hreader
  | cancelling line cancel =>
    rw [hcase] at hstep
    cases hstep
    exact h.pass .reading trivial s.outstanding _
  | preparing line candidateId request =>
    rw [hcase] at hstep hreader
    cases hstep
    obtain ⟨root, hline, hparse⟩ := hreader
    unfold NdjsonHost.prepare
    split
    · exact h.pass (.rejecting line candidateId _ (some request))
        ⟨root, hline, .inl ⟨request, hparse, conflict_answers rfl⟩⟩ s.outstanding s.verdicts
    · exact h.pass (.adding line request) ⟨root, hline, hparse⟩ _ s.verdicts
  | adding line request =>
    rw [hcase] at hstep hreader
    cases hstep
    refine h.move .reading trivial s.outstanding _ [.native line request] fun item hitem => ?_
    rw [List.mem_singleton.mp hitem]
    exact hreader
  | rejecting line candidateId exception parsedRequest =>
    rw [hcase] at hstep hreader
    cases hstep
    simp only [NdjsonHost.reject]
    split
    · exact h.pass .closed trivial s.outstanding _
    · exact h.pass (.answering line (rejection exception parsedRequest)) hreader s.outstanding
        s.verdicts
  | answering line response =>
    rw [hcase] at hstep hreader
    cases hstep
    refine h.move .closed trivial s.outstanding _ [.response line response] fun item hitem => ?_
    rw [List.mem_singleton.mp hitem]
    exact hreader

theorem releaseOutstanding_eq (line : Nat) (request : Request) :
    ∃ outstanding, s.releaseOutstanding line request = { s with outstanding } := by
  unfold NdjsonHost.releaseOutstanding
  split
  · exact ⟨_, rfl⟩
  · exact ⟨s.outstanding, rfl⟩

/-- The dispatcher moves on without writing. -/
theorem Answering.dispatch (h : Answering s) (dispatcher : Dispatcher ρ)
    (hdispatcher : DispatcherAnswers s.lines dispatcher) (outstanding : OrderedMap String Nat)
    (sessions : WindowsDispatcher.Sessions) (usedOperationIds : Finset String) :
    Answering { s with outstanding, sessions, usedOperationIds, dispatcher } where
  accepted := h.accepted
  reader := h.reader
  dispatcher := hdispatcher
  queued := h.queued
  frames := h.frames

theorem Answering.write (h : Answering s) {line : Nat} {response : Response ρ}
    (hanswer : LineAnswer s.lines line response) {dispatcher : Dispatcher ρ}
    (hdispatcher : DispatcherAnswers s.lines dispatcher) :
    Answering { s.write line response with dispatcher := dispatcher } where
  accepted := h.accepted
  reader := h.reader
  dispatcher := hdispatcher
  queued := h.queued
  frames frame hframe := by
    rcases List.mem_append.mp hframe with hold | hnew
    · exact h.frames frame hold
    · rw [List.mem_singleton.mp hnew]
      exact hanswer

theorem Answering.execute (h : Answering s) (host : WindowsHost JsonElement l ρ) {line : Nat}
    {request : Request} (hrequest : LineRequest s.lines line request) (reads : Reads ρ) :
    Answering (s.execute host line request reads) := by
  obtain ⟨root, hline, hparse⟩ := hrequest
  simp only [NdjsonHost.execute]
  split
  · rename_i response hpublished
    have hanswer : LineAnswer s.lines line response :=
      ⟨root, hline, .inl ⟨request, hparse, published_answers hpublished⟩⟩
    exact h.dispatch (.writing line request response) hanswer s.outstanding _ _
  · unfold NdjsonHost.releaseOutstanding
    split
    · exact h.dispatch .crashed trivial _ _ _
    · exact h.dispatch .crashed trivial s.outstanding _ _

theorem Answering.advanceDispatcher (h : Answering s) (host : WindowsHost JsonElement l ρ)
    {reads : Reads ρ} (hstep : s.advanceDispatcher host reads = some s') : Answering s' := by
  have hdispatcher := h.dispatcher
  unfold NdjsonHost.advanceDispatcher at hstep
  cases hcase : s.dispatcher with
  | waiting =>
    rw [hcase] at hstep
    cases hinbound : s.inbound with
    | nil =>
      rw [hinbound] at hstep
      cases hstep
    | cons item rest =>
      rw [hinbound] at hstep
      cases hstep
      have hitem : ItemAnswers s.lines item := h.queued item (by rw [hinbound]; exact List.mem_cons_self)
      exact
        { accepted := h.accepted
          reader := h.reader
          dispatcher := hitem
          queued := fun item' hitem' => h.queued item' (by
            rw [hinbound]
            exact List.mem_cons_of_mem _ hitem')
          frames := h.frames }
  | taken item =>
    rw [hcase] at hstep hdispatcher
    cases item with
    | legacy =>
      cases hstep
      exact h.dispatch .waiting trivial s.outstanding s.sessions s.usedOperationIds
    | native line request =>
      cases hstep
      exact h.execute host hdispatcher reads
    | response line response =>
      dsimp only at hstep
      split at hstep
      · cases hstep
        exact h.write hdispatcher trivial
      · cases hstep
        exact h.dispatch .crashed trivial s.outstanding s.sessions s.usedOperationIds
  | writing line request response =>
    rw [hcase] at hstep hdispatcher
    cases hstep
    exact h.write hdispatcher trivial
  | releasing line request =>
    rw [hcase] at hstep
    cases hstep
    obtain ⟨outstanding, heq⟩ := releaseOutstanding_eq (s := s) line request
    rw [heq]
    exact h.dispatch .waiting trivial outstanding s.sessions s.usedOperationIds
  | crashed =>
    rw [hcase] at hstep
    cases hstep

theorem answering_invariant (host : WindowsHost JsonElement l ρ) :
    (ndjsonHost host).Invariant Answering where
  init := by
    intro s hs
    cases hs
    exact answering_initial
  step := by
    intro s event s' _ h hstep
    cases event with
    | read line =>
      have hstep : WindowsIngest.next host s (.read line) = some s' := hstep
      simp only [WindowsIngest.next] at hstep
      split at hstep
      · cases hstep
        exact h.readLine line
      · cases hstep
    | reader => exact h.advanceReader hstep
    | dispatcher reads => exact h.advanceDispatcher host hstep

end Steps

/-! ## What a client can rely on -/

/-- A response made for a line: written, about to be, or waiting in the queue. -/
def Produced (s : NdjsonHost ρ) (line : Nat) (response : Response ρ) : Prop :=
  ⟨line, response⟩ ∈ s.output ∨ (∃ request, s.dispatcher = .writing line request response) ∨
    s.dispatcher = .taken (.response line response) ∨ .response line response ∈ s.inbound

theorem Answering.produced {s : NdjsonHost ρ} (h : Answering s) {line : Nat} {response : Response ρ}
    (hproduced : Produced s line response) : LineAnswer s.lines line response := by
  have hdispatcher := h.dispatcher
  rcases hproduced with hwritten | ⟨request, hwriting⟩ | htaken | hqueued
  · exact h.frames _ hwritten
  · rw [hwriting] at hdispatcher
    exact hdispatcher
  · rw [htaken] at hdispatcher
    exact hdispatcher
  · exact h.queued _ hqueued

/-- The response has an id clients may use, that of the message or `invalid`, and when
the message is a request the client takes it for an answer. -/
structure Addressable (root : JsonElement) (response : Response ρ) : Prop where
  identifier : wireIdentifier response.id = true
  own : stringProperty root "id" = some response.id ∨ response.id = "invalid"
  answers : ∀ request, parseMessage root = .ok (.request request) →
    ∃ wire, wireResponse response = some wire ∧ validateResponseForRequest request wire = none

theorem recovered_own {root : JsonElement} {id : String} (h : tryReadMessageId root = some id) :
    stringProperty root "id" = some id := by
  rw [tryReadMessageId_eq, Option.filter_eq_some_iff] at h
  exact h.1

theorem AnswerFor.addressable_iff {root : JsonElement} {response : Response ρ}
    (h : AnswerFor root response) : Addressable root response ↔ recoversNewline root = false := by
  constructor
  · intro haddressable
    by_contra hnewline
    obtain ⟨exception, hparse, hnot⟩ :=
      parseMessage_recovered (Bool.eq_true_of_not_eq_false hnewline)
    rcases h with ⟨request, hrequest, -⟩ | ⟨exception', hparse', rfl⟩
    · rw [hparse] at hrequest
      cases hrequest
    · rw [hparse] at hparse'
      cases hparse'
      have hidentifier := haddressable.identifier
      rw [wireIdentifier_eq] at hidentifier
      exact absurd (hidentifier.symm.trans hnot) (by decide)
  · intro hnewline
    rcases h with ⟨request, hparse, hanswers⟩ | ⟨exception, hparse, rfl⟩
    · obtain ⟨hrecovered, -, hidentifier⟩ := parseMessage_request hparse
      have hid : response.id = request.id := hanswers.addressed.1
      refine ⟨?_, .inl (hid ▸ recovered_own hrecovered), fun request' hparse' => ?_⟩
      · rw [wireIdentifier_eq, hid]
        exact hidentifier
      · rw [hparse] at hparse'
        cases hparse'
        exact hanswers.validates
    · refine ⟨?_, ?_, fun request hrequest => ?_⟩
      · rw [wireIdentifier_eq]
        rcases parseMessage_carries _ hparse with ⟨hid | hrecovers, -⟩ | hleak
        · exact hid
        · rw [hrecovers] at hnewline
          cases hnewline
        · cases hleak
      · rcases parseMessage_fails _ hparse with ⟨hid | hid, -⟩ | ⟨hleak, -⟩
        · exact .inr hid
        · exact .inl (recovered_own hid)
        · cases hleak
      · rw [hparse] at hrequest
        cases hrequest

/-- The responses of every run are addressed to their lines, but for those whose id has a
newline behind it when their type is read and the rest of them is not. -/
theorem windows_responses_addressable (host : WindowsHost JsonElement l ρ) (s : NdjsonHost ρ)
    (hs : (ndjsonHost host).Reachable s) (line : Nat) (response : Response ρ)
    (hproduced : Produced s line response) :
    ∃ root, s.lines[line]? = some root ∧ ingestFrame root = .native ∧
      (Addressable root response ↔ recoversNewline root = false) := by
  have h := (answering_invariant host).reachable hs
  obtain ⟨root, hline, hanswer⟩ := h.produced hproduced
  exact ⟨root, hline, h.accepted root (List.mem_of_getElem? hline), hanswer.addressable_iff⟩

/-- The rejected line of the served host. -/
theorem servedHost_addressable : ∃ response root, Produced servedHost 2 response ∧
    response.id = "r2" ∧ servedHost.lines[2]? = some root ∧ ingestFrame root = .native ∧
    (Addressable root response ↔ recoversNewline root = false) := by
  have hreach : (ndjsonHost demoHost).Reachable servedHost := System.Reachable.of_restrict
    (System.reachable_restrict_of_replay demoEvents (.init rfl) (Option.some_get _).symm)
  have hrest : (servedHost.output.drop 1).map (fun frame => (frame.line, frame.response.id)) =
      [(2, "r2")] := by decide +kernel
  obtain ⟨frame, hframe, hwritten⟩ := List.map_eq_singleton_iff.mp hrest
  obtain ⟨hline, hid⟩ := Prod.mk.inj hwritten
  have hmem : frame ∈ servedHost.output :=
    List.mem_of_mem_drop (hframe ▸ List.mem_singleton_self frame)
  have hproduced : Produced servedHost 2 frame.response := .inl (hline ▸ hmem)
  obtain ⟨root, hroot⟩ :=
    windows_responses_addressable demoHost servedHost hreach 2 frame.response hproduced
  exact ⟨frame.response, root, hproduced, hid, hroot⟩

def versionLine (id : String) : JsonElement :=
  .object [("protocol", .string nativeProtocolName), ("version", .string "2.0"),
    ("id", .string id), ("type", .string "request")]

/-- A message of another version whose id has a newline behind it. -/
def newlineEvents : List (Event Unit) :=
  [.read (.document (versionLine "abc\n")), .reader, .reader, .reader, .dispatcher demoReads,
    .dispatcher demoReads]

def newlineHost : NdjsonHost Unit :=
  (System.replay (next demoHost) (initial Unit) newlineEvents).get (by decide +kernel)

theorem newline_id_answered : ∃ s, (ndjsonHost demoHost).Reachable s ∧
    s.lines = [versionLine "abc\n"] ∧ ∃ response, Produced s 0 response ∧
      response.id = "abc\n" ∧ wireIdentifier response.id = false ∧
      ¬ Addressable (versionLine "abc\n") response := by
  have hreach : (ndjsonHost demoHost).Reachable newlineHost :=
    System.reachable_of_replay (Option.some_get _).symm
  have houtput : newlineHost.output.map (fun frame => (frame.line, frame.response.id)) =
      [(0, "abc\n")] := by decide +kernel
  obtain ⟨frame, hframe, hwritten⟩ := List.map_eq_singleton_iff.mp houtput
  obtain ⟨hline, hid⟩ := Prod.mk.inj hwritten
  have hnot : wireIdentifier frame.response.id = false := by
    rw [hid]
    decide
  refine ⟨newlineHost, hreach, rfl, frame.response, .inl ?_, hid, hnot, fun h => ?_⟩
  · rw [hframe, ← hline]
    exact List.mem_singleton_self _
  · rw [h.identifier] at hnot
    cases hnot

end SurfaceLoom.Native.WindowsAddresses
