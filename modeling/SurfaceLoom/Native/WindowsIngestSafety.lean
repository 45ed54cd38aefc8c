import SurfaceLoom.Native.WindowsIngest
import SurfaceLoom.Native.WindowsParserErrors

/-! # Every native line is answered once

The answers, written and waiting, are those of the answered lines in the order in
which the lines arrived: the queue is first in first out, and only the reader decides
what a line gets. -/
namespace SurfaceLoom.Native.WindowsIngestSafety
open SurfaceLoom.Lib SurfaceLoom.Lib.Transition SurfaceLoom.Lib.Checked SurfaceLoom.Native.Wire
open SurfaceLoom.Native.WindowsParser SurfaceLoom.Native.WindowsParserErrors
open SurfaceLoom.Native.WindowsIngest
open SurfaceLoom.Native.WindowsDispatcher (WireResult WindowsHost Reads Sessions executeCore outbound
  outboundFailure fitting Addressed executeCore_addressed outbound_addressed)

variable {l ρ : Type}

/-! ## The serializer -/

def textLength (response : Response ρ) : Nat :=
  response.id.length + (response.error.elim 0 fun error => error.code.length + error.message.length) +
    response.operation.elim 0 fun receipt => receipt.operationID.length

/-- The JSON serializer writes at most six bytes for one UTF-16 unit, so a response
without a result and with short texts is far below the limit of a frame. -/
def FitsBoundedTexts (host : WindowsHost JsonElement l ρ) : Prop :=
  ∀ response, response.result = none → textLength response ≤ 4096 → host.serializes response = true

/-- The ids of a request are wire identifiers. -/
def Bounded (request : Request) : Prop :=
  request.id.length ≤ 128 ∧ ∀ id ∈ request.call.operationID, id.length ≤ 128

theorem outboundFailure_fits {host : WindowsHost JsonElement l ρ} (hfits : FitsBoundedTexts host)
    {request : Request} (hbounded : Bounded request) {original : Response ρ}
    (horiginal : Addressed request original) (code : String) (category : NativeErrorCategory)
    (message : String) (htexts : code.length + message.length ≤ 256) :
    host.serializes (outboundFailure request original code category message) = true := by
  refine hfits _ rfl ?_
  have hreceipt : (original.operation.elim 0 fun receipt => receipt.operationID.length) ≤ 128 := by
    cases hop : original.operation with
    | none => exact Nat.zero_le _
    | some receipt =>
      have hid := horiginal.2
      rw [hop] at hid
      exact hbounded.2 _ hid.symm
  have hid := hbounded.1
  show request.id.length + (code.length + message.length) +
    (original.operation.elim 0 fun receipt => receipt.operationID.length) ≤ 4096
  omega

/-- No exception escapes an execution. -/
theorem outbound_isSome {host : WindowsHost JsonElement l ρ} (hfits : FitsBoundedTexts host)
    {request : Request} (hbounded : Bounded request) {response : Response ρ}
    (hresponse : Addressed request response) (remaining : Nat) :
    ∃ published, outbound host request remaining response = some published := by
  have hfitting : ∃ fitted, fitting host request response = some fitted ∧ Addressed request fitted := by
    unfold fitting
    split
    · exact ⟨response, rfl, hresponse⟩
    · have hsmall := outboundFailure_fits hfits hbounded hresponse "response_too_large" .internal
        "The native response exceeded its bounded wire contract." (by decide)
      exact ⟨_, if_pos hsmall, WindowsDispatcher.outboundFailure_addressed hresponse⟩
  obtain ⟨fitted, hfitted, haddressed⟩ := hfitting
  unfold outbound
  rw [hfitted, Option.bind_some]
  split
  · have hlate := outboundFailure_fits hfits hbounded haddressed "deadline_exceeded" .deadline
      "The response could not be constructed within its deadline." (by decide)
    exact ⟨_, if_pos hlate⟩
  · exact ⟨_, rfl⟩

/-! ## What the parser says of a line -/

theorem parseCall_operationID {call : JsonElement} {requestId : String}
    {parsed : NativeCall JsonElement} (h : parseCall call requestId = .ok parsed) :
    ∀ id ∈ parsed.operationID, id.length ≤ 128 := by
  obtain ⟨name, -, h⟩ := bind_ok.mp h
  split at h
  · cases h
  obtain ⟨intent, -, h⟩ := bind_ok.mp h
  obtain ⟨scopeElement, -, h⟩ := bind_ok.mp h
  obtain ⟨scope, -, h⟩ := bind_ok.mp h
  split at h
  · obtain ⟨operationID, hoperation, h⟩ := bind_ok.mp h
    have hlength : ∀ id ∈ operationID, id.length ≤ 128 := by
      intro id hid
      unfold readOperationId at hoperation
      split at hoperation
      · cases hoperation
        cases hid
      · obtain ⟨id', hread, heq⟩ := map_ok.mp hoperation
        subst heq
        cases hid
        exact isIdentifier_length (readIdentifier_ok hread).2.2
    split at h
    · cases h
    split at h
    · cases h
    split at h
    · cases h
    split at h
    · cases h
    split at h
    · cases h
    · cases h
      exact hlength
  · cases h

/-- A parsed request carries the id the line was looked up under. -/
theorem parseMessage_request {root : JsonElement} {request : Request}
    (h : parseMessage root = .ok (.request request)) :
    tryReadMessageId root = some request.id ∧ Bounded request ∧ isIdentifier request.id = true := by
  obtain ⟨type, -, h⟩ := bind_ok.mp h
  split at h
  · obtain ⟨cancel, -, heq⟩ := map_ok.mp h
    cases heq
  split at h
  · cases h
  · obtain ⟨request', hrequest, heq⟩ := map_ok.mp h
    cases heq
    obtain ⟨id, hid, h⟩ := bind_ok.mp hrequest
    obtain ⟨deadline, -, h⟩ := bind_ok.mp h
    obtain ⟨timeoutMs, -, h⟩ := bind_ok.mp h
    obtain ⟨callElement, -, h⟩ := bind_ok.mp h
    obtain ⟨call, hcall, h⟩ := bind_ok.mp h
    cases h
    obtain ⟨htry, hidentifier, -⟩ := readHeader_ok hid
    exact ⟨htry, ⟨isIdentifier_length hidentifier, parseCall_operationID hcall⟩, hidentifier⟩

theorem parseMessage_fails {root : JsonElement} :
    Fails (fun e => Rejects (FrameId root) e ∨ e = .invalidOperation ∧ timeoutNotNumber root = true)
      (parseMessage root) := by
  have htype : Fails (Rejects (FrameId root)) (readMessageType root) := by
    unfold readMessageType
    split
    · exact .ok _
    · exact invalid_fails (.inl rfl) (by decide)
  refine .bind (htype.mono fun e he => .inl he) fun type _ => ?_
  split
  · exact .map (parseCancel_fails.mono fun e he => .inl he)
  split
  · have hframe : FrameId root ((tryReadMessageId root).getD "invalid") := by
      cases hid : tryReadMessageId root with
      | none => exact .inl rfl
      | some id => exact .inr hid
    exact (invalid_fails hframe (by decide)).mono fun e he => .inl he
  · exact .map parseRequest_fails

theorem rejection_fits {host : WindowsHost JsonElement l ρ} (hfits : FitsBoundedTexts host)
    {root : JsonElement} {exception : NativeV1ProtocolException}
    (h : parseMessage root = .error (.protocol exception)) :
    host.serializes (rejection exception none) = true := by
  rcases parseMessage_fails _ h with ⟨hid, htexts⟩ | ⟨hleak, -⟩
  · refine hfits _ rfl ?_
    have hlength := hid.length
    show exception.requestId.length + (exception.code.length + exception.message.length) + 0 ≤ 4096
    omega
  · cases hleak

/-! ## The answered lines -/

def answerable : Verdict ρ → Bool
  | .admitted _ | .rejected _ => true
  | .cancelled _ | .unanswered _ | .leaked => false

/-- The numbers of the lines that are answered, in the order of the lines. -/
def answeredLines (verdicts : List (Verdict ρ)) : List Nat :=
  (List.range verdicts.length).filter fun n => verdicts[n]?.any answerable

theorem answeredLines_snoc (verdicts : List (Verdict ρ)) (verdict : Verdict ρ) :
    answeredLines (verdicts ++ [verdict]) =
      answeredLines verdicts ++ if answerable verdict then [verdicts.length] else [] := by
  unfold answeredLines
  rw [List.length_append, List.length_singleton, List.range_succ, List.filter_append]
  congr 1
  · refine List.filter_congr fun n hn => ?_
    rw [List.getElem?_append_left (List.mem_range.mp hn)]
  · rw [List.filter_singleton, List.getElem?_concat_length]
    exact Bool.cond_eq_ite ..

theorem mem_answeredLines {verdicts : List (Verdict ρ)} {n : Nat} :
    n ∈ answeredLines verdicts ↔ ∃ verdict, verdicts[n]? = some verdict ∧ answerable verdict = true := by
  unfold answeredLines
  rw [List.mem_filter, Option.any_eq_true]
  refine ⟨fun h => h.2, fun ⟨verdict, hverdict, hanswer⟩ => ⟨?_, verdict, hverdict, hanswer⟩⟩
  exact List.mem_range.mpr (List.getElem?_eq_some_iff.mp hverdict).1

theorem answeredLines_sorted (verdicts : List (Verdict ρ)) :
    (answeredLines verdicts).Pairwise (· < ·) :=
  List.pairwise_lt_range.filter _

def itemLine : InboundItem ρ → Option Nat
  | .legacy => none
  | .native line _ | .response line _ => some line

/-- The line the dispatcher has taken and not written the answer of. -/
def currentLine : Dispatcher ρ → List Nat
  | .taken item => (itemLine item).toList
  | .writing line _ _ => [line]
  | .waiting | .releasing _ _ | .crashed => []

/-- The lines whose answers are not written, in the order they will be. -/
def waitingLines (s : NdjsonHost ρ) : List Nat :=
  currentLine s.dispatcher ++ s.inbound.filterMap itemLine

/-! ## The invariant -/

/-- What the end of a line's ingestion says of the line. -/
def Explains (root : JsonElement) : Verdict ρ → Prop
  | .cancelled cancel => parseMessage root = .ok (.cancel cancel)
  | .admitted request => parseMessage root = .ok (.request request)
  | .rejected response => ∃ exception, parseMessage root = .error (.protocol exception) ∧
    response = rejection exception none
  | .unanswered id => tryReadMessageId root = some id
  | .leaked => False

/-- A verdict after which the reader reads nothing more. -/
def closes : Verdict ρ → Bool
  | .rejected _ | .unanswered _ | .leaked => true
  | .cancelled _ | .admitted _ => false

/-- The reader works on the last line, which has no verdict yet. -/
def OnLine (s : NdjsonHost ρ) (line : Nat) (root : JsonElement) : Prop :=
  line = s.verdicts.length ∧ s.lines.length = s.verdicts.length + 1 ∧ s.lines[line]? = some root

def ReaderSound (s : NdjsonHost ρ) : Reader ρ → Prop
  | .reading | .addingLegacy | .closed => s.lines.length = s.verdicts.length
  | .checking line root => OnLine s line root
  | .cancelling line cancel => ∃ root, OnLine s line root ∧ parseMessage root = .ok (.cancel cancel)
  | .preparing line _ request => ∃ root, OnLine s line root ∧
    parseMessage root = .ok (.request request) ∧ s.isOutstanding request.id = false
  | .adding line request => ∃ root, OnLine s line root ∧ parseMessage root = .ok (.request request)
  | .rejecting line candidateId exception parsedRequest => ∃ root, OnLine s line root ∧
    parseMessage root = .error (.protocol exception) ∧ candidateId = tryReadMessageId root ∧
    (∀ id ∈ candidateId, s.isOutstanding id = false) ∧ parsedRequest = none
  | .answering line response => ∃ root exception, OnLine s line root ∧
    parseMessage root = .error (.protocol exception) ∧ response = rejection exception none

def ItemSound (verdicts : List (Verdict ρ)) : InboundItem ρ → Prop
  | .legacy => True
  | .native line request => verdicts[line]? = some (.admitted request)
  | .response line response => verdicts[line]? = some (.rejected response)

def DispatcherSound (verdicts : List (Verdict ρ)) : Dispatcher ρ → Prop
  | .waiting => True
  | .taken item => ItemSound verdicts item
  | .writing line request response =>
    verdicts[line]? = some (.admitted request) ∧ response.id = request.id
  | .releasing line request => verdicts[line]? = some (.admitted request)
  | .crashed => False

/-- A frame answers the request of its line, or is the rejection of its line. -/
def FrameSound (verdicts : List (Verdict ρ)) (frame : Frame ρ) : Prop :=
  (∃ request, verdicts[frame.line]? = some (.admitted request) ∧ frame.response.id = request.id) ∨
    verdicts[frame.line]? = some (.rejected frame.response)

/-- An outstanding id belongs to an admitted request whose registration is not released,
or to the one the reader is about to queue. -/
def Registered (s : NdjsonHost ρ) (id : String) (line : Nat) : Prop :=
  (∃ request, request.id = id ∧ s.verdicts[line]? = some (.admitted request) ∧
    (line ∈ waitingLines s ∨ s.dispatcher = .releasing line request)) ∨
  ∃ request, request.id = id ∧ s.reader = .adding line request

structure Safe (s : NdjsonHost ρ) : Prop where
  reader : ReaderSound s s.reader
  dispatcher : DispatcherSound s.verdicts s.dispatcher
  queued : ∀ item ∈ s.inbound, ItemSound s.verdicts item
  explained : ∀ (n : Nat) root verdict, s.lines[n]? = some root →
    s.verdicts[n]? = some verdict → Explains root verdict
  closing : ∀ (n : Nat) verdict, s.verdicts[n]? = some verdict → closes verdict = true →
    s.reader = .closed ∧ n + 1 = s.verdicts.length
  frames : ∀ frame ∈ s.output, FrameSound s.verdicts frame
  fifo : s.output.map Frame.line ++ waitingLines s = answeredLines s.verdicts
  registered : ∀ id line, s.outstanding.get? id = some line → Registered s id line

theorem verdict_mono {verdicts : List (Verdict ρ)} {verdict old : Verdict ρ} {n : Nat}
    (h : verdicts[n]? = some old) : (verdicts ++ [verdict])[n]? = some old := by
  rw [List.getElem?_append_left (List.getElem?_eq_some_iff.mp h).1]
  exact h

theorem ItemSound.mono {verdicts : List (Verdict ρ)} {verdict : Verdict ρ} {item : InboundItem ρ}
    (h : ItemSound verdicts item) : ItemSound (verdicts ++ [verdict]) item := by
  cases item with
  | legacy => trivial
  | native line request => exact verdict_mono h
  | response line response => exact verdict_mono h

theorem DispatcherSound.mono {verdicts : List (Verdict ρ)} {verdict : Verdict ρ}
    {dispatcher : Dispatcher ρ} (h : DispatcherSound verdicts dispatcher) :
    DispatcherSound (verdicts ++ [verdict]) dispatcher := by
  cases dispatcher with
  | waiting => trivial
  | taken item => exact ItemSound.mono h
  | writing line request response => exact ⟨verdict_mono h.1, h.2⟩
  | releasing line request => exact verdict_mono h
  | crashed => exact h

theorem FrameSound.mono {verdicts : List (Verdict ρ)} {verdict : Verdict ρ} {frame : Frame ρ}
    (h : FrameSound verdicts frame) : FrameSound (verdicts ++ [verdict]) frame := by
  rcases h with ⟨request, hrequest, hid⟩ | h
  · exact .inl ⟨request, verdict_mono hrequest, hid⟩
  · exact .inr (verdict_mono h)

/-! ## The reader's steps -/

section Reader

variable {s : NdjsonHost ρ} {reader' : Reader ρ}

/-- The reader goes on with its line. -/
theorem Safe.move (h : Safe s) (hopen : s.reader ≠ .closed)
    (hadding : ∀ line request, s.reader ≠ .adding line request) (hreader : ReaderSound s reader') :
    Safe { s with reader := reader' } where
  reader := by
    cases reader' <;> exact hreader
  dispatcher := h.dispatcher
  queued := h.queued
  explained := h.explained
  closing n verdict hn hcloses := absurd (h.closing n verdict hn hcloses).1 hopen
  frames := h.frames
  fifo := h.fifo
  registered id line hid := by
    rcases h.registered id line hid with hadmitted | ⟨request, -, hreader⟩
    · exact .inl hadmitted
    · exact absurd hreader (hadding line request)

/-- The reader ends the ingestion of its line, with what it puts into the queue. -/
theorem Safe.conclude (h : Safe s) (hopen : s.reader ≠ .closed) {line : Nat} {root : JsonElement}
    (hline : OnLine s line root) {verdict : Verdict ρ} (hexplains : Explains root verdict)
    (hreader : reader' = .reading ∧ closes verdict = false ∨ reader' = .closed)
    (items : List (InboundItem ρ))
    (hitems : items.filterMap itemLine = if answerable verdict then [line] else [])
    (hsound : ∀ item ∈ items, ItemSound (s.verdicts ++ [verdict]) item)
    (hadding : ∀ m request, s.reader = .adding m request →
      m = line ∧ verdict = .admitted request) :
    Safe ({ s with inbound := s.inbound ++ items }.conclude verdict reader') := by
  obtain ⟨hnumber, hlength, hroot⟩ := hline
  have hwaiting : waitingLines ({ s with inbound := s.inbound ++ items }.conclude verdict reader') =
      waitingLines s ++ items.filterMap itemLine := by
    show currentLine s.dispatcher ++ (s.inbound ++ items).filterMap itemLine = _
    rw [List.filterMap_append, waitingLines, List.append_assoc]
  refine
    { reader := ?_
      dispatcher := h.dispatcher.mono
      queued := fun item hitem => ?_
      explained := fun n root' verdict' hn hv => ?_
      closing := fun n verdict' hn hcloses => ?_
      frames := fun frame hframe => (h.frames frame hframe).mono
      fifo := ?_
      registered := fun id m hid => ?_ }
  · have hlines : s.lines.length = (s.verdicts ++ [verdict]).length := by
      rw [List.length_append, List.length_singleton]
      exact hlength
    rcases hreader with ⟨hreader, -⟩ | hreader
    · rw [hreader]
      exact hlines
    · rw [hreader]
      exact hlines
  · rcases List.mem_append.mp hitem with hitem | hitem
    · exact (h.queued item hitem).mono
    · exact hsound item hitem
  · have hv : (s.verdicts ++ [verdict])[n]? = some verdict' := hv
    by_cases hlt : n < s.verdicts.length
    · rw [List.getElem?_append_left hlt] at hv
      exact h.explained n root' verdict' hn hv
    · have hlast : n = s.verdicts.length := by
        have := (List.getElem?_eq_some_iff.mp hv).1
        rw [List.length_append, List.length_singleton] at this
        omega
      subst hlast
      rw [List.getElem?_concat_length] at hv
      cases hv
      rw [hnumber] at hroot
      cases hroot.symm.trans hn
      exact hexplains
  · have hn : (s.verdicts ++ [verdict])[n]? = some verdict' := hn
    by_cases hlt : n < s.verdicts.length
    · rw [List.getElem?_append_left hlt] at hn
      exact absurd (h.closing n verdict' hn hcloses).1 hopen
    · have hbound := (List.getElem?_eq_some_iff.mp hn).1
      rw [List.length_append, List.length_singleton] at hbound
      have hlast : n = s.verdicts.length := by omega
      subst hlast
      rw [List.getElem?_concat_length] at hn
      cases hn
      refine ⟨?_, ?_⟩
      · rcases hreader with ⟨-, hnot⟩ | hreader
        · rw [hcloses] at hnot
          cases hnot
        · exact hreader
      · show s.verdicts.length + 1 = (s.verdicts ++ [verdict]).length
        rw [List.length_append, List.length_singleton]
  · show s.output.map Frame.line ++ waitingLines _ = answeredLines (s.verdicts ++ [verdict])
    rw [hwaiting, answeredLines_snoc, ← List.append_assoc, h.fifo, hitems, hnumber]
  · left
    rw [hwaiting]
    rcases h.registered id m hid with ⟨request, hrequest, hverdict, hplace⟩ | ⟨request, hrequest, hreader⟩
    · refine ⟨request, hrequest, verdict_mono hverdict, ?_⟩
      rcases hplace with hwait | hreleasing
      · exact .inl (List.mem_append_left _ hwait)
      · exact .inr hreleasing
    · obtain ⟨rfl, rfl⟩ := hadding m request hreader
      refine ⟨request, hrequest, ?_, .inl ?_⟩
      · rw [hnumber]
        exact List.getElem?_concat_length
      · rw [hitems]
        exact List.mem_append_right _ (List.mem_singleton.mpr rfl)

/-- The same, when nothing is put into the queue. -/
theorem Safe.conclude_silent (h : Safe s) (hopen : s.reader ≠ .closed) {line : Nat}
    {root : JsonElement} (hline : OnLine s line root) {verdict : Verdict ρ}
    (hexplains : Explains root verdict)
    (hreader : reader' = .reading ∧ closes verdict = false ∨ reader' = .closed)
    (hanswer : answerable verdict = false)
    (hadding : ∀ line request, s.reader ≠ .adding line request) :
    Safe (s.conclude verdict reader') := by
  have hitems : ∀ item ∈ ([] : List (InboundItem ρ)), ItemSound (s.verdicts ++ [verdict]) item :=
    fun item hitem => absurd hitem List.not_mem_nil
  have hconclude := h.conclude hopen hline hexplains hreader [] (by rw [hanswer]; rfl) hitems
    fun m request hm => absurd hm (hadding m request)
  have heq : ({ s with inbound := s.inbound ++ [] } : NdjsonHost ρ) = s := by rw [List.append_nil]
  rw [heq] at hconclude
  exact hconclude

theorem Safe.readLine (h : Safe s) (hreading : s.reader = .reading) (line : WireLine) :
    Safe (s.readLine line) := by
  have hopen : s.reader ≠ .closed := by rw [hreading]; nofun
  have hadding : ∀ line request, s.reader ≠ .adding line request := by rw [hreading]; nofun
  have hlength : s.lines.length = s.verdicts.length := by
    have hreader := h.reader
    rw [hreading] at hreader
    exact hreader
  have hclosed : Safe { s with reader := .closed } := h.move hopen hadding hlength
  cases line with
  | ended => exact hclosed
  | oversized => exact hclosed
  | unparsed => exact hclosed
  | blank => exact h
  | document root =>
    simp only [NdjsonHost.readLine]
    split
    · exact hclosed
    · exact h.move hopen hadding hlength
    · exact
        { reader := ⟨hlength, by
            rw [List.length_append, List.length_singleton, hlength], List.getElem?_concat_length⟩
          dispatcher := h.dispatcher
          queued := h.queued
          explained := fun n root' verdict hn hv => by
            have hlt := (List.getElem?_eq_some_iff.mp hv).1
            have hn : (s.lines ++ [root])[n]? = some root' := hn
            rw [List.getElem?_append_left (by rw [hlength]; exact hlt)] at hn
            exact h.explained n root' verdict hn hv
          closing := fun n verdict hn hcloses => absurd (h.closing n verdict hn hcloses).1 hopen
          frames := h.frames
          fifo := h.fifo
          registered := fun id m hid => by
            rcases h.registered id m hid with hadmitted | ⟨request, -, hreader⟩
            · exact .inl hadmitted
            · exact absurd hreader (hadding m request) }

/-- The frames the parser does not leak an exception for. -/
def Answerable (s : NdjsonHost ρ) (root : JsonElement) : Bool :=
  ((tryReadMessageId root).filter s.isOutstanding).isSome || !timeoutNotNumber root

theorem Safe.check (h : Safe s) {line : Nat} {root : JsonElement}
    (hreader : s.reader = .checking line root) (hanswerable : Answerable s root = true) :
    Safe (s.check line root) := by
  have hopen : s.reader ≠ .closed := by rw [hreader]; nofun
  have hadding : ∀ line request, s.reader ≠ .adding line request := by rw [hreader]; nofun
  have hline : OnLine s line root := by
    have hsound := h.reader
    rw [hreader] at hsound
    exact hsound
  simp only [NdjsonHost.check]
  split
  · rename_i id hid
    have hown : tryReadMessageId root = some id := (Option.filter_eq_some_iff.mp hid).1
    exact h.conclude_silent hopen hline hown (.inr rfl) rfl hadding
  · rename_i hfilter
    have hfree : ∀ id ∈ tryReadMessageId root, s.isOutstanding id = false := fun id hid =>
      Bool.eq_false_iff.mpr (Option.filter_eq_none_iff.mp hfilter id hid)
    split
    · rename_i cancel hparse
      exact h.move hopen hadding ⟨root, hline, hparse⟩
    · rename_i request hparse
      refine h.move hopen hadding ⟨root, hline, hparse, ?_⟩
      exact hfree request.id (parseMessage_request hparse).1
    · rename_i exception hparse
      exact h.move hopen hadding ⟨root, hline, hparse, rfl, hfree, rfl⟩
    · rename_i hparse
      rcases parseMessage_fails _ hparse with hrejects | ⟨-, htimeout⟩
      · exact absurd hrejects id
      · rw [Answerable, hfilter, htimeout] at hanswerable
        cases hanswerable

theorem Safe.prepare (h : Safe s) {line : Nat} {candidateId : Option String} {request : Request}
    (hreader : s.reader = .preparing line candidateId request) :
    Safe (s.prepare line candidateId request) := by
  have hopen : s.reader ≠ .closed := by rw [hreader]; nofun
  have hadding : ∀ line request, s.reader ≠ .adding line request := by rw [hreader]; nofun
  have hsound := h.reader
  rw [hreader] at hsound
  obtain ⟨root, hline, hparse, hfree⟩ := hsound
  rw [NdjsonHost.prepare, hfree]
  exact
    { reader := ⟨root, hline, hparse⟩
      dispatcher := h.dispatcher
      queued := h.queued
      explained := h.explained
      closing := fun n verdict hn hcloses => absurd (h.closing n verdict hn hcloses).1 hopen
      frames := h.frames
      fifo := h.fifo
      registered := fun id m hid => by
        have hid : (s.outstanding.set request.id line).get? id = some m := hid
        rw [OrderedMap.get?_set] at hid
        split at hid
        · rename_i heq
          cases hid
          exact .inr ⟨request, heq.symm, rfl⟩
        · rcases h.registered id m hid with hadmitted | ⟨request', -, hreader'⟩
          · exact .inl hadmitted
          · exact absurd hreader' (hadding m request') }

/-- A line that fails its checks is answered: only a line without a readable id could
name an outstanding request here, by the parser's fallback. -/
theorem Safe.rejecting_free (h : Safe s) {line : Nat} {candidateId : Option String}
    {exception : NativeV1ProtocolException} {parsedRequest : Option Request}
    (hreader : s.reader = .rejecting line candidateId exception parsedRequest)
    (hnamed : candidateId = none → s.isOutstanding "invalid" = false) :
    s.isOutstanding (candidateId.getD exception.requestId) = false := by
  have hsound := h.reader
  rw [hreader] at hsound
  obtain ⟨root, -, hparse, hcandidate, hfree, -⟩ := hsound
  cases candidateId with
  | some id => exact hfree id rfl
  | none =>
    rcases parseMessage_fails _ hparse with ⟨hframe | hown, -⟩ | ⟨hleak, -⟩
    · show s.isOutstanding exception.requestId = false
      rw [hframe]
      exact hnamed rfl
    · rw [← hcandidate] at hown
      cases hown
    · cases hleak

theorem Safe.reject (h : Safe s) {line : Nat} {candidateId : Option String}
    {exception : NativeV1ProtocolException} {parsedRequest : Option Request}
    (hreader : s.reader = .rejecting line candidateId exception parsedRequest)
    (hnamed : candidateId = none → s.isOutstanding "invalid" = false) :
    Safe (s.reject line candidateId exception parsedRequest) := by
  have hopen : s.reader ≠ .closed := by rw [hreader]; nofun
  have hadding : ∀ line request, s.reader ≠ .adding line request := by rw [hreader]; nofun
  have hout := h.rejecting_free hreader hnamed
  have hsound := h.reader
  rw [hreader] at hsound
  obtain ⟨root, hline, hparse, hcandidate, hfree, rfl⟩ := hsound
  simp only [NdjsonHost.reject, hout]
  exact h.move hopen hadding ⟨root, exception, hline, hparse, rfl⟩

theorem Safe.advanceReader (h : Safe s) {s' : NdjsonHost ρ}
    (hanswerable : ∀ line root, s.reader = .checking line root → Answerable s root = true)
    (hnamed : ∀ line exception parsedRequest,
      s.reader = .rejecting line none exception parsedRequest → s.isOutstanding "invalid" = false)
    (hstep : s.advanceReader = some s') : Safe s' := by
  unfold NdjsonHost.advanceReader at hstep
  split at hstep
  · cases hstep
  · cases hstep
  · rename_i hreader
    cases hstep
    have hopen : s.reader ≠ .closed := by rw [hreader]; nofun
    have hadding : ∀ line request, s.reader ≠ .adding line request := by rw [hreader]; nofun
    have hlength : ReaderSound s .reading := by
      have hsound := h.reader
      rw [hreader] at hsound
      exact hsound
    have hmove := h.move hopen hadding hlength
    have hwaiting : waitingLines
        { s with inbound := s.inbound ++ [InboundItem.legacy], reader := .reading } =
        waitingLines s := by
      show currentLine s.dispatcher ++ (s.inbound ++ [InboundItem.legacy]).filterMap itemLine = _
      rw [List.filterMap_append]
      exact congrArg _ (List.append_nil _)
    refine { hmove with queued := fun item hitem => ?_, fifo := ?_, registered := fun id m hid => ?_ }
    · rcases List.mem_append.mp hitem with hitem | hitem
      · exact h.queued item hitem
      · cases List.mem_singleton.mp hitem
        trivial
    · rw [hwaiting]
      exact h.fifo
    · unfold Registered
      rw [hwaiting]
      exact hmove.registered id m hid
  · rename_i line root hreader
    cases hstep
    exact h.check hreader (hanswerable line root hreader)
  · rename_i line cancel hreader
    cases hstep
    have hsound := h.reader
    rw [hreader] at hsound
    obtain ⟨root, hline, hparse⟩ := hsound
    exact h.conclude_silent (by rw [hreader]; nofun) hline hparse (.inl ⟨rfl, rfl⟩) rfl
      (by rw [hreader]; nofun)
  · rename_i line candidateId request hreader
    cases hstep
    exact h.prepare hreader
  · rename_i line request hreader
    cases hstep
    have hsound := h.reader
    rw [hreader] at hsound
    obtain ⟨root, hline, hparse⟩ := hsound
    have hexplains : Explains (ρ := ρ) root (.admitted request) := hparse
    refine h.conclude (by rw [hreader]; nofun) hline hexplains (.inl ⟨rfl, rfl⟩)
      [InboundItem.native line request] rfl (fun item hitem => ?_) fun m request' hm => ?_
    · cases List.mem_singleton.mp hitem
      show (s.verdicts ++ [_])[line]? = _
      rw [hline.1]
      exact List.getElem?_concat_length
    · cases hreader.symm.trans hm
      exact ⟨rfl, rfl⟩
  · rename_i line candidateId exception parsedRequest hreader
    cases hstep
    refine h.reject hreader fun hnone => ?_
    rw [hnone] at hreader
    exact hnamed line exception parsedRequest hreader
  · rename_i line response hreader
    cases hstep
    have hsound := h.reader
    rw [hreader] at hsound
    obtain ⟨root, exception, hline, hparse, rfl⟩ := hsound
    have hexplains : Explains root (.rejected (rejection (ρ := ρ) exception none)) :=
      ⟨exception, hparse, rfl⟩
    refine h.conclude (by rw [hreader]; nofun) hline hexplains (.inr rfl)
      [InboundItem.response line _] rfl (fun item hitem => ?_) fun m request' hm => ?_
    · cases List.mem_singleton.mp hitem
      show (s.verdicts ++ [_])[line]? = _
      rw [hline.1]
      exact List.getElem?_concat_length
    · cases hreader.symm.trans hm

end Reader

/-! ## The dispatcher's steps -/

section Dispatcher

variable {host : WindowsHost JsonElement l ρ} {s s' : NdjsonHost ρ}

/-- The place of an admitted line whose registration is not released. -/
def Kept (s : NdjsonHost ρ) (line : Nat) (request : Request) : Prop :=
  line ∈ waitingLines s ∨ s.dispatcher = .releasing line request

/-- What a step of the dispatcher changes. -/
structure Dispatches (s s' : NdjsonHost ρ) : Prop where
  reader : s'.reader = s.reader
  lines : s'.lines = s.lines
  verdicts : s'.verdicts = s.verdicts
  dispatcher : DispatcherSound s.verdicts s'.dispatcher
  queued : ∀ item ∈ s'.inbound, item ∈ s.inbound
  frames : ∀ frame ∈ s'.output, frame ∈ s.output ∨ FrameSound s.verdicts frame
  fifo : s'.output.map Frame.line ++ waitingLines s' = s.output.map Frame.line ++ waitingLines s
  outstanding : ∀ id line, s'.outstanding.get? id = some line → s.outstanding.get? id = some line
  kept : ∀ line request, s'.outstanding.get? request.id = some line →
    s.verdicts[line]? = some (.admitted request) → Kept s line request → Kept s' line request

theorem ReaderSound.dispatch {reader : Reader ρ} (h : ReaderSound s reader) (hd : Dispatches s s') :
    ReaderSound s' reader := by
  have honline : ∀ {line root}, OnLine s line root → OnLine s' line root := by
    intro line root ⟨hline, hlength, hroot⟩
    exact ⟨by rw [hd.verdicts]; exact hline, by rw [hd.lines, hd.verdicts]; exact hlength,
      by rw [hd.lines]; exact hroot⟩
  have hlength : s.lines.length = s.verdicts.length → s'.lines.length = s'.verdicts.length := by
    rw [hd.lines, hd.verdicts]
    exact id
  have hsmaller : ∀ {id}, s.isOutstanding id = false → s'.isOutstanding id = false := by
    intro id hfree
    cases hout : s'.outstanding.get? id with
    | none => exact OrderedMap.has_eq_false_iff.mpr hout
    | some m =>
      have hold := hd.outstanding _ _ hout
      rw [OrderedMap.has_eq_false_iff.mp hfree] at hold
      cases hold
  cases reader with
  | reading => exact hlength h
  | addingLegacy => exact hlength h
  | closed => exact hlength h
  | checking line root => exact honline h
  | cancelling line cancel =>
    obtain ⟨root, hline, hparse⟩ := h
    exact ⟨root, honline hline, hparse⟩
  | preparing line candidateId request =>
    obtain ⟨root, hline, hparse, hfree⟩ := h
    exact ⟨root, honline hline, hparse, hsmaller hfree⟩
  | adding line request =>
    obtain ⟨root, hline, hparse⟩ := h
    exact ⟨root, honline hline, hparse⟩
  | rejecting line candidateId exception parsedRequest =>
    obtain ⟨root, hline, hparse, hcandidate, hfree, hnone⟩ := h
    exact ⟨root, honline hline, hparse, hcandidate, fun id hid => hsmaller (hfree id hid), hnone⟩
  | answering line response =>
    obtain ⟨root, exception, hline, hparse⟩ := h
    exact ⟨root, exception, honline hline, hparse⟩

theorem Safe.dispatch (h : Safe s) (hd : Dispatches s s') : Safe s' where
  reader := by
    rw [hd.reader]
    exact h.reader.dispatch hd
  dispatcher := by
    rw [hd.verdicts]
    exact hd.dispatcher
  queued item hitem := by
    rw [hd.verdicts]
    exact h.queued item (hd.queued item hitem)
  explained n root verdict hn hv := by
    rw [hd.lines] at hn
    rw [hd.verdicts] at hv
    exact h.explained n root verdict hn hv
  closing n verdict hn hcloses := by
    rw [hd.reader, hd.verdicts]
    rw [hd.verdicts] at hn
    exact h.closing n verdict hn hcloses
  frames frame hframe := by
    rw [hd.verdicts]
    rcases hd.frames frame hframe with hold | hsound
    · exact h.frames frame hold
    · exact hsound
  fifo := by
    rw [hd.fifo, hd.verdicts]
    exact h.fifo
  registered id line hid := by
    rcases h.registered id line (hd.outstanding id line hid) with
      ⟨request, rfl, hverdict, hkept⟩ | ⟨request, hid, hreader⟩
    · refine .inl ⟨request, rfl, ?_, hd.kept line request hid hverdict hkept⟩
      rw [hd.verdicts]
      exact hverdict
    · exact .inr ⟨request, hid, hd.reader.trans hreader⟩

theorem ReaderSound.length_le {reader : Reader ρ} (h : ReaderSound s reader) :
    s.verdicts.length ≤ s.lines.length := by
  have honline : ∀ {line root}, OnLine s line root → s.verdicts.length ≤ s.lines.length := by
    intro line root ⟨_, hlength, _⟩
    omega
  cases reader with
  | reading => exact h.ge
  | addingLegacy => exact h.ge
  | closed => exact h.ge
  | checking line root => exact honline h
  | cancelling line cancel => exact honline h.choose_spec.1
  | preparing line candidateId request => exact honline h.choose_spec.1
  | adding line request => exact honline h.choose_spec.1
  | rejecting line candidateId exception parsedRequest => exact honline h.choose_spec.1
  | answering line response => exact honline h.choose_spec.choose_spec.1

theorem Safe.line_of_verdict (h : Safe s) {line : Nat} {verdict : Verdict ρ}
    (hverdict : s.verdicts[line]? = some verdict) : ∃ root, s.lines[line]? = some root := by
  have hlt := (List.getElem?_eq_some_iff.mp hverdict).1
  have hle := h.reader.length_le
  exact ⟨_, List.getElem?_eq_getElem (Nat.lt_of_lt_of_le hlt hle)⟩

/-- The dispatcher moves on without writing or releasing. -/
theorem Safe.moveDispatcher (h : Safe s) (dispatcher' : Dispatcher ρ)
    (hsound : DispatcherSound s.verdicts dispatcher')
    (hline : currentLine dispatcher' = currentLine s.dispatcher)
    (hreleasing : ∀ line request, s.dispatcher ≠ .releasing line request)
    (sessions : Sessions) (usedOperationIds : Finset String) :
    Safe { s with dispatcher := dispatcher', sessions, usedOperationIds } := by
  have hwaiting : waitingLines { s with dispatcher := dispatcher', sessions, usedOperationIds } =
      waitingLines s := congrArg (· ++ _) hline
  exact h.dispatch
    { reader := rfl
      lines := rfl
      verdicts := rfl
      dispatcher := hsound
      queued := fun item hitem => hitem
      frames := fun frame hframe => .inl hframe
      fifo := congrArg _ hwaiting
      outstanding := fun id line hid => hid
      kept := fun line request hid hverdict hkept => by
        rcases hkept with hwait | hrel
        · exact .inl (hwaiting ▸ hwait)
        · exact absurd hrel (hreleasing line request) }

theorem Safe.take (h : Safe s) (hwaiting : s.dispatcher = .waiting) {item : InboundItem ρ}
    {rest : List (InboundItem ρ)} (hinbound : s.inbound = item :: rest) :
    Safe { s with inbound := rest, dispatcher := .taken item } := by
  have hlines : waitingLines { s with inbound := rest, dispatcher := .taken item } =
      waitingLines s := by
    show (itemLine item).toList ++ rest.filterMap itemLine =
      currentLine s.dispatcher ++ s.inbound.filterMap itemLine
    rw [hwaiting, hinbound, List.filterMap_cons]
    cases itemLine item <;> rfl
  exact h.dispatch
    { reader := rfl
      lines := rfl
      verdicts := rfl
      dispatcher := h.queued item (by rw [hinbound]; exact List.mem_cons_self)
      queued := fun item' hitem => by
        rw [hinbound]
        exact List.mem_cons_of_mem _ hitem
      frames := fun frame hframe => .inl hframe
      fifo := congrArg _ hlines
      outstanding := fun id line hid => hid
      kept := fun line request hid hverdict hkept => by
        rcases hkept with hwait | hrel
        · exact .inl (hlines ▸ hwait)
        · rw [hwaiting] at hrel
          cases hrel }

/-- The dispatcher writes the answer of the line it works on. -/
theorem Safe.write (h : Safe s) {line : Nat} (hline : currentLine s.dispatcher = [line])
    {response : Response ρ} (hframe : FrameSound s.verdicts ⟨line, response⟩)
    {dispatcher' : Dispatcher ρ} (hsound : DispatcherSound s.verdicts dispatcher')
    (hnext : currentLine dispatcher' = [])
    (hreleasing : ∀ request, s.verdicts[line]? = some (.admitted request) →
      dispatcher' = .releasing line request) :
    Safe { s.write line response with dispatcher := dispatcher' } := by
  have hwaiting : waitingLines s =
      line :: waitingLines { s.write line response with dispatcher := dispatcher' } := by
    show currentLine s.dispatcher ++ _ = line :: (currentLine dispatcher' ++ _)
    rw [hline, hnext]
    rfl
  exact h.dispatch
    { reader := rfl
      lines := rfl
      verdicts := rfl
      dispatcher := hsound
      queued := fun item hitem => hitem
      frames := fun frame hmem => by
        rcases List.mem_append.mp hmem with hold | hnew
        · exact .inl hold
        · cases List.mem_singleton.mp hnew
          exact .inr hframe
      fifo := by
        show (s.output ++ [Frame.mk line response]).map Frame.line ++ _ = _
        rw [hwaiting, List.map_append, List.append_assoc]
        rfl
      outstanding := fun id line hid => hid
      kept := fun line' request hid hverdict hkept => by
        rcases hkept with hwait | hrel
        · rw [hwaiting] at hwait
          rcases List.mem_cons.mp hwait with rfl | hlater
          · exact .inr (hreleasing request hverdict)
          · exact .inl hlater
        · rw [hrel] at hline
          cases hline }

theorem Safe.release (h : Safe s) {line : Nat} {request : Request}
    (hreleasing : s.dispatcher = .releasing line request) :
    Safe { s.releaseOutstanding line request with dispatcher := .waiting } := by
  have hfields : ∃ outstanding', s.releaseOutstanding line request =
      { s with outstanding := outstanding' } ∧
      (∀ id m, outstanding'.get? id = some m → s.outstanding.get? id = some m) ∧
      outstanding'.get? request.id ≠ some line := by
    unfold NdjsonHost.releaseOutstanding
    split
    · refine ⟨_, rfl, fun id m hm => ?_, ?_⟩
      · rw [OrderedMap.get?_erase] at hm
        split at hm
        · cases hm
        · exact hm
      · rw [OrderedMap.get?_erase, if_pos rfl]
        nofun
    · rename_i hother
      exact ⟨s.outstanding, rfl, fun id m hm => hm, hother⟩
  obtain ⟨outstanding', heq, hsub, hgone⟩ := hfields
  rw [heq]
  have hwaiting : waitingLines
      { s with outstanding := outstanding', dispatcher := Dispatcher.waiting } = waitingLines s := by
    show currentLine .waiting ++ _ = currentLine s.dispatcher ++ _
    rw [hreleasing]
    rfl
  exact h.dispatch
    { reader := rfl
      lines := rfl
      verdicts := rfl
      dispatcher := trivial
      queued := fun item hitem => hitem
      frames := fun frame hframe => .inl hframe
      fifo := congrArg _ hwaiting
      outstanding := hsub
      kept := fun line' request' hid hverdict hkept => by
        rcases hkept with hwait | hrel
        · exact .inl (hwaiting ▸ hwait)
        · rw [hreleasing] at hrel
          cases hrel
          exact absurd hid hgone }

/-- No execution of an admitted request lets an exception escape. -/
theorem Safe.execute (h : Safe s) (hfits : FitsBoundedTexts host) {line : Nat} {request : Request}
    (htaken : s.dispatcher = .taken (.native line request)) (reads : Reads ρ) :
    Safe (s.execute host line request reads) := by
  have hadmitted : s.verdicts[line]? = some (.admitted request) := by
    have hsound := h.dispatcher
    rw [htaken] at hsound
    exact hsound
  obtain ⟨root, hroot⟩ := h.line_of_verdict hadmitted
  have hbounded := (parseMessage_request (h.explained line root _ hroot hadmitted)).2.1
  have hresponse : Addressed request
      (executeCore host s.sessions s.usedOperationIds request reads).response :=
    executeCore_addressed
  obtain ⟨published, hpublished⟩ :=
    outbound_isSome hfits hbounded hresponse reads.remainingOnPublication
  have haddressed := outbound_addressed hpublished hresponse
  simp only [NdjsonHost.execute, hpublished]
  refine h.moveDispatcher (.writing line request published) ⟨hadmitted, haddressed.1⟩ ?_ ?_ _ _
  · rw [htaken]
    rfl
  · rw [htaken]
    nofun

theorem Safe.advanceDispatcher (h : Safe s) (hfits : FitsBoundedTexts host) {reads : Reads ρ}
    (hstep : s.advanceDispatcher host reads = some s') : Safe s' := by
  unfold NdjsonHost.advanceDispatcher at hstep
  split at hstep
  · rename_i hwaiting
    split at hstep
    · cases hstep
    · rename_i item rest hinbound
      cases hstep
      exact h.take hwaiting hinbound
  · rename_i htaken
    cases hstep
    refine h.moveDispatcher .waiting trivial ?_ ?_ _ _
    · rw [htaken]
      rfl
    · rw [htaken]
      nofun
  · rename_i line request htaken
    cases hstep
    exact h.execute hfits htaken reads
  · rename_i line response htaken
    have hrejected : s.verdicts[line]? = some (.rejected response) := by
      have hsound := h.dispatcher
      rw [htaken] at hsound
      exact hsound
    obtain ⟨root, hroot⟩ := h.line_of_verdict hrejected
    obtain ⟨exception, hparse, hresponse⟩ := h.explained line root _ hroot hrejected
    rw [if_pos (by rw [hresponse]; exact rejection_fits hfits hparse)] at hstep
    cases hstep
    refine h.write ?_ (.inr hrejected) trivial rfl fun request hadmitted => ?_
    · rw [htaken]
      rfl
    · cases hrejected.symm.trans hadmitted
  · rename_i line request response hwriting
    cases hstep
    have hsound := h.dispatcher
    rw [hwriting] at hsound
    obtain ⟨hadmitted, hid⟩ := hsound
    refine h.write ?_ (.inl ⟨request, hadmitted, hid⟩) hadmitted rfl fun request' hadmitted' => ?_
    · rw [hwriting]
      rfl
    · cases hadmitted.symm.trans hadmitted'
      rfl
  · rename_i line request hreleasing
    cases hstep
    exact h.release hreleasing
  · cases hstep

end Dispatcher

/-! ## The runs of the host -/

/-- The answer to this id is written and its registration is about to be released. -/
def isReleasing (s : NdjsonHost ρ) (id : String) : Bool :=
  match s.dispatcher with
  | .releasing _ request => request.id = id
  | _ => false

/-- The reader does not meet a `timeoutMs` that is not a number, an id whose answer is
just written, or a line without a readable id while a request is called `"invalid"`. -/
def Orderly (s : NdjsonHost ρ) : Event ρ → Bool
  | .reader =>
    match s.reader with
    | .checking _ root => Answerable s root && !(tryReadMessageId root).any (isReleasing s)
    | .rejecting _ none _ _ => !s.isOutstanding "invalid"
    | _ => true
  | .read _ | .dispatcher _ => true

section Runs

variable {host : WindowsHost JsonElement l ρ} {s s' : NdjsonHost ρ}

theorem orderly_checking (h : Orderly s .reader = true) {line : Nat} {root : JsonElement}
    (hreader : s.reader = .checking line root) :
    Answerable s root = true ∧ ∀ id ∈ tryReadMessageId root, isReleasing s id = false := by
  simp only [Orderly, hreader, Bool.and_eq_true, Bool.not_eq_true', Option.any_eq_false] at h
  exact h

theorem orderly_rejecting (h : Orderly s .reader = true) {line : Nat} {candidateId : Option String}
    {exception : NativeV1ProtocolException} {parsedRequest : Option Request}
    (hreader : s.reader = .rejecting line candidateId exception parsedRequest)
    (hnone : candidateId = none) : s.isOutstanding "invalid" = false := by
  subst hnone
  simpa only [Orderly, hreader, Bool.not_eq_true'] using h

theorem Safe.next (h : Safe s) (hfits : FitsBoundedTexts host) {event : Event ρ}
    (horderly : Orderly s event = true) (hstep : next host s event = some s') : Safe s' := by
  cases event with
  | read line =>
    simp only [WindowsIngest.next] at hstep
    split at hstep
    · rename_i hreading
      cases hstep
      exact h.readLine hreading line
    · cases hstep
  | reader =>
    exact h.advanceReader (fun line root hreader => (orderly_checking horderly hreader).1)
      (fun line exception parsedRequest hreader => orderly_rejecting horderly hreader rfl) hstep
  | dispatcher reads => exact h.advanceDispatcher hfits hstep

theorem safe_initial : Safe (initial ρ) where
  reader := rfl
  dispatcher := trivial
  queued item hitem := absurd hitem List.not_mem_nil
  explained n root verdict hn := by
    have hn : ([] : List JsonElement)[n]? = some root := hn
    cases hn
  closing n verdict hn := by
    have hn : ([] : List (Verdict ρ))[n]? = some verdict := hn
    cases hn
  frames frame hframe := absurd hframe List.not_mem_nil
  fifo := rfl
  registered id line hid := by
    have hid : (OrderedMap.empty : OrderedMap String Nat).get? id = some line := hid
    rw [OrderedMap.get?_empty] at hid
    cases hid

theorem safe_invariant (hfits : FitsBoundedTexts host) :
    ((ndjsonHost host).restrict fun s event => Orderly s event = true).Invariant Safe where
  init := by
    intro s hs
    cases hs
    exact safe_initial
  step := by
    intro s event s' _ h hstep
    exact h.next hfits hstep.2 hstep.1

theorem ne_snoc (verdicts : List (Verdict ρ)) (verdict : Verdict ρ) :
    verdicts ≠ verdicts ++ [verdict] := by
  intro h
  have hlength := congrArg List.length h
  rw [List.length_append, List.length_singleton] at hlength
  omega

theorem check_unanswered {line : Nat} {root : JsonElement} {id : String}
    (h : (s.check line root).verdicts = s.verdicts ++ [.unanswered id]) :
    tryReadMessageId root = some id ∧ s.isOutstanding id = true ∧
      (s.check line root).reader = .closed := by
  revert h
  simp only [NdjsonHost.check]
  split
  · rename_i own hown
    intro h
    cases List.append_cancel_left h
    obtain ⟨hid, hout⟩ := Option.filter_eq_some_iff.mp hown
    exact ⟨hid, hout, rfl⟩
  · split
    · exact fun h => absurd h (ne_snoc _ _)
    · exact fun h => absurd h (ne_snoc _ _)
    · exact fun h => absurd h (ne_snoc _ _)
    · exact fun h => nomatch List.append_cancel_left h

/-- A line is left unanswered for a request that still waits for its own answer. -/
theorem Safe.named (h : Safe s) (horderly : Orderly s .reader = true)
    (hstep : s.advanceReader = some s') {id : String}
    (hverdict : s'.verdicts = s.verdicts ++ [.unanswered id]) :
    s'.reader = .closed ∧ ∃ line request, s.verdicts[line]? = some (.admitted request) ∧
      request.id = id ∧ line ∈ waitingLines s := by
  unfold NdjsonHost.advanceReader at hstep
  split at hstep
  · cases hstep
  · cases hstep
  · cases hstep
    exact absurd hverdict (ne_snoc _ _)
  · rename_i line root hreader
    cases hstep
    obtain ⟨-, hfresh⟩ := orderly_checking horderly hreader
    obtain ⟨hid, hout, hclosed⟩ := check_unanswered hverdict
    obtain ⟨m, hm⟩ := OrderedMap.has_eq_true_iff.mp hout
    refine ⟨hclosed, ?_⟩
    rcases h.registered id m hm with
      ⟨request, hrequest, hadmitted, hwait | hrel⟩ | ⟨request, -, hadding⟩
    · exact ⟨m, request, hadmitted, hrequest, hwait⟩
    · have hnot := hfresh id hid
      simp only [isReleasing, hrel, hrequest, decide_true] at hnot
      cases hnot
    · rw [hreader] at hadding
      cases hadding
  · cases hstep
    cases List.append_cancel_left hverdict
  · cases hstep
    rw [NdjsonHost.prepare] at hverdict
    split at hverdict
    · exact absurd hverdict (ne_snoc _ _)
    · exact absurd hverdict (ne_snoc _ _)
  · cases hstep
    cases List.append_cancel_left hverdict
  · rename_i line candidateId exception parsedRequest hreader
    cases hstep
    have hout := h.rejecting_free hreader (orderly_rejecting horderly hreader)
    simp only [NdjsonHost.reject, hout] at hverdict
    exact absurd hverdict (ne_snoc _ _)
  · cases hstep
    cases List.append_cancel_left hverdict

/-! ## Progress -/

/-- A bound on the steps the dispatcher has left. -/
def work (s : NdjsonHost ρ) : Nat :=
  4 * s.inbound.length +
    match s.dispatcher with
    | .waiting | .crashed => 0
    | .taken _ => 3
    | .writing _ _ _ => 2
    | .releasing _ _ => 1

theorem releaseOutstanding_inbound (line : Nat) (request : Request) :
    (s.releaseOutstanding line request).inbound = s.inbound := by
  unfold NdjsonHost.releaseOutstanding
  split <;> rfl

theorem releaseOutstanding_verdicts (line : Nat) (request : Request) :
    (s.releaseOutstanding line request).verdicts = s.verdicts := by
  unfold NdjsonHost.releaseOutstanding
  split <;> rfl

/-- The dispatcher goes on as long as there is work, whatever the backend does. -/
theorem advanceDispatcher_work (host : WindowsHost JsonElement l ρ)
    (hrunning : s.dispatcher ≠ .crashed) (hwork : work s ≠ 0) (reads : Reads ρ) :
    ∃ s', s.advanceDispatcher host reads = some s' ∧ work s' < work s ∧
      s'.verdicts = s.verdicts := by
  unfold NdjsonHost.advanceDispatcher
  unfold work at hwork ⊢
  cases hdispatcher : s.dispatcher with
  | waiting =>
    rw [hdispatcher] at hwork
    cases hinbound : s.inbound with
    | nil =>
      rw [hinbound] at hwork
      exact absurd rfl hwork
    | cons item rest =>
      refine ⟨_, rfl, ?_, rfl⟩
      show 4 * rest.length + 3 < 4 * (rest.length + 1) + 0
      omega
  | taken item =>
    cases item with
    | legacy => exact ⟨_, rfl, Nat.add_lt_add_left (show 0 < 3 by omega) _, rfl⟩
    | native line request =>
      refine ⟨_, rfl, ?_, ?_⟩
      · simp only [NdjsonHost.execute]
        split
        · exact Nat.add_lt_add_left (show 2 < 3 by omega) _
        · rw [releaseOutstanding_inbound]
          exact Nat.add_lt_add_left (show 0 < 3 by omega) _
      · simp only [NdjsonHost.execute]
        split
        · rfl
        · rw [releaseOutstanding_verdicts]
    | response line response =>
      dsimp only
      split
      · exact ⟨_, rfl, Nat.add_lt_add_left (show 0 < 3 by omega) _, rfl⟩
      · exact ⟨_, rfl, Nat.add_lt_add_left (show 0 < 3 by omega) _, rfl⟩
  | writing line request response =>
    exact ⟨_, rfl, Nat.add_lt_add_left (show 1 < 2 by omega) _, rfl⟩
  | releasing line request =>
    refine ⟨_, rfl, ?_, releaseOutstanding_verdicts line request⟩
    rw [releaseOutstanding_inbound]
    exact Nat.add_lt_add_left (show 0 < 1 by omega) _
  | crashed => exact absurd hdispatcher hrunning

theorem waitingLines_of_work (h : work s = 0) : waitingLines s = [] := by
  unfold work at h
  have hinbound : s.inbound = [] := List.length_eq_zero_iff.mp (by omega)
  unfold waitingLines
  rw [hinbound]
  cases hdispatcher : s.dispatcher with
  | waiting => rfl
  | crashed => rfl
  | taken item =>
    rw [hdispatcher] at h
    exact absurd h (by dsimp only; omega)
  | writing line request response =>
    rw [hdispatcher] at h
    exact absurd h (by dsimp only; omega)
  | releasing line request => rfl

/-- Left to itself, the dispatcher writes every answer that waits. -/
theorem Safe.drains (hfits : FitsBoundedTexts host) : ∀ (n : Nat) {s : NdjsonHost ρ}, Safe s →
    work s ≤ n → ∀ reads : Nat → Reads ρ, ∃ count t,
      (ndjsonHost host).Exec s ((List.range count).map fun i => .dispatcher (reads i)) t ∧
        t.output.map Frame.line = answeredLines s.verdicts := by
  intro n
  induction n with
  | zero =>
    intro s h hwork reads
    refine ⟨0, s, .nil s, ?_⟩
    rw [← h.fifo, waitingLines_of_work (Nat.le_zero.mp hwork), List.append_nil]
  | succ n ih =>
    intro s h hwork reads
    by_cases hnone : work s = 0
    · refine ⟨0, s, .nil s, ?_⟩
      rw [← h.fifo, waitingLines_of_work hnone, List.append_nil]
    · have hrunning : s.dispatcher ≠ .crashed := by
        intro hcrashed
        have hsound := h.dispatcher
        rw [hcrashed] at hsound
        exact hsound
      obtain ⟨s', hstep, hless, hverdicts⟩ :=
        advanceDispatcher_work host hrunning hnone (reads 0)
      have h' := h.advanceDispatcher hfits hstep
      obtain ⟨count, t, hexec, houtput⟩ := ih h' (by omega) fun i => reads (i + 1)
      refine ⟨count + 1, t, ?_, by rw [houtput, hverdicts]⟩
      rw [List.range_succ_eq_map, List.map_cons, List.map_map]
      exact .cons hstep hexec

/-! ## What the host promises -/

/-- The lines with an answer, written or waiting to be. -/
def answers (s : NdjsonHost ρ) : List Nat := s.output.map Frame.line ++ waitingLines s

/-- Every line is accepted as a cancel, names a request that waits for its answer, or
is answered by one frame; the frames stand in the order of the lines. -/
structure AnswersOnce (host : WindowsHost JsonElement l ρ) (s : NdjsonHost ρ) : Prop where
  concluded : s.reader = .reading ∨ s.reader = .closed → s.verdicts.length = s.lines.length
  explained : ∀ (n : Nat) root verdict, s.lines[n]? = some root →
    s.verdicts[n]? = some verdict → Explains root verdict
  once : ∀ n, (answers s).count n = if s.verdicts[n]?.any answerable then 1 else 0
  inOrder : (answers s).Pairwise (· < ·)
  frames : ∀ frame ∈ s.output, FrameSound s.verdicts frame
  closing : ∀ (n : Nat) verdict, s.verdicts[n]? = some verdict → closes verdict = true →
    s.reader = .closed ∧ n + 1 = s.lines.length
  named : ∀ s' id, Orderly s .reader = true → s.advanceReader = some s' →
    s'.verdicts = s.verdicts ++ [.unanswered id] → s'.reader = .closed ∧
      ∃ line request, s.verdicts[line]? = some (.admitted request) ∧ request.id = id ∧
        line ∈ waitingLines s
  rejectedLast : ∀ frame ∈ s.output, s.verdicts[frame.line]? = some (.rejected frame.response) →
    ∀ (n : Nat) request, s.verdicts[n]? = some (.admitted request) → n ∈ s.output.map Frame.line
  running : s.dispatcher ≠ .crashed
  drains : ∀ reads : Nat → Reads ρ, ∃ count t,
    (ndjsonHost host).Exec s ((List.range count).map fun i => .dispatcher (reads i)) t ∧
      t.output.map Frame.line = answeredLines s.verdicts

theorem windows_host_answers_once (host : WindowsHost JsonElement l ρ) (hfits : FitsBoundedTexts host)
    (s : NdjsonHost ρ)
    (hs : ((ndjsonHost host).restrict fun s event => Orderly s event = true).Reachable s) :
    AnswersOnce host s := by
  have h := (safe_invariant hfits).reachable hs
  have hsorted : (answers s).Pairwise (· < ·) := by
    rw [answers, h.fifo]
    exact answeredLines_sorted _
  have hconcluded : s.reader = .reading ∨ s.reader = .closed →
      s.verdicts.length = s.lines.length := by
    intro hreader
    have hsound := h.reader
    rcases hreader with hreader | hreader
    · rw [hreader] at hsound
      exact hsound.symm
    · rw [hreader] at hsound
      exact hsound.symm
  have hclosing : ∀ (n : Nat) verdict, s.verdicts[n]? = some verdict → closes verdict = true →
      s.reader = .closed ∧ n + 1 = s.lines.length := by
    intro n verdict hn hcloses
    obtain ⟨hclosed, hlast⟩ := h.closing n verdict hn hcloses
    exact ⟨hclosed, hlast.trans (hconcluded (.inr hclosed))⟩
  refine
    { concluded := hconcluded
      explained := h.explained
      once := fun n => ?_
      inOrder := hsorted
      frames := h.frames
      closing := hclosing
      named := fun s' id horderly hstep hverdict => h.named horderly hstep hverdict
      rejectedLast := fun frame hframe hrejected n request hadmitted => ?_
      running := ?_
      drains := fun reads => Safe.drains hfits (work s) h le_rfl reads }
  · have hnodup : (answers s).Nodup := hsorted.imp fun hlt => Nat.ne_of_lt hlt
    have hmem : n ∈ answers s ↔ s.verdicts[n]?.any answerable = true := by
      rw [answers, h.fifo, mem_answeredLines, Option.any_eq_true]
    rw [List.Nodup.count hnodup]
    exact if_congr hmem rfl rfl
  · have hanswered : n ∈ answers s := by
      rw [answers, h.fifo]
      exact mem_answeredLines.mpr ⟨_, hadmitted, rfl⟩
    rcases List.mem_append.mp hanswered with hwritten | hwaits
    · exact hwritten
    · -- a rejected line is the last one, so nothing waits behind its frame
      have hbefore := (List.pairwise_append.mp hsorted).2.2 _ (List.mem_map_of_mem hframe) n hwaits
      have hlast := (h.closing frame.line _ hrejected rfl).2
      have hbound := (List.getElem?_eq_some_iff.mp hadmitted).1
      omega
  · intro hcrashed
    have hsound := h.dispatcher
    rw [hcrashed] at hsound
    exact hsound

end Runs

/-! ## A host in operation -/

/-- A host without payloads whose writer takes every short response. -/
def demoHost : WindowsHost JsonElement Unit Unit where
  hostInstanceId := "windows-host-demo"
  buildLegacyRequest _ _ := .ok ()
  actionRoot _ := .ok ""
  serializes response := textLength response ≤ 4096

theorem demoHost_fits : FitsBoundedTexts demoHost :=
  fun _ _ hlength => decide_eq_true hlength

def demoReads : Reads Unit := ⟨false, 100, false, 100, false, false, .ok (.other ()), 100, 100⟩

def demoHeader (id type : String) : List (String × JsonElement) :=
  [("protocol", .string nativeProtocolName), ("version", .string nativeProtocolVersion),
    ("id", .string id), ("type", .string type)]

def handshakeLine (id : String) (timeoutMs : JsonElement) : JsonElement :=
  .object (demoHeader id "request" ++
    [("deadline", .object [("timeoutMs", timeoutMs)]),
      ("call", .object [("name", .string handshakeMethod), ("intent", .string "observe"),
        ("scope", .object [("kind", .string "bootstrap")]), ("payload", .object [])])])

def hundred : NumberToken := ⟨false, 100, [], none⟩

def cancelLine (id requestId : String) : JsonElement :=
  .object (demoHeader id "cancel" ++
    [("requestId", .string requestId), ("reason", .string "caller")])

/-- A request that is answered, a cancel of it that comes too late, a request with an
unknown version. -/
def demoEvents : List (Event Unit) :=
  [.read (.document (handshakeLine "r1" (.number hundred))), .reader, .reader, .reader,
    .dispatcher demoReads, .dispatcher demoReads, .dispatcher demoReads, .dispatcher demoReads,
    .read .blank, .read (.document (cancelLine "c1" "r1")), .reader, .reader,
    .read (.document (.object [("protocol", .string nativeProtocolName), ("id", .string "r2"),
      ("type", .string "request")])), .reader, .reader, .reader,
    .dispatcher demoReads, .dispatcher demoReads]

def servedHost : NdjsonHost Unit :=
  (System.replay (fun s event => if Orderly s event = true then next demoHost s event else none)
    (initial Unit) demoEvents).get (by decide +kernel)

theorem servedHost_answers_once : AnswersOnce demoHost servedHost ∧
    servedHost.lines.length = 3 ∧
    servedHost.output.map (fun frame => (frame.line, frame.response.id)) = [(0, "r1"), (2, "r2")] :=
  ⟨windows_host_answers_once demoHost demoHost_fits servedHost
      (System.reachable_restrict_of_replay demoEvents (.init rfl) (Option.some_get _).symm),
    by decide +kernel, by decide +kernel⟩

def isLeaked : Verdict ρ → Bool
  | .leaked => true
  | _ => false

/-- A request whose `timeoutMs` is a text. -/
def untimedEvents : List (Event Unit) :=
  [.read (.document (handshakeLine "r1" (.string "100"))), .reader]

def unansweredHost : NdjsonHost Unit :=
  (System.replay (next demoHost) (initial Unit) untimedEvents).get (by decide +kernel)

theorem text_timeout_unanswered : ∃ s, (ndjsonHost demoHost).Reachable s ∧ s.lines.length = 1 ∧
    s.verdicts.map isLeaked = [true] ∧ answers s = [] ∧ (s.reader matches .closed) = true ∧
    ¬ AnswersOnce demoHost s := by
  have hreach : (ndjsonHost demoHost).Reachable unansweredHost :=
    System.reachable_of_replay (Option.some_get _).symm
  have hlines : unansweredHost.lines.length = 1 := by decide +kernel
  have hverdicts : unansweredHost.verdicts.map isLeaked = [true] := by decide +kernel
  have hanswers : answers unansweredHost = [] := by decide +kernel
  have hclosed : (unansweredHost.reader matches .closed) = true := by decide +kernel
  refine ⟨unansweredHost, hreach, hlines, hverdicts, hanswers, hclosed, fun h => ?_⟩
  obtain ⟨verdict, hverdict, hleaked⟩ := List.map_eq_singleton_iff.mp hverdicts
  have hexplained := h.explained 0 _ verdict (List.getElem?_eq_getElem (hlines ▸ Nat.one_pos))
    (by rw [hverdict]; rfl)
  cases verdict with
  | leaked => exact hexplained
  | _ => cases hleaked

/-- The line is left unanswered for a request whose answer is already written. -/
example : (System.replay (next demoHost) (initial Unit)
    [.read (.document (handshakeLine "r1" (.number hundred))), .reader, .reader, .reader,
      .dispatcher demoReads, .dispatcher demoReads, .dispatcher demoReads,
      .read (.document (handshakeLine "r1" (.number hundred))), .reader]).any
    (fun s => s.lines.length = 2 ∧ s.output.map Frame.line = [0] ∧ waitingLines s = [] ∧
      (s.verdicts[1]? matches some (.unanswered "r1")) = true) = true := by
  decide +kernel

/-- A line without an id is left unanswered for a request called `"invalid"`. -/
example : (System.replay (next demoHost) (initial Unit)
    [.read (.document (handshakeLine "invalid" (.number hundred))), .reader, .reader, .reader,
      .read (.document (.object [("protocol", .string nativeProtocolName)])), .reader,
      .reader]).any
    (fun s => s.lines.length = 2 ∧ (s.verdicts[1]? matches some (.unanswered "invalid")) = true) =
    true := by
  decide +kernel

end SurfaceLoom.Native.WindowsIngestSafety
