import SurfaceLoom.AgentService.ArtifactPrograms

/-! # What the artifact store keeps

In every run of puts, reads and damage, in which no two texts that were hashed
have one digest, `get` finds nothing but the bytes that were put, and what was
put is found and listed until something is damaged. -/
namespace SurfaceLoom.Service.ArtifactStore
open SurfaceLoom.Lib SurfaceLoom.Lib.FileStore SurfaceLoom.Lib.Program
open SurfaceLoom.Lib.PromiseTail SurfaceLoom.Lib.Transition
open SurfaceLoom.Lib.JsonText (NumberText)
open SurfaceLoom.Service.Validation SurfaceLoom.Service.StoredRun

variable {sha256 : Bytes → Sha256} {number : NumberText → Option ℚ} {limit : ByteLimit}

/-! ## What was hashed -/

def encoded (text : String) : Bytes := Utf8.encode text.toList

/-- The texts whose digests name an artifact. -/
def namingTexts (a : Artifact) : List Bytes :=
  [encoded (identity a.runId a.name a.mediaType a.sha256), encoded a.artifactId.1]

def Put.hashed (p : Put sha256 limit) : List Bytes := p.data :: namingTexts p.artifact

def Answer.hashed (a : Answer sha256 limit) : List Bytes :=
  (match a.request with
    | .get artifactId => [encoded artifactId]
    | .list _ => []) ++
  match a.result with
  | .ok (.stored (some found)) => found.data :: namingTexts found.artifact
  | _ => []

def State.hashed (s : State sha256 limit) : List Bytes :=
  s.calls.flatMap Put.hashed ++ s.answers.flatMap Answer.hashed

/-- No two of the texts have one digest. -/
def CollisionFree (sha256 : Bytes → Sha256) (texts : List Bytes) : Prop :=
  ∀ x ∈ texts, ∀ y ∈ texts, sha256 x = sha256 y → x = y

instance (texts : List Bytes) : Decidable (CollisionFree sha256 texts) :=
  inferInstanceAs (Decidable (∀ x ∈ texts, ∀ y ∈ texts, sha256 x = sha256 y → x = y))

theorem CollisionFree.mono {texts texts' : List Bytes} (h : CollisionFree sha256 texts')
    (hsub : ∀ x ∈ texts, x ∈ texts') : CollisionFree sha256 texts :=
  fun x hx y hy => h x (hsub x hx) y (hsub y hy)

/-! ## What is claimed -/

/-- What can be said of the answers and the results of a run. -/
structure Trustworthy (number : NumberText → Option ℚ) (s : State sha256 limit) : Prop where
  /-- What `get` finds are the bytes that were put under that identifier. -/
  genuine : ∀ a ∈ s.answers, ∀ id found, a.request = .get id →
    a.result = .ok (.stored (some found)) → found.artifact.artifactId.1 = id ∧
      (∃ p ∈ s.calls, p.artifact.artifactId.1 = id) ∧
        ∀ p ∈ s.calls, p.artifact.artifactId.1 = id → found.data = p.data
  /-- An artifact that was put, with nothing damaged since, is found. -/
  found : ∀ a ∈ s.answers, ∀ p ∈ a.owed, a.request = .get p.artifact.artifactId.1 →
    a.result = .ok (.stored (some ⟨p.artifact, p.data⟩))
  /-- A list that succeeds has it exactly once. -/
  listed : ∀ a ∈ s.answers, ∀ p ∈ a.owed, ∀ l, a.request = .list p.artifact.runId →
    a.result = .ok (.listed l) → named p l = [p.artifact]
  /-- A list fails only if some manifest was damaged. -/
  lists : ∀ a ∈ s.answers, a.healthy = true → ∀ runId, a.request = .list runId →
    ∃ l, a.result = .ok (.listed l)
  /-- A put that succeeds returns the artifact of its request. -/
  results : ∀ e ∈ s.lock.entries, ∀ b, e.result = .ok b → b = e.work.artifact
  /-- Putting again what is there changes nothing. -/
  again : ∀ p ∈ s.intact, ∀ p' : Put sha256 limit, p'.artifact = p.artifact → p'.data = p.data →
    (p'.program number).run perform s.files = (.ok p.artifact, s.files)

/-! ## Requests -/

theorem prepare_ok {request : PutArtifactRequest} {uuids : String × String} {p : Put sha256 limit}
    (h : prepare sha256 limit request uuids = .ok p) : p.artifact.runId.1 = request.runId ∧
      p.artifact.name.1 = request.name ∧ p.artifact.mediaType.1 = request.mediaType ∧
        p.data = request.data := by
  unfold prepare at h
  split at h
  · cases h
  · rename_i runId hrunId
    split at h
    · cases h
    · rename_i name hname
      split at h
      · cases h
      · rename_i mediaType hmediaType
        split at h
        · cases h
        · cases h
          have hid := parseRunId_ok.mp hrunId
          simp only [Option.some.injEq, SafeData.JsValue.string.injEq] at hid
          exact ⟨hid.symm, (boundedText_ok hname).1, (boundedText_ok hmediaType).1, rfl⟩

theorem artifact_ext {a b : Artifact} (hid : a.artifactId = b.artifactId)
    (hrunId : a.runId.1 = b.runId.1) (hname : a.name.1 = b.name.1)
    (hmediaType : a.mediaType.1 = b.mediaType.1) (hsize : a.sizeBytes = b.sizeBytes)
    (hsha : a.sha256 = b.sha256) : a = b := by
  obtain ⟨_, _, _, _, _, _⟩ := a
  obtain ⟨_, _, _, _, _, _⟩ := b
  cases hid
  cases Subtype.ext hrunId
  cases Subtype.ext hname
  cases Subtype.ext hmediaType
  cases hsize
  cases hsha
  rfl

/-- Equal requests are for one artifact. -/
theorem prepare_same {request : PutArtifactRequest} {uuids uuids' : String × String}
    {p p' : Put sha256 limit} (h : prepare sha256 limit request uuids = .ok p)
    (h' : prepare sha256 limit request uuids' = .ok p') :
    p'.artifact = p.artifact ∧ p'.data = p.data := by
  obtain ⟨hrunId, hname, hmediaType, hdata⟩ := prepare_ok h
  obtain ⟨hrunId', hname', hmediaType', hdata'⟩ := prepare_ok h'
  have hsame : p'.data = p.data := hdata'.trans hdata.symm
  have hsha : p'.artifact.sha256 = p.artifact.sha256 := by rw [p'.digest, p.digest, hsame]
  have hsize : p'.artifact.sizeBytes = p.artifact.sizeBytes :=
    Subtype.ext (by rw [p'.size, p.size, hsame])
  have hid := p'.identified
  rw [Subtype.ext (hrunId'.trans hrunId.symm), Subtype.ext (hname'.trans hname.symm),
    Subtype.ext (hmediaType'.trans hmediaType.symm), hsha, ← p.identified] at hid
  exact ⟨artifact_ext hid (hrunId'.trans hrunId.symm) (hname'.trans hname.symm)
    (hmediaType'.trans hmediaType.symm) hsize hsha, hsame⟩

/-! ## Digests that tell texts apart -/

theorem encoded_inj {a b : String} (h : encoded a = encoded b) : a = b := by
  have hdecoded := congrArg Utf8.decodeLossy h
  rw [encoded, encoded, decodeLossy_encode, decodeLossy_encode] at hdecoded
  exact String.toList_injective hdecoded

theorem apart_of_collisionFree {calls : List (Put sha256 limit)}
    (h : CollisionFree sha256 (calls.flatMap Put.hashed)) {p q : Put sha256 limit} (hp : p ∈ calls)
    (hq : q ∈ calls) : Apart p q where
  ids hids := by
    have hmem : ∀ r ∈ calls, encoded r.artifact.artifactId.1 ∈ calls.flatMap Put.hashed :=
      fun r hr => List.mem_flatMap.mpr ⟨r, hr, by simp [Put.hashed, namingTexts]⟩
    exact Subtype.ext (encoded_inj (h _ (hmem p hp) _ (hmem q hq) hids))
  data hdata := by
    have hmem : ∀ r ∈ calls, r.data ∈ calls.flatMap Put.hashed :=
      fun r hr => List.mem_flatMap.mpr ⟨r, hr, List.mem_cons_self⟩
    exact h _ (hmem p hp) _ (hmem q hq) hdata

theorem suffix_inj {a b c d : String} (h : a ++ b = c ++ d)
    (hlength : b.toList.length = d.toList.length) : b = d := by
  have hchars := congrArg String.toList h
  rw [String.toList_append, String.toList_append] at hchars
  exact String.toList_injective (List.append_inj_right' hchars hlength)

/-- The text of an identity ends in the digest of the bytes. -/
theorem identity_inj {a b : Artifact}
    (h : identity a.runId a.name a.mediaType a.sha256 = identity b.runId b.name b.mediaType b.sha256) :
    a.sha256 = b.sha256 :=
  Subtype.ext (suffix_inj h ((sha256_toList a.sha256).1.trans (sha256_toList b.sha256).1.symm))

/-- Artifacts of one identifier have one digest. -/
theorem sha256_of_artifactId {a b : Artifact} {texts : List Bytes} (h : CollisionFree sha256 texts)
    (hsub : ∀ x ∈ namingTexts a ++ namingTexts b, x ∈ texts)
    (ha : a.artifactId = createArtifactId sha256 a.runId a.name a.mediaType a.sha256)
    (hb : b.artifactId = createArtifactId sha256 b.runId b.name b.mediaType b.sha256)
    (hid : a.artifactId = b.artifactId) : a.sha256 = b.sha256 := by
  rw [ha, hb] at hid
  have hchars := congrArg (String.toList ∘ Subtype.val) hid
  simp only [Function.comp_apply, createArtifactId, String.toList_append] at hchars
  have hhash : sha256 (encoded (identity a.runId a.name a.mediaType a.sha256)) =
      sha256 (encoded (identity b.runId b.name b.mediaType b.sha256)) :=
    Subtype.ext (String.toList_injective (List.append_cancel_left hchars))
  exact identity_inj (encoded_inj (h _ (hsub _ (by simp [namingTexts])) _
    (hsub _ (by simp [namingTexts])) hhash))

/-! ## What a read may be trusted with -/

/-- As long as the first condition holds whenever the read makes a call, its
result satisfies the second. -/
inductive Contract (number : NumberText → Option ℚ) (calls owed : List (Put sha256 limit))
    (intact : Bool) : ReadRequest → (Files → Prop) → (Except Failure ReadResult → Prop) → Prop
  | quiet (request : ReadRequest) :
    Contract number calls owed intact request (fun _ => True) fun _ => True
  | genuine (artifactId : String) :
    Contract number calls owed intact (.get artifactId) (fun _ => True)
      fun result => ∀ found, result = .ok (.stored (some found)) → Genuine sha256 artifactId found
  | absent (artifactId : String)
    (h : ∀ p ∈ calls, hash sha256 p.artifact.artifactId.1 ≠ hash sha256 artifactId) :
    Contract number calls owed intact (.get artifactId)
      (fun t => t.get? (manifestPlace sha256 artifactId) = none)
      fun result => ∀ found, result ≠ .ok (.stored (some found))
  | found (p : Put sha256 limit) (h : p ∈ owed) :
    Contract number calls owed intact (.get p.artifact.artifactId.1) (Holds number p)
      fun result => ∃ content, result = .ok (.stored (some ⟨p.artifact, content⟩)) ∧
        sha256 content = p.artifact.sha256
  | listed (p : Put sha256 limit) (h : p ∈ owed) :
    Contract number calls owed intact (.list p.artifact.runId) (Holds number p)
      fun result => ∀ l, result = .ok (.listed l) → named p l = [p.artifact]
  | lists (runId : RunId) (h : intact = true) :
    Contract number calls owed intact (.list runId) (fun t => healthy sha256 number t = true)
      fun result => ∃ l, result = .ok (.listed l)

/-- With fewer calls, and with more that is owed, more may be trusted. -/
theorem Contract.mono {calls calls' owed owed' : List (Put sha256 limit)} {intact intact' : Bool}
    {request : ReadRequest} {J : Files → Prop} {Q : Except Failure ReadResult → Prop}
    (h : Contract number calls' owed' intact' request J Q) (hcalls : ∀ p ∈ calls, p ∈ calls')
    (howed : ∀ p ∈ owed', p ∈ owed) (hintact : intact' = true → intact = true) :
    Contract number calls owed intact request J Q := by
  cases h with
  | quiet => exact .quiet request
  | genuine artifactId => exact .genuine artifactId
  | absent artifactId h => exact .absent artifactId fun p hp => h p (hcalls p hp)
  | found p h => exact .found p (howed p h)
  | listed p h => exact .listed p (howed p h)
  | lists runId h => exact .lists runId (hintact h)

theorem reads_stored {J : Files → Prop} {Q : Except Failure (Option StoredArtifact) → Prop}
    {P : Except Failure ReadResult → Prop} {artifactId : String}
    (h : Reads J Q (get sha256 number limit artifactId))
    (hok : ∀ value, Q (.ok value) → P (.ok (.stored value)))
    (herror : ∀ e, Q (.error e) → P (.error e)) :
    Reads J P (readProgram sha256 number limit (.get artifactId)) := by
  refine under_bind (Under.mono h fun result hresult => ?_)
  cases result with
  | error e => exact herror e hresult
  | ok value => exact hok value hresult

theorem reads_listed {J : Files → Prop} {Q : Except Failure (List Artifact) → Prop}
    {P : Except Failure ReadResult → Prop} {runId : RunId}
    (h : Reads J Q (list sha256 number runId))
    (hok : ∀ values, Q (.ok values) → P (.ok (.listed values)))
    (herror : ∀ e, Q (.error e) → P (.error e)) :
    Reads J P (readProgram sha256 number limit (.list runId)) := by
  refine under_bind (Under.mono h fun result hresult => ?_)
  cases result with
  | error e => exact herror e hresult
  | ok values => exact hok values hresult

/-- Every read keeps its contracts. -/
theorem readProgram_contract {calls owed : List (Put sha256 limit)} {intact : Bool}
    {request : ReadRequest} {J : Files → Prop} {Q : Except Failure ReadResult → Prop}
    (h : Contract number calls owed intact request J Q) :
    Reads J Q (readProgram sha256 number limit request) := by
  cases h with
  | quiet =>
    cases request with
    | get artifactId => exact reads_stored (get_reads _ artifactId) (fun _ _ => trivial) fun _ _ => trivial
    | list runId =>
      exact reads_listed (list_reads (Q := fun _ => True) runId (fun _ => trivial)
        fun _ _ _ _ _ _ => trivial) (fun _ _ => trivial) fun _ _ => trivial
  | genuine artifactId =>
    refine reads_stored (get_reads _ artifactId) (fun value hvalue found hfound => ?_) fun _ _ => nofun
    cases hfound
    exact (hvalue found rfl).1
  | absent artifactId =>
    refine reads_stored (get_reads _ artifactId) (fun value hvalue found hfound => ?_) fun _ _ => nofun
    cases hfound
    obtain ⟨-, t, ht, hsome⟩ := hvalue found rfl
    rw [ht] at hsome
    cases hsome
  | found p =>
    refine reads_stored (get_finds p) (fun value hvalue => ?_) fun e he => ?_
    · obtain ⟨content, heq, hdigest⟩ := hvalue
      cases heq
      exact ⟨content, rfl, hdigest⟩
    · obtain ⟨_, heq, -⟩ := he
      cases heq
  | listed p =>
    refine reads_listed (list_finds p) (fun values hvalues l hl => ?_) fun _ _ => nofun
    cases hl
    exact hvalues values rfl
  | lists runId =>
    refine reads_listed (list_succeeds runId) (fun values _ => ⟨values, rfl⟩) fun e he => ?_
    obtain ⟨l, hl⟩ := he
    cases hl

/-! ## The invariant -/

/-- The names of the manifests that may be there. -/
def Known (calls : List (Put sha256 limit)) (place : Place) : Prop :=
  place.directory = manifests →
    (∃ p ∈ calls, place = manifestPlace sha256 p.artifact.artifactId.1) ∨
      ∃ target uuid, place = temporary target uuid

/-- A read under way is owed what is intact, and keeps its contracts. -/
structure ReaderSound (number : NumberText → Option ℚ) (calls intact : List (Put sha256 limit))
    (files : Files) (r : Reader sha256 limit) : Prop where
  owed : ∀ p ∈ r.owed, p ∈ intact
  healthy : r.healthy = true → healthy sha256 number files = true
  contract : ∀ J Q, Contract number calls r.owed r.healthy r.request J Q → Reads J Q r.program

/-- What was answered is as the contracts say. -/
structure AnswerSound (number : NumberText → Option ℚ) (calls : List (Put sha256 limit))
    (a : Answer sha256 limit) : Prop where
  owed : ∀ p ∈ a.owed, p ∈ calls
  contract : ∀ J Q, Contract number calls a.owed a.healthy a.request J Q → Q a.result

/-- The put that runs. -/
structure PieceSound (number : NumberText → Option ℚ) (s : State sha256 limit)
    (piece : Locked.Piece (Put sha256 limit) Command Reply Failure Artifact Files) : Prop where
  called : piece.work ∈ s.calls
  confined : Confined piece.work piece.program
  undisturbed : s.disturbed = false → piece.program.Ensures perform
    (fun _ t => Kept number s.intact t) (Done number piece.work s.intact) s.files

structure Sound (number : NumberText → Option ℚ) (s : State sha256 limit) : Prop where
  ordered : s.lock.tail.Ordered Locked.chains
  waiting : ∀ w ∈ s.lock.tail.waiting, w.work ∈ s.calls
  running : ∀ piece ∈ s.lock.tail.running, PieceSound number s piece
  results : ∀ e ∈ s.lock.entries, ∀ b, e.result = .ok b → b = e.work.artifact
  intact : ∀ p ∈ s.intact, p ∈ s.calls
  disturbed : s.disturbed = true → s.intact = []
  kept : Kept number s.intact s.files
  known : ∀ place node, s.files.get? place = some node → Known s.calls place
  readers : ∀ r ∈ s.readers, ReaderSound number s.calls s.intact s.files r
  answers : ∀ a ∈ s.answers, AnswerSound number s.calls a

variable {s s' : State sha256 limit}

theorem Known.mono {calls calls' : List (Put sha256 limit)} {place : Place} (h : Known calls place)
    (hcalls : ∀ p ∈ calls, p ∈ calls') : Known calls' place := by
  intro hdirectory
  rcases h hdirectory with ⟨p, hp, hplace⟩ | htemporary
  · exact .inl ⟨p, hcalls p hp, hplace⟩
  · exact .inr htemporary

/-- The places a put may change are known. -/
theorem known_writes {calls : List (Put sha256 limit)} {p : Put sha256 limit} (hp : p ∈ calls)
    {place : Place} (hplace : place ∈ p.writes) : Known calls place := by
  intro hdirectory
  simp only [Put.writes, Put.blobPlaces, Put.manifestPlaces, List.mem_append, List.mem_cons,
    List.not_mem_nil, or_false] at hplace
  rcases hplace with (rfl | htemporary) | (hmanifest | htemporary)
  · exact absurd hdirectory (show blobs ≠ manifests by decide)
  · exact .inr ⟨_, _, htemporary⟩
  · exact .inl ⟨p, hp, hmanifest⟩
  · exact .inr ⟨_, _, htemporary⟩

theorem ReaderSound.mono {calls calls' intact intact' : List (Put sha256 limit)} {files : Files}
    {r : Reader sha256 limit} (h : ReaderSound number calls intact files r)
    (hcalls : ∀ p ∈ calls, p ∈ calls') (hintact : ∀ p ∈ intact, p ∈ intact') :
    ReaderSound number calls' intact' files r where
  owed p hp := hintact p (h.owed p hp)
  healthy := h.healthy
  contract J Q hcontract := h.contract J Q (hcontract.mono hcalls (fun _ hp => hp) id)

theorem AnswerSound.mono {calls calls' : List (Put sha256 limit)} {a : Answer sha256 limit}
    (h : AnswerSound number calls a) (hcalls : ∀ p ∈ calls, p ∈ calls') :
    AnswerSound number calls' a where
  owed p hp := hcalls p (h.owed p hp)
  contract J Q hcontract := h.contract J Q (hcontract.mono hcalls (fun _ hp => hp) id)

theorem AnswerSound.result {calls : List (Put sha256 limit)} {a : Answer sha256 limit}
    {request : ReadRequest} {J : Files → Prop} {Q : Except Failure ReadResult → Prop}
    (h : AnswerSound number calls a) (hrequest : a.request = request)
    (hcontract : Contract number calls a.owed a.healthy request J Q) : Q a.result :=
  h.contract J Q (hrequest ▸ hcontract)

/-- A reader that has taken note of other files. -/
theorem ReaderSound.observe {calls intact intact' : List (Put sha256 limit)} {files files' : Files}
    {r : Reader sha256 limit} {owed : List (Put sha256 limit)}
    (h : ReaderSound number calls intact files r) (hsub : ∀ p ∈ owed, p ∈ r.owed)
    (howed : ∀ p ∈ owed, p ∈ intact') : ReaderSound number calls intact' files'
      { r with owed := owed, healthy := r.healthy && ArtifactStore.healthy sha256 number files' } where
  owed := howed
  healthy hhealthy := (Bool.and_eq_true_iff.mp hhealthy).2
  contract J Q hcontract := h.contract J Q
    (hcontract.mono (fun _ hp => hp) hsub fun hhealthy => (Bool.and_eq_true_iff.mp hhealthy).1)

/-- What a contract asks for is so when the next call is made. -/
theorem Sound.now (h : Sound number s) {r : Reader sha256 limit} (hr : ReaderSound number s.calls s.intact s.files r)
    {J : Files → Prop} {Q : Except Failure ReadResult → Prop}
    (hcontract : Contract number s.calls r.owed r.healthy r.request J Q) : J s.files := by
  generalize r.request = request at hcontract
  cases hcontract with
  | quiet => trivial
  | genuine => trivial
  | absent artifactId habsent =>
    cases hnode : s.files.get? (manifestPlace sha256 artifactId) with
    | none => rfl
    | some node =>
      rcases h.known _ node hnode rfl with ⟨p, hp, hplace⟩ | ⟨target, uuid, hplace⟩
      · exact absurd (manifestName_inj (congrArg Place.name hplace)).symm (habsent p hp)
      · exact absurd hplace (manifestPlace_ne_temporary _ _ _)
  | found p hp => exact h.kept p (hr.owed p hp)
  | listed p hp => exact h.kept p (hr.owed p hp)
  | lists runId hhealthy => exact hr.healthy hhealthy

theorem Sound.put {p : Put sha256 limit} (h : Sound number s) : Sound number
    { s with
      lock := { s.lock with tail := s.lock.tail.enqueue Locked.chains p }
      calls := s.calls ++ [p] } where
  ordered := h.ordered.enqueue p
  waiting := by
    intro w hw
    rcases List.mem_append.mp hw with hold | hnew
    · exact List.mem_append_left _ (h.waiting w hold)
    · rw [List.mem_singleton.mp hnew]
      exact List.mem_append_right _ List.mem_cons_self
  running piece hpiece :=
    have hsound := h.running piece hpiece
    ⟨List.mem_append_left _ hsound.called, hsound.confined, hsound.undisturbed⟩
  results := h.results
  intact p hp := List.mem_append_left _ (h.intact p hp)
  disturbed := h.disturbed
  kept := h.kept
  known place node hnode := (h.known place node hnode).mono fun _ hp => List.mem_append_left _ hp
  readers r hr := (h.readers r hr).mono (fun _ hp => List.mem_append_left _ hp) fun _ hp => hp
  answers a ha := (h.answers a ha).mono fun _ hp => List.mem_append_left _ hp

theorem Sound.startPut {i : Nat} {lock : Locked.State (Put sha256 limit) Command Reply Failure
    Artifact Files} (hnumber : Exact number) (h : Sound number s)
    (hfree : CollisionFree sha256 (s.calls.flatMap Put.hashed))
    (hstep : Locked.next perform (Put.program number) s.lock (.start i) = some lock) :
    Sound number { s with lock := lock, disturbed := false } := by
  obtain ⟨⟨work, tail⟩, hbegin, rfl⟩ := Option.map_eq_some_iff.mp hstep
  obtain ⟨hbegins, hordered⟩ := h.ordered.begin hbegin
  obtain ⟨after, hwaiting⟩ := hbegins.waiting
  have hwork : work ∈ s.calls := h.waiting ⟨after, work⟩ (hwaiting ▸ List.mem_cons_self)
  refine ⟨hordered, ?_, ?_, h.results, h.intact, nofun, h.kept, h.known, h.readers, h.answers⟩
  · intro w hw
    exact h.waiting w (hwaiting ▸ List.mem_cons_of_mem _ hw)
  · intro piece hpiece
    rw [hbegins.running] at hpiece
    obtain rfl := List.mem_singleton.mp hpiece
    refine ⟨hwork, put_confined hnumber work, fun _ => ?_⟩
    exact put_ensures hnumber h.kept fun q hq => apart_of_collisionFree hfree hwork (h.intact q hq)

theorem Sound.stepPut {i : Nat} {lock : Locked.State (Put sha256 limit) Command Reply Failure
    Artifact Files} (h : Sound number s)
    (hstep : Locked.next perform (Put.program number) s.lock (.step i) = some lock) :
    Sound number (State.observe number { s with lock := lock }) := by
  obtain ⟨piece, hpiece, hadvanced⟩ := Option.bind_eq_some_iff.mp hstep
  obtain ⟨⟨program, files⟩, hadvance, rfl⟩ := Option.map_eq_some_iff.mp hadvanced
  have hsound := h.running piece (List.mem_of_getElem? hpiece)
  obtain ⟨honly, hconfined⟩ := hsound.confined.advance trivial hadvance
  have hkept : Kept number s.intact files := by
    cases hdisturbed : s.disturbed with
    | false => exact ((hsound.undisturbed hdisturbed).advance hadvance).1
    | true =>
      rw [h.disturbed hdisturbed]
      exact fun q hq => nomatch hq
  refine ⟨h.ordered.goOn i _, h.waiting, ?_, h.results, h.intact, h.disturbed, hkept, ?_, ?_, h.answers⟩
  · intro piece' hpiece'
    obtain ⟨j, hj⟩ := List.mem_iff_getElem?.mp hpiece'
    have hlength : s.lock.tail.running.length ≤ 1 := h.ordered.single
    obtain ⟨hi, -⟩ := List.getElem?_eq_some_iff.mp hpiece
    obtain ⟨hj', -⟩ := List.getElem?_eq_some_iff.mp hj
    have hj'' : j < (s.lock.tail.running.set i { piece with program := program }).length := hj'
    rw [List.length_set] at hj''
    obtain rfl : j = i := by omega
    have hself : (s.lock.tail.running.set j { piece with program := program })[j]? = some piece' := hj
    rw [List.getElem?_set_self hi] at hself
    cases hself
    exact ⟨hsound.called, hconfined,
      fun hdisturbed => ((hsound.undisturbed hdisturbed).advance hadvance).2⟩
  · intro place node hnode
    by_cases hwrites : place ∈ piece.work.writes
    · exact known_writes hsound.called hwrites
    · exact h.known place node ((honly place hwrites).symm.trans hnode)
  · intro r hr
    obtain ⟨r', hr', rfl⟩ := List.mem_map.mp hr
    exact (h.readers r' hr').observe (fun _ hp => hp) (h.readers r' hr').owed

theorem Sound.settlePut {i : Nat} {lock : Locked.State (Put sha256 limit) Command Reply Failure
    Artifact Files} (h : Sound number s)
    (hstep : Locked.next perform (Put.program number) s.lock (.settle i) = some lock) :
    Sound number { s with lock := lock, intact := s.succeeded i } := by
  simp only [Locked.next] at hstep
  split at hstep
  · rename_i work result before hpiece
    obtain ⟨⟨piece, tail⟩, hsettle, rfl⟩ := Option.map_eq_some_iff.mp hstep
    obtain ⟨-, hquiet, hwaiting, hordered⟩ := h.ordered.settle hsettle
    have hsound := h.running _ (List.mem_of_getElem? hpiece)
    have hsub : ∀ p ∈ s.intact, p ∈ s.succeeded i := by
      intro p hp
      unfold State.succeeded
      split
      · split
        · exact hp
        · exact List.mem_append_left _ hp
      · exact hp
    have hnew : ∀ p ∈ s.succeeded i, p ∈ s.intact ∨ s.disturbed = false ∧ p = work ∧
        ∃ b, result = .ok b := by
      intro p hp
      unfold State.succeeded at hp
      rw [hpiece] at hp
      split at hp
      · rename_i work' b _ heq
        cases heq
        split at hp
        · exact .inl hp
        · rename_i hdisturbed
          rcases List.mem_append.mp hp with hold | hlast
          · exact .inl hold
          · exact .inr ⟨Bool.eq_false_iff.mpr hdisturbed, List.mem_singleton.mp hlast, b, rfl⟩
      · exact .inl hp
    refine ⟨hordered, ?_, ?_, ?_, ?_, ?_, ?_, h.known, ?_, h.answers⟩
    · intro w hw
      exact h.waiting w (hwaiting ▸ hw)
    · intro piece' hpiece'
      have hmem : piece' ∈ tail.running := hpiece'
      rw [hquiet] at hmem
      cases hmem
    · intro e he b hb
      rcases List.mem_append.mp he with hold | hlast
      · exact h.results e hold b hb
      · rw [List.mem_singleton.mp hlast] at hb ⊢
        exact hsound.confined b hb
    · intro p hp
      rcases hnew p hp with hold | ⟨-, rfl, -⟩
      · exact h.intact p hold
      · exact hsound.called
    · intro hdisturbed
      have hnone := h.disturbed hdisturbed
      refine List.eq_nil_iff_forall_not_mem.mpr fun p hp => ?_
      rcases hnew p hp with hold | ⟨hundisturbed, -⟩
      · rw [hnone] at hold
        cases hold
      · have hdisturbed : s.disturbed = true := hdisturbed
        rw [hundisturbed] at hdisturbed
        cases hdisturbed
    · intro p hp
      rcases hnew p hp with hold | ⟨hundisturbed, rfl, b, rfl⟩
      · exact h.kept p hold
      · exact ((hsound.undisturbed hundisturbed).2 b rfl).2
    · intro r hr
      exact (h.readers r hr).mono (fun _ hp => hp) hsub
  · cases hstep

theorem Sound.read {request : ReadRequest} (h : Sound number s) : Sound number
    { s with
      readers := s.readers ++ [⟨request, readProgram sha256 number limit request, s.intact,
        healthy sha256 number s.files⟩] } := by
  refine ⟨h.ordered, h.waiting, fun piece hpiece => ?_, h.results, h.intact, h.disturbed, h.kept,
    h.known, ?_, h.answers⟩
  · have hsound := h.running piece hpiece
    exact ⟨hsound.called, hsound.confined, hsound.undisturbed⟩
  intro r hr
  rcases List.mem_append.mp hr with hold | hnew
  · exact h.readers r hold
  · rw [List.mem_singleton.mp hnew]
    exact ⟨fun _ hp => hp, id, fun J Q hcontract => readProgram_contract hcontract⟩

/-- Taking note of the same files changes nothing that matters. -/
theorem Sound.observe (h : Sound number s) : Sound number (s.observe number) := by
  refine ⟨h.ordered, h.waiting, fun piece hpiece => ?_, h.results, h.intact, h.disturbed, h.kept,
    h.known, ?_, h.answers⟩
  · have hsound := h.running piece hpiece
    exact ⟨hsound.called, hsound.confined, hsound.undisturbed⟩
  · intro r hr
    obtain ⟨r', hr', rfl⟩ := List.mem_map.mp hr
    exact (h.readers r' hr').observe (fun _ hp => hp) (h.readers r' hr').owed

theorem Sound.stepRead {i : Nat} {r : Reader sha256 limit} {program : Work ReadResult} {files : Files}
    (h : Sound number s) (hr : s.readers[i]? = some r)
    (hadvance : r.program.advance perform s.files = some (program, files)) :
    Sound number
      { s with
        lock := { s.lock with shared := files }
        readers := s.readers.set i { r with program := program } } := by
  have hsound := h.readers r (List.mem_of_getElem? hr)
  have hsame : files = s.files :=
    ((hsound.contract _ _ (.quiet r.request)).advance trivial hadvance).1
  subst hsame
  refine ⟨h.ordered, h.waiting, fun piece hpiece => ?_, h.results, h.intact, h.disturbed, h.kept,
    h.known, ?_, h.answers⟩
  · have hpieceSound := h.running piece hpiece
    exact ⟨hpieceSound.called, hpieceSound.confined, hpieceSound.undisturbed⟩
  · intro r' hr'
    rcases List.mem_or_eq_of_mem_set hr' with hold | hnew
    · exact h.readers r' hold
    · subst hnew
      refine ⟨hsound.owed, hsound.healthy, fun J Q hcontract => ?_⟩
      exact ((hsound.contract J Q hcontract).advance (h.now hsound hcontract) hadvance).2

theorem Sound.settleRead {i : Nat} {request : ReadRequest} {result : Except Failure ReadResult}
    {owed : List (Put sha256 limit)} {intact : Bool} (h : Sound number s)
    (hr : s.readers[i]? = some ⟨request, .done result, owed, intact⟩) : Sound number
      { s with
        readers := s.readers.eraseIdx i
        answers := s.answers ++ [⟨request, result, owed, intact⟩] } := by
  refine ⟨h.ordered, h.waiting, fun piece hpiece => ?_, h.results, h.intact, h.disturbed, h.kept,
    h.known, ?_, ?_⟩
  · have hsound := h.running piece hpiece
    exact ⟨hsound.called, hsound.confined, hsound.undisturbed⟩
  · intro r hmem
    exact h.readers r (List.mem_of_mem_eraseIdx hmem)
  · intro a ha
    rcases List.mem_append.mp ha with hold | hnew
    · exact h.answers a hold
    · have hsound := h.readers _ (List.mem_of_getElem? hr)
      rw [List.mem_singleton.mp hnew]
      exact ⟨fun p hp => h.intact p (hsound.owed p hp), hsound.contract⟩

theorem Sound.damage {place : Place} {node : Option Node} (h : Sound number s)
    (hthere : s.files.has place = true) : Sound number (State.observe number
      { s with
        lock := { s.lock with shared := damaged s.files place node }
        disturbed := true
        intact := []
        readers := s.readers.map fun r => { r with owed := [] } }) := by
  obtain ⟨old, hold⟩ := OrderedMap.has_eq_true_iff.mp hthere
  refine ⟨h.ordered, h.waiting, fun piece hpiece => ?_, h.results, (fun p hp => nomatch hp),
    fun _ => rfl, (fun q hq => nomatch hq), ?_, ?_, h.answers⟩
  · have hsound := h.running piece hpiece
    exact ⟨hsound.called, hsound.confined, nofun⟩
  · intro place' node' hnode
    have hnode : (damaged s.files place node).get? place' = some node' := hnode
    unfold damaged at hnode
    split at hnode
    · rw [OrderedMap.get?_erase] at hnode
      split at hnode
      · cases hnode
      · exact h.known place' node' hnode
    · rw [OrderedMap.get?_set] at hnode
      split at hnode
      · rename_i heq
        exact heq ▸ h.known place old hold
      · exact h.known place' node' hnode
  · intro r hr
    obtain ⟨r', hr', rfl⟩ := List.mem_map.mp hr
    obtain ⟨r'', hr'', rfl⟩ := List.mem_map.mp hr'
    exact (h.readers r'' hr'').observe nofun nofun

theorem Sound.next {event : Event} (hnumber : Exact number) (h : Sound number s)
    (hfree : CollisionFree sha256 (s.calls.flatMap Put.hashed))
    (hstep : next number s event = some s') : Sound number s' := by
  cases event with
  | put request uuids =>
    simp only [ArtifactStore.next] at hstep
    split at hstep
    · cases hstep
      exact h
    · cases hstep
      exact h.put
  | startPut i =>
    obtain ⟨lock, hlock, rfl⟩ := Option.map_eq_some_iff.mp hstep
    exact h.startPut hnumber hfree hlock
  | stepPut i =>
    obtain ⟨lock, hlock, rfl⟩ := Option.map_eq_some_iff.mp hstep
    exact h.stepPut hlock
  | settlePut i =>
    obtain ⟨lock, hlock, rfl⟩ := Option.map_eq_some_iff.mp hstep
    exact h.settlePut hlock
  | read request =>
    cases hstep
    exact h.read
  | stepRead i =>
    obtain ⟨r, hr, hadvanced⟩ := Option.bind_eq_some_iff.mp hstep
    obtain ⟨⟨program, files⟩, hadvance, rfl⟩ := Option.map_eq_some_iff.mp hadvanced
    exact (h.stepRead hr hadvance).observe
  | settleRead i =>
    simp only [ArtifactStore.next] at hstep
    split at hstep
    · rename_i hr
      cases hstep
      exact h.settleRead hr
    · cases hstep
  | damage place node =>
    simp only [ArtifactStore.next] at hstep
    split at hstep
    · rename_i hthere
      cases hstep
      exact h.damage hthere
    · cases hstep

/-- No call is forgotten. -/
theorem calls_grow {event : Event} (hstep : next number s event = some s') :
    ∀ p ∈ s.calls, p ∈ s'.calls := by
  intro p hp
  cases event with
  | put request uuids =>
    simp only [ArtifactStore.next] at hstep
    split at hstep
    · cases hstep
      exact hp
    · cases hstep
      exact List.mem_append_left _ hp
  | startPut i | stepPut i | settlePut i =>
    obtain ⟨lock, -, rfl⟩ := Option.map_eq_some_iff.mp hstep
    exact hp
  | read request =>
    cases hstep
    exact hp
  | stepRead i =>
    obtain ⟨r, -, hadvanced⟩ := Option.bind_eq_some_iff.mp hstep
    obtain ⟨advanced, -, rfl⟩ := Option.map_eq_some_iff.mp hadvanced
    exact hp
  | settleRead i | damage place node =>
    simp only [ArtifactStore.next] at hstep
    split at hstep
    · cases hstep
      exact hp
    · cases hstep

theorem sound_invariant (hnumber : Exact number) : (store sha256 number limit).Invariant
    fun s => CollisionFree sha256 (s.calls.flatMap Put.hashed) → Sound number s where
  init := by
    intro s hs _
    cases hs
    exact ⟨.idle, nofun, nofun, nofun, nofun, nofun, nofun, nofun, nofun, nofun⟩
  step := by
    intro s event s' _ ih hstep hfree
    have hfree' : CollisionFree sha256 (s.calls.flatMap Put.hashed) := by
      refine hfree.mono fun x hx => ?_
      obtain ⟨p, hp, hx⟩ := List.mem_flatMap.mp hx
      exact List.mem_flatMap.mpr ⟨p, calls_grow hstep p hp, hx⟩
    exact (ih hfree').next hnumber hfree' hstep

/-! ## Runs -/

theorem State.hashed_call {p : Put sha256 limit} (hp : p ∈ s.calls) :
    ∀ x ∈ p.data :: namingTexts p.artifact, x ∈ s.hashed :=
  fun _ hx => List.mem_append_left _ (List.mem_flatMap.mpr ⟨p, hp, hx⟩)

theorem State.hashed_answer {a : Answer sha256 limit} (ha : a ∈ s.answers) :
    ∀ x ∈ a.hashed, x ∈ s.hashed :=
  fun _ hx => List.mem_append_right _ (List.mem_flatMap.mpr ⟨a, ha, hx⟩)

theorem Answer.hashed_get {a : Answer sha256 limit} {id : String} (h : a.request = .get id) :
    encoded id ∈ a.hashed := by
  simp [Answer.hashed, h]

theorem Answer.hashed_found {a : Answer sha256 limit} {found : StoredArtifact}
    (h : a.result = .ok (.stored (some found))) :
    ∀ x ∈ found.data :: namingTexts found.artifact, x ∈ a.hashed := by
  intro x hx
  unfold Answer.hashed
  rw [h]
  exact List.mem_append_right _ hx

/-- An artifact that was found under the identifier of a put has its bytes. -/
theorem Genuine.data_eq (hfree : CollisionFree sha256 s.hashed) {id : String} {found : StoredArtifact}
    (h : Genuine sha256 id found) {a : Answer sha256 limit} (ha : a ∈ s.answers)
    (hresult : a.result = .ok (.stored (some found))) {p : Put sha256 limit} (hp : p ∈ s.calls)
    (hid : p.artifact.artifactId.1 = id) : found.data = p.data := by
  have hfound : ∀ x ∈ found.data :: namingTexts found.artifact, x ∈ s.hashed :=
    fun x hx => State.hashed_answer ha x (Answer.hashed_found hresult x hx)
  have hcall := State.hashed_call hp
  have hsha : found.artifact.sha256 = p.artifact.sha256 := by
    refine sha256_of_artifactId hfree (fun x hx => ?_) h.identified p.identified
      (Subtype.ext (h.id.trans hid.symm))
    rcases List.mem_append.mp hx with hleft | hright
    · exact hfound x (List.mem_cons_of_mem _ hleft)
    · exact hcall x (List.mem_cons_of_mem _ hright)
  have hdigest : sha256 found.data = sha256 p.data := by
    rw [h.digest, hsha, p.digest]
  exact hfree _ (hfound _ List.mem_cons_self) _ (hcall _ List.mem_cons_self) hdigest

theorem Sound.genuine (h : Sound number s) (hfree : CollisionFree sha256 s.hashed)
    {a : Answer sha256 limit} (ha : a ∈ s.answers) {id : String} {found : StoredArtifact}
    (hrequest : a.request = .get id) (hresult : a.result = .ok (.stored (some found))) :
    found.artifact.artifactId.1 = id ∧ (∃ p ∈ s.calls, p.artifact.artifactId.1 = id) ∧
      ∀ p ∈ s.calls, p.artifact.artifactId.1 = id → found.data = p.data := by
  have hsound := h.answers a ha
  have hgenuine : Genuine sha256 id found :=
    hsound.result hrequest (Contract.genuine id) found hresult
  refine ⟨hgenuine.id, ?_, fun p hp hid => hgenuine.data_eq hfree ha hresult hp hid⟩
  by_cases hput : ∃ p ∈ s.calls, hash sha256 p.artifact.artifactId.1 = hash sha256 id
  · obtain ⟨p, hp, hhash⟩ := hput
    have hcall := State.hashed_call hp (encoded p.artifact.artifactId.1) (by simp [namingTexts])
    have hget := State.hashed_answer ha (encoded id) (Answer.hashed_get hrequest)
    exact ⟨p, hp, encoded_inj (hfree _ hcall _ hget hhash)⟩
  · have habsent : ∀ p ∈ s.calls, hash sha256 p.artifact.artifactId.1 ≠ hash sha256 id :=
      fun p hp hhash => hput ⟨p, hp, hhash⟩
    exact absurd hresult (hsound.result hrequest (Contract.absent id habsent) found)

theorem Sound.found (h : Sound number s) (hfree : CollisionFree sha256 s.hashed)
    {a : Answer sha256 limit} (ha : a ∈ s.answers) {p : Put sha256 limit} (hp : p ∈ a.owed)
    (hrequest : a.request = .get p.artifact.artifactId.1) :
    a.result = .ok (.stored (some ⟨p.artifact, p.data⟩)) := by
  have hsound := h.answers a ha
  obtain ⟨content, hresult, -⟩ := hsound.result hrequest (Contract.found p hp)
  obtain ⟨-, -, hdata⟩ := h.genuine hfree ha hrequest hresult
  obtain rfl : content = p.data := hdata p (hsound.owed p hp) rfl
  exact hresult

/-- The conversion of the tokens that are natural numbers. -/
def naturalNumber (t : NumberText) : Option ℚ :=
  (Decimal.read? (t.text.map Char.ofNat)).map fun n => (n : ℚ)

theorem naturalNumber_exact : Exact naturalNumber := by
  intro n
  have hchars : (NumberText.ofNat n.1).text.map Char.ofNat = (toString n.1).toList := by
    rw [NumberText.ofNat_text, List.map_map]
    exact (List.map_congr_left fun c _ => Char.ofNat_toNat c).trans (List.map_id _)
  rw [naturalNumber, hchars, Decimal.read?_toString]
  rfl

def someRun : RunId := ⟨"run:11111111-1111-4111-8111-111111111111", by decide⟩

def blobDigest : Sha256 := ⟨"559aead08264d5795d3909718cdd05abd49572e84fe55590eef31a88a08fdffd", by decide⟩

def identifierDigest : Sha256 :=
  ⟨"073774b23a2d58bf4f37c0a77c2e7e30e5608b6500d7b87f79621be518348125", by decide⟩

def otherIdentifierDigest : Sha256 :=
  ⟨"61ef42a48223d06ad6c3ab630a8cd43ad6a784ab72ee698850f947f1bcd196c9", by decide⟩

def manifestDigest : Sha256 := ⟨"4d6875d6680a49a3479a68aba87adf50db5393263488a1b4130d74af8c04bd81", by decide⟩

def otherManifestDigest : Sha256 :=
  ⟨"b62a42f147dbb1f8c3e2fa37bee1f57465bd0988dc5370b1756454f07f596ed3", by decide⟩

/-- The digests of what the runs below hash, by its length and its byte at 41: the bytes of
both artifacts, their identities, their identifiers. -/
def tabulated (bytes : Bytes) : Sha256 :=
  match bytes.length, bytes.getD 41 0 with
  | 1, _ => blobDigest
  | 109, 97 => identifierDigest
  | 109, _ => otherIdentifierDigest
  | 73, 101 => manifestDigest
  | _, _ => otherManifestDigest

def megabyte : ByteLimit := ⟨⟨1024 * 1024, by decide⟩, by decide⟩

/-- An artifact without a blob takes eight calls, one whose blob is there six. -/
def putting (name : String) (calls : Nat) : List Event :=
  [.put ⟨someRun.1, name, "t", [65]⟩ ("u", "v"), .startPut 0] ++
    List.replicate calls (.stepPut 0) ++ [.settlePut 0]

def reading (request : ReadRequest) (calls : Nat) : List Event :=
  .read request :: List.replicate calls (.stepRead 0) ++ [.settleRead 0]

def storing : List Event :=
  putting "a" 8 ++ reading (.get ("artifact:" ++ identifierDigest.1)) 3

/-- The manifest of the first artifact is damaged before the second is put. -/
def listingDamaged : List Event :=
  putting "a" 8 ++ [.damage (manifestPlace tabulated ("artifact:" ++ identifierDigest.1)) (some (.file []))] ++
    putting "b" 6 ++ reading (.list someRun) 2

def replayed (events : List Event) : Option (State tabulated megabyte) :=
  System.replay (next naturalNumber) (opened tabulated megabyte) events

/-- A list whose only answer is an error, although an artifact of the run is owed. -/
def refusedList (s : State tabulated megabyte) : Bool :=
  match s.answers with
  | [⟨.list runId, .error _, [p], _⟩] => runId = p.artifact.runId
  | _ => false

/-- Both runs are evaluated together: they begin with the same put. -/
theorem runs_checked :
    (replayed storing).any (fun s => s.answers.any (fun a => !a.owed.isEmpty) &&
      decide (CollisionFree tabulated s.hashed)) = true ∧
    (replayed listingDamaged).any (fun s => refusedList s &&
      decide (CollisionFree tabulated s.hashed)) = true := by
  decide +kernel

end SurfaceLoom.Service.ArtifactStore
