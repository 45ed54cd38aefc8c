import SurfaceLoom.AgentService.ArtifactManifest

/-! # What puts and reads do

A put that succeeds leaves the manifest and the bytes of its artifact, and keeps
those of every other. A read answers with what is there, whatever is done to the
files between its calls. -/
namespace SurfaceLoom.Service.ArtifactStore
open SurfaceLoom.Lib SurfaceLoom.Lib.FileStore SurfaceLoom.Lib.Program
open SurfaceLoom.Lib.JsonText (NumberText)
open SurfaceLoom.Service.Validation SurfaceLoom.Service.StoredRun

section
variable {sha256 : Bytes → Sha256} {limit : ByteLimit} (number : NumberText → Option ℚ)
  (p : Put sha256 limit) (files : Files)

/-- The manifest of the artifact is at its place. -/
def Manifested : Prop :=
  ∃ content, files.get? (manifestPlace sha256 p.artifact.artifactId.1) = some (.file content) ∧
    checkManifest sha256 number (manifestName sha256 p.artifact.artifactId.1)
      (some p.artifact.artifactId.1) content = .ok p.artifact

/-- Bytes of its digest and its size are at theirs. -/
def Present : Prop :=
  ∃ content, files.get? (blobPlace p.artifact.sha256) = some (.file content) ∧
    content.length = p.data.length ∧ sha256 content = p.artifact.sha256

structure Holds : Prop where
  manifest : Manifested number p files
  blob : Present p files

end

variable {sha256 : Bytes → Sha256} {number : NumberText → Option ℚ} {limit : ByteLimit}
variable {p q : Put sha256 limit} {files files' : Files}

/-- Two puts whose digests tell them apart. -/
structure Apart (p q : Put sha256 limit) : Prop where
  ids : hash sha256 p.artifact.artifactId.1 = hash sha256 q.artifact.artifactId.1 →
    p.artifact.artifactId = q.artifact.artifactId
  data : sha256 p.data = sha256 q.data → p.data = q.data

/-! ## Places -/

theorem manifestPlace_ne_temporary (artifactId : String) (target : Place) (uuid : String) :
    manifestPlace sha256 artifactId ≠ temporary target uuid :=
  temporary_ne target uuid (hash sha256 artifactId) ".json" manifests

theorem blobPlace_ne_temporary (digest : Sha256) (target : Place) (uuid : String) :
    blobPlace digest ≠ temporary target uuid := by
  have h := temporary_ne target uuid digest "" blobs
  rwa [String.append_empty] at h

theorem blobPlace_ne_manifestPlace (digest : Sha256) (artifactId : String) :
    blobPlace digest ≠ manifestPlace sha256 artifactId := by
  intro h
  have hdirectory : blobs = manifests := congrArg Place.directory h
  exact absurd hdirectory (by decide)

theorem blobPlace_inj {a b : Sha256} (h : blobPlace a = blobPlace b) : a = b :=
  Subtype.ext (congrArg Place.name h)

theorem manifestName_inj {a b : String} (h : manifestName sha256 a = manifestName sha256 b) :
    hash sha256 a = hash sha256 b := by
  have hchars := congrArg String.toList h
  rw [manifestName, manifestName, String.toList_append, String.toList_append] at hchars
  exact Subtype.ext (String.toList_injective (List.append_cancel_right hchars))

/-- The two places an artifact is kept at. -/
def Put.places (p : Put sha256 limit) : List Place :=
  [manifestPlace sha256 p.artifact.artifactId.1, blobPlace p.artifact.sha256]

theorem Manifested.of_get? (h : Manifested number p files)
    (hget : files'.get? (manifestPlace sha256 p.artifact.artifactId.1) =
      files.get? (manifestPlace sha256 p.artifact.artifactId.1)) : Manifested number p files' := by
  obtain ⟨content, hcontent, hcheck⟩ := h
  exact ⟨content, hget.trans hcontent, hcheck⟩

theorem Present.of_get? (h : Present p files) (hget : files'.get? (blobPlace p.artifact.sha256) =
    files.get? (blobPlace p.artifact.sha256)) : Present p files' := by
  obtain ⟨content, hcontent, hfits⟩ := h
  exact ⟨content, hget.trans hcontent, hfits⟩

/-- What is changed elsewhere leaves the artifact as it is. -/
theorem Holds.only {places : List Place} (h : Holds number p files) (honly : Only places files files')
    (hplaces : ∀ place ∈ p.places, place ∉ places) : Holds number p files' where
  manifest := h.manifest.of_get? (honly _ (hplaces _ List.mem_cons_self))
  blob := h.blob.of_get? (honly _ (hplaces _ (List.mem_cons_of_mem _ List.mem_cons_self)))

/-! ## Calls that read -/

/-- What `#readManifest` finds. -/
def manifestAt (sha256 : Bytes → Sha256) (number : NumberText → Option ℚ) (files : Files)
    (target : Place) (expectedId : Option String) : Except Failure (Option Artifact) :=
  match files.get? target with
  | none => .ok none
  | some .directory => .error .write
  | some (.file content) => (checkManifest sha256 number target.name expectedId content).map some

def contentAt (files : Files) (place : Place) : Except Failure Bytes :=
  match files.get? place with
  | some (.file content) => .ok content
  | _ => .error .write

section
variable {α : Type} {target : Place} {expectedId : Option String} {G : Files → Files → Prop}
  {J : Files → Prop}

theorem ensures_readManifest {Q : Except Failure (Option Artifact) → Files → Prop}
    (hG : G files files) (hQ : Q (manifestAt sha256 number files target expectedId) files) :
    (readManifest sha256 number target expectedId).Ensures perform G Q files := by
  unfold readManifest manifestAt at *
  simp only [Ensures, perform]
  split
  · rename_i content hcontent
    rw [hcontent] at hQ
    exact ⟨hG, hQ⟩
  · rename_i hdirectory
    rw [hdirectory] at hQ
    exact ⟨hG, hQ⟩
  · rename_i hnone
    rw [hnone] at hQ
    exact ⟨hG, hQ⟩

theorem ensures_stat {Q : Except Failure (Option Stats) → Files → Prop} (hG : G files files)
    (hQ : Q (.ok ((files.get? target).map Node.stats)) files) :
    (stat target).Ensures perform G Q files := by
  unfold stat
  simp only [Ensures, perform]
  split
  · rename_i node hnode
    rw [hnode] at hQ
    exact ⟨hG, hQ⟩
  · rename_i hnone
    rw [hnone] at hQ
    exact ⟨hG, hQ⟩

theorem ensures_readFile {Q : Except Failure Bytes → Files → Prop} (hG : G files files)
    (hQ : Q (contentAt files target) files) : (readFile target).Ensures perform G Q files := by
  unfold readFile contentAt at *
  simp only [Ensures, perform]
  split
  · rename_i content hcontent
    rw [hcontent] at hQ
    exact ⟨hG, hQ⟩
  · rename_i hdirectory
    rw [hdirectory] at hQ
    exact ⟨hG, hQ⟩
  · rename_i hnone
    rw [hnone] at hQ
    exact ⟨hG, hQ⟩

theorem under_readManifest {Q : Except Failure (Option Artifact) → Prop}
    (h : ∀ t, J t → G t t ∧ Q (manifestAt sha256 number t target expectedId)) :
    (readManifest sha256 number target expectedId).Under perform J G Q := by
  refine under_single (fun r => ?_) fun t ht => ensures_readManifest (h t ht).1 (h t ht).2
  cases r with
  | ok content => exact ⟨_, rfl⟩
  | error e => cases e <;> exact ⟨_, rfl⟩

theorem under_stat {Q : Except Failure (Option Stats) → Prop}
    (h : ∀ t, J t → G t t ∧ Q (.ok ((t.get? target).map Node.stats))) :
    (stat target).Under perform J G Q := by
  refine under_single (fun r => ?_) fun t ht => ensures_stat (h t ht).1 (h t ht).2
  cases r with
  | ok stats => exact ⟨_, rfl⟩
  | error e => cases e <;> exact ⟨_, rfl⟩

theorem under_readFile {Q : Except Failure Bytes → Prop}
    (h : ∀ t, J t → G t t ∧ Q (contentAt t target)) : (readFile target).Under perform J G Q := by
  refine under_single (fun r => ?_) fun t ht => ensures_readFile (h t ht).1 (h t ht).2
  cases r with
  | ok content => exact ⟨_, rfl⟩
  | error e => exact ⟨_, rfl⟩

end

/-! ## Calls that write -/

section
variable {target : Place} {data : Bytes} {uuid : String}

/-- Whatever happens in between, the program changes nothing but these places. -/
def Touches {α : Type} (places : List Place) (w : Work α) : Prop :=
  w.Under perform (fun _ => True) (Only places) fun _ => True

theorem touches_call {α : Type} {places : List Place} {command : Command}
    {rest : Reply command → Work α} (hchanges : ∀ place ∈ command.changes, place ∈ places)
    (hrest : ∀ r, Touches places (rest r)) : Touches places (.call command rest) := by
  intro t _
  exact ⟨(perform_only command t).mono hchanges, hrest _⟩

theorem touches_orThrow {places : List Place} (r : Except Errno Unit) :
    Touches places (orThrow r) := by
  cases r <;> exact trivial

theorem Touches.bind {α β : Type} {places : List Place} {w : Work α} {f : α → Work β}
    (hw : Touches places w) (hf : ∀ a, Touches places (f a)) : Touches places (w >>= f) := by
  refine under_bind (Under.mono hw fun result _ => ?_)
  cases result with
  | ok a => exact hf a
  | error e => exact trivial

theorem Touches.attempt {α β : Type} {places : List Place} {w : Work α}
    {f : Except Failure α → Work β} (hw : Touches places w) (hf : ∀ r, Touches places (f r)) :
    Touches places (w.attempt f) :=
  under_attempt (Under.mono hw fun result _ => hf result)

theorem touches_unlinkQuietly {places : List Place} (h : target ∈ places) :
    Touches places (unlinkQuietly target) :=
  touches_call (by simpa [Command.changes] using h) fun _ => trivial

theorem touches_unlink {places : List Place} (h : target ∈ places) : Touches places (unlink target) :=
  touches_call (by simpa [Command.changes] using h) touches_orThrow

theorem touches_writeAtomicFile {places : List Place} (htarget : target ∈ places)
    (htemporary : temporary target uuid ∈ places) :
    Touches places (writeAtomicFile target data uuid) := by
  have hwrite : Touches places (.call (.writeNew (temporary target uuid) data) orThrow : Work Unit) :=
    touches_call (by simpa [Command.changes] using htemporary) touches_orThrow
  have hrename : Touches places
      (.call (.rename (temporary target uuid) target) orThrow : Work Unit) :=
    touches_call (by simpa [Command.changes] using ⟨htemporary, htarget⟩) touches_orThrow
  refine (hwrite.bind fun _ => hrename).attempt fun result => ?_
  exact (touches_unlinkQuietly htemporary).bind fun _ => trivial

/-- A file that was written has the data. -/
theorem writeAtomicFile_ok (hne : target ≠ temporary target uuid) :
    (writeAtomicFile target data uuid).Ensures perform (fun _ _ => True)
      (fun result t => result = .ok () → t.get? target = some (.file data)) files := by
  refine ensures_attempt (ensures_bind ⟨trivial, ?_⟩)
  simp only [perform]
  split
  · -- The temporary file is there already.
    refine ⟨trivial, fun h => ?_⟩
    cases h
  · refine ⟨trivial, ?_⟩
    simp only [perform, OrderedMap.get?_set, if_true]
    rw [if_neg hne]
    cases hreplace : replaceable (.file data) (files.get? target) with
    | error e =>
      refine ⟨trivial, fun h => ?_⟩
      cases h
    | ok _ =>
      refine ⟨trivial, fun _ => ?_⟩
      rw [perform_only _ _ target (by simpa [Command.changes] using hne), OrderedMap.get?_set,
        if_pos rfl]

end

/-! ## Puts -/

/-- The artifacts of all these puts are there. -/
def Kept (number : NumberText → Option ℚ) (qs : List (Put sha256 limit)) (files : Files) : Prop :=
  ∀ q ∈ qs, Holds number q files

variable {qs : List (Put sha256 limit)}

theorem Kept.only {places : List Place} (h : Kept number qs files) (honly : Only places files files')
    (haway : ∀ q ∈ qs, ∀ place ∈ q.places, place ∉ places) : Kept number qs files' :=
  fun q hq => (h q hq).only honly (haway q hq)

/-- A program that works elsewhere keeps the artifacts. -/
theorem Touches.kept {α : Type} {places : List Place} {w : Work α} (hw : Touches places w)
    (h : Kept number qs files) (haway : ∀ q ∈ qs, ∀ place ∈ q.places, place ∉ places) :
    w.Ensures perform (fun _ t => Kept number qs t)
      (fun _ t => Kept number qs t ∧ Only places files t) files := by
  refine (Under.related (fun h h' => h.trans h') hw (Only.refl places files)).weaken ?_ ?_
  · intro _ t honly
    exact h.only honly haway
  · intro _ t hresult
    exact ⟨h.only hresult.2 haway, hresult.2⟩

/-- What `#ensureBlob` may change. -/
def Put.blobPlaces (p : Put sha256 limit) : List Place :=
  [blobPlace p.artifact.sha256, temporary (blobPlace p.artifact.sha256) p.uuids.1]

/-- What writing the manifest may change. -/
def Put.manifestPlaces (p : Put sha256 limit) : List Place :=
  [manifestPlace sha256 p.artifact.artifactId.1,
    temporary (manifestPlace sha256 p.artifact.artifactId.1) p.uuids.2]

theorem blobPlaces_away (h : blobPlace q.artifact.sha256 ≠ blobPlace p.artifact.sha256) :
    ∀ place ∈ q.places, place ∉ p.blobPlaces := by
  simp only [Put.places, Put.blobPlaces, List.mem_cons, List.not_mem_nil, or_false, not_or]
  rintro place (rfl | rfl)
  · exact ⟨(blobPlace_ne_manifestPlace _ _).symm, manifestPlace_ne_temporary _ _ _⟩
  · exact ⟨h, blobPlace_ne_temporary _ _ _⟩

theorem manifestPlaces_away (h : manifestPlace sha256 q.artifact.artifactId.1 ≠
    manifestPlace sha256 p.artifact.artifactId.1) : ∀ place ∈ q.places, place ∉ p.manifestPlaces := by
  simp only [Put.places, Put.manifestPlaces, List.mem_cons, List.not_mem_nil, or_false, not_or]
  rintro place (rfl | rfl)
  · exact ⟨h, manifestPlace_ne_temporary _ _ _⟩
  · exact ⟨blobPlace_ne_manifestPlace _ _, blobPlace_ne_temporary _ _ _⟩

theorem present_of_written (h : files.get? (blobPlace p.artifact.sha256) = some (.file p.data)) :
    Present p files :=
  ⟨p.data, h, rfl, p.digest.symm⟩

/-- Of two puts of one digest the bytes of the one are those of the other. -/
theorem Present.alike (h : Present q files) (hapart : Apart p q)
    (hplace : blobPlace q.artifact.sha256 = blobPlace p.artifact.sha256) : Present p files := by
  obtain ⟨content, hcontent, hlength, hdigest⟩ := h
  have hsha := blobPlace_inj hplace
  have hdata : p.data = q.data := by
    refine hapart.data ?_
    rw [← p.digest, ← q.digest, hsha]
  exact ⟨content, hplace ▸ hcontent, hdata ▸ hlength, hdigest.trans hsha⟩

/-- What `#ensureBlob` comes to. -/
def Ensured (number : NumberText → Option ℚ) (p : Put sha256 limit) (qs : List (Put sha256 limit))
    (files : Files) (result : Except Failure Unit) (t : Files) : Prop :=
  Kept number qs t ∧ Only p.blobPlaces files t ∧ (result = .ok () → Present p t)

/-- The bytes are written where none that fit are there. -/
theorem rewrite_ensures {w : Work Unit} (hkept : Kept number qs files)
    (hapart : ∀ q ∈ qs, Apart p q) (hbad : ¬ Present p files) (hw : Touches p.blobPlaces w)
    (hok : w.Ensures perform (fun _ _ => True) (fun result t => result = .ok () →
      t.get? (blobPlace p.artifact.sha256) = some (.file p.data)) files) :
    w.Ensures perform (fun _ t => Kept number qs t) (Ensured number p qs files) files := by
  have haway : ∀ q ∈ qs, ∀ place ∈ q.places, place ∉ p.blobPlaces := by
    intro q hq
    refine blobPlaces_away fun hplace => hbad ?_
    exact (hkept q hq).blob.alike (hapart q hq) hplace
  refine ((hw.kept hkept haway).and hok).weaken (fun _ _ h => h.1) ?_
  intro result t h
  exact ⟨h.1.1, h.1.2, fun hresult => present_of_written (h.2 hresult)⟩

theorem ensureBlob_ensures (hkept : Kept number qs files) (hapart : ∀ q ∈ qs, Apart p q) :
    (ensureBlob sha256 p.artifact.sha256 p.data p.uuids.1).Ensures perform
      (fun _ t => Kept number qs t) (Ensured number p qs files) files := by
  have hwrite : Touches p.blobPlaces
      (writeAtomicFile (blobPlace p.artifact.sha256) p.data p.uuids.1) :=
    touches_writeAtomicFile List.mem_cons_self (List.mem_cons_of_mem _ List.mem_cons_self)
  have hwritten : ∀ {t : Files}, (writeAtomicFile (blobPlace p.artifact.sha256) p.data
      p.uuids.1).Ensures perform (fun _ _ => True) (fun result t => result = .ok () →
        t.get? (blobPlace p.artifact.sha256) = some (.file p.data)) t :=
    writeAtomicFile_ok (blobPlace_ne_temporary _ _ _)
  have hunlink : Touches p.blobPlaces (unlink (blobPlace p.artifact.sha256) >>= fun _ =>
      writeAtomicFile (blobPlace p.artifact.sha256) p.data p.uuids.1) :=
    (touches_unlink List.mem_cons_self).bind fun _ => hwrite
  have hunlinked : (unlink (blobPlace p.artifact.sha256) >>= fun _ =>
      writeAtomicFile (blobPlace p.artifact.sha256) p.data p.uuids.1).Ensures perform
        (fun _ _ => True) (fun result t => result = .ok () →
          t.get? (blobPlace p.artifact.sha256) = some (.file p.data)) files := by
    refine ensures_bind ⟨trivial, ?_⟩
    cases (perform (.unlink (blobPlace p.artifact.sha256)) files).1 with
    | error e => exact nofun
    | ok _ => exact hwritten
  refine ensures_bind (ensures_stat hkept ?_)
  cases hnode : files.get? (blobPlace p.artifact.sha256) with
  | none =>
    refine rewrite_ensures hkept hapart (fun h => ?_) hwrite hwritten
    obtain ⟨content, hcontent, -⟩ := h
    rw [hnode] at hcontent
    cases hcontent
  | some node =>
    simp only [Option.map_some, Then]
    split
    · rename_i hfits
      refine ensures_bind (ensures_readFile hkept ?_)
      cases node with
      | directory => cases hfits.1
      | file content =>
        simp only [contentAt, hnode, Then]
        split
        · rename_i hdigest
          exact ⟨hkept, .refl _ _, fun _ => ⟨content, hnode, hfits.2, hdigest⟩⟩
        · rename_i hdigest
          refine rewrite_ensures hkept hapart (fun h => hdigest ?_) hunlink hunlinked
          obtain ⟨content', hcontent, -, hdigest'⟩ := h
          rw [hnode] at hcontent
          cases hcontent
          exact hdigest'
    · rename_i hmisfit
      refine rewrite_ensures hkept hapart (fun h => hmisfit ?_) hunlink hunlinked
      obtain ⟨content, hcontent, hlength, -⟩ := h
      rw [hnode] at hcontent
      cases hcontent
      exact ⟨rfl, hlength⟩

theorem manifestAt_ok {target : Place} {expectedId : Option String} {a : Artifact}
    (h : manifestAt sha256 number files target expectedId = .ok (some a)) :
    ∃ content, files.get? target = some (.file content) ∧
      checkManifest sha256 number target.name expectedId content = .ok a := by
  unfold manifestAt at h
  split at h
  · cases h
  · cases h
  · rename_i content hcontent
    obtain ⟨b, hb, heq⟩ := Checked.map_ok.mp h
    cases heq
    exact ⟨content, hcontent, hb⟩

theorem Manifested.found (h : Manifested number p files) :
    manifestAt sha256 number files (manifestPlace sha256 p.artifact.artifactId.1)
      (some p.artifact.artifactId.1) = .ok (some p.artifact) := by
  obtain ⟨content, hcontent, hcheck⟩ := h
  unfold manifestAt
  simp only [hcontent]
  exact congrArg (Except.map some) hcheck

/-- Where the manifest of a put is, another one of its identifier finds it. -/
theorem Manifested.alike (h : Manifested number q files) (hapart : Apart p q)
    (hplace : manifestPlace sha256 q.artifact.artifactId.1 =
      manifestPlace sha256 p.artifact.artifactId.1) :
    manifestAt sha256 number files (manifestPlace sha256 p.artifact.artifactId.1)
      (some p.artifact.artifactId.1) = .ok (some q.artifact) := by
  have hids := hapart.ids (manifestName_inj (congrArg Place.name hplace)).symm
  rw [hids]
  exact h.found

/-- What a put comes to. -/
def Done (number : NumberText → Option ℚ) (p : Put sha256 limit) (qs : List (Put sha256 limit))
    (result : Except Failure Artifact) (t : Files) : Prop :=
  Kept number qs t ∧ ∀ b, result = .ok b → b = p.artifact ∧ Holds number p t

theorem store_ensures (hnumber : Exact number) (hkept : Kept number qs files)
    (hapart : ∀ q ∈ qs, Apart p q) (haway : ∀ q ∈ qs, ∀ place ∈ q.places, place ∉ p.manifestPlaces) :
    p.store.Ensures perform (fun _ t => Kept number qs t) (Done number p qs) files := by
  unfold Put.store
  refine ensures_bind ((ensureBlob_ensures hkept hapart).mono ?_)
  intro result t h
  obtain ⟨hkept, -, hpresent⟩ := h
  cases result with
  | error e => exact ⟨hkept, nofun⟩
  | ok _ =>
    have hwrite : Touches p.manifestPlaces (writeAtomicFile
        (manifestPlace sha256 p.artifact.artifactId.1) (manifestBytes p.artifact) p.uuids.2) :=
      touches_writeAtomicFile List.mem_cons_self (List.mem_cons_of_mem _ List.mem_cons_self)
    have hwritten : (writeAtomicFile (manifestPlace sha256 p.artifact.artifactId.1)
        (manifestBytes p.artifact) p.uuids.2).Ensures perform (fun _ _ => True) _ t :=
      writeAtomicFile_ok (manifestPlace_ne_temporary _ _ _)
    refine ensures_bind (((hwrite.kept hkept haway).and hwritten).weaken (fun _ _ h => h.1) ?_)
    intro result t' h
    obtain ⟨⟨hkept', honly⟩, hfile⟩ := h
    cases result with
    | error e => exact ⟨hkept', nofun⟩
    | ok _ =>
      refine ⟨hkept', fun b hb => ⟨(Except.ok.inj hb).symm, ?_, ?_⟩⟩
      · refine ⟨_, hfile rfl, checkManifest_put hnumber p fun id hid => ?_⟩
        exact (Option.mem_some.mp hid).symm
      · refine (hpresent rfl).of_get? (honly _ ?_)
        simp only [Put.manifestPlaces, List.mem_cons, List.not_mem_nil, or_false, not_or]
        exact ⟨blobPlace_ne_manifestPlace _ _, blobPlace_ne_temporary _ _ _⟩

/-- A put that runs alone keeps the artifacts that are there, and if it succeeds
its own is there too. -/
theorem put_ensures (hnumber : Exact number) (hkept : Kept number qs files)
    (hapart : ∀ q ∈ qs, Apart p q) :
    (p.program number).Ensures perform (fun _ t => Kept number qs t) (Done number p qs) files := by
  have haway : (∀ a, manifestAt sha256 number files (manifestPlace sha256 p.artifact.artifactId.1)
      (some p.artifact.artifactId.1) ≠ .ok (some a)) →
        ∀ q ∈ qs, ∀ place ∈ q.places, place ∉ p.manifestPlaces := by
    intro hnone q hq
    refine manifestPlaces_away fun hplace => ?_
    exact hnone _ ((hkept q hq).manifest.alike (hapart q hq) hplace)
  refine ensures_attempt (ensures_readManifest hkept ?_)
  cases hfound : manifestAt sha256 number files (manifestPlace sha256 p.artifact.artifactId.1)
      (some p.artifact.artifactId.1) with
  | error e =>
    have haway := haway fun a ha => by rw [hfound] at ha; cases ha
    cases e with
    | corruption message =>
      have hunlink : Touches p.manifestPlaces
          (unlinkQuietly (manifestPlace sha256 p.artifact.artifactId.1)) :=
        touches_unlinkQuietly List.mem_cons_self
      refine ensures_bind ((hunlink.kept hkept haway).mono ?_)
      intro result t h
      cases result with
      | error e => exact ⟨h.1, nofun⟩
      | ok _ => exact store_ensures hnumber h.1 hapart haway
    | conflict message => exact ⟨hkept, nofun⟩
    | typeError message => exact ⟨hkept, nofun⟩
    | safeData error => exact ⟨hkept, nofun⟩
    | write => exact ⟨hkept, nofun⟩
  | ok found =>
    cases found with
    | none =>
      exact store_ensures hnumber hkept hapart (haway fun a ha => by rw [hfound] at ha; cases ha)
    | some existing =>
      simp only
      split
      · exact ⟨hkept, nofun⟩
      · rename_i hsame
        obtain rfl := stringify_inj hnumber (not_ne_iff.mp hsame)
        obtain ⟨content, hcontent, hcheck⟩ := manifestAt_ok hfound
        refine ensures_bind ((ensureBlob_ensures hkept hapart).mono ?_)
        intro result t h
        obtain ⟨hkept', honly, hpresent⟩ := h
        cases result with
        | error e => exact ⟨hkept', nofun⟩
        | ok _ =>
          refine ⟨hkept', fun b hb => ⟨(Except.ok.inj hb).symm, ?_, hpresent rfl⟩⟩
          refine ⟨content, (honly _ ?_).trans hcontent, hcheck⟩
          simp only [Put.blobPlaces, List.mem_cons, List.not_mem_nil, or_false, not_or]
          exact ⟨(blobPlace_ne_manifestPlace _ _).symm, manifestPlace_ne_temporary _ _ _⟩

/-- All the places a put may change. -/
def Put.writes (p : Put sha256 limit) : List Place := p.blobPlaces ++ p.manifestPlaces

/-- With others between its calls a put changes no other places, and what it
returns is its artifact. -/
def Confined (p : Put sha256 limit) (w : Work Artifact) : Prop :=
  w.Under perform (fun _ => True) (Only p.writes) fun result => ∀ b, result = .ok b → b = p.artifact

theorem touches_ensureBlob (p : Put sha256 limit) :
    Touches p.writes (ensureBlob sha256 p.artifact.sha256 p.data p.uuids.1) := by
  have hplace : blobPlace p.artifact.sha256 ∈ p.writes := List.mem_append_left _ List.mem_cons_self
  have hwrite : Touches p.writes
      (writeAtomicFile (blobPlace p.artifact.sha256) p.data p.uuids.1) :=
    touches_writeAtomicFile hplace
      (List.mem_append_left _ (List.mem_cons_of_mem _ List.mem_cons_self))
  have hunlink : Touches p.writes (unlink (blobPlace p.artifact.sha256) >>= fun _ =>
      writeAtomicFile (blobPlace p.artifact.sha256) p.data p.uuids.1) :=
    (touches_unlink hplace).bind fun _ => hwrite
  have hstat : Touches p.writes (stat (blobPlace p.artifact.sha256)) :=
    under_stat fun t _ => ⟨.refl _ t, trivial⟩
  have hread : Touches p.writes (readFile (blobPlace p.artifact.sha256)) :=
    under_readFile fun t _ => ⟨.refl _ t, trivial⟩
  refine hstat.bind fun descriptor => ?_
  cases descriptor with
  | none => exact hwrite
  | some descriptor =>
    simp only
    split
    · refine hread.bind fun existing => ?_
      split
      · exact trivial
      · exact hunlink
    · exact hunlink

theorem store_confined (p : Put sha256 limit) : Confined p p.store := by
  unfold Put.store
  refine under_bind (Under.mono (touches_ensureBlob p) fun result _ => ?_)
  cases result with
  | error e => exact nofun
  | ok _ =>
    have hwrite : Touches p.writes (writeAtomicFile
        (manifestPlace sha256 p.artifact.artifactId.1) (manifestBytes p.artifact) p.uuids.2) :=
      touches_writeAtomicFile (List.mem_append_right _ List.mem_cons_self)
        (List.mem_append_right _ (List.mem_cons_of_mem _ List.mem_cons_self))
    refine under_bind (Under.mono hwrite fun result _ => ?_)
    cases result with
    | error e => exact nofun
    | ok _ => exact fun b hb => (Except.ok.inj hb).symm

theorem put_confined (hnumber : Exact number) (p : Put sha256 limit) :
    Confined p (p.program number) := by
  refine under_attempt (under_readManifest fun t _ => ⟨.refl _ t, ?_⟩)
  cases manifestAt sha256 number t (manifestPlace sha256 p.artifact.artifactId.1)
      (some p.artifact.artifactId.1) with
  | error e =>
    cases e with
    | corruption message =>
      have hunlink : Touches p.writes
          (unlinkQuietly (manifestPlace sha256 p.artifact.artifactId.1)) :=
        touches_unlinkQuietly (List.mem_append_right _ List.mem_cons_self)
      refine under_bind (Under.mono hunlink fun result _ => ?_)
      cases result with
      | error e => exact nofun
      | ok _ => exact store_confined p
    | conflict message => exact nofun
    | typeError message => exact nofun
    | safeData error => exact nofun
    | write => exact nofun
  | ok found =>
    cases found with
    | none => exact store_confined p
    | some existing =>
      simp only
      split
      · exact nofun
      · rename_i hsame
        refine under_bind (Under.mono (touches_ensureBlob p) fun result _ => ?_)
        cases result with
        | error e => exact nofun
        | ok _ =>
          intro b hb
          rw [← Except.ok.inj hb]
          exact stringify_inj hnumber (not_ne_iff.mp hsame)

/-- A put of an artifact that is there changes nothing. -/
theorem put_again (h : Holds number q files) (hartifact : p.artifact = q.artifact)
    (hdata : p.data = q.data) : (p.program number).run perform files = (.ok q.artifact, files) := by
  obtain ⟨content, hcontent, hlength, hdigest⟩ := h.blob
  have hfound := h.manifest.found
  rw [← hartifact] at hfound hcontent hdigest
  have hensure : (ensureBlob sha256 p.artifact.sha256 p.data p.uuids.1).Ensures perform
      (fun _ _ => True) (fun result t => result = .ok () ∧ t = files) files := by
    refine ensures_bind (ensures_stat trivial ?_)
    simp only [hcontent, Option.map_some, Then]
    rw [if_pos ⟨rfl, by rw [hdata]; exact hlength⟩]
    refine ensures_bind (ensures_readFile trivial ?_)
    simp only [contentAt, hcontent, Then]
    rw [if_pos hdigest]
    exact ⟨rfl, rfl⟩
  have hput : (p.program number).Ensures perform (fun _ _ => True)
      (fun result t => result = .ok q.artifact ∧ t = files) files := by
    refine ensures_attempt (ensures_readManifest trivial ?_)
    rw [hfound]
    simp only [ne_eq, not_true_eq_false, if_false]
    refine ensures_bind (hensure.mono ?_)
    intro result t hdone
    obtain ⟨rfl, rfl⟩ := hdone
    exact ⟨congrArg Except.ok hartifact, rfl⟩
  exact Prod.ext hput.run.1 hput.run.2

/-! ## Reads -/

/-- What was found under an identifier: an artifact of it, with the bytes of its
digest. -/
structure Genuine (sha256 : Bytes → Sha256) (artifactId : String) (found : StoredArtifact) :
    Prop where
  id : found.artifact.artifactId.1 = artifactId
  identified : found.artifact.artifactId = createArtifactId sha256 found.artifact.runId
    found.artifact.name found.artifact.mediaType found.artifact.sha256
  digest : sha256 found.data = found.artifact.sha256

/-- A program that only reads. -/
def Reads {α : Type} (J : Files → Prop) (Q : Except Failure α → Prop) (w : Work α) : Prop :=
  w.Under perform J (fun t t' => t' = t) Q

theorem contentAt_ok {place : Place} {content : Bytes} (h : contentAt files place = .ok content) :
    files.get? place = some (.file content) := by
  unfold contentAt at h
  split at h
  · rename_i content' hcontent
    cases h
    exact hcontent
  · cases h

/-- What `get` finds is genuine, and there was a manifest. -/
theorem get_reads (J : Files → Prop) (artifactId : String) :
    Reads J (fun result => ∀ found, result = .ok (some found) → Genuine sha256 artifactId found ∧
      ∃ t, J t ∧ (t.get? (manifestPlace sha256 artifactId)).isSome = true)
        (get sha256 number limit artifactId) := by
  unfold get
  split
  · exact nofun
  · rename_i requestedId hid
    obtain ⟨hid, -⟩ := boundedText_ok hid
    refine under_bind (under_readManifest fun t ht => ⟨rfl, ?_⟩)
    cases hfound : manifestAt sha256 number t (manifestPlace sha256 requestedId.1)
        (some requestedId.1) with
    | error e => exact nofun
    | ok artifact =>
      cases artifact with
      | none => exact nofun
      | some artifact =>
        obtain ⟨content, hcontent, hcheck⟩ := manifestAt_ok hfound
        obtain ⟨hidentified, hexpected, -⟩ := checkManifest_ok hcheck
        refine under_bind (under_stat fun t' _ => ⟨rfl, ?_⟩)
        cases t'.get? (blobPlace artifact.sha256) with
        | none => exact nofun
        | some node =>
          simp only [Option.map_some, ThenUnder]
          split
          · exact nofun
          · refine under_bind (under_readFile fun t'' _ => ⟨rfl, ?_⟩)
            cases contentAt t'' (blobPlace artifact.sha256) with
            | error e => exact nofun
            | ok data =>
              simp only [ThenUnder]
              split
              · exact nofun
              · rename_i hdigest
                intro found hok
                cases hok
                rw [hid] at hexpected hcontent
                refine ⟨⟨hexpected _ rfl, hidentified, not_ne_iff.mp hdigest⟩, t, ht, ?_⟩
                rw [hcontent]
                rfl

theorem put_boundedText (p : Put sha256 limit) :
    boundedText p.artifact.artifactId.1 "artifactId" 128 = .ok p.artifact.artifactId := by
  have hsize : p.artifact.artifactId.1.utf8ByteSize = 73 := by
    rw [p.identified]
    exact createArtifactId_byteSize ..
  unfold boundedText
  rw [dif_pos ⟨p.artifact.artifactId.2, by omega⟩]

/-- `get` finds an artifact that is there throughout. -/
theorem get_finds (p : Put sha256 limit) :
    Reads (Holds number p) (fun result => ∃ content, result = .ok (some ⟨p.artifact, content⟩) ∧
      sha256 content = p.artifact.sha256) (get sha256 number limit p.artifact.artifactId.1) := by
  unfold get
  rw [put_boundedText]
  refine under_bind (under_readManifest fun t ht => ⟨rfl, ?_⟩)
  rw [ht.manifest.found]
  refine under_bind (under_stat fun t' ht' => ⟨rfl, ?_⟩)
  obtain ⟨content, hcontent, hlength, -⟩ := ht'.blob
  simp only [hcontent, Option.map_some, ThenUnder]
  rw [if_neg]
  · refine under_bind (under_readFile fun t'' ht'' => ⟨rfl, ?_⟩)
    obtain ⟨content', hcontent', -, hdigest⟩ := ht''.blob
    simp only [contentAt, hcontent', ThenUnder]
    rw [if_neg (not_ne_iff.mpr hdigest)]
    exact ⟨content', rfl, hdigest⟩
  · rintro (hfile | hsize | hlarge)
    · cases hfile
    · exact hsize (hlength.trans p.size.symm)
    · have hsmall := p.small
      rw [← hlength] at hsmall
      exact absurd hlarge (Nat.not_lt.mpr hsmall)

theorem checkManifest_none {name id : String} {content : Bytes} {a : Artifact}
    (h : checkManifest sha256 number name (some id) content = .ok a) :
    checkManifest sha256 number name none content = .ok a := by
  obtain ⟨hidentified, -, hname⟩ := checkManifest_ok h
  unfold checkManifest at h ⊢
  simp only at h ⊢
  split at h
  · cases h
  · rename_i hsmall
    rw [if_neg hsmall]
    obtain ⟨b, hb, h⟩ := Checked.bind_ok.mp h
    split at h
    · cases h
    · cases h
      refine Checked.bind_ok.mpr ⟨a, hb, if_neg ?_⟩
      rintro (hid | hother | hplace)
      · exact hid hidentified
      · cases hother
      · exact hplace hname

/-- The manifests of an artifact among those listed. -/
def named (p : Put sha256 limit) (values : List Artifact) : List Artifact :=
  values.filter fun a => a.artifactId = p.artifact.artifactId

theorem named_append_other {a : Artifact} (h : a.artifactId ≠ p.artifact.artifactId)
    (values : List Artifact) : named p (values ++ [a]) = named p values := by
  simp [named, h]

theorem named_append_self (values : List Artifact) :
    named p (values ++ [p.artifact]) = named p values ++ [p.artifact] := by
  simp [named]

/-- What a walk over the entries finds of an artifact that is there. -/
def listed (p : Put sha256 limit) (entries : List String) : List Artifact :=
  if manifestName sha256 p.artifact.artifactId.1 ∈ entries then [p.artifact] else []

theorem listed_cons_other {entry : String} {rest : List String}
    (h : entry ≠ manifestName sha256 p.artifact.artifactId.1) :
    listed p (entry :: rest) = listed p rest := by
  simp [listed, h.symm]

theorem listed_cons_self {rest : List String}
    (h : manifestName sha256 p.artifact.artifactId.1 ∉ rest) :
    listed p (manifestName sha256 p.artifact.artifactId.1 :: rest) =
      p.artifact :: listed p rest := by
  simp [listed, h]

theorem listEntries_finds (p : Put sha256 limit) : ∀ (entries : List String)
    (values : List Artifact), entries.Nodup →
    Reads (Holds number p) (fun result => ∀ l, result = .ok l →
      named p l = named p values ++ listed p entries)
        (listEntries sha256 number p.artifact.runId entries values) := by
  intro entries
  induction entries with
  | nil =>
    intro values _ l hl
    cases hl
    exact (List.append_nil _).symm
  | cons entry rest ih =>
    intro values hnodup
    obtain ⟨hfresh, hnodup⟩ := List.nodup_cons.mp hnodup
    have hother : ∀ more, entry ≠ manifestName sha256 p.artifact.artifactId.1 →
        named p more = named p values → Reads (Holds number p) (fun result => ∀ l, result = .ok l →
          named p l = named p values ++ listed p (entry :: rest))
            (listEntries sha256 number p.artifact.runId rest more) := by
      intro more hne hmore
      refine Under.mono (ih more hnodup) fun result h l hl => ?_
      rw [h l hl, hmore, listed_cons_other hne]
    unfold listEntries
    split
    · rename_i hunnamed
      refine hother values (fun heq => ?_) rfl
      rw [heq, manifestName_isManifestName] at hunnamed
      cases hunnamed
    · refine under_bind (under_readManifest fun t ht => ⟨rfl, ?_⟩)
      obtain ⟨content, hcontent, hcheck⟩ := ht.manifest
      have hself : entry = manifestName sha256 p.artifact.artifactId.1 →
          manifestAt sha256 number t ⟨manifests, entry⟩ none = .ok (some p.artifact) := by
        intro heq
        subst heq
        unfold manifestAt
        rw [show t.get? ⟨manifests, manifestName sha256 p.artifact.artifactId.1⟩ = _ from hcontent]
        exact congrArg (Except.map some) (checkManifest_none hcheck)
      cases hfound : manifestAt sha256 number t ⟨manifests, entry⟩ none with
      | error e => exact nofun
      | ok found =>
        cases found with
        | none =>
          refine hother values (fun heq => ?_) rfl
          rw [hself heq] at hfound
          cases hfound
        | some a =>
          by_cases heq : entry = manifestName sha256 p.artifact.artifactId.1
          · rw [hself heq] at hfound
            cases hfound
            simp only [ThenUnder, if_true]
            refine Under.mono (ih (values ++ [p.artifact]) hnodup) fun result h l hl => ?_
            rw [h l hl, named_append_self, heq, listed_cons_self (heq ▸ hfresh), List.append_assoc]
            rfl
          · obtain ⟨content', -, hcheck'⟩ := manifestAt_ok hfound
            obtain ⟨-, -, hname⟩ := checkManifest_ok hcheck'
            have hne : a.artifactId ≠ p.artifact.artifactId := fun hid => heq (hid ▸ hname)
            simp only [ThenUnder]
            split
            · exact hother _ heq (named_append_other hne values)
            · exact hother _ heq rfl

theorem list_finds (p : Put sha256 limit) :
    Reads (Holds number p) (fun result => ∀ l, result = .ok l → named p l = [p.artifact])
      (list sha256 number p.artifact.runId) := by
  intro t ht
  refine ⟨rfl, ?_⟩
  have hperm := List.perm_insertionSort (fun a b : String => a ≤ b) (names t manifests)
  refine Under.mono (listEntries_finds p _ [] (hperm.nodup_iff.mpr (names_nodup t manifests))) ?_
  intro result h l hl
  obtain ⟨content, hcontent, -⟩ := ht.manifest
  have hmem := hperm.mem_iff.mpr (mem_names.mpr ⟨_, hcontent⟩)
  exact (h l hl).trans (if_pos hmem)

theorem healthy_manifestAt (h : healthy sha256 number files = true) {entry : String}
    (hentry : isManifestName entry = true) :
    ∃ found, manifestAt sha256 number files ⟨manifests, entry⟩ none = .ok found := by
  unfold manifestAt
  cases hnode : files.get? ⟨manifests, entry⟩ with
  | none => exact ⟨none, rfl⟩
  | some node =>
    have hthis := List.all_eq_true.mp h entry (mem_names.mpr ⟨node, hnode⟩)
    rw [hentry, hnode] at hthis
    cases node with
    | directory => cases hthis
    | file content =>
      simp only [Bool.not_true, Bool.false_or] at hthis ⊢
      cases hcheck : checkManifest sha256 number entry none content with
      | error e =>
        rw [hcheck] at hthis
        cases hthis
      | ok a => exact ⟨some a, rfl⟩

/-- A list ends with what it found, or with the error of a manifest. -/
theorem list_reads {J : Files → Prop} {Q : Except Failure (List Artifact) → Prop} (runId : RunId)
    (hok : ∀ l, Q (.ok l)) (herror : ∀ t entry e, J t → isManifestName entry = true →
      manifestAt sha256 number t ⟨manifests, entry⟩ none = .error e → Q (.error e)) :
    Reads J Q (list sha256 number runId) := by
  have hentries : ∀ (entries : List String) (values : List Artifact),
      Reads J Q (listEntries sha256 number runId entries values) := by
    intro entries
    induction entries with
    | nil => exact fun values => hok values
    | cons entry rest ih =>
      intro values
      unfold listEntries
      split
      · exact ih values
      · rename_i hnamed
        refine under_bind (under_readManifest fun t ht => ⟨rfl, ?_⟩)
        cases hfound : manifestAt sha256 number t ⟨manifests, entry⟩ none with
        | error e => exact herror t entry e ht (Bool.not_eq_false _ ▸ hnamed) hfound
        | ok found =>
          cases found with
          | none => exact ih values
          | some a =>
            simp only [ThenUnder]
            split
            · exact ih _
            · exact ih _
  exact fun _ _ => ⟨rfl, hentries _ _⟩

theorem list_succeeds (runId : RunId) :
    Reads (fun t => healthy sha256 number t = true) (fun result => ∃ l, result = .ok l)
      (list sha256 number runId) := by
  refine list_reads runId (fun l => ⟨l, rfl⟩) fun t entry e ht hentry herror => ?_
  obtain ⟨found, hfound⟩ := healthy_manifestAt ht hentry
  rw [hfound] at herror
  cases herror

end SurfaceLoom.Service.ArtifactStore
