import SurfaceLoom.Clipboard.ReceiverFiles

/-! # What a call of the receiver does alone

Between two calls a session is there with its manifest and checked chunks only, or nothing
of it is. From such files each call does what its lemma says, and leaves such files. -/
namespace SurfaceLoom.Clipboard.ReceiverCalls
open SurfaceLoom.Lib SurfaceLoom.Lib.FileTree SurfaceLoom.Lib.Checked
open SurfaceLoom.Clipboard.Protocol SurfaceLoom.Clipboard.Ranges
open SurfaceLoom.Clipboard.ReferenceReceiver SurfaceLoom.Clipboard.ReceiverFiles

variable {m : Manifest} {sha256 : Bytes → String} {f f' : Store} {i : Nat} {frame : Frame}

/-! ## Files between two calls -/

def stored (m : Manifest) (f : Store) (i : Nat) : Option Frame :=
  match f.get? (chunkPath m i) with
  | some (.file (.frame frame)) => some frame
  | _ => none

def frameBytes (frame : Frame) : Bytes := (Base64.decode frame.p.toList).getD []

def storedBytes (m : Manifest) (f : Store) (i : Nat) : Bytes :=
  ((stored m f i).map frameBytes).getD []

/-- A chunk that passes its checks. -/
structure Valid (sha256 : Bytes → String) (m : Manifest) (i : Nat) (frame : Frame) : Prop where
  bounded : i < m.chunkCount
  parse : parseChunk sha256 m i (.frame frame) = .ok (frameBytes frame)

structure Opened (sha256 : Bytes → String) (m : Manifest) (f : Store) : Prop where
  state : f.get? statePath = some .directory
  session : f.get? (sessionPath m) = some .directory
  manifest : f.get? (manifestPath m) = some (.file (.manifest m))
  chunks : f.get? (chunksPath m) = some .directory
  frames : ∀ i node, f.get? (chunkPath m i) = some node →
    ∃ frame, node = .file (.frame frame) ∧ Valid sha256 m i frame

structure Closed (m : Manifest) (f : Store) : Prop where
  session : f.get? (sessionPath m) = none
  manifest : f.get? (manifestPath m) = none
  chunks : f.get? (chunksPath m) = none
  frames : ∀ i, f.get? (chunkPath m i) = none

def Known (m : Manifest) (p : Path) : Prop :=
  p = statePath ∨ p = targetPath m ∨ p = sessionPath m ∨ p = manifestPath m ∨ p = chunksPath m ∨
    ∃ i, p = chunkPath m i

structure Sound (sha256 : Bytes → String) (m : Manifest) (f : Store) : Prop where
  known : ∀ p node, f.get? p = some node → Known m p
  target : ∀ node, f.get? (targetPath m) = some node → ∃ content, node = .file content
  state : f.get? statePath = none ∨ f.get? statePath = some .directory
  session : Opened sha256 m f ∨ Closed m f

theorem Sound.free (hs : Sound sha256 m f) {p : Path} (hp : ¬ Known m p) : f.get? p = none := by
  cases h : f.get? p with
  | none => rfl
  | some node => exact absurd (hs.known p node h) hp

theorem stored_eq_some : stored m f i = some frame ↔
    f.get? (chunkPath m i) = some (.file (.frame frame)) := by
  unfold stored
  split
  · rename_i found h
    rw [h]
    exact ⟨fun heq => by rw [Option.some.inj heq], fun heq => by cases heq; rfl⟩
  · rename_i h
    exact ⟨nofun, fun heq => absurd heq (h frame)⟩

theorem Opened.stored_eq_none (ho : Opened sha256 m f) :
    stored m f i = none ↔ f.get? (chunkPath m i) = none := by
  constructor
  · intro hnone
    cases h : f.get? (chunkPath m i) with
    | none => rfl
    | some node =>
      obtain ⟨frame, rfl, -⟩ := ho.frames i node h
      rw [stored_eq_some.mpr h] at hnone
      cases hnone
  · intro h
    unfold stored
    rw [h]

theorem Opened.valid (ho : Opened sha256 m f) (h : stored m f i = some frame) :
    Valid sha256 m i frame := by
  obtain ⟨frame', heq, hvalid⟩ := ho.frames i _ (stored_eq_some.mp h)
  cases heq
  exact hvalid

theorem storedBytes_eq (h : stored m f i = some frame) : storedBytes m f i = frameBytes frame := by
  rw [storedBytes, h]
  rfl

/-! ## Paths that are not known -/

theorem temporary_not_known {uuid : Uuid m} {directory : Path}
    (h : directory = [] ∨ directory = sessionPath m ∨ directory = chunksPath m) :
    ¬ Known m (directory ++ [temporaryName uuid]) := by
  intro hknown
  have hlast : ∀ p : Path, directory ++ [temporaryName uuid] = p →
      p.getLast? = some (temporaryName uuid) := fun p heq => by rw [← heq, List.getLast?_concat]
  have hstate : temporaryName uuid ≠ stateDirectory := temporaryName_ne (by decide)
  have hmanifest : temporaryName uuid ≠ "manifest.json" := temporaryName_ne (by decide)
  have hchunks : temporaryName uuid ≠ "chunks" := temporaryName_ne (by decide)
  rcases hknown with hp | hp | hp | hp | hp | ⟨i, hp⟩
  · exact hstate (Option.some.inj (hlast _ hp)).symm
  · exact temporary_ne_target uuid directory hp
  · -- Only the lengths of the paths tell the session from a temporary file.
    have hlength := congrArg List.length hp
    rcases h with rfl | rfl | rfl <;> cases hlength
  · exact hmanifest (Option.some.inj (hlast _ hp)).symm
  · exact hchunks (Option.some.inj (hlast _ hp)).symm
  · exact temporary_ne_chunk uuid directory i hp

theorem partialPath_not_known (hn : Named m) : ¬ Known m (partialPath m) := by
  intro hknown
  rcases hknown with hp | hp | hp | hp | hp | ⟨i, hp⟩
  · have hname := congrArg (fun s : String => s.toList.getLast?) (List.singleton_injective hp)
    simp only [String.toList_append, stateDirectory] at hname
    rw [List.getLast?_append_of_ne_nil _ (by decide)] at hname
    revert hname
    decide
  · exact hn.own (List.singleton_injective hp).symm
  · cases congrArg List.length hp
  · cases congrArg List.length hp
  · cases congrArg List.length hp
  · cases congrArg List.length hp

/-! ## Reading -/

theorem does_check {α : Type} {result : Except ProtocolError α} {a : α} (h : result = .ok a)
    {Q : Except Failure α → Store → Prop} (hQ : Q (.ok a) f) :
    Does sha256 m Q (check result) f := by
  rw [h]
  exact hQ

theorem does_checkPaths (hn : Named m) {Q : Except Failure Unit → Store → Prop}
    (hQ : Q (.ok ()) f) : Does sha256 m Q (checkPaths m) f := by
  unfold checkPaths
  rw [if_pos hn.onePart]
  exact hQ

theorem does_loadSession (hn : Named m) (ho : Opened sha256 m f)
    {Q : Except Failure Unit → Store → Prop} (hQ : Q (.ok ()) f) :
    Does sha256 m Q (loadSession m) f := by
  refine Program.ensures_bind (does_checkPaths hn ?_)
  refine Program.ensures_bind (does_assertPlain ho.state ?_)
  refine Program.ensures_bind (does_assertPlain ho.session ?_)
  refine Program.ensures_bind (does_assertPlain ho.manifest ?_)
  refine Program.ensures_bind (does_assertPlain ho.chunks ?_)
  refine Program.ensures_bind (does_readFile ho.manifest ?_)
  show Program.Ensures _ _ _ (if _ then _ else _) _
  rw [if_pos rfl]
  exact hQ

theorem does_loadSession_closed (hn : Named m) (hs : Sound sha256 m f) (hc : Closed m f)
    {Q : Except Failure Unit → Store → Prop} (hQ : Q (.error (.system .ENOENT)) f) :
    Does sha256 m Q (loadSession m) f := by
  refine Program.ensures_bind (does_checkPaths hn ?_)
  rcases hs.state with hstate | hstate
  · exact Program.ensures_bind (does_assertPlain_missing hstate hQ)
  · refine Program.ensures_bind (does_assertPlain hstate ?_)
    exact Program.ensures_bind (does_assertPlain_missing hc.session hQ)

theorem does_readChunk (ho : Opened sha256 m f) (h : stored m f i = some frame)
    {Q : Except Failure Bytes → Store → Prop} (hQ : Q (.ok (frameBytes frame)) f) :
    Does sha256 m Q (readChunk sha256 m i) f := by
  have hfile := stored_eq_some.mp h
  refine Program.ensures_bind (does_assertPlain hfile ?_)
  refine Program.ensures_bind (does_readFile hfile ?_)
  exact (does_check (ho.valid h).parse hQ : Does sha256 m Q _ f)

def missing (m : Manifest) (f : Store) (indices : List Nat) : List Nat :=
  indices.filter fun i => (stored m f i).isNone

theorem does_scan (ho : Opened sha256 m f) (indices : List Nat)
    {Q : Except Failure (List Nat) → Store → Prop} (hQ : Q (.ok (missing m f indices)) f) :
    Does sha256 m Q (scan sha256 m indices) f := by
  induction indices generalizing Q with
  | nil => exact hQ
  | cons index rest ih =>
    refine Program.ensures_bind (does_pathExists ?_)
    cases h : stored m f index with
    | none =>
      rw [ho.stored_eq_none.mp h]
      refine Program.ensures_bind (ih ?_)
      rw [missing, List.filter_cons, h] at hQ
      exact hQ
    | some frame =>
      rw [stored_eq_some.mp h]
      refine Program.ensures_bind (does_readChunk ho h (ih ?_))
      rw [missing, List.filter_cons, h] at hQ
      exact hQ

theorem does_readChunks (ho : Opened sha256 m f) {indices : List Nat}
    (hall : ∀ i ∈ indices, stored m f i ≠ none) {Q : Except Failure (List Bytes) → Store → Prop}
    (hQ : Q (.ok (indices.map (storedBytes m f))) f) :
    Does sha256 m Q (readChunks sha256 m indices) f := by
  induction indices generalizing Q with
  | nil => exact hQ
  | cons index rest ih =>
    obtain ⟨frame, hframe⟩ := Option.ne_none_iff_exists'.mp (hall index List.mem_cons_self)
    refine Program.ensures_bind (does_readChunk ho hframe ?_)
    refine Program.ensures_bind (ih (fun i hi => hall i (List.mem_cons_of_mem _ hi)) ?_)
    rw [List.map_cons, storedBytes_eq hframe] at hQ
    exact hQ

def report (m : Manifest) (f : Store) : Status :=
  let missing := missing m f (List.range m.chunkCount)
  ⟨m.chunkCount - missing.length, missing, formatRanges missing⟩

theorem does_status (hn : Named m) (ho : Opened sha256 m f)
    {Q : Except Failure Status → Store → Prop} (hQ : Q (.ok (report m f)) f) :
    Does sha256 m Q (status sha256 m) f := by
  refine Program.ensures_bind (does_loadSession hn ho ?_)
  exact Program.ensures_bind (does_scan ho _ hQ)

/-! ## Adding a chunk -/

def frameChunk (frame : Frame) : Chunk := ⟨frame.i, frame.l, frame.s, frame.p⟩

theorem chunkIndex_ok {index : Member} (h : chunkIndex m index = .ok i) :
    index = .natural i ∧ i < m.chunkCount := by
  unfold chunkIndex at h
  split at h
  · rename_i q
    split at h
    · rename_i hq
      obtain ⟨hint, hnonneg, hbound⟩ := hq
      cases h
      have hvalue := Rat.eq_num_of_isInt hint
      rw [hvalue] at hnonneg hbound
      have hnonneg : 0 ≤ q.num := by exact_mod_cast hnonneg
      have hbound : q.num < m.chunkCount := by exact_mod_cast hbound
      have hnum : ((q.num.toNat : Int) : ℚ) = q.num := by rw [Int.toNat_of_nonneg hnonneg]
      refine ⟨?_, by omega⟩
      rw [Member.natural, ← Int.cast_natCast, hnum, ← hvalue]
    · cases h
  · cases h

theorem isNatural_eq {member : Member} {n : Nat} (h : member.isNatural n = true) :
    member = .natural n := by
  unfold Member.isNatural at h
  split at h
  · rw [of_decide_eq_true h]
    rfl
  · cases h

theorem isText_eq {member : Member} {text : String} (h : member.isText text = true) :
    member = .string text := by
  unfold Member.isText at h
  split at h
  · rw [of_decide_eq_true h]
  · cases h

theorem decodeMember_ok {member : Member} {raw : Bytes} (h : decodeMember member = .ok raw) :
    member = .string (canonicalBase64 raw) := by
  unfold decodeMember at h
  split at h
  · rw [decodeCanonicalBase64_ok.mp h]
  · cases h

variable {toNumber : String → JsNumber} {chunk : ChunkObject}

/-- An accepted chunk is the object its frame is made from. -/
theorem acceptChunk_ok (h : acceptChunk sha256 toNumber m chunk = .ok frame) :
    chunk = toObject (frameChunk frame) ∧ Valid sha256 m frame.i frame := by
  obtain ⟨outside, -, h⟩ := bind_ok.mp h
  split at h
  · cases h
  obtain ⟨index, hindex, h⟩ := bind_ok.mp h
  obtain ⟨raw, hraw, h⟩ := bind_ok.mp h
  obtain ⟨hindex, hbound⟩ := chunkIndex_ok (mapError_ok.mp hindex)
  have hraw := decodeMember_ok (mapError_ok.mp hraw)
  split at h
  · rename_i hchecked
    obtain ⟨hraw', hlength, hhash⟩ := hchecked
    cases h
    refine ⟨?_, hbound, ?_⟩
    · obtain ⟨index', rawLength, hash, base64⟩ := chunk
      simp only [toObject, frameChunk, ChunkObject.mk.injEq]
      exact ⟨hindex, isNatural_eq hraw', isText_eq hhash, hraw⟩
    · have hdecode : decodeCanonicalBase64 (canonicalBase64 raw) = .ok raw :=
        decodeCanonicalBase64_ok.mpr rfl
      have hbytes : (Base64.decode (canonicalBase64 raw).toList).getD [] = raw := by
        rw [canonicalBase64_toList, Base64.decode_encode]
        rfl
      simp only [parseChunk, frameBytes, hbytes]
      refine bind_ok.mpr ⟨raw, hdecode, ?_⟩
      rw [if_neg]
      simp [hlength]
  · cases h

/-- How an `add` can end. -/
inductive Adds (sha256 : Bytes → String) (m : Manifest) (f : Store) (chunk : ChunkObject) :
    Except Failure Answer → Store → Prop
  | rejected (failure : Failure) : Adds sha256 m f chunk (.error failure) f
  | present (frame : Frame) (ho : Opened sha256 m f) (hchunk : chunk = toObject (frameChunk frame))
      (hstored : stored m f frame.i = some frame) : Adds sha256 m f chunk (.ok .alreadyPresent) f
  | added (frame : Frame) (f' : Store) (ho : Opened sha256 m f)
      (hchunk : chunk = toObject (frameChunk frame)) (hvalid : Valid sha256 m frame.i frame)
      (hfree : f.get? (chunkPath m frame.i) = none)
      (hputs : Puts f (chunkPath m frame.i) (.file (.frame frame)) f') :
      Adds sha256 m f chunk (.ok .stored) f'

theorem does_add (hn : Named m) (hs : Sound sha256 m f) (uuid : Uuid m) :
    Does sha256 m (Adds sha256 m f chunk) (add sha256 toNumber chunk uuid) f := by
  rcases hs.session with ho | hc
  · refine Program.ensures_bind (does_loadSession hn ho ?_)
    refine Program.ensures_bind ?_
    cases haccept : acceptChunk sha256 toNumber m chunk with
    | error failure => exact .rejected failure
    | ok frame =>
      obtain ⟨hchunk, hvalid⟩ := acceptChunk_ok haccept
      show Program.Ensures _ _ _ (storeChunk sha256 frame uuid) _
      cases hstored : stored m f frame.i with
      | some found =>
        have hfile := stored_eq_some.mp hstored
        refine Program.ensures_bind (does_readOptional hfile ?_)
        show Program.Ensures _ _ _ (if _ then _ else _) _
        by_cases hsame : found = frame
        · subst hsame
          rw [if_pos rfl]
          refine Program.ensures_bind (does_readChunk ho hstored ?_)
          exact .present found ho hchunk hstored
        · rw [if_neg fun heq => hsame (by cases heq; rfl)]
          exact .rejected _
      | none =>
        have hfree := ho.stored_eq_none.mp hstored
        refine Program.ensures_bind (does_readOptional_none hfree ?_)
        refine Program.ensures_bind (does_atomicCreate hfree (.inr ho.chunks) ?_ ?_ ?_ ?_)
        · exact ne_of_length (by simp [chunkPath, targetPath])
        · intro hlast
          exact temporaryName_ne_chunkFileName uuid frame.i (Option.some.inj hlast).symm
        · exact hs.free (temporary_not_known (.inr (.inr rfl)))
        · exact fun f' hputs => .added frame f' ho hchunk hvalid hfree hputs
  · exact Program.ensures_bind (does_loadSession_closed hn hs hc (.rejected _))

/-! ## Opening a session -/

theorem does_writeExact {content : Content} {conflictCode : String} {uuid : Uuid m} {p : Path}
    {Q : Except Failure Unit → Store → Prop}
    (h : f.get? p = none ∨ f.get? p = some (.file content)) (hplaced : Placed f p)
    (hp : p ≠ targetPath m) (hname : p.getLast? ≠ some (temporaryName uuid))
    (htemporary : f.get? (p.dropLast ++ [temporaryName uuid]) = none)
    (hQ : ∀ f', Puts f p (.file content) f' → Q (.ok ()) f') :
    Does sha256 m Q (writeExact p content conflictCode uuid) f := by
  rcases h with hnone | hsome
  · refine Program.ensures_bind (does_readOptional_none hnone ?_)
    exact does_atomicCreate hnone hplaced hp hname htemporary hQ
  · refine Program.ensures_bind (does_readOptional hsome ?_)
    show Program.Ensures _ _ _ (if _ then _ else _) _
    rw [if_pos rfl]
    refine hQ f fun q => ?_
    split
    · rename_i heq
      rw [heq, hsome]
    · rfl

/-- How an `init` ends. -/
structure Inits (sha256 : Bytes → String) (m : Manifest) (f : Store) (r : Except Failure Answer)
    (f' : Store) : Prop where
  result : r = .ok .createdOrPresent
  opened : Opened sha256 m f'
  sound : Sound sha256 m f'
  target : f'.get? (targetPath m) = f.get? (targetPath m)
  chunks : ∀ i, f'.get? (chunkPath m i) = f.get? (chunkPath m i)

/-- The paths of a session are those `init` puts there, or the session was open. -/
theorem inits_of_puts (hn : Named m) (hs : Sound sha256 m f) {f₁ f₂ f₃ f₄ : Store}
    (h₁ : Puts f statePath .directory f₁) (h₂ : Puts f₁ (sessionPath m) .directory f₂)
    (h₃ : Puts f₂ (manifestPath m) (.file (.manifest m)) f₃)
    (h₄ : Puts f₃ (chunksPath m) .directory f₄) :
    Inits sha256 m f (.ok .createdOrPresent) f₄ := by
  have hmanifest : manifestPath m ≠ chunksPath m := by simp [manifestPath, chunksPath]
  have hget : ∀ q, f₄.get? q = if q = chunksPath m then some .directory
      else if q = manifestPath m then some (.file (.manifest m))
      else if q = sessionPath m then some .directory
      else if q = statePath then some .directory else f.get? q := by
    intro q
    rw [h₄ q, h₃ q, h₂ q, h₁ q]
  have hother : ∀ q, q.length = 4 ∨ q = targetPath m → f₄.get? q = f.get? q := by
    intro q hq
    have hstate : targetPath m ≠ statePath := fun h => hn.state (List.singleton_injective h)
    rw [hget q]
    rcases hq with hq | rfl
    · rw [if_neg, if_neg, if_neg, if_neg] <;> rintro rfl <;> cases hq
    · rw [if_neg, if_neg, if_neg, if_neg hstate]
      · exact ne_of_length (by simp [targetPath, sessionPath])
      · exact ne_of_length (by simp [targetPath, manifestPath])
      · exact ne_of_length (by simp [targetPath, chunksPath])
  have hchunks : ∀ i, f₄.get? (chunkPath m i) = f.get? (chunkPath m i) :=
    fun i => hother _ (.inl rfl)
  have hopened : Opened sha256 m f₄ :=
    { state := by
        rw [hget, if_neg (ne_of_length (by simp [statePath, chunksPath])),
          if_neg (ne_of_length (by simp [statePath, manifestPath])),
          if_neg (ne_of_length (by simp [statePath, sessionPath])), if_pos rfl]
      session := by
        rw [hget, if_neg (ne_of_length (by simp [sessionPath, chunksPath])),
          if_neg (ne_of_length (by simp [sessionPath, manifestPath])), if_pos rfl]
      manifest := by rw [hget, if_neg hmanifest, if_pos rfl]
      chunks := by rw [hget, if_pos rfl]
      frames := by
        intro i node hnode
        rw [hchunks] at hnode
        rcases hs.session with ho | hc
        · exact ho.frames i node hnode
        · rw [hc.frames] at hnode
          cases hnode }
  refine ⟨rfl, hopened, ?_, hother _ (.inr rfl), hchunks⟩
  refine ⟨fun q node hnode => ?_, fun node hnode => ?_, .inr hopened.state, .inl hopened⟩
  · rw [hget] at hnode
    by_cases hq₁ : q = chunksPath m
    · exact .inr (.inr (.inr (.inr (.inl hq₁))))
    by_cases hq₂ : q = manifestPath m
    · exact .inr (.inr (.inr (.inl hq₂)))
    by_cases hq₃ : q = sessionPath m
    · exact .inr (.inr (.inl hq₃))
    by_cases hq₄ : q = statePath
    · exact .inl hq₄
    rw [if_neg hq₁, if_neg hq₂, if_neg hq₃, if_neg hq₄] at hnode
    exact hs.known q node hnode
  · rw [hother _ (.inr rfl)] at hnode
    exact hs.target node hnode

theorem does_init {isNFC : String → Bool} (hsession : validateSessionId m.sessionId = .ok ())
    (hname : validateTargetName isNFC m.targetName = .ok ()) (hs : Sound sha256 m f)
    (uuid : Uuid m) : Does sha256 m (Inits sha256 m f) (init isNFC uuid) f := by
  have hn := validateTargetName_named hname
  have hthere : (f.get? (sessionPath m) = none ∨ f.get? (sessionPath m) = some .directory) ∧
      (f.get? (manifestPath m) = none ∨ f.get? (manifestPath m) = some (.file (.manifest m))) ∧
      (f.get? (chunksPath m) = none ∨ f.get? (chunksPath m) = some .directory) := by
    rcases hs.session with ho | hc
    · exact ⟨.inr ho.session, .inr ho.manifest, .inr ho.chunks⟩
    · exact ⟨.inl hc.session, .inl hc.manifest, .inl hc.chunks⟩
  obtain ⟨hsess, hman, hchunks⟩ := hthere
  have htemporary : f.get? (sessionPath m ++ [temporaryName uuid]) = none :=
    hs.free (temporary_not_known (.inr (.inl rfl)))
  refine Program.ensures_bind (does_check hsession ?_)
  refine Program.ensures_bind (does_check hname ?_)
  refine Program.ensures_bind (does_checkPaths hn ?_)
  refine Program.ensures_bind (does_ensurePlainDirectory hs.state (.inl rfl) ?_ fun f₁ h₁ => ?_)
  · exact fun h => hn.state (List.singleton_injective h).symm
  have hsess₁ := h₁.other (q := sessionPath m) (ne_of_length (by simp [sessionPath, statePath]))
  refine Program.ensures_bind (does_ensurePlainDirectory (hsess₁ ▸ hsess) (.inr h₁.self) ?_
    fun f₂ h₂ => ?_)
  · exact ne_of_length (by simp [sessionPath, targetPath])
  have hman₂ : f₂.get? (manifestPath m) = f.get? (manifestPath m) := by
    rw [h₂.other (ne_of_length (by simp [manifestPath, sessionPath])),
      h₁.other (ne_of_length (by simp [manifestPath, statePath]))]
  refine Program.ensures_bind (does_writeExact (hman₂ ▸ hman) (.inr h₂.self) ?_ ?_ ?_
    fun f₃ h₃ => ?_)
  · exact ne_of_length (by simp [manifestPath, targetPath])
  · intro hlast
    have hne : temporaryName uuid ≠ "manifest.json" := temporaryName_ne (by decide)
    exact hne (Option.some.inj hlast).symm
  · show f₂.get? (sessionPath m ++ [temporaryName uuid]) = none
    rw [h₂.other (ne_of_length (by simp [sessionPath])),
      h₁.other (ne_of_length (by simp [sessionPath, statePath])), htemporary]
  have hchunks₃ : f₃.get? (chunksPath m) = f.get? (chunksPath m) := by
    rw [h₃.other (by simp [chunksPath, manifestPath]),
      h₂.other (ne_of_length (by simp [chunksPath, sessionPath])),
      h₁.other (ne_of_length (by simp [chunksPath, statePath]))]
  have hplaced : Placed f₃ (chunksPath m) := by
    refine .inr ?_
    show f₃.get? (sessionPath m) = _
    rw [h₃.other (ne_of_length (by simp [sessionPath, manifestPath])), h₂.self]
  refine Program.ensures_bind (does_ensurePlainDirectory (hchunks₃ ▸ hchunks) hplaced ?_
    fun f₄ h₄ => ?_)
  · exact ne_of_length (by simp [chunksPath, targetPath])
  exact inits_of_puts hn hs h₁ h₂ h₃ h₄

end SurfaceLoom.Clipboard.ReceiverCalls
