import SurfaceLoom.Clipboard.ReceiverFinish

/-! # Integrity of the reference receiver

Whatever calls are made and however they are interleaved: a target is put in place once
and with the announced bytes, stored chunks stay as they are, and a session that was given
all its chunks can be finished. -/
namespace SurfaceLoom.Clipboard.ReceiverIntegrity
open SurfaceLoom.Lib SurfaceLoom.Lib.FileTree SurfaceLoom.Lib.Transition
open SurfaceLoom.Clipboard.Protocol SurfaceLoom.Clipboard.Ranges
open SurfaceLoom.Clipboard.ReferenceReceiver SurfaceLoom.Clipboard.ReceiverFiles
open SurfaceLoom.Clipboard.ReceiverCalls SurfaceLoom.Clipboard.ReceiverFinish

variable {m : Manifest} {sha256 : Bytes → String} {toNumber : String → JsNumber}
variable {isNFC : String → Bool} {f f' : Store} {r : Except Failure Answer}

/-! ## One call -/

/-- How a `status` can end. -/
inductive Reports (sha256 : Bytes → String) (m : Manifest) (f : Store) :
    Except Failure Answer → Store → Prop
  | rejected (failure : Failure) (h : ¬ Opened sha256 m f) : Reports sha256 m f (.error failure) f
  | reported (ho : Opened sha256 m f) : Reports sha256 m f (.ok (.status (report m f))) f

def Ends (sha256 : Bytes → String) (m : Manifest) (f : Store) :
    Call m → Except Failure Answer → Store → Prop
  | .init _ => Inits sha256 m f
  | .add chunk _ => Adds sha256 m f chunk
  | .status => Reports sha256 m f
  | .finalize _ => Finalizes sha256 m f
  | .cleanup => Cleans sha256 m f

/-- What is known of a manifest that was built. -/
structure Built (isNFC : String → Bool) (m : Manifest) : Prop where
  session : validateSessionId m.sessionId = .ok ()
  name : validateTargetName isNFC m.targetName = .ok ()
  count : m.chunkCount ≤ maxChunks

theorem Built.named (hb : Built isNFC m) : Named m := validateTargetName_named hb.name

theorem Closed.not_opened (hc : Closed m f) : ¬ Opened sha256 m f := by
  intro ho
  have hsession := ho.session
  rw [hc.session] at hsession
  cases hsession

theorem does_program (hb : Built isNFC m) (hs : Sound sha256 m f) (call : Call m) :
    Does sha256 m (Ends sha256 m f call) (program sha256 toNumber isNFC call) f := by
  cases call with
  | init uuid => exact does_init hb.session hb.name hs uuid
  | add chunk uuid => exact does_add hb.named hs uuid
  | status =>
    rcases hs.session with ho | hc
    · exact Program.ensures_bind (does_status hb.named ho (.reported ho))
    · refine Program.ensures_bind (Program.ensures_bind ?_)
      exact does_loadSession_closed hb.named hs hc (.rejected _ (Closed.not_opened hc))
  | finalize uuid => exact does_finalize hb.named hb.count hs uuid
  | cleanup => exact does_cleanup hb.named hs

theorem Sound.puts_chunk (hs : Sound sha256 m f) (ho : Opened sha256 m f) {i : Nat} {frame : Frame}
    (hvalid : Valid sha256 m i frame)
    (hputs : Puts f (chunkPath m i) (.file (.frame frame)) f') :
    Opened sha256 m f' ∧ Sound sha256 m f' := by
  have hshort : ∀ q : Path, q.length ≠ 4 → f'.get? q = f.get? q :=
    fun q hq => hputs.other fun h => hq (h ▸ rfl)
  have hopened : Opened sha256 m f' :=
    { state := (hshort _ (by simp [statePath])).trans ho.state
      session := (hshort _ (by simp [sessionPath])).trans ho.session
      manifest := (hshort _ (by simp [manifestPath])).trans ho.manifest
      chunks := (hshort _ (by simp [chunksPath])).trans ho.chunks
      frames := by
        intro j node hnode
        by_cases hj : j = i
        · subst hj
          rw [hputs.self] at hnode
          cases hnode
          exact ⟨frame, rfl, hvalid⟩
        · rw [hputs.other fun h => hj (chunkPath_injective h)] at hnode
          exact ho.frames j node hnode }
  refine ⟨hopened, fun q node hnode => ?_, fun node hnode => ?_, .inr hopened.state, .inl hopened⟩
  · by_cases hq : q = chunkPath m i
    · exact .inr (.inr (.inr (.inr (.inr ⟨i, hq⟩))))
    · rw [hputs.other hq] at hnode
      exact hs.known q node hnode
  · rw [hshort _ (by simp [targetPath])] at hnode
    exact hs.target node hnode

theorem Sound.puts_target (hs : Sound sha256 m f) (hn : Named m) (ho : Opened sha256 m f)
    {content : Content} (hputs : Puts f (targetPath m) (.file content) f') :
    Opened sha256 m f' ∧ Sound sha256 m f' := by
  have hlong : ∀ q : Path, q.length ≠ 1 → f'.get? q = f.get? q :=
    fun q hq => hputs.other fun h => hq (h ▸ rfl)
  have hstate : f'.get? statePath = some .directory :=
    (hputs.other fun h => hn.state (List.singleton_injective h).symm).trans ho.state
  have hopened : Opened sha256 m f' :=
    { state := hstate
      session := (hlong _ (by simp [sessionPath])).trans ho.session
      manifest := (hlong _ (by simp [manifestPath])).trans ho.manifest
      chunks := (hlong _ (by simp [chunksPath])).trans ho.chunks
      frames := by
        intro i node hnode
        rw [hlong _ (by simp [chunkPath])] at hnode
        exact ho.frames i node hnode }
  refine ⟨hopened, fun q node hnode => ?_, fun node hnode => ?_, .inr hstate, .inl hopened⟩
  · by_cases hq : q = targetPath m
    · exact .inr (.inl hq)
    · rw [hputs.other hq] at hnode
      exact hs.known q node hnode
  · rw [hputs.self] at hnode
    cases hnode
    exact ⟨content, rfl⟩

theorem Sound.removed (hs : Sound sha256 m f)
    (hget : ∀ q, f'.get? q = if sessionPath m <+: q then none else f.get? q) :
    Closed m f' ∧ Sound sha256 m f' := by
  have hgone : ∀ rest, f'.get? (sessionPath m ++ rest) = none := fun rest => by
    rw [hget, if_pos (List.prefix_append _ _)]
  have hclosed : Closed m f' :=
    ⟨hgone [], hgone ["manifest.json"], hgone ["chunks"], fun i => hgone ["chunks", chunkFileName i]⟩
  have hstay : ∀ q : Path, q.length < 2 → f'.get? q = f.get? q := fun q hq => by
    rw [hget, if_neg fun h => absurd h.length_le (by simp [sessionPath]; omega)]
  refine ⟨hclosed, fun q node hnode => ?_, fun node hnode => ?_, ?_, .inr hclosed⟩
  · rw [hget] at hnode
    split at hnode
    · cases hnode
    · exact hs.known q node hnode
  · rw [hstay _ (by simp [targetPath])] at hnode
    exact hs.target node hnode
  · rw [hstay _ (by simp [statePath])]
    exact hs.state

theorem Ends.sound (hb : Built isNFC m) (hs : Sound sha256 m f) {call : Call m}
    (h : Ends sha256 m f call r f') : Sound sha256 m f' := by
  cases call with
  | init uuid => exact Inits.sound h
  | add chunk uuid =>
    cases h with
    | rejected failure => exact hs
    | present frame ho hchunk hstored => exact hs
    | added frame f' ho hchunk hvalid hfree hputs => exact (Sound.puts_chunk hs ho hvalid hputs).2
  | status =>
    cases h with
    | rejected failure hclosed => exact hs
    | reported ho => exact hs
  | finalize uuid =>
    cases h with
    | rejected failure hopen => exact hs
    | present content ho htarget hcontent => exact hs
    | created f' ho hfree hcontent hputs => exact (Sound.puts_target hs hb.named ho hputs).2
  | cleanup =>
    cases h with
    | rejected failure => exact hs
    | removed f' ho hget => exact (Sound.removed hs hget).2

/-! ## Any calls one after the other -/

def isRemoval (e : CallEntry m) : Bool :=
  match e.result with
  | .ok .removed => true
  | _ => false

/-- The calls of the session as it stands: those behind the last one that removed it. -/
def session (entries : List (CallEntry m)) : List (CallEntry m) :=
  entries.foldl (fun calls e => if isRemoval e then [] else calls ++ [e]) []

theorem session_snoc (entries : List (CallEntry m)) (e : CallEntry m) :
    session (entries ++ [e]) = if isRemoval e then [] else session entries ++ [e] := by
  rw [session, List.foldl_append]
  rfl

def Opens (e : CallEntry m) : Prop := ∃ uuid answer, e.work = .init uuid ∧ e.result = .ok answer

def Accepts (chunk : ChunkObject) (e : CallEntry m) : Prop :=
  ∃ uuid answer, e.work = .add chunk uuid ∧ e.result = .ok answer

/-- What a session was told is there. -/
structure Told (sha256 : Bytes → String) (entries : List (CallEntry m)) (f : Store) : Prop where
  opened : (∃ e ∈ session entries, Opens e) → Opened sha256 m f
  accepted : ∀ e ∈ session entries, ∀ chunk, Accepts chunk e →
    ∃ frame, chunk = toObject (frameChunk frame) ∧ stored m f frame.i = some frame

theorem Told.snoc {entries : List (CallEntry m)} (h : Told sha256 entries f) {e : CallEntry m}
    (hopened : Opened sha256 m f → Opened sha256 m f')
    (hstored : ∀ i frame, stored m f i = some frame → stored m f' i = some frame)
    (hopens : Opens e → Opened sha256 m f')
    (haccepts : ∀ chunk, Accepts chunk e →
      ∃ frame, chunk = toObject (frameChunk frame) ∧ stored m f' frame.i = some frame) :
    Told sha256 (entries ++ [e]) f' := by
  have hmem : ∀ e' ∈ session (entries ++ [e]), e' ∈ session entries ∨ e' = e := by
    intro e' he'
    rw [session_snoc] at he'
    split at he'
    · cases he'
    · exact (List.mem_append.mp he').imp id List.mem_singleton.mp
  refine ⟨fun hsome => ?_, fun e' he' chunk hchunk => ?_⟩
  · obtain ⟨e', he', hopen⟩ := hsome
    rcases hmem e' he' with hold | rfl
    · exact hopened (h.opened ⟨e', hold, hopen⟩)
    · exact hopens hopen
  · rcases hmem e' he' with hold | rfl
    · obtain ⟨frame, hframe, hthere⟩ := h.accepted e' hold chunk hchunk
      exact ⟨frame, hframe, hstored _ _ hthere⟩
    · exact haccepts chunk hchunk

theorem stored_congr {i : Nat} (h : f'.get? (chunkPath m i) = f.get? (chunkPath m i)) :
    stored m f' i = stored m f i := by
  unfold stored
  rw [h]

theorem Told.next {entries : List (CallEntry m)} (h : Told sha256 entries f) (hb : Built isNFC m)
    (hs : Sound sha256 m f) {call : Call m} (hends : Ends sha256 m f call r f') :
    Told sha256 (entries ++ [⟨call, r, f, f'⟩]) f' := by
  cases call with
  | init uuid =>
    have hinit : Inits sha256 m f r f' := hends
    refine h.snoc (fun _ => hinit.opened) (fun i frame hframe => ?_) (fun _ => hinit.opened) ?_
    · rw [stored_congr (hinit.chunks i)]
      exact hframe
    · rintro chunk ⟨uuid', answer, hwork, -⟩
      cases hwork
  | add chunk uuid =>
    cases hends with
    | rejected failure =>
      refine h.snoc id (fun _ _ hframe => hframe) ?_ ?_
      · rintro ⟨uuid', answer, hwork, -⟩
        cases hwork
      · rintro chunk' ⟨uuid', answer, -, hresult⟩
        cases hresult
    | present frame ho hchunk hstored =>
      refine h.snoc id (fun _ _ hframe => hframe) (fun _ => ho) ?_
      rintro chunk' ⟨uuid', answer, hwork, -⟩
      cases hwork
      exact ⟨frame, hchunk, hstored⟩
    | added frame f' ho hchunk hvalid hfree hputs =>
      have hopened := (Sound.puts_chunk hs ho hvalid hputs).1
      refine h.snoc (fun _ => hopened) (fun i found hfound => ?_) (fun _ => hopened) ?_
      · have hne : chunkPath m i ≠ chunkPath m frame.i := by
          intro heq
          have hthere := stored_eq_some.mp hfound
          rw [heq, hfree] at hthere
          cases hthere
        rw [stored_congr (hputs.other hne)]
        exact hfound
      · rintro chunk' ⟨uuid', answer, hwork, -⟩
        cases hwork
        exact ⟨frame, hchunk, stored_eq_some.mpr hputs.self⟩
  | status =>
    have hsame : f' = f := by
      cases hends <;> rfl
    subst hsame
    refine h.snoc id (fun _ _ hframe => hframe) ?_ ?_
    · rintro ⟨uuid', answer, hwork, -⟩
      cases hwork
    · rintro chunk' ⟨uuid', answer, hwork, -⟩
      cases hwork
  | finalize uuid =>
    have hsame : (Opened sha256 m f → Opened sha256 m f') ∧
        ∀ i, f'.get? (chunkPath m i) = f.get? (chunkPath m i) := by
      cases hends with
      | rejected failure hopen => exact ⟨id, fun _ => rfl⟩
      | present content ho htarget hcontent => exact ⟨id, fun _ => rfl⟩
      | created f' ho hfree hcontent hputs =>
        exact ⟨fun _ => (Sound.puts_target hs hb.named ho hputs).1,
          fun i => hputs.other (ne_of_length (by simp [chunkPath, targetPath]))⟩
    refine h.snoc hsame.1 (fun i frame hframe => ?_) ?_ ?_
    · rw [stored_congr (hsame.2 i)]
      exact hframe
    · rintro ⟨uuid', answer, hwork, -⟩
      cases hwork
    · rintro chunk' ⟨uuid', answer, hwork, -⟩
      cases hwork
  | cleanup =>
    cases hends with
    | rejected failure =>
      refine h.snoc id (fun _ _ hframe => hframe) ?_ ?_
      · rintro ⟨uuid', answer, hwork, -⟩
        cases hwork
      · rintro chunk' ⟨uuid', answer, hwork, -⟩
        cases hwork
    | removed f' ho hget =>
      have hempty : session (entries ++ [⟨.cleanup, .ok .removed, f, f'⟩]) = [] := by
        rw [session_snoc]
        rfl
      constructor
      · rw [hempty]
        rintro ⟨e, he, -⟩
        cases he
      · rw [hempty]
        intro e he
        cases he

/-! ## From the first files on -/

theorem initial_get? (hn : Named m) (target : Option Bytes) (state : Bool) (p : Path) :
    (initial m target state).get? p =
      if p = targetPath m then target.map fun bytes => .file (.bytes bytes)
      else if p = statePath ∧ state = true then some .directory else none := by
  have hne : statePath ≠ targetPath m := fun h => hn.state (List.singleton_injective h).symm
  cases target with
  | none =>
    cases state with
    | false => simp [initial]
    | true =>
      by_cases hp : p = statePath
      · simp [initial, hp, hne]
      · simp [initial, hp]
  | some bytes =>
    cases state with
    | false => simp [initial]
    | true => simp [initial]

theorem initial_sound (hn : Named m) (target : Option Bytes) (state : Bool) :
    Sound sha256 m (initial m target state) ∧ Closed m (initial m target state) := by
  have hne : statePath ≠ targetPath m := fun h => hn.state (List.singleton_injective h).symm
  have hlong : ∀ p : Path, p.length ≠ 1 → (initial m target state).get? p = none := by
    intro p hp
    rw [initial_get? hn, if_neg, if_neg]
    · rintro ⟨rfl, -⟩
      exact hp rfl
    · rintro rfl
      exact hp rfl
  have hclosed : Closed m (initial m target state) :=
    ⟨hlong _ (by simp [sessionPath]), hlong _ (by simp [manifestPath]),
      hlong _ (by simp [chunksPath]), fun i => hlong _ (by simp [chunkPath])⟩
  refine ⟨⟨fun p node hnode => ?_, fun node hnode => ?_, ?_, .inr hclosed⟩, hclosed⟩
  · rw [initial_get? hn] at hnode
    split at hnode
    · rename_i hp
      exact .inr (.inl hp)
    split at hnode
    · rename_i hp
      exact .inl hp.1
    · cases hnode
  · rw [initial_get? hn, if_pos rfl] at hnode
    obtain ⟨bytes, -, rfl⟩ := Option.map_eq_some_iff.mp hnode
    exact ⟨_, rfl⟩
  · rw [initial_get? hn, if_neg hne]
    cases state <;> simp

/-- The calls so far ended as calls made alone do, on files a session leaves. -/
structure Ordered (sha256 : Bytes → String) (entries : List (CallEntry m)) (f : Store) : Prop where
  sound : Sound sha256 m f
  told : Told sha256 entries f
  ended : ∀ prior (e : CallEntry m) rest, entries = prior ++ e :: rest →
    Sound sha256 m e.before ∧ Told sha256 prior e.before ∧ Ends sha256 m e.before e.work e.result e.after

theorem ordered_of_serial (hb : Built isNFC m) {target : Option Bytes} {state : Bool}
    {entries : List (CallEntry m)} {f : Store}
    (h : Locked.Serial perform (program sha256 toNumber isNFC) (initial m target state) entries f) :
    Ordered sha256 entries f := by
  induction h with
  | nil =>
    refine ⟨(initial_sound hb.named target state).1, ⟨?_, ?_⟩, ?_⟩
    · rintro ⟨e, he, -⟩
      cases he
    · intro e he
      cases he
    · intro prior e rest heq
      simp at heq
  | @snoc entries s t call result hentries hrun ih =>
    have hends : Ends sha256 m s call _ _ :=
      (does_program hb ih.sound call : Does sha256 m _ (program sha256 toNumber isNFC call) s).run
    rw [hrun] at hends
    refine ⟨Ends.sound hb ih.sound hends, ih.told.next hb ih.sound hends, ?_⟩
    intro prior e rest heq
    rcases List.eq_nil_or_concat rest with rfl | ⟨rest', last, rfl⟩
    · obtain ⟨rfl, hlast⟩ := List.append_inj' heq rfl
      cases hlast
      exact ⟨ih.sound, ih.told, hends⟩
    · rw [List.concat_eq_append, ← List.cons_append, ← List.append_assoc] at heq
      obtain ⟨hprior, -⟩ := List.append_inj' heq rfl
      exact ih.ended prior e rest' hprior

/-! ## A session that was given all its chunks -/

theorem toObject_injective {c d : Chunk} (h : toObject c = toObject d) : c = d := by
  obtain ⟨i, l, s, p⟩ := c
  obtain ⟨i', l', s', p'⟩ := d
  simp only [toObject, Member.natural, ChunkObject.mk.injEq, Member.number.injEq,
    Member.string.injEq, JsNumber.finite.injEq, Nat.cast_inj] at h
  obtain ⟨rfl, rfl, rfl, rfl⟩ := h
  rfl

/-- Every chunk of the bytes was accepted in the session as it stands. -/
def Given (sha256 : Bytes → String) (bytes : Bytes) (entries : List (CallEntry m)) : Prop :=
  ∀ chunk ∈ splitChunks sha256 bytes m, ∃ e ∈ session entries, Accepts (toObject chunk) e

theorem Told.stored_split {entries : List (CallEntry m)} (h : Told sha256 entries f) {bytes : Bytes}
    (hgiven : Given sha256 bytes entries) {i : Nat} (hi : i < m.chunkCount) :
    ∃ frame, stored m f i = some frame ∧ frameBytes frame = subarray bytes m i := by
  have hmem : (⟨i, (subarray bytes m i).length, sha256 (subarray bytes m i),
      canonicalBase64 (subarray bytes m i)⟩ : Chunk) ∈ splitChunks sha256 bytes m :=
    List.mem_map.mpr ⟨i, List.mem_range.mpr hi, rfl⟩
  obtain ⟨e, he, haccepts⟩ := hgiven _ hmem
  obtain ⟨frame, hframe, hstored⟩ := h.accepted e he _ haccepts
  have hchunk := toObject_injective hframe
  obtain ⟨hindex, -, -, hpayload⟩ := Chunk.mk.inj hchunk
  refine ⟨frame, ?_, ?_⟩
  · have hindex : i = frame.i := hindex
    rw [hindex]
    exact hstored
  · have hpayload : canonicalBase64 (subarray bytes m i) = frame.p := hpayload
    rw [frameBytes, ← hpayload, canonicalBase64_toList, Base64.decode_encode]
    rfl

theorem Told.complete {entries : List (CallEntry m)} (h : Told sha256 entries f) {bytes : Bytes}
    (hm : Announces sha256 m bytes) (hgiven : Given sha256 bytes entries) :
    Complete m f ∧ assembled m f = bytes := by
  constructor
  · intro i hi hnone
    obtain ⟨frame, hframe, -⟩ := h.stored_split hgiven hi
    rw [hnone] at hframe
    cases hframe
  · have hmap : (List.range m.chunkCount).map (storedBytes m f) =
        (List.range m.chunkCount).map (subarray bytes m) := by
      refine List.map_congr_left fun i hi => ?_
      obtain ⟨frame, hframe, hbytes⟩ := h.stored_split hgiven (List.mem_range.mp hi)
      rw [storedBytes_eq hframe, hbytes]
    rw [assembled, hmap, hm.flatten]

theorem announced_bytes {bytes : Bytes} : announced sha256 m (.bytes bytes) = true ↔
    bytes.length = m.totalLength ∧ sha256 bytes = m.fileSha256 := by
  simp [announced]

theorem announced_inv {content : Content} (h : announced sha256 m content = true) :
    ∃ bytes, content = .bytes bytes ∧ bytes.length = m.totalLength ∧ sha256 bytes = m.fileSha256 := by
  cases content with
  | bytes bytes => exact ⟨bytes, rfl, announced_bytes.mp h⟩
  | manifest manifest => cases h
  | frame frame => cases h

/-- Some file with other than the announced bytes is in the place of the target. -/
def Conflicting (sha256 : Bytes → String) (m : Manifest) (f : Store) : Prop :=
  ∃ content, f.get? (targetPath m) = some (.file content) ∧ announced sha256 m content = false

theorem Told.finishes {entries : List (CallEntry m)} (h : Told sha256 entries f) {bytes : Bytes}
    (hm : Announces sha256 m bytes) (hopens : ∃ e ∈ session entries, Opens e)
    (hgiven : Given sha256 bytes entries) (hfree : ¬ Conflicting sha256 m f) :
    Finishes sha256 m f := by
  obtain ⟨hcomplete, hbytes⟩ := h.complete hm hgiven
  refine ⟨h.opened hopens, fun content hcontent => ?_, fun _ => ⟨hcomplete, ?_⟩⟩
  · by_contra hother
    exact hfree ⟨content, hcontent, Bool.eq_false_iff.mpr hother⟩
  · rw [hbytes, announced_bytes]
    exact ⟨hm.totalLength.symm, hm.fileSha256.symm⟩

theorem Finalizes.finished {bytes : Bytes} (h : Finalizes sha256 m f r f')
    (hinj : Function.Injective sha256) (hm : Announces sha256 m bytes)
    (hfinishes : Finishes sha256 m f) : ∃ answer, r = .ok answer ∧
      f'.get? (targetPath m) = some (.file (.bytes bytes)) := by
  have hsame : ∀ content, announced sha256 m content = true → content = .bytes bytes := by
    intro content hcontent
    obtain ⟨other, rfl, -, hhash⟩ := announced_inv hcontent
    rw [hinj (hhash.trans hm.fileSha256)]
  cases h with
  | rejected failure hopen => exact absurd hfinishes hopen
  | present content ho htarget hcontent =>
    exact ⟨_, rfl, htarget.trans (by rw [hsame content hcontent])⟩
  | created f' ho hfree hcontent hputs =>
    exact ⟨_, rfl, hputs.self.trans (by rw [hsame _ hcontent])⟩

/-! ## What the receivers promise -/

structure Integrity (sha256 : Bytes → String) (toNumber : String → JsNumber)
    (isNFC : String → Bool) (bytes : Bytes) (s : Receivers m) : Prop where
  target_kept : ∀ event s', Locked.next perform (program sha256 toNumber isNFC) s event = some s' →
    ∀ node, s.shared.get? (targetPath m) = some node → s'.shared.get? (targetPath m) = some node
  target_created : ∀ event s',
    Locked.next perform (program sha256 toNumber isNFC) s event = some s' →
    s.shared.get? (targetPath m) = none → ∀ node, s'.shared.get? (targetPath m) = some node →
    ∃ b, node = .file (.bytes b) ∧ b.length = m.totalLength ∧ sha256 b = m.fileSha256
  chunk_kept : ∀ event s', Locked.next perform (program sha256 toNumber isNFC) s event = some s' →
    ∀ i node, s.shared.get? (chunkPath m i) = some node →
      s'.shared.get? (chunkPath m i) = some node ∨ s'.shared.get? (chunkPath m i) = none
  add_rejected : ∀ e ∈ s.entries, ∀ chunk uuid failure, e.work = .add chunk uuid →
    e.result = .error failure → e.after = e.before
  add_repeated : ∀ e ∈ s.entries, ∀ chunk uuid i frame, e.work = .add chunk uuid →
    stored m e.before i = some frame → chunk = toObject (frameChunk frame) → e.after = e.before
  add_accepted : ∀ e ∈ s.entries, ∀ chunk uuid answer, e.work = .add chunk uuid →
    e.result = .ok answer → ∃ frame, chunk = toObject (frameChunk frame) ∧
      stored m e.after frame.i = some frame
  status_answers : ∀ e ∈ s.entries, e.work = .status → Opened sha256 m e.before →
    ∃ status, e.result = .ok (.status status)
  status_reports : ∀ e ∈ s.entries, e.work = .status → ∀ answer, e.result = .ok answer →
    ∃ status, answer = .status status ∧ status.received + status.missing.length = m.chunkCount ∧
      (∀ i, i ∈ status.missing ↔ i < m.chunkCount ∧ e.before.get? (chunkPath m i) = none) ∧
      Denotes status.missingRanges fun i => i < m.chunkCount ∧ e.before.get? (chunkPath m i) = none
  finalizes : ∀ prior e rest, s.entries = prior ++ e :: rest → ∀ uuid, e.work = .finalize uuid →
    (∃ c ∈ session prior, Opens c) → Given sha256 bytes prior → ¬ Conflicting sha256 m e.before →
    ∃ answer, e.result = .ok answer ∧ e.after.get? (targetPath m) = some (.file (.bytes bytes))
  progress : s.tail.waiting ≠ [] ∨ s.tail.running ≠ [] → ∃ event s', (∀ call, event ≠ .call call) ∧
    Locked.next perform (program sha256 toNumber isNFC) s event = some s'

theorem stored_frame_index {i : Nat} {frame : Frame} (hvalid : Valid sha256 m i frame) :
    frame.i = i := by
  have hparse := hvalid.parse
  obtain ⟨raw, -, hchecks⟩ := Checked.bind_ok.mp hparse
  split at hchecks
  · cases hchecks
  · rename_i hsame
    simp only [not_or, not_not] at hsame
    exact hsame.1

theorem Adds.repeated {chunk : ChunkObject} (h : Adds sha256 m f chunk r f') {i : Nat}
    {frame : Frame} (hstored : stored m f i = some frame)
    (hchunk : chunk = toObject (frameChunk frame)) : f' = f := by
  cases h with
  | rejected failure => rfl
  | present frame' ho hchunk' hstored' => rfl
  | added frame' f' ho hchunk' hvalid hfree hputs =>
    have hsame := toObject_injective (hchunk'.symm.trans hchunk)
    have hindex : frame'.i = frame.i := (Chunk.mk.inj hsame).1
    have hi := stored_frame_index (ho.valid hstored)
    rw [hindex, hi, stored_eq_some.mp hstored] at hfree
    cases hfree

theorem report_missing (ho : Opened sha256 m f) {i : Nat} :
    i ∈ (report m f).missing ↔ i < m.chunkCount ∧ f.get? (chunkPath m i) = none := by
  have hmem : i ∈ (report m f).missing ↔
      i ∈ (List.range m.chunkCount).filter fun i => (stored m f i).isNone := Iff.rfl
  rw [hmem, List.mem_filter, List.mem_range, Option.isNone_iff_eq_none, ho.stored_eq_none]

theorem report_received (m : Manifest) (f : Store) :
    (report m f).received + (report m f).missing.length = m.chunkCount := by
  have hlength : (report m f).missing.length ≤ m.chunkCount := by
    have hfilter := List.length_filter_le (fun i => (stored m f i).isNone) (List.range m.chunkCount)
    rw [List.length_range] at hfilter
    exact hfilter
  exact Nat.sub_add_cancel hlength

/-- The receivers of one process keep what they promise, whatever is called in whatever
order: a finalize in an open session that was given all its chunks puts the bytes in place. -/
theorem reference_receiver_integrity (isNFC : String → Bool) (sha256 : Bytes → String)
    (toNumber : String → JsNumber) (hinj : Function.Injective sha256)
    (sessionId targetName : String) (bytes : Bytes) (chunkRawBytes : Nat) (m : Manifest)
    (hm : buildManifest isNFC sha256 sessionId targetName bytes chunkRawBytes = .ok m)
    (target : Option Bytes) (state : Bool) (s : Receivers m)
    (hs : (receiving sha256 toNumber isNFC m target state).Reachable s) :
    Integrity sha256 toNumber isNFC bytes s := by
  obtain ⟨hsession, hname, hannounces⟩ := buildManifest_ok hm
  have hb : Built isNFC m := ⟨hsession, hname, hannounces.bounded⟩
  have hserialized := Locked.serialized_invariant.reachable hs
  obtain ⟨t, hserial, -⟩ := hserialized.entries
  have hordered := ordered_of_serial hb hserial
  have hended : ∀ e ∈ s.entries, Sound sha256 m e.before ∧
      Ends sha256 m e.before e.work e.result e.after := by
    intro e he
    obtain ⟨prior, rest, heq⟩ := List.append_of_mem he
    obtain ⟨hsound, -, hends⟩ := hordered.ended prior e rest heq
    exact ⟨hsound, hends⟩
  have hkeeps : ∀ event s', Locked.next perform (program sha256 toNumber isNFC) s event = some s' →
      Keeps sha256 m s.shared s'.shared := by
    intro event s' hstep
    refine hserialized.guarded (fun entries t hprior call => ?_) Keeps.refl hstep
    exact (does_program hb (ordered_of_serial hb hprior).sound call).guarded
  refine
    { target_kept := fun event s' hstep => (hkeeps event s' hstep).target
      target_created := fun event s' hstep hfree node hnode => ?_
      chunk_kept := fun event s' hstep => (hkeeps event s' hstep).chunk
      add_rejected := fun e he chunk uuid failure hwork hresult => ?_
      add_repeated := fun e he chunk uuid i frame hwork hstored hchunk => ?_
      add_accepted := fun e he chunk uuid answer hwork hresult => ?_
      status_answers := fun e he hwork hopened => ?_
      status_reports := fun e he hwork answer hresult => ?_
      finalizes := fun prior e rest heq uuid hwork hopens hgiven hfree => ?_
      progress := hserialized.progress }
  · obtain ⟨content, rfl, hcontent⟩ := (hkeeps event s' hstep).created hfree node hnode
    obtain ⟨b, rfl, hb⟩ := announced_inv hcontent
    exact ⟨b, rfl, hb⟩
  · have hends := (hended e he).2
    rw [hwork, hresult] at hends
    generalize e.after = f' at hends ⊢
    cases hends
    rfl
  · have hends := (hended e he).2
    rw [hwork] at hends
    exact Adds.repeated hends hstored hchunk
  · have hends := (hended e he).2
    rw [hwork, hresult] at hends
    generalize e.after = f' at hends ⊢
    cases hends with
    | present frame ho hchunk hstored => exact ⟨frame, hchunk, hstored⟩
    | added frame f' ho hchunk hvalid hfree hputs =>
      exact ⟨frame, hchunk, stored_eq_some.mpr hputs.self⟩
  · have hends := (hended e he).2
    rw [hwork] at hends
    generalize e.result = r, e.after = f' at hends ⊢
    cases hends with
    | rejected failure hclosed => exact absurd hopened hclosed
    | reported ho => exact ⟨_, rfl⟩
  · have hends := (hended e he).2
    rw [hwork, hresult] at hends
    generalize e.after = f' at hends
    cases hends with
    | reported ho =>
      refine ⟨_, rfl, report_received m e.before, fun i => report_missing ho, ?_⟩
      obtain ⟨ranges, hread, hranges⟩ := formatRanges_denotes (report m e.before).missing
      exact ⟨ranges, hread, fun i => (report_missing ho).symm.trans (hranges i)⟩
  · obtain ⟨-, htold, hends⟩ := hordered.ended prior e rest heq
    rw [hwork] at hends
    exact Finalizes.finished hends hinj hannounces (htold.finishes hannounces hopens hgiven hfree)

/-! ## A session that was cleaned up -/

def demoBytes : Bytes := [104, 105]

def demoManifest : Manifest :=
  ⟨protocolVersion, "0123456789abcdef0123456789abcdef", "a.bin", 2, canonicalBase64 demoBytes, 2, 1⟩

theorem demoManifest_built : buildManifest (fun _ => true) canonicalBase64
    "0123456789abcdef0123456789abcdef" "a.bin" demoBytes 2 = .ok demoManifest := by decide +kernel

def demoUuid : Uuid demoManifest := ⟨"1", by decide⟩

def demoChunk : Chunk := ⟨0, 2, canonicalBase64 demoBytes, canonicalBase64 demoBytes⟩

abbrev demoReceiving : System (Receivers demoManifest) (Locked.Event (Call demoManifest)) :=
  receiving canonicalBase64 (fun _ => .nan) (fun _ => true) demoManifest none false

def demoCall (work : Call demoManifest) (steps : Nat) : List (Locked.Event (Call demoManifest)) :=
  .call work :: .start 0 :: List.replicate steps (.step 0) ++ [.settle 0]

def demoEvents : List (Locked.Event (Call demoManifest)) :=
  demoCall (.init demoUuid) 11 ++ demoCall (.add (toObject demoChunk) demoUuid) 10 ++
    demoCall .cleanup 11 ++ demoCall (.finalize demoUuid) 2

def demoReplay (events : List (Locked.Event (Call demoManifest))) : Option (Receivers demoManifest) :=
  System.replay (Locked.next perform (program canonicalBase64 (fun _ => .nan) (fun _ => true)))
    (Locked.idle (initial demoManifest none false)) events

/-- The chunk was stored and the session removed, and nothing could be put together. -/
def wasRemoved (s : Receivers demoManifest) : Bool :=
  match s.entries with
  | [⟨.init _, .ok _, _, _⟩, ⟨.add chunk _, .ok _, _, _⟩, ⟨.cleanup, .ok _, _, _⟩,
      ⟨.finalize _, .error _, before, _⟩] =>
    chunk = toObject demoChunk && before.get? (targetPath demoManifest) = none
  | _ => false

theorem demoEvents_removed : (demoReplay demoEvents).any wasRemoved = true := by decide +kernel

/-- Chunks that were all accepted are no more after a cleanup. -/
theorem chunks_removed : ¬ ∀ s, demoReceiving.Reachable s →
    ∀ prior e rest, s.entries = prior ++ e :: rest → ∀ uuid, e.work = .finalize uuid →
    (∀ a ∈ prior, ∀ chunk uuid, a.work = .add chunk uuid →
      ∃ c ∈ splitChunks canonicalBase64 demoBytes demoManifest, chunk = toObject c) →
    (∀ c ∈ splitChunks canonicalBase64 demoBytes demoManifest,
      ∃ a ∈ prior, Accepts (toObject c) a) →
    ¬ Conflicting canonicalBase64 demoManifest e.before →
    ∃ answer, e.result = .ok answer := by
  intro hclaim
  obtain ⟨s, hs, hremoved⟩ := (Option.any_eq_true _ _).mp demoEvents_removed
  have hreach : demoReceiving.Reachable s := System.reachable_of_replay hs
  unfold wasRemoved at hremoved
  split at hremoved
  · rename_i heq
    simp only [Bool.and_eq_true, decide_eq_true_eq] at hremoved
    obtain ⟨rfl, hfree⟩ := hremoved
    have hplan : splitChunks canonicalBase64 demoBytes demoManifest = [demoChunk] := by decide +kernel
    obtain ⟨answer, hanswer⟩ := hclaim s hreach [_, _, _] _ [] heq _ rfl
      (by simp [hplan]) (by simp [hplan, Accepts]) (by
        intro hconflict
        obtain ⟨content, hcontent, -⟩ := hconflict
        rw [hfree] at hcontent
        cases hcontent)
    cases hanswer
  · cases hremoved

/-- The same chunk without the cleanup. -/
def wasStored (s : Receivers demoManifest) : Bool :=
  match s.entries with
  | [⟨.init _, .ok _, _, _⟩, ⟨.add chunk _, .ok _, _, _⟩, ⟨.finalize _, .ok _, _, after⟩] =>
    chunk = toObject demoChunk &&
      after.get? (targetPath demoManifest) = some (.file (.bytes demoBytes))
  | _ => false

theorem demoEvents_stored : (demoReplay (demoCall (.init demoUuid) 11 ++
    demoCall (.add (toObject demoChunk) demoUuid) 10 ++
    demoCall (.finalize demoUuid) 27)).any wasStored = true := by decide +kernel

theorem canonicalBase64_injective : Function.Injective canonicalBase64 := by
  intro a b h
  have hlists : Base64.encode a = Base64.encode b := by
    rw [← canonicalBase64_toList, h, canonicalBase64_toList]
  have hdecoded := Base64.decode_encode a
  rw [hlists, Base64.decode_encode] at hdecoded
  exact (Option.some.inj hdecoded).symm

theorem demo_integrity : ∃ s, wasStored s = true ∧
    Integrity canonicalBase64 (fun _ => .nan) (fun _ => true) demoBytes s := by
  obtain ⟨s, hs, hstored⟩ := (Option.any_eq_true _ _).mp demoEvents_stored
  exact ⟨s, hstored, reference_receiver_integrity (fun _ => true) canonicalBase64 (fun _ => .nan)
    canonicalBase64_injective _ _ demoBytes 2 demoManifest demoManifest_built none false s
    (System.reachable_of_replay hs)⟩

end SurfaceLoom.Clipboard.ReceiverIntegrity
