import SurfaceLoom.Clipboard.ReferenceReceiver

/-! # The files of a session

Which paths a session uses, what no file operation does to the target and to a stored
chunk, and what the operations of the receiver do where they are called. -/
namespace SurfaceLoom.Clipboard.ReceiverFiles
open SurfaceLoom.Lib SurfaceLoom.Lib.FileTree
open SurfaceLoom.Clipboard.Protocol SurfaceLoom.Clipboard.ReferenceReceiver

variable {m : Manifest} {sha256 : Bytes → String}

/-! ## Names -/

/-- The target is none of the receiver's own files. -/
structure Named (m : Manifest) : Prop where
  onePart : isOnePart m.targetName = true
  state : m.targetName ≠ stateDirectory
  own : m.targetName ≠ ".slm-clipboard-" ++ m.sessionId ++ ".partial"

theorem toLowerCase_prefix (name : String) :
    ".slm-clipboard-".toList.isPrefixOf (toLowerCase (".slm-clipboard-" ++ name)).toList = true := by
  have hlower : (toLowerCase (".slm-clipboard-" ++ name)).toList =
      (".slm-clipboard-" ++ name).toList.map Char.toLower := String.toList_ofList
  rw [hlower, String.toList_append, List.map_append, List.isPrefixOf_iff_prefix]
  exact List.prefix_append ".slm-clipboard-".toList _

theorem validateTargetName_named {isNFC : String → Bool}
    (h : validateTargetName isNFC m.targetName = .ok ()) : Named m := by
  unfold validateTargetName at h
  split at h
  · cases h
  rename_i hvalid
  simp only [not_or] at hvalid
  obtain ⟨hempty, -, -, hdot, hdots, -, -, hlegal, -, hstate, hown⟩ := hvalid
  refine ⟨?_, fun heq => ?_, fun heq => ?_⟩
  · have hslash : ∀ c ∈ m.targetName.toList, c ≠ '/' ∧ c ≠ '\\' := by
      intro c hc
      constructor <;> rintro rfl <;> exact hlegal (List.any_eq_true.mpr ⟨_, hc, rfl⟩)
    simpa [isOnePart, hempty, hdot, hdots] using hslash
  · exact hstate (by rw [heq]; decide)
  · refine hown ?_
    rw [heq, String.append_assoc]
    exact toLowerCase_prefix _

theorem temporaryName_ne {uuid : Uuid m} {name : String}
    (h : ¬ ".tmp-".toList.isPrefixOf name.toList) : temporaryName uuid ≠ name := by
  rintro rfl
  refine h ?_
  rw [temporaryName, String.toList_append, List.isPrefixOf_iff_prefix]
  exact List.prefix_append _ _

theorem chunkFileName_toList (index : Nat) :
    (chunkFileName index).toList = Decimal.padded 8 index ++ ".chunk.json".toList := by
  rw [chunkFileName, String.toList_append, String.toList_ofList]

theorem chunkFileName_injective {i j : Nat} (h : chunkFileName i = chunkFileName j) : i = j := by
  have hlist := congrArg String.toList h
  rw [chunkFileName_toList, chunkFileName_toList] at hlist
  exact Decimal.padded_injective (List.append_cancel_right hlist)

theorem chunkFileName_lt {i j : Nat} (h : i < j) (hj : j < 10 ^ 8) :
    chunkFileName i < chunkFileName j := by
  have hlt : Decimal.padded 8 i < Decimal.padded 8 j := Decimal.padded_lt (by decide) h hj
  rw [String.lt_iff_toList_lt, chunkFileName_toList, chunkFileName_toList]
  refine Decimal.append_lt_append ?_ hlt _
  rw [Decimal.padded_length (by decide) (h.trans hj), Decimal.padded_length (by decide) hj]

theorem temporaryName_ne_chunkFileName (uuid : Uuid m) (index : Nat) :
    temporaryName uuid ≠ chunkFileName index := by
  refine temporaryName_ne fun hprefix => ?_
  rw [chunkFileName_toList] at hprefix
  cases hchars : Decimal.padded 8 index with
  | nil =>
    rw [hchars] at hprefix
    cases hprefix
  | cons c rest =>
    have hdigit : c.isDigit = true := Decimal.padded_digits (hchars ▸ List.mem_cons_self)
    rw [hchars, List.isPrefixOf_iff_prefix] at hprefix
    have hfirst : '.' = c := (List.cons_prefix_cons.mp hprefix).1
    rw [← hfirst] at hdigit
    cases hdigit

/-! ## Paths -/

theorem chunkPath_injective {i j : Nat} (h : chunkPath m i = chunkPath m j) : i = j := by
  simp only [chunkPath, List.cons.injEq, and_true, true_and] at h
  exact chunkFileName_injective h

theorem ne_of_length {p q : Path} (h : p.length ≠ q.length) : p ≠ q := fun heq => h (heq ▸ rfl)

theorem temporary_ne_target (uuid : Uuid m) (directory : Path) :
    directory ++ [temporaryName uuid] ≠ targetPath m := by
  intro h
  have hlast := congrArg List.getLast? h
  rw [List.getLast?_concat] at hlast
  exact uuid.fresh (Option.some.inj hlast)

theorem temporary_ne_chunk (uuid : Uuid m) (directory : Path) (index : Nat) :
    directory ++ [temporaryName uuid] ≠ chunkPath m index := by
  intro h
  have hlast := congrArg List.getLast? h
  rw [List.getLast?_concat] at hlast
  exact temporaryName_ne_chunkFileName uuid index (Option.some.inj hlast)

/-! ## What a file operation keeps -/

/-- A target stays as it is, and one that is new has the length and the hash of the manifest;
a stored chunk stays as it is or goes. -/
structure Keeps (sha256 : Bytes → String) (m : Manifest) (f f' : Store) : Prop where
  target : ∀ node, f.get? (targetPath m) = some node → f'.get? (targetPath m) = some node
  created : f.get? (targetPath m) = none → ∀ node, f'.get? (targetPath m) = some node →
    ∃ content, node = .file content ∧ announced sha256 m content = true
  chunk : ∀ i node, f.get? (chunkPath m i) = some node →
    f'.get? (chunkPath m i) = some node ∨ f'.get? (chunkPath m i) = none

variable {f f' : Store} {p q : Path} {node : Node Content} {content : Content}

theorem Keeps.refl (f : Store) : Keeps sha256 m f f where
  target _ h := h
  created h node hnode := by
    rw [h] at hnode
    cases hnode
  chunk _ _ h := .inl h

theorem Keeps.set (hp : p ≠ targetPath m) (hfree : ∀ i, p = chunkPath m i → f.get? p = none)
    (node : Node Content) : Keeps sha256 m f (f.set p node) where
  target node' h := by
    rw [OrderedMap.get?_set, if_neg hp.symm]
    exact h
  created h node' hnode := by
    rw [OrderedMap.get?_set, if_neg hp.symm, h] at hnode
    cases hnode
  chunk i node' h := by
    rw [OrderedMap.get?_set]
    by_cases heq : chunkPath m i = p
    · rw [heq, hfree i heq.symm] at h
      cases h
    · rw [if_neg heq]
      exact .inl h

theorem Keeps.set_target (hfree : f.get? (targetPath m) = none)
    (hcontent : announced sha256 m content = true) :
    Keeps sha256 m f (f.set (targetPath m) (.file content)) where
  target node h := by
    rw [hfree] at h
    cases h
  created _ node hnode := by
    rw [OrderedMap.get?_set, if_pos rfl] at hnode
    cases hnode
    exact ⟨content, rfl, hcontent⟩
  chunk i node h := by
    rw [OrderedMap.get?_set, if_neg (ne_of_length (by simp [chunkPath, targetPath]))]
    exact .inl h

theorem Keeps.filter {keep : Path → Node Content → Bool}
    (hkeep : ∀ node, keep (targetPath m) node = true) : Keeps sha256 m f (f.filter keep) where
  target node h := by
    rw [OrderedMap.get?_filter, h, Option.filter_some, if_pos (hkeep node)]
  created h node hnode := by
    rw [OrderedMap.get?_filter, h] at hnode
    cases hnode
  chunk i node h := by
    rw [OrderedMap.get?_filter, h, Option.filter_some]
    by_cases hk : keep (chunkPath m i) node = true
    · exact .inl (if_pos hk)
    · exact .inr (if_neg hk)

theorem Keeps.erase (hp : p ≠ targetPath m) : Keeps sha256 m f (f.erase p) :=
  .filter fun _ => decide_eq_true hp.symm

/-! ## What the operations do -/

/-- The job keeps what is to be kept at every step, and ends like this. -/
abbrev Does {α : Type} (sha256 : Bytes → String) (m : Manifest)
    (Q : Except Failure α → Store → Prop) (job : Job α) (f : Store) : Prop :=
  job.Ensures perform (Keeps sha256 m) Q f

variable {α : Type}

theorem does_pathExists {Q : Except Failure Bool → Store → Prop}
    (hQ : Q (.ok (f.get? p).isSome) f) : Does sha256 m Q (pathExists p) f := by
  cases h : f.get? p with
  | some node =>
    rw [h] at hQ
    simpa [Does, pathExists, Program.Ensures, perform, h] using ⟨Keeps.refl f, hQ⟩
  | none =>
    rw [h] at hQ
    simpa [Does, pathExists, Program.Ensures, perform, h] using ⟨Keeps.refl f, hQ⟩

theorem does_assertPlain {Q : Except Failure Unit → Store → Prop} (h : f.get? p = some node)
    (hQ : Q (.ok ()) f) : Does sha256 m Q (assertPlain p node.kind) f := by
  refine Program.ensures_bind ?_
  simp only [lstat, Program.Ensures, perform, h]
  refine ⟨Keeps.refl f, ?_⟩
  show Program.Ensures _ _ _ (if node.kind = node.kind then _ else _) _
  rw [if_pos rfl]
  exact hQ

theorem does_assertPlain_missing {Q : Except Failure Unit → Store → Prop} {kind : Kind}
    (h : f.get? p = none) (hQ : Q (.error (.system .ENOENT)) f) :
    Does sha256 m Q (assertPlain p kind) f := by
  refine Program.ensures_bind ?_
  simp only [lstat, Program.Ensures, perform, h]
  exact ⟨Keeps.refl f, hQ⟩

theorem does_readFile {Q : Except Failure Content → Store → Prop}
    (h : f.get? p = some (.file content)) (hQ : Q (.ok content) f) :
    Does sha256 m Q (readFile p) f := by
  simp only [Does, readFile, Program.Ensures, perform, h]
  exact ⟨Keeps.refl f, hQ⟩

theorem does_readdir {Q : Except Failure (List (String × Kind)) → Store → Prop}
    (h : f.get? p = some .directory) (hQ : Q (.ok (children f p)) f) :
    Does sha256 m Q (readdir p) f := by
  simp only [Does, readdir, Program.Ensures, perform, h]
  exact ⟨Keeps.refl f, hQ⟩

theorem does_readOptional {Q : Except Failure (Option Content) → Store → Prop}
    (h : f.get? p = some (.file content)) (hQ : Q (.ok (some content)) f) :
    Does sha256 m Q (readOptional p) f := by
  refine Program.ensures_bind (does_pathExists ?_)
  rw [h]
  refine Program.ensures_bind (does_assertPlain h ?_)
  refine Program.ensures_bind (does_readFile h ?_)
  exact hQ

theorem does_readOptional_none {Q : Except Failure (Option Content) → Store → Prop}
    (h : f.get? p = none) (hQ : Q (.ok none) f) : Does sha256 m Q (readOptional p) f := by
  refine Program.ensures_bind (does_pathExists ?_)
  rw [h]
  exact hQ

/-- There is a directory for the path. -/
def Placed (f : Store) (p : Path) : Prop :=
  p.dropLast = [] ∨ f.get? p.dropLast = some .directory

theorem place_ok (hfree : f.get? p = none) (hplaced : Placed f p) : place f p = .ok () := by
  have hparent : p.dropLast = [] ∨ (f.get? p.dropLast).map Node.kind = some .directory := by
    rcases hplaced with h | h
    · exact .inl h
    · exact .inr (by rw [h]; rfl)
  unfold place
  rw [OrderedMap.has_eq_false_iff.mpr hfree, if_neg Bool.false_ne_true, if_pos hparent]

theorem create_free (hfree : f.get? p = none) (hplaced : Placed f p) :
    create f p node = (.ok (), f.set p node) := by
  rw [create, place_ok hfree hplaced]

/-- One path has this node now, all others are as before. -/
def Puts (f : Store) (p : Path) (node : Node Content) (f' : Store) : Prop :=
  ∀ q, f'.get? q = if q = p then some node else f.get? q

theorem Puts.self (h : Puts f p node f') : f'.get? p = some node := (h p).trans (if_pos rfl)

theorem Puts.other (h : Puts f p node f') (hq : q ≠ p) : f'.get? q = f.get? q :=
  (h q).trans (if_neg hq)

theorem Puts.placed (h : Puts f p .directory f') (hq : Placed f q) : Placed f' q := by
  refine hq.imp id fun hparent => ?_
  by_cases heq : q.dropLast = p
  · rw [heq]
    exact h.self
  · rw [h.other heq]
    exact hparent

theorem does_ensurePlainDirectory {Q : Except Failure Unit → Store → Prop}
    (h : f.get? p = none ∨ f.get? p = some .directory) (hplaced : Placed f p)
    (hp : p ≠ targetPath m) (hQ : ∀ f', Puts f p .directory f' → Q (.ok ()) f') :
    Does sha256 m Q (ensurePlainDirectory p) f := by
  refine Program.ensures_bind (does_pathExists ?_)
  rcases h with hnone | hdirectory
  · rw [hnone]
    show Program.Ensures _ _ _ (mkdir p) _
    simp only [mkdir, Program.Ensures, perform, create_free hnone hplaced]
    exact ⟨.set hp (fun i _ => hnone) _, hQ _ fun q => OrderedMap.get?_set⟩
  · rw [hdirectory]
    refine does_assertPlain hdirectory (hQ f fun q => ?_)
    split
    · rename_i heq
      rw [heq, hdirectory]
    · rfl

/-- The new file is complete when its name appears. -/
theorem does_atomicCreate {Q : Except Failure Unit → Store → Prop} {uuid : Uuid m}
    (hfree : f.get? p = none) (hplaced : Placed f p) (hp : p ≠ targetPath m)
    (hname : p.getLast? ≠ some (temporaryName uuid))
    (htemporary : f.get? (p.dropLast ++ [temporaryName uuid]) = none)
    (hQ : ∀ f', Puts f p (.file content) f' → Q (.ok ()) f') :
    Does sha256 m Q (atomicCreate p content uuid) f := by
  have htarget := temporary_ne_target uuid p.dropLast
  have hchunk := temporary_ne_chunk uuid p.dropLast
  have hparent : p.dropLast ≠ p.dropLast ++ [temporaryName uuid] := ne_of_length (by simp)
  have hne : p ≠ p.dropLast ++ [temporaryName uuid] := by
    intro heq
    rw [heq, List.getLast?_concat] at hname
    exact hname rfl
  have hplace : Placed f (p.dropLast ++ [temporaryName uuid]) := by
    rw [Placed, List.dropLast_concat]
    exact hplaced
  generalize hpath : p.dropLast ++ [temporaryName uuid] = temporary at *
  have hopened : create f temporary (.file (.bytes [])) = _ := create_free htemporary hplace
  refine Program.ensures_bind ?_
  simp only [hpath, openExclusive, Program.Ensures, perform, hopened]
  refine ⟨.set htarget (fun i heq => absurd heq (hchunk i)) _, ?_⟩
  refine Program.ensures_bind ?_
  have hempty : (f.set temporary (.file (.bytes []))).get? temporary = some (.file (.bytes [])) := by
    rw [OrderedMap.get?_set, if_pos rfl]
  simp only [writeFile, Program.Ensures, perform, hempty]
  refine ⟨.set htarget (fun i heq => absurd heq (hchunk i)) _, ?_⟩
  refine Program.ensures_attempt ?_
  generalize hwritten : (f.set temporary (.file (.bytes []))).set temporary (.file content) = g
  have hget : ∀ q, g.get? q = if q = temporary then some (.file content) else f.get? q := by
    intro q
    rw [← hwritten, OrderedMap.get?_set, OrderedMap.get?_set]
    split <;> rfl
  have hsource : g.get? temporary = some (.file content) := (hget temporary).trans (if_pos rfl)
  have hlinkFree : g.get? p = none := by rw [hget, if_neg hne, hfree]
  have hlinkPlaced : Placed g p := by
    refine hplaced.imp id fun hdirectory => ?_
    rw [hget, if_neg hparent]
    exact hdirectory
  simp only [link, Program.Ensures, perform, hsource, create_free hlinkFree hlinkPlaced]
  refine ⟨.set hp (fun i _ => hlinkFree) _, ?_⟩
  refine Program.ensures_bind ?_
  have hlinked : (g.set p (.file content)).get? temporary = some (.file content) := by
    rw [OrderedMap.get?_set, if_neg hne.symm, hsource]
  simp only [removeForce, Program.Ensures, perform, hlinked]
  refine ⟨.erase htarget, hQ _ fun q => ?_⟩
  rw [OrderedMap.get?_erase, OrderedMap.get?_set, hget]
  by_cases hq : q = temporary
  · rw [if_pos hq, if_neg (hq ▸ hne.symm), hq, htemporary]
  · rw [if_neg hq, if_neg hq]

end SurfaceLoom.Clipboard.ReceiverFiles
