import Mathlib.Data.List.Perm.Basic
import Mathlib.Data.List.Sort
import SurfaceLoom.Clipboard.ReceiverCalls

/-! # How a session ends

`finalize` puts the announced bytes in place or leaves the files alone, and `cleanup`
takes all of a session away or nothing. -/
namespace SurfaceLoom.Clipboard.ReceiverFinish
open SurfaceLoom.Lib SurfaceLoom.Lib.FileTree
open SurfaceLoom.Clipboard.Protocol SurfaceLoom.Clipboard.ReferenceReceiver
open SurfaceLoom.Clipboard.ReceiverFiles SurfaceLoom.Clipboard.ReceiverCalls

variable {m : Manifest} {sha256 : Bytes → String} {f f' : Store} {i : Nat} {frame : Frame}

/-! ## Finishing -/

/-- The bytes of all chunks. -/
def assembled (m : Manifest) (f : Store) : Bytes :=
  ((List.range m.chunkCount).map (storedBytes m f)).flatten

def Complete (m : Manifest) (f : Store) : Prop := ∀ i < m.chunkCount, stored m f i ≠ none

theorem missing_eq_nil : missing m f (List.range m.chunkCount) = [] ↔ Complete m f := by
  rw [missing, List.filter_eq_nil_iff]
  constructor
  · intro h i hi hnone
    exact h i (List.mem_range.mpr hi) (by rw [hnone]; rfl)
  · intro h i hi hnone
    exact h i (List.mem_range.mp hi) (Option.isNone_iff_eq_none.mp hnone)

theorem expectedNames_sorted (hcount : m.chunkCount ≤ maxChunks) :
    ((List.range m.chunkCount).map chunkFileName).Pairwise (· ≤ ·) := by
  rw [List.pairwise_map]
  refine List.pairwise_lt_range.imp_of_mem fun _ hj hlt => ?_
  have hj := List.mem_range.mp hj
  exact (chunkFileName_lt hlt (by unfold maxChunks at hcount; omega)).le

/-- What is listed of a complete session is what is expected. -/
theorem names_eq (hcount : m.chunkCount ≤ maxChunks) (hs : Sound sha256 m f)
    (ho : Opened sha256 m f) (hall : Complete m f) :
    ((children f (chunksPath m)).map Prod.fst).insertionSort (· ≤ ·) =
      (List.range m.chunkCount).map chunkFileName := by
  have hmem : ∀ name, name ∈ (children f (chunksPath m)).map Prod.fst ↔
      name ∈ (List.range m.chunkCount).map chunkFileName := by
    intro name
    constructor
    · intro h
      obtain ⟨⟨name', kind⟩, hchild, rfl⟩ := List.mem_map.mp h
      obtain ⟨node, hnode, -⟩ := mem_children.mp hchild
      have hpath : ∃ i, chunksPath m ++ [name'] = chunkPath m i := by
        rcases hs.known _ node hnode with hp | hp | hp | hp | hp | hp
        · cases congrArg List.length hp
        · cases congrArg List.length hp
        · cases congrArg List.length hp
        · cases congrArg List.length hp
        · cases congrArg List.length hp
        · exact hp
      obtain ⟨i, hi⟩ := hpath
      have hname : name' = chunkFileName i := by
        have hlast := congrArg List.getLast? hi
        rw [List.getLast?_concat] at hlast
        exact Option.some.inj hlast
      obtain ⟨frame, -, hvalid⟩ := ho.frames i node (hi ▸ hnode)
      exact List.mem_map.mpr ⟨i, List.mem_range.mpr hvalid.bounded, hname.symm⟩
    · intro h
      obtain ⟨i, hi, rfl⟩ := List.mem_map.mp h
      obtain ⟨frame, hframe⟩ := Option.ne_none_iff_exists'.mp (hall i (List.mem_range.mp hi))
      refine List.mem_map.mpr ⟨(chunkFileName i, .file), mem_children.mpr ?_, rfl⟩
      exact ⟨_, stored_eq_some.mp hframe, rfl⟩
  have hexpected : ((List.range m.chunkCount).map chunkFileName).Nodup :=
    List.nodup_range.map fun _ _ h => chunkFileName_injective h
  have hperm := (List.perm_ext_iff_of_nodup (children_nodup f (chunksPath m)) hexpected).mpr hmem
  exact ((List.perm_insertionSort _ _).trans hperm).eq_of_pairwise'
    (List.pairwise_insertionSort _ _) (expectedNames_sorted hcount)

/-- The target is there with the announced bytes, or all chunks are and make them up. -/
structure Finishes (sha256 : Bytes → String) (m : Manifest) (f : Store) : Prop where
  opened : Opened sha256 m f
  target : ∀ content, f.get? (targetPath m) = some (.file content) →
    announced sha256 m content = true
  chunks : f.get? (targetPath m) = none →
    Complete m f ∧ announced sha256 m (.bytes (assembled m f)) = true

/-- How a `finalize` can end. -/
inductive Finalizes (sha256 : Bytes → String) (m : Manifest) (f : Store) :
    Except Failure Answer → Store → Prop
  | rejected (failure : Failure) (h : ¬ Finishes sha256 m f) :
      Finalizes sha256 m f (.error failure) f
  | present (content : Content) (ho : Opened sha256 m f)
      (htarget : f.get? (targetPath m) = some (.file content))
      (hcontent : announced sha256 m content = true) :
      Finalizes sha256 m f (.ok .alreadyPresent) f
  | created (f' : Store) (ho : Opened sha256 m f) (hfree : f.get? (targetPath m) = none)
      (hcontent : announced sha256 m (.bytes (assembled m f)) = true)
      (hputs : Puts f (targetPath m) (.file (.bytes (assembled m f))) f') :
      Finalizes sha256 m f (.ok .created) f'

theorem does_removePartial (hn : Named m) (hs : Sound sha256 m f)
    {Q : Except Failure Unit → Store → Prop} (hQ : Q (.ok ()) f) :
    Does sha256 m Q (removePartial m) f := by
  refine Program.ensures_bind (does_pathExists ?_)
  rw [hs.free (partialPath_not_known hn)]
  exact hQ

theorem does_publish {content : Content} (hn : Named m)
    (hpart : f.get? (partialPath m) = some (.file content))
    (hcontent : announced sha256 m content = true) (hfree : f.get? (targetPath m) = none)
    {Q : Except Failure Answer → Store → Prop}
    (hQ : ∀ f', (∀ q, f'.get? q = if q = targetPath m then some (.file content)
      else if q = partialPath m then none else f.get? q) → Q (.ok .created) f') :
    Does sha256 m Q (publish sha256 m) f := by
  have hne : partialPath m ≠ targetPath m := fun h => hn.own (List.singleton_injective h).symm
  refine Program.ensures_attempt (Program.ensures_bind ?_)
  simp only [link, Program.Ensures, perform, hpart, create_free hfree (.inl rfl)]
  refine ⟨.set_target hfree hcontent, ?_⟩
  refine Program.ensures_bind ?_
  have hlinked : (f.set (targetPath m) (.file content)).get? (partialPath m) =
      some (.file content) := by
    rw [OrderedMap.get?_set, if_neg hne, hpart]
  simp only [unlink, Program.Ensures, perform, hlinked]
  refine ⟨.erase hne, hQ _ fun q => ?_⟩
  rw [OrderedMap.get?_erase, OrderedMap.get?_set]
  by_cases hq : q = partialPath m
  · rw [if_pos hq, if_pos hq, if_neg (hq ▸ hne)]
  · rw [if_neg hq, if_neg hq]

theorem does_commit {bytes : Bytes} (hn : Named m) (hs : Sound sha256 m f)
    (hcontent : announced sha256 m (.bytes bytes) = true) (hfree : f.get? (targetPath m) = none)
    (uuid : Uuid m) {Q : Except Failure Answer → Store → Prop}
    (hQ : ∀ f', Puts f (targetPath m) (.file (.bytes bytes)) f' → Q (.ok .created) f') :
    Does sha256 m Q (commit sha256 bytes uuid) f := by
  have hpart := hs.free (partialPath_not_known hn)
  have hne : partialPath m ≠ targetPath m := fun h => hn.own (List.singleton_injective h).symm
  refine Program.ensures_bind (does_removePartial hn hs ?_)
  refine Program.ensures_bind (does_atomicCreate hpart (.inl rfl) hne ?_ ?_ fun f₁ h₁ => ?_)
  · intro hlast
    have hname : temporaryName uuid ≠ ".slm-clipboard-" ++ m.sessionId ++ ".partial" := by
      refine temporaryName_ne fun hprefix => ?_
      rw [String.toList_append, String.toList_append, List.isPrefixOf_iff_prefix] at hprefix
      cases (List.cons_prefix_cons.mp (List.cons_prefix_cons.mp hprefix).2).1
    exact hname (Option.some.inj hlast).symm
  · exact hs.free (temporary_not_known (.inl rfl))
  refine Program.ensures_bind (does_readOptional h₁.self ?_)
  show Program.Ensures _ _ _ (if announced sha256 m (.bytes bytes) = true then _ else _) _
  rw [if_pos hcontent]
  refine does_publish hn h₁.self hcontent ((h₁.other hne.symm).trans hfree) fun f' h' => hQ f' ?_
  intro q
  rw [h' q]
  by_cases hq : q = targetPath m
  · rw [if_pos hq, if_pos hq]
  · rw [if_neg hq, if_neg hq]
    by_cases hp : q = partialPath m
    · rw [if_pos hp, hp, hpart]
    · rw [if_neg hp, h₁.other hp]

theorem does_assemble (hn : Named m) (hcount : m.chunkCount ≤ maxChunks)
    (hs : Sound sha256 m f) (ho : Opened sha256 m f) (hfree : f.get? (targetPath m) = none)
    (uuid : Uuid m) : Does sha256 m (Finalizes sha256 m f) (assemble sha256 uuid) f := by
  refine Program.ensures_bind (does_status hn ho ?_)
  show Program.Ensures _ _ _ (if missing m f (List.range m.chunkCount) ≠ [] then _ else _) _
  by_cases hall : Complete m f
  · rw [if_neg (not_not_intro (missing_eq_nil.mpr hall))]
    refine Program.ensures_bind (does_readdir ho.chunks ?_)
    show Program.Ensures _ _ _ (if _ ≠ _ then _ else _) _
    rw [if_neg (not_not_intro (names_eq hcount hs ho hall))]
    refine Program.ensures_bind
      (does_readChunks ho (fun i hi => hall i (List.mem_range.mp hi)) ?_)
    show Program.Ensures _ _ _ (if announced sha256 m (.bytes (assembled m f)) = true then _ else _) _
    by_cases hcontent : announced sha256 m (.bytes (assembled m f)) = true
    · rw [if_pos hcontent]
      exact does_commit hn hs hcontent hfree uuid fun f' hputs =>
        .created f' ho hfree hcontent hputs
    · rw [if_neg hcontent]
      exact .rejected _ fun h => hcontent (h.chunks hfree).2
  · rw [if_pos fun hnone => hall (missing_eq_nil.mp hnone)]
    exact .rejected _ fun h => hall (h.chunks hfree).1

theorem does_finalize (hn : Named m) (hcount : m.chunkCount ≤ maxChunks) (hs : Sound sha256 m f)
    (uuid : Uuid m) : Does sha256 m (Finalizes sha256 m f) (finalize sha256 uuid) f := by
  rcases hs.session with ho | hc
  · refine Program.ensures_bind (does_loadSession hn ho ?_)
    cases htarget : f.get? (targetPath m) with
    | some node =>
      obtain ⟨content, rfl⟩ := hs.target node htarget
      refine Program.ensures_bind (does_readOptional htarget ?_)
      show Program.Ensures _ _ _ (if _ then _ else _) _
      by_cases hcontent : announced sha256 m content = true
      · rw [if_pos hcontent]
        exact .present content ho htarget hcontent
      · rw [if_neg hcontent]
        exact .rejected _ fun h => hcontent (h.target content htarget)
    | none =>
      refine Program.ensures_bind (does_readOptional_none htarget ?_)
      exact does_assemble hn hcount hs ho htarget uuid
  · refine Program.ensures_bind (does_loadSession_closed hn hs hc (.rejected _ fun h => ?_))
    have hsession := h.opened.session
    rw [hc.session] at hsession
    cases hsession

/-! ## Cleaning up -/

/-- How a `cleanup` can end. -/
inductive Cleans (sha256 : Bytes → String) (m : Manifest) (f : Store) :
    Except Failure Answer → Store → Prop
  | rejected (failure : Failure) : Cleans sha256 m f (.error failure) f
  | removed (f' : Store) (ho : Opened sha256 m f)
      (hget : ∀ q, f'.get? q = if sessionPath m <+: q then none else f.get? q) :
      Cleans sha256 m f (.ok .removed) f'

/-- Below the session there is its manifest, the directory of chunks and what is in that. -/
theorem Sound.below (hs : Sound sha256 m f) {q : Path} (hq : sessionPath m <+: q)
    {node : Node Content} (h : f.get? q = some node) :
    q = sessionPath m ∨ q = manifestPath m ∨ chunksPath m <+: q := by
  have hlength := hq.length_le
  rcases hs.known q node h with rfl | rfl | rfl | rfl | rfl | ⟨i, rfl⟩
  · exact absurd hlength (by simp [sessionPath, statePath])
  · exact absurd hlength (by simp [sessionPath, targetPath])
  · exact .inl rfl
  · exact .inr (.inl rfl)
  · exact .inr (.inr (List.prefix_refl _))
  · exact .inr (.inr ⟨[chunkFileName i], rfl⟩)

theorem not_prefix_target : ¬ chunksPath m <+: targetPath m :=
  fun h => absurd h.length_le (by simp [chunksPath, targetPath])

theorem does_removeSession (hs : Sound sha256 m f) (ho : Opened sha256 m f) :
    Does sha256 m (Cleans sha256 m f) (removeSession m) f := by
  have hmanifest : ¬ chunksPath m <+: manifestPath m := fun h => by
    have heq := h.eq_of_length rfl
    simp [chunksPath, manifestPath] at heq
  have hsession : ¬ chunksPath m <+: sessionPath m :=
    fun h => absurd h.length_le (by simp [chunksPath, sessionPath])
  refine Program.ensures_bind ?_
  simp only [removeTree, Program.Ensures, perform, ho.chunks]
  have htarget : (chunksPath m).isPrefixOf (targetPath m) = false :=
    Bool.eq_false_iff.mpr fun h => not_prefix_target (List.isPrefixOf_iff_prefix.mp h)
  refine ⟨.filter fun node => by rw [htarget]; rfl, ?_⟩
  generalize hfiltered : f.filter (fun p _ => !(chunksPath m).isPrefixOf p) = f₁
  have hget₁ : ∀ q, f₁.get? q = if chunksPath m <+: q then none else f.get? q := by
    intro q
    rw [← hfiltered, OrderedMap.get?_filter]
    by_cases hq : chunksPath m <+: q
    · cases f.get? q <;> simp [Option.filter, hq]
    · cases f.get? q <;> simp [Option.filter, hq]
  refine Program.ensures_bind ?_
  have hfile : f₁.get? (manifestPath m) = some (.file (.manifest m)) := by
    rw [hget₁, if_neg hmanifest, ho.manifest]
  simp only [unlink, Program.Ensures, perform, hfile]
  refine ⟨.erase (ne_of_length (by simp [manifestPath, targetPath])), ?_⟩
  generalize herased : f₁.erase (manifestPath m) = f₂
  have hget₂ : ∀ q, f₂.get? q = if q = manifestPath m then none
      else if chunksPath m <+: q then none else f.get? q := by
    intro q
    rw [← herased, OrderedMap.get?_erase, hget₁]
  refine Program.ensures_bind ?_
  have hdirectory : f₂.get? (sessionPath m) = some .directory := by
    rw [hget₂, if_neg (ne_of_length (by simp [sessionPath, manifestPath])), if_neg hsession,
      ho.session]
  have hempty : children f₂ (sessionPath m) = [] := by
    refine List.eq_nil_iff_forall_not_mem.mpr fun child hmem => ?_
    obtain ⟨name, kind⟩ := child
    obtain ⟨node, hnode, -⟩ := mem_children.mp hmem
    rw [hget₂] at hnode
    split at hnode
    · cases hnode
    rename_i hother
    split at hnode
    · cases hnode
    rename_i hout
    rcases Sound.below hs (List.prefix_append _ _) hnode with h | h | h
    · cases congrArg List.length h
    · exact hother h
    · exact hout h
  simp only [rmdir, Program.Ensures, perform, hdirectory, hempty, if_true]
  refine ⟨.erase (ne_of_length (by simp [sessionPath, targetPath])), .removed _ ho fun q => ?_⟩
  rw [OrderedMap.get?_erase, hget₂]
  by_cases hq : sessionPath m <+: q
  · rw [if_pos hq]
    split
    · rfl
    rename_i hself
    split
    · rfl
    rename_i hother
    split
    · rfl
    rename_i hout
    cases h : f.get? q with
    | none => rfl
    | some node =>
      rcases Sound.below hs hq h with h | h | h
      · exact absurd h hself
      · exact absurd h hother
      · exact absurd h hout
  · have hself : q ≠ sessionPath m := fun h => hq (h ▸ List.prefix_refl _)
    have hother : q ≠ manifestPath m := fun h => hq (h ▸ ⟨["manifest.json"], rfl⟩)
    have hout : ¬ chunksPath m <+: q :=
      fun h => hq ((show sessionPath m <+: chunksPath m from ⟨["chunks"], rfl⟩).trans h)
    rw [if_neg hself, if_neg hother, if_neg hout, if_neg hq]

theorem does_cleanup (hn : Named m) (hs : Sound sha256 m f) :
    Does sha256 m (Cleans sha256 m f) (cleanup m) f := by
  rcases hs.session with ho | hc
  · refine Program.ensures_bind (does_loadSession hn ho ?_)
    refine Program.ensures_bind (does_removePartial hn hs ?_)
    refine Program.ensures_bind (does_readdir ho.session ?_)
    show Program.Ensures _ _ _ (if _ then _ else _) _
    by_cases hentries : (children f (sessionPath m)).all isSessionEntry = true
    · rw [if_pos hentries]
      refine Program.ensures_bind (does_readdir ho.chunks ?_)
      show Program.Ensures _ _ _ (if _ then _ else _) _
      by_cases hchunks : (children f (chunksPath m)).all isChunkEntry = true
      · rw [if_pos hchunks]
        exact does_removeSession hs ho
      · rw [if_neg hchunks]
        exact .rejected _
    · rw [if_neg hentries]
      exact .rejected _
  · exact Program.ensures_bind (does_loadSession_closed hn hs hc (.rejected _))

end SurfaceLoom.Clipboard.ReceiverFinish
