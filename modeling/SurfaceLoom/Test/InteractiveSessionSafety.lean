import SurfaceLoom.Test.InteractiveSession

/-! # One holder of the interactive-session lease

A lease that was published stays at the lock path until it is moved to the one
retirement path its token names, and that path is never free again. So a rename
of a late reclaim or release fails, or it moves the lease that was read. -/
namespace SurfaceLoom.Test.InteractiveSessionSafety
open SurfaceLoom.Lib SurfaceLoom.Lib.Transition SurfaceLoom.Test.InteractiveSession

abbrev Metadata := InteractiveSessionLeaseMetadata

/-! ## What a lease leaves behind -/

/-- A lease at the lock path, or at the retirement path of its token. -/
def Settled (s : Leases) (m : Metadata) : Prop :=
  ∃ n, (s.fs.get? .lock = some n ∨ s.fs.get? (.retired m.leaseToken) = some n) ∧
    n.content = .written m

/-- What holds of the paths that operations share. -/
structure Shared (s : Leases) : Prop where
  lock : ∀ n, s.fs.get? .lock = some n → ∃ m, n.content = .written m ∧ .published m ∈ s.renames
  retired : ∀ t n, s.fs.get? (.retired t) = some n → ∃ m cause process moved, n.content = .written m ∧
    m.leaseToken = t ∧ .retired cause process m moved ∈ s.renames
  settled : ∀ m, .published m ∈ s.renames → Settled s m
  moved : ∀ cause process m moved, .retired cause process m moved ∈ s.renames →
    moved = .written m ∧ (cause = .stale → m.owner ∈ s.dead) ∧
      (cause ≠ .stale → m.owner = process)

/-- A later state, whose pending directories may differ from those before where
`own` says so. -/
structure Extends (own : String → Prop) (s s' : Leases) : Prop where
  settled : ∀ m, Settled s m → Settled s' m
  dead : s.dead ⊆ s'.dead
  leaseTokens : s.leaseTokens ⊆ s'.leaseTokens
  renames : s.renames ⊆ s'.renames
  pending : ∀ t, ¬ own t → s'.fs.get? (.pending t) = s.fs.get? (.pending t)

theorem Extends.of_fs {own : String → Prop} {s s' : Leases} (hfs : s'.fs = s.fs)
    (hdead : s.dead ⊆ s'.dead) (htokens : s.leaseTokens ⊆ s'.leaseTokens)
    (hrenames : s.renames ⊆ s'.renames) : Extends own s s' where
  settled m hm := by
    unfold Settled
    rw [hfs]
    exact hm
  dead := hdead
  leaseTokens := htokens
  renames := hrenames
  pending t _ := by rw [hfs]

theorem Extends.refl {own : String → Prop} (s : Leases) : Extends own s s :=
  .of_fs rfl (List.Subset.refl _) (List.Subset.refl _) (List.Subset.refl _)

/-- The shared paths and the renames are the same. -/
theorem Shared.of_paths {s s' : Leases} (h : Shared s)
    (hlock : s'.fs.get? .lock = s.fs.get? .lock)
    (hretired : ∀ t, s'.fs.get? (.retired t) = s.fs.get? (.retired t))
    (hrenames : s'.renames = s.renames) (hdead : s.dead ⊆ s'.dead) : Shared s' := by
  refine ⟨?_, ?_, ?_, ?_⟩
  · rw [hlock, hrenames]
    exact h.lock
  · intro t
    rw [hretired, hrenames]
    exact h.retired t
  · intro m
    unfold Settled
    rw [hlock, hretired, hrenames]
    exact h.settled m
  · intro cause process m moved
    rw [hrenames]
    intro hmem
    obtain ⟨hmoved, hstale, howner⟩ := h.moved cause process m moved hmem
    exact ⟨hmoved, fun hc => hdead (hstale hc), howner⟩

/-! ### Changes of a pending directory -/

/-- Only the pending directory of one token changed. -/
structure Private (t : String) (s s' : Leases) : Prop where
  operations : s'.operations = s.operations
  others : ∀ p, p ≠ .pending t → s'.fs.get? p = s.fs.get? p
  dead : s'.dead = s.dead
  leaseTokens : s'.leaseTokens = s.leaseTokens
  renames : s'.renames = s.renames

theorem Private.write (s : Leases) (t : String) (content : OwnerFile) :
    Private t s { s with fs := s.fs.write (.pending t) content } where
  operations := rfl
  others p hp := by
    show (s.fs.write (.pending t) content).get? p = s.fs.get? p
    rw [FileSystem.get?_write, if_neg hp]
  dead := rfl
  leaseTokens := rfl
  renames := rfl

theorem Private.remove (s : Leases) (t : String) :
    Private t s { s with fs := s.fs.remove (.pending t) } where
  operations := rfl
  others p hp := by
    show (s.fs.remove (.pending t)).get? p = s.fs.get? p
    rw [FileSystem.get?_remove, if_neg hp]
  dead := rfl
  leaseTokens := rfl
  renames := rfl

theorem Private.create {s : Leases} {t : String} {ino : Nat} {content : OwnerFile}
    {fs : LeaseDirectory} (h : s.fs.create (.pending t) ino content = some fs) :
    Private t s { s with fs } where
  operations := rfl
  others p hp := by
    show fs.get? p = s.fs.get? p
    rw [(FileSystem.create_some h).2.2 p, if_neg hp]
  dead := rfl
  leaseTokens := rfl
  renames := rfl

theorem Private.shared {t : String} {s s' : Leases} (h : Private t s s') (hs : Shared s) :
    Shared s' :=
  hs.of_paths (h.others _ nofun) (fun _ => h.others _ nofun) h.renames
    (by rw [h.dead]; exact List.Subset.refl _)

theorem Private.toExtends {t : String} {s s' : Leases} (h : Private t s s') :
    Extends (· = t) s s' where
  settled m := by
    intro ⟨n, hpath, hcontent⟩
    refine ⟨n, ?_, hcontent⟩
    rw [h.others .lock nofun, h.others (.retired m.leaseToken) nofun]
    exact hpath
  dead := by rw [h.dead]; exact List.Subset.refl _
  leaseTokens := by rw [h.leaseTokens]; exact List.Subset.refl _
  renames := by rw [h.renames]; exact List.Subset.refl _
  pending t' ht := h.others _ fun hp => ht (LeasePath.pending.inj hp)

/-! ### Publishing -/

theorem Shared.lock_free {s : Leases} (h : Shared s)
    (hfree : ∀ n, s.fs.get? .lock = some n → replaceable n.content = true) :
    s.fs.get? .lock = none := by
  cases hlock : s.fs.get? .lock with
  | none => rfl
  | some n =>
    obtain ⟨m, hcontent, -⟩ := h.lock n hlock
    have hreplaceable := hfree n hlock
    rw [hcontent] at hreplaceable
    cases hreplaceable

/-- A rename onto the lock path finds it free, so no lease is lost. -/
theorem publish_spec {s : Leases} (hs : Shared s) {m : Metadata} {fs : LeaseDirectory}
    (hrename : s.fs.rename replaceable (.pending m.leaseToken) .lock = some fs)
    (hcontent : ∀ n, s.fs.get? (.pending m.leaseToken) = some n → n.content = .written m) :
    Shared { s with fs, renames := s.renames ++ [.published m] } ∧
    Extends (· = m.leaseToken) s { s with fs, renames := s.renames ++ [.published m] } := by
  obtain ⟨node, hnode, hfree, hget⟩ := FileSystem.rename_some hrename
  have hlock := hs.lock_free hfree
  have hwritten := hcontent node hnode
  have hretired : ∀ t, fs.get? (.retired t) = s.fs.get? (.retired t) := by
    intro t
    rw [hget, if_neg nofun, if_neg nofun]
  have hnew : fs.get? .lock = some node := by rw [hget, if_pos rfl]
  have hsettled : ∀ m', Settled s m' →
      Settled { s with fs, renames := s.renames ++ [.published m] } m' := by
    intro m' ⟨n, hpath, hn⟩
    refine ⟨n, .inr ?_, hn⟩
    show fs.get? (.retired m'.leaseToken) = some n
    rw [hretired]
    rcases hpath with hpath | hpath
    · rw [hlock] at hpath
      cases hpath
    · exact hpath
  have hrenames : s.renames ⊆ s.renames ++ [.published m] := List.subset_append_left ..
  refine ⟨⟨?_, ?_, ?_, ?_⟩, ⟨hsettled, List.Subset.refl _, List.Subset.refl _, hrenames, ?_⟩⟩
  · intro n hn
    have heq : node = n := Option.some.inj (hnew.symm.trans hn)
    exact ⟨m, heq ▸ hwritten, List.mem_append_right _ (List.mem_singleton.mpr rfl)⟩
  · intro t n hn
    have hn : fs.get? (.retired t) = some n := hn
    rw [hretired] at hn
    obtain ⟨m', cause, process, moved, hm', ht, hmem⟩ := hs.retired t n hn
    exact ⟨m', cause, process, moved, hm', ht, hrenames hmem⟩
  · intro m' hmem
    rcases List.mem_append.mp hmem with hmem | hmem
    · exact hsettled m' (hs.settled m' hmem)
    · cases List.mem_singleton.mp hmem
      exact ⟨node, .inl hnew, hwritten⟩
  · intro cause process m' moved hmem
    rcases List.mem_append.mp hmem with hmem | hmem
    · exact hs.moved cause process m' moved hmem
    · cases List.mem_singleton.mp hmem
  · intro t ht
    show fs.get? (.pending t) = s.fs.get? (.pending t)
    rw [hget, if_neg nofun, if_neg fun hp => ht (LeasePath.pending.inj hp)]

/-! ### Retiring -/

/-- A rename to a retirement path that is free moves the lease of that token. -/
theorem retire_spec {s : Leases} (hs : Shared s) {m : Metadata} {cause : Cause} {process : Process}
    {fs : LeaseDirectory}
    {directory : FileSystem.Node OwnerFile} (hdirectory : s.fs.get? .lock = some directory)
    (hrename : s.fs.rename replaceable .lock (.retired m.leaseToken) = some fs)
    (hm : Settled s m) (hstale : cause = .stale → m.owner ∈ s.dead)
    (howner : cause ≠ .stale → m.owner = process) (own : String → Prop) :
    Shared { s with fs, renames := s.renames ++ [.retired cause process m directory.content] } ∧
    Extends own s { s with fs, renames := s.renames ++ [.retired cause process m directory.content] } := by
  obtain ⟨node, hnode, hfree, hget⟩ := FileSystem.rename_some hrename
  have hsame : node = directory := Option.some.inj (hnode.symm.trans hdirectory)
  subst hsame
  have hdestination : s.fs.get? (.retired m.leaseToken) = none := by
    cases hdest : s.fs.get? (.retired m.leaseToken) with
    | none => rfl
    | some n =>
      obtain ⟨m', -, -, -, hcontent, -⟩ := hs.retired _ n hdest
      have hreplaceable := hfree n hdest
      rw [hcontent] at hreplaceable
      cases hreplaceable
  have hwritten : node.content = .written m := by
    obtain ⟨n, hlock | hretired, hcontent⟩ := hm
    · have heq : node = n := Option.some.inj (hnode.symm.trans hlock)
      exact heq ▸ hcontent
    · rw [hdestination] at hretired
      cases hretired
  have hnew : fs.get? (.retired m.leaseToken) = some node := by rw [hget, if_pos rfl]
  have hold : ∀ t, t ≠ m.leaseToken → fs.get? (.retired t) = s.fs.get? (.retired t) := by
    intro t ht
    rw [hget, if_neg fun hp => ht (LeasePath.retired.inj hp), if_neg nofun]
  have hlock : fs.get? .lock = none := by rw [hget, if_neg nofun, if_pos rfl]
  have hsettled : ∀ m', Settled s m' → Settled
      { s with fs, renames := s.renames ++ [.retired cause process m node.content] } m' := by
    intro m' ⟨n, hpath, hn⟩
    rcases hpath with hpath | hpath
    · have heq : node = n := Option.some.inj (hnode.symm.trans hpath)
      subst heq
      have hm' : m' = m := OwnerFile.written.inj (hn.symm.trans hwritten)
      subst hm'
      exact ⟨node, .inr hnew, hn⟩
    · refine ⟨n, .inr ?_, hn⟩
      show fs.get? (.retired m'.leaseToken) = some n
      rw [hold _ ?_]
      · exact hpath
      · intro htoken
        rw [htoken, hdestination] at hpath
        cases hpath
  have hrenames : s.renames ⊆ s.renames ++ [.retired cause process m node.content] :=
    List.subset_append_left ..
  have hlast : Rename.retired cause process m node.content ∈
      s.renames ++ [.retired cause process m node.content] :=
    List.mem_append_right _ (List.mem_singleton.mpr rfl)
  refine ⟨⟨?_, ?_, ?_, ?_⟩, ⟨hsettled, List.Subset.refl _, List.Subset.refl _, hrenames, ?_⟩⟩
  · intro n hn
    cases hlock.symm.trans hn
  · intro t n hn
    have hn : fs.get? (.retired t) = some n := hn
    by_cases ht : t = m.leaseToken
    · rw [ht, hnew] at hn
      cases hn
      exact ⟨m, cause, process, node.content, hwritten, ht.symm, hlast⟩
    · rw [hold t ht] at hn
      obtain ⟨m', cause', process', moved, hm', ht', hmem⟩ := hs.retired t n hn
      exact ⟨m', cause', process', moved, hm', ht', hrenames hmem⟩
  · intro m' hmem
    rcases List.mem_append.mp hmem with hmem | hmem
    · exact hsettled m' (hs.settled m' hmem)
    · cases List.mem_singleton.mp hmem
  · intro cause' process' m' moved hmem
    rcases List.mem_append.mp hmem with hmem | hmem
    · exact hs.moved cause' process' m' moved hmem
    · cases List.mem_singleton.mp hmem
      exact ⟨hwritten, hstale, howner⟩
  · intro t _
    show fs.get? (.pending t) = s.fs.get? (.pending t)
    rw [hget, if_neg nofun, if_neg nofun]

/-! ## What an operation knows -/

/-- Metadata that was read was at the lock path. -/
def ReadSound (s : Leases) : Read → Prop
  | .confirming _ (some m) => Settled s m
  | .confirming _ none | .inspecting | .listed _ | .opening _ _ => True

def TaskSound (s : Leases) (process : Process) : Task → Prop
  | .looping | .finished => True
  | .reading read => ReadSound s read
  | .found existing => Settled s existing
  | .publishing m stage => m.owner = process ∧ m.leaseToken ∈ s.leaseTokens ∧
    (stage = .moving → ∀ n, s.fs.get? (.pending m.leaseToken) = some n → n.content = .written m)
  | .retiring cause m _ => Settled s m ∧ (cause = .stale → m.owner ∈ s.dead) ∧
    (cause ≠ .stale → m.owner = process)
  | .releasing expected read => expected.owner = process ∧ ReadSound s read
  | .acquired m => m.owner = process ∧ .published m ∈ s.renames

/-- The token whose pending directory belongs to a task. -/
def Task.Owns : Task → String → Prop
  | .publishing m _, t => t = m.leaseToken
  | _, _ => False

theorem TaskSound.extend {s s' : Leases} {own : String → Prop} {process : Process} {task : Task}
    (h : TaskSound s process task) (he : Extends own s s') (hown : ∀ t, Task.Owns task t → ¬ own t) :
    TaskSound s' process task := by
  have hread : ∀ read, ReadSound s read → ReadSound s' read := by
    intro read hr
    cases read with
    | confirming ino metadata =>
      cases metadata with
      | none => trivial
      | some m => exact he.settled m hr
    | inspecting => trivial
    | listed ino => trivial
    | opening ino file => trivial
  cases task with
  | looping => trivial
  | finished => trivial
  | reading read => exact hread read h
  | found existing => exact he.settled existing h
  | publishing m stage =>
    obtain ⟨howner, htoken, hcontent⟩ := h
    refine ⟨howner, he.leaseTokens htoken, fun hstage => ?_⟩
    rw [he.pending _ (hown _ rfl)]
    exact hcontent hstage
  | retiring cause m stage => exact ⟨he.settled m h.1, fun hc => he.dead (h.2.1 hc), h.2.2⟩
  | releasing expected read => exact ⟨h.1, hread read h.2⟩
  | acquired m => exact ⟨h.1, he.renames h.2⟩

/-- One step of a read of the lock path. -/
theorem readLease_sound {s : Leases} (hs : Shared s) (ioError : Bool) {read : Read}
    (h : ReadSound s read) :
    (∀ read', readLease s.fs .lock ioError read = .inl read' → ReadSound s read') ∧
    ∀ m, readLease s.fs .lock ioError read = .inr (.lease m) → Settled s m := by
  cases read with
  | inspecting =>
    simp only [readLease]
    split
    · exact ⟨nofun, nofun⟩
    · split
      · exact ⟨nofun, nofun⟩
      · exact ⟨fun read' hr => by cases hr; trivial, nofun⟩
  | listed ino =>
    simp only [readLease]
    split
    · exact ⟨fun read' hr => by cases hr; trivial, nofun⟩
    · split
      · exact ⟨fun read' hr => by cases hr; trivial, nofun⟩
      · exact ⟨fun read' hr => by cases hr; trivial, nofun⟩
  | opening ino file =>
    simp only [readLease]
    split
    · exact ⟨fun read' hr => by cases hr; trivial, nofun⟩
    · rename_i directory hdirectory
      split
      · exact ⟨fun read' hr => by cases hr; trivial, nofun⟩
      · obtain ⟨m, hcontent, -⟩ := hs.lock directory hdirectory
        rw [hcontent]
        refine ⟨fun read' hr => ?_, nofun⟩
        cases hr
        exact ⟨directory, .inl hdirectory, hcontent⟩
  | confirming ino metadata =>
    simp only [readLease]
    split
    · exact ⟨nofun, nofun⟩
    · split
      · exact ⟨nofun, nofun⟩
      · cases metadata with
        | none => exact ⟨nofun, nofun⟩
        | some m =>
          refine ⟨nofun, fun m' hr => ?_⟩
          cases hr
          exact h

/-- What one step of an operation leaves. -/
structure Advances (s : Leases) (process : Process) (task : Task) (s' : Leases) (task' : Task) :
    Prop where
  operations : s'.operations = s.operations
  shared : Shared s'
  later : Extends (Task.Owns task) s s'
  sound : TaskSound s' process task'
  owns : ∀ t, Task.Owns task' t → Task.Owns task t ∨ t ∉ s.leaseTokens

theorem Advances.stay {s : Leases} {process : Process} {task task' : Task} (hs : Shared s)
    (hsound : TaskSound s process task')
    (howns : ∀ t, Task.Owns task' t → Task.Owns task t ∨ t ∉ s.leaseTokens) :
    Advances s process task s task' := ⟨rfl, hs, .refl s, hsound, howns⟩

/-- A step inside the pending directory of the lease being published. -/
theorem Advances.inPrivate {s s' : Leases} {process : Process} {m : Metadata} {stage : Publish}
    {task' : Task} (hs : Shared s) (h : Private m.leaseToken s s')
    (hsound : TaskSound s' process task') (howns : ∀ t, Task.Owns task' t → t = m.leaseToken) :
    Advances s process (.publishing m stage) s' task' :=
  ⟨h.operations, h.shared hs, h.toExtends, hsound, fun t ht => .inl (howns t ht)⟩

theorem publishLease_advances {s s' : Leases} {process : Process} {m : Metadata} {stage : Publish}
    {choice : Choice} {task' : Task} (hs : Shared s) (h : TaskSound s process (.publishing m stage))
    (hstep : s.publishLease m choice stage = some (s', task')) :
    Advances s process (.publishing m stage) s' task' := by
  obtain ⟨howner, htoken, hcontent⟩ := h
  have hfinished : Advances s process (.publishing m stage) s .finished := .stay hs trivial nofun
  have hunlinking : ∀ occupied, Advances s process (.publishing m stage) s
      (.publishing m (.unlinking occupied)) := fun occupied =>
    .stay hs ⟨howner, htoken, nofun⟩ fun t ht => .inl ht
  cases stage with
  | making =>
    simp only [Leases.publishLease] at hstep
    split at hstep
    · cases hstep
      exact hfinished
    · split at hstep
      · cases hstep
      · rename_i fs hfs
        cases hstep
        exact .inPrivate hs (.create hfs) ⟨howner, htoken, nofun⟩ fun t ht => ht
  | opening =>
    simp only [Leases.publishLease] at hstep
    split at hstep
    · cases hstep
      exact hunlinking false
    · cases hstep
      exact .inPrivate hs (.write s ..) ⟨howner, htoken, nofun⟩ fun t ht => ht
  | writing =>
    simp only [Leases.publishLease] at hstep
    split at hstep
    · cases hstep
      exact hunlinking false
    · cases hstep
      refine .inPrivate hs (.write s ..) ⟨howner, htoken, fun _ n hn => ?_⟩ fun t ht => ht
      have hn : (s.fs.write (.pending m.leaseToken) (.written m)).get? (.pending m.leaseToken) =
        some n := hn
      rw [FileSystem.get?_write, if_pos rfl] at hn
      obtain ⟨node, -, heq⟩ := Option.map_eq_some_iff.mp hn
      rw [← heq]
  | moving =>
    simp only [Leases.publishLease] at hstep
    split at hstep
    · cases hstep
      exact hunlinking false
    · split at hstep
      · cases hstep
        exact hunlinking _
      · rename_i fs hfs
        cases hstep
        obtain ⟨hshared, hextends⟩ := publish_spec hs hfs (hcontent rfl)
        have hmem : Rename.published m ∈ s.renames ++ [.published m] :=
          List.mem_append_right _ (List.mem_singleton.mpr rfl)
        refine ⟨rfl, hshared, hextends, ?_, ?_⟩
        · split
          · exact ⟨hshared.settled m hmem, nofun, fun _ => howner⟩
          · exact ⟨howner, hmem⟩
        · split
          · nofun
          · nofun
  | unlinking occupied =>
    simp only [Leases.publishLease] at hstep
    split at hstep
    · cases hstep
      exact hfinished
    · cases hstep
      exact .inPrivate hs (.write s ..) ⟨howner, htoken, nofun⟩ fun t ht => ht
  | removing occupied =>
    simp only [Leases.publishLease] at hstep
    split at hstep
    · cases hstep
      exact hfinished
    · cases hstep
      refine .inPrivate hs (.remove s _) ?_ ?_
      · split <;> trivial
      · split <;> nofun

/-- What one step of `moveLeaseToProof` leaves, for a lease that was at the lock
path. -/
theorem moveLeaseToProof_spec {s : Leases} (hs : Shared s) {cause : Cause} {process : Process}
    {m : Metadata} (hm : Settled s m) (hstale : cause = .stale → m.owner ∈ s.dead)
    (howner : cause ≠ .stale → m.owner = process) (ioError : Bool) (stage : Retire)
    (own : String → Prop) :
    (s.moveLeaseToProof cause process m ioError stage).1.operations = s.operations ∧
    Shared (s.moveLeaseToProof cause process m ioError stage).1 ∧
    Extends own s (s.moveLeaseToProof cause process m ioError stage).1 := by
  have hsame : s.operations = s.operations ∧ Shared s ∧ Extends own s s := ⟨rfl, hs, .refl s⟩
  cases stage with
  | reading read =>
    simp only [Leases.moveLeaseToProof]
    split <;> exact hsame
  | checking =>
    simp only [Leases.moveLeaseToProof]
    split
    · exact hsame
    · split <;> exact hsame
  | moving =>
    simp only [Leases.moveLeaseToProof]
    split
    · exact hsame
    · rename_i directory hdirectory
      split
      · exact hsame
      · split
        · exact hsame
        · rename_i fs hfs
          exact ⟨rfl, retire_spec hs hdirectory hfs hm hstale howner own⟩
  | missed =>
    simp only [Leases.moveLeaseToProof]
    split
    · exact hsame
    · split <;> exact hsame
  | missedAgain =>
    simp only [Leases.moveLeaseToProof]
    split <;> exact hsame
  | proving read =>
    simp only [Leases.moveLeaseToProof]
    split <;> exact hsame

theorem advance_spec {s s' : Leases} {process : Process} {choice : Choice} {task task' : Task}
    (hs : Shared s) (h : TaskSound s process task)
    (hstep : s.advance process choice task = some (s', task')) :
    Advances s process task s' task' := by
  cases task with
  | looping =>
    cases hstep
    refine .stay hs ?_ ?_
    · split <;> trivial
    · split <;> nofun
  | reading read =>
    obtain ⟨hread, hlease⟩ := readLease_sound hs choice.ioError h
    simp only [Leases.advance] at hstep
    split at hstep
    · rename_i read' heq
      cases hstep
      exact .stay hs (hread read' heq) nofun
    · cases hstep
      exact .stay hs trivial nofun
    · rename_i existing heq
      cases hstep
      exact .stay hs (hlease existing heq) nofun
    · split at hstep
      · cases hstep
      · rename_i hfresh
        cases hstep
        have hfs : Extends (Task.Owns (.reading read)) s
            { s with leaseTokens := s.leaseTokens ++ [choice.leaseToken] } :=
          .of_fs rfl (List.Subset.refl _) (List.subset_append_left ..) (List.Subset.refl _)
        refine ⟨rfl, hs.of_paths rfl (fun _ => rfl) rfl (List.Subset.refl _), hfs, ?_, ?_⟩
        · exact ⟨rfl, List.mem_append_right _ (List.mem_singleton.mpr rfl), nofun⟩
        · intro t ht
          rw [show t = choice.leaseToken from ht]
          exact .inr hfresh
  | found existing =>
    simp only [Leases.advance] at hstep
    split at hstep
    · split at hstep
      · rename_i hdead
        cases hstep
        exact .stay hs ⟨h, fun _ => hdead, fun hc => absurd rfl hc⟩ nofun
      · cases hstep
    · cases hstep
      exact .stay hs trivial nofun
  | publishing m stage => exact publishLease_advances hs h hstep
  | retiring cause m stage =>
    obtain ⟨hoperations, hshared, hlater⟩ := moveLeaseToProof_spec hs h.1 h.2.1 h.2.2 choice.ioError
      stage (Task.Owns (.retiring cause m stage))
    simp only [Leases.advance] at hstep
    split at hstep
    · rename_i s₁ stage' heq
      rw [heq] at hoperations hshared hlater
      cases hstep
      exact ⟨hoperations, hshared, hlater,
        ⟨hlater.settled m h.1, fun hc => hlater.dead (h.2.1 hc), h.2.2⟩, nofun⟩
    · rename_i s₁ result heq
      rw [heq] at hoperations hshared hlater
      cases hstep
      refine ⟨hoperations, hshared, hlater, ?_, ?_⟩
      · unfold Leases.afterRetire
        split <;> trivial
      · unfold Leases.afterRetire
        split <;> nofun
  | releasing expected read =>
    obtain ⟨hread, hlease⟩ := readLease_sound hs choice.ioError h.2
    simp only [Leases.advance] at hstep
    split at hstep
    · rename_i read' heq
      cases hstep
      exact .stay hs ⟨h.1, hread read' heq⟩ nofun
    · cases hstep
      exact .stay hs trivial nofun
    · cases hstep
      exact .stay hs trivial nofun
    · rename_i existing heq
      cases hstep
      by_cases hsame : existing = expected
      · rw [if_pos hsame]
        exact .stay hs ⟨hsame ▸ hlease existing heq, nofun, fun _ => h.1⟩ nofun
      · rw [if_neg hsame]
        exact .stay hs trivial nofun
  | acquired m => cases hstep
  | finished => cases hstep

/-! ## Every reachable state -/

structure Safe (s : Leases) : Prop where
  shared : Shared s
  sound : ∀ i op, s.operations.get? i = some op → TaskSound s op.process op.task
  owned : ∀ i op t, s.operations.get? i = some op → Task.Owns op.task t → t ∈ s.leaseTokens
  apart : ∀ i j op op' t, s.operations.get? i = some op → s.operations.get? j = some op' →
    Task.Owns op.task t → Task.Owns op'.task t → i = j

/-- Another operation begins. -/
theorem Safe.begin {s : Leases} (h : Safe s) (i : Nat) {op : Operation} (hsound : TaskSound s op.process op.task) (howns : ∀ t, ¬ Task.Owns op.task t) :
    Safe { s with operations := s.operations.set i op } := by
  have hget : ∀ j op', (s.operations.set i op).get? j = some op' →
      j = i ∧ op' = op ∨ s.operations.get? j = some op' := by
    intro j op' hj
    rw [OrderedMap.get?_set] at hj
    split at hj
    · rename_i heq
      exact .inl ⟨heq, (Option.some.inj hj).symm⟩
    · exact .inr hj
  have hextends : Extends (fun _ => False) s { s with operations := s.operations.set i op } :=
    .of_fs rfl (List.Subset.refl _) (List.Subset.refl _) (List.Subset.refl _)
  refine ⟨h.shared.of_paths rfl (fun _ => rfl) rfl (List.Subset.refl _), ?_, ?_, ?_⟩
  · intro j op' hj
    rcases hget j op' hj with ⟨-, rfl⟩ | hj
    · exact hsound.extend hextends fun _ _ => id
    · exact (h.sound j op' hj).extend hextends fun _ _ => id
  · intro j op' t hj ht
    rcases hget j op' hj with ⟨-, rfl⟩ | hj
    · exact absurd ht (howns t)
    · exact h.owned j op' t hj ht
  · intro j k op₁ op₂ t hj hk ht ht'
    rcases hget j op₁ hj with ⟨-, rfl⟩ | hj
    · exact absurd ht (howns t)
    · rcases hget k op₂ hk with ⟨-, rfl⟩ | hk
      · exact absurd ht' (howns t)
      · exact h.apart j k op₁ op₂ t hj hk ht ht'

/-- An operation takes a step; the others keep what they know. -/
theorem Safe.advance {s s' : Leases} (h : Safe s) {i : Nat} {op : Operation}
    (hi : s.operations.get? i = some op) {choice : Choice} {task : Task}
    (hstep : s.advance op.process choice op.task = some (s', task)) :
    Safe { s' with operations := s'.operations.set i ⟨op.process, task⟩ } := by
  have hadvances := advance_spec h.shared (h.sound i op hi) hstep
  rw [hadvances.operations]
  have hget : ∀ j op', (s.operations.set i ⟨op.process, task⟩).get? j = some op' →
      j = i ∧ op' = ⟨op.process, task⟩ ∨ j ≠ i ∧ s.operations.get? j = some op' := by
    intro j op' hj
    rw [OrderedMap.get?_set] at hj
    split at hj
    · rename_i heq
      exact .inl ⟨heq, (Option.some.inj hj).symm⟩
    · rename_i hne
      exact .inr ⟨hne, hj⟩
  have hfs : Extends (fun _ => False) s'
      { s' with operations := s.operations.set i ⟨op.process, task⟩ } :=
    .of_fs rfl (List.Subset.refl _) (List.Subset.refl _) (List.Subset.refl _)
  have hfresh : ∀ j op' t, j ≠ i → s.operations.get? j = some op' → Task.Owns op'.task t →
      ¬ Task.Owns task t := by
    intro j op' t hne hj ht htask
    rcases hadvances.owns t htask with hown | hnew
    · exact hne (h.apart j i op' op t hj hi ht hown)
    · exact hnew (h.owned j op' t hj ht)
  refine ⟨hadvances.shared.of_paths rfl (fun _ => rfl) rfl (List.Subset.refl _), ?_, ?_, ?_⟩
  · intro j op' hj
    rcases hget j op' hj with ⟨-, rfl⟩ | ⟨hne, hj⟩
    · exact hadvances.sound.extend hfs fun _ _ => id
    · have hlater := (h.sound j op' hj).extend hadvances.later fun t ht hown =>
        hne (h.apart j i op' op t hj hi ht hown)
      exact hlater.extend hfs fun _ _ => id
  · intro j op' t hj ht
    rcases hget j op' hj with ⟨-, rfl⟩ | ⟨-, hj⟩
    · have hsound := hadvances.sound
      cases task with
      | publishing m stage =>
        rw [show t = m.leaseToken from ht]
        exact hsound.2.1
      | _ => cases ht
    · exact hadvances.later.leaseTokens (h.owned j op' t hj ht)
  · intro j k op₁ op₂ t hj hk ht ht'
    rcases hget j op₁ hj with ⟨hji, rfl⟩ | ⟨hji, hj⟩
    · rcases hget k op₂ hk with ⟨hki, rfl⟩ | ⟨hki, hk⟩
      · rw [hji, hki]
      · exact absurd ht (hfresh k op₂ t hki hk ht')
    · rcases hget k op₂ hk with ⟨hki, rfl⟩ | ⟨hki, hk⟩
      · exact absurd ht' (hfresh j op₁ t hji hj ht)
      · exact h.apart j k op₁ op₂ t hj hk ht ht'

theorem Safe.crash {s : Leases} (h : Safe s) (process : Process) :
    Safe { s with dead := s.dead ++ [process] } := by
  have hdead : s.dead ⊆ s.dead ++ [process] := List.subset_append_left ..
  have hlater : Extends (fun _ => False) s { s with dead := s.dead ++ [process] } :=
    .of_fs rfl hdead (List.Subset.refl _) (List.Subset.refl _)
  exact ⟨h.shared.of_paths rfl (fun _ => rfl) rfl hdead,
    fun i op hi => (h.sound i op hi).extend hlater fun _ _ => id, h.owned, h.apart⟩

theorem safe_next {s s' : Leases} (h : Safe s) {e : Event} (hstep : next s e = some s') :
    Safe s' := by
  cases e with
  | acquire i process =>
    simp only [next] at hstep
    split at hstep
    · cases hstep
    · cases hstep
      exact h.begin i trivial fun _ => id
  | release i process claim =>
    simp only [next] at hstep
    split at hstep
    · cases hstep
    · rename_i hguard
      cases hstep
      rw [not_or, not_or, not_not] at hguard
      exact h.begin i ⟨hguard.2.2, trivial⟩ fun _ => id
  | step i choice =>
    simp only [next] at hstep
    split at hstep
    · cases hstep
    · rename_i op hi
      split at hstep
      · cases hstep
      · split at hstep
        · cases hstep
        · rename_i s₁ task heq
          cases hstep
          exact h.advance hi heq
  | crash process =>
    cases hstep
    exact h.crash process

theorem safe_initial : Safe initial := by
  have hfs : ∀ p, initial.fs.get? p = none := fun _ => rfl
  have hoperations : ∀ i, initial.operations.get? i = none := fun _ => rfl
  refine ⟨⟨fun n hn => ?_, fun t n hn => ?_, fun m hm => ?_, fun cause p m moved hm => ?_⟩,
    fun i op hi => ?_, fun i op t hi => ?_, fun i j op op' t hi => ?_⟩
  · cases (hfs _).symm.trans hn
  · cases (hfs _).symm.trans hn
  · cases hm
  · cases hm
  · cases (hoperations i).symm.trans hi
  · cases (hoperations i).symm.trans hi
  · cases (hoperations i).symm.trans hi

theorem safe_invariant : leases.Invariant Safe where
  init := fun _ hinit => hinit ▸ safe_initial
  step := fun _ _ _ _ h hstep => safe_next h hstep

/-! ## Mutual exclusion -/

/-- A lease that was published by a process that lives and has not released it. -/
def Held (s : Leases) (m : Metadata) : Prop :=
  m.owner ∉ s.dead ∧ .published m ∈ s.renames ∧
    ∀ cause moved, .retired cause m.owner m moved ∈ s.renames → cause = .stale

/-- A held lease is the one at the lock path. -/
theorem Held.at_lock {s : Leases} (hs : Shared s) {m : Metadata} (h : Held s m) :
    ∃ n, s.fs.get? .lock = some n ∧ n.content = .written m := by
  obtain ⟨halive, hpublished, hkept⟩ := h
  obtain ⟨n, hlock | hretired, hcontent⟩ := hs.settled m hpublished
  · exact ⟨n, hlock, hcontent⟩
  · obtain ⟨m', cause, process, moved, hcontent', -, hmem⟩ := hs.retired _ n hretired
    have heq : m' = m := OwnerFile.written.inj (hcontent'.symm.trans hcontent)
    subst heq
    obtain ⟨-, hstale, howner⟩ := hs.moved cause process m' moved hmem
    by_cases hcause : cause = .stale
    · exact absurd (hstale hcause) halive
    · rw [← howner hcause] at hmem
      exact absurd (hkept cause moved hmem) hcause

/-- In every reachable state at most one lease is held, every acquired lease was
published by its process, and every retirement moved the lease that was read. -/
theorem lease_mutual_exclusion {s : Leases} (h : leases.Reachable s) :
    (∀ m m', Held s m → Held s m' → m = m') ∧
    (∀ i op m, s.operations.get? i = some op → op.task = .acquired m →
      m.owner = op.process ∧ .published m ∈ s.renames) ∧
    ∀ cause process m moved, .retired cause process m moved ∈ s.renames → moved = .written m := by
  have hsafe := safe_invariant.reachable h
  refine ⟨fun m m' hm hm' => ?_, fun i op m hi htask => ?_, fun cause process m moved hmem => ?_⟩
  · obtain ⟨n, hlock, hcontent⟩ := hm.at_lock hsafe.shared
    obtain ⟨n', hlock', hcontent'⟩ := hm'.at_lock hsafe.shared
    have heq : n = n' := Option.some.inj (hlock.symm.trans hlock')
    subst heq
    exact OwnerFile.written.inj (hcontent.symm.trans hcontent')
  · have hsound := hsafe.sound i op hi
    rw [htask] at hsound
    exact hsound
  · exact (hsafe.shared.moved cause process m moved hmem).1

/-! ### Two reclaimers of one dead lease -/

def demoChoice : Choice := ⟨false, 0, false, false, false, "", "", ""⟩

/-- One operation takes steps with the same choice. -/
def steps (operation count : Nat) (choice : Choice) : List Event :=
  List.replicate count (.step operation choice)

def demoProcess (pid : Nat) : Process := ⟨pid, "boot-1"⟩

/-- Process 1 acquires and crashes; 2 and 3 both read its lease and are about to
retire it. Process 2 retires it and publishes its own lease, and only then the
rename of process 3 runs. -/
def twoReclaimers : List Event :=
  [.acquire 1 (demoProcess 1)] ++ steps 1 6 { demoChoice with ino := 10, leaseToken := "t1" } ++
    [.crash (demoProcess 1), .acquire 2 (demoProcess 2), .acquire 3 (demoProcess 3)] ++
    steps 2 5 demoChoice ++ steps 2 6 { demoChoice with stale := true } ++
    steps 3 5 demoChoice ++ steps 3 6 { demoChoice with stale := true } ++
    steps 2 5 demoChoice ++ steps 2 6 { demoChoice with ino := 20, leaseToken := "t2" } ++
    steps 3 1 demoChoice

theorem twoReclaimers_exclusive :
    let s := (System.replay next initial twoReclaimers).get (by decide +kernel)
    let lease : Metadata := ⟨2, "boot-1", "", "t2", ""⟩
    s.operations.get? 2 = some ⟨demoProcess 2, .acquired lease⟩ ∧
    s.operations.get? 3 = some ⟨demoProcess 3, .retiring .stale ⟨1, "boot-1", "", "t1", ""⟩ .missed⟩ ∧
    ∀ m, Held s m → m = lease := by
  intro s lease
  have h : leases.Reachable s := System.reachable_of_replay (Option.some_get _).symm
  obtain ⟨hexclusive, -, -⟩ := lease_mutual_exclusion h
  have hrenames : s.renames = [.published ⟨1, "boot-1", "", "t1", ""⟩,
      .retired .stale (demoProcess 2) ⟨1, "boot-1", "", "t1", ""⟩
        (.written ⟨1, "boot-1", "", "t1", ""⟩), .published lease] := by decide +kernel
  have hheld : Held s lease := by
    refine ⟨by decide +kernel, ?_, fun cause moved hmem => ?_⟩
    · rw [hrenames]
      simp
    · rw [hrenames] at hmem
      simp [lease] at hmem
  exact ⟨by decide +kernel, by decide +kernel, fun m hm => hexclusive m lease hm hheld⟩

end SurfaceLoom.Test.InteractiveSessionSafety
