import SurfaceLoom.Test.ExecutionGate

/-! # The quarantine of the Windows GUI gate

A published generation stays at its active path until it is retired. Whoever
publishes or hands out a gate holds the lease at that time and has read that no
generation is active; whoever retires one has read that very generation, while no
live acquirer is about to return it. -/
namespace SurfaceLoom.Test.ExecutionGateSafety
open SurfaceLoom.Lib SurfaceLoom.Lib.Transition SurfaceLoom.Test.ExecutionGate
open SurfaceLoom.Test.InteractiveSession (Process)

abbrev State := WindowsGuiGateState

/-! ## The ledger of generations -/

/-- The release of the gate that was published, or a recovery that names it. -/
def Licenses (operation : Nat) (g : State) : Cause → Prop
  | .released gate _ => gate = operation
  | .recovered proof => proof.quarantine = g

/-- What may happen to generations: its state is the active one and the operation
that published it. -/
def ledger : System (Option (Nat × State)) Act where
  init active := active = none
  step
    | active, .published i g, active' => active = none ∧ active' = some (i, g)
    | active, .returned i g, active' => active = some (i, g) ∧ active' = active
    | active, .retired cause g moved, active' => moved = .written g ∧ active' = none ∧
      ∃ i, active = some (i, g) ∧ Licenses i g cause

/-- What a list of acts says of the active generation and of the others. -/
structure Recorded (acts : List Act) (active : Option (Nat × State)) : Prop where
  current : ∀ i g, active = some (i, g) → .published i g ∈ acts
  kept : ∀ i g, .published i g ∈ acts →
    active = some (i, g) ∨ ∃ cause moved, .retired cause g moved ∈ acts
  returned : ∀ i g, .returned i g ∈ acts → .published i g ∈ acts
  retired : ∀ cause g moved, .retired cause g moved ∈ acts →
    moved = .written g ∧ ∃ i, .published i g ∈ acts ∧ Licenses i g cause

theorem mem_snoc {acts : List Act} {a b : Act} : a ∈ acts ++ [b] ↔ a ∈ acts ∨ a = b := by
  rw [List.mem_append, List.mem_singleton]

theorem recorded_step {acts : List Act} {active active' : Option (Nat × State)} {a : Act}
    (h : Recorded acts active) (hstep : ledger.step active a active') :
    Recorded (acts ++ [a]) active' := by
  have hretired : ∀ cause g moved, .retired cause g moved ∈ acts → moved = .written g ∧
      ∃ i, .published i g ∈ acts ++ [a] ∧ Licenses i g cause := by
    intro cause g moved hmem
    obtain ⟨hmoved, i, hpublished, hlicense⟩ := h.retired cause g moved hmem
    exact ⟨hmoved, i, List.mem_append_left _ hpublished, hlicense⟩
  have hkept : ∀ i g, .published i g ∈ acts →
      active = some (i, g) ∨ ∃ cause moved, .retired cause g moved ∈ acts ++ [a] := by
    intro i g hmem
    rcases h.kept i g hmem with hactive | ⟨cause, moved, hmem⟩
    · exact .inl hactive
    · exact .inr ⟨cause, moved, List.mem_append_left _ hmem⟩
  have hreturned : ∀ i g, .returned i g ∈ acts → .published i g ∈ acts ++ [a] :=
    fun i g hmem => List.mem_append_left _ (h.returned i g hmem)
  cases a with
  | published i g =>
    obtain ⟨hnone, hactive⟩ := hstep
    refine ⟨fun j g' hj => ?_, fun j g' hj => ?_, fun j g' hj => ?_, fun cause g' moved hj => ?_⟩
    · rw [hactive] at hj
      cases hj
      exact mem_snoc.mpr (.inr rfl)
    · rcases mem_snoc.mp hj with hj | hj
      · rcases hkept j g' hj with hsome | hretired
        · cases hnone.symm.trans hsome
        · exact .inr hretired
      · cases hj
        exact .inl hactive
    · rcases mem_snoc.mp hj with hj | hj
      · exact hreturned j g' hj
      · cases hj
    · rcases mem_snoc.mp hj with hj | hj
      · exact hretired cause g' moved hj
      · cases hj
  | returned i g =>
    obtain ⟨hsome, hactive⟩ := hstep
    rw [hactive]
    refine ⟨fun j g' hj => List.mem_append_left _ (h.current j g' hj), fun j g' hj => ?_,
      fun j g' hj => ?_, fun cause g' moved hj => ?_⟩
    · rcases mem_snoc.mp hj with hj | hj
      · exact hkept j g' hj
      · cases hj
    · rcases mem_snoc.mp hj with hj | hj
      · exact hreturned j g' hj
      · cases hj
        exact List.mem_append_left _ (h.current i g hsome)
    · rcases mem_snoc.mp hj with hj | hj
      · exact hretired cause g' moved hj
      · cases hj
  | retired cause g moved =>
    obtain ⟨hmoved, hactive, i, hsome, hlicense⟩ := hstep
    refine ⟨fun j g' hj => ?_, fun j g' hj => ?_, fun j g' hj => ?_, fun cause' g' moved' hj => ?_⟩
    · rw [hactive] at hj
      cases hj
    · rcases mem_snoc.mp hj with hj | hj
      · rcases hkept j g' hj with hsome' | hretired
        · cases hsome.symm.trans hsome'
          exact .inr ⟨cause, moved, mem_snoc.mpr (.inr rfl)⟩
        · exact .inr hretired
      · cases hj
    · rcases mem_snoc.mp hj with hj | hj
      · exact hreturned j g' hj
      · cases hj
    · rcases mem_snoc.mp hj with hj | hj
      · exact hretired cause' g' moved' hj
      · cases hj
        exact ⟨hmoved, i, List.mem_append_left _ (h.current i g hsome), hlicense⟩

theorem recorded {acts : List Act} {active : Option (Nat × State)} (h : ledger.Run acts active) :
    Recorded acts active := by
  have hinvariant : ledger.TraceInvariant Recorded :=
    { init := fun s hs => hs ▸ ⟨nofun, nofun, nofun, nofun⟩
      step := fun _ _ _ _ _ hrecorded hstep => recorded_step hrecorded hstep }
  exact hinvariant.run h

/-- While a generation is not retired, it stays the active one. -/
theorem ledger_keeps {acts : List Act} {start active : Option (Nat × State)}
    (h : ledger.Exec start acts active) {i : Nat} {g : State} (hstart : start = some (i, g)) :
    active = some (i, g) ∨ ∃ cause moved, .retired cause g moved ∈ acts := by
  induction h with
  | nil => exact .inl hstart
  | @snoc t u as a _ hs ih =>
    rcases ih with hactive | ⟨cause, moved, hmem⟩
    · cases a with
      | published j g' => cases hs.1.symm.trans hactive
      | returned j g' => exact .inl (hs.2.trans hactive)
      | retired cause g' moved =>
        obtain ⟨-, -, j, hj, -⟩ := hs
        cases hj.symm.trans hactive
        exact .inr ⟨cause, moved, mem_snoc.mpr (.inr rfl)⟩
    · exact .inr ⟨cause, moved, mem_snoc.mpr (.inl hmem)⟩

/-- A gate that is handed out after a generation was published is the gate of that
generation, or the generation was retired in between. -/
theorem returned_after_published {pre mid post : List Act} {active : Option (Nat × State)}
    {i j : Nat} {g g' : State}
    (h : ledger.Run (pre ++ .published i g :: (mid ++ .returned j g' :: post)) active) :
    (j = i ∧ g' = g) ∨ ∃ cause moved, .retired cause g moved ∈ mid := by
  obtain ⟨t, u, -, ⟨-, hu⟩, hrest⟩ := h.split
  obtain ⟨v, hmid, hlast⟩ := hrest.split
  obtain ⟨w, ⟨hv, -⟩, -⟩ := hlast.uncons
  rcases ledger_keeps hmid hu with hkept | hretired
  · cases hv.symm.trans hkept
    exact .inl ⟨rfl, rfl⟩
  · exact .inr hretired

/-! ## Files and operations -/

/-- What the shared files say: the file at an active path is the active generation. -/
structure Shared (s : Gates) (active : Option (Nat × State)) : Prop where
  ledger : ledger.Run s.acts active
  stored : ∀ t n, s.fs.get? (.active t) = some n →
    ∃ i g, active = some (i, g) ∧ g.leaseToken = t ∧ n.content = .written g
  kept : ∀ i g, active = some (i, g) →
    ∃ n, s.fs.get? (.active g.leaseToken) = some n ∧ n.content = .written g
  tokens : ∀ i g, active = some (i, g) → isUuid g.leaseToken = true
  root : ∀ t n, s.fs.get? (.active t) = some n → s.rootExists = true

/-- The token of the lease a task counts on. -/
def held : Task → Option String
  | .checking t _ | .preparing t | .inspecting _ t _ => some t
  | .rechecking g _ | .opening g | .writing g | .moving g | .published g => some g.leaseToken
  | _ => none

/-- The token a task has drawn. -/
def owned : Task → Option String
  | .abandoning t | .yielding _ t _ => some t
  | .gate g _ _ => some g.leaseToken
  | task => held task

theorem owned_of_held {task : Task} {t : String} (h : held task = some t) : owned task = some t := by
  cases task <;> first | exact h | cases h

/-- The operation that published a generation: its gate is returned next, or was. -/
def HasPublished (g : State) : Task → Prop
  | .published g' | .gate g' _ _ => g' = g
  | _ => False

def Retires (g : State) : Task → Prop
  | .yielding _ _ g' | .retiring _ g' _ => g' = g
  | _ => False

/-- No live operation is about to return the gate of a generation. -/
def Abandoned (s : Gates) (g : State) : Prop :=
  ∀ i op, s.operations.get? i = some op → op.task = .published g → op.process ∈ s.dead

def Holds (s : Gates) (process : Process) (t : String) : Prop :=
  process ∉ s.dead → s.lease = some ⟨process, t⟩

def FileReadSound (acts : List Act) : FileRead → Prop
  | .checking _ handle => ∃ i g, handle.content = .written g ∧ .published i g ∈ acts
  | .inspecting | .opening _ => True

def ReadSound (acts : List Act) : GateRead → Prop
  | .file _ _ read => FileReadSound acts read
  | .rooting _ | .listing _ => True

/-- What an operation knows at each of its steps. -/
def TaskSound (s : Gates) (active : Option (Nat × State)) (i : Nat) (process : Process) : Task → Prop
  | .checking t _ => Holds s process t
  | .preparing t => Holds s process t ∧ (process ∉ s.dead → active = none)
  | .rechecking g _ | .opening g | .writing g =>
    Holds s process g.leaseToken ∧ (process ∉ s.dead → active = none) ∧ s.rootExists = true
  | .moving g => Holds s process g.leaseToken ∧ (process ∉ s.dead → active = none) ∧
    s.rootExists = true ∧
    ∀ n, s.fs.get? (.pending g.leaseToken) = some n → n.content = .written g
  | .published g => Holds s process g.leaseToken ∧ .published i g ∈ s.acts ∧
    (process ∉ s.dead → active = some (i, g))
  | .gate g _ _ => .returned i g ∈ s.acts
  | .inspecting _ t read => Holds s process t ∧ ReadSound s.acts read
  | .yielding proof _ g => ∃ j, .published j g ∈ s.acts ∧ Licenses j g (.recovered proof)
  | .retiring cause g _ => ∃ j, .published j g ∈ s.acts ∧ Licenses j g cause
  | _ => True

structure Safe (s : Gates) (active : Option (Nat × State)) : Prop where
  shared : Shared s active
  sound : ∀ i op, s.operations.get? i = some op → TaskSound s active i op.process op.task
  drawn : ∀ i op t, s.operations.get? i = some op → owned op.task = some t →
    t ∈ s.leaseTokens ∧ isUuid t = true
  apart : ∀ i j op op' t, s.operations.get? i = some op → s.operations.get? j = some op' →
    owned op.task = some t → owned op'.task = some t → i = j
  origin : ∀ i g, .published i g ∈ s.acts →
    ∃ op, s.operations.get? i = some op ∧ HasPublished g op.task
  abandoned : ∀ i op g, s.operations.get? i = some op → Retires g op.task → Abandoned s g

/-! ### Generations have one publisher -/

theorem HasPublished.owned {g : State} {task : Task} (h : HasPublished g task) :
    owned task = some g.leaseToken := by
  cases task with
  | published g' => exact congrArg _ (congrArg _ h)
  | gate g' terminal receipt => exact congrArg _ (congrArg _ h)
  | _ => cases h

theorem HasPublished.unique {g g' : State} {task : Task} (h : HasPublished g task)
    (h' : HasPublished g' task) : g = g' := by
  cases task with
  | published g₁ => exact h.symm.trans h'
  | gate g₁ terminal receipt => exact h.symm.trans h'
  | _ => cases h

theorem Safe.unique {s : Gates} {active : Option (Nat × State)} (h : Safe s active) {i j : Nat}
    {g g' : State} (hi : .published i g ∈ s.acts) (hj : .published j g' ∈ s.acts)
    (htoken : g.leaseToken = g'.leaseToken) : i = j ∧ g = g' := by
  obtain ⟨op, hop, hpub⟩ := h.origin i g hi
  obtain ⟨op', hop', hpub'⟩ := h.origin j g' hj
  have hij : i = j := h.apart i j op op' _ hop hop' hpub.owned (htoken ▸ hpub'.owned)
  subst hij
  cases Option.some.inj (hop.symm.trans hop')
  exact ⟨rfl, hpub.unique hpub'⟩

/-- A token of an operation that has not published yet is the token of no generation. -/
theorem Safe.unpublished {s : Gates} {active : Option (Nat × State)} (h : Safe s active) {i : Nat}
    {op : Operation} {t : String} (hi : s.operations.get? i = some op) (howned : owned op.task = some t)
    (hnot : ∀ g, ¬ HasPublished g op.task) {j : Nat} {g : State} (hj : .published j g ∈ s.acts) :
    g.leaseToken ≠ t := by
  intro htoken
  obtain ⟨op', hop', hpub⟩ := h.origin j g hj
  have hij : i = j := h.apart i j op op' t hi hop' howned (htoken ▸ hpub.owned)
  subst hij
  cases Option.some.inj (hi.symm.trans hop')
  exact hnot g hpub

/-- The file at the active path of a published generation is that generation. -/
theorem Safe.stored_eq {s : Gates} {active : Option (Nat × State)} (h : Safe s active) {i : Nat}
    {g : State} (hi : .published i g ∈ s.acts) {n : FileSystem.Node GateFile}
    (hn : s.fs.get? (.active g.leaseToken) = some n) : active = some (i, g) ∧ n.content = .written g := by
  obtain ⟨j, g', hactive, htoken, hcontent⟩ := h.shared.stored _ n hn
  have hj := (recorded h.shared.ledger).current j g' hactive
  obtain ⟨rfl, rfl⟩ := h.unique hj hi htoken
  exact ⟨hactive, hcontent⟩

/-! ## Reading -/

theorem mem_activeToken {fs : StateDirectory} {t : String} {n : FileSystem.Node GateFile}
    (ht : isUuid t = true) (hn : fs.get? (.active t) = some n) :
    t ∈ fs.nodes.keys.filterMap activeToken := by
  refine List.mem_filterMap.mpr ⟨.active t, OrderedMap.mem_keys_iff.mpr ⟨n, hn⟩, ?_⟩
  simp [activeToken, ht]

/-- A read that finds no generation: none is active. -/
theorem readGateState_none {s : Gates} {active : Option (Nat × State)} (hs : Shared s active)
    {ioError : Bool} {read : GateRead}
    (h : readGateState s.rootExists s.fs ioError read = .inr .none) : active = none := by
  cases hactive : active with
  | none => rfl
  | some current =>
    obtain ⟨n, hn, -⟩ := hs.kept current.1 current.2 hactive
    have hroot := hs.root _ n hn
    have hmem := mem_activeToken (hs.tokens current.1 current.2 hactive) hn
    cases read with
    | rooting attempt =>
      simp only [readGateState, hroot] at h
      split at h
      · cases h
      · cases h
    | listing attempt =>
      simp only [readGateState] at h
      split at h
      · cases h
      · split at h
        · rename_i hnil
          rw [hnil] at hmem
          cases hmem
        · cases h
        · cases h
    | file attempt t read =>
      simp only [readGateState] at h
      split at h
      · cases h
      · split at h <;> cases h
      · cases h
      · split at h <;> cases h

theorem readStateFile_sound {s : Gates} {active : Option (Nat × State)} (hs : Shared s active)
    (t : String) (ioError : Bool) {read : FileRead} (h : FileReadSound s.acts read) :
    (∀ read', readStateFile s.fs (.active t) ioError read = .inl read' →
      FileReadSound s.acts read') ∧
    ∀ g, readStateFile s.fs (.active t) ioError read = .inr (.state g) →
      ∃ i, .published i g ∈ s.acts := by
  cases read with
  | inspecting =>
    simp only [readStateFile]
    split
    · exact ⟨nofun, nofun⟩
    · split
      · exact ⟨nofun, nofun⟩
      · exact ⟨fun read' hr => by cases hr; trivial, nofun⟩
  | opening ino =>
    simp only [readStateFile]
    split
    · exact ⟨nofun, nofun⟩
    · split
      · exact ⟨nofun, nofun⟩
      · rename_i node hnode
        refine ⟨fun read' hr => ?_, nofun⟩
        cases hr
        obtain ⟨i, g, hactive, -, hcontent⟩ := hs.stored t node hnode
        exact ⟨i, g, hcontent, (recorded hs.ledger).current i g hactive⟩
  | checking ino handle =>
    obtain ⟨i, g, hcontent, hmem⟩ := h
    simp only [readStateFile, hcontent]
    split
    · exact ⟨nofun, nofun⟩
    · split
      · exact ⟨nofun, nofun⟩
      · split
        · exact ⟨nofun, nofun⟩
        · refine ⟨nofun, fun g' hr => ?_⟩
          cases hr
          exact ⟨i, hmem⟩

/-- A read that finds a generation: it was published. -/
theorem readGateState_sound {s : Gates} {active : Option (Nat × State)} (hs : Shared s active)
    (ioError : Bool) {read : GateRead} (h : ReadSound s.acts read) :
    (∀ read', readGateState s.rootExists s.fs ioError read = .inl read' → ReadSound s.acts read') ∧
    ∀ g, readGateState s.rootExists s.fs ioError read = .inr (.state g) →
      ∃ i, .published i g ∈ s.acts := by
  cases read with
  | rooting attempt =>
    simp only [readGateState]
    split
    · exact ⟨nofun, nofun⟩
    · split
      · exact ⟨fun read' hr => by cases hr; trivial, nofun⟩
      · exact ⟨nofun, nofun⟩
  | listing attempt =>
    simp only [readGateState]
    split
    · exact ⟨nofun, nofun⟩
    · split
      · exact ⟨nofun, nofun⟩
      · exact ⟨fun read' hr => by cases hr; trivial, nofun⟩
      · exact ⟨nofun, nofun⟩
  | file attempt t read =>
    obtain ⟨hread, hstate⟩ := readStateFile_sound hs t ioError h
    simp only [readGateState]
    split
    · rename_i read' heq
      exact ⟨fun read'' hr => by cases hr; exact hread read' heq, nofun⟩
    · split
      · exact ⟨fun read'' hr => by cases hr; trivial, nofun⟩
      · exact ⟨nofun, nofun⟩
    · exact ⟨nofun, nofun⟩
    · rename_i g heq
      refine ⟨nofun, fun g' hr => ?_⟩
      split at hr
      · cases hr
        exact hstate g heq
      · cases hr

/-! ## One step -/

/-- A later state, as the operations other than one see it. -/
structure Extends (i : Nat) (s : Gates) (active : Option (Nat × State)) (s' : Gates)
    (active' : Option (Nat × State)) : Prop where
  acts : s.acts ⊆ s'.acts
  dead : s.dead ⊆ s'.dead
  leaseTokens : s.leaseTokens ⊆ s'.leaseTokens
  root : s.rootExists = true → s'.rootExists = true
  holds : ∀ j op t, j ≠ i → s.operations.get? j = some op → held op.task = some t →
    op.process ∉ s'.dead → s.lease = some ⟨op.process, t⟩ →
    s'.lease = some ⟨op.process, t⟩ ∧ (active = none → active' = none)
  pending : ∀ j op t, j ≠ i → s.operations.get? j = some op → held op.task = some t →
    s'.fs.get? (.pending t) = s.fs.get? (.pending t)
  published : ∀ j op g, j ≠ i → s.operations.get? j = some op → op.task = .published g →
    op.process ∉ s'.dead → active = some (j, g) → active' = some (j, g)

/-- Nothing changed that others count on. -/
theorem Extends.quiet {i : Nat} {s s' : Gates} {active : Option (Nat × State)}
    (hacts : s.acts ⊆ s'.acts) (hdead : s.dead ⊆ s'.dead) (htokens : s.leaseTokens ⊆ s'.leaseTokens)
    (hroot : s.rootExists = true → s'.rootExists = true) (hlease : s'.lease = s.lease)
    (hfs : ∀ j op t, j ≠ i → s.operations.get? j = some op → held op.task = some t →
      s'.fs.get? (.pending t) = s.fs.get? (.pending t)) : Extends i s active s' active where
  acts := hacts
  dead := hdead
  leaseTokens := htokens
  root := hroot
  holds _ _ _ _ _ _ _ h := ⟨hlease.trans h, id⟩
  pending := hfs
  published _ _ _ _ _ _ _ h := h

theorem Extends.refl (i : Nat) (s : Gates) (active : Option (Nat × State)) :
    Extends i s active s active :=
  .quiet (List.Subset.refl _) (List.Subset.refl _) (List.Subset.refl _) id rfl fun _ _ _ _ _ _ => rfl

theorem FileReadSound.mono {acts acts' : List Act} (hacts : acts ⊆ acts') {read : FileRead}
    (h : FileReadSound acts read) : FileReadSound acts' read := by
  cases read with
  | checking ino handle =>
    obtain ⟨i, g, hcontent, hmem⟩ := h
    exact ⟨i, g, hcontent, hacts hmem⟩
  | inspecting => trivial
  | opening ino => trivial

theorem ReadSound.mono {acts acts' : List Act} (hacts : acts ⊆ acts') {read : GateRead}
    (h : ReadSound acts read) : ReadSound acts' read := by
  cases read with
  | file attempt t read => exact FileReadSound.mono hacts h
  | rooting attempt => trivial
  | listing attempt => trivial

theorem TaskSound.extend {i j : Nat} {s s' : Gates} {active active' : Option (Nat × State)}
    {op : Operation} (h : TaskSound s active j op.process op.task)
    (he : Extends i s active s' active') (hj : j ≠ i) (hop : s.operations.get? j = some op) :
    TaskSound s' active' j op.process op.task := by
  have halive : op.process ∉ s'.dead → op.process ∉ s.dead := fun h hd => h (he.dead hd)
  have hholds : ∀ t, held op.task = some t → Holds s op.process t → Holds s' op.process t :=
    fun t ht hh hd => (he.holds j op t hj hop ht hd (hh (halive hd))).1
  have hclear : ∀ t, held op.task = some t → Holds s op.process t →
      (op.process ∉ s.dead → active = none) → op.process ∉ s'.dead → active' = none :=
    fun t ht hh hc hd => (he.holds j op t hj hop ht hd (hh (halive hd))).2 (hc (halive hd))
  have hpending := fun t => he.pending j op t hj hop
  have hpublished := fun g => he.published j op g hj hop
  cases op with
  | mk process task =>
    cases task with
    | checking t read => exact hholds t rfl h
    | preparing t => exact ⟨hholds t rfl h.1, hclear t rfl h.1 h.2⟩
    | rechecking g read => exact ⟨hholds _ rfl h.1, hclear _ rfl h.1 h.2.1, he.root h.2.2⟩
    | opening g => exact ⟨hholds _ rfl h.1, hclear _ rfl h.1 h.2.1, he.root h.2.2⟩
    | writing g => exact ⟨hholds _ rfl h.1, hclear _ rfl h.1 h.2.1, he.root h.2.2⟩
    | moving g =>
      refine ⟨hholds _ rfl h.1, hclear _ rfl h.1 h.2.1, he.root h.2.2.1, fun n hn => ?_⟩
      rw [hpending _ rfl] at hn
      exact h.2.2.2 n hn
    | published g =>
      exact ⟨hholds _ rfl h.1, he.acts h.2.1, fun hd => hpublished g rfl hd (h.2.2 (halive hd))⟩
    | gate g terminal receipt => exact he.acts h
    | inspecting proof t read => exact ⟨hholds t rfl h.1, h.2.mono he.acts⟩
    | yielding proof t g =>
      obtain ⟨k, hmem, hlicense⟩ := h
      exact ⟨k, he.acts hmem, hlicense⟩
    | retiring cause g stage =>
      obtain ⟨k, hmem, hlicense⟩ := h
      exact ⟨k, he.acts hmem, hlicense⟩
    | acquiring => trivial
    | abandoning t => trivial
    | releasing gate => trivial
    | quarantining gate => trivial
    | recovering proof => trivial
    | observing read => trivial
    | finished => trivial

theorem TaskSound.published_of_retires {s : Gates} {active : Option (Nat × State)} {i : Nat}
    {process : Process} {task : Task} (h : TaskSound s active i process task) {g : State}
    (hg : Retires g task) : ∃ j, .published j g ∈ s.acts := by
  cases task with
  | yielding proof t g' =>
    obtain ⟨j, hj, -⟩ := h
    exact ⟨j, hg ▸ hj⟩
  | retiring cause g' stage =>
    obtain ⟨j, hj, -⟩ := h
    exact ⟨j, hg ▸ hj⟩
  | _ => cases hg

/-- The table of operations, up to what a gate says of its end. -/
def Regated (operations operations' : OrderedMap Nat Operation) : Prop :=
  ∀ j, operations'.get? j = operations.get? j ∨ ∃ process g terminal receipt terminal' receipt',
    operations.get? j = some ⟨process, .gate g terminal receipt⟩ ∧
    operations'.get? j = some ⟨process, .gate g terminal' receipt'⟩

theorem Regated.refl (operations : OrderedMap Nat Operation) : Regated operations operations :=
  fun _ => .inl rfl

theorem Regated.trans {a b c : OrderedMap Nat Operation} (h : Regated a b) (h' : Regated b c) :
    Regated a c := by
  intro j
  rcases h j with hb | ⟨process, g, t, r, t', r', ha, hb⟩
  · rcases h' j with hc | ⟨process, g, t, r, t', r', hb', hc⟩
    · exact .inl (hc.trans hb)
    · exact .inr ⟨process, g, t, r, t', r', hb.symm.trans hb', hc⟩
  · rcases h' j with hc | ⟨process', g', t₁, r₁, t₁', r₁', hb', hc⟩
    · exact .inr ⟨process, g, t, r, t', r', ha, hc.trans hb⟩
    · cases hb.symm.trans hb'
      exact .inr ⟨process, g, t, r, t₁', r₁', ha, hc⟩

theorem Regated.setGate {s : Gates} {gate : Nat} {process : Process} {g : State}
    {terminal terminal' : Terminal} {receipt receipt' : Bool}
    (h : s.operations.get? gate = some ⟨process, .gate g terminal receipt⟩) :
    Regated s.operations (s.setGate gate process (.gate g terminal' receipt')).operations := by
  intro j
  have hget : (s.setGate gate process (.gate g terminal' receipt')).operations.get? j =
      if j = gate then some ⟨process, .gate g terminal' receipt'⟩ else s.operations.get? j :=
    OrderedMap.get?_set
  by_cases heq : j = gate
  · rw [if_pos heq] at hget
    exact .inr ⟨process, g, terminal, receipt, terminal', receipt', heq ▸ h, hget⟩
  · rw [if_neg heq] at hget
    exact .inl hget

/-- The same operation, up to what a gate says of its end. -/
def Like (op op' : Operation) : Prop :=
  op = op' ∨ ∃ process g terminal receipt terminal' receipt',
    op = ⟨process, .gate g terminal receipt⟩ ∧ op' = ⟨process, .gate g terminal' receipt'⟩

theorem Like.process {op op' : Operation} (h : Like op op') : op.process = op'.process := by
  rcases h with rfl | ⟨process, g, t, r, t', r', rfl, rfl⟩ <;> rfl

theorem Like.owned {op op' : Operation} (h : Like op op') : owned op.task = owned op'.task := by
  rcases h with rfl | ⟨process, g, t, r, t', r', rfl, rfl⟩ <;> rfl

theorem Like.published {op op' : Operation} (h : Like op op') {g : State}
    (hg : HasPublished g op.task) : HasPublished g op'.task := by
  rcases h with rfl | ⟨process, g', t, r, t', r', rfl, rfl⟩
  · exact hg
  · exact hg

theorem Like.retires {op op' : Operation} (h : Like op op') {g : State} (hg : Retires g op'.task) :
    Retires g op.task := by
  rcases h with rfl | ⟨process, g', t, r, t', r', rfl, rfl⟩
  · exact hg
  · exact hg

theorem Like.awaiting {op op' : Operation} (h : Like op op') {g : State}
    (hg : op'.task = .published g) : op.task = .published g := by
  rcases h with rfl | ⟨process, g', t, r, t', r', rfl, rfl⟩
  · exact hg
  · cases hg

theorem Like.sound {op op' : Operation} (h : Like op op') {s : Gates}
    {active : Option (Nat × State)} {j : Nat} (hs : TaskSound s active j op.process op.task) :
    TaskSound s active j op'.process op'.task := by
  rcases h with rfl | ⟨process, g', t, r, t', r', rfl, rfl⟩
  · exact hs
  · exact hs

theorem Regated.back {operations operations' : OrderedMap Nat Operation}
    (h : Regated operations operations') {j : Nat} {op' : Operation}
    (hj : operations'.get? j = some op') : ∃ op, operations.get? j = some op ∧ Like op op' := by
  rcases h j with heq | ⟨process, g, t, r, t', r', hold, hnew⟩
  · exact ⟨op', heq ▸ hj, .inl rfl⟩
  · cases hj.symm.trans hnew
    exact ⟨_, hold, .inr ⟨process, g, t, r, t', r', rfl, rfl⟩⟩

theorem Regated.forth {operations operations' : OrderedMap Nat Operation}
    (h : Regated operations operations') {j : Nat} {op : Operation}
    (hj : operations.get? j = some op) : ∃ op', operations'.get? j = some op' ∧ Like op op' := by
  rcases h j with heq | ⟨process, g, t, r, t', r', hold, hnew⟩
  · exact ⟨op, heq.trans hj, .inl rfl⟩
  · cases hj.symm.trans hold
    exact ⟨_, hnew, .inr ⟨process, g, t, r, t', r', rfl, rfl⟩⟩

/-- What a step of an operation leaves. -/
structure Advances (s : Gates) (active : Option (Nat × State)) (i : Nat) (process : Process)
    (task : Task) (s' : Gates) (active' : Option (Nat × State)) (task' : Task) : Prop where
  shared : Shared s' active'
  later : Extends i s active s' active'
  regated : Regated s.operations s'.operations
  sound : TaskSound s' active' i process task'
  drawn : ∀ t, owned task' = some t →
    t ∈ s'.leaseTokens ∧ isUuid t = true ∧ (owned task = some t ∨ t ∉ s.leaseTokens)
  origin : ∀ j g, .published j g ∈ s'.acts →
    .published j g ∈ s.acts ∨ j = i ∧ HasPublished g task'
  keeps : ∀ g, HasPublished g task → HasPublished g task'
  fresh : ∀ g, task' = .published g → ∀ j, .published j g ∉ s.acts
  retires : ∀ g, Retires g task' → Abandoned s g

theorem Shared.of_paths {s s' : Gates} {active : Option (Nat × State)} (h : Shared s active)
    (hactive : ∀ t, s'.fs.get? (.active t) = s.fs.get? (.active t)) (hacts : s'.acts = s.acts)
    (hroot : s.rootExists = true → s'.rootExists = true) : Shared s' active where
  ledger := by rw [hacts]; exact h.ledger
  stored t := by rw [hactive]; exact h.stored t
  kept i g := by rw [hactive]; exact h.kept i g
  tokens := h.tokens
  root t n hn := by
    rw [hactive] at hn
    exact hroot (h.root t n hn)

section Steps

variable {s s' : Gates} {active : Option (Nat × State)} {i : Nat} {op : Operation} {task' : Task}

/-- A step that records nothing and leaves the active files. -/
theorem Advances.plain (h : Safe s active) (hi : s.operations.get? i = some op)
    (hactive : ∀ t, s'.fs.get? (.active t) = s.fs.get? (.active t)) (hacts : s'.acts = s.acts)
    (hlater : Extends i s active s' active) (hregated : Regated s.operations s'.operations)
    (hsound : TaskSound s' active i op.process task')
    (howned : ∀ t, owned task' = some t → owned op.task = some t)
    (hpublished : ∀ g, ¬ HasPublished g op.task) (hpublished' : ∀ g, task' ≠ .published g)
    (hretires : ∀ g, Retires g task' → Abandoned s g) :
    Advances s active i op.process op.task s' active task' where
  shared := h.shared.of_paths hactive hacts hlater.root
  later := hlater
  regated := hregated
  sound := hsound
  drawn t ht := by
    obtain ⟨hmem, huuid⟩ := h.drawn i op t hi (howned t ht)
    exact ⟨hlater.leaseTokens hmem, huuid, .inl (howned t ht)⟩
  origin j g hj := .inl (hacts ▸ hj)
  keeps g hg := absurd hg (hpublished g)
  fresh g hg := absurd hg (hpublished' g)
  retires := hretires

/-- A step that changes nothing but the task. -/
theorem Advances.stay (h : Safe s active) (hi : s.operations.get? i = some op)
    (hsound : TaskSound s active i op.process task')
    (howned : ∀ t, owned task' = some t → owned op.task = some t)
    (hpublished : ∀ g, ¬ HasPublished g op.task) (hpublished' : ∀ g, task' ≠ .published g)
    (hretires : ∀ g, Retires g task' → Abandoned s g) :
    Advances s active i op.process op.task s active task' :=
  .plain h hi (fun _ => rfl) rfl (.refl i s active) (.refl _) hsound howned hpublished hpublished'
    hretires

/-- A lease is acquired: no live operation counted on another one. -/
theorem Advances.acquire (h : Safe s active) {choice : Choice}
    (hacquire : s.acquireLease op.process choice = some s')
    (hsound : s'.lease = some ⟨op.process, choice.leaseToken⟩ →
      TaskSound s' active i op.process task')
    (howned : owned task' = some choice.leaseToken) (hpublished : ∀ g, ¬ HasPublished g op.task)
    (hpublished' : ∀ g, task' ≠ .published g) (hretires : ∀ g, ¬ Retires g task') :
    Advances s active i op.process op.task s' active task' := by
  unfold Gates.acquireLease at hacquire
  split at hacquire
  · rename_i hguard
    obtain ⟨hfree, huuid, hfresh⟩ := hguard
    cases hacquire
    exact
      { shared := h.shared.of_paths (fun _ => rfl) rfl id
        later := by
          refine ⟨List.Subset.refl _, List.Subset.refl _, List.subset_append_left .., id, ?_,
            fun _ _ _ _ _ _ => rfl, fun _ _ _ _ _ _ _ h => h⟩
          intro j op' t _ _ _ halive hlease
          rw [Gates.leaseFree, hlease] at hfree
          exact absurd (of_decide_eq_true hfree) halive
        regated := .refl _
        sound := hsound rfl
        drawn := fun t ht => by
          have ht : choice.leaseToken = t := Option.some.inj (howned.symm.trans ht)
          subst ht
          exact ⟨List.mem_append_right _ (List.mem_singleton.mpr rfl), huuid, .inr hfresh⟩
        origin := fun _ _ hj => .inl hj
        keeps := fun g hg => absurd hg (hpublished g)
        fresh := fun g hg => absurd hg (hpublished' g)
        retires := fun g hg => absurd hg (hretires g) }
  · cases hacquire

/-- A release, as far as it may have gone. -/
structure Yields (s s' : Gates) (process : Process) (t : String) : Prop where
  lease : s'.lease = s.lease ∨ s.lease = some ⟨process, t⟩
  fs : s'.fs = s.fs
  acts : s'.acts = s.acts
  dead : s'.dead = s.dead
  leaseTokens : s'.leaseTokens = s.leaseTokens
  root : s'.rootExists = s.rootExists
  regated : Regated s.operations s'.operations

theorem releaseLease_yields (s : Gates) (process : Process) (t : String) (outcome : LeaseOutcome) :
    Yields s (s.releaseLease process t outcome).1 process t := by
  have hsame : Yields s s process t := ⟨.inl rfl, rfl, rfl, rfl, rfl, rfl, .refl _⟩
  unfold Gates.releaseLease
  split
  · exact hsame
  · rename_i hlease
    rw [not_not] at hlease
    cases outcome with
    | released => exact ⟨.inr hlease, rfl, rfl, rfl, rfl, rfl, .refl _⟩
    | threw givenUp =>
      cases givenUp with
      | false => exact hsame
      | true => exact ⟨.inr hlease, rfl, rfl, rfl, rfl, rfl, .refl _⟩

theorem Yields.quarantined {process : Process} {t : String} (h : Yields s s' process t)
    (gate : Nat) : Yields s (s'.quarantined gate) process t := by
  unfold Gates.quarantined
  split
  · rename_i hgate
    exact ⟨h.lease, h.fs, h.acts, h.dead, h.leaseTokens, h.root, h.regated.trans (.setGate hgate)⟩
  · exact h

/-- The release of a lease that no other operation counts on. -/
theorem Yields.later {process : Process} {t : String} (h : Yields s s' process t)
    (hothers : ∀ j op', j ≠ i → s.operations.get? j = some op' → held op'.task ≠ some t) :
    Extends i s active s' active where
  acts := by rw [h.acts]; exact List.Subset.refl _
  dead := by rw [h.dead]; exact List.Subset.refl _
  leaseTokens := by rw [h.leaseTokens]; exact List.Subset.refl _
  root hroot := h.root.trans hroot
  holds j op' t' hj hop hheld _ hlease := by
    rcases h.lease with hsame | hgone
    · exact ⟨hsame.trans hlease, id⟩
    · rw [hlease] at hgone
      cases hgone
      exact absurd hheld (hothers j op' hj hop)
  pending _ _ _ _ _ _ := by rw [h.fs]
  published _ _ _ _ _ _ _ h := h

/-- A task counts on no token but its own. -/
theorem Safe.not_held (h : Safe s active) {t : String} (hi : s.operations.get? i = some op)
    (howned : owned op.task = some t) (j : Nat) (op' : Operation) (hj : j ≠ i)
    (hop : s.operations.get? j = some op') : held op'.task ≠ some t :=
  fun hheld => hj (h.apart j i op' op t hop hi (owned_of_held hheld) howned)

theorem releaseGateLease_yields {gate : Nat} {outcome : LeaseOutcome} {confirmed : Bool} {g : State}
    (hrelease : s.releaseGateLease gate outcome = some (s', confirmed, g)) :
    ∃ process terminal receipt, s.operations.get? gate = some ⟨process, .gate g terminal receipt⟩ ∧
      Yields s s' process g.leaseToken := by
  unfold Gates.releaseGateLease at hrelease
  split at hrelease
  · rename_i process g' terminal receipt hgate
    split at hrelease
    · cases hrelease
      exact ⟨process, terminal, receipt, hgate, .inl rfl, rfl, rfl, rfl, rfl, rfl, .refl _⟩
    · have hyields := releaseLease_yields s process g'.leaseToken outcome
      have hoperations : (s.releaseLease process g'.leaseToken outcome).1.operations =
          s.operations := by
        unfold Gates.releaseLease
        split
        · rfl
        · split
          · rfl
          · split <;> rfl
      split at hrelease
      · rename_i s₁ heq
        rw [heq] at hyields hoperations
        cases hrelease
        refine ⟨process, terminal, receipt, hgate, hyields.lease, hyields.fs, hyields.acts,
          hyields.dead, hyields.leaseTokens, hyields.root, ?_⟩
        exact hyields.regated.trans (.setGate (hoperations ▸ hgate))
      · rename_i s₁ heq
        rw [heq] at hyields
        cases hrelease
        exact ⟨process, terminal, receipt, hgate, hyields⟩
  · cases hrelease

/-! ### Publishing and retiring -/

/-- The rename of a pending generation makes it the active one. -/
theorem publish_advances (h : Safe s active) (hi : s.operations.get? i = some op) {g : State}
    (htask : op.task = .moving g) (halive : op.process ∉ s.dead) {fs : StateDirectory}
    (hrename : s.fs.rename (fun _ => true) (.pending g.leaseToken) (.active g.leaseToken) =
      some fs) :
    Advances s active i op.process op.task { s with fs, acts := s.acts ++ [.published i g] }
      (some (i, g)) (.published g) := by
  obtain ⟨node, hnode, -, hget⟩ := FileSystem.rename_some hrename
  have hsound := h.sound i op hi
  rw [htask] at hsound
  obtain ⟨hholds, hclear, hroot, hpending⟩ := hsound
  have hnone := hclear halive
  have howned : owned op.task = some g.leaseToken := by rw [htask]; rfl
  obtain ⟨hdrawn, huuid⟩ := h.drawn i op _ hi howned
  have hold : ∀ t, s.fs.get? (.active t) = none := by
    intro t
    cases hstored : s.fs.get? (.active t) with
    | none => rfl
    | some n =>
      obtain ⟨j, g', hactive, -⟩ := h.shared.stored t n hstored
      cases hnone.symm.trans hactive
  have hnew : ∀ t, fs.get? (.active t) = if t = g.leaseToken then some node else none := by
    intro t
    rw [hget, if_neg (show GatePath.active t ≠ .pending g.leaseToken from nofun), hold]
    by_cases ht : t = g.leaseToken
    · rw [if_pos ht, if_pos (congrArg _ ht)]
    · rw [if_neg ht, if_neg fun hp => ht (GatePath.active.inj hp)]
  have hunpublished : ∀ j, .published j g ∉ s.acts := by
    intro j hj
    refine h.unpublished hi howned (fun g' => ?_) hj rfl
    rw [htask]
    exact id
  refine
    { shared := ⟨h.shared.ledger.snoc ⟨hnone, rfl⟩, fun t n hn => ?_, fun j g' hj => ?_,
        fun j g' hj => ?_, fun t n _ => hroot⟩
      later := ⟨List.subset_append_left .., List.Subset.refl _, List.Subset.refl _, id, ?_, ?_, ?_⟩
      regated := .refl _
      sound := ⟨hholds, mem_snoc.mpr (.inr rfl), fun _ => rfl⟩
      drawn := fun t ht => ?_
      origin := fun j g' hj => ?_
      keeps := fun g' hg => ?_
      fresh := fun g' hg j => ?_
      retires := fun g' => False.elim }
  · have hn : fs.get? (.active t) = some n := hn
    rw [hnew] at hn
    split at hn
    · rename_i ht
      cases hn
      exact ⟨i, g, rfl, ht.symm, hpending node hnode⟩
    · cases hn
  · cases hj
    refine ⟨node, ?_, hpending node hnode⟩
    show fs.get? (.active g.leaseToken) = some node
    rw [hnew, if_pos rfl]
  · cases hj
    exact huuid
  · intro j op' t hj hop hheld halive' hlease
    rw [hholds halive] at hlease
    have htoken : g.leaseToken = t := congrArg Lease.leaseToken (Option.some.inj hlease)
    exact absurd (htoken ▸ hheld) (h.not_held hi howned j op' hj hop)
  · intro j op' t hj hop hheld
    show fs.get? (.pending t) = s.fs.get? (.pending t)
    rw [hget, if_neg nofun, if_neg ?_]
    intro hp
    cases hp
    exact h.not_held hi howned j op' hj hop hheld
  · intro j op' g' _ _ _ _ hactive
    cases hnone.symm.trans hactive
  · cases ht
    exact ⟨hdrawn, huuid, .inl howned⟩
  · rcases mem_snoc.mp hj with hj | hj
    · exact .inl hj
    · cases hj
      exact .inr ⟨rfl, rfl⟩
  · rw [htask] at hg
    cases hg
  · cases hg
    exact hunpublished j

/-- The rename of a retirement moves the generation it is for. -/
theorem retire_advances (h : Safe s active) (hi : s.operations.get? i = some op) {cause : Cause}
    {g : State} (htask : op.task = .retiring cause g .moving) {fs : StateDirectory}
    {moved : FileSystem.Node GateFile} (hmoved : s.fs.get? (.active g.leaseToken) = some moved)
    (hrename : s.fs.rename (fun _ => true) (.active g.leaseToken) (cause.path g.leaseToken) =
      some fs) :
    Advances s active i op.process op.task
      { s with fs, acts := s.acts ++ [.retired cause g moved.content] } none
      (.retiring cause g (.proving .inspecting)) := by
  obtain ⟨node, hnode, -, hget⟩ := FileSystem.rename_some hrename
  have hsound := h.sound i op hi
  rw [htask] at hsound
  obtain ⟨k, hk, hlicense⟩ := hsound
  obtain ⟨hactive, hcontent⟩ := h.stored_eq hk hmoved
  have habandoned : Abandoned s g := by
    refine h.abandoned i op g hi ?_
    rw [htask]
    rfl
  have hpath : ∀ t, .active t ≠ cause.path g.leaseToken ∧ .pending t ≠ cause.path g.leaseToken := by
    intro t
    cases cause <;> exact ⟨nofun, nofun⟩
  have hnew : ∀ t, fs.get? (.active t) = none := by
    intro t
    rw [hget, if_neg (hpath t).1]
    by_cases ht : t = g.leaseToken
    · rw [if_pos (congrArg _ ht)]
    · rw [if_neg fun hp => ht (GatePath.active.inj hp)]
      cases hstored : s.fs.get? (.active t) with
      | none => rfl
      | some n =>
        obtain ⟨j, g', hactive', htoken, -⟩ := h.shared.stored t n hstored
        cases hactive.symm.trans hactive'
        exact absurd htoken.symm ht
  have hpublished : ∀ j g', Act.published j g' ∈ s.acts ++ [.retired cause g moved.content] →
      .published j g' ∈ s.acts := by
    intro j g' hj
    rcases mem_snoc.mp hj with hj | hj
    · exact hj
    · cases hj
  refine
    { shared := ⟨h.shared.ledger.snoc ⟨hcontent, rfl, k, hactive, hlicense⟩, fun t n hn => ?_,
        nofun, nofun, fun t n hn => ?_⟩
      later := ⟨List.subset_append_left .., List.Subset.refl _, List.Subset.refl _, id,
        fun _ _ _ _ _ _ _ hlease => ⟨hlease, fun _ => rfl⟩, fun j op' t _ _ _ => ?_, ?_⟩
      regated := .refl _
      sound := ⟨k, List.mem_append_left _ hk, hlicense⟩
      drawn := nofun
      origin := fun j g' hj => .inl (hpublished j g' hj)
      keeps := fun g' hg => ?_
      fresh := nofun
      retires := fun g' hg => hg ▸ habandoned }
  · cases (hnew t).symm.trans hn
  · cases (hnew t).symm.trans hn
  · show fs.get? (.pending t) = s.fs.get? (.pending t)
    rw [hget, if_neg (hpath t).2, if_neg nofun]
  · intro j op' g' _ hop htask' halive hactive'
    cases hactive.symm.trans hactive'
    exact absurd (habandoned k op' hop htask') halive
  · rw [htask] at hg
    cases hg

/-- The file of a pending generation is its acquirer's own. -/
theorem pending_advances (h : Safe s active) (hi : s.operations.get? i = some op) {g : State}
    (howned : owned op.task = some g.leaseToken) (hpublished : ∀ g, ¬ HasPublished g op.task)
    {fs : StateDirectory} (hfs : ∀ p, p ≠ .pending g.leaseToken → fs.get? p = s.fs.get? p)
    (hsound : TaskSound { s with fs } active i op.process task')
    (howned' : owned task' = some g.leaseToken) (hpublished' : ∀ g, task' ≠ .published g)
    (hretires : ∀ g, ¬ Retires g task') :
    Advances s active i op.process op.task { s with fs } active task' := by
  refine .plain h hi (fun t => hfs _ nofun) rfl ?_ (.refl _) hsound ?_ hpublished hpublished'
    fun g hg => absurd hg (hretires g)
  · refine .quiet (List.Subset.refl _) (List.Subset.refl _) (List.Subset.refl _) id rfl ?_
    intro j op' t hj hop hheld
    refine hfs _ fun hp => ?_
    cases hp
    exact h.not_held hi howned j op' hj hop hheld
  · intro t ht
    rw [howned'] at ht
    rw [howned, ht]

/-! ### Every step -/

/-- One step of a read under the lease. -/
theorem checking_advances (h : Safe s active) (hi : s.operations.get? i = some op)
    {choice : Choice} {t : String} {read : GateRead} (htask : op.task = .checking t read)
    {scopeId : String} (hstep : s.advance scopeId i op.process choice op.task = some (s', task')) :
    ∃ active', Advances s active i op.process op.task s' active' task' := by
  have hholds := h.sound i op hi
  rw [htask] at hholds
  have howned : owned op.task = some t := by rw [htask]; rfl
  have hpublished : ∀ g, ¬ HasPublished g op.task := fun g => by rw [htask]; exact id
  rw [htask] at hstep
  simp only [Gates.advance] at hstep
  split at hstep
  · cases hstep
    exact ⟨active, .stay h hi hholds (fun _ ht => howned.trans ht) hpublished nofun fun _ => False.elim⟩
  · rename_i hread
    cases hstep
    exact ⟨active, .stay h hi ⟨hholds, fun _ => readGateState_none h.shared hread⟩
      (fun _ ht => howned.trans ht) hpublished nofun fun _ => False.elim⟩
  · cases hstep
    exact ⟨active, .stay h hi trivial (fun _ ht => howned.trans ht) hpublished nofun fun _ => False.elim⟩
  · cases hstep
    exact ⟨active, .stay h hi trivial (fun _ ht => howned.trans ht) hpublished nofun fun _ => False.elim⟩

theorem rechecking_advances (h : Safe s active) (hi : s.operations.get? i = some op)
    {choice : Choice} {g : State} {read : GateRead} (htask : op.task = .rechecking g read)
    {scopeId : String} (hstep : s.advance scopeId i op.process choice op.task = some (s', task')) :
    ∃ active', Advances s active i op.process op.task s' active' task' := by
  have hsound := h.sound i op hi
  rw [htask] at hsound
  have howned : owned op.task = some g.leaseToken := by rw [htask]; rfl
  have hpublished : ∀ g, ¬ HasPublished g op.task := fun g => by rw [htask]; exact id
  rw [htask] at hstep
  simp only [Gates.advance] at hstep
  split at hstep
  · cases hstep
    exact ⟨active, .stay h hi hsound (fun _ ht => howned.trans ht) hpublished nofun fun _ => False.elim⟩
  · cases hstep
    exact ⟨active, .stay h hi hsound (fun _ ht => howned.trans ht) hpublished nofun fun _ => False.elim⟩
  · cases hstep
    exact ⟨active, .stay h hi trivial (fun _ ht => howned.trans ht) hpublished nofun fun _ => False.elim⟩
  · cases hstep
    exact ⟨active, .stay h hi trivial (fun _ ht => howned.trans ht) hpublished nofun fun _ => False.elim⟩

/-- The steps that write a generation and make it active. -/
theorem writing_advances (h : Safe s active) (hi : s.operations.get? i = some op)
    (halive : op.process ∉ s.dead) {choice : Choice} {g : State}
    (htask : op.task = .opening g ∨ op.task = .writing g ∨ op.task = .moving g) {scopeId : String}
    (hstep : s.advance scopeId i op.process choice op.task = some (s', task')) :
    ∃ active', Advances s active i op.process op.task s' active' task' := by
  have hsound := h.sound i op hi
  have howned : owned op.task = some g.leaseToken := by
    rcases htask with htask | htask | htask <;> rw [htask] <;> rfl
  have hpublished : ∀ g, ¬ HasPublished g op.task := by
    intro g
    rcases htask with htask | htask | htask <;> rw [htask] <;> exact id
  have habandon : ∃ active', Advances s active i op.process op.task s active'
      (.abandoning g.leaseToken) :=
    ⟨active, .stay h hi trivial (fun _ ht => howned.trans ht) hpublished nofun fun _ => False.elim⟩
  rcases htask with htask | htask | htask
  · rw [htask] at hsound hstep
    simp only [Gates.advance] at hstep
    split at hstep
    · cases hstep
      exact habandon
    · split at hstep
      · cases hstep
      · rename_i fs hcreate
        cases hstep
        obtain ⟨-, -, hget⟩ := FileSystem.create_some hcreate
        refine ⟨active, pending_advances h hi howned hpublished (fun p hp => ?_) hsound rfl nofun
          fun _ => id⟩
        rw [hget, if_neg hp]
  · rw [htask] at hsound hstep
    simp only [Gates.advance] at hstep
    split at hstep
    · cases hstep
      exact habandon
    · cases hstep
      refine ⟨active, pending_advances h hi howned hpublished (fun p hp => ?_)
        ⟨hsound.1, hsound.2.1, hsound.2.2, fun n hn => ?_⟩ rfl nofun fun _ => id⟩
      · rw [FileSystem.get?_write, if_neg hp]
      · rw [FileSystem.get?_write, if_pos rfl] at hn
        obtain ⟨m, -, hm⟩ := Option.map_eq_some_iff.mp hn
        rw [← hm]
  · rw [htask] at hstep
    simp only [Gates.advance] at hstep
    split at hstep
    · cases hstep
      exact habandon
    · split at hstep
      · cases hstep
        exact habandon
      · rename_i fs hrename
        cases hstep
        exact ⟨some (i, g), publish_advances h hi htask halive hrename⟩

/-- The step that returns a gate. -/
theorem published_advances (h : Safe s active) (hi : s.operations.get? i = some op)
    (halive : op.process ∉ s.dead) {g : State} (htask : op.task = .published g) :
    Advances s active i op.process op.task { s with acts := s.acts ++ [.returned i g] } active
      (.gate g .active false) := by
  have hsound := h.sound i op hi
  rw [htask] at hsound
  have hactive := hsound.2.2 halive
  have howned : owned op.task = some g.leaseToken := by rw [htask]; rfl
  exact
    { shared :=
        { ledger := h.shared.ledger.snoc ⟨hactive, rfl⟩
          stored := h.shared.stored
          kept := h.shared.kept
          tokens := h.shared.tokens
          root := h.shared.root }
      later := .quiet (List.subset_append_left ..) (List.Subset.refl _) (List.Subset.refl _) id rfl
        fun _ _ _ _ _ _ => rfl
      regated := .refl _
      sound := mem_snoc.mpr (.inr rfl)
      drawn := fun t ht => by
        have ht : owned op.task = some t := howned.trans ht
        obtain ⟨hmem, huuid⟩ := h.drawn i op t hi ht
        exact ⟨hmem, huuid, .inl ht⟩
      origin := fun j g' hj => by
        rcases mem_snoc.mp hj with hj | hj
        · exact .inl hj
        · cases hj
      keeps := fun g' hg => by
        rw [htask] at hg
        exact hg
      fresh := nofun
      retires := fun _ => False.elim }

/-- A step that releases a lease only the operation counts on. -/
theorem Advances.release {process : Process} {t : String} (h : Safe s active)
    (hi : s.operations.get? i = some op) (hyields : Yields s s' process t)
    (hothers : ∀ j op', j ≠ i → s.operations.get? j = some op' → held op'.task ≠ some t)
    (hsound : TaskSound s' active i op.process task') (howned : owned task' = none)
    (hpublished : ∀ g, ¬ HasPublished g op.task)
    (hretires : ∀ g, Retires g task' → Abandoned s g) :
    Advances s active i op.process op.task s' active task' := by
  refine .plain h hi (fun t => by rw [hyields.fs]) hyields.acts (hyields.later hothers)
    hyields.regated hsound (fun t ht => ?_) hpublished (fun g hg => ?_) hretires
  · cases howned.symm.trans ht
  · rw [hg] at howned
    cases howned

theorem abandoning_advances (h : Safe s active) (hi : s.operations.get? i = some op) {t : String}
    (htask : op.task = .abandoning t) (outcome : LeaseOutcome) :
    Advances s active i op.process op.task (s.releaseLease op.process t outcome).1 active
      .finished := by
  have howned : owned op.task = some t := by rw [htask]; rfl
  have hpublished : ∀ g, ¬ HasPublished g op.task := fun g => by rw [htask]; exact id
  exact .release h hi (releaseLease_yields s op.process t outcome) (h.not_held hi howned) trivial rfl
    hpublished fun _ => False.elim

/-- The first step of a release or a quarantine gives up the lease of its gate. -/
theorem gate_advances (h : Safe s active) (hi : s.operations.get? i = some op) {gate : Nat}
    {choice : Choice} (htask : op.task = .releasing gate ∨ op.task = .quarantining gate)
    {scopeId : String} (hstep : s.advance scopeId i op.process choice op.task = some (s', task')) :
    ∃ active', Advances s active i op.process op.task s' active' task' := by
  have hpublished : ∀ g, ¬ HasPublished g op.task := by
    intro g
    rcases htask with htask | htask <;> rw [htask] <;> exact id
  have hothers : ∀ {process g terminal receipt},
      s.operations.get? gate = some ⟨process, .gate g terminal receipt⟩ →
      ∀ j op', j ≠ i → s.operations.get? j = some op' → held op'.task ≠ some g.leaseToken := by
    intro process g terminal receipt hgate j op' _ hj hheld
    have heq : j = gate := h.apart j gate op' _ _ hj hgate (owned_of_held hheld) rfl
    subst heq
    cases hj.symm.trans hgate
    cases hheld
  rcases htask with htask | htask
  · rw [htask] at hstep
    simp only [Gates.advance] at hstep
    split at hstep
    · cases hstep
    · rename_i s₁ g hrelease
      cases hstep
      obtain ⟨process, terminal, receipt, hgate, hyields⟩ := releaseGateLease_yields hrelease
      have hmem := (recorded h.shared.ledger).returned gate g (h.sound gate _ hgate)
      refine ⟨active, .release h hi hyields (hothers hgate) ⟨gate, hyields.acts ▸ hmem, rfl⟩ rfl
        hpublished fun g' hg => ?_⟩
      cases hg
      intro j op' hj htask'
      have heq : j = gate := by
        refine h.apart j gate op' _ g.leaseToken hj hgate ?_ rfl
        rw [htask']
        rfl
      subst heq
      cases hj.symm.trans hgate
      cases htask'
    · rename_i s₁ g hrelease
      cases hstep
      obtain ⟨process, terminal, receipt, hgate, hyields⟩ := releaseGateLease_yields hrelease
      exact ⟨active, .release h hi hyields (hothers hgate) trivial rfl hpublished fun _ => False.elim⟩
  · rw [htask] at hstep
    simp only [Gates.advance] at hstep
    split at hstep
    · cases hstep
    · rename_i s₁ g hrelease
      cases hstep
      obtain ⟨process, terminal, receipt, hgate, hyields⟩ := releaseGateLease_yields hrelease
      exact ⟨active, .release h hi (hyields.quarantined gate) (hothers hgate) trivial rfl hpublished
        fun _ => False.elim⟩
    · rename_i s₁ g hrelease
      cases hstep
      obtain ⟨process, terminal, receipt, hgate, hyields⟩ := releaseGateLease_yields hrelease
      exact ⟨active, .release h hi hyields (hothers hgate) trivial rfl hpublished fun _ => False.elim⟩

/-- The read of a recovery ends with the generation its proof names, while no live
acquirer holds the lease. -/
theorem inspecting_advances (h : Safe s active) (hi : s.operations.get? i = some op)
    (halive : op.process ∉ s.dead) {choice : Choice}
    {proof : WindowsExecutionGuiGateRecoveryProof} {t : String} {read : GateRead}
    (htask : op.task = .inspecting proof t read) {scopeId : String}
    (hstep : s.advance scopeId i op.process choice op.task = some (s', task')) :
    ∃ active', Advances s active i op.process op.task s' active' task' := by
  have hsound := h.sound i op hi
  rw [htask] at hsound
  obtain ⟨hholds, hread⟩ := hsound
  have howned : owned op.task = some t := by rw [htask]; rfl
  have hpublished : ∀ g, ¬ HasPublished g op.task := fun g => by rw [htask]; exact id
  have habandon : ∃ active', Advances s active i op.process op.task s active' (.abandoning t) :=
    ⟨active, .stay h hi trivial (fun _ ht => howned.trans ht) hpublished nofun fun _ => False.elim⟩
  obtain ⟨hnext, hstate⟩ := readGateState_sound h.shared choice.ioError hread
  rw [htask] at hstep
  simp only [Gates.advance] at hstep
  split at hstep
  · rename_i read' heq
    cases hstep
    exact ⟨active, .stay h hi ⟨hholds, hnext read' heq⟩ (fun _ ht => howned.trans ht) hpublished nofun
      fun _ => False.elim⟩
  · rename_i observed heq
    split at hstep
    · cases hstep
      exact habandon
    · rename_i hguard
      rw [not_or, not_or, not_not, not_not] at hguard
      cases hstep
      obtain ⟨k, hk⟩ := hstate observed heq
      refine ⟨active, .stay h hi ⟨k, hk, hguard.2.1.symm⟩ (fun _ ht => howned.trans ht) hpublished
        nofun fun g hg => ?_⟩
      intro j op' hj htask'
      -- an acquirer that published and lives would hold the lease this recovery holds
      by_contra halive'
      have hsound' := h.sound j op' hj
      rw [htask'] at hsound'
      have hlease := hsound'.1 halive'
      rw [hholds halive] at hlease
      have htoken : t = g.leaseToken := congrArg Lease.leaseToken (Option.some.inj hlease)
      have howned' : owned op'.task = some t := by
        rw [htask', htoken]
        rfl
      have heq : i = j := h.apart i j op op' t hi hj howned howned'
      subst heq
      cases hi.symm.trans hj
      cases htask.symm.trans htask'
  · cases hstep
    exact habandon
  · cases hstep
    exact habandon

/-- A step of a retirement renames, or leaves the state as it is. -/
theorem retireGateState_cases (s : Gates) (cause : Cause) (g : State) (ioError : Bool)
    (stage : Retire) : (s.retireGateState cause g ioError stage).1 = s ∨
      ∃ node fs, stage = .moving ∧ s.fs.get? (.active g.leaseToken) = some node ∧
        s.fs.rename (fun _ => true) (.active g.leaseToken) (cause.path g.leaseToken) = some fs ∧
        s.retireGateState cause g ioError stage =
          ({ s with fs, acts := s.acts ++ [.retired cause g node.content] },
            .inl (.proving .inspecting)) := by
  cases stage with
  | rooting => exact .inl rfl
  | reading read =>
    simp only [Gates.retireGateState]
    split <;> exact .inl rfl
  | moving =>
    simp only [Gates.retireGateState]
    split
    · exact .inl rfl
    · rename_i node hnode
      split
      · exact .inl rfl
      · split
        · exact .inl rfl
        · rename_i fs hrename
          exact .inr ⟨node, fs, trivial, hnode, hrename, rfl⟩
  | proving read =>
    simp only [Gates.retireGateState]
    split <;> exact .inl rfl

/-- The steps of a retirement. -/
theorem retiring_advances (h : Safe s active) (hi : s.operations.get? i = some op)
    {choice : Choice} {cause : Cause} {g : State} {stage : Retire}
    (htask : op.task = .retiring cause g stage) {scopeId : String}
    (hstep : s.advance scopeId i op.process choice op.task = some (s', task')) :
    ∃ active', Advances s active i op.process op.task s' active' task' := by
  have hsound := h.sound i op hi
  rw [htask] at hsound
  have hpublished : ∀ g, ¬ HasPublished g op.task := fun g => by rw [htask]; exact id
  have hfinish : Advances s active i op.process op.task s active .finished :=
    .stay h hi trivial nofun hpublished nofun fun _ => False.elim
  have hstay : ∀ stage', Advances s active i op.process op.task s active
      (.retiring cause g stage') := by
    intro stage'
    refine .stay h hi hsound nofun hpublished nofun fun g' hg => ?_
    refine h.abandoned i op g' hi ?_
    rw [htask]
    exact hg
  have hretired : Advances s active i op.process op.task (s.retired cause) active .finished := by
    unfold Gates.retired
    split
    · exact hfinish
    · split
      · rename_i hgate
        exact .plain h hi (fun _ => rfl) rfl (.quiet (List.Subset.refl _) (List.Subset.refl _)
          (List.Subset.refl _) id rfl fun _ _ _ _ _ _ => rfl) (.setGate hgate) trivial nofun
          hpublished nofun fun _ => False.elim
      · exact hfinish
  rw [htask] at hstep
  simp only [Gates.advance] at hstep
  rcases retireGateState_cases s cause g choice.ioError stage with hsame |
    ⟨node, fs, hstage, hnode, hrename, hresult⟩
  · split at hstep
    · rename_i heq
      rw [heq] at hsame
      cases hsame
      cases hstep
      exact ⟨active, hstay _⟩
    · rename_i heq
      rw [heq] at hsame
      cases hsame
      cases hstep
      exact ⟨active, hretired⟩
    · rename_i heq
      rw [heq] at hsame
      cases hsame
      cases hstep
      exact ⟨active, hfinish⟩
  · rw [hresult] at hstep
    cases hstep
    exact ⟨none, retire_advances h hi (hstage ▸ htask) hnode hrename⟩

/-- Every step of an operation of a live process. -/
theorem advance_spec (h : Safe s active) (hi : s.operations.get? i = some op)
    (halive : op.process ∉ s.dead) {choice : Choice} {scopeId : String}
    (hstep : s.advance scopeId i op.process choice op.task = some (s', task')) :
    ∃ active', Advances s active i op.process op.task s' active' task' := by
  cases htask : op.task with
  | acquiring =>
    rw [← htask]
    have hpublished : ∀ g, ¬ HasPublished g op.task := fun g => by rw [htask]; exact id
    rw [htask] at hstep
    simp only [Gates.advance] at hstep
    split at hstep
    · cases hstep
      exact ⟨active, .stay h hi trivial nofun hpublished nofun fun _ => False.elim⟩
    · obtain ⟨s₁, hacquire, heq⟩ := Option.map_eq_some_iff.mp hstep
      cases heq
      exact ⟨active, .acquire h hacquire (fun hlease _ => hlease) rfl hpublished nofun
        fun _ => False.elim⟩
  | recovering proof =>
    rw [← htask]
    have hpublished : ∀ g, ¬ HasPublished g op.task := fun g => by rw [htask]; exact id
    rw [htask] at hstep
    simp only [Gates.advance] at hstep
    split at hstep
    · cases hstep
      exact ⟨active, .stay h hi trivial nofun hpublished nofun fun _ => False.elim⟩
    · obtain ⟨s₁, hacquire, heq⟩ := Option.map_eq_some_iff.mp hstep
      cases heq
      exact ⟨active, .acquire h hacquire (fun hlease => ⟨fun _ => hlease, trivial⟩) rfl hpublished
        nofun fun _ => False.elim⟩
  | checking t read => exact htask ▸ checking_advances h hi htask hstep
  | preparing t =>
    have hsound := h.sound i op hi
    rw [htask] at hsound
    rw [← htask]
    have howned : owned op.task = some t := by rw [htask]; rfl
    have hpublished : ∀ g, ¬ HasPublished g op.task := fun g => by rw [htask]; exact id
    rw [htask] at hstep
    simp only [Gates.advance] at hstep
    split at hstep
    · cases hstep
      exact ⟨active, .stay h hi trivial (fun _ ht => howned.trans ht) hpublished nofun
        fun _ => False.elim⟩
    · cases hstep
      exact ⟨active, .plain h hi (fun _ => rfl) rfl (.quiet (List.Subset.refl _)
        (List.Subset.refl _) (List.Subset.refl _) (fun _ => rfl) rfl fun _ _ _ _ _ _ => rfl)
        (.refl _) ⟨hsound.1, hsound.2, rfl⟩ (fun _ ht => howned.trans ht) hpublished nofun
        fun _ => False.elim⟩
  | rechecking g read => exact htask ▸ rechecking_advances h hi htask hstep
  | opening g => exact htask ▸ writing_advances h hi halive (.inl htask) hstep
  | writing g => exact htask ▸ writing_advances h hi halive (.inr (.inl htask)) hstep
  | moving g => exact htask ▸ writing_advances h hi halive (.inr (.inr htask)) hstep
  | published g =>
    rw [← htask]
    rw [htask] at hstep
    cases hstep
    exact ⟨active, published_advances h hi halive htask⟩
  | abandoning t =>
    rw [← htask]
    rw [htask] at hstep
    cases hstep
    exact ⟨active, abandoning_advances h hi htask _⟩
  | releasing gate => exact htask ▸ gate_advances h hi (.inl htask) hstep
  | quarantining gate => exact htask ▸ gate_advances h hi (.inr htask) hstep
  | inspecting proof t read => exact htask ▸ inspecting_advances h hi halive htask hstep
  | yielding proof t g =>
    have hsound := h.sound i op hi
    rw [htask] at hsound
    rw [← htask]
    have howned : owned op.task = some t := by rw [htask]; rfl
    have hpublished : ∀ g, ¬ HasPublished g op.task := fun g => by rw [htask]; exact id
    have habandoned := h.abandoned i op g hi (by rw [htask]; rfl)
    obtain ⟨k, hk, hlicense⟩ := hsound
    have hyields := releaseLease_yields s op.process t choice.leaseOutcome
    rw [htask] at hstep
    simp only [Gates.advance] at hstep
    split at hstep
    · rename_i s₁ heq
      rw [heq] at hyields
      have hacts : s₁.acts = s.acts := hyields.acts
      cases hstep
      exact ⟨active, .release h hi hyields (h.not_held hi howned) ⟨k, hacts ▸ hk, hlicense⟩ rfl
        hpublished fun g' hg => hg ▸ habandoned⟩
    · rename_i s₁ heq
      rw [heq] at hyields
      cases hstep
      exact ⟨active, .release h hi hyields (h.not_held hi howned) trivial rfl hpublished
        fun _ => False.elim⟩
  | retiring cause g stage => exact htask ▸ retiring_advances h hi htask hstep
  | observing read =>
    rw [← htask]
    have hpublished : ∀ g, ¬ HasPublished g op.task := fun g => by rw [htask]; exact id
    rw [htask] at hstep
    simp only [Gates.advance] at hstep
    split at hstep
    · cases hstep
      exact ⟨active, .stay h hi trivial nofun hpublished nofun fun _ => False.elim⟩
    · cases hstep
      exact ⟨active, .stay h hi trivial nofun hpublished nofun fun _ => False.elim⟩
  | gate g terminal receipt =>
    rw [htask] at hstep
    cases hstep
  | finished =>
    rw [htask] at hstep
    cases hstep

end Steps

/-! ## Every reachable state -/

/-- Another operation begins. -/
theorem Safe.begin {s s' : Gates} {active : Option (Nat × State)} (h : Safe s active) {i : Nat}
    {process : Process} {task : Task} (hbegin : begin' s i process task = some s')
    (hsound : TaskSound s' active i process task) (howned : owned task = none)
    (hretires : ∀ g, ¬ Retires g task) : Safe s' active := by
  unfold begin' at hbegin
  split at hbegin
  · cases hbegin
  · rename_i hguard
    rw [not_or] at hguard
    cases hbegin
    have hnone : s.operations.get? i = none := by
      cases hold : s.operations.get? i with
      | none => rfl
      | some op => exact absurd (OrderedMap.has_eq_true_iff.mpr ⟨op, hold⟩) hguard.2
    have hget : ∀ j op, (s.operations.set i ⟨process, task⟩).get? j = some op →
        j = i ∧ op = ⟨process, task⟩ ∨ j ≠ i ∧ s.operations.get? j = some op := by
      intro j op hj
      rw [OrderedMap.get?_set] at hj
      split at hj
      · rename_i heq
        exact .inl ⟨heq, (Option.some.inj hj).symm⟩
      · rename_i hne
        exact .inr ⟨hne, hj⟩
    refine ⟨h.shared.of_paths (fun _ => rfl) rfl id, fun j op hj => ?_, fun j op t hj ht => ?_,
      fun j k op op' t hj hk ht ht' => ?_, fun j g hj => ?_, fun j op g hj hg => ?_⟩
    · rcases hget j op hj with ⟨rfl, rfl⟩ | ⟨hne, hj⟩
      · exact hsound
      · exact (h.sound j op hj).extend (i := i) (.quiet (List.Subset.refl _) (List.Subset.refl _)
          (List.Subset.refl _) id rfl fun _ _ _ _ _ _ => rfl) hne hj
    · rcases hget j op hj with ⟨-, rfl⟩ | ⟨-, hj⟩
      · cases howned.symm.trans ht
      · exact h.drawn j op t hj ht
    · rcases hget j op hj with ⟨-, rfl⟩ | ⟨-, hj⟩
      · cases howned.symm.trans ht
      · rcases hget k op' hk with ⟨-, rfl⟩ | ⟨-, hk⟩
        · cases howned.symm.trans ht'
        · exact h.apart j k op op' t hj hk ht ht'
    · obtain ⟨op, hop, hpublished⟩ := h.origin j g hj
      refine ⟨op, ?_, hpublished⟩
      show (s.operations.set i ⟨process, task⟩).get? j = some op
      rw [OrderedMap.get?_set, if_neg]
      · exact hop
      · intro heq
        rw [heq, hnone] at hop
        cases hop
    · rcases hget j op hj with ⟨-, rfl⟩ | ⟨-, hj⟩
      · exact absurd hg (hretires g)
      · intro k op' hk htask
        rcases hget k op' hk with ⟨-, rfl⟩ | ⟨-, hk⟩
        · have htask : task = .published g := htask
          rw [htask] at howned
          cases howned
        · exact h.abandoned j op g hj hg k op' hk htask

/-- An operation takes a step; the others keep what they know. -/
theorem Safe.advance {s s' : Gates} {active : Option (Nat × State)} (h : Safe s active) {i : Nat}
    {op : Operation} (hi : s.operations.get? i = some op) (halive : op.process ∉ s.dead)
    {choice : Choice} {scopeId : String} {task : Task}
    (hstep : s.advance scopeId i op.process choice op.task = some (s', task)) :
    ∃ active', Safe (s'.setGate i op.process task) active' := by
  obtain ⟨active', hadvances⟩ := advance_spec h hi halive hstep
  have hget : ∀ j op', (s'.operations.set i ⟨op.process, task⟩).get? j = some op' →
      j = i ∧ op' = ⟨op.process, task⟩ ∨ j ≠ i ∧ ∃ old, s.operations.get? j = some old ∧
        Like old op' := by
    intro j op' hj
    rw [OrderedMap.get?_set] at hj
    split at hj
    · rename_i heq
      exact .inl ⟨heq, (Option.some.inj hj).symm⟩
    · rename_i hne
      exact .inr ⟨hne, hadvances.regated.back hj⟩
  have hfresh : ∀ j old t, j ≠ i → s.operations.get? j = some old → owned old.task = some t →
      owned task ≠ some t := by
    intro j old t hne hj ht htask
    rcases (hadvances.drawn t htask).2.2 with hown | hnew
    · exact hne (h.apart j i old op t hj hi ht hown)
    · exact hnew (h.drawn j old t hj ht).1
  refine ⟨active', hadvances.shared.of_paths (fun _ => rfl) rfl id, fun j op' hj => ?_,
    fun j op' t hj ht => ?_, fun j k op₁ op₂ t hj hk ht ht' => ?_, fun j g hj => ?_,
    fun j op' g hj hg => ?_⟩
  · rcases hget j op' hj with ⟨rfl, rfl⟩ | ⟨hne, old, hold, hlike⟩
    · exact hadvances.sound
    · have hold' := (h.sound j old hold).extend hadvances.later hne hold
      exact hlike.sound hold'
  · rcases hget j op' hj with ⟨-, rfl⟩ | ⟨-, old, hold, hlike⟩
    · exact ⟨(hadvances.drawn t ht).1, (hadvances.drawn t ht).2.1⟩
    · obtain ⟨hmem, huuid⟩ := h.drawn j old t hold (hlike.owned.trans ht)
      exact ⟨hadvances.later.leaseTokens hmem, huuid⟩
  · rcases hget j op₁ hj with ⟨hji, rfl⟩ | ⟨hji, old₁, hold₁, hlike₁⟩
    · rcases hget k op₂ hk with ⟨hki, rfl⟩ | ⟨hki, old₂, hold₂, hlike₂⟩
      · exact hji.trans hki.symm
      · exact absurd ht (hfresh k old₂ t hki hold₂ (hlike₂.owned.trans ht'))
    · rcases hget k op₂ hk with ⟨hki, rfl⟩ | ⟨hki, old₂, hold₂, hlike₂⟩
      · exact absurd ht' (hfresh j old₁ t hji hold₁ (hlike₁.owned.trans ht))
      · exact h.apart j k old₁ old₂ t hold₁ hold₂ (hlike₁.owned.trans ht) (hlike₂.owned.trans ht')
  · have hset : ∀ k, (s'.setGate i op.process task).operations.get? k =
        if k = i then some ⟨op.process, task⟩ else s'.operations.get? k := fun _ =>
      OrderedMap.get?_set
    rw [hset]
    by_cases hji : j = i
    · refine ⟨_, if_pos hji, ?_⟩
      rcases hadvances.origin j g hj with hj | ⟨-, hpublished⟩
      · obtain ⟨old, hold, hpublished⟩ := h.origin j g hj
        rw [hji] at hold
        cases hold.symm.trans hi
        exact hadvances.keeps g hpublished
      · exact hpublished
    · rcases hadvances.origin j g hj with hj | ⟨heq, -⟩
      · obtain ⟨old, hold, hpublished⟩ := h.origin j g hj
        obtain ⟨op', hop', hlike⟩ := hadvances.regated.forth hold
        exact ⟨op', (if_neg hji).trans hop', hlike.published hpublished⟩
      · exact absurd heq hji
  · have hsettled : Abandoned s g ∧ ((∃ k, .published k g ∈ s.acts) ∨ ∀ g', task ≠ .published g') := by
      rcases hget j op' hj with ⟨-, rfl⟩ | ⟨-, old, hold, hlike⟩
      · refine ⟨hadvances.retires g hg, .inr fun g' htask => ?_⟩
        rw [show task = .published g' from htask] at hg
        exact hg
      · have hretires := hlike.retires hg
        exact ⟨h.abandoned j old g hold hretires,
          .inl ((h.sound j old hold).published_of_retires hretires)⟩
    intro k op₁ hk htask
    rcases hget k op₁ hk with ⟨-, rfl⟩ | ⟨-, old, hold, hlike⟩
    · rcases hsettled.2 with ⟨l, hl⟩ | hnot
      · exact absurd hl (hadvances.fresh g htask l)
      · exact absurd htask (hnot g)
    · have hdead := hsettled.1 k old hold (hlike.awaiting htask)
      rw [hlike.process] at hdead
      exact hadvances.later.dead hdead

theorem Safe.crash {s : Gates} {active : Option (Nat × State)} (h : Safe s active)
    (process : Process) : Safe { s with dead := s.dead ++ [process] } active := by
  have hdead : s.dead ⊆ s.dead ++ [process] := List.subset_append_left ..
  have hsound : ∀ i op, s.operations.get? i = some op →
      TaskSound { s with dead := s.dead ++ [process] } active i op.process op.task := by
    intro i op hi
    have hlater : Extends (i + 1) s active { s with dead := s.dead ++ [process] } active :=
      .quiet (List.Subset.refl _) hdead (List.Subset.refl _) id rfl fun _ _ _ _ _ _ => rfl
    exact (h.sound i op hi).extend hlater (by omega) hi
  exact ⟨h.shared.of_paths (fun _ => rfl) rfl id, hsound, h.drawn, h.apart, h.origin,
    fun i op g hi hg j op' hj htask => hdead (h.abandoned i op g hi hg j op' hj htask)⟩

theorem safe_next {scopeId : String} {s s' : Gates} {active : Option (Nat × State)}
    (h : Safe s active) {e : Event} (hstep : next scopeId s e = some s') :
    ∃ active', Safe s' active' := by
  have hcall : ∀ {operation gate : Nat} {task : Task},
      callGate s operation gate task = some s' → owned task = none →
      (∀ process, TaskSound s' active operation process task) → (∀ g, ¬ Retires g task) →
      ∃ active', Safe s' active' := by
    intro operation gate task hcall howned hsound hretires
    unfold callGate at hcall
    split at hcall
    · exact ⟨active, h.begin hcall (hsound _) howned hretires⟩
    · cases hcall
  cases e with
  | acquire i process => exact ⟨active, h.begin hstep trivial rfl fun _ => id⟩
  | release i gate => exact hcall hstep rfl (fun _ => trivial) fun _ => id
  | quarantine i gate => exact hcall hstep rfl (fun _ => trivial) fun _ => id
  | recover i process proof =>
    simp only [next] at hstep
    split at hstep
    · exact ⟨active, h.begin hstep trivial rfl fun _ => id⟩
    · cases hstep
  | observe i process => exact ⟨active, h.begin hstep trivial rfl fun _ => id⟩
  | step i choice =>
    simp only [next] at hstep
    split at hstep
    · cases hstep
    · rename_i op hi
      split at hstep
      · cases hstep
      · rename_i halive
        split at hstep
        · cases hstep
        · rename_i s₁ task heq
          cases hstep
          exact h.advance hi halive heq
  | crash process =>
    cases hstep
    exact ⟨active, h.crash process⟩

theorem safe_initial : Safe initial none := by
  have hfs : ∀ p, initial.fs.get? p = none := fun _ => rfl
  have hoperations : ∀ i, initial.operations.get? i = none := fun _ => rfl
  refine ⟨⟨.init rfl, fun t n hn => ?_, nofun, nofun, fun t n hn => ?_⟩, fun i op hi => ?_,
    fun i op t hi => ?_, fun i j op op' t hi => ?_, nofun, fun i op g hi => ?_⟩
  · cases (hfs _).symm.trans hn
  · cases (hfs _).symm.trans hn
  · cases (hoperations i).symm.trans hi
  · cases (hoperations i).symm.trans hi
  · cases (hoperations i).symm.trans hi
  · cases (hoperations i).symm.trans hi

theorem safe_invariant (scopeId : String) :
    (gates scopeId).Invariant fun s => ∃ active, Safe s active where
  init := fun _ hinit => hinit ▸ ⟨none, safe_initial⟩
  step := fun _ _ _ _ ⟨_, h⟩ hstep => safe_next h hstep

/-! ## The quarantine -/

/-- A generation that is not retired is at its active path. -/
theorem Safe.quarantined {s : Gates} {active : Option (Nat × State)} (h : Safe s active) {i : Nat}
    {g : State} (hi : .published i g ∈ s.acts) :
    (∃ n, s.fs.get? (.active g.leaseToken) = some n ∧ n.content = .written g) ∨
      ∃ cause moved, .retired cause g moved ∈ s.acts := by
  rcases (recorded h.shared.ledger).kept i g hi with hactive | hretired
  · exact .inl (h.shared.kept i g hactive)
  · exact .inr hretired

theorem Safe.one_active {s : Gates} {active : Option (Nat × State)} (h : Safe s active)
    {t t' : String} {n n' : FileSystem.Node GateFile} (hn : s.fs.get? (.active t) = some n)
    (hn' : s.fs.get? (.active t') = some n') : t = t' := by
  obtain ⟨i, g, hactive, ht, -⟩ := h.shared.stored t n hn
  obtain ⟨j, g', hactive', ht', -⟩ := h.shared.stored t' n' hn'
  cases hactive.symm.trans hactive'
  exact ht.symm.trans ht'

/-- In every reachable state: at most one generation is active; a gate returned after
a generation was published is that generation's own, or the generation was retired in
between; a retirement moved exactly the generation it is for, by the release of the
gate that published it or by a recovery whose proof names it; and a generation that
was not retired is still stored. -/
theorem gate_quarantine {scopeId : String} {s : Gates} (h : (gates scopeId).Reachable s) :
    (∀ t t' n n', s.fs.get? (.active t) = some n → s.fs.get? (.active t') = some n' → t = t') ∧
    (∀ i g terminal receipt process,
      s.operations.get? i = some ⟨process, .gate g terminal receipt⟩ → .returned i g ∈ s.acts) ∧
    (∀ pre mid post i j g g',
      s.acts = pre ++ .published i g :: (mid ++ .returned j g' :: post) →
      (j = i ∧ g' = g) ∨ ∃ cause moved, .retired cause g moved ∈ mid) ∧
    (∀ cause g moved, .retired cause g moved ∈ s.acts → moved = .written g ∧
      ∃ i, .published i g ∈ s.acts ∧ Licenses i g cause) ∧
    ∀ i g, .published i g ∈ s.acts →
      (∃ n, s.fs.get? (.active g.leaseToken) = some n ∧ n.content = .written g) ∨
      ∃ cause moved, .retired cause g moved ∈ s.acts := by
  obtain ⟨active, hsafe⟩ := (safe_invariant scopeId).reachable h
  refine ⟨fun t t' n n' hn hn' => hsafe.one_active hn hn', fun i g _ _ _ hi => hsafe.sound i _ hi,
    fun pre mid post i j g g' hacts => ?_, (recorded hsafe.shared.ledger).retired,
    fun i g hi => hsafe.quarantined hi⟩
  have hledger := hsafe.shared.ledger
  rw [hacts] at hledger
  exact returned_after_published hledger

/-! ### A recovery with an acquirer in its window -/

def demoScope : String := "windows-gui:00000000000000000000000000000000"

def demoToken (c : Char) : String :=
  "00000000-0000-4000-8000-00000000000" ++ String.singleton c

def demoChoice (ino : Nat) (token : Char) : Choice :=
  ⟨false, ino, demoToken token, 0, demoToken 'f', .released⟩

/-- One operation takes steps with the same choice. -/
def steps (operation count : Nat) (choice : Choice) : List Event :=
  List.replicate count (.step operation choice)

def demoProcess (pid : Nat) : Process := ⟨pid, "boot-1"⟩

def demoState (token : Char) : State := ⟨demoScope, demoToken token, 0⟩

def demoProof : WindowsExecutionGuiGateRecoveryProof := ⟨demoState '1', demoToken 'e', 0⟩

/-- Process 1 acquires the gate and crashes. The recovery by process 2 has released
its lease and is about to rename when process 3 tries to acquire, and later does. -/
def recoveredGate : List Event :=
  [.acquire 1 (demoProcess 1)] ++ steps 1 9 (demoChoice 10 '1') ++
    [.crash (demoProcess 1), .recover 2 (demoProcess 2) demoProof] ++
    steps 2 11 (demoChoice 20 '2') ++
    [.acquire 3 (demoProcess 3)] ++ steps 3 7 (demoChoice 30 '3') ++
    steps 2 4 (demoChoice 20 '2') ++
    [.acquire 4 (demoProcess 3)] ++ steps 4 10 (demoChoice 40 '4')

theorem recoveredGate_quarantine :
    let s := (System.replay (next demoScope) initial recoveredGate).get (by decide +kernel)
    s.operations.get? 3 = some ⟨demoProcess 3, .finished⟩ ∧
    s.operations.get? 4 = some ⟨demoProcess 3, .gate (demoState '4') .active false⟩ ∧
    s.acts = [.published 1 (demoState '1'), .returned 1 (demoState '1'),
      .retired (.recovered demoProof) (demoState '1') (.written (demoState '1')),
      .published 4 (demoState '4'), .returned 4 (demoState '4')] ∧
    ∀ t n, s.fs.get? (.active t) = some n → t = demoToken '4' := by
  intro s
  have h : (gates demoScope).Reachable s := System.reachable_of_replay (Option.some_get _).symm
  obtain ⟨hone, -⟩ := gate_quarantine h
  have hactive : (s.fs.get? (.active (demoToken '4'))).isSome = true := by decide +kernel
  obtain ⟨n', hn'⟩ := Option.isSome_iff_exists.mp hactive
  exact ⟨by decide +kernel, by decide +kernel, by decide +kernel,
    fun t n hn => hone t _ n n' hn hn'⟩

end SurfaceLoom.Test.ExecutionGateSafety
