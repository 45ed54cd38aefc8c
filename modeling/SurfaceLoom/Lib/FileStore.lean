import SurfaceLoom.Lib.OrderedMap
import SurfaceLoom.Lib.Program

/-! # Files that are replaced by renaming

Directories that exist throughout, with files in them, and the calls that read,
create, move and remove one file. -/
namespace SurfaceLoom.Lib.FileStore

abbrev Bytes := List UInt8

/-- A name in a directory. -/
structure Place where
  directory : String
  name : String
  deriving DecidableEq

inductive Node
  | file (content : Bytes)
  | directory
  deriving DecidableEq

abbrev Files := OrderedMap Place Node

inductive Errno
  | ENOENT
  | EEXIST
  | EISDIR
  | ENOTDIR
  deriving DecidableEq

structure Stats where
  isFile : Bool
  size : Nat

inductive Command
  | stat (place : Place)
  | readFile (place : Place)
  | readdir (directory : String)
  | unlink (place : Place)
  /-- Creates the file, which must not exist. -/
  | writeNew (place : Place) (content : Bytes)
  | rename (source target : Place)

abbrev Reply : Command → Type
  | .stat _ => Except Errno Stats
  | .readFile _ => Except Errno Bytes
  | .readdir _ => List String
  | _ => Except Errno Unit

def Node.stats : Node → Stats
  | .file content => ⟨true, content.length⟩
  | .directory => ⟨false, 0⟩

def names (files : Files) (directory : String) : List String :=
  (files.keys.filter fun place => place.directory = directory).map Place.name

/-- What a node may be moved over. -/
def replaceable (node : Node) : Option Node → Except Errno Unit
  | none => .ok ()
  | some .directory => .error .EISDIR
  | some (.file _) => if node = .directory then .error .ENOTDIR else .ok ()

def perform (command : Command) (files : Files) : Reply command × Files :=
  match command with
  | .stat place =>
    match files.get? place with
    | some node => (.ok node.stats, files)
    | none => (.error .ENOENT, files)
  | .readFile place =>
    match files.get? place with
    | some (.file content) => (.ok content, files)
    | some .directory => (.error .EISDIR, files)
    | none => (.error .ENOENT, files)
  | .readdir directory => (names files directory, files)
  | .unlink place =>
    match files.get? place with
    | some (.file _) => (.ok (), files.erase place)
    | some .directory => (.error .EISDIR, files)
    | none => (.error .ENOENT, files)
  | .writeNew place content =>
    if files.has place then (.error .EEXIST, files)
    else (.ok (), files.set place (.file content))
  | .rename source target =>
    match files.get? source with
    | none => (.error .ENOENT, files)
    | some node =>
      match replaceable node (files.get? target) with
      | .ok () => (.ok (), (files.erase source).set target node)
      | .error e => (.error e, files)

/-! ## What is listed -/

theorem mem_names {files : Files} {directory name : String} :
    name ∈ names files directory ↔ ∃ node, files.get? ⟨directory, name⟩ = some node := by
  unfold names
  rw [List.mem_map]
  constructor
  · intro h
    obtain ⟨place, hplace, rfl⟩ := h
    obtain ⟨hkey, hdirectory⟩ := List.mem_filter.mp hplace
    obtain ⟨node, hnode⟩ := OrderedMap.mem_keys_iff.mp hkey
    obtain rfl : place.directory = directory := by simpa using hdirectory
    exact ⟨node, hnode⟩
  · intro h
    obtain ⟨node, hnode⟩ := h
    refine ⟨⟨directory, name⟩, List.mem_filter.mpr ⟨?_, by simp⟩, rfl⟩
    exact OrderedMap.mem_keys_iff.mpr ⟨node, hnode⟩

theorem names_nodup (files : Files) (directory : String) : (names files directory).Nodup := by
  unfold names
  refine List.Nodup.map_on ?_ (files.keys_nodup.filter _)
  intro a ha b hb hname
  have hadirectory : a.directory = directory := by simpa using (List.mem_filter.mp ha).2
  have hbdirectory : b.directory = directory := by simpa using (List.mem_filter.mp hb).2
  obtain ⟨_, _⟩ := a
  obtain ⟨_, _⟩ := b
  cases hadirectory
  cases hbdirectory
  cases hname
  rfl

/-! ## What changes -/

/-- Nothing changes but at these places. -/
def Only (places : List Place) (files files' : Files) : Prop :=
  ∀ place, place ∉ places → files'.get? place = files.get? place

theorem Only.refl (places : List Place) (files : Files) : Only places files files :=
  fun _ _ => rfl

theorem Only.trans {places : List Place} {a b c : Files} (h : Only places a b)
    (h' : Only places b c) : Only places a c :=
  fun place hplace => (h' place hplace).trans (h place hplace)

theorem Only.mono {places places' : List Place} {a b : Files} (h : Only places a b)
    (hsub : ∀ place ∈ places, place ∈ places') : Only places' a b :=
  fun place hplace => h place fun hmem => hplace (hsub place hmem)

/-- The places a call may change. -/
def Command.changes : Command → List Place
  | .stat _ | .readFile _ | .readdir _ => []
  | .unlink place => [place]
  | .writeNew place _ => [place]
  | .rename source target => [source, target]

theorem perform_only (command : Command) (files : Files) :
    Only command.changes files (perform command files).2 := by
  intro place hplace
  cases command with
  | stat p | readFile p =>
    simp only [perform]
    split <;> rfl
  | readdir directory => rfl
  | unlink p =>
    have hne : place ≠ p := by simpa [Command.changes] using hplace
    simp only [perform]
    split
    · exact OrderedMap.get?_erase.trans (if_neg hne)
    · rfl
    · rfl
  | writeNew p content =>
    have hne : place ≠ p := by simpa [Command.changes] using hplace
    simp only [perform]
    split
    · rfl
    · exact OrderedMap.get?_set.trans (if_neg hne)
  | rename source target =>
    have hne : place ≠ source ∧ place ≠ target := by simpa [Command.changes] using hplace
    simp only [perform]
    split
    · rfl
    · split
      · rw [OrderedMap.get?_set, if_neg hne.2, OrderedMap.get?_erase, if_neg hne.1]
      · rfl

/-- A call that only reads. -/
def Command.reads (command : Command) : Prop := command.changes = []

theorem perform_reads {command : Command} (h : command.reads) (files : Files) :
    (perform command files).2 = files := by
  cases command with
  | stat p | readFile p =>
    simp only [perform]
    split <;> rfl
  | readdir directory => rfl
  | unlink p => cases h
  | writeNew p content => cases h
  | rename source target => cases h

end SurfaceLoom.Lib.FileStore
