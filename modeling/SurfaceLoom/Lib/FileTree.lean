import SurfaceLoom.Lib.OrderedMap
import SurfaceLoom.Lib.Program

/-! # A tree of plain directories and files

The calls of a file system that succeed or fail by what is there. A path is the list of
its parts. A link is a second name of the same content, which nothing writes to later. -/
namespace SurfaceLoom.Lib.FileTree

abbrev Path := List String

inductive Node (K : Type)
  | directory
  | file (content : K)
  deriving DecidableEq

inductive Kind
  | directory
  | file
  deriving DecidableEq

variable {K : Type}

def Node.kind : Node K → Kind
  | .directory => .directory
  | .file _ => .file

abbrev Files (K : Type) := OrderedMap Path (Node K)

inductive Errno
  | ENOENT
  | EEXIST
  | ENOTEMPTY
  | ENOTDIR
  | EISDIR
  deriving DecidableEq

inductive Command (K : Type)
  | lstat (path : Path)
  | readFile (path : Path)
  | readdir (path : Path)
  | mkdir (path : Path)
  | openExclusive (path : Path) (empty : K)
  | writeFile (path : Path) (content : K)
  | link (existing path : Path)
  | unlink (path : Path)
  | removeForce (path : Path)
  | removeTree (path : Path)
  | rmdir (path : Path)

abbrev Reply : Command K → Type
  | .lstat _ => Except Errno Kind
  | .readFile _ => Except Errno K
  | .readdir _ => Except Errno (List (String × Kind))
  | _ => Except Errno Unit

/-- What is directly below the path, under its last part. -/
def children (files : Files K) (path : Path) : List (String × Kind) :=
  files.entries.filterMap fun entry =>
    match entry.1.getLast? with
    | some name => if entry.1.dropLast = path then some (name, entry.2.kind) else none
    | none => none

/-- A new path is free, and there is a directory to put it in. -/
def place (files : Files K) (path : Path) : Except Errno Unit :=
  if files.has path then .error .EEXIST
  else if path.dropLast = [] ∨ (files.get? path.dropLast).map Node.kind = some .directory then .ok ()
  else .error .ENOENT

def create (files : Files K) (path : Path) (node : Node K) : Except Errno Unit × Files K :=
  match place files path with
  | .ok () => (.ok (), files.set path node)
  | .error e => (.error e, files)

def perform (command : Command K) (files : Files K) : Reply command × Files K :=
  match command with
  | .lstat path =>
    match files.get? path with
    | some node => (.ok node.kind, files)
    | none => (.error .ENOENT, files)
  | .readFile path =>
    match files.get? path with
    | some (.file content) => (.ok content, files)
    | some .directory => (.error .EISDIR, files)
    | none => (.error .ENOENT, files)
  | .readdir path =>
    match files.get? path with
    | some .directory => (.ok (children files path), files)
    | some (.file _) => (.error .ENOTDIR, files)
    | none => (.error .ENOENT, files)
  | .mkdir path => create files path .directory
  | .openExclusive path empty => create files path (.file empty)
  | .writeFile path content =>
    match files.get? path with
    | some (.file _) => (.ok (), files.set path (.file content))
    | some .directory => (.error .EISDIR, files)
    | none => (.error .ENOENT, files)
  | .link existing path =>
    match files.get? existing with
    | some (.file content) => create files path (.file content)
    | some .directory => (.error .EISDIR, files)
    | none => (.error .ENOENT, files)
  | .unlink path =>
    match files.get? path with
    | some (.file _) => (.ok (), files.erase path)
    | some .directory => (.error .EISDIR, files)
    | none => (.error .ENOENT, files)
  | .removeForce path =>
    match files.get? path with
    | some (.file _) => (.ok (), files.erase path)
    | some .directory => (.error .EISDIR, files)
    | none => (.ok (), files)
  | .removeTree path =>
    match files.get? path with
    | some _ => (.ok (), files.filter fun p _ => !(path.isPrefixOf p))
    | none => (.error .ENOENT, files)
  | .rmdir path =>
    match files.get? path with
    | some .directory =>
      if children files path = [] then (.ok (), files.erase path) else (.error .ENOTEMPTY, files)
    | some (.file _) => (.error .ENOTDIR, files)
    | none => (.error .ENOENT, files)

/-! ## What is listed -/

theorem mem_children {files : Files K} {path : Path} {name : String} {kind : Kind} :
    (name, kind) ∈ children files path ↔
      ∃ node, files.get? (path ++ [name]) = some node ∧ node.kind = kind := by
  unfold children
  rw [List.mem_filterMap]
  constructor
  · intro h
    obtain ⟨⟨p, node⟩, hmem, hname⟩ := h
    split at hname
    · rename_i last hlast
      split at hname
      · rename_i hparent
        cases hname
        refine ⟨node, OrderedMap.get?_eq_some_iff.mpr ?_, rfl⟩
        rw [← hparent, List.dropLast_append_getLast? _ hlast]
        exact hmem
      · cases hname
    · cases hname
  · intro h
    obtain ⟨node, hnode, rfl⟩ := h
    refine ⟨(path ++ [name], node), OrderedMap.get?_eq_some_iff.mp hnode, ?_⟩
    simp

/-- A name is listed once. -/
theorem children_nodup (files : Files K) (path : Path) :
    ((children files path).map Prod.fst).Nodup := by
  have hkeys := files.nodup
  unfold children
  generalize files.entries = entries at hkeys
  induction entries with
  | nil => exact List.nodup_nil
  | cons entry rest ih =>
    rw [List.map_cons, List.nodup_cons] at hkeys
    obtain ⟨hfresh, hrest⟩ := hkeys
    rw [List.filterMap_cons]
    split
    · exact ih hrest
    · rename_i found hfound
      rw [List.map_cons, List.nodup_cons]
      refine ⟨fun hmem => hfresh ?_, ih hrest⟩
      obtain ⟨found', hmem, hname⟩ := List.mem_map.mp hmem
      obtain ⟨entry', hentry', hfound'⟩ := List.mem_filterMap.mp hmem
      refine List.mem_map.mpr ⟨entry', hentry', ?_⟩
      split at hfound
      · rename_i last hlast
        split at hfound
        · rename_i hparent
          split at hfound'
          · rename_i last' hlast'
            split at hfound'
            · rename_i hparent'
              cases hfound
              cases hfound'
              have hname : last' = last := hname
              rw [← List.dropLast_append_getLast? _ hlast', ← List.dropLast_append_getLast? _ hlast,
                hparent, hparent', hname]
            · cases hfound'
          · cases hfound'
        · cases hfound
      · cases hfound

end SurfaceLoom.Lib.FileTree
