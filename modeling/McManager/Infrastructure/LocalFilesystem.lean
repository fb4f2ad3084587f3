import McManager.Infrastructure.BackupEngine

namespace McManager.LocalFilesystem

open Framework BackupEngine

/-- `is_within`, which resolves both paths. -/
def isWithin (loops : Bool) (fs : FileSystem) (path root : Path) : Bool :=
  match fs.resolve loops path, fs.resolve loops root with
  | some resolvedPath, some resolvedRoot => resolvedRoot.isPrefixOf resolvedPath
  | _, _ => false

/-- `directory.iterdir()`, in no order. -/
def iterdir (fs : FileSystem) (directory : Path) : List String :=
  match fs.lookup.realpath true fs.depth [] [] directory with
  | .ok there => fs.names there
  | .error _ => []

/-- The state of the loop of `tree_size`; the last entry of `pending` stands first. The code keeps
neither the relative path of a pending directory nor the last two fields: where each path that it
came to leads, and the paths that it left out after an exception. -/
structure Measure where
  pending : List Pending
  total : Nat
  visited : List (List String × Path)
  unread : List Path

section TreeSize

variable (loops : Bool) (fs : FileSystem) (root : Path)

/-- The body of the inner loop for one item of a directory. -/
def measure (p : Pending) (name : String) (m : Measure) : Measure :=
  let item := p.directory ++ [name]
  match fs.resolve loops item with
  | none => { m with unread := m.unread ++ [item] }
  | some resolved =>
    let m := { m with visited := m.visited ++ [(p.relativeDir ++ [name], resolved)] }
    if !isWithin loops fs resolved root then m
    else if excluded name then m
    else if fs.isDir item then
      if resolved ∈ p.ancestors then m
      else
        { m with pending := ⟨item, p.relativeDir ++ [name], resolved :: p.ancestors⟩ :: m.pending }
    else
      match fs.stat item with
      | some (.file content _) => { m with total := m.total + content.length }
      | _ => { m with unread := m.unread ++ [item] }

/-- The inner loop. -/
def measureAll (p : Pending) : List String → Measure → Measure
  | [], m => m
  | name :: names, m => measureAll p names (measure loops fs root p name m)

/-- The outer loop, for so many rounds. -/
def measureTree : Nat → Measure → Option Measure
  | 0, _ => none
  | fuel + 1, m =>
    match m.pending with
    | [] => some m
    | p :: rest =>
      measureTree fuel (measureAll loops fs root p (iterdir fs p.directory) { m with pending := rest })

end TreeSize

/-- `tree_size`; its result is the `total`. -/
def treeSize (loops : Bool) (fs : FileSystem) (fuel : Nat) (path : Path) :
    Option (Except ArchiveError Measure) :=
  match fs.resolve loops path with
  | none => some (.error .loop)
  | some root => (measureTree loops fs root fuel ⟨[⟨path, [], [root]⟩], 0, [], []⟩).map .ok

end McManager.LocalFilesystem
