import McManager.Framework.FileSystem

namespace McManager

open Framework

/-- What the host and its Python settle: the year of a time stamp, whether `Path.resolve` raises
on a loop of links (up to 3.12), and the characters `PureWindowsPath` takes for the name of a
drive (letters up to 3.11, any from 3.12 on). -/
structure Host where
  year : Int → Int
  loops : Bool
  drives : Char → Bool

/-- A member of an archive. -/
structure Member where
  filename : List Char
  content : List UInt8
  deriving DecidableEq, Repr

inductive ArchiveError
  | escapes
  | loop
  | unreadable
  | timestamp
  | exists
  deriving DecidableEq, Repr

/-- What a tree holds at a path. -/
inductive Item
  | directory
  | file (content : List UInt8)
  deriving DecidableEq, Repr

/-- The contents of a directory. -/
abbrev Tree := Path → Option Item

namespace BackupEngine

/-- `_is_within`. -/
def isWithin (path root : Path) : Bool := root.isPrefixOf path

/-- The names `create_archive` leaves out. -/
def excluded (name : String) : Bool :=
  decide (".part".toList <:+ name.toList) || name == "mcmanager.lock" || name == "mcmanager.pid"

/-- `relative_path.as_posix()`. -/
def asPosix (relative : List String) : List Char :=
  List.intercalate ['/'] (relative.map String.toList)

/-- The parts of a member name between its slashes. -/
def split (name : List Char) : List String := (name.splitOn '/').map String.ofList

/-- The drive of `PureWindowsPath(name)` is there; an absolute Windows path has one. -/
def windowsDrive (host : Host) : List Char → Bool
  | a :: b :: _ =>
    let separator := fun c : Char => c == '/' || c == '\\'
    separator a && separator b || host.drives a && b == ':'
  | _ => false

/-- `_validate_member_path` lets the name pass. -/
def validMemberPath (host : Host) (name : List Char) : Bool :=
  let posix := name.map fun c => if c = '\\' then '/' else c
  name ≠ [] && posix.head? ≠ some '/' && !windowsDrive host name && !(split posix).contains ".."

/-- `ZipFile.write`: the member that stores what is at `path`. -/
def write (host : Host) (fs : FileSystem) (path : Path) (arcname : List Char) :
    Except ArchiveError Member :=
  match fs.stat path with
  | some (.file content modified) =>
    -- The format holds the years from 1980 to 2107.
    if 1980 ≤ host.year modified ∧ host.year modified ≤ 2107 then .ok ⟨arcname, content⟩
    else .error .timestamp
  | some .directory => .ok ⟨arcname ++ ['/'], []⟩
  | _ => .error .unreadable

/-- One entry of `pending`. -/
structure Pending where
  directory : Path
  relativeDir : List String
  ancestors : List Path
  deriving DecidableEq, Repr

/-- The state of the loop of `create_archive`; the last entry of `pending` stands first. -/
structure Walk where
  pending : List Pending
  members : List Member
  skipped : Nat
  deriving DecidableEq, Repr

section Create

variable (host : Host) (fs : FileSystem) (root : Path)

/-- The body of the inner loop for one path of a directory. -/
def visit (p : Pending) (name : String) (w : Walk) : Except ArchiveError Walk :=
  let path := p.directory ++ [name]
  match fs.resolve host.loops path with
  | none => .ok { w with skipped := w.skipped + 1 }
  | some resolved =>
    if !isWithin resolved root then .ok { w with skipped := w.skipped + 1 }
    else if excluded name then .ok w
    else
      let relativePath := p.relativeDir ++ [name]
      if fs.isDir path then
        if resolved ∈ p.ancestors then .ok { w with skipped := w.skipped + 1 }
        else .ok { w with pending := ⟨path, relativePath, resolved :: p.ancestors⟩ :: w.pending }
      else
        match write host fs path (asPosix relativePath) with
        | .ok member => .ok { w with members := w.members ++ [member] }
        | .error e => .error e

/-- The inner loop. -/
def scan (p : Pending) : List String → Walk → Except ArchiveError Walk
  | [], w => .ok w
  | name :: names, w =>
    match visit host fs root p name w with
    | .ok w => scan p names w
    | .error e => .error e

/-- The outer loop; nothing comes back while there are still directories to visit after
`fuel` rounds. -/
def walk : Nat → Walk → Option (Except ArchiveError Walk)
  | 0, _ => none
  | fuel + 1, w =>
    match w.pending with
    | [] => some (.ok w)
    | p :: rest =>
      match scan host fs root p (fs.iterdir p.directory) { w with pending := rest } with
      | .ok w => walk fuel w
      | .error e => some (.error e)

end Create

/-- `verify_archive`; members are stored faithfully, so `testzip` finds none that is bad. -/
def verifyArchive (host : Host) (members : List Member) : Except ArchiveError Unit :=
  if members.all fun m => validMemberPath host m.filename then .ok () else .error .escapes

/-- `create_archive`: the members of the archive it publishes, and how many paths it skipped. -/
def createArchive (host : Host) (fs : FileSystem) (fuel : Nat) (sourceDir : Path) :
    Option (Except ArchiveError (List Member × Nat)) :=
  match fs.resolve host.loops sourceDir with
  | none => some (.error .loop)
  | some root =>
    match walk host fs root fuel ⟨[⟨sourceDir, [], [root]⟩], [], 0⟩ with
    | none => none
    | some (.error e) => some (.error e)
    | some (.ok w) =>
      match verifyArchive host w.members with
      | .ok () => some (.ok (w.members, w.skipped))
      | .error e => some (.error e)

/-- An empty directory. -/
def emptyDir : Tree := fun path => if path = [] then some .directory else none

def place (tree : Tree) (path : Path) (item : Item) : Tree :=
  fun p => if p = path then some item else tree p

/-- `makedirs`: the directories on the way from `path` through `parts`. -/
def makedirs (tree : Tree) (path : Path) : List String → Except ArchiveError Tree
  | [] => .ok tree
  | part :: rest =>
    match tree (path ++ [part]) with
    | some .directory => makedirs tree (path ++ [part]) rest
    | none => makedirs (place tree (path ++ [part]) .directory) (path ++ [part]) rest
    | some (.file _) => .error .exists

/-- `ZipFile._extract_member`. -/
def extractMember (tree : Tree) (m : Member) : Except ArchiveError Tree :=
  let parts := (split m.filename).filter fun part => part ≠ "" && part ≠ "." && part ≠ ".."
  if m.filename.getLast? = some '/' then makedirs tree [] parts
  else
    match makedirs tree [] parts.dropLast with
    | .error e => .error e
    | .ok tree =>
      match tree parts with
      | some .directory => .error .exists
      | _ => .ok (place tree parts (.file m.content))

def extractAll : Tree → List Member → Except ArchiveError Tree
  | tree, [] => .ok tree
  | tree, m :: members =>
    match extractMember tree m with
    | .ok tree => extractAll tree members
    | .error e => .error e

/-- `extract_archive` into the empty directory `targetDir`. -/
def extractArchive (host : Host) (targetDir : Path) (members : List Member) :
    Except ArchiveError Tree :=
  if members.all fun m => validMemberPath host m.filename &&
      isWithin (normalize targetDir (split m.filename)) targetDir then
    extractAll emptyDir members
  else .error .escapes

end BackupEngine

end McManager
