import McManager.Framework.DiskWrites
import McManager.Infrastructure.BackupEngine

namespace McManager.Unpacking

open Framework BackupEngine

/-- What reading a member gives: its content, nothing because it cannot be opened, or some bytes
before the data turn out to be bad. -/
inductive Data
  | whole (content : List UInt8)
  | locked
  | broken (read : List UInt8)
  deriving DecidableEq, Repr

/-- A member of an archive that comes from anywhere. -/
structure Packed where
  filename : List Char
  data : Data
  deriving DecidableEq, Repr

/-- `ZipFile.testzip` finds nothing bad in a member. -/
def Packed.intact (m : Packed) : Bool :=
  match m.data with
  | .whole _ => true
  | _ => false

/-- `verify_archive`; there are no members in what is no ZIP file. -/
def verifyArchive (host : Host) : Option (List Packed) → Except ArchiveError Unit
  | none => .error .unreadable
  | some members =>
    if !members.all fun m => validMemberPath host m.filename then .error .escapes
    else if !members.all Packed.intact then .error .unreadable
    else .ok ()

/-- The parts that `target_dir / member.filename` has below the target. -/
def joined (name : List Char) : List String :=
  (split name).filter fun part => part ≠ "" && part ≠ "."

/-- The parts that `ZipFile._extract_member` joins to the target. -/
def arcname (name : List Char) : List String :=
  (split name).filter fun part => part ≠ "" && part ≠ "." && part ≠ ".."

/-- The body of the loop of `extract_archive`. -/
def checkMember (host : Host) (fs : FileSystem) (targetDir root : Path) (m : Packed) :
    Except ArchiveError Unit :=
  if !validMemberPath host m.filename then .error .escapes
  else
    match fs.resolve host.loops (targetDir ++ joined m.filename) with
    | none => .error .loop
    | some destination => if isWithin destination root then .ok () else .error .escapes

/-- The loop of `extract_archive`. -/
def checkAll (host : Host) (fs : FileSystem) (targetDir root : Path) :
    List Packed → Except ArchiveError Unit
  | [] => .ok ()
  | m :: members =>
    match checkMember host fs targetDir root m with
    | .ok () => checkAll host fs targetDir root members
    | .error e => .error e

section Extract

variable (links : Nat) (now : Int)

/-- `os.makedirs`: the directories on the way from `path` that are not there. -/
def makedirs : Disk → Path → List String → Except ArchiveError Unit × Disk
  | disk, _, [] => (.ok (), disk)
  | disk, path, name :: rest =>
    if disk.reached links (path ++ [name]) then makedirs disk (path ++ [name]) rest
    else
      match disk.mkdir links path name with
      | some disk => makedirs disk (path ++ [name]) rest
      | none => (.error .exists, disk)

/-- `ZipFile._extract_member`. -/
def extractMember (targetDir : Path) (disk : Disk) (m : Packed) :
    Except ArchiveError Unit × Disk :=
  let names := arcname m.filename
  match makedirs links disk targetDir names.dropLast with
  | (.error e, disk) => (.error e, disk)
  | (.ok (), disk) =>
    if m.filename.getLast? = some '/' then
      match names.getLast? with
      | none => (.ok (), disk)
      | some name =>
        if disk.isdir links (targetDir ++ names) then (.ok (), disk)
        else
          match disk.mkdir links (targetDir ++ names.dropLast) name with
          | some disk => (.ok (), disk)
          | none => (.error .exists, disk)
    else
      match m.data with
      | .locked => (.error .unreadable, disk)
      | .whole content =>
        match disk.opened links (targetDir ++ names) with
        | some there => (.ok (), disk.put there (.file content now))
        | none => (.error .exists, disk)
      | .broken read =>
        match disk.opened links (targetDir ++ names) with
        | some there => (.error .unreadable, disk.put there (.file read now))
        | none => (.error .exists, disk)

/-- `ZipFile.extractall`. -/
def extractall (targetDir : Path) : Disk → List Packed → Except ArchiveError Unit × Disk
  | disk, [] => (.ok (), disk)
  | disk, m :: members =>
    match extractMember links now targetDir disk m with
    | (.ok (), disk) => extractall targetDir disk members
    | (.error e, disk) => (.error e, disk)

/-- `shutil.rmtree`; a link to a directory is not one that it removes. -/
def rmtree (disk : Disk) (path : Path) : Disk :=
  match disk.realpath true links [] [] path with
  | .ok there => disk.remove there
  | .error _ => disk

end Extract

/-- The `try` block of `extract_archive`. -/
def extractMembers (host : Host) (fs : FileSystem) (now : Int) (targetDir root : Path) :
    Option (List Packed) → Except ArchiveError Unit × Disk
  | none => (.error .unreadable, fs.lookup)
  | some members =>
    match checkAll host fs targetDir root members with
    | .error e => (.error e, fs.lookup)
    | .ok () => extractall fs.depth now targetDir fs.lookup members

/-- `extract_archive`: how it ends, and the disk after it. -/
def extractArchive (host : Host) (fs : FileSystem) (now : Int) (archive : Option (List Packed))
    (targetDir : Path) : Except ArchiveError Unit × Disk :=
  match fs.resolve host.loops targetDir with
  | none => (.error .loop, fs.lookup)
  | some root =>
    match extractMembers host fs now targetDir root archive with
    | (.ok (), disk) => (.ok (), disk)
    | (.error e, disk) =>
      if disk.isdir fs.depth targetDir && !disk.islink fs.depth targetDir then
        (.error e, rmtree fs.depth disk targetDir)
      else (.error e, disk)

end McManager.Unpacking
