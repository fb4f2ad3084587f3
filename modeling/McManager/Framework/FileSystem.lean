import Mathlib.Data.List.Induction
import Mathlib.Data.List.Sort
import Mathlib.Tactic.Common

namespace McManager.Framework

/-- An absolute path, as the names below the root. -/
abbrev Path := List String

instance : LawfulBEq Path := inferInstance

/-- The text of a symbolic link, split at its separators. -/
structure Target where
  absolute : Bool
  parts : List String
  deriving DecidableEq, Repr

inductive Entry
  | file (content : List UInt8) (modified : Int)
  | directory
  | link (target : Target)
  deriving DecidableEq, Repr

def Entry.isLink : Entry → Bool
  | .link _ => true
  | _ => false

/-- A name a directory may hold. -/
def legalName (name : String) : Bool :=
  name ≠ "" && name ≠ "." && name ≠ ".." && !name.toList.contains '/'

/-- The entries below the root, each under the path that leads to it without a link. -/
structure FileSystem where
  entries : List (Path × Entry)
  unique : (entries.map (·.1)).Nodup
  legal : ∀ e ∈ entries, ∀ name ∈ e.1, legalName name = true
  placed : ∀ e ∈ entries, e.1 ≠ [] ∧
    (e.1.dropLast = [] ∨ (e.1.dropLast, Entry.directory) ∈ entries)

/-- Why a path leads nowhere; a loop tells how far the path was resolved. -/
inductive PathError
  | loop (path : Path)
  | missing
  | notDirectory
  deriving DecidableEq, Repr

/-- `normpath`. -/
def normalize : Path → List String → Path
  | path, [] => path
  | path, part :: rest =>
    if part = "" ∨ part = "." then normalize path rest
    else if part = ".." then normalize path.dropLast rest
    else normalize (path ++ [part]) rest

/-- What is at each path that leads through no link. -/
abbrev Disk := Path → Option Entry

namespace Disk

/-- Go through `parts` from the directory `path` on; `jump` goes where a link leads. A strict
walk wants every part to be there, another one only takes links and `..` into account. -/
def follow (disk : Disk) (strict : Bool) (seen : List Path)
    (jump : List Path → Path → List String → Except PathError Path) :
    Path → List String → Except PathError Path
  | path, [] => .ok path
  | path, part :: rest =>
    if strict = true ∧ disk path ≠ some .directory then .error .notDirectory
    else if part = "" ∨ part = "." then follow disk strict seen jump path rest
    else if part = ".." then follow disk strict seen jump path.dropLast rest
    else
      match disk (path ++ [part]) with
      | some (.link target) =>
        -- A link on the way to itself never ends.
        if path ++ [part] ∈ seen then .error (.loop (normalize (path ++ [part]) rest))
        else
          match jump ((path ++ [part]) :: seen) (if target.absolute then [] else path)
              target.parts with
          | .ok there => follow disk strict seen jump there rest
          | .error (.loop there) => .error (.loop (normalize there rest))
          | .error e => .error e
      | none =>
        if strict then .error .missing else follow disk strict seen jump (path ++ [part]) rest
      | some _ => follow disk strict seen jump (path ++ [part]) rest

/-- `realpath`, through at most so many links inside one another. -/
def realpath (disk : Disk) (strict : Bool) :
    Nat → List Path → Path → List String → Except PathError Path
  | 0, seen => disk.follow strict seen fun _ path parts => .error (.loop (normalize path parts))
  | n + 1, seen => disk.follow strict seen (realpath disk strict n)

theorem follow_strict {disk : Disk} {seen : List Path}
    {jump jump' : List Path → Path → List String → Except PathError Path}
    (jumps : ∀ seen path parts there, jump seen path parts = .ok there →
      jump' seen path parts = .ok there)
    (parts : List String) {path there : Path}
    (h : disk.follow true seen jump path parts = .ok there) :
    disk.follow false seen jump' path parts = .ok there := by
  induction parts generalizing path with
  | nil => exact h
  | cons part rest ih =>
    unfold follow at h ⊢
    simp only [Bool.false_eq_true, false_and, if_false]
    split at h
    · cases h
    split at h
    · rename_i hdot
      rw [if_pos hdot]
      exact ih h
    rename_i hdot
    rw [if_neg hdot]
    split at h
    · rename_i hup
      rw [if_pos hup]
      exact ih h
    rename_i hup
    rw [if_neg hup]
    cases hentry : disk (path ++ [part]) with
    | none =>
      rw [hentry] at h
      cases h
    | some entry =>
      rw [hentry] at h
      cases entry with
      | file content modified => exact ih h
      | directory => exact ih h
      | link target =>
        dsimp only at h ⊢
        split at h
        · cases h
        rename_i hseen
        rw [if_neg hseen]
        split at h
        · rename_i c hc
          rw [jumps _ _ _ _ hc]
          exact ih h
        · cases h
        · cases h

/-- Where a strict walk comes out, the other one comes out as well. -/
theorem realpath_strict {disk : Disk} (n : Nat) {seen : List Path} {path there : Path}
    {parts : List String} (h : disk.realpath true n seen path parts = .ok there) :
    disk.realpath false n seen path parts = .ok there := by
  induction n generalizing seen path there parts with
  | zero => exact follow_strict (fun _ _ _ _ h => h) parts h
  | succ n ih => exact follow_strict (fun _ _ _ _ h => ih h) parts h

end Disk

namespace FileSystem

/-- The entry at a path that leads through no link. -/
def lookup (fs : FileSystem) : Disk := fun path =>
  if path = [] then some .directory else (fs.entries.find? (·.1 == path)).map (·.2)

/-- The links of the file system: no more of them can be inside one another. -/
def depth (fs : FileSystem) : Nat := fs.entries.countP (·.2.isLink)

/-- `Path.resolve`: no part has to be there. A loop is an exception up to Python 3.12, where
`loops` is set, and from 3.13 on the path as far as it goes. -/
def resolve (fs : FileSystem) (loops : Bool) (path : Path) : Option Path :=
  match fs.lookup.realpath false fs.depth [] [] path with
  | .ok there => some there
  | .error (.loop there) => if loops then none else some there
  | .error _ => none

/-- `os.stat`: what is at the end of all links. -/
def stat (fs : FileSystem) (path : Path) : Option Entry :=
  match fs.lookup.realpath true fs.depth [] [] path with
  | .ok there => fs.lookup there
  | .error _ => none

/-- `Path.is_dir`. -/
def isDir (fs : FileSystem) (path : Path) : Bool := fs.stat path == some .directory

/-- The names in a directory. -/
def names (fs : FileSystem) (path : Path) : List String :=
  fs.entries.filterMap fun e =>
    match e.1.getLast? with
    | some name => if e.1.dropLast = path then some name else none
    | none => none

/-- `sorted(path.iterdir())`. -/
def iterdir (fs : FileSystem) (path : Path) : List String :=
  match fs.lookup.realpath true fs.depth [] [] path with
  | .ok there => (fs.names there).insertionSort (· ≤ ·)
  | .error _ => []

theorem resolve_of_strict {fs : FileSystem} {path there : Path}
    (h : fs.lookup.realpath true fs.depth [] [] path = .ok there) (loops : Bool) :
    fs.resolve loops path = some there := by
  rw [resolve, Disk.realpath_strict _ h]

/-- A path to a directory resolves to it. -/
theorem resolve_of_isDir {fs : FileSystem} {path : Path} (h : fs.isDir path = true)
    (loops : Bool) :
    ∃ there, fs.resolve loops path = some there ∧ fs.lookup there = some .directory := by
  simp only [isDir, stat, beq_iff_eq] at h
  cases hreal : fs.lookup.realpath true fs.depth [] [] path with
  | error e => simp [hreal] at h
  | ok there =>
    rw [hreal] at h
    exact ⟨there, resolve_of_strict hreal loops, h⟩

theorem lookup_of_mem {fs : FileSystem} {path : Path} {entry : Entry}
    (h : (path, entry) ∈ fs.entries) : fs.lookup path = some entry := by
  have nonempty : path ≠ [] := (fs.placed _ h).1
  rw [lookup, if_neg nonempty]
  cases found : fs.entries.find? (·.1 == path) with
  | none =>
    have other := List.find?_eq_none.mp found _ h
    simp at other
  | some e =>
    have mem := List.mem_of_find?_eq_some found
    have same : e.1 = path := by simpa using List.find?_some found
    have unique := List.inj_on_of_nodup_map fs.unique mem h same
    rw [unique]
    rfl

/-- Whatever is there is in a directory. -/
theorem lookup_dropLast {fs : FileSystem} {path : Path} {entry : Entry}
    (h : fs.lookup path = some entry) : fs.lookup path.dropLast = some .directory := by
  unfold lookup at h
  split at h
  · rename_i root
    rw [root, lookup, if_pos List.dropLast_nil]
  · obtain ⟨e, found, -⟩ := Option.map_eq_some_iff.mp h
    have mem := List.mem_of_find?_eq_some found
    have same : e.1 = path := by simpa using List.find?_some found
    rw [← same]
    rcases (fs.placed e mem).2 with root | inside
    · rw [root, lookup, if_pos rfl]
    · exact lookup_of_mem inside

theorem lookup_append {fs : FileSystem} {path : Path} (below : List String) {entry : Entry}
    (nonempty : below ≠ []) (h : fs.lookup (path ++ below) = some entry) :
    fs.lookup path = some .directory := by
  induction below using List.reverseRecOn generalizing entry with
  | nil => exact absurd rfl nonempty
  | append_singleton front last ih =>
    have before := lookup_dropLast h
    rw [← List.append_assoc, List.dropLast_concat] at before
    by_cases first : front = []
    · rw [first, List.append_nil] at before
      exact before
    · exact ih first before

theorem legal_of_lookup {fs : FileSystem} {path : Path} {entry : Entry}
    (h : fs.lookup path = some entry) : ∀ name ∈ path, legalName name = true := by
  unfold lookup at h
  split at h
  · rename_i root
    rw [root]
    exact fun _ hn => (nomatch hn)
  · obtain ⟨e, found, -⟩ := Option.map_eq_some_iff.mp h
    have mem := List.mem_of_find?_eq_some found
    have same : e.1 = path := by simpa using List.find?_some found
    rw [← same]
    exact fs.legal e mem

/-- A path that leads through no link is resolved already. -/
theorem resolve_of_lookup {fs : FileSystem} {path : Path} {entry : Entry}
    (h : fs.lookup path = some entry) (notLink : entry.isLink = false) (loops : Bool) :
    fs.resolve loops path = some path := by
  have walk : ∀ (seen : List Path) (jump : List Path → Path → List String → Except PathError Path)
      (below above : List String), above ++ below = path →
      fs.lookup.follow false seen jump above below = .ok path := by
    intro seen jump below
    induction below with
    | nil =>
      intro above same
      rw [List.append_nil] at same
      rw [same]
      rfl
    | cons name below ih =>
      intro above same
      have legal := legal_of_lookup h name (by rw [← same]; simp)
      simp only [legalName, Bool.and_eq_true, decide_eq_true_eq] at legal
      obtain ⟨⟨⟨empty, dot⟩, up⟩, -⟩ := legal
      have whole : (above ++ [name]) ++ below = path := by
        rw [List.append_assoc]
        exact same
      have there : ∃ e, fs.lookup (above ++ [name]) = some e ∧ e.isLink = false := by
        by_cases last : below = []
        · rw [last, List.append_nil] at whole
          rw [whole]
          exact ⟨entry, h, notLink⟩
        · exact ⟨.directory, lookup_append below last (whole ▸ h), rfl⟩
      obtain ⟨e, there, plain⟩ := there
      rw [Disk.follow, if_neg (by simp), if_neg (by simp [empty, dot]), if_neg up, there]
      cases e with
      | link target => cases plain
      | file content modified => exact ih _ whole
      | directory => exact ih _ whole
  have real : fs.lookup.realpath false fs.depth [] [] path = .ok path := by
    cases fs.depth with
    | zero => exact walk _ _ path [] rfl
    | succ n => exact walk _ _ path [] rfl
  rw [resolve, real]

/-- The directories, the root among them. -/
def directories (fs : FileSystem) : List Path :=
  [] :: (fs.entries.filter fun e => e.2 == .directory).map (·.1)

theorem mem_directories {fs : FileSystem} {path : Path}
    (h : fs.lookup path = some .directory) : path ∈ fs.directories := by
  unfold lookup at h
  split at h
  · rename_i hroot
    simp [directories, hroot]
  · obtain ⟨e, he, hdir⟩ := Option.map_eq_some_iff.mp h
    have hmem := List.mem_of_find?_eq_some he
    have hpath : e.1 = path := by simpa using List.find?_some he
    refine List.mem_cons_of_mem _ (List.mem_map.mpr ⟨e, ?_, hpath⟩)
    exact List.mem_filter.mpr ⟨hmem, by simp [hdir]⟩

theorem legal_of_mem_iterdir {fs : FileSystem} {path : Path} {name : String}
    (h : name ∈ fs.iterdir path) : legalName name = true := by
  unfold iterdir at h
  split at h
  · rw [List.mem_insertionSort, names, List.mem_filterMap] at h
    obtain ⟨e, he, hname⟩ := h
    split at hname
    · rename_i last hlast
      split at hname
      · cases hname
        exact fs.legal e he name (List.mem_of_getLast? hlast)
      · cases hname
    · cases hname
  · cases h

end FileSystem

end McManager.Framework
