import Mathlib.Algebra.Order.Ring.Int
import McManager.Framework.Worklist
import McManager.Infrastructure.LocalFilesystem
import McManager.Guarantees.RoundTrip

namespace McManager.BackupEngine

open Framework

/-- The paths that the loops of `create_archive` come to while no path ends them, and where each
leads. -/
def visits (host : Host) (fs : FileSystem) (root : Path) : Nat → Walk → List (List String × Path)
  | 0, _ => []
  | fuel + 1, w =>
    match w.pending with
    | [] => []
    | p :: rest =>
      match scan host fs root p (fs.iterdir p.directory) { w with pending := rest } with
      | .ok w =>
        ((fs.iterdir p.directory).filterMap fun name =>
          (fs.resolve host.loops (p.directory ++ [name])).map (p.relativeDir ++ [name], ·)) ++
            visits host fs root fuel w
      | .error _ => []

/-- Both walks end, the one of `create_archive` without an exception; they come to the same paths,
the estimate is the size of what is written, and the archive of a tree in which nothing was left
out after an exception is made. -/
def Measured (host : Host) (fs : FileSystem) (source : Path) : Prop :=
  ∃ root fuel estimate fuel' written,
    fs.resolve host.loops source = some root ∧
    LocalFilesystem.treeSize host.loops fs fuel source = some (.ok estimate) ∧
    walk host fs root fuel' ⟨[⟨source, [], [root]⟩], [], 0⟩ = some (.ok written) ∧
    (∀ path, path ∈ estimate.visited ↔
      path ∈ visits host fs root fuel' ⟨[⟨source, [], [root]⟩], [], 0⟩) ∧
    estimate.total = (written.members.map (·.content.length)).sum ∧
    (estimate.unread = [] → ∃ fuel r, createArchive host fs fuel source = some (.ok r))

/-- What is at a path below the root cannot be read: it resolves to nothing, or to a path inside
where there is neither a directory nor a file. -/
def Unread (host : Host) (fs : FileSystem) (root directory : Path) (name : String) : Prop :=
  match fs.resolve host.loops (directory ++ [name]) with
  | none => True
  | some resolved => LocalFilesystem.isWithin host.loops fs resolved root = true ∧ excluded name = false ∧
    fs.isDir (directory ++ [name]) = false ∧
      ∀ content modified, fs.stat (directory ++ [name]) ≠ some (.file content modified)

/-- Nothing in the directories of a tree is unread. -/
def FullyReadable (host : Host) (fs : FileSystem) (source root : Path) : Prop :=
  ∀ relative, sight host fs source relative = some .directory →
    ∀ name ∈ fs.iterdir (source ++ relative), ¬Unread host fs root (source ++ relative) name

/-- What an archive can be made of: no path inside the tree is a link to nowhere, every file has a
date that the format holds, and, where the tree is readable in full, a name that the archive takes. -/
structure Archivable (host : Host) (fs : FileSystem) (source : Path) : Prop where
  behind : ∀ relative, sight host fs source relative ≠ some .dangling
  dated : ∀ relative content modified,
    sight host fs source relative = some (.file content modified) → Datable host modified
  named : ∀ root, fs.resolve host.loops source = some root → FullyReadable host fs source root →
    ∀ relative content modified, sight host fs source relative = some (.file content modified) →
      validMemberPath host (asPosix relative) = true

section Trees

variable (host : Host) (fs : FileSystem) (root : Path)

/-- The directory that both walks go on to. -/
def child (p : Pending) (name : String) : Option Pending :=
  match fs.resolve host.loops (p.directory ++ [name]) with
  | none => none
  | some resolved =>
    if isWithin resolved root = true ∧ excluded name = false ∧
        fs.isDir (p.directory ++ [name]) = true ∧ resolved ∉ p.ancestors then
      some ⟨p.directory ++ [name], p.relativeDir ++ [name], resolved :: p.ancestors⟩
    else none

/-- The member that stores what is at a path. -/
def member (p : Pending) (name : String) : Option Member :=
  match fs.resolve host.loops (p.directory ++ [name]) with
  | none => none
  | some resolved =>
    if isWithin resolved root = true ∧ excluded name = false then
      match fs.stat (p.directory ++ [name]) with
      | some (.file content _) => some ⟨asPosix (p.relativeDir ++ [name]), content⟩
      | _ => none
    else none

/-- What both walks come to. -/
def came (p : Pending) (name : String) : Option (List String × Path) :=
  (fs.resolve host.loops (p.directory ++ [name])).map (p.relativeDir ++ [name], ·)

/-- What `tree_size` leaves out after an exception. -/
def missed (p : Pending) (name : String) : List Path :=
  match fs.resolve host.loops (p.directory ++ [name]) with
  | none => [p.directory ++ [name]]
  | some resolved =>
    if LocalFilesystem.isWithin host.loops fs resolved root = true ∧ excluded name = false ∧
        fs.isDir (p.directory ++ [name]) = false then
      match fs.stat (p.directory ++ [name]) with
      | some (.file _ _) => []
      | _ => [p.directory ++ [name]]
    else []

/-- Whatever is behind a way down is a directory that no ancestor is. -/
theorem child_some {p q : Pending} {name : String} (h : child host fs root p name = some q) :
    ∃ resolved ∈ fs.directories, resolved ∉ p.ancestors ∧
      q = ⟨p.directory ++ [name], p.relativeDir ++ [name], resolved :: p.ancestors⟩ := by
  unfold child at h
  split at h
  · cases h
  · rename_i resolved found
    split at h
    · rename_i all
      obtain ⟨-, -, isDir, fresh⟩ := all
      cases h
      obtain ⟨there, same, directory⟩ := FileSystem.resolve_of_isDir isDir host.loops
      cases found.symm.trans same
      exact ⟨resolved, FileSystem.mem_directories directory, fresh, rfl⟩
    · cases h

/-- The directories below the root, in the order of one of the walks. -/
def forest (items : Pending → List String) : Forest Pending String where
  items := items
  child := child host fs root
  rank p := (fs.directories.filter (· ∉ p.ancestors)).length
  lower := by
    intro p name q _ h
    obtain ⟨resolved, mem, fresh, rfl⟩ := child_some host fs root h
    have smaller : fs.directories.filter (· ∉ resolved :: p.ancestors) =
        (fs.directories.filter (· ∉ p.ancestors)).filter (· ≠ resolved) := by
      rw [List.filter_filter]
      apply List.filter_congr
      intro d _
      simp [not_or]
    rw [smaller]
    apply List.length_filter_lt_length_iff_exists.mpr
    exact ⟨resolved, List.mem_filter.mpr ⟨mem, by simpa using fresh⟩, by simp⟩

end Trees

section Walks

variable {host : Host} {fs : FileSystem} {root : Path}

/-- Where something is, both tests for a path inside agree. -/
theorem isWithin_of_stat (host : Host) {path resolved : Path} {entry : Entry}
    (rootIs : fs.lookup root = some .directory) (stat : fs.stat path = some entry) (notLink : entry.isLink = false)
    (h : fs.resolve host.loops path = some resolved) :
    LocalFilesystem.isWithin host.loops fs resolved root = isWithin resolved root := by
  unfold FileSystem.stat at stat
  split at stat
  · rename_i there real
    have same := FileSystem.resolve_of_strict real host.loops
    cases h.symm.trans same
    rw [LocalFilesystem.isWithin, FileSystem.resolve_of_lookup stat notLink,
      FileSystem.resolve_of_lookup rootIs rfl]
    rfl
  · cases stat

theorem missed_nil {p : Pending} {name : String} :
    missed host fs root p name = [] ↔ ¬Unread host fs root p.directory name := by
  unfold missed Unread
  cases fs.resolve host.loops (p.directory ++ [name]) with
  | none => simp
  | some resolved =>
    dsimp only
    split
    · rename_i all
      obtain ⟨within, kept, noDir⟩ := all
      cases stat : fs.stat (p.directory ++ [name]) with
      | none => simp [within, kept, noDir]
      | some entry => cases entry <;> simp [within, kept, noDir]
    · rename_i other
      refine ⟨fun _ unread => other ⟨unread.1, unread.2.1, unread.2.2.1⟩, fun _ => rfl⟩

/-- One item of `tree_size`. -/
theorem measure_eq (rootIs : fs.lookup root = some .directory) (p : Pending) (name : String)
    (m : LocalFilesystem.Measure) : LocalFilesystem.measure host.loops fs root p name m =
      { pending := (child host fs root p name).toList ++ m.pending
        total := m.total + ((member host fs root p name).map (·.content.length)).getD 0
        visited := m.visited ++ (came host fs p name).toList
        unread := m.unread ++ missed host fs root p name } := by
  unfold LocalFilesystem.measure child member came missed
  cases found : fs.resolve host.loops (p.directory ++ [name]) with
  | none => simp [found]
  | some resolved =>
    cases stat : fs.stat (p.directory ++ [name]) with
    | none =>
      have noDir : fs.isDir (p.directory ++ [name]) = false := by simp [FileSystem.isDir, stat]
      cases within : LocalFilesystem.isWithin host.loops fs resolved root
        <;> cases kept : excluded name <;> simp [found, stat, within, kept, noDir]
    | some entry =>
      cases entry with
      | link target =>
        have noDir : fs.isDir (p.directory ++ [name]) = false := by simp [FileSystem.isDir, stat]
        cases within : LocalFilesystem.isWithin host.loops fs resolved root
          <;> cases kept : excluded name <;> simp [found, stat, within, kept, noDir]
      | file content modified =>
        have noDir : fs.isDir (p.directory ++ [name]) = false := by simp [FileSystem.isDir, stat]
        have agree := isWithin_of_stat host rootIs stat rfl found
        cases within : isWithin resolved root
          <;> cases kept : excluded name <;> simp [found, stat, agree, within, kept, noDir]
      | directory =>
        have isDir : fs.isDir (p.directory ++ [name]) = true := by simp [FileSystem.isDir, stat]
        have agree := isWithin_of_stat host rootIs stat rfl found
        cases within : isWithin resolved root
          <;> cases kept : excluded name
          <;> by_cases known : resolved ∈ p.ancestors
          <;> simp [found, stat, agree, within, kept, isDir, known]

theorem measureAll_eq (rootIs : fs.lookup root = some .directory) (p : Pending) (names : List String)
    (m : LocalFilesystem.Measure) : LocalFilesystem.measureAll host.loops fs root p names m =
      { pending := (names.filterMap (child host fs root p)).reverse ++ m.pending
        total := m.total +
          (names.map fun name => ((member host fs root p name).map (·.content.length)).getD 0).sum
        visited := m.visited ++ names.filterMap (came host fs p)
        unread := m.unread ++ names.flatMap (missed host fs root p) } := by
  induction names generalizing m with
  | nil => simp [LocalFilesystem.measureAll]
  | cons name names ih =>
    rw [LocalFilesystem.measureAll, ih, measure_eq rootIs]
    cases next : child host fs root p name
      <;> cases path : came host fs p name
      <;> simp [next, path, Nat.add_assoc]

/-- `tree_size` after a run through these items. -/
def measured (host : Host) (fs : FileSystem) (root : Path) (m : LocalFilesystem.Measure)
    (t : List (Pending × String)) : LocalFilesystem.Measure where
  pending := []
  total := m.total +
    (t.map fun x => ((member host fs root x.1 x.2).map (·.content.length)).getD 0).sum
  visited := m.visited ++ t.filterMap fun x => came host fs x.1 x.2
  unread := m.unread ++ t.flatMap fun x => missed host fs root x.1 x.2

/-- The directories in the order of `tree_size`, and in that of `create_archive`. -/
def unsorted (host : Host) (fs : FileSystem) (root : Path) : Forest Pending String :=
  forest host fs root fun p => LocalFilesystem.iterdir fs p.directory

def sorted (host : Host) (fs : FileSystem) (root : Path) : Forest Pending String :=
  forest host fs root fun p => fs.iterdir p.directory

theorem measureTree_eq (rootIs : fs.lookup root = some .directory) (fuel : Nat)
    (m : LocalFilesystem.Measure) : LocalFilesystem.measureTree host.loops fs root fuel m =
      ((unsorted host fs root).trail fuel m.pending).map (measured host fs root m) := by
  induction fuel generalizing m with
  | zero => rfl
  | succ fuel ih =>
    obtain ⟨pending, total, visited, unread⟩ := m
    cases pending with
    | nil => simp [LocalFilesystem.measureTree, Forest.trail, measured]
    | cons p rest =>
      rw [LocalFilesystem.measureTree, Forest.trail]
      dsimp only
      rw [ih, measureAll_eq rootIs, Option.map_map]
      have next : (unsorted host fs root).children p =
          (LocalFilesystem.iterdir fs p.directory).filterMap (child host fs root p) := rfl
      rw [next]
      dsimp only
      congr 1
      funext t
      simp [measured, unsorted, forest, List.filterMap_map, List.flatMap_map,
        Function.comp_def, Nat.add_assoc]

/-- One path of `create_archive`. -/
theorem visit_eq {p : Pending} {name : String} {w w' : Walk}
    (h : visit host fs root p name w = .ok w') :
    w'.pending = (child host fs root p name).toList ++ w.pending ∧
      w'.members = w.members ++ (member host fs root p name).toList := by
  unfold visit at h
  unfold child member
  cases found : fs.resolve host.loops (p.directory ++ [name]) with
  | none =>
    simp only [found] at h
    cases h
    simp
  | some resolved =>
    simp only [found] at h
    split at h
    · rename_i outside
      cases h
      rw [Bool.not_eq_true'] at outside
      simp [outside]
    rename_i inside
    rw [Bool.not_eq_true', Bool.not_eq_false] at inside
    split at h
    · rename_i left
      cases h
      simp [left]
    rename_i kept
    rw [Bool.not_eq_true] at kept
    split at h
    · rename_i isDir
      have stat : fs.stat (p.directory ++ [name]) = some .directory := by
        simpa [FileSystem.isDir] using isDir
      split at h
      · rename_i known
        cases h
        simp [stat, known]
      · rename_i known
        cases h
        simp [stat, inside, kept, isDir, known]
    · rename_i noDir
      unfold write at h
      cases stat : fs.stat (p.directory ++ [name]) with
      | none => simp [stat] at h
      | some entry =>
        cases entry with
        | directory => simp [FileSystem.isDir, stat] at noDir
        | link target => simp [stat] at h
        | file content modified =>
          simp only [stat] at h
          split at h
          · rename_i w₁ written
            split at written
            · cases written
              cases h
              simp [inside, kept, noDir]
            · cases written
          · cases h

theorem scan_eq {p : Pending} (names : List String) {w w' : Walk}
    (h : scan host fs root p names w = .ok w') :
    w'.pending = (names.filterMap (child host fs root p)).reverse ++ w.pending ∧
      w'.members = w.members ++ names.filterMap (member host fs root p) := by
  induction names generalizing w with
  | nil =>
    cases h
    simp
  | cons name names ih =>
    unfold scan at h
    cases first : visit host fs root p name w with
    | error e => simp [first] at h
    | ok w₁ =>
      simp only [first] at h
      obtain ⟨pending, members⟩ := ih h
      obtain ⟨pending₁, members₁⟩ := visit_eq first
      rw [pending, members, pending₁, members₁]
      cases next : child host fs root p name
        <;> cases stored : member host fs root p name
        <;> simp [next, stored]

/-- A walk that ends without an exception has gone through the whole tree. -/
theorem walk_eq {fuel : Nat} {w w' : Walk} (h : walk host fs root fuel w = some (.ok w')) :
    ∃ t, (sorted host fs root).trail fuel w.pending = some t ∧
      w'.members = w.members ++ t.filterMap (fun x => member host fs root x.1 x.2) ∧
      visits host fs root fuel w = t.filterMap fun x => came host fs x.1 x.2 := by
  induction fuel generalizing w with
  | zero => cases h
  | succ fuel ih =>
    obtain ⟨pending, members, skipped⟩ := w
    unfold walk at h
    unfold visits
    cases pending with
    | nil =>
      cases h
      exact ⟨[], rfl, by simp, rfl⟩
    | cons p rest =>
      dsimp only at h ⊢
      cases scanned : scan host fs root p (fs.iterdir p.directory) ⟨rest, members, skipped⟩ with
      | error e => simp [scanned] at h
      | ok w₁ =>
        simp only [scanned] at h
        obtain ⟨t, rest', stored, came'⟩ := ih h
        obtain ⟨pending₁, members₁⟩ := scan_eq _ scanned
        rw [pending₁] at rest'
        refine ⟨(fs.iterdir p.directory).map (p, ·) ++ t, ?_, ?_, ?_⟩
        · have next : (sorted host fs root).children p =
              (fs.iterdir p.directory).filterMap (child host fs root p) := rfl
          rw [Forest.trail, next, rest']
          rfl
        · rw [stored, members₁, List.filterMap_append, List.filterMap_map, List.append_assoc]
          rfl
        · dsimp only
          rw [came', List.filterMap_append, List.filterMap_map]
          rfl

/-- What is written is as long as what was estimated. -/
theorem sum_members (t : List (Pending × String)) :
    (t.map fun x => ((member host fs root x.1 x.2).map (·.content.length)).getD 0).sum =
      ((t.filterMap fun x => member host fs root x.1 x.2).map (·.content.length)).sum := by
  induction t with
  | nil => rfl
  | cons x t ih =>
    cases stored : member host fs root x.1 x.2 <;> simp [stored, ih]

/-- The tree shows a directory below a path exactly if the walks go on to that path and it is shown
from there. -/
theorem sight_down {p : Pending} {name : String} {rest : List String}
    (mem : name ∈ fs.iterdir p.directory) :
    p.sight host fs root (name :: rest) = some .directory ↔
      ∃ q, child host fs root p name = some q ∧ q.sight host fs root rest = some .directory := by
  unfold Pending.sight child
  rw [sightFrom, if_pos mem]
  cases found : fs.resolve host.loops (p.directory ++ [name]) with
  | none => simp
  | some resolved =>
    cases stat : fs.stat (p.directory ++ [name]) with
    | none => simp [FileSystem.isDir, stat]
    | some entry =>
      cases entry with
      | link target => simp [FileSystem.isDir, stat]
      | file content modified => simp [FileSystem.isDir, stat]
      | directory =>
        have isDir : fs.isDir (p.directory ++ [name]) = true := by simp [FileSystem.isDir, stat]
        cases within : isWithin resolved root
          <;> cases kept : excluded name
          <;> by_cases known : resolved ∈ p.ancestors
          <;> simp [isDir, known]

/-- A way down leads to what the tree shows there. -/
theorem sight_of_leads {p q : Pending} {relative : List String}
    (h : (sorted host fs root).Leads p relative q) :
    p.sight host fs root relative = some .directory ∧ q.directory = p.directory ++ relative := by
  induction h with
  | here p => exact ⟨rfl, (List.append_nil _).symm⟩
  | @down p q d name relative mem next rest ih =>
    obtain ⟨sight, directory⟩ := ih
    refine ⟨(sight_down mem).mpr ⟨q, next, sight⟩, ?_⟩
    obtain ⟨resolved, -, -, rfl⟩ := child_some host fs root next
    rw [directory, List.append_assoc]
    rfl

/-- Where the tree shows a directory a way leads down. -/
theorem leads_of_sight {relative : List String} {p : Pending}
    (h : p.sight host fs root relative = some .directory) :
    ∃ q, (sorted host fs root).Leads p relative q := by
  induction relative generalizing p with
  | nil => exact ⟨p, .here p⟩
  | cons name relative ih =>
    have mem := listed_of_sight h
    obtain ⟨q, next, sight⟩ := (sight_down mem).mp h
    obtain ⟨d, rest⟩ := ih sight
    exact ⟨d, .down mem next rest⟩

theorem iterdir_perm (directory : Path) :
    (LocalFilesystem.iterdir fs directory).Perm (fs.iterdir directory) := by
  unfold LocalFilesystem.iterdir FileSystem.iterdir
  cases fs.lookup.realpath true fs.depth [] [] directory with
  | error e => exact List.Perm.refl _
  | ok there => exact (List.perm_insertionSort _ _).symm

end Walks

section Guard

variable {host : Host} {fs : FileSystem} {source root : Path}

/-- How `tree_size` ends. -/
theorem treeSize_ends (isDir : fs.isDir source = true)
    (hroot : fs.resolve host.loops source = some root) :
    ∃ fuel t, (unsorted host fs root).trail fuel [⟨source, [], [root]⟩] = some t ∧
      LocalFilesystem.treeSize host.loops fs fuel source =
        some (.ok (measured host fs root ⟨[⟨source, [], [root]⟩], 0, [], []⟩ t)) := by
  obtain ⟨there, same, directory⟩ := FileSystem.resolve_of_isDir isDir host.loops
  cases hroot.symm.trans same
  obtain ⟨fuel, t, run⟩ := (unsorted host fs root).trail_ends [⟨source, [], [root]⟩]
  refine ⟨fuel, t, run, ?_⟩
  rw [LocalFilesystem.treeSize, hroot]
  dsimp only
  rw [measureTree_eq directory, run]
  rfl

/-- `tree_size` leaves nothing out exactly if the tree is readable in full. -/
theorem unread_nil {fuel : Nat} {t : List (Pending × String)}
    (hroot : fs.resolve host.loops source = some root)
    (run : (sorted host fs root).trail fuel [⟨source, [], [root]⟩] = some t) :
    (t.flatMap fun x => missed host fs root x.1 x.2) = [] ↔ FullyReadable host fs source root := by
  have hsight : ∀ relative, sight host fs source relative =
      Pending.sight host fs root ⟨source, [], [root]⟩ relative := by
    intro relative
    rw [sight, hroot]
    rfl
  have mem : ∀ q name, (q, name) ∈ t ↔
      ∃ relative, (sorted host fs root).Leads ⟨source, [], [root]⟩ relative q ∧
        name ∈ fs.iterdir q.directory := by
    intro q name
    rw [← Multiset.mem_coe, Forest.trail_below run]
    have one : (([⟨source, [], [root]⟩] : List Pending) : Multiset Pending).bind
        (sorted host fs root).below = (sorted host fs root).below ⟨source, [], [root]⟩ :=
      Multiset.singleton_bind _ _
    rw [one]
    exact Forest.mem_below
  rw [List.flatMap_eq_nil_iff]
  constructor
  · intro none' relative shown name listed
    rw [hsight] at shown
    obtain ⟨q, leads⟩ := leads_of_sight shown
    have directory := (sight_of_leads leads).2
    have mem' := (mem q name).mpr ⟨relative, leads, by rw [directory]; exact listed⟩
    have found := missed_nil.mp (none' _ mem')
    rw [directory] at found
    exact found
  · rintro readable ⟨q, name⟩ inside
    obtain ⟨relative, leads, listed⟩ := (mem q name).mp inside
    obtain ⟨shown, directory⟩ := sight_of_leads leads
    rw [← hsight] at shown
    rw [directory] at listed
    apply missed_nil.mpr
    rw [directory]
    exact readable relative shown name listed

/-- What an estimate has in common with a walk of `create_archive` that ends. -/
theorem estimate_walk {fuel fuel' : Nat} {t t' : List (Pending × String)}
    (run : (sorted host fs root).trail fuel [⟨source, [], [root]⟩] = some t)
    (run' : (unsorted host fs root).trail fuel' [⟨source, [], [root]⟩] = some t') : t'.Perm t := by
  have child : (unsorted host fs root).child = (sorted host fs root).child := rfl
  have items : ∀ p, ((unsorted host fs root).items p).Perm ((sorted host fs root).items p) :=
    fun p => iterdir_perm p.directory
  exact Forest.trail_perm child items run run'

theorem treeSize_ok {fuel : Nat} {m : LocalFilesystem.Measure} (isDir : fs.isDir source = true)
    (hroot : fs.resolve host.loops source = some root)
    (h : LocalFilesystem.treeSize host.loops fs fuel source = some (.ok m)) :
    ∃ t, (unsorted host fs root).trail fuel [⟨source, [], [root]⟩] = some t ∧
      m = measured host fs root ⟨[⟨source, [], [root]⟩], 0, [], []⟩ t := by
  obtain ⟨there, same, directory⟩ := FileSystem.resolve_of_isDir isDir host.loops
  cases hroot.symm.trans same
  rw [LocalFilesystem.treeSize, hroot] at h
  dsimp only at h
  rw [measureTree_eq directory, Option.map_map] at h
  obtain ⟨t, run, ended⟩ := Option.map_eq_some_iff.mp h
  cases ended
  exact ⟨t, run, rfl⟩

theorem createArchive_ok {fuel : Nat} {r : List Member × Nat}
    (hroot : fs.resolve host.loops source = some root)
    (h : createArchive host fs fuel source = some (.ok r)) :
    ∃ w, walk host fs root fuel ⟨[⟨source, [], [root]⟩], [], 0⟩ = some (.ok w) ∧
      verifyArchive host w.members = .ok () := by
  rw [createArchive, hroot] at h
  dsimp only at h
  split at h
  · cases h
  · cases h
  · rename_i w walked
    split at h
    · rename_i verified
      exact ⟨w, walked, verified⟩
    · cases h

theorem archivable_of_measured (isDir : fs.isDir source = true) :
    Measured host fs source → Archivable host fs source := by
  rintro ⟨root, fuel, estimate, fuel', written, hroot, size, walked, -, -, made⟩
  have ended : ∃ files : Files, written.members = files.members ∧ Stored host fs source files :=
    walk_source isDir hroot walked
  obtain ⟨files, -, stored⟩ := ended
  obtain ⟨t, run, -, -⟩ := walk_eq walked
  obtain ⟨t', run', rfl⟩ := treeSize_ok isDir hroot size
  refine ⟨fun relative shown => ?_, fun relative content modified shown => ?_, ?_⟩
  · obtain ⟨_, _, file, -⟩ := stored.all relative _ shown (by simp)
    cases file
  · obtain ⟨_, _, file, dated, -⟩ := stored.all relative _ shown (by simp)
    cases file
    exact dated
  · intro root' hroot' readable
    cases hroot.symm.trans hroot'
    have all := (unread_nil hroot run).mpr readable
    have none' : (measured host fs root ⟨[⟨source, [], [root]⟩], 0, [], []⟩ t').unread = [] := by
      have perm := (estimate_walk run run').flatMap_right fun x => missed host fs root x.1 x.2
      rw [all] at perm
      exact perm.eq_nil
    obtain ⟨fuel₂, r, created⟩ := made none'
    obtain ⟨w, walked₂, verified⟩ := createArchive_ok hroot created
    have ended₂ : ∃ files : Files, w.members = files.members ∧ Stored host fs source files :=
      walk_source isDir hroot walked₂
    obtain ⟨files₂, members₂, stored₂⟩ := ended₂
    rw [members₂] at verified
    exact stored₂.named_iff.mp (verifyArchive_members.mp verified)

theorem measured_of_archivable (isDir : fs.isDir source = true) :
    Archivable host fs source → Measured host fs source := by
  intro fit
  have halts : ∃ root fuel r, fs.resolve host.loops source = some root ∧
      walk host fs root fuel ⟨[⟨source, [], [root]⟩], [], 0⟩ = some r := walk_halts isDir
  obtain ⟨root, fuel', r, hroot, walked⟩ := halts
  have ended := walk_source isDir hroot walked
  cases r with
  | error e =>
    obtain ⟨relative, s, shown, fatal⟩ := ended
    cases s with
    | directory => exact fatal.elim
    | dangling => exact absurd shown (fit.behind relative)
    | file content modified => exact absurd (fit.dated _ _ _ shown) fatal
  | ok written =>
    obtain ⟨files, members, stored⟩ := ended
    obtain ⟨t, run, holds, came⟩ := walk_eq walked
    obtain ⟨fuel, t', run', size⟩ := treeSize_ends isDir hroot
    have perm := estimate_walk run run'
    refine ⟨root, fuel, _, fuel', written, hroot, size, walked, fun path => ?_, ?_, ?_⟩
    · rw [came]
      exact (perm.filterMap _).mem_iff
    · rw [holds, List.nil_append, ← sum_members]
      have same := (perm.map fun x => ((member host fs root x.1 x.2).map
        (·.content.length)).getD 0).sum_eq
      rw [← same]
      exact Nat.zero_add _
    · intro none'
      have all : (t.flatMap fun x => missed host fs root x.1 x.2) = [] := by
        have perm' := perm.flatMap_right fun x => missed host fs root x.1 x.2
        have none'' : (t'.flatMap fun x => missed host fs root x.1 x.2) = [] := none'
        rw [none''] at perm'
        exact perm'.symm.eq_nil
      have named := fit.named root hroot ((unread_nil hroot run).mp all)
      have verified : verifyArchive host written.members = .ok () := by
        rw [members]
        exact verifyArchive_members.mpr (stored.named_iff.mpr named)
      refine ⟨fuel', (written.members, written.skipped), ?_⟩
      rw [createArchive, hroot]
      dsimp only
      rw [walked]
      dsimp only
      rw [verified]

/-- The estimate is of what the archive holds exactly if the archive can be made of the tree. -/
theorem tree_size_measures_iff (host : Host) (fs : FileSystem) (source : Path)
    (isDir : fs.isDir source = true) : Measured host fs source ↔ Archivable host fs source :=
  ⟨archivable_of_measured isDir, measured_of_archivable isDir⟩

end Guard

theorem tree_size_measures_fresh : freshWorld.isDir ["world"] = true ∧
    (Measured plainHost freshWorld ["world"] ↔ Archivable plainHost freshWorld ["world"]) :=
  ⟨by decide, tree_size_measures_iff _ _ _ (by decide)⟩

/-- A world with a link to a file that is gone. -/
def danglingWorld : FileSystem where
  entries := [(["world"], .directory), (["world", "level.dat"], .file [1, 2] 1000000000),
    (["world", "latest.log"], .link ⟨false, ["gone.log"]⟩)]
  unique := by decide
  legal := by decide
  placed := by decide

/-- `tree_size` leaves the link out, and `create_archive` ends at it. -/
theorem dangling_link_stops : ¬∀ (host : Host) (fs : FileSystem) (source : Path),
    fs.isDir source = true → Measured host fs source := by
  intro h
  have fit := archivable_of_measured (by decide) (h plainHost danglingWorld ["world"] (by decide))
  exact fit.behind ["latest.log"] (by decide +kernel)

end McManager.BackupEngine
