import McManager.Infrastructure.BackupWalk
import McManager.Infrastructure.Extraction

namespace McManager.BackupEngine

open Framework

section Sights

variable {host : Host} {fs : FileSystem} {root : Path}

theorem sightFrom_legal (relative : List String) {directory : Path} {ancestors : List Path}
    {s : Sight} (h : sightFrom host fs root directory ancestors relative = some s) :
    ∀ name ∈ relative, legalName name = true := by
  induction relative generalizing directory ancestors with
  | nil => exact fun _ hn => (nomatch hn)
  | cons name rest ih =>
    unfold sightFrom at h
    split at h
    · rename_i hlisted
      intro n hn
      rcases List.mem_cons.mp hn with rfl | hn
      · exact FileSystem.legal_of_mem_iterdir hlisted
      · split at h
        · cases h
        split at h
        · split at h
          · split at h
            · cases h
            · exact ih h n hn
          · split at h
            · rename_i hrest
              simp [hrest] at hn
            · cases h
          · split at h
            · rename_i hrest
              simp [hrest] at hn
            · cases h
        · cases h
    · cases h

/-- Whatever is seen is below a directory. -/
theorem sightFrom_directory (above : List String) {below : List String} (nonempty : below ≠ [])
    {directory : Path} {ancestors : List Path} {s : Sight}
    (h : sightFrom host fs root directory ancestors (above ++ below) = some s) :
    sightFrom host fs root directory ancestors above = some .directory := by
  induction above generalizing directory ancestors with
  | nil => rfl
  | cons name rest ih =>
    rw [List.cons_append] at h
    unfold sightFrom at h ⊢
    split at h
    · rename_i hlisted
      rw [if_pos hlisted]
      split at h
      · cases h
      rename_i resolved hresolved
      split at h
      · rename_i hinside
        rw [if_pos hinside]
        cases hstat : fs.stat (directory ++ [name]) with
        | none => simp [hstat, nonempty] at h
        | some entry =>
          cases entry with
          | file content modified => simp [hstat, nonempty] at h
          | link target => simp [hstat, nonempty] at h
          | directory =>
            rw [hstat] at h
            dsimp only at h ⊢
            split at h
            · cases h
            · rename_i hnew
              rw [if_neg hnew]
              exact ih h
      · cases h
    · cases h

end Sights

/-- What the world tree shows at a path below `source`, links in it followed. -/
def sight (host : Host) (fs : FileSystem) (source : Path) (relative : List String) :
    Option Sight :=
  match fs.resolve host.loops source with
  | none => none
  | some root => sightFrom host fs root source [root] relative

/-- The directories and the file contents of the world tree. -/
def seen (host : Host) (fs : FileSystem) (source : Path) : Tree := fun relative =>
  match sight host fs source relative with
  | some .directory => some .directory
  | some (.file content _) => some (.file content)
  | _ => none

/-- The archive of `source` is made, passes its check and extracts into an empty directory to
what the tree shows. -/
def RoundTrips (host : Host) (fs : FileSystem) (source target : Path) : Prop :=
  ∃ fuel members skipped tree,
    createArchive host fs fuel source = some (.ok (members, skipped)) ∧
    verifyArchive host members = .ok () ∧
    extractArchive host target members = .ok tree ∧
    ∀ relative, tree relative = seen host fs source relative

/-- What an archive can hold of a tree: no path of it is a link to nowhere, every file has a date
and a name that the archive takes, and every directory has a file below. -/
structure Storable (host : Host) (fs : FileSystem) (source : Path) : Prop where
  behind : ∀ relative, sight host fs source relative ≠ some .dangling
  dated : ∀ relative content modified,
    sight host fs source relative = some (.file content modified) → Datable host modified
  named : ∀ relative content modified,
    sight host fs source relative = some (.file content modified) →
      validMemberPath host (asPosix relative) = true
  filled : ∀ relative, relative ≠ [] → sight host fs source relative = some .directory →
    ∃ below content modified, below ≠ [] ∧
      sight host fs source (relative ++ below) = some (.file content modified)

section RoundTrip

variable {host : Host} {fs : FileSystem} {source : Path}

theorem sight_legal {relative : List String} {s : Sight}
    (h : sight host fs source relative = some s) : ∀ name ∈ relative, legalName name = true := by
  unfold sight at h
  split at h
  · cases h
  · exact sightFrom_legal relative h

theorem sight_directory {above below : List String} (nonempty : below ≠ []) {s : Sight}
    (h : sight host fs source (above ++ below) = some s) :
    sight host fs source above = some .directory := by
  unfold sight at h ⊢
  split at h
  · cases h
  · exact sightFrom_directory above nonempty h

theorem sight_root (isDir : fs.isDir source = true) :
    sight host fs source [] = some .directory := by
  obtain ⟨root, hroot, -⟩ := FileSystem.resolve_of_isDir isDir host.loops
  rw [sight, hroot]
  rfl

/-- The files an archive has stored. -/
structure Stored (host : Host) (fs : FileSystem) (source : Path) (files : Files) : Prop where
  shown : ∀ path content, (path, content) ∈ files →
    ∃ modified, sight host fs source path = some (.file content modified)
  all : ∀ path s, sight host fs source path = some s → s ≠ .directory →
    ∃ content modified, s = .file content modified ∧ Datable host modified ∧
      (path, content) ∈ files

/-- The members of a faithful walk are files of the tree. -/
theorem files_of_members {shown : List String → Option Sight} (members : List Member)
    (stored : ∀ m ∈ members, ∃ relative content modified,
      shown relative = some (.file content modified) ∧ Datable host modified ∧
        m = ⟨asPosix relative, content⟩) :
    ∃ files : Files, members = files.members ∧
      ∀ path content, (path, content) ∈ files →
        ∃ modified, shown path = some (.file content modified) := by
  induction members with
  | nil => exact ⟨[], rfl, fun _ _ h => (nomatch h)⟩
  | cons m members ih =>
    obtain ⟨files, rfl, hseen⟩ := ih fun m hm => stored m (List.mem_cons_of_mem _ hm)
    obtain ⟨path, content, modified, hpath, -, rfl⟩ := stored m List.mem_cons_self
    refine ⟨(path, content) :: files, rfl, ?_⟩
    intro q c hq
    rcases List.mem_cons.mp hq with h | h
    · cases h
      exact ⟨modified, hpath⟩
    · exact hseen q c h

theorem asPosix_injective {path other : List String} (nonempty : path ≠ []) (nonempty' : other ≠ [])
    (legal : ∀ name ∈ path, legalName name = true)
    (legal' : ∀ name ∈ other, legalName name = true) (h : asPosix path = asPosix other) :
    path = other := by
  rw [← split_asPosix nonempty legal, h, split_asPosix nonempty' legal']

theorem sight_file_nonempty (isDir : fs.isDir source = true) {path : List String} {s : Sight}
    (h : sight host fs source path = some s) (file : s ≠ .directory) : path ≠ [] := by
  rintro rfl
  rw [sight_root isDir] at h
  cases h
  exact file rfl

/-- The walk that has ended has stored every file of the tree, or has met a path that ends it. -/
theorem walk_source (isDir : fs.isDir source = true) {root : Path}
    (hroot : fs.resolve host.loops source = some root) {fuel : Nat} {r : Except ArchiveError Walk}
    (hwalk : walk host fs root fuel ⟨[⟨source, [], [root]⟩], [], 0⟩ = some r) :
    match r with
    | .ok w => ∃ files : Files, w.members = files.members ∧ Stored host fs source files
    | .error _ => ∃ relative s, sight host fs source relative = some s ∧ Fatal host s := by
  have hsight : ∀ relative, sight host fs source relative =
      Pending.sight host fs root ⟨source, [], [root]⟩ relative := by
    intro relative
    rw [sight, hroot]
    rfl
  have begun : Faithful host fs root ⟨source, [], [root]⟩ (fun _ => False)
      ⟨[⟨source, [], [root]⟩], [], 0⟩ := by
    refine ⟨?_, fun _ h => (nomatch h), ?_⟩
    · intro p hp rest
      cases List.mem_singleton.mp hp
      rfl
    · intro relative s hs hdir
      rw [← hsight] at hs
      cases relative with
      | nil => exact absurd rfl (sight_file_nonempty isDir hs hdir)
      | cons name rest => exact .inr (.inl ⟨_, List.mem_singleton.mpr rfl, name, rest, rfl⟩)
  have walked := Faithful.walk fuel begun
  rw [hwalk] at walked
  cases r with
  | error e =>
    obtain ⟨relative, s, hs, hfatal⟩ := walked
    exact ⟨relative, s, (hsight relative).trans hs, hfatal⟩
  | ok w =>
    obtain ⟨faithful, hdone⟩ := walked
    have hstored : ∀ m ∈ w.members, ∃ relative content modified,
        sight host fs source relative = some (.file content modified) ∧ Datable host modified ∧
          m = ⟨asPosix relative, content⟩ := by
      intro m hm
      obtain ⟨relative, content, modified, hs, hrest⟩ := faithful.stored m hm
      exact ⟨relative, content, modified, (hsight relative).trans hs, hrest⟩
    obtain ⟨files, hmembers, hseen⟩ := files_of_members w.members hstored
    refine ⟨files, hmembers, hseen, ?_⟩
    intro path s hs hfile
    rw [hsight] at hs
    rcases faithful.covered path s hs hfile with ⟨c, m, rfl, hdated, hc⟩ | ⟨p, hp, -⟩ | h
    · refine ⟨c, m, rfl, hdated, ?_⟩
      rw [hmembers] at hc
      obtain ⟨f, hf, heq⟩ := List.mem_map.mp hc
      obtain ⟨hname, hcontent⟩ := Member.mk.inj heq
      obtain ⟨m', hm'⟩ := hseen f.1 f.2 hf
      have hpath : f.1 = path := by
        rw [← hsight] at hs
        exact asPosix_injective (sight_file_nonempty isDir hm' (by simp))
          (sight_file_nonempty isDir hs (by simp)) (sight_legal hm') (sight_legal hs) hname
      rw [← hpath, ← hcontent]
      exact hf
    · rw [hdone] at hp
      cases hp
    · exact h.elim

/-- The walk comes to an end. -/
theorem walk_halts (isDir : fs.isDir source = true) :
    ∃ root fuel r, fs.resolve host.loops source = some root ∧
      walk host fs root fuel ⟨[⟨source, [], [root]⟩], [], 0⟩ = some r := by
  obtain ⟨root, hroot, hlookup⟩ := FileSystem.resolve_of_isDir isDir host.loops
  have hfresh : Fresh fs ⟨source, [], [root]⟩ := by
    refine ⟨List.nodup_singleton _, ?_⟩
    exact List.cons_subset.mpr ⟨FileSystem.mem_directories hlookup, List.nil_subset _⟩
  have hhalts : Halts host fs root [⟨source, [], [root]⟩] := halts_cons _ hfresh le_rfl halts_nil
  obtain ⟨fuel, r, hwalk⟩ := hhalts [] 0
  exact ⟨root, fuel, r, hroot, hwalk⟩

theorem Stored.compatible (isDir : fs.isDir source = true) {files : Files}
    (stored : Stored host fs source files) : Compatible files := by
  refine ⟨?_, ?_, ?_⟩
  · intro path content below other hbelow hpath hother
    obtain ⟨m, hm⟩ := stored.shown path content hpath
    obtain ⟨m', hm'⟩ := stored.shown _ other hother
    rw [sight_directory hbelow hm'] at hm
    cases hm
  · intro path content other hpath hother
    obtain ⟨m, hm⟩ := stored.shown path content hpath
    obtain ⟨m', hm'⟩ := stored.shown path other hother
    rw [hm] at hm'
    cases hm'
    rfl
  · intro path content hpath
    obtain ⟨m, hm⟩ := stored.shown path content hpath
    exact ⟨sight_file_nonempty isDir hm (by simp), sight_legal hm⟩

/-- The extracted tree is the one that was seen exactly if every directory has a file below. -/
theorem Stored.seen_iff (isDir : fs.isDir source = true) {files : Files}
    (stored : Stored host fs source files) {tree : Tree} (holds : Holds tree files) :
    (∀ relative, tree relative = seen host fs source relative) ↔
      ∀ relative, relative ≠ [] → sight host fs source relative = some .directory →
        ∃ below content modified, below ≠ [] ∧
          sight host fs source (relative ++ below) = some (.file content modified) := by
  constructor
  · intro same relative nonempty hdir
    have hitem : tree relative = some .directory := by rw [same, seen, hdir]
    rcases holds.only _ _ hitem with ⟨c, hc, -⟩ | ⟨-, hroot | ⟨below, content, hbelow, hmem⟩⟩
    · cases hc
    · exact absurd hroot nonempty
    · obtain ⟨modified, hseen⟩ := stored.shown _ _ hmem
      exact ⟨below, content, modified, hbelow, hseen⟩
  · intro filled relative
    cases hs : sight host fs source relative with
    | none =>
      have hseen : seen host fs source relative = none := by rw [seen, hs]
      rw [hseen]
      by_contra hsome
      obtain ⟨item, hitem⟩ := Option.ne_none_iff_exists'.mp hsome
      rcases holds.only _ _ hitem with ⟨c, -, hmem⟩ | ⟨-, hroot | ⟨below, c, hbelow, hmem⟩⟩
      · obtain ⟨m, hm⟩ := stored.shown _ _ hmem
        rw [hs] at hm
        cases hm
      · rw [hroot, sight_root isDir] at hs
        cases hs
      · obtain ⟨m, hm⟩ := stored.shown _ _ hmem
        rw [sight_directory hbelow hm] at hs
        cases hs
    | some s =>
      by_cases hdir : s = .directory
      · subst hdir
        rw [seen, hs]
        by_cases nonempty : relative = []
        · rw [nonempty, holds.root]
        · obtain ⟨below, content, modified, hbelow, hfile⟩ := filled relative nonempty hs
          obtain ⟨c, m, -, -, hmem⟩ := stored.all _ _ hfile (by simp)
          exact holds.directory relative below c hbelow hmem
      · obtain ⟨content, modified, rfl, -, hmem⟩ := stored.all relative s hs hdir
        rw [seen, hs]
        exact holds.file relative content hmem

theorem verifyArchive_members {files : Files} :
    verifyArchive host files.members = .ok () ↔
      ∀ f ∈ files, validMemberPath host (asPosix f.1) = true := by
  have hall : (files.members.all fun m => validMemberPath host m.filename) = true ↔
      ∀ f ∈ files, validMemberPath host (asPosix f.1) = true := by
    simp [Files.members]
  rw [← hall, verifyArchive]
  by_cases h : (files.members.all fun m => validMemberPath host m.filename) = true
  · simp [h]
  · simp [h]

theorem Stored.named_iff {files : Files} (stored : Stored host fs source files) :
    (∀ f ∈ files, validMemberPath host (asPosix f.1) = true) ↔
      ∀ relative content modified, sight host fs source relative = some (.file content modified) →
        validMemberPath host (asPosix relative) = true := by
  constructor
  · intro valid relative content modified hs
    obtain ⟨c, m, -, -, hmem⟩ := stored.all relative _ hs (by simp)
    exact valid _ hmem
  · intro named f hf
    obtain ⟨modified, hs⟩ := stored.shown f.1 f.2 hf
    exact named f.1 f.2 modified hs

/-- A tree comes back from its archive exactly if the archive can hold it. -/
theorem archive_round_trips_iff (host : Host) (fs : FileSystem) (source target : Path)
    (isDir : fs.isDir source = true) :
    RoundTrips host fs source target ↔ Storable host fs source := by
  have hhalts : ∃ root fuel r, fs.resolve host.loops source = some root ∧
      walk host fs root fuel ⟨[⟨source, [], [root]⟩], [], 0⟩ = some r := walk_halts isDir
  obtain ⟨root, fuel, r, hroot, hwalk⟩ := hhalts
  constructor
  · rintro ⟨fuel, members, skipped, tree, hcreate, hverify, hextract, hsame⟩
    simp only [createArchive, hroot] at hcreate
    cases hrun : walk host fs root fuel ⟨[⟨source, [], [root]⟩], [], 0⟩ with
    | none => simp [hrun] at hcreate
    | some r =>
      have hended := walk_source isDir hroot hrun
      cases r with
      | error e => simp [hrun] at hcreate
      | ok w =>
        obtain ⟨files, hmembers, stored⟩ := hended
        have hthose : members = files.members := by
          simp only [hrun] at hcreate
          split at hcreate
          · cases hcreate
            exact hmembers
          · cases hcreate
        rw [hthose] at hverify hextract
        have hvalid := verifyArchive_members.mp hverify
        obtain ⟨tree', hextract', holds⟩ :=
          extractArchive_ok target (stored.compatible isDir) hvalid
        rw [hextract] at hextract'
        cases hextract'
        refine ⟨?_, ?_, stored.named_iff.mp hvalid, (stored.seen_iff isDir holds).mp hsame⟩
        · intro relative hs
          obtain ⟨c, m, hfile, -⟩ := stored.all relative _ hs (by simp)
          cases hfile
        · intro relative content modified hs
          obtain ⟨c, m, hfile, hdated, -⟩ := stored.all relative _ hs (by simp)
          cases hfile
          exact hdated
  · intro storable
    have hended := walk_source isDir hroot hwalk
    cases r with
    | error e =>
      obtain ⟨relative, s, hs, hfatal⟩ := hended
      cases s with
      | directory => exact hfatal.elim
      | dangling => exact absurd hs (storable.behind relative)
      | file content modified => exact absurd (storable.dated _ _ _ hs) hfatal
    | ok w =>
      obtain ⟨files, hmembers, stored⟩ := hended
      have hvalid := stored.named_iff.mpr storable.named
      have hverify : verifyArchive host w.members = .ok () := by
        rw [hmembers]
        exact verifyArchive_members.mpr hvalid
      obtain ⟨tree, hextract, holds⟩ :=
        extractArchive_ok target (stored.compatible isDir) hvalid
      refine ⟨fuel, w.members, w.skipped, tree, ?_, hverify, ?_, ?_⟩
      · simp only [createArchive, hroot, hwalk, hverify]
      · rw [hmembers, hextract]
      · exact (stored.seen_iff isDir holds).mpr storable.filled

/-- A world without any file yet: one directory, with nothing in it. -/
def freshWorld : FileSystem where
  entries := [(["world"], .directory), (["world", "datapacks"], .directory)]
  unique := by decide
  legal := by decide
  placed := by decide

/-- A host with Python 3.13, where a year has 31556952 seconds. -/
def plainHost : Host := ⟨fun modified => 1970 + modified / 31556952, false, fun _ => true⟩

theorem archive_round_trips_fresh :
    freshWorld.isDir ["world"] = true ∧
      (RoundTrips plainHost freshWorld ["world"] ["staging"] ↔
        Storable plainHost freshWorld ["world"]) :=
  ⟨by decide, archive_round_trips_iff _ _ _ _ (by decide)⟩

/-- The empty directory is not in the archive. -/
theorem archive_drops_directory :
    freshWorld.isDir ["world"] = true ∧
      ¬RoundTrips plainHost freshWorld ["world"] ["staging"] := by
  refine ⟨by decide, ?_⟩
  rintro ⟨fuel, members, skipped, tree, hcreate, -, hextract, hsame⟩
  have hempty : members = [] := by
    match fuel with
    | 0 | 1 | 2 => cases hcreate
    | fuel + 3 =>
      cases hcreate
      rfl
  subst hempty
  cases hextract
  have hmissing := hsame ["datapacks"]
  revert hmissing
  decide

end RoundTrip

end McManager.BackupEngine
