import McManager.Infrastructure.Unpacking

namespace McManager.Unpacking

open Framework BackupEngine

/-- What a name of an archive leads to is inside the target, as far as it leads anywhere. -/
def Inside (fs : FileSystem) (targetDir root : Path) (names : List String) : Prop :=
  ∀ there, fs.lookup.realpath false fs.depth [] [] (targetDir ++ names) = .ok there →
    Disk.below root there = true

/-- The disk during an extraction: the links are the ones that were there, nothing that was there is
gone, and nothing outside the target has changed. -/
structure Kept (fs : FileSystem) (root : Path) (disk : Disk) : Prop where
  alike : Disk.Alike fs.lookup disk
  rooted : Disk.Rooted disk
  directories : ∀ q, fs.lookup q = some .directory → disk q = some .directory
  holds : ∀ q, fs.lookup q ≠ none → disk q ≠ none
  outside : ∀ q, ¬Disk.below root q → disk q = fs.lookup q
  root : disk root = some .directory

section Members

variable {fs : FileSystem} {targetDir root path : Path} {disk disk' : Disk}

theorem kept_put {there : Path} {e : Entry} (kept : Kept fs root disk)
    (inside : Disk.below root there = true) (was : ∀ t, disk there ≠ some (.link t))
    (is : ∀ t, e ≠ .link t) (place : disk there.dropLast = some .directory)
    (stays : disk there = some .directory → e = .directory) : Kept fs root (disk.put there e) := by
  refine ⟨Disk.alike_put kept.alike was is, Disk.rooted_put kept.rooted place stays, ?_, ?_, ?_, ?_⟩
  · intro q isDir
    have still := kept.directories q isDir
    rw [Disk.put]
    split
    · rename_i same
      rw [stays (same ▸ still)]
    · exact still
  · intro q some'
    rw [Disk.put]
    split
    · exact Option.some_ne_none _
    · exact kept.holds q some'
  · intro q out
    have other : q ≠ there := by
      rintro rfl
      exact out inside
    rw [Disk.put, if_neg other]
    exact kept.outside q out
  · rw [Disk.put]
    split
    · rename_i same
      rw [stays (same ▸ kept.root)]
    · exact kept.root

/-- A directory that is made on the way to a name is inside, like the name. -/
theorem kept_mkdir {done rest : List String} {name : String} (kept : Kept fs root disk)
    (inside : Inside fs targetDir root (done ++ name :: rest))
    (plain : ∀ n ∈ name :: rest, Disk.plainName n)
    (h : disk.mkdir fs.depth (targetDir ++ done) name = some disk') : Kept fs root disk' := by
  unfold Disk.mkdir at h
  split at h
  · rename_i there real
    split at h
    · rename_i free
      obtain ⟨isDir, none'⟩ := free
      cases h
      -- Nothing is below what is not there, so the rest of the name leads straight down.
      have down : disk.realpath false fs.depth [] there (name :: rest) = .ok (there ++ name :: rest) := by
        apply Disk.realpath_plain _ plain
        intro a nonempty before t link
        obtain ⟨first, a, rfl⟩ := List.exists_cons_of_ne_nil nonempty
        obtain ⟨rfl, -⟩ := List.cons_prefix_cons.mp before
        have missing := Disk.none_below kept.rooted none' a
        rw [List.append_assoc, List.singleton_append, link] at missing
        cases missing
      have whole : disk.realpath false fs.depth [] [] (targetDir ++ (done ++ name :: rest)) =
          .ok (there ++ name :: rest) := by
        rw [← List.append_assoc, Disk.realpath_append false _ (Disk.realpath_strict _ real), down]
      rw [← Disk.realpath_alike kept.alike] at whole
      have within := inside _ whole
      have before : Disk.below root (there ++ [name]) = true := by
        rw [Disk.below, List.isPrefixOf_iff_prefix] at within ⊢
        have longer : there ++ [name] <+: there ++ name :: rest := ⟨rest, by simp⟩
        rcases List.prefix_or_prefix_of_prefix within longer with above | above
        · exact above
        · obtain ⟨more, same⟩ := above
          have missing := Disk.none_below kept.rooted none' more
          rw [same, kept.root] at missing
          cases missing
      refine kept_put kept before (by simp [none']) (by simp) ?_ (fun _ => rfl)
      rw [List.dropLast_concat]
      exact isDir
    · cases h
  · cases h

theorem kept_makedirs (targetDir : Path) (done names rest : List String) (kept : Kept fs root disk)
    (inside : Inside fs targetDir root (done ++ (names ++ rest)))
    (plain : ∀ n ∈ names ++ rest, Disk.plainName n) :
    Kept fs root (makedirs fs.depth disk (targetDir ++ done) names).2 := by
  induction names generalizing disk done with
  | nil => exact kept
  | cons name names ih =>
    have onward : ∀ {disk : Disk}, Kept fs root disk →
        Kept fs root (makedirs fs.depth disk (targetDir ++ done ++ [name]) names).2 := by
      intro disk kept
      rw [List.append_assoc]
      apply ih (done ++ [name]) kept
      · rw [List.append_assoc]
        exact inside
      · exact fun n mem => plain n (List.mem_cons_of_mem _ mem)
    rw [makedirs]
    split
    · exact onward kept
    · split
      · rename_i disk' made
        exact onward (kept_mkdir kept inside plain made)
      · exact kept

theorem kept_opened {names : List String} {there : Path} (content : List UInt8) (now : Int)
    (kept : Kept fs root disk) (inside : Inside fs targetDir root names)
    (h : disk.opened fs.depth (targetDir ++ names) = some there) :
    Kept fs root (disk.put there (.file content now)) := by
  unfold Disk.opened at h
  split at h
  · rename_i there' real
    have leads := Disk.openpath_realpath _ real
    rw [← Disk.realpath_alike kept.alike] at leads
    have within := inside _ leads
    have directory := Disk.root_directory kept.rooted kept.root
    have place := Disk.openpath_place kept.rooted directory _ directory real
    split at h
    · rename_i none'
      cases h
      rw [none'] at place
      refine kept_put kept within (by simp [none']) (by simp) (place.resolve_left (by simp)) ?_
      simp [none']
    · rename_i file
      cases h
      refine kept_put kept within (by simp [file]) (by simp) (kept.rooted _ _ file) ?_
      simp [file]
    · cases h
  · cases h

theorem arcname_plain {name : List Char} {n : String} (mem : n ∈ arcname name) :
    Disk.plainName n := by
  have keeps := (List.mem_filter.mp mem).2
  simp only [Bool.and_eq_true, decide_eq_true_eq] at keeps
  exact ⟨keeps.1.1, keeps.1.2, keeps.2⟩

/-- One member more. -/
theorem kept_extractMember (now : Int) {m : Packed} (kept : Kept fs root disk)
    (inside : Inside fs targetDir root (arcname m.filename)) :
    Kept fs root (extractMember fs.depth now targetDir disk m).2 := by
  have whole : (arcname m.filename).dropLast ++ (arcname m.filename).getLast?.toList =
      arcname m.filename := by
    cases names : arcname m.filename using List.reverseRecOn with
    | nil => rfl
    | append_singleton front last => simp
  have made : Kept fs root (makedirs fs.depth disk targetDir (arcname m.filename).dropLast).2 := by
    have onward := kept_makedirs targetDir [] (arcname m.filename).dropLast
      (arcname m.filename).getLast?.toList kept (by rw [List.nil_append, whole]; exact inside)
      (by rw [whole]; exact fun _ => arcname_plain)
    rw [List.append_nil] at onward
    exact onward
  have opens : ∀ {disk : Disk} (content : List UInt8), Kept fs root disk → ∀ there,
      disk.opened fs.depth (targetDir ++ arcname m.filename) = some there →
      Kept fs root (disk.put there (.file content now)) :=
    fun content kept there h => kept_opened content now kept inside h
  unfold extractMember
  dsimp only
  generalize makedirs fs.depth disk targetDir (arcname m.filename).dropLast = result at made
  obtain ⟨r, disk₁⟩ := result
  cases r with
  | error e => exact made
  | ok _ =>
    dsimp only
    split
    · cases last : (arcname m.filename).getLast? with
      | none => exact made
      | some name =>
        dsimp only
        split
        · exact made
        · split
          · rename_i disk₂ done
            rw [last] at whole
            have plain : ∀ n ∈ name :: [], Disk.plainName n := by
              intro n mem
              have inside' : n ∈ arcname m.filename := by
                rw [← whole]
                exact List.mem_append_right _ mem
              exact arcname_plain inside'
            exact kept_mkdir made (whole.symm ▸ inside) plain done
          · exact made
    · cases m.data with
      | locked => exact made
      | whole content =>
        dsimp only
        split
        · rename_i there found
          exact opens content made there found
        · exact made
      | broken read =>
        dsimp only
        split
        · rename_i there found
          exact opens read made there found
        · exact made

/-- All members, or as many as there are before one that cannot be extracted. -/
theorem kept_extractall (now : Int) (members : List Packed) (kept : Kept fs root disk)
    (inside : ∀ m ∈ members, Inside fs targetDir root (arcname m.filename)) :
    Kept fs root (extractall fs.depth now targetDir disk members).2 := by
  induction members generalizing disk with
  | nil => exact kept
  | cons m members ih =>
    have first := kept_extractMember now kept (inside m List.mem_cons_self)
    rw [extractall]
    generalize extractMember fs.depth now targetDir disk m = result at first
    obtain ⟨r, disk₁⟩ := result
    cases r with
    | error e => exact first
    | ok _ => exact ih first fun m' mem => inside m' (List.mem_cons_of_mem _ mem)

end Members

/-- A part that is in a name is in it too when its backslashes are read as slashes. -/
theorem mem_split_posix {l : List Char} (slash : '/' ∉ l) (backslash : '\\' ∉ l)
    (parts : List (List Char)) (mem : l ∈ parts) :
    l ∈ ((['/'].intercalate parts).map fun c => if c = '\\' then '/' else c).splitOn '/' := by
  have same : (l.map fun c => if c = '\\' then '/' else c) = l := by
    have each : ∀ c ∈ l, (if c = '\\' then '/' else c) = c := by
      intro c inside
      rw [if_neg]
      rintro rfl
      exact backslash inside
    rw [List.map_congr_left each, List.map_id']
  induction parts with
  | nil => cases mem
  | cons p parts ih =>
    cases parts with
    | nil =>
      rw [List.mem_singleton] at mem
      subst mem
      have one : ['/'].intercalate [l] = l := by simp
      rw [one, same, List.splitOn_eq_singleton slash]
      exact List.mem_singleton_self _
    | cons q parts =>
      rw [List.intercalate_cons_cons, List.append_assoc, List.map_append, List.singleton_append,
        List.map_cons, if_neg (by decide), List.splitOn_append_cons_self]
      rcases List.mem_cons.mp mem with rfl | mem
      · rw [same, List.splitOn_eq_singleton slash]
        exact List.mem_append_left _ (List.mem_singleton_self _)
      · exact List.mem_append_right _ (ih mem)

/-- No part of a name that is let pass leads up. -/
theorem joined_of_valid {host : Host} {name : List Char} (valid : validMemberPath host name = true) :
    joined name = arcname name ∧ ∀ n ∈ joined name, Disk.plainName n := by
  have up : ".." ∉ split name := by
    intro mem
    obtain ⟨l, inside, same⟩ := List.mem_map.mp mem
    have text : l = ['.', '.'] := by
      have back := congrArg String.toList same
      rw [String.toList_ofList] at back
      exact back
    have part := mem_split_posix (l := l) (by simp [text]) (by simp [text]) _ inside
    rw [List.intercalate_splitOn] at part
    simp only [validMemberPath, Bool.and_eq_true, Bool.not_eq_true'] at valid
    have none' := valid.2
    rw [List.contains_eq_mem, decide_eq_false_iff_not] at none'
    apply none'
    exact List.mem_map.mpr ⟨l, part, same⟩
  have same : joined name = arcname name := by
    apply List.filter_congr
    intro n mem
    have other : n ≠ ".." := by
      rintro rfl
      exact up mem
    simp [other]
  refine ⟨same, ?_⟩
  rw [same]
  exact fun _ => arcname_plain

section Checks

variable {host : Host} {fs : FileSystem} {targetDir root : Path}

theorem checkAll_ok (members : List Packed) (h : checkAll host fs targetDir root members = .ok ()) :
    ∀ m ∈ members, checkMember host fs targetDir root m = .ok () := by
  induction members with
  | nil => exact fun m mem => nomatch mem
  | cons m members ih =>
    rw [checkAll] at h
    cases first : checkMember host fs targetDir root m with
    | error e =>
      rw [first] at h
      cases h
    | ok _ =>
      rw [first] at h
      intro m' mem
      rcases List.mem_cons.mp mem with rfl | mem
      · exact first
      · exact ih h m' mem

theorem checkAll_error (members : List Packed) {e : ArchiveError}
    (h : checkAll host fs targetDir root members = .error e) :
    ∃ m ∈ members, checkMember host fs targetDir root m = .error e := by
  induction members with
  | nil => cases h
  | cons m members ih =>
    rw [checkAll] at h
    cases first : checkMember host fs targetDir root m with
    | error e' =>
      rw [first] at h
      cases h
      exact ⟨m, List.mem_cons_self, first⟩
    | ok _ =>
      rw [first] at h
      obtain ⟨m', mem, failed⟩ := ih h
      exact ⟨m', List.mem_cons_of_mem _ mem, failed⟩

/-- A member that passes the check is inside. -/
theorem inside_of_check {m : Packed} (h : checkMember host fs targetDir root m = .ok ()) :
    Inside fs targetDir root (arcname m.filename) := by
  intro there leads
  rw [checkMember] at h
  split at h
  · cases h
  rename_i valid
  rw [Bool.not_eq_true', Bool.not_eq_false] at valid
  rw [← (joined_of_valid valid).1] at leads
  rw [FileSystem.resolve, leads] at h
  dsimp only at h
  split at h
  · rename_i within
    exact within
  · cases h

/-- A member with a name that is let pass is refused only where a link leads it out of the target, or
nowhere. -/
theorem link_of_check {m : Packed} {e : ArchiveError}
    (real : fs.lookup.realpath true fs.depth [] [] targetDir = .ok root)
    (valid : validMemberPath host m.filename = true)
    (h : checkMember host fs targetDir root m = .error e) :
    (∀ there, fs.resolve host.loops (targetDir ++ joined m.filename) = some there →
      isWithin there root = false) ∧
      ∃ a t, a ≠ [] ∧ a <+: joined m.filename ∧ fs.lookup (root ++ a) = some (.link t) := by
  rw [checkMember, if_neg (by simp [valid])] at h
  constructor
  · intro there leads
    rw [leads] at h
    dsimp only at h
    split at h
    · cases h
    · rename_i outside
      exact Bool.eq_false_iff.mpr outside
  · by_contra none'
    have free : ∀ a, a ≠ [] → a <+: joined m.filename → ∀ t, fs.lookup (root ++ a) ≠ some (.link t) :=
      fun a nonempty before t link => none' ⟨a, t, nonempty, before, link⟩
    have leads : fs.lookup.realpath false fs.depth [] [] (targetDir ++ joined m.filename) =
        .ok (root ++ joined m.filename) := by
      rw [Disk.realpath_append false _ (Disk.realpath_strict _ real)]
      exact Disk.realpath_plain _ (joined_of_valid valid).2 free
    rw [FileSystem.resolve, leads] at h
    dsimp only at h
    rw [if_pos] at h
    · cases h
    · rw [isWithin, List.isPrefixOf_iff_prefix]
      exact List.prefix_append _ _

/-- After the checks an extraction fails for other reasons. -/
theorem extractMember_error (links : Nat) (now : Int) {m : Packed} {disk disk' : Disk}
    {e : ArchiveError} (h : extractMember links now targetDir disk m = (.error e, disk')) :
    e = .exists ∨ e = .unreadable := by
  have made : ∀ (names : List String) (disk disk' : Disk) (path : Path) (e : ArchiveError),
      makedirs links disk path names = (.error e, disk') → e = .exists := by
    intro names
    induction names with
    | nil => exact fun _ _ _ _ h => nomatch h
    | cons name names ih =>
      intro disk disk' path e h
      rw [makedirs] at h
      split at h
      · exact ih _ _ _ _ h
      · split at h
        · exact ih _ _ _ _ h
        · cases h
          rfl
  unfold extractMember at h
  dsimp only at h
  cases ran : makedirs links disk targetDir (arcname m.filename).dropLast with
  | mk r disk₁ =>
    rw [ran] at h
    cases r with
    | error e' =>
      cases h
      exact .inl (made _ _ _ _ _ ran)
    | ok _ =>
      dsimp only at h
      split at h
      · split at h
        · cases h
        · split at h
          · cases h
          · split at h
            · cases h
            · cases h
              exact .inl rfl
      · split at h
        · cases h
          exact .inr rfl
        · split at h
          · cases h
          · cases h
            exact .inl rfl
        · split at h
          · cases h
            exact .inr rfl
          · cases h
            exact .inl rfl

theorem extractall_error (links : Nat) (now : Int) (members : List Packed) {disk disk' : Disk}
    {e : ArchiveError} (h : extractall links now targetDir disk members = (.error e, disk')) :
    e = .exists ∨ e = .unreadable := by
  induction members generalizing disk with
  | nil => cases h
  | cons m members ih =>
    rw [extractall] at h
    cases first : extractMember links now targetDir disk m with
    | mk r disk₁ =>
      rw [first] at h
      cases r with
      | error e' =>
        cases h
        exact extractMember_error links now first
      | ok _ => exact ih h

end Checks

/-- What `extract_archive` leaves: nothing has changed outside the directory that the target leads
to; after an exception there is nothing left of a target that is not a link itself; and an archive
that `verify_archive` accepts is refused for a path only where that path goes through a link in the
target and leads out of it, or nowhere. -/
structure Confined (host : Host) (fs : FileSystem) (now : Int) (archive : Option (List Packed))
    (targetDir root : Path) : Prop where
  outside : ∀ q, ¬Disk.below root q →
    (extractArchive host fs now archive targetDir).2 q = fs.lookup q
  removed : ∀ e, (extractArchive host fs now archive targetDir).1 = .error e →
    fs.lookup.islink fs.depth targetDir = false →
      ∀ q, Disk.below root q → (extractArchive host fs now archive targetDir).2 q = none
  accepted : verifyArchive host archive = .ok () →
    (extractArchive host fs now archive targetDir).1 = .error .escapes ∨
      (extractArchive host fs now archive targetDir).1 = .error .loop →
    ∃ members, archive = some members ∧ ∃ m ∈ members,
      (∀ there, fs.resolve host.loops (targetDir ++ joined m.filename) = some there →
        isWithin there root = false) ∧
      ∃ a t, a ≠ [] ∧ a <+: joined m.filename ∧ fs.lookup (root ++ a) = some (.link t)

section Extraction

variable {host : Host} {fs : FileSystem} {now : Int} {archive : Option (List Packed)}
variable {targetDir root : Path} {disk : Disk}

theorem kept_lookup (rootIs : fs.lookup root = some .directory) : Kept fs root fs.lookup :=
  ⟨fun _ _ => Iff.rfl, Disk.rooted_lookup fs, fun _ h => h, fun _ h => h, fun _ _ => rfl, rootIs⟩

/-- The `try` block keeps what is outside, however it ends. -/
theorem kept_extractMembers (rootIs : fs.lookup root = some .directory) :
    Kept fs root (extractMembers host fs now targetDir root archive).2 := by
  cases archive with
  | none => exact kept_lookup rootIs
  | some members =>
    rw [extractMembers]
    cases checked : checkAll host fs targetDir root members with
    | error e => exact kept_lookup rootIs
    | ok _ =>
      apply kept_extractall now members (kept_lookup rootIs)
      exact fun m mem => inside_of_check (checkAll_ok members checked m mem)

theorem accepted_extractMembers {e : ArchiveError}
    (real : fs.lookup.realpath true fs.depth [] [] targetDir = .ok root)
    (verified : verifyArchive host archive = .ok ()) (paths : e = .escapes ∨ e = .loop)
    (h : (extractMembers host fs now targetDir root archive).1 = .error e) :
    ∃ members, archive = some members ∧ ∃ m ∈ members,
      (∀ there, fs.resolve host.loops (targetDir ++ joined m.filename) = some there →
        isWithin there root = false) ∧
      ∃ a t, a ≠ [] ∧ a <+: joined m.filename ∧ fs.lookup (root ++ a) = some (.link t) := by
  cases archive with
  | none => cases verified
  | some members =>
    rw [extractMembers] at h
    cases checked : checkAll host fs targetDir root members with
    | error e' =>
      rw [checked] at h
      cases h
      obtain ⟨m, mem, refused⟩ := checkAll_error members checked
      have valid : validMemberPath host m.filename = true := by
        rw [verifyArchive] at verified
        split at verified
        · cases verified
        · rename_i all
          rw [Bool.not_eq_true', Bool.not_eq_false, List.all_eq_true] at all
          exact all m mem
      exact ⟨members, rfl, m, mem, link_of_check real valid refused⟩
    | ok _ =>
      rw [checked] at h
      have other := extractall_error fs.depth now members (Prod.ext h rfl)
      rcases paths with rfl | rfl <;> simp at other

/-- The target is still there when it has to be removed, and a link only if it was one. -/
theorem target_kept (kept : Kept fs root disk)
    (real : fs.lookup.realpath true fs.depth [] [] targetDir = .ok root) :
    disk.realpath true fs.depth [] [] targetDir = .ok root ∧
      disk.isdir fs.depth targetDir = true ∧
      disk.islink fs.depth targetDir = fs.lookup.islink fs.depth targetDir := by
  have still := Disk.realpath_held kept.alike kept.directories kept.holds _ real
  refine ⟨still, ?_, ?_⟩
  · rw [Disk.isdir, still]
    exact beq_iff_eq.mpr kept.root
  · rw [Disk.islink, Disk.islink]
    cases last : targetDir.getLast? with
    | none => rfl
    | some name =>
      have whole : targetDir.dropLast ++ [name] = targetDir := List.dropLast_append_getLast? name last
      obtain ⟨parent, front⟩ := Disk.realpath_front true fs.depth (whole.symm ▸ real)
      rw [front, Disk.realpath_held kept.alike kept.directories kept.holds _ front]
      exact Disk.isSymlink_alike kept.alike _

/-- What is left of an extraction into a directory that is there. -/
theorem extractArchive_eq (real : fs.lookup.realpath true fs.depth [] [] targetDir = .ok root) :
    extractArchive host fs now archive targetDir =
      match extractMembers host fs now targetDir root archive with
      | (.ok (), disk) => (.ok (), disk)
      | (.error e, disk) =>
        if disk.isdir fs.depth targetDir && !disk.islink fs.depth targetDir then
          (.error e, rmtree fs.depth disk targetDir)
        else (.error e, disk) := by
  rw [extractArchive, FileSystem.resolve_of_strict real] <;> rfl

/-- However it ends, an extraction is confined. -/
theorem confined_extractArchive (rootIs : fs.lookup root = some .directory)
    (real : fs.lookup.realpath true fs.depth [] [] targetDir = .ok root) :
    Confined host fs now archive targetDir root := by
  have kept : Kept fs root (extractMembers host fs now targetDir root archive).2 :=
    kept_extractMembers rootIs
  obtain ⟨still, isDir, link⟩ := target_kept kept real
  have accepted : ∀ e, (extractMembers host fs now targetDir root archive).1 = .error e →
      verifyArchive host archive = .ok () → e = .escapes ∨ e = .loop → _ :=
    fun e h verified paths => accepted_extractMembers real verified paths h
  have ended : extractArchive host fs now archive targetDir = _ := extractArchive_eq real
  generalize extractMembers host fs now targetDir root archive = tried at *
  obtain ⟨r, disk⟩ := tried
  cases r with
  | ok _ =>
    dsimp only at ended
    refine ⟨?_, ?_, ?_⟩
    · rw [ended]
      exact kept.outside
    · rw [ended]
      exact fun e failed => by cases failed
    · rw [ended]
      rintro _ (h | h) <;> cases h
  | error e =>
    dsimp only at ended isDir link still
    rw [isDir, Bool.true_and, link] at ended
    have failed : (extractArchive host fs now archive targetDir).1 = .error e := by
      rw [ended]
      split
      · rfl
      · rfl
    refine ⟨?_, ?_, ?_⟩
    · intro q out
      rw [ended]
      split
      · rw [rmtree, still]
        dsimp only
        rw [Disk.remove_other out]
        exact kept.outside q out
      · exact kept.outside q out
    · intro e' _ notLink q inside
      rw [ended, notLink, Bool.not_false, if_pos rfl, rmtree, still]
      dsimp only
      rw [Disk.remove, if_pos inside]
    · intro verified paths
      rw [failed] at paths
      have paths' : e = .escapes ∨ e = .loop := by simpa using paths
      exact accepted e rfl verified paths'

/-- Extraction cannot escape. -/
theorem extraction_confined (host : Host) (fs : FileSystem) (now : Int)
    (archive : Option (List Packed)) (targetDir : Path) (isDir : fs.isDir targetDir = true) :
    ∃ root, fs.resolve host.loops targetDir = some root ∧
      Confined host fs now archive targetDir root := by
  simp only [FileSystem.isDir, FileSystem.stat, beq_iff_eq] at isDir
  cases real : fs.lookup.realpath true fs.depth [] [] targetDir with
  | error e => simp [real] at isDir
  | ok root =>
    rw [real] at isDir
    exact ⟨root, FileSystem.resolve_of_strict real _, confined_extractArchive isDir real⟩

end Extraction

/-- A directory to extract into that already holds a link out of it. -/
def linkedArea : FileSystem where
  entries := [(["staging"], .directory), (["elsewhere"], .directory),
    (["staging", "out"], .link ⟨false, ["..", "elsewhere"]⟩)]
  unique := by decide
  legal := by decide
  placed := by decide

/-- A host with Python 3.13. -/
def newHost : Host := ⟨fun modified => 1970 + modified / 31556952, false, fun _ => true⟩

/-- A member of one byte. -/
def small (name : String) : Packed := ⟨name.toList, .whole [7]⟩

theorem extraction_confined_linked : linkedArea.isDir ["staging"] = true ∧
    ∃ root, linkedArea.resolve newHost.loops ["staging"] = some root ∧
      Confined newHost linkedArea 0 (some [small "level.dat", small "../level.dat"]) ["staging"] root :=
  ⟨by decide, extraction_confined _ _ _ _ _ (by decide)⟩

/-- An archive that is accepted is refused where the target holds a link out of it. -/
theorem accepted_archive_refused : ¬∀ (host : Host) (fs : FileSystem) (now : Int)
    (archive : Option (List Packed)) (targetDir : Path), fs.isDir targetDir = true →
    ∃ root, fs.resolve host.loops targetDir = some root ∧
      (∀ q, ¬Disk.below root q →
        (extractArchive host fs now archive targetDir).2 q = fs.lookup q) ∧
      (∀ e, (extractArchive host fs now archive targetDir).1 = .error e →
        ∀ q, Disk.below root q → (extractArchive host fs now archive targetDir).2 q = none) ∧
      (verifyArchive host archive = .ok () →
        (extractArchive host fs now archive targetDir).1 ≠ .error .escapes ∧
          (extractArchive host fs now archive targetDir).1 ≠ .error .loop) := by
  intro h
  obtain ⟨root, -, -, -, accepted⟩ :=
    h newHost linkedArea 0 (some [small "out/level.dat"]) ["staging"] (by decide)
  exact (accepted (by decide +kernel)).1 (by decide +kernel)

end McManager.Unpacking
