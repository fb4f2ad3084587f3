import McManager.Services.RestoreFiles

namespace McManager.RestoreFiles

open Framework FileProgram

variable {host : Host} {links : Nat} {r : RestoreFiles}

/-- What `restore` puts on the disk beside the staging directory: the backup and the directories
on the way to it. -/
def Own (r : RestoreFiles) (q : Path) : Prop :=
  Disk.below q r.backupDir ∨ ∃ path ∈ r.backupPaths, Disk.below path q

/-- The disk once the directory for the backup is there. -/
def prepared (r : RestoreFiles) (disk : Disk) : Disk :=
  if (disk r.backupDir).isSome then disk else disk.filled r.backupDir

/-- The staging directory is disjoint from the world, also from the place a link at `worldDir`
leads to. -/
structure Disjoint (links : Nat) (r : RestoreFiles) (disk : Disk) : Prop where
  staging : ¬Disk.below r.stagingDir r.worldDir
  world : ¬Disk.below r.worldDir r.stagingDir
  destination : ∀ e, (r.prepared disk).stat links r.worldDir = some e →
    ((r.prepared disk).remove r.stagingDir).stat links r.worldDir = some e

/-- The names that `restore` draws are new ones. -/
structure Fresh (r : RestoreFiles) (disk : Disk) : Prop where
  archive : ∀ q, Disk.below r.archiveDir q → disk q = none
  staging : ¬Disk.below r.archiveDir r.stagingDir
  backup : ∀ path ∈ r.backupPaths, ¬Disk.below r.archiveDir path ∧ ¬Disk.below path r.archiveDir
  unused : ∀ path ∈ r.backupPaths, ∀ q, Disk.below path q → disk q = none

/-- Everything the world held is complete under the name `place`, and whatever is neither in the
world nor in the staging directory is as it was; a backup directory in the world may be new. -/
structure Kept (r : RestoreFiles) (before after : Disk) (place : Path) : Prop where
  contents : ∀ rest, after (place ++ rest) = before (r.worldDir ++ rest) ∨
    before (r.worldDir ++ rest) = none ∧ r.Own (r.worldDir ++ rest)
  elsewhere : ∀ q e, ¬Disk.below r.stagingDir q → ¬Disk.below r.worldDir q →
    before q = some e → after q = some e

/-- The tree that the archive of the artifact extracts to. -/
def Extracts (host : Host) (r : RestoreFiles) (tree : Tree) : Prop :=
  ∃ artifact, r.artifact = some artifact ∧
    BackupEngine.extractArchive host r.stagingDir artifact.members = .ok tree

/-- There is exactly this tree at a place. -/
def Shows (r : RestoreFiles) (disk : Disk) (place : Path) (tree : Tree) : Prop :=
  ∀ rest, disk (place ++ rest) = (tree rest).map (entry r.time)

/-- Outside the staging directory only new paths have come to the disk. -/
def Grown (r : RestoreFiles) (before after : Disk) : Prop :=
  ∀ q, ¬Disk.below r.stagingDir q →
    after q = before q ∨ before q = none ∧ (r.Own q ∨ Disk.below q r.stagingDir)

theorem Grown.refl (d : Disk) : r.Grown d d := fun _ _ => .inl rfl

theorem Grown.trans {d₁ d₂ d₃ : Disk} (h : r.Grown d₁ d₂) (h' : r.Grown d₂ d₃) :
    r.Grown d₁ d₃ := by
  intro q hq
  rcases h' q hq with h₂ | ⟨h₂, hmine⟩
  · rw [h₂]
    exact h q hq
  · rcases h q hq with h₁ | h₁
    · exact .inr ⟨h₁.symm.trans h₂, hmine⟩
    · exact .inr h₁

/-- Whatever was there is still there. -/
theorem Grown.sub {d d' : Disk} (h : r.Grown d d') {q : Path} {e : Entry}
    (hq : ¬Disk.below r.stagingDir q) (he : d q = some e) : d' q = some e := by
  rcases h q hq with h | ⟨hnone, -⟩
  · rw [h, he]
  · rw [hnone] at he
    cases he

theorem below_trans {a b c : Path} (h : Disk.below a b) (h' : Disk.below b c) :
    Disk.below a c := by
  rw [Disk.below, List.isPrefixOf_iff_prefix] at *
  exact h.trans h'

theorem below_append (a rest : List String) : Disk.below a (a ++ rest) :=
  Disk.below_iff.mpr ⟨rest, rfl⟩

/-- Two directories above one path. -/
theorem below_total {a b c : Path} (h : Disk.below a c) (h' : Disk.below b c) :
    Disk.below a b ∨ Disk.below b a := by
  simp only [Disk.below, List.isPrefixOf_iff_prefix] at *
  exact List.prefix_or_prefix_of_prefix h h'

theorem Disjoint.apart {disk : Disk} (disjoint : Disjoint links r disk) (rest : List String) :
    ¬Disk.below r.stagingDir (r.worldDir ++ rest) := by
  intro h
  rcases below_total h (below_append _ _) with h | h
  · exact disjoint.staging h
  · exact disjoint.world h

/-- The world is still where it was. -/
theorem Grown.kept {d d' : Disk} (disjoint : Disjoint links r d) (grown : r.Grown d d') :
    Kept r d d' r.worldDir := by
  refine ⟨fun rest => ?_, fun q e hq _ he => grown.sub hq he⟩
  rcases grown _ (disjoint.apart rest) with h | ⟨hnone, hown | hway⟩
  · exact .inl h
  · exact .inr ⟨hnone, hown⟩
  · exact absurd (below_trans (below_append _ _) hway) disjoint.world

/-- The archive name stands beside the world, so it is not in the staging directory either. -/
theorem Disjoint.archive {disk : Disk} (disjoint : Disjoint links r disk) (fresh : Fresh r disk) :
    ¬Disk.below r.stagingDir r.archiveDir := by
  intro h
  rw [archiveDir, Disk.below, List.isPrefixOf_iff_prefix, List.prefix_concat_iff] at h
  rcases h with h | h
  · refine fresh.staging ?_
    rw [h, archiveDir]
    exact Disk.below_iff.mpr ⟨[], by simp⟩
  · refine disjoint.staging ?_
    rw [Disk.below, List.isPrefixOf_iff_prefix]
    exact h.trans (List.dropLast_prefix _)

/-- Nothing has come to the archive name. -/
theorem Grown.fresh {d d' : Disk} (disjoint : Disjoint links r d) (fresh : Fresh r d)
    (grown : r.Grown d d') {q : Path} (hq : Disk.below r.archiveDir q) : d' q = none := by
  have hnone := fresh.archive q hq
  have hstaging : ¬Disk.below r.stagingDir q := by
    intro h
    rcases below_total h hq with h | h
    · exact disjoint.archive fresh h
    · exact fresh.staging h
  rcases grown q hstaging with h | ⟨-, (hbackup | ⟨path, hpath, h⟩) | hway⟩
  · rw [h, hnone]
  · have habove := below_trans hq hbackup
    exact absurd (below_trans habove (below_append _ _)) (fresh.backup _ List.mem_cons_self).1
  · rcases below_total h hq with h | h
    · exact absurd h (fresh.backup path hpath).2
    · exact absurd h (fresh.backup path hpath).1
  · exact absurd (below_trans hq hway) fresh.staging

section Steps

variable {d : Disk}

theorem runs_validateArtifact :
    Runs d (validateArtifact host links r) fun _ d' => d' = d := by
  refine .once (fun remains => rfl) (fun _ => rfl) fun d' h => ?_
  split at h
  · cases h
  · split at h
    · cases h
      rfl
    · cases h

theorem grown_prepared : r.Grown d (r.prepared d) := by
  intro q _
  unfold prepared
  split
  · exact .inl rfl
  · by_cases h : (Disk.below q r.backupDir && (d q).isNone) = true
    · simp only [Bool.and_eq_true, Option.isNone_iff_eq_none] at h
      exact .inr ⟨h.2, .inl (.inl h.1)⟩
    · exact .inl (by rw [Disk.filled, if_neg h])

/-- The backup's own paths are still free once its directory is there. -/
theorem prepared_unused (fresh : Fresh r d) {path q : Path} (hpath : path ∈ r.backupPaths)
    (hq : Disk.below path q) : r.prepared d q = none := by
  have hnone := fresh.unused path hpath q hq
  have hdeeper : ¬Disk.below q r.backupDir := by
    intro h
    have hbelow := below_trans hq h
    rw [Disk.below, List.isPrefixOf_iff_prefix] at hbelow
    have hlength := hbelow.length_le
    have hlonger : path.length = r.backupDir.length + 1 := by
      simp only [backupPaths, List.mem_cons, List.not_mem_nil, or_false] at hpath
      rcases hpath with rfl | rfl | rfl <;> simp
    omega
  unfold prepared
  split
  · exact hnone
  · rw [Disk.filled, if_neg (by simp [hdeeper]), hnone]

/-- The backup only adds paths of its own, and a world that is backed up is a directory. -/
theorem runs_createWorldBackup (fresh : Fresh r d) :
    Runs d (createWorldBackup links r) fun out d' => r.Grown d d' ∧
      (out = .ok () → (r.prepared d).stat links r.worldDir = some .directory ∧
        r.Grown (r.prepared d) d') := by
  refine .bind (.mkdir (fun d₁ hmade => ?_) fun d' hway => ?_)
  · have hprepared : d₁ = r.prepared d := by
      unfold prepared
      rcases hmade with ⟨rfl, hdir⟩ | ⟨rfl, hnone⟩
      · rw [if_pos]
        by_contra habsent
        rw [Option.isSome_iff_ne_none, not_not] at habsent
        rw [Disk.stat_of_none habsent] at hdir
        cases hdir
      · rw [if_neg (by simp [hnone])]
    subst hprepared
    have grown : ∀ d', (∀ q, d' q = r.prepared d q ∨ r.prepared d q = none ∧ r.Own q) →
        r.Grown (r.prepared d) d' := fun d' h q _ => (h q).imp_right fun h => ⟨h.1, .inl h.2⟩
    refine .once (fun remains => ?_) (fun _ => ?_) fun d' hput => ?_
    · refine ⟨grown_prepared.trans (grown _ fun q => ?_), fun h => (nomatch h)⟩
      by_cases htouched : (r.backupPaths.any fun path => Disk.below path q) = true
      · obtain ⟨path, hpath, hq⟩ := List.any_eq_true.mp htouched
        exact .inr ⟨prepared_unused fresh hpath hq, .inr ⟨path, hpath, hq⟩⟩
      · exact .inl (Disk.left_other htouched)
    · exact ⟨grown_prepared, fun h => (nomatch h)⟩
    · split at hput
      · rename_i hdir
        cases hput
        have hgrown : r.Grown (r.prepared d)
            ((r.prepared d).put (r.backupDir ++ [r.backupName]) (.file r.backup r.time)) := by
          refine grown _ fun q => ?_
          by_cases hq : q = r.backupDir ++ [r.backupName]
          · have hpath : q ∈ r.backupPaths := by simp [backupPaths, hq]
            have hself : Disk.below q q := Disk.below_iff.mpr ⟨[], by simp⟩
            exact .inr ⟨prepared_unused fresh hpath hself, .inr ⟨q, hpath, hself⟩⟩
          · exact .inl (if_neg hq)
        exact ⟨grown_prepared.trans hgrown, fun _ => ⟨hdir, hgrown⟩⟩
      · cases hput
  · refine ⟨fun q _ => ?_, fun h => (nomatch h)⟩
    rcases hway q with h | ⟨hnone, hbelow⟩
    · exact .inl h
    · exact .inr ⟨hnone, .inl (.inl hbelow)⟩

theorem runs_discardStaging :
    Runs d (discardStaging links r) fun _ d' => ∀ q, ¬Disk.below r.stagingDir q → d' q = d q := by
  refine .bind (.look (.onlyIf (fun _ => ?_) fun _ q _ => rfl))
  refine .guarded (.once (fun remains => .ret fun q hq => Disk.left_other hq)
    (fun _ => .ret fun q _ => rfl) fun d' h => ?_)
  split at h
  · cases h
    exact fun q hq => Disk.remove_other hq
  · cases h

/-- The extraction works in the staging directory, and what comes out is the whole tree. -/
theorem runs_extractArchive :
    Runs d (extractArchive host links r) fun out d' =>
      (∀ q, ¬Disk.below r.stagingDir q → d' q = d q) ∧
      (out = .ok () → ∃ tree, Extracts host r tree ∧ r.Shows d' r.stagingDir tree) := by
  have discarded : ∀ (e : FileStep) d₁, (∀ q, ¬Disk.below r.stagingDir q → d₁ q = d q) →
      Runs d₁ (do discardStaging links r; throw e) fun out d' =>
        (∀ q, ¬Disk.below r.stagingDir q → d' q = d q) ∧
        (out = .ok () → ∃ tree, Extracts host r tree ∧ r.Shows d' r.stagingDir tree) := by
    intro e d₁ hsame
    refine .bind (runs_discardStaging.mono fun out d₂ h => ?_)
    have hfinal : ∀ q, ¬Disk.below r.stagingDir q → d₂ q = d q :=
      fun q hq => (h q hq).trans (hsame q hq)
    cases out with
    | error e => exact ⟨hfinal, fun h => (nomatch h)⟩
    | ok _ => exact .raise ⟨hfinal, fun h => (nomatch h)⟩
  refine .guarded (.once (fun remains => ?_) (fun _ => ?_) fun d' hdone => ?_)
  · exact discarded _ _ fun q hq => Disk.left_other hq
  · exact discarded _ _ fun q _ => rfl
  · split at hdone
    · cases hdone
    · rename_i artifact hartifact
      split at hdone
      · split at hdone
        · rename_i tree htree
          cases hdone
          refine ⟨fun q hq => Disk.graft_other _ hq, fun _ => ⟨tree, ⟨artifact, hartifact, htree⟩, ?_⟩⟩
          exact fun rest => Disk.graft_below _ rest
        · cases hdone
      · cases hdone

/-- The whole way into the staging directory leaves everything beside it as it was. -/
theorem runs_extractToStaging :
    Runs d (extractToStaging host links r) fun out d' => r.Grown d d' ∧
      (out = .ok () → ∃ tree, Extracts host r tree ∧ r.Shows d' r.stagingDir tree) := by
  refine .bind (runs_validateArtifact.mono fun out d₁ h => ?_)
  subst h
  cases out with
  | error e => exact ⟨.refl _, fun h => (nomatch h)⟩
  | ok _ =>
    have outside : ∀ {d₁ d₂ : Disk}, (∀ q, ¬Disk.below r.stagingDir q → d₂ q = d₁ q) →
        r.Grown d₁ d₂ := fun h q hq => .inl (h q hq)
    refine .bind (.clear (fun d₂ hclear _ => ?_) fun d₂ hclear => ?_)
    · refine .bind (.mkdir (fun d₃ hmade => ?_) fun d₃ hway => ?_)
      · have hmkdir : r.Grown d₂ d₃ := by
          rcases hmade with ⟨rfl, -⟩ | ⟨rfl, -⟩
          · exact .refl _
          · intro q _
            by_cases h : (Disk.below q r.stagingDir && (d₂ q).isNone) = true
            · simp only [Bool.and_eq_true, Option.isNone_iff_eq_none] at h
              exact .inr ⟨h.2, .inr h.1⟩
            · exact .inl (by rw [Disk.filled, if_neg h])
        refine runs_extractArchive.mono fun out d₄ h => ⟨?_, h.2⟩
        exact (outside hclear).trans (hmkdir.trans (outside h.1))
      · refine ⟨(outside hclear).trans fun q _ => ?_, fun h => (nomatch h)⟩
        exact (hway q).imp_right fun h => ⟨h.1, .inr h.2⟩
    · exact ⟨outside hclear, fun h => (nomatch h)⟩

end Steps

/-- How the world comes out: where the way back failed as well, the original is complete under
one of its names; otherwise the world is what it was, or it is the whole extracted tree with the
original complete under the archive name. -/
def Survives (host : Host) (r : RestoreFiles) (before : Disk) (out : Except FileStep Unit)
    (after : Disk) : Prop :=
  (∃ step, out = .error step ∧ step.recovery = true ∧
    (Kept r before after r.worldDir ∨ Kept r before after r.archiveDir)) ∨
  Kept r before after r.worldDir ∨
  ∃ tree, Extracts host r tree ∧ r.Shows after r.worldDir tree ∧ Kept r before after r.archiveDir

/-- Before the switch: the world is a directory, and the extracted tree waits beside it. -/
structure Staged (host : Host) (links : Nat) (r : RestoreFiles) (d staged : Disk) : Prop where
  grown : r.Grown d staged
  prepared : r.Grown (r.prepared d) staged
  directory : (r.prepared d).stat links r.worldDir = some .directory
  shows : ∃ tree, Extracts host r tree ∧ r.Shows staged r.stagingDir tree

section Switch

variable {d staged after : Disk}

theorem worldDir_ne_nil (disjoint : Disjoint links r d) : r.worldDir ≠ [] := by
  intro h
  refine disjoint.world ?_
  rw [h]
  exact Disk.below_iff.mpr ⟨r.stagingDir, rfl⟩

theorem Staged.sub (ready : Staged host links r d staged) {q : Path} {e : Entry}
    (h : (r.prepared d).remove r.stagingDir q = some e) : staged q = some e := by
  unfold Disk.remove at h
  split at h
  · cases h
  · rename_i hq
    exact ready.prepared.sub hq h

theorem Staged.stat_world (disjoint : Disjoint links r d) (ready : Staged host links r d staged) :
    staged.stat links r.worldDir = some .directory :=
  Disk.stat_mono (fun _ _ h => ready.sub h) (disjoint.destination _ ready.directory)

/-- The world and the archive name are apart. -/
theorem Staged.beside (disjoint : Disjoint links r d) (fresh : Fresh r d)
    (ready : Staged host links r d staged) :
    ¬Disk.below r.worldDir r.archiveDir ∧ ¬Disk.below r.archiveDir r.worldDir := by
  have hne : r.archiveDir ≠ r.worldDir := by
    intro h
    have hnone := ready.grown.fresh disjoint fresh (below_append r.archiveDir [])
    rw [List.append_nil, h] at hnone
    have hstat := ready.stat_world disjoint
    rw [Disk.stat_of_none hnone] at hstat
    cases hstat
  have hlength : r.archiveDir.length = r.worldDir.length := by
    have hpos := List.length_pos_iff.mpr (worldDir_ne_nil disjoint)
    rw [archiveDir, List.length_append, List.length_dropLast, List.length_singleton]
    omega
  have same : ∀ {a b : Path}, a.length = b.length → Disk.below a b → a = b := by
    intro a b h hbelow
    rw [Disk.below, List.isPrefixOf_iff_prefix] at hbelow
    exact hbelow.eq_of_length h
  exact ⟨fun h => hne (same hlength.symm h).symm, fun h => hne (same hlength h)⟩

/-- The disk once the world has its archive name, and whatever has come to the staging directory
and to the world since. -/
def Archived (r : RestoreFiles) (staged after : Disk) : Prop :=
  ∀ q, ¬Disk.below r.stagingDir q → ¬Disk.below r.worldDir q →
    after q = staged.moved r.worldDir r.archiveDir q

theorem Archived.archive (disjoint : Disjoint links r d) (fresh : Fresh r d)
    (ready : Staged host links r d staged) (archived : r.Archived staged after)
    (rest : List String) : after (r.archiveDir ++ rest) = staged (r.worldDir ++ rest) := by
  have hstaging : ¬Disk.below r.stagingDir (r.archiveDir ++ rest) := by
    intro h
    rcases below_total h (below_append _ _) with h | h
    · exact disjoint.archive fresh h
    · exact fresh.staging h
  have hworld : ¬Disk.below r.worldDir (r.archiveDir ++ rest) := by
    intro h
    rcases below_total h (below_append _ _) with h | h
    · exact (ready.beside disjoint fresh).1 h
    · exact (ready.beside disjoint fresh).2 h
  rw [archived _ hstaging hworld, Disk.moved_destination]

theorem Archived.other (archived : r.Archived staged after) {q : Path}
    (hstaging : ¬Disk.below r.stagingDir q) (hworld : ¬Disk.below r.worldDir q)
    (harchive : ¬Disk.below r.archiveDir q) : after q = staged q := by
  rw [archived q hstaging hworld, Disk.moved_other hworld harchive]

theorem Archived.elsewhere (fresh : Fresh r d) (ready : Staged host links r d staged)
    (archived : r.Archived staged after) {q : Path} {e : Entry}
    (hstaging : ¬Disk.below r.stagingDir q) (hworld : ¬Disk.below r.worldDir q)
    (h : d q = some e) : after q = some e := by
  have harchive : ¬Disk.below r.archiveDir q := by
    intro hq
    rw [fresh.archive q hq] at h
    cases h
  rw [archived.other hstaging hworld harchive, ready.grown.sub hstaging h]

/-- The original is complete under the archive name. -/
theorem Archived.kept (disjoint : Disjoint links r d) (fresh : Fresh r d)
    (ready : Staged host links r d staged) (archived : r.Archived staged after) :
    Kept r d after r.archiveDir := by
  refine ⟨fun rest => ?_, fun q e hstaging hworld h => archived.elsewhere fresh ready hstaging hworld h⟩
  rw [archived.archive disjoint fresh ready]
  exact (ready.grown.kept disjoint).contents rest

/-- The archived world is seen to be there: a link leads from its new name to where it led. -/
theorem Archived.present (disjoint : Disjoint links r d) (fresh : Fresh r d)
    (ready : Staged host links r d staged) (archived : r.Archived staged after) :
    after.present links r.archiveDir = true := by
  have hfound := disjoint.destination _ ready.directory
  have hentry : after r.archiveDir = staged r.worldDir := by
    simpa using archived.archive disjoint fresh ready []
  cases hworld : (r.prepared d).remove r.stagingDir r.worldDir with
  | none =>
    rw [Disk.stat_of_none hworld] at hfound
    cases hfound
  | some entry =>
    have hthere : after r.archiveDir = some entry := hentry.trans (ready.sub hworld)
    cases entry with
    | file content modified => simp [Disk.present, Disk.stat, hthere]
    | directory => simp [Disk.present, Disk.stat, hthere]
    | link target =>
      have hsub : ∀ q e, ((r.prepared d).remove r.stagingDir).remove r.worldDir q = some e →
          after q = some e := by
        intro q e h
        unfold Disk.remove at h
        split at h
        · cases h
        rename_i hnotworld
        split at h
        · cases h
        rename_i hstaging
        have harchive : ¬Disk.below r.archiveDir q := by
          intro hq
          rw [grown_prepared.fresh disjoint fresh hq] at h
          cases h
        rw [archived.other hstaging hnotworld harchive, ready.prepared.sub hstaging h]
      have hfree : ((r.prepared d).remove r.stagingDir).remove r.worldDir r.archiveDir = none := by
        unfold Disk.remove
        split
        · rfl
        split
        · rfl
        · exact grown_prepared.fresh disjoint fresh (Disk.below_iff.mpr ⟨[], by simp⟩)
      have hbeside : r.archiveDir.dropLast = r.worldDir.dropLast := by simp [archiveDir]
      have hstat := Disk.stat_renamed hworld hfound (worldDir_ne_nil disjoint) hbeside hthere
        hfree hsub
      rw [Disk.present, hstat]
      rfl

/-- The staged tree has come to the world, and the original is complete under the archive name. -/
theorem published (disjoint : Disjoint links r d) (fresh : Fresh r d)
    (ready : Staged host links r d staged) :
    let after := (staged.moved r.worldDir r.archiveDir).moved r.stagingDir r.worldDir
    ∃ tree, Extracts host r tree ∧ r.Shows after r.worldDir tree ∧ Kept r d after r.archiveDir := by
  intro after
  have archived : r.Archived staged after :=
    fun q hstaging hworld => Disk.moved_other hstaging hworld
  obtain ⟨tree, hextracts, hshows⟩ := ready.shows
  refine ⟨tree, hextracts, fun rest => ?_, archived.kept disjoint fresh ready⟩
  have hworld : ¬Disk.below r.worldDir (r.stagingDir ++ rest) := by
    intro h
    rcases below_total h (below_append _ _) with h | h
    · exact disjoint.world h
    · exact disjoint.staging h
  have harchive : ¬Disk.below r.archiveDir (r.stagingDir ++ rest) := by
    intro h
    rcases below_total h (below_append _ _) with h | h
    · exact fresh.staging h
    · exact disjoint.archive fresh h
  calc after (r.worldDir ++ rest)
      = staged.moved r.worldDir r.archiveDir (r.stagingDir ++ rest) := Disk.moved_destination rest
    _ = staged (r.stagingDir ++ rest) := Disk.moved_other hworld harchive
    _ = (tree rest).map (entry r.time) := hshows rest

/-- The world is back under its name. -/
theorem Archived.recovered (disjoint : Disjoint links r d) (fresh : Fresh r d)
    (ready : Staged host links r d staged) (archived : r.Archived staged after) :
    Kept r d (after.moved r.archiveDir r.worldDir) r.worldDir := by
  refine ⟨fun rest => ?_, fun q e hstaging hworld h => ?_⟩
  · rw [Disk.moved_destination]
    exact (archived.kept disjoint fresh ready).contents rest
  · have harchive : ¬Disk.below r.archiveDir q := by
      intro hq
      rw [fresh.archive q hq] at h
      cases h
    rw [Disk.moved_other harchive hworld]
    exact archived.elsewhere fresh ready hstaging hworld h

/-- The way back, from whatever the failed move has left at the world. -/
theorem runs_recovery (disjoint : Disjoint links r d) (fresh : Fresh r d)
    (ready : Staged host links r d staged) (e : FileStep) (archived : r.Archived staged after) :
    Runs after (do
      let now ← FileProgram.disk
      .onlyIf (true && now.present links r.archiveDir) do
        .clear .discard links r.worldDir
        .move .recover true links r.archiveDir r.worldDir
      throw e : FileProgram FileStep Unit) (Survives host r d) := by
  have hpresent := archived.present disjoint fresh ready
  have cleared : ∀ {d₁ : Disk}, (∀ q, ¬Disk.below r.worldDir q → d₁ q = after q) →
      r.Archived staged d₁ :=
    fun h q hstaging hworld => (h q hworld).trans (archived q hstaging hworld)
  refine .bind (.look (.bind (.onlyIf (fun _ => .bind (.clear ?_ ?_)) fun h => ?_)))
  · intro d₁ hd₁ hfree
    refine .move hfree (.raise ?_) fun d₂ hsame _ => ?_
    · exact .inr (.inl ((cleared hd₁).recovered disjoint fresh ready))
    · rw [hsame rfl]
      exact .inl ⟨.recover, rfl, rfl, .inr ((cleared hd₁).kept disjoint fresh ready)⟩
  · intro d₁ hd₁
    exact .inl ⟨.discard, rfl, rfl, .inr ((cleared hd₁).kept disjoint fresh ready)⟩
  · rw [hpresent] at h
    cases h

theorem runs_switchWorld (disjoint : Disjoint links r d) (fresh : Fresh r d)
    (ready : Staged host links r d staged) :
    Runs staged (switchWorld links r) (Survives host r d) := by
  have hpresent : staged.present links r.worldDir = true := by
    rw [Disk.present, ready.stat_world disjoint]
    rfl
  have hbeside := ready.beside disjoint fresh
  have hfree : staged r.archiveDir = none :=
    ready.grown.fresh disjoint fresh (Disk.below_iff.mpr ⟨[], by simp⟩)
  refine .bind (.look (.bind (.onlyIf (fun _ => ?_) fun h => ?_)))
  · refine .move hfree ?_ fun d' hsame _ => ?_
    · refine .guarded (.move (Disk.moved_source (Disk.below_iff.mpr ⟨[], by simp⟩) hbeside.2) ?_ fun d₁ _ hd₁ => ?_)
      · exact .inr (.inr (published disjoint fresh ready))
      · dsimp only
        rw [hpresent]
        exact runs_recovery disjoint fresh ready .publish fun q hstaging hworld =>
          hd₁ q hstaging hworld
    · rw [hsame rfl]
      exact .inr (.inl (ready.grown.kept disjoint))
  · rw [hpresent] at h
    cases h

end Switch

/-- `restore` never loses the world, whatever interrupts its file operations. -/
theorem restore_keeps_world (host : Host) (links : Nat) (r : RestoreFiles) (disk : Disk)
    (disjoint : Disjoint links r disk) (fresh : Fresh r disk) (faults : List (Option Disk)) :
    let out := restore host links r ⟨disk, faults⟩
    Survives host r disk out.1 out.2.disk := by
  have early : ∀ (out : Except FileStep Unit) d', r.Grown disk d' → Survives host r disk out d' :=
    fun _ _ grown => .inr (.inl (grown.kept disjoint))
  suffices h : Runs disk (restore host links r) (Survives host r disk) from h faults
  refine .bind (runs_validateArtifact.mono fun out d₁ h => ?_)
  subst h
  cases out with
  | error e => exact early _ _ (.refl _)
  | ok _ =>
    refine .bind ((runs_createWorldBackup fresh).mono fun out d₂ hbackup => ?_)
    cases out with
    | error e => exact early _ _ hbackup.1
    | ok _ =>
      obtain ⟨hdir, hprepared⟩ := hbackup.2 rfl
      refine .bind (runs_extractToStaging.mono fun out d₃ hstage => ?_)
      cases out with
      | error e => exact early _ _ (hbackup.1.trans hstage.1)
      | ok _ =>
        exact runs_switchWorld disjoint fresh
          ⟨hbackup.1.trans hstage.1, hprepared.trans hstage.1, hdir, hstage.2 rfl⟩

/-- A world directory without anything in it. -/
def plainDisk : Disk := fun q => if q = [] ∨ q = ["world"] then some .directory else none

/-- The restore of an archive with one file. -/
def plainRestore : RestoreFiles where
  worldDir := ["world"]
  backupDir := ["backups"]
  stagingDir := ["staging"]
  artifact := some ⟨["world"], true, [⟨"level.dat".toList, []⟩]⟩
  backupName := "backup.zip"
  backup := []
  suffix := "0"
  time := 0

theorem restore_keeps_world_plain :
    Disjoint 8 plainRestore plainDisk ∧ Fresh plainRestore plainDisk ∧
      Survives ⟨fun _ => 2000, false, fun _ => true⟩ plainRestore plainDisk
        (restore ⟨fun _ => 2000, false, fun _ => true⟩ 8 plainRestore ⟨plainDisk, []⟩).1
        (restore ⟨fun _ => 2000, false, fun _ => true⟩ 8 plainRestore ⟨plainDisk, []⟩).2.disk := by
  have disjoint : Disjoint 8 plainRestore plainDisk := ⟨by decide, by decide, fun _ h => h⟩
  have fresh : Fresh plainRestore plainDisk := by
    refine ⟨?_, by decide, by decide, ?_⟩
    · intro q hq
      obtain ⟨rest, rfl⟩ := Disk.below_iff.mp hq
      simp [plainDisk, plainRestore, archiveDir]
    · intro path hpath q hq
      obtain ⟨rest, rfl⟩ := Disk.below_iff.mp hq
      simp only [backupPaths, List.mem_cons, List.not_mem_nil, or_false] at hpath
      rcases hpath with rfl | rfl | rfl <;> simp [plainDisk, plainRestore]
  exact ⟨disjoint, fresh, restore_keeps_world ⟨fun _ => 2000, false, fun _ => true⟩ 8 plainRestore plainDisk disjoint fresh []⟩

end McManager.RestoreFiles
