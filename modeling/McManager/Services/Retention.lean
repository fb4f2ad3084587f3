import Mathlib.Data.String.Basic
import McManager.Services.Cleanup
import McManager.Store.Effects

namespace McManager

open Framework

namespace Cleanup

theorem string_trichotomy (s t : String) : s < t ∨ s = t ∨ t < s :=
  lt_trichotomy s t

theorem worldBefore_total (v w : Option String) :
    worldBefore v w = true ∨ v = w ∨ worldBefore w v = true := by
  cases v with
  | none => cases w <;> simp [worldBefore]
  | some v =>
    cases w with
    | none => simp [worldBefore]
    | some w => simpa [worldBefore] using string_trichotomy v w

theorem worldBefore_trans {u v w : Option String} (h : worldBefore u v = true)
    (h' : worldBefore v w = true) : worldBefore u w = true := by
  cases u with
  | none => cases w <;> cases v <;> simp_all [worldBefore]
  | some u =>
    cases v with
    | none => cases h
    | some v =>
      cases w with
      | none => cases h'
      | some w =>
        simp only [worldBefore, decide_eq_true_eq] at h h' ⊢
        exact String.lt_trans h h'

theorem listedBefore_iff {a b : BackupArtifact} : listedBefore a b = true ↔
    worldBefore a.worldId b.worldId = true ∨ a.worldId = b.worldId ∧
      (a.category < b.category ∨ a.category = b.category ∧ b.createdAt ≤ a.createdAt) := by
  simp [listedBefore]

instance listedBefore_total :
    Std.Total fun a b : BackupArtifact => listedBefore a b = true where
  total a b := by
    simp only [listedBefore_iff]
    obtain worlds | worlds | worlds := worldBefore_total a.worldId b.worldId
    · exact .inl (.inl worlds)
    · obtain categories | categories | categories := string_trichotomy a.category b.category
      · exact .inl (.inr ⟨worlds, .inl categories⟩)
      · obtain created | created := le_total b.createdAt a.createdAt
        · exact .inl (.inr ⟨worlds, .inr ⟨categories, created⟩⟩)
        · exact .inr (.inr ⟨worlds.symm, .inr ⟨categories.symm, created⟩⟩)
      · exact .inr (.inr ⟨worlds.symm, .inl categories⟩)
    · exact .inr (.inl worlds)

instance listedBefore_trans :
    IsTrans BackupArtifact fun a b => listedBefore a b = true where
  trans a b c h h' := by
    rw [listedBefore_iff] at h h' ⊢
    obtain h | ⟨same, h⟩ := h
    · obtain h' | ⟨same', -⟩ := h'
      · exact .inl (worldBefore_trans h h')
      · rw [← same']
        exact .inl h
    · obtain h' | ⟨same', h'⟩ := h'
      · rw [same]
        exact .inl h'
      · refine .inr ⟨same.trans same', ?_⟩
        obtain h | ⟨category, h⟩ := h
        · obtain h' | ⟨category', -⟩ := h'
          · exact .inl (String.lt_trans h h')
          · rw [← category']
            exact .inl h
        · rw [category]
          obtain h' | ⟨category', h'⟩ := h'
          · exact .inl h'
          · exact .inr ⟨category', h'.trans h⟩

/-- Newest first. -/
abbrev Newest (artifacts : List BackupArtifact) : Prop :=
  artifacts.Pairwise fun a b => b.createdAt ≤ a.createdAt

theorem mem_liveArtifacts {db : Database} {worldId : Option String} {a : BackupArtifact} :
    a ∈ liveArtifacts db worldId ↔
      a ∈ db.artifacts ∧ a.live = true ∧ (worldId = none ∨ a.worldId = worldId) := by
  simp [liveArtifacts, List.mem_insertionSort]

/-- The live artifacts of one group. -/
def liveGroup (db : Database) (key : Option String × String) : List BackupArtifact :=
  db.artifacts.filter fun a => a.live && groupKey a == key

theorem mem_liveGroup {db : Database} {key : Option String × String} {a : BackupArtifact} :
    a ∈ liveGroup db key ↔ a ∈ db.artifacts ∧ a.live = true ∧ groupKey a = key := by
  simp [liveGroup]

/-- A group in scope is what the query lists of it. -/
theorem liveArtifacts_group {db : Database} {worldId : Option String}
    {key : Option String × String} (scope : worldId = none ∨ key.1 = worldId) :
    ((liveArtifacts db worldId).filter (groupKey · == key)).Perm (liveGroup db key) := by
  have perm := (List.perm_insertionSort (fun a b => listedBefore a b = true)
    (db.artifacts.filter fun a => a.live && (worldId.isNone || a.worldId == worldId))).filter
      (groupKey · == key)
  refine perm.trans (List.Perm.of_eq ?_)
  rw [List.filter_filter]
  refine List.filter_congr fun a _ => ?_
  show (groupKey a == key && (a.live && (worldId.isNone || a.worldId == worldId))) =
    (a.live && groupKey a == key)
  by_cases hkey : groupKey a = key
  · have world : a.worldId = key.1 := congrArg Prod.fst hkey
    obtain rfl | rfl := scope
    · simp [hkey]
    · simp [hkey, world]
  · have other : (groupKey a == key) = false := beq_eq_false_iff_ne.mpr hkey
    simp [other]

theorem newest_group (db : Database) (worldId : Option String) (key : Option String × String) :
    Newest ((liveArtifacts db worldId).filter (groupKey · == key)) := by
  have sorted : (liveArtifacts db worldId).Pairwise fun a b => listedBefore a b = true :=
    List.pairwise_insertionSort _ _
  refine (List.Pairwise.filter (groupKey · == key) sorted).imp_of_mem ?_
  intro a b ha hb h
  have hka : groupKey a = key := by simpa using (List.mem_filter.mp ha).2
  have hkb : groupKey b = key := by simpa using (List.mem_filter.mp hb).2
  have same : groupKey a = groupKey b := hka.trans hkb.symm
  simp only [groupKey, Prod.mk.injEq] at same
  obtain h | ⟨-, h | ⟨-, h⟩⟩ := listedBefore_iff.mp h
  · rw [same.1] at h
    cases hb : b.worldId <;> simp [worldBefore, hb] at h
  · rw [same.2] at h
    exact absurd h (String.lt_irrefl _)
  · exact h

/-- What makes an artifact a candidate. -/
theorem mem_candidatesAt {policy : CleanupPolicy} {now : Int} {db : Database}
    {c : CleanupCandidate} : c ∈ candidatesAt policy now db ↔
      ∃ a ∈ liveArtifacts db policy.worldId, c = a.candidate ∧
        a.createdAt < now - policy.olderThanDays * daySeconds ∧ a.suspect = false ∧
        a.artifactId ∉ protectedIds policy.keepPerCategory
          ((liveArtifacts db policy.worldId).filter (groupKey · == groupKey a)) := by
  simp only [candidatesAt, List.mem_insertionSort, List.mem_map, List.mem_flatMap,
    List.mem_eraseDups, groupCandidates, List.mem_filter]
  constructor
  · intro h
    obtain ⟨a, ⟨key, -, ⟨ha, hkey⟩, hcond⟩, rfl⟩ := h
    obtain rfl : groupKey a = key := by simpa using hkey
    simp only [Bool.not_eq_true', Bool.or_eq_false_iff, decide_eq_false_iff_not, not_le] at hcond
    exact ⟨a, ha, rfl, hcond.1.1, hcond.2, by simpa using hcond.1.2⟩
  · intro h
    obtain ⟨a, ha, rfl, old, sound, unprotected⟩ := h
    refine ⟨a, ⟨groupKey a, ⟨a, ha, rfl⟩, ⟨ha, by simp⟩, ?_⟩, rfl⟩
    simp only [Bool.not_eq_true', Bool.or_eq_false_iff, decide_eq_false_iff_not, not_le]
    exact ⟨⟨old, by simpa using unprotected⟩, sound⟩

/-- No live artifact has this id. -/
def Gone (db : Database) (artifactId : String) : Prop :=
  ∀ a ∈ db.artifacts, a.artifactId = artifactId → a.live = false

/-- What a cleanup leaves of one group. `C` holds of the readings of the clock. -/
structure GroupRetained (C : Int → Prop) (before after : Database) (key : Option String × String) :
    Prop where
  floor : ∃ kept : List BackupArtifact, (kept.map (·.artifactId)).Nodup ∧
    kept.length = min 3 (liveGroup before key).length ∧
    ∀ k ∈ kept, k ∈ liveGroup after key ∧
      ∀ a ∈ liveGroup before key, Gone after a.artifactId → a.createdAt ≤ k.createdAt
  newest : ∀ a ∈ liveGroup before key, a.suspect = false → ∃ v ∈ liveGroup after key,
    v.suspect = false ∧ ∀ b ∈ liveGroup before key, b.suspect = false → b.createdAt ≤ v.createdAt
  spared : ∀ a ∈ liveGroup before key, Gone after a.artifactId → a.suspect = false ∧
    ∃ t, C t ∧ a.createdAt + 3 * daySeconds < t

/-- The floors of every group between two databases. -/
def Retains (C : Int → Prop) (before after : Database) : Prop :=
  ∀ key, GroupRetained C before after key

theorem liveGroup_congr {db db' : Database} (same : db'.artifacts = db.artifacts)
    (key : Option String × String) : liveGroup db' key = liveGroup db key := by
  rw [liveGroup, liveGroup, same]

/-- The floors say nothing about other tables. -/
theorem Retains.congr {C : Int → Prop} {before after after' : Database}
    (h : Retains C before after) (same : after'.artifacts = after.artifacts) :
    Retains C before after' := by
  intro key
  have gone : ∀ id, Gone after' id ↔ Gone after id := by
    intro id
    rw [Gone, Gone, same]
  obtain ⟨floor, newest, spared⟩ := h key
  constructor
  · simpa only [gone, liveGroup_congr same] using floor
  · simpa only [liveGroup_congr same] using newest
  · simpa only [gone] using spared

/-- Every group keeps three artifacts of those it has. -/
theorem Retains.floor {C : Int → Prop} {before after : Database} (h : Retains C before after)
    (key : Option String × String) :
    min 3 (liveGroup before key).length ≤ (liveGroup after key).length := by
  obtain ⟨kept, nodup, length, member⟩ := (h key).floor
  rw [← length]
  apply List.Subperm.length_le
  apply List.subperm_of_subset
  · exact nodup.of_map
  · exact fun k hk => (member k hk).1

/-- The primary key of `backup_artifacts`. -/
def UniqueArtifacts (db : Database) : Prop := (db.artifacts.map (·.artifactId)).Nodup

/-- The database with these artifacts marked as deleted. -/
def marked (ids : List String) (now : Int) (deletedBy : String) (db : Database) : Database :=
  { db with
    artifacts := updateWhere (fun a => ids.contains a.artifactId)
      (fun a => { a with deletedAt := some now, deletedBy := some deletedBy }) db.artifacts }

section Marked

variable {C : Int → Prop} {db : Database} {ids : List String} {now : Int} {deletedBy : String}

theorem mem_marked {a : BackupArtifact} : a ∈ (marked ids now deletedBy db).artifacts ↔
    ∃ b ∈ db.artifacts, (b.artifactId ∈ ids ∧
      a = { b with deletedAt := some now, deletedBy := some deletedBy }) ∨
      b.artifactId ∉ ids ∧ a = b := by
  simp [marked, mem_updateWhere]

theorem marked_kept {a : BackupArtifact} {key : Option String × String} (ha : a ∈ liveGroup db key)
    (kept : a.artifactId ∉ ids) : a ∈ liveGroup (marked ids now deletedBy db) key := by
  obtain ⟨ha, live, hkey⟩ := mem_liveGroup.mp ha
  exact mem_liveGroup.mpr ⟨mem_marked.mpr ⟨a, ha, .inr ⟨kept, rfl⟩⟩, live, hkey⟩

theorem marked_gone {a : BackupArtifact} {key : Option String × String} (ha : a ∈ liveGroup db key)
    (gone : Gone (marked ids now deletedBy db) a.artifactId) : a.artifactId ∈ ids := by
  by_contra kept
  have stays : a ∈ liveGroup (marked ids now deletedBy db) key := marked_kept ha kept
  obtain ⟨ha, live, -⟩ := mem_liveGroup.mp stays
  rw [gone a ha rfl] at live
  cases live

/-- A group keeps its floors when only unprotected, old and sound artifacts of it go. -/
theorem retained_of_unprotected {artifacts : List BackupArtifact} {keepPerCategory : Int}
    {key : Option String × String} (unique : UniqueArtifacts db)
    (perm : artifacts.Perm (liveGroup db key)) (newest : Newest artifacts)
    (keeps : 3 ≤ keepPerCategory)
    (went : ∀ a ∈ artifacts, a.artifactId ∈ ids → a.suspect = false ∧
      (∃ t, C t ∧ a.createdAt + 3 * daySeconds < t) ∧
      a.artifactId ∉ protectedIds keepPerCategory artifacts) :
    GroupRetained C db (marked ids now deletedBy db) key := by
  have nodup : (artifacts.map (·.artifactId)).Nodup :=
    (perm.map (·.artifactId)).nodup_iff.mpr
      (List.Nodup.sublist (List.Sublist.map BackupArtifact.artifactId List.filter_sublist) unique)
  have member : ∀ {a}, a ∈ liveGroup db key ↔ a ∈ artifacts := perm.mem_iff.symm
  have long : 3 ≤ keepPerCategory.toNat := by omega
  constructor
  · refine ⟨artifacts.take 3, nodup.sublist ((List.take_sublist 3 artifacts).map _), ?_, ?_⟩
    · rw [List.length_take, perm.length_eq]
    · intro k hk
      have hmem := List.mem_of_mem_take hk
      have kept : k.artifactId ∉ ids := by
        intro hid
        apply (went k hmem hid).2.2
        have taken : k ∈ artifacts.take keepPerCategory.toNat := by
          have prefix' : artifacts.take 3 <+: artifacts.take keepPerCategory.toNat :=
            List.take_prefix_take_left long
          exact prefix'.subset hk
        exact List.mem_map.mpr ⟨k, List.mem_append_left _ taken, rfl⟩
      refine ⟨marked_kept (member.mpr hmem) kept, ?_⟩
      intro a ha gone
      have hid := marked_gone ha gone
      have later : a ∈ artifacts.drop 3 := by
        have split : a ∈ artifacts.take 3 ++ artifacts.drop 3 := by
          rw [List.take_append_drop]
          exact member.mp ha
        refine (List.mem_append.mp split).resolve_left fun early => ?_
        apply (went a (member.mp ha) hid).2.2
        have prefix' : artifacts.take 3 <+: artifacts.take keepPerCategory.toNat :=
          List.take_prefix_take_left long
        exact List.mem_map.mpr ⟨a, List.mem_append_left _ (prefix'.subset early), rfl⟩
      rw [← List.take_append_drop 3 artifacts] at newest
      exact (List.pairwise_append.mp newest).2.2 k hk a later
  · intro a ha sound
    obtain ⟨v, hv⟩ : ∃ v, artifacts.find? (fun a => !a.suspect) = some v := by
      apply Option.isSome_iff_exists.mp
      rw [List.find?_isSome]
      exact ⟨a, member.mp ha, by simp [sound]⟩
    obtain ⟨hsound, front, back, hsplit, hfront⟩ := List.find?_eq_some_iff_append.mp hv
    have hmem : v ∈ artifacts := List.mem_of_find?_eq_some hv
    have kept : v.artifactId ∉ ids := by
      intro hid
      apply (went v hmem hid).2.2
      exact List.mem_map.mpr ⟨v, List.mem_append_right _ (by simp [hv]), rfl⟩
    refine ⟨v, marked_kept (member.mpr hmem) kept, by simpa using hsound, ?_⟩
    intro b hb soundb
    have hb := member.mp hb
    rw [hsplit] at hb newest
    obtain hb | hb := List.mem_append.mp hb
    · have := hfront b hb
      simp [soundb] at this
    · obtain rfl | hb := List.mem_cons.mp hb
      · exact le_refl _
      · exact (List.pairwise_cons.mp (List.pairwise_append.mp newest).2.1).1 b hb
  · intro a ha gone
    obtain ⟨sound, old, -⟩ := went a (member.mp ha) (marked_gone ha gone)
    exact ⟨sound, old⟩

/-- A group none of whose artifacts goes keeps its floors. -/
theorem retained_untouched {key : Option String × String} (unique : UniqueArtifacts db)
    (stay : ∀ a ∈ liveGroup db key, a.artifactId ∉ ids) :
    GroupRetained C db (marked ids now deletedBy db) key := by
  have perm := List.perm_insertionSort (fun a b : BackupArtifact => b.createdAt ≤ a.createdAt)
    (liveGroup db key)
  have newest : Newest ((liveGroup db key).insertionSort fun a b => b.createdAt ≤ a.createdAt) := by
    have : Std.Total fun a b : BackupArtifact => b.createdAt ≤ a.createdAt :=
      ⟨fun a b => le_total b.createdAt a.createdAt⟩
    have : IsTrans BackupArtifact fun a b => b.createdAt ≤ a.createdAt :=
      ⟨fun a b c h h' => h'.trans h⟩
    exact List.pairwise_insertionSort _ _
  apply retained_of_unprotected unique perm newest (le_refl (3 : Int))
  intro a ha hid
  exact absurd hid (stay a (perm.mem_iff.mp ha))

/-- Removing candidates keeps the floors of every group. -/
theorem retains_marked {policy : CleanupPolicy} {t : Int} (unique : UniqueArtifacts db) (clock : C t)
    (days : cleanupAgeFloorDays ≤ policy.olderThanDays)
    (keeps : cleanupCountFloor ≤ policy.keepPerCategory)
    (candidates : ∀ id ∈ ids, ∃ c ∈ candidatesAt policy t db, c.artifactId = id) :
    Retains C db (marked ids now deletedBy db) := by
  intro key
  -- A candidate of this group is one the query lists for it.
  have went : ∀ a ∈ liveGroup db key, a.artifactId ∈ ids →
      (policy.worldId = none ∨ key.1 = policy.worldId) ∧ a.suspect = false ∧
      (∃ t, C t ∧ a.createdAt + 3 * daySeconds < t) ∧
      a.artifactId ∉ protectedIds policy.keepPerCategory
        ((liveArtifacts db policy.worldId).filter (groupKey · == key)) := by
    intro a ha hid
    obtain ⟨ha, -, hkey⟩ := mem_liveGroup.mp ha
    obtain ⟨c, hc, hcid⟩ := candidates _ hid
    obtain ⟨b, hb, rfl, old, sound, unprotected⟩ := mem_candidatesAt.mp hc
    obtain ⟨hb, -, scope⟩ := mem_liveArtifacts.mp hb
    obtain rfl : b = a := nodup_key_inj unique hb ha hcid
    have world : b.worldId = key.1 := congrArg Prod.fst hkey
    rw [world] at scope
    rw [hkey] at unprotected
    refine ⟨scope, sound, ⟨t, clock, ?_⟩, unprotected⟩
    have : 3 * daySeconds ≤ policy.olderThanDays * daySeconds :=
      Int.mul_le_mul_of_nonneg_right days (by decide)
    omega
  by_cases scope : policy.worldId = none ∨ key.1 = policy.worldId
  · have perm : ((liveArtifacts db policy.worldId).filter (groupKey · == key)).Perm
        (liveGroup db key) := liveArtifacts_group scope
    apply retained_of_unprotected unique perm (newest_group db policy.worldId key) keeps
    intro a ha hid
    exact (went a (perm.mem_iff.mp ha) hid).2
  · apply retained_untouched unique
    intro a ha hid
    exact scope (went a ha hid).1

/-- Nothing is lost where no artifact goes. -/
theorem retains_same {db' : Database} (unique : UniqueArtifacts db)
    (same : db'.artifacts = db.artifacts) : Retains C db db' := by
  have none : (marked [] 0 "" db).artifacts = db.artifacts := by
    apply updateWhere_eq_self
    intro a _
    rfl
  have h : Retains C db (marked [] 0 "" db) := fun key =>
    retained_untouched unique fun a _ => List.not_mem_nil
  exact h.congr (same.trans none.symm)

end Marked

end Cleanup

end McManager
