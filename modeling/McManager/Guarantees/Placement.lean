import McManager.Store.LiveWorlds
import McManager.Web.WorldDirectory

namespace McManager.Web

open Framework

section Places

variable (cwd : Path) (roots : Roots)

def Placed (w : World) : Prop :=
  absoluteAddress w = none →
    Inside ((minecraftRoot roots w.worldId).location cwd) ((worldDir roots w).location cwd)

instance (w : World) : Decidable (Placed cwd roots w) :=
  inferInstanceAs (Decidable (absoluteAddress w = none → _))

/-- Neither directory equals or contains the other. -/
def Separate (v w : World) : Prop :=
  ¬(worldDir roots v).location cwd <+: (worldDir roots w).location cwd ∧
    ¬(worldDir roots w).location cwd <+: (worldDir roots v).location cwd

/-- The directories of the live worlds lie inside the root and are separate. -/
structure Separated (db : Database) : Prop where
  inside : ∀ w ∈ db.worlds, w.live = true → Placed cwd roots w
  separate : (db.worlds.filter World.live).Pairwise (Separate cwd roots)

theorem separated_iff {db : Database} : Separated cwd roots db ↔
    Arranged (Placed cwd roots) (Separate cwd roots) db.worlds := by
  constructor
  · intro h
    refine ⟨?_, h.separate⟩
    intro w hw
    exact h.inside w (List.mem_filter.mp hw).1 (List.mem_filter.mp hw).2
  · intro h
    refine ⟨?_, h.pairs⟩
    intro w hw hlive
    exact h.each w (List.mem_filter.mpr ⟨hw, hlive⟩)

/-- What the routes do not check of the names of a world, beside these others: its display name
leads below the root, unless its address is an absolute path, and to a place of its own. -/
def NamesChecked (w : World) (others : List World) : Prop :=
  (absoluteAddress w = none →
    LeadsBelow ((minecraftRoot roots w.worldId).location cwd) (PurePath.parse w.displayName)) ∧
  ∀ v ∈ others, v.live = true →
    ¬site cwd roots w <+: site cwd roots v ∧ ¬site cwd roots v <+: site cwd roots w

theorem namesChecked_iff {w : World} {others : List World} : NamesChecked cwd roots w others ↔
    Placed cwd roots w ∧ ∀ v ∈ others, v.live = true → Separate cwd roots w v := by
  unfold NamesChecked Placed Separate
  simp only [location_worldDir]
  constructor
  · intro h
    exact ⟨fun relative => (inside_site relative).mpr (h.1 relative), h.2⟩
  · intro h
    exact ⟨fun relative => (inside_site relative).mp (h.1 relative), h.2⟩

/-- What the routes do not check of the names a statement sets. -/
def DirectoryChecked (s : Stmt) (db : Database) : Prop :=
  match s with
  | .insertWorld row => NamesChecked cwd roots row db.worlds
  | .editWorld worldId fields => ∀ w ∈ db.worlds, w.live = true → w.worldId = worldId →
    NamesChecked cwd roots (fields.set w) (db.worlds.filter (·.worldId != worldId))
  | .updateRuntimeConfig worldId after _ expectedVersion =>
    ∀ w ∈ db.worlds, w.live = true → hits worldId expectedVersion w = true →
      NamesChecked cwd roots (after.set w) (db.worlds.filter fun v => !hits worldId expectedVersion v)
  | _ => True

variable {cwd roots}

theorem separate_symm (v w : World) (h : Separate cwd roots v w) : Separate cwd roots w v :=
  ⟨h.2, h.1⟩

/-- An update keeps the directories separate when the names it sets are checked. -/
theorem separated_update {db : Database} {p : World → Bool} {f : World → World}
    (keeps : ∀ w, (f w).live = w.live)
    (once : (db.worlds.filter World.live).Pairwise fun v w => ¬(p v = true ∧ p w = true))
    (separated : Separated cwd roots db) :
    Separated cwd roots { db with worlds := updateWhere p f db.worlds } ↔
      ∀ w ∈ db.worlds, w.live = true → p w = true →
        NamesChecked cwd roots (f w) (db.worlds.filter fun v => !p v) := by
  rw [separated_iff, arranged_update separate_symm keeps once ((separated_iff cwd roots).mp separated)]
  apply forall₄_congr
  intro w hw hlive hp
  rw [namesChecked_iff]
  apply and_congr_right
  intro _
  constructor
  · intro h v hv hvlive
    obtain ⟨hv, hpv⟩ := List.mem_filter.mp hv
    exact h v hv hvlive (by simpa using hpv)
  · intro h v hv hvlive hpv
    exact h v (List.mem_filter.mpr ⟨hv, by simp [hpv]⟩) hvlive

/-- The columns of names and addresses decide what is checked. -/
theorem namesChecked_congr {v w : World} {others : List World} (id : v.worldId = w.worldId)
    (name : v.displayName = w.displayName) (strategy : v.addressingStrategy = w.addressingStrategy)
    (value : v.addressingValue = w.addressingValue) :
    NamesChecked cwd roots v others ↔ NamesChecked cwd roots w others := by
  unfold NamesChecked site absoluteAddress
  rw [id, name, strategy, value]

/-- A statement of the routes keeps the directories separate exactly when it sets no names, or
checked ones. -/
theorem separated_apply {s : Stmt} {db db' : Database} {n : Nat} (routed : Routed s)
    (keyed : Keyed db) (separated : Separated cwd roots db) (h : s.apply db = .ok (db', n)) :
    Separated cwd roots db' ↔ DirectoryChecked cwd roots s db := by
  have arranged := (separated_iff cwd roots).mp separated
  cases hs : onWorlds s with
  | false =>
    have same := routed_worlds routed hs h
    have checked : DirectoryChecked cwd roots s db := by
      cases s <;> first | exact trivial | cases hs
    refine ⟨fun _ => checked, fun _ => ?_⟩
    rw [separated_iff, same]
    exact arranged
  | true =>
    cases s with
    | insertWorld row =>
      obtain ⟨-, rfl⟩ := insertWorld_ok h
      obtain ⟨w, rfl, -⟩ := routed
      rw [separated_iff, arranged_append rfl arranged, DirectoryChecked, namesChecked_iff]
      apply and_congr_right
      intro _
      exact forall₃_congr fun v _ _ => ⟨separate_symm v _, separate_symm _ v⟩
    | tombstoneWorld worldId deletedBy now expectedVersion =>
      cases h
      apply iff_of_true _ trivial
      exact (separated_iff cwd roots).mpr (arranged_end (fun _ => rfl) arranged)
    | editWorld worldId fields =>
      obtain ⟨name, rfl⟩ := routed
      obtain ⟨-, rfl⟩ := editWorld_ok h
      have hit : ∀ w : World, (w.worldId == worldId) = true → w.worldId = worldId :=
        fun w hw => by simpa using hw
      refine (separated_update (f := renamed name) (fun _ => rfl) (keyed.once hit) separated).trans ?_
      apply forall₃_congr
      intro w hw hlive
      simp only [beq_iff_eq]
      rfl
    | updateRuntimeConfig worldId after now expectedVersion =>
      obtain ⟨-, rfl⟩ := updateRuntimeConfig_ok h
      have hit : ∀ w : World, hits worldId expectedVersion w = true → w.worldId = worldId := by
        intro w hw
        simp only [hits, Bool.and_eq_true, beq_iff_eq] at hw
        exact hw.1.1
      refine (separated_update (f := configured after now) (fun _ => rfl) (keyed.once hit)
        separated).trans ?_
      exact forall₄_congr fun w _ _ _ => namesChecked_congr rfl rfl rfl rfl
    | _ => cases hs

end Places

theorem keyed_apply {s : Stmt} {db db' : Database} {n : Nat} (routed : Routed s)
    (keyed : Keyed db) (h : s.apply db = .ok (db', n)) : Keyed db' := by
  have update : ∀ {p : World → Bool} {f : World → World} {worlds : List World},
      (∀ w, (f w).worldId = w.worldId) → (worlds.map World.worldId).Nodup →
      ((updateWhere p f worlds).map World.worldId).Nodup := by
    intro p f worlds same nodup
    have ids : (updateWhere p f worlds).map World.worldId = worlds.map World.worldId := by
      rw [updateWhere, List.map_map]
      apply List.map_congr_left
      intro w _
      simp only [Function.comp]
      split
      · exact same w
      · rfl
    rwa [ids]
  cases hs : onWorlds s with
  | false =>
    rw [Keyed, routed_worlds routed hs h]
    exact keyed
  | true =>
    cases s with
    | insertWorld row =>
      obtain ⟨constraints, rfl, -⟩ := satisfying_ok.mp h
      have fresh : (!db.hasWorld row.worldId) = true := constraints (_, _) (.head _)
      simp only [Keyed, List.map_append, List.map_cons, List.map_nil]
      apply keyed.append (List.nodup_singleton _)
      intro id hid hrow
      rw [List.mem_singleton.mp hrow] at hid
      obtain ⟨w, hw, same⟩ := List.mem_map.mp hid
      have there : db.hasWorld row.worldId = true := by
        simp only [Database.hasWorld, List.any_eq_true]
        exact ⟨w, hw, by simp [same]⟩
      rw [there] at fresh
      cases fresh
    | tombstoneWorld worldId deletedBy now expectedVersion =>
      cases h
      exact update (fun _ => rfl) keyed
    | editWorld worldId fields =>
      obtain ⟨-, rfl, -⟩ := satisfying_ok.mp h
      exact update (fun _ => rfl) keyed
    | updateRuntimeConfig worldId after now expectedVersion =>
      obtain ⟨-, rfl, -⟩ := satisfying_ok.mp h
      exact update (fun _ => rfl) keyed
    | _ => cases hs

end McManager.Web
