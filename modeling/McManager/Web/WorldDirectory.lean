import McManager.Framework.PurePath
import McManager.Web.Mutations

namespace McManager.Web

open Framework

/-- The effective `minecraft_root_path` of each world; without global settings there is none. -/
abbrev Roots := String → Option String

/-- `Path(world["addressing_value"])` where the world is addressed by an absolute path. -/
def absoluteAddress (w : World) : Option PurePath :=
  if w.addressingStrategy = "path" then
    (some (PurePath.parse w.addressingValue)).filter PurePath.isAbsolute
  else none

def minecraftRoot (roots : Roots) (worldId : String) : PurePath :=
  PurePath.parse ((roots worldId).getD "worlds")

/-- `_world_dir`. -/
def worldDir (roots : Roots) (w : World) : PurePath :=
  match absoluteAddress w with
  | some candidate => candidate
  | none => (minecraftRoot roots w.worldId).join (PurePath.parse w.displayName)

/-- `_world_directory`. -/
def worldDirectory (roots : Roots) (w : World) : PurePath :=
  match absoluteAddress w with
  | some candidate => candidate
  | none =>
    match roots w.worldId with
    | none => (PurePath.parse "worlds").join (PurePath.parse w.displayName)
    | some root => (PurePath.parse root).join (PurePath.parse w.displayName)

theorem worldDirectory_eq (roots : Roots) (w : World) : worldDirectory roots w = worldDir roots w := by
  unfold worldDirectory worldDir minecraftRoot
  cases absoluteAddress w with
  | some candidate => rfl
  | none => cases roots w.worldId <;> rfl

/-- The two texts read as names of one place below `base`. -/
def SameName (base old new : PurePath) : Prop :=
  match old.isAbsolute, new.isAbsolute with
  | false, false => old.parts = new.parts
  | true, true => old = new
  | false, true => base.anchor = new.anchor ∧ base.parts ++ old.parts = new.parts
  | true, false => base.anchor = old.anchor ∧ base.parts ++ new.parts = old.parts

theorem join_eq_iff {base old new : PurePath} :
    base.join new = base.join old ↔ SameName base old new := by
  unfold SameName PurePath.join
  cases ho : old.isAbsolute <;> cases hn : new.isAbsolute
  · simp only [Bool.false_eq_true, if_false, PurePath.ext_iff, List.append_cancel_left_eq, true_and]
    exact eq_comm
  · simp only [Bool.false_eq_true, if_false, if_true, PurePath.ext_iff]
    exact ⟨fun h => ⟨h.1.symm, h.2.symm⟩, fun h => ⟨h.1.symm, h.2.symm⟩⟩
  · simp only [Bool.false_eq_true, if_false, if_true, PurePath.ext_iff]
  · simp only [if_true]
    exact eq_comm

/-- Where a world's names lead from the working directory. -/
def site (cwd : Path) (roots : Roots) (w : World) : Path :=
  match absoluteAddress w with
  | some candidate => PurePath.arrive [] (PurePath.walk (0, []) candidate.parts)
  | none =>
    let name := PurePath.parse w.displayName
    PurePath.arrive
      (if name.isAbsolute then [] else (minecraftRoot roots w.worldId).location cwd)
      (PurePath.walk (0, []) name.parts)

theorem location_worldDir (cwd : Path) (roots : Roots) (w : World) :
    (worldDir roots w).location cwd = site cwd roots w := by
  unfold worldDir site
  cases ha : absoluteAddress w with
  | some candidate =>
    have absolute : candidate.isAbsolute = true := by
      unfold absoluteAddress at ha
      split at ha
      · have found := Option.filter_eq_some_iff.mp ha
        exact found.2
      · cases ha
    exact PurePath.location_absolute absolute cwd
  | none =>
    dsimp only
    cases hn : (PurePath.parse w.displayName).isAbsolute with
    | true =>
      rw [PurePath.join_absolute hn, PurePath.location_absolute hn]
      rfl
    | false =>
      rw [PurePath.location_join hn]
      rfl

/-- The path `dir` lies strictly inside `root`. -/
def Inside (root dir : Path) : Prop := root <+: dir ∧ root ≠ dir

instance (root dir : Path) : Decidable (Inside root dir) :=
  inferInstanceAs (Decidable (root <+: dir ∧ root ≠ dir))

/-- The name, climbing out of the root, comes back into it by the root's own names, and goes
down at least one more. -/
def LeadsBelow (root : Path) (name : PurePath) : Prop :=
  let way := PurePath.walk (0, []) name.parts
  let own := if name.isAbsolute then root else root.drop (root.length - way.1)
  own <+: way.2 ∧ own ≠ way.2

theorem inside_take {root down : Path} (n : Nat) :
    Inside root (root.take n ++ down) ↔ root.drop n <+: down ∧ root.drop n ≠ down := by
  have whole := List.take_append_drop n root
  constructor
  · intro h
    have inside : Inside (root.take n ++ root.drop n) (root.take n ++ down) := by rwa [whole]
    refine ⟨(List.prefix_append_right_inj _).mp inside.1, ?_⟩
    intro same
    exact inside.2 (congrArg _ same)
  · intro h
    have inside : Inside (root.take n ++ root.drop n) (root.take n ++ down) := by
      refine ⟨(List.prefix_append_right_inj _).mpr h.1, ?_⟩
      intro same
      exact h.2 (List.append_cancel_left same)
    rwa [whole] at inside

theorem inside_site {cwd : Path} {roots : Roots} {w : World} (relative : absoluteAddress w = none) :
    Inside ((minecraftRoot roots w.worldId).location cwd) (site cwd roots w) ↔
      LeadsBelow ((minecraftRoot roots w.worldId).location cwd) (PurePath.parse w.displayName) := by
  unfold site LeadsBelow
  rw [relative]
  dsimp only
  cases hn : (PurePath.parse w.displayName).isAbsolute with
  | true =>
    rw [if_pos rfl, if_pos rfl]
    simp only [PurePath.arrive, List.take_nil, List.nil_append]
    exact Iff.rfl
  | false =>
    rw [if_neg (by simp), if_neg (by simp)]
    exact inside_take _

end McManager.Web
