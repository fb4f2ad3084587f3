import Mathlib.Logic.Function.Basic
import McManager.Framework.OrderedDict

/-! Values of a base, and what each owner puts over some of them. -/

namespace McManager.Framework

structure Layers (K W V : Type*) where
  base : K → V
  above : W → K → Option V

namespace Layers

variable {K W V : Type*}

/-- What an owner sees of its own values and of a base, which may be looked at apart from them. -/
def through (base : K → V) (above : K → Option V) (k : K) : V := (above k).getD (base k)

/-- New values in the base, or over it for one owner; a name that gets none there is free again. -/
inductive Edit (K W V : Type*)
  | base (patch : List (K × V))
  | above (owner : W) (patch : List (K × Option V))

section Edits

variable [DecidableEq K] [DecidableEq W]

def edit (l : Layers K W V) : Edit K W V → Layers K W V
  | .base patch => { l with base := fun k => (latest patch k).getD (l.base k) }
  | .above owner patch =>
    { l with above := Function.update l.above owner fun k => (latest patch k).getD (l.above owner k) }

variable (l : Layers K W V)

@[simp] theorem base_edit_base (patch : List (K × V)) (k : K) :
    (l.edit (.base patch)).base k = (latest patch k).getD (l.base k) := rfl

@[simp] theorem above_edit_own (owner : W) (patch : List (K × Option V)) (k : K) :
    (l.edit (.above owner patch)).above owner k = (latest patch k).getD (l.above owner k) := by
  have own := Function.update_self owner (fun k => (latest patch k).getD (l.above owner k)) l.above
  exact congrFun own k

@[simp] theorem above_edit_other {owner other : W} (apart : other ≠ owner)
    (patch : List (K × Option V)) : (l.edit (.above owner patch)).above other = l.above other :=
  Function.update_of_ne apart ..

end Edits

end Layers

namespace OrderedDict

variable {K C V : Type*} [DecidableEq K]

theorem lookup_iff {entries : List (K × V)} (distinct : (entries.map (·.1)).Nodup) {key : K}
    {value : V} : entries.lookup key = some value ↔ (key, value) ∈ entries := by
  induction entries with
  | nil => simp
  | cons e entries ih =>
    obtain ⟨k, v⟩ := e
    obtain ⟨fresh, distinct⟩ := List.nodup_cons.mp distinct
    rw [List.lookup_cons, List.mem_cons]
    by_cases here : key = k
    · subst here
      have absent : (key, value) ∉ entries := fun mem =>
        fresh (List.mem_map.mpr ⟨(key, value), mem, rfl⟩)
      simp [absent, eq_comm]
    · have apart : (key == k) = false := by simpa using here
      simp [apart, here, ih distinct]

/-- A dictionary of all keys, one of which is set. -/
theorem set_map {keys : List K} {key : K} (there : key ∈ keys) (f : K → V) (value : V) :
    set (keys.map fun k => (k, f k)) key value =
      keys.map fun k => (k, if k = key then value else f k) := by
  have present : (keys.map fun k => (k, f k)).any (·.1 == key) = true := by
    rw [List.any_eq_true]
    exact ⟨(key, f key), List.mem_map.mpr ⟨key, there, rfl⟩, by simp⟩
  rw [set, if_pos present, List.map_map]
  apply List.map_congr_left
  intro k mem
  by_cases here : k = key
  · simp [here]
  · simp [here]

/-- A dictionary of all keys, in which those with a value over them are set. -/
theorem set_over (value : C → Option V) {keys : List K} {overs : List (K × C)}
    (known : ∀ o ∈ overs, o.1 ∈ keys) (distinct : (overs.map (·.1)).Nodup) (f : K → V) :
    overs.foldl (fun d o => ((value o.2).map (set d o.1)).getD d) (keys.map fun k => (k, f k)) =
      keys.map fun k => (k, ((overs.lookup k).bind value).getD (f k)) := by
  induction overs generalizing f with
  | nil => rfl
  | cons o overs ih =>
    obtain ⟨fresh, distinct⟩ := List.nodup_cons.mp distinct
    have there : o.1 ∈ keys := known o List.mem_cons_self
    have rest : ∀ o' ∈ overs, o'.1 ∈ keys := fun o' mem => known o' (List.mem_cons_of_mem _ mem)
    have unnamed : overs.lookup o.1 = none := by
      rw [List.lookup_eq_none_iff]
      intro o' mem
      have other : o.1 ≠ o'.1 := fun same => fresh (List.mem_map.mpr ⟨o', mem, same.symm⟩)
      simpa using other
    have here : (o :: overs).lookup o.1 = some o.2 := List.lookup_cons_self
    have elsewhere : ∀ k, k ≠ o.1 → (o :: overs).lookup k = overs.lookup k := by
      intro k other
      obtain ⟨key, column⟩ := o
      have apart : (k == key) = false := by simpa using other
      rw [List.lookup_cons, apart]
    rw [List.foldl_cons]
    cases given : value o.2 with
    | none =>
      rw [Option.map_none, Option.getD_none, ih rest distinct]
      apply List.map_congr_left
      intro k mem
      by_cases same : k = o.1
      · simp [same, unnamed, here, given]
      · rw [elsewhere k same]
    | some v =>
      rw [Option.map_some, Option.getD_some, set_map there, ih rest distinct]
      apply List.map_congr_left
      intro k mem
      by_cases same : k = o.1
      · simp [same, unnamed, here, given]
      · rw [elsewhere k same, if_neg same]

end OrderedDict

end McManager.Framework
