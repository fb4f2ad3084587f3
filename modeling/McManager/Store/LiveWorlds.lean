import Mathlib.Data.List.Pairwise
import McManager.Store.Effects

namespace McManager

variable {P : World → Prop} {R : World → World → Prop} {p : World → Bool} {f : World → World}

/-- `P` of every live world, and `R` of any two. -/
structure Arranged (P : World → Prop) (R : World → World → Prop) (worlds : List World) : Prop where
  each : ∀ w ∈ worlds.filter World.live, P w
  pairs : (worlds.filter World.live).Pairwise R

theorem live_updateWhere {worlds : List World} (keeps : ∀ w, (f w).live = w.live) :
    (updateWhere p f worlds).filter World.live =
      (worlds.filter World.live).map fun w => if p w then f w else w := by
  rw [updateWhere, List.filter_map]
  congr 1
  apply List.filter_congr
  intro w _
  simp only [Function.comp]
  split
  · exact keeps w
  · rfl

/-- A new world has to be `P`, and `R` with every live one. -/
theorem arranged_append {worlds : List World} {row : World} (live : row.live = true)
    (arranged : Arranged P R worlds) :
    Arranged P R (worlds ++ [row]) ↔ P row ∧ ∀ w ∈ worlds, w.live = true → R w row := by
  have last : [row].filter World.live = [row] := by simp [live]
  constructor
  · intro h
    have each := h.each
    have pairs := h.pairs
    rw [List.filter_append, last] at each pairs
    refine ⟨each row (List.mem_append_right _ (List.mem_singleton_self row)), ?_⟩
    intro w hw hlive
    have hw : w ∈ worlds.filter World.live := List.mem_filter.mpr ⟨hw, hlive⟩
    exact (List.pairwise_append.mp pairs).2.2 w hw row (List.mem_singleton_self row)
  · intro h
    constructor
    · intro w hw
      rw [List.filter_append, last] at hw
      obtain hw | hw := List.mem_append.mp hw
      · exact arranged.each w hw
      · rw [List.mem_singleton.mp hw]
        exact h.1
    · rw [List.filter_append, last, List.pairwise_append]
      refine ⟨arranged.pairs, List.pairwise_singleton _ _, ?_⟩
      intro w hw v hv
      rw [List.mem_singleton.mp hv]
      exact h.2 w (List.mem_filter.mp hw).1 (List.mem_filter.mp hw).2

/-- An update of one live world has to leave it `P`, and `R` with the others. -/
theorem arranged_update {worlds : List World} (symm : ∀ v w, R v w → R w v)
    (keeps : ∀ w, (f w).live = w.live)
    (once : (worlds.filter World.live).Pairwise fun v w => ¬(p v = true ∧ p w = true))
    (arranged : Arranged P R worlds) :
    Arranged P R (updateWhere p f worlds) ↔ ∀ w ∈ worlds, w.live = true → p w = true →
      P (f w) ∧ ∀ v ∈ worlds, v.live = true → p v = false → R (f w) v := by
  constructor
  · intro h w hw hlive hp
    have each := h.each
    have pairs := h.pairs
    rw [live_updateWhere keeps] at each pairs
    rw [List.pairwise_map] at pairs
    have hw : w ∈ worlds.filter World.live := List.mem_filter.mpr ⟨hw, hlive⟩
    have updated : (if p w then f w else w) = f w := if_pos hp
    refine ⟨?_, ?_⟩
    · rw [← updated]
      exact each _ (List.mem_map.mpr ⟨w, hw, rfl⟩)
    · intro v hv hvlive hpv
      have other : w ≠ v := by
        intro same
        rw [same, hpv] at hp
        cases hp
      have symm' : Std.Symm fun v w : World => R (if p v then f v else v) (if p w then f w else w) :=
        ⟨fun _ _ h => symm _ _ h⟩
      have related := pairs.forall hw (List.mem_filter.mpr ⟨hv, hvlive⟩) other
      rwa [updated, if_neg (by simp [hpv])] at related
  · intro h
    constructor
    · intro w hw
      rw [live_updateWhere keeps] at hw
      obtain ⟨v, hv, rfl⟩ := List.mem_map.mp hw
      by_cases hp : p v = true
      · rw [if_pos hp]
        exact (h v (List.mem_filter.mp hv).1 (List.mem_filter.mp hv).2 hp).1
      · rw [if_neg hp]
        exact arranged.each v hv
    · rw [live_updateWhere keeps, List.pairwise_map]
      apply (arranged.pairs.and once).imp_of_mem
      intro v w hv hw hvw
      obtain ⟨hv, hvlive⟩ := List.mem_filter.mp hv
      obtain ⟨hw, hwlive⟩ := List.mem_filter.mp hw
      obtain ⟨old, notBoth⟩ := hvw
      by_cases hpv : p v = true
      · have hpw : p w = false := by
          rw [← Bool.not_eq_true]
          exact fun hpw => notBoth ⟨hpv, hpw⟩
        rw [if_pos hpv, if_neg (by simp [hpw])]
        exact (h v hv hvlive hpv).2 w hw hwlive hpw
      · rw [if_neg hpv]
        by_cases hpw : p w = true
        · rw [if_pos hpw]
          exact symm _ _ ((h w hw hwlive hpw).2 v hv hvlive (by simpa using hpv))
        · rwa [if_neg hpw]

/-- Updates of what neither `P` nor `R` looks at. -/
theorem arranged_same {worlds : List World} (keeps : ∀ w, (f w).live = w.live)
    (each : ∀ w, P w → P (f w)) (pairs : ∀ v w, R v w → R (f v) w ∧ R v (f w) ∧ R (f v) (f w))
    (arranged : Arranged P R worlds) : Arranged P R (updateWhere p f worlds) := by
  constructor
  · intro w hw
    rw [live_updateWhere keeps] at hw
    obtain ⟨v, hv, rfl⟩ := List.mem_map.mp hw
    have old := arranged.each v hv
    split
    · exact each v old
    · exact old
  · rw [live_updateWhere keeps, List.pairwise_map]
    apply arranged.pairs.imp
    intro v w h
    have related := pairs v w h
    split <;> split
    · exact related.2.2
    · exact related.1
    · exact related.2.1
    · exact h

theorem live_updateWhere_end (worlds : List World) (ends : ∀ w, (f w).live = false) :
    (updateWhere p f worlds).filter World.live =
      (worlds.filter World.live).filter fun w => !p w := by
  induction worlds with
  | nil => rfl
  | cons w worlds ih =>
    by_cases hp : p w = true <;> by_cases hlive : w.live = true <;>
      simp_all [updateWhere]

theorem arranged_end {worlds : List World} (ends : ∀ w, (f w).live = false)
    (arranged : Arranged P R worlds) : Arranged P R (updateWhere p f worlds) := by
  have left := live_updateWhere_end (p := p) worlds ends
  constructor
  · intro w hw
    rw [left] at hw
    exact arranged.each w (List.mem_of_mem_filter hw)
  · rw [left]
    exact arranged.pairs.filter _

/-- The primary key of `world_instances`. -/
def Keyed (db : Database) : Prop := (db.worlds.map World.worldId).Nodup

/-- Of two worlds at most one has an id. -/
theorem Keyed.once {db : Database} (keyed : Keyed db) {worldId : String}
    (hit : ∀ w, p w = true → w.worldId = worldId) :
    (db.worlds.filter World.live).Pairwise fun v w => ¬(p v = true ∧ p w = true) := by
  have distinct : db.worlds.Pairwise fun v w => v.worldId ≠ w.worldId := List.pairwise_map.mp keyed
  apply (distinct.filter _).imp
  intro v w other both
  exact other ((hit v both.1).trans (hit w both.2).symm)

end McManager
