import Mathlib.Data.List.Pairwise
import McManager.Web.Mutations

namespace McManager.Web

open Framework

/-- `_RCON_PORT_OFFSET`. -/
def rconPortOffset : Int := 10

/-- The RCON port `_launch_context` gives a server beside its game port. -/
def rconPort (w : World) : Int := w.port + rconPortOffset

/-- The ports the live worlds claim. -/
def ports (db : Database) : List Int :=
  (db.worlds.filter World.live).flatMap fun w => [w.port, rconPort w]

structure Allocated (db : Database) : Prop where
  inRange : ∀ port ∈ ports db, PortInRange port
  distinct : (ports db).Nodup

/-- Neither world claims a port of the other. -/
def Apart (v w : World) : Prop :=
  v.port ≠ w.port ∧ v.port ≠ rconPort w ∧ rconPort v ≠ w.port

theorem apart_symm {v w : World} (h : Apart v w) : Apart w v :=
  ⟨h.1.symm, h.2.2.symm, h.2.1.symm⟩

theorem allocated_iff {db : Database} : Allocated db ↔
    (∀ w ∈ db.worlds.filter World.live, PortInRange w.port ∧ w.port + rconPortOffset ≤ 65535) ∧
      (db.worlds.filter World.live).Pairwise Apart := by
  have range : (∀ port ∈ ports db, PortInRange port) ↔ ∀ w ∈ db.worlds.filter World.live,
      PortInRange w.port ∧ w.port + rconPortOffset ≤ 65535 := by
    constructor
    · intro h w hw
      have game := h w.port (List.mem_flatMap.mpr ⟨w, hw, by simp⟩)
      have rcon := h (rconPort w) (List.mem_flatMap.mpr ⟨w, hw, by simp⟩)
      exact ⟨game, rcon.2⟩
    · intro h port hport
      obtain ⟨w, hw, hport⟩ := List.mem_flatMap.mp hport
      obtain ⟨game, bound⟩ := h w hw
      obtain rfl | rfl : port = w.port ∨ port = rconPort w := by simpa using hport
      · exact game
      · have low := game.1
        refine ⟨?_, bound⟩
        simp only [rconPort, rconPortOffset]
        omega
  have distinct : (ports db).Nodup ↔ (db.worlds.filter World.live).Pairwise Apart := by
    have own : ∀ w : World, [w.port, rconPort w].Nodup := by
      intro w
      simp only [rconPort, rconPortOffset, List.nodup_cons, List.mem_singleton, List.not_mem_nil,
        not_false_eq_true, List.nodup_nil, and_true]
      omega
    rw [ports, List.nodup_flatMap]
    simp only [own, implies_true, true_and]
    apply List.Pairwise.iff
    intro v w
    simp only [Function.onFun, List.disjoint_cons_left, List.disjoint_nil_left, List.mem_cons,
      List.not_mem_nil, or_false, not_or, and_true, Apart, rconPort]
    omega
  exact ⟨fun h => ⟨range.mp h.inRange, distinct.mp h.distinct⟩,
    fun h => ⟨range.mpr h.1, distinct.mpr h.2⟩⟩

/-- The port leaves room for its RCON port and meets no RCON port of these worlds. -/
def FreePort (port : Int) (others : List World) : Prop :=
  port + rconPortOffset ≤ 65535 ∧
    ∀ w ∈ others, w.live = true → port ≠ rconPort w ∧ port + rconPortOffset ≠ w.port

/-- What the routes do not check of the port a statement sets. -/
def PortChecked (s : Stmt) (db : Database) : Prop :=
  match s with
  | .insertWorld row => FreePort row.port db.worlds
  | .updateRuntimeConfig worldId after _ expectedVersion =>
    ∀ port, after.port = some port → ∀ w ∈ db.worlds, hits worldId expectedVersion w = true →
      FreePort port (db.worlds.filter fun v => !hits worldId expectedVersion v)
  | _ => True

theorem live_updateWhere {p : World → Bool} {f : World → World} {worlds : List World}
    (keeps : ∀ w, (f w).live = w.live) :
    (updateWhere p f worlds).filter World.live =
      (worlds.filter World.live).map fun w => if p w then f w else w := by
  rw [updateWhere, List.filter_map]
  congr 1
  apply List.filter_congr
  intro w _
  simp only [Function.comp]
  split
  · exact keeps w
  · rfl

theorem liveUnique_ports {worlds : List World} (h : liveUnique worlds = true) :
    (worlds.filter World.live).Pairwise fun v w => v.port ≠ w.port := by
  simp only [liveUnique, Bool.and_eq_true, decide_eq_true_eq] at h
  exact List.pairwise_map.mp h.2

theorem allocated_insertWorld {db : Database} {row : World} (live : row.live = true)
    (range : PortInRange row.port) (unique : liveUnique (db.worlds ++ [row]) = true)
    (allocated : Allocated db) :
    Allocated { db with worlds := db.worlds ++ [row] } ↔ FreePort row.port db.worlds := by
  obtain ⟨ranges, apart⟩ := allocated_iff.mp allocated
  have last : [row].filter World.live = [row] := by simp [live]
  have fresh : ∀ w ∈ db.worlds.filter World.live, w.port ≠ row.port := by
    have h := liveUnique_ports unique
    rw [List.filter_append, last] at h
    intro w hw
    exact (List.pairwise_append.mp h).2.2 w hw row (List.mem_singleton_self row)
  rw [allocated_iff]
  dsimp only
  rw [List.filter_append, last, List.pairwise_append]
  constructor
  · intro h
    refine ⟨(h.1 row (List.mem_append_right _ (List.mem_singleton_self row))).2, ?_⟩
    intro w hw hlive
    have hw : w ∈ db.worlds.filter World.live := List.mem_filter.mpr ⟨hw, hlive⟩
    have h := h.2.2.2 w hw row (List.mem_singleton_self row)
    exact ⟨h.2.2.symm, h.2.1.symm⟩
  · intro h
    refine ⟨?_, apart, List.pairwise_singleton _ _, ?_⟩
    · intro w hw
      obtain hw | hw := List.mem_append.mp hw
      · exact ranges w hw
      · rw [List.mem_singleton.mp hw]
        exact ⟨range, h.1⟩
    · intro w hw v hv
      rw [List.mem_singleton.mp hv]
      have free := h.2 w (List.mem_filter.mp hw).1 (List.mem_filter.mp hw).2
      exact ⟨fresh w hw, free.2.symm, free.1.symm⟩

/-- Where an update gives the port to the rows it hits, the other live worlds decide. -/
theorem allocated_setPort {db : Database} {p : World → Bool} {f : World → World} {port : Int}
    (keeps : ∀ w, (f w).live = w.live) (sets : ∀ w, (f w).port = port)
    (hit : ∀ w, p w = true → w.live = true) (range : PortInRange port)
    (unique : liveUnique (updateWhere p f db.worlds) = true) (allocated : Allocated db) :
    Allocated { db with worlds := updateWhere p f db.worlds } ↔
      ∀ w ∈ db.worlds, p w = true → FreePort port (db.worlds.filter fun v => !p v) := by
  obtain ⟨ranges, apart⟩ := allocated_iff.mp allocated
  have rcon : ∀ w, rconPort (f w) = port + rconPortOffset := fun w => by rw [rconPort, sets]
  have ports := liveUnique_ports unique
  rw [live_updateWhere keeps, List.pairwise_map] at ports
  rw [allocated_iff]
  dsimp only
  rw [live_updateWhere keeps, List.pairwise_map]
  constructor
  · intro h w hw hp
    have hlive : w ∈ db.worlds.filter World.live := List.mem_filter.mpr ⟨hw, hit w hp⟩
    have set : (if p w then f w else w).port = port := by rw [if_pos hp, sets]
    refine ⟨?_, ?_⟩
    · have bound := (h.1 _ (List.mem_map.mpr ⟨w, hlive, rfl⟩)).2
      rwa [set] at bound
    · intro v hv hvlive
      obtain ⟨hv, hpv⟩ := List.mem_filter.mp hv
      have hpv : p v = false := by simpa using hpv
      have other : w ≠ v := by
        intro same
        rw [same, hpv] at hp
        cases hp
      have symm : Std.Symm fun v w : World => Apart (if p v then f v else v) (if p w then f w else w) :=
        ⟨fun _ _ h => apart_symm h⟩
      have h := h.2.forall hlive (List.mem_filter.mpr ⟨hv, hvlive⟩) other
      have unset : (if p v then f v else v) = v := if_neg (by simp [hpv])
      simp only [Apart, rconPort, set, unset] at h
      exact ⟨h.2.1, h.2.2⟩
  · intro h
    refine ⟨?_, ?_⟩
    · intro w hw
      obtain ⟨v, hv, rfl⟩ := List.mem_map.mp hw
      by_cases hp : p v = true
      · rw [if_pos hp, sets]
        exact ⟨range, (h v (List.mem_filter.mp hv).1 hp).1⟩
      · rw [if_neg hp]
        exact ranges v hv
    · apply (apart.and ports).imp_of_mem
      intro v w hv hw hvw
      obtain ⟨hv, hvlive⟩ := List.mem_filter.mp hv
      obtain ⟨hw, hwlive⟩ := List.mem_filter.mp hw
      obtain ⟨old, new⟩ := hvw
      by_cases hpv : p v = true
      · by_cases hpw : p w = true
        · rw [if_pos hpv, if_pos hpw, sets, sets] at new
          exact absurd rfl new
        · have free := (h v hv hpv).2 w (List.mem_filter.mpr ⟨hw, by simpa using hpw⟩) hwlive
          rw [if_pos hpv, if_neg hpw] at new ⊢
          rw [sets] at new
          rw [Apart, sets, rcon]
          exact ⟨new, free.1, free.2⟩
      · by_cases hpw : p w = true
        · have free := (h w hw hpw).2 v (List.mem_filter.mpr ⟨hv, by simpa using hpv⟩) hvlive
          rw [if_neg hpv, if_pos hpw] at new ⊢
          apply apart_symm
          rw [sets] at new
          rw [Apart, sets, rcon]
          exact ⟨new.symm, free.1, free.2⟩
        · rw [if_neg hpv, if_neg hpw]
          exact old

theorem allocated_keepPorts {db : Database} {p : World → Bool} {f : World → World}
    (keeps : ∀ w, (f w).live = w.live) (same : ∀ w, (f w).port = w.port)
    (allocated : Allocated db) : Allocated { db with worlds := updateWhere p f db.worlds } := by
  have port : ∀ w, (if p w then f w else w).port = w.port := by
    intro w
    split
    · exact same w
    · rfl
  obtain ⟨ranges, apart⟩ := allocated_iff.mp allocated
  rw [allocated_iff]
  dsimp only
  rw [live_updateWhere keeps, List.pairwise_map]
  constructor
  · intro w hw
    obtain ⟨v, hv, rfl⟩ := List.mem_map.mp hw
    rw [port]
    exact ranges v hv
  · apply apart.imp
    intro v w h
    rwa [Apart, rconPort, rconPort, port, port]

theorem allocated_tombstone {db : Database} {p : World → Bool} {f : World → World}
    (ends : ∀ w, (f w).live = false) (allocated : Allocated db) :
    Allocated { db with worlds := updateWhere p f db.worlds } := by
  have left : (updateWhere p f db.worlds).filter World.live =
      (db.worlds.filter World.live).filter fun w => !p w := by
    induction db.worlds with
    | nil => rfl
    | cons w worlds ih =>
      by_cases hp : p w = true <;> by_cases hlive : w.live = true <;>
        simp_all [updateWhere]
  obtain ⟨ranges, apart⟩ := allocated_iff.mp allocated
  rw [allocated_iff]
  dsimp only
  rw [left]
  exact ⟨fun w hw => ranges w (List.mem_of_mem_filter hw), apart.filter _⟩

/-- A statement of the routes leaves the ports allocated exactly when it sets none, or one that
was checked against the RCON ports too. -/
theorem allocated_apply {s : Stmt} {db db' : Database} {n : Nat} (routed : Routed s)
    (allocated : Allocated db) (h : s.apply db = .ok (db', n)) :
    Allocated db' ↔ PortChecked s db := by
  cases hs : onWorlds s with
  | false =>
    have same := routed_worlds routed hs h
    have checked : PortChecked s db := by
      cases s <;> first | exact trivial | cases hs
    refine ⟨fun _ => checked, fun _ => ?_⟩
    rw [allocated_iff, same]
    exact allocated_iff.mp allocated
  | true =>
    cases s with
    | insertWorld row =>
      obtain ⟨unique, rfl⟩ := insertWorld_ok h
      obtain ⟨w, rfl, range⟩ := routed
      exact allocated_insertWorld rfl range unique allocated
    | tombstoneWorld worldId deletedBy now expectedVersion =>
      cases h
      exact iff_of_true (allocated_tombstone (fun _ => rfl) allocated) trivial
    | editWorld worldId fields =>
      obtain ⟨-, rfl, -⟩ := satisfying_ok.mp h
      obtain ⟨name, rfl⟩ := routed
      exact iff_of_true (allocated_keepPorts (fun _ => rfl) (fun _ => rfl) allocated) trivial
    | updateRuntimeConfig worldId after now expectedVersion =>
      obtain ⟨unique, rfl⟩ := updateRuntimeConfig_ok h
      cases hport : after.port with
      | none =>
        have kept := allocated_keepPorts (p := hits worldId expectedVersion)
          (f := configured after now) (fun _ => rfl)
          (fun w => by simp [configured, WorldFields.set, hport]) allocated
        refine iff_of_true kept ?_
        intro port h
        rw [hport] at h
        cases h
      | some port =>
        have set := allocated_setPort (p := hits worldId expectedVersion)
          (f := configured after now) (fun _ => rfl)
          (fun w => by simp [configured, WorldFields.set, hport])
          (fun w hw => (Bool.and_eq_true_iff.mp hw).2) (routed.2 port hport) unique allocated
        refine set.trans ?_
        simp only [PortChecked, hport, Option.some.injEq, forall_eq']
    | _ => cases hs

end McManager.Web
