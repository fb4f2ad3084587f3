import McManager.Framework.Transaction
import McManager.Store.Statements

namespace McManager

open Framework

theorem satisfying_ok {constraints : List (Bool × String)} {db db' : Database} {n n' : Nat} :
    satisfying constraints db n = .ok (db', n') ↔
      (∀ c ∈ constraints, c.1 = true) ∧ db' = db ∧ n' = n := by
  unfold satisfying
  cases h : constraints.find? (!·.1) with
  | none =>
    have hall : ∀ c ∈ constraints, c.1 = true := by simpa using List.find?_eq_none.mp h
    simp only [Except.ok.injEq, Prod.mk.injEq]
    exact ⟨fun e => ⟨hall, e.1.symm, e.2.symm⟩, fun e => ⟨e.2.1.symm, e.2.2.symm⟩⟩
  | some c =>
    have hbad : c.1 = false := by simpa using List.find?_some h
    have hmem := List.mem_of_find?_eq_some h
    simp only [reduceCtorEq, false_iff, not_and]
    intro hall
    simp [hall c hmem] at hbad

theorem satisfying_error {constraints : List (Bool × String)} {db : Database} {n : Nat} {e : Exn}
    (h : satisfying constraints db n = .error e) : ∃ text, e = .integrity text := by
  unfold satisfying at h
  split at h
  · cases h
    exact ⟨_, rfl⟩
  · cases h

theorem store_apply (s : Stmt) (db : Database) :
    Store.apply s db = s.apply db := rfl

theorem mem_updateWhere {α : Type} {p : α → Bool} {f : α → α} {rows : List α} {x : α} :
    x ∈ updateWhere p f rows ↔
      ∃ y ∈ rows, (p y = true ∧ x = f y) ∨ (p y = false ∧ x = y) := by
  simp only [updateWhere, List.mem_map]
  constructor
  · rintro ⟨y, hy, rfl⟩
    refine ⟨y, hy, ?_⟩
    cases h : p y <;> simp
  · rintro ⟨y, hy, h | h⟩
    · exact ⟨y, hy, by simp [h.1, h.2]⟩
    · exact ⟨y, hy, by simp [h.1, h.2]⟩

/-- An update that keeps a column keeps the list of its values. -/
theorem updateWhere_map {α β : Type} {p : α → Bool} {f : α → α} {column : α → β}
    (keeps : ∀ x, column (f x) = column x) (rows : List α) :
    (updateWhere p f rows).map column = rows.map column := by
  simp only [updateWhere, List.map_map]
  refine List.map_congr_left fun x _ => ?_
  simp only [Function.comp]
  split
  · exact keeps x
  · rfl

/-- An update that does not touch a condition keeps how many rows meet it. -/
theorem countP_updateWhere {α : Type} {p q : α → Bool} {f : α → α} {rows : List α}
    (keeps : ∀ x, q (f x) = q x) : (updateWhere p f rows).countP q = rows.countP q := by
  rw [updateWhere, List.countP_map]
  apply List.countP_congr
  intro x _
  simp only [Function.comp]
  split
  · rw [keeps]
  · rfl

/-- The same update twice is one update of the rows of both. -/
theorem updateWhere_twice {α : Type} {p q : α → Bool} {f : α → α} (again : ∀ x, f (f x) = f x)
    (keeps : ∀ x, p (f x) = p x) (rows : List α) :
    updateWhere p f (updateWhere q f rows) = updateWhere (fun x => p x || q x) f rows := by
  simp only [updateWhere, List.map_map]
  apply List.map_congr_left
  intro x _
  simp only [Function.comp]
  by_cases hq : q x = true
  · simp [hq, keeps, again]
  · simp [hq]

theorem updateWhere_eq_self {α : Type} {p : α → Bool} {f : α → α} {rows : List α}
    (none : ∀ x ∈ rows, p x = false) : updateWhere p f rows = rows := by
  have h : ∀ x ∈ rows, (if p x then f x else x) = x := by
    intro x hx
    simp [none x hx]
  rw [updateWhere, List.map_congr_left h, List.map_id']

/-- The primary key of `operations`. -/
def Database.UniqueOperations (db : Database) : Prop := (db.operations.map (·.opId)).Nodup

theorem Database.operation?_mem {db : Database} {opId : String} {op : Operation}
    (h : db.operation? opId = some op) : op ∈ db.operations ∧ op.opId = opId := by
  refine ⟨List.mem_of_find?_eq_some h, ?_⟩
  simpa using List.find?_some h

theorem nodup_key_inj {α β : Type} {key : α → β} {rows : List α} (h : (rows.map key).Nodup)
    {x y : α} (hx : x ∈ rows) (hy : y ∈ rows) (hk : key x = key y) : x = y :=
  List.inj_on_of_nodup_map h hx hy hk

theorem find?_key {α : Type} {key : α → String} {rows : List α} (h : (rows.map key).Nodup)
    {x : α} (hx : x ∈ rows) : rows.find? (fun y => key y == key x) = some x := by
  cases hf : rows.find? (fun y => key y == key x) with
  | none => exact absurd (List.find?_eq_none.mp hf x hx) (by simp)
  | some y =>
    have hy : key y = key x := by simpa using List.find?_some hf
    rw [nodup_key_inj h (List.mem_of_find?_eq_some hf) hx hy]

theorem Database.operation?_eq {db : Database} (h : db.UniqueOperations) {op : Operation}
    (hop : op ∈ db.operations) : db.operation? op.opId = some op := find?_key h hop

theorem countP_key {α : Type} {key : α → String} {p : α → Bool} {rows : List α}
    (h : (rows.map key).Nodup) {x : α} (hx : x ∈ rows) (hp : p x = true) :
    rows.countP (fun y => key y == key x && p y) = 1 := by
  induction rows with
  | nil => cases hx
  | cons y rows ih =>
    obtain ⟨hnotin, nodup⟩ := List.nodup_cons.mp h
    rcases List.mem_cons.mp hx with rfl | hx
    · have hzero : rows.countP (fun y => key y == key x && p y) = 0 := by
        rw [List.countP_eq_zero]
        intro z hz hk
        simp only [Bool.and_eq_true, beq_iff_eq] at hk
        exact hnotin (List.mem_map.mpr ⟨z, hz, hk.1⟩)
      rw [List.countP_cons_of_pos (by simp [hp]), hzero]
    · have hne : key y ≠ key x := fun e => hnotin (List.mem_map.mpr ⟨x, hx, e.symm⟩)
      rw [List.countP_cons_of_neg (by simp [hne]), ih nodup hx]

theorem find?_updateWhere {α : Type} {p q : α → Bool} {f : α → α} {rows : List α}
    (keeps : ∀ x, q (f x) = q x) :
    (updateWhere p f rows).find? q = (rows.find? q).map fun x => if p x then f x else x := by
  induction rows with
  | nil => rfl
  | cons x rows ih =>
    have hq : q (if p x then f x else x) = q x := by
      split
      · exact keeps x
      · rfl
    simp only [updateWhere, List.map_cons, List.find?_cons, hq]
    cases q x with
    | true => rfl
    | false => exact ih

/-- A selection that an update does not touch stays as it is. -/
theorem filter_updateWhere {α : Type} {p q : α → Bool} {f : α → α} {rows : List α}
    (keeps : ∀ x, q (f x) = q x) (apart : ∀ x, q x = true → p x = false) :
    (updateWhere p f rows).filter q = rows.filter q := by
  induction rows with
  | nil => rfl
  | cons x rows ih =>
    simp only [updateWhere, List.map_cons] at ih ⊢
    cases hq : q x with
    | true => simp [apart x hq, hq, ih]
    | false =>
      have hq' : q (if p x then f x else x) = false := by
        split
        · rw [keeps, hq]
        · exact hq
      simp [hq, hq', ih]

end McManager
