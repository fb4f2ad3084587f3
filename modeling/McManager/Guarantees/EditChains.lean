import McManager.Guarantees.EditRecords

/-! Versioned edits one after another, each with whatever its call saw before its transaction. -/

namespace McManager.RowEdits

open Framework

/-- One call of `update_versioned`; `seen` are the tables at its first look at the row. -/
structure Call (c : Declaration) where
  course : Course
  update : VersionedUpdate
  now : Int
  seen : Tables c

section Chains

variable {c : Declaration}

def Call.result (call : Call c) (tables : Tables c) : Except Exn Row :=
  (updateVersionedWithOperation call.course call.update call.now call.seen tables {}).1

def Call.after (call : Call c) (tables : Tables c) : Tables c :=
  (updateVersionedWithOperation call.course call.update call.now call.seen tables {}).2.1

/-- A row by its entity and its id. -/
abbrev RowName := ConfigEditEntity × String

def rowAt (tables : Tables c) (name : RowName) : Option Row := (tables name.1).find (.text name.2)

/-- The version of a row; one that is not there has the version 0. -/
def versionOf (entity : ConfigEditEntity) (row : Option Row) : Int :=
  match versionTables entity, row with
  | some t, some row =>
    match row.get t.versionColumn with
    | .integer version => version
    | _ => 0
  | _, _ => 0

def versionAt (tables : Tables c) (name : RowName) : Int := versionOf name.1 (rowAt tables name)

/-- The call changes the row. -/
def Call.changes (call : Call c) (tables : Tables c) (name : RowName) : Bool :=
  rowAt (call.after tables) name ≠ rowAt tables name

/-- The calls of a run that change a row, and those that return after an edit of it. -/
def changing (name : RowName) : List (Call c) → Tables c → List (Call c)
  | [], _ => []
  | call :: calls, tables =>
    let rest := changing name calls (call.after tables)
    if call.changes tables name then call :: rest else rest

def returning (name : RowName) : List (Call c) → Tables c → List (Call c)
  | [], _ => []
  | call :: calls, tables =>
    let rest := returning name calls (call.after tables)
    if (call.result tables).isOk && (call.update.entity, call.update.rowId) = name then call :: rest
    else rest

/-- The tables after a run. -/
def afterAll : List (Call c) → Tables c → Tables c
  | [], tables => tables
  | call :: calls, tables => afterAll calls (call.after tables)

section Steps

variable {call : Call c} {tables : Tables c} {t : VersionTable} {new : Row}

/-- A call leaves the tables, or makes its edit. -/
theorem call_cases (call : Call c) (tables : Tables c) :
    (call.after tables = tables ∧ (call.result tables).isOk = false) ∨
      ∃ t new table', versionTables call.update.entity = some t ∧
        refusal call.course t call.seen call.update = none ∧
        edit call.course t call.update (creatingWorldOverride call.seen call.update) call.now
          (tables call.update.entity) = .ok (new, table') ∧
        call.after tables = Function.update tables call.update.entity table' := by
  unfold Call.after Call.result updateVersionedWithOperation
  cases versioned : versionTables call.update.entity with
  | none => exact .inl ⟨rfl, rfl⟩
  | some t =>
    dsimp only
    cases accepted : refusal call.course t call.seen call.update with
    | some e => exact .inl ⟨rfl, rfl⟩
    | none =>
      dsimp only
      rw [recordedEdit]
      dsimp only
      split
      · exact .inl ⟨rfl, rfl⟩
      split
      · exact .inl ⟨rfl, rfl⟩
      split
      · exact .inl ⟨rfl, rfl⟩
      rename_i new table' edited
      refine .inr ⟨t, new, table', rfl, accepted, edited, ?_⟩
      split <;> rfl

/-- An edit leaves the rows under other keys. -/
theorem edit_other {table' : Table (c.schema call.update.entity)}
    (versioned : versionTables call.update.entity = some t)
    (accepted : refusal call.course t call.seen call.update = none)
    (h : edit call.course t call.update (creatingWorldOverride call.seen call.update) call.now
      (tables call.update.entity) = .ok (new, table')) {other : Value}
    (apart : other ≠ call.update.key) :
    table'.find other = (tables call.update.entity).find other := by
  obtain ⟨key, keyed, -⟩ := c.keyed _ t versioned
  cases found : (tables call.update.entity).find call.update.key with
  | some row =>
    obtain ⟨-, stored, -⟩ := edit_row found h
    exact Table.find_update_other stored (latest_key versioned accepted) (key ▸ keyed) apart
  | none =>
    obtain ⟨creates, userId, actor, stored⟩ := edit_fresh found h
    simp only [creatingWorldOverride, Bool.and_eq_true, decide_eq_true_eq] at creates
    obtain ⟨⟨settings, -⟩, -⟩ := creates
    rw [settings] at versioned
    cases versioned
    refine Table.find_insert_other stored ?_ (key ▸ keyed) apart
    rw [key, latest_insertFields, latest_unnamed (names_of_accepted accepted).1]
    rfl

/-- An edit is made on the version it was submitted with. -/
theorem edit_expected {table' : Table (c.schema call.update.entity)}
    (versioned : versionTables call.update.entity = some t)
    (h : edit call.course t call.update (creatingWorldOverride call.seen call.update) call.now
      (tables call.update.entity) = .ok (new, table')) :
    versionAt tables (call.update.entity, call.update.rowId) = call.update.expectedVersion := by
  rw [versionAt, rowAt]
  cases found : (tables call.update.entity).find (.text call.update.rowId) with
  | some row =>
    obtain ⟨version, -⟩ := edit_row found h
    simp only [versionOf, versioned, version]
  | none =>
    obtain ⟨creates, -⟩ := edit_fresh found h
    simp only [creatingWorldOverride, Bool.and_eq_true, decide_eq_true_eq] at creates
    simp only [versionOf, versioned, creates.2]

/-- A call leaves every row but its own. -/
theorem call_other (call : Call c) (tables : Tables c) {name : RowName}
    (other : (call.update.entity, call.update.rowId) ≠ name) :
    rowAt (call.after tables) name = rowAt tables name := by
  rcases call_cases call tables with ⟨same, -⟩ | ⟨t, new, table', versioned, accepted, edited, after⟩
  · rw [same]
  · obtain ⟨entity, rowId⟩ := name
    rw [rowAt, rowAt, after]
    by_cases here : entity = call.update.entity
    · subst here
      rw [Function.update_self]
      refine edit_other versioned accepted edited ?_
      rintro ⟨⟩
      exact other rfl
    · rw [Function.update_of_ne here]

/-- A call leaves a row, or it is an edit of it that was submitted with its version and raises the
version by one. -/
theorem call_step (call : Call c) (tables : Tables c) (name : RowName) :
    (rowAt (call.after tables) name = rowAt tables name ∧
      ((call.result tables).isOk = true → (call.update.entity, call.update.rowId) ≠ name)) ∨
    (versionAt tables name = call.update.expectedVersion ∧
      versionAt (call.after tables) name = call.update.expectedVersion + 1) := by
  by_cases own : (call.update.entity, call.update.rowId) = name
  · subst own
    rcases call_cases call tables with ⟨same, failed⟩ | ⟨t, new, table', versioned, accepted, edited, after⟩
    · refine .inl ⟨by rw [same], fun returned => ?_⟩
      rw [failed] at returned
      cases returned
    · refine .inr ⟨edit_expected versioned edited, ?_⟩
      obtain ⟨row, found, version, -⟩ := carries_iff versioned accepted edited
      have there : rowAt (call.after tables) (call.update.entity, call.update.rowId) = some row := by
        rw [rowAt, after, Function.update_self]
        exact found
      simp only [versionAt, there, versionOf, versioned, version]
  · exact .inl ⟨call_other call tables own, fun _ => own⟩

end Steps

/-- The calls that change a row were submitted with its versions one after another, each raises the
version by one, and every call that returns is one of them: of the calls submitted with one version
at most one edits the row. -/
theorem edits_chain (calls : List (Call c)) (tables : Tables c) (name : RowName) :
    (changing name calls tables).map (·.update.expectedVersion) =
        (List.range (changing name calls tables).length).map
          (fun i : Nat => versionAt tables name + (i : Int)) ∧
      versionAt (afterAll calls tables) name =
        versionAt tables name + (changing name calls tables).length ∧
      (returning name calls tables).Sublist (changing name calls tables) := by
  induction calls generalizing tables with
  | nil => exact ⟨rfl, (Int.add_zero _).symm, .slnil⟩
  | cons call calls ih =>
    obtain ⟨expected, counted, returned⟩ := ih (call.after tables)
    rw [changing, returning, afterAll]
    rcases call_step call tables name with ⟨same, elsewhere⟩ | ⟨before, after⟩
    · have still : versionAt (call.after tables) name = versionAt tables name := by
        rw [versionAt, same, versionAt]
      have unchanged : call.changes tables name = false := by
        rw [Call.changes, same]
        simp
      have passes : ((call.result tables).isOk &&
          (call.update.entity, call.update.rowId) = name) = false := by
        rw [Bool.and_eq_false_imp]
        exact fun returned => decide_eq_false (elsewhere returned)
      rw [still] at expected counted
      rw [if_neg (by rw [unchanged]; exact Bool.false_ne_true),
        if_neg (by rw [passes]; exact Bool.false_ne_true)]
      exact ⟨expected, counted, returned⟩
    · have changed : call.changes tables name = true := by
        rw [Call.changes, decide_eq_true_iff]
        intro same
        rw [versionAt, same] at after
        have := before.symm.trans after
        omega
      rw [if_pos changed, List.map_cons, List.length_cons, List.range_succ_eq_map, List.map_cons,
        List.map_map, expected, counted, after, before]
      refine ⟨?_, by push_cast; omega, ?_⟩
      · refine congrArg₂ List.cons (Int.add_zero _).symm (List.map_congr_left fun i _ => ?_)
        rw [Function.comp_apply]
        push_cast
        omega
      · split
        · exact returned.cons_cons call
        · exact returned.cons call

end Chains

end McManager.RowEdits
