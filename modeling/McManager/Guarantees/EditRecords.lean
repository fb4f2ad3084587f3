import McManager.Guarantees.RowStamps

/-! A configuration edit and its operation, wherever the call breaks off. -/

namespace McManager.RowEdits

open Framework

section Edits

variable {c : Declaration} {course : Course} {update : VersionedUpdate} {t : VersionTable}
variable {now : Int} {seen tables tables' : Tables c} {l l' : Ledger} {row new : Row}
variable {creating : Bool}

/-- The row has the fields of the edit and the version after the one it was made on. -/
def Carries (update : VersionedUpdate) (t : VersionTable) (new : Row) : Prop :=
  (∀ f ∈ update.fields, new.get f.1 = f.2) ∧
    new.get t.versionColumn = .integer (update.expectedVersion + 1)

/-- An audit record tells the values before and after the edit. -/
def Audited (update : VersionedUpdate) (old : Option Row) (new : Row) (l : Ledger) : Prop :=
  ∃ p, (OperationStatus.completed, p) ∈ l.audits ∧
    p.before = update.fields.map (fun f => (f.1, (old.map (·.get f.1)).getD .null)) ∧
    p.after = update.fields.map fun f => (f.1, new.get f.1)

/-- Row and operation agree: the edit is there, its operation is completed and recorded, or nothing
has changed and an operation there is has failed. -/
def Agrees (update : VersionedUpdate) (tables tables' : Tables c) (l' : Ledger) : Prop :=
  (∃ t new, versionTables update.entity = some t ∧
    (tables' update.entity).find update.key = some new ∧ Carries update t new ∧
    l'.operation.map (·.1) = some .completed ∧
    Audited update ((tables update.entity).find update.key) new l') ∨
  tables' = tables ∧ ∀ status ∈ l'.operation.map (·.1), status = .failed

/-- A new row of world settings gets the stamps of the call, so that an edit may name them only with
these values. -/
def Supplied (update : VersionedUpdate) (now : Int) : Prop :=
  ∀ f ∈ update.fields, (f.1 = "updated_at" → f.2 = .integer now) ∧
    (f.1 = "updated_by" → f.2 = (update.actorUserId.map Value.text).getD .null)

/-- No statement of the edit raises, its row is the one to edit, and its table takes it. -/
def Commits (course : Course) (t : VersionTable) (update : VersionedUpdate) (creating : Bool)
    (now : Int) (table : Table (c.schema update.entity)) : Prop :=
  course.begun = none ∧ course.selected = none ∧
    stale t update creating (table.find update.key) = none ∧ course.written = none ∧
    (∃ table', write t update now table (table.find update.key) = .ok table') ∧
    course.reselected = none ∧ course.committed = none

/-- The steps around the edit that have to go through: nothing raises once the operation is stored
and before the edit begins, the milestone of an edit that is committed is stored, and so is the
failure of one that is not. -/
def Recorded (course : Course) (t : VersionTable) (update : VersionedUpdate) (creating : Bool)
    (now : Int) (table : Table (c.schema update.entity)) : Prop :=
  course.created.stores = true → course.created = .returns ∧ course.running = .returns ∧
    (Commits course t update creating now table →
      course.completed.stores = true ∧ (table.find update.key = none → Supplied update now)) ∧
    (¬Commits course t update creating now table →
      course.rolledBack = none ∧ course.failed.stores = true)

theorem commits_iff {table : Table (c.schema update.entity)} :
    Commits course t update creating now table ↔
      ∃ new table', edit course t update creating now table = .ok (new, table') := by
  constructor
  · rintro ⟨begun, selected, current, written, ⟨table', stored⟩, reselected, committed⟩
    exact ⟨_, table',
      edit_ok.mpr ⟨begun, selected, current, written, stored, reselected, committed, rfl⟩⟩
  · rintro ⟨new, table', h⟩
    obtain ⟨begun, selected, current, written, stored, reselected, committed, -⟩ := edit_ok.mp h
    exact ⟨begun, selected, current, written, ⟨table', stored⟩, reselected, committed⟩

/-- What an edit that makes a row of world settings does. -/
theorem edit_fresh {table table' : Table (c.schema update.entity)}
    (missing : table.find update.key = none)
    (h : edit course t update creating now table = .ok (new, table')) :
    creating = true ∧ ∃ userId, update.actorUserId = some userId ∧
      table.insert (c.defaults update.entity) (insertFields update userId now) = .ok table' := by
  obtain ⟨-, -, current, -, stored, -⟩ := edit_ok.mp h
  rw [missing] at current stored
  constructor
  · rw [stale] at current
    split at current
    · assumption
    · cases current
  · rw [write] at stored
    cases actor : update.actorUserId with
    | none =>
      rw [actor] at stored
      cases stored
    | some userId =>
      rw [actor] at stored
      refine ⟨userId, rfl, ?_⟩
      cases inserted : table.insert (c.defaults update.entity) (insertFields update userId now) with
      | error constraint =>
        simp only [inserted] at stored
        cases stored
      | ok after =>
        simp only [inserted] at stored
        cases stored
        rfl

/-- The values of a new row. -/
theorem latest_insertFields (userId column : String) :
    latest (insertFields update userId now) column =
      if column = "updated_by" then some (.text userId)
      else if column = "updated_at" then some (.integer now)
      else if column = "version" then some (.integer 1)
      else (latest update.fields column).or
        (if column = "world_id" then some update.key else none) := by
  have kept := @OrderedDict.latest_ofList String Value String Value _ _ some
    ([("world_id", update.key)] ++ update.fields ++
      [("version", .integer 1), ("updated_at", .integer now), ("updated_by", .text userId)])
    (by rintro a - b - x ⟨⟩ y ⟨⟩ same; exact same) (by rintro a - b - same; exact congrArg some same)
    column
  rw [List.filterMap_some, List.filterMap_some] at kept
  have stamps' : latest [("version", Value.integer 1), ("updated_at", .integer now),
      ("updated_by", .text userId)] column =
      ((if column = "updated_by" then some (.text userId) else none).or
        (if column = "updated_at" then some (.integer now) else none)).or
        (if column = "version" then some (.integer 1) else none) := by
    rw [← List.singleton_append, ← List.singleton_append (l := [_]), OrderedDict.latest_append,
      OrderedDict.latest_append, OrderedDict.latest_single, OrderedDict.latest_single,
      OrderedDict.latest_single]
    simp only [eq_comm]
  rw [insertFields, kept, OrderedDict.latest_append, OrderedDict.latest_append,
    OrderedDict.latest_single, stamps']
  simp only [eq_comm]
  split_ifs <;> rfl

/-- A row that an edit leaves has the version after, and the fields if they are not those that a new
row gets from the call. -/
theorem carries_iff {table' : Table (c.schema update.entity)}
    (versioned : versionTables update.entity = some t) (accepted : refusal course t seen update = none)
    (h : edit course t update (creatingWorldOverride seen update) now (tables update.entity) =
      .ok (new, table')) :
    ∃ after, table'.find update.key = some after ∧
      after.get t.versionColumn = .integer (update.expectedVersion + 1) ∧
      (Carries update t after ↔
        ((tables update.entity).find update.key = none → Supplied update now)) := by
  obtain ⟨key, keyed, counted⟩ := c.keyed _ t versioned
  cases found : (tables update.entity).find update.key with
  | some row =>
    obtain ⟨version, stored, -⟩ := edit_row found h
    refine ⟨row.assign (assignments t update row now),
      Table.find_update stored found (latest_key versioned accepted) (key ▸ keyed), ?_, ?_⟩
    · exact version_assigned versioned found version
    · refine iff_of_true ?_ fun missing => by cases missing
      exact ⟨given_assigned accepted found, version_assigned versioned found version⟩
  | none =>
    obtain ⟨creates, userId, actor, stored⟩ := edit_fresh found h
    simp only [creatingWorldOverride, Bool.and_eq_true, decide_eq_true_eq] at creates
    obtain ⟨⟨settings, -⟩, zero⟩ := creates
    rw [settings] at versioned
    cases versioned
    obtain ⟨unkeyed, unversioned, known⟩ := names_of_accepted accepted
    have value : ∀ column ∈ (c.schema update.entity).columns,
        ((c.schema update.entity).fresh (c.defaults update.entity)
          (insertFields update userId now)).get column =
          (latest (insertFields update userId now) column).getD (c.defaults update.entity column) :=
      fun column there => Row.get_build _ there
    have counts : ((c.schema update.entity).fresh (c.defaults update.entity)
        (insertFields update userId now)).get "version" = .integer (update.expectedVersion + 1) := by
      rw [value _ counted, latest_insertFields, zero]
      rfl
    refine ⟨_, Table.find_insert stored ?_ (key ▸ keyed), counts, ?_⟩
    · rw [key, latest_insertFields, latest_unnamed unkeyed]
      rfl
    · rw [Carries]
      constructor
      · rintro ⟨given, -⟩ - f mem
        have there := given f mem
        rw [value _ (known f.1 (List.mem_map_of_mem mem)), latest_insertFields] at there
        constructor
        · intro time
          rw [time] at there
          exact there.symm
        · intro updater
          rw [updater] at there
          rw [actor]
          exact there.symm
      · intro supplied
        refine ⟨?_, counts⟩
        intro f mem
        have named : f.1 ∈ update.names := List.mem_map_of_mem mem
        rw [value _ (known f.1 named), latest_insertFields]
        by_cases updater : f.1 = "updated_by"
        · rw [if_pos updater, (supplied rfl f mem).2 updater, actor]
          rfl
        by_cases time : f.1 = "updated_at"
        · rw [if_neg updater, if_pos time, (supplied rfl f mem).1 time]
          rfl
        · rw [if_neg updater, if_neg time, if_neg (ne_of_mem_of_not_mem named unversioned),
            latest_fields update.distinct mem]
          rfl

/-- The handler of an edit whose operation runs. -/
theorem fail_running (course : Course) (data : Payload) (e : Exn) {p : Payload}
    {audits : List (OperationStatus × Payload)} :
    ((fail course data e ⟨some (.running, p), audits⟩).2.operation.map (·.1) = some .failed ↔
      course.rolledBack = none ∧ course.failed.stores = true) ∧
    (fail course data e ⟨some (.running, p), audits⟩).2.operation.map (·.1) ≠ some .completed ∧
    ((fail course data e ⟨some (.running, p), audits⟩).2.operation.isSome = true) := by
  rw [fail]
  cases course.rolledBack with
  | some e' => simp
  | none => cases course.failed <;> simp [transition, OperationStatus.terminal, Outcome.record, Outcome.stores]

/-- The handler leaves an operation that is completed. -/
theorem fail_completed (course : Course) (data : Payload) (e : Exn) {p : Payload}
    {audits : List (OperationStatus × Payload)} :
    (fail course data e ⟨some (.completed, p), audits⟩).2 = ⟨some (.completed, p), audits⟩ := by
  rw [fail]
  cases course.rolledBack <;> rfl

/-- The row is another one than before. -/
theorem changed {after : Row} {table' : Table (c.schema update.entity)}
    (h : edit course t update creating now (tables update.entity) = .ok (new, table'))
    (found' : table'.find update.key = some after)
    (version : after.get t.versionColumn = .integer (update.expectedVersion + 1)) :
    Function.update tables update.entity table' ≠ tables := by
  intro same
  have table := congrFun same update.entity
  rw [Function.update_self] at table
  subst table
  have was := (edit_row found' h).1
  rw [version] at was
  have counted := Value.integer.inj was
  omega

/-- An operation that is stored and neither failed nor completed agrees with nothing. -/
theorem not_agrees {p : Payload} {status : OperationStatus}
    {audits : List (OperationStatus × Payload)} (failed : status ≠ .failed)
    (completed : status ≠ .completed) :
    ¬Agrees update tables tables' ⟨some (status, p), audits⟩ := by
  rintro (⟨t, new, -, -, -, ended, -⟩ | ⟨-, ended⟩)
  · exact completed (Option.some.inj ended)
  · exact failed (ended status rfl)

/-- The edit that is committed agrees with its operation when the milestone is stored. -/
theorem agrees_completed {table' : Table (c.schema update.entity)}
    (versioned : versionTables update.entity = some t) (accepted : refusal course t seen update = none)
    (h : edit course t update (creatingWorldOverride seen update) now (tables update.entity) =
      .ok (new, table')) :
    Agrees update tables (Function.update tables update.entity table')
        ⟨some (.completed, payload update ((tables update.entity).find update.key)),
          [(.completed, payload update ((tables update.entity).find update.key))]⟩ ↔
      ((tables update.entity).find update.key = none → Supplied update now) := by
  obtain ⟨after, found', version, carries⟩ := carries_iff versioned accepted h
  rw [← carries]
  constructor
  · rintro (⟨t', new', versioned', there, carried, -⟩ | ⟨same, -⟩)
    · rw [versioned] at versioned'
      cases versioned'
      rw [Function.update_self, found'] at there
      cases there
      exact carried
    · exact absurd same (changed h found' version)
  · intro carried
    refine .inl ⟨t, after, versioned, ?_, carried, rfl, _, List.mem_singleton_self _, rfl, ?_⟩
    · rw [Function.update_self, found']
    · rw [payload, emptyPayload]
      calc update.fields
          = update.fields.map id := (List.map_id _).symm
        _ = update.fields.map fun f => (f.1, after.get f.1) := by
            apply List.map_congr_left
            intro f mem
            rw [carried.1 f mem]
            rfl

/-- Behind its checks an edit and its operation agree just when the steps around it are recorded. -/
theorem recordedEdit_agrees (versioned : versionTables update.entity = some t)
    (accepted : refusal course t seen update = none) :
    Agrees update tables
        (recordedEdit course t update (creatingWorldOverride seen update) now tables {}).2.1
        (recordedEdit course t update (creatingWorldOverride seen update) now tables {}).2.2 ↔
      Recorded course t update (creatingWorldOverride seen update) now (tables update.entity) := by
  rw [recordedEdit, Recorded]
  cases created : course.created with
  | fails e => exact iff_of_true (.inr ⟨rfl, fun status h => by cases h⟩) fun h => by cases h
  | tears e =>
    refine iff_of_false (not_agrees (by decide) (by decide)) fun h => ?_
    cases (h rfl).1
  | returns =>
    apply Iff.trans _ (forall_prop_of_true rfl).symm
    simp only [create, Outcome.record, true_and]
    cases running : course.running with
    | fails e =>
      refine iff_of_false (not_agrees (by decide) (by decide)) ?_
      rintro ⟨⟨⟩, -⟩
    | tears e =>
      refine iff_of_false (not_agrees (by decide) (by decide)) ?_
      rintro ⟨⟨⟩, -⟩
    | returns =>
      simp only [transition, Outcome.record, OperationStatus.terminal, Bool.false_eq_true, if_false,
        true_and, Option.getD_none, Option.getD_some, List.nil_append]
      cases edited : edit course t update (creatingWorldOverride seen update) now
          (tables update.entity) with
      | error e =>
        have broken : ¬Commits course t update (creatingWorldOverride seen update) now
            (tables update.entity) := by
          rw [commits_iff, edited]
          rintro ⟨new, table', h⟩
          cases h
        obtain ⟨failed, completed, stored⟩ := @fail_running course
          (failedPayload course update (creatingWorldOverride seen update) (tables update.entity)) e
          (emptyPayload update) []
        obtain ⟨operation, there⟩ := Option.isSome_iff_exists.mp stored
        simp only [broken, false_implies, not_false_eq_true, forall_const, true_and, ← failed]
        constructor
        · rintro (⟨t', new, -, -, -, ended, -⟩ | ⟨-, ended⟩)
          · exact absurd ended completed
          · rw [there] at ended ⊢
            exact congrArg some (ended operation.1 rfl)
        · intro ended
          refine .inr ⟨rfl, fun status h => ?_⟩
          rw [ended] at h
          exact (Option.some.inj h).symm
      | ok result =>
        obtain ⟨new, table'⟩ := result
        have commits : Commits course t update (creatingWorldOverride seen update) now
            (tables update.entity) := commits_iff.mpr ⟨new, table', edited⟩
        have agrees := agrees_completed versioned accepted edited
        simp only [commits, forall_const, not_true_eq_false, false_implies, and_true]
        cases completed : course.completed with
        | returns =>
          rw [← agrees]
          exact (and_iff_right rfl).symm
        | tears e =>
          simp only [if_true, fail_completed]
          rw [← agrees]
          exact (and_iff_right rfl).symm
        | fails e =>
          obtain ⟨after, found', version, -⟩ := carries_iff versioned accepted edited
          refine iff_of_false ?_ fun h => by cases h.1
          rintro (⟨t', new', -, -, -, ended, -⟩ | ⟨same, -⟩)
          · exact (fail_running course _ e).2.1 ended
          · exact changed edited found' version same

end Edits

end McManager.RowEdits
