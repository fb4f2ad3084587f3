import McManager.Services.RowEdits

/-! What an edit that returns does to its row: the fields, the version, and the stamps of the
columns whose names the values of the row happen to spell. -/

namespace McManager.RowEdits

open Framework

/-- The stamps of an edit, each with the column it is for. -/
def stamps (update : VersionedUpdate) (now : Int) : List (String × Value) :=
  [("updated_at", .integer now)] ++ update.actorUserId.toList.map (fun u => ("updated_by", .text u)) ++
    [("last_changed_at", .integer now)]

section Fields

variable {update : VersionedUpdate} {row : Row} {now : Int}

theorem stampedFields_eq : stampedFields update row now =
    (stamps update now).foldl (fun fields s => stamp row s.1 s.2 fields) update.fields := by
  rw [stampedFields, stamps]
  cases update.actorUserId <;> rfl

theorem distinct_stamps : ((stamps update now).map (·.1)).Nodup := by
  rw [stamps]
  cases update.actorUserId with
  | none => simp
  | some userId => simp

/-- What a stamp makes of the fields. -/
theorem latest_stamp (s : String × Value) (fields : List (String × Value)) (column : String) :
    latest (stamp row s.1 s.2 fields) column =
      if s.1 = column ∧ row.contains column ∧ column ∉ fields.map (·.1) then some s.2
      else latest fields column := by
  have named : fields.any (·.1 == s.1) = true ↔ s.1 ∈ fields.map (·.1) := by
    rw [List.any_eq_true, List.mem_map]
    simp only [beq_iff_eq]
  rw [stamp]
  split_ifs with free same same
  · obtain ⟨here, -, -⟩ := same
    simp only [Bool.and_eq_true, Bool.not_eq_true', ← Bool.not_eq_true, named] at free
    rw [OrderedDict.set_absent, OrderedDict.latest_append, OrderedDict.latest_single, if_pos here]
    · rfl
    · exact fun e mem there => free.2 (List.mem_map.mpr ⟨e, mem, there⟩)
  · simp only [Bool.and_eq_true, Bool.not_eq_true', ← Bool.not_eq_true, named] at free
    rw [OrderedDict.set_absent, OrderedDict.latest_append, OrderedDict.latest_single]
    · rw [if_neg]
      · rfl
      · rintro rfl
        exact same ⟨rfl, free⟩
    · exact fun e mem there => free.2 (List.mem_map.mpr ⟨e, mem, there⟩)
  · obtain ⟨rfl, there, absent⟩ := same
    simp only [Bool.and_eq_true, Bool.not_eq_true', ← Bool.not_eq_true, named] at free
    exact absurd ⟨there, absent⟩ free
  · rfl

theorem latest_fields {fields : List (String × Value)} (distinct : (fields.map (·.1)).Nodup)
    {f : String × Value} (mem : f ∈ fields) : latest fields f.1 = some f.2 := by
  have reversed : (fields.reverse.map (·.1)).Nodup := by
    rw [List.map_reverse]
    exact List.nodup_reverse.mpr distinct
  rw [latest]
  have found := find?_of_nodup reversed (List.mem_reverse.mpr mem)
  rw [show fields.reverse.find? (fun x => x.1 == f.1) = some f from found]
  rfl

/-- A column of an edit has the value the edit gives it, or else the stamp for it when the row
spells its name. -/
theorem latest_stamped {list : List (String × Value)} (distinct : (list.map (·.1)).Nodup)
    (fields : List (String × Value)) (column : String) :
    latest (list.foldl (fun fields s => stamp row s.1 s.2 fields) fields) column =
      (latest fields column).or (if row.contains column then latest list column else none) := by
  induction list generalizing fields with
  | nil =>
    rw [List.foldl_nil]
    split <;> exact Option.or_none.symm
  | cons s list ih =>
    obtain ⟨fresh, distinct⟩ := List.nodup_cons.mp distinct
    rw [List.foldl_cons, ih distinct, latest_stamp, ← List.singleton_append,
      OrderedDict.latest_append, OrderedDict.latest_single]
    by_cases here : s.1 = column
    · subst here
      have rest : latest list s.1 = none := by
        apply OrderedDict.latest_none
        rintro x mem same
        exact fresh (List.mem_map.mpr ⟨x, mem, same⟩)
      rw [rest, if_pos rfl]
      by_cases spelled : row.contains s.1 = true
      · by_cases named : s.1 ∈ fields.map (·.1)
        · obtain ⟨f, mem, same⟩ := List.mem_map.mp named
          rw [if_neg fun h => h.2.2 named]
          cases known : latest fields s.1 with
          | some v => rfl
          | none =>
            rw [latest, Option.map_eq_none_iff, List.find?_eq_none] at known
            exact absurd (by simpa using same) (known f (List.mem_reverse.mpr mem))
        · have unknown : latest fields s.1 = none :=
            OrderedDict.latest_none fun x mem same => named (List.mem_map.mpr ⟨x, mem, same⟩)
          rw [if_pos ⟨rfl, spelled, named⟩, unknown]
          simp only [if_pos spelled]
          rfl
      · rw [if_neg fun h => spelled h.2.1]
        simp only [if_neg spelled]
    · rw [if_neg fun h => here h.1, if_neg here, Option.or_none]

theorem latest_assignments {t : VersionTable} {column : String} :
    latest (assignments t update row now) column =
      if t.versionColumn = column then some fun row => (row.get t.versionColumn).succ
      else (latest (stampedFields update row now) column).map fun v _ => v := by
  have mapped : ∀ fields : List (String × Value),
      latest (fields.map fun f => ((f.1, fun _ => f.2) : String × (Row → Value))) column =
        (latest fields column).map fun v _ => v := by
    intro fields
    rw [latest, ← List.map_reverse, List.find?_map, latest, Option.map_map, Option.map_map]
    rfl
  rw [assignments, OrderedDict.latest_append, OrderedDict.latest_single, mapped]
  split <;> rfl

end Fields

section Edits

variable {c : Declaration} {course : Course} {update : VersionedUpdate} {t : VersionTable}
variable {now : Int} {seen tables tables' : Tables c} {l l' : Ledger} {row new : Row}

/-- Neither the key nor the version of a table is stamped. -/
theorem apart_of_versionTables {e : ConfigEditEntity} (h : versionTables e = some t) :
    t.keyColumn ≠ t.versionColumn ∧
      ∀ column ∈ ["updated_at", "updated_by", "last_changed_at"],
        column ≠ t.keyColumn ∧ column ≠ t.versionColumn := by
  cases e <;> cases h <;> decide

theorem stamps_listed {s : String × Value} (mem : s ∈ stamps update now) :
    s.1 ∈ ["updated_at", "updated_by", "last_changed_at"] := by
  rw [stamps] at mem
  rcases List.mem_append.mp mem with mem | mem
  · rcases List.mem_append.mp mem with mem | mem
    · rw [List.mem_singleton.mp mem]
      simp
    · obtain ⟨userId, -, rfl⟩ := List.mem_map.mp mem
      simp
  · rw [List.mem_singleton.mp mem]
    simp

/-- An edit that is accepted names columns of the table beside its key and its version. -/
theorem names_of_accepted (accepted : refusal course t seen update = none) :
    t.keyColumn ∉ update.names ∧ t.versionColumn ∉ update.names ∧
      ∀ name ∈ update.names, name ∈ (c.schema update.entity).columns := by
  rw [refusal] at accepted
  split at accepted
  · cases accepted
  split at accepted
  · cases accepted
  rename_i plain
  split at accepted
  · rename_i unread
    rw [accepted] at unread
    cases unread
  split at accepted
  · cases accepted
  rename_i known
  simp only [Bool.or_eq_true, List.contains_iff_mem, not_or] at plain
  refine ⟨plain.1, plain.2, ?_⟩
  intro name mem
  by_contra strange
  simp only [Bool.not_eq_true', Bool.not_eq_false, List.isEmpty_iff, List.filter_eq_nil_iff] at known
  exact strange (List.contains_iff_mem.mp (known name mem))

theorem raised_bind {α : Type} {step : Option Exn} {f : Unit → Except Exn α} {a : α} :
    (raised step >>= f) = .ok a ↔ step = none ∧ f () = .ok a := by
  cases step with
  | none => exact ⟨fun h => ⟨rfl, h⟩, fun h => h.2⟩
  | some e =>
    constructor
    · intro h
      cases h
    · rintro ⟨h, -⟩
      cases h

/-- An edit goes through when nothing raises, its row is the one to edit, and its table takes it. -/
theorem edit_ok {table table' : Table (c.schema update.entity)} {creating : Bool} :
    edit course t update creating now table = .ok (new, table') ↔
      course.begun = none ∧ course.selected = none ∧
        stale t update creating (table.find update.key) = none ∧ course.written = none ∧
        write t update now table (table.find update.key) = .ok table' ∧
        course.reselected = none ∧ course.committed = none ∧
        new = (table'.find update.key).getD [] := by
  rw [edit, raised_bind, raised_bind]
  dsimp only
  rw [raised_bind, raised_bind]
  cases write t update now table (table.find update.key) with
  | error e =>
    constructor
    · rintro ⟨-, -, -, -, h⟩
      cases h
    · rintro ⟨-, -, -, -, h, -⟩
      cases h
  | ok after =>
    change _ ∧ _ ∧ _ ∧ _ ∧ (raised _ >>= fun _ => raised _ >>= fun _ => _) = _ ↔ _
    rw [raised_bind, raised_bind]
    constructor
    · rintro ⟨begun, selected, current, written, reselected, committed, ended⟩
      cases ended
      exact ⟨begun, selected, current, written, rfl, reselected, committed, rfl⟩
    · rintro ⟨begun, selected, current, written, stored, reselected, committed, rfl⟩
      cases stored
      exact ⟨begun, selected, current, written, reselected, committed, rfl⟩

/-- What an edit of a row that goes through does. -/
theorem edit_row {table table' : Table (c.schema update.entity)} {creating : Bool}
    (found : table.find update.key = some row)
    (h : edit course t update creating now table = .ok (new, table')) :
    row.get t.versionColumn = .integer update.expectedVersion ∧
      table.update (assignments t update row now) update.key = .ok table' ∧
      new = (table'.find update.key).getD [] := by
  obtain ⟨-, -, current, -, stored, -, -, ended⟩ := edit_ok.mp h
  rw [found] at current stored
  refine ⟨?_, ?_, ended⟩
  · rw [stale] at current
    by_contra other
    rw [if_pos other] at current
    cases current
  · rw [write] at stored
    cases updated : table.update (assignments t update row now) update.key with
    | error constraint =>
      rw [updated] at stored
      cases stored
    | ok after =>
      rw [updated] at stored
      cases stored
      rfl

/-- A call that returns has made its edit. -/
theorem edit_of_success (versioned : versionTables update.entity = some t)
    (success : updateVersionedWithOperation course update now seen tables l =
      (.ok new, tables', l')) :
    refusal course t seen update = none ∧ ∃ table',
      edit course t update (creatingWorldOverride seen update) now (tables update.entity) =
        .ok (new, table') ∧ tables' = Function.update tables update.entity table' := by
  rw [updateVersionedWithOperation, versioned] at success
  dsimp only at success
  cases accepted : refusal course t seen update with
  | some e =>
    rw [accepted] at success
    cases success
  | none =>
    rw [accepted] at success
    refine ⟨rfl, ?_⟩
    dsimp only at success
    rw [recordedEdit] at success
    split at success
    · cases success
    split at success
    · cases success
    split at success
    · cases success
    rename_i updated table' edited
    dsimp only at success
    split at success
    · cases success
      exact ⟨table', edited, rfl⟩
    · cases success

/-- What an edit makes of its row and of the others. -/
structure Edits (update : VersionedUpdate) (t : VersionTable) (now : Int) (tables tables' : Tables c)
    (row new : Row) : Prop where
  given : ∀ f ∈ update.fields, new.get f.1 = f.2
  version : ∃ n, row.get t.versionColumn = .integer n ∧ new.get t.versionColumn = .integer (n + 1)
  stamped : ∀ s ∈ stamps update now, s.1 ∈ (c.schema update.entity).columns →
    s.1 ∉ update.names → new.get s.1 = s.2
  kept : ∀ column ∈ (c.schema update.entity).columns, column ∉ update.names →
    column ≠ t.versionColumn → column ∉ (stamps update now).map (·.1) →
    new.get column = row.get column
  columns : new.columns = row.columns
  rows : (tables' update.entity).rows =
    (tables update.entity).rows.map fun r => if r = row then new else r
  others : ∀ e, e ≠ update.entity → tables' e = tables e

/-- What an edit assigns to a column beside the version. -/
theorem latest_edit {column : String} (other : column ≠ t.versionColumn) :
    latest (assignments t update row now) column =
      ((latest update.fields column).or
        (if row.contains column then latest (stamps update now) column else none)).map
        fun v _ => v := by
  rw [latest_assignments, if_neg other.symm, stampedFields_eq, latest_stamped distinct_stamps]

theorem latest_unnamed {column : String} (unnamed : column ∉ update.names) :
    latest update.fields column = none :=
  OrderedDict.latest_none fun f mem same => unnamed (List.mem_map.mpr ⟨f, mem, same⟩)

theorem latest_unstamped {column : String} (unstamped : column ∉ (stamps update now).map (·.1)) :
    latest (stamps update now) column = none :=
  OrderedDict.latest_none fun s mem same => unstamped (List.mem_map.mpr ⟨s, mem, same⟩)

/-- The key is left alone. -/
theorem latest_key (versioned : versionTables update.entity = some t)
    (accepted : refusal course t seen update = none) :
    latest (assignments t update row now) (c.schema update.entity).key = none := by
  obtain ⟨key, -, -⟩ := c.keyed _ t versioned
  obtain ⟨apart, unstamped⟩ := apart_of_versionTables versioned
  have spared : t.keyColumn ∉ (stamps update now).map (·.1) := by
    intro mem
    obtain ⟨s, mem, same⟩ := List.mem_map.mp mem
    exact (unstamped s.1 (stamps_listed mem)).1 same
  rw [key, latest_edit apart, latest_unnamed (names_of_accepted accepted).1, latest_unstamped spared]
  split <;> rfl

/-- A column of the row after the edit. -/
theorem get_assigned (found : (tables update.entity).find update.key = some row) {column : String}
    (there : column ∈ (c.schema update.entity).columns) (other : column ≠ t.versionColumn) :
    (row.assign (assignments t update row now)).get column =
      ((latest update.fields column).or
        (if row.contains column then latest (stamps update now) column else none)).getD
        (row.get column) := by
  have shape := (tables update.entity).shaped row (Table.find_own found).1
  rw [Row.get_assign _ (by rw [shape]; exact there), latest_edit other, Option.map_map]
  cases (latest update.fields column).or
    (if row.contains column then latest (stamps update now) column else none) <;> rfl

theorem given_assigned (accepted : refusal course t seen update = none)
    (found : (tables update.entity).find update.key = some row) :
    ∀ f ∈ update.fields, (row.assign (assignments t update row now)).get f.1 = f.2 := by
  obtain ⟨-, unnamed, known⟩ := names_of_accepted accepted
  intro f mem
  have named : f.1 ∈ update.names := List.mem_map_of_mem mem
  rw [get_assigned found (known f.1 named) (ne_of_mem_of_not_mem named unnamed),
    latest_fields update.distinct mem]
  rfl

theorem version_assigned (versioned : versionTables update.entity = some t)
    (found : (tables update.entity).find update.key = some row)
    (version : row.get t.versionColumn = .integer update.expectedVersion) :
    (row.assign (assignments t update row now)).get t.versionColumn =
      .integer (update.expectedVersion + 1) := by
  have shape := (tables update.entity).shaped row (Table.find_own found).1
  have counted := (c.keyed _ t versioned).2.2
  rw [Row.get_assign _ (by rw [shape]; exact counted), latest_assignments, if_pos rfl]
  exact congrArg Value.succ version

/-- Tables with a name and a time of the last edit. -/
def named : Declaration where
  schema e := match versionTables e with
    | some t => ⟨[t.keyColumn, "name", t.versionColumn, "updated_at"], t.keyColumn, fun _ => none⟩
    | none => ⟨[], "", fun _ => none⟩
  defaults _ _ := .null
  keyed := by
    intro e t h
    rw [h]
    exact ⟨rfl, by simp, by simp⟩

/-- A template of version 1 that was last edited at 100. -/
def vanilla : Row :=
  [("template_id", .text "tmpl"), ("name", .text "Vanilla"), ("version", .integer 1),
    ("updated_at", .integer 100)]

def catalog : Tables named
  | .templates => ⟨[vanilla], by decide, by decide⟩
  | _ => ⟨[], by simp, by simp⟩

def renamed (fields : List (String × Value)) (distinct : (fields.map (·.1)).Nodup) :
    VersionedUpdate :=
  ⟨.templates, "tmpl", 1, fields, none, distinct⟩

end Edits

end McManager.RowEdits
