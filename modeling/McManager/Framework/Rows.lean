import Mathlib.Data.List.Find
import McManager.Framework.OrderedDict

namespace McManager.Framework

/-- What a column holds, of the type that the column declares; a real by its bits. -/
inductive Value
  | null
  | integer (n : Int)
  | real (bits : UInt64)
  | text (s : String)
  | blob (bytes : List UInt8)
  deriving DecidableEq, Repr

/-- `value + 1`; only a whole number counts. -/
def Value.succ : Value → Value
  | .integer n => .integer (n + 1)
  | _ => .null

/-- A row: its columns in the order of the table, each with its value. -/
abbrev Row := List (String × Value)

/-- What the columns that a statement assigns become of a row. -/
abbrev Assignments := List (String × (Row → Value))

namespace Row

def columns (row : Row) : List String := row.map (·.1)

/-- `row[column]`. -/
def get (row : Row) (column : String) : Value := (row.lookup column).getD .null

/-- `text in row`: what the database driver calls a row is a sequence of its values. -/
def contains (row : Row) (text : String) : Bool := row.any (·.2 == .text text)

/-- With new values in the columns that are assigned, the last of them for a column assigned twice. -/
def assign (assignments : Assignments) (row : Row) : Row :=
  row.map fun c => (c.1, ((latest assignments c.1).map (· row)).getD c.2)

@[simp] theorem columns_assign (assignments : Assignments) (row : Row) :
    (row.assign assignments).columns = row.columns := by
  rw [columns, columns, assign, List.map_map]
  rfl

theorem get_assign (assignments : Assignments) {row : Row} {column : String}
    (there : column ∈ row.columns) :
    (row.assign assignments).get column =
      ((latest assignments column).map (· row)).getD (row.get column) := by
  have walk : ∀ cells : Row, column ∈ cells.columns →
      ((cells.map fun c => (c.1, ((latest assignments c.1).map (· row)).getD c.2)).lookup
        column).getD .null =
      ((latest assignments column).map (· row)).getD ((cells.lookup column).getD .null) := by
    intro cells there
    induction cells with
    | nil => exact absurd there List.not_mem_nil
    | cons c cells ih =>
      obtain ⟨name, value⟩ := c
      rw [List.map_cons, List.lookup_cons, List.lookup_cons]
      by_cases here : column = name
      · subst here
        simp only [beq_self_eq_true, Option.getD_some]
      · have other : (column == name) = false := by simpa using here
        simp only [other]
        exact ih ((List.mem_cons.mp there).resolve_left here)
  exact walk row there

theorem get_missing {row : Row} {column : String} (missing : column ∉ row.columns) :
    row.get column = .null := by
  have nothing : row.lookup column = none := by
    rw [List.lookup_eq_none_iff]
    intro cell mem
    have other : column ≠ cell.1 := fun same => missing (List.mem_map.mpr ⟨cell, mem, same.symm⟩)
    simpa using other
  rw [get, nothing]
  rfl

/-- The values of a row that is built column by column. -/
theorem get_build (value : String → Value) {columns : List String} {column : String}
    (there : column ∈ columns) :
    Row.get (columns.map fun c => (c, value c)) column = value column := by
  rw [get]
  induction columns with
  | nil => exact absurd there List.not_mem_nil
  | cons c columns ih =>
    rw [List.map_cons, List.lookup_cons]
    by_cases here : column = c
    · subst here
      simp only [beq_self_eq_true, Option.getD_some]
    · have other : (column == c) = false := by simpa using here
      simp only [other]
      exact ih ((List.mem_cons.mp there).resolve_left here)

end Row

/-- What a table is declared with. `refused` is the constraint that rows violate, if there is one;
the key is unique apart from that. -/
structure Schema where
  columns : List String
  key : String
  refused : List Row → Option String

/-- The rows of a table: each has its columns, and no two have the same key. -/
structure Table (schema : Schema) where
  rows : List Row
  shaped : ∀ row ∈ rows, row.columns = schema.columns
  unique : (rows.map (·.get schema.key)).Nodup

/-- A name that is no column. -/
def Schema.stranger (schema : Schema) (names : List String) : Option String :=
  names.find? fun name => !schema.columns.contains name

/-- The row an `INSERT` makes. -/
def Schema.fresh (schema : Schema) (defaults : String → Value) (values : List (String × Value)) :
    Row :=
  schema.columns.map fun c => (c, (latest values c).getD (defaults c))

namespace Table

variable {schema : Schema}

/-- `SELECT * FROM table WHERE key = ?`. -/
def find (t : Table schema) (key : Value) : Option Row :=
  t.rows.find? fun row => row.get schema.key = key

/-- The rows are stored, unless a constraint refuses them. -/
def store (rows : List Row) (shaped : ∀ row ∈ rows, row.columns = schema.columns) :
    Except String (Table schema) :=
  match schema.refused rows with
  | some constraint => .error constraint
  | none =>
    if unique : (rows.map (·.get schema.key)).Nodup then .ok { rows, shaped, unique }
    else .error ("UNIQUE constraint failed: " ++ schema.key)

/-- `UPDATE table SET ... WHERE key = ?`. -/
def update (t : Table schema) (assignments : Assignments) (key : Value) :
    Except String (Table schema) :=
  match schema.stranger (assignments.map (·.1)) with
  | some name => .error ("no such column: " ++ name)
  | none =>
    store
      (t.rows.map fun row => if row.get schema.key = key then row.assign assignments else row) <| by
      intro row mem
      obtain ⟨old, inside, rfl⟩ := List.mem_map.mp mem
      split
      · rw [Row.columns_assign, t.shaped old inside]
      · exact t.shaped old inside

/-- `INSERT INTO table (...) VALUES (...)`; the other columns take their defaults. -/
def insert (t : Table schema) (defaults : String → Value) (values : List (String × Value)) :
    Except String (Table schema) :=
  match schema.stranger (values.map (·.1)) with
  | some name => .error ("table has no column named " ++ name)
  | none =>
    store (t.rows ++ [schema.fresh defaults values]) <| by
      intro row mem
      rcases List.mem_append.mp mem with old | new
      · exact t.shaped row old
      · rw [List.mem_singleton.mp new, Row.columns, Schema.fresh, List.map_map]
        exact List.map_id _

variable {t t' : Table schema} {key : Value} {row : Row}

theorem rows_of_store {rows : List Row} {shaped : ∀ row ∈ rows, row.columns = schema.columns}
    (h : store rows shaped = .ok t') : t'.rows = rows := by
  rw [store] at h
  split at h
  · cases h
  · split at h
    · cases h
      rfl
    · cases h

theorem known_of_stranger {names : List String} (h : schema.stranger names = none) :
    ∀ name ∈ names, name ∈ schema.columns := by
  intro name mem
  simpa using List.find?_eq_none.mp h name mem

/-- What an `UPDATE` that goes through leaves. -/
theorem update_ok {assignments : Assignments} (h : t.update assignments key = .ok t') :
    t'.rows = t.rows.map (fun row =>
        if row.get schema.key = key then row.assign assignments else row) ∧
      ∀ a ∈ assignments, a.1 ∈ schema.columns := by
  rw [update] at h
  split at h
  · cases h
  · rename_i known
    refine ⟨rows_of_store h, ?_⟩
    intro a mem
    exact known_of_stranger known _ (List.mem_map_of_mem mem)

/-- What an `INSERT` that goes through leaves. -/
theorem insert_ok {defaults : String → Value} {values : List (String × Value)}
    (h : t.insert defaults values = .ok t') :
    t'.rows = t.rows ++ [schema.fresh defaults values] ∧
      ∀ v ∈ values, v.1 ∈ schema.columns := by
  rw [insert] at h
  split at h
  · cases h
  · rename_i known
    refine ⟨rows_of_store h, ?_⟩
    intro v mem
    exact known_of_stranger known _ (List.mem_map_of_mem mem)

theorem find_own (h : t.find key = some row) : row ∈ t.rows ∧ row.get schema.key = key :=
  ⟨List.mem_of_find?_eq_some h, by simpa using List.find?_some h⟩

theorem find_of_mem (mem : row ∈ t.rows) (own : row.get schema.key = key) :
    t.find key = some row := by
  subst own
  exact find?_of_nodup t.unique mem

/-- The row that an `UPDATE` of other columns than the key leaves under it. -/
theorem find_update {assignments : Assignments} (h : t.update assignments key = .ok t')
    (found : t.find key = some row) (kept : latest assignments schema.key = none)
    (keyed : schema.key ∈ schema.columns) : t'.find key = some (row.assign assignments) := by
  obtain ⟨rows, -⟩ := update_ok h
  obtain ⟨mem, own⟩ := find_own found
  apply find_of_mem
  · rw [rows]
    exact List.mem_map.mpr ⟨row, mem, if_pos own⟩
  · rw [Row.get_assign _ (by rw [t.shaped row mem]; exact keyed), kept]
    exact own

/-- The row that an `INSERT` leaves under its key. -/
theorem find_insert {defaults : String → Value} {values : List (String × Value)}
    (h : t.insert defaults values = .ok t') (named : latest values schema.key = some key)
    (keyed : schema.key ∈ schema.columns) :
    t'.find key = some (schema.fresh defaults values) := by
  obtain ⟨rows, -⟩ := insert_ok h
  apply find_of_mem
  · rw [rows]
    exact List.mem_append_right _ (List.mem_singleton_self _)
  · rw [Schema.fresh, Row.get_build _ keyed, named]
    rfl

/-- An `UPDATE` of other columns than the key leaves the keys in their order. -/
theorem keys_update {assignments : Assignments} (h : t.update assignments key = .ok t')
    (kept : latest assignments schema.key = none) (keyed : schema.key ∈ schema.columns) :
    t'.rows.map (·.get schema.key) = t.rows.map (·.get schema.key) := by
  obtain ⟨rows, -⟩ := update_ok h
  rw [rows, List.map_map]
  apply List.map_congr_left
  intro row mem
  rw [Function.comp_apply]
  split
  · rw [Row.get_assign _ (by rw [t.shaped row mem]; exact keyed), kept]
    rfl
  · rfl

/-- An `UPDATE` leaves the rows under other keys. -/
theorem find_update_other {assignments : Assignments} (h : t.update assignments key = .ok t')
    (kept : latest assignments schema.key = none) (keyed : schema.key ∈ schema.columns)
    {other : Value} (apart : other ≠ key) : t'.find other = t.find other := by
  obtain ⟨rows, -⟩ := update_ok h
  rw [find, find, rows, List.find?_map]
  have same : ∀ row ∈ t.rows, ((fun row : Row => decide (row.get schema.key = other)) ∘
      fun row => if row.get schema.key = key then row.assign assignments else row) row =
        decide (row.get schema.key = other) := by
    intro row mem
    rw [Function.comp_apply]
    split
    · rename_i own
      rw [Row.get_assign _ (by rw [t.shaped row mem]; exact keyed), kept]
      rfl
    · rfl
  rw [List.find?_congr same]
  cases found : t.rows.find? fun row => row.get schema.key = other with
  | none => rfl
  | some row =>
    have own : row.get schema.key = other := by simpa using List.find?_some found
    rw [Option.map_some, if_neg (by rw [own]; exact apart)]

/-- An `INSERT` leaves the rows under other keys. -/
theorem find_insert_other {defaults : String → Value} {values : List (String × Value)}
    (h : t.insert defaults values = .ok t') (named : latest values schema.key = some key)
    (keyed : schema.key ∈ schema.columns) {other : Value} (apart : other ≠ key) :
    t'.find other = t.find other := by
  obtain ⟨rows, -⟩ := insert_ok h
  have new : (schema.fresh defaults values).get schema.key = key := by
    rw [Schema.fresh, Row.get_build _ keyed, named]
    rfl
  rw [find, find, rows, List.find?_append]
  cases t.rows.find? fun row => row.get schema.key = other with
  | some row => rfl
  | none =>
    rw [Option.none_or, List.find?_cons_of_neg]
    · rfl
    · rw [new]
      simpa using apart.symm

end Table

end McManager.Framework
