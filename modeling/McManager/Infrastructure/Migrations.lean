import Mathlib.Algebra.Order.Ring.Int
import Mathlib.Data.List.Sort
import McManager.Framework.Connection
import McManager.Framework.PythonInt

namespace McManager.Migrations

open Framework

/-- A file of the migrations directory. Without a text it cannot be read as UTF-8. -/
structure File where
  name : String
  text : Option String
  deriving DecidableEq, Repr

/-- `migrations_dir`; without files it is no directory. -/
structure Directory where
  path : String
  files : Option (List File)
  deriving DecidableEq, Repr

/-- An item of `_migration_files`. -/
structure Migration where
  version : Int
  name : String
  file : File
  deriving DecidableEq, Repr

/-- `_parse_migration_name`. -/
def parseMigrationName (filename : String) : Option Int × String :=
  let cs := filename.toList
  let stem := if ['.', 's', 'q', 'l'] <:+ cs then cs.take (cs.length - 4) else cs
  let first := stem.takeWhile (· ≠ '_')
  match PythonInt.ofText first with
  | some version =>
    (some version, String.ofList (if '_' ∈ stem then (stem.dropWhile (· ≠ '_')).drop 1 else first))
  | none => (none, String.ofList stem)

/-- `directory.glob('*.sql')`, sorted. -/
def sqlFiles (files : List File) : List File :=
  (files.filter fun f => decide (['.', 's', 'q', 'l'] <:+ f.name.toList)).insertionSort
    fun a b => a.name ≤ b.name

/-- `_migration_files`. -/
def migrationFiles (files : List File) : List Migration :=
  ((sqlFiles files).filterMap fun f =>
    match parseMigrationName f.name with
    | (some version, name) => some ⟨version, name, f⟩
    | (none, _) => none).insertionSort fun a b => a.version ≤ b.version

/-- A row of `schema_migrations`. -/
structure Entry where
  version : Int
  name : String
  appliedAt : Int
  deriving DecidableEq, Repr

/-- The tables of the database. The rows of `schema_migrations` stand in the order in which they
were inserted; there are none without the table. -/
structure Tables (ρ : Type) where
  rows : ρ
  ledger : Option (List Entry)
  deriving DecidableEq

def Tables.versions {ρ : Type} (t : Tables ρ) : List Int := (t.ledger.getD []).map (·.version)

/-- What has taken effect: a statement of a version's file, or the version's entry. -/
inductive Event
  | ran (version : Int) (sql : String)
  | recorded (version : Int)
  deriving DecidableEq, Repr

/-- The database. `journal` tells how it came about, and is rolled back with it. -/
structure Db (ρ : Type) where
  tables : Tables ρ
  journal : List Event
  deriving DecidableEq

/-- `sqlite3.Error`, `PersistenceError` and every other exception. -/
inductive Failure
  | sqlite (text : String)
  | persistence (text : String)
  | other (text : String)
  deriving DecidableEq, Repr

/-- A failing statement. SQLite rolls the transaction back with some of them. -/
structure Fault where
  text : String
  dropped : Bool
  deriving DecidableEq, Repr

/-- What SQLite does on a statement of a script. Outside a transaction a data-modifying one opens
one, and any other takes effect at once. -/
inductive Effect (ρ Ω : Type)
  | change (opens : Bool) (f : Ω → Tables ρ → Except Fault (Tables ρ))
  | begin
  | commit
  | rollback

/-- SQLite: `sqlite3.complete_statement`, what a statement does, and the rows that
`PRAGMA foreign_key_check` returns. -/
structure Sqlite (ρ Ω : Type) where
  complete : String → Bool
  effect : String → Effect ρ Ω
  violations : Tables ρ → List String

/-- What the outside world adds to a command. -/
structure Outcome (Ω : Type) where
  fault : Option Fault
  world : Ω
  now : Int

inductive Command
  | readText (file : File)
  | ledgerTable
  | versions
  | begin
  | execute (version : Int) (sql : String)
  | insert (version : Int) (name : String)
  | commit
  | inTransaction
  | rollback
  | foreignKeyCheck
  deriving DecidableEq, Repr

@[reducible] def Reply : Command → Type
  | .readText _ => String
  | .ledgerTable => Bool
  | .versions => List Int
  | .inTransaction => Bool
  | .foreignKeyCheck => List String
  | _ => Unit

abbrev Prog (α : Type) := Program Command Reply Failure α

abbrev perform (c : Command) : Prog (Reply c) := Program.perform (R := Reply) c

section Act

variable {ρ Ω : Type}

/-- The connection after a failing statement. -/
def failed (f : Fault) (x : Connection (Db ρ)) : Connection (Db ρ) :=
  if f.dropped then .closed x.committed else x

/-- A statement of a script. -/
def execute (sqlite : Sqlite ρ Ω) (version : Int) (sql : String) (world : Ω)
    (x : Connection (Db ρ)) : Except Failure Unit × Connection (Db ρ) :=
  match sqlite.effect sql with
  | .change opens f =>
    let y := if opens then x.opening else x
    match f world x.view.tables with
    | .error fault => (.error (.sqlite fault.text), failed fault y)
    | .ok tables =>
      let db : Db ρ := ⟨tables, x.view.journal ++ [.ran version sql]⟩
      (.ok (), if y.working.isSome then ⟨y.committed, some db⟩ else .closed db)
  | .begin =>
    match x.working with
    | some _ => (.error (.sqlite "cannot start a transaction within a transaction"), x)
    | none => (.ok (), x.opening)
  | .commit =>
    match x.working with
    | some db => (.ok (), .closed db)
    | none => (.error (.sqlite "cannot commit - no transaction is active"), x)
  | .rollback =>
    match x.working with
    | some _ => (.ok (), .closed x.committed)
    | none => (.error (.sqlite "cannot rollback - no transaction is active"), x)

/-- `INSERT INTO schema_migrations`, whose primary key is the version. -/
def insert (version : Int) (name : String) (now : Int) (x : Connection (Db ρ)) :
    Except Failure Unit × Connection (Db ρ) :=
  if version < -2 ^ 63 ∨ 2 ^ 63 ≤ version then
    (.error (.other "Python int too large to convert to SQLite INTEGER"), x.opening)
  else
    match x.view.tables.ledger with
    | none => (.error (.sqlite "no such table: schema_migrations"), x)
    | some entries =>
      if version ∈ entries.map (·.version) then
        (.error (.sqlite "UNIQUE constraint failed: schema_migrations.version"), x.opening)
      else
        (.ok (), ⟨x.committed, some ⟨{ x.view.tables with
          ledger := some (entries ++ [⟨version, name, now⟩]) },
          x.view.journal ++ [.recorded version]⟩⟩)

/-- A statement goes through unless the outside world makes it fail. -/
def unlessFault {α : Type} (o : Outcome Ω) (x : Connection (Db ρ))
    (r : Except Failure α × Connection (Db ρ)) : Except Failure α × Connection (Db ρ) :=
  match o.fault with
  | some fault => (.error (.sqlite fault.text), failed fault x)
  | none => r

/-- One command on the writer connection. -/
def act (sqlite : Sqlite ρ Ω) (o : Outcome Ω) (x : Connection (Db ρ)) :
    (c : Command) → Except Failure (Reply c) × Connection (Db ρ)
  | .readText file =>
    match file.text, o.fault with
    | some text, none => (.ok text, x)
    | none, _ => (.error (.other "invalid start byte"), x)
    | some _, some fault => (.error (.other fault.text), x)
  | .ledgerTable => unlessFault o x (.ok x.view.tables.ledger.isSome, x)
  | .versions => unlessFault o x (.ok x.view.tables.versions, x)
  | .begin =>
    unlessFault o x <|
      match x.working with
      | some _ => (.error (.sqlite "cannot start a transaction within a transaction"), x)
      | none => (.ok (), x.opening)
  | .execute version sql => unlessFault o x (execute sqlite version sql o.world x)
  | .insert version name => unlessFault o x (insert version name o.now x)
  | .commit => unlessFault o x (.ok (), .closed x.view)
  | .inTransaction => (.ok x.working.isSome, x)
  | .rollback => unlessFault o x (.ok (), .closed x.committed)
  | .foreignKeyCheck => unlessFault o x (.ok (sqlite.violations x.view.tables), x)

end Act

/-- The characters `str.strip` strips. -/
def blank (c : Char) : Bool := PythonInt.stripped c.toNat || decide (28 ≤ c.toNat ∧ c.toNat ≤ 31)

def strip (cs : List Char) : List Char :=
  ((cs.dropWhile blank).reverse.dropWhile blank).reverse

/-- `_execute_script`, from a place in the text on, with the statement so far. -/
def executeScript (complete : String → Bool) (version : Int) : List Char → List Char → Prog Unit
  | statement, [] =>
    let remainder := strip statement
    if remainder = [] then .ret () else perform (.execute version (String.ofList remainder))
  | statement, character :: rest =>
    let candidate := statement ++ [character]
    if character = ';' ∧ complete (String.ofList candidate) = true then
      (perform (.execute version (String.ofList candidate))).bind fun _ =>
        executeScript complete version [] rest
    else
      executeScript complete version candidate rest

/-- The `except` branch of `_apply_one`. -/
def recover (m : Migration) : Failure → Prog Unit
  | .sqlite exc => do
    if ← perform .inTransaction then
      perform .rollback
    throw (.persistence s!"migration {m.version} ({m.name}) failed: {exc}")
  | e => throw e

/-- `_apply_one`. -/
def applyOne (complete : String → Bool) (m : Migration) : Prog Unit := do
  let sql ← perform (.readText m.file)
  tryCatch
    (do
      perform .begin
      executeScript complete m.version [] sql.toList
      perform (.insert m.version m.name)
      perform .commit)
    (recover m)

/-- `_applied_versions`. -/
def appliedVersions : Prog (List Int) := do
  if ← perform .ledgerTable then
    perform .versions
  else
    pure []

/-- `_sweep_foreign_keys`. -/
def sweepForeignKeys : Prog Unit := do
  let violations ← perform .foreignKeyCheck
  if violations ≠ [] then
    throw (.persistence (s!"foreign_key_check failed with {violations.length} violation(s):\n" ++
      "\n".intercalate (violations.take 20)))

/-- `run_migrations`. -/
def runMigrations (complete : String → Bool) (directory : Directory) : Prog Unit :=
  match directory.files with
  | none => throw (.persistence s!"migrations directory not found: {directory.path}")
  | some files => do
    let applied ← appliedVersions
    let pending := (migrationFiles files).filter fun m => m.version ∉ applied
    Program.each (applyOne complete) pending
    sweepForeignKeys

/-- Where the process stands: it does not run, `run_migrations` is at work, or it has returned. -/
inductive Stage
  | off
  | booting (rest : Prog Unit)
  | serving

/-- The database, the directories of the boots so far, the last one first, and the process. -/
structure State (ρ : Type) where
  conn : Connection (Db ρ)
  boots : List Directory
  stage : Stage

inductive Move (ρ Ω : Type)
  | boot (directory : Directory)
  | act (o : Outcome Ω)
  | serve (rows : ρ)
  | death

namespace State

variable {ρ Ω : Type}

def fresh (rows : ρ) : State ρ := ⟨.closed ⟨⟨rows, none⟩, []⟩, [], .off⟩

/-- After an exception `build_container` closes the store. -/
def settle (conn : Connection (Db ρ)) (boots : List Directory) : Prog Unit → State ρ
  | .ret _ => ⟨conn, boots, .serving⟩
  | .raise _ => ⟨.closed conn.committed, boots, .off⟩
  | p => ⟨conn, boots, .booting p⟩

/-- The process boots, issues its next command, changes rows once it serves, or dies. -/
def step (sqlite : Sqlite ρ Ω) (s : State ρ) : Move ρ Ω → State ρ
  | .boot directory =>
    match s.stage with
    | .off => settle s.conn (directory :: s.boots) (runMigrations sqlite.complete directory)
    | _ => s
  | .act o =>
    match s.stage with
    | .booting (.call c k) =>
      settle (act sqlite o s.conn c).2 s.boots (k (act sqlite o s.conn c).1)
    | _ => s
  | .serve rows =>
    match s.stage with
    | .serving =>
      { s with conn := .closed { s.conn.view with tables := { s.conn.view.tables with rows } } }
    | _ => s
  | .death => ⟨.closed s.conn.committed, s.boots, .off⟩

end State

end McManager.Migrations
