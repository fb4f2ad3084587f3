import McManager.Framework.Program

namespace McManager.Framework

/-- One command of a service: a statement of the shared writer connection, a query of a
reader, a question to the outside world, or a value drawn from something that cannot fail,
such as a clock. `T` names the place in the source. -/
inductive Cmd (T S Q : Type) : Type
  | begin (t : T)
  | execute (t : T) (s : S)
  | select (t : T)
  | commit (t : T)
  | rollback
  | read (t : T)
  | ask (q : Q)
  | draw (q : Q)

variable {T S Q Φ : Type} {A : Q → Type} {δ ε α : Type}

/-- A statement answers with its row count; a query hands the program the rows it sees. -/
@[reducible] def Cmd.Reply (δ : Type) (A : Q → Type) : Cmd T S Q → Type
  | .begin _ => Unit
  | .execute _ _ => Nat
  | .select _ => δ
  | .commit _ => Unit
  | .rollback => Unit
  | .read _ => δ
  | .ask q => A q
  | .draw q => A q

/-- What the outside world settles: the answer to a question, or whether a command fails. -/
@[reducible] def Cmd.Outcome (Φ : Type) (A : Q → Type) : Cmd T S Q → Type
  | .ask q => Except Φ (A q)
  | .draw q => A q
  | _ => Option Φ

/-- The meaning of the statements of a database: the next database and the row count, or
the exception of a violated constraint. -/
class Store (S : Type) (δ ε Φ : outParam Type) where
  apply : S → δ → Except ε (δ × Nat)
  nested : ε
  external : Φ → ε

/-- The connection every thread writes through. `working` is the database as the open
transaction sees it. -/
structure Connection (δ : Type) where
  committed : δ
  working : Option δ

/-- What a run leaves behind for its observer. -/
inductive Note (T Q Φ : Type) (A : Q → Type) : Type
  | failed (t : T)
  | committed (t : T)
  | answered (q : Q) (o : Except Φ (A q))

structure Session (T Q Φ : Type) (A : Q → Type) (δ : Type) where
  conn : Connection δ
  log : List (Note T Q Φ A)

namespace Connection

def view (c : Connection δ) : δ := c.working.getD c.committed

/-- No transaction is open. -/
def closed (d : δ) : Connection δ := ⟨d, none⟩

/-- A data-modifying statement outside a transaction opens one. -/
def opening (c : Connection δ) : Connection δ := ⟨c.committed, some c.view⟩

@[simp] theorem view_closed (d : δ) : (closed d).view = d := rfl

@[simp] theorem view_open (d w : δ) : (⟨d, some w⟩ : Connection δ).view = w := rfl

@[simp] theorem view_opening (c : Connection δ) : c.opening.view = c.view := rfl

@[simp] theorem committed_opening (c : Connection δ) : c.opening.committed = c.committed := rfl

end Connection

section Act

variable [Store S δ ε Φ]

/-- One command on the shared connection. A failing statement leaves the transaction it ran
in, or opened, as it was; only `commit` and `rollback` end one. -/
def Connection.act (c : Connection δ) :
    (m : Cmd T S Q) → m.Outcome Φ A → Except ε (m.Reply δ A) × Connection δ
  | .begin _, some φ => (.error (Store.external S φ), c)
  | .begin _, none =>
    match c.working with
    | some _ => (.error (Store.nested S), c)
    | none => (.ok (), c.opening)
  | .execute _ _, some φ => (.error (Store.external S φ), c.opening)
  | .execute _ s, none =>
    match Store.apply s c.view with
    | .ok (d, n) => (.ok n, ⟨c.committed, some d⟩)
    | .error e => (.error e, c.opening)
  | .select _, some φ => (.error (Store.external S φ), c)
  | .select _, none => (.ok c.view, c)
  | .commit _, some φ => (.error (Store.external S φ), c)
  | .commit _, none => (.ok (), .closed c.view)
  | .rollback, _ => (.ok (), .closed c.committed)
  | .read _, some φ => (.error (Store.external S φ), c)
  | .read _, none => (.ok c.committed, c)
  | .ask _, .ok a => (.ok a, c)
  | .ask _, .error φ => (.error (Store.external S φ), c)
  | .draw _, a => (.ok a, c)

/-- Neither a data-modifying statement nor the end of a transaction. -/
def Cmd.Looks : Cmd T S Q → Prop
  | .execute _ _ => False
  | .commit _ => False
  | .rollback => False
  | _ => True

/-- Such a command leaves the rows as they are. -/
theorem Connection.act_looks (c : Connection δ) {m : Cmd T S Q} (h : m.Looks)
    (o : m.Outcome Φ A) : ((c.act m o : Except ε (m.Reply δ A) × Connection δ).2.committed =
      c.committed) ∧ (c.act m o : Except ε (m.Reply δ A) × Connection δ).2.view = c.view := by
  cases m with
  | begin t =>
    cases o with
    | some φ => exact ⟨rfl, rfl⟩
    | none =>
      simp only [act]
      cases c.working with
      | some w => exact ⟨rfl, rfl⟩
      | none => exact ⟨rfl, rfl⟩
  | execute t s => exact absurd h id
  | select t => cases o <;> exact ⟨rfl, rfl⟩
  | commit t => exact absurd h id
  | rollback => exact absurd h id
  | read t => cases o <;> exact ⟨rfl, rfl⟩
  | ask q => cases o <;> exact ⟨rfl, rfl⟩
  | draw q => exact ⟨rfl, rfl⟩

/-- A statement goes through or leaves the rows as they are. -/
theorem Connection.act_execute (c : Connection δ) (t : T) (s : S) (o : Option Φ) :
    (∃ e, (c.act (A := A) (.execute t s : Cmd T S Q) o : Except ε Nat × Connection δ) =
        (.error e, c.opening)) ∨
      ∃ d n, o = none ∧ Store.apply s c.view = .ok (d, n) ∧
        (c.act (A := A) (.execute t s : Cmd T S Q) o : Except ε Nat × Connection δ) =
          (.ok n, ⟨c.committed, some d⟩) := by
  cases o with
  | some φ => exact .inl ⟨_, rfl⟩
  | none =>
    cases hs : Store.apply s c.view with
    | error e => exact .inl ⟨e, by simp only [act, hs]⟩
    | ok r => exact .inr ⟨r.1, r.2, rfl, rfl, by simp only [act, hs]⟩

/-- A failure is on record when the outside world caused it, not when a constraint or the
program itself did. -/
def Cmd.note : (m : Cmd T S Q) → m.Outcome Φ A → List (Note T Q Φ A)
  | .begin t, some _ => [.failed t]
  | .execute t _, some _ => [.failed t]
  | .select t, some _ => [.failed t]
  | .commit t, some _ => [.failed t]
  | .read t, some _ => [.failed t]
  | .commit t, none => [.committed t]
  | .ask q, o => [.answered q o]
  | _, _ => []

def Session.act (m : Cmd T S Q) (o : m.Outcome Φ A) (x : Session T Q Φ A δ) :
    Except ε (m.Reply δ A) × Session T Q Φ A δ :=
  ((x.conn.act m o).1, ⟨(x.conn.act m o).2, x.log ++ m.note o⟩)

end Act

end McManager.Framework
