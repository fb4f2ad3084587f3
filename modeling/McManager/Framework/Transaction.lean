import McManager.Framework.Connection

namespace McManager.Framework

/-- The statements inside one transaction: queries, data-modifying statements, and what the
code computes between them. An exception leaves the block. -/
inductive Body (S δ ε α : Type) : Type
  | ret (a : α)
  | raise (e : ε)
  | select (k : δ → Body S δ ε α)
  | execute (s : S) (k : Nat → Body S δ ε α)

variable {T S Q Φ : Type} {A : Q → Type} {δ ε α β : Type}

namespace Body

def bind : Body S δ ε α → (α → Body S δ ε β) → Body S δ ε β
  | .ret a, f => f a
  | .raise e, _ => .raise e
  | .select k, f => .select fun d => (k d).bind f
  | .execute s k, f => .execute s fun n => (k n).bind f

instance : Monad (Body S δ ε) where
  pure := .ret
  bind := bind

/-- The rows a query returns. -/
def query (f : δ → α) : Body S δ ε α := .select fun d => .ret (f d)

/-- Run a statement and return its row count. -/
def statement (s : S) : Body S δ ε Nat := .execute s .ret

/-- Run a statement whose row count the code does not look at. -/
def write (s : S) : Body S δ ε Unit := .execute s fun _ => .ret ()

def each (f : α → Body S δ ε β) : List α → Body S δ ε (List β)
  | [] => .ret []
  | a :: as => (f a).bind fun b => (each f as).bind fun bs => .ret (b :: bs)

/-- The commands of a block, all of them at the same place `t` of the source. -/
def lift (t : T) : Body S δ ε α → Program (Cmd T S Q) (Cmd.Reply δ A) ε α
  | .ret a => .ret a
  | .raise e => .raise e
  | .select k => .call (.select t) (Program.resume fun d => (k d).lift t)
  | .execute s k => .call (.execute t s) (Program.resume fun n => (k n).lift t)

section Eval

variable [Store S δ ε Φ]

/-- What a block returns and how it changes the database when nothing outside fails. -/
def eval : Body S δ ε α → δ → Except ε (α × δ)
  | .ret a, d => .ok (a, d)
  | .raise e, _ => .error e
  | .select k, d => (k d).eval d
  | .execute s k, d =>
    match Store.apply s d with
    | .ok (d', n) => (k n).eval d'
    | .error e => .error e

/-- The statements a block runs. -/
def writes : Body S δ ε α → δ → List S
  | .ret _, _ => []
  | .raise _, _ => []
  | .select k, d => (k d).writes d
  | .execute s k, d =>
    match Store.apply s d with
    | .ok (d', n) => s :: (k n).writes d'
    | .error _ => []

@[simp] theorem pure_eq (a : α) : (pure a : Body S δ ε α) = .ret a := rfl

@[simp] theorem bind_eq (b : Body S δ ε α) (f : α → Body S δ ε β) : b >>= f = b.bind f := rfl

@[simp] theorem eval_ret (a : α) (d : δ) : (ret a : Body S δ ε α).eval d = .ok (a, d) := rfl

@[simp] theorem eval_raise (e : ε) (d : δ) : (raise e : Body S δ ε α).eval d = .error e := rfl

theorem eval_execute (s : S) (k : Nat → Body S δ ε α) (d : δ) :
    (execute s k).eval d =
      match Store.apply s d with
      | .ok (d', n) => (k n).eval d'
      | .error e => .error e := by rw [eval]

theorem eval_bind (b : Body S δ ε α) (f : α → Body S δ ε β) (d : δ) :
    (b.bind f).eval d =
      match b.eval d with
      | .ok (a, d') => (f a).eval d'
      | .error e => .error e := by
  induction b generalizing d with
  | ret a => rfl
  | raise e => rfl
  | select k ih => exact ih d d
  | execute s k ih =>
    simp only [bind, eval_execute]
    cases Store.apply s d with
    | ok r => exact ih r.2 r.1
    | error e => rfl

@[simp] theorem eval_query_bind (q : δ → α) (f : α → Body S δ ε β) (d : δ) :
    ((query q).bind f).eval d = (f (q d)).eval d := rfl

/-- A block that goes through has gone through its first part. -/
theorem eval_bind_ok {b : Body S δ ε α} {f : α → Body S δ ε β} {d : δ} {r : β × δ}
    (h : (b.bind f).eval d = .ok r) :
    ∃ a d', b.eval d = .ok (a, d') ∧ (f a).eval d' = .ok r := by
  rw [eval_bind] at h
  cases hb : b.eval d with
  | error e => simp [hb] at h
  | ok a => exact ⟨a.1, a.2, rfl, by simpa [hb] using h⟩

/-- A block is left by its first part or by what follows it. -/
theorem eval_bind_error {b : Body S δ ε α} {f : α → Body S δ ε β} {d : δ} {e : ε}
    (h : (b.bind f).eval d = .error e) :
    b.eval d = .error e ∨ ∃ a d', b.eval d = .ok (a, d') ∧ (f a).eval d' = .error e := by
  rw [eval_bind] at h
  cases hb : b.eval d with
  | error e' => simpa [hb] using h
  | ok a => exact .inr ⟨a.1, a.2, rfl, by simpa [hb] using h⟩

theorem eval_bind_total {b : Body S δ ε α} {f : α → Body S δ ε β} {d : δ}
    (first : ∃ r, b.eval d = .ok r)
    (next : ∀ a d', b.eval d = .ok (a, d') → ∃ r, (f a).eval d' = .ok r) :
    ∃ r, (b.bind f).eval d = .ok r := by
  obtain ⟨⟨a, d'⟩, h⟩ := first
  obtain ⟨r, hr⟩ := next a d' h
  refine ⟨r, ?_⟩
  rw [eval_bind, h]
  exact hr

theorem eval_write_total {s : S} {d : δ} (h : ∃ r, Store.apply s d = .ok r) :
    ∃ r, (write s : Body S δ ε Unit).eval d = .ok r := by
  obtain ⟨r, h⟩ := h
  refine ⟨((), r.1), ?_⟩
  simp only [write, eval_execute, eval_ret, h]

theorem eval_write_ok {s : S} {d : δ} {r : Unit × δ}
    (h : (write s : Body S δ ε Unit).eval d = .ok r) :
    ∃ n, Store.apply s d = .ok (r.2, n) := by
  simp only [write, eval_execute, eval_ret] at h
  cases hs : Store.apply s d with
  | error e => simp [hs] at h
  | ok a =>
    simp only [hs, Except.ok.injEq] at h
    exact ⟨a.2, by simp [← h]⟩

theorem eval_statement_ok {s : S} {d : δ} {r : Nat × δ}
    (h : (statement s : Body S δ ε Nat).eval d = .ok r) :
    Store.apply s d = .ok (r.2, r.1) := by
  simp only [statement, eval_execute, eval_ret] at h
  cases hs : Store.apply s d with
  | error e => simp [hs] at h
  | ok a =>
    simp only [hs, Except.ok.injEq] at h
    simp [← h]

@[simp] theorem eval_query (q : δ → α) (d : δ) :
    (query q : Body S δ ε α).eval d = .ok (q d, d) := rfl

theorem eval_statement_bind (s : S) (f : Nat → Body S δ ε β) (d : δ) :
    ((statement s).bind f).eval d =
      match Store.apply s d with
      | .ok (d', n) => (f n).eval d'
      | .error e => .error e := by
  simp only [statement, bind, eval_execute]

theorem eval_write_bind (s : S) (f : Unit → Body S δ ε β) (d : δ) :
    ((write s).bind f).eval d =
      match Store.apply s d with
      | .ok (d', _) => (f ()).eval d'
      | .error e => .error e := by
  simp only [write, bind, eval_execute]

theorem eval_write (s : S) (d : δ) :
    (write s : Body S δ ε Unit).eval d =
      match Store.apply s d with
      | .ok (d', _) => .ok ((), d')
      | .error e => .error e := by
  simp only [write, eval_execute, eval_ret]

end Eval

end Body

/-- `BEGIN IMMEDIATE` stands inside the guarded block, so a failing `BEGIN` is answered by
the same `rollback` as a failing statement. -/
def transaction (t : T) (b : Body S δ ε α) : Program (Cmd T S Q) (Cmd.Reply δ A) ε α :=
  (((Program.perform (.begin t)).bind fun _ =>
      (b.lift t).bind fun a => (Program.perform (.commit t)).bind fun _ => .ret a)).handle
    fun e => (Program.perform .rollback).bind fun _ => .raise e

/-- `BEGIN IMMEDIATE` stands before the guarded block. -/
def transactionBare (t : T) (b : Body S δ ε α) : Program (Cmd T S Q) (Cmd.Reply δ A) ε α :=
  (Program.perform (.begin t)).bind fun _ =>
    ((b.lift t).bind fun a => (Program.perform (.commit t)).bind fun _ => .ret a).handle
      fun e => (Program.perform .rollback).bind fun _ => .raise e

/-- Statements and a `commit` with neither a `BEGIN` nor a `rollback` of their own. -/
def autocommit (t : T) (b : Body S δ ε α) : Program (Cmd T S Q) (Cmd.Reply δ A) ε α :=
  (b.lift t).bind fun a => (Program.perform (.commit t)).bind fun _ => .ret a

/-- The same under a guard that answers every exception by `rollback`. -/
def autocommitGuarded (t : T) (b : Body S δ ε α) : Program (Cmd T S Q) (Cmd.Reply δ A) ε α :=
  (autocommit t b).handle fun e => (Program.perform .rollback).bind fun _ => .raise e

/-- A block and what follows its commit under one guard: `rollback` answers every exception,
also one from after the commit, before `recover` does. -/
def transactionThen (t : T) (b : Body S δ ε α) (next : α → Program (Cmd T S Q) (Cmd.Reply δ A) ε β)
    (recover : ε → Program (Cmd T S Q) (Cmd.Reply δ A) ε β) :
    Program (Cmd T S Q) (Cmd.Reply δ A) ε β :=
  ((Program.perform (.begin t)).bind fun _ => (b.lift t).bind fun a =>
    (Program.perform (.commit t)).bind fun _ => next a).handle
      fun e => (Program.perform .rollback).bind fun _ => recover e

/-- A query of the writer connection outside any block. -/
def selectWriter (t : T) (f : δ → α) : Program (Cmd T S Q) (Cmd.Reply δ A) ε α :=
  (Program.perform (.select t)).bind fun d => .ret (f d)

/-- A query of a reader connection, which sees committed rows only. -/
def readCommitted (t : T) (f : δ → α) : Program (Cmd T S Q) (Cmd.Reply δ A) ε α :=
  (Program.perform (.read t)).bind fun d => .ret (f d)

/-- Ask the outside world. -/
def ask (q : Q) : Program (Cmd T S Q) (Cmd.Reply δ A) ε (A q) :=
  Program.perform (R := Cmd.Reply δ A) (Cmd.ask (T := T) (S := S) q)

/-- Take a value that is always there. -/
def draw (q : Q) : Program (Cmd T S Q) (Cmd.Reply δ A) ε (A q) :=
  Program.perform (R := Cmd.Reply δ A) (Cmd.draw (T := T) (S := S) q)

end McManager.Framework
