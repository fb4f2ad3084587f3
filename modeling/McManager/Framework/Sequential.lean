import McManager.Framework.Transaction

namespace McManager.Framework

variable {T S Q Φ : Type} {A : Q → Type} {δ ε α β : Type}

/-- What the outside world may do in the runs a statement is about: which failures the
commands at one place may meet, and which answers a question may get. -/
structure Scope (T Q Φ : Type) (A : Q → Type) (δ : Type) where
  fails : T → Φ → Prop
  answers : Session T Q Φ A δ → (q : Q) → Except Φ (A q) → Prop
  draws : Session T Q Φ A δ → (q : Q) → A q → Prop

namespace Scope

def allowed (E : Scope T Q Φ A δ) (x : Session T Q Φ A δ) : (m : Cmd T S Q) → m.Outcome Φ A → Prop
  | .begin t, some φ => E.fails t φ
  | .execute t _, some φ => E.fails t φ
  | .select t, some φ => E.fails t φ
  | .commit t, some φ => E.fails t φ
  | .read t, some φ => E.fails t φ
  | .ask q, o => E.answers x q o
  | .draw q, a => E.draws x q a
  | _, _ => True

/-- Anything may fail and any answer may come. -/
def any : Scope T Q Φ A δ := ⟨fun _ _ => True, fun _ _ _ => True, fun _ _ _ => True⟩

theorem any_allowed (x : Session T Q Φ A δ) (m : Cmd T S Q) (o : m.Outcome Φ A) :
    any.allowed x m o := by
  cases m <;> first | exact trivial | (cases o <;> exact trivial)

end Scope

variable [Store S δ ε Φ]

/-- What holds after a program that runs alone on the connection. -/
def wp (E : Scope T Q Φ A δ) (Q' : Except ε α → Session T Q Φ A δ → Prop)
    (p : Program (Cmd T S Q) (Cmd.Reply δ A) ε α) : Session T Q Φ A δ → Prop :=
  p.wp (O := Cmd.Outcome Φ A) Session.act E.allowed Q'

/-- Run a program alone on the connection. -/
def run (env : Nat → Session T Q Φ A δ → (m : Cmd T S Q) → m.Outcome Φ A)
    (p : Program (Cmd T S Q) (Cmd.Reply δ A) ε α) (x : Session T Q Φ A δ) :
    Except ε α × Session T Q Φ A δ :=
  p.run Session.act env 0 x

theorem run_of_wp {E : Scope T Q Φ A δ} {Q' : Except ε α → Session T Q Φ A δ → Prop}
    {env : Nat → Session T Q Φ A δ → (m : Cmd T S Q) → m.Outcome Φ A}
    (henv : ∀ n x m, E.allowed x m (env n x m))
    {p : Program (Cmd T S Q) (Cmd.Reply δ A) ε α} {x : Session T Q Φ A δ} (h : wp E Q' p x) :
    Q' (run env p x).1 (run env p x).2 :=
  Program.run_of_wp henv p 0 x h

section Rules

variable {E : Scope T Q Φ A δ} {Q' : Except ε β → Session T Q Φ A δ → Prop}

@[simp] theorem wp_ret (a : β) (x : Session T Q Φ A δ) :
    wp E Q' (.ret a : Program (Cmd T S Q) (Cmd.Reply δ A) ε β) x = Q' (.ok a) x := rfl

@[simp] theorem wp_raise (e : ε) (x : Session T Q Φ A δ) :
    wp E Q' (.raise e : Program (Cmd T S Q) (Cmd.Reply δ A) ε β) x = Q' (.error e) x := rfl

theorem wp_bind (p : Program (Cmd T S Q) (Cmd.Reply δ A) ε α)
    (f : α → Program (Cmd T S Q) (Cmd.Reply δ A) ε β) (x : Session T Q Φ A δ) :
    wp E Q' (p.bind f) x = wp E (fun r y => match r with
      | .ok a => wp E Q' (f a) y
      | .error e => Q' (.error e) y) p x :=
  Program.post_bind _ _ _ _

theorem wp_handle (p : Program (Cmd T S Q) (Cmd.Reply δ A) ε β)
    (h : ε → Program (Cmd T S Q) (Cmd.Reply δ A) ε β) (x : Session T Q Φ A δ) :
    wp E Q' (p.handle h) x = wp E (fun r y => match r with
      | .ok a => Q' (.ok a) y
      | .error e => wp E Q' (h e) y) p x :=
  Program.post_handle _ _ _ _

theorem wp_mono {P : Except ε β → Session T Q Φ A δ → Prop}
    {p : Program (Cmd T S Q) (Cmd.Reply δ A) ε β} {x : Session T Q Φ A δ}
    (h : wp E P p x) (weaken : ∀ r y, P r y → Q' r y) : wp E Q' p x :=
  Program.post_mono (Program.wp_monotone _ _) weaken p x h

/-- Go on after a part of the program whose outcome is known. -/
theorem wp_seq {P : Except ε α → Session T Q Φ A δ → Prop}
    {p : Program (Cmd T S Q) (Cmd.Reply δ A) ε α}
    {f : α → Program (Cmd T S Q) (Cmd.Reply δ A) ε β} {x : Session T Q Φ A δ}
    (first : wp E P p x) (next : ∀ a y, P (.ok a) y → wp E Q' (f a) y)
    (left : ∀ e y, P (.error e) y → Q' (.error e) y) : wp E Q' (p.bind f) x := by
  rw [wp_bind]
  refine Program.post_mono (Program.wp_monotone _ _) ?_ p x first
  intro r y h
  cases r with
  | ok a => exact next a y h
  | error e => exact left e y h

/-- Go on in the handler of a part of the program whose outcome is known. -/
theorem wp_guard {P : Except ε β → Session T Q Φ A δ → Prop}
    {p : Program (Cmd T S Q) (Cmd.Reply δ A) ε β}
    {h : ε → Program (Cmd T S Q) (Cmd.Reply δ A) ε β} {x : Session T Q Φ A δ}
    (first : wp E P p x) (kept : ∀ a y, P (.ok a) y → Q' (.ok a) y)
    (caught : ∀ e y, P (.error e) y → wp E Q' (h e) y) : wp E Q' (p.handle h) x := by
  rw [wp_handle]
  refine Program.post_mono (Program.wp_monotone _ _) ?_ p x first
  intro r y hr
  cases r with
  | ok a => exact kept a y hr
  | error e => exact caught e y hr

theorem wp_ask {q : Q} {Q' : Except ε (A q) → Session T Q Φ A δ → Prop}
    {x : Session T Q Φ A δ}
    (answer : ∀ a, E.answers x q (.ok a) →
      Q' (.ok a) ⟨x.conn, x.log ++ [.answered q (.ok a)]⟩)
    (fault : ∀ φ, E.answers x q (.error φ) →
      Q' (.error (Store.external S φ)) ⟨x.conn, x.log ++ [.answered q (.error φ)]⟩) :
    wp E Q' (ask q : Program (Cmd T S Q) (Cmd.Reply δ A) ε (A q)) x := by
  intro o ho
  cases o with
  | ok a => exact answer a ho
  | error φ => exact fault φ ho

theorem wp_draw {q : Q} {Q' : Except ε (A q) → Session T Q Φ A δ → Prop}
    {x : Session T Q Φ A δ} (value : ∀ a, E.draws x q a → Q' (.ok a) x) :
    wp E Q' (draw q : Program (Cmd T S Q) (Cmd.Reply δ A) ε (A q)) x := by
  intro a ha
  change Q' (.ok a) ⟨x.conn, x.log ++ []⟩
  rw [List.append_nil]
  exact value a ha

theorem wp_draw_bind {q : Q} {f : A q → Program (Cmd T S Q) (Cmd.Reply δ A) ε β}
    {x : Session T Q Φ A δ} (value : ∀ a, E.draws x q a → wp E Q' (f a) x) :
    wp E Q' ((draw q).bind f) x := by
  rw [wp_bind]
  exact wp_draw value

theorem wp_read {t : T} {f : δ → β} {x : Session T Q Φ A δ}
    (rows : Q' (.ok (f x.conn.committed)) x)
    (fault : ∀ φ, E.fails t φ →
      Q' (.error (Store.external S φ)) ⟨x.conn, x.log ++ [.failed t]⟩) :
    wp E Q' (readCommitted t f : Program (Cmd T S Q) (Cmd.Reply δ A) ε β) x := by
  intro o ho
  cases o with
  | none =>
    change Q' (.ok (f x.conn.committed)) ⟨x.conn, x.log ++ []⟩
    rwa [List.append_nil]
  | some φ => exact fault φ ho

/-- A block run inside a transaction: it ends as `eval` says, or some statement of it fails
and leaves a part of it in the open transaction. -/
theorem wp_lift {t : T} {b : Body S δ ε β} {d w : δ} {log : List (Note T Q Φ A)}
    (done : ∀ a w', b.eval w = .ok (a, w') → Q' (.ok a) ⟨⟨d, some w'⟩, log⟩)
    (refused : ∀ e w', b.eval w = .error e → Q' (.error e) ⟨⟨d, some w'⟩, log⟩)
    (fault : ∀ φ w', E.fails t φ →
      Q' (.error (Store.external S φ)) ⟨⟨d, some w'⟩, log ++ [.failed t]⟩) :
    wp E Q' (b.lift t : Program (Cmd T S Q) (Cmd.Reply δ A) ε β) ⟨⟨d, some w⟩, log⟩ := by
  induction b generalizing w with
  | ret a => exact done a w rfl
  | raise e => exact refused e w rfl
  | select k ih =>
    intro o ho
    cases o with
    | some φ => exact fault φ w ho
    | none =>
      change wp E Q' ((k w).lift t) ⟨⟨d, some w⟩, log ++ []⟩
      rw [List.append_nil]
      exact ih w done refused
  | execute s k ih =>
    intro o ho
    cases o with
    | some φ => exact fault φ w ho
    | none =>
      simp only [Session.act, Connection.act, Cmd.note, Connection.view_open, List.append_nil]
      cases hs : Store.apply s w with
      | error e => exact refused e w (by simp [Body.eval, hs])
      | ok r =>
        exact ih r.2 (fun a w' h => done a w' (by simpa [Body.eval, hs] using h))
          (fun e w' h => refused e w' (by simpa [Body.eval, hs] using h))

theorem wp_rollback {e : ε} {x : Session T Q Φ A δ}
    (h : Q' (.error e) ⟨.closed x.conn.committed, x.log⟩) :
    wp E Q' ((Program.perform .rollback).bind fun _ => .raise e :
      Program (Cmd T S Q) (Cmd.Reply δ A) ε β) x := by
  intro o _
  change Q' (.error e) ⟨.closed x.conn.committed, x.log ++ []⟩
  rwa [List.append_nil]

private theorem wp_lift_commit {t : T} {b : Body S δ ε β} {d w : δ} {log : List (Note T Q Φ A)}
    (done : ∀ a d', b.eval w = .ok (a, d') → Q' (.ok a) ⟨.closed d', log ++ [.committed t]⟩)
    (refused : ∀ e w', b.eval w = .error e → Q' (.error e) ⟨⟨d, some w'⟩, log⟩)
    (fault : ∀ φ w', E.fails t φ →
      Q' (.error (Store.external S φ)) ⟨⟨d, some w'⟩, log ++ [.failed t]⟩) :
    wp E Q' ((b.lift t).bind fun a => (Program.perform (.commit t)).bind fun _ => .ret a :
      Program (Cmd T S Q) (Cmd.Reply δ A) ε β) ⟨⟨d, some w⟩, log⟩ := by
  rw [wp_bind]
  refine wp_lift ?_ refused fault
  intro a w' h o ho
  cases o with
  | some φ => exact fault φ w' ho
  | none => exact done a w' h

/-- A block guarded by `rollback` is atomic: it takes effect as a whole, or not at all. -/
theorem wp_transaction {t : T} {b : Body S δ ε β} {d : δ} {log : List (Note T Q Φ A)}
    (done : ∀ a d', b.eval d = .ok (a, d') → Q' (.ok a) ⟨.closed d', log ++ [.committed t]⟩)
    (refused : ∀ e, b.eval d = .error e → Q' (.error e) ⟨.closed d, log⟩)
    (fault : ∀ φ, E.fails t φ →
      Q' (.error (Store.external S φ)) ⟨.closed d, log ++ [.failed t]⟩) :
    wp E Q' (transaction t b : Program (Cmd T S Q) (Cmd.Reply δ A) ε β) ⟨.closed d, log⟩ := by
  rw [transaction, wp_handle]
  intro o ho
  cases o with
  | some φ => exact wp_rollback (fault φ ho)
  | none =>
    change wp E _ (Program.bind _ _) ⟨⟨d, some d⟩, log ++ []⟩
    rw [List.append_nil]
    exact wp_lift_commit done (fun e w' h => wp_rollback (refused e h))
      (fun φ w' hφ => wp_rollback (fault φ hφ))

/-- With a transaction left open the guarded `BEGIN` raises and the block only ends it. -/
theorem wp_transaction_open {t : T} {b : Body S δ ε β} {d w : δ} {log : List (Note T Q Φ A)}
    (nested : Q' (.error (Store.nested S)) ⟨.closed d, log⟩)
    (fault : ∀ φ, E.fails t φ →
      Q' (.error (Store.external S φ)) ⟨.closed d, log ++ [.failed t]⟩) :
    wp E Q' (transaction t b : Program (Cmd T S Q) (Cmd.Reply δ A) ε β)
      ⟨⟨d, some w⟩, log⟩ := by
  rw [transaction, wp_handle]
  intro o ho
  cases o with
  | some φ => exact wp_rollback (fault φ ho)
  | none =>
    change wp E Q' _ ⟨⟨d, some w⟩, log ++ []⟩
    rw [List.append_nil]
    exact wp_rollback nested

theorem wp_transactionBare {t : T} {b : Body S δ ε β} {d : δ} {log : List (Note T Q Φ A)}
    (done : ∀ a d', b.eval d = .ok (a, d') → Q' (.ok a) ⟨.closed d', log ++ [.committed t]⟩)
    (refused : ∀ e, b.eval d = .error e → Q' (.error e) ⟨.closed d, log⟩)
    (fault : ∀ φ, E.fails t φ →
      Q' (.error (Store.external S φ)) ⟨.closed d, log ++ [.failed t]⟩) :
    wp E Q' (transactionBare t b : Program (Cmd T S Q) (Cmd.Reply δ A) ε β)
      ⟨.closed d, log⟩ := by
  intro o ho
  cases o with
  | some φ => exact fault φ ho
  | none =>
    change wp E Q' (Program.handle _ _) ⟨⟨d, some d⟩, log ++ []⟩
    rw [List.append_nil, wp_handle]
    exact wp_lift_commit done (fun e w' h => wp_rollback (refused e h))
      (fun φ w' hφ => wp_rollback (fault φ hφ))

/-- Without a `rollback` a failure leaves the transaction open. -/
theorem wp_autocommit {t : T} {s : S} {d : δ} {log : List (Note T Q Φ A)}
    {Q' : Except ε Unit → Session T Q Φ A δ → Prop}
    (done : ∀ d' n, Store.apply s d = .ok (d', n) →
      Q' (.ok ()) ⟨.closed d', log ++ [.committed t]⟩)
    (refused : ∀ e, Store.apply s d = .error e → Q' (.error e) ⟨⟨d, some d⟩, log⟩)
    (fault : ∀ φ w, E.fails t φ →
      Q' (.error (Store.external S φ)) ⟨⟨d, some w⟩, log ++ [.failed t]⟩) :
    wp E Q' (autocommit t (.write s) : Program (Cmd T S Q) (Cmd.Reply δ A) ε Unit)
      ⟨.closed d, log⟩ := by
  intro o ho
  cases o with
  | some φ => exact fault φ d ho
  | none =>
    simp only [Session.act, Connection.act, Cmd.note, Connection.view_closed, List.append_nil]
    cases hs : Store.apply s d with
    | error e => exact refused e hs
    | ok r =>
      intro o ho
      cases o with
      | some φ => exact fault φ r.1 ho
      | none => exact done r.1 r.2 hs

end Rules

end McManager.Framework
