import Mathlib.Tactic.Common

namespace McManager.Framework

/-- A program over commands `C`, where `R c` is the type of the reply to `c`.
Every command can answer with an exception, which the program sees as its reply. -/
inductive Program (C : Type) (R : C → Type) (ε α : Type) : Type
  | ret (a : α)
  | raise (e : ε)
  | call (c : C) (k : Except ε (R c) → Program C R ε α)

namespace Program

variable {C X : Type} {R O : C → Type} {ε α β γ : Type}

def bind : Program C R ε α → (α → Program C R ε β) → Program C R ε β
  | .ret a, f => f a
  | .raise e, _ => .raise e
  | .call c k, f => .call c fun r => (k r).bind f

/-- `try p except e: h e`. -/
def handle : Program C R ε α → (ε → Program C R ε α) → Program C R ε α
  | .ret a, _ => .ret a
  | .raise e, h => h e
  | .call c k, h => .call c fun r => (k r).handle h

instance : Monad (Program C R ε) where
  pure := .ret
  bind := bind

instance : MonadExceptOf ε (Program C R ε) where
  throw := .raise
  tryCatch := handle

/-- Go on with a reply, or pass its exception on. -/
def resume (f : β → Program C R ε α) : Except ε β → Program C R ε α
  | .ok b => f b
  | .error e => .raise e

/-- Issue one command. -/
def perform (c : C) : Program C R ε (R c) := .call c (resume .ret)

/-- Run `f` on every element from left to right; the first exception ends the loop. -/
def each (f : α → Program C R ε Unit) : List α → Program C R ε Unit
  | [] => .ret ()
  | a :: as => (f a).bind fun _ => each f as

@[simp] theorem pure_eq (a : α) : (pure a : Program C R ε α) = .ret a := rfl

@[simp] theorem throw_eq (e : ε) : (throw e : Program C R ε α) = .raise e := rfl

@[simp] theorem bind_eq (p : Program C R ε α) (f : α → Program C R ε β) :
    p >>= f = p.bind f := rfl

@[simp] theorem tryCatch_eq (p : Program C R ε α) (h : ε → Program C R ε α) :
    tryCatch p h = p.handle h := rfl

@[simp] theorem ret_bind (a : α) (f : α → Program C R ε β) : (ret a).bind f = f a := rfl

@[simp] theorem raise_bind (e : ε) (f : α → Program C R ε β) :
    (raise e : Program C R ε α).bind f = .raise e := rfl

@[simp] theorem ret_handle (a : α) (h : ε → Program C R ε α) :
    (ret a).handle h = .ret a := rfl

@[simp] theorem raise_handle (e : ε) (h : ε → Program C R ε α) :
    (raise e : Program C R ε α).handle h = h e := rfl

theorem bind_ret (p : Program C R ε α) : p.bind .ret = p := by
  induction p with
  | ret a => rfl
  | raise e => rfl
  | call c k ih => exact congrArg (call c) (funext ih)

theorem bind_assoc (p : Program C R ε α) (f : α → Program C R ε β) (g : β → Program C R ε γ) :
    (p.bind f).bind g = p.bind fun a => (f a).bind g := by
  induction p with
  | ret a => rfl
  | raise e => rfl
  | call c k ih => exact congrArg (call c) (funext ih)

/-- Predicate transformer of a program, given one for each command. The state `X` is
whatever the rule for the commands keeps track of. -/
def post (rule : (c : C) → X → (Except ε (R c) → X → Prop) → Prop)
    (Q : Except ε α → X → Prop) : Program C R ε α → X → Prop
  | .ret a, x => Q (.ok a) x
  | .raise e, x => Q (.error e) x
  | .call c k, x => rule c x fun r y => post rule Q (k r) y

section Rules

variable {rule : (c : C) → X → (Except ε (R c) → X → Prop) → Prop}

@[simp] theorem post_ret (Q : Except ε α → X → Prop) (a : α) (x : X) :
    (ret a : Program C R ε α).post rule Q x = Q (.ok a) x := rfl

@[simp] theorem post_raise (Q : Except ε α → X → Prop) (e : ε) (x : X) :
    (raise e : Program C R ε α).post rule Q x = Q (.error e) x := rfl

theorem post_bind (Q : Except ε β → X → Prop) (p : Program C R ε α)
    (f : α → Program C R ε β) (x : X) :
    (p.bind f).post rule Q x =
      p.post rule (fun r y => match r with
        | .ok a => (f a).post rule Q y
        | .error e => Q (.error e) y) x := by
  induction p generalizing x with
  | ret a => rfl
  | raise e => rfl
  | call c k ih =>
    simp only [bind, post]
    exact congrArg (rule c x) (funext fun r => funext fun y => ih r y)

theorem post_handle (Q : Except ε α → X → Prop) (p : Program C R ε α)
    (h : ε → Program C R ε α) (x : X) :
    (p.handle h).post rule Q x =
      p.post rule (fun r y => match r with
        | .ok a => Q (.ok a) y
        | .error e => (h e).post rule Q y) x := by
  induction p generalizing x with
  | ret a => rfl
  | raise e => rfl
  | call c k ih =>
    simp only [handle, post]
    exact congrArg (rule c x) (funext fun r => funext fun y => ih r y)

/-- A rule may be used with a weaker postcondition. -/
def Monotone (rule : (c : C) → X → (Except ε (R c) → X → Prop) → Prop) : Prop :=
  ∀ c x (Q Q' : Except ε (R c) → X → Prop), (∀ r y, Q r y → Q' r y) →
    rule c x Q → rule c x Q'

theorem post_mono (mono : Monotone rule) {Q Q' : Except ε α → X → Prop}
    (weaken : ∀ r y, Q r y → Q' r y) (p : Program C R ε α) (x : X)
    (h : p.post rule Q x) : p.post rule Q' x := by
  induction p generalizing x with
  | ret a => exact weaken _ _ h
  | raise e => exact weaken _ _ h
  | call c k ih => exact mono c x _ _ (fun r y => ih r y) h

/-- A loop keeps what each of its rounds keeps, whether it ends or is left by an exception. -/
theorem post_each (mono : Monotone rule) {f : α → Program C R ε Unit}
    {I : X → Prop} {Q : ε → X → Prop} (as : List α)
    (round : ∀ a ∈ as, ∀ x, I x → (f a).post rule
      (fun r y => match r with | .ok _ => I y | .error e => Q e y) x)
    (x : X) (hx : I x) :
    (each f as).post rule (fun r y => match r with | .ok _ => I y | .error e => Q e y) x := by
  induction as generalizing x with
  | nil => exact hx
  | cons a as ih =>
    rw [each, post_bind]
    refine post_mono mono ?_ (f a) x (round a (by simp) x hx)
    intro r y h
    cases r with
    | ok _ => exact ih (fun b hb => round b (by simp [hb])) y h
    | error e => exact h

end Rules

/-- Every command the program may issue satisfies `P`. -/
def Confined (P : C → Prop) : Program C R ε α → Prop
  | .ret _ => True
  | .raise _ => True
  | .call c k => P c ∧ ∀ r, (k r).Confined P

namespace Confined

variable {P P' : C → Prop}

theorem bind {p : Program C R ε α} {f : α → Program C R ε β} (hp : p.Confined P)
    (hf : ∀ a, (f a).Confined P) : (p.bind f).Confined P := by
  induction p with
  | ret a => exact hf a
  | raise e => exact trivial
  | call c k ih => exact ⟨hp.1, fun r => ih r (hp.2 r)⟩

theorem handle {p : Program C R ε α} {h : ε → Program C R ε α} (hp : p.Confined P)
    (hh : ∀ e, (h e).Confined P) : (p.handle h).Confined P := by
  induction p with
  | ret a => exact trivial
  | raise e => exact hh e
  | call c k ih => exact ⟨hp.1, fun r => ih r (hp.2 r)⟩

theorem mono {p : Program C R ε α} (hp : p.Confined P) (weaken : ∀ c, P c → P' c) :
    p.Confined P' := by
  induction p with
  | ret a => exact trivial
  | raise e => exact trivial
  | call c k ih => exact ⟨weaken c hp.1, fun r => ih r (hp.2 r)⟩

theorem perform {c : C} (h : P c) : (perform c : Program C R ε (R c)).Confined P := by
  refine ⟨h, ?_⟩
  intro r
  cases r with
  | ok a => exact trivial
  | error e => exact trivial

/-- A state that every such command may be issued in, and leaves as it is. -/
theorem post {rule : (c : C) → X → (Except ε (R c) → X → Prop) → Prop} {p : Program C R ε α}
    {x : X} (hp : p.Confined P) (still : ∀ c Q, P c → (∀ r, Q r x) → rule c x Q) :
    p.post rule (fun _ y => y = x) x := by
  induction p with
  | ret a => exact rfl
  | raise e => exact rfl
  | call c k ih => exact still c _ hp.1 fun r => ih r (hp.2 r)

end Confined

/-- Run a program on a machine: `act c o x` is the reply to `c` and the next state when the
outside world settles on `o`, and `env` is what it settles on at each step. -/
def run (act : (c : C) → O c → X → Except ε (R c) × X) (env : Nat → X → (c : C) → O c) :
    Program C R ε α → Nat → X → Except ε α × X
  | .ret a, _, x => (.ok a, x)
  | .raise e, _, x => (.error e, x)
  | .call c k, n, x =>
    (k (act c (env n x c) x).1).run act env (n + 1) (act c (env n x c) x).2

/-- What holds after a program whatever the outside world does within `allowed`. -/
def wp (act : (c : C) → O c → X → Except ε (R c) × X) (allowed : X → (c : C) → O c → Prop)
    (Q : Except ε α → X → Prop) : Program C R ε α → X → Prop :=
  post (fun c x Q => ∀ o, allowed x c o → Q (act c o x).1 (act c o x).2) Q

theorem wp_monotone (act : (c : C) → O c → X → Except ε (R c) × X)
    (allowed : X → (c : C) → O c → Prop) :
    Monotone (fun c x Q => ∀ o, allowed x c o → Q (act c o x).1 (act c o x).2) :=
  fun _ _ _ _ weaken h o ho => weaken _ _ (h o ho)

theorem run_of_wp {act : (c : C) → O c → X → Except ε (R c) × X}
    {allowed : X → (c : C) → O c → Prop} {env : Nat → X → (c : C) → O c}
    (henv : ∀ n x c, allowed x c (env n x c)) {Q : Except ε α → X → Prop}
    (p : Program C R ε α) (n : Nat) (x : X) (h : p.wp act allowed Q x) :
    Q (p.run act env n x).1 (p.run act env n x).2 := by
  induction p generalizing n x with
  | ret a => exact h
  | raise e => exact h
  | call c k ih => exact ih _ (n + 1) _ (h (env n x c) (henv n x c))

end Program

end McManager.Framework
