import Mathlib.Tactic.Common

/-! Computations that may raise, on a state that keeps what they did before. -/

namespace McManager.Framework

/-- A computation on a state that may raise; what it has done until then stays. -/
def Steps (σ ε α : Type) : Type := σ → Except ε α × σ

namespace Steps

variable {σ ε α β : Type}

instance : Monad (Steps σ ε) where
  pure a := fun s => (.ok a, s)
  bind p f := fun s =>
    match p s with
    | (.ok a, s) => f a s
    | (.error e, s) => (.error e, s)

instance : MonadExceptOf ε (Steps σ ε) where
  throw e := fun s => (.error e, s)
  tryCatch p handler := fun s =>
    match p s with
    | (.ok a, s) => (.ok a, s)
    | (.error e, s) => handler e s

/-- `try: p finally: q`. -/
def ensure (p : Steps σ ε α) (q : Steps σ ε Unit) : Steps σ ε α := fun s =>
  match q (p s).2 with
  | (.ok _, s') => ((p s).1, s')
  | (.error e, s') => (.error e, s')

/-- A step that raises, or does this to the state. -/
def step (raised : Option ε) (effect : σ → σ) : Steps σ ε Unit := fun s =>
  match raised with
  | none => (.ok (), effect s)
  | some e => (.error e, s)

/-- What comes from outside: a value or an exception. -/
def given (r : Except ε α) : Steps σ ε α := fun s => (r, s)

def current : Steps σ ε σ := fun s => (.ok s, s)

def require (holds : Bool) (e : ε) : Steps σ ε Unit := if holds then pure () else throw e

def onlyIf (holds : Bool) (p : Steps σ ε Unit) : Steps σ ε Unit := if holds then p else pure ()

/-- From `s` the computation returns in `t`. -/
def Returns (p : Steps σ ε α) (s : σ) (a : α) (t : σ) : Prop := p s = (.ok a, t)

/-- From `s` the computation raises in `t`. -/
def Raises (p : Steps σ ε α) (s t : σ) : Prop := ∃ e, p s = (.error e, t)

section Rules

variable {p : Steps σ ε α} {f : α → Steps σ ε β} {handler : ε → Steps σ ε α} {q : Steps σ ε Unit}
variable {s t u : σ} {a : α} {b : β} {raised : Option ε} {g : σ → σ} {r : Except ε α}

theorem returns_pure : (pure a : Steps σ ε α).Returns s a s := rfl

theorem returns_current : (current : Steps σ ε σ).Returns s s s := rfl

theorem returns_given : (given (.ok a) : Steps σ ε α).Returns s a s := rfl

theorem returns_require {holds : Bool} {e : ε} (h : holds = true) :
    (require holds e : Steps σ ε Unit).Returns s () s := by
  subst h
  rfl

theorem raises_require {holds : Bool} {e : ε} (h : holds = false) :
    (require holds e : Steps σ ε Unit).Raises s s := by
  subst h
  exact ⟨e, rfl⟩

theorem raises_given {e : ε} : (given (.error e) : Steps σ ε α).Raises s s := ⟨e, rfl⟩

theorem raises_throw {e : ε} : (throw e : Steps σ ε α).Raises s s := ⟨e, rfl⟩

theorem returns_step (h : raised = none) : (step raised g).Returns s () (g s) := by
  subst h
  rfl

theorem raises_step (h : raised ≠ none) : (step raised g).Raises s s := by
  cases raised with
  | none => exact absurd rfl h
  | some e => exact ⟨e, rfl⟩

theorem bind_apply : (p >>= f) s = match p s with
    | (.ok a, s') => f a s'
    | (.error e, s') => (.error e, s') := rfl

theorem handle_apply : tryCatch p handler s = match p s with
    | (.ok a, s') => (.ok a, s')
    | (.error e, s') => handler e s' := rfl

theorem returns_bind (first : p.Returns s a t) (second : (f a).Returns t b u) :
    (p >>= f).Returns s b u := by
  unfold Returns at first second ⊢
  rw [bind_apply, first]
  exact second

/-- A sequence raises in its second part. -/
theorem raises_bind (first : p.Returns s a t) (second : (f a).Raises t u) :
    (p >>= f).Raises s u := by
  unfold Returns at first
  obtain ⟨e, second⟩ := second
  refine ⟨e, ?_⟩
  rw [bind_apply, first]
  exact second

/-- A sequence raises where its first part does. -/
theorem raises_first (first : p.Raises s t) : (p >>= f).Raises s t := by
  obtain ⟨e, first⟩ := first
  refine ⟨e, ?_⟩
  rw [bind_apply, first]

theorem returns_handle (h : p.Returns s a t) : (tryCatch p handler).Returns s a t := by
  unfold Returns at h ⊢
  rw [handle_apply, h]

/-- A handler that raises, whatever it handles. -/
theorem raises_handle (first : p.Raises s t) (second : ∀ e, (handler e).Raises t u) :
    (tryCatch p handler).Raises s u := by
  obtain ⟨e, first⟩ := first
  obtain ⟨e', second⟩ := second e
  refine ⟨e', ?_⟩
  rw [handle_apply, first]
  exact second

theorem returns_ensure (first : p.Returns s a t) (last : q.Returns t () u) :
    (ensure p q).Returns s a u := by
  unfold Returns at first last ⊢
  simp only [ensure, first, last]

/-- What is done at last raises, however the rest has ended. -/
theorem raises_last (h : q.Raises (p s).2 u) : (ensure p q).Raises s u := by
  obtain ⟨e, h⟩ := h
  refine ⟨e, ?_⟩
  rw [ensure, h]

theorem raises_ensure (first : p.Raises s t) (last : q.Returns t () u) :
    (ensure p q).Raises s u := by
  unfold Returns at last
  obtain ⟨e, first⟩ := first
  refine ⟨e, ?_⟩
  simp only [ensure, first, last]

/-- Whatever it does first, the computation raises at last. -/
theorem raises_throwing {e : ε} : (p >>= fun _ => (throw e : Steps σ ε β)).Raises s (p s).2 := by
  rcases h : p s with ⟨e' | a, t⟩
  · refine ⟨e', ?_⟩
    rw [bind_apply, h]
  · refine ⟨e, ?_⟩
    rw [bind_apply, h]
    rfl

/-- A computation does not both return and raise. -/
theorem Returns.not_raises (h : p.Returns s a t) : ¬p.Raises s u := by
  rintro ⟨e, h'⟩
  rw [Returns, h'] at h
  cases h

end Rules

end Steps

end McManager.Framework
