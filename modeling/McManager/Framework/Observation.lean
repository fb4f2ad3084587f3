import McManager.Framework.Sequential

namespace McManager.Framework

variable {T S Q Φ : Type} {A : Q → Type} {δ ε α β : Type}

/-- A note that tells of an answer to one of the questions `asks`, or of a reader that failed
at one of the places `reads`. -/
def Note.Observed (reads : T → Prop) (asks : Q → Prop) : Note T Q Φ A → Prop
  | .failed t => reads t
  | .committed _ => False
  | .answered q _ => asks q

variable [Store S δ ε Φ]

/-- The rule of programs that only look: readers see the committed rows `d`. -/
def observing (d : δ) (reads : T → Prop) (asks : Q → Prop) :
    (m : Cmd T S Q) → Unit → (Except ε (m.Reply δ A) → Unit → Prop) → Prop
  | .read t, _, P => reads t ∧ P (.ok d) () ∧ ∀ φ, P (.error (Store.external S φ)) ()
  | .ask q, _, P => asks q ∧ (∀ a, P (.ok a) ()) ∧ ∀ φ, P (.error (Store.external S φ)) ()
  | .draw _, _, P => ∀ a, P (.ok a) ()
  | _, _, _ => False

/-- The program only looks, and `R` holds of what it comes back with. -/
def Observes (d : δ) (reads : T → Prop) (asks : Q → Prop) (R : Except ε α → Prop)
    (p : Program (Cmd T S Q) (Cmd.Reply δ A) ε α) : Prop :=
  p.post (observing d reads asks) (fun r _ => R r) ()

variable {d : δ} {reads : T → Prop} {asks : Q → Prop}

theorem observing_monotone : @Program.Monotone _ _ _ ε
    (observing d reads asks : (m : Cmd T S Q) → Unit →
      (Except ε (m.Reply δ A) → Unit → Prop) → Prop) := by
  intro m x P P' weaken h
  cases m with
  | read t => exact ⟨h.1, weaken _ _ h.2.1, fun φ => weaken _ _ (h.2.2 φ)⟩
  | ask q => exact ⟨h.1, fun a => weaken _ _ (h.2.1 a), fun φ => weaken _ _ (h.2.2 φ)⟩
  | draw q => exact fun a => weaken _ _ (h a)
  | begin t => exact h
  | execute t s => exact h
  | select t => exact h
  | commit t => exact h
  | rollback => exact h

theorem Observes.mono {R R' : Except ε α → Prop} {p : Program (Cmd T S Q) (Cmd.Reply δ A) ε α}
    (h : Observes d reads asks R p) (weaken : ∀ r, R r → R' r) : Observes d reads asks R' p :=
  Program.post_mono observing_monotone (fun r _ => weaken r) p () h

theorem observes_ret {R : Except ε α → Prop} {a : α} (h : R (.ok a)) :
    Observes d reads asks R (.ret a : Program (Cmd T S Q) (Cmd.Reply δ A) ε α) := h

theorem observes_raise {R : Except ε α → Prop} {e : ε} (h : R (.error e)) :
    Observes d reads asks R (.raise e : Program (Cmd T S Q) (Cmd.Reply δ A) ε α) := h

theorem Observes.bind {R : Except ε α → Prop} {R' : Except ε β → Prop}
    {p : Program (Cmd T S Q) (Cmd.Reply δ A) ε α}
    {f : α → Program (Cmd T S Q) (Cmd.Reply δ A) ε β} (hp : Observes d reads asks R p)
    (next : ∀ a, R (.ok a) → Observes d reads asks R' (f a))
    (left : ∀ e, R (.error e) → R' (.error e)) : Observes d reads asks R' (p.bind f) := by
  rw [Observes, Program.post_bind]
  refine Program.post_mono observing_monotone ?_ p () hp
  intro r y hr
  cases r with
  | ok a => exact next a hr
  | error e => exact left e hr

theorem Observes.handle {R R' : Except ε α → Prop} {p : Program (Cmd T S Q) (Cmd.Reply δ A) ε α}
    {h : ε → Program (Cmd T S Q) (Cmd.Reply δ A) ε α} (hp : Observes d reads asks R p)
    (kept : ∀ a, R (.ok a) → R' (.ok a))
    (caught : ∀ e, R (.error e) → Observes d reads asks R' (h e)) :
    Observes d reads asks R' (p.handle h) := by
  rw [Observes, Program.post_handle]
  refine Program.post_mono observing_monotone ?_ p () hp
  intro r y hr
  cases r with
  | ok a => exact kept a hr
  | error e => exact caught e hr

theorem observes_ask {q : Q} {R : Except ε (A q) → Prop} (hq : asks q) (answer : ∀ a, R (.ok a))
    (fault : ∀ φ, R (.error (Store.external S φ))) :
    Observes d reads asks R (ask q : Program (Cmd T S Q) (Cmd.Reply δ A) ε (A q)) :=
  ⟨hq, answer, fault⟩

theorem observes_draw {q : Q} {R : Except ε (A q) → Prop} (value : ∀ a, R (.ok a)) :
    Observes d reads asks R (draw q : Program (Cmd T S Q) (Cmd.Reply δ A) ε (A q)) := value

theorem observes_read {t : T} {f : δ → α} {R : Except ε α → Prop} (ht : reads t)
    (rows : R (.ok (f d))) (fault : ∀ φ, R (.error (Store.external S φ))) :
    Observes d reads asks R
      (readCommitted t f : Program (Cmd T S Q) (Cmd.Reply δ A) ε α) :=
  ⟨ht, rows, fault⟩

/-- A program that only looks leaves the connection alone and only observations on record. -/
theorem wp_observes {E : Scope T Q Φ A δ} {R : Except ε α → Prop}
    {Q' : Except ε α → Session T Q Φ A δ → Prop} {p : Program (Cmd T S Q) (Cmd.Reply δ A) ε α}
    {x : Session T Q Φ A δ} (observes : Observes x.conn.committed reads asks R p)
    (h : ∀ r l, R r → (∀ n ∈ l, n.Observed reads asks) → Q' r ⟨x.conn, x.log ++ l⟩) :
    wp E Q' p x := by
  induction p generalizing x with
  | ret a => simpa using h _ [] observes (by simp)
  | raise e => simpa using h _ [] observes (by simp)
  | call m k ih =>
    have step : ∀ (r : Except ε (m.Reply δ A)) (l : List (Note T Q Φ A)),
        (k r).post (observing x.conn.committed reads asks) (fun r _ => R r) () →
        (∀ n ∈ l, n.Observed reads asks) → wp E Q' (k r) ⟨x.conn, x.log ++ l⟩ := by
      intro r l hr hl
      refine ih r hr ?_
      intro r' l' hr' hl'
      have hall : ∀ n ∈ l ++ l', n.Observed reads asks := by
        intro n hn
        rcases List.mem_append.mp hn with hn | hn
        · exact hl n hn
        · exact hl' n hn
      simpa using h r' (l ++ l') hr' hall
    have seen : ∀ n : Note T Q Φ A, n.Observed reads asks → ∀ n' ∈ [n], n'.Observed reads asks := by
      simp
    intro o _
    cases m with
    | read t =>
      cases o with
      | none => exact step (.ok x.conn.committed) [] observes.2.1 (by simp)
      | some φ =>
        exact step (.error (Store.external S φ)) [.failed t] (observes.2.2 φ) (seen _ observes.1)
    | ask q =>
      cases o with
      | ok a => exact step (.ok a) [.answered q (.ok a)] (observes.2.1 a) (seen _ observes.1)
      | error φ =>
        exact step (.error (Store.external S φ)) [.answered q (.error φ)] (observes.2.2 φ)
          (seen _ observes.1)
    | draw q => exact step (.ok o) [] (observes o) (by simp)
    | begin t => exact absurd observes id
    | execute t s => exact absurd observes id
    | select t => exact absurd observes id
    | commit t => exact absurd observes id
    | rollback => exact absurd observes id

end McManager.Framework
