import McManager.Framework.Sequential

namespace McManager.Framework

namespace Program

variable {C X : Type} {R O : C → Type} {ε α : Type}

/-- A command that was issued, the state it was issued in, and the reply. -/
structure Event (C X : Type) (R : C → Type) (ε : Type) where
  before : X
  command : C
  reply : Except ε (R command)

/-- The machine with a record of its events beside its state. -/
def recording (act : (c : C) → O c → X → Except ε (R c) × X) (c : C) (o : O c)
    (y : X × List (Event C X R ε)) : Except ε (R c) × (X × List (Event C X R ε)) :=
  ((act c o y.1).1, (act c o y.1).2, y.2 ++ [⟨y.1, c, (act c o y.1).1⟩])

/-- The events of a run. -/
def events (act : (c : C) → O c → X → Except ε (R c) × X) (env : Nat → X → (c : C) → O c) :
    Program C R ε α → Nat → X → List (Event C X R ε)
  | .ret _, _, _ => []
  | .raise _, _, _ => []
  | .call c k, n, x => ⟨x, c, (act c (env n x c) x).1⟩ ::
      (k (act c (env n x c) x).1).events act env (n + 1) (act c (env n x c) x).2

variable {act : (c : C) → O c → X → Except ε (R c) × X} {allowed : X → (c : C) → O c → Prop}

/-- What holds without the record holds with it, and the record only grows. -/
theorem wp_recording {Q : Except ε α → X → Prop} {p : Program C R ε α} {x : X}
    {l : List (Event C X R ε)} (h : p.wp act allowed Q x) :
    p.wp (recording act) (fun y => allowed y.1) (fun r y => Q r y.1 ∧ l <+: y.2) (x, l) := by
  induction p generalizing x l with
  | ret a => exact ⟨h, List.prefix_rfl⟩
  | raise e => exact ⟨h, List.prefix_rfl⟩
  | call c k ih =>
    intro o ho
    refine post_mono (wp_monotone _ _) ?_ _ _ (ih _ (h o ho))
    intro r y hy
    exact ⟨hy.1, (List.prefix_append _ _).trans hy.2⟩

theorem run_recording {env : Nat → X → (c : C) → O c} (p : Program C R ε α) (n : Nat) (x : X)
    (l : List (Event C X R ε)) :
    p.run (recording act) (fun n y => env n y.1) n (x, l) =
      ((p.run act env n x).1, (p.run act env n x).2, l ++ p.events act env n x) := by
  induction p generalizing n x l with
  | ret a => simp only [run, events, List.append_nil]
  | raise e => simp only [run, events, List.append_nil]
  | call c k ih =>
    simp only [run, recording, events]
    rw [ih, List.append_assoc, List.singleton_append]

theorem events_of_wp {env : Nat → X → (c : C) → O c} (henv : ∀ n x c, allowed x c (env n x c))
    {Q : Except ε α → X × List (Event C X R ε) → Prop} (p : Program C R ε α) (x : X)
    (h : p.wp (recording act) (fun y => allowed y.1) Q (x, [])) :
    Q (p.run act env 0 x).1 ((p.run act env 0 x).2, p.events act env 0 x) := by
  have ran := run_of_wp (fun n y c => henv n y.1 c) p 0 (x, []) h
  rw [run_recording] at ran
  exact ran

end Program

variable {T S Q Φ : Type} {A : Q → Type} {δ ε α β : Type}

abbrev Event (T S Q Φ : Type) (A : Q → Type) (δ ε : Type) :=
  Program.Event (Cmd T S Q) (Session T Q Φ A δ) (Cmd.Reply δ A) ε

/-- The command was answered with an exception. -/
def Program.Event.fails {C X : Type} {R : C → Type} {ε : Type} (e : Event C X R ε) : Prop :=
  ∃ error, e.reply = .error error

namespace Event

variable {ρ : Type} {f : δ → ρ} {r : ρ} {d d' : δ} {l : List (Event T S Q Φ A δ ε)}
  {e : Event T S Q Φ A δ ε}

/-- A commit that shows other rows than before. -/
def publishes (f : δ → ρ) (e : Event T S Q Φ A δ ε) : Prop :=
  (∃ t, e.command = .commit t) ∧ ¬e.fails ∧ f e.before.conn.view ≠ f e.before.conn.committed

/-- No command fails after a commit that has changed these rows. -/
def Timely (f : δ → ρ) (l : List (Event T S Q Φ A δ ε)) : Prop :=
  l.Pairwise fun e e' => e.publishes f → ¬e'.fails

/-- A command that went through and was no commit. -/
structure Plain (e : Event T S Q Φ A δ ε) : Prop where
  done : ¬e.fails
  other : ∀ t, e.command ≠ .commit t

theorem Plain.silent (h : Plain e) : ¬e.publishes f := fun h' => h'.1.elim h.other

/-- No command has failed, and the rows are the first ones unless a commit has changed them. -/
structure Tracked (f : δ → ρ) (r : ρ) (d : δ) (l : List (Event T S Q Φ A δ ε)) : Prop where
  calm : ∀ e ∈ l, ¬e.fails
  rows : (∀ e ∈ l, ¬e.publishes f) ↔ f d = r

/-- One command has failed, and the rows are the first ones unless a commit before it has changed
them. -/
def Failed (f : δ → ρ) (r : ρ) (d : δ) (l : List (Event T S Q Φ A δ ε)) : Prop :=
  ∃ before e after, l = before ++ e :: after ∧ Tracked f r d before ∧ e.fails ∧
    ∀ e' ∈ after, ¬e'.fails

theorem tracked_nil : Tracked f (f d) d ([] : List (Event T S Q Φ A δ ε)) :=
  ⟨fun _ h => (nomatch h), fun _ => rfl, fun _ _ h => (nomatch h)⟩

theorem plain_ok {x : Session T Q Φ A δ} {c : Cmd T S Q} {a : c.Reply δ A} (other : ∀ t, c ≠ .commit t) :
    Plain (⟨x, c, .ok a⟩ : Event T S Q Φ A δ ε) := by
  refine ⟨?_, other⟩
  rintro ⟨_, failed⟩
  cases failed

theorem fails_error {x : Session T Q Φ A δ} {c : Cmd T S Q} {e : ε} :
    Program.Event.fails (⟨x, c, .error e⟩ : Event T S Q Φ A δ ε) := ⟨e, rfl⟩

namespace Tracked

theorem timely (h : Tracked f r d l) : Timely f l := by
  apply List.Pairwise.imp_of_mem (R := fun _ _ => True)
  · exact fun _ mem _ _ => h.calm _ mem
  · exact List.pairwise_of_forall fun _ _ => trivial

theorem plain (h : Tracked f r d l) (plain : Plain e) : Tracked f r d (l ++ [e]) := by
  refine ⟨?_, ?_⟩
  · intro e' mem
    rcases List.mem_append.mp mem with mem | mem
    · exact h.calm e' mem
    · exact List.mem_singleton.mp mem ▸ plain.done
  · rw [← h.rows]
    refine ⟨fun all e' mem => all e' (List.mem_append_left _ mem), fun all e' mem => ?_⟩
    rcases List.mem_append.mp mem with mem | mem
    · exact all e' mem
    · exact List.mem_singleton.mp mem ▸ plain.silent

/-- A commit, where rows that have changed do not change back. -/
theorem commit {x : Session T Q Φ A δ} {t : T} (h : Tracked f r x.conn.committed l)
    (onward : f x.conn.committed ≠ r → f x.conn.view ≠ r) :
    Tracked f r x.conn.view (l ++ [⟨x, .commit t, .ok ()⟩]) := by
  have done : ¬Program.Event.fails (⟨x, .commit t, .ok ()⟩ : Event T S Q Φ A δ ε) := by
    rintro ⟨_, failed⟩
    cases failed
  refine ⟨?_, ?_, ?_⟩
  · intro e' mem
    rcases List.mem_append.mp mem with mem | mem
    · exact h.calm e' mem
    · exact List.mem_singleton.mp mem ▸ done
  · intro all
    have before := h.rows.mp fun e' mem => all e' (List.mem_append_left _ mem)
    have last := all _ (List.mem_append_right _ (List.mem_singleton_self _))
    by_contra other
    exact last ⟨⟨t, rfl⟩, done, fun same => other (same.trans before)⟩
  · intro now e' mem publishes
    have before : f x.conn.committed = r := by
      by_contra other
      exact onward other now
    rcases List.mem_append.mp mem with mem | mem
    · exact h.rows.mpr before e' mem publishes
    · obtain rfl := List.mem_singleton.mp mem
      exact publishes.2.2 (now.trans before.symm)

theorem failed (h : Tracked f r d l) (fails : e.fails) : Failed f r d (l ++ [e]) :=
  ⟨l, e, [], rfl, h, fails, fun _ h => (nomatch h)⟩

end Tracked

theorem Failed.plain (h : Failed f r d l) (plain : Plain e) : Failed f r d (l ++ [e]) := by
  obtain ⟨before, e₀, after, rfl, tracked, fails, calm⟩ := h
  refine ⟨before, e₀, after ++ [e], by simp, tracked, fails, ?_⟩
  intro e' mem
  rcases List.mem_append.mp mem with mem | mem
  · exact calm e' mem
  · exact List.mem_singleton.mp mem ▸ plain.done

/-- Where a command has failed, the rows are the first ones if and only if it came in time. -/
theorem Failed.timely (h : Failed f r d l) : f d = r ↔ Timely f l := by
  obtain ⟨before, e₀, after, rfl, tracked, fails, calm⟩ := h
  rw [← tracked.rows, Timely, List.pairwise_append]
  refine ⟨fun silent => ⟨tracked.timely, ?_, fun e mem _ _ publishes => absurd publishes (silent e mem)⟩,
    fun all e mem publishes => all.2.2 e mem e₀ List.mem_cons_self publishes fails⟩
  rw [List.pairwise_cons]
  refine ⟨fun e mem _ => calm e mem, ?_⟩
  apply List.Pairwise.imp_of_mem (R := fun _ _ => True)
  · exact fun _ mem _ _ => calm _ mem
  · exact List.pairwise_of_forall fun _ _ => trivial

end Event

variable [Store S δ ε Φ]

/-- The events of a program that runs alone on the connection. -/
def events (env : Nat → Session T Q Φ A δ → (m : Cmd T S Q) → m.Outcome Φ A)
    (p : Program (Cmd T S Q) (Cmd.Reply δ A) ε α) (x : Session T Q Φ A δ) :
    List (Event T S Q Φ A δ ε) :=
  p.events Session.act env 0 x

/-- What holds after a program and of the record of its events. -/
def wpe (E : Scope T Q Φ A δ)
    (P : Except ε α → Session T Q Φ A δ → List (Event T S Q Φ A δ ε) → Prop)
    (p : Program (Cmd T S Q) (Cmd.Reply δ A) ε α) (x : Session T Q Φ A δ)
    (l : List (Event T S Q Φ A δ ε)) : Prop :=
  p.wp (O := Cmd.Outcome Φ A) (Program.recording Session.act) (fun y => E.allowed y.1)
    (fun r y => P r y.1 y.2) (x, l)

section Rules

variable {E : Scope T Q Φ A δ}
  {P : Except ε β → Session T Q Φ A δ → List (Event T S Q Φ A δ ε) → Prop}
  {x : Session T Q Φ A δ} {l : List (Event T S Q Φ A δ ε)}

theorem of_wpe {env : Nat → Session T Q Φ A δ → (m : Cmd T S Q) → m.Outcome Φ A}
    (henv : ∀ n x m, E.allowed x m (env n x m))
    {p : Program (Cmd T S Q) (Cmd.Reply δ A) ε β} (h : wpe E P p x []) :
    P (run env p x).1 (run env p x).2 (events env p x) :=
  Program.events_of_wp henv p x h

theorem wpe_ret (a : β) :
    wpe E P (.ret a : Program (Cmd T S Q) (Cmd.Reply δ A) ε β) x l = P (.ok a) x l := rfl

theorem wpe_raise (e : ε) :
    wpe E P (.raise e : Program (Cmd T S Q) (Cmd.Reply δ A) ε β) x l = P (.error e) x l := rfl

theorem wpe_call {c : Cmd T S Q} {k : Except ε (c.Reply δ A) → Program (Cmd T S Q) (Cmd.Reply δ A) ε β}
    (next : ∀ o : c.Outcome Φ A, E.allowed x c o →
      wpe E P (k (Session.act c o x).1) (Session.act c o x).2 (l ++ [⟨x, c, (Session.act c o x).1⟩])) :
    wpe E P (.call c k) x l := next

theorem wpe_bind (p : Program (Cmd T S Q) (Cmd.Reply δ A) ε α)
    (f : α → Program (Cmd T S Q) (Cmd.Reply δ A) ε β) :
    wpe E P (p.bind f) x l = wpe E (fun r y l' => match r with
      | .ok a => wpe E P (f a) y l'
      | .error e => P (.error e) y l') p x l :=
  Program.post_bind _ _ _ _

theorem wpe_handle (p : Program (Cmd T S Q) (Cmd.Reply δ A) ε β)
    (h : ε → Program (Cmd T S Q) (Cmd.Reply δ A) ε β) :
    wpe E P (p.handle h) x l = wpe E (fun r y l' => match r with
      | .ok a => P (.ok a) y l'
      | .error e => wpe E P (h e) y l') p x l :=
  Program.post_handle _ _ _ _

theorem wpe_mono {P' : Except ε β → Session T Q Φ A δ → List (Event T S Q Φ A δ ε) → Prop}
    {p : Program (Cmd T S Q) (Cmd.Reply δ A) ε β} (h : wpe E P' p x l)
    (weaken : ∀ r y l', P' r y l' → P r y l') : wpe E P p x l := by
  refine Program.post_mono (Program.wp_monotone _ _) ?_ p (x, l) h
  exact fun r y => weaken r y.1 y.2

/-- A program that is known without its record. -/
theorem wpe_of_wp {Q' : Except ε β → Session T Q Φ A δ → Prop}
    {p : Program (Cmd T S Q) (Cmd.Reply δ A) ε β} (h : wp E Q' p x)
    (weaken : ∀ r y l', Q' r y → l <+: l' → P r y l') : wpe E P p x l := by
  have recorded : wpe E (fun r y l' => Q' r y ∧ l <+: l') p x l := Program.wp_recording h
  exact wpe_mono recorded fun r y l' hy => weaken r y l' hy.1 hy.2

theorem wpe_draw_bind {q : Q} {f : A q → Program (Cmd T S Q) (Cmd.Reply δ A) ε β}
    (value : ∀ a, E.draws x q a → wpe E P (f a) x (l ++ [⟨x, .draw q, .ok a⟩])) :
    wpe E P ((draw q).bind f) x l := by
  intro a ha
  have next := value a ha
  change wpe E P (f a) ⟨x.conn, x.log ++ []⟩ _
  rw [List.append_nil]
  exact next

theorem wpe_read_bind {t : T} {f : δ → α} {g : α → Program (Cmd T S Q) (Cmd.Reply δ A) ε β}
    (sound : ∀ φ, ¬E.fails t φ)
    (rows : wpe E P (g (f x.conn.committed)) x (l ++ [⟨x, .read t, .ok x.conn.committed⟩])) :
    wpe E P ((readCommitted t f).bind g) x l := by
  intro o ho
  cases o with
  | none =>
    change wpe E P (g (f x.conn.committed)) ⟨x.conn, x.log ++ []⟩ _
    rw [List.append_nil]
    exact rows
  | some φ => exact absurd ho (sound φ)

end Rules

/-- A block that no step of leaves but by a command that fails. -/
def Body.Steady : Body S δ ε α → Prop
  | .ret _ => True
  | .raise _ => False
  | .select k => ∀ d, (k d).Steady
  | .execute _ k => ∀ n, (k n).Steady

section Tracking

open Event

variable {E : Scope T Q Φ A δ} {ρ : Type} {f : δ → ρ} {r : ρ} {x : Session T Q Φ A δ}
  {l : List (Event T S Q Φ A δ ε)}

variable {P : Except ε β → Session T Q Φ A δ → List (Event T S Q Φ A δ ε) → Prop}

theorem wpe_draw_tracked {q : Q} {k : A q → Program (Cmd T S Q) (Cmd.Reply δ A) ε β}
    (h : Tracked f r x.conn.committed l)
    (value : ∀ a l', E.draws x q a → Tracked f r x.conn.committed l' → wpe E P (k a) x l') :
    wpe E P ((draw q).bind k) x l := by
  apply wpe_draw_bind
  intro a ha
  exact value a _ ha (h.plain (plain_ok fun _ h => nomatch h))

theorem wpe_ask_tracked {q : Q}
    {P : Except ε (A q) → Session T Q Φ A δ → List (Event T S Q Φ A δ ε) → Prop}
    (h : Tracked f r x.conn.committed l)
    (answer : ∀ a l', Tracked f r x.conn.committed l' →
      P (.ok a) ⟨x.conn, x.log ++ [.answered q (.ok a)]⟩ l')
    (fault : ∀ e y l', Failed f r y.conn.committed l' → P (.error e) y l') :
    wpe E P (ask q) x l := by
  intro o _
  cases o with
  | ok a => exact answer a _ (h.plain (plain_ok fun _ h => nomatch h))
  | error φ => exact fault _ ⟨x.conn, _⟩ _ (h.failed fails_error)

theorem wpe_read_tracked {t : T} {g : δ → β} (h : Tracked f r x.conn.committed l)
    (rows : ∀ l', Tracked f r x.conn.committed l' → P (.ok (g x.conn.committed)) x l')
    (fault : ∀ e y l', Failed f r y.conn.committed l' → P (.error e) y l') :
    wpe E P (readCommitted t g) x l := by
  intro o _
  cases o with
  | none =>
    change P (.ok (g x.conn.committed)) ⟨x.conn, x.log ++ []⟩ _
    rw [List.append_nil]
    exact rows _ (h.plain (plain_ok fun _ h => nomatch h))
  | some φ => exact fault _ ⟨x.conn, _⟩ _ (h.failed fails_error)

theorem wpe_select_tracked {t : T} {g : δ → β} (h : Tracked f r x.conn.committed l)
    (rows : ∀ l', Tracked f r x.conn.committed l' → P (.ok (g x.conn.view)) x l')
    (fault : ∀ e y l', Failed f r y.conn.committed l' → P (.error e) y l') :
    wpe E P (selectWriter t g) x l := by
  intro o _
  cases o with
  | none =>
    change P (.ok (g x.conn.view)) ⟨x.conn, x.log ++ []⟩ _
    rw [List.append_nil]
    exact rows _ (h.plain (plain_ok fun _ h => nomatch h))
  | some φ => exact fault _ ⟨x.conn, _⟩ _ (h.failed fails_error)

/-- A block without its commit. -/
theorem wpe_lift_tracked {t : T} {b : Body S δ ε β} (steady : b.Steady)
    (h : Tracked f r x.conn.committed l)
    (done : ∀ a c l', b.eval x.conn.view = .ok (a, c.view) → c.committed = x.conn.committed →
      Tracked f r c.committed l' → P (.ok a) ⟨c, x.log⟩ l')
    (fault : ∀ e y l', Failed f r y.conn.committed l' → P (.error e) y l') :
    wpe E P (b.lift t) x l := by
  obtain ⟨c, log⟩ := x
  induction b generalizing c l with
  | ret a => exact done a c l rfl rfl h
  | raise e => exact absurd steady id
  | select k ih =>
    intro o _
    cases o with
    | some φ => exact fault _ ⟨c, _⟩ _ (h.failed fails_error)
    | none =>
      change wpe E P ((k c.view).lift t) ⟨c, log ++ []⟩ _
      rw [List.append_nil]
      exact ih c.view (steady _) c (h.plain (plain_ok fun _ h => by cases h)) done
  | execute s k ih =>
    intro o _
    cases o with
    | some φ => exact fault _ ⟨c.opening, _⟩ _ (h.failed fails_error)
    | none =>
      simp only [Program.recording, Session.act, Connection.act, Cmd.note]
      cases hs : Store.apply s c.view with
      | error e => exact fault e ⟨c.opening, _⟩ _ (h.failed fails_error)
      | ok a =>
        dsimp only
        rw [List.append_nil]
        have plain : Plain (⟨⟨c, log⟩, .execute t s, .ok a.2⟩ : Event T S Q Φ A δ ε) :=
          plain_ok fun _ h => by cases h
        apply ih a.2 (steady _) ⟨c.committed, some a.1⟩ (h.plain plain)
        intro b' c' l' h'
        exact done b' c' l' (by simpa [Body.eval, hs] using h')

/-- A block and its commit, where rows that have changed do not change back. -/
theorem wpe_autocommit_tracked {t : T} {b : Body S δ ε β} (steady : b.Steady)
    (h : Tracked f r x.conn.committed l)
    (onward : ∀ a d, b.eval x.conn.view = .ok (a, d) → f x.conn.committed ≠ r → f d ≠ r)
    (done : ∀ a d l', b.eval x.conn.view = .ok (a, d) → Tracked f r d l' →
      P (.ok a) ⟨.closed d, x.log ++ [.committed t]⟩ l')
    (fault : ∀ e y l', Failed f r y.conn.committed l' → P (.error e) y l') :
    wpe E P (autocommit t b) x l := by
  rw [autocommit, wpe_bind]
  apply wpe_lift_tracked steady h
  · intro a c l' eval same tracked o _
    cases o with
    | none =>
      apply done a c.view _ eval
      apply tracked.commit (x := ⟨c, x.log⟩)
      rw [same]
      exact onward a c.view eval
    | some φ => exact fault _ ⟨c, _⟩ _ (tracked.failed fails_error)
  · exact fault

theorem wpe_rollback_failed {P : Except ε Unit → Session T Q Φ A δ → List (Event T S Q Φ A δ ε) → Prop}
    (h : Failed f r x.conn.committed l)
    (done : ∀ l', Failed f r x.conn.committed l' → P (.ok ()) ⟨.closed x.conn.committed, x.log⟩ l') :
    wpe E P (Program.perform Cmd.rollback) x l := by
  intro o _
  change P (.ok ()) ⟨.closed x.conn.committed, x.log ++ []⟩ _
  rw [List.append_nil]
  exact done _ (h.plain (plain_ok fun _ h => nomatch h))

end Tracking

end McManager.Framework
