import McManager.Framework.Sequential

namespace McManager.Framework

variable {T S Q Φ : Type} {A : Q → Type} {δ ε α β : Type}

/-- No open transaction has changed the rows. -/
def Session.Rests (x : Session T Q Φ A δ) : Prop := x.conn.view = x.conn.committed

theorem rests_closed {d : δ} {log : List (Note T Q Φ A)} :
    Session.Rests ⟨.closed d, log⟩ := rfl

/-- The rows are carried on by `R`, none of them in an open transaction, and the record is still
there. -/
structure Session.Onto (R : δ → δ → Prop) (x y : Session T Q Φ A δ) : Prop where
  rests : y.Rests
  rows : R x.conn.committed y.conn.committed
  log : x.log ⊆ y.log

namespace Session.Onto

variable {R : δ → δ → Prop} {x y z : Session T Q Φ A δ}

theorem mono {R' : δ → δ → Prop} (h : Onto R x y)
    (weaken : R x.conn.committed y.conn.committed → R' x.conn.committed y.conn.committed) :
    Onto R' x y :=
  ⟨h.rests, weaken h.rows, h.log⟩

variable [IsPreorder δ R]

theorem refl (h : x.Rests) : Onto R x x := ⟨h, Std.Refl.refl _, fun _ hn => hn⟩

theorem trans (h : Onto R x y) (h' : Onto R y z) : Onto R x z where
  rests := h'.rests
  rows := IsTrans.trans _ _ _ h.rows h'.rows
  log := fun _ hn => h'.log (h.log hn)

theorem noted {note : Note T Q Φ A} (h : x.Rests) : Onto R x ⟨x.conn, x.log ++ [note]⟩ :=
  ⟨h, Std.Refl.refl _, fun _ hn => List.mem_append_left _ hn⟩

end Session.Onto

variable [Store S δ ε Φ] {E : Scope T Q Φ A δ}

section Rules

variable {Q' : Except ε β → Session T Q Φ A δ → Prop} {x : Session T Q Φ A δ}

theorem wp_select {t : T} {f : δ → β} (rows : Q' (.ok (f x.conn.view)) x)
    (fault : ∀ φ, E.fails t φ →
      Q' (.error (Store.external S φ)) ⟨x.conn, x.log ++ [.failed t]⟩) :
    wp E Q' (selectWriter t f : Program (Cmd T S Q) (Cmd.Reply δ A) ε β) x := by
  intro o ho
  cases o with
  | none =>
    change Q' (.ok (f x.conn.view)) ⟨x.conn, x.log ++ []⟩
    rwa [List.append_nil]
  | some φ => exact fault φ ho

/-- One statement, in the transaction that is open or in one that it opens. -/
theorem wp_write {t : T} {s : S} {Q' : Except ε Unit → Session T Q Φ A δ → Prop}
    (done : ∀ d n, Store.apply s x.conn.view = .ok (d, n) →
      Q' (.ok ()) ⟨⟨x.conn.committed, some d⟩, x.log⟩)
    (refused : ∀ e, Store.apply s x.conn.view = .error e → Q' (.error e) ⟨x.conn.opening, x.log⟩)
    (fault : ∀ φ, E.fails t φ →
      Q' (.error (Store.external S φ)) ⟨x.conn.opening, x.log ++ [.failed t]⟩) :
    wp E Q' ((Body.write s : Body S δ ε Unit).lift t : Program (Cmd T S Q) (Cmd.Reply δ A) ε Unit)
      x := by
  intro o ho
  cases o with
  | some φ => exact fault φ ho
  | none =>
    simp only [Session.act, Connection.act, Cmd.note, List.append_nil]
    cases hs : Store.apply s x.conn.view with
    | error e => exact refused e hs
    | ok r => exact done r.1 r.2 hs

/-- A block without its commit, on any connection: until it is committed, nothing is. -/
theorem wp_lift_left {t : T} {b : Body S δ ε β}
    (done : ∀ a c, b.eval x.conn.view = .ok (a, c.view) → c.committed = x.conn.committed →
      Q' (.ok a) ⟨c, x.log⟩)
    (left : ∀ e c l, c.committed = x.conn.committed → (∀ n ∈ l, n = .failed t) →
      Q' (.error e) ⟨c, x.log ++ l⟩) :
    wp E Q' (b.lift t : Program (Cmd T S Q) (Cmd.Reply δ A) ε β) x := by
  obtain ⟨c, log⟩ := x
  induction b generalizing c with
  | ret a => exact done a c rfl rfl
  | raise e =>
    have raised := left e c [] rfl (fun _ h => nomatch h)
    rwa [List.append_nil] at raised
  | select k ih =>
    intro o _
    cases o with
    | some φ => exact left _ c [.failed t] rfl (fun _ h => List.mem_singleton.mp h)
    | none =>
      change wp E Q' ((k c.view).lift t) ⟨c, log ++ []⟩
      rw [List.append_nil]
      exact ih c.view c done left
  | execute s k ih =>
    intro o _
    cases o with
    | some φ =>
      exact left _ c.opening [.failed t] (Connection.committed_opening c)
        (fun _ h => List.mem_singleton.mp h)
    | none =>
      simp only [Session.act, Connection.act, Cmd.note]
      cases hs : Store.apply s c.view with
      | error e =>
        exact left e c.opening [] (Connection.committed_opening c) (fun _ h => nomatch h)
      | ok r =>
        dsimp only
        rw [List.append_nil]
        apply ih r.2 ⟨c.committed, some r.1⟩
        · intro a c' h same
          exact done a c' (by simpa [Body.eval, hs] using h) same
        · exact left

/-- A block that is committed takes effect as a whole, on any connection. -/
theorem wp_autocommit_left {t : T} {b : Body S δ ε β}
    (done : ∀ a d, b.eval x.conn.view = .ok (a, d) → Q' (.ok a) ⟨.closed d, x.log ++ [.committed t]⟩)
    (left : ∀ e c l, c.committed = x.conn.committed → (∀ n ∈ l, n = .failed t) →
      Q' (.error e) ⟨c, x.log ++ l⟩) :
    wp E Q' (autocommit t b : Program (Cmd T S Q) (Cmd.Reply δ A) ε β) x := by
  rw [autocommit, wp_bind]
  apply wp_lift_left
  · intro a c h same o _
    cases o with
    | none => exact done a c.view h
    | some φ => exact left _ c [.failed t] same (fun _ h => List.mem_singleton.mp h)
  · exact left

/-- A block that no constraint refuses, without its commit, on any connection. -/
theorem wp_lift_total {t : T} {b : Body S δ ε β} (total : ∃ r, b.eval x.conn.view = .ok r)
    (done : ∀ a c, b.eval x.conn.view = .ok (a, c.view) → c.committed = x.conn.committed →
      Q' (.ok a) ⟨c, x.log⟩)
    (fault : ∀ φ c, E.fails t φ → c.committed = x.conn.committed →
      Q' (.error (Store.external S φ)) ⟨c, x.log ++ [.failed t]⟩) :
    wp E Q' (b.lift t : Program (Cmd T S Q) (Cmd.Reply δ A) ε β) x := by
  obtain ⟨c, log⟩ := x
  induction b generalizing c with
  | ret a => exact done a c rfl rfl
  | raise e =>
    obtain ⟨r, hr⟩ := total
    cases hr
  | select k ih =>
    intro o ho
    cases o with
    | some φ => exact fault φ c ho rfl
    | none =>
      change wp E Q' ((k c.view).lift t) ⟨c, log ++ []⟩
      rw [List.append_nil]
      exact ih c.view c total done fault
  | execute s k ih =>
    intro o ho
    cases o with
    | some φ => exact fault φ c.opening ho (Connection.committed_opening c)
    | none =>
      simp only [Session.act, Connection.act, Cmd.note]
      cases hs : Store.apply s c.view with
      | error e =>
        obtain ⟨r, hr⟩ := total
        simp [Body.eval, hs] at hr
      | ok r =>
        dsimp only
        rw [List.append_nil]
        apply ih r.2 ⟨c.committed, some r.1⟩
        · simpa [Body.eval, hs] using total
        · intro a c' h same
          exact done a c' (by simpa [Body.eval, hs] using h) same
        · exact fault

/-- A block that no constraint refuses takes effect as a whole when it is committed, or a command
of it fails. -/
theorem wp_autocommit_total {t : T} {b : Body S δ ε β} (total : ∃ r, b.eval x.conn.view = .ok r)
    (done : ∀ a d, b.eval x.conn.view = .ok (a, d) → Q' (.ok a) ⟨.closed d, x.log ++ [.committed t]⟩)
    (fault : ∀ φ c, E.fails t φ → c.committed = x.conn.committed →
      Q' (.error (Store.external S φ)) ⟨c, x.log ++ [.failed t]⟩) :
    wp E Q' (autocommit t b : Program (Cmd T S Q) (Cmd.Reply δ A) ε β) x := by
  rw [autocommit, wp_bind]
  apply wp_lift_total total
  · intro a c h same o ho
    cases o with
    | none => exact done a c.view h
    | some φ => exact fault φ c ho same
  · exact fault

/-- One statement that no constraint refuses, and its commit. -/
theorem wp_write_known {t : T} {s : S} {d : δ} {n : Nat}
    {Q' : Except ε Unit → Session T Q Φ A δ → Prop}
    (known : Store.apply s x.conn.view = .ok (d, n))
    (done : Q' (.ok ()) ⟨.closed d, x.log ++ [.committed t]⟩)
    (fault : ∀ φ c, E.fails t φ → c.committed = x.conn.committed →
      Q' (.error (Store.external S φ)) ⟨c, x.log ++ [.failed t]⟩) :
    wp E Q' (autocommit t (.write s) : Program (Cmd T S Q) (Cmd.Reply δ A) ε Unit) x := by
  apply wp_autocommit_total
  · exact Body.eval_write_total ⟨(d, n), known⟩
  · intro a d' h
    obtain ⟨n', h'⟩ := Body.eval_write_ok h
    rw [known] at h'
    cases h'
    exact done
  · exact fault

/-- One statement and its commit, on any connection. -/
theorem wp_write_commit {t : T} {s : S} {Q' : Except ε Unit → Session T Q Φ A δ → Prop}
    (sound : ∀ φ, ¬E.fails t φ)
    (done : ∀ d n, Store.apply s x.conn.view = .ok (d, n) →
      Q' (.ok ()) ⟨.closed d, x.log ++ [.committed t]⟩)
    (refused : ∀ e, Store.apply s x.conn.view = .error e → Q' (.error e) ⟨x.conn.opening, x.log⟩) :
    wp E Q' (autocommit t (.write s) : Program (Cmd T S Q) (Cmd.Reply δ A) ε Unit) x := by
  rw [autocommit, wp_bind]
  apply wp_write
  · intro d n h o ho
    cases o with
    | none => exact done d n h
    | some φ => exact absurd ho (sound φ)
  · exact refused
  · exact fun φ hφ => absurd hφ (sound φ)

/-- A block whose first statement alone may be refused takes effect as a whole, or leaves an open
transaction that has changed nothing. -/
theorem wp_autocommit_rests {t : T} {s : S} {k : Nat → Body S δ ε β} (rests : x.Rests)
    (sound : ∀ φ, ¬E.fails t φ)
    (total : ∀ d n, Store.apply s x.conn.committed = .ok (d, n) → ∃ r, (k n).eval d = .ok r)
    (done : ∀ a d, (Body.execute s k).eval x.conn.committed = .ok (a, d) →
      Q' (.ok a) ⟨.closed d, x.log ++ [.committed t]⟩)
    (refused : ∀ e, Store.apply s x.conn.committed = .error e →
      Q' (.error e) ⟨x.conn.opening, x.log⟩) :
    wp E Q' (autocommit t (.execute s k) : Program (Cmd T S Q) (Cmd.Reply δ A) ε β) x := by
  intro o ho
  cases o with
  | some φ => exact absurd ho (sound φ)
  | none =>
    have seen : x.conn.view = x.conn.committed := rests
    simp only [Session.act, Connection.act, Cmd.note, seen, List.append_nil]
    cases hs : Store.apply s x.conn.committed with
    | error e => exact refused e hs
    | ok r =>
      have first : ∀ a d, (k r.2).eval r.1 = .ok (a, d) →
          (Body.execute s k).eval x.conn.committed = .ok (a, d) := by
        intro a d h
        simp only [Body.eval, hs, h]
      change wp E Q' (((k r.2).lift t).bind _) _
      rw [wp_bind]
      apply wp_lift
      · intro a d h o ho
        cases o with
        | some φ => exact absurd ho (sound φ)
        | none => exact done a d (first a d h)
      · intro e w h
        obtain ⟨r', h'⟩ := total r.1 r.2 hs
        rw [h'] at h
        cases h
      · intro φ w hφ
        exact absurd hφ (sound φ)

end Rules

/-- Run alone on such a connection, the program carries the rows on by `R`. -/
def Carries (E : Scope T Q Φ A δ) (R : δ → δ → Prop)
    (p : Program (Cmd T S Q) (Cmd.Reply δ A) ε α) : Prop :=
  ∀ x : Session T Q Φ A δ, x.Rests → wp E (fun _ y => x.Onto R y) p x

namespace Carries

variable {R R' : δ → δ → Prop}

theorem mono {p : Program (Cmd T S Q) (Cmd.Reply δ A) ε α} (h : Carries E R p)
    (weaken : ∀ d d', R d d' → R' d d') : Carries E R' p := by
  intro x rests
  apply wp_mono (h x rests)
  exact fun _ y onto => onto.mono (weaken _ _)

variable [IsPreorder δ R]

theorem ret (a : α) : Carries E R (.ret a : Program (Cmd T S Q) (Cmd.Reply δ A) ε α) :=
  fun _ rests => .refl rests

theorem raise (e : ε) : Carries E R (.raise e : Program (Cmd T S Q) (Cmd.Reply δ A) ε α) :=
  fun _ rests => .refl rests

theorem bind {p : Program (Cmd T S Q) (Cmd.Reply δ A) ε α}
    {f : α → Program (Cmd T S Q) (Cmd.Reply δ A) ε β} (hp : Carries E R p)
    (hf : ∀ a, Carries E R (f a)) : Carries E R (p.bind f) := by
  intro x rests
  apply wp_seq (hp x rests)
  · intro a y onto
    apply wp_mono (hf a y onto.rests)
    exact fun _ z next => onto.trans next
  · exact fun _ _ onto => onto

theorem handle {p : Program (Cmd T S Q) (Cmd.Reply δ A) ε α}
    {h : ε → Program (Cmd T S Q) (Cmd.Reply δ A) ε α} (hp : Carries E R p)
    (hh : ∀ e, Carries E R (h e)) : Carries E R (p.handle h) := by
  intro x rests
  apply wp_guard (hp x rests)
  · exact fun _ _ onto => onto
  · intro e y onto
    apply wp_mono (hh e y onto.rests)
    exact fun _ z next => onto.trans next

theorem ask (q : Q) :
    Carries E R (ask q : Program (Cmd T S Q) (Cmd.Reply δ A) ε (A q)) :=
  fun _ rests => wp_ask (fun _ _ => .noted rests) fun _ _ => .noted rests

theorem draw (q : Q) :
    Carries E R (draw q : Program (Cmd T S Q) (Cmd.Reply δ A) ε (A q)) :=
  fun _ rests => wp_draw fun _ _ => .refl rests

theorem read (t : T) (f : δ → α) :
    Carries E R (readCommitted t f : Program (Cmd T S Q) (Cmd.Reply δ A) ε α) :=
  fun _ rests => wp_read (.refl rests) fun _ _ => .noted rests

theorem select (t : T) (f : δ → α) :
    Carries E R (selectWriter t f : Program (Cmd T S Q) (Cmd.Reply δ A) ε α) :=
  fun _ rests => wp_select (.refl rests) fun _ _ => .noted rests

theorem rollback :
    Carries E R (Program.perform Cmd.rollback : Program (Cmd T S Q) (Cmd.Reply δ A) ε Unit) := by
  intro x rests o _
  change x.Onto R ⟨.closed x.conn.committed, x.log ++ []⟩
  rw [List.append_nil]
  exact ⟨rfl, Std.Refl.refl _, fun _ hn => hn⟩

theorem autocommit {t : T} {s : S} {k : Nat → Body S δ ε α} (sound : ∀ φ, ¬E.fails t φ)
    (total : ∀ d d' n, Store.apply s d = .ok (d', n) → ∃ r, (k n).eval d' = .ok r)
    (done : ∀ d a d', (Body.execute s k).eval d = .ok (a, d') → R d d') :
    Carries E R (autocommit t (.execute s k) : Program (Cmd T S Q) (Cmd.Reply δ A) ε α) := by
  intro x rests
  apply wp_autocommit_rests rests sound fun d n => total _ d n
  · intro a d h
    exact ⟨rfl, done _ a d h, fun _ hn => List.mem_append_left _ hn⟩
  · intro e _
    exact ⟨rests, Std.Refl.refl _, fun _ hn => hn⟩

/-- One statement and its commit. -/
theorem write {t : T} {s : S} (sound : ∀ φ, ¬E.fails t φ)
    (done : ∀ d d' n, Store.apply s d = .ok (d', n) → R d d') :
    Carries E R (Framework.autocommit t (Body.write s) :
      Program (Cmd T S Q) (Cmd.Reply δ A) ε Unit) := by
  apply autocommit sound
  · exact fun _ d' _ _ => ⟨((), d'), rfl⟩
  · intro d a d' h
    obtain ⟨n, hn⟩ := Body.eval_write_ok h
    exact done d d' n hn

end Carries

end McManager.Framework
