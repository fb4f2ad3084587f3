import McManager.Framework.Observation

namespace McManager.Framework

variable {T S Q Φ : Type} {A : Q → Type} {δ ε α β : Type}

/-- How a program that returns with `K` or is left by an exception with `L` ends. -/
def Ends (K : α → Session T Q Φ A δ → Prop) (L : ε → Session T Q Φ A δ → Prop) :
    Except ε α → Session T Q Φ A δ → Prop
  | .ok a, x => K a x
  | .error e, x => L e x

variable [Store S δ ε Φ]

/-- From `P` the program returns with `K`, or an exception leaves it with `L`. -/
def Triple (E : Scope T Q Φ A δ) (P : Session T Q Φ A δ → Prop)
    (K : α → Session T Q Φ A δ → Prop) (L : ε → Session T Q Φ A δ → Prop)
    (p : Program (Cmd T S Q) (Cmd.Reply δ A) ε α) : Prop :=
  ∀ x, P x → wp E (Ends K L) p x

/-- What two analyses of a program find holds together. -/
theorem wp_and {E : Scope T Q Φ A δ} {P R : Except ε α → Session T Q Φ A δ → Prop}
    {p : Program (Cmd T S Q) (Cmd.Reply δ A) ε α} {x : Session T Q Φ A δ}
    (first : wp E P p x) (second : wp E R p x) : wp E (fun r y => P r y ∧ R r y) p x := by
  induction p generalizing x with
  | ret a => exact ⟨first, second⟩
  | raise e => exact ⟨first, second⟩
  | call m k ih =>
    intro o ho
    exact ih _ (first o ho) (second o ho)

namespace Triple

variable {E : Scope T Q Φ A δ} {P P' : Session T Q Φ A δ → Prop}
  {K K' : α → Session T Q Φ A δ → Prop} {M : β → Session T Q Φ A δ → Prop}
  {L L' : ε → Session T Q Φ A δ → Prop}

theorem ret {a : α} (h : ∀ x, P x → K a x) :
    Triple E P K L (.ret a : Program (Cmd T S Q) (Cmd.Reply δ A) ε α) := h

theorem raise {e : ε} (h : ∀ x, P x → L e x) :
    Triple E P K L (.raise e : Program (Cmd T S Q) (Cmd.Reply δ A) ε α) := h

theorem mono {p : Program (Cmd T S Q) (Cmd.Reply δ A) ε α} (h : Triple E P K L p)
    (before : ∀ x, P' x → P x) (after : ∀ a x, K a x → K' a x) (left : ∀ e x, L e x → L' e x) :
    Triple E P' K' L' p := by
  intro x hx
  refine wp_mono (h x (before x hx)) ?_
  intro r y hy
  cases r with
  | ok a => exact after a y hy
  | error e => exact left e y hy

theorem bind {p : Program (Cmd T S Q) (Cmd.Reply δ A) ε α}
    {f : α → Program (Cmd T S Q) (Cmd.Reply δ A) ε β} (hp : Triple E P K L p)
    (hf : ∀ a, Triple E (K a) M L (f a)) : Triple E P M L (p.bind f) := by
  intro x hx
  have first := hp x hx
  exact wp_seq first (fun a y hy => hf a y hy) (fun e y hy => hy)

theorem handle {p : Program (Cmd T S Q) (Cmd.Reply δ A) ε α}
    {h : ε → Program (Cmd T S Q) (Cmd.Reply δ A) ε α} (hp : Triple E P K L' p)
    (hh : ∀ e, Triple E (L' e) K L (h e)) : Triple E P K L (p.handle h) := by
  intro x hx
  have first := hp x hx
  exact wp_guard first (fun a y hy => hy) (fun e y hy => hh e y hy)

/-- A loop keeps what each of its rounds keeps. -/
theorem each {f : α → Program (Cmd T S Q) (Cmd.Reply δ A) ε Unit} (as : List α)
    (round : ∀ a ∈ as, Triple E P (fun _ => P) L (f a)) :
    Triple E P (fun _ => P) L (Program.each f as) := by
  induction as with
  | nil => exact ret fun x hx => hx
  | cons a as ih =>
    have rest := ih fun b hb => round b (List.mem_cons_of_mem a hb)
    exact bind (round a (List.mem_cons_self ..)) fun _ => rest

theorem ask {q : Q} {K : A q → Session T Q Φ A δ → Prop}
    (answer : ∀ x a, P x → K a ⟨x.conn, x.log ++ [.answered q (.ok a)]⟩)
    (fault : ∀ x φ, P x → L (Store.external S φ) ⟨x.conn, x.log ++ [.answered q (.error φ)]⟩) :
    Triple E P K L (ask q : Program (Cmd T S Q) (Cmd.Reply δ A) ε (A q)) := by
  intro x hx
  exact wp_ask (fun a _ => answer x a hx) (fun φ _ => fault x φ hx)

theorem draw {q : Q} {K : A q → Session T Q Φ A δ → Prop}
    (value : ∀ x a, P x → E.draws x q a → K a x) :
    Triple E P K L (draw q : Program (Cmd T S Q) (Cmd.Reply δ A) ε (A q)) := by
  intro x hx
  exact wp_draw fun a ha => value x a hx ha

theorem read {t : T} {f : δ → α} (rows : ∀ x, P x → K (f x.conn.committed) x)
    (fault : ∀ x φ, P x → E.fails t φ →
      L (Store.external S φ) ⟨x.conn, x.log ++ [.failed t]⟩) :
    Triple E P K L (readCommitted t f : Program (Cmd T S Q) (Cmd.Reply δ A) ε α) := by
  intro x hx
  exact wp_read (rows x hx) (fun φ hφ => fault x φ hx hφ)

/-- A program that only looks keeps whatever its observations do not touch. -/
theorem observes {reads : T → Prop} {asks : Q → Prop} {R : δ → Except ε α → Prop}
    {p : Program (Cmd T S Q) (Cmd.Reply δ A) ε α} (h : ∀ d, Observes d reads asks (R d) p)
    (quiet : ∀ x l, P x → (∀ n ∈ l, n.Observed reads asks) → P ⟨x.conn, x.log ++ l⟩)
    (left : ∀ e x, P x → L e x) : Triple E P (fun _ => P) L p := by
  intro x hx
  refine wp_observes (h x.conn.committed) ?_
  intro r l _ hl
  cases r with
  | ok a => exact quiet x l hx hl
  | error e => exact left e _ (quiet x l hx hl)

end Triple

section Closed

/-- No transaction is open, and `J` holds of the database. -/
def Closed (J : δ → Prop) (x : Session T Q Φ A δ) : Prop := ∃ d, x.conn = .closed d ∧ J d

variable {E : Scope T Q Φ A δ} {J : δ → Prop} {L : ε → Session T Q Φ A δ → Prop} {t : T}

omit [Store S δ ε Φ] in
theorem Closed.noted {x : Session T Q Φ A δ} (h : Closed J x) (log : List (Note T Q Φ A)) :
    Closed J ⟨x.conn, log⟩ := h

/-- A guarded block keeps a property its whole run keeps. -/
theorem closed_transaction {b : Body S δ ε α} {K : α → δ → Prop}
    (h : ∀ d a d', J d → b.eval d = .ok (a, d') → K a d')
    (left : ∀ e x, Closed J x → L e x) :
    Triple E (Closed J) (fun a => Closed (K a)) L
      (transaction t b : Program (Cmd T S Q) (Cmd.Reply δ A) ε α) := by
  rintro ⟨c, log⟩ ⟨d, hc, hd⟩
  obtain rfl : c = .closed d := hc
  refine wp_transaction ?_ ?_ ?_
  · intro a d' ha
    exact ⟨d', rfl, h d a d' hd ha⟩
  · intro e _
    exact left e _ ⟨d, rfl, hd⟩
  · intro φ _
    exact left _ _ ⟨d, rfl, hd⟩

theorem closed_transactionBare {b : Body S δ ε α} {K : α → δ → Prop}
    (h : ∀ d a d', J d → b.eval d = .ok (a, d') → K a d')
    (left : ∀ e x, Closed J x → L e x) :
    Triple E (Closed J) (fun a => Closed (K a)) L
      (transactionBare t b : Program (Cmd T S Q) (Cmd.Reply δ A) ε α) := by
  rintro ⟨c, log⟩ ⟨d, hc, hd⟩
  obtain rfl : c = .closed d := hc
  refine wp_transactionBare ?_ ?_ ?_
  · intro a d' ha
    exact ⟨d', rfl, h d a d' hd ha⟩
  · intro e _
    exact left e _ ⟨d, rfl, hd⟩
  · intro φ _
    exact left _ _ ⟨d, rfl, hd⟩

end Closed

section Both

/-- `J` holds of what is committed and of what an open transaction, if there is one, sees. -/
def Both (J : List (Note T Q Φ A) → δ → Prop) (x : Session T Q Φ A δ) : Prop :=
  J x.log x.conn.committed ∧ J x.log x.conn.view

variable {E : Scope T Q Φ A δ} {J : List (Note T Q Φ A) → δ → Prop} {t : T}

omit [Store S δ ε Φ] in
theorem Both.closed {log : List (Note T Q Φ A)} {d : δ} (h : J log d) :
    Both J (⟨.closed d, log⟩ : Session T Q Φ A δ) := ⟨h, h⟩

/-- A guarded block on a connection whose transaction may be open. -/
theorem both_transaction {b : Body S δ ε α} {K : α → List (Note T Q Φ A) → δ → Prop}
    (done : ∀ l d a d', J l d → b.eval d = .ok (a, d') → K a (l ++ [.committed t]) d')
    (fault : ∀ l d, J l d → J (l ++ [.failed t]) d) :
    Triple E (Both J) (fun a => Both (K a)) (fun _ => Both J)
      (transaction t b : Program (Cmd T S Q) (Cmd.Reply δ A) ε α) := by
  intro x hx
  obtain ⟨⟨d, w⟩, log⟩ := x
  have committed : J log d := hx.1
  cases w with
  | some w =>
    apply wp_transaction_open
    · exact Both.closed committed
    · intro φ _
      exact Both.closed (fault log d committed)
  | none =>
    apply wp_transaction
    · intro a d' h
      exact Both.closed (done log d a d' committed h)
    · intro e _
      exact Both.closed committed
    · intro φ _
      exact Both.closed (fault log d committed)

/-- A statement that commits by itself, whatever transaction is open before it. -/
theorem wp_autocommit_any {s : S} {c : Connection δ} {log : List (Note T Q Φ A)}
    {Q' : Except ε Unit → Session T Q Φ A δ → Prop}
    (done : ∀ d' n, Store.apply s c.view = .ok (d', n) →
      Q' (.ok ()) ⟨.closed d', log ++ [.committed t]⟩)
    (refused : ∀ e, Store.apply s c.view = .error e →
      Q' (.error e) ⟨⟨c.committed, some c.view⟩, log⟩)
    (fault : ∀ φ w, (w = c.view ∨ ∃ n, Store.apply s c.view = .ok (w, n)) → E.fails t φ →
      Q' (.error (Store.external S φ)) ⟨⟨c.committed, some w⟩, log ++ [.failed t]⟩) :
    wp E Q' (autocommit t (.write s) : Program (Cmd T S Q) (Cmd.Reply δ A) ε Unit)
      ⟨c, log⟩ := by
  intro o ho
  cases o with
  | some φ => exact fault φ c.view (.inl rfl) ho
  | none =>
    simp only [Session.act, Connection.act, Cmd.note, List.append_nil]
    cases hs : Store.apply s c.view with
    | error e => exact refused e hs
    | ok r =>
      intro o ho
      cases o with
      | some φ => exact fault φ r.1 (.inr ⟨r.2, hs⟩) ho
      | none => exact done r.1 r.2 hs

/-- A statement that commits by itself keeps what it keeps of the rows it finds. -/
theorem both_autocommit {s : S}
    (write : ∀ l d d' n, J l d → Store.apply s d = .ok (d', n) → J l d')
    (done : ∀ l d, J l d → J (l ++ [.committed t]) d)
    (fault : ∀ l d, J l d → J (l ++ [.failed t]) d) :
    Triple E (Both J) (fun _ => Both J) (fun _ => Both J)
      (autocommit t (.write s) : Program (Cmd T S Q) (Cmd.Reply δ A) ε Unit) := by
  intro x hx
  obtain ⟨c, log⟩ := x
  obtain ⟨committed, seen⟩ := hx
  apply wp_autocommit_any
  · intro d' n h
    exact Both.closed (done log d' (write log c.view d' n seen h))
  · intro e _
    exact ⟨committed, seen⟩
  · intro φ w hw _
    have inside : J log w := by
      obtain rfl | ⟨n, h⟩ := hw
      · exact seen
      · exact write log c.view w n seen h
    exact ⟨fault log c.committed committed, fault log w inside⟩

end Both

end McManager.Framework
