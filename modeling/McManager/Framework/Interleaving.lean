import McManager.Framework.Transaction

namespace McManager.Framework

variable {T S Q Φ : Type} {A : Q → Type} {δ ε α β : Type}

/-- A service call in progress: what it still has to do, and the statements it has run since
its last `BEGIN`, `commit` or `rollback`. -/
structure Call (T S Q : Type) (A : Q → Type) (δ ε : Type) where
  rest : Program (Cmd T S Q) (Cmd.Reply δ A) ε Unit
  block : List S

/-- Several calls on one connection. `owner` is the call that opened the open transaction and
`trail` its statements, each with the call that ran it. -/
structure System (T S Q : Type) (A : Q → Type) (δ ε : Type) where
  conn : Connection δ
  owner : Option Nat
  trail : List (Nat × S)
  calls : List (Call T S Q A δ ε)

/-- A call comes in, a call in progress runs its next command, or the process dies. -/
inductive Move (T S Q Φ : Type) (A : Q → Type) (δ ε : Type) where
  | invoke (p : Program (Cmd T S Q) (Cmd.Reply δ A) ε Unit)
  | act (i : Nat) (o : (m : Cmd T S Q) → m.Outcome Φ A)
  | crash

namespace System

def init (d : δ) : System T S Q A δ ε := ⟨.closed d, none, [], []⟩

end System

namespace Cmd

/-- The bookkeeping of one command of call `i` and its reply. -/
def ownerAfter (i : Nat) (owner : Option Nat) :
    (m : Cmd T S Q) → Except ε (m.Reply δ A) → Option Nat
  | .begin _, .ok _ => some i
  | .execute _ _, _ => owner.or (some i)
  | .commit _, .ok _ => none
  | .rollback, _ => none
  | _, _ => owner

def trailAfter (i : Nat) (trail : List (Nat × S)) :
    (m : Cmd T S Q) → Except ε (m.Reply δ A) → List (Nat × S)
  | .execute _ s, .ok _ => trail ++ [(i, s)]
  | .commit _, .ok _ => []
  | .rollback, _ => []
  | _, _ => trail

def blockAfter (block : List S) : (m : Cmd T S Q) → Except ε (m.Reply δ A) → List S
  | .begin _, .ok _ => []
  | .execute _ s, .ok _ => block ++ [s]
  | .commit _, .ok _ => []
  | .rollback, _ => []
  | _, _ => block

end Cmd

namespace System

section Step

variable [Store S δ ε Φ]

def step : Move T S Q Φ A δ ε → System T S Q A δ ε → System T S Q A δ ε
  | .invoke p, s => { s with calls := s.calls ++ [⟨p, []⟩] }
  | .crash, s => init s.conn.committed
  | .act i o, s =>
    match s.calls[i]? with
    | some ⟨.call m k, block⟩ =>
      let r := (s.conn.act m (o m)).1
      { conn := (s.conn.act m (o m)).2
        owner := m.ownerAfter i s.owner r
        trail := m.trailAfter i s.trail r
        calls := s.calls.set i ⟨k r, m.blockAfter block r⟩ }
    | _ => s

/-- The next command of call `i`. -/
def next (s : System T S Q A δ ε) (i : Nat) : Option (Cmd T S Q) :=
  match s.calls[i]? with
  | some ⟨.call m _, _⟩ => some m
  | _ => none

def block (s : System T S Q A δ ε) (i : Nat) : List S :=
  match s.calls[i]? with
  | some c => c.block
  | none => []

end Step

end System

/-- A statement of the writer connection, as opposed to a query of a reader. -/
def Cmd.onWriter : Cmd T S Q → Prop
  | .read _ => False
  | .ask _ => False
  | .draw _ => False
  | _ => True

/-- Call `i` uses the writer only while no other call has a transaction open on it. -/
def Isolated (s : System T S Q A δ ε) : Move T S Q Φ A δ ε → Prop
  | .act i _ => ∀ m, s.next i = some m → m.onWriter → s.owner = none ∨ s.owner = some i
  | _ => True

/-- A commit makes exactly the committing call's own block durable, and a rollback discards
exactly the block of the call that rolls back. -/
def Atomic (s : System T S Q A δ ε) : Move T S Q Φ A δ ε → Prop
  | .act i o =>
    (∀ t, s.next i = some (.commit t) → o (.commit t) = none →
      s.trail = (s.block i).map (i, ·)) ∧
    (s.next i = some .rollback → s.trail = (s.block i).map (i, ·))
  | _ => True

/-- What transactions may do to a database. `commits` relates the database before a
transaction, its statements and the database after it; `permits` restricts where a statement
is run. -/
structure Law (S δ : Type) where
  inv : δ → Prop
  commits : δ → List S → δ → Prop
  permits : S → δ → Prop
  commits_nil : ∀ d, inv d → commits d [] d
  commits_inv : ∀ d l w, inv d → commits d l w → inv w

/-- Where a call stands: no transaction of its own is open, or one that leads from `before`
to `now` by the statements `pending`. -/
inductive Mode (S δ : Type) where
  | closed
  | opened (before now : δ) (pending : List S)

namespace Law

variable [Store S δ ε Φ]

/-- What a command may answer a call, and what it asks of the call, under a law. -/
def rule (L : Law S δ) :
    (m : Cmd T S Q) → Mode S δ → (Except ε (m.Reply δ A) → Mode S δ → Prop) → Prop
  | .begin _, .closed, P =>
    (∀ φ, P (.error (Store.external S φ)) .closed) ∧ ∀ d, L.inv d → P (.ok ()) (.opened d d [])
  | .begin _, .opened d w l, P =>
    (∀ φ, P (.error (Store.external S φ)) (.opened d w l)) ∧
      P (.error (Store.nested S)) (.opened d w l)
  | .execute _ s, .closed, P =>
    ∀ d, L.inv d → (∀ φ, P (.error (Store.external S φ)) (.opened d d [])) ∧
      (L.permits s d → match Store.apply s d with
        | .ok (w', n) => P (.ok n) (.opened d w' [s])
        | .error e => P (.error e) (.opened d d []))
  | .execute _ s, .opened d w l, P =>
    (∀ φ, P (.error (Store.external S φ)) (.opened d w l)) ∧
      (L.permits s w → match Store.apply s w with
        | .ok (w', n) => P (.ok n) (.opened d w' (l ++ [s]))
        | .error e => P (.error e) (.opened d w l))
  | .select _, .closed, P =>
    (∀ φ, P (.error (Store.external S φ)) .closed) ∧ ∀ d, L.inv d → P (.ok d) .closed
  | .select _, .opened d w l, P =>
    (∀ φ, P (.error (Store.external S φ)) (.opened d w l)) ∧ P (.ok w) (.opened d w l)
  | .commit _, .closed, P =>
    (∀ φ, P (.error (Store.external S φ)) .closed) ∧ P (.ok ()) .closed
  | .commit _, .opened d w l, P =>
    (∀ φ, P (.error (Store.external S φ)) (.opened d w l)) ∧
      L.commits d l w ∧ P (.ok ()) .closed
  | .rollback, _, P => P (.ok ()) .closed
  | .read _, x, P =>
    (∀ φ, P (.error (Store.external S φ)) x) ∧ ∀ d, L.inv d → P (.ok d) x
  | .ask _, x, P => (∀ φ, P (.error (Store.external S φ)) x) ∧ ∀ a, P (.ok a) x
  | .draw _, x, P => ∀ a, P (.ok a) x

/-- A program keeps the law from `x` on. -/
def Keeps (L : Law S δ) (p : Program (Cmd T S Q) (Cmd.Reply δ A) ε α) (x : Mode S δ) : Prop :=
  p.post L.rule (fun _ _ => True) x

end Law

/-- A run of the system in which every move meets `ok`. -/
inductive System.Run [Store S δ ε Φ] (ok : System T S Q A δ ε → Move T S Q Φ A δ ε → Prop)
    (s₀ : System T S Q A δ ε) : System T S Q A δ ε → Prop
  | start : Run ok s₀ s₀
  | step {s : System T S Q A δ ε} (m : Move T S Q Φ A δ ε) :
    Run ok s₀ s → ok s m → Run ok s₀ (s.step m)


/-- A statement is run only where the law permits it. -/
def Cmd.Permitted (L : Law S δ) (c : Connection δ) : (m : Cmd T S Q) → m.Outcome Φ A → Prop
  | .execute _ s, none => L.permits s c.view
  | _, _ => True

def Law.Permitted (L : Law S δ) (s : System T S Q A δ ε) : Move T S Q Φ A δ ε → Prop
  | .act i o => ∀ m, s.next i = some m → m.Permitted L s.conn (o m)
  | _ => True

/-- A commit that goes through. -/
def Cmd.Commits : (m : Cmd T S Q) → m.Outcome Φ A → Prop
  | .commit _, none => True
  | _, _ => False

/-- The connection is where mode and block say the call stands. -/
def Mode.Stands (c : Connection δ) (block : List S) : Mode S δ → Prop
  | .closed => c.working = none ∧ block = []
  | .opened d w l => c = ⟨d, some w⟩ ∧ block = l

section Soundness

variable [Store S δ ε Φ] {L : Law S δ}

private theorem stands_act_closed {d : δ} {m : Cmd T S Q} {o : m.Outcome Φ A}
    {P : Except ε (m.Reply δ A) → Mode S δ → Prop} (hinv : L.inv d)
    (hrule : L.rule m .closed P) (permitted : m.Permitted L (.closed d) o) :
    ((Connection.closed d).act m o).2.committed = d ∧
      ∃ y : Mode S δ, y.Stands ((Connection.closed d).act m o).2
        (m.blockAfter [] ((Connection.closed d).act m o).1) ∧
        P ((Connection.closed d).act m o).1 y := by
  cases m with
  | begin t =>
    cases o with
    | some φ => exact ⟨rfl, .closed, ⟨rfl, rfl⟩, hrule.1 φ⟩
    | none => exact ⟨rfl, .opened d d [], ⟨rfl, rfl⟩, hrule.2 d hinv⟩
  | execute t s =>
    cases o with
    | some φ => exact ⟨rfl, .opened d d [], ⟨rfl, rfl⟩, (hrule d hinv).1 φ⟩
    | none =>
      have h := (hrule d hinv).2 permitted
      simp only [Connection.act, Connection.view_closed]
      cases hs : Store.apply s d with
      | ok r => exact ⟨rfl, .opened d r.1 [s], ⟨rfl, rfl⟩, by simpa [hs] using h⟩
      | error e => exact ⟨rfl, .opened d d [], ⟨rfl, rfl⟩, by simpa [hs] using h⟩
  | select t =>
    cases o with
    | some φ => exact ⟨rfl, .closed, ⟨rfl, rfl⟩, hrule.1 φ⟩
    | none => exact ⟨rfl, .closed, ⟨rfl, rfl⟩, hrule.2 d hinv⟩
  | commit t =>
    cases o with
    | some φ => exact ⟨rfl, .closed, ⟨rfl, rfl⟩, hrule.1 φ⟩
    | none => exact ⟨rfl, .closed, ⟨rfl, rfl⟩, hrule.2⟩
  | rollback => exact ⟨rfl, .closed, ⟨rfl, rfl⟩, hrule⟩
  | read t =>
    cases o with
    | some φ => exact ⟨rfl, .closed, ⟨rfl, rfl⟩, hrule.1 φ⟩
    | none => exact ⟨rfl, .closed, ⟨rfl, rfl⟩, hrule.2 d hinv⟩
  | ask q =>
    cases o with
    | error φ => exact ⟨rfl, .closed, ⟨rfl, rfl⟩, hrule.1 φ⟩
    | ok a => exact ⟨rfl, .closed, ⟨rfl, rfl⟩, hrule.2 a⟩
  | draw q => exact ⟨rfl, .closed, ⟨rfl, rfl⟩, hrule o⟩

private theorem stands_act_opened {d w : δ} {l : List S} {m : Cmd T S Q} {o : m.Outcome Φ A}
    {P : Except ε (m.Reply δ A) → Mode S δ → Prop} (hinv : L.inv d)
    (hrule : L.rule m (.opened d w l) P) (permitted : m.Permitted L ⟨d, some w⟩ o) :
    (m.Commits o → L.commits d l ((⟨d, some w⟩ : Connection δ).act m o).2.committed) ∧
      (¬m.Commits o → ((⟨d, some w⟩ : Connection δ).act m o).2.committed = d) ∧
      ∃ y : Mode S δ, y.Stands ((⟨d, some w⟩ : Connection δ).act m o).2
        (m.blockAfter l ((⟨d, some w⟩ : Connection δ).act m o).1) ∧
        P ((⟨d, some w⟩ : Connection δ).act m o).1 y := by
  cases m with
  | begin t =>
    cases o with
    | some φ => exact ⟨fun h => h.elim, fun _ => rfl, .opened d w l, ⟨rfl, rfl⟩, hrule.1 φ⟩
    | none => exact ⟨fun h => h.elim, fun _ => rfl, .opened d w l, ⟨rfl, rfl⟩, hrule.2⟩
  | execute t s =>
    cases o with
    | some φ => exact ⟨fun h => h.elim, fun _ => rfl, .opened d w l, ⟨rfl, rfl⟩, hrule.1 φ⟩
    | none =>
      have h := hrule.2 permitted
      simp only [Connection.act, Connection.view_open]
      cases hs : Store.apply s w with
      | ok r =>
        exact ⟨fun h => h.elim, fun _ => rfl, .opened d r.1 (l ++ [s]), ⟨rfl, rfl⟩,
          by simpa [hs] using h⟩
      | error e =>
        exact ⟨fun h => h.elim, fun _ => rfl, .opened d w l, ⟨rfl, rfl⟩, by simpa [hs] using h⟩
  | select t =>
    cases o with
    | some φ => exact ⟨fun h => h.elim, fun _ => rfl, .opened d w l, ⟨rfl, rfl⟩, hrule.1 φ⟩
    | none => exact ⟨fun h => h.elim, fun _ => rfl, .opened d w l, ⟨rfl, rfl⟩, hrule.2⟩
  | commit t =>
    cases o with
    | some φ => exact ⟨fun h => h.elim, fun _ => rfl, .opened d w l, ⟨rfl, rfl⟩, hrule.1 φ⟩
    | none =>
      exact ⟨fun _ => hrule.2.1, fun h => (h trivial).elim, .closed, ⟨rfl, rfl⟩, hrule.2.2⟩
  | rollback => exact ⟨fun h => h.elim, fun _ => rfl, .closed, ⟨rfl, rfl⟩, hrule⟩
  | read t =>
    cases o with
    | some φ => exact ⟨fun h => h.elim, fun _ => rfl, .opened d w l, ⟨rfl, rfl⟩, hrule.1 φ⟩
    | none => exact ⟨fun h => h.elim, fun _ => rfl, .opened d w l, ⟨rfl, rfl⟩, hrule.2 d hinv⟩
  | ask q =>
    cases o with
    | error φ => exact ⟨fun h => h.elim, fun _ => rfl, .opened d w l, ⟨rfl, rfl⟩, hrule.1 φ⟩
    | ok a => exact ⟨fun h => h.elim, fun _ => rfl, .opened d w l, ⟨rfl, rfl⟩, hrule.2 a⟩
  | draw q => exact ⟨fun h => h.elim, fun _ => rfl, .opened d w l, ⟨rfl, rfl⟩, hrule o⟩

/-- One command of a call that may use the writer: the law's rule covers its reply, and only a
commit changes what is committed, as the law allows for the block of the call. -/
theorem Mode.Stands.act {c : Connection δ} {block : List S} {x : Mode S δ} {m : Cmd T S Q}
    {o : m.Outcome Φ A} {P : Except ε (m.Reply δ A) → Mode S δ → Prop}
    (stands : x.Stands c block) (hinv : L.inv c.committed) (hrule : L.rule m x P)
    (permitted : m.Permitted L c o) :
    (m.Commits o → L.commits c.committed block (c.act m o).2.committed) ∧
      (¬m.Commits o → (c.act m o).2.committed = c.committed) ∧
      ∃ y : Mode S δ, y.Stands (c.act m o).2 (m.blockAfter block (c.act m o).1) ∧
        P (c.act m o).1 y := by
  cases x with
  | closed =>
    obtain ⟨d, w⟩ := c
    obtain ⟨rfl, rfl⟩ := stands
    obtain ⟨same, y, hy, hP⟩ := stands_act_closed hinv hrule permitted
    have kept : ((⟨d, none⟩ : Connection δ).act m o).2.committed = d := same
    refine ⟨fun _ => ?_, fun _ => kept, y, hy, hP⟩
    rw [kept]
    exact L.commits_nil d hinv
  | opened d w l =>
    obtain ⟨rfl, rfl⟩ := stands
    exact stands_act_opened hinv hrule permitted

/-- A query of a reader and a question leave connection and bookkeeping alone. -/
theorem Law.rule_offWriter {c : Connection δ} {x : Mode S δ} {m : Cmd T S Q}
    {o : m.Outcome Φ A} {P : Except ε (m.Reply δ A) → Mode S δ → Prop} (off : ¬m.onWriter)
    (hinv : L.inv c.committed) (hrule : L.rule m x P) :
    (c.act m o).2 = c ∧ P (c.act m o).1 x := by
  cases m with
  | read t =>
    cases o with
    | some φ => exact ⟨rfl, by cases x <;> exact hrule.1 φ⟩
    | none => exact ⟨rfl, by cases x <;> exact hrule.2 _ hinv⟩
  | ask q =>
    cases o with
    | error φ => exact ⟨rfl, by cases x <;> exact hrule.1 φ⟩
    | ok a => exact ⟨rfl, by cases x <;> exact hrule.2 a⟩
  | draw q => exact ⟨rfl, by cases x <;> exact hrule o⟩
  | begin t => exact absurd trivial off
  | execute t s => exact absurd trivial off
  | select t => exact absurd trivial off
  | commit t => exact absurd trivial off
  | rollback => exact absurd trivial off

namespace System

variable {L : Nat → Law S δ}

/-- The invariant of a lawful, isolated run: the open transaction is one call's own, and call `i`
keeps the law `L i` from where it stands. -/
structure Good (L : Nat → Law S δ) (s : System T S Q A δ ε) : Prop where
  inv : ∀ i, (L i).inv s.conn.committed
  idle : s.owner = none → s.conn.working = none ∧ s.trail = []
  busy : ∀ i, s.owner = some i →
    i < s.calls.length ∧ s.conn.working ≠ none ∧ s.trail = (s.block i).map (i, ·)
  standing : ∀ i c, s.calls[i]? = some c → ∃ x : Mode S δ, (L i).Keeps c.rest x ∧
    if s.owner = some i then x.Stands s.conn c.block else x = .closed ∧ c.block = []

theorem Good.init {d : δ} (h : ∀ i, (L i).inv d) : Good L (init d : System T S Q A δ ε) where
  inv := h
  idle := fun _ => ⟨rfl, rfl⟩
  busy := fun i hi => by simp [System.init] at hi
  standing := fun i c hc => by simp [System.init] at hc

/-- The laws matter only for the calls there are. -/
theorem Good.congr {L' : Nat → Law S δ} {s : System T S Q A δ ε} (good : Good L s)
    (inv : ∀ i, (L' i).inv s.conn.committed) (same : ∀ i < s.calls.length, L' i = L i) :
    Good L' s where
  inv := inv
  idle := good.idle
  busy := good.busy
  standing := by
    intro i c hc
    rw [same i (List.getElem?_eq_some_iff.mp hc).1]
    exact good.standing i c hc

theorem Good.invoke {s : System T S Q A δ ε} (good : Good L s)
    {p : Program (Cmd T S Q) (Cmd.Reply δ A) ε Unit} (hp : (L s.calls.length).Keeps p .closed) :
    Good L (s.step (.invoke p : Move T S Q Φ A δ ε)) where
  inv := good.inv
  idle := good.idle
  busy := by
    intro i hi
    obtain ⟨hlt, hw, ht⟩ := good.busy i hi
    refine ⟨by simp only [step, List.length_append]; omega, hw, ?_⟩
    simpa [block, step, List.getElem?_append_left hlt] using ht
  standing := by
    intro i c hc
    simp only [step] at hc ⊢
    by_cases hi : i < s.calls.length
    · rw [List.getElem?_append_left hi] at hc
      exact good.standing i c hc
    · have howner : s.owner ≠ some i := fun h => hi (good.busy i h).1
      rw [List.getElem?_append_right (Nat.le_of_not_lt hi)] at hc
      obtain ⟨past, rfl⟩ : i - s.calls.length = 0 ∧ ⟨p, []⟩ = c := by
        simpa [List.getElem?_singleton] using hc
      obtain rfl : i = s.calls.length := by omega
      exact ⟨.closed, hp, by simp [howner]⟩

/-- The open transaction, if there is one, is call `i`'s. -/
private def Owns (i : Nat) (owner : Option Nat) (c : Connection δ) : Prop :=
  owner = none ∧ c.working = none ∨ owner = some i ∧ c.working ≠ none

/-- Where a call stands when it may use the writer. -/
private theorem Good.stands {s : System T S Q A δ ε} (good : Good L s) {i : Nat}
    {c : Call T S Q A δ ε} (hc : s.calls[i]? = some c)
    (free : s.owner = none ∨ s.owner = some i) :
    Owns i s.owner s.conn ∧ s.trail = c.block.map (i, ·) ∧
      ∃ x : Mode S δ, x.Stands s.conn c.block ∧ (L i).Keeps c.rest x := by
  obtain ⟨x, hx, hs⟩ := good.standing i c hc
  rcases free with h | h
  · obtain ⟨rfl, hb⟩ : x = .closed ∧ c.block = [] := by simpa [h] using hs
    obtain ⟨hw, ht⟩ := good.idle h
    exact ⟨.inl ⟨h, hw⟩, by simp [ht, hb], .closed, ⟨hw, hb⟩, hx⟩
  · rw [if_pos h] at hs
    obtain ⟨-, hw, ht⟩ := good.busy i h
    exact ⟨.inr ⟨h, hw⟩, by simpa [block, hc] using ht, x, hs, hx⟩

private theorem ownerAfter_act {c : Connection δ} {i : Nat} {owner : Option Nat}
    {m : Cmd T S Q} {o : m.Outcome Φ A} (on : m.onWriter) (owns : Owns i owner c) :
    Owns i (m.ownerAfter i owner (c.act m o : Except ε (m.Reply δ A) × Connection δ).1)
      (c.act m o : Except ε (m.Reply δ A) × Connection δ).2 := by
  have opened : ∀ w : δ, Owns i (owner.or (some i)) ⟨c.committed, some w⟩ := by
    intro w
    rcases owns with ⟨h, -⟩ | ⟨h, -⟩ <;> exact .inr ⟨by simp [h], by simp⟩
  cases m with
  | begin t =>
    cases o with
    | some φ => exact owns
    | none =>
      rcases owns with ⟨h, hw⟩ | ⟨h, hw⟩
      · exact .inr ⟨by simp [Connection.act, hw, Cmd.ownerAfter],
          by simp [Connection.act, hw, Connection.opening]⟩
      · obtain ⟨w, hw⟩ := Option.ne_none_iff_exists'.mp hw
        exact .inr ⟨by simp [Connection.act, hw, Cmd.ownerAfter, h],
          by simp [Connection.act, hw]⟩
  | execute t s =>
    cases o with
    | some φ => exact opened c.view
    | none =>
      simp only [Connection.act, Cmd.ownerAfter]
      cases hs : Store.apply s c.view with
      | ok r => exact opened r.1
      | error e => exact opened c.view
  | select t => cases o <;> exact owns
  | commit t =>
    cases o with
    | some φ => exact owns
    | none => exact .inl ⟨rfl, rfl⟩
  | rollback => exact .inl ⟨rfl, rfl⟩
  | read t => exact absurd on id
  | ask q => exact absurd on id
  | draw q => exact absurd on id

private theorem trailAfter_act {c : Connection δ} {i : Nat} {block : List S}
    {trail : List (Nat × S)} {x : Mode S δ} {m : Cmd T S Q} {o : m.Outcome Φ A}
    (stands : x.Stands c block) (h : trail = block.map (i, ·)) :
    m.trailAfter i trail (c.act m o : Except ε (m.Reply δ A) × Connection δ).1 =
      (m.blockAfter block (c.act m o : Except ε (m.Reply δ A) × Connection δ).1).map (i, ·) := by
  subst h
  cases m with
  | begin t =>
    cases o with
    | some φ => rfl
    | none =>
      cases x with
      | closed =>
        obtain ⟨hw, rfl⟩ := stands
        simp [Connection.act, hw, Cmd.trailAfter, Cmd.blockAfter]
      | opened d w l =>
        obtain ⟨rfl, rfl⟩ := stands
        rfl
  | execute t s =>
    cases o with
    | some φ => rfl
    | none =>
      simp only [Connection.act]
      cases Store.apply s c.view <;> simp [Cmd.trailAfter, Cmd.blockAfter]
  | select t => cases o <;> rfl
  | commit t => cases o <;> rfl
  | rollback => rfl
  | read t => cases o <;> rfl
  | ask q => cases o <;> rfl
  | draw q => rfl

private theorem bookkeeping_offWriter {m : Cmd T S Q} (off : ¬m.onWriter) (i : Nat)
    (owner : Option Nat) (trail : List (Nat × S)) (block : List S)
    (r : Except ε (m.Reply δ A)) :
    m.ownerAfter i owner r = owner ∧ m.trailAfter i trail r = trail ∧
      m.blockAfter block r = block := by
  cases m with
  | read t => exact ⟨rfl, rfl, rfl⟩
  | ask q => exact ⟨rfl, rfl, rfl⟩
  | draw q => exact ⟨rfl, rfl, rfl⟩
  | begin t => exact absurd trivial off
  | execute t s => exact absurd trivial off
  | select t => exact absurd trivial off
  | commit t => exact absurd trivial off
  | rollback => exact absurd trivial off

/-- The state after a command of call `i`, which had the writer to itself. -/
private theorem Good.update {s : System T S Q A δ ε} (good : Good L s) {i : Nat}
    (hi : i < s.calls.length) (free : s.owner = none ∨ s.owner = some i)
    {conn : Connection δ} {owner : Option Nat} {c : Call T S Q A δ ε} {y : Mode S δ}
    (hinv : ∀ j, (L j).inv conn.committed) (owns : Owns i owner conn)
    (stands : y.Stands conn c.block) (keeps : (L i).Keeps c.rest y) :
    Good L (⟨conn, owner, c.block.map (i, ·), s.calls.set i c⟩ : System T S Q A δ ε) where
  inv := hinv
  idle := by
    intro h
    obtain ⟨-, hw⟩ : owner = none ∧ conn.working = none := by
      rcases owns with h' | h'
      · exact h'
      · exact absurd (h.symm.trans h'.1) (by simp)
    cases y with
    | closed => exact ⟨hw, by simp [stands.2]⟩
    | opened d w l => exact absurd hw (by simp [stands.1])
  busy := by
    intro j h
    obtain ⟨rfl, hw⟩ : j = i ∧ conn.working ≠ none := by
      rcases owns with h' | h'
      · exact absurd (h.symm.trans h'.1) (by simp)
      · exact ⟨by simpa using h.symm.trans h'.1, h'.2⟩
    exact ⟨by simpa using hi, hw, by simp [block, hi]⟩
  standing := by
    intro j c' hc'
    by_cases hij : i = j
    · subst j
      obtain rfl : c = c' := by simpa [hi] using hc'
      refine ⟨y, keeps, ?_⟩
      split
      · exact stands
      · rename_i hne
        obtain ⟨-, hw⟩ := owns.resolve_right fun h => hne h.1
        cases y with
        | closed => exact ⟨rfl, stands.2⟩
        | opened d w l => exact absurd hw (by simp [stands.1])
    · have hold : s.calls[j]? = some c' := by simpa [hij] using hc'
      obtain ⟨x, hx, hs⟩ := good.standing j c' hold
      have hj : s.owner ≠ some j := by
        rcases free with h | h <;> simp [h, hij]
      have hj' : owner ≠ some j := by
        rcases owns with h | h <;> simp [h.1, hij]
      rw [if_neg hj] at hs
      exact ⟨x, hx, by rw [if_neg hj']; exact hs⟩

/-- The next command of call `i` is a commit that goes through. -/
def Commits (s : System T S Q A δ ε) (i : Nat) (o : (m : Cmd T S Q) → m.Outcome Φ A) : Prop :=
  ∃ m, s.next i = some m ∧ m.Commits (o m)

theorem Good.act {s : System T S Q A δ ε} (good : Good L s)
    (shared : ∀ i j d, (L i).inv d → (L j).inv d) {i : Nat}
    {o : (m : Cmd T S Q) → m.Outcome Φ A} (isolated : Isolated s (.act i o))
    (permitted : (L i).Permitted s (.act i o)) :
    Good L (s.step (.act i o)) ∧
      (s.Commits i o →
        (L i).commits s.conn.committed (s.block i) (s.step (.act i o)).conn.committed) ∧
      (¬s.Commits i o → (s.step (.act i o)).conn.committed = s.conn.committed) := by
  have idle : s.next i = none → ¬s.Commits i o := by
    rintro none' ⟨m, hm, -⟩
    rw [none'] at hm
    cases hm
  cases hc : s.calls[i]? with
  | none =>
    have none' : s.next i = none := by simp [next, hc]
    simpa [step, hc] using ⟨good, fun h => absurd h (idle none')⟩
  | some c =>
    obtain ⟨p, b⟩ := c
    obtain ⟨hi, hget⟩ := List.getElem?_eq_some_iff.mp hc
    cases p with
    | ret a =>
      have none' : s.next i = none := by simp [next, hc]
      simpa [step, hc] using ⟨good, fun h => absurd h (idle none')⟩
    | raise e =>
      have none' : s.next i = none := by simp [next, hc]
      simpa [step, hc] using ⟨good, fun h => absurd h (idle none')⟩
    | call m k =>
      have hnext : s.next i = some m := by simp [next, hc]
      have commits : s.Commits i o ↔ m.Commits (o m) := by simp [Commits, hnext]
      have own : s.block i = b := by simp [block, hc]
      rw [commits, own]
      simp only [step, hc]
      by_cases on : m.onWriter
      · have free := isolated m hnext on
        obtain ⟨owns, ht, x, hx, keeps⟩ := good.stands hc free
        obtain ⟨made, kept, y, hy, keeps'⟩ := hx.act (good.inv i) keeps (permitted m hnext)
        have inv : ∀ j, (L j).inv (s.conn.act m (o m)).2.committed := by
          intro j
          apply shared i j
          by_cases done : m.Commits (o m)
          · exact (L i).commits_inv _ b _ (good.inv i) (made done)
          · rw [kept done]
            exact good.inv i
        rw [trailAfter_act hx ht]
        exact ⟨good.update (c := ⟨_, _⟩) hi free inv (ownerAfter_act on owns) hy keeps', made, kept⟩
      · obtain ⟨x, keeps, hs⟩ := good.standing i _ hc
        obtain ⟨hconn, keeps'⟩ := Law.rule_offWriter (o := o m) on (good.inv i) keeps
        obtain ⟨ho, ht, hb⟩ := bookkeeping_offWriter on i s.owner s.trail b
          (s.conn.act m (o m)).1
        have never : ¬m.Commits (o m) := by
          cases m <;> first | exact id | exact absurd trivial on
        rw [hconn, ho, ht, hb]
        refine ⟨⟨good.inv, good.idle, ?_, ?_⟩, fun h => absurd h never, fun _ => rfl⟩
        · intro j hj
          obtain ⟨hlt, hw, htrail⟩ := good.busy j hj
          refine ⟨by simpa using hlt, hw, htrail.trans ?_⟩
          by_cases hij : i = j
          · subst j
            simp [block, hi, hget]
          · simp [block, hij]
        · intro j c' hc'
          by_cases hij : i = j
          · subst j
            obtain rfl : ⟨k (s.conn.act m (o m)).1, b⟩ = c' := by simpa [hi] using hc'
            exact ⟨x, keeps', hs⟩
          · exact good.standing j c' (by simpa [hij] using hc')

theorem Good.atomic {s : System T S Q A δ ε} (good : Good L s) {m : Move T S Q Φ A δ ε}
    (isolated : Isolated s m) : Atomic s m := by
  cases m with
  | invoke p => trivial
  | crash => trivial
  | act i o =>
    have own : ∀ m, s.next i = some m → m.onWriter → s.trail = (s.block i).map (i, ·) := by
      intro m hm on
      cases hc : s.calls[i]? with
      | none => simp [next, hc] at hm
      | some c =>
        obtain ⟨-, ht, -⟩ := good.stands hc (isolated m hm on)
        simpa [block, hc] using ht
    exact ⟨fun t ht _ => own _ ht trivial, fun hr => own _ hr trivial⟩

/-- What every move of a run under one law meets: the calls that come in keep the law, the writer
is used by one call at a time, and statements are run where the law permits them. -/
def Lawful (L : Law S δ) (s : System T S Q A δ ε) (m : Move T S Q Φ A δ ε) : Prop :=
  (∀ p, m = .invoke p → L.Keeps p .closed) ∧ Isolated s m ∧ L.Permitted s m

theorem Good.step {L : Law S δ} {s : System T S Q A δ ε} (good : Good (fun _ => L) s)
    {m : Move T S Q Φ A δ ε} (lawful : Lawful L s m) :
    Good (fun _ => L) (s.step m) ∧
      ∃ l, L.commits s.conn.committed l (s.step m).conn.committed := by
  have same : ∃ l, L.commits s.conn.committed l s.conn.committed :=
    ⟨[], L.commits_nil _ (good.inv 0)⟩
  cases m with
  | invoke p => exact ⟨good.invoke (lawful.1 p rfl), same⟩
  | act i o =>
    obtain ⟨next, made, kept⟩ := good.act (fun _ _ _ h => h) lawful.2.1 lawful.2.2
    refine ⟨next, ?_⟩
    by_cases done : s.Commits i o
    · exact ⟨_, made done⟩
    · rw [kept done]
      exact same
  | crash => exact ⟨.init good.inv, same⟩

theorem Good.run {L : Law S δ} {s₀ s : System T S Q A δ ε} (good : Good (fun _ => L) s₀)
    (h : Run (Lawful L : System T S Q A δ ε → Move T S Q Φ A δ ε → Prop) s₀ s) :
    Good (fun _ => L) s := by
  induction h with
  | start => exact good
  | step m _ lawful ih => exact (ih.step lawful).1

end System

end Soundness

end McManager.Framework
