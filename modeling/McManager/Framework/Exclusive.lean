import McManager.Framework.Frame
import McManager.Framework.Watched

namespace McManager.Framework

variable {T S Q Φ : Type} {A : Q → Type} {δ ε α β σ τ : Type}

/-- Where a call stands with the writer: no transaction of its own is open, one is, or one in
which a query has seen these rows and no statement has run since. -/
inductive Txn (δ : Type) where
  | outside
  | inside
  | looked (d : δ)

namespace Txn

/-- A query outside a transaction of the call is not remembered. -/
def next : Txn δ → (m : Cmd T S Q) → Except ε (m.Reply δ A) → Txn δ
  | _, .begin _, .ok _ => .inside
  | .outside, .select _, .ok _ => .outside
  | _, .select _, .ok d => .looked d
  | .outside, .execute _ _, .ok _ => .outside
  | _, .execute _ _, .ok _ => .inside
  | _, .commit _, .ok _ => .outside
  | _, .rollback, _ => .outside
  | x, _, _ => x

def Open : Txn δ → Prop
  | .outside => False
  | _ => True

variable {x : Txn δ}

theorem open_of_ne (h : x ≠ .outside) : x.Open := by
  cases x with
  | outside => exact absurd rfl h
  | inside => exact trivial
  | looked d => exact trivial

/-- A transaction is opened by its `BEGIN`. -/
theorem open_next {m : Cmd T S Q} {r : Except ε (m.Reply δ A)} (h : (x.next m r).Open) :
    x.Open ∨ m.onWriter := by
  cases x with
  | inside => exact .inl trivial
  | looked d => exact .inl trivial
  | outside =>
    right
    cases m with
    | begin t => exact trivial
    | execute t s => exact trivial
    | select t => exact trivial
    | commit t => exact trivial
    | rollback => exact trivial
    | read t => cases r <;> exact absurd h id
    | ask q => cases r <;> exact absurd h id
    | draw q => cases r <;> exact absurd h id

/-- Only a `commit` or a `rollback` ends it. -/
theorem open_stays {m : Cmd T S Q} {r : Except ε (m.Reply δ A)} (h : x.Open)
    (going : (∀ t, m ≠ .commit t) ∧ m ≠ .rollback) : (x.next m r).Open := by
  cases x with
  | outside => exact h.elim
  | inside =>
    cases m with
    | commit t => exact absurd rfl (going.1 t)
    | rollback => exact absurd rfl going.2
    | _ => cases r <;> exact trivial
  | looked d =>
    cases m with
    | commit t => exact absurd rfl (going.1 t)
    | rollback => exact absurd rfl going.2
    | _ => cases r <;> exact trivial

theorem open_refused {m : Cmd T S Q} {e : ε} (h : x.Open) (going : m ≠ .rollback) :
    (x.next m (.error e : Except ε (m.Reply δ A))).Open := by
  cases m with
  | commit t =>
    cases x with
    | outside => exact h.elim
    | inside => exact trivial
    | looked d => exact trivial
  | rollback => exact absurd rfl going
  | _ => exact open_stays h ⟨fun _ same => (nomatch same), fun same => (nomatch same)⟩

end Txn

/-- The commands of one block after another. -/
theorem Body.lift_bind (t : T) (b : Body S δ ε α) (f : α → Body S δ ε β) :
    ((b.bind f).lift t : Program (Cmd T S Q) (Cmd.Reply δ A) ε β) =
      (b.lift t).bind fun a => (f a).lift t := by
  induction b with
  | ret a => rfl
  | raise e => rfl
  | select k ih =>
    apply congrArg (Program.call _)
    funext r
    cases r with
    | ok d => exact ih d
    | error e => rfl
  | execute s k ih =>
    apply congrArg (Program.call _)
    funext r
    cases r with
    | ok n => exact ih n
    | error e => rfl

namespace Script

variable {W : Script T S Q A δ ε σ τ} {I : σ → Prop} {q : σ} {t : T}

/-- A return leaves a mark with `K` of its value, and an exception one with `E`. -/
def Leaves (K : α → σ → Prop) (E : σ → Prop) : Except ε α → σ → Prop
  | .ok a, q => K a q
  | .error _, q => E q

theorem Follows.selects {P : Except ε α → σ → Prop} {k : δ → Body S δ ε α}
    (allowed : W.allows q (.select t))
    (ok : ∀ d, W.Follows P ((k d).lift t) (W.next q (.select t) (.ok d)))
    (failed : ∀ e, P (.error e) (W.next q (.select t) (.error e))) :
    W.Follows P ((Body.select k).lift t) q := by
  refine ⟨allowed, ?_⟩
  intro r
  cases r with
  | ok d => exact ok d
  | error e => exact failed e

theorem Follows.executes {P : Except ε α → σ → Prop} {s : S} {k : Nat → Body S δ ε α}
    (allowed : W.allows q (.execute t s))
    (ok : ∀ n, W.Follows P ((k n).lift t) (W.next q (.execute t s) (.ok n)))
    (failed : ∀ e, P (.error e) (W.next q (.execute t s) (.error e))) :
    W.Follows P ((Body.execute s k).lift t) q := by
  refine ⟨allowed, ?_⟩
  intro r
  cases r with
  | ok n => exact ok n
  | error e => exact failed e

/-- A program whose commands keep the mark in `I`. -/
theorem Follows.within {R : Cmd T S Q → Prop} {p : Program (Cmd T S Q) (Cmd.Reply δ A) ε α}
    (hp : p.Confined R) (keeps : ∀ q m, I q → R m → W.allows q m ∧ ∀ r, I (W.next q m r))
    (hq : I q) : W.Follows (fun _ => I) p q := by
  induction p generalizing q with
  | ret a => exact hq
  | raise e => exact hq
  | call m k ih =>
    have step := keeps q m hq hp.1
    exact ⟨step.1, fun r => ih r (hp.2 r) (step.2 r)⟩

/-- A block whose statements keep the mark in `I`, and which leaves a mark in `E` when it is left by
an exception. -/
theorem Follows.lift {E : σ → Prop} {P : S → Prop} {b : Body S δ ε α}
    (within : b.Within (fun _ => True) P)
    (selects : ∀ q, I q → W.allows q (.select t) ∧ (∀ d, I (W.next q (.select t) (.ok d))) ∧
      ∀ e, E (W.next q (.select t) (.error e)))
    (runs : ∀ q s, I q → P s → W.allows q (.execute t s) ∧
      (∀ n, I (W.next q (.execute t s) (.ok n))) ∧ ∀ e, E (W.next q (.execute t s) (.error e)))
    (left : ∀ q, I q → E q) (hq : I q) :
    W.Follows (Leaves (fun _ => I) E) (b.lift t) q := by
  induction b generalizing q with
  | ret a => exact hq
  | raise e => exact left q hq
  | select k ih =>
    have step := selects q hq
    exact Follows.selects step.1 (fun d => ih d (within d trivial) (step.2.1 d)) step.2.2
  | execute s k ih =>
    have step := runs q s hq within.1
    exact Follows.executes step.1 (fun n => ih n (within.2 n) (step.2.1 n)) step.2.2

/-- A guarded transaction: its marks are such that a `rollback` leads to `P`, or a commit does. -/
theorem Follows.transaction {K : α → σ → Prop} {P : Except ε α → σ → Prop} {b : Body S δ ε α}
    (begins : W.allows q (.begin t)) (refused : ∀ e, I (W.next q (.begin t) (.error e)))
    (block : W.Follows (Leaves K I) (b.lift t) (W.next q (.begin t) (.ok ())))
    (commits : ∀ a q', K a q' → W.allows q' (.commit t) ∧
      P (.ok a) (W.next q' (.commit t) (.ok ())) ∧ ∀ e, I (W.next q' (.commit t) (.error e)))
    (back : ∀ q', I q' → W.allows q' .rollback ∧
      ∀ e r, P (.error e) (W.next q' .rollback r)) :
    W.Follows P (Framework.transaction t b) q := by
  apply Follows.handle (P := Leaves (fun a => P (.ok a)) I)
  · apply Follows.step begins
    · intro _
      apply block.bind
      · intro a q' ha
        obtain ⟨allowed, done, lost⟩ := commits a q' ha
        exact Follows.step allowed (fun _ => done) lost
      · exact fun _ _ h => h
    · exact refused
  · exact fun _ _ h => h
  · intro e q' h
    obtain ⟨allowed, left⟩ := back q' h
    exact Follows.step allowed (fun _ => left e _) fun e' => left e' _

end Script

variable [Store S δ ε Φ]

/-- What a query of the open transaction saw is what the next command finds. -/
theorem Txn.looked_act {x : Txn δ} {m : Cmd T S Q} {c : Connection δ} {o : m.Outcome Φ A} {d : δ}
    (saw : ∀ d, x = .looked d → c.view = d)
    (h : x.next m (c.act m o : Except ε (m.Reply δ A) × Connection δ).1 = .looked d) :
    (c.act m o : Except ε (m.Reply δ A) × Connection δ).2.view = d := by
  cases m with
  | begin t =>
    cases o with
    | some φ => exact saw d (by cases x <;> exact h)
    | none =>
      have still := (c.act_looks (m := .begin t) trivial none :
        ((c.act (A := A) (.begin t : Cmd T S Q) none : Except ε Unit × _).2.committed = _) ∧ _)
      rw [still.2]
      simp only [Connection.act] at h
      cases hw : c.working with
      | some w =>
        simp only [hw] at h
        exact saw d (by cases x <;> exact h)
      | none =>
        simp only [hw] at h
        cases x <;> cases h
  | execute t s =>
    obtain ⟨e, failed⟩ | ⟨d', n, -, -, done⟩ :=
      (c.act_execute (A := A) t s o : (∃ e : ε, _) ∨ _)
    · rw [failed] at h ⊢
      exact saw d (by cases x <;> exact h)
    · rw [done] at h
      cases x <;> cases h
  | select t =>
    cases o with
    | some φ => exact saw d (by cases x <;> exact h)
    | none =>
      cases x with
      | outside => cases h
      | inside => exact Txn.looked.inj h
      | looked d' => exact Txn.looked.inj h
  | commit t =>
    cases o with
    | some φ => exact saw d (by cases x <;> exact h)
    | none => cases x <;> cases h
  | rollback => cases x <;> cases h
  | read t =>
    cases o with
    | some φ => exact saw d (by cases x <;> exact h)
    | none => exact saw d (by cases x <;> exact h)
  | ask q =>
    cases o with
    | ok a => exact saw d (by cases x <;> exact h)
    | error φ => exact saw d (by cases x <;> exact h)
  | draw q => exact saw d (by cases x <;> exact h)

/-- A command that is no statement of the writer leaves what it sees as it is. -/
theorem Connection.act_aside {m : Cmd T S Q} (c : Connection δ) (o : m.Outcome Φ A)
    (h : ¬m.onWriter) : (c.act m o : Except ε (m.Reply δ A) × Connection δ).2 = c := by
  cases m with
  | read t => cases o <;> rfl
  | ask q => cases o <;> rfl
  | draw q => rfl
  | _ => exact absurd trivial h

namespace Watched

variable {W : Script T S Q A δ ε σ τ} (txn : σ → Txn δ)

/-- The marks of a script keep track of the transactions. -/
def Tracks (W : Script T S Q A δ ε σ τ) (txn : σ → Txn δ) : Prop :=
  txn W.start = .outside ∧ ∀ q m (r : Except ε (m.Reply δ A)), txn (W.next q m r) = (txn q).next m r

/-- A call uses the writer only while no other is in a transaction of its own. -/
def Alone (w : Watched T S Q A δ ε σ τ) : Move T S Q Φ A δ ε → Prop
  | .act i _ => ∀ m, w.system.next i = some m → m.onWriter →
    ∀ (j : Nat) (q : σ), w.marks[j]? = some q → (txn q).Open → j = i
  | _ => True

/-- At most one call is in a transaction, and it finds the rows as it saw them. -/
structure Exclusive (w : Watched T S Q A δ ε σ τ) : Prop where
  one : ∀ (i j : Nat) (q q' : σ), w.marks[i]? = some q → w.marks[j]? = some q' → (txn q).Open →
    (txn q').Open → i = j
  looked : ∀ (i : Nat) (q : σ) (d : δ), w.marks[i]? = some q → txn q = .looked d → w.system.conn.view = d

variable {txn}

theorem Exclusive.init (d : δ) (tally : τ) :
    Exclusive txn (init d tally : Watched T S Q A δ ε σ τ) :=
  ⟨fun _ _ _ _ h => (nomatch h), fun _ _ _ h => (nomatch h)⟩

theorem Exclusive.acted (tracks : Tracks W txn) {w w' : Watched T S Q A δ ε σ τ} {i : Nat}
    {q : σ} {m : Cmd T S Q} {o : m.Outcome Φ A} (h : Exclusive txn w)
    (acted : Acted W w w' i q m o)
    (alone : m.onWriter → ∀ (j : Nat) (q : σ), w.marks[j]? = some q → (txn q).Open → j = i) :
    Exclusive txn w' := by
  have mark := acted.was.1
  have hi := (List.getElem?_eq_some_iff.mp mark).1
  have own : ∀ q', w'.marks[i]? = some q' →
      q' = W.next q m (w.system.conn.act m o).1 := by
    intro q' hq'
    rw [acted.marks, List.getElem?_set_self hi] at hq'
    exact (Option.some.inj hq').symm
  have other : ∀ j, j ≠ i → w'.marks[j]? = w.marks[j]? := by
    intro j hj
    rw [acted.marks, List.getElem?_set_ne hj.symm]
  have mine : ∀ j q', j ≠ i → w'.marks[j]? = some q' → (txn q').Open →
      (txn (W.next q m (w.system.conn.act m o).1)).Open → False := by
    intro j q' hj hq' opened next
    rw [other j hj] at hq'
    rw [tracks.2] at next
    cases Txn.open_next next with
    | inl was => exact hj (h.one j i q' q hq' mark opened was)
    | inr writes => exact hj (alone writes j q' hq' opened)
  constructor
  · intro j k q' q'' hj hk openj openk
    by_cases ji : j = i
    · by_cases ki : k = i
      · rw [ji, ki]
      · rw [ji] at hj
        rw [own q' hj] at openj
        exact (mine k q'' ki hk openk openj).elim
    · by_cases ki : k = i
      · rw [ki] at hk
        rw [own q'' hk] at openk
        exact (mine j q' ji hj openj openk).elim
      · rw [other j ji] at hj
        rw [other k ki] at hk
        exact h.one j k q' q'' hj hk openj openk
  · intro j q' d hj saw
    rw [acted.conn]
    by_cases ji : j = i
    · rw [ji] at hj
      rw [own q' hj, tracks.2] at saw
      exact Txn.looked_act (fun d hd => h.looked i q d mark hd) saw
    · rw [other j ji] at hj
      have opened : (txn q').Open := by rw [saw]; exact trivial
      by_cases writes : m.onWriter
      · exact absurd (alone writes j q' hj opened) ji
      · rw [Connection.act_aside _ _ writes]
        exact h.looked j q' d hj saw

theorem Exclusive.step (tracks : Tracks W txn) {w : Watched T S Q A δ ε σ τ}
    {m : Move T S Q Φ A δ ε} (sound : Sound W w) (h : Exclusive txn w) (alone : Alone txn w m) :
    Exclusive txn (w.step W m) := by
  cases m with
  | crash => exact ⟨fun _ _ _ _ h => (nomatch h), fun _ _ _ h => (nomatch h)⟩
  | act i o =>
    obtain same | ⟨q, m, acted, -⟩ := sound.acted i o
    · rw [same]
      exact h
    · exact h.acted tracks acted (alone m acted.next)
  | invoke p =>
    have old : ∀ (j : Nat) (q : σ),
        (w.step W (.invoke p : Move T S Q Φ A δ ε)).marks[j]? = some q →
        (txn q).Open → w.marks[j]? = some q := by
      intro j q hj opened
      simp only [Watched.step] at hj
      by_cases hlt : j < w.marks.length
      · rwa [List.getElem?_append_left hlt] at hj
      · rw [List.getElem?_append_right (Nat.le_of_not_lt hlt)] at hj
        have start := List.mem_of_getElem? hj
        rw [List.mem_singleton.mp start, tracks.1] at opened
        exact opened.elim
    constructor
    · intro j k q q' hj hk openj openk
      exact h.one j k q q' (old j q hj openj) (old k q' hk openk) openj openk
    · intro j q d hj saw
      have opened : (txn q).Open := by rw [saw]; exact trivial
      exact h.looked j q d (old j q hj opened) saw

end Watched

end McManager.Framework
