import McManager.Framework.Interleaving
import McManager.Framework.Triples

namespace McManager.Framework

variable {T S Q Φ : Type} {A : Q → Type} {δ ε α β : Type}

/-- Every statement of a block satisfies `P`, when its queries see databases with `I`. -/
def Body.Within (I : δ → Prop) (P : S → Prop) : Body S δ ε α → Prop
  | .ret _ => True
  | .raise _ => True
  | .select k => ∀ d, I d → (k d).Within I P
  | .execute s k => P s ∧ ∀ n, (k n).Within I P

namespace Body.Within

variable {I : δ → Prop} {P : S → Prop}

theorem bind {b : Body S δ ε α} {f : α → Body S δ ε β} (hb : b.Within I P)
    (hf : ∀ a, (f a).Within I P) : (b.bind f).Within I P := by
  induction b with
  | ret a => exact hf a
  | raise e => exact trivial
  | select k ih => exact fun d hd => ih d (hb d hd)
  | execute s k ih => exact ⟨hb.1, fun n => ih n (hb.2 n)⟩

theorem each {f : α → Body S δ ε β} (as : List α) (h : ∀ a ∈ as, (f a).Within I P) :
    (Body.each f as).Within I P := by
  induction as with
  | nil => exact trivial
  | cons a as ih =>
    apply bind (h a (List.mem_cons_self ..))
    intro b
    exact bind (ih fun c hc => h c (List.mem_cons_of_mem a hc)) fun _ => trivial

/-- What every statement keeps, the whole block keeps. -/
theorem eval_keeps [Store S δ ε Φ] {R : δ → δ → Prop} (refl : ∀ d, R d d)
    (trans : ∀ d d' d'', R d d' → R d' d'' → R d d'') (keeps : ∀ d d', R d d' → I d → I d')
    (step : ∀ s d d' n, P s → I d → Store.apply s d = .ok (d', n) → R d d')
    {b : Body S δ ε α} (within : b.Within I P) {d d' : δ} {a : α} (hd : I d)
    (h : b.eval d = .ok (a, d')) : R d d' := by
  induction b generalizing d with
  | ret a =>
    cases h
    exact refl _
  | raise e => cases h
  | select k ih => exact ih d (within d hd) hd h
  | execute s k ih =>
    simp only [Body.eval] at h
    cases hs : Store.apply s d with
    | error e =>
      rw [hs] at h
      cases h
    | ok r =>
      rw [hs] at h
      have first := step s d r.1 r.2 within.1 hd hs
      exact trans d r.1 d' first (ih r.2 (within.2 r.2) (keeps d r.1 first hd) h)

end Body.Within

namespace Program.Confined

variable {P : Cmd T S Q → Prop} {P' : S → Prop} {t : T}

theorem query {m : Cmd T S Q} {f : m.Reply δ A → α} (h : P m) :
    ((Program.perform m).bind fun d => .ret (f d) :
      Program (Cmd T S Q) (Cmd.Reply δ A) ε α).Confined P :=
  bind (perform h) fun _ => trivial

theorem lift {b : Body S δ ε α} (within : b.Within (fun _ => True) P') (selects : P (.select t))
    (runs : ∀ s, P' s → P (.execute t s)) :
    (b.lift t : Program (Cmd T S Q) (Cmd.Reply δ A) ε α).Confined P := by
  induction b with
  | ret a => exact trivial
  | raise e => exact trivial
  | select k ih =>
    refine ⟨selects, ?_⟩
    intro r
    cases r with
    | ok d => exact ih d (within d trivial)
    | error e => exact trivial
  | execute s k ih =>
    refine ⟨runs s within.1, ?_⟩
    intro r
    cases r with
    | ok n => exact ih n (within.2 n)
    | error e => exact trivial

theorem autocommit {b : Body S δ ε α} (within : b.Within (fun _ => True) P')
    (selects : P (.select t)) (runs : ∀ s, P' s → P (.execute t s)) (commits : P (.commit t)) :
    (autocommit t b : Program (Cmd T S Q) (Cmd.Reply δ A) ε α).Confined P :=
  bind (lift within selects runs) fun _ => bind (perform commits) fun _ => trivial

end Program.Confined

variable [Store S δ ε Φ]

/-- Every statement a program runs satisfies `P`, when what it reads are databases with `I`. -/
def Issues (I : δ → Prop) (P : S → Prop) : Program (Cmd T S Q) (Cmd.Reply δ A) ε α → Prop
  | .ret _ => True
  | .raise _ => True
  | .call m k => (∀ t s, m = .execute t s → P s) ∧
    ∀ (c : Connection δ) (o : m.Outcome Φ A), I c.committed → I c.view →
      Issues I P (k (c.act m o).1)

namespace Issues

variable {I : δ → Prop} {P : S → Prop} {t : T}

theorem bind {p : Program (Cmd T S Q) (Cmd.Reply δ A) ε α}
    {f : α → Program (Cmd T S Q) (Cmd.Reply δ A) ε β} (hp : Issues I P p)
    (hf : ∀ a, Issues I P (f a)) : Issues I P (p.bind f) := by
  induction p with
  | ret a => exact hf a
  | raise e => exact trivial
  | call m k ih => exact ⟨hp.1, fun c o durable pending => ih _ (hp.2 c o durable pending)⟩

theorem handle {p : Program (Cmd T S Q) (Cmd.Reply δ A) ε α}
    {h : ε → Program (Cmd T S Q) (Cmd.Reply δ A) ε α} (hp : Issues I P p)
    (hh : ∀ e, Issues I P (h e)) : Issues I P (p.handle h) := by
  induction p with
  | ret a => exact trivial
  | raise e => exact hh e
  | call m k ih => exact ⟨hp.1, fun c o durable pending => ih _ (hp.2 c o durable pending)⟩

theorem mono {P' : S → Prop} {p : Program (Cmd T S Q) (Cmd.Reply δ A) ε α} (hp : Issues I P p)
    (weaken : ∀ s, P s → P' s) : Issues I P' p := by
  induction p with
  | ret a => exact trivial
  | raise e => exact trivial
  | call m k ih =>
    refine ⟨fun t s hm => weaken s (hp.1 t s hm), ?_⟩
    exact fun c o durable pending => ih _ (hp.2 c o durable pending)

theorem confined {P' : Cmd T S Q → Prop} {p : Program (Cmd T S Q) (Cmd.Reply δ A) ε α}
    (hp : p.Confined P') (runs : ∀ t s, P' (.execute t s) → P s) : Issues I P p := by
  induction p with
  | ret a => exact trivial
  | raise e => exact trivial
  | call m k ih =>
    refine ⟨?_, fun c o _ _ => ih _ (hp.2 _)⟩
    intro t s hm
    exact runs t s (hm ▸ hp.1)

theorem any (p : Program (Cmd T S Q) (Cmd.Reply δ A) ε α) : Issues I (fun _ => True) p := by
  induction p with
  | ret a => exact trivial
  | raise e => exact trivial
  | call m k ih => exact ⟨fun _ _ _ => trivial, fun c o _ _ => ih _⟩

theorem each {f : α → Program (Cmd T S Q) (Cmd.Reply δ A) ε Unit} (as : List α)
    (h : ∀ a ∈ as, Issues I P (f a)) : Issues I P (Program.each f as) := by
  induction as with
  | nil => exact trivial
  | cons a as ih =>
    apply bind (h a (List.mem_cons_self ..))
    exact fun _ => ih fun b hb => h b (List.mem_cons_of_mem a hb)

theorem perform {m : Cmd T S Q} (h : ∀ t s, m = .execute t s → P s) :
    Issues I P (Program.perform m : Program (Cmd T S Q) (Cmd.Reply δ A) ε _) := by
  refine ⟨h, ?_⟩
  intro c o _ _
  cases (c.act m o).1 <;> exact trivial

theorem ask {q : Q} : Issues I P (ask q : Program (Cmd T S Q) (Cmd.Reply δ A) ε (A q)) :=
  perform fun _ _ h => nomatch h

theorem draw {q : Q} : Issues I P (draw q : Program (Cmd T S Q) (Cmd.Reply δ A) ε (A q)) :=
  perform fun _ _ h => nomatch h

/-- What is read is known to come from a database with `I`. -/
theorem readCommitted_bind {f : δ → α} {g : α → Program (Cmd T S Q) (Cmd.Reply δ A) ε β}
    (h : ∀ d, I d → Issues I P (g (f d))) :
    Issues I P ((readCommitted t f : Program (Cmd T S Q) (Cmd.Reply δ A) ε α).bind g) := by
  refine ⟨fun _ _ h => (nomatch h), ?_⟩
  intro c o durable _
  cases o with
  | none => exact h c.committed durable
  | some φ => exact trivial

theorem readCommitted {f : δ → α} :
    Issues I P (readCommitted t f : Program (Cmd T S Q) (Cmd.Reply δ A) ε α) :=
  bind (perform fun _ _ h => nomatch h) fun _ => trivial

theorem selectWriter_bind {f : δ → α} {g : α → Program (Cmd T S Q) (Cmd.Reply δ A) ε β}
    (h : ∀ d, I d → Issues I P (g (f d))) :
    Issues I P ((selectWriter t f : Program (Cmd T S Q) (Cmd.Reply δ A) ε α).bind g) := by
  refine ⟨fun _ _ h => (nomatch h), ?_⟩
  intro c o _ pending
  cases o with
  | none => exact h c.view pending
  | some φ => exact trivial

theorem lift_bind {b : Body S δ ε α} {g : α → Program (Cmd T S Q) (Cmd.Reply δ A) ε β}
    (within : b.Within I P) (h : ∀ a, Issues I P (g a)) :
    Issues I P ((b.lift t : Program (Cmd T S Q) (Cmd.Reply δ A) ε α).bind g) := by
  apply bind _ h
  induction b with
  | ret a => exact trivial
  | raise e => exact trivial
  | select k ih =>
    refine ⟨fun _ _ h => (nomatch h), ?_⟩
    intro c o _ pending
    cases o with
    | none => exact ih c.view (within c.view pending)
    | some φ => exact trivial
  | execute s k ih =>
    refine ⟨?_, ?_⟩
    · intro t' s' h
      cases h
      exact within.1
    · intro c o _ _
      cases ((c.act (.execute t s : Cmd T S Q) o).1 : Except ε Nat) with
      | ok n => exact ih n (within.2 n)
      | error e => exact trivial

theorem rollback {e : ε} {f : ε → Program (Cmd T S Q) (Cmd.Reply δ A) ε α}
    (h : Issues I P (f e)) : Issues I P ((Program.perform .rollback).bind fun _ => f e :
      Program (Cmd T S Q) (Cmd.Reply δ A) ε α) :=
  bind (perform fun _ _ h => nomatch h) fun _ => h

theorem autocommit {b : Body S δ ε α} (within : b.Within I P) :
    Issues I P (autocommit t b : Program (Cmd T S Q) (Cmd.Reply δ A) ε α) :=
  lift_bind within fun _ => bind (perform fun _ _ h => nomatch h) fun _ => trivial

theorem autocommitGuarded {b : Body S δ ε α} (within : b.Within I P) :
    Issues I P (autocommitGuarded t b : Program (Cmd T S Q) (Cmd.Reply δ A) ε α) :=
  handle (autocommit within) fun _ => rollback trivial

theorem transaction {b : Body S δ ε α} (within : b.Within I P) :
    Issues I P (transaction t b : Program (Cmd T S Q) (Cmd.Reply δ A) ε α) := by
  apply handle
  · apply bind (perform fun _ _ h => nomatch h)
    exact fun _ => autocommit within
  · exact fun _ => rollback trivial

theorem transactionBare {b : Body S δ ε α} (within : b.Within I P) :
    Issues I P (transactionBare t b : Program (Cmd T S Q) (Cmd.Reply δ A) ε α) := by
  apply bind (perform fun _ _ h => nomatch h)
  exact fun _ => handle (autocommit within) fun _ => rollback trivial

theorem transactionThen {b : Body S δ ε α}
    {next : α → Program (Cmd T S Q) (Cmd.Reply δ A) ε β}
    {recover : ε → Program (Cmd T S Q) (Cmd.Reply δ A) ε β} (within : b.Within I P)
    (hn : ∀ a, Issues I P (next a)) (hr : ∀ e, Issues I P (recover e)) :
    Issues I P (transactionThen t b next recover :
      Program (Cmd T S Q) (Cmd.Reply δ A) ε β) := by
  apply handle
  · apply bind (perform fun _ _ h => nomatch h)
    intro _
    apply lift_bind within
    intro a
    exact bind (perform fun _ _ h => nomatch h) fun _ => hn a
  · exact fun e => rollback (hr e)

end Issues

section Chains

variable {I : δ → Prop} {P : S → Prop} {R : δ → δ → Prop} {E : Scope T Q Φ A δ}

/-- What a connection keeps: its committed database is one `d₀` leads to, and the open
transaction is one the committed database leads to. -/
def Chained (R : δ → δ → Prop) (I : δ → Prop) (d₀ : δ) (c : Connection δ) : Prop :=
  R d₀ c.committed ∧ R c.committed c.view ∧ I c.committed ∧ I c.view

/-- A statement that goes through is run on a database where it meets `C`. -/
def Cmd.Meets (C : S → δ → Prop) (c : Connection δ) : (m : Cmd T S Q) → m.Outcome Φ A → Prop
  | .execute _ s, none => C s c.view
  | _, _ => True

/-- What one statement keeps, one command keeps. -/
theorem Chained.act {C : S → δ → Prop} (refl : ∀ d, R d d) (trans : ∀ d d' d'', R d d' → R d' d'' → R d d'')
    {d₀ : δ} {c : Connection δ} (h : Chained R I d₀ c) {m : Cmd T S Q} {o : m.Outcome Φ A}
    (meets : m.Meets C c o)
    (step : ∀ t s d' n, m = .execute t s → C s c.view → Store.apply s c.view = .ok (d', n) →
      R c.view d' ∧ I d') :
    Chained R I d₀ (c.act m o).2 := by
  obtain ⟨durable, pending, committed, seen⟩ := h
  have same : Chained R I d₀ c := ⟨durable, pending, committed, seen⟩
  cases m with
  | begin t =>
    cases o with
    | some φ => exact same
    | none =>
      simp only [Connection.act]
      cases hw : c.working with
      | some w => exact same
      | none => exact same
  | execute t s =>
    cases o with
    | some φ => exact same
    | none =>
      simp only [Connection.act]
      cases hs : Store.apply s c.view with
      | error e => exact same
      | ok r =>
        obtain ⟨related, inv⟩ := step t s r.1 r.2 rfl meets hs
        exact ⟨durable, trans _ _ _ pending related, committed, inv⟩
  | select t => cases o <;> exact same
  | commit t =>
    cases o with
    | some φ => exact same
    | none => exact ⟨trans _ _ _ durable pending, refl _, seen, seen⟩
  | rollback => exact ⟨durable, refl _, committed, committed⟩
  | read t => cases o <;> exact same
  | ask q => cases o <;> exact same
  | draw q => exact same

/-- What every statement keeps of a database, every program of such statements keeps of the
committed one, and its open transaction keeps of that. -/
theorem Issues.keeps (refl : ∀ d, R d d) (trans : ∀ d d' d'', R d d' → R d' d'' → R d d'')
    (step : ∀ s d d' n, P s → I d → Store.apply s d = .ok (d', n) → R d d' ∧ I d')
    {p : Program (Cmd T S Q) (Cmd.Reply δ A) ε α} (h : Issues I P p) (d₀ : δ) :
    Triple E (fun x => Chained R I d₀ x.conn) (fun _ x => Chained R I d₀ x.conn)
      (fun _ x => Chained R I d₀ x.conn) p := by
  intro x hx
  induction p generalizing x with
  | ret a => exact hx
  | raise e => exact hx
  | call m k ih =>
    intro o _
    have next : Chained R I d₀ (x.conn.act m o).2 := by
      have free : m.Meets (fun _ _ => True) x.conn o := by
        cases m <;> first | exact trivial | (cases o <;> exact trivial)
      apply hx.act refl trans free
      intro t s d' n hm _ applied
      exact step s _ d' n (h.1 t s hm) hx.2.2.2 applied
    exact ih _ (h.2 x.conn o hx.2.2.1 hx.2.2.2) ⟨(x.conn.act m o).2, x.log ++ m.note o⟩ next

end Chains

namespace System

variable {I : δ → Prop} {P : S → Prop} {C : S → δ → Prop}

/-- Every statement that goes through is run on a database where it meets `C`. -/
def Meets (C : S → δ → Prop) (s : System T S Q A δ ε) : Move T S Q Φ A δ ε → Prop
  | .act i o => ∀ m, s.next i = some m → m.Meets C s.conn (o m)
  | _ => True

/-- What holds of a system whose calls issue statements with `P` only. -/
structure Served (I : δ → Prop) (P : S → Prop) (s : System T S Q A δ ε) : Prop where
  committed : I s.conn.committed
  seen : I s.conn.view
  calls : ∀ c ∈ s.calls, Issues I P c.rest

theorem Served.step (stmt : ∀ s d d' n, P s → C s d → I d → Store.apply s d = .ok (d', n) → I d')
    {s : System T S Q A δ ε} (h : Served I P s) {m : Move T S Q Φ A δ ε}
    (invoked : ∀ p, m = .invoke p → Issues I P p) (meets : Meets C s m) : Served I P (s.step m) := by
  cases m with
  | invoke p =>
    refine ⟨h.committed, h.seen, ?_⟩
    intro c hc
    obtain hc | hc := List.mem_append.mp hc
    · exact h.calls c hc
    · obtain rfl := List.mem_singleton.mp hc
      exact invoked p rfl
  | crash => exact ⟨h.committed, h.committed, fun c hc => (nomatch hc)⟩
  | act i o =>
    simp only [System.step]
    split
    · rename_i m k block hcall
      have mem := List.mem_of_getElem? hcall
      have issues := h.calls _ mem
      have chained : Chained (fun _ _ => True) I s.conn.committed (s.conn.act m (o m)).2 := by
        have hnext : s.next i = some m := by
          rw [System.next, hcall]
        apply Chained.act (fun _ => trivial) (fun _ _ _ _ _ => trivial)
          ⟨trivial, trivial, h.committed, h.seen⟩ (meets m hnext)
        intro t st d' n hm condition applied
        exact ⟨trivial, stmt st _ d' n (issues.1 t st hm) condition h.seen applied⟩
      refine ⟨chained.2.2.1, chained.2.2.2, ?_⟩
      intro c hc
      obtain hc | rfl := List.mem_or_eq_of_mem_set hc
      · exact h.calls c hc
      · exact issues.2 s.conn (o m) h.committed h.seen
    · exact h

/-- An invariant of every run, however its calls interleave. -/
theorem Served.run (stmt : ∀ s d d' n, P s → C s d → I d → Store.apply s d = .ok (d', n) → I d')
    {ok : System T S Q A δ ε → Move T S Q Φ A δ ε → Prop}
    (moves : ∀ s m, ok s m → (∀ p, m = .invoke p → Issues I P p) ∧ Meets C s m)
    {s₀ s : System T S Q A δ ε} (start : Served I P s₀) (h : Run ok s₀ s) : Served I P s := by
  induction h with
  | start => exact start
  | step m _ hok ih => exact ih.step stmt (moves _ m hok).1 (moves _ m hok).2

theorem Served.init {d : δ} (h : I d) : Served I P (init d : System T S Q A δ ε) :=
  ⟨h, h, fun _ hc => (nomatch hc)⟩

/-- The moves one after another. -/
def play (ms : List (Move T S Q Φ A δ ε)) (s : System T S Q A δ ε) : System T S Q A δ ε :=
  ms.foldl (fun s m => s.step m) s

theorem Run.play {ok : System T S Q A δ ε → Move T S Q Φ A δ ε → Prop} {s₀ s : System T S Q A δ ε}
    (ms : List (Move T S Q Φ A δ ε)) (moves : ∀ s, ∀ m ∈ ms, ok s m) (h : Run ok s₀ s) :
    Run ok s₀ (s.play ms) := by
  induction ms generalizing s with
  | nil => exact h
  | cons m ms ih =>
    apply ih fun s' m' hm' => moves s' m' (List.mem_cons_of_mem m hm')
    exact h.step m (moves s m (List.mem_cons_self ..))

/-- A call served to its end while the others wait. -/
theorem Run.serve {ok : System T S Q A δ ε → Move T S Q Φ A δ ε → Prop}
    (acts : ∀ s i o, ok s (.act i o)) {s₀ s : System T S Q A δ ε} (h : Run ok s₀ s)
    {p : Program (Cmd T S Q) (Cmd.Reply δ A) ε Unit} (invoked : ok s (.invoke p))
    (env : Nat → Session T Q Φ A δ → (m : Cmd T S Q) → m.Outcome Φ A)
    (log : List (Note T Q Φ A)) :
    ∃ s', Run ok s₀ s' ∧ s'.conn = (run env p ⟨s.conn, log⟩).2.conn := by
  have go : ∀ (p : Program (Cmd T S Q) (Cmd.Reply δ A) ε Unit) (n : Nat) (x : Session T Q Φ A δ)
      (s : System T S Q A δ ε) (i : Nat) (b : List S), Run ok s₀ s →
      s.calls[i]? = some ⟨p, b⟩ → x.conn = s.conn →
      ∃ s', Run ok s₀ s' ∧ s'.conn = (p.run Session.act env n x).2.conn := by
    intro p
    induction p with
    | ret a => exact fun n x s i b h _ hx => ⟨s, h, hx.symm⟩
    | raise e => exact fun n x s i b h _ hx => ⟨s, h, hx.symm⟩
    | call m k ih =>
      intro n x s i b h hcall hx
      have hi : i < s.calls.length := (List.getElem?_eq_some_iff.mp hcall).1
      have next := h.step (.act i (env n x)) (acts s i _)
      apply ih _ (n + 1) (x.act m (env n x m)).2 _ i
        (m.blockAfter b (s.conn.act m (env n x m) : Except ε (m.Reply δ A) × Connection δ).1) next
      · simp only [System.step, hcall, Session.act, hx]
        rw [List.getElem?_set_self hi]
      · simp only [System.step, hcall, Session.act, hx]
  have started := h.step (.invoke p) invoked
  apply go p 0 ⟨s.conn, log⟩ _ s.calls.length [] started
  · simp [System.step]
  · rfl

end System

end McManager.Framework
