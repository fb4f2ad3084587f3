import McManager.Framework.Interleaving

namespace McManager.Framework

variable {T S Q Φ : Type} {A : Q → Type} {δ ε α β : Type}

/-- Every statement of a block satisfies `P`, whatever its queries return. -/
def Body.Only (P : S → Prop) : Body S δ ε α → Prop
  | .ret _ => True
  | .raise _ => True
  | .select k => ∀ d, (k d).Only P
  | .execute s k => P s ∧ ∀ n, (k n).Only P

namespace Law

/-- A transaction left open is one that may be committed as it is. -/
def Sound (L : Law S δ) : Mode S δ → Prop
  | .closed => True
  | .opened d w l => L.inv d ∧ L.commits d l w

variable [Store S δ ε Φ] {L : Law S δ}

/-- A program keeps the law, and whatever transaction it leaves open may be committed. -/
def Respects (L : Law S δ) (p : Program (Cmd T S Q) (Cmd.Reply δ A) ε α) : Prop :=
  ∀ x, L.Sound x → p.post L.rule (fun _ y => L.Sound y) x

/-- A statement that may be added to any transaction that may be committed. -/
def Extends (L : Law S δ) (s : S) : Prop :=
  ∀ d l w w' n, L.inv d → L.commits d l w → L.permits s w →
    Store.apply s w = .ok (w', n) → L.commits d (l ++ [s]) w'

theorem rule_monotone : @Program.Monotone _ _ _ ε
    (L.rule : (m : Cmd T S Q) → Mode S δ → (Except ε (m.Reply δ A) → Mode S δ → Prop) → Prop) := by
  intro m x P P' weaken h
  cases m with
  | begin t => cases x <;> simp only [rule] at h ⊢ <;> grind
  | execute t s =>
    cases x with
    | closed =>
      intro d hd
      refine ⟨fun φ => weaken _ _ ((h d hd).1 φ), fun hp => ?_⟩
      have h := (h d hd).2 hp
      cases hs : Store.apply s d <;> simp only [hs] at h ⊢ <;> exact weaken _ _ h
    | opened d w l =>
      refine ⟨fun φ => weaken _ _ (h.1 φ), fun hp => ?_⟩
      have h := h.2 hp
      cases hs : Store.apply s w <;> simp only [hs] at h ⊢ <;> exact weaken _ _ h
  | select t => cases x <;> simp only [rule] at h ⊢ <;> grind
  | commit t => cases x <;> simp only [rule] at h ⊢ <;> grind
  | rollback => exact weaken _ _ h
  | read t => cases x <;> simp only [rule] at h ⊢ <;> grind
  | ask q => cases x <;> simp only [rule] at h ⊢ <;> grind
  | draw q => cases x <;> simp only [rule] at h ⊢ <;> grind

theorem Respects.keeps {p : Program (Cmd T S Q) (Cmd.Reply δ A) ε Unit} (h : L.Respects p) :
    L.Keeps p .closed :=
  Program.post_mono rule_monotone (fun _ _ _ => trivial) p _ (h .closed trivial)

theorem respects_ret (a : α) :
    L.Respects (.ret a : Program (Cmd T S Q) (Cmd.Reply δ A) ε α) := fun _ hx => hx

theorem respects_raise (e : ε) :
    L.Respects (.raise e : Program (Cmd T S Q) (Cmd.Reply δ A) ε α) := fun _ hx => hx

theorem Respects.bind {p : Program (Cmd T S Q) (Cmd.Reply δ A) ε α}
    {f : α → Program (Cmd T S Q) (Cmd.Reply δ A) ε β} (hp : L.Respects p)
    (hf : ∀ a, L.Respects (f a)) : L.Respects (p.bind f) := by
  intro x hx
  rw [Program.post_bind]
  refine Program.post_mono rule_monotone ?_ p x (hp x hx)
  intro r y hy
  cases r with
  | ok a => exact hf a y hy
  | error e => exact hy

theorem Respects.handle {p : Program (Cmd T S Q) (Cmd.Reply δ A) ε α}
    {h : ε → Program (Cmd T S Q) (Cmd.Reply δ A) ε α} (hp : L.Respects p)
    (hh : ∀ e, L.Respects (h e)) : L.Respects (p.handle h) := by
  intro x hx
  rw [Program.post_handle]
  refine Program.post_mono rule_monotone ?_ p x (hp x hx)
  intro r y hy
  cases r with
  | ok a => exact hy
  | error e => exact hh e y hy

theorem respects_each {f : α → Program (Cmd T S Q) (Cmd.Reply δ A) ε Unit} (as : List α)
    (h : ∀ a ∈ as, L.Respects (f a)) : L.Respects (Program.each f as) := by
  induction as with
  | nil => exact respects_ret ()
  | cons a as ih =>
    exact (h a (by simp)).bind fun _ => ih fun b hb => h b (by simp [hb])

theorem respects_ask (q : Q) :
    L.Respects (ask q : Program (Cmd T S Q) (Cmd.Reply δ A) ε (A q)) := by
  intro x hx
  cases x <;> exact ⟨fun _ => hx, fun _ => hx⟩

theorem respects_draw (q : Q) :
    L.Respects (draw q : Program (Cmd T S Q) (Cmd.Reply δ A) ε (A q)) := by
  intro x hx
  cases x <;> exact fun _ => hx

theorem respects_readCommitted (t : T) (f : δ → α) :
    L.Respects (readCommitted t f : Program (Cmd T S Q) (Cmd.Reply δ A) ε α) := by
  intro x hx
  cases x <;> exact ⟨fun _ => hx, fun _ _ => hx⟩

/-- A block inside a transaction. -/
theorem post_lift {t : T} {b : Body S δ ε α} {d w : δ} {l : List S}
    {P : Except ε α → Mode S δ → Prop}
    (done : ∀ a w', b.eval w = .ok (a, w') → P (.ok a) (.opened d w' (l ++ b.writes w)))
    (stopped : ∀ e w' l', P (.error e) (.opened d w' l')) :
    (b.lift t : Program (Cmd T S Q) (Cmd.Reply δ A) ε α).post L.rule P (.opened d w l) := by
  induction b generalizing w l with
  | ret a => simpa [Body.eval, Body.writes, Body.lift] using done
  | raise e => exact stopped e w l
  | select k ih => exact ⟨fun φ => stopped _ w l, ih w done⟩
  | execute s k ih =>
    refine ⟨fun φ => stopped _ w l, fun _ => ?_⟩
    cases hs : Store.apply s w with
    | error e => exact stopped e w l
    | ok r =>
      refine ih r.2 fun a w' h => ?_
      have h := done a w' (by simpa [Body.eval, hs] using h)
      simpa [Body.writes, hs] using h

/-- The guarded part of a block, begun on `d`: `rollback` answers every exception. -/
private theorem post_guarded {t : T} {b : Body S δ ε α} {d : δ}
    (h : ∀ a w, b.eval d = .ok (a, w) → L.commits d (b.writes d) w) :
    (((b.lift t).bind fun a => (Program.perform (.commit t)).bind fun _ => .ret a).handle
      fun e => (Program.perform .rollback).bind fun _ => .raise e :
      Program (Cmd T S Q) (Cmd.Reply δ A) ε α).post L.rule (fun _ y => L.Sound y)
      (.opened d d []) := by
  rw [Program.post_handle, Program.post_bind]
  refine post_lift ?_ fun e w l => trivial
  intro a w ha
  exact ⟨fun φ => trivial, by simpa using h a w ha, trivial⟩

/-- A guarded block keeps the law when its whole run does. -/
theorem respects_transaction {t : T} {b : Body S δ ε α}
    (h : ∀ d, L.inv d → ∀ a w, b.eval d = .ok (a, w) → L.commits d (b.writes d) w) :
    L.Respects (transaction t b : Program (Cmd T S Q) (Cmd.Reply δ A) ε α) := by
  intro x hx
  cases x with
  | closed =>
    refine ⟨fun φ => trivial, fun d hd => ?_⟩
    exact post_guarded (h d hd)
  | opened d w l => exact ⟨fun φ => trivial, trivial⟩

theorem respects_transactionBare {t : T} {b : Body S δ ε α}
    (h : ∀ d, L.inv d → ∀ a w, b.eval d = .ok (a, w) → L.commits d (b.writes d) w) :
    L.Respects (transactionBare t b : Program (Cmd T S Q) (Cmd.Reply δ A) ε α) := by
  intro x hx
  cases x with
  | closed =>
    refine ⟨fun φ => trivial, fun d hd => ?_⟩
    exact post_guarded (h d hd)
  | opened d w l => exact ⟨fun φ => hx, hx⟩

private theorem post_lift_only {t : T} {b : Body S δ ε α} (only : b.Only L.Extends)
    {x : Mode S δ} (hx : L.Sound x) :
    (b.lift t : Program (Cmd T S Q) (Cmd.Reply δ A) ε α).post L.rule (fun _ y => L.Sound y) x := by
  induction b generalizing x with
  | ret a => exact hx
  | raise e => exact hx
  | select k ih =>
    cases x with
    | closed => exact ⟨fun φ => hx, fun d _ => ih d (only d) hx⟩
    | opened d w l => exact ⟨fun φ => hx, ih w (only w) hx⟩
  | execute s k ih =>
    cases x with
    | closed =>
      intro d hd
      have empty : L.Sound (.opened d d []) := ⟨hd, L.commits_nil d hd⟩
      refine ⟨fun φ => empty, fun hp => ?_⟩
      cases hs : Store.apply s d with
      | error e => exact empty
      | ok r =>
        exact ih r.2 (only.2 r.2)
          ⟨hd, only.1 d [] d r.1 r.2 hd (L.commits_nil d hd) hp hs⟩
    | opened d w l =>
      refine ⟨fun φ => hx, fun hp => ?_⟩
      cases hs : Store.apply s w with
      | error e => exact hx
      | ok r => exact ih r.2 (only.2 r.2) ⟨hx.1, only.1 d l w r.1 r.2 hx.1 hx.2 hp hs⟩

/-- Statements without a `BEGIN` may join a transaction the same call left open, so each of
them has to keep the law on its own. -/
theorem respects_autocommit {t : T} {b : Body S δ ε α} (only : b.Only L.Extends) :
    L.Respects (autocommit t b : Program (Cmd T S Q) (Cmd.Reply δ A) ε α) := by
  intro x hx
  rw [autocommit, Program.post_bind]
  refine Program.post_mono rule_monotone ?_ _ x (post_lift_only only hx)
  intro r y hy
  cases r with
  | error e => exact hy
  | ok a =>
    cases y with
    | closed => exact ⟨fun φ => trivial, trivial⟩
    | opened d w l => exact ⟨fun φ => hy, hy.2, trivial⟩

end Law

end McManager.Framework
