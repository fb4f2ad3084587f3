import McManager.Framework.Exclusive

/-! Statements that a call runs only for the rows a query of its own transaction has seen. -/

namespace McManager.Framework

variable {T S Q Φ : Type} {A : Q → Type} {δ ε α β : Type}

section Programs

variable [Store S δ ε Φ]

/-- Every statement a program runs satisfies `P` with what the last query of the open transaction
has seen, when what it reads are databases with `I`. -/
def LooksUp (I : δ → Prop) (P : Txn δ → S → Prop) :
    Txn δ → Program (Cmd T S Q) (Cmd.Reply δ A) ε α → Prop
  | _, .ret _ => True
  | _, .raise _ => True
  | x, .call m k => (∀ t s, m = .execute t s → P x s) ∧
    ∀ (c : Connection δ) (o : m.Outcome Φ A), I c.committed → I c.view →
      LooksUp I P (x.next m (c.act m o).1) (k (c.act m o).1)

/-- The same wherever the call stands with the writer. -/
def Careful (I : δ → Prop) (P : Txn δ → S → Prop)
    (p : Program (Cmd T S Q) (Cmd.Reply δ A) ε α) : Prop := ∀ x, LooksUp I P x p

variable {I : δ → Prop} {P : Txn δ → S → Prop} {x : Txn δ} {t : T}

theorem LooksUp.bind {p : Program (Cmd T S Q) (Cmd.Reply δ A) ε α}
    {f : α → Program (Cmd T S Q) (Cmd.Reply δ A) ε β} (hp : LooksUp I P x p)
    (hf : ∀ a, Careful I P (f a)) : LooksUp I P x (p.bind f) := by
  induction p generalizing x with
  | ret a => exact hf a x
  | raise e => exact trivial
  | call m k ih => exact ⟨hp.1, fun c o durable pending => ih _ (hp.2 c o durable pending)⟩

theorem LooksUp.handle {p : Program (Cmd T S Q) (Cmd.Reply δ A) ε α}
    {h : ε → Program (Cmd T S Q) (Cmd.Reply δ A) ε α} (hp : LooksUp I P x p)
    (hh : ∀ e, Careful I P (h e)) : LooksUp I P x (p.handle h) := by
  induction p generalizing x with
  | ret a => exact trivial
  | raise e => exact hh e x
  | call m k ih => exact ⟨hp.1, fun c o durable pending => ih _ (hp.2 c o durable pending)⟩

namespace Careful

theorem ret (a : α) : Careful I P (.ret a : Program (Cmd T S Q) (Cmd.Reply δ A) ε α) :=
  fun _ => trivial

theorem raise (e : ε) : Careful I P (.raise e : Program (Cmd T S Q) (Cmd.Reply δ A) ε α) :=
  fun _ => trivial

theorem bind {p : Program (Cmd T S Q) (Cmd.Reply δ A) ε α}
    {f : α → Program (Cmd T S Q) (Cmd.Reply δ A) ε β} (hp : Careful I P p)
    (hf : ∀ a, Careful I P (f a)) : Careful I P (p.bind f) := fun x => (hp x).bind hf

theorem handle {p : Program (Cmd T S Q) (Cmd.Reply δ A) ε α}
    {h : ε → Program (Cmd T S Q) (Cmd.Reply δ A) ε α} (hp : Careful I P p)
    (hh : ∀ e, Careful I P (h e)) : Careful I P (p.handle h) := fun x => (hp x).handle hh

theorem each {f : α → Program (Cmd T S Q) (Cmd.Reply δ A) ε Unit} (as : List α)
    (h : ∀ a, Careful I P (f a)) : Careful I P (Program.each f as) := by
  induction as with
  | nil => exact ret ()
  | cons a as ih => exact (h a).bind fun _ => ih

theorem ask {q : Q} :
    Careful I P (ask q : Program (Cmd T S Q) (Cmd.Reply δ A) ε (A q)) := by
  refine fun x => ⟨(fun t s same => by cases same), fun c o _ _ => ?_⟩
  cases o <;> exact trivial

theorem draw {q : Q} :
    Careful I P (draw q : Program (Cmd T S Q) (Cmd.Reply δ A) ε (A q)) :=
  fun _ => ⟨(fun _ _ same => by cases same), fun _ _ _ _ => trivial⟩

theorem readCommitted {f : δ → α} :
    Careful I P (readCommitted t f : Program (Cmd T S Q) (Cmd.Reply δ A) ε α) := by
  refine fun x => ⟨(fun t s same => by cases same), fun c o _ _ => ?_⟩
  cases o <;> exact trivial

/-- Statements that need no query before them. -/
theorem of_issues {P' : S → Prop} {p : Program (Cmd T S Q) (Cmd.Reply δ A) ε α}
    (h : Issues I P' p) (free : ∀ x s, P' s → P x s) : Careful I P p := by
  induction p with
  | ret a => exact ret a
  | raise e => exact raise e
  | call m k ih =>
    intro x
    refine ⟨fun t s same => free x s (h.1 t s same), ?_⟩
    exact fun c o durable pending => ih _ (h.2 c o durable pending) _

/-- A guarded transaction looks up what its block does. -/
theorem transaction {b : Body S δ ε α}
    (block : LooksUp I P .inside (b.lift t : Program (Cmd T S Q) (Cmd.Reply δ A) ε α)) :
    Careful I P (transaction t b : Program (Cmd T S Q) (Cmd.Reply δ A) ε α) := by
  have ended : ∀ a : α, Careful I P ((Program.perform (.commit t)).bind fun _ => .ret a :
      Program (Cmd T S Q) (Cmd.Reply δ A) ε α) := by
    refine fun a x => ⟨(fun t s same => by cases same), fun c o _ _ => ?_⟩
    cases o <;> exact trivial
  have undone : ∀ e : ε, Careful I P ((Program.perform .rollback).bind fun _ => .raise e :
      Program (Cmd T S Q) (Cmd.Reply δ A) ε α) :=
    fun e x => ⟨(fun t s same => by cases same), fun _ _ _ _ => trivial⟩
  intro x
  refine LooksUp.handle ?_ undone
  refine ⟨(fun t s same => by cases same), ?_⟩
  intro c o _ _
  cases reply : (c.act (.begin t) o : Except ε _ × Connection δ).1 with
  | error e => exact trivial
  | ok u =>
    have began : x.next (.begin t) (.ok u : Except ε ((.begin t : Cmd T S Q).Reply δ A)) =
        .inside := by
      cases x <;> rfl
    rw [began]
    exact block.bind ended

end Careful

end Programs

/-- The transactions of the calls, and nothing else. -/
def lookup : Script T S Q A δ ε (Txn δ) Unit where
  start := .outside
  allows := fun _ _ => True
  next := Txn.next
  count := fun _ _ _ _ => ()
  ends := fun _ => True

theorem lookup_follows (p : Program (Cmd T S Q) (Cmd.Reply δ A) ε α) (x : Txn δ) :
    (lookup : Script T S Q A δ ε (Txn δ) Unit).Follows (fun _ _ => True) p x := by
  induction p generalizing x with
  | ret a => exact trivial
  | raise e => exact trivial
  | call m k ih => exact ⟨trivial, fun r => ih r _⟩

theorem lookup_tracks :
    Watched.Tracks (lookup : Script T S Q A δ ε (Txn δ) Unit) id := ⟨rfl, fun _ _ _ => rfl⟩

variable [Store S δ ε Φ] {I : δ → Prop} {P : Txn δ → S → Prop} {R : δ → δ → Prop}

/-- The call whose next command is `m`. -/
theorem called_of_next {s : System T S Q A δ ε} {i : Nat} {m : Cmd T S Q}
    (next : s.next i = some m) : ∃ k block, s.calls[i]? = some ⟨.call m k, block⟩ := by
  rw [System.next] at next
  split at next
  · rename_i m' k block called
    obtain rfl := Option.some.inj next
    exact ⟨k, block, called⟩
  · cases next

/-- A call that comes in looks up what it writes, and no call uses the writer while another is in a
transaction of its own. -/
structure Orderly (I : δ → Prop) (P : Txn δ → S → Prop)
    (w : Watched T S Q A δ ε (Txn δ) Unit) (m : Move T S Q Φ A δ ε) : Prop where
  careful : ∀ p, m = .invoke p → Careful I P p
  alone : Watched.Alone id w m

/-- What an orderly run keeps: `R` leads from `d₀` to the committed rows and on to those of the open
transaction. -/
structure Led (I : δ → Prop) (P : Txn δ → S → Prop) (R : δ → δ → Prop) (d₀ : δ)
    (w : Watched T S Q A δ ε (Txn δ) Unit) : Prop where
  sound : Watched.Sound lookup w
  exclusive : Watched.Exclusive id w
  looks : ∀ (i : Nat) c x, w.system.calls[i]? = some c → w.marks[i]? = some x → LooksUp I P x c.rest
  chained : Chained R I d₀ w.system.conn

theorem Led.init (refl : ∀ d, R d d) {d : δ} (h : I d) :
    Led I P R d (Watched.init d () : Watched T S Q A δ ε (Txn δ) Unit) where
  sound := Watched.Sound.init d ()
  exclusive := Watched.Exclusive.init d ()
  looks := fun _ _ _ none => by cases none
  chained := ⟨refl d, refl d, h, h⟩

section Runs

variable (refl : ∀ d, R d d) (trans : ∀ d d' d'', R d d' → R d' d'' → R d d'')
variable (stmt : ∀ x s d d' n, P x s → (∀ e, x = .looked e → d = e) → I d →
  Store.apply s d = .ok (d', n) → R d d' ∧ I d')
include refl trans stmt

theorem Led.step {d₀ : δ} {w : Watched T S Q A δ ε (Txn δ) Unit} (led : Led I P R d₀ w)
    {m : Move T S Q Φ A δ ε} (orderly : Orderly I P w m) : Led I P R d₀ (w.step lookup m) := by
  have sound : Watched.Sound lookup (w.step lookup m) :=
    led.sound.step fun p _ => lookup_follows p _
  have exclusive := led.exclusive.step lookup_tracks led.sound orderly.alone
  refine ⟨sound, exclusive, ?_, ?_⟩
  · intro i c x call mark
    cases m with
    | crash => cases call
    | invoke p =>
      simp only [Watched.step, System.step] at call mark
      by_cases here : i < w.system.calls.length
      · rw [List.getElem?_append_left here] at call
        rw [List.getElem?_append_left (by rw [led.sound.paired]; exact here)] at mark
        exact led.looks i c x call mark
      · rw [List.getElem?_append_right (Nat.le_of_not_lt here)] at call
        have last := List.mem_singleton.mp (List.mem_of_getElem? call)
        rw [last]
        exact orderly.careful p rfl x
    | act j o =>
      rcases led.sound.acted j o with same | ⟨q, m, acted, -⟩
      · rw [same] at call mark
        exact led.looks i c x call mark
      · obtain ⟨k, block, called⟩ := called_of_next acted.next
        rw [acted.marks] at mark
        have calls : (w.step lookup (.act j o)).system.calls =
            w.system.calls.set j ⟨k (w.system.conn.act m (o m)).1,
              m.blockAfter block (w.system.conn.act m (o m)).1⟩ := by
          simp only [Watched.step, acted.next, acted.was.1, System.step, called]
        rw [calls] at call
        by_cases own : i = j
        · subst own
          rw [List.getElem?_set_self (List.getElem?_eq_some_iff.mp called).1] at call
          rw [List.getElem?_set_self (List.getElem?_eq_some_iff.mp acted.was.1).1] at mark
          rw [← Option.some.inj call, ← Option.some.inj mark]
          exact (led.looks i _ q called acted.was.1).2 w.system.conn (o m) led.chained.2.2.1
            led.chained.2.2.2
        · rw [List.getElem?_set_ne (Ne.symm own)] at call mark
          exact led.looks i c x call mark
  · cases m with
    | invoke p => exact led.chained
    | crash => exact ⟨led.chained.1, refl _, led.chained.2.2.1, led.chained.2.2.1⟩
    | act j o =>
      rcases led.sound.acted j o with same | ⟨q, m, acted, -⟩
      · rw [same]
        exact led.chained
      · rw [acted.conn]
        refine led.chained.act (C := fun _ _ => True) refl trans ?_ ?_
        · cases m <;> first | exact trivial | (generalize o _ = r; cases r <;> exact trivial)
        · intro t s d' n written _ applied
          subst written
          obtain ⟨k, block, called⟩ := called_of_next acted.next
          have looks : P q s := (led.looks j _ q called acted.was.1).1 t s rfl
          exact stmt q s _ d' n looks (fun e saw => led.exclusive.looked j q e acted.was.1 saw)
            led.chained.2.2.2 applied

theorem Led.run {d₀ : δ} {w w' : Watched T S Q A δ ε (Txn δ) Unit} (led : Led I P R d₀ w)
    (run : Watched.Run lookup
      (Orderly I P : Watched T S Q A δ ε (Txn δ) Unit → Move T S Q Φ A δ ε → Prop) w w') :
    Led I P R d₀ w' := by
  induction run with
  | start => exact led
  | step m _ orderly ih => exact ih.step refl trans stmt orderly

/-- From any point of an orderly run `R` leads to the rows committed later. -/
theorem Led.later {d₀ : δ} {w w' : Watched T S Q A δ ε (Txn δ) Unit} (led : Led I P R d₀ w)
    (run : Watched.Run lookup
      (Orderly I P : Watched T S Q A δ ε (Txn δ) Unit → Move T S Q Φ A δ ε → Prop) w w') :
    R w.system.conn.committed w'.system.conn.committed := by
  have here : Led I P R w.system.conn.committed w :=
    ⟨led.sound, led.exclusive, led.looks, refl _, led.chained.2⟩
  exact (here.run refl trans stmt run).chained.1

end Runs

end McManager.Framework
