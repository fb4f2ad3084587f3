import McManager.Framework.Interleaving

namespace McManager.Framework

variable {T S Q Φ : Type} {A : Q → Type} {δ ε α β σ τ : Type}

/-- What a call has seen so far, its mark, decides which commands it may run next. A command and
its reply lead to the next mark, and are counted in a tally of all calls. -/
structure Script (T S Q : Type) (A : Q → Type) (δ ε σ τ : Type) where
  start : σ
  allows : σ → Cmd T S Q → Prop
  next : σ → (m : Cmd T S Q) → Except ε (m.Reply δ A) → σ
  count : τ → σ → (m : Cmd T S Q) → Except ε (m.Reply δ A) → τ
  ends : σ → Prop

namespace Script

variable (W : Script T S Q A δ ε σ τ)

def rule (m : Cmd T S Q) (q : σ) (P : Except ε (m.Reply δ A) → σ → Prop) : Prop :=
  W.allows q m ∧ ∀ r, P r (W.next q m r)

/-- The program keeps to the script from the mark `q` on, and ends with `P`. -/
def Follows (P : Except ε α → σ → Prop) (p : Program (Cmd T S Q) (Cmd.Reply δ A) ε α) (q : σ) :
    Prop :=
  p.post W.rule P q

variable {W} {P : Except ε α → σ → Prop} {q : σ}

theorem rule_monotone : Program.Monotone W.rule :=
  fun _ _ _ _ weaken h => ⟨h.1, fun r => weaken _ _ (h.2 r)⟩

theorem Follows.mono {P' : Except ε α → σ → Prop} {p : Program (Cmd T S Q) (Cmd.Reply δ A) ε α}
    (weaken : ∀ r q, P r q → P' r q) (h : W.Follows P p q) : W.Follows P' p q :=
  Program.post_mono rule_monotone weaken p q h

theorem Follows.bind {P' : Except ε β → σ → Prop} {p : Program (Cmd T S Q) (Cmd.Reply δ A) ε α}
    {f : α → Program (Cmd T S Q) (Cmd.Reply δ A) ε β} (hp : W.Follows P p q)
    (next : ∀ a q', P (.ok a) q' → W.Follows P' (f a) q')
    (left : ∀ e q', P (.error e) q' → P' (.error e) q') : W.Follows P' (p.bind f) q := by
  rw [Follows, Program.post_bind]
  apply Program.post_mono rule_monotone _ p q hp
  intro r q' h
  cases r with
  | ok a => exact next a q' h
  | error e => exact left e q' h

theorem Follows.handle {P' : Except ε α → σ → Prop}
    {p : Program (Cmd T S Q) (Cmd.Reply δ A) ε α}
    {f : ε → Program (Cmd T S Q) (Cmd.Reply δ A) ε α} (hp : W.Follows P p q)
    (kept : ∀ a q', P (.ok a) q' → P' (.ok a) q')
    (caught : ∀ e q', P (.error e) q' → W.Follows P' (f e) q') : W.Follows P' (p.handle f) q := by
  rw [Follows, Program.post_handle]
  apply Program.post_mono rule_monotone _ p q hp
  intro r q' h
  cases r with
  | ok a => exact kept a q' h
  | error e => exact caught e q' h

/-- A program whose commands leave the mark as it is. -/
theorem Follows.confined {R : Cmd T S Q → Prop} {p : Program (Cmd T S Q) (Cmd.Reply δ A) ε α}
    (hp : p.Confined R) (still : ∀ m, R m → W.allows q m ∧ ∀ r, W.next q m r = q) :
    W.Follows (fun _ q' => q' = q) p q := by
  apply hp.post
  intro m P' hm h
  refine ⟨(still m hm).1, ?_⟩
  intro r
  rw [(still m hm).2 r]
  exact h r

theorem Follows.perform {m : Cmd T S Q} {P : Except ε (m.Reply δ A) → σ → Prop}
    (allowed : W.allows q m) (h : ∀ r, P r (W.next q m r)) :
    W.Follows P (Program.perform m) q := by
  refine ⟨allowed, ?_⟩
  intro r
  cases r with
  | ok a => exact h (.ok a)
  | error e => exact h (.error e)

/-- A command whose failure ends the call with `P`. -/
theorem Follows.step {m : Cmd T S Q} {f : m.Reply δ A → Program (Cmd T S Q) (Cmd.Reply δ A) ε α}
    (allowed : W.allows q m) (ok : ∀ a, W.Follows P (f a) (W.next q m (.ok a)))
    (failed : ∀ e, P (.error e) (W.next q m (.error e))) :
    W.Follows P ((Program.perform m).bind f) q := by
  refine ⟨allowed, ?_⟩
  intro r
  cases r with
  | ok a => exact ok a
  | error e => exact failed e

/-- One statement and its commit. -/
theorem Follows.write {t : T} {s : S} {P : Except ε Unit → σ → Prop}
    (runs : W.allows q (.execute t s))
    (failed : ∀ e, P (.error e) (W.next q (.execute t s) (.error e)))
    (commits : ∀ n, W.Follows P (Program.perform (Cmd.commit t))
      (W.next q (.execute t s) (.ok n))) :
    W.Follows P (autocommit t (Body.write s)) q := by
  refine ⟨runs, ?_⟩
  intro r
  cases r with
  | error e => exact failed e
  | ok n =>
    obtain ⟨allowed, ended⟩ := commits n
    refine ⟨allowed, ?_⟩
    intro r
    have h := ended r
    cases r with
    | ok a => exact h
    | error e => exact h

/-- A return leaves the mark `q'`, and an exception one with `E`. -/
def Upon (q' : σ) (E : σ → Prop) : Except ε α → σ → Prop
  | .ok _, q => q = q'
  | .error _, q => E q

theorem Follows.upon {P : Except ε β → σ → Prop} {z : σ} {E : σ → Prop}
    {p : Program (Cmd T S Q) (Cmd.Reply δ A) ε α}
    {f : α → Program (Cmd T S Q) (Cmd.Reply δ A) ε β} (hp : W.Follows (Upon z E) p q)
    (next : ∀ a, W.Follows P (f a) z) (left : ∀ e x, E x → P (.error e) x) :
    W.Follows P (p.bind f) q := by
  apply hp.bind
  · intro a x hx
    rw [show x = z from hx]
    exact next a
  · exact fun e x hx => left e x hx

/-- One statement and its commit, which lead from mark to mark. -/
theorem Follows.written {t : T} {s : S} {q' q'' : σ} {E : σ → Prop}
    (runs : W.allows q (.execute t s)) (ran : ∀ n, W.next q (.execute t s) (.ok n) = q')
    (commits : W.allows q' (.commit t)) (done : W.next q' (.commit t) (.ok ()) = q'')
    (failed : ∀ e, E (W.next q (.execute t s) (.error e)))
    (lost : ∀ e, E (W.next q' (.commit t) (.error e))) :
    W.Follows (Upon q'' E) (autocommit t (Body.write s)) q := by
  apply Follows.write runs failed
  intro n
  rw [ran]
  apply Follows.perform commits
  intro r
  cases r with
  | ok a => exact done
  | error e => exact lost e

/-- A query of a reader and what the program makes of the rows. -/
theorem Follows.read {t : T} {f : δ → α} {g : α → Program (Cmd T S Q) (Cmd.Reply δ A) ε β}
    {P : Except ε β → σ → Prop} (allowed : W.allows q (.read t))
    (ok : ∀ d, W.Follows P (g (f d)) (W.next q (.read t) (.ok d)))
    (failed : ∀ e, P (.error e) (W.next q (.read t) (.error e))) :
    W.Follows P ((readCommitted t f).bind g) q := by
  refine ⟨allowed, ?_⟩
  intro r
  cases r with
  | ok d => exact ok d
  | error e => exact failed e

end Script

/-- Calls on one connection, the mark of each, and the tally. -/
structure Watched (T S Q : Type) (A : Q → Type) (δ ε σ τ : Type) where
  system : System T S Q A δ ε
  marks : List σ
  tally : τ

variable [Store S δ ε Φ]

/-- What a change at one place does to a count. -/
theorem countP_set {α : Type} {p : α → Bool} {l : List α} {i : Nat} {a b : α}
    (h : l[i]? = some a) :
    (l.set i b).countP p + (p a).toNat = l.countP p + (p b).toNat := by
  induction l generalizing i with
  | nil => cases h
  | cons x l ih =>
    cases i with
    | zero =>
      have head : x = a := Option.some.inj h
      rw [List.set_cons_zero, List.countP_cons, List.countP_cons, head]
      cases p a <;> cases p b <;> simp
    | succ i =>
      have tail := ih h
      rw [List.set_cons_succ, List.countP_cons, List.countP_cons]
      omega

/-- A change at one place leaves the other values in the list. -/
theorem mem_set_of_ne {α : Type} {l : List α} {i : Nat} {a b x : α} (h : l[i]? = some a)
    (hx : x ∈ l) (other : x ≠ a) : x ∈ l.set i b := by
  obtain ⟨j, hj⟩ := List.mem_iff_getElem?.mp hx
  have apart : i ≠ j := by
    intro same
    rw [same, hj] at h
    exact other (Option.some.inj h)
  apply List.mem_of_getElem? (i := j)
  rw [List.getElem?_set_ne apart, hj]

namespace Watched

variable (W : Script T S Q A δ ε σ τ)

def init (d : δ) (tally : τ) : Watched T S Q A δ ε σ τ := ⟨.init d, [], tally⟩

/-- A call begins at the start of its script; the marks of a dead process are lost. -/
def step (w : Watched T S Q A δ ε σ τ) : Move T S Q Φ A δ ε → Watched T S Q A δ ε σ τ
  | .invoke p => ⟨w.system.step (.invoke p : Move T S Q Φ A δ ε), w.marks ++ [W.start], w.tally⟩
  | .crash => ⟨w.system.step (.crash : Move T S Q Φ A δ ε), [], w.tally⟩
  | .act i o =>
    match w.system.next i, w.marks[i]? with
    | some m, some q =>
      let r := (w.system.conn.act m (o m)).1
      ⟨w.system.step (.act i o), w.marks.set i (W.next q m r), W.count w.tally q m r⟩
    | _, _ => w

inductive Run (ok : Watched T S Q A δ ε σ τ → Move T S Q Φ A δ ε → Prop)
    (w₀ : Watched T S Q A δ ε σ τ) : Watched T S Q A δ ε σ τ → Prop
  | start : Run ok w₀ w₀
  | step {w : Watched T S Q A δ ε σ τ} (m : Move T S Q Φ A δ ε) :
    Run ok w₀ w → ok w m → Run ok w₀ (w.step W m)

/-- The moves one after another. -/
def play (ms : List (Move T S Q Φ A δ ε)) (w : Watched T S Q A δ ε σ τ) :
    Watched T S Q A δ ε σ τ :=
  ms.foldl (fun w m => w.step W m) w

/-- Every call keeps to the script from its mark on. -/
structure Sound (w : Watched T S Q A δ ε σ τ) : Prop where
  paired : w.marks.length = w.system.calls.length
  follows : ∀ (i : Nat) (c : Call T S Q A δ ε) (q : σ), w.system.calls[i]? = some c →
    w.marks[i]? = some q → W.Follows (fun _ => W.ends) c.rest q

/-- Call `i` is in progress and has the mark `q`. -/
def At (w : Watched T S Q A δ ε σ τ) (i : Nat) (q : σ) : Prop :=
  w.marks[i]? = some q ∧ (w.system.next i).isSome = true

/-- A move of call `i`: its command is one the script allows. -/
structure Acted (w w' : Watched T S Q A δ ε σ τ) (i : Nat) (q : σ) (m : Cmd T S Q)
    (o : m.Outcome Φ A) : Prop where
  was : w.At i q
  next : w.system.next i = some m
  allowed : W.allows q m
  conn : w'.system.conn = (w.system.conn.act m o).2
  marks : w'.marks = w.marks.set i (W.next q m (w.system.conn.act m o).1)
  tally : w'.tally = W.count w.tally q m (w.system.conn.act m o).1
  others : ∀ j, j ≠ i → w'.system.next j = w.system.next j

variable {W}

theorem Run.play {ok : Watched T S Q A δ ε σ τ → Move T S Q Φ A δ ε → Prop}
    {w₀ w : Watched T S Q A δ ε σ τ} (ms : List (Move T S Q Φ A δ ε))
    (moves : ∀ w, ∀ m ∈ ms, ok w m) (h : Run W ok w₀ w) : Run W ok w₀ (w.play W ms) := by
  induction ms generalizing w with
  | nil => exact h
  | cons m ms ih =>
    apply ih fun w' m' hm' => moves w' m' (List.mem_cons_of_mem m hm')
    exact h.step m (moves w m (List.mem_cons_self ..))

theorem Sound.init (d : δ) (tally : τ) : Sound W (init d tally) :=
  ⟨rfl, fun _ _ _ h => (nomatch h)⟩

/-- A call that has ended has a mark the script may end with. -/
theorem Sound.inProgress {w : Watched T S Q A δ ε σ τ} (h : Sound W w) {i : Nat} {q : σ}
    (mark : w.marks[i]? = some q) (going : ¬W.ends q) : w.At i q := by
  refine ⟨mark, ?_⟩
  have hi : i < w.system.calls.length := by
    rw [← h.paired]
    exact (List.getElem?_eq_some_iff.mp mark).1
  have follows := h.follows i _ q (List.getElem?_eq_getElem hi) mark
  simp only [System.next, List.getElem?_eq_getElem hi]
  generalize w.system.calls[i] = c at follows ⊢
  obtain ⟨rest, block⟩ := c
  cases rest with
  | ret a => exact absurd follows going
  | raise e => exact absurd follows going
  | call m k => rfl

/-- The next command of a call is one the script allows at its mark. -/
theorem Sound.allowed {w : Watched T S Q A δ ε σ τ} (h : Sound W w) {i : Nat} {m : Cmd T S Q}
    (next : w.system.next i = some m) : ∃ q, w.marks[i]? = some q ∧ W.allows q m := by
  cases hcall : w.system.calls[i]? with
  | none =>
    rw [System.next, hcall] at next
    cases next
  | some c =>
    obtain ⟨rest, block⟩ := c
    have hi : i < w.marks.length := by
      rw [h.paired]
      exact (List.getElem?_eq_some_iff.mp hcall).1
    have mark : w.marks[i]? = some w.marks[i] := List.getElem?_eq_getElem hi
    refine ⟨_, mark, ?_⟩
    have follows := h.follows i _ _ hcall mark
    rw [System.next, hcall] at next
    cases rest with
    | ret a => cases next
    | raise e => cases next
    | call m' k =>
      cases next
      exact follows.1

/-- What one move of a call does, if it does anything. -/
theorem Sound.acted {w : Watched T S Q A δ ε σ τ} (h : Sound W w) (i : Nat)
    (o : (m : Cmd T S Q) → m.Outcome Φ A) :
    w.step W (.act i o) = w ∨
      ∃ q m, Acted W w (w.step W (.act i o)) i q m (o m) ∧ Sound W (w.step W (.act i o)) := by
  cases hcall : w.system.calls[i]? with
  | none =>
    left
    have none' : w.system.next i = none := by rw [System.next, hcall]
    simp only [step, none']
  | some c =>
    obtain ⟨rest, block⟩ := c
    have hi : i < w.system.calls.length := (List.getElem?_eq_some_iff.mp hcall).1
    cases rest with
    | ret a =>
      left
      have none' : w.system.next i = none := by rw [System.next, hcall]
      simp only [step, none']
    | raise e =>
      left
      have none' : w.system.next i = none := by rw [System.next, hcall]
      simp only [step, none']
    | call m k =>
      right
      have hnext : w.system.next i = some m := by rw [System.next, hcall]
      obtain ⟨q, hq⟩ : ∃ q, w.marks[i]? = some q :=
        ⟨_, List.getElem?_eq_getElem (by rw [h.paired]; exact hi)⟩
      have follows := h.follows i _ q hcall hq
      have stepped : w.step W (.act i o) =
          ⟨w.system.step (.act i o), w.marks.set i (W.next q m (w.system.conn.act m (o m)).1),
            W.count w.tally q m (w.system.conn.act m (o m)).1⟩ := by
        simp only [step, hnext, hq]
      refine ⟨q, m, ?_, ?_⟩
      · rw [stepped]
        refine ⟨⟨hq, by rw [hnext]; rfl⟩, hnext, follows.1, ?_, rfl, rfl, ?_⟩
        · simp only [System.step, hcall]
        · intro j hj
          simp only [System.step, hcall, System.next]
          rw [List.getElem?_set_ne hj.symm]
      · rw [stepped]
        constructor
        · simp only [System.step, hcall, List.length_set]
          exact h.paired
        · intro j c' q' hc' hq'
          simp only [System.step, hcall] at hc' hq'
          by_cases hj : j = i
          · subst hj
            rw [List.getElem?_set_self hi] at hc'
            rw [List.getElem?_set_self (by rw [h.paired]; exact hi)] at hq'
            rw [← Option.some.inj hc', ← Option.some.inj hq']
            exact follows.2 _
          · rw [List.getElem?_set_ne (Ne.symm hj)] at hc' hq'
            exact h.follows j c' q' hc' hq'

theorem Sound.invoke {w : Watched T S Q A δ ε σ τ} (h : Sound W w)
    {p : Program (Cmd T S Q) (Cmd.Reply δ A) ε Unit}
    (follows : W.Follows (fun _ => W.ends) p W.start) :
    Sound W (w.step W (.invoke p : Move T S Q Φ A δ ε)) := by
  constructor
  · simp only [step, System.step, List.length_append, List.length_singleton, h.paired]
  · intro i c q hc hq
    simp only [step, System.step] at hc hq
    by_cases hi : i < w.system.calls.length
    · rw [List.getElem?_append_left hi] at hc
      rw [List.getElem?_append_left (by rw [h.paired]; exact hi)] at hq
      exact h.follows i c q hc hq
    · have len := h.paired
      have last : i = w.system.calls.length := by
        have := (List.getElem?_eq_some_iff.mp hc).1
        simp only [List.length_append, List.length_singleton] at this
        omega
      subst last
      rw [List.getElem?_append_right (Nat.le_refl _), Nat.sub_self] at hc
      rw [← len, List.getElem?_append_right (Nat.le_refl _), Nat.sub_self] at hq
      rw [← Option.some.inj hc, ← Option.some.inj hq]
      exact follows

theorem Sound.step {w : Watched T S Q A δ ε σ τ} (h : Sound W w) {m : Move T S Q Φ A δ ε}
    (invoked : ∀ p, m = .invoke p → W.Follows (fun _ => W.ends) p W.start) :
    Sound W (w.step W m) := by
  cases m with
  | invoke p => exact h.invoke (invoked p rfl)
  | crash => exact ⟨rfl, fun _ _ _ h => (nomatch h)⟩
  | act i o =>
    obtain same | ⟨q, m, -, sound⟩ := h.acted i o
    · rw [same]
      exact h
    · exact sound

/-- An invariant that moves keep when all calls keep to the script. -/
theorem Run.invariant {J : Watched T S Q A δ ε σ τ → Prop}
    {ok : Watched T S Q A δ ε σ τ → Move T S Q Φ A δ ε → Prop}
    (invoked : ∀ w m, ok w m → ∀ p, m = .invoke p → W.Follows (fun _ => W.ends) p W.start)
    (keeps : ∀ w m, Sound W w → Sound W (w.step W m) → J w → ok w m → J (w.step W m))
    {w₀ w : Watched T S Q A δ ε σ τ} (sound : Sound W w₀) (start : J w₀) (h : Run W ok w₀ w) :
    Sound W w ∧ J w := by
  induction h with
  | start => exact ⟨sound, start⟩
  | step m _ hok ih =>
    have next := ih.1.step (invoked _ m hok)
    exact ⟨next, keeps _ m ih.1 next ih.2 hok⟩

end Watched

end McManager.Framework
