import McManager.Framework.Frame

/-! What a program leaves alone: entries of the log it never makes, and answers it never gets. -/

namespace McManager.Framework

variable {T S Q Φ : Type} {A : Q → Type} {δ ε α ν : Type}

/-- The command asks none of the questions `asks`. -/
def Cmd.Quiet (asks : Q → Prop) : Cmd T S Q → Prop
  | .ask q => ¬asks q
  | _ => True

namespace Program.Confined

variable {asks : Q → Prop} {t : T}

theorem quiet_read {f : δ → α} :
    (readCommitted t f : Program (Cmd T S Q) (Cmd.Reply δ A) ε α).Confined (Cmd.Quiet asks) :=
  query trivial

theorem quiet_draw {q : Q} :
    (draw q : Program (Cmd T S Q) (Cmd.Reply δ A) ε (A q)).Confined (Cmd.Quiet asks) :=
  perform trivial

/-- A guarded block asks nothing. -/
theorem quiet_transaction {b : Body S δ ε α} :
    (transaction t b : Program (Cmd T S Q) (Cmd.Reply δ A) ε α).Confined (Cmd.Quiet asks) := by
  have within : b.Within (fun _ => True) fun _ => True := by
    induction b with
    | ret a => exact trivial
    | raise e => exact trivial
    | select k ih => exact fun d _ => ih d
    | execute s k ih => exact ⟨trivial, ih⟩
  have run : (Framework.autocommit t b : Program (Cmd T S Q) (Cmd.Reply δ A) ε α).Confined
      (Cmd.Quiet asks) := autocommit within trivial (fun _ _ => trivial) trivial
  apply handle
  · exact bind (perform trivial) fun _ => run
  · exact fun _ => bind (perform trivial) fun _ => trivial

end Program.Confined

/-- The entries of a log about the answers to `asks`. -/
structure Entries (asks : Q → Prop) (entry : Note T Q Φ A → Option ν) : Prop where
  failed : ∀ t, entry (.failed t) = none
  committed : ∀ t, entry (.committed t) = none
  answered : ∀ q o, ¬asks q → entry (.answered q o) = none

theorem Entries.note {asks : Q → Prop} {entry : Note T Q Φ A → Option ν}
    (entries : Entries asks entry) {m : Cmd T S Q} (quiet : m.Quiet asks) (o : m.Outcome Φ A) :
    (m.note o).filterMap entry = [] := by
  cases m with
  | ask q => simp [Cmd.note, entries.answered q o quiet]
  | draw q => rfl
  | rollback => rfl
  | begin t => cases o <;> simp [Cmd.note, entries.failed]
  | execute t s => cases o <;> simp [Cmd.note, entries.failed]
  | select t => cases o <;> simp [Cmd.note, entries.failed]
  | commit t => cases o <;> simp [Cmd.note, entries.failed, entries.committed]
  | read t => cases o <;> simp [Cmd.note, entries.failed]

variable [Store S δ ε Φ]

namespace Triple

variable {E E' : Scope T Q Φ A δ} {P P' : Session T Q Φ A δ → Prop}
  {K K' : α → Session T Q Φ A δ → Prop} {L L' : ε → Session T Q Φ A δ → Prop}
  {p : Program (Cmd T S Q) (Cmd.Reply δ A) ε α}

/-- A program makes no entry about questions it does not ask. -/
theorem quiet {asks : Q → Prop} {entry : Note T Q Φ A → Option ν} (entries : Entries asks entry)
    (h : p.Confined (Cmd.Quiet asks)) (l : List ν) :
    Triple E (fun x => x.log.filterMap entry = l) (fun _ x => x.log.filterMap entry = l)
      (fun _ x => x.log.filterMap entry = l) p := by
  intro x hx
  induction p generalizing x with
  | ret a => exact hx
  | raise e => exact hx
  | call m k ih =>
    intro o _
    apply ih _ (h.2 _)
    have silent := entries.note h.1 o
    change (x.log ++ m.note o).filterMap entry = l
    rw [List.filterMap_append, silent, List.append_nil, hx]

/-- In a narrower world a program ends as in a wider one. -/
theorem narrow (sub : ∀ x (m : Cmd T S Q) o, E'.allowed x m o → E.allowed x m o)
    (h : Triple E P K L p) : Triple E' P K L p := by
  intro x hx
  have wide := h x hx
  clear h hx
  induction p generalizing x with
  | ret a => exact wide
  | raise e => exact wide
  | call m k ih => exact fun o ho => ih _ _ (wide o (sub x m o ho))

theorem both (h : Triple E P K L p) (h' : Triple E P' K' L' p) :
    Triple E (fun x => P x ∧ P' x) (fun a x => K a x ∧ K' a x) (fun e x => L e x ∧ L' e x) p := by
  intro x hx
  refine wp_mono (wp_and (h x hx.1) (h' x hx.2)) ?_
  intro r y ends
  cases r with
  | ok a => exact ends
  | error e => exact ends

end Triple

end McManager.Framework
