import McManager.Services.EulaScript
import McManager.Services.WorldFrames

namespace McManager.Worlds

open Framework Operations Script

variable {q : EulaMark} {α β : Type}

theorem EulaStage.told_idle (m : EulaCommand) (a : m.Reply Database Answer) :
    EulaStage.idle.told m a = .idle := by
  unfold told
  split <;> rfl

theorem EulaStage.told_gated (worldId : String) (m : EulaCommand) (a : m.Reply Database Answer) :
    (EulaStage.gated worldId).told m a = .gated worldId := by
  unfold told
  split <;> rfl

/-- The stage of a call outside a transaction that runs no statement. -/
theorem aside_next (h : Plain q) {m : EulaCommand} (aside : Neutral m)
    (r : Except Exn (m.Reply Database Answer)) : eula.allows q m ∧ (eula.next q m r).txn = .outside ∧
      (eula.next q m r).stage = match r with | .ok a => q.stage.told m a | .error _ => q.stage := by
  obtain ⟨txn, last, own, stage⟩ := q
  obtain ⟨outside, plain⟩ := h
  dsimp only at outside plain
  subst outside
  cases m with
  | read t =>
    refine ⟨trivial, ?_⟩
    cases r with
    | ok d => exact ⟨rfl, rfl⟩
    | error e => exact ⟨rfl, EulaStage.failed_plain plain⟩
  | draw d =>
    refine ⟨trivial, ?_⟩
    cases r with
    | ok a => exact ⟨rfl, rfl⟩
    | error e => exact ⟨rfl, EulaStage.failed_plain plain⟩
  | ask d =>
    constructor
    · cases d <;> first | exact trivial | exact aside.elim
    · cases r with
      | ok a => exact ⟨rfl, rfl⟩
      | error e => exact ⟨rfl, EulaStage.failed_plain plain⟩
  | begin t => exact aside.elim
  | execute t s => exact aside.elim
  | select t => exact aside.elim
  | commit t => exact aside.elim
  | rollback => exact aside.elim

theorem plain_aside (h : Plain q) {m : EulaCommand} (aside : Neutral m)
    (r : Except Exn (m.Reply Database Answer)) : Plain (eula.next q m r) := by
  obtain ⟨-, outside, stage⟩ := aside_next h aside r
  refine ⟨outside, ?_⟩
  rw [stage]
  cases r with
  | ok a => exact EulaStage.told_plain h.plain m a
  | error e => exact h.plain

section Quiet

variable {p : Prog α}

theorem follows_aside (hp : p.Confined Neutral) (h : Plain q) : eula.Follows (fun _ => Plain) p q := by
  apply Follows.within hp _ h
  intro q m h aside
  exact ⟨(aside_next h aside (.error .nestedTransaction)).1, plain_aside h aside⟩

/-- A call outside a transaction, at the stage `y`. -/
structure Stands (y : EulaStage) (q : EulaMark) : Prop where
  outside : q.txn = .outside
  stage : q.stage = y

theorem Stands.plain {y : EulaStage} (h : Stands y q) (plain : y.plain = true) : Plain q :=
  ⟨h.outside, by rw [h.stage]; exact plain⟩

/-- Nothing such a program is told changes a stage that does not listen. -/
theorem follows_standing {y : EulaStage} (plain : y.plain = true)
    (deaf : ∀ (m : EulaCommand) (a : m.Reply Database Answer), y.told m a = y)
    (hp : p.Confined Neutral) (h : Stands y q) : eula.Follows (fun _ => Stands y) p q := by
  apply Follows.within hp _ h
  intro q m h aside
  refine ⟨(aside_next (h.plain plain) aside (.error .nestedTransaction)).1, ?_⟩
  intro r
  obtain ⟨-, outside, stage⟩ := aside_next (h.plain plain) aside r
  refine ⟨outside, ?_⟩
  rw [stage, h.stage]
  cases r with
  | ok a => exact deaf m a
  | error e => rfl

end Quiet

/-- A value is drawn, or the call ends; neither leaves a transaction open. -/
theorem follows_draw {P : Except Exn β → EulaMark → Prop} {d : Query} {f : Answer d → Prog β}
    (outside : q.txn = .outside) (left : q.stage.failed.plain = true)
    (next : ∀ a, eula.Follows P (f a) q) (lost : ∀ e q', Plain q' → P (.error e) q') :
    eula.Follows P ((draw d).bind f) q := by
  obtain ⟨txn, last, own, stage⟩ := q
  dsimp only at outside
  subst outside
  apply Follows.step trivial
  · exact next
  · intro e
    exact lost e _ ⟨rfl, left⟩

/-- A query of a reader that the stage does not depend on. -/
theorem follows_read {P : Except Exn β → EulaMark → Prop} {t : Site} {g : Database → α}
    {f : α → Prog β} (h : Plain q) (ht : t ≠ .launchRead) (ht' : t ≠ .worldRead)
    (next : ∀ d, eula.Follows P (f (g d)) q) (lost : ∀ e q', Plain q' → P (.error e) q') :
    eula.Follows P ((read t g).bind f) q := by
  obtain ⟨txn, last, own, stage⟩ := q
  obtain ⟨outside, plain⟩ := h
  dsimp only at outside plain
  subst outside
  apply Follows.read trivial
  · intro d
    have same : eula.next ⟨.outside, last, own, stage⟩ (.read t : EulaCommand) (.ok d) =
        ⟨.outside, last, own, stage⟩ := by
      cases t <;> first | rfl | contradiction
    rw [same]
    exact next d
  · intro e
    apply lost
    refine ⟨rfl, ?_⟩
    rw [← EulaStage.failed_plain plain] at plain
    exact plain

section Blocks

/-- The statements that report what has become of an operation. -/
def Reported : Stmt → Prop
  | .insertAudit row => row.eventType ≠ .worldEulaAccepted
  | .insertNotification _ => True
  | _ => False

/-- The statements that admit an operation. -/
def Admitted : Stmt → Prop
  | .insertOperation _ | .cancelOperation _ _ _ => True
  | s => Reported s

theorem reports_reported : Reports Reported where
  audit := by
    intro row opType status h
    change row.eventType ≠ _
    rw [h]
    exact AuditEvent.noConfusion
  notification := fun _ => trivial

theorem admits_admitted : Admits Admitted fun _ => True where
  audit := reports_reported.audit
  notification := fun _ => trivial
  insert := fun _ _ => trivial
  cancel := fun _ _ _ => trivial

/-- A call is in a transaction of its own, at the stage `y`. -/
structure Underway (last : Option Database) (own : Option Operation) (y : EulaStage)
    (q : EulaMark) : Prop where
  opened : q.txn.Open
  last : q.last = last
  own : q.own = own
  stage : q.stage = y

variable {last : Option Database} {own : Option Operation} {y : EulaStage} {t : Site}

theorem Underway.select (h : Underway last own y q) (d : Database) :
    Underway last own y (eula.next q (.select t : EulaCommand) (.ok d)) := by
  obtain ⟨txn, last', own', stage⟩ := q
  obtain ⟨opened, rfl, rfl, rfl⟩ := h
  cases txn with
  | outside => exact opened.elim
  | inside => exact ⟨trivial, rfl, rfl, rfl⟩
  | looked d' => exact ⟨trivial, rfl, rfl, rfl⟩

theorem Underway.looked (h : Underway last own y q) (d : Database) :
    (eula.next q (.select t : EulaCommand) (.ok d)).txn = .looked d := by
  obtain ⟨txn, last', own', stage⟩ := q
  obtain ⟨opened, rfl, rfl, rfl⟩ := h
  cases txn with
  | outside => exact opened.elim
  | inside => rfl
  | looked d' => rfl

theorem Underway.execute (h : Underway last own y q) (s : Stmt) (n : Nat) :
    Underway last (EulaMark.ownAfter own (.execute t s : EulaCommand) (.ok n)) (y.written s)
      (eula.next q (.execute t s : EulaCommand) (.ok n)) := by
  obtain ⟨txn, last', own', stage⟩ := q
  obtain ⟨opened, rfl, rfl, rfl⟩ := h
  cases txn with
  | outside => exact opened.elim
  | inside => exact ⟨trivial, rfl, rfl, rfl⟩
  | looked d' => exact ⟨trivial, rfl, rfl, rfl⟩

/-- Only its status counts of an update. -/
theorem Underway.update (h : Underway last own y q) {opId : String} {status : OperationStatus}
    {checkpoint : Option Checkpoint} {startedAt finishedAt : Option Int}
    {errorCode message : Option String} {data : Option OperationData} {now : Int} (n : Nat) :
    Underway last own (y.written (.updateOperation "" status none none none none none none 0))
      (eula.next q (.execute t (.updateOperation opId status checkpoint startedAt finishedAt
        errorCode message data now) : EulaCommand) (.ok n)) :=
  h.execute (.updateOperation opId status checkpoint startedAt finishedAt errorCode message data now)
    n

/-- The commit of a transaction. -/
theorem Underway.commit (h : Underway last own y q) :
    eula.next q (.commit t : EulaCommand) (.ok ()) = ⟨.outside, last, own, y.committed⟩ := by
  obtain ⟨txn, last', own', stage⟩ := q
  obtain ⟨opened, rfl, rfl, rfl⟩ := h
  cases txn with
  | outside => exact opened.elim
  | inside => rfl
  | looked d' => rfl

theorem plain_rollback (q : EulaMark) (r : Except Exn Unit) :
    Plain (eula.next q (.rollback : EulaCommand) r) := by
  obtain ⟨txn, last, own, stage⟩ := q
  constructor
  · cases txn <;> cases r <;> rfl
  · cases r <;> exact stage.rolledBack_plain

/-- Reports leave a transaction where it stands. -/
theorem follows_reported {b : Block α} (within : b.Within (fun _ => True) Reported)
    (h : Underway last own y q) :
    eula.Follows (Leaves (fun _ => Underway last own y) fun _ => True) (b.lift t) q := by
  apply Follows.lift within
  · exact fun q h => ⟨trivial, h.select, fun _ => trivial⟩
  · intro q s h hs
    refine ⟨?_, ?_, fun _ => trivial⟩
    · cases s with
      | insertAudit row => exact fun same => absurd same hs
      | insertNotification row => exact trivial
      | _ => exact hs.elim
    · intro n
      have next := h.execute (t := t) s n
      cases s with
      | insertAudit row => exact next
      | insertNotification row => exact next
      | _ => exact hs.elim
  · exact fun _ _ => trivial
  · exact h

theorem follows_reported_bind {b : Block α} {f : α → Block β} {K : β → EulaMark → Prop}
    (within : b.Within (fun _ => True) Reported) (h : Underway last own y q)
    (next : ∀ a q', Underway last own y q' →
      eula.Follows (Leaves K fun _ => True) ((f a).lift t) q') :
    eula.Follows (Leaves K fun _ => True) ((b.bind f).lift t) q := by
  rw [Body.lift_bind]
  apply (follows_reported within h).bind
  · exact next
  · exact fun _ _ _ => trivial

/-- A guarded transaction of a call ends in a commit or in a rollback. -/
theorem follows_transaction {b : Block α} {P : Except Exn α → EulaMark → Prop}
    {K : α → EulaMark → Prop} (outside : q.txn = .outside)
    (block : ∀ q', Underway q.last q.own q.stage q' →
      eula.Follows (Leaves K fun _ => True) (b.lift t) q')
    (commits : ∀ a q', K a q' → P (.ok a) (eula.next q' (.commit t : EulaCommand) (.ok ())))
    (lost : ∀ e q', Plain q' → P (.error e) q') :
    eula.Follows P (transaction t b) q := by
  apply Follows.transaction (I := fun _ => True) (K := K) trivial (fun _ => trivial)
  · apply block
    obtain ⟨txn, last, own, stage⟩ := q
    dsimp only at outside
    subst outside
    exact ⟨trivial, rfl, rfl, rfl⟩
  · exact fun a q' h => ⟨trivial, commits a q' h, fun _ => trivial⟩
  · intro q' _
    exact ⟨trivial, fun e r => lost e _ (plain_rollback q' r)⟩

end Blocks

/-- The stage after the transition of an operation. -/
def EulaStage.reported (x : EulaStage) (status : OperationStatus) : EulaStage :=
  (x.written (.updateOperation "" status none none none none none none 0)).committed

section Transitions

variable {svc : OperationService} {opId : String} {status : OperationStatus} {m : Milestone}

/-- What an update of an operation asks of the call that runs it. -/
def Owned (q : EulaMark) (opId : String) : Prop :=
  ∀ worldId, q.stage = .opened worldId → ∃ op, q.own = some op ∧ op.opId = opId ∧
    op.opType = .configEdit ∧ op.worldId = some worldId

theorem follows_transitionBlock {cached : Option Checkpoint} {now : Int}
    {auditId notificationId : String} {notifiedAt : Int} {t : Site} {x : EulaMark}
    (milestone : status = .running ∨ status.terminal = true) (owned : Owned q opId)
    (h : Underway q.last q.own q.stage x) :
    eula.Follows (Leaves (fun _ => Underway q.last q.own
        (q.stage.written (.updateOperation "" status none none none none none none 0)))
      fun _ => True)
      ((transitionBlock svc opId status m cached now auditId notificationId notifiedAt).lift t) x := by
  unfold transitionBlock
  apply Follows.selects trivial _ fun _ => trivial
  intro db
  dsimp only [Body.bind_eq, Body.pure_eq, Body.bind, Body.query, Body.write]
  split
  · exact trivial
  · split
    · exact trivial
    · split
      · rename_i none'
        exfalso
        obtain rfl | terminal := milestone
        · exact none'.1 rfl
        · rw [terminal] at none'
          exact absurd none'.2 (by decide)
      · have looked := h.select (t := t) db
        apply Follows.executes _ _ fun _ => trivial
        · refine ⟨looked.opened, ?_⟩
          intro worldId at'
          rw [looked.stage] at at'
          rw [looked.own]
          exact owned worldId at'
        · intro n
          apply Follows.selects trivial _ fun _ => trivial
          intro db'
          generalize ran : eula.next (eula.next _ (.execute t _ : EulaCommand) _) _ _ = x'
          have at' : Underway q.last q.own (q.stage.written
              (.updateOperation "" status none none none none none none 0)) x' := by
            rw [← ran]
            exact (looked.update n).select db'
          split
          · exact trivial
          · split
            · apply follows_reported_bind (writeTerminalAudit_within reports_reported) at'
              intro _ q' h
              split
              · apply follows_reported_bind (publishTerminalOperation_within reports_reported) h
                exact fun _ _ h => h
              · exact h
            · exact at'

theorem follows_publish {P : Except Exn β → EulaMark → Prop} {f : Unit → Prog β} (h : Plain q)
    (next : eula.Follows P (f ()) q) (lost : ∀ e q', Plain q' → P (.error e) q') :
    eula.Follows P ((publishTerminal svc).bind f) q := by
  unfold publishTerminal
  split
  · exact follows_read h (by decide) (by decide) (fun _ => next) lost
  · exact next

theorem follows_transition (outside : q.txn = .outside) (left : q.stage.failed.plain = true)
    (milestone : status = .running ∨ status.terminal = true) (owned : Owned q opId)
    (ends : (q.stage.reported status).plain = true) :
    eula.Follows (Upon { q with stage := q.stage.reported status } Plain)
      (Operations.transition svc opId status m) q := by
  have failed : ∀ (α : Type) (e : Exn) (q' : EulaMark), Plain q' →
      (Upon { q with stage := q.stage.reported status } Plain :
        Except Exn α → EulaMark → Prop) (.error e) q' :=
    fun _ _ _ h => h
  unfold Operations.transition
  apply follows_draw outside left _ (failed _)
  intro now
  apply follows_draw outside left _ (failed _)
  intro cached
  apply follows_draw outside left _ (failed _)
  intro auditId
  apply follows_draw outside left _ (failed _)
  intro notificationId
  apply follows_draw outside left _ (failed _)
  intro notifiedAt
  have block : ∀ q', Underway q.last q.own q.stage q' → eula.Follows (Leaves _ fun _ => True)
      ((transitionBlock svc opId status m cached now auditId notificationId notifiedAt).lift
        (.transition status)) q' :=
    fun q' h => follows_transitionBlock milestone owned h
  have stored := follows_transaction
    (P := Upon { q with stage := q.stage.reported status } Plain) outside block
    (fun a q' h => h.commit.trans (by rw [outside]; rfl)) (failed _)
  apply stored.upon _ fun _ _ h => h
  intro updated
  have done : Plain { q with stage := q.stage.reported status } := ⟨outside, ends⟩
  dsimp only
  split
  · exact follows_publish done rfl (failed _)
  · exact rfl

end Transitions

section States

variable {worldId : String} {state : WorldState} {intent : WorldTransitionIntent}

/-- The stage after a state change. -/
def EulaStage.entered (x : EulaStage) (worldId : String) (state : WorldState)
    (intent : WorldTransitionIntent) : EulaStage :=
  (x.written (.setWorldState worldId state none 0 intent)).committed

theorem EulaStage.entered_plain {x : EulaStage} (h : x.plain = true) :
    (x.entered worldId state .ordinary).plain = true := by
  cases x with
  | gated w =>
    cases state with
    | queued =>
      simp only [entered, written]
      split <;> rfl
    | _ => rfl
  | runs => cases h
  | opening w => cases h
  | opened w => cases h
  | closing w => cases h
  | _ => rfl

theorem follows_setWorldState (h : Plain q) :
    eula.Follows (Upon { q with stage := q.stage.entered worldId state intent } Plain)
      (setWorldState worldId state intent) q := by
  have left : q.stage.failed.plain = true := by
    rw [EulaStage.failed_plain h.plain]
    exact h.plain
  unfold setWorldState
  apply follows_draw h.outside left _ fun _ _ h => h
  intro now
  apply follows_transaction (K := fun _ => Underway q.last q.own
    (q.stage.written (.setWorldState worldId state none 0 intent))) h.outside
  · intro x hx
    unfold setWorldStateBlock
    apply Follows.selects trivial _ fun _ => trivial
    intro db
    have looked := hx.select (t := .setWorldState state) db
    dsimp only [Body.bind_eq, Body.pure_eq, Body.bind, Body.query, Body.write]
    split
    · exact trivial
    · rename_i w hw
      split
      · exact trivial
      · split
        · exact trivial
        · rename_i next hnext
          obtain ⟨-, edge, -, entered, -⟩ := transitionWorld_ok hnext
          apply Follows.executes _ _ fun _ => trivial
          · refine ⟨by rw [looked.stage]; exact h.plain, db, w, hx.looked db, hw, ?_⟩
            rw [entered]
            exact edge
          · intro n
            have done := looked.execute (t := .setWorldState state)
              (.setWorldState worldId next.state next.preBackupState now intent) n
            rw [entered] at done ⊢
            exact done
  · exact fun _ q' h' => h'.commit.trans (by rw [h.outside]; rfl)
  · exact fun _ _ h => h

theorem follows_entered {y : EulaStage} (h : Stands y q) (plain : y.plain = true) :
    eula.Follows (Leaves (fun _ => Stands (y.entered worldId state intent)) Plain)
      (setWorldState worldId state intent) q := by
  apply (follows_setWorldState (h.plain plain)).mono
  intro r q' hq'
  cases r with
  | ok a =>
    rw [show q' = _ from hq', h.stage]
    exact ⟨h.outside, rfl⟩
  | error e => exact hq'

/-- An ordinary state change of any call. -/
theorem follows_ordinary (h : Plain q) :
    eula.Follows (fun _ => Plain) (setWorldState worldId state) q := by
  apply (follows_entered (y := q.stage) ⟨h.outside, rfl⟩ h.plain).mono
  intro r q' hq'
  cases r with
  | ok a => exact hq'.plain (EulaStage.entered_plain h.plain)
  | error e => exact hq'

end States

section Records

variable {t : Site} {s : Stmt}

/-- One statement that no stage depends on, and its commit. -/
theorem follows_autocommit (h : Plain q) (permitted : q.Permits s) (same : ∀ x, EulaStage.written x s = x)
    (kept : ∀ n, EulaMark.ownAfter q.own (.execute t s : EulaCommand) (.ok n) = q.own) :
    eula.Follows (Upon q Plain) (autocommit t (Body.write s)) q := by
  obtain ⟨txn, last, own, stage⟩ := q
  obtain ⟨outside, plain⟩ := h
  dsimp only at outside plain
  subst outside
  have left : stage.failed.plain = true := by
    rw [EulaStage.failed_plain plain]
    exact plain
  have ran : ∀ n, eula.next ⟨.outside, last, own, stage⟩ (.execute t s : EulaCommand) (.ok n) =
      ⟨.outside, last, own, stage⟩ := by
    intro n
    change EulaMark.mk _ _ _ _ = _
    rw [kept n]
    exact congrArg _ (same stage)
  apply Follows.written permitted ran
  · exact trivial
  · exact congrArg (EulaMark.mk _ _ _) (EulaStage.committed_plain plain)
  · exact fun _ => ⟨rfl, left⟩
  · exact fun _ => ⟨rfl, left⟩

end Records

section Creation

variable {svc : OperationService} {request : OperationInput} {initial : OperationStatus}
  {allow : Bool}

theorem follows_published {P : Except Exn β → EulaMark → Prop} {cancelled : List Operation}
    {f : Unit → Prog β} (h : Plain q) (next : eula.Follows P (f ()) q)
    (lost : ∀ e q', Plain q' → P (.error e) q') :
    eula.Follows P ((Program.each (fun _ => publishTerminal svc) cancelled).bind f) q := by
  induction cancelled with
  | nil => exact next
  | cons op rest ih =>
    rw [Program.each, Program.bind_assoc]
    exact follows_publish h ih lost

/-- A new operation: what its transaction leads to holds when the call goes on. -/
theorem follows_createWithReplay {K : Operation → EulaMark → Prop} (h : Plain q)
    (block : ∀ opId auditIds now x, Underway q.last q.own q.stage x → eula.Follows
      (Leaves (fun r x' => K r.1 (eula.next x' (.commit .create : EulaCommand) (.ok ())))
        fun _ => True)
      ((createBlock request initial allow opId auditIds now).lift .create) x)
    (kept : ∀ op q', K op q' → Plain q') :
    eula.Follows (Leaves (fun r => K r.1) Plain) (createWithReplay svc request initial allow) q := by
  have left : q.stage.failed.plain = true := by
    rw [EulaStage.failed_plain h.plain]
    exact h.plain
  unfold createWithReplay
  apply follows_draw h.outside left _ fun _ _ h => h
  intro now
  apply follows_draw h.outside left _ fun _ _ h => h
  intro opId
  apply follows_draw h.outside left _ fun _ _ h => h
  intro auditIds
  have stored := follows_transaction (P := Leaves (fun r : Operation × List Operation × Bool => K r.1) Plain)
    h.outside
    (fun x hx => block opId auditIds now x hx) (fun _ _ hK => hK) fun _ _ h => h
  apply stored.bind
  · intro r q' hK
    have plain := kept _ _ hK
    apply follows_published plain _ fun _ _ h => h
    dsimp only
    split
    · exact follows_read plain (by decide) (by decide) (fun _ => hK) fun _ _ h => h
    · exact hK
  · exact fun _ _ h => h

/-- Any operation leaves the stage as it is. -/
theorem follows_admitted (h : Plain q) :
    eula.Follows (Leaves (fun _ q' => q'.txn = .outside ∧ q'.stage = q.stage) Plain)
      (createWithReplay svc request initial allow) q := by
  apply follows_createWithReplay (K := fun _ q' => q'.txn = .outside ∧ q'.stage = q.stage) h
  · intro opId auditIds now x hx
    have within : (createBlock request initial allow opId auditIds now).Within (fun _ => True) _ :=
      createBlock_within admits_admitted trivial
    have lifted := Follows.lift (W := eula) (t := .create)
      (I := fun x => ∃ own, Underway q.last own q.stage x) (E := fun _ => True) within ?_ ?_
      (fun _ _ => trivial) ⟨q.own, hx⟩
    · apply lifted.mono
      intro r x' hx'
      cases r with
      | ok a =>
        obtain ⟨own, hx'⟩ := hx'
        refine ⟨?_, ?_⟩
        · rw [hx'.commit]
        · rw [hx'.commit]
          exact EulaStage.committed_plain h.plain
      | error e => exact trivial
    · rintro x ⟨own, hx⟩
      exact ⟨trivial, fun d => ⟨own, hx.select d⟩, fun _ => trivial⟩
    · rintro x s ⟨own, hx⟩ hs
      refine ⟨?_, ?_, fun _ => trivial⟩
      · cases s with
        | insertAudit row => exact fun same => absurd same hs
        | insertNotification row => exact trivial
        | insertOperation op => exact trivial
        | cancelOperation opId now errorCode => exact trivial
        | _ => exact hs.elim
      · intro n
        have next := hx.execute (t := .create) s n
        cases s with
        | insertAudit row => exact ⟨_, next⟩
        | insertNotification row => exact ⟨_, next⟩
        | insertOperation op => exact ⟨_, next⟩
        | cancelOperation opId now errorCode => exact ⟨_, next⟩
        | _ => exact hs.elim
  · rintro op q' ⟨outside, stage⟩
    refine ⟨outside, ?_⟩
    rw [stage]
    exact h.plain

/-- Beside another operation of its world an edit is refused. -/
theorem applyConflictPolicy_edit {active : List Operation} {status : OperationStatus} {now : Int}
    (h : request.opType = .configEdit) :
    (∃ admission, admission.cancelled = [] ∧
      applyConflictPolicy request active status now = .ret admission) ∨
      ∃ e, applyConflictPolicy request active status now = .raise e := by
  unfold applyConflictPolicy
  split
  · exact .inl ⟨_, rfl, rfl⟩
  · split
    · exact .inr ⟨_, rfl⟩
    · rw [if_neg (by rw [h]; exact fun same => nomatch same.1)]
      dsimp only
      rw [if_neg (by rw [h]; exact fun same => nomatch same.1)]
      right
      unfold statusBeside
      rw [h]
      exact ⟨_, rfl⟩

/-- The operation of an edit is a new one, and the call that asked for it knows its row. -/
theorem follows_createEdit {worldId : String} (h : Plain q) (edit : request.opType = .configEdit)
    (keyless : request.idempotencyKey = none) (ofWorld : request.worldId = some worldId) :
    eula.Follows (Leaves (fun r q' => q' = { q with own := some r.1 } ∧ r.1.opType = .configEdit ∧
        r.1.worldId = some worldId) Plain)
      (createWithReplay svc request initial false) q := by
  apply follows_createWithReplay (K := fun op q' => q' = { q with own := some op } ∧
    op.opType = .configEdit ∧ op.worldId = some worldId) h
  · intro opId auditIds now x hx
    unfold createBlock
    apply Follows.selects trivial _ fun _ => trivial
    intro db
    have fresh : ∀ found : Option Operation,
        (if request.idempotencyKey.isSome = true then found else none) = none := by
      intro found
      rw [keyless]
      rfl
    dsimp only [Body.bind_eq, Body.pure_eq, Body.bind, Body.query]
    rw [fresh]
    apply Follows.selects trivial _ fun _ => trivial
    intro db'
    apply Follows.selects trivial _ fun _ => trivial
    intro db''
    have seen := ((hx.select (t := .create) db).select (t := .create) db').select
      (t := .create) db''
    generalize eula.next (eula.next (eula.next x _ _) _ _) _ _ = x' at seen
    have alone : request.worldId.isSome = true ∧ (!false) = true ∧ request.opType ≠ .sync := by
      rw [ofWorld, edit]
      exact ⟨rfl, rfl, by decide⟩
    rw [if_pos alone]
    split
    · rename_i op hop
      have repeated := List.find?_some hop
      rw [edit] at repeated
      exact absurd repeated (by simp)
    · obtain ⟨admission, none', admits⟩ | ⟨e, refused⟩ := @applyConflictPolicy_edit request
        ((request.worldId.map (inFlightOf db')).getD []) (requestedStatus db'' request initial)
        now edit
      · rw [admits]
        apply Follows.executes trivial _ fun _ => trivial
        intro n
        have inserted := seen.execute (t := .create)
          (.insertOperation (newOperation request opId admission.status now)) n
        dsimp only [Body.bind]
        rw [none']
        refine ⟨?_, edit, ofWorld⟩
        rw [inserted.commit, h.outside]
        exact congrArg _ (EulaStage.committed_plain h.plain)
      · rw [refused]
        exact trivial
  · rintro op q' ⟨rfl, -⟩
    exact ⟨h.outside, h.plain⟩

end Creation

/-- From any mark that is plain the program leads to plain marks only. -/
def Steady (p : Prog α) : Prop := ∀ q, Plain q → eula.Follows (fun _ => Plain) p q

namespace Steady

theorem bind {p : Prog α} {f : α → Prog β} (hp : Steady p) (hf : ∀ a, Steady (f a)) :
    Steady (p.bind f) := by
  intro q h
  apply (hp q h).bind
  · exact fun a q' h' => hf a q' h'
  · exact fun _ _ h' => h'

theorem handle {p : Prog α} {f : Exn → Prog α} (hp : Steady p) (hf : ∀ e, Steady (f e)) :
    Steady (p.handle f) := by
  intro q h
  apply (hp q h).handle
  · exact fun _ _ h' => h'
  · exact fun e q' h' => hf e q' h'

theorem ret {a : α} : Steady (.ret a) := fun _ h => h

theorem raise {e : Exn} : Steady (.raise e : Prog α) := fun _ h => h

theorem aside {p : Prog α} (hp : p.Confined Neutral) : Steady p := fun _ h => follows_aside hp h

theorem setWorldState {worldId : String} {state : WorldState} :
    Steady (setWorldState worldId state) := fun _ h => follows_ordinary h

theorem transition {svc : OperationService} {opId : String} {status : OperationStatus}
    {m : Milestone} (milestone : status = .running ∨ status.terminal = true) :
    Steady (Operations.transition svc opId status m) := by
  intro q h
  have ends : (q.stage.reported status).plain = true := by
    obtain ⟨txn, last, own, stage⟩ := q
    obtain ⟨outside, plain⟩ := h
    dsimp only at plain ⊢
    cases stage with
    | idle => cases status <;> rfl
    | runs => cases plain
    | opening w => cases plain
    | opened w => cases plain
    | closing w => cases plain
    | _ => rfl
  have left : q.stage.failed.plain = true := by
    rw [EulaStage.failed_plain h.plain]
    exact h.plain
  have owned : Owned q opId := by
    intro worldId opened
    have plain := h.plain
    rw [opened] at plain
    cases plain
  apply (follows_transition h.outside left milestone owned ends).mono
  intro r q' hq'
  cases r with
  | ok op =>
    rw [show q' = _ from hq']
    exact ⟨h.outside, ends⟩
  | error e => exact hq'

theorem failOp {svc : WorldsService} {opId code : String} {message : Option String} :
    Steady (failOp svc opId code message) :=
  bind (transition (.inr rfl)) fun _ => ret

theorem autocommit {t : Site} {s : Stmt} (permitted : ∀ q, Plain q → q.Permits s)
    (same : ∀ x, EulaStage.written x s = x)
    (kept : ∀ q : EulaMark, ∀ n,
      EulaMark.ownAfter q.own (.execute t s : EulaCommand) (.ok n) = q.own) :
    Steady (autocommit t (Body.write s)) := by
  intro q h
  apply (follows_autocommit h (permitted q h) same (kept q)).mono
  intro r q' hq'
  cases r with
  | ok a =>
    rw [show q' = _ from hq']
    exact h
  | error e => exact hq'

theorem closeSession {worldId : String} {reason : EndReason} :
    Steady (closeSession worldId reason) := by
  apply bind (aside aside_draw)
  intro now
  apply autocommit
  · exact fun _ _ => trivial
  · exact fun _ => rfl
  · exact fun _ _ => rfl

theorem insertSession {row : RuntimeSession} :
    Steady (Framework.autocommit .openSession (Body.write (.insertSession row)) : Prog Unit) := by
  apply autocommit
  · exact fun _ _ => trivial
  · exact fun _ => rfl
  · exact fun _ _ => rfl

theorem insertSecret {row : Secret} :
    Steady (Framework.autocommit .storeSecret (Body.write (.insertSecret row)) : Prog Unit) := by
  apply autocommit
  · exact fun _ _ => trivial
  · exact fun _ => rfl
  · exact fun _ _ => rfl

theorem openSession {w : World} {context : LaunchContext} {handle : ProcessHandle}
    {argv : List String} {password sessionId : String} :
    Steady (openSession w context handle argv password sessionId) := by
  unfold Worlds.openSession
  dsimp only
  split
  · have stored : Steady (storeSecret "rcon_credential" "runtime_session" sessionId password) := by
      apply bind (aside aside_draw)
      intro secretId
      refine bind (aside (aside_ask trivial)) ?_
      intro _
      apply bind (aside aside_draw)
      intro now
      exact bind insertSecret fun _ => ret
    apply bind stored
    intro secretId
    exact bind ret fun _ => bind (aside aside_draw) fun _ => insertSession
  · exact bind ret fun _ => bind (aside aside_draw) fun _ => insertSession

theorem supervise {svc : WorldsService} {worldId opId : String} {w : World}
    {context : LaunchContext} {argv : List String} {password sessionId : String}
    {handle : ProcessHandle} :
    Steady (supervise svc worldId opId w context argv password sessionId handle) := by
  have awaited : Steady (do
      let readiness ← awaitReadiness w handle context.rconPort password
      Worlds.setWorldState worldId .running
      let _ ← Operations.transition svc.operations opId .completed {
        checkpoint := some {
          stage := "running", readiness := some readiness, sessionId := some sessionId }
        data := some { sessionId := some sessionId } }
      pure sessionId) := by
    apply bind (aside (aside_awaitReadiness w handle _ _))
    intro readiness
    apply bind setWorldState
    intro _
    exact bind (transition (.inr rfl)) fun _ => ret
  apply bind openSession
  intro _
  dsimp only
  split
  · exact bind (aside (aside_ask trivial)) fun _ => awaited
  · exact awaited

theorem launchFailed {svc : WorldsService} {worldId opId : String} (e : Exn) :
    Steady (launchFailed svc worldId opId e) := by
  unfold Worlds.launchFailed
  split
  · apply bind closeSession
    intro _
    apply bind setWorldState
    intro _
    exact bind (transition (.inr rfl)) fun _ => raise
  · split
    · exact raise
    · apply bind failOp
      intro _
      exact bind setWorldState fun _ => raise

end Steady

section Courses

variable {svc : WorldsService} {worldId : String}

/-- The row of a world, and the rows it was found in. -/
theorem follows_world (h : Plain q) :
    eula.Follows (Leaves (fun w q' => ∃ db, db.world? worldId = some w ∧
      q' = { q with last := some db }) Plain) (world worldId) q := by
  obtain ⟨txn, last, own, stage⟩ := q
  obtain ⟨outside, plain⟩ := h
  dsimp only at outside plain
  subst outside
  have left : stage.failed.plain = true := by
    rw [EulaStage.failed_plain plain]
    exact plain
  apply Follows.read trivial
  · intro db
    dsimp only
    split
    · rename_i w hw
      exact ⟨db, hw, rfl⟩
    · exact ⟨rfl, plain⟩
  · exact fun _ => ⟨rfl, left⟩

theorem worldId_of_world? {db : Database} {w : World} (h : db.world? worldId = some w) :
    w.worldId = worldId := by
  have found := List.find?_some h
  exact eq_of_beq found

/-- Until its operation runs a start has nothing but refusals. -/
theorem follows_preflight (h : Stands .idle q) :
    eula.Follows (Leaves (fun _ => Stands .idle) Plain) (preflight worldId) q := by
  have quiet : ∀ {α β : Type} {p : Prog α} {f : α → Prog β} {q : EulaMark},
      p.Confined Neutral → Stands .idle q →
      (∀ a q', Stands .idle q' → eula.Follows (Leaves (fun _ => Stands .idle) Plain) (f a) q') →
      eula.Follows (Leaves (fun _ => Stands .idle) Plain) (p.bind f) q := by
    intro α β p f q hp h next
    apply (follows_standing rfl EulaStage.told_idle hp h).bind
    · exact next
    · exact fun _ _ h' => h'.plain rfl
  apply quiet (aside_world worldId) h
  intro pre q h
  have refused : (refuseBusy pre).Confined Neutral := by
    unfold refuseBusy
    split <;> exact trivial
  apply quiet refused h
  intro _ q h
  apply quiet (aside_launchContext pre) h
  intro context q h
  apply quiet (aside_validateLaunch pre context) h
  intro gate q h
  split
  · exact h
  · dsimp only
    split
    · apply (Steady.setWorldState q (h.plain rfl)).bind
      · exact fun _ _ h' => h'
      · exact fun _ _ h' => h'
    · exact h.plain rfl

theorem follows_operationFor {opType : OperationType} {actorType : ActorType}
    {actorUserId : Option String} {allow : Bool} {operationId : Option String}
    (h : Stands .idle q) :
    eula.Follows (Leaves (fun _ => Stands .idle) Plain)
      (operationFor svc opType worldId actorType actorUserId allow operationId) q := by
  cases operationId with
  | some opId => exact h
  | none =>
    have created : eula.Follows (Leaves (fun _ => Stands .idle) Plain)
        (Operations.create svc.operations
          { opType, actorType, worldId := some worldId, actorUserId } .queued allow) q := by
      apply (follows_admitted (h.plain rfl)).bind
      · rintro ⟨op, replayed⟩ q' ⟨outside, stage⟩
        exact ⟨outside, stage.trans h.stage⟩
      · exact fun _ _ h' => h'
    apply created.bind
    · exact fun _ _ h' => h'
    · exact fun _ _ h' => h'

theorem follows_launchContext {w : World} (h : Stands .running q) :
    eula.Follows (Leaves (fun context => Stands (.context w.worldId context.worldDir)) Plain)
      (launchContext w) q := by
  obtain ⟨txn, last, own, stage⟩ := q
  obtain ⟨outside, stage⟩ := h
  dsimp only at outside stage
  subst outside stage
  apply Follows.read trivial
  · intro db
    split
    · apply Follows.perform trivial
      intro r
      cases r with
      | ok context => exact ⟨rfl, rfl⟩
      | error e => exact ⟨rfl, rfl⟩
    · exact ⟨rfl, rfl⟩
  · exact fun _ => ⟨rfl, rfl⟩

/-- A gate that is passed has seen the accepted `eula.txt` and the audited acceptance. -/
theorem follows_validateLaunch {w : World} {context : LaunchContext}
    (h : Stands (.context w.worldId context.worldDir) q) :
    eula.Follows (Leaves (fun gate q' => Plain q' ∧ (gate.passed = true →
      q'.stage = .gated w.worldId)) Plain) (validateLaunch w context) q := by
  obtain ⟨txn, last, own, stage⟩ := q
  obtain ⟨outside, stage⟩ := h
  dsimp only at outside stage
  subst outside stage
  apply Follows.step trivial
  · intro eulaState
    split
    · refine ⟨?_, fun passed => nomatch passed⟩
      apply plain_aside ⟨rfl, rfl⟩
      exact trivial
    · rename_i accepted
      have here : (EulaStage.context w.worldId context.worldDir).told
          (.ask (.detectEula context.worldDir) : EulaCommand) eulaState = .read w.worldId :=
        if_pos ⟨rfl, not_not.mp accepted⟩
      have next : eula.next ⟨.outside, last, own, .context w.worldId context.worldDir⟩
          (.ask (.detectEula context.worldDir) : EulaCommand) (.ok eulaState) =
            ⟨.outside, last, own, .read w.worldId⟩ := congrArg _ here
      rw [next]
      apply Follows.read trivial
      · intro db
        split
        · rename_i audited
          have gated : eula.next ⟨.outside, last, own, .read w.worldId⟩
              (.read .launchRead : EulaCommand) (.ok db) =
                ⟨.outside, last, own, .gated w.worldId⟩ := congrArg _ (if_pos audited)
          rw [gated]
          apply Follows.perform trivial
          intro r
          cases r with
          | ok gate => exact ⟨⟨rfl, rfl⟩, fun _ => rfl⟩
          | error e => exact ⟨rfl, rfl⟩
        · refine ⟨?_, fun passed => nomatch passed⟩
          apply plain_aside ⟨rfl, rfl⟩
          exact trivial
      · exact fun _ => ⟨rfl, rfl⟩
  · exact fun _ => ⟨rfl, rfl⟩

theorem follows_launchGate {opId : String} {w : World} {context : LaunchContext}
    (h : Stands (.context w.worldId context.worldDir) q) :
    eula.Follows (Leaves (fun _ => Stands (.gated w.worldId)) Plain)
      (launchGate svc worldId opId w context) q := by
  apply (follows_validateLaunch h).bind
  · rintro gate q' ⟨plain, passed⟩
    split
    · rename_i ok
      exact ⟨plain.outside, passed ok⟩
    · apply (Steady.failOp q' plain).bind
      · intro _ q' h'
        apply (Steady.setWorldState q' h').bind
        · exact fun _ _ h' => h'
        · exact fun _ _ h' => h'
      · exact fun _ _ h' => h'
  · exact fun _ _ h' => h'

/-- A start spawns its process from the queued state it entered behind the gate. -/
theorem follows_launch {opId : String} (h : Stands .idle q) :
    eula.Follows (fun _ => Plain) (launch svc worldId opId) q := by
  have stored : eula.Follows (Leaves (fun _ => Stands .running) Plain)
      (Operations.transition svc.operations opId .running {
        checkpoint := some { stage := "validating" } }) q := by
    have left : q.stage.failed.plain = true := by rw [h.stage]; rfl
    have ends : (q.stage.reported .running).plain = true := by rw [h.stage]; rfl
    have owned : Owned q opId := by
      intro w opened
      rw [h.stage] at opened
      cases opened
    apply (follows_transition h.outside left (.inl rfl) owned ends).mono
    intro r q' hq'
    cases r with
    | ok op =>
      rw [show q' = _ from hq', h.stage]
      exact ⟨h.outside, rfl⟩
    | error e => exact hq'
  refine stored.bind ?_ fun _ _ h' => h'
  intro _ q h
  refine (follows_world (h.plain rfl)).bind ?_ fun _ _ h' => h'
  rintro w q' ⟨db, hw, rfl⟩
  have looked : Stands .running { q with last := some db } := ⟨h.outside, h.stage⟩
  have here := worldId_of_world? hw
  split
  · apply (Steady.transition (.inr rfl) _ (looked.plain rfl)).bind
    · exact fun _ _ h' => h'
    · exact fun _ _ h' => h'
  · refine (follows_launchContext looked).bind ?_ fun _ _ h' => h'
    intro context q h
    refine (follows_launchGate h).bind ?_ fun _ _ h' => h'
    intro _ q h
    have gated : ∀ {α : Type} {p : Prog α} {f : α → Prog String} {q : EulaMark},
        p.Confined Neutral → Stands (.gated w.worldId) q →
        (∀ a q', Stands (.gated w.worldId) q' → eula.Follows (fun _ => Plain) (f a) q') →
        eula.Follows (fun _ => Plain) (p.bind f) q := by
      intro α p f q hp h next
      apply (follows_standing rfl (EulaStage.told_gated _) hp h).bind
      · exact next
      · exact fun _ _ h' => h'.plain rfl
    refine gated (aside_ask trivial) h ?_
    intro password q h
    refine gated (aside_ask trivial) h ?_
    intro argv q h
    apply gated aside_draw h
    intro sessionId q h
    apply (follows_entered h rfl).bind
    · intro _ q h
      have queued : Stands (.queued worldId) q := by
        rw [here] at h
        exact ⟨h.outside, h.stage.trans (congrArg EulaStage.committed (if_pos rfl))⟩
      apply (follows_entered queued rfl).bind
      · intro _ q h
        apply Follows.step
        · exact h.stage
        · intro result
          have spawned : Plain (eula.next q
              (.ask (.spawn worldId argv context.worldDir sessionId) : EulaCommand)
              (.ok result)) := by
            obtain ⟨txn, last, own, stage⟩ := q
            obtain ⟨rfl, rfl⟩ := h
            exact ⟨rfl, rfl⟩
          split
          · apply Steady.bind Steady.failOp _ _ spawned
            intro _
            exact Steady.bind Steady.setWorldState fun _ => Steady.raise
          · exact Steady.supervise _ spawned
        · intro e
          obtain ⟨txn, last, own, stage⟩ := q
          obtain ⟨rfl, rfl⟩ := h
          exact ⟨rfl, rfl⟩
      · exact fun _ _ h' => h'
    · exact fun _ _ h' => h'

/-- A start keeps to the script. -/
theorem follows_start {actorType : ActorType} {actorUserId : Option String} {allow : Bool}
    {operationId : Option String} (h : Stands .idle q) :
    eula.Follows (fun _ => Plain)
      (start svc worldId actorType actorUserId allow operationId) q := by
  apply (follows_preflight h).bind
  · intro _ q h
    apply (follows_operationFor h).bind
    · intro opId q h
      apply (follows_launch h).handle
      · exact fun _ _ h' => h'
      · exact fun e q h' => Steady.launchFailed e q h'
    · exact fun _ _ h' => h'
  · exact fun _ _ h' => h'

theorem follows_audit {actor : Audit.Actor} {db : Database} (h : Plain q)
    (last : q.last = some db) (waits : Required db worldId) :
    eula.Follows (Upon q Plain)
      (Audit.write .worldEulaAccepted actor (some worldId) .accepted) q := by
  have left : q.stage.failed.plain = true := by
    rw [EulaStage.failed_plain h.plain]
    exact h.plain
  apply follows_draw h.outside left _ fun _ _ h => h
  intro auditId
  apply follows_draw h.outside left _ fun _ _ h => h
  intro now
  apply follows_autocommit h
  · rintro - w hw
    cases hw
    exact ⟨db, last, waits⟩
  · exact fun _ => rfl
  · exact fun _ => rfl

theorem follows_acceptEulaSteps {w : World} {actorUserId : String} {op : Operation}
    {payload : OperationData} {db : Database} (waits : Required db w.worldId)
    (edit : op.opType = .configEdit) (ofWorld : op.worldId = some w.worldId) :
    eula.Follows (fun _ => Plain) (acceptEulaSteps svc w actorUserId op.opId payload)
      ⟨.outside, some db, some op, .running⟩ := by
  apply follows_read ⟨rfl, rfl⟩ (by decide) (by decide)
  · intro rows
    apply (follows_audit ⟨rfl, rfl⟩ rfl waits).upon
    · intro _
      apply Follows.step trivial
      · intro _
        apply (follows_setWorldState ⟨rfl, rfl⟩).upon
        · intro _
          have owned : Owned ⟨.outside, some db, some op, .opened w.worldId⟩ op.opId := by
            intro worldId opened
            cases opened
            exact ⟨op, rfl, rfl, edit, ofWorld⟩
          apply (follows_transition rfl rfl (.inr rfl) owned rfl).upon
          · intro _
            apply Steady.bind (Steady.aside aside_read)
            · intro result
              split
              · exact Steady.ret
              · exact Steady.raise
            · exact ⟨rfl, rfl⟩
          · exact fun _ _ h' => h'
        · exact fun _ _ h' => h'
      · exact fun _ => ⟨rfl, rfl⟩
    · exact fun _ _ h' => h'
  · exact fun _ _ h' => h'

/-- An acceptance audits and opens only a world it has seen waiting, and completes the operation it
has inserted for it. -/
theorem follows_acceptEula {actorUserId : String} {accepted : Bool} (h : Stands .idle q) :
    eula.Follows (fun _ => Plain) (acceptEula svc worldId actorUserId accepted) q := by
  have refused : Plain q := h.plain rfl
  unfold acceptEula
  split
  · exact refused
  · split
    · exact refused
    · split
      · exact refused
      · apply (follows_world refused).bind
        · rintro w q' ⟨db, hw, rfl⟩
          split
          · exact ⟨h.outside, refused.plain⟩
          · rename_i waiting
            have waits : Required db worldId := by
              rw [Required, hw]
              exact congrArg some (not_not.mp waiting)
            have looked : Plain { q with last := some db } := ⟨h.outside, refused.plain⟩
            have created : eula.Follows (Leaves (fun op q' =>
                q' = ⟨.outside, some db, some op, .idle⟩ ∧ op.opType = .configEdit ∧
                  op.worldId = some worldId) Plain)
                (Operations.create svc.operations {
                  opType := .configEdit, actorType := .user, actorUserId := some actorUserId,
                  worldId := some worldId,
                  data := some { entity := some "eula", rowId := some worldId } })
                { q with last := some db } := by
              apply (follows_createEdit looked rfl rfl rfl).bind
              · rintro ⟨op, replayed⟩ q' ⟨rfl, edit, ofWorld⟩
                refine ⟨?_, edit, ofWorld⟩
                rw [h.outside, h.stage]
              · exact fun _ _ h' => h'
            apply created.bind
            · rintro op q' ⟨rfl, edit, ofWorld⟩
              have unowned : Owned ⟨.outside, some db, some op, .idle⟩ op.opId :=
                fun _ opened => nomatch opened
              apply (follows_transition rfl rfl (.inl rfl) unowned rfl).upon
              · intro _
                have here := worldId_of_world? hw
                rw [← here] at waits ofWorld
                apply (follows_acceptEulaSteps waits edit ofWorld).handle
                · exact fun _ _ h' => h'
                · intro e q' h'
                  apply Steady.bind (Steady.transition (.inr rfl)) _ q' h'
                  exact fun _ => Steady.raise
              · exact fun _ _ h' => h'
            · exact fun _ _ h' => h'
        · exact fun _ _ h' => h'

end Courses

end McManager.Worlds
