import McManager.Framework.Looked
import McManager.Guarantees.Renaming
import McManager.Services.Supervisor
import McManager.Services.WorldEffects

/-! Every call that writes the state of a world has looked the world up in the same transaction. -/

namespace McManager.Web

open Framework Operations

/-- The states that the calls enter: none backs up or restores by the lifecycle table. -/
def entersState : WorldState → Bool
  | .backingUp | .restoring => false
  | _ => true

/-- The intents that the calls pass on: none acknowledges a crash or an error. -/
def passesIntent : WorldTransitionIntent → Bool
  | .ordinary | .eulaAcceptance => true
  | _ => false

/-- An edge that some call may take. -/
structure Taken (s t : WorldState) : Prop where
  edge : ∃ intent, passesIntent intent = true ∧ Edge s t intent
  entered : entersState t = true

/-- A state is written along an edge from the row that the transaction has seen, and the other
statements are those of the routes, the lifecycle calls and the backups. -/
def Checked (x : Txn Database) : Stmt → Prop
  | .setWorldState worldId state pre _ _ => pre = none ∧
    ∃ db w, x = .looked db ∧ db.world? worldId = some w ∧ Taken w.state state
  | s => Used s

theorem checked_routed {x : Txn Database} {s : Stmt} (routed : Routed s) : Checked x s := by
  cases s with
  | setWorldState worldId state pre now intent => cases routed
  | _ => exact .inl routed

section Calls

variable {I : Database → Prop} {α : Type}

theorem careful_routed {p : Prog α} (h : Issues I Routed p) : Careful I Checked p :=
  Careful.of_issues h fun _ _ => checked_routed

theorem careful_aside {p : Prog α} (h : p.Confined Worlds.Neutral) : Careful I Checked p :=
  careful_routed (Worlds.issues_aside h)

/-- A state is only written where it is checked. -/
theorem careful_setWorldState {state : WorldState} (enters : entersState state = true)
    {intent : WorldTransitionIntent} (passes : passesIntent intent = true) (worldId : String) :
    Careful I Checked (Worlds.setWorldState worldId state intent) := by
  refine Careful.draw.bind fun now => Careful.transaction ?_
  refine ⟨fun t s same => (by cases same), ?_⟩
  intro c o _ _
  cases o with
  | some φ => exact trivial
  | none =>
    change LooksUp I Checked (.looked c.view) (Program.resume _ (.ok c.view))
    dsimp only [Program.resume, Body.bind]
    split
    · exact trivial
    · rename_i w found
      split
      · exact trivial
      · split
        · exact trivial
        · rename_i next transitioned
          obtain ⟨-, edge, -, entered, -, -⟩ := transitionWorld_ok transitioned
          refine ⟨?_, fun c o _ _ => by cases (c.act _ o).1 <;> exact trivial⟩
          rintro t s written
          obtain ⟨-, rfl⟩ := Cmd.execute.inj written
          rw [entered]
          have unset : next.preBackupState = none := by
            have valid := next.valid
            have apart : state ≠ .backingUp := by rintro rfl; cases enters
            rw [validateWorldInstance, entered] at valid
            by_contra set
            rw [if_neg apart, if_pos set] at valid
            split at valid
            · cases valid
            · cases valid
          exact ⟨unset, c.view, w, rfl, found, ⟨intent, passes, edge⟩, enters⟩

theorem careful_closeSession (worldId : String) (reason : EndReason) :
    Careful I Checked (Worlds.closeSession worldId reason) := by
  have closing : Issues I (fun s => ∃ worldId now reason, s = Stmt.closeSessions worldId now reason)
      (Worlds.closeSession worldId reason) :=
    Issues.bind Issues.draw fun now =>
      Issues.autocommit ⟨⟨worldId, now, reason, rfl⟩, fun _ => trivial⟩
  refine Careful.of_issues closing ?_
  rintro x s ⟨worldId, now, reason, rfl⟩
  exact .inr (.inl rfl)

theorem careful_openSession (w : World) (context : LaunchContext) (handle : ProcessHandle)
    (argv : List String) (password sessionId : String) :
    Careful I Checked (Worlds.openSession w context handle argv password sessionId) := by
  have opening : Issues I (fun s => (∃ row, s = Stmt.insertSecret row) ∨ ∃ row, s = .insertSession row)
      (Worlds.openSession w context handle argv password sessionId) := by
    have insert : ∀ secretId : Option String, Issues I (fun s =>
        (∃ row, s = Stmt.insertSecret row) ∨ ∃ row, s = .insertSession row) (do
        let at' ← McManager.now
        autocommit Site.openSession (Body.write (.insertSession {
          sessionId
          worldId := w.worldId
          startedAt := at'
          endedAt := none
          endReason := none
          rconSecretId := secretId
          portUsed := w.port
          javaRuntimeId := w.javaRuntimeId
          launchArgsSnapshot := {
            argv, pid := handle.pid, spawnEpoch := handle.spawnEpoch, cwd := context.worldDir,
            launchMarker := Worlds.launchMarker argv }
          rconPort := some context.rconPort
          createdAt := at' }) : Block Unit)) := by
      intro secretId
      apply Issues.bind Issues.draw
      intro at'
      exact Issues.autocommit ⟨.inr ⟨_, rfl⟩, fun _ => trivial⟩
    unfold Worlds.openSession
    dsimp only
    split
    · apply Issues.bind
      · apply Issues.bind Issues.draw
        intro secretId
        apply Worlds.issues_asked
        apply Issues.bind Issues.draw
        intro at'
        apply Issues.bind
        · exact Issues.autocommit ⟨.inl ⟨_, rfl⟩, fun _ => trivial⟩
        · exact fun _ => trivial
      · exact fun secretId => insert (some secretId)
    · exact insert none
  refine Careful.of_issues opening ?_
  rintro x s (⟨row, rfl⟩ | ⟨row, rfl⟩)
  · exact .inr (.inl rfl)
  · exact .inr (.inl rfl)

theorem careful_world (worldId : String) : Careful I Checked (Worlds.world worldId) :=
  careful_aside (Worlds.aside_world worldId)

theorem careful_resolveHandle (worldId : String) :
    Careful I Checked (Worlds.resolveHandle worldId) := Careful.ask.bind fun _ => Careful.ret _

theorem careful_collect {round : RuntimeSession → Prog (List String)}
    (h : ∀ session, Careful I Checked (round session)) (sessions : List RuntimeSession) :
    Careful I Checked (Worlds.collect round sessions) := by
  induction sessions with
  | nil => exact Careful.ret _
  | cons session rest ih =>
    exact (h session).bind fun here => ih.bind fun there => Careful.ret _

theorem careful_preflight (worldId : String) : Careful I Checked (Worlds.preflight worldId) := by
  refine (careful_world worldId).bind fun pre => ?_
  refine Careful.bind ?_ fun _ => ?_
  · unfold Worlds.refuseBusy
    split
    · exact Careful.raise _
    · exact Careful.ret _
  refine (careful_aside (Worlds.aside_launchContext pre)).bind fun context => ?_
  refine (careful_aside (Worlds.aside_validateLaunch pre context)).bind fun gate => ?_
  split
  · exact Careful.ret _
  · dsimp only
    split
    · exact (careful_setWorldState rfl rfl worldId).bind fun _ => Careful.raise _
    · exact Careful.raise _

variable (queued : ∀ db, I db → Queued db)
include queued

theorem careful_create (svc : OperationService) (request : OperationInput) (asked : Asked request.data)
    (initial : OperationStatus) (allow : Bool) :
    Careful I Checked (Operations.create svc request initial allow) :=
  careful_routed (Issues.bind (issues_createWithReplay (records_within queued) asked) fun _ => trivial)

theorem careful_transition (svc : OperationService) (opId : String) (status : OperationStatus)
    (m : Milestone) (asked : m.data = none ∨ Asked m.data) :
    Careful I Checked (Operations.transition svc opId status m) :=
  careful_routed (issues_transition (records_within queued) asked)

theorem careful_failOp (svc : WorldsService) (opId code : String) (message : Option String) :
    Careful I Checked (Worlds.failOp svc opId code message) :=
  (careful_transition queued svc.operations opId _ _ (.inl rfl)).bind fun _ => Careful.ret _

theorem careful_launch (svc : WorldsService) (worldId opId : String) :
    Careful I Checked (Worlds.launch svc worldId opId) := by
  have milestone := careful_transition queued svc.operations opId
  refine (milestone _ _ (.inl rfl)).bind fun _ => ?_
  refine (careful_world worldId).bind fun w => ?_
  split
  · exact (milestone _ _ (.inl rfl)).bind fun _ => Careful.raise _
  refine (careful_aside (Worlds.aside_launchContext w)).bind fun context => ?_
  refine Careful.bind ?_ fun _ => ?_
  · refine (careful_aside (Worlds.aside_validateLaunch w context)).bind fun gate => ?_
    split
    · exact Careful.ret _
    · refine (careful_failOp queued svc opId _ _).bind fun _ => ?_
      refine (careful_setWorldState ?_ rfl worldId).bind fun _ => Careful.raise _
      split
      · rfl
      · rfl
  refine Careful.ask.bind fun password => Careful.ask.bind fun argv => Careful.draw.bind fun id => ?_
  refine (careful_setWorldState rfl rfl worldId).bind fun _ => ?_
  refine (careful_setWorldState rfl rfl worldId).bind fun _ => Careful.ask.bind fun result => ?_
  split
  · refine (careful_failOp queued svc opId _ _).bind fun _ => ?_
    exact (careful_setWorldState rfl rfl worldId).bind fun _ => Careful.raise _
  · rename_i handle _
    refine (careful_openSession w context handle argv password id).bind fun _ => ?_
    have awaited : Careful I Checked (do
        let readiness ← Worlds.awaitReadiness w handle context.rconPort password
        Worlds.setWorldState worldId .running
        let _ ← Operations.transition svc.operations opId .completed {
          checkpoint := some {
            stage := "running", readiness := some readiness, sessionId := some id }
          data := some { sessionId := some id } }
        pure id) := by
      refine (careful_aside (Worlds.aside_awaitReadiness w handle _ password)).bind fun _ => ?_
      refine (careful_setWorldState rfl rfl worldId).bind fun _ => ?_
      exact (milestone _ _ (.inr (asked_result rfl rfl rfl))).bind fun _ => Careful.ret _
    dsimp only
    split
    · exact Careful.ask.bind fun _ => awaited
    · exact awaited

theorem careful_operationFor (svc : WorldsService) (opType : OperationType) (worldId : String)
    (actorType : ActorType) (actorUserId : Option String) (allow : Bool)
    (operationId : Option String) : Careful I Checked
      (Worlds.operationFor svc opType worldId actorType actorUserId allow operationId) := by
  cases operationId with
  | some opId => exact Careful.ret _
  | none => exact (careful_create queued _ _ asked_none _ _).bind fun _ => Careful.ret _

theorem careful_start (svc : WorldsService) (worldId : String) (actorType : ActorType)
    (actorUserId : Option String) (allow : Bool) (operationId : Option String) :
    Careful I Checked (Worlds.start svc worldId actorType actorUserId allow operationId) := by
  refine (careful_preflight worldId).bind fun _ => ?_
  refine (careful_operationFor queued svc _ _ _ _ _ _).bind fun opId => ?_
  refine (careful_launch queued svc worldId opId).handle fun e => ?_
  unfold Worlds.launchFailed
  split
  · refine (careful_closeSession _ _).bind fun _ => ?_
    refine (careful_setWorldState rfl rfl worldId).bind fun _ => ?_
    exact (careful_transition queued _ _ _ _ (.inl rfl)).bind fun _ => Careful.raise _
  · split
    · exact Careful.raise _
    · refine (careful_failOp queued svc _ _ _).bind fun _ => ?_
      exact (careful_setWorldState rfl rfl worldId).bind fun _ => Careful.raise _

/-- The end of a session and of the operation that ends it. -/
theorem careful_ended (svc : WorldsService) (worldId opId : String) (reason : EndReason)
    (m : Milestone) (plain : m.data = none) : Careful I Checked (do
      Worlds.closeSession worldId reason
      Worlds.setWorldState worldId .off
      let _ ← Operations.transition svc.operations opId .completed m
      pure opId) := by
  refine (careful_closeSession worldId reason).bind fun _ => ?_
  refine (careful_setWorldState rfl rfl worldId).bind fun _ => ?_
  exact (careful_transition queued _ _ _ _ (.inl plain)).bind fun _ => Careful.ret _

theorem careful_endFailed (svc : WorldsService) (opId code : String) (e : Exn) :
    Careful I Checked (Worlds.endFailed svc opId code e) :=
  (careful_failOp queued svc _ _ _).bind fun _ => Careful.raise _

theorem careful_stop (svc : WorldsService) (worldId : String) (actorType : ActorType)
    (actorUserId operationId : Option String) :
    Careful I Checked (Worlds.stop svc worldId actorType actorUserId operationId) := by
  refine (careful_world worldId).bind fun _ => ?_
  refine (careful_operationFor queued svc _ _ _ _ _ _).bind fun opId => ?_
  refine Careful.handle ?_ (careful_endFailed queued svc opId _)
  refine (careful_transition queued _ _ _ _ (.inl rfl)).bind fun _ => ?_
  refine (careful_setWorldState rfl rfl worldId).bind fun _ => ?_
  refine (careful_aside (Worlds.aside_attemptGracefulStop worldId)).bind fun closed => ?_
  exact careful_ended queued svc worldId opId _ _ rfl

theorem careful_kill (svc : WorldsService) (worldId : String) (actorType : ActorType)
    (actorUserId operationId : Option String) :
    Careful I Checked (Worlds.kill svc worldId actorType actorUserId operationId) := by
  refine (careful_world worldId).bind fun _ => ?_
  refine (careful_operationFor queued svc _ _ _ _ _ _).bind fun opId => ?_
  refine Careful.handle ?_ (careful_endFailed queued svc opId _)
  refine (careful_transition queued _ _ _ _ (.inl rfl)).bind fun _ => ?_
  refine (careful_setWorldState rfl rfl worldId).bind fun _ => ?_
  refine (careful_resolveHandle worldId).bind fun handle => ?_
  have ended := careful_ended queued svc worldId opId .forcedStop
    { checkpoint := some { stage := "off" } } rfl
  dsimp only
  split
  · exact Careful.ask.bind fun _ => ended
  · exact ended

theorem careful_enqueue {svc : WorldsService} {opType : OperationType} {worldId : String}
    {actorType : ActorType} {actorUserId : Option String} {key : String} {check : Prog Unit}
    (h : Careful I Checked check) :
    Careful I Checked (Worlds.enqueue svc opType worldId actorType actorUserId key check) := by
  refine Careful.readCommitted.bind fun existing => ?_
  split
  · exact Careful.ret _
  · exact h.bind fun _ => careful_routed (issues_createWithReplay (records_within queued) asked_none)

theorem careful_acceptEula (svc : WorldsService) (worldId actorUserId : String) (accepted : Bool) :
    Careful I Checked (Worlds.acceptEula svc worldId actorUserId accepted) := by
  unfold Worlds.acceptEula
  split
  · exact Careful.raise _
  split
  · exact Careful.raise _
  split
  · exact Careful.raise _
  refine (careful_world worldId).bind fun w => ?_
  split
  · exact Careful.raise _
  refine (careful_create queued _ _ (asked_result rfl rfl rfl) _ _).bind fun op => ?_
  refine (careful_transition queued _ _ _ _ (.inl rfl)).bind fun _ => ?_
  refine Careful.handle ?_ fun e => ?_
  · refine Careful.readCommitted.bind fun actor => ?_
    refine Careful.bind ?_ fun _ => Careful.ask.bind fun _ => ?_
    · exact careful_routed (Issues.bind Issues.draw fun auditId => Issues.bind Issues.draw fun now =>
        Issues.autocommit ⟨records_routed.notes _ rfl, fun _ => trivial⟩)
    refine (careful_setWorldState rfl rfl _).bind fun _ => ?_
    refine (careful_transition queued _ _ _ _ (.inr (asked_result rfl rfl rfl))).bind fun _ => ?_
    refine Careful.readCommitted.bind fun result => ?_
    split
    · exact Careful.ret _
    · exact Careful.raise _
  · refine (careful_transition queued _ _ _ _ (.inr (asked_result rfl rfl rfl))).bind fun _ => ?_
    exact Careful.raise _

theorem careful_recordCrash (svc : WorldsService) (worldId : String) :
    Careful I Checked (Worlds.recordCrash svc worldId) := by
  refine Careful.draw.bind fun at' => ?_
  refine (careful_create queued _ _ (asked_result rfl rfl rfl) _ _).bind fun op => ?_
  refine (careful_transition queued _ _ _ _ (.inl rfl)).bind fun _ => ?_
  exact (careful_transition queued _ _ _ _ (.inl rfl)).bind fun _ => Careful.ret _

theorem careful_pollRunning (svc : WorldsService) : Careful I Checked (Worlds.pollRunning svc) := by
  refine Careful.bind (Careful.readCommitted) fun sessions => ?_
  refine careful_collect (fun session => ?_) sessions
  refine Careful.bind ?_ fun alive => ?_
  · refine (careful_resolveHandle _).bind fun handle => ?_
    split
    · exact Careful.ret _
    · exact Careful.ask.bind fun status => Careful.ret _
  split
  · exact Careful.ret _
  · refine (careful_closeSession _ _).bind fun _ => ?_
    refine (careful_setWorldState rfl rfl _).bind fun _ => ?_
    exact (careful_recordCrash queued svc _).bind fun _ => Careful.ret _

theorem careful_failInterruptedStart (svc : WorldsService) (op : Operation)
    (worldId : Option String) : Careful I Checked (Worlds.failInterruptedStart svc op worldId) := by
  unfold Worlds.failInterruptedStart
  split
  · exact Careful.raise _
  · rename_i worldId
    refine (careful_world worldId).bind fun w => ?_
    split
    · exact Careful.raise _
    · rename_i target reached
      have failed : Careful I Checked (do
          let _ ← Operations.transition svc.operations op.opId .failed {
            errorCode := some "manager_restart_incomplete"
            message := some "Start was interrupted by manager restart before process recovery." }
          pure ()) :=
        (careful_transition queued _ _ _ _ (.inl rfl)).bind fun _ => Careful.ret _
      dsimp only
      split
      · rename_i state
        have enters : entersState state = true := by
          cases at' : w.state <;> rw [at'] at reached <;> cases reached <;> rfl
        exact (careful_setWorldState enters rfl worldId).bind fun _ => failed
      · exact failed

theorem careful_reconcile (svc : WorldsService) : Careful I Checked (Worlds.reconcile svc) := by
  refine Careful.bind (Careful.readCommitted) fun sessions => ?_
  refine Careful.bind ?_ fun reattached => ?_
  · refine careful_collect (fun session => ?_) sessions
    refine Careful.ask.bind fun probe => ?_
    split
    · exact (careful_setWorldState rfl rfl _).bind fun _ => Careful.ret _
    · refine (careful_closeSession _ _).bind fun _ => ?_
      refine Careful.bind (Careful.readCommitted) fun startOperation => ?_
      dsimp only
      split
      · refine (careful_setWorldState rfl rfl _).bind fun _ => ?_
        exact (careful_recordCrash queued svc _).bind fun _ => Careful.ret _
      · exact (careful_failInterruptedStart queued svc _ _).bind fun _ => Careful.ret _
  · refine Careful.bind (Careful.readCommitted) fun starts => ?_
    exact (Careful.each starts fun op => careful_failInterruptedStart queued svc op _).bind
      fun _ => Careful.ret _

theorem careful_dispatchQueued (svc : WorldsService) (op : Operation) :
    Careful I Checked (Worlds.dispatchQueued svc op) := by
  have ran : ∀ claimed, Careful I Checked (Worlds.runClaimed svc op.worldId claimed) := by
    intro claimed
    unfold Worlds.runClaimed
    split
    · exact Careful.raise _
    · dsimp only
      split
      · exact (careful_start queued svc _ _ _ _ _).bind fun _ => Careful.ret _
      · exact (careful_stop queued svc _ _ _ _).bind fun _ => Careful.ret _
      · exact (careful_kill queued svc _ _ _ _).bind fun _ => Careful.ret _
  have failed : ∀ opId e, Careful I Checked (Worlds.failClaimed svc opId e) := by
    intro opId e
    refine Careful.bind (Careful.readCommitted) fun current => ?_
    split
    · exact Careful.ret _
    · split
      · exact Careful.ret _
      · exact (careful_transition queued _ _ _ _ (.inl rfl)).bind fun _ => Careful.ret _
  unfold Worlds.dispatchQueued
  dsimp only
  split
  on_goal 1 => refine (Careful.ret false).bind fun waits => ?_
  on_goal 2 => refine Careful.readCommitted.bind fun waits => ?_
  all_goals
    split
    · exact Careful.ret _
    · refine (careful_routed (issues_claimQueued (records_within queued))).bind fun claimed => ?_
      split
      · exact Careful.ret _
      · exact ((ran _).handle (failed _)).bind fun _ => Careful.ret _

theorem careful_dispatch (svc : WorldsService) :
    Careful I Checked (Worlds.dispatchQueuedOperations svc) := by
  have rounds : ∀ (seen : List String) (ops : List Operation),
      Careful I Checked (Worlds.dispatchLifecycle svc seen ops) := by
    intro seen ops
    induction ops generalizing seen with
    | nil => exact Careful.ret _
    | cons op rest ih =>
      unfold Worlds.dispatchLifecycle
      split
      · exact ih seen
      · exact (careful_dispatchQueued queued svc op).bind fun here =>
          (ih _).bind fun _ => Careful.ret _
  refine Careful.bind (Careful.readCommitted) fun waiting => ?_
  refine (rounds [] waiting).bind fun dispatched => ?_
  refine (careful_routed (issues_dispatchQueuedWorldMutations queued svc)).bind fun _ => ?_
  exact Careful.ret _

end Calls

end McManager.Web
