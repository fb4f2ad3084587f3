import McManager.Services.OperationFrames
import McManager.Services.WorldMutations

namespace McManager

open Framework

/-- The statements by which a lifecycle call records how its world runs. -/
def Stmt.runs : Stmt → Bool
  | .setWorldState _ _ _ _ _ | .insertSession _ | .closeSessions _ _ _ | .insertSecret _ => true
  | _ => false

/-- What a lifecycle call needs of `P` and `D`: it asks for no mutation. -/
structure Lives (I : Database → Prop) (P : Stmt → Prop) (D : Option OperationData → Prop) : Prop
    extends Records I P D where
  runs : ∀ s : Stmt, s.runs = true → P s
  unasked : D none
  session : ∀ sessionId, D (some { sessionId := some sessionId })
  eula : ∀ worldId, D (some { entity := some "eula", rowId := some worldId })

namespace Worlds

open Operations

/-- A command that runs no statement and starts no process. -/
def Neutral : Framework.Cmd Site Stmt Query → Prop
  | .ask (.spawn _ _ _ _) => False
  | .read _ | .ask _ | .draw _ => True
  | _ => False

variable {I : Database → Prop} {P : Stmt → Prop} {D : Option OperationData → Prop}

section Quiet

open Program (Confined)

theorem aside_ask {q : Query} (h : Neutral (.ask q)) : (ask q).Confined Neutral :=
  Confined.perform h

theorem aside_draw {q : Query} : (draw q).Confined Neutral := Confined.perform trivial

theorem aside_read {α : Type} {t : Site} {f : Database → α} : (read t f).Confined Neutral :=
  Confined.query trivial

theorem aside_world (worldId : String) : (world worldId).Confined Neutral := by
  apply Confined.bind aside_read
  intro row
  split <;> exact trivial

theorem aside_rescueRcon {α : Type} {p recover : Prog α} (first : p.Confined Neutral)
    (caught : recover.Confined Neutral) : (rescueRcon p recover).Confined Neutral := by
  apply Confined.handle first
  intro e
  split
  · exact caught
  · exact trivial

theorem aside_launchContext (w : World) : (launchContext w).Confined Neutral := by
  apply Confined.bind aside_read
  intro java
  split
  · exact aside_ask trivial
  · exact trivial

theorem aside_validateLaunch (w : World) (context : LaunchContext) :
    (validateLaunch w context).Confined Neutral := by
  refine Confined.bind (aside_ask trivial) ?_
  intro eulaState
  split
  · exact trivial
  · apply Confined.bind aside_read
    intro audited
    split
    · exact aside_ask trivial
    · exact trivial

theorem aside_operational (port : Int) (commands : List String) :
    (operational port commands).Confined Neutral := by
  induction commands with
  | nil => exact trivial
  | cons command rest ih =>
    refine Confined.bind (aside_ask trivial) ?_
    intro answered
    split
    · exact ih
    · exact trivial

theorem aside_rconRound (port : Int) (target : ReadinessTarget) (rcon : RconProgress) :
    (rconRound port target rcon).Confined Neutral := by
  have last : ∀ rcon : RconProgress, Program.Confined Neutral
      (if rcon.connected && rcon.ready && !target.commands.isEmpty then
        rescueRcon (do
          let valid ← operational port target.commands
          pure { rcon with valid })
          (pure { rcon with valid := false })
      else pure rcon) := by
    intro rcon
    split
    · apply aside_rescueRcon
      · exact Confined.bind (aside_operational port _) fun _ => trivial
      · exact trivial
    · exact trivial
  unfold rconRound
  dsimp only
  split
  · refine Confined.bind (aside_ask trivial) ?_
    intro _
    apply Confined.bind _ last
    apply aside_rescueRcon
    · exact Confined.bind (aside_ask trivial) fun _ => Confined.bind (aside_ask trivial) fun _ => trivial
    · exact Confined.bind (aside_ask trivial) fun _ => trivial
  · split
    · apply Confined.bind _ last
      apply aside_rescueRcon
      · exact Confined.bind (aside_ask trivial) fun _ => trivial
      · exact Confined.bind (aside_ask trivial) fun _ => trivial
    · exact last rcon

theorem aside_closeRcon (port : Int) (rcon : RconProgress) :
    (closeRcon port rcon).Confined Neutral := by
  unfold closeRcon
  split
  · exact aside_ask trivial
  · exact trivial

theorem aside_teardown (handle : ProcessHandle) (gracefulDeadline : Nat) :
    (teardown handle gracefulDeadline).Confined Neutral := by
  have ended : Program.Confined Neutral ((do
      let _ ← ask (.terminate handle gracefulDeadline)
      pure ()) : Prog Unit) :=
      Confined.bind (aside_ask trivial) fun _ => trivial
  apply Confined.bind
  · apply Confined.handle ended
    exact fun e => Confined.bind (aside_ask trivial) fun _ => trivial
  · exact fun _ => aside_ask trivial

/-- The end of a round of the wait, before the rounds that are left. -/
theorem aside_lastProbe {w : World} {port : Int} {next : RconProgress → Prog String}
    (rest : ∀ rcon, (next rcon).Confined Neutral) (rcon : RconProgress) :
    Program.Confined Neutral (do
      let reached ← ask (.readiness w rcon.ready rcon.valid)
      match reached with
      | some level => do
        closeRcon port rcon
        pure level
      | none => next rcon) := by
  refine Confined.bind (aside_ask trivial) ?_
  intro reached
  split
  · exact Confined.bind (aside_closeRcon port rcon) fun _ => trivial
  · exact rest rcon

theorem aside_awaitReadiness (w : World) (handle : ProcessHandle) (port : Int)
    (password : String) : (awaitReadiness w handle port password).Confined Neutral := by
  have rounds : ∀ target n rcon, Program.Confined Neutral
      (awaitRounds w handle port password target n rcon) := by
    intro target n
    induction n with
    | zero =>
      intro rcon
      apply Confined.bind (aside_closeRcon port rcon)
      intro _
      exact Confined.bind (aside_teardown handle 0) fun _ => trivial
    | succ n ih =>
      intro rcon
      refine Confined.bind (aside_ask trivial) ?_
      intro status
      split
      · exact trivial
      · split
        · exact Confined.bind (aside_rconRound port target rcon) (aside_lastProbe ih)
        · exact aside_lastProbe ih rcon
  apply Confined.bind aside_draw
  intro target
  exact Confined.bind aside_draw fun n => rounds target n {}

theorem aside_rconCommandQuiet (worldId command : String) :
    (rconCommandQuiet worldId command).Confined Neutral := by
  apply Confined.bind aside_read
  intro session
  split
  · exact trivial
  · rename_i port secretId _
    split
    · exact trivial
    · have sent : Program.Confined Neutral ((do
          let _ ← ask (.rconConnect port)
          let _ ← ask (.rconCommand port command)
          pure ()) : Prog Unit) :=
        Confined.bind (aside_ask trivial) fun _ => Confined.bind (aside_ask trivial) fun _ => trivial
      refine Confined.bind (aside_ask trivial) ?_
      intro _
      refine Confined.bind (aside_ask trivial) ?_
      intro _
      apply Confined.bind
      · apply Confined.handle sent
        exact fun e => Confined.bind (aside_ask trivial) fun _ => trivial
      · exact fun _ => aside_ask trivial

theorem aside_waitExit (handle : ProcessHandle) (timeoutS : Nat) :
    (waitExit handle timeoutS).Confined Neutral := by
  have rounds : ∀ n, (waitRounds handle n).Confined Neutral := by
    intro n
    induction n with
    | zero => exact Confined.bind (aside_ask trivial) fun _ => trivial
    | succ n ih =>
      refine Confined.bind (aside_ask trivial) ?_
      intro status
      split
      · exact trivial
      · exact ih
  exact Confined.bind aside_draw rounds

theorem aside_attemptGracefulStop (worldId : String) :
    (attemptGracefulStop worldId).Confined Neutral := by
  have probed : (resolveHandle worldId).Confined Neutral := Confined.bind (aside_ask trivial) fun _ => trivial
  apply Confined.bind probed
  intro handle
  split
  · exact trivial
  · rename_i handle
    have ended : ∀ exited : Bool, Program.Confined Neutral ((if exited then pure true else do
        let outcome ← ask (.terminate handle stopGracefulDeadlineS)
        pure (outcome.resolved && outcome.graceful)) : Prog Bool) := by
      intro exited
      split
      · exact trivial
      · exact Confined.bind (aside_ask trivial) fun _ => trivial
    have byHandle : (stopByHandle handle).Confined Neutral := by
      refine Confined.bind (aside_ask trivial) ?_
      intro delivered
      dsimp only
      split
      · exact Confined.bind (aside_waitExit handle _) ended
      · exact ended false
    have byRcon : Program.Confined Neutral (rescueRcon (do
        rconCommandQuiet worldId "stop"
        waitExit handle stopGracefulDeadlineS) (pure false)) := by
      apply aside_rescueRcon
      · apply Confined.bind (aside_rconCommandQuiet worldId "stop")
        exact fun _ => aside_waitExit handle _
      · exact trivial
    apply Confined.bind byRcon
    intro exited
    split
    · exact trivial
    · exact byHandle

/-- Such a program runs no statement at all. -/
theorem issues_aside {α : Type} {p : Prog α} (h : p.Confined Neutral) : Issues I P p :=
  Issues.confined h fun _ _ runs => runs.elim

theorem issues_world (worldId : String) : Issues I P (world worldId) :=
  issues_aside (aside_world worldId)

theorem issues_asked {α : Type} {q : Query} {p : Prog α} (h : Issues I P p) :
    Issues I P ((ask q).bind fun _ => p) := Issues.bind Issues.ask fun _ => h

end Quiet

section Recorded

variable (lives : Lives I P D)
include lives

theorem writes_within {s : Stmt} (h : s.runs = true) :
    (Body.write s : Block Unit).Within I P := ⟨lives.runs s h, fun _ => trivial⟩

theorem issues_setWorldState (worldId : String) (state : WorldState)
    (intent : WorldTransitionIntent) : Issues I P (setWorldState worldId state intent) := by
  apply Issues.bind Issues.draw
  intro now
  apply Issues.transaction
  unfold setWorldStateBlock
  intro db _
  dsimp only [Body.bind]
  split
  · exact trivial
  · split
    · exact trivial
    · split
      · exact trivial
      · exact writes_within lives rfl

theorem issues_closeSession (worldId : String) (reason : EndReason) :
    Issues I P (closeSession worldId reason) := by
  apply Issues.bind Issues.draw
  intro now
  exact Issues.autocommit (writes_within lives rfl)

theorem issues_openSession (w : World) (context : LaunchContext) (handle : ProcessHandle)
    (argv : List String) (password sessionId : String) :
    Issues I P (openSession w context handle argv password sessionId) := by
  have insert : ∀ secretId : Option String, Issues I P (do
      let at' ← now
      autocommit .openSession (Body.write (.insertSession {
        sessionId
        worldId := w.worldId
        startedAt := at'
        endedAt := none
        endReason := none
        rconSecretId := secretId
        portUsed := w.port
        javaRuntimeId := w.javaRuntimeId
        launchArgsSnapshot := {
          argv, pid := handle.pid, spawnEpoch := handle.spawnEpoch, cwd := context.worldDir,
          launchMarker := launchMarker argv }
        rconPort := some context.rconPort
        createdAt := at' }) : Block Unit)) := by
    intro secretId
    apply Issues.bind Issues.draw
    intro now
    exact Issues.autocommit (writes_within lives rfl)
  unfold openSession
  dsimp only
  split
  · have stored : Issues I P (storeSecret "rcon_credential" "runtime_session" sessionId password) := by
      apply Issues.bind Issues.draw
      intro secretId
      apply issues_asked
      apply Issues.bind Issues.draw
      intro now
      apply Issues.bind (Issues.autocommit (writes_within lives rfl))
      exact fun _ => trivial
    exact Issues.bind stored fun _ => insert _
  · exact insert none

/-- A milestone whose data asks for no mutation. -/
theorem issues_milestone {svc : WorldsService} {opId : String} {status : OperationStatus}
    {m : Milestone} {α : Type} {p : Prog α} (hm : m.data = none ∨ D m.data) (h : Issues I P p) :
    Issues I P ((Operations.transition svc.operations opId status m).bind fun _ => p) :=
  Issues.bind (issues_transition lives.toRecords hm) fun _ => h

theorem issues_failOp (svc : WorldsService) (opId code : String) (message : Option String) :
    Issues I P (failOp svc opId code message) := issues_milestone lives (.inl rfl) trivial

theorem issues_preflight (worldId : String) : Issues I P (preflight worldId) := by
  apply Issues.bind (issues_world worldId)
  intro pre
  have refused : Issues I P (refuseBusy pre) := by
    unfold refuseBusy
    split <;> exact trivial
  apply Issues.bind refused
  intro _
  apply Issues.bind (issues_aside (aside_launchContext pre))
  intro context
  apply Issues.bind (issues_aside (aside_validateLaunch pre context))
  intro gate
  split
  · exact trivial
  · dsimp only
    split
    · exact Issues.bind (issues_setWorldState lives _ _ _) fun _ => trivial
    · exact trivial

theorem issues_launch (svc : WorldsService) (worldId opId : String) :
    Issues I P (launch svc worldId opId) := by
  have entered := issues_setWorldState lives worldId
  apply issues_milestone lives (.inl rfl)
  apply Issues.bind (issues_world worldId)
  intro w
  split
  · exact issues_milestone lives (.inl rfl) trivial
  · apply Issues.bind (issues_aside (aside_launchContext w))
    intro context
    have gated : Issues I P (launchGate svc worldId opId w context) := by
      apply Issues.bind (issues_aside (aside_validateLaunch w context))
      intro gate
      split
      · exact trivial
      · apply Issues.bind (issues_failOp lives _ _ _ _)
        intro _
        exact Issues.bind (entered _ _) fun _ => trivial
    apply Issues.bind gated
    intro _
    apply Issues.bind Issues.ask
    intro password
    apply Issues.bind Issues.ask
    intro argv
    apply Issues.bind Issues.draw
    intro sessionId
    apply Issues.bind (entered _ _)
    intro _
    apply Issues.bind (entered _ _)
    intro _
    apply Issues.bind Issues.ask
    intro result
    split
    · apply Issues.bind (issues_failOp lives _ _ _ _)
      intro _
      exact Issues.bind (entered _ _) fun _ => trivial
    · rename_i handle _
      have awaited : Issues I P (do
          let readiness ← awaitReadiness w handle context.rconPort password
          setWorldState worldId .running
          let _ ← Operations.transition svc.operations opId .completed {
            checkpoint := some {
              stage := "running", readiness := some readiness, sessionId := some sessionId }
            data := some { sessionId := some sessionId } }
          pure sessionId) := by
        apply Issues.bind (issues_aside (aside_awaitReadiness w handle _ _))
        intro readiness
        apply Issues.bind (entered _ _)
        intro _
        exact issues_milestone lives (.inr (lives.session sessionId)) trivial
      apply Issues.bind (issues_openSession lives w context handle argv password sessionId)
      intro _
      dsimp only
      split
      · exact issues_asked awaited
      · exact awaited

theorem issues_operationFor (svc : WorldsService) (opType : OperationType) (worldId : String)
    (actorType : ActorType) (actorUserId : Option String) (allow : Bool)
    (operationId : Option String) :
    Issues I P (operationFor svc opType worldId actorType actorUserId allow operationId) := by
  cases operationId with
  | some opId => exact trivial
  | none =>
    apply Issues.bind
    · exact Issues.bind (issues_createWithReplay lives.toRecords lives.unasked) fun _ => trivial
    · exact fun _ => trivial

theorem issues_start (svc : WorldsService) (worldId : String) (actorType : ActorType)
    (actorUserId : Option String) (allow : Bool) (operationId : Option String) :
    Issues I P (start svc worldId actorType actorUserId allow operationId) := by
  apply Issues.bind (issues_preflight lives worldId)
  intro _
  apply Issues.bind (issues_operationFor lives svc _ _ _ _ _ _)
  intro opId
  apply Issues.handle (issues_launch lives svc worldId opId)
  intro e
  unfold launchFailed
  split
  · apply Issues.bind (issues_closeSession lives _ _)
    intro _
    apply Issues.bind (issues_setWorldState lives _ _ _)
    intro _
    exact issues_milestone lives (.inl rfl) trivial
  · split
    · exact trivial
    · apply Issues.bind (issues_failOp lives _ _ _ _)
      intro _
      exact Issues.bind (issues_setWorldState lives _ _ _) fun _ => trivial

theorem issues_endFailed (svc : WorldsService) (opId code : String) (e : Exn) :
    Issues I P (endFailed svc opId code e) :=
  Issues.bind (issues_failOp lives _ _ _ _) fun _ => trivial

theorem issues_stop (svc : WorldsService) (worldId : String) (actorType : ActorType)
    (actorUserId : Option String) (operationId : Option String) :
    Issues I P (stop svc worldId actorType actorUserId operationId) := by
  apply Issues.bind (issues_world worldId)
  intro _
  apply Issues.bind (issues_operationFor lives svc _ _ _ _ _ _)
  intro opId
  have stopped : Issues I P (stopWorld svc worldId opId) := by
    apply issues_milestone lives (.inl rfl)
    apply Issues.bind (issues_setWorldState lives _ _ _)
    intro _
    apply Issues.bind (issues_aside (aside_attemptGracefulStop worldId))
    intro closed
    apply Issues.bind (issues_closeSession lives _ _)
    intro _
    apply Issues.bind (issues_setWorldState lives _ _ _)
    intro _
    exact issues_milestone lives (.inl rfl) trivial
  exact Issues.handle stopped (issues_endFailed lives svc opId _)

theorem issues_kill (svc : WorldsService) (worldId : String) (actorType : ActorType)
    (actorUserId : Option String) (operationId : Option String) :
    Issues I P (kill svc worldId actorType actorUserId operationId) := by
  apply Issues.bind (issues_world worldId)
  intro _
  apply Issues.bind (issues_operationFor lives svc _ _ _ _ _ _)
  intro opId
  have killed : Issues I P (killWorld svc worldId opId) := by
    apply issues_milestone lives (.inl rfl)
    apply Issues.bind (issues_setWorldState lives _ _ _)
    intro _
    have probed : Issues I P (resolveHandle worldId) := Issues.bind Issues.ask fun _ => trivial
    apply Issues.bind probed
    intro handle
    have ended : Issues I P (do
        closeSession worldId .forcedStop
        setWorldState worldId .off
        let _ ← Operations.transition svc.operations opId .completed {
          checkpoint := some { stage := "off" } }
        pure opId) := by
      apply Issues.bind (issues_closeSession lives _ _)
      intro _
      apply Issues.bind (issues_setWorldState lives _ _ _)
      intro _
      exact issues_milestone lives (.inl rfl) trivial
    dsimp only
    split
    · exact issues_asked ended
    · exact ended
  exact Issues.handle killed (issues_endFailed lives svc opId _)

theorem issues_enqueue {svc : WorldsService} {opType : OperationType} {worldId : String}
    {actorType : ActorType} {actorUserId : Option String} {key : String} {check : Prog Unit}
    (h : Issues I P check) :
    Issues I P (enqueue svc opType worldId actorType actorUserId key check) := by
  apply Issues.bind Issues.readCommitted
  intro existing
  split
  · exact trivial
  · apply Issues.bind h
    exact fun _ => issues_createWithReplay lives.toRecords lives.unasked

theorem issues_acceptEula (svc : WorldsService) (worldId actorUserId : String) (accepted : Bool) :
    Issues I P (acceptEula svc worldId actorUserId accepted) := by
  unfold acceptEula
  split
  · exact trivial
  · split
    · exact trivial
    · split
      · exact trivial
      · apply Issues.bind (issues_world worldId)
        intro w
        split
        · exact trivial
        · apply Issues.bind
          · apply Issues.bind (issues_createWithReplay lives.toRecords (lives.eula worldId))
            exact fun _ => trivial
          · intro op
            apply issues_milestone lives (.inl rfl)
            apply Issues.handle
            · apply Issues.bind Issues.readCommitted
              intro actor
              apply Issues.bind
              · apply Issues.bind Issues.draw
                intro auditId
                apply Issues.bind Issues.draw
                intro now
                exact Issues.autocommit ⟨lives.notes _ rfl, fun _ => trivial⟩
              · intro _
                apply issues_asked
                apply Issues.bind (issues_setWorldState lives _ _ _)
                intro _
                apply issues_milestone lives (.inr (lives.eula worldId))
                apply Issues.bind Issues.readCommitted
                intro result
                split <;> exact trivial
            · intro e
              exact issues_milestone lives (.inr (lives.eula worldId)) trivial

/-- What a round does with an operation whose world waits for no other one. -/
theorem issues_claimed (svc : WorldsService) (op : Operation) (waits : Bool) :
    Issues I P ((if waits then pure [] else do
      let claimed ← claimQueued op.opId
      match claimed with
      | none => pure []
      | some claimed => do
        (runClaimed svc op.worldId claimed).handle (failClaimed svc claimed.opId)
        pure [claimed.opId]) : Prog (List String)) := by
  split
  · exact trivial
  · apply Issues.bind (issues_claimQueued lives.toRecords)
    intro claimed
    split
    · exact trivial
    · rename_i claimed
      have ran : Issues I P (runClaimed svc op.worldId claimed) := by
        unfold runClaimed
        split
        · exact trivial
        · dsimp only
          split
          · exact Issues.bind (issues_start lives svc _ _ _ _ _) fun _ => trivial
          · exact Issues.bind (issues_stop lives svc _ _ _ _) fun _ => trivial
          · exact Issues.bind (issues_kill lives svc _ _ _ _) fun _ => trivial
      have failed : ∀ e, Issues I P (failClaimed svc claimed.opId e) := by
        intro e
        apply Issues.bind Issues.readCommitted
        intro current
        split
        · exact trivial
        · split
          · exact trivial
          · exact issues_milestone lives (.inl rfl) trivial
      exact Issues.bind (Issues.handle ran failed) fun _ => trivial

theorem issues_dispatchLifecycle (svc : WorldsService) (seen : List String)
    (ops : List Operation) : Issues I P (dispatchLifecycle svc seen ops) := by
  have one : ∀ op, Issues I P (dispatchQueued svc op) := by
    intro op
    unfold dispatchQueued
    dsimp only
    split
    · exact issues_claimed lives svc op false
    · exact Issues.bind Issues.readCommitted (issues_claimed lives svc op)
  induction ops generalizing seen with
  | nil => exact trivial
  | cons op rest ih =>
    unfold dispatchLifecycle
    split
    · exact ih seen
    · apply Issues.bind (one op)
      intro here
      exact Issues.bind (ih _) fun _ => trivial

end Recorded

end Worlds

end McManager
