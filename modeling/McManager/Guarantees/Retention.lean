import McManager.Services.CleanupRuns

namespace McManager.Cleanup

open Framework

/-- The calls that register, flag or remove backup artifacts, and the one that asks for a
cleanup. -/
inductive RetentionCall
  | register (worldId worldDir backupDir operationId category : String) (running : Bool)
  | flag (artifactId : String)
  | validate (artifactId : String)
  | submit (request : OperationInput) (initial : OperationStatus) (allow : Bool)
  | clean (request : CleanupRequest)

def RetentionCall.program (svc : CleanupService) : RetentionCall → Prog Unit
  | register worldId worldDir backupDir operationId category running =>
    (Backup.createWorldBackup worldId worldDir backupDir operationId category running).bind
      fun _ => .ret ()
  | flag artifactId => Backup.flagSuspect artifactId
  | validate artifactId => (Backup.validateArtifact artifactId).bind fun _ => .ret ()
  | submit request initial allow =>
    (Operations.createWithReplay svc.operations request initial allow).bind fun _ => .ret ()
  | clean request => (evaluateAndExecuteCleanup svc request).bind fun _ => .ret ()

/-- One call of a run, what it meets, and what the clock may read meanwhile. -/
structure RetentionStep where
  call : RetentionCall
  env : Env
  clock : Int → Prop
  ticks : ∀ n x, clock (env n x (.draw .now))

namespace RetentionStep

def serve (svc : CleanupService) (x : Session) (s : RetentionStep) : Session :=
  (run s.env (s.call.program svc) x).2

/-- The steps one after the other, on one connection. -/
def serveAll (svc : CleanupService) (steps : List RetentionStep) (x : Session) : Session :=
  steps.foldl (serve svc) x

theorem ticking_allowed (s : RetentionStep) (n : Nat) (x : Session) (m : Cmd Site Stmt Query) :
    (ticking s.clock).allowed x m (s.env n x m) := by
  cases m with
  | draw q =>
    cases q with
    | now => exact s.ticks n x
    | _ => exact trivial
  | begin t => cases s.env n x (.begin t) <;> exact trivial
  | execute t s' => cases s.env n x (.execute t s') <;> exact trivial
  | select t => cases s.env n x (.select t) <;> exact trivial
  | commit t => cases s.env n x (.commit t) <;> exact trivial
  | rollback => exact trivial
  | read t => cases s.env n x (.read t) <;> exact trivial
  | ask q => exact trivial

theorem serve_of_triple {svc : CleanupService} {s : RetentionStep} {P L : Session → Prop}
    (h : Triple (ticking s.clock) P (fun _ => L) (fun _ => L) (s.call.program svc)) {x : Session}
    (hx : P x) : L (serve svc x s) := by
  have ends := run_of_wp s.ticking_allowed (h x hx)
  unfold serve
  cases hr : (run s.env (s.call.program svc) x).1 with
  | ok a => rwa [hr] at ends
  | error e => rwa [hr] at ends

end RetentionStep

/-- The statement removes no artifact. -/
abbrev Spares (s : Stmt) : Prop :=
  ∀ artifactId now deletedBy, s ≠ .deleteArtifact artifactId now deletedBy

theorem issues_flagSuspect (artifactId : String) : Issues (fun _ => True) Spares (Backup.flagSuspect artifactId) :=
  Issues.autocommit ⟨fun _ _ _ h => (nomatch h), fun _ => trivial⟩

theorem issues_rejectArtifact (artifactId text : String) :
    Issues (fun _ => True) Spares (Backup.rejectArtifact artifactId text) :=
  Issues.bind (issues_flagSuspect artifactId) fun _ => trivial

theorem issues_validateArtifact (artifactId : String) :
    Issues (fun _ => True) Spares (Backup.validateArtifact artifactId) := by
  unfold Backup.validateArtifact
  apply Issues.bind Issues.readCommitted
  intro row
  cases row with
  | none => exact trivial
  | some row =>
    apply Issues.bind Issues.ask
    intro there
    have verified : Issues (fun _ => True) Spares ((ask (.archive "verify" row.storagePath)).handle fun _ =>
        (Backup.rejectArtifact artifactId "artifact is not a valid zip").bind fun _ =>
          .ret false) := by
      apply Issues.handle Issues.ask
      intro e
      exact Issues.bind (issues_rejectArtifact _ _) fun _ => trivial
    dsimp only [Program.bind_eq, Program.pure_eq]
    split
    · apply Issues.bind Issues.ask
      intro same
      split
      · exact Issues.bind verified fun _ => trivial
      · apply Issues.bind (issues_rejectArtifact _ _)
        exact fun _ => Issues.bind verified fun _ => trivial
    · apply Issues.bind (issues_rejectArtifact _ _)
      intro _
      apply Issues.bind Issues.ask
      intro same
      split
      · exact Issues.bind verified fun _ => trivial
      · apply Issues.bind (issues_rejectArtifact _ _)
        exact fun _ => Issues.bind verified fun _ => trivial

theorem issues_writeAndRegister (worldId backupDir operationId category : String) :
    Issues (fun _ => True) Spares (Backup.writeAndRegister worldId backupDir operationId category) := by
  unfold Backup.writeAndRegister
  apply Issues.bind Issues.draw
  intro artifactId
  apply Issues.bind Issues.ask
  intro checksum
  apply Issues.bind Issues.draw
  intro at'
  apply Issues.bind
  · exact Issues.autocommitGuarded ⟨fun _ _ _ h => (nomatch h), fun _ => trivial⟩
  · exact fun _ => trivial

theorem issues_createWorldBackup (worldId worldDir backupDir operationId category : String)
    (running : Bool) : Issues (fun _ => True) Spares
      (Backup.createWorldBackup worldId worldDir backupDir operationId category running) := by
  unfold Backup.createWorldBackup
  dsimp only [Program.bind_eq, Program.pure_eq, Program.throw_eq]
  apply Issues.bind Issues.ask
  intro room
  split
  · split
    · apply Issues.bind
      · apply Issues.handle
        · apply Issues.bind Issues.ask
          intro _
          apply Issues.bind Issues.ask
          intro flushed
          split
          · exact issues_writeAndRegister _ _ _ _
          · exact trivial
        · exact fun _ => Issues.bind Issues.ask fun _ => trivial
      · exact fun _ => Issues.bind Issues.ask fun _ => trivial
    · exact issues_writeAndRegister _ _ _ _
  · exact trivial

theorem records_spare : Records (fun _ => True) Spares fun _ => True := by
  apply Records.any
  · intro s hs artifactId now deletedBy h
    rw [h] at hs
    cases hs
  · exact fun _ _ _ _ h => nomatch h
  · exact fun _ _ _ _ _ _ _ _ _ _ _ _ h => nomatch h

/-- Only a cleanup deletes. -/
theorem RetentionCall.issues (svc : CleanupService) (call : RetentionCall)
    (other : ∀ request, call ≠ .clean request) : Issues (fun _ => True) Spares (call.program svc) := by
  cases call with
  | register worldId worldDir backupDir operationId category running =>
    exact Issues.bind (issues_createWorldBackup _ _ _ _ _ _) fun _ => trivial
  | flag artifactId => exact issues_flagSuspect artifactId
  | validate artifactId =>
    exact Issues.bind (issues_validateArtifact artifactId) fun _ => trivial
  | submit request initial allow =>
    have recorded : Issues (fun _ => True) Spares
        (Operations.createWithReplay svc.operations request initial allow) :=
      Operations.issues_createWithReplay records_spare trivial
    exact Issues.bind recorded fun _ => trivial
  | clean request => exact absurd rfl (other request)

/-- What every step of a run finds. -/
structure Stored (x : Session) : Prop where
  unique : UniqueArtifacts x.conn.committed
  pending : Kept x.conn.committed x.conn.view

theorem Leaves.kept {C : Int → Prop} {x y : Session} (h : Leaves C x.conn y) (stored : Stored x) :
    Kept x.conn.committed y.conn.committed ∧ Stored y := by
  have clears : ∀ {d}, Cleared C x.conn.committed d → Kept x.conn.committed d := by
    intro d cleared
    exact ⟨fun unique => cleared.unique unique, (cleared.retains stored.unique).floor⟩
  cases h with
  | untouched same =>
    refine ⟨?_, ?_, ?_⟩
    · rw [same]
      exact Kept.refl _
    · rw [same]
      exact stored.unique
    · rw [same]
      exact stored.pending
  | settled h =>
    obtain ⟨d, closed, cleared⟩ := h
    have kept := clears cleared
    rw [closed]
    refine ⟨kept, ?_, ?_⟩
    · rw [closed]
      exact kept.unique stored.unique
    · rw [closed]
      exact Kept.refl d
  | pending same cleared =>
    have back : UniqueArtifacts y.conn.committed := by
      rw [UniqueArtifacts, same]
      exact stored.unique
    refine ⟨Kept.of_same same, back, ?_, ?_⟩
    · exact fun _ => (clears cleared).unique stored.unique
    · intro key
      rw [liveGroup_congr same]
      exact (clears cleared).floor key

namespace RetentionStep

theorem serve_clean {svc : CleanupService} {s : RetentionStep} {request : CleanupRequest}
    (clean : s.call = .clean request) (x : Session) : Leaves s.clock x.conn (serve svc x s) := by
  apply serve_of_triple (P := fun y => y.conn = x.conn) _ rfl
  rw [clean]
  apply Triple.bind (triple_evaluateAndExecuteCleanup svc request)
  exact fun _ => Triple.ret fun y hy => hy

/-- A step keeps what every group has, up to three. -/
theorem serve_kept (svc : CleanupService) (s : RetentionStep) {x : Session} (stored : Stored x) :
    Kept x.conn.committed (serve svc x s).conn.committed ∧ Stored (serve svc x s) := by
  by_cases clean : ∃ request, s.call = .clean request
  · obtain ⟨request, clean⟩ := clean
    exact (serve_clean clean x).kept stored
  · have issues := s.call.issues svc fun request h => clean ⟨request, h⟩
    have step : ∀ (s : Stmt) d d' n, Spares s → True → s.apply d = .ok (d', n) →
        Kept d d' ∧ True := fun s d d' n hs _ applied => ⟨kept_apply hs applied, trivial⟩
    have chained : Chained Kept (fun _ => True) x.conn.committed (serve svc x s).conn :=
      serve_of_triple (issues.keeps Kept.refl Kept.trans step x.conn.committed)
        ⟨Kept.refl _, stored.pending, trivial, trivial⟩
    exact ⟨chained.1, chained.1.unique stored.unique, chained.2.1⟩

theorem serveAll_kept (svc : CleanupService) (steps : List RetentionStep) {x : Session}
    (stored : Stored x) :
    Kept x.conn.committed (serveAll svc steps x).conn.committed ∧ Stored (serveAll svc steps x) := by
  induction steps generalizing x with
  | nil => exact ⟨Kept.refl _, stored⟩
  | cons s steps ih =>
    have first := serve_kept svc s stored
    have rest := ih first.2
    exact ⟨Kept.trans _ _ _ first.1 rest.1, rest.2⟩

end RetentionStep

open RetentionStep

/-- Every cleanup of a run keeps the floors of every group, in what it commits and in what it may
leave to be committed; and a group that has three live artifacts has three ever after. -/
theorem retention_floors (svc : CleanupService) {db : Database} (unique : UniqueArtifacts db)
    (log : Log) (earlier : List RetentionStep) (step : RetentionStep) (later : List RetentionStep) :
    let before := serveAll svc earlier ⟨.closed db, log⟩
    let after := serve svc before step
    (∀ request, step.call = .clean request →
      Retains step.clock before.conn.committed after.conn.committed ∧
      (after.conn.view = before.conn.view ∨
        Retains step.clock before.conn.committed after.conn.view)) ∧
    ∀ key, 3 ≤ (liveGroup before.conn.committed key).length →
      3 ≤ (liveGroup (serveAll svc later after).conn.committed key).length := by
  intro before after
  have start : Stored ⟨.closed db, log⟩ := ⟨unique, Kept.refl db⟩
  have reached := (serveAll_kept svc earlier start).2
  constructor
  · intro request clean
    cases serve_clean clean before with
    | untouched same =>
      have same : after.conn = before.conn := same
      rw [same]
      exact ⟨retains_same reached.unique rfl, .inl rfl⟩
    | settled h =>
      obtain ⟨d, closed, cleared⟩ := h
      have closed : after.conn = .closed d := closed
      rw [closed]
      have retains := cleared.retains reached.unique
      exact ⟨retains, .inr retains⟩
    | pending same cleared =>
      exact ⟨retains_same reached.unique same, .inr (cleared.retains reached.unique)⟩
  · intro key three
    have now := serve_kept svc step reached
    have rest := serveAll_kept svc later now.2
    have floor := (Kept.trans _ _ _ now.1 rest.1).floor key
    have three : min 3 (liveGroup before.conn.committed key).length = 3 := Nat.min_eq_left three
    rwa [three] at floor

/-- A world with five backups, the newest of them suspect, and a cleanup asked for. -/
def fiveBackups : Database :=
  { Database.single .off with
    operations := [{
      opId := "o", opType := .cleanup, worldId := some "w", actorType := .user
      actorUserId := none, idempotencyKey := none, status := .queued, checkpoint := none
      compensatesOperationId := none, intentAt := 0, startedAt := none, finishedAt := none
      errorCode := none, message := none, data := none, createdAt := 0, updatedAt := 0 }]
    artifacts := [backup "a" 1 false, backup "b" 2 false, backup "c" 3 false, backup "d" 4 false,
      backup "e" 5 true] }
where
  backup (artifactId : String) (createdAt : Int) (suspect : Bool) : BackupArtifact :=
    { artifactId, worldId := some "w", category := "manual", storagePath := artifactId
      checksum := "", suspect, operationId := "o", createdAt }

/-- The cleanup on the tenth day, with the preview it was shown. -/
def tenthDay : RetentionStep where
  call := .clean {
    opId := "o", dryRun := false, policy := ⟨3, 3, some "w"⟩, elevatedConfirmation := false
    scope := "world:w", deletedBy := "u", dryRunOperationId := none }
  env := Env.steady fun
    | .now => (10 * daySeconds : Int)
    | .preview _ _ => some "seen"
    | q => q.smooth "x"
  clock t := t = 10 * daySeconds
  ticks _ _ := rfl

example : ((serve ⟨⟨false, false⟩, fun _ => "seen"⟩ ⟨.closed fiveBackups, []⟩
    tenthDay).conn.committed.artifacts.filter (!·.live)).map (·.artifactId) = ["a", "b"] := by
  decide

theorem retention_floors_tenthDay :
    let svc : CleanupService := ⟨⟨false, false⟩, fun _ => "seen"⟩
    let after := serve svc ⟨.closed fiveBackups, []⟩ tenthDay
    UniqueArtifacts fiveBackups ∧
      Retains tenthDay.clock fiveBackups after.conn.committed ∧
      3 ≤ (liveGroup (serveAll svc [tenthDay] after).conn.committed
        (some "w", "manual")).length := by
  have unique : UniqueArtifacts fiveBackups := List.nodup_iff_pairwise_ne.mpr (by decide)
  have h := retention_floors ⟨⟨false, false⟩, fun _ => "seen"⟩ unique [] [] tenthDay [tenthDay]
  exact ⟨unique, (h.1 _ rfl).1, h.2 _ (by decide)⟩

end McManager.Cleanup
