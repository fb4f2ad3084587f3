import McManager.Services.Environment
import McManager.Services.LifecycleRuns

namespace McManager

open Framework

namespace Worlds

/-- A lifecycle call that works for an operation of its own leaves it ended, and Completed
exactly when it returns, if and only if it joined an operation in flight or met what
`Releases` asks for. -/
theorem lifecycle_releases_iff (svc : WorldsService) (call : LifecycleCall) (env : Env)
    (henv : ∀ n x m, Scope.recorded.allowed x m (env n x m)) (db : Database) (keyed : db.Keyed) :
    Released db (run env (call.prog svc none) ⟨.closed db, []⟩).1
        (run env (call.prog svc none) ⟨.closed db, []⟩).2.conn.committed ↔
      (Operations.repeatOf db call.request call.allow).isSome = true ∨
        call.Releases db (run env (call.prog svc none) ⟨.closed db, []⟩).2.log :=
  (run_of_wp henv (wp_lifecycleCall (fun _ _ _ h => h) keyed call none)).released rfl
    (fun _ _ h => h) fun _ h => h

theorem keyed_single (state : WorldState) : (Database.single state).Keyed :=
  ⟨by simp [Database.UniqueOperations, Database.single], by simp [Database.single],
    by simp [Database.single]⟩

/-- A world whose EULA acceptance has been audited. -/
def acceptedWorld (state : WorldState) : Database :=
  { Database.single state with
    audits := [⟨"a", .worldEulaAccepted, .user, some "u", some "u", none, some "w", .accepted, 0⟩] }

theorem keyed_acceptedWorld (state : WorldState) : (acceptedWorld state).Keyed :=
  ⟨(keyed_single state).unique, (keyed_single state).named, (keyed_single state).placed⟩

/-- A stop of a running world, served alone. -/
def stopRun : Except Exn String × Session :=
  run Env.fresh ((LifecycleCall.stop "w" .system none).prog ⟨⟨false, true⟩, true, false⟩ none)
    ⟨.closed (.single .running), []⟩

theorem lifecycle_releases_stop :
    Released (.single .running) stopRun.1 stopRun.2.conn.committed ↔
      (Operations.repeatOf (.single .running) (LifecycleCall.stop "w" .system none).request
        false).isSome = true ∨
      (LifecycleCall.stop "w" .system none).Releases (.single .running) stopRun.2.log :=
  lifecycle_releases_iff ⟨⟨false, true⟩, true, false⟩ (.stop "w" .system none) Env.fresh
    Env.fresh_recorded (.single .running) (keyed_single .running)

/-- A start of a crashed world, served alone. -/
def crashedStartRun : Except Exn String × Session :=
  run Env.fresh ((LifecycleCall.start "w" .system none false).prog ⟨⟨false, true⟩, true, false⟩ none)
    ⟨.closed (acceptedWorld .crashed), []⟩

/-- A start whose gate passes on a crashed world leaves its operation running. -/
theorem lifecycle_call_unreleased : ¬∀ (svc : WorldsService) (call : LifecycleCall) (env : Env),
    (∀ n x m, Scope.recorded.allowed x m (env n x m)) → ∀ db : Database, db.Keyed →
      Released db (run env (call.prog svc none) ⟨.closed db, []⟩).1
        (run env (call.prog svc none) ⟨.closed db, []⟩).2.conn.committed := by
  intro h
  have h : Released (acceptedWorld .crashed) crashedStartRun.1 crashedStartRun.2.conn.committed :=
    h ⟨⟨false, true⟩, true, false⟩ (.start "w" .system none false) Env.fresh Env.fresh_recorded
      (acceptedWorld .crashed) (keyed_acceptedWorld .crashed)
  have left : (crashedStartRun.2.conn.committed.operations.any fun op =>
      !(acceptedWorld .crashed).hasOperation op.opId && !op.terminal) = true := by decide
  obtain ⟨op, hop, hleft⟩ := List.any_eq_true.mp left
  simp only [Bool.and_eq_true, Bool.not_eq_true'] at hleft
  have released := (h op hop hleft.1).1
  rw [hleft.2] at released
  cases released

end Worlds

end McManager
