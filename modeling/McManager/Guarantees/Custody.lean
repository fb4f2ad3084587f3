import McManager.Services.Environment
import McManager.Services.LifecycleRuns

namespace McManager.Worlds

open Framework

/-- A world with an open session in the given state. -/
def sessionWorld (state : WorldState) : Database :=
  { Database.single state with
    sessions := [⟨"rs", "w", 0, none, none, none, 25565, "j", ⟨[], 1, 0, "", ""⟩, none, 0⟩] }

theorem keyed_sessionWorld (state : WorldState) : (sessionWorld state).Keyed :=
  ⟨by simp [Database.UniqueOperations, sessionWorld, Database.single],
    by simp [sessionWorld, Database.single], by simp [sessionWorld, Database.single]⟩

theorem Env.fresh_allowed (n : Nat) (x : Session) (m : Cmd Site Stmt Query) :
    Scope.fresh.allowed x m (Env.fresh n x m) := by
  cases m with
  | draw q => exact Env.fresh_draws n x q
  | _ => trivial

/-- A kill of a running world, served alone. -/
def killRun : Except Exn String × Session :=
  run Env.fresh ((LifecycleCall.kill "w" .system none).prog ⟨⟨false, true⟩, true, false⟩ none)
    ⟨.closed (sessionWorld .running), []⟩

/-- The fresh environment where no terminate brings the process to its end. -/
def Env.unresolved : Env
  | _, _, .ask (.terminate _ _) => .ok ⟨false, false⟩
  | _, _, .ask (.probe worldId _ _) => .ok ⟨true, some ⟨worldId, 1, 0⟩, true⟩
  | n, x, m => Env.fresh n x m

theorem Env.unresolved_allowed (n : Nat) (x : Session) (m : Cmd Site Stmt Query) :
    Scope.fresh.allowed x m (Env.unresolved n x m) := by
  cases m with
  | draw q => exact Env.fresh_draws n x q
  | _ => trivial

/-- The same kill where the process outlives the terminate. -/
def unresolvedRun : Except Exn String × Session :=
  run Env.unresolved ((LifecycleCall.kill "w" .system none).prog ⟨⟨false, true⟩, true, false⟩ none)
    ⟨.closed (sessionWorld .running), []⟩

end McManager.Worlds
