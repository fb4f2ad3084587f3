import Mathlib.Algebra.Order.BigOperators.Group.List
import Mathlib.Algebra.Order.Ring.Nat
import McManager.Services.OperationStages

namespace McManager

open Framework

/-- The ids a table row may clash with. -/
def Database.ids (db : Database) : List String :=
  db.operations.map (·.opId) ++ db.audits.map (·.auditId) ++
    db.notifications.map (·.notificationId) ++ db.secrets.map (·.secretId) ++
    db.sessions.map (·.sessionId)

/-- A text longer than every id in use. -/
def Database.freshId (db : Database) : String :=
  String.ofList (List.replicate ((db.ids.map String.length).sum + 1) 'x')

theorem Database.freshId_length (db : Database) :
    db.freshId.length = (db.ids.map String.length).sum + 1 := by
  simp [freshId]

theorem Database.freshId_notMem (db : Database) : db.freshId ∉ db.ids := by
  intro h
  have hle := List.single_le_sum (fun n _ => Nat.zero_le n) _
    (List.mem_map_of_mem (f := String.length) h)
  rw [db.freshId_length] at hle
  omega

theorem Database.freshId_unused (db : Database) : db.unused db.freshId = true := by
  have h := db.freshId_notMem
  simp only [ids, List.mem_append, List.mem_map, not_or, not_exists, not_and] at h
  obtain ⟨⟨⟨⟨hop, haudit⟩, hnotification⟩, hsecret⟩, hsession⟩ := h
  simp only [unused, Bool.and_eq_true, Bool.not_eq_true', hasOperation, hasNotification, hasSecret,
    List.any_eq_false, beq_iff_eq]
  exact ⟨⟨⟨⟨hop, haudit⟩, hnotification⟩, hsecret⟩, hsession⟩

/-- The smooth environment with ids that are not in use yet. -/
def Env.fresh : Env
  | _, x, .draw (.uuid _) => x.conn.view.freshId
  | n, x, m => Env.smooth "" n x m

/-- The environment in which no command fails and every question has its one answer. -/
def Env.steady (answer : (q : Query) → Answer q) : Env
  | _, _, .ask q => .ok (answer q)
  | _, _, .draw q => answer q
  | _, _, .begin _ => none
  | _, _, .execute _ _ => none
  | _, _, .select _ => none
  | _, _, .commit _ => none
  | _, _, .rollback => none
  | _, _, .read _ => none

/-- What may happen in a steady environment. -/
def Scope.steady (answer : (q : Query) → Answer q) : Scope where
  fails _ _ := False
  answers _ q o := o = .ok (answer q)
  draws _ q v := v = answer q

theorem Env.steady_allowed (answer : (q : Query) → Answer q) (n : Nat) (x : Session)
    (m : Cmd Site Stmt Query) : (Scope.steady answer).allowed x m (Env.steady answer n x m) := by
  cases m <;> first | rfl | trivial

/-- `create_with_replay` in a steady environment: its transaction and nothing else. -/
theorem Operations.run_create_steady (svc : OperationService) (request : OperationInput)
    (initial : OperationStatus) (allow : Bool) (answer : (q : Query) → Answer q) (db : Database)
    (log : Log) :
    run (Env.steady answer) (createWithReplay svc request initial allow) ⟨.closed db, log⟩ =
      match (createBlock request initial allow (answer (.uuid "op")) (answer (.uuids "au"))
        (answer .now)).eval db with
      | .ok ((op, _, replayed), db') => (.ok (op, replayed), ⟨.closed db', log ++ [.committed .create]⟩)
      | .error e => (.error e, ⟨.closed db, log⟩) := by
  suffices h : wp (Scope.steady answer) (fun r y => (r, y) =
      match (createBlock request initial allow (answer (.uuid "op")) (answer (.uuids "au"))
        (answer .now)).eval db with
      | .ok ((op, _, replayed), db') => (.ok (op, replayed), ⟨.closed db', log ++ [.committed .create]⟩)
      | .error e => (.error e, ⟨.closed db, log⟩))
      (createWithReplay svc request initial allow) ⟨.closed db, log⟩ from
    run_of_wp (Env.steady_allowed answer) h
  unfold createWithReplay
  simp only [Program.bind_eq]
  refine wp_draw_bind fun now hnow => wp_draw_bind fun opId hopId =>
    wp_draw_bind fun auditIds hauditIds => ?_
  cases hnow
  cases hopId
  cases hauditIds
  rw [wp_bind]
  refine wp_transaction ?_ ?_ (fun φ h => h.elim)
  · rintro ⟨op, cancelled, replayed⟩ db' h
    rw [h]
    dsimp only
    rw [wp_bind]
    refine wp_publishTerminals cancelled ?_ (fun φ h => h.elim)
    dsimp only
    split
    · rw [wp_bind]
      exact wp_read rfl (fun φ h => h.elim)
    · exact rfl
  · intro e h
    rw [h]

/-- Ids are fresh, and the statements by which an operation's milestones are stored and
published go through. Everything else may fail and answer as it likes. -/
def Scope.recorded : Scope where
  fails t _ := match t with
    | .transition _ | .publishRead => False
    | _ => True
  answers _ _ _ := True
  draws := FreshDraw

/-- Ids are fresh, and everything may fail. -/
def Scope.fresh : Scope where
  fails _ _ := True
  answers _ _ _ := True
  draws := FreshDraw

theorem Env.fresh_draws (n : Nat) (x : Session) (q : Query) :
    FreshDraw x q (Env.fresh n x (.draw q)) := by
  cases q with
  | uuid kind =>
    refine ⟨fun h => ?_, x.conn.view.freshId_unused⟩
    have hlength := congrArg String.length h
    change x.conn.view.freshId.length = 0 at hlength
    rw [Database.freshId_length] at hlength
    omega
  | _ => trivial

theorem Env.fresh_recorded (n : Nat) (x : Session) (m : Cmd Site Stmt Query) :
    Scope.recorded.allowed x m (Env.fresh n x m) := by
  cases m with
  | draw q => exact Env.fresh_draws n x q
  | _ => trivial

end McManager
