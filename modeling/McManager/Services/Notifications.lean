import McManager.Services.Interface

namespace McManager.Notifications

open Framework

structure Rule where
  category : String
  severity : NotificationSeverity
  message : String

/-- `_TERMINAL_NOTIFICATION_RULES`. -/
def terminalRule : OperationType → OperationStatus → Option Rule
  | .start, .completed => some ⟨"world_lifecycle", .informational, "World started."⟩
  | .stop, .completed => some ⟨"world_lifecycle", .informational, "World stopped."⟩
  | .kill, .completed => some ⟨"world_lifecycle", .informational, "World stopped."⟩
  | .crashDetected, .completed => some ⟨"world_lifecycle", .critical, "World crashed."⟩
  | .backup, .completed => some ⟨"backup_restore", .informational, "Backup completed."⟩
  | .backup, .failed => some ⟨"backup_restore", .high, "Backup failed."⟩
  | .restore, .completed => some ⟨"backup_restore", .informational, "Restore completed."⟩
  | .restore, .failed => some ⟨"backup_restore", .high, "Restore failed."⟩
  | .cleanup, .completed => some ⟨"backup_restore", .informational, "Cleanup completed."⟩
  | .sync, .failed => some ⟨"sync", .high, "Sync failed."⟩
  | _, _ => none

def supportedCategories : List String :=
  ["world_lifecycle", "backup_restore", "sync", "security", "storage", "scheduler"]

/-- `NotificationInput`. -/
structure Input where
  category : String
  severity : NotificationSeverity
  message : String
  requiresAction : Bool := false
  relatedOperationId : Option String := none
  relatedWorldId : Option String := none

/-- `_insert`. -/
def insert (notificationId : String) (now : Int) (n : Input) : Block String := do
  Body.write (.insertNotification {
    notificationId
    category := n.category
    severity := n.severity
    message := n.message
    relatedOperationId := n.relatedOperationId
    relatedWorldId := n.relatedWorldId
    requiresAction := n.requiresAction
    createdAt := now })
  pure notificationId

/-- `publish_terminal_operation` inside the transaction of its caller. -/
def publishTerminalOperation (notificationId : String) (now : Int) (operation : Operation) :
    Block (Option String) :=
  if !operation.status.terminal then pure none
  else
    match terminalRule operation.opType operation.status with
    | none => pure none
    | some rule =>
      if operation.opId = "" then .raise (.valueError "terminal operation requires op_id")
      else do
        let existing ← Body.query fun db : Database =>
          db.notifications.find? (·.relatedOperationId == some operation.opId)
        match existing with
        | some n => pure (some n.notificationId)
        | none =>
          let notificationId ← insert notificationId now {
            category := rule.category
            severity := rule.severity
            message := rule.message
            relatedOperationId := some operation.opId
            relatedWorldId := operation.worldId }
          pure (some notificationId)

/-- `publish` in a transaction of its own. -/
def publish (n : Input) : Prog String :=
  if n.category ∉ supportedCategories then
    throw (.valueError ("unsupported notification category: " ++ n.category))
  else do
    let notificationId ← uuid "n"
    let at' ← now
    transactionBare .notify (insert notificationId at' n)

def markRead (notificationId userId : String) : Prog Unit := do
  let at' ← now
  autocommit .markRead (Body.write (.markRead notificationId userId at'))

def dismiss (notificationId userId : String) : Prog Unit := do
  let at' ← now
  autocommit .dismiss (Body.write (.dismiss notificationId userId at'))

/-- Every rule passes the check `_validate` makes of it. -/
theorem terminalRule_supported {t : OperationType} {s : OperationStatus} {r : Rule}
    (h : terminalRule t s = some r) : r.category ∈ supportedCategories := by
  cases t <;> cases s <;> simp [terminalRule] at h <;> subst h <;> decide

theorem terminalRule_terminal {t : OperationType} {s : OperationStatus} {r : Rule}
    (h : terminalRule t s = some r) : s.terminal = true := by
  cases s <;> first | rfl | (cases t <;> simp [terminalRule] at h)

end McManager.Notifications
