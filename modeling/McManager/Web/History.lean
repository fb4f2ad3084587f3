import Mathlib.Algebra.Order.Ring.Int
import Mathlib.Data.List.Sort
import Mathlib.Data.Prod.Lex
import McManager.Framework.PythonInt
import McManager.Store.Effects
import McManager.Web.Requests

/-! The notifications of a user: what the routes list, and what they mark. -/

namespace McManager.History

open Framework

/-- The arguments of `list_notifications`. -/
structure Query where
  severity : Option String := none
  read : Option String := none
  worldId : Option String := none
  limit : String := "50"
  offset : String := "0"
  deriving DecidableEq, Repr

/-- `_page`. -/
def page (limit offset : String) : Option (Nat × Nat) := do
  let limit ← PythonInt.ofText limit.toList
  let offset ← PythonInt.ofText offset.toList
  if limit < 1 ∨ 500 < limit ∨ offset < 0 then none else some (limit.toNat, offset.toNat)

def severityText : NotificationSeverity → String
  | .critical => "critical"
  | .high => "high"
  | .normal => "normal"
  | .informational => "informational"

/-- `_SEVERITY_ORDER`. -/
def severityRank : NotificationSeverity → Nat
  | .critical => 0
  | .high => 1
  | .normal => 2
  | .informational => 3

/-- A notification with the row that its user has for it. -/
structure Entry where
  notification : Notification
  mark : Option NotificationRead
  deriving DecidableEq, Repr

def Entry.readAt (e : Entry) : Option Int := e.mark.bind (·.readAt)

def Entry.dismissedAt (e : Entry) : Option Int := e.mark.bind (·.dismissedAt)

/-- `ORDER BY (read_at IS NOT NULL), severity, created_at DESC`. -/
def Entry.key (e : Entry) : ℕ ×ₗ ℕ ×ₗ ℤ :=
  toLex (e.readAt.isSome.toNat, toLex (severityRank e.notification.severity, -e.notification.createdAt))

structure Listing where
  notifications : List Entry
  unreadCount : Nat
  limit : Nat
  offset : Nat
  total : Nat
  deriving DecidableEq, Repr

/-- The row of a user for a notification. -/
def markOf (reads : List NotificationRead) (userId notificationId : String) :
    Option NotificationRead :=
  reads.find? fun r => r.notificationId == notificationId && r.userId == userId

/-- `notifications n LEFT JOIN notification_reads reads`. -/
def joined (db : Database) (userId : String) : List Entry :=
  db.notifications.map fun n => ⟨n, markOf db.reads userId n.notificationId⟩

/-- What a user has not dismissed. -/
def shown (db : Database) (userId : String) : List Entry :=
  (joined db userId).filter fun e => e.dismissedAt.isNone

/-- The clauses of a query. -/
def Query.selects (q : Query) (e : Entry) : Bool :=
  (match q.severity with
    | some severity => severityText e.notification.severity == severity
    | none => true) &&
  (match q.worldId with
    | some worldId => e.notification.relatedWorldId == some worldId
    | none => true) &&
  (match q.read with
    | some flag => if flag.toLower = "true" then e.readAt.isSome else e.readAt.isNone
    | none => true)

/-- The rows of a query in their order, ties in the order of insertion. -/
def rows (db : Database) (userId : String) (q : Query) : List Entry :=
  ((shown db userId).filter q.selects).insertionSort fun a b => a.key ≤ b.key

/-- `unread_count`. -/
def unreadCount (db : Database) (userId : String) : Nat :=
  ((joined db userId).filter fun e => e.readAt.isNone && e.dismissedAt.isNone).length

/-- `list_notifications`. -/
def listNotifications (db : Database) (userId : String) (q : Query) : Except String Listing := do
  if let some severity := q.severity then
    if severity ∉ ["critical", "high", "normal", "informational"] then
      throw "severity is invalid."
  if let some flag := q.read then
    if flag.toLower ∉ ["true", "false"] then throw "read must be true or false."
  match page q.limit q.offset with
  | none => throw "Invalid pagination values."
  | some (limit, offset) =>
    let rows := rows db userId q
    return {
      notifications := (rows.drop offset).take limit
      unreadCount := unreadCount db userId
      limit, offset
      total := rows.length }

/-- What happens to the notifications: a service publishes one, a user marks one as read or
dismisses it. -/
inductive Event
  | published (n : Notification)
  | read (userId notificationId : String) (now : Int)
  | dismissed (userId notificationId : String) (now : Int)
  deriving DecidableEq, Repr

def Event.statement : Event → Stmt
  | published n => .insertNotification n
  | read userId notificationId now => .markRead notificationId userId now
  | dismissed userId notificationId now => .dismiss notificationId userId now

/-- A statement that is refused changes nothing. -/
def Event.apply (e : Event) (db : Database) : Database :=
  match e.statement.apply db with
  | .ok (db, _) => db
  | .error _ => db

def run (events : List Event) (db : Database) : Database :=
  events.foldl (fun db e => e.apply db) db

/-- `read_all_notifications`: the user reads what is there, each notification at a time of its own. -/
def readAll (times : String → Int) (userId : String) (db : Database) : List Event :=
  db.notifications.map fun n => .read userId n.notificationId (times n.notificationId)

end McManager.History
