import McManager.Services.Interface

namespace McManager.Audit

open Framework

/-- `ActorSnapshot`. -/
structure Actor where
  actorType : ActorType
  userId : Option String := none
  username : Option String := none

def username (db : Database) (userId : String) : Option String :=
  (db.users.find? (·.userId == userId)).map (·.username)

/-- The insert of `write`. -/
def insert (auditId : String) (when' : Int) (event : AuditEvent) (actor : Actor)
    (operationId worldId : Option String) (payload : AuditPayload) : Block Unit :=
  Body.write (.insertAudit {
    auditId
    eventType := event
    actorType := actor.actorType
    actorUserId := actor.userId
    actorUsername := actor.username
    operationId
    worldId
    payload
    createdAt := when' })

/-- `write` without a connection of its caller: it commits by itself. -/
def write (event : AuditEvent) (actor : Actor) (worldId : Option String)
    (payload : AuditPayload) : Prog Unit := do
  let auditId ← uuid "au"
  let at' ← now
  autocommit .audit (insert auditId at' event actor none worldId payload)

def snapshotForUser (userId : String) : Prog Actor :=
  read .operationRead fun db =>
    { actorType := .user, userId := some userId, username := username db userId }

end McManager.Audit
