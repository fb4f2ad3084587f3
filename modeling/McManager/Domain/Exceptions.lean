import McManager.Domain.Values

namespace McManager

/-- Exceptions that reach the services from outside: the database driver, RCON, the host. -/
inductive Fault
  | operational (text : String)
  | rcon (text : String)
  | host (text : String)
  deriving DecidableEq, Repr

inductive Exn
  | external (fault : Fault)
  | nestedTransaction
  | integrity (constraint : String)
  | operationConflict (text : String)
  | operationState (text : String)
  | domainInvariant (text : String)
  | worldLifecycle (text : String)
  | worldNotFound (text : String)
  | worldConflict (text : String)
  | startTimeout (text : String)
  | spawnFailed (text : String)
  | configurationConflict (text : String)
  | backupIntegrity (text : String)
  | restorePrecondition (code text : String)
  | retention (text : String)
  | keyError (key : String)
  | valueError (text : String)
  | typeError (text : String)
  | overflowError (text : String)
  | sync (text : String)
  deriving DecidableEq, Repr

def Fault.text : Fault → String
  | .operational t => t
  | .rcon t => t
  | .host t => t

/-- `str(exc)`. -/
def Exn.text : Exn → String
  | .external f => f.text
  | .nestedTransaction => "cannot start a transaction within a transaction"
  | .integrity c => c
  | .operationConflict t => t
  | .operationState t => t
  | .domainInvariant t => t
  | .worldLifecycle t => t
  | .worldNotFound t => t
  | .worldConflict t => t
  | .startTimeout t => t
  | .spawnFailed t => t
  | .configurationConflict t => t
  | .backupIntegrity t => t
  | .restorePrecondition _ t => t
  | .retention t => t
  | .keyError k => k
  | .valueError t => t
  | .typeError t => t
  | .overflowError t => t
  | .sync t => t

/-- `isinstance(exc, WorldLifecycleError)`. -/
def Exn.isWorldLifecycle : Exn → Bool
  | .worldLifecycle _ | .worldNotFound _ | .worldConflict _ | .startTimeout _
  | .spawnFailed _ => true
  | _ => false

end McManager
