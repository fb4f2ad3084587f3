import McManager.Domain.Values

namespace McManager

inductive WorldTransitionIntent
  | ordinary | crashAcknowledgement | errorAcknowledgement | eulaAcceptance
  deriving DecidableEq, Repr

def WorldTransitionIntent.value : WorldTransitionIntent → String
  | .ordinary => "ordinary"
  | .crashAcknowledgement => "crash_acknowledgement"
  | .errorAcknowledgement => "error_acknowledgement"
  | .eulaAcceptance => "eula_acceptance"

/-- `validate_world_instance`: the message of the `DomainInvariantError`, if there is one. -/
def validateWorldInstance (worldId : String) (state : WorldState)
    (preBackupState : Option WorldState) (deletedAt : Option Int) : Option String :=
  if worldId = "" then some "world_id must be a non-empty string"
  else if state = .backingUp then
    if preBackupState = some .off ∨ preBackupState = some .running then
      if deletedAt ≠ none then some "only an off world can be tombstoned" else none
    else some "backing_up worlds require pre_backup_state to be off or running"
  else if preBackupState ≠ none then
    some "pre_backup_state is only set while the world is backing_up"
  else if deletedAt ≠ none ∧ state ≠ .off then some "only an off world can be tombstoned"
  else none

/-- A world that satisfies the domain invariants. -/
structure WorldInstance where
  worldId : String
  state : WorldState
  preBackupState : Option WorldState
  deletedAt : Option Int
  valid : validateWorldInstance worldId state preBackupState deletedAt = none

/-- `_ALLOWED_TRANSITIONS`. -/
def allowedTransitions : WorldState → List WorldState
  | .off => [.queued, .backingUp, .restoring, .eulaRequired]
  | .queued => [.off, .starting]
  | .starting => [.running, .error]
  | .running => [.stopping, .backingUp, .crashed]
  | .stopping => [.off]
  | .restoring => [.off, .error]
  | .backingUp => [.off, .running, .error]
  | .crashed => [.off]
  | .error => [.off]
  | .eulaRequired => [.off]

def guardedExitIntents : WorldState → Option WorldTransitionIntent
  | .crashed => some .crashAcknowledgement
  | .error => some .errorAcknowledgement
  | .eulaRequired => some .eulaAcceptance
  | _ => none

def requiredIntent (state newState : WorldState) : Option WorldTransitionIntent :=
  if newState = .off then guardedExitIntents state else none

/-- The two intent checks of `transition_world`. -/
def refusedIntent (state newState : WorldState) (intent : WorldTransitionIntent) : Option String :=
  match requiredIntent state newState with
  | some required =>
    if intent ≠ required then
      some ("transition from " ++ state.value ++ " to off requires " ++ required.value)
    else none
  | none =>
    if intent ≠ .ordinary then
      some (intent.value ++ " is not valid for transition from " ++ state.value ++ " to " ++
        newState.value)
    else none

/-- `pre_backup_state` after a transition, or the refusal to leave a backup for another state
than the one it started from. -/
def nextPreBackupState (state newState : WorldState) (pre : Option WorldState) :
    Except String (Option WorldState) :=
  if newState = .backingUp ∧ state ≠ .backingUp then .ok (some state)
  else if state = .backingUp ∧ newState ≠ .backingUp then
    if some newState ≠ pre ∧ newState ≠ .error then
      .error "a backup must restore the world to pre_backup_state or enter error"
    else .ok none
  else .ok pre

/-- `transition_world`: the validated replacement world, or the message of the
`InvalidWorldTransition` it raises. -/
def transitionWorld (world : WorldInstance) (newState : WorldState)
    (intent : WorldTransitionIntent) : Except String WorldInstance :=
  if world.deletedAt ≠ none then
    .error ("world " ++ world.worldId ++ " is tombstoned")
  else if newState ≠ world.state ∧ newState ∉ allowedTransitions world.state then
    .error ("world " ++ world.worldId ++ " cannot transition from " ++ world.state.value ++
      " to " ++ newState.value)
  else
    match refusedIntent world.state newState intent with
    | some message => .error message
    | none =>
      match nextPreBackupState world.state newState world.preBackupState with
      | .error message => .error message
      | .ok pre =>
        match h : validateWorldInstance world.worldId newState pre world.deletedAt with
        | some message => .error message
        | none => .ok ⟨world.worldId, newState, pre, world.deletedAt, h⟩

/-- An edge of the lifecycle: the table has it, and the intent is the one it requires. -/
structure Edge (state newState : WorldState) (intent : WorldTransitionIntent) : Prop where
  allowed : newState = state ∨ newState ∈ allowedTransitions state
  intended : requiredIntent state newState = none ∧ intent = .ordinary ∨
    requiredIntent state newState = some intent

instance (s t : WorldState) (i : WorldTransitionIntent) : Decidable (Edge s t i) :=
  decidable_of_iff ((t = s ∨ t ∈ allowedTransitions s) ∧
    (requiredIntent s t = none ∧ i = .ordinary ∨ requiredIntent s t = some i))
    ⟨fun h => ⟨h.1, h.2⟩, fun h => ⟨h.1, h.2⟩⟩

theorem refusedIntent_eq_none {s t : WorldState} {i : WorldTransitionIntent} :
    refusedIntent s t i = none ↔
      requiredIntent s t = none ∧ i = .ordinary ∨ requiredIntent s t = some i := by
  unfold refusedIntent
  cases requiredIntent s t with
  | none => simp
  | some r => simp [eq_comm]

/-- What a transition that goes through has done. -/
theorem transitionWorld_ok {world next : WorldInstance} {newState : WorldState}
    {intent : WorldTransitionIntent} (h : transitionWorld world newState intent = .ok next) :
    world.deletedAt = none ∧ Edge world.state newState intent ∧ next.worldId = world.worldId ∧
      next.state = newState ∧ next.deletedAt = none ∧
      nextPreBackupState world.state newState world.preBackupState = .ok next.preBackupState := by
  unfold transitionWorld at h
  split at h
  · cases h
  rename_i hdeleted
  split at h
  · cases h
  rename_i htable
  split at h
  · cases h
  rename_i hintent
  split at h
  · cases h
  rename_i pre hpre
  split at h
  · cases h
  cases h
  have hdeleted : world.deletedAt = none := by simpa using hdeleted
  have htable : newState = world.state ∨ newState ∈ allowedTransitions world.state := by
    by_contra hn
    exact htable (not_or.mp hn)
  exact ⟨hdeleted, ⟨htable, refusedIntent_eq_none.mp hintent⟩, rfl, rfl, hdeleted, hpre⟩

/-- Leaving a state with an ordinary intent never leaves one that asks for an
acknowledgement. -/
theorem Edge.ordinary {s t : WorldState} (h : Edge s t .ordinary) (hne : t ≠ s) :
    guardedExitIntents s = none := by
  obtain ⟨allowed, intended⟩ := h
  have allowed := allowed.resolve_left hne
  cases s <;> simp [allowedTransitions] at allowed <;>
    simp_all [requiredIntent, guardedExitIntents]

end McManager
