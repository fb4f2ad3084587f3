import McManager.Services.Environment

namespace McManager.Operations

open Framework

/-- The Kill `kill` of a world took the place of its Stops between `db` and `db'`. -/
structure Supersedes (worldId : String) (kill : Operation) (db db' : Database) : Prop where
  admitted : kill ∈ db'.operations ∧ kill.opType = .kill ∧ kill.worldId = some worldId ∧
    kill.inFlight = true
  /-- Every Stop is cancelled and audited. -/
  stops : ∀ stop ∈ inFlightOf db worldId, stop.opType = .stop →
    ∃ now, stop.cancel now "superseded_by_kill" ∈ db'.operations ∧
      ∃ audit ∈ db'.audits, audit ∉ db.audits ∧ audit.operationId = some stop.opId ∧
        audit.eventType = .operation .stop .cancelled
  /-- No other runtime operation of the world is in flight. -/
  alone : ∀ op ∈ inFlightOf db' worldId, op.opType.runtime = true → op = kill
  others : ∀ op ∈ db.operations, op.inFlight = true →
    ¬(op.worldId = some worldId ∧ op.opType = .stop) → op ∈ db'.operations

/-- A Kill as the callers ask for it, and the rows and ids it needs. -/
structure KillRequest (db : Database) (worldId : String) (request : OperationInput)
    (initial : OperationStatus) (answer : (q : Query) → Answer q) : Prop where
  kill : request.opType = .kill
  ofWorld : request.worldId = some worldId
  initially : initial.inFlight = true
  world : db.hasWorld worldId = true
  actor : references request.actorUserId db.hasUser = true
  compensates : references request.compensatesOperationId db.hasOperation = true
  newId : db.hasOperation (answer (.uuid "op")) = false
  newAudits : ∀ n, db.audits.any (·.auditId == answer (.uuids "au") n) = false
  ownAudits : Function.Injective (answer (.uuids "au"))

section Kill

variable {db : Database} {worldId : String} {request : OperationInput}
  {initial : OperationStatus} {answer : (q : Query) → Answer q}

/-- A Kill beside a Stop is let in only when it cancels all there is. -/
theorem admits_kill {active victims : List Operation} {status s : OperationStatus}
    (kill : request.opType = .kill) (stop : ∃ op ∈ active, op.opType = .stop)
    (h : Admits request active status victims s) : ∀ op ∈ active, op.opType = .stop := by
  obtain ⟨op, hop, hstop⟩ := stop
  cases h with
  | alone none =>
    rw [none] at hop
    exact absurd hop List.not_mem_nil
  | overStops _ all => exact all
  | overDeletes _ restore =>
    rw [kill] at restore
    exact nomatch restore
  | beside _ _ hs =>
    have refused : (active.map (·.opType)).all (fun t => t == .backup || t == .cleanup) = false := by
      rw [List.all_eq_false]
      exact ⟨op.opType, List.mem_map_of_mem hop, by rw [hstop]; decide⟩
    simp only [statusBeside, kill, refused, Bool.false_eq_true, if_false] at hs
    exact nomatch hs

/-- Over Stops alone the policy cancels them all. -/
theorem applyConflictPolicy_stops (unique : db.UniqueOperations) (kill : request.opType = .kill)
    (stop : ∃ op ∈ inFlightOf db worldId, op.opType = .stop)
    (stops : ∀ op ∈ inFlightOf db worldId, op.opType = .stop) (status : OperationStatus)
    (now : Int) :
    (applyConflictPolicy request (inFlightOf db worldId) status now).eval db =
      .ok (⟨[], status, (inFlightOf db worldId).map (Operation.cancel now "superseded_by_kill")⟩,
        { db with
          operations := cancelAll ((inFlightOf db worldId).map (·.opId)) now "superseded_by_kill"
            db.operations }) := by
  have nonempty : inFlightOf db worldId ≠ [] := by
    obtain ⟨op, hop, -⟩ := stop
    exact List.ne_nil_of_mem hop
  have different : ((inFlightOf db worldId).any fun op => op.opType == request.opType) = false := by
    rw [List.any_eq_false]
    intro op hop
    rw [stops op hop, kill]
    decide
  have all : (inFlightOf db worldId).all (fun op => op.opType == .stop) = true := by
    rw [List.all_eq_true]
    intro op hop
    rw [stops op hop]
    rfl
  unfold applyConflictPolicy
  rw [if_neg nonempty, different, Bool.false_and, if_neg Bool.false_ne_true, if_pos ⟨kill, all⟩,
    Body.bind_eq, Body.eval_bind, cancelRows_eval unique now _ _ (inFlightOf_nodup unique worldId)
      fun row hr => ⟨(mem_inFlightOf.mp hr).1, (mem_inFlightOf.mp hr).2.2⟩]
  rfl

/-- Audits of rows that are there, under new ids, are written. -/
theorem writeTerminalAudits_total {auditIds : Nat → String} {rows : List Operation} {n : Nat}
    {db : Database} (fresh : ∀ i, n ≤ i → db.audits.any (·.auditId == auditIds i) = false)
    (own : Function.Injective auditIds)
    (present : ∀ op ∈ rows, db.hasOperation op.opId = true ∧
      references op.worldId db.hasWorld = true) :
    ∃ r, (Body.each (fun row : Operation × Nat => writeTerminalAudit (auditIds row.2) row.1)
      (rows.zipIdx n)).eval db = .ok r := by
  induction rows generalizing n db with
  | nil => exact ⟨_, rfl⟩
  | cons op rows ih =>
    obtain ⟨there, placed⟩ := present op (by simp)
    apply Body.eval_bind_total
    · exact writeTerminalAudit_total (fresh n le_rfl) there placed
    · intro u db' h
      have same := writeTerminalAudit_ok h
      subst same
      apply Body.eval_bind_total
      · apply ih
        · intro i hi
          have other : auditIds n ≠ auditIds i := fun h => by
            have := own h
            omega
          rw [List.any_append, fresh i (by omega)]
          simpa [terminalAudit] using other
        · exact fun op hop => present op (by simp [hop])
      · exact fun _ _ _ => ⟨_, rfl⟩

/-- An admitted request is stored when its row meets the constraints and its audits are new. -/
theorem insertAdmitted_total {a : Admission} {opId : String} {auditIds : Nat → String} {now : Int}
    (stored : ∃ r, Store.apply (Stmt.insertOperation (newOperation request opId a.status now)) db =
      .ok r)
    (fresh : ∀ i, db.audits.any (·.auditId == auditIds i) = false)
    (own : Function.Injective auditIds)
    (present : ∀ op ∈ a.cancelled, db.hasOperation op.opId = true ∧
      references op.worldId db.hasWorld = true) :
    ∃ r, (insertAdmitted request a opId auditIds now).eval db = .ok r := by
  apply Body.eval_bind_total (Body.eval_write_total stored)
  intro u db' h
  obtain ⟨n, h⟩ := Body.eval_write_ok h
  obtain ⟨-, rfl, -⟩ := satisfying_ok.mp h
  have there : ∀ op ∈ a.cancelled, Database.hasOperation { db with
      operations := db.operations ++ [newOperation request opId a.status now] } op.opId = true ∧
        references op.worldId db.hasWorld = true := by
    intro op hop
    obtain ⟨here, placed⟩ := present op hop
    refine ⟨?_, placed⟩
    rw [hasOperation_iff, List.map_append]
    exact List.mem_append_left _ (hasOperation_iff.mp here)
  apply Body.eval_bind_total
  · exact @writeTerminalAudits_total auditIds a.cancelled 0 _ (fun i _ => fresh i) own there
  · exact fun _ _ _ => ⟨_, rfl⟩

/-- The database a Kill over the Stops of its world leaves. -/
theorem createBlock_stops (unique : db.UniqueOperations)
    (h : KillRequest db worldId request initial answer)
    (newKey : db.keyTaken .kill request.idempotencyKey = false)
    (stop : ∃ op ∈ inFlightOf db worldId, op.opType = .stop)
    (stops : ∀ op ∈ inFlightOf db worldId, op.opType = .stop) :
    ∃ cancelled, (createBlock request initial false (answer (.uuid "op")) (answer (.uuids "au"))
      (answer .now)).eval db =
        .ok ((newOperation request (answer (.uuid "op")) initial (answer .now), cancelled, false),
          created db (inFlightOf db worldId) (answer .now) "superseded_by_kill"
            (answer (.uuids "au"))
            (newOperation request (answer (.uuid "op")) initial (answer .now))) := by
  have other : request.opType ≠ .sync := by
    rw [h.kill]
    decide
  have unused : (if request.idempotencyKey.isSome then db.operations.find? fun op =>
      op.opType == request.opType && op.idempotencyKey == request.idempotencyKey else none) =
      none := by
    rw [existing_none_iff, h.kill]
    exact newKey
  have new : repeatOf db request false = none := by
    unfold repeatOf
    split
    · rw [List.find?_eq_none]
      intro op _
      rw [h.kill]
      simp
    · rfl
  have status : requestedStatus db request initial = initial := by
    unfold requestedStatus
    rw [h.kill]
  rw [createBlock_eval h.ofWorld other, unused, new]
  dsimp only
  rw [status, Body.eval_bind, applyConflictPolicy_stops unique h.kill stop stops]
  dsimp only
  generalize hcancelled : cancelAll ((inFlightOf db worldId).map (·.opId)) (answer .now)
    "superseded_by_kill" db.operations = operations
  have same : ∀ opId, Database.hasOperation { db with operations } opId = db.hasOperation opId := by
    intro opId
    rw [← hcancelled, hasOperation_cancelAll]
  have stored : ∃ r, Store.apply (Stmt.insertOperation (newOperation request
      (answer (.uuid "op")) initial (answer .now))) { db with operations } = .ok r := by
    refine ⟨_, satisfying_ok.mpr ⟨?_, rfl, rfl⟩⟩
    have key : Database.keyTaken { db with operations } request.opType request.idempotencyKey =
        false := by
      rw [h.kill, ← hcancelled, keyTaken_cancelAll]
      exact newKey
    have compensates : references request.compensatesOperationId
        (Database.hasOperation { db with operations }) = true := by
      rw [funext same]
      exact h.compensates
    have world : references request.worldId db.hasWorld = true := by
      rw [h.ofWorld]
      exact h.world
    simp only [List.mem_cons, List.not_mem_nil, or_false, forall_eq_or_imp, forall_eq,
      newOperation, key, same, h.newId]
    exact ⟨rfl, rfl, world, h.actor, compensates⟩
  have present : ∀ op ∈ (inFlightOf db worldId).map
      (Operation.cancel (answer .now) "superseded_by_kill"),
      Database.hasOperation { db with operations } op.opId = true ∧
        references op.worldId db.hasWorld = true := by
    intro op hop
    obtain ⟨old, hold, rfl⟩ := List.mem_map.mp hop
    obtain ⟨hmem, hworld, -⟩ := mem_inFlightOf.mp hold
    refine ⟨?_, ?_⟩
    · rw [same, hasOperation_iff]
      exact List.mem_map.mpr ⟨old, hmem, rfl⟩
    · rw [Operation.cancel, hworld]
      exact h.world
  have total := insertAdmitted_total (a := ⟨[], initial, (inFlightOf db worldId).map
    (Operation.cancel (answer .now) "superseded_by_kill")⟩) stored h.newAudits h.ownAudits present
  obtain ⟨⟨r, db'⟩, total⟩ := total
  rw [← hcancelled] at total ⊢
  obtain ⟨rfl, -, -, rfl⟩ := insertAdmitted_ok rfl total
  exact ⟨_, total⟩

/-- Cancelling the Stops of a world, and nothing else, makes way for the Kill. -/
theorem supersedes_created (unique : db.UniqueOperations)
    (h : KillRequest db worldId request initial answer)
    (stops : ∀ op ∈ inFlightOf db worldId, op.opType = .stop) :
    Supersedes worldId (newOperation request (answer (.uuid "op")) initial (answer .now)) db
      (created db (inFlightOf db worldId) (answer .now) "superseded_by_kill"
        (answer (.uuids "au"))
        (newOperation request (answer (.uuid "op")) initial (answer .now))) where
  admitted := ⟨List.mem_append_right _ (List.mem_singleton_self _), h.kill, h.ofWorld, h.initially⟩
  stops stop hstop _ := by
    obtain ⟨hmem, -, hflight⟩ := mem_inFlightOf.mp hstop
    refine ⟨answer .now, ?_, ?_⟩
    · apply List.mem_append_left
      exact mem_cancelAll.mpr ⟨stop, hmem, .inl ⟨List.mem_map_of_mem hstop, hflight, rfl⟩⟩
    · obtain ⟨i, hi⟩ := List.mem_iff_get.mp (List.mem_map_of_mem
        (f := Operation.cancel (answer .now) "superseded_by_kill") hstop)
      have listed : (stop.cancel (answer .now) "superseded_by_kill", i.1) ∈
          ((inFlightOf db worldId).map
            (Operation.cancel (answer .now) "superseded_by_kill")).zipIdx := by
        rw [← hi]
        exact List.mem_zipIdx_iff_getElem?.mpr (List.getElem?_eq_getElem i.2)
      refine ⟨_, List.mem_append_right _ (List.mem_map_of_mem listed), ?_, rfl, ?_⟩
      · intro old
        have taken := h.newAudits i.1
        rw [List.any_eq_false] at taken
        exact taken _ old (beq_self_eq_true _)
      · change AuditEvent.operation stop.opType .cancelled = _
        rw [stops stop hstop]
  alone op hop _ := by
    obtain ⟨hmem, hworld, hflight⟩ := mem_inFlightOf.mp hop
    rcases List.mem_append.mp hmem with hmem | hmem
    · obtain ⟨old, hold, ⟨-, -, rfl⟩ | ⟨kept, rfl⟩⟩ := mem_cancelAll.mp hmem
      · exact nomatch hflight
      · have active := mem_inFlightOf.mpr ⟨hold, hworld, hflight⟩
        exact absurd ⟨List.mem_map_of_mem active, hflight⟩ kept
    · exact List.mem_singleton.mp hmem
  others op hop hflight other := by
    apply List.mem_append_left
    refine mem_cancelAll.mpr ⟨op, hop, .inr ⟨?_, rfl⟩⟩
    rintro ⟨listed, -⟩
    obtain ⟨stop, hstop, same⟩ := List.mem_map.mp listed
    obtain ⟨hmem, hworld, -⟩ := mem_inFlightOf.mp hstop
    obtain rfl := nodup_key_inj unique hmem hop same
    exact other ⟨hworld, stops stop hstop⟩

/-- A Kill takes the place of the Stops of its world, in one transaction, exactly when its key is
new and nothing but Stops of the world is in flight. -/
theorem kill_supersedes_iff (svc : OperationService) (db : Database) (worldId : String)
    (request : OperationInput) (initial : OperationStatus) (answer : (q : Query) → Answer q)
    (log : Log) (unique : db.UniqueOperations) (h : KillRequest db worldId request initial answer)
    (stop : ∃ op ∈ inFlightOf db worldId, op.opType = .stop) :
    (∃ kill db', run (Env.steady answer) (createWithReplay svc request initial false)
        ⟨.closed db, log⟩ = (.ok (kill, false), ⟨.closed db', log ++ [.committed .create]⟩) ∧
      Supersedes worldId kill db db') ↔
    db.keyTaken .kill request.idempotencyKey = false ∧
      ∀ op ∈ inFlightOf db worldId, op.opType = .stop := by
  constructor
  · rintro ⟨kill, db', ran, -⟩
    rw [run_create_steady] at ran
    split at ran
    · rename_i op cancelled replayed db'' made
      cases ran
      obtain ⟨replayed, -⟩ | ⟨-, -, victims, s, code, admitted, -, -, newKey, -⟩ :=
        createBlock_ok unique made
      · exact nomatch replayed
      · rw [h.kill] at newKey
        refine ⟨newKey, ?_⟩
        cases admitted with
        | unchecked no =>
          rw [h.ofWorld, h.kill] at no
          obtain no | no | no := no <;> exact nomatch no
        | checked world _ _ ofWorld _ _ _ admits _ =>
          obtain rfl : worldId = world := Option.some.inj (h.ofWorld.symm.trans ofWorld)
          exact admits_kill h.kill stop admits
    · exact nomatch ran
  · rintro ⟨newKey, stops⟩
    obtain ⟨cancelled, made⟩ := createBlock_stops unique h newKey stop stops
    refine ⟨_, _, ?_, supersedes_created unique h stops⟩
    rw [run_create_steady, made]

end Kill

/-- The answers of an environment with ids of their own for every audit record. -/
def audited : (q : Query) → Answer q
  | .uuids _ => fun n => String.ofList (List.replicate (n + 1) 'a')
  | q => q.smooth "kill"

theorem audited_injective : Function.Injective (audited (.uuids "au")) := by
  intro a b h
  have same := congrArg String.length h
  simp only [audited, String.length_ofList, List.length_replicate] at same
  omega

theorem audited_new (n : Nat) (db : Database) (h : db.audits = []) :
    db.audits.any (·.auditId == audited (.uuids "au") n) = false := by
  rw [h]
  rfl

def killOf (worldId : String) : OperationInput :=
  { opType := .kill, actorType := .user, worldId := some worldId, actorUserId := some "u" }

/-- A running Stop of the world `w`. -/
def stopping : Database :=
  { Database.single .stopping with
    operations := [newOperation { killOf "w" with opType := .stop } "stop" .running 0] }

theorem kill_supersedes_stopping :
    ∃ kill db', run (Env.steady audited) (createWithReplay ⟨false, false⟩ (killOf "w") .queued false)
        ⟨.closed stopping, []⟩ = (.ok (kill, false), ⟨.closed db', [] ++ [.committed .create]⟩) ∧
      Supersedes "w" kill stopping db' :=
  (kill_supersedes_iff ⟨false, false⟩ stopping "w" (killOf "w") .queued audited []
    (by unfold Database.UniqueOperations; decide)
    ⟨rfl, rfl, rfl, by decide, by decide, rfl, by decide, fun n => audited_new n _ rfl,
      audited_injective⟩ (by decide)).mpr (by decide)

/-- The databases that requests under the conflict policy lead to. -/
inductive Produced : Database → Prop
  | start (db : Database) : db.operations = [] → Produced db
  | request {db db' : Database} (request : OperationInput) (opId : String)
      (auditIds : Nat → String) (now : Int) {r : Operation × List Operation × Bool} :
      Produced db → (createBlock request .queued false opId auditIds now).eval db = .ok (r, db') →
      Produced db'

/-- A Stop that waits behind a Backup of its world. -/
def stopBehindBackup : Database :=
  { Database.single .running with
    operations :=
      [newOperation { killOf "w" with opType := .backup } "backup" .queued 0,
        newOperation { killOf "w" with opType := .stop } "stop" .queued 0] }

theorem stopBehindBackup_produced : Produced stopBehindBackup := by
  have start := Produced.start (Database.single .running) rfl
  have backup := start.request { killOf "w" with opType := .backup } "backup" (fun _ => "") 0 rfl
  exact backup.request { killOf "w" with opType := .stop } "stop" (fun _ => "") 0 rfl

/-- The Kill of a world whose Stop waits behind a Backup is refused. -/
theorem kill_refused : ¬∀ (svc : OperationService) (db : Database) (worldId : String)
    (request : OperationInput) (initial : OperationStatus) (answer : (q : Query) → Answer q)
    (log : Log), Produced db → db.UniqueOperations →
    KillRequest db worldId request initial answer →
    db.keyTaken .kill request.idempotencyKey = false →
    (∃ op ∈ inFlightOf db worldId, op.opType = .stop) →
    ∃ kill db', run (Env.steady answer) (createWithReplay svc request initial false)
        ⟨.closed db, log⟩ = (.ok (kill, false), ⟨.closed db', log ++ [.committed .create]⟩) ∧
      Supersedes worldId kill db db' := by
  intro h
  obtain ⟨kill, db', ran, -⟩ := h ⟨false, false⟩ stopBehindBackup "w" (killOf "w") .queued audited []
    stopBehindBackup_produced (by unfold Database.UniqueOperations; decide)
    ⟨rfl, rfl, rfl, by decide, by decide, rfl, by decide, fun n => audited_new n _ rfl,
      audited_injective⟩ rfl (by decide)
  rw [run_create_steady] at ran
  exact nomatch ran

end McManager.Operations
