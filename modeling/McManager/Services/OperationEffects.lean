import McManager.Services.Operations
import McManager.Store.Effects

namespace McManager

open Framework

/-- An operation after `_cancel_row`. -/
def Operation.cancel (now : Int) (errorCode : String) (op : Operation) : Operation :=
  { op with
    status := .cancelled, finishedAt := some now, errorCode := some errorCode, updatedAt := now }

@[simp] theorem Operation.cancel_opId (now : Int) (code : String) (op : Operation) :
    (op.cancel now code).opId = op.opId := rfl

@[simp] theorem Operation.cancel_inFlight (now : Int) (code : String) (op : Operation) :
    (op.cancel now code).inFlight = false := rfl

namespace Operations

/-- The operations table after the named rows have been cancelled. -/
def cancelAll (ids : List String) (now : Int) (code : String) (ops : List Operation) :
    List Operation :=
  updateWhere (fun op => ids.contains op.opId && op.inFlight) (Operation.cancel now code) ops

theorem cancelAll_nil (now : Int) (code : String) (ops : List Operation) :
    cancelAll [] now code ops = ops :=
  updateWhere_eq_self fun _ _ => rfl

theorem cancelAll_cons (id : String) (ids : List String) (now : Int) (code : String)
    (ops : List Operation) :
    cancelAll ids now code (cancelAll [id] now code ops) = cancelAll (id :: ids) now code ops := by
  simp only [cancelAll, updateWhere, List.map_map]
  refine List.map_congr_left fun op _ => ?_
  simp only [Function.comp, List.contains_cons, List.contains_nil, Bool.or_false]
  cases op.opId == id <;> cases h : op.inFlight <;> simp [h]

theorem mem_cancelAll {ids : List String} {now : Int} {code : String} {ops : List Operation}
    {op : Operation} :
    op ∈ cancelAll ids now code ops ↔ ∃ old ∈ ops,
      (old.opId ∈ ids ∧ old.inFlight = true ∧ op = old.cancel now code) ∨
      (¬(old.opId ∈ ids ∧ old.inFlight = true) ∧ op = old) := by
  rw [cancelAll, mem_updateWhere]
  refine exists_congr fun old => and_congr_right fun _ => ?_
  cases old.inFlight <;> simp

theorem cancelAll_ids (ids : List String) (now : Int) (code : String) (ops : List Operation) :
    (cancelAll ids now code ops).map (·.opId) = ops.map (·.opId) :=
  updateWhere_map (f := Operation.cancel now code) (fun _ => rfl) ops

theorem apply_cancelOperation (db : Database) (opId : String) (now : Int) (code : String) :
    (Stmt.cancelOperation opId now code).apply db =
      .ok ({ db with operations := cancelAll [opId] now code db.operations },
        db.operations.countP fun op => op.opId == opId && op.inFlight) := by
  have hp : (fun op : Operation => op.opId == opId && op.inFlight) =
      fun op => [opId].contains op.opId && op.inFlight := by
    funext op
    simp only [List.contains_cons, List.contains_nil, Bool.or_false]
  simp only [Stmt.apply, cancelAll, hp]
  rfl

/-- Cancelling a row of the table. -/
theorem cancelRow_eval {db : Database} (unique : db.UniqueOperations) {now : Int} {code : String}
    {row : Operation} (hrow : row ∈ db.operations) (inFlight : row.inFlight = true) :
    (cancelRow now code row).eval db = .ok (row.cancel now code,
      { db with operations := cancelAll [row.opId] now code db.operations }) := by
  have hop := Database.operation?_eq unique hrow
  have hfind : Database.operation?
      { db with operations := cancelAll [row.opId] now code db.operations } row.opId =
      some (row.cancel now code) := by
    simp only [Database.operation?, cancelAll] at hop ⊢
    rw [find?_updateWhere (f := Operation.cancel now code) fun _ => rfl, hop]
    simp [inFlight]
  simp only [cancelRow, Body.bind_eq, Body.eval_write_bind, store_apply, apply_cancelOperation,
    Body.eval_query_bind, hfind, Body.pure_eq, Body.eval_ret]

theorem cancelRows_eval {db : Database} (unique : db.UniqueOperations) (now : Int)
    (code : String) (rows : List Operation) (nodup : (rows.map (·.opId)).Nodup)
    (hrows : ∀ row ∈ rows, row ∈ db.operations ∧ row.inFlight = true) :
    (Body.each (cancelRow now code) rows).eval db = .ok (rows.map (Operation.cancel now code),
      { db with operations := cancelAll (rows.map (·.opId)) now code db.operations }) := by
  induction rows generalizing db with
  | nil => simp [Body.each, cancelAll_nil]
  | cons row rows ih =>
    obtain ⟨hrow, hflight⟩ := hrows row (by simp)
    obtain ⟨hnotin, nodup⟩ := List.nodup_cons.mp nodup
    have unique' : Database.UniqueOperations
        { db with operations := cancelAll [row.opId] now code db.operations } := by
      simpa [Database.UniqueOperations, cancelAll_ids] using unique
    have hrest : ∀ r ∈ rows, r ∈ cancelAll [row.opId] now code db.operations ∧
        r.inFlight = true := by
      intro r hr
      obtain ⟨hmem, hf⟩ := hrows r (by simp [hr])
      have hne : r.opId ≠ row.opId := fun h =>
        hnotin (List.mem_map.mpr ⟨r, hr, h⟩)
      exact ⟨mem_cancelAll.mpr ⟨r, hmem, .inr ⟨by simp [hne], rfl⟩⟩, hf⟩
    simp only [Body.each, Body.eval_bind, cancelRow_eval unique hrow hflight,
      ih unique' nodup hrest, Body.eval_ret, List.map_cons, cancelAll_cons]

/-- The audit record of an operation that has ended. -/
def terminalAudit (users : List User) (auditId : String) (op : Operation) : AuditRecord where
  auditId
  eventType := .operation op.opType op.status
  actorType := op.actorType
  actorUserId := op.actorUserId
  actorUsername := op.actorUserId.bind fun id => (users.find? (·.userId == id)).map (·.username)
  operationId := some op.opId
  worldId := op.worldId
  payload := .operation op.opType op.status op.errorCode op.message
    (if op.opType = .configEdit then
      some ((op.data.getD {}).entity, (op.data.getD {}).rowId, (op.data.getD {}).before,
        (op.data.getD {}).after)
    else none)
  createdAt := op.finishedAt.getD op.updatedAt

theorem writeTerminalAudit_eval (auditId : String) (op : Operation) (db : Database) :
    (writeTerminalAudit auditId op).eval db =
      (Body.write (.insertAudit (terminalAudit db.users auditId op)) : Block Unit).eval db := rfl

theorem writeTerminalAudit_ok {auditId : String} {op : Operation} {db db' : Database} {u : Unit}
    (h : (writeTerminalAudit auditId op).eval db = .ok (u, db')) :
    db' = { db with audits := db.audits ++ [terminalAudit db.users auditId op] } := by
  rw [writeTerminalAudit_eval] at h
  obtain ⟨n, hs⟩ := Body.eval_write_ok h
  exact (satisfying_ok.mp hs).2.1

theorem writeTerminalAudits_ok {auditIds : Nat → String} {rows : List (Operation × Nat)}
    {db db' : Database} {u : List Unit}
    (h : (Body.each (fun row : Operation × Nat => writeTerminalAudit (auditIds row.2) row.1)
      rows).eval db = .ok (u, db')) :
    db' = { db with
      audits := db.audits ++ rows.map fun row => terminalAudit db.users (auditIds row.2) row.1 } := by
  induction rows generalizing db u with
  | nil =>
    cases h
    simp
  | cons row rows ih =>
    obtain ⟨v, db₁, h₁, h⟩ := Body.eval_bind_ok h
    obtain ⟨vs, db₂, h₂, h⟩ := Body.eval_bind_ok h
    cases h
    have e₁ := writeTerminalAudit_ok h₁
    subst e₁
    simpa using ih h₂

/-- Publishing at the end of an operation adds the notification of its rule, once. -/
theorem publishTerminalOperation_ok {notificationId : String} {now : Int} {op : Operation}
    {db db' : Database} {r : Option String}
    (h : (Notifications.publishTerminalOperation notificationId now op).eval db = .ok (r, db')) :
    if (Notifications.terminalRule op.opType op.status).isSome ∧
        ∀ n ∈ db.notifications, n.relatedOperationId ≠ some op.opId then
      ∃ n : Notification, n.relatedOperationId = some op.opId ∧
        db' = { db with notifications := db.notifications ++ [n] }
    else db' = db := by
  unfold Notifications.publishTerminalOperation at h
  cases hrule : Notifications.terminalRule op.opType op.status with
  | none =>
    have : db' = db := by
      split at h
      · cases h
        rfl
      · simp only [hrule] at h
        cases h
        rfl
    simpa using this
  | some rule =>
    rw [Notifications.terminalRule_terminal hrule] at h
    simp only [Bool.not_true, Bool.false_eq_true, if_false, hrule] at h
    split at h
    · cases h
    · rw [Body.bind_eq, Body.eval_query_bind] at h
      split at h
      · rename_i n hn
        cases h
        have hmem := List.mem_of_find?_eq_some hn
        have hid : n.relatedOperationId = some op.opId := by simpa using List.find?_some hn
        rw [if_neg]
        exact fun hc => hc.2 n hmem hid
      · rename_i hn
        have hnone : ∀ n ∈ db.notifications, n.relatedOperationId ≠ some op.opId := by
          simpa using List.find?_eq_none.mp hn
        obtain ⟨id, db₁, h₁, h⟩ := Body.eval_bind_ok h
        cases h
        rw [if_pos ⟨rfl, hnone⟩]
        obtain ⟨u, db₂, h₂, h₁⟩ := Body.eval_bind_ok h₁
        cases h₁
        obtain ⟨k, h₂⟩ := Body.eval_write_ok h₂
        exact ⟨_, rfl, (satisfying_ok.mp h₂).2.1⟩

/-- A DeleteWorld that still waits in the queue. -/
def queuedDelete (op : Operation) : Bool := op.opType == .deleteWorld && op.status == .queued

/-- How the conflict policy lets a request in: the operations it cancels and the status the
new one starts with. -/
inductive Admits (request : OperationInput) (active : List Operation) (status : OperationStatus) :
    List Operation → OperationStatus → Prop
  | alone : active = [] → Admits request active status [] status
  | overStops : request.opType = .kill → (∀ op ∈ active, op.opType = .stop) →
      Admits request active status active status
  | overDeletes (s : OperationStatus) : request.opType = .restore →
      (∀ op ∈ active, queuedDelete op = false → op.opType = .restore) →
      ((∃ op ∈ active, queuedDelete op = false) → s = .queued) → (s = status ∨ s = .queued) →
      Admits request active status (active.filter queuedDelete) s
  | beside (s : OperationStatus) :
      (∀ op ∈ active, op.opType = request.opType → request.opType.singleFlight = true) →
      statusBeside request active status = .ok s → Admits request active status [] s

/-- A request let in beside others keeps its status or waits. -/
theorem statusBeside_ok {request : OperationInput} {active : List Operation}
    {status s : OperationStatus} (h : statusBeside request active status = .ok s) :
    s = status ∨ s = .queued := by
  unfold statusBeside at h
  cases hr : request.opType <;> simp only [hr] at h <;> grind

/-- However a request is let in, it keeps its status or waits. -/
theorem Admits.status_eq {request : OperationInput} {active victims : List Operation}
    {status s : OperationStatus} (h : Admits request active status victims s) :
    s = status ∨ s = .queued := by
  cases h with
  | alone => exact .inl rfl
  | overStops => exact .inl rfl
  | overDeletes _ _ _ _ hs => exact hs
  | beside _ _ hs => exact statusBeside_ok hs

theorem applyConflictPolicy_ok {db db' : Database} (unique : db.UniqueOperations)
    {request : OperationInput} {active : List Operation} {status : OperationStatus} {now : Int}
    {a : Admission} (nodup : (active.map (·.opId)).Nodup)
    (rows : ∀ row ∈ active, row ∈ db.operations ∧ row.inFlight = true)
    (h : (applyConflictPolicy request active status now).eval db = .ok (a, db')) :
    ∃ victims code, Admits request active status victims a.status ∧
      victims.Sublist active ∧ a.cancelled = victims.map (Operation.cancel now code) ∧
      db' = { db with
        operations := cancelAll (victims.map (·.opId)) now code db.operations } := by
  unfold applyConflictPolicy at h
  split at h
  · rename_i hnil
    cases h
    exact ⟨[], "", .alone hnil, List.nil_sublist _, rfl, by simp [cancelAll_nil]⟩
  split at h
  · cases h
  rename_i hsame
  split at h
  · rename_i hkill
    rw [Body.bind_eq, Body.eval_bind, cancelRows_eval unique now _ active nodup rows] at h
    cases h
    refine ⟨active, "superseded_by_kill", .overStops hkill.1 ?_, List.Sublist.refl _, rfl, rfl⟩
    simpa using hkill.2
  have hdeletes : (active.filter fun op => op.opType == .deleteWorld && op.status == .queued) =
      active.filter queuedDelete := rfl
  have hothers : (active.filter fun op => !(op.opType == .deleteWorld && op.status == .queued)) =
      active.filter fun op => !queuedDelete op := rfl
  simp only [hdeletes, hothers] at h
  split at h
  · rename_i hrestore
    have sub : (active.filter queuedDelete).Sublist active := List.filter_sublist
    rw [Body.bind_eq, Body.eval_bind, cancelRows_eval unique now _ _ (nodup.sublist (sub.map _))
      (fun row hr => rows row (sub.subset hr))] at h
    refine ⟨active.filter queuedDelete, "superseded_by_restore", ?_⟩
    have kept : ∀ op ∈ active, queuedDelete op = false →
        op ∈ active.filter fun op => !queuedDelete op :=
      fun op hop hq => List.mem_filter.mpr ⟨hop, by simp [hq]⟩
    dsimp only at h
    split at h
    · rename_i hall
      cases h
      have none : ∀ op ∈ active, ¬queuedDelete op = false :=
        fun op hop hq => List.not_mem_nil (hall ▸ kept op hop hq)
      exact ⟨.overDeletes status hrestore.1 (fun op hop hq => absurd hq (none op hop))
        (fun ⟨op, hop, hq⟩ => absurd hq (none op hop)) (.inl rfl), sub, rfl, rfl⟩
    · split at h
      · rename_i hrest
        cases h
        refine ⟨.overDeletes .queued hrestore.1 ?_ (fun _ => rfl) (.inr rfl), sub, rfl, rfl⟩
        intro op hop hq
        simpa using List.all_eq_true.mp hrest op (kept op hop hq)
      · cases h
  · split at h
    · rename_i s hs
      cases h
      refine ⟨[], "", .beside s ?_ hs, List.nil_sublist _, rfl, by simp [cancelAll_nil]⟩
      intro op hop htype
      by_contra hflight
      refine hsame ?_
      simp only [Bool.and_eq_true, List.any_eq_true, Bool.not_eq_true']
      exact ⟨⟨op, hop, by simp [htype]⟩, by simpa using hflight⟩
    · cases h

theorem mem_inFlightOf {db : Database} {worldId : String} {op : Operation} :
    op ∈ inFlightOf db worldId ↔
      op ∈ db.operations ∧ op.worldId = some worldId ∧ op.inFlight = true := by
  simp [inFlightOf, Database.byCreatedAt, List.mem_insertionSort]

theorem inFlightOf_nodup {db : Database} (unique : db.UniqueOperations) (worldId : String) :
    ((inFlightOf db worldId).map (·.opId)).Nodup := by
  have perm := (List.perm_insertionSort (fun a b : Operation => a.createdAt ≤ b.createdAt)
    (db.operations.filter fun op => op.worldId == some worldId && op.inFlight)).map (·.opId)
  exact perm.nodup_iff.mpr (unique.sublist (List.filter_sublist.map _))

/-- How a request is let in, with or without the conflict policy. -/
inductive Admitted (db : Database) (request : OperationInput) (initial : OperationStatus)
    (allow : Bool) : List Operation → OperationStatus → Prop
  | unchecked : request.worldId = none ∨ allow = true ∨ request.opType = .sync →
      Admitted db request initial allow [] (requestedStatus db request initial)
  | checked (worldId : String) (victims : List Operation) (s : OperationStatus) :
      request.worldId = some worldId → allow = false → request.opType ≠ .sync →
      (∀ op ∈ inFlightOf db worldId, op.opType = request.opType →
        request.opType ≠ .start ∧ request.opType ≠ .stop) →
      Admits request (inFlightOf db worldId) (requestedStatus db request initial) victims s →
      victims.Sublist (inFlightOf db worldId) →
      Admitted db request initial allow victims s

/-- The in-flight Start or Stop of its world that a repeated Start or Stop is answered with. -/
def repeatOf (db : Database) (request : OperationInput) (allow : Bool) : Option Operation :=
  if request.worldId.isSome ∧ !allow ∧ request.opType ≠ .sync then
    ((request.worldId.map (inFlightOf db)).getD []).find? fun op =>
      op.opType == request.opType && (request.opType == .start || request.opType == .stop)
  else none

/-- Why a request is answered with an operation that exists already. -/
inductive Replays (db : Database) (request : OperationInput) (allow : Bool) (op : Operation) :
    Prop
  | byKey (key : String) : request.idempotencyKey = some key → op ∈ db.operations →
      op.opType = request.opType → op.idempotencyKey = some key → Replays db request allow op
  | repeated : db.keyTaken request.opType request.idempotencyKey = false →
      repeatOf db request allow = some op → Replays db request allow op

theorem repeatOf_some {db : Database} {request : OperationInput} {allow : Bool} {op : Operation}
    (h : repeatOf db request allow = some op) :
    op ∈ db.operations ∧ op.inFlight = true ∧ op.opType = request.opType ∧
      op.worldId = request.worldId ∧ allow = false := by
  unfold repeatOf at h
  split at h
  · rename_i hc
    obtain ⟨worldId, hworld⟩ := Option.isSome_iff_exists.mp hc.1
    simp only [hworld, Option.map_some, Option.getD_some] at h
    have hmem := mem_inFlightOf.mp (List.mem_of_find?_eq_some h)
    have hfound := List.find?_some h
    simp only [Bool.and_eq_true, beq_iff_eq] at hfound
    exact ⟨hmem.1, hmem.2.2, hfound.1, hmem.2.1.trans hworld.symm, by simpa using hc.2.1⟩
  · cases h

/-- The database after a request has been let in. -/
def created (db : Database) (victims : List Operation) (now : Int) (code : String)
    (auditIds : Nat → String) (op : Operation) : Database :=
  { db with
    operations := cancelAll (victims.map (·.opId)) now code db.operations ++ [op]
    audits := db.audits ++ (victims.map (Operation.cancel now code)).zipIdx.map fun row =>
      terminalAudit db.users (auditIds row.2) row.1 }

theorem hasOperation_iff {db : Database} {opId : String} :
    db.hasOperation opId = true ↔ opId ∈ db.operations.map (·.opId) := by
  simp [Database.hasOperation]

theorem hasOperation_cancelAll (db : Database) (ids : List String) (now : Int)
    (code opId : String) :
    Database.hasOperation { db with operations := cancelAll ids now code db.operations } opId =
      db.hasOperation opId := by
  rw [Bool.eq_iff_iff, hasOperation_iff, hasOperation_iff]
  simp only [cancelAll_ids]

/-- What storing an admitted request has done when it goes through. -/
theorem insertAdmitted_ok {db db' : Database} {request : OperationInput} {a : Admission}
    {opId : String} {auditIds : Nat → String} {now : Int} {victims : List Operation}
    {code : String} {r : Operation × List Operation × Bool}
    (cancelled : a.cancelled = victims.map (Operation.cancel now code))
    (h : (insertAdmitted request a opId auditIds now).eval { db with
      operations := cancelAll (victims.map (·.opId)) now code db.operations } = .ok (r, db')) :
    r = (newOperation request opId a.status now, a.cancelled, false) ∧
      db.hasOperation opId = false ∧ references request.worldId db.hasWorld = true ∧
      db' = created db victims now code auditIds (newOperation request opId a.status now) := by
  obtain ⟨u, db₁, h₁, h⟩ := Body.eval_bind_ok h
  obtain ⟨n, h₁⟩ := Body.eval_write_ok h₁
  obtain ⟨us, db₂, h₂, h⟩ := Body.eval_bind_ok h
  cases h
  obtain ⟨hc, rfl, -⟩ := satisfying_ok.mp h₁
  simp only [List.mem_cons, List.not_mem_nil, or_false, forall_eq_or_imp, forall_eq] at hc
  refine ⟨rfl, ?_, hc.2.2.1, ?_⟩
  · have hnew := hc.1
    rw [hasOperation_cancelAll] at hnew
    simpa [newOperation] using hnew
  · rw [writeTerminalAudits_ok h₂, cancelled]
    rfl

theorem existing_none_iff (db : Database) (request : OperationInput) :
    (if request.idempotencyKey.isSome then db.operations.find? fun op =>
        op.opType == request.opType && op.idempotencyKey == request.idempotencyKey
      else none) = none ↔ db.keyTaken request.opType request.idempotencyKey = false := by
  unfold Database.keyTaken
  cases request.idempotencyKey.isSome with
  | false => simp
  | true => simp only [if_true, Bool.true_and, List.find?_eq_none, List.any_eq_false]

theorem keyTaken_cancelAll (db : Database) (ids : List String) (now : Int) (code : String)
    (opType : OperationType) (key : Option String) :
    Database.keyTaken { db with operations := cancelAll ids now code db.operations } opType key =
      db.keyTaken opType key := by
  unfold Database.keyTaken cancelAll updateWhere
  rw [List.any_map]
  congr 2
  funext op
  simp only [Function.comp]
  split <;> rfl

/-- The transaction of `create_with_replay` for a request that names a world. -/
theorem createBlock_eval {db : Database} {request : OperationInput} {worldId : String}
    {initial : OperationStatus} {allow : Bool} (hworld : request.worldId = some worldId)
    (other : request.opType ≠ .sync) (opId : String) (auditIds : Nat → String) (now : Int) :
    (createBlock request initial allow opId auditIds now).eval db =
      match (if request.idempotencyKey.isSome then db.operations.find? fun op =>
          op.opType == request.opType && op.idempotencyKey == request.idempotencyKey
        else none), allow, repeatOf db request allow with
      | some op, _, _ => .ok ((op, [], true), db)
      | none, true, _ => (insertAdmitted request ⟨inFlightOf db worldId,
          requestedStatus db request initial, []⟩ opId auditIds now).eval db
      | none, false, some op => .ok ((op, [], true), db)
      | none, false, none =>
        ((applyConflictPolicy request (inFlightOf db worldId) (requestedStatus db request initial)
          now).bind fun a => insertAdmitted request a opId auditIds now).eval db := by
  have sync : (request.opType ≠ .sync) = True := eq_true other
  unfold createBlock repeatOf
  simp only [Body.bind_eq, Body.eval_query_bind, hworld, Option.map_some, Option.getD_some,
    Option.isSome_some, sync, and_true, true_and]
  cases (if request.idempotencyKey.isSome then db.operations.find? fun op =>
      op.opType == request.opType && op.idempotencyKey == request.idempotencyKey else none) with
  | some op => rfl
  | none =>
    simp only [Body.eval_query_bind]
    cases allow with
    | true => rfl
    | false =>
      simp only [Bool.not_false, if_true]
      split
      · rename_i h
        rw [h]
        rfl
      · rename_i h
        rw [h]

/-- What `create_with_replay` has done when it goes through. -/
theorem createBlock_ok {db db' : Database} (unique : db.UniqueOperations)
    {request : OperationInput} {initial : OperationStatus} {allow : Bool} {opId : String}
    {auditIds : Nat → String} {now : Int} {op : Operation} {cancelled : List Operation}
    {replayed : Bool}
    (h : (createBlock request initial allow opId auditIds now).eval db =
      .ok ((op, cancelled, replayed), db')) :
    (replayed = true ∧ cancelled = [] ∧ db' = db ∧ Replays db request allow op) ∨
    (replayed = false ∧ repeatOf db request allow = none ∧
      ∃ victims s code, Admitted db request initial allow victims s ∧
      op = newOperation request opId s now ∧
      cancelled = victims.map (Operation.cancel now code) ∧
      db.keyTaken request.opType request.idempotencyKey = false ∧
      db.hasOperation opId = false ∧ references request.worldId db.hasWorld = true ∧
      db' = created db victims now code auditIds op) := by
  unfold createBlock at h
  rw [Body.bind_eq, Body.eval_query_bind] at h
  split at h
  · rename_i old hold
    cases h
    left
    split at hold
    · rename_i hkey
      obtain ⟨key, hkey⟩ := Option.isSome_iff_exists.mp hkey
      have hfound := List.find?_some hold
      simp only [Bool.and_eq_true, beq_iff_eq] at hfound
      exact ⟨rfl, rfl, rfl, .byKey key hkey (List.mem_of_find?_eq_some hold) hfound.1
        (hfound.2.trans hkey)⟩
    · cases hold
  rename_i hnone
  have hfresh : db.keyTaken request.opType request.idempotencyKey = false := by
    unfold Database.keyTaken
    cases hkey : request.idempotencyKey with
    | none => rfl
    | some key =>
      simp only [hkey, Option.isSome_some, if_true] at hnone
      simpa using List.find?_eq_none.mp hnone
  simp only [Body.bind_eq, Body.eval_query_bind] at h
  have nothing : db = { db with
      operations := cancelAll (([] : List Operation).map (·.opId)) now "" db.operations } := by
    rw [List.map_nil, cancelAll_nil]
  split at h
  · rename_i hchecked
    have hrepeat : repeatOf db request allow = ((request.worldId.map (inFlightOf db)).getD []).find?
        fun op => op.opType == request.opType &&
          (request.opType == .start || request.opType == .stop) := if_pos hchecked
    obtain ⟨hworld, hallow, hsync⟩ := hchecked
    obtain ⟨worldId, hworld⟩ := Option.isSome_iff_exists.mp hworld
    simp only [hworld, Option.map_some, Option.getD_some] at h hrepeat
    split at h
    · rename_i old hold
      cases h
      exact .inl ⟨rfl, rfl, rfl, .repeated hfresh (hrepeat.trans hold)⟩
    · rename_i hnot
      have hnothing := hrepeat.trans hnot
      have hnot : ∀ op ∈ inFlightOf db worldId, op.opType = request.opType →
          request.opType ≠ .start ∧ request.opType ≠ .stop := by
        simpa using List.find?_eq_none.mp hnot
      obtain ⟨a, db₁, h₁, h⟩ := Body.eval_bind_ok h
      obtain ⟨victims, code, admits, sub, hcancelled, rfl⟩ := applyConflictPolicy_ok unique
        (inFlightOf_nodup unique worldId)
        (fun row hr => ⟨(mem_inFlightOf.mp hr).1, (mem_inFlightOf.mp hr).2.2⟩) h₁
      obtain ⟨hr, hnew, href, hdb⟩ := insertAdmitted_ok hcancelled h
      cases hr
      exact .inr ⟨rfl, hnothing, victims, a.status, code,
        .checked worldId victims a.status hworld (by simpa using hallow) hsync hnot admits sub,
        rfl, hcancelled, hfresh, hnew, href, hdb⟩
  · rename_i hunchecked
    have none : (⟨(request.worldId.map (inFlightOf db)).getD [],
      requestedStatus db request initial, []⟩ : Admission).cancelled =
        [].map (Operation.cancel now "") := rfl
    obtain ⟨hr, hnew, href, hdb⟩ := insertAdmitted_ok none
      ((congrArg (Body.eval _) nothing.symm).trans h)
    cases hr
    refine .inr ⟨rfl, if_neg hunchecked, [], _, "", .unchecked ?_, rfl, rfl, hfresh, hnew, href, hdb⟩
    by_contra hn
    simp only [not_or] at hn
    refine hunchecked ⟨Option.isSome_iff_ne_none.mpr hn.1, by simpa using hn.2.1, hn.2.2⟩

end Operations

/-- An operation after `claim_queued`. -/
def Operation.claim (now : Int) (op : Operation) : Operation :=
  { op with status := .running, startedAt := op.startedAt.or (some now), updatedAt := now }

/-- An operation after `transition` has stored a milestone. -/
def Operation.advance (status : OperationStatus) (m : Operations.Milestone)
    (cached : Option Checkpoint) (now : Int) (op : Operation) : Operation :=
  { op with
    status
    checkpoint := (m.checkpoint.or cached).or op.checkpoint
    startedAt := if status = .running then op.startedAt.or (some now) else op.startedAt
    finishedAt := if status.terminal then some now else op.finishedAt
    errorCode := m.errorCode
    message := m.message
    data := m.data.or op.data
    updatedAt := now }

namespace Operations

/-- The database with one operation replaced. -/
def replaceOperation (db : Database) (opId : String) (op : Operation) : Database :=
  { db with operations := updateWhere (·.opId == opId) (fun _ => op) db.operations }

theorem mem_replaceOperation {db : Database} {opId : String} {op x : Operation}
    (old : ∃ y ∈ db.operations, y.opId = opId) :
    x ∈ (replaceOperation db opId op).operations ↔
      x = op ∨ x ∈ db.operations ∧ x.opId ≠ opId := by
  simp only [replaceOperation, mem_updateWhere, beq_iff_eq, beq_eq_false_iff_ne]
  constructor
  · rintro ⟨y, hy, ⟨-, rfl⟩ | ⟨hne, rfl⟩⟩
    · exact .inl rfl
    · exact .inr ⟨hy, hne⟩
  · rintro (rfl | ⟨hx, hne⟩)
    · obtain ⟨y, hy, hid⟩ := old
      exact ⟨y, hy, .inl ⟨hid, rfl⟩⟩
    · exact ⟨x, hx, .inr ⟨hne, rfl⟩⟩

theorem replaceOperation_ids {db : Database} {opId : String} {op : Operation}
    (hid : op.opId = opId) :
    (replaceOperation db opId op).operations.map (·.opId) = db.operations.map (·.opId) := by
  simp only [replaceOperation, updateWhere, List.map_map]
  refine List.map_congr_left fun x _ => ?_
  simp only [Function.comp]
  split
  · rename_i h
    rw [hid]
    exact (beq_iff_eq.mp h).symm
  · rfl

/-- An update of the row with one key is the replacement of that row. -/
theorem updateWhere_replace {db : Database} (unique : db.UniqueOperations)
    {op : Operation} (hop : op ∈ db.operations) {p : Operation → Bool} (hp : p op = true)
    (only : ∀ x, p x = true → x.opId = op.opId) (f : Operation → Operation) :
    updateWhere p f db.operations = (replaceOperation db op.opId (f op)).operations := by
  refine List.map_congr_left fun x hx => ?_
  by_cases hid : x.opId = op.opId
  · obtain rfl := nodup_key_inj unique hx hop hid
    simp [hp]
  · have hpx : p x = false := by
      by_contra h
      exact hid (only x (by simpa using h))
    simp [hid, hpx]

theorem operation?_replaceOperation {db : Database} {opId : String} {op old : Operation}
    (hid : op.opId = opId) (hold : db.operation? opId = some old) :
    (replaceOperation db opId op).operation? opId = some op := by
  have hkey : ∀ x : Operation, (if x.opId == opId then op else x).opId = x.opId := by
    intro x
    split
    · rename_i h
      rw [hid]
      exact (beq_iff_eq.mp h).symm
    · rfl
  have hfind : ∀ ops : List Operation, ops.find? (·.opId == opId) = some old →
      (updateWhere (·.opId == opId) (fun _ => op) ops).find? (·.opId == opId) = some op := by
    intro ops
    induction ops with
    | nil => simp
    | cons x ops ih =>
      intro h
      by_cases hx : x.opId = opId
      · simp [updateWhere, hx, hid]
      · have h : ops.find? (·.opId == opId) = some old := by
          simpa [List.find?_cons, hx] using h
        simpa [updateWhere, List.find?_cons, hx] using ih h
  exact hfind db.operations hold

theorem apply_claimOperation {db : Database} (unique : db.UniqueOperations) {op : Operation}
    (hop : op ∈ db.operations) (queued : op.status = .queued) (now : Int) :
    (Stmt.claimOperation op.opId now).apply db =
      .ok (replaceOperation db op.opId (op.claim now), 1) := by
  have rows := updateWhere_replace unique hop
    (p := fun o => o.opId == op.opId && o.status == .queued) (by simp [queued])
    (fun x hx => by simpa using (Bool.and_eq_true_iff.mp hx).1) (Operation.claim now)
  have count := countP_key (p := fun o : Operation => o.status == .queued) unique hop
    (by simp [queued])
  change Except.ok ({ db with
    operations := updateWhere _ (Operation.claim now) db.operations }, _) = _
  rw [rows, count]
  rfl

theorem apply_updateOperation {db : Database} (unique : db.UniqueOperations) {op : Operation}
    (hop : op ∈ db.operations) (status : OperationStatus) (m : Milestone)
    (cached : Option Checkpoint) (now : Int) :
    (Stmt.updateOperation op.opId status ((m.checkpoint.or cached).or op.checkpoint)
      (if status = .running then op.startedAt.or (some now) else op.startedAt)
      (if status.terminal then some now else op.finishedAt) m.errorCode m.message
      (m.data.or op.data) now).apply db =
      .ok (replaceOperation db op.opId (op.advance status m cached now), 1) := by
  have rows := updateWhere_replace unique hop (p := fun o => o.opId == op.opId) (by simp)
    (by simp) fun o => { o with
      status
      checkpoint := (m.checkpoint.or cached).or op.checkpoint
      startedAt := if status = .running then op.startedAt.or (some now) else op.startedAt
      finishedAt := if status.terminal then some now else op.finishedAt
      errorCode := m.errorCode
      message := m.message
      data := m.data.or op.data
      updatedAt := now }
  have count := countP_key (p := fun _ : Operation => true) unique hop rfl
  simp only [Bool.and_true] at count
  simp only [Stmt.apply]
  rw [rows, count]
  rfl

/-- What `claim_queued` has done when it goes through. -/
theorem claimBlock_ok {db db' : Database} (unique : db.UniqueOperations) {opId : String}
    {now : Int} {r : Option Operation} (h : (claimBlock opId now).eval db = .ok (r, db')) :
    (r = none ∧ db' = db) ∨
    ∃ op ∈ db.operations, op.opId = opId ∧ op.status = .queued ∧
      (∀ o ∈ db.operations, op.worldId ≠ none → o.worldId = op.worldId → o.opId ≠ opId →
        o.status.active = false) ∧
      r = some (op.claim now) ∧ db' = replaceOperation db opId (op.claim now) := by
  unfold claimBlock at h
  rw [Body.bind_eq, Body.eval_query_bind] at h
  split at h
  · cases h
    exact .inl ⟨rfl, rfl⟩
  rename_i op hop
  have hmem := List.mem_of_find?_eq_some hop
  have hqueued := List.find?_some hop
  simp only [Bool.and_eq_true, beq_iff_eq] at hqueued
  obtain ⟨rfl, hqueued⟩ := hqueued
  simp only [Body.bind_eq, Body.eval_query_bind] at h
  split at h
  · cases h
    exact .inl ⟨rfl, rfl⟩
  rename_i hactive
  obtain ⟨n, db₁, h₁, h⟩ := Body.eval_bind_ok h
  have h₁ := Body.eval_statement_ok h₁
  simp only [store_apply, apply_claimOperation unique hmem hqueued, Except.ok.injEq,
    Prod.mk.injEq] at h₁
  obtain ⟨rfl, rfl⟩ := h₁
  have hfind : (replaceOperation db op.opId (op.claim now)).operation? op.opId =
      some (op.claim now) :=
    operation?_replaceOperation rfl (Database.operation?_eq unique hmem)
  simp only [ne_eq, not_true_eq_false, if_false, Body.eval_query_bind, hfind] at h
  cases h
  refine .inr ⟨op, hmem, rfl, hqueued, ?_, rfl, rfl⟩
  intro o ho hworld hsame hne
  by_contra hact
  refine hactive ?_
  simp only [Bool.and_eq_true, List.any_eq_true, bne_iff_ne, ne_eq, beq_iff_eq]
  exact ⟨Option.isSome_iff_ne_none.mpr hworld, o, ho, ⟨hsame, hne⟩, by simpa using hact⟩

/-- A queued operation is claimed unless another operation of its world is active. -/
theorem claimBlock_eval {db : Database} (unique : db.UniqueOperations) {op : Operation}
    (hop : op ∈ db.operations) (queued : op.status = .queued) (now : Int) :
    (claimBlock op.opId now).eval db =
      .ok (if (op.worldId.isSome && db.operations.any fun o =>
          o.worldId == op.worldId && o.opId != op.opId && o.status.active) then (none, db)
        else (some (op.claim now), replaceOperation db op.opId (op.claim now))) := by
  have found : (db.operations.find? fun o => o.opId == op.opId && o.status == .queued) =
      some op := by
    have single := Database.operation?_eq unique hop
    rw [Database.operation?, List.find?_eq_some_iff_append] at single
    obtain ⟨-, front, back, hsplit, hfront⟩ := single
    rw [List.find?_eq_some_iff_append]
    refine ⟨by simp [queued], front, back, hsplit, fun o ho => ?_⟩
    have := hfront o ho
    simp only [Bool.not_eq_true', beq_eq_false_iff_ne] at this
    simp [this]
  have hfind : (replaceOperation db op.opId (op.claim now)).operation? op.opId =
      some (op.claim now) :=
    operation?_replaceOperation rfl (Database.operation?_eq unique hop)
  unfold claimBlock
  simp only [Body.bind_eq, Body.eval_query_bind, found]
  split
  · rfl
  · rw [Body.eval_statement_bind, store_apply, apply_claimOperation unique hop queued]
    simp only [ne_eq, not_true_eq_false, if_false, Body.eval_query_bind, hfind]
    rfl

/-- The database after a milestone of `op`, with the records written beside it. -/
def advanced (db : Database) (op : Operation) (audits : List AuditRecord)
    (notifications : List Notification) : Database :=
  { replaceOperation db op.opId op with
    audits := db.audits ++ audits
    notifications := db.notifications ++ notifications }

/-- The records beside a milestone: an audit record for a terminal one, and a notification when
the service publishes and the rule table asks for one. -/
structure Recorded (svc : OperationService) (db : Database) (auditId : String) (op : Operation)
    (audits : List AuditRecord) (notifications : List Notification) : Prop where
  audits_eq : audits = if op.terminal then [terminalAudit db.users auditId op] else []
  length_le : notifications.length ≤ 1
  related : ∀ n ∈ notifications, n.relatedOperationId = some op.opId
  notified : notifications ≠ [] ↔ op.terminal = true ∧ svc.notifications = true ∧
    (Notifications.terminalRule op.opType op.status).isSome = true ∧
    ∀ n ∈ db.notifications, n.relatedOperationId ≠ some op.opId

/-- What `transition` has done when it goes through. -/
theorem transitionBlock_ok {db db' : Database} (unique : db.UniqueOperations)
    {svc : OperationService} {opId : String} {status : OperationStatus} {m : Milestone}
    {cached : Option Checkpoint} {now : Int} {auditId notificationId : String} {notifiedAt : Int}
    {updated : Operation}
    (h : (transitionBlock svc opId status m cached now auditId notificationId notifiedAt).eval db =
      .ok (updated, db')) :
    ∃ current ∈ db.operations, current.opId = opId ∧ current.terminal = false ∧
      if status = .running ∨ status.terminal = true then
        updated = current.advance status m cached now ∧ ∃ audits notifications,
          Recorded svc db auditId updated audits notifications ∧
          db' = advanced db updated audits notifications
      else updated = current ∧ db' = db := by
  unfold transitionBlock at h
  rw [Body.bind_eq, Body.eval_query_bind] at h
  split at h
  · cases h
  rename_i current hcurrent
  obtain ⟨hmem, rfl⟩ := Database.operation?_mem hcurrent
  split at h
  · cases h
  rename_i hopen
  refine ⟨current, hmem, rfl, by simpa using hopen, ?_⟩
  split at h
  · rename_i hmemory
    cases h
    have hnot : ¬(status = .running ∨ status.terminal = true) := by
      simpa [not_or] using hmemory
    rw [if_neg hnot]
    exact ⟨rfl, rfl⟩
  rename_i hstored
  have hmilestone : status = .running ∨ status.terminal = true := by
    by_contra hn
    exact hstored (by simpa [not_or] using hn)
  rw [if_pos hmilestone]
  obtain ⟨u, db₁, h₁, h⟩ := Body.eval_bind_ok h
  obtain ⟨n, h₁⟩ := Body.eval_write_ok h₁
  simp only [store_apply, apply_updateOperation unique hmem, Except.ok.injEq,
    Prod.mk.injEq] at h₁
  obtain ⟨rfl, -⟩ := h₁
  have hfind : (replaceOperation db current.opId (current.advance status m cached now)).operation?
      current.opId = some (current.advance status m cached now) :=
    operation?_replaceOperation rfl hcurrent
  simp only [Body.bind_eq, Body.eval_query_bind, hfind] at h
  have hterminal : (current.advance status m cached now).terminal = status.terminal := rfl
  split at h
  · rename_i hend
    obtain ⟨u, db₂, h₂, h⟩ := Body.eval_bind_ok h
    have h₂ := writeTerminalAudit_ok h₂
    have audit : [terminalAudit db.users auditId (current.advance status m cached now)] =
        if (current.advance status m cached now).terminal then
          [terminalAudit db.users auditId (current.advance status m cached now)] else [] := by
      rw [hterminal, if_pos hend]
    split at h
    · rename_i hnotify
      obtain ⟨r, db₃, h₃, h⟩ := Body.eval_bind_ok h
      cases h
      have h₃ := publishTerminalOperation_ok h₃
      subst h₂
      split at h₃
      · rename_i hrule
        obtain ⟨n, hn, rfl⟩ := h₃
        exact ⟨rfl, _, [n], ⟨audit, by simp, by simpa using hn,
          by simpa using ⟨hterminal.trans hend, hnotify, hrule⟩⟩, rfl⟩
      · rename_i hrule
        subst h₃
        refine ⟨rfl, _, [], ⟨audit, by simp, by simp, ?_⟩, by simp only [advanced, List.append_nil]; rfl⟩
        simp only [ne_eq, not_true_eq_false, false_iff, not_and]
        exact fun _ _ hsome hall => hrule ⟨hsome, hall⟩
    · rename_i hnotify
      cases h
      subst h₂
      exact ⟨rfl, _, [], ⟨audit, by simp, by simp, by simp [hnotify]⟩, by simp only [advanced, List.append_nil]; rfl⟩
  · rename_i hend
    cases h
    exact ⟨rfl, [], [], ⟨by simp [hterminal, hend], by simp, by simp,
      by simp [hterminal, hend]⟩, by simp only [advanced, List.append_nil]; rfl⟩

end Operations

end McManager
