import McManager.Services.OperationInvariants

namespace McManager

open Framework

/-- No row of the tables a service draws ids for has this id. -/
def Database.unused (db : Database) (id : String) : Bool :=
  !db.hasOperation id && !db.audits.any (·.auditId == id) && !db.hasNotification id &&
    !db.hasSecret id && !db.sessions.any (·.sessionId == id)

/-- An id drawn by the code is a text no row has yet. -/
def FreshDraw (x : Session) : (q : Query) → Answer q → Prop
  | .uuid _, id => id ≠ "" ∧ x.conn.view.unused id = true
  | _, _ => True

/-- Operations have ids of their own and belong to worlds that are there. -/
structure Database.Keyed (db : Database) : Prop where
  unique : db.UniqueOperations
  named : ∀ op ∈ db.operations, op.opId ≠ ""
  placed : ∀ op ∈ db.operations, references op.worldId db.hasWorld = true

namespace Operations

/-- The operations are those of `ids`, and `opId` among them has `status`. -/
structure Stage (ids : List String) (opId : String) (status : OperationStatus) (db : Database) :
    Prop where
  keyed : db.Keyed
  ids_eq : db.operations.map (·.opId) = ids
  row : ∃ op ∈ db.operations, op.opId = opId ∧ op.status = status

/-- What a write outside the operations leaves of a stage. -/
theorem Stage.congr {ids : List String} {opId : String} {status : OperationStatus}
    {db db' : Database} (h : Stage ids opId status db) (ops : db'.operations = db.operations)
    (worlds : ∀ id, db'.hasWorld id = db.hasWorld id) : Stage ids opId status db' := by
  have hworlds : db'.hasWorld = db.hasWorld := funext worlds
  obtain ⟨⟨unique, named, placed⟩, ids_eq, row⟩ := h
  refine ⟨⟨?_, ?_, ?_⟩, ?_, ?_⟩
  · rwa [Database.UniqueOperations, ops]
  · rwa [ops]
  · rwa [ops, hworlds]
  · rwa [ops]
  · rwa [ops]

/-- The operation is missing or has ended. -/
def Over (db : Database) (opId : String) : Prop :=
  ∀ op ∈ db.operations, op.opId = opId → op.terminal = true

theorem Stage.over {ids : List String} {opId : String} {status : OperationStatus} {db : Database}
    (h : Stage ids opId status db) (ended : status.terminal = true) : Over db opId := by
  obtain ⟨op, hop, hid, hstatus⟩ := h.row
  intro op' hop' hid'
  obtain rfl := nodup_key_inj h.keyed.unique hop' hop (hid'.trans hid.symm)
  rw [Operation.terminal, hstatus]
  exact ended

theorem transitionBlock_over {db : Database} {opId : String} (isOver : Over db opId)
    (svc : OperationService) (status : OperationStatus) (m : Milestone) (cached : Option Checkpoint)
    (now : Int) (auditId notificationId : String) (notifiedAt : Int) :
    ∃ text, (transitionBlock svc opId status m cached now auditId notificationId notifiedAt).eval
      db = .error (.operationState text) := by
  unfold transitionBlock
  rw [Body.bind_eq, Body.eval_query_bind]
  cases hop : db.operation? opId with
  | none => exact ⟨_, rfl⟩
  | some op =>
    obtain ⟨hmem, hid⟩ := Database.operation?_mem hop
    have hended := isOver op hmem hid
    refine ⟨"operation already terminal: " ++ opId, ?_⟩
    simp only [hended, if_true, Body.eval_raise]

theorem writeTerminalAudit_total {db : Database} {auditId : String} {op : Operation}
    (unused : db.audits.any (·.auditId == auditId) = false)
    (present : db.hasOperation op.opId = true) (placed : references op.worldId db.hasWorld = true) :
    ∃ r, (writeTerminalAudit auditId op).eval db = .ok r := by
  rw [writeTerminalAudit_eval]
  refine Body.eval_write_total ⟨_, satisfying_ok.mpr ⟨?_, rfl, rfl⟩⟩
  simp only [List.mem_cons, List.not_mem_nil, or_false, forall_eq_or_imp, forall_eq]
  exact ⟨by simpa [terminalAudit] using unused, present, placed⟩

theorem publishTerminalOperation_total {db : Database} {notificationId : String} {op : Operation}
    (unused : db.hasNotification notificationId = false) (named : op.opId ≠ "")
    (present : db.hasOperation op.opId = true) (placed : references op.worldId db.hasWorld = true)
    (now : Int) :
    ∃ r, (Notifications.publishTerminalOperation notificationId now op).eval db = .ok r := by
  unfold Notifications.publishTerminalOperation
  split
  · exact ⟨_, rfl⟩
  split
  · exact ⟨_, rfl⟩
  rw [Body.bind_eq, Body.eval_query_bind]
  split
  · exact ⟨_, rfl⟩
  · refine Body.eval_bind_total ?_ fun _ _ _ => ⟨_, rfl⟩
    refine Body.eval_bind_total ?_ fun _ _ _ => ⟨_, rfl⟩
    refine Body.eval_write_total ⟨_, satisfying_ok.mpr ⟨?_, rfl, rfl⟩⟩
    simp only [List.mem_cons, List.not_mem_nil, or_false, forall_eq_or_imp, forall_eq]
    exact ⟨by simpa using unused, present, placed⟩

/-- Nothing but the outside world keeps a milestone of an open operation from being stored. -/
theorem transitionBlock_total {db : Database} (keyed : db.Keyed) {op : Operation}
    (hop : op ∈ db.operations) (hopen : op.terminal = false) (svc : OperationService)
    (status : OperationStatus) (m : Milestone) (cached : Option Checkpoint) (now : Int)
    {auditId notificationId : String} (hauditId : db.audits.any (·.auditId == auditId) = false)
    (hnotificationId : db.hasNotification notificationId = false) (notifiedAt : Int) :
    ∃ r, (transitionBlock svc op.opId status m cached now auditId notificationId notifiedAt).eval
      db = .ok r := by
  have stored := apply_updateOperation keyed.unique hop status m cached now
  have found : (replaceOperation db op.opId (op.advance status m cached now)).operation? op.opId =
      some (op.advance status m cached now) :=
    operation?_replaceOperation rfl (Database.operation?_eq keyed.unique hop)
  have present : (replaceOperation db op.opId (op.advance status m cached now)).hasOperation
      op.opId = true := by
    have ids : (replaceOperation db op.opId (op.advance status m cached now)).operations.map
        (·.opId) = db.operations.map (·.opId) := replaceOperation_ids rfl
    rw [hasOperation_iff, ids]
    exact List.mem_map.mpr ⟨op, hop, rfl⟩
  unfold transitionBlock
  rw [Body.bind_eq, Body.eval_query_bind, Database.operation?_eq keyed.unique hop]
  simp only [hopen, Bool.false_eq_true, if_false]
  split
  · exact ⟨_, rfl⟩
  simp only [Body.bind_eq, Body.eval_write_bind, store_apply, stored, Body.eval_query_bind, found]
  split
  · refine Body.eval_bind_total (writeTerminalAudit_total hauditId present (keyed.placed op hop)) ?_
    intro u d' h
    have h := writeTerminalAudit_ok h
    subst h
    split
    · refine Body.eval_bind_total ?_ fun _ _ _ => ⟨_, rfl⟩
      have published : ∀ d : Database, d.hasNotification notificationId = false →
          d.hasOperation op.opId = true → references op.worldId d.hasWorld = true → ∃ r,
          (Notifications.publishTerminalOperation notificationId notifiedAt
            (op.advance status m cached now)).eval d = .ok r :=
        fun d unused present placed => publishTerminalOperation_total unused
          (show (op.advance status m cached now).opId ≠ "" from keyed.named op hop) present placed
          notifiedAt
      exact published _ hnotificationId present (keyed.placed op hop)
    · exact ⟨_, rfl⟩
  · exact ⟨_, rfl⟩

/-- What storing a milestone has done to the operations, and what it leaves alone. -/
theorem transitionBlock_stage {db db' : Database} (keyed : db.Keyed) {svc : OperationService}
    {opId : String} {status : OperationStatus} (milestone : status = .running ∨ status.terminal = true)
    {m : Milestone} {cached : Option Checkpoint} {now : Int} {auditId notificationId : String}
    {notifiedAt : Int} {op : Operation}
    (h : (transitionBlock svc opId status m cached now auditId notificationId notifiedAt).eval db =
      .ok (op, db')) :
    Stage (db.operations.map (·.opId)) opId status db' ∧ db'.worlds = db.worlds ∧
      db'.sessions = db.sessions ∧ db'.javaRuntimes = db.javaRuntimes := by
  obtain ⟨current, hcurrent, rfl, -, h⟩ := transitionBlock_ok keyed.unique h
  rw [if_pos milestone] at h
  obtain ⟨rfl, audits, notifications, -, rfl⟩ := h
  have ids : (replaceOperation db current.opId (current.advance status m cached now)).operations.map
      (·.opId) = db.operations.map (·.opId) := replaceOperation_ids rfl
  have members : ∀ x, x ∈ (replaceOperation db current.opId
      (current.advance status m cached now)).operations ↔
      x = current.advance status m cached now ∨ x ∈ db.operations ∧ x.opId ≠ current.opId :=
    fun x => mem_replaceOperation ⟨current, hcurrent, rfl⟩
  refine ⟨⟨⟨?_, ?_, ?_⟩, ids, current.advance status m cached now, ?_, rfl, rfl⟩, rfl, rfl, rfl⟩
  · have unique := keyed.unique
    rw [Database.UniqueOperations, ← ids] at unique
    exact unique
  · intro x hx
    rcases (members x).mp hx with rfl | ⟨hx, -⟩
    · exact keyed.named current hcurrent
    · exact keyed.named x hx
  · intro x hx
    rcases (members x).mp hx with rfl | ⟨hx, -⟩
    · exact keyed.placed current hcurrent
    · exact keyed.placed x hx
  · exact (members _).mpr (.inl rfl)

/-- What creating an operation has done: it is new and waits, or one in flight stands for it. -/
theorem createBlock_stage {db db' : Database} (keyed : db.Keyed) {request : OperationInput}
    {initial : OperationStatus} {allow : Bool} {opId : String} (named : opId ≠ "")
    {auditIds : Nat → String} {now : Int} {op : Operation} {cancelled : List Operation}
    {replayed : Bool} (keyless : request.idempotencyKey = none)
    (h : (createBlock request initial allow opId auditIds now).eval db =
      .ok ((op, cancelled, replayed), db')) :
    (db' = db ∧ repeatOf db request allow = some op ∧
      Stage (db.operations.map (·.opId)) op.opId op.status db) ∨
    repeatOf db request allow = none ∧ op.opId = opId ∧ db.hasOperation opId = false ∧
      (initial.terminal = false → op.status.terminal = false) ∧
      Stage (db.operations.map (·.opId) ++ [opId]) opId op.status db' ∧ db'.worlds = db.worlds ∧
      db'.sessions = db.sessions ∧ db'.javaRuntimes = db.javaRuntimes := by
  obtain ⟨-, -, rfl, replays⟩ | ⟨-, norepeat, victims, s, code, admitted, rfl, -, -, hnew, hplaced, rfl⟩ :=
    createBlock_ok keyed.unique h
  · cases replays with
    | byKey key hkey => simp [keyless] at hkey
    | repeated _ hrepeat =>
      exact .inl ⟨rfl, hrepeat, ⟨keyed, rfl, op, (repeatOf_some hrepeat).1, rfl, rfl⟩⟩
  · have members : ∀ x ∈ (created db victims now code auditIds
        (newOperation request opId s now)).operations,
        x = newOperation request opId s now ∨ ∃ old ∈ db.operations, x.opId = old.opId ∧
          x.worldId = old.worldId := by
      intro x hx
      rcases mem_created.mp hx with rfl | ⟨old, hold, ⟨-, -, rfl⟩ | ⟨-, rfl⟩⟩
      · exact .inl rfl
      · exact .inr ⟨old, hold, rfl, rfl⟩
      · exact .inr ⟨x, hold, rfl, rfl⟩
    have ids : (created db victims now code auditIds
        (newOperation request opId s now)).operations.map (·.opId) =
        db.operations.map (·.opId) ++ [opId] := by
      simp only [created, List.map_append, cancelAll_ids, List.map_cons, List.map_nil]
      rfl
    refine .inr ⟨norepeat, rfl, hnew, admitted.remains_open,
      ⟨⟨?_, ?_, ?_⟩, ids, _, ?_, rfl, rfl⟩, rfl, rfl, rfl⟩
    · rw [Database.UniqueOperations, ids, List.nodup_append]
      refine ⟨keyed.unique, by simp, ?_⟩
      intro a ha b hb hab
      have hpresent : db.hasOperation opId = true := by
        rw [hasOperation_iff, ← List.mem_singleton.mp hb, ← hab]
        exact ha
      simp [hnew] at hpresent
    · intro x hx
      rcases members x hx with rfl | ⟨old, hold, hid, -⟩
      · exact named
      · rw [hid]
        exact keyed.named old hold
    · intro x hx
      rcases members x hx with rfl | ⟨old, hold, -, hworld⟩
      · exact hplaced
      · rw [hworld]
        exact keyed.placed old hold
    · exact mem_created.mpr (.inl rfl)

/-- Nothing but the outside world keeps an unchecked request without a key from being stored. -/
theorem createBlock_unchecked_total {db : Database} {request : OperationInput}
    (keyless : request.idempotencyKey = none) {opId : String}
    (unused : db.hasOperation opId = false)
    (world : references request.worldId db.hasWorld = true)
    (actor : references request.actorUserId db.hasUser = true)
    (compensates : references request.compensatesOperationId db.hasOperation = true)
    (initial : OperationStatus) (auditIds : Nat → String) (now : Int) :
    ∃ r, (createBlock request initial true opId auditIds now).eval db = .ok r := by
  have stored : ∀ status, ∃ r, Store.apply
      (Stmt.insertOperation (newOperation request opId status now)) db = .ok r := by
    intro status
    refine ⟨_, satisfying_ok.mpr ⟨?_, rfl, rfl⟩⟩
    simp only [List.mem_cons, List.not_mem_nil, or_false, forall_eq_or_imp, forall_eq,
      newOperation, Database.keyTaken, keyless, Option.isSome_none, Bool.false_and, Bool.not_false]
    exact ⟨by simp [unused], trivial, world, actor, compensates⟩
  unfold createBlock
  simp only [Body.bind_eq, Body.eval_query_bind, keyless, Option.isSome_none, Bool.false_eq_true,
    if_false, Bool.not_true, false_and, and_false]
  exact Body.eval_bind_total (Body.eval_write_total (stored _)) fun _ _ _ => ⟨_, rfl⟩

section Rules

variable {E : Scope} {svc : OperationService} {ids : List String} {opId : String}
  {s status : OperationStatus} {db : Database} {log : Log} {m : Milestone}
  {Q : Except Exn Operation → Session → Prop}

/-- A milestone of an open operation is stored unless the outside world fails. -/
theorem wp_stored (fresh : ∀ x q a, E.draws x q a → FreshDraw x q a)
    (stage : Stage ids opId s db) (hopen : s.terminal = false)
    (done : ∀ op db' cached now auditId notificationId notifiedAt,
      (transitionBlock svc opId status m cached now auditId notificationId notifiedAt).eval db =
        .ok (op, db') →
      Q (.ok op) ⟨.closed db', log ++ [.committed (.transition status)]⟩ ∧
      (status.terminal = true → ∀ φ, E.fails .publishRead φ → Q (.error (.external φ))
        ⟨.closed db', log ++ [.committed (.transition status)] ++ [.failed .publishRead]⟩))
    (fault : ∀ φ, E.fails (.transition status) φ →
      Q (.error (.external φ)) ⟨.closed db, log ++ [.failed (.transition status)]⟩) :
    wp E Q (transition svc opId status m) ⟨.closed db, log⟩ := by
  obtain ⟨op, hop, rfl, rfl⟩ := stage.row
  unfold transition
  simp only [Program.bind_eq]
  refine wp_draw_bind fun now _ => wp_draw_bind fun cached _ => wp_draw_bind fun auditId hauditId =>
    wp_draw_bind fun notificationId hnotificationId => wp_draw_bind fun notifiedAt _ => ?_
  have unusedAudit := (fresh _ _ _ hauditId).2
  have unusedNotification := (fresh _ _ _ hnotificationId).2
  simp only [Connection.view_closed, Database.unused, Bool.and_eq_true, Bool.not_eq_true']
    at unusedAudit unusedNotification
  obtain ⟨⟨op', db'⟩, hok⟩ := transitionBlock_total stage.keyed hop hopen svc status m cached now
    unusedAudit.1.1.1.2 unusedNotification.1.1.2 notifiedAt
  rw [wp_bind]
  refine wp_transaction ?_ ?_ fault
  · intro op'' db'' h
    obtain ⟨hdone, hfault⟩ := done op'' db'' cached now auditId notificationId notifiedAt h
    dsimp only
    split
    · rename_i ends
      rw [wp_bind]
      exact wp_publishTerminal hdone (hfault ends)
    · exact hdone
  · intro e h
    rw [hok] at h
    cases h

/-- What every milestone of an open operation leaves of a stage. -/
theorem wp_milestone (fresh : ∀ x q a, E.draws x q a → FreshDraw x q a)
    (stage : Stage ids opId s db) (hopen : s.terminal = false)
    (milestone : status = .running ∨ status.terminal = true)
    (done : ∀ op db', Stage ids opId status db' → db'.worlds = db.worlds →
      db'.sessions = db.sessions → db'.javaRuntimes = db.javaRuntimes →
      Q (.ok op) ⟨.closed db', log ++ [.committed (.transition status)]⟩ ∧
      ∀ φ, E.fails .publishRead φ → Q (.error (.external φ))
        ⟨.closed db', log ++ [.committed (.transition status)] ++ [.failed .publishRead]⟩)
    (fault : ∀ φ, E.fails (.transition status) φ →
      Q (.error (.external φ)) ⟨.closed db, log ++ [.failed (.transition status)]⟩) :
    wp E Q (transition svc opId status m) ⟨.closed db, log⟩ := by
  refine wp_stored fresh stage hopen ?_ fault
  intro op db' cached now auditId notificationId notifiedAt h
  obtain ⟨hstage, worlds, sessions, runtimes⟩ := transitionBlock_stage stage.keyed milestone h
  rw [stage.ids_eq] at hstage
  obtain ⟨hdone, hfault⟩ := done op db' hstage worlds sessions runtimes
  exact ⟨hdone, fun _ => hfault⟩

/-- An operation that is missing or has ended gets no further milestone. -/
theorem wp_transition_over (isOver : Over db opId)
    (refused : ∀ text, Q (.error (.operationState text)) ⟨.closed db, log⟩)
    (fault : ∀ φ, E.fails (.transition status) φ →
      Q (.error (.external φ)) ⟨.closed db, log ++ [.failed (.transition status)]⟩) :
    wp E Q (transition svc opId status m) ⟨.closed db, log⟩ := by
  refine wp_transition ?_ ?_ fault
  · intro cached now auditId notificationId notifiedAt op db' h
    obtain ⟨text, h'⟩ := transitionBlock_over isOver svc status m cached now auditId notificationId
      notifiedAt
    rw [h] at h'
    cases h'
  · intro cached now auditId notificationId notifiedAt e h
    obtain ⟨text, h'⟩ := transitionBlock_over isOver svc status m cached now auditId notificationId
      notifiedAt
    rw [h] at h'
    cases h'
    exact refused text

/-- With a transaction left open on the connection a milestone only ends it. -/
theorem wp_transition_nested {w : Database}
    (nested : Q (.error .nestedTransaction) ⟨.closed db, log⟩)
    (fault : ∀ φ, E.fails (.transition status) φ →
      Q (.error (.external φ)) ⟨.closed db, log ++ [.failed (.transition status)]⟩) :
    wp E Q (transition svc opId status m) ⟨⟨db, some w⟩, log⟩ := by
  unfold transition
  simp only [Program.bind_eq]
  refine wp_draw_bind fun now _ => wp_draw_bind fun cached _ => wp_draw_bind fun auditId _ =>
    wp_draw_bind fun notificationId _ => wp_draw_bind fun notifiedAt _ => ?_
  rw [wp_bind]
  exact wp_transaction_open nested fault

end Rules

end Operations

end McManager
