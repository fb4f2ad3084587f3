import McManager.Services.OperationInvariants

namespace McManager

open Framework

/-- The record is about the end of an operation. -/
def AuditEvent.ofOperation : AuditEvent → Bool
  | .operation _ _ => true
  | _ => false

namespace Database

/-- The number of terminal audit records of an operation. -/
def terminalAudits (db : Database) (opId : String) : Nat :=
  db.audits.countP fun a => a.operationId == some opId && a.eventType.ofOperation

/-- The number of notifications about an operation. -/
def notificationsOf (db : Database) (opId : String) : Nat :=
  db.notifications.countP (·.relatedOperationId == some opId)

/-- The books are kept: every ended operation has its one audit record, an operation in flight
has left neither an audit record nor a notification, and no record is about an operation that
does not exist. -/
structure Settled (db : Database) : Prop where
  unique : db.UniqueOperations
  audited : ∀ op ∈ db.operations, db.terminalAudits op.opId = if op.terminal then 1 else 0
  quiet : ∀ op ∈ db.operations, op.terminal = false → db.notificationsOf op.opId = 0
  auditRefs : ∀ opId, db.hasOperation opId = false → db.terminalAudits opId = 0
  notificationRefs : ∀ opId, db.hasOperation opId = false → db.notificationsOf opId = 0

end Database

namespace Operations

private theorem terminalAudits_append (db : Database) (audits : List AuditRecord) (opId : String) :
    Database.terminalAudits { db with audits := db.audits ++ audits } opId =
      db.terminalAudits opId +
        audits.countP fun a => a.operationId == some opId && a.eventType.ofOperation := by
  simp [Database.terminalAudits, List.countP_append]

theorem terminalAudits_created (db : Database) (victims : List Operation) (now : Int)
    (code : String) (auditIds : Nat → String) (op : Operation) (opId : String) :
    (created db victims now code auditIds op).terminalAudits opId =
      db.terminalAudits opId + (victims.map (·.opId)).count opId := by
  have rows : ∀ ops : List Operation, (ops.zipIdx.map fun row : Operation × Nat =>
      terminalAudit db.users (auditIds row.2) row.1).countP
        (fun a => a.operationId == some opId && a.eventType.ofOperation) =
      ops.countP (·.opId == opId) := by
    intro ops
    have hfun : ((fun a : AuditRecord => a.operationId == some opId && a.eventType.ofOperation) ∘
        fun row : Operation × Nat => terminalAudit db.users (auditIds row.2) row.1) =
        (fun op : Operation => op.opId == opId) ∘ Prod.fst := by
      funext row
      simp [terminalAudit, AuditEvent.ofOperation]
    rw [List.countP_map, hfun, ← List.countP_map, List.zipIdx_map_fst]
  have cancelled : (victims.map (Operation.cancel now code)).countP (·.opId == opId) =
      (victims.map (·.opId)).count opId := by
    rw [List.count, List.countP_map, List.countP_map]
    rfl
  have happend := terminalAudits_append db ((victims.map (Operation.cancel now code)).zipIdx.map
    fun row => terminalAudit db.users (auditIds row.2) row.1) opId
  rw [rows, cancelled] at happend
  exact happend

theorem terminalAudits_advanced (db : Database) (op : Operation) (audits : List AuditRecord)
    (notifications : List Notification) (opId : String) :
    (advanced db op audits notifications).terminalAudits opId = db.terminalAudits opId +
      audits.countP fun a => a.operationId == some opId && a.eventType.ofOperation := by
  simp [Database.terminalAudits, advanced, replaceOperation, List.countP_append]

theorem notificationsOf_advanced (db : Database) (op : Operation) (audits : List AuditRecord)
    (notifications : List Notification) (opId : String) :
    (advanced db op audits notifications).notificationsOf opId = db.notificationsOf opId +
      notifications.countP (·.relatedOperationId == some opId) := by
  simp [Database.notificationsOf, advanced, replaceOperation, List.countP_append]

theorem notificationsOf_created (db : Database) (victims : List Operation) (now : Int)
    (code : String) (auditIds : Nat → String) (op : Operation) (opId : String) :
    (created db victims now code auditIds op).notificationsOf opId = db.notificationsOf opId := rfl

/-- The operations a request cancels are in flight, each once. -/
theorem Admitted.victims {db : Database} {request : OperationInput} {initial s : OperationStatus}
    {allow : Bool} {victims : List Operation} (unique : db.UniqueOperations)
    (h : Admitted db request initial allow victims s) :
    (victims.map (·.opId)).Nodup ∧ ∀ v ∈ victims, v ∈ db.operations ∧ v.inFlight = true := by
  cases h with
  | unchecked => simp
  | checked worldId _ _ _ _ _ _ _ sub =>
    refine ⟨(inFlightOf_nodup unique worldId).sublist (sub.map _), ?_⟩
    intro v hv
    have hmem := mem_inFlightOf.mp (sub.subset hv)
    exact ⟨hmem.1, hmem.2.2⟩

private theorem settled_created {db : Database} {request : OperationInput}
    {initial s : OperationStatus} {allow : Bool} {victims : List Operation} {now : Int}
    {code opId : String} {auditIds : Nat → String} (settled : db.Settled)
    (admitted : Admitted db request initial allow victims s) (hopen : initial.terminal = false)
    (fresh : db.hasOperation opId = false)
    (unique : (created db victims now code auditIds
      (newOperation request opId s now)).UniqueOperations) :
    (created db victims now code auditIds (newOperation request opId s now)).Settled := by
  obtain ⟨nodup, hvictims⟩ := admitted.victims settled.unique
  have hcount : ∀ id, (victims.map (·.opId)).count id =
      if id ∈ victims.map (·.opId) then 1 else 0 := fun id => nodup.count
  have known : ∀ id ∈ victims.map (·.opId), db.hasOperation id = true := by
    intro id hid
    obtain ⟨v, hv, rfl⟩ := List.mem_map.mp hid
    exact hasOperation_iff.mpr (List.mem_map.mpr ⟨v, (hvictims v hv).1, rfl⟩)
  have stranger : opId ∉ victims.map (·.opId) := by
    intro hid
    simp [known opId hid] at fresh
  have ids : ∀ id, (created db victims now code auditIds
      (newOperation request opId s now)).hasOperation id = false → db.hasOperation id = false := by
    intro id hid
    by_contra h
    have hmem := hasOperation_iff.mp (by simpa using h)
    have : id ∈ (created db victims now code auditIds
        (newOperation request opId s now)).operations.map (·.opId) := by
      simp only [created, List.map_append, cancelAll_ids, List.mem_append]
      exact .inl hmem
    simp [hasOperation_iff.mpr this] at hid
  refine ⟨unique, ?_, ?_, ?_, ?_⟩
  · intro x hx
    rw [terminalAudits_created, hcount]
    rcases mem_created.mp hx with rfl | ⟨old, hold, ⟨hv, hflight, rfl⟩ | ⟨hnot, rfl⟩⟩
    · have hnone := settled.auditRefs opId fresh
      have hs := admitted.remains_open hopen
      simp [newOperation, Operation.terminal, hnone, stranger, hs]
    · have hnone := settled.audited old hold
      rw [Operation.inFlight_iff.mp hflight] at hnone
      simp [hnone, hv, Operation.terminal, Operation.cancel, OperationStatus.terminal]
    · have hnv : x.opId ∉ victims.map (·.opId) := by
        intro hid
        obtain ⟨v, hv, hvid⟩ := List.mem_map.mp hid
        obtain rfl := nodup_key_inj settled.unique (hvictims v hv).1 hold hvid
        exact hnot ⟨hid, (hvictims v hv).2⟩
      simp only [hnv, if_false, settled.audited x hold]
      rfl
  · intro x hx hx'
    rw [notificationsOf_created]
    rcases mem_created.mp hx with rfl | ⟨old, hold, ⟨-, -, rfl⟩ | ⟨-, rfl⟩⟩
    · exact settled.notificationRefs opId fresh
    · simp [Operation.terminal, Operation.cancel, OperationStatus.terminal] at hx'
    · exact settled.quiet x hold hx'
  · intro id hid
    have hid := ids id hid
    have hnv : id ∉ victims.map (·.opId) := by
      intro hmem
      simp [known id hmem] at hid
    rw [terminalAudits_created, hcount, if_neg hnv, settled.auditRefs id hid]
  · intro id hid
    exact settled.notificationRefs id (ids id hid)

private theorem settled_advanced {svc : OperationService} {db : Database} {op new : Operation}
    {auditId : String} {audits : List AuditRecord} {notifications : List Notification}
    (settled : db.Settled) (hop : op ∈ db.operations) (hid : new.opId = op.opId)
    (hopen : op.terminal = false) (recorded : Recorded svc db auditId new audits notifications)
    (unique : (advanced db new audits notifications).UniqueOperations) :
    (advanced db new audits notifications).Settled := by
  have hnew : (audits.countP fun a => a.operationId == some new.opId && a.eventType.ofOperation) =
      if new.terminal then 1 else 0 := by
    rw [recorded.audits_eq]
    split <;> simp [terminalAudit, AuditEvent.ofOperation]
  have hother : ∀ id, id ≠ new.opId →
      (audits.countP fun a => a.operationId == some id && a.eventType.ofOperation) = 0 ∧
        notifications.countP (·.relatedOperationId == some id) = 0 := by
    intro id hne
    rw [List.countP_eq_zero, List.countP_eq_zero, recorded.audits_eq]
    constructor
    · intro a ha
      split at ha
      · simp only [List.mem_singleton] at ha
        simp [ha, terminalAudit, hne.symm]
      · simp at ha
    · intro n hn
      simp [recorded.related n hn, hne.symm]
  have members : ∀ x, x ∈ (advanced db new audits notifications).operations ↔
      x = new ∨ x ∈ db.operations ∧ x.opId ≠ new.opId :=
    fun x => mem_replaceOperation ⟨op, hop, hid.symm⟩
  have ids : ∀ id, (advanced db new audits notifications).hasOperation id =
      db.hasOperation id := by
    intro id
    rw [Bool.eq_iff_iff, hasOperation_iff, hasOperation_iff]
    have same : (replaceOperation db new.opId new).operations.map (·.opId) =
        db.operations.map (·.opId) := replaceOperation_ids rfl
    simp only [advanced, same]
  have strange : ∀ id, db.hasOperation id = false → id ≠ new.opId := by
    rintro id h rfl
    rw [hid] at h
    simp [hasOperation_iff.mpr (List.mem_map.mpr ⟨op, hop, rfl⟩)] at h
  refine ⟨unique, ?_, ?_, ?_, ?_⟩
  · intro x hx
    rw [terminalAudits_advanced]
    rcases (members x).mp hx with rfl | ⟨hx, hne⟩
    · have hnone := settled.audited op hop
      rw [hopen] at hnone
      rw [hnew, hid, hnone]
      simp
    · rw [(hother x.opId hne).1, settled.audited x hx]
      rfl
  · intro x hx hx'
    rw [notificationsOf_advanced]
    rcases (members x).mp hx with rfl | ⟨hx, hne⟩
    · have none : notifications = [] := by
        by_contra h
        simp [(recorded.notified.mp h).1] at hx'
      rw [none, hid, settled.quiet op hop hopen]
      rfl
    · rw [(hother x.opId hne).2, settled.quiet x hx hx']
  · intro id h
    rw [ids] at h
    rw [terminalAudits_advanced, settled.auditRefs id h, (hother id (strange id h)).1]
  · intro id h
    rw [ids] at h
    rw [notificationsOf_advanced, settled.notificationRefs id h, (hother id (strange id h)).2]

/-- A call that asks for no operation that has ended already. -/
def OpCall.Open : OpCall → Prop
  | .create _ initial _ => initial.terminal = false
  | _ => True

/-- Every effect keeps the books. -/
theorem Effect.settled {svc : OperationService} {call : OpCall} {db db' : Database}
    {r : Option Operation} (h : Effect svc call db r db') (hopen : call.Open)
    (settled : db.Settled) : db'.Settled := by
  have unique := h.unique settled.unique
  cases h with
  | create opId auditIds now h =>
    obtain ⟨-, -, rfl, -⟩ | ⟨-, -, victims, s, code, admitted, rfl, -, -, fresh, -, rfl⟩ :=
      createBlock_ok settled.unique h
    · exact settled
    · exact settled_created settled admitted hopen fresh unique
  | claim now h =>
    obtain ⟨-, rfl⟩ | ⟨op, hop, rfl, hq, -, -, rfl⟩ := claimBlock_ok settled.unique h
    · exact settled
    · have hterminal : op.terminal = false := by
        simp [Operation.terminal, hq, OperationStatus.terminal]
      have recorded : Recorded svc db "" (op.claim now) [] [] :=
        ⟨rfl, by simp, by simp, by simp [Operation.claim, Operation.terminal,
          OperationStatus.terminal]⟩
      have hid : (op.claim now).opId = op.opId := rfl
      rw [← hid, ← advanced_nil] at unique ⊢
      exact settled_advanced settled hop hid hterminal recorded unique
  | transition cached now auditId notificationId notifiedAt h =>
    obtain ⟨op, hop, rfl, hterminal, h⟩ := transitionBlock_ok settled.unique h
    split at h
    · obtain ⟨rfl, audits, notifications, recorded, rfl⟩ := h
      exact settled_advanced settled hop rfl hterminal recorded unique
    · obtain ⟨rfl, rfl⟩ := h
      exact settled

/-- An operation that has ended is not touched again, and no notification about it is added. -/
def Ended (db db' : Database) : Prop :=
  ∀ op ∈ db.operations, op.terminal = true →
    op ∈ db'.operations ∧ db'.notificationsOf op.opId = db.notificationsOf op.opId

theorem Ended.refl (db : Database) : Ended db db := fun _ hop _ => ⟨hop, rfl⟩

theorem Ended.trans {a b c : Database} (h : Ended a b) (h' : Ended b c) : Ended a c := by
  intro op hop hended
  obtain ⟨hop', hcount⟩ := h op hop hended
  obtain ⟨hop'', hcount'⟩ := h' op hop' hended
  exact ⟨hop'', hcount'.trans hcount⟩

private theorem ended_advanced {svc : OperationService} {db : Database} {op new : Operation}
    {auditId : String} {audits : List AuditRecord} {notifications : List Notification}
    (unique : db.UniqueOperations) (hop : op ∈ db.operations) (hid : new.opId = op.opId)
    (hopen : op.terminal = false) (recorded : Recorded svc db auditId new audits notifications) :
    Ended db (advanced db new audits notifications) := by
  intro x hx hended
  have hne : x.opId ≠ new.opId := by
    intro h
    obtain rfl := nodup_key_inj unique hx hop (h.trans hid)
    simp [hopen] at hended
  have none : notifications.countP (·.relatedOperationId == some x.opId) = 0 := by
    rw [List.countP_eq_zero]
    intro n hn
    simp [recorded.related n hn, hne.symm]
  refine ⟨(mem_replaceOperation ⟨op, hop, hid.symm⟩).mpr (.inr ⟨hx, hne⟩), ?_⟩
  rw [notificationsOf_advanced, none, Nat.add_zero]

theorem Effect.ended {svc : OperationService} {call : OpCall} {db db' : Database}
    {r : Option Operation} (unique : db.UniqueOperations) (h : Effect svc call db r db') :
    Ended db db' := by
  cases h with
  | create opId auditIds now h =>
    obtain ⟨-, -, rfl, -⟩ | ⟨-, -, victims, s, code, -, -, -, -, -, -, rfl⟩ :=
      createBlock_ok unique h
    · exact .refl _
    · intro op hop hended
      have hflight : op.inFlight = false := by
        rw [Operation.inFlight, OperationStatus.inFlight_eq_not_terminal, ← Operation.terminal,
          hended]
        rfl
      exact ⟨mem_created.mpr (.inr ⟨op, hop, .inr ⟨by simp [hflight], rfl⟩⟩), rfl⟩
  | claim now h =>
    obtain ⟨-, rfl⟩ | ⟨op, hop, rfl, hq, -, -, rfl⟩ := claimBlock_ok unique h
    · exact .refl _
    · have hterminal : op.terminal = false := by
        simp [Operation.terminal, hq, OperationStatus.terminal]
      have recorded : Recorded svc db "" (op.claim now) [] [] :=
        ⟨rfl, by simp, by simp, by simp [Operation.claim, Operation.terminal,
          OperationStatus.terminal]⟩
      have hid : (op.claim now).opId = op.opId := rfl
      rw [← hid, ← advanced_nil]
      exact ended_advanced unique hop hid hterminal recorded
  | transition cached now auditId notificationId notifiedAt h =>
    obtain ⟨op, hop, rfl, hterminal, h⟩ := transitionBlock_ok unique h
    split at h
    · obtain ⟨rfl, audits, notifications, recorded, rfl⟩ := h
      exact ended_advanced unique hop rfl hterminal recorded
    · obtain ⟨rfl, rfl⟩ := h
      exact .refl _

end Operations

/-- The served call is a transition that ended `op`. -/
def Operations.Served.Ends (s : Operations.Served) (op : Operation) : Prop :=
  (∃ status m, s.call = .transition op.opId status m) ∧
    (∃ old ∈ s.before.operations, old.opId = op.opId ∧ old.terminal = false) ∧
    op ∈ s.after.operations ∧ op.terminal = true

namespace Operations

/-- The number of notifications an ended operation is due. -/
def notificationsDue (svc : OperationService) (op : Operation) : Nat :=
  if svc.notifications = true ∧ (Notifications.terminalRule op.opType op.status).isSome = true
  then 1 else 0

theorem Effect.notified {svc : OperationService} {opId : String} {status : OperationStatus}
    {m : Milestone} {db db' : Database} {r : Option Operation} (settled : db.Settled)
    (h : Effect svc (.transition opId status m) db r db') {old op : Operation}
    (hold : old ∈ db.operations) (hid : old.opId = opId) (hopen : old.terminal = false)
    (hop : op ∈ db'.operations) (hop' : op.opId = opId) (hended : op.terminal = true) :
    db'.notificationsOf opId = notificationsDue svc op := by
  have unique := h.unique settled.unique
  cases h with
  | transition cached now auditId notificationId notifiedAt h =>
    obtain ⟨current, hcurrent, rfl, -, h⟩ := transitionBlock_ok settled.unique h
    split at h
    · obtain ⟨rfl, audits, notifications, recorded, rfl⟩ := h
      have hnew : current.advance status m cached now ∈ (advanced db
          (current.advance status m cached now) audits notifications).operations :=
        (mem_replaceOperation ⟨current, hcurrent, rfl⟩).mpr (.inl rfl)
      obtain rfl := nodup_key_inj unique hop hnew hop'
      have hquiet := settled.quiet old hold hopen
      rw [hid] at hquiet
      have hfree : ∀ n ∈ db.notifications, n.relatedOperationId ≠ some current.opId := by
        have hzero := List.countP_eq_zero.mp hquiet
        simpa using hzero
      rw [notificationsOf_advanced, hquiet, Nat.zero_add, notificationsDue]
      split
      · rename_i hdue
        have hne := recorded.notified.mpr ⟨hended, hdue.1, hdue.2, hfree⟩
        obtain ⟨n, rfl⟩ : ∃ n, notifications = [n] := by
          have hlen := recorded.length_le
          match notifications with
          | [] => exact absurd rfl hne
          | [n] => exact ⟨n, rfl⟩
          | a :: b :: rest => simp at hlen
        have hrelated : n.relatedOperationId = some current.opId := recorded.related n (by simp)
        simp [hrelated]
      · rename_i hdue
        have hnil : notifications = [] := by
          by_contra hne
          have h := recorded.notified.mp hne
          exact hdue ⟨h.2.1, h.2.2.1⟩
        rw [hnil]
        rfl
    · obtain ⟨rfl, rfl⟩ := h
      obtain rfl := nodup_key_inj unique hop hold (hop'.trans hid.symm)
      simp [hopen] at hended

/-- Whatever has ended in the first database is the same operation in the second. -/
def Finished (db db' : Database) : Prop :=
  ∀ opId op, db.operation? opId = some op → op.terminal = true → db'.operation? opId = some op

/-- Finality and exact bookkeeping over a run: what has ended stays as it is, every operation
has its terminal audit record exactly when it has ended, and a transition that ends an
operation leaves exactly the notifications that are due. -/
structure Final (due : Operation → Nat) (served : List Served) : Prop where
  final : (∀ s ∈ served, Finished s.before s.after) ∧
    served.Pairwise fun s t => Finished s.after t.after
  audited : ∀ s ∈ served, ∀ op ∈ s.after.operations,
    s.after.terminalAudits op.opId = if op.terminal then 1 else 0
  notified : (∀ s ∈ served, ∀ op, s.Ends op → s.after.notificationsOf op.opId = due op) ∧
    served.Pairwise fun s t => ∀ op, s.Ends op → t.after.notificationsOf op.opId = due op

theorem Ended.finished {db db' : Database} (unique : db'.UniqueOperations) (h : Ended db db') :
    Finished db db' := by
  intro opId op hop hended
  obtain ⟨hmem, rfl⟩ := Database.operation?_mem hop
  exact Database.operation?_eq unique (h op hmem hended).1

/-- With open initial statuses a run is final, and what is due is what the service
publishes. -/
theorem served_final (svc : OperationService) (calls : List (OpCall × Env)) (db : Database)
    (log : Log) (settled : db.Settled) (hopen : ∀ c ∈ calls, c.1.Open) :
    Final (notificationsDue svc) (serve svc calls ⟨.closed db, log⟩) := by
  have chain := serve_chain svc calls db log
  have inv := chain.invariant (I := Database.Settled) (fun s hs r effect h => by
    obtain ⟨c, hc, hcall⟩ := serve_call hs
    have hopen := hopen c hc
    rw [← hcall] at hopen
    exact effect.settled hopen h) settled
  obtain ⟨hstep, hpair⟩ := chain.related (I := Database.UniqueOperations) Ended.refl
    (fun _ _ _ => Ended.trans) (fun s hs => (inv s hs).1.unique)
    (fun s _ r h effect => effect.ended h)
  have later : (serve svc calls ⟨.closed db, log⟩).Pairwise fun s t => Ended s.after t.after := by
    refine hpair.imp_of_mem ?_
    intro s t _ ht h
    exact h.trans (hstep t ht).2
  have due : ∀ s ∈ serve svc calls ⟨.closed db, log⟩, ∀ op, s.Ends op →
      s.after.notificationsOf op.opId = notificationsDue svc op := by
    rintro s hs op ⟨⟨status, m, hcall⟩, ⟨old, hold, hid, hterminal⟩, hop, hended⟩
    rcases chain.sound s hs with ⟨-, same⟩ | ⟨r, effect, -⟩
    · rw [same] at hop
      obtain rfl := nodup_key_inj (inv s hs).1.unique hop hold hid.symm
      simp [hterminal] at hended
    · rw [hcall] at effect
      exact effect.notified (inv s hs).1 hold hid hterminal hop rfl hended
  refine ⟨⟨?_, ?_⟩, fun s hs => (inv s hs).2.audited, due, ?_⟩
  · intro s hs
    exact (hstep s hs).2.finished (inv s hs).2.unique
  · refine later.imp_of_mem ?_
    intro s t _ ht h
    exact h.finished (inv t ht).2.unique
  · refine later.imp_of_mem ?_
    rintro s t hs - h op ends
    rw [(h op ends.2.2.1 ends.2.2.2).2]
    exact due s hs op ends

theorem settled_single (state : WorldState) : (Database.single state).Settled := by
  refine ⟨?_, ?_, ?_, ?_, ?_⟩ <;>
    simp [Database.UniqueOperations, Database.single, Database.terminalAudits,
      Database.notificationsOf]

/-- A Start and its end. -/
def startAndStop (initial : OperationStatus) : List (OpCall × Env) :=
  [(.create { opType := .start, actorType := .system, worldId := some "w" } initial false,
      .smooth "op1"),
    (.transition "op1" .completed {}, .smooth "op2")]

def startedOperation : Operation :=
  newOperation { opType := .start, actorType := .system, worldId := some "w" } "op1" .running 0

theorem served_final_once : Final (notificationsDue ⟨false, true⟩)
    (serve ⟨false, true⟩ (startAndStop .running) ⟨.closed (.single .off), []⟩) :=
  served_final _ _ _ _ (settled_single .off) (by simp [startAndStop, OpCall.Open, OperationStatus.terminal])

/-- A service without notifications publishes none, and an operation created with a terminal
status has no audit record. -/
theorem served_not_final :
    (¬∀ (svc : OperationService) (calls : List (OpCall × Env)) (db : Database) (log : Log),
      db.Settled → (∀ c ∈ calls, c.1.Open) → Final
        (fun op => if (Notifications.terminalRule op.opType op.status).isSome then 1 else 0)
        (serve svc calls ⟨.closed db, log⟩)) ∧
    ¬∀ (svc : OperationService) (calls : List (OpCall × Env)) (db : Database) (log : Log),
      db.Settled → Final (notificationsDue svc) (serve svc calls ⟨.closed db, log⟩) := by
  constructor
  · intro h
    have h := h ⟨false, false⟩ (startAndStop .running) (.single .off) [] (settled_single .off)
      (by simp [startAndStop, OpCall.Open, OperationStatus.terminal])
    have h := h.notified.1 _ (.tail _ (.head _)) (startedOperation.advance .completed {} none 0)
      ⟨⟨.completed, {}, rfl⟩, ⟨startedOperation, .head _, rfl, rfl⟩, .head _, rfl⟩
    exact absurd h (by decide)
  · intro h
    have h := (h ⟨false, true⟩ (startAndStop .completed) (.single .off) []
      (settled_single .off)).audited _ (.head _) _ (.head _)
    exact absurd h (by decide)

end Operations

end McManager
