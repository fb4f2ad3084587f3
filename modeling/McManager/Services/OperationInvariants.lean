import McManager.Services.OperationRuns

namespace McManager

open Framework

/-- What no service call changes about an operation, and that an ended one stays as it is. -/
structure Evolves (old new : Operation) : Prop where
  opId : new.opId = old.opId
  opType : new.opType = old.opType
  worldId : new.worldId = old.worldId
  key : new.idempotencyKey = old.idempotencyKey
  ended : old.terminal = true → new = old

theorem Evolves.refl (op : Operation) : Evolves op op := ⟨rfl, rfl, rfl, rfl, fun _ => rfl⟩

theorem Evolves.trans {a b c : Operation} (h : Evolves a b) (h' : Evolves b c) : Evolves a c where
  opId := h'.opId.trans h.opId
  opType := h'.opType.trans h.opType
  worldId := h'.worldId.trans h.worldId
  key := h'.key.trans h.key
  ended := by
    intro ha
    obtain rfl := h.ended ha
    exact h'.ended ha

theorem Operation.inFlight_iff {op : Operation} : op.inFlight = true ↔ op.terminal = false := by
  simp [Operation.inFlight, Operation.terminal, OperationStatus.inFlight_eq_not_terminal]

theorem Evolves.cancel {op : Operation} (h : op.inFlight = true) (now : Int) (code : String) :
    Evolves op (op.cancel now code) :=
  ⟨rfl, rfl, rfl, rfl, fun ht => by simp [Operation.inFlight_iff.mp h] at ht⟩

theorem Evolves.claim {op : Operation} (h : op.status = .queued) (now : Int) :
    Evolves op (op.claim now) :=
  ⟨rfl, rfl, rfl, rfl, fun ht => by simp [Operation.terminal, h, OperationStatus.terminal] at ht⟩

theorem Evolves.advance {op : Operation} (h : op.terminal = false) (status : OperationStatus)
    (m : Operations.Milestone) (cached : Option Checkpoint) (now : Int) :
    Evolves op (op.advance status m cached now) :=
  ⟨rfl, rfl, rfl, rfl, fun ht => by simp [h] at ht⟩

namespace Operations

/-- Every old row has its successor among the new ones. -/
def RowsKept (db db' : Database) : Prop :=
  ∀ old ∈ db.operations, ∃ new ∈ db'.operations, Evolves old new

theorem RowsKept.refl (db : Database) : RowsKept db db := fun old h => ⟨old, h, .refl old⟩

theorem RowsKept.trans {a b c : Database} (h : RowsKept a b) (h' : RowsKept b c) :
    RowsKept a c := by
  intro old hold
  obtain ⟨mid, hmid, e⟩ := h old hold
  obtain ⟨new, hnew, e'⟩ := h' mid hmid
  exact ⟨new, hnew, e.trans e'⟩

theorem rowsKept_replaceOperation {db : Database} {op new : Operation} {audits : List AuditRecord}
    {notifications : List Notification} (unique : db.UniqueOperations)
    (hop : op ∈ db.operations) (e : Evolves op new) :
    RowsKept db (advanced db new audits notifications) := by
  intro old hold
  have hmem : ∀ x, x ∈ (advanced db new audits notifications).operations ↔
      x = new ∨ x ∈ db.operations ∧ x.opId ≠ new.opId := fun x =>
    mem_replaceOperation ⟨op, hop, e.opId.symm⟩
  by_cases hid : old.opId = op.opId
  · obtain rfl := nodup_key_inj unique hold hop hid
    exact ⟨new, (hmem new).mpr (.inl rfl), e⟩
  · exact ⟨old, (hmem old).mpr (.inr ⟨hold, by rw [e.opId]; exact hid⟩), .refl old⟩

theorem advanced_nil (db : Database) (op : Operation) :
    advanced db op [] [] = replaceOperation db op.opId op := by
  simp only [advanced, List.append_nil]
  rfl

/-- A request with an open initial status is let in with an open status. -/
theorem Admitted.remains_open {db : Database} {request : OperationInput}
    {initial s : OperationStatus} {allow : Bool} {victims : List Operation}
    (h : Admitted db request initial allow victims s) (hopen : initial.terminal = false) :
    s.terminal = false := by
  have requested : (requestedStatus db request initial).terminal = false := by
    unfold requestedStatus
    split
    · split
      · rfl
      · exact hopen
    · split
      · rfl
      · exact hopen
    · exact hopen
  cases h with
  | unchecked => exact requested
  | checked worldId _ _ _ _ _ _ admits _ =>
    rcases admits.status_eq with rfl | rfl
    · exact requested
    · rfl

theorem mem_created {db : Database} {victims : List Operation} {now : Int} {code : String}
    {auditIds : Nat → String} {op x : Operation} :
    x ∈ (created db victims now code auditIds op).operations ↔
      x = op ∨ ∃ old ∈ db.operations,
        (old.opId ∈ victims.map (·.opId) ∧ old.inFlight = true ∧ x = old.cancel now code) ∨
        (¬(old.opId ∈ victims.map (·.opId) ∧ old.inFlight = true) ∧ x = old) := by
  simp only [created, List.mem_append, List.mem_singleton, mem_cancelAll]
  exact or_comm

theorem rowsKept_created {db : Database} {victims : List Operation} {now : Int} {code : String}
    {auditIds : Nat → String} {op : Operation} :
    RowsKept db (created db victims now code auditIds op) := by
  intro old hold
  by_cases hv : old.opId ∈ victims.map (·.opId) ∧ old.inFlight = true
  · exact ⟨_, mem_created.mpr (.inr ⟨old, hold, .inl ⟨hv.1, hv.2, rfl⟩⟩), .cancel hv.2 now code⟩
  · exact ⟨old, mem_created.mpr (.inr ⟨old, hold, .inr ⟨hv, rfl⟩⟩), .refl old⟩

/-- No effect loses an operation, moves it or reopens it. -/
theorem Effect.rowsKept {svc : OperationService} {call : OpCall} {db db' : Database}
    {r : Option Operation} (unique : db.UniqueOperations) (h : Effect svc call db r db') :
    RowsKept db db' := by
  cases h with
  | create opId auditIds now h =>
    obtain ⟨-, -, rfl, -⟩ | ⟨-, -, victims, s, code, -, -, -, -, -, -, rfl⟩ := createBlock_ok unique h
    · exact .refl _
    · exact rowsKept_created
  | claim now h =>
    obtain ⟨-, rfl⟩ | ⟨op, hop, rfl, hq, -, -, rfl⟩ := claimBlock_ok unique h
    · exact .refl _
    · have kept : RowsKept db (advanced db (op.claim now) [] []) :=
        rowsKept_replaceOperation unique hop (.claim hq now)
      rwa [advanced_nil] at kept
  | transition cached now auditId notificationId notifiedAt h =>
    obtain ⟨op, hop, rfl, hopen, h⟩ := transitionBlock_ok unique h
    split at h
    · obtain ⟨rfl, audits, notifications, -, rfl⟩ := h
      exact rowsKept_replaceOperation unique hop (.advance hopen _ _ _ _)
    · obtain ⟨rfl, rfl⟩ := h
      exact .refl _

theorem unique_replaceOperation {db : Database} {op : Operation} {opId : String}
    (unique : db.UniqueOperations) (hid : op.opId = opId) :
    (replaceOperation db opId op).UniqueOperations := by
  rw [Database.UniqueOperations, replaceOperation_ids hid]
  exact unique

/-- No effect duplicates a primary key. -/
theorem Effect.unique {svc : OperationService} {call : OpCall} {db db' : Database}
    {r : Option Operation} (h : Effect svc call db r db') (unique : db.UniqueOperations) :
    db'.UniqueOperations := by
  cases h with
  | create opId auditIds now h =>
    obtain ⟨-, -, rfl, -⟩ | ⟨-, -, victims, s, code, -, rfl, -, -, hnew, -, rfl⟩ :=
      createBlock_ok unique h
    · exact unique
    · have hnotin : opId ∉ db.operations.map (·.opId) := by
        rw [← hasOperation_iff, hnew]
        simp
      simp only [Database.UniqueOperations, created, List.map_append, cancelAll_ids, List.map_cons,
        List.map_nil, newOperation]
      rw [List.nodup_append]
      refine ⟨unique, by simp, fun a ha b hb hab => hnotin ?_⟩
      rwa [hab, List.mem_singleton.mp hb] at ha
  | claim now h =>
    obtain ⟨-, rfl⟩ | ⟨op, hop, rfl, hq, -, -, rfl⟩ := claimBlock_ok unique h
    · exact unique
    · exact unique_replaceOperation unique rfl
  | transition cached now auditId notificationId notifiedAt h =>
    obtain ⟨op, hop, rfl, hopen, h⟩ := transitionBlock_ok unique h
    split at h
    · obtain ⟨rfl, audits, notifications, -, rfl⟩ := h
      exact unique_replaceOperation unique rfl
    · obtain ⟨rfl, rfl⟩ := h
      exact unique

end Operations

end McManager
