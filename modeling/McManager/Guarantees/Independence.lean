import McManager.Services.Environment

namespace McManager

open Framework

/-- The database without the operations `extra` picks out. -/
def Database.without (db : Database) (extra : Operation → Bool) : Database :=
  { db with operations := db.operations.filter fun op => !extra op }

/-- `extra` picks out Sync operations in flight on one world. -/
structure ExtraSyncs (db : Database) (worldId : String) (extra : Operation → Bool) : Prop where
  sync : ∀ op ∈ db.operations, extra op = true → op.opType = .sync
  world : ∀ op ∈ db.operations, extra op = true → op.worldId = some worldId
  inFlight : ∀ op ∈ db.operations, extra op = true → op.inFlight = true

/-- What `create_with_replay` made of a request. -/
inductive Outcome
  | admitted (status : OperationStatus) (superseded : List String)
  | replayed (opId : String)
  | raised (e : Exn)
  deriving DecidableEq

/-- The operations that were in flight before and no longer are. -/
def ended (before after : Database) : List String :=
  (before.operations.filter fun op => op.inFlight &&
    !after.operations.any fun o => o.opId == op.opId && o.inFlight).map (·.opId)

/-- The outcome of a run of `create_with_replay` that began on the database `before`. -/
def Outcome.of (before : Database) : Except Exn (Operation × Bool) × Session → Outcome
  | (.ok (op, true), _) => .replayed op.opId
  | (.ok (op, false), y) => .admitted op.status (ended before y.conn.committed)
  | (.error e, _) => .raised e

/-- The outcome that the transaction of `create_with_replay` settles. -/
def Outcome.ofBlock (before : Database) :
    Except Exn ((Operation × List Operation × Bool) × Database) → Outcome
  | .ok ((op, _, true), _) => .replayed op.opId
  | .ok ((op, _, false), after) => .admitted op.status (ended before after)
  | .error e => .raised e

/-- A run of `claim_queued` that claimed its operation. -/
def claims : Except Exn (Option Operation) × Session → Bool
  | (.ok (some _), _) => true
  | _ => false

namespace Operations

/-- A Cleanup with the scope of one that is active. -/
def sharesScope (request : OperationInput) (active : List Operation) : Bool :=
  active.any fun op => op.opType == .cleanup &&
    (cleanupScope request.worldId request.data).isSome &&
    cleanupScope op.worldId op.data == cleanupScope request.worldId request.data

/-- The conflict matrix: the request cannot be let in beside the active operations. -/
def clashes (request : OperationInput) (active : List Operation) : Bool :=
  match request.opType with
  | .backup => active.any fun op => !op.opType.runtime && op.opType != .backup
  | .restore => active.any fun op => op.opType != .restore && !queuedDelete op
  | .cleanup =>
    !sharesScope request active && active.any fun op => !op.opType.runtime && op.opType != .cleanup
  | .stop | .start => active.any fun op => op.opType != .backup && op.opType != .cleanup
  | .kill =>
    active.any (fun op => op.opType != .backup && op.opType != .cleanup) &&
      active.any fun op => op.opType != .stop
  | _ => !active.isEmpty

/-- The requests whose outcome does not depend on the Syncs `extra` beside them: there are
none, the request is answered with an operation that exists already, it is not checked, it
waits behind a Cleanup of its scope, or it clashes with the other operations anyway. -/
def SyncBlind (db : Database) (extra : Operation → Bool) (request : OperationInput)
    (allow : Bool) : Prop :=
  (∀ op ∈ db.operations, extra op = false) ∨
    (db.without extra).keyTaken request.opType request.idempotencyKey = true ∨
    allow = true ∨ repeatOf (db.without extra) request allow ≠ none ∨
    ((request.worldId.map (inFlightOf (db.without extra))).any fun active =>
      request.opType == .cleanup && sharesScope request active || clashes request active) = true

section Sorting

variable {α : Type} {r : α → α → Prop} [DecidableRel r]

private theorem filter_orderedInsert [IsTrans α r] (p : α → Bool) (a : α) (l : List α)
    (sorted : l.Pairwise r) :
    (l.orderedInsert r a).filter p =
      if p a then (l.filter p).orderedInsert r a else l.filter p := by
  induction l with
  | nil => by_cases ha : p a = true <;> simp [ha]
  | cons b l ih =>
    obtain ⟨hb, sorted⟩ := List.pairwise_cons.mp sorted
    have ih := ih sorted
    by_cases hab : r a b
    · rw [List.orderedInsert_cons_of_le r l hab]
      by_cases ha : p a = true
      · rw [List.filter_cons_of_pos ha, if_pos ha]
        -- `a` stands before everything that is left of `b :: l`.
        have before : ∀ x ∈ (b :: l).filter p, r a x := by
          intro x hx
          rcases List.mem_cons.mp (List.mem_of_mem_filter hx) with rfl | hx
          · exact hab
          · exact trans_of r hab (hb x hx)
        cases hf : (b :: l).filter p with
        | nil => rfl
        | cons x rest => rw [List.orderedInsert_cons_of_le r rest (before x (by simp [hf]))]
      · rw [List.filter_cons_of_neg ha, if_neg ha]
    · rw [List.orderedInsert_of_not_le r l hab]
      by_cases hpb : p b = true
      · rw [List.filter_cons_of_pos hpb, List.filter_cons_of_pos hpb, ih,
          List.orderedInsert_of_not_le r _ hab]
        by_cases ha : p a = true <;> simp [ha]
      · rw [List.filter_cons_of_neg hpb, List.filter_cons_of_neg hpb, ih]

/-- Sorting after a selection is selecting after the sort. -/
theorem filter_insertionSort [IsTrans α r] [Std.Total r] (p : α → Bool) (l : List α) :
    (l.insertionSort r).filter p = (l.filter p).insertionSort r := by
  induction l with
  | nil => rfl
  | cons a l ih =>
    rw [List.insertionSort_cons, filter_orderedInsert p a _ (List.pairwise_insertionSort r l), ih]
    by_cases ha : p a = true <;> simp [ha]

end Sorting

private theorem find?_filter_of_imp {α : Type} {p q : α → Bool} {l : List α}
    (h : ∀ x ∈ l, q x = true → p x = true) : (l.filter p).find? q = l.find? q := by
  induction l with
  | nil => rfl
  | cons a l ih =>
    have ih := ih fun x hx => h x (by simp [hx])
    by_cases hp : p a = true
    · rw [List.filter_cons_of_pos hp, List.find?_cons, List.find?_cons, ih]
    · have hq : q a = false := by
        by_contra hq
        exact hp (h a (by simp) (by simpa using hq))
      rw [List.filter_cons_of_neg hp, List.find?_cons, ih, hq]

private theorem any_filter_of_imp {α : Type} {p q : α → Bool} {l : List α}
    (h : ∀ x ∈ l, q x = true → p x = true) : (l.filter p).any q = l.any q := by
  rw [Bool.eq_iff_iff, List.any_eq_true, List.any_eq_true]
  constructor
  · rintro ⟨x, hx, hq⟩
    exact ⟨x, List.mem_of_mem_filter hx, hq⟩
  · rintro ⟨x, hx, hq⟩
    exact ⟨x, List.mem_filter.mpr ⟨hx, h x hx hq⟩, hq⟩

theorem inFlightOf_without (db : Database) (extra : Operation → Bool) (worldId : String) :
    inFlightOf (db.without extra) worldId =
      (inFlightOf db worldId).filter fun op => !extra op := by
  have trans : IsTrans Operation fun a b => a.createdAt ≤ b.createdAt :=
    ⟨fun _ _ _ => le_trans⟩
  have total : Std.Total fun a b : Operation => a.createdAt ≤ b.createdAt :=
    ⟨fun a b => le_total a.createdAt b.createdAt⟩
  rw [inFlightOf, inFlightOf, Database.byCreatedAt, Database.byCreatedAt, filter_insertionSort]
  simp only [Database.without, List.filter_filter, Bool.and_comm]

section Requests

variable {db : Database} {worldId : String} {extra : Operation → Bool}
  {request : OperationInput}

/-- An operation of another type is none of the Syncs. -/
private theorem kept_other (syncs : ExtraSyncs db worldId extra)
    (other : request.opType ≠ .sync) {op : Operation} (hop : op ∈ db.operations)
    (htype : op.opType = request.opType) : (!extra op) = true := by
  rw [Bool.not_eq_true']
  by_contra h
  exact other (htype.symm.trans (syncs.sync op hop (by simpa using h)))

theorem keyTaken_without (syncs : ExtraSyncs db worldId extra) (other : request.opType ≠ .sync) :
    (db.without extra).keyTaken request.opType request.idempotencyKey =
      db.keyTaken request.opType request.idempotencyKey := by
  unfold Database.keyTaken Database.without
  rw [any_filter_of_imp]
  intro op hop hkey
  simp only [Bool.and_eq_true, beq_iff_eq] at hkey
  exact kept_other syncs other hop hkey.1

private theorem existing_without (syncs : ExtraSyncs db worldId extra)
    (other : request.opType ≠ .sync) :
    ((db.without extra).operations.find? fun op =>
        op.opType == request.opType && op.idempotencyKey == request.idempotencyKey) =
      db.operations.find? fun op =>
        op.opType == request.opType && op.idempotencyKey == request.idempotencyKey := by
  refine find?_filter_of_imp ?_
  intro op hop hkey
  simp only [Bool.and_eq_true, beq_iff_eq] at hkey
  exact kept_other syncs other hop hkey.1

theorem repeatOf_without (syncs : ExtraSyncs db worldId extra) (other : request.opType ≠ .sync)
    (allow : Bool) :
    repeatOf (db.without extra) request allow = repeatOf db request allow := by
  unfold repeatOf
  split
  · rename_i checked
    obtain ⟨w, hw⟩ := Option.isSome_iff_exists.mp checked.1
    simp only [hw, Option.map_some, Option.getD_some]
    rw [inFlightOf_without, find?_filter_of_imp]
    intro op hop hsame
    simp only [Bool.and_eq_true, beq_iff_eq] at hsame
    exact kept_other syncs other (mem_inFlightOf.mp hop).1 hsame.1
  · rfl

theorem requestedStatus_without (syncs : ExtraSyncs db worldId extra)
    (other : request.opType ≠ .sync) (initial : OperationStatus) :
    requestedStatus (db.without extra) request initial = requestedStatus db request initial := by
  unfold requestedStatus
  split
  · rename_i hsync
    exact absurd hsync other
  · rename_i hcleanup
    have same : hasInFlightCleanupScope (db.without extra) = hasInFlightCleanupScope db := by
      funext scope
      unfold hasInFlightCleanupScope Database.without
      rw [any_filter_of_imp]
      intro op hop hscope
      simp only [Bool.and_eq_true, beq_iff_eq] at hscope
      exact kept_other syncs other hop (hscope.1.1.trans hcleanup.symm)
    rw [same]
  · rfl

/-- Adding the new row meets the same constraints with the Syncs and without them. -/
theorem insertOperation_without (syncs : ExtraSyncs db worldId extra)
    (other : request.opType ≠ .sync) {opId : String} (fresh : db.hasOperation opId = false)
    (refs : ∀ op ∈ db.operations, extra op = true →
      request.compensatesOperationId ≠ some op.opId) (status : OperationStatus) (now : Int) :
    ((Stmt.insertOperation (newOperation request opId status now)).apply
        (db.without extra)).map (fun _ => ()) =
      ((Stmt.insertOperation (newOperation request opId status now)).apply db).map
        fun _ => () := by
  have fresh' : (db.without extra).hasOperation opId = false := by
    have hnone : ∀ op ∈ db.operations, ¬op.opId = opId := by
      simpa [Database.hasOperation] using fresh
    simp only [Database.hasOperation, Database.without, List.any_eq_false, beq_iff_eq]
    exact fun op hop => hnone op (List.mem_of_mem_filter hop)
  have key := keyTaken_without syncs other
  have compensated : references request.compensatesOperationId (db.without extra).hasOperation =
      references request.compensatesOperationId db.hasOperation := by
    cases hc : request.compensatesOperationId with
    | none => rfl
    | some id =>
      refine any_filter_of_imp ?_
      intro op hop hid
      rw [Bool.not_eq_true']
      by_contra h
      refine refs op hop (by simpa using h) ?_
      rw [hc, beq_iff_eq.mp hid]
  have world : (db.without extra).hasWorld = db.hasWorld := rfl
  have user : (db.without extra).hasUser = db.hasUser := rfl
  simp only [Stmt.apply, satisfying, newOperation, fresh, fresh', key, compensated, world, user]
  split <;> rfl

end Requests

section Policy

variable {db : Database} {request : OperationInput} {active : List Operation}

/-- The conflict a clashing request is refused with. -/
def refusal (request : OperationInput) (active : List Operation) : Exn :=
  if (active.any fun op => op.opType == request.opType) && !request.opType.singleFlight then
    .operationConflict (request.opType.value ++ " is already in flight for world " ++
      request.worldId.getD "None")
  else if request.opType = .restore ∧ active.filter queuedDelete ≠ [] then
    .operationConflict ("restore conflicts with an in-flight operation for world " ++
      request.worldId.getD "None")
  else conflictsInFlight request

theorem clashes_nil (request : OperationInput) : clashes request [] = false := by
  unfold clashes
  split <;> rfl

/-- A request of a type that shares its world with no other of its type clashes with one. -/
theorem clashes_of_same
    (same : (active.any fun op => op.opType == request.opType) && !request.opType.singleFlight) :
    clashes request active = true := by
  simp only [Bool.and_eq_true, List.any_eq_true, beq_iff_eq, Bool.not_eq_true'] at same
  obtain ⟨⟨op, hop, htype⟩, single⟩ := same
  have nonempty : active.isEmpty = false := by
    cases active with
    | nil => cases hop
    | cons => rfl
  unfold clashes
  cases hr : request.opType <;> simp only [hr, OperationType.singleFlight] at single htype ⊢ <;>
    simp only [nonempty, Bool.not_false, Bool.and_eq_true, List.any_eq_true, reduceCtorEq] at single ⊢
  · exact ⟨op, hop, by simp [htype]⟩
  · exact ⟨op, hop, by simp [htype]⟩
  · exact ⟨⟨op, hop, by simp [htype]⟩, op, hop, by simp [htype]⟩

/-- Beside operations a request may share the world with, the matrix decides. -/
theorem statusBeside_iff (status : OperationStatus) (nonempty : active ≠ [])
    (notKill : request.opType = .kill → ∃ op ∈ active, op.opType ≠ .stop)
    (notRestore : request.opType = .restore → active.filter queuedDelete = []) :
    (clashes request active = true ∧
        statusBeside request active status = .error (conflictsInFlight request)) ∨
      clashes request active = false ∧ ∃ s, statusBeside request active status = .ok s := by
  have inhabited : active.isEmpty = false := List.isEmpty_eq_false_iff.mpr nonempty
  unfold clashes statusBeside sharesScope
  cases hr : request.opType with
  | createWorld => exact .inl ⟨by simp [inhabited], rfl⟩
  | sync => exact .inl ⟨by simp [inhabited], rfl⟩
  | configEdit => exact .inl ⟨by simp [inhabited], rfl⟩
  | crashDetected => exact .inl ⟨by simp [inhabited], rfl⟩
  | deleteWorld => exact .inl ⟨by simp [inhabited], rfl⟩
  | backup =>
    simp only [List.any_map, Function.comp_def]
    split
    · rename_i h
      exact .inl ⟨h, rfl⟩
    · rename_i h
      refine .inr ⟨by simpa using h, ?_⟩
      split <;> exact ⟨_, rfl⟩
  | cleanup =>
    simp only [List.any_map, Function.comp_def]
    split
    · rename_i h
      exact .inr ⟨by rw [h]; rfl, _, rfl⟩
    · rename_i hscope
      rw [Bool.not_eq_true] at hscope
      rw [hscope]
      split
      · rename_i h
        exact .inl ⟨by simpa using h, rfl⟩
      · rename_i h
        exact .inr ⟨by simpa using h, _, rfl⟩
  | restore =>
    have deletes : ∀ op ∈ active, queuedDelete op = false := by
      simpa using List.filter_eq_nil_iff.mp (notRestore hr)
    have same : (active.any fun op => op.opType != .restore && !queuedDelete op) =
        !(active.map (·.opType)).all (· == .restore) := by
      rw [List.all_map, List.not_all_eq_any_not, Bool.eq_iff_iff, List.any_eq_true, List.any_eq_true]
      refine exists_congr fun op => and_congr_right fun hop => ?_
      simp [deletes op hop]
    dsimp only
    rw [same]
    split
    · rename_i h
      exact .inr ⟨by rw [h]; rfl, _, rfl⟩
    · rename_i h
      exact .inl ⟨by simpa using h, rfl⟩
  | stop =>
    simp only [List.any_map, List.all_map, Function.comp_def]
    split
    · split
      · rename_i h
        exact .inl ⟨h, rfl⟩
      · rename_i h
        exact .inr ⟨by simpa using h, _, rfl⟩
    · rename_i hbackup
      have none : ∀ op ∈ active, op.opType ≠ .backup := by
        intro op hop h
        exact hbackup (List.mem_map.mpr ⟨op, hop, h⟩)
      split
      · rename_i h
        refine .inr ⟨?_, _, rfl⟩
        simp only [List.all_eq_true, beq_iff_eq] at h
        simp only [List.any_eq_false, Bool.and_eq_true, bne_iff_ne, not_and, not_not]
        exact fun op hop _ => h op hop
      · rename_i h
        refine .inl ⟨?_, rfl⟩
        simp only [List.all_eq_true, beq_iff_eq, not_forall] at h
        obtain ⟨op, hop, hne⟩ := h
        simp only [List.any_eq_true, Bool.and_eq_true, bne_iff_ne]
        exact ⟨op, hop, none op hop, hne⟩
  | start =>
    simp only [List.all_map, Function.comp_def]
    split
    · rename_i h
      refine .inr ⟨?_, _, rfl⟩
      simpa [← not_or] using h
    · rename_i h
      refine .inl ⟨?_, rfl⟩
      simpa using h
  | kill =>
    obtain ⟨other, hother, hne⟩ := notKill hr
    have notStops : (active.any fun op => op.opType != .stop) = true :=
      List.any_eq_true.mpr ⟨other, hother, by simpa using hne⟩
    simp only [List.all_map, Function.comp_def, notStops, Bool.and_true]
    split
    · rename_i h
      refine .inr ⟨?_, _, rfl⟩
      simpa [← not_or] using h
    · rename_i h
      refine .inl ⟨?_, rfl⟩
      simpa using h

/-- The conflict policy refuses the requests that clash, and lets the others in. -/
theorem applyConflictPolicy_iff (unique : db.UniqueOperations)
    (nodup : (active.map (·.opId)).Nodup)
    (rows : ∀ row ∈ active, row ∈ db.operations ∧ row.inFlight = true)
    (status : OperationStatus) (now : Int) :
    (clashes request active = true ∧ (applyConflictPolicy request active status now).eval db =
        .error (refusal request active)) ∨
      clashes request active = false ∧
        ∃ r, (applyConflictPolicy request active status now).eval db = .ok r := by
  have hdeletes : (active.filter fun op => op.opType == .deleteWorld && op.status == .queued) =
      active.filter queuedDelete := rfl
  have hothers : (active.filter fun op => !(op.opType == .deleteWorld && op.status == .queued)) =
      active.filter fun op => !queuedDelete op := rfl
  unfold applyConflictPolicy
  simp only [hdeletes, hothers]
  split
  · rename_i hnil
    exact .inr ⟨by rw [hnil]; exact clashes_nil request, _, rfl⟩
  rename_i hnonempty
  split
  · rename_i hsame
    refine .inl ⟨clashes_of_same hsame, ?_⟩
    rw [refusal, if_pos hsame]
    rfl
  rename_i hsame
  split
  · rename_i hkill
    refine .inr ⟨?_, ?_⟩
    · have stops : (active.any fun op => op.opType != .stop) = false := by
        simpa using hkill.2
      simp only [clashes, hkill.1, stops, Bool.and_false]
    · rw [Body.bind_eq, Body.eval_bind, cancelRows_eval unique now _ active nodup rows]
      exact ⟨_, rfl⟩
  rename_i hkill
  split
  · rename_i hrestore
    have sub : (active.filter queuedDelete).Sublist active := List.filter_sublist
    have cancelled := cancelRows_eval unique now "superseded_by_restore" _ (nodup.sublist (sub.map _))
      fun row hr => rows row (sub.subset hr)
    have same : clashes request active = (active.filter fun op => !queuedDelete op).any
        fun op => op.opType != .restore := by
      simp only [clashes, hrestore.1, List.any_filter, Bool.and_comm]
    rw [Body.bind_eq, Body.eval_bind, cancelled, same]
    dsimp only
    split
    · rename_i hrest
      exact .inr ⟨by rw [hrest]; rfl, _, rfl⟩
    · split
      · rename_i hall
        have hall : ∀ op ∈ active, queuedDelete op = true ∨ op.opType = .restore := by
          simpa using hall
        refine .inr ⟨?_, _, rfl⟩
        simp only [List.any_filter, List.any_eq_false, Bool.and_eq_true, Bool.not_eq_true',
          bne_iff_ne, not_and, not_not]
        exact fun op hop hq => (hall op hop).resolve_left (by simp [hq])
      · rename_i hall
        refine .inl ⟨by simpa using hall, ?_⟩
        rw [refusal, if_neg hsame, if_pos hrestore]
        rfl
  rename_i hrestore
  have beside := @statusBeside_iff request active status hnonempty
    (fun h => by simpa [h] using hkill) (fun h => by simpa [h] using hrestore)
  rcases beside with ⟨hclash, hstatus⟩ | ⟨hcalm, s, hstatus⟩
  · refine .inl ⟨hclash, ?_⟩
    rw [hstatus, refusal, if_neg hsame, if_neg hrestore]
    rfl
  · exact .inr ⟨hcalm, _, by rw [hstatus]; rfl⟩

/-- Beside a Sync every checked request clashes but a Cleanup behind one of its scope. -/
theorem clashes_of_sync (other : request.opType ≠ .sync) {op : Operation} (hop : op ∈ active)
    (hsync : op.opType = .sync) :
    clashes request active =
      !(request.opType == .cleanup && sharesScope request active) := by
  have nonempty : active.isEmpty = false := by
    cases active with
    | nil => cases hop
    | cons => rfl
  have found : ∀ p : Operation → Bool, p op = true → active.any p = true :=
    fun p hp => List.any_eq_true.mpr ⟨op, hop, hp⟩
  unfold clashes
  cases hr : request.opType with
  | sync => exact absurd hr other
  | createWorld => simp [nonempty]
  | configEdit => simp [nonempty]
  | crashDetected => simp [nonempty]
  | deleteWorld => simp [nonempty]
  | backup => exact found _ (by simp [hsync, OperationType.runtime])
  | restore => exact found _ (by simp [hsync, queuedDelete])
  | cleanup =>
    dsimp only
    rw [found _ (by simp [hsync, OperationType.runtime]), Bool.and_true]
    simp
  | stop => exact found _ (by simp [hsync])
  | start => exact found _ (by simp [hsync])
  | kill =>
    dsimp only
    rw [found _ (by simp [hsync]), found (fun o => o.opType != .stop) (by simp [hsync])]
    rfl

theorem sharesScope_filter {extra : Operation → Bool}
    (syncs : ∀ op ∈ active, extra op = true → op.opType = .sync) :
    sharesScope request (active.filter fun op => !extra op) = sharesScope request active := by
  refine any_filter_of_imp ?_
  intro op hop hp
  simp only [Bool.and_eq_true, beq_iff_eq] at hp
  rw [Bool.not_eq_true']
  by_contra hextra
  have hsync := syncs op hop (by simpa using hextra)
  simp [hp.1.1] at hsync

/-- A Cleanup behind one of its scope waits, whatever else is in flight. -/
theorem applyConflictPolicy_sharing (hcleanup : request.opType = .cleanup)
    (shares : sharesScope request active = true) (status : OperationStatus) (now : Int) :
    (applyConflictPolicy request active status now).eval db = .ok (⟨active, .queued, []⟩, db) := by
  have nonempty : active ≠ [] := by
    rintro rfl
    cases shares
  unfold applyConflictPolicy statusBeside
  rw [if_neg nonempty, hcleanup]
  unfold sharesScope at shares
  simp [OperationType.singleFlight, shares]

theorem refusal_conflict (request : OperationInput) (active : List Operation) :
    ∃ message, refusal request active = .operationConflict message := by
  unfold refusal
  split
  · exact ⟨_, rfl⟩
  · split <;> exact ⟨_, rfl⟩

/-- A clash stays one, and is refused in the same words, when Syncs come or go. -/
theorem clashes_filter {extra : Operation → Bool}
    (h : clashes request (active.filter fun op => !extra op) = true)
    (syncs : ∀ op ∈ active, extra op = true → op.opType = .sync) (other : request.opType ≠ .sync) :
    clashes request active = true ∧
      refusal request (active.filter fun op => !extra op) = refusal request active := by
  have keep : ∀ op ∈ active, op.opType ≠ .sync → (!extra op) = true := by
    intro op hop hne
    rw [Bool.not_eq_true']
    by_contra hextra
    exact hne (syncs op hop (by simpa using hextra))
  have more : ∀ p : Operation → Bool, (active.filter fun op => !extra op).any p = true →
      active.any p = true := by
    intro p hp
    obtain ⟨op, hop, hp⟩ := List.any_eq_true.mp hp
    exact List.any_eq_true.mpr ⟨op, List.mem_of_mem_filter hop, hp⟩
  have scope := @sharesScope_filter request _ _ syncs
  refine ⟨?_, ?_⟩
  · unfold clashes at h ⊢
    cases hr : request.opType <;> simp only [hr, scope, Bool.and_eq_true] at h ⊢
    case sync => exact absurd hr other
    case backup => exact more _ h
    case restore => exact more _ h
    case stop => exact more _ h
    case start => exact more _ h
    case cleanup => exact ⟨h.1, more _ h.2⟩
    case kill => exact ⟨more _ h.1, more _ h.2⟩
    all_goals
      cases active with
      | nil => simp at h
      | cons => rfl
  · have same : ((active.filter fun op => !extra op).any fun op => op.opType == request.opType) =
        active.any fun op => op.opType == request.opType := by
      refine any_filter_of_imp ?_
      intro op hop hp
      exact keep op hop (by simpa [beq_iff_eq.mp hp] using other)
    have deletes : (active.filter fun op => !extra op).filter queuedDelete =
        active.filter queuedDelete := by
      rw [List.filter_filter]
      refine List.filter_congr ?_
      intro op hop
      cases hq : queuedDelete op with
      | false => rfl
      | true =>
        simp only [queuedDelete, Bool.and_eq_true, beq_iff_eq] at hq
        rw [keep op hop (by simp [hq.1])]
        rfl
    unfold refusal
    rw [same, deletes]

end Policy

section Runs

variable {db : Database} {worldId : String} {extra : Operation → Bool}
  {request : OperationInput} {initial : OperationStatus} {allow : Bool}

/-- What a run of `create_with_replay` comes to when nothing outside fails. -/
theorem run_createWithReplay (svc : OperationService) (request : OperationInput)
    (initial : OperationStatus) (allow : Bool) (answer : (q : Query) → Answer q) (db : Database)
    (log : Log) :
    Outcome.of db (run (Env.steady answer) (createWithReplay svc request initial allow)
        ⟨.closed db, log⟩) =
      Outcome.ofBlock db ((createBlock request initial allow (answer (.uuid "op"))
        (answer (.uuids "au")) (answer .now)).eval db) := by
  rw [run_create_steady]
  cases (createBlock request initial allow (answer (.uuid "op")) (answer (.uuids "au"))
    (answer .now)).eval db with
  | error e => rfl
  | ok r =>
    obtain ⟨⟨op, cancelled, replayed⟩, db'⟩ := r
    cases replayed <;> rfl

private theorem writeTerminalAudits_error {auditIds : Nat → String} {rows : List (Operation × Nat)}
    {db : Database} {e : Exn}
    (h : (Body.each (fun row : Operation × Nat => writeTerminalAudit (auditIds row.2) row.1)
      rows).eval db = .error e) : ∃ text, e = .integrity text := by
  induction rows generalizing db with
  | nil => cases h
  | cons row rows ih =>
    rcases Body.eval_bind_error h with h | ⟨u, db', -, h⟩
    · rw [writeTerminalAudit_eval, Body.eval_write] at h
      split at h
      · cases h
      · rename_i e' hs
        cases h
        exact satisfying_error hs
    · rcases Body.eval_bind_error h with h | ⟨us, db', -, h⟩
      · exact ih h
      · cases h

/-- Storing an admitted request fails only on a constraint of the database. -/
theorem insertAdmitted_error {a : Admission} {opId : String} {auditIds : Nat → String} {now : Int}
    {e : Exn} (h : (insertAdmitted request a opId auditIds now).eval db = .error e) :
    ∃ text, e = .integrity text := by
  rcases Body.eval_bind_error h with h | ⟨u, db', -, h⟩
  · rw [Body.eval_write] at h
    split at h
    · cases h
    · rename_i e' hs
      cases h
      exact satisfying_error hs
  · rcases Body.eval_bind_error h with h | ⟨us, db', -, h⟩
    · exact writeTerminalAudits_error h
    · cases h

/-- A request that cancels nothing is stored, or meets a constraint. -/
theorem insertAdmitted_outcome (active : List Operation) (status : OperationStatus)
    (opId : String) (auditIds : Nat → String) (now : Int) :
    Outcome.ofBlock db ((insertAdmitted request ⟨active, status, []⟩ opId auditIds now).eval db) =
      match ((Stmt.insertOperation (newOperation request opId status now)).apply db).map
        fun _ => () with
      | .ok _ => .admitted status []
      | .error e => .raised e := by
  have same : insertAdmitted request ⟨active, status, []⟩ opId auditIds now =
      (Body.write (.insertOperation (newOperation request opId status now))).bind fun _ =>
        .ret (newOperation request opId status now, [], false) := rfl
  rw [same, Body.eval_write_bind, store_apply]
  cases h : (Stmt.insertOperation (newOperation request opId status now)).apply db with
  | error e => rfl
  | ok r =>
    have hdb := (satisfying_ok.mp h).2.1
    have none : ended db r.1 = [] := by
      rw [ended, hdb, List.map_eq_nil_iff, List.filter_eq_nil_iff]
      intro op hop
      simp only [Bool.and_eq_true, Bool.not_eq_true', List.any_eq_false, not_and, not_forall]
      intro hflight
      exact ⟨op, List.mem_append_left _ hop, by simp [hflight]⟩
    change Outcome.admitted status (ended db r.1) = _
    rw [none]
    rfl

/-- The conflict policy treats a request alike with the Syncs and without them exactly when
there are none, or the request waits behind a Cleanup of its scope, or it clashes anyway. -/
private theorem policy_outcome_iff (unique : db.UniqueOperations)
    (syncs : ExtraSyncs db worldId extra) (other : request.opType ≠ .sync) {opId : String}
    {auditIds : Nat → String} {now : Int} (status : OperationStatus)
    (inserted : ∀ active active' status,
      Outcome.ofBlock db ((insertAdmitted request ⟨active, status, []⟩ opId auditIds now).eval db) =
        Outcome.ofBlock (db.without extra) ((insertAdmitted request ⟨active', status, []⟩ opId
          auditIds now).eval (db.without extra))) :
    Outcome.ofBlock db (((applyConflictPolicy request (inFlightOf db worldId) status now).bind
        fun a => insertAdmitted request a opId auditIds now).eval db) =
      Outcome.ofBlock (db.without extra) (((applyConflictPolicy request
        (inFlightOf (db.without extra) worldId) status now).bind fun a =>
          insertAdmitted request a opId auditIds now).eval (db.without extra)) ↔
    (∀ op ∈ db.operations, extra op = false) ∨
      (request.opType == .cleanup && sharesScope request (inFlightOf (db.without extra) worldId) ||
        clashes request (inFlightOf (db.without extra) worldId)) = true := by
  have unique' : (db.without extra).UniqueOperations := unique.sublist (List.filter_sublist.map _)
  have hsyncs : ∀ op ∈ inFlightOf db worldId, extra op = true → op.opType = .sync :=
    fun op hop => syncs.sync op (mem_inFlightOf.mp hop).1
  have policy := @applyConflictPolicy_iff _ request _ unique
    (inFlightOf_nodup unique worldId)
    (fun row hr => ⟨(mem_inFlightOf.mp hr).1, (mem_inFlightOf.mp hr).2.2⟩) status now
  have policy' := @applyConflictPolicy_iff _ request _ unique'
    (inFlightOf_nodup unique' worldId)
    (fun row hr => ⟨(mem_inFlightOf.mp hr).1, (mem_inFlightOf.mp hr).2.2⟩) status now
  have scope := @sharesScope_filter request _ _ hsyncs
  have weaker := fun h => @clashes_filter request _ _ h hsyncs other
  rw [← inFlightOf_without] at scope weaker
  by_cases hnone : ∀ op ∈ db.operations, extra op = false
  · have same : db.without extra = db := by
      have keeps : db.operations.filter (fun op => !extra op) = db.operations :=
        List.filter_eq_self.mpr fun op hop => by simp [hnone op hop]
      rw [Database.without, keeps]
    rw [same]
    exact iff_of_true rfl (.inl hnone)
  · push Not at hnone
    obtain ⟨op, hop, hextra⟩ := hnone
    have hextra : extra op = true := by simpa using hextra
    have hactive : op ∈ inFlightOf db worldId :=
      mem_inFlightOf.mpr ⟨hop, syncs.world op hop hextra, syncs.inFlight op hop hextra⟩
    have matrix := clashes_of_sync other hactive (syncs.sync op hop hextra)
    have some : ¬∀ op ∈ db.operations, extra op = false := by
      intro h
      simp [h op hop] at hextra
    rw [or_iff_right some]
    by_cases hshares : (request.opType == .cleanup &&
        sharesScope request (inFlightOf db worldId)) = true
    · obtain ⟨hcleanup, hscope⟩ := Bool.and_eq_true_iff.mp hshares
      have hcleanup := beq_iff_eq.mp hcleanup
      rw [Body.eval_bind, Body.eval_bind, applyConflictPolicy_sharing hcleanup hscope,
        applyConflictPolicy_sharing hcleanup (scope.trans hscope)]
      exact iff_of_true (inserted _ _ _) (by simp [hcleanup, scope.trans hscope])
    · have clash : clashes request (inFlightOf db worldId) = true := by
        rw [matrix, Bool.not_eq_true']
        simpa using hshares
      have refused := (policy.resolve_right fun h => by simp [h.1] at clash).2
      rw [Body.eval_bind, refused, scope]
      rcases policy' with ⟨clash', refused'⟩ | ⟨calm', r, passed⟩
      · rw [Body.eval_bind, refused', (weaker clash').2, clash']
        exact iff_of_true rfl (by simp)
      · refine iff_of_false ?_ ?_
        · rw [Body.eval_bind, passed]
          obtain ⟨message, hmessage⟩ := refusal_conflict request (inFlightOf db worldId)
          dsimp only
          cases hins : (insertAdmitted request r.1 opId auditIds now).eval r.2 with
          | error e =>
            obtain ⟨text, rfl⟩ := insertAdmitted_error hins
            simp [Outcome.ofBlock, hmessage]
          | ok a =>
            obtain ⟨⟨o, c, replayed⟩, after⟩ := a
            cases replayed <;> simp [Outcome.ofBlock]
        · rw [calm', Bool.or_false]
          exact hshares

/-- The outcome of the transaction is the same without the Syncs exactly for the requests that
do not depend on them. -/
theorem createBlock_outcome_iff (unique : db.UniqueOperations)
    (syncs : ExtraSyncs db worldId extra) (hworld : request.worldId = some worldId)
    (other : request.opType ≠ .sync) {opId : String} (fresh : db.hasOperation opId = false)
    (refs : ∀ op ∈ db.operations, extra op = true →
      request.compensatesOperationId ≠ some op.opId) (auditIds : Nat → String) (now : Int) :
    Outcome.ofBlock db ((createBlock request initial allow opId auditIds now).eval db) =
        Outcome.ofBlock (db.without extra)
          ((createBlock request initial allow opId auditIds now).eval (db.without extra)) ↔
      SyncBlind db extra request allow := by
  have unique' : (db.without extra).UniqueOperations :=
    unique.sublist (List.filter_sublist.map _)
  have inserted : ∀ active active' status,
      Outcome.ofBlock db ((insertAdmitted request ⟨active, status, []⟩ opId auditIds now).eval db) =
        Outcome.ofBlock (db.without extra) ((insertAdmitted request ⟨active', status, []⟩ opId
          auditIds now).eval (db.without extra)) := by
    intro active active' status
    rw [insertAdmitted_outcome, insertAdmitted_outcome,
      insertOperation_without syncs other fresh refs]
  rw [createBlock_eval hworld other, createBlock_eval hworld other,
    existing_without syncs other, repeatOf_without syncs other,
    requestedStatus_without syncs other, SyncBlind, keyTaken_without syncs other,
    repeatOf_without syncs other]
  have keyed := existing_none_iff db request
  cases hkey : (if request.idempotencyKey.isSome then db.operations.find? fun op =>
      op.opType == request.opType && op.idempotencyKey == request.idempotencyKey else none) with
  | some op =>
    have taken : db.keyTaken request.opType request.idempotencyKey = true := by
      rw [hkey] at keyed
      simpa using keyed
    exact iff_of_true rfl (.inr (.inl taken))
  | none =>
    have free := keyed.mp hkey
    cases allow with
    | true => exact iff_of_true (inserted _ _ _) (.inr (.inr (.inl rfl)))
    | false =>
      cases hrepeat : repeatOf db request false with
      | some op => exact iff_of_true rfl (.inr (.inr (.inr (.inl (by simp)))))
      | none =>
        rw [policy_outcome_iff unique syncs other _ inserted, free, hworld]
        simp

/-- A queued operation is claimed unless another operation of its world is active. -/
theorem run_claimQueued (unique : db.UniqueOperations) {op : Operation} (hop : op ∈ db.operations)
    (hworld : op.worldId = some worldId) (queued : op.status = .queued)
    (answer : (q : Query) → Answer q) (log : Log) :
    claims (run (Env.steady answer) (claimQueued op.opId) ⟨.closed db, log⟩) =
      !db.operations.any fun o =>
        o.worldId == some worldId && o.opId != op.opId && o.status.active := by
  suffices h : wp (Scope.steady answer) (fun r y => claims (r, y) =
      !db.operations.any fun o =>
        o.worldId == some worldId && o.opId != op.opId && o.status.active)
      (claimQueued op.opId) ⟨.closed db, log⟩ from run_of_wp (Env.steady_allowed answer) h
  refine wp_claimQueued ?_ ?_ (fun φ h => h.elim)
  · intro now r db' h
    rw [claimBlock_eval unique hop queued now, hworld] at h
    simp only [Option.isSome_some, Bool.true_and] at h
    split at h
    · rename_i hactive
      cases h
      rw [hactive]
      rfl
    · rename_i hidle
      cases h
      rw [Bool.not_eq_true] at hidle
      rw [hidle]
      rfl
  · intro now e h
    rw [claimBlock_eval unique hop queued now] at h
    cases h

/-- The Syncs keep no queued operation from being claimed exactly when none of them is active,
or another operation of the world is. -/
theorem claims_iff (unique : db.UniqueOperations) (syncs : ExtraSyncs db worldId extra)
    {op : Operation} (hop : op ∈ db.operations) (kept : extra op = false)
    (hworld : op.worldId = some worldId) (queued : op.status = .queued)
    (answer : (q : Query) → Answer q) (log : Log) :
    claims (run (Env.steady answer) (claimQueued op.opId) ⟨.closed db, log⟩) =
        claims (run (Env.steady answer) (claimQueued op.opId) ⟨.closed (db.without extra), log⟩) ↔
      (∀ o ∈ db.operations, extra o = true → o.status.active = false) ∨
        ∃ o ∈ db.operations, extra o = false ∧ o.worldId = some worldId ∧ o.opId ≠ op.opId ∧
          o.status.active = true := by
  have unique' : (db.without extra).UniqueOperations := unique.sublist (List.filter_sublist.map _)
  have hop' : op ∈ (db.without extra).operations := List.mem_filter.mpr ⟨hop, by simp [kept]⟩
  rw [run_claimQueued unique hop hworld queued, run_claimQueued unique' hop' hworld queued,
    Bool.not_inj_iff]
  have rest : ((db.without extra).operations.any fun o =>
      o.worldId == some worldId && o.opId != op.opId && o.status.active) = true ↔
      ∃ o ∈ db.operations, extra o = false ∧ o.worldId = some worldId ∧ o.opId ≠ op.opId ∧
        o.status.active = true := by
    simp only [Database.without, List.any_filter, List.any_eq_true, Bool.and_eq_true,
      Bool.not_eq_true', beq_iff_eq, bne_iff_ne, and_assoc]
  by_cases others : ∃ o ∈ db.operations, extra o = false ∧ o.worldId = some worldId ∧
      o.opId ≠ op.opId ∧ o.status.active = true
  · have held := others
    obtain ⟨o, ho, -, hw, hne, hact⟩ := held
    have busy : (db.operations.any fun o =>
        o.worldId == some worldId && o.opId != op.opId && o.status.active) = true :=
      List.any_eq_true.mpr ⟨o, ho, by simp [hw, hne, hact]⟩
    rw [busy, eq_comm, rest]
    simp only [others, or_true]
  · have idle : ((db.without extra).operations.any fun o =>
        o.worldId == some worldId && o.opId != op.opId && o.status.active) = false := by
      rw [← Bool.not_eq_true, rest]
      exact others
    rw [idle, or_iff_left others, List.any_eq_false]
    constructor
    · intro h o ho hextra
      have hne : o.opId ≠ op.opId := by
        intro hid
        obtain rfl := nodup_key_inj unique ho hop hid
        simp [kept] at hextra
      simpa [syncs.world o ho hextra, hne] using h o ho
    · intro h o ho
      simp only [Bool.and_eq_true, beq_iff_eq, bne_iff_ne, not_and, Bool.not_eq_true]
      rintro ⟨hw, hne⟩
      by_cases hextra : extra o = true
      · exact h o ho hextra
      · by_contra hact
        exact others ⟨o, ho, by simpa using hextra, hw, hne, by simpa using hact⟩

end Runs

/-- Syncs of a world leave the outcome of a request as it is exactly for the requests that are
blind to them, and keep a queued operation from its claim exactly when one of them is active and
no other operation of the world is. -/
theorem sync_blocks_nothing_iff (svc : OperationService) (db : Database) (worldId : String)
    (extra : Operation → Bool) (answer : (q : Query) → Answer q) (log : Log)
    (unique : db.UniqueOperations) (syncs : ExtraSyncs db worldId extra)
    (fresh : db.hasOperation (answer (.uuid "op")) = false) :
    (∀ request initial allow, request.opType ≠ .sync → request.worldId = some worldId →
      (∀ op ∈ db.operations, extra op = true → request.compensatesOperationId ≠ some op.opId) →
      (Outcome.of db (run (Env.steady answer) (createWithReplay svc request initial allow)
          ⟨.closed db, log⟩) =
        Outcome.of (db.without extra) (run (Env.steady answer)
          (createWithReplay svc request initial allow) ⟨.closed (db.without extra), log⟩) ↔
        SyncBlind db extra request allow)) ∧
    ∀ op ∈ db.operations, extra op = false → op.worldId = some worldId → op.status = .queued →
      (claims (run (Env.steady answer) (claimQueued op.opId) ⟨.closed db, log⟩) =
        claims (run (Env.steady answer) (claimQueued op.opId)
          ⟨.closed (db.without extra), log⟩) ↔
        (∀ o ∈ db.operations, extra o = true → o.status.active = false) ∨
          ∃ o ∈ db.operations, extra o = false ∧ o.worldId = some worldId ∧ o.opId ≠ op.opId ∧
            o.status.active = true) := by
  refine ⟨?_, ?_⟩
  · intro request initial allow other hworld refs
    rw [run_createWithReplay, run_createWithReplay]
    exact createBlock_outcome_iff unique syncs hworld other fresh refs _ _
  · intro op hop kept hworld queued
    exact claims_iff unique syncs hop kept hworld queued answer log

/-- An upload of the running world `w`, and a Backup that waits in the queue. -/
def uploading : Database :=
  { Database.single .running with
    operations :=
      [newOperation { opType := .sync, actorType := .system, worldId := some "w" } "sync" .running 0,
        newOperation { opType := .backup, actorType := .system, worldId := some "w" } "backup"
          .queued 0] }

theorem uploading_syncs : ExtraSyncs uploading "w" fun op => op.opId == "sync" :=
  ⟨by decide, by decide, by decide⟩

theorem uploading_unique : uploading.UniqueOperations := by
  unfold Database.UniqueOperations
  decide

theorem sync_blocks_nothing_uploading :
    Outcome.of uploading (run (Env.steady (Query.smooth "op"))
        (createWithReplay ⟨false, false⟩
          { opType := .backup, actorType := .system, worldId := some "w" } .running true)
        ⟨.closed uploading, []⟩) =
      Outcome.of (uploading.without fun op => op.opId == "sync")
        (run (Env.steady (Query.smooth "op")) (createWithReplay ⟨false, false⟩
          { opType := .backup, actorType := .system, worldId := some "w" } .running true)
        ⟨.closed (uploading.without fun op => op.opId == "sync"), []⟩) :=
  ((sync_blocks_nothing_iff ⟨false, false⟩ uploading "w" (fun op => op.opId == "sync")
    (Query.smooth "op") [] uploading_unique uploading_syncs (by decide)).1
    { opType := .backup, actorType := .system, worldId := some "w" } .running true (by decide) rfl
    (by decide)).mpr (.inr (.inr (.inl rfl)))

/-- A Kill of the world, which may go ahead beside the Backup, is refused because of the upload. -/
theorem sync_blocks_kill : ¬∀ (svc : OperationService) (db : Database) (worldId : String)
    (extra : Operation → Bool) (answer : (q : Query) → Answer q) (log : Log),
    db.UniqueOperations → ExtraSyncs db worldId extra →
    db.hasOperation (answer (.uuid "op")) = false →
    (∀ request initial allow, request.opType ≠ .sync → request.worldId = some worldId →
      (∀ op ∈ db.operations, extra op = true → request.compensatesOperationId ≠ some op.opId) →
      Outcome.of db (run (Env.steady answer) (createWithReplay svc request initial allow)
          ⟨.closed db, log⟩) =
        Outcome.of (db.without extra) (run (Env.steady answer)
          (createWithReplay svc request initial allow) ⟨.closed (db.without extra), log⟩)) ∧
    ∀ op ∈ db.operations, extra op = false → op.worldId = some worldId → op.status = .queued →
      claims (run (Env.steady answer) (claimQueued op.opId) ⟨.closed db, log⟩) =
        claims (run (Env.steady answer) (claimQueued op.opId)
          ⟨.closed (db.without extra), log⟩) := by
  intro h
  have h := (h ⟨false, false⟩ uploading "w" (fun op => op.opId == "sync") (Query.smooth "op") []
    uploading_unique uploading_syncs (by decide)).1
    { opType := .kill, actorType := .system, worldId := some "w" } .running false (by decide) rfl
    (by decide)
  exact absurd h (by decide)

end Operations

end McManager
