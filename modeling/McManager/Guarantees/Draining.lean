import McManager.Services.DispatchRuns
import McManager.Guarantees.Accounting

namespace McManager.Worlds

open Framework Operations

/-- Run the rounds of a pass and collect what they report. -/
def rounds (round : Operation → Prog (List String)) : List Operation → Prog (List String)
  | [] => pure []
  | op :: rest => do
    let here ← round op
    let there ← rounds round rest
    pure (here ++ there)

/-- The operations the lifecycle pass tries: the first of each world. -/
def firsts : List String → List Operation → List Operation
  | _, [] => []
  | seen, op :: rest =>
    if op.worldId.any seen.contains then firsts seen rest
    else op :: firsts (op.worldId.toList ++ seen) rest

theorem dispatchLifecycle_eq (svc : WorldsService) (seen : List String) (ops : List Operation) :
    dispatchLifecycle svc seen ops = rounds (dispatchQueued svc) (firsts seen ops) := by
  induction ops generalizing seen with
  | nil => rfl
  | cons op rest ih =>
    unfold dispatchLifecycle firsts
    split
    · exact ih seen
    · rw [rounds, ih]

theorem dispatchMutationRounds_eq (svc : WorldsService) (ops : List Operation) :
    dispatchMutationRounds svc ops = rounds (dispatchMutation svc) ops := by
  induction ops with
  | nil => rfl
  | cons op rest ih => rw [dispatchMutationRounds, rounds, ih]

theorem firsts_sublist (seen : List String) (ops : List Operation) :
    (firsts seen ops).Sublist ops := by
  induction ops generalizing seen with
  | nil => exact .slnil
  | cons op rest ih =>
    unfold firsts
    split
    · exact (ih seen).cons op
    · exact (ih _).cons_cons op

/-- A world that has not been seen gets its turn. -/
theorem firsts_world {seen : List String} {ops : List Operation} {w : String} (fresh : w ∉ seen)
    (h : ∃ op ∈ ops, op.worldId = some w) : ∃ op ∈ firsts seen ops, op.worldId = some w := by
  induction ops generalizing seen with
  | nil =>
    obtain ⟨op, hop, -⟩ := h
    cases hop
  | cons op rest ih =>
    obtain ⟨o, ho, hw⟩ := h
    unfold firsts
    by_cases hop : op.worldId = some w
    · have unseen : op.worldId.any seen.contains = false := by simpa [hop] using fresh
      rw [if_neg (by simp [unseen])]
      exact ⟨op, List.mem_cons_self .., hop⟩
    · have hrest : o ∈ rest := by
        refine (List.mem_cons.mp ho).resolve_left ?_
        rintro rfl
        exact hop hw
      split
      · exact ih fresh ⟨o, hrest, hw⟩
      · have fresh' : w ∉ op.worldId.toList ++ seen := by
          rw [List.mem_append, Option.mem_toList]
          rintro (h | h)
          · exact hop h
          · exact fresh h
        obtain ⟨first, hfirst, hworld⟩ := ih fresh' ⟨o, hrest, hw⟩
        exact ⟨first, List.mem_cons_of_mem op hfirst, hworld⟩

/-- What the rounds of a pass leave behind. -/
structure Rounds (can : Operation → Prop) (ops : List Operation) (before db : Database) : Prop where
  keyed : db.Keyed
  ids_eq : db.operations.map (·.opId) = before.operations.map (·.opId)
  others : ∀ op, (∀ o ∈ ops, o.opId = op.opId → ¬can o) →
    (op ∈ db.operations ↔ op ∈ before.operations)
  queue : ∀ row ∈ db.operations, row.status = .queued → row ∈ before.operations
  claimed : ∀ w, Unoccupied w before →
    (∃ op ∈ ops, op.worldId = some w ∧ op.status = .queued ∧ can op) →
    ∃ op ∈ ops, op.worldId = some w ∧ op.status = .queued ∧ Dequeued op.opId db
  idle : ∀ w, Unoccupied w before → (∀ op ∈ ops, op.worldId ≠ some w) → Unoccupied w db

/-- What has left the queue does not come back to it. -/
theorem Rounds.dequeued {can : Operation → Prop} {ops : List Operation} {before db : Database}
    (h : Rounds can ops before db) (keyed : before.Keyed) {opId : String}
    (left : Dequeued opId before) : Dequeued opId db := by
  obtain ⟨row, hrow, rfl, hstatus⟩ := left
  have hmem : row.opId ∈ db.operations.map (·.opId) := by
    rw [h.ids_eq]
    exact List.mem_map.mpr ⟨row, hrow, rfl⟩
  obtain ⟨row', hrow', hid⟩ := List.mem_map.mp hmem
  refine ⟨row', hrow', hid, fun hqueued => hstatus ?_⟩
  obtain rfl := nodup_key_inj keyed.unique (h.queue row' hrow' hqueued) hrow hid
  exact hqueued

/-- The rounds of a pass, one after the other. -/
theorem Rounds.cons {can : Operation → Prop} {op : Operation} {rest : List Operation}
    {before mid db : Database} (hop : op ∈ before.operations)
    (pending : op.status = .queued ∨ op.status.active = true)
    (here : Round (can op) op before mid) (there : Rounds can rest mid db) :
    Rounds can (op :: rest) before db where
  keyed := there.keyed
  ids_eq := there.ids_eq.trans here.aside.ids_eq
  others := by
    intro x hx
    have first : x ∈ mid.operations ↔ x ∈ before.operations := by
      by_cases hid : x.opId = op.opId
      · rw [here.unable (hx op (List.mem_cons_self ..) hid.symm)]
      · exact here.aside.others x hid
    exact (there.others x fun o ho => hx o (List.mem_cons_of_mem op ho)).trans first
  queue := by
    intro row hrow hqueued
    exact here.queue row (there.queue row hrow hqueued) hqueued
  claimed := by
    rintro w idle ⟨o, ho, hw, hqueued, hcan⟩
    have later : Unoccupied w mid → (op.worldId = some w → ¬can op) →
        ∃ o ∈ op :: rest, o.worldId = some w ∧ o.status = .queued ∧ Dequeued o.opId db := by
      intro idle' hne
      have hrest : o ∈ rest := by
        refine (List.mem_cons.mp ho).resolve_left ?_
        rintro rfl
        exact hne hw hcan
      obtain ⟨o, ho, hleft⟩ := there.claimed w idle' ⟨o, hrest, hw, hqueued, hcan⟩
      exact ⟨o, List.mem_cons_of_mem op ho, hleft⟩
    by_cases hown : op.worldId = some w
    · by_cases hop' : can op
      · have queued : op.status = .queued := by
          refine pending.resolve_right fun hactive => ?_
          rw [idle op hop hown] at hactive
          cases hactive
        have alone : ∀ w', op.worldId = some w' → Unoccupied w' before := by
          intro w' hw'
          obtain rfl := Option.some.inj (hw'.symm.trans hown)
          exact idle
        have left := here.claimed hop' queued alone
        exact ⟨op, List.mem_cons_self .., hown, queued, there.dequeued here.aside.keyed left⟩
      · exact later (by rwa [here.unable hop']) fun _ => hop'
    · exact later (round_idle here idle hown) fun h => absurd h hown
  idle := by
    intro w idle other
    have next := round_idle here idle (other op (List.mem_cons_self ..))
    exact there.idle w next fun o ho => other o (List.mem_cons_of_mem op ho)

/-- A pass made of rounds that do not end by an exception does not end by one. -/
theorem wp_rounds {round : Operation → Prog (List String)} {can : Operation → Prop}
    (pending : Operation → Prop)
    (waits : ∀ op, pending op → op.status = .queued ∨ op.status.active = true)
    (step : ∀ {db : Database} {log : Log} {op : Operation}, db.Keyed → op ∈ db.operations →
      pending op → wp Scope.dispatching (RoundEnds (can op) op db) (round op) ⟨.closed db, log⟩)
    {ops : List Operation} (nodup : (ops.map (·.opId)).Nodup) {db : Database} (keyed : db.Keyed)
    (listed : ∀ op ∈ ops, op ∈ db.operations ∧ pending op) (log : Log) :
    wp Scope.dispatching (fun r y => (∃ ids, r = .ok ids) ∧ Closed (Rounds can ops db) y)
      (rounds round ops) ⟨.closed db, log⟩ := by
  induction ops generalizing db log with
  | nil =>
    refine ⟨⟨[], rfl⟩, db, rfl, keyed, rfl, fun _ _ => Iff.rfl, fun _ h _ => h, ?_,
      fun _ idle _ => idle⟩
    rintro w - ⟨op, hop, -⟩
    cases hop
  | cons op rest ih =>
    obtain ⟨hnot, hrest⟩ := List.nodup_cons.mp nodup
    obtain ⟨hop, hpending⟩ := listed op (List.mem_cons_self ..)
    unfold rounds
    simp only [Program.bind_eq, Program.pure_eq]
    rw [wp_bind]
    refine wp_mono (step keyed hop hpending) ?_
    rintro r ⟨c, k⟩ ⟨⟨ids, rfl⟩, mid, rfl, here⟩
    have still : ∀ o ∈ rest, o ∈ mid.operations ∧ pending o := by
      intro o ho
      have hne : o.opId ≠ op.opId := fun h => hnot (List.mem_map.mpr ⟨o, ho, h⟩)
      obtain ⟨hmem, hpend⟩ := listed o (List.mem_cons_of_mem op ho)
      exact ⟨(here.aside.others o hne).mpr hmem, hpend⟩
    dsimp only
    rw [wp_bind]
    refine wp_mono (ih hrest here.aside.keyed still k) ?_
    rintro r ⟨c, k'⟩ ⟨⟨ids', rfl⟩, db', rfl, there⟩
    exact ⟨⟨ids ++ ids', rfl⟩, db', rfl,
      Rounds.cons hop (waits op hpending) here there⟩

/-- The operations a pass can dispatch. -/
def Dispatchable (op : Operation) : Bool :=
  [OperationType.start, .stop, .kill].contains op.opType ||
    (op.opType == .createWorld || op.opType == .deleteWorld || op.opType == .configEdit) &&
      (mutationAction op).isSome

/-- Some operation of the world has left the queue. -/
def Claims (w : String) (before after : Database) : Prop :=
  ∃ op ∈ before.operations, op.worldId = some w ∧ op.status = .queued ∧ Dequeued op.opId after

/-- Every pass over the queue claims some operation of the world. -/
def Drains (svc : WorldsService) (db : Database) (w : String) : Prop :=
  ∀ env : Env, (∀ n x m, Scope.dispatching.allowed x m (env n x m)) →
    Claims w db (run env (dispatchQueuedOperations svc) ⟨.closed db, []⟩).2.conn.committed

theorem mem_queue {db : Database} {types : List OperationType} {op : Operation} :
    op ∈ (db.operations.filter fun op => op.status == .queued && types.contains op.opType).insertionSort
      (fun a b => a.createdAt < b.createdAt ∨ a.createdAt = b.createdAt ∧ a.opId ≤ b.opId) ↔
      op ∈ db.operations ∧ op.status = .queued ∧ op.opType ∈ types := by
  simp [List.mem_filter]

theorem mem_pendingMutations {db : Database} {op : Operation} :
    op ∈ pendingMutations db ↔ op ∈ db.operations ∧
      (op.opType = .createWorld ∨ op.opType = .deleteWorld ∨ op.opType = .configEdit) ∧
      (op.status = .queued ∨ op.status = .running) := by
  simp [pendingMutations, List.mem_filter, or_assoc]

theorem sorted_nodup {db : Database} (unique : db.UniqueOperations) {p : Operation → Bool}
    {r : Operation → Operation → Prop} [DecidableRel r] :
    (((db.operations.filter p).insertionSort r).map (·.opId)).Nodup := by
  have perm := (List.perm_insertionSort r (db.operations.filter p)).map (·.opId)
  rw [perm.nodup_iff]
  exact List.Nodup.sublist (List.filter_sublist.map _) unique

/-- The two parts of a pass together: it claims an operation of an idle world exactly when one of
them can be dispatched. -/
theorem claims_iff {queue : List Operation} {db mid after : Database} {w : String}
    (keyed : db.Keyed) (idle : Unoccupied w db)
    (hqueue : ∀ op, op ∈ queue ↔ op ∈ db.operations ∧ op.status = .queued ∧
      op.opType ∈ [OperationType.start, .stop, .kill])
    (first : Rounds (fun _ => True) (firsts [] queue) db mid)
    (second : Rounds (fun op => (mutationAction op).isSome = true) (pendingMutations mid) mid after) :
    Claims w db after ↔ ∃ op ∈ db.operations, op.worldId = some w ∧ op.status = .queued ∧
      Dispatchable op = true := by
  have kept : ∀ op ∈ db.operations, op ∉ queue → op ∈ mid.operations := by
    intro op hop hnot
    refine (first.others op fun o ho hid _ => hnot ?_).mpr hop
    have hqueued := (firsts_sublist [] queue).subset ho
    obtain rfl := nodup_key_inj keyed.unique ((hqueue o).mp hqueued).1 hop hid
    exact hqueued
  constructor
  · rintro ⟨op, hop, hw, hqueued, row, hrow, hid, hstatus⟩
    refine ⟨op, hop, hw, hqueued, ?_⟩
    by_contra hnone
    have hmid : op ∈ mid.operations := by
      refine kept op hop fun h => hnone ?_
      have htype := ((hqueue op).mp h).2.2
      simp only [Dispatchable, Bool.or_eq_true]
      exact .inl (by simpa using htype)
    have hafter : op ∈ after.operations := by
      refine (second.others op fun o ho hoid hcan => hnone ?_).mpr hmid
      obtain ⟨homid, htype, -⟩ := mem_pendingMutations.mp ho
      obtain rfl := nodup_key_inj first.keyed.unique homid hmid hoid
      rcases htype with h | h | h <;> simp [Dispatchable, h, hcan]
    obtain rfl := nodup_key_inj second.keyed.unique hrow hafter hid
    exact hstatus hqueued
  · rintro ⟨op, hop, hw, hqueued, hdispatch⟩
    by_cases turn : ∃ o ∈ queue, o.worldId = some w
    · -- The lifecycle part serves the world.
      obtain ⟨o, ho, how⟩ := firsts_world List.not_mem_nil turn
      have hoq := (hqueue o).mp ((firsts_sublist [] queue).subset ho)
      obtain ⟨o', ho', hw', hq', left⟩ := first.claimed w idle ⟨o, ho, how, hoq.2.1, trivial⟩
      have hoq' := (hqueue o').mp ((firsts_sublist [] queue).subset ho')
      exact ⟨o', hoq'.1, hw', hq', second.dequeued first.keyed left⟩
    · have hnot : op ∉ queue := fun h => turn ⟨op, h, hw⟩
      have hmid := kept op hop hnot
      have idle' : Unoccupied w mid := by
        refine first.idle w idle fun o ho how => turn ⟨o, ?_, how⟩
        exact (firsts_sublist [] queue).subset ho
      have hmutation : op ∈ pendingMutations mid ∧ (mutationAction op).isSome = true := by
        simp only [Dispatchable, Bool.or_eq_true, Bool.and_eq_true, beq_iff_eq] at hdispatch
        rcases hdispatch with h | ⟨htype, haction⟩
        · exact absurd ((hqueue op).mpr ⟨hop, hqueued, by simpa using h⟩) hnot
        · refine ⟨mem_pendingMutations.mpr ⟨hmid, ?_, .inl hqueued⟩, haction⟩
          rwa [or_assoc] at htype
      obtain ⟨o, ho, how, hoq, left⟩ := second.claimed w idle'
        ⟨op, hmutation.1, hw, hqueued, hmutation.2⟩
      have homid := (mem_pendingMutations.mp ho).1
      exact ⟨o, first.queue o homid hoq, how, hoq, left⟩

/-- A pass claims an operation of an idle world if it can dispatch one of them, and leaves all of
them in the queue if it cannot. -/
theorem wp_dispatchQueuedOperations (svc : WorldsService) {db : Database} (keyed : db.Keyed)
    {w : String} (idle : Unoccupied w db) :
    wp Scope.dispatching (fun _ y => Claims w db y.conn.committed ↔
      ∃ op ∈ db.operations, op.worldId = some w ∧ op.status = .queued ∧ Dispatchable op = true)
      (dispatchQueuedOperations svc) ⟨.closed db, []⟩ := by
  unfold dispatchQueuedOperations listQueued
  simp only [Program.bind_eq, Program.pure_eq]
  rw [wp_bind]
  refine wp_read ?_ (fun φ hφ => hφ.elim)
  dsimp only
  rw [dispatchLifecycle_eq, wp_bind]
  have nodup : ∀ queue : List Operation, (queue.map (·.opId)).Nodup →
      ((firsts [] queue).map (·.opId)).Nodup :=
    fun queue h => h.sublist ((firsts_sublist [] queue).map _)
  refine wp_mono (wp_rounds (fun op => op.status = .queued) (fun _ h => .inl h) wp_dispatchQueued
    (nodup _ (sorted_nodup keyed.unique)) keyed ?_ _) ?_
  · intro op hop
    have listed := mem_queue.mp ((firsts_sublist _ _).subset hop)
    exact ⟨listed.1, listed.2.1⟩
  rintro r ⟨c, log⟩ ⟨⟨ids, rfl⟩, mid, rfl, first⟩
  dsimp only
  rw [wp_bind]
  unfold dispatchQueuedWorldMutations
  simp only [Program.bind_eq, Program.pure_eq]
  refine wp_draw_bind fun acquired hacquired => ?_
  have hacquired : acquired = true := hacquired.2
  rw [if_pos hacquired, wp_bind]
  refine wp_read ?_ (fun φ hφ => hφ.elim)
  dsimp only
  rw [dispatchMutationRounds_eq]
  refine wp_mono (wp_rounds (fun op => op.status = .queued ∨ op.status = .running) ?_
    wp_dispatchMutation (sorted_nodup first.keyed.unique) first.keyed ?_ _) ?_
  · rintro op (h | h)
    · exact .inl h
    · exact .inr (by rw [h]; rfl)
  · intro op hop
    have listed := mem_pendingMutations.mp hop
    exact ⟨listed.1, listed.2.2⟩
  rintro r ⟨c, log'⟩ ⟨⟨ids', rfl⟩, after, rfl, second⟩
  exact claims_iff keyed idle (fun op => mem_queue) first second

theorem Env.fresh_dispatching (n : Nat) (x : Session) (m : Cmd Site Stmt Query) :
    Scope.dispatching.allowed x m (Env.fresh n x m) := by
  cases m with
  | draw q =>
    refine ⟨Env.fresh_draws n x q, ?_⟩
    cases q with
    | mutationLock => rfl
    | _ => trivial
  | _ => trivial

/-- A pass over the queue serves an idle world exactly when one of its queued operations is a
Start, a Stop, a Kill or a mutation: nothing ever takes a queued Backup, Restore or Cleanup. -/
theorem queue_drains_iff (svc : WorldsService) {db : Database} (keyed : db.Keyed) {w : String}
    (idle : Unoccupied w db) :
    Drains svc db w ↔
      ∃ op ∈ db.operations, op.worldId = some w ∧ op.status = .queued ∧
        Dispatchable op = true := by
  have pass := wp_dispatchQueuedOperations svc keyed idle
  constructor
  · intro drains
    exact (run_of_wp Env.fresh_dispatching pass).mp (drains Env.fresh Env.fresh_dispatching)
  · intro dispatchable env henv
    exact (run_of_wp henv pass).mpr dispatchable

/-- A running world whose Stop waits in the queue. -/
def stopWaits : Database :=
  { Database.single .running with
    operations := [{
      opId := "o", opType := .stop, worldId := some "w", actorType := .user
      actorUserId := none, idempotencyKey := none, status := .queued, checkpoint := none
      compensatesOperationId := none, intentAt := 0, startedAt := none, finishedAt := none
      errorCode := none, message := none, data := none, createdAt := 0, updatedAt := 0 }] }

theorem queue_drains_stop : stopWaits.Keyed ∧ Unoccupied "w" stopWaits ∧
    (Drains ⟨⟨false, true⟩, true, false⟩ stopWaits "w" ↔
      ∃ op ∈ stopWaits.operations, op.worldId = some "w" ∧ op.status = .queued ∧
        Dispatchable op = true) := by
  have keyed : stopWaits.Keyed :=
    ⟨List.nodup_iff_pairwise_ne.mpr (by decide), by decide, by decide⟩
  have idle : Unoccupied "w" stopWaits := by decide
  exact ⟨keyed, idle, queue_drains_iff _ keyed idle⟩

/-- The scheduler has queued a Backup: the world has nothing else to do, and no pass takes it. -/
theorem queue_keeps_backup : ¬∀ (svc : WorldsService) (db : Database) (w : String), db.Keyed →
    (db.world? w).any World.live = true →
    (∃ op ∈ db.operations, op.worldId = some w ∧ op.status = .queued) → Unoccupied w db →
    Drains svc db w := by
  intro h
  have keyed : (Scheduler.onlyTick 86410).after.Keyed :=
    ⟨List.nodup_iff_pairwise_ne.mpr (by decide), by decide, by decide⟩
  have idle : Unoccupied "w" (Scheduler.onlyTick 86410).after := by decide
  let svc : WorldsService := ⟨⟨false, false⟩, false, false⟩
  have drains := h svc _ "w" keyed (by decide) (by decide) idle
  have pass := run_of_wp Env.fresh_dispatching (wp_dispatchQueuedOperations svc keyed idle)
  have taken := pass.mp (drains Env.fresh Env.fresh_dispatching)
  revert taken
  decide

end McManager.Worlds
