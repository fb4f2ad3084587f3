import McManager.Services.Environment
import McManager.Services.Progress

namespace McManager.Operations

open Framework

namespace Told

/-- The checkpoint supplied last. -/
def latest : List Told → Option Checkpoint
  | [] => none
  | .noted c :: told => c.or (latest told)
  | .ran c :: told => c.or (latest told)
  | .ticked c :: _ => some c
  | .ended c :: told => c.or (latest told)

/-- The last checkpoint of an intermediate transition that no milestone has followed. -/
def waiting : List Told → Option Checkpoint
  | [] => none
  | .noted c :: told => c.or (waiting told)
  | .ran _ :: _ => none
  | .ticked _ :: told => waiting told
  | .ended _ :: _ => none

/-- The last tick of the progress. -/
def lastTick : List Told → Option Checkpoint
  | [] => none
  | .noted _ :: told => lastTick told
  | .ran _ :: told => lastTick told
  | .ticked c :: _ => some c
  | .ended _ :: _ => none

/-- The checkpoint the row of an open operation holds. -/
def stored : List Told → Option Checkpoint
  | [] => none
  | .noted _ :: told => stored told
  | .ran c :: told => c.or (((waiting told).or (lastTick told)).or (stored told))
  | .ticked _ :: told => stored told
  | .ended _ :: told => stored told

def Open (told : List Told) : Prop := ∀ c, .ended c ∉ told

/-- Without a tick the last checkpoint waits in memory or is in the row. -/
theorem waiting_stored {told : List Told} (isOpen : Open told) (silent : lastTick told = none) :
    (waiting told).or (stored told) = latest told := by
  induction told with
  | nil => rfl
  | cons t told ih =>
    have rest : Open told := fun c h => isOpen c (List.mem_cons_of_mem t h)
    cases t with
    | noted c =>
      have earlier := ih rest silent
      rw [waiting, stored, latest, Option.or_assoc, earlier]
    | ran c =>
      have still : lastTick told = none := silent
      have earlier := ih rest still
      rw [waiting, stored, latest, Option.none_or, still, Option.or_none, earlier]
    | ticked c => cases silent
    | ended c => exact absurd (List.mem_cons_self ..) (isOpen c)

/-- A milestone without a checkpoint stores the last one exactly if the one it finds in memory is
the last one. -/
theorem kept_latest_iff {told : List Told} (isOpen : Open told) :
    ((waiting told).or (lastTick told)).or (stored told) = latest told ↔
      ∀ c, (waiting told).or (lastTick told) = some c → latest told = some c := by
  cases memory : (waiting told).or (lastTick told) with
  | none =>
    obtain ⟨idle, silent⟩ := Option.or_eq_none_iff.mp memory
    have earlier := waiting_stored isOpen silent
    rw [idle, Option.none_or] at earlier
    simpa using earlier
  | some c =>
    rw [Option.some_or]
    constructor
    · intro h c' hc'
      rw [← h, hc']
    · intro h
      exact (h c rfl).symm

end Told

/-- Rows and memory after what has been told of an open operation. -/
structure Follows (opId : String) (told : List Told) (k : Kept) : Prop where
  unique : k.db.UniqueOperations
  row : ∃ op, k.db.operation? opId = some op ∧ (op.terminal = false → Told.Open told ∧
    k.memory.pending opId = Told.waiting told ∧ k.memory.progress opId = Told.lastTick told ∧
    op.checkpoint = Told.stored told)

/-- Everything may fail but the statements of intermediate transitions. -/
def Scope.reported : Scope where
  fails t _ := match t with
    | .transition status => status = .running ∨ status.terminal = true
    | _ => True
  answers _ _ _ := True
  draws _ _ _ := True

/-- The same, with the cached checkpoint from memory. -/
def Scope.remembered (mem : Memory) : Scope where
  fails := Scope.reported.fails
  answers _ _ _ := True
  draws _ q v := match q with
    | .cachedCheckpoint opId => v = mem.cached opId
    | _ => True

theorem remembering_allowed {env : Env} (mem : Memory)
    (henv : ∀ n x c, Scope.reported.allowed x c (env n x c)) (n : Nat) (x : Session)
    (c : Cmd Site Stmt Query) :
    (Scope.remembered mem).allowed x c (remembering mem env n x c) := by
  have allowed := henv n x c
  cases c with
  | draw q => cases q <;> first | rfl | exact trivial
  | ask q => exact trivial
  | rollback => exact trivial
  | _ =>
    simp only [remembering]
    revert allowed
    generalize env n x _ = o
    cases o <;> exact id

/-- A transition that has been committed. -/
structure Advanced (opId : String) (k : Kept) (status : OperationStatus) (m : Milestone)
    (d : Database) : Prop where
  unique : d.UniqueOperations
  row : ∃ old op, k.db.operation? opId = some old ∧ d.operation? opId = some op ∧
    old.terminal = false ∧
    if status = .running ∨ status.terminal = true then
      op.status = status ∧
        op.checkpoint = (m.checkpoint.or (k.memory.cached opId)).or old.checkpoint
    else op = old

theorem advanced_block {svc : OperationService} {opId : String} {k : Kept}
    (unique : k.db.UniqueOperations) {status : OperationStatus} {m : Milestone} {now : Int}
    {auditId notificationId : String} {notifiedAt : Int} {op : Operation} {d : Database}
    (h : (transitionBlock svc opId status m (k.memory.cached opId) now auditId notificationId
      notifiedAt).eval k.db = .ok (op, d)) : Advanced opId k status m d := by
  obtain ⟨old, hold, rfl, hopen, h⟩ := transitionBlock_ok unique h
  have found := Database.operation?_eq unique hold
  by_cases milestone : status = .running ∨ status.terminal = true
  · rw [if_pos milestone] at h
    obtain ⟨rfl, audits, notifications, -, rfl⟩ := h
    refine ⟨unique_replaceOperation unique rfl, old, _, found,
      operation?_replaceOperation rfl found, hopen, ?_⟩
    rw [if_pos milestone]
    exact ⟨rfl, rfl⟩
  · rw [if_neg milestone] at h
    obtain ⟨rfl, rfl⟩ := h
    refine ⟨unique, _, _, found, found, hopen, ?_⟩
    rw [if_neg milestone]

/-- A call of `transition` is committed, or has changed nothing. -/
theorem report_transition (svc : OperationService) {opId : String} {env : Env} {k : Kept}
    (unique : k.db.UniqueOperations) (status : OperationStatus) (m : Milestone)
    (henv : ∀ n x c, Scope.reported.allowed x c (env n x c)) :
    (∃ d, Advanced opId k status m d ∧ report svc opId env k (.transition status m) =
      (some (Told.transition status m.checkpoint),
        ⟨d, k.memory.transitioned opId status m.checkpoint⟩)) ∨
    report svc opId env k (.transition status m) = (none, k) := by
  have ran : wp (Scope.remembered k.memory) (fun _ y =>
      transitionCommitted y.log = true ∧ Advanced opId k status m y.conn.committed ∨
        transitionCommitted y.log = false ∧ y.conn.committed = k.db)
      (transition svc opId status m) ⟨.closed k.db, []⟩ := by
    refine wp_transition_drawn ?_ ?_ ?_
    · intro cached now auditId notificationId notifiedAt op d hcached h
      obtain rfl : cached = k.memory.cached opId := hcached
      have advanced := advanced_block unique h
      exact ⟨.inl ⟨rfl, advanced⟩, fun φ _ => .inl ⟨rfl, advanced⟩⟩
    · intro cached now auditId notificationId notifiedAt e _
      exact .inr ⟨rfl, rfl⟩
    · intro φ _
      exact .inr ⟨rfl, rfl⟩
  have ended := run_of_wp (remembering_allowed k.memory henv) ran
  unfold report
  rcases ended with ⟨committed, advanced⟩ | ⟨kept, same⟩
  · refine .inl ⟨_, advanced, ?_⟩
    simp only [committed, if_true]
  · right
    simp only [kept, same, Bool.false_eq_true, if_false]

theorem report_progress (svc : OperationService) (opId : String) (env : Env) (k : Kept)
    (progressPct : Int) (stepName : String) :
    (∃ c, report svc opId env k (.progress progressPct stepName) =
      (some (.ticked c), { k with memory := k.memory.ticked opId c })) ∨
    report svc opId env k (.progress progressPct stepName) = (none, k) := by
  simp only [report]
  cases (run env (updateProgressInMemory opId progressPct stepName) ⟨.closed k.db, []⟩).1 with
  | ok c => exact .inl ⟨c, rfl⟩
  | error e => exact .inr rfl

theorem transitioned_pending {status : OperationStatus} (running : status ≠ .running)
    (ended : ¬status.terminal = true) (memory : Memory) (opId : String)
    (checkpoint : Option Checkpoint) :
    memory.transitioned opId status checkpoint = match checkpoint with
      | none => memory
      | some c => { memory with pending := Function.update memory.pending opId (some c) } := by
  unfold Memory.transitioned
  have going : status ≠ .running ∧ (!status.terminal) = true := ⟨running, by simpa using ended⟩
  cases checkpoint with
  | none => exact if_pos going
  | some c => exact if_pos going

theorem Follows.transition {opId : String} {told : List Told} {k : Kept} (h : Follows opId told k)
    {status : OperationStatus} {m : Milestone} {d : Database} (advanced : Advanced opId k status m d) :
    Follows opId (Told.transition status m.checkpoint :: told)
      ⟨d, k.memory.transitioned opId status m.checkpoint⟩ := by
  obtain ⟨old, op, hold, hop, hopen, after⟩ := advanced.row
  obtain ⟨old', hold', before⟩ := h.row
  obtain rfl : old = old' := Option.some.inj (hold.symm.trans hold')
  obtain ⟨told_open, pending, progress, checkpoint⟩ := before hopen
  refine ⟨advanced.unique, op, hop, ?_⟩
  intro still
  by_cases ended : status.terminal = true
  · rw [if_pos (.inr ended)] at after
    rw [Operation.terminal, after.1, ended] at still
    cases still
  by_cases running : status = .running
  · subst running
    rw [if_pos (.inl rfl)] at after
    refine ⟨?_, ?_, ?_, ?_⟩
    · intro c mem
      rcases List.mem_cons.mp mem with mem | mem
      · cases mem
      · exact told_open c mem
    · exact Function.update_self ..
    · exact progress
    · rw [after.2, Memory.cached, pending, progress, checkpoint, Option.or_assoc]
      rfl
  · rw [if_neg (by simp [running, ended])] at after
    subst after
    have noted : Told.transition status m.checkpoint = .noted m.checkpoint := by
      rw [Told.transition, if_neg ended, if_neg running]
    rw [noted, transitioned_pending running ended]
    refine ⟨?_, ?_, ?_, ?_⟩
    · intro c mem
      rcases List.mem_cons.mp mem with mem | mem
      · cases mem
      · exact told_open c mem
    · cases m.checkpoint with
      | none => exact pending
      | some c => exact Function.update_self ..
    · cases m.checkpoint <;> exact progress
    · exact checkpoint

theorem Follows.ticked {opId : String} {told : List Told} {k : Kept} (h : Follows opId told k)
    (c : Checkpoint) :
    Follows opId (.ticked c :: told) { k with memory := k.memory.ticked opId c } := by
  obtain ⟨op, hop, before⟩ := h.row
  refine ⟨h.unique, op, hop, ?_⟩
  intro hopen
  obtain ⟨told_open, pending, -, checkpoint⟩ := before hopen
  refine ⟨?_, pending, Function.update_self .., checkpoint⟩
  intro c' mem
  rcases List.mem_cons.mp mem with mem | mem
  · cases mem
  · exact told_open c' mem

theorem Follows.step {svc : OperationService} {opId : String} {told : List Told} {k : Kept}
    (h : Follows opId told k) {env : Env} (henv : ∀ n x c, Scope.reported.allowed x c (env n x c))
    (call : Report) :
    Follows opId ((report svc opId env k call).1.toList ++ told) (report svc opId env k call).2 := by
  cases call with
  | transition status m =>
    rcases report_transition svc h.unique status m henv with ⟨d, advanced, hreport⟩ | hreport
    · rw [hreport]
      exact h.transition advanced
    · rw [hreport]
      exact h
  | progress progressPct stepName =>
    rcases report_progress svc opId env k progressPct stepName with ⟨c, hreport⟩ | hreport
    · rw [hreport]
      exact h.ticked c
    · rw [hreport]
      exact h

theorem follows_reports (svc : OperationService) {opId : String} (calls : List (Report × Env))
    (henv : ∀ call ∈ calls, ∀ n x c, Scope.reported.allowed x c (call.2 n x c))
    {told : List Told} {k : Kept} (h : Follows opId told k) :
    Follows opId (reports svc opId calls (told, k)).1 (reports svc opId calls (told, k)).2 := by
  induction calls generalizing told k with
  | nil => exact h
  | cons call calls ih =>
    have rest := fun call' mem => henv call' (List.mem_cons_of_mem call mem)
    exact ih rest (h.step (henv call (List.mem_cons_self ..)) call.1)

/-- An operation that has no checkpoint yet, in its row or in memory. -/
structure Unreported (opId : String) (k : Kept) : Prop where
  unique : k.db.UniqueOperations
  row : ∃ op, k.db.operation? opId = some op ∧ op.checkpoint = none
  pending : k.memory.pending opId = none
  progress : k.memory.progress opId = none

theorem Unreported.follows {opId : String} {k : Kept} (h : Unreported opId k) :
    Follows opId [] k := by
  obtain ⟨op, hop, none⟩ := h.row
  exact ⟨h.unique, op, hop, fun _ => ⟨fun c mem => (nomatch mem), h.pending, h.progress, none⟩⟩

/-- The checkpoint stored with the end of an operation is the one supplied last exactly if the
checkpoint that waits in memory, or else the last tick of the progress, was supplied last. -/
theorem checkpoint_latest_iff (svc : OperationService) (opId : String) (k : Kept)
    (start : Unreported opId k) (calls : List (Report × Env))
    (henv : ∀ call ∈ calls, ∀ n x c, Scope.reported.allowed x c (call.2 n x c))
    (status : OperationStatus) (ends : status.terminal = true) (m : Milestone)
    (bare : m.checkpoint = none) (env : Env) (last : ∀ n x c, Scope.reported.allowed x c (env n x c))
    (committed : (report svc opId env (reports svc opId calls ([], k)).2 (.transition status m)).1 ≠
      none) :
    ∃ op, (report svc opId env (reports svc opId calls ([], k)).2
        (.transition status m)).2.db.operation? opId = some op ∧ op.status = status ∧
      (op.checkpoint = Told.latest (reports svc opId calls ([], k)).1 ↔
        ∀ c, (Told.waiting (reports svc opId calls ([], k)).1).or
            (Told.lastTick (reports svc opId calls ([], k)).1) = some c →
          Told.latest (reports svc opId calls ([], k)).1 = some c) := by
  have follows := follows_reports svc calls henv start.follows
  generalize reports svc opId calls ([], k) = state at follows committed ⊢
  obtain ⟨told, k⟩ := state
  rcases report_transition svc follows.unique status m last with ⟨d, advanced, hreport⟩ | hreport
  · obtain ⟨old, op, hold, hop, hopen, after⟩ := advanced.row
    obtain ⟨old', hold', before⟩ := follows.row
    obtain rfl : old = old' := Option.some.inj (hold.symm.trans hold')
    obtain ⟨told_open, pending, progress, checkpoint⟩ := before hopen
    rw [if_pos (.inr ends)] at after
    rw [hreport]
    refine ⟨op, hop, after.1, ?_⟩
    rw [after.2, bare, Option.none_or, Memory.cached, pending, progress, checkpoint]
    exact Told.kept_latest_iff told_open
  · rw [hreport] at committed
    exact absurd rfl committed

/-- A running Backup that has reported nothing yet. -/
def backingUp : Kept where
  db := { Database.single .off with
    operations := [newOperation ⟨.backup, .system, some "w", none, none, none, none⟩ "o" .running 0] }
  memory := {}

theorem unreported_backingUp : Unreported "o" backingUp :=
  ⟨by unfold Database.UniqueOperations; decide, ⟨_, rfl, rfl⟩, rfl, rfl⟩

theorem smooth_reported (id : String) (n : Nat) (x : Session) (c : Cmd Site Stmt Query) :
    Scope.reported.allowed x c (Env.smooth id n x c) := by
  cases c <;> exact trivial

/-- The last tick is stored with the end of the operation. -/
theorem checkpoint_latest_ticked :
    ∃ op, (report ⟨false, false⟩ "o" (Env.smooth "x") (reports ⟨false, false⟩ "o"
        [(.progress 37 "copying", Env.smooth "x")] ([], backingUp)).2
        (.transition .completed {})).2.db.operation? "o" = some op ∧ op.status = .completed ∧
      (op.checkpoint = Told.latest (reports ⟨false, false⟩ "o"
          [(.progress 37 "copying", Env.smooth "x")] ([], backingUp)).1 ↔
        ∀ c, (Told.waiting (reports ⟨false, false⟩ "o"
            [(.progress 37 "copying", Env.smooth "x")] ([], backingUp)).1).or
            (Told.lastTick (reports ⟨false, false⟩ "o"
              [(.progress 37 "copying", Env.smooth "x")] ([], backingUp)).1) = some c →
          Told.latest (reports ⟨false, false⟩ "o"
            [(.progress 37 "copying", Env.smooth "x")] ([], backingUp)).1 = some c) :=
  checkpoint_latest_iff ⟨false, false⟩ "o" backingUp unreported_backingUp _
    (by simp [smooth_reported]) .completed rfl {} rfl (Env.smooth "x") (smooth_reported "x")
    (by decide +kernel)

/-- A tick, and then a checkpoint with the transition to Running. -/
def tickedThenRan : List (Report × Env) :=
  [(.progress 10 "copying", Env.smooth "x"),
    (.transition .running { checkpoint := some { stage := "verifying" } }, Env.smooth "x")]

/-- The tick of before is stored with the end, and not the checkpoint of after. -/
theorem checkpoint_overtaken : ¬∀ (svc : OperationService) (opId : String) (k : Kept)
    (calls : List (Report × Env)) (status : OperationStatus) (m : Milestone) (env : Env),
    Unreported opId k →
    (∀ call ∈ calls, ∀ n x c, Scope.reported.allowed x c (call.2 n x c)) →
    (∀ n x c, Scope.reported.allowed x c (env n x c)) →
    status.terminal = true → m.checkpoint = none →
    (report svc opId env (reports svc opId calls ([], k)).2 (.transition status m)).1 ≠ none →
    ∃ op, (report svc opId env (reports svc opId calls ([], k)).2
        (.transition status m)).2.db.operation? opId = some op ∧
      op.checkpoint = Told.latest (reports svc opId calls ([], k)).1 := by
  intro h
  obtain ⟨op, hop, latest⟩ := h ⟨false, false⟩ "o" backingUp tickedThenRan .completed {}
    (Env.smooth "x") unreported_backingUp (by simp [tickedThenRan, smooth_reported])
    (smooth_reported "x") rfl rfl (by decide +kernel)
  have found : ((report ⟨false, false⟩ "o" (Env.smooth "x") (reports ⟨false, false⟩ "o" tickedThenRan
      ([], backingUp)).2 (.transition .completed {})).2.db.operation? "o").map (·.checkpoint) =
      some (some { progressPct := some 10, step := "copying", ts := some 0 }) := by decide +kernel
  have told : Told.latest (reports ⟨false, false⟩ "o" tickedThenRan ([], backingUp)).1 =
      some { stage := "verifying" } := by decide +kernel
  rw [hop, Option.map_some, latest, told] at found
  cases found

end McManager.Operations
