import McManager.Framework.Events
import McManager.Framework.Settled
import McManager.Guarantees.Timeline
import McManager.Services.OperationFrames
import McManager.Services.Retention

namespace McManager.Sync

open Framework Operations
open Cleanup (UniqueArtifacts)

/-- The UTC day of a time. -/
def day (t : Int) : Int := t / 86400

/-- The records of the uploads with their artifacts. -/
def owners (db : Database) : List (String × String) :=
  db.syncRecords.map fun r => (r.syncId, r.artifactId)

/-- The size of what an attempt uploads. -/
def bytesOf (db : Database) (a : SyncAttempt) : Int :=
  ((((owners db).find? (·.1 == a.syncId)).bind fun r =>
    db.artifacts.find? (·.artifactId == r.2)).map (·.sizeBytes)).getD 0

/-- The bytes of the uploads that succeeded and finished on this day. -/
def finishedOn (db : Database) (d : Int) : Int :=
  ((db.syncAttempts.filter fun a => a.outcome == .succeeded && decide (day a.finishedAt = d)).map
    (bytesOf db)).sum

theorem bytesOf_eq (db : Database) (a : SyncAttempt) :
    (((db.syncRecords.find? (·.syncId == a.syncId)).bind fun r =>
      db.artifacts.find? (·.artifactId == r.artifactId)).map (·.sizeBytes)).getD 0 = bytesOf db a := by
  rw [bytesOf, owners, List.find?_map]
  have same : (fun r : SyncRecord => r.syncId == a.syncId) =
      ((fun r : String × String => r.1 == a.syncId) ∘ fun r : SyncRecord => (r.syncId, r.artifactId)) := rfl
  rw [same]
  cases db.syncRecords.find? _ <;> rfl

/-- What the check of the code sums up is the day of its clock. -/
theorem transferredBetween_day (db : Database) (t : Int) :
    transferredBetween db (t / 86400 * 86400) (t / 86400 * 86400 + 86400) =
      finishedOn db (day t) := by
  have range : ∀ a : SyncAttempt, (a.outcome == .succeeded &&
      decide (t / 86400 * 86400 ≤ a.finishedAt) && decide (a.finishedAt < t / 86400 * 86400 + 86400)) =
      (a.outcome == .succeeded && decide (day a.finishedAt = day t)) := by
    intro a
    rw [Bool.and_assoc]
    congr 1
    rw [Bool.eq_iff_iff, Bool.and_eq_true, decide_eq_true_eq, decide_eq_true_eq, decide_eq_true_eq,
      day, day]
    omega
  rw [transferredBetween, finishedOn, List.filter_congr fun a _ => range a]
  congr 1
  exact List.map_congr_left fun a _ => bytesOf_eq db a

theorem bytesOf_nonneg {db : Database} (sizes : ∀ f ∈ db.artifacts, 0 ≤ f.sizeBytes)
    (a : SyncAttempt) : 0 ≤ bytesOf db a := by
  rw [bytesOf]
  cases h : ((owners db).find? (·.1 == a.syncId)).bind fun r =>
      db.artifacts.find? (·.artifactId == r.2) with
  | none => exact le_refl 0
  | some f =>
    obtain ⟨r, -, hf⟩ := Option.bind_eq_some_iff.mp h
    exact sizes f (List.mem_of_find?_eq_some hf)

theorem finishedOn_nonneg {db : Database} (sizes : ∀ f ∈ db.artifacts, 0 ≤ f.sizeBytes) (d : Int) :
    0 ≤ finishedOn db d := by
  apply List.sum_nonneg
  intro n mem
  obtain ⟨a, -, rfl⟩ := List.mem_map.mp mem
  exact bytesOf_nonneg sizes a

/-- No upload has finished on a day that has not begun. -/
theorem finishedOn_later {db : Database} {t d : Int}
    (past : ∀ a ∈ db.syncAttempts, a.finishedAt ≤ t) (later : day t < d) : finishedOn db d = 0 := by
  have none : (db.syncAttempts.filter fun a =>
      a.outcome == .succeeded && decide (day a.finishedAt = d)) = [] := by
    apply List.filter_eq_nil_iff.mpr
    intro a mem
    have early := past a mem
    have other : day a.finishedAt ≠ d := by
      unfold day at *
      omega
    simp [other]
  rw [finishedOn, none, List.map_nil, List.sum_nil]

/-- The clock readings on record. -/
def readings (l : List (Event Site Stmt Query Fault Answer Database Exn)) : List Int :=
  l.filterMap fun e => match e with
    | ⟨_, .draw .now, .ok t⟩ => some t
    | _ => none

theorem readings_prefix {l l' : List (Event Site Stmt Query Fault Answer Database Exn)}
    (grown : l <+: l') : ∃ new, readings l' = readings l ++ new := by
  obtain ⟨more, rfl⟩ := grown
  exact ⟨readings more, List.filterMap_append⟩

/-- The rows the cap rests on are the same. -/
structure Sides (db d : Database) : Prop where
  attempts : d.syncAttempts = db.syncAttempts
  owners : owners d = owners db
  artifacts : d.artifacts = db.artifacts

theorem Sides.refl (db : Database) : Sides db db := ⟨rfl, rfl, rfl⟩

theorem Sides.trans (d d' d'' : Database) (h : Sides d d') (h' : Sides d' d'') : Sides d d'' :=
  ⟨h'.attempts.trans h.attempts, h'.owners.trans h.owners, h'.artifacts.trans h.artifacts⟩

/-- Committed or not, the rows the cap rests on are those of `d`. -/
abbrev Beside (d : Database) (x : Session) : Prop := Chained Sides (fun _ => True) d x.conn

theorem Beside.view {d : Database} {x : Session} (h : Beside d x) : Sides d x.conn.view :=
  Sides.trans _ _ _ h.1 h.2.1

theorem beside_closed {d d' : Database} {log : Log} (h : Sides d d') : Beside d ⟨.closed d', log⟩ :=
  ⟨h, .refl _, trivial, trivial⟩

theorem Beside.opening {d : Database} {x : Session} (h : Beside d x) {log : Log} :
    Beside d ⟨x.conn.opening, log⟩ := by
  refine ⟨h.1, ?_, trivial, trivial⟩
  rw [Connection.view_opening]
  exact h.2.1

/-- A statement that goes through leaves the rows the cap rests on. -/
def Apart (s : Stmt) : Prop := ∀ d d' n, Store.apply s d = .ok (d', n) → Sides d d'

theorem records_apart : Records (fun _ => True) Apart fun _ => True := by
  refine .any ?_ ?_ ?_
  · intro s notes d d' n h
    cases s with
    | claimOperation opId now =>
      cases h
      exact ⟨rfl, rfl, rfl⟩
    | cancelOperation opId now errorCode =>
      cases h
      exact ⟨rfl, rfl, rfl⟩
    | insertAudit row =>
      obtain ⟨-, rfl, -⟩ := satisfying_ok.mp h
      exact ⟨rfl, rfl, rfl⟩
    | insertNotification row =>
      obtain ⟨-, rfl, -⟩ := satisfying_ok.mp h
      exact ⟨rfl, rfl, rfl⟩
    | _ => exact absurd notes Bool.false_ne_true
  · intro row d d' n h
    obtain ⟨-, rfl, -⟩ := satisfying_ok.mp h
    exact ⟨rfl, rfl, rfl⟩
  · intro opId status checkpoint startedAt finishedAt errorCode message data now d d' n h
    cases h
    exact ⟨rfl, rfl, rfl⟩

variable {d : Database} {x : Session} {l : List (Event Site Stmt Query Fault Answer Database Exn)}

/-- Whatever becomes of a program of such statements, those rows stay as they are. -/
theorem wp_beside {α : Type} {E : Scope} {p : Prog α} (issues : Issues (fun _ => True) Apart p)
    (h : Beside d x) : wp E (fun _ y => Beside d y) p x := by
  have kept := issues.keeps (E := E) Sides.refl Sides.trans
    (fun s d d' n hs _ h => ⟨hs d d' n h, trivial⟩) d x h
  refine wp_mono kept ?_
  intro r y ended
  cases r <;> exact ended

/-- What is left of some attempts: their rows, finished at times that were read meanwhile, and
at most one success among them. -/
structure Attempted (d : Database) (syncId : String) (times times' : List Int) (y : Session) : Prop where
  grown : ∃ rows new, times' = times ++ new ∧ Beside (addAttempts d rows) y ∧
    (∀ a ∈ rows, a.syncId = syncId ∧ a.finishedAt ∈ new) ∧ rows.countP (·.outcome == .succeeded) ≤ 1

theorem sides_addAttempts {d d' : Database} (h : Sides d d') (rows : List SyncAttempt) :
    Sides (addAttempts d rows) (addAttempts d' rows) :=
  ⟨by rw [addAttempts, addAttempts, h.attempts], h.owners, h.artifacts⟩

/-- The ids of sync records and attempts that are drawn are new, the database answers, and the
transport does what it likes. -/
def Scope.uploads : Scope where
  fails _ _ := False
  answers _ _ _ := True
  draws := NewDraw

/-- Recording an attempt adds its row, or is refused. -/
theorem wp_recordAttempt_beside (h : Beside d x) {syncId : String} {number : Nat}
    {startedAt finishedAt : Int} {outcome : SyncOutcome} {errorMessage : Option String} :
    wp Scope.uploads (fun r y =>
        (∃ row : SyncAttempt, r = .ok () ∧ row.syncId = syncId ∧ row.finishedAt = finishedAt ∧
          row.outcome = outcome ∧ Beside (addAttempts d [row]) y) ∨
        ∃ e, r = .error e ∧ Beside d y)
      (recordAttempt syncId number startedAt finishedAt outcome errorMessage) x := by
  unfold recordAttempt
  simp only [Program.bind_eq]
  refine wp_draw_bind fun attemptId _ => ?_
  refine wp_write_commit (fun φ h => False.elim h) ?_ ?_
  · intro d' n applied
    obtain ⟨-, rfl, -⟩ := satisfying_ok.mp applied
    exact .inl ⟨_, rfl, rfl, rfl, rfl, beside_closed (sides_addAttempts h.view _)⟩
  · exact fun e _ => .inr ⟨e, rfl, h.opening⟩

/-- An attempt that is not the last one. -/
theorem Attempted.cons {syncId : String} {times new times' : List Int} {row : SyncAttempt} {y : Session}
    (owner : row.syncId = syncId) (finished : row.finishedAt ∈ new)
    (failed : row.outcome ≠ .succeeded)
    (h : Attempted (addAttempts d [row]) syncId (times ++ new) times' y) :
    Attempted d syncId times times' y := by
  obtain ⟨rows, later, rfl, beside, owned, once⟩ := h.grown
  refine ⟨row :: rows, new ++ later, List.append_assoc .., ?_, ?_, ?_⟩
  · have same : addAttempts (addAttempts d [row]) rows = addAttempts d (row :: rows) := by
      simp [addAttempts]
    rwa [same] at beside
  · intro a mem
    rcases List.mem_cons.mp mem with rfl | mem
    · exact ⟨owner, List.mem_append_left _ finished⟩
    · exact ⟨(owned a mem).1, List.mem_append_right _ (owned a mem).2⟩
  · rw [List.countP_cons_of_neg (by simpa using failed)]
    exact once

/-- The attempts that are left, from the given number on. -/
theorem wpe_attempts {syncId targetId path : String} (left : Nat) :
    ∀ {number : Nat} {d : Database} {x : Session}
      {l : List (Event Site Stmt Query Fault Answer Database Exn)}, Beside d x →
      wpe Scope.uploads (fun _ y l' => Attempted d syncId (readings l) (readings l') y)
        (attempts syncId targetId path left number) x l := by
  induction left with
  | zero => exact fun h => ⟨[], [], (List.append_nil _).symm, by simpa [addAttempts] using h, by simp, by simp⟩
  | succ left ih =>
    intro number d x l h
    unfold attempts
    simp only [Program.bind_eq]
    refine wpe_draw_bind fun startedAt _ => ?_
    rw [wpe_bind]
    have uploaded : wp Scope.uploads (fun r y => (∃ o, r = .ok o) ∧ Beside d y)
        (uploadOnce targetId path) x := wp_uploadOnce fun answer text => ⟨⟨_, rfl⟩, h⟩
    refine wpe_of_wp uploaded ?_
    rintro _ y l₁ ⟨⟨⟨outcome, errorMessage⟩, rfl⟩, beside⟩ grown₁
    refine wpe_draw_bind fun finishedAt _ => ?_
    rw [wpe_bind]
    refine wpe_of_wp (wp_recordAttempt_beside beside) ?_
    rintro r z l₂ recorded grown₂
    obtain ⟨new₁, read₁⟩ := readings_prefix grown₁
    obtain ⟨new₂, read₂⟩ := readings_prefix grown₂
    have times : readings l₂ = readings l ++ ([startedAt] ++ new₁ ++ [finishedAt] ++ new₂) := by
      rw [read₂, readings, List.filterMap_append, ← readings, read₁, readings, List.filterMap_append]
      simp [readings]
    have finished : finishedAt ∈ [startedAt] ++ new₁ ++ [finishedAt] ++ new₂ := by simp
    rcases recorded with ⟨row, rfl, owner, rfl, rfl, beside⟩ | ⟨e, rfl, beside⟩
    · have last : Attempted d syncId (readings l) (readings l₂) z := by
        refine ⟨[row], _, times, beside, ?_, List.countP_le_length⟩
        intro a mem
        obtain rfl := List.mem_singleton.mp mem
        exact ⟨owner, finished⟩
      dsimp only
      cases ended : row.outcome with
      | succeeded => exact last
      | failedPermanent => exact last
      | failedTransient =>
        have failed : row.outcome ≠ .succeeded := by simp [ended]
        have more : ∀ {y : Session} {l₃ : List (Event Site Stmt Query Fault Answer Database Exn)},
            Beside (addAttempts d [row]) y → l₂ <+: l₃ →
            wpe Scope.uploads (fun _ y l' => Attempted d syncId (readings l) (readings l') y)
              (attempts syncId targetId path left (number + 1)) y l₃ := by
          intro y l₃ beside grown₃
          obtain ⟨new₃, read₃⟩ := readings_prefix grown₃
          refine wpe_mono (ih beside) ?_
          intro r' w l₄ more
          rw [read₃, times, List.append_assoc] at more
          exact .cons owner (List.mem_append_left new₃ finished) failed more
        dsimp only
        split
        · rw [wpe_bind]
          have slept : wp Scope.uploads (fun _ y => Beside (addAttempts d [row]) y)
              (ask (.sleep (backoffDelays.getD (number - 1) 0)) : Prog Unit) z :=
            wp_ask (fun _ _ => beside) fun _ _ => beside
          refine wpe_of_wp slept ?_
          intro r y l₃ beside grown₃
          cases r with
          | ok _ => exact more beside grown₃
          | error e =>
            obtain ⟨new₃, read₃⟩ := readings_prefix grown₃
            refine ⟨[row], [startedAt] ++ new₁ ++ [row.finishedAt] ++ new₂ ++ new₃, ?_, beside, ?_,
              List.countP_le_length⟩
            · rw [read₃, times, List.append_assoc]
            · intro a mem
              obtain rfl := List.mem_singleton.mp mem
              exact ⟨owner, List.mem_append_left new₃ finished⟩
        · exact more beside List.prefix_rfl
    · exact ⟨[], _, times, by simpa [addAttempts] using beside, by simp, by simp⟩

theorem apart_finish {syncId : String} {status : SyncRecordStatus} {now : Int} :
    Apart (.finishSyncRecord syncId status now) := by
  intro d d' n h
  cases h
  refine ⟨rfl, ?_, rfl⟩
  rw [owners, owners, updateWhere, List.map_map]
  apply List.map_congr_left
  intro r _
  rw [Function.comp_apply]
  split <;> rfl

theorem apart_insertSyncTarget {targetId secretId : String} {createdAt updatedAt : Int} :
    Apart (.insertSyncTarget targetId secretId createdAt updatedAt) := by
  intro d d' n h
  obtain ⟨-, rfl, -⟩ := satisfying_ok.mp h
  exact ⟨rfl, rfl, rfl⟩

theorem within_write {s : Stmt} (h : Apart s) :
    (Body.write s : Block Unit).Within (fun _ => True) Apart := ⟨h, fun _ => trivial⟩

theorem issues_finish {svc : OperationService} {syncId opId : String} {succeeded : Bool} :
    Issues (fun _ => True) Apart (finish svc syncId opId succeeded) := by
  apply Issues.bind Issues.draw
  intro now
  apply Issues.bind (Issues.autocommit (within_write apart_finish))
  intro _
  apply Issues.bind (issues_transition records_apart (.inr trivial))
  exact fun _ => trivial

theorem issues_resolveTarget (targetId : String) :
    Issues (fun _ => True) Apart (resolveTarget targetId) := by
  apply Issues.bind Issues.readCommitted
  intro row
  split
  · split <;> exact trivial
  · apply Issues.bind Issues.readCommitted
    intro secret
    split
    · exact trivial
    · apply Issues.bind Issues.draw
      intro createdAt
      apply Issues.bind Issues.draw
      intro updatedAt
      apply Issues.bind (Issues.autocommit (within_write apart_insertSyncTarget))
      exact fun _ => trivial

theorem issues_create {svc : OperationService} {request : OperationInput} {initial : OperationStatus}
    {allow : Bool} : Issues (fun _ => True) Apart (create svc request initial allow) :=
  Issues.bind (issues_createWithReplay records_apart trivial) fun _ => trivial

/-- What a call leaves: the rows as they were, or the attempts of a new record, for an artifact
that had room on the day of the second clock reading. -/
inductive Called (db : Database) (times : List Int) (y : Session) : Prop
  | refused (beside : Beside db y)
  | uploaded (artifact : BackupArtifact) (row : SyncRecord) (rows : List SyncAttempt) (t₁ t₂ : Int)
    (rest : List Int) (times_eq : times = t₁ :: t₂ :: rest) (mem : artifact ∈ db.artifacts)
    (owner : row.artifactId = artifact.artifactId) (new : UnusedSync db row.syncId)
    (room : finishedOn db (day t₂) + artifact.sizeBytes ≤ dailyTransferCapBytes)
    (beside : Beside (addAttempts (addRecord db row) rows) y)
    (owned : ∀ a ∈ rows, a.syncId = row.syncId ∧ a.finishedAt ∈ rest)
    (once : rows.countP (·.outcome == .succeeded) ≤ 1)

theorem sides_addRecord {d d' : Database} (h : Sides d d') (row : SyncRecord) :
    Sides (addRecord d row) (addRecord d' row) := by
  refine ⟨h.attempts, ?_, h.artifacts⟩
  have same := h.owners
  unfold owners at same ⊢
  rw [addRecord, addRecord, List.map_append, List.map_append, same]

theorem unused_of_sides {d d' : Database} (h : Sides d d') {id : String} (unused : UnusedSync d' id) :
    UnusedSync d id := by
  refine ⟨?_, h.attempts ▸ unused.2⟩
  intro r mem same
  have there : (r.syncId, r.artifactId) ∈ owners d' := by
    rw [h.owners]
    exact List.mem_map.mpr ⟨r, mem, rfl⟩
  obtain ⟨r', mem', eq⟩ := List.mem_map.mp there
  exact unused.1 r' mem' ((congrArg Prod.fst eq).trans same)

/-- The record of an upload is there, or nothing has changed. -/
theorem wp_insertSyncRecord {db : Database} {y : Session} (beside : Beside db y)
    (row : SyncRecord) :
    wp Scope.uploads (fun r y => match r with
      | .ok _ => Beside (addRecord db row) y
      | .error _ => Beside db y)
      (autocommit .syncRecord (Body.write (.insertSyncRecord row)) : Prog Unit) y := by
  refine wp_write_commit (fun φ h => False.elim h) ?_ ?_
  · intro d' n applied
    obtain ⟨-, rfl, -⟩ := satisfying_ok.mp applied
    exact beside_closed (sides_addRecord beside.view _)
  · exact fun e _ => beside.opening

/-- A call that has passed its checks. -/
theorem wpe_transfer {svc : OperationService} {artifact : BackupArtifact} {targetId : String}
    {db : Database} (h : Beside db x) (mem : artifact ∈ db.artifacts) {t₁ t₂ : Int} {rest : List Int}
    (times : readings l = t₁ :: t₂ :: rest)
    (room : finishedOn db (day t₂) + artifact.sizeBytes ≤ dailyTransferCapBytes) :
    wpe Scope.uploads (fun _ y l' => Called db (readings l') y)
      (transfer svc artifact targetId) x l := by
  unfold transfer
  simp only [Program.bind_eq]
  refine wpe_draw_bind fun startedAt _ => ?_
  rw [wpe_bind]
  refine wpe_of_wp (wp_beside issues_create h) ?_
  intro r y l₁ beside grown₁
  cases r with
  | error e => exact .refused beside
  | ok op =>
    dsimp only
    refine wpe_draw_bind fun syncId drawn => ?_
    have new : UnusedSync db syncId := unused_of_sides beside.view drawn
    generalize hrow : ({ syncId, artifactId := artifact.artifactId, syncTargetId := targetId
                         operationId := op.opId, status := .pending, startedAt := startedAt
                         finishedAt := none, createdAt := startedAt } : SyncRecord) = row
    obtain ⟨rfl, owner⟩ : row.syncId = syncId ∧ row.artifactId = artifact.artifactId := by
      rw [← hrow]
      exact ⟨rfl, rfl⟩
    rw [wpe_bind]
    refine wpe_of_wp (wp_insertSyncRecord beside row) ?_
    intro r z l₂ after grown₂
    cases r with
    | error e => exact .refused after
    | ok _ =>
      dsimp only
      rw [wpe_bind]
      refine wpe_mono (wpe_attempts syncTransientRetries after) ?_
      intro r w l₃ tried
      obtain ⟨rows, later, times₃, beside₃, owned, once⟩ := tried.grown
      obtain ⟨new₁, read₁⟩ := readings_prefix ((List.prefix_append _ _).trans grown₁)
      obtain ⟨new₂, read₂⟩ := readings_prefix ((List.prefix_append _ _).trans grown₂)
      have all : readings l₃ = t₁ :: t₂ :: (rest ++ new₁ ++ new₂ ++ later) := by
        rw [times₃, read₂, read₁, times]
        simp
      have called : ∀ {v : Session} {l₄ : List (Event Site Stmt Query Fault Answer Database Exn)},
          Beside (addAttempts (addRecord db row) rows) v → l₃ <+: l₄ → Called db (readings l₄) v := by
        intro v l₄ beside₄ grown₄
        obtain ⟨new₄, read₄⟩ := readings_prefix grown₄
        refine .uploaded artifact row rows t₁ t₂ (rest ++ new₁ ++ new₂ ++ later ++ new₄) ?_ mem owner new
          room beside₄ ?_ once
        · rw [read₄, all]
          simp
        · intro a ha
          have finished := (owned a ha).2
          exact ⟨(owned a ha).1, by simp [finished]⟩
      cases r with
      | error e => exact called beside₃ List.prefix_rfl
      | ok succeeded =>
        refine wpe_of_wp (wp_beside issues_finish beside₃) ?_
        exact fun _ v l₄ beside₄ grown₄ => called beside₄ grown₄

/-- `dispatch_sync` uploads only what has room. -/
theorem wpe_dispatchSync (svc : OperationService) (artifactId targetId : String)
    (clean : Beside x.conn.committed x) :
    wpe Scope.uploads (fun _ y l => Called x.conn.committed (readings l) y)
      (dispatchSync svc artifactId targetId) x [] := by
  unfold dispatchSync getBytesTransferredToday
  simp only [Program.bind_eq, Program.bind_assoc]
  refine wpe_draw_bind fun t₁ _ => ?_
  refine wpe_read_bind (fun φ h => h) ?_
  split
  · exact .refused clean
  refine wpe_read_bind (fun φ h => h) ?_
  split
  · exact .refused clean
  rename_i artifact found
  refine wpe_draw_bind fun t₂ _ => ?_
  refine wpe_read_bind (fun φ h => h) ?_
  rw [transferredBetween_day]
  split
  · exact .refused clean
  rename_i room
  rw [wpe_bind]
  refine wpe_of_wp (wp_beside (issues_resolveTarget targetId) clean) ?_
  intro r y l' beside grown
  cases r with
  | error e => exact .refused beside
  | ok targetId =>
    obtain ⟨new, read⟩ := readings_prefix grown
    exact wpe_transfer beside (List.mem_of_find?_eq_some found) read (not_lt.mp room)

theorem finishedOn_congr {d d' : Database} (h : Sides d d') (on : Int) :
    finishedOn d' on = finishedOn d on := by
  have bytes : bytesOf d' = bytesOf d := by
    funext a
    rw [bytesOf, bytesOf, h.owners, h.artifacts]
  rw [finishedOn, finishedOn, h.attempts, bytes]

section Recorded

variable {db : Database} {row : SyncRecord} {rows : List SyncAttempt}

theorem owners_addRecord : owners (addRecord db row) = owners db ++ [(row.syncId, row.artifactId)] :=
  List.map_append

theorem bytesOf_other (new : UnusedSync db row.syncId) {a : SyncAttempt} (mem : a ∈ db.syncAttempts) :
    bytesOf (addRecord db row) a = bytesOf db a := by
  have other : (row.syncId == a.syncId) = false := by
    have apart := (new.2 a mem).2
    simpa using Ne.symm apart
  rw [bytesOf, bytesOf, owners_addRecord, List.find?_append]
  simp only [List.find?_cons, other, List.find?_nil, Option.or_none]
  rfl

theorem bytesOf_own (unique : UniqueArtifacts db) {artifact : BackupArtifact}
    (mem : artifact ∈ db.artifacts) (owner : row.artifactId = artifact.artifactId)
    (new : UnusedSync db row.syncId) {a : SyncAttempt} (own : a.syncId = row.syncId) :
    bytesOf (addRecord db row) a = artifact.sizeBytes := by
  have absent : (owners db).find? (·.1 == a.syncId) = none := by
    apply List.find?_eq_none.mpr
    intro p hp
    obtain ⟨r, hr, rfl⟩ := List.mem_map.mp hp
    simpa [own] using new.1 r hr
  have found : db.artifacts.find? (·.artifactId == row.artifactId) = some artifact := by
    rw [owner]
    exact find?_key unique mem
  rw [bytesOf, owners_addRecord, List.find?_append, absent, Option.none_or, own]
  simp only [List.find?_cons, beq_self_eq_true, Option.bind_some]
  rw [addRecord, found]
  rfl

/-- At most one attempt of a call counts. -/
theorem own_bytes (unique : UniqueArtifacts db) {artifact : BackupArtifact}
    (mem : artifact ∈ db.artifacts) (owner : row.artifactId = artifact.artifactId)
    (new : UnusedSync db row.syncId) (owned : ∀ a ∈ rows, a.syncId = row.syncId)
    (once : rows.countP (·.outcome == .succeeded) ≤ 1) (on : Int) :
    ((rows.filter fun a => a.outcome == .succeeded && decide (day a.finishedAt = on)).map
        (bytesOf (addRecord db row))).sum = 0 ∨
      (∃ a ∈ rows, day a.finishedAt = on) ∧
      ((rows.filter fun a => a.outcome == .succeeded && decide (day a.finishedAt = on)).map
        (bytesOf (addRecord db row))).sum = artifact.sizeBytes := by
  have few : (rows.filter fun a => a.outcome == .succeeded && decide (day a.finishedAt = on)).length
      ≤ 1 := by
    rw [← List.countP_eq_length_filter]
    refine le_trans (List.countP_mono_left ?_) once
    intro a _ h
    exact (Bool.and_eq_true _ _ ▸ h).1
  match counted : rows.filter fun a => a.outcome == .succeeded && decide (day a.finishedAt = on) with
  | [] => exact .inl (by rw [counted]; rfl)
  | [a] =>
    have there : a ∈ rows.filter fun a => a.outcome == .succeeded && decide (day a.finishedAt = on) := by
      rw [counted]
      exact List.mem_singleton_self a
    obtain ⟨ha, counts⟩ := List.mem_filter.mp there
    rw [Bool.and_eq_true, decide_eq_true_eq] at counts
    refine .inr ⟨⟨a, ha, counts.2⟩, ?_⟩
    rw [counted, List.map_singleton, List.sum_singleton]
    exact bytesOf_own unique mem owner new (owned a ha)
  | _ :: _ :: _ =>
    rw [counted] at few
    exact absurd few (by simp)

theorem finishedOn_uploaded (new : UnusedSync db row.syncId) (on : Int) :
    finishedOn (addAttempts (addRecord db row) rows) on = finishedOn db on +
      ((rows.filter fun a => a.outcome == .succeeded && decide (day a.finishedAt = on)).map
        (bytesOf (addRecord db row))).sum := by
  have earlier : ∀ a ∈ db.syncAttempts.filter
      (fun a => a.outcome == .succeeded && decide (day a.finishedAt = on)),
      bytesOf (addRecord db row) a = bytesOf db a :=
    fun a mem => bytesOf_other new (List.mem_of_mem_filter mem)
  have attempts : (addAttempts (addRecord db row) rows).syncAttempts = db.syncAttempts ++ rows := rfl
  have bytes : bytesOf (addAttempts (addRecord db row) rows) = bytesOf (addRecord db row) := rfl
  rw [finishedOn, attempts, bytes, List.filter_append, List.map_append, List.sum_append,
    List.map_congr_left earlier, finishedOn]

end Recorded

/-- One call keeps the cap, as no upload of an earlier day finishes after one of a later day. -/
theorem finishedOn_called {db : Database} {times : List Int} {y : Session}
    (unique : UniqueArtifacts db) (sizes : ∀ f ∈ db.artifacts, 0 ≤ f.sizeBytes)
    (past : ∀ a ∈ db.syncAttempts, ∀ t ∈ times, a.finishedAt ≤ t) (clock : times.Pairwise (· ≤ ·))
    (capped : ∀ on, finishedOn db on ≤ dailyTransferCapBytes) (h : Called db times y) (on : Int) :
    finishedOn y.conn.committed on ≤ dailyTransferCapBytes := by
  cases h with
  | refused beside =>
    rw [finishedOn_congr beside.1]
    exact capped on
  | uploaded artifact row rows t₁ t₂ rest times_eq mem owner new room beside owned once =>
    rw [finishedOn_congr beside.1, finishedOn_uploaded new]
    rcases own_bytes unique mem owner new (fun a ha => (owned a ha).1) once on with
      none | ⟨⟨a, ha, finished⟩, bytes⟩
    · rw [none, add_zero]
      exact capped on
    · rw [bytes]
      rw [times_eq, List.pairwise_cons, List.pairwise_cons] at clock
      have later : t₂ ≤ a.finishedAt := clock.2.1 _ (owned a ha).2
      have ordered : day t₂ ≤ on := by
        rw [← finished]
        unfold day
        omega
      rcases eq_or_lt_of_le ordered with same | crossed
      · rw [← same]
        exact room
      · have none : finishedOn db on = 0 := by
          apply finishedOn_later _ crossed
          exact fun b hb => past b hb t₂ (by simp [times_eq])
        have transferred := finishedOn_nonneg sizes (day t₂)
        rw [none]
        omega

/-- A call of `dispatch_sync` and what it meets. -/
structure SyncCall where
  artifactId : String
  targetId : String
  env : Env

namespace SyncCall

variable (svc : OperationService)

def serve (c : SyncCall) (x : Session) : Session :=
  (run c.env (dispatchSync svc c.artifactId c.targetId) x).2

/-- The clock readings of the call. -/
def times (c : SyncCall) (x : Session) : List Int :=
  readings (events c.env (dispatchSync svc c.artifactId c.targetId) x)

/-- The calls one after another. -/
def serveAll (calls : List SyncCall) (x : Session) : Session :=
  calls.foldl (fun x c => c.serve svc x) x

/-- The clock readings of all calls, in their order. -/
def allTimes : List SyncCall → Session → List Int
  | [], _ => []
  | c :: calls, x => c.times svc x ++ allTimes calls (c.serve svc x)

end SyncCall

/-- What holds between the calls. -/
structure Capped (db : Database) (x : Session) (times : List Int) : Prop where
  clean : Beside x.conn.committed x
  artifacts : x.conn.committed.artifacts = db.artifacts
  past : ∀ a ∈ x.conn.committed.syncAttempts, ∀ t ∈ times, a.finishedAt ≤ t
  capped : ∀ on, finishedOn x.conn.committed on ≤ dailyTransferCapBytes

theorem Beside.clean (h : Beside d x) : Beside x.conn.committed x :=
  ⟨.refl _, h.2.1, trivial, trivial⟩

theorem capped_serve {db : Database} (svc : OperationService) {c : SyncCall} {later : List Int}
    (allowed : ∀ n x m, Scope.uploads.allowed x m (c.env n x m)) (unique : UniqueArtifacts db)
    (sizes : ∀ f ∈ db.artifacts, 0 ≤ f.sizeBytes)
    (clock : (c.times svc x ++ later).Pairwise (· ≤ ·)) (h : Capped db x (c.times svc x ++ later)) :
    Capped db (c.serve svc x) later := by
  have called : Called x.conn.committed (c.times svc x) (c.serve svc x) :=
    of_wpe allowed (wpe_dispatchSync svc c.artifactId c.targetId h.clean)
  rw [List.pairwise_append] at clock
  have bound : ∀ on, finishedOn (c.serve svc x).conn.committed on ≤ dailyTransferCapBytes := by
    apply finishedOn_called _ _ _ clock.1 h.capped called
    · rwa [UniqueArtifacts, h.artifacts]
    · rwa [h.artifacts]
    · exact fun a ha t ht => h.past a ha t (List.mem_append_left _ ht)
  cases called with
  | refused beside =>
    refine ⟨beside.clean, beside.1.artifacts.trans h.artifacts, ?_, bound⟩
    rw [beside.1.attempts]
    exact fun a ha t ht => h.past a ha t (List.mem_append_right _ ht)
  | uploaded artifact row rows t₁ t₂ rest times_eq mem owner new room beside owned once =>
    refine ⟨beside.clean, beside.1.artifacts.trans h.artifacts, ?_, bound⟩
    rw [beside.1.attempts]
    intro a ha t ht
    rcases List.mem_append.mp ha with ha | ha
    · exact h.past a ha t (List.mem_append_right _ ht)
    · apply clock.2.2 a.finishedAt _ t ht
      rw [times_eq]
      simp [(owned a ha).2]

/-- Whatever is uploaded and whatever the transport answers, calls one after another on a clock
that never goes back keep the cap of every day, also those that finish on a later day. -/
theorem transfers_capped (svc : OperationService) (calls : List SyncCall) {db : Database} (log : Log)
    (allowed : ∀ c ∈ calls, ∀ n x m, Scope.uploads.allowed x m (c.env n x m))
    (unique : UniqueArtifacts db) (sizes : ∀ f ∈ db.artifacts, 0 ≤ f.sizeBytes)
    (clock : (SyncCall.allTimes svc calls ⟨.closed db, log⟩).Pairwise (· ≤ ·))
    (past : ∀ a ∈ db.syncAttempts, ∀ t ∈ SyncCall.allTimes svc calls ⟨.closed db, log⟩,
      a.finishedAt ≤ t)
    (capped : ∀ on, finishedOn db on ≤ dailyTransferCapBytes) (on : Int) :
    finishedOn (SyncCall.serveAll svc calls ⟨.closed db, log⟩).conn.committed on ≤
      dailyTransferCapBytes := by
  have start : Capped db ⟨.closed db, log⟩ (SyncCall.allTimes svc calls ⟨.closed db, log⟩) :=
    ⟨beside_closed (.refl db), rfl, past, capped⟩
  generalize (⟨.closed db, log⟩ : Session) = x at start clock
  clear past capped
  induction calls generalizing x with
  | nil => exact start.capped on
  | cons c calls ih =>
    have served := capped_serve svc (allowed c List.mem_cons_self) unique sizes clock start
    have later := (List.pairwise_append.mp clock).2.1
    exact ih (fun c hc => allowed c (List.mem_cons_of_mem _ hc)) _ served later

/-- A text that no id of a sync record or an attempt is as long as. -/
def newSyncId (db : Database) : String :=
  String.ofList (List.replicate (((db.syncRecords.map (·.syncId) ++
    db.syncAttempts.map (·.attemptId) ++ db.syncAttempts.map (·.syncId)).map String.length).sum + 1) 'x')

theorem unused_newSyncId (db : Database) : UnusedSync db (newSyncId db) := by
  have longer : ∀ id ∈ db.syncRecords.map (·.syncId) ++ db.syncAttempts.map (·.attemptId) ++
      db.syncAttempts.map (·.syncId), id ≠ newSyncId db := by
    rintro _ mem rfl
    have short := List.single_le_sum (fun n _ => Nat.zero_le n) _
      (List.mem_map_of_mem (f := String.length) mem)
    have length : (newSyncId db).length = ((db.syncRecords.map (·.syncId) ++
        db.syncAttempts.map (·.attemptId) ++ db.syncAttempts.map (·.syncId)).map String.length).sum + 1 := by
      simp [newSyncId]
    omega
  refine ⟨?_, ?_⟩
  · intro r mem
    apply longer
    simp only [List.mem_append, List.mem_map]
    exact .inl (.inl ⟨r, mem, rfl⟩)
  · intro a mem
    refine ⟨longer _ ?_, longer _ ?_⟩
    · simp only [List.mem_append, List.mem_map]
      exact .inl (.inr ⟨a, mem, rfl⟩)
    · simp only [List.mem_append, List.mem_map]
      exact .inr ⟨a, mem, rfl⟩

/-- Every upload succeeds, and a second passes from one command to the next. -/
def Env.ticking (start : Int) : Env
  | _, x, .draw (.uuid _) => newSyncId x.conn.view
  | n, _, .draw .now => start + n
  | n, x, m => Env.smooth "" n x m

theorem ticking_allowed (start : Int) (n : Nat) (x : Session)
    (m : Framework.Cmd Site Stmt Query) : Scope.uploads.allowed x m (Env.ticking start n x m) := by
  cases m with
  | draw q =>
    cases q with
    | uuid kind => exact unused_newSyncId _
    | _ => exact trivial
  | ask q => exact trivial
  | _ => exact trivial

/-- Ten seconds before midnight there is room for the largest artifact. -/
def full : Database :=
  { Database.single .off with
    secrets := [⟨"s", "sync", "sync_target", "t", 0⟩]
    operations := [newOperation ⟨.backup, .system, some "w", none, none, none, none⟩ "o" .completed 0]
    artifacts := [⟨"a", some "w", "manual", "a.zip", "", false, "o", none, none, 0, 50 * 1024 ^ 3⟩] }

/-- The upload finishes after midnight, and the next call has to wait. -/
def acrossMidnight : List SyncCall :=
  [⟨"a", "t", Env.ticking 86390⟩, ⟨"a", "t", Env.ticking 86500⟩]

theorem transfers_capped_full :
    finishedOn (SyncCall.serveAll ⟨false, false⟩ acrossMidnight ⟨.closed full, []⟩).conn.committed 1 ≤
      dailyTransferCapBytes := by
  apply transfers_capped ⟨false, false⟩ acrossMidnight []
  · intro c hc
    simp only [acrossMidnight, List.mem_cons, List.not_mem_nil, or_false] at hc
    rcases hc with rfl | rfl
    · exact ticking_allowed _
    · exact ticking_allowed _
  · unfold UniqueArtifacts
    decide
  · decide
  · decide +kernel
  · decide
  · exact fun on => by simp [finishedOn, full, dailyTransferCapBytes, Database.single]

example : finishedOn (SyncCall.serveAll ⟨false, false⟩ acrossMidnight ⟨.closed full, []⟩).conn.committed 1 =
    dailyTransferCapBytes := by
  decide +kernel

end McManager.Sync
