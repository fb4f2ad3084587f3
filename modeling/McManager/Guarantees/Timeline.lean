import McManager.Services.Environment
import McManager.Services.Sync

namespace McManager.Sync

open Framework Operations

/-- What a call does outside the database: an upload with what becomes of it, or a wait. -/
inductive Happening
  | upload (outcome : SyncOutcome)
  | wait (seconds : Nat)
  deriving DecidableEq, Repr

/-- The outcome of an upload the transport answers, refuses for good, or raises from. -/
def outcomeOf : Except Fault (Option String) → SyncOutcome
  | .ok none => .succeeded
  | .ok (some _) => .failedPermanent
  | .error _ => .failedTransient

def happening? : Note Site Query Fault Answer → Option Happening
  | .answered (.upload _ _) answer => some (.upload (outcomeOf answer))
  | .answered (.sleep seconds) _ => some (.wait seconds)
  | _ => none

/-- Uploads with these outcomes, and the delays in their order between them. -/
def paced : List Nat → List SyncOutcome → List Happening
  | _, [] => []
  | _, [outcome] => [.upload outcome]
  | [], outcome :: outcomes => .upload outcome :: paced [] outcomes
  | delay :: delays, outcome :: outcomes => .upload outcome :: .wait delay :: paced delays outcomes

/-- The outcomes of at most `most` attempts, of which only transient failures are repeated. -/
structure Course (most : Nat) (outcomes : List SyncOutcome) : Prop where
  tried : outcomes ≠ []
  bounded : outcomes.length ≤ most
  repeated : ∀ outcome ∈ outcomes.dropLast, outcome = .failedTransient
  exhausted : outcomes.getLast? = some .failedTransient → outcomes.length = most

theorem Course.last {most : Nat} {outcome : SyncOutcome}
    (isOver : outcome = .failedTransient → most = 0) : Course (most + 1) [outcome] where
  tried := List.cons_ne_nil _ _
  bounded := by simp
  repeated := by simp
  exhausted h := by
    have transient : outcome = .failedTransient := by simpa using h
    simp [isOver transient]

theorem Course.retry {most : Nat} {outcomes : List SyncOutcome} (h : Course most outcomes) :
    Course (most + 1) (.failedTransient :: outcomes) where
  tried := List.cons_ne_nil _ _
  bounded := Nat.succ_le_succ h.bounded
  repeated outcome mem := by
    rw [List.dropLast_cons_of_ne_nil h.tried, List.mem_cons] at mem
    rcases mem with rfl | mem
    · rfl
    · exact h.repeated outcome mem
  exhausted last := by
    rw [List.getLast?_cons_of_ne_nil h.tried] at last
    rw [List.length_cons, h.exhausted last]

/-- The last outcome decides. -/
def successful (outcomes : List SyncOutcome) : Bool := outcomes.getLast? == some .succeeded

def attemptsOf (db : Database) (syncId : String) : List SyncAttempt :=
  db.syncAttempts.filter (·.syncId == syncId)

/-- The database and the record of a call that has returned the id of its sync record. -/
structure Timeline (db : Database) (artifactId syncId : String) (outcomes : List SyncOutcome)
    (d : Database) (l : Log) : Prop where
  course : Course syncTransientRetries outcomes
  happened : l.filterMap happening? = paced backoffDelays outcomes
  numbers : (attemptsOf d syncId).map (·.attemptNumber) = List.range' 1 outcomes.length
  outcomes_eq : (attemptsOf d syncId).map (·.outcome) = outcomes
  others : d.syncAttempts.filter (·.syncId != syncId) = db.syncAttempts
  record : ∃ row op, d.syncRecords = db.syncRecords ++ [row] ∧ row.syncId = syncId ∧
    row.artifactId = artifactId ∧ d.operation? row.operationId = some op ∧ op.opType = .sync ∧
    db.hasOperation op.opId = false ∧
    row.status = (if successful outcomes then .succeeded else .failed) ∧
    op.status = if successful outcomes then .completed else .failed
  artifacts : d.artifacts = db.artifacts

/-- Notes that tell of nothing outside the database may stand before. -/
theorem Timeline.after {db d : Database} {artifactId syncId : String} {outcomes : List SyncOutcome}
    {l l' : Log} (h : Timeline db artifactId syncId outcomes d l)
    (quiet : l'.filterMap happening? = []) : Timeline db artifactId syncId outcomes d (l' ++ l) :=
  { h with happened := by rw [List.filterMap_append, quiet, List.nil_append, h.happened] }

def withVersioned (db : Database) (versioned : List VersionedRow) : Database :=
  { db with versioned }

def addRecord (db : Database) (row : SyncRecord) : Database :=
  { db with syncRecords := db.syncRecords ++ [row] }

def addAttempts (db : Database) (rows : List SyncAttempt) : Database :=
  { db with syncAttempts := db.syncAttempts ++ rows }

/-- No row of the tables of the sync jobs has this id. -/
def UnusedSync (db : Database) (id : String) : Prop :=
  (∀ r ∈ db.syncRecords, r.syncId ≠ id) ∧ ∀ a ∈ db.syncAttempts, a.attemptId ≠ id ∧ a.syncId ≠ id

/-- The ids of sync records and attempts that are drawn are new. -/
def NewDraw (x : Session) : (q : Query) → Answer q → Prop
  | .uuid _, id => UnusedSync x.conn.view id
  | _, _ => True

/-- Ids are fresh, the database answers, and waiting ends; the transport does what it likes. -/
def Scope.transport : Scope where
  fails _ _ := False
  answers _ q o := (∃ targetId path, q = .upload targetId path) ∨ ∃ a, o = .ok a
  draws x q v := FreshDraw x q v ∧ NewDraw x q v

section Attempts

variable {db : Database} {log : Log} {syncId targetId path : String}

/-- The rows of attempts numbered from `number` on, with these outcomes. -/
structure Numbered (syncId : String) (number : Nat) (outcomes : List SyncOutcome)
    (rows : List SyncAttempt) : Prop where
  owner : ∀ a ∈ rows, a.syncId = syncId
  numbers : rows.map (·.attemptNumber) = List.range' number outcomes.length
  outcomes_eq : rows.map (·.outcome) = outcomes

theorem Numbered.nil {number : Nat} : Numbered syncId number [] [] := ⟨by simp, rfl, rfl⟩

theorem Numbered.cons {number : Nat} {outcomes : List SyncOutcome} {rows : List SyncAttempt}
    (h : Numbered syncId (number + 1) outcomes rows) {row : SyncAttempt} (owner : row.syncId = syncId)
    (hnumber : row.attemptNumber = number) :
    Numbered syncId number (row.outcome :: outcomes) (row :: rows) where
  owner a mem := by
    rcases List.mem_cons.mp mem with rfl | mem
    · exact owner
    · exact h.owner a mem
  numbers := by
    rw [List.map_cons, h.numbers, hnumber, List.length_cons, List.range'_succ]
  outcomes_eq := by rw [List.map_cons, h.outcomes_eq]

/-- The sync record is there, and the attempts recorded for it have smaller numbers. -/
structure Ready (syncId : String) (number : Nat) (db : Database) : Prop where
  present : db.syncRecords.any (·.syncId == syncId) = true
  earlier : ∀ a ∈ db.syncAttempts, a.syncId = syncId → a.attemptNumber < number

theorem Ready.next {number : Nat} (h : Ready syncId number db) {row : SyncAttempt}
    (hnumber : row.attemptNumber = number) :
    Ready syncId (number + 1) (addAttempts db [row]) where
  present := h.present
  earlier a mem owner := by
    rcases List.mem_append.mp mem with mem | mem
    · have := h.earlier a mem owner
      omega
    · obtain rfl := List.mem_singleton.mp mem
      omega

theorem wp_uploadOnce {E : Scope} {Q : Except Exn (SyncOutcome × Option String) → Session → Prop}
    {x : Session} (done : ∀ answer text, Q (.ok (outcomeOf answer, text))
      ⟨x.conn, x.log ++ [.answered (.upload targetId path) answer]⟩) :
    wp E Q (uploadOnce targetId path) x := by
  unfold uploadOnce
  rw [wp_handle]
  simp only [Program.bind_eq]
  rw [wp_bind]
  refine wp_ask ?_ ?_
  · intro permanent _
    cases permanent with
    | none => exact done (.ok none) none
    | some text => exact done (.ok (some text)) _
  · intro φ _
    exact done (.error φ) _

theorem wp_recordAttempt {Q : Except Exn Unit → Session → Prop} {number : Nat}
    (ready : Ready syncId number db) {startedAt finishedAt : Int} {outcome : SyncOutcome}
    {errorMessage : Option String}
    (done : ∀ row : SyncAttempt, row.syncId = syncId → row.attemptNumber = number →
      row.outcome = outcome → Q (.ok ()) ⟨.closed (addAttempts db [row]),
        log ++ [.committed .syncAttempt]⟩) :
    wp Scope.transport Q (recordAttempt syncId number startedAt finishedAt outcome errorMessage)
      ⟨.closed db, log⟩ := by
  unfold recordAttempt
  simp only [Program.bind_eq]
  refine wp_draw_bind fun attemptId hattemptId => ?_
  have unused : ∀ a ∈ db.syncAttempts, a.attemptId ≠ attemptId := fun a ha => (hattemptId.2.2 a ha).1
  have unnumbered : ∀ a ∈ db.syncAttempts, a.syncId = syncId → a.attemptNumber ≠ number :=
    fun a ha owner => Nat.ne_of_lt (ready.earlier a ha owner)
  refine wp_autocommit ?_ ?_ fun φ _ h => h.elim
  · intro d' n h
    obtain ⟨-, rfl, -⟩ := satisfying_ok.mp h
    exact done _ rfl rfl rfl
  · intro e h
    have stored : ∃ r, Store.apply (Stmt.insertSyncAttempt ⟨attemptId, syncId, number, startedAt,
        finishedAt, outcome, errorMessage, finishedAt⟩) db = .ok r := by
      refine ⟨_, satisfying_ok.mpr ⟨?_, rfl, rfl⟩⟩
      simp only [List.mem_cons, List.not_mem_nil, or_false, forall_eq_or_imp, forall_eq]
      exact ⟨by simpa using unused, by simpa using unnumbered, ready.present⟩
    obtain ⟨r, hr⟩ := stored
    rw [hr] at h
    cases h

theorem drop_backoffDelays {number : Nat} (h : number + 1 < syncTransientRetries) :
    backoffDelays.drop number = backoffDelays.getD number 0 :: backoffDelays.drop (number + 1) := by
  have small : number < backoffDelays.length := by simpa [backoffDelays] using Nat.lt_sub_of_add_lt h
  rw [List.drop_eq_getElem_cons small, List.getD_eq_getElem?_getD, List.getElem?_eq_getElem small, Option.getD_some]

/-- One attempt: its row is recorded, and only a transient failure is followed by more. -/
theorem wp_attempt {left number : Nat} {Q : Except Exn Bool → Session → Prop}
    (ready : Ready syncId number db)
    (isOver : ∀ row answer, row.syncId = syncId → row.attemptNumber = number →
      row.outcome = outcomeOf answer → row.outcome ≠ .failedTransient →
      Q (.ok (row.outcome == .succeeded)) ⟨.closed (addAttempts db [row]),
        log ++ [.answered (.upload targetId path) answer] ++ [.committed .syncAttempt]⟩)
    (again : ∀ row answer, row.syncId = syncId → row.attemptNumber = number →
      row.outcome = outcomeOf answer → row.outcome = .failedTransient →
      wp Scope.transport Q (do
        if number < syncTransientRetries then
          ask (.sleep (backoffDelays.getD (number - 1) 0))
        attempts syncId targetId path left (number + 1))
        ⟨.closed (addAttempts db [row]),
          log ++ [.answered (.upload targetId path) answer] ++ [.committed .syncAttempt]⟩) :
    wp Scope.transport Q (attempts syncId targetId path (left + 1) number) ⟨.closed db, log⟩ := by
  unfold attempts
  simp only [Program.bind_eq]
  refine wp_draw_bind fun startedAt _ => ?_
  rw [wp_bind]
  refine wp_uploadOnce ?_
  intro answer text
  refine wp_draw_bind fun finishedAt _ => ?_
  rw [wp_bind]
  refine wp_recordAttempt ready ?_
  intro row owner numbered outcome
  dsimp only
  cases ended : outcomeOf answer with
  | succeeded =>
    have last := isOver row answer owner numbered outcome (by simp [outcome, ended])
    rw [outcome, ended] at last
    exact last
  | failedPermanent =>
    have last := isOver row answer owner numbered outcome (by simp [outcome, ended])
    rw [outcome, ended] at last
    exact last
  | failedTransient => exact again row answer owner numbered outcome (outcome.trans ended)

/-- How the attempts that are left from one number on end: their rows, their outcomes, and the
waits between them. -/
structure Tried (syncId : String) (db : Database) (log : Log) (number left : Nat)
    (rows : List SyncAttempt) (outcomes : List SyncOutcome) (l : Log) (r : Except Exn Bool)
    (y : Session) : Prop where
  result : r = .ok (successful outcomes)
  state : y = ⟨.closed (addAttempts db rows), log ++ l⟩
  numbered : Numbered syncId (number + 1) outcomes rows
  course : Course (left + 1) outcomes
  happened : l.filterMap happening? = paced (backoffDelays.drop number) outcomes

theorem Tried.last {number left : Nat} {row : SyncAttempt} {answer : Except Fault (Option String)}
    (owner : row.syncId = syncId) (numbered : row.attemptNumber = number + 1)
    (outcome : row.outcome = outcomeOf answer) (isOver : row.outcome = .failedTransient → left = 0) :
    Tried syncId db log number left [row] [row.outcome]
      [.answered (.upload targetId path) answer, .committed .syncAttempt]
      (.ok (row.outcome == .succeeded))
      ⟨.closed (addAttempts db [row]),
        log ++ [.answered (.upload targetId path) answer] ++ [.committed .syncAttempt]⟩ where
  result := rfl
  state := by simp
  numbered := Numbered.nil.cons owner numbered
  course := .last isOver
  happened := by
    rw [outcome]
    cases backoffDelays.drop number <;> rfl

/-- A transient failure, the wait after it, and the attempts that follow. -/
theorem Tried.retry {number left : Nat} {row : SyncAttempt} {answer : Except Fault (Option String)}
    {rows : List SyncAttempt} {outcomes : List SyncOutcome} {l : Log} {r : Except Exn Bool}
    {y : Session} (owner : row.syncId = syncId) (numbered : row.attemptNumber = number + 1)
    (outcome : row.outcome = outcomeOf answer) (transient : row.outcome = .failedTransient)
    (few : number + 1 < syncTransientRetries)
    (h : Tried syncId (addAttempts db [row])
      (log ++ [.answered (.upload targetId path) answer] ++ [.committed .syncAttempt] ++
        [.answered (.sleep (backoffDelays.getD number 0)) (.ok ())]) (number + 1) left rows outcomes l
      r y) :
    Tried syncId db log number (left + 1) (row :: rows) (row.outcome :: outcomes)
      ([.answered (.upload targetId path) answer, .committed .syncAttempt,
        .answered (.sleep (backoffDelays.getD number 0)) (.ok ())] ++ l) r y where
  result := by
    rw [h.result, successful, successful, List.getLast?_cons_of_ne_nil h.course.tried]
  state := by
    rw [h.state]
    simp [addAttempts]
  numbered := h.numbered.cons owner numbered
  course := by
    rw [transient]
    exact h.course.retry
  happened := by
    obtain ⟨o, os, rest⟩ := List.exists_cons_of_ne_nil h.course.tried
    rw [drop_backoffDelays few, List.filterMap_append, h.happened, rest, outcome]
    rfl

theorem wp_attempts (left : Nat) {number : Nat} (budget : number + left + 1 = syncTransientRetries)
    (ready : Ready syncId (number + 1) db) :
    wp Scope.transport (fun r y => ∃ rows outcomes l, Tried syncId db log number left rows outcomes l r y)
      (attempts syncId targetId path (left + 1) (number + 1)) ⟨.closed db, log⟩ := by
  induction left generalizing number db log with
  | zero =>
    refine wp_attempt ready ?_ ?_
    · intro row answer owner numbered outcome settled
      exact ⟨_, _, _, .last owner numbered outcome fun h => absurd h settled⟩
    · intro row answer owner numbered outcome transient
      have full : ¬number + 1 < syncTransientRetries := by omega
      rw [if_neg full]
      have failed : (row.outcome == .succeeded) = false := by simp [transient]
      change wp Scope.transport _ (.ret false) _
      rw [wp_ret, ← failed]
      exact ⟨_, _, _, .last owner numbered outcome fun _ => rfl⟩
  | succ left ih =>
    refine wp_attempt ready ?_ ?_
    · intro row answer owner numbered outcome settled
      exact ⟨_, _, _, .last owner numbered outcome fun h => absurd h settled⟩
    · intro row answer owner numbered outcome transient
      have few : number + 1 < syncTransientRetries := by omega
      rw [if_pos few]
      simp only [Program.bind_eq]
      rw [wp_bind]
      refine wp_ask ?_ ?_
      · intro _ _
        refine wp_mono (ih (by omega) (ready.next numbered)) ?_
        rintro r y ⟨rows, outcomes, l, rest⟩
        exact ⟨_, _, _, rest.retry owner numbered outcome transient few⟩
      · intro φ h
        rcases h with ⟨_, _, h⟩ | ⟨_, h⟩ <;> cases h

end Attempts

section Dispatch

variable {svc : OperationService} {db : Database} {log : Log} {syncId opId : String}

/-- The database in which a sync record is closed. -/
def closeRecord (db : Database) (syncId : String) (succeeded : Bool) (now : Int) : Database :=
  { db with
    syncRecords := updateWhere (·.syncId == syncId) (fun row => { row with
      status := if succeeded then .succeeded else .failed, finishedAt := some now }) db.syncRecords }

/-- What the end of a call does: record and operation are closed, and nothing else of a sync job
changes. -/
structure Finished (db : Database) (syncId opId : String) (succeeded : Bool) (now : Int)
    (op : Operation) (d : Database) : Prop where
  artifacts : d.artifacts = db.artifacts
  attempts : d.syncAttempts = db.syncAttempts
  records : d.syncRecords = (closeRecord db syncId succeeded now).syncRecords
  found : d.operation? opId = some op
  advanced : ∃ old ∈ db.operations, old.opId = opId ∧ op.opId = opId ∧ op.opType = old.opType
  status : op.status = if succeeded then .completed else .failed

theorem wp_finish {ids : List String} {s : OperationStatus} (stage : Stage ids opId s db)
    (hopen : s.terminal = false) (succeeded : Bool) :
    wp Scope.transport (fun r y => ∃ d l now op, r = .ok syncId ∧ y = ⟨.closed d, log ++ l⟩ ∧
        l.filterMap happening? = [] ∧ Finished db syncId opId succeeded now op d)
      (finish svc syncId opId succeeded) ⟨.closed db, log⟩ := by
  unfold finish
  simp only [Program.bind_eq]
  refine wp_draw_bind fun finishedAt _ => ?_
  rw [wp_bind]
  have closing : Stage ids opId s (closeRecord db syncId succeeded finishedAt) :=
    stage.congr rfl fun _ => rfl
  have ended : (if succeeded then OperationStatus.completed else .failed).terminal = true := by
    cases succeeded <;> rfl
  refine wp_autocommit ?_ (fun e h => by cases h) fun φ _ h => h.elim
  intro closed n h
  obtain rfl : closed = closeRecord db syncId succeeded finishedAt := by
    cases h
    rfl
  dsimp only
  rw [wp_bind]
  refine wp_stored (fun _ _ _ h => h.1) closing hopen ?_ fun φ h => h.elim
  intro op d cached now auditId notificationId notifiedAt h
  obtain ⟨current, hcurrent, rfl, -, h⟩ := transitionBlock_ok closing.keyed.unique h
  rw [if_pos (.inr ended)] at h
  obtain ⟨rfl, audits, notifications, -, rfl⟩ := h
  have found := Database.operation?_eq closing.keyed.unique hcurrent
  refine ⟨?_, fun _ φ h => h.elim⟩
  rw [List.append_assoc]
  exact ⟨_, _, finishedAt, _, rfl, rfl, rfl, rfl, rfl, rfl, operation?_replaceOperation rfl found,
    ⟨current, hcurrent, rfl, rfl, rfl⟩, rfl⟩

/-- The attempts of a new sync record are the rows recorded for it. -/
theorem filter_attempts {outcomes : List SyncOutcome} {earlier rows : List SyncAttempt}
    (unused : ∀ a ∈ earlier, a.syncId ≠ syncId) (h : Numbered syncId 1 outcomes rows) :
    (earlier ++ rows).filter (·.syncId == syncId) = rows ∧
      (earlier ++ rows).filter (·.syncId != syncId) = earlier := by
  have old : earlier.filter (·.syncId == syncId) = [] :=
    List.filter_eq_nil_iff.mpr fun a ha => by simpa using unused a ha
  have kept : earlier.filter (·.syncId != syncId) = earlier :=
    List.filter_eq_self.mpr fun a ha => by simpa using unused a ha
  have own : rows.filter (·.syncId == syncId) = rows :=
    List.filter_eq_self.mpr fun a ha => by simpa using h.owner a ha
  have none : rows.filter (·.syncId != syncId) = [] :=
    List.filter_eq_nil_iff.mpr fun a ha => by simpa using h.owner a ha
  rw [List.filter_append, List.filter_append, old, kept, own, none, List.nil_append, List.append_nil]
  exact ⟨rfl, rfl⟩

theorem closeRecord_new {records : List SyncRecord} (unused : ∀ r ∈ records, r.syncId ≠ syncId)
    {row : SyncRecord} (own : row.syncId = syncId) (f : SyncRecord → SyncRecord) :
    updateWhere (·.syncId == syncId) f (records ++ [row]) = records ++ [f row] := by
  rw [updateWhere, List.map_append]
  congr 1
  · rw [List.map_congr_left (g := id), List.map_id]
    intro r hr
    have other := unused r hr
    simp [other]
  · simp [own]

/-- The operation of a call is new, and creating it touches nothing of a sync job. -/
structure Opened (db : Database) (op : Operation) (d : Database) : Prop where
  new : db.hasOperation op.opId = false
  sync : op.opType = .sync
  waits : op.status.terminal = false
  mem : op ∈ d.operations
  stage : Stage (d.operations.map (·.opId)) op.opId op.status d
  artifacts : d.artifacts = db.artifacts
  versioned : d.versioned = db.versioned
  records : d.syncRecords = db.syncRecords
  attempts : d.syncAttempts = db.syncAttempts

theorem opened_create (keyed : db.Keyed) {artifact : BackupArtifact} {targetId : String}
    (named : opId ≠ "") {auditIds : Nat → String} {now : Int} {op : Operation}
    {cancelled : List Operation} {replayed : Bool} {d : Database}
    (h : (createBlock (syncRequest artifact targetId) .running true opId auditIds now).eval db =
      .ok ((op, cancelled, replayed), d)) : Opened db op d := by
  have single : repeatOf db (syncRequest artifact targetId) true = none := by simp [repeatOf]
  obtain ⟨-, -, -, replays⟩ | ⟨-, -, victims, s, code, -, rfl, -, -, hnew, -, hd⟩ :=
    createBlock_ok keyed.unique h
  · cases replays with
    | byKey key hkey => cases hkey
    | repeated _ repeated =>
      rw [single] at repeated
      cases repeated
  obtain ⟨-, repeated, -⟩ | ⟨-, -, -, remains, stage, -⟩ := createBlock_stage keyed named rfl h
  · rw [single] at repeated
    cases repeated
  have mem : newOperation (syncRequest artifact targetId) opId s now ∈ d.operations := by
    rw [hd]
    exact mem_created.mpr (.inl rfl)
  refine ⟨hnew, rfl, remains rfl, mem, ?_, ?_, ?_, ?_, ?_⟩
  · rw [stage.ids_eq]
    exact stage
  all_goals
    rw [hd]
    rfl

/-- The attempts of a call and its end, from the sync record on. -/
theorem wp_uploads {op : Operation} {d₁ : Database} (opened : Opened db op d₁)
    (unused : UnusedSync db syncId) {row : SyncRecord} (own : row.syncId = syncId)
    (owner : row.operationId = op.opId) {targetId path : String} :
    wp Scope.transport (fun r y => ∃ outcomes d l, r = .ok syncId ∧ y = ⟨.closed d, log ++ l⟩ ∧
        Timeline db row.artifactId syncId outcomes d l)
      ((attempts syncId targetId path syncTransientRetries 1).bind (finish svc syncId op.opId))
      ⟨.closed (addRecord d₁ row), log⟩ := by
  have ready : Ready syncId 1 (addRecord d₁ row) := by
    refine ⟨by simp [addRecord, own], ?_⟩
    intro a ha hown
    have earlier : a ∈ db.syncAttempts := opened.attempts ▸ ha
    exact absurd hown (unused.2 a earlier).2
  refine wp_seq (wp_attempts 2 rfl ready) ?_ ?_
  · rintro succeeded y ⟨rows, outcomes, l, tried⟩
    obtain ⟨rfl⟩ := tried.result
    rw [tried.state]
    have stage : Stage (d₁.operations.map (·.opId)) op.opId op.status
        (addAttempts (addRecord d₁ row) rows) := opened.stage.congr rfl fun _ => rfl
    refine wp_mono (wp_finish stage opened.waits _) ?_
    rintro r y ⟨d, l', now, last, rfl, rfl, quiet, done⟩
    refine ⟨outcomes, d, l ++ l', rfl, by rw [List.append_assoc], ?_⟩
    have rows_eq := filter_attempts (fun a ha => (unused.2 a ha).2) tried.numbered
    have attempts_eq : d.syncAttempts = db.syncAttempts ++ rows := by
      rw [done.attempts, ← opened.attempts]
      rfl
    refine ⟨tried.course, ?_, ?_, ?_, ?_, ?_, ?_⟩
    · rw [List.filterMap_append, tried.happened, quiet, List.append_nil, List.drop_zero]
    · rw [attemptsOf, attempts_eq, rows_eq.1]
      exact tried.numbered.numbers
    · rw [attemptsOf, attempts_eq, rows_eq.1]
      exact tried.numbered.outcomes_eq
    · rw [attempts_eq, rows_eq.2]
    · obtain ⟨old, hold, hid, hlast, htype⟩ := done.advanced
      obtain rfl := nodup_key_inj opened.stage.keyed.unique hold opened.mem hid
      have fresh : ∀ r ∈ d₁.syncRecords, r.syncId ≠ syncId := opened.records ▸ unused.1
      have closed := closeRecord_new fresh own fun row => { row with
        status := if successful outcomes then .succeeded else .failed, finishedAt := some now }
      refine ⟨{ row with
        status := if successful outcomes then .succeeded else .failed, finishedAt := some now },
        last, ?_, own, rfl, ?_, ?_, ?_, rfl, done.status⟩
      · rw [done.records, ← opened.records]
        exact closed
      · rw [owner]
        exact done.found
      · rw [htype]
        exact opened.sync
      · rw [hlast]
        exact opened.new
    · rw [done.artifacts]
      exact opened.artifacts
  · rintro e y ⟨rows, outcomes, l, tried⟩
    cases tried.result

/-- A call that has passed its checks. -/
theorem wp_transfer (keyed : db.Keyed) {artifact : BackupArtifact} {targetId : String}
    (stored : db.hasArtifact artifact.artifactId = true)
    (placed : references artifact.worldId db.hasWorld = true)
    (target : (db.versioned? .syncTargets targetId).isSome = true) :
    wp Scope.transport (fun r y => ∃ sync outcomes d l, r = .ok sync ∧ y = ⟨.closed d, log ++ l⟩ ∧
        Timeline db artifact.artifactId sync outcomes d l)
      (transfer svc artifact targetId) ⟨.closed db, log⟩ := by
  unfold transfer
  simp only [Program.bind_eq]
  refine wp_draw_bind fun at' _ => ?_
  rw [wp_bind]
  refine wp_create ?_ ?_ fun φ h => h.elim
  · intro opId auditIds now op cancelled replayed d₁ hopId h
    refine ⟨?_, fun φ h => h.elim⟩
    have opened := opened_create keyed hopId.1.1 h
    dsimp only
    refine wp_draw_bind fun syncId hsyncId => ?_
    have new : UnusedSync db syncId := by
      have := hsyncId.2
      rwa [NewDraw, UnusedSync, Connection.view_closed, opened.records, opened.attempts] at this
    rw [wp_bind]
    refine wp_autocommit ?_ ?_ fun φ _ h => h.elim
    · intro d₂ n h₂
      obtain ⟨-, rfl, -⟩ := satisfying_ok.mp h₂
      dsimp only
      refine wp_mono (wp_uploads opened new rfl rfl) ?_
      rintro r y ⟨outcomes, d, l, rfl, rfl, timeline⟩
      refine ⟨syncId, outcomes, d, [.committed .create, .committed .syncRecord] ++ l, rfl, ?_, ?_⟩
      · simp
      · exact timeline.after rfl
    · intro e h₂
      have stored : ∃ r, Store.apply (Stmt.insertSyncRecord ⟨syncId, artifact.artifactId, targetId,
          op.opId, .pending, at', none, at'⟩) d₁ = .ok r := by
        refine ⟨_, satisfying_ok.mpr ⟨?_, rfl, rfl⟩⟩
        simp only [List.mem_cons, List.not_mem_nil, or_false, forall_eq_or_imp, forall_eq]
        refine ⟨?_, ?_, ?_, hasOperation_iff.mpr (List.mem_map.mpr ⟨op, opened.mem, rfl⟩)⟩
        · rw [opened.records]
          simpa using new.1
        · rw [Database.hasArtifact, opened.artifacts]
          exact stored
        · rw [Database.versioned?, opened.versioned]
          exact target
      obtain ⟨r, hr⟩ := stored
      rw [hr] at h₂
      cases h₂
  · intro opId auditIds now e hopId h
    have unused : db.hasOperation opId = false := by
      have := hopId.1.2
      simp only [Database.unused, Bool.and_eq_true, Bool.not_eq_true'] at this
      exact this.1.1.1.1
    have keyless : (syncRequest artifact targetId).idempotencyKey = none := rfl
    obtain ⟨r, hr⟩ := createBlock_unchecked_total keyless unused placed rfl rfl .running auditIds now
    rw [hr] at h
    cases h

/-- A call that its checks refuse leaves the committed rows alone and uploads nothing. -/
def Refused (db : Database) (log : Log) (y : Session) : Prop :=
  y.conn.committed = db ∧ ∃ l, y.log = log ++ l ∧ l.filterMap happening? = []

theorem wp_getBytesTransferredToday {Q : Except Exn Int → Session → Prop}
    (done : ∀ n, Q (.ok n) ⟨.closed db, log⟩) :
    wp Scope.transport Q getBytesTransferredToday ⟨.closed db, log⟩ := by
  unfold getBytesTransferredToday
  simp only [Program.bind_eq]
  refine wp_draw_bind fun at' _ => ?_
  exact wp_read (done _) fun φ h => h.elim

/-- Resolving a target finds it, or makes it beside the other rows. -/
theorem wp_resolveTarget {targetId : String} {Q : Except Exn String → Session → Prop}
    (done : ∀ versioned l,
      ((withVersioned db versioned).versioned? .syncTargets targetId).isSome = true →
      l.filterMap happening? = [] → Q (.ok targetId) ⟨.closed (withVersioned db versioned), log ++ l⟩)
    (refused : ∀ e y, Refused db log y → Q (.error e) y) :
    wp Scope.transport Q (resolveTarget targetId) ⟨.closed db, log⟩ := by
  unfold resolveTarget
  simp only [Program.bind_eq]
  rw [wp_bind]
  refine wp_read ?_ fun φ h => h.elim
  dsimp only [Connection.closed]
  split
  · rename_i row hrow
    split
    · exact refused _ _ ⟨rfl, [], by simp, rfl⟩
    · have found : (db.versioned? .syncTargets targetId).isSome = true := by
        obtain ⟨hrow, -⟩ := Option.filter_eq_some_iff.mp hrow
        rw [hrow]
        rfl
      have := done db.versioned [] found rfl
      rwa [List.append_nil] at this
  · rw [wp_bind]
    refine wp_read ?_ fun φ h => h.elim
    dsimp only [Connection.closed]
    split
    · exact refused _ _ ⟨rfl, [], by simp, rfl⟩
    · rename_i secret hsecret
      refine wp_draw_bind fun createdAt _ => wp_draw_bind fun updatedAt _ => ?_
      rw [wp_bind]
      refine wp_autocommit ?_ ?_ fun φ _ h => h.elim
      · intro d n h
        obtain ⟨-, rfl, -⟩ := satisfying_ok.mp h
        refine done _ [_] ?_ rfl
        rw [Database.versioned?, withVersioned, List.find?_isSome]
        exact ⟨_, List.mem_append.mpr (.inr (List.mem_singleton.mpr rfl)), by simp⟩
      · intro e h
        exact refused _ _ ⟨rfl, [], by simp, rfl⟩

end Dispatch

/-- An artifact of the world `w`, and a secret for the transport. -/
def uploading : Database :=
  { Database.single .off with
    secrets := [⟨"s", "sync", "sync_target", "t", 0⟩]
    operations := [newOperation ⟨.backup, .system, some "w", none, none, none, none⟩ "o" .completed 0]
    artifacts := [⟨"a", some "w", "manual", "a.zip", "", false, "o", none, none, 0, 0⟩] }

/-- Ids by the number of the step, and a transport that never answers. -/
def Env.unreachable : Env
  | n, _, .draw (.uuid kind) => kind ++ toString n
  | _, _, .ask (.upload _ _) => .error (.host "timeout")
  | n, x, m => Env.smooth "" n x m

example : (run Env.unreachable (dispatchSync ⟨false, false⟩ "a" "t") ⟨.closed uploading, []⟩).2.log.filterMap
    happening? = [.upload .failedTransient, .wait 30, .upload .failedTransient, .wait 60,
      .upload .failedTransient] := by
  decide +kernel

end McManager.Sync
