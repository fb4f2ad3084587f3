import Mathlib.Algebra.Order.Ring.Int
import McManager.Services.Environment
import McManager.Services.Scheduler

namespace McManager

open Framework

/-- The instants at which a schedule is due since it last changed. -/
def Schedule.Due (s : Schedule) (e : Int) : Prop :=
  s.lastChangedAt < e ∧
    match s.everyDays with
    | some days => ∃ k : Int, e = s.lastChangedAt + k * (max 1 (days : Int) * 86400)
    | none => ∃ day : Int, e = day * 86400 + s.timeOfDay

/-- What the API lets into the table. -/
structure Schedule.Valid (s : Schedule) : Prop where
  type : s.scheduleType ∈ ["backup", "cleanup", "maintenance"]
  time : 0 ≤ s.timeOfDay ∧ s.timeOfDay < 86400

namespace Scheduler

section Instants

variable {s : Schedule} {t e : Int}

/-- No multiple of a period lies between `x / p * p` and `x`. -/
theorem mul_le_floor {p x k : Int} (hp : 0 < p) (h : k * p ≤ x) : k * p ≤ x / p * p :=
  mul_le_mul_of_nonneg_right ((Int.le_ediv_iff_mul_le hp).mpr h) hp.le

theorem expectedRunAt_some (valid : s.Valid) (h : expectedRunAt s t = some e) :
    s.Due e ∧ e ≤ t ∧ ∀ e', s.Due e' → e' ≤ t → e' ≤ e := by
  unfold expectedRunAt at h
  unfold Schedule.Due
  cases hdays : s.everyDays with
  | some days =>
    simp only [hdays] at h ⊢
    split at h
    · cases h
    rename_i helapsed
    simp only [secondsPerDay] at h helapsed
    generalize hperiod : max 1 (days : Int) * 86400 = period at h helapsed ⊢
    have hpos : 0 < period := by
      have : 1 ≤ max 1 (days : Int) := le_max_left _ _
      omega
    have hfloor : (t - s.lastChangedAt) / period * period ≤ t - s.lastChangedAt :=
      Int.ediv_mul_le _ hpos.ne'
    have hfirst : 1 * period ≤ (t - s.lastChangedAt) / period * period :=
      mul_le_floor hpos (by omega)
    cases h
    refine ⟨⟨by omega, _, rfl⟩, by omega, ?_⟩
    rintro e' ⟨-, k, rfl⟩ hle
    have := mul_le_floor (k := k) (x := t - s.lastChangedAt) hpos (by omega)
    omega
  | none =>
    obtain ⟨-, hlow, hhigh⟩ := valid
    simp only [hdays] at h ⊢
    by_cases hlater : t < t / secondsPerDay * secondsPerDay + s.timeOfDay
    · rw [if_pos hlater] at h
      split at h
      · cases h
      cases h
      simp only [secondsPerDay] at *
      refine ⟨⟨by omega, t / 86400 - 1, by omega⟩, by omega, ?_⟩
      rintro e' ⟨-, day, rfl⟩ hle
      omega
    · rw [if_neg hlater] at h
      split at h
      · cases h
      cases h
      simp only [secondsPerDay] at *
      refine ⟨⟨by omega, t / 86400, by omega⟩, by omega, ?_⟩
      rintro e' ⟨-, day, rfl⟩ hle
      omega

theorem expectedRunAt_none (valid : s.Valid) (h : expectedRunAt s t = none) (hdue : s.Due e) :
    t < e := by
  unfold expectedRunAt at h
  unfold Schedule.Due at hdue
  cases hdays : s.everyDays with
  | some days =>
    simp only [hdays] at h hdue
    split at h
    · rename_i helapsed
      simp only [secondsPerDay] at helapsed
      generalize hperiod : max 1 (days : Int) * 86400 = period at helapsed hdue
      have hpos : 0 < period := by
        have : 1 ≤ max 1 (days : Int) := le_max_left _ _
        omega
      obtain ⟨hafter, k, rfl⟩ := hdue
      have hk : 0 < k := by
        by_contra hk
        have := mul_nonpos_of_nonpos_of_nonneg (not_lt.mp hk) hpos.le
        omega
      have := mul_le_mul_of_nonneg_right (Int.add_one_le_iff.mpr hk) hpos.le
      omega
    · cases h
  | none =>
    obtain ⟨-, hlow, hhigh⟩ := valid
    simp only [hdays] at h hdue
    obtain ⟨hafter, day, rfl⟩ := hdue
    by_cases hlater : t < t / secondsPerDay * secondsPerDay + s.timeOfDay
    · rw [if_pos hlater] at h
      split at h
      · simp only [secondsPerDay] at *
        omega
      · cases h
    · rw [if_neg hlater] at h
      split at h
      · simp only [secondsPerDay] at *
        omega
      · cases h

/-- The scheduler computes the last due instant. -/
theorem expectedRunAt_eq_some (valid : s.Valid) :
    expectedRunAt s t = some e ↔ s.Due e ∧ e ≤ t ∧ ∀ e', s.Due e' → e' ≤ t → e' ≤ e := by
  constructor
  · exact expectedRunAt_some valid
  · rintro ⟨hdue, hle, hlast⟩
    cases hexpected : expectedRunAt s t with
    | none =>
      have := expectedRunAt_none valid hexpected hdue
      omega
    | some e' =>
      obtain ⟨hdue', hle', hlast'⟩ := expectedRunAt_some valid hexpected
      rw [le_antisymm (hlast e' hdue' hle') (hlast' e hdue hle)]

end Instants

section Keys

theorem repr_toList (n : Nat) : n.repr.toList = Nat.toDigits 10 n := Nat.toList_repr

theorem colon_notMem_repr (n : Nat) : ':' ∉ n.repr.toList := by
  intro h
  rw [repr_toList] at h
  have hdigit := Nat.isDigit_of_mem_toDigits (by decide) (by decide) h
  exact absurd hdigit (by decide)

theorem repr_injective {n m : Nat} (h : n.repr.toList = m.repr.toList) : n = m := by
  rw [repr_toList, repr_toList] at h
  rw [← Nat.ofDigitChars_ten_toDigits (n := n), h, Nat.ofDigitChars_ten_toDigits]

theorem colon_notMem_toString (e : Int) : ':' ∉ (toString e).toList := by
  cases e with
  | ofNat n => exact colon_notMem_repr n
  | negSucc n =>
    intro h
    have hrepr : (toString (Int.negSucc n)).toList = '-' :: (n + 1).repr.toList := by
      change ("-" ++ (n + 1).repr).toList = _
      simp
    rw [hrepr] at h
    rcases List.mem_cons.mp h with h | h
    · exact absurd h (by decide)
    · exact colon_notMem_repr _ h

theorem minus_notMem_repr (n : Nat) : '-' ∉ n.repr.toList := by
  intro h
  rw [repr_toList] at h
  have hdigit := Nat.isDigit_of_mem_toDigits (by decide) (by decide) h
  exact absurd hdigit (by decide)

theorem toString_injective {e e' : Int} (h : (toString e).toList = (toString e').toList) :
    e = e' := by
  have negative : ∀ n, (toString (Int.negSucc n)).toList = '-' :: (n + 1).repr.toList := by
    intro n
    change ("-" ++ (n + 1).repr).toList = _
    simp
  cases e with
  | ofNat n =>
    cases e' with
    | ofNat m => exact congrArg Int.ofNat (repr_injective h)
    | negSucc m =>
      rw [negative] at h
      change n.repr.toList = _ at h
      exact absurd (h ▸ List.mem_cons_self) (minus_notMem_repr n)
  | negSucc n =>
    cases e' with
    | ofNat m =>
      rw [negative] at h
      change _ = m.repr.toList at h
      exact absurd (h ▸ List.mem_cons_self) (minus_notMem_repr m)
    | negSucc m =>
      rw [negative, negative, List.cons.injEq] at h
      have := repr_injective h.2
      rw [Int.negSucc.injEq]
      omega

/-- A text ends with its last separator and what follows. -/
theorem append_separator_inj {α : Type} {c : α} {l l' x x' : List α} (hx : c ∉ x) (hx' : c ∉ x')
    (h : l ++ c :: x = l' ++ c :: x') : l = l' ∧ x = x' := by
  rcases List.append_eq_append_iff.mp h with ⟨a, hl, hrest⟩ | ⟨a, hl, hrest⟩
  · cases a with
    | nil => simpa [hl] using hrest
    | cons d a =>
      rw [List.cons_append, List.cons.injEq] at hrest
      exact absurd (hrest.2 ▸ List.mem_append_right _ List.mem_cons_self) hx
  · cases a with
    | nil => simpa [hl] using hrest.symm
    | cons d a =>
      rw [List.cons_append, List.cons.injEq] at hrest
      exact absurd (hrest.2 ▸ List.mem_append_right _ List.mem_cons_self) hx'

/-- The key of a run tells the schedule and the instant. -/
theorem runKey_inj {id id' : String} {e e' : Int} :
    runKey id e = runKey id' e' ↔ id = id' ∧ e = e' := by
  constructor
  · intro h
    have hlist := congrArg String.toList h
    simp only [runKey, String.toList_append, List.append_assoc, List.append_cancel_left_eq] at hlist
    have hcolon : ":".toList = [':'] := rfl
    rw [hcolon, List.singleton_append, List.singleton_append] at hlist
    obtain ⟨hid, he⟩ := append_separator_inj (colon_notMem_toString e) (colon_notMem_toString e')
      hlist
    exact ⟨String.toList_inj.mp hid, toString_injective he⟩
  · rintro ⟨rfl, rfl⟩
    rfl

end Keys

/-- An operation of the scope keeps the scheduler from starting another one there. -/
def scopeBusy (db : Database) (worldId : Option String) : Bool :=
  db.operations.any fun op => op.worldId == worldId && op.inFlight &&
    (op.opType == .backup || op.opType == .restore || op.opType == .cleanup ||
      worldId.isSome && !op.opType.runtime)

/-- What the scheduler's tables say: for each schedule and instant the runs that were started and
those recorded as missed, and which scopes are busy. -/
structure Ledger where
  started : String → Int → Nat
  missed : String → Int → Nat
  busy : Option String → Bool

def ledger (db : Database) : Ledger where
  started id e := db.operations.countP fun op => op.idempotencyKey == some (runKey id e)
  missed id e := db.missedRuns.countP fun r => r.scheduleId == id && r.expectedRunAt == e
  busy := scopeBusy db

@[simp] theorem ledger_busy (db : Database) : (ledger db).busy = scopeBusy db := rfl

namespace Ledger

def start (l : Ledger) (s : Schedule) (e : Int) : Ledger where
  started id i := l.started id i + if id = s.scheduleId ∧ i = e then 1 else 0
  missed := l.missed
  busy worldId := l.busy worldId || worldId == s.worldId

def miss (l : Ledger) (s : Schedule) (e : Int) : Ledger where
  started := l.started
  missed id i := l.missed id i + if id = s.scheduleId ∧ i = e then 1 else 0
  busy := l.busy

/-- What one round of a tick makes of the tables. -/
def round (t : Int) (l : Ledger) (s : Schedule) : Ledger :=
  match expectedRunAt s t with
  | none => l
  | some e =>
    if l.started s.scheduleId e ≠ 0 ∨ l.missed s.scheduleId e ≠ 0 then l
    else if (operationTypeFor s.scheduleType).isNone || l.busy s.worldId then l.miss s e
    else l.start s e

end Ledger

/-- The constraints of the schema on schedules. -/
structure Tabled (db : Database) : Prop where
  unique : (db.schedules.map (·.scheduleId)).Nodup
  placed : ∀ s ∈ db.schedules, references s.worldId db.hasWorld = true

/-- In a tick at `time` the database answers, and ids are new. -/
def ticking (time : Int) : Scope where
  fails _ _ := False
  answers _ _ _ := True
  draws x q a := match q, a with
    | .now, a => a = time
    | .uuid _, id => x.conn.view.unused id = true ∧
        (x.conn.view.missedRuns.any (·.missedRunId == id)) = false
    | _, _ => True

/-- A text longer than every id in use, those of missed runs among them. -/
def newText (db : Database) : String :=
  String.ofList (List.replicate (db.freshId.length +
    (db.missedRuns.map fun r => r.missedRunId.length).sum + 1) 'x')

theorem newText_unused (db : Database) : db.unused (newText db) = true ∧
    (db.missedRuns.any (·.missedRunId == newText db)) = false := by
  have hlength : (newText db).length = db.freshId.length +
      (db.missedRuns.map fun r => r.missedRunId.length).sum + 1 := by
    simp [newText]
  constructor
  · have hnot : newText db ∉ db.ids := by
      intro h
      have hle := List.single_le_sum (fun n _ => Nat.zero_le n) _
        (List.mem_map_of_mem (f := String.length) h)
      rw [hlength, db.freshId_length] at hle
      omega
    simp only [Database.ids, List.mem_append, List.mem_map, not_or, not_exists, not_and] at hnot
    obtain ⟨⟨⟨⟨hop, haudit⟩, hnotification⟩, hsecret⟩, hsession⟩ := hnot
    simp only [Database.unused, Bool.and_eq_true, Bool.not_eq_true', Database.hasOperation,
      Database.hasNotification, Database.hasSecret, List.any_eq_false, beq_iff_eq]
    exact ⟨⟨⟨⟨hop, haudit⟩, hnotification⟩, hsecret⟩, hsession⟩
  · rw [List.any_eq_false]
    intro r hr hid
    rw [beq_iff_eq] at hid
    have hle := List.single_le_sum (fun n _ => Nat.zero_le n) _
      (List.mem_map_of_mem (f := fun r : MissedRun => r.missedRunId.length) hr)
    rw [hid] at hle
    omega

/-- The smooth environment at `time`, with new ids. -/
def tickingEnv (time : Int) : Env
  | _, _, .draw .now => time
  | _, x, .draw (.uuid _) => newText x.conn.view
  | n, x, m => Env.smooth "" n x m

theorem tickingEnv_allowed (time : Int) (n : Nat) (x : Session) (m : Cmd Site Stmt Query) :
    (ticking time).allowed x m (tickingEnv time n x m) := by
  cases m with
  | draw q =>
    cases q with
    | uuid kind => exact newText_unused x.conn.view
    | now => rfl
    | _ => trivial
  | _ => trivial

section Rounds

open Operations

variable {db : Database} {log : Log} {t e : Int} {s : Schedule} {svc : OperationService}

theorem wp_recordMissed {Q : Except Exn Nat → Session → Prop}
    (new : (ledger db).missed s.scheduleId e = 0)
    (done : ∀ n db' log', ledger db' = (ledger db).miss s e → db'.schedules = db.schedules →
      db'.worlds = db.worlds → Q (.ok n) ⟨.closed db', log'⟩) :
    wp (ticking t) Q (recordMissed s.scheduleId e t) ⟨.closed db, log⟩ := by
  have hnone : (db.missedRuns.any fun r =>
      r.scheduleId == s.scheduleId && r.expectedRunAt == e) = false := by
    rw [List.any_eq_false]
    simpa [ledger, List.countP_eq_zero] using new
  unfold recordMissed
  simp only [Program.bind_eq]
  refine wp_draw_bind fun id hid => ?_
  have hunused : (db.missedRuns.any (·.missedRunId == id)) = false := hid.2
  have hstored : Stmt.apply db (.insertMissedRun ⟨id, s.scheduleId, e, t⟩) =
      .ok ({ db with missedRuns := db.missedRuns ++ [⟨id, s.scheduleId, e, t⟩] }, 1) :=
    satisfying_ok.mpr ⟨by simp [hunused], rfl, rfl⟩
  have heval : (recordMissedBlock s.scheduleId e t id).eval db =
      .ok (1, { db with missedRuns := db.missedRuns ++ [⟨id, s.scheduleId, e, t⟩] }) := by
    unfold recordMissedBlock
    simp only [Body.bind_eq, Body.eval_query_bind, hnone, Bool.false_eq_true, if_false,
      Body.eval_write_bind, store_apply, hstored]
    rfl
  refine wp_transactionBare ?_ ?_ fun φ h => h.elim
  · intro n db' h
    rw [heval] at h
    cases h
    refine done 1 _ _ ?_ rfl rfl
    unfold ledger Ledger.miss
    congr 1
    funext i j
    simp only [List.countP_append, List.countP_singleton, Bool.and_eq_true, beq_iff_eq]
    congr 2
    simp only [eq_comm]
  · intro x h
    rw [heval] at h
    cases h

/-- The operation of a scheduled run. -/
def runRequest (s : Schedule) (opType : OperationType) (e : Int) : OperationInput where
  opType
  actorType := .system
  worldId := s.worldId
  idempotencyKey := some (runKey s.scheduleId e)
  data := some { scheduleId := some s.scheduleId, expectedRunAt := some e }

variable {opType : OperationType}

/-- What else runs beside a request that the policy neither refuses nor lets replace anything. -/
theorem applyConflictPolicy_beside {request : OperationInput} {active : List Operation}
    (busy : active ≠ [])
    (single : ((active.any fun op => op.opType == request.opType) &&
      !request.opType.singleFlight) = false)
    (plain : request.opType ≠ .kill ∧ request.opType ≠ .restore) (status : OperationStatus)
    (now : Int) :
    applyConflictPolicy request active status now =
      match statusBeside request active status with
      | .ok status => pure ⟨active, status, []⟩
      | .error e => .raise e := by
  unfold applyConflictPolicy
  rw [if_neg busy, if_neg (by rw [single]; exact Bool.false_ne_true), if_neg fun h => plain.1 h.1]
  dsimp only
  apply (if_neg fun h => plain.2 h.1).trans
  cases statusBeside request active status <;> rfl

/-- The conflict policy refuses a scheduled run exactly where the scope is busy. -/
theorem policy_of_run (known : operationTypeFor s.scheduleType = some opType)
    (clear : hasScheduleConflict db s.worldId = false) {worldId : String}
    (hworld : s.worldId = some worldId) (status : OperationStatus) (now : Int) :
    if scopeBusy db s.worldId then
      ∃ text, applyConflictPolicy (runRequest s opType e) (inFlightOf db worldId) status now =
        .raise (.operationConflict text)
    else applyConflictPolicy (runRequest s opType e) (inFlightOf db worldId) status now =
      pure ⟨inFlightOf db worldId, status, []⟩ := by
  have hother : ∀ op ∈ inFlightOf db worldId,
      op.opType ≠ .backup ∧ op.opType ≠ .restore ∧ op.opType ≠ .cleanup := by
    intro op hop
    obtain ⟨hmem, hworld', hopen⟩ := mem_inFlightOf.mp hop
    simp only [hasScheduleConflict, List.any_eq_false] at clear
    have := clear op hmem
    simpa [hworld, hworld', hopen, and_assoc] using this
  have hbusy : scopeBusy db s.worldId =
      (inFlightOf db worldId).any fun op => !op.opType.runtime := by
    rw [Bool.eq_iff_iff, scopeBusy, List.any_eq_true, List.any_eq_true]
    constructor
    · rintro ⟨op, hmem, hop⟩
      simp only [hworld, Bool.and_eq_true, beq_iff_eq, Bool.or_eq_true] at hop
      have hin : op ∈ inFlightOf db worldId := mem_inFlightOf.mpr ⟨hmem, hop.1.1, hop.1.2⟩
      refine ⟨op, hin, ?_⟩
      obtain ⟨hbackup, hrestore, hcleanup⟩ := hother op hin
      simpa [hbackup, hrestore, hcleanup] using hop.2
    · rintro ⟨op, hin, hop⟩
      obtain ⟨hmem, hworld', hopen⟩ := mem_inFlightOf.mp hin
      refine ⟨op, hmem, ?_⟩
      simp only [Bool.not_eq_true'] at hop
      simp [hworld, hworld', hopen, hop]
  have hkind : opType = .backup ∨ opType = .cleanup := by
    unfold operationTypeFor at known
    split at known <;> simp_all
  have hbackup : (OperationType.backup ∈ (inFlightOf db worldId).map (·.opType)) = False := by
    simpa using fun op hop h => (hother op hop).1 h
  have hcleanup : ∀ scope : Option String, ((inFlightOf db worldId).any fun op =>
      op.opType == .cleanup && scope.isSome && cleanupScope op.worldId op.data == scope) =
        false := by
    intro scope
    rw [List.any_eq_false]
    intro op hop
    simp [(hother op hop).2.2]
  have hrest : ∀ kind : OperationType, kind = .backup ∨ kind = .cleanup →
      ((inFlightOf db worldId).map (·.opType)).any (fun t => !t.runtime && t != kind) =
        (inFlightOf db worldId).any fun op => !op.opType.runtime := by
    intro kind hkind
    rw [List.any_map, Bool.eq_iff_iff, List.any_eq_true, List.any_eq_true]
    refine exists_congr fun op => and_congr_right fun hop => ?_
    obtain ⟨hbackup, -, hcleanup⟩ := hother op hop
    rcases hkind with rfl | rfl <;> simp [hbackup, hcleanup]
  have hsingle : (((inFlightOf db worldId).any fun op => op.opType == opType) &&
      !opType.singleFlight) = false := by
    rcases hkind with rfl | rfl <;> simp [OperationType.singleFlight]
  have hplain : opType ≠ .kill ∧ opType ≠ .restore := by
    rcases hkind with rfl | rfl <;> exact ⟨nofun, nofun⟩
  have hbeside : statusBeside (runRequest s opType e) (inFlightOf db worldId) status =
      if (inFlightOf db worldId).any fun op => !op.opType.runtime then
        .error (conflictsInFlight (runRequest s opType e))
      else .ok status := by
    rcases hkind with rfl | rfl
    · have hrest' := hrest .backup (.inl rfl)
      unfold statusBeside
      dsimp only [runRequest]
      rw [hrest']
      simp only [hbackup, if_false]
    · have hrest' := hrest .cleanup (.inr rfl)
      have hcleanup' := hcleanup (cleanupScope s.worldId
        (some { scheduleId := some s.scheduleId, expectedRunAt := some e }))
      unfold statusBeside
      dsimp only [runRequest]
      rw [hrest', hcleanup', if_neg Bool.false_ne_true]
  rw [hbusy]
  by_cases hnil : inFlightOf db worldId = []
  · unfold applyConflictPolicy
    simp only [hnil, List.any_nil, Bool.false_eq_true, if_false, if_true]
  · rw [applyConflictPolicy_beside hnil hsingle hplain, hbeside]
    cases (inFlightOf db worldId).any fun op => !op.opType.runtime with
    | true => exact ⟨_, rfl⟩
    | false => rfl

theorem createBlock_run (known : operationTypeFor s.scheduleType = some opType)
    (new : (ledger db).started s.scheduleId e = 0)
    (clear : hasScheduleConflict db s.worldId = false)
    (placed : references s.worldId db.hasWorld = true) {opId : String}
    (unused : db.hasOperation opId = false) (auditIds : Nat → String) (now : Int) :
    if scopeBusy db s.worldId then
      ∃ text, (createBlock (runRequest s opType e) .queued false opId auditIds now).eval db =
        .error (.operationConflict text)
    else ∃ op, op = newOperation (runRequest s opType e) opId .queued now ∧
      (createBlock (runRequest s opType e) .queued false opId auditIds now).eval db =
        .ok ((op, [], false), { db with operations := db.operations ++ [op] }) := by
  have hkind : opType = .backup ∨ opType = .cleanup := by
    unfold operationTypeFor at known
    split at known <;> simp_all
  have hkeys : ∀ op ∈ db.operations, op.idempotencyKey ≠ some (runKey s.scheduleId e) := by
    simpa [ledger, List.countP_eq_zero] using new
  have hexisting : (db.operations.find? fun op => op.opType == (runRequest s opType e).opType &&
      op.idempotencyKey == (runRequest s opType e).idempotencyKey) = none := by
    rw [List.find?_eq_none]
    intro op hop
    simp [runRequest, hkeys op hop]
  have hstatus : requestedStatus db (runRequest s opType e) .queued = .queued := by
    rcases hkind with rfl | rfl
    · rfl
    · exact ite_self _
  have hinsert : ∀ active : List Operation,
      (insertAdmitted (runRequest s opType e) ⟨active, .queued, []⟩ opId auditIds now).eval db =
        .ok ((newOperation (runRequest s opType e) opId .queued now, [], false),
          { db with operations :=
              db.operations ++ [newOperation (runRequest s opType e) opId .queued now] }) := by
    intro active
    have htaken : db.keyTaken opType (some (runKey s.scheduleId e)) = false := by
      simp only [Database.keyTaken, Option.isSome_some, Bool.true_and, List.any_eq_false]
      intro op hop
      simp [hkeys op hop]
    have hstored : Stmt.apply db
        (.insertOperation (newOperation (runRequest s opType e) opId .queued now)) =
        .ok ({ db with operations :=
          db.operations ++ [newOperation (runRequest s opType e) opId .queued now] }, 1) := by
      refine satisfying_ok.mpr ⟨?_, rfl, rfl⟩
      simp only [List.mem_cons, List.not_mem_nil, or_false, forall_eq_or_imp, forall_eq,
        newOperation, runRequest]
      exact ⟨by simp [unused], by simp [htaken], placed, rfl, rfl⟩
    unfold insertAdmitted
    simp only [Body.bind_eq, Body.eval_write_bind, store_apply, hstored]
    rfl
  have hkey : (runRequest s opType e).idempotencyKey.isSome = true := rfl
  cases hworld : s.worldId with
  | none =>
    have hcreate : (createBlock (runRequest s opType e) .queued false opId auditIds now).eval db =
        (insertAdmitted (runRequest s opType e) ⟨[], .queued, []⟩ opId auditIds now).eval db := by
      unfold createBlock
      simp only [Body.bind_eq, Body.eval_query_bind, hkey, if_true, hexisting, hstatus]
      simp only [runRequest, hworld, Option.isSome_none, Bool.false_eq_true, false_and, if_false,
        Option.map_none, Option.getD_none]
    have hclear : scopeBusy db none = false := by
      rw [hworld] at clear
      simp only [scopeBusy, Option.isSome_none, Bool.false_and, Bool.or_false]
      exact clear
    rw [hclear, if_neg Bool.false_ne_true, hcreate]
    exact ⟨_, rfl, hinsert []⟩
  | some worldId =>
    have hworld' : (runRequest s opType e).worldId = some worldId := hworld
    have hother : (runRequest s opType e).opType ≠ .sync := by
      intro same
      rcases hkind with rfl | rfl <;> cases same
    have hrepeat : ((inFlightOf db worldId).find? fun op =>
        op.opType == (runRequest s opType e).opType &&
          ((runRequest s opType e).opType == .start ||
            (runRequest s opType e).opType == .stop)) = none := by
      rcases hkind with rfl | rfl <;> simp [runRequest]
    have hcreate : (createBlock (runRequest s opType e) .queued false opId auditIds now).eval db =
        ((applyConflictPolicy (runRequest s opType e) (inFlightOf db worldId) .queued now).bind
          fun a => insertAdmitted (runRequest s opType e) a opId auditIds now).eval db := by
      unfold createBlock
      simp only [Body.bind_eq, Body.eval_query_bind, hkey, if_true, hexisting, hstatus, hworld',
        Option.isSome_some, Option.map_some, Option.getD_some, Bool.not_false, true_and, hother,
        ne_eq, not_false_eq_true, hrepeat]
    have hpolicy := policy_of_run (e := e) known clear hworld .queued now
    rw [hworld] at hpolicy
    split
    · rename_i hbusy
      rw [if_pos hbusy] at hpolicy
      obtain ⟨text, hpolicy⟩ := hpolicy
      rw [hcreate, hpolicy]
      exact ⟨text, rfl⟩
    · rename_i hbusy
      rw [if_neg hbusy] at hpolicy
      rw [hcreate, hpolicy]
      exact ⟨_, rfl, hinsert _⟩

theorem ledger_start {op : Operation} (key : op.idempotencyKey = some (runKey s.scheduleId e))
    (world : op.worldId = s.worldId) (status : op.status = .queued)
    (kind : op.opType = .backup ∨ op.opType = .cleanup) :
    ledger { db with operations := db.operations ++ [op] } = (ledger db).start s e := by
  have hopen : op.inFlight = true := by
    rw [Operation.inFlight, status]
    rfl
  unfold ledger Ledger.start
  congr 1
  · funext id i
    simp only [List.countP_append, List.countP_singleton, key, beq_iff_eq, Option.some.injEq,
      runKey_inj]
    congr 2
    rw [eq_comm (a := id), eq_comm (a := i)]
  · funext worldId
    simp only [scopeBusy, List.any_append, List.any_cons, List.any_nil, Bool.or_false, world, hopen,
      Bool.and_true]
    congr 1
    rcases kind with h | h
    · simp [h, Bool.beq_comm]
    · simp [h, Bool.beq_comm]

/-- A due run is started where the scope is clear, and recorded as missed where it is not. -/
theorem wp_dispatch {Q : Except Exn TickResult → Session → Prop}
    (tabled : references s.worldId db.hasWorld = true)
    (new : (ledger db).started s.scheduleId e = 0 ∧ (ledger db).missed s.scheduleId e = 0)
    (done : ∀ r db' log', ledger db' =
      (if (operationTypeFor s.scheduleType).isNone || (ledger db).busy s.worldId then
        (ledger db).miss s e else (ledger db).start s e) →
      db'.schedules = db.schedules → db'.worlds = db.worlds → Q (.ok r) ⟨.closed db', log'⟩) :
    wp (ticking t) Q (dispatch svc s e t) ⟨.closed db, log⟩ := by
  have missing : ∀ log', ((operationTypeFor s.scheduleType).isNone || (ledger db).busy s.worldId) =
      true → wp (ticking t) Q (do
        let missed ← recordMissed s.scheduleId e t
        pure { due := 1, missed : TickResult }) ⟨.closed db, log'⟩ := by
    intro log' hbusy
    simp only [Program.bind_eq]
    rw [wp_bind]
    refine wp_recordMissed new.2 fun n db' log'' hledger schedules worlds => ?_
    refine done _ db' log'' ?_ schedules worlds
    rw [if_pos hbusy, hledger]
  unfold dispatch
  cases known : operationTypeFor s.scheduleType with
  | none => exact missing log (by simp [known])
  | some opType =>
    simp only [Program.bind_eq]
    rw [wp_bind]
    refine wp_read ?_ fun φ h => h.elim
    dsimp only
    split
    · rename_i hconflict
      refine missing log ?_
      rw [Bool.or_eq_true]
      right
      change hasScheduleConflict db s.worldId = true at hconflict
      rw [hasScheduleConflict, List.any_eq_true] at hconflict
      obtain ⟨op, hop, hsame⟩ := hconflict
      refine List.any_eq_true.mpr ⟨op, hop, ?_⟩
      rw [Bool.and_eq_true] at hsame ⊢
      exact ⟨hsame.1, by simp [hsame.2]⟩
    · rename_i hconflict
      change ¬hasScheduleConflict db s.worldId = true at hconflict
      have hclear : hasScheduleConflict db s.worldId = false := by simpa using hconflict
      have hkind : opType = .backup ∨ opType = .cleanup := by
        unfold operationTypeFor at known
        split at known <;> simp_all
      rw [wp_handle, wp_bind]
      refine wp_create ?_ ?_ fun φ h => h.elim
      · intro opId auditIds now op cancelled replayed db' hid heval
        have hunused : db.hasOperation opId = false := by
          have h := hid.1
          simp only [Database.unused, Bool.and_eq_true, Bool.not_eq_true'] at h
          exact h.1.1.1.1
        have hblock := createBlock_run known new.1 hclear tabled hunused auditIds now
        split at hblock
        · obtain ⟨text, herror⟩ := hblock
          have hsame := heval.symm.trans herror
          cases hsame
        · rename_i hfree
          obtain ⟨new', hnew, hok⟩ := hblock
          have hsame := heval.symm.trans hok
          cases hsame
          refine ⟨done _ _ _ ?_ rfl rfl, fun φ h => h.elim⟩
          rw [if_neg (by simpa [known] using hfree), hnew]
          exact ledger_start rfl rfl rfl hkind
      · intro opId auditIds now x hid heval
        have hunused : db.hasOperation opId = false := by
          have h := hid.1
          simp only [Database.unused, Bool.and_eq_true, Bool.not_eq_true'] at h
          exact h.1.1.1.1
        have hblock := createBlock_run known new.1 hclear tabled hunused auditIds now
        split at hblock
        · rename_i hbusy
          obtain ⟨text, herror⟩ := hblock
          have hsame := heval.symm.trans herror
          cases hsame
          exact missing log (by simpa [known] using hbusy)
        · obtain ⟨new', hnew, hok⟩ := hblock
          have hsame := heval.symm.trans hok
          cases hsame

/-- One round of a tick. -/
theorem wp_tickSchedule {Q : Except Exn TickResult → Session → Prop} (tabled : Tabled db)
    (current : db.schedule? s.scheduleId = some s) (enabled : s.enabled = true)
    (live : s.deletedAt = none)
    (done : ∀ r db' log', ledger db' = (ledger db).round t s → db'.schedules = db.schedules →
      db'.worlds = db.worlds → Q (.ok r) ⟨.closed db', log'⟩) :
    wp (ticking t) Q (tickSchedule svc t s) ⟨.closed db, log⟩ := by
  unfold tickSchedule
  unfold Ledger.round at done
  cases hexpected : expectedRunAt s t with
  | none =>
    rw [hexpected] at done
    exact done _ db log rfl rfl rfl
  | some e =>
    rw [hexpected] at done
    dsimp only at done
    simp only [Program.bind_eq]
    rw [wp_bind]
    refine wp_read ?_ fun φ h => h.elim
    change wp _ _ (if alreadyRun db s.scheduleId e then _ else _) _
    have hrun : alreadyRun db s.scheduleId e = true ↔
        (ledger db).started s.scheduleId e ≠ 0 ∨ (ledger db).missed s.scheduleId e ≠ 0 := by
      simp only [alreadyRun, ledger, Bool.or_eq_true, ne_eq, List.countP_eq_zero, not_forall,
        not_not, List.any_eq_true, exists_prop, or_comm]
    by_cases hdone : alreadyRun db s.scheduleId e = true
    · rw [if_pos hdone]
      refine done _ db log ?_ rfl rfl
      rw [if_pos (hrun.mp hdone)]
    · rw [if_neg hdone, wp_bind]
      refine wp_read ?_ fun φ h => h.elim
      have hcurrent : ((db.schedule? s.scheduleId).filter fun s =>
          s.enabled && s.deletedAt.isNone) = some s := by
        rw [current, Option.filter_some, if_pos (by simp [enabled, live])]
      dsimp only [Session.conn, Connection.closed]
      rw [hcurrent]
      dsimp only
      rw [if_neg (not_not.mpr hexpected)]
      have hnew := mt hrun.mpr hdone
      rw [if_neg hnew] at done
      rw [not_or, not_not, not_not] at hnew
      have hmem : s ∈ db.schedules := List.mem_of_find?_eq_some current
      exact wp_dispatch (tabled.placed s hmem) hnew done

/-- The rounds of a tick make of the tables what the ledger says. -/
theorem wp_tickRounds {Q : Except Exn TickResult → Session → Prop} (schedules : List Schedule)
    (tabled : Tabled db)
    (current : ∀ s ∈ schedules, s ∈ db.schedules ∧ s.enabled = true ∧ s.deletedAt = none)
    (done : ∀ r db' log', ledger db' = schedules.foldl (Ledger.round t) (ledger db) →
      db'.schedules = db.schedules → db'.worlds = db.worlds → Q (.ok r) ⟨.closed db', log'⟩) :
    wp (ticking t) Q (tickRounds svc t schedules) ⟨.closed db, log⟩ := by
  induction schedules generalizing db log Q with
  | nil => exact done _ db log rfl rfl rfl
  | cons s rest ih =>
    obtain ⟨hmem, enabled, live⟩ := current s List.mem_cons_self
    have hfind : db.schedule? s.scheduleId = some s := find?_key tabled.unique hmem
    unfold tickRounds
    simp only [Program.bind_eq]
    rw [wp_bind]
    refine wp_tickSchedule tabled hfind enabled live fun r db₁ log₁ hledger hschedules hworlds => ?_
    dsimp only
    have htabled : Tabled db₁ := by
      have hhas : db₁.hasWorld = db.hasWorld := by
        funext id
        rw [Database.hasWorld, Database.hasWorld, hworlds]
      refine ⟨hschedules ▸ tabled.unique, ?_⟩
      rw [hschedules, hhas]
      exact tabled.placed
    rw [wp_bind]
    refine ih htabled (fun s hs => ?_) fun r' db₂ log₂ hledger' hschedules' hworlds' => ?_
    · rw [hschedules]
      exact current s (List.mem_cons_of_mem _ hs)
    · refine done _ db₂ log₂ ?_ (hschedules'.trans hschedules) (hworlds'.trans hworlds)
      rw [List.foldl_cons, ← hledger, hledger']

/-- A whole tick. -/
theorem wp_tick {Q : Except Exn TickResult → Session → Prop} (tabled : Tabled db)
    (done : ∀ r db' log', ledger db' = (enabledSchedules db).foldl (Ledger.round t) (ledger db) →
      db'.schedules = db.schedules → db'.worlds = db.worlds → Q (.ok r) ⟨.closed db', log'⟩) :
    wp (ticking t) Q (tick svc) ⟨.closed db, log⟩ := by
  unfold tick
  simp only [Program.bind_eq]
  refine wp_draw_bind fun time htime => ?_
  have htime : time = t := htime
  subst htime
  rw [wp_bind]
  refine wp_read ?_ fun φ h => h.elim
  refine wp_tickRounds (enabledSchedules db) tabled (fun s hs => ?_) done
  have hmem := (List.mem_insertionSort _).mp hs
  rw [List.mem_filter, Bool.and_eq_true, Option.isNone_iff_eq_none] at hmem
  exact hmem

end Rounds

end Scheduler

end McManager
