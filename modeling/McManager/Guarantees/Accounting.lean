import McManager.Services.ScheduleLedger

namespace McManager.Scheduler

open Framework

/-- `tick_interval_seconds`. -/
def tickIntervalSeconds : Int := 30

/-- One tick: the clock, and the database before and after it. -/
structure Tick where
  time : Int
  before : Database
  after : Database

/-- The tick has run on its own, in some environment in which the database answers. -/
def Ticked (svc : OperationService) (k : Tick) : Prop :=
  ∃ env log, (∀ n x m, (ticking k.time).allowed x m (env n x m)) ∧
    (run env (tick svc) ⟨.closed k.before, log⟩).2.conn = .closed k.after

/-- The schedule stands in the table, enabled and unchanged. -/
structure Standing (s : Schedule) (db : Database) : Prop where
  tabled : Tabled db
  listed : s ∈ db.schedules
  enabled : s.enabled = true
  live : s.deletedAt = none

/-- How often a run was started and recorded as missed. -/
def records (s : Schedule) (db : Database) (e : Int) : Nat × Nat :=
  ((ledger db).started s.scheduleId e, (ledger db).missed s.scheduleId e)

/-- No operation of the scope, nor one an earlier schedule starts in this tick, is in the way
when the tick comes to the schedule. -/
def clearAt (db : Database) (time : Int) (s : Schedule) : Bool :=
  !(((enabledSchedules db).takeWhile fun r => r.scheduleId ≠ s.scheduleId).foldl
    (Ledger.round time) (ledger db)).busy s.worldId

/-- The record a due instant is to get at the first tick that finds it: a started run if the tick
comes within the interval and the scope is clear, and a missed one otherwise. -/
def owed (s : Schedule) (k : Tick) (e : Int) : Nat × Nat :=
  if k.time - e ≤ tickIntervalSeconds ∧ clearAt k.before k.time s then (1, 0) else (0, 1)

/-- The time up to which the schedule has been looked after; the last tick stands first. -/
def lookedAfter (s : Schedule) : List Tick → Int
  | [] => s.lastChangedAt
  | k :: _ => k.time

def lastDatabase (start : Database) : List Tick → Database
  | [] => start
  | k :: _ => k.after

/-- Ticks at times that never decrease. In between the database changes as it likes, except for
the schedule and the records of its runs. -/
def Watched (svc : OperationService) (s : Schedule) (start : Database) : List Tick → Prop
  | [] => ∀ e, s.lastChangedAt < e → records s start e = (0, 0)
  | k :: earlier => Watched svc s start earlier ∧ lookedAfter s earlier ≤ k.time ∧
      Standing s k.before ∧ records s k.before = records s (lastDatabase start earlier) ∧
      Ticked svc k

/-- The first tick at or after an instant. -/
def firstTick (e : Int) : List Tick → Option Tick
  | [] => none
  | k :: earlier => if e ≤ k.time then (firstTick e earlier).or (some k) else none

/-- Every due instant up to the last tick has the one record it is to get. -/
def Accounted (s : Schedule) (history : List Tick) (db : Database) : Prop :=
  ∀ e k, s.Due e → firstTick e history = some k → records s db e = owed s k e

/-- The tick comes in time: since the schedule was last looked after it was due once at most, and
the tick is within the interval where it starts the run. -/
def Timely (s : Schedule) (since : Int) (k : Tick) : Prop :=
  ∀ e, s.Due e → since < e → e ≤ k.time →
    (∀ e', s.Due e' → since < e' → e' ≤ k.time → e' = e) ∧
      (clearAt k.before k.time s → k.time - e ≤ tickIntervalSeconds)

section Records

variable {s : Schedule} {t e : Int} {l : Ledger}

theorem round_other {r : Schedule} (h : r.scheduleId ≠ s.scheduleId) :
    (l.round t r).started s.scheduleId = l.started s.scheduleId ∧
      (l.round t r).missed s.scheduleId = l.missed s.scheduleId := by
  have hne : s.scheduleId ≠ r.scheduleId := Ne.symm h
  unfold Ledger.round
  split
  · exact ⟨rfl, rfl⟩
  · split
    · exact ⟨rfl, rfl⟩
    · split
      · simp [Ledger.miss, hne]
      · simp [Ledger.start, hne]

theorem rounds_other (schedules : List Schedule)
    (h : ∀ r ∈ schedules, r.scheduleId ≠ s.scheduleId) :
    (schedules.foldl (Ledger.round t) l).started s.scheduleId = l.started s.scheduleId ∧
      (schedules.foldl (Ledger.round t) l).missed s.scheduleId = l.missed s.scheduleId := by
  induction schedules generalizing l with
  | nil => exact ⟨rfl, rfl⟩
  | cons r rest ih =>
    obtain ⟨hstarted, hmissed⟩ := round_other (t := t) (l := l) (h r List.mem_cons_self)
    obtain ⟨hstarted', hmissed'⟩ := ih (l := l.round t r) fun q hq => h q (List.mem_cons_of_mem _ hq)
    exact ⟨hstarted'.trans hstarted, hmissed'.trans hmissed⟩

theorem enabledSchedules_nodup {db : Database} (tabled : Tabled db) :
    ((enabledSchedules db).map (·.scheduleId)).Nodup := by
  have hperm : ((enabledSchedules db).map (·.scheduleId)).Perm
      ((db.schedules.filter fun r => r.enabled && r.deletedAt.isNone).map (·.scheduleId)) :=
    (List.perm_insertionSort _ _).map _
  rw [hperm.nodup_iff]
  exact tabled.unique.sublist (List.filter_sublist.map _)

/-- The tick comes to the schedule once. -/
theorem enabledSchedules_split {db : Database} (standing : Standing s db) :
    ∃ later, enabledSchedules db =
        ((enabledSchedules db).takeWhile fun r => r.scheduleId ≠ s.scheduleId) ++ s :: later ∧
      (∀ r ∈ (enabledSchedules db).takeWhile fun r => r.scheduleId ≠ s.scheduleId,
        r.scheduleId ≠ s.scheduleId) ∧ ∀ r ∈ later, r.scheduleId ≠ s.scheduleId := by
  have hmem : s ∈ enabledSchedules db := by
    rw [enabledSchedules, List.mem_insertionSort, List.mem_filter]
    exact ⟨standing.listed, by simp [standing.enabled, standing.live]⟩
  obtain ⟨earlier, later, hsplit⟩ := List.append_of_mem hmem
  have hnodup := enabledSchedules_nodup standing.tabled
  rw [hsplit, List.map_append, List.map_cons, List.nodup_append] at hnodup
  obtain ⟨-, hrest, hapart⟩ := hnodup
  have hearlier : ∀ r ∈ earlier, r.scheduleId ≠ s.scheduleId := fun r hr =>
    hapart _ (List.mem_map_of_mem hr) _ List.mem_cons_self
  have hlater : ∀ r ∈ later, r.scheduleId ≠ s.scheduleId := fun r hr h =>
    (List.nodup_cons.mp hrest).1 (h ▸ List.mem_map_of_mem hr)
  have htake : ((enabledSchedules db).takeWhile fun r => r.scheduleId ≠ s.scheduleId) = earlier := by
    rw [hsplit, List.takeWhile_append_of_pos (by simpa using hearlier),
      List.takeWhile_cons_of_neg (by simp), List.append_nil]
  rw [htake]
  exact ⟨later, hsplit, hearlier, hlater⟩

theorem round_records (valid : s.Valid) (e : Int) :
    ((l.round t s).started s.scheduleId e, (l.round t s).missed s.scheduleId e) =
      if expectedRunAt s t = some e ∧
          (l.started s.scheduleId e, l.missed s.scheduleId e) = (0, 0) then
        if !l.busy s.worldId then (1, 0) else (0, 1)
      else (l.started s.scheduleId e, l.missed s.scheduleId e) := by
  have hknown : (operationTypeFor s.scheduleType).isNone = false := by
    have h := valid.type
    simp only [List.mem_cons, List.not_mem_nil, or_false] at h
    rcases h with h | h | h <;> rw [h] <;> rfl
  unfold Ledger.round
  cases hexpected : expectedRunAt s t with
  | none => simp
  | some i =>
    by_cases hie : i = e
    · subst hie
      by_cases hdone : l.started s.scheduleId i ≠ 0 ∨ l.missed s.scheduleId i ≠ 0
      · have hrecorded : ¬(l.started s.scheduleId i, l.missed s.scheduleId i) = (0, 0) := by
          rw [Prod.mk.injEq]
          omega
        rw [if_neg fun h => hrecorded h.2]
        simp [hdone]
      · rw [not_or, not_not, not_not] at hdone
        cases hbusy : l.busy s.worldId <;>
          simp [hdone, hknown, Ledger.start, Ledger.miss]
    · rw [if_neg fun h => hie (Option.some.inj h.1)]
      have hother : ¬(e = i) := Ne.symm hie
      dsimp only
      split
      · rfl
      · split <;> simp [Ledger.start, Ledger.miss, hother]

/-- What a tick does to the records of a schedule. -/
theorem tick_records {svc : OperationService} {k : Tick} (valid : s.Valid)
    (standing : Standing s k.before) (ticked : Ticked svc k) (e : Int) :
    records s k.after e =
      if expectedRunAt s k.time = some e ∧ records s k.before e = (0, 0) then
        if clearAt k.before k.time s then (1, 0) else (0, 1)
      else records s k.before e := by
  obtain ⟨env, log, henv, hconn⟩ := ticked
  have hledger : ledger k.after =
      (enabledSchedules k.before).foldl (Ledger.round k.time) (ledger k.before) := by
    have closes : wp (ticking k.time) (fun _ y => ∃ db', y.conn = .closed db' ∧ ledger db' =
        (enabledSchedules k.before).foldl (Ledger.round k.time) (ledger k.before))
        (tick svc) ⟨.closed k.before, log⟩ :=
      wp_tick standing.tabled fun r db' log' h _ _ => ⟨db', rfl, h⟩
    have h := run_of_wp henv closes
    obtain ⟨db', hdb', h⟩ := h
    rw [hconn] at hdb'
    rw [show k.after = db' from congrArg Connection.committed hdb', h]
  obtain ⟨later, hsplit, hearlier, hlater⟩ := enabledSchedules_split standing
  rw [hsplit, List.foldl_append, List.foldl_cons] at hledger
  have hbefore := rounds_other (t := k.time) (l := ledger k.before) _ hearlier
  unfold clearAt
  generalize ((enabledSchedules k.before).takeWhile fun r => r.scheduleId ≠ s.scheduleId).foldl
    (Ledger.round k.time) (ledger k.before) = l at hledger hbefore ⊢
  have hafter := rounds_other (t := k.time) (l := l.round k.time s) later hlater
  rw [← hledger] at hafter
  simp only [records, hafter.1, hafter.2, ← hbefore.1, ← hbefore.2]
  exact round_records valid e

end Records

section Histories

variable {svc : OperationService} {s : Schedule} {start : Database} {k : Tick}
  {earlier : List Tick} {e : Int}

theorem firstTick_new (h : lookedAfter s earlier < e) : firstTick e earlier = none := by
  cases earlier with
  | nil => rfl
  | cons k earlier =>
    have hlate : ¬e ≤ k.time := not_le.mpr h
    rw [firstTick, if_neg hlate]

theorem firstTick_old (hdue : s.Due e) (h : e ≤ lookedAfter s earlier) :
    ∃ k, firstTick e earlier = some k := by
  cases earlier with
  | nil =>
    have hlate := hdue.1
    have hle : e ≤ s.lastChangedAt := h
    omega
  | cons k earlier =>
    have hle : e ≤ k.time := h
    rw [firstTick, if_pos hle]
    cases firstTick e earlier with
    | none => exact ⟨k, rfl⟩
    | some k' => exact ⟨k', rfl⟩

/-- Nothing is recorded of an instant before the first tick that finds it. -/
theorem Watched.unrecorded (valid : s.Valid) (watched : Watched svc s start earlier)
    (h : lookedAfter s earlier < e) : records s (lastDatabase start earlier) e = (0, 0) := by
  induction earlier with
  | nil => exact watched e h
  | cons k earlier ih =>
    obtain ⟨watched, hlater, standing, hsame, ticked⟩ := watched
    have hlate : k.time < e := h
    have hbefore : records s k.before e = (0, 0) := by
      rw [hsame]
      exact ih watched (by omega)
    have hnot : ¬expectedRunAt s k.time = some e := by
      intro hexpected
      have := (expectedRunAt_some valid hexpected).2.1
      omega
    have hafter := tick_records valid standing ticked e
    rw [if_neg fun h => hnot h.1, hbefore] at hafter
    exact hafter

theorem owed_ne : owed s k e ≠ (0, 0) := by
  unfold owed
  split <;> simp

/-- A tick keeps the accounts exactly if it comes in time. -/
theorem accounted_cons_iff (valid : s.Valid) (watched : Watched svc s start (k :: earlier))
    (accounted : Accounted s earlier (lastDatabase start earlier)) :
    Accounted s (k :: earlier) k.after ↔ Timely s (lookedAfter s earlier) k := by
  obtain ⟨before, hlater, standing, hsame, ticked⟩ := watched
  have hrecords := tick_records valid standing ticked
  -- Of an instant that the tick is the first to find nothing is recorded yet.
  have hnew : ∀ e, lookedAfter s earlier < e → records s k.after e =
      if expectedRunAt s k.time = some e then
        if clearAt k.before k.time s then (1, 0) else (0, 1)
      else (0, 0) := by
    intro e he
    have hnone : records s k.before e = (0, 0) := by
      rw [hsame]
      exact before.unrecorded valid he
    rw [hrecords, hnone]
    simp
  have hfirst : ∀ e, lookedAfter s earlier < e → e ≤ k.time →
      firstTick e (k :: earlier) = some k := by
    intro e he hle
    rw [firstTick, if_pos hle, firstTick_new he, Option.none_or]
  constructor
  · intro haccounted e hdue he hle
    have found : ∀ e, s.Due e → lookedAfter s earlier < e → e ≤ k.time →
        expectedRunAt s k.time = some e ∧
          (if clearAt k.before k.time s then (1, 0) else (0, 1)) = owed s k e := by
      intro e hdue he hle
      have howed := haccounted e k hdue (hfirst e he hle)
      rw [hnew e he] at howed
      split at howed
      · rename_i hexpected
        exact ⟨hexpected, howed⟩
      · exact absurd howed.symm owed_ne
    obtain ⟨hexpected, howed⟩ := found e hdue he hle
    refine ⟨fun e' hdue' he' hle' => ?_, fun hclear => ?_⟩
    · obtain ⟨hexpected', -⟩ := found e' hdue' he' hle'
      exact Option.some.inj (hexpected'.symm.trans hexpected)
    · rw [if_pos hclear, owed] at howed
      by_contra hlong
      rw [if_neg fun h => hlong h.1] at howed
      cases howed
  · intro timely e k' hdue hk'
    by_cases he : lookedAfter s earlier < e
    · have hle : e ≤ k.time := by
        by_contra hle
        rw [firstTick, if_neg hle] at hk'
        cases hk'
      rw [hfirst e he hle, Option.some.injEq] at hk'
      subst hk'
      obtain ⟨honce, hintime⟩ := timely e hdue he hle
      have hexpected : expectedRunAt s k.time = some e := by
        rw [expectedRunAt_eq_some valid]
        refine ⟨hdue, hle, fun e' hdue' hle' => ?_⟩
        by_cases he' : lookedAfter s earlier < e'
        · exact (honce e' hdue' he' hle').le
        · omega
      rw [hnew e he, if_pos hexpected, owed]
      by_cases hclear : clearAt k.before k.time s = true
      · rw [if_pos hclear, if_pos ⟨hintime hclear, hclear⟩]
      · rw [if_neg hclear, if_neg fun h => hclear h.2]
    · obtain ⟨k'', hk''⟩ := firstTick_old hdue (not_lt.mp he)
      have hle : e ≤ k.time := by omega
      rw [firstTick, if_pos hle, hk'', Option.some_or, Option.some.injEq] at hk'
      subst hk'
      have hold := accounted e k'' hdue hk''
      rw [hrecords, hsame, if_neg fun h => owed_ne (hold.symm.trans h.2), hold]

/-- In every history the accounts are exact after every tick if and only if every tick comes in
time. -/
theorem ticks_account_iff (svc : OperationService) (s : Schedule) (start : Database)
    (history : List Tick) (valid : s.Valid) (watched : Watched svc s start history) :
    (∀ k earlier, k :: earlier <:+ history → Accounted s (k :: earlier) k.after) ↔
      ∀ k earlier, k :: earlier <:+ history → Timely s (lookedAfter s earlier) k := by
  induction history with
  | nil => simp
  | cons k earlier ih =>
    have hall : ∀ P : Tick → List Tick → Prop,
        (∀ k' earlier', k' :: earlier' <:+ k :: earlier → P k' earlier') ↔
          P k earlier ∧ ∀ k' earlier', k' :: earlier' <:+ earlier → P k' earlier' := by
      intro P
      simp only [List.suffix_cons_iff, List.cons.injEq]
      constructor
      · intro h
        exact ⟨h k earlier (.inl ⟨rfl, rfl⟩), fun k' earlier' hs => h k' earlier' (.inr hs)⟩
      · rintro ⟨h, hrest⟩ k' earlier' (⟨rfl, rfl⟩ | hs)
        · exact h
        · exact hrest k' earlier' hs
    have hstep : (∀ k' earlier', k' :: earlier' <:+ earlier →
        Accounted s (k' :: earlier') k'.after) →
          (Accounted s (k :: earlier) k.after ↔ Timely s (lookedAfter s earlier) k) := by
      intro hearlier
      refine accounted_cons_iff valid watched ?_
      cases earlier with
      | nil => exact fun e k _ h => (nomatch h)
      | cons k' earlier' => exact hearlier k' earlier' (List.suffix_refl _)
    rw [hall, hall, ih watched.1]
    constructor
    · rintro ⟨h, hrest⟩
      exact ⟨(hstep ((ih watched.1).mpr hrest)).mp h, hrest⟩
    · rintro ⟨h, hrest⟩
      exact ⟨(hstep ((ih watched.1).mpr hrest)).mpr h, hrest⟩

end Histories

/-- A daily backup of the world `w`. -/
def dailyBackup : Schedule where
  scheduleId := "s"
  worldId := some "w"
  scheduleType := "backup"
  everyDays := some 1
  timeOfDay := 0
  enabled := true
  version := 1
  lastChangedAt := 0
  deletedAt := none
  createdAt := 0

def dailyDatabase : Database := { Database.single .off with schedules := [dailyBackup] }

/-- A tick at `time` over the database as it was set up. -/
def onlyTick (time : Int) : Tick where
  time
  before := dailyDatabase
  after := (run (tickingEnv time) (tick ⟨false, false⟩) ⟨.closed dailyDatabase, []⟩).2.conn.committed

theorem dailyBackup_standing : Standing dailyBackup dailyDatabase :=
  ⟨⟨by decide, by decide⟩, by decide, rfl, rfl⟩

theorem onlyTick_watched {time : Int} (h : 0 ≤ time) :
    Watched ⟨false, false⟩ dailyBackup dailyDatabase [onlyTick time] := by
  refine ⟨fun e _ => rfl, h, dailyBackup_standing, rfl, tickingEnv time, [],
    tickingEnv_allowed time, ?_⟩
  have closes : wp (ticking time) (fun _ y => y.conn = .closed y.conn.committed)
      (tick ⟨false, false⟩) ⟨.closed dailyDatabase, []⟩ :=
    wp_tick dailyBackup_standing.tabled fun _ _ _ _ _ _ => rfl
  exact run_of_wp (tickingEnv_allowed time) closes

theorem ticks_account_daily :
    dailyBackup.Valid ∧ Watched ⟨false, false⟩ dailyBackup dailyDatabase [onlyTick 86410] ∧
      ((∀ k earlier, k :: earlier <:+ [onlyTick 86410] →
          Accounted dailyBackup (k :: earlier) k.after) ↔
        ∀ k earlier, k :: earlier <:+ [onlyTick 86410] →
          Timely dailyBackup (lookedAfter dailyBackup earlier) k) := by
  have valid : dailyBackup.Valid := ⟨by decide, by decide⟩
  have watched := @onlyTick_watched 86410 (by decide)
  exact ⟨valid, watched, ticks_account_iff _ _ dailyDatabase _ valid watched⟩

/-- The manager was down when the backup was due; the first tick, 1000 s later, starts it. -/
theorem ticks_start_late :
    Watched ⟨false, false⟩ dailyBackup dailyDatabase [onlyTick 87400] ∧
      ¬Accounted dailyBackup [onlyTick 87400] (onlyTick 87400).after := by
  have watched := @onlyTick_watched 87400 (by decide)
  refine ⟨watched, fun accounted => ?_⟩
  have timely := (accounted_cons_iff ⟨by decide, by decide⟩ watched
    fun e k _ h => (nomatch h)).mp accounted
  have hdue : dailyBackup.Due 86400 := ⟨by decide, 1, by decide⟩
  have hlate := (timely 86400 hdue (by decide) (by decide)).2 (by decide)
  revert hlate
  decide

end McManager.Scheduler
