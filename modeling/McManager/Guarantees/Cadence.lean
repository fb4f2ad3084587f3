import McManager.Web.Schedules

namespace McManager.Scheduler

open Framework Web

/-- The months of the years before and of this one, for a day counted from 1970-01-01. -/
def monthIndex (day : Int) : Int :=
  let z := day + 719468
  let era := z / 146097
  let dayOfEra := z % 146097
  let yearOfEra := (dayOfEra - dayOfEra / 1460 + dayOfEra / 36524 - dayOfEra / 146096) / 365
  let dayOfYear := dayOfEra - (365 * yearOfEra + yearOfEra / 4 - yearOfEra / 100)
  let month := (5 * dayOfYear + 2) / 153
  12 * (yearOfEra + era * 400) + month + 2

/-- The 31st of January, the 29th of February and the 31st of December end their months. -/
example : [monthIndex 30, monthIndex 31, monthIndex 11016, monthIndex 11017, monthIndex 10956,
    monthIndex 10957] = [23640, 23641, 24001, 24002, 23999, 24000] := by decide

/-- The distance the cadence puts between two consecutive due instants. -/
def Apart (spec : Body) (first second : Int) : Prop :=
  match kindOf spec with
  | some "daily" => second = first + secondsPerDay
  | some "weekly" => second = first + 7 * secondsPerDay
  | some "monthly" => monthIndex (second / secondsPerDay) = monthIndex (first / secondsPerDay) + 1
  | some "every_n_days" => ∃ n, daysOf spec = .ok n ∧ second = first + n * secondsPerDay
  | _ => False

/-- The schedule's time of day, for the kinds that have one. -/
def AtTimeOfDay (spec : Body) (timeOfDay : String) (expected : Int) : Prop :=
  kindOf spec = some "every_n_days" ∨ ∃ hour minute, parseTimeOfDay timeOfDay = .ok (hour, minute) ∧
    expected % secondsPerDay = hour * 3600 + minute * 60

/-- Every row with this interval and time of day is due at the instants of its cadence. -/
structure FollowsCadence (spec : Body) (timeOfDay : String) : Prop where
  due : ∀ changed now, ClockValue now → ∃ expected, evaluate spec timeOfDay changed now =
    .ok expected ∧ ∀ e, expected = some e → changed < e ∧ e ≤ now ∧ AtTimeOfDay spec timeOfDay e
  monotone : ∀ changed now₁ now₂ e, ClockValue now₁ → ClockValue now₂ → now₁ ≤ now₂ →
    evaluate spec timeOfDay changed now₁ = .ok (some e) →
    ∃ e', evaluate spec timeOfDay changed now₂ = .ok (some e') ∧ e ≤ e'
  apart : ∀ changed now₁ now₂ e₁ e₂, ClockValue now₁ → ClockValue now₂ → now₁ ≤ now₂ → e₁ ≠ e₂ →
    evaluate spec timeOfDay changed now₁ = .ok (some e₁) →
    evaluate spec timeOfDay changed now₂ = .ok (some e₂) →
    (∀ now e, now₁ ≤ now → now ≤ now₂ → evaluate spec timeOfDay changed now = .ok (some e) →
      e = e₁ ∨ e = e₂) →
    Apart spec e₁ e₂

section Due

variable {s : Schedule} {now₁ now₂ e e' : Int}

/-- The distance between two due instants. -/
def duePeriod (s : Schedule) : Int :=
  match s.everyDays with
  | some days => max 1 (days : Int) * secondsPerDay
  | none => secondsPerDay

theorem duePeriod_pos (s : Schedule) : 0 < duePeriod s := by
  unfold duePeriod secondsPerDay
  split
  · rename_i days _
    have : 1 ≤ max 1 (days : Int) := le_max_left _ _
    omega
  · decide

theorem due_step (h : s.Due e) : s.Due (e + duePeriod s) := by
  unfold Schedule.Due duePeriod at *
  obtain ⟨after, at'⟩ := h
  cases every : s.everyDays with
  | some days =>
    simp only [every, secondsPerDay] at at' ⊢
    obtain ⟨k, rfl⟩ := at'
    have pos : 1 ≤ max 1 (days : Int) := le_max_left _ _
    exact ⟨by omega, k + 1, by rw [Int.add_mul, Int.one_mul, Int.add_assoc]⟩
  | none =>
    simp only [every, secondsPerDay] at at' ⊢
    obtain ⟨day, rfl⟩ := at'
    exact ⟨by omega, day + 1, by omega⟩

theorem due_gap (h : s.Due e) (h' : s.Due e') (before : e < e') : e + duePeriod s ≤ e' := by
  unfold Schedule.Due duePeriod at *
  cases every : s.everyDays with
  | some days =>
    simp only [every, secondsPerDay] at h h' ⊢
    obtain ⟨-, k, rfl⟩ := h
    obtain ⟨-, k', rfl⟩ := h'
    generalize hperiod : max 1 (days : Int) * 86400 = period at before ⊢
    have pos : 0 < period := by
      have : 1 ≤ max 1 (days : Int) := le_max_left _ _
      omega
    have later : k < k' := by
      by_contra no
      have := mul_le_mul_of_nonneg_right (not_lt.mp no) pos.le
      omega
    have := mul_le_mul_of_nonneg_right (Int.add_one_le_iff.mpr later) pos.le
    rw [Int.add_mul, Int.one_mul] at this
    omega
  | none =>
    simp only [every, secondsPerDay] at h h' ⊢
    obtain ⟨-, day, rfl⟩ := h
    obtain ⟨-, day', rfl⟩ := h'
    omega

/-- Later the last due instant is the same or a later one. -/
theorem expectedRunAt_monotone (valid : s.Valid) (le : now₁ ≤ now₂)
    (h : expectedRunAt s now₁ = some e) : ∃ e', expectedRunAt s now₂ = some e' ∧ e ≤ e' := by
  obtain ⟨due, reached, -⟩ := expectedRunAt_some valid h
  cases later : expectedRunAt s now₂ with
  | none =>
    have := expectedRunAt_none valid later due
    omega
  | some e' =>
    obtain ⟨-, -, last⟩ := expectedRunAt_some valid later
    exact ⟨e', rfl, last e due (reached.trans le)⟩

/-- Two due instants with none reported between them are one period apart. -/
theorem expectedRunAt_consecutive (valid : s.Valid) (le : now₁ ≤ now₂) (differ : e ≠ e')
    (first : expectedRunAt s now₁ = some e) (second : expectedRunAt s now₂ = some e')
    (between : ∀ now x, now₁ ≤ now → now ≤ now₂ → expectedRunAt s now = some x → x = e ∨ x = e') :
    e' = e + duePeriod s := by
  obtain ⟨due, -, last⟩ := expectedRunAt_some valid first
  obtain ⟨due', reached', last'⟩ := expectedRunAt_some valid second
  obtain ⟨x, hx, order⟩ := expectedRunAt_monotone valid le first
  obtain rfl : e' = x := Option.some.inj (second.symm.trans hx)
  have gap := due_gap due due' (lt_of_le_of_ne order differ)
  have next := due_step due
  have pos := duePeriod_pos s
  have later : now₁ < e + duePeriod s := by
    by_contra no
    have := last _ next (not_lt.mp no)
    omega
  have found : expectedRunAt s (e + duePeriod s) = some (e + duePeriod s) :=
    (expectedRunAt_eq_some valid).mpr ⟨next, le_rfl, fun _ _ h => h⟩
  obtain same | same := between _ _ later.le (gap.trans reached') found
  · omega
  · exact same.symm

end Due

section Reading

variable {spec : Body} {timeOfDay : String} {s : Schedule}

/-- The schedule with the period or the time of day that the columns of a row write. -/
structure Reads (spec : Body) (timeOfDay : String) (s : Schedule) : Prop where
  period : kindOf spec = some "every_n_days" →
    ∃ n, daysOf spec = .ok n ∧ s.everyDays = some n.toNat
  timed : kindOf spec ≠ some "every_n_days" → s.everyDays = none ∧ ∃ hour minute,
    parseTimeOfDay timeOfDay = .ok (hour, minute) ∧ s.timeOfDay = hour * 3600 + minute * 60
  valid : s.Valid

/-- A row the routes let in has such a schedule when its days can be read. -/
theorem exists_reads (h : Admissible spec timeOfDay)
    (days : kindOf spec = some "every_n_days" → ∃ n, daysOf spec = .ok n) (changed : Int) :
    ∃ s : Schedule, s.lastChangedAt = changed ∧ Reads spec timeOfDay s := by
  obtain ⟨hour, minute, time, hours, minutes⟩ := parseTimeOfDay_pattern h.2
  have row : ∀ everyDays : Option Nat, Schedule.Valid {
      scheduleId := "", worldId := none, scheduleType := "backup", everyDays
      timeOfDay := hour * 3600 + minute * 60, enabled := true, version := 1
      lastChangedAt := changed, deletedAt := none, createdAt := changed } := by
    intro everyDays
    refine ⟨by simp, ?_⟩
    dsimp only
    omega
  by_cases every : kindOf spec = some "every_n_days"
  · obtain ⟨n, hn⟩ := days every
    exact ⟨_, rfl, fun _ => ⟨n, hn, rfl⟩, fun other => absurd every other, row (some n.toNat)⟩
  · exact ⟨_, rfl, fun same => absurd same every, fun _ => ⟨rfl, hour, minute, time, rfl⟩, row none⟩

/-- What the scheduler evaluates a row to is the last due instant of that schedule. -/
theorem evaluate_reads {now : Int} (h : Admissible spec timeOfDay) (reads : Reads spec timeOfDay s)
    (clock : ClockValue now) :
    evaluate spec timeOfDay s.lastChangedAt now = .ok (expectedRunAt s now) := by
  obtain ⟨kind, listed, hkind⟩ := knownKind_kindOf h.1
  by_cases every : kindOf spec = some "every_n_days"
  · obtain ⟨n, days, same⟩ := reads.period every
    exact evaluate_every every days same
  · obtain ⟨never, hour, minute, time, at'⟩ := reads.timed every
    obtain ⟨hour', minute', time', hours, minutes⟩ := parseTimeOfDay_pattern h.2
    obtain ⟨rfl, rfl⟩ : hour = hour' ∧ minute = minute' := by
      simpa using Except.ok.inj (time.symm.trans time')
    apply evaluate_timed ?_ time clock hours minutes never at'
    simp only [intervalKinds, List.mem_cons, List.not_mem_nil, or_false] at listed
    obtain rfl | rfl | rfl | rfl := listed
    · exact .inl hkind
    · exact .inr (.inl hkind)
    · exact .inr (.inr hkind)
    · exact absurd hkind every

/-- A row that cannot be read raises. -/
theorem evaluate_unread {e : Exn} (every : kindOf spec = some "every_n_days")
    (days : daysOf spec = .error e) (changed now : Int) :
    evaluate spec timeOfDay changed now = .error e := evaluate_every_error every days changed

end Reading

theorem ClockValue.between {now₁ now₂ now : Int} (h₁ : ClockValue now₁) (h₂ : ClockValue now₂)
    (low : now₁ ≤ now) (high : now ≤ now₂) : ClockValue now := by
  unfold ClockValue at *
  rw [inCalendar_iff, inCalendar_iff] at *
  omega

/-- The intervals whose evaluation keeps the cadence they name: daily ones, and those of every n
days with a readable n of one or more. -/
def Kept (spec : Body) : Prop :=
  kindOf spec = some "daily" ∨
    kindOf spec = some "every_n_days" ∧ ∃ n, daysOf spec = .ok n ∧ 1 ≤ n

theorem atTimeOfDay_due {spec : Body} {timeOfDay : String} {s : Schedule} {e : Int}
    (reads : Reads spec timeOfDay s) (due : s.Due e) : AtTimeOfDay spec timeOfDay e := by
  by_cases every : kindOf spec = some "every_n_days"
  · exact .inl every
  · obtain ⟨never, hour, minute, time, at'⟩ := reads.timed every
    refine .inr ⟨hour, minute, time, ?_⟩
    unfold Schedule.Due at due
    rw [never] at due
    obtain ⟨-, day, rfl⟩ := due
    have range := reads.valid.time
    rw [secondsPerDay, ← at']
    omega

theorem apart_period {spec : Body} {timeOfDay : String} {s : Schedule} {e : Int} (kept : Kept spec)
    (reads : Reads spec timeOfDay s) : Apart spec e (e + duePeriod s) := by
  unfold Apart duePeriod
  obtain daily | ⟨every, n, days, least⟩ := kept
  · have other : kindOf spec ≠ some "every_n_days" := by
      rw [daily]
      decide
    rw [daily, (reads.timed other).1]
    rfl
  · obtain ⟨m, hm, same⟩ := reads.period every
    obtain rfl : n = m := Except.ok.inj (days.symm.trans hm)
    rw [every, same]
    refine ⟨n, days, ?_⟩
    have : max 1 ((n.toNat : Nat) : Int) = n := by omega
    dsimp only
    rw [this]

/-- Evaluated without raising, a row is due after its last change and not in the future, never
earlier as time goes on. -/
theorem followsCadence_of_kept {spec : Body} {timeOfDay : String} (h : Admissible spec timeOfDay)
    (kept : Kept spec) : FollowsCadence spec timeOfDay := by
  have readable : kindOf spec = some "every_n_days" → ∃ n, daysOf spec = .ok n := by
    obtain daily | ⟨-, n, days, -⟩ := kept
    · rw [daily]
      exact fun same => absurd same (by decide)
    · exact fun _ => ⟨n, days⟩
  have evaluated : ∀ changed, ∃ s : Schedule, Reads spec timeOfDay s ∧ s.lastChangedAt = changed ∧
      ∀ now, ClockValue now → evaluate spec timeOfDay changed now = .ok (expectedRunAt s now) := by
    intro changed
    obtain ⟨s, rfl, reads⟩ := exists_reads h readable changed
    exact ⟨s, reads, rfl, fun now clock => evaluate_reads h reads clock⟩
  refine ⟨?_, ?_, ?_⟩
  · intro changed now clock
    obtain ⟨s, reads, rfl, values⟩ := evaluated changed
    refine ⟨_, values now clock, ?_⟩
    intro e found
    obtain ⟨due, reached, -⟩ := expectedRunAt_some reads.valid found
    exact ⟨due.1, reached, atTimeOfDay_due reads due⟩
  · intro changed now₁ now₂ e clock₁ clock₂ le first
    obtain ⟨s, reads, rfl, values⟩ := evaluated changed
    rw [values now₁ clock₁] at first
    obtain ⟨e', second, order⟩ := expectedRunAt_monotone reads.valid le (Except.ok.inj first)
    exact ⟨e', by rw [values now₂ clock₂, second], order⟩
  · intro changed now₁ now₂ e₁ e₂ clock₁ clock₂ le differ first second between
    obtain ⟨s, reads, rfl, values⟩ := evaluated changed
    rw [values now₁ clock₁] at first
    rw [values now₂ clock₂] at second
    have here : ∀ now x, now₁ ≤ now → now ≤ now₂ → expectedRunAt s now = some x →
        x = e₁ ∨ x = e₂ := by
      intro now x low high found
      apply between now x low high
      rw [values now (clock₁.between clock₂ low high), found]
    rw [expectedRunAt_consecutive reads.valid le differ (Except.ok.inj first)
      (Except.ok.inj second) here]
    exact apart_period kept reads

/-- A due instant and the next one are reported one after the other. -/
theorem FollowsCadence.apart_due {spec : Body} {timeOfDay : String} {s : Schedule} {e : Int}
    (h : FollowsCadence spec timeOfDay) (admissible : Admissible spec timeOfDay)
    (reads : Reads spec timeOfDay s) (due : s.Due e) (clock : ClockValue e)
    (clock' : ClockValue (e + duePeriod s)) : Apart spec e (e + duePeriod s) := by
  have pos := duePeriod_pos s
  have next := due_step due
  have reported : ∀ x, s.Due x → ClockValue x →
      evaluate spec timeOfDay s.lastChangedAt x = .ok (some x) := by
    intro x hx clock
    rw [evaluate_reads admissible reads clock,
      (expectedRunAt_eq_some reads.valid).mpr ⟨hx, le_rfl, fun _ _ h => h⟩]
  apply h.apart s.lastChangedAt e (e + duePeriod s) _ _ clock clock' (by omega) (by omega)
    (reported e due clock) (reported _ next clock')
  intro now x low high found
  rw [evaluate_reads admissible reads (clock.between clock' low high)] at found
  obtain ⟨due', reached, last⟩ := expectedRunAt_some reads.valid (Except.ok.inj found)
  have order := last e due low
  by_cases same : x = e
  · exact .inl same
  · have gap := due_gap due due' (by omega)
    exact .inr (by omega)

/-- The second and third of January 1970. -/
theorem monthIndex_january : monthIndex 2 ≠ monthIndex 1 + 1 := by decide

/-- The two due instants after an early change show whether an interval keeps its cadence. -/
theorem kept_of_followsCadence {spec : Body} {timeOfDay : String} (h : Admissible spec timeOfDay)
    (follows : FollowsCadence spec timeOfDay) : Kept spec := by
  obtain ⟨kind, listed, hkind⟩ := knownKind_kindOf h.1
  have readable : kindOf spec = some "every_n_days" → ∃ n, daysOf spec = .ok n := by
    intro every
    cases days : daysOf spec with
    | ok n => exact ⟨n, rfl⟩
    | error e =>
      obtain ⟨_, found, -⟩ := follows.due 0 0 (by unfold ClockValue; decide)
      rw [evaluate_unread every days] at found
      exact nomatch found
  obtain ⟨s, changed, reads⟩ := exists_reads h readable 0
  have range := reads.valid.time
  by_cases every : kindOf spec = some "every_n_days"
  · obtain ⟨n, days, same⟩ := reads.period every
    refine .inr ⟨every, n, days, ?_⟩
    by_contra few
    have day : duePeriod s = secondsPerDay := by
      have : max 1 ((n.toNat : Nat) : Int) = 1 := by omega
      unfold duePeriod
      rw [same]
      dsimp only
      rw [this, Int.one_mul]
    have due : s.Due secondsPerDay := by
      refine ⟨by rw [changed]; decide, ?_⟩
      have : max 1 ((n.toNat : Nat) : Int) = 1 := by omega
      rw [same, changed]
      refine ⟨1, ?_⟩
      rw [this]
      rfl
    have apart := follows.apart_due h reads due (by unfold ClockValue; decide)
      (by rw [day]; unfold ClockValue; decide)
    unfold Apart at apart
    rw [every, day] at apart
    obtain ⟨m, hm, distance⟩ := apart
    obtain rfl : n = m := Except.ok.inj (days.symm.trans hm)
    rw [secondsPerDay] at distance
    omega
  · obtain ⟨never, -⟩ := reads.timed every
    have day : duePeriod s = secondsPerDay := by
      unfold duePeriod
      rw [never]
    have due : s.Due (secondsPerDay + s.timeOfDay) := by
      refine ⟨by rw [changed, secondsPerDay]; omega, ?_⟩
      rw [never]
      exact ⟨1, rfl⟩
    have clock : ∀ k : Int, 1 ≤ k → k ≤ 2 → ClockValue (k * secondsPerDay + s.timeOfDay) := by
      intro k low high
      unfold ClockValue
      rw [inCalendar_iff, inCalendar_iff, secondsPerDay]
      omega
    have apart := follows.apart_due h reads due (clock 1 (by decide) (by decide)) (by
      have next := clock 2 (by decide) (by decide)
      have same : secondsPerDay + s.timeOfDay + duePeriod s =
          2 * secondsPerDay + s.timeOfDay := by
        rw [day]
        omega
      rw [same]
      exact next)
    unfold Apart at apart
    rw [day] at apart
    simp only [intervalKinds, List.mem_cons, List.not_mem_nil, or_false] at listed
    obtain rfl | rfl | rfl | rfl := listed
    · exact .inl hkind
    · rw [hkind] at apart
      simp only [secondsPerDay] at apart
      omega
    · rw [hkind] at apart
      have first : (secondsPerDay + s.timeOfDay) / secondsPerDay = 1 := by
        rw [secondsPerDay]
        omega
      have second : (secondsPerDay + s.timeOfDay + secondsPerDay) / secondsPerDay = 2 := by
        rw [secondsPerDay]
        omega
      rw [first, second] at apart
      exact absurd apart monthIndex_january
    · exact absurd hkind every

/-- The instants a schedule reports follow the cadence of its interval exactly when it is daily, or
of every n days with a readable n of one or more. -/
theorem follows_cadence_iff (spec : Body) (timeOfDay : String) (h : Admissible spec timeOfDay) :
    FollowsCadence spec timeOfDay ↔ Kept spec :=
  ⟨kept_of_followsCadence h, followsCadence_of_kept h⟩

theorem daily_admissible : Admissible [("kind", .str "daily")] "03:30" := ⟨rfl, by decide⟩

theorem follows_cadence_daily :
    FollowsCadence [("kind", .str "daily")] "03:30" ↔ Kept [("kind", .str "daily")] :=
  follows_cadence_iff [("kind", .str "daily")] "03:30" daily_admissible

/-- A weekly schedule is due every day. -/
theorem weekly_runs_daily : ¬∀ (spec : Body) (timeOfDay : String), Admissible spec timeOfDay →
    FollowsCadence spec timeOfDay := by
  intro h
  have admissible : Admissible [("kind", .str "weekly")] "03:30" := ⟨rfl, by decide⟩
  obtain daily | ⟨every, -⟩ := kept_of_followsCadence admissible (h _ _ admissible)
  · exact absurd daily (by decide)
  · exact absurd every (by decide)

/-- Every evaluation of a tick goes through, at every clock value, exactly when every enabled
schedule of every n days has readable days. -/
theorem ticks_evaluate_iff (rows : List ScheduleRow) (h : Accepted rows) :
    (∀ now, ClockValue now → ∃ results, evaluations now (enabledRows rows) = .ok results) ↔
      ∀ row ∈ rows, row.enabled = true → row.deletedAt = none →
        kindOf row.intervalSpec = some "every_n_days" → ∃ n, daysOf row.intervalSpec = .ok n := by
  have listed : ∀ row, row ∈ enabledRows rows ↔
      row ∈ rows ∧ row.enabled = true ∧ row.deletedAt = none := by
    intro row
    rw [enabledRows, List.mem_insertionSort, List.mem_filter, Bool.and_eq_true,
      Option.isNone_iff_eq_none]
  constructor
  · intro ticks row hrow enabled live every
    obtain ⟨results, evaluated⟩ := ticks 0 (by unfold ClockValue; decide)
    obtain ⟨expected, found⟩ :=
      evaluations_ok.mp ⟨results, evaluated⟩ row ((listed row).mpr ⟨hrow, enabled, live⟩)
    cases days : daysOf row.intervalSpec with
    | ok n => exact ⟨n, rfl⟩
    | error e =>
      rw [evaluate_unread every days] at found
      exact nomatch found
  · intro readable now clock
    apply evaluations_ok.mpr
    intro row hrow
    obtain ⟨hrow, enabled, live⟩ := (listed row).mp hrow
    have admissible := h.admissible row hrow
    obtain ⟨s, changed, reads⟩ :=
      exists_reads admissible (readable row hrow enabled live) row.lastChangedAt
    rw [← changed]
    exact ⟨_, evaluate_reads admissible reads clock⟩

/-- A schedule of every n days with this member `days`. -/
def everyDays (days : Json) : Body :=
  [("scope", .str "global"), ("schedule_type", .str "backup"), ("time_of_day", .str "03:30"),
    ("interval_spec", .obj [("kind", .str "every_n_days"), ("days", days)])]

def everyRow (days : Json) : ScheduleRow where
  scheduleId := "s"
  scope := "global"
  worldId := none
  scheduleType := "backup"
  intervalSpec := [("kind", .str "every_n_days"), ("days", days)]
  timeOfDay := "03:30"
  enabled := true
  version := 1
  lastChangedBy := some "u"
  lastChangedAt := 0
  deletedAt := none
  deletedBy := none
  createdAt := 0

theorem everyRow_accepted (days : Json) : Accepted [everyRow days] :=
  Accepted.empty.created (fun _ => true) "u" "s" 0 (everyDays days) (by rfl)

theorem ticks_evaluate_days :
    (∀ now, ClockValue now → ∃ results,
        evaluations now (enabledRows [everyRow (.str " 1_0 ")]) = .ok results) ↔
      ∀ row ∈ [everyRow (.str " 1_0 ")], row.enabled = true → row.deletedAt = none →
        kindOf row.intervalSpec = some "every_n_days" → ∃ n, daysOf row.intervalSpec = .ok n :=
  ticks_evaluate_iff [everyRow (.str " 1_0 ")] (everyRow_accepted _)

/-- A schedule accepted with `"days": null` ends every tick. -/
theorem null_days_raise : ¬∀ rows : List ScheduleRow, Accepted rows → ∀ now, ClockValue now →
    ∃ results, evaluations now (enabledRows rows) = .ok results := by
  intro h
  obtain ⟨results, evaluated⟩ :=
    h [everyRow .null] (everyRow_accepted _) 0 (by unfold ClockValue; decide)
  exact nomatch evaluated

end McManager.Scheduler
