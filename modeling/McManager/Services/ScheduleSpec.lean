import McManager.Framework.PythonInt
import McManager.Services.ScheduleLedger
import McManager.Web.Requests

namespace McManager

open Web Framework

/-- A row of `schedules` with the columns the API writes; `intervalSpec` is what `json.loads`
reads from its text. -/
structure ScheduleRow where
  scheduleId : String
  scope : String
  worldId : Option String
  scheduleType : String
  intervalSpec : Body
  timeOfDay : String
  enabled : Bool
  version : Int
  lastChangedBy : Option String
  lastChangedAt : Int
  deletedAt : Option Int
  deletedBy : Option String
  createdAt : Int

namespace Web.Json

/-- `bool(value)`. -/
def truthy : Json → Bool
  | null => false
  | bool b => b
  | int n => n != 0
  | float text => text != "0.0" && text != "-0.0"
  | str s => s != ""
  | arr items => !items.isEmpty
  | obj members => !members.isEmpty

/-- `int(value)`. -/
def toInt : Json → Except Exn Int
  | int n => .ok n
  | bool b => .ok (if b then 1 else 0)
  | float text =>
    if text = "NaN" then .error (.valueError "cannot convert float NaN to integer")
    else if text = "Infinity" ∨ text = "-Infinity" then
      .error (.overflowError "cannot convert float infinity to integer")
    else match PythonInt.ofFloat text with
      | some n => .ok n
      | none => .error (.valueError ("could not convert string to float: " ++ text))
  | str s => match PythonInt.ofText s.toList with
    | some n => .ok n
    | none => .error (.valueError ("invalid literal for int() with base 10: '" ++ s ++ "'"))
  | null => .error (.typeError
      "int() argument must be a string, a bytes-like object or a real number, not 'NoneType'")
  | arr _ => .error (.typeError
      "int() argument must be a string, a bytes-like object or a real number, not 'list'")
  | obj _ => .error (.typeError
      "int() argument must be a string, a bytes-like object or a real number, not 'dict'")

end Web.Json

namespace Scheduler

/-- `int` of a part of a time of day. -/
def intOf (cs : List Char) : Except Exn Int := (Json.str (String.ofList cs)).toInt

/-- `_parse_time_of_day`. -/
def parseTimeOfDay (value : String) : Except Exn (Int × Int) :=
  match value.toList.dropWhile (· ≠ ':') with
  | [] => .error (.valueError "not enough values to unpack (expected 2, got 1)")
  | _ :: minute => do
    let hour ← intOf (value.toList.takeWhile (· ≠ ':'))
    let minute ← intOf minute
    return (hour, minute)

/-- `spec.get('kind') or spec.get('type')`. -/
def kindOf (spec : Body) : Option String :=
  match spec.lookup "kind" with
  | some kind => if kind.truthy then kind.str? else (spec.lookup "type").bind Json.str?
  | none => (spec.lookup "type").bind Json.str?

/-- `int(spec.get('days', 1))`. -/
def daysOf (spec : Body) : Except Exn Int := ((spec.lookup "days").getD (.int 1)).toInt

/-- The instants `datetime` has: the years 1 to 9999. -/
def inCalendar (seconds : Int) : Bool :=
  decide (-62135596800 ≤ seconds) && decide (seconds < 253402300800)

theorem inCalendar_iff {seconds : Int} :
    inCalendar seconds = true ↔ -62135596800 ≤ seconds ∧ seconds < 253402300800 := by
  simp [inCalendar]

/-- The latest `hour:minute` at or before `now`, in UTC. -/
def latestAt (hour minute now : Int) : Except Exn Int :=
  if !inCalendar now then .error (.valueError "year is out of range")
  else if hour < 0 ∨ 23 < hour then .error (.valueError "hour must be in 0..23")
  else if minute < 0 ∨ 59 < minute then .error (.valueError "minute must be in 0..59")
  else
    let candidate := now / secondsPerDay * secondsPerDay + hour * 3600 + minute * 60
    if candidate ≤ now then .ok candidate
    else if !inCalendar (candidate - secondsPerDay) then
      .error (.overflowError "date value out of range")
    else .ok (candidate - secondsPerDay)

/-- `_expected_run_at`. -/
def evaluate (spec : Body) (timeOfDay : String) (lastChangedAt now : Int) :
    Except Exn (Option Int) :=
  match kindOf spec with
  | some "every_n_days" => do
    let days ← daysOf spec
    let period := max 1 days * 24 * 60 * 60
    let elapsed := now - lastChangedAt
    if elapsed < period then return none
    return some (lastChangedAt + elapsed / period * period)
  | some "daily" | some "weekly" | some "monthly" => do
    let (hour, minute) ← parseTimeOfDay timeOfDay
    let expected ← latestAt hour minute now
    if expected ≤ lastChangedAt then return none
    return some expected
  | _ => .ok none

/-- `_enabled_schedules`. -/
def enabledRows (rows : List ScheduleRow) : List ScheduleRow :=
  (rows.filter fun s => s.enabled && s.deletedAt.isNone).insertionSort
    fun a b => a.createdAt ≤ b.createdAt

/-- The evaluations of one `tick`, in its order; the first that raises ends the tick. -/
def evaluations (now : Int) : List ScheduleRow → Except Exn (List (Option Int))
  | [] => .ok []
  | s :: rest => do
    let expected ← evaluate s.intervalSpec s.timeOfDay s.lastChangedAt now
    let others ← evaluations now rest
    return expected :: others

/-- The clock values whose day and the day before it `datetime` can hold. -/
def ClockValue (now : Int) : Prop :=
  inCalendar (now - secondsPerDay) = true ∧ inCalendar now = true

theorem evaluations_ok {now : Int} {rows : List ScheduleRow} :
    (∃ results, evaluations now rows = .ok results) ↔
      ∀ s ∈ rows, ∃ expected, evaluate s.intervalSpec s.timeOfDay s.lastChangedAt now =
        .ok expected := by
  induction rows with
  | nil => exact ⟨fun _ s hs => absurd hs List.not_mem_nil, fun _ => ⟨_, rfl⟩⟩
  | cons s rest ih =>
    rw [List.forall_mem_cons, ← ih, evaluations]
    cases evaluate s.intervalSpec s.timeOfDay s.lastChangedAt now with
    | error e => simp [bind, Except.bind]
    | ok expected =>
      cases evaluations now rest with
      | error e => simp [bind, Except.bind]
      | ok others => simp [bind, Except.bind, pure, Except.pure]

section Evaluation

variable {spec : Body} {timeOfDay : String} {now hour minute : Int} {s : Schedule}

/-- Where the days can be read, the evaluation is the period rule. -/
theorem evaluate_every {n : Int} (kind : kindOf spec = some "every_n_days")
    (days : daysOf spec = .ok n) (every : s.everyDays = some n.toNat) :
    evaluate spec timeOfDay s.lastChangedAt now = .ok (expectedRunAt s now) := by
  have period : max 1 n * 24 * 60 * 60 = max 1 (n.toNat : Int) * secondsPerDay := by
    have same : max 1 n = max 1 (n.toNat : Int) := by omega
    rw [same, secondsPerDay]
    omega
  unfold evaluate expectedRunAt
  rw [kind, every]
  simp only [days, period, bind, Except.bind]
  split <;> rfl

/-- Where they cannot, it raises. -/
theorem evaluate_every_error {e : Exn} (kind : kindOf spec = some "every_n_days")
    (days : daysOf spec = .error e) (lastChangedAt : Int) :
    evaluate spec timeOfDay lastChangedAt now = .error e := by
  unfold evaluate
  rw [kind]
  simp only [days, bind, Except.bind]

theorem latestAt_ok (clock : ClockValue now) (hours : 0 ≤ hour ∧ hour ≤ 23)
    (minutes : 0 ≤ minute ∧ minute ≤ 59) :
    latestAt hour minute now =
      .ok (if now < now / secondsPerDay * secondsPerDay + (hour * 3600 + minute * 60) then
          now / secondsPerDay * secondsPerDay + (hour * 3600 + minute * 60) - secondsPerDay
        else now / secondsPerDay * secondsPerDay + (hour * 3600 + minute * 60)) := by
  obtain ⟨before, here⟩ := clock
  have sum : now / secondsPerDay * secondsPerDay + hour * 3600 + minute * 60 =
      now / secondsPerDay * secondsPerDay + (hour * 3600 + minute * 60) := Int.add_assoc _ _ _
  unfold latestAt
  rw [here, if_neg (by decide), if_neg (by omega), if_neg (by omega), sum]
  dsimp only
  split
  · rename_i reached
    rw [if_neg (by omega)]
  · rename_i later
    have held : inCalendar (now / secondsPerDay * secondsPerDay + (hour * 3600 + minute * 60) -
        secondsPerDay) = true := by
      rw [inCalendar_iff] at before here ⊢
      simp only [secondsPerDay] at before later ⊢
      omega
    rw [held, if_neg (by decide), if_pos (by omega)]

/-- Daily, weekly and monthly schedules are all evaluated by the time of day. -/
theorem evaluate_timed (kind : kindOf spec = some "daily" ∨ kindOf spec = some "weekly" ∨
      kindOf spec = some "monthly")
    (time : parseTimeOfDay timeOfDay = .ok (hour, minute)) (clock : ClockValue now)
    (hours : 0 ≤ hour ∧ hour ≤ 23) (minutes : 0 ≤ minute ∧ minute ≤ 59)
    (never : s.everyDays = none) (at' : s.timeOfDay = hour * 3600 + minute * 60) :
    evaluate spec timeOfDay s.lastChangedAt now = .ok (expectedRunAt s now) := by
  have timed : ∀ kind, kind = "daily" ∨ kind = "weekly" ∨ kind = "monthly" →
      kindOf spec = some kind →
      evaluate spec timeOfDay s.lastChangedAt now = .ok (expectedRunAt s now) := by
    intro kind hkind same
    unfold evaluate expectedRunAt
    rw [same, never]
    obtain rfl | rfl | rfl := hkind <;>
      · simp only [time, latestAt_ok clock hours minutes, at', bind, Except.bind]
        split <;> split <;> rfl
  obtain kind | kind | kind := kind
  · exact timed _ (.inl rfl) kind
  · exact timed _ (.inr (.inl rfl)) kind
  · exact timed _ (.inr (.inr rfl)) kind

end Evaluation

end Scheduler

end McManager
