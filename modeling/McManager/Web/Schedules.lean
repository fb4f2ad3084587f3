import McManager.Services.ScheduleSpec
import McManager.Web.WorldManagement

namespace McManager.Web

open Framework Scheduler

/-- What a schedule route answers instead of a row, or the exception it raises. -/
inductive Refusal
  | answer (code message : String)
  | raised (e : Exn)
  deriving DecidableEq, Repr

def scheduleTypes : List String := ["backup", "cleanup", "maintenance"]

def intervalKinds : List String := ["daily", "weekly", "monthly", "every_n_days"]

/-- `_TIME_PATTERN.fullmatch`. -/
def timePattern (value : String) : Bool :=
  match value.toList with
  | [a, b, ':', c, d] =>
    ((a == '0' || a == '1') && (PythonInt.decimal b).isSome ||
      a == '2' && ['0', '1', '2', '3'].contains b) &&
      ['0', '1', '2', '3', '4', '5'].contains c && (PythonInt.decimal d).isSome
  | _ => false

/-- `value in {…}`: a list or an object cannot be hashed. -/
def memberOf (names : List String) : Json → Except Refusal Bool
  | .arr _ => .error (.raised (.typeError "unhashable type: 'list'"))
  | .obj _ => .error (.raised (.typeError "unhashable type: 'dict'"))
  | .str s => .ok (names.contains s)
  | _ => .ok false

/-- The scope and the world of a schedule, if they go together. -/
def placement (scope worldId : Json) : Except Refusal (Option (String × Option String)) := do
  let known ← memberOf ["global", "world"] scope
  match scope, worldId with
  | .str "global", .null => return if known then some ("global", none) else none
  | .str "world", .str w => return if known then some ("world", some w) else none
  | _, _ => return none

/-- `interval_spec.get("kind", interval_spec.get("type"))` against the known kinds. -/
def knownKind (spec : Body) : Except Refusal Bool :=
  memberOf intervalKinds (((spec.lookup "kind").or (spec.lookup "type")).getD .null)

/-- Go on, or refuse. -/
def require (holds : Bool) (refusal : Refusal) : Except Refusal Unit :=
  if holds then .ok () else .error refusal

def invalidSchedule : Refusal := .answer "VALIDATION_ERROR" "Schedule fields are invalid."

/-- `create_schedule`: the row it stores. `live` are the worlds that are not deleted. -/
def createSchedule (live : String → Bool) (userId : String) (scheduleId : String) (now : Int)
    (body : Body) : Except Refusal ScheduleRow := do
  let placed ← placement (field body "scope") (field body "world_id")
  match placed with
  | none => .error invalidSchedule
  | some (scope, worldId) => do
    let typed ← memberOf scheduleTypes (field body "schedule_type")
    require typed invalidSchedule
    match field body "schedule_type", field body "interval_spec" with
    | .str scheduleType, .obj intervalSpec => do
      let known ← knownKind intervalSpec
      require known invalidSchedule
      match field body "time_of_day", (body.lookup "enabled").getD (.bool true) with
      | .str timeOfDay, .bool enabled => do
        require (timePattern timeOfDay) invalidSchedule
        require (worldId.all live) (.answer "NOT_FOUND" "World not found.")
        return {
          scheduleId, scope, worldId, scheduleType, intervalSpec, timeOfDay, enabled
          version := 1, lastChangedBy := some userId, lastChangedAt := now
          deletedAt := none, deletedBy := none, createdAt := now }
      | _, _ => .error invalidSchedule
    | _, _ => .error invalidSchedule

def scheduleKeys : List String :=
  ["version", "scope", "world_id", "schedule_type", "interval_spec", "time_of_day", "enabled"]

def editableRequired : Refusal :=
  .answer "VALIDATION_ERROR" "A version and editable schedule fields are required."

/-- The interval of an edit. -/
def editedSpec (row : ScheduleRow) : Option Json → Except Refusal Body
  | none => .ok row.intervalSpec
  | some (.obj spec) => do
    let known ← knownKind spec
    require known (.answer "VALIDATION_ERROR" "interval_spec kind is invalid.")
    return spec
  | some _ => .error (.answer "VALIDATION_ERROR" "interval_spec must be an object.")

/-- The time of day of an edit. -/
def editedTime (row : ScheduleRow) : Option Json → Except Refusal String
  | none => .ok row.timeOfDay
  | some (.str t) => do
    require (timePattern t) (.answer "VALIDATION_ERROR" "time_of_day must use HH:MM.")
    return t
  | some _ => .error (.answer "VALIDATION_ERROR" "time_of_day must use HH:MM.")

/-- The type of an edit. -/
def editedType (row : ScheduleRow) : Option Json → Except Refusal String
  | none => .ok row.scheduleType
  | some value => do
    let typed ← memberOf scheduleTypes value
    require typed (.answer "VALIDATION_ERROR" "schedule_type is invalid.")
    return (value.str?).getD row.scheduleType

/-- `enabled` of an edit. -/
def editedEnabled (row : ScheduleRow) : Option Json → Except Refusal Bool
  | none => .ok row.enabled
  | some (.bool b) => .ok b
  | some _ => .error (.answer "VALIDATION_ERROR" "enabled must be a boolean.")

/-- `update_schedule`: the row its edit leaves. -/
def updateSchedule (live : String → Bool) (userId : String) (now : Int) (body : Body)
    (row : ScheduleRow) : Except Refusal ScheduleRow := do
  match (field body "version").int? with
  | none => .error editableRequired
  | some version => do
    require (decide (1 ≤ version) && (body.any fun m => m.1 != "version") &&
      body.all fun m => scheduleKeys.contains m.1) editableRequired
    require row.deletedAt.isNone (.answer "NOT_FOUND" "Schedule not found.")
    let placed ← placement ((body.lookup "scope").getD (.str row.scope))
      ((body.lookup "world_id").getD ((row.worldId.map Json.str).getD .null))
    match placed with
    | none => .error (.answer "VALIDATION_ERROR" "Schedule scope and world_id are inconsistent.")
    | some (scope, worldId) => do
      require ((body.lookup "world_id").isNone || worldId.all live)
        (.answer "NOT_FOUND" "World not found.")
      let intervalSpec ← editedSpec row (body.lookup "interval_spec")
      let timeOfDay ← editedTime row (body.lookup "time_of_day")
      let scheduleType ← editedType row (body.lookup "schedule_type")
      let enabled ← editedEnabled row (body.lookup "enabled")
      require (version == row.version)
        (.answer "CONFIG_VERSION_CONFLICT" "Configuration changed; reload and retry.")
      return { row with
        scope, worldId, scheduleType, intervalSpec, timeOfDay, enabled
        version := row.version + 1, lastChangedBy := some userId, lastChangedAt := now }

/-- `delete_schedule`: the row its edit leaves. -/
def deleteSchedule (userId : String) (now : Int) (row : ScheduleRow) :
    Except Refusal ScheduleRow :=
  if row.deletedAt.isSome then .error (.answer "NOT_FOUND" "Schedule not found.")
  else .ok { row with
    enabled := false, deletedAt := some now, deletedBy := some userId
    lastChangedBy := some userId, version := row.version + 1 }

/-- The tables of schedules that the routes build up. -/
inductive Accepted : List ScheduleRow → Prop
  | empty : Accepted []
  | created {rows : List ScheduleRow} {row : ScheduleRow} (live : String → Bool)
      (userId scheduleId : String) (now : Int) (body : Body) :
      Accepted rows → createSchedule live userId scheduleId now body = .ok row →
      Accepted (rows ++ [row])
  | updated {before after : List ScheduleRow} {row row' : ScheduleRow} (live : String → Bool)
      (userId : String) (now : Int) (body : Body) :
      Accepted (before ++ row :: after) → updateSchedule live userId now body row = .ok row' →
      Accepted (before ++ row' :: after)
  | deleted {before after : List ScheduleRow} {row row' : ScheduleRow} (userId : String)
      (now : Int) :
      Accepted (before ++ row :: after) → deleteSchedule userId now row = .ok row' →
      Accepted (before ++ row' :: after)

/-- The intervals and times of day that the routes let in. -/
def Admissible (spec : Body) (timeOfDay : String) : Prop :=
  knownKind spec = .ok true ∧ timePattern timeOfDay = true

theorem knownKind_kindOf {spec : Body} (h : knownKind spec = .ok true) :
    ∃ kind ∈ intervalKinds, kindOf spec = some kind := by
  unfold knownKind at h
  unfold kindOf
  cases hkind : spec.lookup "kind" with
  | none =>
    rw [hkind, Option.none_or] at h
    cases htype : spec.lookup "type" with
    | none =>
      rw [htype] at h
      exact nomatch h
    | some value =>
      rw [htype] at h
      cases value with
      | str s => exact ⟨s, by simpa [memberOf] using h, rfl⟩
      | _ => exact nomatch h
  | some value =>
    rw [hkind, Option.some_or] at h
    cases value with
    | str s =>
      have listed : s ∈ intervalKinds := by simpa [memberOf] using h
      refine ⟨s, listed, ?_⟩
      have nonempty : s ≠ "" := by
        rintro rfl
        exact absurd listed (by decide)
      simp [Json.truthy, nonempty, Json.str?]
    | _ => exact nomatch h

theorem intOf_two {a b : Char} {m n : Nat} (ha : PythonInt.decimal a = some m)
    (hb : PythonInt.decimal b = some n) : intOf [a, b] = .ok (10 * m + n) := by
  simp only [intOf, Json.toInt, String.toList_ofList, PythonInt.ofText_two ha hb]

/-- A time of day that matches the pattern is read as an hour and a minute of the day. -/
theorem parseTimeOfDay_pattern {value : String} (h : timePattern value = true) :
    ∃ hour minute : Int, parseTimeOfDay value = .ok (hour, minute) ∧
      (0 ≤ hour ∧ hour ≤ 23) ∧ 0 ≤ minute ∧ minute ≤ 59 := by
  unfold timePattern at h
  split at h
  · rename_i a b c d chars
    rw [Bool.and_eq_true, Bool.and_eq_true] at h
    obtain ⟨⟨hours, tens⟩, units⟩ := h
    obtain ⟨v, hd⟩ := Option.isSome_iff_exists.mp units
    have hv : v < 10 := by
      obtain ⟨_, _, _, small⟩ := PythonInt.decimal_some hd
      exact small
    have hc : ∃ u, PythonInt.decimal c = some u ∧ u ≤ 5 := by
      have all : ∀ c ∈ ['0', '1', '2', '3', '4', '5'], PythonInt.decimal c = some (c.toNat - 48) ∧
          c.toNat - 48 ≤ 5 := by
        intro c hc
        simp only [List.mem_cons, List.not_mem_nil, or_false] at hc
        rcases hc with rfl | rfl | rfl | rfl | rfl | rfl <;> decide
      exact ⟨_, all c (by simpa using tens)⟩
    have hab : ∃ m n, PythonInt.decimal a = some m ∧ PythonInt.decimal b = some n ∧
        10 * m + n ≤ 23 := by
      rw [Bool.or_eq_true, Bool.and_eq_true, Bool.and_eq_true] at hours
      obtain ⟨low, digit⟩ | ⟨two, upTo⟩ := hours
      · obtain ⟨n, hn⟩ := Option.isSome_iff_exists.mp digit
        obtain ⟨_, _, _, small⟩ := PythonInt.decimal_some hn
        have all : ∀ a ∈ ['0', '1'], PythonInt.decimal a = some (a.toNat - 48) ∧
            a.toNat - 48 ≤ 1 := by
          intro a ha
          simp only [List.mem_cons, List.not_mem_nil, or_false] at ha
          rcases ha with rfl | rfl <;> decide
        obtain ⟨ha, least⟩ := all a (by simpa using low)
        exact ⟨_, n, ha, hn, by omega⟩
      · have all : ∀ b ∈ ['0', '1', '2', '3'], PythonInt.decimal b = some (b.toNat - 48) ∧
            b.toNat - 48 ≤ 3 := by
          intro b hb
          simp only [List.mem_cons, List.not_mem_nil, or_false] at hb
          rcases hb with rfl | rfl | rfl | rfl <;> decide
        obtain ⟨hb, least⟩ := all b (by simpa using upTo)
        obtain rfl : a = '2' := by simpa using two
        exact ⟨2, _, by decide, hb, by omega⟩
    obtain ⟨m, n, ha, hb, hour⟩ := hab
    obtain ⟨u, hc, minute⟩ := hc
    refine ⟨10 * m + n, 10 * u + v, ?_, by omega, by omega⟩
    have notA := (PythonInt.decimal_ne ha).2.2.2
    have notB := (PythonInt.decimal_ne hb).2.2.2
    have hours : value.toList.takeWhile (· ≠ ':') = [a, b] := by
      rw [chars]
      simp [notA, notB]
    have rest : value.toList.dropWhile (· ≠ ':') = [':', c, d] := by
      rw [chars]
      simp [notA, notB]
    unfold parseTimeOfDay
    rw [hours, rest]
    simp only [intOf_two ha hb, intOf_two hc hd, bind, Except.bind, pure, Except.pure]
  · exact nomatch h

theorem bind_ok {ε α β : Type} {x : Except ε α} {f : α → Except ε β} {b : β}
    (h : x >>= f = .ok b) : ∃ a, x = .ok a ∧ f a = .ok b := by
  cases x with
  | error e => exact nomatch h
  | ok a => exact ⟨a, rfl, h⟩

theorem require_ok {holds : Bool} {refusal : Refusal} {u : Unit}
    (h : require holds refusal = .ok u) : holds = true := by
  unfold require at h
  split at h
  · assumption
  · exact nomatch h

/-- An edit keeps what the routes let in. -/
theorem editedSpec_known {row : ScheduleRow} {value : Option Json} {spec : Body}
    (known : knownKind row.intervalSpec = .ok true) (h : editedSpec row value = .ok spec) :
    knownKind spec = .ok true := by
  unfold editedSpec at h
  split at h
  · cases h
    exact known
  · obtain ⟨b, hb, h⟩ := bind_ok h
    obtain ⟨_, holds, h⟩ := bind_ok h
    cases h
    rw [hb, require_ok holds]
  · exact nomatch h

theorem editedTime_pattern {row : ScheduleRow} {value : Option Json} {t : String}
    (timed : timePattern row.timeOfDay = true) (h : editedTime row value = .ok t) :
    timePattern t = true := by
  unfold editedTime at h
  split at h
  · cases h
    exact timed
  · obtain ⟨_, fits, h⟩ := bind_ok h
    cases h
    exact require_ok fits
  · exact nomatch h

theorem createSchedule_admissible {live : String → Bool} {userId scheduleId : String} {now : Int}
    {body : Body} {row : ScheduleRow}
    (h : createSchedule live userId scheduleId now body = .ok row) :
    Admissible row.intervalSpec row.timeOfDay := by
  unfold createSchedule at h
  obtain ⟨placed, -, h⟩ := bind_ok h
  split at h
  · exact nomatch h
  · obtain ⟨typed, -, h⟩ := bind_ok h
    obtain ⟨-, -, h⟩ := bind_ok h
    split at h
    · obtain ⟨known, hknown, h⟩ := bind_ok h
      obtain ⟨_, holds, h⟩ := bind_ok h
      split at h
      · obtain ⟨_, timed, h⟩ := bind_ok h
        obtain ⟨-, -, h⟩ := bind_ok h
        cases h
        rw [require_ok holds] at hknown
        exact ⟨hknown, require_ok timed⟩
      · exact nomatch h
    · exact nomatch h

theorem updateSchedule_admissible {live : String → Bool} {userId : String} {now : Int}
    {body : Body} {row row' : ScheduleRow} (admissible : Admissible row.intervalSpec row.timeOfDay)
    (h : updateSchedule live userId now body row = .ok row') :
    Admissible row'.intervalSpec row'.timeOfDay := by
  unfold updateSchedule at h
  split at h
  · exact nomatch h
  · obtain ⟨-, -, h⟩ := bind_ok h
    obtain ⟨-, -, h⟩ := bind_ok h
    obtain ⟨placed, -, h⟩ := bind_ok h
    split at h
    · exact nomatch h
    · obtain ⟨-, -, h⟩ := bind_ok h
      obtain ⟨spec, hspec, h⟩ := bind_ok h
      obtain ⟨time, htime, h⟩ := bind_ok h
      obtain ⟨type, -, h⟩ := bind_ok h
      obtain ⟨enabled, -, h⟩ := bind_ok h
      obtain ⟨-, -, h⟩ := bind_ok h
      cases h
      exact ⟨editedSpec_known admissible.1 hspec, editedTime_pattern admissible.2 htime⟩

/-- Every row of an accepted table has an interval and a time of day the routes let in. -/
theorem Accepted.admissible {rows : List ScheduleRow} (h : Accepted rows) :
    ∀ row ∈ rows, Admissible row.intervalSpec row.timeOfDay := by
  induction h with
  | empty => exact fun row hrow => absurd hrow List.not_mem_nil
  | created live userId scheduleId now body _ made ih =>
    intro row hrow
    rcases List.mem_append.mp hrow with hrow | hrow
    · exact ih row hrow
    · rw [List.mem_singleton.mp hrow]
      exact createSchedule_admissible made
  | @updated before after old new live userId now body _ edited ih =>
    have kept := updateSchedule_admissible (ih old (by simp)) edited
    intro row hrow
    obtain here | rfl | there : row ∈ before ∨ row = new ∨ row ∈ after := by simpa using hrow
    · exact ih row (by simp [here])
    · exact kept
    · exact ih row (by simp [there])
  | @deleted before after old new userId now _ gone ih =>
    have kept : Admissible new.intervalSpec new.timeOfDay := by
      unfold deleteSchedule at gone
      split at gone
      · exact nomatch gone
      · cases gone
        exact ih old (by simp)
    intro row hrow
    obtain here | rfl | there : row ∈ before ∨ row = new ∨ row ∈ after := by simpa using hrow
    · exact ih row (by simp [here])
    · exact kept
    · exact ih row (by simp [there])

/-- The routes let every admissible interval and time of day in. -/
theorem admissible_created {spec : Body} {timeOfDay : String} (h : Admissible spec timeOfDay)
    (userId scheduleId : String) (now : Int) :
    ∃ body row, createSchedule (fun _ => true) userId scheduleId now body = .ok row ∧
      row.intervalSpec = spec ∧ row.timeOfDay = timeOfDay ∧ row.lastChangedAt = now := by
  refine ⟨[("scope", .str "global"), ("schedule_type", .str "backup"),
    ("interval_spec", .obj spec), ("time_of_day", .str timeOfDay)],
    ⟨scheduleId, "global", none, "backup", spec, timeOfDay, true, 1, some userId, now, none, none,
      now⟩, ?_, rfl, rfl, rfl⟩
  obtain ⟨known, timed⟩ := h
  simp [createSchedule, field, placement, memberOf, scheduleTypes, known, timed, require,
    bind, Except.bind, pure, Except.pure, List.lookup_cons]

end McManager.Web
