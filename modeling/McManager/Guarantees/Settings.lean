import McManager.Guarantees.JsonRoundTrip
import McManager.Web.Settings

/-! What the routes tell of the settings, over any run of requests that edit them. -/

namespace McManager.Settings

open Framework RowEdits Web

section Values

/-- What a setting is that a request has given a value. -/
def given (key : String) (value : Json) : Setting :=
  if key ∈ jsonFields && present value then .decoded value else .stored (plain value)

/-- What the value of a column is as a setting. -/
def settingOf (key : String) (value : Value) : Except Exn Setting :=
  if key ∈ jsonFields then decode value else .ok (.stored value)

/-- A setting as it lies over another. -/
def lying (s : Setting) : Option Setting := if s.isNone then none else some s

theorem settingOf_null (key : String) : settingOf key .null = .ok (.stored .null) := by
  rw [settingOf]
  split <;> rfl

theorem settingOf_encoded (key : String) {value : Json} (sound : JsonText.Sound value) :
    settingOf key (encoded key value) = .ok (given key value) := by
  rw [encoded, given]
  by_cases json : key ∈ jsonFields
  · cases there : present value with
    | true =>
      have written : decode (.text (String.ofList (JsonText.render 1 value))) =
          .ok (.decoded value) := by
        rw [decode, String.toList_ofList, JsonText.loads_render value sound]
      simpa [json, settingOf] using written
    | false =>
      have missing : plain value = .null := by
        cases value <;> first | rfl | cases there
      simpa [json, missing] using settingOf_null key
  · simp [json, settingOf]

/-- The last value of a setting, in its column. -/
theorem latest_columnFields {columns : List (String × String)} (keys : (columns.map (·.1)).Nodup)
    (targets : (columns.map (·.2)).Nodup) {key column : String} (mem : (key, column) ∈ columns)
    (values : Body) :
    latest (columnFields columns values) column = (latest values key).map (encoded key) := by
  have found : ∀ k, columns.lookup k = some column ↔ k = key := by
    intro k
    rw [OrderedDict.lookup_iff keys]
    constructor
    · intro mem'
      exact congrArg Prod.fst (List.inj_on_of_nodup_map targets mem' mem rfl)
    · rintro rfl
      exact mem
  have kept := @OrderedDict.latest_ofList String Value String Value _ _ some
    (values.filterMap fun m => (columns.lookup m.1).map fun column => (column, encoded m.1 m.2))
    (by rintro a - b - x ⟨⟩ y ⟨⟩ same; exact same) (by rintro a - b - same; exact congrArg some same)
    column
  rw [List.filterMap_some, List.filterMap_some] at kept
  rw [columnFields, kept]
  clear kept
  induction values using List.reverseRecOn with
  | nil => rfl
  | append_singleton values m ih =>
    have last : latest ([m].filterMap fun m =>
        (columns.lookup m.1).map fun column => (column, encoded m.1 m.2)) column =
          (latest [m] key).map (encoded key) := by
      rw [OrderedDict.latest_single]
      cases target : columns.lookup m.1 with
      | none =>
        have other : m.1 ≠ key := by
          intro same
          rw [(found m.1).mpr same] at target
          cases target
        rw [List.filterMap_cons_none (by rw [target]; rfl), if_neg other]
        rfl
      | some column' =>
        rw [List.filterMap_cons_some (by rw [target]; rfl), List.filterMap_nil,
          OrderedDict.latest_single]
        by_cases same : m.1 = key
        · have there := (found m.1).mpr same
          rw [target] at there
          cases there
          simp [same]
        · have apart : column' ≠ column := by
            rintro rfl
            exact same ((found m.1).mp target)
          rw [if_neg apart, if_neg same]
          rfl
    rw [List.filterMap_append, OrderedDict.latest_append, OrderedDict.latest_append, ih, last]
    cases latest [m] key <;> rfl

/-- The last value of a setting, as something is made of each. -/
theorem latest_made {β : Type*} (make : String → Json → β) (values : Body) (key : String) :
    latest (values.map fun m => (m.1, make m.1 m.2)) key = (latest values key).map (make key) := by
  induction values using List.reverseRecOn with
  | nil => rfl
  | append_singleton values m ih =>
    have last : latest ([m].map fun m => (m.1, make m.1 m.2)) key =
        (latest [m] key).map (make key) := by
      rw [List.map_singleton, OrderedDict.latest_single, OrderedDict.latest_single]
      by_cases here : m.1 = key
      · simp [here]
      · simp [here]
    rw [List.map_append, OrderedDict.latest_append, OrderedDict.latest_append, ih, last]
    cases latest [m] key <;> rfl

theorem mem_of_latest {values : Body} {key : String} {value : Json}
    (h : latest values key = some value) : (key, value) ∈ values := by
  obtain ⟨⟨k, v⟩, found, rfl⟩ := Option.map_eq_some_iff.mp h
  have here : k = key := by simpa using List.find?_some found
  subst here
  exact List.mem_reverse.mp (List.mem_of_find?_eq_some found)

end Values

section Resolving

variable {c : Declaration} {tables : Tables c}

/-- The value of a column of a row; one that is not there has none. -/
def valueOf (row : Option Row) (column : String) : Value := (row.map (·.get column)).getD .null

/-- `resolve_global` reads each column as a setting. -/
theorem resolveGlobal_ok {s : GlobalSettings} :
    resolveGlobal tables = .ok s ↔ firstSettings tables = some (s.settingsId, s.row) ∧
      ∀ key ∈ effectiveKeys, settingOf key (s.row.get key) = .ok (s.get key) := by
  rw [resolveGlobal]
  constructor
  · intro h
    cases first : firstSettings tables with
    | none =>
      rw [first] at h
      cases h
    | some found =>
      obtain ⟨id, row⟩ := found
      rw [first] at h
      dsimp only at h
      cases notes : decode (row.get "notification_defaults") with
      | error e =>
        rw [notes] at h
        cases h
      | ok noted =>
        cases sync : decode (row.get "offsite_sync_defaults") with
        | error e =>
          rw [notes, sync] at h
          cases h
        | ok synced =>
          rw [notes, sync] at h
          cases h
          refine ⟨rfl, fun key mem => ?_⟩
          rw [settingOf, GlobalSettings.get]
          by_cases first : key = "notification_defaults"
          · rw [if_pos (by rw [first]; decide), if_pos first, first]
            exact notes
          by_cases second : key = "offsite_sync_defaults"
          · rw [if_pos (by rw [second]; decide), if_neg first, if_pos second, second]
            exact sync
          · rw [if_neg (by simp [jsonFields, first, second]), if_neg first, if_neg second]
  · rintro ⟨first, settings⟩
    have notes : decode (s.row.get "notification_defaults") = .ok s.notificationDefaults :=
      settings "notification_defaults" (by decide)
    have sync : decode (s.row.get "offsite_sync_defaults") = .ok s.offsiteSyncDefaults :=
      settings "offsite_sync_defaults" (by decide)
    rw [first]
    dsimp only
    rw [notes, sync]
    rfl

theorem resolveGlobal_of {id : String} {row : Row} {f : String → Setting}
    (first : firstSettings tables = some (id, row))
    (settings : ∀ key ∈ effectiveKeys, settingOf key (row.get key) = .ok (f key)) :
    ∃ s, resolveGlobal tables = .ok s ∧ ∀ key ∈ effectiveKeys, s.get key = f key := by
  have read : ∀ key ∈ effectiveKeys, GlobalSettings.get
      ⟨id, row, f "notification_defaults", f "offsite_sync_defaults"⟩ key = f key := by
    intro key mem
    have own := settings key mem
    rw [settingOf] at own
    rw [GlobalSettings.get]
    by_cases notes : key = "notification_defaults"
    · rw [if_pos notes, notes]
    by_cases sync : key = "offsite_sync_defaults"
    · rw [if_neg notes, if_pos sync, sync]
    · rw [if_neg (by simp [jsonFields, notes, sync])] at own
      rw [if_neg notes, if_neg sync]
      exact Except.ok.inj own
  refine ⟨_, resolveGlobal_ok.mpr ⟨first, fun key mem => ?_⟩, read⟩
  rw [read key mem]
  exact settings key mem

theorem resolveGlobal_congr {tables' : Tables c}
    (same : tables' .globalSettings = tables .globalSettings) :
    settingsIds tables' = settingsIds tables ∧ resolveGlobal tables' = resolveGlobal tables := by
  have ids : settingsIds tables' = settingsIds tables := by rw [settingsIds, settingsIds, same]
  have first : firstSettings tables' = firstSettings tables := by
    rw [firstSettings, firstSettings, ids, same]
  refine ⟨ids, ?_⟩
  rw [resolveGlobal, resolveGlobal, first]

/-- The row of the settings, by its id. -/
theorem firstSettings_iff {id : String} {row : Row} : firstSettings tables = some (id, row) ↔
    (settingsIds tables).min? = some id ∧ rowAt tables (.globalSettings, id) = some row := by
  rw [firstSettings, rowAt]
  constructor
  · intro h
    obtain ⟨id', first, h⟩ := Option.bind_eq_some_iff.mp h
    obtain ⟨row', found, h⟩ := Option.bind_eq_some_iff.mp h
    cases h
    exact ⟨first, found⟩
  · rintro ⟨first, found⟩
    exact Option.bind_eq_some_iff.mpr ⟨id, first, Option.bind_eq_some_iff.mpr ⟨row, found, rfl⟩⟩

/-- What `resolve_world` finds over the settings of the manager. -/
def overOf (o : Option WorldSettings) (key : String) : Option Setting :=
  (overrides.lookup key).bind fun column => o.bind (·.override column)

theorem lookup_overrides {key column : String} :
    overrides.lookup key = some column ↔ (key, column) ∈ overrides :=
  OrderedDict.lookup_iff (by decide)

theorem overOf_none (key : String) : overOf none key = none := by
  rw [overOf]
  cases overrides.lookup key <;> rfl

theorem overOf_some {ws : WorldSettings} {key column : String} (mem : (key, column) ∈ overrides) :
    overOf (some ws) key = lying (ws.get column) := by
  rw [overOf, lookup_overrides.mpr mem]
  rfl

theorem overOf_other {o : Option WorldSettings} {key : String} (h : key ∉ overrides.map (·.1)) :
    overOf o key = none := by
  have unnamed : overrides.lookup key = none := by
    cases named : overrides.lookup key with
    | none => rfl
    | some column => exact absurd (List.mem_map_of_mem (lookup_overrides.mp named)) h
  rw [overOf, unnamed]
  rfl

/-- A column of a world is the setting it lies over. -/
theorem settingOf_override {ws : WorldSettings}
    (h : decode (ws.row.get "offsite_sync_override") = .ok ws.offsiteSyncOverride)
    {key column : String} (mem : (key, column) ∈ overrides) :
    settingOf key (ws.row.get column) = .ok (ws.get column) := by
  rw [settingOf, WorldSettings.get]
  by_cases sync : column = "offsite_sync_override"
  · subst sync
    have target : key = "offsite_sync_defaults" := by simpa [overrides] using mem
    rw [if_pos (by rw [target]; decide), if_pos rfl]
    exact h
  · have other : key ∉ jsonFields := by
      intro json
      rcases List.mem_cons.mp json with rfl | json
      · simp [overrides] at mem
      · rw [List.mem_singleton.mp json] at mem
        simp [overrides] at mem
        exact sync mem
    rw [if_neg other, if_neg sync]

/-- `resolve_world` reads each column as the setting it lies over. -/
theorem resolveWorld_ok {worldId : String} {above : String → Option Setting} :
    (∃ o, resolveWorld tables worldId = .ok o ∧ above = overOf o) ↔
      (∀ key column, (key, column) ∈ overrides →
        ∃ s, settingOf key (valueOf (rowAt tables (.worldSettings, worldId)) column) = .ok s ∧
          lying s = above key) ∧
      ∀ key, key ∉ overrides.map (·.1) → above key = none := by
  rw [resolveWorld, rowAt]
  cases found : (tables .worldSettings).find (.text worldId) with
  | none =>
    constructor
    · rintro ⟨o, resolved, rfl⟩
      cases resolved
      refine ⟨fun key column mem => ⟨_, settingOf_null key, ?_⟩, fun key other => overOf_other other⟩
      rw [overOf_none]
      rfl
    · rintro ⟨own, others⟩
      refine ⟨none, rfl, funext fun key => ?_⟩
      rw [overOf_none]
      by_cases named : key ∈ overrides.map (·.1)
      · obtain ⟨⟨k, column⟩, mem, rfl⟩ := List.mem_map.mp named
        obtain ⟨s, read, same⟩ := own k column mem
        have nothing := (settingOf_null k).symm.trans read
        cases nothing
        exact same.symm
      · exact others key named
  | some row =>
    dsimp only
    constructor
    · rintro ⟨o, resolved, rfl⟩
      cases sync : decode (row.get "offsite_sync_override") with
      | error e =>
        rw [sync] at resolved
        cases resolved
      | ok s =>
        rw [sync] at resolved
        cases resolved
        refine ⟨fun key column mem => ?_, fun key other => overOf_other other⟩
        exact ⟨_, @settingOf_override ⟨row, s⟩ sync _ _ mem, (overOf_some mem).symm⟩
    · rintro ⟨own, others⟩
      obtain ⟨s, sync, -⟩ := own "offsite_sync_defaults" "offsite_sync_override" (by decide)
      have decoded : decode (row.get "offsite_sync_override") = .ok s := sync
      refine ⟨some { row, offsiteSyncOverride := s }, by rw [decoded]; rfl, funext fun key => ?_⟩
      by_cases named : key ∈ overrides.map (·.1)
      · obtain ⟨⟨k, column⟩, mem, rfl⟩ := List.mem_map.mp named
        obtain ⟨s', read, same⟩ := own k column mem
        have known := (@settingOf_override ⟨row, s⟩ decoded _ _ mem).symm.trans read
        rw [overOf_some mem, ← same]
        exact congrArg lying (Except.ok.inj known).symm
      · rw [others key named, overOf_other named]

theorem resolveWorld_congr {tables' : Tables c} {worldId : String}
    (same : rowAt tables' (.worldSettings, worldId) = rowAt tables (.worldSettings, worldId)) :
    resolveWorld tables' worldId = resolveWorld tables worldId := by
  rw [rowAt, rowAt] at same
  rw [resolveWorld, resolveWorld, same]

/-- The settings of a world, from those of the manager and what lies over them. -/
theorem resolveEffective_ok {first later : Tables c} {worldId : String} {s : GlobalSettings}
    {o : Option WorldSettings} (base : resolveGlobal first = .ok s)
    (above : resolveWorld later worldId = .ok o) :
    resolveEffective first later worldId =
      .ok (effectiveKeys.map fun key => (key, Layers.through s.get (overOf o) key)) := by
  have folded : ∀ ws : WorldSettings, overrides.foldl (fun effective o =>
      ((ws.override o.2).map (OrderedDict.set effective o.1)).getD effective)
        (effectiveKeys.map fun key => (key, s.get key)) =
      effectiveKeys.map fun key => (key, Layers.through s.get (overOf (some ws)) key) := by
    intro ws
    have known : ∀ o ∈ overrides, o.1 ∈ effectiveKeys := by decide
    exact OrderedDict.set_over ws.override known (by decide) s.get
  rw [resolveEffective, base, above]
  cases o with
  | none =>
    refine congrArg Except.ok (List.map_congr_left fun key mem => ?_)
    rw [Layers.through, overOf_none]
    rfl
  | some ws => exact congrArg Except.ok (folded ws)

end Resolving

section Edits

variable {c : Declaration}

/-- A column that an edit changes only when it is named. -/
structure Ordinary (c : Declaration) (entity : ConfigEditEntity) (column : String) : Prop where
  unstamped : column ∉ ["updated_at", "updated_by", "last_changed_at"]
  unversioned : column ≠ "version"
  unkeyed : column ≠ "world_id"
  bare : entity = .worldSettings → c.defaults entity column = .null

section Columns

variable {call : Call c} {tables : Tables c} {t : VersionTable} {new : Row}
variable {table' : Table (c.schema call.update.entity)}

/-- The ordinary columns of a row that is there. -/
theorem assigned_columns (counted : t.versionColumn = "version")
    (accepted : refusal call.course t call.seen call.update = none) {row : Row}
    (found : (tables call.update.entity).find call.update.key = some row) {column : String}
    (ordinary : Ordinary c call.update.entity column) :
    (row.assign (assignments t call.update row call.now)).get column =
      (latest call.update.fields column).getD (row.get column) := by
  have shape := (tables call.update.entity).shaped row (Table.find_own found).1
  by_cases there : column ∈ (c.schema call.update.entity).columns
  · have unstamped : column ∉ (stamps call.update call.now).map (·.1) := by
      intro mem
      obtain ⟨s, listed, rfl⟩ := List.mem_map.mp mem
      exact ordinary.unstamped (stamps_listed listed)
    rw [get_assigned found there (by rw [counted]; exact ordinary.unversioned),
      latest_unstamped unstamped, ite_self, Option.or_none]
  · have unnamed : column ∉ call.update.names := fun mem =>
      there ((names_of_accepted accepted).2.2 column mem)
    rw [Row.get_missing (by rw [Row.columns_assign, shape]; exact there), latest_unnamed unnamed,
      Row.get_missing (by rw [shape]; exact there)]
    rfl

/-- The ordinary columns of a new row. -/
theorem fresh_columns (settings : call.update.entity = .worldSettings)
    (accepted : refusal call.course t call.seen call.update = none) (userId : String)
    {column : String} (ordinary : Ordinary c call.update.entity column) :
    ((c.schema call.update.entity).fresh (c.defaults call.update.entity)
      (insertFields call.update userId call.now)).get column =
        (latest call.update.fields column).getD .null := by
  obtain ⟨unstamped, unversioned, unkeyed, bare⟩ := ordinary
  simp only [List.mem_cons, List.not_mem_nil, or_false, not_or] at unstamped
  by_cases there : column ∈ (c.schema call.update.entity).columns
  · rw [Schema.fresh, Row.get_build _ there, latest_insertFields, if_neg unstamped.2.1,
      if_neg unstamped.1, if_neg unversioned, if_neg unkeyed, Option.or_none, bare settings]
  · have unnamed : column ∉ call.update.names := fun mem =>
      there ((names_of_accepted accepted).2.2 column mem)
    have shape : ((c.schema call.update.entity).fresh (c.defaults call.update.entity)
        (insertFields call.update userId call.now)).columns =
          (c.schema call.update.entity).columns := by
      rw [Row.columns, Schema.fresh, List.map_map]
      exact List.map_id _
    rw [Row.get_missing (by rw [shape]; exact there), latest_unnamed unnamed]
    rfl

end Columns

/-- A call leaves the tables, or it sets the ordinary columns that it names in its row. -/
theorem call_columns (call : Call c) (tables : Tables c)
    (settings : call.update.entity = .globalSettings ∨ call.update.entity = .worldSettings) :
    (call.after tables = tables ∧ (call.result tables).isOk = false) ∨
      (call.after tables call.update.entity).rows ≠ (tables call.update.entity).rows ∧
      ∃ after, rowAt (call.after tables) (call.update.entity, call.update.rowId) = some after ∧
        ∀ column, Ordinary c call.update.entity column →
          after.get column = (latest call.update.fields column).getD
            (valueOf (rowAt tables (call.update.entity, call.update.rowId)) column) := by
  rcases call_cases call tables with same | ⟨t, new, table', versioned, accepted, edited, after⟩
  · exact .inl same
  have counted : t.versionColumn = "version" := by
    rcases settings with entity | entity
    · rw [entity] at versioned
      cases versioned
      rfl
    · rw [entity] at versioned
      cases versioned
      rfl
  obtain ⟨key, keyed, -⟩ := c.keyed _ t versioned
  have own : ∀ row, table'.find call.update.key = some row →
      rowAt (call.after tables) (call.update.entity, call.update.rowId) = some row := by
    intro row found
    rw [rowAt, after, Function.update_self]
    exact found
  refine .inr ⟨?_, ?_⟩
  · intro same
    have still : rowAt (call.after tables) (call.update.entity, call.update.rowId) =
        rowAt tables (call.update.entity, call.update.rowId) := by
      rw [rowAt, rowAt, Table.find, Table.find]
      exact congrArg _ same
    obtain ⟨row, found, version, -⟩ := carries_iff versioned accepted edited
    have before := edit_expected versioned edited
    rw [versionAt, ← still, own row found] at before
    simp only [versionOf, versioned, version] at before
    omega
  · cases found : (tables call.update.entity).find call.update.key with
    | some row =>
      obtain ⟨-, stored, -⟩ := edit_row found edited
      refine ⟨_, own _ (Table.find_update stored found (latest_key versioned accepted) (key ▸ keyed)),
        fun column ordinary => ?_⟩
      rw [assigned_columns counted accepted found ordinary, rowAt]
      exact congrArg _ (congrArg (valueOf · column) found).symm
    | none =>
      obtain ⟨creates, userId, actor, stored⟩ := edit_fresh found edited
      simp only [creatingWorldOverride, Bool.and_eq_true, decide_eq_true_eq] at creates
      obtain ⟨⟨world, -⟩, -⟩ := creates
      have named : latest (insertFields call.update userId call.now)
          (c.schema call.update.entity).key = some call.update.key := by
        have column : t.keyColumn = "world_id" := by
          rw [world] at versioned
          cases versioned
          rfl
        have unkeyed := (names_of_accepted accepted).1
        rw [column] at unkeyed
        rw [key, column, latest_insertFields, latest_unnamed unkeyed]
        rfl
      refine ⟨_, own _ (Table.find_insert stored named (key ▸ keyed)), fun column ordinary => ?_⟩
      rw [fresh_columns world accepted userId ordinary, rowAt]
      exact congrArg _ (congrArg (valueOf · column) found).symm

/-- A call leaves the keys of every table in which it makes no rows. -/
theorem keys_after (call : Call c) (tables : Tables c) {entity : ConfigEditEntity}
    (other : entity ≠ .worldSettings) :
    (call.after tables entity).rows.map (·.get (c.schema entity).key) =
      (tables entity).rows.map (·.get (c.schema entity).key) := by
  rcases call_cases call tables with ⟨same, -⟩ | ⟨t, new, table', versioned, accepted, edited, after⟩
  · rw [same]
  by_cases own : entity = call.update.entity
  · subst own
    obtain ⟨key, keyed, -⟩ := c.keyed _ t versioned
    rw [after, Function.update_self]
    cases found : (tables call.update.entity).find call.update.key with
    | some row =>
      obtain ⟨-, stored, -⟩ := edit_row found edited
      exact Table.keys_update stored (latest_key versioned accepted) (key ▸ keyed)
    | none =>
      obtain ⟨creates, -⟩ := edit_fresh found edited
      simp only [creatingWorldOverride, Bool.and_eq_true, decide_eq_true_eq] at creates
      exact absurd creates.1.1 other
  · rw [after, Function.update_of_ne own]

/-- A call leaves the tables of other entities. -/
theorem call_table (call : Call c) (tables : Tables c) {entity : ConfigEditEntity}
    (other : entity ≠ call.update.entity) : call.after tables entity = tables entity := by
  rcases call_cases call tables with ⟨same, -⟩ | ⟨t, new, table', -, -, -, after⟩
  · rw [same]
  · rw [after, Function.update_of_ne other]

theorem settingsIds_after (call : Call c) (tables : Tables c) :
    settingsIds (call.after tables) = settingsIds tables := by
  have keys := @keys_after _ call tables .globalSettings (by decide)
  have read : ∀ tables : Tables c, settingsIds tables =
      ((tables .globalSettings).rows.map (·.get (c.schema .globalSettings).key)).filterMap textOf := by
    intro tables
    rw [settingsIds, List.filterMap_map]
    rfl
  rw [read, read, keys]

end Edits

section Runs

variable {c : Declaration}

/-- The tables before so many changes. -/
def ago (past : List (Tables c)) (tables : Tables c) (n : Nat) : Tables c :=
  (tables :: past)[n]?.getD tables

/-- What happens to the tables: a request edits settings, after looks at the tables as they were
some time ago, or another call writes another table. -/
inductive Event (c : Declaration)
  | global (request : Request) (asked seen : Nat)
  | world (worldId : String) (request : Request) (checked seen : Nat)
  | elsewhere (entity : ConfigEditEntity) (table : Table (c.schema entity))

namespace Event

def serve (past : List (Tables c)) (tables : Tables c) : Event c → Except Answer Row × Tables c
  | global request asked seen =>
    editGlobalSettings request (ago past tables asked) (ago past tables seen) tables
  | world worldId request checked seen =>
    editWorldSettings request worldId (ago past tables checked) (ago past tables seen) tables
  | elsewhere entity table =>
    (.ok [], if entity = .globalSettings ∨ entity = .worldSettings then tables
      else Function.update tables entity table)

/-- The values that a request has in its body. -/
def values (request : Request) : Body :=
  match JsonText.loads request.text with
  | some (.obj members) => requested members
  | _ => []

/-- What a request asks of the settings, and of which table. -/
def asks : Event c → Option (ConfigEditEntity × Layers.Edit String String Setting)
  | global request _ _ =>
    some (.globalSettings, .base ((values request).map fun m => (m.1, given m.1 m.2)))
  | world worldId request _ _ =>
    some (.worldSettings, .above worldId ((values request).map fun m => (m.1, lying (given m.1 m.2))))
  | elsewhere _ _ => none

/-- The edit that a request makes of the settings, if it changes its table. -/
def edits (past : List (Tables c)) (tables : Tables c) (e : Event c) :
    Option (Layers.Edit String String Setting) :=
  e.asks.bind fun ask =>
    if ((e.serve past tables).2 ask.1).rows = (tables ask.1).rows then none else some ask.2

end Event

/-- The tables, as they have been and are, and the settings in them. -/
structure Run (c : Declaration) where
  past : List (Tables c)
  tables : Tables c
  layers : Layers String String Setting

/-- The settings that the tables have at first. -/
def Run.start (tables : Tables c) : Run c where
  past := []
  tables := tables
  layers :=
    { base := fun key =>
        match resolveGlobal tables with
        | .ok settings => settings.get key
        | .error _ => .stored .null
      above := fun worldId =>
        match resolveWorld tables worldId with
        | .ok o => overOf o
        | .error _ => overOf none }

def Run.step (r : Run c) (e : Event c) : Run c where
  past := r.tables :: r.past
  tables := (e.serve r.past r.tables).2
  layers := ((e.edits r.past r.tables).map r.layers.edit).getD r.layers

/-- The run after so many of its events. -/
def Run.upTo (start : Tables c) (events : List (Event c)) (n : Nat) : Run c :=
  (events.take n).foldl Run.step (Run.start start)

/-- The routes can read what the tables have. -/
def Readable (tables : Tables c) : Prop :=
  (∃ s, resolveGlobal tables = .ok s) ∧ ∀ worldId, ∃ o, resolveWorld tables worldId = .ok o

/-- The tables have these settings. -/
structure Shows (tables : Tables c) (layers : Layers String String Setting) : Prop where
  base : ∃ s, resolveGlobal tables = .ok s ∧ ∀ key ∈ effectiveKeys, s.get key = layers.base key
  above : ∀ worldId, ∃ o, resolveWorld tables worldId = .ok o ∧ layers.above worldId = overOf o

theorem shows_start {tables : Tables c} (readable : Readable tables) :
    Shows tables (Run.start tables).layers := by
  obtain ⟨⟨s, resolved⟩, worlds⟩ := readable
  refine ⟨⟨s, resolved, fun key _ => ?_⟩, fun worldId => ?_⟩
  · simp only [Run.start, resolved]
  · obtain ⟨o, found⟩ := worlds worldId
    exact ⟨o, found, by simp only [Run.start, found]⟩

/-- What a request that is read asks for. -/
theorem requestUpdate_some {columns : List (String × String)} {worldOverride : Bool}
    {request : Request} {parsed : Parsed}
    (h : requestUpdate columns worldOverride (JsonText.loads request.text) = some parsed) :
    parsed.fields = columnFields columns (Event.values request) ∧
      ∀ m ∈ Event.values request, (columns.lookup m.1).isSome = true ∧ JsonText.Sound m.2 := by
  unfold requestUpdate at h
  cases read : JsonText.loads request.text with
  | none =>
    rw [read] at h
    cases h
  | some body =>
    rw [read] at h
    have sound := JsonText.sound_of_loads read
    cases body with
    | obj members =>
      have values : Event.values request = requested members := by rw [Event.values, read]
      dsimp only at h
      split at h
      · split at h
        · cases h
        · rename_i known
          cases h
          rw [values]
          refine ⟨rfl, fun m mem => ⟨?_, ?_⟩⟩
          · simp only [Bool.or_eq_true, List.any_eq_true, not_or, not_exists, not_and] at known
            simpa using known.1.2 m mem
          · exact JsonText.soundMembers_iff.mp sound.2 m (List.mem_of_mem_filter mem)
      · cases h
    | _ => cases h

variable {tables : Tables c} {layers : Layers String String Setting}

/-- What the edit of a request sets. -/
theorem edit_columns (request : Request) (parsed : Parsed) (seen tables : Tables c)
    {entity : ConfigEditEntity} (settings : entity = .globalSettings ∨ entity = .worldSettings)
    (rowId : String) :
    ((request.edit entity rowId parsed seen).after tables = tables ∧
        ((request.edit entity rowId parsed seen).result tables).isOk = false) ∨
      ((request.edit entity rowId parsed seen).after tables entity).rows ≠ (tables entity).rows ∧
      ∃ after, rowAt ((request.edit entity rowId parsed seen).after tables) (entity, rowId) =
          some after ∧
        ∀ column, Ordinary c entity column → after.get column =
          (latest parsed.fields column).getD (valueOf (rowAt tables (entity, rowId)) column) := by
  rcases call_columns (request.edit entity rowId parsed seen) tables settings with
    untouched | touched
  · exact .inl untouched
  · exact .inr touched

/-- A setting whose column an edit may have named. -/
theorem settingOf_edited {values : Body} (sound : ∀ m ∈ values, JsonText.Sound m.2) {key : String}
    {before : Value} {s : Setting} (read : settingOf key before = .ok s) :
    settingOf key (((latest values key).map (encoded key)).getD before) =
      .ok (((latest values key).map (given key)).getD s) := by
  cases named : latest values key with
  | none => exact read
  | some value => exact settingOf_encoded key (sound _ (mem_of_latest named))

theorem ordinary_effective {key : String} (mem : key ∈ effectiveKeys) :
    Ordinary c .globalSettings key := by
  have listed : ∀ key ∈ effectiveKeys, key ∉ ["updated_at", "updated_by", "last_changed_at"] ∧
      key ≠ "version" ∧ key ≠ "world_id" := by decide
  obtain ⟨unstamped, unversioned, unkeyed⟩ := listed key mem
  exact ⟨unstamped, unversioned, unkeyed, fun settings => by cases settings⟩

theorem ordinary_override (bare : ∀ o ∈ overrides, c.defaults .worldSettings o.2 = .null)
    {o : String × String} (mem : o ∈ overrides) : Ordinary c .worldSettings o.2 := by
  have listed : ∀ o ∈ overrides, o.2 ∉ ["updated_at", "updated_by", "last_changed_at"] ∧
      o.2 ≠ "version" ∧ o.2 ≠ "world_id" := by decide
  obtain ⟨unstamped, unversioned, unkeyed⟩ := listed o mem
  exact ⟨unstamped, unversioned, unkeyed, fun _ => bare o mem⟩

/-- What lies over the settings of the manager, after an edit of the columns of a world. -/
theorem over_edited {after : Tables c} {worldId : String} {row : Row} {values : Body}
    (there : rowAt after (.worldSettings, worldId) = some row)
    (columns : ∀ key column, (key, column) ∈ overrides → row.get column =
      ((latest values key).map (encoded key)).getD
        (valueOf (rowAt tables (.worldSettings, worldId)) column))
    (asked : ∀ m ∈ values, (worldFields.lookup m.1).isSome = true ∧ JsonText.Sound m.2)
    (found : ∃ o, resolveWorld tables worldId = .ok o ∧ layers.above worldId = overOf o) :
    ∃ o, resolveWorld after worldId = .ok o ∧
      (layers.edit (.above worldId (values.map fun m => (m.1, lying (given m.1 m.2))))).above worldId =
        overOf o := by
  obtain ⟨known, free⟩ := resolveWorld_ok.mp found
  have edited : ∀ key, (layers.edit (.above worldId
      (values.map fun m => (m.1, lying (given m.1 m.2))))).above worldId key =
        ((latest values key).map fun value => lying (given key value)).getD
          (layers.above worldId key) := by
    intro key
    rw [Layers.above_edit_own, latest_made fun key value => lying (given key value)]
  refine resolveWorld_ok.mpr ⟨fun key column mem => ?_, fun key other => ?_⟩
  · obtain ⟨before, read, lies⟩ := known key column mem
    refine ⟨((latest values key).map (given key)).getD before, ?_, ?_⟩
    · rw [there, valueOf, Option.map_some, Option.getD_some, columns key column mem]
      exact settingOf_edited (fun m mem => (asked m mem).2) read
    · rw [edited]
      cases latest values key with
      | none => exact lies
      | some value => rfl
  · have unnamed : latest values key = none := by
      cases named : latest values key with
      | none => rfl
      | some value =>
        obtain ⟨column, target⟩ := Option.isSome_iff_exists.mp (asked _ (mem_of_latest named)).1
        have listed := lookup_overrides.mp target
        exact absurd (List.mem_map_of_mem listed) other
    rw [edited, unnamed]
    exact free key other

/-- An edit of the settings of the manager. -/
theorem global_step (shows : Shows tables layers) (request : Request) {asked : Tables c}
    (alike : settingsIds asked = settingsIds tables) (seen : Tables c) :
    let after := (editGlobalSettings request asked seen tables).2
    settingsIds after = settingsIds tables ∧
      Shows after (if (after .globalSettings).rows = (tables .globalSettings).rows then layers
        else layers.edit (.base ((Event.values request).map fun m => (m.1, given m.1 m.2)))) := by
  rw [editGlobalSettings]
  cases parse : requestUpdate globalColumns false (JsonText.loads request.text) with
  | none => exact ⟨rfl, by rw [if_pos rfl]; exact shows⟩
  | some parsed =>
    cases first : resolveGlobal asked with
    | error e => exact ⟨rfl, by rw [if_pos rfl]; exact shows⟩
    | ok current =>
      dsimp only
      obtain ⟨fields, named⟩ := requestUpdate_some parse
      refine ⟨settingsIds_after _ _, ?_⟩
      obtain ⟨⟨s, resolved, base⟩, above⟩ := shows
      obtain ⟨known, settings⟩ := resolveGlobal_ok.mp resolved
      obtain ⟨least, found⟩ := firstSettings_iff.mp known
      obtain ⟨least', -⟩ := firstSettings_iff.mp (resolveGlobal_ok.mp first).1
      have same : current.settingsId = s.settingsId := by
        rw [alike, least] at least'
        exact (Option.some.inj least').symm
      rw [same]
      rcases edit_columns request parsed seen tables (.inl rfl) s.settingsId with
        ⟨untouched, -⟩ | ⟨touched, after, there, columns⟩
      · rw [untouched, if_pos rfl]
        exact ⟨⟨s, resolved, base⟩, above⟩
      · rw [if_neg touched]
        constructor
        · have ids := settingsIds_after (request.edit .globalSettings s.settingsId parsed seen) tables
          have least' := (congrArg List.min? ids).trans least
          have first' := firstSettings_iff.mpr ⟨least', there⟩
          refine resolveGlobal_of first' fun key mem => ?_
          have column : (key, key) ∈ globalColumns := List.mem_map.mpr ⟨key, mem, rfl⟩
          have ordinary : Ordinary c .globalSettings key := ordinary_effective mem
          rw [columns key ordinary, Layers.base_edit_base, latest_made, fields,
            latest_columnFields (by decide) (by decide) column, found]
          refine settingOf_edited (fun m mem => (named m mem).2) ?_
          rw [← base key mem]
          exact settings key mem
        · intro worldId
          obtain ⟨o, resolved, shown⟩ := above worldId
          refine ⟨o, ?_, shown⟩
          rw [← resolved]
          apply resolveWorld_congr
          exact call_other _ _ (by intro h; cases h)

/-- An edit of the settings of a world. -/
theorem world_step (bare : ∀ o ∈ overrides, c.defaults .worldSettings o.2 = .null)
    (shows : Shows tables layers) (request : Request) (worldId : String) (checked seen : Tables c) :
    let after := (editWorldSettings request worldId checked seen tables).2
    settingsIds after = settingsIds tables ∧
      Shows after (if (after .worldSettings).rows = (tables .worldSettings).rows then layers
        else layers.edit (.above worldId
          ((Event.values request).map fun m => (m.1, lying (given m.1 m.2))))) := by
  rw [editWorldSettings]
  split
  · cases parse : requestUpdate worldFields true (JsonText.loads request.text) with
    | none => exact ⟨rfl, by rw [if_pos rfl]; exact shows⟩
    | some parsed =>
      dsimp only
      obtain ⟨fields, named⟩ := requestUpdate_some parse
      refine ⟨settingsIds_after _ _, ?_⟩
      obtain ⟨⟨s, resolved, base⟩, above⟩ := shows
      rcases edit_columns request parsed seen tables (.inr rfl) worldId with
        ⟨untouched, -⟩ | ⟨touched, after, there, columns⟩
      · rw [untouched, if_pos rfl]
        exact ⟨⟨s, resolved, base⟩, above⟩
      · rw [if_neg touched]
        constructor
        · refine ⟨s, ?_, base⟩
          rw [← resolved]
          exact (resolveGlobal_congr (call_table _ tables (by intro h; cases h))).2
        · intro w
          by_cases own : w = worldId
          · subst own
            refine over_edited there (fun key column mem => ?_) named (above w)
            have editable : (key, column) ∈ worldFields := mem
            rw [columns column (ordinary_override bare mem), fields,
              latest_columnFields (by decide) (by decide) editable]
          · obtain ⟨o, found, shown⟩ := above w
            refine ⟨o, ?_, ?_⟩
            · rw [← found]
              apply resolveWorld_congr
              exact call_other _ _ (by rintro ⟨⟩; exact own rfl)
            · rw [Layers.above_edit_other _ own]
              exact shown
  · exact ⟨rfl, by rw [if_pos rfl]; exact shows⟩

/-- The tables of a run have its settings, and the manager's have had the ids they have. -/
structure Run.Good (r : Run c) : Prop where
  shows : Shows r.tables r.layers
  alike : ∀ t ∈ r.past, settingsIds t = settingsIds r.tables

theorem settingsIds_ago {past : List (Tables c)} (alike : ∀ t ∈ past, settingsIds t = settingsIds tables)
    (n : Nat) : settingsIds (ago past tables n) = settingsIds tables := by
  rw [ago]
  cases found : (tables :: past)[n]? with
  | none => rfl
  | some t =>
    rcases List.mem_cons.mp (List.mem_of_getElem? found) with now | before
    · rw [Option.getD_some, now]
    · exact alike t before

/-- The settings after an event that asks for an edit. -/
theorem step_layers {r : Run c} {e : Event c} {entity : ConfigEditEntity}
    {edit : Layers.Edit String String Setting} (asks : e.asks = some (entity, edit)) :
    (r.step e).layers =
      if ((e.serve r.past r.tables).2 entity).rows = (r.tables entity).rows then r.layers
      else r.layers.edit edit := by
  rw [Run.step, Event.edits, asks, Option.bind_some]
  dsimp only
  split <;> rfl

/-- Whatever happens, the tables have the settings that the requests ask for. -/
theorem event_step (bare : ∀ o ∈ overrides, c.defaults .worldSettings o.2 = .null) {r : Run c}
    (good : r.Good) (e : Event c) : settingsIds (r.step e).tables = settingsIds r.tables ∧
      Shows (r.step e).tables (r.step e).layers := by
  obtain ⟨past, tables, layers⟩ := r
  obtain ⟨shows, alike⟩ := good
  cases e with
  | global request asked seen =>
    obtain ⟨ids, after⟩ :=
      global_step shows request (settingsIds_ago alike asked) (ago past tables seen)
    refine ⟨ids, ?_⟩
    rw [step_layers (e := .global request asked seen) rfl]
    exact after
  | world worldId request checked seen =>
    obtain ⟨ids, after⟩ :=
      world_step bare shows request worldId (ago past tables checked) (ago past tables seen)
    refine ⟨ids, ?_⟩
    rw [step_layers (e := .world worldId request checked seen) rfl]
    exact after
  | elsewhere entity table =>
    have others : ∀ own, own = .globalSettings ∨ own = .worldSettings →
        (if entity = .globalSettings ∨ entity = .worldSettings then tables
          else Function.update tables entity table) own = tables own := by
      intro own settings
      split
      · rfl
      · rename_i other
        apply Function.update_of_ne
        rintro rfl
        exact other settings
    obtain ⟨ids, resolves⟩ := resolveGlobal_congr (others .globalSettings (.inl rfl))
    obtain ⟨⟨s, resolved, base⟩, above⟩ := shows
    refine ⟨ids, ⟨s, resolves.trans resolved, base⟩, fun worldId => ?_⟩
    obtain ⟨o, found, shown⟩ := above worldId
    refine ⟨o, (resolveWorld_congr ?_).trans found, shown⟩
    exact congrArg (fun t => Table.find t (.text worldId)) (others .worldSettings (.inr rfl))

theorem good_step (bare : ∀ o ∈ overrides, c.defaults .worldSettings o.2 = .null) {r : Run c}
    (good : r.Good) (e : Event c) : (r.step e).Good := by
  obtain ⟨ids, shows⟩ := event_step bare good e
  refine ⟨shows, fun t mem => ?_⟩
  rcases List.mem_cons.mp mem with now | before
  · rw [now, ids]
  · rw [good.alike t before, ids]

theorem good_upTo (bare : ∀ o ∈ overrides, c.defaults .worldSettings o.2 = .null) {start : Tables c}
    (readable : Readable start) (events : List (Event c)) (n : Nat) :
    (Run.upTo start events n).Good := by
  have walk : ∀ (events : List (Event c)) (r : Run c), r.Good → (events.foldl Run.step r).Good := by
    intro events
    induction events with
    | nil => exact fun r good => good
    | cons e events ih => exact fun r good => ih (r.step e) (good_step bare good e)
  refine walk (events.take n) _ ⟨shows_start readable, fun t mem => ?_⟩
  cases mem

theorem isOk_mapError {ε ε' α : Type*} (f : ε → ε') (x : Except ε α) :
    (x.mapError f).isOk = x.isOk := by
  cases x <;> rfl

/-- An edit that returns has changed its table. -/
theorem touched_of_ok {request : Request} {parsed : Parsed} {seen : Tables c}
    {entity : ConfigEditEntity} {rowId : String}
    (settings : entity = .globalSettings ∨ entity = .worldSettings)
    (returned : ((request.edit entity rowId parsed seen).result tables).isOk = true) :
    ((request.edit entity rowId parsed seen).after tables entity).rows ≠ (tables entity).rows := by
  rcases edit_columns request parsed seen tables settings rowId with ⟨-, failed⟩ | ⟨touched, -⟩
  · rw [failed] at returned
    cases returned
  · exact touched

/-- A request that is carried out for its caller edits the settings as it asks. -/
theorem edits_of_answered {past : List (Tables c)} {e : Event c}
    (answered : (e.serve past tables).1.isOk = true) :
    e.edits past tables = e.asks.map (·.2) := by
  cases e with
  | global request asked seen =>
    rw [Event.edits, Event.asks, Option.bind_some, Option.map_some]
    dsimp only
    refine if_neg ?_
    rw [Event.serve, editGlobalSettings] at answered ⊢
    cases parse : requestUpdate globalColumns false (JsonText.loads request.text) with
    | none =>
      rw [parse] at answered
      cases answered
    | some parsed =>
      rw [parse] at answered
      cases first : resolveGlobal (ago past tables asked) with
      | error e =>
        rw [first] at answered
        cases answered
      | ok current =>
        rw [first] at answered
        dsimp only at answered ⊢
        rw [isOk_mapError] at answered
        exact touched_of_ok (.inl rfl) answered
  | world worldId request checked seen =>
    rw [Event.edits, Event.asks, Option.bind_some, Option.map_some]
    dsimp only
    refine if_neg ?_
    rw [Event.serve, editWorldSettings] at answered ⊢
    by_cases there : live (ago past tables checked) worldId = true
    · rw [if_pos there] at answered ⊢
      cases parse : requestUpdate worldFields true (JsonText.loads request.text) with
      | none =>
        rw [parse] at answered
        cases answered
      | some parsed =>
        rw [parse] at answered
        dsimp only at answered ⊢
        rw [isOk_mapError] at answered
        exact touched_of_ok (.inr rfl) answered
    · rw [if_neg there] at answered
      cases answered
  | elsewhere entity table => rfl

/-- Whatever requests edit the settings, however their looks at the tables and their faults fall:
one that returns has made the edit it asks for, and the routes tell at any time what the edits that
were made leave of the settings, those of the manager and over them those of the world, each as they
stood when the route looked at them. -/
theorem settings_told (bare : ∀ o ∈ overrides, c.defaults .worldSettings o.2 = .null)
    (start : Tables c) (readable : Readable start) (events : List (Event c)) :
    (∀ (n : Nat) (e : Event c), events[n]? = some e →
      (e.serve (Run.upTo start events n).past (Run.upTo start events n).tables).1.isOk = true →
      e.edits (Run.upTo start events n).past (Run.upTo start events n).tables =
        e.asks.map (·.2)) ∧
    (∀ n, ∃ version, getGlobalSettings (Run.upTo start events n).tables =
      .settings (globalFields.map fun key => (key, (Run.upTo start events n).layers.base key))
        version) ∧
    ∀ (worldId : String) (checked counted first later : Nat),
      getWorldSettings (Run.upTo start events checked).tables
          (Run.upTo start events counted).tables (Run.upTo start events first).tables
          (Run.upTo start events later).tables worldId =
        if live (Run.upTo start events checked).tables worldId then
          .settings
            (effectiveKeys.map fun key => (key, Layers.through (Run.upTo start events first).layers.base
              ((Run.upTo start events later).layers.above worldId) key))
            ((overrideVersion (Run.upTo start events counted).tables worldId).getD (.integer 0))
        else noWorld := by
  have good := good_upTo bare readable events
  refine ⟨fun n e _ answered => edits_of_answered answered, ?_, ?_⟩
  · intro n
    obtain ⟨s, resolved, base⟩ := (good n).shows.base
    have shown : globalFields.map (fun key => (key, s.get key)) =
        globalFields.map fun key => (key, (Run.upTo start events n).layers.base key) :=
      List.map_congr_left fun key mem => by rw [base key mem]
    rw [getGlobalSettings, resolved]
    exact ⟨_, congrArg (Answer.settings · _) shown⟩
  · intro worldId checked counted first later
    obtain ⟨s, resolved, base⟩ := (good first).shows.base
    obtain ⟨o, found, above⟩ := (good later).shows.above worldId
    have shown : effectiveKeys.map (fun key => (key, Layers.through s.get (overOf o) key)) =
        effectiveKeys.map fun key => (key, Layers.through (Run.upTo start events first).layers.base
          ((Run.upTo start events later).layers.above worldId) key) := by
      refine List.map_congr_left fun key mem => ?_
      rw [Layers.through, Layers.through, above, base key mem]
    rw [getWorldSettings, resolveEffective_ok resolved found, shown]

/-- The tables with the columns that the settings have. -/
def shelf : Declaration where
  schema e := match e, versionTables e with
    | .globalSettings, _ => ⟨["settings_id"] ++ globalFields ++ ["version"], "settings_id", fun _ => none⟩
    | .worldSettings, _ => ⟨["world_id"] ++ overrides.map (·.2) ++
        ["version", "updated_at", "updated_by"], "world_id", fun _ => none⟩
    | _, some t => ⟨[t.keyColumn, t.versionColumn, "deleted_at"], t.keyColumn, fun _ => none⟩
    | _, none => ⟨[], "", fun _ => none⟩
  defaults _ _ := .null
  keyed := by
    intro e t h
    cases e <;> cases h <;> exact ⟨rfl, by decide, by decide⟩

/-- A manager and a world without settings of its own. -/
def home : Tables shelf
  | .globalSettings =>
    ⟨[[("settings_id", .text "global"), ("timezone", .text "UTC"), ("idle_countdown_seconds", .null),
      ("notification_defaults", .null), ("minecraft_root_path", .text "/srv/worlds"),
      ("backup_root_path", .text "/srv/backups"), ("log_root_path", .text "/srv/logs"),
      ("offsite_sync_defaults", .null), ("version", .integer 1)]], by decide, by decide⟩
  | .worldInstances =>
    ⟨[[("world_id", .text "w"), ("metadata_version", .integer 1), ("deleted_at", .null)]],
      by decide, by decide⟩
  | _ => ⟨[], by simp, by simp⟩

/-- A request with a body, at which nothing fails. -/
def asking (text : String) : Request :=
  { text := text.toList, userId := "u", now := 100, course := { opId := "op" } }

def evening : List (Event shelf) :=
  [.global (asking "\x7b\"version\": 1, \"timezone\": \"Europe/Paris\"\x7d") 0 0,
    .world "w" (asking "\x7b\"version\": 0, \"idle_countdown_seconds\": 300\x7d") 0 1]

theorem readable_home : Readable home := by
  have global : (resolveGlobal home).isOk = true := by decide +kernel
  refine ⟨?_, fun worldId => ⟨none, rfl⟩⟩
  cases resolved : resolveGlobal home with
  | ok s => exact ⟨s, rfl⟩
  | error e =>
    rw [resolved] at global
    cases global

/-- What a setting holds that is not decoded. -/
def Setting.value : Setting → Option Value
  | .stored value => some value
  | .decoded _ => none

/-- The zone of the manager is edited, and then the countdown of the world. -/
theorem settings_told_evening :
    ∃ settings, getWorldSettings (Run.upTo home evening 2).tables (Run.upTo home evening 2).tables
        (Run.upTo home evening 2).tables (Run.upTo home evening 2).tables "w" =
        .settings settings (.integer 1) ∧
      settings.map (fun s => s.2.value) =
        [some (.text "Europe/Paris"), some (.integer 300), some .null, some (.text "/srv/worlds"),
          some (.text "/srv/backups"), some (.text "/srv/logs"), some .null] := by
  have told := (settings_told (fun _ _ => rfl) home readable_home evening).2.2 "w" 2 2 2 2
  have there : live (Run.upTo home evening 2).tables "w" = true := by decide +kernel
  have counted : (overrideVersion (Run.upTo home evening 2).tables "w").getD (.integer 0) =
      .integer 1 := by decide +kernel
  rw [if_pos there, counted] at told
  exact ⟨_, told, by decide +kernel⟩

end Runs

end McManager.Settings
