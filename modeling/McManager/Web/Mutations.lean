import McManager.Services.OperationFrames
import McManager.Store.Effects
import McManager.Web.WorldManagement

namespace McManager.Web

open Framework Operations

/-- The range `create_world` and `update_runtime_config` check a port against. -/
def PortInRange (port : Int) : Prop := 1 ≤ port ∧ port ≤ 65535

instance (port : Int) : Decidable (PortInRange port) :=
  inferInstanceAs (Decidable (1 ≤ port ∧ port ≤ 65535))

/-- An edit of the runtime fields: it names no display name, and a port only in range. -/
def RuntimeEdit (fields : WorldFields) : Prop :=
  fields.displayName = none ∧ ∀ port, fields.port = some port → PortInRange port

/-- What a queued mutation asks for has passed the checks of its route. -/
def Asked (data : Option OperationData) : Prop :=
  ∀ asked, data = some asked →
    (∀ w, asked.world = some w → PortInRange w.port) ∧
    (asked.queuedRuntimeConfig = true ∨ asked.worldAction ≠ none →
      ∀ after, asked.after = some (.world after) → RuntimeEdit after)

def Queued (db : Database) : Prop := ∀ op ∈ db.operations, Asked op.data

/-- The statements behind the world routes. -/
def Routed : Stmt → Prop
  | .insertWorld row => ∃ w : NewWorld, row = w.row ∧ PortInRange w.port
  | .updateRuntimeConfig _ after _ _ => RuntimeEdit after
  | .editWorld _ fields => ∃ name, fields = { displayName := some name }
  | .insertOperation row => Asked row.data
  | .updateOperation _ _ _ _ _ _ _ data _ => Asked data
  | .setOperationWorld _ _ | .tombstoneWorld _ _ _ _ => True
  | s => s.notes = true

/-- The statements of the routes on `world_instances`. -/
def onWorlds : Stmt → Bool
  | .insertWorld _ | .updateRuntimeConfig _ _ _ _ | .editWorld _ _ | .tombstoneWorld _ _ _ _ => true
  | _ => false

theorem routed_worlds {s : Stmt} {db db' : Database} {n : Nat} (routed : Routed s)
    (elsewhere : onWorlds s = false) (h : s.apply db = .ok (db', n)) : db'.worlds = db.worlds := by
  cases s with
  | insertWorld row => cases elsewhere
  | updateRuntimeConfig worldId after now expectedVersion => cases elsewhere
  | editWorld worldId fields => cases elsewhere
  | tombstoneWorld worldId deletedBy now expectedVersion => cases elsewhere
  | insertOperation row | setOperationWorld opId worldId | insertAudit row
  | insertNotification row =>
    obtain ⟨-, rfl, -⟩ := satisfying_ok.mp h
    rfl
  | claimOperation opId now | cancelOperation opId now errorCode
  | updateOperation opId status checkpoint startedAt finishedAt errorCode message data now =>
    cases h
    rfl
  | _ => cases routed

/-- The row an edit of the runtime fields hits. -/
def hits (worldId : String) (expectedVersion : Int) (w : World) : Bool :=
  w.worldId == worldId && w.metadataVersion == expectedVersion && w.live

/-- The row after an edit of the runtime fields. -/
def configured (after : WorldFields) (now : Int) (w : World) : World :=
  { after.set w with metadataVersion := w.metadataVersion + 1, updatedAt := now }

/-- The row after an edit of the display name. -/
def renamed (name : String) (w : World) : World :=
  { w with displayName := name, metadataVersion := w.metadataVersion + 1 }

theorem insertWorld_ok {db db' : Database} {row : World} {n : Nat}
    (h : (Stmt.insertWorld row).apply db = .ok (db', n)) :
    liveUnique (db.worlds ++ [row]) = true ∧ db' = { db with worlds := db.worlds ++ [row] } := by
  obtain ⟨constraints, rfl, -⟩ := satisfying_ok.mp h
  exact ⟨constraints (_, _) (.tail _ (.tail _ (.tail _ (.head _)))), rfl⟩

theorem updateRuntimeConfig_ok {db db' : Database} {worldId : String} {after : WorldFields}
    {now expectedVersion : Int} {n : Nat}
    (h : (Stmt.updateRuntimeConfig worldId after now expectedVersion).apply db = .ok (db', n)) :
    liveUnique (updateWhere (hits worldId expectedVersion) (configured after now) db.worlds) = true ∧
      db' = { db with
        worlds := updateWhere (hits worldId expectedVersion) (configured after now) db.worlds } := by
  obtain ⟨constraints, rfl, -⟩ := satisfying_ok.mp h
  exact ⟨constraints (_, _) (.tail _ (.head _)), rfl⟩

theorem editWorld_ok {db db' : Database} {worldId name : String} {n : Nat}
    (h : (Stmt.editWorld worldId { displayName := some name }).apply db = .ok (db', n)) :
    liveUnique (updateWhere (·.worldId == worldId) (renamed name) db.worlds) = true ∧
      db' = { db with worlds := updateWhere (·.worldId == worldId) (renamed name) db.worlds } := by
  obtain ⟨constraints, rfl, -⟩ := satisfying_ok.mp h
  exact ⟨constraints (_, _) (.tail _ (.head _)), rfl⟩

theorem records_routed : Records Queued Routed Asked where
  known := fun _ h => h
  notes := by
    intro s hs
    cases s <;> first | exact trivial | exact hs | cases hs
  insert := fun _ h => h
  update := fun _ _ _ _ _ _ _ _ _ h => h

theorem asked_none : Asked none := fun _ h => nomatch h

/-- A mutation's result asks for nothing. -/
theorem asked_result {data : OperationData} (world : data.world = none)
    (flag : data.queuedRuntimeConfig = false) (action : data.worldAction = none) :
    Asked (some data) := by
  intro asked h
  cases h
  constructor
  · intro w hw
    rw [world] at hw
    cases hw
  · intro h
    obtain h | h := h
    · rw [flag] at h
      cases h
    · exact absurd action h

/-- The operations stay ones whose requests passed their checks. -/
theorem queued_apply {s : Stmt} {db db' : Database} {n : Nat} (routed : Routed s)
    (queued : Queued db) (h : s.apply db = .ok (db', n)) : Queued db' := by
  have kept : ∀ {p : Operation → Bool} {f : Operation → Operation},
      (∀ op ∈ db.operations, Asked (f op).data) →
      ∀ op ∈ updateWhere p f db.operations, Asked op.data := by
    intro p f hf op hop
    obtain ⟨old, hold, ⟨-, rfl⟩ | ⟨-, same⟩⟩ := mem_updateWhere.mp hop
    · exact hf old hold
    · rw [same]
      exact queued old hold
  cases s with
  | insertOperation row =>
    obtain ⟨-, rfl, -⟩ := satisfying_ok.mp h
    intro op hop
    obtain hop | hop := List.mem_append.mp hop
    · exact queued op hop
    · rw [List.mem_singleton.mp hop]
      exact routed
  | claimOperation opId now =>
    cases h
    exact kept fun op hop => queued op hop
  | cancelOperation opId now errorCode =>
    cases h
    exact kept fun op hop => queued op hop
  | updateOperation opId status checkpoint startedAt finishedAt errorCode message data now =>
    cases h
    exact kept fun _ _ => routed
  | setOperationWorld opId worldId =>
    obtain ⟨-, rfl, -⟩ := satisfying_ok.mp h
    exact kept fun op hop => queued op hop
  | insertAudit row =>
    obtain ⟨-, rfl, -⟩ := satisfying_ok.mp h
    exact queued
  | insertNotification row =>
    obtain ⟨-, rfl, -⟩ := satisfying_ok.mp h
    exact queued
  | insertWorld row =>
    obtain ⟨-, rfl, -⟩ := satisfying_ok.mp h
    exact queued
  | tombstoneWorld worldId deletedBy now expectedVersion =>
    cases h
    exact queued
  | updateRuntimeConfig worldId after now expectedVersion =>
    obtain ⟨-, rfl, -⟩ := satisfying_ok.mp h
    exact queued
  | editWorld worldId fields =>
    obtain ⟨-, rfl, -⟩ := satisfying_ok.mp h
    exact queued
  | _ => cases routed

theorem portOf_range {value : Json} {port : Int} (h : portOf value = some port) :
    PortInRange port := by
  have := (Option.filter_eq_some_iff.mp h).2
  simpa [PortInRange] using this

theorem createFields_port {body : Body} {fields : CreateFields}
    (h : createFields body = .ok (some fields)) : PortInRange fields.port := by
  unfold createFields at h
  split at h
  · rename_i hport
    cases hs : strategyOf (field body "addressing_strategy") with
    | error e =>
      rw [hs] at h
      cases h
    | ok strategy =>
      rw [hs] at h
      have h := Except.ok.inj h
      simp only [Option.bind_eq_bind, Option.bind_eq_some_iff] at h
      obtain ⟨_, -, _, -, _, -, _, -, h⟩ := h
      cases h
      exact portOf_range hport
  · cases h

theorem runtimeFields_edit {c : Container} {body : Body} {after : WorldFields}
    (h : runtimeFields c body = .ok (.ok after)) : RuntimeEdit after := by
  unfold runtimeFields at h
  dsimp only at h
  split at h
  · cases h
  · split at h
    · cases h
    · cases hs : (body.lookup "addressing_strategy").mapM strategyOf with
      | error e =>
        rw [hs] at h
        cases h
      | ok strategy =>
        rw [hs] at h
        have h : (if strategy = some none then _ else if _ then _ else _) = _ := h
        split at h
        · cases h
        · split at h
          · cases h
          · cases h
            refine ⟨rfl, ?_⟩
            intro port hport
            obtain ⟨value, hvalue, hrange⟩ : ∃ value, body.lookup "port" = some value ∧
                portOf value = some port := by
              cases hv : body.lookup "port" with
              | none => simp [hv] at hport
              | some value => exact ⟨value, rfl, by simpa [hv] using hport⟩
            exact portOf_range hrange

theorem issues_operationResponse {I : Database → Prop} (operation : Operation) (replayed : Bool) :
    Issues I Routed (operationResponse operation replayed) := by
  unfold operationResponse
  split
  · exact Issues.bind Issues.readCommitted fun _ => trivial
  · exact trivial

theorem issues_withKey {I : Database → Prop} {opType : OperationType} {header : Option String}
    {route : String → Prog Response} (h : ∀ key, Issues I Routed (route key)) :
    Issues I Routed (withKey opType header route) := by
  have keyed : Issues I Routed (idempotencyKey header) := by
    unfold idempotencyKey
    split
    · exact Issues.bind Issues.draw fun _ => trivial
    · exact trivial
  unfold withKey
  apply Issues.bind keyed
  intro key
  split
  · exact trivial
  · apply Issues.bind Issues.readCommitted
    intro existing
    split
    · exact issues_operationResponse _ _
    · exact h _

/-- A mutation whose request passed its checks, and what follows it. -/
theorem issues_applyMutation {I : Database → Prop} {op : Operation} {data : OperationData}
    {action : Worlds.MutationAction} {next : OperationData → Prog Unit}
    (asked : Asked (some data))
    (flagged : action = .runtimeConfig → data.queuedRuntimeConfig = true ∨ data.worldAction ≠ none)
    (hnext : ∀ result, Asked (some result) → Issues I Routed (next result)) :
    Issues I Routed ((Worlds.applyMutation op data action).bind next) := by
  have settled : ∀ {block : Block Unit} {t : Site} {result : OperationData},
      block.Within I Routed → Asked (some result) → Issues I Routed
        (((transactionBare t block : Prog Unit).bind fun _ => .ret result).bind next) := by
    intro block t result within hresult
    rw [Program.bind_assoc]
    exact Issues.bind (Issues.transactionBare within) fun _ => hnext result hresult
  cases action with
  | create =>
    unfold Worlds.applyMutation Worlds.applyCreate Worlds.required
    cases hw : data.world with
    | none => exact trivial
    | some w =>
      have block : (Worlds.applyCreateBlock op.opId w).Within I Routed := by
        have place : (Body.write (.setOperationWorld op.opId w.worldId) : Block Unit).Within I
            Routed := ⟨trivial, fun _ => trivial⟩
        intro db _
        dsimp only [Body.query, Body.bind]
        split
        · exact ⟨⟨w, rfl, (asked data rfl).1 w hw⟩, fun _ => place⟩
        · split
          · exact trivial
          · exact place
      exact settled block (asked_result rfl rfl rfl)
  | delete =>
    unfold Worlds.applyMutation Worlds.applyDelete Worlds.required
    cases hv : data.previewVersion with
    | none => exact trivial
    | some expectedVersion =>
      apply Issues.bind Issues.draw
      intro now
      have block : (Worlds.applyDeleteBlock op expectedVersion now).Within I Routed := by
        intro db _
        dsimp only [Body.query, Body.bind]
        split
        · exact trivial
        · split
          · exact trivial
          · split
            · exact trivial
            · refine ⟨trivial, ?_⟩
              intro n
              dsimp only [Body.bind]
              split <;> exact trivial
      exact settled block (asked_result rfl rfl rfl)
  | fileEdit =>
    unfold Worlds.applyMutation Worlds.applyFileEdit
    simp only [Program.bind_eq, Program.pure_eq]
    rw [Program.bind_assoc]
    exact Issues.bind Issues.ask fun _ => hnext data asked
  | runtimeConfig =>
    unfold Worlds.applyMutation Worlds.applyRuntimeConfig Worlds.required
    cases hv : data.expectedVersion with
    | none => exact trivial
    | some expectedVersion =>
      cases ha : data.after.bind EditedFields.world? with
      | none => exact trivial
      | some after =>
        apply Issues.bind Issues.draw
        intro now
        have edit := (asked data rfl).2 (flagged rfl) after (EditedFields.bind_world? ha)
        have block : (Worlds.applyRuntimeConfigBlock op expectedVersion after now).Within I
            Routed := by
          intro db _
          dsimp only [Body.query, Body.bind]
          split
          · exact trivial
          · split
            · exact trivial
            · split
              · exact trivial
              · split
                · exact trivial
                · refine ⟨edit, ?_⟩
                  intro n
                  dsimp only [Body.bind]
                  split <;> exact trivial
        exact settled block (asked_result rfl rfl rfl)

section Routes

variable {I : Database → Prop} (queued : ∀ db, I db → Queued db)
include queued

theorem records_within : Records I Routed Asked :=
  { records_routed with known := fun db h => queued db h }

theorem issues_enqueue {svc : WorldsService} {opType : OperationType} {worldId : Option String}
    {userId key : String} {data : OperationData} (asked : Asked (some data)) :
    Issues I Routed ((Worlds.enqueueWorldMutation svc opType worldId userId key data).bind
      fun r => operationResponse r.1 r.2) :=
  Issues.bind (issues_createWithReplay (records_within queued) asked)
    fun r => issues_operationResponse r.1 r.2

theorem issues_createWorld (c : Container) (userId : String) (header : Option String)
    (body : Option Body) : Issues I Routed (createWorld c userId header body) := by
  apply issues_withKey
  intro key
  dsimp only
  split
  · exact trivial
  · split
    · exact trivial
    · exact trivial
    · rename_i fields hfields
      apply Issues.bind Issues.ask
      intro template
      apply Issues.bind Issues.ask
      intro runtime
      split
      · exact trivial
      · split
        · exact trivial
        · apply Issues.bind Issues.draw
          intro at'
          apply Issues.bind Issues.draw
          intro worldId
          apply Issues.bind Issues.readCommitted
          intro duplicate
          split
          · exact trivial
          · apply issues_enqueue queued
            intro asked h
            cases h
            constructor
            · intro w hw
              cases hw
              exact createFields_port hfields
            · intro _ after hafter
              cases hafter

theorem issues_updateWorld (c : Container) (userId worldId : String) (body : Option Body) :
    Issues I Routed (updateWorld c userId worldId body) := by
  have records := records_within queued
  have edits : ∀ update : Configuration.VersionedUpdate,
      (∃ name, update.edit = .world worldId { displayName := some name }) →
      Issues I Routed (Configuration.updateVersioned c.configuration update) := by
    intro update hupdate
    obtain ⟨name, hedit⟩ := hupdate
    have payload : Asked (some update.edit.payload) := by
      rw [hedit]
      intro asked h
      cases h
      refine ⟨fun w hw => (nomatch hw), ?_⟩
      intro h
      obtain h | h := h
      · cases h
      · exact absurd rfl h
    have creating : ∀ version, Configuration.creatingWorldOverride update version = none := by
      intro version
      unfold Configuration.creatingWorldOverride
      rw [hedit]
    have block : ∀ version now, (Configuration.updateBlock update
        (Configuration.creatingWorldOverride update version) now).Within I Routed := by
      intro version now db _
      rw [creating]
      dsimp only [Body.query, Body.bind]
      split
      · exact trivial
      · rename_i same
        cases same
      · split
        · exact trivial
        · rw [hedit]
          exact ⟨⟨name, rfl⟩, fun _ => trivial⟩
    have valid : update.edit.invalid = none := by
      rw [hedit]
      rfl
    unfold Configuration.updateVersioned
    rw [valid]
    split
    · exact trivial
    · apply Issues.selectWriter_bind
      intro db _
      split
      · exact trivial
      · apply Issues.bind
        · apply Issues.bind (issues_createWithReplay records (asked_result rfl rfl rfl))
          exact fun _ => trivial
        · intro op
          apply Issues.bind (issues_transition records (.inl rfl))
          intro _
          apply Issues.bind Issues.draw
          intro now
          apply Issues.transactionThen (block _ now)
          · exact fun _ => issues_transition records (.inr payload)
          · intro e
            exact Issues.bind (issues_transition records (.inr payload)) fun _ => trivial
  unfold updateWorld
  split
  · exact trivial
  · apply Issues.bind Issues.readCommitted
    intro there
    split
    · exact trivial
    · apply Issues.bind
      · apply Issues.handle
        · exact Issues.bind (edits _ ⟨_, rfl⟩) fun _ => trivial
        · intro e
          unfold renameFailed
          split
          · exact trivial
          · split <;> exact trivial
      · intro refused
        split
        · exact trivial
        · apply Issues.bind
          · apply Issues.bind Issues.readCommitted
            intro row
            split <;> exact trivial
          · exact fun _ => trivial

theorem issues_updateRuntimeConfig (c : Container) (userId worldId : String)
    (header : Option String) (body : Option Body) :
    Issues I Routed (updateRuntimeConfig c userId worldId header body) := by
  apply issues_withKey
  intro key
  dsimp only
  split
  · exact trivial
  · apply Issues.bind Issues.readCommitted
    intro there
    split
    · exact trivial
    · split
      · exact trivial
      · split
        · exact trivial
        · split
          · exact trivial
          · apply Issues.bind
            · unfold runtimeLive
              split
              · exact trivial
              · exact Issues.ask
              · exact trivial
              · exact trivial
              · exact trivial
            · intro live
              split
              · exact trivial
              · split
                · exact trivial
                · exact trivial
                · rename_i after hafter
                  have asked : ∀ data : OperationData, data.world = none →
                      data.after = some (.world after) → Asked (some data) := by
                    intro data hworld hdata asked h
                    cases h
                    refine ⟨fun w hw => (nomatch hworld.symm.trans hw), ?_⟩
                    intro _ after' hafter'
                    obtain rfl : after = after' := by simpa [hdata] using hafter'
                    exact runtimeFields_edit hafter
                  split
                  · exact issues_enqueue queued (asked _ rfl rfl)
                  · apply Issues.bind Issues.readCommitted
                    intro duplicate
                    split
                    · exact trivial
                    · exact issues_enqueue queued (asked _ rfl rfl)

theorem issues_dispatchMutation (svc : WorldsService) {op : Operation} (asked : Asked op.data) :
    Issues I Routed (Worlds.dispatchMutation svc op) := by
  have records := records_within queued
  have data : Asked (some (op.data.getD {})) := by
    cases hdata : op.data with
    | none => exact asked_result rfl rfl rfl
    | some data =>
      rw [hdata] at asked
      exact asked
  unfold Worlds.dispatchMutation
  split
  · exact trivial
  · rename_i action haction
    have flagged : action = .runtimeConfig →
        (op.data.getD {}).queuedRuntimeConfig = true ∨ (op.data.getD {}).worldAction ≠ none := by
      intro h
      rw [h] at haction
      unfold Worlds.mutationAction at haction
      dsimp only at haction
      split at haction
      · split at haction
        · rename_i flag
          exact .inl flag
        · split at haction <;> cases haction
      · right
        intro none
        rw [none] at haction
        cases haction
    have settles : ∀ claimed, Issues I Routed
        (Worlds.settleMutation svc claimed (op.data.getD {}) action) := by
      intro claimed
      apply Issues.handle
      · apply issues_applyMutation data flagged
        intro result hresult
        exact Issues.bind (issues_transition records (.inr hresult)) fun _ => trivial
      · intro e
        apply Issues.handle
        · exact Issues.bind (issues_transition records (.inl rfl)) fun _ => trivial
        · exact fun _ => trivial
    dsimp only
    split
    · apply Issues.bind (issues_claimQueued records)
      intro claimed
      split
      · exact trivial
      · exact Issues.bind (settles _) fun _ => trivial
    · have done : Issues I Routed ((Worlds.settleMutation svc op (op.data.getD {}) action).bind
          fun _ => .ret [op.opId]) := Issues.bind (settles op) fun _ => trivial
      exact done

theorem issues_dispatchMutationRounds (svc : WorldsService) (ops : List Operation)
    (asked : ∀ op ∈ ops, Asked op.data) :
    Issues I Routed (Worlds.dispatchMutationRounds svc ops) := by
  induction ops with
  | nil => exact trivial
  | cons op rest ih =>
    apply Issues.bind (issues_dispatchMutation queued svc (asked op (List.mem_cons_self ..)))
    intro here
    apply Issues.bind (ih fun other h => asked other (List.mem_cons_of_mem op h))
    exact fun _ => trivial

theorem issues_dispatchQueuedWorldMutations (svc : WorldsService) :
    Issues I Routed (Worlds.dispatchQueuedWorldMutations svc) := by
  unfold Worlds.dispatchQueuedWorldMutations
  apply Issues.bind Issues.draw
  intro acquired
  split
  · apply Issues.readCommitted_bind
    intro db hdb
    apply issues_dispatchMutationRounds queued
    intro op hop
    have hop : op ∈ db.operations.filter _ := (List.mem_insertionSort _).mp hop
    exact queued db hdb op (List.mem_of_mem_filter hop)
  · exact trivial

end Routes

/-- The requests that create, rename, configure and delete worlds, and the pass that applies what
they have queued. -/
inductive WorldCall
  | create (userId : String) (key : Option String) (body : Option Body)
  | rename (userId worldId : String) (body : Option Body)
  | configure (userId worldId : String) (key : Option String) (body : Option Body)
  | remove (userId worldId key : String) (previewVersion : Int)
  | dispatch

def WorldCall.program (c : Container) : WorldCall → Prog Unit
  | create userId key body => (createWorld c userId key body).bind fun _ => .ret ()
  | rename userId worldId body => (updateWorld c userId worldId body).bind fun _ => .ret ()
  | configure userId worldId key body =>
    (updateRuntimeConfig c userId worldId key body).bind fun _ => .ret ()
  | remove userId worldId key previewVersion =>
    (Worlds.enqueueWorldMutation c.worlds .deleteWorld (some worldId) userId key {
      worldAction := some "delete", previewVersion := some previewVersion }).bind fun _ => .ret ()
  | dispatch => (Worlds.dispatchQueuedWorldMutations c.worlds).bind fun _ => .ret ()

theorem WorldCall.issues {I : Database → Prop} (queued : ∀ db, I db → Queued db) (c : Container)
    (call : WorldCall) : Issues I Routed (call.program c) := by
  cases call with
  | create userId key body =>
    exact Issues.bind (issues_createWorld queued c userId key body) fun _ => trivial
  | rename userId worldId body =>
    exact Issues.bind (issues_updateWorld queued c userId worldId body) fun _ => trivial
  | configure userId worldId key body =>
    exact Issues.bind (issues_updateRuntimeConfig queued c userId worldId key body) fun _ => trivial
  | remove userId worldId key previewVersion =>
    have asked : Asked (some { worldAction := some "delete"
                               previewVersion := some previewVersion }) := by
      intro asked h
      cases h
      exact ⟨fun _ h => (nomatch h), fun _ _ h => (nomatch h)⟩
    exact Issues.bind (issues_createWithReplay (records_within queued) asked) fun _ => trivial
  | dispatch =>
    exact Issues.bind (issues_dispatchQueuedWorldMutations queued c.worlds) fun _ => trivial

/-- The calls of a run come from the routes and the pass behind them. -/
def Requested (c : Container) (m : ServerMove) : Prop :=
  ∀ p, m = .invoke p → ∃ call : WorldCall, p = call.program c

/-- A template, a Java runtime and a user, and no world yet. -/
def emptyHost : Database :=
  { templates := ["t"], javaRuntimes := [⟨"j", "java"⟩], users := [⟨"u", "u"⟩] }

/-- A body `create_world` accepts. -/
def worldBody (name : String) (port : Int) : Body :=
  [("template_id", .str "t"), ("display_name", .str name), ("port", .int port),
    ("addressing_strategy", .str "port"), ("addressing_value", .str "x"),
    ("java_runtime_id", .str "j")]

def plainContainer : Container :=
  ⟨⟨⟨false, false⟩, false, false⟩, ⟨false, false⟩, fun _ => ""⟩

end McManager.Web
