import Mathlib.Logic.Relation
import McManager.Guarantees.Placement
import McManager.Guarantees.WorldLookups

/-! The states of the worlds follow the lifecycle, however the calls of the manager interleave. -/

namespace McManager.Web

open Framework Operations

/-- The states that a world may come to. -/
abbrev Leads : WorldState → WorldState → Prop := Relation.ReflTransGen Taken

/-- The states that only an acknowledgement would leave. -/
def stranded : WorldState → Bool
  | .crashed | .error => true
  | _ => false

/-- What becomes of the row of a world. -/
structure Course (v w : World) : Prop where
  worldId : w.worldId = v.worldId
  state : Leads v.state w.state
  preBackup : w.preBackupState = v.preBackupState ∨ w.preBackupState = none
  deleted : v.deletedAt ≠ none → w.deletedAt = v.deletedAt
  tombstone : w.deletedAt ≠ v.deletedAt → Leads v.state .off

/-- Every row is there later, where it was. -/
def Moved (db db' : Database) : Prop :=
  ∀ (i : Nat) (v : World), db.worlds[i]? = some v → ∃ w, db'.worlds[i]? = some w ∧ Course v w

section Edges

variable {s t : WorldState}

/-- No call takes a crashed or failed world anywhere. -/
theorem taken_stranded (at' : stranded s = true) (h : Taken s t) : t = s := by
  obtain ⟨⟨intent, passes, edge⟩, -⟩ := h
  cases intent with
  | crashAcknowledgement | errorAcknowledgement => exact absurd passes (by decide)
  | ordinary | eulaAcceptance =>
    cases s with
    | crashed => cases t <;> first | rfl | exact absurd edge (by decide)
    | error => cases t <;> first | rfl | exact absurd edge (by decide)
    | _ => cases at'

theorem leads_stranded (at' : stranded s = true) (h : Leads s t) : t = s := by
  induction h with
  | refl => rfl
  | tail _ step ih =>
    subst ih
    exact taken_stranded at' step

/-- By the lifecycle no call backs up or restores. -/
theorem leads_entered (h : Leads s t) : t = s ∨ entersState t = true := by
  induction h with
  | refl => exact .inl rfl
  | tail _ step _ => exact .inr step.entered

end Edges

section Rows

variable {u v w : World} {d d' db : Database}

theorem Course.refl (w : World) : Course w w :=
  ⟨rfl, .refl, .inl rfl, fun _ => rfl, fun changed => absurd rfl changed⟩

theorem Course.trans (first : Course u v) (next : Course v w) : Course u w where
  worldId := next.worldId.trans first.worldId
  state := first.state.trans next.state
  preBackup := by
    rcases next.preBackup with same | unset
    · rw [same]
      exact first.preBackup
    · exact .inr unset
  deleted := fun gone => by
    have kept := first.deleted gone
    rw [next.deleted (by rw [kept]; exact gone), kept]
  tombstone := fun changed => by
    by_cases early : v.deletedAt = u.deletedAt
    · exact first.state.trans (next.tombstone (by rw [early]; exact changed))
    · exact first.tombstone early

theorem moved_refl (db : Database) : Moved db db := fun _ v there => ⟨v, there, .refl v⟩

theorem moved_trans {d₁ d₂ d₃ : Database} (first : Moved d₁ d₂) (next : Moved d₂ d₃) :
    Moved d₁ d₃ := by
  intro i u there
  obtain ⟨v, between, course⟩ := first i u there
  obtain ⟨w, last, course'⟩ := next i v between
  exact ⟨w, last, course.trans course'⟩

theorem moved_same (same : d'.worlds = d.worlds) : Moved d d' := by
  intro i v there
  exact ⟨v, by rw [same]; exact there, .refl v⟩

theorem moved_append {rows : List World} (added : d'.worlds = d.worlds ++ rows) : Moved d d' := by
  intro i v there
  refine ⟨v, ?_, .refl v⟩
  rw [added, List.getElem?_append_left (List.getElem?_eq_some_iff.mp there).1]
  exact there

theorem moved_update {p : World → Bool} {f : World → World}
    (updated : d'.worlds = updateWhere p f d.worlds)
    (course : ∀ w ∈ d.worlds, p w = true → Course w (f w)) : Moved d d' := by
  intro i v there
  refine ⟨if p v then f v else v, ?_, ?_⟩
  · rw [updated, updateWhere, List.getElem?_map, there]
    rfl
  · split
    · rename_i hit
      exact course v (List.mem_of_getElem? there) hit
    · exact .refl v

/-- A state written where it was checked. -/
theorem moved_setWorldState {worldId : String} {state : WorldState} {now : Int} (keyed : Keyed d)
    {row : World} (found : d.world? worldId = some row) (taken : Taken row.state state) :
    Moved d (d.withState worldId state none now) := by
  refine moved_update rfl fun w mem hit => ?_
  obtain rfl : w = row := by
    have hit : w.worldId = worldId := by simpa using hit
    have same : row.worldId = worldId := by simpa using List.find?_some found
    exact nodup_key_inj keyed mem (List.mem_of_find?_eq_some found) (hit.trans same.symm)
  exact ⟨rfl, .single taken, .inr rfl, fun _ => rfl, fun changed => absurd rfl changed⟩

/-- An edit of other columns. -/
theorem course_edit {f : World → World} (worldId : (f w).worldId = w.worldId)
    (state : (f w).state = w.state) (pre : (f w).preBackupState = w.preBackupState)
    (deletedAt : (f w).deletedAt = w.deletedAt) : Course w (f w) where
  worldId := worldId
  state := by rw [state]
  preBackup := .inl pre
  deleted := fun _ => deletedAt
  tombstone := fun changed => absurd deletedAt changed

theorem moved_routed {s : Stmt} {n : Nat} (routed : Routed s) (h : s.apply d = .ok (d', n)) :
    Moved d d' := by
  cases hs : onWorlds s with
  | false => exact moved_same (routed_worlds routed hs h)
  | true =>
    cases s with
    | insertWorld row =>
      obtain ⟨-, rfl⟩ := insertWorld_ok h
      exact moved_append rfl
    | tombstoneWorld worldId deletedBy now expectedVersion =>
      cases h
      refine moved_update rfl fun w _ hit => ?_
      simp only [Bool.and_eq_true, beq_iff_eq] at hit
      obtain ⟨⟨⟨-, live⟩, off⟩, -⟩ := hit
      refine ⟨rfl, .refl, .inl rfl, fun gone => ?_, fun _ => by rw [off]⟩
      rw [World.live, Option.isNone_iff_eq_none] at live
      exact absurd live gone
    | editWorld worldId fields =>
      obtain ⟨name, rfl⟩ := routed
      obtain ⟨-, rfl⟩ := editWorld_ok h
      exact moved_update rfl fun w _ _ => course_edit (f := renamed name) rfl rfl rfl rfl
    | updateRuntimeConfig worldId after now expectedVersion =>
      obtain ⟨-, rfl⟩ := updateRuntimeConfig_ok h
      exact moved_update rfl fun w _ _ => course_edit (f := configured after now) rfl rfl rfl rfl
    | _ => cases hs

/-- What a checked statement does to the worlds. -/
theorem moved_checked {x : Txn Database} {s : Stmt} {n : Nat} (checked : Checked x s)
    (looked : ∀ e, x = .looked e → d = e) (queued : Queued d) (keyed : Keyed d)
    (h : s.apply d = .ok (d', n)) : Moved d d' ∧ Queued d' ∧ Keyed d' := by
  have routed : Routed s → Moved d d' ∧ Queued d' ∧ Keyed d' := fun routed =>
    ⟨moved_routed routed h, queued_apply routed queued h, keyed_apply routed keyed h⟩
  have beside : d'.worlds = d.worlds → d'.operations = d.operations →
      Moved d d' ∧ Queued d' ∧ Keyed d' := by
    intro worlds operations
    refine ⟨moved_same worlds, ?_, ?_⟩
    · rw [Queued, operations]
      exact queued
    · rw [Keyed, worlds]
      exact keyed
  cases s with
  | setWorldState worldId state pre now intent =>
    obtain ⟨rfl, db, row, saw, found, taken⟩ := checked
    obtain rfl := looked db saw
    cases h
    refine ⟨moved_setWorldState keyed found taken, queued, ?_⟩
    have ids : (updateWhere (·.worldId == worldId) (World.enter state none now) d.worlds).map
        (·.worldId) = d.worlds.map (·.worldId) := by
      refine updateWhere_map ?_ d.worlds
      exact fun _ => rfl
    rw [Keyed] at keyed ⊢
    exact ids.symm ▸ keyed
  | insertSession row | insertSecret row | insertArtifact row =>
    obtain ⟨-, rfl, -⟩ := satisfying_ok.mp h
    exact beside rfl rfl
  | closeSessions worldId now reason =>
    cases h
    exact beside rfl rfl
  | _ =>
    rcases checked with known | runs | ⟨row, same⟩
    · exact routed known
    · cases runs
    · cases same

end Rows

/-- The calls of the manager on its worlds, restores apart: those of the routes, of the dispatcher,
of the supervisor and of a boot. -/
inductive ManagerCall
  | world (call : WorldCall)
  | use (call : UseCall)
  | pollRunning
  | reconcile

def ManagerCall.program (c : Container) : ManagerCall → Prog Unit
  | world call => call.program c
  | use call => call.program c
  | pollRunning => (Worlds.pollRunning c.worlds).bind fun _ => .ret ()
  | reconcile => (Worlds.reconcile c.worlds).bind fun _ => .ret ()

theorem careful_createWorldBackup {I : Database → Prop}
    (worldId worldDir backupDir operationId category : String) (running : Bool) :
    Careful I Checked
      (Backup.createWorldBackup worldId worldDir backupDir operationId category running) := by
  have registered : Careful I Checked
      (Backup.writeAndRegister worldId backupDir operationId category) := by
    refine Careful.draw.bind fun artifactId => Careful.ask.bind fun checksum => ?_
    refine Careful.draw.bind fun now => ?_
    refine Careful.bind ?_ fun _ => Careful.ret _
    have inserts : ∀ row, Issues I (fun s => ∃ row, s = Stmt.insertArtifact row)
        (autocommitGuarded .registerArtifact (Body.write (.insertArtifact row) : Block Unit) :
          Prog Unit) :=
      fun row => Issues.autocommitGuarded ⟨⟨row, rfl⟩, fun _ => trivial⟩
    refine Careful.of_issues (inserts _) ?_
    rintro x s ⟨row, rfl⟩
    exact .inr (.inr ⟨row, rfl⟩)
  unfold Backup.createWorldBackup
  refine Careful.ask.bind fun room => ?_
  have written : Careful I Checked (do
      if running then do
        let artifactId ← (do
          let _ ← ask (.archive "suspend_autosave" worldId)
          let flushed ← ask (.archive "flush" worldId)
          if flushed then pure () else throw (Exn.backupIntegrity "LEVEL_DAT_FLUSH_UNVERIFIED")
          Backup.writeAndRegister worldId backupDir operationId category).handle fun e => do
            let _ ← ask (.archive "resume_autosave" worldId)
            throw e
        let _ ← ask (.archive "resume_autosave" worldId)
        pure artifactId
      else Backup.writeAndRegister worldId backupDir operationId category) := by
    dsimp only
    split
    · refine Careful.bind ?_ fun _ => Careful.ask.bind fun _ => Careful.ret _
      refine Careful.handle ?_ fun e => Careful.ask.bind fun _ => Careful.raise _
      refine Careful.ask.bind fun _ => Careful.ask.bind fun flushed => ?_
      split
      · exact registered
      · exact Careful.raise _
    · exact registered
  dsimp only
  split
  · exact written
  · exact Careful.raise _

theorem careful_use {I : Database → Prop} (queued : ∀ db, I db → Queued db) (c : Container)
    (call : UseCall) : Careful I Checked (call.program c) := by
  have ended : ∀ {α : Type} {p : Prog α}, Careful I Checked p →
      Careful I Checked (p.bind fun _ => .ret ()) := fun h => h.bind fun _ => Careful.ret _
  have looked : ∀ worldId, Careful I Checked (do
      let _ ← Worlds.world worldId
      pure ()) := fun worldId => ended (careful_world worldId)
  cases call with
  | rename userId worldId body =>
    exact ended (careful_routed (issues_updateWorld queued c userId worldId body))
  | enqueueStart worldId actorType userId key =>
    exact ended (careful_enqueue queued (careful_preflight worldId))
  | enqueueStop worldId actorType userId key => exact ended (careful_enqueue queued (looked worldId))
  | enqueueKill worldId actorType userId key => exact ended (careful_enqueue queued (looked worldId))
  | start worldId actorType userId => exact ended (careful_start queued _ _ _ _ _ _)
  | stop worldId actorType userId => exact ended (careful_stop queued _ _ _ _ _)
  | kill worldId actorType userId => exact ended (careful_kill queued _ _ _ _ _)
  | acceptEula worldId userId accepted => exact ended (careful_acceptEula queued _ _ _ _)
  | backup worldId worldDir backupDir operationId category running =>
    exact ended (careful_createWorldBackup _ _ _ _ _ _)
  | editFile userId worldId key source =>
    have asked : Asked (some { entity := some "files", rowId := some source
                               queuedFileEdit := true }) := asked_result rfl rfl rfl
    exact ended (careful_routed (issues_createWithReplay (records_within queued) asked))
  | dispatch => exact ended (careful_dispatch queued c.worlds)

theorem careful_call {I : Database → Prop} (queued : ∀ db, I db → Queued db) (c : Container)
    (call : ManagerCall) : Careful I Checked (call.program c) := by
  cases call with
  | world call => exact careful_routed (call.issues queued c)
  | use call => exact careful_use queued c call
  | pollRunning => exact (careful_pollRunning queued c.worlds).bind fun _ => Careful.ret _
  | reconcile => exact (careful_reconcile queued c.worlds).bind fun _ => Careful.ret _

abbrev ManagerWatched := Watched Site Stmt Query Answer Database Exn (Txn Database) Unit

/-- A call of the manager comes in, or a call goes on that uses the writer while no other is in a
transaction of its own. -/
structure Managed (c : Container) (w : ManagerWatched) (m : ServerMove) : Prop where
  called : ∀ p, m = .invoke p → ∃ call : ManagerCall, p = call.program c
  alone : Watched.Alone id w m

end McManager.Web
