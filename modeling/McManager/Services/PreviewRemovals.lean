import McManager.Services.PreviewRuns

/-! What a wet run removes: all it has been matched with, or nothing. -/

namespace McManager

open Framework

namespace Cleanup

section Removed

variable {E : Scope} {db : Database} {at' : Int} {deletedBy : String} {allowed : String → Prop}

theorem marked_congr {ids ids' : List String} (same : ∀ id, id ∈ ids ↔ id ∈ ids') :
    marked ids at' deletedBy db = marked ids' at' deletedBy db := by
  have test : (fun a : BackupArtifact => ids.contains a.artifactId) =
      fun a => ids'.contains a.artifactId := by
    funext a
    rw [Bool.eq_iff_iff, List.contains_iff_mem, List.contains_iff_mem]
    exact same a.artifactId
  rw [marked, marked, test]

/-- A live artifact that is not among the marked ones is found as it was. -/
theorem find_marked (unique : UniqueArtifacts db) {ids : List String} {a : BackupArtifact}
    (mem : a ∈ db.artifacts) (other : a.artifactId ∉ ids) :
    (marked ids at' deletedBy db).artifacts.find? (·.artifactId == a.artifactId) = some a := by
  have kept : a ∈ (marked ids at' deletedBy db).artifacts := by
    refine mem_updateWhere.mpr ⟨a, mem, .inr ⟨?_, rfl⟩⟩
    simpa using other
  have unique' : ((marked ids at' deletedBy db).artifacts.map (·.artifactId)).Nodup := by
    have same : (marked ids at' deletedBy db).artifacts.map (·.artifactId) =
        db.artifacts.map (·.artifactId) := by
      apply updateWhere_map
      intro a
      rfl
    rw [same]
    exact unique
  cases found : (marked ids at' deletedBy db).artifacts.find? (·.artifactId == a.artifactId) with
  | none =>
    have none := List.find?_eq_none.mp found a kept
    simp at none
  | some b =>
    have there := List.mem_of_find?_eq_some found
    have same : b.artifactId = a.artifactId := by simpa using List.find?_some found
    rw [List.inj_on_of_nodup_map unique' there kept same]

/-- Some allowed artifacts are marked in the open transaction, all of `done` among them. -/
def Marking (allowed done : String → Prop) (at' : Int) (deletedBy : String) (db : Database)
    (x : Session) : Prop :=
  x.conn.committed.artifacts = db.artifacts ∧ ∃ ids, (∀ id ∈ ids, allowed id) ∧
    (∀ id, done id → id ∈ ids) ∧ x.conn.view.artifacts = (marked ids at' deletedBy db).artifacts

theorem Marking.removing {done : String → Prop} {x : Session}
    (h : Marking allowed done at' deletedBy db x) : Removing allowed at' deletedBy db x := by
  obtain ⟨durable, ids, hids, -, pending⟩ := h
  exact ⟨durable, ids, hids, pending⟩

theorem triple_marks {done : String → Prop} {artifactId : String} (ok : allowed artifactId) :
    Triple E (Marking allowed done at' deletedBy db)
      (fun _ => Marking allowed (fun id => done id ∨ id = artifactId) at' deletedBy db)
      (fun _ => Removing allowed at' deletedBy db)
      ((Body.write (.deleteArtifact artifactId at' deletedBy) : Block Unit).lift .cleanup) := by
  intro x hx
  obtain ⟨durable, ids, hids, dones, pending⟩ := hx
  intro o _
  cases o with
  | some φ => exact ⟨durable, ids, hids, pending⟩
  | none =>
    refine ⟨durable, artifactId :: ids, ?_, ?_, ?_⟩
    · intro id mem
      obtain rfl | mem := List.mem_cons.mp mem
      · exact ok
      · exact hids id mem
    · intro id h
      obtain h | rfl := h
      · exact List.mem_cons_of_mem _ (dones id h)
      · exact List.mem_cons_self ..
    · rw [← marked_cons, ← pending]
      rfl

/-- The loop marks all it is given. -/
theorem triple_removeAll (unique : UniqueArtifacts db) {done : String → Prop}
    (candidates : List CleanupCandidate) (deleted : Nat)
    (live : ∀ c ∈ candidates, ∃ a ∈ db.artifacts, a.live = true ∧ a.artifactId = c.artifactId)
    (ok : ∀ c ∈ candidates, allowed c.artifactId) :
    Triple E (Marking allowed done at' deletedBy db)
      (fun _ => Marking allowed (fun id => done id ∨ ∃ c ∈ candidates, c.artifactId = id) at'
        deletedBy db)
      (fun _ => Removing allowed at' deletedBy db)
      (removeCandidates at' deletedBy candidates deleted) := by
  induction candidates generalizing deleted done with
  | nil =>
    apply Triple.ret
    intro x hx
    obtain ⟨durable, ids, hids, dones, pending⟩ := hx
    refine ⟨durable, ids, hids, ?_, pending⟩
    intro id h
    obtain h | ⟨c, there, -⟩ := h
    · exact dones id h
    · cases there
  | cons c rest ih =>
    have later : ∀ n, Triple E
        (Marking allowed (fun id => done id ∨ id = c.artifactId) at' deletedBy db)
        (fun _ => Marking allowed (fun id => done id ∨ ∃ d ∈ c :: rest, d.artifactId = id) at'
          deletedBy db)
        (fun _ => Removing allowed at' deletedBy db)
        (removeCandidates at' deletedBy rest n) := by
      intro n
      refine (ih n (fun d there => live d (List.mem_cons_of_mem c there))
        fun d there => ok d (List.mem_cons_of_mem c there)).mono (fun _ h => h) ?_ fun _ _ h => h
      intro _ x hx
      obtain ⟨durable, ids, hids, dones, pending⟩ := hx
      refine ⟨durable, ids, hids, ?_, pending⟩
      intro id h
      apply dones
      obtain h | ⟨d, there, rfl⟩ := h
      · exact .inl (.inl h)
      · obtain rfl | there := List.mem_cons.mp there
        · exact .inl (.inr rfl)
        · exact .inr ⟨d, there, rfl⟩
    have selected : Triple E (Marking allowed done at' deletedBy db)
        (fun row x => Marking allowed done at' deletedBy db x ∧
          row = x.conn.view.artifacts.find? (·.artifactId == c.artifactId))
        (fun _ => Removing allowed at' deletedBy db)
        (selectWriter .cleanup fun db : Database =>
          db.artifacts.find? (·.artifactId == c.artifactId) : Prog (Option BackupArtifact)) := by
      intro x hx o _
      cases o with
      | none => exact ⟨hx, rfl⟩
      | some φ => exact hx.removing
    have allowed' := ok c (List.mem_cons_self ..)
    unfold removeCandidates
    apply Triple.bind selected
    intro row
    split
    · -- Only what has been marked before is not live.
      rename_i gone
      intro x hx
      obtain ⟨⟨durable, ids, hids, dones, pending⟩, rfl⟩ := hx
      refine later deleted x ⟨durable, ids, hids, ?_, pending⟩
      intro id h
      obtain h | rfl := h
      · exact dones id h
      · by_contra other
        obtain ⟨a, mem, alive, same⟩ := live c (List.mem_cons_self ..)
        rw [pending, ← same, find_marked unique mem (by rwa [same])] at gone
        simp [alive] at gone
    · apply Triple.bind (K := fun _ => Marking allowed done at' deletedBy db)
      · exact Triple.ask (fun x _ hx => hx.1) fun x _ hx => hx.1.removing
      · intro _
        apply Triple.bind (triple_marks allowed')
        exact fun _ => later (deleted + 1)

end Removed

section Exactly

variable {C : Int → Prop} {previews : Previews} {svc : CleanupService} {request : CleanupRequest}
  {V : String → Prop} {c : Connection Database} {R : List CleanupCandidate → Prop}
  {deletedBy : String}

/-- The clock reads what `C` allows, and the last preview is the one that has been remembered. -/
def recalling (C : Int → Prop) (previews : Previews) : Scope where
  fails _ _ := True
  answers _ _ _ := True
  draws _ q v := match q, v with
    | .now, t => C t
    | .preview worldId scope, v => v = previews.lookup (worldId, scope)
    | _, _ => True

theorem recalled {α : Type} {p : Prog α} {P : Session → Prop} {K : α → Session → Prop}
    {L : Exn → Session → Prop} (h : Triple (ticking C) P K L p) :
    Triple (recalling C previews) P K L p := by
  refine h.narrow ?_
  intro x m o allowed
  cases m with
  | draw q => cases q <;> first | exact allowed | exact trivial
  | ask q => exact trivial
  | rollback => exact trivial
  | begin t => cases o <;> exact trivial
  | execute t s => cases o <;> exact trivial
  | select t => cases o <;> exact trivial
  | commit t => cases o <;> exact trivial
  | read t => cases o <;> exact trivial

/-- The artifacts of `after` are those of `before`, targets with `R` marked, all of them. -/
def Exact (R : List CleanupCandidate → Prop) (deletedBy : String) (before after : Database) : Prop :=
  ∃ targets at', R targets ∧
    after.artifacts = (marked (targets.map (·.artifactId)) at' deletedBy before).artifacts

/-- The artifacts of `after` are those of `before`, some of the targets with `R` marked. -/
def Part (R : List CleanupCandidate → Prop) (deletedBy : String) (before after : Database) : Prop :=
  ∃ targets ids at', R targets ∧ (∀ id ∈ ids, ∃ c ∈ targets, c.artifactId = id) ∧
    after.artifacts = (marked ids at' deletedBy before).artifacts

theorem Exact.part {before after : Database} (h : Exact R deletedBy before after) :
    Part R deletedBy before after := by
  obtain ⟨targets, at', meets, same⟩ := h
  refine ⟨targets, _, at', meets, ?_, same⟩
  intro id mem
  obtain ⟨c, there, rfl⟩ := List.mem_map.mp mem
  exact ⟨c, there, rfl⟩

/-- What a wet run leaves of the connection it finds. -/
inductive Wet (R : List CleanupCandidate → Prop) (deletedBy : String) (c : Connection Database)
    (x : Session) : Prop
  | untouched (same : x.conn = c)
  | settled (d : Database) (closed : x.conn = .closed d)
      (ended : d.artifacts = c.committed.artifacts ∨ Exact R deletedBy c.committed d)
  | pending (same : x.conn.committed.artifacts = c.committed.artifacts)
      (part : Part R deletedBy c.committed x.conn.view)

theorem Wet.of_untouched {x : Session} (h : Untouched c.committed x) : Wet R deletedBy c x := by
  obtain ⟨d, closed, same⟩ := h
  exact .settled d closed (.inl same)

/-- No transaction is open, and all the targets are marked. -/
def Emptied (R : List CleanupCandidate → Prop) (deletedBy : String) (c : Connection Database)
    (x : Session) : Prop :=
  ∃ d, x.conn = .closed d ∧ Exact R deletedBy c.committed d

theorem wet_executeBackupCleanup (unique : UniqueArtifacts c.committed) {t : Int}
    {confirmed : Bool} (meets : R (candidatesAt request.policy t c.committed)) :
    Triple (recalling C previews) (Untouched c.committed) (fun _ => Emptied R deletedBy c)
      (fun _ => Wet R deletedBy c)
      (executeBackupCleanup (candidatesAt request.policy t c.committed) request.policy deletedBy
        confirmed) := by
  have reread : Triple (recalling C previews) (Untouched c.committed)
      (fun _ => Untouched c.committed) (fun _ => Wet R deletedBy c)
      (backupCandidates request.policy) :=
    (recalled (triple_backupCandidates fun _ _ hx => hx)).mono (fun _ h => h) (fun _ _ h => h.1)
      fun _ _ h => Wet.of_untouched h
  let allowed : String → Prop := fun id =>
    ∃ found ∈ candidatesAt request.policy t c.committed, found.artifactId = id
  have live : ∀ found ∈ candidatesAt request.policy t c.committed,
      ∃ a ∈ c.committed.artifacts, a.live = true ∧ a.artifactId = found.artifactId := by
    intro found mem
    obtain ⟨a, listed, rfl, -⟩ := mem_candidatesAt.mp mem
    obtain ⟨there, alive, -⟩ := mem_liveArtifacts.mp listed
    exact ⟨a, there, alive, rfl⟩
  have broken : ∀ at' x, Removing allowed at' deletedBy c.committed x → Wet R deletedBy c x := by
    intro at' x hx
    obtain ⟨durable, ids, hids, pending⟩ := hx
    exact .pending durable ⟨_, ids, at', meets, hids, pending⟩
  have removed : ∀ at', Triple (recalling C previews) (Untouched c.committed)
      (fun _ => Emptied R deletedBy c) (fun _ => Wet R deletedBy c)
      ((removeCandidates at' deletedBy (candidatesAt request.policy t c.committed) 0).bind
        fun deleted => (Program.perform (Cmd.commit .cleanup) : Prog Unit).bind
          fun _ => .ret deleted) := by
    intro at'
    have loop : Triple (recalling C previews)
        (Marking allowed (fun _ => False) at' deletedBy c.committed)
        (fun _ => Marking allowed (fun id => False ∨ allowed id) at' deletedBy c.committed)
        (fun _ => Removing allowed at' deletedBy c.committed)
        (removeCandidates at' deletedBy (candidatesAt request.policy t c.committed) 0) :=
      triple_removeAll unique _ 0 live fun found mem => ⟨found, mem, rfl⟩
    have begins : ∀ x, Untouched c.committed x →
        Marking allowed (fun _ => False) at' deletedBy c.committed x := by
      intro x hx
      obtain ⟨d, closed, same⟩ := hx
      have nothing : (marked [] at' deletedBy c.committed).artifacts = c.committed.artifacts :=
        updateWhere_eq_self fun _ _ => rfl
      refine ⟨?_, [], ?_, ?_, ?_⟩
      · rw [closed]
        exact same
      · intro id mem
        cases mem
      · exact fun _ h => h.elim
      · rw [closed, nothing]
        exact same
    apply Triple.bind (loop.mono begins (fun _ _ h => h) fun _ => broken at')
    intro deleted x hx o _
    cases o with
    | some φ => exact broken at' _ hx.removing
    | none =>
      obtain ⟨-, ids, hids, dones, pending⟩ := hx
      refine ⟨x.conn.view, rfl, _, at', meets, ?_⟩
      rw [pending, marked_congr]
      intro id
      rw [List.mem_map]
      exact ⟨hids id, fun h => dones id (.inr h)⟩
  unfold executeBackupCleanup
  simp only [Program.bind_eq, Program.throw_eq, Program.pure_eq]
  split
  · exact Triple.raise fun _ hx => Wet.of_untouched hx
  · apply Triple.bind reread
    intro eligible
    split
    · exact Triple.raise fun _ hx => Wet.of_untouched hx
    · intro x hx
      apply wp_draw_bind
      intro at' _
      exact removed at' x hx

theorem wet_transition {opId : String} {status : OperationStatus} {m : Operations.Milestone} :
    Triple (recalling C previews) (Wet R deletedBy c) (fun _ => Wet R deletedBy c)
      (fun _ => Wet R deletedBy c) (Operations.transition svc.operations opId status m) := by
  have kept : ∀ (d : Database) x, (d.artifacts = c.committed.artifacts ∨ Exact R deletedBy c.committed d) →
      Untouched d x → Wet R deletedBy c x := by
    intro d x ended hx
    obtain ⟨d', closed, same⟩ := hx
    refine .settled d' closed ?_
    obtain plain | ⟨targets, at', meets, marks⟩ := ended
    · exact .inl (same.trans plain)
    · exact .inr ⟨targets, at', meets, same.trans marks⟩
  have step : ∀ (d : Database) x, (d.artifacts = c.committed.artifacts ∨ Exact R deletedBy c.committed d) →
      x.conn.committed.artifacts = d.artifacts → wp (recalling C previews)
        (Ends (fun _ => Wet R deletedBy c) fun _ => Wet R deletedBy c)
        (Operations.transition svc.operations opId status m) x := by
    intro d x ended same
    have h : Triple (recalling C previews) (fun x => x.conn.committed.artifacts = d.artifacts)
        (fun _ => Wet R deletedBy c) (fun _ => Wet R deletedBy c)
        (Operations.transition svc.operations opId status m) :=
      triple_transition.mono (fun _ h => h) (fun _ x hx => kept d x ended hx)
        fun _ x hx => kept d x ended hx
    exact h x same
  intro x hx
  cases hx with
  | untouched same => exact step c.committed x (.inl rfl) (by rw [same])
  | settled d closed ended => exact step d x ended (by rw [closed]; rfl)
  | pending same _ => exact step c.committed x (.inl rfl) same

/-- The milestone after the removal keeps what has been removed. -/
theorem emptied_transition {opId : String} {status : OperationStatus} {m : Operations.Milestone} :
    Triple (recalling C previews) (Emptied R deletedBy c) (fun _ => Emptied R deletedBy c)
      (fun _ => Wet R deletedBy c) (Operations.transition svc.operations opId status m) := by
  intro x hx
  obtain ⟨d, closed, targets, at', meets, marks⟩ := hx
  have kept : ∀ y, Untouched d y → Emptied R deletedBy c y := by
    intro y hy
    obtain ⟨d', closed, same⟩ := hy
    exact ⟨d', closed, targets, at', meets, same.trans marks⟩
  have h : Triple (recalling C previews) (fun x => x.conn.committed.artifacts = d.artifacts)
      (fun _ => Untouched d) (fun _ => Untouched d)
      (Operations.transition svc.operations opId status m) := triple_transition
  have same : x.conn.committed.artifacts = d.artifacts := by
    rw [closed]
    rfl
  refine wp_mono (h x same) ?_
  intro r y hy
  cases r with
  | ok a => exact kept y hy
  | error e =>
    obtain ⟨d', closed', exact⟩ := kept y hy
    exact .settled d' closed' (.inr exact)

/-- Whatever a wet run is matched with is a preview of `V`. -/
theorem matched_vouched (known : Known V c.committed) (last : ∀ preview ∈ previews, V preview.2) :
    Triple (recalling C previews) (fun x => x.conn = c)
      (fun found x => x.conn = c ∧ ∀ fingerprint ∈ found, V fingerprint) (fun _ x => x.conn = c)
      (matchedPreview request) := by
  unfold matchedPreview
  simp only [Program.bind_eq, Program.pure_eq]
  have drawn : Triple (recalling C previews) (fun x : Session => x.conn = c)
      (fun found x => x.conn = c ∧ ∀ fingerprint ∈ found, V fingerprint) (fun _ x => x.conn = c)
      (draw (.preview request.policy.worldId request.scope)) := by
    apply Triple.draw
    intro x found hx same
    refine ⟨hx, ?_⟩
    intro fingerprint there
    have same : found = previews.lookup (request.policy.worldId, request.scope) := same
    rw [same] at there
    obtain ⟨front, rest, split, -⟩ := List.lookup_eq_some_iff.mp there
    have mem : ((request.policy.worldId, request.scope), fingerprint) ∈ previews := by
      rw [split]
      exact List.mem_append_right _ (List.mem_cons_self ..)
    exact last _ mem
  apply Triple.bind drawn
  intro remembered
  split
  · exact Triple.ret fun _ hx => hx
  · rename_i opId _
    have row : Triple (recalling C previews)
        (fun x : Session => x.conn = c ∧ ∀ fingerprint ∈ remembered, V fingerprint)
        (fun op x => x.conn = c ∧ op = c.committed.operation? opId) (fun _ x => x.conn = c)
        (read .operationRead (·.operation? opId)) := by
      apply Triple.read
      · intro x hx
        exact ⟨hx.1, by rw [hx.1]⟩
      · exact fun x φ hx _ => hx.1
    apply Triple.bind row
    intro op
    apply Triple.ret
    intro x hx
    obtain ⟨same, rfl⟩ := hx
    refine ⟨same, ?_⟩
    intro fingerprint there
    obtain ⟨op, found, there⟩ := Option.bind_eq_some_iff.mp there
    split at there
    · obtain ⟨data, carried, there⟩ := Option.bind_eq_some_iff.mp there
      split at there
      · exact known op (List.mem_of_find?_eq_some found) data carried fingerprint there
      · cases there
    · cases there

/-- The targets of a time of `C`, previewed by a fingerprint of `V`. -/
def Targets (V : String → Prop) (C : Int → Prop) (svc : CleanupService) (request : CleanupRequest)
    (db : Database) (targets : List CleanupCandidate) : Prop :=
  V (svc.fingerprint (request.snapshot targets)) ∧
    ∃ t, C t ∧ targets = candidatesAt request.policy t db

theorem wet_evaluate (wet : request.dryRun = false) (unique : UniqueArtifacts c.committed)
    (known : Known V c.committed) (last : ∀ preview ∈ previews, V preview.2) :
    Triple (recalling C previews) (fun x => x.conn = c)
      (fun _ => Emptied (Targets V C svc request c.committed) request.deletedBy c)
      (fun _ => Wet (Targets V C svc request c.committed) request.deletedBy c)
      (evaluate svc request) := by
  have start : ∀ x : Session, x.conn = c →
      Wet (Targets V C svc request c.committed) request.deletedBy c x := fun _ h => .untouched h
  unfold evaluate
  simp only [Program.bind_eq, Program.throw_eq, Program.pure_eq, wet]
  apply Triple.bind ((recalled (triple_backupCandidates (P := fun x => x.conn = c)
    fun _ _ hx => hx)).mono (fun _ h => h) (fun _ _ h => h) fun _ => start)
  intro candidates
  split
  · exact Triple.raise fun x hx => start x hx.1
  · intro x hx
    obtain ⟨same, -, -, t, clock, rfl⟩ := hx
    rw [same]
    refine Triple.bind ((matched_vouched known last).mono (fun _ h => h) (fun _ _ h => h)
      fun _ => start) ?_ x same
    intro found
    split
    · exact Triple.raise fun y hy => start y hy.1
    · rename_i accepted
      intro y hy
      obtain ⟨same, vouched⟩ := hy
      have matched : found = some (svc.fingerprint (request.snapshot
          (candidatesAt request.policy t c.committed))) := by
        simpa [CleanupRequest.snapshot] using accepted
      have meets : Targets V C svc request c.committed
          (candidatesAt request.policy t c.committed) := ⟨vouched _ matched, t, clock, rfl⟩
      have running : Triple (recalling C previews) (fun x => x.conn = c)
          (fun _ => Untouched c.committed)
          (fun _ => Wet (Targets V C svc request c.committed) request.deletedBy c)
          (Operations.transition svc.operations request.opId .running) :=
        triple_transition.mono (fun _ h => by rw [h]) (fun _ _ h => h)
          fun _ _ h => Wet.of_untouched h
      refine Triple.bind running ?_ y same
      intro _
      simp only [Bool.false_eq_true, if_false]
      apply Triple.bind (wet_executeBackupCleanup unique meets)
      intro deleted
      have settled : ∀ result : OperationData, Triple (recalling C previews)
          (Emptied (Targets V C svc request c.committed) request.deletedBy c)
          (fun _ => Emptied (Targets V C svc request c.committed) request.deletedBy c)
          (fun _ => Wet (Targets V C svc request c.committed) request.deletedBy c)
          ((Operations.transition svc.operations request.opId .completed
            { data := some result }).bind fun _ => .ret result) := by
        intro result
        have milestone : Triple (recalling C previews)
            (Emptied (Targets V C svc request c.committed) request.deletedBy c)
            (fun _ => Emptied (Targets V C svc request c.committed) request.deletedBy c)
            (fun _ => Wet (Targets V C svc request c.committed) request.deletedBy c)
            (Operations.transition svc.operations request.opId .completed
              { data := some result }) := emptied_transition
        exact Triple.bind milestone fun _ => Triple.ret fun _ h => h
      exact settled _

theorem wet_evaluateAndExecuteCleanup (wet : request.dryRun = false)
    (unique : UniqueArtifacts c.committed) (known : Known V c.committed)
    (last : ∀ preview ∈ previews, V preview.2) :
    Triple (recalling C previews) (fun x => x.conn = c)
      (fun _ => Emptied (Targets V C svc request c.committed) request.deletedBy c)
      (fun _ => Wet (Targets V C svc request c.committed) request.deletedBy c)
      (evaluateAndExecuteCleanup svc request) := by
  have quiet : ∀ (x : Session) l, Wet (Targets V C svc request c.committed) request.deletedBy c x →
      Wet (Targets V C svc request c.committed) request.deletedBy c ⟨x.conn, x.log ++ l⟩ := by
    intro x l hx
    cases hx with
    | untouched same => exact .untouched same
    | settled d closed ended => exact .settled d closed ended
    | pending same part => exact .pending same part
  have failed : ∀ e, Triple (recalling C previews)
      (Wet (Targets V C svc request c.committed) request.deletedBy c)
      (fun _ => Emptied (Targets V C svc request c.committed) request.deletedBy c)
      (fun _ => Wet (Targets V C svc request c.committed) request.deletedBy c)
      (evaluationFailed svc request.opId e) := by
    intro e
    unfold evaluationFailed
    split
    · apply Triple.bind (K := fun _ => Wet (Targets V C svc request c.committed) request.deletedBy c)
      · exact Triple.read (fun _ hx => hx) fun x φ hx _ => quiet x _ hx
      · intro operation
        split
        · exact Triple.bind wet_transition fun _ => Triple.raise fun _ hx => hx
        · exact Triple.raise fun _ hx => hx
    · exact Triple.raise fun _ hx => hx
  unfold evaluateAndExecuteCleanup
  simp only [Program.bind_eq, Program.throw_eq]
  apply Triple.bind (K := fun _ x => x.conn = c)
  · exact Triple.read (fun _ hx => hx) fun _ _ hx _ => .untouched hx
  · intro operation
    split
    · exact Triple.raise fun _ hx => .untouched hx
    · exact Triple.handle (wet_evaluate wet unique known last) failed

end Exactly

end Cleanup

end McManager
