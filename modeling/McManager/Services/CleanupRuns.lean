import McManager.Services.Environment
import McManager.Services.OperationFrames
import McManager.Services.Retention

namespace McManager

open Framework

/-- The statements on `backup_artifacts`. -/
def Stmt.onArtifacts : Stmt → Bool
  | .insertArtifact _ | .flagSuspect _ | .deleteArtifact _ _ _ => true
  | _ => false

theorem Stmt.apply_artifacts {s : Stmt} {db db' : Database} {n : Nat}
    (elsewhere : s.onArtifacts = false) (h : s.apply db = .ok (db', n)) :
    db'.artifacts = db.artifacts := by
  cases s with
  | insertArtifact row => cases elsewhere
  | flagSuspect artifactId => cases elsewhere
  | deleteArtifact artifactId now deletedBy => cases elsewhere
  | elsewhere table rows =>
    cases rows with
    | none => cases h
    | some n =>
      cases h
      rfl
  | markRead notificationId userId now =>
    obtain ⟨-, rfl, -⟩ := satisfying_ok.mp h
    unfold Database.upsertRead
    dsimp only
    split <;> rfl
  | dismiss notificationId userId now =>
    obtain ⟨-, rfl, -⟩ := satisfying_ok.mp h
    unfold Database.upsertRead
    dsimp only
    split <;> rfl
  | _ =>
    first
    | cases h
      rfl
    | obtain ⟨-, rfl, -⟩ := satisfying_ok.mp h
      rfl

/-- Operations are recorded without touching an artifact. -/
theorem records_elsewhere : Records (fun _ => True) (fun s => s.onArtifacts = false)
    fun _ => True := by
  apply Records.any
  · intro s hs
    cases s <;> first | rfl | cases hs
  · exact fun _ => rfl
  · exact fun _ _ _ _ _ _ _ _ _ => rfl

namespace Cleanup

/-- What the statements other than a deletion keep: the ids apart, and three artifacts of every
group. -/
structure Kept (d d' : Database) : Prop where
  unique : UniqueArtifacts d → UniqueArtifacts d'
  floor : ∀ key, min 3 (liveGroup d key).length ≤ (liveGroup d' key).length

theorem Kept.refl (d : Database) : Kept d d where
  unique := fun h => h
  floor := fun _ => Nat.min_le_right 3 _

theorem Kept.trans (d d' d'' : Database) (h : Kept d d') (h' : Kept d' d'') : Kept d d'' where
  unique := fun unique => h'.unique (h.unique unique)
  floor := by
    intro key
    have first := h.floor key
    have second := h'.floor key
    omega

theorem Kept.of_same {d d' : Database} (same : d'.artifacts = d.artifacts) : Kept d d' where
  unique := by
    intro h
    rwa [UniqueArtifacts, same]
  floor := by
    intro key
    rw [liveGroup_congr same]
    exact Nat.min_le_right 3 _

theorem kept_apply {s : Stmt} {d d' : Database} {n : Nat}
    (h : ∀ artifactId now deletedBy, s ≠ .deleteArtifact artifactId now deletedBy)
    (applied : s.apply d = .ok (d', n)) : Kept d d' := by
  cases s with
  | insertArtifact row =>
    obtain ⟨constraints, rfl, -⟩ := satisfying_ok.mp applied
    constructor
    · intro unique
      have fresh : d.hasArtifact row.artifactId = false := by
        simpa using constraints (!d.hasArtifact row.artifactId, _) (List.mem_cons_self ..)
      simp only [Database.hasArtifact, List.any_eq_false, beq_iff_eq] at fresh
      rw [UniqueArtifacts, List.map_append]
      apply List.Nodup.append unique (List.nodup_singleton _)
      intro id hid hrow
      obtain ⟨a, ha, rfl⟩ := List.mem_map.mp hid
      exact fresh a ha (List.mem_singleton.mp hrow)
    · intro key
      have longer : (liveGroup d key).Sublist
          (liveGroup { d with artifacts := d.artifacts ++ [row] } key) :=
        (List.sublist_append_left d.artifacts [row]).filter _
      have := longer.length_le
      omega
  | flagSuspect artifactId =>
    cases applied
    constructor
    · intro unique
      have ids : (updateWhere (fun a : BackupArtifact => a.artifactId == artifactId)
          (fun a => { a with suspect := true }) d.artifacts).map (·.artifactId) =
            d.artifacts.map (·.artifactId) := by
        apply updateWhere_map
        intro a
        rfl
      rw [UniqueArtifacts]
      dsimp only
      rw [ids]
      exact unique
    · intro key
      simp only [liveGroup, ← List.countP_eq_length_filter]
      rw [countP_updateWhere (f := fun a : BackupArtifact => { a with suspect := true }) fun _ => rfl]
      exact Nat.min_le_right 3 _
  | deleteArtifact artifactId now deletedBy => exact absurd rfl (h artifactId now deletedBy)
  | _ => exact Kept.of_same (Stmt.apply_artifacts rfl applied)

/-- The artifacts of `after` are those of `before`, some candidates of one policy marked. -/
def Cleared (C : Int → Prop) (before after : Database) : Prop :=
  after.artifacts = before.artifacts ∨ ∃ policy t ids at' deletedBy, C t ∧
    cleanupAgeFloorDays ≤ policy.olderThanDays ∧ cleanupCountFloor ≤ policy.keepPerCategory ∧
    (∀ id ∈ ids, ∃ c ∈ candidatesAt policy t before, c.artifactId = id) ∧
    after.artifacts = (marked ids at' deletedBy before).artifacts

theorem Cleared.retains {C : Int → Prop} {before after : Database} (h : Cleared C before after)
    (unique : UniqueArtifacts before) : Retains C before after := by
  obtain same | ⟨policy, t, ids, at', deletedBy, clock, days, keeps, candidates, same⟩ := h
  · exact retains_same unique same
  · exact (retains_marked unique clock days keeps candidates).congr same

theorem Cleared.unique {C : Int → Prop} {before after : Database} (h : Cleared C before after)
    (unique : UniqueArtifacts before) : UniqueArtifacts after := by
  obtain same | ⟨_, _, ids, at', deletedBy, _, _, _, _, same⟩ := h
  · rwa [UniqueArtifacts, same]
  · have same' : (marked ids at' deletedBy before).artifacts.map (·.artifactId) =
        before.artifacts.map (·.artifactId) := by
      apply updateWhere_map
      intro a
      rfl
    rw [UniqueArtifacts, same, same']
    exact unique

/-- The candidates depend on the artifacts only. -/
theorem candidatesAt_congr {db db' : Database} (same : db'.artifacts = db.artifacts)
    (policy : CleanupPolicy) (now : Int) : candidatesAt policy now db' = candidatesAt policy now db := by
  rw [candidatesAt, candidatesAt, liveArtifacts, liveArtifacts, same]

theorem marked_cons (ids : List String) (at' : Int) (deletedBy : String) (db : Database)
    (id : String) :
    updateWhere (fun a : BackupArtifact => a.artifactId == id)
      (fun a => { a with deletedAt := some at', deletedBy := some deletedBy })
      (marked ids at' deletedBy db).artifacts = (marked (id :: ids) at' deletedBy db).artifacts := by
  have once : ∀ a : BackupArtifact, (a.artifactId == id || ids.contains a.artifactId) =
      (id :: ids).contains a.artifactId := fun a => rfl
  simp only [marked, ← once]
  apply updateWhere_twice
  · exact fun _ => rfl
  · exact fun _ => rfl

/-- Everything may fail, and the clock reads what `C` allows. -/
def ticking (C : Int → Prop) : Scope where
  fails _ _ := True
  answers _ _ _ := True
  draws _ q v := match q, v with
    | .now, t => C t
    | _, _ => True

section Runs

variable {E : Scope} {db : Database}

/-- No transaction is open, and the artifacts are those of `db`. -/
def Untouched (db : Database) (x : Session) : Prop :=
  ∃ d, x.conn = .closed d ∧ d.artifacts = db.artifacts

/-- A milestone ends whatever transaction is open, and keeps the committed artifacts. -/
theorem triple_transition {svc : OperationService} {opId : String} {status : OperationStatus}
    {m : Operations.Milestone} :
    Triple E (fun x => x.conn.committed.artifacts = db.artifacts) (fun _ => Untouched db)
      (fun _ => Untouched db) (Operations.transition svc opId status m) := by
  unfold Operations.transition
  simp only [Program.bind_eq, Program.pure_eq]
  apply Triple.bind (Triple.draw fun x _ hx _ => hx)
  intro now
  apply Triple.bind (Triple.draw fun x _ hx _ => hx)
  intro cached
  apply Triple.bind (Triple.draw fun x _ hx _ => hx)
  intro auditId
  apply Triple.bind (Triple.draw fun x _ hx _ => hx)
  intro notificationId
  apply Triple.bind (Triple.draw fun x _ hx _ => hx)
  intro notifiedAt
  have stored : Triple E (fun x => x.conn.committed.artifacts = db.artifacts)
      (fun _ => Untouched db) (fun _ => Untouched db) (transaction (.transition status)
        (Operations.transitionBlock svc opId status m cached now auditId notificationId notifiedAt)) := by
    intro x hx
    obtain ⟨⟨d, w⟩, log⟩ := x
    have same : d.artifacts = db.artifacts := hx
    cases w with
    | some w =>
      apply wp_transaction_open
      · exact ⟨d, rfl, same⟩
      · exact fun φ _ => ⟨d, rfl, same⟩
    | none =>
      apply wp_transaction
      · intro op d' h
        have through : ∀ d d' d'' : Database, d'.artifacts = d.artifacts →
            d''.artifacts = d'.artifacts → d''.artifacts = d.artifacts :=
          fun _ _ _ first second => second.trans first
        have kept : d'.artifacts = d.artifacts :=
          Body.Within.eval_keeps (R := fun d d' => d'.artifacts = d.artifacts) (fun _ => rfl)
            through (fun _ _ _ _ => trivial)
            (fun s _ _ _ hs _ applied => Stmt.apply_artifacts hs applied)
            (Operations.transitionBlock_within records_elsewhere (.inr trivial)) trivial h
        exact ⟨d', rfl, kept.trans same⟩
      · exact fun e _ => ⟨d, rfl, same⟩
      · exact fun φ _ => ⟨d, rfl, same⟩
  have published : Triple E (Untouched db) (fun _ => Untouched db) (fun _ => Untouched db)
      (Operations.publishTerminal svc) := by
    unfold Operations.publishTerminal
    split
    · apply Triple.read
      · exact fun x hx => hx
      · exact fun x φ hx _ => hx
    · exact Triple.ret fun x hx => hx
  apply Triple.bind stored
  intro updated
  split
  · exact Triple.bind published fun _ => Triple.ret fun x hx => hx
  · exact Triple.ret fun x hx => hx

/-- Some of the allowed artifacts are marked in the open transaction. -/
def Removing (allowed : String → Prop) (at' : Int) (deletedBy : String) (db : Database)
    (x : Session) : Prop :=
  x.conn.committed.artifacts = db.artifacts ∧ ∃ ids, (∀ id ∈ ids, allowed id) ∧
    x.conn.view.artifacts = (marked ids at' deletedBy db).artifacts

theorem triple_deleteArtifact {allowed : String → Prop} {at' : Int} {deletedBy artifactId : String}
    (ok : allowed artifactId) :
    Triple E (Removing allowed at' deletedBy db) (fun _ => Removing allowed at' deletedBy db)
      (fun _ => Removing allowed at' deletedBy db)
      ((Body.write (.deleteArtifact artifactId at' deletedBy) : Block Unit).lift .cleanup) := by
  intro x hx
  obtain ⟨durable, ids, hids, pending⟩ := hx
  intro o _
  cases o with
  | some φ => exact ⟨durable, ids, hids, pending⟩
  | none =>
    refine ⟨durable, artifactId :: ids, ?_, ?_⟩
    · intro id hid
      obtain rfl | hid := List.mem_cons.mp hid
      · exact ok
      · exact hids id hid
    · rw [← marked_cons, ← pending]
      rfl

/-- The loop marks what it is given, and leaves the rest. -/
theorem triple_removeCandidates {allowed : String → Prop} {at' : Int} {deletedBy : String}
    (candidates : List CleanupCandidate) (deleted : Nat)
    (ok : ∀ c ∈ candidates, allowed c.artifactId) :
    Triple E (Removing allowed at' deletedBy db) (fun _ => Removing allowed at' deletedBy db)
      (fun _ => Removing allowed at' deletedBy db)
      (removeCandidates at' deletedBy candidates deleted) := by
  induction candidates generalizing deleted with
  | nil => exact Triple.ret fun x hx => hx
  | cons c rest ih =>
    have later : ∀ n, Triple E (Removing allowed at' deletedBy db)
        (fun _ => Removing allowed at' deletedBy db) (fun _ => Removing allowed at' deletedBy db)
        (removeCandidates at' deletedBy rest n) :=
      fun n => ih n fun d hd => ok d (List.mem_cons_of_mem c hd)
    have selected : Triple E (Removing allowed at' deletedBy db)
        (fun _ => Removing allowed at' deletedBy db) (fun _ => Removing allowed at' deletedBy db)
        (selectWriter .cleanup fun db : Database =>
          db.artifacts.find? (·.artifactId == c.artifactId) : Prog (Option BackupArtifact)) := by
      intro x hx o _
      cases o with
      | none => exact hx
      | some φ => exact hx
    have unlinked : Triple E (Removing allowed at' deletedBy db)
        (fun _ => Removing allowed at' deletedBy db) (fun _ => Removing allowed at' deletedBy db)
        (ask (.unlink c.storagePath)) :=
      Triple.ask (fun x _ hx => hx) fun x _ hx => hx
    unfold removeCandidates
    apply Triple.bind selected
    intro row
    split
    · exact later deleted
    · apply Triple.bind unlinked
      intro _
      apply Triple.bind (triple_deleteArtifact (ok c (List.mem_cons_self ..)))
      intro _
      exact later (deleted + 1)

/-- No transaction is open, and some candidates of one policy are marked. -/
def Settled (C : Int → Prop) (db : Database) (x : Session) : Prop :=
  ∃ d, x.conn = .closed d ∧ Cleared C db d

/-- What a cleanup leaves of the connection it finds. -/
inductive Leaves (C : Int → Prop) (c : Connection Database) (x : Session) : Prop
  | untouched (same : x.conn = c)
  | settled (settled : Settled C c.committed x)
  | pending (same : x.conn.committed.artifacts = c.committed.artifacts)
      (cleared : Cleared C c.committed x.conn.view)

variable {C : Int → Prop} {c : Connection Database}

theorem leaves_transition {svc : OperationService} {opId : String} {status : OperationStatus}
    {m : Operations.Milestone} :
    Triple E (Leaves C c) (fun _ => Settled C c.committed) (fun _ => Settled C c.committed)
      (Operations.transition svc opId status m) := by
  have ended : ∀ (d : Database) x, Cleared C c.committed d → Untouched d x →
      Settled C c.committed x := by
    intro d x cleared hx
    obtain ⟨d', closed, same⟩ := hx
    refine ⟨d', closed, ?_⟩
    obtain same' | ⟨policy, t, ids, at', deletedBy, clock, days, keeps, candidates, same'⟩ := cleared
    · exact .inl (same.trans same')
    · exact .inr ⟨policy, t, ids, at', deletedBy, clock, days, keeps, candidates, same.trans same'⟩
  have step : ∀ (d : Database) x, Cleared C c.committed d →
      x.conn.committed.artifacts = d.artifacts → wp E (Ends (fun _ => Settled C c.committed)
        fun _ => Settled C c.committed) (Operations.transition svc opId status m) x := by
    intro d x cleared same
    have h : Triple E (fun x => x.conn.committed.artifacts = d.artifacts)
        (fun _ => Settled C c.committed) (fun _ => Settled C c.committed)
        (Operations.transition svc opId status m) :=
      triple_transition.mono (fun _ h => h) (fun _ x hx => ended d x cleared hx)
        fun _ x hx => ended d x cleared hx
    exact h x same
  intro x hx
  cases hx with
  | untouched same => exact step c.committed x (.inl rfl) (by rw [same])
  | settled h =>
    obtain ⟨d, closed, cleared⟩ := h
    exact step d x cleared (by rw [closed]; rfl)
  | pending same _ => exact step c.committed x (.inl rfl) same

/-- The candidates are those of a moment the clock read. -/
theorem triple_backupCandidates {P : Session → Prop} {policy : CleanupPolicy}
    (quiet : ∀ x l, P x → P ⟨x.conn, x.log ++ l⟩) :
    Triple (ticking C) P (fun found x => P x ∧ cleanupAgeFloorDays ≤ policy.olderThanDays ∧
        cleanupCountFloor ≤ policy.keepPerCategory ∧
        ∃ t, C t ∧ found = candidatesAt policy t x.conn.committed)
      (fun _ => P) (backupCandidates policy) := by
  unfold backupCandidates
  split
  · exact Triple.raise fun x hx => hx
  · rename_i days
    split
    · exact Triple.raise fun x hx => hx
    · rename_i keeps
      have ticked : Triple (ticking C) P (fun t x => P x ∧ C t) (fun _ => P) now :=
        Triple.draw fun x t hx ht => ⟨hx, ht⟩
      apply Triple.bind ticked
      intro t
      apply Triple.read
      · intro x hx
        exact ⟨hx.1, by omega, by omega, t, hx.2, rfl⟩
      · intro x φ hx _
        exact quiet x _ hx.1

theorem triple_executeBackupCleanup {candidates : List CleanupCandidate} {policy : CleanupPolicy}
    {deletedBy : String} {confirmed : Bool} :
    Triple (ticking C) (Untouched c.committed) (fun _ => Settled C c.committed)
      (fun _ => Leaves C c)
      (executeBackupCleanup candidates policy deletedBy confirmed) := by
  have early : ∀ x, Untouched c.committed x → Leaves C c x := by
    intro x hx
    obtain ⟨d, closed, same⟩ := hx
    exact .settled ⟨d, closed, .inl same⟩
  unfold executeBackupCleanup
  simp only [Program.bind_eq, Program.throw_eq, Program.pure_eq]
  split
  · exact Triple.raise early
  · apply Triple.bind ((triple_backupCandidates fun x l hx => hx).mono (fun _ h => h)
      (fun _ _ h => h) fun _ => early)
    intro eligible
    split
    · exact Triple.raise fun x hx => early x hx.1
    · rename_i same
      obtain rfl : candidates = eligible := not_not.mp same
      intro x hx
      obtain ⟨⟨d, closed, same⟩, days, keeps, t, clock, found⟩ := hx
      have committed : x.conn.committed = d := by
        rw [closed]
        rfl
      rw [committed, candidatesAt_congr same] at found
      -- From here on every marked id is the one of a candidate of this moment.
      let allowed : String → Prop := fun id =>
        ∃ found ∈ candidatesAt policy t c.committed, found.artifactId = id
      have cleared : ∀ {at' : Int} {y : Session}, Removing allowed at' deletedBy c.committed y →
          Cleared C c.committed y.conn.view := by
        intro at' y hy
        obtain ⟨-, ids, hids, pending⟩ := hy
        exact .inr ⟨policy, t, ids, at', deletedBy, clock, days, keeps, hids, pending⟩
      have started : ∀ at', Removing allowed at' deletedBy c.committed x := by
        intro at'
        refine ⟨by rw [committed]; exact same, [], ?_, ?_⟩
        · intro id hid
          cases hid
        · have view : x.conn.view = d := by
            rw [closed]
            rfl
          have nothing : (marked [] at' deletedBy c.committed).artifacts = c.committed.artifacts :=
            updateWhere_eq_self fun _ _ => rfl
          rw [view, nothing]
          exact same
      have removed : ∀ at', Triple (ticking C) (Removing allowed at' deletedBy c.committed)
          (fun _ => Settled C c.committed) (fun _ => Leaves C c)
          ((removeCandidates at' deletedBy candidates 0).bind fun deleted =>
            (Program.perform (Cmd.commit .cleanup) : Prog Unit).bind fun _ => .ret deleted) := by
        intro at'
        have loop : Triple (ticking C) (Removing allowed at' deletedBy c.committed)
            (fun _ => Removing allowed at' deletedBy c.committed)
            (fun _ => Removing allowed at' deletedBy c.committed)
            (removeCandidates at' deletedBy candidates 0) :=
          triple_removeCandidates candidates 0 fun f hf => ⟨f, found ▸ hf, rfl⟩
        apply Triple.bind (loop.mono (fun _ h => h) (fun _ _ h => h)
          fun _ y hy => Leaves.pending hy.1 (cleared hy))
        intro deleted y hy o _
        cases o with
        | none => exact ⟨y.conn.view, rfl, cleared hy⟩
        | some φ => exact Leaves.pending hy.1 (cleared hy)
      apply wp_draw_bind
      intro at' _
      exact removed at' x (started at')

theorem triple_matchedPreview {request : CleanupRequest} :
    Triple E (fun x => x.conn = c) (fun _ x => x.conn = c) (fun _ x => x.conn = c)
      (matchedPreview request) := by
  unfold matchedPreview
  simp only [Program.bind_eq, Program.pure_eq]
  apply Triple.bind (Triple.draw fun x _ hx _ => hx)
  intro remembered
  split
  · exact Triple.ret fun x hx => hx
  · apply Triple.bind (K := fun _ x => x.conn = c)
    · apply Triple.read
      · exact fun x hx => hx
      · exact fun x φ hx _ => hx
    · exact fun _ => Triple.ret fun x hx => hx

theorem triple_evaluate (svc : CleanupService) (request : CleanupRequest) :
    Triple (ticking C) (fun x => x.conn = c) (fun _ => Leaves C c) (fun _ => Leaves C c)
      (evaluate svc request) := by
  have start : ∀ x : Session, x.conn = c → Leaves C c x := fun _ h => .untouched h
  have wait : ∀ x : Session, Untouched c.committed x → Leaves C c x := by
    intro x hx
    obtain ⟨d, closed, same⟩ := hx
    exact .settled ⟨d, closed, .inl same⟩
  have done : ∀ result : OperationData, Triple (ticking C) (Settled C c.committed)
      (fun _ => Leaves C c) (fun _ => Leaves C c)
      ((Operations.transition svc.operations request.opId .completed
        { data := some result }).bind fun _ => .ret result) := by
    intro result
    have milestone : Triple (ticking C) (Leaves C c) (fun _ => Settled C c.committed)
        (fun _ => Settled C c.committed) (Operations.transition svc.operations request.opId
          .completed { data := some result }) := leaves_transition
    apply Triple.bind (milestone.mono (fun _ h => .settled h) (fun _ _ h => h)
      fun _ _ h => .settled h)
    exact fun _ => Triple.ret fun x hx => .settled hx
  unfold evaluate
  simp only [Program.bind_eq, Program.throw_eq, Program.pure_eq]
  apply Triple.bind ((triple_backupCandidates (P := fun x => x.conn = c) fun x l hx => hx).mono
    (fun _ h => h) (fun _ _ h => h.1) fun _ => start)
  intro candidates
  split
  · exact Triple.raise start
  · apply Triple.bind (triple_matchedPreview.mono (fun _ h => h) (fun _ _ h => h) fun _ => start)
    intro matched
    split
    · exact Triple.raise start
    · have running : Triple (ticking C) (fun x => x.conn = c) (fun _ => Untouched c.committed)
          (fun _ => Leaves C c) (Operations.transition svc.operations request.opId .running) :=
        triple_transition.mono (fun _ h => by rw [h]) (fun _ _ h => h) fun _ => wait
      apply Triple.bind running
      intro _
      split
      · apply Triple.bind (K := fun _ => Untouched c.committed)
        · exact Triple.ask (fun x _ hx => hx) fun x _ hx => wait _ hx
        · intro _
          apply (done _).mono
          · intro x hx
            obtain ⟨d, closed, same⟩ := hx
            exact ⟨d, closed, .inl same⟩
          · exact fun _ _ h => h
          · exact fun _ _ h => h
      · apply Triple.bind triple_executeBackupCleanup
        intro deleted
        exact done _

theorem triple_evaluateAndExecuteCleanup (svc : CleanupService) (request : CleanupRequest) :
    Triple (ticking C) (fun x => x.conn = c) (fun _ => Leaves C c) (fun _ => Leaves C c)
      (evaluateAndExecuteCleanup svc request) := by
  have quiet : ∀ {α : Type} (t : Site) (f : Database → α), Triple (ticking C) (Leaves C c)
      (fun _ => Leaves C c) (fun _ => Leaves C c) (read t f) := by
    intro α t f
    have keep : ∀ (x : Session) l, Leaves C c x → Leaves C c ⟨x.conn, x.log ++ l⟩ := by
      intro x l hx
      cases hx with
      | untouched same => exact .untouched same
      | settled h => exact .settled h
      | pending same cleared => exact .pending same cleared
    apply Triple.read
    · exact fun x hx => hx
    · exact fun x φ hx _ => keep x _ hx
  have failed : ∀ e, Triple (ticking C) (Leaves C c) (fun _ => Leaves C c) (fun _ => Leaves C c)
      (evaluationFailed svc request.opId e) := by
    intro e
    unfold evaluationFailed
    split
    · apply Triple.bind (quiet _ _)
      intro operation
      split
      · apply Triple.bind (K := fun _ => Leaves C c)
        · apply leaves_transition.mono
          · exact fun _ h => h
          · exact fun _ _ h => .settled h
          · exact fun _ _ h => .settled h
        · exact fun _ => Triple.raise fun x hx => hx
      · exact Triple.raise fun x hx => hx
    · exact Triple.raise fun x hx => hx
  unfold evaluateAndExecuteCleanup
  simp only [Program.bind_eq, Program.throw_eq]
  have found : Triple (ticking C) (fun x => x.conn = c) (fun _ x => x.conn = c)
      (fun _ => Leaves C c) (read .operationRead (·.operation? request.opId)) := by
    apply Triple.read
    · exact fun x hx => hx
    · exact fun x φ hx _ => .untouched hx
  apply Triple.bind found
  intro operation
  split
  · exact Triple.raise fun x hx => .untouched hx
  · exact Triple.handle (triple_evaluate svc request) failed

end Runs

end Cleanup

end McManager
