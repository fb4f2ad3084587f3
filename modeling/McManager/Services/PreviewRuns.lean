import McManager.Framework.Quiet
import McManager.Services.CleanupRuns

/-! The previews of dry runs, and where they are kept. -/

namespace McManager

open Framework

/-- The snapshot these targets are previewed by. -/
def CleanupRequest.snapshot (request : CleanupRequest) (targets : List CleanupCandidate) :
    CleanupSnapshot where
  olderThanDays := request.policy.olderThanDays
  keepPerCategory := request.policy.keepPerCategory
  scope := request.scope
  worldId := request.policy.worldId
  targets := targets

namespace Cleanup

/-- `_previews`, the last preview first. -/
abbrev Previews := List ((Option String × String) × String)

/-- The preview that has been put into `_previews`. -/
def previewOf : Framework.Note Site Query Fault Answer → Option ((Option String × String) × String)
  | .answered (.rememberPreview worldId scope fingerprint) (.ok _) =>
    some ((worldId, scope), fingerprint)
  | _ => none

def remembered (log : Log) : Previews := (log.filterMap previewOf).reverse

/-- The question that puts a preview into `_previews`. -/
def Remembers : Query → Prop
  | .rememberPreview _ _ _ => True
  | _ => False

theorem entries_previews : Entries Remembers previewOf where
  failed := fun _ => rfl
  committed := fun _ => rfl
  answered := by
    intro q o quiet
    cases q with
    | rememberPreview worldId scope fingerprint => exact absurd trivial quiet
    | _ => rfl

section Data

variable {W W' : String → Prop}

/-- The preview the data carries, if any, is one of `W`. -/
def Vouched (W : String → Prop) (data : Option OperationData) : Prop :=
  ∀ d ∈ data, ∀ fingerprint ∈ d.previewFingerprint, W fingerprint

/-- Every preview an operation carries is one of `W`. -/
def Known (W : String → Prop) (db : Database) : Prop := ∀ op ∈ db.operations, Vouched W op.data

theorem Known.mono {db : Database} (known : Known W db) (weaken : ∀ f, W f → W' f) : Known W' db :=
  fun op mem d data f carried => weaken f (known op mem d data f carried)

/-- The statement writes no previews but those in `W`. -/
def Writes (W : String → Prop) : Stmt → Prop
  | .insertOperation row => Vouched W row.data
  | .updateOperation _ _ _ _ _ _ _ data _ => Vouched W data
  | _ => True

theorem known_apply {s : Stmt} {d d' : Database} {n : Nat} (writes : Writes W s) (known : Known W d)
    (applied : s.apply d = .ok (d', n)) : Known W d' := by
  have kept : ∀ {p : Operation → Bool} {f : Operation → Operation},
      (∀ op ∈ d.operations, Vouched W (f op).data) →
        ∀ op ∈ updateWhere p f d.operations, Vouched W op.data := by
    intro p f hf op mem
    obtain ⟨old, there, ⟨-, rfl⟩ | ⟨-, same⟩⟩ := mem_updateWhere.mp mem
    · exact hf old there
    · rw [same]
      exact known old there
  cases s with
  | insertOperation row =>
    obtain ⟨-, rfl, -⟩ := satisfying_ok.mp applied
    intro op mem
    obtain mem | mem := List.mem_append.mp mem
    · exact known op mem
    · rw [List.mem_singleton.mp mem]
      exact writes
  | claimOperation opId now =>
    cases applied
    exact kept fun op mem => known op mem
  | cancelOperation opId now errorCode =>
    cases applied
    exact kept fun op mem => known op mem
  | updateOperation opId status checkpoint startedAt finishedAt errorCode message data now =>
    cases applied
    exact kept fun _ _ => writes
  | setOperationWorld opId worldId =>
    obtain ⟨-, rfl, -⟩ := satisfying_ok.mp applied
    exact kept fun op mem => known op mem
  | markRead notificationId userId now =>
    obtain ⟨-, rfl, -⟩ := satisfying_ok.mp applied
    unfold Database.upsertRead
    dsimp only
    split <;> exact known
  | dismiss notificationId userId now =>
    obtain ⟨-, rfl, -⟩ := satisfying_ok.mp applied
    unfold Database.upsertRead
    dsimp only
    split <;> exact known
  | elsewhere table rows =>
    cases rows with
    | none => cases applied
    | some n =>
      cases applied
      exact known
  | _ =>
    first
    | cases applied
      exact known
    | obtain ⟨-, rfl, -⟩ := satisfying_ok.mp applied
      exact known

theorem records_writes : Records (Known W) (Writes W) (Vouched W) where
  known := fun _ known => known
  notes := by
    intro s notes
    cases s <;> first | exact trivial | cases notes
  insert := fun _ data => data
  update := fun _ _ _ _ _ _ _ _ _ data => data

theorem vouched_none : Vouched W none := by
  intro d h
  cases h

end Data

section Noted

variable {E : Scope} {C : Int → Prop} {svc : CleanupService} {request : CleanupRequest}
  {V : String → Prop} {R : (Option String × String) × String → Prop}

/-- The previews of `V`, and those that have been remembered since. -/
def Since (V : String → Prop) (log : Log) (fingerprint : String) : Prop :=
  V fingerprint ∨ ∃ preview ∈ remembered log, preview.2 = fingerprint

/-- Whatever has been remembered is `R`, and the operations carry no other previews than those and
the ones of `V`. -/
structure Noted (V : String → Prop) (R : (Option String × String) × String → Prop) (x : Session) :
    Prop where
  heard : ∀ preview ∈ remembered x.log, R preview
  committed : Known (Since V x.log) x.conn.committed
  seen : Known (Since V x.log) x.conn.view

/-- The program remembers nothing, and its statements write no previews but those in `W`. -/
structure Plain (W : String → Prop) {α : Type} (p : Prog α) : Prop where
  issues : Issues (Known W) (Writes W) p
  quiet : p.Confined (Cmd.Quiet Remembers)

theorem Plain.keeps {W : String → Prop} {α : Type} {p : Prog α} (plain : Plain W p) (log : List _) :
    Triple E
      (fun x => x.log.filterMap previewOf = log ∧ Known W x.conn.committed ∧ Known W x.conn.view)
      (fun _ x => x.log.filterMap previewOf = log ∧ Known W x.conn.committed ∧ Known W x.conn.view)
      (fun _ x => x.log.filterMap previewOf = log ∧ Known W x.conn.committed ∧ Known W x.conn.view)
      p := by
  intro x hx
  obtain ⟨same, committed, seen⟩ := hx
  have step : ∀ (s : Stmt) d d' n, Writes W s → Known W d → Store.apply s d = .ok (d', n) →
      True ∧ Known W d' := fun s d d' n writes known applied =>
    ⟨trivial, known_apply writes known applied⟩
  have rows := plain.issues.keeps (E := E) (fun _ => trivial) (fun _ _ _ _ _ => trivial) step
    x.conn.committed x ⟨trivial, trivial, committed, seen⟩
  have entries := Triple.quiet (E := E) entries_previews plain.quiet log x same
  refine wp_mono (wp_and entries rows) ?_
  intro r y ends
  cases r with
  | ok a => exact ⟨ends.1, ends.2.2.2.1, ends.2.2.2.2⟩
  | error e => exact ⟨ends.1, ends.2.2.2.1, ends.2.2.2.2⟩

/-- A plain program keeps what has been noted. -/
theorem Plain.noted {α : Type} {p : Prog α} {x : Session} (plain : Plain (Since V x.log) p)
    (noted : Noted V R x) : wp E (Ends (fun _ => Noted V R) fun _ => Noted V R) p x := by
  have kept := plain.keeps (E := E) (x.log.filterMap previewOf) x
    ⟨rfl, noted.committed, noted.seen⟩
  have ended : ∀ y : Session, y.log.filterMap previewOf = x.log.filterMap previewOf ∧
      Known (Since V x.log) y.conn.committed ∧ Known (Since V x.log) y.conn.view → Noted V R y := by
    intro y hy
    obtain ⟨same, committed, seen⟩ := hy
    have previews : remembered y.log = remembered x.log := congrArg List.reverse same
    have since : Since V y.log = Since V x.log := by
      funext fingerprint
      rw [Since, Since, previews]
    refine ⟨?_, ?_, ?_⟩
    · rw [previews]
      exact noted.heard
    · rwa [since]
    · rwa [since]
  refine wp_mono kept ?_
  intro r y ends
  cases r with
  | ok a => exact ended y ends
  | error e => exact ended y ends

theorem plain_transition {W : String → Prop} {service : OperationService} {opId : String}
    {status : OperationStatus} {m : Operations.Milestone} (carried : Vouched W m.data) :
    Plain W (Operations.transition service opId status m) where
  issues := Operations.issues_transition records_writes (.inr carried)
  quiet := by
    have published : (Operations.publishTerminal service).Confined (Cmd.Quiet Remembers) := by
      unfold Operations.publishTerminal
      split
      · exact Program.Confined.quiet_read
      · exact trivial
    unfold Operations.transition
    apply Program.Confined.bind Program.Confined.quiet_draw
    intro now
    apply Program.Confined.bind Program.Confined.quiet_draw
    intro cached
    apply Program.Confined.bind Program.Confined.quiet_draw
    intro auditId
    apply Program.Confined.bind Program.Confined.quiet_draw
    intro notificationId
    apply Program.Confined.bind Program.Confined.quiet_draw
    intro notifiedAt
    apply Program.Confined.bind Program.Confined.quiet_transaction
    intro updated
    dsimp only
    split
    · exact Program.Confined.bind published fun _ => trivial
    · exact trivial

theorem noted_transition {service : OperationService} {opId : String} {status : OperationStatus}
    {m : Operations.Milestone} :
    Triple E (fun x => Noted V R x ∧ Vouched (Since V x.log) m.data) (fun _ => Noted V R)
      (fun _ => Noted V R) (Operations.transition service opId status m) :=
  fun _ hx => (plain_transition hx.2).noted hx.1

namespace Plain

variable {W : String → Prop} {α β : Type}

theorem ret (a : α) : Plain W (.ret a : Prog α) := ⟨trivial, trivial⟩

theorem raise (e : Exn) : Plain W (.raise e : Prog α) := ⟨trivial, trivial⟩

theorem bind {p : Prog α} {f : α → Prog β} (hp : Plain W p) (hf : ∀ a, Plain W (f a)) :
    Plain W (p.bind f) where
  issues := Issues.bind hp.issues fun a => (hf a).issues
  quiet := Program.Confined.bind hp.quiet fun a => (hf a).quiet

theorem read (t : Site) (f : Database → α) : Plain W (McManager.read t f) :=
  ⟨Issues.readCommitted, Program.Confined.quiet_read⟩

theorem draw (q : Query) : Plain W (McManager.draw q) := ⟨Issues.draw, Program.Confined.quiet_draw⟩

theorem ask {q : Query} (other : ¬Remembers q) : Plain W (McManager.ask q) :=
  ⟨Issues.ask, Program.Confined.perform other⟩

end Plain

section Parts

variable {W : String → Prop}

theorem plain_backupCandidates (policy : CleanupPolicy) : Plain W (backupCandidates policy) := by
  unfold backupCandidates
  split
  · exact Plain.raise _
  · split
    · exact Plain.raise _
    · exact Plain.bind (Plain.draw .now) fun t => Plain.read _ _

theorem plain_matchedPreview (request : CleanupRequest) : Plain W (matchedPreview request) := by
  unfold matchedPreview
  apply Plain.bind (Plain.draw _)
  intro last
  split
  · exact Plain.ret _
  · exact Plain.bind (Plain.read _ _) fun _ => Plain.ret _

theorem plain_removeCandidates (at' : Int) (deletedBy : String) (candidates : List CleanupCandidate)
    (deleted : Nat) : Plain W (removeCandidates at' deletedBy candidates deleted) := by
  induction candidates generalizing deleted with
  | nil => exact Plain.ret _
  | cons c rest ih =>
    have selected : Plain W (selectWriter .cleanup fun db : Database =>
        db.artifacts.find? (·.artifactId == c.artifactId) : Prog (Option BackupArtifact)) :=
      ⟨Issues.bind (Issues.perform fun _ _ h => by cases h) fun _ => trivial,
        Program.Confined.query trivial⟩
    have deletes : (Body.write (.deleteArtifact c.artifactId at' deletedBy) : Block Unit).Within
        (Known W) (Writes W) := ⟨trivial, fun _ => trivial⟩
    have written : Plain W ((Body.write (.deleteArtifact c.artifactId at' deletedBy) :
        Block Unit).lift .cleanup) := by
      constructor
      · have ended : Issues (Known W) (Writes W) (((Body.write (.deleteArtifact c.artifactId at'
            deletedBy) : Block Unit).lift .cleanup : Prog Unit).bind .ret) :=
          Issues.lift_bind deletes fun _ => trivial
        rwa [Program.bind_ret] at ended
      · have free : (Body.write (.deleteArtifact c.artifactId at' deletedBy) : Block Unit).Within
            (fun _ => True) fun _ => True := ⟨trivial, fun _ => trivial⟩
        exact Program.Confined.lift free trivial fun _ _ => trivial
    unfold removeCandidates
    apply Plain.bind selected
    intro row
    split
    · exact ih deleted
    · apply Plain.bind (Plain.ask (q := .unlink c.storagePath) fun h => h)
      intro _
      exact Plain.bind written fun _ => ih (deleted + 1)

theorem plain_executeBackupCleanup (candidates : List CleanupCandidate) (policy : CleanupPolicy)
    (deletedBy : String) (confirmed : Bool) :
    Plain W (executeBackupCleanup candidates policy deletedBy confirmed) := by
  unfold executeBackupCleanup
  split
  · exact Plain.raise _
  · apply Plain.bind (plain_backupCandidates policy)
    intro eligible
    split
    · exact Plain.raise _
    · have committed : Plain W (Program.perform (Cmd.commit .cleanup) : Prog Unit) :=
        ⟨Issues.perform (by intro t s h; cases h), Program.Confined.perform trivial⟩
      apply Plain.bind (Plain.draw .now)
      intro at'
      apply Plain.bind (plain_removeCandidates at' deletedBy candidates 0)
      intro deleted
      exact Plain.bind committed fun _ => Plain.ret _

end Parts

/-- The preview a dry run at a time of `C` remembers. -/
def Dry (C : Int → Prop) (svc : CleanupService) (request : CleanupRequest) (db : Database)
    (preview : (Option String × String) × String) : Prop :=
  request.dryRun = true ∧ ∃ t, C t ∧ preview = ((request.policy.worldId, request.scope),
    svc.fingerprint (request.snapshot (candidatesAt request.policy t db)))

/-- What a plain program keeps, whatever has been remembered before. -/
theorem noted_plain {α : Type} {p : Prog α} (plain : ∀ W, Plain W p) :
    Triple E (Noted V R) (fun _ => Noted V R) (fun _ => Noted V R) p :=
  fun _ noted => (plain _).noted noted

theorem noted_remember {worldId : Option String} {scope fingerprint : String}
    (allowed : R ((worldId, scope), fingerprint)) :
    Triple E (Noted V R) (fun _ x => Noted V R x ∧ Since V x.log fingerprint) (fun _ => Noted V R)
      (ask (.rememberPreview worldId scope fingerprint)) := by
  apply Triple.ask
  · intro x a noted
    have added : remembered (x.log ++ [.answered (.rememberPreview worldId scope fingerprint) (.ok a)])
        = ((worldId, scope), fingerprint) :: remembered x.log := by
      simp [remembered, previewOf]
    have more : ∀ f, Since V x.log f →
        Since V (x.log ++ [.answered (.rememberPreview worldId scope fingerprint) (.ok a)]) f := by
      intro f since
      obtain old | ⟨preview, there, same⟩ := since
      · exact .inl old
      · refine .inr ⟨preview, ?_, same⟩
        rw [added]
        exact List.mem_cons_of_mem _ there
    refine ⟨⟨?_, noted.committed.mono more, noted.seen.mono more⟩,
      .inr ⟨((worldId, scope), fingerprint), ?_, rfl⟩⟩
    · intro preview there
      rw [added] at there
      obtain rfl | there := List.mem_cons.mp there
      · exact allowed
      · exact noted.heard preview there
    · rw [added]
      exact List.mem_cons_self ..
  · intro x φ noted
    have same : remembered (x.log ++
        [.answered (.rememberPreview worldId scope fingerprint) (.error φ)]) = remembered x.log := by
      simp [remembered, previewOf]
    have since : Since V (x.log ++
        [.answered (.rememberPreview worldId scope fingerprint) (.error φ)]) = Since V x.log := by
      funext f
      rw [Since, Since, same]
    refine ⟨?_, ?_, ?_⟩
    · rw [same]
      exact noted.heard
    · rw [since]
      exact noted.committed
    · rw [since]
      exact noted.seen

theorem noted_evaluate {c : Connection Database} :
    Triple (ticking C) (fun x => Noted V (Dry C svc request c.committed) x ∧ x.conn = c)
      (fun _ => Noted V (Dry C svc request c.committed))
      (fun _ => Noted V (Dry C svc request c.committed)) (evaluate svc request) := by
  have listed : Triple (ticking C) (fun x => Noted V (Dry C svc request c.committed) x ∧ x.conn = c)
      (fun found x => Noted V (Dry C svc request c.committed) x ∧
        ∃ t, C t ∧ found = candidatesAt request.policy t c.committed)
      (fun _ => Noted V (Dry C svc request c.committed)) (backupCandidates request.policy) := by
    have rows : Triple (ticking C) (fun x => x.conn = c) (fun found x => x.conn = c ∧
        cleanupAgeFloorDays ≤ request.policy.olderThanDays ∧
        cleanupCountFloor ≤ request.policy.keepPerCategory ∧
        ∃ t, C t ∧ found = candidatesAt request.policy t x.conn.committed)
        (fun _ x => x.conn = c) (backupCandidates request.policy) :=
      triple_backupCandidates fun _ _ hx => hx
    have plain := noted_plain (E := ticking C) (V := V) (R := Dry C svc request c.committed)
      (p := backupCandidates request.policy) fun W => plain_backupCandidates request.policy
    refine (Triple.both plain rows).mono (fun _ hx => hx) ?_ fun _ _ hx => hx.1
    intro found x hx
    obtain ⟨noted, same, -, -, t, clock, found⟩ := hx
    rw [same] at found
    exact ⟨noted, t, clock, found⟩
  have settled : ∀ result : OperationData, Triple (ticking C)
      (fun x => Noted V (Dry C svc request c.committed) x ∧ Vouched (Since V x.log) (some result))
      (fun _ => Noted V (Dry C svc request c.committed))
      (fun _ => Noted V (Dry C svc request c.committed))
      ((Operations.transition svc.operations request.opId .completed
        { data := some result }).bind fun _ => .ret result) := by
    intro result
    have milestone : Triple (ticking C)
        (fun x => Noted V (Dry C svc request c.committed) x ∧ Vouched (Since V x.log) (some result))
        (fun _ => Noted V (Dry C svc request c.committed))
        (fun _ => Noted V (Dry C svc request c.committed))
        (Operations.transition svc.operations request.opId .completed { data := some result }) :=
      noted_transition (m := { data := some result })
    exact Triple.bind milestone fun _ => Triple.ret fun _ hx => hx
  unfold evaluate
  simp only [Program.bind_eq, Program.throw_eq, Program.pure_eq]
  apply Triple.bind listed
  intro candidates
  split
  · exact Triple.raise fun _ hx => hx.1
  · intro x hx
    obtain ⟨noted, found⟩ := hx
    have matched := noted_plain (E := ticking C) (V := V) (R := Dry C svc request c.committed)
      (p := matchedPreview request) fun W => plain_matchedPreview request
    refine Triple.bind matched ?_ x noted
    intro last
    split
    · exact Triple.raise fun _ hx => hx
    · have running : Triple (ticking C) (Noted V (Dry C svc request c.committed))
          (fun _ => Noted V (Dry C svc request c.committed))
          (fun _ => Noted V (Dry C svc request c.committed))
          (Operations.transition svc.operations request.opId .running) :=
        noted_transition.mono (fun _ hx => ⟨hx, vouched_none⟩) (fun _ _ h => h) fun _ _ h => h
      apply Triple.bind running
      intro _
      split
      · rename_i dry
        have allowed : Dry C svc request c.committed ((request.policy.worldId, request.scope),
            svc.fingerprint (request.snapshot candidates)) := by
          obtain ⟨t, clock, rfl⟩ := found
          exact ⟨dry, t, clock, rfl⟩
        apply Triple.bind (noted_remember allowed)
        intro _
        apply (settled _).mono
        · intro y hy
          refine ⟨hy.1, ?_⟩
          intro data same f carried
          cases same
          cases carried
          exact hy.2
        · exact fun _ _ h => h
        · exact fun _ _ h => h
      · have removed := noted_plain (E := ticking C) (V := V) (R := Dry C svc request c.committed)
          (p := executeBackupCleanup candidates request.policy request.deletedBy
            request.elevatedConfirmation) fun W => plain_executeBackupCleanup _ _ _ _
        apply Triple.bind removed
        intro deleted
        apply (settled _).mono
        · intro y hy
          refine ⟨hy, ?_⟩
          intro data same f carried
          cases same
          cases carried
        · exact fun _ _ h => h
        · exact fun _ _ h => h

theorem noted_evaluateAndExecuteCleanup {c : Connection Database} :
    Triple (ticking C) (fun x => Noted V (Dry C svc request c.committed) x ∧ x.conn = c)
      (fun _ => Noted V (Dry C svc request c.committed))
      (fun _ => Noted V (Dry C svc request c.committed))
      (evaluateAndExecuteCleanup svc request) := by
  have failed : ∀ e, Triple (ticking C) (Noted V (Dry C svc request c.committed))
      (fun _ => Noted V (Dry C svc request c.committed))
      (fun _ => Noted V (Dry C svc request c.committed)) (evaluationFailed svc request.opId e) := by
    intro e
    apply noted_plain
    intro W
    unfold evaluationFailed
    split
    · apply Plain.bind (Plain.read _ _)
      intro operation
      split
      · exact Plain.bind (plain_transition vouched_none) fun _ => Plain.raise _
      · exact Plain.raise _
    · exact Plain.raise _
  have found : Triple (ticking C) (fun x => Noted V (Dry C svc request c.committed) x ∧ x.conn = c)
      (fun _ x => Noted V (Dry C svc request c.committed) x ∧ x.conn = c)
      (fun _ => Noted V (Dry C svc request c.committed))
      (read .operationRead (·.operation? request.opId)) := by
    have same : Triple (ticking C) (fun x : Session => x.conn = c) (fun _ x => x.conn = c)
        (fun _ _ => True) (read .operationRead (·.operation? request.opId)) :=
      Triple.read (fun _ hx => hx) fun _ _ _ _ => trivial
    have plain := noted_plain (E := ticking C) (V := V) (R := Dry C svc request c.committed)
      (p := read .operationRead (·.operation? request.opId)) fun W => Plain.read _ _
    exact (Triple.both plain same).mono (fun _ h => h) (fun _ _ h => h) fun _ _ h => h.1
  unfold evaluateAndExecuteCleanup
  simp only [Program.bind_eq, Program.throw_eq]
  apply Triple.bind found
  intro operation
  split
  · exact Triple.raise fun _ hx => hx.1
  · exact Triple.handle noted_evaluate failed

end Noted

end Cleanup

end McManager
