import McManager.Framework.Settled
import McManager.Services.CleanupRuns

namespace McManager.Cleanup

open Framework Operations

/-- Neither a command nor the removal of a file failed. Publishing the end of an operation comes
after its commit. -/
def harmless : Note Site Query Fault Answer → Prop
  | .failed t => t = .publishRead
  | .answered (.unlink _) (.error _) => False
  | _ => True

def Fine (l : Log) : Prop := ∀ n ∈ l, harmless n

theorem Fine.append {l : Log} (h : Fine l) {n : Note Site Query Fault Answer} (hn : harmless n) :
    Fine (l ++ [n]) := by
  intro m hm
  rcases List.mem_append.mp hm with hm | hm
  · exact h m hm
  · rwa [List.mem_singleton.mp hm]

theorem not_fine {l : Log} {n : Note Site Query Fault Answer} (hn : ¬harmless n) : ¬Fine (l ++ [n]) :=
  fun h => hn (h n (List.mem_append.mpr (.inr (List.mem_singleton.mpr rfl))))

def unlinkedPath? : Note Site Query Fault Answer → Option String
  | .answered (.unlink path) (.ok _) => some path
  | _ => none

/-- The files that were removed, or found missing. -/
def unlinked (l : Log) : List String := l.filterMap unlinkedPath?

theorem unlinked_append (l : Log) {n : Note Site Query Fault Answer} (hn : unlinkedPath? n = none) :
    unlinked (l ++ [n]) = unlinked l := by
  simp [unlinked, hn]

/-- Live artifacts have files of their own. -/
def FilesApart (db : Database) : Prop :=
  ∀ a ∈ db.artifacts, ∀ b ∈ db.artifacts, a.live = true → b.live = true →
    a.storagePath = b.storagePath → a.artifactId = b.artifactId

/-- The live artifacts are those of before whose files are still there. -/
def MarksFiles (db d : Database) (l : Log) : Prop :=
  d.artifacts.map (fun a => (a.artifactId, a.storagePath, a.live)) =
    db.artifacts.map fun a =>
      (a.artifactId, a.storagePath, a.live && !(unlinked l).contains a.storagePath)

/-- The operation has ended, and the artifacts are marked by what became of their files. -/
structure Truthful (opId : String) (db d : Database) (l : Log) : Prop where
  ended : ∃ op ∈ d.operations, op.opId = opId ∧ op.terminal = true
  marks : MarksFiles db d l

theorem MarksFiles.same {db d : Database} {l : Log} (same : d.artifacts = db.artifacts)
    (nothing : unlinked l = []) : MarksFiles db d l := by
  simp [MarksFiles, same, nothing]

theorem MarksFiles.after {db d d' : Database} {l : Log} (h : MarksFiles db d l)
    (same : d'.artifacts = d.artifacts) {n : Note Site Query Fault Answer}
    (hn : unlinkedPath? n = none) : MarksFiles db d' (l ++ [n]) := by
  rw [MarksFiles, same, unlinked_append l hn]
  exact h

/-- How a call has gone: well, or it has failed with its operation still open. -/
inductive Verdict (opId : String) (db : Database) (x : Session) : Prop
  | truthful (fine : Fine x.log) (truth : Truthful opId db x.conn.committed x.log)
  | stuck (harmed : ¬Fine x.log)
      (waits : ∀ op ∈ x.conn.committed.operations, op.opId = opId → op.terminal = false)

theorem Verdict.iff {opId : String} {db : Database} {x : Session} (h : Verdict opId db x) :
    Truthful opId db x.conn.committed x.log ↔ Fine x.log := by
  cases h with
  | truthful fine truth => exact ⟨fun _ => fine, fun _ => truth⟩
  | stuck harmed waits =>
    constructor
    · intro truth
      obtain ⟨op, hop, hid, hended⟩ := truth.ended
      rw [waits op hop hid] at hended
      cases hended
    · intro fine
      exact absurd fine harmed

theorem Stage.waits {ids : List String} {opId : String} {s : OperationStatus} {d : Database}
    (stage : Stage ids opId s d) (hopen : s.terminal = false) :
    ∀ op ∈ d.operations, op.opId = opId → op.terminal = false := by
  intro op hop hid
  obtain ⟨op', hop', hid', rfl⟩ := stage.row
  obtain rfl := nodup_key_inj stage.keyed.unique hop hop' (hid.trans hid'.symm)
  exact hopen

/-- No transaction is open, nothing has failed, and the operation waits to be ended. -/
structure Ready (opId : String) (db : Database) (x : Session) (d : Database) : Prop where
  closed : x.conn = .closed d
  stage : ∃ ids s, Stage ids opId s d ∧ s.terminal = false
  fine : Fine x.log
  marks : MarksFiles db d x.log

/-- The same before any file is removed. -/
structure Waiting (opId : String) (db : Database) (x : Session) (d : Database) : Prop
    extends Ready opId db x d where
  same : d.artifacts = db.artifacts
  nothing : unlinked x.log = []

/-- How a part of the call is left: by a refusal with nothing done, or for good. -/
def Left (opId : String) (db : Database) (e : Exn) (x : Session) : Prop :=
  match e with
  | .retention _ => ∃ d, Waiting opId db x d
  | _ => Verdict opId db x

/-- A failure of the outside world has ended the call. -/
def Broken (opId : String) (db : Database) (e : Exn) (x : Session) : Prop :=
  Verdict opId db x ∧ ∃ φ, e = .external φ

theorem Broken.left {opId : String} {db : Database} {e : Exn} {x : Session}
    (h : Broken opId db e x) : Left opId db e x := by
  obtain ⟨verdict, φ, rfl⟩ := h
  exact verdict

section Runs

variable {opId : String} {db d : Database} {x : Session}

theorem Ready.stuck (h : Ready opId db x d) {n : Note Site Query Fault Answer} (hn : ¬harmless n)
    {c : Connection Database} (same : c.committed = x.conn.committed) :
    Verdict opId db ⟨c, x.log ++ [n]⟩ := by
  obtain ⟨ids, s, stage, hopen⟩ := h.stage
  refine .stuck (not_fine hn) ?_
  rw [same, h.closed]
  exact Stage.waits stage hopen

theorem triple_look {α : Type} {t : Site} (loud : t ≠ .publishRead) (f : Database → α) :
    Triple Scope.fresh (fun x => ∃ d, Waiting opId db x d)
      (fun a x => ∃ d, Waiting opId db x d ∧ a = f d) (Broken opId db) (read t f) := by
  apply Triple.read
  · rintro x ⟨d, h⟩
    refine ⟨d, h, ?_⟩
    rw [h.closed]
    rfl
  · rintro x φ ⟨d, h⟩ _
    exact ⟨h.stuck (n := .failed t) loud rfl, φ, rfl⟩

/-- A milestone that is stored keeps the artifacts. -/
theorem artifacts_transition {svc : OperationService} {status : OperationStatus} {m : Milestone}
    {cached : Option Checkpoint} {now : Int} {auditId notificationId : String} {notifiedAt : Int}
    {op : Operation} {d' : Database} (unique : d.UniqueOperations)
    (block : (transitionBlock svc opId status m cached now auditId notificationId notifiedAt).eval d =
      .ok (op, d')) : d'.artifacts = d.artifacts := by
  obtain ⟨current, -, -, -, h⟩ := transitionBlock_ok unique block
  split at h
  · obtain ⟨-, audits, notifications, -, rfl⟩ := h
    rfl
  · obtain ⟨-, rfl⟩ := h
    rfl

theorem triple_running {svc : OperationService} {m : Milestone} :
    Triple Scope.fresh (fun x => ∃ d, Waiting opId db x d) (fun _ x => ∃ d, Waiting opId db x d)
      (Left opId db) (Operations.transition svc opId .running m) := by
  rintro ⟨c, l⟩ ⟨d, h⟩
  obtain ⟨ids, s, stage, hopen⟩ := h.stage
  obtain rfl : c = .closed d := h.closed
  refine wp_stored (fun _ _ _ h => h) stage hopen ?_ ?_
  · intro op d' cached now auditId notificationId notifiedAt block
    have stage' := (transitionBlock_stage stage.keyed (.inl rfl) block).1
    have kept := artifacts_transition stage.keyed.unique block
    have same : d'.artifacts = db.artifacts := kept.trans h.same
    have nothing : unlinked (l ++ [.committed (.transition .running)]) = [] :=
      (unlinked_append l rfl).trans h.nothing
    refine ⟨⟨d', ⟨rfl, ⟨_, _, stage', rfl⟩, h.fine.append trivial, .same same nothing⟩, same, nothing⟩, ?_⟩
    intro ends
    cases ends
  · intro φ _
    exact h.stuck (n := .failed (.transition .running)) (fun h => nomatch h) rfl

/-- The end of the operation is stored, or the operation stays open. -/
theorem triple_ending {svc : OperationService} {status : OperationStatus}
    (ends : status.terminal = true) {m : Milestone} :
    Triple Scope.fresh (fun x => ∃ d, Ready opId db x d) (fun _ x => Verdict opId db x)
      (Broken opId db) (Operations.transition svc opId status m) := by
  rintro ⟨c, l⟩ ⟨d, h⟩
  obtain ⟨ids, s, stage, hopen⟩ := h.stage
  obtain rfl : c = .closed d := h.closed
  refine wp_stored (fun _ _ _ h => h) stage hopen ?_ ?_
  · intro op d' cached now auditId notificationId notifiedAt block
    have stage' := (transitionBlock_stage stage.keyed (.inr ends) block).1
    have kept := artifacts_transition stage.keyed.unique block
    obtain ⟨op', hop', hid', hstatus⟩ := stage'.row
    have ended : ∃ op ∈ d'.operations, op.opId = opId ∧ op.terminal = true :=
      ⟨op', hop', hid', by rw [Operation.terminal, hstatus, ends]⟩
    have fine := h.fine.append (n := .committed (.transition status)) trivial
    have marks := h.marks.after kept (n := .committed (.transition status)) rfl
    refine ⟨.truthful fine ⟨ended, marks⟩, ?_⟩
    intro _ φ _
    exact ⟨.truthful (fine.append rfl) ⟨ended, marks.after rfl rfl⟩, φ, rfl⟩
  · intro φ _
    exact ⟨h.stuck (n := .failed (.transition status)) (fun h => by cases h) rfl, φ, rfl⟩

/-- The ids the loop has gone through, by the files it has removed. -/
structure Processed (db : Database) (ids : List String) (l : Log) : Prop where
  removed : ∀ id ∈ ids, ∃ a ∈ db.artifacts, a.artifactId = id ∧ a.live = true ∧
    a.storagePath ∈ unlinked l
  listed : ∀ path ∈ unlinked l, ∃ a ∈ db.artifacts, a.live = true ∧ a.storagePath = path ∧
    a.artifactId ∈ ids

theorem Processed.marks {ids : List String} {l : Log} (h : Processed db ids l)
    (unique : UniqueArtifacts db) (apart : FilesApart db) {at' : Int} {deletedBy : String}
    {d : Database} (same : d.artifacts = (marked ids at' deletedBy db).artifacts) :
    MarksFiles db d l := by
  rw [MarksFiles, same, marked, updateWhere, List.map_map]
  refine List.map_congr_left fun a ha => ?_
  rw [Function.comp]
  by_cases hid : a.artifactId ∈ ids
  · obtain ⟨b, hb, hbid, -, hpath⟩ := h.removed a.artifactId hid
    obtain rfl : b = a := nodup_key_inj unique hb ha hbid
    simp [hid, hpath, BackupArtifact.live]
  · have kept : (a.live && !(unlinked l).contains a.storagePath) = a.live := by
      cases hlive : a.live with
      | false => rfl
      | true =>
        have there : a.storagePath ∉ unlinked l := by
          intro hpath
          obtain ⟨b, hb, hblive, hbpath, hbid⟩ := h.listed a.storagePath hpath
          exact hid (apart b hb a ha hblive hlive hbpath ▸ hbid)
        simpa using there
    rw [kept]
    simp [hid]

theorem Processed.append {ids : List String} {l : Log} (h : Processed db ids l)
    {n : Note Site Query Fault Answer} (hn : unlinkedPath? n = none) : Processed db ids (l ++ [n]) := by
  have same := unlinked_append l hn
  exact ⟨same ▸ h.removed, same ▸ h.listed⟩

theorem Processed.unlink {ids : List String} {l : Log} (h : Processed db ids l) {a : BackupArtifact}
    (ha : a ∈ db.artifacts) (live : a.live = true) :
    Processed db (a.artifactId :: ids) (l ++ [.answered (.unlink a.storagePath) (.ok ())]) := by
  have paths : unlinked (l ++ [.answered (.unlink a.storagePath) (.ok ())]) =
      unlinked l ++ [a.storagePath] := by simp [unlinked, unlinkedPath?]
  constructor
  · intro id hid
    rw [paths]
    rcases List.mem_cons.mp hid with rfl | hid
    · exact ⟨a, ha, rfl, live, by simp⟩
    · obtain ⟨b, hb, hbid, hblive, hpath⟩ := h.removed id hid
      exact ⟨b, hb, hbid, hblive, List.mem_append.mpr (.inl hpath)⟩
  · intro path hpath
    rw [paths] at hpath
    rcases List.mem_append.mp hpath with hpath | hpath
    · obtain ⟨b, hb, hblive, hbpath, hbid⟩ := h.listed path hpath
      exact ⟨b, hb, hblive, hbpath, List.mem_cons_of_mem _ hbid⟩
    · obtain rfl := List.mem_singleton.mp hpath
      exact ⟨a, ha, live, rfl, List.mem_cons_self ..⟩

/-- Inside the loop: some artifacts are marked in the open transaction, and the files of
`removed` are gone. -/
structure Removes (opId : String) (db : Database) (at' : Int) (deletedBy : String)
    (ids removed : List String) (x : Session) : Prop where
  stage : ∃ list s, Stage list opId s x.conn.committed ∧ s.terminal = false
  same : x.conn.committed.artifacts = db.artifacts
  view : x.conn.view = marked ids at' deletedBy x.conn.committed
  fine : Fine x.log
  processed : Processed db removed x.log

theorem Removes.stuck {at' : Int} {deletedBy : String} {ids removed : List String}
    (h : Removes opId db at' deletedBy ids removed x) {n : Note Site Query Fault Answer}
    (hn : ¬harmless n) {c : Connection Database} (same : c.committed = x.conn.committed) :
    Verdict opId db ⟨c, x.log ++ [n]⟩ := by
  obtain ⟨list, s, stage, hopen⟩ := h.stage
  refine .stuck (not_fine hn) ?_
  rw [same]
  exact Stage.waits stage hopen

section Loop

variable {at' : Int} {deletedBy : String}

theorem triple_candidate (c : CleanupCandidate) :
    Triple Scope.fresh (fun x => ∃ ids, Removes opId db at' deletedBy ids ids x)
      (fun row x => (∃ ids, Removes opId db at' deletedBy ids ids x) ∧
        ((row.all fun a => !a.live) = false →
          ∃ a ∈ db.artifacts, a.artifactId = c.artifactId ∧ a.live = true))
      (Left opId db) (selectWriter .cleanup fun db : Database =>
        db.artifacts.find? (·.artifactId == c.artifactId) : Prog (Option BackupArtifact)) := by
  rintro x ⟨ids, h⟩
  refine wp_select ?_ ?_
  · refine ⟨⟨ids, h⟩, ?_⟩
    intro found
    rw [h.view] at found
    cases hrow : (marked ids at' deletedBy x.conn.committed).artifacts.find?
        (·.artifactId == c.artifactId) with
    | none =>
      rw [hrow] at found
      cases found
    | some row =>
      rw [hrow] at found
      have live : row.live = true := by simpa using found
      have hid := List.find?_some hrow
      obtain ⟨a, ha, ⟨-, rfl⟩ | ⟨-, rfl⟩⟩ := mem_marked.mp (List.mem_of_find?_eq_some hrow)
      · cases live
      · exact ⟨row, h.same ▸ ha, by simpa using hid, live⟩
  · intro φ _
    exact h.stuck (n := .failed .cleanup) (fun h => nomatch h) rfl

theorem triple_unlink {a : BackupArtifact} (ha : a ∈ db.artifacts) (live : a.live = true) :
    Triple Scope.fresh (fun x => ∃ ids, Removes opId db at' deletedBy ids ids x)
      (fun _ x => ∃ ids, Removes opId db at' deletedBy ids (a.artifactId :: ids) x)
      (Left opId db) (ask (.unlink a.storagePath)) := by
  rintro x ⟨ids, h⟩
  refine wp_ask ?_ ?_
  · intro _ _
    exact ⟨ids, h.stage, h.same, h.view, h.fine.append trivial, h.processed.unlink ha live⟩
  · intro φ _
    exact h.stuck (n := .answered (.unlink a.storagePath) (.error φ)) (fun h => h) rfl

theorem triple_mark (artifactId : String) :
    Triple Scope.fresh
      (fun x => ∃ ids, Removes opId db at' deletedBy ids (artifactId :: ids) x)
      (fun _ x => ∃ ids, Removes opId db at' deletedBy ids ids x) (Left opId db)
      ((Body.write (.deleteArtifact artifactId at' deletedBy) : Block Unit).lift .cleanup) := by
  rintro x ⟨ids, h⟩
  refine wp_write ?_ (fun e h => nomatch h) ?_
  · intro d n applied
    cases applied
    refine ⟨artifactId :: ids, h.stage, h.same, ?_, h.fine, h.processed⟩
    have artifacts := marked_cons ids at' deletedBy x.conn.committed artifactId
    simp only [Connection.view_open, h.view, artifacts]
    rfl
  · intro φ _
    exact h.stuck (n := .failed .cleanup) (fun h => nomatch h) rfl

theorem triple_loop (unique : UniqueArtifacts db) (candidates : List CleanupCandidate) (deleted : Nat)
    (ok : ∀ c ∈ candidates, ∃ a ∈ db.artifacts, a.candidate = c) :
    Triple Scope.fresh (fun x => ∃ ids, Removes opId db at' deletedBy ids ids x)
      (fun _ x => ∃ ids, Removes opId db at' deletedBy ids ids x) (Left opId db)
      (removeCandidates at' deletedBy candidates deleted) := by
  induction candidates generalizing deleted with
  | nil => exact Triple.ret fun x hx => hx
  | cons c rest ih =>
    have later := fun n => ih n fun c' hc' => ok c' (List.mem_cons_of_mem c hc')
    unfold removeCandidates
    apply Triple.bind (triple_candidate c)
    intro row
    split
    · exact (later deleted).mono (fun x hx => hx.1) (fun _ _ h => h) fun _ _ h => h
    · rename_i found
      intro x hx
      obtain ⟨removes, present⟩ := hx
      obtain ⟨a, ha, hid, live⟩ := present (by simpa using found)
      obtain ⟨b, hb, rfl⟩ := ok c (List.mem_cons_self ..)
      obtain rfl : a = b := nodup_key_inj unique ha hb hid
      have marks : Triple Scope.fresh (fun x => ∃ ids, Removes opId db at' deletedBy ids ids x)
          (fun _ x => ∃ ids, Removes opId db at' deletedBy ids ids x) (Left opId db)
          ((ask (.unlink a.storagePath)).bind fun _ =>
            ((Body.write (.deleteArtifact a.artifactId at' deletedBy) : Block Unit).lift .cleanup).bind
              fun _ => removeCandidates at' deletedBy rest (deleted + 1)) :=
        Triple.bind (triple_unlink ha live) fun _ =>
          Triple.bind (triple_mark a.artifactId) fun _ => later (deleted + 1)
      exact marks x removes

end Loop

theorem triple_candidates {policy : CleanupPolicy} :
    Triple Scope.fresh (fun x => ∃ d, Waiting opId db x d)
      (fun found x => ∃ d, Waiting opId db x d ∧ ∃ t, found = candidatesAt policy t d)
      (Left opId db) (backupCandidates policy) := by
  unfold backupCandidates
  split
  · exact Triple.raise fun x hx => hx
  · split
    · exact Triple.raise fun x hx => hx
    · apply Triple.bind (Triple.draw fun x _ hx _ => hx)
      intro t
      apply (triple_look (by decide) _).mono (fun _ h => h) ?_ (fun _ _ h => h.left)
      rintro found x ⟨d, h, rfl⟩
      exact ⟨d, h, t, rfl⟩

/-- A candidate is a live artifact. -/
theorem candidates_listed {policy : CleanupPolicy} {t : Int} (same : d.artifacts = db.artifacts) :
    ∀ c ∈ candidatesAt policy t d, ∃ a ∈ db.artifacts, a.candidate = c := by
  intro c hc
  rw [candidatesAt_congr same] at hc
  obtain ⟨a, ha, rfl, -⟩ := mem_candidatesAt.mp hc
  exact ⟨a, (mem_liveArtifacts.mp ha).1, rfl⟩

theorem triple_execute {candidates : List CleanupCandidate} {policy : CleanupPolicy}
    {deletedBy : String} {confirmed : Bool} (unique : UniqueArtifacts db) (apart : FilesApart db) :
    Triple Scope.fresh (fun x => ∃ d, Waiting opId db x d) (fun _ x => ∃ d, Ready opId db x d)
      (Left opId db) (executeBackupCleanup candidates policy deletedBy confirmed) := by
  have committed : ∀ (at' : Int) (deleted : Nat), Triple Scope.fresh
      (fun x => ∃ ids, Removes opId db at' deletedBy ids ids x) (fun _ x => ∃ d, Ready opId db x d)
      (Left opId db)
      ((Program.perform (Cmd.commit .cleanup) : Prog Unit).bind fun _ => .ret deleted) := by
    rintro at' deleted x ⟨ids, h⟩ o _
    cases o with
    | some φ => exact h.stuck (n := .failed .cleanup) (fun h => by cases h) rfl
    | none =>
      obtain ⟨list, s, stage, hopen⟩ := h.stage
      have view : x.conn.view.artifacts = (marked ids at' deletedBy db).artifacts := by
        rw [h.view, marked, marked, h.same]
      have kept : Stage list opId s x.conn.view := by
        rw [h.view]
        exact stage.congr rfl fun _ => rfl
      have processed := h.processed.append (n := .committed .cleanup) rfl
      exact ⟨x.conn.view, rfl, ⟨list, s, kept, hopen⟩, h.fine.append trivial,
        processed.marks unique apart view⟩
  unfold executeBackupCleanup
  simp only [Program.bind_eq, Program.throw_eq, Program.pure_eq]
  split
  · exact Triple.raise fun x hx => hx
  · apply Triple.bind triple_candidates
    intro eligible
    split
    · apply Triple.raise
      rintro x ⟨d, hx, _⟩
      exact ⟨d, hx⟩
    · rename_i same
      obtain rfl : candidates = eligible := not_not.mp same
      rintro x ⟨d, h, t, rfl⟩
      apply wp_draw_bind
      intro at' _
      have started : Removes opId db at' deletedBy [] [] x := by
        refine ⟨?_, ?_, ?_, h.fine, ⟨fun id hid => absurd hid List.not_mem_nil, ?_⟩⟩
        · rw [h.closed]
          exact h.stage
        · rw [h.closed]
          exact h.same
        · have nothing : (marked [] at' deletedBy d).artifacts = d.artifacts :=
            updateWhere_eq_self fun _ _ => rfl
          rw [h.closed, marked]
          change d = { d with artifacts := (marked [] at' deletedBy d).artifacts }
          rw [nothing]
        · intro path hpath
          rw [h.nothing] at hpath
          cases hpath
      have loop : Triple Scope.fresh (fun x => ∃ ids, Removes opId db at' deletedBy ids ids x)
          (fun _ x => ∃ ids, Removes opId db at' deletedBy ids ids x) (Left opId db)
          (removeCandidates at' deletedBy (candidatesAt policy t d) 0) :=
        triple_loop unique _ 0 (candidates_listed h.same)
      exact Triple.bind loop (committed at') x ⟨[], started⟩

theorem triple_matched {request : CleanupRequest} :
    Triple Scope.fresh (fun x => ∃ d, Waiting opId db x d) (fun _ x => ∃ d, Waiting opId db x d)
      (Left opId db) (matchedPreview request) := by
  unfold matchedPreview
  simp only [Program.bind_eq, Program.pure_eq]
  apply Triple.bind (Triple.draw fun x _ hx _ => hx)
  intro remembered
  split
  · exact Triple.ret fun x hx => hx
  · rename_i dryRunId _
    have found : Triple Scope.fresh (fun x => ∃ d, Waiting opId db x d)
        (fun a x => ∃ d, Waiting opId db x d ∧ a = d.operation? dryRunId) (Broken opId db)
        (read .operationRead (·.operation? dryRunId)) := triple_look (by decide) _
    apply Triple.bind (found.mono (fun _ h => h) (fun _ _ h => h) fun _ _ h => h.left)
    intro preview
    exact Triple.ret fun x ⟨d, h, _⟩ => ⟨d, h⟩

theorem triple_evaluate_wet (svc : CleanupService) {request : CleanupRequest}
    (wet : request.dryRun = false) (unique : UniqueArtifacts db) (apart : FilesApart db) :
    Triple Scope.fresh (fun x => ∃ d, Waiting request.opId db x d)
      (fun _ x => Verdict request.opId db x) (Left request.opId db) (evaluate svc request) := by
  unfold evaluate
  simp only [Program.bind_eq, Program.throw_eq, Program.pure_eq]
  apply Triple.bind triple_candidates
  intro candidates
  have waits : ∀ x : Session, (∃ d, Waiting request.opId db x d ∧ ∃ t, candidates =
      candidatesAt request.policy t d) → ∃ d, Waiting request.opId db x d :=
    fun x ⟨d, hx, _⟩ => ⟨d, hx⟩
  split
  · exact Triple.raise waits
  · apply Triple.bind (triple_matched.mono waits (fun _ _ h => h) fun _ _ h => h)
    intro matched
    split
    · exact Triple.raise fun x hx => hx
    · apply Triple.bind triple_running
      intro _
      rw [wet]
      simp only [Bool.false_eq_true, if_false]
      apply Triple.bind (triple_execute unique apart)
      intro deleted
      apply Triple.bind (K := fun _ x => ∃ d, Ready request.opId db x d) (Triple.ret fun x hx => hx)
      intro result
      have completed : Triple Scope.fresh (fun x => ∃ d, Ready request.opId db x d)
          (fun _ x => Verdict request.opId db x) (Broken request.opId db)
          (Operations.transition svc.operations request.opId .completed { data := some result }) :=
        triple_ending rfl
      exact Triple.bind (completed.mono (fun _ h => h) (fun _ _ h => h) fun _ _ h => h.left)
        fun _ => Triple.ret fun x hx => hx

theorem Waiting.found (h : Waiting opId db x d) :
    (d.operation? opId).any (fun op => !op.terminal) = true := by
  obtain ⟨ids, s, stage, hopen⟩ := h.stage
  obtain ⟨op, hop, rfl, rfl⟩ := stage.row
  rw [Database.operation?_eq stage.keyed.unique hop]
  simpa [Operation.terminal] using hopen

theorem triple_failed (svc : CleanupService) (e : Exn) :
    Triple Scope.fresh (Left opId db e) (fun _ x => Verdict opId db x) (fun _ x => Verdict opId db x)
      (evaluationFailed svc opId e) := by
  unfold evaluationFailed
  split
  · rename_i text
    simp only [Program.bind_eq, Program.throw_eq]
    have found : Triple Scope.fresh (fun x => ∃ d, Waiting opId db x d)
        (fun a x => ∃ d, Waiting opId db x d ∧ a = d.operation? opId) (Broken opId db)
        (read .operationRead (·.operation? opId)) := triple_look (by decide) _
    apply Triple.bind (found.mono (fun _ h => h) (fun _ _ h => h) fun _ _ h => h.1)
    rintro operation x ⟨d, h, rfl⟩
    rw [h.found, if_pos rfl]
    have failed : Triple Scope.fresh (fun x => ∃ d, Ready opId db x d)
        (fun _ x => Verdict opId db x) (Broken opId db) (Operations.transition svc.operations opId
          .failed { errorCode := some text, message := some text }) := triple_ending rfl
    exact Triple.bind (failed.mono (fun _ h => h) (fun _ _ h => h) fun _ _ h => h.1)
      (fun _ => Triple.raise fun x hx => hx) x ⟨d, h.toReady⟩
  · rename_i other
    apply Triple.raise
    intro x hx
    unfold Left at hx
    split at hx
    · exact absurd rfl (other _)
    · exact hx

end Runs

theorem fresh_allowed {env : Env} (fresh : ∀ n x q, FreshDraw x q (env n x (.draw q))) (n : Nat)
    (x : Session) (m : Cmd Site Stmt Query) : Scope.fresh.allowed x m (env n x m) := by
  cases m with
  | draw q => exact fresh n x q
  | ask q => exact trivial
  | rollback => exact trivial
  | _ =>
    generalize env n x _ = o
    cases o <;> exact trivial

theorem wp_cleanup_open (svc : CleanupService) {request : CleanupRequest}
    (wet : request.dryRun = false) {db : Database} (keyed : db.Keyed) (unique : UniqueArtifacts db)
    (apart : FilesApart db) {op : Operation} (hop : op ∈ db.operations)
    (hid : op.opId = request.opId) (cleanup : op.opType = .cleanup) (hopen : op.terminal = false) :
    wp Scope.fresh (fun _ y => Verdict request.opId db y) (evaluateAndExecuteCleanup svc request)
      ⟨.closed db, []⟩ := by
  have start : Waiting request.opId db ⟨.closed db, []⟩ db :=
    ⟨⟨rfl, ⟨_, op.status, ⟨keyed, rfl, op, hop, hid, rfl⟩, hopen⟩, fun _ h => (nomatch h),
      .same rfl rfl⟩, rfl, rfl⟩
  unfold evaluateAndExecuteCleanup
  simp only [Program.bind_eq, Program.throw_eq]
  rw [wp_bind]
  refine wp_read ?_ ?_
  · have found : db.operation? request.opId = some op := hid ▸ Database.operation?_eq keyed.unique hop
    have admitted : ((db.operation? request.opId).all fun op => op.opType != .cleanup || op.terminal) =
        false := by
      rw [found]
      simp [cleanup, hopen]
    change wp _ _ (if ((db.operation? request.opId).all fun op => op.opType != .cleanup ||
      op.terminal) = true then _ else _) _
    rw [admitted, if_neg (by decide)]
    refine wp_mono (Triple.handle (triple_evaluate_wet svc wet unique apart)
      (triple_failed svc) _ ⟨db, start⟩) ?_
    intro r y ended
    cases r with
    | ok result => exact ended
    | error e => exact ended
  · intro φ _
    exact start.stuck (n := .failed .operationRead) (fun h => nomatch h) rfl

/-- A cleanup whose operation has ended is refused. -/
theorem wp_cleanup_over (svc : CleanupService) {request : CleanupRequest} {db : Database}
    (unique : db.UniqueOperations) {op : Operation} (hop : op ∈ db.operations)
    (hid : op.opId = request.opId) (isOver : op.terminal = true) :
    wp Scope.fresh (fun _ y => Truthful request.opId db y.conn.committed y.log)
      (evaluateAndExecuteCleanup svc request) ⟨.closed db, []⟩ := by
  have ended : ∃ op ∈ db.operations, op.opId = request.opId ∧ op.terminal = true :=
    ⟨op, hop, hid, isOver⟩
  unfold evaluateAndExecuteCleanup
  simp only [Program.bind_eq, Program.throw_eq]
  rw [wp_bind]
  refine wp_read ?_ ?_
  · have found : db.operation? request.opId = some op := hid ▸ Database.operation?_eq unique hop
    have refused : ((db.operation? request.opId).all fun op => op.opType != .cleanup || op.terminal) =
        true := by
      rw [found]
      simp [isOver]
    change wp _ _ (if ((db.operation? request.opId).all fun op => op.opType != .cleanup ||
      op.terminal) = true then _ else _) _
    rw [refused, if_pos rfl]
    exact ⟨ended, .same rfl rfl⟩
  · intro φ _
    exact ⟨ended, .same rfl rfl⟩

/-- A wet cleanup leaves its operation ended and marks what it has removed exactly if nothing
fails before that end, or the operation had ended before. -/
theorem cleanup_truthful_iff (svc : CleanupService) (request : CleanupRequest)
    (wet : request.dryRun = false) {db : Database} (keyed : db.Keyed) (unique : UniqueArtifacts db)
    (apart : FilesApart db) (op : Operation) (hop : op ∈ db.operations)
    (hid : op.opId = request.opId) (cleanup : op.opType = .cleanup) (env : Env)
    (fresh : ∀ n x q, FreshDraw x q (env n x (.draw q))) :
    Truthful request.opId db
        (run env (evaluateAndExecuteCleanup svc request) ⟨.closed db, []⟩).2.conn.committed
        (run env (evaluateAndExecuteCleanup svc request) ⟨.closed db, []⟩).2.log ↔
      op.terminal = true ∨
        Fine (run env (evaluateAndExecuteCleanup svc request) ⟨.closed db, []⟩).2.log := by
  cases hopen : op.terminal with
  | true =>
    have truth := run_of_wp (fresh_allowed fresh) (wp_cleanup_over svc keyed.unique hop hid hopen)
    exact ⟨fun _ => .inl rfl, fun _ => truth⟩
  | false =>
    have verdict := run_of_wp (fresh_allowed fresh)
      (wp_cleanup_open svc wet keyed unique apart hop hid cleanup hopen)
    rw [verdict.iff]
    simp

/-- Five artifacts of the world `w`, and the Cleanup `o` that has been asked for. -/
def crowded : Database :=
  { Database.single .off with
    operations := [newOperation ⟨.cleanup, .system, some "w", none, none, none, none⟩ "o" .queued 0]
    artifacts := ["a", "b", "c", "d", "e"].zipIdx.map fun (id, at') =>
      ⟨id, some "w", "manual", id ++ ".zip", "", false, "o", none, none, at', 0⟩ }

def wetRequest : CleanupRequest :=
  ⟨"o", false, ⟨3, 3, some "w"⟩, false, "backups", "system", none⟩

/-- The clock reads the same moment throughout, the preview matches, and the files in `kept` are
not removed. -/
def Env.cleaning (kept : List String) : Env
  | _, _, .draw .now => (10000000 : Int)
  | _, _, .draw (.preview _ _) => some ""
  | _, _, .ask (.unlink path) => if path ∈ kept then .error (.host "busy") else .ok ()
  | n, x, m => Env.fresh n x m

theorem cleaning_draws (kept : List String) (n : Nat) (x : Session) (q : Query) :
    FreshDraw x q (Env.cleaning kept n x (.draw q)) := by
  cases q with
  | uuid kind => exact Env.fresh_draws n x (.uuid kind)
  | _ => trivial

theorem crowded_keyed : crowded.Keyed :=
  ⟨by unfold Database.UniqueOperations; decide, by decide, by decide⟩

theorem crowded_unique : UniqueArtifacts crowded := by
  unfold UniqueArtifacts
  decide

theorem crowded_apart : FilesApart crowded := by
  unfold FilesApart
  decide

theorem cleanup_truthful_crowded :
    Truthful "o" crowded
        (run (Env.cleaning []) (evaluateAndExecuteCleanup ⟨⟨false, false⟩, fun _ => ""⟩ wetRequest)
          ⟨.closed crowded, []⟩).2.conn.committed
        (run (Env.cleaning []) (evaluateAndExecuteCleanup ⟨⟨false, false⟩, fun _ => ""⟩ wetRequest)
          ⟨.closed crowded, []⟩).2.log ↔
      false = true ∨
        Fine (run (Env.cleaning []) (evaluateAndExecuteCleanup ⟨⟨false, false⟩, fun _ => ""⟩ wetRequest)
          ⟨.closed crowded, []⟩).2.log :=
  cleanup_truthful_iff ⟨⟨false, false⟩, fun _ => ""⟩ wetRequest rfl crowded_keyed crowded_unique
    crowded_apart (newOperation ⟨.cleanup, .system, some "w", none, none, none, none⟩ "o" .queued 0)
    (by decide) rfl rfl (Env.cleaning []) (cleaning_draws [])

example : (run (Env.cleaning []) (evaluateAndExecuteCleanup ⟨⟨false, false⟩, fun _ => ""⟩ wetRequest)
    ⟨.closed crowded, []⟩).2.conn.committed.artifacts.map (·.live) = [false, false, true, true, true] := by
  decide +kernel

/-- The file of the second artifact to remove is busy: the operation is left running. -/
theorem cleanup_interrupted : ¬∀ (svc : CleanupService) (request : CleanupRequest) (db : Database)
    (op : Operation) (env : Env), request.dryRun = false → db.Keyed → UniqueArtifacts db →
    FilesApart db → op ∈ db.operations → op.opId = request.opId → op.opType = .cleanup →
    (∀ n x q, FreshDraw x q (env n x (.draw q))) →
    Truthful request.opId db
      (run env (evaluateAndExecuteCleanup svc request) ⟨.closed db, []⟩).2.conn.committed
      (run env (evaluateAndExecuteCleanup svc request) ⟨.closed db, []⟩).2.log := by
  intro h
  have truth := h ⟨⟨false, false⟩, fun _ => ""⟩ wetRequest crowded
    (newOperation ⟨.cleanup, .system, some "w", none, none, none, none⟩ "o" .queued 0)
    (Env.cleaning ["b.zip"]) rfl crowded_keyed crowded_unique crowded_apart (by decide) rfl rfl
    (cleaning_draws _)
  have running : (run (Env.cleaning ["b.zip"])
      (evaluateAndExecuteCleanup ⟨⟨false, false⟩, fun _ => ""⟩ wetRequest)
      ⟨.closed crowded, []⟩).2.conn.committed.operations.all (fun op => !op.terminal) = true := by
    decide +kernel
  obtain ⟨op, hop, -, hended⟩ := truth.ended
  have waits := List.all_eq_true.mp running op hop
  rw [hended] at waits
  cases waits

end McManager.Cleanup
