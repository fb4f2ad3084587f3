import McManager.Services.Capture

/-! What an attempt to capture a world leaves, whichever of its steps raises. -/

namespace McManager.Capture

open Framework
open Steps

variable {C : Type}

/-- The coordinator reaches the server. -/
def Exchange.Connects (x : Exchange) : Prop :=
  (∃ session, x.session = .ok (some session) ∧ session.rconPort.isSome = true) ∧
    x.secret = none ∧ x.connected = none

/-- The coordinator reaches the server, which answers, and lets go of it. -/
def Exchange.Goes (x : Exchange) : Prop :=
  x.Connects ∧ x.command = .answered ∧ x.closed = none

/-- The archive is written and has its name. -/
def ArchiveCourse.Completes (a : ArchiveCourse C) (held : C) (skipped : Nat) : Prop :=
  a.resolved = none ∧ a.written = .complete held skipped ∧ a.synced = none ∧ a.verified = none ∧
    a.replaced = none

/-- The archive breaks off when its file is there under the first of its names. -/
def ArchiveCourse.Breaks (a : ArchiveCourse C) : Prop :=
  a.resolved = none ∧
    ((∃ e held, a.written = .raises e (some held)) ∨
      (∃ held skipped, a.written = .complete held skipped) ∧
        ¬(a.synced = none ∧ a.verified = none ∧ a.replaced = none))

/-- Nothing raises before the archive is to be written. -/
def Admits (course : Course C) (q : Request) : Prop :=
  (q.running = true → course.coordinator = true) ∧
    (∃ size free, course.treeSize = .ok size ∧ course.free = .ok free ∧ requiredFree size ≤ free) ∧
    (q.running = true → course.suspend.Goes ∧ course.flush.Goes ∧
      ∃ before after, course.modifiedBefore = .ok before ∧ course.modifiedAfter = .ok after ∧
        flushed before after course.time course.timeAgain = true)

/-- Nothing raises before the archive is made. -/
def Ready (course : Course C) (q : Request) : Prop := Admits course q ∧ course.made = none

/-- The archive is there under its `.part` name. -/
def Archives (course : Course C) (q : Request) (held : C) : Prop :=
  Ready course q ∧ ∃ skipped, course.archive.Completes held skipped

/-- The archive is there under its own name. -/
def Places (course : Course C) (q : Request) (held : C) : Prop :=
  Archives course q held ∧ course.hashed = none ∧ course.verified = none ∧ course.replaced = none

/-- The archive is found as it was written, and the writer is there. -/
def Opens (m : Measure C) (course : Course C) (q : Request) (held : C) : Prop :=
  Places course q held ∧ course.measured = none ∧ course.rehashed = none ∧
    m.sha256 (course.altered.getD held) = m.sha256 held ∧ course.opened = none

/-- The row is committed. -/
def Registers (m : Measure C) (course : Course C) (q : Request) (held : C) : Prop :=
  Opens m course q held ∧ course.inserted = none ∧ course.committed = none

/-- Where an attempt has a file and breaks off, what takes the file away does not raise. -/
structure Clears (m : Measure C) (course : Course C) (q : Request) : Prop where
  staged : Ready course q → course.archive.Breaks → course.archive.unlinked = none
  part : ∀ held, Archives course q held → ¬Places course q held →
    (course.hashed = none ∧ course.verified ≠ none ∧ course.dropped = none) ∨
      course.unlinkedPart = none
  final : ∀ held, Places course q held → ¬Registers m course q held →
    (Opens m course q held → course.rolledBack = none) ∧ course.unlinkedPart = none ∧
      course.unlinkedFinal = none

/-- An attempt that breaks off is cleared away, and one that registers an artifact resumes autosave
where it has suspended it. -/
structure Cleans (m : Measure C) (course : Course C) (q : Request) : Prop where
  clears : Clears m course q
  resumes : ∀ held, Registers m course q held → q.running = true → course.resume.Goes

/-- The file of a row is there as the row says. -/
def ArtifactRow.Kept (m : Measure C) (row : ArtifactRow) (s : State C) : Prop :=
  ∃ held, s.files row.storagePath = some held ∧ m.size held = row.sizeBytes ∧
    m.sha256 held = row.checksum

/-- There is one more row, with its file. -/
def Registered (m : Measure C) (before after : State C) : Prop :=
  ∃ row, after.rows = before.rows ++ [row] ∧ row.Kept m after

/-- No file of the attempt is there, and no row that it inserted. -/
def Gone (before after : State C) : Prop :=
  after.files = .empty ∧ after.rows = before.rows ∧ after.pending = []

/-- Autosave is taken up again after every `save-off`. -/
def Resumed (signals : List Signal) : Prop :=
  ∀ before after, signals = before ++ .sent .saveOff :: after → .attempted .saveOn ∈ after

/-- A capture is whole or leaves nothing, and the server is told to save again. -/
structure Atomic (m : Measure C) (rows : List ArtifactRow) (r : Except Exn BackupResult)
    (after : State C) : Prop where
  returns : (∃ result, r = .ok result) ↔ Registered m (.start rows) after
  raises : (∃ e, r = .error e) → Gone (.start rows) after
  resumes : Resumed after.signals

section Signals

variable {x : Exchange} {worldId : String} {c : Command} {s t : State C}

def State.signalled (s : State C) (signals : List Signal) : State C :=
  { s with signals := s.signals ++ signals }

theorem connect_returns (h : x.Connects) : (connect x worldId).Returns s () s := by
  obtain ⟨⟨session, found, port⟩, secret, connected⟩ := h
  unfold connect
  rw [found]
  refine returns_bind returns_given ?_
  refine returns_bind (returns_require port) ?_
  refine returns_bind (returns_handle (returns_step secret)) ?_
  exact returns_handle (returns_step connected)

/-- A step that does nothing to the state. -/
theorem onlyIf_step_id {holds : Bool} {raised : Option Exn} :
    (onlyIf holds (step raised id) s : Except Exn Unit × State C).2 = s := by
  cases holds with
  | false => rfl
  | true => cases raised <;> rfl

theorem connect_raises (h : ¬x.Connects) : (connect x worldId).Raises s s := by
  unfold connect
  cases found : x.session with
  | error e => exact raises_first raises_given
  | ok session =>
    cases session with
    | none => exact raises_bind returns_given raises_throw
    | some session =>
      refine raises_bind returns_given ?_
      cases port : session.rconPort.isSome with
      | false => exact raises_first (raises_require port)
      | true =>
        refine raises_bind (returns_require port) ?_
        by_cases secret : x.secret = none
        · refine raises_bind (returns_handle (returns_step secret)) ?_
          have connected : x.connected ≠ none := fun connected =>
            h ⟨⟨session, found, port⟩, secret, connected⟩
          refine raises_handle (raises_step connected) ?_
          intro e
          have closing := raises_throwing (β := Unit) (s := s) (p := onlyIf (isRcon e) (step x.closed id))
            (e := if isRcon e then
              coordination ("rcon connect failed for world " ++ worldId ++ ": " ++ e.text) else e)
          rwa [onlyIf_step_id] at closing
        · exact raises_first (raises_handle (raises_step secret) fun _ => raises_throw)

theorem signalled_append (l l' : List Signal) :
    (s.signalled l).signalled l' = s.signalled (l ++ l') := by
  simp only [State.signalled, List.append_assoc]

theorem signalled_nil : s.signalled [] = s := by
  rw [State.signalled, List.append_nil]

theorem signalled_cons {g : Signal} {l : List Signal} :
    s.signalled (g :: l) = (s.signalled [g]).signalled l := (signalled_append [g] l).symm

theorem returns_signal {event : Signal} :
    (signal event : Capturing C Unit).Returns s () (s.signalled [event]) := returns_step rfl

theorem deliver_raises {e : Exn} {sent : Bool} (h : x.command = .raises e sent) :
    (deliver x c).Raises s (s.signalled (if sent then [.sent c] else [])) := by
  unfold deliver
  rw [h]
  cases sent with
  | false =>
    rw [if_neg Bool.false_ne_true, signalled_nil]
    exact raises_bind returns_pure raises_throw
  | true => exact raises_bind returns_signal raises_throw

/-- A command is taken up and sent. -/
theorem coordinate_goes (worldId : String) (h : x.Goes) :
    (coordinate x worldId c).Returns s () (s.signalled [.attempted c, .sent c]) := by
  obtain ⟨connects, answered, closed⟩ := h
  have delivered : (deliver x c).Returns (s.signalled [.attempted c]) ()
      (s.signalled [.attempted c, .sent c]) := by
    unfold deliver
    rw [answered, signalled_cons (l := [.sent c])]
    exact returns_signal
  unfold coordinate
  refine returns_bind returns_signal ?_
  refine returns_bind (connect_returns connects) ?_
  exact returns_ensure (returns_handle delivered) (returns_step closed)

/-- A command that raises was taken up, and at most sent. -/
theorem coordinate_raises (worldId : String) (h : ¬x.Goes) : ∃ l, (∀ g ∈ l, g = .sent c) ∧
    (coordinate x worldId c).Raises s (s.signalled (.attempted c :: l)) := by
  unfold coordinate
  by_cases connects : x.Connects
  · cases command : x.command with
    | answered =>
      have closed : x.closed ≠ none := fun closed => h ⟨connects, command, closed⟩
      refine ⟨[.sent c], by simp, ?_⟩
      rw [signalled_cons]
      refine raises_bind returns_signal (raises_bind (connect_returns connects) (raises_last ?_))
      unfold deliver
      rw [command]
      exact raises_step closed
    | raises e sent =>
      refine ⟨if sent then [.sent c] else [], by split_ifs <;> simp, ?_⟩
      rw [signalled_cons]
      refine raises_bind returns_signal (raises_bind (connect_returns connects) ?_)
      have raised := raises_handle (deliver_raises (c := c) (s := s.signalled [.attempted c]) command)
        fun e => (raises_throw : (throw (if isRcon e then
          coordination (c.text ++ " failed: " ++ e.text) else e) : Capturing C Unit).Raises _ _)
      by_cases closed : x.closed = none
      · exact raises_ensure raised (returns_step closed)
      · obtain ⟨e', raised⟩ := raised
        refine raises_last ?_
        rw [raised]
        exact raises_step closed
  · refine ⟨[], by simp, ?_⟩
    exact raises_bind returns_signal (raises_first (connect_raises connects))

end Signals

section Archive

variable {a : ArchiveCourse C} {s : State C} {held : C} {kept : Option C} {raised : Option Exn}
variable {path target : String}

/-- The files of an attempt when there is at most one. -/
def Files.only (path : String) (kept : Option C) : Files C :=
  Function.update Files.empty path kept

def State.holding (s : State C) (files : Files C) : State C := { s with files }

theorem Files.only_none (path : String) : Files.only path (none : Option C) = .empty :=
  Function.update_eq_self path (Files.empty : Files C)

theorem Files.only_same (path : String) (kept : Option C) : Files.only path kept path = kept := Function.update_self ..

theorem Files.only_empty : Files.only path kept = .empty ↔ kept = none := by
  constructor
  · intro h
    have same := Files.only_same path kept
    rw [h] at same
    exact same.symm
  · rintro rfl
    exact Files.only_none path

theorem put_empty : (s.holding .empty).put path held = s.holding (.only path (some held)) := rfl

theorem erase_only : (s.holding (.only path kept)).erase path = s.holding .empty := by
  rw [← Files.only_none path]
  exact congrArg s.holding (Function.update_idem ..)

theorem erase_other (h : target ≠ path) :
    (s.holding (.only path kept)).erase target = s.holding (.only path kept) := by
  have apart : Files.only path kept target = none := Function.update_of_ne h ..
  refine congrArg s.holding ?_
  change Function.update (Files.only path kept) target none = Files.only path kept
  rw [← apart]
  exact Function.update_eq_self ..

theorem content_returns :
    (content path).Returns (s.holding (.only path (some held))) held
      (s.holding (.only path (some held))) := by
  refine returns_bind returns_current ?_
  change (given ((Files.only path (some held) path).elim (.error missing) .ok)).Returns _ _ _
  rw [Files.only_same]
  exact returns_given

theorem replace_returns {altered : Option C} (h : raised = none) :
    (replace raised altered path target).Returns (s.holding (.only path (some held))) ()
      (s.holding (.only target (some (altered.getD held)))) := by
  refine returns_bind content_returns ?_
  have moved := returns_step (s := s.holding (.only path (some held)))
    (g := fun s => (s.erase path).put target (altered.getD held)) h
  rw [erase_only] at moved
  exact moved

theorem replace_raises {altered : Option C} (h : raised ≠ none) :
    (replace raised altered path target).Raises (s.holding (.only path (some held)))
      (s.holding (.only path (some held))) := raises_bind content_returns (raises_step h)

/-- A handler that takes the file away if it can. -/
theorem unlink_throws {α : Type} {e : Exn} :
    (unlink raised path >>= fun _ => (throw e : Capturing C α)).Raises
      (s.holding (.only path kept))
      (s.holding (.only path (if raised = none then none else kept))) := by
  cases raised with
  | none =>
    rw [if_pos rfl, Files.only_none, ← erase_only]
    exact raises_bind (returns_step rfl) raises_throw
  | some e' =>
    rw [if_neg (by simp)]
    exact raises_first (raises_step (by simp))

theorem createArchive_returns {skipped : Nat} (h : a.Completes held skipped) :
    (createArchive a target).Returns (s.holding .empty) skipped
      (s.holding (.only target (some held))) := by
  obtain ⟨resolved, written, synced, verified, replaced⟩ := h
  unfold createArchive
  refine returns_bind (returns_step resolved) (returns_handle ?_)
  rw [written]
  refine returns_bind (returns_bind (returns_step rfl) returns_pure) ?_
  refine returns_bind (returns_step synced) (returns_bind (returns_step verified) ?_)
  exact returns_bind (replace_returns replaced) returns_pure

theorem write_raises {e : Exn} :
    (write (.raises e kept) path).Raises (s.holding .empty) (s.holding (.only path kept)) := by
  cases kept with
  | none =>
    rw [Files.only_none]
    exact raises_bind (returns_step rfl) raises_throw
  | some held => exact raises_bind (returns_step rfl) raises_throw

/-- An archive that is not made leaves its first file if this is there and stays. -/
theorem createArchive_raises (target : String) (h : ∀ held skipped, ¬a.Completes held skipped) :
    ∃ kept, (createArchive a target).Raises (s.holding .empty)
        (s.holding (.only (target ++ ".part") kept)) ∧
      (kept = none ↔ (a.Breaks → a.unlinked = none)) := by
  unfold createArchive
  by_cases resolved : a.resolved = none
  · cases written : a.written with
    | raises e left =>
      refine ⟨if a.unlinked = none then none else left, ?_, ?_⟩
      · exact raises_bind (returns_step resolved) (raises_handle (raises_first write_raises)
          fun _ => unlink_throws)
      · have breaks : a.Breaks ↔ left ≠ none := by
          simp [ArchiveCourse.Breaks, resolved, written, Option.ne_none_iff_exists']
        rw [breaks]
        split_ifs with gone
        · exact iff_of_true rfl fun _ => gone
        · exact ⟨fun empty there => absurd empty there, fun h => by_contra fun there => gone (h there)⟩
    | complete content skipped =>
      have breaks : ¬(a.synced = none ∧ a.verified = none ∧ a.replaced = none) :=
        fun ⟨synced, verified, replaced⟩ =>
          h content skipped ⟨resolved, written, synced, verified, replaced⟩
      refine ⟨if a.unlinked = none then none else some content, ?_, ?_⟩
      · refine raises_bind (returns_step resolved) (raises_handle ?_ fun _ => unlink_throws)
        refine raises_bind (returns_bind (returns_step rfl) returns_pure) ?_
        by_cases synced : a.synced = none
        · refine raises_bind (returns_step synced) ?_
          by_cases verified : a.verified = none
          · refine raises_bind (returns_step verified) (raises_first (replace_raises ?_))
            exact fun replaced => breaks ⟨synced, verified, replaced⟩
          · exact raises_first (raises_step verified)
        · exact raises_first (raises_step synced)
      · have broken : a.Breaks := ⟨resolved, .inr ⟨⟨content, skipped, written⟩, breaks⟩⟩
        split_ifs with gone
        · exact iff_of_true rfl fun _ => gone
        · exact iff_of_false (by simp) fun h => gone (h broken)
  · refine ⟨none, ?_, iff_of_true rfl fun breaks => absurd breaks.1 resolved⟩
    rw [Files.only_none]
    exact raises_first (raises_step resolved)

end Archive

section Capture

variable {m : Measure C} {course : Course C} {q : Request} {s t : State C} {held : C}
variable {kept : Option C} {raised : Option Exn} {path final part : String}

theorem sha256_returns (h : raised = none) :
    (sha256 m raised path).Returns (s.holding (.only path (some held))) (m.sha256 held)
      (s.holding (.only path (some held))) :=
  returns_bind (returns_step h) (returns_bind content_returns returns_pure)

theorem sha256_raises (h : raised ≠ none) : (sha256 m raised path).Raises s s :=
  raises_first (raises_step h)

theorem size_returns (h : raised = none) :
    (size m raised path).Returns (s.holding (.only path (some held))) (m.size held)
      (s.holding (.only path (some held))) :=
  returns_bind (returns_step h) (returns_bind content_returns returns_pure)

theorem size_raises (h : raised ≠ none) : (size m raised path).Raises s s :=
  raises_first (raises_step h)

theorem verifyZip_returns (h : course.verified = none) : (verifyZip course path).Returns s () s :=
  returns_handle (returns_step h)

theorem verifyZip_raises (path : String) (kept : Option C) (h : course.verified ≠ none) :
    (verifyZip course path).Raises (s.holding (.only path kept))
      (s.holding (.only path (if course.dropped = none then none else kept))) :=
  raises_handle (raises_step h) fun _ => unlink_throws

/-- The row of an attempt. -/
def newRow (m : Measure C) (course : Course C) (q : Request) (held : C) : ArtifactRow where
  artifactId := course.artifactId
  worldId := q.worldId
  category := q.category
  storagePath := q.finalPath course.artifactId
  sizeBytes := m.size (course.altered.getD held)
  checksum := m.sha256 held
  operationId := q.operationId
  createdAt := course.now

/-- The archive is at its place, and the writer has inserted these rows. -/
def State.placed (s : State C) (final : String) (held : C) (pending : List ArtifactRow) : State C :=
  { s.holding (.only final (some held)) with connection := true, pending }

theorem place_returns (final : String) {skipped : Nat} (complete : course.archive.Completes held skipped)
    (hashed : course.hashed = none) (verified : course.verified = none)
    (replaced : course.replaced = none) :
    (place m course final (final ++ ".part")).Returns (s.holding .empty) (skipped, m.sha256 held)
      (s.holding (.only final (some (course.altered.getD held)))) := by
  refine returns_bind (createArchive_returns complete) ?_
  refine returns_bind (sha256_returns hashed) ?_
  refine returns_bind (verifyZip_returns verified) ?_
  exact returns_bind (replace_returns replaced) returns_pure

/-- An archive that does not come to its place stays under its `.part` name, if the check of it does
not take it away. -/
theorem place_raises (final part : String) {skipped : Nat} (complete : course.archive.Completes held skipped)
    (h : ¬(course.hashed = none ∧ course.verified = none ∧ course.replaced = none)) :
    (place m course final part).Raises (s.holding .empty) (s.holding (.only part
      (if course.hashed = none ∧ course.verified ≠ none ∧ course.dropped = none then none
        else some held))) := by
  refine raises_bind (createArchive_returns complete) ?_
  by_cases hashed : course.hashed = none
  · refine raises_bind (sha256_returns hashed) ?_
    by_cases verified : course.verified = none
    · rw [if_neg fun dropped => dropped.2.1 verified]
      refine raises_bind (verifyZip_returns verified) (raises_first (replace_raises ?_))
      exact fun replaced => h ⟨hashed, verified, replaced⟩
    · have dropping := verifyZip_raises (s := s) part (some held) verified
      simp only [hashed, verified, ne_eq, not_false_eq_true, true_and]
      exact raises_first dropping
  · rw [if_neg fun dropped => hashed dropped.1]
    exact raises_first (sha256_raises hashed)

/-- The row goes to the table. -/
theorem record_returns (final : String) (skipped : Nat) {checksum : String} (pending : s.pending = [])
    (measured : course.measured = none) (rehashed : course.rehashed = none)
    (same : m.sha256 held = checksum) (opened : course.opened = none)
    (inserted : course.inserted = none) (committed : course.committed = none) :
    ∃ result, (record m course q final skipped checksum).Returns
      (s.holding (.only final (some held))) result
      { s.placed final held [] with rows := s.rows ++ [{
          artifactId := course.artifactId, worldId := q.worldId, category := q.category
          storagePath := final, sizeBytes := m.size held, checksum, operationId := q.operationId
          createdAt := course.now }] } := by
  refine ⟨⟨course.artifactId, final, checksum, m.size held, skipped⟩, ?_⟩
  refine returns_bind (size_returns measured) ?_
  refine returns_bind (sha256_returns rehashed) ?_
  refine returns_bind (returns_require (beq_iff_eq.mpr same)) ?_
  refine returns_bind (returns_step opened) ?_
  refine returns_bind (returns_step inserted) ?_
  refine returns_bind (returns_step committed) ?_
  simp only [State.holding, State.placed, pending, List.nil_append]
  exact returns_pure

/-- Without the writer nothing changes. -/
theorem record_closed {skipped : Nat} {checksum : String}
    (h : ¬(course.measured = none ∧ course.rehashed = none ∧ m.sha256 held = checksum ∧
      course.opened = none)) :
    (record m course q final skipped checksum).Raises (s.holding (.only final (some held)))
      (s.holding (.only final (some held))) := by
  by_cases measured : course.measured = none
  · refine raises_bind (size_returns measured) ?_
    by_cases rehashed : course.rehashed = none
    · refine raises_bind (sha256_returns rehashed) ?_
      by_cases same : m.sha256 held = checksum
      · refine raises_bind (returns_require (beq_iff_eq.mpr same)) (raises_first (raises_step ?_))
        exact fun opened => h ⟨measured, rehashed, same, opened⟩
      · exact raises_first (raises_require (beq_eq_false_iff_ne.mpr same))
    · exact raises_first (sha256_raises rehashed)
  · exact raises_first (size_raises measured)

/-- A row that is not committed. -/
theorem record_open (final : String) (skipped : Nat) {checksum : String}
    (measured : course.measured = none) (rehashed : course.rehashed = none)
    (same : m.sha256 held = checksum) (opened : course.opened = none)
    (h : ¬(course.inserted = none ∧ course.committed = none)) :
    ∃ pending, (record m course q final skipped checksum).Raises
      (s.holding (.only final (some held))) (s.placed final held pending) := by
  have opens : ∀ {t}, (do
      step course.inserted fun s => { s with
        pending := s.pending ++ [{
          artifactId := course.artifactId, worldId := q.worldId, category := q.category
          storagePath := final, sizeBytes := m.size held, checksum, operationId := q.operationId
          createdAt := course.now }] }
      step course.committed fun s => { s with rows := s.rows ++ s.pending, pending := [] }
      pure ⟨course.artifactId, final, checksum, m.size held, skipped⟩ :
        Capturing C BackupResult).Raises (s.placed final held s.pending) t →
      (record m course q final skipped checksum).Raises (s.holding (.only final (some held))) t := by
    intro t raised
    refine raises_bind (size_returns measured) ?_
    refine raises_bind (sha256_returns rehashed) ?_
    refine raises_bind (returns_require (beq_iff_eq.mpr same)) ?_
    exact raises_bind (returns_step opened) raised
  by_cases inserted : course.inserted = none
  · refine ⟨_, opens (raises_bind (returns_step inserted) (raises_first (raises_step ?_)))⟩
    exact fun committed => h ⟨inserted, committed⟩
  · exact ⟨_, opens (raises_first (raises_step inserted))⟩

/-- What the handler leaves where the writer has not been asked for, or has rolled back. -/
def State.swept (course : Course C) (final part : String) (s : State C) : State C :=
  if course.unlinkedPart = none then
    if course.unlinkedFinal = none then (s.erase part).erase final else s.erase part
  else s

theorem unlinks_swept :
    ((unlink course.unlinkedPart part >>= fun _ => unlink course.unlinkedFinal final :
      Capturing C Unit) s).2 = s.swept course final part := by
  unfold State.swept unlink
  cases course.unlinkedPart with
  | some e => rfl
  | none =>
    rw [if_pos rfl]
    cases course.unlinkedFinal <;> rfl

theorem discard_closed (closed : s.connection = false) :
    (discard course final part s).2 = s.swept course final part := by
  rw [← unlinks_swept]
  change ((onlyIf s.connection _ >>= fun _ => (unlink course.unlinkedPart part >>= fun _ =>
    unlink course.unlinkedFinal final) : Capturing C Unit) s).2 = _
  rw [closed]
  rfl

theorem discard_holding {files : Files C} (closed : s.connection = false) :
    (discard course final part (s.holding files)).2 = (s.holding files).swept course final part :=
  discard_closed closed

theorem discard_open (opened : s.connection = true) :
    (discard course final part s).2 =
      if course.rolledBack = none then { s with pending := [] }.swept course final part else s := by
  rw [← unlinks_swept]
  change ((onlyIf s.connection _ >>= fun _ => (unlink course.unlinkedPart part >>= fun _ =>
    unlink course.unlinkedFinal final) : Capturing C Unit) s).2 = _
  rcases s with ⟨files, rows, pending, connection, signals⟩
  obtain rfl : connection = true := opened
  cases course.rolledBack with
  | some e => rfl
  | none =>
    rw [if_pos rfl]
    rfl

theorem swept_other (beside : part ≠ path) (apart : final ≠ path) :
    (s.holding (.only path kept)).swept course final part = s.holding (.only path kept) := by
  unfold State.swept
  rw [erase_other beside, erase_other apart]
  split_ifs <;> rfl

theorem swept_part (apart : final ≠ part) :
    (s.holding (.only part kept)).swept course final part =
      s.holding (.only part (if course.unlinkedPart = none then none else kept)) := by
  unfold State.swept
  split_ifs
  · rw [erase_only, ← Files.only_none part, erase_other apart]
  · rw [erase_only, Files.only_none]
  · rfl

theorem swept_final (apart : part ≠ final) :
    (s.holding (.only final kept)).swept course final part =
      s.holding (.only final
        (if course.unlinkedPart = none ∧ course.unlinkedFinal = none then none else kept)) := by
  unfold State.swept
  by_cases unlinkedPart : course.unlinkedPart = none
  · rw [if_pos unlinkedPart, erase_other apart]
    by_cases unlinkedFinal : course.unlinkedFinal = none
    · rw [if_pos unlinkedFinal, erase_only, if_pos ⟨unlinkedPart, unlinkedFinal⟩, Files.only_none]
    · rw [if_neg unlinkedFinal, if_neg fun both => unlinkedFinal both.2]
  · rw [if_neg unlinkedPart, if_neg fun both => unlinkedPart both.1]

end Capture

section Attempts

variable {m : Measure C} {course : Course C} {q : Request} {s : State C} {held : C}
variable {rows : List ArtifactRow} {signals : List Signal}

theorem ArchiveCourse.Completes.not_breaks {a : ArchiveCourse C} {skipped : Nat}
    (h : a.Completes held skipped) : ¬a.Breaks := by
  obtain ⟨-, written, synced, verified, replaced⟩ := h
  rintro ⟨-, ⟨e, left, raised⟩ | ⟨-, breaks⟩⟩
  · rw [written] at raised
    cases raised
  · exact breaks ⟨synced, verified, replaced⟩

theorem ArchiveCourse.Completes.unique {a : ArchiveCourse C} {held' : C} {skipped skipped' : Nat}
    (h : a.Completes held skipped) (h' : a.Completes held' skipped') : held = held' := by
  have same := h.2.1.symm.trans h'.2.1
  cases same
  rfl

/-- The attempt returns with its row and its file, or raises and leaves what it may not clear. -/
def Ends (m : Measure C) (course : Course C) (q : Request) (rows : List ArtifactRow)
    (signals : List Signal) (p : Capturing C BackupResult) (s : State C) : Prop :=
  (∃ result t held, p.Returns s result t ∧ Registers m course q held ∧
    (∃ row, t.rows = rows ++ [row] ∧ row.Kept m t) ∧ t.signals = signals) ∨
  (∃ t, p.Raises s t ∧ (∀ held, ¬Registers m course q held) ∧ t.rows = rows ∧
    (t.files = .empty ∧ t.pending = [] ↔ Clears m course q) ∧ t.signals = signals)

/-- Where nothing is written there is nothing to clear. -/
theorem ends_early {p : Capturing C BackupResult} {t : State C} (h : ¬Ready course q)
    (raised : p.Raises s t) (files : t.files = .empty) (stored : t.rows = rows)
    (pending : t.pending = []) (quiet : t.signals = signals) :
    Ends m course q rows signals p s := by
  refine .inr ⟨t, raised, fun _ registers => h registers.1.1.1.1, stored, ?_, quiet⟩
  refine iff_of_true ⟨files, pending⟩ ⟨fun ready => absurd ready h, ?_, ?_⟩
  · exact fun _ archives => absurd archives.1 h
  · exact fun _ places => absurd places.1.1 h

/-- What goes through before an attempt does not change how it ends. -/
theorem ends_bind {α : Type} {p : Capturing C α} {f : α → Capturing C BackupResult} {a : α}
    {t : State C} (first : p.Returns s a t) (h : Ends m course q rows signals (f a) t) :
    Ends m course q rows signals (p >>= f) s := by
  rcases h with ⟨result, u, held, returned, registered⟩ | ⟨u, raised, left⟩
  · exact .inl ⟨result, u, held, returns_bind first returned, registered⟩
  · exact .inr ⟨u, raises_bind first raised, left⟩

theorem part_ne (path : String) : path ++ ".part" ≠ path := by
  intro same
  have lengths := congrArg String.length same
  rw [String.length_append] at lengths
  have : ".part".length = 5 := rfl
  omega

theorem staged_ne (path : String) : path ++ ".part" ++ ".part" ≠ path := by
  intro same
  have lengths := congrArg String.length same
  rw [String.length_append, String.length_append] at lengths
  have : ".part".length = 5 := rfl
  omega

/-- Where an attempt has its archive. -/
def Course.final (course : Course C) (q : Request) : String := q.finalPath course.artifactId

/-- The handler runs on what the attempt has left. -/
theorem writeAndRegister_raises {t : State C} (made : course.made = none)
    (raised : (place m course (course.final q) (course.final q ++ ".part") >>= fun r =>
      record m course q (course.final q) r.1 r.2).Raises s t) :
    (writeAndRegister m course q).Raises s
      (discard course (course.final q) (course.final q ++ ".part") t).2 :=
  raises_bind (returns_step made) (raises_handle raised fun _ => raises_throwing)

section Stages

variable (files : s.files = .empty) (ready : Ready course q)

include files ready

/-- No archive is made. -/
theorem ends_unmade (closed : s.connection = false) (pending : s.pending = [])
    (h : ∀ held skipped, ¬course.archive.Completes held skipped) :
    Ends m course q s.rows s.signals (writeAndRegister m course q) s := by
  have start : s.holding .empty = s := by rw [← files]; rfl
  obtain ⟨kept, raised, cleared⟩ :=
    createArchive_raises (s := s) (course.final q ++ ".part") h
  rw [start] at raised
  have left := writeAndRegister_raises (m := m) ready.2 (raises_first (raises_first raised))
  rw [discard_holding closed, swept_other (part_ne _).symm (staged_ne _).symm] at left
  refine .inr ⟨_, left, fun held registers => ?_, rfl, ?_, rfl⟩
  · obtain ⟨skipped, complete⟩ := registers.1.1.1.2
    exact h held skipped complete
  · constructor
    · rintro ⟨empty, -⟩
      refine ⟨fun _ => cleared.mp (Files.only_empty.mp empty), ?_, ?_⟩
      · rintro held ⟨-, skipped, complete⟩
        exact absurd complete (h held skipped)
      · rintro held ⟨⟨-, skipped, complete⟩, -⟩
        exact absurd complete (h held skipped)
    · rintro ⟨staged, -, -⟩
      exact ⟨Files.only_empty.mpr (cleared.mpr (staged ready)), pending⟩

/-- The archive does not come to its place. -/
theorem ends_unplaced (closed : s.connection = false) (pending : s.pending = [])
    {skipped : Nat} (complete : course.archive.Completes held skipped)
    (h : ¬(course.hashed = none ∧ course.verified = none ∧ course.replaced = none)) :
    Ends m course q s.rows s.signals (writeAndRegister m course q) s := by
  have start : s.holding .empty = s := by rw [← files]; rfl
  have raised := place_raises (m := m) (s := s) (course.final q)
    (course.final q ++ ".part") complete h
  rw [start] at raised
  have left := writeAndRegister_raises (m := m) ready.2 (raises_first raised)
  rw [discard_holding closed, swept_part (part_ne _).symm] at left
  refine .inr ⟨_, left, fun held registers => h registers.1.1.2, rfl, ?_, rfl⟩
  constructor
  · rintro ⟨empty, -⟩
    refine ⟨fun _ breaks => absurd breaks complete.not_breaks, fun _ _ _ => ?_, ?_⟩
    · have gone := Files.only_empty.mp empty
      split_ifs at gone with unlinked dropped
      · exact .inr unlinked
      · exact .inl dropped
    · exact fun _ places => absurd places.2 h
  · rintro ⟨-, part, -⟩
    refine ⟨Files.only_empty.mpr ?_, pending⟩
    rcases part held ⟨ready, skipped, complete⟩ fun places => h places.2 with dropped | unlinked
    · rw [if_pos dropped, ite_self]
    · rw [if_pos unlinked]

/-- The archive at its place is not what was written, or the writer is not there. -/
theorem ends_unopened (closed : s.connection = false) (pending : s.pending = [])
    {skipped : Nat} (complete : course.archive.Completes held skipped)
    (placed : course.hashed = none ∧ course.verified = none ∧ course.replaced = none)
    (h : ¬(course.measured = none ∧ course.rehashed = none ∧
      m.sha256 (course.altered.getD held) = m.sha256 held ∧ course.opened = none)) :
    Ends m course q s.rows s.signals (writeAndRegister m course q) s := by
  have start : s.holding .empty = s := by rw [← files]; rfl
  have placing := place_returns (m := m) (s := s) (course.final q) complete placed.1
    placed.2.1 placed.2.2
  rw [start] at placing
  have left := writeAndRegister_raises ready.2 (raises_bind placing (record_closed (q := q) h))
  rw [discard_holding closed, swept_final (part_ne _)] at left
  have apart : ∀ other, ¬Opens m course q other := by
    rintro other ⟨⟨⟨-, skipped', complete'⟩, -⟩, opens⟩
    obtain rfl := complete.unique complete'
    exact h opens
  refine .inr ⟨_, left, fun other registers => apart other registers.1, rfl, ?_, rfl⟩
  constructor
  · rintro ⟨empty, -⟩
    have gone := Files.only_empty.mp empty
    have unlinked : course.unlinkedPart = none ∧ course.unlinkedFinal = none := by
      by_contra stays
      rw [if_neg stays] at gone
      cases gone
    refine ⟨fun _ breaks => absurd breaks complete.not_breaks, fun _ _ unplaced => ?_, ?_⟩
    · exact .inr unlinked.1
    · exact fun other _ _ => ⟨fun opens => absurd opens (apart other), unlinked⟩
  · rintro ⟨-, -, final⟩
    refine ⟨Files.only_empty.mpr (if_pos ?_), pending⟩
    exact (final held ⟨⟨ready, skipped, complete⟩, placed⟩ fun registers =>
      apart held registers.1).2

/-- The row is not committed. -/
theorem ends_unstored {skipped : Nat} (complete : course.archive.Completes held skipped)
    (placed : course.hashed = none ∧ course.verified = none ∧ course.replaced = none)
    (opens : course.measured = none ∧ course.rehashed = none ∧
      m.sha256 (course.altered.getD held) = m.sha256 held ∧ course.opened = none)
    (h : ¬(course.inserted = none ∧ course.committed = none)) :
    Ends m course q s.rows s.signals (writeAndRegister m course q) s := by
  have start : s.holding .empty = s := by rw [← files]; rfl
  have placing := place_returns (m := m) (s := s) (course.final q) complete placed.1
    placed.2.1 placed.2.2
  rw [start] at placing
  obtain ⟨measured, rehashed, same, opened⟩ := opens
  obtain ⟨rows, raised⟩ := record_open (m := m) (q := q) (s := s) (course.final q)
    skipped measured rehashed same opened h
  have left := writeAndRegister_raises ready.2 (raises_bind placing raised)
  rw [discard_open rfl] at left
  have opening : Opens m course q held :=
    ⟨⟨⟨ready, skipped, complete⟩, placed⟩, measured, rehashed, same, opened⟩
  have unstored : ∀ other, ¬Registers m course q other := fun other registers => h registers.2
  by_cases rolledBack : course.rolledBack = none
  · have closing : { s.placed (course.final q) (course.altered.getD held) rows with pending := [] } =
        (s.placed (course.final q) (course.altered.getD held) []).holding
          (.only (course.final q) (some (course.altered.getD held))) := rfl
    rw [if_pos rolledBack, closing, swept_final (part_ne _)] at left
    refine .inr ⟨_, left, unstored, rfl, ?_, rfl⟩
    constructor
    · rintro ⟨empty, -⟩
      have gone := Files.only_empty.mp empty
      have unlinked : course.unlinkedPart = none ∧ course.unlinkedFinal = none := by
        by_contra stays
        rw [if_neg stays] at gone
        cases gone
      refine ⟨fun _ breaks => absurd breaks complete.not_breaks, fun _ _ _ => ?_, fun _ _ _ => ?_⟩
      · exact .inr unlinked.1
      · exact ⟨fun _ => rolledBack, unlinked⟩
    · rintro ⟨-, -, final⟩
      exact ⟨Files.only_empty.mpr (if_pos (final held opening.1 (unstored held)).2), rfl⟩
  · rw [if_neg rolledBack] at left
    refine .inr ⟨_, left, unstored, rfl, iff_of_false ?_ ?_, rfl⟩
    · rintro ⟨empty, -⟩
      cases Files.only_empty.mp empty
    · rintro ⟨-, -, final⟩
      exact rolledBack ((final held opening.1 (unstored held)).1 opening)

/-- The row is committed. -/
theorem ends_stored (pending : s.pending = []) {skipped : Nat}
    (complete : course.archive.Completes held skipped)
    (placed : course.hashed = none ∧ course.verified = none ∧ course.replaced = none)
    (opens : course.measured = none ∧ course.rehashed = none ∧
      m.sha256 (course.altered.getD held) = m.sha256 held ∧ course.opened = none)
    (stored : course.inserted = none ∧ course.committed = none) :
    Ends m course q s.rows s.signals (writeAndRegister m course q) s := by
  have start : s.holding .empty = s := by rw [← files]; rfl
  have placing := place_returns (m := m) (s := s) (course.final q) complete placed.1
    placed.2.1 placed.2.2
  rw [start] at placing
  obtain ⟨measured, rehashed, same, opened⟩ := opens
  obtain ⟨result, recorded⟩ := record_returns (m := m) (q := q) (s := s) (course.final q)
    skipped pending measured rehashed same opened stored.1 stored.2
  have returned : (writeAndRegister m course q).Returns s result _ :=
    returns_bind (returns_step ready.2) (returns_handle (returns_bind placing recorded))
  refine .inl ⟨result, _, held, returned, ?_, ⟨_, rfl, ?_⟩, rfl⟩
  · exact ⟨⟨⟨⟨ready, skipped, complete⟩, placed⟩, measured, rehashed, same, opened⟩, stored⟩
  · exact ⟨_, Files.only_same _ _, rfl, same⟩

end Stages

theorem writeAndRegister_ends (admits : Admits course q) (files : s.files = .empty)
    (closed : s.connection = false) (pending : s.pending = []) :
    Ends m course q s.rows s.signals (writeAndRegister m course q) s := by
  by_cases made : course.made = none
  · have ready : Ready course q := ⟨admits, made⟩
    by_cases complete : ∃ held skipped, course.archive.Completes held skipped
    · obtain ⟨held, skipped, complete⟩ := complete
      by_cases placed : course.hashed = none ∧ course.verified = none ∧ course.replaced = none
      · by_cases opens : course.measured = none ∧ course.rehashed = none ∧
            m.sha256 (course.altered.getD held) = m.sha256 held ∧ course.opened = none
        · by_cases stored : course.inserted = none ∧ course.committed = none
          · exact ends_stored files ready pending complete placed opens stored
          · exact ends_unstored files ready complete placed opens stored
        · exact ends_unopened files ready closed pending complete placed opens
      · exact ends_unplaced files ready closed pending complete placed
    · have unmade : ∀ held skipped, ¬course.archive.Completes held skipped :=
        fun held skipped completes => complete ⟨held, skipped, completes⟩
      exact ends_unmade files ready closed pending unmade
  · refine ends_early (t := s) (fun ready => made ready.2) ?_ files rfl pending rfl
    exact raises_first (raises_step made)

theorem enforceStorageGuard_returns {size free : Nat} (estimated : course.treeSize = .ok size)
    (usage : course.free = .ok free) (room : requiredFree size ≤ free) :
    (enforceStorageGuard course).Returns s () s := by
  unfold enforceStorageGuard
  rw [estimated, usage]
  refine returns_bind returns_given (returns_bind returns_given ?_)
  exact returns_require (decide_eq_true room)

theorem enforceStorageGuard_raises (h : ¬∃ size free, course.treeSize = .ok size ∧
    course.free = .ok free ∧ requiredFree size ≤ free) : (enforceStorageGuard course).Raises s s := by
  unfold enforceStorageGuard
  cases estimated : course.treeSize with
  | error e => exact raises_first raises_given
  | ok size =>
    refine raises_bind returns_given ?_
    cases usage : course.free with
    | error e => exact raises_first raises_given
    | ok free =>
      refine raises_bind returns_given (raises_require (decide_eq_false ?_))
      exact fun room => h ⟨size, free, estimated, usage, room⟩

theorem modifiedAt_returns {time : Rat} : (modifiedAt (.ok time)).Returns s time s :=
  returns_handle returns_given

theorem modifiedAt_raises {e : Exn} : (modifiedAt (.error e)).Raises s s := by
  refine raises_handle raises_given fun e => ?_
  split <;> exact raises_throw

theorem verifyLevelDatFlush_returns {before after : Rat} (read : course.modifiedAfter = .ok after)
    (fresh : flushed before after course.time course.timeAgain = true) :
    (verifyLevelDatFlush course before).Returns s () s := by
  unfold verifyLevelDatFlush
  rw [read]
  exact returns_bind modifiedAt_returns (returns_require fresh)

theorem verifyLevelDatFlush_raises {before : Rat} (h : ∀ after, course.modifiedAfter = .ok after →
    flushed before after course.time course.timeAgain = false) :
    (verifyLevelDatFlush course before).Raises s s := by
  unfold verifyLevelDatFlush
  cases read : course.modifiedAfter with
  | error e => exact raises_first modifiedAt_raises
  | ok after => exact raises_bind modifiedAt_returns (raises_require (h after read))

/-- The part of a running capture between the two commands. -/
theorem running_ends (running : q.running = true) (coordinator : course.coordinator = true)
    (guarded : ∃ size free, course.treeSize = .ok size ∧ course.free = .ok free ∧
      requiredFree size ≤ free)
    (files : s.files = .empty) (closed : s.connection = false) (pending : s.pending = []) :
    ∃ signals, Ends m course q s.rows signals (do
      coordinate course.suspend q.worldId .saveOff
      let before ← modifiedAt course.modifiedBefore
      coordinate course.flush q.worldId .saveAll
      verifyLevelDatFlush course before
      writeAndRegister m course q) s := by
  have early : ∀ {p : Capturing C BackupResult} {signals : List Signal}, ¬Ready course q →
      p.Raises s (s.signalled signals) → ∃ signals, Ends m course q s.rows signals p s :=
    fun unready raised => ⟨_, ends_early unready raised files rfl pending rfl⟩
  by_cases suspend : course.suspend.Goes
  · have suspended := coordinate_goes (s := s) q.worldId (c := .saveOff) suspend
    cases modifiedBefore : course.modifiedBefore with
    | error e =>
      refine early ?_ (raises_bind suspended (raises_first modifiedAt_raises))
      rintro ⟨⟨-, -, flushes⟩, -⟩
      obtain ⟨-, -, before, after, read, -⟩ := flushes running
      rw [modifiedBefore] at read
      cases read
    | ok before =>
      by_cases flush : course.flush.Goes
      · have saved := coordinate_goes (s := s.signalled [.attempted .saveOff, .sent .saveOff])
          q.worldId (c := .saveAll) flush
        rw [signalled_append] at saved
        by_cases fresh : ∃ after, course.modifiedAfter = .ok after ∧
            flushed before after course.time course.timeAgain = true
        · obtain ⟨after, read, fresh⟩ := fresh
          have admits : Admits course q := ⟨fun _ => coordinator, guarded,
            fun _ => ⟨suspend, flush, before, after, modifiedBefore, read, fresh⟩⟩
          exact ⟨_, ends_bind suspended (ends_bind modifiedAt_returns (ends_bind saved
            (ends_bind (verifyLevelDatFlush_returns read fresh)
              (writeAndRegister_ends (s := s.signalled [.attempted .saveOff, .sent .saveOff,
                .attempted .saveAll, .sent .saveAll]) admits files closed pending))))⟩
        · have stale : ∀ after, course.modifiedAfter = .ok after →
              flushed before after course.time course.timeAgain = false :=
            fun after read => Bool.eq_false_iff.mpr fun passes => fresh ⟨after, read, passes⟩
          refine early ?_ (raises_bind suspended (raises_bind modifiedAt_returns
            (raises_bind saved (raises_first (verifyLevelDatFlush_raises stale)))))
          rintro ⟨⟨-, -, flushes⟩, -⟩
          obtain ⟨-, -, before', after, read, read', passes⟩ := flushes running
          obtain rfl : before = before' := Except.ok.inj (modifiedBefore.symm.trans read)
          exact fresh ⟨after, read', passes⟩
      · obtain ⟨l, -, raised⟩ := coordinate_raises
          (s := s.signalled [.attempted .saveOff, .sent .saveOff]) q.worldId
          (c := .saveAll) flush
        rw [signalled_append] at raised
        refine early ?_ (raises_bind suspended (raises_bind modifiedAt_returns
          (raises_first raised)))
        exact fun ready => flush (ready.1.2.2 running).2.1
  · obtain ⟨l, -, raised⟩ := coordinate_raises (s := s) q.worldId (c := .saveOff) suspend
    refine early ?_ (raises_first raised)
    exact fun ready => suspend (ready.1.2.2 running).1

end Attempts

section Outcomes

variable {m : Measure C} {course : Course C} {q : Request} {rows : List ArtifactRow} {t : State C}

/-- What ends with the attempt to turn autosave on again has no `save-off` after it. -/
theorem resumed_append {before after : List Signal} (h : ∀ g ∈ after, g = .sent .saveOn) :
    Resumed (before ++ .attempted .saveOn :: after) := by
  intro head tail same
  rcases List.append_eq_append_iff.mp same with ⟨l, -, rest⟩ | ⟨l, -, rest⟩
  · cases l with
    | nil => cases rest
    | cons g l =>
      have found : Signal.sent .saveOff ∈ after := by
        rw [(List.cons.inj rest).2]
        simp
      cases h _ found
  · cases l with
    | nil => cases rest
    | cons g l =>
      rw [(List.cons.inj rest).2]
      simp

theorem resumed_nil : Resumed [] := by
  intro head tail same
  simp at same

/-- A course that registers an artifact has nothing to clear away. -/
theorem Registers.clears {held : C} (h : Registers m course q held) : Clears m course q := by
  obtain ⟨skipped, complete⟩ := h.1.1.1.2
  refine ⟨fun _ breaks => absurd breaks complete.not_breaks, ?_, ?_⟩
  · exact fun other archives unplaced => absurd ⟨archives, h.1.1.2⟩ unplaced
  · rintro other ⟨⟨ready, skipped', complete'⟩, placed⟩ unregistered
    obtain rfl := complete.unique complete'
    exact absurd h unregistered

theorem atomic_returned {p : Capturing C BackupResult} {result : BackupResult}
    (returned : p.Returns (.start rows) result t) (registered : Registered m (.start rows) t)
    (resumed : Resumed t.signals) :
    Atomic m rows (p (.start rows)).1 (p (.start rows)).2 := by
  unfold Returns at returned
  rw [returned]
  refine ⟨iff_of_true ⟨result, rfl⟩ registered, ?_, resumed⟩
  rintro ⟨e, raised⟩
  cases raised

theorem atomic_raised {p : Capturing C BackupResult} (raised : p.Raises (.start rows) t)
    (unregistered : t.rows = rows) (resumed : Resumed t.signals) :
    Atomic m rows (p (.start rows)).1 (p (.start rows)).2 ↔
      t.files = .empty ∧ t.pending = [] := by
  obtain ⟨e, raised⟩ := raised
  rw [raised]
  constructor
  · rintro ⟨-, gone, -⟩
    obtain ⟨files, -, pending⟩ := gone ⟨e, rfl⟩
    exact ⟨files, pending⟩
  · rintro ⟨files, pending⟩
    refine ⟨iff_of_false ?_ ?_, fun _ => ⟨files, unregistered, pending⟩, resumed⟩
    · rintro ⟨result, returned⟩
      cases returned
    · rintro ⟨row, stored, -⟩
      rw [unregistered] at stored
      simp [State.start] at stored

/-- Nothing has been done. -/
theorem atomic_early {p : Capturing C BackupResult} (unready : ¬Ready course q)
    (raised : p.Raises (.start rows) (.start rows)) :
    Atomic m rows (p (.start rows)).1 (p (.start rows)).2 ↔ Cleans m course q := by
  refine iff_of_true ((atomic_raised raised rfl resumed_nil).mpr ⟨rfl, rfl⟩) ⟨⟨?_, ?_, ?_⟩, ?_⟩
  · exact fun ready => absurd ready unready
  · exact fun _ archives => absurd archives.1 unready
  · exact fun _ places => absurd places.1.1 unready
  · exact fun _ registers => absurd registers.1.1.1.1 unready

/-- Autosave is not touched. -/
theorem atomic_still {p : Capturing C BackupResult} (still : q.running = false)
    (h : Ends m course q rows [] p (.start rows)) :
    Atomic m rows (p (.start rows)).1 (p (.start rows)).2 ↔ Cleans m course q := by
  have idle : Cleans m course q ↔ Clears m course q := by
    refine ⟨Cleans.clears, fun clears => ⟨clears, fun _ _ running => ?_⟩⟩
    rw [still] at running
    cases running
  rw [idle]
  rcases h with ⟨result, t, held, returned, registers, registered, quiet⟩ |
    ⟨t, raised, -, unregistered, cleared, quiet⟩
  · exact iff_of_true (atomic_returned returned registered (quiet ▸ resumed_nil)) registers.clears
  · rw [atomic_raised raised unregistered (quiet ▸ resumed_nil), cleared]

/-- Autosave is turned on again, or the attempt to do so raises. -/
theorem atomic_running {p : Capturing C BackupResult} {signals : List Signal}
    (running : q.running = true) (h : Ends m course q rows signals p (.start rows)) :
    Atomic m rows (ensure p (coordinate course.resume q.worldId .saveOn) (.start rows)).1
      (ensure p (coordinate course.resume q.worldId .saveOn) (.start rows)).2 ↔
        Cleans m course q := by
  rcases h with ⟨result, t, held, returned, registers, registered, -⟩ |
    ⟨t, raised, unregisters, unregistered, cleared, -⟩
  · by_cases resume : course.resume.Goes
    · have resumed := coordinate_goes (s := t) q.worldId (c := .saveOn) resume
      refine iff_of_true ?_ ⟨registers.clears, fun _ _ _ => resume⟩
      exact atomic_returned (returns_ensure returned resumed) registered
        (resumed_append (by simp))
    · obtain ⟨l, sent, raised⟩ := coordinate_raises (s := t) q.worldId (c := .saveOn)
        resume
      unfold Returns at returned
      refine iff_of_false ?_ fun cleans => resume (cleans.resumes held registers running)
      obtain ⟨e, failed⟩ := raises_last (p := p) (s := .start rows) (by rw [returned]; exact raised)
      rw [failed]
      rintro ⟨-, gone, -⟩
      obtain ⟨-, same, -⟩ := gone ⟨e, rfl⟩
      obtain ⟨row, stored, -⟩ := registered
      have same : t.rows = rows := same
      rw [same] at stored
      simp at stored
  · have only : Cleans m course q ↔ Clears m course q :=
      ⟨Cleans.clears, fun clears => ⟨clears, fun held registers => absurd registers (unregisters held)⟩⟩
    rw [only, ← cleared]
    by_cases resume : course.resume.Goes
    · have resumed := coordinate_goes (s := t) q.worldId (c := .saveOn) resume
      have ended := raises_ensure raised resumed
      have kept : (t.signalled [.attempted .saveOn, .sent .saveOn]).rows = rows := unregistered
      have whole := atomic_raised (m := m) ended kept (resumed_append (by simp))
      exact whole
    · obtain ⟨l, sent, again⟩ := coordinate_raises (s := t) q.worldId (c := .saveOn)
        resume
      obtain ⟨e, raised⟩ := raised
      have ended := raises_last (p := p) (s := .start rows) (by rw [raised]; exact again)
      have kept : (t.signalled (.attempted .saveOn :: l)).rows = rows := unregistered
      have whole := atomic_raised (m := m) ended kept (resumed_append sent)
      exact whole

/-- A capture is whole or leaves nothing exactly when what it leaves can be cleared away, and
autosave can be turned on again after an artifact is registered. -/
theorem capture_atomic_iff (m : Measure C) (course : Course C) (q : Request)
    (rows : List ArtifactRow) :
    Atomic m rows (createWorldBackup m course q (.start rows)).1
      (createWorldBackup m course q (.start rows)).2 ↔ Cleans m course q := by
  by_cases coordinated : (!q.running || course.coordinator) = true
  · have allowed := returns_require (s := State.start (C := C) rows)
      (e := Exn.backupIntegrity "running-world backup requires save coordination") coordinated
    by_cases guarded : ∃ size free, course.treeSize = .ok size ∧ course.free = .ok free ∧
        requiredFree size ≤ free
    · obtain ⟨size, free, estimated, usage, room⟩ := guarded
      have roomy := enforceStorageGuard_returns (s := State.start rows) estimated usage room
      have whole : ∀ {p : Capturing C BackupResult}, createWorldBackup m course q =
          (require (!q.running || course.coordinator)
            (.backupIntegrity "running-world backup requires save coordination") >>= fun _ =>
              enforceStorageGuard course >>= fun _ => p) →
          createWorldBackup m course q (.start rows) = p (.start rows) := by
        intro p same
        unfold Returns at allowed roomy
        rw [same, bind_apply, allowed]
        dsimp only
        rw [bind_apply, roomy]
      rw [whole rfl]
      cases running : q.running with
      | false =>
        rw [if_neg Bool.false_ne_true]
        refine atomic_still running (writeAndRegister_ends ?_ rfl rfl rfl)
        refine ⟨fun h => ?_, ⟨size, free, estimated, usage, room⟩, fun h => ?_⟩ <;>
        · rw [running] at h
          cases h
      | true =>
        rw [if_pos rfl]
        rw [running] at coordinated
        obtain ⟨signals, ends⟩ := running_ends (m := m) (s := .start rows) running
          (by simpa using coordinated) ⟨size, free, estimated, usage, room⟩ rfl rfl rfl
        exact atomic_running running ends
    · refine atomic_early (fun ready => guarded ready.1.2.1) ?_
      exact raises_bind allowed (raises_first (enforceStorageGuard_raises guarded))
  · refine atomic_early ?_ (raises_first (raises_require (Bool.eq_false_iff.mpr coordinated)))
    rintro ⟨⟨coordinator, -⟩, -⟩
    cases running : q.running with
    | false => exact coordinated (by rw [running]; rfl)
    | true => exact coordinated (by rw [coordinator running, Bool.or_true])

end Outcomes

end McManager.Capture
