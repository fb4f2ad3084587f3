import McManager.Services.WorldObservations

namespace McManager.Worlds

open Framework Operations

/-- A statement at this place failed. -/
def failed (log : Log) (t : Site) : Bool :=
  log.any fun
    | .failed t' => t' == t
    | _ => false

/-- A commit at this place went through. -/
def committed (log : Log) (t : Site) : Bool :=
  log.any fun
    | .committed t' => t' == t
    | _ => false

/-- The launch came as far as its command line. -/
def commanded (log : Log) : Bool :=
  log.any fun
    | .answered (.launchCommand _ _) (.ok _) => true
    | _ => false

/-- The adapter answered a spawn for this session with this process. -/
def spawned (log : Log) (handle : ProcessHandle) (sessionId : String) : Bool :=
  log.any fun
    | .answered (.spawn _ _ _ s) (.ok result) => result.handle == some handle && s == sessionId
    | _ => false

/-- The RCON password could not be encrypted. -/
def unencrypted (log : Log) : Bool :=
  log.any fun
    | .answered (.encrypt _) (.error _) => true
    | _ => false

/-- The notes that say how a start went. -/
def telling : Note Site Query Fault Answer → Bool
  | .failed .closeSession | .failed (.setWorldState .queued) | .failed (.setWorldState .error)
  | .failed (.transition .failed) | .failed .publishRead | .committed .closeSession
  | .committed .openSession | .committed (.setWorldState .running)
  | .answered (.launchCommand _ _) (.ok _) | .answered (.spawn _ _ _ _) (.ok _)
  | .answered (.encrypt _) (.error _) => true
  | _ => false

def told (log : Log) : Log := log.filter telling

@[simp] theorem told_nil : told [] = [] := rfl

@[simp] theorem told_append (l l' : Log) : told (l ++ l') = told l ++ told l' := List.filter_append ..

@[simp] theorem told_cons (n : Note Site Query Fault Answer) (l : Log) :
    told (n :: l) = if telling n then n :: told l else told l := List.filter_cons

private theorem any_told {p : Note Site Query Fault Answer → Bool}
    (h : ∀ n, p n = true → telling n = true) (log : Log) : (told log).any p = log.any p := by
  rw [told, List.any_filter]
  congr 1
  funext n
  cases hp : p n with
  | false => rw [Bool.and_false]
  | true => rw [h n hp, Bool.true_and]

/-- A valid row of the world is in a state a start can leave. -/
def Queueable (db : Database) (worldId : String) : Prop :=
  ∀ s, db.At worldId s → s = .off ∨ s = .queued

/-- What a start must meet on its way to end the operation it has created: where it comes as
far as its command line the world can be queued (or the write of that state fails, which the
code does recover from); where it has a process, the session of the process is stored (or its
password cannot be encrypted); and where readiness times out, the session is closed and the
world marked as failed without another failure. -/
@[mk_iff] structure StartReleases (db : Database) (worldId : String) (log : Log) : Prop where
  queueable : commanded log = true →
    Queueable db worldId ∨ failed log (.setWorldState .queued) = true
  stored : ∀ handle sessionId, spawned log handle sessionId = true →
    unencrypted log = true ∨ committed log .openSession = true
  closed : failed log .closeSession = false
  ended : committed log .closeSession = true → failed log (.setWorldState .error) = false

/-- What a start must meet to keep track of the process it has spawned: the session of the
process is stored, and then the world is marked as running, or the recovery is itself cut short
by a failure before it has closed the session or marked the world as failed. -/
@[mk_iff] structure StartTracks (log : Log) : Prop where
  stored : committed log .openSession = true
  kept : committed log (.setWorldState .running) = true ∨ failed log .closeSession = true ∨
    committed log .closeSession = false ∧ (failed log (.transition .failed) = true ∨
      failed log .publishRead = true ∨ failed log (.setWorldState .error) = true)

theorem failed_told {t : Site} (h : telling (.failed t) = true) (log : Log) :
    failed (told log) t = failed log t := by
  refine any_told (fun n hn => ?_) log
  cases n with
  | failed t' =>
    have ht : t' = t := by simpa using hn
    rwa [ht]
  | committed t' => cases hn
  | answered q o => cases hn

theorem committed_told {t : Site} (h : telling (.committed t) = true) (log : Log) :
    committed (told log) t = committed log t := by
  refine any_told (fun n hn => ?_) log
  cases n with
  | committed t' =>
    have ht : t' = t := by simpa using hn
    rwa [ht]
  | failed t' => cases hn
  | answered q o => cases hn

theorem commanded_told (log : Log) : commanded (told log) = commanded log := by
  refine any_told (fun n hn => ?_) log
  split at hn
  · rfl
  · cases hn

theorem spawned_told (log : Log) (handle : ProcessHandle) (sessionId : String) :
    spawned (told log) handle sessionId = spawned log handle sessionId := by
  refine any_told (fun n hn => ?_) log
  split at hn
  · rfl
  · cases hn

private theorem unencrypted_told (log : Log) : unencrypted (told log) = unencrypted log := by
  refine any_told (fun n hn => ?_) log
  split at hn
  · rfl
  · cases hn

theorem startReleases_told {db : Database} {worldId : String} {log : Log} :
    StartReleases db worldId (told log) ↔ StartReleases db worldId log := by
  simp only [startReleases_iff, commanded_told, spawned_told, unencrypted_told,
    failed_told (t := .closeSession) rfl, failed_told (t := .setWorldState .queued) rfl,
    failed_told (t := .setWorldState .error) rfl, committed_told (t := .closeSession) rfl,
    committed_told (t := .openSession) rfl]

theorem startTracks_told {log : Log} : StartTracks (told log) ↔ StartTracks log := by
  simp only [startTracks_iff, failed_told (t := .closeSession) rfl,
    failed_told (t := .transition .failed) rfl, failed_told (t := .publishRead) rfl,
    failed_told (t := .setWorldState .error) rfl, committed_told (t := .closeSession) rfl,
    committed_told (t := .openSession) rfl, committed_told (t := .setWorldState .running) rfl]

theorem told_observed {l : Log}
    (h : ∀ n ∈ l, n.Observed (fun t => reader t = true) (fun q => passing q = true)) :
    told l = [] := by
  refine List.filter_eq_nil_iff.mpr fun n hn => ?_
  have hn := h n hn
  cases n with
  | failed t => cases t <;> first | exact Bool.false_ne_true | cases hn
  | committed t => cases hn
  | answered q o => cases q <;> first | exact Bool.false_ne_true | cases hn

/-- The process with this session is on record: its session is open, and the world counts as
neither off nor failed. -/
structure Tracked (db : Database) (worldId sessionId : String) : Prop where
  session : HasOpenSession db worldId sessionId
  state : ∃ w, db.world? worldId = some w ∧ w.state ≠ .off ∧ w.state ≠ .error

/-- How a start that works for `opId` may leave: the operation has ended, and is Completed
exactly when the call returned, if and only if `StartReleases` holds; and the process it has
spawned is tracked if and only if `StartTracks` does. -/
structure StartLeft (E : Scope) (before : Database) (worldId : String) (ids : List String)
    (opId : String) (r : Except Exn String) (y : Session) : Prop where
  released : ∃ status, Stage ids opId status y.conn.committed ∧
    ((∀ status φ, ¬E.fails (.transition status) φ) → (∀ φ, ¬E.fails .publishRead φ) →
      (status.terminal = true ∧ (status = .completed ↔ ∃ a, r = .ok a) ↔
        StartReleases before worldId y.log))
  tracked : ∀ handle sessionId, spawned y.log handle sessionId = true →
    (Tracked y.conn.committed worldId sessionId ↔ StartTracks y.log)

/-- The log of a start that has spawned nothing and closed nothing. -/
structure Idle (before : Database) (worldId : String) (log : Log) : Prop where
  queueable : commanded log = true →
    Queueable before worldId ∨ failed log (.setWorldState .queued) = true
  unspawned : ∀ handle sessionId, spawned log handle sessionId = false
  unclosed : failed log .closeSession = false
  uncommitted : committed log .closeSession = false

section Recovery

variable {E : Scope} {svc : WorldsService} {worldId opId : String} {ids : List String}
  {before db : Database} {log : Log} {s : OperationStatus} {e : Exn}
  {Q : Except Exn String → Session → Prop}

theorem Idle.releases (h : Idle before worldId log) : StartReleases before worldId log where
  queueable := h.queueable
  stored := fun handle sessionId hs => by simp [h.unspawned handle sessionId] at hs
  closed := h.unclosed
  ended := fun hc => by simp [h.uncommitted] at hc

/-- A note of the recovery, which tells nothing about how far the start has come. -/
def inert : Note Site Query Fault Answer → Bool
  | .failed .closeSession | .committed .closeSession | .committed .openSession
  | .committed (.setWorldState .running) | .answered (.launchCommand _ _) (.ok _)
  | .answered (.spawn _ _ _ _) (.ok _) | .answered (.encrypt _) (.error _) => false
  | _ => true

/-- Both logs tell of a start that has come equally far. -/
structure SameCourse (log log' : Log) : Prop where
  commanded : commanded log' = commanded log
  spawned : ∀ handle sessionId, spawned log' handle sessionId = spawned log handle sessionId
  unencrypted : unencrypted log' = unencrypted log
  opened : committed log' .openSession = committed log .openSession
  running : committed log' (.setWorldState .running) = committed log (.setWorldState .running)
  unclosed : failed log' .closeSession = failed log .closeSession
  closed : committed log' .closeSession = committed log .closeSession

theorem SameCourse.append (log : Log) {l : Log} (hl : ∀ n ∈ l, inert n = true) :
    SameCourse log (log ++ l) := by
  have same : ∀ p : Note Site Query Fault Answer → Bool, (∀ n, inert n = true → p n = false) →
      (log ++ l).any p = log.any p := by
    intro p hp
    have never : l.any p = false := by
      refine List.any_eq_false.mpr fun n hn => ?_
      rw [hp n (hl n hn)]
      exact Bool.false_ne_true
    rw [List.any_append, never, Bool.or_false]
  have unfailed : ∀ t, inert (.failed t) = false → failed (log ++ l) t = failed log t := by
    intro t ht
    refine same _ fun n hn => ?_
    split
    · rename_i t'
      by_cases htt : t' = t
      · rw [htt, ht] at hn
        cases hn
      · simpa using htt
    · rfl
  have uncommitted : ∀ t, inert (.committed t) = false →
      committed (log ++ l) t = committed log t := by
    intro t ht
    refine same _ fun n hn => ?_
    split
    · rename_i t'
      by_cases htt : t' = t
      · rw [htt, ht] at hn
        cases hn
      · simpa using htt
    · rfl
  refine ⟨same _ ?_, fun handle sessionId => same _ ?_, same _ ?_, uncommitted _ rfl,
    uncommitted _ rfl, unfailed _ rfl, uncommitted _ rfl⟩
  all_goals
    intro n hn
    split
    · cases hn
    · rfl

theorem Idle.append (h : Idle before worldId log) {l : Log} (hl : ∀ n ∈ l, inert n = true) :
    Idle before worldId (log ++ l) := by
  have same := SameCourse.append log hl
  refine ⟨?_, ?_, same.unclosed.trans h.unclosed, same.closed.trans h.uncommitted⟩
  · intro hc
    refine (h.queueable (same.commanded.symm.trans hc)).imp_right fun hf => ?_
    rw [failed, List.any_append, Bool.or_eq_true]
    exact .inl hf
  · intro handle sessionId
    rw [same.spawned]
    exact h.unspawned handle sessionId

/-- Some statement of the operation service fails in the runs at hand. -/
def Unrecorded (E : Scope) : Prop :=
  (∃ status φ, E.fails (.transition status) φ) ∨ ∃ φ, E.fails .publishRead φ

theorem left_idle {c : Connection Database} (stage : Stage ids opId s c.committed)
    (idle : Idle before worldId log) (ended : s.terminal = true ∧ s ≠ .completed ∨ Unrecorded E) :
    StartLeft E before worldId ids opId (.error e) ⟨c, log⟩ where
  released := by
    refine ⟨s, stage, fun transitions publishing => ?_⟩
    rcases ended with ⟨ended, failed⟩ | ⟨status, φ, h⟩ | ⟨φ, h⟩
    · refine iff_of_true ⟨ended, fun h => absurd h failed, fun ⟨a, h⟩ => nomatch h⟩ idle.releases
    · exact absurd h (transitions status φ)
    · exact absurd h (publishing φ)
  tracked := fun handle sessionId h => by simp [idle.unspawned handle sessionId] at h

/-- What the `except` clauses make of the result of the guarded part. -/
def Caught (E : Scope) (svc : WorldsService) (before : Database) (worldId : String)
    (ids : List String) (opId : String) (r : Except Exn String) (y : Session) : Prop :=
  match r with
  | .ok a => StartLeft E before worldId ids opId (.ok a) y
  | .error e =>
    wp E (StartLeft E before worldId ids opId) (launchFailed svc worldId opId e) y

/-- The catch-all leaves an operation that has ended as it is. -/
theorem wp_launchFailed_over (isOver : Over db opId) (untimed : ∀ text, e ≠ .startTimeout text)
    (left : ∀ e l, (∀ n ∈ l, inert n = true) → told l = [] ∨ told l = [.failed (.transition .failed)] →
      Q (.error e) ⟨.closed db, log ++ l⟩) :
    wp E Q (launchFailed svc worldId opId e) ⟨.closed db, log⟩ := by
  have same : ∀ e, Q (.error e) ⟨.closed db, log⟩ := by
    intro e
    have h := left e [] (by simp) (.inl rfl)
    rwa [List.append_nil] at h
  unfold launchFailed
  split
  · rename_i text
    exact absurd rfl (untimed text)
  · split
    · exact same _
    · simp only [Program.bind_eq]
      rw [wp_bind]
      refine wp_failOp (wp_transition_over isOver (fun text => same _) fun φ _ => ?_)
      exact left _ [.failed (.transition .failed)] (by simp [inert]) (.inr rfl)

/-- The catch-all records the failure of an open operation, and then marks the world. -/
theorem wp_launchFailed_live (fresh : ∀ x q a, E.draws x q a → FreshDraw x q a)
    (stage : Stage ids opId s db) (hopen : s.terminal = false) (other : e.isWorldLifecycle = false)
    (recorded : ∀ d, Stage ids opId .failed d → d.worlds = db.worlds → d.sessions = db.sessions →
      wp E (fun r y => match r with
        | .ok _ => Q (.error (.worldLifecycle e.text)) y
        | .error e => Q (.error e) y) (setWorldState worldId .error)
        ⟨.closed d, log ++ [.committed (.transition .failed)]⟩)
    (unpublished : ∀ e d, Stage ids opId .failed d → d.worlds = db.worlds →
      d.sessions = db.sessions → (∃ φ, E.fails .publishRead φ) → Q (.error e)
        ⟨.closed d, log ++ [.committed (.transition .failed)] ++ [.failed .publishRead]⟩)
    (unrecorded : ∀ e, (∃ φ, E.fails (.transition .failed) φ) → Q (.error e)
      ⟨.closed db, log ++ [.failed (.transition .failed)]⟩) :
    wp E Q (launchFailed svc worldId opId e) ⟨.closed db, log⟩ := by
  unfold launchFailed
  split
  · cases other
  · rw [other]
    simp only [Bool.false_eq_true, if_false, Program.bind_eq]
    rw [wp_bind]
    refine wp_failOp (wp_milestone fresh stage hopen (.inr rfl) ?_ fun φ hφ => unrecorded _ ⟨φ, hφ⟩)
    intro op d hstage worlds sessions _
    refine ⟨?_, fun φ hφ => unpublished _ d hstage worlds sessions ⟨φ, hφ⟩⟩
    have h := recorded d hstage worlds sessions
    dsimp only [Except.map]
    rw [wp_bind]
    refine wp_mono h ?_
    intro r y hr
    cases r with
    | ok u => exact hr
    | error e => exact hr

theorem caught_ended (stage : Stage ids opId s db) (ended : s.terminal = true) (failed : s ≠ .completed)
    (idle : Idle before worldId log) (untimed : ∀ text, e ≠ .startTimeout text) :
    Caught E svc before worldId ids opId (.error e) ⟨.closed db, log⟩ := by
  refine wp_launchFailed_over (stage.over ended) untimed ?_
  intro e l hl _
  exact left_idle stage (idle.append hl) (.inl ⟨ended, failed⟩)

/-- A state change leaves the operations and the sessions as they are, whatever becomes of it. -/
theorem wp_mark {t : WorldState} {Q : Except Exn Unit → Session → Prop}
    (stage : Stage ids opId s db) (ht : t ≠ .running)
    (left : ∀ r d l, Stage ids opId s d → (∀ n ∈ l, inert n = true) →
      (∀ text, r ≠ .error (.startTimeout text)) → Q r ⟨.closed d, log ++ l⟩) :
    wp E Q (setWorldState worldId t) ⟨.closed db, log⟩ := by
  refine wp_setWorldState ?_ ?_ ?_
  · intro now d h
    obtain ⟨w, pre, -, -, -, -, -, rfl⟩ := setWorldStateBlock_ok h
    have hinert : inert (.committed (.setWorldState t)) = true := by
      cases t <;> first | rfl | exact absurd rfl ht
    exact left _ _ [_] (stage.withState worldId t pre now) (by simp [hinert]) (fun _ h => nomatch h)
  · intro now e h
    have hleft := left (.error e) db [] stage (by simp)
    rw [List.append_nil] at hleft
    refine hleft fun text he => ?_
    cases he
    rcases setWorldStateBlock_error h with ⟨_, h⟩ | ⟨_, h⟩ | ⟨_, h⟩ <;> cases h
  · intro φ _
    exact left _ _ [_] stage (by simp [inert]) (fun _ h => nomatch h)

/-- A start whose operation is open and that has spawned nothing ends in the catch-all. -/
theorem caught_open (fresh : ∀ x q a, E.draws x q a → FreshDraw x q a)
    (stage : Stage ids opId s db) (hopen : s.terminal = false) (idle : Idle before worldId log)
    (other : e.isWorldLifecycle = false) :
    Caught E svc before worldId ids opId (.error e) ⟨.closed db, log⟩ := by
  have ended : ∀ {c : Connection Database} {e : Exn} {l : Log}, Stage ids opId .failed c.committed →
      (∀ n ∈ l, inert n = true) → StartLeft E before worldId ids opId (.error e) ⟨c, log ++ l⟩ :=
    fun stage hl => left_idle stage (idle.append hl) (.inl ⟨rfl, by decide⟩)
  refine wp_launchFailed_live fresh stage hopen other ?_ ?_ ?_
  · intro d hstage _ _
    refine wp_mark hstage (by decide) ?_
    intro r d' l hstage' hl _
    rw [List.append_assoc]
    have hl' : ∀ n ∈ [.committed (.transition .failed)] ++ l, inert n = true := by
      simpa [inert] using hl
    cases r with
    | ok u => exact ended hstage' hl'
    | error e => exact ended hstage' hl'
  · intro e d hstage _ _ _
    rw [List.append_assoc]
    exact ended hstage (by simp [inert])
  · intro e ⟨φ, hφ⟩
    exact left_idle stage (idle.append (by simp [inert])) (.inr (.inl ⟨_, φ, hφ⟩))

/-- The steps of a refused launch: record the failure, mark the world, raise. -/
theorem wp_refuse {α : Type} {Q : Except Exn α → Session → Prop}
    (fresh : ∀ x q a, E.draws x q a → FreshDraw x q a)
    (stage : Stage ids opId s db) (hopen : s.terminal = false) (idle : Idle before worldId log)
    (untimed : ∀ text, e ≠ .startTimeout text)
    (raised : ∀ e y, Caught E svc before worldId ids opId (.error e) y → Q (.error e) y)
    (code : String) (message : Option String) {t : WorldState} (ht : t ≠ .running) :
    wp E Q ((failOp svc opId code message).bind fun _ => (setWorldState worldId t).bind fun _ =>
      .raise e) ⟨.closed db, log⟩ := by
  rw [wp_bind]
  refine wp_failOp (wp_milestone fresh stage hopen (.inr rfl) ?_ ?_)
  · intro op d hstage _ _ _
    have after : ∀ {d : Database} {e : Exn} {l : Log}, Stage ids opId .failed d →
        (∀ n ∈ l, inert n = true) → (∀ text, e ≠ .startTimeout text) →
        Q (.error e) ⟨.closed d, log ++ [.committed (.transition .failed)] ++ l⟩ := by
      intro d e l hstage hl untimed
      refine raised _ _ (caught_ended hstage rfl (by decide) ?_ untimed)
      exact (idle.append (by simp [inert])).append hl
    refine ⟨?_, fun φ _ => after hstage (by simp [inert]) fun _ h => nomatch h⟩
    dsimp only [Except.map]
    rw [wp_bind]
    refine wp_mark hstage ht ?_
    intro r d' l hstage' hl hr
    cases r with
    | ok u => exact after hstage' hl untimed
    | error e => exact after hstage' hl fun text h => hr text (congrArg _ h)
  · intro φ _
    exact raised _ _ (caught_open fresh stage hopen (idle.append (by simp [inert])) rfl)

end Recovery

end McManager.Worlds
