import McManager.Services.StartCourse

namespace McManager.Worlds

open Framework Operations

section Recovery

variable {E : Scope} {svc : WorldsService} {worldId opId : String} {ids : List String}
  {before db : Database} {log : Log} {s : OperationStatus}

theorem wp_storeSecret {secretType entityType entityId plaintext : String}
    {Q : Except Exn String → Session → Prop}
    (unencrypted : ∀ p φ, Q (.error (.external φ))
      ⟨.closed db, log ++ [.answered (.encrypt p) (.error φ)]⟩)
    (unstored : ∀ e v l, e.isWorldLifecycle = false → told l = [] →
      Q (.error e) ⟨⟨db, some v⟩, log ++ l⟩)
    (stored : ∀ secretId d l, d.operations = db.operations → d.worlds = db.worlds →
      d.sessions = db.sessions → told l = [] → Q (.ok secretId) ⟨.closed d, log ++ l⟩) :
    wp E Q (storeSecret secretType entityType entityId plaintext) ⟨.closed db, log⟩ := by
  unfold storeSecret
  simp only [Program.bind_eq, Program.pure_eq]
  refine wp_draw_bind fun secretId _ => ?_
  rw [wp_bind]
  refine wp_ask ?_ fun φ _ => unencrypted _ φ
  intro a _
  refine wp_draw_bind fun at' _ => ?_
  rw [wp_bind]
  refine wp_autocommit ?_ ?_ ?_
  · intro d n h
    obtain ⟨-, rfl, -⟩ := satisfying_ok.mp h
    rw [List.append_assoc]
    exact stored _ _ _ rfl rfl rfl (by simp [telling])
  · intro e h
    obtain ⟨text, rfl⟩ := satisfying_error h
    exact unstored _ db _ rfl (by simp [telling])
  · intro φ v _
    rw [List.append_assoc]
    exact unstored _ v _ rfl (by simp [telling])

/-- Storing a session: its password may be refused, a failing statement may leave the
connection in a transaction, or the session is there. -/
theorem wp_openSession {w : World} {context : LaunchContext} {handle : ProcessHandle}
    {argv : List String} {password sessionId : String} {Q : Except Exn Unit → Session → Prop}
    (unencrypted : ∀ p φ, Q (.error (.external φ))
      ⟨.closed db, log ++ [.answered (.encrypt p) (.error φ)]⟩)
    (unstored : ∀ e d v l, d.operations = db.operations → d.worlds = db.worlds →
      d.sessions = db.sessions → e.isWorldLifecycle = false → told l = [] →
      Q (.error e) ⟨⟨d, some v⟩, log ++ l⟩)
    (stored : ∀ d l, d.operations = db.operations → d.worlds = db.worlds →
      HasOpenSession d w.worldId sessionId → told l = [] →
      Q (.ok ()) ⟨.closed d, log ++ l ++ [.committed .openSession]⟩) :
    wp E Q (openSession w context handle argv password sessionId) ⟨.closed db, log⟩ := by
  have insert : ∀ (secretId : Option String) (d : Database) (l : Log), d.operations = db.operations →
      d.worlds = db.worlds → d.sessions = db.sessions → told l = [] →
      wp E Q (now.bind fun at' => autocommit .openSession (Body.write (.insertSession {
        sessionId, worldId := w.worldId, startedAt := at', endedAt := none, endReason := none,
        rconSecretId := secretId, portUsed := w.port, javaRuntimeId := w.javaRuntimeId,
        launchArgsSnapshot := {
          argv, pid := handle.pid, spawnEpoch := handle.spawnEpoch, cwd := context.worldDir,
          launchMarker := launchMarker argv }
        rconPort := some context.rconPort, createdAt := at' })))
        ⟨.closed d, log ++ l⟩ := by
    intro secretId d l ops worlds sessions hl
    refine wp_draw_bind fun at' _ => wp_autocommit ?_ ?_ ?_
    · intro d' n h
      obtain ⟨-, rfl, -⟩ := satisfying_ok.mp h
      refine stored _ l ops worlds ?_ hl
      exact ⟨_, List.mem_append_right _ (List.mem_singleton_self _), rfl, rfl, rfl⟩
    · intro e h
      obtain ⟨text, rfl⟩ := satisfying_error h
      exact unstored _ d d l ops worlds sessions rfl hl
    · intro φ v _
      rw [List.append_assoc]
      exact unstored _ d v _ ops worlds sessions rfl (by simp [hl, telling])
  unfold openSession
  simp only [Program.bind_eq, Program.pure_eq]
  split
  · rw [wp_bind]
    refine wp_storeSecret unencrypted ?_ ?_
    · exact fun e v l other hl => unstored e db v l rfl rfl rfl other hl
    · exact fun secretId d l ops worlds sessions hl => insert (some secretId) d l ops worlds sessions hl
  · have h := insert none db [] rfl rfl rfl rfl
    rwa [List.append_nil] at h

/-- The telling notes of a start up to its spawned process. -/
structure Launched (worldId : String) where
  world : World
  context : LaunchContext
  argv : List String
  cwd : String
  sessionId : String
  handle : ProcessHandle
  spawnError : Option String

def Launched.notes {worldId : String} (l : Launched worldId) : Log :=
  [.answered (.launchCommand l.world l.context) (.ok l.argv),
    .answered (.spawn worldId l.argv l.cwd l.sessionId) (.ok ⟨some l.handle, l.spawnError⟩)]

theorem Launched.releases {l : Launched worldId} {rest : Log}
    (queueable : Queueable before worldId) :
    StartReleases before worldId (l.notes ++ rest) ↔
      (unencrypted rest = true ∨ committed rest .openSession = true) ∧
      failed rest .closeSession = false ∧
      (committed rest .closeSession = true → failed rest (.setWorldState .error) = false) := by
  have hunencrypted : unencrypted (l.notes ++ rest) = unencrypted rest := by
    simp [Launched.notes, unencrypted]
  have hfailed : ∀ t, failed (l.notes ++ rest) t = failed rest t := by
    simp [Launched.notes, failed]
  have hcommitted : ∀ t, committed (l.notes ++ rest) t = committed rest t := by
    simp [Launched.notes, committed]
  have hspawned : spawned (l.notes ++ rest) l.handle l.sessionId = true := by
    simp [Launched.notes, spawned]
  rw [startReleases_iff, hunencrypted, hfailed, hfailed, hcommitted, hcommitted]
  constructor
  · rintro ⟨-, stored, closed, ended⟩
    exact ⟨stored _ _ hspawned, closed, ended⟩
  · rintro ⟨stored, closed, ended⟩
    exact ⟨fun _ => .inl queueable, fun _ _ _ => stored, closed, ended⟩

theorem Launched.tracks {l : Launched worldId} {rest : Log} :
    StartTracks (l.notes ++ rest) ↔ StartTracks rest := by
  have hfailed : ∀ t, failed (l.notes ++ rest) t = failed rest t := by
    simp [Launched.notes, failed]
  have hcommitted : ∀ t, committed (l.notes ++ rest) t = committed rest t := by
    simp [Launched.notes, committed]
  simp only [startTracks_iff, hfailed, hcommitted]

/-- How a start leaves that has spawned a process and of which `rest` tells since then. -/
theorem left_launched {l : Launched worldId} {k : Log} {c : Connection Database}
    {r : Except Exn String} (stage : Stage ids opId s c.committed)
    (queueable : Queueable before worldId) (hlog : told log = l.notes ++ k)
    (alone : ∀ handle sessionId, spawned k handle sessionId = false)
    (released : Unrecorded E ∨ (s.terminal = true ∧ (s = .completed ↔ ∃ a, r = .ok a) ↔
      (unencrypted k = true ∨ committed k .openSession = true) ∧
      failed k .closeSession = false ∧
      (committed k .closeSession = true → failed k (.setWorldState .error) = false)))
    (tracked : Tracked c.committed worldId l.sessionId ↔ StartTracks k) :
    StartLeft E before worldId ids opId r ⟨c, log⟩ where
  released := by
    refine ⟨s, stage, fun transitions publishing => ?_⟩
    rcases released with (⟨status, φ, h⟩ | ⟨φ, h⟩) | released
    · exact absurd h (transitions status φ)
    · exact absurd h (publishing φ)
    · rw [released, ← startReleases_told, hlog, Launched.releases queueable]
  tracked := by
    intro handle sessionId h
    have hid : sessionId = l.sessionId := by
      have hrest := alone handle sessionId
      rw [← spawned_told, hlog] at h
      simp only [spawned, Launched.notes, List.any_append, List.any_cons, List.any_nil,
        Bool.or_false, Bool.false_or, Bool.or_eq_true, Bool.and_eq_true, beq_iff_eq] at h hrest
      rcases h with h | h
      · exact h.2.symm
      · rw [hrest] at h
        cases h
    have told : StartTracks (told log) ↔ StartTracks log := startTracks_told
    rw [hlog, Launched.tracks] at told
    rw [hid, tracked, told]

/-- A start whose session could not be stored. -/
theorem caught_unstored {l : Launched worldId} {k : Log} {v : Option Database} {e : Exn}
    (fresh : ∀ x q a, E.draws x q a → FreshDraw x q a) (stage : Stage ids opId .running db)
    (queueable : Queueable before worldId) (hlog : told log = l.notes ++ k)
    (other : e.isWorldLifecycle = false) (absent : ¬HasOpenSession db worldId l.sessionId)
    (cause : v = none ∧ (∃ p φ, k = [.answered (.encrypt p) (.error φ)]) ∨
      v.isSome = true ∧ k = []) :
    Caught E svc before worldId ids opId (.error e) ⟨⟨db, v⟩, log⟩ := by
  rcases cause with ⟨rfl, p, φ, rfl⟩ | ⟨hv, rfl⟩
  · -- No transaction is open, so the failure is recorded.
    have left : ∀ {d : Database} {e : Exn} {m : Log} {status : OperationStatus},
        Stage ids opId status d → d.sessions = db.sessions →
        Unrecorded E ∨ status = .failed →
        (told m = [] ∨ told m = [.failed (.setWorldState .error)] ∨
          told m = [.failed .publishRead] ∨ told m = [.failed (.transition .failed)]) →
        StartLeft E before worldId ids opId (.error e) ⟨.closed d, log ++ m⟩ := by
      intro d e m status hstage sessions ended hm
      have hrest : told (log ++ m) =
          l.notes ++ ([.answered (.encrypt p) (.error φ)] ++ told m) := by
        rw [told_append, hlog, List.append_assoc]
      refine left_launched hstage queueable hrest ?_ ?_ ?_
      · intro handle sessionId
        rcases hm with hm | hm | hm | hm <;> simp [hm, spawned]
      · refine ended.imp_right ?_
        rintro rfl
        rcases hm with hm | hm | hm | hm <;>
          simp [hm, unencrypted, failed, committed, OperationStatus.terminal]
      · refine iff_of_false ?_ ?_
        · rintro ⟨⟨s, hs, hopen⟩, -⟩
          change s ∈ d.sessions at hs
          rw [sessions] at hs
          exact absent ⟨s, hs, hopen⟩
        · rintro ⟨stored, -⟩
          rcases hm with hm | hm | hm | hm <;> simp [hm, committed] at stored
    refine wp_launchFailed_live fresh stage rfl other ?_ ?_ ?_
    · intro d hstage _ sessions
      refine wp_setWorldState ?_ ?_ ?_
      · intro now d' h
        obtain ⟨w, pre, -, -, -, -, -, rfl⟩ := setWorldStateBlock_ok h
        rw [List.append_assoc]
        exact left (hstage.withState worldId _ _ _) sessions (.inr rfl) (.inl (by simp [telling]))
      · intro now e _
        exact left hstage sessions (.inr rfl) (.inl (by simp [telling]))
      · intro φ _
        rw [List.append_assoc]
        exact left hstage sessions (.inr rfl) (.inr (.inl (by simp [telling])))
    · intro e d hstage _ sessions _
      rw [List.append_assoc]
      exact left hstage sessions (.inr rfl) (.inr (.inr (.inl (by simp [telling]))))
    · rintro e ⟨φ, hφ⟩
      exact left stage rfl (.inl (.inl ⟨_, φ, hφ⟩)) (.inr (.inr (.inr (by simp [telling]))))
  · -- The open transaction makes the next `BEGIN` raise, and the operation stays as it is.
    obtain ⟨v, rfl⟩ := Option.isSome_iff_exists.mp hv
    have left : ∀ {e : Exn} {m : Log}, told m = [] ∨ told m = [.failed (.transition .failed)] →
        StartLeft E before worldId ids opId (.error e) ⟨.closed db, log ++ m⟩ := by
      intro e m hm
      have hrest : told (log ++ m) = l.notes ++ told m := by
        rw [told_append, hlog, List.append_nil]
      refine left_launched stage queueable hrest ?_ (.inr ?_) ?_
      · intro handle sessionId
        rcases hm with hm | hm <;> simp [hm, spawned]
      · rcases hm with hm | hm <;> simp [hm, unencrypted, committed, OperationStatus.terminal]
      · refine iff_of_false (fun h => absent h.session) ?_
        rintro ⟨stored, -⟩
        rcases hm with hm | hm <;> simp [hm, committed] at stored
    change wp E _ (launchFailed svc worldId opId e) _
    unfold launchFailed
    split
    · cases other
    · rw [other]
      simp only [Bool.false_eq_true, if_false, Program.bind_eq]
      rw [wp_bind]
      refine wp_failOp (wp_transition_nested ?_ fun φ _ => left (.inr (by simp [telling])))
      have h := left (e := .nestedTransaction) (m := []) (.inl rfl)
      rwa [List.append_nil] at h

theorem tracked_of_at {t : WorldState} {sessionId : String} (at' : db.At worldId t)
    (session : HasOpenSession db worldId sessionId) (off : t ≠ .off) (error : t ≠ .error) :
    Tracked db worldId sessionId := by
  obtain ⟨w, hw, rfl, -⟩ := at'.row
  exact ⟨session, w, hw, off, error⟩

theorem not_tracked_of_error {sessionId : String} (at' : db.At worldId .error) :
    ¬Tracked db worldId sessionId := by
  obtain ⟨w, hw, hstate, -⟩ := at'.row
  rintro ⟨-, w', hw', -, herror⟩
  rw [hw] at hw'
  cases hw'
  exact herror hstate

theorem hasOpenSession_congr {d : Database} {sessionId : String} (h : HasOpenSession db worldId sessionId)
    (sessions : d.sessions = db.sessions) : HasOpenSession d worldId sessionId := by
  rwa [HasOpenSession, sessions]

/-- A start that fails while its process is starting: the recovery leaves the process tracked
only where the recovery fails itself. -/
theorem caught_starting {l : Launched worldId} {e : Exn}
    (fresh : ∀ x q a, E.draws x q a → FreshDraw x q a) (stage : Stage ids opId .running db)
    (queueable : Queueable before worldId) (hlog : told log = l.notes ++ [.committed .openSession])
    (other : e.isWorldLifecycle = false) (session : HasOpenSession db worldId l.sessionId)
    (at' : db.At worldId .starting) :
    Caught E svc before worldId ids opId (.error e) ⟨.closed db, log⟩ := by
  have told' : ∀ m : Log, told (log ++ m) = l.notes ++ ([.committed .openSession] ++ told m) := by
    intro m
    rw [told_append, hlog, List.append_assoc]
  refine wp_launchFailed_live fresh stage rfl other ?_ ?_ ?_
  · intro d hstage worlds sessions
    have hsession := hasOpenSession_congr session sessions
    refine wp_enter (at'.congr worlds) (by decide) (by decide) (by decide) ?_ ?_
    · intro pre now hat
      rw [List.append_assoc]
      refine left_launched (hstage.withState worldId _ pre now) queueable (told' _) ?_ (.inr ?_) ?_
      · simp [telling, spawned]
      · simp [telling, failed, committed, OperationStatus.terminal]
      · refine iff_of_false (not_tracked_of_error hat) ?_
        simp [startTracks_iff, telling, failed, committed]
    · intro φ _
      rw [List.append_assoc]
      refine left_launched hstage queueable (told' _) ?_ (.inr ?_) ?_
      · simp [telling, spawned]
      · simp [telling, failed, committed, OperationStatus.terminal]
      · refine iff_of_true (tracked_of_at (at'.congr worlds) hsession (by decide) (by decide)) ?_
        simp [startTracks_iff, telling, failed, committed]
  · rintro e d hstage worlds sessions ⟨φ, hφ⟩
    rw [List.append_assoc]
    refine left_launched hstage queueable (told' _) ?_ (.inl (.inr ⟨φ, hφ⟩)) ?_
    · simp [telling, spawned]
    · refine iff_of_true (tracked_of_at (at'.congr worlds) (hasOpenSession_congr session sessions)
        (by decide) (by decide)) ?_
      simp [startTracks_iff, telling, failed, committed]
  · rintro e ⟨φ, hφ⟩
    refine left_launched stage queueable (told' _) ?_ (.inl (.inl ⟨_, φ, hφ⟩)) ?_
    · simp [telling, spawned]
    · refine iff_of_true (tracked_of_at at' session (by decide) (by decide)) ?_
      simp [startTracks_iff, telling, failed, committed]

/-- A start that times out: the session is closed and the world marked as failed, with the
process left to the host. -/
theorem caught_timeout {l : Launched worldId} {text : String}
    (fresh : ∀ x q a, E.draws x q a → FreshDraw x q a) (stage : Stage ids opId .running db)
    (queueable : Queueable before worldId) (hlog : told log = l.notes ++ [.committed .openSession])
    (session : HasOpenSession db worldId l.sessionId) (at' : db.At worldId .starting) :
    Caught E svc before worldId ids opId (.error (.startTimeout text)) ⟨.closed db, log⟩ := by
  have told' : ∀ m : Log, told (log ++ m) = l.notes ++ ([.committed .openSession] ++ told m) := by
    intro m
    rw [told_append, hlog, List.append_assoc]
  have lost : ∀ {d : Database} {e : Exn} {m : Log} {status : OperationStatus},
      Stage ids opId status d → ¬HasOpenSession d worldId l.sessionId →
      (told m = [.committed .closeSession] ∧ (status = .timedOut ∨ Unrecorded E) ∨
        told m = [.committed .closeSession, .failed .publishRead] ∧ Unrecorded E ∨
        told m = [.committed .closeSession, .failed (.setWorldState .error)] ∧ status = .running) →
      StartLeft E before worldId ids opId (.error e) ⟨.closed d, log ++ m⟩ := by
    intro d e m status hstage absent cause
    refine left_launched hstage queueable (told' _) ?_ ?_ ?_
    · rcases cause with ⟨hm, -⟩ | ⟨hm, -⟩ | ⟨hm, -⟩ <;> simp [hm, spawned]
    · rcases cause with ⟨hm, rfl | h⟩ | ⟨hm, h⟩ | ⟨hm, rfl⟩
      · exact .inr (by simp [hm, failed, committed, OperationStatus.terminal])
      · exact .inl h
      · exact .inl h
      · exact .inr (by simp [hm, failed, committed, OperationStatus.terminal])
    · refine iff_of_false (fun h => absent h.session) ?_
      rcases cause with ⟨hm, -⟩ | ⟨hm, -⟩ | ⟨hm, -⟩ <;>
        simp [startTracks_iff, hm, failed, committed]
  change wp E _ (launchFailed svc worldId opId (.startTimeout text)) _
  simp only [launchFailed, Program.bind_eq]
  rw [wp_bind]
  refine wp_closeSession ?_ ?_
  · intro now
    have absent := not_hasOpenSession_closed db worldId l.sessionId now .crashed
    have hstage : Stage ids opId .running (withSessionsClosed db worldId now .crashed) :=
      stage.congr rfl fun _ => rfl
    have hat : (withSessionsClosed db worldId now .crashed).At worldId .starting := at'.congr rfl
    dsimp only
    rw [wp_bind]
    refine wp_enter hat (by decide) (by decide) (by decide) ?_ ?_
    · intro pre now' _
      dsimp only
      rw [wp_bind]
      refine wp_milestone fresh (hstage.withState worldId _ pre now') rfl (.inr rfl) ?_ ?_
      · intro op d hstage' _ sessions _
        have absent' : ¬HasOpenSession d worldId l.sessionId := by
          rw [HasOpenSession, sessions]
          exact absent
        refine ⟨?_, fun φ hφ => ?_⟩
        · simp only [List.append_assoc]
          exact lost hstage' absent' (.inl ⟨by simp [telling], .inl rfl⟩)
        · simp only [List.append_assoc]
          exact lost hstage' absent' (.inr (.inl ⟨by simp [telling], .inr ⟨φ, hφ⟩⟩))
      · intro φ hφ
        simp only [List.append_assoc]
        exact lost (hstage.withState worldId _ pre now') absent
          (.inl ⟨by simp [telling], .inr (.inl ⟨_, φ, hφ⟩)⟩)
    · intro φ _
      simp only [List.append_assoc]
      exact lost hstage absent (.inr (.inr ⟨by simp [telling], rfl⟩))
  · intro φ v _
    refine left_launched stage queueable (told' _) ?_ (.inr ?_) ?_
    · simp [telling, spawned]
    · simp [telling, failed, OperationStatus.terminal]
    · refine iff_of_true (tracked_of_at at' session (by decide) (by decide)) ?_
      simp [startTracks_iff, telling, failed, committed]

/-- Once the world is marked as running a start can only fail to record its end. -/
theorem caught_running {l : Launched worldId} {e : Exn} (extra : Log)
    (fresh : ∀ x q a, E.draws x q a → FreshDraw x q a) (stage : Stage ids opId s db)
    (queueable : Queueable before worldId)
    (hlog : told log =
      l.notes ++ ([.committed .openSession, .committed (.setWorldState .running)] ++ extra))
    (alone : ∀ handle sessionId, spawned extra handle sessionId = false) (other : e.isWorldLifecycle = false) (session : HasOpenSession db worldId l.sessionId)
    (at' : db.At worldId .running) (unrecorded : Unrecorded E) :
    Caught E svc before worldId ids opId (.error e) ⟨.closed db, log⟩ := by
  have kept : ∀ {d : Database} {e : Exn} {m : Log} {status : OperationStatus},
      Stage ids opId status d → d.worlds = db.worlds → d.sessions = db.sessions →
      (∀ handle sessionId, spawned (told m) handle sessionId = false) →
      StartLeft E before worldId ids opId (.error e) ⟨.closed d, log ++ m⟩ := by
    intro d e m status hstage worlds sessions hm
    have hrest : told (log ++ m) = l.notes ++
        ([.committed .openSession, .committed (.setWorldState .running)] ++ extra ++ told m) := by
      rw [told_append, hlog, List.append_assoc]
    refine left_launched hstage queueable hrest ?_ (.inl unrecorded) ?_
    · intro handle sessionId
      have hextra := alone handle sessionId
      have hm := hm handle sessionId
      simp only [spawned] at hextra hm
      simp [spawned, hextra, hm]
    · refine iff_of_true (tracked_of_at (at'.congr worlds) (hasOpenSession_congr session sessions)
        (by decide) (by decide)) ⟨?_, .inl ?_⟩
      · simp [committed]
      · simp [committed]
  by_cases ended : s.terminal = true
  · refine wp_launchFailed_over (stage.over ended) (fun text h => ?_) ?_
    · rw [h] at other
      cases other
    · intro e m _ hm
      refine kept stage rfl rfl ?_
      rcases hm with hm | hm <;> simp [hm, spawned]
  · refine wp_launchFailed_live fresh stage (by simpa using ended) other ?_ ?_ ?_
    · intro d hstage worlds sessions
      have refused : ∀ now, ∃ text, (setWorldStateBlock worldId .error .ordinary now).eval d =
          .error (.worldConflict text) :=
        setWorldStateBlock_refused (at'.congr worlds) (by decide)
      refine wp_setWorldState ?_ ?_ ?_
      · intro now d' h
        obtain ⟨text, h'⟩ := refused now
        rw [h] at h'
        cases h'
      · intro now e _
        exact kept hstage worlds sessions (by simp [telling, spawned])
      · intro φ _
        rw [List.append_assoc]
        exact kept hstage worlds sessions (by simp [telling, spawned])
    · intro e d hstage worlds sessions _
      rw [List.append_assoc]
      exact kept hstage worlds sessions (by simp [telling, spawned])
    · intro e _
      exact kept stage rfl rfl (by simp [telling, spawned])

/-- A start from its spawned process on. -/
theorem wp_supervise {l : Launched worldId} {w : World} {context : LaunchContext}
    {argv : List String} {password : String} (fresh : ∀ x q a, E.draws x q a → FreshDraw x q a)
    (stage : Stage ids opId .running db) (queueable : Queueable before worldId)
    (hlog : told log = l.notes) (hw : w.worldId = worldId)
    (absent : ¬HasOpenSession db worldId l.sessionId) (at' : db.At worldId .starting) :
    wp E (Caught E svc before worldId ids opId)
      (supervise svc worldId opId w context argv password l.sessionId l.handle)
      ⟨.closed db, log⟩ := by
  unfold supervise
  simp only [Program.bind_eq, Program.pure_eq]
  rw [wp_bind]
  refine wp_openSession ?_ ?_ ?_
  · intro p φ
    refine caught_unstored (l := l) fresh stage queueable (k := [_]) ?_ rfl absent
      (.inl ⟨rfl, p, φ, rfl⟩)
    simp [hlog, telling]
  · intro e d v m ops worlds sessions other hm
    refine caught_unstored (l := l) (k := []) fresh (stage.congr ops fun id => ?_) queueable ?_
      other ?_ (.inr ⟨rfl, rfl⟩)
    · rw [Database.hasWorld, Database.hasWorld, worlds]
    · simp [hlog, hm]
    · rwa [HasOpenSession, sessions]
  · intro d m ops worlds session hm
    have stage : Stage ids opId .running d := stage.congr ops fun id => by
      rw [Database.hasWorld, Database.hasWorld, worlds]
    have at' : d.At worldId .starting := at'.congr worlds
    rw [hw] at session
    have opened : told (log ++ m ++ [.committed .openSession]) =
        l.notes ++ [.committed .openSession] := by
      simp [hlog, hm, telling]
    have caught : ∀ {k : Log} {e : Exn}, told k = [] → Waited e →
        Caught E svc before worldId ids opId (.error e)
          ⟨.closed d, log ++ m ++ [.committed .openSession] ++ k⟩ := by
      intro k e hk he
      have hlog' : told (log ++ m ++ [.committed .openSession] ++ k) =
          l.notes ++ [.committed .openSession] := by
        rw [told_append, hk, List.append_nil, opened]
      rcases he with ⟨φ, rfl⟩ | ⟨text, rfl⟩
      · exact caught_starting fresh stage queueable hlog' rfl session at'
      · exact caught_timeout fresh stage queueable hlog' session at'
    have await : ∀ k : Log, told k = [] → wp E (Caught E svc before worldId ids opId)
        ((awaitReadiness w l.handle context.rconPort password).bind fun readiness =>
          (setWorldState worldId .running).bind fun _ =>
            (Operations.transition svc.operations opId .completed {
              checkpoint := some {
                stage := "running", readiness := some readiness, sessionId := some l.sessionId }
              data := some { sessionId := some l.sessionId } }).bind fun _ => .ret l.sessionId)
        ⟨.closed d, log ++ m ++ [.committed .openSession] ++ k⟩ := by
      intro k hk
      rw [wp_bind]
      refine wp_observes (looks_awaitReadiness d w l.handle context.rconPort password) ?_
      intro r j hr hj
      have hj := told_observed hj
      cases r with
      | error e =>
        have h := caught (k := k ++ j) (by simp [hk, hj]) (hr e rfl)
        rwa [← List.append_assoc] at h
      | ok readiness =>
        dsimp only
        rw [wp_bind]
        refine wp_enter at' (by decide) (by decide) (by decide) ?_ ?_
        · intro pre now hat
          have hrunning : told (log ++ m ++ [.committed .openSession] ++ k ++ j ++
              [.committed (.setWorldState .running)]) =
              l.notes ++ [.committed .openSession, .committed (.setWorldState .running)] := by
            simp [hlog, hm, hk, hj, telling]
          dsimp only
          rw [wp_bind]
          refine wp_milestone fresh (stage.withState worldId _ pre now) rfl (.inr rfl) ?_ ?_
          · intro op d' hstage worlds' sessions' _
            refine ⟨?_, fun φ hφ => ?_⟩
            · refine left_launched (l := l) (k := [.committed .openSession,
                .committed (.setWorldState .running)]) hstage queueable ?_ ?_ (.inr ?_) ?_
              · rw [told_append, hrunning]
                simp [telling]
              · simp [spawned]
              · simp [failed, committed, OperationStatus.terminal]
              · refine iff_of_true (tracked_of_at (hat.congr worlds')
                  (hasOpenSession_congr (hasOpenSession_congr session rfl) sessions')
                  (by decide) (by decide)) ?_
                simp [startTracks_iff, committed]
            · refine caught_running (l := l) [.failed .publishRead] fresh hstage queueable ?_ ?_ rfl
                (hasOpenSession_congr (hasOpenSession_congr session rfl) sessions')
                (hat.congr worlds') (.inr ⟨φ, hφ⟩)
              · rw [told_append, told_append, hrunning]
                simp [telling]
              · simp [spawned]
          · intro φ hφ
            refine caught_running (l := l) [] fresh (stage.withState worldId _ pre now) queueable ?_ ?_
              rfl (hasOpenSession_congr session rfl) hat (.inl ⟨_, φ, hφ⟩)
            · rw [told_append, hrunning]
              simp [telling]
            · simp [spawned]
        · intro φ _
          rw [List.append_assoc, List.append_assoc]
          exact caught (by simp [hk, hj, telling]) (.inl ⟨φ, rfl⟩)
    dsimp only
    split
    · rw [wp_bind]
      refine wp_ask ?_ ?_
      · intro a _
        exact await _ (by simp [telling])
      · intro φ _
        exact caught (by simp [telling]) (.inl ⟨φ, rfl⟩)
    · have h := await [] rfl
      rwa [List.append_nil] at h

theorem idle_of_told (h : told log = []) : Idle before worldId log := by
  have hfailed : ∀ t, telling (.failed t) = true → failed log t = false := by
    intro t ht
    rw [← failed_told ht, h]
    rfl
  have hcommitted : ∀ t, telling (.committed t) = true → committed log t = false := by
    intro t ht
    rw [← committed_told ht, h]
    rfl
  refine ⟨fun hc => ?_, fun handle sessionId => ?_, hfailed _ rfl, hcommitted _ rfl⟩
  · rw [← commanded_told, h] at hc
    cases hc
  · rw [← spawned_told, h]
    rfl

/-- The log of a start that has its command line. -/
theorem idle_of_commanded {w : World} {context : LaunchContext} {argv : List String}
    (h : told log = [.answered (.launchCommand w context) (.ok argv)])
    (queueable : Queueable before worldId) : Idle before worldId log := by
  refine ⟨fun _ => .inl queueable, fun handle sessionId => ?_, ?_, ?_⟩
  · rw [← spawned_told, h]
    rfl
  · rw [← failed_told rfl, h]
    rfl
  · rw [← committed_told rfl, h]
    rfl

theorem Queueable.congr {d : Database} (h : Queueable db worldId) (worlds : d.worlds = db.worlds) :
    Queueable d worldId := fun s hs => h s (hs.congr worlds.symm)

/-- The launch gate passes, or the start ends. -/
theorem wp_launchGate {w : World} {context : LaunchContext} {Q : Except Exn Unit → Session → Prop}
    (fresh : ∀ x q a, E.draws x q a → FreshDraw x q a) (stage : Stage ids opId s db)
    (hopen : s.terminal = false) (hlog : told log = [])
    (passed : ∀ l, told l = [] → Q (.ok ()) ⟨.closed db, log ++ l⟩)
    (raised : ∀ e y, Caught E svc before worldId ids opId (.error e) y → Q (.error e) y) :
    wp E Q (launchGate svc worldId opId w context) ⟨.closed db, log⟩ := by
  unfold launchGate
  simp only [Program.bind_eq]
  rw [wp_bind]
  refine wp_observes (looks_validateLaunch db w context) ?_
  intro r l hr hl
  have hl := told_observed hl
  have idle : Idle before worldId (log ++ l) := idle_of_told (by simp [hlog, hl])
  cases r with
  | error e =>
    obtain ⟨φ, rfl⟩ := hr e rfl
    exact raised _ _ (caught_open fresh stage hopen idle rfl)
  | ok gate =>
    dsimp only
    split
    · exact passed l hl
    · refine wp_refuse fresh stage hopen idle ?_ raised _ _ ?_
      · intro text h
        cases h
      · split <;> decide

/-- A start from its command line on. -/
theorem wp_commanded {w w' : World} {context context' : LaunchContext} {argv : List String}
    {password sessionId : String} (fresh : ∀ x q a, E.draws x q a → FreshDraw x q a)
    (stage : Stage ids opId .running db) (worlds : db.worlds = before.worlds)
    (hlog : told log = [.answered (.launchCommand w' context') (.ok argv)])
    (absent : ¬HasOpenSession db worldId sessionId) (hid : w.worldId = worldId)
    (hw : db.world? worldId = some w) :
    wp E (Caught E svc before worldId ids opId)
      ((setWorldState worldId .queued).bind fun _ => (setWorldState worldId .starting).bind fun _ =>
        (ask (.spawn worldId argv context.worldDir sessionId)).bind fun result =>
          match result.handle with
          | none => (failOp svc opId "SPAWN_FAILED" result.spawnError).bind fun _ =>
              (setWorldState worldId .error).bind fun _ =>
                throw (.spawnFailed ((result.spawnError.filter (· ≠ "")).getD "spawn failed"))
          | some handle => supervise svc worldId opId w context argv password sessionId handle)
      ⟨.closed db, log⟩ := by
  rw [wp_bind]
  refine wp_setWorldState ?_ ?_ ?_
  · intro now d h
    have hat := setWorldStateBlock_at h
    obtain ⟨row, pre, hrow, valid, edge, -, -, rfl⟩ := setWorldStateBlock_ok h
    have queueable : Queueable before worldId := by
      refine @Queueable.congr _ db _ ?_ worlds.symm
      rintro s ⟨row', hrow', rfl, -⟩
      rw [hrow] at hrow'
      cases hrow'
      cases hs : row.state <;> rw [hs] at edge <;>
        first | exact .inl rfl | exact .inr rfl | exact absurd edge (by decide)
    have hstage := stage.withState worldId .queued pre now
    have idle : ∀ {l : Log}, (∀ n ∈ l, inert n = true) → Idle before worldId (log ++ l) :=
      fun hl => (idle_of_commanded hlog queueable).append hl
    dsimp only
    rw [wp_bind]
    refine wp_enter hat (by decide) (by decide) (by decide) ?_ ?_
    · intro pre' now' hat'
      have hstage' := hstage.withState worldId .starting pre' now'
      dsimp only
      rw [wp_bind]
      refine wp_ask ?_ ?_
      · intro result _
        dsimp only
        split
        · rename_i hnone
          refine wp_refuse fresh hstage' rfl ?_ ?_ (fun e y h => h) _ _ (by decide)
          · refine ⟨fun _ => .inl queueable, fun handle sid => ?_, ?_, ?_⟩
            · rw [← spawned_told]
              simp [hlog, telling, spawned, hnone]
            · rw [← failed_told rfl]
              simp [hlog, telling, failed]
            · rw [← committed_told rfl]
              simp [hlog, telling, committed]
          · intro text h
            cases h
        · rename_i handle hsome
          refine wp_supervise (l := ⟨w', context', argv, context.worldDir, sessionId, handle,
            result.spawnError⟩) fresh hstage' queueable ?_ hid absent hat'
          have hresult : result = ⟨some handle, result.spawnError⟩ := by
            rw [← hsome]
          simp only [told_append, told_cons, told_nil, hlog, telling, Launched.notes]
          rw [hresult]
          rfl
      · intro φ _
        simp only [List.append_assoc]
        exact caught_open fresh hstage' rfl (idle (by simp [inert])) rfl
    · intro φ _
      simp only [List.append_assoc]
      exact caught_open fresh hstage rfl (idle (by simp [inert])) rfl
  · intro now e h
    by_cases queueable : Queueable before worldId
    · -- Then the row is not valid, and that is not an exception of the lifecycle.
      have invalid : validateWorldInstance worldId w.state w.preBackupState none ≠ none := by
        intro valid
        have hat : db.At worldId w.state := ⟨w, hw, rfl, valid⟩
        have edge : Edge w.state .queued .ordinary ∧ w.state ≠ .backingUp := by
          rcases queueable.congr worlds w.state hat with hs | hs <;> rw [hs] <;> decide
        obtain ⟨d, h'⟩ := setWorldStateBlock_edge hat edge.2 (by decide) edge.1 now
        rw [h] at h'
        cases h'
      obtain ⟨text, h'⟩ := setWorldStateBlock_invalid hw invalid .queued .ordinary now
      rw [h] at h'
      cases h'
      exact caught_open fresh stage rfl (idle_of_commanded hlog queueable) rfl
    · -- The refusal is raised again as it is, and the operation stays open.
      obtain ⟨s, hat, hs⟩ : ∃ s, before.At worldId s ∧ ¬(s = .off ∨ s = .queued) := by
        simpa [Queueable] using queueable
      have refused : ¬Edge s .queued .ordinary := by
        cases s <;> first | decide | simp at hs
      obtain ⟨text, h'⟩ := setWorldStateBlock_refused (hat.congr worlds) refused now
      rw [h] at h'
      cases h'
      refine ⟨⟨.running, stage, fun _ _ => iff_of_false (fun h => by cases h.1) ?_⟩, ?_⟩
      · rw [← startReleases_told, hlog]
        intro h
        rcases h.queueable rfl with h | h
        · exact queueable h
        · cases h
      · intro handle sid hsid
        rw [← spawned_told, hlog] at hsid
        cases hsid
  · intro φ _
    refine caught_open fresh stage rfl ⟨fun _ => .inr ?_, fun handle sid => ?_, ?_, ?_⟩ rfl
    · rw [← failed_told rfl]
      simp [hlog, telling, failed]
    · rw [← spawned_told]
      simp [hlog, telling, spawned]
    · rw [← failed_told rfl]
      simp [hlog, telling, failed]
    · rw [← committed_told rfl]
      simp [hlog, telling, committed]

/-- A start from the moment it has an open operation on. -/
theorem wp_launch {w : World} (fresh : ∀ x q a, E.draws x q a → FreshDraw x q a)
    (stage : Stage ids opId s db) (hopen : s.terminal = false) (hlog : told log = [])
    (worlds : db.worlds = before.worlds) (hw : db.world? worldId = some w) (java : HasJava db w) :
    wp E (StartLeft E before worldId ids opId)
      ((launch svc worldId opId).handle (launchFailed svc worldId opId)) ⟨.closed db, log⟩ := by
  have hid : w.worldId = worldId := by simpa using List.find?_some hw
  have caught : ∀ {d : Database} {l : Log} {φ : Fault}, Stage ids opId .running d → told l = [] →
      Caught E svc before worldId ids opId (.error (.external φ)) ⟨.closed d, log ++ l⟩ := by
    intro d l φ hstage hl
    exact caught_open fresh hstage rfl (idle_of_told (by simp [hlog, hl])) rfl
  suffices h : wp E (Caught E svc before worldId ids opId) (launch svc worldId opId)
      ⟨.closed db, log⟩ from
    wp_guard h (fun a y ha => ha) fun e y he => he
  unfold launch
  simp only [Program.bind_eq]
  rw [wp_bind]
  refine wp_milestone fresh stage hopen (.inl rfl) ?_ fun φ _ => ?_
  rotate_left
  · exact caught_open fresh stage hopen (idle_of_told (by simp [hlog, telling])) rfl
  intro op d hstage hworlds hsessions hruntimes
  refine ⟨?_, fun φ _ => ?_⟩
  rotate_left
  · rw [List.append_assoc]
    exact caught_open fresh hstage rfl ((idle_of_told hlog).append (by simp [inert])) rfl
  have hwd : d.world? worldId = some w := by rwa [Database.world?, hworlds]
  have hjava : HasJava d w := by rwa [HasJava, hruntimes]
  dsimp only
  rw [wp_bind]
  refine wp_observes (observes_world hwd) ?_
  intro r l₁ hr hl₁
  have hl₁ := told_observed hl₁
  rw [List.append_assoc]
  obtain rfl | ⟨φ, rfl⟩ := hr
  rotate_left
  · exact caught hstage (by simp [hl₁, telling])
  dsimp only
  split
  · rw [wp_bind]
    refine wp_milestone fresh hstage rfl (.inr rfl) ?_ fun φ _ => ?_
    · intro op d' hstage' _ _ _
      have idle : ∀ {l : Log}, (∀ n ∈ l, inert n = true) → Idle before worldId
          (log ++ ([.committed (.transition .running)] ++ l₁) ++ l) := fun hl =>
        (idle_of_told (by simp [hlog, hl₁, telling])).append hl
      refine ⟨?_, fun φ _ => ?_⟩
      · exact caught_ended hstage' rfl (by decide) (idle (by simp [inert])) fun _ h => by cases h
      · rw [List.append_assoc]
        exact caught_ended hstage' rfl (by decide) (idle (by simp [inert])) fun _ h => by cases h
    · rw [List.append_assoc]
      exact caught hstage (by simp [hl₁, telling])
  rw [wp_bind]
  refine wp_observes (observes_launchContext d w) ?_
  rintro r l₂ ⟨-, hr⟩ hl₂
  have hl₂ := told_observed hl₂
  rw [List.append_assoc]
  cases r with
  | error e =>
    obtain ⟨φ, rfl⟩ := hr e rfl hjava
    exact caught hstage (by simp [hl₁, hl₂, telling])
  | ok context =>
  dsimp only
  rw [wp_bind]
  refine wp_launchGate fresh hstage rfl (by simp [hlog, hl₁, hl₂, telling]) ?_ fun e y h => h
  intro l₃ hl₃
  rw [List.append_assoc]
  dsimp only
  rw [wp_bind]
  refine wp_ask ?_ fun φ _ => ?_
  rotate_left
  · dsimp only
    rw [List.append_assoc]
    exact caught hstage (by simp [hl₁, hl₂, hl₃, telling])
  intro password _
  dsimp only
  rw [wp_bind]
  refine wp_ask ?_ fun φ _ => ?_
  rotate_left
  · simp only [List.append_assoc]
    exact caught hstage (by simp [hl₁, hl₂, hl₃, telling])
  intro argv _
  have hcommand : told (log ++ ([.committed (.transition .running)] ++ l₁ ++ l₂ ++ l₃) ++
      [.answered (.provisionRcon context) (.ok password)] ++
      [.answered (.launchCommand w context) (.ok argv)]) =
      [.answered (.launchCommand w context) (.ok argv)] := by
    simp [hlog, hl₁, hl₂, hl₃, telling]
  dsimp only
  refine wp_draw_bind fun sessionId hsessionId => ?_
  have unused := (fresh _ _ _ hsessionId).2
  simp only [Connection.view_closed, Database.unused, Bool.and_eq_true, Bool.not_eq_true']
    at unused
  have absent : ¬HasOpenSession d worldId sessionId := by
    rintro ⟨session, hmem, hsid, -⟩
    have hno := List.any_eq_false.mp unused.2 session hmem
    simp [hsid] at hno
  exact wp_commanded fresh hstage (hworlds.trans worlds) hcommand absent hid hwd

/-- A start in the name of an operation that cannot be advanced spawns nothing. -/
theorem wp_launch_over (isOver : Over db opId) {Q : Except Exn String → Session → Prop}
    (left : ∀ e l, (∀ n ∈ l, inert n = true) → Q (.error e) ⟨.closed db, log ++ l⟩) :
    wp E Q ((launch svc worldId opId).handle (launchFailed svc worldId opId)) ⟨.closed db, log⟩ := by
  have caught : ∀ {e : Exn} {k : Log}, (∀ text, e ≠ .startTimeout text) →
      (∀ n ∈ k, inert n = true) →
      wp E Q (launchFailed svc worldId opId e) ⟨.closed db, log ++ k⟩ := by
    intro e k untimed hk
    refine wp_launchFailed_over isOver untimed ?_
    intro e l hl _
    rw [List.append_assoc]
    refine left e (k ++ l) fun n hn => ?_
    rcases List.mem_append.mp hn with hn | hn
    · exact hk n hn
    · exact hl n hn
  rw [wp_handle]
  unfold launch
  simp only [Program.bind_eq]
  rw [wp_bind]
  refine wp_transition_over isOver (fun text => ?_) fun φ _ => ?_
  · have h := caught (e := .operationState text) (k := []) (fun _ h => nomatch h) (by simp)
    rwa [List.append_nil] at h
  · exact caught (fun _ h => nomatch h) (by simp [inert])

end Recovery

end McManager.Worlds
