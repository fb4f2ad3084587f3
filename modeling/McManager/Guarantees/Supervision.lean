import McManager.Services.Environment
import McManager.Services.Supervisor
import McManager.Services.WorldEffects

namespace McManager

open Framework

/-- What one tick of the supervisor sees of the processes: the answers of the adapter when it is
asked for the process of a world, and for the state of a process. -/
structure Processes where
  probed : String → ProbeResult
  polled : ProcessHandle → PollResult

/-- The process of the world is there and runs. -/
def Processes.alive (p : Processes) (worldId : String) : Bool :=
  (p.probed worldId).found && (p.probed worldId).handle.any fun h => (p.polled h).alive

/-- The database answers, ids are fresh, and the adapter tells of the processes `p`. -/
def Scope.seeing (p : Processes) : Scope where
  fails _ _ := False
  answers _ q o := match q, o with
    | .probe worldId _ none, o => o = .ok (p.probed worldId)
    | .poll handle, o => o = .ok (p.polled handle)
    | _, _ => True
  draws := FreshDraw

/-- The constraints of the schema on worlds, sessions and operations. -/
structure Database.Constrained (db : Database) : Prop where
  keyed : db.Keyed
  worlds : (db.worlds.map (·.worldId)).Nodup
  sessions : ((db.sessions.filter (·.isOpen)).map (·.worldId)).Nodup

namespace Worlds

/-- The worlds of the sessions whose process is dead. -/
def deadWorlds (p : Processes) (sessions : List RuntimeSession) : List String :=
  (sessions.filter fun s => !p.alive s.worldId).map (·.worldId)

/-- The worlds `ids` have crashed and have no open session, and nothing else about worlds and
sessions is different from `before`. -/
structure Swept (before : Database) (ids : List String) (after : Database) : Prop where
  worldIds : after.worlds.map (·.worldId) = before.worlds.map (·.worldId)
  crashed : ∀ id ∈ ids, ∃ w, after.world? id = some w ∧ w.state = .crashed
  kept : ∀ id ∉ ids, after.world? id = before.world? id
  closed : ∀ id ∈ ids, after.sessionOpen id = false
  sessions : ∀ id ∉ ids, after.sessions.filter (·.worldId == id) =
    before.sessions.filter (·.worldId == id)

theorem sessionOpen_eq (db : Database) (worldId : String) :
    db.sessionOpen worldId =
      (db.sessions.filter (·.worldId == worldId)).any (·.isOpen) := by
  rw [Database.sessionOpen, List.any_filter]

theorem Swept.refl (db : Database) : Swept db [] db :=
  ⟨rfl, by simp, fun _ _ => rfl, by simp, fun _ _ => rfl⟩

theorem Swept.trans {a b c : Database} {ids ids' : List String} (h : Swept a ids b)
    (h' : Swept b ids' c) (disjoint : ∀ id ∈ ids, id ∉ ids') : Swept a (ids ++ ids') c := by
  refine ⟨h'.worldIds.trans h.worldIds, ?_, ?_, ?_, ?_⟩
  · intro id hid
    rcases List.mem_append.mp hid with hid | hid
    · rw [h'.kept id (disjoint id hid)]
      exact h.crashed id hid
    · exact h'.crashed id hid
  · intro id hid
    obtain ⟨hid, hid'⟩ := not_or.mp (mt List.mem_append.mpr hid)
    rw [h'.kept id hid', h.kept id hid]
  · intro id hid
    rcases List.mem_append.mp hid with hid | hid
    · have hclosed := h.closed id hid
      rw [sessionOpen_eq] at hclosed ⊢
      rw [h'.sessions id (disjoint id hid), hclosed]
    · exact h'.closed id hid
  · intro id hid
    obtain ⟨hid, hid'⟩ := not_or.mp (mt List.mem_append.mpr hid)
    rw [h'.sessions id hid', h.sessions id hid]

/-- A world whose sessions are closed and that has crashed is swept. -/
theorem swept_crashed {db db' : Database} {worldId : String} {pre : Option WorldState}
    {now now' : Int} {w : World} (hw : db.world? worldId = some w)
    (worlds : db'.worlds = (db.withState worldId .crashed pre now).worlds)
    (sessions : db'.sessions = (withSessionsClosed db worldId now' .crashed).sessions) :
    Swept db [worldId] db' := by
  refine ⟨?_, ?_, ?_, ?_, ?_⟩
  · rw [worlds, Database.withState, updateWhere_map (f := World.enter .crashed pre now) fun _ => rfl]
  · intro id hid
    rw [List.mem_singleton.mp hid, Database.world?, worlds]
    exact ⟨_, Database.withState_world? hw, rfl⟩
  · intro id hid
    have hne : id ≠ worldId := by simpa using hid
    simp only [Database.world?, worlds, Database.withState]
    rw [find?_updateWhere (f := World.enter .crashed pre now) fun _ => rfl]
    cases hfind : db.worlds.find? (·.worldId == id) with
    | none => rfl
    | some v =>
      have hv : v.worldId = id := by simpa using List.find?_some hfind
      simp [hv, hne]
  · intro id hid
    rw [List.mem_singleton.mp hid, Database.sessionOpen, sessions, List.any_eq_false]
    intro s hs
    obtain ⟨old, -, ⟨-, rfl⟩ | ⟨hp, rfl⟩⟩ := mem_updateWhere.mp hs
    · simp [RuntimeSession.isOpen]
    · simp [hp]
  · intro id hid
    have hne : id ≠ worldId := by simpa using hid
    rw [sessions, withSessionsClosed]
    refine filter_updateWhere (fun _ => rfl) ?_
    intro s hs
    have hs : s.worldId = id := by simpa using hs
    simp [hs, hne]

section Rules

variable {E : Scope} {svc : WorldsService} {db : Database} {log : Log} {worldId : String}

/-- A crash of a world that is there goes on record. -/
theorem wp_recordCrash {Q : Except Exn Unit → Session → Prop}
    (fresh : ∀ x q a, E.draws x q a → FreshDraw x q a) (sound : ∀ t φ, ¬E.fails t φ)
    (keyed : db.Keyed) (hworld : db.hasWorld worldId = true)
    (done : ∀ db' log', db'.Keyed → db'.worlds = db.worlds → db'.sessions = db.sessions →
      Q (.ok ()) ⟨.closed db', log'⟩) :
    wp E Q (recordCrash svc worldId) ⟨.closed db, log⟩ := by
  unfold recordCrash
  simp only [Program.bind_eq]
  refine wp_draw_bind fun now _ => ?_
  rw [wp_bind]
  refine Operations.wp_create ?_ ?_ (fun φ h => (sound _ _ h).elim)
  · intro opId auditIds now op cancelled replayed db₁ hopId h
    refine ⟨?_, fun φ h => (sound _ _ h).elim⟩
    obtain ⟨-, hrepeat, -⟩ | ⟨-, hid, -, hopen, stage, worlds, sessions, -⟩ :=
      Operations.createBlock_stage keyed (fresh _ _ _ hopId).1 rfl h
    · simp [Operations.repeatOf] at hrepeat
    subst hid
    have hopen := hopen rfl
    dsimp only
    rw [wp_bind]
    refine Operations.wp_milestone fresh stage hopen (.inl rfl) ?_ (fun φ h => (sound _ _ h).elim)
    intro op₁ db₂ stage₂ worlds₂ sessions₂ _
    refine ⟨?_, fun φ h => (sound _ _ h).elim⟩
    dsimp only
    rw [wp_bind]
    refine Operations.wp_milestone fresh stage₂ rfl (.inr rfl) ?_ (fun φ h => (sound _ _ h).elim)
    intro op₂ db₃ stage₃ worlds₃ sessions₃ _
    exact ⟨done db₃ _ stage₃.keyed ((worlds₃.trans worlds₂).trans worlds)
      ((sessions₃.trans sessions₂).trans sessions), fun φ h => (sound _ _ h).elim⟩
  · intro opId auditIds createdAt e hopId h
    have unused := (fresh _ _ _ hopId).2
    simp only [Connection.view_closed, Database.unused, Bool.and_eq_true, Bool.not_eq_true'] at unused
    obtain ⟨r, hr⟩ := @Operations.createBlock_unchecked_total _ {
      opType := .crashDetected, actorType := .system, worldId := some worldId,
      data := some { detectedAt := some now } } rfl _ unused.1.1.1.1 hworld rfl rfl .queued auditIds
      createdAt
    rw [hr] at h
    cases h

variable {p : Processes}

theorem wp_processAlive {Q : Except Exn Bool → Session → Prop} {conn : Connection Database}
    (done : ∀ log', Q (.ok (p.alive worldId)) ⟨conn, log'⟩) :
    wp (Scope.seeing p) Q (processAlive worldId) ⟨conn, log⟩ := by
  unfold processAlive resolveHandle
  simp only [Program.bind_eq]
  rw [wp_bind, wp_bind]
  refine wp_ask ?_ (fun φ h => by cases h)
  intro probe hprobe
  cases hprobe
  have alive : p.alive worldId = ((p.probed worldId).found &&
      (p.probed worldId).handle.any fun h => (p.polled h).alive) := rfl
  simp only [Program.pure_eq, wp_ret]
  by_cases hfound : (p.probed worldId).found = true
  · rw [hfound, Bool.true_and] at alive
    rw [if_pos hfound]
    cases hhandle : (p.probed worldId).handle with
    | none =>
      have h := done (log ++ [.answered (.probe worldId "" none) (.ok (p.probed worldId))])
      rwa [alive, hhandle] at h
    | some handle =>
      dsimp only
      rw [wp_bind]
      refine wp_ask ?_ (fun φ h => by cases h)
      intro status hstatus
      cases hstatus
      have h := done (log ++ [.answered (.probe worldId "" none) (.ok (p.probed worldId))] ++
        [.answered (.poll handle) (.ok (p.polled handle))])
      rwa [alive, hhandle] at h
  · rw [Bool.not_eq_true] at hfound
    have h := done (log ++ [.answered (.probe worldId "" none) (.ok (p.probed worldId))])
    rw [alive, hfound] at h
    rw [hfound]
    exact h

/-- The world may be marked as crashed. -/
def MayCrash (db : Database) (worldId : String) : Prop :=
  db.At worldId .running ∨ db.At worldId .crashed

theorem mayCrash_iff {now : Int} : MayCrash db worldId ↔
    ∃ db', (setWorldStateBlock worldId .crashed .ordinary now).eval db = .ok ((), db') := by
  constructor
  · rintro (h | h)
    · exact setWorldStateBlock_edge h (by decide) (by decide) (by decide) now
    · exact setWorldStateBlock_edge h (by decide) (by decide) (by decide) now
  · rintro ⟨db', h⟩
    obtain ⟨w, pre, hw, valid, edge, -, -, -⟩ := setWorldStateBlock_ok h
    have from' : w.state = .running ∨ w.state = .crashed := by
      have allowed := edge.allowed
      cases hs : w.state <;> simp_all [allowedTransitions]
    exact from'.imp (fun hs => ⟨w, hw, hs, valid⟩) (fun hs => ⟨w, hw, hs, valid⟩)

theorem MayCrash.congr {db' : Database} (h : MayCrash db worldId)
    (same : db'.world? worldId = db.world? worldId) : MayCrash db' worldId := by
  refine h.imp ?_ ?_ <;>
  · rintro ⟨w, hw, hstate, valid⟩
    exact ⟨w, by rw [same, hw], hstate, valid⟩

/-- One round of the supervisor. -/
theorem wp_superviseSession {Q : Except Exn (List String) → Session → Prop}
    {session : RuntimeSession} (keyed : db.Keyed)
    (alive : p.alive session.worldId = true → ∀ log', Q (.ok []) ⟨.closed db, log'⟩)
    (dead : p.alive session.worldId = false → MayCrash db session.worldId → ∀ db' log', db'.Keyed →
      Swept db [session.worldId] db' → Q (.ok [session.worldId]) ⟨.closed db', log'⟩)
    (stuck : p.alive session.worldId = false → ¬MayCrash db session.worldId →
      ∀ e db' log', Q (.error e) ⟨.closed db', log'⟩) :
    wp (Scope.seeing p) Q (superviseSession svc session) ⟨.closed db, log⟩ := by
  unfold superviseSession
  simp only [Program.bind_eq]
  rw [wp_bind]
  refine wp_processAlive fun log' => ?_
  dsimp only
  cases hp : p.alive session.worldId with
  | true => exact alive hp log'
  | false =>
    simp only [Bool.false_eq_true, if_false]
    rw [wp_bind]
    refine wp_closeSession ?_ (fun φ w h => h.elim)
    intro closedAt
    dsimp only
    rw [wp_bind]
    have same : MayCrash (withSessionsClosed db session.worldId closedAt .crashed) session.worldId ↔
        MayCrash db session.worldId := ⟨fun h => h.congr rfl, fun h => h.congr rfl⟩
    refine wp_setWorldState ?_ ?_ (fun φ h => h.elim)
    · intro now db₁ h
      have may := same.mp (mayCrash_iff.mpr ⟨db₁, h⟩)
      obtain ⟨w, pre, hw, -, -, -, -, rfl⟩ := setWorldStateBlock_ok h
      have keyed₁ : (Database.withState (withSessionsClosed db session.worldId closedAt .crashed)
          session.worldId .crashed pre now).Keyed := by
        refine ⟨keyed.unique, keyed.named, ?_⟩
        intro op hop
        have hworlds : (Database.withState (withSessionsClosed db session.worldId closedAt .crashed)
            session.worldId .crashed pre now).hasWorld = db.hasWorld :=
          funext fun id => Database.withState_hasWorld _ _ _ _ _ id
        rw [hworlds]
        exact keyed.placed op hop
      have there : (Database.withState (withSessionsClosed db session.worldId closedAt .crashed)
          session.worldId .crashed pre now).hasWorld session.worldId = true := by
        rw [Database.withState_hasWorld]
        have hid : w.worldId = session.worldId := by simpa using List.find?_some hw
        exact List.any_eq_true.mpr ⟨w, List.mem_of_find?_eq_some hw, by simp [hid]⟩
      dsimp only
      rw [wp_bind]
      refine wp_recordCrash (fun _ _ _ h => h) (fun _ _ h => h) keyed₁ there ?_
      intro db₂ log₂ keyed₂ worlds sessions
      exact dead hp may db₂ log₂ keyed₂ (swept_crashed hw worlds sessions)
    · intro now e h
      refine stuck hp ?_ e _ _
      intro may
      obtain ⟨db', h'⟩ := mayCrash_iff.mp (same.mpr may)
      rw [h] at h'
      cases h'

/-- The loop of the supervisor goes through exactly when every world found dead may be marked as
crashed, and then it has swept these worlds and no other. -/
theorem wp_supervise_all {sessions : List RuntimeSession} (keyed : db.Keyed)
    (nodup : (sessions.map (·.worldId)).Nodup) :
    wp (Scope.seeing p) (fun r y =>
      (∃ db' log', y = ⟨.closed db', log'⟩ ∧ r = .ok (deadWorlds p sessions) ∧
        Swept db (deadWorlds p sessions) db' ∧ ∀ id ∈ deadWorlds p sessions, MayCrash db id) ∨
      (∃ e, r = .error e) ∧ ¬∀ id ∈ deadWorlds p sessions, MayCrash db id)
      (collect (superviseSession svc) sessions) ⟨.closed db, log⟩ := by
  induction sessions generalizing db log with
  | nil => exact .inl ⟨db, log, rfl, rfl, .refl db, by simp [deadWorlds]⟩
  | cons session rest ih =>
    obtain ⟨hnotin, nodup⟩ := List.nodup_cons.mp nodup
    unfold collect
    simp only [Program.bind_eq]
    rw [wp_bind]
    refine wp_superviseSession keyed ?_ ?_ ?_
    · intro halive log'
      have same : deadWorlds p (session :: rest) = deadWorlds p rest := by
        simp [deadWorlds, halive]
      dsimp only
      rw [wp_bind, same]
      refine wp_mono (ih keyed nodup) ?_
      rintro r y (⟨db', log', rfl, rfl, swept, may⟩ | ⟨⟨e, rfl⟩, stuck⟩)
      · exact .inl ⟨db', log', rfl, rfl, swept, may⟩
      · exact .inr ⟨⟨e, rfl⟩, stuck⟩
    · intro hdead may db₁ log₁ keyed₁ swept₁
      have same : deadWorlds p (session :: rest) = [session.worldId] ++ deadWorlds p rest := by
        simp [deadWorlds, hdead]
      have apart : ∀ id ∈ deadWorlds p rest, id ∉ [session.worldId] := by
        intro id hid
        obtain ⟨s, hs, rfl⟩ := List.mem_map.mp hid
        have hs := List.mem_of_mem_filter hs
        rw [List.mem_singleton]
        intro h
        exact hnotin (List.mem_map.mpr ⟨s, hs, h⟩)
      have later : (∀ id ∈ deadWorlds p (session :: rest), MayCrash db id) ↔
          ∀ id ∈ deadWorlds p rest, MayCrash db₁ id := by
        rw [same]
        constructor
        · intro h id hid
          exact (h id (List.mem_append_right _ hid)).congr (swept₁.kept id (apart id hid))
        · intro h id hid
          rcases List.mem_append.mp hid with hid | hid
          · rwa [List.mem_singleton.mp hid]
          · exact (h id hid).congr (swept₁.kept id (apart id hid)).symm
      dsimp only
      rw [wp_bind]
      refine wp_mono (ih keyed₁ nodup) ?_
      rintro r y (⟨db', log', rfl, rfl, swept, may'⟩ | ⟨⟨e, rfl⟩, stuck⟩)
      · refine .inl ⟨db', log', rfl, by rw [same], ?_, later.mpr may'⟩
        rw [same]
        refine swept₁.trans swept ?_
        intro id hid hid'
        exact apart id hid' hid
      · exact .inr ⟨⟨e, rfl⟩, fun h => stuck (later.mp h)⟩
    · intro hdead stuck e db' log'
      refine .inr ⟨⟨e, rfl⟩, fun h => stuck (h session.worldId ?_)⟩
      simp [deadWorlds, hdead]

end Rules

/-- What a tick of the supervisor has to come to: it returns the worlds it found dead, each of
them has lost its session and is neither running nor starting, the worlds that are alive are as
they were, and nothing runs without an open session. -/
structure Consistent (p : Processes) (before : Database) (r : Except Exn (List String))
    (after : Database) : Prop where
  returns : r = .ok (deadWorlds p (before.sessions.filter (·.isOpen)))
  closed : ∀ id ∈ deadWorlds p (before.sessions.filter (·.isOpen)), after.sessionOpen id = false
  left : ∀ id ∈ deadWorlds p (before.sessions.filter (·.isOpen)), ∀ w,
    after.world? id = some w → w.state ≠ .running ∧ w.state ≠ .starting
  unchanged : ∀ id, p.alive id = true → after.world? id = before.world? id ∧
    after.sessions.filter (·.worldId == id) = before.sessions.filter (·.worldId == id)
  supervised : ∀ w ∈ after.worlds, w.state = .running → after.sessionOpen w.worldId = true

theorem mem_deadWorlds {p : Processes} {db : Database} {id : String} :
    id ∈ deadWorlds p (db.sessions.filter (·.isOpen)) ↔
      db.sessionOpen id = true ∧ p.alive id = false := by
  simp only [deadWorlds, List.mem_map, List.mem_filter, Database.sessionOpen, List.any_eq_true,
    Bool.and_eq_true, beq_iff_eq, Bool.not_eq_true']
  constructor
  · rintro ⟨s, ⟨⟨hs, hopen⟩, hdead⟩, rfl⟩
    exact ⟨⟨s, hs, rfl, hopen⟩, hdead⟩
  · rintro ⟨⟨s, hs, rfl, hopen⟩, hdead⟩
    exact ⟨s, ⟨⟨hs, hopen⟩, hdead⟩, rfl⟩

private theorem world?_eq {db : Database} (nodup : (db.worlds.map (·.worldId)).Nodup) {w : World}
    (hw : w ∈ db.worlds) : db.world? w.worldId = some w := find?_key nodup hw

/-- A sweep keeps the worlds supervised exactly when they were. -/
theorem Swept.supervised_iff {p : Processes} {before after : Database}
    (constrained : before.Constrained)
    (swept : Swept before (deadWorlds p (before.sessions.filter (·.isOpen))) after) :
    (∀ w ∈ after.worlds, w.state = .running → after.sessionOpen w.worldId = true) ↔
      ∀ w ∈ before.worlds, w.state = .running → before.sessionOpen w.worldId = true := by
  have nodup : (after.worlds.map (·.worldId)).Nodup := by
    rw [swept.worldIds]
    exact constrained.worlds
  have sameSessions : ∀ id ∉ deadWorlds p (before.sessions.filter (·.isOpen)),
      after.sessionOpen id = before.sessionOpen id := by
    intro id hid
    rw [sessionOpen_eq, sessionOpen_eq, swept.sessions id hid]
  constructor
  · intro h w hw hrunning
    by_cases hdead : w.worldId ∈ deadWorlds p (before.sessions.filter (·.isOpen))
    · exact (mem_deadWorlds.mp hdead).1
    · have hafter : after.world? w.worldId = some w := by
        rw [swept.kept _ hdead, world?_eq constrained.worlds hw]
      have hopen := h w (List.mem_of_find?_eq_some hafter) hrunning
      rwa [sameSessions _ hdead] at hopen
  · intro h w hw hrunning
    have hafter := world?_eq nodup hw
    by_cases hdead : w.worldId ∈ deadWorlds p (before.sessions.filter (·.isOpen))
    · obtain ⟨v, hv, hcrashed⟩ := swept.crashed _ hdead
      rw [hafter] at hv
      cases hv
      simp [hrunning] at hcrashed
    · rw [swept.kept _ hdead] at hafter
      rw [sameSessions _ hdead]
      exact h w (List.mem_of_find?_eq_some hafter) hrunning

/-- A tick of the supervisor is total and consistent exactly when every world whose process is
found dead is running or crashed, and every running world has an open session. -/
theorem poll_running_consistent_iff (svc : WorldsService) (p : Processes) (env : Env)
    (db : Database) (log : Log) (constrained : db.Constrained)
    (sees : ∀ n x m, (Scope.seeing p).allowed x m (env n x m)) :
    Consistent p db (run env (pollRunning svc) ⟨.closed db, log⟩).1
        (run env (pollRunning svc) ⟨.closed db, log⟩).2.conn.committed ↔
      (∀ id ∈ deadWorlds p (db.sessions.filter (·.isOpen)), MayCrash db id) ∧
        ∀ w ∈ db.worlds, w.state = .running → db.sessionOpen w.worldId = true := by
  suffices h : wp (Scope.seeing p) (fun r y => Consistent p db r y.conn.committed ↔
      (∀ id ∈ deadWorlds p (db.sessions.filter (·.isOpen)), MayCrash db id) ∧
        ∀ w ∈ db.worlds, w.state = .running → db.sessionOpen w.worldId = true)
      (pollRunning svc) ⟨.closed db, log⟩ from run_of_wp sees h
  unfold pollRunning openSessions
  simp only [Program.bind_eq]
  rw [wp_bind]
  refine wp_read ?_ (fun φ h => h.elim)
  dsimp only
  refine wp_mono (wp_supervise_all constrained.keyed constrained.sessions) ?_
  rintro r y (⟨db', log', rfl, rfl, swept, may⟩ | ⟨⟨e, rfl⟩, stuck⟩)
  · have running := swept.supervised_iff constrained
    constructor
    · intro h
      exact ⟨may, running.mp h.supervised⟩
    · rintro ⟨-, before⟩
      refine ⟨rfl, swept.closed, ?_, ?_, running.mpr before⟩
      · intro id hid w hw
        obtain ⟨v, hv, hcrashed⟩ := swept.crashed id hid
        change db'.world? id = some w at hw
        rw [hw] at hv
        cases hv
        simp [hcrashed]
      · intro id halive
        have hid : id ∉ deadWorlds p (db.sessions.filter (·.isOpen)) := by
          intro hdead
          simp [(mem_deadWorlds.mp hdead).2] at halive
        exact ⟨swept.kept id hid, swept.sessions id hid⟩
  · refine iff_of_false ?_ (fun h => stuck h.1)
    intro h
    cases h.returns

/-- No process is left on the host. -/
def gone : Processes := ⟨fun _ => ⟨false, none, false⟩, fun _ => ⟨true, "running"⟩⟩

theorem fresh_seeing_gone (n : Nat) (x : Session) (m : Cmd Site Stmt Query) :
    (Scope.seeing gone).allowed x m (Env.fresh n x m) := by
  cases m with
  | draw q => exact Env.fresh_draws n x q
  | ask q =>
    cases q with
    | probe worldId sessionId fingerprint =>
      cases fingerprint with
      | none => rfl
      | some snapshot => trivial
    | poll handle => rfl
    | _ => trivial
  | _ => trivial

/-- The world `w` in some state, with an open session. -/
def served (state : WorldState) : Database :=
  { Database.single state with
    sessions := [⟨"s", "w", 0, none, none, none, 25565, "j", ⟨[], 1, 0, "", ""⟩, none, 0⟩] }

theorem served_constrained (state : WorldState) : (served state).Constrained := by
  refine ⟨⟨?_, ?_, ?_⟩, ?_, ?_⟩
  · exact List.nodup_nil
  · exact fun op hop => (nomatch hop)
  · exact fun op hop => (nomatch hop)
  · simp [served, Database.single]
  · simp [served, RuntimeSession.isOpen]

theorem poll_running_consistent_running :
    Consistent gone (served .running)
      (run Env.fresh (pollRunning ⟨⟨false, false⟩, false, false⟩) ⟨.closed (served .running), []⟩).1
      (run Env.fresh (pollRunning ⟨⟨false, false⟩, false, false⟩)
        ⟨.closed (served .running), []⟩).2.conn.committed :=
  (poll_running_consistent_iff ⟨⟨false, false⟩, false, false⟩ gone Env.fresh (served .running) []
    (served_constrained .running) fresh_seeing_gone).mpr
    ⟨fun id hid => .inl (by
      obtain rfl : id = "w" := by
        simpa [deadWorlds, served, gone, Processes.alive, RuntimeSession.isOpen] using hid
      exact ⟨(served .running).worlds[0], rfl, rfl, by decide⟩),
    by decide⟩

/-- The server of a starting world has died: the tick ends with an exception. -/
theorem poll_running_starting : ¬∀ (svc : WorldsService) (p : Processes) (env : Env)
    (db : Database) (log : Log), db.Constrained →
    (∀ n x m, (Scope.seeing p).allowed x m (env n x m)) →
    (∀ w ∈ db.worlds, w.state = .running → db.sessionOpen w.worldId = true) →
    Consistent p db (run env (pollRunning svc) ⟨.closed db, log⟩).1
      (run env (pollRunning svc) ⟨.closed db, log⟩).2.conn.committed := by
  intro h
  have h := (h ⟨⟨false, false⟩, false, false⟩ gone Env.fresh (served .starting) []
    (served_constrained .starting) fresh_seeing_gone (by decide)).returns
  revert h
  decide

end Worlds

end McManager
