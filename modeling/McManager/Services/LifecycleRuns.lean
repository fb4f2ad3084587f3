import McManager.Services.StartRuns

namespace McManager.Worlds

open Framework Operations

/-- The lifecycle calls. -/
inductive LifecycleCall
  | start (worldId : String) (actorType : ActorType) (actorUserId : Option String) (allow : Bool)
  | stop (worldId : String) (actorType : ActorType) (actorUserId : Option String)
  | kill (worldId : String) (actorType : ActorType) (actorUserId : Option String)

namespace LifecycleCall

/-- A call works for the operation it is given, or for one it creates. -/
def prog (svc : WorldsService) (operationId : Option String) : LifecycleCall → Prog String
  | start worldId actorType actorUserId allow =>
    Worlds.start svc worldId actorType actorUserId allow operationId
  | stop worldId actorType actorUserId => Worlds.stop svc worldId actorType actorUserId operationId
  | kill worldId actorType actorUserId => Worlds.kill svc worldId actorType actorUserId operationId

def worldId : LifecycleCall → String
  | start worldId _ _ _ => worldId
  | stop worldId _ _ => worldId
  | kill worldId _ _ => worldId

/-- The operation a call asks for. -/
def request : LifecycleCall → OperationInput
  | start worldId actorType actorUserId _ =>
    { opType := .start, actorType, worldId := some worldId, actorUserId }
  | stop worldId actorType actorUserId =>
    { opType := .stop, actorType, worldId := some worldId, actorUserId }
  | kill worldId actorType actorUserId =>
    { opType := .kill, actorType, worldId := some worldId, actorUserId }

def allow : LifecycleCall → Bool
  | start _ _ _ allow => allow
  | _ => false

/-- What the call must meet on its way to end the operation it has created. -/
def Releases (call : LifecycleCall) (before : Database) (log : Log) : Prop :=
  match call with
  | start worldId _ _ _ => StartReleases before worldId log
  | _ => failed log .closeSession = false

/-- The call has spawned the process of this session, or was asked to end it. -/
def Concerns (call : LifecycleCall) (log : Log) (sessionId : String) : Prop :=
  match call with
  | start _ _ _ _ => ∃ handle, spawned log handle sessionId = true
  | _ => True

/-- What the call must meet to leave the process of this session tracked. -/
def Tracks (call : LifecycleCall) (before : Database) (log : Log) (sessionId : String) : Prop :=
  match call with
  | start _ _ _ _ => StartTracks log
  | stop worldId _ _ => Tracked before worldId sessionId ∧ committed log .closeSession = false
  | kill worldId _ _ => Tracked before worldId sessionId ∧ committed log .closeSession = false

end LifecycleCall

/-- Every operation that is new has ended, and is Completed exactly when the call returned. -/
def Released (before : Database) (r : Except Exn String) (after : Database) : Prop :=
  ∀ op ∈ after.operations, before.hasOperation op.opId = false →
    op.terminal = true ∧ (op.status = .completed ↔ ∃ a, r = .ok a)

/-- How a lifecycle call may leave. -/
structure CallLeft (E : Scope) (call : LifecycleCall) (operationId : Option String)
    (before : Database) (r : Except Exn String) (y : Session) : Prop where
  released : operationId = none → (∀ status φ, ¬E.fails (.transition status) φ) →
    (∀ φ, ¬E.fails .publishRead φ) →
    (Released before r y.conn.committed ↔
      (repeatOf before call.request call.allow).isSome = true ∨ call.Releases before y.log)
  tracked : ∀ sessionId, call.Concerns y.log sessionId →
    (Tracked y.conn.committed call.worldId sessionId ↔ call.Tracks before y.log sessionId)

section Ending

variable {E : Scope} {svc : WorldsService} {worldId opId code : String} {ids : List String}
  {before db : Database} {log : Log} {s : OperationStatus} {Q : Except Exn String → Session → Prop}

/-- How a stop or a kill that works for `opId` may leave: the operation has ended, and is
Completed exactly when the call returned, if and only if closing the session has not failed;
and a process that was tracked before still is unless the session has been closed. -/
structure EndLeft (E : Scope) (before : Database) (worldId : String) (ids : List String)
    (opId : String) (r : Except Exn String) (y : Session) : Prop where
  released : ∃ status, Stage ids opId status y.conn.committed ∧
    ((∀ status φ, ¬E.fails (.transition status) φ) → (∀ φ, ¬E.fails .publishRead φ) →
      (status.terminal = true ∧ (status = .completed ↔ ∃ a, r = .ok a) ↔
        failed y.log .closeSession = false))
  tracked : ∀ sessionId, Tracked y.conn.committed worldId sessionId ↔
    Tracked before worldId sessionId ∧ committed y.log .closeSession = false

/-- A note that does not tell of a closed session. -/
def besideClosing : Note Site Query Fault Answer → Bool
  | .failed .closeSession | .committed .closeSession => false
  | _ => true

/-- No session has been closed so far, and none has failed to close. -/
structure Unclosed (log : Log) : Prop where
  failed : failed log .closeSession = false
  committed : committed log .closeSession = false

theorem unclosed_of_beside (h : ∀ n ∈ log, besideClosing n = true) : Unclosed log := by
  constructor
  · refine List.any_eq_false.mpr fun n hn => ?_
    have hn := h n hn
    split
    · rename_i t _
      by_cases ht : t = .closeSession
      · rw [ht] at hn
        cases hn
      · simpa using ht
    · exact Bool.false_ne_true
  · refine List.any_eq_false.mpr fun n hn => ?_
    have hn := h n hn
    split
    · rename_i t _
      by_cases ht : t = .closeSession
      · rw [ht] at hn
        cases hn
      · simpa using ht
    · exact Bool.false_ne_true

/-- The log after closing the session has been tried. -/
theorem closing_append {l : Log} (n : Note Site Query Fault Answer)
    (hlog : ∀ n ∈ log, besideClosing n = true) (hl : ∀ n ∈ l, besideClosing n = true) :
    Worlds.failed (log ++ [n] ++ l) .closeSession = Worlds.failed [n] .closeSession ∧
      Worlds.committed (log ++ [n] ++ l) .closeSession = Worlds.committed [n] .closeSession := by
  have hlog := unclosed_of_beside hlog
  have hl := unclosed_of_beside hl
  have hfailed := hlog.failed
  have hcommitted := hlog.committed
  have hfailed' := hl.failed
  have hcommitted' := hl.committed
  simp only [Worlds.failed, Worlds.committed] at *
  simp only [List.any_append, hfailed, hcommitted, hfailed', hcommitted', Bool.false_or,
    Bool.or_false, and_self]

theorem Tracked.congr {d : Database} {sessionId : String} (h : Tracked db worldId sessionId)
    (sessions : d.sessions = db.sessions) (worlds : d.worlds = db.worlds) :
    Tracked d worldId sessionId := by
  obtain ⟨session, w, hw, hstate⟩ := h
  refine ⟨hasOpenSession_congr session sessions, w, ?_, hstate⟩
  rwa [Database.world?, worlds]

theorem tracked_iff {d : Database} (sessions : d.sessions = db.sessions)
    (worlds : d.worlds = db.worlds) (sessionId : String) :
    Tracked d worldId sessionId ↔ Tracked db worldId sessionId :=
  ⟨fun h => h.congr sessions.symm worlds.symm, fun h => h.congr sessions worlds⟩

/-- Both databases track the same processes of the world. -/
def SameTracks (db d : Database) (worldId : String) : Prop :=
  ∀ sessionId, Tracked d worldId sessionId ↔ Tracked db worldId sessionId

/-- A world that is stopping counts as tracked as it did before. -/
theorem sameTracks_stopping {pre : Option WorldState} {now : Int} {w : World}
    (hw : db.world? worldId = some w) (edge : Edge w.state .stopping .ordinary) :
    SameTracks db (db.withState worldId .stopping pre now) worldId := by
  intro sessionId
  have running : w.state ≠ .off ∧ w.state ≠ .error := by
    cases hs : w.state <;> rw [hs] at edge <;> first | decide | exact absurd edge (by decide)
  constructor
  · rintro ⟨session, -⟩
    exact ⟨session, w, hw, running⟩
  · rintro ⟨session, -⟩
    refine ⟨session, _, Database.withState_world? hw, ?_, ?_⟩
    · exact fun h => nomatch h
    · exact fun h => nomatch h

/-- The `except` clause of `stop` and `kill` on an operation that is still open. -/
theorem wp_endFailed {e : Exn} (fresh : ∀ x q a, E.draws x q a → FreshDraw x q a)
    (stage : Stage ids opId s db) (hopen : s.terminal = false)
    (recorded : ∀ e d l, Stage ids opId .failed d → d.worlds = db.worlds →
      d.sessions = db.sessions → (∀ n ∈ l, besideClosing n = true) →
      Q (.error e) ⟨.closed d, log ++ l⟩)
    (unrecorded : ∀ e φ, E.fails (.transition .failed) φ →
      Q (.error e) ⟨.closed db, log ++ [.failed (.transition .failed)]⟩) :
    wp E Q (endFailed svc opId code e) ⟨.closed db, log⟩ := by
  unfold endFailed
  simp only [Program.bind_eq]
  rw [wp_bind]
  refine wp_failOp (wp_milestone fresh stage hopen (.inr rfl) ?_ fun φ hφ => unrecorded _ φ hφ)
  intro op d hstage worlds sessions _
  refine ⟨recorded _ d [_] hstage worlds sessions (by simp [besideClosing]), fun φ _ => ?_⟩
  rw [List.append_assoc]
  exact recorded _ d [_, _] hstage worlds sessions (by simp [besideClosing])

/-- The same on an operation that is missing or has ended. -/
theorem wp_endFailed_over {e : Exn} (isOver : Over db opId)
    (left : ∀ e l, (∀ n ∈ l, besideClosing n = true) → Q (.error e) ⟨.closed db, log ++ l⟩) :
    wp E Q (endFailed svc opId code e) ⟨.closed db, log⟩ := by
  unfold endFailed
  simp only [Program.bind_eq]
  rw [wp_bind]
  refine wp_failOp (wp_transition_over isOver (fun text => ?_) fun φ _ => ?_)
  · have h := left (.operationState text) [] (by simp)
    rwa [List.append_nil] at h
  · exact left _ [_] (by simp [besideClosing])

/-- The steps of `stop` and `kill`: mark the world, bring the process to its end, close its
session, mark the world as off. -/
def ending {α : Type} (svc : WorldsService) (worldId opId : String) (stage : Checkpoint)
    (p : Prog α) (reason : α → EndReason) (last : α → Checkpoint) : Prog String := do
  let _ ← Operations.transition svc.operations opId .running { checkpoint := some stage }
  setWorldState worldId .stopping
  let a ← p
  closeSession worldId (reason a)
  setWorldState worldId .off
  let _ ← Operations.transition svc.operations opId .completed { checkpoint := some (last a) }
  pure opId

theorem stopWorld_eq (svc : WorldsService) (worldId opId : String) :
    stopWorld svc worldId opId = ending svc worldId opId { stage := "stopping" }
      (attemptGracefulStop worldId) (fun closed => if closed then .gracefulStop else .forcedStop)
      fun closed => { stage := "off", graceful := some closed } := rfl

/-- What `kill` does to the process. -/
def killProcess (worldId : String) : Prog Unit := do
  let handle ← resolveHandle worldId
  match handle with
  | some handle => do
    let _ ← ask (.terminate handle 0)
    pure ()
  | none => pure ()

theorem killWorld_eq (svc : WorldsService) (worldId opId : String) :
    killWorld svc worldId opId = ending svc worldId opId { stage := "killing" }
      (killProcess worldId) (fun _ => .forcedStop) fun _ => { stage := "off" } := by
  unfold killWorld ending killProcess
  simp only [Program.bind_eq, Program.pure_eq, Program.bind_assoc]
  congr 1
  funext _
  congr 1
  funext _
  congr 1
  funext handle
  cases handle with
  | none => rfl
  | some handle =>
    dsimp only
    rw [Program.bind_assoc]
    rfl

theorem looks_killProcess (db : Database) : Looks db (fun _ => True) (killProcess worldId) := by
  have external : ∀ φ : Fault, True := fun _ => trivial
  unfold killProcess resolveHandle
  refine looks_bind (looks_bind (looks_ask external rfl) fun _ => looks_ret _) fun handle => ?_
  split
  · exact looks_bind (looks_ask external rfl) fun _ => looks_ret _
  · exact looks_ret _

theorem looks_waitExit (db : Database) (handle : ProcessHandle) (timeoutS : Nat) :
    Looks db (fun _ => True) (waitExit handle timeoutS) := by
  have external : ∀ φ : Fault, True := fun _ => trivial
  refine looks_bind (looks_draw _) fun n => ?_
  induction n with
  | zero => exact looks_bind (looks_ask external rfl) fun _ => looks_ret _
  | succ n ih =>
    refine looks_bind (looks_ask external rfl) fun status => ?_
    split
    · exact looks_ret _
    · exact ih

theorem looks_rconCommandQuiet (db : Database) (worldId command : String) :
    Looks db (fun _ => True) (rconCommandQuiet worldId command) := by
  have external : ∀ φ : Fault, True := fun _ => trivial
  unfold rconCommandQuiet
  refine looks_bind (looks_read external rfl) fun session => ?_
  split
  · exact looks_ret _
  · split
    · exact looks_ret _
    · refine looks_bind (looks_ask external rfl) fun _ => looks_bind (looks_ask external rfl) fun _ =>
        looks_bind (looks_handle ?_ fun e _ => ?_) fun _ => looks_ask external rfl
      · exact looks_bind (looks_ask external rfl) fun _ => looks_bind (looks_ask external rfl) fun _ =>
          looks_ret _
      · exact looks_bind (looks_ask external rfl) fun _ => looks_raise trivial

/-- Bringing a process to its end only asks. -/
theorem looks_attemptGracefulStop (db : Database) (worldId : String) :
    Looks db (fun _ => True) (attemptGracefulStop worldId) := by
  have external : ∀ φ : Fault, True := fun _ => trivial
  have last : ∀ (handle : ProcessHandle) (exited : Bool), Looks db (fun _ => True)
      (if exited then (pure true : Prog Bool)
      else do
        let outcome ← ask (.terminate handle stopGracefulDeadlineS)
        pure (outcome.resolved && outcome.graceful)) := by
    intro handle exited
    split
    · exact looks_ret _
    · exact looks_bind (looks_ask external rfl) fun _ => looks_ret _
  unfold attemptGracefulStop resolveHandle
  refine looks_bind (looks_bind (looks_ask external rfl) fun _ => looks_ret _) fun handle => ?_
  split
  · exact looks_ret _
  · rename_i handle
    refine looks_bind (looks_rescueRcon ?_ (looks_ret _)) fun exited => ?_
    · exact looks_bind (looks_rconCommandQuiet db worldId "stop") fun _ =>
        looks_waitExit db handle stopGracefulDeadlineS
    · split
      · exact looks_ret _
      · unfold stopByHandle
        refine looks_bind (looks_ask external rfl) fun delivered => ?_
        dsimp only
        split
        · exact looks_bind (looks_waitExit db handle stopGracefulDeadlineS) (last handle)
        · exact last handle false

theorem beside_observed {l : Log}
    (h : ∀ n ∈ l, n.Observed (fun t => reader t = true) (fun q => passing q = true)) :
    ∀ n ∈ l, besideClosing n = true := by
  intro n hn
  have hn := h n hn
  cases n with
  | failed t => cases t <;> first | rfl | cases hn
  | committed t => cases hn
  | answered q o => rfl

/-- A stop or a kill that works for an open operation. -/
theorem wp_ending {α : Type} {stage' : Checkpoint} {p : Prog α} {reason : α → EndReason}
    {last : α → Checkpoint} (fresh : ∀ x q a, E.draws x q a → FreshDraw x q a)
    (stage : Stage ids opId s db) (hopen : s.terminal = false) (tracks : SameTracks before db worldId)
    (looks : ∀ d, Looks d (fun _ => True) p) (hlog : ∀ n ∈ log, besideClosing n = true) :
    wp E (EndLeft E before worldId ids opId)
      ((ending svc worldId opId stage' p reason last).handle (endFailed svc opId code))
      ⟨.closed db, log⟩ := by
  -- Before the session is closed a failure is recorded and nothing is lost.
  have early : ∀ {e : Exn} {d : Database} {l : Log} {status : OperationStatus},
      Stage ids opId status d → status.terminal = false → SameTracks before d worldId →
      (∀ n ∈ l, besideClosing n = true) →
      wp E (EndLeft E before worldId ids opId) (endFailed svc opId code e) ⟨.closed d, log ++ l⟩ := by
    intro e d l status hstage hstatus tracks hl
    have unclosed : ∀ {k : Log}, (∀ n ∈ k, besideClosing n = true) → Unclosed (log ++ l ++ k) := by
      intro k hk
      refine unclosed_of_beside fun n hn => ?_
      simp only [List.mem_append] at hn
      rcases hn with (hn | hn) | hn
      · exact hlog n hn
      · exact hl n hn
      · exact hk n hn
    refine wp_endFailed fresh hstage hstatus ?_ ?_
    · intro e d' k hstage' worlds sessions hk
      have hclosed := unclosed hk
      refine ⟨⟨.failed, hstage', fun _ _ => iff_of_true ⟨rfl, ?_⟩ hclosed.failed⟩, fun sid => ?_⟩
      · exact ⟨fun h => (nomatch h), fun ⟨a, h⟩ => (nomatch h)⟩
      · have same := (tracked_iff sessions worlds sid).trans (tracks sid)
        exact same.trans (and_iff_left hclosed.committed).symm
    · intro e φ hφ
      have hclosed := unclosed (k := [.failed (.transition .failed)]) (by simp [besideClosing])
      refine ⟨⟨status, hstage, fun h _ => absurd hφ (h _ φ)⟩, fun sid => ?_⟩
      exact (tracks sid).trans (and_iff_left hclosed.committed).symm
  -- Once it is closed a process is not tracked, whatever follows.
  have late : ∀ {r : Except Exn String} {d : Database} {l k : Log} {status : OperationStatus},
      Stage ids opId status d → (∀ sid, ¬HasOpenSession d worldId sid) →
      (status.terminal = true ∧ (status = .completed ↔ ∃ a, r = .ok a)) ∨ Unrecorded E →
      (∀ n ∈ l, besideClosing n = true) → (∀ n ∈ k, besideClosing n = true) →
      EndLeft E before worldId ids opId r
        ⟨.closed d, log ++ l ++ [.committed .closeSession] ++ k⟩ := by
    intro r d l k status hstage absent ended hl hk
    have hboth : ∀ n ∈ log ++ l, besideClosing n = true := by
      intro n hn
      rcases List.mem_append.mp hn with hn | hn
      · exact hlog n hn
      · exact hl n hn
    obtain ⟨hfailed, hcommitted⟩ := closing_append (.committed .closeSession) hboth hk
    refine ⟨⟨status, hstage, fun transitions publishing => ?_⟩, fun sid => ?_⟩
    · rcases ended with ended | ⟨status, φ, h⟩ | ⟨φ, h⟩
      · exact iff_of_true ended hfailed
      · exact absurd h (transitions status φ)
      · exact absurd h (publishing φ)
    · refine iff_of_false (fun h => absent sid h.session) fun h => ?_
      have h := h.2
      rw [hcommitted] at h
      cases h
  have lateFailed : ∀ {e : Exn} {d : Database} {l : Log} {status : OperationStatus} (k : Log),
      Stage ids opId status d → (∀ sid, ¬HasOpenSession d worldId sid) →
      status.terminal = false ∨ Unrecorded E →
      (∀ n ∈ l, besideClosing n = true) → (∀ n ∈ k, besideClosing n = true) →
      wp E (EndLeft E before worldId ids opId) (endFailed svc opId code e)
        ⟨.closed d, log ++ l ++ [.committed .closeSession] ++ k⟩ := by
    intro e d l status k hstage absent cause hl hk
    have beside : ∀ {j : Log}, (∀ n ∈ j, besideClosing n = true) →
        ∀ n ∈ k ++ j, besideClosing n = true := by
      intro j hj n hn
      rcases List.mem_append.mp hn with hn | hn
      · exact hk n hn
      · exact hj n hn
    by_cases hstatus : status.terminal = true
    · have hun : Unrecorded E := cause.resolve_left (by simp [hstatus])
      refine wp_endFailed_over (hstage.over hstatus) fun e j hj => ?_
      rw [List.append_assoc]
      exact late hstage absent (.inr hun) hl (beside hj)
    · refine wp_endFailed fresh hstage (by simpa using hstatus) ?_ ?_
      · intro e d' j hstage' worlds sessions hj
        rw [List.append_assoc]
        refine late hstage' ?_ (.inl ⟨rfl, fun h => (nomatch h), fun ⟨a, h⟩ => (nomatch h)⟩) hl
          (beside hj)
        intro sid h
        exact absent sid (hasOpenSession_congr h sessions.symm)
      · intro e φ hφ
        rw [List.append_assoc]
        exact late hstage absent (.inr (.inl ⟨_, φ, hφ⟩)) hl (beside (by simp [besideClosing]))
  rw [wp_handle]
  unfold ending
  simp only [Program.bind_eq, Program.pure_eq]
  rw [wp_bind]
  refine wp_milestone fresh stage hopen (.inl rfl) ?_ fun φ _ => ?_
  rotate_left
  · exact early stage hopen tracks (by simp [besideClosing])
  intro op d hstage hworlds hsessions _
  have tracks₁ : SameTracks before d worldId := fun sid =>
    (tracked_iff hsessions hworlds sid).trans (tracks sid)
  refine ⟨?_, fun φ _ => ?_⟩
  rotate_left
  · rw [List.append_assoc]
    exact early hstage rfl tracks₁ (by simp [besideClosing])
  dsimp only
  rw [wp_bind]
  refine wp_setWorldState ?_ ?_ fun φ _ => ?_
  rotate_left
  · intro now e _
    exact early hstage rfl tracks₁ (by simp [besideClosing])
  · rw [List.append_assoc]
    exact early hstage rfl tracks₁ (by simp [besideClosing])
  intro now d₁ h
  have hat := setWorldStateBlock_at h
  obtain ⟨w, pre, hw, -, edge, -, -, rfl⟩ := setWorldStateBlock_ok h
  have hstage₁ := hstage.withState worldId .stopping pre now
  have tracks₂ : SameTracks before (d.withState worldId .stopping pre now) worldId := fun sid =>
    (sameTracks_stopping hw edge sid).trans (tracks₁ sid)
  dsimp only
  rw [wp_bind]
  refine wp_observes (looks _) ?_
  intro r l _ hl
  have hl := beside_observed hl
  have hsofar : ∀ n ∈ [.committed (.transition .running)] ++
      [.committed (.setWorldState .stopping)] ++ l, besideClosing n = true := by
    simpa [besideClosing] using hl
  rw [List.append_assoc, List.append_assoc]
  generalize [.committed (.transition .running)] ++ [.committed (.setWorldState .stopping)] ++ l =
    sofar at hsofar ⊢
  cases r with
  | error e => exact early hstage₁ rfl tracks₂ hsofar
  | ok a =>
  dsimp only
  rw [wp_bind]
  refine wp_closeSession ?_ ?_
  · intro now₂
    have absent : ∀ sid, ¬HasOpenSession (withSessionsClosed
        (d.withState worldId .stopping pre now) worldId now₂ (reason a)) worldId sid :=
      fun sid => not_hasOpenSession_closed _ worldId sid now₂ (reason a)
    have hstage₂ : Stage ids opId .running (withSessionsClosed
        (d.withState worldId .stopping pre now) worldId now₂ (reason a)) :=
      hstage₁.congr rfl fun _ => rfl
    have hat₂ : (withSessionsClosed (d.withState worldId .stopping pre now) worldId now₂
        (reason a)).At worldId .stopping := hat.congr rfl
    generalize withSessionsClosed (d.withState worldId .stopping pre now) worldId now₂
      (reason a) = d₂ at absent hstage₂ hat₂ ⊢
    dsimp only
    rw [wp_bind]
    refine wp_enter hat₂ (by decide) (by decide) (by decide) ?_ fun φ _ => ?_
    rotate_left
    · exact lateFailed _ hstage₂ absent (.inl rfl) hsofar (by simp [besideClosing])
    intro pre₃ now₃ _
    have hstage₃ := hstage₂.withState worldId .off pre₃ now₃
    dsimp only
    rw [wp_bind]
    refine wp_milestone fresh hstage₃ rfl (.inr rfl) ?_ fun φ hφ => ?_
    · intro op d₄ hstage₄ _ sessions _
      have absent₄ : ∀ sid, ¬HasOpenSession d₄ worldId sid :=
        fun sid h => absent sid (hasOpenSession_congr h sessions.symm)
      refine ⟨?_, fun φ hφ => ?_⟩
      · rw [List.append_assoc]
        exact late hstage₄ absent₄ (.inl ⟨rfl, fun _ => ⟨opId, rfl⟩, fun _ => rfl⟩) hsofar
          (by simp [besideClosing])
      · rw [List.append_assoc, List.append_assoc]
        exact lateFailed _ hstage₄ absent₄ (.inr (.inr ⟨φ, hφ⟩)) hsofar (by simp [besideClosing])
    · rw [List.append_assoc]
      exact lateFailed _ hstage₃ absent (.inl rfl) hsofar (by simp [besideClosing])
  · intro φ v _
    have hboth : ∀ n ∈ log ++ sofar, besideClosing n = true := by
      intro n hn
      rcases List.mem_append.mp hn with hn | hn
      · exact hlog n hn
      · exact hsofar n hn
    have stuck : ∀ {e : Exn} {k : Log}, (∀ n ∈ k, besideClosing n = true) →
        EndLeft E before worldId ids opId (.error e) ⟨.closed (d.withState worldId .stopping pre now),
          log ++ sofar ++ [.failed .closeSession] ++ k⟩ := by
      intro e k hk
      obtain ⟨hfailed, hcommitted⟩ := closing_append (.failed .closeSession) hboth hk
      refine ⟨⟨.running, hstage₁, fun _ _ => iff_of_false (fun h => (nomatch h.1)) ?_⟩, fun sid => ?_⟩
      · rw [hfailed]
        exact fun h => (nomatch h)
      · exact (tracks₂ sid).trans (and_iff_left hcommitted).symm
    dsimp only
    unfold endFailed
    simp only [Program.bind_eq]
    rw [wp_bind]
    refine wp_failOp (wp_transition_nested ?_ fun φ _ => stuck (by simp [besideClosing]))
    have h := stuck (e := .nestedTransaction) (k := []) (by simp)
    rwa [List.append_nil] at h

/-- The same on an operation that is missing or has ended: nothing happens. -/
theorem wp_ending_over {α : Type} {stage' : Checkpoint} {p : Prog α} {reason : α → EndReason}
    {last : α → Checkpoint} (isOver : Over db opId)
    (left : ∀ e l, (∀ n ∈ l, besideClosing n = true) → Q (.error e) ⟨.closed db, log ++ l⟩) :
    wp E Q ((ending svc worldId opId stage' p reason last).handle (endFailed svc opId code))
      ⟨.closed db, log⟩ := by
  rw [wp_handle]
  unfold ending
  simp only [Program.bind_eq]
  rw [wp_bind]
  refine wp_transition_over isOver (fun text => ?_) fun φ _ => ?_
  · exact wp_endFailed_over isOver left
  · refine wp_endFailed_over isOver fun e l hl => ?_
    rw [List.append_assoc]
    refine left e _ fun n hn => ?_
    rcases List.mem_append.mp hn with hn | hn
    · rw [List.mem_singleton.mp hn]
      rfl
    · exact hl n hn

end Ending

section Calls

variable {E : Scope} {svc : WorldsService} {worldId : String} {db : Database} {log : Log}

theorem inert_observed {l : Log}
    (h : ∀ n ∈ l, n.Observed (fun t => reader t = true) (fun q => passing q = true)) :
    ∀ n ∈ l, inert n = true := by
  intro n hn
  have hn := h n hn
  cases n with
  | failed t => cases t <;> first | rfl | cases hn
  | committed t => cases hn
  | answered q o => cases q <;> first | rfl | cases hn

/-- The checks before an operation exists pass, or leave the operations alone. -/
theorem wp_preflight {Q : Except Exn Unit → Session → Prop}
    (passed : ∀ w l, db.world? worldId = some w → HasJava db w → told l = [] →
      Q (.ok ()) ⟨.closed db, log ++ l⟩)
    (refused : ∀ e d l, d.operations = db.operations → (∀ n ∈ l, inert n = true) →
      Q (.error e) ⟨.closed d, log ++ l⟩) :
    wp E Q (preflight worldId) ⟨.closed db, log⟩ := by
  unfold preflight
  simp only [Program.bind_eq]
  rw [wp_bind]
  refine wp_observes (observes_row db worldId) ?_
  intro r l₁ hr hl₁
  have told₁ := told_observed hl₁
  have inert₁ := inert_observed hl₁
  cases r with
  | error e => exact refused e db l₁ rfl inert₁
  | ok w =>
  dsimp only
  rw [wp_bind]
  have busy : Looks db (fun _ => True) (refuseBusy w) := by
    unfold refuseBusy
    split
    · exact looks_raise trivial
    · exact looks_ret _
  refine wp_observes busy ?_
  intro r l₂ _ hl₂
  have told₂ : told (l₁ ++ l₂) = [] := by rw [told_append, told₁, told_observed hl₂]; rfl
  have inert₂ : ∀ n ∈ l₁ ++ l₂, inert n = true := by
    intro n hn
    rcases List.mem_append.mp hn with hn | hn
    · exact inert₁ n hn
    · exact inert_observed hl₂ n hn
  rw [List.append_assoc]
  generalize l₁ ++ l₂ = l at told₂ inert₂ ⊢
  cases r with
  | error e => exact refused e db l rfl inert₂
  | ok u =>
  dsimp only
  rw [wp_bind]
  refine wp_observes (observes_launchContext db w) ?_
  intro r l₃ hjava hl₃
  have told₃ : told (l ++ l₃) = [] := by rw [told_append, told₂, told_observed hl₃]; rfl
  have inert₃ : ∀ n ∈ l ++ l₃, inert n = true := by
    intro n hn
    rcases List.mem_append.mp hn with hn | hn
    · exact inert₂ n hn
    · exact inert_observed hl₃ n hn
  rw [List.append_assoc]
  generalize l ++ l₃ = l at told₃ inert₃ ⊢
  cases r with
  | error e => exact refused e db l rfl inert₃
  | ok context =>
  dsimp only
  rw [wp_bind]
  refine wp_observes (looks_validateLaunch db w context) ?_
  intro r l₄ _ hl₄
  have told₄ : told (l ++ l₄) = [] := by rw [told_append, told₃, told_observed hl₄]; rfl
  have inert₄ : ∀ n ∈ l ++ l₄, inert n = true := by
    intro n hn
    rcases List.mem_append.mp hn with hn | hn
    · exact inert₃ n hn
    · exact inert_observed hl₄ n hn
  rw [List.append_assoc]
  generalize l ++ l₄ = l at told₄ inert₄ ⊢
  cases r with
  | error e => exact refused e db l rfl inert₄
  | ok gate =>
  dsimp only
  split
  · exact passed w l (hr w rfl) (hjava.1 context rfl) told₄
  -- A missing EULA is recorded in the world's state, whatever becomes of it.
  have marked : ∀ {e : Exn} {d : Database} {n : Note Site Query Fault Answer},
      d.operations = db.operations → inert n = true →
      Q (.error e) ⟨.closed d, log ++ l ++ [n]⟩ := by
    intro e d n ops hn
    rw [List.append_assoc]
    refine refused e d _ ops fun m hm => ?_
    rcases List.mem_append.mp hm with hm | hm
    · exact inert₄ m hm
    · rw [List.mem_singleton.mp hm]
      exact hn
  split
  · rw [wp_bind]
    refine wp_setWorldState ?_ ?_ fun φ _ => marked rfl rfl
    · intro now d h
      obtain ⟨row, pre, -, -, -, -, -, rfl⟩ := setWorldStateBlock_ok h
      exact marked rfl rfl
    · intro now e _
      exact refused e db l rfl inert₄
  · exact refused _ db l rfl inert₄

/-- The operation a call works for: a new one, one in flight that stands for it, or none. -/
theorem wp_operationFor {request : OperationInput} {opType : OperationType} {actorType : ActorType}
    {actorUserId : Option String} {allow : Bool} {Q : Except Exn String → Session → Prop}
    (hrequest : request = { opType, actorType, worldId := some worldId, actorUserId })
    (fresh : ∀ x q a, E.draws x q a → FreshDraw x q a) (keyed : db.Keyed)
    (created : ∀ opId status d, db.hasOperation opId = false → repeatOf db request allow = none →
      Stage (db.operations.map (·.opId) ++ [opId]) opId status d → status.terminal = false →
      d.worlds = db.worlds → d.sessions = db.sessions → d.javaRuntimes = db.javaRuntimes →
      Q (.ok opId) ⟨.closed d, log ++ [.committed .create]⟩)
    (unpublished : ∀ e d, (∃ φ, E.fails .publishRead φ) → d.worlds = db.worlds →
      d.sessions = db.sessions → Q (.error e)
        ⟨.closed d, log ++ [.committed .create] ++ [.failed .publishRead]⟩)
    (repeated : ∀ op : Operation, repeatOf db request allow = some op →
      Stage (db.operations.map (·.opId)) op.opId op.status db → op.status.terminal = false →
      Q (.ok op.opId) ⟨.closed db, log ++ [.committed .create]⟩)
    (refused : ∀ e l, (∀ n ∈ l, inert n = true ∧ besideClosing n = true) →
      Q (.error e) ⟨.closed db, log ++ l⟩) :
    wp E Q (operationFor svc opType worldId actorType actorUserId allow none) ⟨.closed db, log⟩ := by
  subst hrequest
  unfold operationFor
  simp only [Program.bind_eq, Program.pure_eq]
  rw [wp_bind]
  refine wp_create ?_ ?_ ?_
  · intro opId auditIds now op cancelled replayed d hdraw h
    have named := (fresh _ _ _ hdraw).1
    obtain ⟨rfl, hrepeat, stage⟩ | ⟨hnone, rfl, hnew, hopen, stage, worlds, sessions,
        runtimes⟩ := createBlock_stage keyed named rfl h
    · have inFlight := (repeatOf_some hrepeat).2.1
      have hopen : op.status.terminal = false := Operation.inFlight_iff.mp inFlight
      exact ⟨repeated op hrepeat stage hopen, fun φ hφ => unpublished _ _ ⟨φ, hφ⟩ rfl rfl⟩
    · exact ⟨created _ _ d hnew hnone stage (hopen rfl) worlds sessions runtimes,
        fun φ hφ => unpublished _ d ⟨φ, hφ⟩ worlds sessions⟩
  · intro opId auditIds now e _ _
    have h := refused e [] (by simp)
    rwa [List.append_nil] at h
  · intro φ _
    exact refused _ _ (by simp [inert, besideClosing])

/-- Without a new operation there is nothing to release. -/
theorem released_of_ids {d : Database} {r : Except Exn String}
    (ids : d.operations.map (·.opId) = db.operations.map (·.opId)) : Released db r d := by
  intro op hop hnew
  have hmem : op.opId ∈ d.operations.map (·.opId) := List.mem_map.mpr ⟨op, hop, rfl⟩
  rw [ids, ← hasOperation_iff, hnew] at hmem
  cases hmem

/-- With one new operation it is the one to release. -/
theorem released_iff {d : Database} {opId : String} {status : OperationStatus}
    {r : Except Exn String} (hnew : db.hasOperation opId = false)
    (stage : Stage (db.operations.map (·.opId) ++ [opId]) opId status d) :
    Released db r d ↔ status.terminal = true ∧ (status = .completed ↔ ∃ a, r = .ok a) := by
  obtain ⟨op, hop, hid, rfl⟩ := stage.row
  constructor
  · intro h
    exact h op hop (by rw [hid, hnew])
  · intro h x hx hxnew
    have hmem : x.opId ∈ d.operations.map (·.opId) := List.mem_map.mpr ⟨x, hx, rfl⟩
    rw [stage.ids_eq] at hmem
    rcases List.mem_append.mp hmem with hold | hnew'
    · rw [← hasOperation_iff, hxnew] at hold
      cases hold
    · have hsame : x.opId = op.opId := (List.mem_singleton.mp hnew').trans hid.symm
      obtain rfl := nodup_key_inj stage.keyed.unique hx hop hsame
      exact h

theorem Over.or_stage (keyed : db.Keyed) (opId : String) :
    Over db opId ∨ ∃ status, Stage (db.operations.map (·.opId)) opId status db ∧
      status.terminal = false := by
  by_cases h : Over db opId
  · exact .inl h
  · simp only [Over, not_forall] at h
    obtain ⟨op, hop, hid, hopen⟩ := h
    exact .inr ⟨op.status, ⟨keyed, rfl, op, hop, hid, rfl⟩, by simpa [Operation.terminal] using hopen⟩

/-- A start that has spawned nothing and has at most left an operation unpublished. -/
theorem startLeft_idle {worldId : String} {actorType : ActorType} {actorUserId : Option String}
    {allow : Bool} {operationId : Option String} {e : Exn} {c : Connection Database}
    (idle : Idle db worldId log)
    (same : c.committed.operations.map (·.opId) = db.operations.map (·.opId) ∨
      ∃ φ, E.fails .publishRead φ) :
    CallLeft E (.start worldId actorType actorUserId allow) operationId db (.error e) ⟨c, log⟩ where
  released := fun _ _ publishing => by
    rcases same with same | ⟨φ, hφ⟩
    · exact iff_of_true (released_of_ids same) (.inr idle.releases)
    · exact absurd hφ (publishing φ)
  tracked := fun sessionId ⟨handle, h⟩ => by
    rw [idle.unspawned handle sessionId] at h
    cases h

theorem wp_startCall (fresh : ∀ x q a, E.draws x q a → FreshDraw x q a) (keyed : db.Keyed)
    (worldId : String) (actorType : ActorType) (actorUserId : Option String) (allow : Bool)
    (operationId : Option String) :
    wp E (CallLeft E (.start worldId actorType actorUserId allow) operationId db)
      (start svc worldId actorType actorUserId allow operationId) ⟨.closed db, []⟩ := by
  have nothing : Idle db worldId [] := idle_of_told rfl
  unfold start
  simp only [Program.bind_eq]
  rw [wp_bind]
  refine wp_preflight ?_ ?_
  rotate_left
  · intro e d l ops hl
    exact startLeft_idle (nothing.append hl) (.inl (by rw [Connection.closed, ops]))
  intro w l hw java hl
  have inertly : Idle db worldId ([] ++ l) := idle_of_told hl
  dsimp only
  rw [wp_bind]
  cases operationId with
  | some opId =>
    change wp E _ ((launch svc worldId opId).handle (launchFailed svc worldId opId)) _
    rcases Over.or_stage keyed opId with isOver | ⟨status, stage, hopen⟩
    · refine wp_launch_over isOver fun e k hk => ?_
      exact startLeft_idle (inertly.append hk) (.inl rfl)
    · refine wp_mono (wp_launch fresh stage hopen hl rfl hw java) fun r y h => ?_
      exact ⟨fun h => (nomatch h), fun sessionId ⟨handle, hs⟩ => h.tracked handle sessionId hs⟩
  | none =>
    refine wp_operationFor rfl fresh keyed ?_ ?_ ?_ ?_
    · intro opId status d hnew hnone stage hopen worlds sessions runtimes
      have hwd : d.world? worldId = some w := by rwa [Database.world?, worlds]
      have hjava : HasJava d w := by rwa [HasJava, runtimes]
      refine wp_mono (wp_launch fresh stage hopen (by simp [hl, telling]) worlds hwd hjava)
        fun r y h => ⟨fun _ transitions publishing => ?_, ?_⟩
      · obtain ⟨status, stage, released⟩ := h.released
        rw [released_iff hnew stage, released transitions publishing]
        refine (or_iff_right fun hsome => ?_).symm
        rw [LifecycleCall.request, LifecycleCall.allow, hnone] at hsome
        cases hsome
      · exact fun sessionId ⟨handle, hs⟩ => h.tracked handle sessionId hs
    · intro e d hφ _ _
      rw [List.append_assoc]
      exact startLeft_idle (inertly.append (by simp [inert])) (.inr hφ)
    · intro op hrepeat stage hopen
      refine wp_mono (wp_launch fresh stage hopen (by simp [hl, telling]) rfl hw java)
        fun r y h => ⟨fun _ _ _ => ?_, ?_⟩
      · obtain ⟨status, stage, -⟩ := h.released
        refine iff_of_true (released_of_ids stage.ids_eq) (.inl ?_)
        rw [LifecycleCall.request, LifecycleCall.allow, hrepeat]
        rfl
      · exact fun sessionId ⟨handle, hs⟩ => h.tracked handle sessionId hs
    · intro e k hk
      exact startLeft_idle (inertly.append fun n hn => (hk n hn).1) (.inl rfl)

/-- How a stop or a kill may leave. -/
structure EndingLeft (E : Scope) (request : OperationInput) (operationId : Option String)
    (before : Database) (worldId : String) (r : Except Exn String) (y : Session) : Prop where
  released : operationId = none → (∀ status φ, ¬E.fails (.transition status) φ) →
    (∀ φ, ¬E.fails .publishRead φ) →
    (Released before r y.conn.committed ↔
      (repeatOf before request false).isSome = true ∨ failed y.log .closeSession = false)
  tracked : ∀ sessionId, Tracked y.conn.committed worldId sessionId ↔
    Tracked before worldId sessionId ∧ committed y.log .closeSession = false

theorem wp_endingCall {α : Type} {stage' : Checkpoint} {p : Prog α} {reason : α → EndReason}
    {last : α → Checkpoint} {code : String} {opType : OperationType} {actorType : ActorType}
    {actorUserId : Option String} {request : OperationInput}
    (hrequest : request = { opType, actorType, worldId := some worldId, actorUserId })
    (fresh : ∀ x q a, E.draws x q a → FreshDraw x q a) (keyed : db.Keyed)
    (looks : ∀ d, Looks d (fun _ => True) p) (operationId : Option String) :
    wp E (EndingLeft E request operationId db worldId)
      ((world worldId).bind fun _ =>
        (operationFor svc opType worldId actorType actorUserId false operationId).bind fun opId =>
          (ending svc worldId opId stage' p reason last).handle (endFailed svc opId code))
      ⟨.closed db, []⟩ := by
  have idle : ∀ {e : Exn} {l : Log} {d : Database}, (∀ n ∈ l, besideClosing n = true) →
      d.worlds = db.worlds → d.sessions = db.sessions →
      (d.operations.map (·.opId) = db.operations.map (·.opId) ∨ ∃ φ, E.fails .publishRead φ) →
      EndingLeft E request operationId db worldId (.error e) ⟨.closed d, l⟩ := by
    intro e l d hl worlds sessions same
    have unclosed := unclosed_of_beside hl
    refine ⟨fun _ _ publishing => ?_, fun sid => ?_⟩
    · rcases same with same | ⟨φ, hφ⟩
      · exact iff_of_true (released_of_ids same) (.inr unclosed.failed)
      · exact absurd hφ (publishing φ)
    · exact (tracked_iff sessions worlds sid).trans (and_iff_left unclosed.committed).symm
  rw [wp_bind]
  refine wp_observes (observes_row db worldId) ?_
  intro r l _ hl
  have hl := beside_observed hl
  cases r with
  | error e => exact idle hl rfl rfl (.inl rfl)
  | ok w =>
  have beside : ∀ {k : Log}, (∀ n ∈ k, besideClosing n = true) →
      ∀ n ∈ [] ++ l ++ k, besideClosing n = true := by
    intro k hk n hn
    rcases List.mem_append.mp hn with hn | hn
    · exact hl n hn
    · exact hk n hn
  have same : SameTracks db db worldId := fun _ => Iff.rfl
  dsimp only
  rw [wp_bind]
  cases operationId with
  | some opId =>
    change wp E _ ((ending svc worldId opId stage' p reason last).handle (endFailed svc opId code)) _
    rcases Over.or_stage keyed opId with isOver | ⟨status, stage, hopen⟩
    · refine wp_ending_over isOver fun e k hk => ?_
      exact idle (beside hk) rfl rfl (.inl rfl)
    · refine wp_mono (wp_ending fresh stage hopen same looks hl) fun r y h => ?_
      exact ⟨fun h => (nomatch h), h.tracked⟩
  | none =>
    refine wp_operationFor hrequest fresh keyed ?_ ?_ ?_ ?_
    · intro opId status d hnew hnone stage hopen worlds sessions _
      have same : SameTracks db d worldId := tracked_iff sessions worlds
      refine wp_mono (wp_ending fresh stage hopen same looks (beside (by simp [besideClosing])))
        fun r y h => ⟨fun _ transitions publishing => ?_, h.tracked⟩
      obtain ⟨status, stage, released⟩ := h.released
      rw [released_iff hnew stage, released transitions publishing]
      refine (or_iff_right fun hsome => ?_).symm
      rw [hnone] at hsome
      cases hsome
    · intro e d hφ worlds sessions
      rw [List.append_assoc]
      exact idle (beside (by simp [besideClosing])) worlds sessions (.inr hφ)
    · intro op hrepeat stage hopen
      refine wp_mono (wp_ending fresh stage hopen same looks (beside (by simp [besideClosing])))
        fun r y h => ⟨fun _ _ _ => ?_, h.tracked⟩
      obtain ⟨status, stage, -⟩ := h.released
      refine iff_of_true (released_of_ids stage.ids_eq) (.inl ?_)
      rw [hrepeat]
      rfl
    · intro e k hk
      exact idle (beside fun n hn => (hk n hn).2) rfl rfl (.inl rfl)

/-- A lifecycle call leaves as `CallLeft` says, whatever the outside world answers. -/
theorem wp_lifecycleCall (fresh : ∀ x q a, E.draws x q a → FreshDraw x q a) (keyed : db.Keyed)
    (call : LifecycleCall) (operationId : Option String) :
    wp E (CallLeft E call operationId db) (call.prog svc operationId) ⟨.closed db, []⟩ := by
  cases call with
  | start worldId actorType actorUserId allow =>
    exact wp_startCall fresh keyed worldId actorType actorUserId allow operationId
  | stop worldId actorType actorUserId =>
    simp only [LifecycleCall.prog, stop, stopWorld_eq]
    refine wp_mono (wp_endingCall rfl fresh keyed (fun d => looks_attemptGracefulStop d worldId)
      operationId) fun r y h => ?_
    exact ⟨h.released, fun sid _ => h.tracked sid⟩
  | kill worldId actorType actorUserId =>
    simp only [LifecycleCall.prog, kill, killWorld_eq]
    refine wp_mono (wp_endingCall rfl fresh keyed looks_killProcess operationId) fun r y h => ?_
    exact ⟨h.released, fun sid _ => h.tracked sid⟩

end Calls

end McManager.Worlds
