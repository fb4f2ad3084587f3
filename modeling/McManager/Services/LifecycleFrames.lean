import McManager.Framework.Triples
import McManager.Services.LifecycleRuns

namespace McManager.Worlds

open Framework Operations

/-- What a lifecycle call on a world writes for the operations `works` names, and what it puts on
record, keep `K`. Storing a session may leave `L`, which the failed operation mends. -/
structure Frame (E : Scope) (svc : WorldsService) (worldId : String) (works : String → Prop)
    (K : Session → Prop) (L : Exn → Session → Prop) : Prop where
  noted : ∀ x n, K x → n.Observed (fun t => reader t = true) (fun q => lifecycle q = true) →
    K ⟨x.conn, x.log ++ [n]⟩
  milestone : ∀ opId status m, works opId →
    Triple E K (fun _ => K) (fun _ => K) (Operations.transition svc.operations opId status m)
  entered : ∀ state, Triple E K (fun _ => K) (fun _ => K) (setWorldState worldId state)
  closed : ∀ reason, Triple E K (fun _ => K) (fun _ => K) (closeSession worldId reason)
  opened : ∀ (w : World) (context : LaunchContext) (handle : ProcessHandle) (argv : List String)
    (password sessionId : String), w.worldId = worldId →
    Triple E K (fun _ => K) L (openSession w context handle argv password sessionId)
  left : ∀ e x, K x → L e x
  whole : ∀ e x, L e x → e.isWorldLifecycle = true → K x
  mended : ∀ opId e code message, works opId →
    Triple E (L e) (fun _ => K) (fun _ => K) (failOp svc opId code message)

namespace Frame

variable {E : Scope} {svc : WorldsService} {worldId opId : String} {works : String → Prop}
  {K : Session → Prop} {L : Exn → Session → Prop} {α β : Type}

theorem quiet (frame : Frame E svc worldId works K L) (x : Session) (l : Log) (hx : K x)
    (hl : ∀ n ∈ l, n.Observed (fun t => reader t = true) (fun q => passing q = true)) :
    K ⟨x.conn, x.log ++ l⟩ := by
  induction l generalizing x with
  | nil => simpa using hx
  | cons n l ih =>
    have hn : n.Observed (fun t => reader t = true) (fun q => lifecycle q = true) := by
      have hn := hl n (List.mem_cons_self ..)
      cases n with
      | failed t => exact hn
      | committed t => exact hn
      | answered q o =>
        simp only [Note.Observed] at hn ⊢
        cases q <;> first | exact hn | cases hn
    have rest := ih ⟨x.conn, x.log ++ [n]⟩ (frame.noted x n hx hn) fun m hm =>
      hl m (List.mem_cons_of_mem n hm)
    simpa using rest

theorem looks (frame : Frame E svc worldId works K L) {P : Exn → Prop} {p : Prog α}
    (h : ∀ d, Looks d P p) : Triple E K (fun _ => K) (fun _ => K) p :=
  Triple.observes h frame.quiet fun _ _ hx => hx

theorem ask (frame : Frame E svc worldId works K L) (q : Query) (hq : lifecycle q = true) :
    Triple E K (fun _ => K) (fun _ => K) (McManager.ask q) := by
  apply Triple.ask
  · intro x a hx
    exact frame.noted x _ hx hq
  · intro x φ hx
    exact frame.noted x _ hx hq

theorem world (frame : Frame E svc worldId works K L) (id : String) :
    Triple E K (fun w x => K x ∧ w.worldId = id) (fun _ => K) (Worlds.world id) := by
  intro x hx
  refine wp_observes (observes_row x.conn.committed id) ?_
  intro r l hr hl
  have kept := frame.quiet x l hx hl
  cases r with
  | error e => exact kept
  | ok w =>
    have hw := List.find?_some (hr w rfl)
    exact ⟨kept, by simpa using hw⟩

theorem refuse (e : Exn) : Triple E K (fun _ => K) (fun _ => K) (.raise e : Prog α) :=
  Triple.raise fun _ hx => hx

theorem done (a : α) : Triple E K (fun _ => K) (fun _ => K) (.ret a : Prog α) :=
  Triple.ret fun _ hx => hx

/-- Beside storing a session nothing needs mending. -/
theorem inner (frame : Frame E svc worldId works K L) {p : Prog α}
    (h : Triple E K (fun _ => K) (fun _ => K) p) : Triple E K (fun _ => K) L p :=
  h.mono (fun _ hx => hx) (fun _ _ hx => hx) frame.left

theorem failed (frame : Frame E svc worldId works K L) (hop : works opId) (code : String)
    (message : Option String) :
    Triple E K (fun _ => K) (fun _ => K) (failOp svc opId code message) := by
  have mended := frame.mended opId (.keyError "") code message hop
  exact mended.mono (frame.left _) (fun _ _ hx => hx) fun _ _ hx => hx

theorem refuseBusy (w : World) : Triple E K (fun _ => K) (fun _ => K) (refuseBusy w) := by
  unfold Worlds.refuseBusy
  split
  · exact refuse _
  · exact done _

theorem launchContext (frame : Frame E svc worldId works K L) (w : World) :
    Triple E K (fun _ => K) (fun _ => K) (launchContext w) :=
  Triple.observes (fun d => observes_launchContext d w) frame.quiet fun _ _ hx => hx

theorem validateLaunch (frame : Frame E svc worldId works K L) (w : World)
    (context : LaunchContext) :
    Triple E K (fun _ => K) (fun _ => K) (validateLaunch w context) :=
  frame.looks fun d => looks_validateLaunch d w context

theorem preflight (frame : Frame E svc worldId works K L) :
    Triple E K (fun _ => K) (fun _ => K) (preflight worldId) := by
  unfold Worlds.preflight
  apply Triple.bind (frame.world worldId)
  intro w
  apply Triple.bind ((refuseBusy w).mono (fun x hx => hx.1) (fun _ _ h => h) fun _ _ h => h)
  intro _
  apply Triple.bind (frame.launchContext w)
  intro context
  apply Triple.bind (frame.validateLaunch w context)
  intro gate
  split
  · exact done _
  · dsimp only
    split
    · exact Triple.bind (frame.entered _) fun _ => refuse _
    · exact refuse _

theorem launchGate (frame : Frame E svc worldId works K L) (hop : works opId) (w : World)
    (context : LaunchContext) :
    Triple E K (fun _ => K) (fun _ => K) (launchGate svc worldId opId w context) := by
  unfold Worlds.launchGate
  apply Triple.bind (frame.validateLaunch w context)
  intro gate
  split
  · exact done _
  · apply Triple.bind (frame.failed hop _ _)
    intro _
    exact Triple.bind (frame.entered _) fun _ => refuse _

theorem supervise (frame : Frame E svc worldId works K L) (hop : works opId) (w : World)
    (hw : w.worldId = worldId) (context : LaunchContext) (argv : List String)
    (password sessionId : String) (handle : ProcessHandle) :
    Triple E K (fun _ => K) L
      (supervise svc worldId opId w context argv password sessionId handle) := by
  have awaited := Triple.bind
    (frame.looks fun d => looks_awaitReadiness d w handle context.rconPort password)
    fun readiness => Triple.bind (frame.entered .running) fun _ =>
      Triple.bind (frame.milestone opId .completed {
        checkpoint := some {
          stage := "running", readiness := some readiness, sessionId := some sessionId }
        data := some { sessionId := some sessionId } } hop) fun _ => done sessionId
  unfold Worlds.supervise
  apply Triple.bind (frame.opened w context handle argv password sessionId hw)
  intro _
  apply frame.inner
  dsimp only
  split
  · exact Triple.bind (frame.ask _ rfl) fun _ => awaited
  · exact awaited

theorem launch (frame : Frame E svc worldId works K L) (hop : works opId) :
    Triple E K (fun _ => K) L (launch svc worldId opId) := by
  unfold Worlds.launch
  apply Triple.bind (frame.inner (frame.milestone opId _ _ hop))
  intro _
  apply Triple.bind ((frame.world worldId).mono (fun _ hx => hx) (fun _ _ hx => hx) frame.left)
  intro w x ⟨hx, hw⟩
  revert x hx
  change Triple E K (fun _ => K) L _
  split
  · apply frame.inner
    exact Triple.bind (frame.milestone opId _ _ hop) fun _ => refuse _
  · apply Triple.bind (frame.inner (frame.launchContext w))
    intro context
    apply Triple.bind (frame.inner (frame.launchGate hop w context))
    intro _
    apply Triple.bind (frame.inner (frame.ask _ rfl))
    intro password
    apply Triple.bind (frame.inner (frame.ask _ rfl))
    intro argv
    apply Triple.bind (Triple.draw fun x a hx _ => hx)
    intro sessionId
    apply Triple.bind (frame.inner (frame.entered .queued))
    intro _
    apply Triple.bind (frame.inner (frame.entered .starting))
    intro _
    apply Triple.bind (frame.inner (frame.ask _ rfl))
    intro result
    split
    · apply frame.inner
      apply Triple.bind (frame.failed hop _ _)
      intro _
      exact Triple.bind (frame.entered _) fun _ => refuse _
    · exact frame.supervise hop w hw context argv password sessionId _

theorem launchFailed (frame : Frame E svc worldId works K L) (hop : works opId) (e : Exn) :
    Triple E (L e) (fun _ => K) (fun _ => K) (launchFailed svc worldId opId e) := by
  unfold Worlds.launchFailed
  split
  · apply Triple.bind ((frame.closed .crashed).mono (fun x hx => frame.whole _ x hx rfl)
      (fun _ _ hx => hx) fun _ _ hx => hx)
    intro _
    apply Triple.bind (frame.entered .error)
    intro _
    exact Triple.bind (frame.milestone opId _ _ hop) fun _ => refuse _
  · split
    · rename_i lifecycle
      exact Triple.raise fun x hx => frame.whole _ x hx lifecycle
    · apply Triple.bind (frame.mended opId _ _ _ hop)
      intro _
      exact Triple.bind (frame.entered _) fun _ => refuse _

/-- A start keeps what its writes keep, given the operation it works for. -/
theorem start (frame : Frame E svc worldId works K L) {actorType : ActorType}
    {actorUserId operationId : Option String} {allow : Bool}
    (hop : Triple E K (fun opId x => K x ∧ works opId) (fun _ => K)
      (operationFor svc .start worldId actorType actorUserId allow operationId)) :
    Triple E K (fun _ => K) (fun _ => K)
      (start svc worldId actorType actorUserId allow operationId) := by
  unfold Worlds.start
  apply Triple.bind frame.preflight
  intro _
  apply Triple.bind hop
  intro opId x ⟨hx, hworks⟩
  exact Triple.handle (frame.launch hworks) (frame.launchFailed hworks) x hx

theorem ending (frame : Frame E svc worldId works K L) (hop : works opId) {stage : Checkpoint}
    {P : Exn → Prop} {p : Prog α} (looks : ∀ d, Looks d P p) (reason : α → EndReason)
    (last : α → Checkpoint) :
    Triple E K (fun _ => K) (fun _ => K) (ending svc worldId opId stage p reason last) := by
  unfold Worlds.ending
  apply Triple.bind (frame.milestone opId _ _ hop)
  intro _
  apply Triple.bind (frame.entered .stopping)
  intro _
  apply Triple.bind (frame.looks looks)
  intro a
  apply Triple.bind (frame.closed (reason a))
  intro _
  apply Triple.bind (frame.entered .off)
  intro _
  exact Triple.bind (frame.milestone opId _ _ hop) fun _ => done _

/-- A stop or a kill keeps what its writes keep, given the operation it works for. -/
theorem endingCall (frame : Frame E svc worldId works K L) {opType : OperationType}
    {actorType : ActorType} {actorUserId operationId : Option String}
    (hop : Triple E K (fun opId x => K x ∧ works opId) (fun _ => K)
      (operationFor svc opType worldId actorType actorUserId false operationId))
    {stage : Checkpoint} {P : Exn → Prop} {p : Prog α} (looks : ∀ d, Looks d P p)
    (reason : α → EndReason) (last : α → Checkpoint) (code : String) :
    Triple E K (fun _ => K) (fun _ => K) ((Worlds.world worldId).bind fun _ =>
      (operationFor svc opType worldId actorType actorUserId false operationId).bind fun opId =>
        (Worlds.ending svc worldId opId stage p reason last).handle (endFailed svc opId code)) := by
  apply Triple.bind (frame.world worldId)
  intro w
  apply Triple.bind (hop.mono (fun x hx => hx.1) (fun _ _ h => h) fun _ _ h => h)
  intro opId x ⟨hx, hworks⟩
  have failed : ∀ e, Triple E K (fun _ => K) (fun _ => K) (endFailed svc opId code e) := by
    intro e
    exact Triple.bind (frame.failed hworks _ _) fun _ => refuse _
  exact Triple.handle (frame.ending hworks looks reason last) failed x hx

theorem stop (frame : Frame E svc worldId works K L) {actorType : ActorType}
    {actorUserId operationId : Option String}
    (hop : Triple E K (fun opId x => K x ∧ works opId) (fun _ => K)
      (operationFor svc .stop worldId actorType actorUserId false operationId)) :
    Triple E K (fun _ => K) (fun _ => K) (stop svc worldId actorType actorUserId operationId) := by
  simp only [Worlds.stop, stopWorld_eq]
  exact frame.endingCall hop (fun d => looks_attemptGracefulStop d worldId) _ _ _

theorem kill (frame : Frame E svc worldId works K L) {actorType : ActorType}
    {actorUserId operationId : Option String}
    (hop : Triple E K (fun opId x => K x ∧ works opId) (fun _ => K)
      (operationFor svc .kill worldId actorType actorUserId false operationId)) :
    Triple E K (fun _ => K) (fun _ => K) (kill svc worldId actorType actorUserId operationId) := by
  simp only [Worlds.kill, killWorld_eq]
  exact frame.endingCall hop looks_killProcess _ _ _

end Frame

end McManager.Worlds
