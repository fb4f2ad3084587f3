import McManager.Guarantees.JsonRoundTrip
import McManager.Guarantees.Retention
import McManager.Services.PreviewRemovals
import McManager.Services.WorldFrames

/-! A cleanup removes what an earlier dry run has listed. -/

namespace McManager

open Framework

section Canonical

open Web

def CleanupCandidate.json (c : CleanupCandidate) : Json :=
  .obj [("artifact_id", .str c.artifactId), ("category", .str c.category),
    ("created_at", .int c.createdAt), ("storage_path", .str c.storagePath),
    ("world_id", c.worldId.elim .null .str)]

def CleanupSnapshot.json (s : CleanupSnapshot) : Json :=
  .obj [("keep_per_category", .int s.keepPerCategory), ("older_than_days", .int s.olderThanDays),
    ("scope", .str s.scope), ("targets", .arr (s.targets.map CleanupCandidate.json)),
    ("world_id", s.worldId.elim .null .str)]

/-- `json.dumps(snapshot, sort_keys=True, separators=(',', ':'))`. -/
def CleanupSnapshot.canonical (s : CleanupSnapshot) : String :=
  String.ofList (JsonText.render 0 s.json)

/-- `_preview_fingerprint` with `digest` for the hash. -/
def CleanupService.hashing (operations : OperationService) (digest : String → String) :
    CleanupService where
  operations := operations
  fingerprint s := digest s.canonical

theorem nullable_injective : Function.Injective fun id : Option String => id.elim Json.null .str := by
  intro id id' same
  cases id <;> cases id' <;> simp_all

theorem CleanupCandidate.json_injective : Function.Injective CleanupCandidate.json := by
  intro c c' same
  simp only [CleanupCandidate.json, Json.obj.injEq, List.cons.injEq, Prod.mk.injEq, Json.str.injEq,
    Json.int.injEq, true_and, and_true] at same
  obtain ⟨artifact, category, created, storage, world⟩ := same
  have world := nullable_injective world
  cases c
  cases c'
  simp_all

theorem CleanupSnapshot.json_injective : Function.Injective CleanupSnapshot.json := by
  intro s s' same
  simp only [CleanupSnapshot.json, Json.obj.injEq, List.cons.injEq, Prod.mk.injEq, Json.str.injEq,
    Json.int.injEq, Json.arr.injEq, true_and, and_true] at same
  obtain ⟨keeps, days, scope, targets, world⟩ := same
  have world := nullable_injective world
  have targets := CleanupCandidate.json_injective.list_map targets
  cases s
  cases s'
  simp_all

theorem sound_nullable (id : Option String) : JsonText.Sound (id.elim Json.null .str) := by
  cases id <;> simp [JsonText.Sound]

theorem CleanupCandidate.json_sound (c : CleanupCandidate) : JsonText.Sound c.json := by
  simp [CleanupCandidate.json, JsonText.Sound, JsonText.SoundMembers, sound_nullable]

theorem CleanupSnapshot.json_sound (s : CleanupSnapshot) : JsonText.Sound s.json := by
  have items : ∀ targets : List CleanupCandidate,
      JsonText.SoundItems (targets.map CleanupCandidate.json) := by
    intro targets
    induction targets with
    | nil => simp [JsonText.SoundItems]
    | cons c rest ih => simp [JsonText.SoundItems, CleanupCandidate.json_sound, ih]
  simp [CleanupSnapshot.json, JsonText.Sound, JsonText.SoundMembers, sound_nullable, items]

/-- The canonical text tells two snapshots apart. -/
theorem CleanupSnapshot.canonical_injective : Function.Injective CleanupSnapshot.canonical := by
  intro s s' same
  have texts : JsonText.render 0 s.json = JsonText.render 0 s'.json := String.ofList_injective same
  have read : JsonText.loads (JsonText.render 0 s.json) = some s.json :=
    JsonText.loads_render s.json s.json_sound
  have read' : JsonText.loads (JsonText.render 0 s'.json) = some s'.json :=
    JsonText.loads_render s'.json s'.json_sound
  rw [texts, read'] at read
  exact CleanupSnapshot.json_injective (Option.some.inj read).symm

end Canonical

namespace Cleanup

/-- The statement deletes no artifact and writes no previews but those in `W`. -/
def Harmless (W : String → Prop) (s : Stmt) : Prop := Spares s ∧ Writes W s

/-- The call deletes no artifact and writes no previews of its own. -/
def Outside (p : Prog Unit) : Prop := ∀ W, Issues (Known W) (Harmless W) p

theorem lives_harmless (W : String → Prop) : Lives (Known W) (Harmless W) (Vouched W) where
  known := records_writes.known
  notes := by
    intro s notes
    refine ⟨?_, records_writes.notes s notes⟩
    intro artifactId now deletedBy same
    rw [same] at notes
    cases notes
  insert := by
    intro row data
    refine ⟨?_, data⟩
    intro artifactId now deletedBy same
    cases same
  update := by
    intro opId status checkpoint startedAt finishedAt errorCode message result now data
    refine ⟨?_, data⟩
    intro artifactId at' deletedBy same
    cases same
  runs := by
    intro s runs
    cases s <;> cases runs
    all_goals
      refine ⟨?_, trivial⟩
      intro artifactId now deletedBy same
      cases same
  unasked := vouched_none
  session := by
    intro sessionId data same f carried
    cases same
    cases carried
  eula := by
    intro worldId data same f carried
    cases same
    cases carried

/-- To submit an operation, a cleanup among them, is no cleanup. -/
theorem outside_create (service : OperationService) {request : OperationInput}
    (plain : Vouched (fun _ => False) request.data) (initial : OperationStatus) (allow : Bool) :
    Outside ((Operations.createWithReplay service request initial allow).bind fun _ => .ret ()) := by
  intro W
  have data : Vouched W request.data := fun d there f carried => (plain d there f carried).elim
  exact Issues.bind (Operations.issues_createWithReplay (lives_harmless W).toRecords data)
    fun _ => trivial

/-- To start a world is none either. -/
theorem outside_start (worlds : WorldsService) (worldId : String) (actorType : ActorType)
    (userId : Option String) :
    Outside ((Worlds.start worlds worldId actorType userId).bind fun _ => .ret ()) := by
  intro W
  exact Issues.bind (Worlds.issues_start (lives_harmless W) ..) fun _ => trivial

/-- A cleanup, or any call that is none. -/
inductive PreviewCall
  | clean (request : CleanupRequest)
  | other (p : Prog Unit) (outside : Outside p)

def PreviewCall.program (svc : CleanupService) : PreviewCall → Prog Unit
  | clean request => (evaluateAndExecuteCleanup svc request).bind fun _ => .ret ()
  | other p _ => p

/-- The environment with the previews there are. -/
def recallingEnv (env : Env) (previews : Previews) : Env
  | _, _, .draw (.preview worldId scope) => previews.lookup (worldId, scope)
  | n, x, m => env n x m

theorem recallingEnv_allowed {env : Env} {C : Int → Prop} (ticks : ∀ n x, C (env n x (.draw .now)))
    (previews : Previews) (n : Nat) (x : Session) (m : Cmd Site Stmt Query) :
    (recalling C previews).allowed x m (recallingEnv env previews n x m) := by
  cases m with
  | draw q =>
    cases q with
    | now => exact ticks n x
    | preview worldId scope => exact rfl
    | _ => exact trivial
  | ask q => exact trivial
  | rollback => exact trivial
  | begin t => cases recallingEnv env previews n x (.begin t) <;> exact trivial
  | execute t s => cases recallingEnv env previews n x (.execute t s) <;> exact trivial
  | select t => cases recallingEnv env previews n x (.select t) <;> exact trivial
  | commit t => cases recallingEnv env previews n x (.commit t) <;> exact trivial
  | read t => cases recallingEnv env previews n x (.read t) <;> exact trivial

/-- The writer connection and the previews the process remembers. -/
structure House where
  conn : Connection Database
  previews : Previews

/-- One call of a run, what it meets, what the clock may read meanwhile, and whether the process
has been started again before it. -/
structure PreviewStep where
  restarted : Bool
  call : PreviewCall
  env : Env
  clock : Int → Prop
  ticks : ∀ n x, clock (env n x (.draw .now))

namespace PreviewStep

variable (svc : CleanupService)

/-- What a call finds: of a process that has ended, what it had committed. -/
def finds (s : PreviewStep) (h : House) : House :=
  if s.restarted then ⟨.closed h.conn.committed, []⟩ else h

/-- What comes of the call. -/
def outcome (h : House) (s : PreviewStep) : Except Exn Unit × Session :=
  run (recallingEnv s.env (s.finds h).previews) (s.call.program svc) ⟨(s.finds h).conn, []⟩

/-- Only a cleanup has `_previews`. -/
def added (h : House) (s : PreviewStep) : Previews :=
  match s.call with
  | .clean _ => remembered (outcome svc h s).2.log
  | .other _ _ => []

def serve (h : House) (s : PreviewStep) : House :=
  ⟨(outcome svc h s).2.conn, added svc h s ++ (s.finds h).previews⟩

/-- The steps one after the other. -/
def serveAll (steps : List PreviewStep) (h : House) : House := steps.foldl (serve svc) h

/-- The step is a dry run that has remembered the fingerprint of the snapshot. -/
structure Lists (h : House) (s : PreviewStep) (snapshot : CleanupSnapshot) : Prop where
  dry : ∃ request, s.call = .clean request ∧ request.dryRun = true ∧ ∃ t, s.clock t ∧
    snapshot = request.snapshot (candidatesAt request.policy t h.conn.committed)
  stored : ((snapshot.worldId, snapshot.scope), svc.fingerprint snapshot) ∈
    remembered (outcome svc h s).2.log

/-- Some step of a run is a dry run that has listed the snapshot. -/
def Listed (h : House) (steps : List PreviewStep) (snapshot : CleanupSnapshot) : Prop :=
  ∃ earlier dry later, steps = earlier ++ dry :: later ∧
    Lists svc (serveAll svc earlier h) dry snapshot

/-- The fingerprints of what the dry runs of a run have listed. -/
def Heard (h : House) (steps : List PreviewStep) (fingerprint : String) : Prop :=
  ∃ snapshot, Listed svc h steps snapshot ∧ svc.fingerprint snapshot = fingerprint

end PreviewStep

open PreviewStep

section Runs

variable {svc : CleanupService} {V : String → Prop} {h : House} {s : PreviewStep}

theorem outcome_of_triple {P : Session → Prop} {K : Unit → Session → Prop} {L : Exn → Session → Prop}
    (t : Triple (recalling s.clock (s.finds h).previews) P K L (s.call.program svc))
    (hx : P ⟨(s.finds h).conn, []⟩) : Ends K L (outcome svc h s).1 (outcome svc h s).2 :=
  run_of_wp (recallingEnv_allowed s.ticks _) (t _ hx)

/-- What every step of a run finds: every preview there is has its fingerprint in `V`. -/
structure Sound (V : String → Prop) (h : House) : Prop where
  stored : Stored ⟨h.conn, []⟩
  committed : Known V h.conn.committed
  seen : Known V h.conn.view
  previews : ∀ preview ∈ h.previews, V preview.2

theorem finds_committed : (s.finds h).conn.committed = h.conn.committed := by
  unfold finds
  split <;> rfl

theorem Sound.finds (sound : Sound V h) : Sound V (s.finds h) := by
  unfold PreviewStep.finds
  split
  · refine ⟨⟨sound.stored.unique, Kept.refl _⟩, sound.committed, sound.committed, ?_⟩
    intro preview mem
    cases mem
  · exact sound

/-- A dry run's fingerprint stands for what it has listed. -/
theorem lists_of_dry {request : CleanupRequest} (call : s.call = .clean request)
    {preview : (Option String × String) × String}
    (dry : Dry s.clock svc request (s.finds h).conn.committed preview)
    (mem : preview ∈ remembered (outcome svc h s).2.log) :
    ∃ snapshot, Lists svc h s snapshot ∧ svc.fingerprint snapshot = preview.2 := by
  obtain ⟨dry, t, clock, rfl⟩ := dry
  rw [finds_committed] at mem ⊢
  exact ⟨_, ⟨⟨request, call, dry, t, clock, rfl⟩, mem⟩, rfl⟩

theorem Sound.clean (sound : Sound V h) {request : CleanupRequest} (call : s.call = .clean request) :
    Sound (fun f => V f ∨ ∃ snapshot, Lists svc h s snapshot ∧ svc.fingerprint snapshot = f)
      (serve svc h s) := by
  have found : Sound V (s.finds h) := sound.finds
  have noted : Noted V (Dry s.clock svc request (s.finds h).conn.committed)
      (outcome svc h s).2 := by
    have triple : Triple (recalling s.clock (s.finds h).previews)
        (fun x => Noted V (Dry s.clock svc request (s.finds h).conn.committed) x ∧
          x.conn = (s.finds h).conn)
        (fun _ => Noted V (Dry s.clock svc request (s.finds h).conn.committed))
        (fun _ => Noted V (Dry s.clock svc request (s.finds h).conn.committed))
        (s.call.program svc) := by
      rw [call]
      exact Triple.bind (recalled noted_evaluateAndExecuteCleanup) fun _ =>
        Triple.ret fun _ hx => hx
    have start : Noted V (Dry s.clock svc request (s.finds h).conn.committed)
        ⟨(s.finds h).conn, []⟩ := by
      refine ⟨?_, found.committed.mono fun _ => .inl, found.seen.mono fun _ => .inl⟩
      intro preview mem
      cases mem
    have ends := outcome_of_triple triple ⟨start, rfl⟩
    cases result : (outcome svc h s).1 with
    | ok a => rwa [result] at ends
    | error e => rwa [result] at ends
  have left : Leaves s.clock (s.finds h).conn (outcome svc h s).2 := by
    have triple : Triple (recalling s.clock (s.finds h).previews) (fun x => x.conn = (s.finds h).conn)
        (fun _ => Leaves s.clock (s.finds h).conn) (fun _ => Leaves s.clock (s.finds h).conn)
        (s.call.program svc) := by
      rw [call]
      exact Triple.bind (recalled (triple_evaluateAndExecuteCleanup svc request)) fun _ =>
        Triple.ret fun _ hx => hx
    have ends := outcome_of_triple triple rfl
    cases result : (outcome svc h s).1 with
    | ok a => rwa [result] at ends
    | error e => rwa [result] at ends
  have kept := (left.kept found.stored).2
  have since : ∀ f, Since V (outcome svc h s).2.log f →
      V f ∨ ∃ snapshot, Lists svc h s snapshot ∧ svc.fingerprint snapshot = f := by
    intro f since
    obtain old | ⟨preview, mem, rfl⟩ := since
    · exact .inl old
    · exact .inr (lists_of_dry call (noted.heard preview mem) mem)
  refine ⟨⟨kept.unique, kept.pending⟩, noted.committed.mono since, noted.seen.mono since, ?_⟩
  intro preview mem
  obtain mem | mem := List.mem_append.mp mem
  · rw [added, call] at mem
    exact .inr (lists_of_dry call (noted.heard preview mem) mem)
  · exact .inl (found.previews preview mem)

theorem Sound.other (sound : Sound V h) {p : Prog Unit} {outside : Outside p}
    (call : s.call = .other p outside) : Sound V (serve svc h s) := by
  have found : Sound V (s.finds h) := sound.finds
  have step : ∀ (st : Stmt) d d' n, Harmless V st → Known V d → Store.apply st d = .ok (d', n) →
      Kept d d' ∧ Known V d' := fun st d d' n harmless known applied =>
    ⟨kept_apply harmless.1 applied, known_apply harmless.2 known applied⟩
  have chained : Chained Kept (Known V) (s.finds h).conn.committed (outcome svc h s).2.conn := by
    have triple : Triple (recalling s.clock (s.finds h).previews)
        (fun x => Chained Kept (Known V) (s.finds h).conn.committed x.conn)
        (fun _ x => Chained Kept (Known V) (s.finds h).conn.committed x.conn)
        (fun _ x => Chained Kept (Known V) (s.finds h).conn.committed x.conn)
        (s.call.program svc) := by
      rw [call]
      exact (outside V).keeps Kept.refl Kept.trans step _
    have ends := outcome_of_triple triple
      ⟨Kept.refl _, found.stored.pending, found.committed, found.seen⟩
    cases result : (outcome svc h s).1 with
    | ok a => rwa [result] at ends
    | error e => rwa [result] at ends
  obtain ⟨durable, pending, committed, seen⟩ := chained
  refine ⟨⟨durable.unique found.stored.unique, pending⟩, committed, seen, ?_⟩
  intro preview mem
  rw [serve, added, call] at mem
  exact found.previews preview mem

theorem Sound.mono {V' : String → Prop} (sound : Sound V h) (weaken : ∀ f, V f → V' f) :
    Sound V' h where
  stored := sound.stored
  committed := sound.committed.mono weaken
  seen := sound.seen.mono weaken
  previews := fun preview mem => weaken _ (sound.previews preview mem)

/-- Every preview of a run stands for what a dry run of it has listed. -/
theorem Sound.run (svc : CleanupService) (steps : List PreviewStep) {first : House}
    (start : Sound (fun _ => False) first) :
    Sound (Heard svc first steps) (serveAll svc steps first) := by
  induction steps using List.reverseRecOn with
  | nil => exact start.mono fun _ h => h.elim
  | append_singleton steps s ih =>
    have earlier : ∀ f, Heard svc first steps f → Heard svc first (steps ++ [s]) f := by
      intro f h
      obtain ⟨snapshot, ⟨before, dry, later, rfl, lists⟩, same⟩ := h
      exact ⟨snapshot, ⟨before, dry, later ++ [s], by simp, lists⟩, same⟩
    have served : serveAll svc (steps ++ [s]) first = serve svc (serveAll svc steps first) s := by
      rw [serveAll, List.foldl_append]
      rfl
    rw [served]
    cases call : s.call with
    | clean request =>
      refine (ih.clean call).mono ?_
      intro f h
      obtain old | ⟨snapshot, lists, same⟩ := h
      · exact earlier f old
      · exact ⟨snapshot, ⟨steps, s, [], rfl, lists⟩, same⟩
    | other p outside => exact (ih.other call).mono earlier

end Runs

/-- The targets of a wet run: what it finds to remove, and what a dry run of the same policy and
scope has listed before. -/
def Agreed (svc : CleanupService) (first : House) (earlier : List PreviewStep) (step : PreviewStep)
    (request : CleanupRequest) (targets : List CleanupCandidate) : Prop :=
  Listed svc first earlier (request.snapshot targets) ∧ ∃ t, step.clock t ∧
    targets = candidatesAt request.policy t (serveAll svc earlier first).conn.committed

/-- In every run a wet cleanup that returns has removed exactly what a dry run of the same policy
and scope had listed, and one that fails has removed that or nothing, and has no more than a part
of it in the transaction it leaves open. -/
theorem wet_removes_listed (operations : OperationService) {digest : String → String}
    (injective : Function.Injective digest) {db : Database} (unique : UniqueArtifacts db)
    (blank : Known (fun _ => False) db) (earlier : List PreviewStep) (step : PreviewStep)
    {request : CleanupRequest} (call : step.call = .clean request) (wet : request.dryRun = false) :
    let svc := CleanupService.hashing operations digest
    let first : House := ⟨.closed db, []⟩
    let before := serveAll svc earlier first
    let after := serve svc before step
    let agreed := Agreed svc first earlier step request
    (∀ u, (outcome svc before step).1 = .ok u →
      Exact agreed request.deletedBy before.conn.committed after.conn.committed) ∧
    ∀ e, (outcome svc before step).1 = .error e →
      (after.conn.committed.artifacts = before.conn.committed.artifacts ∨
        Exact agreed request.deletedBy before.conn.committed after.conn.committed) ∧
      (after.conn.view = (step.finds before).conn.view ∨
        after.conn.view.artifacts = before.conn.committed.artifacts ∨
        Part agreed request.deletedBy before.conn.committed after.conn.view) := by
  intro svc first before after agreed
  have start : Sound (fun _ => False) first := by
    refine ⟨⟨unique, Kept.refl db⟩, blank, blank, ?_⟩
    intro preview mem
    cases mem
  have sound := (Sound.run svc earlier start).finds (s := step)
  have triple : Triple (recalling step.clock (step.finds before).previews)
      (fun x => x.conn = (step.finds before).conn)
      (fun _ => Emptied (Targets (Heard svc first earlier) step.clock svc request (step.finds before).conn.committed)
        request.deletedBy (step.finds before).conn)
      (fun _ => Wet (Targets (Heard svc first earlier) step.clock svc request (step.finds before).conn.committed)
        request.deletedBy (step.finds before).conn)
      (step.call.program svc) := by
    rw [call]
    exact Triple.bind
      (wet_evaluateAndExecuteCleanup wet sound.stored.unique sound.committed sound.previews)
      fun _ => Triple.ret fun _ hx => hx
  have ends := outcome_of_triple triple rfl
  have meets : ∀ targets, Targets (Heard svc first earlier) step.clock svc request
      (step.finds before).conn.committed targets → agreed targets := by
    intro targets h
    obtain ⟨⟨snapshot, listed, same⟩, t, clock, found⟩ := h
    have texts : snapshot.canonical = (request.snapshot targets).canonical := injective same
    obtain rfl := CleanupSnapshot.canonical_injective texts
    rw [finds_committed] at found
    exact ⟨listed, t, clock, found⟩
  have exact : ∀ d, Exact (Targets (Heard svc first earlier) step.clock svc request
      (step.finds before).conn.committed)
      request.deletedBy (step.finds before).conn.committed d →
      Exact agreed request.deletedBy before.conn.committed d := by
    intro d h
    obtain ⟨targets, at', target, same⟩ := h
    rw [finds_committed] at same
    exact ⟨targets, at', meets targets target, same⟩
  have committed : (step.finds before).conn.committed = before.conn.committed := finds_committed
  refine ⟨?_, ?_⟩
  · intro u result
    rw [result] at ends
    obtain ⟨d, closed, done⟩ := ends
    have closed : after.conn = .closed d := closed
    rw [closed]
    exact exact d done
  · intro e result
    rw [result] at ends
    cases ends with
    | untouched same =>
      have same : after.conn = (step.finds before).conn := same
      rw [same, committed]
      exact ⟨.inl rfl, .inl rfl⟩
    | settled d closed ended =>
      have closed : after.conn = .closed d := closed
      rw [closed]
      obtain plain | done := ended
      · rw [committed] at plain
        exact ⟨.inl plain, .inr (.inl plain)⟩
      · exact ⟨.inr (exact d done), .inr (.inr (exact d done).part)⟩
    | pending same part =>
      obtain ⟨targets, ids, at', target, inside, marks⟩ := part
      rw [committed] at same marks
      exact ⟨.inl same, .inr (.inr ⟨targets, ids, at', meets targets target, inside, marks⟩)⟩

/-- Two cleanups of the world with five backups. -/
def twoCleanups : Database :=
  { fiveBackups with operations := [cleanup "dry", cleanup "wet"] }
where
  cleanup (opId : String) : Operation :=
    { opId, opType := .cleanup, worldId := some "w", actorType := .user
      actorUserId := none, idempotencyKey := none, status := .queued, checkpoint := none
      compensatesOperationId := none, intentAt := 0, startedAt := none, finishedAt := none
      errorCode := none, message := none, data := none, createdAt := 0, updatedAt := 0 }

/-- The cleanup of the world, asked for on the tenth day. -/
def onTenthDay (opId : String) (dryRun : Bool) : CleanupRequest where
  opId := opId
  dryRun := dryRun
  policy := ⟨3, 3, some "w"⟩
  elevatedConfirmation := false
  scope := "world:w"
  deletedBy := "u"
  dryRunOperationId := none

def PreviewStep.onTenthDay (opId : String) (dryRun : Bool) : PreviewStep where
  restarted := false
  call := .clean (Cleanup.onTenthDay opId dryRun)
  env := Env.steady fun
    | .now => (10 * daySeconds : Int)
    | q => q.smooth opId
  clock t := t = 10 * daySeconds
  ticks _ _ := rfl

abbrev tenthDayBegins : House := ⟨.closed twoCleanups, []⟩

abbrev tenthDayService : CleanupService := .hashing ⟨false, false⟩ id

theorem wet_removes_listed_tenthDay :
    (outcome tenthDayService (serveAll tenthDayService [.onTenthDay "dry" true] tenthDayBegins)
      (.onTenthDay "wet" false)).1.toBool = true ∧
    Exact (Agreed tenthDayService tenthDayBegins [.onTenthDay "dry" true] (.onTenthDay "wet" false)
        (onTenthDay "wet" false)) (onTenthDay "wet" false).deletedBy
      (serveAll tenthDayService [.onTenthDay "dry" true] tenthDayBegins).conn.committed
      (serve tenthDayService (serveAll tenthDayService [.onTenthDay "dry" true] tenthDayBegins)
        (.onTenthDay "wet" false)).conn.committed := by
  have unique : UniqueArtifacts twoCleanups := List.nodup_iff_pairwise_ne.mpr (by decide)
  have blank : Known (fun _ => False) twoCleanups := by
    intro op mem data carried
    obtain rfl | rfl : op = twoCleanups.cleanup "dry" ∨ op = twoCleanups.cleanup "wet" := by
      simpa [twoCleanups] using mem
    · cases carried
    · cases carried
  have call : (PreviewStep.onTenthDay "wet" false).call = .clean (onTenthDay "wet" false) := rfl
  obtain ⟨removes, -⟩ := wet_removes_listed ⟨false, false⟩ Function.injective_id unique blank
    [.onTenthDay "dry" true] (.onTenthDay "wet" false) call rfl
  have returned : (outcome tenthDayService (serveAll tenthDayService [.onTenthDay "dry" true]
      tenthDayBegins) (.onTenthDay "wet" false)).1.toBool = true := by
    decide +kernel
  refine ⟨returned, ?_⟩
  delta tenthDayService tenthDayBegins at returned ⊢
  revert returned removes
  generalize outcome _ _ _ = ended
  intro removes returned
  obtain ⟨ended, y⟩ := ended
  cases ended with
  | ok u => exact removes u rfl
  | error e => cases returned

end Cleanup

end McManager
