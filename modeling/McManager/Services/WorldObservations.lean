import McManager.Services.WorldEffects

namespace McManager.Worlds

open Framework Operations

/-- The places where a service reads through a connection of its own. -/
def reader : Site → Bool
  | .worldRead | .launchRead | .sessionRead | .operationRead => true
  | _ => false

/-- The questions of a lifecycle call, which leaves backups and edited files alone. -/
def lifecycle : Query → Bool
  | .archive _ _ | .writeArchive _ | .fileEdit _ | .mutationLock => false
  | _ => true

/-- Those whose answers no later decision turns on, or only the decision how to go on
asking. -/
def passing : Query → Bool
  | .launchCommand _ _ | .spawn _ _ _ _ | .encrypt _ => false
  | q => lifecycle q

/-- Every exception the result may be is one of `P`. -/
def Errs {α : Type} (P : Exn → Prop) (r : Except Exn α) : Prop := ∀ e, r = .error e → P e

/-- The program only looks, and the exceptions it raises are of `P`. -/
abbrev Looks {α : Type} (db : Database) (P : Exn → Prop) (p : Prog α) : Prop :=
  Observes db (fun t => reader t = true) (fun q => passing q = true) (Errs P) p

/-- An exception of the outside world. -/
def External (e : Exn) : Prop := ∃ φ, e = .external φ

section Rules

variable {db : Database} {P : Exn → Prop} {α β : Type}

theorem looks_ret (a : α) : Looks db P (.ret a) :=
  observes_ret (fun e h => by cases h)

theorem looks_raise {e : Exn} (h : P e) : Looks db P (.raise e : Prog α) :=
  observes_raise (fun e' he => by cases he; exact h)

theorem looks_ask {q : Query} (external : ∀ φ, P (.external φ)) (silent : passing q = true) :
    Looks db P (ask q) :=
  observes_ask silent (fun a e h => by cases h) (fun φ e h => by cases h; exact external φ)

theorem looks_draw (q : Query) : Looks db P (draw q) :=
  observes_draw (fun a e h => by cases h)

theorem looks_read {t : Site} {f : Database → α} (external : ∀ φ, P (.external φ))
    (silent : reader t = true) : Looks db P (read t f) :=
  observes_read silent (fun e h => by cases h) (fun φ e h => by cases h; exact external φ)

theorem looks_bind {p : Prog α} {f : α → Prog β} (first : Looks db P p)
    (next : ∀ a, Looks db P (f a)) : Looks db P (p.bind f) :=
  Observes.bind first (fun a _ => next a) (fun e h e' he => by cases he; exact h e rfl)

theorem looks_handle {p : Prog α} {h : Exn → Prog α} (first : Looks db P p)
    (caught : ∀ e, P e → Looks db P (h e)) : Looks db P (p.handle h) :=
  Observes.handle first (fun a _ e he => by cases he) (fun e he => caught e (he e rfl))

theorem looks_rescueRcon {p recover : Prog α} (first : Looks db P p)
    (caught : Looks db P recover) : Looks db P (rescueRcon p recover) := by
  refine looks_handle first ?_
  intro e he
  split
  · exact caught
  · exact looks_raise he

end Rules

/-- What a reader of the world's row comes back with. -/
theorem observes_world {db : Database} {worldId : String} {w : World}
    (hw : db.world? worldId = some w) :
    Observes db (fun t => reader t = true) (fun q => passing q = true)
      (fun r => r = .ok w ∨ ∃ φ, r = .error (.external φ)) (world worldId) := by
  unfold world
  refine Observes.bind (observes_read (R := fun r => r = .ok (some w) ∨
    ∃ φ, r = .error (.external φ)) rfl (.inl (congrArg _ hw)) (fun φ => .inr ⟨φ, rfl⟩)) ?_ ?_
  · rintro row (h | ⟨φ, h⟩)
    · cases h
      exact observes_ret (.inl rfl)
    · cases h
  · rintro e (h | ⟨φ, h⟩)
    · cases h
    · cases h
      exact .inr ⟨φ, rfl⟩

/-- A reader of a world's row comes back with the row or raises. -/
theorem observes_row (db : Database) (worldId : String) :
    Observes db (fun t => reader t = true) (fun q => passing q = true)
      (fun r => ∀ w, r = .ok w → db.world? worldId = some w) (world worldId) := by
  unfold world
  refine Observes.bind (observes_read (R := fun r => ∀ row, r = .ok row →
    row = db.world? worldId) rfl (fun row h => (Except.ok.inj h).symm) (fun φ row h => nomatch h)) ?_ ?_
  · intro row h
    have h := h row rfl
    cases row with
    | none => exact observes_raise (fun w h => nomatch h)
    | some w =>
      refine observes_ret fun w' hw' => ?_
      rw [← Except.ok.inj hw', h]
  · exact fun e _ w h => nomatch h

/-- The java runtime of a world is on record. -/
def HasJava (db : Database) (w : World) : Prop :=
  (db.javaRuntimes.find? (·.runtimeId == w.javaRuntimeId)).isSome = true

theorem observes_launchContext (db : Database) (w : World) :
    Observes db (fun t => reader t = true) (fun q => passing q = true)
      (fun r => (∀ c, r = .ok c → HasJava db w) ∧ ∀ e, r = .error e → HasJava db w → External e)
      (launchContext w) := by
  unfold launchContext
  have found : ∀ {o : Option JavaRuntime} {javaPath : String},
      o.map (·.executablePath) = some javaPath → o.isSome = true := by
    intro o javaPath h
    cases o with
    | none => cases h
    | some _ => rfl
  refine Observes.bind (observes_read (R := fun r =>
    (∀ p, r = .ok (some p) → HasJava db w) ∧ (r = .ok none → ¬HasJava db w) ∧
      ∀ e, r = .error e → External e) rfl ?_ ?_) ?_ ?_
  · refine ⟨fun p h => found (Except.ok.inj h), ?_, fun e h => (nomatch h)⟩
    intro h hjava
    have hnone := Option.map_eq_none_iff.mp (Except.ok.inj h)
    rw [HasJava, hnone] at hjava
    cases hjava
  · intro φ
    refine ⟨fun p h => (nomatch h), fun h => (nomatch h), ?_⟩
    rintro e h
    cases h
    exact ⟨φ, rfl⟩
  · rintro (_ | javaPath) ⟨hsome, hnone, -⟩
    · exact observes_raise ⟨fun c h => (nomatch h), fun e _ hjava => absurd hjava (hnone rfl)⟩
    · refine observes_ask rfl (fun a => ⟨fun c _ => hsome _ rfl, fun e h => (nomatch h)⟩) ?_
      intro φ
      refine ⟨fun c h => (nomatch h), ?_⟩
      rintro e h -
      cases h
      exact ⟨φ, rfl⟩
  · rintro e ⟨-, -, h⟩
    refine ⟨fun c h => (nomatch h), ?_⟩
    rintro e' he' -
    cases he'
    exact h e rfl

theorem looks_validateLaunch (db : Database) (w : World) (context : LaunchContext) :
    Looks db External (validateLaunch w context) := by
  have external : ∀ φ, External (.external φ) := fun φ => ⟨φ, rfl⟩
  unfold validateLaunch
  refine looks_bind (looks_ask external rfl) fun eulaState => ?_
  split
  · exact looks_ret _
  · refine looks_bind (looks_read external rfl) fun audited => ?_
    split
    · exact looks_ask external rfl
    · exact looks_ret _

/-- What waiting for readiness may raise. -/
def Waited (e : Exn) : Prop := External e ∨ ∃ text, e = .startTimeout text

private theorem waited_external (φ : Fault) : Waited (.external φ) := .inl ⟨φ, rfl⟩

theorem looks_operational (db : Database) (port : Int) (commands : List String) :
    Looks db Waited (operational port commands) := by
  induction commands with
  | nil => exact looks_ret _
  | cons command rest ih =>
    refine looks_bind (looks_ask waited_external rfl) fun answered => ?_
    split
    · exact ih
    · exact looks_ret _

theorem looks_rconRound (db : Database) (port : Int) (target : ReadinessTarget)
    (rcon : RconProgress) : Looks db Waited (rconRound port target rcon) := by
  have ask' : ∀ q, passing q = true → Looks db Waited (ask q) := fun q h => looks_ask waited_external h
  have last : ∀ rcon : RconProgress, Looks db Waited
      (if rcon.connected && rcon.ready && !target.commands.isEmpty then
        rescueRcon (do
          let valid ← operational port target.commands
          pure { rcon with valid })
          (pure { rcon with valid := false })
      else pure rcon) := by
    intro rcon
    split
    · exact looks_rescueRcon (looks_bind (looks_operational db port _) fun _ => looks_ret _)
        (looks_ret _)
    · exact looks_ret _
  have shut : ∀ rcon : RconProgress, Looks db Waited (do
      let _ ← ask (.rconClose port)
      pure rcon) := fun rcon => looks_bind (ask' _ rfl) fun _ => looks_ret _
  unfold rconRound
  dsimp only
  split
  · refine looks_bind (ask' _ rfl) fun _ => looks_bind (looks_rescueRcon ?_ (shut _)) last
    exact looks_bind (ask' _ rfl) fun _ => looks_bind (ask' _ rfl) fun _ => looks_ret _
  · split
    · refine looks_bind (looks_rescueRcon ?_ (shut _)) last
      exact looks_bind (ask' _ rfl) fun _ => looks_ret _
    · exact last rcon

theorem looks_closeRcon (db : Database) (port : Int) (rcon : RconProgress) :
    Looks db Waited (closeRcon port rcon) := by
  unfold closeRcon
  split
  · exact looks_ask waited_external rfl
  · exact looks_ret _

theorem looks_teardown (db : Database) (handle : ProcessHandle) (gracefulDeadline : Nat) :
    Looks db Waited (teardown handle gracefulDeadline) := by
  refine looks_bind (looks_handle ?_ fun e he => ?_) fun _ => looks_ask waited_external rfl
  · exact looks_bind (looks_ask waited_external rfl) fun _ => looks_ret _
  · exact looks_bind (looks_ask waited_external rfl) fun _ => looks_raise he

/-- The end of a round of the wait, before the rounds that are left. -/
theorem looks_lastProbe {db : Database} {w : World} {port : Int}
    {next : RconProgress → Prog String} (rest : ∀ rcon, Looks db Waited (next rcon))
    (rcon : RconProgress) : Looks db Waited (do
      let reached ← ask (.readiness w rcon.ready rcon.valid)
      match reached with
      | some level => do
        closeRcon port rcon
        pure level
      | none => next rcon) := by
  refine looks_bind (looks_ask waited_external rfl) fun reached => ?_
  split
  · exact looks_bind (looks_closeRcon db port rcon) fun _ => looks_ret _
  · exact rest rcon

/-- Waiting for readiness only asks, and ends in a level, a timeout or an outside failure. -/
theorem looks_awaitReadiness (db : Database) (w : World) (handle : ProcessHandle) (port : Int)
    (password : String) : Looks db Waited (awaitReadiness w handle port password) := by
  have timeout : ∀ text, Waited (.startTimeout text) := fun text => .inr ⟨text, rfl⟩
  have rounds : ∀ target n rcon, Looks db Waited
      (awaitRounds w handle port password target n rcon) := by
    intro target n
    induction n with
    | zero =>
      intro rcon
      exact looks_bind (looks_closeRcon db port rcon) fun _ =>
        looks_bind (looks_teardown db handle 0) fun _ => looks_raise (timeout _)
    | succ n ih =>
      intro rcon
      refine looks_bind (looks_ask waited_external rfl) fun status => ?_
      split
      · exact looks_raise (timeout _)
      · split
        · exact looks_bind (looks_rconRound db port target rcon) (looks_lastProbe ih)
        · exact looks_lastProbe ih rcon
  exact looks_bind (looks_draw _) fun target => looks_bind (looks_draw _) fun n => rounds target n {}

end McManager.Worlds
