import McManager.Framework.Sequential
import McManager.Services.OperationEffects

namespace McManager

open Framework

/-- What the environment may do in the runs of a statement. -/
abbrev Scope := Framework.Scope Site Query Fault Answer Database

namespace Operations

section Rules

variable {E : Scope} {db : Database} {log : Log}

theorem wp_publishTerminal {svc : OperationService} {Q : Except Exn Unit → Session → Prop}
    (done : Q (.ok ()) ⟨.closed db, log⟩)
    (fault : ∀ φ, E.fails .publishRead φ →
      Q (.error (.external φ)) ⟨.closed db, log ++ [.failed .publishRead]⟩) :
    wp E Q (publishTerminal svc) ⟨.closed db, log⟩ := by
  unfold publishTerminal
  split
  · exact wp_read done fault
  · exact done

theorem wp_publishTerminals {svc : OperationService} {Q : Except Exn Unit → Session → Prop}
    (ops : List Operation) (done : Q (.ok ()) ⟨.closed db, log⟩)
    (fault : ∀ φ, E.fails .publishRead φ →
      Q (.error (.external φ)) ⟨.closed db, log ++ [.failed .publishRead]⟩) :
    wp E Q (Program.each (fun _ => publishTerminal svc) ops) ⟨.closed db, log⟩ := by
  induction ops with
  | nil => exact done
  | cons op ops ih =>
    rw [Program.each, wp_bind]
    exact wp_publishTerminal ih fault

/-- `create_with_replay` takes effect by one transaction; a failure before its commit leaves
no trace, and one after it only keeps the caller from the reply. -/
theorem wp_createWithReplay {svc : OperationService} {request : OperationInput}
    {initial : OperationStatus} {allow : Bool}
    {Q : Except Exn (Operation × Bool) → Session → Prop}
    (done : ∀ opId auditIds now op cancelled replayed db',
      E.draws ⟨.closed db, log⟩ (.uuid "op") opId → (createBlock request initial allow
        opId auditIds now).eval db = .ok ((op, cancelled, replayed), db') →
      Q (.ok (op, replayed)) ⟨.closed db', log ++ [.committed .create]⟩ ∧
      ∀ φ, E.fails .publishRead φ → Q (.error (.external φ))
        ⟨.closed db', log ++ [.committed .create] ++ [.failed .publishRead]⟩)
    (refused : ∀ opId auditIds now e, E.draws ⟨.closed db, log⟩ (.uuid "op") opId →
      (createBlock request initial allow opId auditIds now).eval db = .error e →
      Q (.error e) ⟨.closed db, log⟩)
    (fault : ∀ φ, E.fails .create φ →
      Q (.error (.external φ)) ⟨.closed db, log ++ [.failed .create]⟩) :
    wp E Q (createWithReplay svc request initial allow) ⟨.closed db, log⟩ := by
  unfold createWithReplay
  simp only [Program.bind_eq]
  refine wp_draw_bind fun now _ => wp_draw_bind fun opId hopId => wp_draw_bind fun auditIds _ => ?_
  rw [wp_bind]
  refine wp_transaction ?_ (fun e => refused opId auditIds now e hopId) fault
  rintro ⟨op, cancelled, replayed⟩ db' h
  obtain ⟨hdone, hfault⟩ := done opId auditIds now op cancelled replayed db' hopId h
  dsimp only
  rw [wp_bind]
  refine wp_publishTerminals cancelled ?_ hfault
  dsimp only
  split
  · rw [wp_bind]
    exact wp_read hdone hfault
  · exact hdone

theorem wp_create {svc : OperationService} {request : OperationInput}
    {initial : OperationStatus} {allow : Bool} {Q : Except Exn Operation → Session → Prop}
    (done : ∀ opId auditIds now op cancelled replayed db',
      E.draws ⟨.closed db, log⟩ (.uuid "op") opId → (createBlock request initial allow
        opId auditIds now).eval db = .ok ((op, cancelled, replayed), db') →
      Q (.ok op) ⟨.closed db', log ++ [.committed .create]⟩ ∧
      ∀ φ, E.fails .publishRead φ → Q (.error (.external φ))
        ⟨.closed db', log ++ [.committed .create] ++ [.failed .publishRead]⟩)
    (refused : ∀ opId auditIds now e, E.draws ⟨.closed db, log⟩ (.uuid "op") opId →
      (createBlock request initial allow opId auditIds now).eval db = .error e →
      Q (.error e) ⟨.closed db, log⟩)
    (fault : ∀ φ, E.fails .create φ →
      Q (.error (.external φ)) ⟨.closed db, log ++ [.failed .create]⟩) :
    wp E Q (create svc request initial allow) ⟨.closed db, log⟩ := by
  unfold create
  simp only [Program.bind_eq]
  rw [wp_bind]
  exact wp_createWithReplay done refused fault

/-- `claim_queued` takes effect by one transaction. -/
theorem wp_claimQueued {opId : String} {Q : Except Exn (Option Operation) → Session → Prop}
    (done : ∀ now r db', (claimBlock opId now).eval db = .ok (r, db') →
      Q (.ok r) ⟨.closed db', log ++ [.committed .claim]⟩)
    (refused : ∀ now e, (claimBlock opId now).eval db = .error e →
      Q (.error e) ⟨.closed db, log⟩)
    (fault : ∀ φ, E.fails .claim φ →
      Q (.error (.external φ)) ⟨.closed db, log ++ [.failed .claim]⟩) :
    wp E Q (claimQueued opId) ⟨.closed db, log⟩ := by
  unfold claimQueued
  simp only [Program.bind_eq]
  exact wp_draw_bind fun now _ => wp_transaction (done now) (refused now) fault

/-- `transition` takes effect by one transaction. -/
theorem wp_transition_drawn {svc : OperationService} {opId : String} {status : OperationStatus}
    {m : Milestone} {Q : Except Exn Operation → Session → Prop}
    (done : ∀ cached now auditId notificationId notifiedAt op db',
      E.draws ⟨.closed db, log⟩ (.cachedCheckpoint opId) cached → (transitionBlock svc opId status
        m cached now auditId notificationId notifiedAt).eval db = .ok (op, db') →
      Q (.ok op) ⟨.closed db', log ++ [.committed (.transition status)]⟩ ∧
      ∀ φ, E.fails .publishRead φ → Q (.error (.external φ))
        ⟨.closed db', log ++ [.committed (.transition status)] ++ [.failed .publishRead]⟩)
    (refused : ∀ cached now auditId notificationId notifiedAt e, (transitionBlock svc opId status
        m cached now auditId notificationId notifiedAt).eval db = .error e →
      Q (.error e) ⟨.closed db, log⟩)
    (fault : ∀ φ, E.fails (.transition status) φ →
      Q (.error (.external φ)) ⟨.closed db, log ++ [.failed (.transition status)]⟩) :
    wp E Q (transition svc opId status m) ⟨.closed db, log⟩ := by
  unfold transition
  simp only [Program.bind_eq]
  refine wp_draw_bind fun now _ => wp_draw_bind fun cached hcached => wp_draw_bind fun auditId _ =>
    wp_draw_bind fun notificationId _ => wp_draw_bind fun notifiedAt _ => ?_
  rw [wp_bind]
  refine wp_transaction ?_ (refused cached now auditId notificationId notifiedAt) fault
  intro op db' h
  obtain ⟨hdone, hfault⟩ := done cached now auditId notificationId notifiedAt op db' hcached h
  dsimp only
  split
  · rw [wp_bind]
    exact wp_publishTerminal hdone hfault
  · exact hdone

theorem wp_transition {svc : OperationService} {opId : String} {status : OperationStatus}
    {m : Milestone} {Q : Except Exn Operation → Session → Prop}
    (done : ∀ cached now auditId notificationId notifiedAt op db', (transitionBlock svc opId status
        m cached now auditId notificationId notifiedAt).eval db = .ok (op, db') →
      Q (.ok op) ⟨.closed db', log ++ [.committed (.transition status)]⟩ ∧
      ∀ φ, E.fails .publishRead φ → Q (.error (.external φ))
        ⟨.closed db', log ++ [.committed (.transition status)] ++ [.failed .publishRead]⟩)
    (refused : ∀ cached now auditId notificationId notifiedAt e, (transitionBlock svc opId status
        m cached now auditId notificationId notifiedAt).eval db = .error e →
      Q (.error e) ⟨.closed db, log⟩)
    (fault : ∀ φ, E.fails (.transition status) φ →
      Q (.error (.external φ)) ⟨.closed db, log ++ [.failed (.transition status)]⟩) :
    wp E Q (transition svc opId status m) ⟨.closed db, log⟩ := by
  refine wp_transition_drawn ?_ refused fault
  intro cached now auditId notificationId notifiedAt op db' _ h
  exact done cached now auditId notificationId notifiedAt op db' h

end Rules

/-- The calls of the operation service that change operations. -/
inductive OpCall
  | create (request : OperationInput) (initial : OperationStatus) (allow : Bool)
  | claim (opId : String)
  | transition (opId : String) (status : OperationStatus) (m : Milestone)

/-- A call and the operation it answers with. -/
def OpCall.prog (svc : OperationService) : OpCall → Prog (Option Operation)
  | .create request initial allow => do
    let (op, _) ← createWithReplay svc request initial allow
    pure (some op)
  | .claim opId => claimQueued opId
  | .transition opId status m => do
    let op ← Operations.transition svc opId status m
    pure (some op)

/-- One served call of a run: its reply and the database before and after it. -/
structure Served where
  call : OpCall
  reply : Except Exn (Option Operation)
  before : Database
  after : Database

/-- Calls served one after another on one connection, each in its own environment. -/
def serve (svc : OperationService) : List (OpCall × Env) → Session → List Served
  | [], _ => []
  | (call, env) :: rest, x =>
    ⟨call, (run env (call.prog svc) x).1, x.conn.committed,
      (run env (call.prog svc) x).2.conn.committed⟩ ::
      serve svc rest (run env (call.prog svc) x).2

theorem serve_call {svc : OperationService} {calls : List (OpCall × Env)} {x : Session}
    {s : Served} (h : s ∈ serve svc calls x) : ∃ c ∈ calls, s.call = c.1 := by
  induction calls generalizing x with
  | nil => simp [serve] at h
  | cons c calls ih =>
    rcases List.mem_cons.mp h with rfl | h
    · exact ⟨c, by simp, rfl⟩
    · obtain ⟨c', hc', hcall⟩ := ih h
      exact ⟨c', by simp [hc'], hcall⟩

/-- What the transaction of a call may do to the database, and its reply. -/
inductive Effect (svc : OperationService) : OpCall → Database → Option Operation → Database → Prop
  | create (opId : String) (auditIds : Nat → String) (now : Int) {request : OperationInput}
      {initial : OperationStatus} {allow : Bool} {db db' : Database} {op : Operation}
      {cancelled : List Operation} {replayed : Bool} :
      (createBlock request initial allow opId auditIds now).eval db =
        .ok ((op, cancelled, replayed), db') →
      Effect svc (.create request initial allow) db (some op) db'
  | claim (now : Int) {opId : String} {db db' : Database} {r : Option Operation} :
      (claimBlock opId now).eval db = .ok (r, db') → Effect svc (.claim opId) db r db'
  | transition (cached : Option Checkpoint) (now : Int) (auditId notificationId : String)
      (notifiedAt : Int) {opId : String} {status : OperationStatus} {m : Milestone}
      {db db' : Database} {op : Operation} :
      (transitionBlock svc opId status m cached now auditId notificationId notifiedAt).eval db =
        .ok (op, db') →
      Effect svc (.transition opId status m) db (some op) db'

/-- A call either takes effect as a whole or changes nothing, and a call that returns has
taken effect. -/
theorem OpCall.run_effect (svc : OperationService) (call : OpCall) (env : Env) (db : Database)
    (log : Log) :
    (run env (call.prog svc) ⟨.closed db, log⟩).2.conn =
      .closed (run env (call.prog svc) ⟨.closed db, log⟩).2.conn.committed ∧
    ((∃ e, (run env (call.prog svc) ⟨.closed db, log⟩).1 = .error e) ∧
      (run env (call.prog svc) ⟨.closed db, log⟩).2.conn.committed = db ∨
    ∃ r, Effect svc call db r (run env (call.prog svc) ⟨.closed db, log⟩).2.conn.committed ∧
      ∀ r', (run env (call.prog svc) ⟨.closed db, log⟩).1 = .ok r' → r' = r) := by
  have unchanged : ∀ (e : Exn) (log' : Log), (fun (r : Except Exn (Option Operation))
      (y : Session) => y.conn = .closed y.conn.committed ∧
        ((∃ e, r = .error e) ∧ y.conn.committed = db ∨
          ∃ q, Effect svc call db q y.conn.committed ∧ ∀ r', r = .ok r' → r' = q))
      (.error e) ⟨.closed db, log'⟩ := fun e log' => ⟨rfl, .inl ⟨⟨e, rfl⟩, rfl⟩⟩
  suffices h : wp Scope.any (fun r y => y.conn = .closed y.conn.committed ∧
      ((∃ e, r = .error e) ∧ y.conn.committed = db ∨
        ∃ q, Effect svc call db q y.conn.committed ∧ ∀ r', r = .ok r' → r' = q))
      (call.prog svc) ⟨.closed db, log⟩ from
    run_of_wp (fun n x m => Scope.any_allowed x m _) h
  cases call with
  | create request initial allow =>
    simp only [prog, Program.bind_eq]
    rw [wp_bind]
    refine wp_createWithReplay ?_ (fun _ _ _ e _ _ => unchanged e _) (fun φ _ => unchanged _ _)
    intro opId auditIds now op cancelled replayed db' _ h
    have effect : Effect svc (.create request initial allow) db (some op) db' :=
      .create opId auditIds now h
    exact ⟨⟨rfl, .inr ⟨some op, effect, fun r hr => by cases hr; rfl⟩⟩,
      fun φ _ => ⟨rfl, .inr ⟨some op, effect, fun r hr => by cases hr⟩⟩⟩
  | claim opId =>
    refine wp_claimQueued ?_ (fun _ e _ => unchanged e _) (fun φ _ => unchanged _ _)
    intro now r db' h
    exact ⟨rfl, .inr ⟨r, .claim now h, fun r' hr => by cases hr; rfl⟩⟩
  | transition opId status m =>
    simp only [prog, Program.bind_eq]
    rw [wp_bind]
    refine wp_transition ?_ (fun _ _ _ _ _ e _ => unchanged e _) (fun φ _ => unchanged _ _)
    intro cached now auditId notificationId notifiedAt op db' h
    have effect := Effect.transition cached now auditId notificationId notifiedAt h
    exact ⟨⟨rfl, .inr ⟨some op, effect, fun r hr => by cases hr; rfl⟩⟩,
      fun φ _ => ⟨rfl, .inr ⟨some op, effect, fun r hr => by cases hr⟩⟩⟩

/-- A served call took effect as a whole or changed nothing. -/
def Served.Sound (svc : OperationService) (s : Served) : Prop :=
  (∃ e, s.reply = .error e) ∧ s.after = s.before ∨
  ∃ r, Effect svc s.call s.before r s.after ∧ ∀ r', s.reply = .ok r' → r' = r

/-- Served calls that follow one another from `db` on. -/
def Chain (svc : OperationService) : Database → List Served → Prop
  | _, [] => True
  | db, s :: rest => s.before = db ∧ s.Sound svc ∧ Chain svc s.after rest

theorem serve_chain (svc : OperationService) (calls : List (OpCall × Env)) (db : Database)
    (log : Log) : Chain svc db (serve svc calls ⟨.closed db, log⟩) := by
  induction calls generalizing db log with
  | nil => trivial
  | cons c rest ih =>
    obtain ⟨hconn, heffect⟩ := OpCall.run_effect svc c.1 c.2 db log
    refine ⟨rfl, heffect, ?_⟩
    have hx : (run c.2 (c.1.prog svc) ⟨.closed db, log⟩).2 =
        ⟨.closed (run c.2 (c.1.prog svc) ⟨.closed db, log⟩).2.conn.committed,
          (run c.2 (c.1.prog svc) ⟨.closed db, log⟩).2.log⟩ := by
      rw [← hconn]
    have h := ih (run c.2 (c.1.prog svc) ⟨.closed db, log⟩).2.conn.committed
      (run c.2 (c.1.prog svc) ⟨.closed db, log⟩).2.log
    rwa [← hx] at h

/-- An invariant every effect keeps holds before and after every served call. -/
theorem Chain.invariant {svc : OperationService} {I : Database → Prop}
    {served : List Served} {db : Database} (h : Chain svc db served)
    (step : ∀ s ∈ served, ∀ r, Effect svc s.call s.before r s.after → I s.before → I s.after)
    (start : I db) : ∀ s ∈ served, I s.before ∧ I s.after := by
  induction served generalizing db with
  | nil => simp
  | cons s rest ih =>
    obtain ⟨rfl, sound, h⟩ := h
    have after : I s.after := by
      rcases sound with ⟨-, same⟩ | ⟨r, effect, -⟩
      · rwa [same]
      · exact step s (by simp) r effect start
    intro t ht
    rcases List.mem_cons.mp ht with rfl | ht
    · exact ⟨start, after⟩
    · exact ih h (fun t ht => step t (by simp [ht])) after t ht

/-- What every effect relates, a whole run relates. -/
theorem Chain.related {svc : OperationService} {I : Database → Prop}
    {R : Database → Database → Prop} (refl : ∀ db, R db db)
    (trans : ∀ a b c, R a b → R b c → R a c) {served : List Served} {db : Database}
    (h : Chain svc db served) (inv : ∀ s ∈ served, I s.before)
    (step : ∀ s ∈ served, ∀ r, I s.before → Effect svc s.call s.before r s.after →
      R s.before s.after) :
    (∀ s ∈ served, R db s.before ∧ R s.before s.after) ∧
      served.Pairwise fun s t => R s.after t.before := by
  induction served generalizing db with
  | nil => simp
  | cons s rest ih =>
    obtain ⟨rfl, sound, h⟩ := h
    have hs : R s.before s.after := by
      rcases sound with ⟨-, same⟩ | ⟨r, effect, -⟩
      · rw [same]
        exact refl _
      · exact step s (by simp) r (inv s (by simp)) effect
    obtain ⟨hall, hpair⟩ := ih h (fun t ht => inv t (by simp [ht]))
      (fun t ht => step t (by simp [ht]))
    refine ⟨?_, List.pairwise_cons.mpr ⟨fun t ht => (hall t ht).1, hpair⟩⟩
    intro t ht
    rcases List.mem_cons.mp ht with rfl | ht
    · exact ⟨refl _, hs⟩
    · exact ⟨trans _ _ _ hs (hall t ht).1, (hall t ht).2⟩

theorem Chain.sound {svc : OperationService} {served : List Served} {db : Database}
    (h : Chain svc db served) : ∀ s ∈ served, s.Sound svc := by
  induction served generalizing db with
  | nil => simp
  | cons s rest ih =>
    obtain ⟨-, sound, h⟩ := h
    simpa using ⟨sound, ih h⟩

end Operations

end McManager
