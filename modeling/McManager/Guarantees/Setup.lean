import McManager.Access.Commands
import McManager.Access.Middleware
import McManager.Framework.Watched

namespace McManager.Access

open Framework

/-- A request for the setup: the middleware, and its handler. -/
def setupRequest (mw : Middleware) (req : HttpRequest) : Prog Reply := do
  let refused ← authenticateAndValidateCsrf mw req
  match refused with
  | some refusal => pure (.error refusal.code refusal.message)
  | none => completeSetup req.body

/-- How far a setup has come: its secret is stored, its user inserted, its row of the manager
committed, or it has failed on the way. -/
inductive SetupStage
  | idle | stored | created | done | lost
  deriving DecidableEq, Repr

namespace SetupStage

def underway : SetupStage → Bool
  | .stored | .created => true
  | _ => false

/-- What a setup request may run next. -/
def Allows : SetupStage → Command → Prop
  | _, .rollback => False
  | .idle, .execute _ s => match s with
    | .insertAudit _ | .revokeSession _ _ _ | .insertSecret _ => True
    | _ => False
  | .stored, .execute _ s => ∃ row, s = .insertUser row ∧ row.live = true
  | .created, .execute _ s => match s with
    | .insertRole _ | .insertAssignment _ _ _ | .insertAudit _ | .completeSetup _ => True
    | _ => False
  | _, .execute _ _ => False
  | _, _ => True

def next : SetupStage → (m : Command) → Except Exn (m.Reply Database Answer) → SetupStage
  | .idle, .execute _ (.insertSecret _), .ok _ => .stored
  | .stored, .execute _ _, .ok _ => .created
  | .created, .commit .completeSetup, .ok _ => .done
  | .stored, _, .error _ => .lost
  | .created, _, .error _ => .lost
  | q, _, _ => q

/-- The setups that have succeeded. -/
def count : Nat → SetupStage → (m : Command) → Except Exn (m.Reply Database Answer) → Nat
  | n, .created, .commit .completeSetup, .ok _ => n + 1
  | n, _, _, _ => n

end SetupStage

def setup : Script Site Stmt Query Answer Database Exn SetupStage Nat where
  start := .idle
  allows := SetupStage.Allows
  next := SetupStage.next
  count := SetupStage.count
  ends q := q.underway = false

abbrev Setups := Watched Site Stmt Query Answer Database Exn SetupStage Nat

section Follows

/-- The statements of the middleware. -/
def Passing : Stmt → Prop
  | .insertAudit _ | .revokeSession _ _ _ => True
  | _ => False

theorem passing_still (m : Command) (h : Onward Passing m) :
    setup.allows .idle m ∧ ∀ r, setup.next .idle m r = .idle := by
  cases m with
  | execute t s =>
    cases s with
    | insertAudit row => exact ⟨trivial, fun r => rfl⟩
    | revokeSession sessionId deletedAt lastActivityAt => exact ⟨trivial, fun r => rfl⟩
    | _ => exact absurd h fun h => h
  | rollback => exact absurd h fun h => h
  | commit t => cases t <;> exact ⟨trivial, fun r => rfl⟩
  | _ => exact ⟨trivial, fun r => rfl⟩

theorem confined_compareDigest {P : Stmt → Prop} (a b : String) :
    (compareDigest a b).Confined (Onward P) := by
  unfold compareDigest
  split <;> exact trivial

theorem confined_submitsToken {P : Stmt → Prop} (req : HttpRequest) :
    (submitsToken req).Confined (Onward P) := by
  unfold submitsToken
  split
  · exact trivial
  · exact confined_compareDigest _ _

theorem confined_middleware (mw : Middleware) (req : HttpRequest) :
    (authenticateAndValidateCsrf mw req).Confined (Onward Passing) := by
  have submits : ((submitsToken req).bind fun submitted =>
      (.ret (if submitted then none else some csrfInvalid) : Prog (Option Refusal))).Confined
      (Onward Passing) := (confined_submitsToken req).bind fun _ => trivial
  have session : (currentSession mw req).Confined (Onward Passing) := by
    apply Program.Confined.handle
    · apply Program.Confined.bind
      · exact confined_validateSession _ _ (fun _ => trivial) fun _ _ _ => trivial
      · exact fun _ => trivial
    · intro e
      cases e <;> exact trivial
  have csrf : ∀ session, (csrfHolds mw req session).Confined (Onward Passing) := by
    intro session
    unfold csrfHolds
    split
    · apply (confined_submitsToken req).bind
      intro submitted
      split
      · exact confined_compareDigest _ _
      · exact trivial
    · exact trivial
  have role : ∀ userId, (roleRefusal req userId).Confined (Onward Passing) := by
    intro userId
    unfold roleRefusal
    split
    · exact Program.Confined.bind (confined_read (by decide)) fun _ => trivial
    · split
      · exact Program.Confined.bind (confined_read (by decide)) fun _ => trivial
      · exact trivial
  have stepUp : ∀ session, (stepUpRefusal req session).Confined (Onward Passing) := by
    intro session
    unfold stepUpRefusal
    split
    · have required : (Authentication.requireStepUp session).Confined (Onward Passing) := by
        unfold Authentication.requireStepUp
        split
        · exact trivial
        · apply Program.Confined.bind confined_draw
          intro now
          split <;> exact trivial
      apply Program.Confined.handle
      · exact required.bind fun _ => trivial
      · intro e
        cases e <;> exact trivial
    · exact trivial
  have first : (firstRun req).Confined (Onward Passing) := by
    unfold firstRun
    split
    · exact confined_read (by decide)
    · exact trivial
  have authenticated : (authenticateRequest mw req).Confined (Onward Passing) := by
    unfold authenticateRequest
    split
    · exact trivial
    · apply session.bind
      intro session
      cases session with
      | none => exact trivial
      | some session =>
        apply (csrf session).bind
        intro holds
        cases holds with
        | false => exact trivial
        | true =>
          apply (role session.userId).bind
          intro refused
          cases refused with
          | some refusal => exact trivial
          | none => exact stepUp session
  apply first.bind
  intro open'
  cases open' with
  | true => exact submits
  | false =>
    split
    · contradiction
    · split
      · split
        · exact submits
        · exact trivial
      · exact authenticated

/-- A setup that is left by an exception has stored nothing, or is lost. -/
def Left (q : SetupStage) : Prop := q = .idle ∨ q = .lost

theorem follows_store (userId hashed : String) : setup.Follows (Script.Upon .stored Left)
    (Secrets.store .userPassword "user" userId hashed) .idle := by
  apply Script.Follows.step trivial _ fun e => .inl rfl
  intro secretId
  apply Script.Follows.step trivial _ fun e => .inl rfl
  intro token
  apply Script.Follows.step trivial _ fun e => .inl rfl
  intro at'
  apply Script.Follows.upon (z := .stored) (E := Left)
  · exact Script.Follows.written trivial (fun n => rfl) trivial rfl (fun e => .inl rfl)
      fun e => .inr rfl
  · exact fun _ => rfl
  · exact fun _ q left => left

/-- The user, its role and its assignment. -/
theorem follows_rows (user : User) (live : user.live = true) (newRoleId assignmentId : String) :
    setup.Follows (Script.Upon .created (· = .lost)) (autocommit .provision (do
      Body.write (.insertUser user)
      let known ← Body.query (·.roleId? "Superadmin")
      match known with
      | none => Body.write (.insertRole { roleId := newRoleId, name := "Superadmin" })
      | some _ => pure ()
      let roleId ← Body.query (·.roleId? "Superadmin")
      Body.write (.insertAssignment assignmentId user.userId roleId))) .stored := by
  have last : ∀ roleId, setup.Follows (Script.Upon .created (· = .lost))
      (autocommit .provision (Body.write (.insertAssignment assignmentId user.userId roleId)))
      .created := fun roleId =>
    Script.Follows.written trivial (fun n => rfl) trivial rfl (fun e => rfl) fun e => rfl
  have assigned : setup.Follows (Script.Upon .created (· = .lost)) (autocommit .provision (do
      let roleId ← Body.query (·.roleId? "Superadmin")
      Body.write (.insertAssignment assignmentId user.userId roleId))) .created := by
    refine ⟨trivial, ?_⟩
    intro r
    cases r with
    | error e => exact rfl
    | ok db => exact last _
  refine ⟨⟨user, rfl, live⟩, ?_⟩
  intro r
  cases r with
  | error e => exact rfl
  | ok n =>
    refine ⟨trivial, ?_⟩
    intro r
    cases r with
    | error e => exact rfl
    | ok db =>
      simp only [Program.resume, Body.bind]
      cases Database.roleId? db "Superadmin" with
      | some known => exact assigned
      | none =>
        refine ⟨trivial, ?_⟩
        intro r
        cases r with
        | error e => exact rfl
        | ok n => exact assigned

theorem follows_created_audit (eventType : String) (actor : Actor) :
    setup.Follows (Script.Upon .created (· = .lost)) (audit eventType actor) .created := by
  apply Script.Follows.step trivial _ fun e => rfl
  intro auditId
  apply Script.Follows.step trivial _ fun e => rfl
  intro at'
  exact Script.Follows.written trivial (fun n => rfl) trivial rfl (fun e => rfl) fun e => rfl

theorem follows_provision (username password : String) :
    setup.Follows (Script.Upon .created Left)
      (Authentication.provisionFirstSuperadmin username password) .idle := by
  apply Script.Follows.read trivial _ fun e => .inl rfl
  intro db
  split
  · exact .inl rfl
  · apply Script.Follows.step trivial _ fun e => .inl rfl
    intro at'
    apply Script.Follows.step trivial _ fun e => .inl rfl
    intro userId
    apply Script.Follows.step trivial _ fun e => .inl rfl
    intro hashed
    apply (follows_store _ _).upon
    · intro secretId
      apply Script.Follows.step trivial _ fun e => .inr rfl
      intro newRoleId
      apply Script.Follows.step trivial _ fun e => .inr rfl
      intro assignmentId
      apply (follows_rows { userId, username, secretId, updatedAt := Moment.seconds at' } rfl
        newRoleId assignmentId).upon
      · intro _
        apply Script.Follows.read trivial _ fun e => .inr rfl
        intro db
        apply (follows_created_audit _ _).upon
        · exact fun _ => rfl
        · exact fun _ q lost => .inr lost
      · exact fun _ q lost => .inr lost
    · exact fun _ q left => left

/-- A setup request answers with the user it has made exactly when it is counted as done. -/
theorem follows_completeSetup (body : Option Web.Body) :
    setup.Follows (fun r q => (q = .done ↔ ∃ id, r = .ok (.ok id)) ∧ q.underway = false)
      (completeSetup body) .idle := by
  have refused : ∀ {q code message}, Left q → (q = .done ↔ ∃ id, (.ok (.error code message) :
      Except Exn Reply) = .ok (.ok id)) ∧ q.underway = false := by
    intro q code message left
    obtain rfl | rfl := left
    · exact ⟨⟨nofun, nofun⟩, rfl⟩
    · exact ⟨⟨nofun, nofun⟩, rfl⟩
  unfold completeSetup
  split
  · exact refused (.inl rfl)
  · rename_i username password _
    have provisioned : setup.Follows (fun r q => match r with
        | .ok (.ok _) => q = .created
        | .ok (.error _) => Left q
        | .error _ => False)
        (((Authentication.provisionFirstSuperadmin username password).bind fun id =>
          .ret (Except.ok id)).handle fun e => (.ret (.error e) : Prog (Except Exn String)))
        .idle := by
      apply Script.Follows.handle (P := fun r q => match r with
        | .ok (.ok _) => q = .created
        | .ok (.error _) => False
        | .error _ => Left q)
      · apply (follows_provision username password).upon
        · exact fun _ => rfl
        · exact fun _ q left => left
      · intro a q h
        cases a with
        | ok id => exact h
        | error e => exact h.elim
      · exact fun e q h => h
    apply provisioned.bind
    · intro a q h
      cases a with
      | error e => exact refused h
      | ok id =>
        rw [h]
        apply Script.Follows.step trivial _ fun e => ⟨⟨nofun, nofun⟩, rfl⟩
        intro at'
        apply Script.Follows.upon (z := .done) (E := (· = .lost))
        · exact Script.Follows.written trivial (fun n => rfl) trivial rfl (fun e => rfl)
            fun e => rfl
        · exact fun _ => ⟨⟨fun _ => ⟨id, rfl⟩, fun _ => rfl⟩, rfl⟩
        · intro e q lost
          rw [lost]
          exact ⟨⟨nofun, nofun⟩, rfl⟩
    · exact fun e q h => h.elim

theorem follows_setupRequest (mw : Middleware) (req : HttpRequest) :
    setup.Follows (fun r q => (q = .done ↔ ∃ id, r = .ok (.ok id)) ∧ q.underway = false)
      (setupRequest mw req) .idle := by
  have passed := Script.Follows.confined (confined_middleware mw req) passing_still
  apply passed.bind
  · intro refused q h
    rw [h]
    cases refused with
    | some refusal => exact ⟨⟨nofun, nofun⟩, rfl⟩
    | none => exact follows_completeSetup req.body
  · intro e q h
    rw [h]
    exact ⟨⟨nofun, nofun⟩, rfl⟩

end Follows

def HasLiveUser (db : Database) : Prop := ∃ u ∈ db.users, u.live = true

/-- The rows a setup makes. -/
structure SameRows (db db' : Database) : Prop where
  users : db'.users = db.users
  assignments : db'.assignments = db.assignments
  secrets : db'.secrets = db.secrets

/-- A user is inserted only where there is none. -/
def FirstUser (s : Stmt) (db : Database) : Prop :=
  match s with
  | .insertUser _ => ¬HasLiveUser db
  | _ => True

/-- While no setup has succeeded, one that has stored its secret goes on to its end. -/
def GoesThrough (w : Setups) : AccessMove → Prop
  | .act i o => ∀ q m, w.At i q → q.underway = true → w.tally = 0 → w.system.next i = some m →
    ∃ r, (w.system.conn.act m (o m)).1 = (.ok r : Except Exn _)
  | .crash => w.tally = 0 → ∀ q ∈ w.marks, q.underway = false
  | .invoke _ => True

/-- The user of a setup that has not succeeded yet. -/
def SetupStage.made (q : SetupStage) : Bool := q == .created

/-- The invariant of setups that insert the first user, and go through. -/
structure SetUp (db : Database) (w : Setups) : Prop where
  view : w.tally = 0 → SameRows db w.system.conn.view ∨ ∃ q ∈ w.marks, q.underway = true
  committed : w.tally = 0 →
    SameRows db w.system.conn.committed ∨ ∃ q ∈ w.marks, q.underway = true
  once : w.marks.countP SetupStage.made + w.tally ≤ 1
  live : 0 < w.marks.countP SetupStage.made + w.tally → HasLiveUser w.system.conn.view
  durable : 0 < w.tally → HasLiveUser w.system.conn.committed

namespace SetUp

variable {db : Database} {w w' : Setups} {i : Nat} {q q' : SetupStage}

theorem init (db : Database) : SetUp db (Watched.init db 0) where
  view := fun _ => .inl ⟨rfl, rfl, rfl⟩
  committed := fun _ => .inl ⟨rfl, rfl, rfl⟩
  once := Nat.zero_le 1
  live := nofun
  durable := nofun

/-- Nothing happens to the marks. -/
theorem same (h : SetUp db w) (marks : w'.marks = w.marks) (tally : w'.tally = w.tally)
    (view : SameRows w.system.conn.view w'.system.conn.view)
    (committed : w'.system.conn.committed = w.system.conn.committed) : SetUp db w' := by
  have seen : SameRows db w.system.conn.view → SameRows db w'.system.conn.view :=
    fun rows => ⟨view.users.trans rows.users, view.assignments.trans rows.assignments,
      view.secrets.trans rows.secrets⟩
  constructor
  case view =>
    rw [marks, tally]
    exact fun none' => (h.view none').imp_left seen
  case committed => rw [marks, tally, committed]; exact h.committed
  case once => rw [marks, tally]; exact h.once
  case live => rw [marks, tally, HasLiveUser, view.users]; exact h.live
  case durable => rw [tally, committed]; exact h.durable

/-- A setup is lost after another has succeeded. -/
theorem lose (h : SetUp db w) (mark : w.marks[i]? = some q) (marks : w'.marks = w.marks.set i .lost)
    (tally : w'.tally = w.tally) (late : 0 < w.tally)
    (view : w'.system.conn.view = w.system.conn.view)
    (committed : w'.system.conn.committed = w.system.conn.committed) : SetUp db w' := by
  have count : (w.marks.set i .lost).countP SetupStage.made + q.made.toNat =
      w.marks.countP SetupStage.made := countP_set (p := SetupStage.made) mark
  have once := h.once
  constructor
  case view => rw [tally]; omega
  case committed => rw [tally]; omega
  case once => rw [marks, tally]; omega
  case live => rw [view]; exact fun _ => h.live (by omega)
  case durable => rw [tally, committed]; exact h.durable

/-- A commit, by whichever call. -/
theorem publish (h : SetUp db w) (marks : w'.marks = w.marks) (tally : w'.tally = w.tally)
    (conn : w'.system.conn = .closed w.system.conn.view) : SetUp db w' := by
  have view : w'.system.conn.view = w.system.conn.view := by rw [conn]; rfl
  have committed : w'.system.conn.committed = w.system.conn.view := by rw [conn]; rfl
  constructor
  case view => rw [marks, tally, view]; exact h.view
  case committed => rw [marks, tally, committed]; exact h.view
  case once => rw [marks, tally]; exact h.once
  case live => rw [marks, tally, view]; exact h.live
  case durable => rw [tally, committed]; exact fun late => h.live (by omega)

/-- The last commit of a setup. -/
theorem succeed (h : SetUp db w) (mark : w.marks[i]? = some .created)
    (marks : w'.marks = w.marks.set i .done) (tally : w'.tally = w.tally + 1)
    (conn : w'.system.conn = .closed w.system.conn.view) : SetUp db w' := by
  have count : (w.marks.set i .done).countP SetupStage.made + 1 =
      w.marks.countP SetupStage.made := countP_set (p := SetupStage.made) mark
  have view : w'.system.conn.view = w.system.conn.view := by rw [conn]; rfl
  have committed : w'.system.conn.committed = w.system.conn.view := by rw [conn]; rfl
  have live : HasLiveUser w.system.conn.view := h.live (by omega)
  have once := h.once
  constructor
  case view => rw [tally]; omega
  case committed => rw [tally]; omega
  case once => rw [marks, tally]; omega
  case live => rw [view]; exact fun _ => live
  case durable => rw [committed]; exact fun _ => live

/-- A statement of a setup that is underway after it, and inserts no user. -/
theorem put (h : SetUp db w) (mark : w.marks[i]? = some q) (marks : w'.marks = w.marks.set i q')
    (made : q'.made = q.made) (underway : q'.underway = true) (tally : w'.tally = w.tally)
    (view : w'.system.conn.view.users = w.system.conn.view.users)
    (committed : w'.system.conn.committed = w.system.conn.committed) : SetUp db w' := by
  have count := countP_set (p := SetupStage.made) (b := q') mark
  rw [made] at count
  have going : ∃ q ∈ w'.marks, q.underway = true := by
    rw [marks]
    exact ⟨q', List.mem_set (List.getElem?_eq_some_iff.mp mark).1 _, underway⟩
  have once := h.once
  constructor
  case view => exact fun _ => .inr going
  case committed => exact fun _ => .inr going
  case once => rw [marks, tally]; omega
  case live =>
    rw [marks, tally, HasLiveUser, view]
    exact fun some' => h.live (by omega)
  case durable => rw [tally, committed]; exact h.durable

/-- The user is inserted, and is the first. -/
theorem insert (h : SetUp db w) {row : User} (mark : w.marks[i]? = some .stored)
    (marks : w'.marks = w.marks.set i .created) (tally : w'.tally = w.tally)
    (first : ¬HasLiveUser w.system.conn.view) (live : row.live = true)
    (view : w'.system.conn.view.users = w.system.conn.view.users ++ [row]) : SetUp db w' := by
  have count : (w.marks.set i .created).countP SetupStage.made + 0 =
      w.marks.countP SetupStage.made + 1 := countP_set (p := SetupStage.made) mark
  have none' : w.marks.countP SetupStage.made + w.tally = 0 := by
    by_contra some'
    exact first (h.live (Nat.pos_of_ne_zero some'))
  have going : ∃ q ∈ w'.marks, q.underway = true := by
    rw [marks]
    exact ⟨.created, List.mem_set (List.getElem?_eq_some_iff.mp mark).1 _, rfl⟩
  constructor
  case view => exact fun _ => .inr going
  case committed => exact fun _ => .inr going
  case once => rw [marks, tally]; omega
  case live =>
    intro _
    rw [HasLiveUser, view]
    exact ⟨row, List.mem_append_right _ (List.mem_singleton_self row), live⟩
  case durable => rw [tally]; omega

/-- A request comes in. -/
theorem arrive (h : SetUp db w) (conn : w'.system.conn = w.system.conn)
    (marks : w'.marks = w.marks ++ [.idle]) (tally : w'.tally = w.tally) : SetUp db w' := by
  have count : (w.marks ++ [SetupStage.idle]).countP SetupStage.made =
      w.marks.countP SetupStage.made := by
    rw [List.countP_append]
    rfl
  have going : (∃ q ∈ w.marks, q.underway = true) → ∃ q ∈ w'.marks, q.underway = true := by
    intro going
    obtain ⟨q, hq, underway⟩ := going
    rw [marks]
    exact ⟨q, List.mem_append_left _ hq, underway⟩
  constructor
  case view => rw [conn, tally]; exact fun none' => (h.view none').imp_right going
  case committed => rw [conn, tally]; exact fun none' => (h.committed none').imp_right going
  case once => rw [marks, tally, count]; exact h.once
  case live => rw [marks, tally, count, conn]; exact h.live
  case durable => rw [tally, conn]; exact h.durable

/-- The process dies, with no setup underway or after one has succeeded. -/
theorem crash (h : SetUp db w) (idle : w.tally = 0 → ∀ q ∈ w.marks, q.underway = false)
    (conn : w'.system.conn = .closed w.system.conn.committed) (marks : w'.marks = [])
    (tally : w'.tally = w.tally) : SetUp db w' := by
  have view : w'.system.conn.view = w.system.conn.committed := by rw [conn]; rfl
  have committed : w'.system.conn.committed = w.system.conn.committed := by rw [conn]; rfl
  have rows : w.tally = 0 → SameRows db w.system.conn.committed := by
    intro none'
    obtain rows | ⟨q, hq, underway⟩ := h.committed none'
    · exact rows
    · rw [idle none' q hq] at underway
      cases underway
  have once := h.once
  constructor
  case view => rw [view, tally]; exact fun none' => .inl (rows none')
  case committed => rw [committed, tally]; exact fun none' => .inl (rows none')
  case once => rw [marks, tally, List.countP_nil]; omega
  case live => rw [marks, tally, List.countP_nil, view]; exact fun late => h.durable (by omega)
  case durable => rw [tally, committed]; exact h.durable

theorem set_same {marks : List SetupStage} (mark : marks[i]? = some q) :
    marks.set i q = marks := by
  obtain ⟨hi, rfl⟩ := List.getElem?_eq_some_iff.mp mark
  exact List.set_getElem_self hi

/-- What a failing command makes of a mark. -/
theorem next_error (q : SetupStage) (m : Command) (e : Exn) :
    setup.next q m (.error e) = if q.underway then .lost else q := by
  cases q with
  | idle =>
    cases m with
    | execute t s => cases s <;> rfl
    | _ => rfl
  | stored => cases m <;> rfl
  | created =>
    cases m with
    | commit t => cases t <;> rfl
    | _ => rfl
  | done => cases m <;> rfl
  | lost => cases m <;> rfl

theorem count_error (n : Nat) (q : SetupStage) (m : Command) (e : Exn) :
    setup.count n q m (.error e) = n := by
  cases q with
  | created =>
    cases m with
    | commit t => cases t <;> rfl
    | _ => rfl
  | _ => cases m <;> rfl

/-- A command that fails. -/
theorem failed {m : Command} {o : m.Outcome Fault Answer} {e : Exn} (h : SetUp db w)
    (acted : Watched.Acted setup w w' i q m o)
    (reply : (w.system.conn.act m o).1 = (.error e : Except Exn _))
    (goes : q.underway = true → w.tally = 0 →
      ∃ r, (w.system.conn.act m o).1 = (.ok r : Except Exn _))
    (view : w'.system.conn.view = w.system.conn.view)
    (committed : w'.system.conn.committed = w.system.conn.committed) : SetUp db w' := by
  have marks := acted.marks
  have tally := acted.tally
  rw [reply, next_error] at marks
  rw [reply, count_error] at tally
  by_cases underway : q.underway = true
  · rw [if_pos underway] at marks
    by_cases late : w.tally = 0
    · obtain ⟨r, ok⟩ := goes underway late
      rw [reply] at ok
      cases ok
    · exact h.lose acted.was.1 marks tally (Nat.pos_of_ne_zero late) view committed
  · rw [if_neg underway, set_same acted.was.1] at marks
    exact h.same marks tally (by rw [view]; exact ⟨rfl, rfl, rfl⟩) committed

/-- A command that changes neither the rows nor its mark. -/
theorem still {m : Command} {o : m.Outcome Fault Answer} (h : SetUp db w)
    (acted : Watched.Acted setup w w' i q m o)
    (next : setup.next q m (w.system.conn.act m o).1 = q)
    (count : setup.count w.tally q m (w.system.conn.act m o).1 = w.tally)
    (view : SameRows w.system.conn.view w'.system.conn.view)
    (committed : w'.system.conn.committed = w.system.conn.committed) : SetUp db w' := by
  have marks := acted.marks
  rw [next, set_same acted.was.1] at marks
  exact h.same marks (acted.tally.trans count) view committed

/-- A statement that goes through. -/
theorem executed {t : Site} {s : Stmt} {d : Database} {n : Nat} (h : SetUp db w)
    (acted : Watched.Acted setup w w' i q (.execute t s) none)
    (first : FirstUser s w.system.conn.view) (applied : s.apply w.system.conn.view = .ok (d, n))
    (reply : (w.system.conn.act (A := Answer) (.execute t s : Command) none).1 =
      (.ok n : Except Exn Nat))
    (conn : w'.system.conn = ⟨w.system.conn.committed, some d⟩) : SetUp db w' := by
  have view : w'.system.conn.view = d := by rw [conn]; rfl
  have committed : w'.system.conn.committed = w.system.conn.committed := by rw [conn]
  have mark := acted.was.1
  have marks := acted.marks
  have tally := acted.tally
  have allowed := acted.allowed
  rw [reply] at marks tally
  cases q with
  | idle =>
    cases s with
    | insertAudit row =>
      obtain ⟨-, rfl, -⟩ := constrained_ok.mp applied
      exact h.same (marks.trans (set_same mark)) tally (view ▸ ⟨rfl, rfl, rfl⟩) committed
    | revokeSession sessionId deletedAt lastActivityAt =>
      cases applied
      exact h.same (marks.trans (set_same mark)) tally (view ▸ ⟨rfl, rfl, rfl⟩) committed
    | insertSecret row =>
      obtain ⟨-, rfl, -⟩ := constrained_ok.mp applied
      exact h.put mark marks rfl rfl tally (by rw [view]) committed
    | _ => exact absurd allowed fun h => h
  | stored =>
    obtain ⟨row, rfl, live⟩ := allowed
    obtain ⟨-, rfl, -⟩ := constrained_ok.mp applied
    exact h.insert mark marks tally first live (by rw [view])
  | created =>
    cases s with
    | insertRole row =>
      obtain ⟨-, rfl, -⟩ := constrained_ok.mp applied
      exact h.put mark marks rfl rfl tally (by rw [view]) committed
    | insertAudit row =>
      obtain ⟨-, rfl, -⟩ := constrained_ok.mp applied
      exact h.put mark marks rfl rfl tally (by rw [view]) committed
    | completeSetup now =>
      cases applied
      exact h.put mark marks rfl rfl tally (by rw [view]) committed
    | insertAssignment assignmentId userId roleId =>
      cases roleId with
      | none => cases applied
      | some roleId =>
        obtain ⟨-, rfl, -⟩ := constrained_ok.mp applied
        exact h.put mark marks rfl rfl tally (by rw [view]) committed
    | _ => exact absurd allowed fun h => h
  | done => exact absurd allowed fun h => h
  | lost => exact absurd allowed fun h => h

theorem acted {m : Command} {o : m.Outcome Fault Answer} (h : SetUp db w)
    (acted : Watched.Acted setup w w' i q m o)
    (first : m.Meets FirstUser w.system.conn o)
    (goes : q.underway = true → w.tally = 0 →
      ∃ r, (w.system.conn.act m o).1 = (.ok r : Except Exn _)) : SetUp db w' := by
  have conn := acted.conn
  have looked : m.Looks → SetUp db w' := by
    intro looks
    have rows := w.system.conn.act_looks looks o
    rw [← conn] at rows
    cases reply : (w.system.conn.act m o : Except Exn (m.Reply Database Answer) × _).1 with
    | error e => exact h.failed acted reply goes rows.2 rows.1
    | ok r =>
      apply h.still acted
      · rw [reply]
        cases q <;> cases m <;> first | rfl | exact absurd looks fun h => h
      · rw [reply]
        cases q <;> cases m <;> first | rfl | exact absurd looks fun h => h
      · rw [rows.2]
        exact ⟨rfl, rfl, rfl⟩
      · exact rows.1
  cases m with
  | begin t => exact looked trivial
  | select t => exact looked trivial
  | read t => exact looked trivial
  | ask q' => exact looked trivial
  | draw q' => exact looked trivial
  | rollback => cases q <;> exact absurd acted.allowed fun h => h
  | execute t s =>
    obtain ⟨e, act⟩ | ⟨d, n, rfl, applied, act⟩ :=
      w.system.conn.act_execute (Q := Query) (A := Answer) t s o
    · rw [act] at conn
      apply h.failed acted (congrArg Prod.fst act) goes
      · rw [conn, Connection.view_opening]
      · rw [conn, Connection.committed_opening]
    · rw [act] at conn
      exact h.executed acted first applied (congrArg Prod.fst act) conn
  | commit t =>
    cases o with
    | some φ =>
      apply h.failed acted rfl goes
      · rw [conn]; rfl
      · rw [conn]; rfl
    | none =>
      by_cases last : q = .created ∧ t = .completeSetup
      · obtain ⟨rfl, rfl⟩ := last
        exact h.succeed acted.was.1 acted.marks acted.tally conn
      · have next : setup.next q (.commit t) (.ok ()) = q ∧
            setup.count w.tally q (.commit t) (.ok ()) = w.tally := by
          cases q with
          | created =>
            cases t with
            | completeSetup => exact absurd ⟨rfl, rfl⟩ last
            | _ => exact ⟨rfl, rfl⟩
          | _ => exact ⟨rfl, rfl⟩
        have marks : w'.marks = w.marks.set i (setup.next q (.commit t) (.ok ())) := acted.marks
        rw [next.1, set_same acted.was.1] at marks
        exact h.publish marks (acted.tally.trans next.2) conn

end SetUp

/-- The calls are setup requests. -/
def OnSetup (mw : Middleware) (m : AccessMove) : Prop :=
  ∀ p, m = .invoke p → ∃ req : HttpRequest, req.path = "/api/setup" ∧ req.method = .post ∧
    p = (setupRequest mw req).bind fun _ => .ret ()

/-- A setup request with this user name. -/
def setupAs (username : String) : HttpRequest where
  method := .post
  path := "/api/setup"
  body := some [("username", .str username), ("password", .str "password")]
  csrfCookie := "t"
  csrfHeader := "t"

def sameTokens : Middleware := ⟨⟨fun token => token⟩, fun token => token⟩

def setupCall (username : String) : AccessMove :=
  .invoke ((setupRequest sameTokens (setupAs username)).bind fun _ => .ret ())

theorem onSetup_call (username : String) : OnSetup sameTokens (setupCall username) :=
  fun _ hp => ⟨setupAs username, rfl, rfl, (Move.invoke.inj hp).symm⟩

/-- Two requests find no user, and then each makes one. -/
def twoSetups : Setups :=
  (Watched.init {} 0 : Setups).play setup ([setupCall "a", setupCall "b"] ++
    List.replicate 2 (.act 0 (smooth "1")) ++ List.replicate 2 (.act 1 (smooth "2")) ++
    List.replicate 24 (.act 0 (smooth "1")) ++ List.replicate 24 (.act 1 (smooth "2")))

end McManager.Access
