import McManager.Framework.Watched
import McManager.Guarantees.OldSessions

namespace McManager.Access

open Framework

/-- The row `authenticate` looks at. -/
def loginRow (name : String) (db : Database) : Option User :=
  db.users.find? fun u => u.username == name && u.live

def failures (name : String) (db : Database) : Nat :=
  ((loginRow name db).map User.failedLoginCount).getD 0

/-- How far a login has come. One that is admitted has read the user's row, the count of failures
in it, and whether it was locked and the lock has expired. -/
inductive Stage
  | fresh
  | timed (now : Moment)
  | admitted (count : Nat) (expired : Bool) (userId : String)
  | rejected (count : Nat) (userId : String)
  | registered
  | settled
  | passed
  | left
  deriving DecidableEq, Repr

/-- The password is wrong and the failure not yet committed. -/
def Stage.pending : Stage → Bool
  | .rejected _ _ | .registered => true
  | _ => false

/-- The failure is written. -/
def Stage.counted : Stage → Bool
  | .registered | .settled => true
  | _ => false

/-- The password has been verified and is wrong. -/
def Stage.verified : Stage → Bool
  | .rejected _ _ | .registered | .settled => true
  | _ => false

/-- Only audit records are left to be written. -/
def Stage.over : Stage → Bool
  | .left | .settled => true
  | _ => false

/-- The passwords verified since the last lock expired, and the count of failures then. -/
structure Tally where
  spent : Nat
  base : Nat
  deriving DecidableEq, Repr

/-- What `authenticate` makes of the row it finds. -/
def Stage.enter (name : String) (now : Moment) (db : Database) : Stage :=
  match loginRow name db with
  | none => .left
  | some row =>
    if Authentication.lockedOut row now ∨ row.status = .disabled then .left
    else .admitted row.failedLoginCount (row.status == .locked) row.userId

def Stage.next (name : String) :
    Stage → (m : Command) → Except Exn (m.Reply Database Answer) → Stage
  | .fresh, .draw .now, .ok now => .timed now
  | .timed now, .read .loginRow, .ok db => .enter name now db
  | .timed _, _, .error _ => .left
  | .admitted count _ userId, .ask (.verify _ _), .ok valid =>
    if valid then .passed else .rejected count userId
  | .admitted _ _ _, _, .error _ => .left
  | .rejected _ _, .execute .register _, .ok _ => .registered
  | .rejected _ _, _, .error _ => .left
  | .registered, .commit .register, .ok _ => .settled
  | .registered, _, .error _ => .left
  | q, _, _ => q

/-- The lock a failure with this count sets. -/
def lockFor (count now : Nat) : Option Nat :=
  if maxFailedLogins ≤ count then some (now + lockoutSeconds) else none

/-- What a login may run next. -/
inductive Stage.Allows : Stage → Command → Prop
  | clock : Allows .fresh (.draw .now)
  | look {now : Moment} : Allows (.timed now) (.read .loginRow)
  | fetch {count : Nat} {expired : Bool} {userId : String} {t : Site} :
    t ≠ .loginRow → Allows (.admitted count expired userId) (.read t)
  | decrypt {count : Nat} {expired : Bool} {userId value : String} :
    Allows (.admitted count expired userId) (.ask (.decrypt value))
  | verify {count : Nat} {expired : Bool} {userId stored password : String} :
    Allows (.admitted count expired userId) (.ask (.verify stored password))
  | time {count : Nat} {userId : String} : Allows (.rejected count userId) (.draw .now)
  | register {count : Nat} {userId : String} (now : Nat) : Allows (.rejected count userId)
    (.execute .register (.registerFailure userId (count + 1) (lockFor (count + 1) now) now))
  | record : Allows .registered (.commit .register)
  | idle {q : Stage} {w : Query} : q.over = true → Allows q (.draw w)
  | report {q : Stage} {t : Site} : q.over = true → t ≠ .loginRow → Allows q (.read t)
  | insert {q : Stage} {row : AuditRecord} :
    q.over = true → Allows q (.execute .audit (.insertAudit row))
  | publish {q : Stage} : q.over = true → Allows q (.commit .audit)
  | unwatched {m : Command} : Allows .passed m

/-- A lock that is found expired ends the count of verifications, once for each lock: a later
one is set with a greater count of failures. -/
def Tally.count (name : String) (t : Tally) (q : Stage) :
    (m : Command) → Except Exn (m.Reply Database Answer) → Tally
  | .read .loginRow, r =>
    match q.next name (.read .loginRow) r with
    | .admitted count true _ => if t.base = count then t else ⟨0, count⟩
    | _ => t
  | .ask (.verify _ _), _ => ⟨t.spent + 1, t.base⟩
  | _, _ => t

theorem Tally.count_read {name : String} {t : Tally} {q : Stage} {site : Site}
    {r : Except Exn Database} (other : site ≠ .loginRow) :
    Tally.count name t q (.read site) r = t := by
  cases site with
  | loginRow => exact absurd rfl other
  | _ => rfl

/-- The script of `authenticate` for a user. -/
def loginScript (name : String) : Script Site Stmt Query Answer Database Exn Stage Tally where
  start := .fresh
  allows := Stage.Allows
  next := Stage.next name
  count := Tally.count name
  ends q := q.pending = false

abbrev Logins := Watched Site Stmt Query Answer Database Exn Stage Tally

section Follows

variable {name : String} {α : Type} {q : Stage}

/-- What follows a verified password is unwatched. -/
theorem follows_passed (p : Prog α) :
    (loginScript name).Follows (fun _ q => q = .passed) p .passed := by
  induction p with
  | ret a => exact rfl
  | raise e => exact rfl
  | call m k ih => exact ⟨.unwatched, fun r => ih r⟩

theorem next_over (hq : q.over = true) (m : Command) (r : Except Exn (m.Reply Database Answer)) :
    (loginScript name).next q m r = q := by
  cases q with
  | left => rfl
  | settled => rfl
  | _ => cases hq

/-- An audit record moves no stage that only waits for it. -/
theorem follows_audit (eventType : String) (actor : Actor) (hq : q.over = true) :
    (loginScript name).Follows (fun _ q' => q' = q) (audit eventType actor) q := by
  apply Script.Follows.step (Stage.Allows.idle hq) _ fun e => next_over hq _ _
  intro auditId
  rw [next_over hq]
  apply Script.Follows.step (Stage.Allows.idle hq) _ fun e => next_over hq _ _
  intro at'
  rw [next_over hq]
  apply Script.Follows.write (Stage.Allows.insert hq) fun e => next_over hq _ _
  intro n
  rw [next_over hq]
  exact Script.Follows.perform (Stage.Allows.publish hq) fun r => next_over hq _ _

/-- An audit record, and the exception after it. -/
theorem follows_refusal {eventType : String} {actor : Actor} {e : Exn} (hq : q.over = true) :
    (loginScript name).Follows (fun _ q' => q' = q)
      ((audit eventType actor).bind fun _ => (.raise e : Prog α)) q := by
  apply (follows_audit eventType actor hq).bind
  · exact fun _ q' h => h
  · exact fun _ q' h => h

theorem follows_registerFailure (userId : String) (count : Nat) (actor : Actor) :
    (loginScript name).Follows (fun _ q => q.over = true)
      (Authentication.registerFailure userId count actor) (.rejected count userId) := by
  apply Script.Follows.step Stage.Allows.time _ fun e => rfl
  intro at'
  have written : (loginScript name).Follows (fun _ q => q.over = true)
      (autocommit .register (Body.write
        (.registerFailure userId (count + 1) (lockFor (count + 1) at'.seconds) at'.seconds)))
      (.rejected count userId) := by
    apply Script.Follows.write (Stage.Allows.register at'.seconds) fun e => rfl
    intro n
    apply Script.Follows.perform Stage.Allows.record
    intro r
    cases r with
    | ok _ => rfl
    | error e => rfl
  apply written.bind
  · intro a q hq
    split
    · apply (follows_audit _ actor hq).mono
      intro r q' same
      rw [same, hq]
    · exact hq
  · exact fun e q hq => hq

/-- The login goes on with what it has read, or ends. -/
def Still (q : Stage) (r : Except Exn α) (q' : Stage) : Prop :=
  match r with
  | .ok _ => q' = q
  | .error _ => q'.pending = false

theorem follows_passwordSecret (userId : String) (count : Nat) (expired : Bool) (id : String) :
    (loginScript name).Follows (Still (.admitted count expired userId))
      (Authentication.passwordSecret id) (.admitted count expired userId) := by
  apply Script.Follows.read (Stage.Allows.fetch (by decide)) _ fun e => rfl
  intro db
  split
  · exact rfl
  · exact rfl

theorem follows_readSecret (userId : String) (count : Nat) (expired : Bool) (secretId : String) :
    (loginScript name).Follows (Still (.admitted count expired userId))
      (Secrets.read secretId) (.admitted count expired userId) := by
  apply Script.Follows.read (Stage.Allows.fetch (by decide)) _ fun e => rfl
  intro db
  split
  · exact rfl
  · apply Script.Follows.handle (P := Still (.admitted count expired userId))
    · apply Script.Follows.perform Stage.Allows.decrypt
      intro r
      cases r with
      | ok a => exact rfl
      | error e => exact rfl
    · exact fun a q' h => h
    · exact fun e q' h => h

/-- The secret is read and the password verified, or the login ends here. -/
theorem follows_verifyPassword (userId password : String) (count : Nat) (expired : Bool) :
    (loginScript name).Follows
      (fun r q => match r with
        | .ok verified => q = if verified.1 then .passed else .rejected count userId
        | .error _ => q.pending = false)
      (Authentication.verifyPassword userId password) (.admitted count expired userId) := by
  apply Script.Follows.bind (follows_passwordSecret userId count expired userId)
  · intro secretId q hq
    rw [hq]
    apply Script.Follows.bind (follows_readSecret userId count expired secretId)
    · intro stored q hq
      rw [hq]
      apply Script.Follows.step Stage.Allows.verify _ fun e => rfl
      intro valid
      cases valid with
      | true => exact rfl
      | false => exact rfl
    · exact fun e q h => h
  · exact fun e q h => h

theorem pending_over (hq : q.over = true) : q.pending = false := by
  cases q with
  | left => rfl
  | settled => rfl
  | _ => cases hq

theorem Stage.enter_none {now : Moment} {db : Database} (h : loginRow name db = none) :
    Stage.enter name now db = .left := by
  rw [enter, h]

theorem Stage.enter_refused {now : Moment} {db : Database} {row : User}
    (h : loginRow name db = some row)
    (refused : Authentication.lockedOut row now ∨ row.status = .disabled) :
    Stage.enter name now db = .left := by
  rw [enter, h]
  exact if_pos refused

theorem Stage.enter_admitted {now : Moment} {db : Database} {row : User}
    (h : loginRow name db = some row)
    (admitted : ¬(Authentication.lockedOut row now ∨ row.status = .disabled)) :
    Stage.enter name now db =
      .admitted row.failedLoginCount (row.status == .locked) row.userId := by
  rw [enter, h]
  exact if_neg admitted

theorem follows_authenticate (svc : AuthenticationService) (password : String) (origin : Origin) :
    (loginScript name).Follows (fun _ q => q.pending = false)
      (Authentication.authenticate svc name password origin) .fresh := by
  have ended : ∀ {eventType : String} {actor : Actor} {e : Exn} {q : Stage}, q.over = true →
      (loginScript name).Follows (fun _ q' => q'.pending = false)
        ((audit eventType actor).bind fun _ => (.raise e : Prog Issued)) q := by
    intro eventType actor e q hq
    apply (follows_refusal hq).mono
    intro r q' same
    rw [same]
    exact pending_over hq
  apply Script.Follows.step Stage.Allows.clock _ fun e => rfl
  intro at'
  apply Script.Follows.read Stage.Allows.look _ fun e => rfl
  intro db
  change (loginScript name).Follows _ _ (Stage.enter name at' db)
  cases hrow : loginRow name db with
  | none =>
    rw [Stage.enter_none hrow]
    rw [loginRow] at hrow
    rw [hrow]
    exact ended rfl
  | some row =>
    by_cases refused : Authentication.lockedOut row at' ∨ row.status = .disabled
    · rw [Stage.enter_refused hrow refused]
      rw [loginRow] at hrow
      rw [hrow]
      apply Script.Follows.read (Stage.Allows.report rfl (by decide)) _ fun e => rfl
      intro users
      by_cases locked : Authentication.lockedOut row at' = true
      · rw [if_pos locked]
        exact ended rfl
      · rw [if_neg locked, if_pos (refused.resolve_left locked)]
        exact ended rfl
    · rw [Stage.enter_admitted hrow refused]
      rw [loginRow] at hrow
      rw [hrow]
      apply Script.Follows.read (Stage.Allows.fetch (by decide)) _ fun e => rfl
      intro users
      rw [if_neg fun locked => refused (.inl locked), if_neg fun off => refused (.inr off)]
      apply Script.Follows.bind (follows_verifyPassword row.userId password _ _)
      · intro verified q hq
        rw [hq]
        obtain ⟨valid, secretId⟩ := verified
        cases valid with
        | true =>
          apply (follows_passed _).mono
          intro r q' passed
          rw [passed]
          rfl
        | false =>
          dsimp only
          rw [if_pos (by decide), if_neg (by decide)]
          apply Script.Follows.bind (follows_registerFailure row.userId row.failedLoginCount _)
          · exact fun a q' isOver => ended isOver
          · exact fun e q' isOver => pending_over isOver
      · exact fun e q h => h

end Follows

section Rows

variable {name : String} {db db' : Database} {n : Nat}

theorem loginRow_insertAudit {row : AuditRecord}
    (h : (Stmt.insertAudit row).apply db = .ok (db', n)) :
    loginRow name db' = loginRow name db := by
  obtain ⟨-, rfl, -⟩ := constrained_ok.mp h
  rfl

theorem loginRow_registerFailure {row : User} {count now : Nat} {until' : Option Nat}
    (found : loginRow name db = some row)
    (h : (Stmt.registerFailure row.userId count until' now).apply db = .ok (db', n)) :
    loginRow name db' = some { row with
      failedLoginCount := count, lockedUntil := until'
      status := if until'.isSome then .locked else .active, updatedAt := now } := by
  cases h
  rw [loginRow] at found ⊢
  rw [find?_updateWhere, found, Option.map_some, if_pos (beq_self_eq_true _)]
  exact fun u => rfl

theorem failures_some {row : User} (h : loginRow name db = some row) :
    failures name db = row.failedLoginCount := by
  rw [failures, h]
  rfl

theorem failures_congr (h : loginRow name db' = loginRow name db) :
    failures name db' = failures name db := by
  rw [failures, failures, h]

end Rows

/-- Five failures or more lock the user, unless there were as many to begin with. -/
def Locks (name : String) (start : Nat) (db : Database) : Prop :=
  ∀ row, loginRow name db = some row → start < row.failedLoginCount →
    maxFailedLogins ≤ row.failedLoginCount → row.status = .locked ∧ row.lockedUntil.isSome = true

theorem Locks.congr {name : String} {start : Nat} {db db' : Database} (h : Locks name start db)
    (same : loginRow name db' = loginRow name db) : Locks name start db' := by
  intro row found
  exact h row (same.symm.trans found)

/-- What the outside world answers failing logins: it rejects the password, and the failure is
written. -/
def Rejects : (m : Command) → m.Outcome Fault Answer → Prop
  | .ask (.verify _ _), o => o = .ok false
  | .execute .register _, o => o = none
  | .commit .register, o => o = none
  | _, _ => True

/-- A password is verified only when the row still has the count the login has read and no other
failure is pending. -/
def Undisturbed (name : String) (w : Logins) (q : Stage) : Command → Prop
  | .ask (.verify _ _) => ∀ count expired userId, q = .admitted count expired userId →
    count = failures name w.system.conn.committed ∧ ∀ q ∈ w.marks, q.pending = false
  | _ => True

/-- The invariant of failing logins that disturb none. -/
structure Throttled (name : String) (start : Nat) (w : Logins) : Prop where
  failing : Stage.passed ∉ w.marks
  alone : w.marks.countP Stage.pending ≤ 1
  grown : failures name w.system.conn.view = start + w.marks.countP Stage.counted
  durable : loginRow name w.system.conn.committed = loginRow name w.system.conn.view ∨
    Stage.registered ∈ w.marks ∧
      failures name w.system.conn.view = failures name w.system.conn.committed + 1
  rejected : ∀ count userId, Stage.rejected count userId ∈ w.marks →
    ∃ row, loginRow name w.system.conn.view = some row ∧ row.userId = userId ∧
      row.failedLoginCount = count
  admitted : ∀ count expired userId, Stage.admitted count expired userId ∈ w.marks →
    count ≤ failures name w.system.conn.committed ∧
      (count = failures name w.system.conn.committed →
        (∃ row, loginRow name w.system.conn.committed = some row ∧ row.userId = userId) ∧
          (maxFailedLogins ≤ count → w.tally.base = count))
  base : start ≤ w.tally.base ∧ w.tally.base ≤ failures name w.system.conn.committed
  spent : w.tally.spent + w.tally.base ≤ start + w.marks.countP Stage.verified
  bound : w.tally.spent ≤ maxFailedLogins
  locks : Locks name start w.system.conn.committed ∧ Locks name start w.system.conn.view

namespace Throttled

variable {name : String} {start : Nat} {w w' : Logins} {i : Nat} {q q' : Stage}

theorem init (name : String) (db : Database) :
    Throttled name (failures name db) (Watched.init db ⟨0, failures name db⟩) where
  failing := List.not_mem_nil
  alone := Nat.zero_le 1
  grown := rfl
  durable := .inl rfl
  rejected := fun _ _ h => (nomatch h)
  admitted := fun _ _ _ h => (nomatch h)
  base := ⟨Nat.le_refl _, Nat.le_refl _⟩
  spent := by simp [Watched.init]
  bound := Nat.zero_le _
  locks := by
    have start : Locks name (failures name db) db := by
      intro row found grown
      rw [failures_some found] at grown
      exact absurd grown (Nat.lt_irrefl _)
    exact ⟨start, start⟩

theorem verified_of_pending (h : q.pending = true) : q.verified = true := by
  cases q with
  | rejected count userId => rfl
  | registered => rfl
  | _ => cases h

theorem verified_of_counted (h : q.counted = true) : q.verified = true := by
  cases q with
  | registered => rfl
  | settled => rfl
  | _ => cases h

/-- With no failure pending every verified password is counted. -/
theorem verified_eq_counted (quiet : ∀ q ∈ w.marks, q.pending = false) :
    w.marks.countP Stage.verified = w.marks.countP Stage.counted := by
  apply List.countP_congr
  intro q hq
  have idle := quiet q hq
  cases q with
  | rejected count userId => cases idle
  | registered => cases idle
  | _ => simp [Stage.verified, Stage.counted]

/-- The mark a call is given when it neither verifies nor writes a failure. -/
def Mild (q q' : Stage) : Prop :=
  q' = q ∨ q.verified = false ∧ (q' = .left ∨ ∃ now, q' = .timed now)

/-- Such a mark does not count. -/
theorem Mild.counts {p : Stage → Bool} {marks : List Stage} (mild : Mild q q')
    (mark : marks[i]? = some q) (less : ∀ q, p q = true → q.verified = true) :
    (marks.set i q').countP p = marks.countP p := by
  have sum := countP_set (p := p) (b := q') mark
  have same : p q' = p q := by
    obtain rfl | ⟨idle, fate⟩ := mild
    · rfl
    · have before : p q = false := by
        rw [Bool.eq_false_iff]
        intro counts
        rw [less q counts] at idle
        cases idle
      have after : p q' = false := by
        rw [Bool.eq_false_iff]
        intro counts
        have verified := less q' counts
        obtain rfl | ⟨now, rfl⟩ := fate
        · cases verified
        · cases verified
      rw [before, after]
  rw [same] at sum
  omega

/-- Nor does it stand in the way of another. -/
theorem Mild.mem {marks : List Stage} {x : Stage} (mild : Mild q q') (mark : marks[i]? = some q)
    (hx : x ∈ marks.set i q') (ended : x ≠ .left) (begun : ∀ now, x ≠ .timed now) :
    x ∈ marks := by
  obtain hx | rfl := List.mem_or_eq_of_mem_set hx
  · exact hx
  · obtain rfl | ⟨-, rfl | ⟨now, rfl⟩⟩ := mild
    · exact List.mem_of_getElem? mark
    · exact absurd rfl ended
    · exact absurd rfl (begun now)

theorem Mild.registered {marks : List Stage} (mild : Mild q q') (mark : marks[i]? = some q)
    (h : Stage.registered ∈ marks) : Stage.registered ∈ marks.set i q' := by
  obtain rfl | ⟨idle, -⟩ := mild
  · obtain ⟨hi, rfl⟩ := List.getElem?_eq_some_iff.mp mark
    rw [List.set_getElem_self]
    exact h
  · apply mem_set_of_ne mark h
    intro same
    rw [← same] at idle
    cases idle

/-- Moves that neither verify nor write a failure. -/
theorem relabel (h : Throttled name start w) (mark : w.marks[i]? = some q)
    (marks : w'.marks = w.marks.set i q') (mild : Mild q q')
    (committed : loginRow name w'.system.conn.committed = loginRow name w.system.conn.committed)
    (view : loginRow name w'.system.conn.view = loginRow name w.system.conn.view)
    (tally : w'.tally = w.tally) : Throttled name start w' where
  failing := by
    rw [marks]
    exact fun passed => h.failing (mild.mem mark passed nofun nofun)
  alone := by
    rw [marks, mild.counts mark]
    · exact h.alone
    · exact fun _ => verified_of_pending
  grown := by
    rw [marks, failures_congr view, mild.counts mark]
    · exact h.grown
    · exact fun _ => verified_of_counted
  durable := by
    rw [marks, committed, view, failures_congr committed, failures_congr view]
    exact h.durable.imp_right fun last => ⟨mild.registered mark last.1, last.2⟩
  rejected := by
    rw [marks, view]
    exact fun count userId hq => h.rejected count userId (mild.mem mark hq nofun nofun)
  admitted := by
    rw [marks, committed, failures_congr committed, tally]
    exact fun count expired userId hq =>
      h.admitted count expired userId (mild.mem mark hq nofun nofun)
  base := by
    rw [tally, failures_congr committed]
    exact h.base
  spent := by
    rw [marks, tally, mild.counts mark]
    · exact h.spent
    · exact fun _ verified => verified
  bound := by
    rw [tally]
    exact h.bound
  locks := ⟨h.locks.1.congr committed, h.locks.2.congr view⟩

theorem grows (h : Throttled name start w) :
    failures name w.system.conn.committed ≤ failures name w.system.conn.view := by
  obtain same | ⟨-, last⟩ := h.durable
  · exact Nat.le_of_eq (failures_congr same)
  · omega

/-- A login comes in. -/
theorem arrive (h : Throttled name start w) (conn : w'.system.conn = w.system.conn)
    (marks : w'.marks = w.marks ++ [.fresh]) (tally : w'.tally = w.tally) :
    Throttled name start w' := by
  have mem : ∀ x ∈ w.marks ++ [Stage.fresh], x ≠ .fresh → x ∈ w.marks := by
    intro x hx other
    exact (List.mem_append.mp hx).resolve_right fun last => other (List.mem_singleton.mp last)
  have counts : ∀ p : Stage → Bool, p .fresh = false →
      (w.marks ++ [Stage.fresh]).countP p = w.marks.countP p := by
    intro p idle
    rw [List.countP_append, List.countP_singleton, idle]
    rfl
  constructor
  case failing => rw [marks]; exact fun hq => h.failing (mem _ hq nofun)
  case alone => rw [marks, counts _ rfl]; exact h.alone
  case grown => rw [marks, conn, counts _ rfl]; exact h.grown
  case durable =>
    rw [marks, conn]
    exact h.durable.imp_right fun last => ⟨List.mem_append_left _ last.1, last.2⟩
  case rejected => rw [marks, conn]; exact fun c u hq => h.rejected c u (mem _ hq nofun)
  case admitted =>
    rw [marks, conn, tally]
    exact fun c e u hq => h.admitted c e u (mem _ hq nofun)
  case base => rw [tally, conn]; exact h.base
  case spent => rw [marks, tally, counts _ rfl]; exact h.spent
  case bound => rw [tally]; exact h.bound
  case locks => rw [conn]; exact h.locks

/-- A commit, by whichever call. -/
theorem publish (h : Throttled name start w)
    (conn : w'.system.conn = .closed w.system.conn.view) (marks : w'.marks = w.marks)
    (tally : w'.tally = w.tally) : Throttled name start w' := by
  have committed : w'.system.conn.committed = w.system.conn.view := by rw [conn]; rfl
  have view : w'.system.conn.view = w.system.conn.view := by rw [conn]; rfl
  constructor
  case failing => rw [marks]; exact h.failing
  case alone => rw [marks]; exact h.alone
  case grown => rw [marks, view]; exact h.grown
  case durable => rw [committed, view]; exact .inl rfl
  case rejected => rw [marks, view]; exact h.rejected
  case admitted =>
    rw [marks, committed, tally]
    intro count expired userId hq
    obtain ⟨before, current⟩ := h.admitted count expired userId hq
    refine ⟨Nat.le_trans before h.grows, ?_⟩
    intro now
    obtain same | ⟨-, last⟩ := h.durable
    · rw [← same]
      exact current (now.trans (failures_congr same).symm)
    · omega
  case base => rw [tally, committed]; exact ⟨h.base.1, Nat.le_trans h.base.2 h.grows⟩
  case spent => rw [marks, tally]; exact h.spent
  case bound => rw [tally]; exact h.bound
  case locks => rw [committed, view]; exact ⟨h.locks.2, h.locks.2⟩

/-- The commit of a failure. -/
theorem record (h : Throttled name start w) (mark : w.marks[i]? = some .registered)
    (conn : w'.system.conn = .closed w.system.conn.view)
    (marks : w'.marks = w.marks.set i .settled) (tally : w'.tally = w.tally) :
    Throttled name start w' := by
  have published : Throttled name start ⟨w'.system, w.marks, w.tally⟩ := h.publish conn rfl rfl
  have committed : w'.system.conn.committed = w'.system.conn.view := by rw [conn]; rfl
  have pending : (w.marks.set i .settled).countP Stage.pending + 1 =
      w.marks.countP Stage.pending := countP_set mark
  have counted : (w.marks.set i .settled).countP Stage.counted + 1 =
      w.marks.countP Stage.counted + 1 := countP_set mark
  have verified : (w.marks.set i .settled).countP Stage.verified + 1 =
      w.marks.countP Stage.verified + 1 := countP_set mark
  have mem : ∀ x ∈ w.marks.set i .settled, x ≠ .settled → x ∈ w.marks := by
    intro x hx other
    exact (List.mem_or_eq_of_mem_set hx).resolve_right other
  constructor
  case failing => rw [marks]; exact fun hq => h.failing (mem _ hq nofun)
  case alone => rw [marks]; have := h.alone; omega
  case grown => rw [marks, Nat.add_right_cancel counted]; exact published.grown
  case durable => exact .inl (by rw [committed])
  case rejected => rw [marks]; exact fun c u hq => published.rejected c u (mem _ hq nofun)
  case admitted =>
    rw [marks, tally]
    exact fun c e u hq => published.admitted c e u (mem _ hq nofun)
  case base => rw [tally]; exact published.base
  case spent => rw [marks, tally, Nat.add_right_cancel verified]; exact published.spent
  case bound => rw [tally]; exact h.bound
  case locks => exact published.locks

/-- Where one failure is pending at most, no other is. -/
theorem others {marks : List Stage} (alone : marks.countP Stage.pending ≤ 1)
    (mark : marks[i]? = some q) (hq : q.pending = true) {x : Stage} (hx : x ∈ marks)
    (other : x ≠ q) : x.pending = false := by
  rw [Bool.eq_false_iff]
  intro pending
  have left : (marks.set i .left).countP Stage.pending + q.pending.toNat =
      marks.countP Stage.pending := countP_set mark
  have behind : 0 < (marks.set i .left).countP Stage.pending :=
    List.countP_pos_iff.mpr ⟨x, mem_set_of_ne mark hx other, pending⟩
  rw [hq] at left
  have one : true.toNat = 1 := rfl
  omega

/-- A failure is written. -/
theorem register {count now n : Nat} {userId : String} {db : Database}
    (h : Throttled name start w) (mark : w.marks[i]? = some (.rejected count userId))
    (applied : (Stmt.registerFailure userId (count + 1) (lockFor (count + 1) now) now).apply
      w.system.conn.view = .ok (db, n))
    (conn : w'.system.conn = ⟨w.system.conn.committed, some db⟩)
    (marks : w'.marks = w.marks.set i .registered) (tally : w'.tally = w.tally) :
    Throttled name start w' := by
  obtain ⟨row, found, rfl, rfl⟩ := h.rejected count userId (List.mem_of_getElem? mark)
  obtain ⟨hi, -⟩ := List.getElem?_eq_some_iff.mp mark
  have committed : w'.system.conn.committed = w.system.conn.committed := by rw [conn]
  have view : w'.system.conn.view = db := by rw [conn]; rfl
  have written := loginRow_registerFailure found applied
  have pending : (w.marks.set i .registered).countP Stage.pending + 1 =
      w.marks.countP Stage.pending + 1 := countP_set mark
  have counted : (w.marks.set i .registered).countP Stage.counted + 0 =
      w.marks.countP Stage.counted + 1 := countP_set (p := Stage.counted) mark
  have verified : (w.marks.set i .registered).countP Stage.verified + 1 =
      w.marks.countP Stage.verified + 1 := countP_set mark
  have mem : ∀ x ∈ w.marks.set i .registered, x ≠ .registered → x ∈ w.marks := by
    intro x hx other
    exact (List.mem_or_eq_of_mem_set hx).resolve_right other
  have same : loginRow name w.system.conn.committed = loginRow name w.system.conn.view := by
    obtain same | ⟨last, -⟩ := h.durable
    · exact same
    · cases others h.alone mark rfl last nofun
  have before : failures name w.system.conn.committed = row.failedLoginCount :=
    failures_some (same.trans found)
  have after : failures name db = row.failedLoginCount + 1 := failures_some written
  have alone : (w.marks.set i .registered).countP Stage.pending ≤ 1 := by
    rw [Nat.add_right_cancel pending]
    exact h.alone
  constructor
  case failing => rw [marks]; exact fun hq => h.failing (mem _ hq nofun)
  case alone => rw [marks]; exact alone
  case grown =>
    have grown := h.grown
    rw [failures_some found] at grown
    rw [marks, view, after]
    omega
  case durable =>
    right
    rw [marks, committed, view, after, before]
    exact ⟨List.mem_set hi _, rfl⟩
  case rejected =>
    rw [marks]
    intro c u hq
    cases others alone (List.getElem?_set_self hi) rfl hq nofun
  case admitted =>
    rw [marks, committed, tally]
    exact fun c e u hq => h.admitted c e u (mem _ hq nofun)
  case base => rw [tally, committed]; exact h.base
  case spent => rw [marks, tally, Nat.add_right_cancel verified]; exact h.spent
  case bound => rw [tally]; exact h.bound
  case locks =>
    rw [committed, view]
    refine ⟨h.locks.1, ?_⟩
    intro last found' _ five
    rw [written] at found'
    obtain rfl := Option.some.inj found'
    have set : lockFor (row.failedLoginCount + 1) now = some (now + lockoutSeconds) :=
      if_pos five
    simp only [set, Option.isSome_some, if_true, and_self]

/-- A wrong password is verified, by a call that has read the present count while no failure is
pending. -/
theorem verify {count : Nat} {expired : Bool} {userId : String} (h : Throttled name start w)
    (mark : w.marks[i]? = some (.admitted count expired userId))
    (present : count = failures name w.system.conn.committed)
    (quiet : ∀ q ∈ w.marks, q.pending = false) (conn : w'.system.conn = w.system.conn)
    (marks : w'.marks = w.marks.set i (.rejected count userId))
    (tally : w'.tally = ⟨w.tally.spent + 1, w.tally.base⟩) : Throttled name start w' := by
  have pending : (w.marks.set i (.rejected count userId)).countP Stage.pending + 0 =
      w.marks.countP Stage.pending + 1 := countP_set (p := Stage.pending) mark
  have counted : (w.marks.set i (.rejected count userId)).countP Stage.counted + 0 =
      w.marks.countP Stage.counted + 0 := countP_set (p := Stage.counted) mark
  have verified : (w.marks.set i (.rejected count userId)).countP Stage.verified + 0 =
      w.marks.countP Stage.verified + 1 := countP_set (p := Stage.verified) mark
  have mem : ∀ x ∈ w.marks.set i (.rejected count userId), x.pending = false → x ∈ w.marks := by
    intro x hx idle
    obtain hx | rfl := List.mem_or_eq_of_mem_set hx
    · exact hx
    · cases idle
  have none' : w.marks.countP Stage.pending = 0 := by
    apply List.countP_eq_zero.mpr
    intro q hq
    rw [quiet q hq]
    exact Bool.false_ne_true
  have same : loginRow name w.system.conn.committed = loginRow name w.system.conn.view := by
    obtain same | ⟨last, -⟩ := h.durable
    · exact same
    · cases quiet _ last
  obtain ⟨⟨row, found, owner⟩, full⟩ :=
    (h.admitted count expired userId (List.mem_of_getElem? mark)).2 present
  have spent : w.tally.spent + w.tally.base ≤ count := by
    have spent := h.spent
    rw [verified_eq_counted quiet, ← h.grown, ← failures_congr same, ← present] at spent
    exact spent
  constructor
  case failing => rw [marks]; exact fun hq => h.failing (mem _ hq rfl)
  case alone => rw [marks]; omega
  case grown => rw [marks, conn]; have := h.grown; omega
  case durable => rw [conn]; exact .inl same
  case rejected =>
    rw [marks, conn]
    intro c u hq
    obtain hq | hq := List.mem_or_eq_of_mem_set hq
    · cases quiet _ hq
    · obtain ⟨rfl, rfl⟩ := Stage.rejected.inj hq
      exact ⟨row, same.symm.trans found, owner, by rw [present, failures_some found]⟩
  case admitted =>
    rw [marks, conn, tally]
    exact fun c e u hq => h.admitted c e u (mem _ hq rfl)
  case base => rw [tally, conn]; exact h.base
  case spent => rw [marks, tally]; have := h.spent; dsimp only; omega
  case bound =>
    rw [tally]
    dsimp only
    by_cases five : maxFailedLogins ≤ count
    · have base := full five
      have one : 1 ≤ maxFailedLogins := by decide
      omega
    · omega
  case locks => rw [conn]; exact h.locks

/-- The row is read, and the login admitted. -/
theorem enter {row : User} {now : Moment} {t : Tally} (h : Throttled name start w)
    (mark : w.marks[i]? = some (.timed now))
    (found : loginRow name w.system.conn.committed = some row)
    (conn : w'.system.conn = w.system.conn)
    (marks : w'.marks = w.marks.set i
      (.admitted row.failedLoginCount (row.status == .locked) row.userId))
    (tally : w'.tally = t)
    (window : t = w.tally ∧ ((row.status == .locked) = true → w.tally.base = row.failedLoginCount) ∨
      t = ⟨0, row.failedLoginCount⟩) : Throttled name start w' := by
  have present : failures name w.system.conn.committed = row.failedLoginCount :=
    failures_some found
  have pending : (w.marks.set i (.admitted row.failedLoginCount (row.status == .locked)
      row.userId)).countP Stage.pending = w.marks.countP Stage.pending :=
    countP_set (p := Stage.pending) mark
  have counted : (w.marks.set i (.admitted row.failedLoginCount (row.status == .locked)
      row.userId)).countP Stage.counted = w.marks.countP Stage.counted :=
    countP_set (p := Stage.counted) mark
  have verified : (w.marks.set i (.admitted row.failedLoginCount (row.status == .locked)
      row.userId)).countP Stage.verified = w.marks.countP Stage.verified :=
    countP_set (p := Stage.verified) mark
  have base := h.base
  rw [present] at base
  -- a count of five or more is one the tally began with, or that has locked the user
  have full : maxFailedLogins ≤ row.failedLoginCount → t.base = row.failedLoginCount := by
    intro five
    obtain ⟨rfl, reset⟩ | rfl := window
    · by_cases locked : row.status = .locked
      · exact reset (beq_iff_eq.mpr locked)
      · by_cases more : start < row.failedLoginCount
        · exact absurd (h.locks.1 row found more five).1 locked
        · omega
    · rfl
  have spent : t.spent + t.base ≤ start + w.marks.countP Stage.verified := by
    obtain ⟨rfl, -⟩ | rfl := window
    · exact h.spent
    · have charged : w.marks.countP Stage.counted ≤ w.marks.countP Stage.verified :=
        List.countP_mono_left fun _ _ => verified_of_counted
      have grown := h.grown
      have grows := h.grows
      dsimp only
      omega
  have within : start ≤ t.base ∧ t.base ≤ row.failedLoginCount ∧ t.spent ≤ maxFailedLogins ∧
      (t.base = w.tally.base ∨ t.base = row.failedLoginCount) := by
    obtain ⟨rfl, -⟩ | rfl := window
    · exact ⟨base.1, base.2, h.bound, .inl rfl⟩
    · exact ⟨Nat.le_trans base.1 base.2, Nat.le_refl _, Nat.zero_le _, .inr rfl⟩
  constructor
  case failing =>
    rw [marks]
    exact fun hq => h.failing ((List.mem_or_eq_of_mem_set hq).resolve_right nofun)
  case alone => rw [marks, pending]; exact h.alone
  case grown => rw [marks, conn, counted]; exact h.grown
  case durable =>
    rw [marks, conn]
    exact h.durable.imp_right fun last => ⟨mem_set_of_ne mark last.1 nofun, last.2⟩
  case rejected =>
    rw [marks, conn]
    exact fun c u hq => h.rejected c u ((List.mem_or_eq_of_mem_set hq).resolve_right nofun)
  case admitted =>
    rw [marks, conn, tally]
    intro c e u hq
    obtain hq | hq := List.mem_or_eq_of_mem_set hq
    · obtain ⟨before, current⟩ := h.admitted c e u hq
      refine ⟨before, ?_⟩
      intro now
      refine ⟨(current now).1, ?_⟩
      intro five
      obtain same | same := within.2.2.2
      · rw [same]
        exact (current now).2 five
      · rw [same, now, present]
    · obtain ⟨rfl, -, rfl⟩ := Stage.admitted.inj hq
      exact ⟨Nat.le_of_eq present.symm, fun _ => ⟨⟨row, found, rfl⟩, full⟩⟩
  case base => rw [tally, conn, present]; exact ⟨within.1, within.2.1⟩
  case spent => rw [marks, tally, verified]; exact spent
  case bound => rw [tally]; exact within.2.2.1
  case locks => rw [conn]; exact h.locks

/-- The row is read. -/
theorem look {now : Moment} (h : Throttled name start w) (mark : w.marks[i]? = some (.timed now))
    (conn : w'.system.conn = w.system.conn)
    (marks : w'.marks = w.marks.set i (.enter name now w.system.conn.committed))
    (tally : w'.tally = Tally.count name w.tally (.timed now) (.read .loginRow)
      (.ok w.system.conn.committed)) : Throttled name start w' := by
  have away : Stage.enter name now w.system.conn.committed = .left → Throttled name start w' := by
    intro left
    rw [left] at marks
    apply h.relabel mark marks (.inr ⟨rfl, .inl rfl⟩) (by rw [conn]) (by rw [conn])
    simpa only [Tally.count, Stage.next, left] using tally
  cases found : loginRow name w.system.conn.committed with
  | none => exact away (Stage.enter_none found)
  | some row =>
    by_cases refused : Authentication.lockedOut row now ∨ row.status = .disabled
    · exact away (Stage.enter_refused found refused)
    · have admitted := Stage.enter_admitted found refused
      rw [admitted] at marks
      apply h.enter mark found conn marks tally
      simp only [Tally.count, Stage.next, admitted]
      cases row.status == .locked with
      | false => exact .inl ⟨rfl, fun locked => (nomatch locked)⟩
      | true =>
        dsimp only
        by_cases known : w.tally.base = row.failedLoginCount
        · rw [if_pos known]
          exact .inl ⟨rfl, fun _ => known⟩
        · rw [if_neg known]
          exact .inr rfl

theorem acted {m : Command} {o : m.Outcome Fault Answer} (h : Throttled name start w)
    (acted : Watched.Acted (loginScript name) w w' i q m o) (rejects : Rejects m o)
    (apart : Undisturbed name w q m) : Throttled name start w' := by
  obtain ⟨⟨mark, -⟩, -, allowed, conn, marks, tally, -⟩ := acted
  have still : q.over = true → w'.marks = w.marks.set i q := by
    intro isOver
    rw [marks, next_over isOver]
  change Stage.Allows q m at allowed
  cases allowed with
  | clock =>
    apply h.relabel mark marks (.inr ⟨rfl, .inr ⟨o, rfl⟩⟩) _ _ tally
    · rw [conn]; rfl
    · rw [conn]; rfl
  | look =>
    cases o with
    | some φ =>
      apply h.relabel mark marks (.inr ⟨rfl, .inl rfl⟩) _ _ tally
      · rw [conn]; rfl
      · rw [conn]; rfl
    | none => exact h.look mark conn marks tally
  | fetch other =>
    have unread := tally.trans (Tally.count_read other)
    cases o with
    | some φ =>
      apply h.relabel mark marks (.inr ⟨rfl, .inl rfl⟩) _ _ unread
      · rw [conn]; rfl
      · rw [conn]; rfl
    | none =>
      apply h.relabel mark marks (.inl rfl) _ _ unread
      · rw [conn]; rfl
      · rw [conn]; rfl
  | decrypt =>
    cases o with
    | error φ =>
      apply h.relabel mark marks (.inr ⟨rfl, .inl rfl⟩) _ _ tally
      · rw [conn]; rfl
      · rw [conn]; rfl
    | ok a =>
      apply h.relabel mark marks (.inl rfl) _ _ tally
      · rw [conn]; rfl
      · rw [conn]; rfl
  | verify =>
    cases rejects
    obtain ⟨present, quiet⟩ := apart _ _ _ rfl
    exact h.verify mark present quiet conn marks tally
  | time =>
    apply h.relabel mark marks (.inl rfl) _ _ tally
    · rw [conn]; rfl
    · rw [conn]; rfl
  | register now =>
    cases rejects
    exact h.register mark rfl conn marks tally
  | record =>
    cases rejects
    exact h.record mark conn marks tally
  | idle isOver =>
    apply h.relabel mark (still isOver) (.inl rfl) _ _ tally
    · rw [conn]; rfl
    · rw [conn]; rfl
  | report isOver other =>
    apply h.relabel mark (still isOver) (.inl rfl) _ _ (tally.trans (Tally.count_read other))
    · rw [conn]; cases o <;> rfl
    · rw [conn]; cases o <;> rfl
  | insert isOver =>
    have rows : loginRow name w'.system.conn.committed = loginRow name w.system.conn.committed ∧
        loginRow name w'.system.conn.view = loginRow name w.system.conn.view := by
      rw [conn]
      cases o with
      | some φ => exact ⟨rfl, rfl⟩
      | none =>
        simp only [Connection.act]
        split
        · rename_i db n applied
          exact ⟨rfl, loginRow_insertAudit applied⟩
        · exact ⟨rfl, rfl⟩
    exact h.relabel mark (still isOver) (.inl rfl) rows.1 rows.2 tally
  | publish isOver =>
    cases o with
    | some φ =>
      apply h.relabel mark (still isOver) (.inl rfl) _ _ tally
      · rw [conn]; rfl
      · rw [conn]; rfl
    | none =>
      apply h.publish conn _ tally
      obtain ⟨hi, rfl⟩ := List.getElem?_eq_some_iff.mp mark
      rw [still isOver, List.set_getElem_self]
  | unwatched => exact absurd (List.mem_of_getElem? mark) h.failing

end Throttled

/-- Logins of one user with wrong passwords. -/
def FailingLogins (svc : AuthenticationService) (name : String) (w : Logins) : AccessMove → Prop
  | .invoke p => ∃ password origin,
    p = (Authentication.authenticate svc name password origin).bind fun _ => .ret ()
  | .act i o => ∀ m, w.system.next i = some m → Rejects m (o m)
  | .crash => False

/-- No login verifies a password that another failure disturbs. -/
def LoginsApart (name : String) (w : Logins) : AccessMove → Prop
  | .act i _ => ∀ q m, w.marks[i]? = some q → w.system.next i = some m → Undisturbed name w q m
  | _ => True

/-- The count and the lock keep up with the failing logins: one that has returned has its failure,
if the password was verified, on record; the count has grown by the failures on record; five lock
the user; and no more than five passwords are verified before a lock expires. -/
structure Counted (name : String) (start : Nat) (w : Logins) : Prop where
  returned : ∀ i q, w.marks[i]? = some q → w.system.next i = none → q.pending = false
  least : start + w.marks.countP (· == .settled) ≤ failures name w.system.conn.committed
  most : failures name w.system.conn.committed ≤ start + w.marks.countP Stage.counted
  exact : (∀ i, w.system.next i = none) →
    failures name w.system.conn.committed = start + w.marks.countP (· == .settled)
  locks : Locks name start w.system.conn.committed
  verifications : w.tally.spent ≤ maxFailedLogins

namespace Throttled

variable {name : String} {start : Nat} {w : Logins}

theorem returned (sound : Watched.Sound (loginScript name) w) {i : Nat} {q : Stage}
    (mark : w.marks[i]? = some q) (isOver : w.system.next i = none) : q.pending = false := by
  by_contra pending
  have going := (sound.inProgress mark pending).2
  rw [isOver] at going
  cases going

theorem settled_le_counted (marks : List Stage) :
    marks.countP (· == .settled) ≤ marks.countP Stage.counted := by
  apply List.countP_mono_left
  intro q _ settled
  rw [beq_iff_eq.mp settled]
  rfl

theorem least (h : Throttled name start w) :
    start + w.marks.countP (· == .settled) ≤ failures name w.system.conn.committed := by
  have grown := h.grown
  obtain same | ⟨last, view⟩ := h.durable
  · have settled := settled_le_counted w.marks
    have same := failures_congr same
    omega
  · -- the failure that is not committed yet is counted and not settled
    obtain ⟨i, mark⟩ := List.mem_iff_getElem?.mp last
    have counted : (w.marks.set i .left).countP Stage.counted + 1 =
        w.marks.countP Stage.counted := countP_set (p := Stage.counted) mark
    have settled : (w.marks.set i .left).countP (· == .settled) =
        w.marks.countP (· == .settled) := countP_set (p := (· == Stage.settled)) mark
    have fewer := settled_le_counted (w.marks.set i .left)
    omega

theorem counts (h : Throttled name start w) (sound : Watched.Sound (loginScript name) w) :
    Counted name start w where
  returned := fun _ _ mark isOver => returned sound mark isOver
  least := h.least
  most := Nat.le_trans h.grows (Nat.le_of_eq h.grown)
  exact := by
    intro isOver
    have settled : w.marks.countP Stage.counted = w.marks.countP (· == .settled) := by
      apply List.countP_congr
      intro q hq
      obtain ⟨i, mark⟩ := List.mem_iff_getElem?.mp hq
      have idle := returned sound mark (isOver i)
      cases q with
      | registered => cases idle
      | _ => simp [Stage.counted]
    have least := h.least
    have grows := h.grows
    have grown := h.grown
    omega
  locks := h.locks.1
  verifications := h.bound

end Throttled

/-- No command fails and the password is wrong. -/
def guess (id : String) : (m : Command) → m.Outcome Fault Answer
  | .ask (.verify _ _) => .ok false
  | m => smooth id m

theorem rejects_guess (id : String) (m : Command) : Rejects m (guess id m) := by
  cases m with
  | ask q =>
    cases q with
    | verify stored password => exact rfl
    | _ => exact trivial
  | execute t s =>
    cases t with
    | register => exact rfl
    | _ => exact trivial
  | commit t =>
    cases t with
    | register => exact rfl
    | _ => exact trivial
  | _ => exact trivial

/-- Guesses come in together; each verifies its password, and then each is rejected. -/
def guesses (ids : List String) : List AccessMove :=
  ids.map (fun _ => .invoke (AuthCall.program plainTokens
    (.authenticate "user" "wrong" ⟨none, none, ""⟩))) ++
  ids.zipIdx.flatMap (fun (id, i) => List.replicate 7 (.act i (guess id))) ++
  ids.zipIdx.flatMap (fun (id, i) => List.replicate 7 (.act i (guess id)))

theorem failing_guesses {ids : List String} {w : Logins} {m : AccessMove}
    (hm : m ∈ guesses ids) : FailingLogins plainTokens "user" w m := by
  have acts : ∀ x : String × Nat, m ∈ List.replicate 7 (.act x.2 (guess x.1)) →
      FailingLogins plainTokens "user" w m := by
    intro x hm
    rw [List.eq_of_mem_replicate hm]
    exact fun m _ => rejects_guess x.1 m
  obtain hm | hm := List.mem_append.mp hm
  · obtain hm | hm := List.mem_append.mp hm
    · obtain ⟨id, -, rfl⟩ := List.mem_map.mp hm
      exact ⟨_, _, rfl⟩
    · obtain ⟨x, -, hm⟩ := List.mem_flatMap.mp hm
      exact acts x hm
  · obtain ⟨x, -, hm⟩ := List.mem_flatMap.mp hm
    exact acts x hm

/-- Six guesses at once. -/
def sixGuesses : Logins :=
  (Watched.init oneUser ⟨0, failures "user" oneUser⟩ : Logins).play (loginScript "user")
    (guesses ["1", "2", "3", "4", "5", "6"])

end McManager.Access
