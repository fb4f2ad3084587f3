import McManager.Guarantees.OldSessions
import McManager.Guarantees.Superadmins
import McManager.Framework.Watched

namespace McManager.Access

open Framework

/-- The user is disabled. -/
def Disabled (userId : String) (db : Database) : Prop :=
  ∀ u ∈ db.users, u.userId = userId → u.status = .disabled

/-- The user is disabled, and has no live session that is not one of `before`. -/
structure StaysDisabled (userId : String) (before db : Database) : Prop where
  status : Disabled userId db
  sessions : ∀ s ∈ db.clientSessions, s.userId = userId → s.live = true →
    ∃ old ∈ before.clientSessions, old.sessionId = s.sessionId

/-- The statements by which a login takes the user up again. -/
def Readmits (userId : String) : Stmt → Prop
  | .registerFailure id _ _ _ => id = userId
  | .insertSession row => row.userId = userId
  | _ => False

/-- `update_user` sets the status back to active. -/
def Reactivates (userId : String) : Stmt → Prop
  | .updateUser id fields _ => id = userId ∧ fields.status = some .active
  | _ => False

/-- What a login may be told of a user who is not disabled. -/
def Enabled (userId : String) (db : Database) : Prop :=
  ∃ u ∈ db.users, u.userId = userId ∧ u.status ≠ .disabled

namespace StaysDisabled

variable {userId : String} {before db db' : Database}

theorem users (h : StaysDisabled userId before db) {p : User → Bool} {f : User → User}
    (update : db'.users = updateWhere p f db.users)
    (sessions : db'.clientSessions = db.clientSessions)
    (keeps : ∀ u, p u = true → (f u).userId = userId →
      u.userId = userId ∧ (u.status = .disabled → (f u).status = .disabled)) :
    StaysDisabled userId before db' := by
  constructor
  · intro u hu same
    rw [update] at hu
    obtain ⟨old, hold, ⟨hit, rfl⟩ | ⟨-, rfl⟩⟩ := mem_updateWhere.mp hu
    · have kept := keeps old hit same
      exact kept.2 (h.status old hold kept.1)
    · exact h.status u hold same
  · rw [sessions]
    exact h.sessions

/-- Updates of sessions that revive none. -/
theorem updated (h : StaysDisabled userId before db) {p : ClientSession → Bool}
    {f : ClientSession → ClientSession} (users : db'.users = db.users)
    (update : db'.clientSessions = updateWhere p f db.clientSessions)
    (keeps : ∀ s, (f s).userId = s.userId ∧ (f s).sessionId = s.sessionId ∧
      ((f s).live = true → s.live = true)) : StaysDisabled userId before db' := by
  constructor
  · rw [Disabled, users]
    exact h.status
  · intro s hs same live
    rw [update] at hs
    obtain ⟨old, hold, ⟨-, rfl⟩ | ⟨-, rfl⟩⟩ := mem_updateWhere.mp hs
    · have kept := keeps old
      rw [kept.2.1]
      exact h.sessions old hold (kept.1.symm.trans same) (kept.2.2 live)
    · exact h.sessions s hold same live

theorem rows (h : StaysDisabled userId before db) (users : db'.users = db.users)
    (sessions : db'.clientSessions = db.clientSessions) : StaysDisabled userId before db' := by
  constructor
  · rw [Disabled, users]
    exact h.status
  · rw [sessions]
    exact h.sessions

theorem apply {s : Stmt} {n : Nat} (h : StaysDisabled userId before db)
    (none' : ¬Readmits userId s) (inactive : ¬Reactivates userId s)
    (unlocked : ∀ id fields now, s = .updateUser id fields now → fields.status ≠ some .locked)
    (new : ∀ row, s ≠ .insertUser row) (applied : s.apply db = .ok (db', n)) :
    StaysDisabled userId before db' := by
  cases s with
  | resetFailures id now =>
    cases applied
    refine h.users rfl rfl ?_
    intro u _ same
    refine ⟨same, ?_⟩
    intro disabled
    dsimp only
    rw [disabled]
    rfl
  | registerFailure id count lockedUntil now =>
    cases applied
    refine h.users rfl rfl ?_
    intro u hit same
    exact absurd ((beq_iff_eq.mp hit).symm.trans same) none'
  | updateUser id fields now =>
    obtain ⟨-, rfl, -⟩ := constrained_ok.mp applied
    refine h.users rfl rfl ?_
    intro u hit same
    refine ⟨same, ?_⟩
    intro disabled
    change fields.status.getD u.status = .disabled
    cases hs : fields.status with
    | none => exact disabled
    | some status =>
      cases status with
      | disabled => rfl
      | active => exact absurd ⟨(beq_iff_eq.mp hit).symm.trans same, hs⟩ inactive
      | locked => exact absurd hs (unlocked id fields now rfl)
  | setSecret id secretId now =>
    obtain ⟨-, rfl, -⟩ := constrained_ok.mp applied
    exact h.users rfl rfl fun u _ same => ⟨same, fun disabled => disabled⟩
  | deleteUser id now deletedBy =>
    cases applied
    exact h.users rfl rfl fun u _ same => ⟨same, fun disabled => disabled⟩
  | insertUser row => exact absurd rfl (new row)
  | insertSession row =>
    obtain ⟨-, rfl, -⟩ := constrained_ok.mp applied
    refine ⟨h.status, ?_⟩
    intro s hs same live
    obtain hs | hs := List.mem_append.mp hs
    · exact h.sessions s hs same live
    · rw [List.mem_singleton.mp hs] at same
      exact absurd same none'
  | revokeSession sessionId deletedAt lastActivityAt =>
    cases applied
    exact h.updated rfl rfl fun s => ⟨rfl, rfl, fun live => (nomatch live)⟩
  | confirmSession sessionId confirmedAt =>
    cases applied
    exact h.updated rfl rfl fun s => ⟨rfl, rfl, fun live => live⟩
  | revokeSessions id now deletedBy changed =>
    cases applied
    exact h.updated rfl rfl fun s => ⟨rfl, rfl, fun live => (nomatch live)⟩
  | revokeDeviceSessions deviceId now deletedBy =>
    cases applied
    exact h.updated rfl rfl fun s => ⟨rfl, rfl, fun live => (nomatch live)⟩
  | insertAudit row | insertSecret row | setRotationOf secretId rotationOf | insertRole row =>
    obtain ⟨-, rfl, -⟩ := constrained_ok.mp applied
    exact h.rows rfl rfl
  | insertAssignment assignmentId id roleId =>
    cases roleId with
    | none => cases applied
    | some roleId =>
      obtain ⟨-, rfl, -⟩ := constrained_ok.mp applied
      exact h.rows rfl rfl
  | upsertDevice row =>
    have applied := congrArg Prod.fst (Except.ok.inj applied)
    dsimp only at applied
    rw [← applied]
    split <;> exact h.rows rfl rfl
  | markRotated secretId now | revokeAssignments id now deletedBy | updateDevice deviceId fields
  | revokeDevice deviceId now deletedBy | completeSetup now =>
    cases applied
    exact h.rows rfl rfl

end StaysDisabled

/-- What a call may run that has seen the users so, if it has looked for one that logs in. -/
def Seen (seen : Option Database) : Command → Prop
  | .execute _ s => match s with
    | .registerFailure id _ _ _ => ∃ db ∈ seen, Enabled id db
    | .insertSession row => ∃ db ∈ seen, Enabled row.userId db
    | .updateUser _ fields _ => fields.status ≠ some .locked
    | .insertUser _ => False
    | _ => True
  | _ => True

def look (seen : Option Database) :
    (m : Command) → Except Exn (m.Reply Database Answer) → Option Database
  | .read .loginRow, .ok db => some db
  | _, _ => seen

/-- The script of `authenticate` and of the user routes: a mark is what a login has seen of the
users. -/
def loginLook : Script Site Stmt Query Answer Database Exn (Option Database) Unit where
  start := none
  allows := Seen
  next := look
  count _ _ _ _ := ()
  ends _ := True

abbrev LoginLooks := Watched Site Stmt Query Answer Database Exn (Option Database) Unit

section Follows

theorem look_same (seen : Option Database) {m : Command} (other : m ≠ .read .loginRow)
    (r : Except Exn (m.Reply Database Answer)) : look seen m r = seen := by
  cases m with
  | read t =>
    cases t with
    | loginRow => exact absurd rfl other
    | _ => rfl
  | _ => rfl

theorem attends_still {userId : String} {db : Database} (enabled : Enabled userId db) (m : Command)
    (h : Onward (Attends userId) m) :
    loginLook.allows (some db) m ∧ ∀ r, loginLook.next (some db) m r = some db := by
  have other : m ≠ .read .loginRow := fun same => by rw [same] at h; exact h rfl
  refine ⟨?_, look_same (some db) other⟩
  cases m with
  | execute t s =>
    cases s with
    | registerFailure id count lockedUntil now =>
      change id = userId at h
      exact ⟨db, rfl, h ▸ enabled⟩
    | insertSession row =>
      change row.userId = userId at h
      exact ⟨db, rfl, h ▸ enabled⟩
    | updateUser id fields now => exact absurd h fun h => h
    | insertUser row => exact absurd h fun h => h
    | _ => exact trivial
  | _ => exact trivial

theorem rotates_still (seen : Option Database) (m : Command) (h : Onward Rotates m) :
    loginLook.allows seen m ∧ ∀ r, loginLook.next seen m r = seen := by
  have other : m ≠ .read .loginRow := fun same => by rw [same] at h; exact h rfl
  refine ⟨?_, look_same seen other⟩
  cases m with
  | execute t s =>
    cases s with
    | registerFailure id count lockedUntil now => exact absurd h fun h => h
    | insertSession row => exact absurd h fun h => h
    | updateUser id fields now => exact absurd h fun h => h
    | insertUser row => exact absurd h fun h => h
    | _ => exact trivial
  | _ => exact trivial

theorem administers_still (m : Command) (h : Rolling Administers m) :
    loginLook.allows none m ∧ ∀ r, loginLook.next none m r = none := by
  have other : m ≠ .read .loginRow := by
    intro same
    rw [same] at h
    obtain h | h := h
    · cases h
    · exact h rfl
  refine ⟨?_, look_same none other⟩
  cases m with
  | execute t s =>
    have administers : Administers s := h.resolve_left nofun
    cases s with
    | registerFailure id count lockedUntil now => exact absurd administers fun h => h
    | insertSession row => exact absurd administers fun h => h
    | updateUser id fields now => exact administers
    | insertUser row => exact absurd administers fun h => h
    | _ => exact trivial
  | _ => exact trivial

theorem follows_login (svc : AuthenticationService) (username password : String)
    (origin : Origin) : loginLook.Follows (fun _ _ => True)
      (Authentication.authenticate svc username password origin) none := by
  have audited : ∀ {eventType : String} {actor : Actor} {e : Exn} {db : Database},
      loginLook.Follows (fun _ _ => True)
        ((audit eventType actor).bind fun _ => (.raise e : Prog Issued)) (some db) := by
    intro eventType actor e db
    have plain : ((audit eventType actor).bind fun _ => (.raise e : Prog Issued)).Confined
        (Onward Rotates) := (confined_audit fun _ => trivial).bind fun _ => trivial
    exact (Script.Follows.confined plain (rotates_still _)).mono fun _ _ _ => trivial
  apply Script.Follows.step trivial _ fun e => trivial
  intro at'
  apply Script.Follows.read trivial _ fun e => trivial
  intro db
  change loginLook.Follows _ _ (some db)
  cases hrow : db.users.find? fun u => u.username == username && u.live with
  | none => exact audited
  | some row =>
    have mem := List.mem_of_find?_eq_some hrow
    apply Script.Follows.read trivial _ fun e => trivial
    intro users
    change loginLook.Follows _ _ (some db)
    split
    · exact audited
    · split
      · exact audited
      · rename_i enabled
        have plain := confined_admitted svc password origin at' row
          { userId := some row.userId, username := (users.user? row.userId).map User.username }
        apply (Script.Follows.confined plain (attends_still ⟨row, mem, rfl, enabled⟩)).mono
        exact fun _ _ _ => trivial

end Follows

/-- No login that has seen the user enabled takes it up again. -/
def Withheld (userId : String) (w : LoginLooks) : AccessMove → Prop
  | .act i o => ∀ db m, w.At i (some db) → Enabled userId db → w.system.next i = some m →
    m.Meets (fun s _ => ¬Readmits userId s) w.system.conn (o m)
  | _ => True

/-- The user stays disabled since `before`, and a login that has looked since has seen that. -/
structure StayedDisabled (userId : String) (before w : LoginLooks) : Prop where
  committed : StaysDisabled userId before.system.conn.committed w.system.conn.committed
  view : StaysDisabled userId before.system.conn.committed w.system.conn.view
  looks : ∀ db, some db ∈ w.marks → some db ∈ before.marks ∨ Disabled userId db

namespace StayedDisabled

variable {userId : String} {before w w' : LoginLooks} {i : Nat} {seen : Option Database}

theorem look {m : Command} {o : m.Outcome Fault Answer} (h : StayedDisabled userId before w)
    (acted : Watched.Acted loginLook w w' i seen m o) : ∀ db, some db ∈ w'.marks →
      some db ∈ before.marks ∨ Disabled userId db := by
  intro db hdb
  rw [acted.marks] at hdb
  obtain hdb | hdb := List.mem_or_eq_of_mem_set hdb
  · exact h.looks db hdb
  · by_cases looks : m = .read .loginRow
    · subst looks
      cases o with
      | some φ =>
        have old : some db ∈ w.marks := hdb ▸ List.mem_of_getElem? acted.was.1
        exact h.looks db old
      | none =>
        rw [Option.some.inj hdb]
        exact .inr h.committed.status
    · have same := look_same seen looks
        (w.system.conn.act m o : Except Exn (m.Reply Database Answer) × _).1
      have old : some db ∈ w.marks := (hdb.trans same) ▸ List.mem_of_getElem? acted.was.1
      exact h.looks db old

theorem acted {m : Command} {o : m.Outcome Fault Answer} (h : StayedDisabled userId before w)
    (acted : Watched.Acted loginLook w w' i seen m o)
    (withheld : ∀ db, seen = some db → Enabled userId db →
      m.Meets (fun s _ => ¬Readmits userId s) w.system.conn o)
    (inactive : m.Meets (fun s _ => ¬Reactivates userId s) w.system.conn o) :
    StayedDisabled userId before w' := by
  have looks := h.look acted
  have conn := acted.conn
  have looked : m.Looks → StayedDisabled userId before w' := by
    intro looks'
    have rows := w.system.conn.act_looks looks' o
    rw [← conn] at rows
    exact ⟨rows.1 ▸ h.committed, rows.2 ▸ h.view, looks⟩
  cases m with
  | begin t => exact looked trivial
  | select t => exact looked trivial
  | read t => exact looked trivial
  | ask q => exact looked trivial
  | draw q => exact looked trivial
  | rollback => exact ⟨conn ▸ h.committed, conn ▸ h.committed, looks⟩
  | commit t =>
    cases o with
    | some φ => exact ⟨conn ▸ h.committed, conn ▸ h.view, looks⟩
    | none => exact ⟨conn ▸ h.view, conn ▸ h.view, looks⟩
  | execute t s =>
    obtain ⟨e, act⟩ | ⟨db, n, rfl, applied, act⟩ :=
      w.system.conn.act_execute (Q := Query) (A := Answer) t s o
    · rw [act] at conn
      exact ⟨conn ▸ h.committed, conn ▸ h.view, looks⟩
    · rw [act] at conn
      have allowed := acted.allowed
      have none' : ¬Readmits userId s := by
        intro readmits
        have known : ∃ db ∈ seen, Enabled userId db := by
          cases s with
          | registerFailure id count lockedUntil now =>
            change id = userId at readmits
            rw [← readmits]
            exact allowed
          | insertSession row =>
            change row.userId = userId at readmits
            rw [← readmits]
            exact allowed
          | _ => exact absurd readmits fun h => h
        obtain ⟨db, hdb, enabled⟩ := known
        exact withheld db hdb enabled readmits
      have unlocked : ∀ id fields now, s = .updateUser id fields now →
          fields.status ≠ some .locked := by
        intro id fields now same
        subst same
        exact allowed
      have new : ∀ row, s ≠ .insertUser row := by
        intro row same
        subst same
        exact allowed
      have applied := h.view.apply none' inactive unlocked new applied
      exact ⟨conn ▸ h.committed, conn ▸ applied, looks⟩

end StayedDisabled

/-- The calls are logins, and requests that update and delete users. -/
def OnLogins (svc : AuthenticationService) (m : AccessMove) : Prop :=
  ∀ p, m = .invoke p → (∃ username password origin,
    p = (Authentication.authenticate svc username password origin).bind fun _ => .ret ()) ∨
      ∃ call : UserCall, p = call.program

theorem OnLogins.follows {svc : AuthenticationService} {m : AccessMove} (h : OnLogins svc m)
    (p : Prog Unit) (hp : m = .invoke p) :
    loginLook.Follows (fun _ => loginLook.ends) p loginLook.start := by
  have routed : ∀ p : Prog Reply, p.Confined (Rolling Administers) →
      loginLook.Follows (fun _ => loginLook.ends) (p.bind fun _ => .ret ()) none := by
    intro p confined
    apply Script.Follows.bind (Script.Follows.confined confined administers_still)
    · exact fun _ _ _ => trivial
    · exact fun _ _ _ => trivial
  obtain ⟨username, password, origin, rfl⟩ | ⟨call, rfl⟩ := h p hp
  · apply Script.Follows.bind (follows_login svc username password origin)
    · exact fun _ _ _ => trivial
    · exact fun _ _ _ => trivial
  · cases call with
    | update byUserId userId body => exact routed _ (confined_updateUser byUserId userId body)
    | delete byUserId userId =>
      exact routed _ ((confined_deleteUser byUserId userId).mono fun _ => .inr)

/-- A login of the user with this password. -/
def userLogin (password : String) : AccessMove :=
  .invoke ((Authentication.authenticate plainTokens "user" password ⟨none, none, ""⟩).bind
    fun _ => .ret ())

def disableUser : AccessMove :=
  .invoke (UserCall.program (.update "a" "u" (some [("status", .str "disabled")])))

theorem onLogins_login (password : String) : OnLogins plainTokens (userLogin password) :=
  fun _ hp => .inl ⟨_, _, _, (Move.invoke.inj hp).symm⟩

theorem onLogins_disable : OnLogins plainTokens disableUser :=
  fun _ hp => .inr ⟨_, (Move.invoke.inj hp).symm⟩

/-- One user, who is disabled. -/
def oneDisabled : Database where
  users := [{ userId := "u", username := "user", secretId := "s", status := .disabled }]
  secrets := oneUser.secrets

/-- A call takes its next commands; none fails. -/
def served (i n : Nat) : List AccessMove := List.replicate n (.act i (smooth "1"))

theorem onLogins_served {svc : AuthenticationService} {i n : Nat} {m : AccessMove}
    (hm : m ∈ served i n) : OnLogins svc m := by
  intro p hp
  cases (List.eq_of_mem_replicate hm).symm.trans hp

/-- The first call takes its next command. -/
def LoginLooks.turn (w : LoginLooks) : LoginLooks :=
  w.step loginLook (.act 0 (smooth "1") : AccessMove)

/-- A login looks at the user, and verifies its password, before the user is disabled. -/
def lateLogin (password : String) : LoginLooks :=
  (Watched.init oneUser () : LoginLooks).play loginLook
    ([userLogin password, disableUser] ++ served 0 7 ++ served 1 5)

theorem lateLogin_run (password : String) :
    Watched.Run loginLook (fun _ (m : AccessMove) => OnLogins plainTokens m)
      (Watched.init oneUser ()) (lateLogin password) := by
  apply Watched.Run.play _ _ .start
  intro _ m hm
  obtain hm | hm := List.mem_append.mp hm
  · obtain hm | hm := List.mem_append.mp hm
    · obtain rfl | hm := List.mem_cons.mp hm
      · exact onLogins_login password
      · rw [List.mem_singleton.mp hm]
        exact onLogins_disable
    · exact onLogins_served hm
  · exact onLogins_served hm

/-- A command that updates no user. -/
def Inactive : Command → Bool
  | .execute _ (.updateUser _ _ _) => false
  | _ => true

theorem inactive_meets {userId : String} {c : Connection Database} {m : Command}
    (h : Inactive m = true) (o : m.Outcome Fault Answer) :
    m.Meets (fun s _ => ¬Reactivates userId s) c o := by
  cases m with
  | execute t s =>
    cases o with
    | some φ => exact trivial
    | none =>
      cases s with
      | updateUser id fields now => cases h
      | _ => exact not_false
  | _ => exact trivial

theorem inactive_move {userId : String} {s : AccessSystem} {i : Nat}
    {o : (m : Command) → m.Outcome Fault Answer} (h : (s.next i).all Inactive = true) :
    System.Meets (fun s _ => ¬Reactivates userId s) s (.act i o) := by
  intro m hm
  rw [hm] at h
  exact inactive_meets h (o m)

end McManager.Access
