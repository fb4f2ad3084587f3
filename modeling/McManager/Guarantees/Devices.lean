import McManager.Access.Commands
import McManager.Framework.Watched
import McManager.Guarantees.OldSessions

namespace McManager.Access

open Framework Program

/-- Revoked, and not approved again since. -/
def Device.revoked (d : Device) : Bool := !d.live && !d.approved

/-- A live session, expired or not, is bound to a revoked device only where the device is one of
these. -/
def HeldOnlyBy (spared : String → Prop) (db : Database) : Prop :=
  ∀ s ∈ db.clientSessions, s.live = true → ∀ d ∈ db.devices, s.deviceId = some d.deviceId →
    d.revoked = true → spared d.deviceId

/-- No live session is bound to a revoked device. -/
def RevokedHoldNone (db : Database) : Prop := HeldOnlyBy (fun _ => False) db

instance (db : Database) : Decidable (RevokedHoldNone db) :=
  inferInstanceAs (Decidable (∀ s ∈ db.clientSessions, s.live = true → ∀ d ∈ db.devices,
    s.deviceId = some d.deviceId → d.revoked = true → False))

/-- A session is stored for a revoked device only where the device is one of these. -/
def Admissible (spared : String → Prop) (s : Stmt) (db : Database) : Prop :=
  match s with
  | .insertSession row => ∀ d ∈ db.devices, row.deviceId = some d.deviceId → d.revoked = true →
    spared d.deviceId
  | _ => True

/-- What a statement does to the devices that are spared. -/
def spares (s : Stmt) (spared : String → Prop) (id : String) : Prop :=
  match s with
  | .revokeDevice deviceId _ _ => id = deviceId ∨ spared id
  | .revokeDeviceSessions deviceId _ _ => id ≠ deviceId ∧ spared id
  | _ => spared id

section Rows

variable {spared : String → Prop} {db db' : Database}

theorem HeldOnlyBy.mono {spared' : String → Prop} (h : HeldOnlyBy spared db)
    (weaken : ∀ id, spared id → spared' id) : HeldOnlyBy spared' db :=
  fun s hs live d hd bound revoked => weaken _ (h s hs live d hd bound revoked)

/-- Sessions that are not new and devices that are not newly revoked. -/
theorem HeldOnlyBy.same (h : HeldOnlyBy spared db)
    (sessions : ∀ s ∈ db'.clientSessions, s.live = true →
      ∃ old ∈ db.clientSessions, old.live = true ∧ old.deviceId = s.deviceId)
    (devices : ∀ d ∈ db'.devices, d.revoked = true →
      ∃ old ∈ db.devices, old.revoked = true ∧ old.deviceId = d.deviceId) :
    HeldOnlyBy spared db' := by
  intro s hs live d hd bound revoked
  obtain ⟨s₀, hs₀, live₀, device₀⟩ := sessions s hs live
  obtain ⟨d₀, hd₀, revoked₀, id₀⟩ := devices d hd revoked
  have held := h s₀ hs₀ live₀ d₀ hd₀ (by rw [device₀, bound, id₀]) revoked₀
  rw [id₀] at held
  exact held

theorem kept_sessions (same : db'.clientSessions = db.clientSessions) :
    ∀ s ∈ db'.clientSessions, s.live = true →
      ∃ old ∈ db.clientSessions, old.live = true ∧ old.deviceId = s.deviceId := by
  intro s hs live
  rw [same] at hs
  exact ⟨s, hs, live, rfl⟩

theorem kept_devices (same : db'.devices = db.devices) :
    ∀ d ∈ db'.devices, d.revoked = true →
      ∃ old ∈ db.devices, old.revoked = true ∧ old.deviceId = d.deviceId := by
  intro d hd revoked
  rw [same] at hd
  exact ⟨d, hd, revoked, rfl⟩

/-- Updates of sessions that revive none. -/
theorem updated_sessions {p : ClientSession → Bool} {f : ClientSession → ClientSession}
    (update : db'.clientSessions = updateWhere p f db.clientSessions)
    (keeps : ∀ s, (f s).deviceId = s.deviceId ∧ ((f s).live = true → s.live = true)) :
    ∀ s ∈ db'.clientSessions, s.live = true →
      ∃ old ∈ db.clientSessions, old.live = true ∧ old.deviceId = s.deviceId := by
  intro s hs live
  rw [update] at hs
  obtain ⟨old, hold, ⟨-, rfl⟩ | ⟨-, rfl⟩⟩ := mem_updateWhere.mp hs
  · exact ⟨old, hold, (keeps old).2 live, (keeps old).1.symm⟩
  · exact ⟨s, hold, live, rfl⟩

/-- Updates of devices that revoke none. -/
theorem updated_devices {p : Device → Bool} {f : Device → Device}
    (update : db'.devices = updateWhere p f db.devices)
    (keeps : ∀ d, (f d).deviceId = d.deviceId ∧ ((f d).revoked = true → d.revoked = true)) :
    ∀ d ∈ db'.devices, d.revoked = true →
      ∃ old ∈ db.devices, old.revoked = true ∧ old.deviceId = d.deviceId := by
  intro d hd revoked
  rw [update] at hd
  obtain ⟨old, hold, ⟨-, rfl⟩ | ⟨-, rfl⟩⟩ := mem_updateWhere.mp hd
  · exact ⟨old, hold, (keeps old).2 revoked, (keeps old).1.symm⟩
  · exact ⟨d, hold, revoked, rfl⟩

theorem held_upsertDevice {row : Device} {n : Nat} (h : HeldOnlyBy spared db)
    (new : row.revoked = false) (applied : (Stmt.upsertDevice row).apply db = .ok (db', n)) :
    HeldOnlyBy spared db' := by
  have applied := congrArg Prod.fst (Except.ok.inj applied)
  dsimp only at applied
  rw [← applied]
  split
  · apply h.same
    · exact kept_sessions rfl
    · exact updated_devices rfl fun d => ⟨rfl, fun revoked => revoked⟩
  · apply h.same
    · exact kept_sessions rfl
    · intro d hd revoked
      obtain hd | hd := List.mem_append.mp hd
      · exact ⟨d, hd, revoked, rfl⟩
      · rw [List.mem_singleton.mp hd, new] at revoked
        cases revoked

/-- What one statement does to the sessions of revoked devices. -/
theorem held_apply {s : Stmt} {n : Nat} (h : HeldOnlyBy spared db)
    (new : ∀ row, s = .upsertDevice row → row.revoked = false)
    (admissible : Admissible spared s db) (applied : s.apply db = .ok (db', n)) :
    HeldOnlyBy (spares s spared) db' := by
  cases s with
  | upsertDevice row => exact held_upsertDevice h (new row rfl) applied
  | insertSession row =>
    obtain ⟨-, rfl, -⟩ := constrained_ok.mp applied
    intro s hs live d hd bound revoked
    obtain hs | hs := List.mem_append.mp hs
    · exact h s hs live d hd bound revoked
    · rw [List.mem_singleton.mp hs] at bound
      exact admissible d hd bound revoked
  | revokeSession sessionId deletedAt lastActivityAt =>
    cases applied
    change HeldOnlyBy spared _
    apply h.same
    · exact updated_sessions rfl fun s => ⟨rfl, fun live => (nomatch live)⟩
    · exact kept_devices rfl
  | confirmSession sessionId confirmedAt =>
    cases applied
    change HeldOnlyBy spared _
    apply h.same
    · exact updated_sessions rfl fun s => ⟨rfl, fun live => live⟩
    · exact kept_devices rfl
  | revokeSessions userId now deletedBy changed =>
    cases applied
    change HeldOnlyBy spared _
    apply h.same
    · exact updated_sessions rfl fun s => ⟨rfl, fun live => (nomatch live)⟩
    · exact kept_devices rfl
  | updateDevice deviceId fields =>
    cases applied
    change HeldOnlyBy spared _
    apply h.same
    · exact kept_sessions rfl
    · apply updated_devices rfl
      intro d
      refine ⟨rfl, ?_⟩
      intro revoked
      simp only [Device.revoked, Device.live, DeviceFields.set, Bool.and_eq_true,
        Bool.not_eq_true', Bool.or_eq_false_iff] at revoked ⊢
      exact ⟨revoked.1, revoked.2.1⟩
  | revokeDevice deviceId now deletedBy =>
    cases applied
    intro s hs live d hd bound revoked
    obtain ⟨old, hold, ⟨hit, rfl⟩ | ⟨-, rfl⟩⟩ := mem_updateWhere.mp hd
    · exact .inl (beq_iff_eq.mp hit)
    · exact .inr (h s hs live d hold bound revoked)
  | revokeDeviceSessions deviceId now deletedBy =>
    cases applied
    intro s hs live d hd bound revoked
    obtain ⟨old, hold, ⟨-, rfl⟩ | ⟨miss, rfl⟩⟩ := mem_updateWhere.mp hs
    · cases live
    · refine ⟨?_, h s hold live d hd bound revoked⟩
      intro same
      rw [bound, live, same] at miss
      simp at miss
  | insertAudit row | insertSecret row | setRotationOf secretId rotationOf
  | setSecret userId secretId now | updateUser userId fields now | insertUser row
  | insertRole row =>
    obtain ⟨-, rfl, -⟩ := constrained_ok.mp applied
    exact h
  | insertAssignment assignmentId userId roleId =>
    cases roleId with
    | none => cases applied
    | some roleId =>
      obtain ⟨-, rfl, -⟩ := constrained_ok.mp applied
      exact h
  | resetFailures userId now | registerFailure userId count lockedUntil now
  | markRotated secretId now | deleteUser userId now deletedBy
  | revokeAssignments userId now deletedBy | completeSetup now =>
    cases applied
    exact h

end Rows

/-- How far a revocation has come: it has marked the device, or also ended its sessions, and not
committed that yet. -/
inductive Revocation
  | idle
  | marked (deviceId : String)
  | ended (deviceId : String)
  deriving DecidableEq, Repr

namespace Revocation

/-- What a call may run next. -/
def Allows : Revocation → Command → Prop
  | .idle, .execute _ s => (∀ row, s = .upsertDevice row → row.revoked = false) ∧
    ∀ deviceId now deletedBy, s ≠ .revokeDeviceSessions deviceId now deletedBy
  | .idle, .rollback => False
  | .idle, _ => True
  | .marked deviceId, .execute _ s => ∃ now deletedBy, s = .revokeDeviceSessions deviceId now deletedBy
  | .marked _, .commit _ => True
  | .ended _, .commit _ => True
  | _, _ => False

def next : Revocation → (m : Command) → Except Exn (m.Reply Database Answer) → Revocation
  | .idle, .execute _ (.revokeDevice deviceId _ _), .ok _ => .marked deviceId
  | .marked deviceId, .execute _ _, .ok _ => .ended deviceId
  | .marked deviceId, .commit _, .ok _ => .marked deviceId
  | _, _, _ => .idle

end Revocation

/-- The script of `update_device`, and of the calls that issue sessions. -/
def revocation : Script Site Stmt Query Answer Database Exn Revocation Unit where
  start := .idle
  allows := Revocation.Allows
  next := Revocation.next
  count _ _ _ _ := ()
  ends q := q = .idle

abbrev Revocations := Watched Site Stmt Query Answer Database Exn Revocation Unit

section Follows

/-- The commands of a call that revokes no device. -/
def Plain (m : Command) : Prop :=
  (∀ t s, m = .execute t s → (∀ row, s = .upsertDevice row → row.revoked = false) ∧
    (∀ deviceId now deletedBy, s ≠ .revokeDeviceSessions deviceId now deletedBy) ∧
    ∀ deviceId now deletedBy, s ≠ .revokeDevice deviceId now deletedBy) ∧ m ≠ .rollback

theorem plain_still (m : Command) (h : Plain m) :
    revocation.allows .idle m ∧ ∀ r, revocation.next .idle m r = .idle := by
  obtain ⟨stmt, back⟩ := h
  cases m with
  | execute t s =>
    have stmt := stmt t s rfl
    refine ⟨⟨stmt.1, stmt.2.1⟩, ?_⟩
    intro r
    cases s with
    | revokeDevice deviceId now deletedBy => exact absurd rfl (stmt.2.2 deviceId now deletedBy)
    | _ => rfl
  | rollback => exact absurd rfl back
  | _ => exact ⟨trivial, fun r => rfl⟩

theorem plain_onward {userId : String} (m : Command) (h : Onward (Attends userId) m) : Plain m := by
  cases m with
  | execute t s =>
    refine ⟨?_, nofun⟩
    intro t' s' same
    obtain ⟨rfl, rfl⟩ := Cmd.execute.inj same
    cases s with
    | upsertDevice row =>
      refine ⟨?_, nofun, nofun⟩
      intro row' same
      rw [Stmt.upsertDevice.inj same] at h
      rw [Device.revoked, h]
      rfl
    | revokeDevice deviceId now deletedBy => exact absurd h id
    | revokeDeviceSessions deviceId now deletedBy => exact absurd h id
    | _ => exact ⟨nofun, nofun, nofun⟩
  | rollback => exact absurd h id
  | _ => exact ⟨fun _ _ same => (nomatch same), fun same => (nomatch same)⟩

theorem plain_confined {α : Type} (userId : String) {p : Prog α}
    (h : p.Confined (Onward (Attends userId))) : p.Confined Plain := h.mono plain_onward

theorem plain_authenticate (svc : AuthenticationService) (username password : String)
    (origin : Origin) :
    (Authentication.authenticate svc username password origin).Confined Plain := by
  have audited : ∀ {eventType : String} {actor : Actor}, (audit eventType actor).Confined Plain :=
    plain_confined "" (confined_audit fun _ => trivial)
  have look : Plain (.read .loginRow) := ⟨fun _ _ same => (nomatch same), fun same => (nomatch same)⟩
  apply Confined.bind (plain_confined "" confined_draw)
  intro at'
  apply Confined.bind (Confined.query look)
  intro row
  cases row with
  | none => exact Confined.bind audited fun _ => trivial
  | some row =>
    apply Confined.bind (plain_confined "" confined_snapshot)
    intro actor
    split
    · exact Confined.bind audited fun _ => trivial
    · split
      · exact Confined.bind audited fun _ => trivial
      · exact plain_confined row.userId (confined_admitted svc password origin at' row actor)

theorem plain_confirmStepUp (svc : AuthenticationService) (rawToken password : String)
    (origin : Origin) :
    (Authentication.confirmStepUp svc rawToken password origin).Confined Plain := by
  apply Confined.bind (plain_confined "" (confined_validateSession svc rawToken (fun _ => trivial) fun _ _ _ => trivial))
  intro current
  apply Confined.bind (plain_confined "" confined_verifyPassword)
  intro verified
  obtain ⟨valid, secretId⟩ := verified
  have snapshot : (snapshotForUser current.userId).Confined Plain :=
    plain_confined "" confined_snapshot
  have audited : ∀ {eventType : String} {actor : Actor}, (audit eventType actor).Confined Plain :=
    plain_confined "" (confined_audit fun _ => trivial)
  cases valid with
  | false =>
    apply Confined.bind snapshot
    intro actor
    exact Confined.bind audited fun _ => trivial
  | true =>
    apply Confined.bind (plain_confined "" (confined_revokeSessionId _ (fun _ => trivial) fun _ _ _ => trivial))
    intro _
    apply Confined.bind (plain_confined _ (confined_issueSession svc origin _))
    intro session
    apply Confined.bind (plain_confined "" confined_draw)
    intro confirmedAt
    apply Confined.bind
    · exact plain_confined "" (confined_autocommit (writes trivial))
    · intro _
      apply Confined.bind snapshot
      intro actor
      exact Confined.bind audited fun _ => trivial

theorem AuthCall.plain (svc : AuthenticationService) (call : AuthCall) :
    (call.program svc).Confined Plain := by
  cases call with
  | authenticate username password origin =>
    exact Confined.bind (plain_authenticate svc username password origin) fun _ => trivial
  | issueSession userId origin =>
    apply Confined.bind (plain_confined userId (confined_issueSession svc origin none))
    exact fun _ => trivial
  | confirmStepUp rawToken password origin =>
    exact Confined.bind (plain_confirmStepUp svc rawToken password origin) fun _ => trivial
  | revokeSessionId sessionId => exact plain_confined "" (confined_revokeSessionId sessionId (fun _ => trivial) fun _ _ _ => trivial)
  | changePassword userId newPassword byUserId =>
    apply plain_confined ""
    apply (confined_changePassword userId newPassword byUserId).mono
    exact Onward.mono fun _ => Rotates.attends

theorem next_error (q : Revocation) (m : Command) (e : Exn) :
    revocation.next q m (.error e) = .idle := by
  cases q with
  | idle => cases m with
    | execute t s => cases s <;> rfl
    | _ => rfl
  | marked deviceId => cases m <;> rfl
  | ended deviceId => cases m <;> rfl

/-- One statement of `update_device` and its commit. -/
theorem follows_write {s : Stmt} {q q' q'' : Revocation}
    (runs : revocation.allows q (.execute .updateDevice s))
    (written : ∀ n, revocation.next q (.execute .updateDevice s) (.ok n) = q')
    (commits : revocation.allows q' (.commit .updateDevice))
    (done : revocation.next q' (.commit .updateDevice) (.ok ()) = q'') :
    revocation.Follows (Script.Upon q'' (· = .idle)) (autocommit .updateDevice (Body.write s)) q :=
  Script.Follows.written runs written commits done (fun e => next_error q _ e)
    fun e => next_error q' _ e

theorem follows_updateDevice (byUserId deviceId : String) (body : Option Web.Body) :
    revocation.Follows (fun _ q => q = .idle) (updateDevice byUserId deviceId body) .idle := by
  have revoke : ∀ now, revocation.Follows (fun _ q => q = .idle)
      ((autocommit .updateDevice (Body.write (.revokeDevice deviceId now byUserId))).bind fun _ =>
        (autocommit .updateDevice (Body.write (.revokeDeviceSessions deviceId now byUserId))).bind
          fun _ => (.ret (.ok deviceId) : Prog Reply)) .idle := by
    intro now
    have first := follows_write (s := .revokeDevice deviceId now byUserId) (q := .idle)
      ⟨nofun, nofun⟩ (fun n => rfl) trivial rfl
    have second := follows_write (s := .revokeDeviceSessions deviceId now byUserId)
      (q := .marked deviceId) ⟨now, byUserId, rfl⟩ (fun n => rfl) trivial rfl
    apply first.upon
    · intro _
      apply second.upon
      · exact fun _ => rfl
      · exact fun _ q idle => idle
    · exact fun _ q idle => idle
  have change : ∀ fields, revocation.Follows (fun _ q => q = .idle)
      ((autocommit .updateDevice (Body.write (.updateDevice deviceId fields))).bind
        fun _ => (.ret (.ok deviceId) : Prog Reply)) .idle := by
    intro fields
    have written := follows_write (s := .updateDevice deviceId fields) (q := .idle)
      ⟨nofun, nofun⟩ (fun n => rfl) trivial rfl
    apply written.upon
    · exact fun _ => rfl
    · exact fun _ q idle => idle
  unfold updateDevice
  split
  · exact rfl
  · split
    · exact rfl
    · exact rfl
    · rename_i change' _
      apply Script.Follows.read trivial _ fun e => rfl
      intro db
      split
      · exact rfl
      · apply Script.Follows.step trivial _ fun e => rfl
        intro at'
        cases change' with
        | none => exact revoke at'.seconds
        | some fields => exact change fields

end Follows

/-- A revocation goes on to its last commit once it has marked its device. -/
def Uninterrupted (w : Revocations) : AccessMove → Prop
  | .act i o => ∀ q m, w.At i q → q ≠ .idle → w.system.next i = some m →
    ∃ r, (w.system.conn.act m (o m)).1 = (.ok r : Except Exn _)
  | .crash => ∀ q ∈ w.marks, q = .idle
  | .invoke _ => True

/-- The invariant of uninterrupted revocations. -/
structure Held (w : Revocations) : Prop where
  view : HeldOnlyBy (fun id => .marked id ∈ w.marks) w.system.conn.view
  committed : HeldOnlyBy (fun id => .marked id ∈ w.marks ∨ .ended id ∈ w.marks)
    w.system.conn.committed

namespace Held

variable {w w' : Revocations} {i : Nat} {q : Revocation}

theorem same (h : Held w) (marks : w'.marks = w.marks)
    (view : w'.system.conn.view = w.system.conn.view)
    (committed : w'.system.conn.committed = w.system.conn.committed) : Held w' := by
  constructor
  · rw [marks, view]
    exact h.view
  · rw [marks, committed]
    exact h.committed

/-- A commit, after which the sessions of the devices of `q` need no sparing. -/
theorem publish (h : Held w) (marks : ∀ id, Revocation.marked id ∈ w.marks → .marked id ∈ w'.marks)
    (conn : w'.system.conn = .closed w.system.conn.view) : Held w' := by
  constructor
  · rw [conn]
    exact h.view.mono marks
  · rw [conn]
    exact h.view.mono fun id held => .inl (marks id held)

theorem write {s : Stmt} {db : Database} {n : Nat} (h : Held w)
    (new : ∀ row, s = .upsertDevice row → row.revoked = false)
    (admissible : Admissible (fun id => .marked id ∈ w.marks) s w.system.conn.view)
    (applied : s.apply w.system.conn.view = .ok (db, n))
    (conn : w'.system.conn = ⟨w.system.conn.committed, some db⟩)
    (pending : ∀ id, spares s (fun id => .marked id ∈ w.marks) id → .marked id ∈ w'.marks)
    (underway : ∀ id, Revocation.marked id ∈ w.marks ∨ .ended id ∈ w.marks →
      .marked id ∈ w'.marks ∨ .ended id ∈ w'.marks) : Held w' := by
  constructor
  · rw [conn]
    exact (held_apply h.view new admissible applied).mono pending
  · rw [conn]
    exact h.committed.mono underway

theorem set_same {marks : List Revocation} (mark : marks[i]? = some q) : marks.set i q = marks := by
  obtain ⟨hi, rfl⟩ := List.getElem?_eq_some_iff.mp mark
  exact List.set_getElem_self hi

theorem idle_of_looks {m : Command} (looks : m.Looks) (allowed : revocation.allows q m) :
    q = .idle := by
  cases q with
  | idle => rfl
  | marked deviceId =>
    cases m with
    | execute t s => exact absurd looks id
    | commit t => exact absurd looks id
    | _ => exact absurd allowed id
  | ended deviceId =>
    cases m with
    | commit t => exact absurd looks id
    | _ => exact absurd allowed id

/-- A call that revokes nothing yet runs a statement. -/
theorem executed {t : Site} {s : Stmt} {o : Option Fault} (h : Held w)
    (acted : Watched.Acted revocation w w' i .idle (.execute t s) o)
    (meets : Cmd.Meets (A := Answer) (Admissible fun id => .marked id ∈ w.marks) w.system.conn
      (.execute t s : Command) o) : Held w' := by
  obtain ⟨⟨mark, -⟩, -, allowed, conn, marks, -, -⟩ := acted
  obtain ⟨e, act⟩ | ⟨db, n, rfl, applied, act⟩ :=
    w.system.conn.act_execute (Q := Query) (A := Answer) t s o
  · rw [act] at marks conn
    rw [next_error, set_same mark] at marks
    apply h.same marks
    · rw [conn, Connection.view_opening]
    · rw [conn, Connection.committed_opening]
  · rw [act] at marks conn
    have others : ∀ x ∈ w.marks, x ≠ .idle → x ∈ w'.marks := by
      intro x hx other
      rw [marks]
      exact mem_set_of_ne mark hx other
    apply h.write allowed.1 meets applied conn
    · intro id spared
      cases s with
      | revokeDevice deviceId now deletedBy =>
        obtain rfl | spared := spared
        · rw [marks]
          exact List.mem_set (List.getElem?_eq_some_iff.mp mark).1 _
        · exact others _ spared nofun
      | revokeDeviceSessions deviceId now deletedBy => exact others _ spared.2 nofun
      | _ => exact others _ spared nofun
    · exact fun id => Or.imp (fun held => others _ held nofun) fun held => others _ held nofun

/-- A revocation ends the sessions of its device. -/
theorem ending {t : Site} {deviceId deletedBy : String} {now : Nat} {o : Option Fault}
    (h : Held w) (acted : Watched.Acted revocation w w' i (.marked deviceId)
      (.execute t (.revokeDeviceSessions deviceId now deletedBy)) o) (goes : o = none) :
    Held w' := by
  obtain ⟨⟨mark, -⟩, -, -, conn, marks, -, -⟩ := acted
  subst goes
  have others : ∀ x ∈ w.marks, x ≠ .marked deviceId → x ∈ w'.marks := by
    intro x hx other
    rw [marks]
    exact mem_set_of_ne mark hx other
  have last : Revocation.ended deviceId ∈ w'.marks := by
    rw [marks]
    exact List.mem_set (List.getElem?_eq_some_iff.mp mark).1 _
  apply h.write (s := .revokeDeviceSessions deviceId now deletedBy) nofun trivial rfl conn
  · intro id spared
    apply others _ spared.2
    exact fun same => spared.1 (Revocation.marked.inj same)
  · intro id held
    obtain held | held := held
    · by_cases same : id = deviceId
      · rw [same]
        exact .inr last
      · exact .inl (others _ held fun marked => same (Revocation.marked.inj marked))
    · exact .inr (others _ held nofun)

theorem acted {m : Command} {o : m.Outcome Fault Answer} (h : Held w)
    (acted : Watched.Acted revocation w w' i q m o)
    (meets : m.Meets (Admissible fun id => .marked id ∈ w.marks) w.system.conn o)
    (goes : q ≠ .idle → ∃ r, (w.system.conn.act m o).1 = (.ok r : Except Exn _)) : Held w' := by
  have looked : m.Looks → Held w' := by
    intro looks
    have idle := idle_of_looks looks acted.allowed
    subst idle
    have still : revocation.next .idle m (w.system.conn.act m o).1 = .idle := by
      cases m with
      | execute t s => exact absurd looks id
      | _ => rfl
    have marks := acted.marks
    rw [still, set_same acted.was.1] at marks
    have rows := w.system.conn.act_looks looks o
    rw [← acted.conn] at rows
    exact h.same marks rows.2 rows.1
  cases m with
  | begin t => exact looked trivial
  | select t => exact looked trivial
  | read t => exact looked trivial
  | ask q' => exact looked trivial
  | draw q' => exact looked trivial
  | rollback => cases q <;> exact absurd acted.allowed id
  | commit t =>
    have marks := acted.marks
    have mark := acted.was.1
    cases o with
    | some φ =>
      cases q with
      | idle =>
        apply h.same (marks.trans (set_same mark))
        · rw [acted.conn]; rfl
        · rw [acted.conn]; rfl
      | marked deviceId => cases (goes nofun).choose_spec
      | ended deviceId => cases (goes nofun).choose_spec
    | none =>
      cases q with
      | idle =>
        apply h.publish _ acted.conn
        rw [marks.trans (set_same mark)]
        exact fun id held => held
      | marked deviceId =>
        apply h.publish _ acted.conn
        rw [marks.trans (set_same mark)]
        exact fun id held => held
      | ended deviceId =>
        apply h.publish _ acted.conn
        intro id held
        rw [marks]
        exact mem_set_of_ne mark held nofun
  | execute t s =>
    cases q with
    | idle => exact h.executed acted meets
    | marked deviceId =>
      obtain ⟨now, deletedBy, rfl⟩ := acted.allowed
      apply h.ending acted
      cases o with
      | some φ => cases (goes nofun).choose_spec
      | none => rfl
    | ended deviceId => exact absurd acted.allowed id

end Held

/-- The calls that issue sessions and those that revoke and approve devices. -/
inductive DeviceCall
  | auth (request : AuthCall)
  | update (byUserId deviceId : String) (body : Option Web.Body)

def DeviceCall.program (svc : AuthenticationService) : DeviceCall → Prog Unit
  | auth request => request.program svc
  | update byUserId deviceId body => (updateDevice byUserId deviceId body).bind fun _ => .ret ()

def OnDevices (svc : AuthenticationService) (m : AccessMove) : Prop :=
  ∀ p, m = .invoke p → ∃ call : DeviceCall, p = call.program svc

theorem DeviceCall.follows (svc : AuthenticationService) (call : DeviceCall) :
    revocation.Follows (fun _ => revocation.ends) (call.program svc) revocation.start := by
  cases call with
  | auth request => exact Script.Follows.confined (request.plain svc) plain_still
  | update byUserId deviceId body =>
    apply Script.Follows.bind (follows_updateDevice byUserId deviceId body)
    · exact fun _ q h => h
    · exact fun _ q h => h

/-- A user whose device is registered. -/
def oneDevice : Database where
  users := oneUser.users
  secrets := oneUser.secrets
  devices := [{
    deviceId := "d", deviceName := "d", ipAddress := "", lastSeenAt := 0
    status := .registered }]

def revokeOne : DeviceCall := .update "a" "d" (some [("status", .str "revoked")])

/-- The calls come in and are served one after another; no command fails. -/
def DeviceCall.turns (svc : AuthenticationService) (calls : List (DeviceCall × Nat)) :
    List AccessMove :=
  calls.map (fun call => .invoke (call.1.program svc)) ++
    calls.zipIdx.flatMap fun x => List.replicate x.1.2 (.act x.2 (smooth "1"))

theorem onDevices_turns {svc : AuthenticationService} {calls : List (DeviceCall × Nat)}
    {m : AccessMove} (hm : m ∈ DeviceCall.turns svc calls) : OnDevices svc m := by
  intro p hp
  obtain hm | hm := List.mem_append.mp hm
  · obtain ⟨call, -, hcall⟩ := List.mem_map.mp hm
    exact ⟨call.1, (Move.invoke.inj (hcall.trans hp)).symm⟩
  · obtain ⟨x, -, hm⟩ := List.mem_flatMap.mp hm
    cases (List.eq_of_mem_replicate hm).symm.trans hp

/-- The device is revoked, and after that a login names it again. -/
def revokedLogin : Revocations :=
  (Watched.init oneDevice () : Revocations).play revocation (DeviceCall.turns plainTokens
    [(revokeOne, 6), (.auth (.authenticate "user" "old" ⟨some "d", none, ""⟩), 20)])

end McManager.Access
