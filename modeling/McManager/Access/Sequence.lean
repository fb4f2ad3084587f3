import McManager.Access.Administration
import McManager.Framework.Settled

namespace McManager.Access

open Framework

abbrev Alone := Framework.Session Site Query Fault Answer Database

/-- The outside world of a call that runs alone at this time: no command of the database fails,
and the time does not pass. -/
def calm (now : Moment) : Framework.Scope Site Query Fault Answer Database where
  fails := fun _ _ => False
  answers := fun _ _ _ => True
  draws := fun _ q a =>
    match q, a with
    | .now, (at' : Moment) => at' = now
    | _, _ => True

/-- A user neither disabled nor deleted, and what is stored of the password. -/
structure Standing (db : Database) (userId secretId value : String) : Prop where
  user : ∃ u, db.user? userId = some u ∧ u.secretId = secretId ∧ u.status ≠ .disabled ∧
    u.live = true
  secret : (db.secrets.find? (·.secretId == secretId)).map Secret.encryptedValue = some value

/-- Sessions may end, and users and secrets stay what they are to a login. -/
structure Gentle (d d' : Database) : Prop where
  sessions : ∀ s ∈ d'.clientSessions, s.live = true → s ∈ d.clientSessions
  kept : ∀ s ∈ d.clientSessions, ∃ s' ∈ d'.clientSessions, s'.sessionId = s.sessionId
  users : ∀ userId secretId value, Standing d userId secretId value →
    Standing d' userId secretId value
  ids : d'.users.map User.userId = d.users.map User.userId

/-- Sessions may end, and whose sessions do not is what they were to a login. -/
structure Ends (d d' : Database) : Prop where
  sessions : ∀ s ∈ d'.clientSessions, s.live = true → s ∈ d.clientSessions
  users : ∀ s ∈ d'.clientSessions, s.live = true → ∀ secretId value,
    Standing d s.userId secretId value → Standing d' s.userId secretId value
  ids : d'.users.map User.userId = d.users.map User.userId

instance : IsPreorder Database Gentle where
  refl _ := ⟨fun _ hs _ => hs, fun s hs => ⟨s, hs, rfl⟩, fun _ _ _ h => h, rfl⟩
  trans d d' d'' h h' := by
    refine ⟨?_, ?_, ?_, h'.ids.trans h.ids⟩
    · intro s hs live
      exact h.sessions s (h'.sessions s hs live) live
    · intro s hs
      obtain ⟨s', hs', same⟩ := h.kept s hs
      obtain ⟨s'', hs'', same'⟩ := h'.kept s' hs'
      exact ⟨s'', hs'', same'.trans same⟩
    · intro userId secretId value standing
      exact h'.users _ _ _ (h.users _ _ _ standing)

instance : IsPreorder Database Ends where
  refl _ := ⟨fun _ hs _ => hs, fun _ _ _ _ _ h => h, rfl⟩
  trans d d' d'' h h' := by
    refine ⟨?_, ?_, h'.ids.trans h.ids⟩
    · intro s hs live
      exact h.sessions s (h'.sessions s hs live) live
    · intro s hs live secretId value standing
      exact h'.users s hs live _ _ (h.users s (h'.sessions s hs live) live _ _ standing)

theorem Gentle.ends {d d' : Database} (h : Gentle d d') : Ends d d' :=
  ⟨h.sessions, fun _ _ _ _ _ standing => h.users _ _ _ standing, h.ids⟩

section Statements

variable {d d' : Database}

theorem Gentle.same (sessions : d'.clientSessions = d.clientSessions) (users : d'.users = d.users)
    (secrets : d'.secrets = d.secrets) : Gentle d d' := by
  refine ⟨?_, ?_, ?_, by rw [users]⟩
  · intro s hs _
    rwa [sessions] at hs
  · intro s hs
    rw [sessions]
    exact ⟨s, hs, rfl⟩
  · intro userId secretId value standing
    obtain ⟨user, secret⟩ := standing
    refine ⟨?_, ?_⟩
    · rwa [Database.user?, users]
    · rwa [secrets]

/-- An update of sessions that ends every one it changes. -/
theorem Gentle.ended {p : ClientSession → Bool} {f : ClientSession → ClientSession}
    (sessions : d'.clientSessions = updateWhere p f d.clientSessions)
    (ends : ∀ s, (f s).live = false) (keeps : ∀ s, (f s).sessionId = s.sessionId)
    (users : d'.users = d.users) (secrets : d'.secrets = d.secrets) : Gentle d d' := by
  refine ⟨?_, ?_, ?_, by rw [users]⟩
  · intro s hs live
    rw [sessions] at hs
    obtain ⟨old, hold, ⟨-, rfl⟩ | ⟨-, rfl⟩⟩ := mem_updateWhere.mp hs
    · rw [ends] at live
      cases live
    · exact hold
  · intro s hs
    rw [sessions]
    cases hp : p s with
    | true => exact ⟨f s, mem_updateWhere.mpr ⟨s, hs, .inl ⟨hp, rfl⟩⟩, keeps s⟩
    | false => exact ⟨s, mem_updateWhere.mpr ⟨s, hs, .inr ⟨hp, rfl⟩⟩, rfl⟩
  · intro userId secretId value standing
    obtain ⟨user, secret⟩ := standing
    refine ⟨?_, ?_⟩
    · rwa [Database.user?, users]
    · rwa [secrets]

theorem user?_update {p : User → Bool} {f : User → User} {userId : String}
    (users : d'.users = updateWhere p f d.users) (keeps : ∀ u, (f u).userId = u.userId) :
    d'.user? userId = (d.user? userId).map fun u => if p u then f u else u := by
  rw [Database.user?, users]
  apply find?_updateWhere
  intro u
  rw [keeps]

/-- An update of users that leaves their ids as they are. -/
theorem standing_update {p : User → Bool} {f : User → User} {userId secretId value : String}
    (users : d'.users = updateWhere p f d.users) (keeps : ∀ u, (f u).userId = u.userId)
    (secrets : d'.secrets = d.secrets) (standing : Standing d userId secretId value)
    (stays : ∀ u, u.userId = userId → u.secretId = secretId → u.status ≠ .disabled →
      u.live = true → p u = true →
      (f u).secretId = secretId ∧ (f u).status ≠ .disabled ∧ (f u).live = true) :
    Standing d' userId secretId value := by
  obtain ⟨⟨u, hu, named, enabled, live⟩, secret⟩ := standing
  refine ⟨⟨if p u then f u else u, ?_, ?_⟩, ?_⟩
  · rw [user?_update users keeps, hu]
    rfl
  · cases hp : p u with
    | true =>
      have own : u.userId = userId := eq_of_beq (List.find?_some hu :)
      exact stays u own named enabled live hp
    | false => exact ⟨named, enabled, live⟩
  · rwa [secrets]

theorem Gentle.update {p : User → Bool} {f : User → User}
    (users : d'.users = updateWhere p f d.users) (keeps : ∀ u, (f u).userId = u.userId)
    (stays : ∀ u, u.status ≠ .disabled → u.live = true →
      (f u).secretId = u.secretId ∧ (f u).status ≠ .disabled ∧ (f u).live = true)
    (sessions : d'.clientSessions = d.clientSessions) (secrets : d'.secrets = d.secrets) :
    Gentle d d' := by
  refine ⟨?_, ?_, ?_, ?_⟩
  · intro s hs _
    rwa [sessions] at hs
  · intro s hs
    rw [sessions]
    exact ⟨s, hs, rfl⟩
  · intro userId secretId value standing
    apply standing_update users keeps secrets standing
    intro u _ named enabled live _
    rw [← named]
    exact stays u enabled live
  · rw [users]
    exact updateWhere_map keeps _

/-- A change of secrets that leaves what is stored under each as it is. -/
theorem Gentle.secrets
    (keeps : ∀ secretId value,
      (d.secrets.find? (·.secretId == secretId)).map Secret.encryptedValue = some value →
      (d'.secrets.find? (·.secretId == secretId)).map Secret.encryptedValue = some value)
    (sessions : d'.clientSessions = d.clientSessions) (users : d'.users = d.users) :
    Gentle d d' := by
  refine ⟨?_, ?_, ?_, by rw [users]⟩
  · intro s hs _
    rwa [sessions] at hs
  · intro s hs
    rw [sessions]
    exact ⟨s, hs, rfl⟩
  · intro userId secretId value standing
    obtain ⟨user, secret⟩ := standing
    refine ⟨?_, keeps _ _ secret⟩
    rwa [Database.user?, users]

/-- The statements that neither begin nor confirm a session and take nothing from a user. -/
def Lenient : Stmt → Prop
  | .insertSession _ => False
  | .confirmSession _ _ => False
  | .setSecret _ _ _ => False
  | .deleteUser _ _ _ => False
  | .insertUser _ => False
  | .updateUser _ fields _ => fields.status ≠ some .disabled
  | _ => True

theorem secret_update {p : Secret → Bool} {f : Secret → Secret} {rows : List Secret}
    {secretId : String} (keeps : ∀ s, (f s).secretId = s.secretId)
    (stays : ∀ s, (f s).encryptedValue = s.encryptedValue) :
    ((updateWhere p f rows).find? (·.secretId == secretId)).map Secret.encryptedValue =
      (rows.find? (·.secretId == secretId)).map Secret.encryptedValue := by
  rw [find?_updateWhere (fun s => by rw [keeps]), Option.map_map]
  congr 1
  funext s
  simp only [Function.comp]
  split
  · exact stays s
  · rfl

theorem gentle_apply {s : Stmt} {n : Nat} (lenient : Lenient s) (h : s.apply d = .ok (d', n)) :
    Gentle d d' := by
  cases s with
  | insertSession row | confirmSession sessionId at' | setSecret userId secretId now
  | deleteUser userId now by' | insertUser row => exact absurd lenient id
  | insertAudit row | insertRole row =>
    obtain ⟨-, rfl, -⟩ := constrained_ok.mp h
    exact .same rfl rfl rfl
  | insertAssignment assignmentId userId roleId =>
    cases roleId with
    | none => cases h
    | some roleId =>
      obtain ⟨-, rfl, -⟩ := constrained_ok.mp h
      exact .same rfl rfl rfl
  | upsertDevice row =>
    have h := congrArg Prod.fst (Except.ok.inj h)
    dsimp only at h
    rw [← h]
    split
    · exact .same rfl rfl rfl
    · exact .same rfl rfl rfl
  | revokeAssignments userId now by' | updateDevice deviceId fields
  | revokeDevice deviceId now by' | completeSetup now =>
    cases h
    exact .same rfl rfl rfl
  | resetFailures userId now =>
    cases h
    refine Gentle.update rfl (fun _ => rfl) ?_ rfl rfl
    intro u enabled live
    refine ⟨rfl, ?_, live⟩
    dsimp only
    split
    · exact nofun
    · exact enabled
  | registerFailure userId count lockedUntil now =>
    cases h
    refine Gentle.update rfl (fun _ => rfl) ?_ rfl rfl
    intro u _ live
    refine ⟨rfl, ?_, live⟩
    dsimp only
    split
    · exact nofun
    · exact nofun
  | updateUser userId fields now =>
    obtain ⟨-, rfl, -⟩ := constrained_ok.mp h
    refine Gentle.update rfl (fun _ => rfl) ?_ rfl rfl
    intro u enabled live
    refine ⟨rfl, ?_, live⟩
    change fields.status.getD u.status ≠ .disabled
    cases status : fields.status with
    | none => exact enabled
    | some new => exact fun same => lenient (status.trans (congrArg some same))
  | revokeSession sessionId deletedAt lastActivityAt
  | revokeSessions userId now by' changed | revokeDeviceSessions deviceId now by' =>
    cases h
    exact .ended rfl (fun _ => rfl) (fun _ => rfl) rfl rfl
  | insertSecret row =>
    obtain ⟨-, rfl, -⟩ := constrained_ok.mp h
    refine Gentle.secrets ?_ rfl rfl
    intro secretId value stored
    obtain ⟨old, hold, same⟩ := Option.map_eq_some_iff.mp stored
    dsimp only
    rw [List.find?_append, hold]
    exact congrArg some same
  | markRotated secretId now =>
    cases h
    refine Gentle.secrets ?_ rfl rfl
    intro id value stored
    refine (secret_update ?_ ?_).trans stored
    · exact fun _ => rfl
    · exact fun _ => rfl
  | setRotationOf secretId rotationOf =>
    obtain ⟨-, rfl, -⟩ := constrained_ok.mp h
    refine Gentle.secrets ?_ rfl rfl
    intro id value stored
    refine (secret_update ?_ ?_).trans stored
    · exact fun _ => rfl
    · exact fun _ => rfl

/-- What happens to one user whose live sessions then end. -/
structure Apart (userId : String) (d d' : Database) : Prop where
  sessions : d'.clientSessions = d.clientSessions
  users : ∀ other secretId value, other ≠ userId → Standing d other secretId value →
    Standing d' other secretId value
  ids : d'.users.map User.userId = d.users.map User.userId

theorem Apart.update {userId : String} {f : User → User}
    (users : d'.users = updateWhere (fun u => u.userId == userId) f d.users)
    (keeps : ∀ u, (f u).userId = u.userId) (sessions : d'.clientSessions = d.clientSessions)
    (secrets : d'.secrets = d.secrets) : Apart userId d d' := by
  refine ⟨sessions, ?_, ?_⟩
  · intro other secretId value apart standing
    apply standing_update users keeps secrets standing
    intro u own _ _ _ hp
    exact absurd (own.symm.trans (eq_of_beq hp)) apart
  · rw [users]
    exact updateWhere_map keeps _

theorem Apart.gentle {userId : String} {d'' : Database} (h : Apart userId d d')
    (h' : Gentle d' d'') (same : d''.clientSessions = d'.clientSessions) :
    Apart userId d d'' where
  sessions := same.trans h.sessions
  users other secretId value apart standing :=
    h'.users _ _ _ (h.users other secretId value apart standing)
  ids := h'.ids.trans h.ids

/-- The end of the sessions of the user who has changed. -/
theorem Apart.ended {userId by' : String} {changed : Option String} {now n : Nat}
    {d'' : Database} (h : Apart userId d d')
    (ended : (Stmt.revokeSessions userId now by' changed).apply d' = .ok (d'', n)) :
    Ends d d'' := by
  have lenient : Lenient (.revokeSessions userId now by' changed) := trivial
  have gentle : Gentle d' d'' := gentle_apply lenient ended
  refine ⟨?_, ?_, gentle.ids.trans h.ids⟩
  · intro s hs live
    rw [← h.sessions]
    exact gentle.sessions s hs live
  · intro s hs live secretId value standing
    have apart : s.userId ≠ userId := by
      intro own
      cases ended
      obtain ⟨old, -, ⟨-, rfl⟩ | ⟨miss, rfl⟩⟩ := mem_updateWhere.mp hs
      · cases live
      · rw [own, live] at miss
        simp at miss
    exact gentle.users _ _ _ (h.users _ _ _ apart standing)

end Statements

section Calls

variable {at' : Moment} {α : Type}

theorem calm_sound {t : Site} (φ : Fault) : ¬(calm at').fails t φ := id

theorem gentle_write {t : Site} {s : Stmt} (lenient : Lenient s) :
    Carries (calm at') Gentle (autocommit t (Body.write s) : Prog Unit) :=
  .write calm_sound fun _ _ _ => gentle_apply lenient

theorem gentle_draw {q : Query} : Carries (calm at') Gentle (draw q : Prog (Answer q)) := .draw q

theorem gentle_ask {q : Query} : Carries (calm at') Gentle (ask q : Prog (Answer q)) := .ask q

theorem gentle_read {t : Site} {f : Database → α} :
    Carries (calm at') Gentle (read t f : Prog α) := .read t f

theorem gentle_audit (eventType : String) (actor : Actor) :
    Carries (calm at') Gentle (audit eventType actor) := by
  apply Carries.bind gentle_draw
  intro auditId
  apply Carries.bind gentle_draw
  intro now
  exact gentle_write trivial

theorem gentle_snapshot (userId : String) :
    Carries (calm at') Gentle (snapshotForUser userId) := gentle_read

theorem gentle_passwordSecret (userId : String) :
    Carries (calm at') Gentle (Authentication.passwordSecret userId) := by
  apply Carries.bind gentle_read
  intro row
  split
  · exact .raise _
  · exact .ret _

theorem gentle_store (secretType : SecretType) (entityType entityId plaintext : String) :
    Carries (calm at') Gentle (Secrets.store secretType entityType entityId plaintext) := by
  apply Carries.bind gentle_draw
  intro secretId
  apply Carries.bind gentle_ask
  intro token
  apply Carries.bind gentle_draw
  intro now
  apply Carries.bind
  · exact gentle_write trivial
  · exact fun _ => .ret _

theorem gentle_readSecret (secretId : String) :
    Carries (calm at') Gentle (Secrets.read secretId) := by
  apply Carries.bind gentle_read
  intro row
  split
  · exact .raise _
  · exact .handle gentle_ask fun _ => .raise _

theorem gentle_rotate (secretId plaintext entityType entityId : String) :
    Carries (calm at') Gentle (Secrets.rotate secretId plaintext entityType entityId) := by
  apply Carries.bind (.select _ _)
  intro row
  split
  · exact .raise _
  · apply Carries.bind gentle_draw
    intro now
    apply Carries.bind
    · exact gentle_write trivial
    · intro _
      apply Carries.bind (gentle_store _ _ _ _)
      intro newId
      apply Carries.bind
      · exact gentle_write trivial
      · exact fun _ => .ret _

theorem gentle_registerFailure (userId : String) (previousCount : Nat) (actor : Actor) :
    Carries (calm at') Gentle (Authentication.registerFailure userId previousCount actor) := by
  apply Carries.bind gentle_draw
  intro now
  apply Carries.bind
  · exact gentle_write trivial
  · intro _
    split
    · exact gentle_audit _ _
    · exact .ret _

theorem gentle_ensureDevice (origin : Origin) :
    Carries (calm at') Gentle (Authentication.ensureDevice origin) := by
  unfold Authentication.ensureDevice
  split
  · exact .ret _
  · apply Carries.bind gentle_draw
    intro now
    exact gentle_write trivial

theorem gentle_revokeSessionId (sessionId : String) :
    Carries (calm at') Gentle (Authentication.revokeSessionId sessionId) := by
  apply Carries.bind (.select _ _)
  intro row
  split
  · exact .ret _
  · apply Carries.bind gentle_draw
    intro deletedAt
    apply Carries.bind gentle_draw
    intro lastActivityAt
    apply Carries.bind
    · exact gentle_write trivial
    · exact fun _ => gentle_audit _ _

theorem gentle_validateSession (svc : AuthenticationService) (rawToken : String) :
    Carries (calm at') Gentle (Authentication.validateSession svc rawToken) := by
  apply Carries.bind gentle_read
  intro row
  split
  · exact .raise _
  · apply Carries.bind gentle_draw
    intro now
    split
    · apply Carries.bind (gentle_revokeSessionId _)
      exact fun _ => .raise _
    · exact .ret _

theorem ends_of {p : Prog α} (h : Carries (calm at') Gentle p) : Carries (calm at') Ends p :=
  h.mono fun _ _ => Gentle.ends

theorem ends_changePassword (userId newPassword byUserId : String) :
    Carries (calm at') Ends (Authentication.changePassword userId newPassword byUserId) := by
  apply Carries.bind (ends_of gentle_draw)
  intro now
  apply Carries.bind (ends_of (gentle_passwordSecret _))
  intro secretId
  apply Carries.bind (ends_of gentle_ask)
  intro hashed
  apply Carries.bind (ends_of (gentle_rotate _ _ _ _))
  intro newSecret
  apply Carries.bind
  · apply Carries.autocommit calm_sound
    · exact fun _ _ _ _ => ⟨_, rfl⟩
    · intro d _ d' h
      obtain ⟨_, d₁, first, rest⟩ := Body.eval_bind_ok (b := Body.write _) h
      obtain ⟨_, set⟩ := Body.eval_write_ok first
      obtain ⟨_, ended⟩ := Body.eval_write_ok rest
      obtain ⟨-, rfl, -⟩ := constrained_ok.mp set
      refine Apart.ended ?_ ended
      refine Apart.update rfl ?_ rfl rfl
      exact fun _ => rfl
  · intro _
    apply Carries.bind (ends_of (gentle_snapshot _))
    exact fun _ => ends_of (gentle_audit _ _)

theorem ends_setPassword (byUserId userId : String) (value : Option Web.Json) :
    Carries (calm at') Ends (setPassword byUserId userId value) := by
  unfold setPassword
  split
  · exact .ret _
  · split
    · exact .ret _
    · split
      · exact .ret _
      · apply Carries.bind (ends_changePassword _ _ _)
        exact fun _ => .ret _
  · exact .ret _

/-- The write of a user row and what it is answered with when it is refused. -/
theorem carries_guardedWrite {R : Database → Database → Prop} [IsPreorder Database R]
    {s : Stmt} (h : ∀ d d' n, s.apply d = .ok (d', n) → R d d') :
    Carries (calm at') R (((autocommit .updateUser (Body.write s)).bind fun _ =>
      .ret none).handle fun e => (Program.perform .rollback).bind fun _ =>
        .ret (some (Reply.error "VALIDATION_ERROR" e.text)) : Prog (Option Reply)) := by
  apply Carries.handle
  · apply Carries.bind
    · exact .write calm_sound h
    · exact fun _ => .ret _
  · intro e
    apply Carries.bind .rollback
    exact fun _ => .ret _

/-- The row of a user is written, or the reply tells why not. -/
def Written (userId : String) (x : Alone) : Except Exn (Option Reply) → Alone → Prop
  | .ok none, y => x.Onto (Apart userId) y
  | .ok (some _), y => x.Onto Ends y
  | .error _, _ => False

theorem wp_guardedWrite {userId : String} {fields : UserFields} {now : Nat} {x : Alone}
    (rests : x.Rests) : wp (calm at') (Written userId x)
      (((autocommit .updateUser (Body.write (.updateUser userId fields now))).bind fun _ =>
        .ret none).handle fun e => (Program.perform .rollback).bind fun _ =>
          .ret (some (Reply.error "VALIDATION_ERROR" e.text)) : Prog (Option Reply)) x := by
  rw [wp_handle, wp_bind]
  refine wp_autocommit_rests rests calm_sound (fun d n _ => ⟨_, rfl⟩) ?_ ?_
  · intro a d h
    obtain ⟨n, set⟩ := Body.eval_write_ok h
    obtain ⟨-, rfl, -⟩ := constrained_ok.mp set
    refine ⟨rfl, ?_, fun _ hn => List.mem_append_left _ hn⟩
    refine Apart.update rfl ?_ rfl rfl
    exact fun _ => rfl
  · intro e _ o _
    refine ⟨rfl, Std.Refl.refl _, ?_⟩
    exact fun _ hn => List.mem_append_left _ hn

theorem ends_writeUser (byUserId userId : String) (fields : UserFields) :
    Carries (calm at') Ends (writeUser byUserId userId fields) := by
  unfold writeUser
  split
  · exact .ret _
  · apply Carries.bind (ends_of gentle_draw)
    intro now
    by_cases disabled : fields.status = some .disabled
    · intro x rests
      apply wp_seq (wp_guardedWrite rests)
      · intro refused y written
        cases refused with
        | some reply => exact written
        | none =>
          simp only [disabled, if_true]
          apply wp_draw_bind
          intro now _
          rw [Program.bind_eq, wp_bind]
          refine wp_autocommit_rests written.rests calm_sound (fun d n _ => ⟨_, rfl⟩) ?_ ?_
          · intro a d h
            obtain ⟨n, ended⟩ := Body.eval_write_ok h
            refine ⟨rfl, written.rows.ended ended, ?_⟩
            exact fun _ hn => List.mem_append_left _ (written.log hn)
          · intro e h
            cases h
      · exact fun _ _ none => none.elim
    · apply Carries.bind
      · apply carries_guardedWrite
        intro d d' n h
        have lenient : Lenient (.updateUser userId fields now.seconds) := disabled
        exact (gentle_apply lenient h).ends
      · intro refused
        split
        · exact .ret _
        · simp only [disabled, if_false]
          apply Carries.bind (.ret _)
          exact fun _ => .ret _

/-- What `update_user` does once it knows whether the account may be disabled. -/
theorem ends_permitted (byUserId userId : String) (body : Web.Body) (fields : UserFields)
    (allowed : Bool) : Carries (calm at') Ends
      ((if !allowed then pure (lastSuperadmin "disable") else do
        let refused ← setPassword byUserId userId (body.lookup "password")
        match refused with
        | some reply => pure reply
        | none => writeUser byUserId userId fields) : Prog Reply) := by
  split
  · exact .ret _
  · apply Carries.bind (ends_setPassword _ _ _)
    intro refused
    split
    · exact .ret _
    · exact ends_writeUser _ _ _

theorem ends_updateUser (byUserId userId : String) (body : Option Web.Body) :
    Carries (calm at') Ends (updateUser byUserId userId body) := by
  have mayDisable : Carries (calm at') Ends (mayDisable userId) := by
    apply Carries.bind (ends_of gentle_read)
    intro superadmin
    split
    · apply Carries.bind (ends_of gentle_read)
      exact fun _ => .ret _
    · exact .ret _
  unfold updateUser
  split
  · exact .ret _
  · rename_i body _
    apply Carries.bind (ends_of gentle_read)
    intro there
    split
    · exact .ret _
    · split
      · exact .raise _
      · exact .ret _
      · rename_i fields _
        dsimp only
        split
        · exact Carries.bind mayDisable (ends_permitted byUserId userId body fields)
        · exact ends_permitted byUserId userId body fields true

theorem ends_deleteUser (byUserId userId : String) :
    Carries (calm at') Ends (deleteUser byUserId userId) := by
  apply Carries.bind (ends_of gentle_read)
  intro there
  split
  · exact .ret _
  · apply Carries.bind (ends_of gentle_read)
    intro active
    apply Carries.bind (ends_of gentle_read)
    intro superadmin
    split
    · exact .ret _
    · apply Carries.bind (ends_of gentle_draw)
      intro now
      apply Carries.bind
      · apply Carries.autocommit calm_sound
        · exact fun _ _ _ _ => ⟨_, rfl⟩
        · intro d _ d' h
          obtain ⟨_, d₁, first, rest⟩ := Body.eval_bind_ok (b := Body.write _) h
          obtain ⟨_, d₂, second, third⟩ := Body.eval_bind_ok (b := Body.write _) rest
          obtain ⟨_, deleted⟩ := Body.eval_write_ok first
          obtain ⟨_, stripped⟩ := Body.eval_write_ok second
          obtain ⟨_, ended⟩ := Body.eval_write_ok third
          cases deleted
          cases stripped
          refine Apart.ended ?_ ended
          refine Apart.update rfl ?_ rfl rfl
          exact fun _ => rfl
      · exact fun _ => .ret _

end Calls

/-- A session is stored under an id that was not in use. -/
structure Stores (row : ClientSession) (d d' : Database) : Prop where
  sessions : ∀ s ∈ d'.clientSessions, s.live = true → s = row ∨ s ∈ d.clientSessions
  unknown : ∀ s ∈ d.clientSessions, s.sessionId ≠ row.sessionId
  users : ∀ userId secretId value, Standing d userId secretId value →
    Standing d' userId secretId value
  ids : d'.users.map User.userId = d.users.map User.userId

section Issued

variable {d d' d'' : Database} {row : ClientSession}

theorem Gentle.stores (h : Gentle d d') (h' : Stores row d' d'') : Stores row d d'' := by
  refine ⟨?_, ?_, ?_, h'.ids.trans h.ids⟩
  · intro s hs live
    obtain same | old := h'.sessions s hs live
    · exact .inl same
    · exact .inr (h.sessions s old live)
  · intro s hs same
    obtain ⟨s', hs', kept⟩ := h.kept s hs
    exact h'.unknown s' hs' (kept.trans same)
  · intro userId secretId value standing
    exact h'.users _ _ _ (h.users _ _ _ standing)

theorem Stores.gentle (h : Stores row d d') (h' : Gentle d' d'') : Stores row d d'' where
  sessions s hs live := h.sessions s (h'.sessions s hs live) live
  unknown := h.unknown
  users _ _ _ standing := h'.users _ _ _ (h.users _ _ _ standing)
  ids := h'.ids.trans h.ids

theorem stores_insert {n : Nat} (h : (Stmt.insertSession row).apply d = .ok (d', n)) :
    Stores row d d' := by
  obtain ⟨checked, rfl, -⟩ := constrained_ok.mp h
  refine ⟨?_, ?_, ?_, rfl⟩
  · intro s hs _
    obtain hs | hs := List.mem_append.mp hs
    · exact .inr hs
    · exact .inl (List.mem_singleton.mp hs)
  · have unused := checked _ List.mem_cons_self
    intro s hs same
    simp only [Bool.not_eq_true', List.any_eq_false, beq_iff_eq] at unused
    exact unused s hs same
  · intro userId secretId value standing
    exact ⟨standing.user, standing.secret⟩

/-- The step-up of the session just stored confirms no other one. -/
theorem Stores.confirm {confirmedAt n : Nat} (h : Stores row d d')
    (confirmed : (Stmt.confirmSession row.sessionId confirmedAt).apply d' = .ok (d'', n)) :
    Stores { row with stepUpConfirmedAt := some confirmedAt } d d'' := by
  cases confirmed
  refine ⟨?_, h.unknown, ?_, h.ids⟩
  · intro s hs live
    obtain ⟨old, hold, ⟨hit, rfl⟩ | ⟨miss, rfl⟩⟩ := mem_updateWhere.mp hs
    · obtain same | before := h.sessions old hold live
      · exact .inl (by rw [same])
      · exact absurd (eq_of_beq hit) (h.unknown old before)
    · obtain same | before := h.sessions s hold live
      · rw [same, beq_self_eq_true] at miss
        cases miss
      · exact .inr before
  · intro userId secretId value standing
    have old := h.users _ _ _ standing
    exact ⟨old.user, old.secret⟩

end Issued

section Specifications

variable {at' : Moment} {x : Alone}

/-- Nothing but looks and answers. -/
structure Looked (x y : Alone) : Prop where
  conn : y.conn = x.conn
  log : x.log ⊆ y.log

theorem Looked.rests {y : Alone} (h : Looked x y) (rests : x.Rests) : y.Rests := by
  rw [Session.Rests, h.conn]
  exact rests

/-- The password was compared with what is stored of the user's. -/
structure PasswordChecked (db : Database) (userId password : String) (valid : Bool)
    (log : List (Note Site Query Fault Answer)) (u : User) (row : Secret) (stored : String) :
    Prop where
  user : db.user? userId = some u
  secret : db.secrets.find? (·.secretId == u.secretId) = some row
  decrypted : .answered (.decrypt row.encryptedValue) (.ok stored) ∈ log
  compared : .answered (.verify stored password) (.ok valid) ∈ log

theorem wp_passwordSecret (userId : String) : wp (calm at')
    (fun r y => y = x ∧ ∀ id, r = .ok id →
      ∃ u, x.conn.committed.user? userId = some u ∧ u.secretId = id)
    (Authentication.passwordSecret userId) x := by
  refine wp_seq (P := fun r y => y = x ∧ r = .ok (x.conn.committed.user? userId))
    (wp_read ⟨rfl, rfl⟩ fun _ failed => failed.elim) ?_ fun _ _ h => nomatch h.2
  intro u? y h
  obtain ⟨rfl, found⟩ := h
  cases u? with
  | none => exact ⟨rfl, fun _ h => nomatch h⟩
  | some u =>
    refine ⟨rfl, ?_⟩
    intro id same
    exact ⟨u, (Except.ok.inj found).symm, Except.ok.inj same⟩

theorem wp_readSecret (secretId : String) : wp (calm at')
    (fun r y => Looked x y ∧ ∀ stored, r = .ok stored →
      ∃ row, x.conn.committed.secrets.find? (·.secretId == secretId) = some row ∧
        .answered (.decrypt row.encryptedValue) (.ok stored) ∈ y.log)
    (Secrets.read secretId) x := by
  refine wp_seq (P := fun r y => y = x ∧
      r = .ok (x.conn.committed.secrets.find? (·.secretId == secretId)))
    (wp_read ⟨rfl, rfl⟩ fun _ failed => failed.elim) ?_ fun _ _ h => nomatch h.2
  intro row? y h
  obtain ⟨rfl, found⟩ := h
  cases row? with
  | none => exact ⟨⟨rfl, fun _ hn => hn⟩, fun _ h => nomatch h⟩
  | some row =>
    rw [wp_handle]
    refine wp_ask ?_ ?_
    · intro stored _
      refine ⟨⟨rfl, fun _ hn => List.mem_append_left _ hn⟩, ?_⟩
      intro stored' same
      rw [← Except.ok.inj same]
      exact ⟨row, (Except.ok.inj found).symm, List.mem_append_right _ List.mem_cons_self⟩
    · intro φ _
      exact ⟨⟨rfl, fun _ hn => List.mem_append_left _ hn⟩, fun _ h => nomatch h⟩

theorem wp_verifyPassword (userId password : String) : wp (calm at')
    (fun r y => Looked x y ∧ ∀ valid id, r = .ok (valid, id) →
      ∃ u row stored, PasswordChecked x.conn.committed userId password valid y.log u row stored)
    (Authentication.verifyPassword userId password) x := by
  refine wp_seq (wp_passwordSecret userId) ?_ ?_
  · intro secretId y h
    obtain ⟨rfl, found⟩ := h
    obtain ⟨u, user, rfl⟩ := found _ rfl
    refine wp_seq (wp_readSecret u.secretId) ?_ ?_
    · intro stored z h
      obtain ⟨looked, read⟩ := h
      obtain ⟨row, secret, decrypted⟩ := read _ rfl
      refine wp_seq (P := fun r w => Looked z w ∧ ∀ valid, r = .ok valid →
          .answered (.verify stored password) (.ok valid) ∈ w.log) (wp_ask ?_ ?_) ?_ ?_
      · intro valid _
        refine ⟨⟨rfl, fun _ hn => List.mem_append_left _ hn⟩, ?_⟩
        intro valid' same
        rw [← Except.ok.inj same]
        exact List.mem_append_right _ List.mem_cons_self
      · intro φ _
        exact ⟨⟨rfl, fun _ hn => List.mem_append_left _ hn⟩, fun _ h => nomatch h⟩
      · intro valid w h
        obtain ⟨asked, compared⟩ := h
        refine ⟨⟨asked.conn.trans looked.conn, fun _ hn => asked.log (looked.log hn)⟩, ?_⟩
        intro valid' id same
        cases same
        exact ⟨u, row, stored, user, secret, asked.log decrypted, compared _ rfl⟩
      · intro e w h
        exact ⟨⟨h.1.conn.trans looked.conn, fun _ hn => h.1.log (looked.log hn)⟩,
          fun _ _ h => nomatch h⟩
    · intro e z h
      exact ⟨h.1, fun _ _ h => nomatch h⟩
  · intro e y h
    obtain ⟨rfl, -⟩ := h
    exact ⟨⟨rfl, fun _ hn => hn⟩, fun _ _ h => nomatch h⟩

/-- The live session behind a token is found, or at most ended. -/
theorem wp_sessionBehind (svc : AuthenticationService) (rawToken : String) (rests : x.Rests) :
    wp (calm at') (fun r y => x.Onto Gentle y ∧ ∀ s, r = .ok s → y = x ∧
      ∃ row ∈ x.conn.committed.clientSessions, row.live = true ∧
        row.sessionId = svc.hashToken rawToken ∧ s.userId = row.userId ∧
        s.stepUpConfirmedAt = row.stepUpConfirmedAt)
    (Authentication.validateSession svc rawToken) x := by
  refine wp_seq (P := fun r y => y = x ∧ r = .ok ((x.conn.committed.clientSessions.find?
      (·.sessionId == svc.hashToken rawToken)).filter ClientSession.live))
    (wp_read ⟨rfl, rfl⟩ fun _ failed => failed.elim) ?_ fun _ _ h => nomatch h.2
  intro row? y h
  obtain ⟨rfl, found⟩ := h
  cases row? with
  | none => exact ⟨.refl rests, fun _ h => nomatch h⟩
  | some row =>
    obtain ⟨hit, live⟩ := Option.filter_eq_some_iff.mp (Except.ok.inj found).symm
    apply wp_draw_bind
    intro now _
    split
    · refine wp_seq (gentle_revokeSessionId _ y rests) ?_ ?_
      · exact fun _ _ onto => ⟨onto, fun _ h => nomatch h⟩
      · exact fun _ _ onto => ⟨onto, fun _ h => nomatch h⟩
    · refine ⟨.refl rests, ?_⟩
      intro s same
      rw [← Except.ok.inj same]
      exact ⟨rfl, row, List.mem_of_find?_eq_some hit, live, eq_of_beq (List.find?_some hit :),
        rfl, rfl⟩

/-- A session of the user is stored, and a token that is given out is its own. -/
structure Opened (svc : AuthenticationService) (userId : String) (x : Alone)
    (r : Except Exn Issued) (y : Alone) (row : ClientSession) : Prop where
  rests : y.Rests
  log : x.log ⊆ y.log
  stores : Stores row x.conn.committed y.conn.committed
  user : row.userId = userId
  given : ∀ s, r = .ok s → svc.hashToken s.token = row.sessionId

variable {svc : AuthenticationService} {userId : String} {row : ClientSession} {y z : Alone}

theorem Opened.behind {r : Except Exn Issued} (h : x.Onto Gentle y)
    (opened : Opened svc userId y r z row) : Opened svc userId x r z row where
  rests := opened.rests
  log _ hn := opened.log (h.log hn)
  stores := h.rows.stores opened.stores
  user := opened.user
  given := opened.given

theorem Opened.before {r r' : Except Exn Issued} (opened : Opened svc userId x r y row)
    (h : y.Onto Gentle z) (given : ∀ s, r' = .ok s → svc.hashToken s.token = row.sessionId) :
    Opened svc userId x r' z row where
  rests := h.rests
  log _ hn := h.log (opened.log hn)
  stores := opened.stores.gentle h.rows
  user := opened.user
  given := given

theorem wp_issueSession (origin : Origin) (verified : Option String) (rests : x.Rests) :
    wp (calm at') (fun r y => (x.Onto Gentle y ∧ ∃ e, r = .error e) ∨
      ∃ row, Opened svc userId x r y row ∧ row.stepUpConfirmedAt = none)
    (Authentication.issueSession svc userId origin verified) x := by
  refine wp_seq (gentle_ensureDevice origin x rests) ?_ fun e _ onto => .inl ⟨onto, e, rfl⟩
  intro _ y onto
  apply wp_draw_bind
  intro now _
  apply wp_draw_bind
  intro token _
  rw [Program.bind_eq, wp_bind]
  refine wp_autocommit_rests onto.rests calm_sound (fun _ _ _ => ⟨_, rfl⟩) ?_ ?_
  · intro a d h
    obtain ⟨n, inserted⟩ := Body.eval_write_ok h
    let row : ClientSession := {
      sessionId := svc.hashToken token, userId, deviceId := origin.deviceId
      ipAddress := origin.ip, expiresAt := now.seconds + sessionIdleSeconds
      stepUpConfirmedAt := none, lastActivityAt := now.seconds, deletedAt := none
      deletedBy := none, createdAt := now.seconds, verified }
    have opened : ∀ r : Except Exn Issued,
        (∀ s, r = .ok s → svc.hashToken s.token = row.sessionId) →
          Opened svc userId x r ⟨.closed d, y.log ++ [.committed .openSession]⟩ row := by
      intro r given
      apply Opened.behind onto
      exact ⟨rfl, fun _ hn => List.mem_append_left _ hn, stores_insert inserted, rfl, given⟩
    have failed : ∀ (e : Exn) z,
        (⟨.closed d, y.log ++ [.committed .openSession]⟩ : Alone).Onto Gentle z →
          ∃ row, Opened svc userId x (.error e) z row ∧ row.stepUpConfirmedAt = none :=
      fun e z later => ⟨row, (opened (.error e) nofun).before later nofun, rfl⟩
    refine wp_seq (gentle_snapshot userId _ rests_closed) ?_ fun e z later => .inr (failed e z later)
    intro actor z looked
    refine wp_seq (gentle_audit _ _ z looked.rests) ?_ ?_
    · intro _ w audited
      refine .inr ⟨row, (opened (.error .nestedTransaction) nofun).before (looked.trans audited) ?_,
        rfl⟩
      intro s same
      rw [← Except.ok.inj same]
    · exact fun e w audited => .inr (failed e w (looked.trans audited))
  · intro e _
    exact .inl ⟨⟨onto.rests, onto.rows, onto.log⟩, e, rfl⟩

/-- The step-up of a session was confirmed with the password its user had. -/
structure Confirmed (db : Database) (password : String) (now : Moment)
    (log : List (Note Site Query Fault Answer)) (row : ClientSession)
    (secretId value : String) : Prop where
  confirmedAt : row.stepUpConfirmedAt = some now.seconds
  standing : Standing db row.userId secretId value
  verified : ∃ stored, .answered (.decrypt value) (.ok stored) ∈ log ∧
    .answered (.verify stored password) (.ok true) ∈ log

/-- Sessions end, or one is stored for a user who may log in. -/
def Outcome (svc : AuthenticationService) (confirmed : ClientSession → Prop) (x : Alone)
    (r : Except Exn Issued) (y : Alone) : Prop :=
  x.Onto Ends y ∨ ∃ userId row, Opened svc userId x r y row ∧
    (∃ secretId value, Standing x.conn.committed userId secretId value) ∧
    (row.stepUpConfirmedAt = none ∨ confirmed row)

/-- Every live session is one of a user who may log in. -/
def SessionsStand (db : Database) : Prop :=
  ∀ s ∈ db.clientSessions, s.live = true →
    ∃ secretId value, Standing db s.userId secretId value

theorem ends_onto {y : Alone} (h : x.Onto Gentle y) : x.Onto Ends y :=
  h.mono Gentle.ends

theorem Looked.onto (h : Looked x y) (rests : x.Rests) : x.Onto Gentle y := by
  refine ⟨h.rests rests, ?_, h.log⟩
  rw [h.conn]
  exact Std.Refl.refl _

/-- What is compared is the user's own password. -/
theorem PasswordChecked.standing {db : Database} {password : String} {valid : Bool}
    {log : List (Note Site Query Fault Answer)} {u : User} {secret : Secret} {stored : String}
    (h : PasswordChecked db userId password valid log u secret stored) (enabled : u.status ≠ .disabled)
    (live : u.live = true) : Standing db userId u.secretId secret.encryptedValue where
  user := ⟨u, h.user, rfl, enabled, live⟩
  secret := by rw [h.secret, Option.map_some]

/-- The part of `confirm_step_up` behind the issue of its session. -/
theorem wp_elevate {session : Issued} {confirmedAt : Moment}
    (opened : Opened svc userId x (.ok session) y row) : wp (calm at')
      (fun r z => Opened svc userId x r z
        { row with stepUpConfirmedAt := some confirmedAt.seconds } ∧ y.log ⊆ z.log)
      (do
        autocommit .stepUp (Body.write
          (.confirmSession (svc.hashToken session.token) confirmedAt.seconds))
        let actor ← snapshotForUser userId
        audit "step_up_confirmed" actor
        pure { session with stepUpConfirmedAt := some confirmedAt.seconds } : Prog Issued) y := by
  rw [Program.bind_eq, wp_bind, opened.given session rfl]
  refine wp_autocommit_rests opened.rests calm_sound (fun _ _ _ => ⟨_, rfl⟩) ?_ ?_
  · intro a d h
    obtain ⟨n, confirmed⟩ := Body.eval_write_ok h
    let z : Alone := ⟨.closed d, y.log ++ [.committed .stepUp]⟩
    have grown : y.log ⊆ z.log := fun _ hn => List.mem_append_left _ hn
    have elevated : Opened svc userId x (.ok session) z
        { row with stepUpConfirmedAt := some confirmedAt.seconds } :=
      ⟨rfl, fun _ hn => grown (opened.log hn), opened.stores.confirm confirmed, opened.user,
        opened.given⟩
    refine wp_seq (gentle_snapshot userId z rfl) ?_ ?_
    · intro actor w seen
      refine wp_seq (gentle_audit _ actor w seen.rests) ?_ ?_
      · intro _ v audited
        refine ⟨elevated.before (seen.trans audited) ?_, ?_⟩
        · intro s same
          rw [← Except.ok.inj same]
          exact opened.given session rfl
        · exact fun _ hn => audited.log (seen.log (grown hn))
      · intro e v audited
        exact ⟨elevated.before (seen.trans audited) nofun,
          fun _ hn => audited.log (seen.log (grown hn))⟩
    · intro e w seen
      exact ⟨elevated.before seen nofun, fun _ hn => seen.log (grown hn)⟩
  · intro e h
    cases h

theorem wp_confirmStepUp (rawToken password : String) (origin : Origin) (rests : x.Rests)
    (stand : SessionsStand x.conn.committed) : wp (calm at')
      (fun r y => Outcome svc (fun row => ∃ secretId value,
        Confirmed x.conn.committed password at' y.log row secretId value) x r y)
      (Authentication.confirmStepUp svc rawToken password origin) x := by
  refine wp_seq (wp_sessionBehind svc rawToken rests) ?_ fun _ _ h => .inl (ends_onto h.1)
  intro current y h
  obtain ⟨-, behind⟩ := h
  obtain ⟨rfl, old, hold, live, -, user, -⟩ := behind _ rfl
  obtain ⟨secretId, value, standing⟩ := stand old hold live
  rw [← user] at standing
  refine wp_seq (wp_verifyPassword current.userId password) ?_
    fun _ _ h => .inl (ends_onto (h.1.onto rests))
  intro verified z h
  obtain ⟨valid, id⟩ := verified
  obtain ⟨looked, compared⟩ := h
  obtain ⟨u, secret, stored, compared⟩ := compared valid id rfl
  have seen := looked.onto rests
  cases valid with
  | false =>
    refine wp_seq (gentle_snapshot _ z seen.rests) ?_ fun _ _ h => .inl (ends_onto (seen.trans h))
    intro actor w h
    refine wp_seq (gentle_audit _ _ w h.rests) ?_
      fun _ _ h' => .inl (ends_onto (seen.trans (h.trans h')))
    exact fun _ _ h' => .inl (ends_onto (seen.trans (h.trans h')))
  | true =>
    refine wp_seq (gentle_revokeSessionId _ z seen.rests) ?_
      fun _ _ h => .inl (ends_onto (seen.trans h))
    intro _ w revoked
    have ended := seen.trans revoked
    refine wp_seq (wp_issueSession origin (some id) ended.rests) ?_ ?_
    · intro session v issued
      cases issued with
      | inl h => exact nomatch h.2
      | inr h =>
        obtain ⟨row, opened, none⟩ := h
        apply wp_draw_bind
        intro confirmedAt same
        change confirmedAt = at' at same
        subst same
        obtain ⟨u', user', -, enabled, live⟩ := standing.user
        rw [Option.some.inj (user'.symm.trans compared.user)] at enabled live
        have own := compared.standing enabled live
        apply wp_mono (wp_elevate opened)
        intro r c h
        obtain ⟨elevated, grown⟩ := h
        have kept : ∀ n ∈ z.log, n ∈ c.log :=
          fun n hn => grown (opened.log (revoked.log hn))
        refine .inr ⟨_, _, elevated.behind ended, ⟨_, _, own⟩,
          .inr ⟨u.secretId, secret.encryptedValue, rfl, ?_, ?_⟩⟩
        · rw [← opened.user] at own
          exact own
        · exact ⟨stored, kept _ compared.decrypted, kept _ compared.compared⟩
    · intro e v issued
      cases issued with
      | inl h => exact .inl (ends_onto (ended.trans h.1))
      | inr h =>
        obtain ⟨row, opened, none⟩ := h
        exact .inr ⟨_, row, opened.behind ended, ⟨secretId, value, standing⟩, .inl none⟩

theorem wp_authenticate (username password : String) (origin : Origin) (rests : x.Rests)
    (keyed : (x.conn.committed.users.map User.userId).Nodup) : wp (calm at')
      (fun r y => Outcome svc (fun _ => False) x r y)
      (Authentication.authenticate svc username password origin) x := by
  apply wp_draw_bind
  intro now _
  refine wp_seq (P := fun r y => y = x ∧ r = .ok (x.conn.committed.users.find? fun u =>
      u.username == username && u.live)) (wp_read ⟨rfl, rfl⟩ fun _ failed => failed.elim) ?_
    fun _ _ h => nomatch h.2
  intro row? y h
  obtain ⟨rfl, found⟩ := h
  cases row? with
  | none =>
    refine wp_seq (gentle_audit _ _ y rests) ?_ fun _ _ h => .inl (ends_onto h)
    exact fun _ _ h => .inl (ends_onto h)
  | some u =>
    have hit := (Except.ok.inj found).symm
    have live : u.live = true := by
      have both := List.find?_some hit
      exact (Bool.and_eq_true_iff.mp both).2
    refine wp_seq (P := fun r z => z = y ∧ ∃ actor, r = .ok actor)
      (wp_read ⟨rfl, _, rfl⟩ fun _ failed => failed.elim) ?_ fun _ _ h => nomatch h.2
    intro actor z h
    obtain ⟨rfl, -⟩ := h
    split
    · refine wp_seq (gentle_audit _ _ z rests) ?_ fun _ _ h => .inl (ends_onto h)
      exact fun _ _ h => .inl (ends_onto h)
    · split
      · refine wp_seq (gentle_audit _ _ z rests) ?_ fun _ _ h => .inl (ends_onto h)
        exact fun _ _ h => .inl (ends_onto h)
      · rename_i enabled
        refine wp_seq (wp_verifyPassword u.userId password) ?_
          fun _ _ h => .inl (ends_onto (h.1.onto rests))
        intro verified w h
        obtain ⟨valid, id⟩ := verified
        obtain ⟨looked, compared⟩ := h
        obtain ⟨u', secret, stored, compared⟩ := compared valid id rfl
        have same : z.conn.committed.user? u.userId = some u := by
          have found := find?_key keyed (List.mem_of_find?_eq_some hit)
          exact found
        have own : u = u' := Option.some.inj (same.symm.trans compared.user)
        subst own
        have seen := looked.onto rests
        have standing := compared.standing enabled live
        cases valid with
        | false =>
          refine wp_seq (gentle_registerFailure _ _ _ w seen.rests) ?_
            fun _ _ h => .inl (ends_onto (seen.trans h))
          intro _ v failed
          refine wp_seq (gentle_audit _ _ v failed.rests) ?_
            fun _ _ h => .inl (ends_onto (seen.trans (failed.trans h)))
          exact fun _ _ h => .inl (ends_onto (seen.trans (failed.trans h)))
        | true =>
          have reset : Carries (calm at') Gentle (autocommit .reset
              (Body.write (.resetFailures u.userId now.seconds)) : Prog Unit) :=
            gentle_write trivial
          refine wp_seq (reset w seen.rests) ?_ fun _ _ h => .inl (ends_onto (seen.trans h))
          intro _ v unlocked
          have done := seen.trans unlocked
          refine wp_seq (gentle_audit _ _ v done.rests) ?_
            fun _ _ h => .inl (ends_onto (done.trans h))
          intro _ c audited
          have ready := done.trans audited
          apply wp_mono (wp_issueSession origin (some id) ready.rests)
          intro r e issued
          cases issued with
          | inl h => exact .inl (ends_onto (ready.trans h.1))
          | inr h =>
            obtain ⟨row, opened, none⟩ := h
            exact .inr ⟨_, row, opened.behind ready, ⟨_, _, standing⟩, .inl none⟩

end Specifications

end McManager.Access
