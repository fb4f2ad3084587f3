import McManager.Access.Administration
import McManager.Framework.Frame

namespace McManager.Access

open Framework Program

/-- The statements that give a user another password. -/
def Rotates : Stmt → Prop
  | .insertAudit _ | .insertSecret _ | .markRotated _ _ | .setRotationOf _ _ | .setSecret _ _ _
  | .revokeSessions _ _ _ _ => True
  | _ => False

/-- The statements of the authentication service for a user. -/
def Attends (userId : String) : Stmt → Prop
  | .registerFailure id _ _ _ => id = userId
  | .insertSession row => row.userId = userId
  | .upsertDevice row => row.live = true
  | .resetFailures _ _ | .revokeSession _ _ _ | .confirmSession _ _ => True
  | s => Rotates s

/-- The statements of the user routes. -/
def Administers : Stmt → Prop
  | .insertAudit _ | .insertSecret _ | .markRotated _ _ | .setRotationOf _ _ | .setSecret _ _ _
  | .revokeSessions _ _ _ _ | .deleteUser _ _ _ | .revokeAssignments _ _ _ => True
  | .updateUser _ fields _ => fields.status ≠ some .locked
  | _ => False

theorem Rotates.attends {userId : String} {s : Stmt} (h : Rotates s) : Attends userId s := by
  cases s with
  | insertAudit row | insertSecret row | markRotated secretId now
  | setRotationOf secretId rotationOf | setSecret userId secretId now
  | revokeSessions userId now deletedBy changed => exact trivial
  | _ => exact absurd h id

theorem Rotates.administers {s : Stmt} (h : Rotates s) : Administers s := by
  cases s with
  | insertAudit row | insertSecret row | markRotated secretId now
  | setRotationOf secretId rotationOf | setSecret userId secretId now
  | revokeSessions userId now deletedBy changed => exact trivial
  | _ => exact absurd h id

/-- The commands of a program that runs such statements, neither looks for a login row nor rolls
back. -/
def Onward (P : Stmt → Prop) : Command → Prop
  | .execute _ s => P s
  | .read t => t ≠ .loginRow
  | .begin _ => False
  | .rollback => False
  | _ => True

theorem Onward.mono {P P' : Stmt → Prop} (weaken : ∀ s, P s → P' s) (m : Command)
    (h : Onward P m) : Onward P' m := by
  cases m with
  | execute t s => exact weaken s h
  | _ => exact h

section Walk

variable {P : Stmt → Prop} {userId : String}

theorem writes {I : Database → Prop} {s : Stmt} (h : P s) :
    (Body.write s : Block Unit).Within I P := ⟨h, fun _ => trivial⟩

theorem confined_autocommit {t : Site} {b : Block Unit} (within : b.Within (fun _ => True) P) :
    (autocommit t b : Prog Unit).Confined (Onward P) :=
  Confined.autocommit within trivial (fun _ h => h) trivial

theorem confined_read {α : Type} {t : Site} {f : Database → α} (other : t ≠ .loginRow) :
    (read t f : Prog α).Confined (Onward P) := Confined.query other

theorem confined_draw {q : Query} : (draw q : Prog (Answer q)).Confined (Onward P) :=
  Confined.perform trivial

theorem confined_ask {q : Query} : (ask q : Prog (Answer q)).Confined (Onward P) :=
  Confined.perform trivial

theorem confined_audit {eventType : String} {actor : Actor} (h : ∀ row, P (.insertAudit row)) :
    (audit eventType actor).Confined (Onward P) := by
  apply Confined.bind confined_draw
  intro auditId
  apply Confined.bind confined_draw
  intro _
  exact confined_autocommit (writes (h _))

theorem confined_snapshot {id : String} : (snapshotForUser id).Confined (Onward P) :=
  confined_read (by decide)

theorem confined_passwordSecret {id : String} :
    (Authentication.passwordSecret id).Confined (Onward P) := by
  apply Confined.bind (confined_read (by decide))
  intro row
  cases row with
  | none => exact trivial
  | some row => exact trivial

theorem confined_verifyPassword {id password : String} :
    (Authentication.verifyPassword id password).Confined (Onward P) := by
  apply Confined.bind confined_passwordSecret
  intro secretId
  apply Confined.bind
  · apply Confined.bind (confined_read (by decide))
    intro row
    cases row with
    | none => exact trivial
    | some row => exact Confined.handle confined_ask fun _ => trivial
  · intro stored
    apply Confined.bind confined_ask
    exact fun _ => trivial

theorem confined_store {secretType : SecretType} {entityType entityId plaintext : String} :
    (Secrets.store secretType entityType entityId plaintext).Confined (Onward Rotates) := by
  apply Confined.bind confined_draw
  intro secretId
  apply Confined.bind confined_ask
  intro token
  apply Confined.bind confined_draw
  intro now
  apply Confined.bind (confined_autocommit (writes trivial))
  exact fun _ => trivial

theorem confined_rotate {secretId plaintext entityType entityId : String} :
    (Secrets.rotate secretId plaintext entityType entityId).Confined (Onward Rotates) := by
  apply Confined.bind (Confined.query trivial)
  intro row
  cases row with
  | none => exact trivial
  | some row =>
    apply Confined.bind confined_draw
    intro now
    apply Confined.bind (confined_autocommit (writes trivial))
    intro _
    apply Confined.bind confined_store
    intro newId
    apply Confined.bind (confined_autocommit (writes trivial))
    exact fun _ => trivial

theorem confined_changePassword (id newPassword byUserId : String) :
    (Authentication.changePassword id newPassword byUserId).Confined (Onward Rotates) := by
  apply Confined.bind confined_draw
  intro now
  apply Confined.bind confined_passwordSecret
  intro secretId
  apply Confined.bind confined_ask
  intro hashed
  apply Confined.bind confined_rotate
  intro newSecret
  apply Confined.bind
  · exact confined_autocommit (Body.Within.bind (writes trivial) fun _ => writes trivial)
  · intro _
    apply Confined.bind confined_snapshot
    exact fun _ => confined_audit fun _ => trivial

theorem confined_registerFailure (count : Nat) (actor : Actor) :
    (Authentication.registerFailure userId count actor).Confined (Onward (Attends userId)) := by
  apply Confined.bind confined_draw
  intro now
  apply Confined.bind
  · exact confined_autocommit (writes rfl)
  · intro _
    split
    · exact confined_audit fun _ => trivial
    · exact trivial

theorem confined_issueSession (svc : AuthenticationService) (origin : Origin)
    (verified : Option String) : (Authentication.issueSession svc userId origin verified).Confined
      (Onward (Attends userId)) := by
  have device : (Authentication.ensureDevice origin).Confined (Onward (Attends userId)) := by
    unfold Authentication.ensureDevice
    split
    · exact trivial
    · apply Confined.bind confined_draw
      intro now
      exact confined_autocommit (writes rfl)
  apply Confined.bind device
  intro _
  apply Confined.bind confined_draw
  intro now
  apply Confined.bind confined_draw
  intro token
  apply Confined.bind
  · exact confined_autocommit (writes rfl)
  · intro _
    apply Confined.bind confined_snapshot
    intro actor
    apply Confined.bind (confined_audit fun _ => trivial)
    exact fun _ => trivial

theorem confined_revokeSessionId (sessionId : String) (audits : ∀ row, P (.insertAudit row))
    (revokes : ∀ id deletedAt lastActivityAt, P (.revokeSession id deletedAt lastActivityAt)) :
    (Authentication.revokeSessionId sessionId).Confined (Onward P) := by
  apply Confined.bind (Confined.query trivial)
  intro row
  cases row with
  | none => exact trivial
  | some row =>
    apply Confined.bind confined_draw
    intro deletedAt
    apply Confined.bind confined_draw
    intro lastActivityAt
    apply Confined.bind (confined_autocommit (writes (revokes _ _ _)))
    exact fun _ => confined_audit audits

/-- The part of `authenticate` behind its checks. -/
theorem confined_admitted (svc : AuthenticationService) (password : String) (origin : Origin)
    (at' : Moment) (row : User) (actor : Actor) :
    ((do
      let (valid, secretId) ← Authentication.verifyPassword row.userId password
      if !valid then do
        Authentication.registerFailure row.userId row.failedLoginCount actor
        audit "user_login_failed" actor
        throw (.invalidCredentials "invalid credentials")
      else do
        autocommit .reset (Body.write (.resetFailures row.userId at'.seconds))
        audit "user_login_success" actor
        Authentication.issueSession svc row.userId origin (some secretId)) : Prog Issued).Confined
      (Onward (Attends row.userId)) := by
  apply Confined.bind confined_verifyPassword
  intro verified
  obtain ⟨valid, secretId⟩ := verified
  cases valid with
  | true =>
    apply Confined.bind (confined_autocommit (writes trivial))
    intro _
    apply Confined.bind (confined_audit fun _ => trivial)
    exact fun _ => confined_issueSession svc origin _
  | false =>
    apply Confined.bind (confined_registerFailure _ actor)
    intro _
    apply Confined.bind (confined_audit fun _ => trivial)
    exact fun _ => trivial

theorem statusOf_unlocked (v : Web.Json) : statusOf v ≠ some .locked := by
  unfold statusOf
  split
  · exact fun h => nomatch h
  · exact fun h => nomatch h
  · exact fun h => nomatch h

theorem userFields_unlocked {body : Web.Body} {fields : UserFields}
    (h : userFields body = .ok (.ok fields)) : fields.status ≠ some .locked := by
  unfold userFields at h
  split at h
  · cases h
  · split at h
    all_goals try cases h
    split at h
    · cases h
    · cases h
    · dsimp only at h
      split at h
      · cases h
      · have h := Except.ok.inj (Except.ok.inj h)
        rw [← h]
        cases body.lookup "status" with
        | none => exact fun h => nomatch h
        | some v => exact statusOf_unlocked v

/-- Such commands, or a rollback. -/
def Rolling (P : Stmt → Prop) (m : Command) : Prop := m = .rollback ∨ Onward P m

theorem confined_writeUser (byUserId userId : String) {fields : UserFields}
    (unlocked : fields.status ≠ some .locked) :
    (writeUser byUserId userId fields).Confined (Rolling Administers) := by
  have onward : ∀ {α : Type} {p : Prog α}, p.Confined (Onward Administers) →
      p.Confined (Rolling Administers) := fun h => h.mono fun _ => .inr
  have written : ∀ s, Administers s →
      (autocommit .updateUser (Body.write s) : Prog Unit).Confined (Rolling Administers) :=
    fun s h => onward (confined_autocommit (writes h))
  unfold writeUser
  split
  · exact trivial
  · apply Confined.bind (onward confined_draw)
    intro now
    apply Confined.bind
    · apply Confined.handle
      · exact Confined.bind (written _ unlocked) fun _ => trivial
      · exact fun e => Confined.bind (Confined.perform (.inl rfl)) fun _ => trivial
    · intro refused
      split
      · exact trivial
      · dsimp only
        split
        · apply Confined.bind (onward confined_draw)
          intro now
          apply Confined.bind
          · exact written _ trivial
          · exact fun _ => trivial
        · exact trivial

theorem confined_setPassword (byUserId userId : String) (value : Option Web.Json) :
    (setPassword byUserId userId value).Confined (Onward Administers) := by
  unfold setPassword
  split
  · exact trivial
  · split
    · exact trivial
    · split
      · exact trivial
      · apply Confined.bind
        · exact (confined_changePassword _ _ _).mono (Onward.mono fun _ => Rotates.administers)
        · exact fun _ => trivial
  · exact trivial

/-- What `update_user` does once it knows whether the account may be disabled. -/
theorem confined_permitted (byUserId userId : String) {body : Web.Body} {fields : UserFields}
    (hfields : userFields body = .ok (.ok fields)) (allowed : Bool) :
    ((if !allowed then pure (lastSuperadmin "disable") else do
      let refused ← setPassword byUserId userId (body.lookup "password")
      match refused with
      | some reply => pure reply
      | none => writeUser byUserId userId fields) : Prog Reply).Confined (Rolling Administers) := by
  split
  · exact trivial
  · have onward : ∀ value, (setPassword byUserId userId value).Confined (Rolling Administers) :=
      fun value => (confined_setPassword byUserId userId value).mono fun _ => .inr
    apply Confined.bind (onward _)
    intro refused
    split
    · exact trivial
    · exact confined_writeUser byUserId userId (userFields_unlocked hfields)

theorem confined_updateUser (byUserId userId : String) (body : Option Web.Body) :
    (updateUser byUserId userId body).Confined (Rolling Administers) := by
  have onward : ∀ {α : Type} {p : Prog α}, p.Confined (Onward Administers) →
      p.Confined (Rolling Administers) := fun h => h.mono fun _ => .inr
  have mayDisable : (mayDisable userId).Confined (Onward Administers) := by
    apply Confined.bind (confined_read (by decide))
    intro superadmin
    split
    · exact Confined.bind (confined_read (by decide)) fun _ => trivial
    · exact trivial
  unfold updateUser
  split
  · exact trivial
  · rename_i body _
    apply Confined.bind (onward (confined_read (by decide)))
    intro there
    split
    · exact trivial
    · split
      · exact trivial
      · exact trivial
      · rename_i fields hfields
        dsimp only
        split
        · exact Confined.bind (onward mayDisable) (confined_permitted byUserId userId hfields)
        · exact confined_permitted byUserId userId hfields true

theorem confined_deleteUser (byUserId userId : String) :
    (deleteUser byUserId userId).Confined (Onward Administers) := by
  apply Confined.bind (confined_read (by decide))
  intro there
  split
  · exact trivial
  · apply Confined.bind (confined_read (by decide))
    intro active
    apply Confined.bind (confined_read (by decide))
    intro superadmin
    split
    · exact trivial
    · apply Confined.bind confined_draw
      intro now
      apply Confined.bind
      · apply confined_autocommit
        apply Body.Within.bind
        · exact writes trivial
        · intro _
          exact Body.Within.bind (writes trivial) fun _ => writes trivial
      · exact fun _ => trivial

theorem confined_validateSession (svc : AuthenticationService) (rawToken : String)
    (audits : ∀ row, P (.insertAudit row))
    (revokes : ∀ id deletedAt lastActivityAt, P (.revokeSession id deletedAt lastActivityAt)) :
    (Authentication.validateSession svc rawToken).Confined (Onward P) := by
  apply Confined.bind (confined_read (by decide))
  intro row
  cases row with
  | none => exact trivial
  | some row =>
    apply Confined.bind confined_draw
    intro now
    split
    · apply Confined.bind (confined_revokeSessionId _ audits revokes)
      exact fun _ => trivial
    · exact trivial

end Walk

end McManager.Access
