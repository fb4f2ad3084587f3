import McManager.Framework.Events
import McManager.Guarantees.Rotation

namespace McManager.Access

open Framework Web

/-- The secret a user has. -/
def secretOf (db : Database) (userId : String) : Option Secret :=
  (db.user? userId).bind fun u => db.secrets.find? (·.secretId == u.secretId)

/-- The rows a request that reports an error leaves as they are. -/
def userRows (userId : String) (db : Database) :
    Option User × Option Secret × List ClientSession × List RoleAssignment :=
  (db.user? userId, secretOf db userId, db.clientSessions, db.assignments)

/-- Every requested field has its value, the password in use is what the cipher made of what the
hasher made of the requested one, and the sessions that have to end are revoked. -/
structure InForce (userId : String) (body : Body) (y : Alone) : Prop where
  user : ∃ u, y.conn.committed.user? userId = some u ∧
    (∀ s, body.lookup "username" = some (.str s) → u.username = strip s) ∧
    (∀ v, body.lookup "display_name" = some v → u.displayName = v.str?) ∧
    ∀ v, body.lookup "status" = some v → statusOf v = some u.status
  password : ∀ p, body.lookup "password" = some (.str p) → ∃ hashed value,
    .answered (.hash p) (.ok hashed) ∈ y.log ∧ .answered (.encrypt hashed) (.ok value) ∈ y.log ∧
      (secretOf y.conn.committed userId).map Secret.encryptedValue = some value
  sessions : (body.lookup "password").isSome ∨ body.lookup "status" = some (.str "disabled") →
    ∀ s ∈ y.conn.committed.clientSessions, s.userId = userId → s.live = false

/-- A success leaves everything in force, anything else the rows as they were. -/
structure AllOrNothing (userId : String) (body : Option Body) (db : Database)
    (ran : Except Exn Reply × Alone) : Prop where
  all : ∀ id, ran.1 = .ok (.ok id) → ∃ b, body = some b ∧ InForce userId b ran.2
  nothing : (∀ id, ran.1 ≠ .ok (.ok id)) →
    userRows userId ran.2.conn.committed = userRows userId db

abbrev AccessEvent := Framework.Event Site Stmt Query Fault Answer Database Exn

/-- What `update_user` comes to. -/
inductive Settled (userId : String) (body : Option Body) (db : Database) (r : Except Exn Reply)
    (y : Alone) (l : List AccessEvent) : Prop
  | done (id : String) (ok : r = .ok (.ok id)) (timely : Event.Timely (userRows userId) l)
      (b : Body) (some' : body = some b) (inForce : InForce userId b y)
  | refused (other : ∀ id, r ≠ .ok (.ok id)) (timely : Event.Timely (userRows userId) l)
      (rows : userRows userId y.conn.committed = userRows userId db)
  | failed (other : ∀ id, r ≠ .ok (.ok id))
      (failed : Event.Failed (userRows userId) (userRows userId db) y.conn.committed l)

theorem Settled.allOrNothing {userId : String} {body : Option Body} {db : Database}
    {r : Except Exn Reply} {y : Alone} {l : List AccessEvent} (h : Settled userId body db r y l) :
    AllOrNothing userId body db (r, y) ↔ Event.Timely (userRows userId) l := by
  have rows : (∀ id, r ≠ .ok (.ok id)) → (AllOrNothing userId body db (r, y) ↔
      userRows userId y.conn.committed = userRows userId db) := by
    intro other
    exact ⟨fun h => h.nothing other, fun same => ⟨fun id ok => absurd ok (other id), fun _ => same⟩⟩
  cases h with
  | done id ok timely b some' inForce =>
    exact ⟨fun _ => timely, fun _ => ⟨fun _ _ => ⟨b, some', inForce⟩, fun other => absurd ok (other id)⟩⟩
  | refused other timely same => exact ⟨fun _ => timely, fun _ => (rows other).mpr same⟩
  | failed other failed => exact (rows other).trans failed.timely

section Rows

variable {userId : String} {d d' : Database}

theorem userRows_of_user (h : d'.user? userId ≠ d.user? userId) :
    userRows userId d' ≠ userRows userId d := fun same => h (congrArg Prod.fst same)

/-- Another secret behind the secrets there are. -/
theorem userRows_insertSecret {secrets : List Secret} {row : Secret}
    (there : (secretOf (secured d secrets) userId).isSome) :
    userRows userId (secured d (secrets ++ [row])) = userRows userId (secured d secrets) := by
  have same : secretOf (secured d (secrets ++ [row])) userId = secretOf (secured d secrets) userId := by
    obtain ⟨u, hu, s, hs⟩ : ∃ u, (secured d secrets).user? userId = some u ∧
        ∃ s, secrets.find? (·.secretId == u.secretId) = some s := by
      rw [secretOf, Option.isSome_bind, Option.any_eq_true] at there
      obtain ⟨u, hu, found⟩ := there
      exact ⟨u, hu, Option.isSome_iff_exists.mp found⟩
    rw [secretOf, secretOf, hu]
    change (secured d (secrets ++ [row])).user? userId = some u at hu
    rw [hu]
    simp only [Option.bind_some, secured_secrets, List.find?_append, hs, Option.some_or]
  rw [userRows, userRows, same]
  rfl

theorem secretOf_marked (old : String) (at' : Nat) (rest : List Secret) {u : User}
    (hu : d.user? userId = some u) (there : (d.secrets.find? (·.secretId == u.secretId)).isSome) :
    (secretOf (secured d (marked d.secrets old at' ++ rest)) userId).isSome := by
  have same : (secured d (marked d.secrets old at' ++ rest)).user? userId = some u := hu
  rw [secretOf, same, Option.bind_some, secured_secrets, List.find?_append, marked,
    find?_updateWhere (fun s => by rfl)]
  cases found : d.secrets.find? (·.secretId == u.secretId) with
  | none =>
    rw [found] at there
    cases there
  | some s => rfl

end Rows

/-- What a password change leaves that goes through. -/
structure Reset (userId password : String) (d : Database) (y : Alone) : Prop where
  rests : y.conn = .closed y.conn.committed
  user : ∃ u u', d.user? userId = some u ∧ y.conn.committed.user? userId = some u' ∧
    u'.secretId ≠ u.secretId
  password : ∃ hashed value, .answered (.hash password) (.ok hashed) ∈ y.log ∧
    .answered (.encrypt hashed) (.ok value) ∈ y.log ∧
      (secretOf y.conn.committed userId).map Secret.encryptedValue = some value
  revoked : ∀ s ∈ y.conn.committed.clientSessions, s.userId = userId → s.live = false

section Password

variable {userId old plaintext entityType entityId byUserId : String} {d : Database}
  {log : List (Note Site Query Fault Answer)} {r : Option User × Option Secret × List ClientSession × List RoleAssignment}
  {l : List AccessEvent}

theorem wpe_store {P : Except Exn String → Alone → List AccessEvent → Prop} {secretType : SecretType}
    (there : (secretOf d userId).isSome) (h : Event.Tracked (userRows userId) r d l)
    (done : ∀ row l', row.secretId ∉ d.secrets.map (·.secretId) →
      Event.Tracked (userRows userId) r (secured d (d.secrets ++ [row])) l' →
      P (.ok row.secretId) ⟨.closed (secured d (d.secrets ++ [row])),
        log ++ [.answered (.encrypt plaintext) (.ok row.encryptedValue), .committed .storeSecret]⟩ l')
    (fault : ∀ e y l', Event.Failed (userRows userId) r y.conn.committed l' → P (.error e) y l') :
    wpe Scope.any P (Secrets.store secretType entityType entityId plaintext) ⟨.closed d, log⟩ l := by
  unfold Secrets.store
  simp only [Program.bind_eq]
  refine wpe_draw_tracked h fun id l₁ _ h => ?_
  rw [wpe_bind]
  refine wpe_ask_tracked h (fun token l₂ h => ?_) fault
  refine wpe_draw_tracked h fun at' l₃ _ h => ?_
  rw [wpe_bind]
  have inserted : ∀ {a : Unit} {d' : Database}, (Body.write (.insertSecret ⟨id, secretType, token,
      entityType, entityId, none, at'.seconds, none⟩) : Block Unit).eval d = .ok (a, d') →
      id ∉ d.secrets.map (·.secretId) ∧ d' = secured d (d.secrets ++ [⟨id, secretType, token,
        entityType, entityId, none, at'.seconds, none⟩]) := by
    intro a d' eval
    obtain ⟨_, applied⟩ := Body.eval_write_ok eval
    obtain ⟨new, rfl, -⟩ := constrained_ok.mp applied
    refine ⟨fun mem => ?_, rfl⟩
    have used := new _ (List.mem_singleton_self _)
    rw [hasSecret_of_mem mem] at used
    cases used
  refine wpe_autocommit_tracked (fun _ => trivial) h ?_ ?_ fault
  · intro a d' eval other
    rw [(inserted eval).2]
    exact (userRows_insertSecret (d := d) there).symm ▸ other
  · intro a d' l₄ eval h
    obtain ⟨fresh, rfl⟩ := inserted eval
    have stored := done _ l₄ fresh h
    rwa [List.append_cons log _ [.committed .storeSecret]] at stored

theorem wpe_rotate {P : Except Exn String → Alone → List AccessEvent → Prop} {u : User}
    (hu : d.user? userId = some u)
    (h : Event.Tracked (userRows userId) (userRows userId d) d l)
    (done : ∀ row at' notes l', row.secretId ∉ d.secrets.map (·.secretId) →
      u.secretId ∈ d.secrets.map (·.secretId) →
      .answered (.encrypt plaintext) (.ok row.encryptedValue) ∈ notes →
      Event.Tracked (userRows userId) (userRows userId d)
        (secured d (marked d.secrets u.secretId at' ++ [row])) l' →
      P (.ok row.secretId)
        ⟨.closed (secured d (marked d.secrets u.secretId at' ++ [row])), log ++ notes⟩ l')
    (unknown : ∀ e l', Event.Tracked (userRows userId) (userRows userId d) d l' →
      P (.error e) ⟨.closed d, log⟩ l')
    (fault : ∀ e y l', Event.Failed (userRows userId) (userRows userId d) y.conn.committed l' →
      P (.error e) y l') :
    wpe Scope.any P (Secrets.rotate u.secretId plaintext entityType entityId) ⟨.closed d, log⟩ l := by
  unfold Secrets.rotate
  simp only [Program.bind_eq]
  rw [wpe_bind]
  refine wpe_select_tracked h (fun l₁ h => ?_) fault
  dsimp only
  rw [Connection.view_closed]
  cases found : d.secrets.find? (·.secretId == u.secretId) with
  | none => exact unknown _ l₁ h
  | some s =>
    have isSome : (d.secrets.find? (·.secretId == u.secretId)).isSome := by rw [found]; rfl
    have there : u.secretId ∈ d.secrets.map (·.secretId) :=
      List.mem_map.mpr ⟨s, List.mem_of_find?_eq_some found, eq_of_beq (List.find?_some found :)⟩
    refine wpe_draw_tracked h fun at' l₂ _ h => ?_
    rw [wpe_bind]
    refine wpe_autocommit_tracked (fun _ => trivial) h (fun _ _ _ other => absurd rfl other) ?_ fault
    intro _ d' l₃ eval h
    obtain ⟨_, applied⟩ := Body.eval_write_ok eval
    cases applied
    change Event.Tracked _ _ (secured d (marked d.secrets u.secretId at'.seconds)) _ at h
    dsimp only
    rw [wpe_bind]
    have still := secretOf_marked u.secretId at'.seconds [] hu isSome
    rw [List.append_nil] at still
    refine wpe_store (d := secured d (marked d.secrets u.secretId at'.seconds)) still h ?_ fault
    intro row l₄ fresh h
    rw [secured_secrets, marked_ids] at fresh
    rw [secured_secured, secured_secrets] at h ⊢
    dsimp only
    rw [wpe_bind]
    have linked : ∀ {a : Unit} {d' : Database}, (Body.write (.setRotationOf row.secretId u.secretId) :
        Block Unit).eval (secured d (marked d.secrets u.secretId at'.seconds ++ [row])) = .ok (a, d') →
        d' = secured d (marked d.secrets u.secretId at'.seconds ++
          [{ row with rotationOf := some u.secretId }]) := by
      intro a d' eval
      obtain ⟨_, applied⟩ := Body.eval_write_ok eval
      obtain ⟨-, rfl, -⟩ := constrained_ok.mp applied
      exact congrArg (secured d) (link_marked fresh)
    have same : ∀ row, userRows userId (secured d (marked d.secrets u.secretId at'.seconds ++ [row])) =
        userRows userId (secured d (marked d.secrets u.secretId at'.seconds)) :=
      fun row => userRows_insertSecret (d := d) still
    refine wpe_autocommit_tracked (fun _ => trivial) h ?_ ?_ fault
    · intro a d' eval other
      rw [linked eval, same]
      change userRows userId (secured d _) ≠ _ at other
      rwa [same] at other
    · intro a d' l₅ eval h
      rw [linked eval] at h ⊢
      have rotated := done { row with rotationOf := some u.secretId } at'.seconds
        ([.committed .rotate] ++ [.answered (.encrypt plaintext) (.ok row.encryptedValue),
          .committed .storeSecret] ++ [.committed .rotate]) l₅ fresh there (by simp) h
      change P (.ok row.secretId) _ _
      simpa only [List.append_assoc] using rotated

/-- The user has the new secret, which stands behind the others. -/
theorem secretOf_set {secrets : List Secret} {row : Secret} {now : Nat} {u : User} {d' : Database}
    (hu : d.user? userId = some u) (fresh : row.secretId ∉ secrets.map (·.secretId))
    (users : d'.users = updateWhere (·.userId == userId)
      (fun u => { u with secretId := row.secretId, updatedAt := now }) d.users)
    (same : d'.secrets = secrets ++ [row]) :
    d'.user? userId = some { u with secretId := row.secretId, updatedAt := now } ∧
      secretOf d' userId = some row := by
  have own : (u.userId == userId) = true := (List.find?_some hu :)
  have found : d'.user? userId = some { u with secretId := row.secretId, updatedAt := now } := by
    rw [user?_update users fun _ => rfl, hu, Option.map_some, if_pos own]
  refine ⟨found, ?_⟩
  have none' : secrets.find? (·.secretId == row.secretId) = none := by
    rw [List.find?_eq_none]
    intro s hs hit
    exact fresh (List.mem_map.mpr ⟨s, hs, eq_of_beq hit⟩)
  rw [secretOf, found, Option.bind_some, same, List.find?_append, none']
  simp

theorem wpe_changePassword {P : Except Exn Unit → Alone → List AccessEvent → Prop} {u : User}
    {password : String} (hu : d.user? userId = some u)
    (h : Event.Tracked (userRows userId) (userRows userId d) d l)
    (done : ∀ y l', Reset userId password d y →
      Event.Tracked (userRows userId) (userRows userId d) y.conn.committed l' → P (.ok ()) y l')
    (unknown : ∀ e log' l', Event.Tracked (userRows userId) (userRows userId d) d l' →
      P (.error e) ⟨.closed d, log'⟩ l')
    (fault : ∀ e y l', Event.Failed (userRows userId) (userRows userId d) y.conn.committed l' →
      P (.error e) y l') :
    wpe Scope.any P (Authentication.changePassword userId password byUserId) ⟨.closed d, log⟩ l := by
  unfold Authentication.changePassword Authentication.passwordSecret
  simp only [Program.bind_eq]
  refine wpe_draw_tracked h fun at' l₁ _ h => ?_
  rw [wpe_bind, wpe_bind]
  refine wpe_read_tracked h (fun l₂ h => ?_) fault
  have found : (⟨.closed d, log⟩ : Alone).conn.committed.user? userId = some u := hu
  dsimp only
  rw [found]
  change wpe _ _ (Program.bind _ _) _ _
  rw [wpe_bind]
  refine wpe_ask_tracked h (fun hashed l₃ h => ?_) fault
  dsimp only
  rw [wpe_bind]
  refine wpe_rotate hu h ?_ (fun e l' h => unknown e _ l' h) fault
  intro row marking notes l₄ fresh there value h
  dsimp only
  rw [wpe_bind]
  have renewed : ∀ {a : Unit} {d' : Database}, (do
      Body.write (.setSecret userId row.secretId at'.seconds)
      Body.write (.revokeSessions userId at'.seconds byUserId (some row.secretId)) : Block Unit).eval
        (secured d (marked d.secrets u.secretId marking ++ [row])) = .ok (a, d') →
      d'.user? userId = some { u with secretId := row.secretId, updatedAt := at'.seconds } ∧
        secretOf d' userId = some row ∧
        ∀ s ∈ d'.clientSessions, s.userId = userId → s.live = false := by
    intro a d' eval
    obtain ⟨users, secrets, revoked⟩ := eval_renewal eval
    have new : row.secretId ∉ (marked d.secrets u.secretId marking).map (·.secretId) := by
      rwa [marked_ids]
    obtain ⟨user, secret⟩ := secretOf_set hu new users secrets
    exact ⟨user, secret, revoked⟩
  have apart : row.secretId ≠ u.secretId := fun same => fresh (same ▸ there)
  have other : ∀ {d' : Database}, d'.user? userId =
      some { u with secretId := row.secretId, updatedAt := at'.seconds } →
      userRows userId d' ≠ userRows userId d := by
    intro d' user
    apply userRows_of_user
    rw [user, hu]
    intro same
    exact apart (congrArg User.secretId (Option.some.inj same))
  refine wpe_autocommit_tracked (fun _ _ => trivial) h ?_ ?_ fault
  · exact fun a d' eval _ => other (renewed eval).1
  · intro a d' l₅ eval h
    obtain ⟨user, secret, revoked⟩ := renewed eval
    dsimp only
    rw [wpe_bind]
    refine wpe_read_tracked h (fun l₆ h => ?_) fault
    dsimp only
    unfold audit
    simp only [Program.bind_eq]
    refine wpe_draw_tracked h fun auditId l₇ _ h => ?_
    refine wpe_draw_tracked h fun _ l₈ _ h => ?_
    refine wpe_autocommit_tracked (fun _ => trivial) h ?_ ?_ fault
    · intro _ d'' eval _
      obtain ⟨_, applied⟩ := Body.eval_write_ok eval
      obtain ⟨-, rfl, -⟩ := constrained_ok.mp applied
      exact other user
    · intro _ d'' l₉ eval h
      obtain ⟨_, applied⟩ := Body.eval_write_ok eval
      obtain ⟨-, rfl, -⟩ := constrained_ok.mp applied
      refine done _ l₉ ⟨rfl, ⟨u, _, hu, user, apart⟩, ⟨hashed, row.encryptedValue, ?_, ?_, ?_⟩, revoked⟩ h
      · simp
      · simp [value]
      · change (secretOf d' userId).map _ = _
        rw [secret]
        rfl

end Password

/-- The sessions of a user are revoked. -/
def Revoked (userId : String) (db : Database) : Prop :=
  ∀ s ∈ db.clientSessions, s.userId = userId → s.live = false

/-- What the writes on the row leave that go through. -/
structure Stored (userId : String) (fields : UserFields) (d : Database)
    (log : List (Note Site Query Fault Answer)) (y : Alone) : Prop where
  user : ∃ u at', d.user? userId = some u ∧
    y.conn.committed.user? userId = some { fields.set u with updatedAt := at' }
  secret : secretOf y.conn.committed userId = secretOf d userId
  log : log ⊆ y.log
  disabled : fields.status = some .disabled → Revoked userId y.conn.committed
  revoked : Revoked userId d → Revoked userId y.conn.committed

section Write

variable {userId byUserId : String} {fields : UserFields} {db d d' : Database}
  {log : List (Note Site Query Fault Answer)} {l : List AccessEvent}

/-- The rows after the update of the user. -/
structure Renamed (userId : String) (fields : UserFields) (d d' : Database) : Prop where
  user : ∃ at', ∀ u, d.user? userId = some u →
    d'.user? userId = some { fields.set u with updatedAt := at' }
  secrets : d'.secrets = d.secrets
  sessions : d'.clientSessions = d.clientSessions
  assignments : d'.assignments = d.assignments

theorem renamed_of_eval {now : Nat} {a : Unit}
    (h : (Body.write (.updateUser userId fields now) : Block Unit).eval d = .ok (a, d')) :
    Renamed userId fields d d' := by
  obtain ⟨_, applied⟩ := Body.eval_write_ok h
  obtain ⟨-, rfl, -⟩ := constrained_ok.mp applied
  refine ⟨⟨now, fun u hu => ?_⟩, rfl, rfl, rfl⟩
  have own : (u.userId == userId) = true := (List.find?_some hu :)
  rw [user?_update (d := d) (p := (·.userId == userId))
    (f := fun u => { fields.set u with updatedAt := now }) rfl fun _ => rfl, hu, Option.map_some,
    if_pos own]

theorem Renamed.secret {u : User} (h : Renamed userId fields d d') (hu : d.user? userId = some u) :
    secretOf d' userId = secretOf d userId := by
  obtain ⟨at', renamed⟩ := h.user
  rw [secretOf, secretOf, renamed u hu, hu, h.secrets]
  rfl

theorem Renamed.changes {u : User} (h : Renamed userId fields d d') (hu : d.user? userId = some u)
    (other : userRows userId d' ≠ userRows userId d) : d'.user? userId ≠ d.user? userId := by
  intro same
  apply other
  rw [userRows, userRows, same, h.secret hu, h.sessions, h.assignments]

/-- A secret of its own is still there after the update. -/
theorem Renamed.apart {u u₀ : User} (h : Renamed userId fields d d') (hu : d.user? userId = some u)
    (hu₀ : db.user? userId = some u₀) (apart : u.secretId ≠ u₀.secretId) :
    d'.user? userId ≠ db.user? userId := by
  obtain ⟨now, user⟩ := h.user
  rw [user u hu, hu₀]
  intro same
  have rows := Option.some.inj same
  apply apart
  rw [← rows]
  rfl

theorem wpe_writeUser {P : Except Exn Reply → Alone → List AccessEvent → Prop} {u u₀ : User}
    (hu₀ : db.user? userId = some u₀) (hu : d.user? userId = some u)
    (onto : d = db ∨ u.secretId ≠ u₀.secretId)
    (h : Event.Tracked (userRows userId) (userRows userId db) d l)
    (done : ∀ id y l', Stored userId fields d log y →
      Event.Tracked (userRows userId) (userRows userId db) y.conn.committed l' →
      P (.ok (.ok id)) y l')
    (refused : ∀ code message y l',
      Event.Failed (userRows userId) (userRows userId db) y.conn.committed l' →
      P (.ok (.error code message)) y l')
    (fault : ∀ e y l', Event.Failed (userRows userId) (userRows userId db) y.conn.committed l' →
      P (.error e) y l') :
    wpe Scope.any P (writeUser byUserId userId fields) ⟨.closed d, log⟩ l := by
  unfold writeUser
  split
  · rename_i empty
    subst empty
    apply done userId _ l _ h
    exact ⟨⟨u, u.updatedAt, hu, hu⟩, rfl, fun _ h => h, fun h => (nomatch h), fun h => h⟩
  · simp only [Program.bind_eq]
    refine wpe_draw_tracked h fun at' l₁ _ h => ?_
    rw [wpe_bind, wpe_handle, wpe_bind]
    refine wpe_autocommit_tracked (fun _ => trivial) h ?_ ?_ ?_
    · intro _ d' eval other
      have renamed : Renamed userId fields d d' := renamed_of_eval eval
      rcases onto with rfl | apart
      · exact absurd rfl other
      · exact userRows_of_user (renamed.apart hu hu₀ apart)
    · intro _ d' l₂ eval h
      have renamed : Renamed userId fields d d' := renamed_of_eval eval
      obtain ⟨now, user⟩ := renamed.user
      have found := user u hu
      dsimp only
      rw [wpe_ret]
      dsimp only
      split
      · refine wpe_draw_tracked h fun at'' l₃ _ h => ?_
        rw [wpe_bind]
        have ended : ∀ {a : Unit} {d'' : Database}, (Body.write
            (.revokeSessions userId at''.seconds byUserId none) : Block Unit).eval d' = .ok (a, d'') →
            d''.users = d'.users ∧ d''.secrets = d'.secrets ∧ Revoked userId d'' := by
          intro a d'' eval
          obtain ⟨_, applied⟩ := Body.eval_write_ok eval
          cases applied
          refine ⟨rfl, rfl, ?_⟩
          intro s hs own
          obtain ⟨t, -, ⟨hit, rfl⟩ | ⟨miss, rfl⟩⟩ := mem_updateWhere.mp hs
          · rfl
          · rw [beq_iff_eq.mpr own, Bool.true_and] at miss
            exact miss
        refine wpe_autocommit_tracked (fun _ => trivial) h ?_ ?_ fault
        · intro _ d'' eval other
          obtain ⟨users, -, -⟩ := ended eval
          have same : d''.user? userId = d'.user? userId := by rw [Database.user?, users]; rfl
          apply userRows_of_user
          rw [same]
          rcases onto with rfl | apart
          · exact renamed.changes hu other
          · exact renamed.apart hu hu₀ apart
        · intro _ d'' l₄ eval h
          obtain ⟨users, secrets, revoked⟩ := ended eval
          have same : d''.user? userId = d'.user? userId := by rw [Database.user?, users]; rfl
          apply done userId _ l₄ _ h
          refine ⟨⟨u, now, hu, same.trans found⟩, ?_, ?_, fun _ => revoked, fun _ => revoked⟩
          · change secretOf d'' userId = _
            rw [secretOf, same, secrets, ← renamed.secret hu]
            rfl
          · simp
      · rename_i stays
        apply done userId _ l₂ _ h
        refine ⟨⟨u, now, hu, found⟩, renamed.secret hu, ?_, fun same => absurd same stays, ?_⟩
        · exact List.subset_append_left _ _
        · intro revoked s hs
          exact revoked s (renamed.sessions ▸ hs)
    · intro e y l₂ failed
      dsimp only
      rw [wpe_bind]
      refine wpe_rollback_failed failed fun l₃ failed => ?_
      exact refused _ _ ⟨.closed y.conn.committed, y.log⟩ l₃ failed

end Write

/-- The fields are those the body names. -/
structure Named (body : Body) (fields : UserFields) : Prop where
  username : ∀ s, body.lookup "username" = some (.str s) → fields.username = some (strip s)
  displayName : ∀ v, body.lookup "display_name" = some v → fields.displayName = some v.str?
  status : ∀ v, body.lookup "status" = some v → ∃ status, statusOf v = some status ∧
    fields.status = some status

theorem userFields_named {body : Body} {fields : UserFields}
    (h : userFields body = .ok (.ok fields)) : Named body fields := by
  unfold userFields at h
  split at h
  · cases h
  · rename_i username accepted
    split at h
    all_goals try cases h
    rename_i displayName _ _ _ _ _
    split at h
    · cases h
    · cases h
    · dsimp only at h
      split at h
      · cases h
      · rename_i known
        have fields := Except.ok.inj (Except.ok.inj h)
        subst fields
        refine ⟨?_, ?_, ?_⟩
        · intro s hs
          rw [hs] at accepted ⊢
          by_cases blank : strip s = ""
          · exact absurd (by simp [Json.str?, blank]) accepted
          · simp [Json.str?, blank]
        · intro v hv
          rw [hv]
          rfl
        · intro v hv
          rw [hv] at known ⊢
          cases status : statusOf v with
          | none => exact absurd (by simp [status]) known
          | some status' => exact ⟨status', rfl, by simp [status]⟩

section Request

variable {userId byUserId : String} {body : Option Body} {db : Database}

/-- A reply before any command that writes. -/
theorem settled_refused {r : Except Exn Reply} {log : List (Note Site Query Fault Answer)}
    {l : List AccessEvent} (other : ∀ id, r ≠ .ok (.ok id))
    (h : Event.Tracked (userRows userId) (userRows userId db) db l) :
    Settled userId body db r ⟨.closed db, log⟩ l :=
  .refused other h.timely rfl

/-- What is in force once the row is written. -/
theorem inForce_of_stored (db : Database) {b : Body} {fields : UserFields} {d : Database}
    {log : List (Note Site Query Fault Answer)} {y : Alone} (named : Named b fields)
    (stored : Stored userId fields d log y)
    (password : ∀ p, b.lookup "password" = some (.str p) → Reset userId p db ⟨.closed d, log⟩)
    (texts : (b.lookup "password").isSome → ∃ p, b.lookup "password" = some (.str p)) :
    InForce userId b y := by
  obtain ⟨u, at', -, hu⟩ := stored.user
  refine ⟨⟨_, hu, ?_, ?_, ?_⟩, ?_, ?_⟩
  · intro s hs
    change fields.username.getD u.username = _
    rw [named.username s hs]
    rfl
  · intro v hv
    change fields.displayName.getD u.displayName = _
    rw [named.displayName v hv]
    rfl
  · intro v hv
    obtain ⟨status, known, set⟩ := named.status v hv
    change _ = some (fields.status.getD u.status)
    rw [known, set]
    rfl
  · intro p hp
    obtain ⟨hashed, value, hash, encrypt, secret⟩ := (password p hp).password
    refine ⟨hashed, value, stored.log hash, stored.log encrypt, ?_⟩
    rw [stored.secret]
    exact secret
  · rintro (some' | disabled)
    · obtain ⟨p, hp⟩ := texts some'
      exact stored.revoked (password p hp).revoked
    · obtain ⟨status, known, set⟩ := named.status _ disabled
      cases known
      exact stored.disabled set

theorem wpe_mayDisable {P : Except Exn Bool → Alone → List AccessEvent → Prop} {x : Alone}
    {r : Option User × Option Secret × List ClientSession × List RoleAssignment}
    {l : List AccessEvent} (h : Event.Tracked (userRows userId) r x.conn.committed l)
    (answer : ∀ allowed l', Event.Tracked (userRows userId) r x.conn.committed l' →
      P (.ok allowed) x l')
    (fault : ∀ e y l', Event.Failed (userRows userId) r y.conn.committed l' → P (.error e) y l') :
    wpe Scope.any P (mayDisable userId) x l := by
  unfold mayDisable
  simp only [Program.bind_eq]
  rw [wpe_bind]
  refine wpe_read_tracked h (fun l₁ h => ?_) fault
  dsimp only
  split
  · rw [wpe_bind]
    refine wpe_read_tracked h (fun l₂ h => ?_) fault
    exact answer _ l₂ h
  · exact answer _ l₁ h

/-- The part of `update_user` behind its checks. -/
theorem wpe_changes {b : Body} {fields : UserFields} {u : User} {l : List AccessEvent}
    {log : List (Note Site Query Fault Answer)} (some' : body = some b) (named : Named b fields)
    (hu : db.user? userId = some u)
    (h : Event.Tracked (userRows userId) (userRows userId db) db l) :
    wpe Scope.any (Settled userId body db) (do
      let refused ← setPassword byUserId userId (b.lookup "password")
      match refused with
      | some reply => pure reply
      | none => writeUser byUserId userId fields) ⟨.closed db, log⟩ l := by
  have fault : ∀ e y l', Event.Failed (userRows userId) (userRows userId db) y.conn.committed l' →
      Settled userId body db (.error e) y l' :=
    fun e y l' failed => .failed (fun _ h => nomatch h) failed
  have refused : ∀ code message y l',
      Event.Failed (userRows userId) (userRows userId db) y.conn.committed l' →
      Settled userId body db (.ok (.error code message)) y l' :=
    fun code message y l' failed => .failed (fun _ h => nomatch h) failed
  simp only [Program.bind_eq]
  rw [wpe_bind]
  unfold setPassword
  split
  · rename_i none'
    refine wpe_writeUser hu hu (.inl rfl) h ?_ refused fault
    intro id y l' stored h
    refine .done id rfl h.timely b some' (inForce_of_stored db named stored ?_ ?_)
    · intro p hp
      rw [hp] at none'
      cases none'
    · intro isSome
      rw [none'] at isSome
      cases isSome
  · rename_i password hpassword
    split
    · exact settled_refused (fun _ h => nomatch h) h
    · split
      · exact settled_refused (fun _ h => nomatch h) h
      · simp only [Program.bind_eq]
        rw [wpe_bind]
        refine wpe_changePassword hu h ?_ ?_ fault
        · intro y l' reset h
          obtain ⟨c, log'⟩ := y
          obtain ⟨u₀, u', hu₀, hu', apart⟩ := reset.user
          have rests : c = .closed c.committed := reset.rests
          dsimp only
          rw [rests] at reset hu' h ⊢
          refine wpe_writeUser hu₀ hu' (.inr apart) h ?_ refused fault
          intro id y l' stored h
          refine .done id rfl h.timely b some' (inForce_of_stored db named stored ?_ ?_)
          · intro p hp
            rw [hpassword] at hp
            cases hp
            exact reset
          · exact fun _ => ⟨password, hpassword⟩
        · intro e log' l' h
          exact settled_refused (fun _ h => nomatch h) h
  · exact settled_refused (fun _ h => nomatch h) h

theorem wpe_updateUser : wpe Scope.any (Settled userId body db) (updateUser byUserId userId body)
    ⟨.closed db, []⟩ [] := by
  have start : Event.Tracked (userRows userId) (userRows userId db) db ([] : List AccessEvent) :=
    Event.tracked_nil
  have fault : ∀ e y l', Event.Failed (userRows userId) (userRows userId db) y.conn.committed l' →
      Settled userId body db (.error e) y l' :=
    fun e y l' failed => .failed (fun _ h => by cases h) failed
  unfold updateUser
  split
  · exact settled_refused (fun _ h => by cases h) start
  · rename_i b kept
    have some' : body = some b := by
      cases body with
      | none => cases kept
      | some b' => exact (Option.filter_eq_some_iff.mp kept).1
    simp only [Program.bind_eq]
    rw [wpe_bind]
    refine wpe_read_tracked start (fun l₁ h => ?_) fault
    cases there : db.users.any fun u => u.userId == userId && u.live with
    | false =>
      change wpe _ _ (if !(db.users.any _) then _ else _) _ _
      rw [there]
      exact settled_refused (fun _ h => by cases h) h
    | true =>
      change wpe _ _ (if !(db.users.any _) then _ else _) _ _
      rw [there]
      obtain ⟨u, hu⟩ : ∃ u, db.user? userId = some u := by
        obtain ⟨u, mem, own⟩ := List.any_eq_true.mp there
        rw [Database.user?, ← Option.isSome_iff_exists, List.find?_isSome]
        exact ⟨u, mem, (Bool.and_eq_true_iff.mp own).1⟩
      rw [if_neg (by decide)]
      cases fields : userFields b with
      | error e => exact settled_refused (fun _ h => by cases h) h
      | ok read =>
        cases read with
        | error message => exact settled_refused (fun _ h => by cases h) h
        | ok read =>
          have named := userFields_named fields
          have rest : ∀ (allowed : Bool) (l' : List AccessEvent),
              Event.Tracked (userRows userId) (userRows userId db) db l' →
              wpe Scope.any (Settled userId body db)
                ((if !allowed then pure (lastSuperadmin "disable") else do
                  let refused ← setPassword byUserId userId (b.lookup "password")
                  match refused with
                  | some reply => pure reply
                  | none => writeUser byUserId userId read) : Prog Reply) ⟨.closed db, []⟩ l' := by
            intro allowed l' h
            cases allowed with
            | false => exact settled_refused (fun _ h => by cases h) h
            | true => exact wpe_changes some' named hu h
          dsimp only
          split
          · rw [wpe_bind]
            exact wpe_mayDisable h rest fault
          · exact rest true l₁ h

/-- The property holds of a request if and only if none of its commands fails after a commit that
has changed the user, the secret in use, the sessions or the assignments. -/
theorem update_all_or_nothing (byUserId userId : String) (body : Option Body) (db : Database)
    (env : Nat → Alone → (m : Command) → m.Outcome Fault Answer) :
    AllOrNothing userId body db (Framework.run env (updateUser byUserId userId body) ⟨.closed db, []⟩) ↔
      Event.Timely (userRows userId)
        (Framework.events env (updateUser byUserId userId body) ⟨.closed db, []⟩) :=
  (of_wpe (fun _ x m => Scope.any_allowed x m _) wpe_updateUser).allOrNothing

end Request

/-- A second user, who has the name that is asked for. -/
def twoUsers : Database :=
  { oneUser with users := oneUser.users ++ [{ userId := "v", username := "taken", secretId := "s" }] }

/-- A new password and a name that another user has. -/
def renamedReset : Body := [("password", .str "a new password"), ("username", .str "taken")]

/-- What comes of it. -/
def resetOutcome : Except Exn Reply × Alone :=
  Framework.run (RotationStep.outside none) (updateUser "a" "u" (some renamedReset))
    ⟨.closed twoUsers, []⟩

theorem resetOutcome_refused : resetOutcome.1 =
    .ok (.error "VALIDATION_ERROR" "UNIQUE constraint failed: users.username") := by
  decide +kernel

theorem resetOutcome_changed :
    userRows "u" resetOutcome.2.conn.committed ≠ userRows "u" twoUsers := by
  decide +kernel

/-- The password is changed before the name is refused. -/
theorem update_half_done : ¬∀ (byUserId userId : String) (body : Option Body) (db : Database)
    (env : Nat → Alone → (m : Command) → m.Outcome Fault Answer),
    AllOrNothing userId body db
      (Framework.run env (updateUser byUserId userId body) ⟨.closed db, []⟩) := by
  intro h
  have all : AllOrNothing "u" (some renamedReset) twoUsers resetOutcome :=
    h "a" "u" (some renamedReset) twoUsers (RotationStep.outside none)
  apply resetOutcome_changed
  apply all.nothing
  rw [resetOutcome_refused]
  exact fun _ same => nomatch same

end McManager.Access
