import McManager.Access.Authentication
import McManager.Framework.Frame

namespace McManager.Access

open Framework

/-- The secret is not the new one, nor has it been made a password after the new one was. -/
def Outdated (history : List String) (verified new : String) : Prop :=
  verified ≠ new ∧ verified ∉ (history.dropWhile (· != new)).tail

instance (history : List String) (verified new : String) :
    Decidable (Outdated history verified new) :=
  inferInstanceAs (Decidable (verified ≠ new ∧ verified ∉ (history.dropWhile (· != new)).tail))

/-- The session was not issued for a password of this user that the change to `new` replaced. -/
def ClientSession.Survives (history : List String) (s : ClientSession) (change : String × String) :
    Prop :=
  s.userId = change.1 → s.live = true → ∀ verified, s.verified = some verified →
    ¬Outdated history verified change.2

instance (history : List String) (s : ClientSession) (change : String × String) :
    Decidable (s.Survives history change) :=
  decidable_of_iff
    (s.userId = change.1 → s.live = true → ∀ verified ∈ s.verified, ¬Outdated history verified change.2)
    (by simp only [Option.mem_def]; exact Iff.rfl)

/-- No live session of a user is older than a password change that has ended the user's
sessions. -/
def OldSessionsEnded (db : Database) : Prop :=
  ∀ change ∈ db.changes, ∀ s ∈ db.clientSessions, s.Survives db.history change

instance (db : Database) : Decidable (OldSessionsEnded db) :=
  inferInstanceAs (Decidable (∀ change ∈ db.changes, ∀ s ∈ db.clientSessions,
    s.Survives db.history change))

/-- A session is stored before any change of the password behind it has ended the sessions. -/
def BeforeChange (s : Stmt) (db : Database) : Prop :=
  match s with
  | .insertSession row => ∀ change ∈ db.changes, row.Survives db.history change
  | _ => True

theorem outdated_append {history : List String} {verified new later : String}
    (h : ¬Outdated history verified new) : ¬Outdated (history ++ [later]) verified new := by
  intro outdated
  apply h
  refine ⟨outdated.1, ?_⟩
  intro after
  have found : history.dropWhile (· != new) ≠ [] := by
    intro none
    rw [none] at after
    cases after
  apply outdated.2
  have behind : (history ++ [later]).dropWhile (· != new) =
      history.dropWhile (· != new) ++ [later] := by
    rw [List.dropWhile_append, if_neg]
    simpa [List.isEmpty_iff] using found
  rw [behind, List.tail_append_of_ne_nil found]
  exact List.mem_append_left _ after

/-- Updates of sessions that revive none. -/
theorem ended_update {db db' : Database} {p : ClientSession → Bool}
    {f : ClientSession → ClientSession} (h : OldSessionsEnded db)
    (history : db'.history = db.history) (changes : db'.changes = db.changes)
    (sessions : db'.clientSessions = updateWhere p f db.clientSessions)
    (keeps : ∀ s, (f s).userId = s.userId ∧ (f s).verified = s.verified ∧
      ((f s).live = true → s.live = true)) : OldSessionsEnded db' := by
  intro change hchange s hs
  rw [changes] at hchange
  rw [sessions] at hs
  rw [history]
  obtain ⟨old, hold, ⟨-, rfl⟩ | ⟨-, rfl⟩⟩ := mem_updateWhere.mp hs
  · have kept := keeps old
    intro user live verified hverified
    have survives := h change hchange old hold
    exact survives (kept.1.symm.trans user) (kept.2.2 live) verified
      (kept.2.1.symm.trans hverified)
  · exact h change hchange s hold

/-- A statement leaves no old session alive exactly when it stores none. -/
theorem ended_apply {s : Stmt} {db db' : Database} {n : Nat} (ended : OldSessionsEnded db)
    (h : s.apply db = .ok (db', n)) : OldSessionsEnded db' ↔ BeforeChange s db := by
  cases s with
  | insertSession row =>
    obtain ⟨-, rfl, -⟩ := constrained_ok.mp h
    constructor
    · intro h change hchange
      exact h change hchange row (List.mem_append_right _ (List.mem_singleton_self row))
    · intro before change hchange s hs
      obtain hs | hs := List.mem_append.mp hs
      · exact ended change hchange s hs
      · rw [List.mem_singleton.mp hs]
        exact before change hchange
  | revokeSession sessionId deletedAt lastActivityAt =>
    cases h
    apply iff_of_true _ trivial
    exact ended_update ended rfl rfl rfl fun s => ⟨rfl, rfl, fun live => (nomatch live)⟩
  | confirmSession sessionId confirmedAt =>
    cases h
    apply iff_of_true _ trivial
    exact ended_update ended rfl rfl rfl fun s => ⟨rfl, rfl, fun live => live⟩
  | revokeSessions userId now deletedBy changed =>
    cases h
    apply iff_of_true _ trivial
    intro change hchange s hs
    dsimp only at hchange hs ⊢
    obtain ⟨old, hold, ⟨-, rfl⟩ | ⟨miss, rfl⟩⟩ := mem_updateWhere.mp hs
    · exact fun _ live => nomatch live
    · obtain hchange | hchange := List.mem_append.mp hchange
      · exact ended change hchange s hold
      · intro user live
        have same : change.1 = userId := by
          cases changed with
          | none => cases hchange
          | some new => rw [List.mem_singleton.mp hchange]
        rw [same] at user
        rw [user, live] at miss
        simp at miss
  | setSecret userId secretId now =>
    obtain ⟨-, rfl, -⟩ := constrained_ok.mp h
    apply iff_of_true _ trivial
    intro change hchange s hs user live verified hverified
    exact outdated_append (ended change hchange s hs user live verified hverified)
  | revokeDeviceSessions deviceId now deletedBy =>
    cases h
    apply iff_of_true _ trivial
    exact ended_update ended rfl rfl rfl fun s => ⟨rfl, rfl, fun live => (nomatch live)⟩
  | insertAudit row | insertSecret row | setRotationOf secretId rotationOf
  | updateUser userId fields now | insertUser row | insertRole row =>
    obtain ⟨-, rfl, -⟩ := constrained_ok.mp h
    exact iff_of_true ended trivial
  | insertAssignment assignmentId userId roleId =>
    cases roleId with
    | none => cases h
    | some roleId =>
      obtain ⟨-, rfl, -⟩ := constrained_ok.mp h
      exact iff_of_true ended trivial
  | upsertDevice row =>
    have h := Except.ok.inj h
    have sessions : db'.clientSessions = db.clientSessions ∧ db'.history = db.history ∧
        db'.changes = db.changes := by
      have h := congrArg Prod.fst h
      dsimp only at h
      rw [← h]
      split <;> exact ⟨rfl, rfl, rfl⟩
    apply iff_of_true _ trivial
    rw [OldSessionsEnded, sessions.1, sessions.2.1, sessions.2.2]
    exact ended
  | resetFailures userId now | registerFailure userId count lockedUntil now
  | markRotated secretId now | deleteUser userId now deletedBy
  | revokeAssignments userId now deletedBy | updateDevice deviceId fields
  | revokeDevice deviceId now deletedBy | completeSetup now =>
    cases h
    exact iff_of_true ended trivial

/-- The calls that verify and change passwords and issue and end sessions. -/
inductive AuthCall
  | authenticate (username password : String) (origin : Origin)
  | issueSession (userId : String) (origin : Origin)
  | confirmStepUp (rawToken password : String) (origin : Origin)
  | revokeSessionId (sessionId : String)
  | changePassword (userId newPassword byUserId : String)

def AuthCall.program (svc : AuthenticationService) : AuthCall → Prog Unit
  | authenticate username password origin =>
    (Authentication.authenticate svc username password origin).bind fun _ => .ret ()
  | issueSession userId origin =>
    (Authentication.issueSession svc userId origin).bind fun _ => .ret ()
  | confirmStepUp rawToken password origin =>
    (Authentication.confirmStepUp svc rawToken password origin).bind fun _ => .ret ()
  | revokeSessionId sessionId => Authentication.revokeSessionId sessionId
  | changePassword userId newPassword byUserId =>
    Authentication.changePassword userId newPassword byUserId

def Authenticates (svc : AuthenticationService) (m : AccessMove) : Prop :=
  ∀ p, m = .invoke p → ∃ call : AuthCall, p = call.program svc

/-- One user with one password. -/
def oneUser : Database where
  users := [{ userId := "u", username := "user", secretId := "s" }]
  secrets := [{
    secretId := "s", secretType := .userPassword, encryptedValue := "old"
    associatedEntityType := "user", associatedEntityId := "u", createdAt := 0 }]

/-- Sessions are stored under their tokens. -/
def plainTokens : AuthenticationService := ⟨fun token => token⟩

/-- The calls come in together and take these turns; no command fails. -/
def AuthCall.turns (svc : AuthenticationService) (calls : List AuthCall) (order : List Nat) :
    List AccessMove :=
  calls.map (fun call => .invoke (call.program svc)) ++ order.map fun i => .act i (smooth "1")

theorem authenticates_turns {svc : AuthenticationService} {calls : List AuthCall}
    {order : List Nat} {m : AccessMove} (hm : m ∈ AuthCall.turns svc calls order) :
    Authenticates svc m := by
  intro p hp
  obtain hm | hm := List.mem_append.mp hm
  · obtain ⟨call, -, hcall⟩ := List.mem_map.mp hm
    exact ⟨call, (Move.invoke.inj (hcall.trans hp)).symm⟩
  · obtain ⟨i, -, hi⟩ := List.mem_map.mp hm
    cases hi.trans hp

end McManager.Access
