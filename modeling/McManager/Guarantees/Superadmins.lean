import McManager.Access.Commands

namespace McManager.Access

open Framework

/-- A live, active user holds the live role `Superadmin`. -/
def HasSuperadmin (db : Database) : Prop := ∃ u ∈ db.users, db.activeSuperadmin u = true

instance (db : Database) : Decidable (HasSuperadmin db) :=
  inferInstanceAs (Decidable (∃ u ∈ db.users, db.activeSuperadmin u = true))

def OtherSuperadmin (db : Database) (userId : String) : Prop :=
  ∃ u ∈ db.users, db.activeSuperadmin u = true ∧ u.userId ≠ userId

/-- A statement that takes a user out of the active Superadmins finds another one there. -/
def StillAnother (s : Stmt) (db : Database) : Prop :=
  match s with
  | .updateUser userId fields _ => fields.status = some .disabled → OtherSuperadmin db userId
  | .deleteUser userId _ _ => OtherSuperadmin db userId
  | .revokeAssignments userId _ _ => OtherSuperadmin db userId
  | _ => True

theorem isSuperadmin_congr {db db' : Database} (roles : db'.roles = db.roles)
    (assignments : db'.assignments = db.assignments) (userId : String) :
    db'.isSuperadmin userId = db.isSuperadmin userId := by
  rw [Database.isSuperadmin, Database.isSuperadmin, roles, assignments]

/-- An update of users that leaves who is an active Superadmin to these columns. -/
theorem activeSuperadmin_congr {db db' : Database} {u v : User} (roles : db'.roles = db.roles)
    (assignments : db'.assignments = db.assignments) (userId : v.userId = u.userId)
    (live : v.live = u.live) (status : v.status = u.status) :
    db'.activeSuperadmin v = db.activeSuperadmin u := by
  rw [Database.activeSuperadmin, Database.activeSuperadmin, isSuperadmin_congr roles assignments,
    userId, live, status]

/-- An update that ends every user with the id keeps a Superadmin exactly when there is
another one. -/
theorem hasSuperadmin_ended {db db' : Database} {userId : String} {f : User → User}
    (users : db'.users = updateWhere (·.userId == userId) f db.users)
    (ends : ∀ u, u.userId = userId → db'.activeSuperadmin (f u) = false)
    (others : ∀ u, u.userId ≠ userId → db'.activeSuperadmin u = db.activeSuperadmin u) :
    HasSuperadmin db' ↔ OtherSuperadmin db userId := by
  constructor
  · intro h
    obtain ⟨v, hv, active⟩ := h
    rw [users] at hv
    obtain ⟨u, hu, ⟨hit, rfl⟩ | ⟨miss, rfl⟩⟩ := mem_updateWhere.mp hv
    · rw [ends u (by simpa using hit)] at active
      cases active
    · have other : v.userId ≠ userId := by simpa using miss
      exact ⟨v, hu, (others v other).symm.trans active, other⟩
  · intro h
    obtain ⟨u, hu, active, other⟩ := h
    refine ⟨u, ?_, (others u other).trans active⟩
    rw [users]
    exact mem_updateWhere.mpr ⟨u, hu, .inr ⟨by simpa using other, rfl⟩⟩

/-- An update that leaves every active Superadmin one. -/
theorem hasSuperadmin_kept {db db' : Database} {p : User → Bool} {f : User → User}
    (users : db'.users = updateWhere p f db.users)
    (keeps : ∀ u, db.activeSuperadmin u = true → db'.activeSuperadmin u = true ∧
      db'.activeSuperadmin (f u) = true) (h : HasSuperadmin db) : HasSuperadmin db' := by
  obtain ⟨u, hu, active⟩ := h
  have kept := keeps u active
  rw [HasSuperadmin, users]
  by_cases hp : p u = true
  · exact ⟨f u, mem_updateWhere.mpr ⟨u, hu, .inl ⟨hp, rfl⟩⟩, kept.2⟩
  · exact ⟨u, mem_updateWhere.mpr ⟨u, hu, .inr ⟨by simpa using hp, rfl⟩⟩, kept.1⟩

theorem isSuperadmin_revoked {db db' : Database} {userId deletedBy : String} {now : Nat}
    (roles : db'.roles = db.roles)
    (assignments : db'.assignments = updateWhere
      (fun a : RoleAssignment => a.userId == userId && a.deletedAt.isNone)
      (fun a => { a with deletedAt := some now, deletedBy := some deletedBy }) db.assignments)
    (id : String) : db'.isSuperadmin id = (db.isSuperadmin id && id != userId) := by
  rw [Database.isSuperadmin, Database.isSuperadmin, roles, assignments, updateWhere, List.any_map]
  by_cases other : id = userId
  · subst other
    simp only [bne_self_eq_false, Bool.and_false, List.any_eq_false]
    intro a _
    simp only [Function.comp]
    split
    · simp
    · rename_i miss
      simp only [Bool.and_eq_true, not_and] at miss ⊢
      intro both
      exact absurd both.2 (miss both.1)
  · have distinct : (id != userId) = true := by simpa using other
    rw [distinct, Bool.and_true]
    congr 1
    funext a
    simp only [Function.comp]
    split
    · rename_i hit
      have owner : a.userId = userId := by
        simp only [Bool.and_eq_true, beq_iff_eq] at hit
        exact hit.1
      have miss : (a.userId == id) = false := by
        rw [owner]
        simpa using fun h => other h.symm
      simp [miss]
    · rfl

/-- A statement of the user routes keeps a Superadmin exactly when it takes away none but one
of several. -/
theorem hasSuperadmin_apply {s : Stmt} {db db' : Database} {n : Nat} (administers : Administers s)
    (some' : HasSuperadmin db) (h : s.apply db = .ok (db', n)) :
    HasSuperadmin db' ↔ StillAnother s db := by
  have same : ∀ {d : Database}, d.users = db.users → d.roles = db.roles →
      d.assignments = db.assignments → HasSuperadmin d := by
    intro d users roles assignments
    obtain ⟨u, hu, active⟩ := some'
    refine ⟨u, users ▸ hu, ?_⟩
    rw [activeSuperadmin_congr roles assignments rfl rfl rfl]
    exact active
  cases s with
  | insertAudit row | insertSecret row | setRotationOf secretId rotationOf =>
    obtain ⟨-, rfl, -⟩ := constrained_ok.mp h
    exact iff_of_true (same rfl rfl rfl) trivial
  | markRotated secretId now | revokeSessions userId now deletedBy changed =>
    cases h
    exact iff_of_true (same rfl rfl rfl) trivial
  | setSecret userId secretId now =>
    obtain ⟨-, rfl, -⟩ := constrained_ok.mp h
    apply iff_of_true _ trivial
    exact hasSuperadmin_kept rfl (fun u active => ⟨active, active⟩) some'
  | updateUser userId fields now =>
    obtain ⟨-, rfl, -⟩ := constrained_ok.mp h
    by_cases disabled : fields.status = some .disabled
    · have ended : HasSuperadmin { db with
          users := updateWhere (·.userId == userId)
            (fun u => { fields.set u with updatedAt := now }) db.users } ↔
          OtherSuperadmin db userId := by
        apply hasSuperadmin_ended rfl
        · intro u _
          simp [Database.activeSuperadmin, UserFields.set, disabled]
        · exact fun u _ => rfl
      refine ended.trans ?_
      exact ⟨fun other _ => other, fun checked => checked disabled⟩
    · apply iff_of_true _ fun h => absurd h disabled
      apply hasSuperadmin_kept rfl _ some'
      intro u active
      refine ⟨active, ?_⟩
      have status : fields.status.getD u.status = .active := by
        simp only [Database.activeSuperadmin, Bool.and_eq_true, beq_iff_eq] at active
        cases hs : fields.status with
        | none => exact active.1.2
        | some status =>
          cases status with
          | active => rfl
          | disabled => exact absurd hs disabled
          | locked => exact absurd hs administers
      simp only [Database.activeSuperadmin, Bool.and_eq_true, beq_iff_eq] at active ⊢
      exact ⟨⟨active.1.1, status⟩, active.2⟩
  | deleteUser userId now deletedBy =>
    cases h
    exact hasSuperadmin_ended rfl (fun u _ => rfl) fun u _ => rfl
  | revokeAssignments userId now deletedBy =>
    cases h
    have revoked : ∀ id, Database.isSuperadmin { db with
        assignments := updateWhere
          (fun a : RoleAssignment => a.userId == userId && a.deletedAt.isNone)
          (fun a => { a with deletedAt := some now, deletedBy := some deletedBy }) db.assignments }
        id = (db.isSuperadmin id && id != userId) := isSuperadmin_revoked rfl rfl
    have who : ∀ u, Database.activeSuperadmin { db with
        assignments := updateWhere
          (fun a : RoleAssignment => a.userId == userId && a.deletedAt.isNone)
          (fun a => { a with deletedAt := some now, deletedBy := some deletedBy }) db.assignments }
        u = (db.activeSuperadmin u && u.userId != userId) := by
      intro u
      rw [Database.activeSuperadmin, Database.activeSuperadmin, revoked]
      simp only [Bool.and_assoc]
    constructor
    · intro h
      obtain ⟨u, hu, active⟩ := h
      rw [who, Bool.and_eq_true] at active
      exact ⟨u, hu, active.1, by simpa using active.2⟩
    · intro h
      obtain ⟨u, hu, active, other⟩ := h
      refine ⟨u, hu, ?_⟩
      rw [who, active, Bool.true_and]
      simpa using other
  | _ => exact absurd administers id

/-- The requests that disable and delete users. -/
inductive UserCall
  | update (byUserId userId : String) (body : Option Web.Body)
  | delete (byUserId userId : String)

def UserCall.program : UserCall → Prog Unit
  | update byUserId userId body => (updateUser byUserId userId body).bind fun _ => .ret ()
  | delete byUserId userId => (deleteUser byUserId userId).bind fun _ => .ret ()

theorem UserCall.issues {I : Database → Prop} (call : UserCall) :
    Issues I Administers call.program := by
  have runs : ∀ t s, Rolling Administers (.execute t s) → Administers s :=
    fun t s h => h.resolve_left nofun
  cases call with
  | update byUserId userId body =>
    apply Issues.bind
    · exact Issues.confined (confined_updateUser byUserId userId body) runs
    · exact fun _ => trivial
  | delete byUserId userId =>
    apply Issues.bind
    · exact Issues.confined (confined_deleteUser byUserId userId) fun t s h => h
    · exact fun _ => trivial

def OnUsers (m : AccessMove) : Prop := ∀ p, m = .invoke p → ∃ call : UserCall, p = call.program

/-- Two active Superadmins. -/
def twoSuperadmins : Database where
  users := [{ userId := "a", username := "a", secretId := "s" },
    { userId := "b", username := "b", secretId := "s" }]
  roles := [{ roleId := "r", name := "Superadmin" }]
  assignments := [{ userId := "a", roleId := "r" }, { userId := "b", roleId := "r" }]

/-- The calls come in together and take these turns; no command fails. -/
def UserCall.turns (calls : List UserCall) (order : List Nat) : List AccessMove :=
  calls.map (fun call => .invoke call.program) ++ order.map fun i => .act i (smooth "1")

theorem onUsers_turns {calls : List UserCall} {order : List Nat} {m : AccessMove}
    (hm : m ∈ UserCall.turns calls order) : OnUsers m := by
  intro p hp
  obtain hm | hm := List.mem_append.mp hm
  · obtain ⟨call, -, hcall⟩ := List.mem_map.mp hm
    exact ⟨call, (Move.invoke.inj (hcall.trans hp)).symm⟩
  · obtain ⟨i, -, hi⟩ := List.mem_map.mp hm
    cases hi.trans hp

end McManager.Access
