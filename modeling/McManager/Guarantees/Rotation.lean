import McManager.Framework.NewText
import McManager.Access.Sequence
import McManager.Guarantees.OldSessions

namespace McManager.Access

open Framework

/-- The other secrets that are a rotation of this one. -/
def children (secrets : List Secret) (secretId : String) : Nat :=
  secrets.countP fun t => t.rotationOf == some secretId && t.secretId != secretId

/-- A secret has been rotated exactly if exactly one other secret is its rotation. -/
def Chained (db : Database) : Prop :=
  ∀ s ∈ db.secrets, s.rotatedAt.isSome = true ↔ children db.secrets s.secretId = 1

instance (db : Database) : Decidable (Chained db) :=
  inferInstanceAs (Decidable (∀ s ∈ db.secrets,
    s.rotatedAt.isSome = true ↔ children db.secrets s.secretId = 1))

/-- Every secret was rotated as often as it has rotations, and the users have secrets of their own
that were not. -/
structure Linked (db : Database) : Prop where
  ids : (db.secrets.map (·.secretId)).Nodup
  targets : ∀ t ∈ db.secrets, ∀ r, t.rotationOf = some r → r ∈ db.secrets.map (·.secretId)
  rotated : ∀ s ∈ db.secrets, children db.secrets s.secretId = if s.rotatedAt.isSome then 1 else 0
  userIds : (db.users.map (·.userId)).Nodup
  owners : (db.users.map (·.secretId)).Nodup
  current : ∀ u ∈ db.users, ∃ s ∈ db.secrets, s.secretId = u.secretId ∧ s.rotatedAt = none

theorem Linked.chained {db : Database} (h : Linked db) : Chained db := by
  intro s hs
  rw [h.rotated s hs]
  cases s.rotatedAt.isSome <;> simp

/-- The rows password changes are about are the same. -/
structure Same (d d' : Database) : Prop where
  users : d'.users = d.users
  secrets : d'.secrets = d.secrets
  sessions : d'.clientSessions = d.clientSessions

theorem Linked.same {d d' : Database} (h : Linked d) (same : Same d d') : Linked d' := by
  obtain ⟨ids, targets, rotated, userIds, owners, current⟩ := h
  constructor
  · rwa [same.secrets]
  · rwa [same.secrets]
  · rwa [same.secrets]
  · rwa [same.users]
  · rwa [same.users]
  · rwa [same.users, same.secrets]

/-- The user has the old secret, not marked as rotated, and the old sessions. -/
structure AsBefore (userId : String) (d d' : Database) : Prop where
  user : (d'.user? userId).map User.secretId = (d.user? userId).map User.secretId
  unmarked : ∀ u, d'.user? userId = some u → ∃ s ∈ d'.secrets, s.secretId = u.secretId ∧ s.rotatedAt = none
  sessions : d'.clientSessions = d.clientSessions

/-- The user has a new secret and no session any more. -/
structure Renewed (userId : String) (d d' : Database) : Prop where
  user : ∃ u, d'.user? userId = some u ∧ u.secretId ∉ d.secrets.map (·.secretId) ∧
    u.secretId ∈ d'.secrets.map (·.secretId)
  revoked : ∀ s ∈ d'.clientSessions, s.userId = userId → s.live = false

theorem Renewed.same {userId : String} {d d' d'' : Database} (h : Renewed userId d d')
    (same : Same d' d'') : Renewed userId d d'' := by
  obtain ⟨⟨u, hu, other, there⟩, revoked⟩ := h
  refine ⟨⟨u, ?_, other, ?_⟩, ?_⟩
  · rwa [Database.user?, same.users]
  · rwa [same.secrets]
  · rwa [same.sessions]

theorem Linked.asBefore {d d' : Database} (h : Linked d) (same : Same d d') (userId : String) :
    AsBefore userId d d' := by
  refine ⟨?_, ?_, same.sessions⟩
  · rw [Database.user?, Database.user?, same.users]
  · intro u hu
    rw [Database.user?, same.users] at hu
    rw [same.secrets]
    exact h.current u (List.mem_of_find?_eq_some hu)

/-- The secrets after `UPDATE secrets SET rotated_at`. -/
def marked (secrets : List Secret) (old : String) (at' : Nat) : List Secret :=
  updateWhere (·.secretId == old) (fun s => { s with rotatedAt := some at' }) secrets

theorem marked_ids (secrets : List Secret) (old : String) (at' : Nat) :
    (marked secrets old at').map (·.secretId) = secrets.map (·.secretId) := by
  rw [marked, updateWhere, List.map_map]
  apply List.map_congr_left
  intro s _
  rw [Function.comp_apply]
  split <;> rfl

theorem children_marked (secrets : List Secret) (old : String) (at' : Nat) (id : String) :
    children (marked secrets old at') id = children secrets id := by
  rw [children, marked, updateWhere, List.countP_map]
  apply List.countP_congr
  intro s _
  rw [Function.comp_apply]
  split <;> rfl

/-- What a password change that goes through leaves. -/
structure Replaced (userId old new : String) (d d' : Database) : Prop where
  secrets : ∃ (row : Secret) (at' : Nat), row.secretId = new ∧ row.rotationOf = some old ∧
    row.rotatedAt = none ∧ d'.secrets = marked d.secrets old at' ++ [row]
  users : ∃ at', d'.users = updateWhere (·.userId == userId)
    (fun u => { u with secretId := new, updatedAt := at' }) d.users
  revoked : ∀ s ∈ d'.clientSessions, s.userId = userId → s.live = false

section Replace

variable {userId old new : String} {d d' : Database}

theorem children_replaced (h : Replaced userId old new d d') (other : new ≠ old) (id : String) :
    children d'.secrets id = children d.secrets id + if id = old then 1 else 0 := by
  obtain ⟨row, at', rfl, link, -, rows⟩ := h.secrets
  rw [rows, children, List.countP_append, ← children, children_marked]
  congr 1
  rw [List.countP_singleton, link]
  by_cases own : id = old
  · subst own
    simp [other]
  · have apart : (some old == some id) = false := by simpa using Ne.symm own
    rw [apart, if_neg own]
    simp

theorem unpointed (h : Linked d) (fresh : new ∉ d.secrets.map (·.secretId)) :
    children d.secrets new = 0 := by
  apply List.countP_eq_zero.mpr
  intro t ht pointing
  rw [Bool.and_eq_true, beq_iff_eq] at pointing
  exact fresh (h.targets t ht new pointing.1)

theorem map_replaced (h : Replaced userId old new d d') :
    d'.secrets.map (·.secretId) = d.secrets.map (·.secretId) ++ [new] := by
  obtain ⟨row, at', rfl, -, -, rows⟩ := h.secrets
  rw [rows, List.map_append, marked_ids, List.map_singleton]

/-- A password change that goes through keeps the chain. -/
theorem Linked.replaced (h : Linked d) {u : User} (mem : u ∈ d.users) (own : u.userId = userId)
    (secret : u.secretId = old) (fresh : new ∉ d.secrets.map (·.secretId))
    (replaced : Replaced userId old new d d') : Linked d' := by
  obtain ⟨s₀, hs₀, current, unmarked⟩ := h.current u mem
  have there : old ∈ d.secrets.map (·.secretId) :=
    List.mem_map.mpr ⟨s₀, hs₀, current.trans secret⟩
  have other : new ≠ old := fun same => fresh (same ▸ there)
  have ids := map_replaced replaced
  obtain ⟨row, marking, hrow, link, untouched, rows⟩ := replaced.secrets
  obtain ⟨at', updated⟩ := replaced.users
  have userIds : d'.users.map (·.userId) = d.users.map (·.userId) := by
    rw [updated, updateWhere, List.map_map]
    apply List.map_congr_left
    intro v _
    rw [Function.comp_apply]
    split <;> rfl
  have kept : ∀ v ∈ d.users, v.userId ≠ userId → v.secretId ≠ old := by
    intro v hv apart same
    have equal := List.inj_on_of_nodup_map h.owners hv mem (same.trans secret.symm)
    exact apart (equal ▸ own)
  have cases_mem : ∀ s ∈ d'.secrets, (∃ t ∈ d.secrets, s = if t.secretId == old then
      { t with rotatedAt := some marking } else t) ∨ s = row := by
    intro s hs
    rw [rows, List.mem_append, List.mem_singleton, marked, updateWhere, List.mem_map] at hs
    rcases hs with ⟨t, ht, rfl⟩ | rfl
    · exact .inl ⟨t, ht, rfl⟩
    · exact .inr rfl
  constructor
  · rw [ids]
    exact List.nodup_append.mpr ⟨h.ids, List.nodup_singleton _, by
      rintro a ha _ hb rfl
      exact fresh (List.mem_singleton.mp hb ▸ ha)⟩
  · intro s hs r hr
    rw [ids]
    apply List.mem_append_left
    rcases cases_mem s hs with ⟨t, ht, rfl⟩ | rfl
    · apply h.targets t ht r
      split at hr <;> exact hr
    · rw [link] at hr
      cases hr
      exact there
  · intro s hs
    rw [children_replaced replaced other]
    rcases cases_mem s hs with ⟨t, ht, rfl⟩ | rfl
    · have before := h.rotated t ht
      by_cases was : t.secretId = old
      · have same : t = s₀ :=
          List.inj_on_of_nodup_map h.ids ht hs₀ (was.trans (current.trans secret).symm)
        rw [same, unmarked] at before
        simp only [was, beq_self_eq_true, if_true, Option.isSome_some]
        rw [← was, same, before]
        rfl
      · have apart : (t.secretId == old) = false := by simpa using was
        simp only [apart, Bool.false_eq_true, if_false, if_neg was, Nat.add_zero]
        exact before
    · rw [hrow, unpointed h fresh, untouched, if_neg other]
      rfl
  · rw [userIds]
    exact h.userIds
  · have owners : d'.users.map (·.secretId) =
        (d.users.map fun v => if v.userId == userId then new else v.secretId) := by
      rw [updated, updateWhere, List.map_map]
      apply List.map_congr_left
      intro v _
      rw [Function.comp_apply]
      split <;> rfl
    rw [owners]
    apply List.Nodup.map_on
    · intro v hv w hw same
      by_cases hv' : v.userId = userId
      · by_cases hw' : w.userId = userId
        · exact List.inj_on_of_nodup_map h.userIds hv hw (hv'.trans hw'.symm)
        · obtain ⟨s, hs, hid, -⟩ := h.current w hw
          simp only [hv', beq_self_eq_true, if_true, beq_iff_eq, if_neg hw'] at same
          exact absurd (List.mem_map.mpr ⟨s, hs, hid.trans same.symm⟩) fresh
      · by_cases hw' : w.userId = userId
        · obtain ⟨s, hs, hid, -⟩ := h.current v hv
          simp only [hw', beq_self_eq_true, if_true, beq_iff_eq, if_neg hv'] at same
          exact absurd (List.mem_map.mpr ⟨s, hs, hid.trans same⟩) fresh
        · simp only [beq_iff_eq, if_neg hv', if_neg hw'] at same
          exact List.inj_on_of_nodup_map h.owners hv hw same
    · exact List.Nodup.of_map _ h.userIds
  · intro v hv
    rw [updated] at hv
    obtain ⟨w, hw, ⟨hit, rfl⟩ | ⟨miss, rfl⟩⟩ := mem_updateWhere.mp hv
    · exact ⟨row, by rw [rows]; exact List.mem_append_right _ (List.mem_singleton_self _), hrow,
        untouched⟩
    · obtain ⟨s, hs, hid, none⟩ := h.current v hw
      have apart : (s.secretId == old) = false := by
        have away := kept v hw (by simpa using miss)
        simpa [hid] using away
      refine ⟨s, ?_, hid, none⟩
      rw [rows]
      exact List.mem_append_left _ (mem_updateWhere.mpr ⟨s, hs, .inr ⟨apart, rfl⟩⟩)

theorem Replaced.renewed {u : User} (found : d.user? userId = some u)
    (fresh : new ∉ d.secrets.map (·.secretId)) (replaced : Replaced userId old new d d') :
    Renewed userId d d' := by
  refine ⟨?_, replaced.revoked⟩
  obtain ⟨at', updated⟩ := replaced.users
  have same : u.userId = userId := by simpa using List.find?_some found
  refine ⟨{ u with secretId := new, updatedAt := at' }, ?_, fresh, ?_⟩
  · rw [user?_update updated (fun _ => rfl), found]
    simp [same]
  · rw [map_replaced replaced]
    exact List.mem_append_right _ (List.mem_singleton_self new)

end Replace

/-- The outside world of password changes: any command may fail, and ids are new. -/
def newIds : Framework.Scope Site Query Fault Answer Database where
  fails := fun _ _ => True
  answers := fun _ _ _ => True
  draws := fun x q a =>
    match q, a with
    | .uuid _, (id : String) => x.conn.view.hasSecret id = false
    | _, _ => True

/-- A command failed. -/
def Failure : Note Site Query Fault Answer → Prop
  | .failed _ => True
  | .answered _ (.error _) => True
  | _ => False

instance : DecidablePred Failure
  | .failed _ => isTrue trivial
  | .committed _ => isFalse id
  | .answered _ (.error _) => isTrue trivial
  | .answered _ (.ok _) => isFalse id

/-- A command failed after the commit of the mark and before that of the new secret. -/
def Breaks (l : List (Note Site Query Fault Answer)) : Prop :=
  ∃ before n after, l = before ++ n :: after ∧ Failure n ∧ .committed .rotate ∈ before ∧
    .committed .changePassword ∉ before

/-- What a password change leaves of these committed rows. -/
inductive Changed (userId : String) (x y : Alone) : Prop
  | broken (l : List (Note Site Query Fault Answer)) (log : y.log = x.log ++ l) (breaks : Breaks l)
  | same (rows : Same x.conn.committed y.conn.committed)
  | replaced (u : User) (new : String) (d : Database)
      (found : x.conn.committed.user? userId = some u)
      (fresh : new ∉ x.conn.committed.secrets.map (·.secretId))
      (rows : Replaced userId u.secretId new x.conn.committed d)
      (kept : Same d y.conn.committed)

theorem not_breaks {l : List (Note Site Query Fault Answer)} (quiet : ∀ n ∈ l, ¬Failure n) :
    ¬Breaks l := by
  rintro ⟨before, n, after, rfl, failure, -⟩
  exact quiet n (List.mem_append_right _ List.mem_cons_self) failure

theorem Breaks.prepend {l l' : List (Note Site Query Fault Answer)} (h : Breaks l)
    (quiet : .committed .changePassword ∉ l') : Breaks (l' ++ l) := by
  obtain ⟨before, n, after, rfl, failure, mark, pending⟩ := h
  refine ⟨l' ++ before, n, after, (List.append_assoc _ _ _).symm, failure, ?_, ?_⟩
  · exact List.mem_append_right _ mark
  · rw [List.mem_append]
    rintro (h | h)
    · exact quiet h
    · exact pending h

/-- A failure that comes after the mark. -/
theorem Breaks.after {l l' : List (Note Site Query Fault Answer)} {n : Note Site Query Fault Answer}
    (mark : .committed .rotate ∈ l) (pending : .committed .changePassword ∉ l) (failure : Failure n)
    (quiet : .committed .changePassword ∉ l') : Breaks (l ++ (l' ++ [n])) := by
  refine ⟨l ++ l', n, [], by rw [List.append_assoc], failure, List.mem_append_left _ mark, ?_⟩
  rw [List.mem_append]
  rintro (h | h)
  · exact pending h
  · exact quiet h

/-- The rows with other secrets. -/
def secured (d : Database) (secrets : List Secret) : Database := { d with secrets }

@[simp] theorem secured_secrets (d : Database) (secrets : List Secret) :
    (secured d secrets).secrets = secrets := rfl

@[simp] theorem secured_secured (d : Database) (secrets secrets' : List Secret) :
    secured (secured d secrets) secrets' = secured d secrets' := rfl

theorem apply_insertSecret {d : Database} {row : Secret}
    (fresh : row.secretId ∉ d.secrets.map (·.secretId)) :
    Stmt.apply d (.insertSecret row) = .ok (secured d (d.secrets ++ [row]), 1) := by
  apply constrained_ok.mpr
  refine ⟨?_, rfl, rfl⟩
  intro c hc
  rw [List.mem_singleton] at hc
  rw [hc, Bool.not_eq_true', Database.hasSecret, List.any_eq_false]
  intro s hs same
  exact fresh (List.mem_map.mpr ⟨s, hs, eq_of_beq same⟩)

theorem hasSecret_of_mem {d : Database} {id : String} (mem : id ∈ d.secrets.map (·.secretId)) :
    d.hasSecret id = true := by
  obtain ⟨s, hs, same⟩ := List.mem_map.mp mem
  exact List.any_eq_true.mpr ⟨s, hs, beq_iff_eq.mpr same⟩

theorem apply_setRotationOf {d : Database} (id : String) {old : String}
    (mem : old ∈ d.secrets.map (·.secretId)) :
    ∃ n, Stmt.apply d (.setRotationOf id old) = .ok (secured d
      (updateWhere (·.secretId == id) (fun s => { s with rotationOf := some old }) d.secrets), n) := by
  refine ⟨_, constrained_ok.mpr ⟨?_, rfl, rfl⟩⟩
  intro c hc
  rw [List.mem_singleton] at hc
  rw [hc, hasSecret_of_mem mem, Bool.or_true]

theorem apply_setSecret {d : Database} (userId : String) {id : String} (now : Nat)
    (mem : id ∈ d.secrets.map (·.secretId)) :
    ∃ n, Stmt.apply d (.setSecret userId id now) = .ok ({ d with
      users := updateWhere (·.userId == userId)
        (fun u => { u with secretId := id, updatedAt := now }) d.users
      history := d.history ++ [id] }, n) := by
  refine ⟨_, constrained_ok.mpr ⟨?_, rfl, rfl⟩⟩
  intro c hc
  rw [List.mem_singleton] at hc
  rw [hc, hasSecret_of_mem mem, Bool.or_true]

theorem updateWhere_append {α : Type} (p : α → Bool) (f : α → α) (l l' : List α) :
    updateWhere p f (l ++ l') = updateWhere p f l ++ updateWhere p f l' := List.map_append

theorem updateWhere_none {α : Type} {p : α → Bool} {f : α → α} {l : List α}
    (none : ∀ a ∈ l, p a = false) : updateWhere p f l = l := by
  rw [updateWhere]
  conv => rhs; rw [← List.map_id l]
  apply List.map_congr_left
  intro a ha
  rw [none a ha]
  rfl

/-- The link of the new secret, which no other row has the id of. -/
theorem link_marked {secrets : List Secret} {row : Secret} {old : String} {at' : Nat}
    (fresh : row.secretId ∉ secrets.map (·.secretId)) :
    updateWhere (·.secretId == row.secretId) (fun s => { s with rotationOf := some old })
        (marked secrets old at' ++ [row]) =
      marked secrets old at' ++ [{ row with rotationOf := some old }] := by
  rw [updateWhere_append, updateWhere_none]
  · simp [updateWhere]
  · intro t ht
    rw [beq_eq_false_iff_ne]
    intro same
    rw [← marked_ids _ old at', ← same] at fresh
    exact fresh (List.mem_map_of_mem ht)

/-- The last block of a password change. -/
theorem eval_renewal {userId new byUserId : String} {d d' : Database} {now : Nat} {a : Unit}
    (h : (do
      Body.write (.setSecret userId new now)
      Body.write (.revokeSessions userId now byUserId (some new)) : Block Unit).eval d =
        .ok (a, d')) :
    d'.users = updateWhere (·.userId == userId)
        (fun u => { u with secretId := new, updatedAt := now }) d.users ∧
      d'.secrets = d.secrets ∧ ∀ s ∈ d'.clientSessions, s.userId = userId → s.live = false := by
  obtain ⟨_, d₁, h₁, h₂⟩ := Body.eval_bind_ok h
  obtain ⟨_, h₁⟩ := Body.eval_write_ok h₁
  obtain ⟨-, rfl, -⟩ := constrained_ok.mp h₁
  obtain ⟨_, h₂⟩ := Body.eval_write_ok h₂
  cases h₂
  refine ⟨rfl, rfl, ?_⟩
  intro s hs own
  obtain ⟨t, -, ⟨hit, rfl⟩ | ⟨miss, rfl⟩⟩ := mem_updateWhere.mp hs
  · rfl
  · rw [beq_iff_eq.mpr own, Bool.true_and] at miss
    exact miss

/-- It goes through on the rows `rotate` leaves. -/
theorem replaced_block {userId old byUserId : String} {d v d' : Database} {row : Secret}
    {at' now : Nat} {a : Unit} (clean : Same d v) (link : row.rotationOf = some old)
    (unmarked : row.rotatedAt = none)
    (h : (do
      Body.write (.setSecret userId row.secretId now)
      Body.write (.revokeSessions userId now byUserId (some row.secretId)) : Block Unit).eval
        (secured v (marked v.secrets old at' ++ [row])) = .ok (a, d')) :
    Replaced userId old row.secretId d d' := by
  obtain ⟨users, secrets, revoked⟩ := eval_renewal h
  refine ⟨⟨row, at', rfl, link, unmarked, ?_⟩, ⟨now, ?_⟩, revoked⟩
  · rw [secrets, ← clean.secrets]
    rfl
  · rw [users, ← clean.users]
    rfl

section Run

variable {x : Alone} {userId secretId plaintext entityType entityId byUserId : String}

/-- What `store` leaves: the row, or a failure. -/
theorem wp_store {Q' : Except Exn String → Alone → Prop} {secretType : SecretType} {d : Database}
    {log : List (Note Site Query Fault Answer)}
    (done : ∀ row l, row.secretId ∉ d.secrets.map (·.secretId) → row.rotatedAt = none →
      .committed .changePassword ∉ l →
      Q' (.ok row.secretId) ⟨.closed (secured d (d.secrets ++ [row])), log ++ l⟩)
    (fault : ∀ e c l n, Failure n → .committed .changePassword ∉ l →
      Q' (.error e) ⟨c, log ++ (l ++ [n])⟩) :
    wp newIds Q' (Secrets.store secretType entityType entityId plaintext) ⟨.closed d, log⟩ := by
  unfold Secrets.store
  simp only [Program.bind_eq]
  refine wp_draw_bind fun id new => ?_
  have fresh : id ∉ d.secrets.map (·.secretId) := by
    have none : d.hasSecret id = false := new
    intro mem
    rw [hasSecret_of_mem mem] at none
    cases none
  rw [wp_bind]
  apply wp_ask
  · intro token _
    refine wp_draw_bind fun at' _ => ?_
    rw [wp_bind]
    apply wp_write_known (apply_insertSecret fresh)
    · have stored := done ⟨id, secretType, token, entityType, entityId, none, at'.seconds, none⟩
        [.answered (.encrypt plaintext) (.ok token), .committed .storeSecret] fresh rfl (by simp)
      rwa [List.append_cons log _ [.committed .storeSecret]] at stored
    · intro φ c _ _
      have failed := fault (.external φ) c [.answered (.encrypt plaintext) (.ok token)]
        (.failed .storeSecret) trivial (by simp)
      rwa [← List.append_assoc] at failed
  · intro φ _
    exact fault _ _ [] _ trivial (by simp)

/-- What `rotate` leaves: the mark, the new secret and the link, a failure after the mark, or the
committed rows as they were. -/
inductive Rotated (secretId : String) (x : Alone) : Except Exn String → Alone → Prop
  | linked (row : Secret) (at' : Nat) (l : List (Note Site Query Fault Answer))
      (there : secretId ∈ x.conn.view.secrets.map (·.secretId))
      (fresh : row.secretId ∉ x.conn.view.secrets.map (·.secretId))
      (link : row.rotationOf = some secretId) (unmarked : row.rotatedAt = none)
      (pending : .committed .changePassword ∉ l) (mark : .committed .rotate ∈ l) :
      Rotated secretId x (.ok row.secretId) ⟨.closed (secured x.conn.view
        (marked x.conn.view.secrets secretId at' ++ [row])), x.log ++ l⟩
  | broken {e : Exn} {y : Alone} (l : List (Note Site Query Fault Answer))
      (log : y.log = x.log ++ l) (breaks : Breaks l) : Rotated secretId x (.error e) y
  | same {e : Exn} {y : Alone} (rows : y.conn.committed = x.conn.committed) :
      Rotated secretId x (.error e) y

theorem wp_rotate : wp newIds (Rotated secretId x)
    (Secrets.rotate secretId plaintext entityType entityId) x := by
  unfold Secrets.rotate
  simp only [Program.bind_eq]
  rw [wp_bind]
  apply wp_select
  · cases found : x.conn.view.secrets.find? (·.secretId == secretId) with
    | none => exact .same rfl
    | some s =>
      have there : secretId ∈ x.conn.view.secrets.map (·.secretId) :=
        List.mem_map.mpr ⟨s, List.mem_of_find?_eq_some found, eq_of_beq (List.find?_some found :)⟩
      refine wp_draw_bind fun at' _ => ?_
      rw [wp_bind]
      apply wp_write_known (d := secured x.conn.view
        (marked x.conn.view.secrets secretId at'.seconds)) rfl
      · rw [wp_bind]
        apply wp_store
        · intro row l fresh unmarked pending
          rw [secured_secrets, marked_ids] at fresh
          rw [secured_secured, secured_secrets]
          have stored : secretId ∈ (secured x.conn.view
              (marked x.conn.view.secrets secretId at'.seconds ++ [row])).secrets.map
              (·.secretId) := by
            rw [secured_secrets, List.map_append, marked_ids]
            exact List.mem_append_left _ there
          obtain ⟨n, linking⟩ := apply_setRotationOf row.secretId stored
          rw [secured_secured, secured_secrets, link_marked fresh] at linking
          dsimp only
          rw [wp_bind]
          apply wp_write_known linking
          · have done := Rotated.linked (x := x) { row with rotationOf := some secretId } at'.seconds
              ([.committed .rotate] ++ l ++ [.committed .rotate]) there fresh rfl unmarked
              (by simpa using pending) (by simp)
            rw [Program.pure_eq, wp_ret]
            simpa only [List.append_assoc] using done
          · intro φ c _ _
            apply Rotated.broken ([.committed .rotate] ++ (l ++ [.failed .rotate]))
            · simp only [List.append_assoc]
            · exact Breaks.after (List.mem_singleton_self _) (by simp) trivial pending
        · intro e c l n failure pending
          exact .broken _ (List.append_assoc _ _ _)
            (Breaks.after (List.mem_singleton_self _) (by simp) failure pending)
      · intro φ c _ same
        exact .same same
  · exact fun φ _ => .same rfl

theorem wp_audit_same {eventType : String} {actor : Actor} {d : Database}
    (view : Same d x.conn.view) (rows : Same d x.conn.committed) :
    wp newIds (fun _ y => Same d y.conn.committed) (audit eventType actor) x := by
  unfold audit
  simp only [Program.bind_eq]
  refine wp_draw_bind fun _ _ => wp_draw_bind fun _ _ => ?_
  apply wp_autocommit_left
  · intro _ d' h
    obtain ⟨n, h⟩ := Body.eval_write_ok h
    obtain ⟨-, rfl, -⟩ := constrained_ok.mp h
    exact ⟨view.users, view.secrets, view.sessions⟩
  · intro _ c _ same _
    rw [same]
    exact rows

/-- What a password change leaves. -/
theorem wp_changePassword (clean : Same x.conn.committed x.conn.view) (newPassword : String) :
    wp newIds (fun _ y => Changed userId x y)
      (Authentication.changePassword userId newPassword byUserId) x := by
  have still : ∀ {y : Alone}, y.conn.committed = x.conn.committed → Changed userId x y := by
    intro y same
    exact .same (by rw [same]; exact ⟨rfl, rfl, rfl⟩)
  unfold Authentication.changePassword
  simp only [Program.bind_eq]
  refine wp_draw_bind fun at' _ => ?_
  unfold Authentication.passwordSecret
  rw [wp_bind, Program.bind_eq, wp_bind]
  apply wp_read
  · cases found : x.conn.committed.user? userId with
    | none => exact still rfl
    | some u =>
      dsimp only
      rw [Program.pure_eq, wp_ret]
      dsimp only
      rw [wp_bind]
      apply wp_ask
      · intro hashed _
        apply wp_seq wp_rotate
        · intro newSecret y rotated
          cases rotated with
          | linked row marking l there fresh link unmarked pending mark =>
            rw [clean.secrets] at there fresh
            have stored : row.secretId ∈ (secured x.conn.view
                (marked x.conn.view.secrets u.secretId marking ++ [row])).secrets.map
                (·.secretId) := by
              rw [secured_secrets, List.map_append]
              exact List.mem_append_right _ (List.mem_singleton_self _)
            obtain ⟨n, setting⟩ := apply_setSecret userId at'.seconds stored
            rw [wp_bind]
            apply wp_autocommit_total
            · apply Body.eval_bind_total (Body.eval_write_total ⟨_, setting⟩)
              exact fun _ d' _ => Body.eval_write_total ⟨_, rfl⟩
            · intro _ d' h
              have replaced := replaced_block clean link unmarked h
              have kept : ∀ {y : Alone}, Same d' y.conn.committed → Changed userId x y :=
                .replaced u row.secretId d' found fresh replaced
              have here : Same d' d' := ⟨rfl, rfl, rfl⟩
              dsimp only
              rw [wp_bind]
              apply wp_read
              · refine wp_mono (wp_audit_same (d := d') ?_ ?_) fun _ _ same => kept same
                · exact here
                · exact here
              · exact fun φ _ => kept here
            · intro φ c _ _
              apply Changed.broken ([.answered (.hash newPassword) (.ok hashed)] ++
                (l ++ ([] ++ [.failed .changePassword])))
              · simp only [List.append_assoc, List.nil_append]
              · exact (Breaks.after mark pending (n := .failed .changePassword) trivial
                  List.not_mem_nil).prepend (by simp)
        · intro e y rotated
          cases rotated with
          | broken l log breaks =>
            apply Changed.broken ([.answered (.hash newPassword) (.ok hashed)] ++ l)
            · rw [log, List.append_assoc]
            · exact breaks.prepend (by simp)
          | same rows => exact still rows
      · exact fun φ _ => still rfl
  · exact fun φ _ => still rfl

end Run

/-- A step of the system: a password change in these surroundings, or a new start of the process,
which loses what is not committed. A process that dies inside a call is a command that fails and a
new start. -/
inductive RotationStep
  | change (userId newPassword byUserId : String)
      (env : Nat → Alone → (m : Command) → m.Outcome Fault Answer)
  | restart

namespace RotationStep

/-- The session a step ends with; its record is the one of the step. -/
def ran (c : Connection Database) : RotationStep → Alone
  | .change userId newPassword byUserId env =>
    (Framework.run env (Authentication.changePassword userId newPassword byUserId) ⟨c, []⟩).2
  | .restart => ⟨.closed c.committed, []⟩

/-- The ids the step draws are new. -/
def Draws : RotationStep → Prop
  | .change _ _ _ env => ∀ n x m, newIds.allowed x m (env n x m)
  | .restart => True

/-- Nothing of these rows is waiting for a commit, and no command fails after the commit of the
mark and before that of the new secret. -/
def Whole (c : Connection Database) (step : RotationStep) : Prop :=
  match step with
  | .change _ _ _ _ => Same c.committed c.view ∧ ¬Breaks (step.ran c).log
  | .restart => True

/-- The user of a password change keeps the old secret or gets a new one. -/
def Atomic (c : Connection Database) (step : RotationStep) : Prop :=
  match step with
  | .change userId _ _ _ => AsBefore userId c.committed (step.ran c).conn.committed ∨
      Renewed userId c.committed (step.ran c).conn.committed
  | .restart => True

/-- What holds of every step of a run, in the state it starts in. -/
def Along (P : Connection Database → RotationStep → Prop) :
    List RotationStep → Connection Database → Prop
  | [], _ => True
  | step :: steps, c => P c step ∧ Along P steps (step.ran c).conn

/-- One step keeps the chain. -/
theorem linked_ran {c : Connection Database} {step : RotationStep} (h : Linked c.committed)
    (draws : step.Draws) (whole : step.Whole c) :
    Linked (step.ran c).conn.committed ∧ step.Atomic c := by
  cases step with
  | restart => exact ⟨h, trivial⟩
  | change userId newPassword byUserId env =>
    obtain ⟨clean, unbroken⟩ := whole
    have wp : wp newIds (fun _ y => Changed userId ⟨c, []⟩ y)
        (Authentication.changePassword userId newPassword byUserId) ⟨c, []⟩ :=
      wp_changePassword clean newPassword
    have changed := run_of_wp draws wp
    cases changed with
    | broken l log breaks => exact absurd (log ▸ breaks) unbroken
    | same rows => exact ⟨h.same rows, .inl (h.asBefore rows userId)⟩
    | replaced u new d found fresh rows kept =>
      have own : u.userId = userId := by simpa using List.find?_some found
      refine ⟨?_, .inr ((rows.renewed found fresh).same kept)⟩
      exact (h.replaced (List.mem_of_find?_eq_some found) own rfl fresh rows).same kept

/-- In a run whose calls all start clean and are not broken off between the two commits, every
call changes the password or leaves it, and the chain is linked all along. -/
theorem rotations_atomic (steps : List RotationStep) {c : Connection Database}
    (start : Linked c.committed) (draws : ∀ step ∈ steps, step.Draws)
    (whole : Along Whole steps c) :
    Chained c.committed ∧
      Along (fun c step => step.Atomic c ∧ Chained (step.ran c).conn.committed) steps c := by
  refine ⟨start.chained, ?_⟩
  induction steps generalizing c with
  | nil => exact trivial
  | cons step steps ih =>
    obtain ⟨first, rest⟩ := whole
    have kept := linked_ran start (draws step List.mem_cons_self) first
    refine ⟨⟨kept.2, kept.1.chained⟩, ?_⟩
    exact ih kept.1 (fun s hs => draws s (List.mem_cons_of_mem _ hs)) rest

/-- No command fails but those at this place, and ids are new. -/
def outside (failing : Option Site) (_ : Nat) (x : Alone) : (m : Command) → m.Outcome Fault Answer
  | .draw (.uuid _) => newText (x.conn.view.secrets.map (·.secretId))
  | .execute t _ => if failing = some t then some (.operational "database or disk is full") else none
  | m => smooth "" m

theorem outside_allowed (failing : Option Site) (n : Nat) (x : Alone) (m : Command) :
    newIds.allowed x m (outside failing n x m) := by
  cases m with
  | draw q =>
    cases q with
    | uuid kind =>
      apply Bool.eq_false_iff.mpr
      intro used
      obtain ⟨s, hs, same⟩ := List.any_eq_true.mp used
      exact newText_notMem _ (List.mem_map.mpr ⟨s, hs, eq_of_beq same⟩)
    | _ => exact trivial
  | ask q => exact trivial
  | execute t s =>
    rw [outside]
    split
    · exact trivial
    · exact trivial
  | _ => exact trivial

theorem linked_oneUser : Linked oneUser where
  ids := by decide
  targets := by
    intro t ht r hr
    rw [List.mem_singleton.mp ht] at hr
    cases hr
  rotated := by decide
  userIds := by decide
  owners := by decide
  current := by decide

/-- The store fails in one call, after it the process starts again, and the next call goes
through. -/
def changes (failing : Option Site) : List RotationStep :=
  [.change "u" "new password" "a" (outside failing), .restart,
    .change "u" "newer password" "a" (outside none)]

theorem changes_draws (failing : Option Site) : ∀ step ∈ changes failing, step.Draws := by
  intro step hstep
  simp only [changes, List.mem_cons, List.not_mem_nil, or_false] at hstep
  rcases hstep with rfl | rfl | rfl
  · exact outside_allowed failing
  · exact trivial
  · exact outside_allowed none

theorem rotations_atomic_twice : Chained oneUser ∧
    Along (fun c step => step.Atomic c ∧ Chained (step.ran c).conn.committed) (changes none)
      (.closed oneUser) := by
  apply rotations_atomic (changes none) (c := .closed oneUser) linked_oneUser (changes_draws none)
  refine ⟨⟨⟨rfl, rfl, rfl⟩, not_breaks ?_⟩, trivial, ⟨?_, not_breaks ?_⟩, trivial⟩
  · decide +kernel
  · exact ⟨rfl, rfl, rfl⟩
  · decide +kernel

/-- The call ends between the link and the new secret: the user keeps a secret that was rotated,
and the next call rotates it again. -/
theorem rotations_split : ¬∀ (steps : List RotationStep) (d : Database), Linked d →
    (∀ step ∈ steps, step.Draws) → Chained d ∧
      Along (fun c step => step.Atomic c ∧ Chained (step.ran c).conn.committed) steps
        (.closed d) := by
  intro h
  have all := h (changes (some .changePassword)) oneUser linked_oneUser (changes_draws _)
  obtain ⟨-, -, -, ⟨-, chained⟩, -⟩ := all
  revert chained
  decide +kernel

end RotationStep

end McManager.Access
