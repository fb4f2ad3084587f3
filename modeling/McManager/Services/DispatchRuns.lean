import McManager.Services.LifecycleFrames
import McManager.Services.WorldMutations

namespace McManager

open Framework

/-- A change that leaves the operations alone and loses no world. -/
theorem Database.Keyed.congr {db db' : Database} (h : db.Keyed)
    (ops : db'.operations = db.operations)
    (worlds : ∀ id, db.hasWorld id = true → db'.hasWorld id = true) : db'.Keyed where
  unique := by
    have unique := h.unique
    rwa [Database.UniqueOperations, ops]
  named := by
    rw [ops]
    exact h.named
  placed := by
    intro op hop
    rw [ops] at hop
    have placed := h.placed op hop
    cases hw : op.worldId with
    | none => rfl
    | some id =>
      rw [hw] at placed
      exact worlds id placed

namespace Operations

/-- Only the row of operation `own` has changed since `before`, and it meets `R`. -/
structure Aside (own : String) (R : Operation → Prop) (before db : Database) : Prop where
  keyed : db.Keyed
  ids_eq : db.operations.map (·.opId) = before.operations.map (·.opId)
  others : ∀ op, op.opId ≠ own → (op ∈ db.operations ↔ op ∈ before.operations)
  row : ∀ op ∈ db.operations, op.opId = own → R op

variable {own : String} {R R' : Operation → Prop} {before db db' : Database}

theorem Aside.mono (h : Aside own R before db) (weaken : ∀ op, R op → R' op) :
    Aside own R' before db :=
  ⟨h.keyed, h.ids_eq, h.others, fun op hop hid => weaken op (h.row op hop hid)⟩

theorem Aside.congr (h : Aside own R before db) (ops : db'.operations = db.operations)
    (worlds : ∀ id, db.hasWorld id = true → db'.hasWorld id = true) :
    Aside own R before db' where
  keyed := h.keyed.congr ops worlds
  ids_eq := by rw [ops, h.ids_eq]
  others := fun op hne => by rw [ops, h.others op hne]
  row := by
    rw [ops]
    exact h.row

/-- The row itself may be replaced by one of its id. -/
theorem Aside.replace (h : Aside own R before db) {old : Operation} (hold : old ∈ db.operations)
    (hid : old.opId = own) (op : Operation) (hop : op.opId = old.opId)
    (hworld : references op.worldId db.hasWorld = true) (hR : R' op)
    (ops : db'.operations = (replaceOperation db own op).operations)
    (worlds : ∀ id, db.hasWorld id = true → db'.hasWorld id = true) :
    Aside own R' before db' := by
  have present : ∃ y ∈ db.operations, y.opId = own := ⟨old, hold, hid⟩
  have ids : db'.operations.map (·.opId) = db.operations.map (·.opId) := by
    rw [ops]
    exact replaceOperation_ids (hop.trans hid)
  have members : ∀ x, x ∈ db'.operations ↔ x = op ∨ x ∈ db.operations ∧ x.opId ≠ own := by
    intro x
    rw [ops]
    exact mem_replaceOperation present
  refine ⟨⟨?_, ?_, ?_⟩, ids.trans h.ids_eq, ?_, ?_⟩
  · have unique := h.keyed.unique
    rwa [Database.UniqueOperations, ids]
  · intro x hx
    rcases (members x).mp hx with rfl | ⟨hx, -⟩
    · rw [hop]
      exact h.keyed.named old hold
    · exact h.keyed.named x hx
  · intro x hx
    have placed : references x.worldId db.hasWorld = true := by
      rcases (members x).mp hx with rfl | ⟨hx, -⟩
      · exact hworld
      · exact h.keyed.placed x hx
    cases hw : x.worldId with
    | none => rfl
    | some id =>
      rw [hw] at placed
      exact worlds id placed
  · intro x hne
    rw [members, h.others x hne]
    constructor
    · rintro (rfl | ⟨hx, -⟩)
      · exact absurd (hop.trans hid) hne
      · exact hx
    · exact fun hx => .inr ⟨hx, hne⟩
  · intro x hx hxid
    rcases (members x).mp hx with rfl | ⟨-, hne⟩
    · exact hR
    · exact absurd hxid hne

theorem aside_refl (keyed : db.Keyed) {op : Operation} (hop : op ∈ db.operations) (hR : R op) :
    Aside op.opId R db db where
  keyed := keyed
  ids_eq := rfl
  others := fun _ _ => Iff.rfl
  row := fun x hx hid => by
    obtain rfl := nodup_key_inj keyed.unique hx hop hid
    exact hR

/-- Claiming an operation changes its row alone. -/
theorem aside_claim (keyed : db.Keyed) {op : Operation} (hop : op ∈ db.operations) (now : Int)
    (hR : R (op.claim now)) :
    Aside op.opId R db (replaceOperation db op.opId (op.claim now)) :=
  (aside_refl (R := fun _ => True) keyed hop trivial).replace hop rfl (op.claim now) rfl
    (keyed.placed op hop) hR rfl fun _ hid => hid

theorem Aside.milestone (h : Aside own R before db)
    (advances : ∀ op status m cached now, status = .running ∨ status.terminal = true → R op →
      R (op.advance status m cached now))
    {svc : OperationService} {status : OperationStatus} {m : Milestone}
    {cached : Option Checkpoint} {now : Int} {auditId notificationId : String} {notifiedAt : Int}
    {op : Operation}
    (hblock : (transitionBlock svc own status m cached now auditId notificationId notifiedAt).eval
      db = .ok (op, db')) : Aside own R before db' := by
  obtain ⟨old, hold, hid, -, h'⟩ := transitionBlock_ok h.keyed.unique hblock
  split at h'
  · rename_i stored
    obtain ⟨rfl, audits, notifications, -, rfl⟩ := h'
    have hrow := advances old status m cached now stored (h.row old hold hid)
    refine h.replace hold hid (old.advance status m cached now) rfl (h.keyed.placed old hold) hrow
      ?_ fun _ hw => hw
    rw [← hid]
    rfl
  · rw [h'.2]
    exact h

/-- The operation is still there. -/
theorem Aside.present (h : Aside own R before db) (hown : own ∈ before.operations.map (·.opId)) :
    ∃ op ∈ db.operations, op.opId = own ∧ R op := by
  rw [← h.ids_eq] at hown
  obtain ⟨op, hop, hid⟩ := List.mem_map.mp hown
  exact ⟨op, hop, hid, h.row op hop hid⟩

end Operations

namespace Worlds

open Operations

/-- Ids are fresh, a pass gets the lock of its queue, and storage is up. Everything else may fail
and answer as it likes. -/
def Scope.dispatching : Scope where
  fails _ _ := False
  answers _ _ _ := True
  draws x q a := FreshDraw x q a ∧ match q, a with
    | .mutationLock, a => a = true
    | _, _ => True

/-- Where an exception of a launch may leave the connection: in a transaction only if what failed
was storing the session. -/
def Unstored (J : Database → Prop) (e : Exn) (x : Session) : Prop :=
  J x.conn.committed ∧ (x.conn.working = none ∨ e.isWorldLifecycle = false)

section Frame

variable {svc : WorldsService} {worldId own : String} {R : Operation → Prop}
  {before : Database}

theorem closed_of_session {J : Database → Prop} {x : Session} (h : J x.conn.committed)
    (hx : x.conn.working = none) : Closed J x := by
  obtain ⟨⟨d, w⟩, log⟩ := x
  cases hx
  exact ⟨d, rfl, h⟩

theorem triple_transition
    (advances : ∀ op status m cached now, status = .running ∨ status.terminal = true → R op →
      R (op.advance status m cached now)) (status : OperationStatus) (m : Milestone) :
    Triple Scope.dispatching (Closed (Aside own R before)) (fun _ => Closed (Aside own R before))
      (fun _ => Closed (Aside own R before)) (transition svc.operations own status m) := by
  rintro ⟨c, log⟩ ⟨d, hc, hd⟩
  obtain rfl : c = .closed d := hc
  refine wp_transition ?_ ?_ (fun φ hφ => hφ.elim)
  · intro cached now auditId notificationId notifiedAt op db' h
    exact ⟨⟨db', rfl, hd.milestone advances h⟩, fun φ hφ => hφ.elim⟩
  · intro _ _ _ _ _ _ _
    exact ⟨d, rfl, hd⟩

theorem triple_setWorldState (state : WorldState) (intent : WorldTransitionIntent) :
    Triple Scope.dispatching (Closed (Aside own R before)) (fun _ => Closed (Aside own R before))
      (fun _ => Closed (Aside own R before)) (setWorldState worldId state intent) := by
  rintro ⟨c, log⟩ ⟨d, hc, hd⟩
  obtain rfl : c = .closed d := hc
  refine wp_setWorldState ?_ ?_ (fun φ hφ => hφ.elim)
  · intro now db' h
    obtain ⟨row, pre, -, -, -, -, -, rfl⟩ := setWorldStateBlock_ok h
    refine ⟨_, rfl, hd.congr rfl fun id hid => ?_⟩
    rwa [Database.withState_hasWorld]
  · intro now e _
    exact ⟨d, rfl, hd⟩

/-- A lifecycle call that works for an operation changes that operation's row alone, and leaves no
transaction open. -/
theorem dispatchFrame (advances : ∀ op status m cached now,
    status = .running ∨ status.terminal = true → R op → R (op.advance status m cached now)) :
    Frame Scope.dispatching svc worldId (· = own) (Closed (Aside own R before))
      (Unstored (Aside own R before)) where
  noted := fun x n hx _ => hx.noted _
  milestone := by
    rintro opId status m rfl
    exact triple_transition advances status m
  entered := fun state => triple_setWorldState state _
  closed := by
    rintro reason ⟨c, log⟩ ⟨d, hc, hd⟩
    obtain rfl : c = .closed d := hc
    refine wp_closeSession ?_ (fun φ w hφ => hφ.elim)
    intro now
    exact ⟨_, rfl, hd.congr rfl fun _ hid => hid⟩
  opened := by
    rintro w context handle argv password sessionId - ⟨c, log⟩ ⟨d, hc, hd⟩
    obtain rfl : c = .closed d := hc
    refine wp_openSession ?_ ?_ ?_
    · intro p φ
      exact ⟨hd, .inl rfl⟩
    · intro e d' v m ops worlds _ other _
      refine ⟨hd.congr ops fun id hid => ?_, .inr other⟩
      rwa [Database.hasWorld, worlds]
    · intro d' l ops worlds _ _
      refine ⟨d', rfl, hd.congr ops fun id hid => ?_⟩
      rwa [Database.hasWorld, worlds]
  left := by
    rintro e ⟨c, log⟩ ⟨d, rfl, hd⟩
    exact ⟨hd, .inl rfl⟩
  whole := by
    rintro e x ⟨h, hx⟩ lifecycle
    refine closed_of_session h (hx.resolve_right ?_)
    simp [lifecycle]
  mended := by
    rintro opId e code message rfl ⟨⟨d, v⟩, log⟩ ⟨hd, -⟩
    apply wp_failOp
    cases v with
    | none =>
      refine wp_mono (triple_transition advances _ _ ⟨.closed d, log⟩ ⟨d, rfl, hd⟩) ?_
      intro r y hy
      cases r <;> exact hy
    | some v =>
      refine wp_transition_nested ?_ (fun φ hφ => hφ.elim)
      exact ⟨d, rfl, hd⟩

/-- So does running what a claimed operation asks for. -/
theorem triple_runClaimed (advances : ∀ op status m cached now,
    status = .running ∨ status.terminal = true → R op → R (op.advance status m cached now))
    (worldId : Option String) (claimed : Operation)
    (hown : claimed.opId = own) :
    Triple Scope.dispatching (Closed (Aside own R before)) (fun _ => Closed (Aside own R before))
      (fun _ => Closed (Aside own R before)) (runClaimed svc worldId claimed) := by
  have works : ∀ (opType : OperationType) (worldId : String),
      Triple Scope.dispatching (Closed (Aside own R before))
        (fun opId x => Closed (Aside own R before) x ∧ opId = own)
        (fun _ => Closed (Aside own R before))
        (operationFor svc opType worldId claimed.actorType claimed.actorUserId false
          claimed.opId) := by
    intro opType worldId
    exact Triple.ret fun x hx => ⟨hx, hown⟩
  unfold runClaimed
  split
  · exact Frame.refuse _
  · rename_i worldId
    have frame : Frame Scope.dispatching svc worldId (· = own) (Closed (Aside own R before))
        (Unstored (Aside own R before)) := dispatchFrame advances
    split
    · exact Triple.bind (frame.start (works .start worldId)) fun _ => Frame.done _
    · exact Triple.bind (frame.stop (works .stop worldId)) fun _ => Frame.done _
    · exact Triple.bind (frame.kill (works .kill worldId)) fun _ => Frame.done _

end Frame

/-- No operation of the world is being executed. -/
def Unoccupied (w : String) (db : Database) : Prop :=
  ∀ op ∈ db.operations, op.worldId = some w → op.status.active = false

instance (w : String) (db : Database) : Decidable (Unoccupied w db) :=
  inferInstanceAs (Decidable (∀ op ∈ db.operations, op.worldId = some w → op.status.active = false))

/-- The operation has left the queue. -/
def Dequeued (opId : String) (db : Database) : Prop :=
  ∃ row ∈ db.operations, row.opId = opId ∧ row.status ≠ .queued

/-- What one round of a pass leaves behind: only the row of its operation has changed, and only
if `can` holds; nothing is put into the queue, and the operation has left it if its world was
idle. -/
structure Round (can : Prop) (op : Operation) (before db : Database) : Prop where
  aside : Aside op.opId (fun row => row.worldId = op.worldId ∨ row.status.active = false) before db
  unable : ¬can → db = before
  queue : ∀ row ∈ db.operations, row.status = .queued → row ∈ before.operations
  claimed : can → op.status = .queued → (∀ w, op.worldId = some w → Unoccupied w before) →
    Dequeued op.opId db

/-- A round does not end by an exception. -/
def RoundEnds (can : Prop) (op : Operation) (before : Database)
    (r : Except Exn (List String)) (y : Session) : Prop :=
  (∃ ids, r = .ok ids) ∧ Closed (Round can op before) y

section Rounds

variable {svc : WorldsService} {db : Database} {log : Log} {op : Operation} {can : Prop}

theorem round_idle {before : Database} (h : Round can op before db) {w : String} (idle : Unoccupied w before) (other : op.worldId ≠ some w) : Unoccupied w db := by
  intro row hrow hw
  by_cases hid : row.opId = op.opId
  · rcases h.aside.row row hrow hid with hsame | hended
    · exact absurd (hsame.symm.trans hw) other
    · exact hended
  · exact idle row ((h.aside.others row hid).mp hrow) hw

/-- A round that leaves its operation alone. -/
theorem round_skipped (keyed : db.Keyed) (hop : op ∈ db.operations)
    (unable : can → op.status = .queued → ¬∀ w, op.worldId = some w → Unoccupied w db) :
    RoundEnds can op db (.ok []) ⟨.closed db, log⟩ :=
  ⟨⟨[], rfl⟩, db, rfl, aside_refl keyed hop (.inl rfl), fun _ => rfl, fun _ hrow _ => hrow,
    fun hcan queued idle => absurd idle (unable hcan queued)⟩

/-- A round that has claimed its operation. -/
theorem round_claimed {R : Operation → Prop} (hcan : can)
    (hown : op.opId ∈ db.operations.map (·.opId))
    (kept : ∀ row : Operation, R row → row.worldId = op.worldId ∨ row.status.active = false)
    (left : ∀ row : Operation, R row → row.status ≠ .queued) {y : Session} {ids : List String}
    (hy : Closed (Aside op.opId R db) y) : RoundEnds can op db (.ok ids) y := by
  obtain ⟨d, hy, hd⟩ := hy
  refine ⟨⟨ids, rfl⟩, d, hy, hd.mono kept, fun h => absurd hcan h, ?_, fun _ _ _ => ?_⟩
  · intro row hrow hqueued
    by_cases hid : row.opId = op.opId
    · exact absurd hqueued (left row (hd.row row hrow hid))
    · exact (hd.others row hid).mp hrow
  · obtain ⟨row, hrow, hid, hR⟩ := hd.present hown
    exact ⟨row, hrow, hid, left row hR⟩

/-- Claiming the operation of a round: it is left alone because its world is busy, or the rest of
the round starts from its claimed row. -/
theorem wp_claim {α : Type} {Q : Except Exn α → Session → Prop}
    {f : Option Operation → Prog α} (keyed : db.Keyed) (hop : op ∈ db.operations)
    (queued : op.status = .queued)
    (busy : (¬∀ w, op.worldId = some w → Unoccupied w db) → ∀ log',
      wp Scope.dispatching Q (f none) ⟨.closed db, log'⟩)
    (claimed : ∀ now log', wp Scope.dispatching Q (f (some (op.claim now)))
      ⟨.closed (replaceOperation db op.opId (op.claim now)), log'⟩) :
    wp Scope.dispatching Q ((claimQueued op.opId).bind f) ⟨.closed db, log⟩ := by
  rw [wp_bind]
  refine wp_claimQueued ?_ ?_ (fun φ hφ => hφ.elim)
  · intro now r db' h
    rw [claimBlock_eval keyed.unique hop queued now] at h
    split at h
    · rename_i active
      cases h
      refine busy (fun idle => ?_) _
      simp only [Bool.and_eq_true, List.any_eq_true, beq_iff_eq, bne_iff_ne] at active
      obtain ⟨hsome, o, ho, ⟨hworld, -⟩, hactive⟩ := active
      obtain ⟨w, hw⟩ := Option.isSome_iff_exists.mp hsome
      have still := idle w hw o ho (hworld.trans hw)
      rw [hactive] at still
      cases still
    · cases h
      exact claimed now _
  · intro now e h
    rw [claimBlock_eval keyed.unique hop queued now] at h
    cases h

/-- Recording the end of an operation that is being executed does not fail. -/
theorem wp_recorded {ids : List String} {opId : String} {s status : OperationStatus}
    {m : Milestone} (stage : Stage ids opId s db) (hopen : s.terminal = false)
    (ends : status.terminal = true) :
    wp Scope.dispatching
      (fun r y => ∃ a d, r = .ok a ∧ y.conn = .closed d ∧ Stage ids opId status d)
      (transition svc.operations opId status m) ⟨.closed db, log⟩ := by
  refine wp_milestone (fun _ _ _ h => h.1) stage hopen (.inr ends) ?_ (fun φ hφ => hφ.elim)
  intro a d hstage _ _ _
  exact ⟨⟨a, d, rfl, rfl, hstage⟩, fun φ hφ => hφ.elim⟩

/-- Recording the failure of a claimed operation does not fail itself. -/
theorem wp_failClaimed {before : Database} {own : String} {R : Operation → Prop} (e : Exn)
    (hown : own ∈ before.operations.map (·.opId))
    (advances : ∀ op status m cached now, status = .running ∨ status.terminal = true → R op →
      R (op.advance status m cached now)) {x : Session} (hx : Closed (Aside own R before) x) :
    wp Scope.dispatching (fun r y => ∃ u, r = .ok u ∧ Closed (Aside own R before) y)
      (failClaimed svc own e) x := by
  obtain ⟨⟨d, w⟩, log⟩ := x
  obtain ⟨d', hc, hd⟩ := hx
  cases hc
  obtain ⟨op, hop, rfl, -⟩ := hd.present hown
  unfold failClaimed Operations.get
  simp only [Program.bind_eq]
  rw [wp_bind]
  refine wp_read ?_ (fun φ hφ => hφ.elim)
  simp only [Database.operation?_eq hd.keyed.unique hop]
  split
  · exact ⟨(), rfl, d, rfl, hd⟩
  · rename_i hopen
    have stage : Stage (d.operations.map (·.opId)) op.opId op.status d :=
      ⟨hd.keyed, rfl, op, hop, rfl, rfl⟩
    rw [wp_bind]
    refine wp_mono (wp_and (triple_transition advances _ _ ⟨.closed d, log⟩ ⟨d, rfl, hd⟩)
      (wp_recorded stage (by simpa [Operation.terminal] using hopen) rfl)) ?_
    rintro r y ⟨kept, a, d', rfl, -⟩
    exact ⟨(), rfl, kept⟩

/-- What a round does with an operation whose world waits for no other one. -/
theorem wp_claimed {R : Operation → Prop}
    (advances : ∀ (row : Operation) status m cached now,
      status = .running ∨ status.terminal = true → R row → R (row.advance status m cached now))
    (keyed : db.Keyed) (hop : op ∈ db.operations) (queued : op.status = .queued)
    (claims : ∀ now, R (op.claim now))
    (ended : ∀ {y : Session}, Closed (Aside op.opId R db) y →
      RoundEnds True op db (.ok [op.opId]) y) (log : Log) :
    wp Scope.dispatching (RoundEnds True op db)
      ((claimQueued op.opId).bind fun claimed => match claimed with
        | none => pure []
        | some claimed => do
          (runClaimed svc op.worldId claimed).handle (failClaimed svc claimed.opId)
          pure [claimed.opId]) ⟨.closed db, log⟩ := by
  have hown : op.opId ∈ db.operations.map (·.opId) := List.mem_map.mpr ⟨op, hop, rfl⟩
  refine wp_claim keyed hop queued ?_ ?_
  · intro busy log'
    exact round_skipped keyed hop fun _ _ => busy
  · intro now log'
    have claimed : Closed (Aside op.opId R db)
        (⟨.closed (replaceOperation db op.opId (op.claim now)), log'⟩ : Session) :=
      ⟨_, rfl, aside_claim keyed hop now (claims now)⟩
    have run := @triple_runClaimed svc _ _ _ advances op.worldId (op.claim now) rfl _ claimed
    simp only [Program.bind_eq, Program.pure_eq]
    rw [wp_bind]
    refine wp_guard run ?_ ?_
    · intro _ y hy
      exact ended hy
    · intro e y hy
      refine wp_mono (wp_failClaimed e hown advances hy) ?_
      rintro r z ⟨_, rfl, hz⟩
      exact ended hz

/-- One round of the lifecycle pass. -/
theorem wp_dispatchQueued (keyed : db.Keyed) (hop : op ∈ db.operations)
    (queued : op.status = .queued) :
    wp Scope.dispatching (RoundEnds True op db) (dispatchQueued svc op) ⟨.closed db, log⟩ := by
  let R : Operation → Prop := fun row => row.worldId = op.worldId ∧ row.status ≠ .queued
  have advances : ∀ (row : Operation) status m cached now,
      status = .running ∨ status.terminal = true → R row → R (row.advance status m cached now) := by
    rintro row status m cached now stored ⟨hworld, -⟩
    refine ⟨hworld, ?_⟩
    rintro rfl
    rcases stored with h | h <;> cases h
  have hown : op.opId ∈ db.operations.map (·.opId) := List.mem_map.mpr ⟨op, hop, rfl⟩
  have ended : ∀ {y : Session}, Closed (Aside op.opId R db) y →
      RoundEnds True op db (.ok [op.opId]) y :=
    fun hy => round_claimed trivial hown (fun _ h => .inl h.1) (fun _ h => h.2) hy
  have rest := @wp_claimed svc db op R advances keyed hop queued (fun _ => ⟨rfl, fun h => by cases h⟩)
    ended
  unfold dispatchQueued
  simp only [Program.bind_eq, Program.pure_eq]
  split
  · exact rest log
  · rename_i w hw
    rw [wp_bind]
    refine wp_read ?_ (fun φ hφ => hφ.elim)
    dsimp only
    split
    · rename_i active
      refine round_skipped keyed hop fun _ _ idle => ?_
      simp only [Connection.closed, List.any_eq_true, Bool.and_eq_true, beq_iff_eq, bne_iff_ne]
        at active
      obtain ⟨o, ho, ⟨hworld, -⟩, hactive⟩ := active
      have still := idle w hw o ho hworld
      rw [hactive] at still
      cases still
    · exact rest log

theorem updateWhere_hasWorld {p : World → Bool} {f : World → World} {d : Database}
    (worlds : d.worlds = updateWhere p f db.worlds) (hf : ∀ w, (f w).worldId = w.worldId)
    (id : String) (hid : db.hasWorld id = true) : d.hasWorld id = true := by
  have keys := updateWhere_map hf (p := p) db.worlds
  rw [Database.hasWorld_iff, worlds, keys, ← Database.hasWorld_iff]
  exact hid

/-- An operation that has been given its world. -/
def placedIn (worldId : String) (op : Operation) : Operation := { op with worldId := some worldId }

/-- Giving an operation its world touches no other operation. -/
theorem aside_setOperationWorld {own worldId : String} {before db' : Database} {n : Nat}
    (h : Aside own (·.status = .running) before db)
    (hown : own ∈ before.operations.map (·.opId))
    (happly : Store.apply (Stmt.setOperationWorld own worldId) db = .ok (db', n)) :
    Aside own (·.status = .running) before db' := by
  obtain ⟨constraints, rfl, -⟩ := satisfying_ok.mp happly
  simp only [List.mem_singleton, forall_eq, Bool.or_eq_true, Bool.not_eq_true'] at constraints
  obtain ⟨row, hrow, rfl, hstatus⟩ := h.present hown
  by_cases hfree : row.worldId = none
  · have placed : db.hasWorld worldId = true := by
      refine constraints.resolve_left fun hnone => ?_
      have hrow' := List.any_eq_false.mp hnone row hrow
      simp [hfree] at hrow'
    have rows := updateWhere_replace h.keyed.unique hrow
      (p := fun op => op.opId == row.opId && op.worldId.isNone) (by simp [hfree])
      (fun x hx => by
        simp only [Bool.and_eq_true, beq_iff_eq] at hx
        exact hx.1)
      (placedIn worldId)
    exact h.replace hrow rfl (placedIn worldId row) rfl placed hstatus rows fun _ hw => hw
  · have same : updateWhere (fun op : Operation => op.opId == row.opId && op.worldId.isNone)
        (placedIn worldId) db.operations = db.operations := by
      refine updateWhere_eq_self fun x hx => ?_
      by_cases hid : x.opId = row.opId
      · obtain rfl := nodup_key_inj h.keyed.unique hx hrow hid
        obtain ⟨w, hw⟩ := Option.ne_none_iff_exists'.mp hfree
        simp [hw]
      · simp [hid]
    exact h.congr same fun _ hw => hw

/-- Creating a world may give its operation a world, and touches no other operation. -/
theorem aside_applyCreate {own : String} {before db' : Database} {w : NewWorld}
    (h : Aside own (·.status = .running) before db)
    (hown : own ∈ before.operations.map (·.opId))
    (hblock : (applyCreateBlock own w).eval db = .ok ((), db')) :
    Aside own (·.status = .running) before db' := by
  have assigned : ∀ d : Database, Aside own (·.status = .running) before d →
      (Body.write (.setOperationWorld own w.worldId) : Block Unit).eval d = .ok ((), db') →
      Aside own (·.status = .running) before db' := by
    intro d hd hwrite
    obtain ⟨n, happly⟩ := Body.eval_write_ok hwrite
    exact aside_setOperationWorld hd hown happly
  unfold applyCreateBlock at hblock
  simp only [Body.bind_eq, Body.eval_query_bind] at hblock
  split at hblock
  · obtain ⟨⟨⟩, d, hinsert, hrest⟩ := Body.eval_bind_ok hblock
    obtain ⟨n, happly⟩ := Body.eval_write_ok hinsert
    obtain ⟨-, rfl, -⟩ := satisfying_ok.mp happly
    refine assigned { db with worlds := db.worlds ++ [w.row] } (h.congr rfl ?_) hrest
    intro id hw
    simp only [Database.hasWorld, List.any_append, Bool.or_eq_true] at hw ⊢
    exact .inl hw
  · split at hblock
    · cases hblock
    · exact assigned db h hblock

theorem aside_applyDelete {own : String} {before db' : Database} {expected now : Int}
    (h : Aside own (·.status = .running) before db)
    (hblock : (applyDeleteBlock op expected now).eval db = .ok ((), db')) :
    Aside own (·.status = .running) before db' := by
  unfold applyDeleteBlock at hblock
  simp only [Body.bind_eq, Body.eval_query_bind] at hblock
  split at hblock
  · cases hblock
  · split at hblock
    · cases hblock
      exact h
    · split at hblock
      · cases hblock
      · obtain ⟨n, d, hstatement, hrest⟩ := Body.eval_bind_ok hblock
        have happly := Body.eval_statement_ok hstatement
        cases happly
        split at hrest
        · cases hrest
        · cases hrest
          exact h.congr rfl (updateWhere_hasWorld rfl fun _ => rfl)

theorem aside_applyRuntimeConfig {own : String} {before db' : Database} {expected now : Int}
    {after : WorldFields} (h : Aside own (·.status = .running) before db)
    (hblock : (applyRuntimeConfigBlock op expected after now).eval db = .ok ((), db')) :
    Aside own (·.status = .running) before db' := by
  unfold applyRuntimeConfigBlock at hblock
  simp only [Body.bind_eq, Body.eval_query_bind] at hblock
  split at hblock
  · cases hblock
  · split at hblock
    · cases hblock
      exact h
    · split at hblock
      · cases hblock
      · split at hblock
        · cases hblock
        · obtain ⟨n, d, hstatement, hrest⟩ := Body.eval_bind_ok hblock
          obtain ⟨-, rfl, -⟩ := satisfying_ok.mp (Body.eval_statement_ok hstatement)
          split at hrest
          · cases hrest
          · cases hrest
            exact h.congr rfl (updateWhere_hasWorld rfl fun _ => rfl)

/-- Applying a mutation touches no other operation and leaves its own being executed. -/
theorem triple_applyMutation {before : Database} {own : String}
    (hown : own ∈ before.operations.map (·.opId)) {op : Operation} (hop : op.opId = own)
    (data : OperationData) (action : MutationAction) :
    Triple Scope.dispatching (Closed (Aside own (·.status = .running) before))
      (fun _ => Closed (Aside own (·.status = .running) before))
      (fun _ => Closed (Aside own (·.status = .running) before))
      (applyMutation op data action) := by
  have carried : ∀ {α : Type} (key : String) (value : Option α),
      Triple Scope.dispatching (Closed (Aside own (·.status = .running) before))
        (fun _ => Closed (Aside own (·.status = .running) before))
        (fun _ => Closed (Aside own (·.status = .running) before)) (required key value) := by
    intro α key value
    cases value with
    | none => exact Frame.refuse _
    | some a => exact Frame.done a
  cases action with
  | create =>
    apply Triple.bind (carried "world" data.world)
    intro w
    rw [hop]
    apply Triple.bind (closed_transactionBare (K := fun _ => _) ?_ fun _ _ hx => hx)
    · exact fun _ => Frame.done _
    · intro d a d' hd hblock
      exact aside_applyCreate hd hown hblock
  | delete =>
    apply Triple.bind (carried "preview_version" data.previewVersion)
    intro expected
    apply Triple.bind (Triple.draw fun x a hx _ => hx)
    intro at'
    apply Triple.bind (closed_transactionBare (K := fun _ => _) ?_ fun _ _ hx => hx)
    · exact fun _ => Frame.done _
    · intro d a d' hd hblock
      exact aside_applyDelete hd hblock
  | runtimeConfig =>
    apply Triple.bind (carried "expected_version" data.expectedVersion)
    intro expected
    apply Triple.bind (carried "after" (data.after.bind EditedFields.world?))
    intro after
    apply Triple.bind (Triple.draw fun x a hx _ => hx)
    intro at'
    apply Triple.bind (closed_transactionBare (K := fun _ => _) ?_ fun _ _ hx => hx)
    · exact fun _ => Frame.done _
    · intro d a d' hd hblock
      exact aside_applyRuntimeConfig hd hblock
  | fileEdit =>
    have edited : Triple Scope.dispatching (Closed (Aside own (·.status = .running) before))
        (fun _ => Closed (Aside own (·.status = .running) before))
        (fun _ => Closed (Aside own (·.status = .running) before)) (ask (.fileEdit op.opId)) :=
      Triple.ask (fun x a hx => hx) (fun x φ hx => hx)
    exact Triple.bind edited fun _ => Frame.done _

/-- Settling a claimed mutation ends its operation. -/
theorem wp_settleMutation {before : Database} (data : OperationData) (action : MutationAction)
    (hown : op.opId ∈ before.operations.map (·.opId)) {x : Session}
    (hx : Closed (Aside op.opId (·.status = .running) before) x) :
    wp Scope.dispatching (fun r y => r = .ok () ∧
      Closed (Aside op.opId (·.status.terminal = true) before) y)
      (settleMutation svc op data action) x := by
  have recorded : ∀ {y : Session} (status : OperationStatus) (m : Milestone),
      status.terminal = true → Closed (Aside op.opId (·.status = .running) before) y →
      wp Scope.dispatching (fun r z => (∃ a, r = .ok a) ∧
        Closed (Aside op.opId (·.status.terminal = true) before) z)
        (transition svc.operations op.opId status m) y := by
    rintro ⟨⟨d, w⟩, log⟩ status m ends ⟨d', hc, hd⟩
    cases hc
    obtain ⟨row, hrow, hid, hstatus⟩ := hd.present hown
    have stage : Stage (d.operations.map (·.opId)) op.opId .running d :=
      ⟨hd.keyed, rfl, row, hrow, hid, hstatus⟩
    have kept : Aside op.opId (fun _ => True) before d := hd.mono fun _ _ => trivial
    have stored := @triple_transition svc _ _ _ (fun _ _ _ _ _ _ _ => trivial) status m
      ⟨.closed d, log⟩ ⟨d, rfl, kept⟩
    refine wp_mono (wp_and stored (wp_recorded stage rfl ends)) ?_
    rintro r ⟨c, k⟩ ⟨h, a, d', rfl, rfl, hstage⟩
    obtain ⟨d'', hc, hd''⟩ := h
    cases hc
    refine ⟨⟨a, rfl⟩, d', rfl, hd''.keyed, hd''.ids_eq, hd''.others, ?_⟩
    intro row' hrow' hid'
    obtain ⟨last, hlast, hlid, hlstatus⟩ := hstage.row
    obtain rfl := nodup_key_inj hd''.keyed.unique hrow' hlast (hid'.trans hlid.symm)
    rwa [hlstatus]
  have applied := triple_applyMutation hown rfl data action x hx
  unfold settleMutation
  simp only [Program.bind_eq, Program.pure_eq]
  refine wp_guard (P := fun r y => match r with
    | .ok () => Closed (Aside op.opId (·.status.terminal = true) before) y
    | .error _ => Closed (Aside op.opId (·.status = .running) before) y) ?_ ?_ ?_
  · refine wp_seq applied ?_ (fun e y hy => hy)
    intro result y hy
    rw [wp_bind]
    refine wp_mono (recorded .completed { data := some result } rfl hy) ?_
    rintro r z ⟨⟨a, rfl⟩, hz⟩
    exact hz
  · intro _ y hy
    exact ⟨rfl, hy⟩
  · intro e y hy
    rw [wp_handle, wp_bind]
    refine wp_mono (recorded .failed _ rfl hy) ?_
    rintro r z ⟨⟨a, rfl⟩, hz⟩
    exact ⟨rfl, hz⟩

/-- One round of the mutation pass. -/
theorem wp_dispatchMutation (keyed : db.Keyed) (hop : op ∈ db.operations)
    (pending : op.status = .queued ∨ op.status = .running) :
    wp Scope.dispatching (RoundEnds ((mutationAction op).isSome = true) op db)
      (dispatchMutation svc op) ⟨.closed db, log⟩ := by
  unfold dispatchMutation
  cases haction : mutationAction op with
  | none =>
    exact round_skipped keyed hop fun hcan => by simp at hcan
  | some action =>
  have settled : ∀ (claimed : Operation) {y : Session}, claimed.opId = op.opId →
      Closed (Aside op.opId (·.status = .running) db) y →
      wp Scope.dispatching (RoundEnds ((some action).isSome = true) op db)
        ((settleMutation svc claimed (op.data.getD {}) action).bind fun _ =>
          .ret [claimed.opId]) y := by
    intro claimed y hid hy
    have hown : claimed.opId ∈ db.operations.map (·.opId) := by
      rw [hid]
      exact List.mem_map.mpr ⟨op, hop, rfl⟩
    rw [wp_bind]
    rw [← hid] at hy
    refine wp_mono (wp_settleMutation _ action hown hy) ?_
    rintro r z ⟨rfl, hz⟩
    rw [hid] at hz hown
    refine round_claimed rfl hown ?_ ?_ hz
    · intro row hrow
      refine .inr ?_
      cases hstatus : row.status <;> simp_all [OperationStatus.terminal, OperationStatus.active]
    · rintro row hrow hqueued
      rw [hqueued] at hrow
      cases hrow
  simp only [Program.bind_eq, Program.pure_eq]
  split
  · rename_i queued
    refine wp_claim keyed hop queued ?_ ?_
    · intro busy log'
      exact round_skipped keyed hop fun _ _ => busy
    · intro now log'
      exact settled (op.claim now) rfl ⟨_, rfl, aside_claim keyed hop now rfl⟩
  · rename_i unqueued
    have running := pending.resolve_left unqueued
    exact settled op rfl ⟨db, rfl, aside_refl keyed hop running⟩

end Rounds

end Worlds

end McManager
