import McManager.Web.History

/-! What the notifications of a user depend on, and what never comes back. -/

namespace McManager.History

open Framework

/-- The event changes what the user sees. -/
def Event.concerns (userId : String) : Event → Bool
  | published _ => true
  | read u _ _ => u == userId
  | dismissed u _ _ => u == userId

def Event.publishes : Event → Bool
  | published _ => true
  | _ => false

section Marks

variable {db db' : Database} {userId notificationId : String} {now : Int}
variable {reads : List NotificationRead} {row : NotificationRead}
variable {f : NotificationRead → NotificationRead}

/-- An upsert sets the row of one user for one notification. -/
theorem markOf_upsert (owner : ∀ r, (f r).userId = r.userId)
    (about : ∀ r, (f r).notificationId = r.notificationId) :
    markOf (db.upsertRead row f).reads userId notificationId =
      if row.userId = userId ∧ row.notificationId = notificationId then
        some ((markOf db.reads userId notificationId).elim row f)
      else markOf db.reads userId notificationId := by
  unfold Database.upsertRead markOf
  dsimp only
  split
  · rename_i there
    rw [find?_updateWhere fun r => by rw [owner, about]]
    split
    · rename_i own
      obtain ⟨rfl, rfl⟩ := own
      obtain ⟨r, found⟩ := Option.isSome_iff_exists.mp (List.find?_isSome.mpr (List.any_eq_true.mp there))
      have same := List.find?_some found
      rw [found, Option.map_some, if_pos same]
      rfl
    · rename_i other
      cases found : db.reads.find? fun r => r.notificationId == notificationId && r.userId == userId with
      | none => rfl
      | some r =>
        have same := List.find?_some found
        simp only [Bool.and_eq_true, beq_iff_eq] at same
        rw [Option.map_some, if_neg]
        simp only [Bool.and_eq_true, beq_iff_eq, same.1, same.2]
        exact fun own => other ⟨own.2.symm, own.1.symm⟩
  · rename_i absent
    rw [Bool.not_eq_true, List.any_eq_false] at absent
    rw [List.find?_append]
    split
    · rename_i own
      obtain ⟨rfl, rfl⟩ := own
      rw [List.find?_eq_none.mpr absent, Option.none_or, List.find?_cons_of_pos (by simp)]
      rfl
    · rename_i other
      rw [List.find?_cons_of_neg, List.find?_nil, Option.or_none]
      simp only [Bool.and_eq_true, beq_iff_eq]
      exact fun own => other ⟨own.2, own.1⟩

/-- The row of a user with the mark of an event. -/
def marked (e : Event) (userId notificationId : String) (old : Option NotificationRead) :
    Option NotificationRead :=
  let row := old.getD ⟨notificationId, userId, none, none⟩
  match e with
  | .published _ => old
  | .read u n now =>
    if u = userId ∧ n = notificationId then some { row with readAt := some now } else old
  | .dismissed u n now =>
    if u = userId ∧ n = notificationId then some { row with dismissedAt := some now } else old

/-- An event is stored when what it names is there. -/
def Event.admitted (e : Event) (db : Database) : Bool :=
  match e with
  | .published n => !db.hasNotification n.notificationId &&
      references n.relatedOperationId db.hasOperation && references n.relatedWorldId db.hasWorld
  | .read u n _ => db.hasNotification n && db.hasUser u
  | .dismissed u n _ => db.hasNotification n && db.hasUser u

/-- A statement is refused when one of its constraints does not hold. -/
theorem stored_satisfying (constraints : List (Bool × String)) (after : Database) (n : Nat) :
    (match satisfying constraints after n with
      | .ok (db, _) => db
      | .error _ => db) = if constraints.all (·.1) then after else db := by
  unfold satisfying
  cases found : constraints.find? (!·.1) with
  | none =>
    have all : constraints.all (·.1) = true := by simpa using List.find?_eq_none.mp found
    rw [if_pos all]
  | some c =>
    have bad : ¬constraints.all (·.1) = true := fun all => by
      have holds := List.all_eq_true.mp all c (List.mem_of_find?_eq_some found)
      have fails := List.find?_some found
      rw [holds] at fails
      cases fails
    rw [if_neg bad]

theorem apply_published (n : Notification) : (Event.published n).apply db =
    if (Event.published n).admitted db then { db with notifications := db.notifications ++ [n] }
    else db := by
  refine (stored_satisfying _ _ _).trans ?_
  simp only [List.all_cons, List.all_nil, Bool.and_true, Event.admitted, Bool.and_assoc]

theorem apply_read (u n : String) : (Event.read u n now).apply db =
    if (Event.read u n now).admitted db then
      db.upsertRead ⟨n, u, some now, none⟩ fun r => { r with readAt := some now }
    else db := by
  refine (stored_satisfying _ _ _).trans ?_
  simp only [List.all_cons, List.all_nil, Bool.and_true, Event.admitted]
  rfl

theorem apply_dismissed (u n : String) : (Event.dismissed u n now).apply db =
    if (Event.dismissed u n now).admitted db then
      db.upsertRead ⟨n, u, none, some now⟩ fun r => { r with dismissedAt := some now }
    else db := by
  refine (stored_satisfying _ _ _).trans ?_
  simp only [List.all_cons, List.all_nil, Bool.and_true, Event.admitted]
  rfl

/-- An upsert is of marks only. -/
theorem upsertRead_rest (row : NotificationRead) (f : NotificationRead → NotificationRead) :
    (db.upsertRead row f).notifications = db.notifications ∧ (db.upsertRead row f).users = db.users ∧
      (db.upsertRead row f).operations = db.operations ∧
      (db.upsertRead row f).worlds = db.worlds := by
  unfold Database.upsertRead
  dsimp only
  split <;> exact ⟨rfl, rfl, rfl, rfl⟩

/-- What an event leaves of the marks of a user. -/
theorem markOf_apply (e : Event) :
    markOf (e.apply db).reads userId notificationId =
      if e.admitted db then marked e userId notificationId (markOf db.reads userId notificationId)
      else markOf db.reads userId notificationId := by
  cases e with
  | published n =>
    rw [apply_published]
    split <;> rfl
  | read u n now =>
    rw [apply_read]
    split
    · rw [markOf_upsert (f := fun r => { r with readAt := some now }) (fun _ => rfl) fun _ => rfl]
      unfold marked
      dsimp only
      split
      · rename_i own
        obtain ⟨rfl, rfl⟩ := own
        cases markOf db.reads u n <;> rfl
      · rfl
    · rfl
  | dismissed u n now =>
    rw [apply_dismissed]
    split
    · rw [markOf_upsert (f := fun r => { r with dismissedAt := some now }) (fun _ => rfl)
        fun _ => rfl]
      unfold marked
      dsimp only
      split
      · rename_i own
        obtain ⟨rfl, rfl⟩ := own
        cases markOf db.reads u n <;> rfl
      · rfl
    · rfl

/-- An event adds at most the notification it publishes, and leaves the rest. -/
theorem apply_rest (e : Event) (db : Database) :
    (e.apply db).notifications = db.notifications ++
        (match e with | .published n => if e.admitted db then [n] else [] | _ => []) ∧
      (e.apply db).users = db.users ∧ (e.apply db).operations = db.operations ∧
      (e.apply db).worlds = db.worlds := by
  cases e with
  | published n =>
    rw [apply_published]
    split
    · exact ⟨rfl, rfl, rfl, rfl⟩
    · exact ⟨(List.append_nil _).symm, rfl, rfl, rfl⟩
  | read u n now =>
    rw [apply_read, List.append_nil]
    split
    · exact upsertRead_rest _ _
    · exact ⟨rfl, rfl, rfl, rfl⟩
  | dismissed u n now =>
    rw [apply_dismissed, List.append_nil]
    split
    · exact upsertRead_rest _ _
    · exact ⟨rfl, rfl, rfl, rfl⟩

end Marks

section Isolation

variable {userId : String} {db db' : Database}

/-- Two databases that a user cannot tell apart. -/
structure Alike (userId : String) (db db' : Database) : Prop where
  notifications : db.notifications = db'.notifications
  users : db.users = db'.users
  operations : db.operations = db'.operations
  worlds : db.worlds = db'.worlds
  marks : ∀ n, markOf db.reads userId n = markOf db'.reads userId n

theorem Alike.admitted (h : Alike userId db db') (e : Event) : e.admitted db = e.admitted db' := by
  have operation : db.hasOperation = db'.hasOperation :=
    funext fun o => by rw [Database.hasOperation, h.operations, Database.hasOperation]
  have world : db.hasWorld = db'.hasWorld :=
    funext fun w => by rw [Database.hasWorld, h.worlds, Database.hasWorld]
  have notification : db.hasNotification = db'.hasNotification :=
    funext fun n => by rw [Database.hasNotification, h.notifications, Database.hasNotification]
  have user : db.hasUser = db'.hasUser :=
    funext fun u => by rw [Database.hasUser, h.users, Database.hasUser]
  cases e <;> simp only [Event.admitted, operation, world, notification, user]

/-- What happens to both. -/
theorem Alike.both (h : Alike userId db db') (e : Event) :
    Alike userId (e.apply db) (e.apply db') := by
  obtain ⟨notifications, users, operations, worlds⟩ := apply_rest e db
  obtain ⟨notifications', users', operations', worlds'⟩ := apply_rest e db'
  refine ⟨?_, ?_, ?_, ?_, fun n => ?_⟩
  · rw [notifications, notifications', h.notifications, h.admitted e]
  · rw [users, users', h.users]
  · rw [operations, operations', h.operations]
  · rw [worlds, worlds', h.worlds]
  · rw [markOf_apply, markOf_apply, h.admitted e, h.marks n]

/-- What another user does. -/
theorem Alike.other (h : Alike userId db db') {e : Event} (apart : e.concerns userId = false) :
    Alike userId (e.apply db) db' := by
  obtain ⟨notifications, users, operations, worlds⟩ := apply_rest e db
  refine ⟨?_, users.trans h.users, operations.trans h.operations, worlds.trans h.worlds, fun n => ?_⟩
  · rw [notifications, ← h.notifications]
    cases e with
    | published n => cases apart
    | read u n now => exact List.append_nil _
    | dismissed u n now => exact List.append_nil _
  · rw [markOf_apply, ← h.marks n]
    have kept : marked e userId n (markOf db.reads userId n) = markOf db.reads userId n := by
      cases e with
      | published n => rfl
      | read u n now => exact if_neg fun own => by simp [Event.concerns, own.1] at apart
      | dismissed u n now => exact if_neg fun own => by simp [Event.concerns, own.1] at apart
    rw [kept, ite_self]

/-- Alike databases give the same answers. -/
theorem Alike.lists (h : Alike userId db db') (q : Query) :
    listNotifications db userId q = listNotifications db' userId q := by
  have same : joined db userId = joined db' userId := by
    rw [joined, joined, h.notifications]
    exact List.map_congr_left fun n _ => by rw [h.marks]
  have rows : rows db userId q = rows db' userId q := by
    rw [History.rows, History.rows, shown, shown, same]
  have count : unreadCount db userId = unreadCount db' userId := by
    rw [unreadCount, unreadCount, same]
  rw [listNotifications, listNotifications, rows, count]

/-- What a user is shown, in whatever order and on whatever page, depends on what is published and
on what this user has done, and on nothing that other users do. -/
theorem inbox_isolated (db : Database) (events : List Event) (userId : String) (q : Query) :
    listNotifications (run events db) userId q =
      listNotifications (run (events.filter (·.concerns userId)) db) userId q := by
  have alike : ∀ (events : List Event) (db db' : Database), Alike userId db db' →
      Alike userId (run events db) (run (events.filter (·.concerns userId)) db') := by
    intro events
    induction events with
    | nil => exact fun _ _ h => h
    | cons e events ih =>
      intro db db' h
      cases own : e.concerns userId with
      | true =>
        rw [List.filter_cons_of_pos own]
        exact ih _ _ (h.both e)
      | false =>
        rw [List.filter_cons_of_neg (by rw [own]; exact Bool.false_ne_true)]
        exact ih _ _ (h.other own)
  exact (alike events db db ⟨rfl, rfl, rfl, rfl, fun _ => rfl⟩).lists q

end Isolation

section Permanence

variable {userId notificationId : String} {db : Database}

/-- What a user has marked stays marked. -/
structure Later (old new : Option NotificationRead) : Prop where
  read : (old.bind (·.readAt)).isSome = true → (new.bind (·.readAt)).isSome = true
  dismissed : (old.bind (·.dismissedAt)).isSome = true → (new.bind (·.dismissedAt)).isSome = true

theorem later_marked (e : Event) (old : Option NotificationRead) :
    Later old (marked e userId notificationId old) := by
  cases e with
  | published n => exact ⟨id, id⟩
  | read u n now =>
    unfold marked
    dsimp only
    split
    · cases old with
      | none => exact ⟨fun _ => rfl, id⟩
      | some row => exact ⟨fun _ => rfl, id⟩
    · exact ⟨id, id⟩
  | dismissed u n now =>
    unfold marked
    dsimp only
    split
    · cases old with
      | none => exact ⟨id, fun _ => rfl⟩
      | some row => exact ⟨id, fun _ => rfl⟩
    · exact ⟨id, id⟩

theorem later_apply (e : Event) (db : Database) (userId notificationId : String) :
    Later (markOf db.reads userId notificationId) (markOf (e.apply db).reads userId notificationId) := by
  rw [markOf_apply]
  split
  · exact later_marked e _
  · exact ⟨id, id⟩

theorem later_run (events : List Event) (db : Database) (userId notificationId : String) :
    Later (markOf db.reads userId notificationId)
      (markOf (run events db).reads userId notificationId) := by
  induction events generalizing db with
  | nil => exact ⟨id, id⟩
  | cons e events ih =>
    have first := later_apply e db userId notificationId
    have rest := ih (e.apply db)
    exact ⟨fun h => rest.read (first.read h), fun h => rest.dismissed (first.dismissed h)⟩

theorem notifications_run (events : List Event) (db : Database) :
    db.notifications <+: (run events db).notifications := by
  induction events generalizing db with
  | nil => exact List.prefix_rfl
  | cons e events ih =>
    have first : db.notifications <+: (e.apply db).notifications := by
      rw [(apply_rest e db).1]
      exact List.prefix_append _ _
    exact first.trans (ih (e.apply db))

/-- Neither read nor dismissed. -/
def unmarked (mark : Option NotificationRead) : Bool :=
  (mark.bind (·.readAt)).isNone && (mark.bind (·.dismissedAt)).isNone

theorem unreadCount_eq : unreadCount db userId =
    db.notifications.countP fun n => unmarked (markOf db.reads userId n.notificationId) := by
  rw [unreadCount, ← List.countP_eq_length_filter, joined, List.countP_map]
  rfl

theorem unmarked_of_later {old new : Option NotificationRead} (h : Later old new)
    (unmarked' : unmarked new = true) : unmarked old = true := by
  unfold unmarked at unmarked' ⊢
  rw [Bool.and_eq_true, Option.isNone_iff_eq_none, Option.isNone_iff_eq_none] at unmarked' ⊢
  constructor
  · by_contra there
    have kept := h.read (Option.isSome_iff_ne_none.mpr there)
    rw [unmarked'.1] at kept
    cases kept
  · by_contra there
    have kept := h.dismissed (Option.isSome_iff_ne_none.mpr there)
    rw [unmarked'.2] at kept
    cases kept

/-- An event makes at most what it publishes unread. -/
theorem unread_apply (e : Event) (db : Database) (userId : String) :
    unreadCount (e.apply db) userId ≤ unreadCount db userId + e.publishes.toNat := by
  rw [unreadCount_eq, unreadCount_eq, (apply_rest e db).1, List.countP_append]
  refine Nat.add_le_add ?_ ?_
  · refine List.countP_mono_left fun n _ => ?_
    exact unmarked_of_later (later_apply e db userId n.notificationId)
  · refine List.countP_le_length.trans ?_
    cases e with
    | published n =>
      dsimp only
      split <;> simp [Event.publishes]
    | read u n now => exact Nat.zero_le _
    | dismissed u n now => exact Nat.zero_le _

theorem unread_run (events : List Event) (db : Database) (userId : String) :
    unreadCount (run events db) userId ≤ unreadCount db userId + events.countP (·.publishes) := by
  induction events generalizing db with
  | nil => exact le_rfl
  | cons e events ih =>
    have first := unread_apply e db userId
    have rest := ih (e.apply db)
    have head : events.countP (·.publishes) + e.publishes.toNat =
        (e :: events).countP (·.publishes) := by
      rw [List.countP_cons]
      cases e.publishes <;> rfl
    calc unreadCount (run events (e.apply db)) userId
        ≤ unreadCount (e.apply db) userId + events.countP (·.publishes) := rest
      _ ≤ unreadCount db userId + e.publishes.toNat + events.countP (·.publishes) :=
          Nat.add_le_add_right first _
      _ = unreadCount db userId + (e :: events).countP (·.publishes) := by omega

/-- A user who is there reads everything there is. -/
theorem run_reads (times : String → Int) (there : db.hasUser userId = true)
    (list : List Notification) (known : ∀ n ∈ list, db.hasNotification n.notificationId = true) :
    (run (list.map fun n => .read userId n.notificationId (times n.notificationId)) db).notifications =
        db.notifications ∧
      ∀ n ∈ list, ((markOf (run (list.map fun n =>
        .read userId n.notificationId (times n.notificationId)) db).reads userId
          n.notificationId).bind (·.readAt)).isSome = true := by
  induction list generalizing db with
  | nil => exact ⟨rfl, fun n mem => absurd mem List.not_mem_nil⟩
  | cons n list ih =>
    obtain ⟨same, users, -⟩ := apply_rest (.read userId n.notificationId (times n.notificationId)) db
    rw [List.append_nil] at same
    obtain ⟨rest, marks⟩ := @ih
      ((Event.read userId n.notificationId (times n.notificationId)).apply db)
      (by rw [Database.hasUser, users]; exact there)
      (fun m mem => by
        rw [Database.hasNotification, same]
        exact known m (List.mem_cons_of_mem n mem))
    refine ⟨rest.trans same, fun m mem => ?_⟩
    rcases List.mem_cons.mp mem with rfl | mem
    · refine (later_run _ ((Event.read userId m.notificationId (times m.notificationId)).apply db)
        userId m.notificationId).read ?_
      have admitted : (Event.read userId m.notificationId (times m.notificationId)).admitted db =
          true := by
        rw [Event.admitted, known m List.mem_cons_self, there]
        rfl
      rw [markOf_apply, if_pos admitted, marked, if_pos ⟨rfl, rfl⟩]
      rfl
    · exact marks m mem

/-- What a query that is answered lists. -/
theorem listed_ok {q : Query} {listing : Listing} (h : listNotifications db userId q = .ok listing) :
    ∃ limit offset, page q.limit q.offset = some (limit, offset) ∧
      listing = ⟨((rows db userId q).drop offset).take limit, unreadCount db userId, limit, offset,
        (rows db userId q).length⟩ := by
  unfold listNotifications at h
  cases paged : page q.limit q.offset with
  | none =>
    rw [paged] at h
    dsimp only [bind, Except.bind, pure, Except.pure] at h
    repeat' split at h
    all_goals cases h
  | some p =>
    obtain ⟨limit, offset⟩ := p
    rw [paged] at h
    dsimp only [bind, Except.bind, pure, Except.pure] at h
    refine ⟨limit, offset, rfl, ?_⟩
    -- What is refused before the page is no listing.
    repeat' split at h
    all_goals (cases h; try rfl)

theorem mem_rows {q : Query} {e : Entry} : e ∈ rows db userId q ↔
    e ∈ joined db userId ∧ e.dismissedAt = none ∧ q.selects e = true := by
  rw [rows, List.mem_insertionSort, List.mem_filter, shown, List.mem_filter, and_assoc,
    Option.isNone_iff_eq_none]

/-- No notification goes away or changes, and what a user has dismissed is on no list again. -/
theorem inbox_permanent (db : Database) (events : List Event) (userId : String) :
    db.notifications <+: (run events db).notifications ∧
      ∀ n, ((markOf db.reads userId n).bind (·.dismissedAt)).isSome = true →
        ∀ q listing, listNotifications (run events db) userId q = .ok listing →
          ∀ e ∈ listing.notifications, e.notification.notificationId ≠ n := by
  refine ⟨notifications_run events db, ?_⟩
  rintro n dismissed q listing listed e mem rfl
  have later := (later_run events db userId e.notification.notificationId).dismissed dismissed
  obtain ⟨limit, offset, -, rfl⟩ := listed_ok listed
  obtain ⟨there, shown, -⟩ := mem_rows.mp (List.mem_of_mem_drop (List.mem_of_mem_take mem))
  obtain ⟨m, -, rfl⟩ := List.mem_map.mp there
  rw [Entry.dismissedAt] at shown
  rw [shown] at later
  cases later

/-- Once a user has read everything, at most what was published since is unread. -/
theorem unread_bounded (db : Database) (times : String → Int) (events : List Event) (userId : String)
    (there : db.hasUser userId = true) :
    unreadCount (run events (run (readAll times userId db) db)) userId ≤
      events.countP (·.publishes) := by
  refine (unread_run events _ userId).trans ?_
  obtain ⟨same, marks⟩ := run_reads times there db.notifications fun n mem =>
    List.any_eq_true.mpr ⟨n, mem, beq_self_eq_true _⟩
  have read : unreadCount (run (readAll times userId db) db) userId = 0 := by
    rw [unreadCount_eq, readAll, same, List.countP_eq_zero]
    intro n mem unread
    have there := marks n mem
    rw [unmarked, Bool.and_eq_true, Option.isNone_iff_eq_none] at unread
    rw [unread.1] at there
    cases there
  rw [read, Nat.zero_add]

/-- Steve reads the only notice, and one comes. -/
theorem unread_bounded_one :
    unreadCount (run [.published ⟨"n2", "backup", .high, "Backup failed", none, none, true, 20⟩]
      (run (readAll (fun _ => 10) "steve"
        { users := [⟨"steve", "steve"⟩],
          notifications := [⟨"n1", "world", .normal, "World created", none, none, false, 5⟩] })
        { users := [⟨"steve", "steve"⟩],
          notifications := [⟨"n1", "world", .normal, "World created", none, none, false, 5⟩] }))
      "steve" ≤ 1 :=
  unread_bounded
    { users := [⟨"steve", "steve"⟩],
      notifications := [⟨"n1", "world", .normal, "World created", none, none, false, 5⟩] }
    (fun _ => 10) [.published ⟨"n2", "backup", .high, "Backup failed", none, none, true, 20⟩] "steve"
    (by decide)

end Permanence

end McManager.History
