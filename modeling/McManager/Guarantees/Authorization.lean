import McManager.Access.PathRules
import McManager.Framework.Sequential

namespace McManager.Access

open Framework UrlPath

section Sessions

/-- The clock does not go back behind the arrival of the request. -/
def since (arrival : Nat) : Framework.Scope Site Query Fault Answer Database where
  fails := fun _ _ => True
  answers := fun _ _ _ => True
  draws := fun _ q a =>
    match q, a with
    | .now, (at' : Moment) => arrival ≤ at'.seconds
    | _, _ => True

/-- The live session behind the cookie of a request, not expired at its arrival. -/
structure SessionOf (mw : Middleware) (req : HttpRequest) (arrival : Nat) (db : Database)
    (row : ClientSession) : Prop where
  found : db.clientSessions.find? (·.sessionId == mw.auth.hashToken req.sessionCookie) = some row
  live : row.live = true
  current : arrival ≤ row.expiresAt

/-- A step-up not longer ago than the window. -/
def FreshStepUp (arrival : Nat) (stepUpConfirmedAt : Option Nat) : Prop :=
  ∃ confirmed, stepUpConfirmedAt = some confirmed ∧ arrival ≤ confirmed + stepUpWindow

/-- What holds when a program returns; an exception ends the request with an error. -/
def returning {α : Type} (φ : α → Framework.Session Site Query Fault Answer Database → Prop) :
    Except Exn α → Framework.Session Site Query Fault Answer Database → Prop
  | .ok a, y => φ a y
  | .error _, _ => True

variable {arrival : Nat} {α β : Type} {mw : Middleware} {req : HttpRequest}
  {x : Framework.Session Site Query Fault Answer Database}

theorem le_of_not_after {now : Moment} {limit : Nat} (h : arrival ≤ now.seconds)
    (after : now.after limit = false) : arrival ≤ limit := by
  simp only [Moment.after, Bool.or_eq_false_iff, decide_eq_false_iff_not] at after
  omega

theorem wp_any (p : Prog α) (x : Framework.Session Site Query Fault Answer Database) :
    wp (since arrival) (fun _ _ => True) p x := by
  induction p generalizing x with
  | ret a => trivial
  | raise e => trivial
  | call c k ih => exact fun o _ => ih _ _

theorem wp_next {p : Prog α} {f : α → Prog β}
    {φ : α → Framework.Session Site Query Fault Answer Database → Prop}
    {ψ : β → Framework.Session Site Query Fault Answer Database → Prop}
    (first : wp (since arrival) (returning φ) p x)
    (next : ∀ a y, φ a y → wp (since arrival) (returning ψ) (f a) y) :
    wp (since arrival) (returning ψ) (p.bind f) x :=
  wp_seq first next fun _ _ _ => trivial

theorem wp_rows {t : Site} {f : Database → α} :
    wp (since arrival) (returning fun a y => a = f x.conn.committed ∧ y = x) (read t f) x :=
  wp_read ⟨rfl, rfl⟩ fun _ _ => trivial

theorem wp_validateSession : wp (since arrival)
    (returning fun s y => y = x ∧ ∃ row, SessionOf mw req arrival x.conn.committed row ∧
      s.userId = row.userId ∧ s.stepUpConfirmedAt = row.stepUpConfirmedAt)
    (Authentication.validateSession mw.auth req.sessionCookie) x := by
  apply wp_next wp_rows
  intro found y h
  obtain ⟨rfl, rfl⟩ := h
  cases row? : (y.conn.committed.clientSessions.find?
      (·.sessionId == mw.auth.hashToken req.sessionCookie)).filter ClientSession.live with
  | none => trivial
  | some row =>
    obtain ⟨found, live⟩ := Option.filter_eq_some_iff.mp row?
    apply wp_draw_bind
    intro at' current
    cases expired : at'.after row.expiresAt with
    | true =>
      simp only [if_true]
      exact wp_seq (wp_any _ _) (fun _ _ _ => trivial) fun _ _ _ => trivial
    | false =>
      simp only [Bool.false_eq_true, if_false]
      exact ⟨rfl, row, ⟨found, live, le_of_not_after current expired⟩, rfl, rfl⟩

theorem wp_currentSession : wp (since arrival)
    (returning fun s? y => ∀ s, s? = some s → y = x ∧
      ∃ row, SessionOf mw req arrival x.conn.committed row ∧ s.userId = row.userId ∧
        s.stepUpConfirmedAt = row.stepUpConfirmedAt)
    (currentSession mw req) x := by
  apply wp_guard (wp_next wp_validateSession fun s y h => ?_) (fun _ _ h => h)
  · intro e y _
    cases e
    all_goals first | trivial | exact fun s h => nomatch h
  · intro s' same
    cases same
    exact h

theorem wp_compareDigest (a b : String) :
    wp (since arrival) (returning fun _ y => y = x) (compareDigest a b) x := by
  unfold compareDigest
  split
  · rfl
  · trivial

theorem wp_submitsToken :
    wp (since arrival) (returning fun _ y => y = x) (submitsToken req) x := by
  unfold submitsToken
  split
  · rfl
  · exact wp_compareDigest _ _

theorem wp_csrfHolds (s : Issued) :
    wp (since arrival) (returning fun _ y => y = x) (csrfHolds mw req s) x := by
  unfold csrfHolds
  split
  · apply wp_next wp_submitsToken
    intro submitted y same
    subst same
    cases submitted with
    | true => exact wp_compareDigest _ _
    | false => rfl
  · rfl

/-- The roles a request is asked for. -/
structure Ranked (req : HttpRequest) (db : Database) (userId : String) : Prop where
  superadmin : req.requiresSuperadmin = true → db.holdsRole userId ["Superadmin"] = true
  admin : req.requiresSuperadmin = false → req.requiresAdmin = true →
    db.holdsRole userId adminRoles = true

theorem wp_roleRefusal (userId : String) : wp (since arrival)
    (returning fun r y => y = x ∧ (r = none → Ranked req x.conn.committed userId))
    (roleRefusal req userId) x := by
  unfold roleRefusal
  split
  · rename_i superadmin
    apply wp_next wp_rows
    intro role y h
    obtain ⟨rfl, rfl⟩ := h
    refine ⟨rfl, fun passed => ⟨fun _ => ?_, fun no => ?_⟩⟩
    · by_contra refused
      simp [refused] at passed
    · rw [superadmin] at no
      cases no
  · rename_i superadmin
    split
    · apply wp_next wp_rows
      intro role y h
      obtain ⟨rfl, rfl⟩ := h
      refine ⟨rfl, fun passed => ⟨fun yes => absurd yes superadmin, fun _ _ => ?_⟩⟩
      by_contra refused
      simp [refused] at passed
    · rename_i admin
      exact ⟨rfl, fun _ => ⟨fun yes => absurd yes superadmin, fun _ yes => absurd yes admin⟩⟩

theorem wp_requireStepUp (s : Issued) : wp (since arrival)
    (returning fun _ _ => FreshStepUp arrival s.stepUpConfirmedAt)
    (Authentication.requireStepUp s) x := by
  unfold Authentication.requireStepUp
  split
  · trivial
  · rename_i confirmed stepUp
    apply wp_draw_bind
    intro at' current
    cases late : at'.after (confirmed + stepUpWindow) with
    | true =>
      simp only [if_true]
      trivial
    | false =>
      simp only [Bool.false_eq_true, if_false]
      exact ⟨confirmed, stepUp, le_of_not_after current late⟩

theorem wp_stepUpRefusal (s : Issued) : wp (since arrival)
    (returning fun r _ => r = none → req.requiresStepUp = true →
      FreshStepUp arrival s.stepUpConfirmedAt)
    (stepUpRefusal req s) x := by
  unfold stepUpRefusal
  split
  · apply wp_guard (wp_next (wp_requireStepUp s) fun _ _ fresh => ?_) (fun _ _ h => h)
    · intro e y _
      cases e
      all_goals first | trivial | exact fun h => nomatch h
    · exact fun _ _ => fresh
  · rename_i marked
    exact fun _ yes => absurd yes marked

/-- What the middleware has made sure of when a request goes on to its handler. -/
structure Admitted (mw : Middleware) (req : HttpRequest) (arrival : Nat) (db : Database)
    (row : ClientSession) : Prop where
  session : SessionOf mw req arrival db row
  ranked : Ranked req db row.userId
  stepUp : req.requiresStepUp = true → FreshStepUp arrival row.stepUpConfirmedAt

theorem wp_authenticateRequest : wp (since arrival)
    (returning fun r _ => r = none → ∃ row, Admitted mw req arrival x.conn.committed row)
    (authenticateRequest mw req) x := by
  unfold authenticateRequest
  split
  · exact fun h => nomatch h
  · apply wp_next wp_currentSession
    intro s? y known
    cases s? with
    | none => exact fun h => nomatch h
    | some s =>
      obtain ⟨rfl, row, session, user, stepUp⟩ := known s rfl
      apply wp_next (wp_csrfHolds s)
      intro csrf z same
      subst same
      cases csrf with
      | false => exact fun h => nomatch h
      | true =>
        apply wp_next (wp_roleRefusal s.userId)
        intro refused z h
        obtain ⟨rfl, ranked⟩ := h
        cases refused with
        | some refusal => exact fun h => nomatch h
        | none =>
          apply wp_mono (wp_stepUpRefusal s)
          intro r z fresh
          cases r with
          | error e => trivial
          | ok r =>
            intro passed
            refine ⟨row, session, ?_, ?_⟩
            · rw [← user]
              exact ranked rfl
            · rw [← stepUp]
              exact fresh passed

theorem wp_firstRun : wp (since arrival)
    (returning fun first y => y = x ∧ (first = true →
      req.path = "/api/setup" ∧ req.method = .post ∧
        x.conn.committed.users.countP User.live = 0))
    (firstRun req) x := by
  unfold firstRun
  split
  · rename_i setup
    apply wp_mono wp_rows
    intro r y h
    cases r with
    | error e => trivial
    | ok first =>
      obtain ⟨rfl, rfl⟩ := h
      exact ⟨rfl, fun none' => ⟨setup.1, setup.2, eq_of_beq none'⟩⟩
  · exact ⟨rfl, fun h => nomatch h⟩

theorem wp_middleware (shut : req.isPublicRequest = false) : wp (since arrival)
    (returning fun r _ => r = none →
      (req.path = "/api/setup" ∧ req.method = .post ∧
        x.conn.committed.users.countP User.live = 0) ∨
      ∃ row, Admitted mw req arrival x.conn.committed row)
    (authenticateAndValidateCsrf mw req) x := by
  apply wp_next wp_firstRun
  intro first y h
  obtain ⟨rfl, setup⟩ := h
  cases first with
  | true => exact wp_next (wp_submitsToken) fun _ _ _ _ => .inl (setup rfl)
  | false =>
    simp only [Bool.false_eq_true, if_false, shut]
    apply wp_mono wp_authenticateRequest
    intro r z h
    cases r with
    | error e => trivial
    | ok r => exact fun passed => .inr (h passed)

end Sessions

section Decisions

variable {h : Handler} {mw : Middleware} {values values' : List String} {req : HttpRequest}

/-- The same request with other parameters in its path. -/
theorem Handler.Serves.withPath (serves : h.Serves values req) (count : values'.length = h.params)
    (words : ∀ v ∈ values', Word v) :
    h.Serves values' { req with path := h.path values' } :=
  ⟨serves.method, count, words, rfl⟩

theorem setup_eq {path : String} {x : String} {rest : List String} (t : Tested path x rest) :
    path = "/api/setup" ↔ x = "setup" ∧ rest = [] := by
  have same := t.equal "/api/setup" ["api", "setup"] (by decide) (by decide)
  rw [← beq_iff_eq, same, beq_iff_eq]
  simp

/-- The decision reads nothing of the path but what the tests say of it. -/
theorem decision_path {path : String} (setup : path = "/api/setup" ↔ req.path = "/api/setup")
    (shut : req.isPublicRequest = false)
    (shut' : ({ req with path } : HttpRequest).isPublicRequest = false)
    (superadmin : ({ req with path } : HttpRequest).requiresSuperadmin = req.requiresSuperadmin)
    (admin : ({ req with path } : HttpRequest).requiresAdmin = req.requiresAdmin)
    (stepUp : ({ req with path } : HttpRequest).requiresStepUp = req.requiresStepUp) :
    authenticateAndValidateCsrf mw { req with path } = authenticateAndValidateCsrf mw req := by
  have first : firstRun { req with path } = firstRun req := by
    simp only [firstRun, setup]
  have roles : roleRefusal { req with path } = roleRefusal req := by
    funext userId
    simp only [roleRefusal, superadmin, admin]
  have fresh : stepUpRefusal { req with path } = stepUpRefusal req := by
    funext session
    simp only [stepUpRefusal, stepUp]
  have private' : authenticateRequest mw { req with path } = authenticateRequest mw req := by
    unfold authenticateRequest
    rw [roles, fresh]
    rfl
  unfold authenticateAndValidateCsrf
  rw [first, private', shut, shut']
  rfl

theorem decision_parameters (serves : h.Serves values req) (count : values'.length = h.params)
    (words : ∀ v ∈ values', Word v) (plain : ¬h.endsInWord values)
    (plain' : ¬h.endsInWord values') :
    authenticateAndValidateCsrf mw { req with path := h.path values' } =
      authenticateAndValidateCsrf mw req := by
  obtain ⟨rest, asks⟩ := asked serves
  obtain ⟨rest', asks'⟩ := asked (serves.withPath count words)
  have short : rest' = [] ↔ rest = [] := by
    rw [← List.length_eq_zero_iff, ← List.length_eq_zero_iff, asks'.length, asks.length]
  apply decision_path
  · rw [setup_eq asks'.tested, setup_eq asks.tested, short]
  · exact asks.shut
  · exact asks'.shut
  · rw [asks'.superadmin, asks.superadmin]
  · rw [(asks'.plain plain').1, (asks.plain plain).1]
  · rw [(asks'.plain plain').2, (asks.plain plain).2]

end Decisions

/-- The outside world of a request that arrives at this time. -/
abbrev Arriving (arrival : Nat)
    (env : Nat → Framework.Session Site Query Fault Answer Database → (m : Command) →
      m.Outcome Fault Answer) : Prop :=
  ∀ n x m, (since arrival).allowed x m (env n x m)

theorem arriving_smooth (id : String) : Arriving 0 fun _ _ => smooth id := by
  intro n x m
  cases m with
  | draw q =>
    cases q with
    | now => exact Nat.zero_le _
    | _ => trivial
  | _ => trivial

/-- What the middleware asks of the session behind a request for a handler. -/
structure Handler.Guarded (h : Handler) (values : List String) (arrival : Nat) (db : Database)
    (row : ClientSession) : Prop where
  superadmin : h.mark.rank = .superadmin → db.holdsRole row.userId ["Superadmin"] = true
  admin : h.mark.rank = .admin → h ∉ Handler.uncovered → ¬h.namesStart values →
    db.holdsRole row.userId adminRoles = true
  stepUp : h.mark.stepUp = true → h ≠ .managerRestart → FreshStepUp arrival row.stepUpConfirmedAt

theorem Admitted.guarded {h : Handler} {values : List String} {mw : Middleware}
    {req : HttpRequest} {x : String} {rest : List String} {arrival : Nat} {db : Database}
    {row : ClientSession} (admitted : Admitted mw req arrival db row)
    (asks : Asked h values req x rest) : h.Guarded values arrival db row where
  superadmin := by
    intro rank
    apply admitted.ranked.superadmin
    rw [asks.superadmin, rank]
    rfl
  admin := by
    intro rank covered apart
    apply admitted.ranked.admin
    · rw [asks.superadmin, rank]
      rfl
    · exact asks.admin rank covered apart
  stepUp := fun marked other => admitted.stepUp (asks.stepUp marked other)

theorem setup_handler {h : Handler} {values : List String} {req : HttpRequest} {rest : List String}
    (asks : Asked h values req h.second rest)
    (path : req.path = "/api/setup") : h = .completeSetup := by
  obtain ⟨second, -⟩ := (setup_eq asks.tested).mp path
  revert second
  clear asks
  cases h
  all_goals decide

/-- A request for a handler of the route catalog reaches it with what the catalog asks of its
session, or as the setup of a manager without users, and the parameters of its path do not
matter. -/
theorem marked_handlers_guarded (h : Handler) (mw : Middleware) (values : List String)
    (req : HttpRequest) (serves : h.Serves values req) :
    (∀ arrival env x, Arriving arrival env →
      (run env (authenticateAndValidateCsrf mw req) x).1 = .ok none →
        (h = .completeSetup ∧ x.conn.committed.users.countP User.live = 0) ∨
        ∃ row, SessionOf mw req arrival x.conn.committed row ∧
          h.Guarded values arrival x.conn.committed row) ∧
    ∀ values' : List String, values'.length = h.params → (∀ v ∈ values', Word v) →
      ¬h.endsInWord values → ¬h.endsInWord values' →
        authenticateAndValidateCsrf mw { req with path := h.path values' } =
          authenticateAndValidateCsrf mw req := by
  obtain ⟨rest, asks⟩ := asked serves
  refine ⟨?_, fun values' => decision_parameters serves⟩
  intro arrival env x henv passed
  have decides : wp (since arrival) _ (authenticateAndValidateCsrf mw req) x :=
    wp_middleware asks.shut
  have reached := run_of_wp henv decides
  rw [passed] at reached
  cases reached rfl with
  | inl setup => exact .inl ⟨setup_handler asks setup.1, setup.2.2⟩
  | inr admitted =>
    obtain ⟨row, admitted⟩ := admitted
    exact .inr ⟨row, admitted.session, admitted.guarded asks⟩

/-- One administrator with one session. -/
def oneAdmin : Database where
  users := [⟨"u1", "ada", none, "sec1", .active, 0, none, none, none, 0⟩]
  roles := [⟨"r1", "Admin", none⟩]
  assignments := [{ userId := "u1", roleId := "r1" }]
  clientSessions := [⟨"tok", "u1", none, "::1", 60, none, 0, none, none, 0, none⟩]

def plainMiddleware : Middleware := ⟨⟨id⟩, id⟩

def renameWorld : HttpRequest where
  method := .patch
  path := "/api/worlds/w1"
  sessionCookie := "tok"
  csrfCookie := "tok"
  csrfHeader := "tok"

theorem renameWorld_serves : Handler.updateWorld.Serves ["w1"] renameWorld := by
  refine ⟨rfl, rfl, ?_, rfl⟩
  decide

theorem renameWorld_guarded :
    (run (fun _ _ => smooth "1") (authenticateAndValidateCsrf plainMiddleware renameWorld)
      ⟨.closed oneAdmin, []⟩).1 = .ok none ∧
    ((Handler.updateWorld = .completeSetup ∧ oneAdmin.users.countP User.live = 0) ∨
      ∃ row, SessionOf plainMiddleware renameWorld 0 oneAdmin row ∧
        Handler.updateWorld.Guarded ["w1"] 0 oneAdmin row) := by
  have passed : (run (fun _ _ => smooth "1")
      (authenticateAndValidateCsrf plainMiddleware renameWorld)
      ⟨.closed oneAdmin, []⟩).1 = .ok none := by
    decide +kernel
  refine ⟨passed, ?_⟩
  exact (marked_handlers_guarded .updateWorld plainMiddleware ["w1"] renameWorld
    renameWorld_serves).1 0 _ ⟨.closed oneAdmin, []⟩ (arriving_smooth "1") passed

/-- The first request of a new manager. -/
def firstSetup : HttpRequest where
  method := .post
  path := "/api/setup"
  csrfCookie := "tok"
  csrfHeader := "tok"

theorem setup_unguarded : ¬∀ (h : Handler) (mw : Middleware) (values : List String)
    (req : HttpRequest), h.Serves values req → ∀ arrival env x, Arriving arrival env →
      (run env (authenticateAndValidateCsrf mw req) x).1 = .ok none →
        ∃ row, SessionOf mw req arrival x.conn.committed row ∧
          x.conn.committed.holdsRole row.userId
            (match h.mark.rank with | .admin => adminRoles | .superadmin => ["Superadmin"]) =
              true ∧
          (h.mark.stepUp = true → FreshStepUp arrival row.stepUpConfirmedAt) := by
  intro claimed
  have serves : Handler.completeSetup.Serves [] firstSetup := ⟨rfl, rfl, nofun, rfl⟩
  have passed : (run (fun _ _ => smooth "1")
      (authenticateAndValidateCsrf plainMiddleware firstSetup) ⟨.closed {}, []⟩).1 =
        .ok none := by
    decide +kernel
  obtain ⟨row, session, -⟩ := claimed _ plainMiddleware _ _ serves 0 _ _
    (arriving_smooth "1") passed
  cases session.found

end McManager.Access
