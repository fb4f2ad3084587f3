import McManager.Access.Sequence

namespace McManager.Access

open Framework

instance : LE Moment where
  le a b := a.seconds < b.seconds ∨ a.seconds = b.seconds ∧ (a.beyond = true → b.beyond = true)

theorem Moment.refl (now : Moment) : now ≤ now := .inr ⟨rfl, fun h => h⟩

theorem Moment.trans {a b c : Moment} (h : a ≤ b) (h' : b ≤ c) : a ≤ c := by
  cases h with
  | inl less =>
    cases h' with
    | inl less' => exact .inl (less.trans less')
    | inr same' => exact .inl (same'.1 ▸ less)
  | inr same =>
    cases h' with
    | inl less' => exact .inl (same.1 ▸ less')
    | inr same' => exact .inr ⟨same.1.trans same'.1, fun h => same'.2 (same.2 h)⟩

/-- The calls that begin, confirm, check and end sessions and change their users. -/
inductive SessionCall
  | authenticate (username password : String) (origin : Origin)
  | confirmStepUp (rawToken password : String) (origin : Origin)
  | revokeSessionId (sessionId : String)
  | validateSession (rawToken : String)
  | changePassword (userId newPassword byUserId : String)
  | updateUser (byUserId userId : String) (body : Option Web.Body)
  | deleteUser (byUserId userId : String)

/-- The call, with the session it gives out. -/
def SessionCall.program (svc : AuthenticationService) : SessionCall → Prog (Option Issued)
  | authenticate username password origin =>
    (Authentication.authenticate svc username password origin).bind fun s => .ret (some s)
  | confirmStepUp rawToken password origin =>
    (Authentication.confirmStepUp svc rawToken password origin).bind fun s => .ret (some s)
  | revokeSessionId sessionId =>
    (Authentication.revokeSessionId sessionId).bind fun _ => .ret none
  | validateSession rawToken =>
    (Authentication.validateSession svc rawToken).bind fun _ => .ret none
  | changePassword userId newPassword byUserId =>
    (Authentication.changePassword userId newPassword byUserId).bind fun _ => .ret none
  | updateUser byUserId userId body =>
    (Access.updateUser byUserId userId body).bind fun _ => .ret none
  | deleteUser byUserId userId =>
    (Access.deleteUser byUserId userId).bind fun _ => .ret none

/-- A call that has run, with what it returned and asked and the rows before and after it. -/
structure Deed where
  call : SessionCall
  at' : Moment
  before : Database
  result : Except Exn (Option Issued)
  log : List (Note Site Query Fault Answer)
  after : Database

abbrev Outside := Nat → Alone → (m : Command) → m.Outcome Fault Answer

/-- The outside world of a call at this time. -/
def Calm (now : Moment) (env : Outside) : Prop := ∀ n x m, (calm now).allowed x m (env n x m)

def SessionCall.run (svc : AuthenticationService) (env : Outside) (conn : Connection Database)
    (call : SessionCall) : Except Exn (Option Issued) × Alone :=
  Framework.run env (call.program svc) ⟨conn, []⟩

def SessionCall.deed (svc : AuthenticationService) (env : Outside) (now : Moment)
    (conn : Connection Database) (call : SessionCall) : Deed where
  call := call
  at' := now
  before := conn.committed
  result := (call.run svc env conn).1
  log := (call.run svc env conn).2.log
  after := (call.run svc env conn).2.conn.committed

/-- The calls run one at a time, and the clock goes on between them. -/
inductive History (svc : AuthenticationService) (db : Database) :
    List Deed → Moment → Connection Database → Prop
  | start (now : Moment) : History svc db [] now (.closed db)
  | advance {deeds : List Deed} {now later : Moment} {conn : Connection Database}
      (past : History svc db deeds now conn) (on : now ≤ later) : History svc db deeds later conn
  | call {deeds : List Deed} {now : Moment} {conn : Connection Database}
      (past : History svc db deeds now conn) (call : SessionCall) {env : Outside}
      (world : Calm now env) :
      History svc db (deeds ++ [call.deed svc env now conn]) now (call.run svc env conn).2.conn

/-- `validate_session` and then `require_step_up`. -/
def acceptToken (svc : AuthenticationService) (rawToken : String) : Prog Issued := do
  let session ← Authentication.validateSession svc rawToken
  Authentication.requireStepUp session
  pure session

/-- The call stored the session for the password of its user, which it verified. -/
structure IssuedBy (svc : AuthenticationService) (sessionId userId secretId value : String)
    (e : Deed) : Prop where
  verified : ∃ rawToken password origin stored, e.call = .confirmStepUp rawToken password origin ∧
    .answered (.decrypt value) (.ok stored) ∈ e.log ∧
    .answered (.verify stored password) (.ok true) ∈ e.log
  current : Standing e.before userId secretId value
  unknown : ∀ old ∈ e.before.clientSessions, old.sessionId ≠ sessionId
  given : ∀ i, e.result = .ok (some i) → svc.hashToken i.token = sessionId

/-- The session was confirmed, and nothing has happened to it or to its user since. -/
structure Backed (svc : AuthenticationService) (now : Moment) (s : ClientSession)
    (confirmedAt : Nat) (e : Deed) (since : List Deed) (secretId value : String) : Prop where
  issued : IssuedBy svc s.sessionId s.userId secretId value e
  confirmed : confirmedAt = e.at'.seconds
  past : e.at' ≤ now
  unchanged : ∀ e' ∈ e :: since, s ∈ e'.after.clientSessions ∧
    Standing e'.after s.userId secretId value

structure Sound (svc : AuthenticationService) (deeds : List Deed) (now : Moment)
    (conn : Connection Database) : Prop where
  rests : conn.view = conn.committed
  keyed : (conn.committed.users.map User.userId).Nodup
  stand : SessionsStand conn.committed
  backed : ∀ s ∈ conn.committed.clientSessions, s.live = true → ∀ confirmedAt,
    s.stepUpConfirmedAt = some confirmedAt → ∃ before e since secretId value,
      deeds = before ++ e :: since ∧ Backed svc now s confirmedAt e since secretId value ∧
      Standing conn.committed s.userId secretId value

/-- What a call has begun. -/
structure Begun (svc : AuthenticationService) (call : SessionCall) (now : Moment) (x : Alone)
    (r : Except Exn (Option Issued)) (y : Alone) (row : ClientSession) : Prop where
  rests : y.Rests
  stores : Stores row x.conn.committed y.conn.committed
  standing : ∃ secretId value, Standing x.conn.committed row.userId secretId value
  given : ∀ i, r = .ok (some i) → svc.hashToken i.token = row.sessionId
  confirmed : row.stepUpConfirmedAt = none ∨ ∃ rawToken password origin secretId value,
    call = .confirmStepUp rawToken password origin ∧
    Confirmed x.conn.committed password now y.log row secretId value

variable {svc : AuthenticationService} {now : Moment} {x : Alone}

/-- A call that gives out no session. -/
theorem wp_ending {α : Type} {p : Prog α} {call : SessionCall} (rests : x.Rests)
    (h : Carries (calm now) Ends p) : wp (calm now)
      (fun r y => x.Onto Ends y ∨ ∃ row, Begun svc call now x r y row)
      (p.bind fun _ => .ret none) x := by
  refine wp_seq (h x rests) ?_ ?_
  · exact fun _ _ onto => .inl onto
  · exact fun _ _ onto => .inl onto

/-- A call that gives out the session it stores. -/
theorem wp_beginning {p : Prog Issued} {call : SessionCall}
    {confirmed : Alone → ClientSession → Prop}
    (h : wp (calm now) (fun r y => Outcome svc (confirmed y) x r y) p x)
    (means : ∀ y row, confirmed y row → ∃ rawToken password origin secretId value,
      call = .confirmStepUp rawToken password origin ∧
      Confirmed x.conn.committed password now y.log row secretId value) : wp (calm now)
      (fun r y => x.Onto Ends y ∨ ∃ row, Begun svc call now x r y row)
      (p.bind fun s => .ret (some s)) x := by
  have begun : ∀ {r : Except Exn Issued} {r' : Except Exn (Option Issued)} {y : Alone},
      (∀ i, r' = .ok (some i) → r = .ok i) → Outcome svc (confirmed y) x r y →
        x.Onto Ends y ∨ ∃ row, Begun svc call now x r' y row := by
    intro r r' y same outcome
    cases outcome with
    | inl onto => exact .inl onto
    | inr opened =>
      obtain ⟨userId, row, opened, standing, stepUp⟩ := opened
      rw [← opened.user] at standing
      refine .inr ⟨row, opened.rests, opened.stores, standing, ?_, ?_⟩
      · exact fun i given => opened.given i (same i given)
      · exact stepUp.imp_right (means y row)
  refine wp_seq h ?_ ?_
  · intro s y outcome
    refine begun ?_ outcome
    intro i given
    cases given
    rfl
  · exact fun e y outcome => begun nofun outcome

theorem SessionCall.outcome (call : SessionCall) (rests : x.Rests)
    (keyed : (x.conn.committed.users.map User.userId).Nodup)
    (stand : SessionsStand x.conn.committed) : wp (calm now)
      (fun r y => x.Onto Ends y ∨ ∃ row, Begun svc call now x r y row) (call.program svc) x := by
  cases call with
  | authenticate username password origin =>
    apply wp_beginning (wp_authenticate username password origin rests keyed)
    exact fun _ _ none => none.elim
  | confirmStepUp rawToken password origin =>
    apply wp_beginning (wp_confirmStepUp rawToken password origin rests stand)
    intro y row h
    obtain ⟨secretId, value, confirmed⟩ := h
    exact ⟨rawToken, password, origin, secretId, value, rfl, confirmed⟩
  | revokeSessionId sessionId => exact wp_ending rests (ends_of (gentle_revokeSessionId _))
  | validateSession rawToken => exact wp_ending rests (ends_of (gentle_validateSession _ _))
  | changePassword userId newPassword byUserId =>
    exact wp_ending rests (ends_changePassword _ _ _)
  | updateUser byUserId userId body => exact wp_ending rests (ends_updateUser _ _ _)
  | deleteUser byUserId userId => exact wp_ending rests (ends_deleteUser _ _)

section Run

variable {deeds : List Deed} {conn : Connection Database} {db : Database}

theorem Backed.later {s : ClientSession} {confirmedAt : Nat} {e e' : Deed} {since : List Deed}
    {secretId value : String} (h : Backed svc now s confirmedAt e since secretId value)
    (kept : s ∈ e'.after.clientSessions)
    (standing : Standing e'.after s.userId secretId value) :
    Backed svc now s confirmedAt e (since ++ [e']) secretId value where
  issued := h.issued
  confirmed := h.confirmed
  past := h.past
  unchanged := by
    intro e'' he
    rw [← List.cons_append] at he
    obtain he | he := List.mem_append.mp he
    · exact h.unchanged e'' he
    · rw [List.mem_singleton.mp he]
      exact ⟨kept, standing⟩

theorem Sound.start : Sound svc [] now (.closed db) ↔
    (db.users.map User.userId).Nodup ∧ SessionsStand db ∧
      ∀ s ∈ db.clientSessions, s.live = true → s.stepUpConfirmedAt = none := by
  constructor
  · intro h
    refine ⟨h.keyed, h.stand, ?_⟩
    intro s hs live
    cases stepUp : s.stepUpConfirmedAt with
    | none => rfl
    | some confirmedAt =>
      obtain ⟨before, e, since, _, _, none, -⟩ := h.backed s hs live confirmedAt stepUp
      simp at none
  · intro h
    refine ⟨rfl, h.1, h.2.1, ?_⟩
    intro s hs live confirmedAt stepUp
    rw [h.2.2 s hs live] at stepUp
    cases stepUp

theorem Sound.advance {later : Moment} (h : Sound svc deeds now conn) (on : now ≤ later) :
    Sound svc deeds later conn where
  rests := h.rests
  keyed := h.keyed
  stand := h.stand
  backed := by
    intro s hs live confirmedAt stepUp
    obtain ⟨before, e, since, secretId, value, same, backed, standing⟩ :=
      h.backed s hs live confirmedAt stepUp
    refine ⟨before, e, since, secretId, value, same, ?_, standing⟩
    exact ⟨backed.issued, backed.confirmed, Moment.trans backed.past on, backed.unchanged⟩

theorem Sound.carry {e : Deed} {s : ClientSession} {confirmedAt : Nat}
    (h : Sound svc deeds now conn) (old : s ∈ conn.committed.clientSessions)
    (live : s.live = true) (stepUp : s.stepUpConfirmedAt = some confirmedAt)
    (kept : s ∈ e.after.clientSessions)
    (users : ∀ secretId value, Standing conn.committed s.userId secretId value →
      Standing e.after s.userId secretId value) :
    ∃ before e' since secretId value, deeds ++ [e] = before ++ e' :: since ∧
      Backed svc now s confirmedAt e' since secretId value ∧
      Standing e.after s.userId secretId value := by
  obtain ⟨before, e', since, secretId, value, same, backed, standing⟩ :=
    h.backed s old live confirmedAt stepUp
  have stands := users _ _ standing
  refine ⟨before, e', since ++ [e], secretId, value, ?_, backed.later kept stands, stands⟩
  rw [same, List.append_assoc, List.cons_append]

theorem Sound.call (h : Sound svc deeds now conn) (call : SessionCall) {env : Outside}
    (world : Calm now env) :
    Sound svc (deeds ++ [call.deed svc env now conn]) now (call.run svc env conn).2.conn := by
  have called : wp (calm now) _ (call.program svc) (⟨conn, []⟩ : Alone) :=
    call.outcome h.rests h.keyed h.stand
  have outcome := run_of_wp world called
  change (⟨conn, []⟩ : Alone).Onto Ends (call.run svc env conn).2 ∨ ∃ row,
    Begun svc call now ⟨conn, []⟩ (call.run svc env conn).1 (call.run svc env conn).2 row at outcome
  cases outcome with
  | inl onto =>
    refine ⟨onto.rests, ?_, ?_, ?_⟩
    · rw [onto.rows.ids]
      exact h.keyed
    · intro s hs live
      obtain ⟨secretId, value, standing⟩ := h.stand s (onto.rows.sessions s hs live) live
      exact ⟨secretId, value, onto.rows.users s hs live _ _ standing⟩
    · intro s hs live confirmedAt stepUp
      have old := onto.rows.sessions s hs live
      exact h.carry old live stepUp hs (onto.rows.users s hs live)
  | inr begun =>
    obtain ⟨row, begun⟩ := begun
    refine ⟨begun.rests, ?_, ?_, ?_⟩
    · rw [begun.stores.ids]
      exact h.keyed
    · intro s hs live
      obtain same | old := begun.stores.sessions s hs live
      · obtain ⟨secretId, value, standing⟩ := begun.standing
        rw [same]
        exact ⟨secretId, value, begun.stores.users _ _ _ standing⟩
      · obtain ⟨secretId, value, standing⟩ := h.stand s old live
        exact ⟨secretId, value, begun.stores.users _ _ _ standing⟩
    · intro s hs live confirmedAt stepUp
      obtain same | old := begun.stores.sessions s hs live
      · subst same
        obtain none | ⟨rawToken, password, origin, secretId, value, rfl, confirmed⟩ :=
          begun.confirmed
        · rw [none] at stepUp
          cases stepUp
        · obtain ⟨stored, decrypted, compared⟩ := confirmed.verified
          have stands := begun.stores.users _ _ _ confirmed.standing
          refine ⟨deeds, _, [], secretId, value, rfl, ⟨?_, ?_, Moment.refl now, ?_⟩, stands⟩
          · exact ⟨⟨rawToken, password, origin, stored, rfl, decrypted, compared⟩,
              confirmed.standing, begun.stores.unknown, begun.given⟩
          · exact Option.some.inj (stepUp.symm.trans confirmed.confirmedAt)
          · intro e' he
            rw [List.mem_singleton.mp he]
            exact ⟨hs, stands⟩
      · exact h.carry old live stepUp hs (begun.stores.users _)

theorem History.sound (history : History svc db deeds now conn)
    (keyed : (db.users.map User.userId).Nodup) (empty : db.clientSessions = []) :
    Sound svc deeds now conn := by
  induction history with
  | start now =>
    apply Sound.start.mpr
    refine ⟨keyed, ?_, ?_⟩
    · intro s hs
      rw [empty] at hs
      cases hs
    · intro s hs
      rw [empty] at hs
      cases hs
  | advance past on ih => exact ih.advance on
  | call past call world ih => exact ih.call call world

theorem wp_acceptToken (rawToken : String) (rests : x.Rests) : wp (calm now)
    (fun r _ => ∀ session, r = .ok session → ∃ row ∈ x.conn.committed.clientSessions,
      row.live = true ∧ row.sessionId = svc.hashToken rawToken ∧ row.userId = session.userId ∧
      ∃ confirmedAt, row.stepUpConfirmedAt = some confirmedAt ∧
        now.after (confirmedAt + stepUpWindow) = false)
    (acceptToken svc rawToken) x := by
  refine wp_seq (wp_sessionBehind svc rawToken rests) ?_ fun _ _ _ _ h => nomatch h
  intro session y h
  obtain ⟨-, behind⟩ := h
  obtain ⟨rfl, row, hrow, live, token, user, stepUp⟩ := behind session rfl
  refine wp_seq (P := fun r z => ∀ u, r = .ok u → ∃ confirmedAt,
      session.stepUpConfirmedAt = some confirmedAt ∧
        now.after (confirmedAt + stepUpWindow) = false) ?_ ?_ fun _ _ _ _ h => nomatch h
  · unfold Authentication.requireStepUp
    split
    · exact nofun
    · rename_i confirmedAt known
      apply wp_draw_bind
      intro at' same
      change at' = now at same
      subst same
      split
      · exact nofun
      · rename_i fresh
        intro _ _
        exact ⟨confirmedAt, known, Bool.eq_false_iff.mpr fresh⟩
  · intro _ z h session' same
    cases same
    obtain ⟨confirmedAt, known, fresh⟩ := h _ rfl
    exact ⟨row, hrow, live, token, user.symm, confirmedAt, stepUp.symm.trans known, fresh⟩

/-- In every run of calls one at a time, a token accepted for a step-up was issued by a
confirmation of at most ten minutes ago that verified the password its user had, and neither the
session nor the user or the password has changed since. -/
theorem step_up_sound (svc : AuthenticationService)
    (injective : ∀ a b, svc.hashToken a = svc.hashToken b → a = b)
    (keyed : (db.users.map User.userId).Nodup) (empty : db.clientSessions = [])
    (history : History svc db deeds now conn) {env : Outside} (world : Calm now env)
    {token : String} {session : Issued}
    (accepted : (Framework.run env (acceptToken svc token) ⟨conn, []⟩).1 = .ok session) :
    ∃ before e since secretId value, deeds = before ++ e :: since ∧
      IssuedBy svc (svc.hashToken token) session.userId secretId value e ∧
      (∀ i, e.result = .ok (some i) → i.token = token) ∧
      e.at' ≤ now ∧ now.after (e.at'.seconds + stepUpWindow) = false ∧
      ∀ e' ∈ e :: since, Standing e'.after session.userId secretId value ∧
        ∃ row ∈ e'.after.clientSessions, row.sessionId = svc.hashToken token ∧
          row.userId = session.userId ∧ row.live = true := by
  have sound := history.sound keyed empty
  have accepts : wp (calm now) _ (acceptToken svc token) (⟨conn, []⟩ : Alone) :=
    wp_acceptToken token sound.rests
  have passed := run_of_wp world accepts
  obtain ⟨row, hrow, live, id, user, confirmedAt, stepUp, fresh⟩ := passed session accepted
  obtain ⟨before, e, since, secretId, value, same, backed, -⟩ :=
    sound.backed row hrow live confirmedAt stepUp
  have issued := backed.issued
  have unchanged := backed.unchanged
  rw [id, user] at issued
  rw [backed.confirmed] at fresh
  refine ⟨before, e, since, secretId, value, same, issued, ?_, backed.past, fresh, ?_⟩
  · intro i given
    exact injective _ _ (issued.given i given)
  · intro e' he
    obtain ⟨kept, standing⟩ := unchanged e' he
    rw [user] at standing
    exact ⟨standing, row, kept, id, user, live⟩

end Run

/-- One user with one password and no session. -/
def adaAlone : Database where
  users := [{ userId := "u", username := "ada", secretId := "s" }]
  secrets := [{
    secretId := "s", secretType := .userPassword, encryptedValue := "old"
    associatedEntityType := "user", associatedEntityId := "u", createdAt := 0 }]

def bareTokens : AuthenticationService := ⟨fun token => token⟩

/-- Every id and token of a call is another one. -/
def counting : Outside := fun n _ => smooth (String.ofList (List.replicate n '.'))

theorem calm_counting : Calm ⟨0, false⟩ counting := by
  intro n x m
  cases m with
  | draw q => cases q <;> trivial
  | _ => trivial

def adaLogin : SessionCall := .authenticate "ada" "old" ⟨none, none, ""⟩

def adaStepUp : SessionCall := .confirmStepUp ".............." "old" ⟨none, none, ""⟩

def adaSession : Issued := ⟨"u", "................", 604800, some 0, 0⟩

/-- The connection after a login and a step-up. -/
def adaConn : Connection Database :=
  (adaStepUp.run bareTokens counting
    (adaLogin.run bareTokens counting (.closed adaAlone)).2.conn).2.conn

theorem adaSession_accepted : (Framework.run counting
    (acceptToken bareTokens "................") ⟨adaConn, []⟩).1 = .ok adaSession := by
  decide +kernel

theorem step_up_sound_twice : ∃ deeds, History bareTokens adaAlone deeds ⟨0, false⟩ adaConn ∧
    ∃ before e since secretId value, deeds = before ++ e :: since ∧
      IssuedBy bareTokens (bareTokens.hashToken "................") adaSession.userId secretId
        value e ∧
      (∀ i, e.result = .ok (some i) → i.token = "................") ∧
      e.at' ≤ ⟨0, false⟩ ∧ Moment.after ⟨0, false⟩ (e.at'.seconds + stepUpWindow) = false ∧
      ∀ e' ∈ e :: since, Standing e'.after adaSession.userId secretId value ∧
        ∃ row ∈ e'.after.clientSessions,
          row.sessionId = bareTokens.hashToken "................" ∧
          row.userId = adaSession.userId ∧ row.live = true := by
  have history : History bareTokens adaAlone _ ⟨0, false⟩ adaConn :=
    .call (.call (.start _) adaLogin calm_counting) adaStepUp calm_counting
  exact ⟨_, history, step_up_sound bareTokens (fun _ _ same => same) (by decide) rfl history
    calm_counting adaSession_accepted⟩

end McManager.Access
