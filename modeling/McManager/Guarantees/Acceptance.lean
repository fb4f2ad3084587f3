import McManager.Guarantees.Release
import McManager.Services.EulaCalls

namespace McManager.Worlds

open Framework Operations Script

abbrev EulaWatched := Watched Site Stmt Query Answer Database Exn EulaMark Acceptances

/-- The only edge out of a waiting world is the one of an acceptance. -/
theorem edge_acceptance {state : WorldState} {intent : WorldTransitionIntent}
    (h : Edge .eulaRequired state intent) : state = .eulaRequired ∨ intent = .eulaAcceptance := by
  revert h
  cases state <;> cases intent <;> decide

theorem edge_queued {state : WorldState} {intent : WorldTransitionIntent}
    (h : Edge state .queued intent) : state ≠ .eulaRequired := by
  revert h
  cases state <;> cases intent <;> decide

section Rows

variable {d d' : Database} {n : Nat} {q : EulaMark} {s : Stmt} {worldId : String}

theorem required_withState {a : String} {state : WorldState} {pre : Option WorldState} {now : Int} :
    Required (d.withState a state pre now) worldId ↔
      if worldId = a then (d.world? a).isSome = true ∧ state = .eulaRequired
      else Required d worldId := by
  have row : (d.withState a state pre now).world? worldId = (d.world? worldId).map fun w =>
      if w.worldId == a then w.enter state pre now else w :=
    find?_updateWhere (f := World.enter state pre now) fun _ => rfl
  rw [Required, row]
  cases hw : d.world? worldId with
  | none =>
    split
    · rename_i same
      rw [← same, hw]
      simp
    · simp [Required, hw]
  | some w =>
    have here := worldId_of_world? hw
    split
    · rename_i same
      rw [← same, hw]
      simp [here, same, World.enter]
    · rename_i other
      simp [Required, hw, here, other]

/-- What a statement of a call does to the worlds and to the audit trail. -/
theorem permitted_effect (permits : q.Permits s) (h : Store.apply s d = .ok (d', n)) :
    (d'.worlds = d.worlds ∧ d'.audits = d.audits) ∨
    (∃ row, s = .insertAudit row ∧ d'.worlds = d.worlds ∧ d'.audits = d.audits ++ [row]) ∨
    ∃ a state pre now intent, s = .setWorldState a state pre now intent ∧
      d' = d.withState a state pre now := by
  rw [store_apply] at h
  have same : ∀ {e : Database} {k : Nat}, Except.ok (e, k) = (Except.ok (d', n) : Except Exn _) →
      d' = e := by
    intro e k h
    cases h
    rfl
  cases s with
  | setWorldState a state pre now intent =>
    exact .inr (.inr ⟨a, state, pre, now, intent, rfl, same h⟩)
  | insertAudit row =>
    obtain ⟨-, rfl, -⟩ := satisfying_ok.mp h
    exact .inr (.inl ⟨row, rfl, rfl, rfl⟩)
  | insertOperation row =>
    obtain ⟨-, rfl, -⟩ := satisfying_ok.mp h
    exact .inl ⟨rfl, rfl⟩
  | insertNotification row =>
    obtain ⟨-, rfl, -⟩ := satisfying_ok.mp h
    exact .inl ⟨rfl, rfl⟩
  | insertSession row =>
    obtain ⟨-, rfl, -⟩ := satisfying_ok.mp h
    exact .inl ⟨rfl, rfl⟩
  | insertSecret row =>
    obtain ⟨-, rfl, -⟩ := satisfying_ok.mp h
    exact .inl ⟨rfl, rfl⟩
  | updateOperation opId status checkpoint startedAt finishedAt errorCode message data now =>
    rw [same h]
    exact .inl ⟨rfl, rfl⟩
  | cancelOperation opId now errorCode =>
    rw [same h]
    exact .inl ⟨rfl, rfl⟩
  | closeSessions a now reason =>
    rw [same h]
    exact .inl ⟨rfl, rfl⟩
  | _ => exact permits.elim

theorem required_congr (worlds : d'.worlds = d.worlds) : Required d' worldId ↔ Required d worldId := by
  rw [Required, Required, Database.world?, Database.world?, worlds]

theorem eulaAudited_congr (audits : d'.audits = d.audits) :
    eulaAudited d' worldId = eulaAudited d worldId := by
  rw [eulaAudited, eulaAudited, audits]

/-- An entry of the audit trail is never taken back. -/
theorem permitted_grows (permits : q.Permits s) (h : Store.apply s d = .ok (d', n))
    (audited : eulaAudited d worldId = true) : eulaAudited d' worldId = true := by
  obtain ⟨-, audits⟩ | ⟨row, -, -, audits⟩ | ⟨a, state, pre, now, intent, -, rfl⟩ :=
    permitted_effect permits h
  · rwa [eulaAudited_congr audits]
  · rw [eulaAudited, audits, List.any_append]
    rw [eulaAudited] at audited
    rw [audited, Bool.true_or]
  · exact audited

/-- A new entry is one of a world the call has seen waiting. -/
theorem permitted_audits (permits : q.Permits s) (h : Store.apply s d = .ok (d', n))
    (audited : eulaAudited d' worldId = true) :
    eulaAudited d worldId = true ∨ ∃ db, q.last = some db ∧ Required db worldId := by
  obtain ⟨-, audits⟩ | ⟨row, rfl, -, audits⟩ | ⟨a, state, pre, now, intent, -, rfl⟩ :=
    permitted_effect permits h
  · rw [eulaAudited_congr audits] at audited
    exact .inl audited
  · rw [eulaAudited, audits, List.any_append, Bool.or_eq_true] at audited
    cases audited with
    | inl old => exact .inl old
    | inr new =>
      simp only [List.any_cons, List.any_nil, Bool.or_false, Bool.and_eq_true, beq_iff_eq] at new
      exact .inr (permits new.2 worldId new.1)
  · exact .inl audited

/-- A world that stops waiting has been opened by an acceptance. -/
theorem permitted_opens (permits : q.Permits s) (h : Store.apply s d = .ok (d', n))
    (looked : ∀ db, q.txn = .looked db → d = db) (waits : Required d worldId) :
    Required d' worldId ∨ q.stage.written s = .opening worldId := by
  obtain ⟨worlds, -⟩ | ⟨row, -, worlds, -⟩ | ⟨a, state, pre, now, intent, rfl, rfl⟩ :=
    permitted_effect permits h
  · exact .inl ((required_congr worlds).mpr waits)
  · exact .inl ((required_congr worlds).mpr waits)
  · obtain ⟨-, db, w, saw, hw, edge⟩ := permits
    rw [required_withState]
    split
    · rename_i here
      subst here
      rw [looked db saw, Required, hw] at waits
      rw [Option.some.inj waits] at edge
      obtain stays | accepts := edge_acceptance edge
      · left
        refine ⟨?_, stays⟩
        rw [looked db saw, hw]
        rfl
      · right
        rw [accepts]
        cases q.stage <;> rfl
    · exact .inl waits

theorem EulaStage.written_queued {x : EulaStage} (h : x.written s = .queued worldId) :
    x = .queued worldId ∨
      x = .gated worldId ∧ ∃ pre now intent, s = .setWorldState worldId .queued pre now intent := by
  cases s with
  | setWorldState a state pre now intent =>
    simp only [written] at h
    split at h
    · cases h
    · split at h
      · rename_i here
        cases h
        exact .inr ⟨congrArg _ here, pre, now, intent, rfl⟩
      · cases h
    · exact .inl h
  | updateOperation opId status checkpoint startedAt finishedAt errorCode message data now =>
    simp only [written] at h
    split at h
    · cases h
    · cases h
    · exact .inl h
  | _ => exact .inl h

/-- The queued state is entered behind the gate, and not by a world that waits. -/
theorem permitted_queues (permits : q.Permits s) (looked : ∀ db, q.txn = .looked db → d = db)
    (queued : q.stage.written s = .queued worldId) :
    q.stage = .queued worldId ∨ q.stage = .gated worldId ∧ q.txn.Open ∧ ¬Required d worldId := by
  obtain still | ⟨gated, pre, now, intent, rfl⟩ := EulaStage.written_queued queued
  · exact .inl still
  · right
    obtain ⟨-, db, w, saw, hw, edge⟩ := permits
    refine ⟨gated, by rw [saw]; exact trivial, ?_⟩
    intro waits
    rw [looked db saw, Required, hw] at waits
    exact edge_queued edge (Option.some.inj waits)

/-- A world is opened from a plain stage. -/
theorem permitted_opening (permits : q.Permits s) (opening : q.stage = .opening worldId) :
    q.stage.written s = .opening worldId := by
  cases s with
  | setWorldState a state pre now intent =>
    have plain := permits.1
    rw [opening] at plain
    cases plain
  | updateOperation opId status checkpoint startedAt finishedAt errorCode message data now =>
    rw [opening]
    cases status <;> rfl
  | _ => exact opening

theorem permitted_gated (gated : q.stage.written s = .gated worldId) : q.stage = .gated worldId := by
  cases s with
  | setWorldState a state pre now intent =>
    simp only [EulaStage.written] at gated
    split at gated
    · cases gated
    · split at gated
      · cases gated
      · exact gated
    · exact gated
  | updateOperation opId status checkpoint startedAt finishedAt errorCode message data now =>
    simp only [EulaStage.written] at gated
    split at gated
    · cases gated
    · cases gated
    · exact gated
  | _ => exact gated

/-- No statement begins or ends the window of an acceptance. -/
theorem permitted_window (permits : q.Permits s) :
    (q.stage.written s).inWindow worldId = q.stage.inWindow worldId := by
  cases s with
  | setWorldState a state pre now intent =>
    have plain := permits.1
    have before : q.stage.inWindow worldId = false := by
      cases hx : q.stage <;> first | rfl | (rw [hx] at plain; cases plain)
    rw [before]
    simp only [EulaStage.written]
    split
    · rfl
    · split
      · rfl
      · exact before
    · exact before
  | updateOperation opId status checkpoint startedAt finishedAt errorCode message data now =>
    simp only [EulaStage.written]
    split
    · rename_i at'
      rw [at']
      rfl
    · rename_i at'
      rw [at']
      rfl
    · rfl
  | _ => rfl

end Rows

namespace EulaStage

variable {x : EulaStage} {worldId : String}

/-- A start before it has queued its world. -/
def early : EulaStage → Bool
  | .running | .context _ _ | .read _ | .gated _ => true
  | _ => false

/-- A stage that lasts until the transaction of the call ends. -/
def inside : EulaStage → Bool
  | .runs | .opening _ | .closing _ => true
  | _ => false

theorem told_read (x : EulaStage) (t : Site) (d : Database) :
    x.told (.read t : EulaCommand) d = x ∨ x.early = true ∧
      ∃ w, x.told (.read t : EulaCommand) d = .gated w ∧ eulaAudited d w = true := by
  cases t with
  | launchRead =>
    cases x with
    | read w =>
      by_cases audited : eulaAudited d w = true
      · exact .inr ⟨rfl, w, if_pos audited, audited⟩
      · exact .inl (if_neg audited)
    | _ => exact .inl rfl
  | _ => exact .inl rfl

theorem told_ask (x : EulaStage) (d : Query) (a : Answer d) :
    x.told (.ask d : EulaCommand) a = x ∨ x.early = true ∧
      (x.told (.ask d : EulaCommand) a).early = true ∧
        ∀ w, x.told (.ask d : EulaCommand) a ≠ .gated w := by
  cases d with
  | launchContext w java =>
    cases x with
    | running => exact .inr ⟨rfl, rfl, fun _ same => nomatch same⟩
    | _ => exact .inl rfl
  | detectEula dir =>
    cases x with
    | context w here =>
      by_cases accepted : here = dir ∧ a = .accepted
      · have told : (context w here).told (.ask (.detectEula dir) : EulaCommand) a = .read w :=
          if_pos accepted
        rw [told]
        exact .inr ⟨rfl, rfl, fun _ same => nomatch same⟩
      · exact .inl (if_neg accepted)
    | _ => exact .inl rfl
  | _ => exact .inl rfl

/-- What a command that writes nothing does to the stage. -/
theorem next_looks (x : EulaStage) (c : Connection Database) {m : EulaCommand} (looks : m.Looks)
    (o : m.Outcome Fault Answer) {x' : EulaStage} (h : x.next m (c.act m o).1 = x') :
    x' = x ∨ (∃ e, (c.act m o).1 = .error e) ∧ x' = x.failed ∨
      x.early = true ∧ x'.early = true ∧ ∀ w, x' = .gated w → eulaAudited c.committed w = true := by
  cases m with
  | begin t =>
    cases hr : (c.act (.begin t : EulaCommand) o).1 with
    | ok a =>
      rw [hr] at h
      exact .inl h.symm
    | error e =>
      rw [hr] at h
      exact .inr (.inl ⟨⟨e, rfl⟩, h.symm⟩)
  | select t =>
    cases o with
    | none => exact .inl h.symm
    | some φ => exact .inr (.inl ⟨⟨_, rfl⟩, h.symm⟩)
  | read t =>
    cases o with
    | none =>
      subst h
      obtain same | ⟨early, w, gated, audited⟩ := x.told_read t c.committed
      · exact .inl same
      · right
        right
        refine ⟨early, ?_, ?_⟩
        · change (x.told (.read t : EulaCommand) c.committed).early = true
          rw [gated]
          rfl
        · intro w' same
          have here := gated.symm.trans same
          cases here
          exact audited
    | some φ => exact .inr (.inl ⟨⟨_, rfl⟩, h.symm⟩)
  | ask d =>
    cases o with
    | ok a =>
      subst h
      obtain same | ⟨early, next, ungated⟩ := x.told_ask d a
      · exact .inl same
      · exact .inr (.inr ⟨early, next, fun w gated => absurd gated (ungated w)⟩)
    | error φ => exact .inr (.inl ⟨⟨_, rfl⟩, h.symm⟩)
  | draw d => exact .inl h.symm
  | execute t s => exact looks.elim
  | commit t => exact looks.elim
  | rollback => exact looks.elim

theorem inWindow_of_early (h : x.early = true) : x.inWindow worldId = false := by
  cases x <;> first | rfl | cases h

theorem inWindow_of_plain (h : x.plain = true) : x.inWindow worldId = false := by
  cases x <;> first | rfl | cases h

/-- Only a call in its window fails with it. -/
theorem failed_outside (h : ∀ w, x.inWindow w = false) : x.failed = x := by
  cases x with
  | opened w =>
    have here := h w
    simp [inWindow] at here
  | closing w =>
    have here := h w
    simp [inWindow] at here
  | _ => rfl

theorem inside_failed (h : x.failed.inside = true) : x.inside = true := by
  cases x <;> first | rfl | cases h

theorem inside_committed (x : EulaStage) : x.committed.inside = false := by
  cases x <;> rfl

theorem inside_rolledBack (x : EulaStage) : x.rolledBack.inside = false := by
  cases x <;> rfl

theorem inside_early (h : x.early = true) : x.inside = false := by
  cases x <;> first | rfl | cases h

end EulaStage

namespace EulaMark

variable {q : EulaMark} {s : Stmt} {worldId : String}

theorem txn_next (q : EulaMark) (m : EulaCommand) (r : Except Exn (m.Reply Database Answer)) :
    (q.next m r).txn = q.txn.next m r := rfl

/-- A statement that leads into a transaction is run in one. -/
theorem inside_written (permits : q.Permits s) (h : q.stage.inside = true → q.txn.Open)
    (inside : (q.stage.written s).inside = true) : q.txn.Open := by
  cases s with
  | setWorldState a state pre now intent =>
    obtain ⟨-, db, -, saw, -⟩ := permits
    rw [saw]
    exact trivial
  | updateOperation opId status checkpoint startedAt finishedAt errorCode message data now =>
    exact permits.1
  | _ => exact h inside

/-- The stages between a statement and its commit belong to an open transaction. -/
theorem inside_next {c : Connection Database} {m : EulaCommand} {o : m.Outcome Fault Answer}
    (allowed : q.Allows m) (h : q.stage.inside = true → q.txn.Open)
    (inside : (q.next m (c.act m o).1).stage.inside = true) :
    (q.next m (c.act m o).1).txn.Open := by
  by_cases looks : m.Looks
  · have opened : q.txn.Open := by
      obtain same | ⟨-, same⟩ | ⟨-, early, -⟩ := q.stage.next_looks c looks o rfl
      · exact h (same ▸ inside)
      · exact h (EulaStage.inside_failed (same ▸ inside))
      · have none' := EulaStage.inside_early early
        rw [show (q.next m (c.act m o).1).stage.inside = false from none'] at inside
        cases inside
    apply Txn.open_stays opened
    constructor
    · rintro t rfl
      exact looks.elim
    · rintro rfl
      exact looks.elim
  · generalize (c.act m o).1 = r at inside ⊢
    cases m with
    | execute t s =>
      have opened : q.txn.Open := by
        cases r with
        | ok n => exact inside_written allowed h inside
        | error e => exact h (EulaStage.inside_failed inside)
      exact Txn.open_stays opened ⟨fun _ same => (nomatch same), fun same => (nomatch same)⟩
    | commit t =>
      cases r with
      | ok a =>
        rw [show (q.next (.commit t : EulaCommand) (.ok a)).stage.inside = false from
          EulaStage.inside_committed _] at inside
        cases inside
      | error e =>
        rw [txn_next]
        exact Txn.open_refused (h (EulaStage.inside_failed inside)) fun same => (nomatch same)
    | rollback =>
      have none' : (q.next (.rollback : EulaCommand) r).stage.inside = false := by
        cases r <;> exact EulaStage.inside_rolledBack _
      rw [none'] at inside
      cases inside
    | _ => exact absurd trivial looks

end EulaMark

/-- Starts and acceptances come in, whatever their arguments are. -/
def Requests : ServerMove → Prop
  | .invoke p => (∃ svc worldId actorType actorUserId allow operationId,
      p = (start svc worldId actorType actorUserId allow operationId).bind fun _ => .ret ()) ∨
    ∃ svc worldId actorUserId accepted,
      p = (acceptEula svc worldId actorUserId accepted).bind fun _ => .ret ()
  | _ => True

/-- An acceptance whose state is committed goes on until its operation is committed as
completed. -/
def Unbroken (x : EulaWatched) : ServerMove → Prop
  | .act i o => ∀ q m w, x.marks[i]? = some q → x.system.next i = some m →
    q.stage.inWindow w = true → m ≠ .rollback ∧ ∃ a, (x.system.conn.act m (o m)).1 = .ok a
  | .crash => ∀ q ∈ x.marks, ∀ w, q.stage.inWindow w = false
  | .invoke _ => True

/-- No process of a world starts while an acceptance of it stands between these two commits,
unless an earlier one has completed. -/
def Clear (x : EulaWatched) : ServerMove → Prop
  | .act i _ => ∀ w argv cwd sessionId, x.system.next i = some (.ask (.spawn w argv cwd sessionId)) →
    w ∈ x.tally.completed ∨ ∀ q ∈ x.marks, q.stage.inWindow w = false
  | _ => True

structure Undisturbed (x : EulaWatched) (m : ServerMove) : Prop where
  requests : Requests m
  alone : Watched.Alone EulaMark.txn x m
  unbroken : Unbroken x m
  clear : Clear x m

/-- The invariant of undisturbed runs. -/
structure Consent (x : EulaWatched) : Prop where
  exclusive : Watched.Exclusive EulaMark.txn x
  inside : ∀ q ∈ x.marks, q.stage.inside = true → q.txn.Open
  kept : ∀ w, Required x.system.conn.committed w → Required x.system.conn.view w ∨
    ∃ i : Nat, ∃ q : EulaMark, x.marks[i]? = some q ∧ q.stage = .opening w
  audited : ∀ w, eulaAudited x.system.conn.view w = true →
    w ∈ x.tally.opened ∨ Required x.system.conn.committed w
  grown : ∀ w, eulaAudited x.system.conn.committed w = true →
    eulaAudited x.system.conn.view w = true
  seen : ∀ q ∈ x.marks, ∀ d w, q.last = some d → Required d w →
    w ∈ x.tally.opened ∨ Required x.system.conn.committed w
  gated : ∀ q ∈ x.marks, ∀ w, q.stage = .gated w →
    eulaAudited x.system.conn.committed w = true
  queued : ∀ q ∈ x.marks, ∀ w, q.stage = .queued w → w ∈ x.tally.opened
  balance : ∀ w, x.tally.opened.count w =
    x.tally.completed.count w + x.marks.countP fun q => q.stage.inWindow w

section Steps

variable {x x' : EulaWatched} {i : Nat} {q : EulaMark}

theorem mem_marks {q' p : EulaMark} (marks : x'.marks = x.marks.set i q') (hp : p ∈ x'.marks) :
    p = q' ∨ p ∈ x.marks := by
  rw [marks] at hp
  obtain old | new := List.mem_or_eq_of_mem_set hp
  · exact .inr old
  · exact .inl new

/-- A step that leaves the rows and the tally as they are and may move one call on. -/
theorem Consent.still (h : Consent x) {q' : EulaMark} (was : x.marks[i]? = some q)
    (marks : x'.marks = x.marks.set i q') (exclusive : Watched.Exclusive EulaMark.txn x')
    (inside : q'.stage.inside = true → q'.txn.Open)
    (committed : x'.system.conn.committed = x.system.conn.committed)
    (view : x'.system.conn.view = x.system.conn.view) (tally : x'.tally = x.tally)
    (last : q'.last = q.last ∨ q'.last = some x.system.conn.committed)
    (stage : q'.stage = q.stage ∨ q.stage.early = true ∧ q'.stage.early = true ∧
      ∀ w, q'.stage = .gated w → eulaAudited x.system.conn.committed w = true) : Consent x' := by
  have hq : q ∈ x.marks := List.mem_of_getElem? was
  constructor
  · exact exclusive
  · intro p hp
    obtain rfl | old := mem_marks marks hp
    · exact inside
    · exact h.inside p old
  · intro w waits
    rw [committed] at waits
    rw [view]
    obtain here | ⟨j, p, hj, opening⟩ := h.kept w waits
    · exact .inl here
    · right
      by_cases own : j = i
      · subst own
        rw [was] at hj
        cases hj
        refine ⟨j, q', ?_, ?_⟩
        · rw [marks, List.getElem?_set_self (List.getElem?_eq_some_iff.mp was).1]
        · obtain same | ⟨early, -, -⟩ := stage
          · rw [same, opening]
          · rw [opening] at early
            cases early
      · refine ⟨j, p, ?_, opening⟩
        rw [marks, List.getElem?_set_ne (Ne.symm own)]
        exact hj
  · intro w
    rw [committed, view, tally]
    exact h.audited w
  · intro w
    rw [committed, view]
    exact h.grown w
  · intro p hp d w hd waits
    rw [tally, committed]
    obtain rfl | old := mem_marks marks hp
    · obtain same | read := last
      · exact h.seen q hq d w (same ▸ hd) waits
      · rw [read] at hd
        cases hd
        exact .inr waits
    · exact h.seen p old d w hd waits
  · intro p hp w gated
    rw [committed]
    obtain rfl | old := mem_marks marks hp
    · obtain same | ⟨-, -, audited⟩ := stage
      · exact h.gated q hq w (same ▸ gated)
      · exact audited w gated
    · exact h.gated p old w gated
  · intro p hp w queued
    rw [tally]
    obtain rfl | old := mem_marks marks hp
    · obtain same | ⟨-, early, -⟩ := stage
      · exact h.queued q hq w (same ▸ queued)
      · rw [queued] at early
        cases early
    · exact h.queued p old w queued
  · intro w
    have window : q'.stage.inWindow w = q.stage.inWindow w := by
      obtain same | ⟨early, early', -⟩ := stage
      · rw [same]
      · rw [EulaStage.inWindow_of_early early, EulaStage.inWindow_of_early early']
    have count := countP_set (p := fun q : EulaMark => q.stage.inWindow w) (b := q') was
    rw [window] at count
    rw [tally, marks, h.balance w]
    omega

/-- A statement that goes through. -/
theorem Consent.executed (h : Consent x) {t : Site} {s : Stmt} {d : Database} {n : Nat}
    (was : x.marks[i]? = some q) (permits : q.Permits s)
    (marks : x'.marks = x.marks.set i (q.next (.execute t s) (.ok n)))
    (exclusive : Watched.Exclusive EulaMark.txn x')
    (inside : (q.next (.execute t s) (.ok n)).stage.inside = true →
      (q.next (.execute t s) (.ok n)).txn.Open)
    (applied : Store.apply s x.system.conn.view = .ok (d, n))
    (committed : x'.system.conn.committed = x.system.conn.committed)
    (view : x'.system.conn.view = d) (tally : x'.tally = x.tally) : Consent x' := by
  have hq : q ∈ x.marks := List.mem_of_getElem? was
  have hi := (List.getElem?_eq_some_iff.mp was).1
  have looked : ∀ db, q.txn = .looked db → x.system.conn.view = db :=
    fun db => h.exclusive.looked i q db was
  constructor
  · exact exclusive
  · intro p hp
    obtain rfl | old := mem_marks marks hp
    · exact inside
    · exact h.inside p old
  · intro w waits
    rw [committed] at waits
    rw [view, marks]
    obtain here | ⟨j, p, hj, opening⟩ := h.kept w waits
    · obtain stays | opens := permitted_opens permits applied looked here
      · exact .inl stays
      · exact .inr ⟨i, _, List.getElem?_set_self hi, opens⟩
    · right
      by_cases own : j = i
      · subst own
        rw [was] at hj
        cases hj
        exact ⟨j, _, List.getElem?_set_self hi, permitted_opening permits opening⟩
      · refine ⟨j, p, ?_, opening⟩
        rw [List.getElem?_set_ne (Ne.symm own)]
        exact hj
  · intro w audited
    rw [tally, committed]
    rw [view] at audited
    obtain old | ⟨db, last, waits⟩ := permitted_audits permits applied audited
    · exact h.audited w old
    · exact h.seen q hq db w last waits
  · intro w audited
    rw [view]
    rw [committed] at audited
    exact permitted_grows permits applied (h.grown w audited)
  · intro p hp d w hd waits
    rw [tally, committed]
    obtain rfl | old := mem_marks marks hp
    · exact h.seen q hq d w hd waits
    · exact h.seen p old d w hd waits
  · intro p hp w gated
    rw [committed]
    obtain rfl | old := mem_marks marks hp
    · exact h.gated q hq w (permitted_gated gated)
    · exact h.gated p old w gated
  · intro p hp w queued
    rw [tally]
    obtain rfl | old := mem_marks marks hp
    · obtain still | ⟨gated, opened, gone⟩ := permitted_queues permits looked queued
      · exact h.queued q hq w still
      · obtain here | waits := h.audited w (h.grown w (h.gated q hq w gated))
        · exact here
        · exfalso
          obtain here | ⟨j, p, hj, opening⟩ := h.kept w waits
          · exact gone here
          · -- The world is being opened, but then by this very call.
            have hold := h.inside p (List.mem_of_getElem? hj) (by rw [opening]; rfl)
            obtain rfl := h.exclusive.one i j q p was hj opened hold
            rw [was] at hj
            cases hj
            rw [gated] at opening
            cases opening
    · exact h.queued p old w queued
  · intro w
    have window : (q.next (.execute t s : EulaCommand) (.ok n)).stage.inWindow w =
        q.stage.inWindow w := permitted_window permits
    have count := countP_set (p := fun q : EulaMark => q.stage.inWindow w)
      (b := q.next (.execute t s) (.ok n)) was
    rw [window] at count
    rw [tally, marks, h.balance w]
    omega

theorem EulaStage.committed_gated {x : EulaStage} {w : String} (h : x.committed = .gated w) :
    x = .gated w := by
  cases x <;> first | exact h | cases h

theorem EulaStage.committed_queued {x : EulaStage} {w : String} (h : x.committed = .queued w) :
    x = .queued w := by
  cases x <;> first | exact h | cases h

theorem EulaStage.rolledBack_gated {x : EulaStage} {w : String} (h : x.rolledBack = .gated w) :
    x = .gated w := by
  cases x <;> first | exact h | cases h

theorem EulaStage.rolledBack_queued {x : EulaStage} {w : String} (h : x.rolledBack = .queued w) :
    x = .queued w := by
  cases x <;> first | exact h | cases h

/-- A commit that goes through. -/
theorem Consent.commits (h : Consent x) {t : Site} (was : x.marks[i]? = some q)
    (marks : x'.marks = x.marks.set i (q.next (.commit t) (.ok ())))
    (exclusive : Watched.Exclusive EulaMark.txn x')
    (alone : ∀ (j : Nat) (p : EulaMark), x.marks[j]? = some p → p.txn.Open → j = i)
    (committed : x'.system.conn.committed = x.system.conn.view)
    (view : x'.system.conn.view = x.system.conn.view)
    (tally : x'.tally = x.tally.count q (.commit t) (.ok ())) : Consent x' := by
  have hq : q ∈ x.marks := List.mem_of_getElem? was
  have grows : ∀ w, w ∈ x.tally.opened → w ∈ x'.tally.opened := by
    intro w hw
    rw [tally]
    simp only [Acceptances.count]
    split
    · exact List.mem_append_left _ hw
    · exact hw
    · exact hw
  -- A world that waited still does, or this commit has opened it.
  have opens : ∀ w, w ∈ x.tally.opened ∨ Required x.system.conn.committed w →
      w ∈ x'.tally.opened ∨ Required x'.system.conn.committed w := by
    intro w hw
    obtain here | waits := hw
    · exact .inl (grows w here)
    · rw [committed]
      obtain here | ⟨j, p, hj, opening⟩ := h.kept w waits
      · exact .inr here
      · left
        have hold := h.inside p (List.mem_of_getElem? hj) (by rw [opening]; rfl)
        obtain rfl := alone j p hj hold
        rw [was] at hj
        cases hj
        rw [tally]
        simp only [Acceptances.count, opening]
        exact List.mem_append_right _ (List.mem_singleton_self w)
  constructor
  · exact exclusive
  · intro p hp inside
    obtain rfl | old := mem_marks marks hp
    · rw [show (q.next (.commit t : EulaCommand) (.ok ())).stage.inside = false from
        EulaStage.inside_committed _] at inside
      cases inside
    · exact h.inside p old inside
  · intro w waits
    rw [view, ← committed]
    exact .inl waits
  · intro w audited
    rw [view] at audited
    exact opens w (h.audited w audited)
  · intro w audited
    rw [view, ← committed]
    exact audited
  · intro p hp d w hd waits
    obtain rfl | old := mem_marks marks hp
    · exact opens w (h.seen q hq d w hd waits)
    · exact opens w (h.seen p old d w hd waits)
  · intro p hp w gated
    rw [committed]
    obtain rfl | old := mem_marks marks hp
    · exact h.grown w (h.gated q hq w (EulaStage.committed_gated gated))
    · exact h.grown w (h.gated p old w gated)
  · intro p hp w queued
    obtain rfl | old := mem_marks marks hp
    · exact grows w (h.queued q hq w (EulaStage.committed_queued queued))
    · exact grows w (h.queued p old w queued)
  · intro w
    have count := countP_set (p := fun q : EulaMark => q.stage.inWindow w)
      (b := q.next (.commit t) (.ok ())) was
    have before := h.balance w
    have single : ∀ a : String, [a].count w = (a == w).toNat := by
      intro a
      rw [List.count_singleton]
      cases a == w <;> rfl
    rw [tally, marks]
    have next : (q.next (.commit t : EulaCommand) (.ok ())).stage = q.stage.committed := rfl
    rw [next] at count
    cases hx : q.stage with
    | opening a =>
      have old : q.stage.inWindow w = false := by rw [hx]; rfl
      have new : q.stage.committed.inWindow w = (a == w) := by rw [hx]; rfl
      rw [old, new, Bool.toNat_false] at count
      simp only [Acceptances.count, hx, List.count_append, single]
      omega
    | closing a =>
      have old : q.stage.inWindow w = (a == w) := by rw [hx]; rfl
      have new : q.stage.committed.inWindow w = false := by rw [hx]; rfl
      rw [old, new, Bool.toNat_false] at count
      simp only [Acceptances.count, hx, List.count_append, single]
      omega
    | _ =>
      have same : q.stage.committed.inWindow w = q.stage.inWindow w := by rw [hx]; rfl
      rw [same] at count
      simp only [Acceptances.count, hx]
      omega

/-- A rollback outside the window of an acceptance. -/
theorem Consent.rollback (h : Consent x) {r : Except Exn Unit} (was : x.marks[i]? = some q)
    (marks : x'.marks = x.marks.set i (q.next .rollback r))
    (exclusive : Watched.Exclusive EulaMark.txn x')
    (unbroken : ∀ w, q.stage.inWindow w = false)
    (committed : x'.system.conn.committed = x.system.conn.committed)
    (view : x'.system.conn.view = x.system.conn.committed) (tally : x'.tally = x.tally) :
    Consent x' := by
  have hq : q ∈ x.marks := List.mem_of_getElem? was
  have stage : (q.next (.rollback : EulaCommand) r).stage = q.stage.rolledBack := by
    cases r <;> rfl
  constructor
  · exact exclusive
  · intro p hp inside
    obtain rfl | old := mem_marks marks hp
    · rw [stage, EulaStage.inside_rolledBack] at inside
      cases inside
    · exact h.inside p old inside
  · intro w waits
    rw [view, ← committed]
    exact .inl waits
  · intro w audited
    rw [view] at audited
    rw [tally, committed]
    exact h.audited w (h.grown w audited)
  · intro w audited
    rw [view, ← committed]
    exact audited
  · intro p hp d w hd waits
    rw [tally, committed]
    obtain rfl | old := mem_marks marks hp
    · have last : (q.next (.rollback : EulaCommand) r).last = q.last := by
        cases r <;> rfl
      exact h.seen q hq d w (last ▸ hd) waits
    · exact h.seen p old d w hd waits
  · intro p hp w gated
    rw [committed]
    obtain rfl | old := mem_marks marks hp
    · rw [stage] at gated
      exact h.gated q hq w (EulaStage.rolledBack_gated gated)
    · exact h.gated p old w gated
  · intro p hp w queued
    rw [tally]
    obtain rfl | old := mem_marks marks hp
    · rw [stage] at queued
      exact h.queued q hq w (EulaStage.rolledBack_queued queued)
    · exact h.queued p old w queued
  · intro w
    have count := countP_set (p := fun q : EulaMark => q.stage.inWindow w)
      (b := q.next .rollback r) was
    rw [stage, EulaStage.inWindow_of_plain (EulaStage.rolledBack_plain _), unbroken w] at count
    rw [tally, marks, h.balance w]
    omega

theorem Acceptances.count_of_ne (tally : Acceptances) (q : EulaMark) {m : EulaCommand}
    (r : Except Exn (m.Reply Database Answer)) (other : ∀ t, m ≠ .commit t) :
    tally.count q m r = tally := by
  cases m with
  | commit t => exact absurd rfl (other t)
  | _ => cases r <;> rfl

theorem EulaMark.lastAfter_act (last : Option Database) (c : Connection Database)
    (m : EulaCommand) (o : m.Outcome Fault Answer) :
    EulaMark.lastAfter last m (c.act m o).1 = last ∨
      EulaMark.lastAfter last m (c.act m o).1 = some c.committed := by
  cases m with
  | read t =>
    cases o with
    | none => cases t <;> first | exact .inl rfl | exact .inr rfl
    | some φ => cases t <;> exact .inl rfl
  | _ =>
    left
    generalize (c.act _ o).1 = r
    cases r <;> rfl

theorem eula_tracks : Watched.Tracks eula EulaMark.txn := ⟨rfl, fun _ _ _ => rfl⟩

theorem Consent.acted (h : Consent x) {m : EulaCommand} {o : m.Outcome Fault Answer}
    (acted : Watched.Acted eula x x' i q m o)
    (alone : m.onWriter → ∀ (j : Nat) (p : EulaMark), x.marks[j]? = some p → p.txn.Open → j = i)
    (unbroken : ∀ w, q.stage.inWindow w = true →
      m ≠ .rollback ∧ ∃ a, (x.system.conn.act m o).1 = .ok a) : Consent x' := by
  have was := acted.was.1
  have marks := acted.marks
  have exclusive := h.exclusive.acted eula_tracks acted alone
  have inside := EulaMark.inside_next (c := x.system.conn) (o := o) acted.allowed
    (h.inside q (List.mem_of_getElem? was))
  -- A call that is refused is not in its window, and stays where it is.
  have refused : ∀ e, (x.system.conn.act m o).1 = .error e → q.stage.failed = q.stage := by
    intro e he
    apply EulaStage.failed_outside
    intro w
    rw [← Bool.not_eq_true]
    intro window
    obtain ⟨-, a, ok⟩ := unbroken w window
    rw [he] at ok
    cases ok
  have tally : (∀ t, m ≠ .commit t) → x'.tally = x.tally := by
    intro other
    rw [acted.tally]
    exact Acceptances.count_of_ne x.tally q _ other
  by_cases looks : m.Looks
  · have same := x.system.conn.act_looks looks o
    have tally := tally (by rintro t rfl; exact looks.elim)
    rw [← acted.conn] at same
    apply h.still was marks exclusive inside same.1 same.2 tally
    · exact EulaMark.lastAfter_act q.last x.system.conn m o
    · obtain same | ⟨⟨e, he⟩, failed⟩ | early := q.stage.next_looks x.system.conn looks o rfl
      · exact .inl same
      · exact .inl (failed.trans (refused e he))
      · exact .inr early
  · cases m with
    | execute t s =>
      have tally := tally fun _ same => nomatch same
      obtain ⟨e, he⟩ | ⟨d, n, -, applied, ran⟩ :=
        (x.system.conn.act_execute (A := Answer) t s o : (∃ e : Exn, _) ∨ _)
      · have conn := acted.conn
        rw [he] at conn marks inside
        apply h.still was marks exclusive inside
        · rw [conn]
          rfl
        · rw [conn]
          rfl
        · exact tally
        · exact .inl rfl
        · exact .inl (refused e (by rw [he]))
      · have conn := acted.conn
        rw [ran] at conn marks inside
        apply h.executed was acted.allowed marks exclusive inside applied
        · rw [conn]
        · rw [conn]
          rfl
        · exact tally
    | commit t =>
      cases o with
      | none =>
        apply h.commits was marks exclusive (alone trivial)
        · rw [acted.conn]
          rfl
        · rw [acted.conn]
          rfl
        · exact acted.tally
      | some φ =>
        apply h.still was marks exclusive inside
        · rw [acted.conn]
          rfl
        · rw [acted.conn]
          rfl
        · exact acted.tally
        · exact .inl rfl
        · exact .inl (refused _ rfl)
    | rollback =>
      apply h.rollback was marks exclusive
      · intro w
        rw [← Bool.not_eq_true]
        exact fun window => (unbroken w window).1 rfl
      · rw [acted.conn]
        rfl
      · rw [acted.conn]
        rfl
      · exact tally fun _ same => nomatch same
    | _ => exact absurd trivial looks

/-- Every undisturbed step keeps the invariant. -/
theorem Consent.step (h : Consent x) {m : ServerMove} (sound : Watched.Sound eula x)
    (ok : Undisturbed x m) : Consent (x.step eula m) := by
  cases m with
  | act i o =>
    obtain same | ⟨q, m, acted, -⟩ := sound.acted i o
    · rw [same]
      exact h
    · apply h.acted acted (ok.alone m acted.next)
      exact fun w => ok.unbroken q m w acted.was.1 acted.next
  | crash =>
    have exclusive := h.exclusive.step eula_tracks sound ok.alone
    refine ⟨exclusive, fun _ hp => (nomatch hp), fun _ waits => .inl waits, ?_, fun _ here => here,
      fun _ hp => (nomatch hp), fun _ hp => (nomatch hp), fun _ hp => (nomatch hp), ?_⟩
    · exact fun w audited => h.audited w (h.grown w audited)
    · intro w
      have none' : x.marks.countP (fun q => q.stage.inWindow w) = 0 := by
        rw [List.countP_eq_zero]
        intro q hq
        rw [ok.unbroken q hq w]
        exact Bool.false_ne_true
      have before := h.balance w
      rw [none'] at before
      exact before
  | invoke p =>
    have exclusive := h.exclusive.step eula_tracks sound ok.alone
    have marks : ∀ q ∈ (x.step eula (.invoke p : ServerMove)).marks, q = {} ∨ q ∈ x.marks := by
      intro q hq
      obtain old | new := List.mem_append.mp hq
      · exact .inr old
      · exact .inl (List.mem_singleton.mp new)
    constructor
    · exact exclusive
    · intro q hq inside
      obtain rfl | old := marks q hq
      · cases inside
      · exact h.inside q old inside
    · intro w waits
      obtain here | ⟨i, q, hi, opening⟩ := h.kept w waits
      · exact .inl here
      · refine .inr ⟨i, q, ?_, opening⟩
        exact (List.getElem?_append_left (List.getElem?_eq_some_iff.mp hi).1).trans hi
    · exact h.audited
    · exact h.grown
    · intro q hq d w last waits
      obtain rfl | old := marks q hq
      · cases last
      · exact h.seen q old d w last waits
    · intro q hq w gated
      obtain rfl | old := marks q hq
      · cases gated
      · exact h.gated q old w gated
    · intro q hq w queued
      obtain rfl | old := marks q hq
      · cases queued
      · exact h.queued q old w queued
    · intro w
      have before := h.balance w
      change x.tally.opened.count w = x.tally.completed.count w +
        (x.marks ++ [({} : EulaMark)]).countP fun q => q.stage.inWindow w
      rw [List.countP_append, before]
      rfl

end Steps

theorem follows_request {p : Program (Cmd Site Stmt Query) (Cmd.Reply Database Answer) Exn Unit}
    (h : Requests (.invoke p)) : eula.Follows (fun _ => eula.ends) p eula.start := by
  have idle : Stands .idle eula.start := ⟨rfl, rfl⟩
  obtain ⟨svc, worldId, actorType, actorUserId, allow, operationId, rfl⟩ |
    ⟨svc, worldId, actorUserId, accepted, rfl⟩ := h
  · apply (follows_start idle).bind
    · exact fun _ _ ended => ended
    · exact fun _ _ ended => ended
  · apply (follows_acceptEula idle).bind
    · exact fun _ _ ended => ended
    · exact fun _ _ ended => ended

theorem Consent.init {db : Database} {earlier : List String}
    (clean : ∀ w, eulaAudited db w = true → w ∈ earlier ∨ Required db w) :
    Consent (Watched.init db ⟨earlier, earlier⟩) where
  exclusive := Watched.Exclusive.init db _
  inside := fun _ hq => nomatch hq
  kept := fun _ waits => .inl waits
  audited := clean
  grown := fun _ here => here
  seen := fun _ hq => nomatch hq
  gated := fun _ hq => nomatch hq
  queued := fun _ hq => nomatch hq
  balance := fun _ => rfl

/-- A call that is about to start a process stands behind an acceptance that has completed. -/
theorem Consent.spawns {x : EulaWatched} (h : Consent x) {i : Nat} {q : EulaMark} {w : String}
    (was : x.marks[i]? = some q) (queued : q.stage = .queued w)
    (clear : w ∈ x.tally.completed ∨ ∀ q ∈ x.marks, q.stage.inWindow w = false) :
    w ∈ x.tally.completed := by
  obtain completed | none' := clear
  · exact completed
  · have opened := h.queued q (List.mem_of_getElem? was) w queued
    have noWindow : x.marks.countP (fun q => q.stage.inWindow w) = 0 := by
      rw [List.countP_eq_zero]
      intro q hq
      rw [none' q hq]
      exact Bool.false_ne_true
    have balance := h.balance w
    rw [noWindow] at balance
    have positive := List.count_pos_iff.mpr opened
    rw [balance] at positive
    exact List.count_pos_iff.mp positive

/-- A world leaves the state that waits for an acceptance by the commit of one. -/
theorem Consent.leaves {x : EulaWatched} (h : Consent x) (sound : Watched.Sound eula x)
    {m : ServerMove} (ok : Undisturbed x m) {w : String}
    (waits : Required x.system.conn.committed w)
    (gone : ¬Required (x.step eula m).system.conn.committed w) :
    ∃ i o q, m = .act i o ∧ x.marks[i]? = some q ∧ q.stage = .opening w ∧
      (x.step eula m).tally.opened = x.tally.opened ++ [w] := by
  cases m with
  | invoke p => exact absurd waits gone
  | crash => exact absurd waits gone
  | act i o =>
    obtain same | ⟨q, m, acted, -⟩ := sound.acted i o
    · rw [same] at gone
      exact absurd waits gone
    · rw [acted.conn] at gone
      have stays : (x.system.conn.act m (o m)).2.committed = x.system.conn.committed → False := by
        intro same
        rw [same] at gone
        exact gone waits
      by_cases looks : m.Looks
      · exact (stays (x.system.conn.act_looks looks (o m)).1).elim
      · cases m with
        | execute t s =>
          obtain ⟨e, he⟩ | ⟨d, n, -, -, ran⟩ :=
            (x.system.conn.act_execute (A := Answer) t s (o (.execute t s)) : (∃ e : Exn, _) ∨ _)
          · exact (stays (by rw [he]; rfl)).elim
          · exact (stays (by rw [ran])).elim
        | rollback => exact (stays rfl).elim
        | commit t =>
          have tally := acted.tally
          cases ho : o (.commit t) with
          | some φ =>
            rw [ho] at stays
            exact (stays rfl).elim
          | none =>
            rw [ho] at gone tally
            obtain here | ⟨j, p, hj, opening⟩ := h.kept w waits
            · exact absurd here gone
            · have hold := h.inside p (List.mem_of_getElem? hj) (by rw [opening]; rfl)
              obtain rfl := ok.alone _ acted.next trivial j p hj hold
              refine ⟨j, o, p, rfl, hj, opening, ?_⟩
              have own := acted.was.1
              rw [hj] at own
              cases own
              rw [tally]
              simp only [eula, Connection.act, Acceptances.count, opening]
        | _ => exact absurd trivial looks

def singleService : WorldsService := ⟨⟨false, false⟩, true, false⟩

/-- An acceptance of the world's EULA comes in. -/
def acceptanceCall : ServerMove :=
  .invoke ((acceptEula singleService "w" "u" true).bind fun _ => .ret ())

def startCall : ServerMove :=
  .invoke ((start singleService "w" .user none false none).bind fun _ => .ret ())

/-- The `n`-th command of call `i` meets nothing unusual. -/
def smoothly (i n : Nat) : ServerMove := .act i (Env.smooth (toString n) 0 ⟨.closed {}, []⟩)

/-- The same, but no transaction begins that would record an operation as completed. -/
def unfinished (i n : Nat) : ServerMove :=
  .act i fun m =>
    match m with
    | .begin (.transition .completed) => some (.operational "database is locked")
    | m => Env.smooth (toString n) 0 ⟨.closed {}, []⟩ m

/-- An acceptance fails behind the commit of its state, and a start follows. -/
def failedAcceptance : EulaWatched :=
  (Watched.init (.single .eulaRequired) ⟨[], []⟩ : EulaWatched).play eula
    ([acceptanceCall] ++ (List.range 60).map (unfinished 0) ++ [startCall] ++
      (List.range 45).map (smoothly 1))

/-- The start of call `i` is about to spawn the process of this world. -/
def spawnsNext (x : EulaWatched) (i : Nat) (w : String) : Bool :=
  match x.system.next i with
  | some (.ask (.spawn w' _ _ _)) => w' == w
  | _ => false

/-- The failed acceptance is on record as such. -/
example : failedAcceptance.system.conn.committed.operations.map
    (fun op => (op.opType, op.status)) = [(.configEdit, .failed), (.start, .running)] := by
  decide +kernel

end McManager.Worlds
