import McManager.Framework.OrderedDict
import McManager.Infrastructure.Termination

namespace McManager.Termination

open Framework
open ProcessControl (Process near)

/-- The process that the handle stands for, as it has been spawned. -/
def PosixHandle.leader (h : PosixHandle) : Task :=
  { pid := h.pid, created := h.spawnEpoch, pgid := h.pid, ours := true }

namespace State

/-- Every process of the spawned tree has exited. -/
def Gone (s : State) : Prop := ∀ t ∈ s.tasks, t.ours = true → t.exited.isSome = true

/-- A resolved call leaves no process of the tree alive, every signal went to the leader's group
while the leader was the recorded one, and the call has not raised. -/
structure Resolves (s : State) : Prop where
  whole : ∀ r, s.stage = .returned r → r.resolved = true → s.Gone
  identified : ∀ sent ∈ s.signals, sent.pgid = s.handle.pid ∧
    sent.leader = some s.handle.spawnEpoch
  calm : ∀ e, s.stage ≠ .raised e

/-- `spawn` has just made the handle: the leader has a group of its own. -/
structure Start (s : State) : Prop where
  leader : s.handle.leader ∈ s.tasks
  others : ∀ t ∈ s.tasks, t.pid ≠ s.handle.pid → t.pgid ≠ s.handle.pid ∧ t.ours = false
  distinct : (s.tasks.map (·.pid)).Nodup
  group : s.handle.processGroupId = none ∨ s.handle.processGroupId = some s.handle.pid
  stage : s.stage = .resolving
  signals : s.signals = []

/-- The leader may be reaped: not between an identity check and `SIGTERM`, and before `SIGKILL` only
if it is the last of its group. -/
def MayReap (s : State) : Prop :=
  match s.stage with
  | .grouping .terminate _ => False
  | .signalling .terminate _ _ => False
  | .signalling .kill _ _ => ∀ t ∈ s.tasks, t.pgid = s.handle.pid → t.pid = s.handle.pid
  | _ => True

/-- Another process may get the pid of the leader: one that was created more than the tolerance
apart, and not between the identity check and `SIGKILL`. -/
def MayReuse (s : State) (created : Int) : Prop :=
  near created s.handle.spawnEpoch = false ∧
    match s.stage with
    | .grouping .kill _ => False
    | .signalling .kill _ _ => False
    | _ => True

/-- A test that finds the leader exited finds no other process of the tree alive, and the leader is
reaped and its pid given away only where this may be. -/
def Orderly (s : State) : Move → Prop
  | .exit _ _ => True
  | .reap pid => pid = s.handle.pid → s.MayReap
  | .fork _ pid created => pid = s.handle.pid → s.MayReuse created
  | .lead pid created => pid = s.handle.pid → s.MayReuse created
  | .act timeUp => ∀ signal p, s.stage = .waiting signal p → timeUp = false →
    s.processExited p = true → s.Gone

end State

/-- A call on a process that has been spawned, in whose run all moves meet `ok`. -/
inductive Run (ok : State → Move → Prop) : State → Prop
  | start {s : State} : s.Start → Run ok s
  | step {s : State} (m : Move) : Run ok s → ok s m → Run ok (s.step m)

namespace State

/-- The process that has the pid of the leader is the leader. -/
def Present (s : State) : Prop :=
  ∃ t ∈ s.tasks, t.pid = s.handle.pid ∧ t.created = s.handle.spawnEpoch ∧ t.pgid = s.handle.pid

/-- No process has the pid of the leader. -/
def Absent (s : State) : Prop := ∀ t ∈ s.tasks, t.pid ≠ s.handle.pid

/-- The group of the leader has no process. -/
def Deserted (s : State) : Prop := ∀ t ∈ s.tasks, t.pgid ≠ s.handle.pid

/-- What holds at each stage of the call. -/
def Stands (s : State) : Prop :=
  match s.stage with
  | .resolving => True
  | .finding => True
  | .confirming p => p.pid = s.handle.pid
  | .classifying p => p.pid = s.handle.pid
  | .grouping .terminate p => p.pid = s.handle.pid ∧ s.Present
  | .grouping .kill p => p.pid = s.handle.pid ∧ (s.Present ∨ s.Absent)
  | .signalling .terminate p pgid => p.pid = s.handle.pid ∧ pgid = s.handle.pid ∧ s.Present
  | .signalling .kill p pgid =>
    p.pid = s.handle.pid ∧ pgid = s.handle.pid ∧ (s.Present ∨ s.Deserted)
  | .waiting _ p => p.pid = s.handle.pid
  | .exiting _ => s.Gone
  | .returned r => r.resolved = true → s.Gone
  | .raised _ => False

/-- What always holds of the processes and the signals. -/
structure Kept (s : State) : Prop where
  group : s.handle.processGroupId = none ∨ s.handle.processGroupId = some s.handle.pid
  distinct : (s.tasks.map (·.pid)).Nodup
  leader : ∀ t ∈ s.tasks, t.pid = s.handle.pid →
    near t.created s.handle.spawnEpoch = true →
      t.created = s.handle.spawnEpoch ∧ t.pgid = s.handle.pid
  identified : ∀ sent ∈ s.signals, sent.pgid = s.handle.pid ∧
    sent.leader = some s.handle.spawnEpoch

theorem task?_mem {s : State} {pid : Nat} {t : Task} (h : s.task? pid = some t) :
    t ∈ s.tasks ∧ t.pid = pid :=
  ⟨List.mem_of_find?_eq_some h, by simpa using List.find?_some h⟩

theorem task?_eq {s : State} (distinct : (s.tasks.map (·.pid)).Nodup) {t : Task}
    (ht : t ∈ s.tasks) : s.task? t.pid = some t := find?_of_nodup distinct ht

theorem task?_none {s : State} {pid : Nat} (h : s.task? pid = none) : ∀ t ∈ s.tasks, t.pid ≠ pid := by
  intro t ht
  simpa using List.find?_eq_none.mp h t ht

/-- An identity check that passes finds the leader. -/
theorem Kept.present {s : State} (kept : s.Kept) (h : s.identityMatches = true) : s.Present := by
  rw [identityMatches, process] at h
  cases ht : s.task? s.handle.pid with
  | none => simp [ht] at h
  | some t =>
    obtain ⟨mem, pid⟩ := task?_mem ht
    have close : near t.created s.handle.spawnEpoch = true := by simpa [ht] using h
    obtain ⟨created, pgid⟩ := kept.leader t mem pid close
    exact ⟨t, mem, pid, created, pgid⟩

/-- What a move of the system does to the processes: it changes neither the call nor what its
signals and its handle are, and keeps what the call relies on. -/
structure Follows (s s' : State) : Prop where
  handle : s'.handle = s.handle
  stage : s'.stage = s.stage
  signals : s'.signals = s.signals
  kept : s.Kept → s'.Kept
  gone : s.Gone → s'.Gone

/-- Processes that stay, but for their ends. -/
theorem exit_follows (s : State) (pid : Nat) (code : Int) : s.Follows (s.exit pid code) ∧
    (s.Present → (s.exit pid code).Present) ∧ (s.Absent → (s.exit pid code).Absent) ∧
    (s.Deserted → (s.exit pid code).Deserted) := by
  have same : ∀ t' ∈ (s.exit pid code).tasks, ∃ t ∈ s.tasks, t'.pid = t.pid ∧
      t'.created = t.created ∧ t'.pgid = t.pgid ∧ t'.ours = t.ours ∧
      (t.exited.isSome = true → t'.exited.isSome = true) := by
    intro t' ht'
    obtain ⟨t, ht, rfl⟩ := List.mem_map.mp ht'
    refine ⟨t, ht, ?_⟩
    by_cases h : t.pid = pid ∧ t.exited = none
    · simp [h]
    · rw [if_neg h]
      exact ⟨rfl, rfl, rfl, rfl, id⟩
  have pids : (s.exit pid code).tasks.map (·.pid) = s.tasks.map (·.pid) := by
    rw [State.exit, List.map_map]
    refine List.map_congr_left ?_
    intro t _
    by_cases h : t.pid = pid ∧ t.exited = none
    · simp [h]
    · simp [h]
  refine ⟨⟨rfl, rfl, rfl, ?_, ?_⟩, ?_, ?_, ?_⟩
  · intro kept
    refine ⟨kept.group, pids ▸ kept.distinct, ?_, kept.identified⟩
    intro t' ht' now close
    obtain ⟨t, ht, pid', created, pgid, -, -⟩ := same t' ht'
    rw [created, pgid]
    exact kept.leader t ht (pid' ▸ now) (created ▸ close)
  · intro gone t' ht' mine
    obtain ⟨t, ht, -, -, -, ours, exited⟩ := same t' ht'
    exact exited (gone t ht (ours ▸ mine))
  · intro present
    obtain ⟨t, ht, now, created, pgid⟩ := present
    refine ⟨_, List.mem_map_of_mem ht, ?_⟩
    by_cases h : t.pid = pid ∧ t.exited = none
    · rw [if_pos h]
      exact ⟨now, created, pgid⟩
    · rw [if_neg h]
      exact ⟨now, created, pgid⟩
  · intro absent t' ht'
    obtain ⟨t, ht, pid', -⟩ := same t' ht'
    rw [pid']
    exact absent t ht
  · intro deserted t' ht'
    obtain ⟨t, ht, -, -, pgid, -⟩ := same t' ht'
    rw [pgid]
    exact deserted t ht

theorem reap_follows (s : State) (pid : Nat) : s.Follows (s.reap pid) ∧
    (pid ≠ s.handle.pid → s.Present → (s.reap pid).Present) ∧ (s.Absent → (s.reap pid).Absent) ∧
    (s.Deserted → (s.reap pid).Deserted) := by
  unfold State.reap
  split
  · refine ⟨⟨rfl, rfl, rfl, ?_, ?_⟩, ?_, ?_, ?_⟩
    · intro kept
      exact ⟨kept.group, kept.distinct.sublist (List.filter_sublist.map _),
        fun t ht => kept.leader t (List.mem_of_mem_filter ht), kept.identified⟩
    · exact fun gone t ht => gone t (List.mem_of_mem_filter ht)
    · intro other present
      obtain ⟨t, ht, now, rest⟩ := present
      refine ⟨t, List.mem_filter.mpr ⟨ht, ?_⟩, now, rest⟩
      have apart : t.pid ≠ pid := fun same => other (same.symm.trans now)
      simpa using apart
    · exact fun absent t ht => absent t (List.mem_of_mem_filter ht)
    · exact fun deserted t ht => deserted t (List.mem_of_mem_filter ht)
  · exact ⟨⟨rfl, rfl, rfl, id, id⟩, fun _ => id, id, id⟩

/-- Another process, with a number that nothing has. -/
theorem add_follows (s : State) {t : Task} (free : s.free t.pid = true)
    (ours : t.ours = true → ∃ parent ∈ s.tasks, parent.ours = true ∧ parent.exited = none)
    (apart : t.pid = s.handle.pid → near t.created s.handle.spawnEpoch = false) :
    s.Follows { s with tasks := s.tasks ++ [t] } ∧
    (s.Present → ({ s with tasks := s.tasks ++ [t] } : State).Present) ∧
    (t.pid ≠ s.handle.pid → s.Absent → ({ s with tasks := s.tasks ++ [t] } : State).Absent) ∧
    (t.pgid ≠ s.handle.pid → s.Deserted →
      ({ s with tasks := s.tasks ++ [t] } : State).Deserted) := by
  have mem : ∀ t' ∈ s.tasks ++ [t], t' ∈ s.tasks ∨ t' = t := by
    intro t' ht'
    simpa using ht'
  have new : t.pid ∉ s.tasks.map (·.pid) := by
    intro there
    obtain ⟨t', ht', same⟩ := List.mem_map.mp there
    have clear := List.all_eq_true.mp free t' ht'
    simp [same] at clear
  refine ⟨⟨rfl, rfl, rfl, ?_, ?_⟩, ?_, ?_, ?_⟩
  · intro kept
    refine ⟨kept.group, ?_, ?_, kept.identified⟩
    · rw [List.map_append]
      refine List.nodup_append.mpr ⟨kept.distinct, by simp, ?_⟩
      intro a ha b hb same
      have last : b = t.pid := by simpa using hb
      rw [same, last] at ha
      exact new ha
    · intro t' ht' now close
      rcases mem t' ht' with old | rfl
      · exact kept.leader t' old now close
      · rw [apart now] at close
        exact Bool.noConfusion close
  · intro gone t' ht' mine
    rcases mem t' ht' with old | rfl
    · exact gone t' old mine
    · obtain ⟨parent, hp, ours', alive⟩ := ours mine
      have dead := gone parent hp ours'
      rw [alive] at dead
      exact Bool.noConfusion dead
  · intro present
    obtain ⟨t', ht', rest⟩ := present
    exact ⟨t', List.mem_append_left _ ht', rest⟩
  · intro other absent t' ht'
    rcases mem t' ht' with old | rfl
    · exact absent t' old
    · exact other
  · intro other deserted t' ht'
    rcases mem t' ht' with old | rfl
    · exact deserted t' old
    · exact other

/-- Where the call stands after a move of the system. -/
theorem Stands.follow {s s' : State} (h : s.Stands) (f : s.Follows s')
    (term : (∃ p, s.stage = .grouping .terminate p ∨ ∃ pgid, s.stage = .signalling .terminate p pgid) →
      s.Present → s'.Present)
    (grouping : ∀ p, s.stage = .grouping .kill p → s.Present ∨ s.Absent → s'.Present ∨ s'.Absent)
    (signalling : ∀ p pgid, s.stage = .signalling .kill p pgid → s.Present ∨ s.Deserted →
      s'.Present ∨ s'.Deserted) : s'.Stands := by
  simp only [Stands] at h ⊢
  rw [f.stage, f.handle]
  cases hs : s.stage with
  | resolving => trivial
  | finding => trivial
  | confirming p => simpa only [hs] using h
  | classifying p => simpa only [hs] using h
  | grouping signal p =>
    cases signal with
    | terminate =>
      simp only [hs] at h
      exact ⟨h.1, term ⟨p, .inl hs⟩ h.2⟩
    | kill =>
      simp only [hs] at h
      exact ⟨h.1, grouping p hs h.2⟩
  | signalling signal p pgid =>
    cases signal with
    | terminate =>
      simp only [hs] at h
      exact ⟨h.1, h.2.1, term ⟨p, .inr ⟨pgid, hs⟩⟩ h.2.2⟩
    | kill =>
      simp only [hs] at h
      exact ⟨h.1, h.2.1, signalling p pgid hs h.2.2⟩
  | waiting signal p => simpa only [hs] using h
  | exiting signal =>
    simp only [hs] at h
    exact f.gone h
  | returned r =>
    simp only [hs] at h
    exact fun resolved => f.gone (h resolved)
  | raised e =>
    simp only [hs] at h

theorem Stands.exit {s : State} (h : s.Stands) (pid : Nat) (code : Int) :
    (s.exit pid code).Stands := by
  obtain ⟨f, present, absent, deserted⟩ := s.exit_follows pid code
  exact h.follow f (fun _ => present) (fun _ _ => Or.imp present absent)
    (fun _ _ _ => Or.imp present deserted)

/-- The leader is reaped, or it has not exited. -/
theorem reap_leader (s : State) : (s.reap s.handle.pid).Absent ∧
    (∀ t ∈ (s.reap s.handle.pid).tasks, t ∈ s.tasks) ∨ s.reap s.handle.pid = s := by
  unfold State.reap
  split
  · refine .inl ⟨?_, fun t ht => List.mem_of_mem_filter ht⟩
    intro t ht
    simpa using (List.mem_filter.mp ht).2
  · exact .inr rfl

theorem Stands.reap {s : State} (h : s.Stands) (pid : Nat) (ok : s.Orderly (.reap pid)) :
    (s.reap pid).Stands := by
  obtain ⟨f, present, absent, deserted⟩ := s.reap_follows pid
  by_cases leader : pid = s.handle.pid
  · have may := ok leader
    subst leader
    refine h.follow f ?_ ?_ ?_
    · intro stage
      rw [MayReap] at may
      obtain ⟨p, grouping | ⟨pgid, signalling⟩⟩ := stage
      · simp only [grouping] at may
      · simp only [signalling] at may
    · intro p _ either
      rcases s.reap_leader with ⟨gone, -⟩ | same
      · exact .inr gone
      · rwa [same]
    · intro p pgid stage either
      simp only [MayReap, stage] at may
      rcases s.reap_leader with ⟨gone, mem⟩ | same
      · refine .inr ?_
        intro t ht group
        have handle : (s.reap s.handle.pid).handle = s.handle := f.handle
        have apart := gone t ht
        rw [handle] at group apart
        exact apart (may t (mem t ht) group)
      · rwa [same]
  · exact h.follow f (fun _ => present leader) (fun _ _ => Or.imp (present leader) absent)
      (fun _ _ _ => Or.imp (present leader) deserted)

/-- A new process that may get the pid it gets. -/
theorem Stands.add {s : State} (h : s.Stands) {t : Task} (free : s.free t.pid = true)
    (ours : t.ours = true → ∃ parent ∈ s.tasks, parent.ours = true ∧ parent.exited = none)
    (ok : t.pid = s.handle.pid → s.MayReuse t.created)
    (group : s.Deserted → t.pid ≠ s.handle.pid → t.pgid ≠ s.handle.pid) :
    ({ s with tasks := s.tasks ++ [t] } : State).Stands := by
  obtain ⟨f, present, absent, deserted⟩ := s.add_follows free ours fun same => (ok same).1
  refine h.follow f (fun _ => present) ?_ ?_
  · intro p stage
    have other : t.pid ≠ s.handle.pid := by
      intro same
      have may := (ok same).2
      simp only [stage] at may
    exact Or.imp present (absent other)
  · intro p pgid stage
    have other : t.pid ≠ s.handle.pid := by
      intro same
      have may := (ok same).2
      simp only [stage] at may
    exact Or.imp present fun empty => deserted (group empty other) empty

theorem Kept.add {s : State} (kept : s.Kept) {t : Task} (free : s.free t.pid = true)
    (ours : t.ours = true → ∃ parent ∈ s.tasks, parent.ours = true ∧ parent.exited = none)
    (ok : t.pid = s.handle.pid → s.MayReuse t.created) :
    ({ s with tasks := s.tasks ++ [t] } : State).Kept :=
  (s.add_follows free ours fun same => (ok same).1).1.kept kept

/-- What holds of every state of an orderly run. -/
structure Good (s : State) : Prop where
  kept : s.Kept
  stands : s.Stands

theorem Good.fork {s : State} (good : s.Good) (parent pid : Nat) (created : Int)
    (ok : s.Orderly (.fork parent pid created)) : (s.fork parent pid created).Good := by
  unfold State.fork
  split
  · rename_i q created' pgid ours' hp
    split
    · rename_i free
      obtain ⟨mem, -⟩ := task?_mem hp
      have ours : ours' = true → ∃ parent ∈ s.tasks, parent.ours = true ∧ parent.exited = none :=
        fun mine => ⟨_, mem, mine, rfl⟩
      refine ⟨good.kept.add free ours ok, good.stands.add free ours ok ?_⟩
      intro deserted _
      have apart := deserted _ mem
      exact apart
    · exact good
  · exact good

theorem Good.lead {s : State} (good : s.Good) (pid : Nat) (created : Int)
    (ok : s.Orderly (.lead pid created)) : (s.lead pid created).Good := by
  unfold State.lead
  split
  · rename_i free
    have ours : false = true → ∃ parent ∈ s.tasks, parent.ours = true ∧ parent.exited = none :=
      fun mine => Bool.noConfusion mine
    exact ⟨good.kept.add free ours ok, good.stands.add free ours ok fun _ other => other⟩
  · exact good

theorem Present.task? {s : State} (present : s.Present) (kept : s.Kept) :
    ∃ t, s.task? s.handle.pid = some t ∧ t.created = s.handle.spawnEpoch ∧
      t.pgid = s.handle.pid := by
  obtain ⟨t, ht, now, rest⟩ := present
  exact ⟨t, now ▸ task?_eq kept.distinct ht, rest⟩

/-- What a stage change needs. -/
theorem Good.at {s : State} (good : s.Good) {stage : Stage}
    (h : ({ s with stage := stage } : State).Stands) : ({ s with stage := stage } : State).Good :=
  ⟨⟨good.kept.group, good.kept.distinct, good.kept.leader, good.kept.identified⟩, h⟩

/-- After an identity check that has passed. -/
theorem Good.toSignal {s : State} (good : s.Good) {signal : Signal} {p : Process}
    (hp : p.pid = s.handle.pid) (present : s.Present) : (s.toSignal signal p).Good := by
  unfold State.toSignal
  rcases good.kept.group with none | some
  · rw [none]
    cases signal with
    | terminate => exact good.at ⟨hp, present⟩
    | kill => exact good.at ⟨hp, .inl present⟩
  · rw [some]
    cases signal with
    | terminate => exact good.at ⟨hp, rfl, present⟩
    | kill => exact good.at ⟨hp, rfl, .inl present⟩

/-- `killpg` while the leader is there. -/
theorem Good.signalled {s : State} (good : s.Good) {signal : Signal} {p : Process}
    (hp : p.pid = s.handle.pid) (present : s.Present) :
    ({ s with
      signals := s.signals ++ [⟨signal, s.handle.pid, (s.task? s.handle.pid).map (·.created)⟩]
      stage := .waiting signal p } : State).Good := by
  obtain ⟨t, found, created, -⟩ := present.task? good.kept
  refine ⟨⟨good.kept.group, good.kept.distinct, good.kept.leader, ?_⟩, hp⟩
  intro sent hs
  rcases List.mem_append.mp hs with old | new
  · exact good.kept.identified sent old
  · rw [List.mem_singleton.mp new]
    refine ⟨rfl, ?_⟩
    rw [found, ← created]
    rfl

theorem Present.populated {s : State} (present : s.Present) :
    (s.tasks.any fun t => t.pgid = s.handle.pid) = true := by
  obtain ⟨t, ht, -, -, pgid⟩ := present
  exact List.any_eq_true.mpr ⟨t, ht, by simpa using pgid⟩

theorem Good.act {s : State} (good : s.Good) (timeUp : Bool) (ok : s.Orderly (.act timeUp)) :
    (s.act timeUp).Good := by
  have stands := good.stands
  unfold State.act
  simp only [Stands] at stands
  cases hs : s.stage with
  | resolving =>
    simp only
    cases s.identityMatches with
    | true => exact good.at trivial
    | false => exact good.at fun resolved => Bool.noConfusion resolved
  | finding =>
    simp only
    cases found : s.process s.handle.pid with
    | none => exact good.at fun resolved => Bool.noConfusion resolved
    | some p =>
      obtain ⟨t, -, rfl⟩ := Option.map_eq_some_iff.mp found
      by_cases graceful : 0 < s.gracefulDeadline
      · simp only [if_pos graceful]
        exact good.at rfl
      · simp only [if_neg graceful]
        exact good.at rfl
  | confirming p =>
    simp only [hs] at stands ⊢
    cases identity : s.identityMatches with
    | true => exact good.toSignal stands (good.kept.present identity)
    | false => exact good.at fun resolved => Bool.noConfusion resolved
  | classifying p =>
    simp only [hs] at stands ⊢
    cases identity : s.identityMatches with
    | true => exact good.toSignal stands (good.kept.present identity)
    | false => exact good.at fun resolved => Bool.noConfusion resolved
  | grouping signal p =>
    cases signal with
    | terminate =>
      simp only [hs] at stands ⊢
      obtain ⟨hp, present⟩ := stands
      obtain ⟨t, found, -, pgid⟩ := present.task? good.kept
      rw [hp, found]
      exact good.at ⟨hp, pgid, present⟩
    | kill =>
      simp only [hs] at stands ⊢
      obtain ⟨hp, present | absent⟩ := stands
      · obtain ⟨t, found, -, pgid⟩ := present.task? good.kept
        rw [hp, found]
        exact good.at ⟨hp, pgid, .inl present⟩
      · have none : s.task? p.pid = none := by
          rw [hp, State.task?, List.find?_eq_none]
          intro t ht
          simpa using absent t ht
        rw [none]
        exact good.at fun resolved => Bool.noConfusion resolved
  | signalling signal p pgid =>
    cases signal with
    | terminate =>
      simp only [hs] at stands ⊢
      obtain ⟨hp, rfl, present⟩ := stands
      rw [if_pos present.populated]
      exact good.signalled hp present
    | kill =>
      simp only [hs] at stands ⊢
      obtain ⟨hp, rfl, present | deserted⟩ := stands
      · rw [if_pos present.populated]
        exact good.signalled hp present
      · have empty : (s.tasks.any fun t => t.pgid = s.handle.pid) ≠ true := by
          intro some
          obtain ⟨t, ht, group⟩ := List.any_eq_true.mp some
          exact deserted t ht (by simpa using group)
        rw [if_neg empty]
        exact good.at fun resolved => Bool.noConfusion resolved
  | waiting signal p =>
    simp only [hs] at stands ⊢
    cases timeUp with
    | true =>
      cases signal with
      | terminate => exact good.at stands
      | kill => exact good.at fun resolved => Bool.noConfusion resolved
    | false =>
      cases exited : s.processExited p with
      | true => exact good.at (ok signal p hs rfl exited)
      | false => exact good
  | exiting signal =>
    simp only [hs] at stands ⊢
    obtain ⟨f, -⟩ := s.reap_follows s.handle.pid
    have reaped : (s.reap s.handle.pid).Good :=
      ⟨f.kept good.kept, by
        rw [Stands, f.stage, hs]
        exact f.gone stands⟩
    unfold State.safeReturncode
    cases s.popen with
    | none => exact good.at fun _ => stands
    | some code =>
      cases code with
      | none => exact reaped.at fun _ => f.gone stands
      | some code => exact good.at fun _ => stands
  | returned r => exact good
  | raised e => exact good

theorem Start.good {s : State} (start : s.Start) : s.Good where
  kept := {
    group := start.group
    distinct := start.distinct
    leader := by
      intro t ht now _
      have first := task?_eq start.distinct start.leader
      have same := task?_eq start.distinct ht
      rw [now] at same
      obtain rfl := Option.some.inj (first.symm.trans same)
      exact ⟨rfl, rfl⟩
    identified := by
      rw [start.signals]
      exact fun _ h => absurd h List.not_mem_nil }
  stands := by
    rw [Stands, start.stage]
    trivial

theorem Good.step {s : State} (good : s.Good) (m : Move) (ok : s.Orderly m) : (s.step m).Good := by
  unfold State.step
  split
  · exact good
  · cases m with
    | exit pid code => exact ⟨(s.exit_follows pid code).1.kept good.kept, good.stands.exit pid code⟩
    | reap pid => exact ⟨(s.reap_follows pid).1.kept good.kept, good.stands.reap pid ok⟩
    | fork parent pid created => exact good.fork parent pid created ok
    | lead pid created => exact good.lead pid created ok
    | act timeUp => exact good.act timeUp ok

theorem Good.resolves {s : State} (good : s.Good) : s.Resolves where
  whole := by
    intro r returned resolved
    have stands := good.stands
    rw [Stands, returned] at stands
    exact stands resolved
  identified := good.kept.identified
  calm := by
    intro e raised
    have stands := good.stands
    rw [Stands, raised] at stands
    exact stands

end State

theorem Run.good {s : State} (run : Run State.Orderly s) : s.Good := by
  induction run with
  | start start => exact start.good
  | step m run ok ih => exact ih.step m ok

/-- In every run in which no process of the tree is left when the leader is found to have exited, and
the leader is neither reaped nor replaced between a check of its identity and the signal,
`terminate` returns, signals only the recorded leader's group, and resolves the whole tree. -/
theorem terminate_resolves (s : State) (run : Run State.Orderly s) : s.Resolves :=
  run.good.resolves

/-- A server that has just been spawned, in a system with one other process. -/
def spawned : State where
  handle := { worldId := "w", pid := 100, spawnEpoch := 5000, processGroupId := some 100 }
  gracefulDeadline := 10
  tasks := [{ pid := 1, created := 0, pgid := 1 },
    { pid := 100, created := 5000, pgid := 100, ours := true }]
  popen := some none

theorem spawned_start : spawned.Start where
  leader := by decide
  others := by decide
  distinct := by decide
  group := .inr rfl
  stage := rfl
  signals := rfl

/-- The call as far as `SIGTERM`. -/
def signalled : State := (List.replicate 4 (Move.act false)).foldl State.step spawned

theorem Run.signalled {ok : State → Move → Prop}
    (act : ∀ s : State, (s.stage matches .waiting _ _) = false → ok s (.act false)) :
    Run ok signalled :=
  .step _ (.step _ (.step _ (.step _ (.start spawned_start) (act _ rfl)) (act _ rfl))
    (act _ rfl)) (act _ rfl)

/-- The server gets `SIGTERM`, exits and is found to have exited. -/
theorem terminate_resolves_graceful :
    (((signalled.step (.exit 100 0)).step (.act false)).step (.act false)).Resolves ∧
    (((signalled.step (.exit 100 0)).step (.act false)).step (.act false)).signals =
      [⟨.terminate, 100, some 5000⟩] := by
  have idle : ∀ s : State, (s.stage matches .waiting _ _) = false → s.Orderly (.act false) := by
    intro s other signal p stage
    rw [stage] at other
    exact Bool.noConfusion other
  have gone : (signalled.step (.exit 100 0)).Gone := by
    unfold State.Gone
    decide +kernel
  have run : Run State.Orderly (((signalled.step (.exit 100 0)).step (.act false)).step
      (.act false)) :=
    .step _ (.step _ (.step _ (.signalled idle) trivial) fun _ _ _ _ _ => gone) (idle _ rfl)
  exact ⟨terminate_resolves _ run, rfl⟩

/-- A helper that ignores `SIGTERM` outlives the server, and the call reports the tree as ended. -/
theorem helper_survives : ¬∀ s : State, Run (fun _ _ => True) s → s.Resolves := by
  intro h
  let s := (((signalled.step (.fork 100 101 5100)).step (.exit 100 0)).step (.act false)).step
    (.act false)
  have run : Run (fun _ _ => True) s :=
    .step _ (.step _ (.step _ (.step _ (.signalled fun _ _ => trivial) trivial) trivial) trivial)
      trivial
  have returned : s.stage = .returned
      { resolved := true, exitClass := .graceful, exitCode := some 0 } := rfl
  have gone := (h s run).whole _ returned rfl
  have alive : ¬s.Gone := by
    unfold State.Gone
    decide +kernel
  exact alive gone

end McManager.Termination
