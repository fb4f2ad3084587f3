import McManager.Infrastructure.ProcessControl

namespace McManager.ProcessControl

/-- The child has exited: it is a zombie or was reaped. -/
def Child.Exited (h : Host) (c : Child) : Prop :=
  c.returncode ≠ none ∨ (h.table c.pid).bind Task.exited ≠ none

/-- No process in the table has the pid of the child and was created within a second of it. -/
def Child.Gone (h : Host) (c : Child) : Prop :=
  ∀ t, h.table c.pid = some t → near t.created c.created = false

/-- The process that a running `terminate` of a child waits for. -/
structure Held (h : Host) (i : Nat) (p : Process) (c : Child) : Prop where
  child : h.children[i]? = some c
  pid : p.pid = c.pid
  near : near p.created c.created = true
  created : ¬c.Exited h → p.created = c.created

/-- The invariant of a host: the pid of a child that was not reaped is its own. -/
structure Good (h : Host) : Prop where
  owns : ∀ (i : Nat) c, h.children[i]? = some c → c.returncode = none →
    ∃ t, h.table c.pid = some t ∧ t.created = c.created
  held : ∀ i p, (i, p) ∈ h.tests → ∃ c, Held h i p c

/-- What happens to a child in a step: it may exit, and be reaped. -/
structure Later (h h' : Host) : Prop where
  child : ∀ (i : Nat) c, h.children[i]? = some c → ∃ c', h'.children[i]? = some c' ∧
    c'.handle = c.handle ∧ (c.Exited h → c'.Exited h')

theorem near_self (n : Int) : near n n = true := by simp [near]

section Steps

variable {h h' : Host}

theorem Later.refl (h : Host) : Later h h := ⟨fun _ c hc => ⟨c, hc, rfl, id⟩⟩

/-- A step that leaves the processes that are waited for leaves the invariant about them. -/
theorem Later.held (later : Later h h') (tests : ∀ x ∈ h'.tests, x ∈ h.tests)
    (good : ∀ i p, (i, p) ∈ h.tests → ∃ c, Held h i p c) :
    ∀ i p, (i, p) ∈ h'.tests → ∃ c, Held h' i p c := by
  intro i p waits
  obtain ⟨c, held⟩ := good i p (tests _ waits)
  obtain ⟨c', hc', same, exits⟩ := later.child i c held.child
  have pid : c'.pid = c.pid := congrArg ProcessHandle.pid same
  have created : c'.created = c.created := congrArg ProcessHandle.spawnEpoch same
  refine ⟨c', hc', held.pid.trans pid.symm, ?_, ?_⟩
  · rw [created]
    exact held.near
  · intro alive
    rw [created]
    exact held.created fun exited => alive (exits exited)

/-- Only the registry, or the list of waiting calls, changes. -/
theorem Good.same (good : Good h) (table : h'.table = h.table) (children : h'.children = h.children)
    (tests : ∀ x ∈ h'.tests, x ∈ h.tests) : Good h' where
  owns := by
    rw [table, children]
    exact good.owns
  held := by
    have later : Later h h' := by
      refine ⟨fun i c hc => ⟨c, by rw [children, hc], rfl, ?_⟩⟩
      rw [Child.Exited, Child.Exited, table]
      exact id
    exact later.held tests good.held

theorem table_setTask (pid q : Nat) (t : Option Task) :
    (h.setTask pid t).table q = if q = pid then t else h.table q := rfl

theorem Good.exit (good : Good h) (pid : Nat) (code : Int) : Good (h.exit pid code) := by
  unfold Host.exit
  split
  · rename_i created argv there
    have later : Later h (h.setTask pid (some ⟨created, argv, some code⟩)) := by
      refine ⟨fun i c hc => ⟨c, hc, rfl, ?_⟩⟩
      intro exited
      obtain reaped | zombie := exited
      · exact .inl reaped
      · right
        rw [table_setTask]
        split
        · simp
        · exact zombie
    refine ⟨?_, later.held (fun _ => id) good.held⟩
    intro i c hc running
    obtain ⟨t, ht, same⟩ := good.owns i c hc running
    rw [table_setTask]
    split
    · rename_i here
      rw [here, there] at ht
      obtain rfl := Option.some.inj ht
      exact ⟨_, rfl, same⟩
    · exact ⟨t, ht, same⟩
  · exact good

theorem Good.reap (good : Good h) (pid : Nat) : Good (h.reap pid) := by
  unfold Host.reap
  cases zombie : (h.table pid).bind Task.exited with
  | none => exact good
  | some code =>
    dsimp only
    have later : Later h { h.setTask pid none with
        children := h.children.map fun c =>
          if c.pid = pid ∧ c.returncode = none then { c with returncode := some code } else c } := by
      refine ⟨fun i c hc => ?_⟩
      refine ⟨if c.pid = pid ∧ c.returncode = none then { c with returncode := some code } else c,
        ?_, ?_, ?_⟩
      · rw [List.getElem?_map, hc]
        rfl
      · split
        · rfl
        · rfl
      · intro exited
        by_cases reaped : c.pid = pid ∧ c.returncode = none
        · rw [if_pos reaped]
          exact .inl (by simp)
        · rw [if_neg reaped]
          obtain before | dead := exited
          · exact .inl before
          · by_cases here : c.pid = pid
            · exact .inl fun running => reaped ⟨here, running⟩
            · right
              rw [table_setTask, if_neg here]
              exact dead
    refine ⟨?_, later.held (fun _ => id) good.held⟩
    intro i c' hc' running
    rw [List.getElem?_map] at hc'
    obtain ⟨c, hc, rfl⟩ := Option.map_eq_some_iff.mp hc'
    by_cases reaped : c.pid = pid ∧ c.returncode = none
    · rw [if_pos reaped] at running
      cases running
    · rw [if_neg reaped] at running ⊢
      have other : c.pid ≠ pid := fun here => reaped ⟨here, running⟩
      rw [table_setTask, if_neg other]
      exact good.owns i c hc running

/-- A free pid is taken. -/
theorem Good.taken (good : Good h) {pid : Nat} (free : h.table pid = none) (t : Task)
    (more : List Child) (own : ∀ c ∈ more, c.pid = pid ∧ t.created = c.created)
    (registry : String → Option RegistryEntry) :
    Good { h.setTask pid (some t) with children := h.children ++ more, registry } := by
  have other : ∀ (i : Nat) c, h.children[i]? = some c → c.returncode = none → c.pid ≠ pid := by
    intro i c hc running here
    obtain ⟨t, ht, -⟩ := good.owns i c hc running
    rw [here, free] at ht
    cases ht
  have later : Later h { h.setTask pid (some t) with children := h.children ++ more, registry } := by
    refine ⟨fun i c hc => ⟨c, ?_, rfl, ?_⟩⟩
    · rw [List.getElem?_append_left (List.getElem?_eq_some_iff.mp hc).1, hc]
    · intro exited
      cases running : c.returncode with
      | some code => exact .inl (by simp [running])
      | none =>
        obtain reaped | zombie := exited
        · exact absurd running reaped
        · right
          rw [table_setTask, if_neg (other i c hc running)]
          exact zombie
  refine ⟨?_, later.held (fun _ => id) good.held⟩
  intro i c hc running
  by_cases old : i < h.children.length
  · rw [List.getElem?_append_left old] at hc
    rw [table_setTask, if_neg (other i c hc running)]
    exact good.owns i c hc running
  · rw [List.getElem?_append_right (Nat.le_of_not_lt old)] at hc
    obtain ⟨here, created⟩ := own c (List.mem_of_getElem? hc)
    rw [table_setTask, if_pos here]
    exact ⟨t, rfl, created⟩

theorem registryExitCode_cases (h : Host) (worldId : String) :
    (h.registryExitCode worldId).1 = h ∨ ∃ pid, (h.registryExitCode worldId).1 = h.reap pid := by
  unfold Host.registryExitCode
  split
  · exact .inl rfl
  · rename_i i _
    unfold Host.popenPoll
    cases hc : h.children[i]? with
    | none => exact .inl rfl
    | some c =>
      cases running : c.returncode with
      | some code => exact .inl (by simp [running])
      | none => exact .inr ⟨c.pid, by simp [running]⟩

theorem Good.registryExitCode (good : Good h) (worldId : String) :
    Good (h.registryExitCode worldId).1 := by
  obtain same | ⟨pid, same⟩ := registryExitCode_cases h worldId
  · rw [same]
    exact good
  · rw [same]
    exact good.reap pid

theorem poll_cases (h : Host) (handle : ProcessHandle) :
    (h.poll handle).1 = h ∨ (h.poll handle).1 = (h.registryExitCode handle.worldId).1 := by
  unfold Host.poll
  split
  · exact .inr rfl
  · split
    · exact .inl rfl
    · split
      · exact .inr rfl
      · exact .inl rfl

theorem Good.poll (good : Good h) (handle : ProcessHandle) : Good (h.poll handle).1 := by
  obtain same | same := poll_cases h handle
  · rw [same]
    exact good
  · rw [same]
    exact good.registryExitCode _

theorem probeFingerprint_same (h : Host) (worldId : String) (f : ProbeFingerprint) :
    (h.probeFingerprint worldId f).1.table = h.table ∧
      (h.probeFingerprint worldId f).1.children = h.children ∧
      (h.probeFingerprint worldId f).1.tests = h.tests := by
  unfold Host.probeFingerprint
  split
  · dsimp only
    split
    · exact ⟨rfl, rfl, rfl⟩
    · split
      · exact ⟨rfl, rfl, rfl⟩
      · split
        · exact ⟨rfl, rfl, rfl⟩
        · split <;> exact ⟨rfl, rfl, rfl⟩
  · exact ⟨rfl, rfl, rfl⟩

theorem probe_same (h : Host) (worldId : String) (fingerprint : Option ProbeFingerprint) :
    (h.probe worldId fingerprint).1.table = h.table ∧
      (h.probe worldId fingerprint).1.children = h.children ∧
      (h.probe worldId fingerprint).1.tests = h.tests := by
  unfold Host.probe
  cases fingerprint with
  | none => exact ⟨rfl, rfl, rfl⟩
  | some f =>
    dsimp only
    split
    · exact probeFingerprint_same h worldId f
    · exact ⟨rfl, rfl, rfl⟩

theorem resolveProcess_some {handle : ProcessHandle} {p : Process}
    (found : h.resolveProcess handle = some p) :
    h.process handle.pid = some p ∧ near p.created handle.spawnEpoch = true := by
  unfold Host.resolveProcess at found
  split at found
  · rename_i matches'
    rw [Host.identityMatches, found] at matches'
    exact ⟨found, matches'⟩
  · cases found

theorem process_some {pid : Nat} {p : Process} (found : h.process pid = some p) :
    p.pid = pid ∧ ∃ t, h.table pid = some t ∧ t.created = p.created := by
  obtain ⟨t, there, rfl⟩ := Option.map_eq_some_iff.mp found
  exact ⟨rfl, t, there, rfl⟩

theorem Good.terminate (good : Good h) (i : Nat) : Good (h.terminate i) := by
  unfold Host.terminate
  cases hc : h.children[i]? with
  | none => exact good
  | some c =>
    dsimp only
    cases found : h.resolveProcess c.handle with
    | none => exact good
    | some p =>
      obtain ⟨process, near⟩ := resolveProcess_some found
      obtain ⟨pid, t, there, created⟩ := process_some process
      refine ⟨good.owns, ?_⟩
      intro j q waits
      obtain before | now := List.mem_append.mp waits
      · obtain ⟨d, held⟩ := good.held j q before
        exact ⟨d, held.child, held.pid, held.near, held.created⟩
      · obtain ⟨rfl, rfl⟩ := Prod.mk.inj (List.mem_singleton.mp now)
        refine ⟨c, hc, pid, near, ?_⟩
        intro alive
        have running : c.returncode = none := by
          cases code : c.returncode with
          | none => rfl
          | some n => exact absurd (.inl (by simp [code])) alive
        obtain ⟨t', there', same⟩ := good.owns j c hc running
        obtain rfl : t = t' := Option.some.inj (there.symm.trans there')
        exact created.symm.trans same

theorem Good.test (good : Good h) (j : Nat) : Good (h.test j) := by
  unfold Host.test
  split
  · exact good
  · split
    · have fewer : Good { h with tests := h.tests.eraseIdx j } :=
        good.same rfl rfl fun x hx => List.mem_of_mem_eraseIdx hx
      dsimp only
      split
      · exact fewer
      · exact fewer.registryExitCode _
    · exact good

theorem Good.step (good : Good h) (m : Move) : Good (h.step m) := by
  cases m with
  | exit pid code => exact good.exit pid code
  | reap pid => exact good.reap pid
  | start pid created argv =>
    rw [Host.step, Host.start]
    cases free : h.table pid with
    | some t => exact good
    | none =>
      have next := good.taken free { created, argv } [] (fun c hc => nomatch hc) h.registry
      rwa [List.append_nil] at next
  | spawn worldId argv pid created =>
    rw [Host.step, Host.spawn]
    cases free : h.table pid with
    | some t => exact good
    | none =>
      apply good.taken free { created, argv } [{ worldId, pid, created }]
      intro c hc
      obtain rfl := List.mem_singleton.mp hc
      exact ⟨rfl, rfl⟩
  | poll i =>
    rw [Host.step]
    split
    · exact good
    · exact good.poll _
  | probe worldId fingerprint =>
    obtain ⟨table, children, tests⟩ := probe_same h worldId fingerprint
    exact good.same table children fun x hx => tests ▸ hx
  | terminate i => exact good.terminate i
  | test j => exact good.test j
  | giveUp j => exact good.same rfl rfl fun x hx => List.mem_of_mem_eraseIdx hx
  | closeHandle worldId => exact good.same rfl rfl fun _ => id

theorem Good.run (good : Good h) (moves : List Move) : Good (h.run moves) := by
  induction moves generalizing h with
  | nil => exact good
  | cons m moves ih => exact ih (good.step m)

theorem Good.init : Good {} where
  owns _ _ hc := nomatch hc
  held _ _ waits := nomatch waits

end Steps

section Answers

variable {h : Host}

theorem isRunning_process {pid : Nat} {p : Process} (found : h.process pid = some p) :
    h.isRunning p = true := by
  obtain ⟨same, t, there, created⟩ := process_some found
  rw [Host.isRunning, same, there]
  simp [created]

/-- `poll` says that a process is alive when its pid has a process of the right age. -/
theorem alive_poll (h : Host) (handle : ProcessHandle) :
    (h.poll handle).2.alive = h.identityMatches handle := by
  unfold Host.poll
  cases found : h.process handle.pid with
  | none =>
    rw [Host.identityMatches, found]
    rfl
  | some p =>
    have running := isRunning_process found
    cases same : h.identityMatches handle with
    | false => simp [ProcessStatus.alive]
    | true => simp [running, ProcessStatus.alive]

/-- A fingerprint of this process, as far as it names one. -/
def ProbeFingerprint.About (f : ProbeFingerprint) (handle : ProcessHandle) : Prop :=
  ∀ pid epoch, f.pid = some pid → f.spawnEpoch = some epoch →
    pid = handle.pid ∧ epoch = handle.spawnEpoch

theorem found_probeFingerprint {f : ProbeFingerprint} {handle : ProcessHandle}
    (about : f.About handle) {worldId : String}
    (found : (h.probeFingerprint worldId f).2.isSome = true) :
    h.identityMatches handle = true := by
  unfold Host.probeFingerprint at found
  split at found
  · rename_i pid epoch hpid hepoch
    obtain ⟨rfl, rfl⟩ := about pid epoch hpid hepoch
    cases same : h.identityMatches handle with
    | true => rfl
    | false =>
      have other : h.identityMatches ⟨worldId, handle.pid, handle.spawnEpoch⟩ = false := same
      simp [other] at found
  · cases found

/-- What a probe of a registered process finds is what `poll` says. -/
theorem found_probe {entry : RegistryEntry} {worldId : String}
    (registered : h.registry worldId = some entry) (fingerprint : Option ProbeFingerprint)
    (about : ∀ f, fingerprint = some f → f.About entry.handle) :
    (h.probe worldId fingerprint).2.isSome = h.identityMatches entry.handle := by
  have byRegistry : (h.probeRegistry worldId).isSome = h.identityMatches entry.handle := by
    rw [Host.probeRegistry, registered]
    dsimp only
    cases same : h.identityMatches entry.handle with
    | false => rfl
    | true =>
      cases found : h.process entry.handle.pid with
      | none =>
        rw [Host.identityMatches, found] at same
        cases same
      | some p => simp [isRunning_process found]
  unfold Host.probe
  cases fingerprint with
  | none => exact byRegistry
  | some f =>
    dsimp only
    split
    · rename_i found
      rw [found, found_probeFingerprint (about f rfl) found]
    · exact byRegistry

/-- The adapter notices the exit of a child: `poll` does not call it alive afterwards, and
`poll`, `probe` and the exit tests of `terminate` agree. -/
structure Noticed (h : Host) (i : Nat) (c : Child) : Prop where
  exits : c.Exited h → (h.poll c.handle).2.alive = false
  probes : ∀ entry, h.registry c.worldId = some entry → entry.handle = c.handle →
    ∀ fingerprint : Option ProbeFingerprint, (∀ f, fingerprint = some f → f.About c.handle) →
      (h.probe c.worldId fingerprint).2.isSome = (h.poll c.handle).2.alive
  tests : (h.resolveProcess c.handle).any (fun p => !h.processExited p) =
    (h.poll c.handle).2.alive
  waits : ∀ p, (i, p) ∈ h.tests → (!h.processExited p) = (h.poll c.handle).2.alive

theorem identityMatches_gone {c : Child} : h.identityMatches c.handle = false ↔ c.Gone h := by
  rw [Host.identityMatches, Host.process, Child.Gone]
  cases there : h.table c.handle.pid with
  | none =>
    have there : h.table c.pid = none := there
    simp [there]
  | some t =>
    have there : h.table c.pid = some t := there
    simp [there, Child.handle]

theorem process_child {c : Child} {t : Task} (there : h.table c.pid = some t) :
    h.process c.handle.pid = some ⟨c.pid, t.created⟩ := by
  have there : h.table c.handle.pid = some t := there
  rw [Host.process, there]
  rfl

theorem identityMatches_child {c : Child} {t : Task} (there : h.table c.pid = some t)
    (created : t.created = c.created) : h.identityMatches c.handle = true := by
  rw [Host.identityMatches, process_child there, Option.any_some, created]
  exact near_self c.created

/-- While a child runs its process is in the table, and alive. -/
theorem Good.alive (good : Good h) {i : Nat} {c : Child} (hc : h.children[i]? = some c)
    (runs : ¬c.Exited h) :
    ∃ t, h.table c.pid = some t ∧ t.created = c.created ∧ t.exited = none := by
  have running : c.returncode = none := by
    cases code : c.returncode with
    | none => rfl
    | some n => exact absurd (.inl (by simp [code])) runs
  obtain ⟨t, there, created⟩ := good.owns i c hc running
  refine ⟨t, there, created, ?_⟩
  cases dead : t.exited with
  | none => rfl
  | some code => exact absurd (.inr (by simp [there, dead])) runs

theorem processExited_iff (h : Host) (p : Process) :
    h.processExited p = false ↔ ∃ t, h.table p.pid = some t ∧ t.exited = none ∧
      t.created = p.created := by
  rw [Host.processExited]
  cases there : h.table p.pid with
  | none => simp
  | some t => simp [Host.isRunning, there]

theorem Good.noticed (good : Good h) {i : Nat} {c : Child} (hc : h.children[i]? = some c)
    (gone : c.Exited h → c.Gone h) : Noticed h i c := by
  have probes : ∀ entry, h.registry c.worldId = some entry → entry.handle = c.handle →
      ∀ fingerprint : Option ProbeFingerprint, (∀ f, fingerprint = some f → f.About c.handle) →
        (h.probe c.worldId fingerprint).2.isSome = (h.poll c.handle).2.alive := by
    intro entry registered same fingerprint about
    rw [alive_poll, ← same] at *
    exact found_probe registered fingerprint about
  by_cases exited : c.Exited h
  · have missing : h.identityMatches c.handle = false := identityMatches_gone.mpr (gone exited)
    refine ⟨fun _ => by rw [alive_poll, missing], probes, ?_, ?_⟩
    · rw [alive_poll, missing, Host.resolveProcess, missing]
      rfl
    · intro p waits
      obtain ⟨d, held⟩ := good.held i p waits
      obtain rfl : d = c := Option.some.inj (held.child.symm.trans hc)
      rw [alive_poll, missing, Bool.not_eq_false']
      apply Bool.eq_true_of_not_eq_false
      intro alive
      rw [processExited_iff] at alive
      obtain ⟨t, there, -, created⟩ := alive
      rw [held.pid] at there
      have far := gone exited t there
      rw [created, held.near] at far
      cases far
  · obtain ⟨t, there, created, running⟩ := good.alive hc exited
    have same : h.identityMatches c.handle = true := identityMatches_child there created
    have alive : ∀ p : Process, p.pid = c.pid → p.created = c.created →
        h.processExited p = false := by
      intro p pid now
      rw [processExited_iff, pid, now]
      exact ⟨t, there, running, created⟩
    refine ⟨fun dead => absurd dead exited, probes, ?_, ?_⟩
    · rw [alive_poll, same, Host.resolveProcess, if_pos same, process_child there, Option.any_some,
        alive ⟨c.pid, t.created⟩ rfl created]
      rfl
    · intro p waits
      obtain ⟨d, held⟩ := good.held i p waits
      obtain rfl : d = c := Option.some.inj (held.child.symm.trans hc)
      rw [alive_poll, same, alive p held.pid (held.created exited)]
      rfl

end Answers

/-- Polls of a child and probes of its world leave it a zombie, so that each of them goes on
calling it alive. -/
theorem polls_keep_zombie {h : Host} {i : Nat} {c : Child} (hc : h.children[i]? = some c)
    {t : Task} (there : h.table c.pid = some t) (created : t.created = c.created)
    (zombie : t.exited ≠ none) (moves : List Move)
    (watches : ∀ m ∈ moves, m = .poll i ∨ ∃ fingerprint, m = .probe c.worldId fingerprint) :
    c.Exited (h.run moves) ∧ ((h.run moves).poll c.handle).2.alive = true := by
  have kept : (h.run moves).table = h.table := by
    induction moves generalizing h with
    | nil => rfl
    | cons m moves ih =>
      have same : (h.step m).table = h.table ∧ (h.step m).children = h.children := by
        obtain rfl | ⟨fingerprint, rfl⟩ := watches m (List.mem_cons_self ..)
        · have matched : h.identityMatches c.handle = true := identityMatches_child there created
          have process := process_child there
          have polled : (h.poll c.handle).1 = h := by
            simp [Host.poll, process, matched, isRunning_process process]
          rw [Host.step, hc]
          dsimp only
          rw [polled]
          exact ⟨rfl, rfl⟩
        · obtain ⟨table, children, -⟩ := probe_same h c.worldId fingerprint
          exact ⟨table, children⟩
      have later := ih (h := h.step m) (by rw [same.2, hc]) (by rw [same.1, there])
        fun m' hm' => watches m' (List.mem_cons_of_mem _ hm')
      exact later.trans same.1
  refine ⟨.inr ?_, ?_⟩
  · rw [kept, there]
    exact zombie
  · rw [alive_poll]
    exact identityMatches_child (by rw [kept, there]) created

/-- In every run, and for every child: the adapter notices its exit exactly when, once the child
has exited, it is reaped and no process that was created within a second of it has its pid. -/
theorem exits_noticed_iff (moves : List Move) (i : Nat) (c : Child)
    (hc : (Host.run {} moves).children[i]? = some c) :
    Noticed (Host.run {} moves) i c ↔
      (c.Exited (Host.run {} moves) → c.Gone (Host.run {} moves)) := by
  constructor
  · intro noticed exited
    apply identityMatches_gone.mp
    rw [← alive_poll]
    exact noticed.exits exited
  · exact (Good.init.run moves).noticed hc

/-- A stop whose exit test reaps the child. -/
theorem stopped_child_noticed :
    Noticed (Host.run {} [.spawn "w" ["java"] 7 100, .poll 0, .terminate 0, .exit 7 0, .test 0]) 0
      ⟨"w", 7, 100, some 0⟩ := by
  apply (exits_noticed_iff _ 0 ⟨"w", 7, 100, some 0⟩ rfl).mpr
  intro _ t there
  cases there

/-- A crashed child that nobody has reaped is called alive. -/
theorem zombie_called_alive :
    ¬∀ (moves : List Move) (i : Nat) (c : Child), (Host.run {} moves).children[i]? = some c →
      Noticed (Host.run {} moves) i c := by
  intro claim
  have noticed := claim [.spawn "w" ["java"] 7 100, .exit 7 1] 0 ⟨"w", 7, 100, none⟩ rfl
  have exited : Child.Exited (Host.run {} [.spawn "w" ["java"] 7 100, .exit 7 1])
      ⟨"w", 7, 100, none⟩ := .inr fun same => nomatch same
  have alive := noticed.exits exited
  rw [alive_poll] at alive
  cases alive

end McManager.ProcessControl
