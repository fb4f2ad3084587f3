import McManager.Infrastructure.BackupEngine

namespace McManager.BackupEngine

open Framework

/-- What a world tree shows at a path. -/
inductive Sight
  | directory
  | file (content : List UInt8) (modified : Int)
  | dangling
  deriving DecidableEq, Repr

section Walking

variable (host : Host) (fs : FileSystem) (root : Path)

/-- What the tree shows below a directory: the excluded names, the links that leave the root and
the links to a directory that the path has come through are left out. -/
def sightFrom (directory : Path) (ancestors : List Path) : List String → Option Sight
  | [] => some .directory
  | name :: rest =>
    if name ∈ fs.iterdir directory then
      match fs.resolve host.loops (directory ++ [name]) with
      | none => none
      | some resolved =>
        if isWithin resolved root && !excluded name then
          match fs.stat (directory ++ [name]) with
          | some .directory =>
            if resolved ∈ ancestors then none
            else sightFrom (directory ++ [name]) (resolved :: ancestors) rest
          | some (.file content modified) =>
            if rest = [] then some (.file content modified) else none
          | _ => if rest = [] then some .dangling else none
        else none
    else none

/-- What the tree shows below a directory still to be visited. -/
def Pending.sight (p : Pending) (relative : List String) : Option Sight :=
  sightFrom host fs root p.directory p.ancestors relative

end Walking

section Visits

variable {host : Host} {fs : FileSystem} {root : Path}

/-- A file that the format can date. -/
def Datable (host : Host) (modified : Int) : Prop :=
  1980 ≤ host.year modified ∧ host.year modified ≤ 2107

/-- What the visit of one path makes of the walk. -/
inductive Visited (host : Host) (fs : FileSystem) (root : Path) (p : Pending) (name : String)
    (w : Walk) : Walk → Prop
  | skipped (skipped : Nat) : (∀ rest, p.sight host fs root (name :: rest) = none) →
      Visited host fs root p name w { w with skipped }
  | pushed (child : Pending) : child.relativeDir = p.relativeDir ++ [name] →
      (∀ rest, p.sight host fs root (name :: rest) = child.sight host fs root rest) →
      (∃ resolved ∈ fs.directories, resolved ∉ p.ancestors ∧
        child.ancestors = resolved :: p.ancestors) →
      Visited host fs root p name w { w with pending := child :: w.pending }
  | stored (content : List UInt8) (modified : Int) :
      (∀ rest, p.sight host fs root (name :: rest) =
        if rest = [] then some (.file content modified) else none) → Datable host modified →
      Visited host fs root p name w { w with
        members := w.members ++ [⟨asPosix (p.relativeDir ++ [name]), content⟩] }

/-- A path that ends the walk: nothing is behind it, or the file cannot be dated. -/
def Fatal (host : Host) : Sight → Prop
  | .directory => False
  | .file _ modified => ¬Datable host modified
  | .dangling => True

theorem visit_ok {p : Pending} {name : String} {w w' : Walk}
    (listed : name ∈ fs.iterdir p.directory) (h : visit host fs root p name w = .ok w') :
    Visited host fs root p name w w' := by
  unfold visit at h
  cases hresolve : fs.resolve host.loops (p.directory ++ [name]) with
  | none =>
    simp only [hresolve] at h
    cases h
    exact .skipped _ fun rest => by simp [Pending.sight, sightFrom, listed, hresolve]
  | some resolved =>
    simp only [hresolve] at h
    split at h
    · rename_i hwithin
      cases h
      refine .skipped _ fun rest => ?_
      simp only [Bool.not_eq_true'] at hwithin
      simp [Pending.sight, sightFrom, listed, hresolve, hwithin]
    rename_i hwithin
    have hwithin : isWithin resolved root = true := by simpa using hwithin
    split at h
    · rename_i hexcluded
      cases h
      refine .skipped _ fun rest => ?_
      simp [Pending.sight, sightFrom, listed, hresolve, hexcluded]
    rename_i hexcluded
    rw [Bool.not_eq_true] at hexcluded
    split at h
    · rename_i hdir
      have hstat : fs.stat (p.directory ++ [name]) = some .directory := by
        simpa [FileSystem.isDir] using hdir
      split at h
      · rename_i hancestor
        cases h
        refine .skipped _ fun rest => ?_
        simp [Pending.sight, sightFrom, listed, hresolve, hwithin, hexcluded, hstat, hancestor]
      · rename_i hancestor
        cases h
        refine .pushed _ rfl (fun rest => ?_) ⟨resolved, ?_, hancestor, rfl⟩
        · simp [Pending.sight, sightFrom, listed, hresolve, hwithin, hexcluded, hstat, hancestor]
        · obtain ⟨there, hthere, hlookup⟩ := FileSystem.resolve_of_isDir hdir host.loops
          rw [hresolve] at hthere
          cases hthere
          exact FileSystem.mem_directories hlookup
    · rename_i hdir
      unfold write at h
      cases hstat : fs.stat (p.directory ++ [name]) with
      | none => simp [hstat] at h
      | some entry =>
        cases entry with
        | directory => simp [FileSystem.isDir, hstat] at hdir
        | link target => simp [hstat] at h
        | file content modified =>
          simp only [hstat] at h
          by_cases hyear : 1980 ≤ host.year modified ∧ host.year modified ≤ 2107
          · rw [if_pos hyear] at h
            cases h
            refine .stored content modified (fun rest => ?_) hyear
            simp [Pending.sight, sightFrom, listed, hresolve, hwithin, hexcluded, hstat]
          · rw [if_neg hyear] at h
            cases h

theorem visit_error {p : Pending} {name : String} {w : Walk} {e : ArchiveError}
    (listed : name ∈ fs.iterdir p.directory) (h : visit host fs root p name w = .error e) :
    ∃ s, p.sight host fs root [name] = some s ∧ Fatal host s := by
  unfold visit at h
  cases hresolve : fs.resolve host.loops (p.directory ++ [name]) with
  | none => simp [hresolve] at h
  | some resolved =>
    simp only [hresolve] at h
    split at h
    · cases h
    rename_i hwithin
    have hwithin : isWithin resolved root = true := by simpa using hwithin
    split at h
    · cases h
    rename_i hexcluded
    rw [Bool.not_eq_true] at hexcluded
    split at h
    · split at h <;> cases h
    · rename_i hdir
      unfold write at h
      cases hstat : fs.stat (p.directory ++ [name]) with
      | none =>
        refine ⟨.dangling, ?_, trivial⟩
        simp [Pending.sight, sightFrom, listed, hresolve, hwithin, hexcluded, hstat]
      | some entry =>
        cases entry with
        | directory => simp [FileSystem.isDir, hstat] at hdir
        | link target =>
          refine ⟨.dangling, ?_, trivial⟩
          simp [Pending.sight, sightFrom, listed, hresolve, hwithin, hexcluded, hstat]
        | file content modified =>
          simp only [hstat] at h
          by_cases hyear : 1980 ≤ host.year modified ∧ host.year modified ≤ 2107
          · rw [if_pos hyear] at h
            cases h
          · refine ⟨.file content modified, ?_, hyear⟩
            simp [Pending.sight, sightFrom, listed, hresolve, hwithin, hexcluded, hstat]

/-- The walk is faithful to what the tree shows below `top`: it goes on to directories of the
tree, it has stored files of the tree, and whatever it has not stored is below a directory it
still has to visit, or is `owed`. -/
structure Faithful (host : Host) (fs : FileSystem) (root : Path) (top : Pending)
    (owed : List String → Prop) (w : Walk) : Prop where
  reached : ∀ p ∈ w.pending, ∀ rest,
    top.sight host fs root (p.relativeDir ++ rest) = p.sight host fs root rest
  stored : ∀ m ∈ w.members, ∃ relative content modified,
    top.sight host fs root relative = some (.file content modified) ∧ Datable host modified ∧
      m = ⟨asPosix relative, content⟩
  covered : ∀ relative s, top.sight host fs root relative = some s → s ≠ .directory →
    (∃ content modified, s = .file content modified ∧ Datable host modified ∧
      ⟨asPosix relative, content⟩ ∈ w.members) ∨
    (∃ p ∈ w.pending, ∃ name rest, relative = p.relativeDir ++ name :: rest) ∨ owed relative

/-- What the names of a directory owe the walk. -/
def owes (p : Pending) (names : List String) (relative : List String) : Prop :=
  ∃ name ∈ names, ∃ rest, relative = p.relativeDir ++ name :: rest

variable {top p : Pending}

/-- One visit pays what its name owes. -/
theorem Faithful.visit {name : String} {names : List String} {w w' : Walk}
    (faithful : Faithful host fs root top (owes p (name :: names)) w)
    (reached : ∀ rest, top.sight host fs root (p.relativeDir ++ rest) = p.sight host fs root rest)
    (h : Visited host fs root p name w w') : Faithful host fs root top (owes p names) w' := by
  have shown : ∀ rest, top.sight host fs root (p.relativeDir ++ name :: rest) =
      p.sight host fs root (name :: rest) := fun rest => reached (name :: rest)
  cases h with
  | skipped skipped none =>
    refine ⟨faithful.reached, faithful.stored, ?_⟩
    intro relative s hs hdir
    rcases faithful.covered relative s hs hdir with h | h | ⟨n, hn, rest, rfl⟩
    · exact .inl h
    · exact .inr (.inl h)
    · rcases List.mem_cons.mp hn with rfl | hn
      · rw [shown, none] at hs
        cases hs
      · exact .inr (.inr ⟨n, hn, rest, rfl⟩)
  | pushed child hrelative hsight _ =>
    refine ⟨?_, faithful.stored, ?_⟩
    · intro q hq rest
      rcases List.mem_cons.mp hq with rfl | hq
      · rw [hrelative, List.append_assoc, List.singleton_append, shown, hsight]
      · exact faithful.reached q hq rest
    · intro relative s hs hdir
      rcases faithful.covered relative s hs hdir with h | ⟨q, hq, h⟩ | ⟨n, hn, rest, rfl⟩
      · exact .inl h
      · exact .inr (.inl ⟨q, List.mem_cons_of_mem _ hq, h⟩)
      · rcases List.mem_cons.mp hn with rfl | hn
        · cases rest with
          | nil =>
            rw [shown, hsight] at hs
            cases hs
            exact absurd rfl hdir
          | cons next rest =>
            refine .inr (.inl ⟨child, List.mem_cons_self, next, rest, ?_⟩)
            rw [hrelative, List.append_assoc, List.singleton_append]
        · exact .inr (.inr ⟨n, hn, rest, rfl⟩)
  | stored content modified hsight hdate =>
    refine ⟨faithful.reached, ?_, ?_⟩
    · intro m hm
      rcases List.mem_append.mp hm with hm | hm
      · exact faithful.stored m hm
      · refine ⟨p.relativeDir ++ [name], content, modified, ?_, hdate, List.mem_singleton.mp hm⟩
        rw [shown, hsight, if_pos rfl]
    · intro relative s hs hdir
      rcases faithful.covered relative s hs hdir with ⟨c, md, hfile, hdated, hm⟩ | h | ⟨n, hn, rest, rfl⟩
      · exact .inl ⟨c, md, hfile, hdated, List.mem_append_left _ hm⟩
      · exact .inr (.inl h)
      · rcases List.mem_cons.mp hn with rfl | hn
        · rw [shown, hsight] at hs
          split at hs
          · rename_i hrest
            cases hs
            rw [hrest]
            exact .inl ⟨content, modified, rfl, hdate, List.mem_append_right _ (by simp)⟩
          · cases hs
        · exact .inr (.inr ⟨n, hn, rest, rfl⟩)

/-- The inner loop pays what its names owe, or meets a path that ends the walk. -/
theorem Faithful.scan (names : List String) {w : Walk}
    (listed : ∀ name ∈ names, name ∈ fs.iterdir p.directory)
    (faithful : Faithful host fs root top (owes p names) w)
    (reached : ∀ rest, top.sight host fs root (p.relativeDir ++ rest) =
      p.sight host fs root rest) :
    match BackupEngine.scan host fs root p names w with
    | .ok w' => Faithful host fs root top (fun _ => False) w'
    | .error _ => ∃ relative s, top.sight host fs root relative = some s ∧ Fatal host s := by
  induction names generalizing w with
  | nil =>
    refine ⟨faithful.reached, faithful.stored, ?_⟩
    intro relative s hs hdir
    rcases faithful.covered relative s hs hdir with h | h | ⟨n, hn, -⟩
    · exact .inl h
    · exact .inr (.inl h)
    · cases hn
  | cons name names ih =>
    have hlisted := listed name List.mem_cons_self
    unfold BackupEngine.scan
    cases hvisit : BackupEngine.visit host fs root p name w with
    | error e =>
      obtain ⟨s, hs, hfatal⟩ := visit_error hlisted hvisit
      exact ⟨p.relativeDir ++ [name], s, by rw [reached, hs], hfatal⟩
    | ok w₁ =>
      exact ih (fun n hn => listed n (List.mem_cons_of_mem _ hn))
        (faithful.visit reached (visit_ok hlisted hvisit))

theorem listed_of_sight {name : String} {rest : List String} {s : Sight}
    (h : p.sight host fs root (name :: rest) = some s) : name ∈ fs.iterdir p.directory := by
  by_contra hn
  simp [Pending.sight, sightFrom, hn] at h

/-- A walk that ends has stored every file of the tree, or has met a path that ends it. -/
theorem Faithful.walk (fuel : Nat) {w : Walk}
    (faithful : Faithful host fs root top (fun _ => False) w) :
    match BackupEngine.walk host fs root fuel w with
    | none => True
    | some (.ok w') => Faithful host fs root top (fun _ => False) w' ∧ w'.pending = []
    | some (.error _) =>
      ∃ relative s, top.sight host fs root relative = some s ∧ Fatal host s := by
  induction fuel generalizing w with
  | zero => trivial
  | succ fuel ih =>
    unfold BackupEngine.walk
    obtain ⟨pending, members, skipped⟩ := w
    cases pending with
    | nil => exact ⟨faithful, rfl⟩
    | cons p rest =>
      have reached := faithful.reached p List.mem_cons_self
      have begun : Faithful host fs root top (owes p (fs.iterdir p.directory))
          ⟨rest, members, skipped⟩ := by
        refine ⟨fun q hq => faithful.reached q (List.mem_cons_of_mem _ hq), faithful.stored, ?_⟩
        intro relative s hs hdir
        rcases faithful.covered relative s hs hdir with h | ⟨q, hq, name, more, rfl⟩ | h
        · exact .inl h
        · rcases List.mem_cons.mp hq with rfl | hq
          · rw [reached] at hs
            exact .inr (.inr ⟨name, listed_of_sight hs, more, rfl⟩)
          · exact .inr (.inl ⟨q, hq, name, more, rfl⟩)
        · exact h.elim
      have scanned := Faithful.scan (fs.iterdir p.directory) (fun _ h => h) begun reached
      dsimp only
      cases hscan : BackupEngine.scan host fs root p (fs.iterdir p.directory)
          ⟨rest, members, skipped⟩ with
      | error e =>
        rw [hscan] at scanned
        exact scanned
      | ok w₁ =>
        rw [hscan] at scanned
        exact ih scanned

/-- The walk from these directories on comes to an end. -/
def Halts (host : Host) (fs : FileSystem) (root : Path) (pending : List Pending) : Prop :=
  ∀ members skipped, ∃ fuel r, walk host fs root fuel ⟨pending, members, skipped⟩ = some r

theorem halts_nil : Halts host fs root [] := fun _ _ => ⟨1, _, rfl⟩

/-- The inner loop adds directories further down only. -/
theorem halts_scan {p : Pending} (names : List String) {w w' : Walk}
    (listed : ∀ name ∈ names, name ∈ fs.iterdir p.directory)
    (deeper : ∀ child rest, (∃ resolved ∈ fs.directories, resolved ∉ p.ancestors ∧
        child.ancestors = resolved :: p.ancestors) → Halts host fs root rest →
      Halts host fs root (child :: rest))
    (before : Halts host fs root w.pending) (h : scan host fs root p names w = .ok w') :
    Halts host fs root w'.pending := by
  induction names generalizing w with
  | nil =>
    cases h
    exact before
  | cons name names ih =>
    unfold scan at h
    cases hvisit : visit host fs root p name w with
    | error e => simp [hvisit] at h
    | ok w₁ =>
      simp only [hvisit] at h
      refine ih (fun n hn => listed n (List.mem_cons_of_mem _ hn)) ?_ h
      cases visit_ok (listed name List.mem_cons_self) hvisit with
      | skipped => exact before
      | pushed child _ _ hchild => exact deeper child _ hchild before
      | stored => exact before

/-- The directories on the way to a pending one are different ones. -/
def Fresh (fs : FileSystem) (p : Pending) : Prop :=
  p.ancestors.Nodup ∧ p.ancestors ⊆ fs.directories

/-- Below a directory the walk ends: on the way down every directory is a new one. -/
theorem halts_cons (n : Nat) {p : Pending} (fresh : Fresh fs p)
    (room : fs.directories.length - p.ancestors.length ≤ n) {rest : List Pending}
    (halts : Halts host fs root rest) : Halts host fs root (p :: rest) := by
  induction n generalizing p rest with
  | zero =>
    intro members skipped
    have full : ∀ child : Pending, ¬∃ resolved ∈ fs.directories, resolved ∉ p.ancestors ∧
        child.ancestors = resolved :: p.ancestors := by
      rintro child ⟨resolved, hdir, hnew, -⟩
      have hnodup : (resolved :: p.ancestors).Nodup := List.nodup_cons.mpr ⟨hnew, fresh.1⟩
      have hsubset : resolved :: p.ancestors ⊆ fs.directories :=
        List.cons_subset.mpr ⟨hdir, fresh.2⟩
      have hlength := (List.subperm_of_subset hnodup hsubset).length_le
      rw [List.length_cons] at hlength
      omega
    cases hscan : scan host fs root p (fs.iterdir p.directory) ⟨rest, members, skipped⟩ with
    | error e => exact ⟨1, .error e, by simp only [walk, hscan]⟩
    | ok w =>
      have after := halts_scan _ (fun _ h => h) (fun child _ h _ => (full child h).elim)
        (w := ⟨rest, members, skipped⟩) halts hscan
      obtain ⟨fuel, r, h⟩ := after w.members w.skipped
      exact ⟨fuel + 1, r, by simp only [walk, hscan]; exact h⟩
  | succ n ih =>
    intro members skipped
    cases hscan : scan host fs root p (fs.iterdir p.directory) ⟨rest, members, skipped⟩ with
    | error e => exact ⟨1, .error e, by simp only [walk, hscan]⟩
    | ok w =>
      have after := halts_scan _ (fun _ h => h) (w := ⟨rest, members, skipped⟩) ?_ halts hscan
      · obtain ⟨fuel, r, h⟩ := after w.members w.skipped
        exact ⟨fuel + 1, r, by simp only [walk, hscan]; exact h⟩
      · rintro child later ⟨resolved, hdir, hnew, hancestors⟩ hlater
        have hfresh : Fresh fs child := by
          rw [Fresh, hancestors]
          exact ⟨List.nodup_cons.mpr ⟨hnew, fresh.1⟩, List.cons_subset.mpr ⟨hdir, fresh.2⟩⟩
        refine ih hfresh ?_ hlater
        rw [hancestors, List.length_cons]
        omega

end Visits

end McManager.BackupEngine
