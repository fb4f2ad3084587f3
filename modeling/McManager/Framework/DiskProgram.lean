import McManager.Framework.FileSystem

namespace McManager.Framework

namespace Disk

/-- A path leads to the directory or below it. -/
def below (directory path : Path) : Bool := directory.isPrefixOf path

@[simp] theorem below_iff {directory path : Path} :
    below directory path = true ↔ ∃ rest, path = directory ++ rest := by
  rw [below, List.isPrefixOf_iff_prefix]
  exact ⟨fun ⟨rest, h⟩ => ⟨rest, h.symm⟩, fun ⟨rest, h⟩ => ⟨rest, h.symm⟩⟩

/-- Without a path and all below it. -/
def remove (disk : Disk) (path : Path) : Disk :=
  fun q => if below path q then none else disk q

def put (disk : Disk) (path : Path) (entry : Entry) : Disk :=
  fun q => if q = path then some entry else disk q

/-- With the contents of a directory at a path. -/
def graft (disk : Disk) (path : Path) (contents : List String → Option Entry) : Disk :=
  fun q => if below path q then contents (q.drop path.length) else disk q

/-- A path and all below it moved. -/
def moved (disk : Disk) (source destination : Path) : Disk :=
  (disk.remove source).graft destination fun rest => disk (source ++ rest)

/-- With the directories on the way to a path. -/
def filled (disk : Disk) (path : Path) : Disk :=
  fun q => if below q path && (disk q).isNone then some .directory else disk q

/-- An interrupted operation leaves anything at the paths it touches. -/
def left (disk : Disk) (touched : Path → Bool) (remains : Disk) : Disk :=
  fun q => if touched q then remains q else disk q

/-- `os.stat`, where only the last name of the path may be a link; one that leads through more
than so many others inside one another leads nowhere. -/
def stat (disk : Disk) (links : Nat) (path : Path) : Option Entry :=
  match disk path with
  | some (.link target) =>
    match disk.realpath true links [path] (if target.absolute then [] else path.dropLast)
        target.parts with
    | .ok there => disk there
    | .error _ => none
  | entry => entry

/-- `Path.is_symlink`. -/
def isSymlink (disk : Disk) (path : Path) : Bool :=
  match disk path with
  | some (.link _) => true
  | _ => false

/-- `Path.is_file`. -/
def isFile (disk : Disk) (links : Nat) (path : Path) : Bool :=
  match disk.stat links path with
  | some (.file _ _) => true
  | _ => false

/-- `Path.exists`. -/
def present (disk : Disk) (links : Nat) (path : Path) : Bool := (disk.stat links path).isSome

section Moves

variable {d : Disk} {source destination path : Path}

theorem remove_other {q : Path} (h : ¬below path q) : d.remove path q = d q := if_neg h

theorem moved_destination (rest : List String) :
    d.moved source destination (destination ++ rest) = d (source ++ rest) := by
  have h : below destination (destination ++ rest) = true := below_iff.mpr ⟨rest, rfl⟩
  rw [moved, graft, if_pos h, List.drop_left]

theorem moved_other {q : Path} (hsource : ¬below source q) (hdestination : ¬below destination q) :
    d.moved source destination q = d q := by
  rw [moved, graft, if_neg hdestination, remove_other hsource]

theorem moved_source {q : Path} (hsource : below source q)
    (hdestination : ¬below destination q) : d.moved source destination q = none := by
  rw [moved, graft, if_neg hdestination, remove, if_pos hsource]

theorem left_other {touched : Path → Bool} {remains : Disk} {q : Path} (h : ¬touched q) :
    d.left touched remains q = d q := if_neg h

theorem graft_below (contents : List String → Option Entry) (rest : List String) :
    d.graft path contents (path ++ rest) = contents rest := by
  have h : below path (path ++ rest) = true := below_iff.mpr ⟨rest, rfl⟩
  rw [graft, if_pos h, List.drop_left]

theorem graft_other (contents : List String → Option Entry) {q : Path} (h : ¬below path q) :
    d.graft path contents q = d q := if_neg h

theorem stat_of_none {links : Nat} (h : d path = none) : d.stat links path = none := by
  rw [stat, h]

/-- Where there is neither a link nor a file nor anything else, there is nothing. -/
theorem none_of_not_present {links : Nat} (hlink : d.isSymlink path = false)
    (h : d.present links path = false) : d path = none := by
  cases hentry : d path with
  | none => rfl
  | some entry =>
    cases entry with
    | file content modified => simp [present, stat, hentry] at h
    | directory => simp [present, stat, hentry] at h
    | link target => simp [isSymlink, hentry] at hlink

end Moves

section Walks

variable {d d' : Disk}

theorem follow_mono {seen seen' : List Path}
    {jump jump' : List Path → Path → List String → Except PathError Path}
    (sub : ∀ q e, d q = some e → d' q = some e)
    (old : ∀ q ∈ seen', (d q).isSome → q ∈ seen)
    (jumps : ∀ q path parts there, jump (q :: seen) path parts = .ok there →
      jump' (q :: seen') path parts = .ok there)
    (parts : List String) {path there : Path}
    (h : d.follow true seen jump path parts = .ok there) :
    d'.follow true seen' jump' path parts = .ok there := by
  induction parts generalizing path with
  | nil => exact h
  | cons part rest ih =>
    unfold follow at h ⊢
    simp only [true_and] at h ⊢
    split at h
    · cases h
    rename_i hdir
    rw [if_neg (by simpa using sub _ _ (not_not.mp hdir))]
    split at h
    · rename_i hdot
      rw [if_pos hdot]
      exact ih h
    rename_i hdot
    rw [if_neg hdot]
    split at h
    · rename_i hup
      rw [if_pos hup]
      exact ih h
    rename_i hup
    rw [if_neg hup]
    cases hentry : d (path ++ [part]) with
    | none =>
      rw [hentry] at h
      cases h
    | some entry =>
      rw [hentry] at h
      rw [sub _ _ hentry]
      cases entry with
      | file content modified => exact ih h
      | directory => exact ih h
      | link target =>
        dsimp only at h ⊢
        split at h
        · cases h
        rename_i hseen
        rw [if_neg fun hin => hseen (old _ hin (by simp [hentry]))]
        split at h
        · rename_i c hc
          rw [jumps _ _ _ _ hc]
          exact ih h
        · cases h
        · cases h

/-- A walk that comes out goes the same way where there is more. -/
theorem realpath_mono (sub : ∀ q e, d q = some e → d' q = some e) (n : Nat)
    {seen seen' : List Path} (old : ∀ q ∈ seen', (d q).isSome → q ∈ seen) {path there : Path}
    {parts : List String} (h : d.realpath true n seen path parts = .ok there) :
    d'.realpath true n seen' path parts = .ok there := by
  have longer : ∀ {seen seen' : List Path} q, (∀ q ∈ seen', (d q).isSome → q ∈ seen) →
      ∀ p ∈ q :: seen', (d p).isSome → p ∈ q :: seen := by
    intro seen seen' q old p hp hsome
    rcases List.mem_cons.mp hp with rfl | hp
    · exact List.mem_cons_self
    · exact List.mem_cons_of_mem _ (old p hp hsome)
  induction n generalizing seen seen' path there parts with
  | zero => exact follow_mono sub old (fun _ _ _ _ h => h) parts h
  | succ n ih => exact follow_mono sub old (fun q _ _ _ h => ih (longer q old) h) parts h

theorem stat_mono (sub : ∀ q e, d q = some e → d' q = some e) {links : Nat} {path : Path}
    {e : Entry} (h : d.stat links path = some e) : d'.stat links path = some e := by
  unfold stat at h ⊢
  cases hentry : d path with
  | none => simp [hentry] at h
  | some entry =>
    rw [hentry] at h
    rw [sub _ _ hentry]
    cases entry with
    | file content modified => exact h
    | directory => exact h
    | link target =>
      dsimp only at h ⊢
      split at h
      · rename_i there hwalk
        rw [realpath_mono sub links (fun _ hq _ => hq) hwalk]
        exact sub _ _ h
      · cases h

theorem follow_remove {gone : Path} {target : Target} (link : d gone = some (.link target))
    {seen : List Path} (hseen : gone ∈ seen)
    {jump jump' : List Path → Path → List String → Except PathError Path}
    (jumps : ∀ q path parts there, ¬below gone path → jump (q :: seen) path parts = .ok there →
      jump' (q :: seen) path parts = .ok there ∧ ¬below gone there)
    (parts : List String) {path there : Path} (out : ¬below gone path)
    (h : d.follow true seen jump path parts = .ok there) :
    (d.remove gone).follow true seen jump' path parts = .ok there ∧ ¬below gone there := by
  have kept : ∀ q, ¬below gone q → d.remove gone q = d q := by
    intro q hq
    simp only [remove, if_neg hq]
  have upward : ∀ {path : Path}, ¬below gone path → ¬below gone path.dropLast := by
    intro path hpath hbelow
    rw [below, List.isPrefixOf_iff_prefix] at hpath hbelow
    exact hpath (hbelow.trans (List.dropLast_prefix path))
  have deeper : ∀ {path : Path} {part : String}, ¬below gone path → path ++ [part] ≠ gone →
      ¬below gone (path ++ [part]) := by
    intro path part hpath hne hbelow
    rw [below, List.isPrefixOf_iff_prefix] at hpath hbelow
    rcases List.prefix_concat_iff.mp hbelow with h | h
    · exact hne h.symm
    · exact hpath h
  induction parts generalizing path with
  | nil =>
    cases h
    exact ⟨rfl, out⟩
  | cons part rest ih =>
    unfold follow at h ⊢
    simp only [true_and] at h ⊢
    rw [kept path out]
    split at h
    · cases h
    rename_i hdir
    rw [if_neg hdir]
    split at h
    · rename_i hdot
      rw [if_pos hdot]
      exact ih out h
    rename_i hdot
    rw [if_neg hdot]
    split at h
    · rename_i hup
      rw [if_pos hup]
      exact ih (upward out) h
    rename_i hup
    rw [if_neg hup]
    cases hentry : d (path ++ [part]) with
    | none =>
      rw [hentry] at h
      cases h
    | some entry =>
      rw [hentry] at h
      by_cases hgone : path ++ [part] = gone
      · rw [hgone, link] at hentry
        cases hentry
        simp [hgone, hseen] at h
      rw [kept _ (deeper out hgone), hentry]
      cases entry with
      | file content modified => exact ih (deeper out hgone) h
      | directory => exact ih (deeper out hgone) h
      | link next =>
        dsimp only at h ⊢
        split at h
        · cases h
        rename_i hnew
        rw [if_neg hnew]
        split at h
        · rename_i there hjump
          have hstart : ¬below gone (if next.absolute then [] else path) := by
            split
            · intro hbelow
              rw [below, List.isPrefixOf_iff_prefix] at hbelow out
              exact out (hbelow.trans (List.nil_prefix))
            · exact out
          obtain ⟨hjump', hout⟩ := jumps _ _ _ _ hstart hjump
          rw [hjump']
          exact ih hout h
        · cases h
        · cases h

/-- A walk that has come through a link never comes there again. -/
theorem realpath_remove {gone : Path} {target : Target} (link : d gone = some (.link target))
    (n : Nat) {seen : List Path} (hseen : gone ∈ seen) {path there : Path} {parts : List String}
    (out : ¬below gone path) (h : d.realpath true n seen path parts = .ok there) :
    (d.remove gone).realpath true n seen path parts = .ok there ∧ ¬below gone there := by
  induction n generalizing seen path there parts with
  | zero =>
    exact follow_remove link hseen (fun _ _ _ _ _ h => by cases h) parts out h
  | succ n ih =>
    exact follow_remove link hseen
      (fun _ _ _ _ out h => ih (List.mem_cons_of_mem _ hseen) out h) parts out h

/-- A link leads from another name in its directory to what it led to before. -/
theorem stat_renamed {links : Nat} {path name : Path} {target : Target} {e : Entry}
    (link : d path = some (.link target)) (found : d.stat links path = some e)
    (nonempty : path ≠ []) (beside : name.dropLast = path.dropLast)
    (there : d' name = some (.link target)) (free : d.remove path name = none)
    (sub : ∀ q e, d.remove path q = some e → d' q = some e) : d'.stat links name = some e := by
  unfold stat at found ⊢
  rw [link] at found
  rw [there]
  dsimp only at found ⊢
  have hout : ¬below path (if target.absolute then [] else path.dropLast) := by
    intro hbelow
    rw [below, List.isPrefixOf_iff_prefix] at hbelow
    have hlength := hbelow.length_le
    have hpos := List.length_pos_iff.mpr nonempty
    split at hlength
    · rw [List.length_nil] at hlength
      omega
    · rw [List.length_dropLast] at hlength
      omega
  split at found
  · rename_i destination hwalk
    obtain ⟨hwithout, hnot⟩ := realpath_remove link links List.mem_cons_self hout hwalk
    have hold : ∀ q ∈ [name], (d.remove path q).isSome → q ∈ [path] := by
      intro q hq hsome
      rw [List.mem_singleton.mp hq, free] at hsome
      cases hsome
    rw [beside, realpath_mono sub links hold hwithout]
    exact sub _ _ (by rw [remove, if_neg hnot, found])
  · cases found

end Walks

end Disk

/-- A disk, and what is going to interrupt the operations on it: an operation goes through at
`none`, and otherwise breaks off and leaves what is given. -/
structure Machine where
  disk : Disk
  faults : List (Option Disk)

/-- A program on files that may raise. -/
def FileProgram (ε α : Type) : Type := Machine → Except ε α × Machine

namespace FileProgram

variable {ε α β : Type}

instance : Monad (FileProgram ε) where
  pure a := fun m => (.ok a, m)
  bind p f := fun m =>
    match p m with
    | (.ok a, m) => f a m
    | (.error e, m) => (.error e, m)

instance : MonadExceptOf ε (FileProgram ε) where
  throw e := fun m => (.error e, m)
  tryCatch p handler := fun m =>
    match p m with
    | (.ok a, m) => (.ok a, m)
    | (.error e, m) => handler e m

/-- What is on the disk now. -/
def disk : FileProgram ε Disk := fun m => (.ok m.disk, m)

/-- One operation: what it makes of a disk, if it can be done there at all, and the paths it may
have touched when it breaks off. -/
def operation (error : ε) (touched : Disk → Path → Bool) (apply : Disk → Option Disk) :
    FileProgram ε Unit := fun m =>
  match m.faults with
  | some remains :: faults => (.error error, ⟨m.disk.left (touched m.disk) remains, faults⟩)
  | faults =>
    match apply m.disk with
    | some disk => (.ok (), ⟨disk, faults.tail⟩)
    | none => (.error error, ⟨m.disk, faults.tail⟩)

/-- Nothing is touched when the operation breaks off. -/
def untouched : Disk → Path → Bool := fun _ _ => false

/-- `unlink`. -/
def unlink (error : ε) (path : Path) : FileProgram ε Unit :=
  operation error untouched fun disk =>
    match disk path with
    | none | some .directory => none
    | some _ => some (disk.remove path)

/-- `shutil.rmtree`. -/
def rmtree (error : ε) (path : Path) : FileProgram ε Unit :=
  operation error (fun _ => Disk.below path) fun disk =>
    if disk path = some .directory then some (disk.remove path) else none

/-- `Path.mkdir(parents=True)`. -/
def mkdir (error : ε) (existOk : Bool) (links : Nat) (path : Path) : FileProgram ε Unit :=
  operation error (fun disk q => Disk.below q path && (disk q).isNone) fun disk =>
    if (disk path).isSome then
      if existOk && disk.stat links path == some .directory then some disk else none
    else if path.inits.all fun q => (disk q).isNone || disk q == some .directory then
      some (disk.filled path)
    else none

/-- `shutil.move`; a move that is no rename copies first. -/
def move (error : ε) (atomic : Bool) (links : Nat) (source destination : Path) :
    FileProgram ε Unit :=
  let target := fun disk : Disk =>
    if disk.stat links destination = some .directory then
      destination ++ [source.getLast?.getD ""]
    else destination
  operation error
    (fun disk q => !atomic && (Disk.below source q || Disk.below (target disk) q))
    fun disk =>
      match disk source, disk (target disk) with
      | none, _ => none
      | some entry, there =>
        -- A directory is put in nobody's place, and nothing into itself.
        if Disk.below source (target disk) then none
        else if there.isSome && (entry == .directory || target disk ≠ destination) then none
        else some (disk.moved source (target disk))

def onlyIf (c : Bool) (p : FileProgram ε Unit) : FileProgram ε Unit := if c then p else pure ()

/-- Whatever is at a path is taken away. -/
def clear (error : ε) (links : Nat) (path : Path) : FileProgram ε Unit := do
  let now ← disk
  if now.isSymlink path || now.isFile links path then unlink error path
  else onlyIf (now.present links path) (rmtree error path)

/-- What holds after a program, whatever interrupts it. -/
def Runs (disk : Disk) (p : FileProgram ε α) (Q : Except ε α → Disk → Prop) : Prop :=
  ∀ faults, Q (p ⟨disk, faults⟩).1 (p ⟨disk, faults⟩).2.disk

section Rules

variable {d : Disk}

theorem Runs.mono {p : FileProgram ε α} {P Q : Except ε α → Disk → Prop} (h : Runs d p P)
    (imp : ∀ r d', P r d' → Q r d') : Runs d p Q :=
  fun faults => imp _ _ (h faults)

theorem Runs.ret {a : α} {Q : Except ε α → Disk → Prop} (h : Q (.ok a) d) :
    Runs d (pure a) Q :=
  fun _ => h

theorem Runs.raise {e : ε} {Q : Except ε α → Disk → Prop} (h : Q (.error e) d) :
    Runs d (throw e) Q :=
  fun _ => h

theorem Runs.look {Q : Except ε Disk → Disk → Prop} (h : Q (.ok d) d) :
    Runs d disk Q :=
  fun _ => h

theorem Runs.bind {p : FileProgram ε α} {f : α → FileProgram ε β}
    {Q : Except ε β → Disk → Prop}
    (h : Runs d p fun r d' => match r with
      | .ok a => Runs d' (f a) Q
      | .error e => Q (.error e) d') :
    Runs d (p >>= f) Q := by
  intro faults
  have hp := h faults
  have same : (p >>= f) ⟨d, faults⟩ = match p ⟨d, faults⟩ with
    | (.ok a, m) => f a m
    | (.error e, m) => (.error e, m) := rfl
  rw [same]
  rcases hrun : p ⟨d, faults⟩ with ⟨_ | a, m⟩
  · rw [hrun] at hp
    exact hp
  · rw [hrun] at hp
    exact hp m.faults

theorem Runs.guarded {p : FileProgram ε α} {handler : ε → FileProgram ε α}
    {Q : Except ε α → Disk → Prop}
    (h : Runs d p fun r d' => match r with
      | .ok a => Q (.ok a) d'
      | .error e => Runs d' (handler e) Q) :
    Runs d (tryCatch p handler) Q := by
  intro faults
  have hp := h faults
  have same : tryCatch p handler ⟨d, faults⟩ = match p ⟨d, faults⟩ with
    | (.ok a, m) => (.ok a, m)
    | (.error e, m) => handler e m := rfl
  rw [same]
  rcases hrun : p ⟨d, faults⟩ with ⟨e | a, m⟩
  · rw [hrun] at hp
    exact hp m.faults
  · rw [hrun] at hp
    exact hp

/-- An operation goes through, or breaks off and leaves anything where it was working. -/
theorem Runs.once {error : ε} {touched : Disk → Path → Bool} {apply : Disk → Option Disk}
    {Q : Except ε Unit → Disk → Prop}
    (interrupted : ∀ remains, Q (.error error) (d.left (touched d) remains))
    (refused : apply d = none → Q (.error error) d)
    (done : ∀ d', apply d = some d' → Q (.ok ()) d') :
    Runs d (operation error touched apply) Q := by
  have finished : ∀ faults : List (Option Disk), Q
      (match apply d with
        | some d' => ((.ok (), ⟨d', faults⟩) : Except ε Unit × Machine)
        | none => (.error error, ⟨d, faults⟩)).1
      (match apply d with
        | some d' => ((.ok (), ⟨d', faults⟩) : Except ε Unit × Machine)
        | none => (.error error, ⟨d, faults⟩)).2.disk := by
    intro faults
    cases happly : apply d with
    | none => exact refused happly
    | some d' => exact done d' happly
  intro faults
  rcases faults with _ | ⟨_ | remains, faults⟩
  · exact finished []
  · exact finished faults
  · exact interrupted remains

theorem Runs.onlyIf {c : Bool} {p : FileProgram ε Unit} {Q : Except ε Unit → Disk → Prop}
    (yes : c = true → Runs d p Q) (no : c = false → Q (.ok ()) d) : Runs d (onlyIf c p) Q := by
  cases c with
  | true => exact yes rfl
  | false => exact Runs.ret (no rfl)

variable {error : ε} {links : Nat} {path : Path} {Q : Except ε Unit → Disk → Prop}

theorem Runs.clear
    (done : ∀ d', (∀ q, ¬Disk.below path q → d' q = d q) → d' path = none → Q (.ok ()) d')
    (failed : ∀ d', (∀ q, ¬Disk.below path q → d' q = d q) → Q (.error error) d') :
    Runs d (clear error links path) Q := by
  have hremoved : d.remove path path = none := if_pos (Disk.below_iff.mpr ⟨[], by simp⟩)
  refine .bind (.look ?_)
  dsimp only
  split
  · refine .once (fun remains => failed _ fun q _ => rfl) (fun _ => failed d fun q _ => rfl) ?_
    intro d' happly
    have hd' : d' = d.remove path := by
      split at happly
      · cases happly
      · cases happly
      · exact (Option.some.inj happly).symm
    subst hd'
    exact done _ (fun q hq => Disk.remove_other hq) hremoved
  · rename_i hnothing
    simp only [Bool.or_eq_true, not_or, Bool.not_eq_true] at hnothing
    refine .onlyIf (fun _ => ?_) fun habsent => ?_
    · refine .once (fun remains => failed _ fun q hq => Disk.left_other hq)
        (fun _ => failed d fun q _ => rfl) ?_
      intro d' happly
      split at happly
      · cases happly
        exact done _ (fun q hq => Disk.remove_other hq) hremoved
      · cases happly
    · exact done d (fun q _ => rfl) (Disk.none_of_not_present hnothing.1 habsent)

theorem Runs.mkdir {existOk : Bool}
    (done : ∀ d', d' = d ∧ d.stat links path = some .directory ∨
      d' = d.filled path ∧ d path = none → Q (.ok ()) d')
    (failed : ∀ d', (∀ q, d' q = d q ∨ d q = none ∧ Disk.below q path) → Q (.error error) d') :
    Runs d (mkdir error existOk links path) Q := by
  refine .once (fun remains => failed _ fun q => ?_) (fun _ => failed d fun q => .inl rfl) ?_
  · by_cases htouched : (Disk.below q path && (d q).isNone) = true
    · simp only [Bool.and_eq_true, Option.isNone_iff_eq_none] at htouched
      exact .inr ⟨htouched.2, htouched.1⟩
    · exact .inl (Disk.left_other htouched)
  · intro d' happly
    split at happly
    · split at happly
      · rename_i hdir
        cases happly
        simp only [Bool.and_eq_true, beq_iff_eq] at hdir
        exact done d (.inl ⟨rfl, hdir.2⟩)
      · cases happly
    · rename_i hfree
      split at happly
      · cases happly
        exact done _ (.inr ⟨rfl, by simpa using hfree⟩)
      · cases happly

/-- A move to where there is nothing. -/
theorem Runs.move {atomic : Bool} {source destination : Path} (free : d destination = none)
    (done : Q (.ok ()) (d.moved source destination))
    (failed : ∀ d', (atomic = true → d' = d) →
      (∀ q, ¬Disk.below source q → ¬Disk.below destination q → d' q = d q) →
      Q (.error error) d') :
    Runs d (move error atomic links source destination) Q := by
  have hstat : d.stat links destination ≠ some .directory := by
    rw [Disk.stat_of_none free]
    exact fun h => (nomatch h)
  have htarget : (if d.stat links destination = some .directory then
      destination ++ [source.getLast?.getD ""] else destination) = destination := if_neg hstat
  refine .once (fun remains => ?_) (fun _ => failed d (fun _ => rfl) fun q _ _ => rfl)
    fun d' hsome => ?_
  · refine failed _ ?_ ?_
    · intro hatomic
      funext q
      simp [Disk.left, hatomic]
    · intro q hsource hdestination
      refine Disk.left_other ?_
      simp [htarget, hsource, hdestination]
  · simp only [htarget, free] at hsome
    split at hsome
    · cases hsome
    · split at hsome
      · cases hsome
      · split at hsome
        · cases hsome
        · cases hsome
          exact done

end Rules

end FileProgram

end McManager.Framework
