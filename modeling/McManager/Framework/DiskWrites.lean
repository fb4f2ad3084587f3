import McManager.Framework.DiskProgram
import McManager.Framework.PurePath

namespace McManager.Framework.Disk

/-- A name that leads down. -/
def plainName (name : String) : Prop := name ≠ "" ∧ name ≠ "." ∧ name ≠ ".."

/-- Two disks with the same links. -/
def Alike (d d' : Disk) : Prop := ∀ q t, d q = some (.link t) ↔ d' q = some (.link t)

/-- Whatever is there is in a directory. -/
def Rooted (d : Disk) : Prop := ∀ q e, d q = some e → d q.dropLast = some .directory

/-- Go through `parts` like `follow` when strict, but the last of them does not have to be there; on
the way to it links lead where `jump` goes, and at the end where `last` does. -/
def arrive (disk : Disk) (seen : List Path)
    (jump last : List Path → Path → List String → Except PathError Path) :
    Path → List String → Except PathError Path
  | path, [] => .ok path
  | path, part :: rest =>
    if disk path ≠ some .directory then .error .notDirectory
    else if part = "" ∨ part = "." then arrive disk seen jump last path rest
    else if part = ".." then arrive disk seen jump last path.dropLast rest
    else
      match disk (path ++ [part]) with
      | some (.link target) =>
        if path ++ [part] ∈ seen then .error (.loop (normalize (path ++ [part]) rest))
        else
          match (if rest = [] then last else jump) ((path ++ [part]) :: seen)
              (if target.absolute then [] else path) target.parts with
          | .ok there => arrive disk seen jump last there rest
          | .error (.loop there) => .error (.loop (normalize there rest))
          | .error e => .error e
      | none => if rest = [] then .ok (path ++ [part]) else .error .missing
      | some _ => arrive disk seen jump last (path ++ [part]) rest

/-- Where a file that is opened for writing is, or comes to be. -/
def openpath (disk : Disk) : Nat → List Path → Path → List String → Except PathError Path
  | 0, seen =>
    let stuck := fun _ path parts => .error (.loop (normalize path parts))
    disk.arrive seen stuck stuck
  | n + 1, seen => disk.arrive seen (realpath disk true n) (openpath disk n)

/-- `os.path.exists`. -/
def reached (disk : Disk) (links : Nat) (path : Path) : Bool :=
  match disk.realpath true links [] [] path with
  | .ok there => (disk there).isSome
  | .error _ => false

/-- `os.path.isdir`. -/
def isdir (disk : Disk) (links : Nat) (path : Path) : Bool :=
  match disk.realpath true links [] [] path with
  | .ok there => disk there == some .directory
  | .error _ => false

/-- `os.path.islink`. -/
def islink (disk : Disk) (links : Nat) (path : Path) : Bool :=
  match path.getLast?, disk.realpath true links [] [] path.dropLast with
  | some name, .ok there => disk.isSymlink (there ++ [name])
  | _, _ => false

/-- `os.mkdir`; the last name of the path is `name`. -/
def mkdir (disk : Disk) (links : Nat) (path : Path) (name : String) : Option Disk :=
  match disk.realpath true links [] [] path with
  | .ok there =>
    if disk there = some .directory ∧ disk (there ++ [name]) = none then
      some (disk.put (there ++ [name]) .directory)
    else none
  | .error _ => none

/-- Where `open` writes to. -/
def opened (disk : Disk) (links : Nat) (path : Path) : Option Path :=
  match disk.openpath links [] [] path with
  | .ok there =>
    match disk there with
    | none => some there
    | some (.file _ _) => some there
    | _ => none
  | .error _ => none

section Walks

variable {d d' : Disk} {seen : List Path} {part : String} {rest : List String} {path there : Path}
variable {jump jump' : List Path → Path → List String → Except PathError Path}

theorem part_cases (part : String) : (part = "" ∨ part = ".") ∨ part = ".." ∨ plainName part := by
  by_cases empty : part = ""
  · exact .inl (.inl empty)
  · by_cases dot : part = "."
    · exact .inl (.inr dot)
    · by_cases up : part = ".."
      · exact .inr (.inl up)
      · exact .inr (.inr ⟨empty, dot, up⟩)

theorem follow_dot (h : part = "" ∨ part = ".") :
    d.follow false seen jump path (part :: rest) = d.follow false seen jump path rest := by
  rw [follow, if_neg (by simp), if_pos h]

theorem follow_up : d.follow false seen jump path (".." :: rest) =
    d.follow false seen jump path.dropLast rest := by
  rw [follow, if_neg (by simp), if_neg (by simp), if_pos rfl]

theorem follow_down (plain : plainName part) (h : ∀ t, d (path ++ [part]) ≠ some (.link t)) :
    d.follow false seen jump path (part :: rest) =
      d.follow false seen jump (path ++ [part]) rest := by
  obtain ⟨empty, dot, up⟩ := plain
  rw [follow, if_neg (by simp), if_neg (by simp [empty, dot]), if_neg up]
  cases there : d (path ++ [part]) with
  | none => rfl
  | some entry =>
    cases entry with
    | link target => exact absurd there (h target)
    | file content modified => rfl
    | directory => rfl

theorem follow_link {target : Target} (plain : plainName part)
    (h : d (path ++ [part]) = some (.link target)) :
    d.follow false seen jump path (part :: rest) =
      if path ++ [part] ∈ seen then .error (.loop (normalize (path ++ [part]) rest))
      else
        match jump ((path ++ [part]) :: seen) (if target.absolute then [] else path) target.parts with
        | .ok there => d.follow false seen jump there rest
        | .error (.loop there) => .error (.loop (normalize there rest))
        | .error e => .error e := by
  obtain ⟨empty, dot, up⟩ := plain
  rw [follow, if_neg (by simp), if_neg (by simp [empty, dot]), if_neg up, h] <;> rfl

/-- Where links lead does not depend on anything but links. -/
theorem follow_alike (h : Alike d d') (jumps : jump = jump') (parts : List String) (path : Path) :
    d.follow false seen jump path parts = d'.follow false seen jump' path parts := by
  subst jumps
  induction parts generalizing path with
  | nil => rfl
  | cons part rest ih =>
    rcases part_cases part with dot | rfl | plain
    · rw [follow_dot dot, follow_dot dot, ih]
    · rw [follow_up, follow_up, ih]
    · by_cases link : ∃ t, d (path ++ [part]) = some (.link t)
      · obtain ⟨t, link⟩ := link
        rw [follow_link plain link, follow_link plain ((h _ t).mp link)]
        simp only [ih]
      · rw [not_exists] at link
        have link' : ∀ t, d' (path ++ [part]) ≠ some (.link t) := fun t same =>
          link t ((h _ t).mpr same)
        rw [follow_down plain link, follow_down plain link', ih]

theorem realpath_alike (h : Alike d d') (n : Nat) : d.realpath false n = d'.realpath false n := by
  induction n with
  | zero =>
    funext seen path parts
    exact follow_alike h rfl parts path
  | succ n ih =>
    funext seen path parts
    exact follow_alike h ih parts path

theorem follow_append (strict : Bool) (xs ys : List String) (path : Path) :
    d.follow strict seen jump path (xs ++ ys) =
      match d.follow strict seen jump path xs with
      | .ok there => d.follow strict seen jump there ys
      | .error (.loop there) => .error (.loop (normalize there ys))
      | .error e => .error e := by
  induction xs generalizing path with
  | nil => rfl
  | cons part rest ih =>
    rw [List.cons_append, follow, follow]
    split
    · rfl
    · split
      · exact ih path
      · split
        · exact ih _
        · cases d (path ++ [part]) with
          | none =>
            cases strict with
            | true => rfl
            | false => exact ih _
          | some entry =>
            cases entry with
            | file content modified => exact ih _
            | directory => exact ih _
            | link target =>
              dsimp only
              split
              · rw [PurePath.normalize_append]
              · cases jump ((path ++ [part]) :: seen) (if target.absolute then [] else path)
                    target.parts with
                | ok there => exact ih there
                | error e =>
                  cases e with
                  | loop there =>
                    dsimp only
                    rw [PurePath.normalize_append]
                  | missing => rfl
                  | notDirectory => rfl

/-- One more name from where a path leads. -/
theorem realpath_append (strict : Bool) (n : Nat) (h : d.realpath strict n seen path xs = .ok there)
    (ys : List String) :
    d.realpath strict n seen path (xs ++ ys) = d.realpath strict n seen there ys := by
  cases n with
  | zero =>
    rw [realpath] at h ⊢
    rw [follow_append, h]
  | succ n =>
    rw [realpath] at h ⊢
    rw [follow_append, h]

/-- Where a path leads its front does too. -/
theorem realpath_front (strict : Bool) (n : Nat) {xs ys : List String}
    (h : d.realpath strict n seen path (xs ++ ys) = .ok there) :
    ∃ front, d.realpath strict n seen path xs = .ok front := by
  have leads : ∀ jump, d.follow strict seen jump path (xs ++ ys) = .ok there →
      ∃ front, d.follow strict seen jump path xs = .ok front := by
    intro jump h
    rw [follow_append] at h
    cases front : d.follow strict seen jump path xs with
    | ok front' => exact ⟨front', rfl⟩
    | error e =>
      rw [front] at h
      cases e <;> cases h
  cases n with
  | zero => exact leads _ h
  | succ n => exact leads _ h

/-- From a place with no link below it names lead straight down. -/
theorem realpath_plain (n : Nat) {names : List String} (plain : ∀ name ∈ names, plainName name)
    (h : ∀ a, a ≠ [] → a <+: names → ∀ t, d (path ++ a) ≠ some (.link t)) :
    d.realpath false n seen path names = .ok (path ++ names) := by
  have walk : ∀ jump, d.follow false seen jump path names = .ok (path ++ names) := by
    intro jump
    induction names generalizing path with
    | nil => rw [List.append_nil]; rfl
    | cons name names ih =>
      have first := h [name] (by simp) ⟨names, rfl⟩
      rw [follow_down (plain name List.mem_cons_self) first, ih]
      · rw [List.append_assoc]
        rfl
      · exact fun other mem => plain other (List.mem_cons_of_mem _ mem)
      · intro a nonempty before t
        have deeper := h (name :: a) (by simp) (List.cons_prefix_cons.mpr ⟨rfl, before⟩) t
        rw [List.append_assoc]
        exact deeper
  cases n with
  | zero => exact walk _
  | succ n => exact walk _

/-- What is opened is where the path leads. -/
theorem arrive_follow {last : List Path → Path → List String → Except PathError Path}
    (jumps : ∀ seen path parts there, jump seen path parts = .ok there →
      jump' seen path parts = .ok there)
    (lasts : ∀ seen path parts there, last seen path parts = .ok there →
      jump' seen path parts = .ok there)
    (parts : List String) {path there : Path}
    (h : d.arrive seen jump last path parts = .ok there) :
    d.follow false seen jump' path parts = .ok there := by
  induction parts generalizing path with
  | nil => exact h
  | cons part rest ih =>
    rw [arrive] at h
    split at h
    · cases h
    rcases part_cases part with dot | rfl | plain
    · rw [if_pos dot] at h
      rw [follow_dot dot]
      exact ih h
    · rw [if_neg (by simp), if_pos rfl] at h
      rw [follow_up]
      exact ih h
    · have noDot : ¬(part = "" ∨ part = ".") := fun dot => dot.elim plain.1 plain.2.1
      rw [if_neg noDot, if_neg plain.2.2] at h
      cases entry : d (path ++ [part]) with
      | none =>
        rw [entry] at h
        dsimp only at h
        split at h
        · rename_i final
          rw [follow_down plain (by simp [entry]), final]
          exact h
        · cases h
      | some e =>
        rw [entry] at h
        cases e with
        | file content modified =>
          rw [follow_down plain (by simp [entry])]
          exact ih h
        | directory =>
          rw [follow_down plain (by simp [entry])]
          exact ih h
        | link target =>
          dsimp only at h
          rw [follow_link plain entry]
          split at h
          · cases h
          rename_i fresh
          rw [if_neg fresh]
          have leads : ∀ there, (if rest = [] then last else jump) ((path ++ [part]) :: seen)
              (if target.absolute then [] else path) target.parts = .ok there →
              jump' ((path ++ [part]) :: seen) (if target.absolute then [] else path)
                target.parts = .ok there := by
            intro there leads
            split at leads
            · exact lasts _ _ _ _ leads
            · exact jumps _ _ _ _ leads
          split at h
          · rename_i there leads'
            rw [leads _ leads']
            exact ih h
          · cases h
          · cases h

theorem openpath_realpath (n : Nat) {seen : List Path} {path there : Path} {parts : List String}
    (h : d.openpath n seen path parts = .ok there) :
    d.realpath false n seen path parts = .ok there := by
  induction n generalizing seen path there parts with
  | zero =>
    rw [openpath] at h
    refine arrive_follow ?_ ?_ parts h
    · exact fun _ _ _ _ stuck => stuck
    · exact fun _ _ _ _ stuck => stuck
  | succ n ih =>
    rw [openpath] at h
    refine arrive_follow ?_ ?_ parts h
    · exact fun _ _ _ _ leads => realpath_strict n leads
    · exact fun _ _ _ _ leads => ih leads

end Walks

section Rooted

variable {d d' : Disk} {path : Path}

/-- Nothing is below what is not there. -/
theorem none_below (rooted : Rooted d) (h : d path = none) (rest : List String) :
    d (path ++ rest) = none := by
  induction rest using List.reverseRecOn with
  | nil =>
    rw [List.append_nil]
    exact h
  | append_singleton front last ih =>
    by_contra some'
    obtain ⟨e, there⟩ := Option.ne_none_iff_exists'.mp some'
    have before := rooted _ e there
    rw [← List.append_assoc, List.dropLast_concat, ih] at before
    cases before

/-- What is above something that is there is there. -/
theorem some_above (rooted : Rooted d) (above below : List String) {e : Entry}
    (h : d (above ++ below) = some e) : d above ≠ none := by
  intro none'
  rw [none_below rooted none'] at h
  cases h

/-- Where there is anything the root is a directory. -/
theorem root_directory {e : Entry} (rooted : Rooted d) (h : d path = some e) :
    d [] = some .directory := by
  obtain ⟨e', there⟩ := Option.ne_none_iff_exists'.mp (some_above rooted [] path h)
  exact rooted [] e' there

theorem rooted_lookup (fs : FileSystem) : Rooted fs.lookup :=
  fun _ _ there => FileSystem.lookup_dropLast there

theorem rooted_put {e : Entry} (rooted : Rooted d) (place : d path.dropLast = some .directory)
    (kept : d path = some .directory → e = .directory) : Rooted (d.put path e) := by
  intro q e' there
  have above : ∀ q : Path, d q.dropLast = some .directory →
      d.put path e q.dropLast = some .directory := by
    intro q inside
    rw [put]
    split
    · rename_i same
      rw [same] at inside
      rw [kept inside]
    · exact inside
  apply above
  rw [put] at there
  split at there
  · rename_i same
    rw [same]
    exact place
  · exact rooted q e' there

/-- A file that comes to be does so in a directory. -/
theorem arrive_place {seen : List Path}
    {jump last : List Path → Path → List String → Except PathError Path} (rooted : Rooted d)
    (root : d [] = some .directory)
    (lasts : ∀ seen path parts there, d path = some .directory → last seen path parts = .ok there →
      d there ≠ none ∨ d there.dropLast = some .directory)
    (parts : List String) {path there : Path}
    (start : parts = [] → d path ≠ none ∨ d path.dropLast = some .directory)
    (h : d.arrive seen jump last path parts = .ok there) :
    d there ≠ none ∨ d there.dropLast = some .directory := by
  induction parts generalizing path with
  | nil =>
    cases h
    exact start rfl
  | cons part rest ih =>
    rw [arrive] at h
    split at h
    · cases h
    rename_i isDir
    have isDir : d path = some .directory := not_not.mp isDir
    rcases part_cases part with dot | rfl | plain
    · rw [if_pos dot] at h
      exact ih (fun _ => .inl (by simp [isDir])) h
    · rw [if_neg (by simp), if_pos rfl] at h
      exact ih (fun _ => .inl (by simp [rooted _ _ isDir])) h
    · have noDot : ¬(part = "" ∨ part = ".") := fun dot => dot.elim plain.1 plain.2.1
      rw [if_neg noDot, if_neg plain.2.2] at h
      have place : d (path ++ [part]).dropLast = some .directory := by
        rw [List.dropLast_concat]
        exact isDir
      cases entry : d (path ++ [part]) with
      | none =>
        rw [entry] at h
        dsimp only at h
        split at h
        · cases h
          exact .inr place
        · cases h
      | some e =>
        rw [entry] at h
        cases e with
        | file content modified => exact ih (fun _ => .inr place) h
        | directory => exact ih (fun _ => .inr place) h
        | link target =>
          dsimp only at h
          split at h
          · cases h
          have begins : d (if target.absolute then [] else path) = some .directory := by
            split
            · exact root
            · exact isDir
          split at h
          · rename_i there' leads
            refine ih (fun final => ?_) h
            rw [if_pos final] at leads
            exact lasts _ _ _ _ begins leads
          · cases h
          · cases h

theorem openpath_place (rooted : Rooted d) (root : d [] = some .directory) (n : Nat)
    {seen : List Path} {path there : Path} {parts : List String} (begins : d path = some .directory)
    (h : d.openpath n seen path parts = .ok there) :
    d there ≠ none ∨ d there.dropLast = some .directory := by
  induction n generalizing seen path there parts with
  | zero =>
    rw [openpath] at h
    refine arrive_place rooted root ?_ parts (fun _ => .inl (by simp [begins])) h
    exact fun _ _ _ _ _ stuck => nomatch stuck
  | succ n ih =>
    rw [openpath] at h
    refine arrive_place rooted root ?_ parts (fun _ => .inl (by simp [begins])) h
    exact fun _ _ _ _ begins leads => ih begins leads

/-- A strict walk goes on where directories stay directories, links stay links and nothing that was
there is gone. -/
theorem follow_held (alike : Alike d d') (dirs : ∀ q, d q = some .directory → d' q = some .directory)
    (holds : ∀ q, d q ≠ none → d' q ≠ none) {seen : List Path}
    {jump jump' : List Path → Path → List String → Except PathError Path}
    (jumps : ∀ seen path parts there, jump seen path parts = .ok there →
      jump' seen path parts = .ok there)
    (parts : List String) {path there : Path}
    (h : d.follow true seen jump path parts = .ok there) :
    d'.follow true seen jump' path parts = .ok there := by
  induction parts generalizing path with
  | nil => exact h
  | cons part rest ih =>
    rw [follow] at h ⊢
    simp only [true_and] at h ⊢
    split at h
    · cases h
    rename_i isDir
    rw [if_neg (by simpa using dirs _ (not_not.mp isDir))]
    split at h
    · rename_i dot
      rw [if_pos dot]
      exact ih h
    rename_i dot
    rw [if_neg dot]
    split at h
    · rename_i up
      rw [if_pos up]
      exact ih h
    rename_i up
    rw [if_neg up]
    cases entry : d (path ++ [part]) with
    | none =>
      rw [entry] at h
      cases h
    | some e =>
      rw [entry] at h
      have still := holds (path ++ [part]) (by simp [entry])
      by_cases link : ∃ t, e = .link t
      · obtain ⟨t, rfl⟩ := link
        rw [(alike _ t).mp entry]
        dsimp only at h ⊢
        split at h
        · cases h
        rename_i fresh
        rw [if_neg fresh]
        split at h
        · rename_i there' leads
          rw [jumps _ _ _ _ leads]
          exact ih h
        · cases h
        · cases h
      · have down : d.follow true seen jump (path ++ [part]) rest = .ok there := by
          cases e with
          | link t => exact absurd ⟨t, rfl⟩ link
          | file content modified => exact h
          | directory => exact h
        cases entry' : d' (path ++ [part]) with
        | none => exact absurd entry' still
        | some e' =>
          cases e' with
          | link t =>
            have was := (alike _ t).mpr entry'
            rw [entry] at was
            exact absurd ⟨t, Option.some.inj was⟩ link
          | file content modified => exact ih down
          | directory => exact ih down

theorem realpath_held (alike : Alike d d')
    (dirs : ∀ q, d q = some .directory → d' q = some .directory)
    (holds : ∀ q, d q ≠ none → d' q ≠ none) (n : Nat) {seen : List Path} {path there : Path}
    {parts : List String} (h : d.realpath true n seen path parts = .ok there) :
    d'.realpath true n seen path parts = .ok there := by
  induction n generalizing seen path there parts with
  | zero => exact follow_held alike dirs holds (fun _ _ _ _ stuck => stuck) parts h
  | succ n ih => exact follow_held alike dirs holds (fun _ _ _ _ leads => ih leads) parts h

theorem isSymlink_alike (h : Alike d d') (q : Path) : d'.isSymlink q = d.isSymlink q := by
  have links : ∀ e : Disk, e.isSymlink q = true ↔ ∃ t, e q = some (.link t) := by
    intro e
    rw [isSymlink]
    split
    · rename_i t link
      exact ⟨fun _ => ⟨t, link⟩, fun _ => rfl⟩
    · rename_i other
      refine ⟨fun same => absurd same Bool.false_ne_true, ?_⟩
      rintro ⟨t, link⟩
      exact absurd link (other t)
  apply Bool.eq_iff_iff.mpr
  rw [links, links]
  exact exists_congr fun t => (h q t).symm

theorem alike_put {e : Entry} (h : Alike d d') (was : ∀ t, d' path ≠ some (.link t))
    (is : ∀ t, e ≠ .link t) : Alike d (d'.put path e) := by
  intro q t
  rw [put]
  split
  · rename_i same
    rw [h, same]
    constructor
    · exact fun link => absurd link (was t)
    · exact fun link => absurd (Option.some.inj link) (is t)
  · exact h q t

end Rooted

end McManager.Framework.Disk
