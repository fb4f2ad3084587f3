import McManager.Framework.FileSystem

namespace McManager.Framework

/-- What a path starts with: no separator, one, or exactly two. -/
inductive Anchor
  | relative | root | doubleRoot
  deriving DecidableEq, Repr

/-- `PurePosixPath`: the components but for empty ones and dots. -/
@[ext] structure PurePath where
  anchor : Anchor
  parts : List String
  plain : ∀ part ∈ parts, part ≠ "" ∧ part ≠ "."
  deriving DecidableEq

namespace PurePath

def anchorOf : List Char → Anchor
  | '/' :: '/' :: '/' :: _ => .root
  | '/' :: '/' :: _ => .doubleRoot
  | '/' :: _ => .root
  | _ => .relative

/-- `PurePosixPath(text)`. -/
def parse (text : String) : PurePath where
  anchor := anchorOf text.toList
  parts := ((text.toList.splitOn '/').map String.ofList).filter fun part => part ≠ "" ∧ part ≠ "."
  plain := fun part hpart => by simpa using (List.mem_filter.mp hpart).2

/-- `path.is_absolute()`. -/
def isAbsolute (path : PurePath) : Bool := path.anchor ≠ .relative

/-- `base / path`. -/
def join (base path : PurePath) : PurePath :=
  if path.isAbsolute then path
  else
    { anchor := base.anchor
      parts := base.parts ++ path.parts
      plain := fun part hpart => (List.mem_append.mp hpart).elim (base.plain part) (path.plain part) }

/-- Where a path leads from the working directory, links apart. -/
def location (cwd : Path) (path : PurePath) : Path :=
  normalize (if path.isAbsolute then [] else cwd) path.parts

/-- How far the parts climb above where they start, and the names they lead down from there. -/
def walk : Nat × List String → List String → Nat × List String
  | way, [] => way
  | (up, down), part :: rest =>
    if part = ".." then
      if down = [] then walk (up + 1, []) rest else walk (up, down.dropLast) rest
    else walk (up, down ++ [part]) rest

/-- Where a way leads from a directory; nothing is above the root. -/
def arrive (path : Path) (way : Nat × List String) : Path :=
  path.take (path.length - way.1) ++ way.2

theorem normalize_arrive (path : Path) (parts : List String)
    (plain : ∀ part ∈ parts, part ≠ "" ∧ part ≠ ".") (way : Nat × List String) :
    normalize (arrive path way) parts = arrive path (walk way parts) := by
  induction parts generalizing way with
  | nil => rfl
  | cons part rest ih =>
    have dot : ¬(part = "" ∨ part = ".") := by
      have h := plain part (List.mem_cons_self ..)
      exact fun hor => hor.elim h.1 h.2
    have rest' := ih fun other h => plain other (List.mem_cons_of_mem part h)
    obtain ⟨up, down⟩ := way
    rw [normalize, if_neg dot, walk]
    by_cases parent : part = ".."
    · rw [if_pos parent, if_pos parent]
      by_cases bottom : down = []
      · rw [if_pos bottom, ← rest']
        congr 1
        subst bottom
        simp only [arrive, List.append_nil]
        rw [List.dropLast_eq_take, List.take_take, List.length_take]
        congr 1
        omega
      · rw [if_neg bottom, ← rest']
        congr 1
        simp only [arrive]
        rw [List.dropLast_append_of_ne_nil bottom]
    · rw [if_neg parent, if_neg parent, ← rest']
      congr 1
      simp only [arrive, List.append_assoc]

theorem normalize_walk (path : Path) {parts : List String}
    (plain : ∀ part ∈ parts, part ≠ "" ∧ part ≠ ".") :
    normalize path parts = arrive path (walk (0, []) parts) := by
  rw [← normalize_arrive path parts plain]
  simp [arrive]

theorem normalize_append (path : Path) (parts rest : List String) :
    normalize path (parts ++ rest) = normalize (normalize path parts) rest := by
  induction parts generalizing path with
  | nil => rfl
  | cons part parts ih =>
    simp only [List.cons_append, normalize]
    split
    · exact ih path
    · split
      · exact ih _
      · exact ih _

/-- Where a relative path leads from the directory its base leads to. -/
theorem location_join {base path : PurePath} (relative : path.isAbsolute = false) (cwd : Path) :
    location cwd (base.join path) = arrive (location cwd base) (walk (0, []) path.parts) := by
  rw [join, if_neg (by simp [relative]), location, location]
  dsimp only
  rw [normalize_append, ← normalize_walk _ path.plain]
  rfl

theorem join_absolute {base path : PurePath} (absolute : path.isAbsolute = true) :
    base.join path = path := if_pos absolute

theorem location_absolute {path : PurePath} (absolute : path.isAbsolute = true) (cwd : Path) :
    location cwd path = arrive [] (walk (0, []) path.parts) := by
  rw [location, if_pos absolute, normalize_walk _ path.plain]

end PurePath

end McManager.Framework
