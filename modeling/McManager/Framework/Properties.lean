import McManager.Framework.TextLines

namespace McManager.Framework.Properties

/-- White space within a line: the space, the tabulator and the form feed. -/
def white (b : UInt8) : Bool := b == 32 || b == 9 || b == 12

/-- What ends a key: an equals sign, a colon or white space. -/
def separator (b : UInt8) : Bool := b == 61 || b == 58 || white b

/-- Whether a line begins with a number sign or an exclamation mark. -/
def comment (line : List UInt8) : Bool := line.head? == some 35 || line.head? == some 33

/-- Whether a line goes on in the next one: an odd number of backslashes ends it. -/
def continued (line : List UInt8) : Bool :=
  (line.reverse.takeWhile (· == 92)).length % 2 == 1

/-- The logical lines of natural lines, after what has been read of the first. -/
def logical : List UInt8 → List (List UInt8) → List (List UInt8)
  | _, [] => []
  | buffer, line :: rest =>
    let line := line.dropWhile white
    if buffer = [] ∧ (line = [] ∨ comment line = true) then logical [] rest
    else if continued line then
      if rest = [] then [buffer ++ line.dropLast] else logical (buffer ++ line.dropLast) rest
    else (buffer ++ line) :: logical [] rest

/-- The key of a logical line and what follows it. The flag says that a backslash came just
before. -/
def key : Bool → List UInt8 → List UInt8 × List UInt8
  | _, [] => ([], [])
  | escaped, b :: bs =>
    if !escaped && separator b then ([], b :: bs)
    else
      let (name, rest) := key (b == 92 && !escaped) bs
      (b :: name, rest)

/-- The value in what follows the key. -/
def value (rest : List UInt8) : List UInt8 :=
  match rest.dropWhile white with
  | [] => []
  | b :: bs => if b = 61 ∨ b = 58 then bs.dropWhile white else b :: bs

/-- The value of a hexadecimal digit. -/
def hex (b : UInt8) : Option UInt16 :=
  if 48 ≤ b ∧ b ≤ 57 then some (b - 48).toUInt16
  else if 97 ≤ b ∧ b ≤ 102 then some (b - 87).toUInt16
  else if 65 ≤ b ∧ b ≤ 70 then some (b - 55).toUInt16
  else none

/-- A key or a value without its escapes, in ISO 8859-1; none for a malformed one. -/
def unescape : List UInt8 → Option (List UInt16)
  | [] => some []
  | 92 :: 117 :: a :: b :: c :: d :: rest =>
    match hex a, hex b, hex c, hex d with
    | some a, some b, some c, some d =>
      (unescape rest).map ((((a * 16 + b) * 16 + c) * 16 + d) :: ·)
    | _, _, _, _ => none
  | 92 :: 117 :: _ => none
  | 92 :: b :: rest =>
    let unit : UInt16 :=
      if b = 116 then 9 else if b = 110 then 10 else if b = 114 then 13
      else if b = 102 then 12 else b.toUInt16
    (unescape rest).map (unit :: ·)
  | b :: rest => (unescape rest).map (b.toUInt16 :: ·)

/-- The key and the value of a logical line. -/
def definition (line : List UInt8) : Option (List UInt16 × List UInt16) :=
  let (name, rest) := key false line
  match unescape name, unescape (value rest) with
  | some name, some value => some (name, value)
  | _, _ => none

/-- `Properties.load`: the definitions in a file, in order; none when it throws. -/
def load (bytes : List UInt8) : Option (List (List UInt16 × List UInt16)) :=
  (logical [] (byteLines bytes)).mapM definition

/-- The units of a text in ISO 8859-1. -/
def units (text : List Char) : List UInt16 := text.map fun c => c.toNat.toUInt16

example : load (Utf8.encode "a=1\nb : x\\\n  y\n# c=2\nd\\u0041\\==\na=3") =
    some [(units ['a'], units ['1']), (units ['b'], units ['x', 'y']), (units ['d', 'A', '='], []),
      (units ['a'], units ['3'])] := by decide +kernel

/-- What a natural line says on its own. -/
def entry (line : List UInt8) : Option (List UInt8) :=
  let line := line.dropWhile white
  if line = [] ∨ comment line = true then none else some line

/-- Natural lines of which none goes on in the next are the logical lines. -/
theorem logical_single {lines : List (List UInt8)}
    (h : ∀ line ∈ lines, ∀ l, entry line = some l → continued l = false) :
    logical [] lines = lines.filterMap entry := by
  induction lines with
  | nil => rfl
  | cons line rest ih =>
    have later := ih fun l mem => h l (List.mem_cons_of_mem _ mem)
    have here := h line List.mem_cons_self
    rw [logical]
    by_cases none' : line.dropWhile white = [] ∨ comment (line.dropWhile white) = true
    · have nothing : entry line = none := by
        rw [entry]
        exact if_pos none'
      rw [if_pos ⟨rfl, none'⟩, later, List.filterMap_cons_none nothing]
    · have something : entry line = some (line.dropWhile white) := by
        rw [entry]
        exact if_neg none'
      rw [if_neg fun both => none' both.2, here _ something, if_neg Bool.false_ne_true, later,
        List.filterMap_cons_some something]
      rfl

/-- A key whose separators are all escaped, and whose last backslash escapes nothing after it. -/
def bare : Bool → List UInt8 → Bool
  | escaped, [] => !escaped
  | escaped, b :: bs => (escaped || !separator b) && bare (b == 92 && !escaped) bs

theorem key_bare {name : List UInt8} {s : UInt8} (h : separator s = true) (rest : List UInt8) :
    ∀ escaped, bare escaped name = true → key escaped (name ++ s :: rest) = (name, s :: rest) := by
  induction name with
  | nil =>
    intro escaped plain
    rw [bare, Bool.not_eq_true'] at plain
    rw [List.nil_append, key, plain, h]
    rfl
  | cons b bs ih =>
    intro escaped plain
    rw [bare, Bool.and_eq_true] at plain
    have inside : (!escaped && separator b) = false := by
      have first := plain.1
      cases escaped
      · simpa using first
      · rfl
    rw [List.cons_append, key, inside, ih _ plain.2]
    rfl

/-- What follows the key on the line `gap = gap value`. -/
theorem value_gap {gap gap' text : List UInt8} (h : ∀ b ∈ gap, white b = true)
    (h' : ∀ b ∈ gap', white b = true) (start : ∀ b ∈ text.head?, white b = false) :
    value (gap ++ 61 :: (gap' ++ text)) = text := by
  rw [value, List.dropWhile_append_of_pos h, List.dropWhile_cons, if_neg (by decide)]
  dsimp only
  rw [if_pos (.inl rfl), List.dropWhile_append_of_pos h', dropWhile_of_head start]

theorem value_equals {text : List UInt8} (start : ∀ b ∈ text.head?, white b = false) :
    value (61 :: text) = text := by
  rw [value, List.dropWhile_cons, if_neg (by decide)]
  dsimp only
  rw [if_pos (.inl rfl), dropWhile_of_head start]

theorem definition_gap {name text : List UInt8} (plain : bare false name = true)
    (gap gap' : List UInt8) (h : ∀ b ∈ gap, white b = true) (h' : ∀ b ∈ gap', white b = true)
    (start : ∀ b ∈ text.head?, white b = false) :
    definition (name ++ (gap ++ 61 :: (gap' ++ text))) =
      definition (name ++ 61 :: text) := by
  have read : key false (name ++ (gap ++ 61 :: (gap' ++ text))) =
      (name, gap ++ 61 :: (gap' ++ text)) := by
    cases gap with
    | nil => exact key_bare rfl _ _ plain
    | cons b bs =>
      have sep : separator b = true := by
        rw [separator, h b List.mem_cons_self, Bool.or_true]
      exact key_bare sep _ _ plain
  have read' : key false (name ++ 61 :: text) = (name, 61 :: text) := key_bare rfl _ _ plain
  have given := value_gap h h' start
  have given' := value_equals start
  rw [definition, definition, read, read']
  dsimp only
  rw [given, given']

/-- Only the backslashes at the very end count. -/
theorem continued_append {front : List UInt8} (h : ∀ b ∈ front.getLast?, b ≠ 92)
    (line : List UInt8) : continued (front ++ line) = continued line := by
  have none' : front.reverse.takeWhile (· == 92) = [] := by
    cases reversed : front.reverse with
    | nil => rfl
    | cons b bs =>
      have last : b ∈ front.getLast? := by
        rw [← List.head?_reverse, reversed]
        rfl
      rw [List.takeWhile_cons, if_neg (by simpa using h b last)]
  rw [continued, continued, List.reverse_append, List.takeWhile_append, none', List.append_nil]
  split_ifs with whole
  · rw [whole]
  · rfl

end McManager.Framework.Properties
