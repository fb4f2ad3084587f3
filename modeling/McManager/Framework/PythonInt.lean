import Mathlib.Algebra.Order.Ring.Int
import Mathlib.Data.Nat.Log

namespace McManager.Framework.PythonInt

/-- The zeros of the runs of ten decimal digits in Unicode. -/
def decimalZeros : List Nat :=
  [48, 1632, 1776, 1984, 2406, 2534, 2662, 2790, 2918, 3046, 3174, 3302, 3430, 3558, 3664, 3792,
    3872, 4160, 4240, 6112, 6160, 6470, 6608, 6784, 6800, 6992, 7088, 7232, 7248, 42528, 43216,
    43264, 43472, 43504, 43600, 44016, 65296, 66720, 68912, 69734, 69872, 69942, 70096, 70384,
    70736, 70864, 71248, 71360, 71472, 71904, 72016, 72784, 73040, 73120, 92768, 92864, 93008,
    120782, 120792, 120802, 120812, 120822, 123200, 123632, 125264, 130032]

/-- The value of a decimal digit. -/
def decimal (c : Char) : Option Nat :=
  (decimalZeros.find? fun z => decide (z ≤ c.toNat) && decide (c.toNat < z + 10)).map (c.toNat - ·)

/-- The characters `int` strips from a text. -/
def stripped (n : Nat) : Bool :=
  9 ≤ n && n ≤ 13 || n == 32 || n == 0x85 || n == 0xa0 || n == 0x1680 ||
    0x2000 ≤ n && n ≤ 0x200a || n == 0x2028 || n == 0x2029 || n == 0x202f || n == 0x205f ||
    n == 0x3000

def strip (cs : List Char) : List Char :=
  ((cs.dropWhile (stripped ·.toNat)).reverse.dropWhile (stripped ·.toNat)).reverse

/-- Digits with single underscores between them. -/
def digits : List Char → Option (List Nat)
  | [] => none
  | [c] => (decimal c).map ([·])
  | c :: '_' :: rest => (decimal c).bind fun d => (digits rest).map (d :: ·)
  | c :: rest => (decimal c).bind fun d => (digits rest).map (d :: ·)

def ofDigits (ds : List Nat) : Nat := ds.foldl (fun n d => 10 * n + d) 0

/-- `sys.get_int_max_str_digits`. -/
def maxStrDigits : Nat := 4300

def natural (cs : List Char) : Option Nat :=
  (digits cs).bind fun ds => if ds.length ≤ maxStrDigits then some (ofDigits ds) else none

/-- `int` of a text; none for a `ValueError`. -/
def ofText (cs : List Char) : Option Int :=
  match strip cs with
  | '+' :: cs => (natural cs).map Int.ofNat
  | '-' :: cs => (natural cs).map fun n => -Int.ofNat n
  | cs => (natural cs).map Int.ofNat

/-- The double nearest to `num / den`, cut off to an integer: below 2 to the 53 the shortest text
of a double lies on the same side of every integer as the double itself. -/
def truncated (num den : Nat) : Nat :=
  let n := num / den
  if n < 2 ^ 53 then n
  else
    let unit := 2 ^ (Nat.log 2 n - 52)
    let low := num / (den * unit)
    let rest := 2 * (num - low * (den * unit))
    if den * unit < rest ∨ rest = den * unit ∧ low % 2 = 1 then (low + 1) * unit else low * unit

/-- The text of a finite double: digits, a fraction and an exponent. -/
def magnitude (cs : List Char) : Option Nat :=
  let mantissa := cs.takeWhile (· ≠ 'e')
  let whole := mantissa.takeWhile (· ≠ '.')
  let fraction := (mantissa.dropWhile (· ≠ '.')).drop 1
  let exponent := (cs.dropWhile (· ≠ 'e')).drop 1
  match natural (whole ++ fraction), if exponent = [] then some 0 else ofText exponent with
  | some n, some e =>
    let e := e - fraction.length
    some (if 0 ≤ e then truncated (n * 10 ^ e.toNat) 1 else truncated n (10 ^ (-e).toNat))
  | _, _ => none

/-- `int` of a float, given as its text. -/
def ofFloat (text : String) : Option Int :=
  match text.toList with
  | '-' :: cs => (magnitude cs).map fun n => -Int.ofNat n
  | cs => (magnitude cs).map Int.ofNat

theorem decimal_some {c : Char} {d : Nat} (h : decimal c = some d) :
    ∃ z ∈ decimalZeros, c.toNat = z + d ∧ d < 10 := by
  obtain ⟨z, hz, rfl⟩ := Option.map_eq_some_iff.mp h
  have found := List.find?_some hz
  simp only [Bool.and_eq_true, decide_eq_true_eq] at found
  exact ⟨z, List.mem_of_find?_eq_some hz, by omega, by omega⟩

/-- A decimal digit is not stripped. -/
theorem stripped_decimal {c : Char} {d : Nat} (h : decimal c = some d) :
    stripped c.toNat = false := by
  obtain ⟨z, hz, same, small⟩ := decimal_some h
  have kept : ∀ z ∈ decimalZeros, ∀ d < 10, stripped (z + d) = false := by decide +kernel
  rw [same]
  exact kept z hz d small

/-- No decimal digit is a sign, an underscore or a colon. -/
theorem decimal_ne {c : Char} {d : Nat} (h : decimal c = some d) :
    c ≠ '+' ∧ c ≠ '-' ∧ c ≠ '_' ∧ c ≠ ':' := by
  obtain ⟨z, hz, same, small⟩ := decimal_some h
  have apart : ∀ z ∈ decimalZeros, ∀ d < 10, z + d ∉ [43, 45, 95, 58] := by decide +kernel
  have other : ∀ c' : Char, c'.toNat ∈ [43, 45, 95, 58] → c ≠ c' := by
    rintro _ hc' rfl
    rw [same] at hc'
    exact apart z hz d small hc'
  exact ⟨other _ (by decide), other _ (by decide), other _ (by decide), other _ (by decide)⟩

/-- Two digits are the number they write. -/
theorem ofText_two {a b : Char} {m n : Nat} (ha : decimal a = some m) (hb : decimal b = some n) :
    ofText [a, b] = some (10 * m + n : Int) := by
  have whole : strip [a, b] = [a, b] := by
    simp [strip, stripped_decimal ha, stripped_decimal hb]
  have value : natural [a, b] = some (10 * m + n) := by
    have two : digits [a, b] = some [m, n] := by
      have other := (decimal_ne hb).2.2.1
      rw [digits]
      · simp [ha, hb, digits]
      · simp
      · simpa using other
    rw [natural, two]
    simp [ofDigits, maxStrDigits]
  have plus := (decimal_ne ha).1
  have minus := (decimal_ne ha).2.1
  unfold ofText
  rw [whole]
  split
  · rename_i h
    exact absurd (List.cons.inj h).1 plus
  · rename_i h
    exact absurd (List.cons.inj h).1 minus
  · rename_i h
    rw [value]
    simp

section Written

/-- An ASCII digit. -/
theorem decimal_digit {c : Char} (digit : c.isDigit = true) : decimal c = some (c.toNat - 48) := by
  have range : 48 ≤ c.toNat ∧ c.toNat ≤ 57 := Char.isDigit_iff_toNat.mp digit
  have first : decimalZeros.find? (fun z => decide (z ≤ c.toNat) && decide (c.toNat < z + 10)) =
      some 48 := by
    have inside : (decide (48 ≤ c.toNat) && decide (c.toNat < 48 + 10)) = true := by
      rw [decide_eq_true range.1, decide_eq_true (by omega : c.toNat < 48 + 10)]
      rfl
    exact List.find?_cons_of_pos inside
  rw [decimal, first]
  rfl

theorem strip_kept {cs : List Char} (kept : ∀ c ∈ cs, stripped c.toNat = false) : strip cs = cs := by
  have whole : ∀ l : List Char, (∀ c ∈ l, stripped c.toNat = false) →
      l.dropWhile (stripped ·.toNat) = l := by
    intro l keeps
    cases l with
    | nil => rfl
    | cons c l => rw [List.dropWhile_cons_of_neg (by simp [keeps c List.mem_cons_self])]
  rw [strip, whole cs kept, whole cs.reverse (by simpa using kept), List.reverse_reverse]

theorem digits_ascii {cs : List Char} (all : ∀ c ∈ cs, c.isDigit = true) (more : cs ≠ []) :
    digits cs = some (cs.map (·.toNat - 48)) := by
  induction cs with
  | nil => exact absurd rfl more
  | cons c cs ih =>
    have first := decimal_digit (all c List.mem_cons_self)
    cases cs with
    | nil =>
      rw [digits, first]
      rfl
    | cons d ds =>
      have rest := ih (fun x mem => all x (List.mem_cons_of_mem c mem)) (List.cons_ne_nil d ds)
      have plain : d ≠ '_' := by
        rintro rfl
        exact absurd (all '_' (List.mem_cons_of_mem c List.mem_cons_self)) (by decide)
      rw [digits, first, rest]
      · rfl
      · simp
      · simpa using plain

theorem ofDigits_ascii (cs : List Char) :
    ofDigits (cs.map (·.toNat - 48)) = Nat.ofDigitChars 10 cs 0 := by
  rw [ofDigits, List.foldl_map, Nat.ofDigitChars_eq_foldl]
  rfl

/-- `int(str(n)) == n`. -/
theorem ofText_toDigits {n : Nat} (small : n < 10 ^ maxStrDigits) :
    ofText (Nat.toDigits 10 n) = some (n : Int) := by
  have all : ∀ c ∈ Nat.toDigits 10 n, c.isDigit = true := fun c mem =>
    Nat.isDigit_of_mem_toDigits (by decide) (by decide) mem
  have kept : ∀ c ∈ Nat.toDigits 10 n, stripped c.toNat = false := fun c mem =>
    stripped_decimal (decimal_digit (all c mem))
  have short : (Nat.toDigits 10 n).length ≤ maxStrDigits :=
    (Nat.length_toDigits_le_iff (by decide) (by decide)).mpr small
  have value : natural (Nat.toDigits 10 n) = some n := by
    rw [natural, digits_ascii all Nat.toDigits_ne_nil, Option.bind_some, List.length_map,
      if_pos short, ofDigits_ascii, Nat.ofDigitChars_ten_toDigits]
  unfold ofText
  rw [strip_kept kept]
  split
  · rename_i h
    exact absurd (all '+' (by rw [h]; exact List.mem_cons_self)) (by decide)
  · rename_i h
    exact absurd (all '-' (by rw [h]; exact List.mem_cons_self)) (by decide)
  · rw [value]
    rfl

end Written

end McManager.Framework.PythonInt
