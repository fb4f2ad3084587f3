import McManager.Framework.Utf8
import Mathlib.Data.List.Basic
import Mathlib.Data.List.TakeWhile
import Mathlib.Tactic.Common

namespace McManager.Framework

variable {α : Type*}

/-- Without what holds at both ends, as `str.strip` takes it away. -/
def trim (p : α → Bool) (xs : List α) : List α :=
  ((xs.dropWhile p).reverse.dropWhile p).reverse

/-- The pieces between the ends, the last one after the last of them. -/
def split (ends : α → Bool) : List α → List (List α)
  | [] => [[]]
  | x :: xs =>
    if ends x then [] :: split ends xs
    else (split ends xs).modifyHead (x :: ·)

section

variable [DecidableEq α]

/-- Universal newlines: a carriage return, also with a line feed after it, is a line feed. The flag
says that a carriage return came just before. -/
def newlinesFrom (cr lf : α) : Bool → List α → List α
  | _, [] => []
  | after, x :: xs =>
    if x = cr then lf :: newlinesFrom cr lf true xs
    else if after = true ∧ x = lf then newlinesFrom cr lf false xs
    else x :: newlinesFrom cr lf false xs

def newlines (cr lf : α) : List α → List α := newlinesFrom cr lf false

end

section

variable {p ends : α → Bool}

theorem trim_nil : trim p ([] : List α) = [] := rfl

theorem dropWhile_of_head {xs : List α} (h : ∀ x ∈ xs.head?, p x = false) :
    xs.dropWhile p = xs := by
  cases xs with
  | nil => rfl
  | cons x xs => rw [List.dropWhile_cons, if_neg (by simp [h x rfl])]

/-- A text that keeps both its ends. -/
def Trimmed (p : α → Bool) (xs : List α) : Prop :=
  (∀ x ∈ xs.head?, p x = false) ∧ ∀ x ∈ xs.getLast?, p x = false

instance (p : α → Bool) (xs : List α) : Decidable (Trimmed p xs) :=
  inferInstanceAs (Decidable ((∀ x ∈ xs.head?, p x = false) ∧ ∀ x ∈ xs.getLast?, p x = false))

theorem trim_trimmed {xs : List α} (h : Trimmed p xs) : trim p xs = xs := by
  have last : ∀ x ∈ xs.reverse.head?, p x = false := by
    intro x mem
    rw [List.head?_reverse] at mem
    exact h.2 x mem
  rw [trim, dropWhile_of_head h.1, dropWhile_of_head last, List.reverse_reverse]

theorem trim_append {xs : List α} (before after : List α) (h : Trimmed p xs) (nonempty : xs ≠ [])
    (front : ∀ x ∈ before, p x = true) (back : ∀ x ∈ after, p x = true) :
    trim p (before ++ xs ++ after) = xs := by
  have first : (xs ++ after).dropWhile p = xs ++ after := by
    apply dropWhile_of_head
    intro x mem
    rw [List.head?_append_of_ne_nil _ nonempty] at mem
    exact h.1 x mem
  have back' : ∀ x ∈ after.reverse, p x = true := fun x mem => back x (List.mem_reverse.mp mem)
  have last : ∀ x ∈ xs.reverse.head?, p x = false := by
    intro x mem
    rw [List.head?_reverse] at mem
    exact h.2 x mem
  rw [trim, List.append_assoc, List.dropWhile_append_of_pos front, first, List.reverse_append,
    List.dropWhile_append_of_pos back', dropWhile_of_head last, List.reverse_reverse]

theorem trim_all {xs : List α} (h : ∀ x ∈ xs, p x = true) : trim p xs = [] := by
  have gone : (xs ++ []).dropWhile p = [] := List.dropWhile_append_of_pos h
  rw [List.append_nil] at gone
  rw [trim, gone]
  rfl

theorem head_dropWhile {xs : List α} : ∀ x ∈ (xs.dropWhile p).head?, p x = false := by
  intro x mem
  have given := List.head?_dropWhile_not p xs
  rw [Option.mem_def] at mem
  rw [mem] at given
  simpa using given

theorem last_dropWhile {xs : List α} (h : ∀ x ∈ xs.getLast?, p x = false) :
    ∀ x ∈ (xs.dropWhile p).getLast?, p x = false := by
  intro x mem
  obtain ⟨front, split⟩ := List.dropWhile_suffix p (l := xs)
  cases rest : xs.dropWhile p with
  | nil => rw [rest] at mem; cases mem
  | cons y ys =>
    rw [rest] at mem split
    apply h x
    rw [← split, List.getLast?_append_of_ne_nil _ (List.cons_ne_nil y ys)]
    exact mem

theorem trimmed_trim (xs : List α) : Trimmed p (trim p xs) := by
  constructor
  · intro x mem
    rw [trim, List.head?_reverse] at mem
    exact last_dropWhile (fun x mem => head_dropWhile x (by rwa [List.getLast?_reverse] at mem))
      x mem
  · intro x mem
    rw [trim, List.getLast?_reverse] at mem
    exact head_dropWhile x mem

theorem mem_trim {xs : List α} {x : α} (mem : x ∈ trim p xs) : x ∈ xs := by
  rw [trim, List.mem_reverse] at mem
  have inside := (List.dropWhile_suffix p).mem mem
  rw [List.mem_reverse] at inside
  exact (List.dropWhile_suffix p).mem inside

theorem trim_prefix (xs : List α) : trim p xs <+: xs.dropWhile p := by
  have back := List.dropWhile_suffix p (l := (xs.dropWhile p).reverse)
  rw [← List.reverse_prefix, List.reverse_reverse] at back
  exact back

theorem head?_of_front {xs ys : List α} {x : α} (h : xs <+: ys) (mem : xs.head? = some x) :
    ys.head? = some x := by
  obtain ⟨more, rfl⟩ := h
  cases xs with
  | nil => cases mem
  | cons y xs => exact mem

theorem head?_trim {xs : List α} {x : α} (h : ∀ y ∈ xs.head?, p y = false)
    (mem : (trim p xs).head? = some x) : xs.head? = some x := by
  have front := trim_prefix (p := p) xs
  rw [dropWhile_of_head h] at front
  exact head?_of_front front mem

/-- A first element that stays where it is. -/
theorem head?_trim_of_head {xs : List α} {x : α} (h : p x = false) (first : xs.head? = some x) :
    (trim p xs).head? = some x := by
  obtain ⟨rest, rfl⟩ : ∃ rest, xs = x :: rest := by
    cases xs with
    | nil => cases first
    | cons y rest => cases first; exact ⟨rest, rfl⟩
  have kept : (x :: rest).dropWhile p = x :: rest := by
    rw [List.dropWhile_cons, if_neg (by simp [h])]
  have front := trim_prefix (p := p) (x :: rest)
  rw [kept] at front
  cases shape : trim p (x :: rest) with
  | nil =>
    rw [trim, kept, List.reverse_eq_nil_iff, List.dropWhile_eq_nil_iff] at shape
    have gone := shape x (List.mem_reverse.mpr List.mem_cons_self)
    rw [h] at gone
    cases gone
  | cons y ys =>
    rw [shape, List.cons_prefix_cons] at front
    rw [front.1]
    rfl

theorem trim_append_left {before : List α} (front : ∀ x ∈ before, p x = true) (xs : List α) :
    trim p (before ++ xs) = trim p xs := by
  rw [trim, trim, List.dropWhile_append_of_pos front]

theorem split_ne_nil (xs : List α) : split ends xs ≠ [] := by
  induction xs with
  | nil => exact List.cons_ne_nil _ _
  | cons x xs ih =>
    rw [split]
    by_cases h : ends x = true
    · rw [if_pos h]
      exact List.cons_ne_nil _ _
    · rw [if_neg h]
      obtain ⟨piece, pieces, same⟩ := List.exists_cons_of_ne_nil ih
      rw [same]
      exact List.cons_ne_nil _ _

theorem split_none {xs : List α} (h : ∀ x ∈ xs, ends x = false) : split ends xs = [xs] := by
  induction xs with
  | nil => rfl
  | cons x xs ih =>
    rw [split, if_neg (by simp [h x List.mem_cons_self]),
      ih fun y mem => h y (List.mem_cons_of_mem _ mem)]
    rfl

theorem split_append {xs : List α} (h : ∀ x ∈ xs, ends x = false) {x : α} (last : ends x = true)
    (ys : List α) : split ends (xs ++ x :: ys) = xs :: split ends ys := by
  induction xs with
  | nil => rw [List.nil_append, split, if_pos last]
  | cons y xs ih =>
    rw [List.cons_append, split, if_neg (by simp [h y List.mem_cons_self]),
      ih fun z mem => h z (List.mem_cons_of_mem _ mem)]
    rfl

theorem ends_split {xs piece : List α} (mem : piece ∈ split ends xs) :
    ∀ x ∈ piece, ends x = false := by
  induction xs generalizing piece with
  | nil =>
    rw [split, List.mem_singleton] at mem
    subst mem
    intro x mem
    cases mem
  | cons x xs ih =>
    rw [split] at mem
    by_cases h : ends x = true
    · rw [if_pos h, List.mem_cons] at mem
      rcases mem with rfl | mem
      · intro x mem
        cases mem
      · exact ih mem
    · rw [if_neg h] at mem
      obtain ⟨first, pieces, same⟩ := List.exists_cons_of_ne_nil
        (split_ne_nil xs : split ends xs ≠ [])
      rw [same, List.modifyHead_cons, List.mem_cons] at mem
      rcases mem with rfl | mem
      · intro y mem
        rcases List.mem_cons.mp mem with rfl | mem
        · simpa using h
        · exact ih (same ▸ List.mem_cons_self) y mem
      · exact ih (same ▸ List.mem_cons_of_mem _ mem)

theorem mem_split {xs piece : List α} (mem : piece ∈ split ends xs) : ∀ x ∈ piece, x ∈ xs := by
  induction xs generalizing piece with
  | nil =>
    rw [split, List.mem_singleton] at mem
    subst mem
    exact fun x mem => mem
  | cons x xs ih =>
    rw [split] at mem
    by_cases h : ends x = true
    · rw [if_pos h, List.mem_cons] at mem
      rcases mem with rfl | mem
      · intro x mem
        cases mem
      · exact fun y inside => List.mem_cons_of_mem _ (ih mem y inside)
    · rw [if_neg h] at mem
      obtain ⟨first, pieces, same⟩ := List.exists_cons_of_ne_nil
        (split_ne_nil xs : split ends xs ≠ [])
      rw [same, List.modifyHead_cons, List.mem_cons] at mem
      rcases mem with rfl | mem
      · intro y mem
        rcases List.mem_cons.mp mem with rfl | mem
        · exact List.mem_cons_self
        · exact List.mem_cons_of_mem _ (ih (same ▸ List.mem_cons_self) y mem)
      · exact fun y inside =>
          List.mem_cons_of_mem _ (ih (same ▸ List.mem_cons_of_mem _ mem) y inside)

theorem split_congr {ends' : α → Bool} {xs : List α} (h : ∀ x ∈ xs, ends x = ends' x) :
    split ends xs = split ends' xs := by
  induction xs with
  | nil => rfl
  | cons x xs ih =>
    rw [split, split, h x List.mem_cons_self, ih fun y mem => h y (List.mem_cons_of_mem _ mem)]

/-- Every element ends a piece or is in one. -/
theorem mem_or_mem_split (ends : α → Bool) {xs : List α} {x : α} (mem : x ∈ xs) :
    ends x = true ∨ ∃ piece ∈ split ends xs, x ∈ piece := by
  induction xs with
  | nil => cases mem
  | cons y xs ih =>
    by_cases h : ends y = true
    · rw [split, if_pos h]
      rcases List.mem_cons.mp mem with rfl | mem
      · exact .inl h
      · rcases ih mem with is | ⟨piece, inside, there⟩
        · exact .inl is
        · exact .inr ⟨piece, List.mem_cons_of_mem _ inside, there⟩
    · rw [split, if_neg h]
      obtain ⟨first, pieces, same⟩ := List.exists_cons_of_ne_nil
        (split_ne_nil xs : split ends xs ≠ [])
      rw [same, List.modifyHead_cons]
      rcases List.mem_cons.mp mem with rfl | mem
      · exact .inr ⟨x :: first, List.mem_cons_self, List.mem_cons_self⟩
      · rcases ih mem with is | ⟨piece, inside, there⟩
        · exact .inl is
        · right
          rw [same, List.mem_cons] at inside
          rcases inside with rfl | inside
          · exact ⟨y :: piece, List.mem_cons_self, List.mem_cons_of_mem _ there⟩
          · exact ⟨piece, List.mem_cons_of_mem _ inside, there⟩

end

section

variable [DecidableEq α] {cr lf : α}

theorem newlinesFrom_append (flag : Bool) {xs : List α} (h : ∀ x ∈ xs, x ≠ cr ∧ x ≠ lf)
    (ys : List α) :
    newlinesFrom cr lf flag (xs ++ ys) =
      xs ++ newlinesFrom cr lf (flag && xs.isEmpty) ys := by
  induction xs generalizing flag with
  | nil =>
    rw [List.nil_append, List.isEmpty_nil, Bool.and_true]
    rfl
  | cons x xs ih =>
    obtain ⟨notCr, notLf⟩ := h x List.mem_cons_self
    rw [List.cons_append, newlinesFrom, if_neg notCr, if_neg (fun both => notLf both.2),
      ih false fun y mem => h y (List.mem_cons_of_mem _ mem)]
    simp

/-- A text without carriage returns is as it was. -/
theorem newlines_none {xs : List α} (h : cr ∉ xs) : newlines cr lf xs = xs := by
  induction xs with
  | nil => rfl
  | cons x xs ih =>
    have other : x ≠ cr := fun same => h (same ▸ List.mem_cons_self)
    rw [newlines, newlinesFrom, if_neg other, if_neg (by simp)]
    exact congrArg (x :: ·) (ih fun mem => h (List.mem_cons_of_mem _ mem))

theorem cr_notMem_newlinesFrom (distinct : lf ≠ cr) (flag : Bool) (xs : List α) :
    cr ∉ newlinesFrom cr lf flag xs := by
  induction xs generalizing flag with
  | nil => exact List.not_mem_nil
  | cons x xs ih =>
    rw [newlinesFrom]
    split_ifs with isCr pair
    · rw [List.mem_cons, not_or]
      exact ⟨distinct.symm, ih true⟩
    · exact ih false
    · rw [List.mem_cons, not_or]
      exact ⟨Ne.symm isCr, ih false⟩

end

/-- The lines of bytes and of their text. -/
def byteLines (bytes : List UInt8) : List (List UInt8) :=
  split (· = 10) (newlines 13 10 bytes)

def textLines (text : List Char) : List (List Char) :=
  split (· = '\n') (newlines '\r' '\n' text)

namespace Utf8

/-- Without a byte that ends a line there is no character that ends one. -/
theorem clean_decode {bytes : List UInt8} (h : ∀ x ∈ bytes, x ≠ 13 ∧ x ≠ 10) :
    ∀ c ∈ (decode bytes).toList, c ≠ '\r' ∧ c ≠ '\n' := by
  intro c mem
  rw [toList_decode] at mem
  constructor
  · rintro rfl
    obtain ⟨x, inside, same⟩ := mem_chars (by decide) _ bytes mem
    exact (h x inside).1 (UInt8.toNat_inj.mp same)
  · rintro rfl
    obtain ⟨x, inside, same⟩ := mem_chars (by decide) _ bytes mem
    exact (h x inside).2 (UInt8.toNat_inj.mp same)

theorem decode_linesFrom (flag : Bool) (bytes : List UInt8) :
    (split (· = 10) (newlinesFrom 13 10 flag bytes)).map (fun line => (decode line).toList) =
      split (· = '\n') (newlinesFrom '\r' '\n' flag (decode bytes).toList) := by
  induction length : bytes.length using Nat.strongRecOn generalizing bytes flag with
  | _ size ih =>
    -- Up to the first byte that ends a line both texts are the same.
    by_cases clean : ∀ x ∈ bytes, x ≠ 13 ∧ x ≠ 10
    · have whole := newlinesFrom_append flag clean []
      have whole' := newlinesFrom_append flag (clean_decode clean) []
      rw [List.append_nil] at whole whole'
      rw [whole, whole', newlinesFrom, newlinesFrom, List.append_nil, List.append_nil,
        split_none fun x mem => decide_eq_false (clean x mem).2,
        split_none fun c mem => decide_eq_false (clean_decode clean c mem).2]
      rfl
    · obtain ⟨a, x, b, rfl, before, ends⟩ :
          ∃ a x b, bytes = a ++ x :: b ∧ (∀ y ∈ a, y ≠ 13 ∧ y ≠ 10) ∧ (x = 13 ∨ x = 10) := by
        push Not at clean
        obtain ⟨y, inside, ends⟩ := clean
        have some' : (bytes.find? fun y => y == 13 || y == 10).isSome = true := by
          rw [List.find?_isSome]
          refine ⟨y, inside, ?_⟩
          by_cases cr : y = 13
          · simp [cr]
          · simp [ends cr]
        obtain ⟨x, found⟩ := Option.isSome_iff_exists.mp some'
        obtain ⟨is, a, b, rfl, before⟩ := List.find?_eq_some_iff_append.mp found
        refine ⟨a, x, b, rfl, fun y mem => ?_, by simpa using is⟩
        simpa using before y mem
      have shorter : b.length < size := by
        rw [List.length_append, List.length_cons] at length
        omega
      have before' := clean_decode before
      have empty : (decode a).toList.isEmpty = a.isEmpty := by
        rw [Bool.eq_iff_iff, List.isEmpty_iff, List.isEmpty_iff, decode_eq_nil]
      have piece : ∀ rest, split (· = 10) (a ++ 10 :: rest) = a :: split (· = 10) rest :=
        split_append (fun y mem => decide_eq_false (before y mem).2) (by decide)
      have piece' : ∀ rest, split (· = '\n') ((decode a).toList ++ '\n' :: rest) =
          (decode a).toList :: split (· = '\n') rest :=
        split_append (fun c mem => decide_eq_false (before' c mem).2) (by decide)
      rcases ends with rfl | rfl
      · rw [decode_ascii a (c := '\r') (by decide) (by decide), newlinesFrom_append flag before,
          newlinesFrom_append flag before', newlinesFrom, newlinesFrom, if_pos rfl, if_pos rfl,
          piece, piece', List.map_cons, ih _ shorter true b rfl]
      · rw [decode_ascii a (c := '\n') (by decide) (by decide), newlinesFrom_append flag before,
          newlinesFrom_append flag before', newlinesFrom, newlinesFrom,
          if_neg (show ¬(10 : UInt8) = 13 by decide), if_neg (show ¬ '\n' = '\r' by decide), empty]
        by_cases skipped : (flag && a.isEmpty) = true
        · have none' : a = [] := by
            rw [Bool.and_eq_true, List.isEmpty_iff] at skipped
            exact skipped.2
          subst none'
          rw [if_pos ⟨skipped, rfl⟩, if_pos ⟨skipped, rfl⟩, List.nil_append, decode_eq_nil.mpr rfl,
            List.nil_append, ih _ shorter false b rfl]
        · rw [if_neg fun both => skipped both.1, if_neg fun both => skipped both.1, piece, piece',
            List.map_cons, ih _ shorter false b rfl]

/-- The lines of a text are the texts of the lines. -/
theorem decode_lines (bytes : List UInt8) :
    (byteLines bytes).map (fun line => (decode line).toList) = textLines (decode bytes).toList :=
  decode_linesFrom false bytes

end Utf8

end McManager.Framework
