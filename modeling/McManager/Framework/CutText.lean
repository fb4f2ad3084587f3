import McManager.Framework.TextLines

/-! Texts that are written in part, and texts put together of others. -/

namespace McManager.Framework

section Pieces

variable {α : Type*} {ends : α → Bool}

/-- The pieces of two texts with an end between them. -/
theorem split_between (xs : List α) {x : α} (last : ends x = true) (ys : List α) :
    split ends (xs ++ x :: ys) = split ends xs ++ split ends ys := by
  induction xs with
  | nil =>
    have first : split ends (x :: ys) = [] :: split ends ys := by rw [split, if_pos last]
    exact first
  | cons y xs ih =>
    rw [List.cons_append, split, split, ih]
    split_ifs with h
    · rfl
    · obtain ⟨piece, pieces, same⟩ := List.exists_cons_of_ne_nil
        (split_ne_nil xs : split ends xs ≠ [])
      rw [same]
      rfl

/-- A text without an end is put before the first piece. -/
theorem split_prepend {front : List α} (h : ∀ x ∈ front, ends x = false) (xs : List α) :
    split ends (front ++ xs) = (split ends xs).modifyHead (front ++ ·) := by
  induction front with
  | nil =>
    obtain ⟨piece, pieces, same⟩ := List.exists_cons_of_ne_nil
      (split_ne_nil xs : split ends xs ≠ [])
    rw [List.nil_append, same]
    rfl
  | cons x front ih =>
    have rest := ih fun y mem => h y (List.mem_cons_of_mem _ mem)
    rw [List.cons_append, split, if_neg (by simp [h x List.mem_cons_self]), rest]
    cases split ends xs with
    | nil => rfl
    | cons piece pieces => rfl

end Pieces

section Newlines

variable {α : Type*} [DecidableEq α] {cr lf : α}

/-- The flag that is left after a text. -/
def returned (cr : α) (flag : Bool) (xs : List α) : Bool :=
  match xs.getLast? with
  | some x => x = cr
  | none => flag

theorem returned_cons (flag : Bool) (x : α) (xs : List α) :
    returned cr flag (x :: xs) = returned cr (x = cr) xs := by
  cases xs with
  | nil => rfl
  | cons y ys =>
    have there := List.getLast?_eq_some_getLast (List.cons_ne_nil y ys)
    rw [returned, returned, List.getLast?_cons_cons, there]

theorem returned_none {xs : List α} (h : cr ∉ xs) : returned cr false xs = false := by
  rw [returned]
  cases last : xs.getLast? with
  | none => rfl
  | some x =>
    have other : x ≠ cr := fun same => h (same ▸ List.mem_of_getLast? last)
    simp [other]

theorem newlinesFrom_between (flag : Bool) (xs ys : List α) :
    newlinesFrom cr lf flag (xs ++ ys) =
      newlinesFrom cr lf flag xs ++ newlinesFrom cr lf (returned cr flag xs) ys := by
  induction xs generalizing flag with
  | nil => rfl
  | cons x xs ih =>
    rw [List.cons_append, newlinesFrom, newlinesFrom, returned_cons]
    split_ifs with isCr pair
    · rw [ih, List.cons_append]
      simp [isCr]
    · rw [ih]
      simp [isCr]
    · rw [ih, List.cons_append]
      simp [isCr]

theorem newlines_after {xs : List α} (h : cr ∉ xs) (ys : List α) :
    newlines cr lf (xs ++ ys) = xs ++ newlines cr lf ys := by
  have alone : newlinesFrom cr lf false xs = xs := newlines_none h
  have parts : newlinesFrom cr lf false (xs ++ ys) = _ := newlinesFrom_between false xs ys
  rw [returned_none h, alone] at parts
  exact parts

/-- A carriage return is the end of a line. -/
theorem newlinesFrom_returned (flag : Bool) {xs : List α} (h : returned cr false xs = true) :
    ∃ front, newlinesFrom cr lf flag xs = front ++ [lf] := by
  obtain ⟨front, rfl⟩ : ∃ front, xs = front ++ [cr] := by
    rw [returned] at h
    cases last : xs.getLast? with
    | none =>
      rw [last] at h
      cases h
    | some x =>
      rw [last] at h
      have same : x = cr := by simpa using h
      exact ⟨xs.dropLast, by rw [← same, List.dropLast_append_getLast? x last]⟩
  refine ⟨newlinesFrom cr lf flag front, ?_⟩
  rw [newlinesFrom_between]
  simp [newlinesFrom]

end Newlines

namespace Utf8

/-- The bytes of a text that are there when its writing breaks off: characters that are whole, and
then perhaps the beginning of one. -/
theorem take_encode (cs : List Char) (k : Nat) :
    ∃ front piece, (cs.flatMap String.utf8EncodeChar).take k =
      front.flatMap String.utf8EncodeChar ++ piece ∧ front <+: cs ∧
      (piece = [] ∨ ∃ c j, 0 < j ∧ j < c.utf8Size ∧ piece = (String.utf8EncodeChar c).take j) := by
  induction cs generalizing k with
  | nil => exact ⟨[], [], by simp, List.prefix_refl [], .inl rfl⟩
  | cons c cs ih =>
    have width := String.length_utf8EncodeChar c
    rw [List.flatMap_cons]
    rcases Nat.lt_or_ge k c.utf8Size with short | fits
    · have first : (String.utf8EncodeChar c ++ cs.flatMap String.utf8EncodeChar).take k =
          (String.utf8EncodeChar c).take k := List.take_append_of_le_length (by omega)
      refine ⟨[], (String.utf8EncodeChar c).take k, first, List.nil_prefix, ?_⟩
      rcases Nat.eq_zero_or_pos k with rfl | positive
      · exact .inl List.take_zero
      · exact .inr ⟨c, k, positive, short, rfl⟩
    · obtain ⟨front, piece, bytes, before, shape⟩ := ih (k - c.utf8Size)
      refine ⟨c :: front, piece, ?_, List.cons_prefix_cons.mpr ⟨rfl, before⟩, shape⟩
      rw [List.take_append, List.take_of_length_le (by omega), width, bytes, List.flatMap_cons,
        List.append_assoc]

theorem chars_front (front : List Char) (bytes : List UInt8) : ∀ n,
    (front.flatMap String.utf8EncodeChar ++ bytes).length ≤ n →
    chars n (front.flatMap String.utf8EncodeChar ++ bytes) = front ++ chars bytes.length bytes := by
  induction front with
  | nil =>
    intro n long
    exact chars_enough bytes n bytes.length long (Nat.le_refl _)
  | cons c front ih =>
    intro n long
    have width := String.length_utf8EncodeChar c
    have positive := c.utf8Size_pos
    rw [List.flatMap_cons, List.append_assoc] at long ⊢
    have first := decoded_iff.mpr (List.prefix_append (String.utf8EncodeChar c)
      (front.flatMap String.utf8EncodeChar ++ bytes))
    have dropped : (String.utf8EncodeChar c ++
        (front.flatMap String.utf8EncodeChar ++ bytes)).drop c.utf8Size =
        front.flatMap String.utf8EncodeChar ++ bytes := by
      rw [← width, List.drop_left]
    rw [List.length_append, width] at long
    obtain ⟨n, rfl⟩ : ∃ m, n = m + 1 := ⟨n - 1, by omega⟩
    cases shape : String.utf8EncodeChar c ++ (front.flatMap String.utf8EncodeChar ++ bytes) with
    | nil =>
      have size := congrArg List.length shape
      rw [List.length_append, width, List.length_nil] at size
      omega
    | cons b bs =>
      rw [shape] at first dropped
      rw [chars, first]
      dsimp only
      rw [dropped, ih n (by omega), List.cons_append]

/-- The beginning of a character is no character. -/
theorem chars_piece {c : Char} {j : Nat} (positive : 0 < j) (short : j < c.utf8Size) :
    chars ((String.utf8EncodeChar c).take j).length ((String.utf8EncodeChar c).take j) =
      ['\uFFFD'] := by
  have width := String.length_utf8EncodeChar c
  have length : ((String.utf8EncodeChar c).take j).length = j := by
    rw [List.length_take, width]
    omega
  have none' := decode_cut short
  have size := broken_cut positive short
  cases shape : (String.utf8EncodeChar c).take j with
  | nil =>
    rw [shape, List.length_nil] at length
    omega
  | cons b bs =>
    rw [shape] at none' size length
    rw [List.length_cons, chars, none']
    dsimp only
    rw [size, List.drop_eq_nil_of_le (by omega)]
    cases bs.length <;> rfl

/-- What is read of a text whose writing has broken off. -/
theorem decode_take (cs : List Char) (k : Nat) :
    ∃ front tail, (decode ((encode (String.ofList cs)).take k)).toList = front ++ tail ∧
      front <+: cs ∧ (tail = [] ∨ tail = ['\uFFFD']) := by
  obtain ⟨front, piece, bytes, before, shape⟩ := take_encode cs k
  have read : (decode ((encode (String.ofList cs)).take k)).toList =
      front ++ chars piece.length piece := by
    rw [encode_ofList, bytes, toList_decode]
    exact chars_front front piece _ (Nat.le_refl _)
  refine ⟨front, _, read, before, ?_⟩
  rcases shape with rfl | ⟨c, j, positive, short, rfl⟩
  · exact .inl rfl
  · exact .inr (chars_piece positive short)

/-- A text of characters of one byte each. -/
theorem take_ascii {cs : List Char} (ascii : ∀ c ∈ cs, c.utf8Size = 1) (k : Nat) :
    (cs.flatMap String.utf8EncodeChar).take k = (cs.take k).flatMap String.utf8EncodeChar := by
  induction cs generalizing k with
  | nil => simp
  | cons c cs ih =>
    have width := String.length_utf8EncodeChar c
    rw [ascii c List.mem_cons_self] at width
    cases k with
    | zero => simp
    | succ k =>
      have rest := ih (fun d mem => ascii d (List.mem_cons_of_mem _ mem)) k
      rw [List.flatMap_cons, List.take_append, List.take_of_length_le (by omega), width,
        List.take_succ_cons, List.flatMap_cons]
      simp [rest]

end Utf8

end McManager.Framework
