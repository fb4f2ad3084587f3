import Mathlib.Tactic.Common

namespace McManager.Framework.Utf8

/-- `str.encode`. -/
def encode (s : String) : List UInt8 := s.toList.flatMap String.utf8EncodeChar

/-- The bytes that may follow this first byte of a character of more than one. -/
def second (lead b : UInt8) : Bool :=
  if lead = 0xe0 then 0xa0 ≤ b && b ≤ 0xbf
  else if lead = 0xed then 0x80 ≤ b && b ≤ 0x9f
  else if lead = 0xf0 then 0x90 ≤ b && b ≤ 0xbf
  else if lead = 0xf4 then 0x80 ≤ b && b ≤ 0x8f
  else 0xc2 ≤ lead && lead ≤ 0xf4 && 0x80 ≤ b && b ≤ 0xbf

/-- How many bytes a character with this first byte has. -/
def size (lead : UInt8) : Nat :=
  if lead < 0xc2 then 1 else if lead < 0xe0 then 2 else if lead < 0xf0 then 3
  else if lead < 0xf5 then 4 else 1

/-- The length of the longest beginning of a character, at bytes that are no character. -/
def broken : List UInt8 → Nat
  | lead :: b :: c :: _ =>
    if !second lead b then 1
    else if size lead = 4 && (0x80 ≤ c && c ≤ 0xbf) then 3 else 2
  | lead :: b :: [] => if second lead b then 2 else 1
  | _ => 1

/-- The characters of at most so many steps. -/
def chars : Nat → List UInt8 → List Char
  | 0, _ => []
  | _ + 1, [] => []
  | n + 1, b :: bs =>
    match (b :: bs).toByteArray.utf8DecodeChar? 0 with
    | some c => c :: chars n ((b :: bs).drop c.utf8Size)
    | none => '\uFFFD' :: chars n ((b :: bs).drop (broken (b :: bs)))

/-- `bytes.decode("utf-8", errors="replace")`. -/
def decode (bytes : List UInt8) : String := String.ofList (chars bytes.length bytes)

/-- The characters of at most so many steps, without the bytes that are none. -/
def kept : Nat → List UInt8 → List Char
  | 0, _ => []
  | _ + 1, [] => []
  | n + 1, b :: bs =>
    match (b :: bs).toByteArray.utf8DecodeChar? 0 with
    | some c => c :: kept n ((b :: bs).drop c.utf8Size)
    | none => kept n ((b :: bs).drop (broken (b :: bs)))

/-- `bytes.decode("utf-8", errors="ignore")`. -/
def decodeIgnore (bytes : List UInt8) : String := String.ofList (kept bytes.length bytes)

theorem chars_encode (cs : List Char) : ∀ n, (cs.flatMap String.utf8EncodeChar).length ≤ n →
    chars n (cs.flatMap String.utf8EncodeChar) = cs := by
  induction cs with
  | nil =>
    intro n _
    cases n <;> rfl
  | cons c cs ih =>
    intro n long
    rw [List.flatMap_cons, List.length_append, String.length_utf8EncodeChar] at long
    have positive := c.utf8Size_pos
    obtain ⟨n, rfl⟩ : ∃ m, n = m + 1 := ⟨n - 1, by omega⟩
    have first : (String.utf8EncodeChar c ++ cs.flatMap String.utf8EncodeChar).toByteArray.utf8DecodeChar? 0 =
        some c := by
      rw [List.toByteArray_append, ByteArray.utf8DecodeChar?_utf8EncodeChar_append]
    have rest : (String.utf8EncodeChar c ++ cs.flatMap String.utf8EncodeChar).drop c.utf8Size =
        cs.flatMap String.utf8EncodeChar := by
      rw [← String.length_utf8EncodeChar, List.drop_left]
    rw [List.flatMap_cons]
    cases bytes : String.utf8EncodeChar c ++ cs.flatMap String.utf8EncodeChar with
    | nil =>
      have short := congrArg List.length bytes
      rw [List.length_append, String.length_utf8EncodeChar, List.length_nil] at short
      omega
    | cons b bs =>
      rw [bytes] at first rest
      rw [chars, first]
      dsimp only
      rw [rest, ih n (by omega)]

/-- What is encoded is decoded to the same text. -/
theorem decode_encode (s : String) : decode (encode s) = s := by
  rw [decode, encode, chars_encode s.toList _ (Nat.le_refl _), String.ofList_toList]

theorem broken_pos (bytes : List UInt8) : 0 < broken bytes := by
  unfold broken
  split
  · split_ifs <;> omega
  · split_ifs <;> omega
  · omega

/-- More steps than bytes change nothing. -/
theorem chars_enough (bytes : List UInt8) : ∀ n m, bytes.length ≤ n → bytes.length ≤ m →
    chars n bytes = chars m bytes := by
  induction hb : bytes.length using Nat.strongRecOn generalizing bytes with
  | _ size ih =>
    intro n m long long'
    cases bytes with
    | nil => cases n <;> cases m <;> rfl
    | cons b bs =>
      rw [List.length_cons] at hb
      obtain ⟨n, rfl⟩ : ∃ k, n = k + 1 := ⟨n - 1, by omega⟩
      obtain ⟨m, rfl⟩ : ∃ k, m = k + 1 := ⟨m - 1, by omega⟩
      have shorter : ∀ k, 0 < k → ((b :: bs).drop k).length < size := by
        intro k positive
        rw [List.length_drop, List.length_cons]
        omega
      rw [chars, chars]
      cases (b :: bs).toByteArray.utf8DecodeChar? 0 with
      | some c =>
        have less := shorter c.utf8Size c.utf8Size_pos
        exact congrArg (c :: ·) (ih _ less _ rfl n m (by omega) (by omega))
      | none =>
        have less := shorter (broken (b :: bs)) (broken_pos _)
        exact congrArg (_ :: ·) (ih _ less _ rfl n m (by omega) (by omega))

theorem decoded_iff {bytes : List UInt8} {c : Char} :
    bytes.toByteArray.utf8DecodeChar? 0 = some c ↔ String.utf8EncodeChar c <+: bytes := by
  constructor
  · intro found
    have front := String.toByteArray_utf8EncodeChar_of_utf8DecodeChar?_eq_some found
    have short : c.utf8Size ≤ bytes.toByteArray.size := by
      have sizes := congrArg ByteArray.size front
      rw [List.size_toByteArray, String.length_utf8EncodeChar, ByteArray.size_extract] at sizes
      omega
    refine ⟨(bytes.toByteArray.extract c.utf8Size bytes.toByteArray.size).data.toList, ?_⟩
    apply List.toByteArray_inj.mp
    rw [List.toByteArray_append, front]
    ext1
    simp [List.take_of_length_le]
  · rintro ⟨rest, rfl⟩
    rw [List.toByteArray_append, ByteArray.utf8DecodeChar?_utf8EncodeChar_append]

/-- The bytes of a character beyond ASCII are all beyond ASCII. -/
theorem encoded (c : Char) : (∃ b : UInt8, b.toNat = c.toNat ∧ String.utf8EncodeChar c = [b]) ∨
    ∀ b ∈ String.utf8EncodeChar c, 128 ≤ b.toNat := by
  rw [String.utf8EncodeChar]
  split_ifs with one two three
  · refine .inl ⟨_, ?_, rfl⟩
    rw [UInt8.toNat_ofNat']
    exact Nat.mod_eq_of_lt (by omega)
  · right
    intro b mem
    simp only [List.mem_cons, List.not_mem_nil, or_false] at mem
    rcases mem with rfl | rfl <;> rw [UInt8.toNat_ofNat'] <;> omega
  · right
    intro b mem
    simp only [List.mem_cons, List.not_mem_nil, or_false] at mem
    rcases mem with rfl | rfl | rfl <;> rw [UInt8.toNat_ofNat'] <;> omega
  · right
    intro b mem
    simp only [List.mem_cons, List.not_mem_nil, or_false] at mem
    rcases mem with rfl | rfl | rfl | rfl <;> rw [UInt8.toNat_ofNat'] <;> omega

theorem encoded_ascii {c : Char} {x : UInt8} (ascii : x.toNat < 128) (same : x.toNat = c.toNat) :
    String.utf8EncodeChar c = [x] := by
  have value : c.val.toNat = c.toNat := rfl
  rw [String.utf8EncodeChar, if_pos (by omega)]
  congr 1
  apply UInt8.toNat_inj.mp
  rw [UInt8.toNat_ofNat', same]
  exact Nat.mod_eq_of_lt (by omega)

theorem prefix_ascii {c : Char} {a : List UInt8} {x : UInt8} {b : List UInt8} (ascii : x.toNat < 128)
    (nonempty : a ≠ []) :
    String.utf8EncodeChar c <+: a ++ x :: b ↔ String.utf8EncodeChar c <+: a := by
  constructor
  · intro front
    rcases encoded c with ⟨first, -, one⟩ | high
    · obtain ⟨head, tail, rfl⟩ := List.exists_cons_of_ne_nil nonempty
      rw [one] at front ⊢
      rw [List.cons_append, List.cons_prefix_cons] at front
      rw [List.cons_prefix_cons]
      exact ⟨front.1, List.nil_prefix⟩
    · rcases Nat.lt_or_ge a.length (String.utf8EncodeChar c).length with long | short
      · have inside : a ++ [x] <+: a ++ x :: b :=
          (List.prefix_append_right_inj a).mpr (List.cons_prefix_cons.mpr ⟨rfl, List.nil_prefix⟩)
        have among := List.prefix_of_prefix_length_le inside front
          (by rw [List.length_append, List.length_singleton]; exact long)
        have wide := high x (among.subset (List.mem_append_right _ List.mem_cons_self))
        omega
      · exact List.prefix_of_prefix_length_le front (List.prefix_append ..) short
  · intro front
    exact front.trans (List.prefix_append ..)


theorem decode_none_ascii {a : List UInt8} {x : UInt8} {b : List UInt8} (ascii : x.toNat < 128)
    (nonempty : a ≠ []) : broken (a ++ x :: b) = broken a := by
  have notSecond : ∀ lead, second lead x = false := by
    intro lead
    have small : ∀ k : UInt8, 128 ≤ k.toNat → decide (k ≤ x) = false := by
      intro k big
      rw [decide_eq_false_iff_not, UInt8.le_iff_toNat_le]
      omega
    rw [second]
    simp [small]
  have notThird : (decide ((0x80 : UInt8) ≤ x) && decide (x ≤ 0xbf)) = false := by
    rw [Bool.and_eq_false_iff]
    left
    rw [decide_eq_false_iff_not, UInt8.le_iff_toNat_le]
    have value : (0x80 : UInt8).toNat = 128 := rfl
    omega
  match a, nonempty with
  | [lead], _ =>
    cases b with
    | nil => rw [List.singleton_append, broken, notSecond]; rfl
    | cons c b => rw [List.singleton_append, broken, notSecond]; rfl
  | [lead, y], _ =>
    rw [List.cons_append, List.singleton_append, broken, notThird, Bool.and_false, broken]
    cases second lead y <;> rfl
  | lead :: y :: z :: rest, _ => rfl

theorem broken_le {a : List UInt8} (nonempty : a ≠ []) : broken a ≤ a.length := by
  match a, nonempty with
  | [_], _ => exact Nat.le_refl 1
  | [lead, b], _ => rw [broken]; split_ifs <;> simp
  | lead :: b :: c :: rest, _ => rw [broken]; split_ifs <;> simp

theorem chars_ascii (a : List UInt8) {x : UInt8} (ascii : x.toNat < 128) {c : Char}
    (same : x.toNat = c.toNat) (b : List UInt8) : ∀ n, (a ++ x :: b).length ≤ n →
    chars n (a ++ x :: b) = chars a.length a ++ c :: chars b.length b := by
  induction length : a.length using Nat.strongRecOn generalizing a with
  | _ size ih =>
    intro n long
    rw [List.length_append, List.length_cons] at long
    obtain ⟨n, rfl⟩ : ∃ k, n = k + 1 := ⟨n - 1, by omega⟩
    cases a with
    | nil =>
      have one := encoded_ascii ascii same
      have first : (x :: b).toByteArray.utf8DecodeChar? 0 = some c :=
        decoded_iff.mpr (one ▸ List.cons_prefix_cons.mpr ⟨rfl, List.nil_prefix⟩)
      have width : c.utf8Size = 1 := by
        rw [← String.length_utf8EncodeChar, one]
        rfl
      subst length
      rw [List.nil_append, chars, first, List.length_nil, chars]
      dsimp only
      rw [width, List.nil_append, List.drop_one, List.tail_cons]
      exact congrArg (c :: ·) (chars_enough b n b.length (by simp at long; omega) (Nat.le_refl _))
    | cons lead rest =>
      have nonempty : lead :: rest ≠ [] := List.cons_ne_nil _ _
      have step : ∀ k, 0 < k → k ≤ (lead :: rest).length →
          chars n (((lead :: rest) ++ x :: b).drop k) =
            chars rest.length ((lead :: rest).drop k) ++ c :: chars b.length b := by
        intro k positive inside
        rw [List.drop_append_of_le_length inside]
        have shorter : ((lead :: rest).drop k).length < size := by
          rw [List.length_drop]
          omega
        rw [ih _ shorter _ rfl n (by simp at long ⊢; omega)]
        exact congrArg (· ++ _) (chars_enough _ _ _ (Nat.le_refl _) (by simp; omega))
      subst length
      rw [List.cons_append, chars, List.length_cons, chars, ← List.cons_append]
      cases found : (lead :: rest).toByteArray.utf8DecodeChar? 0 with
      | some d =>
        have there : String.utf8EncodeChar d <+: lead :: rest := decoded_iff.mp found
        have found' := decoded_iff.mpr ((prefix_ascii (b := b) ascii nonempty).mpr there)
        rw [found']
        dsimp only
        rw [step d.utf8Size d.utf8Size_pos (by rw [← String.length_utf8EncodeChar]; exact there.length_le)]
        rfl
      | none =>
        have found' : ((lead :: rest) ++ x :: b).toByteArray.utf8DecodeChar? 0 = none := by
          cases other : ((lead :: rest) ++ x :: b).toByteArray.utf8DecodeChar? 0 with
          | none => rfl
          | some d =>
            have there := (prefix_ascii ascii nonempty).mp (decoded_iff.mp other)
            rw [decoded_iff.mpr there] at found
            cases found
        rw [found']
        dsimp only
        rw [decode_none_ascii ascii nonempty, step _ (broken_pos _) (broken_le nonempty)]
        rfl

/-- The characters of bytes. -/
theorem toList_decode (bytes : List UInt8) : (decode bytes).toList = chars bytes.length bytes :=
  String.toList_ofList

theorem encode_ofList (cs : List Char) :
    encode (String.ofList cs) = cs.flatMap String.utf8EncodeChar := by
  rw [encode, String.toList_ofList]

theorem encode_append (cs ds : List Char) : encode (String.ofList (cs ++ ds)) =
    encode (String.ofList cs) ++ encode (String.ofList ds) := by
  rw [encode_ofList, encode_ofList, encode_ofList, List.flatMap_append]

/-- An ASCII byte is a character of its own, whatever stands around it. -/
theorem decode_ascii (a : List UInt8) {x : UInt8} (ascii : x.toNat < 128) {c : Char}
    (same : x.toNat = c.toNat) (b : List UInt8) :
    (decode (a ++ x :: b)).toList = (decode a).toList ++ c :: (decode b).toList := by
  rw [toList_decode, toList_decode, toList_decode]
  exact chars_ascii a ascii same b _ (Nat.le_refl _)

theorem mem_chars {c : Char} (ascii : c.toNat < 128) :
    ∀ n (bytes : List UInt8), c ∈ chars n bytes → ∃ x ∈ bytes, x.toNat = c.toNat := by
  intro n
  induction n with
  | zero =>
    intro bytes mem
    rw [chars] at mem
    cases mem
  | succ n ih =>
    intro bytes mem
    cases bytes with
    | nil =>
      rw [chars] at mem
      cases mem
    | cons b bs =>
      have later : ∀ k, c ∈ chars n ((b :: bs).drop k) → ∃ x ∈ b :: bs, x.toNat = c.toNat := by
        intro k mem
        obtain ⟨x, inside, same⟩ := ih _ mem
        exact ⟨x, List.mem_of_mem_drop inside, same⟩
      rw [chars] at mem
      cases found : (b :: bs).toByteArray.utf8DecodeChar? 0 with
      | none =>
        rw [found] at mem
        rcases List.mem_cons.mp mem with rfl | mem
        · exact absurd ascii (by decide)
        · exact later _ mem
      | some d =>
        rw [found] at mem
        rcases List.mem_cons.mp mem with rfl | mem
        · have value : (UInt8.ofNat c.toNat).toNat = c.toNat := by
            rw [UInt8.toNat_ofNat']
            exact Nat.mod_eq_of_lt (by omega)
          have front := decoded_iff.mp found
          rw [encoded_ascii (by omega) value] at front
          exact ⟨_, front.subset List.mem_cons_self, value⟩
        · exact later _ mem

theorem decode_eq_nil {bytes : List UInt8} : (decode bytes).toList = [] ↔ bytes = [] := by
  constructor
  · intro empty
    rw [toList_decode] at empty
    cases bytes with
    | nil => rfl
    | cons b bs =>
      rw [List.length_cons, chars] at empty
      cases found : (b :: bs).toByteArray.utf8DecodeChar? 0 with
      | none => rw [found] at empty; cases empty
      | some d => rw [found] at empty; cases empty
  · rintro rfl
    rfl

/-- No character begins with another one. -/
theorem eq_of_encoded_prefix {c d : Char} (h : String.utf8EncodeChar d <+: String.utf8EncodeChar c) :
    d = c := by
  have first := decoded_iff.mpr h
  have whole := decoded_iff.mpr (List.prefix_refl (String.utf8EncodeChar c))
  exact Option.some.inj (first.symm.trans whole)

theorem decode_cut {c : Char} {k : Nat} (short : k < c.utf8Size) :
    ((String.utf8EncodeChar c).take k).toByteArray.utf8DecodeChar? 0 = none := by
  cases found : ((String.utf8EncodeChar c).take k).toByteArray.utf8DecodeChar? 0 with
  | none => rfl
  | some d =>
    have front := decoded_iff.mp found
    have same := eq_of_encoded_prefix (front.trans (List.take_prefix ..))
    have long := front.length_le
    rw [same, List.length_take, String.length_utf8EncodeChar] at long
    omega

theorem toNat_ofNat_of_lt {n : Nat} (h : n < 256) : (UInt8.ofNat n).toNat = n := by
  rw [UInt8.toNat_ofNat']
  exact Nat.mod_eq_of_lt h

theorem second_iff (lead b : UInt8) : second lead b = true ↔
    194 ≤ lead.toNat ∧ lead.toNat ≤ 244 ∧ 128 ≤ b.toNat ∧ b.toNat ≤ 191 ∧
    (lead.toNat = 224 → 160 ≤ b.toNat) ∧ (lead.toNat = 237 → b.toNat ≤ 159) ∧
    (lead.toNat = 240 → 144 ≤ b.toNat) ∧ (lead.toNat = 244 → b.toNat ≤ 143) := by
  have value : ∀ k : UInt8, lead = k ↔ lead.toNat = k.toNat := fun k => UInt8.toNat_inj.symm
  have e0 := value 0xe0
  have ed := value 0xed
  have f0 := value 0xf0
  have f4 := value 0xf4
  simp only [UInt8.reduceToNat] at e0 ed f0 f4
  rw [second]
  simp only [e0, ed, f0, f4]
  split_ifs with is0 is1 is2 is3 <;>
    simp only [Bool.and_eq_true, decide_eq_true_eq, UInt8.le_iff_toNat_le, UInt8.reduceToNat] <;>
    omega

theorem size_eq_four {lead : UInt8} (h : 240 ≤ lead.toNat) (h' : lead.toNat ≤ 244) :
    size lead = 4 := by
  have low : ∀ k : UInt8, k.toNat ≤ 240 → ¬lead < k := by
    intro k bound less
    rw [UInt8.lt_iff_toNat_lt] at less
    omega
  have high : lead < 0xf5 := by
    rw [UInt8.lt_iff_toNat_lt]
    exact Nat.lt_of_le_of_lt h' (by decide)
  rw [size, if_neg (low _ (by decide)), if_neg (low _ (by decide)), if_neg (low _ (by decide)),
    if_pos high]

/-- A character that is cut off is one broken piece. -/
theorem broken_cut {c : Char} {k : Nat} (positive : 0 < k) (short : k < c.utf8Size) :
    broken ((String.utf8EncodeChar c).take k) = k := by
  have valid := c.valid
  rw [← String.length_utf8EncodeChar] at short
  rw [String.utf8EncodeChar] at short ⊢
  have bound : c.val.toNat < 0xd800 ∨ 0xdfff < c.val.toNat ∧ c.val.toNat < 0x110000 := by
    simpa [UInt32.isValidChar, Nat.isValidChar] using valid
  generalize c.val.toNat = v at short bound ⊢
  split_ifs at short ⊢ with one two three
  · simp at short
    omega
  · have is : k = 1 := by simp at short; omega
    subst is
    rfl
  · have is : k = 1 ∨ k = 2 := by simp at short; omega
    rcases is with rfl | rfl
    · rfl
    · have next : second (UInt8.ofNat (v / 4096 % 16 + 224)) (UInt8.ofNat (v / 64 % 64 + 128)) =
          true := by
        rw [second_iff, toNat_ofNat_of_lt (by omega), toNat_ofNat_of_lt (by omega)]
        omega
      rw [List.take_succ_cons, List.take_succ_cons, List.take_zero, broken, if_pos next]
  · have is : k = 1 ∨ k = 2 ∨ k = 3 := by simp at short; omega
    have next : second (UInt8.ofNat (v / 262144 % 8 + 240)) (UInt8.ofNat (v / 4096 % 64 + 128)) =
        true := by
      rw [second_iff, toNat_ofNat_of_lt (by omega), toNat_ofNat_of_lt (by omega)]
      omega
    rcases is with rfl | rfl | rfl
    · rfl
    · rw [List.take_succ_cons, List.take_succ_cons, List.take_zero, broken, if_pos next]
    · have four : size (UInt8.ofNat (v / 262144 % 8 + 240)) = 4 := by
        apply size_eq_four <;> rw [toNat_ofNat_of_lt (by omega)] <;> omega
      have third : (decide ((0x80 : UInt8) ≤ UInt8.ofNat (v / 64 % 64 + 128)) &&
          decide (UInt8.ofNat (v / 64 % 64 + 128) ≤ 0xbf)) = true := by
        rw [Bool.and_eq_true, decide_eq_true_eq, decide_eq_true_eq, UInt8.le_iff_toNat_le,
          UInt8.le_iff_toNat_le, toNat_ofNat_of_lt (by omega)]
        exact ⟨by simp, by simp; omega⟩
      rw [List.take_succ_cons, List.take_succ_cons, List.take_succ_cons, List.take_zero, broken,
        next, four, third]
      rfl

/-- What is left of a text whose bytes are cut off: the characters that are whole. -/
theorem kept_take (cs : List Char) : ∀ k n, ((cs.flatMap String.utf8EncodeChar).take k).length ≤ n →
    ∃ front rest, cs = front ++ rest ∧ kept n ((cs.flatMap String.utf8EncodeChar).take k) = front ∧
      (front.flatMap String.utf8EncodeChar).length ≤ k ∧
      ∀ c ∈ rest.head?, k < (front.flatMap String.utf8EncodeChar).length + c.utf8Size := by
  induction cs with
  | nil =>
    intro k n _
    refine ⟨[], [], rfl, ?_, Nat.zero_le _, fun c mem => nomatch mem⟩
    rw [List.flatMap_nil, List.take_nil]
    cases n <;> rfl
  | cons c cs ih =>
    intro k n long
    rw [List.flatMap_cons] at long ⊢
    have width := String.length_utf8EncodeChar c
    have positive := c.utf8Size_pos
    rcases Nat.lt_or_ge k c.utf8Size with short | fits
    · -- The first character is cut off.
      refine ⟨[], c :: cs, rfl, ?_, Nat.zero_le _, ?_⟩
      · rw [List.take_append_of_le_length (by omega)] at long ⊢
        cases k with
        | zero =>
          rw [List.take_zero]
          cases n <;> rfl
        | succ k =>
          have none' := decode_cut short
          have size := broken_cut (Nat.succ_pos k) short
          have length : ((String.utf8EncodeChar c).take (k + 1)).length = k + 1 := by
            rw [List.length_take, width]
            omega
          obtain ⟨n, rfl⟩ : ∃ m, n = m + 1 := ⟨n - 1, by omega⟩
          cases bytes : (String.utf8EncodeChar c).take (k + 1) with
          | nil =>
            rw [bytes] at length
            cases length
          | cons b bs =>
            rw [bytes] at none' size length
            rw [kept, none']
            dsimp only
            rw [size, List.drop_eq_nil_of_le (by omega)]
            cases n <;> rfl
      · intro d mem
        cases mem
        simpa using short
    · obtain ⟨front, rest, rfl, same, inside, next⟩ := ih (k - c.utf8Size) (n - 1) (by
        rw [List.take_append, List.length_append] at long
        rw [List.take_of_length_le (by omega), width] at long
        omega)
      refine ⟨c :: front, rest, rfl, ?_, ?_, ?_⟩
      · have parts : (String.utf8EncodeChar c ++ (front ++ rest).flatMap String.utf8EncodeChar).take k =
            String.utf8EncodeChar c ++
              ((front ++ rest).flatMap String.utf8EncodeChar).take (k - c.utf8Size) := by
          rw [List.take_append, List.take_of_length_le (by omega), width]
        rw [parts] at long ⊢
        rw [List.length_append, width] at long
        obtain ⟨n, rfl⟩ : ∃ m, n = m + 1 := ⟨n - 1, by omega⟩
        have first := decoded_iff.mpr (List.prefix_append (String.utf8EncodeChar c)
          (((front ++ rest).flatMap String.utf8EncodeChar).take (k - c.utf8Size)))
        have dropped : (String.utf8EncodeChar c ++
            ((front ++ rest).flatMap String.utf8EncodeChar).take (k - c.utf8Size)).drop c.utf8Size =
            ((front ++ rest).flatMap String.utf8EncodeChar).take (k - c.utf8Size) := by
          rw [← width, List.drop_left]
        cases bytes : String.utf8EncodeChar c ++
            ((front ++ rest).flatMap String.utf8EncodeChar).take (k - c.utf8Size) with
        | nil =>
          have empty := congrArg List.length bytes
          rw [List.length_append, width, List.length_nil] at empty
          omega
        | cons b bs =>
          rw [bytes] at first dropped
          rw [kept, first]
          dsimp only
          rw [dropped]
          exact congrArg (c :: ·) same
      · rw [List.flatMap_cons, List.length_append, width]
        omega
      · intro d mem
        have far := next d mem
        rw [List.flatMap_cons, List.length_append, width]
        omega

end McManager.Framework.Utf8
