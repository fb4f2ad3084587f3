import McManager.Web.JsonText

/-! Every value reads back from its text as it was written. -/

namespace McManager.JsonText

open Framework Web Realtime

section Strings

variable {c : Char} {rest : Text}

theorem hexDigit_digitChar : ∀ d < 16, hexDigit (Nat.digitChar d) = some d := by decide

theorem unit_hex4 {n : Nat} (small : n < 65536) (rest : Text) :
    unit (hex4 n ++ rest) = some (n, rest) := by
  have a := hexDigit_digitChar (n / 4096 % 16) (by omega)
  have b := hexDigit_digitChar (n / 256 % 16) (by omega)
  have c := hexDigit_digitChar (n / 16 % 16) (by omega)
  have d := hexDigit_digitChar (n % 16) (by omega)
  have whole : 4096 * (n / 4096 % 16) + 256 * (n / 256 % 16) + 16 * (n / 16 % 16) + n % 16 = n := by
    omega
  simp only [hex4, List.map_cons, List.map_nil, List.cons_append, List.nil_append, unit, a, b, c, d,
    Option.bind_eq_bind, Option.bind_some, whole]

/-- A character below the supplementary planes is none of the halves of a pair. -/
theorem valid_toNat (c : Char) : c.toNat < 0xd800 ∨ 0xdfff < c.toNat ∧ c.toNat < 0x110000 := by
  have valid := c.valid
  rw [UInt32.isValidChar, Nat.isValidChar] at valid
  exact valid

theorem unicode_basic {n : Nat} {cs : Text} (read : unit cs = some (n, rest))
    (plain : n < 0xd800 ∨ 0xdfff < n) : unicode cs = some (Char.ofNat n, rest) := by
  have noHigh : ¬(0xd800 ≤ n ∧ n < 0xdc00) := by omega
  have noLow : ¬(0xdc00 ≤ n ∧ n < 0xe000) := by omega
  rw [unicode, read]
  simp only [Option.bind_eq_bind, Option.bind_some, if_neg noHigh, if_neg noLow]

theorem unicode_pair {high low : Nat} {cs ds : Text}
    (first : unit cs = some (high, '\\' :: 'u' :: ds)) (second : unit ds = some (low, rest))
    (isHigh : 0xd800 ≤ high ∧ high < 0xdc00) (isLow : 0xdc00 ≤ low ∧ low < 0xe000) :
    unicode cs = some (Char.ofNat (0x10000 + (high - 0xd800) * 1024 + (low - 0xdc00)), rest) := by
  rw [unicode, first]
  simp only [Option.bind_eq_bind, Option.bind_some, if_pos isHigh, second, if_pos isLow]

theorem unicode_escaped {n v : Nat} (above : c.toNat = 0x10000 + v) (small : v < 0x100000)
    (same : n = v / 1024) (rest : Text) :
    unicode (hex4 (0xd800 + n) ++ '\\' :: 'u' :: (hex4 (0xdc00 + v % 1024) ++ rest)) =
      some (c, rest) := by
  have whole : 0x10000 + (0xd800 + n - 0xd800) * 1024 + (0xdc00 + v % 1024 - 0xdc00) = c.toNat := by
    omega
  rw [unicode_pair (unit_hex4 (by omega) _) (unit_hex4 (by omega) rest) (by omega) (by omega), whole,
    Char.ofNat_toNat]

/-- What a string has for a character reads as this character. -/
theorem character_escaped (c : Char) (rest : Text) :
    character (escaped c ++ rest) = some (c, rest) := by
  rw [escaped]
  split_ifs with quote slash lf cr tab bs ff plain basic
  · subst quote; rfl
  · subst slash; rfl
  · subst lf; rfl
  · subst cr; rfl
  · subst tab; rfl
  · have same : c = Char.ofNat 8 := by rw [← bs, Char.ofNat_toNat]
    subst same; rfl
  · have same : c = Char.ofNat 12 := by rw [← ff, Char.ofNat_toNat]
    subst same; rfl
  · have printed : ¬c.toNat < 32 := by omega
    rw [List.singleton_append, character, if_neg slash, if_neg printed]
  · have valid := valid_toNat c
    have read := unicode_basic (unit_hex4 basic rest) (by omega)
    rw [Char.ofNat_toNat] at read
    exact read
  · have valid := valid_toNat c
    have above : c.toNat = 0x10000 + (c.toNat - 0x10000) := by omega
    have read := unicode_escaped above (by omega) rfl rest
    rw [List.cons_append, List.cons_append, List.append_assoc]
    exact read

theorem escaped_head (c : Char) : ∃ d ds, escaped c = d :: ds ∧ d ≠ '"' := by
  rw [escaped]
  split_ifs with quote slash
  all_goals first
    | exact ⟨_, _, rfl, by decide⟩
    | exact ⟨_, _, rfl, quote⟩

/-- A string reads up to its closing quote. -/
theorem string_quoted (s : Text) (rest : Text) {n : Nat} (enough : s.length < n) :
    string n (s.flatMap escaped ++ '"' :: rest) = some (s, rest) := by
  induction s generalizing n with
  | nil =>
    obtain ⟨n, rfl⟩ : ∃ m, n = m + 1 := ⟨n - 1, by omega⟩
    rfl
  | cons c s ih =>
    rw [List.length_cons] at enough
    obtain ⟨n, rfl⟩ : ∃ m, n = m + 1 := ⟨n - 1, by omega⟩
    obtain ⟨d, ds, first, other⟩ := escaped_head c
    have read := character_escaped c (s.flatMap escaped ++ '"' :: rest)
    rw [List.flatMap_cons, List.append_assoc]
    rw [first, List.cons_append] at read ⊢
    rw [string, if_neg other, read]
    simp only [Option.bind_eq_bind, Option.bind_some, ih (show s.length < n by omega)]

theorem length_escaped (s : Text) : s.length ≤ (s.flatMap escaped).length := by
  induction s with
  | nil => exact Nat.le_refl _
  | cons c s ih =>
    obtain ⟨d, ds, first, -⟩ := escaped_head c
    rw [List.flatMap_cons, List.length_append, first, List.length_cons, List.length_cons]
    omega

theorem string_quote (s : String) (rest : Text) :
    string (s.toList.flatMap escaped ++ '"' :: rest).length
      (s.toList.flatMap escaped ++ '"' :: rest) = some (s.toList, rest) := by
  apply string_quoted
  have short := length_escaped s.toList
  rw [List.length_append, List.length_cons]
  omega

end Strings

section Numbers

/-- A number is written without leading zeros. -/
theorem head_toDigits (n : Nat) : 0 < n → (Nat.toDigits 10 n).head? ≠ some '0' := by
  induction n using Nat.strongRecOn with
  | _ n ih =>
    intro positive
    rcases Nat.lt_or_ge n 10 with small | large
    · have digit : ∀ m < 10, 0 < m → Nat.digitChar m ≠ '0' := by decide
      rw [Nat.toDigits_of_lt_base small]
      simpa using digit n small positive
    · have front := ih (n / 10) (by omega) (by omega)
      rw [Nat.toDigits_of_base_le (by decide) large, List.head?_append_of_ne_nil _ Nat.toDigits_ne_nil]
      exact front

theorem natural_toDigits (n : Nat) : natural (Nat.toDigits 10 n) = true := by
  have digits : (Nat.toDigits 10 n).all Char.isDigit = true := by
    rw [List.all_eq_true]
    exact fun c mem => Nat.isDigit_of_mem_toDigits (by decide) (by decide) mem
  have nonempty : (Nat.toDigits 10 n).isEmpty = false := by
    rw [List.isEmpty_eq_false_iff]
    exact Nat.toDigits_ne_nil
  rw [natural, digits, nonempty]
  rcases Nat.eq_zero_or_pos n with rfl | positive
  · rfl
  · have front := head_toDigits n positive
    simp [front]

theorem intLiteral_toString (n : Int) : intLiteral (toString n).toList = some n := by
  cases n with
  | ofNat m =>
    have text : (toString (Int.ofNat m)).toList = Nat.toDigits 10 m := Nat.toList_repr
    have unsigned : ∀ ds, Nat.toDigits 10 m ≠ '-' :: ds := by
      intro ds same
      have digit := Nat.isDigit_of_mem_toDigits (b := 10) (n := m) (c := '-') (by decide) (by decide)
        (by rw [same]; exact List.mem_cons_self)
      exact absurd digit (by decide)
    rw [text, intLiteral]
    · rw [if_pos (natural_toDigits m), Nat.ofDigitChars_ten_toDigits]
      rfl
    · exact unsigned
  | negSucc m =>
    have text : (toString (Int.negSucc m)).toList = '-' :: Nat.toDigits 10 (m + 1) := by
      have parts : toString (Int.negSucc m) = "-" ++ (m + 1).repr := rfl
      rw [parts, String.toList_append, Nat.toList_repr]
      rfl
    rw [text, intLiteral, if_pos (natural_toDigits (m + 1)), Nat.ofDigitChars_ten_toDigits]
    rfl

theorem numberChar_toString (n : Int) : ∀ c ∈ (toString n).toList, numberChar c = true := by
  have digits : ∀ m, ∀ c ∈ Nat.toDigits 10 m, numberChar c = true := by
    intro m c mem
    have digit := Nat.isDigit_of_mem_toDigits (by decide) (by decide) mem
    simp [numberChar, digit]
  cases n with
  | ofNat m =>
    have text : (toString (Int.ofNat m)).toList = Nat.toDigits 10 m := Nat.toList_repr
    rw [text]
    exact digits m
  | negSucc m =>
    have parts : toString (Int.negSucc m) = "-" ++ (m + 1).repr := rfl
    intro c mem
    rw [parts, String.toList_append, Nat.toList_repr] at mem
    rcases List.mem_append.mp mem with sign | mem
    · have same : c = '-' := by simpa using sign
      rw [same]
      rfl
    · exact digits (m + 1) c mem

/-- The number ends here. -/
def Ends (rest : Text) : Prop := ∀ c ∈ rest.head?, numberChar c = false

theorem number_token {token rest : Text} (chars : ∀ c ∈ token, numberChar c = true)
    (ends : Ends rest) : (token ++ rest).takeWhile numberChar = token ∧
      (token ++ rest).dropWhile numberChar = rest := by
  have stops : rest.takeWhile numberChar = [] ∧ rest.dropWhile numberChar = rest := by
    cases rest with
    | nil => exact ⟨rfl, rfl⟩
    | cons c rest =>
      have stop := ends c rfl
      rw [List.takeWhile_cons, List.dropWhile_cons, stop]
      exact ⟨rfl, rfl⟩
  rw [List.takeWhile_append_of_pos chars, List.dropWhile_append_of_pos chars, stops.1, stops.2,
    List.append_nil]
  exact ⟨rfl, rfl⟩

theorem number_int (n : Int) {rest : Text} (ends : Ends rest) :
    number ((toString n).toList ++ rest) = some (.int n, rest) := by
  obtain ⟨token, after⟩ := number_token (numberChar_toString n) ends
  rw [number]
  simp only [token, after, intLiteral_toString]

/-- A number with a point or an exponent is no whole one. -/
theorem intLiteral_float {cs : Text} (h : floatLiteral cs = true) : intLiteral cs = none := by
  simp only [floatLiteral, Bool.and_eq_true, List.any_eq_true, Bool.or_eq_true, decide_eq_true_eq]
    at h
  obtain ⟨⟨⟨-, c, mem, mark⟩, -⟩, -⟩ := h
  have notDigit : c.isDigit = false ∧ c ≠ '-' := by
    rcases mark with (rfl | rfl) | rfl <;> exact ⟨by decide, by decide⟩
  have notNatural : ∀ ds : Text, c ∈ ds → natural ds = false := by
    intro ds inside
    have some' : ds.all Char.isDigit = false := by
      rw [List.all_eq_false]
      exact ⟨c, inside, by simp [notDigit.1]⟩
    simp [natural, some']
  rw [intLiteral.eq_def]
  split
  · rename_i ds
    have inside : c ∈ ds := (List.mem_cons.mp mem).resolve_left notDigit.2
    rw [if_neg (by simp [notNatural ds inside])]
  · rw [if_neg (by simp [notNatural cs mem])]

theorem number_float {text : String} (h : floatLiteral text.toList = true) {rest : Text}
    (ends : Ends rest) : number (text.toList ++ rest) = some (.float text, rest) := by
  have chars : ∀ c ∈ text.toList, numberChar c = true := by
    simp only [floatLiteral, Bool.and_eq_true, List.all_eq_true] at h
    exact h.1.1.1
  obtain ⟨token, after⟩ := number_token chars ends
  rw [number]
  simp only [token, after, intLiteral_float h, if_pos h, String.ofList_toList]

end Numbers

section Values

variable {gap : Nat}

/-- Blanks before a value count for nothing. -/
theorem dropWhile_blanks (k : Nat) (cs : Text) :
    (List.replicate k ' ' ++ cs).dropWhile isBlank = cs.dropWhile isBlank := by
  apply List.dropWhile_append_of_pos
  intro c mem
  rw [List.eq_of_mem_replicate mem]
  rfl

theorem value_blanks (n k : Nat) (cs : Text) : value n (List.replicate k ' ' ++ cs) = value n cs := by
  cases n with
  | zero => rfl
  | succ n => rw [value, value, dropWhile_blanks]

theorem items_blanks (n k : Nat) (cs : Text) : items n (List.replicate k ' ' ++ cs) = items n cs := by
  cases n with
  | zero => rfl
  | succ n => rw [items, items, value_blanks]

theorem members_blanks (n k : Nat) (cs : Text) :
    members n (List.replicate k ' ' ++ cs) = members n cs := by
  cases n with
  | zero => rfl
  | succ n => rw [members, members, dropWhile_blanks]

theorem value_cons {c : Char} (solid : isBlank c = false) (rest : Text) (n : Nat) :
    value (n + 1) (c :: rest) =
      if c = '"' then (string rest.length rest).map fun s => (.str (String.ofList s.1), s.2)
      else if c = '[' then
        match rest.dropWhile isBlank with
        | ']' :: rest => some (.arr [], rest)
        | rest => (items n rest).map fun vs => (.arr vs.1, vs.2)
      else if c = '\x7b' then
        match rest.dropWhile isBlank with
        | '\x7d' :: rest => some (.obj [], rest)
        | rest => (members n rest).map fun ms => (.obj (OrderedDict.ofList ms.1), ms.2)
      else if c = 'n' then keyword "ull" .null rest
      else if c = 't' then keyword "rue" (.bool true) rest
      else if c = 'f' then keyword "alse" (.bool false) rest
      else number (c :: rest) := by
  rw [value, List.dropWhile_cons, solid]
  rfl

theorem keyword_read (word : String) (v : Json) (rest : Text) :
    keyword word v (word.toList ++ rest) = some (v, rest) := by
  have length : word.length = word.toList.length := rfl
  rw [keyword, if_pos (List.prefix_append _ _), length, List.drop_left]

/-- A number does not look like anything else. -/
theorem value_number {c : Char} (digit : numberChar c = true) (rest : Text) (n : Nat) :
    value (n + 1) (c :: rest) = number (c :: rest) := by
  have other : ∀ d, numberChar d = false → c ≠ d := by
    rintro d not rfl
    rw [digit] at not
    cases not
  have solid : isBlank c = false := by
    simp only [isBlank, Bool.or_eq_false_iff, decide_eq_false_iff_not]
    exact ⟨⟨⟨other _ rfl, other _ rfl⟩, other _ rfl⟩, other _ rfl⟩
  rw [value_cons solid, if_neg (other _ rfl), if_neg (other _ rfl), if_neg (other _ rfl),
    if_neg (other _ rfl), if_neg (other _ rfl), if_neg (other _ rfl)]

theorem numberChar_head {token : Text} (chars : ∀ c ∈ token, numberChar c = true)
    (nonempty : token ≠ []) : ∃ c cs, token = c :: cs ∧ numberChar c = true := by
  obtain ⟨c, cs, rfl⟩ := List.exists_cons_of_ne_nil nonempty
  exact ⟨c, cs, rfl, chars c List.mem_cons_self⟩

theorem token_int (n : Int) : ∃ c cs, (toString n).toList = c :: cs ∧ numberChar c = true := by
  apply numberChar_head (numberChar_toString n)
  intro empty
  have read := intLiteral_toString n
  rw [empty] at read
  cases read

theorem token_float {text : String} (h : floatLiteral text.toList = true) :
    ∃ c cs, text.toList = c :: cs ∧ numberChar c = true := by
  simp only [floatLiteral, Bool.and_eq_true, List.all_eq_true] at h
  apply numberChar_head h.1.1.1
  intro empty
  rw [empty] at h
  simp at h

/-- What a value begins with. -/
theorem render_head (gap : Nat) {v : Json} (sound : Sound v) :
    ∃ c cs, render gap v = c :: cs ∧ isBlank c = false ∧ c ≠ ']' := by
  have ofNumber : ∀ {token : Text}, (∃ c cs, token = c :: cs ∧ numberChar c = true) →
      ∃ c cs, token = c :: cs ∧ isBlank c = false ∧ c ≠ ']' := by
    rintro token ⟨c, cs, rfl, digit⟩
    have other : ∀ d, numberChar d = false → c ≠ d := by
      rintro d not rfl
      rw [digit] at not
      cases not
    refine ⟨c, cs, rfl, ?_, other _ rfl⟩
    simp only [isBlank, Bool.or_eq_false_iff, decide_eq_false_iff_not]
    exact ⟨⟨⟨other _ rfl, other _ rfl⟩, other _ rfl⟩, other _ rfl⟩
  cases v with
  | null => exact ⟨_, _, rfl, rfl, by decide⟩
  | bool b => cases b <;> exact ⟨_, _, rfl, rfl, by decide⟩
  | int n =>
    rw [render]
    exact ofNumber (token_int n)
  | float text =>
    rw [render]
    exact ofNumber (token_float sound)
  | str s => exact ⟨_, _, rfl, rfl, by decide⟩
  | arr items => exact ⟨_, _, by rw [render], rfl, by decide⟩
  | obj members => exact ⟨_, _, by rw [render], rfl, by decide⟩

theorem renderItems_head (gap : Nat) {v : Json} {vs : List Json} (sound : SoundItems (v :: vs)) :
    ∃ c cs, renderItems gap (v :: vs) = c :: cs ∧ isBlank c = false ∧ c ≠ ']' := by
  obtain ⟨c, cs, head, solid, other⟩ := render_head gap sound.1
  cases vs with
  | nil => exact ⟨c, _, by rw [renderItems, head]; rfl, solid, other⟩
  | cons w vs => exact ⟨c, _, by rw [renderItems, head]; rfl, solid, other⟩

theorem renderMembers_head (gap : Nat) (k : String) (v : Json) (ms : List (String × Json)) :
    ∃ cs, renderMembers gap ((k, v) :: ms) = '"' :: cs := by
  cases ms with
  | nil => exact ⟨_, by rw [renderMembers, quote]; rfl⟩
  | cons m ms => exact ⟨_, by rw [renderMembers, quote]; rfl⟩

section Steps

variable {n : Nat} {cs rest more : Text} {v : Json} {vs : List Json} {ms : List (String × Json)}

theorem value_array {c : Char} (solid : isBlank c = false) (other : c ≠ ']')
    (read : items n (c :: cs) = some (vs, rest)) :
    value (n + 1) ('[' :: c :: cs) = some (.arr vs, rest) := by
  have begins : (c :: cs).dropWhile isBlank = c :: cs := by
    rw [List.dropWhile_cons, solid]
    rfl
  rw [value_cons rfl, if_neg (by decide), if_pos rfl, begins]
  split
  · rename_i same
    exact absurd (List.cons.inj same).1 other
  · rw [read, Option.map_some]

theorem value_object (unique : (ms.map (·.1)).Nodup)
    (read : members n ('"' :: cs) = some (ms, rest)) :
    value (n + 1) ('\x7b' :: '"' :: cs) = some (.obj ms, rest) := by
  have begins : ('"' :: cs).dropWhile isBlank = '"' :: cs := rfl
  have own : OrderedDict.ofList ms = ms := OrderedDict.ofList_unique (List.pairwise_map.mp unique)
  rw [value_cons rfl, if_neg (by decide), if_neg (by decide), if_pos rfl, begins]
  change (members n ('"' :: cs)).map _ = _
  rw [read, Option.map_some, own]

theorem items_last (read : value n cs = some (v, ']' :: rest)) :
    items (n + 1) cs = some ([v], rest) := by
  rw [items, read]
  rfl

theorem items_next (read : value n cs = some (v, ',' :: more)) (next : items n more = some (vs, rest)) :
    items (n + 1) cs = some (v :: vs, rest) := by
  have comma : (',' :: more).dropWhile isBlank = ',' :: more := rfl
  rw [items, read]
  simp only [Option.bind_eq_bind, Option.bind_some, comma, next]

/-- A key with its colon, and what comes after it. -/
theorem members_key (k : String) : (quote k ++ ':' :: cs).dropWhile isBlank =
      '"' :: (k.toList.flatMap escaped ++ '"' :: ':' :: cs) := by
  have quoted : quote k ++ ':' :: cs = '"' :: (k.toList.flatMap escaped ++ '"' :: ':' :: cs) := by
    simp [quote]
  rw [quoted]
  rfl

theorem members_last {k : String} (read : value n cs = some (v, '\x7d' :: rest)) :
    members (n + 1) (quote k ++ ':' :: cs) = some ([(k, v)], rest) := by
  have colon : (':' :: cs).dropWhile isBlank = ':' :: cs := rfl
  have close : ('\x7d' :: rest).dropWhile isBlank = '\x7d' :: rest := rfl
  rw [members, members_key]
  simp only [string_quote, Option.bind_eq_bind, Option.bind_some, colon, read, close,
    String.ofList_toList]

theorem members_next {k : String} (read : value n cs = some (v, ',' :: more))
    (next : members n more = some (ms, rest)) :
    members (n + 1) (quote k ++ ':' :: cs) = some ((k, v) :: ms, rest) := by
  have colon : (':' :: cs).dropWhile isBlank = ':' :: cs := rfl
  have comma : (',' :: more).dropWhile isBlank = ',' :: more := rfl
  rw [members, members_key]
  simp only [string_quote, Option.bind_eq_bind, Option.bind_some, colon, read, comma, next,
    String.ofList_toList]

end Steps

theorem ends_comma (rest : Text) : Ends (',' :: rest) := by
  intro c first
  cases first
  rfl

theorem ends_bracket (rest : Text) : Ends (']' :: rest) := by
  intro c first
  cases first
  rfl

theorem ends_brace (rest : Text) : Ends ('\x7d' :: rest) := by
  intro c first
  cases first
  rfl

/-- What is read through at most `n` values: by induction on this number. -/
structure Reads (gap n : Nat) : Prop where
  value : ∀ {v rest}, Sound v → Ends rest → (render gap v).length ≤ n →
    value n (render gap v ++ rest) = some (v, rest)
  items : ∀ {v vs} (rest : Text), SoundItems (v :: vs) → (renderItems gap (v :: vs)).length ≤ n →
    items n (renderItems gap (v :: vs) ++ rest) = some (v :: vs, rest)
  members : ∀ {k v ms} (rest : Text), SoundMembers ((k, v) :: ms) →
    (renderMembers gap ((k, v) :: ms)).length ≤ n →
    members n (renderMembers gap ((k, v) :: ms) ++ rest) = some ((k, v) :: ms, rest)

section Step

variable {n : Nat} (before : Reads gap n) {rest : Text}
include before

theorem value_step {v : Json} (sound : Sound v) (ends : Ends rest)
    (enough : (render gap v).length ≤ n + 1) :
    value (n + 1) (render gap v ++ rest) = some (v, rest) := by
  cases v with
  | null => exact keyword_read "ull" .null rest
  | bool b =>
    cases b with
    | true => exact keyword_read "rue" (.bool true) rest
    | false => exact keyword_read "alse" (.bool false) rest
  | int k =>
    obtain ⟨d, ds, first, digit⟩ := token_int k
    have read := number_int k ends
    rw [render]
    rw [first, List.cons_append] at read ⊢
    rw [value_number digit, read]
  | float text =>
    obtain ⟨d, ds, first, digit⟩ := token_float sound
    have read := number_float sound ends
    rw [render]
    rw [first, List.cons_append] at read ⊢
    rw [value_number digit, read]
  | str s =>
    have quoted : render gap (.str s) ++ rest = '"' :: (s.toList.flatMap escaped ++ '"' :: rest) := by
      simp [render, quote]
    rw [quoted, value_cons rfl, if_pos rfl, string_quote, Option.map_some, String.ofList_toList]
  | arr vs =>
    cases vs with
    | nil => rfl
    | cons w ws =>
      have shape : render gap (.arr (w :: ws)) = '[' :: renderItems gap (w :: ws) := by rw [render]
      rw [shape, List.length_cons] at enough
      have read := before.items rest sound (by omega)
      obtain ⟨d, ds, first, solid, other⟩ := renderItems_head gap sound
      rw [shape, List.cons_append]
      rw [first, List.cons_append] at read ⊢
      exact value_array solid other read
  | obj ms =>
    cases ms with
    | nil => rfl
    | cons m ms =>
      obtain ⟨k, w⟩ := m
      have shape : render gap (.obj ((k, w) :: ms)) = '\x7b' :: renderMembers gap ((k, w) :: ms) := by
        rw [render]
      rw [shape, List.length_cons] at enough
      have read := before.members rest sound.2 (by omega)
      obtain ⟨ds, first⟩ := renderMembers_head gap k w ms
      rw [shape, List.cons_append]
      rw [first, List.cons_append] at read ⊢
      exact value_object sound.1 read

theorem items_step {v : Json} {vs : List Json} (sound : SoundItems (v :: vs))
    (enough : (renderItems gap (v :: vs)).length ≤ n + 1) :
    items (n + 1) (renderItems gap (v :: vs) ++ rest) = some (v :: vs, rest) := by
  cases vs with
  | nil =>
    rw [renderItems, List.length_append, List.length_singleton] at enough
    have read := before.value sound.1 (ends_bracket rest) (by omega)
    rw [renderItems, List.append_assoc]
    exact items_last read
  | cons w vs =>
    rw [renderItems, List.length_append, List.length_cons, List.length_append] at enough
    have read := before.value sound.1
      (ends_comma (List.replicate gap ' ' ++ (renderItems gap (w :: vs) ++ rest))) (by omega)
    have next := before.items rest sound.2 (by omega)
    rw [renderItems, List.append_assoc, List.cons_append, List.append_assoc]
    exact items_next read ((items_blanks n gap _).trans next)

theorem members_step {k : String} {v : Json} {ms : List (String × Json)}
    (sound : SoundMembers ((k, v) :: ms)) (enough : (renderMembers gap ((k, v) :: ms)).length ≤ n + 1) :
    members (n + 1) (renderMembers gap ((k, v) :: ms) ++ rest) = some ((k, v) :: ms, rest) := by
  cases ms with
  | nil =>
    rw [renderMembers] at enough
    simp only [List.length_append, List.length_cons, List.length_nil] at enough
    have read := before.value sound.1 (ends_brace rest) (by omega)
    have shape : renderMembers gap [(k, v)] ++ rest =
        quote k ++ ':' :: (List.replicate gap ' ' ++ (render gap v ++ '\x7d' :: rest)) := by
      simp [renderMembers]
    rw [shape]
    exact members_last ((value_blanks n gap _).trans read)
  | cons m ms =>
    obtain ⟨l, w⟩ := m
    rw [renderMembers] at enough
    simp only [List.length_append, List.length_cons] at enough
    have read := before.value sound.1
      (ends_comma (List.replicate gap ' ' ++ (renderMembers gap ((l, w) :: ms) ++ rest))) (by omega)
    have next := before.members rest sound.2 (by omega)
    have shape : renderMembers gap ((k, v) :: (l, w) :: ms) ++ rest =
        quote k ++ ':' :: (List.replicate gap ' ' ++ (render gap v ++
          ',' :: (List.replicate gap ' ' ++ (renderMembers gap ((l, w) :: ms) ++ rest)))) := by
      simp [renderMembers]
    rw [shape]
    exact members_next ((value_blanks n gap _).trans read) ((members_blanks n gap _).trans next)

end Step

theorem reads (gap n : Nat) : Reads gap n := by
  induction n with
  | zero =>
    constructor
    · intro v rest sound _ enough
      obtain ⟨c, cs, head, -⟩ := render_head gap sound
      rw [head] at enough
      exact absurd enough (Nat.not_succ_le_zero _)
    · intro v vs rest sound enough
      obtain ⟨c, cs, head, -⟩ := renderItems_head gap sound
      rw [head] at enough
      exact absurd enough (Nat.not_succ_le_zero _)
    · intro k v ms rest _ enough
      obtain ⟨cs, head⟩ := renderMembers_head gap k v ms
      rw [head] at enough
      exact absurd enough (Nat.not_succ_le_zero _)
  | succ n ih => exact ⟨value_step ih, fun _ => items_step ih, fun _ => members_step ih⟩

/-- `json.loads(json.dumps(value)) == value`, with either kind of separators. -/
theorem loads_render (v : Json) (sound : Sound v) : loads (render gap v) = some v := by
  have ends : Ends [] := by
    intro c first
    cases first
  have read := (reads gap _).value sound ends (Nat.le_succ (render gap v).length)
  rw [List.append_nil] at read
  rw [loads, read]
  rfl

theorem quoted_quote (s : String) : (quoted s).toList = quote s := by
  have body : (String.ofList (s.toList.flatMap escaped)).toList = s.toList.flatMap escaped :=
    String.toList_ofList
  rw [quoted, String.toList_append, String.toList_append, body]
  rfl

mutual

/-- The frames have the text without blanks. -/
theorem toList_dumps : (v : Json) → (dumps v).toList = render 0 v
  | .null | .bool true | .bool false | .int _ | .float _ => by rw [dumps, render]
  | .str s => by rw [dumps, render, quoted_quote]
  | .arr vs => by
    rw [dumps, render, String.toList_append, String.toList_append, List.append_assoc]
    exact congrArg ('[' :: ·) (toList_dumpsItems vs)
  | .obj ms => by
    rw [dumps, render, String.toList_append, String.toList_append, List.append_assoc]
    exact congrArg ('\x7b' :: ·) (toList_dumpsMembers ms)

theorem toList_dumpsItems : (vs : List Json) →
    (",".intercalate (dumpsItems vs)).toList ++ [']'] = renderItems 0 vs
  | [] => rfl
  | [v] => by
    rw [dumpsItems, dumpsItems, String.intercalate_singleton, renderItems, toList_dumps v]
  | v :: w :: vs => by
    have rest := toList_dumpsItems (w :: vs)
    rw [dumpsItems] at rest
    rw [dumpsItems, dumpsItems, String.intercalate_cons_cons, renderItems, String.toList_append,
      String.toList_append, toList_dumps v, ← rest, List.append_assoc, List.append_assoc]
    rfl

theorem toList_dumpsMembers : (ms : List (String × Json)) →
    (",".intercalate (dumpsMembers ms)).toList ++ ['\x7d'] = renderMembers 0 ms
  | [] => rfl
  | [(k, v)] => by
    rw [dumpsMembers, dumpsMembers, String.intercalate_singleton, renderMembers,
      String.toList_append, String.toList_append, quoted_quote, toList_dumps v, List.append_assoc,
      List.append_assoc]
    rfl
  | (k, v) :: (l, w) :: ms => by
    have rest := toList_dumpsMembers ((l, w) :: ms)
    rw [dumpsMembers] at rest
    rw [dumpsMembers, dumpsMembers, String.intercalate_cons_cons, renderMembers,
      String.toList_append, String.toList_append, String.toList_append, String.toList_append,
      quoted_quote, toList_dumps v, ← rest]
    simp

end

end Values

theorem soundMembers_iff {ms : List (String × Json)} : SoundMembers ms ↔ ∀ m ∈ ms, Sound m.2 := by
  induction ms with
  | nil => simp [SoundMembers]
  | cons m ms ih =>
    obtain ⟨k, v⟩ := m
    simp [SoundMembers, ih]

theorem number_sound {cs rest : Text} {v : Json} (h : number cs = some (v, rest)) : Sound v := by
  rw [number] at h
  split at h
  · cases h
    trivial
  · split at h
    · rename_i float
      cases h
      rw [Sound, String.toList_ofList]
      exact float
    · cases h

theorem keyword_sound {word : String} {w v : Json} {cs rest : Text} (sound : Sound w)
    (h : keyword word w cs = some (v, rest)) : Sound v := by
  rw [keyword] at h
  split at h
  · cases h
    exact sound
  · cases h

/-- What is read through at most `n` values is a value as Python has it. -/
structure ReadsSound (n : Nat) : Prop where
  value : ∀ {cs v rest}, value n cs = some (v, rest) → Sound v
  items : ∀ {cs vs rest}, items n cs = some (vs, rest) → SoundItems vs
  members : ∀ {cs ms rest}, members n cs = some (ms, rest) → SoundMembers ms

section Step

variable {n : Nat} (before : ReadsSound n) {cs rest : Text}
include before

theorem value_sound {v : Json} (h : value (n + 1) cs = some (v, rest)) : Sound v := by
  rw [value] at h
  split at h
  · cases h
  split at h
  · obtain ⟨s, -, same⟩ := Option.map_eq_some_iff.mp h
    cases same
    trivial
  split at h
  · split at h
    · cases h
      trivial
    · obtain ⟨vs, read, same⟩ := Option.map_eq_some_iff.mp h
      cases same
      exact before.items read
  split at h
  · split at h
    · cases h
      exact ⟨List.nodup_nil, trivial⟩
    · obtain ⟨ms, read, same⟩ := Option.map_eq_some_iff.mp h
      cases same
      have sound := soundMembers_iff.mp (before.members read)
      refine ⟨List.pairwise_map.mpr (OrderedDict.unique_ofList ms.1), ?_⟩
      exact soundMembers_iff.mpr fun m mem => sound m (OrderedDict.mem_ofList mem)
  split at h
  · exact keyword_sound (w := .null) trivial h
  split at h
  · exact keyword_sound (w := .bool true) trivial h
  split at h
  · exact keyword_sound (w := .bool false) trivial h
  · exact number_sound h

theorem items_sound {vs : List Json} (h : items (n + 1) cs = some (vs, rest)) : SoundItems vs := by
  rw [items] at h
  obtain ⟨⟨v, more⟩, first, h⟩ := Option.bind_eq_some_iff.mp h
  have sound := before.value first
  dsimp only at h
  split at h
  · obtain ⟨⟨ws, last⟩, next, h⟩ := Option.bind_eq_some_iff.mp h
    cases h
    exact ⟨sound, before.items next⟩
  · cases h
    exact ⟨sound, trivial⟩
  · cases h

theorem members_sound {ms : List (String × Json)} (h : members (n + 1) cs = some (ms, rest)) :
    SoundMembers ms := by
  rw [members] at h
  split at h
  · obtain ⟨⟨k, more⟩, -, h⟩ := Option.bind_eq_some_iff.mp h
    dsimp only at h
    split at h
    · obtain ⟨⟨v, more⟩, first, h⟩ := Option.bind_eq_some_iff.mp h
      have sound := before.value first
      dsimp only at h
      split at h
      · obtain ⟨⟨ws, last⟩, next, h⟩ := Option.bind_eq_some_iff.mp h
        cases h
        exact ⟨sound, before.members next⟩
      · cases h
        exact ⟨sound, trivial⟩
      · cases h
    · cases h
  · cases h

end Step

theorem readsSound (n : Nat) : ReadsSound n := by
  induction n with
  | zero =>
    constructor
    · intro cs v rest h
      cases h
    · intro cs vs rest h
      cases h
    · intro cs ms rest h
      cases h
  | succ n ih => exact ⟨value_sound ih, items_sound ih, members_sound ih⟩

/-- A text that is read is that of a value as Python has it. -/
theorem sound_of_loads {cs : Text} {v : Json} (h : loads cs = some v) : Sound v := by
  rw [loads] at h
  split at h
  · rename_i read
    split at h
    · cases h
      exact (readsSound _).value read
    · cases h
  · cases h

end McManager.JsonText
