import McManager.Framework.OrderedDict
import McManager.Framework.TextLines
import McManager.Web.Requests

namespace McManager.Provision

open Framework Web

abbrev Text := List Char

/-- The characters `str.splitlines` ends a line at. -/
def boundary (c : Char) : Bool :=
  let n := c.toNat
  10 ≤ n && n ≤ 13 || 28 ≤ n && n ≤ 30 || n == 0x85 || n == 0x2028 || n == 0x2029

/-- `str.splitlines` of a text in which no carriage return is left. -/
def splitlines (text : Text) : List Text :=
  let lines := split boundary text
  if lines.getLast? = some [] then lines.dropLast else lines

/-- `read_text` with invalid bytes replaced. -/
def readText (bytes : List UInt8) : Text := newlines '\r' '\n' (Utf8.decode bytes).toList

/-- The key and the value of a line; none for a line that is passed over. -/
def parseLine (line : Text) : Option (Text × Text) :=
  let stripped := trim isSpace line
  if stripped = [] ∨ stripped.head? = some '#' ∨ '=' ∉ stripped then none
  else
    let key := stripped.takeWhile (· != '=')
    let value := (stripped.dropWhile (· != '=')).drop 1
    some (trim isSpace key, trim isSpace value)

/-- The properties read from an existing file. -/
def existingProps (existing : Option (List UInt8)) : List (Text × Text) :=
  match existing with
  | none => []
  | some bytes =>
    (splitlines (readText bytes)).foldl (fun props line =>
      match parseLine line with
      | none => props
      | some (key, value) => OrderedDict.set props key value) []

/-- A digit of `urlsafe_b64encode`. -/
def digit (n : Nat) : Char :=
  if n < 26 then Char.ofNat (65 + n) else if n < 52 then Char.ofNat (71 + n)
  else if n < 62 then Char.ofNat (n - 4) else if n = 62 then '-' else '_'

/-- `secrets.token_urlsafe`, of the bytes it draws. -/
def tokenUrlsafe : List UInt8 → Text
  | [] => []
  | [a] => [digit (a.toNat / 4), digit (a.toNat % 4 * 16)]
  | [a, b] =>
    [digit (a.toNat / 4), digit (a.toNat % 4 * 16 + b.toNat / 16), digit (b.toNat % 16 * 4)]
  | a :: b :: c :: rest =>
    digit (a.toNat / 4) :: digit (a.toNat % 4 * 16 + b.toNat / 16) ::
      digit (b.toNat % 16 * 4 + c.toNat / 64) :: digit (c.toNat % 64) :: tokenUrlsafe rest

/-- `str` of a port. -/
def portText : Option Int → Text
  | none => "None".toList
  | some port => (toString port).toList

def render (e : Text × Text) : Text := e.1 ++ '=' :: e.2

/-- `_provision_rcon`: what it returns and what `server.properties` holds then. -/
def provisionRcon (rconPort : Option Int) (random : Vector UInt8 12)
    (existing : Option (List UInt8)) : (Option Int × Text) × List UInt8 :=
  let password := tokenUrlsafe random.toList
  let props := existingProps existing
  let props := OrderedDict.set props "enable-rcon".toList "true".toList
  let props := OrderedDict.set props "rcon.port".toList (portText rconPort)
  let props := OrderedDict.set props "rcon.password".toList password
  let lines := props.map render
  ((rconPort, password),
    Utf8.encode (String.ofList (List.intercalate ['\n'] lines ++ ['\n'])))

theorem parseLine_nil : parseLine [] = none := rfl

theorem filterMap_splitlines (text : Text) :
    (splitlines text).filterMap parseLine = (split boundary text).filterMap parseLine := by
  rw [splitlines]
  split_ifs with last
  · have whole := List.dropLast_append_getLast? [] last
    conv_rhs => rw [← whole, List.filterMap_append, List.filterMap_cons_none parseLine_nil]
    exact (List.append_nil _).symm
  · rfl

/-- The definitions in a file, as the parser sees them. -/
def definitions (bytes : List UInt8) : List (Text × Text) :=
  (split boundary (readText bytes)).filterMap parseLine

theorem existingProps_some (bytes : List UInt8) :
    existingProps (some bytes) = OrderedDict.ofList (definitions bytes) := by
  have fold : ∀ (lines : List Text) (props : List (Text × Text)),
      lines.foldl (fun props line =>
        match parseLine line with
        | none => props
        | some (key, value) => OrderedDict.set props key value) props =
      (lines.filterMap parseLine).foldl (fun d e => OrderedDict.set d e.1 e.2) props := by
    intro lines
    induction lines with
    | nil => exact fun _ => rfl
    | cons line lines ih =>
      intro props
      rw [List.foldl_cons]
      cases parsed : parseLine line with
      | none => rw [List.filterMap_cons_none parsed, ih]
      | some e => rw [List.filterMap_cons_some parsed, List.foldl_cons, ih]
  rw [existingProps, OrderedDict.ofList, definitions, ← filterMap_splitlines]
  exact fold _ _

/-- What the manager defines itself. -/
def own (rconPort : Option Int) (random : Vector UInt8 12) : List (Text × Text) :=
  [("enable-rcon".toList, "true".toList), ("rcon.port".toList, portText rconPort),
    ("rcon.password".toList, tokenUrlsafe random.toList)]

/-- The entries written to an existing file. -/
def props (rconPort : Option Int) (random : Vector UInt8 12) (bytes : List UInt8) :
    List (Text × Text) :=
  OrderedDict.ofList (definitions bytes ++ own rconPort random)

theorem intercalate_newline {lines : List Text} (nonempty : lines ≠ []) :
    List.intercalate ['\n'] lines ++ ['\n'] = lines.flatMap (· ++ ['\n']) := by
  induction lines with
  | nil => exact absurd rfl nonempty
  | cons line lines ih =>
    cases lines with
    | nil => simp [List.intercalate]
    | cons next lines =>
      have rest := ih (List.cons_ne_nil _ _)
      rw [List.flatMap_cons, ← rest]
      simp [List.intercalate, List.intersperse]

theorem props_eq (rconPort : Option Int) (random : Vector UInt8 12) (bytes : List UInt8) :
    props rconPort random bytes =
      OrderedDict.set (OrderedDict.set (OrderedDict.set (OrderedDict.ofList (definitions bytes))
        "enable-rcon".toList "true".toList) "rcon.port".toList (portText rconPort))
        "rcon.password".toList (tokenUrlsafe random.toList) := by
  rw [props, own, List.append_cons, List.append_cons, List.append_cons, List.append_nil,
    OrderedDict.ofList_concat, OrderedDict.ofList_concat, OrderedDict.ofList_concat]

/-- The manager's own entries are among those written. -/
theorem own_mem_props {rconPort : Option Int} {random : Vector UInt8 12} {bytes : List UInt8}
    {e : Text × Text} (mem : e ∈ own rconPort random) : e ∈ props rconPort random bytes := by
  rw [props_eq]
  simp only [own, List.mem_cons, List.not_mem_nil, or_false] at mem
  rcases mem with rfl | rfl | rfl
  · apply OrderedDict.mem_set_of_ne
    · exact OrderedDict.mem_set_of_ne OrderedDict.mem_set_self (by decide)
    · decide
  · have other : "rcon.port".toList ≠ "rcon.password".toList := by decide
    exact OrderedDict.mem_set_of_ne OrderedDict.mem_set_self other
  · exact OrderedDict.mem_set_self

/-- The text written over an existing file. -/
theorem provisionRcon_some (rconPort : Option Int) (random : Vector UInt8 12)
    (bytes : List UInt8) :
    (provisionRcon rconPort random (some bytes)).2 =
      Utf8.encode (String.ofList ((props rconPort random bytes).flatMap (render · ++ ['\n']))) := by
  have nonempty : (props rconPort random bytes).map render ≠ [] := by
    intro empty
    have mem : ("enable-rcon".toList, "true".toList) ∈ props rconPort random bytes :=
      own_mem_props List.mem_cons_self
    rw [List.map_eq_nil_iff.mp empty] at mem
    cases mem
  rw [provisionRcon, existingProps_some]
  dsimp only
  rw [← props_eq, intercalate_newline nonempty, List.flatMap_map]

theorem isSpace_equals : isSpace '=' = false := by decide

theorem ne_equals {c : Char} (space : isSpace c = true) : (c != '=') = true := by
  rw [bne_iff_ne]
  rintro rfl
  rw [isSpace_equals] at space
  cases space

/-- What stripping the line leaves of the part before the equals sign. -/
theorem name_part {indent name gap : Text} (named : Trimmed isSpace name) (noEquals : '=' ∉ name)
    (noMark : name.head? ≠ some '#') (indents : ∀ c ∈ indent, isSpace c = true)
    (gaps : ∀ c ∈ gap, isSpace c = true) :
    ∃ front left, indent ++ name ++ gap = front ++ left ∧ (∀ c ∈ front, isSpace c = true) ∧
      (∀ c ∈ left.head?, isSpace c = false ∧ c ≠ '#') ∧ trim isSpace left = name ∧
      ∀ c ∈ left, (c != '=') = true := by
  by_cases empty : name = []
  · subst empty
    refine ⟨indent ++ gap, [], by simp, ?_, (fun c mem => nomatch mem), rfl,
      (fun c mem => nomatch mem)⟩
    intro c mem
    exact (List.mem_append.mp mem).elim (indents c) (gaps c)
  · refine ⟨indent, name ++ gap, by simp, indents, ?_, ?_, ?_⟩
    · intro c mem
      rw [List.head?_append_of_ne_nil _ empty] at mem
      exact ⟨named.1 c mem, fun same => noMark (same ▸ mem)⟩
    · exact trim_append [] gap named empty (fun c mem => nomatch mem) gaps
    · intro c mem
      rcases List.mem_append.mp mem with inside | inside
      · rw [bne_iff_ne]
        rintro rfl
        exact noEquals inside
      · exact ne_equals (gaps c inside)

/-- What it leaves of the part after it. -/
theorem text_part {gap text : Text} (valued : Trimmed isSpace text)
    (gaps : ∀ c ∈ gap, isSpace c = true) :
    ∃ right back, gap ++ text = right ++ back ∧ (∀ c ∈ back, isSpace c = true) ∧
      (∀ c ∈ right.getLast?, isSpace c = false) ∧ trim isSpace right = text := by
  by_cases empty : text = []
  · subst empty
    exact ⟨[], gap, by simp, gaps, (fun c mem => nomatch mem), rfl⟩
  · refine ⟨gap ++ text, [], by simp, (fun c mem => nomatch mem), ?_, ?_⟩
    · intro c mem
      rw [List.getLast?_append_of_ne_nil _ empty] at mem
      exact valued.2 c mem
    · have kept := trim_append gap [] valued empty gaps (fun c mem => nomatch mem)
      rwa [List.append_nil] at kept

theorem trimmed_equals {left right : Text} (head : ∀ c ∈ left.head?, isSpace c = false)
    (last : ∀ c ∈ right.getLast?, isSpace c = false) :
    Trimmed isSpace (left ++ '=' :: right) := by
  constructor
  · intro c mem
    cases left with
    | nil =>
      cases mem
      exact isSpace_equals
    | cons first left => exact head c mem
  · intro c mem
    rw [List.getLast?_append_of_ne_nil _ (List.cons_ne_nil _ _), List.getLast?_cons] at mem
    cases found : right.getLast? with
    | none =>
      rw [found] at mem
      cases mem
      exact isSpace_equals
    | some d =>
      rw [found] at mem
      cases mem
      exact last d found

/-- The line of a definition with white space around its parts. -/
theorem parseLine_form {indent name gap gap' text : Text} (named : Trimmed isSpace name)
    (valued : Trimmed isSpace text) (noEquals : '=' ∉ name) (noMark : name.head? ≠ some '#')
    (indents : ∀ c ∈ indent, isSpace c = true) (gaps : ∀ c ∈ gap, isSpace c = true)
    (gaps' : ∀ c ∈ gap', isSpace c = true) :
    parseLine (indent ++ (name ++ gap ++ '=' :: (gap' ++ text))) = some (name, text) := by
  obtain ⟨front, left, frontIs, fronts, leftHead, leftTrim, leftEquals⟩ :=
    name_part named noEquals noMark indents gaps
  obtain ⟨right, back, backIs, backs, rightLast, rightTrim⟩ := text_part valued gaps'
  have whole : indent ++ (name ++ gap ++ '=' :: (gap' ++ text)) =
      front ++ (left ++ '=' :: right) ++ back := by
    calc indent ++ (name ++ gap ++ '=' :: (gap' ++ text))
        = (indent ++ name ++ gap) ++ '=' :: (gap' ++ text) := by simp
      _ = (front ++ left) ++ '=' :: (right ++ back) := by rw [frontIs, backIs]
      _ = front ++ (left ++ '=' :: right) ++ back := by simp
  have ends := trimmed_equals (fun c mem => (leftHead c mem).1) rightLast
  have stripped : trim isSpace (indent ++ (name ++ gap ++ '=' :: (gap' ++ text))) =
      left ++ '=' :: right := by
    rw [whole]
    exact trim_append front back ends (by simp) fronts backs
  have mark : (left ++ '=' :: right).head? ≠ some '#' := by
    cases left with
    | nil => exact fun same => absurd (Option.some.inj same) (by decide)
    | cons first left => exact fun same => (leftHead '#' same).2 rfl
  have before : (left ++ '=' :: right).takeWhile (· != '=') = left := by
    rw [List.takeWhile_append_of_pos leftEquals, List.takeWhile_cons, if_neg (by decide),
      List.append_nil]
  have after : (left ++ '=' :: right).dropWhile (· != '=') = '=' :: right := by
    rw [List.dropWhile_append_of_pos leftEquals, List.dropWhile_cons, if_neg (by decide)]
  rw [parseLine]
  simp only [stripped, before, after, leftTrim, rightTrim, List.drop_one, List.tail_cons]
  rw [if_neg]
  rintro (empty | empty | empty)
  · exact absurd empty (by simp)
  · exact mark empty
  · exact empty (List.mem_append_right _ List.mem_cons_self)

/-- An entry that its own line gives back. -/
structure Canonical (e : Text × Text) : Prop where
  named : Trimmed isSpace e.1
  valued : Trimmed isSpace e.2
  noEquals : '=' ∉ e.1
  noMark : e.1.head? ≠ some '#'
  clean : ∀ c ∈ render e, boundary c = false

theorem parseLine_render {e : Text × Text} (h : Canonical e) : parseLine (render e) = some e := by
  have none' : ∀ c ∈ ([] : Text), isSpace c = true := fun c mem => nomatch mem
  have given : parseLine ([] ++ (e.1 ++ [] ++ '=' :: ([] ++ e.2))) = some (e.1, e.2) :=
    parseLine_form h.named h.valued h.noEquals h.noMark none' none' none'
  rw [List.nil_append, List.append_nil, List.nil_append] at given
  exact given

theorem canonical_parseLine {line : Text} {e : Text × Text}
    (clean : ∀ c ∈ line, boundary c = false) (h : parseLine line = some e) : Canonical e := by
  rw [parseLine] at h
  split_ifs at h with passed
  cases h
  push Not at passed
  obtain ⟨-, noMark, -⟩ := passed
  have inside : ∀ c ∈ trim isSpace line, boundary c = false := fun c mem => clean c (mem_trim mem)
  have front := List.takeWhile_prefix (· != '=') (l := trim isSpace line)
  refine ⟨trimmed_trim _, trimmed_trim _, ?_, ?_, ?_⟩
  · intro mem
    have kept := List.all_eq_true.mp List.all_takeWhile '=' (mem_trim mem)
    exact absurd kept (by decide)
  · intro mark
    have first : ∀ d ∈ ((trim isSpace line).takeWhile (· != '=')).head?, isSpace d = false := by
      intro d mem
      exact (trimmed_trim line).1 d (head?_of_front front mem)
    exact noMark (head?_of_front front (head?_trim first mark))
  · intro c mem
    rcases List.mem_append.mp mem with mem | mem
    · exact inside c (front.mem (mem_trim mem))
    · rcases List.mem_cons.mp mem with rfl | mem
      · decide
      · exact inside c ((List.dropWhile_suffix _).mem (List.mem_of_mem_drop (mem_trim mem)))

/-- The characters of which the manager's own keys and values are made. -/
def word (c : Char) : Bool :=
  45 ≤ c.toNat && c.toNat ≤ 122 && c != '=' && c != ':' && c != '\\'

theorem isSpace_word {c : Char} (h : word c = true) : isSpace c = false := by
  simp only [word, Bool.and_eq_true, decide_eq_true_eq] at h
  simp only [isSpace, Bool.or_eq_false_iff, Bool.and_eq_false_iff, decide_eq_false_iff_not,
    beq_eq_false_iff_ne]
  omega

theorem boundary_word {c : Char} (h : word c = true) : boundary c = false := by
  simp only [word, Bool.and_eq_true, decide_eq_true_eq] at h
  simp only [boundary, Bool.or_eq_false_iff, Bool.and_eq_false_iff, decide_eq_false_iff_not,
    beq_eq_false_iff_ne]
  omega

theorem trimmed_word {text : Text} (h : ∀ c ∈ text, word c = true) : Trimmed isSpace text :=
  ⟨fun c mem => isSpace_word (h c (List.mem_of_mem_head? mem)),
    fun c mem => isSpace_word (h c (List.mem_of_mem_getLast? mem))⟩

theorem word_digit : ∀ n < 64, word (digit n) = true := by decide

theorem word_tokenUrlsafe (bytes : List UInt8) : ∀ c ∈ tokenUrlsafe bytes, word c = true := by
  have last : ∀ b : UInt8, b.toNat % 64 < 64 := fun b => Nat.mod_lt _ (by omega)
  induction bytes using tokenUrlsafe.induct with
  | case1 => exact fun c mem => nomatch mem
  | case2 a =>
    have bound := a.toNat_lt
    rw [tokenUrlsafe]
    simp only [List.mem_cons, List.not_mem_nil, or_false]
    rintro c (rfl | rfl)
    · exact word_digit _ (by omega)
    · exact word_digit _ (by omega)
  | case3 a b =>
    have bound := a.toNat_lt
    have bound' := b.toNat_lt
    rw [tokenUrlsafe]
    simp only [List.mem_cons, List.not_mem_nil, or_false]
    rintro c (rfl | rfl | rfl)
    · exact word_digit _ (by omega)
    · exact word_digit _ (by omega)
    · exact word_digit _ (by omega)
  | case4 a b d rest ih =>
    have bound := a.toNat_lt
    have bound' := b.toNat_lt
    have bound'' := d.toNat_lt
    rw [tokenUrlsafe]
    simp only [List.mem_cons]
    rintro c (rfl | rfl | rfl | rfl | mem)
    · exact word_digit _ (by omega)
    · exact word_digit _ (by omega)
    · exact word_digit _ (by omega)
    · exact word_digit _ (last d)
    · exact ih c mem

theorem word_repr (n : Nat) : ∀ c ∈ n.repr.toList, word c = true := by
  intro c mem
  rw [Nat.toList_repr] at mem
  have digits := Nat.isDigit_of_mem_toDigits (by decide) (by decide) mem
  have range : 48 ≤ c.toNat ∧ c.toNat ≤ 57 := by
    simpa [Char.isDigit, UInt32.le_iff_toNat_le] using digits
  have other : ∀ d : Char, d.isDigit = false → (c != d) = true := by
    intro d notDigit
    rw [bne_iff_ne]
    rintro rfl
    rw [digits] at notDigit
    cases notDigit
  rw [word, other _ (by decide), other _ (by decide), other _ (by decide)]
  simp only [Bool.and_true, Bool.and_eq_true, decide_eq_true_eq]
  omega

theorem word_portText (port : Option Int) : ∀ c ∈ portText port, word c = true := by
  cases port with
  | none =>
    have plain : (portText none).all word = true := by decide
    exact List.all_eq_true.mp plain
  | some n =>
    cases n with
    | ofNat n => exact word_repr n
    | negSucc n =>
      have text : portText (some (Int.negSucc n)) = '-' :: (n + 1).repr.toList := by
        change ("-" ++ (n + 1).repr).toList = _
        simp
      rw [text]
      intro c mem
      rcases List.mem_cons.mp mem with rfl | mem
      · decide
      · exact word_repr _ c mem

/-- The manager's own entries are made of such characters. -/
theorem word_own {rconPort : Option Int} {random : Vector UInt8 12} {e : Text × Text}
    (mem : e ∈ own rconPort random) :
    (∀ c ∈ e.1, word c = true) ∧ (∀ c ∈ e.2, word c = true) ∧ e.1 ≠ [] := by
  have plain : ∀ key : Text, key.all word = true → ∀ c ∈ key, word c = true :=
    fun _ all => List.all_eq_true.mp all
  simp only [own, List.mem_cons, List.not_mem_nil, or_false] at mem
  rcases mem with rfl | rfl | rfl
  · exact ⟨plain _ (by decide), plain _ (by decide), List.cons_ne_nil _ _⟩
  · exact ⟨plain "rcon.port".toList (by decide), word_portText rconPort, List.cons_ne_nil _ _⟩
  · exact ⟨plain "rcon.password".toList (by decide), word_tokenUrlsafe _, List.cons_ne_nil _ _⟩

theorem canonical_own {rconPort : Option Int} {random : Vector UInt8 12} {e : Text × Text}
    (mem : e ∈ own rconPort random) : Canonical e := by
  obtain ⟨named, valued, -⟩ := word_own mem
  refine ⟨trimmed_word named, trimmed_word valued, ?_, ?_, ?_⟩
  · intro inside
    exact absurd (named _ inside) (by decide)
  · intro mark
    exact absurd (named _ (List.mem_of_mem_head? mark)) (by decide)
  · intro c inside
    rcases List.mem_append.mp inside with inside | inside
    · exact boundary_word (named c inside)
    · rcases List.mem_cons.mp inside with rfl | inside
      · decide
      · exact boundary_word (valued c inside)

theorem canonical_definitions {bytes : List UInt8} {e : Text × Text}
    (mem : e ∈ definitions bytes) : Canonical e := by
  obtain ⟨line, inside, parsed⟩ := List.mem_filterMap.mp mem
  exact canonical_parseLine (ends_split inside) parsed

theorem canonical_props {rconPort : Option Int} {random : Vector UInt8 12} {bytes : List UInt8}
    {e : Text × Text} (mem : e ∈ props rconPort random bytes) : Canonical e := by
  rcases List.mem_append.mp (OrderedDict.mem_ofList mem) with inside | inside
  · exact canonical_definitions inside
  · exact canonical_own inside

theorem split_lines {lines : List Text} (clean : ∀ line ∈ lines, ∀ c ∈ line, boundary c = false) :
    split boundary (lines.flatMap (· ++ ['\n'])) = lines ++ [[]] := by
  induction lines with
  | nil => rfl
  | cons line lines ih =>
    rw [List.flatMap_cons, List.append_assoc, List.singleton_append,
      split_append (clean line List.mem_cons_self) (by decide),
      ih fun l mem => clean l (List.mem_cons_of_mem _ mem)]
    rfl

/-- What is read back of entries that have been written. -/
theorem definitions_written {entries : List (Text × Text)} (h : ∀ e ∈ entries, Canonical e) :
    definitions (Utf8.encode (String.ofList (entries.flatMap (render · ++ ['\n'])))) = entries := by
  have clean : ∀ line ∈ entries.map render, ∀ c ∈ line, boundary c = false := by
    intro line mem
    obtain ⟨e, inside, rfl⟩ := List.mem_map.mp mem
    exact (h e inside).clean
  have joined : entries.flatMap (render · ++ ['\n']) =
      (entries.map render).flatMap (· ++ ['\n']) := by rw [List.flatMap_map]
  have noReturn : '\r' ∉ (entries.map render).flatMap (· ++ ['\n']) := by
    intro mem
    obtain ⟨line, inside, there⟩ := List.mem_flatMap.mp mem
    rcases List.mem_append.mp there with there | there
    · exact absurd (clean line inside _ there) (by decide)
    · exact absurd (List.mem_singleton.mp there) (by decide)
  rw [definitions, readText, Utf8.decode_encode, String.toList_ofList, joined,
    newlines_none noReturn, split_lines clean, List.filterMap_append,
    List.filterMap_cons_none parseLine_nil, List.filterMap_nil, List.append_nil,
    List.filterMap_map]
  calc entries.filterMap (parseLine ∘ render)
      = entries.filterMap some :=
        List.filterMap_congr fun e mem => parseLine_render (h e mem)
    _ = entries := List.filterMap_some

/-- Provisioning what has been provisioned sets the password only. -/
theorem props_again (rconPort : Option Int) (random random' : Vector UInt8 12)
    (bytes : List UInt8) :
    props rconPort random' (provisionRcon rconPort random (some bytes)).2 =
      OrderedDict.set (props rconPort random bytes) "rcon.password".toList
        (tokenUrlsafe random'.toList) := by
  have unique : OrderedDict.Unique (props rconPort random bytes) :=
    OrderedDict.unique_ofList _
  have enabled : ("enable-rcon".toList, "true".toList) ∈ props rconPort random bytes :=
    own_mem_props List.mem_cons_self
  have port : ("rcon.port".toList, portText rconPort) ∈ props rconPort random bytes :=
    own_mem_props (List.mem_cons_of_mem _ List.mem_cons_self)
  rw [props_eq rconPort random', provisionRcon_some,
    definitions_written fun e mem => canonical_props mem, OrderedDict.ofList_unique unique,
    OrderedDict.set_same unique enabled, OrderedDict.set_same unique port]

/-- The two files differ in the password only. -/
theorem provisionRcon_again (rconPort : Option Int) (random random' : Vector UInt8 12)
    (bytes : List UInt8) : ∃ front back : List UInt8,
    (provisionRcon rconPort random (some bytes)).2 =
      front ++ Utf8.encode (String.ofList (tokenUrlsafe random.toList)) ++ back ∧
    (provisionRcon rconPort random' (some (provisionRcon rconPort random (some bytes)).2)).2 =
      front ++ Utf8.encode (String.ofList (tokenUrlsafe random'.toList)) ++ back := by
  have unique : OrderedDict.Unique (props rconPort random bytes) :=
    OrderedDict.unique_ofList _
  have mem : ("rcon.password".toList, tokenUrlsafe random.toList) ∈ props rconPort random bytes :=
    own_mem_props (List.mem_cons_of_mem _ (List.mem_cons_of_mem _ List.mem_cons_self))
  obtain ⟨before, after, split⟩ := List.append_of_mem mem
  rw [split, OrderedDict.Unique, List.pairwise_append, List.pairwise_cons] at unique
  have again := props_again rconPort random random' bytes
  rw [split, OrderedDict.set_present (fun e inside => unique.2.2 e inside _ List.mem_cons_self)
    fun e inside => (unique.2.1.1 e inside).symm] at again
  have parts : ∀ password : Text, Utf8.encode (String.ofList
      ((before ++ ("rcon.password".toList, password) :: after).flatMap (render · ++ ['\n']))) =
      Utf8.encode (String.ofList (before.flatMap (render · ++ ['\n']) ++ "rcon.password=".toList)) ++
        Utf8.encode (String.ofList password) ++
        Utf8.encode (String.ofList ('\n' :: after.flatMap (render · ++ ['\n']))) := by
    intro password
    rw [← Utf8.encode_append, ← Utf8.encode_append, List.flatMap_append, List.flatMap_cons]
    simp [render]
  have first := provisionRcon_some rconPort random bytes
  have second := provisionRcon_some rconPort random' (provisionRcon rconPort random (some bytes)).2
  rw [split, parts] at first
  rw [again, parts] at second
  exact ⟨_, _, first, second⟩

end McManager.Provision
