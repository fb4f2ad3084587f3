import McManager.Framework.Properties
import McManager.Services.RconProvision

namespace McManager.Provision

open Framework Framework.Properties Web

def bytesOf (text : Text) : List UInt8 := Utf8.encode (String.ofList text)

def textOf (bytes : List UInt8) : Text := (Utf8.decode bytes).toList

/-- The keys the manager defines. -/
def ownKeys : List Text := ["enable-rcon".toList, "rcon.port".toList, "rcon.password".toList]

/-- What the file is to define after provisioning: the manager's keys as they have been returned,
and every other key as before. -/
def Preserved (bytes : List UInt8) (returned : Option Int × Text) (after : List UInt8) : Prop :=
  ∃ seen, load after = some seen ∧
    latest seen (units "enable-rcon".toList) = some (units "true".toList) ∧
    latest seen (units "rcon.port".toList) = some (units (portText returned.1)) ∧
    latest seen (units "rcon.password".toList) = some (units returned.2) ∧
    ∀ before, load bytes = some before → ∀ name, name ∉ ownKeys.map units →
      latest seen name = latest before name

/-- The line of a key and a value that the manager and a reader take apart alike. -/
structure Form (name text : List UInt8) : Prop where
  bare : bare false name = true
  noEquals : 61 ∉ name
  noMark : name.head? ≠ some 35 ∧ name.head? ≠ some 33
  complete : continued text = false
  valid : bytesOf (textOf name) = name ∧ bytesOf (textOf text) = text
  named : Trimmed isSpace (textOf name)
  valued : Trimmed isSpace (textOf text)

/-- The lines that they take alike. -/
inductive Plain : List UInt8 → Prop
  | blank {line : List UInt8} (h : ∀ b ∈ line, white b = true) : Plain line
  | comment {indent : List UInt8} {mark : UInt8} {text : List UInt8}
      (h : ∀ b ∈ indent, white b = true) (is : mark = 35 ∨ mark = 33) :
      Plain (indent ++ mark :: text)
  | definition {indent name gap gap' text : List UInt8} (form : Form name text)
      (indents : ∀ b ∈ indent, white b = true) (gaps : ∀ b ∈ gap, white b = true)
      (gaps' : ∀ b ∈ gap', white b = true) :
      Plain (indent ++ (name ++ gap ++ 61 :: (gap' ++ text)))

/-- The keys a file defines, as they are spelled there. -/
def names (bytes : List UInt8) : List (List UInt8) :=
  (byteLines bytes).filterMap fun line => (entry line).map fun l => (key false l).1

/-- A file of such lines that a reader accepts and in which no key is spelled in two ways. -/
structure Faithful (bytes : List UInt8) : Prop where
  plain : ∀ line ∈ byteLines bytes, Plain line
  whole : ∀ line ∈ byteLines bytes, ∀ c ∈ textOf line, boundary c = false
  readable : (load bytes).isSome = true
  spelled : ∀ a ∈ names bytes ++ ownKeys.map bytesOf, ∀ b ∈ names bytes ++ ownKeys.map bytesOf,
    unescape a = unescape b → a = b

/-- The character of a byte in ASCII. -/
def chr (b : UInt8) : Char := Char.ofNat b.toNat

theorem toNat_ofNat : ∀ n < 128, n = (Char.ofNat n).toNat := by decide

theorem textOf_cons {b : UInt8} (low : b.toNat < 128) (front back : List UInt8) :
    textOf (front ++ b :: back) = textOf front ++ chr b :: textOf back :=
  Utf8.decode_ascii front low (toNat_ofNat _ low) back

theorem textOf_ascii {front : List UInt8} (h : ∀ b ∈ front, b.toNat < 128) (rest : List UInt8) :
    textOf (front ++ rest) = front.map chr ++ textOf rest := by
  induction front with
  | nil => rfl
  | cons b front ih =>
    have first := textOf_cons (h b List.mem_cons_self) [] (front ++ rest)
    rw [List.nil_append] at first
    rw [List.cons_append, first, ih fun c mem => h c (List.mem_cons_of_mem _ mem)]
    rfl

theorem textOf_append_ascii (front : List UInt8) {back : List UInt8}
    (h : ∀ b ∈ back, b.toNat < 128) : textOf (front ++ back) = textOf front ++ back.map chr := by
  cases back with
  | nil => rw [List.append_nil, List.map_nil, List.append_nil]
  | cons b back =>
    have later := textOf_ascii (fun c mem => h c (List.mem_cons_of_mem _ mem)) []
    rw [List.append_nil] at later
    rw [textOf_cons (h b List.mem_cons_self), later]
    exact congrArg (_ ++ chr b :: ·) (List.append_nil _)

theorem ascii_white {b : UInt8} (h : white b = true) : b.toNat < 128 := by
  simp only [white, Bool.or_eq_true, beq_iff_eq] at h
  rcases h with (rfl | rfl) | rfl <;> decide

theorem isSpace_white {b : UInt8} (h : white b = true) : isSpace (chr b) = true := by
  simp only [white, Bool.or_eq_true, beq_iff_eq] at h
  rcases h with (rfl | rfl) | rfl <;> decide

theorem isSpace_whites {bs : List UInt8} (h : ∀ b ∈ bs, white b = true) :
    ∀ c ∈ bs.map chr, isSpace c = true := by
  intro c mem
  obtain ⟨b, inside, rfl⟩ := List.mem_map.mp mem
  exact isSpace_white (h b inside)

/-- A text that keeps its ends does not begin with white space in bytes either. -/
theorem notWhite_head {bytes : List UInt8} (h : Trimmed isSpace (textOf bytes)) :
    ∀ b ∈ bytes.head?, white b = false := by
  intro b mem
  cases bytes with
  | nil => cases mem
  | cons first rest =>
    cases mem
    rw [Bool.eq_false_iff]
    intro space
    have low : ∀ c ∈ [b], c.toNat < 128 := by
      intro c mem
      rw [List.mem_singleton.mp mem]
      exact ascii_white space
    have start : (textOf (b :: rest)).head? = some (chr b) := by
      rw [← List.singleton_append, textOf_ascii low]
      rfl
    have other := h.1 _ start
    rw [isSpace_white space] at other
    cases other

theorem bytesOf_append (cs ds : Text) : bytesOf (cs ++ ds) = bytesOf cs ++ bytesOf ds :=
  Utf8.encode_append cs ds

theorem bytesOf_cons {c : Char} {b : UInt8} (low : b.toNat < 128) (same : b.toNat = c.toNat)
    (cs : Text) : bytesOf (c :: cs) = b :: bytesOf cs := by
  rw [bytesOf, Utf8.encode_ofList, List.flatMap_cons, Utf8.encoded_ascii low same,
    ← Utf8.encode_ofList]
  rfl

theorem bytesOf_render (e : Text × Text) :
    bytesOf (render e) = bytesOf e.1 ++ 61 :: bytesOf e.2 := by
  rw [render, bytesOf_append, bytesOf_cons (b := 61) (by decide) (by decide)]

/-- A first byte in ASCII is the first character. -/
theorem head_bytesOf {cs : Text} {b : UInt8} (first : (bytesOf cs).head? = some b)
    (low : b.toNat < 128) : ∃ c, cs.head? = some c ∧ c.toNat = b.toNat := by
  cases cs with
  | nil => cases first
  | cons c cs =>
    refine ⟨c, rfl, ?_⟩
    have parts : bytesOf (c :: cs) = String.utf8EncodeChar c ++ bytesOf cs := by
      rw [bytesOf, Utf8.encode_ofList, List.flatMap_cons, ← Utf8.encode_ofList]
      rfl
    rw [parts] at first
    rcases Utf8.encoded c with ⟨x, same, one⟩ | high
    · rw [one] at first
      cases first
      exact same.symm
    · rw [List.head?_append_of_ne_nil _ String.utf8EncodeChar_ne_nil] at first
      have wide := high b (List.mem_of_mem_head? first)
      omega

theorem char_of_toNat {c d : Char} (h : c.toNat = d.toNat) : c = d :=
  Char.toNat_inj.mp h

/-- What a reader makes of the line of an entry. -/
theorem entry_render {e : Text × Text} (h : Canonical e) :
    entry (bytesOf (render e)) =
      if e.1.head? = some '!' then none else some (bytesOf (render e)) := by
  have first : ∀ b, b.toNat < 128 → (bytesOf (render e)).head? = some b →
      ∃ c, (render e).head? = some c ∧ c.toNat = b.toNat := fun b low found =>
    head_bytesOf found low
  have start : ∀ c, (render e).head? = some c → c = '=' ∨ e.1.head? = some c := by
    intro c found
    rw [render] at found
    cases name : e.1 with
    | nil =>
      rw [name] at found
      cases found
      exact .inl rfl
    | cons d rest =>
      rw [name] at found
      exact .inr found
  have notWhite : ∀ b ∈ (bytesOf (render e)).head?, white b = false := by
    intro b found
    rw [Bool.eq_false_iff]
    intro space
    obtain ⟨c, there, same⟩ := first b (ascii_white space) found
    have blank : isSpace c = true := by
      have is : c = chr b := char_of_toNat (same.trans (toNat_ofNat _ (ascii_white space)))
      rw [is]
      exact isSpace_white space
    rcases start c there with rfl | there
    · rw [isSpace_equals] at blank
      cases blank
    · rw [h.named.1 c there] at blank
      cases blank
  have nonempty : bytesOf (render e) ≠ [] := by
    rw [bytesOf_render]
    simp
  rw [entry]
  simp only [dropWhile_of_head notWhite, nonempty, false_or]
  by_cases mark : e.1.head? = some '!'
  · rw [if_pos mark, if_pos]
    obtain ⟨rest, name⟩ : ∃ rest, e.1 = '!' :: rest := by
      cases name : e.1 with
      | nil => rw [name] at mark; cases mark
      | cons c rest => rw [name] at mark; cases mark; exact ⟨rest, rfl⟩
    rw [bytesOf_render, name, bytesOf_cons (b := 33) (by decide) (by decide)]
    rfl
  · rw [if_neg mark, if_neg]
    intro marked
    rw [comment, Bool.or_eq_true, beq_iff_eq, beq_iff_eq] at marked
    rcases marked with found | found
    · obtain ⟨c, there, same⟩ := first 35 (by decide) found
      have is : c = '#' := char_of_toNat same
      subst is
      rcases start '#' there with wrong | there
      · exact absurd wrong (by decide)
      · exact h.noMark there
    · obtain ⟨c, there, same⟩ := first 33 (by decide) found
      have is : c = '!' := char_of_toNat same
      subst is
      rcases start '!' there with wrong | there
      · exact absurd wrong (by decide)
      · exact mark there

theorem entry_blank {line : List UInt8} (h : ∀ b ∈ line, white b = true) :
    entry line = none ∧ parseLine (textOf line) = none := by
  constructor
  · have gone : (line ++ []).dropWhile white = [] := List.dropWhile_append_of_pos h
    rw [List.append_nil] at gone
    rw [entry, gone]
    rfl
  · have text := textOf_ascii (fun b mem => ascii_white (h b mem)) []
    rw [List.append_nil] at text
    have spaces : ∀ c ∈ textOf line, isSpace c = true := by
      rw [text]
      intro c mem
      rw [show textOf [] = [] from rfl, List.append_nil] at mem
      exact isSpace_whites h c mem
    rw [parseLine, trim_all spaces]
    rfl

theorem head_parseLine {line : Text} {e : Text × Text} {c : Char} (other : c ≠ '=')
    (first : (trim isSpace line).head? = some c) (h : parseLine line = some e) :
    e.1.head? = some c := by
  rw [parseLine] at h
  split_ifs at h with passed
  cases h
  have solid := (trimmed_trim line).1 c first
  apply head?_trim_of_head solid
  cases stripped : trim isSpace line with
  | nil => rw [stripped] at first; cases first
  | cons d rest =>
    rw [stripped] at first
    cases first
    rw [List.takeWhile_cons, if_pos (by simpa using other)]
    rfl

/-- A comment is no definition; only one with an exclamation mark may be taken for one. -/
theorem entry_comment {indent : List UInt8} {mark : UInt8} {text : List UInt8}
    (h : ∀ b ∈ indent, white b = true) (is : mark = 35 ∨ mark = 33) :
    entry (indent ++ mark :: text) = none ∧
      ∀ e, parseLine (textOf (indent ++ mark :: text)) = some e → e.1.head? = some '!' := by
  have notWhite : white mark = false := by rcases is with rfl | rfl <;> decide
  have low : mark.toNat < 128 := by rcases is with rfl | rfl <;> decide
  constructor
  · have rest : (indent ++ mark :: text).dropWhile white = mark :: text := by
      rw [List.dropWhile_append_of_pos h, List.dropWhile_cons, if_neg (by simp [notWhite])]
    have marked : comment (mark :: text) = true := by rcases is with rfl | rfl <;> rfl
    rw [entry]
    simp only [rest, marked]
    exact if_pos (.inr trivial)
  · intro e parsed
    have split : textOf (indent ++ mark :: text) = indent.map chr ++ chr mark :: textOf text := by
      rw [textOf_ascii fun b mem => ascii_white (h b mem)]
      exact congrArg (_ ++ ·) (textOf_cons low [] text)
    have solid : isSpace (chr mark) = false := by rcases is with rfl | rfl <;> decide
    have first : (trim isSpace (textOf (indent ++ mark :: text))).head? = some (chr mark) := by
      rw [split, trim_append_left (isSpace_whites h)]
      exact head?_trim_of_head solid rfl
    rcases is with rfl | rfl
    · rw [parseLine] at parsed
      rw [if_pos (.inr (.inl first))] at parsed
      cases parsed
    · exact head_parseLine (by decide) first parsed

/-- The line of a definition. -/
theorem entry_form {indent name gap gap' text : List UInt8} (form : Form name text)
    (indents : ∀ b ∈ indent, white b = true) (gaps : ∀ b ∈ gap, white b = true)
    (gaps' : ∀ b ∈ gap', white b = true) :
    ∃ l, entry (indent ++ (name ++ gap ++ 61 :: (gap' ++ text))) = some l ∧
      continued l = false ∧ Properties.definition l = Properties.definition (name ++ 61 :: text) ∧
      (key false l).1 = name := by
  have textHead := notWhite_head form.valued
  have ends : ∀ front : List UInt8, continued (front ++ 61 :: (gap' ++ text)) = false := by
    intro front
    have shape : front ++ 61 :: (gap' ++ text) = (front ++ 61 :: gap') ++ text := by simp
    rw [shape, continued_append _ text]
    · exact form.complete
    · intro b mem
      rw [List.getLast?_append_of_ne_nil _ (List.cons_ne_nil _ _), List.getLast?_cons] at mem
      cases last : gap'.getLast? with
      | none =>
        rw [last] at mem
        cases mem
        decide
      | some c =>
        rw [last] at mem
        have is : c = b := Option.some.inj mem
        subst is
        have space := gaps' c (List.mem_of_mem_getLast? last)
        rintro rfl
        exact absurd space (by decide)
  by_cases empty : name = []
  · subst empty
    refine ⟨61 :: (gap' ++ text), ?_, ends [], ?_, rfl⟩
    · rw [entry, List.dropWhile_append_of_pos indents, List.nil_append, List.dropWhile_append_of_pos gaps]
      rfl
    · exact definition_gap form.bare [] gap' (fun _ mem => absurd mem List.not_mem_nil) gaps' textHead
  · obtain ⟨first, rest, rfl⟩ := List.exists_cons_of_ne_nil empty
    have solid := notWhite_head form.named first rfl
    obtain ⟨notHash, notBang⟩ := form.noMark
    have shape : first :: rest ++ gap ++ 61 :: (gap' ++ text) =
        (first :: rest) ++ (gap ++ 61 :: (gap' ++ text)) := List.append_assoc ..
    refine ⟨first :: rest ++ gap ++ 61 :: (gap' ++ text), ?_, ends _, ?_, ?_⟩
    · have kept : (indent ++ (first :: rest ++ gap ++ 61 :: (gap' ++ text))).dropWhile white =
          first :: rest ++ gap ++ 61 :: (gap' ++ text) := by
        rw [List.dropWhile_append_of_pos indents]
        apply dropWhile_of_head
        intro b mem
        cases mem
        exact solid
      have plain : comment (first :: rest ++ gap ++ 61 :: (gap' ++ text)) = false := by
        rw [comment, Bool.or_eq_false_iff, beq_eq_false_iff_ne, beq_eq_false_iff_ne]
        exact ⟨notHash, notBang⟩
      rw [entry]
      simp only [kept, plain]
      rw [if_neg (by simp)]
    · rw [shape]
      exact definition_gap form.bare gap gap' gaps gaps' textHead
    · rw [shape]
      cases gap with
      | nil => rw [List.nil_append, key_bare rfl _ _ form.bare]
      | cons b bs =>
        have sep : separator b = true := by
          rw [separator, gaps b List.mem_cons_self, Bool.or_true]
        exact congrArg Prod.fst (key_bare sep _ _ form.bare)

theorem parseLine_plain {indent name gap gap' text : List UInt8} (form : Form name text)
    (indents : ∀ b ∈ indent, white b = true) (gaps : ∀ b ∈ gap, white b = true)
    (gaps' : ∀ b ∈ gap', white b = true) :
    parseLine (textOf (indent ++ (name ++ gap ++ 61 :: (gap' ++ text)))) =
      some (textOf name, textOf text) := by
  have low : ∀ {bs : List UInt8}, (∀ b ∈ bs, white b = true) → ∀ b ∈ bs, b.toNat < 128 :=
    fun h b mem => ascii_white (h b mem)
  have split : textOf (indent ++ (name ++ gap ++ 61 :: (gap' ++ text))) =
      indent.map chr ++ (textOf name ++ gap.map chr ++ '=' :: (gap'.map chr ++ textOf text)) := by
    rw [textOf_ascii (low indents), textOf_cons (b := 61) (by decide),
      textOf_append_ascii name (low gaps), textOf_ascii (low gaps')]
    rfl
  have noEquals : '=' ∉ textOf name := by
    intro mem
    rw [textOf, Utf8.toList_decode] at mem
    obtain ⟨x, inside, same⟩ := Utf8.mem_chars (by decide) _ name mem
    have is : x = 61 := UInt8.toNat_inj.mp same
    exact form.noEquals (is ▸ inside)
  have noMark : (textOf name).head? ≠ some '#' := by
    intro mark
    cases shape : textOf name with
    | nil => rw [shape] at mark; cases mark
    | cons c rest =>
      rw [shape] at mark
      cases mark
      apply form.noMark.1
      rw [← form.valid.1, shape, bytesOf_cons (b := 35) (by decide) (by decide)]
      rfl
  rw [split]
  exact parseLine_form form.named form.valued noEquals noMark (isSpace_whites indents)
    (isSpace_whites gaps) (isSpace_whites gaps')

/-- An entry of which a reader takes the key and the value as they stand. -/
structure Written (known : List (List UInt8)) (e : Text × Text) : Prop where
  bare : bare false (bytesOf e.1) = true
  complete : continued (bytesOf e.2) = false
  known : bytesOf e.1 ∈ known

/-- The manager and a reader take a plain line for the same. -/
theorem plain_line {line : List UInt8} (plain : Plain line) :
    (∀ l, entry line = some l → continued l = false) ∧
    (parseLine (textOf line) = none → entry line = none) ∧
    ∀ e, parseLine (textOf line) = some e →
      e.1.head? = some '!' ∧ entry line = none ∨
      e.1.head? ≠ some '!' ∧ ∃ l, entry line = some l ∧
        Properties.definition l = Properties.definition (bytesOf (render e)) ∧
        Written [(key false l).1] e := by
  cases plain with
  | blank h =>
    obtain ⟨nothing, passed⟩ := entry_blank h
    refine ⟨fun l found => ?_, fun _ => nothing, fun e parsed => ?_⟩
    · rw [nothing] at found
      cases found
    · rw [passed] at parsed
      cases parsed
  | comment h is =>
    obtain ⟨nothing, marked⟩ := entry_comment h is
    refine ⟨fun l found => ?_, fun _ => nothing, fun e parsed => .inl ⟨marked e parsed, nothing⟩⟩
    rw [nothing] at found
    cases found
  | definition form indents gaps gaps' =>
    rename_i indent name gap gap' text
    obtain ⟨l, found, single, same, named⟩ := entry_form form indents gaps gaps'
    have parsed := parseLine_plain form indents gaps gaps'
    refine ⟨fun l' found' => ?_, fun passed => ?_, fun e parsed' => .inr ?_⟩
    · rw [found] at found'
      cases found'
      exact single
    · rw [parsed] at passed
      cases passed
    · rw [parsed] at parsed'
      cases parsed'
      refine ⟨?_, l, found, ?_, ?_⟩
      · intro mark
        cases shape : textOf name with
        | nil => rw [shape] at mark; cases mark
        | cons c rest =>
          rw [shape] at mark
          cases mark
          apply form.noMark.2
          rw [← form.valid.1, shape, bytesOf_cons (b := 33) (by decide) (by decide)]
          rfl
      · rw [same, bytesOf_render, form.valid.1, form.valid.2]
      · refine ⟨?_, ?_, ?_⟩
        · rw [form.valid.1]
          exact form.bare
        · rw [form.valid.2]
          exact form.complete
        · rw [form.valid.1, named]
          exact List.mem_cons_self

/-- The definition a reader takes from the line of an entry. -/
def reads (e : Text × Text) : Option (List UInt16 × List UInt16) :=
  (entry (bytesOf (render e))).bind Properties.definition

theorem mem_bytesOf {x : UInt8} (low : x.toNat < 128) {cs : Text} (mem : x ∈ bytesOf cs) :
    ∃ c ∈ cs, c.toNat = x.toNat := by
  rw [bytesOf, Utf8.encode_ofList] at mem
  obtain ⟨c, inside, there⟩ := List.mem_flatMap.mp mem
  refine ⟨c, inside, ?_⟩
  rcases Utf8.encoded c with ⟨b, same, one⟩ | high
  · rw [one, List.mem_singleton] at there
    rw [there, same]
  · have wide := high x there
    omega

/-- The lines of the file that has been written. -/
theorem byteLines_written {entries : List (Text × Text)} (h : ∀ e ∈ entries, Canonical e) :
    byteLines (bytesOf (entries.flatMap (render · ++ ['\n']))) =
      entries.map (fun e => bytesOf (render e)) ++ [[]] := by
  have absent : ∀ e ∈ entries, ∀ x ∈ bytesOf (render e), x ≠ 13 ∧ x ≠ 10 := by
    intro e mem x inside
    have clean := (h e mem).clean
    constructor
    · rintro rfl
      obtain ⟨c, there, same⟩ := mem_bytesOf (by decide) inside
      have is : c = '\r' := char_of_toNat same
      exact absurd (clean c there) (by rw [is]; decide)
    · rintro rfl
      obtain ⟨c, there, same⟩ := mem_bytesOf (by decide) inside
      have is : c = '\n' := char_of_toNat same
      exact absurd (clean c there) (by rw [is]; decide)
  rw [byteLines]
  induction entries with
  | nil => rfl
  | cons e entries ih =>
    have later := ih (fun a mem => h a (List.mem_cons_of_mem _ mem))
      fun a mem => absent a (List.mem_cons_of_mem _ mem)
    have here := absent e List.mem_cons_self
    have shape : bytesOf ((e :: entries).flatMap (render · ++ ['\n'])) =
        bytesOf (render e) ++ 10 :: bytesOf (entries.flatMap (render · ++ ['\n'])) := by
      rw [List.flatMap_cons, List.append_assoc, bytesOf_append, List.singleton_append,
        bytesOf_cons (b := 10) (by decide) (by decide)]
    have lines : newlines 13 10 (bytesOf ((e :: entries).flatMap (render · ++ ['\n']))) =
        bytesOf (render e) ++
          10 :: newlines 13 10 (bytesOf (entries.flatMap (render · ++ ['\n']))) := by
      rw [shape, newlines, newlinesFrom_append false here, newlinesFrom, if_neg (by decide),
        if_neg (by simp)]
    rw [lines, split_append (fun x mem => decide_eq_false (here x mem).2) (by decide), later]
    rfl

theorem mapM_eq_some {α β : Type} {f : α → Option β} {xs : List α} {ys : List β} :
    xs.mapM f = some ys ↔ (∀ x ∈ xs, (f x).isSome = true) ∧ ys = xs.filterMap f := by
  induction xs generalizing ys with
  | nil =>
    rw [List.mapM_nil]
    constructor
    · intro same
      cases same
      exact ⟨(fun _ mem => nomatch mem), rfl⟩
    · rintro ⟨-, rfl⟩
      rfl
  | cons x xs ih =>
    rw [List.mapM_cons]
    cases here : f x with
    | none =>
      constructor
      · intro same
        cases same
      · rintro ⟨all, -⟩
        have bad := all x List.mem_cons_self
        rw [here] at bad
        cases bad
    | some y =>
      cases later : xs.mapM f with
      | none =>
        constructor
        · intro same
          cases same
        · rintro ⟨all, -⟩
          have good := ih.mpr ⟨fun a mem => all a (List.mem_cons_of_mem _ mem), rfl⟩
          rw [later] at good
          cases good
      | some zs =>
        obtain ⟨all, rfl⟩ := ih.mp later
        rw [List.filterMap_cons_some here]
        constructor
        · intro same
          cases same
          refine ⟨fun a mem => ?_, rfl⟩
          rcases List.mem_cons.mp mem with rfl | mem
          · rw [here]
            rfl
          · exact all a mem
        · rintro ⟨-, rfl⟩
          rfl

/-- What a reader takes from lines none of which goes on in the next. -/
theorem load_single {bytes : List UInt8} {defs : List (List UInt16 × List UInt16)}
    (single : ∀ line ∈ byteLines bytes, ∀ l, entry line = some l → continued l = false) :
    load bytes = some defs ↔
      (∀ line ∈ byteLines bytes, ∀ l, entry line = some l →
        (Properties.definition l).isSome = true) ∧
      defs = (byteLines bytes).filterMap fun line => (entry line).bind Properties.definition := by
  rw [load, logical_single single, mapM_eq_some, List.filterMap_filterMap]
  refine and_congr_left fun _ => ?_
  constructor
  · intro all line mem l found
    exact all l (List.mem_filterMap.mpr ⟨line, mem, found⟩)
  · intro all l mem
    obtain ⟨line, inside, found⟩ := List.mem_filterMap.mp mem
    exact all line inside l found

/-- The manager finds a definition on each line by itself. -/
theorem definitions_whole {bytes : List UInt8}
    (whole : ∀ line ∈ byteLines bytes, ∀ c ∈ textOf line, boundary c = false) :
    definitions bytes = (byteLines bytes).filterMap fun line => parseLine (textOf line) := by
  have lines : split (· = '\n') (readText bytes) = (byteLines bytes).map textOf :=
    (Utf8.decode_lines bytes).symm
  have same : split boundary (readText bytes) = split (· = '\n') (readText bytes) := by
    apply split_congr
    intro c mem
    rcases mem_or_mem_split (· = '\n') mem with is | ⟨piece, inside, there⟩
    · rw [is, of_decide_eq_true is]
      rfl
    · have other := ends_split inside c there
      rw [lines] at inside
      obtain ⟨line, known, rfl⟩ := List.mem_map.mp inside
      rw [other, whole line known c there]
  rw [definitions, same, lines, List.filterMap_map]
  rfl

section

variable {bytes : List UInt8} (faithful : Faithful bytes)

include faithful

theorem single_faithful :
    ∀ line ∈ byteLines bytes, ∀ l, entry line = some l → continued l = false :=
  fun line mem => (plain_line (faithful.plain line mem)).1

theorem reads_line {line : List UInt8} (mem : line ∈ byteLines bytes) :
    (entry line).bind Properties.definition = (parseLine (textOf line)).bind reads := by
  obtain ⟨-, passed, taken⟩ := plain_line (faithful.plain line mem)
  cases parsed : parseLine (textOf line) with
  | none =>
    rw [passed parsed]
    rfl
  | some e =>
    have canonical := canonical_parseLine (faithful.whole line mem) parsed
    rcases taken e parsed with ⟨mark, nothing⟩ | ⟨noMark, l, found, same, -⟩
    · rw [nothing, Option.bind_some, reads, entry_render canonical, if_pos mark]
    · rw [found, Option.bind_some, Option.bind_some, reads, entry_render canonical,
        if_neg noMark, Option.bind_some, same]

/-- What a reader sees in the file is what it sees in the manager's definitions. -/
theorem before_faithful {before : List (List UInt16 × List UInt16)}
    (h : load bytes = some before) : before = (definitions bytes).filterMap reads := by
  obtain ⟨-, rfl⟩ := (load_single (single_faithful faithful)).mp h
  rw [definitions_whole faithful.whole, List.filterMap_filterMap]
  exact List.filterMap_congr fun line mem => reads_line faithful mem

/-- The definitions of the file that a reader does not take for comments. -/
theorem written_definitions {e : Text × Text} (mem : e ∈ definitions bytes)
    (noMark : e.1.head? ≠ some '!') :
    Written (names bytes ++ ownKeys.map bytesOf) e ∧
      (Properties.definition (bytesOf (render e))).isSome = true := by
  rw [definitions_whole faithful.whole] at mem
  obtain ⟨line, inside, parsed⟩ := List.mem_filterMap.mp mem
  obtain ⟨-, -, taken⟩ := plain_line (faithful.plain line inside)
  rcases taken e parsed with ⟨mark, -⟩ | ⟨-, l, found, same, written⟩
  · exact absurd mark noMark
  · obtain ⟨before, loaded⟩ := Option.isSome_iff_exists.mp faithful.readable
    obtain ⟨all, -⟩ := (load_single (single_faithful faithful)).mp loaded
    refine ⟨⟨written.bare, written.complete, List.mem_append_left _ ?_⟩, ?_⟩
    · rw [List.mem_singleton.mp written.known]
      exact List.mem_filterMap.mpr ⟨line, inside, by rw [found]; rfl⟩
    · rw [← same]
      exact all line inside l found

end

theorem definition_render {e : Text × Text} (canonical : Canonical e)
    (plain : bare false (bytesOf e.1) = true) :
    Properties.definition (bytesOf (render e)) =
      (unescape (bytesOf e.1)).bind fun name => (unescape (bytesOf e.2)).map (name, ·) := by
  have start : ∀ b ∈ (bytesOf e.2).head?, white b = false := by
    intro b found
    rw [Bool.eq_false_iff]
    intro space
    obtain ⟨c, there, same⟩ := head_bytesOf found (ascii_white space)
    have is : c = chr b := char_of_toNat (same.trans (toNat_ofNat _ (ascii_white space)))
    have other := canonical.valued.1 c there
    rw [is, isSpace_white space] at other
    cases other
  have taken := value_equals start
  rw [bytesOf_render, Properties.definition, key_bare rfl _ _ plain]
  dsimp only
  rw [taken]
  cases unescape (bytesOf e.1) <;> cases unescape (bytesOf e.2) <;> rfl

/-- The bytes of the manager's own keys and values. -/
theorem bytesOf_word {c : Char} (h : word c = true) (cs : Text) :
    ∃ b : UInt8, bytesOf (c :: cs) = b :: bytesOf cs ∧ b ≠ 92 ∧ separator b = false ∧
      b.toUInt16 = c.toNat.toUInt16 := by
  simp only [word, Bool.and_eq_true, decide_eq_true_eq, bne_iff_ne] at h
  obtain ⟨⟨⟨⟨low, high⟩, notEquals⟩, notColon⟩, notBackslash⟩ := h
  have value : (UInt8.ofNat c.toNat).toNat = c.toNat := by
    rw [UInt8.toNat_ofNat']
    exact Nat.mod_eq_of_lt (by omega)
  have other : ∀ (k : UInt8) (d : Char), k.toNat = d.toNat → c ≠ d →
      (UInt8.ofNat c.toNat == k) = false := by
    intro k d same different
    rw [beq_eq_false_iff_ne]
    rintro rfl
    exact different (char_of_toNat (value.symm.trans same))
  have far : ∀ k : UInt8, k.toNat < 45 → (UInt8.ofNat c.toNat == k) = false := by
    intro k small
    rw [beq_eq_false_iff_ne]
    rintro rfl
    omega
  refine ⟨UInt8.ofNat c.toNat, bytesOf_cons (by omega) value cs, ?_, ?_, ?_⟩
  · exact beq_eq_false_iff_ne.mp (other 92 '\\' (by decide) notBackslash)
  · rw [separator, white, other 61 '=' (by decide) notEquals, other 58 ':' (by decide) notColon,
      far 32 (by decide), far 9 (by decide), far 12 (by decide)]
    rfl
  · apply UInt16.toNat_inj.mp
    rw [UInt8.toNat_toUInt16, value]
    exact (Nat.mod_eq_of_lt (by omega)).symm

theorem bare_word {cs : Text} (h : ∀ c ∈ cs, word c = true) : bare false (bytesOf cs) = true := by
  induction cs with
  | nil => rfl
  | cons c cs ih =>
    obtain ⟨b, bytes, notBackslash, notSeparator, -⟩ := bytesOf_word (h c List.mem_cons_self) cs
    rw [bytes, bare, notSeparator, beq_false_of_ne notBackslash]
    exact ih fun d mem => h d (List.mem_cons_of_mem _ mem)

theorem unescape_word {cs : Text} (h : ∀ c ∈ cs, word c = true) :
    unescape (bytesOf cs) = some (units cs) := by
  induction cs with
  | nil => rfl
  | cons c cs ih =>
    obtain ⟨b, bytes, notBackslash, -, same⟩ := bytesOf_word (h c List.mem_cons_self) cs
    rw [bytes, unescape.eq_5 b (bytesOf cs)]
    · rw [ih fun d mem => h d (List.mem_cons_of_mem _ mem), same]
      rfl
    all_goals
      intros
      exact notBackslash ‹_›

theorem continued_word {cs : Text} (h : ∀ c ∈ cs, word c = true) :
    continued (bytesOf cs) = false := by
  have last : ∀ b ∈ (bytesOf cs).getLast?, b ≠ 92 := by
    rintro b mem rfl
    obtain ⟨c, inside, same⟩ := mem_bytesOf (by decide) (List.mem_of_mem_getLast? mem)
    have is : c = '\\' := char_of_toNat same
    have plain := h c inside
    rw [is] at plain
    exact absurd plain (by decide)
  have whole := continued_append last []
  rw [List.append_nil] at whole
  rw [whole]
  rfl

section

variable {rconPort : Option Int} {random : Vector UInt8 12}

/-- A reader sees the manager's own definitions as they are. -/
theorem reads_own {e : Text × Text} (mem : e ∈ own rconPort random) :
    reads e = some (units e.1, units e.2) ∧ e.1.head? ≠ some '!' ∧
      Written (ownKeys.map bytesOf) e := by
  obtain ⟨named, valued, -⟩ := word_own mem
  have noMark : e.1.head? ≠ some '!' := by
    intro mark
    exact absurd (named _ (List.mem_of_mem_head? mark)) (by decide)
  have plain := bare_word named
  have known : bytesOf e.1 ∈ ownKeys.map bytesOf := by
    apply List.mem_map_of_mem
    simp only [own, List.mem_cons, List.not_mem_nil, or_false] at mem
    rcases mem with rfl | rfl | rfl
    · exact List.mem_cons_self
    · exact List.mem_cons_of_mem _ List.mem_cons_self
    · exact List.mem_cons_of_mem _ (List.mem_cons_of_mem _ List.mem_cons_self)
  refine ⟨?_, noMark, plain, continued_word valued, known⟩
  rw [reads, entry_render (canonical_own mem), if_neg noMark, Option.bind_some,
    definition_render (canonical_own mem) plain, unescape_word named, unescape_word valued]
  rfl

variable {bytes : List UInt8}

/-- What a reader takes from an entry is named as the entry's key is spelled. -/
theorem reads_key {e : Text × Text} {known : List (List UInt8)} (canonical : Canonical e)
    (written : e.1.head? ≠ some '!' → Written known e) {d : List UInt16 × List UInt16}
    (h : reads e = some d) : bytesOf e.1 ∈ known ∧ unescape (bytesOf e.1) = some d.1 := by
  rw [reads, entry_render canonical] at h
  split_ifs at h with mark
  · cases h
  obtain ⟨plain, -, inside⟩ := written mark
  rw [Option.bind_some, definition_render canonical plain, Option.bind_eq_some_iff] at h
  obtain ⟨name, named, made⟩ := h
  obtain ⟨value, -, rfl⟩ := Option.map_eq_some_iff.mp made
  exact ⟨inside, named⟩

theorem bytesOf_injective {cs ds : Text} (h : bytesOf cs = bytesOf ds) : cs = ds := by
  have decoded := congrArg (fun bytes => (Utf8.decode bytes).toList) h
  simpa [bytesOf, Utf8.decode_encode] using decoded

/-- The definitions of the file and the manager's own, as a reader and the manager know them. -/
theorem written_all (faithful : Faithful bytes) {e : Text × Text}
    (mem : e ∈ definitions bytes ++ own rconPort random) :
    Canonical e ∧ (e.1.head? ≠ some '!' → Written (names bytes ++ ownKeys.map bytesOf) e) ∧
      (e.1.head? ≠ some '!' → (reads e).isSome = true) := by
  rcases List.mem_append.mp mem with inside | inside
  · have canonical := canonical_definitions inside
    refine ⟨canonical, fun noMark => (written_definitions faithful inside noMark).1,
      fun noMark => ?_⟩
    rw [reads, entry_render canonical, if_neg noMark]
    exact (written_definitions faithful inside noMark).2
  · obtain ⟨seen, -, written⟩ := reads_own inside
    refine ⟨canonical_own inside, fun _ => ⟨written.bare, written.complete,
      List.mem_append_right _ written.known⟩, fun _ => ?_⟩
    rw [seen]
    rfl

/-- One key to the manager is one key to a reader. -/
theorem latest_props (faithful : Faithful bytes) (name : List UInt16) :
    latest ((props rconPort random bytes).filterMap reads) name =
      latest ((definitions bytes ++ own rconPort random).filterMap reads) name := by
  apply OrderedDict.latest_ofList
  · intro a mem b mem' x found y found' same
    obtain ⟨canonical, written, -⟩ := written_all faithful mem
    obtain ⟨canonical', written', -⟩ := written_all faithful mem'
    obtain ⟨known, spelled⟩ := reads_key canonical written found
    obtain ⟨known', spelled'⟩ := reads_key canonical' written' found'
    rw [← same, ← spelled] at spelled'
    exact bytesOf_injective (faithful.spelled _ known _ known' spelled'.symm)
  · intro a mem b mem' same
    obtain ⟨canonical, written, seen⟩ := written_all faithful mem
    obtain ⟨canonical', written', seen'⟩ := written_all faithful mem'
    by_cases mark : a.1.head? = some '!'
    · have nothing : reads a = none := by
        rw [reads, entry_render canonical, if_pos mark]
        rfl
      have nothing' : reads b = none := by
        rw [reads, entry_render canonical', if_pos (same ▸ mark)]
        rfl
      rw [nothing, nothing']
    · obtain ⟨x, found⟩ := Option.isSome_iff_exists.mp (seen mark)
      obtain ⟨y, found'⟩ := Option.isSome_iff_exists.mp (seen' (same ▸ mark))
      obtain ⟨-, spelled⟩ := reads_key canonical written found
      obtain ⟨-, spelled'⟩ := reads_key canonical' written' found'
      rw [same, spelled', Option.some.injEq] at spelled
      rw [found, found', Option.map_some, Option.map_some, spelled]

theorem filterMap_own :
    (own rconPort random).filterMap reads =
      (own rconPort random).map fun e => (units e.1, units e.2) := by
  calc (own rconPort random).filterMap reads
      = (own rconPort random).filterMap fun e => some (units e.1, units e.2) :=
        List.filterMap_congr fun e mem => (reads_own mem).1
    _ = (own rconPort random).map fun e => (units e.1, units e.2) := by rw [List.filterMap_eq_map']

/-- What the manager's own definitions give a key. -/
theorem latest_own (name : List UInt16) :
    latest ((own rconPort random).map fun e => (units e.1, units e.2)) name =
      if units "rcon.password".toList = name then some (units (tokenUrlsafe random.toList))
      else if units "rcon.port".toList = name then some (units (portText rconPort))
      else if units "enable-rcon".toList = name then some (units "true".toList) else none := by
  have parts : (own rconPort random).map (fun e => (units e.1, units e.2)) =
      [(units "enable-rcon".toList, units "true".toList)] ++
        [(units "rcon.port".toList, units (portText rconPort))] ++
        [(units "rcon.password".toList, units (tokenUrlsafe random.toList))] := rfl
  rw [parts, OrderedDict.latest_append, OrderedDict.latest_append, OrderedDict.latest_single,
    OrderedDict.latest_single, OrderedDict.latest_single]
  split_ifs <;> rfl

/-- The file that has been written is one a reader accepts. -/
theorem load_written (faithful : Faithful bytes) :
    load (provisionRcon rconPort random (some bytes)).2 =
      some ((props rconPort random bytes).filterMap reads) := by
  have known : ∀ e ∈ props rconPort random bytes,
      e ∈ definitions bytes ++ own rconPort random := fun e mem => OrderedDict.mem_ofList mem
  have canonical : ∀ e ∈ props rconPort random bytes, Canonical e := fun e mem =>
    canonical_props mem
  have lines : byteLines (provisionRcon rconPort random (some bytes)).2 =
      (props rconPort random bytes).map (fun e => bytesOf (render e)) ++ [[]] := by
    rw [provisionRcon_some]
    exact byteLines_written canonical
  have taken : ∀ line ∈ byteLines (provisionRcon rconPort random (some bytes)).2, ∀ l,
      entry line = some l → ∃ e ∈ props rconPort random bytes, e.1.head? ≠ some '!' ∧
        l = bytesOf (render e) := by
    intro line mem l found
    rw [lines] at mem
    rcases List.mem_append.mp mem with inside | inside
    · obtain ⟨e, there, rfl⟩ := List.mem_map.mp inside
      rw [entry_render (canonical e there)] at found
      split_ifs at found with mark
      exact ⟨e, there, mark, (Option.some.inj found).symm⟩
    · rw [List.mem_singleton.mp inside] at found
      cases found
  have single : ∀ line ∈ byteLines (provisionRcon rconPort random (some bytes)).2, ∀ l,
      entry line = some l → continued l = false := by
    intro line mem l found
    obtain ⟨e, there, noMark, rfl⟩ := taken line mem l found
    obtain ⟨-, written, -⟩ := written_all faithful (known e there)
    have shape : bytesOf (render e) = (bytesOf e.1 ++ [61]) ++ bytesOf e.2 := by
      rw [bytesOf_render, List.append_assoc, List.singleton_append]
    rw [shape, continued_append]
    · exact (written noMark).complete
    · intro b last
      rw [List.getLast?_concat] at last
      cases last
      decide
  rw [load_single single]
  constructor
  · intro line mem l found
    obtain ⟨e, there, noMark, rfl⟩ := taken line mem l found
    obtain ⟨-, -, seen⟩ := written_all faithful (known e there)
    have some' := seen noMark
    rw [reads, entry_render (canonical e there), if_neg noMark] at some'
    exact some'
  · rw [lines, List.filterMap_append, List.filterMap_map]
    exact (List.append_nil _).symm

/-- A file of plain lines keeps what it defines. -/
theorem preserved_faithful (faithful : Faithful bytes) :
    Preserved bytes (provisionRcon rconPort random (some bytes)).1
      (provisionRcon rconPort random (some bytes)).2 := by
  have split : ∀ name, latest ((props rconPort random bytes).filterMap reads) name =
      (latest ((own rconPort random).map fun e => (units e.1, units e.2)) name).or
        (latest ((definitions bytes).filterMap reads) name) := by
    intro name
    rw [latest_props faithful, List.filterMap_append, OrderedDict.latest_append, filterMap_own]
  refine ⟨_, load_written faithful, ?_, ?_, ?_, ?_⟩
  · rw [split, latest_own, if_neg (by decide), if_neg (by decide), if_pos rfl, Option.some_or]
  · rw [split, latest_own, if_neg (by decide), if_pos rfl, Option.some_or]
    rfl
  · rw [split, latest_own, if_pos rfl, Option.some_or]
    rfl
  · intro before loaded name other
    have different : ∀ key ∈ ownKeys, units key ≠ name := by
      rintro key mem rfl
      exact other (List.mem_map_of_mem mem)
    rw [split, before_faithful faithful loaded, latest_own, if_neg (different _ (by decide)),
      if_neg (different _ (by decide)), if_neg (different _ (by decide))]
    rfl

end

/-- A file as a server writes it. -/
def usual : List UInt8 :=
  Utf8.encode "#Minecraft server\nlevel-type=minecraft\\:flat\n\nenable-rcon = false"

theorem faithful_usual : Faithful usual := by
  have lines : byteLines usual = [Utf8.encode "#Minecraft server",
      Utf8.encode "level-type=minecraft\\:flat", [], Utf8.encode "enable-rcon = false"] := by
    decide +kernel
  have blank : ∀ b ∈ ([32] : List UInt8), white b = true := by
    intro b mem
    rw [List.mem_singleton.mp mem]
    rfl
  constructor
  · rw [lines]
    intro line mem
    simp only [List.mem_cons, List.not_mem_nil, or_false] at mem
    rcases mem with rfl | rfl | rfl | rfl
    · exact @Plain.comment [] 35 _ (fun _ mem => nomatch mem) (.inl rfl)
    · have form : Form (Utf8.encode "level-type") (Utf8.encode "minecraft\\:flat") := by
        constructor <;> decide +kernel
      exact @Plain.definition [] _ [] [] _ form
        (fun _ mem => nomatch mem) (fun _ mem => nomatch mem) (fun _ mem => nomatch mem)
    · exact Plain.blank fun _ mem => nomatch mem
    · have form : Form (Utf8.encode "enable-rcon") (Utf8.encode "false") := by
        constructor <;> decide +kernel
      exact @Plain.definition [] _ [32] [32] _ form
        (fun _ mem => nomatch mem) blank blank
  · have plain : (byteLines usual).all (fun line => (textOf line).all (!boundary ·)) = true := by
      decide +kernel
    intro line mem c inside
    have here := List.all_eq_true.mp (List.all_eq_true.mp plain line mem) c inside
    simpa using here
  · decide +kernel
  · decide +kernel

end McManager.Provision
