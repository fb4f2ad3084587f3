import McManager.Framework.CutText
import McManager.Infrastructure.EulaFile

/-! What the launch gate reads in `eula.txt` after any run is what has last been marked there. -/

namespace McManager.Eula

open Framework Provision Web

section Lines

variable {lines : List Text} {front tail last : Text}

theorem setting_eq (text : Text) : setting text = (split boundary text).findSome? eulaValue := by
  have nil : eulaValue [] = none := rfl
  rw [setting, splitlines]
  split_ifs with ended
  · have whole := List.dropLast_append_getLast? [] ended
    conv_rhs => rw [← whole, List.findSome?_append]
    simp [nil]
  · rfl

/-- The first line decides, unless it says nothing. -/
theorem setting_line (clean : ∀ c ∈ front, boundary c = false) (rest : Text) :
    setting (front ++ '\n' :: rest) = (eulaValue front).or (setting rest) := by
  rw [setting_eq, split_append clean (by decide), setting_eq, List.findSome?_cons]
  cases eulaValue front <;> rfl

/-- A line that is passed over. -/
def Comment (line : Text) : Prop := line.head? = some '#' ∧ ∀ c ∈ line, boundary c = false

theorem eulaValue_comment (h : front.head? = some '#') : eulaValue front = none := by
  have first := head?_trim_of_head (p := isSpace) (by decide) h
  rw [eulaValue, parseLine, if_pos (.inr (.inl first))]

theorem setting_written (comments : ∀ line ∈ lines, Comment line) (rest : Text) :
    setting (written lines ++ rest) = setting rest := by
  induction lines with
  | nil => rfl
  | cons line lines ih =>
    have h := comments line List.mem_cons_self
    have shape : written (line :: lines) ++ rest = line ++ '\n' :: (written lines ++ rest) := by
      simp [written]
    rw [shape, setting_line h.2, eulaValue_comment h.1, Option.none_or,
      ih fun l mem => comments l (List.mem_cons_of_mem _ mem)]

theorem eulaValue_tail (h : tail = [] ∨ tail = ['\uFFFD']) : eulaValue tail = none := by
  rcases h with rfl | rfl
  · rfl
  · decide

/-- Nothing is set while comments are written. -/
theorem setting_front (comments : ∀ line ∈ lines, Comment line) (before : front <+: written lines)
    (h : tail = [] ∨ tail = ['\uFFFD']) : setting (front ++ tail) = none := by
  have tailClean : ∀ c ∈ tail, boundary c = false := by
    rcases h with rfl | rfl
    · intro c mem
      cases mem
    · intro c mem
      rw [List.mem_singleton.mp mem]
      decide
  induction lines generalizing front with
  | nil =>
    have none' : front = [] := List.prefix_nil.mp before
    rw [none', List.nil_append, setting_eq, split_none tailClean, List.findSome?_cons,
      eulaValue_tail h]
    rfl
  | cons line lines ih =>
    have shape : written (line :: lines) = line ++ '\n' :: written lines := by simp [written]
    have comment := comments line List.mem_cons_self
    -- The text breaks off in this line.
    have here : front <+: line → setting (front ++ tail) = none := by
      rintro ⟨rest, same⟩
      have clean : ∀ c ∈ front ++ tail, boundary c = false := by
        intro c mem
        rcases List.mem_append.mp mem with mem | mem
        · exact comment.2 c (same ▸ List.mem_append_left rest mem)
        · exact tailClean c mem
      rw [setting_eq, split_none clean, List.findSome?_cons]
      cases front with
      | nil =>
        rw [List.nil_append, eulaValue_tail h]
        rfl
      | cons c front =>
        have first : (c :: front ++ tail).head? = some '#' := by
          rw [← comment.1, ← same]
          rfl
        rw [eulaValue_comment first]
        rfl
    rw [shape] at before
    rcases List.prefix_or_prefix_of_prefix before ⟨_, rfl⟩ with inside | ⟨more, rfl⟩
    · exact here inside
    · rw [List.prefix_append_right_inj] at before
      cases more with
      | nil =>
        apply here
        rw [List.append_nil]
      | cons c more =>
        obtain ⟨rfl, later⟩ := List.cons_prefix_cons.mp before
        rw [List.append_assoc, List.cons_append, setting_line comment.2,
          eulaValue_comment comment.1, Option.none_or,
          ih (fun l mem => comments l (List.mem_cons_of_mem _ mem)) later]

theorem noReturn_written (comments : ∀ line ∈ lines, Comment line) : '\r' ∉ written lines := by
  intro mem
  obtain ⟨line, inside, there⟩ := List.mem_flatMap.mp mem
  rcases List.mem_append.mp there with there | there
  · exact absurd ((comments line inside).2 _ there) (by decide)
  · exact absurd (List.mem_singleton.mp there) (by decide)

theorem readText_encode {text : Text} (h : '\r' ∉ text) :
    readText (Utf8.encode (String.ofList text)) = text := by
  rw [readText, Utf8.decode_encode, String.toList_ofList, newlines_none h]

/-- What is set by comments and one more line of which so many bytes have been written. -/
theorem setting_cut (comments : ∀ line ∈ lines, Comment line) (ascii : ∀ c ∈ last, c.utf8Size = 1)
    (noReturn : '\r' ∉ last) (k : Nat) :
    setting (readText ((Utf8.encode (String.ofList (written lines ++ last))).take k)) =
      setting (last.take (k - (Utf8.encode (String.ofList (written lines))).length)) := by
  rw [Utf8.encode_append]
  rcases Nat.le_total k (Utf8.encode (String.ofList (written lines))).length with short | reached
  · obtain ⟨front, tail, read, before, cut⟩ := Utf8.decode_take (written lines) k
    have clean : '\r' ∉ front ++ tail := by
      intro mem
      rcases List.mem_append.mp mem with mem | mem
      · exact noReturn_written comments (before.subset mem)
      · rcases cut with rfl | rfl
        · cases mem
        · exact absurd mem (by decide)
    rw [List.take_append_of_le_length short, readText, read, newlines_none clean,
      setting_front comments before cut, Nat.sub_eq_zero_of_le short]
    rfl
  · rw [List.take_append, List.take_of_length_le reached, Utf8.encode_ofList last,
      Utf8.take_ascii ascii, ← Utf8.encode_ofList, ← Utf8.encode_append]
    rw [readText_encode, setting_written comments]
    intro mem
    rcases List.mem_append.mp mem with mem | mem
    · exact noReturn_written comments mem
    · exact noReturn (List.mem_of_mem_take mem)

end Lines

theorem comment_notice : ∀ line ∈ notice, Comment line := by
  intro line mem
  simp only [notice, List.mem_cons, List.not_mem_nil, or_false] at mem
  rcases mem with rfl | rfl
  · exact ⟨rfl, List.forall_iff_forall_mem.mp (by decide)⟩
  · exact ⟨rfl, List.forall_iff_forall_mem.mp (by decide)⟩

theorem comment_signature {operatorId : Option String}
    (plain : ∀ id ∈ operatorId, ∀ c ∈ id.toList, boundary c = false) :
    ∀ line ∈ notice ++ signature operatorId, Comment line := by
  have operator : ∀ c ∈ "# Accepted by Operator: ".toList, boundary c = false :=
    List.forall_iff_forall_mem.mp (by decide)
  intro line mem
  rcases List.mem_append.mp mem with mem | mem
  · exact comment_notice line mem
  · rw [signature] at mem
    split at mem
    · rename_i id there
      have named := plain id (Option.filter_eq_some_iff.mp there).1
      simp only [List.mem_cons, List.not_mem_nil, or_false] at mem
      rcases mem with rfl | rfl
      · exact ⟨rfl, List.forall_iff_forall_mem.mp (by decide)⟩
      · refine ⟨rfl, fun c mem => ?_⟩
        rcases List.mem_append.mp mem with mem | mem
        · exact operator c mem
        · exact named c mem
    · cases mem

/-- No part of the line that is provisioned accepts. -/
theorem setting_false (k : Nat) :
    (setting (("eula=false".toList ++ ['\n']).take k)).any saysTrue = false := by
  have part : ∀ j < 12, (setting (("eula=false".toList ++ ['\n']).take j)).any saysTrue = false := by
    decide
  have length : ("eula=false".toList ++ ['\n']).length = 11 := rfl
  rw [List.take_eq_take_min, length]
  exact part _ (by omega)

/-- The line that accepts has to be there up to its end. -/
theorem setting_true (k : Nat) :
    (setting (("eula=true".toList ++ ['\n']).take k)).any saysTrue = decide (9 ≤ k) := by
  have part : ∀ j < 11, (setting (("eula=true".toList ++ ['\n']).take j)).any saysTrue =
      decide (9 ≤ j) := by decide
  have length : ("eula=true".toList ++ ['\n']).length = 10 := rfl
  rw [List.take_eq_take_min, length, part _ (by omega), decide_eq_decide]
  omega

theorem accepted_iff (bytes : List UInt8) :
    detectEula (some bytes) = .accepted ↔ (setting (readText bytes)).any saysTrue = true := by
  rw [detectEula]
  cases setting (readText bytes) with
  | none => simp
  | some value =>
    cases h : saysTrue value with
    | true => simp [h]
    | false => simp [h]

theorem written_append (lines : List Text) (last : Text) :
    written (lines ++ [last]) = written lines ++ (last ++ ['\n']) := by
  simp [written]

/-- A provisioned file never counts as accepted, however much of it has been written. -/
theorem not_accepted_provisioned (cut : Option Nat) :
    detectEula (some (reaching cut provisioned)) ≠ .accepted := by
  have part : ∀ k, detectEula (some (provisioned.take k)) ≠ .accepted := by
    intro k accepted
    have ascii : ∀ c ∈ "eula=false".toList ++ ['\n'], c.utf8Size = 1 :=
      List.forall_iff_forall_mem.mp (by decide)
    rw [accepted_iff, provisioned, written_append, setting_cut comment_notice ascii (by decide)]
      at accepted
    rw [setting_false] at accepted
    cases accepted
  cases cut with
  | some k => exact part k
  | none =>
    have whole := part provisioned.length
    rwa [List.take_length] at whole

/-- An acceptance that breaks off counts if all but the end of its last line has been written. -/
theorem accepted_cut {operatorId : Option String}
    (plain : ∀ id ∈ operatorId, ∀ c ∈ id.toList, boundary c = false) (k : Nat) :
    detectEula (some ((acceptance operatorId).take k)) = .accepted ↔
      (acceptance operatorId).length ≤ k + 1 := by
  have length : (acceptance operatorId).length =
      (Utf8.encode (String.ofList (written (notice ++ signature operatorId)))).length + 10 := by
    rw [acceptance, written_append, Utf8.encode_append, List.length_append]
    rfl
  have ascii : ∀ c ∈ "eula=true".toList ++ ['\n'], c.utf8Size = 1 :=
    List.forall_iff_forall_mem.mp (by decide)
  rw [accepted_iff, length, acceptance, written_append,
    setting_cut (comment_signature plain) ascii (by decide), setting_true, decide_eq_true_iff]
  omega

/-- After the beginning of a comment the first line says nothing. -/
theorem setting_comment {front : Text} (comment : Comment front) (text : Text) :
    setting (front ++ text) = ((split boundary text).tail).findSome? eulaValue := by
  rw [setting_eq, split_prepend comment.2]
  obtain ⟨piece, pieces, same⟩ := List.exists_cons_of_ne_nil
    (split_ne_nil text : split boundary text ≠ [])
  have first : (front ++ piece).head? = some '#' := by
    have begins := comment.1
    cases front with
    | nil => cases begins
    | cons c front => exact begins
  rw [same, List.modifyHead_cons, List.findSome?_cons, eulaValue_comment first, List.tail_cons]

/-- The lines of an id, and after them the one that accepts. -/
theorem later_lines (id : Text) : ∃ front,
    (newlines '\r' '\n' (id ++ '\n' :: "eula=true\n".toList)) = front ++ '\n' :: "eula=true\n".toList ∧
      ((split boundary (newlines '\r' '\n' id)).tail).findSome? eulaValue =
        ((split boundary front).tail).findSome? eulaValue := by
  rw [newlines, newlinesFrom_between]
  cases flag : returned '\r' false id with
  | false => exact ⟨newlinesFrom '\r' '\n' false id, rfl, rfl⟩
  | true =>
    obtain ⟨front, same⟩ : ∃ front, newlinesFrom '\r' '\n' false id = front ++ ['\n'] :=
      newlinesFrom_returned false flag
    refine ⟨front, ?_, ?_⟩
    · rw [same, List.append_assoc]
      rfl
    · have pieces : split boundary (front ++ ['\n']) = split boundary front ++ [[]] :=
        split_between front (by decide) []
      have nil : eulaValue [] = none := rfl
      rw [same, pieces, List.tail_append_of_ne_nil (split_ne_nil front), List.findSome?_append,
        List.findSome?_cons, nil]
      simp

/-- What a whole acceptance sets: what the later lines of the operator id say comes first. -/
theorem setting_acceptance (id : String) :
    setting (readText (acceptance (some id))) =
      (((split boundary (newlines '\r' '\n' id.toList)).tail).findSome? eulaValue).or
        (some "true".toList) := by
  by_cases empty : id = ""
  · subst empty
    decide +kernel
  have signed : notice ++ signature (some id) ++ ["eula=true".toList] =
      (notice ++ ["# Explicitly accepted via mcmanager audit pipeline".toList]) ++
        ["# Accepted by Operator: ".toList ++ id.toList, "eula=true".toList] := by
    have kept : (some id).filter (· ≠ "") = some id := Option.filter_eq_some_iff.mpr ⟨rfl, by simp [empty]⟩
    rw [signature, kept, List.append_assoc, List.append_assoc]
    rfl
  have comments : ∀ line ∈ notice ++ ["# Explicitly accepted via mcmanager audit pipeline".toList],
      Comment line := by
    intro line mem
    rcases List.mem_append.mp mem with mem | mem
    · exact comment_notice line mem
    · rw [List.mem_singleton.mp mem]
      exact ⟨rfl, List.forall_iff_forall_mem.mp (by decide)⟩
  have shape : written (notice ++ signature (some id) ++ ["eula=true".toList]) =
      (written (notice ++ ["# Explicitly accepted via mcmanager audit pipeline".toList]) ++
        "# Accepted by Operator: ".toList) ++ (id.toList ++ '\n' :: "eula=true\n".toList) := by
    rw [signed]
    simp [written]
  have clean : '\r' ∉ written (notice ++ ["# Explicitly accepted via mcmanager audit pipeline".toList]) ++
      "# Accepted by Operator: ".toList := by
    intro mem
    rcases List.mem_append.mp mem with mem | mem
    · exact noReturn_written comments mem
    · revert mem
      decide
  obtain ⟨front, lines, same⟩ := later_lines id.toList
  have read : readText (acceptance (some id)) =
      written (notice ++ ["# Explicitly accepted via mcmanager audit pipeline".toList]) ++
        ("# Accepted by Operator: ".toList ++ (front ++ '\n' :: "eula=true\n".toList)) := by
    rw [acceptance, shape, readText, Utf8.decode_encode, String.toList_ofList, newlines_after clean,
      lines, List.append_assoc]
  have last : (split boundary "eula=true\n".toList).findSome? eulaValue = some "true".toList := by
    decide
  have operator : Comment "# Accepted by Operator: ".toList :=
    ⟨rfl, List.forall_iff_forall_mem.mp (by decide)⟩
  rw [read, setting_written comments, setting_comment operator, split_between front (by decide),
    List.tail_append_of_ne_nil (split_ne_nil front), List.findSome?_append, last, same]

theorem accepted_whole (operatorId : Option String) :
    detectEula (some (acceptance operatorId)) = .accepted ↔ operatorId.all harmless = true := by
  rw [accepted_iff]
  cases operatorId with
  | none => exact ⟨fun _ => rfl, fun _ => by decide +kernel⟩
  | some id =>
    have own : saysTrue "true".toList = true := by decide
    rw [setting_acceptance, Option.all_some, harmless]
    cases ((split boundary (newlines '\r' '\n' id.toList)).tail).findSome? eulaValue with
    | none => exact iff_of_true own rfl
    | some value => rfl

variable {file : Option (List UInt8)} {e : Event}

/-- After each event the gate finds what the event marks. -/
theorem step_mark (plain : e.plain = true) {accepted : Bool}
    (before : detectEula file = .accepted ↔ accepted = true) :
    detectEula (e.step file) = .accepted ↔ e.mark accepted = true := by
  cases e with
  | outside file' => simp [Event.step, Event.mark]
  | provision cut =>
    cases file with
    | some bytes => exact before
    | none =>
      have never : accepted ≠ true := fun was => by cases before.mpr was
      exact iff_of_false (not_accepted_provisioned cut) never
  | accept operatorId cut =>
    cases cut with
    | none => exact accepted_whole operatorId
    | some k =>
      have named : ∀ id ∈ operatorId, ∀ c ∈ id.toList, boundary c = false := by
        intro id mem
        rw [Option.mem_def] at mem
        subst mem
        simpa [Event.plain] using plain
      rw [Event.mark, decide_eq_true_iff]
      exact accepted_cut named k

end McManager.Eula
