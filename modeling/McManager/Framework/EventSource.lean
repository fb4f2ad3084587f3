import McManager.Framework.CutText

/-! Event streams (server-sent events): frames written for a reader, and the reader. -/

namespace McManager.Framework.EventSource

abbrev Text := List Char

/-- An event as the reader dispatches it. -/
structure Message where
  type : Text
  data : Text
  lastEventId : Text
  deriving DecidableEq

/-- The state of a reader: the buffers of the event it reads, what a reconnection goes by, and
what it has dispatched. -/
structure Reader where
  data : Text := []
  type : Text := []
  idBuffer : Text := []
  lastEventId : Text := []
  retry : Option Nat := none
  dispatched : List Message := []

namespace Reader

/-- Interpret a field. -/
def field (r : Reader) (name value : Text) : Reader :=
  if name = "event".toList then { r with type := value }
  else if name = "data".toList then { r with data := r.data ++ value ++ ['\n'] }
  else if name = "id".toList then if '\x00' ∈ value then r else { r with idBuffer := value }
  else if name = "retry".toList then
    if value ≠ [] ∧ value.all Char.isDigit then
      { r with retry := some (value.foldl (fun n c => 10 * n + (c.toNat - 48)) 0) }
    else r
  else r

/-- The end of an event; one without data is not dispatched. -/
def dispatch (r : Reader) : Reader :=
  if r.data = [] then { r with type := [], lastEventId := r.idBuffer }
  else
    { r with
      data := [], type := [], lastEventId := r.idBuffer
      dispatched := r.dispatched ++ [{
        type := if r.type = [] then "message".toList else r.type
        data := r.data.dropLast
        lastEventId := r.idBuffer }] }

/-- Interpret a line. -/
def line (r : Reader) (l : Text) : Reader :=
  if l = [] then r.dispatch
  else
    match l.dropWhile (· ≠ ':') with
    | [] => r.field l []
    | _ :: value =>
      if l.head? = some ':' then r
      else r.field (l.takeWhile (· ≠ ':')) (if value.head? = some ' ' then value.tail else value)

end Reader

/-- The lines of a text that have an end. -/
def lines (text : Text) : List Text := (split (· = '\n') (newlines '\r' '\n' text)).dropLast

def feed (r : Reader) (text : Text) : Reader := (lines text).foldl Reader.line r

/-- Read the stream of a connection, with the last event id from before it; what follows the last
line end is dropped. -/
def read (lastEventId text : Text) : Reader :=
  feed { lastEventId } (if text.head? = some (Char.ofNat 0xfeff) then text.tail else text)

/-- The text of lines. -/
def unlines : List Text → Text
  | [] => []
  | l :: ls => l ++ '\n' :: unlines ls

/-- What is written for a reader. -/
inductive Frame
  | comment (text : Text)
  | event (id : Option Text) (type data : Text) (retry : Option Nat)

namespace Frame

/-- The lines of a frame before the one that ends it. -/
def lines : Frame → List Text
  | comment text => [':' :: ' ' :: text]
  | event id type data retry =>
    (id.map fun id => "id: ".toList ++ id).toList ++
      ["event: ".toList ++ type, "data: ".toList ++ data] ++
      (retry.map fun n => "retry: ".toList ++ Nat.toDigits 10 n).toList

def text (f : Frame) : Text := unlines (f.lines ++ [[]])

/-- No part of the frame holds a line end, and its event has a type. -/
def Plain : Frame → Prop
  | comment text => '\n' ∉ text ∧ '\r' ∉ text
  | event id type data _ =>
    (∀ i ∈ id, '\n' ∉ i ∧ '\r' ∉ i ∧ '\x00' ∉ i) ∧
      (type ≠ [] ∧ '\n' ∉ type ∧ '\r' ∉ type) ∧ '\n' ∉ data ∧ '\r' ∉ data

end Frame

/-- What is to be dispatched for frames, after a last event id. -/
def messages : Text → List Frame → List Message
  | _, [] => []
  | last, .comment _ :: fs => messages last fs
  | last, .event id type data _ :: fs => ⟨type, data, id.getD last⟩ :: messages (id.getD last) fs

/-- The last event id behind frames. -/
def lastId : Text → List Frame → Text
  | last, [] => last
  | last, .comment _ :: fs => lastId last fs
  | last, .event id _ _ _ :: fs => lastId (id.getD last) fs

/-- How many of the texts are whole in the first so many characters of them all. -/
def whole : List Text → Nat → Nat
  | [], _ => 0
  | t :: ts, k => if t.length ≤ k then whole ts (k - t.length) + 1 else 0

section Lines

theorem clean_split {l : Text} (clean : '\n' ∉ l) : split (· = '\n') l = [l] := by
  apply split_none
  intro c mem
  have other : c ≠ '\n' := fun same => clean (same ▸ mem)
  simpa using other

theorem lines_unended {l : Text} (clean : '\n' ∉ l ∧ '\r' ∉ l) : lines l = [] := by
  rw [lines, newlines_none clean.2, clean_split clean.1]
  rfl

theorem lines_ended {l : Text} (clean : '\n' ∉ l ∧ '\r' ∉ l) (rest : Text) :
    lines (l ++ '\n' :: rest) = l :: lines rest := by
  have marked : '\r' ∉ l ++ ['\n'] := by simp [clean.2]
  have apart : newlines '\r' '\n' (l ++ '\n' :: rest) = l ++ '\n' :: newlines '\r' '\n' rest := by
    have same : newlines '\r' '\n' ((l ++ ['\n']) ++ rest) = _ := newlines_after marked rest
    simpa using same
  have some : split (· = '\n') (newlines '\r' '\n' rest) ≠ [] := split_ne_nil _
  rw [lines, apart, split_between _ (by simp) _, clean_split clean.1, List.singleton_append,
    List.dropLast_cons_of_ne_nil some, lines]

theorem feed_unended (r : Reader) {l : Text} (clean : '\n' ∉ l ∧ '\r' ∉ l) : feed r l = r := by
  rw [feed, lines_unended clean]
  rfl

theorem feed_ended (r : Reader) {l : Text} (clean : '\n' ∉ l ∧ '\r' ∉ l) (rest : Text) :
    feed r (l ++ '\n' :: rest) = feed (r.line l) rest := by
  rw [feed, lines_ended clean]
  rfl

/-- Whole lines and what follows them. -/
theorem feed_lines (r : Reader) {ls : List Text} (clean : ∀ l ∈ ls, '\n' ∉ l ∧ '\r' ∉ l)
    (rest : Text) : feed r (unlines ls ++ rest) = feed (ls.foldl Reader.line r) rest := by
  induction ls generalizing r with
  | nil => rfl
  | cons l ls ih =>
    have first := clean l List.mem_cons_self
    have others := ih (r.line l) fun l' mem => clean l' (List.mem_cons_of_mem l mem)
    rw [unlines, List.append_assoc, List.cons_append, feed_ended r first, others]
    rfl

end Lines

section Cuts

/-- What a reader has told: the events, and the id for a reconnection. -/
def Reader.told (r : Reader) : List Message × Text := (r.dispatched, r.lastEventId)

theorem told_field (r : Reader) (name value : Text) : (r.field name value).told = r.told := by
  unfold Reader.field
  split_ifs <;> rfl

theorem told_line (r : Reader) {l : Text} (more : l ≠ []) : (r.line l).told = r.told := by
  rw [Reader.line, if_neg more]
  split
  · exact told_field r _ _
  · split_ifs
    · rfl
    · exact told_field r _ _
    · exact told_field r _ _

/-- Lines before an empty one tell nothing, wherever their text breaks off. -/
theorem told_cut (r : Reader) {ls : List Text} (clean : ∀ l ∈ ls, '\n' ∉ l ∧ '\r' ∉ l)
    (more : ∀ l ∈ ls, l ≠ []) {k : Nat} (short : k < (unlines (ls ++ [[]])).length) :
    (feed r ((unlines (ls ++ [[]])).take k)).told = r.told := by
  induction ls generalizing r k with
  | nil =>
    have none : k = 0 := by
      simp only [unlines, List.nil_append, List.length_cons, List.length_nil] at short
      omega
    rw [none, List.take_zero, feed_unended r (by simp)]
  | cons l ls ih =>
    have first := clean l List.mem_cons_self
    have shape : unlines (l :: ls ++ [[]]) = (l ++ ['\n']) ++ unlines (ls ++ [[]]) := by
      simp [unlines]
    rw [shape] at short ⊢
    simp only [List.length_append, List.length_singleton] at short
    rcases Nat.lt_or_ge l.length k with beyond | within
    · have fits : (l ++ ['\n']).length ≤ k := by
        simp only [List.length_append, List.length_singleton]
        omega
      have cut : ((l ++ ['\n']) ++ unlines (ls ++ [[]])).take k =
          l ++ '\n' :: (unlines (ls ++ [[]])).take (k - (l.length + 1)) := by
        rw [List.take_append, List.take_of_length_le fits]
        simp
      have room : k - (l.length + 1) < (unlines (ls ++ [[]])).length := by omega
      have rest := ih (r.line l) (fun l' mem => clean l' (List.mem_cons_of_mem l mem))
        (fun l' mem => more l' (List.mem_cons_of_mem l mem)) room
      rw [cut, feed_ended r first, rest]
      exact told_line r (more l List.mem_cons_self)
    · have cut : ((l ++ ['\n']) ++ unlines (ls ++ [[]])).take k = l.take k := by
        rw [List.append_assoc, List.take_append_of_le_length within]
      have part : '\n' ∉ l.take k ∧ '\r' ∉ l.take k :=
        ⟨fun mem => first.1 (List.mem_of_mem_take mem), fun mem => first.2 (List.mem_of_mem_take mem)⟩
      rw [cut, feed_unended r part]

end Cuts

section Frames

/-- A reader between two events. -/
def Reader.Idle (r : Reader) : Prop := r.data = [] ∧ r.type = []

theorem line_comment (r : Reader) (text : Text) : r.line (':' :: ' ' :: text) = r := by
  simp [Reader.line]

/-- A line with a field whose value is set off by a blank. -/
theorem line_field (r : Reader) {name : Text} (more : name ≠ []) (plain : ':' ∉ name) (value : Text) :
    r.line (name ++ ':' :: ' ' :: value) = r.field name value := by
  have word : ∀ c ∈ name, decide (c ≠ ':') = true := by
    intro c mem
    have other : c ≠ ':' := fun same => plain (same ▸ mem)
    simpa using other
  have head : (name ++ ':' :: ' ' :: value).head? ≠ some ':' := by
    obtain ⟨c, cs, rfl⟩ := List.exists_cons_of_ne_nil more
    have other : c ≠ ':' := fun same => plain (same ▸ List.mem_cons_self)
    simpa using other
  have back : (name ++ ':' :: ' ' :: value).dropWhile (· ≠ ':') = ':' :: ' ' :: value := by
    rw [List.dropWhile_append_of_pos word]
    simp
  have front : (name ++ ':' :: ' ' :: value).takeWhile (· ≠ ':') = name := by
    rw [List.takeWhile_append_of_pos word]
    simp
  rw [Reader.line, if_neg (by simp), back, front]
  exact if_neg head

theorem lines_id (r : Reader) {id : Option Text} (plain : ∀ i ∈ id, '\x00' ∉ i) :
    ((id.map fun i => "id: ".toList ++ i).toList).foldl Reader.line r =
      { r with idBuffer := id.getD r.idBuffer } := by
  cases id with
  | none => rfl
  | some i =>
    have read := line_field r (by simp : "id".toList ≠ []) (by simp) i
    have kept : r.field "id".toList i = { r with idBuffer := i } := by
      simp [Reader.field, plain i rfl]
    exact read.trans kept

theorem lines_retry (r : Reader) (retry : Option Nat) :
    ∃ time, ((retry.map fun n => "retry: ".toList ++ Nat.toDigits 10 n).toList).foldl Reader.line r =
      { r with retry := time } := by
  cases retry with
  | none => exact ⟨r.retry, rfl⟩
  | some n =>
    have read := line_field r (by simp : "retry".toList ≠ []) (by simp) (Nat.toDigits 10 n)
    have kept : ∃ time, r.field "retry".toList (Nat.toDigits 10 n) = { r with retry := time } := by
      rw [Reader.field, if_neg (by decide), if_neg (by decide), if_neg (by decide), if_pos rfl]
      split_ifs
      · exact ⟨_, rfl⟩
      · exact ⟨r.retry, rfl⟩
    obtain ⟨time, same⟩ := kept
    exact ⟨time, read.trans same⟩

variable {f : Frame}

theorem clean_lines (plain : f.Plain) : ∀ l ∈ f.lines, ('\n' ∉ l ∧ '\r' ∉ l) ∧ l ≠ [] := by
  intro l mem
  cases f with
  | comment text =>
    obtain rfl := List.mem_singleton.mp mem
    simp [plain.1, plain.2]
  | event id type data retry =>
    obtain ⟨names, kind, content⟩ := plain
    rw [Frame.lines, List.mem_append, List.mem_append] at mem
    obtain (mem | mem) | mem := mem
    · obtain ⟨i, there, rfl⟩ : ∃ i, id = some i ∧ "id: ".toList ++ i = l := by simpa using mem
      have clean := names i there
      simp [clean.1, clean.2.1]
    · obtain rfl | rfl : l = "event: ".toList ++ type ∨ l = "data: ".toList ++ data := by
        simpa using mem
      · simp [kind.2.1, kind.2.2]
      · simp [content.1, content.2]
    · obtain ⟨n, -, rfl⟩ : ∃ n, retry = some n ∧ "retry: ".toList ++ Nat.toDigits 10 n = l := by
        simpa using mem
      have digits : ∀ c : Char, c.isDigit = false → c ∉ Nat.toDigits 10 n := by
        intro c other there
        have digit := Nat.isDigit_of_mem_toDigits (by omega) (by omega) there
        rw [digit] at other
        cases other
      simp [digits '\n' (by decide), digits '\r' (by decide)]

/-- A reader behind a whole frame. -/
theorem lines_frame (r : Reader) (idle : r.Idle) (plain : f.Plain) :
    ∃ time, (f.lines ++ [[]]).foldl Reader.line r = { r with
      idBuffer := lastId r.idBuffer [f], lastEventId := lastId r.idBuffer [f], retry := time
      dispatched := r.dispatched ++ messages r.idBuffer [f] } := by
  obtain ⟨noData, noType⟩ := idle
  cases f with
  | comment text =>
    have skipped : (Frame.lines (.comment text) ++ [[]]).foldl Reader.line r = r.dispatch := by
      rw [Frame.lines, List.singleton_append, List.foldl_cons, line_comment]
      rfl
    rw [skipped, Reader.dispatch, if_pos noData]
    exact ⟨r.retry, by simp [messages, lastId, noType]⟩
  | event id type data retry =>
    obtain ⟨names, kind, content⟩ := plain
    have first := lines_id r fun i mem => (names i mem).2.2
    have second : Reader.line { r with idBuffer := id.getD r.idBuffer }
        ("event: ".toList ++ type) = { r with idBuffer := id.getD r.idBuffer, type := type } :=
      line_field _ (by simp : "event".toList ≠ []) (by simp) type
    have third : Reader.line { r with idBuffer := id.getD r.idBuffer, type := type }
        ("data: ".toList ++ data) = { r with
          idBuffer := id.getD r.idBuffer, type := type, data := r.data ++ data ++ ['\n'] } :=
      line_field _ (by simp : "data".toList ≠ []) (by simp) data
    obtain ⟨time, last⟩ := lines_retry { r with
      idBuffer := id.getD r.idBuffer, type := type, data := r.data ++ data ++ ['\n'] } retry
    have fields : ["event: ".toList ++ type, "data: ".toList ++ data].foldl Reader.line
        { r with idBuffer := id.getD r.idBuffer } = { r with
          idBuffer := id.getD r.idBuffer, type := type, data := r.data ++ data ++ ['\n'] } := by
      rw [List.foldl_cons, second, List.foldl_cons, third, List.foldl_nil]
    have whole : (Frame.lines (.event id type data retry) ++ [[]]).foldl Reader.line r =
        Reader.dispatch { r with
          idBuffer := id.getD r.idBuffer, type := type, data := r.data ++ data ++ ['\n']
          retry := time } := by
      rw [Frame.lines, List.foldl_append, List.foldl_append, List.foldl_append, first, fields, last]
      rfl
    rw [whole, Reader.dispatch, if_neg (by simp)]
    exact ⟨time, by simp [messages, lastId, noData, noType, kind.1]⟩

/-- The last event id of a reader behind whole frames. -/
def Reader.lastBehind (r : Reader) : List Frame → Text
  | [] => r.lastEventId
  | f :: fs => lastId r.idBuffer (f :: fs)

/-- Frames whose text breaks off anywhere tell the events of those that are whole. -/
theorem told_frames {fs : List Frame} (plain : ∀ f ∈ fs, f.Plain) (r : Reader) (idle : r.Idle)
    (k : Nat) :
    (feed r ((fs.flatMap Frame.text).take k)).told =
      (r.dispatched ++ messages r.idBuffer (fs.take (whole (fs.map Frame.text) k)),
        r.lastBehind (fs.take (whole (fs.map Frame.text) k))) := by
  induction fs generalizing r k with
  | nil => simp [feed_unended r (l := []) (by simp), Reader.told, whole, messages, Reader.lastBehind]
  | cons f fs ih =>
    have clean := clean_lines (plain f List.mem_cons_self)
    have others : ∀ g ∈ fs, g.Plain := fun g mem => plain g (List.mem_cons_of_mem f mem)
    rw [List.flatMap_cons, List.map_cons, whole]
    split_ifs with fits
    · obtain ⟨time, behind⟩ := lines_frame r idle (plain f List.mem_cons_self)
      have read : feed r ((f.text ++ fs.flatMap Frame.text).take k) =
          feed ((f.lines ++ [[]]).foldl Reader.line r)
            ((fs.flatMap Frame.text).take (k - f.text.length)) := by
        rw [List.take_append, List.take_of_length_le fits]
        refine feed_lines r ?_ _
        intro l mem
        rcases List.mem_append.mp mem with mem | mem
        · exact (clean l mem).1
        · simp [List.mem_singleton.mp mem]
      have still : ((f.lines ++ [[]]).foldl Reader.line r).Idle := by
        rw [behind]
        exact idle
      rw [read, ih others _ still, behind, List.take_succ_cons]
      cases fs.take (whole (fs.map Frame.text) (k - f.text.length)) <;> cases f <;>
        simp [messages, lastId, Reader.lastBehind]
    · have short : k < (unlines (f.lines ++ [[]])).length := Nat.lt_of_not_le fits
      have cut : (f.text ++ fs.flatMap Frame.text).take k = (unlines (f.lines ++ [[]])).take k :=
        List.take_append_of_le_length (Nat.le_of_lt short)
      rw [cut, told_cut r (fun l mem => (clean l mem).1) (fun l mem => (clean l mem).2) short]
      simp [Reader.told, messages, Reader.lastBehind]

theorem Frame.text_ne_nil (f : Frame) : f.text ≠ [] := by
  cases f with
  | comment text => exact List.cons_ne_nil _ _
  | event id type data retry =>
    cases id with
    | none => exact List.cons_ne_nil _ _
    | some i => exact List.cons_ne_nil _ _

theorem head_frame (f : Frame) : f.text.head? ≠ some (Char.ofNat 0xfeff) := by
  have other : ∀ c ∈ [':', 'i', 'e'], c ≠ Char.ofNat 0xfeff := by simp
  obtain ⟨c, mem, head⟩ : ∃ c ∈ [':', 'i', 'e'], f.text.head? = some c := by
    cases f with
    | comment text => exact ⟨':', by simp, rfl⟩
    | event id type data retry =>
      cases id with
      | none => exact ⟨'e', by simp, rfl⟩
      | some i => exact ⟨'i', by simp, rfl⟩
  rw [head]
  exact fun same => other c mem (Option.some.inj same)

/-- A stream of frames, read up to any character of it. -/
theorem told_read {fs : List Frame} (plain : ∀ f ∈ fs, f.Plain) (last : Text) (k : Nat) :
    (read last ((fs.flatMap Frame.text).take k)).told =
      (messages [] (fs.take (whole (fs.map Frame.text) k)),
        Reader.lastBehind { lastEventId := last } (fs.take (whole (fs.map Frame.text) k))) := by
  have start : ((fs.flatMap Frame.text).take k).head? ≠ some (Char.ofNat 0xfeff) := by
    cases fs with
    | nil => simp
    | cons f fs =>
      cases k with
      | zero => simp
      | succ k =>
        have front : (((f :: fs).flatMap Frame.text).take (k + 1)).head? = f.text.head? := by
          obtain ⟨c, cs, same⟩ := List.exists_cons_of_ne_nil f.text_ne_nil
          simp [same]
        rw [front]
        exact head_frame f
  rw [read, if_neg start]
  exact told_frames plain { lastEventId := last } ⟨rfl, rfl⟩ k

end Frames

end McManager.Framework.EventSource
