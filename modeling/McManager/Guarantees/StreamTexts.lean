import McManager.Guarantees.JsonRoundTrip
import McManager.Guarantees.StreamSteps

/-! The frames on the wire, and what a page makes of them. -/

namespace McManager.Realtime

open Framework EventSource JsonText

/-- The name of an event as the code writes it: one line, and not the name of an error. -/
def PlainName (name : String) : Prop :=
  (name ≠ "" ∧ '\n' ∉ name.toList ∧ '\r' ∉ name.toList) ∧ name ≠ "stream.error"

def StreamEvent.Written (e : StreamEvent) : Prop := PlainName e.event ∧ Sound (.obj e.data)

/-- The payload a page has of a published event. -/
def StreamEvent.payload (e : StreamEvent) : Payload := ⟨e.event, .obj e.data, some (toString e.sequence)⟩

/-- The event a reader has of a published one. -/
def StreamEvent.message (e : StreamEvent) : Message where
  type := e.event.toList
  data := (dumps (.obj e.data)).toList
  lastEventId := Nat.toDigits 10 e.sequence

/-- The frame of what the loop yields. -/
def Output.written : Output → Frame
  | .frame e => .event (some (Nat.toDigits 10 e.sequence)) e.event.toList
      (dumps (.obj e.data)).toList none
  | .ping => .comment "ping".toList
  | .expired => .event none "stream.error".toList
      (dumps (.obj [("code", .str "AUTH_SESSION_EXPIRED")])).toList none

def snapshotWritten (name : String) (payload : Web.Body) : Frame :=
  .event (some ['0']) name.toList (dumps (.obj payload)).toList (some 3000)

section Printable

/-- A character of printable ASCII. -/
def printable (c : Char) : Bool := 32 ≤ c.toNat && c.toNat ≤ 126

theorem printable_hex4 (n : Nat) : ∀ c ∈ hex4 n, printable c = true := by
  have digits : ∀ d < 16, printable (Nat.digitChar d) = true := by decide
  intro c mem
  obtain ⟨d, there, rfl⟩ := List.mem_map.mp mem
  refine digits d ?_
  simp only [List.mem_cons, List.not_mem_nil, or_false] at there
  omega

theorem printable_escaped (c : Char) : ∀ d ∈ escaped c, printable d = true := by
  have marks : ∀ d ∈ ['"', '\\', 'n', 'r', 't', 'b', 'f', 'u'], printable d = true :=
    List.forall_iff_forall_mem.mp (by decide)
  unfold escaped
  intro d mem
  split_ifs at mem with h₁ h₂ h₃ h₄ h₅ h₆ h₇ h₈ h₉
  all_goals try exact marks d (by simp only [List.mem_cons, List.not_mem_nil, or_false] at mem ⊢; grind)
  · obtain rfl := List.mem_singleton.mp mem
    simpa [printable] using h₈
  · obtain rfl | rfl | mem : d = '\\' ∨ d = 'u' ∨ d ∈ hex4 c.toNat := by simpa using mem
    · rfl
    · rfl
    · exact printable_hex4 _ d mem
  · simp only [List.cons_append, List.mem_cons, List.mem_append] at mem
    obtain rfl | rfl | mem | rfl | rfl | mem := mem
    · rfl
    · rfl
    · exact printable_hex4 _ d mem
    · rfl
    · rfl
    · exact printable_hex4 _ d mem

theorem printable_quote (s : String) : ∀ c ∈ quote s, printable c = true := by
  intro c mem
  rw [quote, List.mem_cons, List.mem_append, List.mem_flatMap, List.mem_singleton] at mem
  obtain rfl | ⟨d, -, mem⟩ | rfl := mem
  · rfl
  · exact printable_escaped d c mem
  · rfl

theorem printable_numberChar {c : Char} (h : numberChar c = true) : printable c = true := by
  simp only [numberChar, Bool.or_eq_true, decide_eq_true_eq] at h
  obtain ((((digit | rfl) | rfl) | rfl) | rfl) | rfl := h
  · have range := Char.isDigit_iff_toNat.mp digit
    have low : 48 ≤ c.toNat := range.1
    have high : c.toNat ≤ 57 := range.2
    simp only [printable, Bool.and_eq_true, decide_eq_true_eq]
    omega
  all_goals rfl

mutual

theorem printable_render : (v : Web.Json) → Sound v → ∀ c ∈ render 0 v, printable c = true
  | .null, _ => List.forall_iff_forall_mem.mp (by decide)
  | .bool true, _ => List.forall_iff_forall_mem.mp (by decide)
  | .bool false, _ => List.forall_iff_forall_mem.mp (by decide)
  | .int n, _ => by
    intro c mem
    rw [render] at mem
    exact printable_numberChar (numberChar_toString n c mem)
  | .float text, sound => by
    intro c mem
    rw [render] at mem
    rw [Sound, floatLiteral] at sound
    simp only [Bool.and_eq_true, List.all_eq_true] at sound
    exact printable_numberChar (sound.1.1.1 c mem)
  | .str s, _ => by
    rw [render]
    exact printable_quote s
  | .arr vs, sound => by
    intro c mem
    rw [render, List.mem_cons] at mem
    rw [Sound] at sound
    obtain rfl | mem := mem
    · rfl
    · exact printable_renderItems vs sound c mem
  | .obj ms, sound => by
    intro c mem
    rw [render, List.mem_cons] at mem
    rw [Sound] at sound
    obtain rfl | mem := mem
    · rfl
    · exact printable_renderMembers ms sound.2 c mem

theorem printable_renderItems : (vs : List Web.Json) → SoundItems vs →
    ∀ c ∈ renderItems 0 vs, printable c = true
  | [], _ => List.forall_iff_forall_mem.mp (by decide)
  | [v], sound => by
    intro c mem
    rw [renderItems, List.mem_append, List.mem_singleton] at mem
    obtain mem | rfl := mem
    · exact printable_render v sound.1 c mem
    · rfl
  | v :: w :: vs, sound => by
    intro c mem
    rw [renderItems, List.replicate_zero, List.nil_append, List.mem_append, List.mem_cons] at mem
    obtain mem | rfl | mem := mem
    · exact printable_render v sound.1 c mem
    · rfl
    · exact printable_renderItems (w :: vs) sound.2 c mem

theorem printable_renderMembers : (ms : List (String × Web.Json)) → SoundMembers ms →
    ∀ c ∈ renderMembers 0 ms, printable c = true
  | [], _ => List.forall_iff_forall_mem.mp (by decide)
  | [(k, v)], sound => by
    intro c mem
    rw [renderMembers, List.replicate_zero, List.nil_append, List.mem_append, List.mem_cons,
      List.mem_append, List.mem_singleton] at mem
    obtain mem | rfl | mem | rfl := mem
    · exact printable_quote k c mem
    · rfl
    · exact printable_render v sound.1 c mem
    · rfl
  | (k, v) :: (l, w) :: ms, sound => by
    intro c mem
    rw [renderMembers, List.replicate_zero, List.nil_append, List.nil_append, List.mem_append,
      List.mem_cons, List.mem_append, List.mem_cons] at mem
    obtain mem | rfl | mem | rfl | mem := mem
    · exact printable_quote k c mem
    · rfl
    · exact printable_render v sound.1 c mem
    · rfl
    · exact printable_renderMembers ((l, w) :: ms) sound.2 c mem

end

/-- A dumped value is one line. -/
theorem dumps_line {v : Web.Json} (sound : Sound v) :
    '\n' ∉ (dumps v).toList ∧ '\r' ∉ (dumps v).toList := by
  have all := printable_render v sound
  rw [toList_dumps]
  exact ⟨fun mem => absurd (all _ mem) (by decide), fun mem => absurd (all _ mem) (by decide)⟩

end Printable

section Texts

theorem digits_text (n : Nat) : (toString n).toList = Nat.toDigits 10 n := Nat.toList_repr

theorem encode_text (e : StreamEvent) : e.encode.toList = (Output.frame e).written.text := by
  have left : e.encode.toList = "id: ".toList ++ (Nat.toDigits 10 e.sequence ++ ("\nevent: ".toList ++
      (e.event.toList ++ ("\ndata: ".toList ++ ((dumps (.obj e.data)).toList ++ "\n\n".toList))))) := by
    simp only [StreamEvent.encode, String.toList_append, digits_text, List.append_assoc]
  rw [left]
  simp [Output.written, Frame.text, Frame.lines, unlines]

theorem error_text (data : String) : ("event: stream.error\ndata: " ++ data ++ "\n\n").toList =
    (Frame.event none "stream.error".toList data.toList none).text := by
  simp only [String.toList_append, List.append_assoc]
  simp [Frame.text, Frame.lines, unlines]

theorem output_text (o : Output) : o.text.toList = o.written.text := by
  cases o with
  | frame e => exact encode_text e
  | ping =>
    rw [Output.text, Output.written]
    decide
  | expired =>
    unfold Output.text authExpiredFrame Output.written
    exact error_text _

theorem snapshot_text (name : String) (payload : Web.Body) :
    (snapshotFrame name payload).toList = (snapshotWritten name payload).text := by
  have left : (snapshotFrame name payload).toList = "id: 0\nevent: ".toList ++ (name.toList ++
      ("\ndata: ".toList ++ ((dumps (.obj payload)).toList ++ "\nretry: 3000\n\n".toList))) := by
    simp only [snapshotFrame, String.toList_append, List.append_assoc]
  have time : Nat.toDigits 10 3000 = ['3', '0', '0', '0'] := by decide
  rw [left]
  simp [snapshotWritten, Frame.text, Frame.lines, unlines, time]

/-- The frames of a response. -/
def Client.frames (c : Client) (name : String) (payload : Web.Body) : List Frame :=
  snapshotWritten name payload :: c.yielded.map Output.written

theorem response_text (c : Client) (name : String) (payload : Web.Body) :
    c.response name payload = (c.frames name payload).flatMap Frame.text := by
  rw [Client.response, Client.frames, List.flatMap_cons, snapshot_text, List.flatMap_map]
  simp only [output_text]

end Texts

section Reading

/-- Whether an event comes from the hub: neither the error nor the snapshot. -/
def fromHub (m : Message) : Bool := m.type ≠ "stream.error".toList && m.lastEventId ≠ ['0']

theorem fromHub_snapshot (type data : EventSource.Text) : fromHub ⟨type, data, ['0']⟩ = false := by
  rw [fromHub, decide_eq_false (not_not_intro rfl), Bool.and_false]

theorem digits_clean {n : Nat} {c : Char} (other : c.isDigit = false) : c ∉ Nat.toDigits 10 n := by
  intro mem
  have digit := Nat.isDigit_of_mem_toDigits (by decide) (by decide) mem
  rw [digit] at other
  cases other

theorem digits_positive {n : Nat} (positive : 0 < n) : Nat.toDigits 10 n ≠ ['0'] := by
  intro same
  have first := head_toDigits n positive
  rw [same] at first
  exact first rfl

theorem plain_name {name : String} (plain : PlainName name) :
    name.toList ≠ [] ∧ '\n' ∉ name.toList ∧ '\r' ∉ name.toList := by
  refine ⟨?_, plain.1.2⟩
  intro empty
  exact plain.1.1 (String.toList_eq_nil_iff.mp empty)

theorem plain_output {o : Output} (written : ∀ e ∈ o.event?, e.Written) : o.written.Plain := by
  cases o with
  | frame e =>
    have sound := written e rfl
    refine ⟨?_, plain_name sound.1, dumps_line sound.2⟩
    intro i mem
    obtain rfl := Option.mem_some_iff.mp mem
    exact ⟨digits_clean rfl, digits_clean rfl, digits_clean rfl⟩
  | ping => exact ⟨by decide, by decide⟩
  | expired =>
    have sound : Sound (.obj [("code", .str "AUTH_SESSION_EXPIRED")]) :=
      ⟨by simp, trivial, trivial⟩
    exact ⟨by simp, ⟨by decide, by decide, by decide⟩, dumps_line sound⟩

theorem plain_snapshot {name : String} {payload : Web.Body} (plain : PlainName name)
    (sound : Sound (.obj payload)) : (snapshotWritten name payload).Plain := by
  refine ⟨?_, plain_name plain, dumps_line sound⟩
  intro i mem
  obtain rfl := Option.mem_some_iff.mp mem
  exact ⟨by decide, by decide, by decide⟩

/-- The hub's events among what is dispatched for the frames of a loop. -/
theorem heard_outputs {outs : List Output}
    (good : ∀ e ∈ outs.filterMap Output.event?, e.Written ∧ 0 < e.sequence) (last : EventSource.Text) :
    (messages last (outs.map Output.written)).filter fromHub =
      (outs.filterMap Output.event?).map StreamEvent.message := by
  induction outs generalizing last with
  | nil => rfl
  | cons o outs ih =>
    cases o with
    | frame e =>
      have first := good e (by simp [Output.event?])
      have rest := ih (fun e' mem => good e' (by simp [Output.event?, mem]))
        (Nat.toDigits 10 e.sequence)
      have other : e.event.toList ≠ "stream.error".toList := by
        intro same
        exact first.1.1.2 (String.toList_inj.mp same)
      have hub : fromHub e.message = true := by
        rw [fromHub, StreamEvent.message, decide_eq_true other,
          decide_eq_true (digits_positive first.2)]
        rfl
      have shape : messages last ((Output.frame e :: outs).map Output.written) =
          e.message :: messages (Nat.toDigits 10 e.sequence) (outs.map Output.written) := rfl
      rw [shape, List.filter_cons_of_pos hub, rest]
      rfl
    | ping => exact ih good last
    | expired =>
      rw [List.map_cons, Output.written, messages, List.filter_cons_of_neg (by simp [fromHub])]
      exact ih good last

/-- The last event id behind the frames of a loop. -/
theorem lastId_outputs (outs : List Output) (last : EventSource.Text) :
    lastId last (outs.map Output.written) =
      ((outs.filterMap Output.event?).getLast?.map fun e => Nat.toDigits 10 e.sequence).getD last := by
  induction outs generalizing last with
  | nil => rfl
  | cons o outs ih =>
    cases o with
    | frame e =>
      have events : (Output.frame e :: outs).filterMap Output.event? =
          e :: outs.filterMap Output.event? := rfl
      rw [List.map_cons, Output.written, lastId, ih, events, List.getLast?_cons, Option.getD_some]
      cases (outs.filterMap Output.event?).getLast? with
      | none => rfl
      | some e' => rfl
    | ping => exact ih last
    | expired => exact ih last

/-- A page has the payload that was published. -/
theorem handle_message {e : StreamEvent} (written : e.Written) :
    handleStreamEvent e.message = e.payload := by
  have data : loads (dumps (.obj e.data)).toList = some (.obj e.data) := by
    rw [toList_dumps]
    exact loads_render _ written.2
  have id : String.ofList (Nat.toDigits 10 e.sequence) = toString e.sequence := by
    rw [← digits_text, String.ofList_toList]
  rw [handleStreamEvent, StreamEvent.message, StreamEvent.payload]
  simp [data, id, Nat.toDigits_ne_nil]

end Reading

end McManager.Realtime
