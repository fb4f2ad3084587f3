import McManager.Infrastructure.Tailing
import Mathlib.Data.List.Induction
import Mathlib.Tactic.Common

namespace McManager.Tailing

namespace RingBuffer

/-- The lines that have been appended, in order. -/
def appended (calls : List Call) : List String :=
  calls.filterMap fun
    | .append line => some line
    | _ => none

def Call.clears : Call → Bool
  | .clear => true
  | _ => false

/-- The lines appended since the last `clear`. -/
def sinceClear (calls : List Call) : List String :=
  appended (calls.reverse.takeWhile (!·.clears)).reverse

/-- What a buffer holds after these calls. -/
structure Holds (maxlen : Nat) (calls : List Call) (b : RingBuffer) : Prop where
  numbers : b.buffer.map (·.1) =
    List.range' ((appended calls).length - b.buffer.length) b.buffer.length
  lines : ∀ item ∈ b.buffer, (appended calls)[item.1]? = some item.2
  length : b.buffer.length = min maxlen (sinceClear calls).length
  next : b.nextLineNo = (appended calls).length
  tail : ∀ sinceOffset : Int, (b.tail sinceOffset).Sublist b.buffer ∧
    ∀ item, item ∈ b.tail sinceOffset ↔ item ∈ b.buffer ∧ sinceOffset ≤ item.1

/-- The buffers and offsets for which the oldest line held, or that there is none, tells whether
anything is gone. -/
def Told (b : RingBuffer) (sinceOffset : Int) : Prop :=
  match b.buffer with
  | [] => if b.nextLineNo = 0 then sinceOffset ≤ 0 else 0 < sinceOffset ∧ sinceOffset < b.nextLineNo
  | oldest :: _ => 0 ≤ sinceOffset ∨ 0 < oldest.1

theorem after_concat (maxlen : Nat) (calls : List Call) (c : Call) :
    after maxlen (calls ++ [c]) = ((after maxlen calls).call c).1 := by
  rw [after, List.foldl_append]
  rfl

theorem maxlen_after (maxlen : Nat) (calls : List Call) : (after maxlen calls).maxlen = maxlen := by
  induction calls using List.reverseRecOn with
  | nil => rfl
  | append_singleton calls c ih =>
    rw [after_concat]
    cases c with
    | append line => exact ih
    | clear => exact ih
    | tail sinceOffset => exact ih

section

variable {maxlen : Nat} {calls : List Call}

theorem appended_concat (c : Call) : appended (calls ++ [c]) = appended calls ++ appended [c] :=
  List.filterMap_append

theorem sinceClear_append (line : String) :
    sinceClear (calls ++ [.append line]) = sinceClear calls ++ [line] := by
  have keeps : (!(Call.append line).clears) = true := rfl
  rw [sinceClear, List.reverse_append, List.reverse_singleton, List.singleton_append,
    List.takeWhile_cons, if_pos keeps, List.reverse_cons, appended_concat]
  rfl

theorem sinceClear_clear : sinceClear (calls ++ [.clear]) = [] := by
  rw [sinceClear, List.reverse_append, List.reverse_singleton, List.singleton_append,
    List.takeWhile_cons, if_neg (by decide)]
  rfl

theorem sinceClear_tail (sinceOffset : Int) :
    sinceClear (calls ++ [.tail sinceOffset]) = sinceClear calls := by
  have keeps : (!(Call.tail sinceOffset).clears) = true := rfl
  rw [sinceClear, List.reverse_append, List.reverse_singleton, List.singleton_append,
    List.takeWhile_cons, if_pos keeps, List.reverse_cons, appended_concat]
  exact List.append_nil _

theorem length_sinceClear (calls : List Call) :
    (sinceClear calls).length ≤ (appended calls).length := by
  have front := List.takeWhile_sublist (l := calls.reverse) (!·.clears)
  have part := front.reverse
  rw [List.reverse_reverse] at part
  exact (part.filterMap _).length_le

/-- What `tail` returns. -/
theorem mem_tail (b : RingBuffer) (sinceOffset : Int) (item : Nat × String) :
    item ∈ b.tail sinceOffset ↔ item ∈ b.buffer ∧ sinceOffset ≤ item.1 := by
  rw [tail, List.mem_filter, decide_eq_true_eq]

/-- One more line takes the place of the oldest one when the buffer is full. -/
theorem append_holds {b : RingBuffer} (bound : b.maxlen = maxlen) (line : String)
    (h : Holds maxlen calls b) : Holds maxlen (calls ++ [.append line]) (b.append line) := by
  have count := length_sinceClear calls
  have size := h.length
  have all : appended (calls ++ [.append line]) = appended calls ++ [line] := appended_concat _
  have length : (b.append line).buffer.length = min maxlen (b.buffer.length + 1) := by
    rw [append, bounded, List.length_drop, List.length_append, List.length_singleton, bound]
    omega
  constructor
  · have oldest : (appended calls).length - b.buffer.length + 1 * b.buffer.length = b.nextLineNo := by
      rw [h.next]
      omega
    have whole : (b.buffer ++ [(b.nextLineNo, line)]).map (·.1) =
        List.range' ((appended calls).length - b.buffer.length) (b.buffer.length + 1) := by
      rw [List.map_append, h.numbers, List.range'_concat, oldest]
      rfl
    rw [length, all, append, bounded, List.map_drop, whole, List.drop_range', bound,
      List.length_append, List.length_append, List.length_singleton, List.length_singleton]
    congr 1
    · omega
    · omega
  · intro item mem
    rw [all]
    rcases List.mem_append.mp (List.mem_of_mem_drop mem) with inside | last
    · have there := h.lines item inside
      rw [List.getElem?_append_left (List.getElem?_eq_some_iff.mp there).1]
      exact there
    · rw [List.mem_singleton.mp last, h.next, List.getElem?_append_right (Nat.le_refl _),
        Nat.sub_self]
      rfl
  · rw [length, sinceClear_append, List.length_append, List.length_singleton]
    omega
  · rw [all, List.length_append, List.length_singleton, ← h.next]
    rfl
  · exact fun sinceOffset => ⟨List.filter_sublist, mem_tail _ sinceOffset⟩

theorem clear_holds {b : RingBuffer} (h : Holds maxlen calls b) :
    Holds maxlen (calls ++ [.clear]) b.clear := by
  have all : appended (calls ++ [.clear]) = appended calls := by
    rw [appended_concat]
    exact List.append_nil _
  constructor
  · rfl
  · exact fun item mem => nomatch mem
  · rw [sinceClear_clear]
    exact (Nat.min_zero maxlen).symm
  · rw [all]
    exact h.next
  · exact fun sinceOffset => ⟨List.filter_sublist, mem_tail _ sinceOffset⟩

/-- What a buffer holds, after any calls. -/
theorem holds_after (maxlen : Nat) (calls : List Call) : Holds maxlen calls (after maxlen calls) := by
  induction calls using List.reverseRecOn with
  | nil =>
    refine ⟨rfl, (fun item mem => nomatch mem), (Nat.min_zero maxlen).symm, rfl, ?_⟩
    exact fun sinceOffset => ⟨List.filter_sublist, mem_tail _ sinceOffset⟩
  | append_singleton calls c ih =>
    rw [after_concat]
    cases c with
    | append line => exact append_holds (maxlen_after maxlen calls) line ih
    | clear => exact clear_holds ih
    | tail sinceOffset =>
      have all : appended (calls ++ [.tail sinceOffset]) = appended calls := by
        rw [appended_concat]
        exact List.append_nil _
      refine ⟨?_, ?_, ?_, ?_, ih.tail⟩
      · rw [all]
        exact ih.numbers
      · rw [all]
        exact ih.lines
      · rw [sinceClear_tail]
        exact ih.length
      · rw [all]
        exact ih.next

/-- The lines that are gone: all before the oldest one that is held. -/
theorem gone_iff {b : RingBuffer} (h : Holds maxlen calls b) (sinceOffset : Int) :
    (∃ no < (appended calls).length, sinceOffset ≤ no ∧ no ∉ b.buffer.map (·.1)) ↔
      0 < (appended calls).length - b.buffer.length ∧
        sinceOffset < ((appended calls).length - b.buffer.length : Nat) := by
  have count := length_sinceClear calls
  have size := h.length
  rw [h.numbers]
  constructor
  · rintro ⟨no, made, wanted, gone⟩
    rw [List.mem_range'_1] at gone
    omega
  · rintro ⟨some', before⟩
    refine ⟨(appended calls).length - b.buffer.length - 1, by omega, by omega, ?_⟩
    rw [List.mem_range'_1]
    omega

end

/-- A buffer holds the newest lines since the last `clear`, as many as it may, and `trimmed` tells
whether a line is gone for just the buffers and offsets of `Told`. -/
theorem ringBuffer_holds (maxlen : Nat) (calls : List Call) :
    Holds maxlen calls (after maxlen calls) ∧ ∀ sinceOffset : Int,
      ((after maxlen calls).trimmed sinceOffset = true ↔
        ∃ no < (appended calls).length, sinceOffset ≤ no ∧
          no ∉ (after maxlen calls).buffer.map (·.1)) ↔
      Told (after maxlen calls) sinceOffset := by
  have h := holds_after maxlen calls
  refine ⟨h, fun sinceOffset => ?_⟩
  rw [gone_iff h, Told, trimmed]
  have numbers := h.numbers
  have next := h.next
  cases held : (after maxlen calls).buffer with
  | nil =>
    dsimp only
    rw [List.length_nil, Nat.sub_zero, decide_eq_true_eq, next]
    split_ifs with none'
    · omega
    · omega
  | cons oldest rest =>
    rw [held, List.map_cons, List.length_cons, List.range'_succ, List.cons.injEq] at numbers
    dsimp only
    rw [List.length_cons, decide_eq_true_eq, numbers.1]
    omega

/-- A buffer that never held a line says that it has trimmed some. -/
theorem trimmed_nothing : ¬((after 5000 []).trimmed 1 = true ↔
    ∃ no < (appended []).length, (1 : Int) ≤ no ∧ no ∉ (after 5000 []).buffer.map (·.1)) := by
  intro same
  obtain ⟨no, made, -⟩ := same.mp (by decide)
  exact absurd made (Nat.not_lt_zero no)

end RingBuffer

end McManager.Tailing
