import McManager.Infrastructure.Tailing
import Mathlib.Data.List.Induction
import Mathlib.Tactic.Common

namespace McManager.Tailing

open Framework

/-- How many bytes a text has in UTF-8. -/
def size (s : String) : Nat := (Utf8.encode s).length

/-- What a line is cut to: itself where it fits, and otherwise the longest front that leaves room
for the sentinel, or, where not even the sentinel fits, a front of that. -/
structure Cut (line : String) (n : Nat) (result : String) : Prop where
  fits : size result ≤ n
  whole : result = line ↔ size line ≤ n
  marked : n < size line → size sentinel ≤ n → ∃ front : String,
    result = front ++ sentinel ∧ front.toList <+: line.toList ∧ size front + size sentinel ≤ n ∧
    ∀ p : String, p.toList <+: line.toList → size p + size sentinel ≤ n →
      p.toList <+: front.toList
  narrow : n < size line → n < size sentinel →
    result.toList <+: sentinel.toList ∧ result.length = n

theorem size_append (s t : String) : size (s ++ t) = size s + size t := by
  rw [size, size, size, Utf8.encode, String.toList_append, List.flatMap_append, List.length_append]
  rfl

theorem size_sentinel : size sentinel = 20 := by decide +kernel

theorem length_sentinel : sentinel.toList.length = 20 := by decide +kernel

/-- A front of the sentinel has one byte for each character. -/
theorem size_take_sentinel {n : Nat} (h : n ≤ 20) :
    size (String.ofList (sentinel.toList.take n)) = n := by
  have all : ∀ k < 21, size (String.ofList (sentinel.toList.take k)) = k := by decide +kernel
  exact all n (by omega)

/-- What decoding leaves of a line whose bytes are cut off. -/
theorem decodeIgnore_take (line : String) (k : Nat) : ∃ rest : List Char,
    line.toList = (Utf8.decodeIgnore ((Utf8.encode line).take k)).toList ++ rest ∧
      size (Utf8.decodeIgnore ((Utf8.encode line).take k)) ≤ k ∧
      ∀ c ∈ rest.head?, k < size (Utf8.decodeIgnore ((Utf8.encode line).take k)) + c.utf8Size := by
  obtain ⟨front, rest, whole, kept, inside, next⟩ :=
    Utf8.kept_take line.toList k ((Utf8.encode line).take k).length (Nat.le_refl _)
  have text : Utf8.decodeIgnore ((Utf8.encode line).take k) = String.ofList front :=
    congrArg String.ofList kept
  rw [text, size, Utf8.encode_ofList, String.toList_ofList]
  exact ⟨rest, whole, inside, next⟩

/-- A longer front than the longest one that fits does not fit. -/
theorem longest {line front : List Char} {rest : List Char} {k : Nat} (whole : line = front ++ rest)
    (next : ∀ c ∈ rest.head?, k < (front.flatMap String.utf8EncodeChar).length + c.utf8Size)
    {p : List Char} (before : p <+: line) (fits : (p.flatMap String.utf8EncodeChar).length ≤ k) :
    p <+: front := by
  subst whole
  rcases Nat.lt_or_ge front.length p.length with long | short
  · obtain ⟨more, rfl⟩ :=
      List.prefix_of_prefix_length_le (List.prefix_append front rest) before (by omega)
    have before' := (List.prefix_append_right_inj front).mp before
    cases more with
    | nil => simp at long
    | cons c more =>
      obtain ⟨after, rfl⟩ := before'
      have far := next c rfl
      rw [List.flatMap_append, List.flatMap_cons, List.length_append, List.length_append,
        String.length_utf8EncodeChar] at fits
      omega
  · exact List.prefix_of_prefix_length_le before (List.prefix_append front rest) short

section

variable {line : String} {n : Nat}

theorem truncateLogLine_fits (fits : size line ≤ n) : truncateLogLine line n = line := if_pos fits

theorem truncateLogLine_narrow (long : n < size line) (narrow : n < size sentinel) :
    truncateLogLine line n = String.ofList (sentinel.toList.take n) :=
  (if_neg (Nat.not_le.mpr long)).trans (if_pos narrow)

theorem truncateLogLine_marked (long : n < size line) (wide : size sentinel ≤ n) :
    truncateLogLine line n =
      Utf8.decodeIgnore ((Utf8.encode line).take (n - size sentinel)) ++ sentinel :=
  (if_neg (Nat.not_le.mpr long)).trans (if_neg (Nat.not_lt.mpr wide))

/-- What does not fit is not the line itself. -/
theorem whole_of_fits {result : String} (long : n < size line) (fits : size result ≤ n) :
    result = line ↔ size line ≤ n := by
  constructor
  · rintro rfl
    exact fits
  · intro short
    omega

theorem cut_narrow (long : n < size line) (narrow : n < size sentinel) :
    Cut line n (truncateLogLine line n) := by
  have bytes := size_sentinel
  have length := length_sentinel
  have fits : size (truncateLogLine line n) ≤ n := by
    rw [truncateLogLine_narrow long narrow]
    exact Nat.le_of_eq (size_take_sentinel (by omega))
  refine ⟨fits, whole_of_fits long fits, fun _ wide => absurd narrow (Nat.not_lt.mpr wide),
    fun _ _ => ?_⟩
  rw [truncateLogLine_narrow long narrow]
  constructor
  · rw [String.toList_ofList]
    exact List.take_prefix n sentinel.toList
  · rw [String.length_ofList, List.length_take]
    omega

theorem cut_marked (long : n < size line) (wide : size sentinel ≤ n) :
    Cut line n (truncateLogLine line n) := by
  obtain ⟨rest, whole, inside, next⟩ := decodeIgnore_take line (n - size sentinel)
  have fits : size (truncateLogLine line n) ≤ n := by
    rw [truncateLogLine_marked long wide, size_append]
    omega
  refine ⟨fits, whole_of_fits long fits, fun _ _ => ?_,
    fun _ narrow => absurd narrow (Nat.not_lt.mpr wide)⟩
  refine ⟨_, truncateLogLine_marked long wide, ⟨rest, whole.symm⟩, by omega, ?_⟩
  intro p before room
  exact longest whole next before (Nat.le_sub_of_add_le room)

end

/-- Cutting a line keeps as much of it as there is room for, and cutting it again changes
nothing. -/
theorem truncateLogLine_cut (line : String) (n : Nat) :
    Cut line n (truncateLogLine line n) ∧
      truncateLogLine (truncateLogLine line n) n = truncateLogLine line n := by
  have cut : Cut line n (truncateLogLine line n) := by
    rcases Nat.lt_or_ge n (size line) with long | fits
    · rcases Nat.lt_or_ge n (size sentinel) with narrow | wide
      · exact cut_narrow long narrow
      · exact cut_marked long wide
    · rw [truncateLogLine_fits fits]
      exact ⟨fits, ⟨fun _ => fits, fun _ => rfl⟩, fun long => absurd long (Nat.not_lt.mpr fits),
        fun long => absurd long (Nat.not_lt.mpr fits)⟩
  exact ⟨cut, truncateLogLine_fits cut.fits⟩

end McManager.Tailing
