import McManager.Framework.OrderedDict
import McManager.Infrastructure.LogTail
import Mathlib.Tactic.Common

namespace McManager.Tailing

/-- Lines with their numbers. -/
def numbered (lines : List String) : List (Nat × String) := lines.zipIdx.map Prod.swap

namespace Channel

/-- The number of the first line that the sink is to get: the oldest one from `sinceOffset` on that
the buffer still held when `tail` read it, or the next one after that. -/
def first (maxlen : Nat) (sinceOffset : Int) (c : Channel) : Nat :=
  match c.replayedAt with
  | some count => min count (max (count - maxlen) sinceOffset.toNat)
  | none => 0

/-- The lines that the sink is to get, with their numbers. -/
def expected (maxlen : Nat) (sinceOffset : Int) (c : Channel) : List (Nat × String) :=
  (numbered c.history).drop (c.first maxlen sinceOffset)

/-- The lines that are dropped, and how many the subscriptions count. -/
def lost (c : Channel) : List (Nat × String) := c.subscriptions.flatMap (·.lost)

def dropped (c : Channel) : Nat := (c.subscriptions.map (·.dropped)).sum

/-- The lines that are on the way to the sink. -/
def waiting (c : Channel) : List (Nat × String) :=
  c.subscriptions.flatMap (fun s => s.inHand.toList ++ s.queue) ++
    c.pending.map fun p => (p.own, p.line)

/-- The sink gets each of these lines once and in order, under its own number, but for those that
are counted as dropped. -/
structure Accounted (maxlen : Nat) (sinceOffset : Int) (c : Channel) : Prop where
  ordered : c.delivered.Sublist (c.expected maxlen sinceOffset)
  once : (c.delivered ++ c.waiting ++ c.lost).Perm (c.expected maxlen sinceOffset)
  counted : c.dropped = c.lost.length

end Channel

/-- The state once `tail` has come back. -/
def State.Delivers (s : State) : Prop :=
  s.attaching = .attached ∨ s.attaching = .raised →
    ∀ c ∈ s.channels, c.Accounted s.maxlen s.sinceOffset

/-- `tail` has still to read the buffer of the channel. -/
def Attaching.Ahead (a : Attaching) (name : String) : Prop :=
  match a with
  | .before => True
  | .replaying names => name ∈ names
  | .handing _ _ names => name ∈ names
  | .notice names => name ∈ names
  | _ => False

/-- No line is appended to a channel between its replay and its subscription, the appends of a
channel read their numbers and submit their lines one after the other, and the sink does not raise
under `tail`. -/
def Orderly (s : State) : Move → Prop
  | .append name _ => ∀ c ∈ s.channels, c.name = name → c.subscriptions ≠ [] ∨ s.attaching.Ahead name
  | .submit name i => ∀ c ∈ s.channels, c.name = name → ∀ p, c.pending[i]? = some p →
    match p.number with
    | none => c.buffer.nextLineNo = p.own + 1
    | some _ => i = 0
  | .tail raises => raises = false
  | _ => True

/-- A run from an empty `LogRingBuffer`, all of whose moves meet `ok`. -/
inductive Run (ok : State → Move → Prop) (maxlen : Nat) (sinceOffset : Int) : State → Prop
  | start : Run ok maxlen sinceOffset { maxlen, sinceOffset }
  | step {s : State} (m : Move) : Run ok maxlen sinceOffset s → ok s m →
    Run ok maxlen sinceOffset (s.step m)

section Numbers

@[simp] theorem length_numbered (lines : List String) : (numbered lines).length = lines.length := by
  simp [numbered]

theorem numbered_concat (lines : List String) (line : String) :
    numbered (lines ++ [line]) = numbered lines ++ [(lines.length, line)] := by
  simp [numbered, List.zipIdx_append]

theorem drop_zipIdx {α : Type} (l : List α) (k j : Nat) :
    (l.zipIdx k).drop j = (l.drop j).zipIdx (k + j) := by
  induction j generalizing l k with
  | zero => simp
  | succ j ih =>
    cases l with
    | nil => simp
    | cons a l =>
      rw [List.zipIdx_cons, List.drop_succ_cons, List.drop_succ_cons, ih]
      congr 1
      omega

/-- The lines from a number on are all but the first ones. -/
theorem filter_zipIdx (sinceOffset : Int) (lines : List String) (k : Nat) :
    ((lines.zipIdx k).map Prod.swap).filter (fun item => decide (sinceOffset ≤ item.1)) =
      ((lines.zipIdx k).map Prod.swap).drop (sinceOffset.toNat - k) := by
  induction lines generalizing k with
  | nil => simp
  | cons line lines ih =>
    rw [List.zipIdx_cons, List.map_cons]
    by_cases le : sinceOffset ≤ k
    · have here : sinceOffset.toNat - k = 0 := by omega
      have next : sinceOffset.toNat - (k + 1) = 0 := by omega
      rw [List.filter_cons_of_pos (by simpa using le), ih, here, next, List.drop_zero,
        List.drop_zero]
    · have here : sinceOffset.toNat - k = sinceOffset.toNat - (k + 1) + 1 := by omega
      rw [List.filter_cons_of_neg (by simpa using le), ih, here, List.drop_succ_cons]

/-- What `tail` finds in a buffer that holds the last lines. -/
theorem filter_numbered (sinceOffset : Int) (lines : List String) (j : Nat) :
    ((numbered lines).drop j).filter (fun item => decide (sinceOffset ≤ item.1)) =
      (numbered lines).drop (min lines.length (max j sinceOffset.toNat)) := by
  have suffix : (numbered lines).drop j = ((lines.drop j).zipIdx j).map Prod.swap := by
    rw [numbered, ← List.map_drop, drop_zipIdx, Nat.zero_add]
  rw [suffix, filter_zipIdx, ← suffix, List.drop_drop]
  by_cases long : max j sinceOffset.toNat ≤ lines.length
  · rw [Nat.min_eq_right long]
    congr 1
    omega
  · rw [Nat.min_eq_left (by omega), List.drop_of_length_le (by rw [length_numbered]; omega),
      List.drop_of_length_le (Nat.le_of_eq (length_numbered lines))]

/-- The lines that the sink is to get stand in the order of their numbers, which are their own. -/
theorem Channel.expected_own (maxlen : Nat) (sinceOffset : Int) (c : Channel) :
    ((c.expected maxlen sinceOffset).map (·.1)).Pairwise (· < ·) ∧
      ∀ item ∈ c.expected maxlen sinceOffset, c.history[item.1]? = some item.2 := by
  have numbers : (numbered c.history).map (·.1) = List.range c.history.length := by
    rw [numbered, List.map_map, List.range_eq_range', ← List.zipIdx_map_snd 0 c.history]
    rfl
  constructor
  · rw [Channel.expected, List.map_drop, numbers]
    exact List.Pairwise.drop List.pairwise_lt_range
  · intro item mem
    obtain ⟨pair, there, rfl⟩ := List.mem_map.mp (List.mem_of_mem_drop mem)
    exact List.mem_zipIdx_iff_getElem?.mp there

/-- A bounded buffer of numbered lines goes on with the next one. -/
theorem bounded_append {α : Type} (maxlen : Nat) (l : List α) (a : α) :
    bounded maxlen (bounded maxlen l ++ [a]) = bounded maxlen (l ++ [a]) := by
  rw [bounded, bounded, bounded]
  simp only [List.length_append, List.length_drop, List.length_singleton]
  have short : l.length - maxlen ≤ l.length := Nat.sub_le _ _
  have whole : (l ++ [a]).drop (l.length - maxlen) = l.drop (l.length - maxlen) ++ [a] :=
    List.drop_append_of_le_length short
  rw [← whole, List.drop_drop]
  congr 1
  omega

end Numbers

namespace Channel

/-- What always holds of a channel. -/
structure Kept (maxlen : Nat) (sinceOffset : Int) (c : Channel) : Prop where
  bound : c.buffer.maxlen = maxlen
  next : c.buffer.nextLineNo = c.history.length
  buffer : c.buffer.buffer = bounded maxlen (numbered c.history)
  subscribers : c.buffer.subscribers = List.range c.subscriptions.length
  first : c.first maxlen sinceOffset ≤ c.history.length

/-- `tail` has not come to the channel. -/
structure Untouched (c : Channel) : Prop where
  replayedAt : c.replayedAt = none
  subscriptions : c.subscriptions = []
  pending : c.pending = []
  delivered : c.delivered = []

/-- The sink still gets these lines of the replay. -/
structure Replaying (maxlen : Nat) (sinceOffset : Int) (items : List (Nat × String)) (c : Channel) :
    Prop where
  subscriptions : c.subscriptions = []
  pending : c.pending = []
  lines : c.delivered ++ items = c.expected maxlen sinceOffset

/-- Nothing is lost or repeated on the way to the sink. -/
structure Sound (maxlen : Nat) (sinceOffset : Int) (c : Channel) : Prop where
  few : c.subscriptions.length ≤ 1
  alone : c.subscriptions = [] → c.pending = []
  numbers : ∀ p ∈ c.pending, p.subscribers = [0] ∧ ∀ n, p.number = some n → n = p.own
  ordered : (c.delivered ++ c.waiting).Sublist (c.expected maxlen sinceOffset)
  once : (c.delivered ++ c.waiting ++ c.lost).Perm (c.expected maxlen sinceOffset)
  counted : c.dropped = c.lost.length

section

variable {maxlen : Nat} {sinceOffset : Int} {c : Channel}

theorem Sound.accounted (h : c.Sound maxlen sinceOffset) : c.Accounted maxlen sinceOffset where
  ordered := (List.sublist_append_left _ _).trans h.ordered
  once := h.once
  counted := h.counted

theorem Replaying.sound (h : c.Replaying maxlen sinceOffset []) : c.Sound maxlen sinceOffset := by
  obtain ⟨subscriptions, pending, lines⟩ := h
  rw [List.append_nil] at lines
  have waiting : c.waiting = [] := by simp [Channel.waiting, subscriptions, pending]
  have lost : c.lost = [] := by simp [Channel.lost, subscriptions]
  refine ⟨by simp [subscriptions], fun _ => pending, by simp [pending], ?_, ?_, ?_⟩
  · rw [waiting, lines, List.append_nil]
  · rw [waiting, lost, lines, List.append_nil, List.append_nil]
  · simp [Channel.dropped, lost, subscriptions]

theorem Untouched.sound (h : c.Untouched) (empty : c.history = []) :
    c.Sound maxlen sinceOffset := by
  refine Replaying.sound ⟨h.subscriptions, h.pending, ?_⟩
  simp [h.delivered, expected, empty, numbered]

/-- What `tail` is to hand over when it reads the buffer. -/
theorem Untouched.replay (kept : c.Kept maxlen sinceOffset) (h : c.Untouched) :
    ({ c with replayedAt := some c.history.length } : Channel).Replaying maxlen sinceOffset
      (c.buffer.tail sinceOffset) := by
  refine ⟨h.subscriptions, h.pending, ?_⟩
  have lines := filter_numbered sinceOffset c.history (c.history.length - maxlen)
  rw [h.delivered, List.nil_append, RingBuffer.tail, kept.buffer, bounded, length_numbered, lines]
  rfl

theorem Kept.replay (kept : c.Kept maxlen sinceOffset) :
    ({ c with replayedAt := some c.history.length } : Channel).Kept maxlen sinceOffset where
  bound := kept.bound
  next := kept.next
  buffer := kept.buffer
  subscribers := kept.subscribers
  first := Nat.min_le_left _ _

theorem Kept.append (kept : c.Kept maxlen sinceOffset) (line : String) :
    (c.append line).Kept maxlen sinceOffset where
  bound := kept.bound
  next := by simp [Channel.append, RingBuffer.append, kept.next]
  buffer := by
    simp only [Channel.append, RingBuffer.append, kept.bound, kept.buffer, kept.next]
    rw [numbered_concat, bounded_append]
  subscribers := kept.subscribers
  first := by
    have old := kept.first
    have same : (c.append line).first maxlen sinceOffset = c.first maxlen sinceOffset := rfl
    rw [same, Channel.append, List.length_append]
    omega

theorem expected_append (kept : c.Kept maxlen sinceOffset) (line : String) :
    (c.append line).expected maxlen sinceOffset =
      c.expected maxlen sinceOffset ++ [(c.history.length, line)] := by
  have same : (c.append line).first maxlen sinceOffset = c.first maxlen sinceOffset := rfl
  rw [expected, same, expected, Channel.append, numbered_concat,
    List.drop_append_of_le_length (by rw [length_numbered]; exact kept.first)]

theorem Untouched.append (kept : c.Kept maxlen sinceOffset) (h : c.Untouched) (line : String) :
    (c.append line).Untouched where
  replayedAt := h.replayedAt
  subscriptions := h.subscriptions
  pending := by
    have none : c.buffer.subscribers = [] := by simp [kept.subscribers, h.subscriptions]
    simp [Channel.append, h.pending, none]
  delivered := h.delivered

theorem Sound.append (kept : c.Kept maxlen sinceOffset) (h : c.Sound maxlen sinceOffset)
    (subscribed : c.subscriptions ≠ []) (line : String) :
    (c.append line).Sound maxlen sinceOffset := by
  have one : c.subscriptions.length = 1 := by
    have := h.few
    have := List.length_pos_iff.mpr subscribed
    omega
  have subscribers : c.buffer.subscribers = [0] := by rw [kept.subscribers, one]; rfl
  have pending : (c.append line).pending =
      c.pending ++ [⟨c.history.length, line, [0], none⟩] := by
    simp [Channel.append, subscribers, kept.next]
  have waiting : (c.append line).waiting = c.waiting ++ [(c.history.length, line)] := by
    rw [Channel.waiting, pending, Channel.waiting]
    simp [Channel.append]
  have expected := expected_append kept line
  refine ⟨h.few, fun none => absurd none subscribed, ?_, ?_, ?_, h.counted⟩
  · intro p hp
    rw [pending] at hp
    rcases List.mem_append.mp hp with old | new
    · exact h.numbers p old
    · rw [List.mem_singleton.mp new]
      exact ⟨rfl, fun n hn => nomatch hn⟩
  · rw [expected, waiting, ← List.append_assoc]
    exact h.ordered.append_right _
  · have lost : (c.append line).lost = c.lost := rfl
    have last : ([(c.history.length, line)] ++ c.lost).Perm
        (c.lost ++ [(c.history.length, line)]) := List.perm_append_comm
    rw [expected, waiting, lost, ← List.append_assoc, List.append_assoc _ _ c.lost]
    refine (last.append_left _).trans ?_
    rw [← List.append_assoc]
    exact h.once.append_right _

theorem Kept.subscribe (kept : c.Kept maxlen sinceOffset) :
    c.subscribe.Kept maxlen sinceOffset where
  bound := kept.bound
  next := kept.next
  buffer := kept.buffer
  subscribers := by
    simp [Channel.subscribe, RingBuffer.subscribe, kept.subscribers, List.range_succ]
  first := kept.first

theorem Sound.subscribe (h : c.Sound maxlen sinceOffset) (none : c.subscriptions = []) :
    c.subscribe.Sound maxlen sinceOffset := by
  have pending := h.alone none
  have waiting : c.subscribe.waiting = c.waiting := by
    simp [Channel.waiting, Channel.subscribe, none]
  have lost : c.subscribe.lost = c.lost := by simp [Channel.lost, Channel.subscribe, none]
  refine ⟨by simp [Channel.subscribe, none], fun _ => pending, ?_, ?_, ?_, ?_⟩
  · intro p hp
    rw [show c.subscribe.pending = [] from pending] at hp
    exact absurd hp List.not_mem_nil
  · rw [waiting]
    exact h.ordered
  · rw [waiting, lost]
    exact h.once
  · rw [lost, ← h.counted]
    simp [Channel.dropped, Channel.subscribe, none]

/-- Only buffer, lines and number of subscriptions matter. -/
theorem Kept.congr {c' : Channel} (kept : c.Kept maxlen sinceOffset)
    (buffer : c'.buffer = c.buffer) (history : c'.history = c.history)
    (replayedAt : c'.replayedAt = c.replayedAt)
    (subscriptions : c'.subscriptions.length = c.subscriptions.length) :
    c'.Kept maxlen sinceOffset where
  bound := by rw [buffer, kept.bound]
  next := by rw [buffer, history, kept.next]
  buffer := by rw [buffer, history, kept.buffer]
  subscribers := by rw [buffer, subscriptions, kept.subscribers]
  first := by
    have same : c'.first maxlen sinceOffset = c.first maxlen sinceOffset := by
      rw [Channel.first, Channel.first, replayedAt]
    rw [same, history]
    exact kept.first

theorem Kept.submit (kept : c.Kept maxlen sinceOffset) (i : Nat) :
    (c.submit i).Kept maxlen sinceOffset := by
  unfold Channel.submit
  split
  · exact kept.congr rfl rfl rfl rfl
  · exact kept.congr rfl rfl rfl (List.length_modify _ _ _)
  · exact kept

theorem Kept.take (kept : c.Kept maxlen sinceOffset) (k : Nat) :
    (c.take k).Kept maxlen sinceOffset :=
  kept.congr rfl rfl rfl (List.length_modify _ _ _)

theorem Kept.callback (kept : c.Kept maxlen sinceOffset) (k : Nat) (raises : Bool) :
    (c.callback k raises).Kept maxlen sinceOffset :=
  kept.congr rfl rfl rfl (List.length_modify _ _ _)

theorem submit_idle (h : c.pending = []) (i : Nat) : c.submit i = c := by
  simp [Channel.submit, h]

theorem take_idle (h : c.subscriptions = []) (k : Nat) : c.take k = c := by
  have same : c.subscriptions.modify k (·.take) = c.subscriptions := by simp [h]
  rw [Channel.take, same]

theorem callback_idle (h : c.subscriptions = []) (k : Nat) (raises : Bool) :
    c.callback k raises = c := by
  have same : c.subscriptions.modify k (fun s => (s.callback raises).1) = c.subscriptions := by
    simp [h]
  have none : c.subscriptions[k]? = none := by simp [h]
  rw [Channel.callback, same, none]
  simp

/-- A channel has no subscription, or one. -/
theorem Sound.one (h : c.Sound maxlen sinceOffset) :
    c.subscriptions = [] ∨ ∃ s, c.subscriptions = [s] := by
  have few := h.few
  match hs : c.subscriptions with
  | [] => exact .inl rfl
  | [s] => exact .inr ⟨s, rfl⟩
  | _ :: _ :: _ =>
    rw [hs] at few
    simp only [List.length_cons] at few
    omega

theorem take_kept (s : Subscription) : s.take.inHand.toList ++ s.take.queue =
    s.inHand.toList ++ s.queue ∧ s.take.lost = s.lost ∧ s.take.dropped = s.dropped := by
  unfold Subscription.take
  split
  · rename_i item queue hand line
    simp [hand, line]
  · exact ⟨rfl, rfl, rfl⟩

/-- A step after which the same lines have been delivered or are on the way. -/
theorem Sound.moved {c' : Channel} (h : c.Sound maxlen sinceOffset)
    (few : c'.subscriptions.length = c.subscriptions.length)
    (numbers : ∀ p ∈ c'.pending, p.subscribers = [0] ∧ ∀ n, p.number = some n → n = p.own)
    (alone : c'.subscriptions = [] → c'.pending = [])
    (expected : c'.expected maxlen sinceOffset = c.expected maxlen sinceOffset)
    (lines : c'.delivered ++ c'.waiting = c.delivered ++ c.waiting) (lost : c'.lost = c.lost)
    (dropped : c'.dropped = c.dropped) : c'.Sound maxlen sinceOffset where
  few := few ▸ h.few
  alone := alone
  numbers := numbers
  ordered := by
    rw [lines, expected]
    exact h.ordered
  once := by
    rw [lines, lost, expected]
    exact h.once
  counted := by
    rw [lost, dropped]
    exact h.counted

/-- A step that drops one of these lines and counts it. -/
theorem Sound.dropped {c' : Channel} (h : c.Sound maxlen sinceOffset)
    (front rest : List (Nat × String)) (item : Nat × String)
    (few : c'.subscriptions.length = c.subscriptions.length)
    (numbers : ∀ p ∈ c'.pending, p.subscribers = [0] ∧ ∀ n, p.number = some n → n = p.own)
    (alone : c'.subscriptions = [] → c'.pending = [])
    (expected : c'.expected maxlen sinceOffset = c.expected maxlen sinceOffset)
    (before : c.delivered ++ c.waiting = front ++ item :: rest)
    (after : c'.delivered ++ c'.waiting = front ++ rest) (lost : c'.lost = c.lost ++ [item])
    (count : c'.dropped = c.dropped + 1) : c'.Sound maxlen sinceOffset where
  few := few ▸ h.few
  alone := alone
  numbers := numbers
  ordered := by
    have fewer : (front ++ rest).Sublist (front ++ item :: rest) :=
      (List.sublist_cons_self item rest).append_left front
    rw [after, expected]
    exact fewer.trans (before ▸ h.ordered)
  once := by
    have last : (front ++ rest ++ (c.lost ++ [item])).Perm (front ++ item :: rest ++ c.lost) := by
      have first : (front ++ item :: rest).Perm (item :: (front ++ rest)) := List.perm_middle
      refine .trans ?_ (first.append_right _).symm
      rw [← List.append_assoc]
      exact List.perm_append_singleton _ _
    rw [after, lost, expected]
    exact last.trans (before ▸ h.once)
  counted := by
    rw [lost, count, h.counted, List.length_append]
    rfl

theorem Sound.take (h : c.Sound maxlen sinceOffset) (k : Nat) :
    (c.take k).Sound maxlen sinceOffset := by
  rcases h.one with none | ⟨s, one⟩
  · rw [take_idle none]
    exact h
  · obtain ⟨line, lost, dropped⟩ := take_kept s
    have alone : (c.take k).subscriptions ≠ [] := by
      intro none
      have short := congrArg List.length none
      simp [Channel.take, one] at short
    refine h.moved (List.length_modify _ _ _) h.numbers (fun none => absurd none alone) rfl ?_ ?_ ?_
    · cases k with
      | zero => simp [Channel.waiting, Channel.take, one, ← List.append_assoc, line]
      | succ k => simp [Channel.waiting, Channel.take, one]
    · cases k with
      | zero => simp [Channel.lost, Channel.take, one, lost]
      | succ k => simp [Channel.lost, Channel.take, one]
    · cases k with
      | zero => simp [Channel.dropped, Channel.take, one, dropped]
      | succ k => simp [Channel.dropped, Channel.take, one]

theorem Sound.callback (h : c.Sound maxlen sinceOffset) (k : Nat) (raises : Bool) :
    (c.callback k raises).Sound maxlen sinceOffset := by
  rcases h.one with none | ⟨s, one⟩
  · rw [callback_idle none]
    exact h
  · have few : (c.callback k raises).subscriptions.length = c.subscriptions.length :=
      List.length_modify _ _ _
    have alone : (c.callback k raises).subscriptions ≠ [] := by
      intro none
      rw [none, one] at few
      exact Nat.zero_ne_one few
    cases k with
    | succ k =>
      refine h.moved few h.numbers (fun none => absurd none alone) rfl ?_ ?_ ?_
      · simp [Channel.waiting, Channel.callback, one]
      · simp [Channel.lost, Channel.callback, one]
      · simp [Channel.dropped, Channel.callback, one]
    | zero =>
      cases hand : s.inHand with
      | none =>
        refine h.moved few h.numbers (fun none => absurd none alone) rfl ?_ ?_ ?_
        · simp [Channel.waiting, Channel.callback, one, Subscription.callback, hand]
        · simp [Channel.lost, Channel.callback, one, Subscription.callback, hand]
        · simp [Channel.dropped, Channel.callback, one, Subscription.callback, hand]
      | some item =>
        cases raises with
        | false =>
          refine h.moved few h.numbers (fun none => absurd none alone) rfl ?_ ?_ ?_
          · simp [Channel.waiting, Channel.callback, one, Subscription.callback, hand]
          · simp [Channel.lost, Channel.callback, one, Subscription.callback, hand]
          · simp [Channel.dropped, Channel.callback, one, Subscription.callback, hand]
        | true =>
          refine h.dropped c.delivered (s.queue ++ c.pending.map fun p => (p.own, p.line)) item few
            h.numbers (fun none => absurd none alone) rfl ?_ ?_ ?_ ?_
          · simp [Channel.waiting, one, hand]
          · simp [Channel.waiting, Channel.callback, one, Subscription.callback, hand]
          · simp [Channel.lost, Channel.callback, one, Subscription.callback, hand]
          · simp [Channel.dropped, Channel.callback, one, Subscription.callback, hand]

/-- The next step of an `append` that has read its number, or reads it now. -/
theorem Sound.submit (h : c.Sound maxlen sinceOffset) (i : Nat)
    (next : ∀ p, c.pending[i]? = some p → match p.number with
      | none => c.buffer.nextLineNo = p.own + 1
      | some _ => i = 0) : (c.submit i).Sound maxlen sinceOffset := by
  rcases h.one with none | ⟨s, one⟩
  · rw [submit_idle (h.alone none)]
    exact h
  · cases hp : c.pending[i]? with
    | none =>
      have idle : c.submit i = c := by simp [Channel.submit, hp]
      rw [idle]
      exact h
    | some p =>
      obtain ⟨goesTo, known⟩ := h.numbers p (List.mem_of_getElem? hp)
      obtain ⟨own, line, subscribers, number⟩ := p
      obtain rfl : subscribers = [0] := goesTo
      have now := next _ hp
      cases number with
      | none =>
        have number : c.buffer.nextLineNo - 1 = own := by
          simp only at now
          omega
        have step : c.submit i =
            { c with pending := c.pending.set i ⟨own, line, [0], some own⟩ } := by
          simp [Channel.submit, hp, number]
        have same : (c.pending.set i ⟨own, line, [0], some own⟩).map (fun p => (p.own, p.line)) =
            c.pending.map fun p => (p.own, p.line) := by
          obtain ⟨short, item⟩ := List.getElem?_eq_some_iff.mp hp
          have bound : i < (c.pending.map fun p => (p.own, p.line)).length := by
            simpa using short
          have there : (c.pending.map fun p => (p.own, p.line))[i] = (own, line) := by
            rw [List.getElem_map, item]
          rw [List.map_set, ← there]
          exact List.set_getElem_self bound
        rw [step]
        refine h.moved rfl ?_ (fun none => absurd none (by simp [one])) rfl ?_ rfl rfl
        · intro p hp
          rcases List.mem_or_eq_of_mem_set hp with old | rfl
          · exact h.numbers p old
          · exact ⟨rfl, fun n hn => (Option.some.inj hn).symm⟩
        · simp only [Channel.waiting, same]
      | some number =>
        obtain rfl : i = 0 := now
        obtain rfl : number = own := known number rfl
        obtain ⟨rest, pending⟩ : ∃ rest, c.pending = ⟨number, line, [0], some number⟩ :: rest := by
          cases hc : c.pending with
          | nil => simp [hc] at hp
          | cons p rest =>
            rw [hc] at hp
            exact ⟨rest, by rw [Option.some.inj hp]⟩
        have step : c.submit 0 =
            { c with subscriptions := [s.submit (number, line)], pending := rest } := by
          simp [Channel.submit, pending, one]
        have numbers : ∀ p ∈ rest, p.subscribers = [0] ∧ ∀ n, p.number = some n → n = p.own := by
          intro p hp
          exact h.numbers p (by rw [pending]; exact List.mem_cons_of_mem _ hp)
        rw [step]
        by_cases room : s.queue.length < subscriberQueueCapacity
        · refine h.moved (by simp [one]) numbers (fun none => absurd none (by simp)) rfl ?_ ?_ ?_
          · simp [Channel.waiting, one, pending, Subscription.submit, room]
          · simp [Channel.lost, one, Subscription.submit, room]
          · simp [Channel.dropped, one, Subscription.submit, room]
        · refine h.dropped (c.delivered ++ (s.inHand.toList ++ s.queue))
            (rest.map fun p => (p.own, p.line)) (number, line) (by simp [one]) numbers
            (fun none => absurd none (by simp)) rfl ?_ ?_ ?_ ?_
          · simp [Channel.waiting, one, pending]
          · simp [Channel.waiting, Subscription.submit, room]
          · simp [Channel.lost, one, Subscription.submit, room]
          · simp [Channel.dropped, one, Subscription.submit, room]

end

end Channel

section Runs

variable {maxlen : Nat} {sinceOffset : Int}

/-- How a channel stands while `tail` is at work. -/
def Stands (maxlen : Nat) (sinceOffset : Int) (a : Attaching) (c : Channel) : Prop :=
  match a with
  | .before => c.Untouched
  | .replaying names | .notice names =>
    if c.name ∈ names then c.Untouched
    else c.Sound maxlen sinceOffset ∧ c.subscriptions = []
  | .handing name items names =>
    if c.name = name then c.Replaying maxlen sinceOffset items
    else if c.name ∈ names then c.Untouched
    else c.Sound maxlen sinceOffset ∧ c.subscriptions = []
  | .replayed => c.Sound maxlen sinceOffset ∧ c.subscriptions = []
  | .subscribing names =>
    c.Sound maxlen sinceOffset ∧ (c.name ∈ names → c.subscriptions = [])
  | .attached => c.Sound maxlen sinceOffset
  | .raised => False

/-- The channels that `tail` still goes through. -/
def Attaching.names : Attaching → List String
  | .replaying names => names
  | .handing name _ names => name :: names
  | .notice names => names
  | .subscribing names => names
  | _ => []

/-- What holds of every state of an orderly run. -/
structure Good (maxlen : Nat) (sinceOffset : Int) (s : State) : Prop where
  bound : s.maxlen = maxlen
  since : s.sinceOffset = sinceOffset
  distinct : s.names.Nodup
  left : s.attaching.names.Nodup
  known : ∀ name ∈ s.attaching.names, name ∈ s.names
  calm : s.attaching ≠ .raised
  kept : ∀ c ∈ s.channels, c.Kept maxlen sinceOffset
  stands : ∀ c ∈ s.channels, Stands maxlen sinceOffset s.attaching c

theorem names_on (s : State) (name : String) (f : Channel → Channel)
    (same : ∀ c, (f c).name = c.name) : (s.on name f).names = s.names := by
  rw [State.names, State.on, List.map_map]
  refine List.map_congr_left ?_
  intro c _
  by_cases h : c.name = name
  · simp [h, same]
  · simp [h]

theorem mem_on {s : State} {name : String} {f : Channel → Channel} {c' : Channel}
    (h : c' ∈ (s.on name f).channels) :
    ∃ c ∈ s.channels, c' = if c.name = name then f c else c := by
  obtain ⟨c, hc, rfl⟩ := List.mem_map.mp h
  exact ⟨c, hc, rfl⟩

/-- A step on one channel, after which `tail` stands at `a`. -/
theorem Good.onTo {s : State} (good : Good maxlen sinceOffset s) {name : String}
    {f : Channel → Channel} {a : Attaching} (same : ∀ c, (f c).name = c.name)
    (kept : ∀ c, c.Kept maxlen sinceOffset → (f c).Kept maxlen sinceOffset)
    (left : a.names.Nodup) (known : ∀ name ∈ a.names, name ∈ s.names) (calm : a ≠ .raised)
    (this : ∀ c ∈ s.channels, c.name = name → Stands maxlen sinceOffset s.attaching c →
      Stands maxlen sinceOffset a (f c))
    (other : ∀ c ∈ s.channels, c.name ≠ name → Stands maxlen sinceOffset s.attaching c →
      Stands maxlen sinceOffset a c) :
    Good maxlen sinceOffset { s.on name f with attaching := a } where
  bound := good.bound
  since := good.since
  distinct := by
    have old := good.distinct
    rwa [← names_on s name f same] at old
  left := left
  known := by
    intro other ho
    have old := known other ho
    rwa [← names_on s name f same] at old
  calm := calm
  kept := by
    intro c' hc'
    obtain ⟨c, hc, rfl⟩ := mem_on hc'
    by_cases h : c.name = name
    · rw [if_pos h]
      exact kept c (good.kept c hc)
    · rw [if_neg h]
      exact good.kept c hc
  stands := by
    intro c' hc'
    obtain ⟨c, hc, rfl⟩ := mem_on hc'
    by_cases h : c.name = name
    · rw [if_pos h]
      exact this c hc h (good.stands c hc)
    · rw [if_neg h]
      exact other c hc h (good.stands c hc)

/-- A step on one channel while `tail` stays where it is. -/
theorem Good.on {s : State} (good : Good maxlen sinceOffset s) {name : String}
    {f : Channel → Channel} (same : ∀ c, (f c).name = c.name)
    (kept : ∀ c, c.Kept maxlen sinceOffset → (f c).Kept maxlen sinceOffset)
    (this : ∀ c ∈ s.channels, c.name = name → Stands maxlen sinceOffset s.attaching c →
      Stands maxlen sinceOffset s.attaching (f c)) : Good maxlen sinceOffset (s.on name f) :=
  good.onTo (a := s.attaching) same kept good.left good.known good.calm this fun _ _ _ h => h

/-- A step of a channel, by what it keeps wherever `tail` stands. -/
theorem Stands.map {a : Attaching} {c c' : Channel} (h : Stands maxlen sinceOffset a c)
    (left : a.names.Nodup) (name : c'.name = c.name) (untouched : a.Ahead c.name → c.Untouched → c'.Untouched)
    (replaying : ∀ items, ¬a.Ahead c.name → c.Replaying maxlen sinceOffset items →
      c'.Replaying maxlen sinceOffset items)
    (behind : ¬a.Ahead c.name → c.Sound maxlen sinceOffset → c.subscriptions = [] →
      c'.Sound maxlen sinceOffset ∧ c'.subscriptions = [])
    (subscribed : c.Sound maxlen sinceOffset → c.subscriptions ≠ [] →
      c'.Sound maxlen sinceOffset) : Stands maxlen sinceOffset a c' := by
  have either : ¬a.Ahead c.name → c.Sound maxlen sinceOffset → c'.Sound maxlen sinceOffset := by
    intro notAhead sound
    by_cases none : c.subscriptions = []
    · exact (behind notAhead sound none).1
    · exact subscribed sound none
  cases a with
  | before => exact untouched trivial h
  | replaying names =>
    simp only [Stands, name] at h ⊢
    by_cases mem : c.name ∈ names
    · rw [if_pos mem] at h ⊢
      exact untouched mem h
    · rw [if_neg mem] at h ⊢
      exact behind mem h.1 h.2
  | handing name' items names =>
    simp only [Stands, name] at h ⊢
    by_cases now : c.name = name'
    · rw [if_pos now] at h ⊢
      subst now
      exact replaying items (List.nodup_cons.mp left).1 h
    · rw [if_neg now] at h ⊢
      by_cases mem : c.name ∈ names
      · rw [if_pos mem] at h ⊢
        exact untouched mem h
      · rw [if_neg mem] at h ⊢
        exact behind mem h.1 h.2
  | notice names =>
    simp only [Stands, name] at h ⊢
    by_cases mem : c.name ∈ names
    · rw [if_pos mem] at h ⊢
      exact untouched mem h
    · rw [if_neg mem] at h ⊢
      exact behind mem h.1 h.2
  | replayed => exact behind id h.1 h.2
  | subscribing names =>
    refine ⟨either id h.1, ?_⟩
    intro mem
    rw [name] at mem
    exact (behind id h.1 (h.2 mem)).2
  | attached => exact either id h
  | raised => exact h.elim

/-- A step that a channel without subscription does not take part in. -/
theorem Stands.idle {a : Attaching} {c c' : Channel} (h : Stands maxlen sinceOffset a c)
    (left : a.names.Nodup) (name : c'.name = c.name)
    (idle : c.subscriptions = [] → c.pending = [] → c' = c)
    (sound : c.Sound maxlen sinceOffset → c'.Sound maxlen sinceOffset) :
    Stands maxlen sinceOffset a c' := by
  refine h.map left name ?_ ?_ ?_ (fun old _ => sound old)
  · intro _ old
    rwa [idle old.subscriptions old.pending]
  · intro items _ old
    rwa [idle old.subscriptions old.pending]
  · intro _ old none
    rw [idle none (old.alone none)]
    exact ⟨old, none⟩

theorem Stands.append {a : Attaching} {c : Channel} (h : Stands maxlen sinceOffset a c)
    (left : a.names.Nodup) (kept : c.Kept maxlen sinceOffset)
    (ok : c.subscriptions ≠ [] ∨ a.Ahead c.name) (line : String) :
    Stands maxlen sinceOffset a (c.append line) := by
  refine h.map left rfl (fun _ old => old.append kept line) ?_ ?_
    (fun old there => old.append kept there line)
  · intro items notAhead old
    exact absurd (ok.resolve_right notAhead) (not_not_intro old.subscriptions)
  · intro notAhead _ none
    exact absurd (ok.resolve_right notAhead) (not_not_intro none)

theorem Channel.name_submit (c : Channel) (i : Nat) : (c.submit i).name = c.name := by
  unfold Channel.submit
  split <;> rfl

/-- A channel that is used for the first time. -/
theorem Stands.new {a : Attaching} {name : String} (raised : a ≠ .raised)
    (unknown : name ∉ a.names) :
    Stands maxlen sinceOffset a { name, buffer := { maxlen := maxlen } } := by
  let c : Channel := { name, buffer := { maxlen := maxlen } }
  have fresh : c.Untouched := ⟨rfl, rfl, rfl, rfl⟩
  have sound : c.Sound maxlen sinceOffset := fresh.sound rfl
  cases a with
  | before => exact fresh
  | replaying names =>
    simp only [Stands]
    rw [if_neg (show c.name ∉ names from unknown)]
    exact ⟨sound, trivial⟩
  | handing name' items names =>
    obtain ⟨other, unknown⟩ := not_or.mp (mt List.mem_cons.mpr unknown)
    simp only [Stands]
    rw [if_neg (show c.name ≠ name' from other), if_neg (show c.name ∉ names from unknown)]
    exact ⟨sound, trivial⟩
  | notice names =>
    simp only [Stands]
    rw [if_neg (show c.name ∉ names from unknown)]
    exact ⟨sound, trivial⟩
  | replayed => exact ⟨sound, rfl⟩
  | subscribing names => exact ⟨sound, fun _ => rfl⟩
  | attached => exact sound
  | raised => exact absurd rfl raised

theorem Good.start : Good maxlen sinceOffset { maxlen, sinceOffset } where
  bound := rfl
  since := rfl
  distinct := List.nodup_nil
  left := List.nodup_nil
  known := fun _ h => h
  calm := fun h => nomatch h
  kept := fun _ hc => absurd hc List.not_mem_nil
  stands := fun _ hc => absurd hc List.not_mem_nil

/-- `LogRingBuffer.channel`. -/
theorem Good.channel {s : State} (good : Good maxlen sinceOffset s) (name : String) :
    Good maxlen sinceOffset (s.step (.channel name)) := by
  rw [State.step]
  by_cases known : name ∈ s.names
  · rw [if_pos known]
    exact good
  · rw [if_neg known]
    refine ⟨good.bound, good.since, ?_, good.left, ?_, good.calm, ?_, ?_⟩
    · rw [State.names, List.map_append]
      refine List.nodup_append.mpr ⟨good.distinct, by simp, ?_⟩
      intro a ha b hb same
      have last : b = name := by simpa using hb
      rw [same, last] at ha
      exact known ha
    · intro other ho
      have old := good.known other ho
      rw [State.names, List.map_append]
      exact List.mem_append_left _ old
    · intro c hc
      rcases List.mem_append.mp hc with old | new
      · exact good.kept c old
      · rw [List.mem_singleton.mp new]
        exact ⟨good.bound, rfl, by simp [bounded, numbered], rfl, Nat.le_refl 0⟩
    · intro c hc
      rcases List.mem_append.mp hc with old | new
      · exact good.stands c old
      · rw [List.mem_singleton.mp new, good.bound]
        exact .new good.calm fun mem => known (good.known name mem)

/-- `tail` goes on without a step on a channel. -/
theorem Good.goesOn {s : State} (good : Good maxlen sinceOffset s) {a : Attaching} (trimmed : Nat)
    (left : a.names.Nodup) (known : ∀ name ∈ a.names, name ∈ s.names) (calm : a ≠ .raised)
    (stands : ∀ c ∈ s.channels, Stands maxlen sinceOffset s.attaching c →
      Stands maxlen sinceOffset a c) :
    Good maxlen sinceOffset { s with attaching := a, trimmed := trimmed } where
  bound := good.bound
  since := good.since
  distinct := good.distinct
  left := left
  known := known
  calm := calm
  kept := good.kept
  stands := fun c hc => stands c hc (good.stands c hc)

theorem channel?_eq {s : State} (distinct : s.names.Nodup) {c : Channel} (hc : c ∈ s.channels) :
    s.channel? c.name = some c := Framework.find?_of_nodup distinct hc

/-- The next step of `tail`, in which the sink does not raise. -/
theorem Good.tail {s : State} (good : Good maxlen sinceOffset s) :
    Good maxlen sinceOffset (s.tail false) := by
  have left := good.left
  have known := good.known
  cases ha : s.attaching with
  | before =>
    have step : s.tail false = { s with attaching := .replaying s.names, trimmed := s.trimmed } := by
      simp [State.tail, ha]
    rw [step]
    refine good.goesOn s.trimmed good.distinct (fun _ h => h) (fun h => nomatch h) ?_
    intro c hc h
    rw [ha] at h
    simp only [Stands]
    have mem : c.name ∈ s.names := List.mem_map_of_mem hc
    rwa [if_pos mem]
  | replaying names =>
    rw [ha] at left known
    cases names with
    | nil =>
      have step : s.tail false = { s with attaching := .replayed, trimmed := s.trimmed } := by
        simp [State.tail, ha]
      rw [step]
      refine good.goesOn s.trimmed List.nodup_nil (fun _ h => absurd h List.not_mem_nil)
        (fun h => nomatch h) ?_
      intro c hc h
      rw [ha] at h
      simp only [Stands] at h
      rwa [if_neg List.not_mem_nil] at h
    | cons name names =>
      have step : s.tail false =
          { s.on name fun c => { c with replayedAt := some c.history.length } with
            attaching := .handing name (s.retained name) names } := by
        simp [State.tail, ha]
      rw [step]
      refine good.onTo (fun _ => rfl) (fun c kept => kept.replay) left known (fun h => nomatch h) ?_ ?_
      · intro c hc now h
        subst now
        rw [ha] at h
        simp only [Stands] at h ⊢
        rw [if_pos List.mem_cons_self] at h
        rw [if_pos trivial]
        have items : s.retained c.name = c.buffer.tail sinceOffset := by
          rw [State.retained, channel?_eq good.distinct hc, good.since]
        rw [items]
        exact h.replay (good.kept c hc)
      · intro c hc other h
        rw [ha] at h
        simp only [Stands] at h ⊢
        rw [if_neg other]
        simpa only [List.mem_cons, other, false_or] using h
  | handing name items names =>
    rw [ha] at left known
    cases items with
    | nil =>
      have stands : ∀ c ∈ s.channels, Stands maxlen sinceOffset s.attaching c →
          if c.name ∈ names then c.Untouched
          else c.Sound maxlen sinceOffset ∧ c.subscriptions = [] := by
        intro c hc h
        rw [ha] at h
        simp only [Stands] at h
        by_cases now : c.name = name
        · rw [if_pos now] at h
          rw [if_neg (now ▸ (List.nodup_cons.mp left).1)]
          exact ⟨h.sound, h.subscriptions⟩
        · rwa [if_neg now] at h
      have rest : names.Nodup := (List.nodup_cons.mp left).2
      have there : ∀ name ∈ names, name ∈ s.names :=
        fun other ho => known other (List.mem_cons_of_mem _ ho)
      have step : s.tail false = { s with
          attaching := if s.trimmedPast name then .notice names else .replaying names
          trimmed := s.trimmed } := by
        simp [State.tail, ha]
      rw [step]
      cases s.trimmedPast name with
      | true => exact good.goesOn s.trimmed rest there (fun h => nomatch h) stands
      | false => exact good.goesOn s.trimmed rest there (fun h => nomatch h) stands
    | cons item items =>
      have step : s.tail false =
          { s.on name fun c => { c with delivered := c.delivered ++ [item] } with
            attaching := .handing name items names } := by
        simp [State.tail, ha]
      rw [step]
      refine good.onTo (fun _ => rfl) (fun c kept => kept.congr rfl rfl rfl rfl) left known
        (fun h => nomatch h) ?_ ?_
      · intro c hc now h
        rw [ha] at h
        simp only [Stands] at h ⊢
        rw [if_pos now] at h ⊢
        refine ⟨h.subscriptions, h.pending, ?_⟩
        rw [List.append_assoc]
        exact h.lines
      · intro c hc other h
        rw [ha] at h
        simp only [Stands] at h ⊢
        rw [if_neg other] at h ⊢
        exact h
  | notice names =>
    rw [ha] at left known
    have step : s.tail false =
        { s with attaching := .replaying names, trimmed := s.trimmed + 1 } := by
      simp [State.tail, ha]
    rw [step]
    refine good.goesOn (s.trimmed + 1) left known (fun h => nomatch h) ?_
    intro c hc h
    rw [ha] at h
    exact h
  | replayed =>
    have step : s.tail false = { s with attaching := .subscribing s.names, trimmed := s.trimmed } := by
      simp [State.tail, ha]
    rw [step]
    refine good.goesOn s.trimmed good.distinct (fun _ h => h) (fun h => nomatch h) ?_
    intro c hc h
    rw [ha] at h
    exact ⟨h.1, fun _ => h.2⟩
  | subscribing names =>
    rw [ha] at left known
    cases names with
    | nil =>
      have step : s.tail false = { s with attaching := .attached, trimmed := s.trimmed } := by
        simp [State.tail, ha]
      rw [step]
      refine good.goesOn s.trimmed List.nodup_nil (fun _ h => absurd h List.not_mem_nil)
        (fun h => nomatch h) ?_
      intro c hc h
      rw [ha] at h
      exact h.1
    | cons name names =>
      have step : s.tail false =
          { s.on name Channel.subscribe with attaching := .subscribing names } := by
        simp [State.tail, ha]
      rw [step]
      obtain ⟨last, rest⟩ := List.nodup_cons.mp left
      refine good.onTo (fun _ => rfl) (fun c kept => kept.subscribe) rest
        (fun other ho => known other (List.mem_cons_of_mem _ ho)) (fun h => nomatch h) ?_ ?_
      · intro c hc now h
        rw [ha] at h
        have none := h.2 (now ▸ List.mem_cons_self)
        refine ⟨h.1.subscribe none, ?_⟩
        intro mem
        exact absurd (now ▸ mem) last
      · intro c hc other h
        rw [ha] at h
        exact ⟨h.1, fun mem => h.2 (List.mem_cons_of_mem _ mem)⟩
  | attached =>
    have step : s.tail false = s := by simp [State.tail, ha]
    rw [step]
    exact good
  | raised =>
    have step : s.tail false = s := by simp [State.tail, ha]
    rw [step]
    exact good

theorem Good.step {s : State} (good : Good maxlen sinceOffset s) (m : Move) (ok : Orderly s m) :
    Good maxlen sinceOffset (s.step m) := by
  cases m with
  | channel name => exact good.channel name
  | append name line =>
    refine good.on (fun _ => rfl) (fun c kept => kept.append line) ?_
    intro c hc now h
    exact h.append good.left (good.kept c hc) (now ▸ ok c hc now) line
  | submit name i =>
    refine good.on (fun c => c.name_submit i) (fun c kept => kept.submit i) ?_
    intro c hc now h
    exact h.idle good.left (c.name_submit i) (fun _ none => Channel.submit_idle none i)
      fun sound => sound.submit i (ok c hc now)
  | take name k =>
    refine good.on (fun _ => rfl) (fun c kept => kept.take k) ?_
    intro c hc now h
    exact h.idle good.left rfl (fun none _ => Channel.take_idle none k) fun sound => sound.take k
  | callback name k raises =>
    refine good.on (fun _ => rfl) (fun c kept => kept.callback k raises) ?_
    intro c hc now h
    exact h.idle good.left rfl (fun none _ => Channel.callback_idle none k raises)
      fun sound => sound.callback k raises
  | tail raises =>
    obtain rfl : raises = false := ok
    exact good.tail

theorem Run.good {s : State} (run : Run Orderly maxlen sinceOffset s) :
    Good maxlen sinceOffset s := by
  induction run with
  | start => exact .start
  | step m run ok ih => exact ih.step m ok

theorem Good.delivers {s : State} (good : Good maxlen sinceOffset s) : s.Delivers := by
  intro back c hc
  have stands := good.stands c hc
  rw [good.bound, good.since]
  rcases back with attached | raised
  · rw [attached] at stands
    exact stands.accounted
  · rw [raised] at stands
    exact stands.elim

end Runs

/-- In every run in which no line is appended to a channel between its replay and its subscription
and the appends of a channel do not overtake one another, the sink gets every line once. -/
theorem sink_delivers (maxlen : Nat) (sinceOffset : Int) (s : State)
    (run : Run Orderly maxlen sinceOffset s) : s.Delivers := run.good.delivers

/-- So many steps of `tail`. -/
def State.tails (s : State) (n : Nat) : State :=
  (List.replicate n (Move.tail false)).foldl State.step s

theorem Run.tails {ok : State → Move → Prop} {maxlen : Nat} {sinceOffset : Int}
    (tail : ∀ s, ok s (.tail false)) (n : Nat) {s : State} (run : Run ok maxlen sinceOffset s) :
    Run ok maxlen sinceOffset (s.tails n) := by
  induction n generalizing s with
  | zero => exact run
  | succ n ih => exact ih (.step (.tail false) run (tail s))

/-- A server that has said one thing. -/
def started : State :=
  ((State.step { maxlen := 5000, sinceOffset := 0 } (.channel "stdout")).step
    (.append "stdout" "Starting"))

theorem Run.started {ok : State → Move → Prop} (channel : ∀ s name, ok s (.channel name))
    (append : ok (State.step { maxlen := 5000, sinceOffset := 0 } (.channel "stdout"))
      (.append "stdout" "Starting")) : Run ok 5000 0 started :=
  .step _ (.step _ .start (channel _ _)) append

theorem sink_delivers_started : (started.tails 8).Delivers ∧
    (started.tails 8).attaching = .attached ∧
    (started.tails 8).channels.map (·.delivered) = [[(0, "Starting")]] := by
  have run : Run Orderly 5000 0 started :=
    .started (fun _ _ => trivial) (fun _ _ _ => .inr trivial)
  have tail : ∀ s, Orderly s (.tail false) := fun _ => rfl
  refine ⟨sink_delivers 5000 0 _ (run.tails tail 8), ?_, ?_⟩
  · decide +kernel
  · decide +kernel

/-- A line that comes after the replay and before the subscription does not reach the sink. -/
theorem startup_line_lost : ¬∀ (maxlen : Nat) (sinceOffset : Int) (s : State),
    Run (fun _ _ => True) maxlen sinceOffset s → s.Delivers := by
  intro h
  let s := ((started.tails 4).step (.append "stdout" "Done (5.2s)!")).tails 4
  have first : Run (fun _ _ => True) 5000 0 started := .started (fun _ _ => trivial) trivial
  have run : Run (fun _ _ => True) 5000 0 s :=
    .tails (fun _ => trivial) 4 (.step _ (first.tails (fun _ => trivial) 4) trivial)
  have attached : s.attaching = .attached := by decide +kernel
  have lines : ∀ c ∈ s.channels, (c.delivered ++ c.waiting ++ c.lost).length = 1 ∧
      (c.expected s.maxlen s.sinceOffset).length = 2 := by decide +kernel
  have some : ∃ c, c ∈ s.channels := List.exists_mem_of_length_pos (by decide +kernel)
  obtain ⟨c, hc⟩ := some
  have same := (h 5000 0 s run (.inl attached) c hc).once.length_eq
  rw [(lines c hc).1, (lines c hc).2] at same
  exact absurd same (by decide)

end McManager.Tailing
