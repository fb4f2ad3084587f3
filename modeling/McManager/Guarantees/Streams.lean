import Mathlib.Data.List.Basic
import McManager.Services.Realtime

namespace McManager.Realtime

open Web

/-- Consecutive numbers that end right before `n`. -/
def UpTo (n : Nat) (l : List Nat) : Prop := ∃ a, a + l.length = n ∧ l = List.range' a l.length

/-- Numbers that increase by one from the first of them on. -/
def Contiguous (l : List Nat) : Prop := ∃ a, l = List.range' a l.length

namespace UpTo

variable {n : Nat} {l : List Nat}

theorem nil (n : Nat) : UpTo n [] := ⟨n, rfl, rfl⟩

theorem contiguous (h : UpTo n l) : Contiguous l := by
  obtain ⟨a, -, same⟩ := h
  exact ⟨a, same⟩

theorem snoc (h : UpTo n l) : UpTo (n + 1) (l ++ [n]) := by
  obtain ⟨a, ends, same⟩ := h
  refine ⟨a, ?_, ?_⟩
  · simp only [List.length_append, List.length_singleton]
    omega
  · have last : a + l.length = n := ends
    rw [List.length_append, List.length_singleton, List.range'_concat, ← same, Nat.one_mul, last]

theorem tail {m : Nat} (h : UpTo n (m :: l)) : UpTo n l := by
  obtain ⟨a, ends, same⟩ := h
  rw [List.length_cons, List.range'_succ] at same
  refine ⟨a + 1, ?_, (List.cons.inj same).2⟩
  simp only [List.length_cons] at ends
  omega

theorem drop (h : UpTo n l) (k : Nat) : UpTo n (l.drop k) := by
  induction k generalizing l with
  | zero => exact h
  | succ k ih =>
    cases l with
    | nil => exact nil n
    | cons m l => exact ih h.tail

/-- The numbers above a bound are the end of the list, from the successor of the bound on when
that is among them. -/
theorem above (h : UpTo n l) (b : Int) :
    UpTo n (l.filter fun m : Nat => decide (b < (m : Int))) ∧
      ∀ m ∈ l, (m : Int) = b + 1 →
        (l.filter fun m : Nat => decide (b < (m : Int))).head? = some m := by
  induction l with
  | nil => exact ⟨nil n, fun m hm => nomatch hm⟩
  | cons x l ih =>
    have rest := ih h.tail
    obtain ⟨a, ends, same⟩ := h
    rw [List.length_cons, List.range'_succ] at same
    obtain ⟨rfl, same⟩ := List.cons.inj same
    have larger : ∀ m ∈ l, x < m := by
      intro m hm
      rw [same, List.mem_range'_1] at hm
      omega
    by_cases isOver : b < (x : Int)
    · have all : l.filter (fun m : Nat => decide (b < (m : Int))) = l := by
        rw [List.filter_eq_self]
        intro m hm
        have := larger m hm
        simp only [decide_eq_true_eq]
        omega
      rw [List.filter_cons_of_pos (by simpa using isOver), all]
      refine ⟨⟨x, ends, ?_⟩, ?_⟩
      · rw [List.length_cons, List.range'_succ, ← same]
      · intro m hm next
        obtain rfl | hm := List.mem_cons.mp hm
        · rfl
        · have := larger m hm
          omega
    · rw [List.filter_cons_of_neg (by simpa using isOver)]
      refine ⟨rest.1, ?_⟩
      intro m hm next
      obtain rfl | hm := List.mem_cons.mp hm
      · omega
      · exact rest.2 m hm next

end UpTo

theorem Contiguous.front {l m : List Nat} (h : Contiguous (l ++ m)) : Contiguous l := by
  obtain ⟨a, same⟩ := h
  refine ⟨a, ?_⟩
  rw [List.length_append, ← List.range'_append_1] at same
  exact (List.append_inj same (by simp)).1

def Output.id? : Output → Option Nat
  | .frame e => some e.sequence
  | _ => none

def Item.id? : Item → Option Nat
  | .frame e => some e.sequence
  | .stop => none

/-- The event ids among what a client was given. -/
def ids (l : List Output) : List Nat := l.filterMap Output.id?

/-- The event ids that wait in a queue. -/
def queued (s : Subscriber) : List Nat := s.queue.filterMap Item.id?

/-- The event id of what `Queue.get` came back with. -/
def Client.held (c : Client) : List Nat := ((c.got.bind id).bind Item.id?).toList

/-- The ids a client was given and those that wait for it. -/
def Client.seen (c : Client) : List Nat := ids c.yielded ++ c.held ++ queued c.subscriber

def sequences (l : List StreamEvent) : List Nat := l.map StreamEvent.sequence

section Queues

variable {s : Subscriber} {e : StreamEvent} {taken : Bool}

theorem put_ok (h : (s.put e taken).2 = true) :
    s.closed = false ∧ (s.put e taken).1 = { s with queue := s.queue ++ [.frame e] } := by
  unfold Subscriber.put at h ⊢
  cases hc : s.closed with
  | true => simp [hc] at h
  | false =>
    refine ⟨rfl, ?_⟩
    by_cases room : s.queue.length < queueSize
    · simp [Subscriber.putNowait, room, hc]
    · simp [Subscriber.putNowait, room, hc] at h

theorem queued_close (s : Subscriber) (taken : Bool) : queued (s.close taken) = queued s := by
  unfold Subscriber.close
  split
  · rfl
  · split
    · simp [queued, Item.id?]
    · by_cases room : s.queue.length < queueSize
      · simp [Subscriber.putNowait, room, queued, Item.id?]
      · simp [Subscriber.putNowait, room, queued]

theorem closed_close (s : Subscriber) (taken : Bool) : (s.close taken).closed = true := by
  unfold Subscriber.close
  cases hc : s.closed with
  | true => simp [hc]
  | false =>
    cases taken with
    | true => rfl
    | false => by_cases room : s.queue.length < queueSize <;> simp [Subscriber.putNowait, room]

theorem put_failed (h : (s.put e taken).2 = false) :
    queued (s.put e taken).1 = queued s ∧ (s.put e taken).1.closed = true := by
  unfold Subscriber.put at h ⊢
  cases hc : s.closed with
  | true => exact ⟨rfl, hc⟩
  | false =>
    by_cases room : s.queue.length < queueSize
    · simp [Subscriber.putNowait, room, hc] at h
    · simp only [Subscriber.putNowait, room, if_false, Bool.false_eq_true]
      exact ⟨queued_close s taken, closed_close s taken⟩

theorem queued_put (h : (s.put e taken).2 = true) :
    queued (s.put e taken).1 = queued s ++ [e.sequence] := by
  rw [(put_ok h).2]
  simp [queued, Item.id?]

/-- What a new subscriber holds of the events that are put to it at once. -/
theorem filled (xs es : List StreamEvent) (room : xs.length ≤ queueSize) :
    es.foldl (fun s e => (Subscriber.put s e false).1) ⟨xs.map .frame, false⟩ =
      ⟨((xs ++ es).take queueSize).map .frame, decide (queueSize < (xs ++ es).length)⟩ := by
  have shut : ∀ (es : List StreamEvent) (s : Subscriber), s.closed = true →
      es.foldl (fun s e => (Subscriber.put s e false).1) s = s := by
    intro es
    induction es with
    | nil => exact fun _ _ => rfl
    | cons e es ih =>
      intro s hs
      rw [List.foldl_cons, Subscriber.put, if_pos hs]
      exact ih s hs
  induction es generalizing xs with
  | nil =>
    rw [List.append_nil, List.take_of_length_le room, decide_eq_false (by omega)]
    rfl
  | cons e es ih =>
    rw [List.foldl_cons]
    by_cases more : xs.length < queueSize
    · have next : ((⟨xs.map .frame, false⟩ : Subscriber).put e false).1 =
          ⟨(xs ++ [e]).map .frame, false⟩ := by
        simp [Subscriber.put, Subscriber.putNowait, more]
      rw [next, ih (xs ++ [e]) (by simp; omega), List.append_assoc, List.singleton_append]
    · have full : xs.length = queueSize := by omega
      have next : ((⟨xs.map .frame, false⟩ : Subscriber).put e false).1 = ⟨xs.map .frame, true⟩ := by
        simp [Subscriber.put, Subscriber.putNowait, Subscriber.close, full]
      rw [next, shut es _ rfl, List.take_append_of_le_length (Nat.le_of_eq full.symm),
        List.take_of_length_le room, decide_eq_true]
      simp only [List.length_append, List.length_cons]
      omega

end Queues

/-- The first event a client was subscribed to be given next, if it was still in the buffer. -/
def Client.wants (c : Client) (id : Nat) : Prop :=
  ∃ n : Int, c.since = some n ∧ (id : Int) = n + 1 ∧ id ∈ sequences c.offered

/-- Where a client stands: what it was given has no gap, and what waits for it goes on from
there, up to the last event of its stream while it is subscribed and open. -/
structure Follows (channel : Channel) (listed : Bool) (c : Client) : Prop where
  given : Contiguous (ids c.yielded)
  waits : c.ended = false → Contiguous c.seen
  upTo : c.ended = false → listed = true → c.subscriber.closed = false → UpTo channel.next c.seen
  first : ∀ id, c.wants id →
    (ids c.yielded = [] ∨ (ids c.yielded).head? = some id) ∧
      (c.ended = false → c.seen.head? = some id)

/-- The invariant of a hub. -/
structure Good (h : Hub) : Prop where
  buffers : ∀ s, UpTo (h.channels s).next (sequences (h.channels s).buffer)
  listed : ∀ s i, (h.channels s).lists i = true → ∃ c, h.clients[i]? = some c ∧ c.stream = s
  clients : ∀ i c, h.clients[i]? = some c →
    Follows (h.channels c.stream) ((h.channels c.stream).lists i) c

theorem upTo_record {c : Channel} (h : UpTo c.next (sequences c.buffer)) (limit : Nat)
    (name : String) (data : Body) :
    UpTo (c.record limit (c.event name data)).next
      (sequences (c.record limit (c.event name data)).buffer) := by
  have all : UpTo (c.next + 1) (sequences (c.buffer ++ [c.event name data])) := by
    rw [sequences, List.map_append]
    exact h.snoc
  simp only [Channel.record, appendBounded, sequences, List.map_drop]
  exact all.drop _

section Clients

variable {channel : Channel} {listed : Bool} {c : Client}

/-- A client that is no longer subscribed, or is closed. -/
theorem Follows.leave (h : Follows channel listed c) (channel' : Channel) {s : Subscriber}
    (same : queued s = queued c.subscriber) {listed' : Bool}
    (off : listed' = false ∨ s.closed = true) :
    Follows channel' listed' { c with subscriber := s } where
  given := h.given
  waits := by
    intro going
    have seen := h.waits going
    rwa [Client.seen, ← same] at seen
  upTo := by
    intro _ on opened
    obtain off | off := off
    · rw [off] at on
      cases on
    · rw [off] at opened
      cases opened
  first := by
    intro id wanted
    have first := h.first id wanted
    rwa [Client.seen, ← same] at first

/-- A frame is put to a subscribed client. -/
theorem Follows.put (h : Follows channel true c) (limit : Nat) (name : String) (data : Body)
    (taken : Bool) :
    Follows (channel.record limit (channel.event name data))
      (c.subscriber.put (channel.event name data) taken).2
      { c with subscriber := (c.subscriber.put (channel.event name data) taken).1 } := by
  cases ok : (c.subscriber.put (channel.event name data) taken).2 with
  | false => exact h.leave _ (put_failed ok).1 (.inl rfl)
  | true =>
    have grown : Client.seen
        { c with subscriber := (c.subscriber.put (channel.event name data) taken).1 } =
          c.seen ++ [channel.next] := by
      rw [Client.seen, queued_put ok, ← List.append_assoc]
      rfl
    have next : c.ended = false → UpTo (channel.next + 1) (c.seen ++ [channel.next]) :=
      fun going => (h.upTo going rfl (put_ok ok).1).snoc
    refine ⟨h.given, ?_, ?_, ?_⟩
    · intro going
      rw [grown]
      exact (next going).contiguous
    · intro going _ _
      rw [grown]
      exact next going
    · intro id wanted
      obtain ⟨given, waiting⟩ := h.first id wanted
      refine ⟨given, ?_⟩
      intro going
      rw [grown, List.head?_append, waiting going]
      rfl

theorem Follows.close (h : Follows channel listed c) (taken : Bool) :
    Follows channel false { c with subscriber := c.subscriber.close taken } :=
  h.leave channel (queued_close c.subscriber taken) (.inl rfl)

/-- A client that ends is given nothing more. -/
theorem Follows.stop (h : Follows channel listed c) {out : List Output} (nothing : ids out = []) :
    Follows channel listed { c with got := none, yielded := c.yielded ++ out, ended := true } := by
  have same : ids (c.yielded ++ out) = ids c.yielded := by
    rw [ids, List.filterMap_append]
    exact (congrArg (ids c.yielded ++ ·) nothing).trans (List.append_nil _)
  refine ⟨?_, fun going => (nomatch going), fun going => (nomatch going), ?_⟩
  · rw [same]
    exact h.given
  · intro id wanted
    refine ⟨?_, fun going => (nomatch going)⟩
    rw [same]
    exact (h.first id wanted).1

/-- A client whose loop goes on: an id moves from its queue to its hand, or to what it was
given. -/
theorem Follows.go (h : Follows channel listed c) (going : c.ended = false) {c' : Client}
    (same : c'.seen = c.seen) (opened : c'.subscriber.closed = c.subscriber.closed)
    (since : c'.since = c.since) (offered : c'.offered = c.offered) :
    Follows channel listed c' := by
  have whole := h.waits going
  rw [← same, Client.seen, List.append_assoc] at whole
  refine ⟨whole.front, ?_, ?_, ?_⟩
  · intro _
    rw [same]
    exact h.waits going
  · intro _ on open'
    rw [same]
    exact h.upTo going on (opened.symm.trans open')
  · intro id wanted
    have wants : c.wants id := by
      rwa [Client.wants, since, offered] at wanted
    have first := (h.first id wants).2 going
    rw [← same] at first
    refine ⟨?_, fun _ => first⟩
    cases given : ids c'.yielded with
    | nil => exact .inl rfl
    | cons x l =>
      right
      rw [Client.seen, given] at first
      exact first

theorem queued_frames (l : List StreamEvent) (closed : Bool) :
    queued ⟨l.map .frame, closed⟩ = sequences l := by
  induction l with
  | nil => rfl
  | cons e l ih => exact congrArg (e.sequence :: ·) ih

theorem sequences_replay {channel : Channel} (since : Option Int) :
    sequences (channel.replay since) =
      match since with
      | none => sequences channel.buffer
      | some n => (sequences channel.buffer).filter fun m : Nat => decide (n < (m : Int)) := by
  cases since with
  | none => rfl
  | some n =>
    simp only [Channel.replay, sequences, List.filter_map]
    rfl

/-- A client that was just subscribed. -/
theorem Follows.new {stream : String} {since : Option Int}
    (buffer : UpTo channel.next (sequences channel.buffer)) {channel' : Channel}
    (same : channel'.next = channel.next) {listed : Bool} :
    Follows channel' listed
      { stream, since, offered := channel.buffer
        subscriber := (channel.replay since).foldl (fun s e => (s.put e false).1) {} } := by
  have replay : UpTo channel.next (sequences (channel.replay since)) := by
    rw [sequences_replay]
    cases since with
    | none => exact buffer
    | some n => exact (buffer.above n).1
  have start : (channel.replay since).foldl (fun s e => (Subscriber.put s e false).1) {} =
      ⟨((channel.replay since).take queueSize).map .frame,
        decide (queueSize < (channel.replay since).length)⟩ :=
    filled [] (channel.replay since) (Nat.zero_le _)
  have seen : Client.seen
      { stream, since, offered := channel.buffer
        subscriber := (channel.replay since).foldl (fun s e => (s.put e false).1) {} } =
          (sequences (channel.replay since)).take queueSize := by
    rw [start, sequences, ← List.map_take]
    exact queued_frames _ _
  refine ⟨⟨0, rfl⟩, ?_, ?_, ?_⟩
  · intro _
    rw [seen]
    have whole := replay.contiguous
    rw [← List.take_append_drop queueSize (sequences (channel.replay since))] at whole
    exact whole.front
  · intro _ _ opened
    rw [start] at opened
    have short : (sequences (channel.replay since)).length ≤ queueSize := by
      have := of_decide_eq_false opened
      rw [sequences, List.length_map]
      omega
    rw [seen, same, List.take_of_length_le short]
    exact replay
  · intro id wanted
    obtain ⟨n, rfl, next, there⟩ := wanted
    have first := (buffer.above n).2 id there next
    refine ⟨.inl rfl, ?_⟩
    intro _
    rw [seen, List.head?_take, if_neg (by decide), sequences_replay]
    exact first

end Clients

section Moves

variable {h : Hub}

theorem getElem?_onClients {p : Nat → Client → Bool} {f : Nat → Client → Client} {i : Nat}
    {c' : Client} (hc : (h.onClients p f)[i]? = some c') :
    ∃ c, h.clients[i]? = some c ∧ c' = if p i c then f i c else c := by
  rw [Hub.onClients, List.getElem?_mapIdx] at hc
  cases there : h.clients[i]? with
  | none =>
    rw [there] at hc
    cases hc
  | some c =>
    rw [there] at hc
    exact ⟨c, rfl, (Option.some.inj hc).symm⟩

theorem getElem?_onClients_stream {p : Nat → Client → Bool} {f : Nat → Client → Client}
    (kept : ∀ i c, (f i c).stream = c.stream) {i : Nat} {c : Client}
    (hc : h.clients[i]? = some c) :
    ∃ c', (h.onClients p f)[i]? = some c' ∧ c'.stream = c.stream := by
  rw [Hub.onClients, List.getElem?_mapIdx, hc]
  refine ⟨_, rfl, ?_⟩
  dsimp only
  split
  · exact kept i c
  · rfl

/-- A client is replaced by one of the same stream. -/
theorem getElem?_set_stream {i : Nat} {c c' : Client} (hc : h.clients[i]? = some c)
    (kept : c'.stream = c.stream) {j : Nat} {d : Client} (hd : h.clients[j]? = some d) :
    ∃ d', (h.clients.set i c')[j]? = some d' ∧ d'.stream = d.stream := by
  by_cases same : i = j
  · subst same
    obtain rfl : c = d := Option.some.inj (hc.symm.trans hd)
    have there : i < h.clients.length := (List.getElem?_eq_some_iff.mp hc).1
    exact ⟨c', by rw [List.getElem?_set_self there], kept⟩
  · exact ⟨d, by rw [List.getElem?_set_ne same, hd], rfl⟩

@[simp] theorem setChannel_self (s : String) (c : Channel) :
    (h.setChannel s c).channels s = c := if_pos rfl

theorem setChannel_other {s s' : String} (c : Channel) (other : s' ≠ s) :
    (h.setChannel s c).channels s' = h.channels s' := if_neg other

theorem Good.publish (good : Good h) (stream event : String) (data : Body)
    (taken : Nat → Bool) : Good (h.publish stream event data taken) where
  buffers := by
    intro s
    by_cases same : s = stream
    · subst same
      have next := upTo_record (good.buffers s) h.replayLimit event data
      simpa [Hub.publish, Channel.record] using next
    · simp only [Hub.publish, setChannel_other _ same]
      exact good.buffers s
  listed := by
    intro s i on
    have before : (h.channels s).lists i = true := by
      by_cases same : s = stream
      · subst same
        simp only [Hub.publish, setChannel_self, Channel.lists, Option.getD_some,
          List.contains_eq_mem, List.mem_filter, decide_eq_true_eq] at on
        simpa [Channel.lists] using on.1
      · simpa only [Hub.publish, setChannel_other _ same] using on
    obtain ⟨c, hc, there⟩ := good.listed s i before
    obtain ⟨c', hc', kept⟩ := getElem?_onClients_stream (h := h)
      (p := fun i _ => (h.channels stream).lists i)
      (f := fun i client => { client with
        subscriber :=
          (client.subscriber.put ((h.channels stream).event event data) (taken i)).1 })
      (fun _ _ => rfl) hc
    exact ⟨c', hc', kept.trans there⟩
  clients := by
    intro i c' hc'
    obtain ⟨c, hc, rfl⟩ := getElem?_onClients (h := h) hc'
    have before := good.clients i c hc
    by_cases on : (h.channels stream).lists i = true
    · -- The client is subscribed to the stream, so the frame is put to it.
      obtain ⟨c₀, hc₀, here⟩ := good.listed stream i on
      obtain rfl : c₀ = c := Option.some.inj (hc₀.symm.trans hc)
      subst here
      rw [on] at before
      have next := before.put h.replayLimit event data (taken i)
      have live : ((h.publish c₀.stream event data taken).channels c₀.stream).lists i =
          (c₀.subscriber.put ((h.channels c₀.stream).event event data) (taken i)).2 := by
        have member : i ∈ (h.channels c₀.stream).subscribers.getD [] := by
          simpa [Channel.lists] using on
        rw [Bool.eq_iff_iff]
        simp [Hub.publish, Channel.lists, hc, member]
      simp only [on, if_true]
      rw [live]
      simp only [Hub.publish, setChannel_self]
      exact ⟨next.given, next.waits, next.upTo, next.first⟩
    · simp only [on, Bool.false_eq_true, if_false]
      by_cases here : c.stream = stream
      · have off : ((h.publish stream event data taken).channels c.stream).lists i = false := by
          rw [Bool.eq_false_iff, here]
          intro on'
          apply on
          simp only [Hub.publish, setChannel_self, Channel.lists, Option.getD_some,
            List.contains_eq_mem, List.mem_filter, decide_eq_true_eq] at on'
          simpa [Channel.lists] using on'.1
        rw [off]
        exact before.leave _ rfl (.inl rfl)
      · simp only [Hub.publish, setChannel_other _ here]
        exact before

theorem Good.shutdown (good : Good h) (taken : Nat → Bool) : Good (h.shutdown taken) := by
  unfold Hub.shutdown
  split
  · exact good
  · refine ⟨?_, ?_, ?_⟩
    · intro s
      dsimp only
      cases there : (h.channels s).subscribers with
      | none => exact good.buffers s
      | some l => exact upTo_record (good.buffers s) h.replayLimit "manager.shutdown" []
    · intro s i on
      dsimp only at on
      cases there : (h.channels s).subscribers with
      | none => simp [there, Channel.lists] at on
      | some l => simp [there, Channel.lists] at on
    · intro i c' hc'
      obtain ⟨c, hc, rfl⟩ := getElem?_onClients (h := h) hc'
      have before := good.clients i c hc
      by_cases on : (h.channels c.stream).lists i = true
      · simp only [on, if_true]
        rw [on] at before
        have next :=
          (before.put h.replayLimit "manager.shutdown" [] (taken i)).close (taken i)
        cases there : (h.channels c.stream).subscribers with
        | none => simp [Channel.lists, there] at on
        | some l => exact ⟨next.given, next.waits, fun _ off => (nomatch off), next.first⟩
      · have off : (h.channels c.stream).lists i = false := Bool.eq_false_iff.mpr on
        rw [off] at before
        simp only [on, Bool.false_eq_true, if_false]
        cases there : (h.channels c.stream).subscribers with
        | none =>
          simp only [off]
          exact before
        | some l => exact before.leave _ rfl (.inl rfl)

/-- One client goes on by itself. -/
theorem Good.alone (good : Good h) {i : Nat} {c c' : Client} (hc : h.clients[i]? = some c)
    (kept : c'.stream = c.stream)
    (next : Follows (h.channels c.stream) ((h.channels c.stream).lists i) c') :
    Good { h with clients := h.clients.set i c' } where
  buffers := good.buffers
  listed := by
    intro s j on
    obtain ⟨d, hd, there⟩ := good.listed s j on
    obtain ⟨d', hd', same⟩ := getElem?_set_stream hc kept hd
    exact ⟨d', hd', same.trans there⟩
  clients := by
    intro j d hd
    by_cases same : i = j
    · subst same
      rw [List.getElem?_set_self (List.getElem?_eq_some_iff.mp hc).1] at hd
      obtain rfl : c' = d := Option.some.inj hd
      rw [kept]
      exact next
    · rw [List.getElem?_set_ne same] at hd
      exact good.clients j d hd

theorem Good.get (good : Good h) (i : Nat) : Good (h.get i) := by
  unfold Hub.get
  cases hc : h.clients[i]? with
  | none => exact good
  | some c =>
    dsimp only
    by_cases busy : (c.ended || c.got.isSome) = true
    · rw [if_pos busy]
      exact good
    · rw [if_neg busy]
      have going : c.ended = false := by
        cases ended : c.ended with
        | true => simp [ended] at busy
        | false => rfl
      have free : c.got = none := by
        cases got : c.got with
        | some item => simp [got] at busy
        | none => rfl
      refine good.alone hc ?_ ?_
      · rfl
      refine (good.clients i c hc).go going ?_ ?_ ?_ ?_
      on_goal 2 => rfl
      on_goal 2 => rfl
      on_goal 2 => rfl
      have moved : ((c.subscriber.queue.head?).bind Item.id?).toList ++
          c.subscriber.queue.tail.filterMap Item.id? = queued c.subscriber := by
        rw [queued]
        cases c.subscriber.queue with
        | nil => rfl
        | cons item rest => cases item <;> rfl
      rw [Client.seen, Client.seen, Client.held, Client.held, free, List.append_assoc]
      simpa [queued] using moved

/-- A round yields no event and ends the loop, or yields the event it has and goes on. -/
theorem round_cases (closed due expired : Bool) (item : Option Item) :
    (ids (round closed due expired item).1 = [] ∧ (round closed due expired item).2 = true) ∨
      (ids (round closed due expired item).1 = (item.bind Item.id?).toList ∧
        (round closed due expired item).2 = false) := by
  cases item with
  | none => cases closed <;> cases expired <;> cases due <;> simp [round, ids, Output.id?]
  | some item =>
    cases item with
    | stop => exact .inl ⟨rfl, rfl⟩
    | frame e =>
      by_cases off : (!contains e.encode shutdownMark && expired) = true
      · exact .inl (by simp [round, off, ids, Output.id?])
      · exact .inr (by simp [round, off, ids, Output.id?, Item.id?])

theorem Good.answer (good : Good h) (i : Nat) (due expired : Bool) :
    Good (h.answer i due expired) := by
  unfold Hub.answer
  cases hc : h.clients[i]? with
  | none => exact good
  | some c =>
    dsimp only
    split
    · rename_i item going hg
      refine good.alone hc ?_ ?_
      · rfl
      have before := good.clients i c hc
      have held : c.held = (item.bind Item.id?).toList := by
        rw [Client.held, hg]
        rfl
      obtain ⟨nothing, ended⟩ | goes := round_cases c.subscriber.closed due expired item
      · rw [ended]
        exact before.stop nothing
      · rw [goes.2]
        refine before.go going ?_ ?_ ?_ ?_
        on_goal 2 => rfl
        on_goal 2 => rfl
        on_goal 2 => rfl
        rw [Client.seen, Client.seen, held, ids, List.filterMap_append, ← goes.1]
        simp [Client.held, ids]
    · exact good

theorem Good.unsubscribe (good : Good h) (i : Nat) (taken : Bool) :
    Good (h.unsubscribe i taken) := by
  unfold Hub.unsubscribe
  cases hc : h.clients[i]? with
  | none => exact good
  | some c =>
    dsimp only
    have fewer : ∀ s j, ((h.setChannel c.stream { h.channels c.stream with
        subscribers := (h.channels c.stream).subscribers.map fun l => l.filter (· ≠ i)
        }).channels s).lists j = (!(decide (s = c.stream ∧ j = i)) && (h.channels s).lists j) := by
      intro s j
      by_cases same : s = c.stream
      · subst same
        rw [setChannel_self]
        cases there : (h.channels c.stream).subscribers with
        | none => simp [Channel.lists, there]
        | some l =>
          rw [Bool.eq_iff_iff]
          simp [Channel.lists, there, and_comm]
      · rw [setChannel_other _ same]
        simp [same]
    refine ⟨?_, ?_, ?_⟩
    · intro s
      by_cases same : s = c.stream
      · subst same
        simpa using good.buffers c.stream
      · simpa only [setChannel_other _ same] using good.buffers s
    · intro s j on
      have before : (h.channels s).lists j = true := by
        have on := (fewer s j).symm.trans on
        exact (Bool.and_eq_true_iff.mp on).2
      obtain ⟨d, hd, there⟩ := good.listed s j before
      have stays : ({ c with subscriber := c.subscriber.close taken } : Client).stream =
          c.stream := rfl
      obtain ⟨d', hd', same⟩ := getElem?_set_stream hc stays hd
      exact ⟨d', hd', same.trans there⟩
    · intro j d hd
      have next : ∀ s, ((h.setChannel c.stream { h.channels c.stream with
          subscribers := (h.channels c.stream).subscribers.map fun l => l.filter (· ≠ i)
          }).channels s).next = (h.channels s).next := by
        intro s
        by_cases same : s = c.stream
        · subst same
          rw [setChannel_self]
        · rw [setChannel_other _ same]
      by_cases same : i = j
      · subst same
        rw [List.getElem?_set_self (List.getElem?_eq_some_iff.mp hc).1] at hd
        obtain rfl := Option.some.inj hd
        exact (good.clients i c hc).leave _ (queued_close c.subscriber taken)
          (.inr (closed_close c.subscriber taken))
      · rw [List.getElem?_set_ne same] at hd
        have before := good.clients j d hd
        have listed := fewer d.stream j
        rw [decide_eq_false (fun both => same both.2.symm)] at listed
        refine ⟨before.given, before.waits, ?_, before.first⟩
        intro going on opened
        rw [next]
        exact before.upTo going (listed.symm.trans on) opened

theorem Good.subscribe (good : Good h) (stream : String) (lastEventId : Option Int) :
    Good (h.subscribe stream lastEventId) := by
  have more : ∀ s j, ((h.subscribe stream lastEventId).channels s).lists j =
      ((h.channels s).lists j || decide (s = stream ∧ j = h.clients.length)) := by
    intro s j
    rw [Hub.subscribe]
    by_cases same : s = stream
    · subst same
      rw [Bool.eq_iff_iff]
      simp [Channel.lists]
    · simp [setChannel_other _ same, same]
  have next : ∀ s, ((h.subscribe stream lastEventId).channels s).next = (h.channels s).next ∧
      ((h.subscribe stream lastEventId).channels s).buffer = (h.channels s).buffer := by
    intro s
    rw [Hub.subscribe]
    by_cases same : s = stream
    · subst same
      simp
    · simp [setChannel_other _ same]
  refine ⟨?_, ?_, ?_⟩
  · intro s
    rw [(next s).1, (next s).2]
    exact good.buffers s
  · intro s j on
    rw [more, Bool.or_eq_true, decide_eq_true_eq] at on
    rw [Hub.subscribe]
    obtain on | ⟨rfl, rfl⟩ := on
    · obtain ⟨d, hd, there⟩ := good.listed s j on
      have low : j < h.clients.length := (List.getElem?_eq_some_iff.mp hd).1
      exact ⟨d, by rw [List.getElem?_append_left low, hd], there⟩
    · exact ⟨_, List.getElem?_concat_length, rfl⟩
  · intro j d hd
    have off : (h.channels d.stream).lists h.clients.length = false := by
      rw [Bool.eq_false_iff]
      intro on
      obtain ⟨d', hd', -⟩ := good.listed _ _ on
      exact absurd (List.getElem?_eq_some_iff.mp hd').1 (Nat.lt_irrefl _)
    rw [Hub.subscribe] at hd
    by_cases low : j < h.clients.length
    · rw [List.getElem?_append_left low] at hd
      have before := good.clients j d hd
      have other : j ≠ h.clients.length := Nat.ne_of_lt low
      rw [more, decide_eq_false (fun both => other both.2), Bool.or_false]
      refine ⟨before.given, before.waits, ?_, before.first⟩
      rw [(next d.stream).1]
      exact before.upTo
    · have here : j = h.clients.length := by
        have bound := (List.getElem?_eq_some_iff.mp hd).1
        simp only [List.length_append, List.length_singleton] at bound
        omega
      subst here
      rw [List.getElem?_concat_length] at hd
      obtain rfl := Option.some.inj hd
      exact Follows.new (good.buffers stream) (next stream).1

end Moves

theorem Good.init (limit : Nat) : Good { replayLimit := limit } where
  buffers _ := UpTo.nil 1
  listed _ _ on := nomatch on
  clients _ _ hc := nomatch hc

theorem Good.step {h : Hub} (good : Good h) (m : Move) : Good (h.step m) := by
  cases m with
  | publish stream event data taken => exact good.publish stream event data taken
  | subscribe stream lastEventId => exact good.subscribe stream lastEventId
  | unsubscribe i taken => exact good.unsubscribe i taken
  | shutdown taken => exact good.shutdown taken
  | get i => exact good.get i
  | answer i due expired => exact good.answer i due expired

theorem Good.run {h : Hub} (good : Good h) (moves : List Move) : Good (h.run moves) := by
  induction moves generalizing h with
  | nil => exact good
  | cons m moves ih => exact ih (good.step m)

/-- A client is given consecutive ids for as long as it reads. One that was subscribed with an
id whose successor was still in the replay buffer is given that successor first; while it has not
been given anything, the successor is what waits at the head of its queue. -/
theorem streams_gapless (limit : Nat) (moves : List Move) (c : Client)
    (hc : c ∈ (Hub.run { replayLimit := limit } moves).clients) :
    Contiguous (ids c.yielded) ∧
      ∀ n : Int, ∀ e ∈ c.offered, c.since = some n → (e.sequence : Int) = n + 1 →
        (∀ id ∈ (ids c.yielded).head?, id = e.sequence) ∧
          (c.ended = false → c.seen.head? = some e.sequence) := by
  have good : Good (Hub.run { replayLimit := limit } moves) := (Good.init limit).run moves
  obtain ⟨i, there⟩ := List.mem_iff_getElem?.mp hc
  have follows := good.clients i c there
  refine ⟨follows.given, ?_⟩
  intro n e offered since next
  have wants : c.wants e.sequence := ⟨n, since, next, List.mem_map_of_mem offered⟩
  obtain ⟨given, waits⟩ := follows.first e.sequence wants
  refine ⟨?_, waits⟩
  intro id first
  obtain nothing | given := given
  · rw [nothing] at first
    cases first
  · rw [given] at first
    exact (Option.some.inj first).symm

/-- A client that reconnects with id 1 after two events is given the second. -/
theorem reconnect_gapless :
    ∃ c ∈ (Hub.run { replayLimit := 200 }
      [.publish "manager" "world.state" [] fun _ => false,
        .publish "manager" "world.state" [] fun _ => false,
        .subscribe "manager" (some 1), .get 0, .answer 0 false false]).clients,
      ids c.yielded = [2] ∧ Contiguous (ids c.yielded) ∧
        ∀ id ∈ (ids c.yielded).head?, id = 2 := by
  let second : StreamEvent := ⟨2, "world.state", []⟩
  have there : (⟨"manager", some 1, [⟨1, "world.state", []⟩, second], ⟨[], false⟩, none,
      [.frame second], false⟩ : Client) ∈ (Hub.run { replayLimit := 200 }
        [.publish "manager" "world.state" [] fun _ => false,
          .publish "manager" "world.state" [] fun _ => false,
          .subscribe "manager" (some 1), .get 0, .answer 0 false false]).clients := by
    have goes : round false false false (some (.frame second)) = ([.frame second], false) := by
      simp [round]
    simp [Hub.run, Hub.step, Hub.publish, Hub.subscribe, Hub.get, Hub.answer, Hub.setChannel,
      Hub.onClients, Channel.record, Channel.event, Channel.replay, appendBounded,
      Subscriber.put, Subscriber.putNowait, queueSize, goes, second]
  have gapless := streams_gapless 200 _ _ there
  exact ⟨_, there, rfl, gapless.1, (gapless.2 1 second (by simp) rfl rfl).1⟩

end McManager.Realtime
