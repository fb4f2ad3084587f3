import McManager.Guarantees.StreamTexts

/-! A page whose connections break off hears the events of its stream once each. -/

namespace McManager.Realtime

open Framework EventSource JsonText

section Channels

variable {h : Hub}

/-- What a move does to the channel of a stream. -/
theorem channel_step (h : Hub) (stream : String) (m : Move) :
    ((h.step m).channels stream).next = (h.channels stream).next + (h.news stream m).toList.length ∧
      ((h.step m).channels stream).buffer <:+ (h.channels stream).buffer ++ (h.news stream m).toList ∧
      ∀ e ∈ h.news stream m, e.sequence = (h.channels stream).next := by
  cases m with
  | publish s name data taken =>
    by_cases same : s = stream
    · subst same
      have channel : ((h.step (.publish s name data taken)).channels s).next =
            (h.channels s).next + 1 ∧
          ((h.step (.publish s name data taken)).channels s).buffer =
            appendBounded h.replayLimit (h.channels s).buffer ((h.channels s).event name data) := by
        simp [Hub.step, Hub.publish, Channel.record]
      rw [channel.1, channel.2, Hub.news, if_pos rfl]
      refine ⟨rfl, List.drop_suffix _ _, ?_⟩
      intro e new
      obtain rfl := Option.mem_some_iff.mp new
      rfl
    · have channel : (h.step (.publish s name data taken)).channels stream = h.channels stream := by
        simp only [Hub.step, Hub.publish, setChannel_other _ (Ne.symm same)]
      rw [channel, Hub.news, if_neg same]
      simp
  | subscribe s since =>
    by_cases same : stream = s
    · subst same
      simp [Hub.step, Hub.subscribe, Hub.news]
    · simp [Hub.step, Hub.subscribe, Hub.news, setChannel_other _ same]
  | unsubscribe i taken =>
    simp only [Hub.step, Hub.unsubscribe, Hub.news]
    cases h.clients[i]? with
    | none => simp
    | some c =>
      by_cases same : stream = c.stream
      · subst same
        simp
      · simp [setChannel_other _ same]
  | shutdown taken =>
    rw [Hub.step, Hub.shutdown, Hub.news]
    by_cases shut : h.closed = true
    · simp [shut]
    · rw [if_neg shut]
      cases entry : (h.channels stream).subscribers with
      | none => simp [entry]
      | some l =>
        have open' : ¬ (h.closed = true ∨ some l = none) := by simp [shut]
        simp only [if_neg open', Channel.record, entry]
        refine ⟨rfl, List.drop_suffix _ _, ?_⟩
        intro e new
        obtain rfl := Option.mem_some_iff.mp new
        rfl
  | get i =>
    simp only [Hub.step, Hub.get, Hub.news]
    cases h.clients[i]? with
    | none => simp
    | some c =>
      dsimp only
      split <;> simp
  | answer i due expired =>
    simp only [Hub.step, Hub.answer, Hub.news]
    cases h.clients[i]? with
    | none => simp
    | some c =>
      dsimp only
      split <;> simp

end Channels

/-- The events of a stream, from the first on. -/
def Numbered (published : List StreamEvent) : Prop :=
  sequences published = List.range' 1 published.length

section Numbers

variable {published : List StreamEvent}

theorem Numbered.get (numbered : Numbered published) {k : Nat} {e : StreamEvent}
    (there : published[k]? = some e) : e.sequence = k + 1 := by
  have low : k < published.length := (List.getElem?_eq_some_iff.mp there).1
  have read : (sequences published)[k]? = some e.sequence := by
    rw [sequences, List.getElem?_map, there]
    rfl
  rw [numbered, List.getElem?_range' low] at read
  have same := Option.some.inj read
  omega

theorem Numbered.snoc (numbered : Numbered published) {e : StreamEvent}
    (next : e.sequence = published.length + 1) : Numbered (published ++ [e]) := by
  rw [Numbered, sequences, List.map_append, List.length_append, List.length_singleton,
    List.range'_concat]
  have front : published.map StreamEvent.sequence = List.range' 1 published.length := numbered
  rw [front, List.map_singleton, next]
  congr 2
  omega

/-- The number of the last of some events behind the first `n`. -/
theorem Numbered.last (numbered : Numbered published) {n : Nat} {front : List StreamEvent}
    (prefixed : front <+: published.drop n) (more : front ≠ []) :
    (front.getLast more).sequence = n + front.length := by
  obtain ⟨rest, same⟩ := prefixed
  have positive := List.length_pos_iff.mpr more
  have there : published[n + (front.length - 1)]? = some (front.getLast more) := by
    rw [← List.getElem?_drop, ← same, List.getElem?_append_left (by omega),
      ← List.getLast?_eq_getElem?, List.getLast?_eq_some_getLast more]
  have number := numbered.get there
  omega

/-- The events behind the first `b` with a number above `n`. -/
theorem Numbered.above (numbered : Numbered published) (b n : Nat) :
    ((published.drop b).filter fun e => decide ((n : Int) < (e.sequence : Int))) =
      published.drop (max b n) := by
  have inside : ∀ k e, published[k]? = some e → e.sequence = k + 1 := fun k e there =>
    numbered.get there
  have later : ∀ a, n ≤ a → (published.drop a).filter
      (fun e => decide ((n : Int) < (e.sequence : Int))) = published.drop a := by
    intro a behind
    apply List.filter_eq_self.mpr
    intro e mem
    obtain ⟨k, there⟩ := List.mem_iff_getElem?.mp mem
    rw [List.getElem?_drop] at there
    have same := inside _ e there
    rw [decide_eq_true_eq]
    omega
  rcases Nat.le_total n b with below | above
  · rw [Nat.max_eq_left below]
    exact later b below
  · have parts : published.drop b = (published.drop b).take (n - b) ++ published.drop n := by
      have rest : (published.drop b).drop (n - b) = published.drop n := by
        rw [List.drop_drop]
        congr 1
        omega
      rw [← rest, List.take_append_drop]
    have none : ((published.drop b).take (n - b)).filter
        (fun e => decide ((n : Int) < (e.sequence : Int))) = [] := by
      rw [List.filter_eq_nil_iff]
      intro e mem
      obtain ⟨k, there⟩ := List.mem_iff_getElem?.mp mem
      have short : k < n - b := by
        have bound := (List.getElem?_eq_some_iff.mp there).1
        rw [List.length_take] at bound
        omega
      rw [List.getElem?_take_of_lt short, List.getElem?_drop] at there
      have same := inside _ e there
      simp only [decide_eq_true_eq]
      omega
    rw [parts, List.filter_append, none, List.nil_append, later n (Nat.le_refl n),
      Nat.max_eq_right above]

end Numbers

/-- What a client is given, and what waits for it, is a front of what was published behind the
first `n` events; it is all of that while the client is subscribed and open. -/
structure Trails (published : List StreamEvent) (listed : Bool) (n : Nat) (c : Client) : Prop where
  start : n ≤ published.length
  given : c.given <+: published.drop n
  waits : c.ended = false → c.events <+: published.drop n
  all : c.ended = false → listed = true → c.subscriber.closed = false →
    c.events = published.drop n

section Trails

variable {published : List StreamEvent} {listed listed' : Bool} {n : Nat} {c c' : Client}
  {news : Option StreamEvent}

theorem Trails.step (t : Trails published listed n c) (goes : Goes news listed listed' c c') :
    Trails (published ++ news.toList) listed' n c' := by
  have behind : (published ++ news.toList).drop n = published.drop n ++ news.toList :=
    List.drop_append_of_le_length t.start
  have start : n ≤ (published ++ news.toList).length := by
    have := t.start
    rw [List.length_append]
    omega
  have more : published.drop n <+: (published ++ news.toList).drop n := by
    rw [behind]
    exact List.prefix_append _ _
  cases goes with
  | stays events ended given still =>
    have waits : c'.ended = false → c'.events <+: (published ++ news.toList).drop n := by
      intro going
      rw [events]
      exact (t.waits (ended.symm.trans going)).trans more
    refine ⟨start, ?_, waits, ?_⟩
    · cases going : c.ended with
      | true =>
        rw [given going]
        exact t.given.trans more
      | false => exact c'.given_prefix.trans (waits (ended.trans going))
    · intro going on opened
      obtain ⟨before, unshut, nothing⟩ := still on opened
      rw [events, t.all (ended.symm.trans going) before unshut, nothing]
      simp
  | put e new events ended given on opened =>
    have all : c'.ended = false → c'.events = (published ++ news.toList).drop n := by
      intro going
      rw [events, t.all (ended.symm.trans going) on opened, behind, new]
      rfl
    refine ⟨start, ?_, ?_, fun going _ _ => all going⟩
    · rw [given]
      exact t.given.trans more
    · intro going
      rw [all going]
  | stops given ended =>
    refine ⟨start, ?_, ?_, ?_⟩
    · rw [given]
      exact t.given.trans more
    · intro going
      rw [ended] at going
      cases going
    · intro going
      rw [ended] at going
      cases going

/-- A client that is subscribed with a replay of all that was published behind the first `n`. -/
theorem Trails.new {stream : String} {since : Option Int} {replay offered : List StreamEvent}
    (same : replay = published.drop n) (start : n ≤ published.length) :
    Trails published listed n
      { stream, since, offered
        subscriber := replay.foldl (fun s e => (s.put e false).1) {} } := by
  have queue : replay.foldl (fun s e => (Subscriber.put s e false).1) {} =
      ⟨(replay.take queueSize).map .frame, decide (queueSize < replay.length)⟩ :=
    filled [] replay (Nat.zero_le _)
  have frames : ∀ es : List StreamEvent, (es.map Item.frame).filterMap Item.event? = es := by
    intro es
    induction es with
    | nil => rfl
    | cons e es ih => exact congrArg (e :: ·) ih
  have events : Client.events
      { stream, since, offered
        subscriber := replay.foldl (fun s e => (s.put e false).1) {} } = replay.take queueSize := by
    rw [queue]
    exact frames _
  refine ⟨start, List.nil_prefix, ?_, ?_⟩
  · intro _
    rw [events, ← same]
    exact List.take_prefix _ _
  · intro _ _ opened
    rw [queue] at opened
    have short : replay.length ≤ queueSize := by
      have := of_decide_eq_false opened
      omega
    rw [events, List.take_of_length_le short, same]

end Trails

/-- Names and payloads are written as the code does it. -/
def Event.Written : Event → Prop
  | .move (.publish _ name data _) => PlainName name ∧ Sound (.obj data)
  | .connect name payload => PlainName name ∧ Sound (.obj payload)
  | _ => True

/-- The hub's events that are whole in so many characters of a response. -/
def Client.arrived (c : Client) (name : String) (payload : Web.Body) (k : Nat) : List StreamEvent :=
  (c.yielded.take (whole ((c.frames name payload).map Frame.text) k - 1)).filterMap Output.event?

namespace Page

variable {stream : String} {p : Page}

/-- What the page has heard from the hub. -/
def told (p : Page) : List Message := p.source.heard.filter fromHub

/-- What a resumption relies on. When the source connects, the replay buffer holds all that was
published behind the last event it heard; and no response breaks off between its snapshot and its
first event. Neither matters before the first event is heard. -/
def Lasts (stream : String) (p : Page) : Event → Prop
  | .move _ => True
  | .connect _ _ => p.told = [] ∨ ∀ n, Realtime.lastEventId p.source.lastEventId = some n →
      ∀ e ∈ p.published, n < (e.sequence : Int) → e ∈ (p.hub.channels stream).buffer
  | .breaks k => p.told = [] ∨ ∀ i name payload c, p.source.connection = some (i, name, payload) →
      p.hub.clients[i]? = some c →
        k < (snapshotFrame name payload).length ∨ c.arrived name payload k ≠ []

def Steady (stream : String) : Page → List Event → Prop
  | _, [] => True
  | p, event :: events => p.Lasts stream event ∧ Steady stream (p.step stream event) events

/-- The page has heard the events `es`, the last of them the `n`-th of the stream, and reads what
was published from there. -/
structure Stands (stream : String) (p : Page) (n : Nat) (front es : List StreamEvent) : Prop where
  low : n ≤ p.published.length
  heard : p.published.take n = front ++ es
  told : p.told = es.map StreamEvent.message
  fresh : es = [] → p.source.lastEventId = [] ∨ p.source.lastEventId = ['0']
  last : es ≠ [] → p.source.lastEventId = Nat.toDigits 10 n
  reads : ∀ i name payload, p.source.connection = some (i, name, payload) →
    (PlainName name ∧ Sound (.obj payload)) ∧ ∃ c, p.hub.clients[i]? = some c ∧ c.stream = stream ∧
      Trails p.published ((p.hub.channels stream).lists i) n c

/-- The invariant of a page. -/
structure Hears (stream : String) (p : Page) : Prop where
  hub : Good p.hub
  numbered : Numbered p.published
  next : (p.hub.channels stream).next = p.published.length + 1
  buffer : (p.hub.channels stream).buffer <:+ p.published
  written : ∀ e ∈ p.published, e.Written
  stands : ∃ n front es, p.Stands stream n front es

theorem Hears.start (limit : Nat) : Hears stream { hub := { replayLimit := limit } } where
  hub := Good.init limit
  numbered := rfl
  next := rfl
  buffer := List.suffix_refl []
  written := by simp
  stands := by
    refine ⟨0, [], [], ⟨Nat.le_refl 0, rfl, rfl, fun _ => .inl rfl, fun more => absurd rfl more, ?_⟩⟩
    intro i name payload connected
    cases connected

/-- A published event is written. -/
theorem written_news {m : Move} (written : Event.Written (.move m)) (h : Hub) :
    ∀ e ∈ h.news stream m, e.Written := by
  intro e new
  cases m with
  | publish s name data taken =>
    rw [Hub.news] at new
    split_ifs at new
    · obtain rfl := Option.mem_some_iff.mp new
      exact written
    · cases new
  | shutdown taken =>
    rw [Hub.news] at new
    split_ifs at new
    · cases new
    · obtain rfl := Option.mem_some_iff.mp new
      have name : PlainName "manager.shutdown" :=
        ⟨⟨by decide, by decide, by decide⟩, by decide⟩
      have data : Sound (.obj []) := ⟨List.nodup_nil, trivial⟩
      exact ⟨name, data⟩
  | subscribe s since => cases new
  | unsubscribe i taken => cases new
  | get i => cases new
  | answer i due expired => cases new

theorem Hears.move (hears : p.Hears stream) {m : Move} (written : Event.Written (.move m)) :
    (p.step stream (.move m)).Hears stream := by
  obtain ⟨next, buffer, number⟩ := channel_step p.hub stream m
  obtain ⟨n, front, es, stands⟩ := hears.stands
  have numbers : ∀ e ∈ p.hub.news stream m, e.sequence = p.published.length + 1 := by
    intro e new
    rw [number e new, hears.next]
  refine ⟨hears.hub.step m, ?_, ?_, ?_, ?_, n, front, es, ?_⟩
  · show Numbered (p.published ++ (p.hub.news stream m).toList)
    cases new : p.hub.news stream m with
    | none =>
      rw [Option.toList_none, List.append_nil]
      exact hears.numbered
    | some e => exact hears.numbered.snoc (numbers e new)
  · show ((p.hub.step m).channels stream).next = (p.published ++ _).length + 1
    rw [next, hears.next, List.length_append]
    omega
  · exact buffer.trans ((List.suffix_append_inj_of_length_eq rfl).mpr ⟨hears.buffer, rfl⟩)
  · intro e mem
    rcases List.mem_append.mp mem with old | new
    · exact hears.written e old
    · exact written_news written p.hub e (Option.mem_toList.mp new)
  · refine ⟨?_, ?_, stands.told, stands.fresh, stands.last, ?_⟩
    · have low := stands.low
      show n ≤ (p.published ++ _).length
      rw [List.length_append]
      omega
    · show (p.published ++ _).take n = front ++ es
      rw [List.take_append_of_le_length stands.low]
      exact stands.heard
    · intro i name payload connected
      obtain ⟨plain, c, hc, rfl, trails⟩ := stands.reads i name payload connected
      obtain ⟨c', hc', same, goes⟩ := client_step hears.hub hc m
      exact ⟨plain, c', hc', same, trails.step goes⟩

/-- What the hub replays for a last event id behind which everything is in the buffer. -/
theorem replay_behind {published : List StreamEvent} (numbered : Numbered published) {channel : Channel}
    (buffer : channel.buffer <:+ published) {n : Nat} (low : n ≤ published.length)
    (held : ∀ e ∈ published, (n : Int) < (e.sequence : Int) → e ∈ channel.buffer) :
    channel.replay (some n) = published.drop n := by
  have tail := List.suffix_iff_eq_drop.mp buffer
  rw [Channel.replay, tail, numbered.above]
  rcases Nat.lt_or_ge n (published.length - channel.buffer.length) with lost | kept
  · -- The event behind the first `n` would have to be in the buffer, which starts later.
    have inside : n < published.length := by omega
    have there := List.getElem?_eq_getElem inside
    have number := numbered.get there
    have mem := held _ (List.getElem_mem inside) (by rw [number]; omega)
    rw [tail] at mem
    obtain ⟨k, found⟩ := List.mem_iff_getElem?.mp mem
    rw [List.getElem?_drop] at found
    have other := numbered.get found
    omega
  · rw [Nat.max_eq_right kept]

theorem Hears.connect (hears : p.Hears stream) {name : String} {payload : Web.Body}
    (written : Event.Written (.connect name payload)) (lasts : p.Lasts stream (.connect name payload))
    (short : p.published.length < 10 ^ PythonInt.maxStrDigits) :
    (p.step stream (.connect name payload)).Hears stream := by
  cases free : p.source.connection with
  | some connection =>
    have same : p.step stream (.connect name payload) = p := by
      rw [Page.step]
      simp only [free]
    rw [same]
    exact hears
  | none =>
    obtain ⟨n, front, es, stands⟩ := hears.stands
    have step : p.step stream (.connect name payload) =
        { p with
          hub := p.hub.subscribe stream (Realtime.lastEventId p.source.lastEventId)
          source := { p.source with connection := some (p.hub.clients.length, name, payload) } } := by
      rw [Page.step]
      simp only [free]
    obtain ⟨next, buffer, -⟩ := channel_step p.hub stream
      (.subscribe stream (Realtime.lastEventId p.source.lastEventId))
    -- Where the new client starts: behind the last event heard, or where the buffer starts.
    obtain ⟨start, low, place, replay⟩ : ∃ start ≤ p.published.length, (es ≠ [] → start = n) ∧
        (p.hub.channels stream).replay (Realtime.lastEventId p.source.lastEventId) =
          p.published.drop start := by
      by_cases none : es = []
      · have tail := List.suffix_iff_eq_drop.mp hears.buffer
        refine ⟨_, Nat.sub_le _ (p.hub.channels stream).buffer.length, fun more => absurd none more, ?_⟩
        obtain empty | zero := stands.fresh none
        · rw [empty]
          exact tail
        · have read : Realtime.lastEventId ['0'] = some ((0 : Nat) : Int) :=
            PythonInt.ofText_toDigits (Nat.pow_pos (by decide))
          rw [zero, read, Channel.replay]
          conv_lhs => rw [tail]
          rw [hears.numbered.above, Nat.max_eq_left (Nat.zero_le _)]
      · have read : Realtime.lastEventId p.source.lastEventId = some (n : Int) := by
          rw [stands.last none, Realtime.lastEventId, if_neg Nat.toDigits_ne_nil]
          exact PythonInt.ofText_toDigits (Nat.lt_of_le_of_lt stands.low short)
        have held := lasts.resolve_left (by rw [stands.told]; simpa using none)
        refine ⟨n, stands.low, fun _ => rfl, ?_⟩
        rw [read]
        exact replay_behind hears.numbered hears.buffer stands.low (held n read)
    rw [step]
    refine ⟨hears.hub.step (.subscribe stream _), hears.numbered, ?_, ?_, hears.written, ?_⟩
    · exact next.trans hears.next
    · have kept : ((p.hub.step (.subscribe stream (Realtime.lastEventId p.source.lastEventId))).channels
          stream).buffer <:+ (p.hub.channels stream).buffer := by
        simpa [Hub.news] using buffer
      exact kept.trans hears.buffer
    · have connects : ∀ i name' payload',
          some (p.hub.clients.length, name, payload) = some (i, name', payload') →
            (PlainName name' ∧ Sound (.obj payload')) ∧ ∃ c,
              (p.hub.subscribe stream (Realtime.lastEventId p.source.lastEventId)).clients[i]? =
                some c ∧ c.stream = stream ∧ Trails p.published
                  (((p.hub.subscribe stream (Realtime.lastEventId p.source.lastEventId)).channels
                    stream).lists i) start c := by
        intro i name' payload' same
        obtain ⟨rfl, rfl, rfl⟩ : p.hub.clients.length = i ∧ name = name' ∧ payload = payload' := by
          simpa using same
        exact ⟨written, _, List.getElem?_concat_length, rfl, Trails.new replay low⟩
      by_cases none : es = []
      · refine ⟨start, p.published.take start, [], low, (List.append_nil _).symm, ?_, ?_, ?_, connects⟩
        · rw [none] at stands
          exact stands.told
        · exact fun _ => stands.fresh none
        · exact fun more => absurd rfl more
      · obtain rfl := place none
        exact ⟨start, front, es, low, stands.heard, stands.told, stands.fresh, stands.last, connects⟩

/-- What the source makes of a response that breaks off. -/
theorem read_response {c : Client} {name : String} {payload : Web.Body} (plain : PlainName name)
    (sound : Sound (.obj payload)) (written : ∀ e ∈ c.given, e.Written ∧ 0 < e.sequence)
    (last : EventSource.Text) (k : Nat) :
    let r := EventSource.read last ((c.response name payload).take k)
    r.dispatched.filter fromHub = (c.arrived name payload k).map StreamEvent.message ∧
      r.lastEventId = if k < (snapshotFrame name payload).length then last
        else ((c.arrived name payload k).getLast?.map fun e => Nat.toDigits 10 e.sequence).getD
          ['0'] := by
  have frames : ∀ f ∈ c.frames name payload, f.Plain := by
    intro f mem
    rcases List.mem_cons.mp mem with rfl | mem
    · exact plain_snapshot plain sound
    · obtain ⟨o, there, rfl⟩ := List.mem_map.mp mem
      refine plain_output ?_
      intro e event
      exact (written e (List.mem_filterMap.mpr ⟨o, there, event⟩)).1
  have told := told_read frames last k
  rw [← response_text] at told
  have events : (EventSource.read last ((c.response name payload).take k)).dispatched =
      messages [] ((c.frames name payload).take
        (whole ((c.frames name payload).map Frame.text) k)) := congrArg Prod.fst told
  have id : (EventSource.read last ((c.response name payload).take k)).lastEventId =
      Reader.lastBehind { lastEventId := last } ((c.frames name payload).take
        (whole ((c.frames name payload).map Frame.text) k)) := congrArg Prod.snd told
  have size : (snapshotFrame name payload).length = (snapshotWritten name payload).text.length := by
    rw [← snapshot_text, String.length_toList]
  dsimp only
  rw [events, id, Client.arrived, size]
  by_cases short : k < (snapshotWritten name payload).text.length
  · have none : whole ((c.frames name payload).map Frame.text) k = 0 := by
      rw [Client.frames, List.map_cons, whole, if_neg (Nat.not_le.mpr short)]
    rw [none, if_pos short]
    exact ⟨rfl, rfl⟩
  · obtain ⟨m, some⟩ : ∃ m, whole ((c.frames name payload).map Frame.text) k = m + 1 := by
      rw [Client.frames, List.map_cons, whole, if_pos (Nat.le_of_not_lt short)]
      exact ⟨_, rfl⟩
    have front : (c.frames name payload).take (m + 1) =
        snapshotWritten name payload :: (c.yielded.take m).map Output.written := by
      rw [Client.frames, List.take_succ_cons, List.map_take]
    have good : ∀ e ∈ (c.yielded.take m).filterMap Output.event?, e.Written ∧ 0 < e.sequence := by
      intro e mem
      obtain ⟨o, there, event⟩ := List.mem_filterMap.mp mem
      exact written e (List.mem_filterMap.mpr ⟨o, List.mem_of_mem_take there, event⟩)
    rw [some, if_neg short, front, Nat.add_sub_cancel]
    constructor
    · have snapshot : ¬ fromHub ⟨name.toList, (dumps (.obj payload)).toList, ['0']⟩ = true := by
        rw [fromHub_snapshot]
        exact Bool.false_ne_true
      rw [snapshotWritten, messages, Option.getD_some, List.filter_cons_of_neg snapshot]
      exact heard_outputs good ['0']
    · exact lastId_outputs (c.yielded.take m) ['0']

theorem Hears.breaks (hears : p.Hears stream) {k : Nat} (lasts : p.Lasts stream (.breaks k)) :
    (p.step stream (.breaks k)).Hears stream := by
  obtain ⟨n, front, es, stands⟩ := hears.stands
  cases connected : p.source.connection with
  | none =>
    have same : p.step stream (.breaks k) = p := by
      rw [Page.step]
      simp only [connected]
    rw [same]
    exact hears
  | some connection =>
    obtain ⟨i, name, payload⟩ := connection
    obtain ⟨⟨plain, sound⟩, c, hc, -, trails⟩ := stands.reads i name payload connected
    have written : ∀ e ∈ c.given, e.Written ∧ 0 < e.sequence := by
      intro e mem
      have there : e ∈ p.published := List.mem_of_mem_drop (trails.given.subset mem)
      obtain ⟨j, found⟩ := List.mem_iff_getElem?.mp there
      have number := hears.numbered.get found
      exact ⟨hears.written e there, by omega⟩
    obtain ⟨events, id⟩ := read_response plain sound written p.source.lastEventId k
    have step : p.step stream (.breaks k) = { p with source := {
        lastEventId :=
          (EventSource.read p.source.lastEventId ((c.response name payload).take k)).lastEventId
        heard := p.source.heard ++
          (EventSource.read p.source.lastEventId ((c.response name payload).take k)).dispatched } } := by
      rw [Page.step]
      simp only [connected, hc]
    have arrived : c.arrived name payload k <+: p.published.drop n :=
      ((List.take_prefix _ _).filterMap _).trans trails.given
    have told : (p.step stream (.breaks k)).told =
        (es ++ c.arrived name payload k).map StreamEvent.message := by
      have before : p.source.heard.filter fromHub = es.map StreamEvent.message := stands.told
      rw [step, Page.told, List.filter_append, before, events, List.map_append]
    rw [step] at told ⊢
    refine ⟨hears.hub, hears.numbered, hears.next, hears.buffer, hears.written, ?_⟩
    by_cases nothing : c.arrived name payload k = []
    · rw [nothing, List.append_nil] at told
      refine ⟨n, front, es, stands.low, stands.heard, told, ?_, ?_, fun _ _ _ off => by cases off⟩
      · intro none
        dsimp only
        rw [id, nothing]
        split
        · exact stands.fresh none
        · exact .inr rfl
      · intro more
        have early : k < (snapshotFrame name payload).length := by
          have either := lasts.resolve_left (by rw [stands.told]; simpa using more)
          exact (either i name payload c connected hc).resolve_right (not_not_intro nothing)
        dsimp only
        rw [id, if_pos early]
        exact stands.last more
    · have late : ¬ k < (snapshotFrame name payload).length := by
        intro early
        have none : whole ((c.frames name payload).map Frame.text) k = 0 := by
          rw [← String.length_toList, snapshot_text] at early
          rw [Client.frames, List.map_cons, whole, if_neg (Nat.not_le.mpr early)]
        rw [Client.arrived, none] at nothing
        exact nothing rfl
      have size := arrived.length_le
      rw [List.length_drop] at size
      have low := stands.low
      refine ⟨n + (c.arrived name payload k).length, front, es ++ c.arrived name payload k, ?_, ?_,
        told, ?_, ?_, fun _ _ _ off => by cases off⟩
      · show n + (c.arrived name payload k).length ≤ p.published.length
        omega
      · rw [List.take_add, stands.heard, ← List.prefix_iff_eq_take.mp arrived, List.append_assoc]
      · intro none
        exact absurd (List.append_eq_nil_iff.mp none).2 nothing
      · intro _
        dsimp only
        rw [id, if_neg late, List.getLast?_eq_some_getLast nothing]
        rw [Option.map_some, Option.getD_some, hears.numbered.last arrived nothing]

theorem published_step (p : Page) (event : Event) :
    p.published.length ≤ (p.step stream event).published.length := by
  cases event with
  | move m => exact (List.prefix_append _ _).length_le
  | connect name payload =>
    rw [Page.step]
    split <;> exact Nat.le_refl _
  | breaks k =>
    rw [Page.step]
    split
    · exact Nat.le_refl _
    · split <;> exact Nat.le_refl _

theorem published_run (p : Page) (events : List Event) :
    p.published.length ≤ (p.run stream events).published.length := by
  induction events generalizing p with
  | nil => exact Nat.le_refl _
  | cons event events ih => exact (published_step p event).trans (ih (p.step stream event))

theorem Hears.run (hears : p.Hears stream) {events : List Event}
    (written : ∀ event ∈ events, event.Written) (steady : Steady stream p events)
    (short : (p.run stream events).published.length < 10 ^ PythonInt.maxStrDigits) :
    (p.run stream events).Hears stream := by
  induction events generalizing p with
  | nil => exact hears
  | cons event events ih =>
    have first := written event List.mem_cons_self
    have now := (published_run p (event :: events)).trans_lt short
    have next : (p.step stream event).Hears stream := by
      cases event with
      | move m => exact hears.move first
      | connect name payload => exact hears.connect first steady.1 now
      | breaks k => exact hears.breaks steady.1
    exact ih next (fun event mem => written event (List.mem_cons_of_mem _ mem)) steady.2 short

end Page

/-- A page that follows a stream hears an unbroken part of what is published there, each event once
and with its number, name and data, wherever its connections break off in between: as long as the
replay buffer holds what it missed, and no connection breaks off between its snapshot and its first
event. -/
theorem page_hears_segment (limit : Nat) (stream : String) (events : List Event)
    (written : ∀ event ∈ events, event.Written)
    (steady : Page.Steady stream { hub := { replayLimit := limit } } events)
    (short : (Page.run stream { hub := { replayLimit := limit } } events).published.length <
      10 ^ PythonInt.maxStrDigits) :
    (Page.run stream { hub := { replayLimit := limit } } events).told.map handleStreamEvent <:+:
      (Page.run stream { hub := { replayLimit := limit } } events).published.map
        StreamEvent.payload := by
  have hears : Page.Hears stream (Page.run stream { hub := { replayLimit := limit } } events) :=
    (Page.Hears.start limit).run written steady short
  obtain ⟨n, front, es, stands⟩ := hears.stands
  have segment : es <:+: (Page.run stream { hub := { replayLimit := limit } } events).published :=
    (List.suffix_append front es).isInfix.trans (stands.heard ▸ (List.take_prefix n _).isInfix)
  have payloads : (es.map StreamEvent.message).map handleStreamEvent = es.map StreamEvent.payload := by
    rw [List.map_map]
    apply List.map_congr_left
    intro e mem
    exact handle_message (hears.written e (segment.subset mem))
  rw [stands.told, payloads]
  exact segment.map _

/-- A page that hears an event, loses its connection and connects again. -/
theorem page_hears_segment_again :
    (Page.run "events" { hub := { replayLimit := 200 } }
      [.connect "snapshot" [], .move (.publish "events" "world.state" [] fun _ => false),
        .move (.get 0), .move (.answer 0 false false), .breaks 1000, .connect "snapshot" [],
        .move (.publish "events" "world.state" [] fun _ => false)]).told.map handleStreamEvent <:+:
      [⟨"world.state", .obj [], some "1"⟩, ⟨"world.state", .obj [], some "2"⟩] := by
  have state : PlainName "world.state" := ⟨⟨by decide, by decide, by decide⟩, by decide⟩
  have snapshot : PlainName "snapshot" := ⟨⟨by decide, by decide, by decide⟩, by decide⟩
  have empty : Sound (.obj []) := ⟨List.nodup_nil, trivial⟩
  refine page_hears_segment 200 "events" _ ?_ ?_ ?_
  · simp only [List.mem_cons, List.not_mem_nil, or_false, forall_eq_or_imp, forall_eq]
    exact ⟨⟨snapshot, empty⟩, ⟨state, empty⟩, trivial, trivial, trivial, ⟨snapshot, empty⟩, state, empty⟩
  · -- The second time it connects, the buffer holds the only event.
    refine ⟨.inl rfl, trivial, trivial, trivial, .inl rfl, .inr ?_, trivial, trivial⟩
    exact fun _ _ _ mem _ => mem
  · exact Nat.lt_of_lt_of_le (by decide : 2 < 10 ^ 1) (Nat.pow_le_pow_right (by decide) (by decide))

end McManager.Realtime
