import McManager.Guarantees.Streams
import McManager.Web.StreamResponses

/-! What a move at the hub does to one client. -/

namespace McManager.Realtime

def Output.event? : Output → Option StreamEvent
  | .frame e => some e
  | _ => none

def Item.event? : Item → Option StreamEvent
  | .frame e => some e
  | .stop => none

/-- The events that wait in a queue. -/
def Subscriber.waiting (s : Subscriber) : List StreamEvent := s.queue.filterMap Item.event?

/-- The events a client was given. -/
def Client.given (c : Client) : List StreamEvent := c.yielded.filterMap Output.event?

/-- The events a client was given and those that wait for it. -/
def Client.events (c : Client) : List StreamEvent :=
  c.given ++ ((c.got.bind id).bind Item.event?).toList ++ c.subscriber.waiting

theorem Client.given_prefix (c : Client) : c.given <+: c.events := by
  rw [Client.events, List.append_assoc]
  exact List.prefix_append _ _

/-- What a move does to a client for whose stream it publishes `news`. -/
inductive Goes (news : Option StreamEvent) (listed listed' : Bool) (c c' : Client) : Prop
  /-- Its events stay, and if it is still subscribed and open then it was, and nothing is new. -/
  | stays (events : c'.events = c.events) (ended : c'.ended = c.ended)
      (given : c.ended = true → c'.given = c.given)
      (still : listed' = true → c'.subscriber.closed = false →
        listed = true ∧ c.subscriber.closed = false ∧ news = none)
  /-- The event is put into its queue. -/
  | put (e : StreamEvent) (new : news = some e) (events : c'.events = c.events ++ [e])
      (ended : c'.ended = c.ended) (given : c'.given = c.given)
      (listed : listed = true) (opened : c.subscriber.closed = false)
  /-- Its loop is left. -/
  | stops (given : c'.given = c.given) (ended : c'.ended = true)

section Queues

variable {s : Subscriber} {e : StreamEvent} {taken : Bool}

theorem waiting_close (s : Subscriber) (taken : Bool) : (s.close taken).waiting = s.waiting := by
  unfold Subscriber.close
  split
  · rfl
  · split
    · simp [Subscriber.waiting, Item.event?]
    · by_cases room : s.queue.length < queueSize
      · simp [Subscriber.putNowait, room, Subscriber.waiting, Item.event?]
      · simp [Subscriber.putNowait, room, Subscriber.waiting]

/-- An event is put into a queue, or the queue is closed. -/
theorem put_cases (s : Subscriber) (e : StreamEvent) (taken : Bool) :
    ((s.put e taken).2 = true ∧ s.closed = false ∧ (s.put e taken).1.closed = false ∧
        (s.put e taken).1.waiting = s.waiting ++ [e]) ∨
      ((s.put e taken).2 = false ∧ (s.put e taken).1.closed = true ∧
        (s.put e taken).1.waiting = s.waiting) := by
  cases done : (s.put e taken).2 with
  | true =>
    obtain ⟨opened, same⟩ := put_ok done
    rw [same]
    exact .inl ⟨rfl, opened, opened, by simp [Subscriber.waiting, Item.event?]⟩
  | false =>
    refine .inr ⟨rfl, (put_failed done).2, ?_⟩
    unfold Subscriber.put at done ⊢
    cases shut : s.closed with
    | true => rfl
    | false =>
      by_cases room : s.queue.length < queueSize
      · simp [Subscriber.putNowait, room, shut] at done
      · simp only [Subscriber.putNowait, room, if_false, Bool.false_eq_true]
        exact waiting_close s taken

end Queues

section Clients

variable {news : Option StreamEvent} {listed listed' : Bool} {c : Client}

theorem events_subscriber (s : Subscriber) :
    ({ c with subscriber := s } : Client).events =
      c.given ++ ((c.got.bind id).bind Item.event?).toList ++ s.waiting := rfl

/-- Nothing happens to the client. -/
theorem Goes.rest (still : listed' = true → c.subscriber.closed = false →
    listed = true ∧ news = none) : Goes news listed listed' c c := by
  refine .stays rfl rfl (fun _ => rfl) ?_
  intro on opened
  have before := still on opened
  exact ⟨before.1, opened, before.2⟩

/-- The client is closed. -/
theorem Goes.close (taken : Bool) :
    Goes news listed listed' c { c with subscriber := c.subscriber.close taken } := by
  refine .stays ?_ rfl (fun _ => rfl) ?_
  · rw [events_subscriber, waiting_close]
    rfl
  · intro _ opened
    have shut : (c.subscriber.close taken).closed = true := closed_close c.subscriber taken
    rw [shut] at opened
    cases opened

/-- An event is put to the client. -/
theorem Goes.offer (e : StreamEvent) (taken : Bool) :
    Goes (some e) true (c.subscriber.put e taken).2 c
      { c with subscriber := (c.subscriber.put e taken).1 } := by
  obtain ⟨-, opened, -, waiting⟩ | ⟨-, shut, waiting⟩ := put_cases c.subscriber e taken
  · refine .put e rfl ?_ rfl rfl rfl opened
    rw [events_subscriber, waiting, ← List.append_assoc]
    rfl
  · refine .stays ?_ rfl (fun _ => rfl) ?_
    · rw [events_subscriber, waiting]
      rfl
    · intro _ opened
      rw [shut] at opened
      cases opened

/-- An event is put to the client, and then it is closed. -/
theorem Goes.farewell (e : StreamEvent) (taken : Bool) :
    Goes (some e) true listed' c
      { c with subscriber := (c.subscriber.put e taken).1.close taken } := by
  obtain ⟨-, opened, -, waiting⟩ | ⟨-, -, waiting⟩ := put_cases c.subscriber e taken
  · refine .put e rfl ?_ rfl rfl rfl opened
    rw [events_subscriber, waiting_close, waiting, ← List.append_assoc]
    rfl
  · refine .stays ?_ rfl (fun _ => rfl) ?_
    · rw [events_subscriber, waiting_close, waiting]
      rfl
    · intro _ opened
      have shut := closed_close (c.subscriber.put e taken).1 taken
      rw [shut] at opened
      cases opened

/-- A round yields no event and ends the loop, or yields the event it has and goes on. -/
theorem round_events (closed due expired : Bool) (item : Option Item) :
    ((round closed due expired item).1.filterMap Output.event? = [] ∧
        (round closed due expired item).2 = true) ∨
      ((round closed due expired item).1.filterMap Output.event? =
          (item.bind Item.event?).toList ∧
        (round closed due expired item).2 = false) := by
  cases item with
  | none => cases closed <;> cases expired <;> cases due <;> simp [round, Output.event?]
  | some item =>
    cases item with
    | stop => exact .inl ⟨rfl, rfl⟩
    | frame e =>
      by_cases off : (!Web.contains e.encode shutdownMark && expired) = true
      · exact .inl (by simp [round, off, Output.event?])
      · exact .inr (by simp [round, off, Output.event?, Item.event?])

end Clients

section Moves

variable {h : Hub} {i : Nat} {c : Client}

theorem step_publish (good : Good h) (hc : h.clients[i]? = some c) (stream name : String)
    (data : Web.Body) (taken : Nat → Bool) :
    ∃ c', (h.publish stream name data taken).clients[i]? = some c' ∧ c'.stream = c.stream ∧
      Goes (h.news c.stream (.publish stream name data taken)) ((h.channels c.stream).lists i)
        (((h.publish stream name data taken).channels c.stream).lists i) c c' := by
  have there : (h.publish stream name data taken).clients[i]? = some
      (if (h.channels stream).lists i then
        { c with subscriber := (c.subscriber.put ((h.channels stream).event name data) (taken i)).1 }
      else c) := by
    simp [Hub.publish, Hub.onClients, hc]
  refine ⟨_, there, ?_, ?_⟩
  · split <;> rfl
  by_cases on : (h.channels stream).lists i = true
  · obtain ⟨c₀, hc₀, here⟩ := good.listed stream i on
    obtain rfl : c₀ = c := Option.some.inj (hc₀.symm.trans hc)
    subst here
    have member : i ∈ (h.channels c₀.stream).subscribers.getD [] := by
      simpa [Channel.lists] using on
    have live : ((h.publish c₀.stream name data taken).channels c₀.stream).lists i =
        (c₀.subscriber.put ((h.channels c₀.stream).event name data) (taken i)).2 := by
      rw [Bool.eq_iff_iff]
      simp [Hub.publish, Channel.lists, hc, member]
    rw [live, if_pos on, on, Hub.news, if_pos rfl]
    exact Goes.offer _ (taken i)
  · rw [if_neg on]
    refine Goes.rest ?_
    intro listed _
    by_cases here : stream = c.stream
    · subst here
      simp only [Hub.publish, setChannel_self, Channel.lists, Option.getD_some,
        List.contains_eq_mem, List.mem_filter, decide_eq_true_eq] at listed
      exact absurd (by simpa [Channel.lists] using listed.1) on
    · rw [Hub.news, if_neg here]
      simp only [Hub.publish, setChannel_other _ (Ne.symm here)] at listed
      exact ⟨listed, rfl⟩

theorem step_shutdown (hc : h.clients[i]? = some c) (taken : Nat → Bool) :
    ∃ c', (h.shutdown taken).clients[i]? = some c' ∧ c'.stream = c.stream ∧
      Goes (h.news c.stream (.shutdown taken)) ((h.channels c.stream).lists i)
        (((h.shutdown taken).channels c.stream).lists i) c c' := by
  by_cases shut : h.closed = true
  · rw [Hub.shutdown, if_pos shut, Hub.news, if_pos (.inl shut)]
    exact ⟨c, hc, rfl, Goes.rest fun on _ => ⟨on, rfl⟩⟩
  · rw [Hub.shutdown, if_neg shut]
    have there : (h.onClients (fun i client => (h.channels client.stream).lists i) fun i client =>
        { client with
          subscriber := ((client.subscriber.put
            ((h.channels client.stream).event "manager.shutdown" []) (taken i)).1).close
              (taken i) })[i]? = some (if (h.channels c.stream).lists i then
        { c with
          subscriber := ((c.subscriber.put
            ((h.channels c.stream).event "manager.shutdown" []) (taken i)).1).close (taken i) }
        else c) := by
      simp [Hub.onClients, hc]
    refine ⟨_, there, ?_, ?_⟩
    · split <;> rfl
    by_cases on : (h.channels c.stream).lists i = true
    · have entry : ¬ (h.closed = true ∨ (h.channels c.stream).subscribers = none) := by
        rintro (closed | none)
        · exact shut closed
        · simp [Channel.lists, none] at on
      rw [if_pos on, on, Hub.news, if_neg entry]
      exact Goes.farewell _ (taken i)
    · rw [if_neg on]
      refine Goes.rest ?_
      intro listed _
      dsimp only at listed
      cases entry : (h.channels c.stream).subscribers with
      | none => simp [entry, Channel.lists] at listed
      | some l => simp [entry, Channel.lists] at listed

/-- Another client, and the channels, stay. -/
theorem step_alone {j : Nat} {d d' : Client} (hd : h.clients[j]? = some d)
    (kept : d'.stream = d.stream) (hc : h.clients[i]? = some c)
    (next : Goes none ((h.channels d.stream).lists j) ((h.channels d.stream).lists j) d d') :
    ∃ c', (h.clients.set j d')[i]? = some c' ∧ c'.stream = c.stream ∧
      Goes none ((h.channels c.stream).lists i) ((h.channels c.stream).lists i) c c' := by
  by_cases same : j = i
  · subst same
    obtain rfl : d = c := Option.some.inj (hd.symm.trans hc)
    have there : j < h.clients.length := (List.getElem?_eq_some_iff.mp hd).1
    exact ⟨d', by rw [List.getElem?_set_self there], kept, next⟩
  · exact ⟨c, by rw [List.getElem?_set_ne same, hc], rfl, Goes.rest fun on _ => ⟨on, rfl⟩⟩

theorem step_get (hc : h.clients[i]? = some c) (j : Nat) :
    ∃ c', (h.get j).clients[i]? = some c' ∧ c'.stream = c.stream ∧
      Goes none ((h.channels c.stream).lists i) (((h.get j).channels c.stream).lists i) c c' := by
  have rests : Goes none ((h.channels c.stream).lists i) ((h.channels c.stream).lists i) c c :=
    Goes.rest fun on _ => ⟨on, rfl⟩
  unfold Hub.get
  cases hd : h.clients[j]? with
  | none => exact ⟨c, hc, rfl, rests⟩
  | some d =>
    dsimp only
    by_cases busy : (d.ended || d.got.isSome) = true
    · rw [if_pos busy]
      exact ⟨c, hc, rfl, rests⟩
    · rw [if_neg busy]
      have free : d.got = none := by
        cases got : d.got with
        | some item => simp [got] at busy
        | none => rfl
      have moved : ((d.subscriber.queue.head?).bind Item.event?).toList ++
          d.subscriber.queue.tail.filterMap Item.event? = d.subscriber.waiting := by
        rw [Subscriber.waiting]
        cases d.subscriber.queue with
        | nil => rfl
        | cons item rest => cases item <;> rfl
      refine step_alone hd ?_ hc (.stays ?_ rfl (fun _ => rfl) fun on opened => ⟨on, opened, rfl⟩)
      · rfl
      rw [Client.events, Client.events, free, List.append_assoc, List.append_assoc]
      exact congrArg (d.given ++ ·) moved

theorem step_answer (hc : h.clients[i]? = some c) (j : Nat) (due expired : Bool) :
    ∃ c', (h.answer j due expired).clients[i]? = some c' ∧ c'.stream = c.stream ∧
      Goes none ((h.channels c.stream).lists i)
        (((h.answer j due expired).channels c.stream).lists i) c c' := by
  have rests : Goes none ((h.channels c.stream).lists i) ((h.channels c.stream).lists i) c c :=
    Goes.rest fun on _ => ⟨on, rfl⟩
  unfold Hub.answer
  cases hd : h.clients[j]? with
  | none => exact ⟨c, hc, rfl, rests⟩
  | some d =>
    dsimp only
    split
    · rename_i item going got
      refine step_alone hd ?_ hc ?_
      · rfl
      obtain ⟨nothing, ended⟩ | ⟨yields, goes⟩ := round_events d.subscriber.closed due expired item
      · refine .stops ?_ ended
        rw [Client.given, List.filterMap_append, nothing, List.append_nil]
        rfl
      · refine .stays ?_ (goes.trans going.symm) ?_ fun on opened => ⟨on, opened, rfl⟩
        · rw [Client.events, Client.events, Client.given, List.filterMap_append, yields, got]
          simp [Client.given]
        · intro ended
          rw [going] at ended
          cases ended
    · exact ⟨c, hc, rfl, rests⟩

theorem step_unsubscribe (hc : h.clients[i]? = some c) (j : Nat) (taken : Bool) :
    ∃ c', (h.unsubscribe j taken).clients[i]? = some c' ∧ c'.stream = c.stream ∧
      Goes none ((h.channels c.stream).lists i)
        (((h.unsubscribe j taken).channels c.stream).lists i) c c' := by
  unfold Hub.unsubscribe
  cases hd : h.clients[j]? with
  | none => exact ⟨c, hc, rfl, Goes.rest fun on _ => ⟨on, rfl⟩⟩
  | some d =>
    dsimp only
    by_cases same : j = i
    · subst same
      obtain rfl : d = c := Option.some.inj (hd.symm.trans hc)
      have there : j < h.clients.length := (List.getElem?_eq_some_iff.mp hd).1
      exact ⟨_, List.getElem?_set_self there, rfl, Goes.close taken⟩
    · refine ⟨c, by rw [List.getElem?_set_ne same, hc], rfl, Goes.rest ?_⟩
      intro on _
      refine ⟨?_, rfl⟩
      by_cases here : c.stream = d.stream
      · rw [here, setChannel_self] at on
        rw [here]
        cases entry : (h.channels d.stream).subscribers with
        | none => simp [Channel.lists, entry] at on
        | some l =>
          have member : i ∈ l := by
            have both : i ∈ l ∧ i ≠ j := by simpa [Channel.lists, entry] using on
            exact both.1
          simpa [Channel.lists, entry] using member
      · simpa only [setChannel_other _ here] using on

theorem step_subscribe (hc : h.clients[i]? = some c) (stream : String) (since : Option Int) :
    ∃ c', (h.subscribe stream since).clients[i]? = some c' ∧ c'.stream = c.stream ∧
      Goes none ((h.channels c.stream).lists i)
        (((h.subscribe stream since).channels c.stream).lists i) c c' := by
  have low : i < h.clients.length := (List.getElem?_eq_some_iff.mp hc).1
  refine ⟨c, ?_, rfl, Goes.rest ?_⟩
  · rw [Hub.subscribe, List.getElem?_append_left low, hc]
  intro on _
  refine ⟨?_, rfl⟩
  rw [Hub.subscribe] at on
  by_cases here : c.stream = stream
  · subst here
    have both : i ∈ (h.channels c.stream).subscribers.getD [] ∨ i = h.clients.length := by
      simpa [Channel.lists] using on
    obtain member | new := both
    · simpa [Channel.lists] using member
    · omega
  · simpa only [setChannel_other _ here] using on

/-- What a move does to a client. -/
theorem client_step (good : Good h) (hc : h.clients[i]? = some c) (m : Move) :
    ∃ c', (h.step m).clients[i]? = some c' ∧ c'.stream = c.stream ∧
      Goes (h.news c.stream m) ((h.channels c.stream).lists i)
        (((h.step m).channels c.stream).lists i) c c' := by
  cases m with
  | publish stream name data taken => exact step_publish good hc stream name data taken
  | subscribe stream since => exact step_subscribe hc stream since
  | unsubscribe j taken => exact step_unsubscribe hc j taken
  | shutdown taken => exact step_shutdown hc taken
  | get j => exact step_get hc j
  | answer j due expired => exact step_answer hc j due expired

end Moves

end McManager.Realtime
