import McManager.Web.Requests

namespace McManager.Realtime

open Web

/-- Four hexadecimal digits. -/
def hex4 (n : Nat) : List Char :=
  [n / 4096 % 16, n / 256 % 16, n / 16 % 16, n % 16].map Nat.digitChar

/-- A character as `json.dumps` writes it into a text: pure ASCII. -/
def escaped (c : Char) : List Char :=
  if c = '"' then ['\\', '"']
  else if c = '\\' then ['\\', '\\']
  else if c = '\n' then ['\\', 'n']
  else if c = '\r' then ['\\', 'r']
  else if c = '\t' then ['\\', 't']
  else if c.toNat = 8 then ['\\', 'b']
  else if c.toNat = 12 then ['\\', 'f']
  else if 32 ≤ c.toNat ∧ c.toNat ≤ 126 then [c]
  else if c.toNat < 0x10000 then '\\' :: 'u' :: hex4 c.toNat
  else
    let v := c.toNat - 0x10000
    '\\' :: 'u' :: hex4 (0xd800 + v / 1024) ++ '\\' :: 'u' :: hex4 (0xdc00 + v % 1024)

def quoted (s : String) : String :=
  "\"" ++ String.ofList (s.toList.flatMap escaped) ++ "\""

mutual

/-- `json.dumps` with the separators `,` and `:`. -/
def dumps : Json → String
  | .null => "null"
  | .bool true => "true"
  | .bool false => "false"
  | .int n => toString n
  | .float text => text
  | .str s => quoted s
  | .arr items => "[" ++ ",".intercalate (dumpsItems items) ++ "]"
  | .obj members => "\x7b" ++ ",".intercalate (dumpsMembers members) ++ "\x7d"

def dumpsItems : List Json → List String
  | [] => []
  | v :: vs => dumps v :: dumpsItems vs

def dumpsMembers : List (String × Json) → List String
  | [] => []
  | (k, v) :: ms => (quoted k ++ ":" ++ dumps v) :: dumpsMembers ms

end

structure StreamEvent where
  sequence : Nat
  event : String
  data : Body

def StreamEvent.encode (e : StreamEvent) : String :=
  "id: " ++ toString e.sequence ++ "\nevent: " ++ e.event ++ "\ndata: " ++ dumps (.obj e.data) ++
    "\n\n"

/-- What waits in the queue of a subscriber: a frame, or the end of the stream. -/
inductive Item
  | frame (e : StreamEvent)
  | stop

/-- `StreamSubscriber`. -/
structure Subscriber where
  queue : List Item := []
  closed : Bool := false

/-- The size of a subscriber's queue. -/
def queueSize : Nat := 200

namespace Subscriber

/-- `Queue.put_nowait`. -/
def putNowait (s : Subscriber) (item : Item) : Option Subscriber :=
  if s.queue.length < queueSize then some { s with queue := s.queue ++ [item] } else none

/-- `close`. `taken` says that the reader takes an item between the check that found the queue
full and the end mark, so that the mark still finds room. -/
def close (s : Subscriber) (taken : Bool) : Subscriber :=
  if s.closed then s
  else if taken then { queue := s.queue ++ [.stop], closed := true }
  else
    let s := { s with closed := true }
    (s.putNowait .stop).getD s

/-- `put`. -/
def put (s : Subscriber) (e : StreamEvent) (taken : Bool) : Subscriber × Bool :=
  if s.closed then (s, false)
  else
    match s.putNowait (.frame e) with
    | some s => (s, true)
    | none => (s.close taken, false)

end Subscriber

/-- What `frames` yields; `expired` is the frame of `_auth_expired_frame`. -/
inductive Output
  | frame (e : StreamEvent)
  | ping
  | expired

/-- What `frames` looks for in the text of a frame. -/
def shutdownMark : String := "event: manager.shutdown"

/-- One round of the loop of `frames` for what `Queue.get` came back with, nothing when the wait
ran out: what is yielded, and whether the loop is left. `due` says that a ping is due, `expired`
that there is an `auth_check` and it fails. -/
def round (closed due expired : Bool) : Option Item → List Output × Bool
  | none =>
    if closed then ([], true)
    else if expired then ([.expired], true)
    else if due then ([.ping], false)
    else ([], false)
  | some .stop => ([], true)
  | some (.frame e) =>
    if !contains e.encode shutdownMark && expired then ([.expired], true)
    else ([.frame e], false)

/-- What one round of the loop goes by. -/
structure Take where
  item : Option Item
  closed : Bool
  due : Bool
  expired : Bool

/-- `frames`: what the loop yields, and whether it has ended. -/
def frames : List Take → List Output × Bool
  | [] => ([], false)
  | t :: rest =>
    let r := round t.closed t.due t.expired t.item
    if r.2 then r else (r.1 ++ (frames rest).1, (frames rest).2)

/-- A subscriber with the loop that drains it. `since` is the id it was subscribed with and
`offered` the replay buffer of its stream then; the code keeps neither. `got` is what the last
`Queue.get` came back with, until the loop has dealt with it. -/
structure Client where
  stream : String
  since : Option Int
  offered : List StreamEvent
  subscriber : Subscriber
  got : Option (Option Item) := none
  yielded : List Output := []
  ended : Bool := false

/-- What the hub keeps of one stream: the next sequence number, the replay buffer, and the
subscribers if the stream has an entry for them. -/
structure Channel where
  next : Nat := 1
  buffer : List StreamEvent := []
  subscribers : Option (List Nat) := none

/-- `RealtimeHub`; a subscriber is its place among `clients`. -/
structure Hub where
  replayLimit : Nat
  channels : String → Channel := fun _ => {}
  clients : List Client := []
  closed : Bool := false

/-- `deque.append` with a `maxlen`. -/
def appendBounded (limit : Nat) (buffer : List StreamEvent) (e : StreamEvent) : List StreamEvent :=
  (buffer ++ [e]).drop (buffer.length + 1 - limit)

/-- What happens to a hub and its clients. The hub changes under its lock; a reader may take items
meanwhile (`taken`), which shows only where a queue was full. -/
inductive Move
  | publish (stream event : String) (data : Body) (taken : Nat → Bool)
  | subscribe (stream : String) (lastEventId : Option Int)
  | unsubscribe (i : Nat) (taken : Bool)
  | shutdown (taken : Nat → Bool)
  | get (i : Nat)
  | answer (i : Nat) (due expired : Bool)

namespace Channel

/-- The next event of the stream. -/
def event (c : Channel) (name : String) (data : Body) : StreamEvent := ⟨c.next, name, data⟩

def record (c : Channel) (limit : Nat) (e : StreamEvent) : Channel :=
  { c with next := c.next + 1, buffer := appendBounded limit c.buffer e }

/-- `replay`. -/
def replay (c : Channel) (lastEventId : Option Int) : List StreamEvent :=
  match lastEventId with
  | none => c.buffer
  | some n => c.buffer.filter fun e => n < (e.sequence : Int)

def lists (c : Channel) (i : Nat) : Bool := (c.subscribers.getD []).contains i

end Channel

namespace Hub

def setChannel (h : Hub) (stream : String) (c : Channel) : Hub :=
  { h with channels := fun s => if s = stream then c else h.channels s }

/-- Change the clients with these places. -/
def onClients (h : Hub) (p : Nat → Client → Bool) (f : Nat → Client → Client) : List Client :=
  h.clients.mapIdx fun i c => if p i c then f i c else c

/-- `subscribe`: nobody reads the subscriber yet. -/
def subscribe (h : Hub) (stream : String) (lastEventId : Option Int) : Hub :=
  let c := h.channels stream
  let subscriber := (c.replay lastEventId).foldl (fun s e => (s.put e false).1) {}
  { h.setChannel stream
      { c with subscribers := some (c.subscribers.getD [] ++ [h.clients.length]) } with
    clients := h.clients ++ [{ stream, since := lastEventId, offered := c.buffer, subscriber }] }

/-- `unsubscribe`. -/
def unsubscribe (h : Hub) (i : Nat) (taken : Bool) : Hub :=
  match h.clients[i]? with
  | none => h
  | some client =>
    let c := h.channels client.stream
    { h.setChannel client.stream
        { c with subscribers := c.subscribers.map fun l => l.filter (· ≠ i) } with
      clients := h.clients.set i { client with subscriber := client.subscriber.close taken } }

/-- `publish`. -/
def publish (h : Hub) (stream event : String) (data : Body) (taken : Nat → Bool) : Hub :=
  let c := h.channels stream
  let e := c.event event data
  let live := (c.subscribers.getD []).filter fun i =>
    h.clients[i]?.any fun client => (client.subscriber.put e (taken i)).2
  { h.setChannel stream { c.record h.replayLimit e with subscribers := some live } with
    clients := h.onClients (fun i _ => c.lists i) fun i client =>
      { client with subscriber := (client.subscriber.put e (taken i)).1 } }

/-- `shutdown`. -/
def shutdown (h : Hub) (taken : Nat → Bool) : Hub :=
  if h.closed then h
  else
    { h with
      closed := true
      channels := fun s =>
        let c := h.channels s
        match c.subscribers with
        | none => c
        | some _ =>
          { c.record h.replayLimit (c.event "manager.shutdown" []) with subscribers := none }
      clients := h.onClients (fun i client => (h.channels client.stream).lists i) fun i client =>
        { client with
          subscriber := ((client.subscriber.put
            ((h.channels client.stream).event "manager.shutdown" []) (taken i)).1).close
              (taken i) } }

/-- `Queue.get` of a client's loop: the first item, or nothing when the wait runs out. -/
def get (h : Hub) (i : Nat) : Hub :=
  match h.clients[i]? with
  | none => h
  | some client =>
    if client.ended || client.got.isSome then h
    else
      { h with
        clients := h.clients.set i
          { client with
            subscriber := { client.subscriber with queue := client.subscriber.queue.tail }
            got := some client.subscriber.queue.head? } }

/-- The rest of the round. -/
def answer (h : Hub) (i : Nat) (due expired : Bool) : Hub :=
  match h.clients[i]? with
  | none => h
  | some client =>
    match client.ended, client.got with
    | false, some item =>
      let r := round client.subscriber.closed due expired item
      { h with
        clients := h.clients.set i
          { client with got := none, yielded := client.yielded ++ r.1, ended := r.2 } }
    | _, _ => h

def step (h : Hub) : Move → Hub
  | .publish stream event data taken => h.publish stream event data taken
  | .subscribe stream lastEventId => h.subscribe stream lastEventId
  | .unsubscribe i taken => h.unsubscribe i taken
  | .shutdown taken => h.shutdown taken
  | .get i => h.get i
  | .answer i due expired => h.answer i due expired

def run (h : Hub) (moves : List Move) : Hub := moves.foldl step h

end Hub

end McManager.Realtime
