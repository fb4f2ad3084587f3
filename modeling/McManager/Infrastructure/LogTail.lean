import McManager.Infrastructure.Tailing

namespace McManager.Tailing

/-- `_SUBSCRIBER_QUEUE_CAPACITY`. -/
def subscriberQueueCapacity : Nat := 256

/-- `Subscription`. `inHand` is the line that its worker hands to the callback, and `lost` are the
lines that `dropped` counts. -/
structure Subscription where
  queue : List (Nat × String) := []
  dropped : Nat := 0
  inHand : Option (Nat × String) := none
  lost : List (Nat × String) := []
  deriving DecidableEq

namespace Subscription

/-- `submit`. -/
def submit (s : Subscription) (item : Nat × String) : Subscription :=
  if s.queue.length < subscriberQueueCapacity then { s with queue := s.queue ++ [item] }
  else { s with dropped := s.dropped + 1, lost := s.lost ++ [item] }

/-- `_run` takes a line from the queue. -/
def take (s : Subscription) : Subscription :=
  match s.inHand, s.queue with
  | none, item :: queue => { s with queue, inHand := some item }
  | _, _ => s

/-- The callback returns or raises: what is left to do, and what the sink has got. -/
def callback (s : Subscription) (raises : Bool) : Subscription × List (Nat × String) :=
  match s.inHand with
  | none => (s, [])
  | some item =>
    if raises then
      ({ s with inHand := none, dropped := s.dropped + 1, lost := s.lost ++ [item] }, [])
    else ({ s with inHand := none }, [item])

end Subscription

/-- An `append` that has given up the lock: the line and the subscribers it still goes to, with the
value of `self._next_line_no - 1` once it is there for the first of them. The line stands in the
buffer under the number `own`. -/
structure Pending where
  own : Nat
  line : String
  subscribers : List Nat
  number : Option Nat := none
  deriving DecidableEq

/-- A channel of a `LogRingBuffer`: all lines that have been appended to it, how many there were
when `tail` read the buffer, and what the sink has got of it, with the numbers. -/
structure Channel where
  name : String
  buffer : RingBuffer
  subscriptions : List Subscription := []
  pending : List Pending := []
  history : List String := []
  replayedAt : Option Nat := none
  delivered : List (Nat × String) := []
  deriving DecidableEq

namespace Channel

/-- `RingBuffer.append` up to where it gives up the lock. -/
def append (c : Channel) (line : String) : Channel :=
  { c with
    buffer := c.buffer.append line
    history := c.history ++ [line]
    pending := c.pending ++
      if c.buffer.subscribers = [] then []
      else [{ own := c.buffer.nextLineNo, line, subscribers := c.buffer.subscribers }] }

/-- The next step of an `append` after it: the number is read, then the line is submitted. -/
def submit (c : Channel) (i : Nat) : Channel :=
  match c.pending[i]? with
  | some ⟨own, line, subscriber :: rest, none⟩ =>
    { c with
      pending := c.pending.set i
        ⟨own, line, subscriber :: rest, some (c.buffer.nextLineNo - 1)⟩ }
  | some ⟨own, line, subscriber :: rest, some number⟩ =>
    { c with
      subscriptions := c.subscriptions.modify subscriber (·.submit (number, line))
      pending := if rest = [] then c.pending.eraseIdx i
        else c.pending.set i ⟨own, line, rest, none⟩ }
  | _ => c

def take (c : Channel) (subscriber : Nat) : Channel :=
  { c with subscriptions := c.subscriptions.modify subscriber (·.take) }

def callback (c : Channel) (subscriber : Nat) (raises : Bool) : Channel :=
  { c with
    subscriptions := c.subscriptions.modify subscriber fun s => (s.callback raises).1
    delivered := c.delivered ++
      match c.subscriptions[subscriber]? with
      | some s => (s.callback raises).2
      | none => [] }

/-- `RingBuffer.subscribe`. -/
def subscribe (c : Channel) : Channel :=
  { c with
    buffer := c.buffer.subscribe c.subscriptions.length
    subscriptions := c.subscriptions ++ [{}] }

end Channel

/-- Where `PosixProcessAdapter.tail` stands: the channels it still goes through and the lines it
still hands to the sink. -/
inductive Attaching
  | before
  | replaying (channels : List String)
  | handing (channel : String) (items : List (Nat × String)) (channels : List String)
  | notice (channels : List String)
  | replayed
  | subscribing (channels : List String)
  | attached
  | raised
  deriving DecidableEq

/-- The `LogRingBuffer` of a registry entry, and one call of `tail` on it. `trimmed` counts the
notices that lines are missing. -/
structure State where
  maxlen : Nat
  sinceOffset : Int
  channels : List Channel := []
  attaching : Attaching := .before
  trimmed : Nat := 0
  deriving DecidableEq

/-- `LogRingBuffer.channel`, an `append` on a channel and what follows it, a worker that takes a
line and hands it to the sink, and the next step of `tail`. -/
inductive Move
  | channel (name : String)
  | append (name line : String)
  | submit (name : String) (i : Nat)
  | take (name : String) (subscriber : Nat)
  | callback (name : String) (subscriber : Nat) (raises : Bool)
  | tail (raises : Bool)
  deriving DecidableEq

namespace State

/-- `LogRingBuffer.channels`. -/
def names (s : State) : List String := s.channels.map (·.name)

def channel? (s : State) (name : String) : Option Channel :=
  s.channels.find? fun c => c.name = name

/-- A step on one channel. -/
def on (s : State) (name : String) (f : Channel → Channel) : State :=
  { s with channels := s.channels.map fun c => if c.name = name then f c else c }

/-- The lines of a channel that `tail` replays. -/
def retained (s : State) (name : String) : List (Nat × String) :=
  match s.channel? name with
  | some c => c.buffer.tail s.sinceOffset
  | none => []

/-- `tail` says that lines are missing. -/
def trimmedPast (s : State) (name : String) : Bool :=
  s.sinceOffset ≠ 0 && match s.channel? name with
    | some c => c.buffer.trimmed s.sinceOffset
    | none => false

/-- The next step of `tail`; `raises` tells whether a call of the sink raises. -/
def tail (s : State) (raises : Bool) : State :=
  match s.attaching with
  | .before => { s with attaching := .replaying s.names }
  | .replaying [] => { s with attaching := .replayed }
  | .replaying (name :: names) =>
    { s.on name fun c => { c with replayedAt := some c.history.length } with
      attaching := .handing name (s.retained name) names }
  | .handing name (item :: items) names =>
    if raises then { s with attaching := .raised }
    else { s.on name fun c => { c with delivered := c.delivered ++ [item] } with
      attaching := .handing name items names }
  | .handing name [] names =>
    { s with attaching := if s.trimmedPast name then .notice names else .replaying names }
  | .notice names =>
    if raises then { s with attaching := .raised }
    else { s with trimmed := s.trimmed + 1, attaching := .replaying names }
  | .replayed => { s with attaching := .subscribing s.names }
  | .subscribing [] => { s with attaching := .attached }
  | .subscribing (name :: names) =>
    { s.on name Channel.subscribe with attaching := .subscribing names }
  | .attached => s
  | .raised => s

def step (s : State) : Move → State
  | .channel name =>
    if name ∈ s.names then s
    else { s with channels := s.channels ++ [{ name, buffer := { maxlen := s.maxlen } }] }
  | .append name line => s.on name (·.append line)
  | .submit name i => s.on name (·.submit i)
  | .take name subscriber => s.on name (·.take subscriber)
  | .callback name subscriber raises => s.on name (·.callback subscriber raises)
  | .tail raises => s.tail raises

end State

end McManager.Tailing
