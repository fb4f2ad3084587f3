import Mathlib.Order.Lattice

namespace McManager.StreamClient

/-- What a `STREAM_EVENT` carries; `code` is the field of that name of its data. -/
structure Payload where
  topic : String
  code : Option String := none

inductive Message
  | hello
  | heartbeat
  | leaderLeave
  | authResumed
  | streamEvent (payload : Payload)

def leaderTimeoutMs : Int := 7000

/-- `StreamClientManager`. `channel` and `supportsEvents` say whether the browser has a
`BroadcastChannel` and an `EventSource`; a timer is on while it can fire. -/
structure Tab (Id : Type) where
  tabId : Id
  channel : Bool
  supportsEvents : Bool
  peers : List (Id × Int)
  leaderId : Option Id := none
  isLeader : Bool := false
  eventSource : Bool := false
  heartbeatTimer : Bool := false
  monitorTimer : Bool := false
  electionTimer : Bool := false
  closed : Bool := false
  authExpired : Bool := false

variable {Id : Type} [LinearOrder Id]

/-- `Map.set`. -/
def mapSet (m : List (Id × Int)) (key : Id) (value : Int) : List (Id × Int) :=
  if m.any (·.1 = key) then m.map fun e => if e.1 = key then (key, value) else e
  else m ++ [(key, value)]

/-- `Map.delete`. -/
def mapDelete (m : List (Id × Int)) (key : Id) : List (Id × Int) := m.filter (·.1 ≠ key)

/-- What a handler does to its tab, and what it posts on the channel. -/
abbrev Effect (Id : Type) := Tab Id × List Message

namespace Tab

/-- Peers that were not seen for too long are forgotten. -/
def prune (t : Tab Id) (now : Int) : Tab Id :=
  { t with peers := t.peers.filter fun e => now - e.2 ≤ leaderTimeoutMs }

def hasPeer (t : Tab Id) (id : Id) : Bool := t.peers.any (·.1 = id)

/-- `postMessage`, if there is a channel. -/
def posts (t : Tab Id) (m : Message) : List Message := if t.channel then [m] else []

/-- `sendHeartbeat`. -/
def sendHeartbeat (t : Tab Id) : Effect Id :=
  (t, if t.isLeader then t.posts .heartbeat else [])

/-- `becomeLeader`. -/
def becomeLeader (t : Tab Id) : Effect Id :=
  if t.closed || t.authExpired || t.isLeader then (t, [])
  else
    let t := { t with isLeader := true, leaderId := some t.tabId }
    let t := if t.supportsEvents then { t with eventSource := true } else t
    let (t, sent) := t.sendHeartbeat
    ({ t with heartbeatTimer := true }, sent)

/-- `resign`. -/
def resign (t : Tab Id) : Tab Id :=
  if t.isLeader then
    { t with isLeader := false, eventSource := false, heartbeatTimer := false }
  else t

/-- `scheduleElection`. -/
def scheduleElection (t : Tab Id) : Tab Id := { t with electionTimer := true }

/-- `elect`, when the timer fires. -/
def elect (t : Tab Id) (now : Int) : Effect Id :=
  let t := { t with electionTimer := false }
  if t.closed || t.authExpired || !t.channel then (t, [])
  else
    let t := t.prune now
    if t.leaderId.any fun l => t.hasPeer l && l ≠ t.tabId then (t, [])
    else
      let first := (t.peers.map Prod.fst).foldl min t.tabId
      if first = t.tabId then t.becomeLeader else ({ t with leaderId := some first }, [])

/-- `monitorLeader`. -/
def monitorLeader (t : Tab Id) (now : Int) : Tab Id :=
  if t.closed || t.authExpired || t.isLeader then t
  else
    let t := t.prune now
    if t.leaderId.any t.hasPeer then t else t.scheduleElection

/-- `shutdown`. -/
def shutdown (t : Tab Id) : Effect Id :=
  if t.closed then (t, [])
  else
    let sent := if t.isLeader then t.posts .leaderLeave else []
    ({ t.resign with closed := true, monitorTimer := false, electionTimer := false }, sent)

def sessionExpired (p : Payload) : Bool :=
  p.topic = "stream.error" && p.code = some "AUTH_SESSION_EXPIRED"

/-- A leader resigns when it hears of a leader with a smaller id. -/
def yieldTo (t : Tab Id) (sender : Id) : Tab Id :=
  if t.isLeader ∧ sender < t.tabId then t.resign else t

def follow (t : Tab Id) (sender : Id) : Tab Id :=
  if t.leaderId.all (sender < ·) || t.isLeader then { t with leaderId := some sender } else t

/-- `onChannelMessage`. -/
def onChannelMessage (t : Tab Id) (sender : Id) (now : Int) : Message → Effect Id
  | .hello => ({ t with peers := mapSet t.peers sender now }, [])
  | .heartbeat =>
    let t := { t with peers := mapSet t.peers sender now }
    ((t.yieldTo sender).follow sender, [])
  | .leaderLeave =>
    let t := { t with peers := mapDelete t.peers sender }
    let t := if t.leaderId = some sender then { t with leaderId := none } else t
    (t.scheduleElection, [])
  | .authResumed =>
    let t := { t with authExpired := false, peers := mapSet t.peers sender now }
    if t.isLeader ∧ t.tabId < sender then ({ t with leaderId := some t.tabId }, [])
    else (resign { t with leaderId := some sender }, [])
  | .streamEvent p =>
    if p.topic = "manager.shutdown" then t.shutdown
    else if sessionExpired p then (resign { t with authExpired := true }, [])
    else (t, [])

/-- `handleStreamEvent`. -/
def handleStreamEvent (t : Tab Id) (p : Payload) : Effect Id :=
  let t := if sessionExpired p then resign { t with authExpired := true } else t
  let sent := t.posts (.streamEvent p)
  if p.topic = "manager.shutdown" then
    let (t, last) := t.shutdown
    (t, sent ++ last)
  else (t, sent)

/-- `resumeAfterAuthentication`. -/
def resumeAfterAuthentication (t : Tab Id) (now : Int) : Effect Id :=
  if t.closed then (t, [])
  else
    let t := { t with authExpired := false, leaderId := some t.tabId }
    let t := if t.channel then { t with peers := mapSet t.peers t.tabId now } else t
    let (t', sent) := t.becomeLeader
    (t', t.posts .authResumed ++ sent)

/-- The constructor. -/
def create (tabId : Id) (channel supportsEvents : Bool) (now : Int) : Effect Id :=
  let t : Tab Id := { tabId, channel, supportsEvents, peers := [(tabId, now)] }
  if channel then ({ t with electionTimer := true, monitorTimer := true }, [.hello])
  else t.becomeLeader

end Tab

/-- The tabs of a browser, and for each sender and receiver the messages on their way, with the
moment they were posted. `led`, `sent` and `heard` only record: when a tab last became leader,
when it posted heartbeats, and which of them were delivered to whom. -/
structure Browser (Id : Type) where
  tabs : Id → Option (Tab Id) := fun _ => none
  inFlight : Id → Id → List (Nat × Message) := fun _ _ => []
  clock : Nat := 0
  led : Id → Nat := fun _ => 0
  sent : Id → List Nat := fun _ => []
  heard : Id → Id → List Nat := fun _ _ => []

/-- What can happen next. The clock of the system may say anything (`now`). -/
inductive Move (Id : Type)
  | openTab (id : Id) (channel supportsEvents : Bool) (now : Int)
  | deliver (sender receiver : Id) (now : Int)
  | elect (id : Id) (now : Int)
  | monitor (id : Id) (now : Int)
  | heartbeat (id : Id)
  | streamEvent (id : Id) (p : Payload)
  | resume (id : Id) (now : Int)
  | shutdown (id : Id)
  | kill (id : Id)

namespace Browser

/-- Tabs that get what is posted now. -/
def listens (b : Browser Id) (id : Id) : Bool :=
  (b.tabs id).any fun t => t.channel && !t.closed

def isHeartbeat : Message → Bool
  | .heartbeat => true
  | _ => false

/-- A tab becomes what a handler made of it, and its messages are posted to the other tabs. -/
def settle (b : Browser Id) (id : Id) (led : Bool) (e : Effect Id) : Browser Id :=
  { b with
    tabs := fun x => if x = id then some e.1 else b.tabs x
    inFlight := fun s r =>
      if s = id ∧ r ≠ id ∧ b.listens r then b.inFlight s r ++ e.2.map (b.clock, ·)
      else b.inFlight s r
    clock := b.clock + 1
    led := fun x => if x = id ∧ led then b.clock else b.led x
    sent := fun x => if x = id ∧ e.2.any isHeartbeat then b.clock :: b.sent x else b.sent x }

/-- A tab handles something. -/
def act (b : Browser Id) (id : Id) (f : Tab Id → Effect Id) : Browser Id :=
  match b.tabs id with
  | none => b
  | some t => b.settle id (!t.isLeader && (f t).1.isLeader) (f t)

/-- The next message of a sender reaches a receiver. -/
def deliver (b : Browser Id) (sender receiver : Id) (now : Int) : Browser Id :=
  match b.inFlight sender receiver with
  | [] => b
  | (posted, m) :: rest =>
    let b := { b with
      inFlight := fun s r => if s = sender ∧ r = receiver then rest else b.inFlight s r }
    if b.listens receiver then
      { b with
        heard := fun s r =>
          if s = sender ∧ r = receiver ∧ isHeartbeat m then posted :: b.heard s r
          else b.heard s r }.act receiver fun t => t.onChannelMessage sender now m
    else b

def step (b : Browser Id) : Move Id → Browser Id
  | .openTab id channel supportsEvents now =>
    match b.tabs id with
    | some _ => b
    | none =>
      let e := Tab.create id channel supportsEvents now
      b.settle id e.1.isLeader e
  | .deliver sender receiver now => b.deliver sender receiver now
  | .elect id now => b.act id fun t => if t.electionTimer then t.elect now else (t, [])
  | .monitor id now => b.act id fun t => (if t.monitorTimer then t.monitorLeader now else t, [])
  | .heartbeat id => b.act id fun t => if t.heartbeatTimer then t.sendHeartbeat else (t, [])
  | .streamEvent id p => b.act id fun t => if t.eventSource then t.handleStreamEvent p else (t, [])
  | .resume id now => b.act id fun t => t.resumeAfterAuthentication now
  | .shutdown id => b.act id Tab.shutdown
  | .kill id => b.act id fun t => ({ t.resign with closed := true }, [])

def run (b : Browser Id) (moves : List (Move Id)) : Browser Id := moves.foldl step b

end Browser

end McManager.StreamClient
