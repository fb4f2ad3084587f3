import McManager.Framework.EventSource
import McManager.Framework.PythonInt
import McManager.Web.JsonText

/-! The responses of the stream routes, and the `EventSource` of a page that reads them. -/

namespace McManager.Realtime

open Framework Web EventSource

/-- `_snapshot_frame`. -/
def snapshotFrame (name : String) (payload : Body) : String :=
  "id: 0\nevent: " ++ name ++ "\ndata: " ++ dumps (.obj payload) ++ "\nretry: 3000\n\n"

/-- `_auth_expired_frame`. -/
def authExpiredFrame : String :=
  "event: stream.error\ndata: " ++ dumps (.obj [("code", .str "AUTH_SESSION_EXPIRED")]) ++ "\n\n"

def Output.text : Output → String
  | .frame e => e.encode
  | .ping => ": ping\n\n"
  | .expired => authExpiredFrame

/-- What the response of a client has written: `generate` of `_subscribe`. -/
def Client.response (c : Client) (name : String) (payload : Body) : Text :=
  (snapshotFrame name payload).toList ++ c.yielded.flatMap (·.text.toList)

/-- `_last_event_id`. -/
def lastEventId (header : Text) : Option Int :=
  if header = [] then none else PythonInt.ofText header

/-- What `handleStreamEvent` makes of an event. -/
structure Payload where
  topic : String
  data : Json
  id : Option String

/-- `handleStreamEvent`. -/
def handleStreamEvent (m : Message) : Payload where
  topic := String.ofList m.type
  data := (JsonText.loads m.data).getD (.str (String.ofList m.data))
  id := if m.lastEventId = [] then none else some (String.ofList m.lastEventId)

/-- The `EventSource` object of a page. `connection` is the client it reads, with the snapshot of its
response; `heard` is all that it has dispatched. -/
structure Source where
  lastEventId : Text := []
  connection : Option (Nat × String × Body) := none
  heard : List Message := []

/-- A hub, and the source of one page for one stream. `published` is what was published to the
stream; the code does not keep it. -/
structure Page where
  hub : Hub
  source : Source := {}
  published : List StreamEvent := []

/-- What happens: a move at the hub, or the source connects, or its connection breaks off behind so
many characters of the response. -/
inductive Event
  | move (m : Move)
  | connect (name : String) (payload : Body)
  | breaks (k : Nat)

/-- The event that a move publishes to a stream. -/
def Hub.news (h : Hub) (stream : String) : Move → Option StreamEvent
  | .publish s name data _ => if s = stream then some ((h.channels stream).event name data) else none
  | .shutdown _ =>
    if h.closed ∨ (h.channels stream).subscribers = none then none
    else some ((h.channels stream).event "manager.shutdown" [])
  | _ => none

namespace Page

def step (stream : String) (p : Page) : Event → Page
  | .move m =>
    { p with
      hub := p.hub.step m
      published := p.published ++ (p.hub.news stream m).toList }
  | .connect name payload =>
    match p.source.connection with
    | some _ => p
    | none =>
      { p with
        hub := p.hub.subscribe stream (Realtime.lastEventId p.source.lastEventId)
        source := { p.source with connection := some (p.hub.clients.length, name, payload) } }
  | .breaks k =>
    match p.source.connection with
    | none => p
    | some (i, name, payload) =>
      match p.hub.clients[i]? with
      | none => p
      | some c =>
        let r := EventSource.read p.source.lastEventId ((c.response name payload).take k)
        { p with source := {
            lastEventId := r.lastEventId
            heard := p.source.heard ++ r.dispatched } }

def run (stream : String) (p : Page) (events : List Event) : Page := events.foldl (step stream) p

end Page

end McManager.Realtime
