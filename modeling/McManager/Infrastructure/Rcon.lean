import McManager.Framework.Utf8
import McManager.Web.Requests

namespace McManager.Rcon

open Framework

/-- How a call of the client ends without a result. `blocked` is no exception: the thread waits for
a lock that it holds itself. -/
inductive Raised
  | os (text : String)
  | rcon (text : String)
  | struct (text : String)
  | blocked
  deriving DecidableEq, Repr

/-- What the next `recv` meets: bytes, none where the peer has closed the connection, or an error of
the operating system such as a timeout. -/
inductive Arrival
  | bytes (b : List UInt8)
  | fault (text : String)
  deriving DecidableEq, Repr

/-- What a server sends for a request; `payload` is the text of it as bytes. -/
structure Answer where
  requestId : Int
  ptype : Int
  payload : List UInt8
  deriving DecidableEq, Repr

/-- An open socket: what arrives on it, what its next `sendall`s meet and what was written. The
last three are not seen by the client: what the peer sends for the requests one after another, how
many requests were written or begun, and how many of them the client has read an answer to. -/
structure Peer where
  arrivals : List Arrival
  sends : List (Option String) := []
  sent : List UInt8 := []
  answers : List Answer := []
  asked : Nat := 0
  answered : Nat := 0
  deriving DecidableEq, Repr

/-- `RconClient`, and what its next attempts to connect meet. -/
structure State where
  socket : Option Peer := none
  requestId : Int := 1
  locked : Bool := false
  password : String
  dials : List (Except String Peer) := []

abbrev Act := ExceptT Raised (StateM State)

/-- Run an action of the client. -/
def call {α : Type} (p : Act α) (s : State) : Except Raised α × State := p.run.run s

section Call

variable {α β : Type} {s : State}

theorem call_bind (p : Act α) (f : α → Act β) : call (p >>= f) s =
    match call p s with
    | (.ok a, s') => call (f a) s'
    | (.error e, s') => (.error e, s') := by
  obtain ⟨r, s', ran⟩ : ∃ r s', call p s = (r, s') := ⟨_, _, rfl⟩
  have ran' : p.run.run s = (r, s') := ran
  rw [ran, call, ExceptT.run_bind, StateT.run_bind, ran']
  cases r <;> rfl

theorem call_tryCatch (p : Act α) (h : Raised → Act α) : call (tryCatch p h) s =
    match call p s with
    | (.ok a, s') => (.ok a, s')
    | (.error e, s') => call (h e) s' := by
  obtain ⟨r, s', ran⟩ : ∃ r s', call p s = (r, s') := ⟨_, _, rfl⟩
  have ran' : p.run.run s = (r, s') := ran
  rw [ran, call, ExceptT.run_tryCatch, StateT.run_bind, ran']
  cases r <;> rfl

theorem call_adapt (p : Act α) (f : Raised → Raised) :
    call (p.adapt f) s = ((call p s).1.mapError f, (call p s).2) := rfl

@[simp] theorem call_pure (a : α) : call (pure a) s = (.ok a, s) := rfl

@[simp] theorem call_throw (e : Raised) : call (throw e : Act α) s = (.error e, s) := rfl

@[simp] theorem call_get : call get s = (.ok s, s) := rfl

@[simp] theorem call_modify (f : State → State) : call (modify f) s = (.ok (), f s) := rfl

end Call

/-- Whether a number is one of 32 bits. -/
structure Int32 (n : Int) : Prop where
  low : -2147483648 ≤ n
  high : n < 2147483648

instance (n : Int) : Decidable (Int32 n) :=
  decidable_of_iff (-2147483648 ≤ n ∧ n < 2147483648) ⟨fun h => ⟨h.1, h.2⟩, fun h => ⟨h.low, h.high⟩⟩

/-- The four bytes of a number, the lowest first. -/
def int32Bytes (n : Int) : List UInt8 :=
  let u := (n % 4294967296).toNat
  [.ofNat u, .ofNat (u / 256), .ofNat (u / 65536), .ofNat (u / 16777216)]

/-- `struct.pack("<i", n)`. -/
def pack (n : Int) : Except Raised (List UInt8) :=
  if Int32 n then .ok (int32Bytes n)
  else .error (.struct "'i' format requires -2147483648 <= number <= 2147483647")

/-- The number of four bytes. -/
def int32 (a b c d : UInt8) : Int :=
  let u : Int := a.toNat + 256 * b.toNat + 65536 * c.toNat + 16777216 * d.toNat
  if u < 2147483648 then u else u - 4294967296

/-- `struct.unpack("<i", raw)`. -/
def unpack : List UInt8 → Except Raised Int
  | [a, b, c, d] => .ok (int32 a b c d)
  | _ => .error (.struct "unpack requires a buffer of 4 bytes")

/-- `struct.unpack("<ii", raw)`. -/
def unpackTwo : List UInt8 → Except Raised (Int × Int)
  | [a, b, c, d, e, f, g, h] => .ok (int32 a b c d, int32 e f g h)
  | _ => .error (.struct "unpack requires a buffer of 8 bytes")

/-- The packet `_send` writes. -/
def packet (requestId ptype : Int) (payload : String) : Except Raised (List UInt8) := do
  let id ← pack requestId
  let type ← pack ptype
  let body := id ++ type ++ Utf8.encode payload ++ [0, 0]
  let length ← pack body.length
  pure (length ++ body)

/-- The loop of `_recv_exact`. -/
def recvLoop : Nat → List Arrival → Except Raised (List UInt8) × List Arrival
  | 0, arrivals => (.ok [], arrivals)
  | _ + 1, [] => (.error (.rcon "connection closed"), [])
  | _ + 1, .fault text :: rest => (.error (.os text), rest)
  | remaining + 1, .bytes b :: rest =>
    if b.isEmpty then (.error (.rcon "connection closed"), rest)
    else if b.length ≤ remaining + 1 then
      let (r, rest) := recvLoop (remaining + 1 - b.length) rest
      (r.map (b ++ ·), rest)
    else (.ok (b.take (remaining + 1)), .bytes (b.drop (remaining + 1)) :: rest)

/-- `socket.sendall`. -/
def Peer.sendall (peer : Peer) (data : List UInt8) : Except Raised Unit × Peer :=
  match peer.sends with
  | some text :: sends => (.error (.os text), { peer with sends, asked := peer.asked + 1 })
  | none :: sends => (.ok (), { peer with sends, sent := peer.sent ++ data, asked := peer.asked + 1 })
  | [] => (.ok (), { peer with sent := peer.sent ++ data, asked := peer.asked + 1 })

/-- An outcome as an action. -/
def ofExcept {α : Type} (r : Except Raised α) : Act α := ExceptT.mk (pure r)

/-- `self._socket`, which has to be open. -/
def openSocket : Act Peer := do
  match (← get).socket with
  | none => throw (.rcon "not connected")
  | some peer => pure peer

def setSocket (socket : Option Peer) : Act Unit := modify fun s => { s with socket }

/-- `_next_request_id`. -/
def nextRequestId : Act Int := do
  let requestId := (← get).requestId
  modify fun s => { s with requestId := requestId + 1 }
  pure requestId

/-- `except OSError as exc: raise RconError(...) from exc`. -/
def translate (text : String) : Raised → Raised
  | .os e => .rcon (text ++ ": " ++ e)
  | e => e

/-- `_send`. -/
def send (requestId ptype : Int) (payload : String) : Act Unit := do
  let peer ← openSocket
  let data ← ofExcept (packet requestId ptype payload)
  let (r, peer) := peer.sendall data
  setSocket (some peer)
  ofExcept (r.mapError (translate "send failed"))

/-- `_recv_exact`. -/
def recvExact (nbytes : Int) : Act (List UInt8) := do
  let peer ← openSocket
  let (r, arrivals) := recvLoop nbytes.toNat peer.arrivals
  setSocket (some { peer with arrivals })
  ofExcept r

/-- The part of `_receive` whose errors of the operating system are translated. -/
def receiveBody : Act (List UInt8) := do
  let raw ← recvExact 4
  let length ← ofExcept (unpack raw)
  recvExact length

/-- The id, the type and the payload of a packet. -/
def parse (body : List UInt8) : Except Raised (Int × Int × String) := do
  let (requestId, ptype) ← unpackTwo (body.take 8)
  pure (requestId, ptype, Utf8.decode ((body.take (body.length - 2)).drop 8))

/-- `_receive`. -/
def receive : Act (Int × Int × String) := do
  let _ ← openSocket
  let body ← receiveBody.adapt (translate "receive failed")
  let r ← ofExcept (parse body)
  let peer ← openSocket
  setSocket (some { peer with answered := peer.answered + 1 })
  pure r

/-- `with self._mutex`. -/
def withMutex {α : Type} (p : Act α) : Act α := do
  if (← get).locked then throw .blocked
  modify fun s => { s with locked := true }
  let a ← tryCatch p fun e => do
    if e ≠ .blocked then modify fun s => { s with locked := false }
    throw e
  modify fun s => { s with locked := false }
  pure a

/-- `close`. -/
def close : Act Unit := withMutex (setSocket none)

/-- `_authenticate`. -/
def authenticate : Act Unit := do
  let authId ← nextRequestId
  send authId 3 (← get).password
  let (requestId, ptype, _) ← receive
  if requestId = -1 then throw (.rcon "authentication rejected")
  if requestId ≠ authId ∨ ptype ≠ 2 then throw (.rcon "unexpected auth response")

/-- `socket.create_connection`. -/
def createConnection : Act Peer := do
  match (← get).dials with
  | .ok peer :: dials =>
    modify fun s => { s with dials }
    pure peer
  | .error text :: dials =>
    modify fun s => { s with dials }
    throw (.os text)
  | [] => throw (.os "Connection refused")

/-- `connect`. -/
def connect : Act Unit := do
  let peer ← createConnection.adapt (translate "connect failed")
  setSocket (some peer)
  tryCatch authenticate fun e => do
    match e with
    | .rcon _ => close
    | _ => pure ()
    throw e

/-- `SAFE_COMMANDS`. -/
def safeCommands : List String := ["save-all", "save-off", "save-on", "stop", "list", "tps", "tick"]

/-- `str.lower`, where it gives an ASCII character: of the others only the Kelvin sign does. -/
def lower (c : Char) : Char := if c = '\u212A' then 'k' else c.toLower

/-- The first word of a command, normalized. -/
def base (command : String) : String :=
  String.ofList (((Web.strip command).toList.map lower).takeWhile (· ≠ ' '))

/-- `command`. -/
def command (command : String) : Act String := do
  if base command ∉ safeCommands then
    throw (.rcon ("command not in allowlist: '" ++ base command ++ "'"))
  withMutex do
    if (← get).socket.isNone then connect
    let requestId ← nextRequestId
    send requestId 2 command
    let (_, _, payload) ← receive
    pure payload

/-- `ping`. -/
def ping : Act Bool :=
  tryCatch (do
    if (← get).socket.isNone then connect
    let _ ← command "list"
    pure true) fun e =>
    match e with
    | .rcon _ => pure false
    | e => throw e

end McManager.Rcon
