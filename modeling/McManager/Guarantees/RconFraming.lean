import McManager.Infrastructure.Rcon

namespace McManager.Rcon

open Framework

/-- The frame `_receive` takes from what arrives, without its length. -/
def frame (arrivals : List Arrival) : Except Raised (List UInt8) × List Arrival :=
  match recvLoop 4 arrivals with
  | (.error e, rest) => (.error e, rest)
  | (.ok raw, rest) =>
    match unpack raw with
    | .error e => (.error e, rest)
    | .ok length => recvLoop length.toNat rest

/-- The client with this socket open. -/
def State.on (s : State) (peer : Peer) : State := { s with socket := some peer }

@[simp] theorem State.on_on (s : State) (peer peer' : Peer) : (s.on peer).on peer' = s.on peer' := rfl

/-- The socket after a `sendall` that goes through. -/
def Peer.wrote (peer : Peer) (data : List UInt8) : Peer :=
  { peer with sends := peer.sends.tail, sent := peer.sent ++ data, asked := peer.asked + 1 }

/-- The socket after a frame was read, or as much as there was of it. -/
def Peer.drained (peer : Peer) : Peer := { peer with arrivals := (frame peer.arrivals).2 }

/-- The socket after its frame was parsed. -/
def Peer.read (peer : Peer) : Peer := { peer.drained with answered := peer.answered + 1 }

/-- The socket after an exchange that went through, as far as the next one depends on it. -/
def Peer.past (peer : Peer) : Peer :=
  { peer with sends := peer.sends.tail, arrivals := (frame peer.arrivals).2 }

section Parts

variable {s : State} {peer : Peer} {id ptype : Int} {text : String}

theorem call_openSocket (h : s.socket = some peer) : call openSocket s = (.ok peer, s) := by
  rw [openSocket, call_bind, call_get]
  dsimp only
  rw [h]
  rfl

@[simp] theorem call_setSocket (socket : Option Peer) :
    call (setSocket socket) s = (.ok (), { s with socket }) := rfl

@[simp] theorem call_ofExcept {α : Type} (r : Except Raised α) : call (ofExcept r) s = (r, s) := rfl

@[simp] theorem call_nextRequestId :
    call nextRequestId s = (.ok s.requestId, { s with requestId := s.requestId + 1 }) := rfl

theorem call_send (h : s.socket = some peer) : call (send id ptype text) s =
    match packet id ptype text with
    | .error e => (.error e, s)
    | .ok data => ((peer.sendall data).1.mapError (translate "send failed"),
        s.on (peer.sendall data).2) := by
  rw [send, call_bind, call_openSocket h]
  dsimp only
  rw [call_bind, call_ofExcept]
  cases packet id ptype text with
  | error e => rfl
  | ok data => rfl

theorem call_recvExact (h : s.socket = some peer) (n : Int) : call (recvExact n) s =
    ((recvLoop n.toNat peer.arrivals).1,
      s.on { peer with arrivals := (recvLoop n.toNat peer.arrivals).2 }) := by
  rw [recvExact, call_bind, call_openSocket h]
  rfl

theorem call_receiveBody (h : s.socket = some peer) : call receiveBody s =
    ((frame peer.arrivals).1, s.on peer.drained) := by
  rw [receiveBody, call_bind, call_recvExact h, Peer.drained, frame]
  have four : (4 : Int).toNat = 4 := rfl
  rw [four]
  cases first : recvLoop 4 peer.arrivals with
  | mk r rest =>
    cases r with
    | error e => rfl
    | ok raw =>
      dsimp only
      rw [call_bind, call_ofExcept]
      cases unpack raw with
      | error e => rfl
      | ok length =>
        dsimp only
        have rest' : (s.on { peer with arrivals := rest }).socket = some { peer with arrivals := rest } :=
          rfl
        rw [call_recvExact rest']
        rfl

theorem call_receive (h : s.socket = some peer) : call receive s =
    match (frame peer.arrivals).1 with
    | .error e => (.error (translate "receive failed" e), s.on peer.drained)
    | .ok body =>
      match parse body with
      | .error e => (.error e, s.on peer.drained)
      | .ok r => (.ok r, s.on peer.read) := by
  rw [receive, call_bind, call_openSocket h]
  dsimp only
  rw [call_bind, call_adapt, call_receiveBody h]
  cases (frame peer.arrivals).1 with
  | error e => rfl
  | ok body =>
    dsimp only [Except.mapError]
    rw [call_bind, call_ofExcept]
    cases parse body with
    | error e => rfl
    | ok r => rfl

end Parts

theorem toNat_ofNat_int (m : Nat) : ((UInt8.ofNat m).toNat : Int) = (m : Int) % 256 := by
  rw [UInt8.toNat_ofNat']
  rfl

/-- A number is what its bytes say. -/
theorem int32_bytes {n : Int} (h : Int32 n) {u : Nat} (hu : (u : Int) = n % 4294967296) :
    int32 (.ofNat u) (.ofNat (u / 256)) (.ofNat (u / 65536)) (.ofNat (u / 16777216)) = n := by
  obtain ⟨low, high⟩ := h
  unfold int32
  simp only [toNat_ofNat_int]
  split
  · omega
  · omega

theorem unpack_int32Bytes {n : Int} (h : Int32 n) : unpack (int32Bytes n) = .ok n := by
  have bytes := int32_bytes h (u := (n % 4294967296).toNat) (by omega)
  exact congrArg Except.ok bytes

/-- The packet of a text has a length of 32 bits. -/
structure Fits (text : String) : Prop where
  size : 10 + (Utf8.encode text).length < 2147483648

theorem length_int32Bytes (n : Int) : (int32Bytes n).length = 4 := rfl

theorem pack_ok {n : Int} (h : Int32 n) : pack n = .ok (int32Bytes n) := if_pos h

theorem pack_error {n : Int} (h : ¬Int32 n) : ∃ m, pack n = .error (.struct m) := ⟨_, if_neg h⟩

/-- The body of a packet. -/
def packetBody (id ptype : Int) (text : String) : List UInt8 :=
  int32Bytes id ++ int32Bytes ptype ++ Utf8.encode text ++ [0, 0]

theorem length_packetBody (id ptype : Int) (text : String) :
    (packetBody id ptype text).length = 10 + (Utf8.encode text).length := by
  simp only [packetBody, List.length_append, length_int32Bytes, List.length_cons, List.length_nil]
  omega

theorem ok_bind {α β : Type} (a : α) (f : α → Except Raised β) : (Except.ok a >>= f) = f a := rfl

theorem error_bind {α β : Type} (e : Raised) (f : α → Except Raised β) :
    ((Except.error e : Except Raised α) >>= f) = .error e := rfl

section Packet

variable {id ptype : Int} {text : String}

theorem packet_ok (hid : Int32 id) (htype : Int32 ptype) (fits : Fits text) :
    packet id ptype text = .ok (int32Bytes (packetBody id ptype text).length ++
      packetBody id ptype text) := by
  have length : Int32 (packetBody id ptype text).length := by
    rw [length_packetBody]
    have short := fits.size
    constructor
    · omega
    · omega
  rw [packet, pack_ok hid, ok_bind, pack_ok htype, ok_bind]
  dsimp only
  rw [← packetBody, pack_ok length]
  rfl

theorem packet_typed {data : List UInt8} (h : packet id ptype text = .ok data) : Int32 ptype := by
  by_contra htype
  obtain ⟨m, error⟩ := pack_error htype
  by_cases hid : Int32 id
  · rw [packet, pack_ok hid, ok_bind, error] at h
    cases h
  · obtain ⟨m', error'⟩ := pack_error hid
    rw [packet, error'] at h
    cases h

theorem packet_error (htype : Int32 ptype) (h : ¬(Int32 id ∧ Fits text)) :
    ∃ m, packet id ptype text = .error (.struct m) := by
  rw [packet]
  by_cases hid : Int32 id
  · have long : ¬Int32 (packetBody id ptype text).length := by
      rw [length_packetBody]
      intro inside
      have high := inside.high
      apply h
      refine ⟨hid, ?_⟩
      constructor
      omega
    obtain ⟨m, error⟩ := pack_error long
    rw [pack_ok hid, ok_bind, pack_ok htype, ok_bind]
    dsimp only
    rw [← packetBody, error]
    exact ⟨m, rfl⟩
  · obtain ⟨m, error⟩ := pack_error hid
    rw [error]
    exact ⟨m, rfl⟩

end Packet

/-- The loop gives as many bytes as it was asked for. -/
theorem recvLoop_length {n : Nat} {arrivals rest : List Arrival} {b : List UInt8}
    (h : recvLoop n arrivals = (.ok b, rest)) : b.length = n := by
  fun_induction recvLoop n arrivals generalizing b rest with
  | case1 => cases h; rfl
  | case2 => cases h
  | case3 => cases h
  | case4 => cases h
  | case5 n arrival rest' nonempty short r rest'' more ih =>
    cases r with
    | error e => cases h
    | ok b' =>
      have length := ih more
      cases h
      rw [List.length_append, length]
      omega
  | case6 n arrival rest' nonempty long =>
    cases h
    rw [List.length_take]
    omega

/-- It is left by an error of the operating system or by a closed connection. -/
theorem recvLoop_error {n : Nat} {arrivals rest : List Arrival} {e : Raised}
    (h : recvLoop n arrivals = (.error e, rest)) :
    ∀ text, ∃ m, translate text e = .rcon m := by
  fun_induction recvLoop n arrivals generalizing e rest with
  | case1 => cases h
  | case2 => cases h; exact fun _ => ⟨_, rfl⟩
  | case3 => cases h; exact fun _ => ⟨_, rfl⟩
  | case4 => cases h; exact fun _ => ⟨_, rfl⟩
  | case5 n arrival rest' nonempty short r rest'' more ih =>
    cases r with
    | error e' =>
      cases h
      exact ih more
    | ok b => cases h
  | case6 n arrival rest' nonempty long => cases h

theorem unpack_of_length {raw : List UInt8} (h : raw.length = 4) : ∃ n, unpack raw = .ok n := by
  match raw, h with
  | [a, b, c, d], _ => exact ⟨_, rfl⟩

theorem frame_error {arrivals : List Arrival} {e : Raised} (h : (frame arrivals).1 = .error e) :
    ∀ text, ∃ m, translate text e = .rcon m := by
  unfold frame at h
  split at h
  · rename_i e' rest first
    cases h
    exact recvLoop_error first
  · rename_i raw rest first
    obtain ⟨n, length⟩ := unpack_of_length (recvLoop_length first)
    rw [length] at h
    exact recvLoop_error (Prod.ext h rfl)

/-- Eight bytes are two numbers. -/
theorem unpackTwo_of_length {raw : List UInt8} (h : raw.length = 8) :
    ∃ r, unpackTwo raw = .ok r := by
  match raw, h with
  | [a, b, c, d, e, f, g, h], _ => exact ⟨_, rfl⟩

theorem parse_ok {body : List UInt8} (h : 8 ≤ body.length) : ∃ r, parse body = .ok r := by
  have head : (body.take 8).length = 8 := by
    rw [List.length_take]
    omega
  obtain ⟨r, two⟩ := unpackTwo_of_length head
  rw [parse, two]
  exact ⟨_, rfl⟩

theorem parse_short {body : List UInt8} (h : body.length < 8) :
    ∃ m, parse body = .error (.struct m) := by
  have short : body.take 8 = body := List.take_of_length_le (by omega)
  rw [parse, short]
  match body, h with
  | [], _ | [_], _ | [_, _], _ | [_, _, _], _ | [_, _, _, _], _ | [_, _, _, _, _], _
  | [_, _, _, _, _, _], _ | [_, _, _, _, _, _, _], _ => exact ⟨_, rfl⟩

/-- What an exchange needs to end with an answer or an `RconError`: the packet can be written, and
no frame arrives in full that is shorter than an id and a type. -/
structure Sound (id : Int) (text : String) (peer : Peer) : Prop where
  id : Int32 id
  fits : Fits text
  frame : peer.sends.head?.join = none → ∀ body, (frame peer.arrivals).1 = .ok body → 8 ≤ body.length

/-- The peer takes the request and sends a frame with this answer. -/
structure Got (peer : Peer) (answer : Int × Int × String) (peer' : Peer) : Prop where
  taken : peer.sends.head?.join = none
  frame : ∃ body, (Rcon.frame peer.arrivals).1 = .ok body ∧ parse body = .ok answer
  sends : peer'.sends = peer.sends.tail
  arrivals : peer'.arrivals = (Rcon.frame peer.arrivals).2
  answers : peer'.answers = peer.answers
  asked : peer'.asked = peer.asked + 1
  answered : peer'.answered = peer.answered + 1

/-- The request was written or begun, and no answer to it was read. -/
structure Waiting (peer peer' : Peer) : Prop where
  answers : peer'.answers = peer.answers
  asked : peer'.asked = peer.asked + 1
  answered : peer'.answered = peer.answered

/-- How `_send` and `_receive` end on an open socket. -/
inductive Exchange (id : Int) (text : String) (peer : Peer) :
    Except Raised (Int × Int × String) → Peer → Prop
  | got {peer' : Peer} (answer : Int × Int × String) (sound : Sound id text peer)
      (got : Got peer answer peer') : Exchange id text peer (.ok answer) peer'
  | left {peer' : Peer} (m : String) (sound : Sound id text peer)
      (silent : peer.sends.head?.join = none → ∀ body, (frame peer.arrivals).1 ≠ .ok body)
      (waiting : Waiting peer peer') : Exchange id text peer (.error (.rcon m)) peer'
  | broke {peer' : Peer} (m : String) (unsound : ¬Sound id text peer) :
      Exchange id text peer (.error (.struct m)) peer'

/-- `sendall` fails, or writes everything. -/
theorem sendall_cases (peer : Peer) (data : List UInt8) :
    (∃ text, peer.sends.head?.join = some text ∧ (peer.sendall data).1 = .error (.os text) ∧
        Waiting peer (peer.sendall data).2) ∨
      peer.sends.head?.join = none ∧ peer.sendall data = (.ok (), peer.wrote data) := by
  obtain ⟨arrivals, sends, sent, answers, asked, answered⟩ := peer
  cases sends with
  | nil => exact .inr ⟨rfl, rfl⟩
  | cons first rest =>
    cases first with
    | none => exact .inr ⟨rfl, rfl⟩
    | some text => exact .inl ⟨text, rfl, rfl, rfl, rfl, rfl⟩

theorem call_exchange {s : State} {peer : Peer} (id ptype : Int) (text : String)
    (h : s.socket = some peer) (htype : Int32 ptype) :
    ∃ r peer', Exchange id text peer r peer' ∧
      ∀ {α : Type} (k : Int × Int × String → Act α),
        call (do send id ptype text; k (← receive)) s =
          match r with
          | .ok a => call (k a) (s.on peer')
          | .error e => (.error e, s.on peer') := by
  by_cases packed : Int32 id ∧ Fits text
  · have data := packet_ok packed.1 htype packed.2
    revert data
    generalize int32Bytes (packetBody id ptype text).length ++ packetBody id ptype text = data
    intro hdata
    rcases sendall_cases peer data with ⟨m, fails, failed, waiting⟩ | ⟨taken, done⟩
    · have sound : Sound id text peer := by
        refine ⟨packed.1, packed.2, fun taken => ?_⟩
        rw [fails] at taken
        cases taken
      refine ⟨_, (peer.sendall data).2, .left ("send failed: " ++ m) sound ?_ waiting, fun k => ?_⟩
      · intro taken
        rw [fails] at taken
        cases taken
      rw [call_bind, call_send h, hdata]
      dsimp only
      rw [failed]
      rfl
    · have sent : call (send id ptype text) s = (.ok (), s.on (peer.wrote data)) := by
        rw [call_send h, hdata]
        dsimp only
        rw [done]
        rfl
      have wrote : (s.on (peer.wrote data)).socket = some (peer.wrote data) := rfl
      cases taking : (frame (peer.wrote data).arrivals).1 with
      | error e =>
        have sound : Sound id text peer := by
          refine ⟨packed.1, packed.2, fun _ body ok => ?_⟩
          cases taking.symm.trans ok
        obtain ⟨m, translated⟩ := frame_error taking "receive failed"
        have waiting : Waiting peer (peer.wrote data).drained := ⟨rfl, rfl, rfl⟩
        refine ⟨_, (peer.wrote data).drained, .left m sound ?_ waiting, fun k => ?_⟩
        · intro _ body ok
          cases taking.symm.trans ok
        rw [call_bind, sent]
        dsimp only
        rw [call_bind, call_receive wrote, taking]
        dsimp only
        rw [translated]
        rfl
      | ok body =>
        by_cases long : 8 ≤ body.length
        · obtain ⟨answer, parsed⟩ := parse_ok long
          have sound : Sound id text peer := by
            refine ⟨packed.1, packed.2, fun _ body' ok => ?_⟩
            cases taking.symm.trans ok
            exact long
          have got : Got peer answer (peer.wrote data).read :=
            ⟨taken, ⟨body, taking, parsed⟩, rfl, rfl, rfl, rfl, rfl⟩
          refine ⟨_, (peer.wrote data).read, .got answer sound got, fun k => ?_⟩
          rw [call_bind, sent]
          dsimp only
          rw [call_bind, call_receive wrote, taking]
          dsimp only
          rw [parsed]
          rfl
        · obtain ⟨m, parsed⟩ := parse_short (Nat.lt_of_not_le long)
          refine ⟨_, (peer.wrote data).drained,
            .broke m fun sound => long (sound.frame taken body taking), fun k => ?_⟩
          rw [call_bind, sent]
          dsimp only
          rw [call_bind, call_receive wrote, taking]
          dsimp only
          rw [parsed]
          rfl
  · obtain ⟨m, error⟩ := packet_error htype packed
    refine ⟨_, peer, .broke m fun sound => packed ⟨sound.id, sound.fits⟩, fun k => ?_⟩
    rw [call_bind, call_send h, error]
    dsimp only
    rw [State.on, ← h]

/-- The peer takes the login and answers it with its id and the type of such an answer. -/
structure Accepted (id : Int) (peer : Peer) : Prop where
  regular : id ≠ -1
  taken : peer.sends.head?.join = none
  frame : ∃ body payload, (Rcon.frame peer.arrivals).1 = .ok body ∧ parse body = .ok (id, 2, payload)

/-- How `_authenticate` ends on an open socket. -/
inductive Login (id : Int) (password : String) (peer : Peer) : Except Raised Unit → Peer → Prop
  | accepted {peer' : Peer} (payload : String) (sound : Sound id password peer)
      (accepted : Accepted id peer) (got : Got peer (id, 2, payload) peer') :
      Login id password peer (.ok ()) peer'
  | refused {peer' : Peer} (m : String) (sound : Sound id password peer)
      (refused : ¬Accepted id peer) : Login id password peer (.error (.rcon m)) peer'
  | broke {peer' : Peer} (m : String) (unsound : ¬Sound id password peer) :
      Login id password peer (.error (.struct m)) peer'

theorem call_authenticate {s : State} {peer : Peer} (h : s.socket = some peer) :
    ∃ r peer', Login s.requestId s.password peer r peer' ∧
      call authenticate s = (r, { s with requestId := s.requestId + 1 }.on peer') := by
  have htype : Int32 3 := by decide
  have isOpen : ({ s with requestId := s.requestId + 1 } : State).socket = some peer := h
  obtain ⟨r, peer', exchange, called⟩ := call_exchange s.requestId 3 s.password isOpen htype
  have split : call authenticate s = call (do
      send s.requestId 3 s.password
      (fun (a : Int × Int × String) => do
        if a.1 = -1 then throw (.rcon "authentication rejected")
        if a.1 ≠ s.requestId ∨ a.2.1 ≠ 2 then throw (.rcon "unexpected auth response")) (← receive))
      { s with requestId := s.requestId + 1 } := rfl
  rw [split, called]
  cases exchange with
  | broke m unsound => exact ⟨_, peer', .broke m unsound, rfl⟩
  | left m sound silent waiting =>
    refine ⟨_, peer', .refused m sound ?_, rfl⟩
    intro accepted
    obtain ⟨body, payload, frame, -⟩ := accepted.frame
    exact silent accepted.taken body frame
  | got answer sound got =>
    obtain ⟨id, ptype, payload⟩ := answer
    obtain ⟨body, frame, parsed⟩ := got.frame
    have only : Accepted s.requestId peer → id = s.requestId ∧ ptype = 2 ∧ s.requestId ≠ -1 := by
      intro accepted
      obtain ⟨body', payload', frame', parsed'⟩ := accepted.frame
      cases frame.symm.trans frame'
      cases parsed.symm.trans parsed'
      exact ⟨rfl, rfl, accepted.regular⟩
    dsimp only
    by_cases rejected : id = -1
    · refine ⟨_, peer', .refused "authentication rejected" sound ?_, ?_⟩
      · intro accepted
        obtain ⟨same, -, regular⟩ := only accepted
        exact regular (same ▸ rejected)
      · rw [if_pos rejected]
        rfl
    · by_cases other : id ≠ s.requestId ∨ ptype ≠ 2
      · refine ⟨_, peer', .refused "unexpected auth response" sound ?_, ?_⟩
        · intro accepted
          obtain ⟨same, type, -⟩ := only accepted
          rcases other with other | other
          · exact other same
          · exact other type
        · rw [if_neg rejected, if_pos other]
          rfl
      · rw [not_or, not_not, not_not] at other
        obtain ⟨rfl, rfl⟩ := other
        refine ⟨_, peer', .accepted payload sound ⟨rejected, got.taken, ⟨body, payload, frame, parsed⟩⟩ got, ?_⟩
        rw [if_neg rejected, if_neg (by simp)]
        rfl

/-- The client after an attempt to connect that found a peer. -/
def State.dialed (s : State) (dials : List (Except String Peer)) : State :=
  { s with dials, requestId := s.requestId + 1 }

theorem call_close {s : State} : call close s =
    if s.locked then (.error .blocked, s) else (.ok (), { s with socket := none, locked := false }) := by
  rw [close, withMutex, call_bind, call_get]
  dsimp only
  cases locked : s.locked with
  | true => rfl
  | false => rfl

/-- How `connect` ends. -/
inductive Connect (s : State) : Except Raised Unit × State → Prop
  | failed (dials : List (Except String Peer)) (m : String) (rest : dials = s.dials.tail)
      (none : ∀ peer dials, s.dials ≠ .ok peer :: dials) :
      Connect s (.error (.rcon m), { s with dials })
  | accepted (peer peer' : Peer) (dials : List (Except String Peer)) (payload : String)
      (dial : s.dials = .ok peer :: dials) (sound : Sound s.requestId s.password peer)
      (accepted : Accepted s.requestId peer) (got : Got peer (s.requestId, 2, payload) peer') :
      Connect s (.ok (), (s.dialed dials).on peer')
  | refused (peer : Peer) (dials : List (Except String Peer)) (m : String)
      (dial : s.dials = .ok peer :: dials) (sound : Sound s.requestId s.password peer)
      (refused : ¬Accepted s.requestId peer) (free : s.locked = false) :
      Connect s (.error (.rcon m), { s.dialed dials with socket := none })
  | blocked (peer peer' : Peer) (dials : List (Except String Peer))
      (dial : s.dials = .ok peer :: dials) (sound : Sound s.requestId s.password peer)
      (refused : ¬Accepted s.requestId peer) (held : s.locked = true) :
      Connect s (.error .blocked, (s.dialed dials).on peer')
  | broke (peer peer' : Peer) (dials : List (Except String Peer)) (m : String)
      (dial : s.dials = .ok peer :: dials) (unsound : ¬Sound s.requestId s.password peer) :
      Connect s (.error (.struct m), (s.dialed dials).on peer')

/-- A connection that was made is for the login to keep. -/
theorem call_connect_dialed {s : State} {peer : Peer} {dials : List (Except String Peer)}
    (dial : s.dials = .ok peer :: dials) :
    call connect s = call (tryCatch authenticate fun e => do
      match e with
      | .rcon _ => close
      | _ => pure ()
      throw e) ({ s with dials }.on peer) := by
  rw [connect, call_bind, call_adapt, createConnection, call_bind, call_get]
  dsimp only
  rw [dial]
  rfl

theorem call_connect (s : State) : Connect s (call connect s) := by
  cases dial : s.dials with
  | nil =>
    have called : call connect s =
        (.error (.rcon "connect failed: Connection refused"), { s with dials := [] }) := by
      rw [connect, call_bind, call_adapt, createConnection, call_bind, call_get]
      dsimp only
      rw [dial]
      obtain ⟨socket, requestId, locked, password, dials⟩ := s
      cases dial
      rfl
    rw [called]
    refine .failed _ _ (by rw [dial]; rfl) fun peer dials same => ?_
    rw [dial] at same
    cases same
  | cons first dials =>
    cases first with
    | error text =>
      have called : call connect s =
          (.error (.rcon ("connect failed: " ++ text)), { s with dials }) := by
        rw [connect, call_bind, call_adapt, createConnection, call_bind, call_get]
        dsimp only
        rw [dial]
        rfl
      rw [called]
      refine .failed _ _ (by rw [dial]; rfl) fun peer dials same => ?_
      rw [dial] at same
      cases same
    | ok peer =>
      obtain ⟨r, peer', login, ran⟩ := call_authenticate (s := { s with dials }.on peer) rfl
      rw [call_connect_dialed dial, call_tryCatch, ran]
      cases login with
      | accepted payload sound accepted got => exact .accepted peer peer' dials payload dial sound accepted got
      | refused m sound refused =>
        change Connect s (call (close >>= fun _ => throw (.rcon m)) ((s.dialed dials).on peer'))
        rw [call_bind, call_close]
        cases locked : s.locked with
        | true =>
          have held : ((s.dialed dials).on peer').locked = true := locked
          rw [held]
          exact .blocked peer peer' dials dial sound refused locked
        | false =>
          have free : ((s.dialed dials).on peer').locked = false := locked
          have closed : ({ (s.dialed dials).on peer' with socket := none, locked := false } : State) =
              { s.dialed dials with socket := none } := by
            rw [← free]
            rfl
          rw [free, closed]
          exact .refused peer dials m dial sound refused locked
      | broke m unsound => exact .broke peer peer' dials m dial unsound

/-- The client, no thread of which holds the lock. -/
def State.freed (s : State) : State := { s with locked := false }

/-- The client with its lock held. -/
def State.held (s : State) : State := { s with locked := true }

theorem State.freed_of_free {s : State} (free : s.locked = false) : s.freed = s := by
  rw [freed, ← free]

/-- The end of a `with` block, which a thread that waits does not reach. -/
def release {α : Type} : Except Raised α × State → Except Raised α × State
  | (.error .blocked, s) => (.error .blocked, s)
  | (r, s) => (r, s.freed)

theorem call_withMutex {α : Type} {p : Act α} {s : State} (free : s.locked = false) :
    call (withMutex p) s = release (call p s.held) := by
  rw [withMutex, call_bind, call_get]
  dsimp only
  rw [free]
  change call (modify (fun s => { s with locked := true }) >>= fun _ => _) s = _
  rw [call_bind, call_modify]
  dsimp only
  rw [call_bind, call_tryCatch]
  obtain ⟨r, s', ran⟩ : ∃ r s', call p { s with locked := true } = (r, s') := ⟨_, _, rfl⟩
  have held : call p s.held = (r, s') := ran
  rw [held, ran]
  cases r with
  | ok a => rfl
  | error e =>
    cases e <;> rfl

/-- The part of `command` behind the connection. -/
def request (text : String) : Act String := do
  let requestId ← nextRequestId
  send requestId 2 text
  let (_, _, payload) ← receive
  pure payload

theorem call_request {s : State} {peer : Peer} (h : s.socket = some peer) (text : String) :
    ∃ r peer', Exchange s.requestId text peer r peer' ∧ call (request text) s =
      (r.map (·.2.2), { s with requestId := s.requestId + 1 }.on peer') := by
  have htype : Int32 2 := by decide
  have isOpen : ({ s with requestId := s.requestId + 1 } : State).socket = some peer := h
  obtain ⟨r, peer', exchange, called⟩ := call_exchange s.requestId 2 text isOpen htype
  refine ⟨r, peer', exchange, ?_⟩
  have split : call (request text) s = call (do
      send s.requestId 2 text
      (fun (a : Int × Int × String) => pure a.2.2) (← receive))
      { s with requestId := s.requestId + 1 } := rfl
  rw [split, called]
  cases r <;> rfl

theorem call_command {s : State} {text : String} (safe : base text ∈ safeCommands) :
    call (command text) s = call (withMutex do
      if (← get).socket.isNone then connect
      request text) s := by
  rw [command, if_neg (not_not.mpr safe)]
  rfl

/-- A command on an open socket. -/
theorem call_command_open {s : State} {peer : Peer} {text : String} (free : s.locked = false)
    (h : s.socket = some peer) (safe : base text ∈ safeCommands) :
    ∃ r peer', Exchange s.requestId text peer r peer' ∧ call (command text) s =
      (r.map (·.2.2), { s with requestId := s.requestId + 1 }.on peer') := by
  obtain ⟨r, peer', exchange, called⟩ := call_request (s := s.held) h text
  refine ⟨r, peer', exchange, ?_⟩
  have body : call (do if (← get).socket.isNone then connect
                       request text) s.held = call (request text) s.held := by
    rw [call_bind, call_get]
    have isOpen : s.held.socket.isNone = false := by
      change s.socket.isNone = false
      rw [h]
      rfl
    dsimp only
    rw [isOpen]
    rfl
  have still : ({ s.held with requestId := s.held.requestId + 1 }.on peer').freed =
      { s with requestId := s.requestId + 1 }.on peer' := by
    obtain ⟨socket, requestId, locked, password, dials⟩ := s
    cases free
    rfl
  rw [call_command safe, call_withMutex free, body, called]
  cases exchange with
  | got answer sound got => rw [← still]; rfl
  | left m sound silent waiting => rw [← still]; rfl
  | broke m unsound => rw [← still]; rfl

/-- A command that connects first. -/
theorem call_command_closed {s : State} (text : String) (free : s.locked = false)
    (h : s.socket = none) (safe : base text ∈ safeCommands) :
    call (command text) s =
      release (match call connect s.held with
        | (.ok _, s') => call (request text) s'
        | (.error e, s') => (.error e, s')) := by
  have body : call (do if (← get).socket.isNone then connect
                       request text) s.held =
      match call connect s.held with
      | (.ok _, s') => call (request text) s'
      | (.error e, s') => (.error e, s') := by
    rw [call_bind, call_get]
    have isClosed : s.held.socket.isNone = true := by
      change s.socket.isNone = true
      rw [h]
      rfl
    dsimp only
    rw [isClosed, if_pos rfl, call_bind]
    obtain ⟨r, s', ran⟩ : ∃ r s', call connect s.held = (r, s') := ⟨_, _, rfl⟩
    rw [ran]
    cases r <;> rfl
  rw [call_command safe, call_withMutex free, body]

/-- `ping` once the connection is there. -/
def answered (ran : Except Raised String × State) : Except Raised Bool × State :=
  match ran with
  | (.ok _, s) => (.ok true, s)
  | (.error (.rcon _), s) => (.ok false, s)
  | (.error e, s) => (.error e, s)

theorem call_ping_open {s : State} {peer : Peer} (h : s.socket = some peer) :
    call ping s = answered (call (command "list") s) := by
  have isOpen : ¬s.socket.isNone = true := by simp [h]
  rw [ping, call_tryCatch, call_bind, call_get]
  dsimp only
  rw [if_neg isOpen, call_bind]
  obtain ⟨r, s', ran⟩ : ∃ r s', call (command "list") s = (r, s') := ⟨_, _, rfl⟩
  rw [ran]
  cases r with
  | ok a => rfl
  | error e => cases e <;> rfl

theorem call_ping_closed {s : State} (h : s.socket = none) :
    call ping s =
      match call connect s with
      | (.ok _, s') => answered (call (command "list") s')
      | (.error (.rcon _), s') => (.ok false, s')
      | (.error e, s') => (.error e, s') := by
  have isClosed : s.socket.isNone = true := by simp [h]
  rw [ping, call_tryCatch, call_bind, call_get]
  dsimp only
  rw [if_pos isClosed, call_bind]
  obtain ⟨r, s', ran⟩ : ∃ r s', call connect s = (r, s') := ⟨_, _, rfl⟩
  rw [ran]
  cases r with
  | error e => cases e <;> rfl
  | ok a =>
    dsimp only
    rw [call_bind]
    obtain ⟨r, s'', ran'⟩ : ∃ r s'', call (command "list") s' = (r, s'') := ⟨_, _, rfl⟩
    rw [ran']
    cases r with
    | ok a => rfl
    | error e => cases e <;> rfl

/-- The calls of a client. -/
inductive Entry
  | connect
  | command (text : String)
  | ping

namespace Entry

def act : Entry → Act Unit
  | .connect => Rcon.connect
  | .command text => do let _ ← Rcon.command text
  | .ping => do let _ ← Rcon.ping

/-- The state the call connects in, if it does. -/
def connects : Entry → State → Option State
  | .connect, s => some s
  | .command text, s =>
    if base text ∈ safeCommands ∧ s.socket = none then some { s with locked := true } else none
  | .ping, s => if s.socket = none then some s else none

/-- The call returns or raises an `RconError`, and leaves no socket open that it could not log in
on. -/
structure Robust (entry : Entry) (s : State) : Prop where
  returns : ∀ e, (call entry.act s).1 = .error e → ∃ m, e = .rcon m
  closed : ∀ s₀, entry.connects s = some s₀ → ∀ e, (call Rcon.connect s₀).1 = .error e →
    (call entry.act s).2.socket = none ∨ (call entry.act s).2.socket = s.socket

/-- Every request of the call has an id of 32 bits and a packet that can be written, no frame
arrives for it that is shorter than an id and a type, and a command that has to log in first is
accepted. -/
def Peaceful : Entry → State → Prop
  | .connect, s => ∀ peer dials, s.dials = .ok peer :: dials → Sound s.requestId s.password peer
  | .command text, s => base text ∈ safeCommands →
    (∀ peer, s.socket = some peer → Sound s.requestId text peer) ∧
    (s.socket = none → ∀ peer dials, s.dials = .ok peer :: dials →
      Sound s.requestId s.password peer ∧ Accepted s.requestId peer ∧
        Sound (s.requestId + 1) text peer.past)
  | .ping, s =>
    (∀ peer, s.socket = some peer → Sound s.requestId "list" peer) ∧
    (s.socket = none → ∀ peer dials, s.dials = .ok peer :: dials →
      Sound s.requestId s.password peer ∧
        (Accepted s.requestId peer → Sound (s.requestId + 1) "list" peer.past))

variable {s : State}

theorem robust_connect (free : s.locked = false) : Robust .connect s ↔ Peaceful .connect s := by
  have ran := call_connect s
  have same : call Entry.connect.act s = call Rcon.connect s := rfl
  generalize out : call Rcon.connect s = o at ran
  cases ran with
  | failed dials m rest none =>
    refine ⟨fun _ peer dials dial => absurd dial (none peer dials), fun _ => ⟨?_, ?_⟩⟩
    · rw [same, out]
      rintro e ⟨⟩
      exact ⟨m, rfl⟩
    · rw [same, out]
      exact fun _ _ _ _ => .inr rfl
  | accepted peer peer' dials payload dial sound accepted got =>
    refine ⟨fun _ peer₁ dials₁ dial₁ => ?_, fun _ => ⟨?_, ?_⟩⟩
    · cases dial.symm.trans dial₁
      exact sound
    · rw [same, out]
      rintro e ⟨⟩
    · rintro s₀ ⟨⟩ e failed
      rw [out] at failed
      cases failed
  | refused peer dials m dial sound refused free =>
    refine ⟨fun _ peer₁ dials₁ dial₁ => ?_, fun _ => ⟨?_, ?_⟩⟩
    · cases dial.symm.trans dial₁
      exact sound
    · rw [same, out]
      rintro e ⟨⟩
      exact ⟨m, rfl⟩
    · rw [same, out]
      exact fun _ _ _ _ => .inl rfl
  | blocked peer peer' dials dial sound refused held =>
    rw [free] at held
    cases held
  | broke peer peer' dials m dial unsound =>
    refine ⟨fun robust => ?_, fun peaceful => absurd (peaceful peer dials dial) unsound⟩
    obtain ⟨m', raised⟩ := robust.returns (.struct m) (by rw [same, out])
    cases raised

theorem call_discard {α : Type} (p : Act α) :
    call (do let _ ← p) s = ((call p s).1.map fun _ => (), (call p s).2) := by
  rw [call_bind]
  obtain ⟨r, s', ran⟩ : ∃ r s', call p s = (r, s') := ⟨_, _, rfl⟩
  rw [ran]
  cases r <;> rfl

/-- An exchange raises nothing but an `RconError` if and only if it is sound. -/
theorem exchange_returns {id : Int} {text : String} {peer peer' : Peer}
    {r : Except Raised (Int × Int × String)} (h : Exchange id text peer r peer') :
    (∀ e, r = .error e → ∃ m, e = .rcon m) ↔ Sound id text peer := by
  cases h with
  | got answer sound got => exact ⟨fun _ => sound, fun _ e error => nomatch error⟩
  | left m sound silent waiting =>
    refine ⟨fun _ => sound, fun _ e error => ?_⟩
    cases error
    exact ⟨m, rfl⟩
  | broke m unsound =>
    refine ⟨fun returns => ?_, fun sound => absurd sound unsound⟩
    obtain ⟨m', raised⟩ := returns (.struct m) rfl
    cases raised

theorem map_error {α β : Type} {r : Except Raised α} {f : α → β} {e : Raised} :
    r.map f = .error e ↔ r = .error e := by
  cases r with
  | error e' => simp [Except.map]
  | ok a => simp [Except.map]

/-- The next request sees of the socket what the last one left. -/
theorem sound_past {id : Int} {text : String} {peer peer' : Peer} {answer : Int × Int × String}
    (got : Got peer answer peer') : Sound id text peer' ↔ Sound id text peer.past := by
  have sends : peer'.sends = peer.past.sends := got.sends
  have arrivals : peer'.arrivals = peer.past.arrivals := got.arrivals
  constructor
  · rintro ⟨h, fits, frame⟩
    rw [sends, arrivals] at frame
    exact ⟨h, fits, frame⟩
  · rintro ⟨h, fits, frame⟩
    rw [← sends, ← arrivals] at frame
    exact ⟨h, fits, frame⟩

theorem connects_open {s : State} {peer : Peer} (socket : s.socket = some peer) (text : String) :
    connects (.command text) s = none ∧ connects .ping s = none := by
  have isOpen : s.socket ≠ none := by simp [socket]
  constructor
  · rw [connects, if_neg fun closed => isOpen closed.2]
  · rw [connects, if_neg isOpen]

theorem robust_command_open {peer : Peer} {text : String} (free : s.locked = false)
    (socket : s.socket = some peer) (safe : base text ∈ safeCommands) :
    Robust (.command text) s ↔ Peaceful (.command text) s := by
  obtain ⟨r, peer', exchange, ran⟩ := call_command_open free socket safe
  have errors : ∀ e, (call (Entry.command text).act s).1 = .error e ↔ r = .error e := by
    intro e
    rw [act, call_discard, ran, map_error, map_error]
  have sound := exchange_returns exchange
  constructor
  · intro robust _
    refine ⟨fun peer₁ same => ?_, fun closed => ?_⟩
    · cases socket.symm.trans same
      exact sound.mp fun e error => robust.returns e ((errors e).mpr error)
    · cases socket.symm.trans closed
  · intro peaceful
    have all := (peaceful safe).1 peer socket
    refine ⟨fun e error => sound.mpr all e ((errors e).mp error), fun s₀ connects => ?_⟩
    cases (connects_open socket text).1.symm.trans connects

/-- An error that is no wait is the same outside the `with` block. -/
theorem release_error {r : Except Raised String} {s' : State} {e : Raised}
    (waits : r ≠ .error .blocked) : (release (r, s')).1 = .error e ↔ r = .error e := by
  cases r with
  | ok a => exact Iff.rfl
  | error e' =>
    cases e' with
    | blocked => exact absurd rfl waits
    | os m => exact Iff.rfl
    | rcon m => exact Iff.rfl
    | struct m => exact Iff.rfl

theorem exchange_waits {id : Int} {text : String} {peer peer' : Peer}
    {r : Except Raised (Int × Int × String)} (h : Exchange id text peer r peer') :
    (r.map (·.2.2)) ≠ .error .blocked := by
  cases h with
  | got answer sound got => exact fun h => nomatch h
  | left m sound silent waiting => exact fun h => nomatch h
  | broke m unsound => exact fun h => nomatch h

theorem robust_command_closed {text : String} (free : s.locked = false)
    (socket : s.socket = none) (safe : base text ∈ safeCommands) :
    Robust (.command text) s ↔ Peaceful (.command text) s := by
  have ran := call_connect s.held
  have called := call_command_closed text free socket safe
  have result : (call (Entry.command text).act s) =
      ((call (Rcon.command text) s).1.map fun _ => (), (call (Rcon.command text) s).2) := call_discard _
  have first : ∀ s₀, connects (.command text) s = some s₀ → s₀ = s.held := by
    intro s₀ connects
    rw [Entry.connects, if_pos ⟨safe, socket⟩] at connects
    exact (Option.some.inj connects).symm
  have never : ∀ peer, s.socket ≠ some peer := by simp [socket]
  generalize out : call Rcon.connect s.held = o at ran called
  rw [called] at result
  cases ran with
  | failed dials m rest none =>
    refine ⟨fun _ _ => ⟨fun peer same => absurd same (never peer),
      fun _ peer dials dial => absurd dial (none peer dials)⟩, fun _ => ⟨?_, ?_⟩⟩
    · rw [result]
      rintro e ⟨⟩
      exact ⟨m, rfl⟩
    · rw [result]
      exact fun _ _ _ _ => .inl socket
  | accepted peer peer' dials payload dial sound accepted got =>
    obtain ⟨r, peer'', exchange, asked⟩ := call_request (s := (s.held.dialed dials).on peer') rfl text
    dsimp only at result
    rw [asked] at result
    have errors : ∀ e, (call (Entry.command text).act s).1 = .error e ↔ r = .error e := by
      intro e
      rw [result, map_error, release_error (exchange_waits exchange), map_error]
    have next := (exchange_returns exchange).trans (sound_past got)
    constructor
    · intro robust _
      refine ⟨fun peer₁ same => absurd same (never peer₁), fun _ peer₁ dials₁ dial₁ => ?_⟩
      cases dial.symm.trans dial₁
      refine ⟨sound, accepted, next.mp fun e error => ?_⟩
      exact robust.returns e ((errors e).mpr error)
    · intro peaceful
      have all := ((peaceful safe).2 socket peer dials dial).2.2
      refine ⟨fun e error => next.mpr all e ((errors e).mp error), fun s₀ connects e failed => ?_⟩
      rw [first s₀ connects, out] at failed
      cases failed
  | refused peer dials m dial sound refused free => cases free
  | blocked peer peer' dials dial sound refused held =>
    refine ⟨fun robust => ?_, fun peaceful => ?_⟩
    · obtain ⟨m, raised⟩ := robust.returns .blocked (by rw [result]; rfl)
      cases raised
    · exact absurd ((peaceful safe).2 socket peer dials dial).2.1 refused
  | broke peer peer' dials m dial unsound =>
    refine ⟨fun robust => ?_, fun peaceful => ?_⟩
    · obtain ⟨m', raised⟩ := robust.returns (.struct m) (by rw [result]; rfl)
      cases raised
    · exact absurd ((peaceful safe).2 socket peer dials dial).1 unsound

theorem robust_command (free : s.locked = false) (text : String) :
    Robust (.command text) s ↔ Peaceful (.command text) s := by
  by_cases safe : base text ∈ safeCommands
  · cases socket : s.socket with
    | some peer => exact robust_command_open free socket safe
    | none => exact robust_command_closed free socket safe
  · have refused : call (Entry.command text).act s =
        (.error (.rcon ("command not in allowlist: '" ++ base text ++ "'")), s) := by
      rw [act, call_discard, Rcon.command, if_pos safe]
      rfl
    refine ⟨fun _ safe' => absurd safe' safe, fun _ => ⟨?_, ?_⟩⟩
    · rw [refused]
      rintro e ⟨⟩
      exact ⟨_, rfl⟩
    · rw [refused]
      exact fun _ _ _ _ => .inr rfl

theorem list_safe : base "list" ∈ safeCommands := by decide +kernel

theorem answered_returns {r : Except Raised String} {s' : State} :
    (∀ e, (answered (r, s')).1 = .error e → ∃ m, e = .rcon m) ↔
      ∀ e, r = .error e → ∃ m, e = .rcon m := by
  cases r with
  | ok a => exact ⟨fun _ e error => (nomatch error), fun _ e error => (nomatch error)⟩
  | error e' =>
    by_cases regular : ∃ m, e' = .rcon m
    · obtain ⟨m, rfl⟩ := regular
      refine ⟨fun _ e error => ?_, fun _ e error => (nomatch error)⟩
      cases error
      exact ⟨m, rfl⟩
    · have same : (answered (.error e', s')).1 = .error e' := by
        cases e' with
        | rcon m => exact absurd ⟨m, rfl⟩ regular
        | _ => rfl
      refine ⟨fun h => absurd (h e' same) regular, fun h => absurd (h e' rfl) regular⟩

theorem map_returns {α β : Type} {r : Except Raised α} {f : α → β} :
    (∀ e, r.map f = .error e → ∃ m, e = .rcon m) ↔ ∀ e, r = .error e → ∃ m, e = .rcon m :=
  forall_congr' fun _ => by rw [map_error]

theorem robust_ping (free : s.locked = false) : Robust .ping s ↔ Peaceful .ping s := by
  have result : call Entry.ping.act s = ((call Rcon.ping s).1.map fun _ => (), (call Rcon.ping s).2) :=
    call_discard _
  cases socket : s.socket with
  | some peer =>
    obtain ⟨r, peer', exchange, ran⟩ := call_command_open free socket list_safe
    rw [call_ping_open socket, ran] at result
    have sound : (∀ e, (call Entry.ping.act s).1 = .error e → ∃ m, e = .rcon m) ↔
        Sound s.requestId "list" peer := by
      rw [result, map_returns, answered_returns, map_returns]
      exact exchange_returns exchange
    constructor
    · intro robust
      refine ⟨fun peer₁ same => ?_, fun closed => ?_⟩
      · cases socket.symm.trans same
        exact sound.mp robust.returns
      · cases socket.symm.trans closed
    · intro peaceful
      refine ⟨sound.mpr (peaceful.1 peer socket), fun s₀ connects => ?_⟩
      cases (connects_open socket "").2.symm.trans connects
  | none =>
    have never : ∀ peer, s.socket ≠ some peer := by simp [socket]
    have first : ∀ s₀, connects .ping s = some s₀ → s₀ = s := by
      intro s₀ connects
      rw [Entry.connects, if_pos socket] at connects
      exact (Option.some.inj connects).symm
    have ran := call_connect s
    rw [call_ping_closed socket] at result
    generalize out : call Rcon.connect s = o at ran result
    cases ran with
    | failed dials m rest none =>
      refine ⟨fun _ => ⟨fun peer same => absurd same (never peer),
        fun _ peer dials dial => absurd dial (none peer dials)⟩, fun _ => ⟨?_, ?_⟩⟩
      · rw [result]
        rintro e ⟨⟩
      · rw [result]
        exact fun _ _ _ _ => .inr rfl
    | accepted peer peer' dials payload dial sound accepted got =>
      obtain ⟨r, peer'', exchange, asked⟩ := call_command_open (s := (s.dialed dials).on peer')
        free rfl list_safe
      dsimp only at result
      rw [asked] at result
      have next : (∀ e, (call Entry.ping.act s).1 = .error e → ∃ m, e = .rcon m) ↔
          Sound (s.requestId + 1) "list" peer.past := by
        rw [result, map_returns, answered_returns, map_returns]
        exact (exchange_returns exchange).trans (sound_past got)
      constructor
      · intro robust
        refine ⟨fun peer₁ same => absurd same (never peer₁), fun _ peer₁ dials₁ dial₁ => ?_⟩
        cases dial.symm.trans dial₁
        exact ⟨sound, fun _ => next.mp robust.returns⟩
      · intro peaceful
        refine ⟨next.mpr ((peaceful.2 socket peer dials dial).2 accepted),
          fun s₀ connects e failed => ?_⟩
        rw [first s₀ connects, out] at failed
        cases failed
    | refused peer dials m dial sound refused free =>
      refine ⟨fun _ => ⟨fun peer₁ same => absurd same (never peer₁), fun _ peer₁ dials₁ dial₁ => ?_⟩,
        fun _ => ⟨?_, ?_⟩⟩
      · cases dial.symm.trans dial₁
        exact ⟨sound, fun accepted => absurd accepted refused⟩
      · rw [result]
        rintro e ⟨⟩
      · rw [result]
        exact fun _ _ _ _ => .inl rfl
    | blocked peer peer' dials dial sound refused held =>
      rw [free] at held
      cases held
    | broke peer peer' dials m dial unsound =>
      refine ⟨fun robust => ?_, fun peaceful => ?_⟩
      · obtain ⟨m', raised⟩ := robust.returns (.struct m) (by rw [result]; rfl)
        cases raised
      · exact absurd (peaceful.2 socket peer dials dial).1 unsound

/-- Each call is robust exactly where it is peaceful. -/
theorem robust_iff (free : s.locked = false) (entry : Entry) :
    Robust entry s ↔ Peaceful entry s := by
  cases entry with
  | connect => exact robust_connect free
  | command text => exact robust_command free text
  | ping => exact robust_ping free

end Entry

/-- Bytes that arrive in any pieces are read like one piece. -/
theorem recvLoop_chunks {n : Nat} {chunks : List (List UInt8)} (full : ∀ c ∈ chunks, c ≠ [])
    (enough : n ≤ chunks.flatten.length) :
    ∃ rest : List (List UInt8), (∀ c ∈ rest, c ≠ []) ∧ rest.flatten = chunks.flatten.drop n ∧
      recvLoop n (chunks.map .bytes) = (.ok (chunks.flatten.take n), rest.map .bytes) := by
  induction chunks generalizing n with
  | nil =>
    obtain rfl : n = 0 := Nat.le_zero.mp enough
    exact ⟨[], full, rfl, rfl⟩
  | cons c chunks ih =>
    cases n with
    | zero => exact ⟨c :: chunks, full, rfl, rfl⟩
    | succ n =>
      have nonempty : ¬c.isEmpty = true := by
        rw [List.isEmpty_iff]
        exact full c List.mem_cons_self
      rw [List.map_cons, recvLoop, if_neg nonempty, List.flatten_cons]
      rw [List.flatten_cons, List.length_append] at enough
      by_cases short : c.length ≤ n + 1
      · obtain ⟨rest, full', flat, ran⟩ := ih (n := n + 1 - c.length)
          (fun c' mem => full c' (List.mem_cons_of_mem _ mem)) (by omega)
        refine ⟨rest, full', ?_, ?_⟩
        · rw [flat, List.drop_append, List.drop_of_length_le short, List.nil_append]
        · rw [if_pos short, ran, List.take_append, List.take_of_length_le short]
          rfl
      · have long : n + 1 < c.length := Nat.lt_of_not_le short
        refine ⟨c.drop (n + 1) :: chunks, ?_, ?_, ?_⟩
        · intro c' mem
          rcases List.mem_cons.mp mem with rfl | mem
          · intro empty
            have none := congrArg List.length empty
            rw [List.length_drop, List.length_nil] at none
            omega
          · exact full c' (List.mem_cons_of_mem _ mem)
        · rw [List.flatten_cons, List.drop_append_of_le_length (Nat.le_of_lt long)]
        · rw [if_neg short, List.take_append_of_le_length (Nat.le_of_lt long)]
          rfl

/-- The frame of a packet is its body. -/
theorem frame_packet {body : List UInt8} {chunks : List (List UInt8)}
    (length : Int32 body.length) (full : ∀ c ∈ chunks, c ≠ [])
    (flat : chunks.flatten = int32Bytes body.length ++ body) :
    ∃ rest, frame (chunks.map .bytes) = (.ok body, rest) := by
  have total : chunks.flatten.length = 4 + body.length := by
    rw [flat, List.length_append, length_int32Bytes]
  obtain ⟨rest, full', flat', first⟩ := recvLoop_chunks (n := 4) full (by omega)
  have raw : chunks.flatten.take 4 = int32Bytes body.length := by
    rw [flat]
    exact List.take_left' (length_int32Bytes _)
  have remains : rest.flatten = body := by
    rw [flat', flat]
    exact List.drop_left' (length_int32Bytes _)
  obtain ⟨rest', -, -, second⟩ := recvLoop_chunks (n := body.length) full' (by rw [remains])
  refine ⟨rest'.map .bytes, ?_⟩
  rw [frame, first, raw]
  dsimp only
  rw [unpack_int32Bytes length]
  dsimp only
  rw [Int.toNat_natCast, second, remains, List.take_length]

theorem unpackTwo_int32Bytes {n m : Int} (hn : Int32 n) (hm : Int32 m) :
    unpackTwo (int32Bytes n ++ int32Bytes m) = .ok (n, m) := by
  have first := Except.ok.inj (unpack_int32Bytes hn)
  have second := Except.ok.inj (unpack_int32Bytes hm)
  exact congrArg₂ (fun a b => Except.ok (a, b)) first second

theorem parse_packetBody {id ptype : Int} (text : String) (hid : Int32 id) (htype : Int32 ptype) :
    parse (packetBody id ptype text) = .ok (id, ptype, text) := by
  have head : (packetBody id ptype text).take 8 = int32Bytes id ++ int32Bytes ptype := by
    rw [packetBody, List.append_assoc]
    exact List.take_left' rfl
  have payload : ((packetBody id ptype text).take ((packetBody id ptype text).length - 2)).drop 8 =
      Utf8.encode text := by
    have front : (packetBody id ptype text).take ((packetBody id ptype text).length - 2) =
        int32Bytes id ++ int32Bytes ptype ++ Utf8.encode text := by
      rw [packetBody]
      apply List.take_left'
      simp only [List.length_append, List.length_cons, List.length_nil]
      omega
    rw [front]
    exact List.drop_left' rfl
  rw [parse, head, unpackTwo_int32Bytes hid htype, payload, Utf8.decode_encode]
  rfl

/-- What `_send` writes is read by `_receive`, in whatever pieces it arrives. -/
structure RoundTrip (id ptype : Int) (payload : String) : Prop where
  sends : Int32 id → Int32 ptype → Fits payload → ∀ s peer, s.socket = some peer →
    peer.sends.head?.join = none → ∃ s', call (send id ptype payload) s = (.ok (), s')
  reads : ∀ s s' peer, s.socket = some peer →
    call (send id ptype payload) s = (.ok (), s') →
    ∃ peer' written, s'.socket = some peer' ∧ peer'.sent = peer.sent ++ written ∧
      ∀ chunks : List (List UInt8), (∀ c ∈ chunks, c ≠ []) → chunks.flatten = written →
      ∀ t q, t.socket = some q → q.arrivals = chunks.map .bytes →
        (call receive t).1 = .ok (id, ptype, payload)

theorem round_trip (id ptype : Int) (payload : String) : RoundTrip id ptype payload := by
  constructor
  · intro hid htype fits s peer socket taken
    rw [call_send socket, packet_ok hid htype fits]
    dsimp only
    rcases sendall_cases peer (int32Bytes (packetBody id ptype payload).length ++
      packetBody id ptype payload) with ⟨text, fails, -, -⟩ | ⟨-, done⟩
    · rw [taken] at fails
      cases fails
    · rw [done]
      exact ⟨_, rfl⟩
  · intro s s' peer socket sent
    rw [call_send socket] at sent
    have htype : Int32 ptype := by
      cases packed : packet id ptype payload with
      | ok data => exact packet_typed packed
      | error e =>
        rw [packed] at sent
        cases sent
    by_cases packed : Int32 id ∧ Fits payload
    · rw [packet_ok packed.1 htype packed.2] at sent
      dsimp only at sent
      have length : Int32 (packetBody id ptype payload).length := by
        rw [length_packetBody]
        have short := packed.2.size
        constructor
        · omega
        · omega
      rcases sendall_cases peer (int32Bytes (packetBody id ptype payload).length ++
        packetBody id ptype payload) with ⟨text, -, failed, -⟩ | ⟨-, done⟩
      · rw [failed] at sent
        cases sent
      · rw [done] at sent
        cases sent
        refine ⟨_, _, rfl, rfl, ?_⟩
        intro chunks full flat t q isOpen arrivals
        obtain ⟨rest, read⟩ := frame_packet length full flat
        rw [call_receive isOpen, arrivals, read]
        dsimp only
        rw [parse_packetBody payload packed.1 htype]
    · obtain ⟨m, error⟩ := packet_error htype packed
      rw [error] at sent
      cases sent

/-- A call of a client whose lock is free is robust if and only if it is peaceful, and what is
written is read. -/
theorem rcon_framing {s : State} (free : s.locked = false) (entry : Entry) (id ptype : Int)
    (payload : String) :
    (entry.Robust s ↔ entry.Peaceful s) ∧ RoundTrip id ptype payload :=
  ⟨Entry.robust_iff free entry, round_trip id ptype payload⟩

/-- The bytes of a packet without a text, as a server sends them. -/
def emptyPacket (id ptype : Int) : List UInt8 := int32Bytes 10 ++ packetBody id ptype ""

/-- A client that will find one peer, and what the peer sends. -/
def fresh (packets : List (List UInt8)) : State :=
  { password := "secret", dials := [.ok { arrivals := packets.map .bytes }] }

theorem rcon_framing_listed :
    (Entry.ping.Robust (fresh [emptyPacket 1 2, emptyPacket 2 0]) ↔
      Entry.ping.Peaceful (fresh [emptyPacket 1 2, emptyPacket 2 0])) ∧ RoundTrip 2 0 "é" :=
  rcon_framing rfl .ping 2 0 "é"

/-- The peer rejects the login of a command: the thread waits for its own lock. -/
theorem rejected_command_blocks : ¬∀ (s : State) (entry : Entry) (id ptype : Int) (payload : String),
    s.locked = false → entry.Robust s ∧ RoundTrip id ptype payload := by
  intro h
  have robust := (h (fresh [emptyPacket (-1) 2]) (.command "list") 0 0 "" rfl).1
  obtain ⟨m, raised⟩ := robust.returns .blocked (by decide +kernel)
  cases raised

end McManager.Rcon
