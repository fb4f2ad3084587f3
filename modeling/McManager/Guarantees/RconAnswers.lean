import McManager.Guarantees.RconFraming

namespace McManager.Rcon

open Framework

/-- What a frame holds behind its length. -/
def Answer.body (a : Answer) : List UInt8 :=
  int32Bytes a.requestId ++ int32Bytes a.ptype ++ a.payload ++ [0, 0]

/-- The bytes of answers sent one after another. -/
def frames (answers : List Answer) : List UInt8 :=
  answers.flatMap fun a => int32Bytes a.body.length ++ a.body

/-- The bytes that arrive, whatever happens between them. -/
def arriving (arrivals : List Arrival) : List UInt8 :=
  arrivals.flatMap fun
    | .bytes b => b
    | .fault _ => []

/-- The peer of a new socket answers the requests in order with one frame each, as far as the bytes
arrive. -/
structure Honest (peer : Peer) : Prop where
  lengths : ∀ a ∈ peer.answers, Int32 a.body.length
  inOrder : arriving peer.arrivals <+: frames peer.answers
  new : peer.asked = 0 ∧ peer.answered = 0

/-- A client that has not connected yet, and will find honest peers only. -/
structure Client (s : State) : Prop where
  free : s.locked = false
  closed : s.socket = none
  honest : ∀ peer, .ok peer ∈ s.dials → Honest peer

/-- The last request on the socket was answered, and this is the answer. -/
def Belongs (peer : Peer) (answer : Answer) : Prop :=
  peer.answered = peer.asked ∧ 0 < peer.asked ∧ peer.answers[peer.asked - 1]? = some answer

/-- The request is written, and a whole frame arrives for it. -/
def Peer.speaks (peer : Peer) : Prop :=
  peer.sends.head?.join = none ∧ ∃ body, (frame peer.arrivals).1 = .ok body

namespace Entry

/-- Where the call returns an answer it is the answer to its own request; otherwise it raises an
`RconError`. -/
def Owned : Entry → State → Prop
  | .connect, s => ∀ e, (call Rcon.connect s).1 = .error e → ∃ m, e = .rcon m
  | .command text, s =>
    (∀ payload, (call (Rcon.command text) s).1 = .ok payload →
      ∃ peer answer, (call (Rcon.command text) s).2.socket = some peer ∧ Belongs peer answer ∧
        payload = Utf8.decode answer.payload) ∧
    ∀ e, (call (Rcon.command text) s).1 = .error e → ∃ m, e = .rcon m
  | .ping, s =>
    ((call Rcon.ping s).1 = .ok true →
      ∃ peer answer, (call Rcon.ping s).2.socket = some peer ∧ Belongs peer answer) ∧
    ∀ e, (call Rcon.ping s).1 ≠ .error e

/-- Whether the call sends a command on a socket that is open. -/
def asks : Entry → Prop
  | .connect => False
  | .command text => base text ∈ safeCommands
  | .ping => True

/-- The call is peaceful, and no frame arrives in full for a request on a socket that an earlier
request was left on without its answer. -/
structure Orderly (entry : Entry) (s : State) : Prop where
  peaceful : entry.Peaceful s
  inStep : entry.asks → ∀ peer, s.socket = some peer → peer.speaks → peer.asked = peer.answered

/-- The client after the call. -/
def after (entry : Entry) (s : State) : State := (call entry.act s).2

/-- What holds of every call of a run, in the state it starts from. -/
def Along (P : Entry → State → Prop) : List Entry → State → Prop
  | [], _ => True
  | entry :: entries, s => P entry s ∧ Along P entries (entry.after s)

end Entry

theorem length_body (a : Answer) : a.body.length = 10 + a.payload.length := by
  simp only [Answer.body, List.length_append, length_int32Bytes, List.length_cons, List.length_nil]
  omega

/-- What the loop gives is what arrives first. -/
theorem recvLoop_arriving {n : Nat} {arrivals rest : List Arrival} {b : List UInt8}
    (h : recvLoop n arrivals = (.ok b, rest)) : arriving arrivals = b ++ arriving rest := by
  fun_induction recvLoop n arrivals generalizing b rest with
  | case1 => cases h; rfl
  | case2 => cases h
  | case3 => cases h
  | case4 => cases h
  | case5 n arrival rest' nonempty short r rest'' more ih =>
    cases r with
    | error e => cases h
    | ok b' =>
      have flat := ih more
      cases h
      rw [List.append_assoc, ← flat]
      rfl
  | case6 n arrival rest' nonempty long =>
    cases h
    change arrival ++ arriving rest' = List.take (n + 1) arrival ++
      (arrival.drop (n + 1) ++ arriving rest')
    rw [← List.append_assoc, List.take_append_drop]

/-- Two lists of one length that begin the same bytes are the same. -/
theorem same_parts {a b c d : List UInt8} (length : a.length = c.length)
    (h : a ++ b <+: c ++ d) : a = c ∧ b <+: d := by
  obtain ⟨t, whole⟩ := h
  rw [List.append_assoc] at whole
  obtain ⟨same, rest⟩ := List.append_inj whole length
  exact ⟨same, t, rest⟩

/-- The frame that arrives in full is the next one that was sent. -/
theorem frame_next {arrivals rest : List Arrival} {answers : List Answer} {body : List UInt8}
    (lengths : ∀ a ∈ answers, Int32 a.body.length) (inOrder : arriving arrivals <+: frames answers)
    (h : frame arrivals = (.ok body, rest)) :
    ∃ a later, answers = a :: later ∧ body = a.body ∧ arriving rest <+: frames later := by
  unfold frame at h
  cases first : recvLoop 4 arrivals with
  | mk r rest₁ =>
    rw [first] at h
    cases r with
    | error e => cases h
    | ok raw =>
      dsimp only at h
      have four := recvLoop_length first
      have flat := recvLoop_arriving first
      cases answers with
      | nil =>
        rw [flat] at inOrder
        have empty := List.prefix_nil.mp inOrder
        have none' := congrArg List.length empty
        rw [List.length_append, List.length_nil] at none'
        omega
      | cons a later =>
        rw [flat] at inOrder
        change raw ++ arriving rest₁ <+: int32Bytes a.body.length ++ a.body ++ frames later at inOrder
        rw [List.append_assoc] at inOrder
        obtain ⟨size, inOrder⟩ := same_parts (four.trans (length_int32Bytes _).symm) inOrder
        rw [size, unpack_int32Bytes (lengths a List.mem_cons_self)] at h
        dsimp only at h
        rw [Int.toNat_natCast] at h
        have long := recvLoop_length h
        rw [recvLoop_arriving h] at inOrder
        obtain ⟨same, inOrder⟩ := same_parts long inOrder
        exact ⟨a, later, rfl, same, inOrder⟩

/-- The text of a frame is that of its answer. -/
theorem parse_body {a : Answer} {answer : Int × Int × String} (h : parse a.body = .ok answer) :
    answer.2.2 = Utf8.decode a.payload := by
  have payload : (a.body.take (a.body.length - 2)).drop 8 = a.payload := by
    have front : a.body.take (a.body.length - 2) =
        int32Bytes a.requestId ++ int32Bytes a.ptype ++ a.payload := by
      rw [length_body, Answer.body]
      apply List.take_left'
      simp only [List.length_append, length_int32Bytes]
      omega
    rw [front]
    exact List.drop_left' rfl
  rw [parse, payload] at h
  cases two : unpackTwo (a.body.take 8) with
  | error e =>
    rw [two] at h
    cases h
  | ok ids =>
    rw [two] at h
    cases h
    rfl

/-- Of an open socket: where no request is without its answer, what arrives are the answers to the
next ones. -/
structure Kept (peer : Peer) : Prop where
  lengths : ∀ a ∈ peer.answers, Int32 a.body.length
  behind : peer.answered ≤ peer.asked
  inOrder : peer.asked = peer.answered →
    arriving peer.arrivals <+: frames (peer.answers.drop peer.asked)

theorem kept_honest {peer : Peer} (h : Honest peer) : Kept peer := by
  obtain ⟨asked, answered⟩ := h.new
  refine ⟨h.lengths, ?_, fun _ => ?_⟩
  · omega
  · rw [asked]
    exact h.inOrder

/-- An answer on a socket that kept step is the answer to its request. -/
theorem kept_got {peer peer' : Peer} {answer : Int × Int × String} (kept : Kept peer)
    (step : peer.asked = peer.answered) (got : Got peer answer peer') :
    Kept peer' ∧ ∃ a, Belongs peer' a ∧ answer.2.2 = Utf8.decode a.payload := by
  obtain ⟨body, read, parsed⟩ := got.frame
  have lengths : ∀ a ∈ peer.answers.drop peer.asked, Int32 a.body.length := fun a mem =>
    kept.lengths a (List.mem_of_mem_drop mem)
  obtain ⟨a, later, next, rfl, inOrder⟩ :=
    frame_next lengths (kept.inOrder step) (Prod.ext read rfl)
  have drop : peer.answers.drop (peer.asked + 1) = later := by
    rw [← List.drop_drop, next]
    rfl
  have asked := got.asked
  have answered := got.answered
  refine ⟨⟨?_, ?_, fun _ => ?_⟩, a, ⟨?_, ?_, ?_⟩, parse_body parsed⟩
  · rw [got.answers]
    exact kept.lengths
  · omega
  · rw [got.answers, asked, drop, got.arrivals]
    exact inOrder
  · omega
  · omega
  · have head := congrArg List.head? next
    rw [List.head?_drop] at head
    rw [got.answers, asked, Nat.add_sub_cancel]
    exact head

theorem kept_exchange {peer peer' : Peer} {id : Int} {text : String}
    {r : Except Raised (Int × Int × String)} (kept : Kept peer) (sound : Sound id text peer)
    (step : peer.speaks → peer.asked = peer.answered) (h : Exchange id text peer r peer') :
    Kept peer' ∧ (∀ answer, r = .ok answer →
      ∃ a, Belongs peer' a ∧ answer.2.2 = Utf8.decode a.payload) := by
  cases h with
  | got answer _ got =>
    obtain ⟨body, read, -⟩ := got.frame
    obtain ⟨kept', own⟩ := kept_got kept (step ⟨got.taken, body, read⟩) got
    refine ⟨kept', fun answer' same => ?_⟩
    cases same
    exact own
  | left m _ silent waiting =>
    have behind := kept.behind
    have asked := waiting.asked
    have answered := waiting.answered
    refine ⟨⟨?_, ?_, fun same => ?_⟩, fun answer same => nomatch same⟩
    · rw [waiting.answers]
      exact kept.lengths
    · omega
    · omega
  | broke m unsound => exact absurd sound unsound

/-- The client between two calls. -/
structure Keeps (s : State) : Prop where
  free : s.locked = false
  honest : ∀ peer, .ok peer ∈ s.dials → Honest peer
  socket : ∀ peer, s.socket = some peer → Kept peer

theorem keeps_client {s : State} (h : Client s) : Keeps s := by
  refine ⟨h.free, h.honest, fun peer socket => ?_⟩
  rw [h.closed] at socket
  cases socket

theorem keeps_on {s : State} {peer : Peer} (keeps : Keeps s) (kept : Kept peer) (id : Int) :
    Keeps ({ s with requestId := id }.on peer) := by
  refine ⟨keeps.free, keeps.honest, fun peer' socket => ?_⟩
  cases socket
  exact kept

theorem keeps_dialed {s : State} {peer : Peer} {dials : List (Except String Peer)} (keeps : Keeps s)
    (dial : s.dials = .ok peer :: dials) :
    Honest peer ∧ Keeps { s.dialed dials with socket := none } := by
  have honest : ∀ peer' ∈ (.ok peer :: dials : List (Except String Peer)), ∀ p, peer' = .ok p →
      Honest p := by
    rintro _ mem p rfl
    rw [← dial] at mem
    exact keeps.honest p mem
  refine ⟨honest _ List.mem_cons_self peer rfl, keeps.free, fun p mem => ?_, fun p socket => ?_⟩
  · exact honest _ (List.mem_cons_of_mem _ mem) p rfl
  · cases socket

/-- After a login on an honest socket the client keeps step with it. -/
theorem keeps_accepted {s : State} {peer peer' : Peer} {dials : List (Except String Peer)}
    {answer : Int × Int × String} (keeps : Keeps s) (dial : s.dials = .ok peer :: dials)
    (got : Got peer answer peer') :
    Keeps ((s.dialed dials).on peer') ∧ peer'.asked = peer'.answered := by
  obtain ⟨honest, dialed⟩ := keeps_dialed keeps dial
  obtain ⟨asked, answered⟩ := honest.new
  have asked' := got.asked
  have answered' := got.answered
  have kept := (kept_got (kept_honest honest) (by omega) got).1
  refine ⟨keeps_on dialed kept (s.requestId + 1), ?_⟩
  omega

namespace Entry

variable {s : State}

/-- What the answer to a command needs to be its own. -/
theorem owned_exchange {text : String} {id n : Int} {peer peer' : Peer}
    {r : Except Raised (Int × Int × String)} (keeps : Keeps s) (kept : Kept peer)
    (sound : Sound id text peer) (step : peer.speaks → peer.asked = peer.answered)
    (exchange : Exchange id text peer r peer') {s' : State}
    (ran : call (Rcon.command text) s' = (r.map (·.2.2), { s with requestId := n }.on peer')) :
    Owned (.command text) s' ∧ Keeps (call (Rcon.command text) s').2 := by
  obtain ⟨kept', own⟩ := kept_exchange kept sound step exchange
  have returns := (exchange_returns exchange).mpr sound
  refine ⟨⟨fun payload returned => ?_, fun e raised => ?_⟩, ?_⟩
  · rw [ran] at returned
    cases r with
    | error e => cases returned
    | ok answer =>
      obtain ⟨a, belongs, text⟩ := own answer rfl
      cases returned
      refine ⟨peer', a, ?_, belongs, text⟩
      rw [ran]
      rfl
  · rw [ran] at raised
    exact returns e (map_error.mp raised)
  · rw [ran]
    exact keeps_on keeps kept' n

theorem owned_command_open {text : String} {peer : Peer} (keeps : Keeps s)
    (socket : s.socket = some peer) (safe : base text ∈ safeCommands)
    (sound : Sound s.requestId text peer) (step : peer.speaks → peer.asked = peer.answered) :
    Owned (.command text) s ∧ Keeps (call (Rcon.command text) s).2 := by
  obtain ⟨r, peer', exchange, ran⟩ := call_command_open keeps.free socket safe
  exact owned_exchange keeps (keeps.socket peer socket) sound step exchange ran

theorem release_exchange {id : Int} {text : String} {peer peer' : Peer} {s' : State}
    {r : Except Raised (Int × Int × String)} (h : Exchange id text peer r peer') :
    release (r.map (·.2.2), s') = (r.map (·.2.2), s'.freed) := by
  cases h with
  | got answer sound got => rfl
  | left m sound silent waiting => rfl
  | broke m unsound => rfl

/-- A call that ends in an `RconError` without a socket. -/
theorem owned_refused {text m : String} {s' : State} (keeps : Keeps s')
    (ran : call (Rcon.command text) s = (.error (.rcon m), s')) :
    Owned (.command text) s ∧ Keeps (call (Rcon.command text) s).2 := by
  refine ⟨⟨fun payload returned => ?_, fun e raised => ?_⟩, ?_⟩
  · rw [ran] at returned
    cases returned
  · rw [ran] at raised
    cases raised
    exact ⟨m, rfl⟩
  · rw [ran]
    exact keeps

theorem owned_command_closed {text : String} (keeps : Keeps s) (socket : s.socket = none)
    (safe : base text ∈ safeCommands) (peaceful : Peaceful (.command text) s) :
    Owned (.command text) s ∧ Keeps (call (Rcon.command text) s).2 := by
  have ran := call_connect s.held
  have called := call_command_closed text keeps.free socket safe
  generalize out : call Rcon.connect s.held = o at ran called
  cases ran with
  | failed dials m rest none =>
    refine owned_refused ⟨rfl, fun peer mem => ?_, fun peer isOpen => ?_⟩ called
    · exact keeps.honest peer (List.mem_of_mem_tail (rest ▸ mem))
    · cases socket.symm.trans isOpen
  | accepted peer peer' dials payload dial sound accepted got =>
    obtain ⟨-, -, next⟩ := (peaceful safe).2 socket peer dials dial
    obtain ⟨after, step⟩ := keeps_accepted keeps dial got
    obtain ⟨r, peer'', exchange, asked⟩ := call_request (s := (s.held.dialed dials).on peer') rfl text
    dsimp only at called
    rw [asked, release_exchange exchange] at called
    have sound' := (sound_past got).mpr next
    have kept : Kept peer' := after.socket peer' rfl
    have ran : call (Rcon.command text) s = (r.map (·.2.2),
        { (s.dialed dials).on peer' with requestId := s.requestId + 1 + 1 }.on peer'') := by
      have free : s.locked = false := keeps.free
      have still : ({ (s.dialed dials).on peer' with requestId := s.requestId + 1 + 1 }.on peer'').locked =
          false := free
      rw [called, ← State.freed_of_free still]
      rfl
    exact owned_exchange after kept sound' (fun _ => step) exchange ran
  | refused peer dials m dial sound refused free => cases free
  | blocked peer peer' dials dial sound refused held =>
    exact absurd ((peaceful safe).2 socket peer dials dial).2.1 refused
  | broke peer peer' dials m dial unsound =>
    exact absurd ((peaceful safe).2 socket peer dials dial).1 unsound

theorem owned_command {text : String} (keeps : Keeps s) (orderly : Orderly (.command text) s) :
    Owned (.command text) s ∧ Keeps (call (Rcon.command text) s).2 := by
  by_cases safe : base text ∈ safeCommands
  · cases socket : s.socket with
    | some peer =>
      have sound := (orderly.peaceful safe).1 peer socket
      exact owned_command_open keeps socket safe sound (orderly.inStep safe peer socket)
    | none => exact owned_command_closed keeps socket safe orderly.peaceful
  · have refused : call (Rcon.command text) s =
        (.error (.rcon ("command not in allowlist: '" ++ base text ++ "'")), s) := by
      rw [Rcon.command, if_pos safe]
      rfl
    exact owned_refused keeps refused

/-- `ping` once the connection is there is the command `list`. -/
theorem owned_answered {s' : State} (ran : call Rcon.ping s = answered (call (Rcon.command "list") s'))
    (h : Owned (.command "list") s' ∧ Keeps (call (Rcon.command "list") s').2) :
    Owned .ping s ∧ Keeps (call Rcon.ping s).2 := by
  obtain ⟨⟨own, returns⟩, keeps⟩ := h
  rw [Owned, ran]
  generalize call (Rcon.command "list") s' = o at own returns keeps ⊢
  obtain ⟨r, s''⟩ := o
  cases r with
  | ok payload =>
    obtain ⟨peer, answer, socket, belongs, -⟩ := own payload rfl
    exact ⟨⟨fun _ => ⟨peer, answer, socket, belongs⟩, fun e error => (nomatch error)⟩, keeps⟩
  | error e =>
    obtain ⟨m, rfl⟩ := returns e rfl
    exact ⟨⟨fun returned => (nomatch returned), fun e error => (nomatch error)⟩, keeps⟩

theorem owned_ping (keeps : Keeps s) (orderly : Orderly .ping s) :
    Owned .ping s ∧ Keeps (call Rcon.ping s).2 := by
  cases socket : s.socket with
  | some peer =>
    have sound := orderly.peaceful.1 peer socket
    have listed := owned_command_open keeps socket list_safe sound (orderly.inStep trivial peer socket)
    exact owned_answered (call_ping_open socket) listed
  | none =>
    have ran := call_connect s
    have called := call_ping_closed socket
    generalize out : call Rcon.connect s = o at ran called
    have failed : ∀ {s' : State}, call Rcon.ping s = (.ok false, s') → Keeps s' →
        Owned .ping s ∧ Keeps (call Rcon.ping s).2 := by
      intro s' ran keeps
      rw [Owned, ran]
      exact ⟨⟨fun returned => (nomatch returned), fun e error => (nomatch error)⟩, keeps⟩
    cases ran with
    | failed dials m rest none =>
      refine failed called ⟨keeps.free, fun peer mem => ?_, fun peer isOpen => ?_⟩
      · exact keeps.honest peer (List.mem_of_mem_tail (rest ▸ mem))
      · cases socket.symm.trans isOpen
    | accepted peer peer' dials payload dial sound accepted got =>
      obtain ⟨after, step⟩ := keeps_accepted keeps dial got
      have next := (orderly.peaceful.2 socket peer dials dial).2 accepted
      have listed := owned_command_open after rfl list_safe ((sound_past got).mpr next) fun _ => step
      exact owned_answered called listed
    | refused peer dials m dial sound refused free =>
      exact failed called (keeps_dialed keeps dial).2
    | blocked peer peer' dials dial sound refused held =>
      rw [keeps.free] at held
      cases held
    | broke peer peer' dials m dial unsound =>
      exact absurd (orderly.peaceful.2 socket peer dials dial).1 unsound

theorem owned_connect (keeps : Keeps s) (orderly : Orderly .connect s) :
    Owned .connect s ∧ Keeps (call Rcon.connect s).2 := by
  have returns := ((robust_connect keeps.free).mpr orderly.peaceful).returns
  have same : call Entry.connect.act s = call Rcon.connect s := rfl
  rw [same] at returns
  have ran := call_connect s
  rw [Owned]
  generalize call Rcon.connect s = o at ran returns ⊢
  refine ⟨returns, ?_⟩
  cases ran with
  | failed dials m rest none =>
    exact ⟨keeps.free, fun peer mem => keeps.honest peer (List.mem_of_mem_tail (rest ▸ mem)),
      keeps.socket⟩
  | accepted peer peer' dials payload dial sound accepted got => exact (keeps_accepted keeps dial got).1
  | refused peer dials m dial sound refused free => exact (keeps_dialed keeps dial).2
  | blocked peer peer' dials dial sound refused held =>
    rw [keeps.free] at held
    cases held
  | broke peer peer' dials m dial unsound => exact absurd (orderly.peaceful peer dials dial) unsound

/-- One call that is orderly. -/
theorem owned_step (entry : Entry) (keeps : Keeps s) (orderly : Orderly entry s) :
    Owned entry s ∧ Keeps (entry.after s) := by
  cases entry with
  | connect => exact owned_connect keeps orderly
  | command text =>
    rw [after, act, call_discard]
    dsimp only
    exact owned_command keeps orderly
  | ping =>
    rw [after, act, call_discard]
    dsimp only
    exact owned_ping keeps orderly

theorem owned_along {calls : List Entry} (keeps : Keeps s) (orderly : Along Orderly calls s) :
    Along Owned calls s := by
  induction calls generalizing s with
  | nil => trivial
  | cons entry calls ih =>
    obtain ⟨first, rest⟩ := orderly
    obtain ⟨own, keeps'⟩ := owned_step entry keeps first
    exact ⟨own, ih keeps' rest⟩

end Entry

/-- In a run whose calls are all orderly each command that returns gives the answer to its own
request. -/
theorem rcon_answers {s : State} (client : Client s) {calls : List Entry}
    (orderly : Entry.Along Entry.Orderly calls s) : Entry.Along Entry.Owned calls s :=
  Entry.owned_along (keeps_client client) orderly

/-- The frame of an answer. -/
def Answer.packet (a : Answer) : List UInt8 := int32Bytes a.body.length ++ a.body

/-- A client that will find one peer with these answers, of which these frames arrive, and times out
where there is none. -/
def facing (answers : List Answer) (arriving : List (Option Answer)) : State :=
  { password := "secret"
    dials := [.ok {
      answers
      arrivals := arriving.map fun
        | some a => .bytes a.packet
        | none => .fault "timed out" }] }

theorem client_facing {answers : List Answer} {arriving : List (Option Answer)}
    (lengths : ∀ a ∈ answers, Int32 a.body.length)
    (inOrder : arriving.filterMap id <+: answers) : Client (facing answers arriving) := by
  have flat : ∀ l : List (Option Answer), Rcon.arriving (l.map fun
        | some a => .bytes a.packet
        | none => .fault "timed out") = frames (l.filterMap id) := by
    intro l
    induction l with
    | nil => rfl
    | cons a l ih =>
      cases a with
      | none => exact ih
      | some a => exact congrArg (a.packet ++ ·) ih
  refine ⟨rfl, rfl, fun peer mem => ?_⟩
  rw [facing, List.mem_singleton, Except.ok.injEq] at mem
  subst mem
  refine ⟨lengths, ?_, rfl, rfl⟩
  rw [flat]
  obtain ⟨later, rfl⟩ := inOrder
  exact ⟨frames later, (List.flatMap_append ..).symm⟩

/-- The answers of a server to a login and to the commands `list` and `tps`. -/
def session : List Answer := [⟨1, 2, []⟩, ⟨2, 0, Utf8.encode "0"⟩, ⟨3, 0, Utf8.encode "20"⟩]

/-- What arrives of these answers, each in one piece. -/
def punctual (answers : List Answer) : List Arrival := answers.map fun a => .bytes a.packet

theorem sound_punctual {id : Int} {text : String} {peer : Peer} (hid : Int32 id) (fits : Fits text)
    {answers : List Answer} (lengths : ∀ a ∈ answers, Int32 a.body.length)
    (h : peer.arrivals = punctual answers) : Sound id text peer := by
  refine ⟨hid, fits, fun _ body ok => ?_⟩
  have flat : arriving (punctual answers) = frames answers := by
    rw [arriving, punctual, List.flatMap_map]
    rfl
  have arrived : arriving peer.arrivals = frames answers := by rw [h, flat]
  have inOrder : arriving peer.arrivals <+: frames answers :=
    ⟨[], by rw [List.append_nil, arrived]⟩
  obtain ⟨a, later, -, rfl, -⟩ := frame_next lengths inOrder (Prod.ext ok rfl)
  rw [length_body]
  omega

theorem rcon_answers_in_turn : Entry.Along Entry.Owned [.ping, .command "tps"]
    (facing session (session.map some)) := by
  have lengths : ∀ a ∈ session, Int32 a.body.length := by decide +kernel
  have short : Fits "secret" ∧ Fits "list" ∧ Fits "tps" :=
    ⟨⟨by decide +kernel⟩, ⟨by decide +kernel⟩, ⟨by decide +kernel⟩⟩
  have listed : ((Entry.ping.after (facing session (session.map some))).socket.map fun p =>
      (p.arrivals, decide (p.asked = p.answered))) = some (punctual (session.drop 2), true) := by
    decide +kernel
  have ids : (Entry.ping.after (facing session (session.map some))).requestId = 3 := by
    decide +kernel
  apply rcon_answers (client_facing lengths (by decide +kernel))
  refine ⟨⟨⟨fun peer isOpen => (nomatch isOpen), fun _ peer dials dial => ?_⟩, fun _ peer isOpen => ?_⟩,
    ⟨fun safe => ⟨fun peer isOpen => ?_, fun closed => ?_⟩, fun _ peer isOpen _ => ?_⟩, trivial⟩
  · cases dial
    refine ⟨sound_punctual (by decide +kernel) short.1 lengths rfl, fun _ => ?_⟩
    have later : ∀ a ∈ session.drop 1, Int32 a.body.length := by decide +kernel
    exact sound_punctual (by decide +kernel) short.2.1 later (by decide +kernel)
  · cases isOpen
  · rw [isOpen] at listed
    have arrivals := congrArg Prod.fst (Option.some.inj listed)
    rw [ids]
    exact sound_punctual (by decide +kernel) short.2.2 (by decide +kernel) arrivals
  · rw [closed] at listed
    cases listed
  · rw [isOpen] at listed
    exact of_decide_eq_true (congrArg Prod.snd (Option.some.inj listed))

/-- The answer to `list` comes after its time is up, and `tps` is told it. -/
theorem late_answer_shifts : ¬∀ (s : State) (calls : List Entry), Client s →
    Entry.Along Entry.Owned calls s := by
  intro h
  have client : Client (facing session [some ⟨1, 2, []⟩, none, some ⟨2, 0, Utf8.encode "0"⟩,
      some ⟨3, 0, Utf8.encode "20"⟩]) := client_facing (by decide +kernel) (by decide +kernel)
  obtain ⟨-, ⟨own, -⟩, -⟩ := h _ [.command "list", .command "tps"] client
  obtain ⟨peer, answer, socket, ⟨-, -, last⟩, text⟩ := own "0" (by decide +kernel)
  have asked : ((call (command "tps") ((Entry.command "list").after (facing session [some ⟨1, 2, []⟩,
      none, some ⟨2, 0, Utf8.encode "0"⟩, some ⟨3, 0, Utf8.encode "20"⟩]))).2.socket.bind fun p =>
      p.answers[p.asked - 1]?) = some ⟨3, 0, Utf8.encode "20"⟩ := by decide +kernel
  rw [socket, Option.bind_some, last] at asked
  cases asked
  rw [Utf8.decode_encode] at text
  revert text
  decide

end McManager.Rcon
