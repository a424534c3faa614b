import N64NetLib.GameServer.Slots
import N64NetLib.Lib.Run
import N64NetLib.Realtime.Players
import N64NetLib.Udp.Handler

/-! # Who owns the slots of a game server?

`ClientConnectionThread` of the Tic Tac Toe server and of the Realtime server, any number of them: a client
that has sent nothing yet is a thread that has nothing in its queue. A step of a thread goes to the next
thing that the threads share, so that the capacity check, `ConnectPlayer` and `DisconnectPlayer` are steps
of their own, with everything that the other threads do in between. What the players' queues, the objects
of the game and the clock hold at a step comes with the step (`Input`), as does whether the socket takes
what is sent.

A slot is freed where a connected client times out or breaks the protocol. It is not freed where an S64
packet ends the thread, nor where the handshake ends before `CONNECTED` is set: a greeting that could not
be sent leaves the thread with a slot and unconnected. And the Realtime server takes the slot long after
it has looked for one. `owned_of_careful`: in the runs without these, every taken slot belongs to exactly
one live thread. -/

namespace N64NetLib.GameServer.ClientConnection

open N64NetLib.Lib.Run N64NetLib.Packet N64NetLib.Packet.Basic N64NetLib.Udp.Handler
open N64NetLib.GameServer.Slots
open N64NetLib.Realtime.Players (typeOf recipientsOf setSender maxPlayers)

/-! ### The two servers -/

inductive Server
  | ticTacToe
  | realtime
deriving DecidableEq

namespace Server

/-- The length of `players`. -/
def slots : Server → ℕ
  | ticTacToe => 2
  | realtime => maxPlayers

/-- `DisconnectPlayer`. -/
def disconnectPlayer (server : Server) (s : PlayerArray server.slots) (ply : Player) :
    PlayerArray server.slots :=
  match server with
  | ticTacToe => freeObject s ply
  | realtime => freeNumber s ply

/-- `PACKETID_SERVERFULL`. -/
def serverFull : Server → UInt8
  | ticTacToe => 4
  | realtime => 2

end Server

/-- `PACKETID_ACKBEAT`, `PACKETID_CLIENTCONNECT` of both servers, and the others of the handshake and the
objects of the Realtime server. -/
def ackbeat : UInt8 := 0

def clientConnect : UInt8 := 1

def clockSync : UInt8 := 3

def doneSync : UInt8 := 4

def clientInfo : UInt8 := 5

def objectCreate : UInt8 := 9

def discoverType : List Char := ['D', 'I', 'S', 'C', 'O', 'V', 'E', 'R']

/-! ### The thread -/

/-- The client states. The Tic Tac Toe server has no `CLIENTSTATE_CONNECTING`. -/
inductive ClientState
  | unconnected
  | connecting
  | connected
deriving DecidableEq

/-- Where the thread is: in front of the `poll` of its loop, of `CanConnectPlayer`, of `ConnectPlayer`, of
the packets that greet the new player, of the messages to the player, or of `DisconnectPlayer`. -/
inductive Stage
  | polling
  | checking
  | seating
  | greeting
  | messaging
  | leaving
  | ended
deriving DecidableEq

/-- `ClientConnectionThread`. -/
structure ClientConnectionThread where
  handler : UDPHandler
  msgqueue : List (List UInt8)
  clientstate : ClientState
  player : Option Player
  stage : Stage
deriving DecidableEq

/-- The constructor, and the beginning of `run`. -/
def newThread : ClientConnectionThread := ⟨newUDPHandler, [], .unconnected, none, .polling⟩

/-- A packet as `Player.SendMessage` makes it: a new one with type, data and flags, and the sender, 0 if that
is the server. -/
structure Message where
  type : UInt8
  data : List UInt8
  flags : UInt8
  sender : ℤ

def Message.pkt (m : Message) : AbstractPacket :=
  setSender m.sender (newNetLibPacket 0 m.type m.data m.flags)

/-- What a step gets from its surroundings. -/
structure Input where
  /-- For the packet that is read, and for what is sent or sent again. -/
  call : Call
  calls : ℕ → Call
  /-- The heartbeat is due. -/
  late : Bool
  /-- `ToByteArray_Client`, `Player.GetData`, the game time, and `GameObject.GetData` of the objects. -/
  answer : List UInt8
  info : List UInt8
  time : List UInt8
  objects : List (List UInt8)
  /-- A loop over what other threads change ends in an exception: over `players`, if a slot is empty, or over
  the objects, if some come or go. -/
  broken : Bool
  /-- What is in the queue of the player. -/
  messages : List Message

/-- The exceptions. -/
inductive Thrown
  | clientDisconnect
  | exn (e : Exn)
  /-- A `NullPointerException` or a `ConcurrentModificationException`. -/
  | runtime

namespace ClientConnectionThread

/-- The `catch` clauses: a client that is gone ends the thread, but first its player leaves if it is
connected; whatever else happens, the loop goes on. -/
def caught (t : ClientConnectionThread) : Thrown → ClientConnectionThread
  | .clientDisconnect | .exn .clientTimeout =>
    { t with stage := if t.clientstate = .connected then .leaving else .ended }
  | _ => { t with stage := .polling }

/-- The thread goes on, unless the last call threw. -/
def goOn (t : ClientConnectionThread) (exn : Option Exn) (stage : Stage) : ClientConnectionThread :=
  match exn with
  | none => { t with stage := stage }
  | some e => t.caught (.exn e)

/-- `SendPacket`. -/
def send (t : ClientConnectionThread) (call : Call) (pkt : AbstractPacket) :
    ClientConnectionThread × Option Exn :=
  let r := sendPacket .java call t.handler pkt
  ({ t with handler := r.handler }, r.exn)

/-- `SendPacket`, for one packet after the other. -/
def sendAll (calls : ℕ → Call) : ℕ → List AbstractPacket → ClientConnectionThread →
    ClientConnectionThread × Option Exn
  | _, [], t => (t, none)
  | i, pkt :: pkts, t =>
    match t.send (calls i) pkt with
    | (t', none) => sendAll calls (i + 1) pkts t'
    | (t', some e) => (t', some e)

/-- The payload that `S64Packet.ReadPacket` gives a packet of these bytes is `null`: its size field is not
positive. -/
def nullData (data : List UInt8) : Bool :=
  let typesize := (data.getD 11 0).toNat
  (Lib.BigEndian.ofBe16 (data.getD (12 + typesize) 0) (data.getD (13 + typesize) 0)).toInt ≤ 0

/-- `HandleS64Packets`, and the end of the thread behind it. The identifier of a `DISCOVER` must not be
`null`. -/
def handleS64Packets (t : ClientConnectionThread) (inp : Input) (null : Bool) : Option AbstractPacket →
    ClientConnectionThread
  | none => { t with stage := .ended }
  | some pkt =>
    if pkt.body = .s64 discoverType then
      if null then t.caught .runtime
      else
        let r := t.send (inp.calls 0) (newS64Packet 0 discoverType inp.answer flagUnreliable)
        r.1.goOn r.2 .ended
    else { t with stage := .ended }

/-- The cases of `HandleNetLibPackets` that the two servers share: a client that is not connected has to ask
for it, and what a connected one sends is passed on. -/
def handleUnconnected (t : ClientConnectionThread) (pkt : AbstractPacket) (next : Stage) :
    ClientConnectionThread :=
  if typeOf pkt ≠ clientConnect then t.caught .clientDisconnect else { t with stage := next }

def handleConnected (t : ClientConnectionThread) (inp : Input) (pkt : AbstractPacket) :
    ClientConnectionThread :=
  if recipientsOf pkt ≠ 0 ∧ inp.broken then t.caught .runtime else { t with stage := .messaging }

/-- `HandleNetLibPackets`, up to where it looks at the game. -/
def handleNetLibPackets (server : Server) (t : ClientConnectionThread) (inp : Input) :
    Option AbstractPacket → ClientConnectionThread
  | none => { t with stage := .messaging }
  | some pkt =>
    match server with
    | .ticTacToe =>
      match t.clientstate with
      | .unconnected => t.handleUnconnected pkt .seating
      | .connecting => { t with stage := .messaging }
      | .connected => t.handleConnected inp pkt
    | .realtime =>
      if typeOf pkt = ackbeat then { t with stage := .messaging }
      else
        match t.clientstate with
        | .unconnected => t.handleUnconnected pkt .checking
        | .connecting =>
          if typeOf pkt = clockSync then
            let r := t.send (inp.calls 0) (newNetLibPacket 0 clockSync inp.time 0)
            r.1.goOn r.2 .messaging
          else if typeOf pkt = doneSync then { t with stage := .seating }
          else t.caught .clientDisconnect
        | .connected => t.handleConnected inp pkt

/-- The `poll` of the loop and what follows it. -/
def poll (server : Server) (t : ClientConnectionThread) (inp : Input) : ClientConnectionThread :=
  match t.msgqueue with
  | [] =>
    let r := resendMissingPackets .java inp.calls t.handler
    let t := { t with handler := r.handler }
    match r.exn with
    | some e => t.caught (.exn e)
    | none =>
      if t.clientstate = .connected ∧ inp.late then
        let r := t.send inp.call (newNetLibPacket 0 ackbeat [] 0)
        r.1.goOn r.2 .messaging
      else { t with stage := .messaging }
  | data :: rest =>
    let t := { t with msgqueue := rest }
    if Java.checkCString data (packetHeader .s64) then
      let r := readPacket .java .s64 inp.call t.handler 0 0 data fun _ => 0
      let t := { t with handler := r.handler }
      match r.result with
      | .error e => t.caught (.exn e)
      | .ok pkt => t.handleS64Packets inp (nullData data) pkt
    else if Java.checkCString data (packetHeader .netlib) then
      let r := readPacket .java .netlib inp.call t.handler 0 0 data fun _ => 0
      let t := { t with handler := r.handler }
      match r.result with
      | .error e => t.caught (.exn e)
      | .ok pkt => t.handleNetLibPackets server inp pkt
    else { t with stage := .messaging }

/-- What comes of `CanConnectPlayer`. -/
def check (server : Server) (t : ClientConnectionThread) (inp : Input) (free : Bool) :
    ClientConnectionThread :=
  if free then
    match t.send inp.call (newNetLibPacket 0 clientConnect [] flagExplicitack) with
    | (t', none) => { t' with clientstate := .connecting, stage := .messaging }
    | (t', some e) => t'.caught (.exn e)
  else
    let r := t.send inp.call (newNetLibPacket 0 server.serverFull [] flagExplicitack)
    r.1.goOn r.2 .messaging

/-- What comes of `ConnectPlayer`: the Realtime server does not look whether there is a player. -/
def seat (server : Server) (t : ClientConnectionThread) (inp : Input) (ply : Option Player) :
    ClientConnectionThread :=
  let t := { t with player := ply }
  match server, ply with
  | .ticTacToe, none =>
    let r := t.send inp.call (newNetLibPacket 0 server.serverFull [] flagExplicitack)
    r.1.goOn r.2 .messaging
  | _, _ => { t with stage := .greeting }

/-- `AddRecipient`. -/
def addRecipient (ply : Player) (pkt : AbstractPacket) : AbstractPacket :=
  match pkt.body with
  | .netlib type recipients sender =>
    { pkt with body := .netlib type (recipients ||| Sequence.javaShiftOne (ply.number - 1)) sender }
  | .s64 _ => pkt

/-- The packets that greet the new player. -/
def greetings (server : Server) (inp : Input) (ply : Player) : List AbstractPacket :=
  match server with
  | .ticTacToe => [addRecipient ply (newNetLibPacket 0 clientConnect [UInt8.ofNat ply.number] 0)]
  | .realtime =>
    addRecipient ply (newNetLibPacket 0 clientInfo inp.info 0) ::
      inp.objects.map fun obj => addRecipient ply (newNetLibPacket 0 objectCreate obj 0)

/-- The rest of the handshake. -/
def greet (server : Server) (t : ClientConnectionThread) (inp : Input) : ClientConnectionThread :=
  match t.player with
  | none => t.caught .runtime
  | some ply =>
    match sendAll inp.calls 0 (greetings server inp ply) t with
    | (t', some e) => t'.caught (.exn e)
    | (t', none) =>
      if server = .realtime ∧ inp.broken then t'.caught .runtime
      else { t' with clientstate := .connected, stage := .messaging }

/-- The end of the loop: the messages to the player. -/
def message (t : ClientConnectionThread) (inp : Input) : ClientConnectionThread :=
  match t.player with
  | none => { t with stage := .polling }
  | some _ =>
    let r := sendAll inp.calls 0 (inp.messages.map Message.pkt) t
    r.1.goOn r.2 .polling

end ClientConnectionThread

/-! ### The server -/

/-- The players of the game, and the threads. -/
structure State (server : Server) where
  slots : PlayerArray server.slots
  threads : ℕ → ClientConnectionThread

variable {server : Server}

def init (server : Server) : State server := ⟨newPlayerArray _, fun _ => newThread⟩

/-- A datagram is put into the queue of a thread, or a thread goes on. -/
inductive Label
  | arrive (i : ℕ) (data : List UInt8)
  | work (i : ℕ) (inp : Input)

/-- The state with another thread. -/
def State.set (s : State server) (i : ℕ) (t : ClientConnectionThread) : State server :=
  { s with threads := Function.update s.threads i t }

/-- The thread goes on to the next thing that the threads share. -/
def work (s : State server) (i : ℕ) (inp : Input) : State server :=
  let t := s.threads i
  match t.stage with
  | .polling => s.set i (t.poll server inp)
  | .checking => s.set i (t.check server inp (canConnectPlayer s.slots))
  | .seating =>
    let r := connectPlayer s.slots
    { s.set i (t.seat server inp r.1) with slots := r.2 }
  | .greeting => s.set i (t.greet server inp)
  | .messaging => s.set i (t.message inp)
  | .leaving =>
    { s.set i { t with stage := .ended } with
      slots :=
        match t.player with
        | none => s.slots
        | some ply => server.disconnectPlayer s.slots ply }
  | .ended => s

/-- One step. -/
def step (s : State server) : Label → Option (State server)
  | .arrive i data =>
    some (s.set i { s.threads i with msgqueue := (s.threads i).msgqueue ++ [data] })
  | .work i inp => if (s.threads i).stage = .ended then none else some (work s i inp)

/-! ### Who owns what -/

/-- A thread that has not ended has its player in the slot. -/
def Owns (s : State server) (i : ℕ) (k : Fin server.slots) : Prop :=
  (s.threads i).stage ≠ .ended ∧ ∃ ply, (s.threads i).player = some ply ∧ s.slots.players k = some ply

/-- **The slots are owned by live connections.** -/
structure Owned (s : State server) : Prop where
  /-- A thread in the state `CONNECTED` has exactly one slot. -/
  connected : ∀ i, (s.threads i).stage ≠ .ended → (s.threads i).clientstate = .connected →
    ∃! k, Owns s i k
  /-- No two threads have the same one. -/
  apart : ∀ i j k, Owns s i k → Owns s j k → i = j
  /-- A client that was admitted gets one when its handshake completes. -/
  admitted : ∀ i, (s.threads i).stage = .greeting → ∃ k, Owns s i k
  /-- Whoever has ended has freed theirs: the slots that are taken are those of live threads. -/
  freed : ∀ k, (s.slots.players k).isSome → ∃ i, Owns s i k

/-- The datagram is an S64 packet. -/
def isS64Packet (data : List UInt8) : Bool :=
  Java.checkCString data (packetHeader .s64) && (Lang.java.decode .s64 data fun _ => 0).toBool

/-- The datagram is no NetLib packet, or one that a Realtime client may send between the handshake's
steps. -/
def isIdle (server : Server) (data : List UInt8) : Bool :=
  match Lang.java.decode .netlib data fun _ => 0 with
  | .ok (some pkt) => server = .realtime && (typeOf pkt = ackbeat || typeOf pkt = clockSync)
  | _ => true

/-- A thread that has a player takes no S64 packet; if it is not connected (its greeting failed) it takes
no further step of the handshake either, and nothing it waits for runs out of attempts. -/
def PollsCarefully (server : Server) (t : ClientConnectionThread) : Prop :=
  t.player.isSome →
    match t.msgqueue with
    | [] => t.clientstate ≠ .connected → ∀ pkt ∈ t.handler.acksleftTx,
        Lang.java.updateSendAttempt pkt.attempts ≤ maxResend
    | data :: _ => isS64Packet data = false ∧ (t.clientstate ≠ .connected → isIdle server data = true)

/-- A thread that has a player polls carefully, and whenever the Realtime server gives a slot there is
one. -/
def WorksCarefully (s : State server) (i : ℕ) : Prop :=
  match (s.threads i).stage with
  | .polling => PollsCarefully server (s.threads i)
  | .seating => server = .realtime → canConnectPlayer s.slots = true
  | _ => True

/-- What a step needs. -/
def Careful (s : State server) : Label → Prop
  | .arrive .. => True
  | .work i _ => WorksCarefully s i

instance decidablePollsCarefully (server : Server) (t : ClientConnectionThread) :
    Decidable (PollsCarefully server t) := by
  unfold PollsCarefully
  cases t.msgqueue <;> infer_instance

instance decidableWorksCarefully (s : State server) (i : ℕ) : Decidable (WorksCarefully s i) := by
  unfold WorksCarefully
  cases (s.threads i).stage <;> infer_instance

instance decidableCareful (s : State server) : ∀ a, Decidable (Careful s a)
  | .arrive .. => isTrue trivial
  | .work i _ => decidableWorksCarefully s i

/-! ### What times out -/

theorem getBytes_error {pkt : AbstractPacket} {e : Exn} (h : Lang.java.getBytes pkt = .error e) :
    e = .bufferOverflow := by
  rw [Lang.getBytes, Java.getBytes] at h
  split_ifs at h
  exact (Except.error.inj h).symm

/-- Only a packet that was sent too often times out. -/
theorem sendPacket_ne_timeout (call : Call) (h : UDPHandler) {pkt : AbstractPacket}
    (hpkt : Lang.java.updateSendAttempt pkt.attempts ≤ maxResend) :
    (sendPacket .java call h pkt).exn ≠ some .clientTimeout := by
  intro hexn
  rcases sendPacket_exn_cases hexn with ⟨-, hmax⟩ | ⟨p, hbytes⟩ | he
  · omega
  · cases getBytes_error hbytes
  · cases he

theorem sendPacket_new_ne_timeout (call : Call) (h : UDPHandler) {pkt : AbstractPacket}
    (hpkt : pkt.attempts = 0) : (sendPacket .java call h pkt).exn ≠ some .clientTimeout := by
  refine sendPacket_ne_timeout call h ?_
  rw [hpkt, Lang.updateSendAttempt_zero]
  decide

theorem resendMissingPackets_ne_timeout (calls : ℕ → Call) {h : UDPHandler}
    (htx : ∀ pkt ∈ h.acksleftTx, Lang.java.updateSendAttempt pkt.attempts ≤ maxResend) :
    (resendMissingPackets .java calls h).exn ≠ some .clientTimeout := by
  intro hexn
  rcases resendLoop_exn_cases hexn with he | ⟨pkt, hpkt, call, h', hsend⟩
  · cases he
  · exact sendPacket_ne_timeout call h' (htx pkt hpkt) hsend

theorem decode_ne_timeout {k : Kind} {data : List UInt8} {junk : ℕ → UInt8} :
    Lang.java.decode k data junk ≠ .error .clientTimeout := by
  intro hdecode
  rw [Lang.decode, Java.decode] at hdecode
  split_ifs at hdecode
  cases k with
  | netlib =>
    rw [Java.readPacket, Java.netLibReadPacket_eq] at hdecode
    split_ifs at hdecode <;> cases hdecode
  | s64 =>
    rw [Java.readPacket, Java.s64ReadPacket_eq] at hdecode
    split_ifs at hdecode <;> cases hdecode

/-- Reading never times out: what it sends is new. -/
theorem readPacket_ne_timeout {k : Kind} {call : Call} {h : UDPHandler} {ref ackref : ℕ}
    {data : List UInt8} {junk : ℕ → UInt8} :
    (readPacket .java k call h ref ackref data junk).result ≠ .error .clientTimeout := by
  intro hresult
  rcases readPacket_error_cases hresult with hdecode | ⟨h', hsend⟩
  · exact decode_ne_timeout hdecode
  · have hnew : (newAckbeat ackref k).attempts = 0 := by cases k <;> rfl
    exact sendPacket_new_ne_timeout call h' hnew hsend

/-! ### What a step does to a thread -/

/-- A connected client has a player, and one of the Realtime server that has a player was let in. -/
structure Steady (server : Server) (t : ClientConnectionThread) : Prop where
  connected : t.clientstate = .connected → t.player.isSome
  realtime : server = .realtime → t.player.isSome → t.clientstate ≠ .unconnected

/-- What is known at the stages. -/
structure Settled (server : Server) (t : ClientConnectionThread) : Prop extends Steady server t where
  seating : t.stage = .seating →
    t.player = none ∧ (server = .realtime → t.clientstate ≠ .unconnected)
  greeting : t.stage = .greeting → t.player.isSome
  leaving : t.stage = .leaving → t.player.isSome

/-- The thread `t` has become `t'`: it has the player it had, and has not ended with one. -/
structure Kept (server : Server) (t t' : ClientConnectionThread) : Prop where
  player : t'.player = t.player
  settled : Settled server t'
  ended : t'.stage = .ended → t.player = none

section Kept

variable {t : ClientConnectionThread}

/-- The thread goes to a stage at which nothing is known. -/
theorem kept_goto (ht : Steady server t) {stage : Stage} (h1 : stage ≠ .seating) (h2 : stage ≠ .greeting)
    (h3 : stage ≠ .leaving) (h4 : stage = .ended → t.player = none) :
    Kept server t { t with stage := stage } :=
  ⟨rfl, ⟨⟨ht.connected, ht.realtime⟩, fun h => absurd h h1, fun h => absurd h h2, fun h => absurd h h3⟩, h4⟩

theorem kept_polling (ht : Steady server t) : Kept server t { t with stage := .polling } :=
  kept_goto ht (by simp) (by simp) (by simp) (by simp)

theorem kept_messaging (ht : Steady server t) : Kept server t { t with stage := .messaging } :=
  kept_goto ht (by simp) (by simp) (by simp) (by simp)

theorem kept_messaging_handler (ht : Steady server t) (h : UDPHandler) :
    Kept server t { t with handler := h, stage := .messaging } :=
  ⟨rfl, ⟨⟨ht.connected, ht.realtime⟩, by simp, by simp, by simp⟩, by simp⟩

/-- The thread goes to where its player leaves, or ends without one. -/
theorem kept_gone (ht : Steady server t) (h : t.clientstate = .connected ∨ t.player = none) :
    Kept server t { t with stage := if t.clientstate = .connected then .leaving else .ended } := by
  by_cases hc : t.clientstate = .connected
  · rw [if_pos hc]
    exact ⟨rfl, ⟨⟨ht.connected, ht.realtime⟩, by simp, by simp, fun _ => ht.connected hc⟩, by simp⟩
  · rw [if_neg hc]
    exact kept_goto ht (by simp) (by simp) (by simp) fun _ => h.resolve_left hc

theorem kept_caught (ht : Steady server t) {e : Thrown}
    (h : e = .clientDisconnect ∨ e = .exn .clientTimeout →
      t.clientstate = .connected ∨ t.player = none) : Kept server t (t.caught e) := by
  unfold ClientConnectionThread.caught
  split
  · exact kept_gone ht (h (Or.inl rfl))
  · exact kept_gone ht (h (Or.inr rfl))
  · exact kept_polling ht

/-- An exception that is no timeout. -/
theorem kept_caught_exn (ht : Steady server t) {e : Exn} (he : e ≠ .clientTimeout) :
    Kept server t (t.caught (.exn e)) := by
  refine kept_caught ht fun h => ?_
  rcases h with h | h
  · cases h
  · exact absurd (Thrown.exn.inj h) he

/-- A read that fails does not end the thread with a timeout. -/
theorem kept_read_error (ht : Steady server t) {k : Kind} {call : Call} {h : UDPHandler}
    {ref ackref : ℕ} {data : List UInt8} {junk : ℕ → UInt8} {e : Exn}
    (hresult : (readPacket .java k call h ref ackref data junk).result = .error e) :
    Kept server t (t.caught (.exn e)) :=
  kept_caught_exn ht fun he => readPacket_ne_timeout (he ▸ hresult)

theorem kept_goOn (ht : Steady server t) {exn : Option Exn} (hexn : exn ≠ some .clientTimeout)
    {stage : Stage} (hstage : exn = none → Kept server t { t with stage := stage }) :
    Kept server t (t.goOn exn stage) := by
  cases exn with
  | none => exact hstage rfl
  | some e => exact kept_caught_exn ht fun he => hexn (by rw [he])

/-- Only the handler differs. -/
theorem Steady.handler (ht : Steady server t) (h : UDPHandler) :
    Steady server { t with handler := h } := ⟨ht.connected, ht.realtime⟩

/-- Sending a new packet changes the handler only, and does not time out. -/
theorem send_cases {t' : ClientConnectionThread} {call : Call} {pkt : AbstractPacket} {exn : Option Exn}
    (hpkt : pkt.attempts = 0) (hsend : t.send call pkt = (t', exn)) :
    (∃ h, t' = { t with handler := h }) ∧ exn ≠ some .clientTimeout := by
  rw [ClientConnectionThread.send, Prod.mk.injEq] at hsend
  obtain ⟨rfl, rfl⟩ := hsend
  exact ⟨⟨_, rfl⟩, sendPacket_new_ne_timeout call t.handler hpkt⟩

/-- Sending new packets changes the handler only, and does not time out. -/
theorem sendAll_kept (calls : ℕ → Call) : ∀ {pkts : List AbstractPacket} (i : ℕ)
    (t : ClientConnectionThread), (∀ pkt ∈ pkts, pkt.attempts = 0) →
    (∃ h, (ClientConnectionThread.sendAll calls i pkts t).1 = { t with handler := h }) ∧
      (ClientConnectionThread.sendAll calls i pkts t).2 ≠ some .clientTimeout
  | [], _, t, _ => ⟨⟨t.handler, rfl⟩, by simp [ClientConnectionThread.sendAll]⟩
  | pkt :: pkts, i, t, hnew => by
    unfold ClientConnectionThread.sendAll
    split
    · next t' hsend =>
      obtain ⟨⟨h', rfl⟩, -⟩ := send_cases (hnew pkt (by simp)) hsend
      exact sendAll_kept calls (i + 1) { t with handler := h' } fun pkt hpkt =>
        hnew pkt (List.mem_cons_of_mem _ hpkt)
    · next t' e hsend => exact send_cases (hnew pkt (by simp)) hsend

theorem Kept.of_eq {t₁ t' : ClientConnectionThread} (h : Kept server t₁ t') (hp : t₁.player = t.player) :
    Kept server t t' :=
  ⟨h.player.trans hp, h.settled, fun he => hp ▸ h.ended he⟩

/-- A new packet is sent. -/
theorem kept_send (ht : Steady server t) (call : Call) {pkt : AbstractPacket} (hpkt : pkt.attempts = 0)
    {stage : Stage} (hstage : ∀ h, Kept server t { t with handler := h, stage := stage }) :
    Kept server t ((t.send call pkt).1.goOn (t.send call pkt).2 stage) := by
  have hgo := hstage (t.send call pkt).1.handler
  refine Kept.of_eq (kept_goOn (t := (t.send call pkt).1) (ht.handler _)
    (sendPacket_new_ne_timeout call t.handler hpkt) fun _ => ?_) rfl
  exact ⟨rfl, hgo.settled, hgo.ended⟩

/-! ### Stage by stage -/

theorem kept_handleConnected (ht : Steady server t) (inp : Input) (pkt : AbstractPacket) :
    Kept server t (t.handleConnected inp pkt) := by
  unfold ClientConnectionThread.handleConnected
  split_ifs
  · exact kept_caught ht (by simp)
  · exact kept_messaging ht

theorem kept_handleUnconnected (ht : Steady server t) (hno : t.player = none) (pkt : AbstractPacket)
    {next : Stage} (hnext : Kept server t { t with stage := next }) :
    Kept server t (t.handleUnconnected pkt next) := by
  unfold ClientConnectionThread.handleUnconnected
  split_ifs
  · exact kept_caught ht fun _ => Or.inr hno
  · exact hnext

/-- The packets of the handshake only go to threads that have no player. -/
theorem kept_handleNetLibPackets (ht : Steady server t) (inp : Input) {pkt : Option AbstractPacket}
    (hidle : t.player.isSome → t.clientstate ≠ .connected →
      ∀ p ∈ pkt, server = .realtime ∧ (typeOf p = ackbeat ∨ typeOf p = clockSync)) :
    Kept server t (t.handleNetLibPackets server inp pkt) := by
  unfold ClientConnectionThread.handleNetLibPackets
  cases pkt with
  | none => exact kept_messaging ht
  | some p =>
    have hnone : ¬ (server = .realtime ∧ (typeOf p = ackbeat ∨ typeOf p = clockSync)) →
        t.clientstate ≠ .connected → t.player = none := by
      intro hbusy hc
      by_contra hsome
      exact hbusy (hidle (Option.isSome_iff_ne_none.mpr hsome) hc p rfl)
    cases server with
    | ticTacToe =>
      dsimp only
      split
      · next hstate =>
        have hno := hnone (by simp) (by rw [hstate]; simp)
        exact kept_handleUnconnected ht hno p ⟨rfl, ⟨⟨ht.connected, ht.realtime⟩,
          fun _ => ⟨hno, by simp⟩, by simp, by simp⟩, by simp⟩
      · exact kept_messaging ht
      · exact kept_handleConnected ht inp p
    | realtime =>
      by_cases hack : typeOf p = ackbeat
      · simp only [if_pos hack]
        exact kept_messaging ht
      simp only [if_neg hack]
      split
      · next hstate =>
        have hno : t.player = none := by
          by_contra hsome
          exact ht.realtime rfl (Option.isSome_iff_ne_none.mpr hsome) hstate
        exact kept_handleUnconnected ht hno p (kept_goto ht (by simp) (by simp) (by simp) (by simp))
      · next hstate =>
        split_ifs with hclock hdone
        · exact kept_send ht _ rfl (kept_messaging_handler ht)
        · have hno := hnone (by simp [hack, hclock]) (by rw [hstate]; simp)
          exact ⟨rfl, ⟨⟨ht.connected, ht.realtime⟩,
            fun _ => ⟨hno, fun _ => by show t.clientstate ≠ _; rw [hstate]; simp⟩, by simp, by simp⟩, by simp⟩
        · exact kept_caught ht fun _ => Or.inr (hnone (by simp [hack, hclock]) (by rw [hstate]; simp))
      · exact kept_handleConnected ht inp p

theorem kept_handleS64Packets (ht : Steady server t) (hno : t.player = none) (inp : Input) (null : Bool)
    (pkt : Option AbstractPacket) : Kept server t (t.handleS64Packets inp null pkt) := by
  have hended : ∀ h, Kept server t { t with handler := h, stage := .ended } := fun h =>
    ⟨rfl, ⟨⟨ht.connected, ht.realtime⟩, by simp, by simp, by simp⟩, fun _ => hno⟩
  unfold ClientConnectionThread.handleS64Packets
  split
  · exact hended t.handler
  · split_ifs
    · exact kept_caught ht fun _ => Or.inr hno
    · exact kept_send ht _ rfl hended
    · exact hended t.handler

theorem kept_check (ht : Steady server t) (inp : Input) (free : Bool) :
    Kept server t (t.check server inp free) := by
  unfold ClientConnectionThread.check
  split_ifs
  · split
    · next t' hsend =>
      obtain ⟨⟨h, rfl⟩, -⟩ := send_cases rfl hsend
      exact ⟨rfl, ⟨⟨by simp, by simp⟩, by simp, by simp, by simp⟩, by simp⟩
    · next t' e hsend =>
      obtain ⟨⟨h, rfl⟩, hno⟩ := send_cases rfl hsend
      exact (kept_caught_exn (ht.handler h) fun he => hno (by rw [he])).of_eq rfl
  · exact kept_send ht _ rfl (kept_messaging_handler ht)

theorem attempts_addRecipient (ply : Player) (pkt : AbstractPacket) :
    (ClientConnectionThread.addRecipient ply pkt).attempts = pkt.attempts := by
  unfold ClientConnectionThread.addRecipient
  split <;> rfl

theorem attempts_greetings (server : Server) (inp : Input) (ply : Player) :
    ∀ pkt ∈ ClientConnectionThread.greetings server inp ply, pkt.attempts = 0 := by
  intro pkt hpkt
  cases server with
  | ticTacToe =>
    obtain rfl := List.mem_singleton.mp hpkt
    rw [attempts_addRecipient]
    rfl
  | realtime =>
    rcases List.mem_cons.mp hpkt with rfl | hpkt
    · rw [attempts_addRecipient]
      rfl
    · obtain ⟨obj, -, rfl⟩ := List.mem_map.mp hpkt
      rw [attempts_addRecipient]
      rfl

theorem kept_greet (ht : Steady server t) (hsome : t.player.isSome) (inp : Input) :
    Kept server t (t.greet server inp) := by
  unfold ClientConnectionThread.greet
  split
  · exact kept_caught ht (by simp)
  · next ply _ =>
    obtain ⟨⟨h, hh⟩, hno⟩ := sendAll_kept inp.calls 0 t (attempts_greetings server inp ply)
    split
    · next t' e hexn =>
      rw [hexn] at hh hno
      rw [show t' = { t with handler := h } from hh]
      exact (kept_caught_exn (ht.handler h) fun he => hno (by rw [he])).of_eq rfl
    · next t' hexn =>
      rw [hexn] at hh
      rw [show t' = { t with handler := h } from hh]
      split_ifs
      · exact (kept_caught (ht.handler h) (by simp)).of_eq rfl
      · exact ⟨rfl, ⟨⟨fun _ => hsome, by simp⟩, by simp, by simp, by simp⟩, by simp⟩

theorem kept_message (ht : Steady server t) (inp : Input) : Kept server t (t.message inp) := by
  unfold ClientConnectionThread.message
  split
  · exact kept_polling ht
  · have hnew : ∀ pkt ∈ inp.messages.map Message.pkt, pkt.attempts = 0 := by
      intro pkt hpkt
      obtain ⟨m, -, rfl⟩ := List.mem_map.mp hpkt
      rfl
    obtain ⟨⟨h, hh⟩, hno⟩ := sendAll_kept inp.calls 0 t hnew
    dsimp only
    rw [hh]
    exact (kept_goOn (ht.handler h) hno fun _ => kept_polling (ht.handler h)).of_eq rfl

theorem kept_poll (ht : Steady server t) (hpolls : PollsCarefully server t) (inp : Input) :
    Kept server t (t.poll server inp) := by
  have hread : ∀ h q, Steady server ⟨h, q, t.clientstate, t.player, t.stage⟩ := fun _ _ =>
    ⟨ht.connected, ht.realtime⟩
  unfold ClientConnectionThread.poll
  cases hqueue : t.msgqueue with
  | nil =>
    have htimeout : t.clientstate = .connected ∨ t.player = none ∨
        (resendMissingPackets .java inp.calls t.handler).exn ≠ some .clientTimeout := by
      by_cases hc : t.clientstate = .connected
      · exact Or.inl hc
      by_cases hno : t.player = none
      · exact Or.inr (Or.inl hno)
      have hattempts := hpolls (Option.isSome_iff_ne_none.mpr hno)
      rw [hqueue] at hattempts
      exact Or.inr (Or.inr (resendMissingPackets_ne_timeout inp.calls (hattempts hc)))
    dsimp only
    split
    · next e hexn =>
      refine (kept_caught (hread _ _) fun he => ?_).of_eq rfl
      rcases htimeout with hc | hno | hne
      · exact Or.inl hc
      · exact Or.inr hno
      · rcases he with he | he
        · cases he
        · rw [hexn, Thrown.exn.inj he] at hne
          exact absurd rfl hne
    · split_ifs
      · exact (kept_send (hread _ _) _ rfl (kept_messaging_handler (hread _ _))).of_eq rfl
      · exact (kept_messaging (hread _ _)).of_eq rfl
  | cons data rest =>
    have hdata : t.player.isSome →
        isS64Packet data = false ∧ (t.clientstate ≠ .connected → isIdle server data = true) := by
      intro hsome
      have h := hpolls hsome
      rwa [hqueue] at h
    dsimp only
    split_ifs with hs64 hnetlib
    · split
      · next e hresult =>
        exact (kept_read_error (hread _ _) hresult).of_eq rfl
      · next pkt hresult =>
        -- only what can be decoded is read
        have hno : t.player = none := by
          by_contra hsome
          obtain ⟨hone, -⟩ := hdata (Option.isSome_iff_ne_none.mpr hsome)
          rw [isS64Packet, hs64, Bool.true_and] at hone
          cases hdecode : Lang.java.decode .s64 data fun _ => 0 with
          | ok q => rw [hdecode] at hone; cases hone
          | error e =>
            simp only [readPacket, hdecode] at hresult
            cases hresult
        refine Kept.of_eq (kept_handleS64Packets (hread _ _) ?_ inp _ pkt) rfl
        exact hno
    · split
      · next e hresult =>
        exact (kept_read_error (hread _ _) hresult).of_eq rfl
      · next pkt hresult =>
        refine (kept_handleNetLibPackets (hread _ _) inp fun hsome hc p hp => ?_).of_eq rfl
        obtain ⟨-, hidle⟩ := hdata hsome
        have hidle := hidle hc
        rw [Option.mem_def.mp hp] at hresult
        unfold isIdle at hidle
        cases hdecode : Lang.java.decode .netlib data fun _ => 0 with
        | error e => simp only [readPacket, hdecode] at hresult; cases hresult
        | ok o =>
          cases o with
          | none => simp only [readPacket, hdecode] at hresult; cases hresult
          | some q =>
            rw [hdecode] at hidle
            have htype : typeOf { q with ref := 0 } = typeOf q := rfl
            rw [readPacket_result hdecode hresult, htype]
            simpa only [Bool.and_eq_true, Bool.or_eq_true, decide_eq_true_eq] using hidle
    · exact (kept_messaging (t := { t with msgqueue := rest }) (hread _ _)).of_eq rfl

/-- A client that finds the Tic Tac Toe server full. -/
theorem kept_seat_none (ht : Steady server t) (hno : t.player = none) (hserver : server = .ticTacToe)
    (inp : Input) : Kept server t (t.seat server inp none) := by
  subst hserver
  have ht' : Steady .ticTacToe { t with player := none } :=
    ⟨fun hc => absurd (ht.connected hc) (by simp [hno]), by simp⟩
  have hnew : (newNetLibPacket 0 Server.ticTacToe.serverFull [] flagExplicitack).attempts = 0 := rfl
  exact (kept_send ht' inp.call hnew (kept_messaging_handler ht')).of_eq hno.symm

/-- A client that gets a slot. -/
theorem seat_some (t : ClientConnectionThread) (inp : Input) (ply : Player) :
    t.seat server inp (some ply) = { t with player := some ply, stage := .greeting } := by
  unfold ClientConnectionThread.seat
  split <;> simp_all

end Kept

/-! ### The invariant -/

/-- **The invariant**: the live threads that have a player and the slots that are taken are in
correspondence, by the player. -/
structure Inv (s : State server) : Prop where
  settled : ∀ i, Settled server (s.threads i)
  held : ∀ i ply, (s.threads i).stage ≠ .ended → (s.threads i).player = some ply →
    ∃ k, s.slots.players k = some ply
  apart : ∀ i j ply, (s.threads i).stage ≠ .ended → (s.threads j).stage ≠ .ended →
    (s.threads i).player = some ply → (s.threads j).player = some ply → i = j
  owned : ∀ k ply, s.slots.players k = some ply →
    ∃ i, (s.threads i).stage ≠ .ended ∧ (s.threads i).player = some ply

theorem inv_init (server : Server) : Inv (init server) := by
  refine ⟨fun i => ⟨⟨?_, ?_⟩, ?_, ?_, ?_⟩, ?_, ?_, ?_⟩ <;> simp [init, newThread, newPlayerArray]

/-- **The slots are owned by live connections** whenever the invariant holds. -/
theorem Inv.isOwned {s : State server} (hs : Inv s) : Owned s := by
  have howns : ∀ i, (s.threads i).stage ≠ .ended → (s.threads i).player.isSome → ∃ k, Owns s i k := by
    intro i hlive hsome
    obtain ⟨ply, hply⟩ := Option.isSome_iff_exists.mp hsome
    obtain ⟨k, hk⟩ := hs.held i ply hlive hply
    exact ⟨k, hlive, ply, hply, hk⟩
  refine ⟨fun i hlive hc => ?_, ?_, fun i hgreet => ?_, fun k hk => ?_⟩
  · obtain ⟨k, hk⟩ := howns i hlive ((hs.settled i).connected hc)
    refine ⟨k, hk, fun j hj => ?_⟩
    obtain ⟨-, p, hp, hpk⟩ := hk
    obtain ⟨-, q, hq, hqj⟩ := hj
    obtain rfl : p = q := Option.some.inj (hp.symm.trans hq)
    exact PlayerArray.inj hqj hpk
  · rintro i j k ⟨hi, p, hp, hpk⟩ ⟨hj, q, hq, hqk⟩
    obtain rfl : p = q := Option.some.inj (hpk.symm.trans hqk)
    exact hs.apart i j p hi hj hp hq
  · exact howns i (by rw [hgreet]; simp) ((hs.settled i).greeting hgreet)
  · obtain ⟨ply, hply⟩ := Option.isSome_iff_exists.mp hk
    obtain ⟨i, hlive, hi⟩ := hs.owned k ply hply
    exact ⟨i, hlive, ply, hi, hply⟩

theorem set_self (s : State server) (i : ℕ) (t : ClientConnectionThread) :
    (s.set i t).threads i = t := Function.update_self ..

theorem set_of_ne (s : State server) {i j : ℕ} (h : j ≠ i) (t : ClientConnectionThread) :
    (s.set i t).threads j = s.threads j := Function.update_of_ne h ..

/-- A thread that keeps its player, and does not end with one, keeps the invariant. -/
theorem Inv.set {s : State server} (hs : Inv s) {i : ℕ} {t : ClientConnectionThread}
    (hplayer : t.player = (s.threads i).player) (hsettled : Settled server t)
    (hback : (s.threads i).stage = .ended → t.stage = .ended)
    (hend : t.stage = .ended → (s.threads i).stage = .ended ∨ (s.threads i).player = none) :
    Inv (s.set i t) := by
  -- whoever is live with a player now was so before
  have hbefore : ∀ j ply, ((s.set i t).threads j).stage ≠ .ended →
      ((s.set i t).threads j).player = some ply →
      (s.threads j).stage ≠ .ended ∧ (s.threads j).player = some ply := by
    intro j ply hj hply
    by_cases hji : j = i
    · rw [hji, set_self] at hj
      rw [hji, set_self, hplayer] at hply
      rw [hji]
      exact ⟨fun h => hj (hback h), hply⟩
    · rw [set_of_ne s hji] at hj hply
      exact ⟨hj, hply⟩
  refine ⟨fun j => ?_, fun j ply hj hply => ?_, fun j k ply hj hk hp hq => ?_, fun k ply hk => ?_⟩
  · by_cases hji : j = i
    · rw [hji, set_self]
      exact hsettled
    · rw [set_of_ne s hji]
      exact hs.settled j
  · obtain ⟨hj', hply'⟩ := hbefore j ply hj hply
    exact hs.held j ply hj' hply'
  · obtain ⟨hj', hp'⟩ := hbefore j ply hj hp
    obtain ⟨hk', hq'⟩ := hbefore k ply hk hq
    exact hs.apart j k ply hj' hk' hp' hq'
  · obtain ⟨j, hj, hply⟩ := hs.owned k ply hk
    refine ⟨j, ?_⟩
    by_cases hji : j = i
    · rw [hji] at hj hply
      rw [hji, set_self, hplayer]
      refine ⟨fun h => ?_, hply⟩
      rcases hend h with hold | hno
      · exact hj hold
      · rw [hno] at hply
        cases hply
    · rw [set_of_ne s hji]
      exact ⟨hj, hply⟩

theorem Inv.set_kept {s : State server} (hs : Inv s) {i : ℕ} {t : ClientConnectionThread}
    (hlive : (s.threads i).stage ≠ .ended) (ht : Kept server (s.threads i) t) : Inv (s.set i t) :=
  hs.set ht.player ht.settled (fun h => absurd h hlive) fun h => Or.inr (ht.ended h)

/-- A thread takes a slot. -/
theorem inv_seated {s : State server} (hs : Inv s) {i : ℕ} (hno : (s.threads i).player = none)
    {k : Fin server.slots} (hk : s.slots.players k = none) {t : ClientConnectionThread}
    (hplayer : t.player = some ⟨s.slots.made, k.val + 1⟩) (hsettled : Settled server t)
    (ht : t.stage ≠ .ended) : Inv { s.set i t with slots := s.slots.fill k } := by
  -- nobody has the new object yet
  have hfresh : ∀ j, (s.threads j).stage ≠ .ended →
      (s.threads j).player ≠ some ⟨s.slots.made, k.val + 1⟩ := by
    intro j hj hply
    obtain ⟨l, hl⟩ := hs.held j _ hj hply
    exact lt_irrefl _ (s.slots.known l _ hl)
  refine ⟨fun j => ?_, fun j ply hj hply => ?_, fun j l ply hj hl hp hq => ?_, fun l ply hl => ?_⟩
  · by_cases hji : j = i
    · rw [hji]
      exact (set_self s i t).symm ▸ hsettled
    · exact (set_of_ne s hji t).symm ▸ hs.settled j
  · change ((s.set i t).threads j).stage ≠ _ at hj
    change ((s.set i t).threads j).player = _ at hply
    show ∃ l, (s.slots.fill k).players l = some ply
    by_cases hji : j = i
    · rw [hji, set_self, hplayer] at hply
      exact ⟨k, by rw [fill_players, Function.update_self, ← hply]⟩
    · rw [set_of_ne s hji] at hj hply
      obtain ⟨l, hl⟩ := hs.held j ply hj hply
      have hlk : l ≠ k := fun h => by rw [h, hk] at hl; cases hl
      exact ⟨l, by rw [fill_players, Function.update_of_ne hlk, hl]⟩
  · change ((s.set i t).threads j).stage ≠ _ at hj
    change ((s.set i t).threads l).stage ≠ _ at hl
    change ((s.set i t).threads j).player = _ at hp
    change ((s.set i t).threads l).player = _ at hq
    by_cases hji : j = i <;> by_cases hli : l = i
    · rw [hji, hli]
    · rw [hji, set_self, hplayer] at hp
      rw [set_of_ne s hli] at hl hq
      exact absurd (hq.trans hp.symm) (hfresh l hl)
    · rw [hli, set_self, hplayer] at hq
      rw [set_of_ne s hji] at hj hp
      exact absurd (hp.trans hq.symm) (hfresh j hj)
    · rw [set_of_ne s hji] at hj hp
      rw [set_of_ne s hli] at hl hq
      exact hs.apart j l ply hj hl hp hq
  · change (s.slots.fill k).players l = _ at hl
    show ∃ j, ((s.set i t).threads j).stage ≠ _ ∧ ((s.set i t).threads j).player = _
    by_cases hlk : l = k
    · rw [hlk, fill_players, Function.update_self] at hl
      exact ⟨i, by rw [set_self]; exact ⟨ht, hplayer.trans hl⟩⟩
    · rw [fill_players, Function.update_of_ne hlk] at hl
      obtain ⟨j, hj, hply⟩ := hs.owned l ply hl
      have hji : j ≠ i := fun h => by rw [h, hno] at hply; cases hply
      exact ⟨j, by rw [set_of_ne s hji]; exact ⟨hj, hply⟩⟩

/-- A thread ends, and its slot is freed. -/
theorem inv_left {s : State server} (hs : Inv s) {i : ℕ} (hlive : (s.threads i).stage ≠ .ended)
    {k : Fin server.slots} {ply : Player} (hk : s.slots.players k = some ply)
    (hply : (s.threads i).player = some ply) :
    Inv { s.set i { s.threads i with stage := .ended } with slots := s.slots.free k } := by
  -- the threads that are still live are not this one
  have hothers : ∀ j, ((s.set i { s.threads i with stage := .ended }).threads j).stage ≠ .ended →
      j ≠ i ∧ (s.set i { s.threads i with stage := .ended }).threads j = s.threads j := by
    intro j hj
    by_cases hji : j = i
    · rw [hji, set_self] at hj
      exact absurd rfl hj
    · exact ⟨hji, set_of_ne s hji _⟩
  refine ⟨fun j => ?_, fun j p hj hp => ?_, fun j l p hj hl hp hq => ?_, fun l p hl => ?_⟩
  · by_cases hji : j = i
    · have hi := hs.settled i
      rw [hji]
      exact (set_self s i _).symm ▸ ⟨⟨hi.connected, hi.realtime⟩, by simp, by simp, by simp⟩
    · exact (set_of_ne s hji _).symm ▸ hs.settled j
  · obtain ⟨hji, hsame⟩ := hothers j hj
    change ((s.set i _).threads j).stage ≠ _ at hj
    change ((s.set i _).threads j).player = _ at hp
    rw [hsame] at hj hp
    obtain ⟨l, hl⟩ := hs.held j p hj hp
    have hlk : l ≠ k := by
      intro h
      rw [h, hk, Option.some.injEq] at hl
      exact hji (hs.apart j i p hj hlive hp (hl ▸ hply))
    exact ⟨l, by show (s.slots.free k).players l = _; rw [free_players, Function.update_of_ne hlk, hl]⟩
  · obtain ⟨-, hj'⟩ := hothers j hj
    obtain ⟨-, hl'⟩ := hothers l hl
    change ((s.set i _).threads j).stage ≠ _ at hj
    change ((s.set i _).threads l).stage ≠ _ at hl
    change ((s.set i _).threads j).player = _ at hp
    change ((s.set i _).threads l).player = _ at hq
    rw [hj'] at hj hp
    rw [hl'] at hl hq
    exact hs.apart j l p hj hl hp hq
  · change (s.slots.free k).players l = _ at hl
    have hlk : l ≠ k := fun h => by rw [h, free_players, Function.update_self] at hl; cases hl
    rw [free_players, Function.update_of_ne hlk] at hl
    obtain ⟨j, hj, hp⟩ := hs.owned l p hl
    have hji : j ≠ i := by
      intro h
      rw [h, hply, Option.some.injEq] at hp
      exact hlk (PlayerArray.inj (hp ▸ hl) hk)
    exact ⟨j, by show ((s.set i _).threads j).stage ≠ _ ∧ _; rw [set_of_ne s hji]; exact ⟨hj, hp⟩⟩

theorem disconnectPlayer_eq {slots : PlayerArray server.slots} {k : Fin server.slots} {ply : Player}
    (h : slots.players k = some ply) : server.disconnectPlayer slots ply = slots.free k := by
  cases server with
  | ticTacToe => exact freeObject_players h
  | realtime => exact freeNumber_players h

/-- **A step that meets the condition keeps the invariant.** -/
theorem inv_work {s : State server} (hs : Inv s) {i : ℕ} {inp : Input}
    (hlive : (s.threads i).stage ≠ .ended) (hcareful : WorksCarefully s i) :
    Inv (work s i inp) := by
  have ht := hs.settled i
  unfold work
  unfold WorksCarefully at hcareful
  cases hstage : (s.threads i).stage with
  | polling =>
    simp only [hstage] at hcareful ⊢
    exact hs.set_kept hlive (kept_poll ht.toSteady hcareful inp)
  | checking =>
    simp only [hstage]
    exact hs.set_kept hlive (kept_check ht.toSteady inp _)
  | seating =>
    simp only [hstage] at hcareful ⊢
    obtain ⟨hno, hstate⟩ := ht.seating hstage
    cases hply : (connectPlayer s.slots).1 with
    | none =>
      have hserver : server = .ticTacToe := by
        cases server with
        | ticTacToe => rfl
        | realtime =>
          have hfree := hcareful rfl
          rw [connectPlayer_eq_none.mp hply] at hfree
          cases hfree
      rw [connectPlayer_none hply]
      exact hs.set_kept hlive (kept_seat_none ht.toSteady hno hserver inp)
    | some ply =>
      obtain ⟨k, hk, rfl, hslots⟩ := connectPlayer_some hply
      rw [hslots, seat_some]
      exact inv_seated hs hno hk rfl ⟨⟨fun _ => rfl, fun hr _ => hstate hr⟩, by simp, fun _ => rfl,
        by simp⟩ (by simp)
  | greeting =>
    simp only [hstage]
    exact hs.set_kept hlive (kept_greet ht.toSteady (ht.greeting hstage) inp)
  | messaging =>
    simp only [hstage]
    exact hs.set_kept hlive (kept_message ht.toSteady inp)
  | leaving =>
    obtain ⟨ply, hply⟩ := Option.isSome_iff_exists.mp (ht.leaving hstage)
    obtain ⟨k, hk⟩ := hs.held i ply hlive hply
    have hleft := inv_left hs hlive hk hply
    simp only [hstage, hply, disconnectPlayer_eq hk] at hleft ⊢
    exact hleft
  | ended => exact absurd hstage hlive

theorem inv_step {s s' : State server} {a : Label} (hs : Inv s) (hcareful : Careful s a)
    (hstep : step s a = some s') : Inv s' := by
  cases a with
  | arrive i data =>
    obtain rfl := Option.some.inj hstep
    have ht := hs.settled i
    exact hs.set rfl ⟨⟨ht.connected, ht.realtime⟩, ht.seating, ht.greeting, ht.leaving⟩ id Or.inl
  | work i inp =>
    simp only [step] at hstep
    split_ifs at hstep with hend
    obtain rfl := Option.some.inj hstep
    exact inv_work hs hend hcareful

/-- **The slots are owned by live connections**, in every run whose steps meet the condition. -/
theorem owned_of_careful (server : Server) (l : List Label) (h : Along step Careful (init server) l) :
    Always step Owned (init server) l :=
  always_of_along (J := Inv) (fun _ _ _ hs hcareful hstep => inv_step hs hcareful hstep)
    (fun _ _ _ hs _ hcareful hstep => (inv_step hs hcareful hstep).isOwned) (inv_init server)
    (inv_init server).isOwned h

/-! ### A slot that is not freed -/

/-- The thread that a step is about. -/
def Label.thread : Label → ℕ
  | .arrive i _ | .work i _ => i

/-- A step leaves the other threads as they are. -/
theorem threads_step {s s' : State server} {a : Label} (hstep : step s a = some s') {j : ℕ}
    (hj : j ≠ a.thread) : s'.threads j = s.threads j := by
  cases a with
  | arrive i data =>
    obtain rfl := Option.some.inj hstep
    exact set_of_ne s hj _
  | work i inp =>
    simp only [step] at hstep
    split_ifs at hstep
    obtain rfl := Option.some.inj hstep
    unfold work
    dsimp only
    split <;> first | exact set_of_ne s hj _ | rfl

theorem threads_run {s s' : State server} {l : List Label} (h : run step s l = some s') {j : ℕ}
    (hj : ∀ a ∈ l, j ≠ a.thread) : s'.threads j = s.threads j := by
  induction l generalizing s with
  | nil => rw [Option.some.inj h]
  | cons a l ih =>
    obtain ⟨t, ht, h⟩ := run_cons.mp h
    rw [ih h fun b hb => hj b (List.mem_cons_of_mem _ hb), threads_step ht (hj a (by simp))]

/-- The socket takes everything, at this time. -/
def calm (now : ℤ) : Input :=
  ⟨⟨now, now, true⟩, fun _ => ⟨now, now, true⟩, false, [], [], [], [], false, []⟩

/-- A NetLib packet of a client, and the S64 packet that asks for the server's name. -/
def packet (type : UInt8) (seqnum : BitVec 16) : List UInt8 :=
  WireFormat.wireBytes { newNetLibPacket 0 type [] 0 with seqnum := seqnum }

def discover : List UInt8 :=
  WireFormat.wireBytes (newS64Packet 0 discoverType [0x41] flagUnreliable)

/-- A client connects and hears no more of it; another asks for the name. -/
def timesOut : List Label :=
  [.arrive 0 (packet clientConnect 0), .work 0 (calm 0), .work 0 (calm 0), .work 0 (calm 0), .work 0 (calm 0),
    .work 0 (calm 1500), .work 0 (calm 1500), .arrive 1 discover, .work 1 (calm 1500),
    .work 0 (calm 3000), .work 0 (calm 3000), .work 0 (calm 4500), .work 0 (calm 4500),
    .work 0 (calm 6000), .work 0 (calm 6000), .work 0 (calm 7500), .work 0 (calm 7500)]

theorem owned_timesOut : Always step Owned (init .ticTacToe) timesOut :=
  owned_of_careful .ticTacToe timesOut (by decide +kernel)

/-- A client that is alone, whose thread has ended, and who has a slot. -/
theorem not_owned_of_ended {s : State server} {l : List Label} {i : ℕ}
    (hrun : run step (init server) l = some s) (hl : ∀ a ∈ l, a.thread = i)
    (hend : (s.threads i).stage = .ended) {k : Fin server.slots} (hk : (s.slots.players k).isSome) :
    ¬ Owned s := by
  intro howned
  obtain ⟨j, hlive, ply, hply, -⟩ := howned.freed k hk
  by_cases hji : j = i
  · exact hlive (hji ▸ hend)
  · rw [threads_run hrun fun a ha => hl a ha ▸ hji] at hply
    cases hply

/-- The run ends with the thread of client 0 at its end and a slot taken. -/
def leaks (server : Server) (l : List Label) (k : Fin server.slots) : Bool :=
  (run step (init server) l).any fun s => (s.threads 0).stage = .ended && (s.slots.players k).isSome

theorem not_owned_of_leaks {l : List Label} (hl : ∀ a ∈ l, a.thread = 0) {k : Fin server.slots}
    (h : leaks server l k = true) : ¬ Always step Owned (init server) l := by
  intro hall
  obtain ⟨s, hs, hstate⟩ := (Option.any_eq_true _ _).mp h
  obtain ⟨hend, hk⟩ := Bool.and_eq_true_iff.mp hstate
  exact not_owned_of_ended hs hl (of_decide_eq_true hend) hk (hall.last hs)

/-- A connected client of the Tic Tac Toe server asks for its name. -/
def asksConnected : List Label :=
  [.arrive 0 (packet clientConnect 0), .work 0 (calm 0), .work 0 (calm 0), .work 0 (calm 0),
    .work 0 (calm 0), .arrive 0 discover, .work 0 (calm 0)]

/-- A connected client of the Realtime server asks for its name. -/
def asksConnectedRealtime : List Label :=
  [.arrive 0 (packet clientConnect 0), .work 0 (calm 0), .work 0 (calm 0), .work 0 (calm 0),
    .arrive 0 (packet doneSync 1), .work 0 (calm 0), .work 0 (calm 0), .work 0 (calm 0), .work 0 (calm 0),
    .arrive 0 discover, .work 0 (calm 0)]

theorem not_owned_asksConnected :
    ¬ (∀ l, Always step Owned (init .ticTacToe) l) ∧ ¬ ∀ l, Always step Owned (init .realtime) l := by
  refine ⟨fun hall => ?_, fun hall => ?_⟩
  · have hleaks : leaks .ticTacToe asksConnected ⟨0, by decide⟩ = true := by decide +kernel
    exact not_owned_of_leaks (by decide +kernel) hleaks (hall asksConnected)
  · have hleaks : leaks .realtime asksConnectedRealtime ⟨0, by decide⟩ = true := by decide +kernel
    exact not_owned_of_leaks (by decide +kernel) hleaks (hall asksConnectedRealtime)

end N64NetLib.GameServer.ClientConnection
