import N64NetLib.N64.Dispatch
import N64NetLib.Realtime.Inputs
import N64NetLib.Realtime.Routing

/-! # From one N64 to another

The whole way of a packet between two players: an application writes values into a packet and sends it, its
client sends the packet on to the server, the server queues a copy for another player and sends that, the
client of that player writes it to the USB, and there `netlib_poll` calls the callback for the type of the
packet, which reads values. Four programs in three languages write and read the packet, and two connections
number it.

What is read is what was written, with variables of the same kinds, and the callback gets the size of all
values together (`journey_values`). -/

namespace N64NetLib.Realtime.Journey

open N64NetLib.Lib.BigEndian N64NetLib.Lib.Memory N64NetLib.Lib.Run N64NetLib.Packet N64NetLib.Packet.Basic
open N64NetLib.Packet.WireFormat N64NetLib.Packet.Sequence N64NetLib.Udp.Handler N64NetLib.N64.Netlib
open N64NetLib.N64.Machine N64NetLib.N64.Builder N64NetLib.Realtime.Players N64NetLib.Realtime.Routing

/-! ### Reading values -/

/-- A doubleword from its bytes. -/
def ofBytes32 (l : List UInt8) : BitVec 32 := ofBe32 (l.getD 0 0) (l.getD 1 0) (l.getD 2 0) (l.getD 3 0)

/-- A quadword from its bytes. -/
def ofBytes64 (l : List UInt8) : BitVec 64 := ofBytes32 l ++ ofBytes32 (l.drop 4)

/-- A variable after `b` was copied to its place: the rest of its bytes stays. -/
def overwrite (old : Value) (b : List UInt8) : Value :=
  let l := b ++ old.toBytes.drop b.length
  match old with
  | .byte _ => .byte (l.getD 0 0)
  | .word _ => .word (ofBe16 (l.getD 0 0) (l.getD 1 0))
  | .dword _ => .dword (ofBytes32 l)
  | .qword _ => .qword (ofBytes64 l)
  | .float _ => .float (ofBytes32 l)
  | .double _ => .double (ofBytes64 l)
  | .bytes _ => .bytes l

/-- The `netlib_read` functions, for a variable with the value `old`. -/
def netlibRead (old : Value) (u : Usb) : Value × Usb :=
  let r := usbRead old.toBytes.length u
  (overwrite old r.1, r.2)

/-- Some variables, one after the other. -/
def netlibReads : List Value → Usb → List Value
  | [], _ => []
  | old :: olds, u => (netlibRead old u).1 :: netlibReads olds (netlibRead old u).2

/-- Variables of the same kind; arrays have the same size. -/
def SameKind : Value → Value → Prop
  | .byte _, .byte _ => True
  | .word _, .word _ => True
  | .dword _, .dword _ => True
  | .qword _, .qword _ => True
  | .float _, .float _ => True
  | .double _, .double _ => True
  | .bytes a, .bytes b => a.length = b.length
  | _, _ => False

theorem SameKind.length {old v : Value} (h : SameKind old v) : old.toBytes.length = v.toBytes.length := by
  cases old <;> cases v <;> first | exact h | exact h.elim | rfl

theorem ofBytes32_be32 (x : BitVec 32) : ofBytes32 (be32 x) = x := ofBe32_byteOf x

theorem ofBytes64_be64 (x : BitVec 64) : ofBytes64 (be64 x) = x :=
  congrArg Prod.fst (Option.some.inj (Inputs.getLong_be64 x []))

/-- The bytes of a value, read into a variable of the same kind. -/
theorem overwrite_toBytes {old v : Value} (h : SameKind old v) : overwrite old v.toBytes = v := by
  have hall : v.toBytes ++ old.toBytes.drop v.toBytes.length = v.toBytes := by
    rw [← h.length, List.drop_length, List.append_nil]
  cases v with
  | byte data => cases old <;> first | exact h.elim | rfl
  | word data => cases old <;> first | exact h.elim | exact congrArg Value.word (ofBe16_byteOf data)
  | dword data => cases old <;> first | exact h.elim | exact congrArg Value.dword (ofBytes32_be32 data)
  | qword data => cases old <;> first | exact h.elim | exact congrArg Value.qword (ofBytes64_be64 data)
  | float data => cases old <;> first | exact h.elim | exact congrArg Value.float (ofBytes32_be32 data)
  | double data => cases old <;> first | exact h.elim | exact congrArg Value.double (ofBytes64_be64 data)
  | bytes data => cases old <;> first | exact h.elim | exact congrArg Value.bytes hall

/-- What is read is the front of what there is to read. On a 64Drive the next message may come when nothing
is left, and then nothing more of this one is read. -/
theorem usbRead_prefix {u : Usb} (hcart : u.cart ≠ .none) {l l' : List UInt8} (hu : l ++ l' <+: u.data) :
    (usbRead l.length u).1 = l ∧ (usbRead l.length u).2.cart ≠ .none ∧ l' <+: (usbRead l.length u).2.data := by
  by_cases hdata : u.data = []
  · rw [hdata, List.prefix_nil, List.append_eq_nil_iff] at hu
    obtain ⟨rfl, rfl⟩ := hu
    rw [usbRead, if_pos (.inr hdata)]
    exact ⟨rfl, hcart, List.nil_prefix⟩
  · obtain ⟨rest, hrest⟩ := hu
    rw [usbRead, if_neg (not_or.mpr ⟨hcart, hdata⟩)]
    have htake : u.data.take l.length = l := by
      rw [← hrest, List.append_assoc, List.take_left]
    have hdrop : u.data.drop l.length = l' ++ rest := by
      rw [← hrest, List.append_assoc, List.drop_left]
    refine ⟨htake, ?_⟩
    dsimp only
    rw [hdrop]
    unfold repoll
    split_ifs with hempty
    · -- nothing is left
      obtain ⟨-, hnil⟩ := hempty
      rw [(List.append_eq_nil_iff.mp hnil).1]
      refine ⟨?_, List.nil_prefix⟩
      unfold cartPoll
      split <;> exact hcart
    · exact ⟨hcart, List.prefix_append _ _⟩

/-- **Reading what was written**, with variables of the same kinds. -/
theorem netlibReads_values {olds vs : List Value} (h : List.Forall₂ SameKind olds vs) {u : Usb}
    (hcart : u.cart ≠ .none) (hu : vs.flatMap Value.toBytes <+: u.data) : netlibReads olds u = vs := by
  induction h generalizing u with
  | nil => rfl
  | @cons old v olds vs hkind _ ih =>
    obtain ⟨hread, hcart', hrest⟩ := usbRead_prefix hcart (l := v.toBytes) (by simpa using hu)
    rw [netlibReads, netlibRead, hkind.length, hread, overwrite_toBytes hkind]
    exact congrArg (v :: ·) (ih hcart' hrest)

/-! ### The callback -/

section Turn

variable {r : State} {p : AbstractPacket} {type : UInt8} {recipients : BitVec 32} {sender : ℤ}

/-- A packet is a net packet for the N64. -/
theorem netPacket_wireBytes {g : Globals} (hp : WellFormed p) (hbody : p.body = .netlib type recipients sender)
    (hreg : g.funcptrs type.toNat ≠ 0) : N64.Dispatch.NetPacket g ⟨datatypeNetpacket, wireBytes p⟩ := by
  have hbytes : wireBytes p = netlibBytes p.version type p.flags p.seqnum p.ack p.ackbitfield recipients
      (BitVec.ofNat 16 p.data.length) p.data := by
    rw [wireBytes, hbody]
  have hlen : (wireBytes p).length = packetHeadersize + p.data.length := by
    rw [length_wireBytes, wireLength, hbody]
    rfl
  have hsize : ofBe16 ((wireBytes p).getD 16 0) ((wireBytes p).getD 17 0) = BitVec.ofNat 16 p.data.length := by
    rw [hbytes]
    exact ofBe16_byteOf _
  refine ⟨rfl, ?_, ?_, ?_, ?_⟩
  · show packetHeadersize ≤ (wireBytes p).length
    omega
  · show (wireBytes p).length = _
    rw [hsize, toNat_size hp.length_data, hlen]
  · show (wireBytes p).getD 3 0 ≤ netlibVersion
    rw [hbytes]
    exact hp.version
  · show g.funcptrs ((wireBytes p).getD 4 0).toNat ≠ 0
    rw [hbytes]
    exact hreg

/-- **The callback for the packet is called**, with its type and the size of its payload, and has the payload in
front of it. -/
theorem turn_wireBytes (host : Host) {curtime : BitVec 64} {stack : List Frame} {rest : List Message}
    (hstack : r.stack = .polling curtime :: stack) (hcart : r.usb.cart ≠ .none) (hdata : r.usb.data = [])
    (hincoming : r.usb.incoming = ⟨datatypeNetpacket, wireBytes p⟩ :: rest) (hp : WellFormed p)
    (hbody : p.body = .netlib type recipients sender) (hreg : r.globals.funcptrs type.toNat ≠ 0) (locals : Locals)
    (result : Written) :
    ∃ r', N64.Machine.step host r (.turn locals result) = some r' ∧
      r'.stack = .dispatched type (r.globals.funcptrs type.toNat) (BitVec.ofNat 16 p.data.length) curtime :: stack ∧
      r'.usb.cart ≠ .none ∧ p.data <+: r'.usb.data := by
  have hbytes : wireBytes p = netlibBytes p.version type p.flags p.seqnum p.ack p.ackbitfield recipients
      (BitVec.ofNat 16 p.data.length) p.data := by
    rw [wireBytes, hbody]
  let u : Usb := { r.usb with datatype := datatypeNetpacket, data := wireBytes p, incoming := rest }
  have hpoll : usbPoll r.usb = (datatypeNetpacket, u) := by
    unfold usbPoll
    rw [if_neg hcart, if_neg (not_not.mpr hdata)]
    simp only [cartPoll, hincoming]
    rfl
  have hread := N64.Dispatch.readHeader_netPacket (u := u) (netPacket_wireBytes hp hbody hreg) rfl hcart locals
  have htype : (wireBytes p).getD 4 0 = type := by
    rw [hbytes]
    rfl
  have hsize : ofBe16 ((wireBytes p).getD 16 0) ((wireBytes p).getD 17 0) = BitVec.ofNat 16 p.data.length := by
    rw [hbytes]
    exact ofBe16_byteOf _
  have hpayload : (wireBytes p).drop packetHeadersize = p.data := by
    rw [hbytes]
    rfl
  dsimp only at hread
  rw [htype, hsize, hpayload] at hread
  let r' : State := { r with
    usb := repoll { u with data := p.data }
    stack := .dispatched type (r.globals.funcptrs type.toNat) (BitVec.ofNat 16 p.data.length) curtime :: stack }
  have hturn : turn locals result curtime stack r = r' := by
    unfold turn
    rw [hpoll]
    dsimp only
    rw [if_neg (by decide), if_pos rfl, hread]
  refine ⟨r', ?_, rfl, ?_⟩
  · rw [N64.Machine.step, hstack]
    exact congrArg some hturn
  · show (repoll { u with data := p.data }).cart ≠ .none ∧ p.data <+: (repoll { u with data := p.data }).data
    unfold repoll
    split_ifs with hempty
    · rw [show p.data = [] from hempty.2]
      refine ⟨?_, List.nil_prefix⟩
      unfold cartPoll
      split <;> exact hcart
    · exact ⟨hcart, List.prefix_refl _⟩

end Turn

/-! ### The way to the other N64 -/

/-- What a packet meets on its way from the server: the server's connection to the player, and the handler and the
memory of the player's client. -/
structure Back where
  host : Host
  sent : Udp.Handler.Call
  server : UDPHandler
  junk : ℕ → UInt8
  behind : ℕ → UInt8
  call : Udp.Handler.Call
  client : UDPHandler
  ref : ℕ
  ackref : ℕ

/-- `ServerConnectionThread` with a datagram of the server: `TransferPacket` writes the packet that was read and reads
it again, and `DeviceThread` writes that to the USB. -/
def toUsb (w : Back) (data : List UInt8) : Option Message :=
  match (readPacket (.cpp w.host) .netlib w.call w.client w.ref w.ackref data w.junk).result with
  | .ok (some pkt) =>
    match Cpp.getBytes w.host pkt with
    | .ok bytes =>
      match (Cpp.fromBytes w.host .netlib).run (inBuffer bytes w.behind) with
      | .ok (some pkt') =>
        match Cpp.getBytes w.host pkt' with
        | .ok bytes' => some ⟨datatypeNetpacket, bytes'⟩
        | .error _ => none
      | _ => none
    | .error _ => none
  | _ => none

/-- The message for a packet of the player's queue, which `ClientConnectionThread` sends. -/
def usbMessage (w : Back) (pkt : AbstractPacket) : Option Message :=
  match (sendPacket .java w.sent w.server pkt).out with
  | d :: _ => toUsb w d.data
  | [] => none

/-- A packet that was read can be written again. -/
theorem wellFormed_received {p : AbstractPacket} (hp : WellFormed p) (ref : ℕ) :
    WellFormed { received p with ref := ref } := by
  obtain ⟨hversion, htype, hsize⟩ := hp
  cases hbody : p.body with
  | netlib type recipients sender =>
    refine ⟨hversion, fun t ht => ?_, ?_⟩
    · simp [received, hbody] at ht
    · simpa [wireLength, received, hbody] using hsize
  | s64 type =>
    refine ⟨hversion, fun t ht => htype t ?_, ?_⟩
    · simpa [received, hbody] using ht
    · simpa [wireLength, received, hbody] using hsize

/-- A packet comes over the USB as it was, but for its numbers. -/
theorem toUsb_wireBytes {w : Back} {p : AbstractPacket} {type : UInt8} {recipients : BitVec 32} {sender : ℤ}
    (hp : WellFormed p) (hbody : p.body = .netlib type recipients sender) {m : Message}
    (hm : toUsb w (wireBytes p) = some m) :
    ∃ p', WellFormed p' ∧ p'.body = .netlib type recipients 0 ∧ p'.data = p.data ∧
      m = ⟨datatypeNetpacket, wireBytes p'⟩ := by
  have hkind : p.body.kind = .netlib := by
    rw [hbody]
    rfl
  have hdecode := Lang.decode_eq (.cpp w.host) hp w.junk
  rw [hkind] at hdecode
  let q : AbstractPacket := { received p with ref := w.ref }
  have hq : q.body = .netlib type recipients 0 := by simp [q, received, hbody]
  have hwf : WellFormed q := wellFormed_received hp w.ref
  have hagain : (Cpp.fromBytes w.host .netlib).run (inBuffer (wireBytes q) w.behind) =
      .ok (some (received q)) := by
    have hcpp := WireFormat.cpp_decode w.host hwf w.behind
    rwa [Cpp.run_decode, hq] at hcpp
  unfold toUsb at hm
  split at hm
  · rename_i pkt hresult
    obtain rfl : pkt = q := readPacket_result hdecode hresult
    have hwf' : WellFormed (received q) := wellFormed_received hwf 0
    simp only [cpp_getBytes w.host hwf, hagain, cpp_getBytes w.host hwf'] at hm
    exact ⟨received q, hwf', by simp [received, hq], rfl, (Option.some.inj hm).symm⟩
  · cases hm

/-- What is queued for a player comes over the USB, if it comes. -/
theorem usbMessage_spec {w : Back} {pkt : AbstractPacket} {type : UInt8} {recipients : BitVec 32} {sender : ℤ}
    (hfresh : pkt.attempts = 0) (hp : WellFormed pkt) (hbody : pkt.body = .netlib type recipients sender)
    {m : Message} (hm : usbMessage w pkt = some m) :
    ∃ p, WellFormed p ∧ p.body = .netlib type recipients 0 ∧ p.data = pkt.data ∧
      m = ⟨datatypeNetpacket, wireBytes p⟩ := by
  have hwf : WellFormed (firstSent .java w.sent w.server pkt) := ⟨hp.version, hp.type, hp.size⟩
  unfold usbMessage at hm
  by_cases hsent : w.sent.sent = true
  · simp only [sendPacket_first .java w.sent w.server hfresh hsent, Lang.getBytes_eq .java hwf] at hm
    exact toUsb_wireBytes hwf hbody hm
  · -- the socket does not take it
    have hno : (!w.sent.sent) = true := by simpa using hsent
    have hout : (sendPacket .java w.sent w.server pkt).out = [] := by
      simp only [sendPacket, hno, if_true]
      split_ifs
      · rfl
      · split <;> rfl
      · split <;> rfl
    rw [hout] at hm
    cases hm

/-! ### The whole way -/

/-- The bytes that `usb_write` is given for a packet that is built and sent. -/
def sentBytes (host : Host) (s : State) (calls : List N64.Machine.Call) : Option (List UInt8) :=
  (run (N64.Machine.step host) s (calls.map .call)).bind handed

/-- With the message the next one to come, the callback that is called for it: its type and size, and what it
reads. -/
def callback (host : Host) (r : State) (locals : Locals) (result : Written) (olds : List Value) (m : Message) :
    Option (UInt8 × BitVec 16 × List Value) := do
  let r' ← N64.Machine.step host { r with usb := { r.usb with incoming := m :: r.usb.incoming } }
    (.turn locals result)
  match r'.stack with
  | .dispatched type _ size _ :: _ => some (type, size, netlibReads olds r'.usb)
  | _ => none

/-- The way of the bytes from the N64 of player `me` to that of player `i`, which `arrive` says the rest of. -/
def journey {α : Type} (w : Path) (game : Game) (me i : Fin maxPlayers) (back : Back) (arrive : Message → Option α)
    (bytes : List UInt8) : Option α := do
  let q ← serverReads w bytes
  let ply ← (handleConnected me q game).1.players i
  let pkt ← ply.messages.getLast?
  let m ← usbMessage back pkt
  arrive m

/-- **What is read is what was written**: if player `i` is one of those that the packet of player `me` is relayed to,
and the packet gets there, the callback for its type is called with the size of all values that were accepted, and
reads these. -/
theorem journey_values {host : Host} {s : State} (hruns : userRuns s.stack = true) (hquiet : Quiet s.usb)
    (cart : Cart) (setup : List Setup) {type : UInt8} (edits : List Edit) {dest : Recipients}
    (hdest : dest.Defined (N64.Builder.number setup)) (now : Now) (w : Path) {game : Game} {me i : Fin maxPlayers}
    (hply : (game.players i).isSome) (htype : type ≠ 0) (hme : i ≠ me) (hloop : Unbroken game me i)
    (hbit : (dest.mask (N64.Builder.number setup)).getLsbD i = true) (back : Back) {host' : Host} {r : State}
    {curtime : BitVec 64} {stack : List Frame} (hstack : r.stack = .polling curtime :: stack)
    (hcart : r.usb.cart ≠ .none) (hidle : r.usb.data = []) (hreg : r.globals.funcptrs type.toNat ≠ 0)
    (locals : Locals) (result : Written) {olds : List Value}
    (holds : List.Forall₂ SameKind olds (accepted (started s.globals setup type) edits))
    {got : UInt8 × BitVec 16 × List Value}
    (hgot : (sentBytes host s (buildCalls cart setup type edits ++ [dest.call now])).bind
      (journey w game me i back (callback host' r locals result olds)) = some got) :
    let values := accepted (started s.globals setup type) edits
    got = (type, BitVec.ofNat 16 (values.flatMap Value.toBytes).length, values) := by
  obtain ⟨bytes, hbytes, hjourney⟩ := Option.bind_eq_some_iff.mp hgot
  obtain ⟨hholds, hsilent, hnumber⟩ := holds_built s.globals setup type edits
  let values := accepted (started s.globals setup type) edits
  let d : Draft := ⟨type, lastFlags 0 edits, values.flatMap Value.toBytes⟩
  let mask := dest.mask (N64.Builder.number setup)
  -- what is sent is the packet that was built
  have hsent : bytes = wireBytes (d.packet mask) := by
    let s₁ : State := { s with
      globals := built s.globals setup type edits, usb := { s.usb with cart := cart } }
    have hbuild := run_buildCalls host hruns cart setup type edits
    obtain ⟨s₂, s₃, hsend, hhanded, -, -⟩ := send_quiet host (s := s₁) hholds hsilent hruns hquiet
      (hnumber.symm ▸ hdest) now ⟨0, 0, 0, 0⟩
    rw [show s₁.globals.clnumber = N64.Builder.number setup from hnumber] at hhanded
    have hrun : run (N64.Machine.step host) s ((buildCalls cart setup type edits ++ [dest.call now]).map .call) =
        some s₂ := by
      rw [List.map_append, run_append]
      exact ⟨s₁, hbuild, run_cons.mpr ⟨s₂, hsend, rfl⟩⟩
    rw [sentBytes, hrun, Option.bind_some, hhanded] at hbytes
    exact (Option.some.inj hbytes).symm
  unfold journey at hjourney
  simp only [Option.bind_eq_bind, Option.bind_eq_some_iff] at hjourney
  obtain ⟨q, hq, ply', hply', pkt, hpkt, m, hm, harrive⟩ := hjourney
  -- the server queues a copy
  have hbody : q.body = .netlib d.type mask 0 ∧ q.data = d.data ∧ q.flags = d.flags := by
    rw [hsent, ← packet_commit hholds mask] at hq
    exact serverReads_commit hholds hq
  have hqueued := (handleConnected_players game me hbody i).1 ⟨htype, ⟨hme, hply, hloop⟩, hbit⟩
  obtain ⟨ply, hply⟩ := Option.isSome_iff_exists.mp hply
  rw [hqueued, hply, Option.map_some] at hply'
  obtain rfl := Option.some.inj hply'
  have hcopy : pkt = duplicate (Players.number me) (d.packet 0) := by
    simpa [Player.sendMessage] using hpkt.symm
  have hcopied : pkt.attempts = 0 ∧ pkt.body = .netlib type 0 (Players.number me) ∧ pkt.data = d.data ∧
      pkt.version = packetVersion := by
    rw [hcopy]
    exact ⟨rfl, rfl, rfl, rfl⟩
  obtain ⟨hfresh, hpbody, hpdata, hversion⟩ := hcopied
  have hwf : WellFormed pkt := by
    have hsize := (hholds.wellFormed mask).size
    refine ⟨hversion ▸ UInt8.le_refl _, fun t ht => ?_, ?_⟩
    · rw [hpbody] at ht
      cases ht
    · rw [wireLength, hpbody, hpdata]
      exact hsize
  obtain ⟨p, hp, hpbody', hpdata', rfl⟩ := usbMessage_spec hfresh hwf hpbody hm
  -- the other N64 has it next
  let arrived : State :=
    { r with usb := { r.usb with incoming := ⟨datatypeNetpacket, wireBytes p⟩ :: r.usb.incoming } }
  obtain ⟨r', hturn, hframe, hcart', hfront⟩ := turn_wireBytes host'
    (show arrived.stack = .polling curtime :: stack from hstack) hcart hidle rfl hp hpbody' hreg locals result
  rw [hpdata', hpdata] at hframe hfront
  unfold callback at harrive
  simp only [arrived, hturn, Option.bind_eq_bind, Option.bind_some, hframe] at harrive
  rw [← Option.some.inj harrive, netlibReads_values holds hcart' hfront]

/-- A server and a client that have heard nothing of each other yet. -/
def sampleBack : Back :=
  ⟨.x86, ⟨0, 0, true⟩, newUDPHandler, fun _ => 0, fun _ => 0, ⟨0, 0, true⟩, newUDPHandler, 0, 1⟩

/-- A program in `netlib_poll` that has a callback for the type 5. -/
def sampleReceiver : State :=
  { N64.Machine.init fun _ => 0 with
    globals := netlibRegister 5 0x80000400#32 (netlibInitialize (startGlobals fun _ => 0))
    usb := ⟨.everdrive, 0, [], []⟩
    stack := [.polling 0#64] }

/-- One of two players sends a word to everyone. -/
def sampleJourney (me i : Fin maxPlayers) : Option (UInt8 × BitVec 16 × List Value) :=
  let calls := buildCalls .everdrive [.setclient 1] 5 [.write (.word 0x1234#16)] ++
    [Recipients.call ⟨0#64, false⟩ .everyone]
  (sentBytes .x86 (N64.Machine.init fun _ => 0) calls).bind
    (journey samplePath (joined 2) me i sampleBack (callback .x86 sampleReceiver ⟨0, 0, 0, 0⟩ .success [.word 0#16]))

theorem journey_values_word : sampleJourney 0 1 = some (5, 2, [.word 0x1234]) := by
  obtain ⟨got, hgot⟩ := Option.isSome_iff_exists.mp (show (sampleJourney 0 1).isSome by decide +kernel)
  rw [hgot]
  unfold sampleJourney at hgot
  exact congrArg some (journey_values rfl ⟨rfl, rfl⟩ .everdrive [.setclient 1] [.write (.word 0x1234)]
    (show Recipients.Defined _ .everyone from ⟨by decide, by decide⟩) ⟨0, false⟩ samplePath (by decide +kernel)
    (by decide) (by decide) (by decide +kernel) (by decide) sampleBack rfl (by decide) rfl (by decide)
    ⟨0, 0, 0, 0⟩ .success (.cons (show SameKind (.word 0) (.word 0x1234) from trivial) .nil) hgot)

end N64NetLib.Realtime.Journey
