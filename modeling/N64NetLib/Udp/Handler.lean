import N64NetLib.Packet.WireFormat

/-! # The connection handler

`UDPHandler` of `UDPHandler.java` and of `packets.cpp`. The two classes are the same program up to the
places collected in `Lang`: the integers of the sequence arithmetic, the width of the attempt counter,
the codec, and whether a duplicate is always acknowledged (`acksDuplicate`).

A call gets from its surroundings the clock and whether the socket takes the datagram (`Call`). The
sequence fields are 16 bits wide: Java's `localseqnum` is an int in `0..65535` and its `remoteseqnum`
the int of a short, and both reach the packet through a cast to short. -/

namespace N64NetLib.Udp.Handler

open N64NetLib.Packet N64NetLib.Packet.Basic N64NetLib.Packet.Sequence N64NetLib.Lib.Memory

/-! ### The two languages -/

/-- The two implementations. -/
inductive Lang
  | java
  | cpp (host : Host)

namespace Lang

/-- The integer that a sequence number is in the comparison. -/
def toInt : Lang → BitVec 16 → ℤ
  | java, seq => seq.toInt
  | cpp _, seq => seq.toNat

/-- `SequenceGreaterThan`, `sequence_greaterthan`. -/
def sequenceGreaterThan : Lang → BitVec 16 → BitVec 16 → Bool
  | java, s1, s2 => javaSequenceGreaterThan s1.toInt s2.toInt
  | cpp _, s1, s2 => cppSequenceGreaterthan s1 s2

/-- `SequenceIncrement`, `sequence_increment`. -/
def sequenceIncrement : Lang → BitVec 16 → BitVec 16
  | java, seq => BitVec.ofInt 16 (javaSequenceIncrement seq.toNat)
  | cpp _, seq => (cppSequenceIncrement (seq.setWidth 32)).setWidth 16

/-- `SequenceDelta`, `sequence_delta`. -/
def sequenceDelta : Lang → BitVec 16 → BitVec 16 → ℤ
  | java, s1, s2 => javaSequenceDelta s1.toInt s2.toInt
  | cpp _, s1, s2 => cppSequenceDelta (s1.setWidth 32) (s2.setWidth 32)

/-- The summand of `ackbitfield` in `SendPacket`: `1 << (SequenceDelta(..) - 1)`, cut to 16 bits. -/
def ackBit : Lang → BitVec 16 → BitVec 16 → BitVec 16
  | java, s1, s2 => (javaShiftOne (javaSequenceDelta s1.toInt s2.toInt - 1)).setWidth 16
  | cpp host, s1, s2 =>
    (cppShiftOne host (cppSequenceDelta (s1.setWidth 32) (s2.setWidth 32) - 1)).setWidth 16

/-- `IsAcked` of a packet with these ack fields. -/
def isAcked : Lang → BitVec 16 → BitVec 16 → BitVec 16 → Bool
  | java => javaIsAcked
  | cpp host => cppIsAcked host

/-- The counter of `UpdateSendAttempt`: an `int` in Java, a `uint8_t` in C++. -/
def updateSendAttempt : Lang → ℤ → ℤ
  | java, attempts => (attempts + 1).bmod (2 ^ 32)
  | cpp _, attempts => (attempts + 1) % 256

/-- Java acknowledges every duplicate, C++ only one that asks for it. -/
def acksDuplicate : Lang → AbstractPacket → Bool
  | java, _ => true
  | cpp _, pkt => pkt.explicitAck

/-- `GetBytes`, `GetAsBytes`. -/
def getBytes : Lang → AbstractPacket → Except Exn (List UInt8)
  | java => Java.getBytes
  | cpp host => Cpp.getBytes host

/-- The packet in a received datagram. Java hands on a copy of the datagram, C++ the receive buffer
with `junk` behind it. -/
def decode : Lang → Kind → List UInt8 → (ℕ → UInt8) → Except Exn (Option AbstractPacket)
  | java, k, data, _ => Java.decode k (data.take packetMaxSize)
  | cpp host, k, data, junk => (Cpp.decode host k).run (inBuffer (data.take packetMaxSize) junk)

end Lang

/-! ### The handler -/

/-- `MAX_RESEND`, `MAX_RESENDCOUNT`. -/
def maxResend : ℤ := 5

/-- `TIME_RESEND`, in milliseconds. -/
def timeResend : ℤ := 1000

/-- `UDPHandler`. -/
structure UDPHandler where
  localseqnum : BitVec 16
  remoteseqnum : BitVec 16
  acksleftRx : List AbstractPacket
  acksleftTx : List AbstractPacket
deriving DecidableEq, Repr

/-- The constructor. -/
def newUDPHandler : UDPHandler := ⟨0, 0, [], []⟩

/-- The surroundings of a call: the clock when `GetSendTime` looks at it (`asked`) and when
`UpdateSendAttempt` does (`now`), and whether the socket takes the datagram. -/
structure Call where
  asked : ℤ
  now : ℤ
  sent : Bool

/-- A datagram: its bytes, and the packet they were made from as it was then. -/
structure Datagram where
  pkt : AbstractPacket
  data : List UInt8
deriving DecidableEq

/-- What `SendPacket` leaves behind: the handler, the packet, what went out, how it ended. -/
structure Sent where
  handler : UDPHandler
  pkt : AbstractPacket
  out : List Datagram
  exn : Option Exn

/-- The ack bitfield of `SendPacket`. -/
def ackBits (lang : Lang) (remoteseqnum : BitVec 16) (acksleftRx : List AbstractPacket) : BitVec 16 :=
  acksleftRx.foldl (fun ackbitfield pkt2ack =>
    if lang.sequenceGreaterThan remoteseqnum pkt2ack.seqnum then
      ackbitfield ||| lang.ackBit remoteseqnum pkt2ack.seqnum
    else ackbitfield) 0

/-- `SendPacket`. -/
def sendPacket (lang : Lang) (call : Call) (h : UDPHandler) (pkt : AbstractPacket) : Sent :=
  let pkt := { pkt with attempts := lang.updateSendAttempt pkt.attempts, sendtime := call.now }
  if pkt.attempts > maxResend then ⟨h, pkt, [], some .clientTimeout⟩
  else
    let pkt :=
      if pkt.attempts = 1 then
        { pkt with
          seqnum := h.localseqnum, ack := h.remoteseqnum
          ackbitfield := ackBits lang h.remoteseqnum h.acksleftRx }
      else pkt
    match lang.getBytes pkt with
    | .error e => ⟨h, pkt, [], some e⟩
    | .ok data =>
      if !call.sent then ⟨h, pkt, [], some .io⟩
      else if pkt.reliable ∧ pkt.attempts = 1 then
        ⟨{ h with
            acksleftTx := h.acksleftTx ++ [pkt]
            localseqnum := lang.sequenceIncrement h.localseqnum }, pkt, [⟨pkt, data⟩], none⟩
      else ⟨h, pkt, [⟨pkt, data⟩], none⟩

/-- What `HandlePacketSequence` leaves behind. -/
structure Handled where
  handler : UDPHandler
  out : List Datagram
  result : Except Exn Bool

/-- The sending of the ackbeat, and the end of `HandlePacketSequence` with it. -/
def sendAckbeat (lang : Lang) (call : Call) (h : UDPHandler) (ackbeat : AbstractPacket) (ret : Bool) :
    Handled :=
  let r := sendPacket lang call h ackbeat
  ⟨r.handler, r.out, match r.exn with
    | some e => .error e
    | none => .ok ret⟩

/-- The middle of `HandlePacketSequence`: the handler takes note of a packet that is no duplicate. -/
def accept (lang : Lang) (h : UDPHandler) (pkt : AbstractPacket) : UDPHandler :=
  { h with
    acksleftTx := h.acksleftTx.filter fun pkt2ack =>
      !lang.isAcked pkt.ack pkt.ackbitfield pkt2ack.seqnum
    remoteseqnum :=
      if lang.sequenceGreaterThan pkt.seqnum h.remoteseqnum then pkt.seqnum else h.remoteseqnum
    acksleftRx :=
      if pkt.reliable then
        (if h.acksleftRx.length > 17 then h.acksleftRx.tail else h.acksleftRx) ++ [pkt]
      else h.acksleftRx }

/-- A packet with this sequence number is in `acksleft_rx`. -/
def isDuplicate (h : UDPHandler) (pkt : AbstractPacket) : Bool :=
  h.acksleftRx.any (·.seqnum = pkt.seqnum)

/-- `HandlePacketSequence`. -/
def handlePacketSequence (lang : Lang) (call : Call) (h : UDPHandler) (pkt ackbeat : AbstractPacket) :
    Handled :=
  if isDuplicate h pkt then
    if lang.acksDuplicate pkt then sendAckbeat lang call h ackbeat false else ⟨h, [], .ok false⟩
  else
    let h := accept lang h pkt
    if pkt.explicitAck then sendAckbeat lang call h ackbeat true else ⟨h, [], .ok true⟩

/-- `new NetLibPacket(0, null, FLAG_UNRELIABLE)` and `new S64Packet("ACK", null, FLAG_UNRELIABLE)`. -/
def newAckbeat (ref : ℕ) : Kind → AbstractPacket
  | .netlib => newNetLibPacket ref 0 [] flagUnreliable
  | .s64 => newS64Packet ref ['A', 'C', 'K'] [] flagUnreliable

/-- What `ReadNetLibPacket` and `ReadS64Packet` leave behind; `verdict` is what
`HandlePacketSequence` returned, if it was called and returned. -/
structure Received where
  handler : UDPHandler
  out : List Datagram
  verdict : Option Bool
  result : Except Exn (Option AbstractPacket)

/-- `ReadNetLibPacket` and `ReadS64Packet`. The new packet becomes the object `ref`, the ackbeat the
object `ackref`. -/
def readPacket (lang : Lang) (k : Kind) (call : Call) (h : UDPHandler) (ref ackref : ℕ)
    (data : List UInt8) (junk : ℕ → UInt8) : Received :=
  match lang.decode k data junk with
  | .error e => ⟨h, [], none, .error e⟩
  | .ok none => ⟨h, [], none, .ok none⟩
  | .ok (some pkt) =>
    let pkt := { pkt with ref := ref }
    let r := handlePacketSequence lang call h pkt (newAckbeat ackref k)
    match r.result with
    | .error e => ⟨r.handler, r.out, none, .error e⟩
    | .ok false => ⟨r.handler, r.out, some false, .ok none⟩
    | .ok true => ⟨r.handler, r.out, some true, .ok (some pkt)⟩

/-- What `ResendMissingPackets` leaves behind. -/
structure Resent where
  handler : UDPHandler
  out : List Datagram
  exn : Option Exn

/-- The loop of `ResendMissingPackets` over the rest of `acksleft_tx`; the handler returned has this
rest as its list. A packet sent for the first time would join the list the loop runs over: Java ends
the loop with an exception, C++ leaves it undefined what comes after. -/
def resendLoop (lang : Lang) (calls : ℕ → Call) (h : UDPHandler) : ℕ → List AbstractPacket → Resent
  | _, [] => ⟨{ h with acksleftTx := [] }, [], none⟩
  | i, pkt2ack :: tx =>
    if (calls i).asked - pkt2ack.sendtime > timeResend then
      let r := sendPacket lang (calls i) { h with acksleftTx := pkt2ack :: tx } pkt2ack
      let h' := { r.handler with acksleftTx := r.pkt :: r.handler.acksleftTx.tail }
      match r.exn with
      | some e => ⟨h', r.out, some e⟩
      | none =>
        if r.pkt.attempts = 1 then ⟨h', r.out, some .concurrentModification⟩
        else
          let rest := resendLoop lang calls h (i + 1) tx
          ⟨{ rest.handler with acksleftTx := r.pkt :: rest.handler.acksleftTx },
            r.out ++ rest.out, rest.exn⟩
    else
      let rest := resendLoop lang calls h (i + 1) tx
      ⟨{ rest.handler with acksleftTx := pkt2ack :: rest.handler.acksleftTx }, rest.out, rest.exn⟩

/-- `ResendMissingPackets`. -/
def resendMissingPackets (lang : Lang) (calls : ℕ → Call) (h : UDPHandler) : Resent :=
  resendLoop lang calls h 0 h.acksleftTx

/-! ### The two languages agree on the sequence -/

@[simp] theorem Lang.sequenceIncrement_eq (lang : Lang) (seq : BitVec 16) :
    lang.sequenceIncrement seq = seq + 1 := by
  cases lang with
  | java => exact javaSequenceIncrement_eq seq
  | cpp host => exact cppSequenceIncrement_eq seq

@[simp] theorem Lang.updateSendAttempt_zero (lang : Lang) : lang.updateSendAttempt 0 = 1 := by
  cases lang <;> rfl

@[simp] theorem Lang.sequenceDelta_eq (lang : Lang) (s1 s2 : BitVec 16) :
    lang.sequenceDelta s1 s2 = dist s1 s2 := by
  cases lang with
  | java => exact javaSequenceDelta_eq s1 s2
  | cpp host => exact cppSequenceDelta_eq s1 s2

/-- **Which number is greater**: the one up to 32767 ahead. Of two numbers 32768 apart it is the one
with the greater integer, which is another one in each language. -/
theorem Lang.sequenceGreaterThan_iff (lang : Lang) (s1 s2 : BitVec 16) :
    lang.sequenceGreaterThan s1 s2 = true ↔
      1 ≤ dist s1 s2 ∧ (dist s1 s2 ≤ 32767 ∨ dist s1 s2 = 32768 ∧ lang.toInt s2 < lang.toInt s1) := by
  have hs1 := s1.isLt
  have hs2 := s2.isLt
  have hd := dist_cases s1 s2
  cases lang with
  | java =>
    simp only [sequenceGreaterThan, javaSequenceGreaterThan, Bool.or_eq_true, Bool.and_eq_true,
      decide_eq_true_eq, toInt]
    rw [packetMaxSeqNum, BitVec.toInt_eq_toNat_cond, BitVec.toInt_eq_toNat_cond]
    split_ifs <;> omega
  | cpp host =>
    simp only [sequenceGreaterThan, cppSequenceGreaterthan, Bool.or_eq_true, Bool.and_eq_true,
      decide_eq_true_eq, toInt]
    rw [packetMaxSeqNum]
    omega

theorem Lang.sequenceGreaterThan_of_dist (lang : Lang) {s1 s2 : BitVec 16} (h1 : 1 ≤ dist s1 s2)
    (h2 : dist s1 s2 ≤ 32767) : lang.sequenceGreaterThan s1 s2 = true :=
  (lang.sequenceGreaterThan_iff s1 s2).mpr ⟨h1, Or.inl h2⟩

theorem Lang.not_sequenceGreaterThan_self (lang : Lang) (seq : BitVec 16) :
    lang.sequenceGreaterThan seq seq = false := by
  rw [Bool.eq_false_iff, ne_eq, sequenceGreaterThan_iff, dist_eq_zero.mpr rfl]
  omega

/-- **The bit of a near packet**: both languages test bit `dist - 1` of the field. -/
theorem Lang.isAcked_of_near {lang : Lang} {ack ackbitfield number : BitVec 16} (hne : ack ≠ number)
    (hd : dist ack number ≤ 16) :
    lang.isAcked ack ackbitfield number = ackbitfield.getLsbD (dist ack number - 1) := by
  cases lang with
  | java => exact javaIsAcked_of_near hne hd
  | cpp host => exact cppIsAcked_of_near host hne hd

/-- Both languages set bit `dist - 1` of the field. -/
theorem Lang.ackBit_of_near {lang : Lang} {s1 s2 : BitVec 16} (hne : s1 ≠ s2)
    (hd : dist s1 s2 ≤ 16) : lang.ackBit s1 s2 = (1#32 <<< (dist s1 s2 - 1)).setWidth 16 := by
  have h0 : dist s1 s2 ≠ 0 := fun h => hne (dist_eq_zero.mp h)
  have hk : (dist s1 s2 : ℤ) - 1 = ((dist s1 s2 - 1 : ℕ) : ℤ) := by omega
  cases lang with
  | java => rw [ackBit, javaSequenceDelta_eq, hk, javaShiftOne_of_lt (by omega)]
  | cpp host => rw [ackBit, cppSequenceDelta_eq, hk, cppShiftOne_of_lt host (by omega)]

/-- The bit of a near packet stands for no other near packet. -/
theorem Lang.eq_of_ackBit {lang : Lang} {s n m : BitVec 16} (hn : s ≠ n) (hdn : dist s n ≤ 16)
    (hm : s ≠ m) (h : (lang.ackBit s n).getLsbD (dist s m - 1) = true) : n = m := by
  have h0 : dist s n ≠ 0 := fun h => hn (dist_eq_zero.mp h)
  have h1 : dist s m ≠ 0 := fun h => hm (dist_eq_zero.mp h)
  have hk : dist s n - 1 = dist s m - 1 := by
    rw [ackBit_of_near hn hdn, BitVec.getLsbD_setWidth, BitVec.getLsbD_shiftLeft] at h
    simp at h
    omega
  exact dist_left_inj.mp (by omega : dist s n = dist s m)

/-- The bits of the ack field are those of the packets in the list. -/
theorem ackBits_iff {lang : Lang} {remote : BitVec 16} {rx : List AbstractPacket} {k : ℕ} :
    (ackBits lang remote rx).getLsbD k = true ↔
      ∃ x ∈ rx, lang.sequenceGreaterThan remote x.seqnum ∧
        (lang.ackBit remote x.seqnum).getLsbD k = true := by
  have hfold : ∀ (rx : List AbstractPacket) (bits : BitVec 16),
      (rx.foldl (fun ackbitfield pkt2ack =>
        if lang.sequenceGreaterThan remote pkt2ack.seqnum then
          ackbitfield ||| lang.ackBit remote pkt2ack.seqnum
        else ackbitfield) bits).getLsbD k = true ↔
      bits.getLsbD k = true ∨ ∃ x ∈ rx, lang.sequenceGreaterThan remote x.seqnum ∧
        (lang.ackBit remote x.seqnum).getLsbD k = true := by
    intro rx
    induction rx with
    | nil => simp
    | cons x rx ih =>
      intro bits
      rw [List.foldl_cons, ih, List.exists_mem_cons_iff]
      by_cases hx : lang.sequenceGreaterThan remote x.seqnum = true
      · rw [if_pos hx, BitVec.getLsbD_or, Bool.or_eq_true, or_assoc]
        simp only [hx, true_and]
      · simp only [hx, Bool.false_eq_true, if_false, false_and, false_or]
  have h0 : (0 : BitVec 16).getLsbD k = false := BitVec.getLsbD_zero
  rw [ackBits, hfold rx 0, h0]
  simp

/-! ### What a first and a later sending do -/

/-- The packet as `SendPacket` sends it the first time. -/
def firstSent (lang : Lang) (call : Call) (h : UDPHandler) (pkt : AbstractPacket) : AbstractPacket :=
  { pkt with
    attempts := 1, sendtime := call.now, seqnum := h.localseqnum, ack := h.remoteseqnum
    ackbitfield := ackBits lang h.remoteseqnum h.acksleftRx }

/-- The packet as `SendPacket` sends it again. -/
def sentAgain (lang : Lang) (call : Call) (pkt : AbstractPacket) : AbstractPacket :=
  { pkt with attempts := lang.updateSendAttempt pkt.attempts, sendtime := call.now }

/-- The handler after the first sending of a packet that went out. -/
def addSent (lang : Lang) (h : UDPHandler) (pkt : AbstractPacket) : UDPHandler :=
  if pkt.reliable then
    { h with
      acksleftTx := h.acksleftTx ++ [pkt]
      localseqnum := lang.sequenceIncrement h.localseqnum }
  else h

theorem sendPacket_first (lang : Lang) (call : Call) (h : UDPHandler) {pkt : AbstractPacket}
    (hpkt : pkt.attempts = 0) (hcall : call.sent = true) :
    sendPacket lang call h pkt =
      match lang.getBytes (firstSent lang call h pkt) with
      | .error e => ⟨h, firstSent lang call h pkt, [], some e⟩
      | .ok data => ⟨addSent lang h (firstSent lang call h pkt), firstSent lang call h pkt,
          [⟨firstSent lang call h pkt, data⟩], none⟩ := by
  simp only [sendPacket, hpkt, Lang.updateSendAttempt_zero, maxResend, hcall, Bool.not_true]
  simp only [firstSent, addSent]
  norm_num
  split <;> simp_all
  split_ifs <;> simp

theorem sendPacket_again {lang : Lang} (call : Call) (h : UDPHandler) {pkt : AbstractPacket}
    (hpkt : lang.updateSendAttempt pkt.attempts ≠ 1) :
    (sendPacket lang call h pkt).handler = h ∧
      (sendPacket lang call h pkt).pkt = sentAgain lang call pkt ∧
      ∀ d ∈ (sendPacket lang call h pkt).out,
        d.pkt = sentAgain lang call pkt ∧ lang.getBytes d.pkt = .ok d.data := by
  simp only [sendPacket, hpkt, if_false, and_false]
  by_cases hmax : lang.updateSendAttempt pkt.attempts > maxResend
  · simp [hmax, sentAgain]
  · cases hdata : lang.getBytes (sentAgain lang call pkt) with
    | error e => simp [hmax, sentAgain] at hdata ⊢; simp [hdata]
    | ok data =>
      by_cases hsent : call.sent = true
      · simp [hmax, hsent, sentAgain] at hdata ⊢; simp [hdata]
      · simp [hmax, hsent, sentAgain] at hdata ⊢; simp [hdata]

/-! ### The codec -/

/-- What goes out carries the header of its packet. -/
theorem Lang.getBytes_carries {lang : Lang} {p : AbstractPacket} {b : List UInt8}
    (h : lang.getBytes p = .ok b) : Carries b p.body.kind p.header := by
  cases lang with
  | java => exact Java.getBytes_carries h
  | cpp host => exact Cpp.getBytes_carries h

/-- What is decoded has the format and the header that were sent. -/
theorem Lang.decode_header {lang : Lang} {k k' : Kind} {b : List UInt8} {junk : ℕ → UInt8}
    {hd : Header} {q : AbstractPacket} (hb : Carries b k' hd)
    (h : lang.decode k b junk = .ok (some q)) : k = k' ∧ q.header = hd := by
  have hb' : Carries (b.take packetMaxSize) k' hd :=
    hb.take (by cases k' <;> simp [headerSize, packetMaxSize])
  cases lang with
  | java => exact (Java.decode_header h).unique hb'
  | cpp host =>
    obtain ⟨hm, hq⟩ := Cpp.decode_header h
    obtain ⟨hk, hhd⟩ := hm.carries hb'
    exact ⟨hk, hq.trans hhd⟩

/-- Both languages write the bytes of a well-formed packet. -/
theorem Lang.getBytes_eq (lang : Lang) {p : AbstractPacket} (h : WireFormat.WellFormed p) :
    lang.getBytes p = .ok (WireFormat.wireBytes p) := by
  cases lang with
  | java => exact WireFormat.java_getBytes h
  | cpp host => exact WireFormat.cpp_getBytes host h

/-- Both languages read them back. -/
theorem Lang.decode_eq (lang : Lang) {p : AbstractPacket} (h : WireFormat.WellFormed p)
    (junk : ℕ → UInt8) : lang.decode p.body.kind (WireFormat.wireBytes p) junk =
      .ok (some (WireFormat.received p)) := by
  have hlen : (WireFormat.wireBytes p).length ≤ packetMaxSize :=
    WireFormat.length_wireBytes p ▸ h.size
  cases lang with
  | java =>
    have hmagic : (WireFormat.wireBytes p).take 3 = packetHeader p.body.kind := by
      unfold WireFormat.wireBytes
      cases p.body <;> simp [netlibBytes, s64Bytes, packetHeader, Body.kind]
    rw [decode, List.take_of_length_le hlen, Java.decode_eq hmagic]
    simpa using WireFormat.java_readPacket h []
  | cpp host =>
    rw [decode, List.take_of_length_le hlen]
    exact WireFormat.cpp_decode host h junk

/-- An ackbeat can always be encoded. -/
theorem getBytes_newAckbeat (lang : Lang) (call : Call) (h : UDPHandler) (ref : ℕ) (k : Kind) :
    ∃ data, lang.getBytes (firstSent lang call h (newAckbeat ref k)) = .ok data := by
  have hw : WireFormat.WellFormed (firstSent lang call h (newAckbeat ref k)) := by
    cases k with
    | netlib =>
      exact ⟨UInt8.le_refl _, by simp [firstSent, newAckbeat, newNetLibPacket],
        by simp [WireFormat.wireLength, firstSent, newAckbeat, newNetLibPacket, packetMaxSize]⟩
    | s64 =>
      refine ⟨UInt8.le_refl _, fun type ht => ?_,
        by simp [WireFormat.wireLength, firstSent, newAckbeat, newS64Packet, packetMaxSize]⟩
      obtain rfl : ['A', 'C', 'K'] = type := by simpa [firstSent, newAckbeat, newS64Packet] using ht
      exact ⟨by decide, by simp⟩
  exact ⟨_, lang.getBytes_eq hw⟩

theorem not_reliable_newAckbeat (lang : Lang) (call : Call) (h : UDPHandler) (ref : ℕ) (k : Kind) :
    (firstSent lang call h (newAckbeat ref k)).reliable = false := by
  have hf : (firstSent lang call h (newAckbeat ref k)).flags = flagUnreliable := by cases k <;> rfl
  rw [AbstractPacket.reliable, hf]
  decide

/-! ### What a received packet does -/

/-- Whether the packet is answered with an ackbeat. -/
def answers (lang : Lang) (h : UDPHandler) (pkt : AbstractPacket) : Bool :=
  if isDuplicate h pkt then lang.acksDuplicate pkt else pkt.explicitAck

/-- The handler after a received packet. -/
def afterPacket (lang : Lang) (h : UDPHandler) (pkt : AbstractPacket) : UDPHandler :=
  if isDuplicate h pkt then h else accept lang h pkt

/-- Acknowledged packets leave `acksleft_tx`, and none comes into it. -/
theorem tx_afterPacket (lang : Lang) (h : UDPHandler) (pkt : AbstractPacket) :
    (afterPacket lang h pkt).acksleftTx.Sublist h.acksleftTx := by
  unfold afterPacket
  split_ifs
  · exact List.Sublist.refl _
  · exact List.filter_sublist

theorem localseqnum_afterPacket (lang : Lang) (h : UDPHandler) (pkt : AbstractPacket) :
    (afterPacket lang h pkt).localseqnum = h.localseqnum := by
  unfold afterPacket
  split_ifs <;> rfl

/-- What a received packet does to `acksleft_rx`: a reliable one that is new joins it, and the first
one makes room if there are too many. -/
theorem rx_afterPacket_cases (lang : Lang) (h : UDPHandler) (pkt : AbstractPacket) :
    (afterPacket lang h pkt).acksleftRx = h.acksleftRx ∨
      isDuplicate h pkt = false ∧ pkt.reliable = true ∧
        ∃ rest : List AbstractPacket, (afterPacket lang h pkt).acksleftRx = rest ++ [pkt] ∧
          rest.Sublist h.acksleftRx ∧ (h.acksleftRx.length ≤ 18 → rest.length ≤ 17) := by
  unfold afterPacket
  cases hdup : isDuplicate h pkt with
  | true => exact Or.inl rfl
  | false =>
    simp only [accept, Bool.false_eq_true, if_false]
    by_cases hrel : pkt.reliable = true
    · rw [if_pos hrel]
      refine Or.inr ⟨trivial, hrel, _, rfl, ?_, fun hlen => ?_⟩
      · split_ifs
        · exact List.tail_sublist _
        · exact List.Sublist.refl _
      · split_ifs with h17
        · rw [List.length_tail]
          omega
        · omega
    · rw [if_neg hrel]
      exact Or.inl rfl

/-- The ackbeat as it goes out after a received packet. -/
def ackSent (lang : Lang) (call : Call) (h : UDPHandler) (pkt : AbstractPacket) (ackref : ℕ)
    (k : Kind) : AbstractPacket :=
  firstSent lang call (afterPacket lang h pkt) (newAckbeat ackref k)

theorem sendAckbeat_eq (lang : Lang) {call : Call} (hcall : call.sent = true) (h : UDPHandler)
    (ref : ℕ) (k : Kind) (ret : Bool) :
    ∃ data, lang.getBytes (firstSent lang call h (newAckbeat ref k)) = .ok data ∧
      sendAckbeat lang call h (newAckbeat ref k) ret =
        ⟨h, [⟨firstSent lang call h (newAckbeat ref k), data⟩], .ok ret⟩ := by
  obtain ⟨data, hdata⟩ := getBytes_newAckbeat lang call h ref k
  have h0 : (newAckbeat ref k).attempts = 0 := by cases k <;> rfl
  exact ⟨data, hdata, by simp [sendAckbeat, sendPacket_first lang call h h0 hcall, hdata, addSent,
    not_reliable_newAckbeat lang call h ref k]⟩

/-- **A received packet**: it is accepted unless it is a duplicate, and answered or not. -/
theorem handlePacketSequence_eq (lang : Lang) {call : Call} (hcall : call.sent = true)
    (h : UDPHandler) (pkt : AbstractPacket) (ackref : ℕ) (k : Kind) :
    ∃ data, lang.getBytes (ackSent lang call h pkt ackref k) = .ok data ∧
      handlePacketSequence lang call h pkt (newAckbeat ackref k) =
        ⟨afterPacket lang h pkt,
          if answers lang h pkt then [⟨ackSent lang call h pkt ackref k, data⟩] else [],
          .ok !isDuplicate h pkt⟩ := by
  obtain ⟨data, hdata, hsend⟩ :=
    sendAckbeat_eq lang hcall (afterPacket lang h pkt) ackref k !isDuplicate h pkt
  refine ⟨data, hdata, ?_⟩
  unfold handlePacketSequence answers
  cases hdup : isDuplicate h pkt with
  | true =>
    simp only [afterPacket, ackSent, hdup, if_true, Bool.not_true] at hsend ⊢
    split_ifs
    · exact hsend
    · rfl
  | false =>
    simp only [afterPacket, ackSent, hdup, Bool.false_eq_true, if_false, Bool.not_false] at hsend ⊢
    split_ifs
    · exact hsend
    · rfl

theorem readPacket_eq {lang : Lang} (call : Call) (hcall : call.sent = true) {k : Kind}
    {data : List UInt8} {junk : ℕ → UInt8} {q : AbstractPacket}
    (hq : lang.decode k data junk = .ok (some q)) (h : UDPHandler) (ref ackref : ℕ) :
    ∃ data', lang.getBytes (ackSent lang call h { q with ref := ref } ackref k) = .ok data' ∧
      (readPacket lang k call h ref ackref data junk).handler =
        afterPacket lang h { q with ref := ref } ∧
      (readPacket lang k call h ref ackref data junk).out =
        (if answers lang h { q with ref := ref } then
          [⟨ackSent lang call h { q with ref := ref } ackref k, data'⟩] else []) ∧
      (readPacket lang k call h ref ackref data junk).verdict =
        some !isDuplicate h { q with ref := ref } := by
  obtain ⟨data', hdata', heq⟩ :=
    handlePacketSequence_eq lang hcall h { q with ref := ref } ackref k
  refine ⟨data', hdata', ?_⟩
  simp only [readPacket, hq, heq]
  cases isDuplicate h { q with ref := ref } <;> simp

theorem readPacket_none {lang : Lang} (call : Call) {k : Kind} {data : List UInt8}
    {junk : ℕ → UInt8} (hq : ∀ q, lang.decode k data junk ≠ .ok (some q)) (h : UDPHandler)
    (ref ackref : ℕ) :
    (readPacket lang k call h ref ackref data junk).handler = h ∧
      (readPacket lang k call h ref ackref data junk).out = [] ∧
      (readPacket lang k call h ref ackref data junk).verdict = none := by
  unfold readPacket
  cases hd : lang.decode k data junk with
  | error e => simp
  | ok o =>
    cases o with
    | none => simp
    | some q => exact absurd hd (hq q)

/-- The packet that a read returns. -/
theorem readPacket_result {lang : Lang} {k : Kind} {call : Call} {h : UDPHandler} {ref ackref : ℕ}
    {data : List UInt8} {junk : ℕ → UInt8} {p q : AbstractPacket}
    (hp : lang.decode k data junk = .ok (some p))
    (hq : (readPacket lang k call h ref ackref data junk).result = .ok (some q)) :
    q = { p with ref := ref } := by
  simp only [readPacket, hp] at hq
  split at hq
  · cases hq
  · cases hq
  · exact (Option.some.inj (Except.ok.inj hq)).symm

/-! ### Calls that return -/

theorem sendPacket_sent {lang : Lang} {call : Call} {h : UDPHandler} {pkt : AbstractPacket}
    (hexn : (sendPacket lang call h pkt).exn = none) : call.sent = true := by
  by_contra hsent
  revert hexn
  simp only [sendPacket]
  split_ifs
  · simp
  all_goals split <;> simp_all

theorem sendAckbeat_ok {lang : Lang} {call : Call} {h : UDPHandler} {ackbeat : AbstractPacket}
    {b ret : Bool} (hok : (sendAckbeat lang call h ackbeat b).result = .ok ret) :
    (sendPacket lang call h ackbeat).exn = none ∧ ret = b := by
  simp only [sendAckbeat] at hok
  split at hok
  · cases hok
  · next hexn => exact ⟨hexn, (Except.ok.inj hok).symm⟩

/-- `HandlePacketSequence` returns whether the packet is new. -/
theorem handlePacketSequence_ret {lang : Lang} {call : Call} {h : UDPHandler}
    {pkt ackbeat : AbstractPacket} {ret : Bool}
    (hret : (handlePacketSequence lang call h pkt ackbeat).result = .ok ret) :
    ret = !isDuplicate h pkt := by
  unfold handlePacketSequence at hret
  split_ifs at hret with hdup
  · rw [hdup, (sendAckbeat_ok hret).2, Bool.not_true]
  · rw [hdup, ← Except.ok.inj hret, Bool.not_true]
  · rw [Bool.not_eq_true] at hdup
    rw [hdup, (sendAckbeat_ok hret).2, Bool.not_false]
  · rw [Bool.not_eq_true] at hdup
    rw [hdup, ← Except.ok.inj hret, Bool.not_false]

/-! ### Calls of any outcome -/

/-- A new packet that the socket does not take. -/
theorem sendPacket_refused (lang : Lang) {call : Call} (hcall : call.sent = false) (h : UDPHandler)
    {pkt : AbstractPacket} (hpkt : pkt.attempts = 0) :
    (sendPacket lang call h pkt).handler = h ∧ (sendPacket lang call h pkt).out = [] ∧
      (sendPacket lang call h pkt).exn ≠ none := by
  have hmax : ¬ (1 : ℤ) > maxResend := by decide
  simp only [sendPacket, hpkt, Lang.updateSendAttempt_zero, hmax, hcall, Bool.not_false, if_true, if_false]
  split <;> exact ⟨rfl, rfl, by simp⟩

/-- **A received packet**, however the call ends: it ends well unless an ackbeat is refused, and the
handler has taken note of the packet in any case. -/
theorem handlePacketSequence_spec (lang : Lang) (call : Call) (h : UDPHandler) (pkt : AbstractPacket)
    (ackref : ℕ) (k : Kind) :
    (handlePacketSequence lang call h pkt (newAckbeat ackref k)).handler = afterPacket lang h pkt ∧
      (∀ d ∈ (handlePacketSequence lang call h pkt (newAckbeat ackref k)).out, d.pkt.ref = ackref) ∧
      ((∃ ret, (handlePacketSequence lang call h pkt (newAckbeat ackref k)).result = .ok ret) ↔
        (answers lang h pkt = true → call.sent = true)) := by
  cases hsent : call.sent with
  | true =>
    obtain ⟨data, -, heq⟩ := handlePacketSequence_eq lang hsent h pkt ackref k
    rw [heq]
    refine ⟨rfl, fun d hd => ?_, by simp⟩
    dsimp only at hd
    split_ifs at hd with ha
    · obtain rfl := List.mem_singleton.mp hd
      cases k <;> rfl
    · simp at hd
  | false =>
    have h0 : (newAckbeat ackref k).attempts = 0 := by cases k <;> rfl
    have hrefused : ∀ h' ret, (sendAckbeat lang call h' (newAckbeat ackref k) ret).handler = h' ∧
        (sendAckbeat lang call h' (newAckbeat ackref k) ret).out = [] ∧
        ¬ ∃ b, (sendAckbeat lang call h' (newAckbeat ackref k) ret).result = .ok b := fun h' ret => by
      obtain ⟨hh, hout, hexn⟩ := sendPacket_refused lang hsent h' h0
      exact ⟨hh, hout, fun ⟨b, hb⟩ => hexn (sendAckbeat_ok hb).1⟩
    unfold handlePacketSequence answers afterPacket
    dsimp only
    split_ifs with hdup hacks hacks
    · obtain ⟨hh, hout, hno⟩ := hrefused h false
      exact ⟨hh, by simp [hout], iff_of_false hno (by simp [hacks])⟩
    · exact ⟨rfl, by simp, iff_of_true ⟨_, rfl⟩ (by simp [hacks])⟩
    · obtain ⟨hh, hout, hno⟩ := hrefused (accept lang h pkt) true
      exact ⟨hh, by simp [hout], iff_of_false hno (by simp [hacks])⟩
    · exact ⟨rfl, by simp, iff_of_true ⟨_, rfl⟩ (by simp [hacks])⟩

/-- **A received datagram**, however the call ends. -/
theorem readPacket_spec (lang : Lang) (k : Kind) (call : Call) (h : UDPHandler) (ref ackref : ℕ)
    (data : List UInt8) (junk : ℕ → UInt8) :
    (readPacket lang k call h ref ackref data junk).handler =
        (match lang.decode k data junk with
          | .ok (some q) => afterPacket lang h { q with ref := ref }
          | _ => h) ∧
      (∀ d ∈ (readPacket lang k call h ref ackref data junk).out, d.pkt.ref = ackref) ∧
      ((∃ ret, (readPacket lang k call h ref ackref data junk).result = .ok ret) ↔
        match lang.decode k data junk with
          | .error _ => False
          | .ok none => True
          | .ok (some q) => answers lang h q = true → call.sent = true) := by
  unfold readPacket
  cases hd : lang.decode k data junk with
  | error e => simp
  | ok o =>
    cases o with
    | none => simp
    | some q =>
      obtain ⟨hh, hout, hok⟩ := handlePacketSequence_spec lang call h { q with ref := ref } ackref k
      have hanswers : answers lang h { q with ref := ref } = answers lang h q := by cases lang <;> rfl
      rw [hanswers] at hok
      dsimp only
      split
      · next e he =>
        exact ⟨hh, hout, iff_of_false (by simp) fun ha => by simpa [he] using hok.mpr ha⟩
      · next he => exact ⟨hh, hout, iff_of_true ⟨_, rfl⟩ (hok.mp ⟨_, he⟩)⟩
      · next he => exact ⟨hh, hout, iff_of_true ⟨_, rfl⟩ (hok.mp ⟨_, he⟩)⟩

/-! ### What goes out -/

/-- A datagram carries the packet it is sent for. -/
theorem body_of_mem_sendPacket {lang : Lang} {call : Call} {h : UDPHandler} {pkt : AbstractPacket}
    {d : Datagram} (hd : d ∈ (sendPacket lang call h pkt).out) : d.pkt.body = pkt.body := by
  simp only [sendPacket] at hd
  split at hd
  · simp at hd
  · split at hd
    · simp at hd
    · split_ifs at hd <;> simp only [List.not_mem_nil, List.mem_singleton] at hd
      all_goals rw [hd]

/-- It has the bytes of the packet as `SendPacket` leaves it. -/
theorem eq_of_mem_sendPacket {lang : Lang} {call : Call} {h : UDPHandler} {pkt : AbstractPacket}
    {d : Datagram} (hd : d ∈ (sendPacket lang call h pkt).out) :
    d.pkt = (sendPacket lang call h pkt).pkt ∧ lang.getBytes d.pkt = .ok d.data := by
  simp only [sendPacket] at hd ⊢
  split at hd
  · simp at hd
  · next hmax =>
    rw [if_neg hmax]
    split at hd
    · simp at hd
    · next data hdata =>
      split_ifs at hd ⊢ <;> simp_all

theorem sent_of_mem_sendPacket {lang : Lang} {call : Call} {h : UDPHandler} {pkt : AbstractPacket}
    {d : Datagram} (hd : d ∈ (sendPacket lang call h pkt).out) : call.sent = true := by
  by_contra hsent
  rw [Bool.not_eq_true] at hsent
  simp only [sendPacket, hsent, Bool.not_false, if_true] at hd
  split at hd
  · simp at hd
  · split at hd <;> simp at hd

/-- A read sends ackbeats only. -/
theorem exists_of_mem_readPacket {lang : Lang} {k : Kind} {call : Call} {h : UDPHandler}
    {ref ackref : ℕ} {data : List UInt8} {junk : ℕ → UInt8} {d : Datagram}
    (hd : d ∈ (readPacket lang k call h ref ackref data junk).out) :
    ∃ h', d ∈ (sendPacket lang call h' (newAckbeat ackref k)).out := by
  have hhandle : ∀ {pkt : AbstractPacket},
      d ∈ (handlePacketSequence lang call h pkt (newAckbeat ackref k)).out →
        ∃ h', d ∈ (sendPacket lang call h' (newAckbeat ackref k)).out := fun {pkt} hmem => by
    unfold handlePacketSequence at hmem
    split_ifs at hmem
    · exact ⟨_, hmem⟩
    · simp at hmem
    · exact ⟨_, hmem⟩
    · simp at hmem
  unfold readPacket at hd
  split at hd
  · simp at hd
  · simp at hd
  · dsimp only at hd
    split at hd <;> exact hhandle hd

theorem body_of_mem_readPacket {lang : Lang} {k : Kind} {call : Call} {h : UDPHandler} {ref ackref : ℕ}
    {data : List UInt8} {junk : ℕ → UInt8} {d : Datagram}
    (hd : d ∈ (readPacket lang k call h ref ackref data junk).out) :
    d.pkt.body = (newAckbeat ackref k).body := by
  obtain ⟨h', hd'⟩ := exists_of_mem_readPacket hd
  exact body_of_mem_sendPacket hd'

/-! ### Calls that throw -/

/-- What `SendPacket` throws. -/
theorem sendPacket_exn_cases {lang : Lang} {call : Call} {h : UDPHandler} {pkt : AbstractPacket}
    {e : Exn} (he : (sendPacket lang call h pkt).exn = some e) :
    (e = .clientTimeout ∧ lang.updateSendAttempt pkt.attempts > maxResend) ∨
      (∃ p, lang.getBytes p = .error e) ∨ e = .io := by
  simp only [sendPacket] at he
  by_cases hmax : lang.updateSendAttempt pkt.attempts > maxResend
  · rw [if_pos hmax] at he
    exact Or.inl ⟨(Option.some.inj he).symm, hmax⟩
  · rw [if_neg hmax] at he
    split at he
    · next e' hbytes => exact Or.inr (Or.inl ⟨_, Option.some.inj he ▸ hbytes⟩)
    · by_cases hsent : (!call.sent) = true
      · rw [if_pos hsent] at he
        exact Or.inr (Or.inr (Option.some.inj he).symm)
      · rw [if_neg hsent] at he
        simp [apply_ite Sent.exn] at he

/-- What `HandlePacketSequence` throws comes from sending the ackbeat. -/
theorem handlePacketSequence_error_cases {lang : Lang} {call : Call} {h : UDPHandler}
    {pkt ackbeat : AbstractPacket} {e : Exn}
    (he : (handlePacketSequence lang call h pkt ackbeat).result = .error e) :
    ∃ h', (sendPacket lang call h' ackbeat).exn = some e := by
  have hack : ∀ {h' ret}, (sendAckbeat lang call h' ackbeat ret).result = .error e →
      (sendPacket lang call h' ackbeat).exn = some e := by
    intro h' ret hresult
    simp only [sendAckbeat] at hresult
    split at hresult
    · next e' hexn => exact Except.error.inj hresult ▸ hexn
    · cases hresult
  unfold handlePacketSequence at he
  split_ifs at he
  · exact ⟨_, hack he⟩
  · exact ⟨_, hack he⟩

/-- What a read throws comes from the datagram or from sending the ackbeat. -/
theorem readPacket_error_cases {lang : Lang} {k : Kind} {call : Call} {h : UDPHandler} {ref ackref : ℕ}
    {data : List UInt8} {junk : ℕ → UInt8} {e : Exn}
    (he : (readPacket lang k call h ref ackref data junk).result = .error e) :
    lang.decode k data junk = .error e ∨
      ∃ h', (sendPacket lang call h' (newAckbeat ackref k)).exn = some e := by
  unfold readPacket at he
  split at he
  · next e' hdecode => exact Or.inl (Except.error.inj he ▸ hdecode)
  · cases he
  · dsimp only at he
    split at he
    · next e' hsequence =>
      exact Or.inr (handlePacketSequence_error_cases (Except.error.inj he ▸ hsequence))
    · cases he
    · cases he

/-- What `ResendMissingPackets` throws comes from sending one of the packets, or from the list that the
loop runs over. -/
theorem resendLoop_exn_cases {lang : Lang} {calls : ℕ → Call} {h : UDPHandler} {e : Exn} :
    ∀ {tx : List AbstractPacket} {i : ℕ}, (resendLoop lang calls h i tx).exn = some e →
      e = .concurrentModification ∨
        ∃ pkt ∈ tx, ∃ call h', (sendPacket lang call h' pkt).exn = some e
  | [], i, he => by cases he
  | pkt2ack :: tx, i, he => by
    have hrest : (resendLoop lang calls h (i + 1) tx).exn = some e → e = .concurrentModification ∨
        ∃ pkt ∈ pkt2ack :: tx, ∃ call h', (sendPacket lang call h' pkt).exn = some e := fun he =>
      (resendLoop_exn_cases he).imp_right fun ⟨pkt, hpkt, hsend⟩ =>
        ⟨pkt, List.mem_cons_of_mem _ hpkt, hsend⟩
    unfold resendLoop at he
    split_ifs at he
    · dsimp only at he
      split at he
      · next e' hexn =>
        exact Or.inr ⟨pkt2ack, by simp, _, _, hexn.trans he⟩
      · split_ifs at he
        · exact Or.inl (Option.some.inj he).symm
        · exact hrest he
    · exact hrest he

/-! ### What resending does -/

/-- The packet that `SendPacket` leaves behind: it was sent again, or its counter came to one. -/
theorem pkt_sendPacket_cases (lang : Lang) (call : Call) (h : UDPHandler) (pkt : AbstractPacket) :
    (sendPacket lang call h pkt).pkt = sentAgain lang call pkt ∨
      lang.updateSendAttempt pkt.attempts = 1 ∧
        (sendPacket lang call h pkt).pkt = firstSent lang call h pkt := by
  by_cases hone : lang.updateSendAttempt pkt.attempts = 1
  · refine Or.inr ⟨hone, ?_⟩
    have hmax : ¬ (1 : ℤ) > maxResend := by decide
    simp only [sendPacket, hone, hmax, if_true, if_false]
    split
    · rfl
    · split_ifs <;> rfl
  · exact Or.inl (sendPacket_again call h hone).2.1

/-- A packet sent for the first time may join the list. -/
theorem tx_sendPacket_cases (lang : Lang) (call : Call) (h : UDPHandler) (pkt : AbstractPacket) :
    (sendPacket lang call h pkt).handler.acksleftTx = h.acksleftTx ∨
      (sendPacket lang call h pkt).handler.acksleftTx =
        h.acksleftTx ++ [(sendPacket lang call h pkt).pkt] := by
  simp only [sendPacket]
  split
  · exact Or.inl rfl
  · split
    · exact Or.inl rfl
    · split_ifs <;> first | exact Or.inl rfl | exact Or.inr rfl

/-- The list after `ResendMissingPackets`: packets as they were, and packets as `SendPacket` leaves them,
which did not throw if the loop came to its end. -/
theorem mem_tx_resendLoop {lang : Lang} {calls : ℕ → Call} {h : UDPHandler} {p : AbstractPacket} :
    ∀ {tx : List AbstractPacket} {i : ℕ}, p ∈ (resendLoop lang calls h i tx).handler.acksleftTx →
      ∃ q ∈ tx, p = q ∨ ∃ call h', p = (sendPacket lang call h' q).pkt ∧
        ((resendLoop lang calls h i tx).exn = none → (sendPacket lang call h' q).exn = none)
  | [], _, hp => by simp [resendLoop] at hp
  | q :: tx, i, hp => by
    set r := sendPacket lang (calls i) { h with acksleftTx := q :: tx } q with hr
    have hone : p = r.pkt ∨ p ∈ r.handler.acksleftTx.tail → p = r.pkt ∨ p ∈ tx := by
      rintro (hp | hp)
      · exact Or.inl hp
      · rcases tx_sendPacket_cases lang (calls i) { h with acksleftTx := q :: tx } q with htx | htx
        · rw [← hr] at htx
          rw [htx] at hp
          exact Or.inr hp
        · rw [← hr] at htx
          rw [htx] at hp
          rcases List.mem_append.mp hp with hp | hp
          · exact Or.inr hp
          · exact Or.inl (List.mem_singleton.mp hp)
    by_cases hover : (calls i).asked - q.sendtime > timeResend
    · simp only [resendLoop, hover, if_true, ← hr] at hp ⊢
      rcases Option.eq_none_or_eq_some r.exn with hexn | ⟨e, hexn⟩
      · by_cases hround : r.pkt.attempts = 1
        · simp only [hexn, hround, if_true, List.mem_cons] at hp ⊢
          rcases hone hp with rfl | hp
          · exact ⟨q, Or.inl rfl, Or.inr ⟨_, _, rfl, fun _ => hexn⟩⟩
          · exact ⟨p, Or.inr hp, Or.inl rfl⟩
        · simp only [hexn, hround, if_false, List.mem_cons] at hp ⊢
          rcases hp with rfl | hp
          · exact ⟨q, Or.inl rfl, Or.inr ⟨_, _, rfl, fun _ => hexn⟩⟩
          · obtain ⟨q', hq', hcases⟩ := mem_tx_resendLoop hp
            exact ⟨q', Or.inr hq', hcases⟩
      · simp only [hexn, List.mem_cons] at hp ⊢
        rcases hone hp with rfl | hp
        · exact ⟨q, Or.inl rfl, Or.inr ⟨_, _, rfl, fun h0 => by cases h0⟩⟩
        · exact ⟨p, Or.inr hp, Or.inl rfl⟩
    · simp only [resendLoop, hover, if_false, List.mem_cons] at hp ⊢
      rcases hp with rfl | hp
      · exact ⟨p, Or.inl rfl, Or.inl rfl⟩
      · obtain ⟨q', hq', hcases⟩ := mem_tx_resendLoop hp
        exact ⟨q', Or.inr hq', hcases⟩

/-- What `ResendMissingPackets` sends. -/
theorem mem_out_resendLoop {lang : Lang} {calls : ℕ → Call} {h : UDPHandler} {d : Datagram} :
    ∀ {tx : List AbstractPacket} {i : ℕ}, d ∈ (resendLoop lang calls h i tx).out →
      ∃ q ∈ tx, ∃ call h', d ∈ (sendPacket lang call h' q).out
  | [], _, hd => by simp [resendLoop] at hd
  | q :: tx, i, hd => by
    have hrest : d ∈ (resendLoop lang calls h (i + 1) tx).out →
        ∃ q' ∈ q :: tx, ∃ call h', d ∈ (sendPacket lang call h' q').out := fun hd => by
      obtain ⟨q', hq', hsend⟩ := mem_out_resendLoop hd
      exact ⟨q', List.mem_cons_of_mem _ hq', hsend⟩
    have hone : d ∈ (sendPacket lang (calls i) { h with acksleftTx := q :: tx } q).out →
        ∃ q' ∈ q :: tx, ∃ call h', d ∈ (sendPacket lang call h' q').out := fun hd =>
      ⟨q, by simp, _, _, hd⟩
    unfold resendLoop at hd
    split_ifs at hd
    · dsimp only at hd
      split at hd
      · exact hone hd
      · split_ifs at hd
        · exact hone hd
        · exact (List.mem_append.mp hd).elim hone hrest
    · exact hrest hd

/-- The same object with the same header, whatever the clock and the counter say. -/
def Same (p q : AbstractPacket) : Prop := p.ref = q.ref ∧ p.header = q.header

theorem Same.refl (p : AbstractPacket) : Same p p := ⟨rfl, rfl⟩

theorem same_sentAgain (lang : Lang) (call : Call) (p : AbstractPacket) :
    Same (sentAgain lang call p) p := ⟨rfl, rfl⟩

/-- As long as no attempt counter comes round to one, resending changes the clocks and the counters
of the list only, and sends out what is in it. -/
theorem resendLoop_same (lang : Lang) (calls : ℕ → Call) (h : UDPHandler) :
    ∀ {tx : List AbstractPacket} (i : ℕ), (∀ q ∈ tx, lang.updateSendAttempt q.attempts ≠ 1) →
      ∃ tx', (resendLoop lang calls h i tx).handler = { h with acksleftTx := tx' } ∧
        List.Forall₂ Same tx' tx ∧ ∀ d ∈ (resendLoop lang calls h i tx).out,
          lang.getBytes d.pkt = .ok d.data ∧ ∃ q ∈ tx, Same d.pkt q
  | [], i, _ => ⟨[], rfl, .nil, by simp [resendLoop]⟩
  | pkt2ack :: tx, i, hone => by
    obtain ⟨tx', htx, hsame, hout⟩ := resendLoop_same lang calls h (i + 1)
      fun q hq => hone q (List.mem_cons_of_mem _ hq)
    have hmem : ∀ d ∈ (resendLoop lang calls h (i + 1) tx).out,
        lang.getBytes d.pkt = .ok d.data ∧ ∃ q ∈ pkt2ack :: tx, Same d.pkt q := fun d hd => by
      obtain ⟨hb, q, hq, hs⟩ := hout d hd
      exact ⟨hb, q, List.mem_cons_of_mem _ hq, hs⟩
    unfold resendLoop
    split_ifs with hold
    · obtain ⟨hh, hp, hd⟩ := sendPacket_again (calls i)
        { h with acksleftTx := pkt2ack :: tx } (hone pkt2ack (by simp))
      have hfirst : ∀ d ∈ (sendPacket lang (calls i) { h with acksleftTx := pkt2ack :: tx }
          pkt2ack).out, lang.getBytes d.pkt = .ok d.data ∧ ∃ q ∈ pkt2ack :: tx, Same d.pkt q :=
        fun d h => ⟨(hd d h).2, pkt2ack, by simp, (hd d h).1 ▸ same_sentAgain lang (calls i) pkt2ack⟩
      have hs := same_sentAgain lang (calls i) pkt2ack
      dsimp only
      split
      · refine ⟨sentAgain lang (calls i) pkt2ack :: tx, by simp [hh, hp], .cons hs ?_, hfirst⟩
        exact List.forall₂_same.mpr fun q _ => Same.refl q
      · rw [if_neg (by rw [hp]; exact hone pkt2ack (by simp))]
        refine ⟨sentAgain lang (calls i) pkt2ack :: tx', by simp [hp, htx], .cons hs hsame, ?_⟩
        exact fun d hd => (List.mem_append.mp hd).elim (hfirst d) (hmem d)
    · exact ⟨pkt2ack :: tx', by simp [htx], .cons (Same.refl _) hsame, hmem⟩

end N64NetLib.Udp.Handler
