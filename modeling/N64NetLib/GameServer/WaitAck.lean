import N64NetLib.GameServer.MasterConnection

/-! # Does `WaitAck` wait for its own packet?

A game server's `MasterConnectionThread` and the master, over a network that drops, doubles, delays and
reorders. Every packet the thread sends is an object with a number of its own; the network keeps whatever
was put on it, and delivers any of it at any time. The master answers each datagram with a new handler.

`WaitAck` looks at the type of what it takes from the queue, and returns with the first `ACK`. This may be a
late answer to an earlier packet; and of the numbers from 32768 on, the answer of a new handler covers every
other sixteen only (`answer_acks_iff`). `along_acknowledged`: in the runs in which `WaitAck` returns with no
late `ACK`, and waits for a packet that an answer covers, the packet has been received then and is no longer
in `acksleft_tx`. -/

namespace N64NetLib.GameServer.WaitAck

open N64NetLib.Lib.Run N64NetLib.Packet N64NetLib.Packet.Basic N64NetLib.Packet.Sequence
open N64NetLib.Udp.Handler N64NetLib.Udp.AckFields
open N64NetLib.GameServer.MasterConnection
  (ackType registerType heartbeatType getType Reply readS64Packet Stage caught work)

/-- `MasterConnectionThread`. -/
abbrev Thread := MasterConnection.State

variable (data : List UInt8)

/-! ### The thread and its packets -/

/-- The packet that the thread makes, as the object `ref`. -/
def newPacket (ref : ℕ) (register : Bool) : AbstractPacket :=
  newS64Packet ref (if register then registerType else heartbeatType) data flagExplicitack

/-- `SendPacket` of a `REGISTER` or a `HEARTBEAT`, with what goes out. -/
def send (ref : ℕ) (th : Thread) (call : Call) (register : Bool) : Thread × List Datagram :=
  let r := sendPacket .java call th.handler (newPacket data ref register)
  (th.after r.handler r.out
    (match r.exn with
    | none => .waiting register
    | some e => caught th.firsttime register e), r.out)

/-- The thread goes on: what it makes now is the object `ref`. -/
def act (ref : ℕ) (th : Thread) (call : Call) (calls : ℕ → Call) : Thread × List Datagram :=
  match th.stage with
  | .registering => send data ref th call true
  | .sleeping => send data ref th call false
  | .waiting _ =>
    (work data th call calls,
      match th.msgqueue with
      | [] => (resendMissingPackets .java calls th.handler).out
      | reply :: _ => (readS64Packet call th.handler reply).out)
  | .polling =>
    (work data th call calls,
      match th.msgqueue with
      | [] => []
      | reply :: _ => if th.firsttime then [] else (readS64Packet call th.handler reply).out)
  | .ended => (th, [])

/-- The numbers of the objects apart, this is the thread. -/
theorem act_zero (th : Thread) (call : Call) (calls : ℕ → Call) :
    (act data 0 th call calls).1 = work data th call calls := by
  unfold act send work newPacket
  cases th.stage <;> rfl

/-- `WaitAck` takes an `ACK`, and returns. -/
def returns (call : Call) (th : Thread) : Bool :=
  match th.stage, th.msgqueue with
  | .waiting _, reply :: _ =>
    match (readS64Packet call th.handler reply).result with
    | .ok (some pkt) => getType pkt = ackType
    | _ => false
  | _, _ => false

/-! ### The master -/

/-- `ClientConnectionThread` with one datagram and a new handler: whether it gets the packet, and what it
sends. It asks a server that it does not know for a `REGISTER`. -/
def serve (call : Call) (asks : Bool) (bytes : List UInt8) : Bool × List Datagram :=
  let r := readPacket .java .s64 call newUDPHandler 0 0 bytes fun _ => 0
  match r.result with
  | .ok (some pkt) =>
    (true, r.out ++
      if asks && getType pkt = heartbeatType then
        (sendPacket .java call r.handler (newS64Packet 0 registerType [] flagUnreliable)).out
      else [])
  | _ => (false, r.out)

/-! ### The system -/

/-- A datagram of the master, and the object that it answers. -/
structure Answer where
  cause : ℕ
  bytes : List UInt8
deriving DecidableEq

/-- The thread; what it put on the network; the objects that the master received; what the master put on
the network; the objects that the packets in the thread's queue answer; how many objects the thread has
made, the last of which it waits for, with the number it sent it under; and whether `WaitAck` has taken an
answer to it. -/
structure State where
  thread : Thread
  sent : List Datagram
  received : List ℕ
  answers : List Answer
  causes : List ℕ
  made : ℕ
  number : BitVec 16
  heard : Bool

/-- The start. -/
def init : State := ⟨MasterConnection.init, [], [], [], [], 0, 0, false⟩

/-- The thread goes on, the master receives a datagram of the thread, or the thread one of the master. -/
inductive Label
  | work (call : Call) (calls : ℕ → Call)
  | serve (i : ℕ) (call : Call) (asks : Bool)
  | deliver (i : ℕ)

/-- What is known of the packets after the thread has gone on. -/
def State.after (s : State) (r : Thread × List Datagram) : State :=
  match s.thread.stage with
  | .registering | .sleeping =>
    { s with
      thread := r.1, sent := s.sent ++ r.2, made := s.made + 1
      number := s.thread.handler.localseqnum, heard := false }
  | .waiting _ =>
    { s with
      thread := r.1, sent := s.sent ++ r.2, causes := s.causes.tail
      heard := s.heard || s.causes.head? = some s.made }
  | _ => { s with thread := r.1, sent := s.sent ++ r.2, causes := s.causes.tail }

/-- One step. -/
def step (s : State) : Label → Option State
  | .work call calls =>
    if s.thread.stage = .ended then none
    else some (s.after (act data (s.made + 1) s.thread call calls))
  | .serve i call asks =>
    (s.sent[i]?).map fun d =>
      let r := serve call asks d.data
      { s with
        received := s.received ++ if r.1 then [d.pkt.ref] else []
        answers := s.answers ++ r.2.map fun a => ⟨d.pkt.ref, a.data⟩ }
  | .deliver i =>
    (s.answers[i]?).map fun a =>
      { s with
        thread := { s.thread with msgqueue := s.thread.msgqueue ++ [a.bytes] }
        causes := s.causes ++ [a.cause] }

/-- The packet that the thread made last is done with. -/
def Done (s : State) : Prop :=
  (∀ q ∈ s.thread.handler.acksleftTx, q.ref ≠ s.made) ∧ s.made ∈ s.received

/-- **`WaitAck` waits for its own packet**: when it returns, the packet has been received and is no longer
in `acksleft_tx`. -/
def Acknowledged (s : State) : Label → Prop
  | .work call calls =>
    returns call s.thread = true → ∀ s', step data s (.work call calls) = some s' → Done s'
  | _ => True

/-- The answer of a new handler covers the packet with this number: the number is ahead of zero, or the
shift counts, which Java takes modulo 32, come to a bit of the field. -/
def Covered (n : BitVec 16) : Prop := n.toNat < 32768 ∨ (65535 - n.toNat) % 32 < 16

/-- What `WaitAck` needs to return: a packet that an answer covers, and no late answer to an earlier packet
unless an answer to this one came before. -/
def Own (s : State) : Label → Prop
  | .work call _ => returns call s.thread = true →
      Covered s.number ∧ ∀ cause ∈ s.causes.head?, cause < s.made → s.heard = true
  | _ => True

instance (n : BitVec 16) : Decidable (Covered n) := by unfold Covered; infer_instance

instance (s : State) : Decidable (Done s) := by unfold Done; infer_instance

instance decidableAcknowledged (s : State) : ∀ a, Decidable (Acknowledged data s a)
  | .work call calls => by unfold Acknowledged; infer_instance
  | .serve .. => isTrue trivial
  | .deliver _ => isTrue trivial

instance decidableOwn (s : State) : ∀ a, Decidable (Own s a)
  | .work call _ => by unfold Own; infer_instance
  | .serve .. => isTrue trivial
  | .deliver _ => isTrue trivial

/-! ### The answer of a new handler -/

/-- A reliable packet that asks for an ack, as a new handler takes note of it. -/
theorem rx_accept {pkt : AbstractPacket} (hflags : pkt.flags = flagExplicitack) :
    (accept .java newUDPHandler pkt).acksleftRx = [pkt] := by
  have hrel : pkt.reliable = true := by rw [AbstractPacket.reliable, hflags]; decide
  simp [accept, hrel, newUDPHandler]

theorem toInt_start : (0 : BitVec 16).toInt = 0 := rfl

/-- The first half of the numbers is ahead of a new handler, and the second half behind it. -/
theorem remote_accept (pkt : AbstractPacket) :
    (accept .java newUDPHandler pkt).remoteseqnum =
      if pkt.seqnum.toNat < 32768 then pkt.seqnum else 0 := by
  have hlt := pkt.seqnum.isLt
  have hdist : dist pkt.seqnum 0 = pkt.seqnum.toNat := by simp [Sequence.dist]
  have hgt : Lang.java.sequenceGreaterThan pkt.seqnum 0 = true ↔
      0 < pkt.seqnum.toNat ∧ pkt.seqnum.toNat < 32768 := by
    rw [Lang.sequenceGreaterThan_iff, hdist, Lang.toInt, Lang.toInt, toInt_start,
      BitVec.toInt_eq_toNat_cond]
    split_ifs <;> omega
  show (if Lang.java.sequenceGreaterThan pkt.seqnum 0 then pkt.seqnum else 0) = _
  simp only [hgt]
  split_ifs with h1 h2
  · rfl
  · exact absurd h1.2 h2
  · have hzero : pkt.seqnum.toNat = 0 := by omega
    exact (BitVec.eq_of_toNat_eq hzero).symm
  · rfl

/-- **What an answer covers**: exactly the packets with such a number. -/
theorem answer_acks_iff {pkt : AbstractPacket} (hflags : pkt.flags = flagExplicitack) :
    javaIsAcked (accept .java newUDPHandler pkt).remoteseqnum
      (ackBits .java (accept .java newUDPHandler pkt).remoteseqnum
        (accept .java newUDPHandler pkt).acksleftRx) pkt.seqnum = true ↔ Covered pkt.seqnum := by
  have hlt := pkt.seqnum.isLt
  rw [remote_accept, rx_accept hflags]
  split_ifs with h
  · simp [javaIsAcked, Covered, h]
  · have hne : (0 : BitVec 16) ≠ pkt.seqnum := fun heq => h (by rw [← heq]; decide)
    have hdist : dist 0 pkt.seqnum = 65536 - pkt.seqnum.toNat := by
      rcases dist_cases 0 pkt.seqnum with ⟨hle, -⟩ | ⟨-, hd⟩
      · have hzero : (0 : BitVec 16).toNat = 0 := rfl
        omega
      · simpa using hd
    have hgt : Lang.java.sequenceGreaterThan 0 pkt.seqnum = true := by
      rw [Lang.sequenceGreaterThan_iff, hdist, Lang.toInt, Lang.toInt, toInt_start,
        BitVec.toInt_eq_toNat_cond]
      split_ifs <;> omega
    have hcount : (((dist 0 pkt.seqnum : ℕ) : ℤ) - 1) % 32 = ((65535 - pkt.seqnum.toNat) % 32 : ℕ) := by
      omega
    have hmin : (dist 0 pkt.seqnum - 1) % 32 = (65535 - pkt.seqnum.toNat) % 32 := by omega
    rw [javaIsAcked_iff hne, ackBits_iff]
    simp only [List.mem_singleton, exists_eq_left, hgt, true_and]
    rw [Lang.ackBit, javaSequenceDelta_eq, javaShiftOne, hcount, hmin, Int.toNat_natCast,
      BitVec.getLsbD_setWidth, BitVec.getLsbD_shiftLeft]
    simp [Covered, h]
    omega

/-- The packet that a handler of the master sends. -/
def replyOf (h : UDPHandler) (register : Bool) : Reply :=
  ⟨register, h.localseqnum, h.remoteseqnum, ackBits .java h.remoteseqnum h.acksleftRx⟩

theorem getBytes_reply (call : Call) (h : UDPHandler) (ref : ℕ) (register : Bool) :
    Lang.java.getBytes (firstSent .java call h
      (newS64Packet ref (if register then registerType else ackType) [] flagUnreliable)) =
        .ok (replyOf h register).bytes :=
  (show _ = Lang.java.getBytes (replyOf h register).pkt from rfl).trans
    (Lang.java.getBytes_eq (MasterConnection.wellFormed_reply (replyOf h register)))

/-- Nothing goes out unless the socket takes it. -/
theorem sent_of_mem_serve {call : Call} {asks : Bool} {bytes : List UInt8} {a : Datagram}
    (ha : a ∈ (serve call asks bytes).2) : call.sent = true := by
  have hread : a ∈ (readPacket .java .s64 call newUDPHandler 0 0 bytes fun _ => 0).out →
      call.sent = true := fun hmem => by
    obtain ⟨h', ha'⟩ := exists_of_mem_readPacket hmem
    exact sent_of_mem_sendPacket ha'
  unfold serve at ha
  dsimp only at ha
  split at ha
  · rcases List.mem_append.mp ha with ha | ha
    · exact hread ha
    · split_ifs at ha
      · exact sent_of_mem_sendPacket ha
      · simp at ha
  · exact hread ha

/-- What the master does with a packet of the thread. -/
theorem read_serve {call : Call} (hsent : call.sent = true) {bytes : List UInt8} {q : AbstractPacket}
    (hq : Lang.java.decode .s64 bytes (fun _ => 0) = .ok (some q))
    (hflags : q.flags = flagExplicitack) :
    let h := accept .java newUDPHandler { q with ref := 0 }
    ∃ p, readPacket .java .s64 call newUDPHandler 0 0 bytes (fun _ => 0) =
      ⟨h, [⟨p, (replyOf h false).bytes⟩], some true, .ok (some { q with ref := 0 })⟩ := by
  intro h
  have hask : AbstractPacket.explicitAck { q with ref := 0 } = true := by
    rw [AbstractPacket.explicitAck, hflags]
    decide
  obtain ⟨ack, hack, hsend⟩ := sendAckbeat_eq .java hsent h 0 .s64 true
  have hbytes : ack = (replyOf h false).bytes :=
    Except.ok.inj (hack.symm.trans (getBytes_reply call h 0 false))
  have hhandle : handlePacketSequence .java call newUDPHandler { q with ref := 0 } (newAckbeat 0 .s64) =
      sendAckbeat .java call h (newAckbeat 0 .s64) true := by
    unfold handlePacketSequence
    rw [if_neg (by simp [isDuplicate, newUDPHandler]), if_pos hask]
  rw [hsend] at hhandle
  refine ⟨firstSent .java call h (newAckbeat 0 .s64), ?_⟩
  simp only [readPacket, hq, hhandle, hbytes]

/-- **The master answers** only what it receives, and with a packet that covers it. -/
theorem mem_serve {call : Call} {asks : Bool} {bytes : List UInt8} {hd : Header}
    (hbytes : Carries bytes .s64 hd) (hflags : hd.flags = flagExplicitack) {a : Datagram}
    (ha : a ∈ (serve call asks bytes).2) :
    (serve call asks bytes).1 = true ∧ ∃ r : Reply, a.data = r.bytes ∧
      (Covered hd.seqnum → javaIsAcked r.ack r.ackbitfield hd.seqnum = true) := by
  have hsent := sent_of_mem_serve ha
  by_cases hpkt : ∃ q, Lang.java.decode .s64 bytes (fun _ => 0) = .ok (some q)
  · obtain ⟨q, hq⟩ := hpkt
    have hheader : q.header = hd := (Lang.decode_header hbytes hq).2
    have hflags' : q.flags = flagExplicitack := by rw [← hflags, ← hheader]; rfl
    set q' : AbstractPacket := { q with ref := 0 } with hq'
    set h := accept .java newUDPHandler q' with hh
    have hacks : Covered hd.seqnum → ∀ register, javaIsAcked (replyOf h register).ack
        (replyOf h register).ackbitfield hd.seqnum = true := fun hcovered _ => by
      rw [← hheader] at hcovered ⊢
      exact (answer_acks_iff (show q'.flags = flagExplicitack from hflags')).mpr hcovered
    obtain ⟨p, hread⟩ := read_serve hsent hq hflags'
    simp only [serve, hread] at ha ⊢
    refine ⟨trivial, ?_⟩
    rcases List.mem_append.mp ha with ha | ha
    · rw [List.mem_singleton.mp ha]
      exact ⟨replyOf h false, rfl, fun hcovered => hacks hcovered false⟩
    · split_ifs at ha
      · rw [sendPacket_first .java call _ rfl hsent] at ha
        have hregister := getBytes_reply call h 0 true
        rw [if_pos rfl] at hregister
        rw [hregister] at ha
        rw [List.mem_singleton.mp ha]
        exact ⟨replyOf h true, rfl, fun hcovered => hacks hcovered true⟩
      · simp at ha
  · exfalso
    cases hd : Lang.java.decode .s64 bytes (fun _ => 0) with
    | error e => simp [serve, readPacket, hd] at ha
    | ok o =>
      cases o with
      | none => simp [serve, readPacket, hd] at ha
      | some q => exact hpkt ⟨q, hd⟩

/-- **The thread reads every packet of the master**, and takes off `acksleft_tx` what it acknowledges. -/
theorem exists_read_reply (r : Reply) (call : Call) {h : UDPHandler} (hrx : h.acksleftRx = []) :
    ∃ h' verdict, readS64Packet call h r.bytes = ⟨h', [], verdict, .ok (some r.pkt)⟩ ∧
      h'.acksleftRx = [] ∧
      h'.acksleftTx = h.acksleftTx.filter fun q => !javaIsAcked r.ack r.ackbitfield q.seqnum := by
  obtain ⟨hresult, hout, hrx'⟩ := MasterConnection.read_reply r call hrx
  have hdup : isDuplicate h { r.pkt with ref := 0 } = false := by simp [isDuplicate, hrx]
  have hread := (readPacket_spec .java .s64 call h 0 0 r.bytes fun _ => 0).1
  rw [MasterConnection.decode_reply] at hread
  have htx : (readS64Packet call h r.bytes).handler.acksleftTx =
      h.acksleftTx.filter fun q => !javaIsAcked r.ack r.ackbitfield q.seqnum := by
    rw [readS64Packet, hread]
    simp only [afterPacket, hdup, Bool.false_eq_true, if_false]
    rfl
  refine ⟨_, (readS64Packet call h r.bytes).verdict, ?_, hrx', htx⟩
  rw [← hout, ← hresult]

/-! ### The invariant -/

/-- A packet of the thread: one of the objects made so far, and if it is the last one, under its number. -/
structure Ours (made : ℕ) (number : BitVec 16) (q : AbstractPacket) : Prop where
  ref : q.ref ≤ made
  flags : q.flags = flagExplicitack
  kind : q.body.kind = .s64
  number : q.ref = made → q.seqnum = number

/-- A datagram of the master: it answers an object that the master received, and covers it. -/
structure Fair (made : ℕ) (number : BitVec 16) (received : List ℕ) (cause : ℕ) (bytes : List UInt8) :
    Prop where
  le : cause ≤ made
  got : cause ∈ received
  covers : ∃ r : Reply, bytes = r.bytes ∧
    (cause = made → Covered number → javaIsAcked r.ack r.ackbitfield number = true)

/-- **The invariant.** While `WaitAck` waits, its packet has been sent once at least and not too often;
what is under way is fair, and if an answer was heard, the packet is done with. -/
structure Inv (s : State) : Prop where
  rx : s.thread.handler.acksleftRx = []
  tx : ∀ q ∈ s.thread.handler.acksleftTx, Ours s.made s.number q
  tries : ∀ register, s.thread.stage = .waiting register → ∀ q ∈ s.thread.handler.acksleftTx,
    q.ref = s.made → 1 ≤ q.attempts ∧ q.attempts ≤ maxResend
  sent : ∀ d ∈ s.sent, Ours s.made s.number d.pkt ∧ Carries d.data .s64 d.pkt.header
  answers : ∀ a ∈ s.answers, Fair s.made s.number s.received a.cause a.bytes
  queue : List.Forall₂ (Fair s.made s.number s.received) s.causes s.thread.msgqueue
  heard : s.heard = true → Covered s.number → Done s

theorem inv_init : Inv init := by
  refine ⟨rfl, ?_, ?_, ?_, ?_, .nil, ?_⟩ <;> simp [init, MasterConnection.init, newUDPHandler]

/-- A new object has another number. -/
theorem Ours.next {made : ℕ} {number : BitVec 16} {q : AbstractPacket} (h : Ours made number q)
    (number' : BitVec 16) : Ours (made + 1) number' q := by
  have href := h.ref
  exact ⟨by omega, h.flags, h.kind, fun heq => by omega⟩

theorem Fair.next {made : ℕ} {number : BitVec 16} {received : List ℕ} {cause : ℕ} {bytes : List UInt8}
    (h : Fair made number received cause bytes) (number' : BitVec 16) :
    Fair (made + 1) number' received cause bytes := by
  have hle := h.le
  obtain ⟨r, hr, -⟩ := h.covers
  exact ⟨by omega, h.got, r, hr, fun heq => by omega⟩

theorem Fair.mono {made : ℕ} {number : BitVec 16} {received received' : List ℕ} {cause : ℕ}
    {bytes : List UInt8} (h : Fair made number received cause bytes) (hsub : received ⊆ received') :
    Fair made number received' cause bytes :=
  ⟨h.le, hsub h.got, h.covers⟩

/-- What `SendPacket` leaves of a packet of the thread. The number of the last one stays. -/
theorem ours_sendPacket {made : ℕ} {number : BitVec 16} {q : AbstractPacket} (h : Ours made number q)
    (htries : q.ref = made → 1 ≤ q.attempts ∧ q.attempts ≤ maxResend) (call : Call) (h' : UDPHandler) :
    Ours made number (sendPacket .java call h' q).pkt ∧
      (sendPacket .java call h' q).pkt.ref = q.ref ∧
      (q.ref = made → (sendPacket .java call h' q).exn = none →
        1 ≤ (sendPacket .java call h' q).pkt.attempts ∧
          (sendPacket .java call h' q).pkt.attempts ≤ maxResend) := by
  have hup : 1 ≤ q.attempts → q.attempts ≤ maxResend →
      Lang.java.updateSendAttempt q.attempts = q.attempts + 1 := fun h1 h5 => by
    unfold maxResend at h5
    simp only [Lang.updateSendAttempt, Int.bmod]
    omega
  rcases pkt_sendPacket_cases .java call h' q with hpkt | ⟨hone, hpkt⟩
  · refine ⟨?_, by rw [hpkt]; rfl, fun heq hexn => ?_⟩
    · rw [hpkt]
      exact ⟨h.ref, h.flags, h.kind, h.number⟩
    · obtain ⟨h1, h5⟩ := htries heq
      have hmax : ¬ Lang.java.updateSendAttempt q.attempts > maxResend := fun hmax => by
        simp [sendPacket, hmax] at hexn
      rw [hpkt]
      show 1 ≤ Lang.java.updateSendAttempt q.attempts ∧ Lang.java.updateSendAttempt q.attempts ≤ maxResend
      rw [hup h1 h5] at hmax ⊢
      omega
  · have hother : q.ref ≠ made := fun heq => by
      obtain ⟨h1, h5⟩ := htries heq
      rw [hup h1 h5] at hone
      omega
    refine ⟨?_, by rw [hpkt]; rfl, fun heq => absurd heq hother⟩
    rw [hpkt]
    exact ⟨h.ref, h.flags, h.kind, fun heq => absurd heq hother⟩

/-! ### The steps -/

theorem inv_deliver {s s' : State} (hs : Inv s) {i : ℕ} (hstep : step data s (.deliver i) = some s') :
    Inv s' := by
  obtain ⟨a, ha, rfl⟩ := Option.map_eq_some_iff.mp hstep
  have hfair := hs.answers a (List.mem_of_getElem? ha)
  exact ⟨hs.rx, hs.tx, hs.tries, hs.sent, hs.answers, List.rel_append hs.queue (.cons hfair .nil), hs.heard⟩

theorem inv_serve {s s' : State} (hs : Inv s) {i : ℕ} {call : Call} {asks : Bool}
    (hstep : step data s (.serve i call asks) = some s') : Inv s' := by
  obtain ⟨d, hd, rfl⟩ := Option.map_eq_some_iff.mp hstep
  obtain ⟨hours, hcarries⟩ := hs.sent d (List.mem_of_getElem? hd)
  have hsub : s.received ⊆ s.received ++ if (serve call asks d.data).1 then [d.pkt.ref] else [] :=
    List.subset_append_left _ _
  refine ⟨hs.rx, hs.tx, hs.tries, hs.sent, fun a ha => ?_, hs.queue.imp fun _ _ h => h.mono hsub,
    fun hheard hcovered => ?_⟩
  · rcases List.mem_append.mp ha with ha | ha
    · exact (hs.answers a ha).mono hsub
    · obtain ⟨b, hb, rfl⟩ := List.mem_map.mp ha
      obtain ⟨hgot, r, hr, hcovers⟩ := mem_serve hcarries hours.flags hb
      refine ⟨hours.ref, by simp [hgot], r, hr, fun heq hcovered => ?_⟩
      have hseq : d.pkt.header.seqnum = s.number := hours.number heq
      rw [hseq] at hcovers
      exact hcovers hcovered
  · obtain ⟨htx, hgot⟩ := hs.heard hheard hcovered
    exact ⟨htx, hsub hgot⟩

/-- The thread sends a new packet. -/
theorem inv_send {s : State} (hs : Inv s) (call : Call) (register : Bool) :
    Inv
      { s with
        thread := (send data (s.made + 1) s.thread call register).1
        sent := s.sent ++ (send data (s.made + 1) s.thread call register).2
        made := s.made + 1, number := s.thread.handler.localseqnum, heard := false } := by
  obtain ⟨r, hr⟩ : ∃ r, sendPacket .java call s.thread.handler
    (newPacket data (s.made + 1) register) = r := ⟨_, rfl⟩
  have hrx := sendPacket_rx .java call s.thread.handler (newPacket data (s.made + 1) register)
  have htx := tx_sendPacket_cases .java call s.thread.handler (newPacket data (s.made + 1) register)
  have hpkt := sendPacket_pkt .java call s.thread.handler
    (show (newPacket data (s.made + 1) register).attempts = 0 from rfl)
  rw [hr] at hrx htx hpkt
  have hours : Ours (s.made + 1) s.thread.handler.localseqnum r.pkt := by
    rw [hpkt]
    exact ⟨le_rfl, rfl, rfl, fun _ => rfl⟩
  have hone : r.pkt.attempts = 1 := by rw [hpkt]; rfl
  have hout : ∀ d ∈ r.out, d.pkt = r.pkt ∧ Lang.java.getBytes d.pkt = .ok d.data := fun d hd => by
    rw [← hr] at hd ⊢
    exact eq_of_mem_sendPacket hd
  simp only [send, hr]
  have hmem : ∀ q ∈ r.handler.acksleftTx, q ∈ s.thread.handler.acksleftTx ∨ q = r.pkt := fun q hq => by
    rcases htx with htx | htx
    · exact Or.inl (htx ▸ hq)
    · rw [htx] at hq
      exact (List.mem_append.mp hq).imp_right List.mem_singleton.mp
  refine ⟨hrx.trans hs.rx, fun q hq => ?_, fun _ _ q hq heq => ?_, fun d hd => ?_,
    fun a ha => (hs.answers a ha).next _, hs.queue.imp fun _ _ h => h.next _, by simp⟩
  · rcases hmem q hq with hq | rfl
    · exact (hs.tx q hq).next _
    · exact hours
  · rcases hmem q hq with hq | rfl
    · have hle := (hs.tx q hq).ref
      have heq' : q.ref = s.made + 1 := heq
      omega
    · rw [hone]
      exact ⟨le_rfl, by decide⟩
  · rcases List.mem_append.mp hd with hd | hd
    · exact ⟨(hs.sent d hd).1.next _, (hs.sent d hd).2⟩
    · obtain ⟨hd', hbytes⟩ := hout d hd
      have hcarries := Lang.getBytes_carries hbytes
      rw [hd'] at hcarries ⊢
      exact ⟨hours, hours.kind ▸ hcarries⟩

/-- The thread takes a packet from its queue, and reads it or not. -/
theorem inv_take {s : State} (hs : Inv s) {th : Thread} (hrx : th.handler.acksleftRx = [])
    (htx : th.handler.acksleftTx.Sublist s.thread.handler.acksleftTx)
    (hqueue : th.msgqueue = s.thread.msgqueue.tail)
    (hstage : ∀ register, th.stage = .waiting register → s.thread.stage = .waiting register)
    {heard : Bool} (hheard : heard = true → Covered s.number →
      (∀ q ∈ th.handler.acksleftTx, q.ref ≠ s.made) ∧ s.made ∈ s.received) :
    Inv { s with thread := th, sent := s.sent ++ [], causes := s.causes.tail, heard := heard } := by
  refine ⟨hrx, fun q hq => hs.tx q (htx.subset hq),
    fun register hwait q hq => hs.tries register (hstage register hwait) q (htx.subset hq),
    fun d hd => hs.sent d (by simpa using hd), hs.answers, ?_, hheard⟩
  show List.Forall₂ _ s.causes.tail th.msgqueue
  rw [hqueue]
  have hall := hs.queue
  generalize s.causes = causes, s.thread.msgqueue = msgqueue at hall ⊢
  cases hall with
  | nil => exact .nil
  | cons _ hrest => exact hrest

/-- What is known of the first packet in the queue. -/
theorem Inv.head {s : State} (hs : Inv s) {reply : List UInt8} {rest : List (List UInt8)}
    (hqueue : s.thread.msgqueue = reply :: rest) : ∃ cause, s.causes.head? = some cause ∧
      Fair s.made s.number s.received cause reply := by
  have hall := hs.queue
  rw [hqueue] at hall
  generalize s.causes = causes at hall ⊢
  cases hall with
  | cons hfair _ => exact ⟨_, rfl, hfair⟩

/-- The thread in front of its `poll`. -/
theorem act_polling {th : Thread} (hstage : th.stage = .polling) (hrx : th.handler.acksleftRx = [])
    (hqueue : ∀ reply ∈ th.msgqueue.head?, ∃ r : Reply, reply = r.bytes) (ref : ℕ) (call : Call)
    (calls : ℕ → Call) :
    let r := act data ref th call calls
    r.2 = [] ∧ r.1.handler.acksleftRx = [] ∧
      r.1.handler.acksleftTx.Sublist th.handler.acksleftTx ∧ r.1.msgqueue = th.msgqueue.tail ∧
      ∀ register, r.1.stage ≠ .waiting register := by
  intro r
  simp only [r, act, hstage, work]
  cases hq : th.msgqueue with
  | nil =>
    refine ⟨rfl, hrx, List.Sublist.refl _, rfl, fun register => ?_⟩
    dsimp only
    split_ifs <;> simp
  | cons reply rest =>
    obtain ⟨p, rfl⟩ := hqueue reply (by rw [hq]; rfl)
    have htake : (th.take p.bytes rest).firsttime = th.firsttime := rfl
    simp only [htake]
    cases th.firsttime with
    | true => exact ⟨rfl, hrx, List.Sublist.refl _, rfl, fun register => by simp⟩
    | false =>
      obtain ⟨h', verdict, hread, hrx', htx⟩ := exists_read_reply p call hrx
      have hhandler : (th.take p.bytes rest).handler = th.handler := rfl
      simp only [Bool.false_eq_true, if_false, hhandler, hread]
      refine ⟨trivial, hrx', htx ▸ List.filter_sublist, rfl, fun register => ?_⟩
      simp only [MasterConnection.State.after]
      split_ifs <;> simp

theorem inv_polling {s : State} (hs : Inv s) (hstage : s.thread.stage = .polling) (call : Call)
    (calls : ℕ → Call) : Inv (s.after (act data (s.made + 1) s.thread call calls)) := by
  have hreplies : ∀ reply ∈ s.thread.msgqueue.head?, ∃ r : Reply, reply = r.bytes := fun reply hreply => by
    obtain ⟨rest, hrest⟩ := List.head?_eq_some_iff.mp hreply
    obtain ⟨cause, -, hfair⟩ := hs.head hrest
    obtain ⟨r, hr, -⟩ := hfair.covers
    exact ⟨r, hr⟩
  obtain ⟨hout, hrx, htx, hqueue, hnext⟩ :=
    act_polling data hstage hs.rx hreplies (s.made + 1) call calls
  simp only [State.after, hstage, hout]
  refine inv_take hs hrx htx hqueue (fun register hwait => absurd hwait (hnext register))
    fun hheard hcovered => ?_
  obtain ⟨hno, hgot⟩ := hs.heard hheard hcovered
  exact ⟨fun q hq => hno q (htx.subset hq), hgot⟩

/-- The thread in `WaitAck`, with a packet of the master in its queue. -/
theorem act_waiting {th : Thread} {register : Bool} (hstage : th.stage = .waiting register)
    (hrx : th.handler.acksleftRx = []) {p : Reply} {rest : List (List UInt8)}
    (hqueue : th.msgqueue = p.bytes :: rest) (ref : ℕ) (call : Call) (calls : ℕ → Call) :
    let r := act data ref th call calls
    r.2 = [] ∧ r.1.handler.acksleftRx = [] ∧
      (r.1.handler.acksleftTx = th.handler.acksleftTx.filter fun q =>
        !javaIsAcked p.ack p.ackbitfield q.seqnum) ∧ r.1.msgqueue = rest ∧
      ∀ register', r.1.stage = .waiting register' → register' = register := by
  intro r
  obtain ⟨h', verdict, hread, hrx', htx⟩ := exists_read_reply p call hrx
  have htake : (th.take p.bytes rest).handler = th.handler := rfl
  simp only [r, act, hstage, work, hqueue, htake, hread]
  refine ⟨trivial, ?_, ?_, ?_, fun register' => ?_⟩
  · split_ifs <;> exact hrx'
  · split_ifs <;> exact htx
  · split_ifs <;> rfl
  · split_ifs <;> simp [MasterConnection.State.after, eq_comm]

/-- `WaitAck` with an empty queue: it resends, and waits on if nothing is thrown. -/
theorem inv_resending {s : State} (hs : Inv s) {register : Bool}
    (hstage : s.thread.stage = .waiting register) (hqueue : s.thread.msgqueue = []) (call : Call)
    (calls : ℕ → Call) : Inv (s.after (act data (s.made + 1) s.thread call calls)) := by
  have hcauses : s.causes = [] := by
    have hall := hs.queue
    rw [hqueue] at hall
    exact List.forall₂_nil_right_iff.mp hall
  obtain ⟨r, hr⟩ : ∃ r, resendMissingPackets .java calls s.thread.handler = r := ⟨_, rfl⟩
  have hact : act data (s.made + 1) s.thread call calls =
      (s.thread.after r.handler r.out
        (match r.exn with
        | none => .waiting register
        | some e => caught s.thread.firsttime register e), r.out) := by
    cases hexn : r.exn with
    | none => simp only [act, work, hstage, hqueue, hr, hexn]
    | some e => simp only [act, work, hstage, hqueue, hr, hexn]
  have htries := hs.tries register hstage
  have hours : ∀ q' ∈ r.handler.acksleftTx, Ours s.made s.number q' ∧
      (∃ q ∈ s.thread.handler.acksleftTx, q'.ref = q.ref) ∧
      (q'.ref = s.made → r.exn = none → 1 ≤ q'.attempts ∧ q'.attempts ≤ maxResend) := by
    intro q' hq'
    subst hr
    obtain ⟨q, hq, rfl | ⟨call', h', rfl, hexn⟩⟩ := mem_tx_resendLoop hq'
    · exact ⟨hs.tx q' hq, ⟨q', hq, rfl⟩, fun heq _ => htries q' hq heq⟩
    · obtain ⟨hkeep, href, hcount⟩ := ours_sendPacket (hs.tx q hq) (htries q hq) call' h'
      exact ⟨hkeep, ⟨q, hq, href⟩, fun heq hnone => hcount (href ▸ heq) (hexn hnone)⟩
  simp only [State.after, hstage, hact, hcauses]
  refine ⟨?_, fun q' hq' => (hours q' hq').1, fun register' hwait q' hq' heq => ?_, fun d hd => ?_,
    hs.answers, ?_, fun hheard hcovered => ?_⟩
  · show r.handler.acksleftRx = []
    rw [← hr, resendMissingPackets, resendLoop_rx, hs.rx]
  · refine (hours q' hq').2.2 heq ?_
    rcases Option.eq_none_or_eq_some r.exn with hexn | ⟨e, hexn⟩
    · exact hexn
    · simp only [MasterConnection.State.after, hexn] at hwait
      exact absurd hwait (MasterConnection.caught_ne _ _ _ _)
  · rcases List.mem_append.mp hd with hd | hd
    · exact hs.sent d hd
    · subst hr
      obtain ⟨q, hq, call', h', hsend⟩ := mem_out_resendLoop hd
      obtain ⟨hkeep, -, -⟩ := ours_sendPacket (hs.tx q hq) (htries q hq) call' h'
      obtain ⟨hd', hbytes⟩ := eq_of_mem_sendPacket hsend
      have hcarries := Lang.getBytes_carries hbytes
      rw [hd'] at hcarries ⊢
      exact ⟨hkeep, hkeep.kind ▸ hcarries⟩
  · simp [MasterConnection.State.after, hqueue]
  · simp only [List.head?_nil, reduceCtorEq, decide_false, Bool.or_false] at hheard
    obtain ⟨hno, hgot⟩ := hs.heard hheard hcovered
    refine ⟨fun q' hq' heq => ?_, hgot⟩
    obtain ⟨-, ⟨q, hq, href⟩, -⟩ := hours q' hq'
    exact hno q hq (href ▸ heq)

theorem inv_waiting {s : State} (hs : Inv s) {register : Bool} (hstage : s.thread.stage = .waiting register)
    (call : Call) (calls : ℕ → Call) :
    Inv (s.after (act data (s.made + 1) s.thread call calls)) := by
  cases hqueue : s.thread.msgqueue with
  | nil => exact inv_resending data hs hstage hqueue call calls
  | cons reply rest =>
    obtain ⟨cause, hcause, hfair⟩ := hs.head hqueue
    obtain ⟨p, rfl, hcovers⟩ := hfair.covers
    obtain ⟨hout, hrx, htx, hrest, hnext⟩ := act_waiting data hstage hs.rx hqueue (s.made + 1) call calls
    have hsub : (act data (s.made + 1) s.thread call calls).1.handler.acksleftTx.Sublist
        s.thread.handler.acksleftTx := by
      rw [htx]
      exact List.filter_sublist
    simp only [State.after, hstage, hout, hcause]
    refine inv_take hs hrx hsub (by rw [hrest, hqueue]; rfl)
      (fun register' hwait => by rw [hstage, hnext register' hwait]) fun hheard hcovered => ?_
    rcases Bool.or_eq_true_iff.mp hheard with hbefore | hnow
    · obtain ⟨hno, hgot⟩ := hs.heard hbefore hcovered
      exact ⟨fun q hq => hno q (hsub.subset hq), hgot⟩
    · -- this is an answer to the packet waited for
      obtain rfl : cause = s.made := Option.some.inj (of_decide_eq_true hnow)
      refine ⟨fun q hq heq => ?_, hfair.got⟩
      rw [htx, List.mem_filter] at hq
      have hseq := (hs.tx q hq.1).number heq
      rw [hseq, hcovers rfl hcovered] at hq
      exact absurd hq.2 (by simp)

/-- **The step lemma.** Every step keeps the invariant. -/
theorem inv_step {s s' : State} {a : Label} (hs : Inv s) (hstep : step data s a = some s') : Inv s' := by
  cases a with
  | serve i call asks => exact inv_serve data hs hstep
  | deliver i => exact inv_deliver data hs hstep
  | work call calls =>
    simp only [step] at hstep
    split_ifs at hstep with hend
    obtain rfl := Option.some.inj hstep
    cases hstage : s.thread.stage with
    | polling => exact inv_polling data hs hstage call calls
    | waiting register => exact inv_waiting data hs hstage call calls
    | ended => exact absurd hstage hend
    | registering =>
      have hsend := inv_send data hs call true
      simpa only [State.after, act, hstage] using hsend
    | sleeping =>
      have hsend := inv_send data hs call false
      simpa only [State.after, act, hstage] using hsend

/-- A `WaitAck` that returns has heard an answer to its packet, if it took no late one. -/
theorem acknowledged_of_own {s s' : State} {a : Label} (hs : Inv s) (hown : Own s a)
    (hstep : step data s a = some s') : Acknowledged data s a := by
  cases a with
  | serve i call asks => trivial
  | deliver i => trivial
  | work call calls =>
    intro hreturns t ht
    obtain ⟨hcovered, hlate⟩ := hown hreturns
    have ht' := inv_step data hs ht
    simp only [step] at ht
    split_ifs at ht with hend
    obtain rfl := Option.some.inj ht
    unfold returns at hreturns
    split at hreturns
    · next register reply rest hstage hqueue =>
      obtain ⟨cause, hcause, hfair⟩ := hs.head hqueue
      have hheard : s.heard = true ∨ cause = s.made := by
        rcases Nat.lt_or_eq_of_le hfair.le with hlt | heq
        · exact Or.inl (hlate cause hcause hlt)
        · exact Or.inr heq
      refine ht'.heard ?_ ?_
      · simp only [State.after, hstage, hcause, Bool.or_eq_true]
        exact hheard.imp_right fun heq => decide_eq_true (congrArg some heq)
      · simpa only [State.after, hstage] using hcovered
    · cases hreturns

/-- **`WaitAck` waits for its own packet** in every run in which it returns with no late answer, and waits
for packets that an answer covers. -/
theorem along_acknowledged (data : List UInt8) (l : List Label) (h : Along (step data) Own init l) :
    Along (step data) (Acknowledged data) init l :=
  along_of_along (J := Inv) (fun _ _ _ hs _ hstep => inv_step data hs hstep)
    (fun _ _ _ hs hown hstep => acknowledged_of_own data hs hown hstep) inv_init h

/-! ### A late answer -/

/-- The socket takes everything. -/
def go : Label := .work ⟨0, 0, true⟩ fun _ => ⟨0, 0, true⟩

/-- The master receives a datagram, and knows the server. -/
def served (i : ℕ) : Label := .serve i ⟨0, 0, true⟩ false

/-- The server registers and sends a heartbeat, and each packet is answered once. -/
def answeredOnce : List Label :=
  [go, go, served 0, .deliver 0, go, go, served 1, .deliver 1, go]

theorem along_acknowledged_answeredOnce : Along (step []) (Acknowledged []) init answeredOnce :=
  along_acknowledged [] answeredOnce (by decide +kernel)

/-- The `REGISTER` comes to the master twice, and the second answer comes when the heartbeat is out: the
heartbeat is lost, and `WaitAck` returns. -/
def answeredTwice : List Label :=
  [go, go, served 0, served 0, .deliver 0, go, go, .deliver 1, go]

theorem not_acknowledged_answeredTwice :
    ¬ ∀ data l, Along (step data) (Acknowledged data) init l := by
  intro hall
  exact absurd (hall [] answeredTwice) (by decide +kernel)

end N64NetLib.GameServer.WaitAck
