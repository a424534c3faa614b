import N64NetLib.Client.Downloads
import N64NetLib.Client.ServerConnection

/-! # Exceptions in the threads of the client

`packets.h` has two exceptions, and three threads of the client run into them. `ServerFinderThread`
catches a bad version around the handling of a packet and a timeout around everything,
`ServerConnectionThread` a timeout, and `DeviceThread` nothing. The version is looked at when a packet is
read, so that a bad one leaves each of the threads, and nothing else does: none of them is left exactly if
no datagram has a bad version (`caught_iff`). -/

namespace N64NetLib.Client.Exceptions

open N64NetLib.Lib.Run N64NetLib.Lib.Memory N64NetLib.Lib.Memory.Load N64NetLib.Packet
open N64NetLib.Packet.Basic N64NetLib.Packet.Cpp N64NetLib.Packet.Sequence N64NetLib.Udp.Handler
open N64NetLib.Client.ServerInfo N64NetLib.Client.ServerTrip N64NetLib.Client.Downloads
open N64NetLib.Client.ServerConnection (Arrival)

/-- The exceptions of `packets.h`. -/
def OfPackets : Exn → Prop
  | .clientTimeout | .badPacketVersion _ => True
  | .io | .arrayIndex | .bufferOverflow | .bufferUnderflow | .negativeArraySize
  | .concurrentModification | .invalidROM => False

/-- **Caught**: what has left `Entry`, if anything has, is none of the exceptions of `packets.h`. -/
def Caught (escaped : Option Exn) : Prop := ∀ e, escaped = some e → ¬ OfPackets e

/-- The receive buffer after a datagram. -/
def received (a : Arrival) : ℕ → UInt8 := inBuffer (a.data.take packetMaxSize) a.junk

/-- Not a packet of the format whose version is too high. -/
def Supported (k : Kind) (m : ℕ → UInt8) : Prop := HasMagic k m → m 3 ≤ packetVersion

/-! ### `ServerFinderThread` -/

/-- Where the thread is in its loop: it reads, it has left the inner loop because of a bad version, or it
handles messages of the main thread. -/
inductive Phase
  | reading
  | stopped
  | handling
deriving DecidableEq

/-- `ServerFinderThread`, with the exception that has left `Entry`. `next` numbers the packet objects. -/
structure ServerFinderThread where
  handler : UDPHandler
  next : ℕ
  phase : Phase
  escaped : Option Exn

/-- The start of `Entry`. -/
def newServerFinderThread : ServerFinderThread := ⟨newUDPHandler, 0, .reading, none⟩

/-- The outer `catch`: the loop goes on after a timeout. -/
def ServerFinderThread.catchTimeout (s : ServerFinderThread) : Exn → ServerFinderThread
  | .clientTimeout => { s with phase := .reading }
  | e => { s with escaped := some e }

/-- The thread after a call. -/
def ServerFinderThread.after (s : ServerFinderThread) : Option Exn → ServerFinderThread
  | none => s
  | some e => s.catchTimeout e

/-- The payload of a `DISCOVER`; the size of a packet has 16 bits. -/
def discoverPayload (fulladdress : List Char) : List UInt8 :=
  (discoverData fulladdress).take ((discoverData fulladdress).length % 2 ^ 16)

/-- How the inner `try` ends, `behind` being what stands behind the payload. A `SERVER` is answered with a
`DISCOVER` by a handler of its own; the other types send nothing. -/
def handleS64Packet (host : Host) (call : Call) (ref : ℕ) (pkt : AbstractPacket)
    (behind : ℕ → UInt8) : Option Exn :=
  match pkt.body with
  | .s64 type =>
    if ['S', 'E', 'R', 'V', 'E', 'R'].isPrefixOf type then
      match parsePacketServer.run (inBuffer pkt.data behind) with
      | .error e => some e
      | .ok (server, _) =>
        (sendPacket (.cpp host) call newUDPHandler (newS64Packet ref
          ['D', 'I', 'S', 'C', 'O', 'V', 'E', 'R'] (discoverPayload server.fulladdress)
          flagUnreliable)).exn
    else none
  | .netlib .. => none

/-- The packet that a message makes the thread send. -/
def inputPacket (ref : ℕ) : InputMessage → Option AbstractPacket
  | .doList => some (newS64Packet ref ['L', 'I', 'S', 'T'] [] flagUnreliable)
  | .doDl romhash =>
    some (newS64Packet ref ['D', 'O', 'W', 'N', 'L', 'O', 'A', 'D'] romhash flagUnreliable)
  | .cancelDl | .filename _ => none

/-- What the thread meets: a datagram, with what the answer to it needs; the end of the inner loop, with
what `ResendMissingPackets` needs; a message of the main thread; or the end of the loop. -/
inductive FinderLabel
  | datagram (a : Arrival) (discover : Call) (behind : ℕ → UInt8)
  | resend (calls : ℕ → Call)
  | input (call : Call) (msg : InputMessage)
  | again

/-- A datagram in the inner loop. `ReadS64Packet` is called outside the inner `try`. -/
def finderRead (host : Host) (s : ServerFinderThread) (a : Arrival) (discover : Call)
    (behind : ℕ → UInt8) : ServerFinderThread :=
  let r := readPacket (.cpp host) .s64 a.call s.handler s.next (s.next + 1) a.data a.junk
  let s' := { s with handler := r.handler, next := s.next + 3 }
  match r.result with
  | .error e => s'.after (some e)
  | .ok none => s'
  | .ok (some pkt) =>
    match handleS64Packet host discover (s.next + 2) pkt behind with
    | some (.badPacketVersion _) => { s' with phase := .stopped }
    | exn => s'.after exn

/-- One step of `ServerFinderThread::Entry`. -/
def finderStep (host : Host) (s : ServerFinderThread) : FinderLabel → Option ServerFinderThread
  | .datagram a discover behind =>
    if s.escaped = none ∧ s.phase = .reading then some (finderRead host s a discover behind) else none
  | .resend calls =>
    if s.escaped = none ∧ s.phase ≠ .handling then
      let r := resendMissingPackets (.cpp host) calls s.handler
      some ({ s with handler := r.handler, phase := .handling }.after r.exn)
    else none
  | .input call msg =>
    if s.escaped = none ∧ s.phase = .handling then
      match inputPacket s.next msg with
      | none => some s
      | some pkt =>
        let r := sendPacket (.cpp host) call s.handler pkt
        some ({ s with handler := r.handler, next := s.next + 1 }.after r.exn)
    else none
  | .again =>
    if s.escaped = none ∧ s.phase = .handling then some { s with phase := .reading } else none

/-! ### `ServerConnectionThread` -/

/-- `ServerConnectionThread`: `ended` if it has left its loop. -/
structure ServerConnectionThread where
  handler : UDPHandler
  next : ℕ
  reading : Bool
  ended : Bool
  escaped : Option Exn

/-- The start of `Entry`. -/
def newServerConnectionThread : ServerConnectionThread := ⟨newUDPHandler, 0, false, false, none⟩

/-- The `catch`: the loop is left after a timeout. -/
def ServerConnectionThread.catchTimeout (s : ServerConnectionThread) : Exn → ServerConnectionThread
  | .clientTimeout => { s with ended := true }
  | e => { s with ended := true, escaped := some e }

/-- The thread after a call. -/
def ServerConnectionThread.after (s : ServerConnectionThread) : Option Exn → ServerConnectionThread
  | none => s
  | some e => s.catchTimeout e

/-- `TransferPacket`: the packet is written and read again. -/
def transferPacket (host : Host) (pkt : AbstractPacket) (behind : ℕ → UInt8) : Option Exn :=
  match getBytes host pkt with
  | .error e => some e
  | .ok bytes =>
    match netLibFromBytes.run (inBuffer bytes behind) with
    | .error e => some e
    | .ok _ => none

/-- What the thread meets: a packet of the USB thread, a datagram, or the end of the loop. -/
inductive ConnectionLabel
  | send (call : Call) (pkt : AbstractPacket)
  | datagram (a : Arrival) (behind : ℕ → UInt8)
  | again

/-- A datagram in the inner loop. -/
def connectionRead (host : Host) (s : ServerConnectionThread) (a : Arrival) (behind : ℕ → UInt8) :
    ServerConnectionThread :=
  let r := readPacket (.cpp host) .netlib a.call s.handler s.next (s.next + 1) a.data a.junk
  let s' := { s with handler := r.handler, next := s.next + 2, reading := true }
  match r.result with
  | .error e => s'.after (some e)
  | .ok none => s'
  | .ok (some pkt) => s'.after (transferPacket host pkt behind)

/-- One step of `ServerConnectionThread::Entry`. -/
def connectionStep (host : Host) (s : ServerConnectionThread) :
    ConnectionLabel → Option ServerConnectionThread
  | .send call pkt =>
    if s.ended = false ∧ s.reading = false then
      let r := sendPacket (.cpp host) call s.handler { pkt with ref := s.next, attempts := 0 }
      some ({ s with handler := r.handler, next := s.next + 1 }.after r.exn)
    else none
  | .datagram a behind => if s.ended = false then some (connectionRead host s a behind) else none
  | .again => if s.ended = false then some { s with reading := false } else none

/-! ### `DeviceThread` -/

/-- `ParseUSB_NetLibPacket` in the loop of `DeviceThread::Entry`, with a buffer that has come over USB; the
state is the exception that has left `Entry`. -/
def deviceStep (escaped : Option Exn) (buff : ℕ → UInt8) : Option (Option Exn) :=
  match escaped with
  | none =>
    match netLibFromBytes.run buff with
    | .error e => some (some e)
    | .ok _ => some none
  | some _ => none

/-! ### What can be thrown -/

theorem supported_iff (k : Kind) (m : ℕ → UInt8) :
    ¬ Supported k m ↔ HasMagic k m ∧ packetVersion < m 3 := by
  rw [Supported, Classical.not_imp, UInt8.not_le]

/-- A decoder throws nothing but a bad version, and that exactly if the version is too high. -/
theorem fromBytes_error_iff {host : Host} {k : Kind} {m : ℕ → UInt8} {e : Exn} :
    (fromBytes host k).run m = .error e ↔
      ¬ Supported k m ∧ e = .badPacketVersion (m 3).toNat := by
  rw [supported_iff]
  cases k with
  | netlib =>
    rw [fromBytes, run_netLibFromBytes]
    split_ifs with hm hv <;> simp [eq_comm, *]
  | s64 =>
    rw [fromBytes, run_s64FromBytes]
    split_ifs with hm hv <;> simp [eq_comm, *]

/-- Sending throws no bad version. -/
theorem sendPacket_exn {host : Host} {call : Call} {h : UDPHandler} {pkt : AbstractPacket} {e : Exn}
    (he : (sendPacket (.cpp host) call h pkt).exn = some e) (v : ℤ) : e ≠ .badPacketVersion v := by
  rintro rfl
  rcases sendPacket_exn_cases he with ⟨he, -⟩ | ⟨p, hbytes⟩ | he
  · cases he
  · simp only [Lang.getBytes, getBytes] at hbytes
    split_ifs at hbytes
    cases hbytes
  · cases he

/-- Reading throws a bad version exactly if the version is too high. -/
theorem readPacket_error_iff {host : Host} {k : Kind} {call : Call} {h : UDPHandler} {ref ackref : ℕ}
    {a : Arrival} {v : ℤ} :
    (readPacket (.cpp host) k call h ref ackref a.data a.junk).result = .error (.badPacketVersion v) ↔
      ¬ Supported k (received a) ∧ v = (received a 3).toNat := by
  have hdecode : (Lang.cpp host).decode k a.data a.junk = (fromBytes host k).run (received a) :=
    run_decode host k _
  unfold readPacket
  rw [hdecode]
  cases hrun : (fromBytes host k).run (received a) with
  | error e =>
    obtain ⟨hno, rfl⟩ := fromBytes_error_iff.mp hrun
    simp [hno, eq_comm]
  | ok o =>
    have hsupported : Supported k (received a) := by
      by_contra hno
      cases hrun.symm.trans (fromBytes_error_iff.mpr ⟨hno, rfl⟩)
    refine iff_of_false (fun he => ?_) fun hno => hno.1 hsupported
    cases o with
    | none => cases he
    | some pkt =>
      dsimp only at he
      split at he
      · next hseq =>
        cases he
        obtain ⟨h', hsend⟩ := handlePacketSequence_error_cases hseq
        exact sendPacket_exn hsend v rfl
      · cases he
      · cases he

theorem resendLoop_exn {host : Host} {calls : ℕ → Call} {h : UDPHandler} {tx : List AbstractPacket}
    {i : ℕ} {e : Exn} (he : (resendLoop (.cpp host) calls h i tx).exn = some e) (v : ℤ) :
    e ≠ .badPacketVersion v := by
  rcases resendLoop_exn_cases he with rfl | ⟨pkt, -, call, h', hsend⟩
  · simp
  · exact sendPacket_exn hsend v

theorem fromBytes_version {host : Host} {k : Kind} {m : ℕ → UInt8} {pkt : AbstractPacket}
    (h : (fromBytes host k).run m = .ok (some pkt)) : pkt.version ≤ packetVersion := by
  cases k with
  | netlib =>
    rw [fromBytes, run_netLibFromBytes] at h
    split_ifs at h with hm hv
    · cases h
      exact UInt8.not_lt.mp hv
    · cases h
  | s64 =>
    rw [fromBytes, run_s64FromBytes] at h
    split_ifs at h with hm hv
    · cases h
      exact UInt8.not_lt.mp hv
    · cases h

theorem readPacket_version {host : Host} {k : Kind} {call : Call} {h : UDPHandler} {ref ackref : ℕ}
    {a : Arrival} {pkt : AbstractPacket}
    (hpkt : (readPacket (.cpp host) k call h ref ackref a.data a.junk).result = .ok (some pkt)) :
    pkt.version ≤ packetVersion := by
  have hdecode : (Lang.cpp host).decode k a.data a.junk = (fromBytes host k).run (received a) :=
    run_decode host k _
  cases hrun : (fromBytes host k).run (received a) with
  | error e => simp [readPacket, hdecode, hrun] at hpkt
  | ok o =>
    cases o with
    | none => simp [readPacket, hdecode, hrun] at hpkt
    | some q =>
      have hversion : q.version ≤ packetVersion := fromBytes_version hrun
      rwa [readPacket_result (hdecode.trans hrun) hpkt]

/-- Behind the three bytes of the format stands the version. -/
theorem inBuffer_getBytes {host : Host} {pkt : AbstractPacket} {bytes : List UInt8}
    (h : getBytes host pkt = .ok bytes) (behind : ℕ → UInt8) :
    inBuffer bytes behind 3 = pkt.version := by
  unfold getBytes at h
  split_ifs at h
  cases h
  unfold getAsBytes
  split <;> simp [inBuffer, packetHeader]

/-- The packet that was read has a version that can be read again. -/
theorem transferPacket_exn {host : Host} {pkt : AbstractPacket} {behind : ℕ → UInt8} {e : Exn}
    (hversion : pkt.version ≤ packetVersion) (he : transferPacket host pkt behind = some e) (v : ℤ) :
    e ≠ .badPacketVersion v := by
  rintro rfl
  unfold transferPacket at he
  split at he
  · next hbytes =>
    cases he
    unfold getBytes at hbytes
    split_ifs at hbytes
    cases hbytes
  · next bytes hbytes =>
    split at he
    · next hrun =>
      cases he
      have hrun' : (fromBytes host .netlib).run (inBuffer bytes behind) =
        .error (.badPacketVersion v) := hrun
      exact (fromBytes_error_iff.mp hrun').1 fun _ => (inBuffer_getBytes hbytes behind).symm ▸ hversion
    · cases he

/-! ### One step -/

/-- What a step needs: a datagram has no bad version. -/
def FinderSupported (_ : ServerFinderThread) : FinderLabel → Prop
  | .datagram a _ _ => Supported .s64 (received a)
  | .resend _ | .input _ _ | .again => True

def ConnectionSupported (_ : ServerConnectionThread) : ConnectionLabel → Prop
  | .datagram a _ => Supported .netlib (received a)
  | .send _ _ | .again => True

def DeviceSupported (_ : Option Exn) (buff : ℕ → UInt8) : Prop := Supported .netlib buff

theorem caught_none : Caught none := fun _ h => by cases h

/-- The `catch` of `ServerFinderThread` lets bad versions through. -/
theorem caught_finder_after {s : ServerFinderThread} (hs : s.escaped = none) (exn : Option Exn) :
    Caught (s.after exn).escaped ↔ ∀ v, exn ≠ some (.badPacketVersion v) := by
  cases exn with
  | none => simp [ServerFinderThread.after, Caught, hs]
  | some e =>
    cases e <;> simp [ServerFinderThread.after, ServerFinderThread.catchTimeout, Caught, OfPackets, hs]

/-- And so does that of `ServerConnectionThread`. -/
theorem caught_connection_after {s : ServerConnectionThread} (hs : s.escaped = none)
    (exn : Option Exn) :
    Caught (s.after exn).escaped ↔ ∀ v, exn ≠ some (.badPacketVersion v) := by
  cases exn with
  | none => simp [ServerConnectionThread.after, Caught, hs]
  | some e =>
    cases e <;>
      simp [ServerConnectionThread.after, ServerConnectionThread.catchTimeout, Caught, OfPackets, hs]

section Read
variable {host : Host} {k : Kind} {call : Call} {h : UDPHandler} {ref ackref : ℕ} {a : Arrival}

theorem readPacket_supported_iff {e : Exn}
    (he : (readPacket (.cpp host) k call h ref ackref a.data a.junk).result = .error e) :
    (∀ v, some e ≠ some (.badPacketVersion v)) ↔ Supported k (received a) := by
  constructor
  · intro hne
    by_contra hno
    have hbad : (readPacket (.cpp host) k call h ref ackref a.data a.junk).result =
        .error (.badPacketVersion _) := readPacket_error_iff.mpr ⟨hno, rfl⟩
    exact hne _ (congrArg some (Except.error.inj (he.symm.trans hbad)))
  · rintro hsupported v hv
    obtain rfl := Option.some.inj hv
    exact (readPacket_error_iff.mp he).1 hsupported

theorem supported_of_ok {o : Option AbstractPacket}
    (ho : (readPacket (.cpp host) k call h ref ackref a.data a.junk).result = .ok o) :
    Supported k (received a) := by
  by_contra hno
  cases ho.symm.trans (readPacket_error_iff.mpr ⟨hno, rfl⟩)

end Read

theorem caught_finderRead {host : Host} {s : ServerFinderThread} (hs : s.escaped = none)
    (a : Arrival) (discover : Call) (behind : ℕ → UInt8) :
    Caught (finderRead host s a discover behind).escaped ↔ Supported .s64 (received a) := by
  unfold finderRead
  dsimp only
  split
  · next e he => exact (caught_finder_after (by exact hs) (some e)).trans (readPacket_supported_iff he)
  · next hok => exact iff_of_true (hs ▸ caught_none) (supported_of_ok hok)
  · next pkt hok =>
    refine iff_of_true ?_ (supported_of_ok hok)
    split
    · exact hs ▸ caught_none
    · next hne => exact (caught_finder_after (by exact hs) _).mpr hne

theorem caught_connectionRead {host : Host} {s : ServerConnectionThread} (hs : s.escaped = none)
    (a : Arrival) (behind : ℕ → UInt8) :
    Caught (connectionRead host s a behind).escaped ↔ Supported .netlib (received a) := by
  unfold connectionRead
  dsimp only
  split
  · next e he => exact (caught_connection_after (by exact hs) (some e)).trans (readPacket_supported_iff he)
  · next hok => exact iff_of_true (hs ▸ caught_none) (supported_of_ok hok)
  · next pkt hok =>
    refine iff_of_true ((caught_connection_after (by exact hs) _).mpr fun v hv => ?_) (supported_of_ok hok)
    exact transferPacket_exn (readPacket_version hok) hv v rfl

theorem caught_finderStep {host : Host} {s s' : ServerFinderThread} {a : FinderLabel}
    (hstep : finderStep host s a = some s') : Caught s'.escaped ↔ FinderSupported s a := by
  cases a with
  | datagram a discover behind =>
    simp only [finderStep] at hstep
    split_ifs at hstep with hs
    obtain rfl := Option.some.inj hstep
    exact caught_finderRead hs.1 a discover behind
  | resend calls =>
    simp only [finderStep] at hstep
    split_ifs at hstep with hs
    obtain rfl := Option.some.inj hstep
    refine iff_of_true ((caught_finder_after (by exact hs.1) _).mpr fun v hv => ?_) trivial
    exact resendLoop_exn hv v rfl
  | input call msg =>
    simp only [finderStep] at hstep
    split_ifs at hstep with hs
    split at hstep
    · obtain rfl := Option.some.inj hstep
      exact iff_of_true (hs.1 ▸ caught_none) trivial
    · obtain rfl := Option.some.inj hstep
      refine iff_of_true ((caught_finder_after (by exact hs.1) _).mpr fun v hv => ?_) trivial
      exact sendPacket_exn hv v rfl
  | again =>
    simp only [finderStep] at hstep
    split_ifs at hstep with hs
    obtain rfl := Option.some.inj hstep
    exact iff_of_true (hs.1 ▸ caught_none) trivial

/-- A thread that runs has let nothing through. -/
def Running (s : ServerConnectionThread) : Prop := s.ended = false → s.escaped = none

theorem running_after {s : ServerConnectionThread} (h : Running s) (exn : Option Exn) :
    Running (s.after exn) := by
  cases exn with
  | none => exact h
  | some e => cases e <;> simp [Running, ServerConnectionThread.after,
      ServerConnectionThread.catchTimeout]

theorem running_connectionRead {host : Host} {s : ServerConnectionThread} (h : Running s)
    (a : Arrival) (behind : ℕ → UInt8) : Running (connectionRead host s a behind) := by
  unfold connectionRead
  dsimp only
  split
  · exact running_after (by exact h) _
  · exact h
  · exact running_after (by exact h) _

theorem running_connectionStep {host : Host} {s s' : ServerConnectionThread} {a : ConnectionLabel}
    (h : Running s) (hstep : connectionStep host s a = some s') : Running s' := by
  cases a with
  | send call pkt =>
    simp only [connectionStep] at hstep
    split_ifs at hstep
    obtain rfl := Option.some.inj hstep
    exact running_after (by exact h) _
  | datagram a behind =>
    simp only [connectionStep] at hstep
    split_ifs at hstep
    obtain rfl := Option.some.inj hstep
    exact running_connectionRead h a behind
  | again =>
    simp only [connectionStep] at hstep
    split_ifs at hstep
    obtain rfl := Option.some.inj hstep
    exact h

theorem caught_connectionStep {host : Host} {s s' : ServerConnectionThread} {a : ConnectionLabel}
    (h : Running s) (hstep : connectionStep host s a = some s') :
    Caught s'.escaped ↔ ConnectionSupported s a := by
  cases a with
  | send call pkt =>
    simp only [connectionStep] at hstep
    split_ifs at hstep with hs
    obtain rfl := Option.some.inj hstep
    refine iff_of_true ((caught_connection_after (by exact h hs.1) _).mpr fun v hv => ?_) trivial
    exact sendPacket_exn hv v rfl
  | datagram a behind =>
    simp only [connectionStep] at hstep
    split_ifs at hstep with hs
    obtain rfl := Option.some.inj hstep
    exact caught_connectionRead (h hs) a behind
  | again =>
    simp only [connectionStep] at hstep
    split_ifs at hstep with hs
    obtain rfl := Option.some.inj hstep
    exact iff_of_true ((h hs) ▸ caught_none) trivial

theorem caught_deviceStep (host : Host) {escaped escaped' : Option Exn} {buff : ℕ → UInt8}
    (hstep : deviceStep escaped buff = some escaped') :
    Caught escaped' ↔ DeviceSupported escaped buff := by
  unfold deviceStep at hstep
  split at hstep
  · cases hrun : netLibFromBytes.run buff with
    | error e =>
      have hbad : (fromBytes host .netlib).run buff = .error e := hrun
      obtain ⟨hno, rfl⟩ := fromBytes_error_iff.mp hbad
      rw [hrun] at hstep
      obtain rfl := Option.some.inj hstep
      exact iff_of_false (fun h => h _ rfl trivial) hno
    | ok o =>
      rw [hrun] at hstep
      obtain rfl := Option.some.inj hstep
      refine iff_of_true caught_none ?_
      by_contra hno
      have hbad : (fromBytes host .netlib).run buff = .error _ := fromBytes_error_iff.mpr ⟨hno, rfl⟩
      cases hrun.symm.trans hbad
  · cases hstep

/-! ### All runs -/

/-- **No exception of `packets.h` leaves a thread exactly if it reads no packet with a bad version.** -/
theorem caught_iff (host : Host) (finder : List FinderLabel) (connection : List ConnectionLabel)
    (device : List (ℕ → UInt8)) :
    (Always (finderStep host) (fun s => Caught s.escaped) newServerFinderThread finder ↔
        Along (finderStep host) FinderSupported newServerFinderThread finder) ∧
      (Always (connectionStep host) (fun s => Caught s.escaped) newServerConnectionThread connection ↔
        Along (connectionStep host) ConnectionSupported newServerConnectionThread connection) ∧
      (Always deviceStep Caught none device ↔ Along deviceStep DeviceSupported none device) := by
  refine ⟨?_, ?_, ?_⟩
  · exact always_iff_along (J := fun _ => True) (D := fun _ _ => True) (fun _ _ _ _ _ _ => trivial)
      (fun _ _ _ _ _ _ hs => caught_finderStep hs) trivial caught_none (along_true _ _)
  · exact always_iff_along (J := Running) (D := fun _ _ => True)
      (fun _ _ _ hJ _ hs => running_connectionStep hJ hs)
      (fun _ _ _ hJ _ _ hs => caught_connectionStep hJ hs) (fun _ => rfl) caught_none (along_true _ _)
  · exact always_iff_along (J := fun _ => True) (D := fun _ _ => True) (fun _ _ _ _ _ _ => trivial)
      (fun _ _ _ _ _ _ hs => caught_deviceStep host hs) trivial caught_none (along_true _ _)

/-- A datagram or a buffer of four bytes. -/
def fourBytes (b0 b1 b2 b3 : UInt8) : Arrival := ⟨⟨0, 0, true⟩, [b0, b1, b2, b3], fun _ => 0⟩

/-- The header of each format, and version 2: the exception leaves all three threads. -/
theorem not_caught_version2 :
    ¬ Always (finderStep .x86) (fun s => Caught s.escaped) newServerFinderThread
        [.datagram (fourBytes 0x53 0x36 0x34 2) ⟨0, 0, true⟩ fun _ => 0] ∧
      ¬ Always (connectionStep .x86) (fun s => Caught s.escaped) newServerConnectionThread
        [.datagram (fourBytes 0x4E 0x4C 0x50 2) fun _ => 0] ∧
      ¬ Always deviceStep Caught none [received (fourBytes 0x4E 0x4C 0x50 2)] := by
  have hbad : ¬ Caught (some (.badPacketVersion 2)) := fun h => h _ rfl trivial
  exact ⟨fun h => hbad (h.2 _ rfl), fun h => hbad (h.2 _ rfl), fun h => hbad (h.2 _ rfl)⟩

end N64NetLib.Client.Exceptions
