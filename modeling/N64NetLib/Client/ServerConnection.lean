import N64NetLib.Lib.Run
import N64NetLib.Udp.Handler

/-! # The server connection thread of the client

`ServerConnectionThread::Entry` of `clientwindow.cpp`: an iteration of its loop sends what the USB
thread queued and reads what the server sent, until an exception. It never calls
`ResendMissingPackets`, as the loop of `ServerFinderThread` does. So a packet that is overdue when an
iteration begins is sent again in it in no case, and no iteration ends with a `ClientTimeoutException`,
which only an older packet can raise. The one way out is that the packet is acknowledged there, before
another exception ends the loop (`retried_iff_answered`). -/

namespace N64NetLib.Client.ServerConnection

open N64NetLib.Lib.Run N64NetLib.Packet N64NetLib.Packet.Basic N64NetLib.Packet.Sequence
open N64NetLib.Udp.Handler

/-- A datagram that `Read` puts into the buffer, `junk` being what stands there behind it. -/
structure Arrival where
  call : Call
  data : List UInt8
  junk : ℕ → UInt8

/-- What an iteration meets: the clock at its beginning, the queued packets and the datagrams. -/
structure Iteration where
  start : ℤ
  usb : List (Call × AbstractPacket)
  arrivals : List Arrival

/-- What a part of an iteration leaves behind. `next` numbers the packet objects, `posted` holds the
packets handed to `TransferPacket`. -/
structure Part where
  handler : UDPHandler
  next : ℕ
  out : List Datagram
  posted : List AbstractPacket
  exn : Option Exn

/-- The loop over the queue of the USB thread. -/
def sendAll (host : Host) : UDPHandler → ℕ → List (Call × AbstractPacket) → Part
  | h, next, [] => ⟨h, next, [], [], none⟩
  | h, next, (call, pkt) :: usb =>
    let r := sendPacket (.cpp host) call h { pkt with ref := next, attempts := 0 }
    match r.exn with
    | some e => ⟨r.handler, next + 1, r.out, [], some e⟩
    | none =>
      let rest := sendAll host r.handler (next + 1) usb
      { rest with out := r.out ++ rest.out }

/-- The loop over the received datagrams. -/
def readAll (host : Host) : UDPHandler → ℕ → List Arrival → Part
  | h, next, [] => ⟨h, next, [], [], none⟩
  | h, next, d :: arrivals =>
    let r := readPacket (.cpp host) .netlib d.call h next (next + 1) d.data d.junk
    match r.result with
    | .error e => ⟨r.handler, next + 2, r.out, [], some e⟩
    | .ok pkt =>
      let rest := readAll host r.handler (next + 2) arrivals
      { rest with out := r.out ++ rest.out, posted := pkt.toList ++ rest.posted }

/-- One iteration of the loop. -/
def entryLoop (host : Host) (h : UDPHandler) (next : ℕ) (it : Iteration) : Part :=
  let a := sendAll host h next it.usb
  match a.exn with
  | some _ => a
  | none =>
    let b := readAll host a.handler a.next it.arrivals
    { b with out := a.out ++ b.out }

/-- The thread between two iterations. `unsent` is kept for the statement only: the packets of
`m_AcksLeft_TX` that were overdue when the last iteration began and did not go out in it. -/
structure ServerConnectionThread where
  handler : UDPHandler
  next : ℕ
  ended : Bool
  unsent : List AbstractPacket

/-- The start of `Entry`. -/
def newServerConnectionThread : ServerConnectionThread := ⟨newUDPHandler, 0, false, []⟩

/-- The packet was last sent more than `TIME_RESEND` before the iteration began. -/
def Overdue (it : Iteration) (q : AbstractPacket) : Prop := it.start - q.sendtime > timeResend

instance (it : Iteration) (q : AbstractPacket) : Decidable (Overdue it q) := by
  unfold Overdue; infer_instance

/-- One iteration. An exception ends the loop: `ClientTimeoutException` is caught behind it, and nothing
is owed then; the others leave the thread. -/
def step (host : Host) (s : ServerConnectionThread) (it : Iteration) :
    Option ServerConnectionThread :=
  if s.ended then none
  else
    let r := entryLoop host s.handler s.next it
    match r.exn with
    | some .clientTimeout => some ⟨r.handler, r.next, true, []⟩
    | exn => some ⟨r.handler, r.next, exn.isSome, s.handler.acksleftTx.filter fun q =>
        decide (Overdue it q) && r.handler.acksleftTx.any (·.ref = q.ref) &&
          !r.out.any (·.pkt.ref = q.ref)⟩

/-- **Unacknowledged packets are retried**: in the last iteration every packet that was overdue went
out again or left `m_AcksLeft_TX`, or a `ClientTimeoutException` ended the loop. -/
def Retried (s : ServerConnectionThread) : Prop := s.unsent = []

/-- A queued packet goes out: the socket takes it, and its size has 16 bits. -/
def Sendable (c : Call × AbstractPacket) : Prop := c.1.sent = true ∧ Cpp.written c.2 < 65536

/-- Among the datagrams is one that `HandlePacketSequence` accepts and that acknowledges the packet. In
front of it none has a bad version, and the socket takes the ackbeats. -/
def AckedBy (host : Host) (q : AbstractPacket) : UDPHandler → List Arrival → Prop
  | _, [] => False
  | h, d :: arrivals =>
    match (Lang.cpp host).decode .netlib d.data d.junk with
    | .error _ => False
    | .ok none => AckedBy host q h arrivals
    | .ok (some pkt) =>
      (isDuplicate h pkt = false ∧ (Lang.cpp host).isAcked pkt.ack pkt.ackbitfield q.seqnum = true) ∨
        ((answers (.cpp host) h pkt = true → d.call.sent = true) ∧
          AckedBy host q (afterPacket (.cpp host) h pkt) arrivals)

/-- What an iteration needs: each overdue packet is acknowledged by a datagram, and whatever is handled
before this datagram goes through. -/
def Answered (host : Host) (s : ServerConnectionThread) (it : Iteration) : Prop :=
  ∀ q ∈ s.handler.acksleftTx, Overdue it q →
    (∀ c ∈ it.usb, Sendable c) ∧ AckedBy host q s.handler it.arrivals

/-! ### What an iteration takes out of the list -/

/-- Duplicates are a matter of the numbers in `m_AcksLeft_RX`. -/
theorem isDuplicate_congr {h h' : UDPHandler}
    (hrx : h.acksleftRx.map (·.seqnum) = h'.acksleftRx.map (·.seqnum)) (pkt : AbstractPacket) :
    isDuplicate h pkt = isDuplicate h' pkt := by
  have hany : ∀ l : List AbstractPacket, l.any (·.seqnum = pkt.seqnum) =
      (l.map (·.seqnum)).any (· = pkt.seqnum) := fun l => by simp [List.any_map, Function.comp_def]
  rw [isDuplicate, isDuplicate, hany, hany, hrx]

theorem rx_afterPacket_congr {lang : Lang} {h h' : UDPHandler}
    (hrx : h.acksleftRx.map (·.seqnum) = h'.acksleftRx.map (·.seqnum)) {pkt pkt' : AbstractPacket}
    (hpkt : pkt.header = pkt'.header) :
    (afterPacket lang h pkt).acksleftRx.map (·.seqnum) =
      (afterPacket lang h' pkt').acksleftRx.map (·.seqnum) := by
  have hseq : pkt.seqnum = pkt'.seqnum := congrArg Header.seqnum hpkt
  have hlen : h.acksleftRx.length = h'.acksleftRx.length := by simpa using congrArg List.length hrx
  have hdup : isDuplicate h pkt = isDuplicate h' pkt' := by
    rw [isDuplicate_congr hrx, isDuplicate, isDuplicate, hseq]
  unfold afterPacket
  rw [hdup]
  split_ifs
  · exact hrx
  · simp only [accept, AbstractPacket.reliable_of_header hpkt, hlen]
    split_ifs <;> simp [List.map_tail, hrx, hseq]

theorem answers_congr {lang : Lang} {h h' : UDPHandler}
    (hrx : h.acksleftRx.map (·.seqnum) = h'.acksleftRx.map (·.seqnum)) (pkt : AbstractPacket) :
    answers lang h pkt = answers lang h' pkt := by
  rw [answers, answers, isDuplicate_congr hrx]

theorem ackedBy_congr {host : Host} {q : AbstractPacket} : ∀ {arrivals : List Arrival}
    {h h' : UDPHandler}, h.acksleftRx.map (·.seqnum) = h'.acksleftRx.map (·.seqnum) →
      (AckedBy host q h arrivals ↔ AckedBy host q h' arrivals)
  | [], _, _, _ => Iff.rfl
  | d :: arrivals, h, h', hrx => by
    simp only [AckedBy]
    split
    · exact Iff.rfl
    · exact ackedBy_congr hrx
    · next pkt hpkt =>
      rw [isDuplicate_congr hrx, answers_congr hrx, ackedBy_congr (rx_afterPacket_congr hrx rfl)]

theorem mem_afterPacket_tx (lang : Lang) (h : UDPHandler) (pkt q : AbstractPacket) :
    q ∈ (afterPacket lang h pkt).acksleftTx ↔ q ∈ h.acksleftTx ∧
      ¬ (isDuplicate h pkt = false ∧ lang.isAcked pkt.ack pkt.ackbitfield q.seqnum = true) := by
  unfold afterPacket
  cases isDuplicate h pkt <;> simp [accept]

/-- A new packet never times out. -/
theorem sendPacket_ne_clientTimeout {host : Host} {call : Call} {h : UDPHandler} {pkt : AbstractPacket}
    (hpkt : pkt.attempts = 0) : (sendPacket (.cpp host) call h pkt).exn ≠ some .clientTimeout := by
  intro he
  rcases sendPacket_exn_cases he with ⟨-, hmax⟩ | ⟨p, hbytes⟩ | he
  · rw [hpkt, Lang.updateSendAttempt_zero, maxResend] at hmax
    omega
  · simp only [Lang.getBytes, Cpp.getBytes] at hbytes
    split_ifs at hbytes
    cases hbytes
  · cases he

/-- A read never times out: what it decodes raises a bad version, and an ackbeat is a new packet. -/
theorem readPacket_ne_clientTimeout {host : Host} {call : Call} {h : UDPHandler} {ref ackref : ℕ}
    {data : List UInt8} {junk : ℕ → UInt8} :
    (readPacket (.cpp host) .netlib call h ref ackref data junk).result ≠ .error .clientTimeout := by
  intro he
  rcases readPacket_error_cases he with hdecode | ⟨h', hsend⟩
  · rw [Lang.decode, Cpp.run_decode, Cpp.fromBytes, Cpp.run_netLibFromBytes] at hdecode
    split_ifs at hdecode
    cases hdecode
  · exact sendPacket_ne_clientTimeout rfl hsend

/-- A datagram with which the loop goes on: a packet stays in `m_AcksLeft_TX` for good if it is still there
and the other datagrams do not acknowledge it. -/
theorem not_ackedBy_cons_ok {host : Host} {h : UDPHandler} {next : ℕ} {d : Arrival}
    {ret : Option AbstractPacket} {q : AbstractPacket} (arrivals : List Arrival)
    (hres : (readPacket (.cpp host) .netlib d.call h next (next + 1) d.data d.junk).result = .ok ret)
    (hq : q ∈ h.acksleftTx) :
    ¬ AckedBy host q h (d :: arrivals) ↔
      q ∈ (readPacket (.cpp host) .netlib d.call h next (next + 1) d.data d.junk).handler.acksleftTx ∧
        ¬ AckedBy host q
          (readPacket (.cpp host) .netlib d.call h next (next + 1) d.data d.junk).handler arrivals := by
  obtain ⟨hh, -, hok⟩ := readPacket_spec (.cpp host) .netlib d.call h next (next + 1) d.data d.junk
  rw [hh]
  cases hd : (Lang.cpp host).decode .netlib d.data d.junk with
  | error e => simp [hd, hres] at hok
  | ok o =>
    cases o with
    | none => simp [AckedBy, hd, hq]
    | some pkt =>
      have hsent : answers (.cpp host) h pkt = true → d.call.sent = true := by
        simpa [hd] using hok.mp ⟨_, hres⟩
      have hcongr : AckedBy host q (afterPacket (.cpp host) h { pkt with ref := next }) arrivals ↔
          AckedBy host q (afterPacket (.cpp host) h pkt) arrivals :=
        ackedBy_congr (rx_afterPacket_congr rfl rfl)
      have htx := mem_afterPacket_tx (.cpp host) h { pkt with ref := next } q
      simp only [AckedBy, hd]
      rw [htx, hcongr, not_or, and_iff_right hsent, and_iff_right hq]
      exact Iff.rfl

/-- A datagram that ends the loop: the packets that it acknowledges have left the list. -/
theorem not_ackedBy_cons_error {host : Host} {h : UDPHandler} {next : ℕ} {d : Arrival} {e : Exn}
    {q : AbstractPacket} (arrivals : List Arrival)
    (hres : (readPacket (.cpp host) .netlib d.call h next (next + 1) d.data d.junk).result = .error e)
    (hq : q ∈ h.acksleftTx) :
    ¬ AckedBy host q h (d :: arrivals) ↔
      q ∈ (readPacket (.cpp host) .netlib d.call h next (next + 1) d.data
        d.junk).handler.acksleftTx := by
  obtain ⟨hh, -, hok⟩ := readPacket_spec (.cpp host) .netlib d.call h next (next + 1) d.data d.junk
  rw [hh]
  cases hd : (Lang.cpp host).decode .netlib d.data d.junk with
  | error e => simp [AckedBy, hd, hq]
  | ok o =>
    cases o with
    | none => simp [hd, hres] at hok
    | some pkt =>
      have hrefused : ¬ (answers (.cpp host) h pkt = true → d.call.sent = true) := fun hsent => by
        simpa [hd, hres] using hok.mpr (by simpa [hd] using hsent)
      have htx := mem_afterPacket_tx (.cpp host) h { pkt with ref := next } q
      simp only [AckedBy, hd]
      rw [htx, not_or, and_iff_right hq, and_iff_left fun hacked => hrefused hacked.1]
      exact Iff.rfl

/-- What is left of `m_AcksLeft_TX` after the datagrams, and what went out, however the loop ends. -/
theorem readAll_spec (host : Host) : ∀ (arrivals : List Arrival) (h : UDPHandler) (next : ℕ),
    (readAll host h next arrivals).handler.acksleftTx.Sublist h.acksleftTx ∧
      (∀ q ∈ h.acksleftTx, q ∈ (readAll host h next arrivals).handler.acksleftTx ↔
        ¬ AckedBy host q h arrivals) ∧
      (∀ d ∈ (readAll host h next arrivals).out, next ≤ d.pkt.ref) ∧
      next ≤ (readAll host h next arrivals).next ∧
      (readAll host h next arrivals).exn ≠ some .clientTimeout
  | [], h, next => by simp [readAll, AckedBy]
  | d :: arrivals, h, next => by
    obtain ⟨hh, hout, -⟩ :=
      readPacket_spec (.cpp host) .netlib d.call h next (next + 1) d.data d.junk
    have hstep : (readPacket (.cpp host) .netlib d.call h next (next + 1) d.data
        d.junk).handler.acksleftTx.Sublist h.acksleftTx := by
      rw [hh]
      split
      · exact tx_afterPacket (.cpp host) h _
      · exact List.Sublist.refl _
    cases hres : (readPacket (.cpp host) .netlib d.call h next (next + 1) d.data d.junk).result with
    | error e =>
      simp only [readAll, hres]
      refine ⟨hstep, fun q hq => (not_ackedBy_cons_error arrivals hres hq).symm, fun d' hd' => ?_,
        by omega, fun he => ?_⟩
      · rw [hout d' hd']
        omega
      · exact readPacket_ne_clientTimeout (hres.trans (congrArg Except.error (Option.some.inj he)))
    | ok ret =>
      simp only [readAll, hres]
      obtain ⟨hsub, hmem, hrest, hnext, hexn⟩ := readAll_spec host arrivals
        (readPacket (.cpp host) .netlib d.call h next (next + 1) d.data d.junk).handler (next + 2)
      refine ⟨hsub.trans hstep, fun q hq => ?_, fun d' hd' => ?_, by omega, hexn⟩
      · rw [not_ackedBy_cons_ok arrivals hres hq]
        constructor
        · intro hin
          exact ⟨hsub.subset hin, (hmem q (hsub.subset hin)).mp hin⟩
        · rintro ⟨hstays, hno⟩
          exact (hmem q hstays).mpr hno
      · rcases List.mem_append.mp hd' with hd' | hd'
        · rw [hout d' hd']
          omega
        · have := hrest d' hd'
          omega

/-- A new packet, whether it goes out or not. -/
theorem sendPacket_new (host : Host) (call : Call) (h : UDPHandler) {pkt : AbstractPacket}
    (hpkt : pkt.attempts = 0) :
    (sendPacket (.cpp host) call h pkt).handler.acksleftRx = h.acksleftRx ∧
      (∃ new, (sendPacket (.cpp host) call h pkt).handler.acksleftTx = h.acksleftTx ++ new ∧
        (new = [] ∨ ∃ p, new = [p] ∧ p.ref = pkt.ref)) ∧
      (∀ d ∈ (sendPacket (.cpp host) call h pkt).out, d.pkt.ref = pkt.ref) ∧
      ((sendPacket (.cpp host) call h pkt).exn = none ↔ Sendable (call, pkt)) := by
  cases hsent : call.sent with
  | false =>
    obtain ⟨hh, hout, hexn⟩ := sendPacket_refused (.cpp host) hsent h hpkt
    rw [hh, hout]
    exact ⟨rfl, ⟨[], by simp, Or.inl rfl⟩, by simp, iff_of_false hexn fun h => by simp [Sendable, hsent] at h⟩
  | true =>
    have hwritten : Cpp.written (firstSent (.cpp host) call h pkt) = Cpp.written pkt := rfl
    rw [sendPacket_first (.cpp host) call h hpkt hsent]
    simp only [Lang.getBytes, Cpp.getBytes, Cpp.length_getAsBytes, Cpp.toNat_getAsBytesSize, hwritten]
    by_cases hsize : Cpp.written pkt < 65536
    · rw [Nat.mod_eq_of_lt hsize, if_pos le_rfl]
      refine ⟨?_, ?_, by simp [firstSent], iff_of_true rfl ⟨hsent, hsize⟩⟩
      · dsimp only [addSent]
        split_ifs <;> rfl
      · dsimp only [addSent]
        split_ifs
        · exact ⟨_, rfl, Or.inr ⟨_, rfl, rfl⟩⟩
        · exact ⟨[], by simp, Or.inl rfl⟩
    · have hlong : ¬ Cpp.written pkt ≤ Cpp.written pkt % 65536 := by omega
      rw [if_neg hlong]
      exact ⟨rfl, ⟨[], by simp, Or.inl rfl⟩, by simp, iff_of_false (by simp) fun h => hsize h.2⟩

/-- What the queue of the USB thread adds to `m_AcksLeft_TX`, however the loop ends. -/
theorem sendAll_spec (host : Host) : ∀ (usb : List (Call × AbstractPacket)) (h : UDPHandler)
    (next : ℕ),
    (sendAll host h next usb).handler.acksleftRx = h.acksleftRx ∧
      (∃ new, (sendAll host h next usb).handler.acksleftTx = h.acksleftTx ++ new ∧
        new.Pairwise (·.ref < ·.ref) ∧
        ∀ q ∈ new, next ≤ q.ref ∧ q.ref < (sendAll host h next usb).next) ∧
      (∀ d ∈ (sendAll host h next usb).out, next ≤ d.pkt.ref) ∧
      next ≤ (sendAll host h next usb).next ∧
      ((sendAll host h next usb).exn = none ↔ ∀ c ∈ usb, Sendable c) ∧
      (sendAll host h next usb).exn ≠ some .clientTimeout
  | [], h, next => by simp [sendAll]
  | (call, pkt) :: usb, h, next => by
    obtain ⟨hrx1, ⟨new1, htx1, hnew1⟩, hout1, hexn1⟩ :=
      @sendPacket_new host call h { pkt with ref := next, attempts := 0 } rfl
    have hsendable : Sendable (call, { pkt with ref := next, attempts := 0 }) ↔ Sendable (call, pkt) :=
      Iff.rfl
    rw [hsendable] at hexn1
    have hfirst : ∀ q ∈ new1, q.ref = next := fun q hq => by
      rcases hnew1 with rfl | ⟨p, rfl, hp⟩
      · simp at hq
      · rw [List.mem_singleton.mp hq, hp]
    cases hres : (sendPacket (.cpp host) call h { pkt with ref := next, attempts := 0 }).exn with
    | some e =>
      simp only [sendAll, hres]
      refine ⟨hrx1, ⟨new1, htx1, ?_, fun q hq => ?_⟩, fun d hd => (hout1 d hd).ge, by omega,
        iff_of_false (by simp) fun hall => ?_, fun he => ?_⟩
      · rcases hnew1 with rfl | ⟨p, rfl, hp⟩ <;> simp
      · rw [hfirst q hq]
        omega
      · simp [hexn1.mpr (hall _ (by simp))] at hres
      · exact sendPacket_ne_clientTimeout rfl (hres.trans he)
    | none =>
      simp only [sendAll, hres]
      obtain ⟨hrx, ⟨new, htx, hpair, hnew⟩, hout, hnext, hall, hexn⟩ := sendAll_spec host usb
        (sendPacket (.cpp host) call h { pkt with ref := next, attempts := 0 }).handler (next + 1)
      refine ⟨hrx.trans hrx1, ⟨new1 ++ new, ?_, ?_, fun q hq => ?_⟩, fun d hd => ?_, by omega, ?_, hexn⟩
      · rw [htx, htx1, List.append_assoc]
      · rcases hnew1 with rfl | ⟨p, rfl, -⟩
        · exact hpair
        · refine List.pairwise_cons.mpr ⟨fun q hq => ?_, hpair⟩
          have := (hnew q hq).1
          have := hfirst p (by simp)
          omega
      · rcases List.mem_append.mp hq with hq | hq
        · have := hfirst q hq
          omega
        · have := hnew q hq
          omega
      · rcases List.mem_append.mp hd with hd | hd
        · exact (hout1 d hd).ge
        · have := hout d hd
          omega
      · rw [hall, List.forall_mem_cons, and_iff_right (hexn1.mp hres)]

/-! ### Steps and runs -/

/-- The packet objects are numbered in the order of sending. -/
structure Numbered (s : ServerConnectionThread) : Prop where
  pairwise : s.handler.acksleftTx.Pairwise (·.ref < ·.ref)
  lt : ∀ q ∈ s.handler.acksleftTx, q.ref < s.next

/-- An iteration, however it ends. -/
theorem entryLoop_spec (host : Host) (h : UDPHandler) (next : ℕ) (it : Iteration) :
    (∃ new, (entryLoop host h next it).handler.acksleftTx.Sublist (h.acksleftTx ++ new) ∧
      new.Pairwise (·.ref < ·.ref) ∧
      ∀ q ∈ new, next ≤ q.ref ∧ q.ref < (entryLoop host h next it).next) ∧
    (∀ q ∈ h.acksleftTx, q ∈ (entryLoop host h next it).handler.acksleftTx ↔
      ¬ ((∀ c ∈ it.usb, Sendable c) ∧ AckedBy host q h it.arrivals)) ∧
    (∀ d ∈ (entryLoop host h next it).out, next ≤ d.pkt.ref) ∧
    next ≤ (entryLoop host h next it).next ∧
    (entryLoop host h next it).exn ≠ some .clientTimeout := by
  obtain ⟨hrx, ⟨new, htx, hpair, hnew⟩, hout, hnext, hall, hexn⟩ :=
    sendAll_spec host it.usb h next
  cases hsend : (sendAll host h next it.usb).exn with
  | some e =>
    -- nothing is read, and what was in the list is still there
    simp only [entryLoop, hsend]
    have hno : ¬ ∀ c ∈ it.usb, Sendable c := fun h => by simp [hall.mpr h] at hsend
    refine ⟨⟨new, htx ▸ List.Sublist.refl _, hpair, hnew⟩, fun q hq => ?_, hout, hnext, hsend ▸ hexn⟩
    rw [htx]
    exact iff_of_true (List.mem_append_left _ hq) fun h => hno h.1
  | none =>
    simp only [entryLoop, hsend]
    obtain ⟨hsub, hmem, hout', hnext', hexn'⟩ := readAll_spec host it.arrivals
      (sendAll host h next it.usb).handler (sendAll host h next it.usb).next
    refine ⟨⟨new, htx ▸ hsub, hpair, fun q hq => ?_⟩, fun q hq => ?_, fun d hd => ?_, by omega, hexn'⟩
    · have := hnew q hq
      omega
    · rw [hmem q (htx ▸ List.mem_append_left _ hq), not_iff_not, and_iff_right (hall.mp hsend)]
      exact ackedBy_congr (by rw [hrx])
    · rcases List.mem_append.mp hd with hd | hd
      · exact hout d hd
      · have := hout' d hd
        omega

theorem Numbered.inj {s : ServerConnectionThread} (hs : Numbered s) {p q : AbstractPacket}
    (hp : p ∈ s.handler.acksleftTx) (hq : q ∈ s.handler.acksleftTx) (hpq : p.ref = q.ref) : p = q := by
  have hnodup : (s.handler.acksleftTx.map (·.ref)).Nodup :=
    List.pairwise_map.mpr (hs.pairwise.imp fun h => h.ne)
  exact List.inj_on_of_nodup_map hnodup hp hq hpq

/-- **What a step does**: no iteration ends with a timeout, so that it owes whatever was overdue, stayed in
the list and did not go out. -/
theorem step_cases {host : Host} {s s' : ServerConnectionThread} {it : Iteration}
    (h : step host s it = some s') :
    s' = ⟨(entryLoop host s.handler s.next it).handler, (entryLoop host s.handler s.next it).next,
      (entryLoop host s.handler s.next it).exn.isSome, s.handler.acksleftTx.filter fun q =>
        decide (Overdue it q) &&
          (entryLoop host s.handler s.next it).handler.acksleftTx.any (·.ref = q.ref) &&
            !(entryLoop host s.handler s.next it).out.any (·.pkt.ref = q.ref)⟩ := by
  have hexn : (entryLoop host s.handler s.next it).exn ≠ some .clientTimeout :=
    (entryLoop_spec host s.handler s.next it).2.2.2.2
  unfold step at h
  split_ifs at h
  dsimp only at h
  split at h
  · next he => exact absurd he hexn
  · exact (Option.some.inj h).symm

theorem numbered_step {host : Host} {s s' : ServerConnectionThread} {it : Iteration}
    (hs : Numbered s) (h : step host s it = some s') : Numbered s' := by
  obtain ⟨⟨new, hsub, hpair, hnew⟩, -, -, hnext, -⟩ :=
    entryLoop_spec host s.handler s.next it
  obtain rfl := step_cases h
  refine ⟨?_, fun q hq => ?_⟩
  · refine (List.pairwise_append.mpr ⟨hs.pairwise, hpair, fun p hp q hq => ?_⟩).sublist hsub
    have := hs.lt p hp
    have := hnew q hq
    omega
  · rcases List.mem_append.mp (hsub.subset hq) with hq | hq
    · have := hs.lt q hq
      show q.ref < (entryLoop host s.handler s.next it).next
      omega
    · exact (hnew q hq).2

/-- **One iteration retries what was overdue exactly if all of it is acknowledged there.** -/
theorem retried_step {host : Host} {s s' : ServerConnectionThread} {it : Iteration}
    (hs : Numbered s) (h : step host s it = some s') : Retried s' ↔ Answered host s it := by
  obtain ⟨⟨new, hsub, hpair, hnew⟩, hmem, hout, hnext, -⟩ :=
    entryLoop_spec host s.handler s.next it
  -- an overdue packet does not go out: what goes out is numbered from `next` on
  have hquiet : ∀ q ∈ s.handler.acksleftTx,
      (entryLoop host s.handler s.next it).out.any (·.pkt.ref = q.ref) = false := by
    intro q hq
    rw [List.any_eq_false]
    intro d hd
    have := hout d hd
    have := hs.lt q hq
    simp only [decide_eq_true_eq]
    omega
  have hstay : ∀ q ∈ s.handler.acksleftTx,
      (entryLoop host s.handler s.next it).handler.acksleftTx.any (·.ref = q.ref) = true ↔
        ¬ ((∀ c ∈ it.usb, Sendable c) ∧ AckedBy host q s.handler it.arrivals) := by
    intro q hq
    rw [← hmem q hq, List.any_eq_true]
    constructor
    · rintro ⟨p, hp, hpq⟩
      rw [decide_eq_true_eq] at hpq
      have hq' := hs.lt q hq
      rcases List.mem_append.mp (hsub.subset hp) with hp' | hp'
      · exact hs.inj hp' hq hpq ▸ hp
      · have := (hnew p hp').1
        omega
    · intro hin
      exact ⟨q, hin, by simp⟩
  rw [step_cases h]
  simp only [Retried, Answered, List.filter_eq_nil_iff]
  refine forall₂_congr fun q hq => ?_
  simp only [hquiet q hq, Bool.not_false, Bool.and_true, Bool.and_eq_true, decide_eq_true_eq,
    hstay q hq]
  exact not_and.trans (imp_congr_right fun _ => not_not)

/-- **When unacknowledged packets are retried**: exactly in the runs in which every packet that is
overdue when an iteration begins is acknowledged in this iteration. -/
theorem retried_iff_answered (host : Host) (l : List Iteration) :
    Always (step host) Retried newServerConnectionThread l ↔
      Along (step host) (Answered host) newServerConnectionThread l :=
  always_iff_along (fun _ _ _ hs _ h => numbered_step hs h) (fun _ _ _ hs _ _ h => retried_step hs h)
    ⟨.nil, by simp [newServerConnectionThread, newUDPHandler]⟩ rfl (along_true _ l)

/-- A packet from the N64, and five seconds later an iteration without any datagram. -/
def silentServer : List Iteration :=
  [⟨0, [(⟨0, 0, true⟩, newNetLibPacket 0 5 [1] 0)], []⟩, ⟨5000, [], []⟩]

/-- The packet is not sent again, and no exception ends the loop. -/
theorem not_retried_silentServer :
    ¬ ∀ host l, Always (step host) Retried newServerConnectionThread l := by
  intro hall
  obtain ⟨s, hs⟩ : ∃ s, run (step .x86) newServerConnectionThread silentServer = some s :=
    Option.isSome_iff_exists.mp (by decide +kernel)
  have hrun : (run (step .x86) newServerConnectionThread silentServer).map (fun s =>
      (s.ended, s.unsent.length)) = some (false, 1) := by decide +kernel
  have hretried : s.unsent = [] := (hall .x86 silentServer).last hs
  simp [hs, hretried] at hrun

end N64NetLib.Client.ServerConnection
