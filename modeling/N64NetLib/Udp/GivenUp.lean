import N64NetLib.Udp.Network
import N64NetLib.Udp.Resend

/-! # Does the C++ handler stay with its decision?

One handler of `packets.cpp` whose thread goes on after a `ClientTimeoutException`, as the loop of
`ServerFinderThread` does: it sends new packets, sends a packet again, reads whatever comes in and
resends, in any order. Any other exception ends the thread, and with it the run.

A packet that went out `MAX_RESENDCOUNT` times is given up: the next attempt throws. Every attempt counts,
the refused ones too, and the counter has eight bits. `Final` says that the decision stands, `Counts`
that no counter comes round, and `stays_iff` that it is the one exactly if it is the other. -/

namespace N64NetLib.Udp.GivenUp

open N64NetLib.Lib.Run N64NetLib.Packet N64NetLib.Packet.Basic N64NetLib.Packet.Sequence
open N64NetLib.Udp.Handler
open N64NetLib.Udp.Resend (Overdue Stops sendPacket_stops sendPacket_passes)
open N64NetLib.Udp.Network (getElem?_concat)

/-- An attempt to send a packet: the packet as `SendPacket` leaves it, and what it throws. -/
structure Attempt where
  pkt : AbstractPacket
  exn : Option Exn
deriving DecidableEq

/-- The attempts of `resendLoop`, in order. -/
def resendAttempts (lang : Lang) (calls : ℕ → Call) (h : UDPHandler) :
    ℕ → List AbstractPacket → List Attempt
  | _, [] => []
  | i, pkt2ack :: tx =>
    if (calls i).asked - pkt2ack.sendtime > timeResend then
      let r := sendPacket lang (calls i) { h with acksleftTx := pkt2ack :: tx } pkt2ack
      ⟨r.pkt, r.exn⟩ ::
        if r.exn = none ∧ r.pkt.attempts ≠ 1 then resendAttempts lang calls h (i + 1) tx else []
    else resendAttempts lang calls h (i + 1) tx

/-- The handler, every attempt to send a packet so far, and the first number no object has. The
ackbeats that a read sends are not counted among the attempts: they are unreliable. -/
structure State where
  handler : UDPHandler
  attempts : List Attempt
  fresh : ℕ

/-- The start. -/
def init : State := ⟨newUDPHandler, [], 0⟩

/-- A call of the handler: `SendPacket` of a new packet or of the packet in place `i` of `acksleft_tx`, a
read of any datagram, and `ResendMissingPackets`. An acknowledged packet is deleted, and nobody has
it any more. -/
inductive Label
  | send (pkt : AbstractPacket) (call : Call)
  | again (i : ℕ) (call : Call)
  | read (k : Kind) (data : List UInt8) (junk : ℕ → UInt8) (call : Call)
  | resend (calls : ℕ → Call)

/-- The state after a call, if the thread goes on. -/
def State.after (s : State) (h : UDPHandler) (attempts : List Attempt) (exn : Option Exn)
    (objects : ℕ) : Option State :=
  if exn = none ∨ exn = some .clientTimeout then
    some ⟨h, s.attempts ++ attempts, s.fresh + objects⟩
  else none

/-- The exception a call ended with. -/
def thrown {α : Type} : Except Exn α → Option Exn
  | .error e => some e
  | .ok _ => none

/-- One step. -/
def step (host : Host) (s : State) : Label → Option State
  | .send pkt call =>
    let r := sendPacket (.cpp host) call s.handler { pkt with ref := s.fresh, attempts := 0 }
    s.after r.handler [⟨r.pkt, r.exn⟩] r.exn 1
  | .again i call =>
    (s.handler.acksleftTx[i]?).bind fun pkt =>
      let r := sendPacket (.cpp host) call s.handler pkt
      s.after { r.handler with acksleftTx := r.handler.acksleftTx.set i r.pkt } [⟨r.pkt, r.exn⟩] r.exn 0
  | .read k data junk call =>
    let r := readPacket (.cpp host) k call s.handler s.fresh (s.fresh + 1) data junk
    s.after r.handler [] (thrown r.result) 2
  | .resend calls =>
    let r := resendMissingPackets (.cpp host) calls s.handler
    s.after r.handler (resendAttempts (.cpp host) calls s.handler 0 s.handler.acksleftTx) r.exn 0

/-- How often the packet was sent. -/
def sent (ref : ℕ) (attempts : List Attempt) : ℕ :=
  attempts.countP fun t => t.pkt.ref = ref ∧ t.exn = none

/-- **Given up is given up**: every attempt to send a reliable packet that was sent `MAX_RESENDCOUNT` times
throws, no reliable packet has two sequence numbers, and none is twice in `acksleft_tx`. -/
structure Final (tx : List AbstractPacket) (attempts : List Attempt) : Prop where
  refused : ∀ (k : ℕ) (t : Attempt), attempts[k]? = some t → t.pkt.reliable →
    maxResend ≤ (sent t.pkt.ref (attempts.take k) : ℤ) → t.exn = some .clientTimeout
  number : ∀ t ∈ attempts, ∀ t' ∈ attempts, t.pkt.reliable → t.pkt.ref = t'.pkt.ref →
    t.pkt.seqnum = t'.pkt.seqnum
  once : (tx.map (·.ref)).Nodup

/-- The handler stays with its decisions. -/
def Stays (s : State) : Prop := Final s.handler.acksleftTx s.attempts

/-- **No attempt counter comes round**: a packet whose counter is at its end is not sent again, is not
overdue, or a packet in front of it ends the loop. -/
def Counts (host : Host) (s : State) : Label → Prop
  | .again i _ => ∀ q, s.handler.acksleftTx[i]? = some q → q.attempts ≠ 255
  | .resend calls => ∀ i q, s.handler.acksleftTx[i]? = some q → q.attempts = 255 →
      Overdue (calls i) q →
        ∃ j < i, ∃ p, s.handler.acksleftTx[j]? = some p ∧ Stops (.cpp host) (calls j) p
  | _ => True

/-! ### The attempts -/

theorem sent_append (ref : ℕ) (attempts more : List Attempt) :
    sent ref (attempts ++ more) = sent ref attempts + sent ref more := List.countP_append

theorem sent_eq_zero {ref : ℕ} {attempts : List Attempt} (h : ∀ t ∈ attempts, t.pkt.ref ≠ ref) :
    sent ref attempts = 0 :=
  List.countP_eq_zero.mpr fun t ht hsent => h t ht (of_decide_eq_true hsent).1

theorem sent_singleton (ref : ℕ) (t : Attempt) :
    sent ref [t] = if t.pkt.ref = ref ∧ t.exn = none then 1 else 0 := by
  simp [sent, List.countP_singleton]

/-- What an attempt puts on the wire. -/
theorem out_sendPacket (lang : Lang) (call : Call) (h : UDPHandler) (pkt : AbstractPacket) :
    (sendPacket lang call h pkt).out.map (·.pkt) =
      if (sendPacket lang call h pkt).exn = none then [(sendPacket lang call h pkt).pkt] else [] := by
  simp only [sendPacket]
  split
  · simp
  · split
    · simp
    · split_ifs <;> simp_all

/-- **The attempts of the loop**: those that do not throw are what it puts on the wire. -/
theorem out_resendLoop (lang : Lang) (calls : ℕ → Call) (h : UDPHandler) :
    ∀ (tx : List AbstractPacket) (i : ℕ), (resendLoop lang calls h i tx).out.map (·.pkt) =
      ((resendAttempts lang calls h i tx).filter (·.exn = none)).map (·.pkt)
  | [], _ => rfl
  | pkt2ack :: tx, i => by
    have hrest := out_resendLoop lang calls h tx (i + 1)
    have hone := out_sendPacket lang (calls i) { h with acksleftTx := pkt2ack :: tx } pkt2ack
    unfold resendLoop resendAttempts
    split_ifs with hover
    · dsimp only
      cases hexn : (sendPacket lang (calls i) { h with acksleftTx := pkt2ack :: tx } pkt2ack).exn with
      | some e => simpa [hexn] using hone
      | none =>
        rw [hexn, if_pos rfl] at hone
        by_cases hround :
            (sendPacket lang (calls i) { h with acksleftTx := pkt2ack :: tx } pkt2ack).pkt.attempts = 1
        · simpa [hround] using hone
        · simp [hround, hone, hrest]
    · exact hrest

/-- An attempt is counted, whatever becomes of it. -/
theorem attempts_sendPacket (lang : Lang) (call : Call) (h : UDPHandler) (pkt : AbstractPacket) :
    (sendPacket lang call h pkt).pkt.attempts = lang.updateSendAttempt pkt.attempts ∧
      (sendPacket lang call h pkt).pkt.ref = pkt.ref := by
  rcases pkt_sendPacket_cases lang call h pkt with hpkt | ⟨hone, hpkt⟩
  · rw [hpkt]
    exact ⟨rfl, rfl⟩
  · rw [hpkt]
    exact ⟨hone.symm, rfl⟩

/-- The loop tries the packets of the list. -/
theorem exists_of_mem_resendAttempts {lang : Lang} {calls : ℕ → Call} {h : UDPHandler} {t : Attempt} :
    ∀ {tx : List AbstractPacket} {i : ℕ}, t ∈ resendAttempts lang calls h i tx →
      ∃ q ∈ tx, t.pkt.ref = q.ref
  | [], _, ht => by simp [resendAttempts] at ht
  | pkt2ack :: tx, i, ht => by
    have hrest : t ∈ resendAttempts lang calls h (i + 1) tx → ∃ q ∈ pkt2ack :: tx, t.pkt.ref = q.ref :=
      fun hmem => by
        obtain ⟨q, hq, href⟩ := exists_of_mem_resendAttempts hmem
        exact ⟨q, List.mem_cons_of_mem _ hq, href⟩
    unfold resendAttempts at ht
    split_ifs at ht
    · rcases List.mem_cons.mp ht with rfl | ht
      · exact ⟨pkt2ack, by simp, (attempts_sendPacket _ _ _ _).2⟩
      · split_ifs at ht
        · exact hrest ht
        · simp at ht
    · exact hrest ht

/-- The handler takes no note of an unreliable packet. -/
theorem handler_sendPacket {lang : Lang} (call : Call) (h : UDPHandler) {pkt : AbstractPacket}
    (hrel : pkt.reliable = false) : (sendPacket lang call h pkt).handler = h := by
  have hkeep : ∀ p : AbstractPacket, p.flags = pkt.flags → p.reliable = false := fun p hp => by
    rw [AbstractPacket.reliable, hp]
    exact hrel
  simp only [sendPacket]
  split
  · rfl
  · split
    · rfl
    · split_ifs <;> simp_all

/-- Which attempts time out. -/
theorem timeout_iff (host : Host) (call : Call) (h : UDPHandler) (pkt : AbstractPacket) :
    (sendPacket (.cpp host) call h pkt).exn = some .clientTimeout ↔
      Lang.updateSendAttempt (.cpp host) pkt.attempts > maxResend := by
  constructor
  · intro hexn
    rcases sendPacket_exn_cases hexn with ⟨-, hmax⟩ | ⟨p, hbytes⟩ | hio
    · exact hmax
    · simp only [Lang.getBytes, Cpp.getBytes] at hbytes
      split_ifs at hbytes
      exact absurd (Except.error.inj hbytes) (by decide)
    · exact absurd hio (by decide)
  · intro hmax
    simp [sendPacket, hmax]

/-! ### The invariant -/

/-- What the counter of a packet in `acksleft_tx` says: how often it was sent, up to the limit. -/
structure Counted (attempts : List Attempt) (q : AbstractPacket) : Prop where
  reliable : q.reliable
  pos : 1 ≤ q.attempts
  le : q.attempts ≤ 255
  sent : (sent q.ref attempts : ℤ) = min q.attempts maxResend
  number : ∀ t ∈ attempts, t.pkt.ref = q.ref → t.pkt.seqnum = q.seqnum

/-- What the calls keep of the list and the attempts. -/
structure Kept (tx : List AbstractPacket) (attempts : List Attempt) : Prop where
  final : Final tx attempts
  counted : ∀ q ∈ tx, Counted attempts q

/-- **The invariant.** -/
structure Inv (s : State) : Prop where
  kept : Kept s.handler.acksleftTx s.attempts
  fresh : ∀ t ∈ s.attempts, t.pkt.ref < s.fresh

theorem Counted.exists_attempt {attempts : List Attempt} {q : AbstractPacket} (h : Counted attempts q) :
    ∃ t ∈ attempts, t.pkt.ref = q.ref := by
  by_contra hno
  have h0 := h.sent
  have h1 := h.pos
  rw [sent_eq_zero fun t ht href => hno ⟨t, ht, href⟩] at h0
  unfold maxResend at h0
  omega

/-- An attempt at another packet does not matter. -/
theorem Counted.append {attempts : List Attempt} {q : AbstractPacket} {t : Attempt}
    (h : Counted attempts q) (ht : t.pkt.ref ≠ q.ref) : Counted (attempts ++ [t]) q := by
  refine ⟨h.reliable, h.pos, h.le, ?_, fun t' ht' href => ?_⟩
  · rw [sent_append, sent_singleton, if_neg fun hsent => ht hsent.1, Nat.add_zero, h.sent]
  · rcases List.mem_append.mp ht' with ht' | ht'
    · exact h.number t' ht' href
    · obtain rfl := List.mem_singleton.mp ht'
      exact absurd href ht

/-- The counter of a packet that is tried once more. -/
theorem Counted.updateSendAttempt (host : Host) {attempts : List Attempt} {q : AbstractPacket}
    (h : Counted attempts q) (hne : q.attempts ≠ 255) :
    Lang.updateSendAttempt (.cpp host) q.attempts = q.attempts + 1 := by
  have h1 := h.pos
  have h2 := h.le
  simp only [Lang.updateSendAttempt]
  omega

/-- One attempt more: the decisions before stand if this one keeps to them. -/
theorem Final.concat {tx tx' : List AbstractPacket} {attempts : List Attempt} {t : Attempt}
    (h : Final tx attempts) (honce : (tx'.map (·.ref)).Nodup)
    (hrefused : maxResend ≤ (sent t.pkt.ref attempts : ℤ) → t.exn = some .clientTimeout)
    (hnumber : ∀ t' ∈ attempts, t'.pkt.ref = t.pkt.ref → t'.pkt.seqnum = t.pkt.seqnum) :
    Final tx' (attempts ++ [t]) := by
  refine ⟨fun k t' hk hrel hsent => ?_, fun t1 h1 t2 h2 hrel href => ?_, honce⟩
  · rcases getElem?_concat hk with hk' | ⟨rfl, rfl⟩
    · have hlt : k < attempts.length := (List.getElem?_eq_some_iff.mp hk').1
      rw [List.take_append_of_le_length hlt.le] at hsent
      exact h.refused k t' hk' hrel hsent
    · rw [List.take_left] at hsent
      exact hrefused hsent
  · rw [List.mem_append, List.mem_singleton] at h1 h2
    rcases h1 with h1 | rfl <;> rcases h2 with h2 | rfl
    · exact h.number t1 h1 t2 h2 hrel href
    · exact hnumber t1 h1 href
    · exact (hnumber t2 h2 href.symm).symm
    · rfl

/-! ### A packet is sent again -/

section Again

variable (host : Host) (call : Call) (h : UDPHandler) {q : AbstractPacket} {attempts : List Attempt}

/-- The attempt that `SendPacket` of the packet is. -/
def attempt (host : Host) (call : Call) (h : UDPHandler) (q : AbstractPacket) : Attempt :=
  ⟨(sendPacket (.cpp host) call h q).pkt, (sendPacket (.cpp host) call h q).exn⟩

theorem pkt_attempt (hq : Counted attempts q) (hne : q.attempts ≠ 255) :
    (attempt host call h q).pkt = { q with attempts := q.attempts + 1, sendtime := call.now } := by
  have hup := hq.updateSendAttempt host hne
  have h1 := hq.pos
  have hone : Lang.updateSendAttempt (.cpp host) q.attempts ≠ 1 := by
    rw [hup]
    omega
  obtain ⟨-, hp, -⟩ := sendPacket_again call h hone
  rw [attempt, hp, sentAgain, hup]

/-- A packet that was sent often enough is refused, and another one is sent. -/
theorem exn_attempt (hq : Counted attempts q) (hne : q.attempts ≠ 255)
    (hexn : (attempt host call h q).exn = none ∨ (attempt host call h q).exn = some .clientTimeout) :
    (attempt host call h q).exn = if q.attempts < maxResend then none else some .clientTimeout := by
  have hiff := timeout_iff host call h q
  rw [hq.updateSendAttempt host hne] at hiff
  split_ifs with hlt
  · refine hexn.resolve_right fun hout => ?_
    have hmax := hiff.mp hout
    omega
  · exact hiff.mpr (by omega)

/-- The counter after the attempt. -/
theorem counted_attempt (hq : Counted attempts q) (hne : q.attempts ≠ 255)
    (hexn : (attempt host call h q).exn = none ∨ (attempt host call h q).exn = some .clientTimeout) :
    Counted (attempts ++ [attempt host call h q]) (attempt host call h q).pkt := by
  have h1 := hq.pos
  have h2 := hq.le
  have hpkt := pkt_attempt host call h hq hne
  have href : (attempt host call h q).pkt.ref = q.ref := by rw [hpkt]
  have hsent : (sent q.ref (attempts ++ [attempt host call h q]) : ℤ) =
      min (q.attempts + 1) maxResend := by
    rw [sent_append, sent_singleton, exn_attempt host call h hq hne hexn, Nat.cast_add, hq.sent]
    unfold maxResend
    split_ifs with hlt <;> simp [href] at * <;> omega
  refine ⟨by rw [hpkt]; exact hq.reliable, by rw [hpkt]; show 1 ≤ q.attempts + 1; omega,
    by rw [hpkt]; show q.attempts + 1 ≤ 255; omega, by rw [href, hsent, hpkt], fun t ht heq => ?_⟩
  have hnumber : (attempt host call h q).pkt.seqnum = q.seqnum := by rw [hpkt]
  rcases List.mem_append.mp ht with ht | ht
  · rw [hnumber]
    exact hq.number t ht (heq.trans href)
  · rw [List.mem_singleton.mp ht]

/-- **An attempt at a packet of the list** keeps what there is to keep. -/
theorem kept_again {front back : List AbstractPacket} (hkept : Kept (front ++ q :: back) attempts)
    (hne : q.attempts ≠ 255)
    (hexn : (attempt host call h q).exn = none ∨ (attempt host call h q).exn = some .clientTimeout) :
    Kept (front ++ (attempt host call h q).pkt :: back) (attempts ++ [attempt host call h q]) := by
  have hq : Counted attempts q := hkept.counted q (by simp)
  have hpkt := pkt_attempt host call h hq hne
  have href : (attempt host call h q).pkt.ref = q.ref := by rw [hpkt]
  have honce := hkept.final.once
  have hother : ∀ p ∈ front ++ back, q.ref ≠ p.ref := by
    intro p hp heq
    simp only [List.map_append, List.map_cons] at honce
    have hnot := (List.nodup_cons.mp (List.nodup_middle.mp honce)).1
    rw [← List.map_append] at hnot
    exact hnot (heq ▸ List.mem_map_of_mem hp)
  refine ⟨hkept.final.concat (by simpa [href] using honce) (fun hsent => ?_) fun t ht heq => ?_,
    fun p hp => ?_⟩
  · rw [href, hq.sent] at hsent
    rw [exn_attempt host call h hq hne hexn, if_neg (by omega)]
  · rw [hq.number t ht (heq.trans href), hpkt]
  · have hp' : p = (attempt host call h q).pkt ∨ p ∈ front ++ back := by
      simp only [List.mem_append, List.mem_cons] at hp ⊢
      tauto
    rcases hp' with rfl | hp'
    · exact counted_attempt host call h hq hne hexn
    · refine (hkept.counted p ?_).append (by rw [href]; exact hother p hp')
      simp only [List.mem_append, List.mem_cons] at hp' ⊢
      tauto

end Again

/-! ### The loop -/

section Loop

variable {host : Host} {calls : ℕ → Call} (h : UDPHandler)

/-- The loop at an overdue packet whose counter does not come round to one. -/
theorem resendLoop_overdue (tx : List AbstractPacket) {i : ℕ} {q : AbstractPacket}
    (hover : Overdue (calls i) q) (hone : Lang.updateSendAttempt (.cpp host) q.attempts ≠ 1) :
    let t := attempt host (calls i) { h with acksleftTx := q :: tx } q
    let rest := resendLoop (.cpp host) calls h (i + 1) tx
    ((resendLoop (.cpp host) calls h i (q :: tx)).handler.acksleftTx =
        t.pkt :: if t.exn = none then rest.handler.acksleftTx else tx) ∧
      (resendLoop (.cpp host) calls h i (q :: tx)).exn =
        (if t.exn = none then rest.exn else t.exn) ∧
      resendAttempts (.cpp host) calls h i (q :: tx) =
        t :: if t.exn = none then resendAttempts (.cpp host) calls h (i + 1) tx else [] := by
  have hover' : (calls i).asked - q.sendtime > timeResend := hover
  obtain ⟨hh, hp, -⟩ :=
    sendPacket_again (calls i) { h with acksleftTx := q :: tx } hone
  have hround :
      (sendPacket (.cpp host) (calls i) { h with acksleftTx := q :: tx } q).pkt.attempts ≠ 1 := by
    rw [hp]
    exact hone
  simp only [attempt, resendLoop, resendAttempts, hover', if_true, hround, ne_eq, not_false_eq_true,
    and_true, if_false]
  rcases Option.eq_none_or_eq_some (sendPacket (.cpp host) (calls i)
    { h with acksleftTx := q :: tx } q).exn with hexn | ⟨e, hexn⟩
  · simp [hexn]
  · simp [hexn, hh]

theorem resendLoop_waits (host : Host) (tx : List AbstractPacket) {i : ℕ} {q : AbstractPacket}
    (hover : ¬ Overdue (calls i) q) :
    (resendLoop (.cpp host) calls h i (q :: tx)).handler.acksleftTx =
        q :: (resendLoop (.cpp host) calls h (i + 1) tx).handler.acksleftTx ∧
      (resendLoop (.cpp host) calls h i (q :: tx)).exn =
        (resendLoop (.cpp host) calls h (i + 1) tx).exn ∧
      resendAttempts (.cpp host) calls h i (q :: tx) =
        resendAttempts (.cpp host) calls h (i + 1) tx := by
  have hover' : ¬ (calls i).asked - q.sendtime > timeResend := hover
  simp only [resendLoop, resendAttempts, hover', if_false, and_self]

/-- No counter comes round in the rest of the list, from place `i` on. -/
def LoopCounts (host : Host) (calls : ℕ → Call) (i : ℕ) (tx : List AbstractPacket) : Prop :=
  ∀ k q, tx[k]? = some q → q.attempts = 255 → Overdue (calls (i + k)) q →
    ∃ j < k, ∃ p, tx[j]? = some p ∧ Stops (.cpp host) (calls (i + j)) p

/-- A packet that does not end the loop leaves the rest to count. -/
theorem LoopCounts.tail {i : ℕ} {p : AbstractPacket} {tx : List AbstractPacket}
    (hcounts : LoopCounts host calls i (p :: tx)) (hp : ¬ Stops (.cpp host) (calls i) p) :
    LoopCounts host calls (i + 1) tx := by
  intro k q hq hend hover
  have hidx : ∀ n, i + (n + 1) = i + 1 + n := fun n => by omega
  obtain ⟨j, hj, p', hp', hstop⟩ := hcounts (k + 1) q (by simpa using hq) hend (by rwa [hidx])
  cases j with
  | zero =>
    obtain rfl : p = p' := by simpa using hp'
    exact absurd hstop hp
  | succ j => exact ⟨j, by omega, p', by simpa using hp', by rwa [hidx] at hstop⟩

/-- **The loop** keeps what there is to keep if no counter comes round. Induction on the rest of the
list; `front` is what the loop has behind it. -/
theorem kept_resendLoop : ∀ {tx front : List AbstractPacket} {attempts : List Attempt} {i : ℕ},
    Kept (front ++ tx) attempts → LoopCounts host calls i tx →
    ((resendLoop (.cpp host) calls h i tx).exn = none ∨
      (resendLoop (.cpp host) calls h i tx).exn = some .clientTimeout) →
    Kept (front ++ (resendLoop (.cpp host) calls h i tx).handler.acksleftTx)
      (attempts ++ resendAttempts (.cpp host) calls h i tx)
  | [], front, attempts, i, hkept, _, _ => by simpa [resendLoop, resendAttempts] using hkept
  | q :: tx, front, attempts, i, hkept, hcounts, hexn => by
    have hq : Counted attempts q := hkept.counted q (by simp)
    by_cases hover : Overdue (calls i) q
    · have hne : q.attempts ≠ 255 := fun hend => by
        obtain ⟨j, hj, -⟩ := hcounts 0 q (by simp) hend hover
        omega
      have hone : Lang.updateSendAttempt (.cpp host) q.attempts ≠ 1 := by
        have h1 := hq.pos
        rw [hq.updateSendAttempt host hne]
        omega
      obtain ⟨htx, hloop, hattempts⟩ := resendLoop_overdue h tx hover hone
      rw [hloop] at hexn
      rw [htx, hattempts]
      by_cases hsent : (attempt host (calls i) { h with acksleftTx := q :: tx } q).exn = none
      · have hagain :=
          kept_again host (calls i) { h with acksleftTx := q :: tx } hkept hne (Or.inl hsent)
        have hpass : ¬ Stops (.cpp host) (calls i) q := fun hstop => by
          rcases sendPacket_stops { h with acksleftTx := q :: tx } hstop with ⟨-, e, he⟩ | ⟨h1, -⟩
          · exact absurd (hsent.symm.trans he) (by simp)
          · exact hone h1
        rw [if_pos hsent] at hexn ⊢
        rw [if_pos hsent]
        rw [List.append_cons] at hagain
        have hrest := kept_resendLoop hagain (hcounts.tail hpass) hexn
        simpa using hrest
      · rw [if_neg hsent] at hexn ⊢
        rw [if_neg hsent]
        exact kept_again host (calls i) _ hkept hne hexn
    · obtain ⟨htx, hloop, hattempts⟩ := resendLoop_waits h host tx hover
      rw [hloop] at hexn
      rw [htx, hattempts, List.append_cons]
      rw [List.append_cons] at hkept
      exact kept_resendLoop hkept (hcounts.tail fun hstop => hover hstop.1) hexn

/-- **A counter that comes round**: the packet is sent. -/
theorem exists_round : ∀ {tx : List AbstractPacket} {i k : ℕ} {q : AbstractPacket},
    tx[k]? = some q → q.attempts = 255 → Overdue (calls (i + k)) q →
    (∀ j < k, ∀ p, tx[j]? = some p → ¬ Stops (.cpp host) (calls (i + j)) p) →
    ((resendLoop (.cpp host) calls h i tx).exn = none ∨
      (resendLoop (.cpp host) calls h i tx).exn = some .clientTimeout) →
    ∃ t ∈ resendAttempts (.cpp host) calls h i tx,
      t.pkt.ref = q.ref ∧ t.pkt.reliable = q.reliable ∧ t.exn = none
  | [], _, _, _, hk, _, _, _, _ => by simp at hk
  | p :: tx, i, 0, q, hk, hend, hover, _, hexn => by
    obtain rfl : p = q := by simpa using hk
    rw [Nat.add_zero] at hover
    have hup : Lang.updateSendAttempt (.cpp host) p.attempts = 0 := by rw [hend]; rfl
    have hone : Lang.updateSendAttempt (.cpp host) p.attempts ≠ 1 := by rw [hup]; decide
    obtain ⟨-, hloop, hattempts⟩ := resendLoop_overdue h tx hover hone
    obtain ⟨-, hpkt, -⟩ := sendPacket_again (calls i) { h with acksleftTx := p :: tx } hone
    refine ⟨attempt host (calls i) { h with acksleftTx := p :: tx } p, by simp [hattempts], ?_, ?_, ?_⟩
    · simp [attempt, hpkt, sentAgain]
    · simp [attempt, hpkt, sentAgain, AbstractPacket.reliable]
    · by_contra hthrown
      rw [hloop, if_neg hthrown] at hexn
      have hmax := (timeout_iff _ _ _ _).mp (hexn.resolve_left hthrown)
      rw [hup] at hmax
      exact absurd hmax (by decide)
  | p :: tx, i, k + 1, q, hk, hend, hover, hpass, hexn => by
    have hidx : ∀ n, i + (n + 1) = i + 1 + n := fun n => by omega
    have hpass0 : ¬ Stops (.cpp host) (calls i) p := hpass 0 (by omega) p (by simp)
    have hk' : tx[k]? = some q := by simpa using hk
    have hover' : Overdue (calls (i + 1 + k)) q := hidx k ▸ hover
    have hpass' : ∀ j < k, ∀ p', tx[j]? = some p' → ¬ Stops (.cpp host) (calls (i + 1 + j)) p' :=
      fun j hj p' hp' => hidx j ▸ hpass (j + 1) (by omega) p' (by simpa using hp')
    by_cases hover0 : Overdue (calls i) p
    · obtain ⟨data, -, hsent, hone⟩ := sendPacket_passes { h with acksleftTx := p :: tx } hover0 hpass0
      have hup : Lang.updateSendAttempt (.cpp host) p.attempts ≠ 1 := by
        rwa [(attempts_sendPacket _ _ _ _).1] at hone
      obtain ⟨-, hloop, hattempts⟩ := resendLoop_overdue h tx hover0 hup
      have hsent' : (attempt host (calls i) { h with acksleftTx := p :: tx } p).exn = none := hsent
      rw [hloop, if_pos hsent'] at hexn
      rw [hattempts, if_pos hsent']
      obtain ⟨t, ht, hresult⟩ := exists_round hk' hend hover' hpass' hexn
      exact ⟨t, List.mem_cons_of_mem _ ht, hresult⟩
    · obtain ⟨-, hloop, hattempts⟩ := resendLoop_waits h host tx hover0
      rw [hloop] at hexn
      rw [hattempts]
      exact exists_round hk' hend hover' hpass' hexn

end Loop

/-! ### The calls -/

section Calls

variable {host : Host} {s s' : State}

theorem Inv.ref_lt (hs : Inv s) {q : AbstractPacket} (hq : q ∈ s.handler.acksleftTx) :
    q.ref < s.fresh := by
  obtain ⟨t, ht, href⟩ := (hs.kept.counted q hq).exists_attempt
  exact href ▸ hs.fresh t ht

theorem after_cases {h : UDPHandler} {attempts : List Attempt} {exn : Option Exn} {objects : ℕ}
    (hafter : s.after h attempts exn objects = some s') :
    (exn = none ∨ exn = some .clientTimeout) ∧
      s' = ⟨h, s.attempts ++ attempts, s.fresh + objects⟩ := by
  unfold State.after at hafter
  split_ifs at hafter with hexn
  exact ⟨hexn, (Option.some.inj hafter).symm⟩

/-- A new packet that goes out. -/
theorem kept_first {tx : List AbstractPacket} {attempts : List Attempt} {p : AbstractPacket}
    (hkept : Kept tx attempts) (hnew : ∀ t ∈ attempts, t.pkt.ref ≠ p.ref) (hone : p.attempts = 1) :
    Kept (tx ++ if p.reliable then [p] else []) (attempts ++ [⟨p, none⟩]) := by
  have hother : ∀ q ∈ tx, p.ref ≠ q.ref := fun q hq heq => by
    obtain ⟨t, ht, href⟩ := (hkept.counted q hq).exists_attempt
    exact hnew t ht (href.trans heq.symm)
  have hzero : sent p.ref attempts = 0 := sent_eq_zero hnew
  refine ⟨hkept.final.concat ?_ (fun hsent => ?_) fun t ht heq => absurd heq (hnew t ht), fun q hq => ?_⟩
  · rw [List.map_append, List.nodup_append]
    refine ⟨hkept.final.once, by split_ifs <;> simp, fun r hr r' hr' => ?_⟩
    obtain ⟨q, hq, rfl⟩ := List.mem_map.mp hr
    split_ifs at hr' with hrel
    · obtain rfl : r' = p.ref := by simpa using hr'
      exact fun heq => hother q hq heq.symm
    · simp at hr'
  · rw [hzero] at hsent
    exact absurd hsent (by decide)
  · rcases List.mem_append.mp hq with hq | hq
    · exact (hkept.counted q hq).append (hother q hq)
    · split_ifs at hq with hrel
      · obtain rfl := List.mem_singleton.mp hq
        refine ⟨hrel, by omega, by omega, ?_, fun t ht heq => ?_⟩
        · rw [sent_append, hzero, sent_singleton, hone]
          simp [maxResend]
        · rcases List.mem_append.mp ht with ht | ht
          · exact absurd heq (hnew t ht)
          · rw [List.mem_singleton.mp ht]
      · simp at hq

theorem inv_send (hs : Inv s) {pkt : AbstractPacket} {call : Call}
    (hstep : step host s (.send pkt call) = some s') : Inv s' := by
  obtain ⟨hexn, rfl⟩ := after_cases hstep
  set p : AbstractPacket := { pkt with ref := s.fresh, attempts := 0 } with hp
  have hnone : (sendPacket (.cpp host) call s.handler p).exn = none := by
    refine hexn.resolve_right fun hout => ?_
    have hmax := (timeout_iff _ _ _ _).mp hout
    rw [hp, Lang.updateSendAttempt_zero] at hmax
    exact absurd hmax (by decide)
  have hfirst := sendPacket_first (.cpp host) call s.handler (show p.attempts = 0 from rfl)
    (sendPacket_sent hnone)
  have hnew : ∀ t ∈ s.attempts, t.pkt.ref ≠ s.fresh := fun t ht => (hs.fresh t ht).ne
  cases hdata : Lang.getBytes (.cpp host) (firstSent (.cpp host) call s.handler p) with
  | error e => simp [hfirst, hdata] at hnone
  | ok data =>
    rw [hdata] at hfirst
    refine ⟨?_, fun t ht => ?_⟩
    · have hkept := kept_first (p := firstSent (.cpp host) call s.handler p) hs.kept hnew rfl
      simp only [hfirst, addSent]
      split_ifs with hrel
      · simpa [hrel] using hkept
      · simpa [hrel] using hkept
    · simp only [hfirst, List.mem_append, List.mem_singleton] at ht
      rcases ht with ht | rfl
      · exact (hs.fresh t ht).trans (Nat.lt_succ_self _)
      · exact Nat.lt_succ_self s.fresh

/-- A read deletes what is acknowledged. -/
theorem tx_readPacket (host : Host) (k : Kind) (call : Call) (h : UDPHandler) (ref ackref : ℕ) (data : List UInt8)
    (junk : ℕ → UInt8) :
    (readPacket (.cpp host) k call h ref ackref data junk).handler.acksleftTx.Sublist h.acksleftTx := by
  have hack : (newAckbeat ackref k).reliable = false :=
    not_reliable_newAckbeat (.cpp host) call h ackref k
  have hhandle : ∀ pkt, (handlePacketSequence (.cpp host) call h pkt (newAckbeat ackref k)).handler =
      afterPacket (.cpp host) h pkt := fun pkt => by
    unfold handlePacketSequence afterPacket sendAckbeat
    split_ifs <;> simp only [handler_sendPacket _ _ hack]
  unfold readPacket
  split
  · exact List.Sublist.refl _
  · exact List.Sublist.refl _
  · dsimp only
    split <;> simp only [hhandle] <;> exact tx_afterPacket _ _ _

theorem inv_read (hs : Inv s) {k : Kind} {data : List UInt8} {junk : ℕ → UInt8} {call : Call}
    (hstep : step host s (.read k data junk call) = some s') : Inv s' := by
  obtain ⟨-, rfl⟩ := after_cases hstep
  have htx := tx_readPacket host k call s.handler s.fresh (s.fresh + 1) data junk
  have hfinal := hs.kept.final
  refine ⟨⟨⟨?_, ?_, hfinal.once.sublist (htx.map _)⟩, fun q hq => ?_⟩, fun t ht => ?_⟩
  · simpa using hfinal.refused
  · simpa using hfinal.number
  · simpa using hs.kept.counted q (htx.subset hq)
  · simp only [List.append_nil] at ht
    exact (hs.fresh t ht).trans_le (Nat.le_add_right _ _)

theorem inv_resend (hs : Inv s) {calls : ℕ → Call} (hcounts : Counts host s (.resend calls))
    (hstep : step host s (.resend calls) = some s') : Inv s' := by
  obtain ⟨hexn, rfl⟩ := after_cases hstep
  have hloop : LoopCounts host calls 0 s.handler.acksleftTx := fun k q hq hend hover => by
    simp only [Nat.zero_add] at hover ⊢
    exact hcounts k q hq hend hover
  have hkept0 : Kept ([] ++ s.handler.acksleftTx) s.attempts := hs.kept
  have hkept := kept_resendLoop s.handler hkept0 hloop hexn
  refine ⟨hkept, fun t ht => ?_⟩
  rcases List.mem_append.mp ht with ht | ht
  · exact hs.fresh t ht
  · obtain ⟨q, hq, href⟩ := exists_of_mem_resendAttempts ht
    rw [href]
    exact hs.ref_lt hq

theorem inv_again (hs : Inv s) {i : ℕ} {call : Call} (hcounts : Counts host s (.again i call))
    (hstep : step host s (.again i call) = some s') : Inv s' := by
  obtain ⟨q, hq, hafter⟩ := Option.bind_eq_some_iff.mp hstep
  obtain ⟨hexn, rfl⟩ := after_cases hafter
  have hne : q.attempts ≠ 255 := hcounts q hq
  have hmem : q ∈ s.handler.acksleftTx := List.mem_of_getElem? hq
  obtain ⟨hlt, hget⟩ := List.getElem?_eq_some_iff.mp hq
  have hone : Lang.updateSendAttempt (.cpp host) q.attempts ≠ 1 := by
    have h1 := (hs.kept.counted q hmem).pos
    rw [(hs.kept.counted q hmem).updateSendAttempt host hne]
    omega
  obtain ⟨hh, -, -⟩ := sendPacket_again call s.handler hone
  refine ⟨?_, fun t ht => ?_⟩
  · have hsplit : s.handler.acksleftTx =
        s.handler.acksleftTx.take i ++ q :: s.handler.acksleftTx.drop (i + 1) := by
      rw [← hget, List.getElem_cons_drop, List.take_append_drop]
    have hkept := kept_again host call s.handler (hsplit ▸ hs.kept) hne hexn
    rw [hh, List.set_eq_take_append_cons_drop, if_pos hlt]
    exact hkept
  · rcases List.mem_append.mp ht with ht | ht
    · exact hs.fresh t ht
    · rw [List.mem_singleton.mp ht]
      show (sendPacket (.cpp host) call s.handler q).pkt.ref < s.fresh
      rw [(attempts_sendPacket _ _ _ _).2]
      exact hs.ref_lt hmem

/-- An attempt that is not refused although the packet was sent often enough. -/
theorem not_final {tx : List AbstractPacket} {attempts more : List Attempt} {t : Attempt}
    {q : AbstractPacket} (hq : Counted attempts q) (hend : q.attempts = 255) (ht : t ∈ more)
    (href : t.pkt.ref = q.ref) (hrel : t.pkt.reliable = q.reliable) (hexn : t.exn = none) :
    ¬ Final tx (attempts ++ more) := by
  intro hfinal
  obtain ⟨k, hk⟩ := List.mem_iff_getElem?.mp ht
  have hget : (attempts ++ more)[attempts.length + k]? = some t := by
    rw [List.getElem?_append_right (Nat.le_add_right _ _), Nat.add_sub_cancel_left]
    exact hk
  have htake : (attempts ++ more).take (attempts.length + k) = attempts ++ more.take k :=
    List.take_length_add_append k
  have hsent := hq.sent
  have hrefused := hfinal.refused _ t hget (hrel.trans hq.reliable) (by
    rw [htake, sent_append, href, Nat.cast_add, hsent, hend]
    unfold maxResend
    omega)
  exact absurd (hexn.symm.trans hrefused) (by simp)

/-- **A counter that comes round** undoes the decision. -/
theorem not_stays_step {a : Label} (hs : Inv s) (hround : ¬ Counts host s a)
    (hstep : step host s a = some s') : ¬ Stays s' := by
  cases a with
  | send pkt call => exact absurd trivial hround
  | read k data junk call => exact absurd trivial hround
  | again i call =>
    simp only [Counts, not_forall, not_not] at hround
    obtain ⟨q, hq, hend⟩ := hround
    simp only [step, hq, Option.bind_some] at hstep
    obtain ⟨hexn, rfl⟩ := after_cases hstep
    have hup : Lang.updateSendAttempt (.cpp host) q.attempts = 0 := by rw [hend]; rfl
    have hone : Lang.updateSendAttempt (.cpp host) q.attempts ≠ 1 := by rw [hup]; decide
    obtain ⟨-, hpkt, -⟩ := sendPacket_again call s.handler hone
    refine not_final (hs.kept.counted q (List.mem_of_getElem? hq)) hend (List.mem_singleton_self _)
      (by simp [hpkt, sentAgain]) (by simp [hpkt, sentAgain, AbstractPacket.reliable]) ?_
    refine hexn.resolve_right fun hout => ?_
    have hmax := (timeout_iff _ _ _ _).mp hout
    rw [hup] at hmax
    exact absurd hmax (by decide)
  | resend calls =>
    simp only [Counts, not_forall, not_exists, not_and] at hround
    obtain ⟨k, q, hq, hend, hover, hpass⟩ := hround
    obtain ⟨hexn, rfl⟩ := after_cases hstep
    obtain ⟨t, ht, href, hrel, hsent⟩ := exists_round s.handler hq hend
      (by rwa [Nat.zero_add]) (fun j hj p hp => by rw [Nat.zero_add]; exact hpass j hj p hp) hexn
    exact not_final (hs.kept.counted q (List.mem_of_getElem? hq)) hend ht href hrel hsent

/-- **The step lemma.** -/
theorem inv_step {a : Label} (hs : Inv s) (hcounts : Counts host s a)
    (hstep : step host s a = some s') : Inv s' := by
  cases a with
  | send pkt call => exact inv_send hs hstep
  | again i call => exact inv_again hs hcounts hstep
  | read k data junk call => exact inv_read hs hstep
  | resend calls => exact inv_resend hs hcounts hstep

end Calls

theorem inv_init : Inv init :=
  ⟨⟨⟨by simp [init], by simp [init], List.nodup_nil⟩, by simp [init, newUDPHandler]⟩, by simp [init]⟩

/-- **When given up is given up**: a run keeps to its decisions exactly if no attempt counter comes
round in it. -/
theorem stays_iff (host : Host) (l : List Label) :
    Always (step host) Stays init l ↔ Along (step host) (Counts host) init l :=
  always_iff_of_kept (fun _ hs => hs.kept.final) (fun _ _ _ hs hC hstep => inv_step hs hC hstep)
    (fun _ _ _ hs hno hstep => not_stays_step hs hno hstep) inv_init

/-! ### 256 attempts -/

/-- A reliable packet, and 255 looks at it, each more than `TIME_RESEND` after the one before. -/
def neglected : List Label :=
  .send (newNetLibPacket 0 5 [] 0) ⟨0, 0, true⟩ ::
    (List.range 255).map fun n => .resend fun _ => ⟨2000 * (n + 1), 2000 * (n + 1), true⟩

/-- The 256th attempt sends the packet that 250 attempts before did not. -/
theorem not_stays_neglected : ¬ ∀ host l, Always (step host) Stays init l := by
  intro hall
  have hrun : ((run (step .x86) init neglected).any fun s => (s.attempts[255]?).any fun t =>
      t.exn = none ∧ t.pkt.reliable ∧ maxResend ≤ (sent t.pkt.ref (s.attempts.take 255) : ℤ)) = true := by
    decide +kernel
  obtain ⟨s, hs, hlast⟩ := (Option.any_eq_true _ _).mp hrun
  obtain ⟨t, ht, hsent⟩ := (Option.any_eq_true _ _).mp hlast
  obtain ⟨hexn, hrel, hlimit⟩ := of_decide_eq_true hsent
  have hrefused := ((hall .x86 neglected).last hs).refused 255 t ht hrel hlimit
  exact absurd (hexn.symm.trans hrefused) (by simp)

end N64NetLib.Udp.GivenUp
