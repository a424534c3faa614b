import N64NetLib.Lib.Run
import N64NetLib.Udp.Handler

/-! # Does one packet stop the others?

`ResendMissingPackets` goes through `acksleft_tx` in the order of sending and ends with the first
exception: a packet that was sent `MAX_RESEND` times raises a timeout, and stays in front of the
others. `Stops` says which packets do this, and `resent_iff` that a packet is sent again exactly if
none in front of it does. -/

namespace N64NetLib.Udp.Resend

open N64NetLib.Lib.Run N64NetLib.Packet N64NetLib.Packet.Basic N64NetLib.Udp.Handler

/-- The packet was last sent more than `TIME_RESEND` before `GetSendTime` looks at the clock. -/
def Overdue (call : Call) (pkt : AbstractPacket) : Prop := call.asked - pkt.sendtime > timeResend

/-- The packet is overdue and the loop ends with it: it was sent `MAX_RESEND` times, or its counter
has come round to the first time, or it cannot be written, or the socket does not take it. -/
def Stops (lang : Lang) (call : Call) (pkt : AbstractPacket) : Prop :=
  Overdue call pkt ∧ (lang.updateSendAttempt pkt.attempts > maxResend ∨
    lang.updateSendAttempt pkt.attempts = 1 ∨ (∃ e, lang.getBytes pkt = .error e) ∨
      call.sent = false)

instance (call : Call) (pkt : AbstractPacket) : Decidable (Overdue call pkt) := by
  unfold Overdue; infer_instance

instance (r : Except Exn (List UInt8)) : Decidable (∃ e, r = .error e) :=
  match r with
  | .ok _ => isFalse (by simp)
  | .error e => isTrue ⟨e, rfl⟩

instance (lang : Lang) (call : Call) (pkt : AbstractPacket) : Decidable (Stops lang call pkt) := by
  unfold Stops; infer_instance

/-- How many packets of the list are overdue when the loop comes to them. -/
def overdueCount (calls : ℕ → Call) : ℕ → List AbstractPacket → ℕ
  | _, [] => 0
  | i, pkt :: tx => (if Overdue (calls i) pkt then 1 else 0) + overdueCount calls (i + 1) tx

/-- **The packet in place `i` is sent again**: its datagram goes out when its turn comes, after those
of the overdue packets in front of it. -/
def Resent (lang : Lang) (calls : ℕ → Call) (h : UDPHandler) (i : ℕ) (pkt : AbstractPacket) : Prop :=
  ∃ data, (resendMissingPackets lang calls h).out[overdueCount calls 0 (h.acksleftTx.take i)]? =
    some ⟨sentAgain lang (calls i) pkt, data⟩

/-! ### One packet -/

theorem updateSendAttempt_of_lt (lang : Lang) {attempts : ℤ} (h1 : 1 ≤ attempts)
    (h2 : attempts < maxResend) : lang.updateSendAttempt attempts = attempts + 1 := by
  unfold maxResend at h2
  cases lang with
  | java => simp only [Lang.updateSendAttempt, Int.bmod]; omega
  | cpp host => simp only [Lang.updateSendAttempt]; omega

/-- The bytes of a packet do not depend on when and how often it was sent. -/
theorem getBytes_sentAgain (lang : Lang) (call : Call) (pkt : AbstractPacket) :
    lang.getBytes (sentAgain lang call pkt) = lang.getBytes pkt := by
  cases lang <;> rfl

/-- A packet that stops the loop: nothing goes out, or it is sent as if for the first time. -/
theorem sendPacket_stops {lang : Lang} {call : Call} (h : UDPHandler) {pkt : AbstractPacket}
    (hpkt : Stops lang call pkt) :
    ((sendPacket lang call h pkt).out = [] ∧ ∃ e, (sendPacket lang call h pkt).exn = some e) ∨
      (lang.updateSendAttempt pkt.attempts = 1 ∧ (sendPacket lang call h pkt).out.length ≤ 1 ∧
        (sendPacket lang call h pkt).pkt.attempts = 1) := by
  by_cases hmax : lang.updateSendAttempt pkt.attempts > maxResend
  · exact Or.inl (by simp [sendPacket, hmax])
  by_cases hone : lang.updateSendAttempt pkt.attempts = 1
  · have hmax1 : ¬ (1 : ℤ) > maxResend := by decide
    simp only [sendPacket, hone, hmax1, if_true, if_false]
    split
    · exact Or.inl (by simp)
    · split_ifs
      · exact Or.inl (by simp)
      · exact Or.inr ⟨trivial, by simp⟩
      · exact Or.inr ⟨trivial, by simp⟩
  refine Or.inl ?_
  rcases hpkt.2 with h1 | h1 | ⟨e, he⟩ | hs
  · exact absurd h1 hmax
  · exact absurd h1 hone
  · rw [← getBytes_sentAgain lang call] at he
    simp only [sentAgain] at he
    simp [sendPacket, hmax, hone, he]
  · simp only [sendPacket, hmax, hone, if_false, hs, Bool.not_false, if_true]
    split <;> simp

/-- A packet that does not. -/
theorem sendPacket_passes {lang : Lang} {call : Call} (h : UDPHandler) {pkt : AbstractPacket}
    (hover : Overdue call pkt) (hpkt : ¬ Stops lang call pkt) :
    ∃ data, (sendPacket lang call h pkt).out = [⟨sentAgain lang call pkt, data⟩] ∧
      (sendPacket lang call h pkt).exn = none ∧ (sendPacket lang call h pkt).pkt.attempts ≠ 1 := by
  simp only [Stops, hover, true_and, not_or, not_exists, Bool.not_eq_false] at hpkt
  obtain ⟨hmax, hone, hbytes, hsent⟩ := hpkt
  cases hd : lang.getBytes pkt with
  | error e => exact absurd hd (hbytes e)
  | ok data =>
    rw [← getBytes_sentAgain lang call] at hd
    simp only [sentAgain] at hd
    exact ⟨data, by simp [sendPacket, hmax, hone, hd, hsent, sentAgain]⟩

/-! ### The loop -/

theorem resendLoop_stops {lang : Lang} {calls : ℕ → Call} {i : ℕ} {pkt : AbstractPacket}
    (h : UDPHandler) (tx : List AbstractPacket) (hpkt : Stops lang (calls i) pkt) :
    (resendLoop lang calls h i (pkt :: tx)).out.length ≤ 1 ∧
      (lang.updateSendAttempt pkt.attempts ≠ 1 →
        (resendLoop lang calls h i (pkt :: tx)).out = []) := by
  have hover : (calls i).asked - pkt.sendtime > timeResend := hpkt.1
  simp only [resendLoop, hover, if_true]
  rcases sendPacket_stops { h with acksleftTx := pkt :: tx } hpkt with
    ⟨hout, e, he⟩ | ⟨hone, hout, hattempts⟩
  · simp [he, hout]
  · refine ⟨?_, fun hne => absurd hone hne⟩
    split
    · exact hout
    · simpa [hattempts] using hout

theorem resendLoop_passes {lang : Lang} {calls : ℕ → Call} {h : UDPHandler} {i : ℕ}
    {pkt : AbstractPacket} (tx : List AbstractPacket) (hover : Overdue (calls i) pkt)
    (hpkt : ¬ Stops lang (calls i) pkt) :
    ∃ data, (resendLoop lang calls h i (pkt :: tx)).out =
      ⟨sentAgain lang (calls i) pkt, data⟩ :: (resendLoop lang calls h (i + 1) tx).out := by
  obtain ⟨data, hout, hexn, hone⟩ := sendPacket_passes { h with acksleftTx := pkt :: tx } hover hpkt
  have hover' : (calls i).asked - pkt.sendtime > timeResend := hover
  exact ⟨data, by simp [resendLoop, hover', hexn, hone, hout]⟩

theorem resendLoop_skips {lang : Lang} {calls : ℕ → Call} {h : UDPHandler} {i : ℕ}
    {pkt : AbstractPacket} (tx : List AbstractPacket) (hover : ¬ Overdue (calls i) pkt) :
    (resendLoop lang calls h i (pkt :: tx)).out = (resendLoop lang calls h (i + 1) tx).out := by
  have hover' : ¬ (calls i).asked - pkt.sendtime > timeResend := hover
  simp [resendLoop, hover']

/-- The packet in place `i` of the rest of the list. -/
theorem resendLoop_iff {lang : Lang} (calls : ℕ → Call) (h : UDPHandler) {pkt : AbstractPacket}
    (hone : lang.updateSendAttempt pkt.attempts ≠ 1) :
    ∀ (tx : List AbstractPacket) (s i : ℕ), tx[i]? = some pkt → Overdue (calls (s + i)) pkt →
      ((∃ data, (resendLoop lang calls h s tx).out[overdueCount calls s (tx.take i)]? =
          some ⟨sentAgain lang (calls (s + i)) pkt, data⟩) ↔
        ∀ j ≤ i, ∀ q, tx[j]? = some q → ¬ Stops lang (calls (s + j)) q)
  | [], _, _, hi, _ => by simp at hi
  | q :: tx, s, 0, hi, hover => by
    obtain rfl : q = pkt := by simpa using hi
    simp only [Nat.le_zero, forall_eq, List.getElem?_cons_zero, Option.some.injEq, forall_eq',
      List.take_zero, overdueCount, Nat.add_zero] at hover ⊢
    constructor
    · rintro ⟨data, hout⟩ hstop
      rw [(resendLoop_stops h tx hstop).2 hone] at hout
      simp at hout
    · intro hpass
      obtain ⟨data, hout⟩ := resendLoop_passes (h := h) tx hover hpass
      exact ⟨data, by simp [hout]⟩
  | q :: tx, s, i + 1, hi, hover => by
    have hs : ∀ j, s + (j + 1) = s + 1 + j := fun j => by omega
    have ih := resendLoop_iff calls h hone tx (s + 1) i (by simpa using hi)
      (hs i ▸ hover)
    have hall : (∀ j ≤ i + 1, ∀ p, (q :: tx)[j]? = some p → ¬ Stops lang (calls (s + j)) p) ↔
        ¬ Stops lang (calls s) q ∧
          ∀ j ≤ i, ∀ p, tx[j]? = some p → ¬ Stops lang (calls (s + 1 + j)) p := by
      constructor
      · intro hj
        exact ⟨hj 0 (by omega) q rfl, fun j hji p hp => hs j ▸ hj (j + 1) (by omega) p (by simpa using hp)⟩
      · rintro ⟨h0, hj⟩ (_ | j) hji p hp
        · obtain rfl : q = p := by simpa using hp
          exact h0
        · exact hs j ▸ hj j (by omega) p (by simpa using hp)
    rw [hall, hs i, List.take_succ_cons, overdueCount]
    by_cases hq : Overdue (calls s) q
    · by_cases hstop : Stops lang (calls s) q
      · have hlen := (resendLoop_stops h tx hstop).1
        have hnone : (resendLoop lang calls h s (q :: tx)).out[1 +
            overdueCount calls (s + 1) (tx.take i)]? = none := List.getElem?_eq_none (by omega)
        simp [hq, hstop, hnone]
      · obtain ⟨data, hout⟩ := resendLoop_passes (h := h) tx hq hstop
        simp only [hq, if_true, hout, hstop, not_false_eq_true, true_and, ← ih]
        rw [Nat.add_comm 1, List.getElem?_cons_succ]
    · have hstop : ¬ Stops lang (calls s) q := fun h => hq h.1
      simp only [hq, if_false, Nat.zero_add, resendLoop_skips tx hq, hstop, not_false_eq_true,
        true_and, ih]

/-- **When a packet is sent again**: a packet that was sent fewer than `MAX_RESEND` times and is
overdue is sent again exactly if neither it nor any packet in front of it stops the loop. -/
theorem resent_iff (lang : Lang) (calls : ℕ → Call) (h : UDPHandler) (i : ℕ) (pkt : AbstractPacket)
    (hi : h.acksleftTx[i]? = some pkt) (hsent : 1 ≤ pkt.attempts)
    (hmax : pkt.attempts < maxResend) (hover : Overdue (calls i) pkt) :
    Resent lang calls h i pkt ↔ ∀ j ≤ i, ∀ q, h.acksleftTx[j]? = some q → ¬ Stops lang (calls j) q := by
  have hone : lang.updateSendAttempt pkt.attempts ≠ 1 := by
    rw [updateSendAttempt_of_lt lang hsent hmax]; omega
  simpa [Resent, resendMissingPackets] using
    resendLoop_iff calls h hone h.acksleftTx 0 i hi (by simpa using hover)

/-! ### The heartbeats of a game server -/

/-- A call of the handler by its thread. -/
inductive HandlerCall
  | send (call : Call) (pkt : AbstractPacket)
  | read (call : Call) (k : Kind) (ref ackref : ℕ) (data : List UInt8) (junk : ℕ → UInt8)
  | resend (calls : ℕ → Call)

/-- The handler after a call, whether it ended with an exception or not. -/
def handlerStep (lang : Lang) (h : UDPHandler) : HandlerCall → Option UDPHandler
  | .send call pkt => some (sendPacket lang call h pkt).handler
  | .read call k ref ackref data junk => some (readPacket lang k call h ref ackref data junk).handler
  | .resend calls => some (resendMissingPackets lang calls h).handler

/-- The clock stands at `now` and the socket takes everything. -/
def clockAt (now : ℤ) : ℕ → Call := fun _ => ⟨now, now, true⟩

/-- `HEARTBEAT`, as `MasterConnectionThread` makes it. -/
def heartbeat (ref : ℕ) : AbstractPacket :=
  newS64Packet ref ['H', 'E', 'A', 'R', 'T', 'B', 'E', 'A', 'T'] [] flagExplicitack

/-- `MasterConnectionThread` while the master server is silent: a heartbeat, `WaitAck` with a resend a
second until one of them raises the timeout, and three minutes later the next heartbeat. -/
def silentMaster : List HandlerCall :=
  [.send ⟨0, 0, true⟩ (heartbeat 0), .resend (clockAt 1001), .resend (clockAt 2002), .resend (clockAt 3003),
    .resend (clockAt 4004), .resend (clockAt 5005), .send ⟨185005, 185005, true⟩ (heartbeat 1)]

/-- Two heartbeats, none acknowledged. -/
def twoHeartbeats : UDPHandler :=
  (sendPacket .java ⟨500, 500, true⟩
    (sendPacket .java ⟨0, 0, true⟩ newUDPHandler (heartbeat 0)).handler (heartbeat 1)).handler

theorem resent_twoHeartbeats :
    ∃ pkt, twoHeartbeats.acksleftTx[1]? = some pkt ∧
      Resent .java (clockAt 2002) twoHeartbeats 1 pkt := by
  obtain ⟨pkt, hpkt⟩ : ∃ pkt, twoHeartbeats.acksleftTx[1]? = some pkt :=
    Option.isSome_iff_exists.mp (by decide +kernel)
  have hfields : twoHeartbeats.acksleftTx[1]?.map (fun q => (q.attempts, q.sendtime)) =
      some (1, 500) := by decide +kernel
  rw [hpkt, Option.map_some, Option.some.injEq, Prod.mk.injEq] at hfields
  exact ⟨pkt, hpkt, (resent_iff .java (clockAt 2002) twoHeartbeats 1 pkt hpkt (by rw [hfields.1])
    (by rw [hfields.1]; decide) (by rw [Overdue, hfields.2]; decide)).mpr (by decide +kernel)⟩

/-- The second heartbeat is not sent again: the first raises its timeout again in front of it. -/
theorem not_resent_heartbeat :
    ¬ ∀ l h calls i pkt, run (handlerStep .java) newUDPHandler l = some h →
      h.acksleftTx[i]? = some pkt → 1 ≤ pkt.attempts → pkt.attempts < maxResend →
        Overdue (calls i) pkt → (∀ j, (calls j).sent = true) → Resent .java calls h i pkt := by
  intro hall
  obtain ⟨h, hh⟩ : ∃ h, run (handlerStep .java) newUDPHandler silentMaster = some h :=
    Option.isSome_iff_exists.mp (by decide +kernel)
  have hrun : (run (handlerStep .java) newUDPHandler silentMaster).map (fun h =>
      (h.acksleftTx.map fun q => (q.ref, q.attempts, q.sendtime),
        (resendMissingPackets .java (clockAt 186006) h).out)) =
        some ([(0, 6, 5005), (1, 1, 185005)], []) := by decide +kernel
  rw [hh, Option.map_some, Option.some.injEq, Prod.mk.injEq] at hrun
  obtain ⟨htx, hout⟩ := hrun
  obtain ⟨q0, l, hq0, -, hl⟩ := List.map_eq_cons_iff.mp htx
  obtain ⟨q1, l', rfl, hq1, -⟩ := List.map_eq_cons_iff.mp hl
  simp only [Prod.mk.injEq] at hq1
  obtain ⟨data, hdata⟩ := hall silentMaster h (clockAt 186006) 1 q1 hh (by simp [hq0])
    (by rw [hq1.2.1]) (by rw [hq1.2.1]; decide)
    (by rw [Overdue, hq1.2.2]; decide) (fun _ => rfl)
  simp [hout] at hdata

end N64NetLib.Udp.Resend
