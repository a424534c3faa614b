import N64NetLib.Udp.Network
import N64NetLib.Udp.Resend

/-! # How often does a packet go out, and as what?

One Java handler, and everything it put on the wire. Its thread sends new packets, reads whatever
comes in and resends, in any order; a call that ends with an exception leaves the handler as it is
then, and the thread goes on. A packet that is sent is a new object, as that of every caller is: the
game server copies what it relays.

`Disciplined` is what a receiver relies on: the numbers of the reliable packets, that a packet goes out
with the same bytes every time and not too often, and what the two lists hold. The attempt counter is
an `int` that also counts the attempts which end with a timeout. `Counts` says that it does not
overflow, and `disciplined_iff` that nothing else goes wrong. -/

namespace N64NetLib.Udp.Discipline

open N64NetLib.Lib.Run N64NetLib.Packet N64NetLib.Packet.Basic N64NetLib.Udp.Handler
open N64NetLib.Udp.Resend (Overdue Stops getBytes_sentAgain resendLoop_iff)
open N64NetLib.Udp.Network (getElem?_concat addSent_remote)

/-- The handler, what went out so far, and the first number no object has. -/
structure State where
  handler : UDPHandler
  wire : List Datagram
  fresh : ℕ

/-- The start. -/
def init : State := ⟨newUDPHandler, [], 0⟩

/-- A call of the handler: `SendPacket` of a new packet, a read of any datagram, and
`ResendMissingPackets` with the clock as it is for each packet of the list. -/
inductive Label
  | send (pkt : AbstractPacket) (now : ℤ)
  | read (k : Kind) (data : List UInt8) (now : ℤ)
  | resend (asked now : ℕ → ℤ)

/-- The socket takes everything. -/
def calls (asked now : ℕ → ℤ) (i : ℕ) : Call := ⟨asked i, now i, true⟩

/-- The state after a call. -/
def State.after (s : State) (h : UDPHandler) (out : List Datagram) (objects : ℕ) : State :=
  ⟨h, s.wire ++ out, s.fresh + objects⟩

/-- One step. -/
def step (s : State) : Label → Option State
  | .send pkt now =>
    let r := sendPacket .java ⟨now, now, true⟩ s.handler { pkt with ref := s.fresh, attempts := 0 }
    some (s.after r.handler r.out 1)
  | .read k data now =>
    let r := readPacket .java k ⟨now, now, true⟩ s.handler s.fresh (s.fresh + 1) data fun _ => 0
    some (s.after r.handler r.out 2)
  | .resend asked now =>
    let r := resendMissingPackets .java (calls asked now) s.handler
    some (s.after r.handler r.out 0)

/-! ### The discipline -/

/-- The object of a datagram. -/
def refs (wire : List Datagram) : List ℕ := wire.map (·.pkt.ref)

/-- The first datagram of each packet, in the order of sending. -/
def firsts (wire : List Datagram) : List Datagram :=
  wire.foldl (fun l d => if d.pkt.ref ∈ refs l then l else l ++ [d]) []

/-- The reliable packets sent. -/
def reliableSent (wire : List Datagram) : List Datagram := (firsts wire).filter (·.pkt.reliable)

/-- How often the packet went out. -/
def sent (ref : ℕ) (wire : List Datagram) : ℕ := wire.countP (·.pkt.ref = ref)

/-- **The discipline.** -/
structure Disciplined (s : State) : Prop where
  seqnum : ∀ k d, (reliableSent s.wire)[k]? = some d → d.pkt.seqnum = BitVec.ofNat 16 k
  localseqnum : s.handler.localseqnum = BitVec.ofNat 16 (reliableSent s.wire).length
  carries : ∀ d ∈ s.wire, Carries d.data d.pkt.body.kind d.pkt.header
  identical : ∀ d ∈ s.wire, ∀ d' ∈ s.wire, d.pkt.ref = d'.pkt.ref → d.data = d'.data
  limit : ∀ ref, (sent ref s.wire : ℤ) ≤ maxResend
  tx_nodup : (s.handler.acksleftTx.map (·.ref)).Nodup
  tx : (s.handler.acksleftTx.map (·.ref)).Sublist (refs (reliableSent s.wire))
  rx_length : s.handler.acksleftRx.length ≤ 18
  rx_reliable : ∀ p ∈ s.handler.acksleftRx, p.reliable
  rx_nodup : (s.handler.acksleftRx.map (·.seqnum)).Nodup

/-- `Integer.MAX_VALUE`. -/
def maxValue : ℤ := 2 ^ 31 - 1

/-- **No attempt counter overflows**: a packet whose counter is at its end is not overdue, or a packet
in front of it ends the loop. -/
def Counts (s : State) : Label → Prop
  | .resend asked now => ∀ i q, s.handler.acksleftTx[i]? = some q → q.attempts = maxValue →
      Overdue (calls asked now i) q →
        ∃ j ≤ i, ∃ p, s.handler.acksleftTx[j]? = some p ∧ Stops .java (calls asked now j) p
  | _ => True

/-! ### The first datagrams -/

theorem refs_append (wire out : List Datagram) : refs (wire ++ out) = refs wire ++ refs out :=
  List.map_append

theorem mem_refs {wire : List Datagram} {r : ℕ} : r ∈ refs wire ↔ ∃ d ∈ wire, d.pkt.ref = r :=
  List.mem_map

theorem firsts_concat (wire : List Datagram) (d : Datagram) :
    firsts (wire ++ [d]) =
      if d.pkt.ref ∈ refs (firsts wire) then firsts wire else firsts wire ++ [d] := by
  rw [firsts, List.foldl_append]
  rfl

theorem mem_refs_firsts (wire : List Datagram) {r : ℕ} : r ∈ refs (firsts wire) ↔ r ∈ refs wire := by
  induction wire using List.reverseRecOn with
  | nil => simp [firsts, refs]
  | append_singleton wire d ih =>
    rw [firsts_concat, refs_append, List.mem_append, ← ih]
    split_ifs with hd
    · have hone : r ∈ refs [d] → r ∈ refs (firsts wire) := by
        intro hr
        obtain rfl : r = d.pkt.ref := by simpa [refs] using hr
        exact hd
      exact ⟨Or.inl, fun h => h.elim id hone⟩
    · rw [refs_append, List.mem_append]

theorem nodup_firsts (wire : List Datagram) : (refs (firsts wire)).Nodup := by
  induction wire using List.reverseRecOn with
  | nil => simp [firsts, refs]
  | append_singleton wire d ih =>
    rw [firsts_concat]
    split_ifs with hd
    · exact ih
    · rw [refs_append]
      exact List.nodup_append.mpr ⟨ih, by simp [refs], fun a ha b hb hab => hd (by
        obtain rfl : b = d.pkt.ref := by simpa [refs] using hb
        exact hab ▸ ha)⟩

/-- A datagram of a new packet. -/
theorem firsts_new {wire : List Datagram} {d : Datagram} (hd : d.pkt.ref ∉ refs wire) :
    firsts (wire ++ [d]) = firsts wire ++ [d] := by
  rw [firsts_concat, if_neg (fun h => hd ((mem_refs_firsts wire).mp h))]

/-- Datagrams of packets that went out before. -/
theorem firsts_old {wire out : List Datagram} (hout : ∀ d ∈ out, d.pkt.ref ∈ refs wire) :
    firsts (wire ++ out) = firsts wire := by
  induction out using List.reverseRecOn with
  | nil => rw [List.append_nil]
  | append_singleton out d ih =>
    have hd : d.pkt.ref ∈ refs (wire ++ out) := by
      rw [refs_append]
      exact List.mem_append_left _ (hout d (by simp))
    rw [← List.append_assoc, firsts_concat, if_pos ((mem_refs_firsts _).mpr hd)]
    exact ih fun d' hd' => hout d' (List.mem_append_left _ hd')

theorem reliableSent_new {wire : List Datagram} {d : Datagram} (hd : d.pkt.ref ∉ refs wire) :
    reliableSent (wire ++ [d]) = reliableSent wire ++ if d.pkt.reliable then [d] else [] := by
  rw [reliableSent, firsts_new hd, List.filter_append, reliableSent]
  split_ifs with h <;> simp [h]

theorem reliableSent_old {wire out : List Datagram} (hout : ∀ d ∈ out, d.pkt.ref ∈ refs wire) :
    reliableSent (wire ++ out) = reliableSent wire := by
  rw [reliableSent, firsts_old hout, reliableSent]

theorem sent_append (ref : ℕ) (wire out : List Datagram) :
    sent ref (wire ++ out) = sent ref wire + sent ref out := List.countP_append

theorem sent_eq_zero {ref : ℕ} {wire : List Datagram} : sent ref wire = 0 ↔ ref ∉ refs wire := by
  simp [sent, List.countP_eq_zero, refs]

/-! ### The invariant -/

/-- What the counter of a packet in `acksleft_tx` says: how often it went out, up to the limit, and
always with the bytes it would have now. -/
structure Counted (wire : List Datagram) (q : AbstractPacket) : Prop where
  pos : 1 ≤ q.attempts
  le : q.attempts ≤ maxValue
  sent : (sent q.ref wire : ℤ) = min q.attempts maxResend
  bytes : ∀ d ∈ wire, d.pkt.ref = q.ref → Java.getBytes q = .ok d.data

/-- **The invariant.** -/
structure Inv (s : State) : Prop where
  disciplined : Disciplined s
  fresh : ∀ r ∈ refs s.wire, r < s.fresh
  counted : ∀ q ∈ s.handler.acksleftTx, Counted s.wire q

theorem Counted.exists_sent {wire : List Datagram} {q : AbstractPacket} (h : Counted wire q) :
    ∃ d ∈ wire, d.pkt.ref = q.ref := by
  rw [← mem_refs]
  by_contra hno
  have h0 := h.sent
  rw [sent_eq_zero.mpr hno] at h0
  have h1 := h.pos
  unfold maxResend at h0
  omega

/-- Datagrams of other packets do not matter. -/
theorem Counted.append {wire out : List Datagram} {q : AbstractPacket} (h : Counted wire q)
    (hout : q.ref ∉ refs out) : Counted (wire ++ out) q := by
  refine ⟨h.pos, h.le, ?_, fun d hd hr => ?_⟩
  · rw [sent_append, sent_eq_zero.mpr hout, Nat.add_zero, h.sent]
  · rcases List.mem_append.mp hd with hd | hd
    · exact h.bytes d hd hr
    · exact absurd (mem_refs.mpr ⟨d, hd, hr⟩) hout

/-! ### A new packet is sent -/

section First

variable {s : State} {call : Call} {pkt : AbstractPacket} {data : List UInt8} {objects : ℕ}

/-- The state after the first sending of a packet. -/
def afterFirst (s : State) (call : Call) (pkt : AbstractPacket) (data : List UInt8) (objects : ℕ) :
    State :=
  s.after (addSent .java s.handler (firstSent .java call s.handler pkt))
    [⟨firstSent .java call s.handler pkt, data⟩] objects

theorem reliableSent_first (hnew : pkt.ref ∉ refs s.wire) :
    reliableSent (afterFirst s call pkt data objects).wire = reliableSent s.wire ++
      if pkt.reliable then [⟨firstSent .java call s.handler pkt, data⟩] else [] :=
  reliableSent_new hnew

theorem mem_wire_first {d : Datagram} (hd : d ∈ (afterFirst s call pkt data objects).wire) :
    d ∈ s.wire ∨ d = ⟨firstSent .java call s.handler pkt, data⟩ := by
  rcases List.mem_append.mp hd with hd | hd
  · exact Or.inl hd
  · exact Or.inr (List.mem_singleton.mp hd)

theorem tx_first : (afterFirst s call pkt data objects).handler.acksleftTx =
    s.handler.acksleftTx ++ if pkt.reliable then [firstSent .java call s.handler pkt] else [] := by
  have hrel : (firstSent .java call s.handler pkt).reliable = pkt.reliable := rfl
  unfold afterFirst addSent
  rw [hrel]
  split_ifs
  · rfl
  · exact (List.append_nil _).symm

theorem sent_first (ref : ℕ) : sent ref (afterFirst s call pkt data objects).wire =
    sent ref s.wire + if pkt.ref = ref then 1 else 0 := by
  have hone : sent ref [⟨firstSent .java call s.handler pkt, data⟩] =
      if pkt.ref = ref then 1 else 0 := by
    simp [sent, List.countP_singleton, firstSent]
  rw [← hone]
  exact sent_append ref s.wire _

/-- The numbers after a first sending: the packet has the next one. -/
theorem seqnum_first (hs : Disciplined s) (hnew : pkt.ref ∉ refs s.wire) {k : ℕ} {d : Datagram}
    (hk : (reliableSent (afterFirst s call pkt data objects).wire)[k]? = some d) :
    d.pkt.seqnum = BitVec.ofNat 16 k := by
  rw [reliableSent_first hnew] at hk
  split_ifs at hk
  · rcases getElem?_concat hk with hk | ⟨rfl, rfl⟩
    · exact hs.seqnum k d hk
    · exact hs.localseqnum
  · rw [List.append_nil] at hk
    exact hs.seqnum k d hk

theorem localseqnum_first (hs : Disciplined s) (hnew : pkt.ref ∉ refs s.wire) :
    (afterFirst s call pkt data objects).handler.localseqnum =
      BitVec.ofNat 16 (reliableSent (afterFirst s call pkt data objects).wire).length := by
  have hrel : (firstSent .java call s.handler pkt).reliable = pkt.reliable := rfl
  rw [reliableSent_first hnew]
  show (addSent .java s.handler (firstSent .java call s.handler pkt)).localseqnum = _
  unfold addSent
  rw [hrel]
  split_ifs
  · rw [Lang.sequenceIncrement_eq, hs.localseqnum, List.length_append, ← BitVec.toNat_inj]
    simp [BitVec.toNat_add]
  · rw [List.append_nil]
    exact hs.localseqnum

theorem identical_first (hs : Disciplined s) (hnew : pkt.ref ∉ refs s.wire) {d d' : Datagram}
    (hd : d ∈ (afterFirst s call pkt data objects).wire)
    (hd' : d' ∈ (afterFirst s call pkt data objects).wire) (href : d.pkt.ref = d'.pkt.ref) :
    d.data = d'.data := by
  rcases mem_wire_first hd with hd | rfl <;> rcases mem_wire_first hd' with hd' | rfl
  · exact hs.identical d hd d' hd' href
  · exact absurd (mem_refs.mpr ⟨d, hd, href⟩) hnew
  · exact absurd (mem_refs.mpr ⟨d', hd', href.symm⟩) hnew
  · rfl

theorem limit_first (hs : Disciplined s) (hnew : pkt.ref ∉ refs s.wire) (ref : ℕ) :
    (sent ref (afterFirst s call pkt data objects).wire : ℤ) ≤ maxResend := by
  have hold := hs.limit ref
  rw [sent_first]
  split_ifs with href
  · subst href
    rw [sent_eq_zero.mpr hnew]
    decide
  · exact hold

/-- The packet joins the end of both lists. -/
theorem tx_sublist_first (hs : Disciplined s) (hnew : pkt.ref ∉ refs s.wire) :
    ((afterFirst s call pkt data objects).handler.acksleftTx.map (·.ref)).Sublist
      (refs (reliableSent (afterFirst s call pkt data objects).wire)) := by
  rw [tx_first, reliableSent_first hnew, List.map_append, refs_append]
  refine hs.tx.append ?_
  split_ifs
  · exact List.Sublist.refl _
  · exact List.Sublist.refl _

/-- A sublist of the packets sent has none of them twice. -/
theorem tx_nodup_of_tx {wire : List Datagram} {tx : List AbstractPacket}
    (h : (tx.map (·.ref)).Sublist (refs (reliableSent wire))) : (tx.map (·.ref)).Nodup :=
  (nodup_firsts wire).sublist (h.trans (List.filter_sublist.map _))

theorem disciplined_first (hs : Disciplined s) (hnew : pkt.ref ∉ refs s.wire)
    (hdata : Java.getBytes (firstSent .java call s.handler pkt) = .ok data) :
    Disciplined (afterFirst s call pkt data objects) := by
  obtain ⟨-, hrx⟩ := addSent_remote .java s.handler (firstSent .java call s.handler pkt)
  have hrx' : (afterFirst s call pkt data objects).handler.acksleftRx = s.handler.acksleftRx := hrx
  have htx : ((afterFirst s call pkt data objects).handler.acksleftTx.map (·.ref)).Sublist
    (refs (reliableSent (afterFirst s call pkt data objects).wire)) := tx_sublist_first hs hnew
  refine ⟨fun k d => seqnum_first hs hnew, localseqnum_first hs hnew, fun d hd => ?_,
    fun d hd d' hd' => identical_first hs hnew hd hd', limit_first hs hnew, tx_nodup_of_tx htx, htx,
    hrx' ▸ hs.rx_length, hrx' ▸ hs.rx_reliable, hrx' ▸ hs.rx_nodup⟩
  rcases mem_wire_first hd with hd | rfl
  · exact hs.carries d hd
  · exact Java.getBytes_carries hdata

/-- **A first sending keeps the invariant.** -/
theorem inv_first (hs : Inv s) (href : s.fresh ≤ pkt.ref) (hlt : pkt.ref < s.fresh + objects)
    (hdata : Java.getBytes (firstSent .java call s.handler pkt) = .ok data) :
    Inv (afterFirst s call pkt data objects) := by
  have hnew : pkt.ref ∉ refs s.wire := fun hmem => by
    have hlt := hs.fresh _ hmem
    omega
  have hrefs : refs (afterFirst s call pkt data objects).wire = refs s.wire ++ [pkt.ref] :=
    refs_append s.wire _
  refine ⟨disciplined_first hs.disciplined hnew hdata, fun r hr => ?_, fun q hq => ?_⟩
  · show r < s.fresh + objects
    rw [hrefs, List.mem_append, List.mem_singleton] at hr
    rcases hr with hr | rfl
    · exact (hs.fresh r hr).trans_le (Nat.le_add_right _ _)
    · exact hlt
  · rw [tx_first, List.mem_append] at hq
    rcases hq with hq | hq
    · have hold := hs.counted q hq
      refine hold.append fun hmem => hnew ?_
      have heq : q.ref = pkt.ref := by simpa [refs, firstSent] using hmem
      exact heq ▸ mem_refs.mpr hold.exists_sent
    · split_ifs at hq
      · obtain rfl := List.mem_singleton.mp hq
        refine ⟨le_refl 1, (by decide : (1 : ℤ) ≤ maxValue), ?_, fun d hd hr => ?_⟩
        · rw [sent_first, show (firstSent .java call s.handler pkt).ref = pkt.ref from rfl,
            sent_eq_zero.mpr hnew, if_pos rfl]
          rfl
        · rcases mem_wire_first hd with hd | rfl
          · exact absurd (mem_refs.mpr ⟨d, hd, hr⟩) hnew
          · exact hdata
      · simp at hq

end First

/-! ### A packet comes in -/

section Heard

variable {s : State} {x : AbstractPacket}

/-- The state after a packet came in, but for an ackbeat. -/
def afterHeard (s : State) (x : AbstractPacket) : State :=
  { s with handler := afterPacket .java s.handler x }

/-- A packet that is new has another number than the packets in the list. -/
theorem seqnum_not_mem {h : UDPHandler} (hdup : isDuplicate h x = false) :
    x.seqnum ∉ h.acksleftRx.map (·.seqnum) := by
  intro hmem
  obtain ⟨p, hp, hseq⟩ := List.mem_map.mp hmem
  have hany : isDuplicate h x = true := List.any_eq_true.mpr ⟨p, hp, by simpa using hseq⟩
  rw [hdup] at hany
  cases hany

/-- A new packet joins the last 18. -/
theorem rx_heard (hs : Disciplined s) :
    (afterHeard s x).handler.acksleftRx.length ≤ 18 ∧
      (∀ p ∈ (afterHeard s x).handler.acksleftRx, p.reliable) ∧
      ((afterHeard s x).handler.acksleftRx.map (·.seqnum)).Nodup := by
  show (afterPacket .java s.handler x).acksleftRx.length ≤ 18 ∧
    (∀ p ∈ (afterPacket .java s.handler x).acksleftRx, p.reliable) ∧
    ((afterPacket .java s.handler x).acksleftRx.map (·.seqnum)).Nodup
  obtain hsame | ⟨hdup, hrel, rest, hjoin, hsub, hroom⟩ := rx_afterPacket_cases .java s.handler x
  · rw [hsame]
    exact ⟨hs.rx_length, hs.rx_reliable, hs.rx_nodup⟩
  · have hlen := hroom hs.rx_length
    have hno : x.seqnum ∉ rest.map (·.seqnum) := fun hmem =>
      seqnum_not_mem hdup ((hsub.map _).subset hmem)
    rw [hjoin]
    refine ⟨?_, fun p hp => ?_, ?_⟩
    · rw [List.length_append, List.length_singleton]
      omega
    · rcases List.mem_append.mp hp with hp | hp
      · exact hs.rx_reliable p (hsub.subset hp)
      · exact List.mem_singleton.mp hp ▸ hrel
    · rw [List.map_append]
      exact List.nodup_append.mpr ⟨hs.rx_nodup.sublist (hsub.map _), by simp,
        fun a ha b hb hab => hno (by
          obtain rfl : b = x.seqnum := by simpa using hb
          exact hab ▸ ha)⟩

/-- **A packet that comes in keeps the invariant.** -/
theorem inv_heard (hs : Inv s) : Inv (afterHeard s x) := by
  have hd := hs.disciplined
  obtain ⟨hlen, hrel, hnodup⟩ := rx_heard (x := x) hd
  have htx := tx_afterPacket .java s.handler x
  have hlocal := localseqnum_afterPacket .java s.handler x
  have hrefs := htx.map (·.ref)
  exact ⟨⟨hd.seqnum, hlocal.trans hd.localseqnum, hd.carries, hd.identical, hd.limit,
    hd.tx_nodup.sublist hrefs, hrefs.trans hd.tx, hlen, hrel, hnodup⟩, hs.fresh,
    fun q hq => hs.counted q (htx.subset hq)⟩

/-- New objects that are not sent. -/
theorem Inv.objects (hs : Inv s) (n : ℕ) : Inv (s.after s.handler [] n) := by
  have hd := hs.disciplined
  have hwire : (s.after s.handler [] n).wire = s.wire := List.append_nil _
  exact ⟨⟨hwire ▸ hd.seqnum, hwire ▸ hd.localseqnum, hwire ▸ hd.carries, hwire ▸ hd.identical,
    hwire ▸ hd.limit, hd.tx_nodup, hwire ▸ hd.tx, hd.rx_length, hd.rx_reliable, hd.rx_nodup⟩,
    fun r hr => (hs.fresh r (hwire ▸ hr)).trans_le (Nat.le_add_right _ _), hwire ▸ hs.counted⟩

end Heard

/-! ### Packets are sent again -/

section Again

variable {wire : List Datagram} {asked now : ℕ → ℤ} {pkt : AbstractPacket} {i : ℕ}

theorem updateSendAttempt_lt {attempts : ℤ} (h1 : 1 ≤ attempts) (h2 : attempts < maxValue) :
    Lang.java.updateSendAttempt attempts = attempts + 1 := by
  unfold maxValue at h2
  simp only [Lang.updateSendAttempt, Int.bmod]
  omega

/-- The counter after its last value. -/
theorem updateSendAttempt_maxValue : Lang.java.updateSendAttempt maxValue = -2 ^ 31 := by decide

theorem Counted.updateSendAttempt_ne (hpkt : Counted wire pkt) :
    Lang.java.updateSendAttempt pkt.attempts ≠ 1 := by
  have hpos := hpkt.pos
  rcases hpkt.le.lt_or_eq with hlt | heq
  · rw [updateSendAttempt_lt hpos hlt]
    omega
  · rw [heq, updateSendAttempt_maxValue]
    decide

theorem Counted.getBytes (hpkt : Counted wire pkt) : ∃ data, Java.getBytes pkt = .ok data := by
  obtain ⟨d, hd, href⟩ := hpkt.exists_sent
  exact ⟨d.data, hpkt.bytes d hd href⟩

/-- A packet in the list stops the loop if it is overdue and was sent `MAX_RESEND` times, unless its
counter overflows. -/
theorem Counted.stops_iff (hpkt : Counted wire pkt) :
    Stops .java (calls asked now i) pkt ↔ Overdue (calls asked now i) pkt ∧
      maxResend ≤ pkt.attempts ∧ pkt.attempts ≠ maxValue := by
  obtain ⟨data, hdata⟩ := hpkt.getBytes
  have hbytes : ¬ ∃ e, Lang.java.getBytes pkt = .error e := fun ⟨e, he⟩ => by
    rw [show Lang.java.getBytes pkt = Java.getBytes pkt from rfl, hdata] at he
    cases he
  have hsent : (calls asked now i).sent = true := rfl
  simp only [Stops, hpkt.updateSendAttempt_ne, hbytes, hsent, Bool.true_eq_false, or_false]
  refine and_congr_right fun _ => ?_
  rcases hpkt.le.lt_or_eq with hlt | heq
  · rw [updateSendAttempt_lt hpkt.pos hlt]
    constructor
    · exact fun h => ⟨by omega, hlt.ne⟩
    · exact fun h => by omega
  · rw [heq, updateSendAttempt_maxValue]
    decide

theorem sentAgain_ref (lang : Lang) (call : Call) (pkt : AbstractPacket) :
    (sentAgain lang call pkt).ref = pkt.ref := rfl

/-- A packet that is sent again. -/
theorem Counted.again (hpkt : Counted wire pkt) (hlt : pkt.attempts < maxResend) (call : Call)
    {data : List UInt8} (hdata : Java.getBytes pkt = .ok data) :
    Counted (wire ++ [⟨sentAgain .java call pkt, data⟩]) (sentAgain .java call pkt) := by
  have hnext : (sentAgain .java call pkt).attempts = pkt.attempts + 1 :=
    Resend.updateSendAttempt_of_lt .java hpkt.pos hlt
  have hbytes := getBytes_sentAgain .java call pkt
  have hpos := hpkt.pos
  have hsent := hpkt.sent
  unfold maxResend at hlt hsent
  refine ⟨by omega, by rw [hnext]; unfold maxValue; omega, ?_, fun d hd href => ?_⟩
  · rw [sentAgain_ref, sent_append, hnext]
    have hone : Discipline.sent pkt.ref [⟨sentAgain .java call pkt, data⟩] = 1 := by
      simp [Discipline.sent, sentAgain_ref]
    rw [hone]
    unfold maxResend
    omega
  · rw [show Java.getBytes (sentAgain .java call pkt) = Java.getBytes pkt from hbytes]
    rcases List.mem_append.mp hd with hd | hd
    · exact hpkt.bytes d hd href
    · obtain rfl := List.mem_singleton.mp hd
      exact hdata

/-- A packet that raises a timeout is one attempt further. -/
theorem Counted.timeout (hpkt : Counted wire pkt) (hle : maxResend ≤ pkt.attempts)
    (hne : pkt.attempts ≠ maxValue) {call : Call} : Counted wire (sentAgain .java call pkt) := by
  have hlt : pkt.attempts < maxValue := lt_of_le_of_ne hpkt.le hne
  have hnext : (sentAgain .java call pkt).attempts = pkt.attempts + 1 :=
    updateSendAttempt_lt hpkt.pos hlt
  have hpos := hpkt.pos
  refine ⟨by omega, by omega, ?_, fun d hd href => ?_⟩
  · rw [sentAgain_ref, hpkt.sent, hnext]
    omega
  · exact hpkt.bytes d hd href

theorem sendPacket_timeout (h : UDPHandler) (hpkt : Counted wire pkt) (hle : maxResend ≤ pkt.attempts)
    (hne : pkt.attempts ≠ maxValue) (call : Call) : sendPacket .java call h pkt =
      ⟨h, sentAgain .java call pkt, [], some .clientTimeout⟩ := by
  have hnext := updateSendAttempt_lt hpkt.pos (lt_of_le_of_ne hpkt.le hne)
  have hmax : Lang.java.updateSendAttempt pkt.attempts > maxResend := by omega
  simp only [sendPacket, hmax, if_true, sentAgain]

theorem sendPacket_due (h : UDPHandler) (hpkt : Counted wire pkt) (hlt : pkt.attempts < maxResend)
    (call : Call) (hcall : call.sent = true) {data : List UInt8}
    (hdata : Java.getBytes pkt = .ok data) : sendPacket .java call h pkt =
      ⟨h, sentAgain .java call pkt, [⟨sentAgain .java call pkt, data⟩], none⟩ := by
  have hnext := Resend.updateSendAttempt_of_lt .java hpkt.pos hlt
  have hmax : ¬ Lang.java.updateSendAttempt pkt.attempts > maxResend := by omega
  have hbytes : Lang.java.getBytes (sentAgain .java call pkt) = .ok data :=
    (getBytes_sentAgain .java call pkt).trans hdata
  simp only [sentAgain] at hbytes
  simp [sendPacket, hmax, hpkt.updateSendAttempt_ne, hbytes, hcall, sentAgain]

/-! ### The loop -/

/-- `Counts` for the rest of the list. -/
def CountsFrom (asked now : ℕ → ℤ) (i : ℕ) (tx : List AbstractPacket) : Prop :=
  ∀ j q, tx[j]? = some q → q.attempts = maxValue → Overdue (calls asked now (i + j)) q →
    ∃ k ≤ j, ∃ p, tx[k]? = some p ∧ Stops .java (calls asked now (i + k)) p

theorem CountsFrom.head {tx : List AbstractPacket} (h : CountsFrom asked now i (pkt :: tx))
    (hpkt : Counted wire pkt) (hover : Overdue (calls asked now i) pkt) : pkt.attempts ≠ maxValue := by
  intro heq
  obtain ⟨k, hk, p, hp, hstop⟩ := h 0 pkt rfl heq hover
  obtain rfl : k = 0 := by omega
  obtain rfl : pkt = p := by simpa using hp
  exact (hpkt.stops_iff.mp hstop).2.2 heq

theorem CountsFrom.tail {tx : List AbstractPacket} (h : CountsFrom asked now i (pkt :: tx))
    (hpass : ¬ Stops .java (calls asked now i) pkt) : CountsFrom asked now (i + 1) tx := by
  intro j q hq heq hover
  have hi : ∀ k, i + (k + 1) = i + 1 + k := fun k => by omega
  obtain ⟨k, hk, p, hp, hstop⟩ := h (j + 1) q (by simpa using hq) heq ((hi j).symm ▸ hover)
  cases k with
  | zero =>
    obtain rfl : pkt = p := by simpa using hp
    exact absurd hstop hpass
  | succ k => exact ⟨k, by omega, p, by simpa using hp, hi k ▸ hstop⟩

/-- **The loop keeps the counters**, and sends what is in the list with the bytes it has. -/
theorem resendLoop_counted (h : UDPHandler) : ∀ {tx : List AbstractPacket} {wire : List Datagram}
    (i : ℕ), (tx.map (·.ref)).Nodup → (∀ q ∈ tx, Counted wire q) → CountsFrom asked now i tx →
      (∀ q ∈ (resendLoop .java (calls asked now) h i tx).handler.acksleftTx,
        Counted (wire ++ (resendLoop .java (calls asked now) h i tx).out) q) ∧
      ∀ d ∈ (resendLoop .java (calls asked now) h i tx).out,
        ∃ q ∈ tx, d.pkt.ref = q.ref ∧ Java.getBytes q = .ok d.data
  | [], wire, i, _, _, _ => by simp [resendLoop]
  | pkt :: tx, wire, i, hnodup, hcounted, hcounts => by
    have hpkt := hcounted pkt (by simp)
    have htail : ∀ q ∈ tx, Counted wire q := fun q hq => hcounted q (List.mem_cons_of_mem _ hq)
    rw [List.map_cons, List.nodup_cons] at hnodup
    obtain ⟨hpref, hnodup⟩ := hnodup
    have hne : ∀ q ∈ tx, q.ref ≠ pkt.ref := fun q hq href => hpref (List.mem_map.mpr ⟨q, hq, href⟩)
    -- no packet of the rest is the first one
    have hrest : ∀ {out : List Datagram},
        (∀ d ∈ out, ∃ q ∈ tx, d.pkt.ref = q.ref ∧ Java.getBytes q = .ok d.data) →
          pkt.ref ∉ refs out := fun hout hmem => by
      obtain ⟨d, hd, hdr⟩ := mem_refs.mp hmem
      obtain ⟨q, hq, hqr, -⟩ := hout d hd
      exact hne q hq (hqr.symm.trans hdr)
    by_cases hover : Overdue (calls asked now i) pkt
    · have hlast := hcounts.head hpkt hover
      have hover' : (calls asked now i).asked - pkt.sendtime > timeResend := hover
      by_cases hlt : pkt.attempts < maxResend
      · obtain ⟨data, hdata⟩ := hpkt.getBytes
        have hsend := sendPacket_due { h with acksleftTx := pkt :: tx } hpkt hlt
          (calls asked now i) rfl hdata
        have hnotone : (sentAgain .java (calls asked now i) pkt).attempts ≠ 1 :=
          hpkt.updateSendAttempt_ne
        have hpass : ¬ Stops .java (calls asked now i) pkt := fun hstop =>
          absurd (hpkt.stops_iff.mp hstop).2.1 (by omega)
        have hfirst := hpkt.again hlt (calls asked now i) hdata
        have hother : ∀ q ∈ tx, q.ref ∉ refs [⟨sentAgain .java (calls asked now i) pkt, data⟩] :=
          fun q hq => by simpa [refs, sentAgain_ref] using hne q hq
        obtain ⟨htx, hout⟩ := resendLoop_counted h (i + 1) hnodup
          (fun q hq => (htail q hq).append (hother q hq)) (hcounts.tail hpass)
        simp only [resendLoop, hover', if_true, hsend, hnotone, if_false]
        rw [← List.append_assoc]
        refine ⟨fun q hq => ?_, fun d hd => ?_⟩
        · rcases List.mem_cons.mp hq with rfl | hq
          · exact hfirst.append (hrest hout)
          · exact htx q hq
        · rcases List.mem_append.mp hd with hd | hd
          · obtain rfl := List.mem_singleton.mp hd
            exact ⟨pkt, by simp, rfl, hdata⟩
          · obtain ⟨q, hq, hqd⟩ := hout d hd
            exact ⟨q, List.mem_cons_of_mem _ hq, hqd⟩
      · have hsend := sendPacket_timeout { h with acksleftTx := pkt :: tx } hpkt (by omega) hlast
          (calls asked now i)
        simp only [resendLoop, hover', if_true, hsend, List.append_nil]
        refine ⟨fun q hq => ?_, by simp⟩
        rcases List.mem_cons.mp hq with rfl | hq
        · exact hpkt.timeout (by omega) hlast
        · exact htail q hq
    · have hover' : ¬ (calls asked now i).asked - pkt.sendtime > timeResend := hover
      obtain ⟨htx, hout⟩ := resendLoop_counted h (i + 1) hnodup htail
        (hcounts.tail fun hstop => hover hstop.1)
      simp only [resendLoop, hover', if_false]
      refine ⟨fun q hq => ?_, fun d hd => ?_⟩
      · rcases List.mem_cons.mp hq with rfl | hq
        · exact hpkt.append (hrest hout)
        · exact htx q hq
      · obtain ⟨q, hq, hqd⟩ := hout d hd
        exact ⟨q, List.mem_cons_of_mem _ hq, hqd⟩

end Again

/-- What goes out again went out before, with the same bytes. -/
theorem Inv.exists_twin {s : State} (hs : Inv s) {out : List Datagram}
    (hout : ∀ d ∈ out, ∃ q ∈ s.handler.acksleftTx, d.pkt.ref = q.ref ∧ Java.getBytes q = .ok d.data)
    {d : Datagram} (hd : d ∈ s.wire ++ out) :
    ∃ d0 ∈ s.wire, d0.pkt.ref = d.pkt.ref ∧ d0.data = d.data := by
  rcases List.mem_append.mp hd with hd | hd
  · exact ⟨d, hd, rfl, rfl⟩
  · obtain ⟨q, hq, href, hdata⟩ := hout d hd
    obtain ⟨d0, hd0, hr0⟩ := (hs.counted q hq).exists_sent
    have h0 := (hs.counted q hq).bytes d0 hd0 hr0
    rw [hdata] at h0
    exact ⟨d0, hd0, hr0.trans href.symm, (Except.ok.inj h0).symm⟩

/-- Only packets whose counters are right go out again. -/
theorem limit_again {s : State} (hs : Disciplined s) {tx : List AbstractPacket} {out : List Datagram}
    (hcounted : ∀ q ∈ tx, Counted (s.wire ++ out) q) (hout : ∀ d ∈ out, d.pkt.ref ∈ tx.map (·.ref))
    (ref : ℕ) : (sent ref (s.wire ++ out) : ℤ) ≤ maxResend := by
  by_cases href : ref ∈ tx.map (·.ref)
  · obtain ⟨q, hq, rfl⟩ := List.mem_map.mp href
    rw [(hcounted q hq).sent]
    exact min_le_right _ _
  · have hno : ref ∉ refs out := fun hmem => href (by
      obtain ⟨d, hd, rfl⟩ := mem_refs.mp hmem
      exact hout d hd)
    rw [sent_append, sent_eq_zero.mpr hno]
    exact hs.limit ref

/-- **A resend keeps the invariant** if no counter overflows. -/
theorem inv_resend {s : State} (hs : Inv s) {asked now : ℕ → ℤ}
    (hcounts : Counts s (.resend asked now)) :
    Inv (s.after (resendMissingPackets .java (calls asked now) s.handler).handler
      (resendMissingPackets .java (calls asked now) s.handler).out 0) := by
  have hd := hs.disciplined
  obtain ⟨tx, hh, hsame, hbytes⟩ := resendLoop_same .java (calls asked now) s.handler 0
    fun q hq => (hs.counted q hq).updateSendAttempt_ne
  have hfrom : CountsFrom asked now 0 s.handler.acksleftTx := by
    simpa [CountsFrom, Counts] using hcounts
  obtain ⟨hcounted, hout⟩ := resendLoop_counted s.handler 0 hd.tx_nodup hs.counted hfrom
  simp only [resendMissingPackets]
  set out := (resendLoop .java (calls asked now) s.handler 0 s.handler.acksleftTx).out with hodef
  rw [hh] at hcounted ⊢
  have hrefs : tx.map (·.ref) = s.handler.acksleftTx.map (·.ref) := by
    rw [← List.forall₂_eq_eq_eq, List.forall₂_map_left_iff, List.forall₂_map_right_iff]
    exact hsame.imp fun p q hpq => hpq.1
  have hold : ∀ d ∈ out, d.pkt.ref ∈ refs s.wire := fun d hd' => by
    obtain ⟨d0, hd0, hr0, -⟩ := hs.exists_twin hout (List.mem_append_right _ hd')
    exact mem_refs.mpr ⟨d0, hd0, hr0⟩
  have hsent := reliableSent_old hold
  refine ⟨⟨?_, ?_, fun d hd' => ?_, fun d hd1 d' hd2 href => ?_, ?_, ?_, ?_, hd.rx_length,
    hd.rx_reliable, hd.rx_nodup⟩, fun r hr => ?_, hcounted⟩
  · exact hsent.symm ▸ hd.seqnum
  · exact hsent.symm ▸ hd.localseqnum
  · rcases List.mem_append.mp hd' with hd' | hd'
    · exact hd.carries d hd'
    · exact Java.getBytes_carries (hbytes d hd').1
  · obtain ⟨d0, hd0, hr0, hb0⟩ := hs.exists_twin hout hd1
    obtain ⟨d0', hd0', hr0', hb0'⟩ := hs.exists_twin hout hd2
    rw [← hb0, ← hb0']
    exact hd.identical d0 hd0 d0' hd0' (hr0.trans (href.trans hr0'.symm))
  · refine limit_again hd hcounted fun d hd' => ?_
    obtain ⟨q, hq, hqr, -⟩ := hout d hd'
    rw [hrefs, hqr]
    exact List.mem_map_of_mem hq
  · exact hrefs.symm ▸ hd.tx_nodup
  · show (tx.map (·.ref)).Sublist (refs (reliableSent (s.wire ++ out)))
    rw [hrefs, hsent]
    exact hd.tx
  · rcases List.mem_append.mp (refs_append s.wire out ▸ hr) with hr | hr
    · exact hs.fresh r hr
    · obtain ⟨d, hd', rfl⟩ := mem_refs.mp hr
      exact hs.fresh _ (hold d hd')

/-- **An overflow breaks the discipline**: the packet goes out once more. -/
theorem not_disciplined_resend {s : State} (hs : Inv s) {asked now : ℕ → ℤ}
    (hcounts : ¬ Counts s (.resend asked now)) :
    ¬ Disciplined (s.after (resendMissingPackets .java (calls asked now) s.handler).handler
      (resendMissingPackets .java (calls asked now) s.handler).out 0) := by
  intro hdis
  simp only [Counts, not_forall] at hcounts
  obtain ⟨i, q, hq, hlast, hover, hno⟩ := hcounts
  push Not at hno
  have hqc := hs.counted q (List.mem_of_getElem? hq)
  obtain ⟨data, hdata⟩ := (resendLoop_iff (calls asked now) s.handler hqc.updateSendAttempt_ne
    s.handler.acksleftTx 0 i hq (by simpa using hover)).mpr (by simpa using hno)
  have hmem := List.mem_of_getElem? hdata
  have hlimit := hdis.limit q.ref
  have hpos : 0 < sent q.ref (resendLoop .java (calls asked now) s.handler 0
      s.handler.acksleftTx).out :=
    List.countP_pos_iff.mpr ⟨_, hmem, by simp [sentAgain_ref]⟩
  have hmin : min maxValue maxResend = 5 := by decide
  simp only [State.after, sent_append, resendMissingPackets, Nat.cast_add, hqc.sent, hlast,
    hmin] at hlimit
  unfold maxResend at hlimit
  omega

/-! ### Runs -/

theorem inv_init : Inv init :=
  ⟨⟨by simp [init, reliableSent, firsts], rfl, by simp [init], by simp [init],
    fun _ => (by decide : (0 : ℤ) ≤ maxResend), by simp [init, newUDPHandler],
    by simp [init, newUDPHandler], by simp [init, newUDPHandler], by simp [init, newUDPHandler],
    by simp [init, newUDPHandler]⟩, by simp [init, refs], by simp [init, newUDPHandler]⟩

theorem inv_send {s s' : State} (hs : Inv s) {pkt : AbstractPacket} {now : ℤ}
    (h : step s (.send pkt now) = some s') : Inv s' := by
  simp only [step, Option.some.injEq] at h
  subst h
  rw [sendPacket_first .java _ s.handler rfl rfl]
  split
  · exact hs.objects 1
  · next data hdata => exact inv_first hs le_rfl (Nat.lt_succ_self _) hdata

theorem inv_read {s s' : State} (hs : Inv s) {k : Kind} {data : List UInt8} {now : ℤ}
    (h : step s (.read k data now) = some s') : Inv s' := by
  simp only [step, Option.some.injEq] at h
  subst h
  by_cases hdec : ∃ q, Lang.java.decode k data (fun _ => 0) = .ok (some q)
  · obtain ⟨q, hq⟩ := hdec
    have hx := inv_heard (x := { q with ref := s.fresh }) hs
    obtain ⟨bytes, hbytes, hh, hout, -⟩ :=
      readPacket_eq ⟨now, now, true⟩ rfl hq s.handler s.fresh (s.fresh + 1)
    rw [hh, hout]
    split_ifs
    · have hun := not_reliable_newAckbeat .java ⟨now, now, true⟩
        (afterPacket .java s.handler { q with ref := s.fresh }) (s.fresh + 1) k
      have hack : Inv (afterFirst _ _ _ _ 2) := inv_first hx
        (show (afterHeard s { q with ref := s.fresh }).fresh ≤ (newAckbeat (s.fresh + 1) k).ref by
          rw [Network.newAckbeat_ref]
          exact Nat.le_succ _)
        (by rw [Network.newAckbeat_ref]; exact Nat.lt_succ_self _) hbytes
      simp only [afterFirst, afterHeard, addSent, hun, Bool.false_eq_true, if_false] at hack
      exact hack
    · exact hx.objects 2
  · obtain ⟨hh, hout, -⟩ := readPacket_none ⟨now, now, true⟩ (fun q hq => hdec ⟨q, hq⟩) s.handler
      s.fresh (s.fresh + 1)
    rw [hh, hout]
    exact hs.objects 2

/-- **One step keeps the invariant** if no counter overflows. -/
theorem inv_step {s s' : State} {a : Label} (hs : Inv s) (hcounts : Counts s a)
    (h : step s a = some s') : Inv s' := by
  cases a with
  | send pkt now => exact inv_send hs h
  | read k data now => exact inv_read hs h
  | resend asked now =>
    simp only [step, Option.some.injEq] at h
    exact h ▸ inv_resend hs hcounts

theorem not_disciplined_step {s s' : State} {a : Label} (hs : Inv s) (hcounts : ¬ Counts s a)
    (h : step s a = some s') : ¬ Disciplined s' := by
  cases a with
  | send pkt now => exact absurd trivial hcounts
  | read k data now => exact absurd trivial hcounts
  | resend asked now =>
    simp only [step, Option.some.injEq] at h
    exact h ▸ not_disciplined_resend hs hcounts

/-- **When the discipline is kept**: in all states of a run exactly if no attempt counter overflows in
it. -/
theorem disciplined_iff (l : List Label) :
    Always step Disciplined init l ↔ Along step Counts init l :=
  always_iff_of_kept (J := Inv) (fun _ hs => hs.disciplined) (fun _ _ _ => inv_step)
    (fun _ _ _ => not_disciplined_step) inv_init

/-! ### A counter that overflows -/

/-- `ResendMissingPackets` at a point of time. -/
def resendAt (time : ℤ) : Label := .resend (fun _ => time) fun _ => time

/-- `n` resends, two seconds apart. -/
def resends (n : ℕ) : List Label := (List.range n).map fun i : ℕ => resendAt (2000 * (i + 1))

/-- A reliable packet, never acknowledged. -/
def sendPlain : Label := .send (newNetLibPacket 0 5 [] 0) 0

/-- The only packet of `acksleft_tx`, with its counter and its time. -/
def Waits (s : State) (attempts sendtime : ℤ) : Prop :=
  ∃ q, s.handler.acksleftTx = [q] ∧ q.attempts = attempts ∧ q.sendtime = sendtime

/-- `ResendMissingPackets` with one overdue packet. -/
theorem tx_resend_singleton {s : State} (hs : Inv s) {q : AbstractPacket}
    (htx : s.handler.acksleftTx = [q]) (hne : q.attempts ≠ maxValue) {asked now : ℕ → ℤ}
    (hover : Overdue (calls asked now 0) q) :
    (resendMissingPackets .java (calls asked now) s.handler).handler.acksleftTx =
      [sentAgain .java (calls asked now 0) q] := by
  have hq : Counted s.wire q := hs.counted q (by rw [htx]; exact List.mem_singleton_self q)
  have hover' : (calls asked now 0).asked - q.sendtime > timeResend := hover
  simp only [resendMissingPackets, htx, resendLoop, hover', if_true]
  by_cases hlt : q.attempts < maxResend
  · obtain ⟨data, hdata⟩ := hq.getBytes
    have hnotone : (sentAgain .java (calls asked now 0) q).attempts ≠ 1 := hq.updateSendAttempt_ne
    simp only [sendPacket_due _ hq hlt (calls asked now 0) rfl hdata, hnotone, if_false]
  · simp only [sendPacket_timeout _ hq (by omega) hne, List.tail_cons]

theorem overdue_resendAt {q : AbstractPacket} {n : ℕ} (hq : q.sendtime = 2000 * n) (i : ℕ) :
    Overdue (calls (fun _ => 2000 * ((n : ℤ) + 1)) (fun _ => 2000 * ((n : ℤ) + 1)) i) q := by
  simp only [Overdue, calls, hq, timeResend]
  omega

/-- One resend more. -/
theorem waits_step {s : State} (hs : Inv s) {n : ℕ} (hw : Waits s (n + 1) (2000 * n))
    (hn : (n : ℤ) + 1 < maxValue) : ∃ s', step s (resendAt (2000 * (n + 1))) = some s' ∧ Inv s' ∧
      Waits s' ((n + 1 : ℕ) + 1) (2000 * (n + 1 : ℕ)) := by
  obtain ⟨q, htx, hattempts, htime⟩ := hw
  have hq : Counted s.wire q := hs.counted q (by rw [htx]; exact List.mem_singleton_self q)
  have hne : q.attempts ≠ maxValue := by omega
  have hcounts : Counts s (resendAt (2000 * (n + 1))) := fun i p hp heq _ => by
    rw [htx] at hp
    obtain rfl := List.mem_singleton.mp (List.mem_of_getElem? hp)
    exact absurd heq hne
  refine ⟨_, rfl, inv_resend hs hcounts, _,
    tx_resend_singleton hs htx hne (overdue_resendAt htime 0), ?_, ?_⟩
  · show Lang.java.updateSendAttempt q.attempts = _
    rw [updateSendAttempt_lt hq.pos (lt_of_le_of_ne hq.le hne), hattempts]
    push_cast
    rfl
  · show 2000 * ((n : ℤ) + 1) = _
    push_cast
    rfl

theorem waits_resends {s : State} (hs : Inv s) (hw : Waits s 1 0) (n : ℕ) (hn : (n : ℤ) < maxValue) :
    ∃ s', run step s (resends n) = some s' ∧ Inv s' ∧ Waits s' (n + 1) (2000 * n) := by
  induction n with
  | zero => exact ⟨s, rfl, hs, by simpa using hw⟩
  | succ n ih =>
    push_cast at hn
    obtain ⟨t, ht, hti, htw⟩ := ih (by omega)
    obtain ⟨s', hs', hinv, hw'⟩ := waits_step hti htw hn
    refine ⟨s', ?_, hinv, hw'⟩
    rw [resends, List.range_succ, List.map_append]
    exact run_append.mpr ⟨t, ht, run_cons.mpr ⟨s', hs', rfl⟩⟩

/-- A packet that is never acknowledged goes out a sixth time when its counter has come round. -/
theorem not_disciplined_runs : ¬ ∀ l, Always step Disciplined init l := by
  intro hall
  have h0 : Inv ((step init sendPlain).get rfl) := inv_send inv_init rfl
  have hw0 : Waits ((step init sendPlain).get rfl) 1 0 := by
    refine ⟨firstSent .java ⟨0, 0, true⟩ newUDPHandler (newNetLibPacket 0 5 [] 0), ?_, rfl, rfl⟩
    decide +kernel
  obtain ⟨t, ht, hti, q, htx, hattempts, htime⟩ := waits_resends h0 hw0 (2 ^ 31 - 2) (by decide)
  have hrun : run step init (sendPlain :: resends (2 ^ 31 - 2)) = some t :=
    run_cons.mpr ⟨_, rfl, ht⟩
  have hlast := hall (sendPlain :: resends (2 ^ 31 - 2) ++ [resendAt (2000 * ((2 ^ 31 - 2 : ℕ) + 1))])
  have hover := overdue_resendAt htime 0
  refine not_disciplined_step (a := resendAt (2000 * ((2 ^ 31 - 2 : ℕ) + 1))) hti ?_ rfl
    (((always_append.mp hlast).2 t hrun).2 _ rfl).head
  intro hcounts
  have hmax : q.attempts = maxValue := by rw [hattempts]; decide
  obtain ⟨j, hj, p, hp, hstop⟩ := hcounts 0 q (by simp [htx]) hmax hover
  rw [htx] at hp
  obtain rfl := List.mem_singleton.mp (List.mem_of_getElem? hp)
  have hq : Counted t.wire p := hti.counted p (by rw [htx]; exact List.mem_singleton_self p)
  exact (hq.stops_iff.mp hstop).2.2 hmax

end N64NetLib.Udp.Discipline
