import N64NetLib.Udp.AckFields
import Mathlib.Data.List.DropRight

/-! # What a failed send leaves behind

`SendPacket` counts the attempt before it sends, and adds the packet to `acksleft_tx` after it. So when
the socket raises an `IOException` on the first attempt, the packet has one attempt behind it and is not
in the list, and no later `SendPacket` takes it for new (`not_actsAsFirst`).

`HandlePacketSequence` adds a reliable packet to `acksleft_rx` before it sends the explicit ack. When that
send fails the packet is not returned to the caller, and each copy that comes in later is a duplicate
until 18 other reliable packets have been accepted (`recovers_iff`). -/

namespace N64NetLib.Udp.SendFailure

open N64NetLib.Lib.Run N64NetLib.Packet N64NetLib.Packet.Basic N64NetLib.Udp.Handler
open N64NetLib.Udp.Resend N64NetLib.Udp.AckFields

/-! ### Sending -/

/-- `SendPacket` takes the packet for new: it gets the current number, joins `acksleft_tx` and counts
up `localseqnum`. -/
structure ActsAsFirst (call : Call) (h : UDPHandler) (pkt : AbstractPacket) : Prop where
  seqnum : (sendPacket .java call h pkt).pkt.seqnum = h.localseqnum
  tx : (sendPacket .java call h pkt).handler.acksleftTx =
    h.acksleftTx ++ [(sendPacket .java call h pkt).pkt]
  localseqnum : (sendPacket .java call h pkt).handler.localseqnum = h.localseqnum + 1

/-- A packet that `SendPacket` has had once is not new to it, in whatever state the handler is then. -/
theorem not_actsAsFirst (call call' : Call) (h h' : UDPHandler) {pkt : AbstractPacket}
    (hpkt : pkt.attempts = 0) : ¬ ActsAsFirst call' h' (sendPacket .java call h pkt).pkt := by
  intro hfirst
  rw [sendPacket_pkt .java call h hpkt] at hfirst
  have hone : (firstSent .java call h pkt).attempts = 1 := rfl
  have hagain : Lang.java.updateSendAttempt (firstSent .java call h pkt).attempts ≠ 1 := by
    rw [hone]
    decide
  have hhandler := (sendPacket_again call' h' hagain).1
  have htx := hfirst.tx
  rw [hhandler] at htx
  have hlen := congrArg List.length htx
  rw [List.length_append, List.length_singleton] at hlen
  omega

/-! ### What joins the received list -/

/-- The packet that a call of the handler adds to `acksleft_rx`. -/
def added (h : UDPHandler) : HandlerCall → List AbstractPacket
  | .read _ k ref _ data junk =>
    match Lang.java.decode k data junk with
    | .ok (some pkt) => if !isDuplicate h pkt && pkt.reliable then [{ pkt with ref := ref }] else []
    | _ => []
  | _ => []

/-- The packets that the calls of a run add, in their order. -/
def addedBy : UDPHandler → List HandlerCall → List AbstractPacket
  | _, [] => []
  | h, a :: l => added h a ++ ((handlerStep .java h a).map fun h' => addedBy h' l).getD []

theorem length_rtake {α : Type} (l : List α) (n : ℕ) : (l.rtake n).length = min n l.length := by
  rw [List.rtake, List.length_drop]
  omega

/-- Of the last `n`, those of the first part come into it only as far as the second leaves room. -/
theorem rtake_append {α : Type} (l m : List α) (n : ℕ) :
    (l ++ m).rtake n = if n ≤ m.length then m.rtake n else l.rtake (n - m.length) ++ m := by
  rw [List.rtake, List.length_append]
  split_ifs with hn
  · have hdrop : l.length + m.length - n = l.length + (m.length - n) := by omega
    rw [hdrop, List.drop_append, List.drop_eq_nil_of_le (by omega), List.nil_append,
      Nat.add_sub_cancel_left]
    rfl
  · have hdrop : l.length + m.length - n - l.length = 0 := by omega
    have hrest : l.length + m.length - n = l.length - (n - m.length) := by omega
    rw [List.drop_append, hdrop, List.drop_zero, hrest]
    rfl

theorem rtake_rtake_append {α : Type} (l m : List α) (n : ℕ) :
    (l.rtake n ++ m).rtake n = (l ++ m).rtake n := by
  rw [rtake_append, rtake_append]
  split_ifs with hn
  · rfl
  · congr 1
    rw [List.rtake, List.rtake, List.rtake, List.length_drop, List.drop_drop]
    congr 1
    omega

/-- A list of at most 18 makes room for one more. -/
theorem push_eq_rtake {α : Type} {l : List α} (h : l.length ≤ 18) (x : α) :
    (if l.length > 17 then l.tail else l) ++ [x] = (l ++ [x]).rtake 18 := by
  rw [List.rtake_concat_succ l 17 x]
  congr 1
  split_ifs with h17
  · have h18 : l.length - 17 = 1 := by omega
    rw [List.rtake, h18, List.drop_one]
  · have h18 : l.length - 17 = 0 := by omega
    rw [List.rtake, h18, List.drop_zero]

theorem added_eq (h : UDPHandler) (a : HandlerCall) :
    added h a = (accepts .java h a).toList.filter (·.reliable) := by
  cases a with
  | send | resend => rfl
  | read call k ref ackref data junk =>
    simp only [added, accepts]
    cases Lang.java.decode k data junk with
    | error e => rfl
    | ok o =>
      cases o with
      | none => rfl
      | some pkt =>
        have hrel : AbstractPacket.reliable { pkt with ref := ref } = pkt.reliable := rfl
        dsimp only
        by_cases hdup : isDuplicate h pkt = true
        · simp [hdup]
        · by_cases hpkt : pkt.reliable = true <;> simp [hdup, hpkt, hrel]

theorem rx_step {h h' : UDPHandler} {a : HandlerCall} (hlen : h.acksleftRx.length ≤ 18)
    (hstep : handlerStep .java h a = some h') :
    h'.acksleftRx = (h.acksleftRx ++ added h a).rtake 18 := by
  have hsame : h.acksleftRx = (h.acksleftRx ++ []).rtake 18 := by
    have hdrop : h.acksleftRx.length - 18 = 0 := by omega
    rw [List.append_nil, List.rtake, hdrop, List.drop_zero]
  have hrx : h'.acksleftRx = ((accepts .java h a).elim h (accept .java h)).acksleftRx :=
    congrArg Prod.snd (noted_step hstep)
  rw [hrx, added_eq]
  cases accepts .java h a with
  | none => exact hsame
  | some pkt =>
    by_cases hpkt : pkt.reliable = true
    · simp only [Option.elim_some, Option.toList_some, accept, hpkt, if_true, List.filter_singleton,
        cond_true]
      exact push_eq_rtake hlen pkt
    · simpa [accept, hpkt] using hsame

/-- **The received list over a run**: the last 18 of what it was and what was added. -/
theorem rx_run {h h' : UDPHandler} {l : List HandlerCall} (hlen : h.acksleftRx.length ≤ 18)
    (hrun : run (handlerStep .java) h l = some h') :
    h'.acksleftRx = (h.acksleftRx ++ addedBy h l).rtake 18 := by
  induction l generalizing h with
  | nil =>
    obtain rfl := Option.some.inj hrun
    have hdrop : h.acksleftRx.length - 18 = 0 := by omega
    rw [addedBy, List.append_nil, List.rtake, hdrop, List.drop_zero]
  | cons a l ih =>
    obtain ⟨h1, hstep, hrun⟩ := run_cons.mp hrun
    have h1rx := rx_step hlen hstep
    have h1len : h1.acksleftRx.length ≤ 18 := by
      rw [h1rx, length_rtake]
      omega
    rw [ih h1len hrun, h1rx, rtake_rtake_append, addedBy, hstep, List.append_assoc]
    rfl

theorem rx_length_run {h : UDPHandler} {l : List HandlerCall}
    (hrun : run (handlerStep .java) newUDPHandler l = some h) : h.acksleftRx.length ≤ 18 := by
  rw [rx_run (by simp [newUDPHandler]) hrun, length_rtake]
  omega

/-! ### Reading -/

/-- The read of a packet that is no duplicate and asks for an ack, with a socket that does not take the
ack packet. -/
structure FailedRead (k : Kind) (call : Call) (h : UDPHandler) (data : List UInt8) (junk : ℕ → UInt8)
    (pkt : AbstractPacket) : Prop where
  decode : Lang.java.decode k data junk = .ok (some pkt)
  new : isDuplicate h pkt = false
  asks : pkt.explicitAck = true
  fails : call.sent = false

/-- No copy of the packet is recognised once these have been added: it is not in the list itself, or
no more, and none of the last 18 has its number. -/
def Forgotten (pkt : AbstractPacket) (since : List AbstractPacket) : Prop :=
  (pkt.reliable = false ∨ 18 ≤ since.length) ∧ ∀ q ∈ since.rtake 18, q.seqnum ≠ pkt.seqnum

theorem isDuplicate_iff_mem {h : UDPHandler} {pkt : AbstractPacket} :
    isDuplicate h pkt = true ↔ pkt.seqnum ∈ h.acksleftRx.map (·.seqnum) := by
  simp [isDuplicate, List.any_eq_true]

/-- The read ends with the exception. -/
theorem readPacket_fails {k : Kind} {call : Call} {h : UDPHandler} {data : List UInt8}
    {junk : ℕ → UInt8} {pkt : AbstractPacket} (hread : FailedRead k call h data junk pkt)
    (ref ackref : ℕ) :
    (readPacket .java k call h ref ackref data junk).result = .error .io := by
  obtain ⟨hdecode, hnew, hasks, hfails⟩ := hread
  have hdup : isDuplicate h { pkt with ref := ref } = false := hnew
  have hask : AbstractPacket.explicitAck { pkt with ref := ref } = true := hasks
  have hmax : ¬ (1 : ℤ) > maxResend := by decide
  have hzero : (newAckbeat ackref k).attempts = 0 := by cases k <;> rfl
  obtain ⟨bytes, hbytes⟩ := getBytes_newAckbeat .java call (accept .java h { pkt with ref := ref }) ackref k
  have hsend : (sendPacket .java call (accept .java h { pkt with ref := ref })
      (newAckbeat ackref k)).exn = some .io := by
    unfold firstSent at hbytes
    simp only [sendPacket, hzero, Lang.updateSendAttempt_zero, hmax, if_false, if_true, hbytes, hfails,
      Bool.not_false]
  simp only [readPacket, hdecode, handlePacketSequence, hdup, Bool.false_eq_true, if_false, hask,
    if_true, sendAckbeat, hsend]

/-- A read returns the packet exactly if no number in the list is that of the packet. -/
theorem readPacket_returns_iff {k : Kind} {call : Call} (hcall : call.sent = true) {h : UDPHandler}
    {data : List UInt8} {junk : ℕ → UInt8} {pkt : AbstractPacket}
    (hdecode : Lang.java.decode k data junk = .ok (some pkt)) (ref ackref : ℕ) :
    (readPacket .java k call h ref ackref data junk).result = .ok (some { pkt with ref := ref }) ↔
      isDuplicate h pkt = false := by
  obtain ⟨bytes, -, hhandle⟩ :=
    handlePacketSequence_eq .java hcall h { pkt with ref := ref } ackref k
  have hdup : isDuplicate h { pkt with ref := ref } = isDuplicate h pkt := rfl
  simp only [readPacket, hdecode, hhandle, hdup]
  cases isDuplicate h pkt <;> simp

/-- The packet whose read failed, in the list as it is after more packets were added. -/
theorem seqnum_mem_since {h : UDPHandler} {pkt : AbstractPacket} (hnew : isDuplicate h pkt = false)
    (since : List AbstractPacket) :
    pkt.seqnum ∈ (((accept .java h pkt).acksleftRx ++ since).rtake 18).map (·.seqnum) ↔
      ¬ Forgotten pkt since := by
  have hno : ∀ q ∈ h.acksleftRx, q.seqnum ≠ pkt.seqnum := by
    intro q hq hseq
    have hdup : isDuplicate h pkt = true :=
      isDuplicate_iff_mem.mpr (List.mem_map.mpr ⟨q, hq, hseq⟩)
    rw [hnew] at hdup
    cases hdup
  rw [rtake_append]
  by_cases h18 : 18 ≤ since.length
  · rw [if_pos h18]
    simp [Forgotten, h18]
  · have hall : since.rtake 18 = since := by
      rw [List.rtake, show since.length - 18 = 0 by omega, List.drop_zero]
    have hroom : ∃ n, 18 - since.length = n + 1 := ⟨17 - since.length, by omega⟩
    obtain ⟨n, hn⟩ := hroom
    rw [if_neg h18, Forgotten, hall, hn]
    by_cases hrel : pkt.reliable = true
    · simp only [accept, hrel, if_true, List.rtake_concat_succ]
      simp [h18]
    · simp only [accept, hrel, Bool.false_eq_true, if_false]
      have hnot : ∀ q ∈ h.acksleftRx.rtake (n + 1), q.seqnum ≠ pkt.seqnum := fun q hq =>
        hno q (List.mem_of_mem_drop hq)
      simp only [List.map_append, List.mem_append, List.mem_map]
      grind

/-- **What a failed send leaves behind**, in every state a Java handler reaches. A packet whose first
send failed is never new to `SendPacket` again. A packet whose explicit ack failed is returned from a
later copy exactly if the handler has forgotten it by then. -/
theorem recovers_iff (l : List HandlerCall) (h : UDPHandler)
    (hrun : run (handlerStep .java) newUDPHandler l = some h) :
    (∀ pkt call, pkt.attempts = 0 → pkt.reliable = true →
      (sendPacket .java call h pkt).exn = some .io →
        ∀ call' h', ¬ ActsAsFirst call' h' (sendPacket .java call h pkt).pkt) ∧
    ∀ k call ref ackref data junk pkt, FailedRead k call h data junk pkt →
      (readPacket .java k call h ref ackref data junk).result = .error .io ∧
      ∀ l' h', run (handlerStep .java) (readPacket .java k call h ref ackref data junk).handler l' =
          some h' →
        ∀ call' ref' ackref', call'.sent = true →
          ((readPacket .java k call' h' ref' ackref' data junk).result =
              .ok (some { pkt with ref := ref' }) ↔
            Forgotten pkt
              (addedBy (readPacket .java k call h ref ackref data junk).handler l')) := by
  refine ⟨fun pkt call hpkt _ _ call' h' => not_actsAsFirst call call' h h' hpkt, ?_⟩
  intro k call ref ackref data junk pkt hread
  refine ⟨readPacket_fails hread ref ackref, ?_⟩
  intro l' h' hrun' call' ref' ackref' hcall'
  have hlen := rx_length_run hrun
  have hdup : isDuplicate h { pkt with ref := ref } = false := hread.new
  have hrx := readPacket_rx hread.decode call h ref ackref
  rw [afterPacket, hdup, if_neg (by decide)] at hrx
  have hlen' : (readPacket .java k call h ref ackref data junk).handler.acksleftRx.length ≤ 18 := by
    rw [readPacket_rx hread.decode]
    have hone := rx_run (l := [.read call k ref ackref data junk]) hlen rfl
    rw [← readPacket_rx hread.decode, hone, length_rtake]
    omega
  have hseq := seqnum_mem_since hdup
    (addedBy (readPacket .java k call h ref ackref data junk).handler l')
  rw [← hrx, ← rx_run hlen' hrun', ← isDuplicate_iff_mem] at hseq
  have hdup' : isDuplicate h' { pkt with ref := ref } = isDuplicate h' pkt := rfl
  rw [readPacket_returns_iff hcall' hread.decode, ← Bool.not_eq_true, ← hdup', hseq, not_not]
  exact Iff.rfl

/-- A packet with number 1 that asks for an ack, with these flags besides. -/
def asker (flags : UInt8) : AbstractPacket :=
  { newNetLibPacket 0 5 [] (flags ||| flagExplicitack) with seqnum := 1 }

/-- Its datagram. -/
def askerBytes (flags : UInt8) : List UInt8 :=
  netlibBytes packetVersion 5 (flags ||| flagExplicitack) 1 0 0 0 0 []

/-- The handler after the failed read of the packet. -/
def afterAsker (flags : UInt8) : UDPHandler :=
  (readPacket .java .netlib ⟨0, 0, false⟩ newUDPHandler 0 1 (askerBytes flags) fun _ => 0).handler

/-- A failed first send, and the failed read of an unreliable packet with a copy behind it. -/
theorem recovers_unreliable :
    ¬ ActsAsFirst ⟨1, 1, true⟩ newUDPHandler
        (sendPacket .java ⟨0, 0, false⟩ newUDPHandler (newNetLibPacket 0 5 [] 0)).pkt ∧
      (readPacket .java .netlib ⟨1, 1, true⟩ (afterAsker flagUnreliable) 2 3
        (askerBytes flagUnreliable) fun _ => 0).result =
          .ok (some { asker flagUnreliable with ref := 2 }) := by
  obtain ⟨hsend, hread⟩ := recovers_iff [] newUDPHandler rfl
  refine ⟨hsend (newNetLibPacket 0 5 [] 0) ⟨0, 0, false⟩ rfl (by decide) (by decide) _ _, ?_⟩
  have hfailed : FailedRead .netlib ⟨0, 0, false⟩ newUDPHandler (askerBytes flagUnreliable)
      (fun _ => 0) (asker flagUnreliable) := ⟨rfl, by decide, by decide, rfl⟩
  have hcopy := (hread .netlib _ 0 1 _ _ _ hfailed).2 [] (afterAsker flagUnreliable) rfl ⟨1, 1, true⟩ 2 3 rfl
  exact hcopy.mpr ⟨Or.inl (by decide), by simp [addedBy]⟩

/-- A failed first send does not act as one later, and the copy of a reliable packet that comes in
after its failed read is dropped. -/
theorem not_recovers_reliable :
    (¬ ∀ l h pkt call, run (handlerStep .java) newUDPHandler l = some h → pkt.attempts = 0 →
      pkt.reliable = true → (sendPacket .java call h pkt).exn = some .io →
        ActsAsFirst ⟨1, 1, true⟩ h (sendPacket .java call h pkt).pkt) ∧
    ¬ ∀ l h k call data junk pkt, run (handlerStep .java) newUDPHandler l = some h →
      FailedRead k call h data junk pkt →
        (readPacket .java k ⟨1, 1, true⟩ (readPacket .java k call h 0 1 data junk).handler 2 3 data
          junk).result = .ok (some { pkt with ref := 2 }) := by
  constructor
  · intro hall
    have hfirst := (hall [] newUDPHandler (newNetLibPacket 0 5 [] 0) ⟨0, 0, false⟩ rfl rfl (by decide)
      (by decide)).localseqnum
    revert hfirst
    decide +kernel
  · intro hall
    have hcopy := hall [] newUDPHandler .netlib ⟨0, 0, false⟩ (askerBytes 0) (fun _ => 0) (asker 0) rfl
      ⟨rfl, by decide, by decide, rfl⟩
    cases hcopy

end N64NetLib.Udp.SendFailure
