import N64NetLib.Udp.Resend

/-! # What the ack fields say

The ack number `a` and the bitfield `f` of a packet are meant to say: `a` was received, and of the 16
numbers in front of it those with a set bit (`Acks`). `IsAcked` reads the fields, `SendPacket` writes
them, and both shift a one by the distance less one without looking at the distance first. So a number
further back than 16 is not left alone: Java wraps the count and reads or sets a bit that belongs to
another number, C++ is undefined from a count of 32 on.

* reading: `isAcked_exact_iff`;
* writing: `ackbitfield_exact_iff`, for the handler states that runs reach;
* answering: `acknowledged_iff`, whether the ack packet for a received packet has it in its fields. -/

namespace N64NetLib.Udp.AckFields

open N64NetLib.Lib.Run N64NetLib.Packet N64NetLib.Packet.Basic N64NetLib.Packet.Sequence
open N64NetLib.Udp.Handler N64NetLib.Udp.Resend

/-- **What the ack fields mean**: the number is the ack number, or one of the 16 in front of it with
its bit set. -/
def Acks (ack ackbitfield n : BitVec 16) : Prop :=
  n = ack ∨ 1 ≤ dist ack n ∧ dist ack n ≤ 16 ∧ ackbitfield.getLsbD (dist ack n - 1) = true

/-- C++ defines the shift of a one by `SequenceDelta(s1, s2) - 1`, and Java every shift. -/
def ShiftDefined : Lang → BitVec 16 → BitVec 16 → Prop
  | .java, _, _ => True
  | .cpp _, s1, s2 =>
    0 ≤ cppSequenceDelta (s1.setWidth 32) (s2.setWidth 32) - 1 ∧
      cppSequenceDelta (s1.setWidth 32) (s2.setWidth 32) - 1 < 32

theorem shiftDefined_cpp (host : Host) {s1 s2 : BitVec 16} (hne : s1 ≠ s2) :
    ShiftDefined (.cpp host) s1 s2 ↔ dist s1 s2 ≤ 32 := by
  have h0 : dist s1 s2 ≠ 0 := fun h => hne (dist_eq_zero.mp h)
  rw [ShiftDefined, cppSequenceDelta_eq]
  omega

/-! ### Reading -/

/-- `IsAcked` does what it should for the number `n`: its shift is defined, and it says what the
fields mean. -/
def Exact (lang : Lang) (ack ackbitfield n : BitVec 16) : Prop :=
  (ack ≠ n → ShiftDefined lang ack n) ∧
    (lang.isAcked ack ackbitfield n = true ↔ Acks ack ackbitfield n)

/-- The number is at most 16 behind, or the bit it is taken for is clear. In Java this is the bit of
the count modulo 32, and the sign bit from 16 on; in C++ it is clear up to 32 behind. -/
def ReadsClear : Lang → BitVec 16 → BitVec 16 → BitVec 16 → Prop
  | .java, ack, ackbitfield, n =>
    dist ack n ≤ 16 ∨ ackbitfield.getLsbD (min ((dist ack n - 1) % 32) 15) = false
  | .cpp _, ack, _, n => dist ack n ≤ 32

theorem javaShiftCount {d : ℕ} (hd : d ≠ 0) : (((d : ℤ) - 1) % 32).toNat = (d - 1) % 32 := by
  omega

/-- The bit that Java tests. -/
theorem javaIsAcked_iff {ack ackbitfield n : BitVec 16} (hne : ack ≠ n) :
    javaIsAcked ack ackbitfield n = true ↔
      ackbitfield.getLsbD (min ((dist ack n - 1) % 32) 15) = true := by
  have h0 : dist ack n ≠ 0 := fun h => hne (dist_eq_zero.mp h)
  have hlt : (dist ack n - 1) % 32 < 32 := Nat.mod_lt _ (by omega)
  rw [javaIsAcked, if_neg hne, decide_eq_true_iff, javaSequenceDelta_eq, javaShiftOne,
    javaShiftCount h0, and_shiftLeft_ne_zero hlt, BitVec.getLsbD_signExtend]
  by_cases h16 : (dist ack n - 1) % 32 < 16
  · have hmin : min ((dist ack n - 1) % 32) 15 = (dist ack n - 1) % 32 := by omega
    simp [h16, hlt, hmin]
  · have hmin : min ((dist ack n - 1) % 32) 15 = 15 := by omega
    simp [h16, hlt, hmin, BitVec.msb_eq_getLsbD_last]

/-- The bit that C++ tests, as long as the shift is defined. -/
theorem cppIsAcked_iff (host : Host) {ack ackbitfield n : BitVec 16} (hne : ack ≠ n)
    (hd : dist ack n ≤ 32) :
    cppIsAcked host ack ackbitfield n = true ↔ ackbitfield.getLsbD (dist ack n - 1) = true := by
  have h0 : dist ack n ≠ 0 := fun h => hne (dist_eq_zero.mp h)
  have hk : (dist ack n : ℤ) - 1 = ((dist ack n - 1 : ℕ) : ℤ) := by omega
  have hlt : dist ack n - 1 < 32 := by omega
  rw [cppIsAcked, if_neg hne, decide_eq_true_iff, cppSequenceDelta_eq, hk, cppShiftOne_of_lt host hlt,
    and_shiftLeft_ne_zero hlt, BitVec.getLsbD_setWidth]
  simp [hlt]

theorem acks_of_ne {ack ackbitfield n : BitVec 16} (hne : ack ≠ n) :
    Acks ack ackbitfield n ↔
      dist ack n ≤ 16 ∧ ackbitfield.getLsbD (dist ack n - 1) = true := by
  have h0 : dist ack n ≠ 0 := fun h => hne (dist_eq_zero.mp h)
  have h1 : 1 ≤ dist ack n := by omega
  simp only [Acks, Ne.symm hne, false_or, h1, true_and]

/-- **`IsAcked`**: it decodes the fields exactly for the numbers at most 16 behind, and for those
further back whose wrapped bit is clear. -/
theorem isAcked_exact_iff (lang : Lang) (ack ackbitfield n : BitVec 16) :
    Exact lang ack ackbitfield n ↔ ReadsClear lang ack ackbitfield n := by
  by_cases hne : ack = n
  · subst hne
    have h0 : dist ack ack = 0 := dist_eq_zero.mpr rfl
    cases lang <;> simp [Exact, ReadsClear, Acks, Lang.isAcked, javaIsAcked, cppIsAcked, h0]
  · cases lang with
    | java =>
      simp only [Exact, ReadsClear, ShiftDefined, Lang.isAcked, javaIsAcked_iff hne, acks_of_ne hne,
        implies_true, true_and]
      by_cases h16 : dist ack n ≤ 16
      · have hmin : min ((dist ack n - 1) % 32) 15 = dist ack n - 1 := by
          have h0 : dist ack n ≠ 0 := fun h => hne (dist_eq_zero.mp h)
          omega
        simp [h16, hmin]
      · simp [h16]
    | cpp host =>
      simp only [Exact, ReadsClear, shiftDefined_cpp host hne, Lang.isAcked, acks_of_ne hne, Ne, hne,
        not_false_eq_true, true_implies]
      constructor
      · exact fun h => h.1
      · intro h32
        refine ⟨h32, ?_⟩
        rw [cppIsAcked_iff host hne h32]
        constructor
        · intro hbit
          have hlt : dist ack n - 1 < 16 := BitVec.lt_of_getLsbD hbit
          exact ⟨by omega, hbit⟩
        · exact fun h => h.2

/-- The first bit acknowledges the number in front of the ack number, and in Java also the one 33
behind it. -/
theorem not_exact_wrapped : ¬ ∀ lang ack ackbitfield n, Exact lang ack ackbitfield n := by
  intro hall
  have hexact := (hall .java 33 1 0).2.mp (by decide)
  revert hexact
  unfold Acks
  decide

/-! ### Writing -/

theorem ne_of_sequenceGreaterThan {lang : Lang} {s1 s2 : BitVec 16}
    (h : lang.sequenceGreaterThan s1 s2 = true) : s1 ≠ s2 := by
  rintro rfl
  rw [lang.not_sequenceGreaterThan_self] at h
  cases h

/-- The number `i + 1` behind. -/
theorem dist_eq_succ {remote n : BitVec 16} {i : ℕ} (hi : i < 16) :
    dist remote n = i + 1 ↔ n = remote - 1 - BitVec.ofNat 16 i := by
  have h1 := remote.isLt
  have h2 := n.isLt
  have hd := dist_cases remote n
  have hone : (1 : BitVec 16).toNat = 1 := rfl
  rw [← BitVec.toNat_inj, BitVec.toNat_sub, BitVec.toNat_sub, BitVec.toNat_ofNat, hone]
  omega

/-- **The ack bitfield of `SendPacket` is exact** for this handler: bit `i` says whether the received
list has a reliable packet with the number `i + 1` behind `remoteseqnum`, and a packet further back
than 16 sets no bit and has a shift that is defined. -/
structure BitsExact (lang : Lang) (h : UDPHandler) (ackbitfield : BitVec 16) : Prop where
  near : ∀ i < 16, ackbitfield.getLsbD i = true ↔
    ∃ x ∈ h.acksleftRx, x.reliable ∧ x.seqnum = h.remoteseqnum - 1 - BitVec.ofNat 16 i
  far : ∀ x ∈ h.acksleftRx, lang.sequenceGreaterThan h.remoteseqnum x.seqnum →
    16 < dist h.remoteseqnum x.seqnum → lang.ackBit h.remoteseqnum x.seqnum = 0
  defined : ∀ x ∈ h.acksleftRx, lang.sequenceGreaterThan h.remoteseqnum x.seqnum →
    ShiftDefined lang h.remoteseqnum x.seqnum

/-- A packet at this distance sets no bit but its own: it is near, or its bit is cut off. -/
def SetsOwn : Lang → ℕ → Prop
  | .java, d => d ≤ 16 ∨ 16 ≤ (d - 1) % 32
  | .cpp _, d => d ≤ 32

instance (lang : Lang) (d : ℕ) : Decidable (SetsOwn lang d) := by
  unfold SetsOwn; cases lang <;> infer_instance

theorem setWidth_shiftOne {k : ℕ} (hk : k < 32) :
    (1#32 <<< k).setWidth 16 = 0 ↔ 16 ≤ k := by
  constructor
  · intro h
    by_contra hlt
    have hbit := congrArg (·.getLsbD k) h
    simp [show k < 16 by omega] at hbit
  · intro h16
    refine BitVec.eq_of_getLsbD_eq fun i hi => ?_
    rw [BitVec.getLsbD_setWidth, BitVec.getLsbD_shiftLeft]
    simp
    omega

/-- A far packet sets no bit, and defines its shift, exactly if its bit is cut off. -/
theorem ackBit_far {lang : Lang} {s1 s2 : BitVec 16} (hd : 16 < dist s1 s2) :
    (lang.ackBit s1 s2 = 0 ∧ ShiftDefined lang s1 s2) ↔ SetsOwn lang (dist s1 s2) := by
  have h0 : dist s1 s2 ≠ 0 := by omega
  cases lang with
  | java =>
    have hlt : (dist s1 s2 - 1) % 32 < 32 := Nat.mod_lt _ (by omega)
    have hnear : ¬ dist s1 s2 ≤ 16 := by omega
    simp only [Lang.ackBit, javaSequenceDelta_eq, javaShiftOne, javaShiftCount h0,
      setWidth_shiftOne hlt, ShiftDefined, and_true, SetsOwn, hnear, false_or]
  | cpp host =>
    have hne : s1 ≠ s2 := fun h => h0 (dist_eq_zero.mpr h)
    rw [shiftDefined_cpp host hne, SetsOwn, and_iff_right_iff_imp]
    intro h32
    have hk : (dist s1 s2 : ℤ) - 1 = ((dist s1 s2 - 1 : ℕ) : ℤ) := by omega
    rw [Lang.ackBit, cppSequenceDelta_eq, hk, cppShiftOne_of_lt host (by omega),
      setWidth_shiftOne (by omega)]
    omega

/-- A near packet sets the bit of its distance. -/
theorem getLsbD_ackBit_near {lang : Lang} {s1 s2 : BitVec 16} {i : ℕ} (hne : s1 ≠ s2)
    (hd : dist s1 s2 ≤ 16) (hi : i < 16) :
    (lang.ackBit s1 s2).getLsbD i = true ↔ dist s1 s2 = i + 1 := by
  have h0 : dist s1 s2 ≠ 0 := fun h => hne (dist_eq_zero.mp h)
  rw [Lang.ackBit_of_near hne hd, BitVec.getLsbD_setWidth, BitVec.getLsbD_shiftLeft]
  simp [hi]
  omega

theorem shiftDefined_near {lang : Lang} {s1 s2 : BitVec 16} (hne : s1 ≠ s2)
    (hd : dist s1 s2 ≤ 16) : ShiftDefined lang s1 s2 := by
  cases lang with
  | java => trivial
  | cpp host => exact (shiftDefined_cpp host hne).mpr (by omega)

/-- The received list holds reliable packets only. -/
def RxReliable (h : UDPHandler) : Prop := ∀ x ∈ h.acksleftRx, x.reliable = true

/-- The bitfield of one list. -/
theorem bitsExact_iff {lang : Lang} {h : UDPHandler} (hrel : RxReliable h) :
    BitsExact lang h (ackBits lang h.remoteseqnum h.acksleftRx) ↔
      ∀ x ∈ h.acksleftRx, lang.sequenceGreaterThan h.remoteseqnum x.seqnum →
        SetsOwn lang (dist h.remoteseqnum x.seqnum) := by
  constructor
  · intro hexact x hx hgt
    by_cases hd : dist h.remoteseqnum x.seqnum ≤ 16
    · cases lang with
      | java => exact Or.inl hd
      | cpp host => exact hd.trans (by omega)
    · have hfar : 16 < dist h.remoteseqnum x.seqnum := by omega
      exact (ackBit_far hfar).mp ⟨hexact.far x hx hgt hfar, hexact.defined x hx hgt⟩
  · intro hown
    refine ⟨fun i hi => ?_, fun x hx hgt hfar => ((ackBit_far hfar).mpr (hown x hx hgt)).1,
      fun x hx hgt => ?_⟩
    · rw [ackBits_iff]
      constructor
      · rintro ⟨x, hx, hgt, hbit⟩
        by_cases hd : dist h.remoteseqnum x.seqnum ≤ 16
        · have hdist := (getLsbD_ackBit_near (ne_of_sequenceGreaterThan hgt) hd hi).mp hbit
          exact ⟨x, hx, hrel x hx, (dist_eq_succ hi).mp hdist⟩
        · have hzero := ((ackBit_far (by omega)).mpr (hown x hx hgt)).1
          rw [hzero, BitVec.ofNat_eq_ofNat, BitVec.getLsbD_zero] at hbit
          cases hbit
      · rintro ⟨x, hx, -, hseq⟩
        have hdist := (dist_eq_succ hi).mpr hseq
        have hgt := lang.sequenceGreaterThan_of_dist (by omega : 1 ≤ dist h.remoteseqnum x.seqnum)
          (by omega)
        exact ⟨x, hx, hgt,
          (getLsbD_ackBit_near (ne_of_sequenceGreaterThan hgt) (by omega) hi).mpr hdist⟩
    · by_cases hd : dist h.remoteseqnum x.seqnum ≤ 16
      · exact shiftDefined_near (ne_of_sequenceGreaterThan hgt) hd
      · exact ((ackBit_far (by omega)).mpr (hown x hx hgt)).2

/-! ### What a handler keeps of received packets -/

/-- What a handler keeps of the packets it received. -/
def noted (h : UDPHandler) : BitVec 16 × List AbstractPacket := (h.remoteseqnum, h.acksleftRx)

theorem sendPacket_noted (lang : Lang) (call : Call) (h : UDPHandler) (pkt : AbstractPacket) :
    noted (sendPacket lang call h pkt).handler = noted h := by
  unfold sendPacket
  dsimp only
  split
  · rfl
  · split
    · rfl
    · split_ifs <;> rfl

theorem resendLoop_noted (lang : Lang) (calls : ℕ → Call) (h : UDPHandler) :
    ∀ (i : ℕ) (tx : List AbstractPacket), noted (resendLoop lang calls h i tx).handler = noted h
  | _, [] => rfl
  | i, pkt2ack :: tx => by
    have hsend := sendPacket_noted lang (calls i) { h with acksleftTx := pkt2ack :: tx } pkt2ack
    have hrest := resendLoop_noted lang calls h (i + 1) tx
    unfold resendLoop
    split_ifs
    · dsimp only
      split
      · exact hsend
      · split_ifs
        · exact hsend
        · exact hrest
    · exact hrest

/-- A read keeps of the packet what `afterPacket` keeps, also when the ack packet fails. -/
theorem readPacket_noted {lang : Lang} {k : Kind} {data : List UInt8} {junk : ℕ → UInt8}
    {pkt : AbstractPacket} (hpkt : lang.decode k data junk = .ok (some pkt)) (call : Call)
    (h : UDPHandler) (ref ackref : ℕ) :
    noted (readPacket lang k call h ref ackref data junk).handler =
      noted (afterPacket lang h { pkt with ref := ref }) := by
  have hnoted : noted (handlePacketSequence lang call h { pkt with ref := ref }
      (newAckbeat ackref k)).handler = noted (afterPacket lang h { pkt with ref := ref }) := by
    unfold handlePacketSequence afterPacket sendAckbeat
    split_ifs <;> simp only [sendPacket_noted]
  simp only [readPacket, hpkt]
  split <;> exact hnoted

theorem sendPacket_rx (lang : Lang) (call : Call) (h : UDPHandler) (pkt : AbstractPacket) :
    (sendPacket lang call h pkt).handler.acksleftRx = h.acksleftRx :=
  congrArg Prod.snd (sendPacket_noted lang call h pkt)

theorem resendLoop_rx (lang : Lang) (calls : ℕ → Call) (h : UDPHandler) (i : ℕ)
    (tx : List AbstractPacket) : (resendLoop lang calls h i tx).handler.acksleftRx = h.acksleftRx :=
  congrArg Prod.snd (resendLoop_noted lang calls h i tx)

theorem readPacket_rx {lang : Lang} {k : Kind} {data : List UInt8} {junk : ℕ → UInt8}
    {pkt : AbstractPacket} (hpkt : lang.decode k data junk = .ok (some pkt)) (call : Call)
    (h : UDPHandler) (ref ackref : ℕ) :
    (readPacket lang k call h ref ackref data junk).handler.acksleftRx =
      (afterPacket lang h { pkt with ref := ref }).acksleftRx :=
  congrArg Prod.snd (readPacket_noted hpkt call h ref ackref)

/-- The packet that `HandlePacketSequence` accepts in a call: one that is no duplicate, also if the ack
packet that it asks for fails. -/
def accepts (lang : Lang) (h : UDPHandler) : HandlerCall → Option AbstractPacket
  | .read _ k ref _ data junk =>
    match lang.decode k data junk with
    | .ok (some pkt) => if isDuplicate h pkt then none else some { pkt with ref := ref }
    | _ => none
  | _ => none

/-- **What a call keeps of received packets**: of one that is accepted what `accept` keeps, and of all
others nothing. -/
theorem noted_step {lang : Lang} {h h' : UDPHandler} {a : HandlerCall}
    (hstep : handlerStep lang h a = some h') :
    noted h' = noted ((accepts lang h a).elim h (accept lang h)) := by
  cases a with
  | send call pkt =>
    obtain rfl := Option.some.inj hstep
    exact sendPacket_noted lang call h pkt
  | resend calls =>
    obtain rfl := Option.some.inj hstep
    exact resendLoop_noted lang calls h 0 h.acksleftTx
  | read call k ref ackref data junk =>
    obtain rfl := Option.some.inj hstep
    by_cases hpkt : ∃ pkt, lang.decode k data junk = .ok (some pkt)
    · obtain ⟨pkt, hpkt⟩ := hpkt
      rw [readPacket_noted hpkt]
      have hdup : isDuplicate h { pkt with ref := ref } = isDuplicate h pkt := rfl
      simp only [accepts, hpkt, afterPacket, hdup]
      split_ifs <;> rfl
    · have hno := readPacket_none call (fun q hq => hpkt ⟨q, hq⟩) h ref ackref
      have hnone : accepts lang h (.read call k ref ackref data junk) = none := by
        simp only [accepts]
        split
        · next pkt hd => exact absurd ⟨pkt, hd⟩ hpkt
        · rfl
      rw [hno.1, hnone]
      rfl

/-- If `HandlePacketSequence` returns, it returns whether the packet is accepted. -/
theorem isSome_accepts {lang : Lang} {h : UDPHandler} {call : Call} {k : Kind} {ref ackref : ℕ}
    {data : List UInt8} {junk : ℕ → UInt8} {ret : Bool}
    (hret : (readPacket lang k call h ref ackref data junk).verdict = some ret) :
    (accepts lang h (.read call k ref ackref data junk)).isSome = ret := by
  unfold readPacket at hret
  split at hret
  · cases hret
  · cases hret
  · next pkt hd =>
    have hdup : isDuplicate h { pkt with ref := ref } = isDuplicate h pkt := rfl
    have hsome : (accepts lang h (.read call k ref ackref data junk)).isSome = !isDuplicate h pkt := by
      simp only [accepts, hd]
      split_ifs with hnew <;> simp [hnew]
    dsimp only at hret
    split at hret
    · cases hret
    · next hresult =>
      rw [hsome, ← hdup, ← handlePacketSequence_ret hresult]
      exact Option.some.inj hret
    · next hresult =>
      rw [hsome, ← hdup, ← handlePacketSequence_ret hresult]
      exact Option.some.inj hret

theorem rxReliable_accept (lang : Lang) {h : UDPHandler} (hrel : RxReliable h) (pkt : AbstractPacket) :
    RxReliable (accept lang h pkt) := by
  intro x hx
  simp only [accept] at hx
  split_ifs at hx with hpkt
  · rcases List.mem_append.mp hx with hx | hx
    · exact hrel x (List.mem_of_mem_tail hx)
    · exact List.mem_singleton.mp hx ▸ hpkt
  · rcases List.mem_append.mp hx with hx | hx
    · exact hrel x hx
    · exact List.mem_singleton.mp hx ▸ hpkt
  · exact hrel x hx

/-- A call of the handler puts reliable packets into the list only. -/
theorem rxReliable_step {lang : Lang} {h h' : UDPHandler} {a : HandlerCall} (hrel : RxReliable h)
    (hstep : handlerStep lang h a = some h') : RxReliable h' := by
  have hrx : h'.acksleftRx = ((accepts lang h a).elim h (accept lang h)).acksleftRx :=
    congrArg Prod.snd (noted_step hstep)
  intro x hx
  rw [hrx] at hx
  cases hacc : accepts lang h a with
  | none => exact hrel x (by simpa [hacc] using hx)
  | some pkt => exact rxReliable_accept lang hrel pkt x (by simpa [hacc] using hx)

theorem rxReliable_run {lang : Lang} {l : List HandlerCall} {h : UDPHandler}
    (hrun : run (handlerStep lang) newUDPHandler l = some h) : RxReliable h :=
  run_invariant (I := RxReliable) (fun _ _ _ hrel hstep => rxReliable_step hrel hstep)
    (fun x hx => by simp [newUDPHandler] at hx) hrun

/-- The packet that `SendPacket` leaves behind the first time, whether it went out or not. -/
theorem sendPacket_pkt (lang : Lang) (call : Call) (h : UDPHandler) {pkt : AbstractPacket}
    (hpkt : pkt.attempts = 0) : (sendPacket lang call h pkt).pkt = firstSent lang call h pkt := by
  have hmax : ¬ (1 : ℤ) > maxResend := by decide
  simp only [sendPacket, hpkt, Lang.updateSendAttempt_zero, hmax, if_false, if_true]
  split
  · rfl
  · split_ifs <;> rfl

/-- **The ack bitfield of `SendPacket`**: in every state that a handler reaches, a packet sent for the
first time carries an exact bitfield exactly if every received packet behind `remoteseqnum` sets no
bit but its own. -/
theorem ackbitfield_exact_iff (lang : Lang) (l : List HandlerCall) (h : UDPHandler) (call : Call)
    (pkt : AbstractPacket) (hrun : run (handlerStep lang) newUDPHandler l = some h)
    (hpkt : pkt.attempts = 0) :
    BitsExact lang h (sendPacket lang call h pkt).pkt.ackbitfield ↔
      ∀ x ∈ h.acksleftRx, lang.sequenceGreaterThan h.remoteseqnum x.seqnum →
        SetsOwn lang (dist h.remoteseqnum x.seqnum) := by
  rw [sendPacket_pkt lang call h hpkt]
  exact bitsExact_iff (rxReliable_run hrun)

/-- A handler reads a reliable packet with this number. -/
def hear (seqnum : BitVec 16) : HandlerCall :=
  .read ⟨0, 0, true⟩ .netlib 0 1 (netlibBytes packetVersion 5 0 seqnum 0 0 0 0 []) fun _ => 0

/-- The Java handler after these packets. -/
def heard (seqnums : List (BitVec 16)) : UDPHandler :=
  (run (handlerStep .java) newUDPHandler (seqnums.map hear)).getD newUDPHandler

theorem ackbitfield_exact_near :
    BitsExact .java (heard [0, 2]) (sendPacket .java ⟨0, 0, true⟩ (heard [0, 2])
      (newNetLibPacket 2 5 [] 0)).pkt.ackbitfield :=
  (ackbitfield_exact_iff .java [hear 0, hear 2] (heard [0, 2]) ⟨0, 0, true⟩
    (newNetLibPacket 2 5 [] 0) (by decide +kernel) rfl).mpr (by decide +kernel)

/-- Packet 0 and then packet 33 arrive, and the bit of packet 32 is set. -/
theorem not_ackbitfield_exact_gap :
    ¬ ∀ lang l h call pkt, run (handlerStep lang) newUDPHandler l = some h → pkt.attempts = 0 →
      BitsExact lang h (sendPacket lang call h pkt).pkt.ackbitfield := by
  intro hall
  have hexact := hall .java [hear 0, hear 33] (heard [0, 33]) ⟨0, 0, true⟩
    (newNetLibPacket 2 5 [] 0) (by decide +kernel) rfl
  have hbit := (hexact.near 0 (by omega)).mp (by decide +kernel)
  revert hbit
  decide +kernel

/-! ### Answering -/

/-- The ack packet that `HandlePacketSequence` gives to `SendPacket` when it answers a packet. -/
def answer (lang : Lang) (call : Call) (h : UDPHandler) (pkt : AbstractPacket) (ackref : ℕ)
    (k : Kind) : AbstractPacket :=
  (sendPacket lang call (afterPacket lang h pkt) (newAckbeat ackref k)).pkt

/-- Nothing else goes out. -/
theorem out_answer (lang : Lang) (call : Call) (h : UDPHandler) (pkt : AbstractPacket) (ackref : ℕ)
    (k : Kind) (d : Datagram)
    (hd : d ∈ (handlePacketSequence lang call h pkt (newAckbeat ackref k)).out) :
    d.pkt = answer lang call h pkt ackref k ∧ answers lang h pkt = true := by
  have hout : ∀ h', d ∈ (sendPacket lang call h' (newAckbeat ackref k)).out →
      d.pkt = (sendPacket lang call h' (newAckbeat ackref k)).pkt := by
    intro h' hd
    unfold sendPacket at hd ⊢
    dsimp only at hd ⊢
    split_ifs at hd ⊢ <;> (try split at hd) <;> simp_all
  unfold handlePacketSequence answer afterPacket answers sendAckbeat at *
  split_ifs at hd ⊢ with hdup hack hack
  · exact ⟨hout h hd, hack⟩
  · simp at hd
  · exact ⟨hout _ hd, hack⟩
  · simp at hd

/-- A packet in the list is in the fields exactly if it is at most 16 behind. -/
theorem acks_of_mem {lang : Lang} {remote : BitVec 16} {rx : List AbstractPacket}
    {x : AbstractPacket} (hx : x ∈ rx) :
    Acks remote (ackBits lang remote rx) x.seqnum ↔ dist remote x.seqnum ≤ 16 := by
  by_cases hne : remote = x.seqnum
  · have h0 : dist remote x.seqnum = 0 := dist_eq_zero.mpr hne
    rw [h0]
    simp [Acks, hne.symm]
  · rw [acks_of_ne hne, and_iff_left_iff_imp]
    intro hd
    have h0 : dist remote x.seqnum ≠ 0 := fun h => hne (dist_eq_zero.mp h)
    have hgt := lang.sequenceGreaterThan_of_dist (by omega : 1 ≤ dist remote x.seqnum) (by omega)
    have hbit : (lang.ackBit remote x.seqnum).getLsbD (dist remote x.seqnum - 1) = true :=
      (getLsbD_ackBit_near hne hd (by omega)).mpr (by omega)
    exact ackBits_iff.mpr ⟨x, hx, hgt, hbit⟩

/-- **Every answer acknowledges**: the ack packet sent for a duplicate, or for a reliable packet that
asks for it, has the packet in its fields. -/
def Acknowledged (lang : Lang) (call : Call) (h : UDPHandler) (pkt : AbstractPacket) (ackref : ℕ)
    (k : Kind) : Prop :=
  answers lang h pkt = true → isDuplicate h pkt = true ∨ pkt.reliable = true →
    Acks (answer lang call h pkt ackref k).ack (answer lang call h pkt ackref k).ackbitfield pkt.seqnum

/-- A packet that is answered is at most 16 behind `remoteseqnum`, or new and ahead of it. -/
def InWindow (lang : Lang) (h : UDPHandler) (pkt : AbstractPacket) : Prop :=
  answers lang h pkt = true → isDuplicate h pkt = true ∨ pkt.reliable = true →
    dist h.remoteseqnum pkt.seqnum ≤ 16 ∨
      isDuplicate h pkt = false ∧ lang.sequenceGreaterThan pkt.seqnum h.remoteseqnum = true

/-- **When an answer acknowledges**: for every state of the handler, exactly if the packet is in the
window. -/
theorem acknowledged_iff (lang : Lang) (call : Call) (h : UDPHandler) (pkt : AbstractPacket)
    (ackref : ℕ) (k : Kind) :
    Acknowledged lang call h pkt ackref k ↔ InWindow lang h pkt := by
  have hzero : (newAckbeat ackref k).attempts = 0 := by cases k <;> rfl
  refine imp_congr_right fun _ => imp_congr_right fun hpkt => ?_
  rw [answer, sendPacket_pkt lang call _ hzero]
  simp only [firstSent, afterPacket]
  by_cases hdup : isDuplicate h pkt = true
  · obtain ⟨x, hx, hseq⟩ := List.any_eq_true.mp hdup
    rw [if_pos hdup, ← of_decide_eq_true hseq, acks_of_mem hx]
    simp [hdup]
  · have hrel : pkt.reliable = true := hpkt.resolve_left hdup
    have hmem : pkt ∈ (accept lang h pkt).acksleftRx := by simp [accept, hrel]
    rw [if_neg hdup, acks_of_mem hmem]
    by_cases hgt : lang.sequenceGreaterThan pkt.seqnum h.remoteseqnum = true
    · have h0 : dist pkt.seqnum pkt.seqnum = 0 := dist_eq_zero.mpr rfl
      simp [accept, hgt, hdup, h0]
    · simp [accept, hgt]

/-- A reliable packet with this number that asks for an ack. -/
def asking (seqnum : BitVec 16) : AbstractPacket :=
  { newNetLibPacket 0 5 [] flagExplicitack with seqnum := seqnum }

/-- A new handler answers packet 40000 with an ack of packet 0. -/
theorem not_acknowledged_newHandler :
    ¬ ∀ lang l h call pkt ackref k, run (handlerStep lang) newUDPHandler l = some h →
      Acknowledged lang call h pkt ackref k := by
  intro hall
  have hacks := hall .java [] newUDPHandler ⟨0, 0, true⟩ (asking 40000) 1 .netlib rfl (by decide)
    (Or.inr (by decide))
  revert hacks
  unfold Acks
  decide +kernel

end N64NetLib.Udp.AckFields
