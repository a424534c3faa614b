import Mathlib.Data.BitVec
import Mathlib.Tactic

/-! # Sequence numbers

The sequence arithmetic of `AbstractPacket.java` and of `packets.cpp`. A sequence number is 16 bits
wide: Java keeps it as a signed short and widens it to an int, C++ as an unsigned short promoted to
an int, so the two languages do the same steps on different integers. `SequenceDelta` comes out the
same on both sides, the distance modulo 65536 (`javaSequenceDelta_eq`, `cppSequenceDelta_eq`), and so
does counting up (`javaAdvance_eq`, `cppAdvance_eq`).

`IsAcked` and the ack bitfield of `SendPacket` shift a one by that distance less one, which can be
anything up to 65534: Java takes the shift count modulo 32; in C++ a count of 32 or more is undefined,
and the model leaves the value to the host (`Host.shiftOut`). -/

namespace N64NetLib.Packet.Sequence

/-- What the C++ standard leaves to the machine: the value of `1 << k` for a count `k` outside
`0..31`, and how text that is not ASCII becomes a `wxString` and back. -/
structure Host where
  shiftOut : ℤ → BitVec 32
  mbDecode : List UInt8 → List Char
  mbEncode : List Char → ℕ → UInt8

/-- The x86 processors take a shift count modulo 32, as Java does. -/
def Host.x86 : Host := ⟨fun k => 1#32 <<< (k % 32).toNat, fun _ => [], fun _ _ => 0⟩

/-- `PACKET_MAXSEQNUM`, `MAX_SEQUENCENUM`. -/
def packetMaxSeqNum : ℤ := 0xFFFF

/-! ### Java -/

/-- `AbstractPacket.SequenceGreaterThan`, on ints. -/
def javaSequenceGreaterThan (s1 s2 : ℤ) : Bool :=
  (decide (s1 > s2) && decide (s1 - s2 ≤ packetMaxSeqNum / 2 + 1)) ||
    (decide (s1 < s2) && decide (s2 - s1 > packetMaxSeqNum / 2 + 1))

/-- `AbstractPacket.SequenceIncrement`. Java's remainder has the sign of the dividend. -/
def javaSequenceIncrement (seq : ℤ) : ℤ := (seq + 1).tmod (packetMaxSeqNum + 1)

/-- The short that goes into a packet after `SequenceIncrement` was called `k` times, from the int
`seq`. -/
def javaAdvance (seq : ℤ) (k : ℕ) : BitVec 16 := BitVec.ofInt 16 (javaSequenceIncrement^[k] seq)

/-- `AbstractPacket.SequenceDelta`. -/
def javaSequenceDelta (s1 s2 : ℤ) : ℤ :=
  let delta := s1 - s2
  if delta < 0 then delta + (packetMaxSeqNum + 1) else delta

/-- `1 << k` on Java's ints: only the low five bits of the count matter. -/
def javaShiftOne (k : ℤ) : BitVec 32 := 1#32 <<< (k % 32).toNat

/-- `AbstractPacket.IsAcked`, for a packet with these ack fields. -/
def javaIsAcked (ack ackbitfield number : BitVec 16) : Bool :=
  if ack = number then true
  else decide (ackbitfield.signExtend 32 &&&
    javaShiftOne (javaSequenceDelta ack.toInt number.toInt - 1) ≠ 0#32)

/-! ### C++ -/

/-- `sequence_greaterthan`. -/
def cppSequenceGreaterthan (s1 s2 : BitVec 16) : Bool :=
  let s1 : ℤ := s1.toNat
  let s2 : ℤ := s2.toNat
  (decide (s1 > s2) && decide (s1 - s2 ≤ packetMaxSeqNum / 2 + 1)) ||
    (decide (s1 < s2) && decide (s2 - s1 > packetMaxSeqNum / 2 + 1))

/-- `sequence_delta`: the difference of two `uint32_t` read as an int. -/
def cppSequenceDelta (s1 s2 : BitVec 32) : ℤ :=
  let delta := (s1 - s2).toInt
  if delta < 0 then delta + (packetMaxSeqNum + 1) else delta

/-- `sequence_increment`. -/
def cppSequenceIncrement (seqnum : BitVec 32) : BitVec 32 := (seqnum + 1) % 0x10000#32

/-- The number after `seqnum = sequence_increment(seqnum)` was run `k` times. -/
def cppAdvance (seqnum : BitVec 16) (k : ℕ) : BitVec 16 :=
  (fun seqnum => (cppSequenceIncrement (seqnum.setWidth 32)).setWidth 16)^[k] seqnum

/-- `1 << k` on C++'s ints. -/
def cppShiftOne (host : Host) (k : ℤ) : BitVec 32 :=
  if 0 ≤ k ∧ k < 32 then 1#32 <<< k.toNat else host.shiftOut k

/-- `AbstractPacket::IsAcked`. -/
def cppIsAcked (host : Host) (ack ackbitfield number : BitVec 16) : Bool :=
  if ack = number then true
  else decide (ackbitfield.setWidth 32 &&&
    cppShiftOne host (cppSequenceDelta (ack.setWidth 32) (number.setWidth 32) - 1) ≠ 0#32)

/-! ### The distance of two sequence numbers -/

/-- The distance from `n` forward to `a`, modulo 65536. -/
def dist (a n : BitVec 16) : ℕ := (a - n).toNat

theorem dist_eq_zero {a n : BitVec 16} : dist a n = 0 ↔ a = n := by
  have h1 := a.isLt
  have h2 := n.isLt
  rw [dist, BitVec.toNat_sub, ← BitVec.toNat_inj]
  omega

theorem dist_left_inj {a n m : BitVec 16} : dist a n = dist a m ↔ n = m := by
  have h1 := a.isLt
  have h2 := n.isLt
  have h3 := m.isLt
  rw [dist, dist, BitVec.toNat_sub, BitVec.toNat_sub, ← BitVec.toNat_inj]
  omega

theorem dist_add (s : BitVec 16) {k : ℕ} (hk : k < 65536) : dist (s + BitVec.ofNat 16 k) s = k := by
  rw [dist, add_sub_cancel_left, BitVec.toNat_ofNat, Nat.mod_eq_of_lt hk]

/-- The distance, on numbers: it wraps where `s1` is the smaller one. -/
theorem dist_cases (s1 s2 : BitVec 16) :
    s2.toNat ≤ s1.toNat ∧ dist s1 s2 = s1.toNat - s2.toNat ∨
      s1.toNat < s2.toNat ∧ dist s1 s2 = 65536 - s2.toNat + s1.toNat := by
  have hs1 := s1.isLt
  have hs2 := s2.isLt
  rw [dist, BitVec.toNat_sub]
  omega

theorem dist_behind (s : BitVec 16) {k : ℕ} (h1 : 1 ≤ k) (hk : k < 65536) :
    dist s (s + BitVec.ofNat 16 k) = 65536 - k := by
  have hback := dist_add s hk
  rcases dist_cases s (s + BitVec.ofNat 16 k) with ⟨_, hd⟩ | ⟨_, hd⟩ <;>
    rcases dist_cases (s + BitVec.ofNat 16 k) s with ⟨_, hd'⟩ | ⟨_, hd'⟩ <;> omega

theorem javaSequenceDelta_eq (a n : BitVec 16) :
    javaSequenceDelta a.toInt n.toInt = dist a n := by
  have h1 := a.isLt
  have h2 := n.isLt
  simp only [javaSequenceDelta, dist, packetMaxSeqNum]
  rw [BitVec.toNat_sub, BitVec.toInt_eq_toNat_cond, BitVec.toInt_eq_toNat_cond]
  split_ifs <;> omega

theorem cppSequenceDelta_eq (a n : BitVec 16) :
    cppSequenceDelta (a.setWidth 32) (n.setWidth 32) = dist a n := by
  have h1 := a.isLt
  have h2 := n.isLt
  have hd : (a.setWidth 32 - n.setWidth 32).toInt = (a.toNat : ℤ) - n.toNat := by
    rw [BitVec.toInt_eq_toNat_cond, BitVec.toNat_sub]
    simp only [BitVec.toNat_setWidth]
    split_ifs <;> omega
  simp only [cppSequenceDelta, dist, packetMaxSeqNum, hd]
  rw [BitVec.toNat_sub]
  split_ifs <;> omega

/-- Counting up one, whichever integer carries the number. -/
theorem ofInt_javaSequenceIncrement (seq : ℤ) :
    BitVec.ofInt 16 (javaSequenceIncrement seq) = BitVec.ofInt 16 seq + 1 := by
  have hmod : javaSequenceIncrement seq % 65536 = (seq + 1) % 65536 := by
    rw [javaSequenceIncrement, packetMaxSeqNum, Int.tmod_def]
    omega
  have hone : (1 : BitVec 16) = BitVec.ofInt 16 1 := rfl
  rw [hone, ← BitVec.ofInt_add, ← BitVec.toNat_inj, BitVec.toNat_ofInt, BitVec.toNat_ofInt]
  exact congrArg Int.toNat hmod

theorem javaSequenceIncrement_eq (s : BitVec 16) :
    BitVec.ofInt 16 (javaSequenceIncrement s.toNat) = s + 1 := by
  rw [ofInt_javaSequenceIncrement, BitVec.ofInt_natCast, BitVec.ofNat_toNat, BitVec.setWidth_eq]

theorem cppSequenceIncrement_eq (s : BitVec 16) :
    (cppSequenceIncrement (s.setWidth 32)).setWidth 16 = s + 1 := by
  have h := s.isLt
  rw [← BitVec.toNat_inj]
  simp only [cppSequenceIncrement, BitVec.toNat_setWidth, BitVec.toNat_umod, BitVec.toNat_add]
  simp

/-- Counting up `k`. -/
theorem javaAdvance_eq (seq : ℤ) (k : ℕ) :
    javaAdvance seq k = BitVec.ofInt 16 seq + BitVec.ofNat 16 k := by
  unfold javaAdvance
  induction k generalizing seq with
  | zero => exact (BitVec.add_zero _).symm
  | succ k ih =>
    rw [Function.iterate_succ_apply, ih, ofInt_javaSequenceIncrement, BitVec.add_assoc, Nat.add_comm k,
      BitVec.ofNat_add]
    rfl

theorem cppAdvance_eq (seqnum : BitVec 16) (k : ℕ) :
    cppAdvance seqnum k = seqnum + BitVec.ofNat 16 k := by
  unfold cppAdvance
  induction k generalizing seqnum with
  | zero => exact (BitVec.add_zero _).symm
  | succ k ih =>
    rw [Function.iterate_succ_apply, ih, cppSequenceIncrement_eq, BitVec.add_assoc, Nat.add_comm k,
      BitVec.ofNat_add]
    rfl

/-! ### Near packets -/

theorem javaShiftOne_of_lt {k : ℕ} (hk : k < 32) : javaShiftOne k = 1#32 <<< k := by
  have h : ((k : ℤ) % 32).toNat = k := by omega
  rw [javaShiftOne, h]

theorem cppShiftOne_of_lt (host : Host) {k : ℕ} (hk : k < 32) :
    cppShiftOne host k = 1#32 <<< k := by
  rw [cppShiftOne, if_pos ⟨by omega, by omega⟩, Int.toNat_natCast]

/-- One bit of a word, by a mask. -/
theorem and_shiftLeft_ne_zero {x : BitVec 32} {k : ℕ} (hk : k < 32) :
    x &&& 1#32 <<< k ≠ 0#32 ↔ x.getLsbD k = true := by
  constructor
  · intro h
    by_contra hx
    refine h (BitVec.eq_of_getLsbD_eq fun i hi => ?_)
    by_cases hik : i = k
    · subst hik; simp at hx; simp [hx]
    · have : ¬ (k ≤ i ∧ i - k = 0) := by omega
      simp; omega
  · intro hx h
    have := congrArg (·.getLsbD k) h
    simp [hk] at this
    simp [BitVec.getLsbD_eq_getElem hk, this] at hx

/-- The ack of a number at most 16 behind is bit `dist - 1` of the field, in both languages. -/
theorem javaIsAcked_of_near {ack ackbitfield number : BitVec 16} (hne : ack ≠ number)
    (hd : dist ack number ≤ 16) :
    javaIsAcked ack ackbitfield number = ackbitfield.getLsbD (dist ack number - 1) := by
  have h0 : dist ack number ≠ 0 := fun h => hne (dist_eq_zero.mp h)
  have hk : (dist ack number : ℤ) - 1 = ((dist ack number - 1 : ℕ) : ℤ) := by omega
  rw [javaIsAcked, if_neg hne, javaSequenceDelta_eq, hk, javaShiftOne_of_lt (by omega),
    Bool.eq_iff_iff, decide_eq_true_iff, and_shiftLeft_ne_zero (by omega), BitVec.getLsbD_signExtend]
  have : dist ack number - 1 < 16 := by omega
  simp [this]
  omega

theorem cppIsAcked_of_near (host : Host) {ack ackbitfield number : BitVec 16} (hne : ack ≠ number)
    (hd : dist ack number ≤ 16) :
    cppIsAcked host ack ackbitfield number = ackbitfield.getLsbD (dist ack number - 1) := by
  have h0 : dist ack number ≠ 0 := fun h => hne (dist_eq_zero.mp h)
  have hk : (dist ack number : ℤ) - 1 = ((dist ack number - 1 : ℕ) : ℤ) := by omega
  rw [cppIsAcked, if_neg hne, cppSequenceDelta_eq, hk, cppShiftOne_of_lt host (by omega),
    Bool.eq_iff_iff, decide_eq_true_iff, and_shiftLeft_ne_zero (by omega), BitVec.getLsbD_setWidth]
  simp
  omega

end N64NetLib.Packet.Sequence
