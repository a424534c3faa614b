import N64NetLib.Lib.BigEndian

/-! # Packets

`AbstractPacket` with the fields of its two subclasses, shared by the Java and the C++ programs. Java
keeps the version, the flags and the type as ints and C++ as bytes; only the low byte is ever sent.
The payload is a list of bytes, a null payload being the empty list. -/

namespace N64NetLib.Packet.Basic

open N64NetLib.Lib.BigEndian

/-- The exceptions the modelled code can end with. -/
inductive Exn
  | clientTimeout
  | badPacketVersion (version : ℤ)
  | io
  | arrayIndex
  | bufferOverflow
  | bufferUnderflow
  | negativeArraySize
  | concurrentModification
  | invalidROM
deriving DecidableEq, Repr

/-- The two formats of the wire. -/
inductive Kind
  | netlib
  | s64
deriving DecidableEq, Repr

/-- What `NetLibPacket` and `S64Packet` add to an `AbstractPacket`. -/
inductive Body
  | netlib (type : UInt8) (recipients : BitVec 32) (sender : ℤ)
  | s64 (type : List Char)
deriving DecidableEq, Repr

/-- The format of a packet. -/
def Body.kind : Body → Kind
  | .netlib .. => .netlib
  | .s64 .. => .s64

/-- `AbstractPacket`. The field `ref` stands for the object itself: the code compares packets by
reference, and two packets with the same fields are still two objects. -/
structure AbstractPacket where
  ref : ℕ
  version : UInt8
  flags : UInt8
  seqnum : BitVec 16
  ack : BitVec 16
  ackbitfield : BitVec 16
  data : List UInt8
  sendtime : ℤ
  attempts : ℤ
  body : Body
deriving DecidableEq, Repr

/-- `FLAG_UNRELIABLE`. -/
def flagUnreliable : UInt8 := 0x01

/-- `FLAG_EXPLICITACK`. -/
def flagExplicitack : UInt8 := 0x02

/-- `PACKET_VERSION`, `S64PACKET_VERSION`, `NETLIBPACKET_VERSION`. -/
def packetVersion : UInt8 := 1

/-- `PACKET_MAXSIZE`, `MAX_PACKETSIZE`, and the size of every receive buffer. -/
def packetMaxSize : ℕ := 4096

/-- A packet is reliable unless `FLAG_UNRELIABLE` is set. -/
def AbstractPacket.reliable (p : AbstractPacket) : Bool := p.flags &&& flagUnreliable = 0

/-- `FLAG_EXPLICITACK` is set. -/
def AbstractPacket.explicitAck (p : AbstractPacket) : Bool := p.flags &&& flagExplicitack ≠ 0

/-- `new NetLibPacket(type, data, flags)`. -/
def newNetLibPacket (ref : ℕ) (type : UInt8) (data : List UInt8) (flags : UInt8) : AbstractPacket :=
  ⟨ref, packetVersion, flags, 0, 0, 0, data, 0, 0, .netlib type 0 0⟩

/-- `new S64Packet(type, data, flags)`. -/
def newS64Packet (ref : ℕ) (type : List Char) (data : List UInt8) (flags : UInt8) : AbstractPacket :=
  ⟨ref, packetVersion, flags, 0, 0, 0, data, 0, 0, .s64 type⟩

/-- `PACKET_HEADER` of each format. -/
def packetHeader : Kind → List UInt8
  | .netlib => [0x4E, 0x4C, 0x50]
  | .s64 => [0x53, 0x36, 0x34]

/-- The fields the connection handler reads in a received packet. -/
structure Header where
  flags : UInt8
  seqnum : BitVec 16
  ack : BitVec 16
  ackbitfield : BitVec 16
deriving DecidableEq, Repr

/-- The header of a packet. -/
def AbstractPacket.header (p : AbstractPacket) : Header := ⟨p.flags, p.seqnum, p.ack, p.ackbitfield⟩

theorem AbstractPacket.reliable_of_header {p q : AbstractPacket} (h : p.header = q.header) :
    p.reliable = q.reliable := by
  have hf : p.flags = q.flags := congrArg Header.flags h
  rw [AbstractPacket.reliable, AbstractPacket.reliable, hf]

/-! ### The wire -/

/-- The memory of a receive buffer that holds `l`, whatever `junk` stands behind it. -/
def inBuffer (l : List UInt8) (junk : ℕ → UInt8) (i : ℕ) : UInt8 := l[i]?.getD (junk i)

theorem inBuffer_of_lt {l : List UInt8} {i : ℕ} (h : i < l.length) (junk : ℕ → UInt8) :
    inBuffer l junk i = l[i] := by simp [inBuffer, h]

/-- A cut that keeps the byte does not change it. -/
theorem inBuffer_take {l : List UInt8} {i n : ℕ} (hi : i < n) (hl : i < l.length)
    (junk junk' : ℕ → UInt8) : inBuffer (l.take n) junk i = inBuffer l junk' i := by
  rw [inBuffer_of_lt (by simp; omega), inBuffer_of_lt hl, List.getElem_take]

/-- Where each format keeps the header fields. -/
def headerAt : Kind → (ℕ → UInt8) → Header
  | .netlib, m => ⟨m 5, ofBe16 (m 6) (m 7), ofBe16 (m 8) (m 9), ofBe16 (m 10) (m 11)⟩
  | .s64, m => ⟨m 4, ofBe16 (m 5) (m 6), ofBe16 (m 7) (m 8), ofBe16 (m 9) (m 10)⟩

/-- How many bytes of each format come before the recipients and before the type. -/
def headerSize : Kind → ℕ
  | .netlib => 12
  | .s64 => 11

theorem headerAt_congr {k : Kind} {m m' : ℕ → UInt8} (h : ∀ i < headerSize k, m i = m' i) :
    headerAt k m = headerAt k m' := by
  cases k <;> simp only [headerAt, headerSize] at * <;> congr 1 <;> grind

/-- The bytes of a NetLib packet on the wire. -/
def netlibBytes (version type flags : UInt8) (seqnum ack ackbitfield : BitVec 16)
    (recipients : BitVec 32) (size : BitVec 16) (data : List UInt8) : List UInt8 :=
  packetHeader .netlib ++ [version, type, flags] ++ be16 seqnum ++ be16 ack ++ be16 ackbitfield ++
    be32 recipients ++ be16 size ++ data

/-- The bytes of an S64 packet on the wire. -/
def s64Bytes (version flags : UInt8) (seqnum ack ackbitfield : BitVec 16) (typesize : UInt8)
    (type : List UInt8) (size : BitVec 16) (data : List UInt8) : List UInt8 :=
  packetHeader .s64 ++ [version, flags] ++ be16 seqnum ++ be16 ack ++ be16 ackbitfield ++
    [typesize] ++ type ++ be16 size ++ data

/-- The bytes `b` begin with a packet of format `k` with this header. -/
def Carries (b : List UInt8) (k : Kind) (hd : Header) : Prop :=
  headerSize k ≤ b.length ∧ b.take 3 = packetHeader k ∧ ∀ junk, headerAt k (inBuffer b junk) = hd

theorem carries_netlibBytes (version type flags : UInt8) (seqnum ack ackbitfield : BitVec 16)
    (recipients : BitVec 32) (size : BitVec 16) (data : List UInt8) :
    Carries (netlibBytes version type flags seqnum ack ackbitfield recipients size data) .netlib
      ⟨flags, seqnum, ack, ackbitfield⟩ :=
  ⟨by simp [headerSize, netlibBytes, packetHeader]; omega, by simp [netlibBytes, packetHeader],
    fun junk => by simp [headerAt, inBuffer, netlibBytes, packetHeader, be16]⟩

theorem carries_s64Bytes (version flags : UInt8) (seqnum ack ackbitfield : BitVec 16)
    (typesize : UInt8) (type : List UInt8) (size : BitVec 16) (data : List UInt8) :
    Carries (s64Bytes version flags seqnum ack ackbitfield typesize type size data) .s64
      ⟨flags, seqnum, ack, ackbitfield⟩ :=
  ⟨by simp [headerSize, s64Bytes, packetHeader]; omega, by simp [s64Bytes, packetHeader],
    fun junk => by simp [headerAt, inBuffer, s64Bytes, packetHeader, be16]⟩

/-- A datagram cut to the receive buffer still carries its header. -/
theorem Carries.take {b : List UInt8} {k : Kind} {hd : Header} (h : Carries b k hd) {n : ℕ}
    (hn : headerSize k ≤ n) : Carries (b.take n) k hd := by
  obtain ⟨hlen, hmagic, hhd⟩ := h
  have h3 : 3 ≤ headerSize k := by cases k <;> simp [headerSize]
  refine ⟨by simp; omega, ?_, fun junk => ?_⟩
  · rw [List.take_take, min_eq_left (by omega), hmagic]
  · rw [← hhd junk]
    exact headerAt_congr fun i hi => inBuffer_take (by omega) (by omega) _ _

/-- Bytes carry one header. -/
theorem Carries.unique {b : List UInt8} {k k' : Kind} {hd hd' : Header} (h : Carries b k hd)
    (h' : Carries b k' hd') : k = k' ∧ hd = hd' := by
  have hk : k = k' := by
    have := h.2.1.symm.trans h'.2.1
    cases k <;> cases k' <;> simp [packetHeader] at this ⊢
  subst hk
  exact ⟨rfl, (h.2.2 fun _ => 0).symm.trans (h'.2.2 fun _ => 0)⟩

end N64NetLib.Packet.Basic
