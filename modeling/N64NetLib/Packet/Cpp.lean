import N64NetLib.Lib.Memory
import N64NetLib.Packet.Basic
import N64NetLib.Packet.Sequence

/-! # The C++ packet classes

`FromBytes` and `GetAsBytes` of the two packet classes of `packets.cpp`, on a little-endian host. The
decoders get a bare pointer, so they are programs that load from an unbounded memory: whether an
address lies in the datagram, or in the buffer at all, is nothing they look at.

A packet has `m_Size` bytes of data, and the encoders write into a block of `GetAsBytes_Size` bytes;
both sizes are 16 bits wide. -/

namespace N64NetLib.Packet.Cpp

open N64NetLib.Lib.BigEndian N64NetLib.Lib.Memory N64NetLib.Packet.Basic N64NetLib.Packet.Sequence

/-- A decoder: it loads bytes and ends with a packet, with `NULL` or with an exception. -/
abbrev Decoder (α : Type) := Load ℕ UInt8 Exn α

open Load

/-- `swap_endian16`. -/
def swapEndian16 (val : BitVec 16) : BitVec 16 := val >>> 8 ||| val <<< 8

/-- `swap_endian32`. -/
def swapEndian32 (val : BitVec 32) : BitVec 32 :=
  val <<< 24 ||| (val <<< 8 &&& 0x00FF0000#32) ||| (val >>> 8 &&& 0x0000FF00#32) ||| val >>> 24

/-- `memcpy` of a `uint16_t` out of the bytes. -/
def load16 (i : ℕ) : Decoder (BitVec 16) := do
  let b0 ← cell i
  let b1 ← cell (i + 1)
  pure (ofLe16 b0 b1)

/-- `memcpy` of a `uint32_t` out of the bytes. -/
def load32 (i : ℕ) : Decoder (BitVec 32) := do
  let b0 ← cell i
  let b1 ← cell (i + 1)
  let b2 ← cell (i + 2)
  let b3 ← cell (i + 3)
  pure (ofLe32 b0 b1 b2 b3)

/-- `!strncmp(bytes, str, strlen(str))`: the comparison ends at the first difference. -/
def strncmp : ℕ → List UInt8 → Decoder Bool
  | _, [] => pure true
  | i, c :: str => do
    let b ← cell i
    if b = c then strncmp (i + 1) str else pure false

/-- `NetLibPacket::IsNetLibPacket` and `S64Packet::IsS64Packet`. -/
def isPacket (k : Kind) : Decoder Bool := strncmp 0 (packetHeader k)

/-- The bytes are all ASCII. -/
def isAscii (l : List UInt8) : Bool := l.all (· < 128)

/-- `wxString(str)` for the zero-terminated `str`. -/
def wxString (host : Host) (str : List UInt8) : List Char :=
  let str := str.takeWhile (· ≠ 0)
  if isAscii str then str.map fun b => Char.ofNat b.toNat else host.mbDecode str

/-- The byte at index `i` behind `mb_str()`. -/
def mbStr (host : Host) (type : List Char) (i : ℕ) : UInt8 :=
  if type.all (·.toNat < 128) then (type.map fun c => UInt8.ofNat c.toNat).getD i 0
  else host.mbEncode type i

/-- `NetLibPacket::FromBytes`. -/
def netLibFromBytes : Decoder (Option AbstractPacket) := do
  if !(← isPacket .netlib) then
    return none
  let version ← cell 3
  if version > packetVersion then
    raise (.badPacketVersion version.toNat)
  else
    let type ← cell 4
    let flags ← cell 5
    let seqnum := swapEndian16 (← load16 6)
    let acknum := swapEndian16 (← load16 8)
    let ackbitfield := swapEndian16 (← load16 10)
    let recipients := swapEndian32 (← load32 12)
    let dataLen := swapEndian16 (← load16 16)
    let data ← loadMany 18 dataLen.toNat
    return some ⟨0, version, flags, seqnum, acknum, ackbitfield, data, 0, 0,
      .netlib type recipients 0⟩

/-- `S64Packet::FromBytes`. -/
def s64FromBytes (host : Host) : Decoder (Option AbstractPacket) := do
  if !(← isPacket .s64) then
    return none
  let version ← cell 3
  if version > packetVersion then
    raise (.badPacketVersion version.toNat)
  else
    let flags ← cell 4
    let seqnum := swapEndian16 (← load16 5)
    let acknum := swapEndian16 (← load16 7)
    let ackbitfield := swapEndian16 (← load16 9)
    let typestrLen ← cell 11
    let typestr ← loadMany 12 typestrLen.toNat
    let dataLen := swapEndian16 (← load16 (12 + typestrLen.toNat))
    let data ← loadMany (14 + typestrLen.toNat) dataLen.toNat
    return some ⟨0, version, flags, seqnum, acknum, ackbitfield, data, 0, 0,
      .s64 (wxString host typestr)⟩

/-- `FromBytes` of the two classes. -/
def fromBytes (host : Host) : Kind → Decoder (Option AbstractPacket)
  | .netlib => netLibFromBytes
  | .s64 => s64FromBytes host

/-- What `ReadNetLibPacket` and `ReadS64Packet` load and decode before they look at the sequence. -/
def decode (host : Host) (k : Kind) : Decoder (Option AbstractPacket) := do
  if !(← isPacket k) then
    return none
  fromBytes host k

/-- The field `m_Size`. -/
def size (p : AbstractPacket) : BitVec 16 := BitVec.ofNat 16 p.data.length

/-- `NetLibPacket::GetAsBytes` and `S64Packet::GetAsBytes`: the bytes they write. -/
def getAsBytes (host : Host) (p : AbstractPacket) : List UInt8 :=
  match p.body with
  | .netlib type recipients _ =>
    packetHeader .netlib ++ [p.version] ++ [type] ++ [p.flags] ++ le16 (swapEndian16 p.seqnum) ++
      le16 (swapEndian16 p.ack) ++ le16 (swapEndian16 p.ackbitfield) ++
      le32 (swapEndian32 recipients) ++ le16 (swapEndian16 (size p)) ++ p.data.take (size p).toNat
  | .s64 type =>
    packetHeader .s64 ++ [p.version] ++ [p.flags] ++ le16 (swapEndian16 p.seqnum) ++
      le16 (swapEndian16 p.ack) ++ le16 (swapEndian16 p.ackbitfield) ++ [UInt8.ofNat type.length] ++
      (List.range type.length).map (mbStr host type) ++ le16 (swapEndian16 (size p)) ++
      p.data.take (size p).toNat

/-- `NetLibPacket::GetAsBytes_Size` and `S64Packet::GetAsBytes_Size`. -/
def getAsBytesSize (p : AbstractPacket) : BitVec 16 :=
  match p.body with
  | .netlib .. => 3 + 1 + 1 + 1 + 2 + 2 + 2 + 4 + 2 + size p
  | .s64 type => 3 + 1 + 1 + 2 + 2 + 2 + 1 + BitVec.ofNat 16 type.length + 2 + size p

/-- The bytes `SendPacket` hands to the socket. If the block is too small for what is written into
it, the heap is overrun, and nothing can be said of what follows. -/
def getBytes (host : Host) (p : AbstractPacket) : Except Exn (List UInt8) :=
  if (getAsBytes host p).length ≤ (getAsBytesSize p).toNat then .ok (getAsBytes host p)
  else .error .bufferOverflow

/-! ### The bytes written -/

@[simp] theorem le16_swapEndian16 (x : BitVec 16) : le16 (swapEndian16 x) = be16 x := le16_swap x

@[simp] theorem le32_swapEndian32 (x : BitVec 32) : le32 (swapEndian32 x) = be32 x := le32_swap x

@[simp] theorem swapEndian16_ofLe16 (b0 b1 : UInt8) :
    swapEndian16 (ofLe16 b0 b1) = ofBe16 b0 b1 := swap_ofLe16 b0 b1

@[simp] theorem swapEndian32_ofLe32 (b0 b1 b2 b3 : UInt8) :
    swapEndian32 (ofLe32 b0 b1 b2 b3) = ofBe32 b0 b1 b2 b3 := swap_ofLe32 b0 b1 b2 b3

theorem getAsBytes_netlib (host : Host) {p : AbstractPacket} {type : UInt8} {recipients : BitVec 32}
    {sender : ℤ} (hp : p.body = .netlib type recipients sender) :
    getAsBytes host p = netlibBytes p.version type p.flags p.seqnum p.ack p.ackbitfield recipients
      (size p) (p.data.take (size p).toNat) := by
  simp [getAsBytes, hp, netlibBytes]

theorem getAsBytes_s64 (host : Host) {p : AbstractPacket} {type : List Char}
    (hp : p.body = .s64 type) :
    getAsBytes host p = s64Bytes p.version p.flags p.seqnum p.ack p.ackbitfield
      (UInt8.ofNat type.length) ((List.range type.length).map (mbStr host type)) (size p)
      (p.data.take (size p).toNat) := by
  simp [getAsBytes, hp, s64Bytes]

/-! ### The buffer of the encoders -/

/-- How many bytes the encoders write; they count them with 32 bits. -/
def written (p : AbstractPacket) : ℕ :=
  match p.body with
  | .netlib .. => 18 + (size p).toNat
  | .s64 type => 14 + type.length + (size p).toNat

theorem length_getAsBytes (host : Host) (p : AbstractPacket) :
    (getAsBytes host p).length = written p := by
  have hdata : (p.data.take (size p).toNat).length = (size p).toNat := by
    rw [List.length_take, size, BitVec.toNat_ofNat]
    exact Nat.min_eq_left (Nat.mod_le _ _)
  unfold written
  cases hp : p.body with
  | netlib type recipients sender =>
    rw [getAsBytes_netlib host hp]
    simp only [netlibBytes, packetHeader, List.length_append, List.length_cons, List.length_nil,
      length_be16, length_be32, hdata]
  | s64 type =>
    rw [getAsBytes_s64 host hp]
    simp only [s64Bytes, packetHeader, List.length_append, List.length_cons, List.length_nil,
      length_be16, List.length_map, List.length_range, hdata]
    omega

/-- `GetAsBytes_Size` adds the same numbers with 16 bits. -/
theorem toNat_getAsBytesSize (p : AbstractPacket) :
    (getAsBytesSize p).toNat = written p % 65536 := by
  have hlt := (size p).isLt
  unfold getAsBytesSize written
  cases p.body with
  | netlib type recipients sender =>
    simp only [BitVec.toNat_add]
    simp
  | s64 type =>
    simp only [BitVec.toNat_add, BitVec.toNat_ofNat]
    simp
    omega

/-- **The encoders fill their buffer** exactly if the packet has fewer than 65536 bytes. -/
theorem fillsBuffer_iff (host : Host) (p : AbstractPacket) :
    (getAsBytes host p).length = (getAsBytesSize p).toNat ↔ written p < 65536 := by
  rw [length_getAsBytes, toNat_getAsBytesSize]
  omega

/-- A packet with 65518 bytes of payload gets a buffer of no bytes. -/
theorem not_fillsBuffer_long : ¬ ∀ host (p : AbstractPacket), p.data.length < 65536 →
    (getAsBytes host p).length = (getAsBytesSize p).toNat := by
  intro hall
  obtain ⟨data, hdata⟩ : ∃ data : List UInt8, data.length = 65518 :=
    ⟨List.replicate 65518 0, List.length_replicate⟩
  have hfull := hall .x86 (newNetLibPacket 0 5 data 0) (by rw [newNetLibPacket, hdata]; omega)
  rw [length_getAsBytes, toNat_getAsBytesSize] at hfull
  simp only [written, newNetLibPacket, size, hdata] at hfull
  revert hfull
  decide

/-- The bytes of a packet carry its header. -/
theorem getBytes_carries {host : Host} {p : AbstractPacket} {b : List UInt8}
    (h : getBytes host p = .ok b) : Carries b p.body.kind p.header := by
  have hb : b = getAsBytes host p := by
    unfold getBytes at h
    split_ifs at h
    exact (Except.ok.inj h).symm
  subst hb
  cases hp : p.body with
  | netlib type recipients sender =>
    rw [getAsBytes_netlib host hp]
    exact carries_netlibBytes ..
  | s64 type =>
    rw [getAsBytes_s64 host hp]
    exact carries_s64Bytes ..

/-! ### What the decoders load and return -/

@[simp] theorem run_load16 (m : ℕ → UInt8) (i : ℕ) :
    run m (load16 i) = .ok (ofLe16 (m i) (m (i + 1))) := rfl

@[simp] theorem loads_load16 (m : ℕ → UInt8) (i : ℕ) : loads m (load16 i) = [i, i + 1] := rfl

@[simp] theorem run_load32 (m : ℕ → UInt8) (i : ℕ) :
    run m (load32 i) = .ok (ofLe32 (m i) (m (i + 1)) (m (i + 2)) (m (i + 3))) := rfl

@[simp] theorem loads_load32 (m : ℕ → UInt8) (i : ℕ) :
    loads m (load32 i) = [i, i + 1, i + 2, i + 3] := rfl

theorem run_strncmp (m : ℕ → UInt8) : ∀ (str : List UInt8) (i : ℕ),
    run m (strncmp i str) = .ok (decide (∀ j, (h : j < str.length) → m (i + j) = str[j]))
  | [], i => by simp [strncmp]
  | c :: str, i => by
    have hs : ∀ j, i + 1 + j = i + (j + 1) := fun j => by omega
    simp only [strncmp, run_bind, run_cell]
    split_ifs with hc
    · rw [run_strncmp m str (i + 1)]
      congr 2
      refine propext ⟨fun h j hj => ?_, fun h j hj => ?_⟩
      · cases j with
        | zero => exact hc
        | succ j => exact hs j ▸ h j (by simpa using hj)
      · exact hs j ▸ h (j + 1) (by simpa using hj)
    · simp only [run_pure, Except.ok.injEq, eq_comm (a := false), decide_eq_false_iff_not]
      exact fun h => hc (h 0 (by simp))

/-- The memory begins with the header of format `k`. -/
def HasMagic (k : Kind) (m : ℕ → UInt8) : Prop :=
  ∀ j, (h : j < (packetHeader k).length) → m j = (packetHeader k)[j]

instance (k : Kind) (m : ℕ → UInt8) : Decidable (HasMagic k m) := by
  unfold HasMagic; infer_instance

theorem run_isPacket (k : Kind) (m : ℕ → UInt8) :
    run m (isPacket k) = .ok (decide (HasMagic k m)) := by
  simp [isPacket, run_strncmp, HasMagic]

theorem run_netLibFromBytes (m : ℕ → UInt8) :
    run m netLibFromBytes =
      if HasMagic .netlib m then
        if packetVersion < m 3 then .error (.badPacketVersion (m 3).toNat)
        else .ok (some ⟨0, m 3, m 5, ofBe16 (m 6) (m 7), ofBe16 (m 8) (m 9), ofBe16 (m 10) (m 11),
          (List.range' 18 (ofBe16 (m 16) (m 17)).toNat).map m, 0, 0,
          .netlib (m 4) (ofBe32 (m 12) (m 13) (m 14) (m 15)) 0⟩)
      else .ok none := by
  simp only [netLibFromBytes, run_bind, run_isPacket]
  by_cases hm : HasMagic .netlib m
  · by_cases hv : packetVersion < m 3
    · simp [hm, hv, run_bind]
    · simp [hm, hv, run_bind]
  · simp [hm]

theorem run_s64FromBytes (host : Host) (m : ℕ → UInt8) :
    run m (s64FromBytes host) =
      if HasMagic .s64 m then
        if packetVersion < m 3 then .error (.badPacketVersion (m 3).toNat)
        else .ok (some ⟨0, m 3, m 4, ofBe16 (m 5) (m 6), ofBe16 (m 7) (m 8), ofBe16 (m 9) (m 10),
          (List.range' (14 + (m 11).toNat)
            (ofBe16 (m (12 + (m 11).toNat)) (m (13 + (m 11).toNat))).toNat).map m, 0, 0,
          .s64 (wxString host ((List.range' 12 (m 11).toNat).map m))⟩)
      else .ok none := by
  simp only [s64FromBytes, run_bind, run_isPacket]
  have h13 : 12 + (m 11).toNat + 1 = 13 + (m 11).toNat := by omega
  by_cases hm : HasMagic .s64 m
  · by_cases hv : packetVersion < m 3
    · simp [hm, hv, run_bind]
    · simp [hm, hv, run_bind, h13]
  · simp [hm]

theorem run_decode (host : Host) (k : Kind) (m : ℕ → UInt8) :
    run m (decode host k) = run m (fromBytes host k) := by
  simp only [decode, run_bind, run_isPacket]
  by_cases hm : HasMagic k m
  · simp [hm]
  · cases k <;> simp [hm, fromBytes, run_netLibFromBytes, run_s64FromBytes]

/-- A decoded packet has the format and the header fields that stand in memory. -/
theorem decode_header {host : Host} {k : Kind} {m : ℕ → UInt8} {q : AbstractPacket}
    (h : run m (decode host k) = .ok (some q)) : HasMagic k m ∧ q.header = headerAt k m := by
  rw [run_decode] at h
  cases k with
  | netlib =>
    rw [fromBytes, run_netLibFromBytes] at h
    split_ifs at h with hm <;> simp at h
    subst h
    exact ⟨hm, rfl⟩
  | s64 =>
    rw [fromBytes, run_s64FromBytes] at h
    split_ifs at h with hm <;> simp at h
    subst h
    exact ⟨hm, rfl⟩

/-- The header in memory is the one the bytes there carry. -/
theorem HasMagic.carries {k k' : Kind} {b : List UInt8} {junk : ℕ → UInt8} {hd : Header}
    (hm : HasMagic k (inBuffer b junk)) (hb : Carries b k' hd) :
    k = k' ∧ headerAt k (inBuffer b junk) = hd := by
  have hk : k = k' := by
    have h3 : 3 ≤ b.length := by have := hb.1; cases k' <;> simp [headerSize] at this <;> omega
    have h0 := hm 0 (by cases k <;> simp [packetHeader])
    rw [inBuffer_of_lt (by omega)] at h0
    have h1 : (b.take 3)[0]? = (packetHeader k')[0]? := by rw [hb.2.1]
    cases k <;> cases k' <;> simp_all [packetHeader]
  subst hk
  exact ⟨rfl, hb.2.2 junk⟩

end N64NetLib.Packet.Cpp
