import N64NetLib.Udp.Bounds

/-! # Do the Java decoders accept well-formed packets only?

`ReadPacket` reads from a stream that does not complain when it ends: `read` answers `-1`, `readNBytes` a
shorter array. So a datagram that ends inside the header runs into the array index of `getShort`, and one
that ends inside the payload becomes a packet with what there is. `readsWhole_iff` says which bytes are
answered as the declaration of `ReadPacket` says, with null, with a `BadPacketVersionException`, or with a
packet that is written back as it was read: those that do not have the header, those with a higher
version, and those that begin with a whole packet. -/

namespace N64NetLib.Udp.JavaBounds

open N64NetLib.Lib.BigEndian N64NetLib.Packet N64NetLib.Packet.Basic N64NetLib.Packet.Java
open N64NetLib.Udp.Bounds

/-- The size field of the packet in the bytes. -/
def sizeField : Kind → List UInt8 → BitVec 16
  | .netlib, b => ofBe16 (b.getD 16 0) (b.getD 17 0)
  | .s64, b => ofBe16 (b.getD (12 + (b.getD 11 0).toNat) 0) (b.getD (13 + (b.getD 11 0).toNat) 0)

/-- Where the payload of the packet begins. -/
def payloadAt : Kind → List UInt8 → ℕ
  | .netlib, _ => 18
  | .s64, b => 14 + (b.getD 11 0).toNat

/-- The text of the type; a NetLib packet has none. -/
def typeText : Kind → List UInt8 → List UInt8
  | .netlib, _ => []
  | .s64, b => (b.drop 12).take (b.getD 11 0).toNat

theorem fits_iff (k : Kind) (b : List UInt8) :
    Fits k b ↔ payloadAt k b + (sizeField k b).toNat ≤ b.length := by
  cases k <;> exact Iff.rfl

/-- **`ReadPacket` does what it declares**: it returns null, or throws an `IOException` or a
`BadPacketVersionException`, or returns a packet whose `GetBytes` is what the bytes begin with and whose
payload is as long as the size field says. -/
def ReadsWhole (k : Kind) (b : List UInt8) : Prop :=
  match readPacket k b with
  | .ok none => True
  | .ok (some q) =>
    (∃ bytes, getBytes q = .ok bytes ∧ bytes <+: b) ∧ (sizeField k b).toNat ≤ q.data.length
  | .error e => e = .io ∨ ∃ version, e = .badPacketVersion version

/-- The bytes begin with a whole packet: its lengths fit the bytes and the buffer of `GetBytes`, and its
type is ASCII. -/
def Whole (k : Kind) (b : List UInt8) : Prop :=
  Fits k b ∧ payloadAt k b + (sizeField k b).toNat ≤ packetMaxSize ∧ ∀ c ∈ typeText k b, c < 128

/-- Nothing to read, nothing to accept, or a whole packet. -/
def Readable (k : Kind) (b : List UInt8) : Prop :=
  ¬ b.take 3 <+: packetHeader k ∨ BadVersion b ∨ Whole k b

/-! ### What is written back -/

/-- The payload that is read, and what `GetBytes` writes of it. -/
def payload (size : BitVec 16) (rest : List UInt8) : List UInt8 :=
  if size.toInt > 0 then rest.take size.toInt.toNat else []

theorem payload_isPrefix (size : BitVec 16) (rest : List UInt8) : payload size rest <+: rest := by
  unfold payload
  split_ifs
  · exact List.take_prefix _ _
  · exact List.nil_prefix

theorem length_payload_lt (size : BitVec 16) (rest : List UInt8) :
    (payload size rest).length < 2 ^ 15 := by
  have hlt := size.isLt
  unfold payload
  split_ifs with hpos
  · rw [List.length_take]
    rw [BitVec.toInt_eq_toNat_cond] at hpos ⊢
    split_ifs at hpos ⊢ <;> omega
  · exact Nat.two_pow_pos 15

theorem length_payload {size : BitVec 16} {rest : List UInt8} (h : size.toNat < 2 ^ 15) :
    (payload size rest).length = min size.toNat rest.length := by
  have hint : size.toInt = size.toNat := by
    rw [BitVec.toInt_eq_toNat_cond]
    split_ifs <;> omega
  rw [payload, hint]
  split_ifs with hpos
  · rw [List.length_take, Int.toNat_natCast]
  · rw [List.length_nil]
    omega

/-- The size of the payload is the size field exactly if this is no negative short and the bytes go
that far. -/
theorem size_payload_iff {n : BitVec 16} {rest : List UInt8} :
    Java.size (payload n rest) = n ↔ n.toNat < 2 ^ 15 ∧ n.toNat ≤ rest.length := by
  have hlt := length_payload_lt n rest
  have hsize : (Java.size (payload n rest)).toNat = (payload n rest).length := by
    rw [Java.size, BitVec.toNat_ofNat]
    omega
  rw [← BitVec.toNat_inj, hsize]
  constructor
  · intro h
    have hn : n.toNat < 2 ^ 15 := h ▸ hlt
    rw [length_payload hn] at h
    omega
  · rintro ⟨hn, hrest⟩
    rw [length_payload hn]
    omega

/-- What `GetBytes` puts in front of the size. -/
def putsHead (p : AbstractPacket) : List UInt8 :=
  match p.body with
  | .netlib type recipients _ =>
    packetHeader .netlib ++ [p.version] ++ [type] ++ [p.flags] ++ be16 p.seqnum ++ be16 p.ack ++
      be16 p.ackbitfield ++ be32 recipients
  | .s64 type =>
    packetHeader .s64 ++ [p.version] ++ [p.flags] ++ be16 p.seqnum ++ be16 p.ack ++
      be16 p.ackbitfield ++ [UInt8.ofNat type.length] ++ asciiBytes type

/-- `GetBytes` puts a payload whole unless its length is a negative short. -/
theorem puts_eq {p : AbstractPacket} (h : p.data.length < 2 ^ 15) :
    puts p = putsHead p ++ (be16 (Java.size p.data) ++ p.data) := by
  have hint : (Java.size p.data).toInt = p.data.length := by
    rw [Java.size, BitVec.toInt_eq_toNat_cond, BitVec.toNat_ofNat]
    split_ifs <;> omega
  have hdata : (if (Java.size p.data).toInt > 0 then p.data else []) = p.data := by
    rw [hint]
    split_ifs with hpos
    · rfl
    · exact (List.eq_nil_of_length_eq_zero (by omega)).symm
  unfold puts putsHead
  cases p.body <;> simp only [hdata, List.append_assoc]

theorem append_prefix_append {α : Type} {l1 l2 r1 r2 : List α} (h : l1.length = l2.length) :
    l1 ++ r1 <+: l2 ++ r2 ↔ l1 = l2 ∧ r1 <+: r2 := by
  constructor
  · rintro ⟨t, ht⟩
    rw [List.append_assoc] at ht
    obtain ⟨hl, hr⟩ := List.append_inj ht h
    exact ⟨hl, t, hr⟩
  · rintro ⟨rfl, hr⟩
    exact (List.prefix_append_right_inj l1).mpr hr

theorem be16_inj {x y : BitVec 16} (h : be16 x = be16 y) : x = y := by
  simp only [be16, List.cons.injEq, and_true] at h
  rw [← ofBe16_byteOf x, ← ofBe16_byteOf y, h.1, h.2]

/-- **A packet is written back as it was read** exactly if what stands before its size field is, and the
payload is there and fits the buffer. -/
theorem written_back_iff {l1 l2 : List UInt8} (rest : List UInt8) (n : BitVec 16)
    (hl : l1.length = l2.length) :
    ((l1 ++ (be16 (Java.size (payload n rest)) ++ payload n rest)).length ≤ packetMaxSize ∧
      l1 ++ (be16 (Java.size (payload n rest)) ++ payload n rest) <+: l2 ++ (be16 n ++ rest)) ↔
    l1 = l2 ∧ n.toNat ≤ rest.length ∧ l2.length + 2 + n.toNat ≤ packetMaxSize := by
  rw [append_prefix_append hl, append_prefix_append (by simp), List.length_append, List.length_append,
    length_be16]
  constructor
  · rintro ⟨hlen, h1, h2, -⟩
    obtain ⟨hn, hrest⟩ := size_payload_iff.mp (be16_inj h2)
    rw [length_payload hn] at hlen
    exact ⟨h1, hrest, by omega⟩
  · rintro ⟨h1, hrest, hmax⟩
    have hn : n.toNat < 2 ^ 15 := by unfold packetMaxSize at hmax; omega
    have hsize := size_payload_iff.mpr ⟨hn, hrest⟩
    rw [length_payload hn]
    exact ⟨by omega, h1, by rw [hsize], payload_isPrefix n rest⟩

theorem getBytes_prefix_iff {q : AbstractPacket} {b : List UInt8} :
    (∃ bytes, getBytes q = .ok bytes ∧ bytes <+: b) ↔
      (puts q).length ≤ packetMaxSize ∧ puts q <+: b := by
  unfold getBytes
  split_ifs with h
  · simp [h]
  · simp [h]

/-- A packet that was accepted is written back, and has its payload, exactly if it was whole. -/
theorem accepted_iff {k : Kind} {b : List UInt8} {q : AbstractPacket} (head : List UInt8)
    (hb : b = head ++ (be16 (sizeField k b) ++ b.drop (payloadAt k b)))
    (hdata : q.data = payload (sizeField k b) (b.drop (payloadAt k b)))
    (hlen : (putsHead q).length = head.length) (hhead : head.length + 2 = payloadAt k b)
    (hend : payloadAt k b ≤ b.length) (htext : putsHead q = head ↔ ∀ c ∈ typeText k b, c < 128) :
    ((∃ bytes, getBytes q = .ok bytes ∧ bytes <+: b) ∧ (sizeField k b).toNat ≤ q.data.length) ↔
      Whole k b := by
  have hback := written_back_iff (b.drop (payloadAt k b)) (sizeField k b) hlen
  have hputs := puts_eq (p := q) (by rw [hdata]; exact length_payload_lt _ _)
  rw [← hb, ← hdata, ← hputs, List.length_drop, hhead] at hback
  rw [getBytes_prefix_iff, hback, htext, Whole, fits_iff]
  constructor
  · rintro ⟨⟨hascii, hrest, hmax⟩, -⟩
    exact ⟨by omega, hmax, hascii⟩
  · rintro ⟨hfits, hmax, hascii⟩
    have hn : (sizeField k b).toNat < 2 ^ 15 := by unfold packetMaxSize at hmax; omega
    refine ⟨⟨hascii, by omega, hmax⟩, ?_⟩
    rw [hdata, length_payload hn, List.length_drop]
    omega

/-! ### The two decoders -/

/-- Bytes that end in front of the payload are no whole packet. -/
theorem not_whole_of_lt {k : Kind} {b : List UInt8} (h : b.length < payloadAt k b) : ¬ Whole k b := by
  rintro ⟨hfits, -⟩
  rw [fits_iff] at hfits
  omega

theorem readsWhole_netlib (b : List UInt8) : ReadsWhole .netlib b ↔ Readable .netlib b := by
  unfold ReadsWhole Readable
  rw [readPacket, netLibReadPacket_eq]
  by_cases hm : b.take 3 <+: packetHeader .netlib
  swap
  · simp [hm]
  by_cases hv : BadVersion b
  · simp [hm, hv]
  by_cases hend : b.length < 18
  · have hno : ¬ Whole .netlib b := not_whole_of_lt hend
    simp [hm, hv, hend, hno]
  have hlayout := netlib_layout (take_eq_header hm (by omega)) (by omega)
  simp only [hm, hv, hend, not_true_eq_false, if_false, false_or]
  refine accepted_iff _ ?_ rfl rfl rfl (Nat.le_of_not_lt hend) (by simp [typeText])
  conv_lhs => rw [hlayout]
  simp only [netlibBytes, putsHead, List.append_assoc, List.cons_append, List.nil_append]
  rfl

theorem toNat_toChar (c : UInt8) : (toChar c.toNat).toNat = c.toNat := by
  have hc := c.toNat_lt
  have hmod : ((c.toNat : ℤ) % 65536).toNat = c.toNat := by omega
  have hvalid : c.toNat.isValidChar := Or.inl (by omega)
  rw [toChar, hmod, Char.ofNat, dif_pos hvalid]
  rfl

/-- Writing the characters as ASCII keeps those below 128 and no other. -/
theorem asciiBytes_toChar (text : List UInt8) :
    asciiBytes (text.map fun c => toChar c.toNat) = text ↔ ∀ c ∈ text, c < 128 := by
  induction text with
  | nil => simp [asciiBytes]
  | cons c text ih =>
    have hc : (if (toChar c.toNat).toNat < 128 then UInt8.ofNat (toChar c.toNat).toNat else 0x3F) = c ↔
        c < 128 := by
      rw [toNat_toChar, UInt8.ofNat_toNat, UInt8.lt_iff_toNat_lt]
      show (if c.toNat < 128 then c else 0x3F) = c ↔ c.toNat < 128
      split_ifs with h
      · simp [h]
      · simp only [h, iff_false]
        rintro rfl
        exact h (by decide)
    rw [List.forall_mem_cons, ← ih, ← hc]
    simp only [asciiBytes, List.map_cons, List.cons.injEq]

theorem readsWhole_s64 (b : List UInt8) : ReadsWhole .s64 b ↔ Readable .s64 b := by
  unfold ReadsWhole Readable
  rw [readPacket, s64ReadPacket_eq]
  by_cases hm : b.take 3 <+: packetHeader .s64
  swap
  · simp [hm]
  by_cases hv : BadVersion b
  · simp [hm, hv]
  by_cases hend : b.length < 14 + (b.getD 11 0).toNat
  · have hno : ¬ Whole .s64 b := not_whole_of_lt hend
    simp only [hm, hv, hend, hno, not_true_eq_false, if_false, if_true, false_or]
    simp
  have hlayout := s64_layout (take_eq_header hm (by omega)) (by omega)
  have htype : ((b.drop 12).take (b.getD 11 0).toNat).length = (b.getD 11 0).toNat := by
    rw [List.length_take, List.length_drop]
    omega
  simp only [hm, hv, hend, not_true_eq_false, if_false, false_or]
  refine accepted_iff (packetHeader .s64 ++ [b.getD 3 0] ++ [b.getD 4 0] ++
    be16 (ofBe16 (b.getD 5 0) (b.getD 6 0)) ++ be16 (ofBe16 (b.getD 7 0) (b.getD 8 0)) ++
    be16 (ofBe16 (b.getD 9 0) (b.getD 10 0)) ++ [b.getD 11 0] ++ typeText .s64 b)
    ?_ rfl ?_ ?_ (Nat.le_of_not_lt hend) ?_
  · conv_lhs => rw [hlayout]
    simp only [s64Bytes, typeText, List.append_assoc, List.cons_append, List.nil_append]
    rfl
  · simp [putsHead, asciiBytes, typeText]
  · simp only [List.length_append, typeText, htype, payloadAt]
    simp [packetHeader]
    omega
  · rw [← asciiBytes_toChar]
    have hsize : UInt8.ofNat ((typeText .s64 b).map fun c => toChar c.toNat).length = b.getD 11 0 := by
      rw [List.length_map, typeText, htype]
      exact UInt8.ofNat_toNat
    simp only [putsHead]
    rw [show (List.take (b.getD 11 0).toNat (List.drop 12 b)) = typeText .s64 b from rfl, hsize,
      List.append_cancel_left_eq]

/-- **What the Java decoders accept**: exactly for these bytes they do what they declare. -/
theorem readsWhole_iff (k : Kind) (b : List UInt8) : ReadsWhole k b ↔ Readable k b := by
  cases k with
  | netlib => exact readsWhole_netlib b
  | s64 => exact readsWhole_s64 b

/-- A datagram that ends behind the magic number throws an index exception, and one that ends in front
of the byte it announces becomes a packet. -/
theorem not_readsWhole_truncated :
    ¬ ReadsWhole .netlib [0x4E, 0x4C, 0x50] ∧
      ¬ ReadsWhole .netlib [0x4E, 0x4C, 0x50, 1, 5, 0, 0, 0, 0, 0, 0, 0, 0, 0, 0, 0, 0, 1] := by
  constructor
  · intro hwhole
    have hindex : readPacket .netlib [0x4E, 0x4C, 0x50] = .error .arrayIndex := rfl
    rw [ReadsWhole, hindex] at hwhole
    simp at hwhole
  · intro hwhole
    have hlen := hwhole.2
    revert hlen
    decide

end N64NetLib.Udp.JavaBounds
