import N64NetLib.Packet.Basic

/-! # The Java packet classes

`ReadPacket` and `GetBytes` of `NetLibPacket.java` and `S64Packet.java`. The input stream is the list
of bytes still to be read. At its end `read` answers `-1` and `readNBytes` a shorter array, without an
error; the error comes from `getShort` and `getInt`, which index into the array they got. -/

namespace N64NetLib.Packet.Java

open N64NetLib.Lib.BigEndian N64NetLib.Packet.Basic

/-- The `(byte)` cast of an int. -/
def toByte (i : ℤ) : UInt8 := UInt8.ofNat (i % 256).toNat

/-- The `(char)` cast of an int. -/
def toChar (i : ℤ) : Char := Char.ofNat (i % 65536).toNat

/-- `ByteArrayInputStream.read`. -/
def read : List UInt8 → ℤ × List UInt8
  | [] => (-1, [])
  | b :: dis => (b.toNat, dis)

/-- `ByteArrayInputStream.readNBytes`. -/
def readNBytes (n : ℕ) (dis : List UInt8) : List UInt8 × List UInt8 := (dis.take n, dis.drop n)

/-- `AbstractPacket.CheckCString`: the characters are compared up to the shorter length. -/
def checkCString (data str : List UInt8) : Bool := (data.zip str).all fun c => c.1 == c.2

/-- `AbstractPacket.getShort`. -/
def getShort : List UInt8 → Except Exn (BitVec 16)
  | b0 :: b1 :: _ => .ok (((0xFF#32 &&& b0.toBitVec.signExtend 32) <<< 8 |||
      (0xFF#32 &&& b1.toBitVec.signExtend 32)).setWidth 16)
  | _ => .error .arrayIndex

/-- `AbstractPacket.getInt`. -/
def getInt : List UInt8 → Except Exn (BitVec 32)
  | b0 :: b1 :: b2 :: b3 :: _ => .ok ((b0.toBitVec.signExtend 32 &&& 0xFF#32) <<< 24 |||
      (b1.toBitVec.signExtend 32 &&& 0xFF#32) <<< 16 |||
      (b2.toBitVec.signExtend 32 &&& 0xFF#32) <<< 8 |||
      (b3.toBitVec.signExtend 32 &&& 0xFF#32) <<< 0)
  | _ => .error .arrayIndex

/-- `NetLibPacket.ReadPacket`. -/
def netLibReadPacket (pktdata : List UInt8) : Except Exn (Option AbstractPacket) := do
  let (data, dis) := readNBytes (packetHeader .netlib).length pktdata
  if !checkCString data (packetHeader .netlib) then
    return none
  let (version, dis) := read dis
  if version > packetVersion.toNat then
    throw (.badPacketVersion version)
  let (type, dis) := read dis
  let (flags, dis) := read dis
  let (arr, dis) := readNBytes 2 dis
  let seqnum ← getShort arr
  let (arr, dis) := readNBytes 2 dis
  let ack ← getShort arr
  let (arr, dis) := readNBytes 2 dis
  let ackbitfield ← getShort arr
  let (arr, dis) := readNBytes 4 dis
  let recipients ← getInt arr
  let (arr, dis) := readNBytes 2 dis
  let size := (← getShort arr).toInt
  let data := if size > 0 then (readNBytes size.toNat dis).1 else []
  return some ⟨0, toByte version, toByte flags, seqnum, ack, ackbitfield, data, 0, 0,
    .netlib (toByte type) recipients 0⟩

/-- The loop of `S64Packet.ReadPacket` over the characters of the type. -/
def readType : ℕ → List UInt8 → List Char × List UInt8
  | 0, dis => ([], dis)
  | n + 1, dis =>
    let (c, dis) := read dis
    let (type, dis) := readType n dis
    (toChar c :: type, dis)

/-- `S64Packet.ReadPacket`. -/
def s64ReadPacket (pktdata : List UInt8) : Except Exn (Option AbstractPacket) := do
  let (data, dis) := readNBytes (packetHeader .s64).length pktdata
  if !checkCString data (packetHeader .s64) then
    return none
  let (version, dis) := read dis
  if version > packetVersion.toNat then
    throw (.badPacketVersion version)
  let (flags, dis) := read dis
  let (arr, dis) := readNBytes 2 dis
  let seqnum ← getShort arr
  let (arr, dis) := readNBytes 2 dis
  let ack ← getShort arr
  let (arr, dis) := readNBytes 2 dis
  let ackbitfield ← getShort arr
  let (typesize, dis) := read dis
  let (type, dis) := readType typesize.toNat dis
  let (arr, dis) := readNBytes 2 dis
  let size := (← getShort arr).toInt
  let data := if size > 0 then (readNBytes size.toNat dis).1 else []
  return some ⟨0, toByte version, toByte flags, seqnum, ack, ackbitfield, data, 0, 0, .s64 type⟩

/-- The field `size`: the array length cast to a short. -/
def size (data : List UInt8) : BitVec 16 := BitVec.ofNat 16 data.length

/-- `String.getBytes(US_ASCII)`: one byte a character, a question mark for those outside ASCII. -/
def asciiBytes (type : List Char) : List UInt8 :=
  type.map fun c => if c.toNat < 128 then UInt8.ofNat c.toNat else 0x3F

/-- What `GetBytes` puts into its buffer. -/
def puts (p : AbstractPacket) : List UInt8 :=
  match p.body with
  | .netlib type recipients _ =>
    packetHeader .netlib ++ [p.version] ++ [type] ++ [p.flags] ++ be16 p.seqnum ++ be16 p.ack ++
      be16 p.ackbitfield ++ be32 recipients ++ be16 (size p.data) ++
      if (size p.data).toInt > 0 then p.data else []
  | .s64 type =>
    packetHeader .s64 ++ [p.version] ++ [p.flags] ++ be16 p.seqnum ++ be16 p.ack ++
      be16 p.ackbitfield ++ [UInt8.ofNat type.length] ++ asciiBytes type ++ be16 (size p.data) ++
      if (size p.data).toInt > 0 then p.data else []

/-- `NetLibPacket.GetBytes` and `S64Packet.GetBytes`. The buffer holds `PACKET_MAXSIZE` bytes, and a
put that goes past its end throws. -/
def getBytes (p : AbstractPacket) : Except Exn (List UInt8) :=
  if (puts p).length ≤ packetMaxSize then .ok (puts p) else .error .bufferOverflow

/-- `ReadPacket` of the two classes. -/
def readPacket : Kind → List UInt8 → Except Exn (Option AbstractPacket)
  | .netlib => netLibReadPacket
  | .s64 => s64ReadPacket

/-- What `ReadNetLibPacket` and `ReadS64Packet` decode before they look at the sequence. -/
def decode (k : Kind) (data : List UInt8) : Except Exn (Option AbstractPacket) :=
  if !checkCString data (packetHeader k) then .ok none else readPacket k data

/-! ### The stream functions -/

theorem toByte_toNat (b : UInt8) : toByte b.toNat = b := by
  have h := b.toNat_lt
  rw [toByte, ← UInt8.toNat_inj]
  simp
  omega

@[simp] theorem read_nil : read [] = (-1, []) := rfl

@[simp] theorem read_cons (b : UInt8) (dis : List UInt8) : read (b :: dis) = (↑b.toNat, dis) := rfl

@[simp] theorem readNBytes_eq (n : ℕ) (dis : List UInt8) :
    readNBytes n dis = (dis.take n, dis.drop n) := rfl

theorem mask_signExtend (b : BitVec 8) : 0xFF#32 &&& b.signExtend 32 = b.setWidth 32 := by
  revert b; decide

@[simp] theorem getShort_cons (b0 b1 : UInt8) (l : List UInt8) :
    getShort (b0 :: b1 :: l) = .ok (ofBe16 b0 b1) := by
  simp only [getShort, mask_signExtend, ofBe16]
  congr 1
  ext i hi
  grind

theorem getShort_short {l : List UInt8} (h : l.length < 2) : getShort l = .error .arrayIndex := by
  rcases l with _ | ⟨b0, _ | ⟨b1, l⟩⟩
  · rfl
  · rfl
  · simp at h

@[simp] theorem getInt_cons (b0 b1 b2 b3 : UInt8) (l : List UInt8) :
    getInt (b0 :: b1 :: b2 :: b3 :: l) = .ok (ofBe32 b0 b1 b2 b3) := by
  simp only [getInt, BitVec.and_comm _ 0xFF#32, mask_signExtend, ofBe32]
  congr 1
  ext i hi
  grind

theorem readType_append : ∀ (type rest : List UInt8),
    readType type.length (type ++ rest) = (type.map fun b => toChar b.toNat, rest)
  | [], rest => rfl
  | b :: type, rest => by simp [readType, readType_append type rest]

theorem readType_snd : ∀ (n : ℕ) (dis : List UInt8), (readType n dis).2 = dis.drop n
  | 0, dis => rfl
  | n + 1, [] => by simp [readType, readType_snd n []]
  | n + 1, b :: dis => by simp [readType, readType_snd n dis]

/-! ### Reading at a position -/

theorem read_drop (b : List UInt8) (i : ℕ) :
    read (b.drop i) = (if i < b.length then ((b.getD i 0).toNat : ℤ) else -1, b.drop (i + 1)) := by
  split_ifs with h
  · rw [List.drop_eq_getElem_cons h, read_cons]
    simp [h]
  · rw [List.drop_eq_nil_of_le (by omega), List.drop_eq_nil_of_le (by omega), read_nil]

theorem getShort_at (b : List UInt8) (i : ℕ) :
    getShort ((b.drop i).take 2) =
      if i + 2 ≤ b.length then .ok (ofBe16 (b.getD i 0) (b.getD (i + 1) 0)) else .error .arrayIndex := by
  split_ifs with h
  · rw [List.drop_eq_getElem_cons (by omega), List.drop_eq_getElem_cons (by omega),
      List.take_succ_cons, List.take_succ_cons, getShort_cons]
    simp [show i < b.length by omega, show i + 1 < b.length by omega]
  · exact getShort_short (by rw [List.length_take, List.length_drop]; omega)

theorem getInt_short {l : List UInt8} (h : l.length < 4) : getInt l = .error .arrayIndex := by
  rcases l with _ | ⟨b0, _ | ⟨b1, _ | ⟨b2, _ | ⟨b3, l⟩⟩⟩⟩
  iterate 4
    · rfl
  · simp only [List.length_cons] at h
    omega

theorem getInt_at (b : List UInt8) (i : ℕ) :
    getInt ((b.drop i).take 4) =
      if i + 4 ≤ b.length then
        .ok (ofBe32 (b.getD i 0) (b.getD (i + 1) 0) (b.getD (i + 2) 0) (b.getD (i + 3) 0))
      else .error .arrayIndex := by
  split_ifs with h
  · rw [List.drop_eq_getElem_cons (by omega), List.drop_eq_getElem_cons (by omega),
      List.drop_eq_getElem_cons (by omega), List.drop_eq_getElem_cons (by omega),
      List.take_succ_cons, List.take_succ_cons, List.take_succ_cons, List.take_succ_cons, getInt_cons]
    simp [show i < b.length by omega, show i + 1 < b.length by omega, show i + 2 < b.length by omega,
      show i + 3 < b.length by omega]
  · exact getInt_short (by rw [List.length_take, List.length_drop]; omega)

theorem checkCString_iff (data str : List UInt8) :
    checkCString data str = true ↔ data.take str.length <+: str := by
  induction data generalizing str with
  | nil => simp [checkCString]
  | cons c data ih =>
    cases str with
    | nil => simp [checkCString]
    | cons d str =>
      have hcons : checkCString (c :: data) (d :: str) = (c == d && checkCString data str) := rfl
      rw [hcons, Bool.and_eq_true, beq_iff_eq, ih, List.length_cons, List.take_succ_cons,
        List.cons_prefix_cons]

/-- The version byte is there and above the supported one. -/
def BadVersion (b : List UInt8) : Prop := 3 < b.length ∧ packetVersion < b.getD 3 0

instance (b : List UInt8) : Decidable (BadVersion b) := by unfold BadVersion; infer_instance

theorem version_gt_iff (b : List UInt8) :
    (if 3 < b.length then ((b.getD 3 0).toNat : ℤ) else -1) > packetVersion.toNat ↔ BadVersion b := by
  unfold BadVersion
  rw [UInt8.lt_iff_toNat_lt]
  split_ifs with h
  · omega
  · simp [h]

/-! ### What `NetLibPacket.ReadPacket` accepts -/

theorem netLibReadPacket_bytes (version type flags : UInt8) (seqnum ack ackbitfield : BitVec 16)
    (recipients : BitVec 32) (size : BitVec 16) (data : List UInt8) :
    netLibReadPacket (netlibBytes version type flags seqnum ack ackbitfield recipients size data) =
      if packetVersion < version then .error (.badPacketVersion version.toNat) else
        .ok (some ⟨0, version, flags, seqnum, ack, ackbitfield,
          if size.toInt > 0 then data.take size.toInt.toNat else [], 0, 0,
          .netlib type recipients 0⟩) := by
  simp only [netLibReadPacket, netlibBytes, packetHeader, be16, be32, List.cons_append,
    List.nil_append, readNBytes_eq, List.length_cons, List.length_nil, List.take_succ_cons,
    List.take_zero, List.drop_succ_cons, List.drop_zero, read_cons, getShort_cons, getInt_cons,
    ofBe16_byteOf, ofBe32_byteOf, toByte_toNat]
  by_cases hv : packetVersion < version
  · simp [checkCString, hv, UInt8.lt_iff_toNat_lt.mp hv]
    rfl
  · have hn : ¬ (packetVersion.toNat < version.toNat) := fun h => hv (UInt8.lt_iff_toNat_lt.mpr h)
    simp [checkCString, hv, hn]
    rfl

/-- **What `NetLibPacket.ReadPacket` does**, by the bytes that are there. -/
theorem netLibReadPacket_eq (b : List UInt8) :
    netLibReadPacket b =
      if ¬ b.take 3 <+: packetHeader .netlib then .ok none
      else if BadVersion b then .error (.badPacketVersion (b.getD 3 0).toNat)
      else if b.length < 18 then .error .arrayIndex
      else .ok (some ⟨0, b.getD 3 0, b.getD 5 0, ofBe16 (b.getD 6 0) (b.getD 7 0),
        ofBe16 (b.getD 8 0) (b.getD 9 0), ofBe16 (b.getD 10 0) (b.getD 11 0),
        if (ofBe16 (b.getD 16 0) (b.getD 17 0)).toInt > 0 then
          (b.drop 18).take (ofBe16 (b.getD 16 0) (b.getD 17 0)).toInt.toNat else [], 0, 0,
        .netlib (b.getD 4 0) (ofBe32 (b.getD 12 0) (b.getD 13 0) (b.getD 14 0) (b.getD 15 0)) 0⟩) := by
  have hlen : (packetHeader .netlib).length = 3 := rfl
  have hmagic : checkCString (b.take 3) (packetHeader .netlib) = false ↔
      ¬ b.take 3 <+: packetHeader .netlib := by
    rw [← Bool.not_eq_true, checkCString_iff, hlen, List.take_take, Nat.min_self]
  by_cases hm : b.take 3 <+: packetHeader .netlib
  swap
  · have hc := hmagic.mpr hm
    simp [netLibReadPacket, readNBytes_eq, hlen, hc, hm]
    rfl
  have hc : checkCString (b.take 3) (packetHeader .netlib) = true := by
    simpa using mt hmagic.mp (not_not.mpr hm)
  simp only [netLibReadPacket, readNBytes_eq, hlen, hc, Bool.not_true, Bool.false_eq_true, if_false,
    read_drop, List.drop_drop, Nat.reduceAdd, getShort_at, getInt_at, version_gt_iff, hm, not_true_eq_false]
  by_cases hv : BadVersion b
  · have h3 := hv.1
    simp only [hv, if_true, h3]
    rfl
  · simp only [hv, if_false]
    -- the first read that finds too little throws
    by_cases h8 : 8 ≤ b.length
    swap
    · rw [if_pos (by omega : b.length < 18), if_neg h8]
      rfl
    by_cases h10 : 10 ≤ b.length
    swap
    · rw [if_pos (by omega : b.length < 18), if_pos h8, if_neg h10]
      rfl
    by_cases h12 : 12 ≤ b.length
    swap
    · rw [if_pos (by omega : b.length < 18), if_pos h8, if_pos h10, if_neg h12]
      rfl
    by_cases h16 : 16 ≤ b.length
    swap
    · rw [if_pos (by omega : b.length < 18), if_pos h8, if_pos h10, if_pos h12, if_neg h16]
      rfl
    by_cases h18 : 18 ≤ b.length
    swap
    · rw [if_pos (by omega : b.length < 18), if_pos h8, if_pos h10, if_pos h12, if_pos h16, if_neg h18]
      rfl
    rw [if_neg (by omega : ¬ b.length < 18), if_pos h8, if_pos h10, if_pos h12, if_pos h16, if_pos h18,
      if_pos (by omega : 3 < b.length), if_pos (by omega : 4 < b.length), if_pos (by omega : 5 < b.length),
      toByte_toNat, toByte_toNat, toByte_toNat]
    rfl

/-- A stream with the header and all fields has the layout of a NetLib packet. -/
theorem netlib_layout {b : List UInt8} (hm : b.take 3 = packetHeader .netlib) (hb : 18 ≤ b.length) :
    b = netlibBytes (b.getD 3 0) (b.getD 4 0) (b.getD 5 0) (ofBe16 (b.getD 6 0) (b.getD 7 0))
      (ofBe16 (b.getD 8 0) (b.getD 9 0)) (ofBe16 (b.getD 10 0) (b.getD 11 0))
      (ofBe32 (b.getD 12 0) (b.getD 13 0) (b.getD 14 0) (b.getD 15 0))
      (ofBe16 (b.getD 16 0) (b.getD 17 0)) (b.drop 18) := by
  rcases b with _ | ⟨b0, _ | ⟨b1, _ | ⟨b2, _ | ⟨b3, _ | ⟨b4, _ | ⟨b5, _ | ⟨b6, _ | ⟨b7, _ | ⟨b8,
    _ | ⟨b9, _ | ⟨b10, _ | ⟨b11, _ | ⟨b12, _ | ⟨b13, _ | ⟨b14, _ | ⟨b15, _ | ⟨b16, _ | ⟨b17,
      b⟩⟩⟩⟩⟩⟩⟩⟩⟩⟩⟩⟩⟩⟩⟩⟩⟩⟩
  iterate 18
    · simp at hb
  obtain ⟨h0, h1, h2, h3⟩ := byteOf_ofBe32 b12 b13 b14 b15
  simp only [packetHeader, List.take_succ_cons, List.take_zero, List.cons.injEq, and_true] at hm
  simp [netlibBytes, packetHeader, be16, be32, h0, h1, h2, h3, hm]

theorem take_eq_header {k : Kind} {b : List UInt8} (hm : b.take 3 <+: packetHeader k)
    (hb : 3 ≤ b.length) : b.take 3 = packetHeader k := by
  refine hm.eq_of_length ?_
  rw [List.length_take, Nat.min_eq_left hb]
  cases k <;> rfl

/-- **An accepted stream has the layout of a NetLib packet.** -/
theorem netLibReadPacket_some {b : List UInt8} {q : AbstractPacket}
    (h : netLibReadPacket b = .ok (some q)) :
    ∃ version type flags seqnum ack ackbitfield recipients size data,
      b = netlibBytes version type flags seqnum ack ackbitfield recipients size data := by
  rw [netLibReadPacket_eq] at h
  by_cases hm : b.take 3 <+: packetHeader .netlib
  swap
  · rw [if_pos hm] at h
    cases h
  by_cases hv : BadVersion b
  · rw [if_neg (not_not.mpr hm), if_pos hv] at h
    cases h
  by_cases hb : b.length < 18
  · rw [if_neg (not_not.mpr hm), if_neg hv, if_pos hb] at h
    cases h
  have hlayout := netlib_layout (take_eq_header hm (by omega)) (by omega)
  exact ⟨_, _, _, _, _, _, _, _, _, hlayout⟩

/-! ### What `S64Packet.ReadPacket` accepts -/

theorem s64ReadPacket_bytes (version flags : UInt8) (seqnum ack ackbitfield : BitVec 16)
    (typesize : UInt8) (type : List UInt8) (size : BitVec 16) (data : List UInt8)
    (ht : type.length = typesize.toNat) :
    s64ReadPacket (s64Bytes version flags seqnum ack ackbitfield typesize type size data) =
      if packetVersion < version then .error (.badPacketVersion version.toNat) else
        .ok (some ⟨0, version, flags, seqnum, ack, ackbitfield,
          if size.toInt > 0 then data.take size.toInt.toNat else [], 0, 0,
          .s64 (type.map fun b => toChar b.toNat)⟩) := by
  have hr : ∀ l, readType typesize.toNat (type ++ l) = (type.map fun b => toChar b.toNat, l) := by
    intro l; rw [← ht, readType_append]
  simp only [s64ReadPacket, s64Bytes, packetHeader, be16, List.cons_append, List.nil_append,
    List.append_assoc, readNBytes_eq, List.length_cons, List.length_nil, List.take_succ_cons,
    List.take_zero, List.drop_succ_cons, List.drop_zero, read_cons, getShort_cons, ofBe16_byteOf,
    toByte_toNat, Int.toNat_natCast, hr]
  by_cases hv : packetVersion < version
  · simp [checkCString, hv, UInt8.lt_iff_toNat_lt.mp hv]
    rfl
  · have hn : ¬ (packetVersion.toNat < version.toNat) := fun h => hv (UInt8.lt_iff_toNat_lt.mpr h)
    simp [checkCString, hv, hn]
    rfl

/-- The type, if it is all there. -/
theorem readType_fst {n : ℕ} {dis : List UInt8} (h : n ≤ dis.length) :
    (readType n dis).1 = (dis.take n).map fun b => toChar b.toNat := by
  have hn : (dis.take n).length = n := by rw [List.length_take, Nat.min_eq_left h]
  have hread := readType_append (dis.take n) (dis.drop n)
  rw [hn, List.take_append_drop] at hread
  rw [hread]

/-- **What `S64Packet.ReadPacket` does**, by the bytes that are there. -/
theorem s64ReadPacket_eq (b : List UInt8) :
    s64ReadPacket b =
      if ¬ b.take 3 <+: packetHeader .s64 then .ok none
      else if BadVersion b then .error (.badPacketVersion (b.getD 3 0).toNat)
      else if b.length < 14 + (b.getD 11 0).toNat then .error .arrayIndex
      else .ok (some ⟨0, b.getD 3 0, b.getD 4 0, ofBe16 (b.getD 5 0) (b.getD 6 0),
        ofBe16 (b.getD 7 0) (b.getD 8 0), ofBe16 (b.getD 9 0) (b.getD 10 0),
        if (ofBe16 (b.getD (12 + (b.getD 11 0).toNat) 0)
            (b.getD (13 + (b.getD 11 0).toNat) 0)).toInt > 0 then
          (b.drop (14 + (b.getD 11 0).toNat)).take (ofBe16 (b.getD (12 + (b.getD 11 0).toNat) 0)
            (b.getD (13 + (b.getD 11 0).toNat) 0)).toInt.toNat else [], 0, 0,
        .s64 (((b.drop 12).take (b.getD 11 0).toNat).map fun c => toChar c.toNat)⟩) := by
  have hlen : (packetHeader .s64).length = 3 := rfl
  have hmagic : checkCString (b.take 3) (packetHeader .s64) = false ↔
      ¬ b.take 3 <+: packetHeader .s64 := by
    rw [← Bool.not_eq_true, checkCString_iff, hlen, List.take_take, Nat.min_self]
  by_cases hm : b.take 3 <+: packetHeader .s64
  swap
  · have hc := hmagic.mpr hm
    simp [s64ReadPacket, readNBytes_eq, hlen, hc, hm]
    rfl
  have hc : checkCString (b.take 3) (packetHeader .s64) = true := by
    simpa using mt hmagic.mp (not_not.mpr hm)
  simp only [s64ReadPacket, readNBytes_eq, hlen, hc, Bool.not_true, Bool.false_eq_true, if_false,
    read_drop, List.drop_drop, Nat.reduceAdd, getShort_at, readType_snd, version_gt_iff, hm,
    not_true_eq_false]
  by_cases hv : BadVersion b
  · have h3 := hv.1
    simp only [hv, if_true, h3]
    rfl
  · simp only [hv, if_false]
    -- the first read that finds too little throws
    by_cases h7 : 7 ≤ b.length
    swap
    · rw [if_pos (by omega : b.length < 14 + (b.getD 11 0).toNat), if_neg h7]
      rfl
    by_cases h9 : 9 ≤ b.length
    swap
    · rw [if_pos (by omega : b.length < 14 + (b.getD 11 0).toNat), if_pos h7, if_neg h9]
      rfl
    by_cases h11 : 11 ≤ b.length
    swap
    · rw [if_pos (by omega : b.length < 14 + (b.getD 11 0).toNat), if_pos h7, if_pos h9, if_neg h11]
      rfl
    by_cases h12 : 11 < b.length
    swap
    · rw [if_pos (by omega : b.length < 14 + (b.getD 11 0).toNat), if_pos h7, if_pos h9, if_pos h11]
      simp only [h12, if_false, Int.reduceNeg, Int.reduceToNat, Nat.add_zero]
      rw [if_neg (by omega : ¬ 12 + 2 ≤ b.length)]
      rfl
    simp only [h12, if_true, Int.toNat_natCast]
    rw [if_pos h7, if_pos h9, if_pos h11]
    by_cases h14 : 12 + (b.getD 11 0).toNat + 2 ≤ b.length
    swap
    · rw [if_pos (by omega : b.length < 14 + (b.getD 11 0).toNat), if_neg h14]
      rfl
    have htype : (b.getD 11 0).toNat ≤ (b.drop 12).length := by
      rw [List.length_drop]
      omega
    have h13 : 12 + (b.getD 11 0).toNat + 1 = 13 + (b.getD 11 0).toNat := by omega
    have h14' : 2 + (12 + (b.getD 11 0).toNat) = 14 + (b.getD 11 0).toNat := by omega
    have h14'' : 12 + (b.getD 11 0).toNat + 2 = 14 + (b.getD 11 0).toNat := by omega
    rw [if_neg (by omega : ¬ b.length < 14 + (b.getD 11 0).toNat), if_pos h14, readType_fst htype,
      if_pos (by omega : 3 < b.length), if_pos (by omega : 4 < b.length), toByte_toNat, toByte_toNat, h13,
      h14'']
    rfl

/-- A stream with the header and all fields has the layout of an S64 packet. -/
theorem s64_layout {b : List UInt8} (hm : b.take 3 = packetHeader .s64)
    (hb : 14 + (b.getD 11 0).toNat ≤ b.length) :
    b = s64Bytes (b.getD 3 0) (b.getD 4 0) (ofBe16 (b.getD 5 0) (b.getD 6 0))
      (ofBe16 (b.getD 7 0) (b.getD 8 0)) (ofBe16 (b.getD 9 0) (b.getD 10 0)) (b.getD 11 0)
      ((b.drop 12).take (b.getD 11 0).toNat)
      (ofBe16 (b.getD (12 + (b.getD 11 0).toNat) 0) (b.getD (13 + (b.getD 11 0).toNat) 0))
      (b.drop (14 + (b.getD 11 0).toNat)) := by
  generalize ht : (b.getD 11 0).toNat = t at hb
  have hrest : b.drop (12 + t) = b.getD (12 + t) 0 :: b.getD (13 + t) 0 :: b.drop (14 + t) := by
    have h12 : 12 + t < b.length := by omega
    have h13 : 13 + t < b.length := by omega
    have hnext : 12 + t + 1 = 13 + t := by omega
    have hlast : 13 + t + 1 = 14 + t := by omega
    rw [List.drop_eq_getElem_cons h12, hnext, List.drop_eq_getElem_cons h13, hlast]
    simp only [List.getD_eq_getElem?_getD, List.getElem?_eq_getElem h12, List.getElem?_eq_getElem h13,
      Option.getD_some]
  have htail : b.drop 12 = (b.drop 12).take t ++ b.drop (12 + t) := by
    rw [← List.drop_drop, List.take_append_drop]
  have hfirst : b = b.take 12 ++ b.drop 12 := (List.take_append_drop 12 b).symm
  have hhead : b.take 12 = packetHeader .s64 ++ [b.getD 3 0, b.getD 4 0, b.getD 5 0, b.getD 6 0,
      b.getD 7 0, b.getD 8 0, b.getD 9 0, b.getD 10 0, b.getD 11 0] := by
    rcases b with _ | ⟨b0, _ | ⟨b1, _ | ⟨b2, _ | ⟨b3, _ | ⟨b4, _ | ⟨b5, _ | ⟨b6, _ | ⟨b7, _ | ⟨b8,
      _ | ⟨b9, _ | ⟨b10, _ | ⟨b11, b⟩⟩⟩⟩⟩⟩⟩⟩⟩⟩⟩⟩
    iterate 12
      · simp only [List.length_cons, List.length_nil] at hb
        omega
    simp only [packetHeader, List.take_succ_cons, List.take_zero, List.cons.injEq, and_true] at hm
    simp [packetHeader, hm]
  conv_lhs => rw [hfirst, hhead, htail, hrest]
  simp [s64Bytes, be16]

/-- **An accepted stream has the layout of an S64 packet.** -/
theorem s64ReadPacket_some {b : List UInt8} {q : AbstractPacket}
    (h : s64ReadPacket b = .ok (some q)) :
    ∃ version flags seqnum ack ackbitfield typesize type size data,
      type.length = UInt8.toNat typesize ∧
        b = s64Bytes version flags seqnum ack ackbitfield typesize type size data := by
  rw [s64ReadPacket_eq] at h
  by_cases hm : b.take 3 <+: packetHeader .s64
  swap
  · rw [if_pos hm] at h
    cases h
  by_cases hv : BadVersion b
  · rw [if_neg (not_not.mpr hm), if_pos hv] at h
    cases h
  by_cases hb : b.length < 14 + (b.getD 11 0).toNat
  · rw [if_neg (not_not.mpr hm), if_neg hv, if_pos hb] at h
    cases h
  have hlayout := s64_layout (take_eq_header hm (by omega)) (by omega)
  refine ⟨_, _, _, _, _, _, _, _, _, ?_, hlayout⟩
  rw [List.length_take, List.length_drop]
  omega

/-! ### The header fields -/

/-- The bytes of a packet carry its header. -/
theorem getBytes_carries {p : AbstractPacket} {b : List UInt8} (h : getBytes p = .ok b) :
    Carries b p.body.kind p.header := by
  have hb : b = puts p := by
    unfold getBytes at h
    split_ifs at h
    exact (Except.ok.inj h).symm
  subst hb
  unfold puts
  cases hp : p.body with
  | netlib type recipients sender =>
    exact carries_netlibBytes p.version type p.flags p.seqnum p.ack p.ackbitfield recipients _ _
  | s64 type =>
    exact carries_s64Bytes p.version p.flags p.seqnum p.ack p.ackbitfield
      (UInt8.ofNat type.length) (asciiBytes type) (size p.data) _

/-- An accepted packet has the header that stands in the bytes. -/
theorem readPacket_header {k : Kind} {b : List UInt8} {q : AbstractPacket}
    (h : readPacket k b = .ok (some q)) : Carries b k q.header := by
  cases k with
  | netlib =>
    obtain ⟨version, type, flags, seqnum, ack, ackbitfield, recipients, size, data, rfl⟩ :=
      netLibReadPacket_some h
    rw [readPacket, netLibReadPacket_bytes] at h
    split_ifs at h <;> simp at h
    all_goals subst h; exact carries_netlibBytes ..
  | s64 =>
    obtain ⟨version, flags, seqnum, ack, ackbitfield, typesize, type, size, data, ht, rfl⟩ :=
      s64ReadPacket_some h
    rw [readPacket, s64ReadPacket_bytes _ _ _ _ _ _ _ _ _ ht] at h
    split_ifs at h <;> simp at h
    all_goals subst h; exact carries_s64Bytes ..

theorem decode_header {k : Kind} {b : List UInt8} {q : AbstractPacket}
    (h : decode k b = .ok (some q)) : Carries b k q.header := by
  unfold decode at h
  split_ifs at h
  · simp at h
  · exact readPacket_header h

/-- The bytes of a packet are decoded if they are read. -/
theorem decode_eq {k : Kind} {b : List UInt8} (h : b.take 3 = packetHeader k) :
    decode k b = readPacket k b := by
  have hc : checkCString b (packetHeader k) = true := by
    obtain ⟨l, rfl⟩ : ∃ l, b = packetHeader k ++ l := ⟨b.drop 3, by rw [← h, List.take_append_drop]⟩
    cases k <;> simp [checkCString, packetHeader]
  simp [decode, hc]

end N64NetLib.Packet.Java
