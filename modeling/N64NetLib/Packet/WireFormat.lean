import N64NetLib.Packet.Java
import N64NetLib.Packet.Cpp
import Mathlib.Data.List.TakeWhile

/-! # The wire format

One definition of the bytes of a packet, `wireBytes`, against the four codecs: on a well-formed packet
both encoders write these bytes (`java_getBytes`, `cpp_getBytes`) and both decoders read the packet
back from them (`java_readPacket`, `cpp_decode`). `Encoding` says which byte strings are the encoding
of a packet, without reference to any codec; each of them comes from a well-formed packet
(`Encoding.exists_packet`). -/

namespace N64NetLib.Packet.WireFormat

open N64NetLib.Lib.BigEndian N64NetLib.Lib.Memory N64NetLib.Packet.Basic N64NetLib.Packet.Sequence

/-- At most 255 ASCII characters, none of them NUL. -/
def AsciiText (type : List Char) : Prop :=
  type.length ≤ 255 ∧ ∀ c ∈ type, 0 < c.toNat ∧ c.toNat < 128

/-- The bytes of an ASCII text. -/
def textBytes (type : List Char) : List UInt8 := type.map fun c => UInt8.ofNat c.toNat

/-- How many bytes a packet takes on the wire. -/
def wireLength (p : AbstractPacket) : ℕ :=
  match p.body with
  | .netlib .. => 18 + p.data.length
  | .s64 type => 14 + type.length + p.data.length

/-- A packet the format can carry. -/
structure WellFormed (p : AbstractPacket) : Prop where
  version : p.version ≤ packetVersion
  type : ∀ type, p.body = .s64 type → AsciiText type
  size : wireLength p ≤ packetMaxSize

/-- **The bytes of a packet.** -/
def wireBytes (p : AbstractPacket) : List UInt8 :=
  match p.body with
  | .netlib type recipients _ =>
    netlibBytes p.version type p.flags p.seqnum p.ack p.ackbitfield recipients
      (BitVec.ofNat 16 p.data.length) p.data
  | .s64 type =>
    s64Bytes p.version p.flags p.seqnum p.ack p.ackbitfield (UInt8.ofNat type.length)
      (textBytes type) (BitVec.ofNat 16 p.data.length) p.data

/-- The same packet as a new object on the other side: the send time, the attempts and the sender are
not on the wire. -/
def received (p : AbstractPacket) : AbstractPacket :=
  { p with
    ref := 0, sendtime := 0, attempts := 0
    body := match p.body with
      | .netlib type recipients _ => .netlib type recipients 0
      | .s64 type => .s64 type }

/-- The byte strings that are exactly one encoding of format `k`. -/
inductive Encoding : Kind → List UInt8 → Prop
  | netlib (version type flags : UInt8) (seqnum ack ackbitfield : BitVec 16) (recipients : BitVec 32)
      (data : List UInt8) (hversion : version ≤ packetVersion)
      (hsize : 18 + data.length ≤ packetMaxSize) :
      Encoding .netlib (netlibBytes version type flags seqnum ack ackbitfield recipients
        (BitVec.ofNat 16 data.length) data)
  | s64 (version flags : UInt8) (seqnum ack ackbitfield : BitVec 16) (text data : List UInt8)
      (hversion : version ≤ packetVersion) (hlen : text.length ≤ 255)
      (htext : ∀ b ∈ text, 0 < b ∧ b < 128)
      (hsize : 14 + text.length + data.length ≤ packetMaxSize) :
      Encoding .s64 (s64Bytes version flags seqnum ack ackbitfield (UInt8.ofNat text.length) text
        (BitVec.ofNat 16 data.length) data)

/-! ### Sizes and text -/

theorem length_wireBytes (p : AbstractPacket) : (wireBytes p).length = wireLength p := by
  unfold wireBytes wireLength
  cases p.body with
  | netlib type recipients sender => simp [netlibBytes, packetHeader]; omega
  | s64 type => simp [s64Bytes, packetHeader, textBytes]; omega

theorem WellFormed.length_data {p : AbstractPacket} (h : WellFormed p) : p.data.length < 4096 := by
  have h := h.size
  unfold wireLength packetMaxSize at h
  cases hp : p.body <;> simp only [hp] at h <;> omega

theorem toInt_size {n : ℕ} (h : n < 4096) : (BitVec.ofNat 16 n).toInt = n := by
  rw [BitVec.toInt_eq_toNat_cond, BitVec.toNat_ofNat]
  split_ifs <;> omega

theorem toNat_size {n : ℕ} (h : n < 4096) : (BitVec.ofNat 16 n).toNat = n := by
  rw [BitVec.toNat_ofNat]; omega

theorem toNat_length {n : ℕ} (h : n ≤ 255) : (UInt8.ofNat n).toNat = n := by
  simp; omega

theorem length_textBytes (type : List Char) : (textBytes type).length = type.length := by
  simp [textBytes]

theorem char_textBytes {c : Char} (hc : c.toNat < 128) :
    Char.ofNat (UInt8.ofNat c.toNat).toNat = c := by
  rw [toNat_length (by omega), Char.ofNat_toNat]

theorem asciiBytes_eq {type : List Char} (h : AsciiText type) : Java.asciiBytes type = textBytes type :=
  List.map_congr_left fun c hc => by simp [(h.2 c hc).2]

theorem toChar_textBytes {type : List Char} (h : AsciiText type) :
    ((textBytes type).map fun b => Java.toChar b.toNat) = type := by
  rw [textBytes, List.map_map]
  refine (List.map_congr_left fun c hc => ?_).trans (List.map_id type)
  have hc := (h.2 c hc).2
  have hn : (((UInt8.ofNat c.toNat).toNat : ℤ) % 65536).toNat = (UInt8.ofNat c.toNat).toNat := by
    rw [toNat_length (by omega)]; omega
  simp only [Function.comp, Java.toChar, hn, char_textBytes hc, id]

theorem mbStr_eq (host : Host) {type : List Char} (h : AsciiText type) :
    (List.range type.length).map (Cpp.mbStr host type) = textBytes type := by
  have ha : type.all (·.toNat < 128) = true := by simpa using fun c hc => (h.2 c hc).2
  refine List.ext_getElem (by simp [textBytes]) fun i h1 h2 => ?_
  have hi : i < type.length := by simpa using h1
  simp [Cpp.mbStr, ha, textBytes, hi]

theorem wxString_textBytes (host : Host) {type : List Char} (h : AsciiText type) :
    Cpp.wxString host (textBytes type) = type := by
  have hb : ∀ b ∈ textBytes type, 0 < b.toNat ∧ b.toNat < 128 := by
    intro b hb
    obtain ⟨c, hc, rfl⟩ := List.mem_map.mp hb
    have := h.2 c hc
    rw [toNat_length (by omega)]
    exact this
  have htake : (textBytes type).takeWhile (· ≠ 0) = textBytes type := by
    rw [List.takeWhile_eq_self_iff]
    intro b hb'
    have := (hb b hb').1
    simp only [decide_eq_true_eq]
    rintro rfl
    simp at this
  have hascii : Cpp.isAscii (textBytes type) = true := by
    simp only [Cpp.isAscii, List.all_eq_true, decide_eq_true_eq]
    exact fun b hb' => UInt8.lt_iff_toNat_lt.mpr (hb b hb').2
  simp only [Cpp.wxString, htake, hascii, if_true]
  rw [textBytes, List.map_map]
  exact (List.map_congr_left fun c hc => char_textBytes (h.2 c hc).2).trans (List.map_id type)

/-! ### The encoders -/

theorem java_getBytes {p : AbstractPacket} (h : WellFormed p) :
    Java.getBytes p = .ok (wireBytes p) := by
  have hd := toInt_size h.length_data
  have hdata : (if (Java.size p.data).toInt > 0 then p.data else []) = p.data := by
    rw [Java.size, hd]
    split_ifs with hn
    · rfl
    · exact (List.eq_nil_of_length_eq_zero (by omega)).symm
  have hputs : Java.puts p = wireBytes p := by
    unfold Java.puts wireBytes
    cases hp : p.body with
    | netlib type recipients sender => simp only [netlibBytes, hdata]; simp [Java.size]
    | s64 type => simp only [s64Bytes, hdata, asciiBytes_eq (h.type type hp)]; simp [Java.size]
  rw [Java.getBytes, hputs, if_pos (by rw [length_wireBytes]; exact h.size)]

theorem cpp_getAsBytes (host : Host) {p : AbstractPacket} (h : WellFormed p) :
    Cpp.getAsBytes host p = wireBytes p := by
  have hd : p.data.take (Cpp.size p).toNat = p.data := by
    rw [Cpp.size, toNat_size h.length_data, List.take_length]
  cases hp : p.body with
  | netlib type recipients sender => rw [Cpp.getAsBytes_netlib host hp, hd]; simp [wireBytes, hp, Cpp.size]
  | s64 type =>
    rw [Cpp.getAsBytes_s64 host hp, hd, mbStr_eq host (h.type type hp)]
    simp [wireBytes, hp, Cpp.size]

/-- The bytes of a packet that fits are as many as `GetAsBytes_Size` says. -/
theorem getAsBytesSize_eq {p : AbstractPacket} (h : WellFormed p) :
    (Cpp.getAsBytesSize p).toNat = wireLength p := by
  have hs := h.size
  have hsize : (Cpp.size p).toNat = p.data.length := by
    rw [Cpp.size, toNat_size h.length_data]
  rw [Cpp.toNat_getAsBytesSize, Cpp.written, hsize]
  unfold wireLength packetMaxSize at *
  cases hp : p.body <;> simp only [hp] at hs ⊢ <;> omega

theorem cpp_getBytes (host : Host) {p : AbstractPacket} (h : WellFormed p) :
    Cpp.getBytes host p = .ok (wireBytes p) := by
  rw [Cpp.getBytes, cpp_getAsBytes host h, getAsBytesSize_eq h, length_wireBytes, if_pos le_rfl]

/-! ### The decoders -/

/-- Java reads the packet back, also with other bytes behind it. -/
theorem java_readPacket {p : AbstractPacket} (h : WellFormed p) (rest : List UInt8) :
    Java.readPacket p.body.kind (wireBytes p ++ rest) = .ok (some (received p)) := by
  have hd := toInt_size h.length_data
  have hv : ¬ packetVersion < p.version := UInt8.not_lt.mpr h.version
  have hdata : (if (BitVec.ofNat 16 p.data.length).toInt > 0 then
      (p.data ++ rest).take (BitVec.ofNat 16 p.data.length).toInt.toNat else []) = p.data := by
    rw [hd]
    split_ifs with hn
    · simp
    · exact (List.eq_nil_of_length_eq_zero (by omega)).symm
  cases hp : p.body with
  | netlib type recipients sender =>
    have hb : wireBytes p ++ rest = netlibBytes p.version type p.flags p.seqnum p.ack p.ackbitfield
        recipients (BitVec.ofNat 16 p.data.length) (p.data ++ rest) := by
      simp [wireBytes, hp, netlibBytes]
    rw [hb, Body.kind, Java.readPacket, Java.netLibReadPacket_bytes, if_neg hv, hdata]
    simp [received, hp]
  | s64 type =>
    have ht := h.type type hp
    have hb : wireBytes p ++ rest = s64Bytes p.version p.flags p.seqnum p.ack p.ackbitfield
        (UInt8.ofNat type.length) (textBytes type) (BitVec.ofNat 16 p.data.length)
        (p.data ++ rest) := by
      simp [wireBytes, hp, s64Bytes]
    have hlen : (textBytes type).length = (UInt8.ofNat type.length).toNat := by
      rw [length_textBytes, toNat_length ht.1]
    rw [hb, Body.kind, Java.readPacket, Java.s64ReadPacket_bytes _ _ _ _ _ _ _ _ _ hlen, if_neg hv,
      hdata, toChar_textBytes ht]
    simp [received, hp]

/-- A block of cells that lies in the bytes. -/
theorem map_inBuffer {l : List UInt8} (pre mid post : List UInt8) (hl : l = pre ++ mid ++ post)
    {i n : ℕ} (hi : i = pre.length) (hn : n = mid.length) (junk : ℕ → UInt8) :
    (List.range' i n).map (inBuffer l junk) = mid := by
  subst hl hi hn
  refine List.ext_getElem (by simp) fun j h1 h2 => ?_
  have hj : pre.length + 1 * j < (pre ++ mid ++ post).length := by simp; omega
  simp only [List.getElem_map, List.getElem_range']
  rw [inBuffer_of_lt hj]
  simp [h2]

theorem hasMagic_append {k : Kind} (l : List UInt8) (junk : ℕ → UInt8) :
    Cpp.HasMagic k (inBuffer (packetHeader k ++ l) junk) := by
  intro j hj
  rw [inBuffer_of_lt (by simp; omega), List.getElem_append_left hj]

/-- C++ reads the packet back, whatever stands in the buffer behind it. -/
theorem cpp_decode (host : Host) {p : AbstractPacket} (h : WellFormed p) (junk : ℕ → UInt8) :
    (Cpp.decode host p.body.kind).run (inBuffer (wireBytes p) junk) = .ok (some (received p)) := by
  have hd := toNat_size h.length_data
  have hv : ¬ packetVersion < p.version := UInt8.not_lt.mpr h.version
  rw [Cpp.run_decode]
  cases hp : p.body with
  | netlib type recipients sender =>
    have hb : wireBytes p = packetHeader .netlib ++ ([p.version, type, p.flags] ++ be16 p.seqnum ++
        be16 p.ack ++ be16 p.ackbitfield ++ be32 recipients ++
        be16 (BitVec.ofNat 16 p.data.length) ++ p.data) := by
      simp [wireBytes, hp, netlibBytes]
    have hm : Cpp.HasMagic .netlib (inBuffer (wireBytes p) junk) := hb ▸ hasMagic_append _ junk
    have hdata := map_inBuffer (l := wireBytes p) _ p.data []
      (by rw [hb, List.append_nil, ← List.append_assoc]) (i := 18) (by simp [packetHeader]) rfl junk
    have hcell := fun i : ℕ => congrArg (fun l : List UInt8 => l[i]?) hb
    rw [Body.kind, Cpp.fromBytes, Cpp.run_netLibFromBytes, if_pos hm]
    simp [inBuffer, hcell, packetHeader, be16, be32, hv, hd, hdata, received, hp]
  | s64 type =>
    have ht := h.type type hp
    have hlen := toNat_length ht.1
    have hb : wireBytes p = packetHeader .s64 ++ ([p.version, p.flags] ++ be16 p.seqnum ++
        be16 p.ack ++ be16 p.ackbitfield ++ [UInt8.ofNat type.length] ++ textBytes type ++
        be16 (BitVec.ofNat 16 p.data.length) ++ p.data) := by
      simp [wireBytes, hp, s64Bytes]
    have hm : Cpp.HasMagic .s64 (inBuffer (wireBytes p) junk) := hb ▸ hasMagic_append _ junk
    have hcell := fun i : ℕ => congrArg (fun l : List UInt8 => l[i]?) hb
    have htext := map_inBuffer (l := wireBytes p)
      (packetHeader .s64 ++ ([p.version, p.flags] ++ be16 p.seqnum ++ be16 p.ack ++
        be16 p.ackbitfield ++ [UInt8.ofNat type.length])) (textBytes type)
      (be16 (BitVec.ofNat 16 p.data.length) ++ p.data) (by rw [hb]; simp [packetHeader])
      (i := 12) (by simp [packetHeader]) (length_textBytes type).symm junk
    have hdata := map_inBuffer (l := wireBytes p) _ p.data []
      (by rw [hb, List.append_nil, ← List.append_assoc]) (i := 14 + type.length)
      (by simp [packetHeader, length_textBytes]; omega) rfl junk
    have h11 : inBuffer (wireBytes p) junk 11 = UInt8.ofNat type.length := by
      simp [inBuffer, hcell, packetHeader, be16]
    have hsize := map_inBuffer (l := wireBytes p)
      (packetHeader .s64 ++ ([p.version, p.flags] ++ be16 p.seqnum ++ be16 p.ack ++
        be16 p.ackbitfield ++ [UInt8.ofNat type.length] ++ textBytes type))
      (be16 (BitVec.ofNat 16 p.data.length)) p.data (by rw [hb]; simp) (i := 12 + type.length)
      (by simp [packetHeader, length_textBytes]; omega) (n := 2) rfl junk
    have h1 : 12 + type.length + 1 = 13 + type.length := by omega
    simp only [List.range'_succ, List.range'_zero, List.map_cons, List.map_nil, be16,
      List.cons.injEq, and_true, h1] at hsize
    obtain ⟨h12, h13⟩ := hsize
    rw [Body.kind, Cpp.fromBytes, Cpp.run_s64FromBytes, if_pos hm, h11, hlen, h12, h13,
      ofBe16_byteOf, hd, hdata, htext, wxString_textBytes host ht]
    simp [inBuffer, hcell, packetHeader, be16, hv, received, hp]

/-! ### Every encoding is the encoding of a packet -/

/-- An ASCII text without NUL is the bytes of a type. -/
theorem exists_text {text : List UInt8} (hlen : text.length ≤ 255)
    (htext : ∀ b ∈ text, 0 < b ∧ b < 128) :
    ∃ type, AsciiText type ∧ textBytes type = text ∧ type.length = text.length := by
  have hchar : ∀ b ∈ text, (Char.ofNat b.toNat).toNat = b.toNat := fun b hb => by
    have h128 : b.toNat < 128 := UInt8.lt_iff_toNat_lt.mp (htext b hb).2
    have hv : b.toNat.isValidChar := Or.inl (by omega)
    rw [Char.ofNat, dif_pos hv]
    rfl
  refine ⟨text.map fun b => Char.ofNat b.toNat, ⟨by simpa using hlen, fun c hc => ?_⟩, ?_, by simp⟩
  · obtain ⟨b, hb, rfl⟩ := List.mem_map.mp hc
    rw [hchar b hb]
    exact ⟨UInt8.lt_iff_toNat_lt.mp (htext b hb).1, UInt8.lt_iff_toNat_lt.mp (htext b hb).2⟩
  · rw [textBytes, List.map_map]
    refine (List.map_congr_left fun b hb => ?_).trans (List.map_id text)
    simp [Function.comp, hchar b hb]

theorem Encoding.exists_packet {k : Kind} {b : List UInt8} (h : Encoding k b) :
    ∃ q, WellFormed q ∧ q.body.kind = k ∧ received q = q ∧ wireBytes q = b := by
  cases h with
  | netlib version type flags seqnum ack ackbitfield recipients data hversion hsize =>
    exact ⟨⟨0, version, flags, seqnum, ack, ackbitfield, data, 0, 0, .netlib type recipients 0⟩,
      ⟨hversion, by simp, hsize⟩, rfl, rfl, rfl⟩
  | s64 version flags seqnum ack ackbitfield text data hversion hlen htext hsize =>
    obtain ⟨type, ht, hbytes, hl⟩ := exists_text hlen htext
    refine ⟨⟨0, version, flags, seqnum, ack, ackbitfield, data, 0, 0, .s64 type⟩,
      ⟨hversion, by simpa using ht, by simpa [wireLength, hl] using hsize⟩, rfl, rfl, ?_⟩
    simp [wireBytes, hbytes, hl]

/-! ### One format -/

/-- **The wire format is one format.** On a well-formed packet the two encoders write the same bytes,
and each of the two decoders gets the packet back from them; from an encoding each decoder gets a
packet that both encoders turn into the same encoding again. -/
theorem codecs_agree (host : Host) :
    (∀ p, WellFormed p → ∃ b, Java.getBytes p = .ok b ∧ Cpp.getBytes host p = .ok b ∧
      Java.readPacket p.body.kind b = .ok (some (received p)) ∧
      ∀ junk, (Cpp.decode host p.body.kind).run (inBuffer b junk) = .ok (some (received p))) ∧
    (∀ k b, Encoding k b → ∃ q, Java.readPacket k b = .ok (some q) ∧
      (∀ junk, (Cpp.decode host k).run (inBuffer b junk) = .ok (some q)) ∧
      Java.getBytes q = .ok b ∧ Cpp.getBytes host q = .ok b) := by
  have hread : ∀ p, WellFormed p →
      Java.readPacket p.body.kind (wireBytes p) = .ok (some (received p)) := fun p hp => by
    simpa using java_readPacket hp []
  refine ⟨fun p hp => ?_, fun k b hb => ?_⟩
  · exact ⟨wireBytes p, java_getBytes hp, cpp_getBytes host hp, hread p hp, cpp_decode host hp⟩
  · obtain ⟨q, hq, rfl, hrq, rfl⟩ := hb.exists_packet
    refine ⟨q, ?_, fun junk => ?_, java_getBytes hq, cpp_getBytes host hq⟩
    · rw [hread q hq, hrq]
    · rw [cpp_decode host hq, hrq]

/-- A packet of either format. -/
def samplePackets : List AbstractPacket :=
  [newNetLibPacket 0 5 [1, 2] flagUnreliable, newS64Packet 1 ['L', 'I', 'S', 'T'] [] flagExplicitack]

theorem codecs_agree_samplePackets : ∀ p ∈ samplePackets, ∃ b,
    Java.getBytes p = .ok b ∧ Cpp.getBytes .x86 p = .ok b ∧
      Java.readPacket p.body.kind b = .ok (some (received p)) ∧
      ∀ junk, (Cpp.decode .x86 p.body.kind).run (inBuffer b junk) = .ok (some (received p)) := by
  intro p hp
  refine (codecs_agree .x86).1 p ⟨?_, fun type htype => ?_, ?_⟩
  · revert p; decide
  · simp only [samplePackets, List.mem_cons, List.not_mem_nil, or_false] at hp
    rcases hp with rfl | rfl
    · simp [newNetLibPacket] at htype
    · obtain rfl : ['L', 'I', 'S', 'T'] = type := by simpa [newS64Packet] using htype
      exact ⟨by decide, by simp⟩
  · revert p; decide

end N64NetLib.Packet.WireFormat
