import N64NetLib.Master.Servers

/-! # What the browser reads about a server

`ParsePacket_Server` and `DiscoveredServer`, up to what they do with what they read. They go through the
payload of a packet with an offset of 32 bits, to which they add the lengths that stand in the payload
itself; none of these is looked at before it is used, and a hash is copied into an array of 32 bytes,
however long it is.

Both stay within the payload and within the array exactly if the lengths are right (`bounded_iff`). -/

namespace N64NetLib.Client.ServerInfo

open N64NetLib.Lib.BigEndian N64NetLib.Lib.Memory N64NetLib.Lib.Memory.Load N64NetLib.Lib.Utf8
open N64NetLib.Packet.Basic N64NetLib.Packet.Cpp N64NetLib.Master.Servers

/-- `wxString` of bytes and their number: the text if they are UTF-8, and otherwise empty. -/
def wxStringOf (bytes : List UInt8) : List Char := (ofUtf8 bytes).getD []

/-- A digit of `%X`. -/
def hexDigit (n : ℕ) : Char := Char.ofNat (if n < 10 then 48 + n else 55 + n)

/-- `wxString::Format("%02X", b)` for each of the bytes. -/
def formatHex (bytes : List UInt8) : List Char :=
  bytes.flatMap fun b => [hexDigit (b.toNat / 16), hexDigit (b.toNat % 16)]

/-- `FoundServer`, with what a `SERVER` packet says. -/
structure FoundServer where
  fulladdress : List Char
  romname : List Char
  romhash : List Char
  romdownloadable : Bool
deriving DecidableEq

/-- What a `DISCOVER` packet says. -/
structure Discovered where
  fulladdress : List Char
  name : List Char
  playercount : BitVec 32
  maxplayers : BitVec 32
deriving DecidableEq

/-- A length or a number at the offset, and the offset behind it. -/
def read32 (buffoffset : BitVec 32) : Decoder (BitVec 32 × BitVec 32) := do
  let n ← load32 buffoffset.toNat
  pure (swapEndian32 n, buffoffset + 4)

/-- A length and as many bytes, and the offset behind them. -/
def readBytes (buffoffset : BitVec 32) : Decoder (List UInt8 × BitVec 32) := do
  let (n, buffoffset) ← read32 buffoffset
  let bytes ← loadMany buffoffset.toNat n.toNat
  pure (bytes, buffoffset + n)

/-- `ParsePacket_Server`: the server, and how many bytes were copied into the array `hash`. -/
def parsePacketServer : Decoder (FoundServer × ℕ) := do
  let (fulladdress, buffoffset) ← readBytes 0
  let (romname, buffoffset) ← readBytes buffoffset
  let (hash, buffoffset) ← readBytes buffoffset
  let hasrom ← cell buffoffset.toNat
  pure (⟨wxStringOf fulladdress, wxStringOf romname, formatHex hash, hasrom ≠ 0⟩, hash.length)

/-- `DiscoveredServer`, where `serverlist` says which addresses it has; for the others it stops. -/
def discoveredServer (serverlist : List Char → Bool) : Decoder (Option Discovered) := do
  let (fulladdress, buffoffset) ← readBytes 0
  if serverlist (wxStringOf fulladdress) then
    let (name, buffoffset) ← readBytes buffoffset
    let (playercount, buffoffset) ← read32 buffoffset
    let (maxplayers, _) ← read32 buffoffset
    pure (some ⟨wxStringOf fulladdress, wxStringOf name, playercount, maxplayers⟩)
  else pure none

/-- The size of the array `hash`. -/
def hashSize : ℕ := 32

/-- The two kinds of packets. -/
inductive Info
  | server
  | discover (serverlist : List Char → Bool)

/-! ### What should come of it -/

/-- **In bounds**: every byte read is one of the payload, and what is copied fits into the array. -/
def Bounded (payload : List UInt8) (junk : ℕ → UInt8) : Info → Prop
  | .server =>
    Reads (inBuffer payload junk) (· < payload.length) (fun r => r.2 ≤ hashSize) parsePacketServer
  | .discover serverlist =>
    Reads (inBuffer payload junk) (· < payload.length) (fun _ => True) (discoveredServer serverlist)

/-- The number at index `i` of the payload. -/
def numberAt (payload : List UInt8) (i : ℕ) : BitVec 32 :=
  ofBe32 (payload.getD i 0) (payload.getD (i + 1) 0) (payload.getD (i + 2) 0) (payload.getD (i + 3) 0)

/-- A length stands at index `i` and as many bytes behind it, and what follows them is right. -/
def HasBytes (payload : List UInt8) (i : ℕ) (next : ℕ → List UInt8 → Prop) : Prop :=
  i + 4 ≤ payload.length ∧ i + 4 + (numberAt payload i).toNat ≤ payload.length ∧
    next (i + 4 + (numberAt payload i).toNat)
      ((payload.drop (i + 4)).take (numberAt payload i).toNat)

/-- The lengths are right: for a server an address, a name, a hash of 32 bytes or less and a flag; for
one that was found an address, and, if it is in the list, a name and two numbers. -/
def RightLengths (payload : List UInt8) : Info → Prop
  | .server =>
    HasBytes payload 0 fun i _ => HasBytes payload i fun i _ => HasBytes payload i fun i hash =>
      i < payload.length ∧ hash.length ≤ hashSize
  | .discover serverlist =>
    HasBytes payload 0 fun i fulladdress => serverlist (wxStringOf fulladdress) = true →
      HasBytes payload i fun i _ => i + 8 ≤ payload.length

/-! ### The rules of the readers -/

section Rules

variable {payload : List UInt8} {junk : ℕ → UInt8}

theorem inBuffer_eq_getD {i : ℕ} (h : i < payload.length) :
    inBuffer payload junk i = payload.getD i 0 := by
  simp [inBuffer_of_lt h, h]

theorem map_inBuffer_range' {i n : ℕ} (h : i + n ≤ payload.length) :
    (List.range' i n).map (inBuffer payload junk) = (payload.drop i).take n := by
  refine List.ext_getElem (by simp; omega) fun j h1 h2 => ?_
  have hj : i + j < payload.length := by simp at h1; omega
  simp [inBuffer_of_lt hj]

theorem reads_load32 {i : ℕ} {Q : BitVec 32 → Prop} :
    Reads (inBuffer payload junk) (· < payload.length) (fun n => Q (swapEndian32 n)) (load32 i) ↔
      i + 4 ≤ payload.length ∧ Q (numberAt payload i) := by
  simp only [load32, reads_bind, reads_cell, reads_pure, swapEndian32_ofLe32]
  constructor
  · rintro ⟨h0, h1, h2, h3, hQ⟩
    refine ⟨h3, ?_⟩
    rwa [inBuffer_eq_getD h0, inBuffer_eq_getD h1, inBuffer_eq_getD h2, inBuffer_eq_getD h3] at hQ
  · rintro ⟨hi, hQ⟩
    have h0 : i < payload.length := by omega
    have h1 : i + 1 < payload.length := by omega
    have h2 : i + 2 < payload.length := by omega
    refine ⟨h0, h1, h2, hi, ?_⟩
    rwa [inBuffer_eq_getD h0, inBuffer_eq_getD h1, inBuffer_eq_getD h2, inBuffer_eq_getD hi]

theorem reads_read32 {buffoffset : BitVec 32} {Q : BitVec 32 × BitVec 32 → Prop} :
    Reads (inBuffer payload junk) (· < payload.length) Q (read32 buffoffset) ↔
      buffoffset.toNat + 4 ≤ payload.length ∧
        Q (numberAt payload buffoffset.toNat, buffoffset + 4) := by
  simp only [read32, reads_bind, reads_pure]
  exact reads_load32 (Q := fun n => Q (n, buffoffset + 4))

theorem range'_lt_iff {i n len : ℕ} (h : i ≤ len) : (∀ j ∈ List.range' i n, j < len) ↔ i + n ≤ len := by
  simp only [List.mem_range'_1, and_imp]
  constructor
  · intro hall
    rcases Nat.eq_zero_or_pos n with rfl | hn
    · exact h
    · have hlast := hall (i + n - 1) (by omega) (by omega)
      omega
  · intro hle j _ hj
    omega

/-- The offset stays a small number as long as it stays in the payload. -/
theorem reads_readBytes (hsize : payload.length < 2 ^ 16) {buffoffset : BitVec 32}
    {Q : List UInt8 × BitVec 32 → Prop} :
    Reads (inBuffer payload junk) (· < payload.length) Q (readBytes buffoffset) ↔
      HasBytes payload buffoffset.toNat fun i bytes => Q (bytes, BitVec.ofNat 32 i) := by
  simp only [readBytes, reads_bind, reads_read32, reads_pure, reads_loadMany, HasBytes]
  refine and_congr_right fun h4 => ?_
  have hoff : (buffoffset + 4).toNat = buffoffset.toNat + 4 := by
    rw [BitVec.toNat_add]
    exact Nat.mod_eq_of_lt (by simp; omega)
  rw [hoff, range'_lt_iff h4]
  refine and_congr_right fun hn => ?_
  rw [map_inBuffer_range' hn]
  have hnext : buffoffset + 4 + numberAt payload buffoffset.toNat =
      BitVec.ofNat 32 (buffoffset.toNat + 4 + (numberAt payload buffoffset.toNat).toNat) := by
    apply BitVec.eq_of_toNat_eq
    rw [BitVec.toNat_add, hoff, BitVec.toNat_ofNat]
  rw [hnext]

theorem hasBytes_congr {i : ℕ} {next next' : ℕ → List UInt8 → Prop}
    (h : ∀ j bytes, j ≤ payload.length → (next j bytes ↔ next' j bytes)) :
    HasBytes payload i next ↔ HasBytes payload i next' :=
  and_congr_right fun _ => and_congr_right fun hn => h _ _ hn

theorem toNat_offset (hsize : payload.length < 2 ^ 16) {j : ℕ} (hj : j ≤ payload.length) :
    (BitVec.ofNat 32 j).toNat = j := by
  rw [BitVec.toNat_ofNat]
  omega

end Rules

/-- **When the parsers stay in bounds**: exactly if the lengths in the payload are right. -/
theorem bounded_iff {payload : List UInt8} (hsize : payload.length < 2 ^ 16) (junk : ℕ → UInt8)
    (info : Info) : Bounded payload junk info ↔ RightLengths payload info := by
  cases info with
  | server =>
    simp only [Bounded, RightLengths, parsePacketServer, reads_bind, reads_readBytes hsize, reads_cell,
      reads_pure]
    refine hasBytes_congr fun i _ hi => ?_
    rw [toNat_offset hsize hi]
    refine hasBytes_congr fun i _ hi => ?_
    rw [toNat_offset hsize hi]
    refine hasBytes_congr fun i _ hi => ?_
    rw [toNat_offset hsize hi]
  | discover serverlist =>
    simp only [Bounded, RightLengths, discoveredServer, reads_bind, reads_readBytes hsize]
    refine hasBytes_congr fun i fulladdress hi => ?_
    split_ifs with hknown
    · simp only [reads_bind, reads_readBytes hsize, reads_read32, reads_pure, hknown, true_implies,
        and_true, toNat_offset hsize hi]
      refine hasBytes_congr fun i _ hi => ?_
      have hnext : (BitVec.ofNat 32 i + 4).toNat = i + 4 := by
        rw [BitVec.toNat_add, toNat_offset hsize hi]
        exact Nat.mod_eq_of_lt (by simp; omega)
      rw [toNat_offset hsize hi, hnext]
      omega
    · simp [hknown]

instance decidableHasBytes (payload : List UInt8) (i : ℕ) (next : ℕ → List UInt8 → Prop)
    [∀ i bytes, Decidable (next i bytes)] : Decidable (HasBytes payload i next) :=
  inferInstanceAs (Decidable (_ ∧ _ ∧ _))

/-- The payload of a `SERVER` for a server with this hash. -/
def samplePayload (romhash : List UInt8) : List UInt8 :=
  N64Server.toByteArray ⟨sampleAddress, 6460, ['a'], romhash, 0⟩ true

theorem bounded_samplePayload :
    Bounded (samplePayload (List.replicate 32 7)) (fun _ => 0) .server :=
  (bounded_iff (by decide +kernel) _ _).mpr (by unfold RightLengths; decide +kernel)

/-- The master accepts a hash of 33 bytes, and sends it on. -/
theorem not_bounded_longHash :
    ((registerAll [sampleArrival [0x61] (List.replicate 33 7)]).values.map fun s =>
        s.toByteArray true) = [samplePayload (List.replicate 33 7)] ∧
      ¬ Bounded (samplePayload (List.replicate 33 7)) (fun _ => 0) .server := by
  refine ⟨by decide +kernel, fun h => ?_⟩
  have hrun : (match parsePacketServer.run (inBuffer (samplePayload (List.replicate 33 7))
      fun _ => 0) with | .ok r => some r.2 | .error _ => none) = some 33 := by decide +kernel
  split at hrun
  · next r hr =>
    have hle : r.2 ≤ hashSize := h.2 r hr
    rw [Option.some.inj hrun] at hle
    exact absurd hle (by decide)
  · cases hrun

end N64NetLib.Client.ServerInfo
