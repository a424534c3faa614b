import N64NetLib.Client.ServerTrip
import N64NetLib.Udp.Handler

/-! # The hash of a ROM on both sides

The browser writes the hash of a `SERVER` packet in hex, reads it back when the user wants the ROM, and
sends the bytes to the master, which writes them in hex again to look the ROM up. Reading back what was
written gives the bytes (`requestDownload_formatHex`), and the table has a ROM under its own hash only
(`Keyed`), so the master finds a ROM exactly if it has the one that the browser shows
(`hash_names_rom`). -/

namespace N64NetLib.Client.RomHash

open N64NetLib.Packet N64NetLib.Packet.Basic N64NetLib.Packet.Sequence N64NetLib.Master.Rom
open N64NetLib.Client.ServerInfo
open N64NetLib.Client.ServerTrip N64NetLib.Udp.Handler

/-! ### The browser -/

/-- `Lower`. The characters of a hash are ASCII. -/
def lower (hash : List Char) : List Char := hash.map Char.toLower

/-- A digit in `RequestDownload`. -/
def digit (c : Char) : UInt8 :=
  let c := UInt8.ofNat c.toNat
  if 97 ≤ c ∧ c ≤ 102 then 10 + c - 97 else c - 48

/-- The loop of `RequestDownload`. The string is read up to the NUL behind it. -/
def readHex : List Char → List UInt8
  | first :: second :: hash => (digit first <<< 4 ||| digit second) :: readHex hash
  | [first] => [digit first <<< 4 ||| digit (Char.ofNat 0)]
  | [] => []

/-- `romhash` in `RequestDownload`. -/
def requestDownload (hash : List Char) : List UInt8 := readHex (lower hash)

/-- The packet of a `TEVENT_DODL`. -/
def downloadPacket (romhash : List UInt8) : AbstractPacket :=
  newS64Packet 0 ['D', 'O', 'W', 'N', 'L', 'O', 'A', 'D'] romhash flagUnreliable

/-! ### The table of ROMs -/

/-- `GetHashString`. -/
def getHashString (rom : N64ROM) : List Char := bytesToHash rom.hash

/-- What the master does with the table. -/
inductive TableOp
  | put (rom : N64ROM)
  | remove (romhashstr : List Char)

def TableOp.apply (roms : RomTable) : TableOp → RomTable
  | put rom => roms.put rom
  | remove romhashstr => roms.remove romhashstr

/-- The table after these operations. -/
def tableOf (ops : List TableOp) : RomTable := ops.foldl TableOp.apply fun _ => none

/-- Every ROM is in the table under its own hash. -/
def Keyed (roms : RomTable) : Prop := ∀ key rom, roms key = some rom → key = getHashString rom

/-- The table has the ROM with this hash. -/
def Has (roms : RomTable) (hash : List UInt8) : Prop := ∃ key rom, roms key = some rom ∧ rom.hash = hash

theorem keyed_apply {roms : RomTable} (h : Keyed roms) (op : TableOp) : Keyed (op.apply roms) := by
  intro key rom hrom
  cases op with
  | put new =>
    rw [TableOp.apply, RomTable.put_apply] at hrom
    split_ifs at hrom with hkey
    · rw [hkey, ← Option.some.inj hrom, getHashString]
    · exact h key rom hrom
  | remove romhashstr =>
    rw [TableOp.apply, RomTable.remove, Function.update_apply] at hrom
    split_ifs at hrom
    exact h key rom hrom

/-- **The master's table is keyed**, whatever was done with it. -/
theorem keyed_tableOf (ops : List TableOp) : Keyed (tableOf ops) := by
  have hfold : ∀ (ops : List TableOp) {roms : RomTable}, Keyed roms →
      Keyed (ops.foldl TableOp.apply roms) := by
    intro ops
    induction ops with
    | nil => exact fun h => h
    | cons op ops ih => exact fun h => ih (keyed_apply h op)
  exact hfold ops fun key rom h => by cases h

/-! ### Reading what was written -/

/-- Each of the sixteen digits reads back as its value. -/
theorem digit_hexArray {n : ℕ} (h : n < 16) :
    digit (hexArray.getD n '0').toLower = UInt8.ofNat n := by
  revert n
  decide

/-- A byte is put together from its halves. -/
theorem halves (b : UInt8) : UInt8.ofNat (b.toNat >>> 4) <<< 4 ||| UInt8.ofNat (b.toNat &&& 0x0F) = b := by
  have hall : ∀ n < 256, UInt8.ofNat (n >>> 4) <<< 4 ||| UInt8.ofNat (n &&& 0x0F) = UInt8.ofNat n := by
    decide +kernel
  rw [hall b.toNat b.toNat_lt, UInt8.ofNat_toNat]

/-- **The browser reads back the bytes whose hash it shows.** -/
theorem requestDownload_formatHex (hash : List UInt8) : requestDownload (formatHex hash) = hash := by
  rw [formatHex_eq, requestDownload]
  induction hash with
  | nil => rfl
  | cons b hash ih =>
    have hb := b.toNat_lt
    have hhigh : b.toNat >>> 4 < 16 := by
      rw [Nat.shiftRight_eq_div_pow]
      omega
    have hlow : b.toNat &&& 0x0F < 16 := lt_of_le_of_lt Nat.and_le_right (by decide)
    rw [bytesToHash, List.flatMap_cons, ← bytesToHash]
    simp only [lower, List.map_cons, List.cons_append, List.nil_append, readHex,
      digit_hexArray hhigh, digit_hexArray hlow, halves]
    exact congrArg (b :: ·) ih

theorem has_iff {roms : RomTable} (h : Keyed roms) (hash : List UInt8) :
    Has roms hash ↔ (roms (bytesToHash hash)).isSome := by
  rw [Option.isSome_iff_exists]
  constructor
  · rintro ⟨key, rom, hrom, rfl⟩
    obtain rfl := h key rom hrom
    exact ⟨rom, hrom⟩
  · rintro ⟨rom, hrom⟩
    exact ⟨_, rom, hrom, (bytesToHash_inj (h _ _ hrom)).symm⟩

/-- What the master decodes has the bytes that the browser sent. -/
theorem decode_downloadPacket {romhash : List UInt8} (hlen : romhash.length = hashSize) (host : Host)
    (call : Call) (h : UDPHandler) (junk : ℕ → UInt8) :
    ∃ data pkt, (Lang.cpp host).getBytes (firstSent (.cpp host) call h (downloadPacket romhash)) =
      .ok data ∧ Lang.java.decode .s64 data junk = .ok (some pkt) ∧ pkt.data = romhash := by
  have hw : WireFormat.WellFormed (firstSent (.cpp host) call h (downloadPacket romhash)) := by
    refine ⟨UInt8.le_refl _, fun type ht => ?_, ?_⟩
    · obtain rfl : ['D', 'O', 'W', 'N', 'L', 'O', 'A', 'D'] = type := by
        simpa [firstSent, downloadPacket, newS64Packet] using ht
      exact ⟨by decide, by simp⟩
    · simp [WireFormat.wireLength, firstSent, downloadPacket, newS64Packet, hlen, hashSize, packetMaxSize]
  exact ⟨_, _, (Lang.cpp host).getBytes_eq hw, Lang.java.decode_eq hw junk, rfl⟩

/-- **A hash names the same ROM on both sides**: the master looks for the ROM under the key of a ROM with
the hash that the browser shows, no two hashes have one key, and the master finds a ROM exactly if its
table has the one with this hash. -/
theorem hash_names_rom {hash : List UInt8} (hlen : hash.length = hashSize) (host : Host) (call : Call)
    (h : UDPHandler) (junk : ℕ → UInt8) (ops : List TableOp) :
    ∃ data pkt, (Lang.cpp host).getBytes
        (firstSent (.cpp host) call h (downloadPacket (requestDownload (formatHex hash)))) = .ok data ∧
      Lang.java.decode .s64 data junk = .ok (some pkt) ∧
      (∀ rom : N64ROM, rom.hash = hash → bytesToHash pkt.data = getHashString rom) ∧
      (∀ rom other : N64ROM, rom.hash ≠ other.hash → getHashString rom ≠ getHashString other) ∧
      ((tableOf ops (bytesToHash pkt.data)).isSome ↔ Has (tableOf ops) hash) := by
  rw [requestDownload_formatHex]
  obtain ⟨data, pkt, hdata, hdecode, hpkt⟩ := decode_downloadPacket hlen host call h junk
  refine ⟨data, pkt, hdata, hdecode, fun rom hrom => ?_, fun rom other hne hkey => ?_, ?_⟩
  · rw [hpkt, getHashString, hrom]
  · exact hne (bytesToHash_inj hkey)
  · rw [hpkt, has_iff (keyed_tableOf ops)]

/-- A hash of 32 times the same byte, and a table that has had the ROM. -/
theorem hash_names_rom_sevens :
    ∃ data pkt, (Lang.cpp .x86).getBytes (firstSent (.cpp .x86) ⟨0, 0, true⟩ newUDPHandler
        (downloadPacket (requestDownload (formatHex (List.replicate 32 0xA7))))) = .ok data ∧
      Lang.java.decode .s64 data (fun _ => 0) = .ok (some pkt) ∧
      (∀ rom : N64ROM, rom.hash = List.replicate 32 0xA7 → bytesToHash pkt.data = getHashString rom) ∧
      (∀ rom other : N64ROM, rom.hash ≠ other.hash → getHashString rom ≠ getHashString other) ∧
      ((tableOf [.put ⟨[], List.replicate 32 0xA7, 4⟩] (bytesToHash pkt.data)).isSome ↔
        Has (tableOf [.put ⟨[], List.replicate 32 0xA7, 4⟩]) (List.replicate 32 0xA7)) :=
  hash_names_rom (by decide) _ _ _ _ _

end N64NetLib.Client.RomHash
