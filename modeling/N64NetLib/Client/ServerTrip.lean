import N64NetLib.Client.ServerInfo

/-! # From a game server to the browser

A game server tells the master about itself (`ToByteArray_Master`), the master keeps it and sends it to
the browser, and the game server answers the browser (`ToByteArray_Client`). Each text is written with
its length in UTF-16 units in front of its bytes in UTF-8, and read as so many bytes: an ASCII text
survives, and no other does (`survives_iff`). -/

namespace N64NetLib.Client.ServerTrip

open N64NetLib.Lib.BigEndian N64NetLib.Lib.Memory N64NetLib.Lib.Memory.Load N64NetLib.Lib.Utf8
open N64NetLib.Packet N64NetLib.Packet.Basic N64NetLib.Packet.Cpp N64NetLib.Master.Rom
open N64NetLib.Master.Servers N64NetLib.Client.ServerInfo

/-- `ToByteArray_Master`. -/
def toByteArrayMaster (port : BitVec 32) (romname : List Char) (romhash : List UInt8) : List UInt8 :=
  be32 port ++ putString romname ++ be32 (BitVec.ofNat 32 romhash.length) ++ romhash

/-- `ToByteArray_Client`. -/
def toByteArrayClient (identifier servername : List Char) (playerCount maxplayers : BitVec 32) :
    List UInt8 :=
  putString identifier ++ putString servername ++ be32 playerCount ++ be32 maxplayers

/-- The payload of the `DISCOVER` that the browser sends to a server it has read of. -/
def discoverData (fulladdress : List Char) : List UInt8 := utf8 fulladdress

/-- `new String(data, UTF_8)`, for data that are UTF-8. -/
def identifierOf (data : List UInt8) : List Char := (ofUtf8 data).getD []

/-! ### What should come of it -/

/-- **A `SERVER` tells the browser** the address and port, the ROM name, the hash and whether the master
has the ROM. -/
def ServerSurvives (address : HostAddress) (port : BitVec 32) (romname : List Char)
    (romhash : List UInt8) (roms : RomTable) : Prop :=
  ∀ now junk, ∃ s, registerServer now address (toByteArrayMaster port romname romhash) = .ok s ∧
    ∃ copied, parsePacketServer.run (inBuffer (s.toByteArray (roms s.romHashStr).isSome) junk) =
      .ok (⟨addrPort address port, romname, bytesToHash romhash,
        (roms (bytesToHash romhash)).isSome⟩, copied)

/-- **The answer to a `DISCOVER` tells the browser** the name and the players of a server it asked. -/
def DiscoverSurvives (address : HostAddress) (port : BitVec 32) (servername : List Char)
    (playerCount maxplayers : BitVec 32) (serverlist : List Char → Bool) : Prop :=
  ∀ junk, (discoveredServer serverlist).run (inBuffer (toByteArrayClient
      (identifierOf (discoverData (addrPort address port))) servername playerCount maxplayers) junk) =
    .ok (some ⟨addrPort address port, servername, playerCount, maxplayers⟩)

/-! ### What the readers read -/

section Run

variable (junk : ℕ → UInt8)

theorem run_read32 (pre : List UInt8) (n : BitVec 32) (tail : List UInt8) {buffoffset : BitVec 32}
    (hoff : buffoffset.toNat = pre.length) :
    (read32 buffoffset).run (inBuffer (pre ++ (be32 n ++ tail)) junk) = .ok (n, buffoffset + 4) := by
  simp [read32, run_bind, hoff, inBuffer, be32]

theorem run_readBytes (pre : List UInt8) (n : BitVec 32) (tail : List UInt8) {buffoffset : BitVec 32}
    (hoff : buffoffset.toNat = pre.length) (hpre : pre.length + 4 < 2 ^ 32)
    (hn : n.toNat ≤ tail.length) :
    (readBytes buffoffset).run (inBuffer (pre ++ (be32 n ++ tail)) junk) =
      .ok (tail.take n.toNat, buffoffset + 4 + n) := by
  have hoff4 : (buffoffset + 4).toNat = (pre ++ be32 n).length := by
    rw [BitVec.toNat_add, hoff, List.length_append, length_be32]
    exact Nat.mod_eq_of_lt hpre
  have hblock : (List.range' (buffoffset + 4).toNat n.toNat).map
      (inBuffer (pre ++ (be32 n ++ tail)) junk) = tail.take n.toNat := by
    have hsplit : pre ++ (be32 n ++ tail) = pre ++ be32 n ++ tail.take n.toNat ++ tail.drop n.toNat := by
      simp only [List.append_assoc, List.take_append_drop]
    exact WireFormat.map_inBuffer _ _ _ hsplit hoff4 (by simp [hn]) junk
  simp only [readBytes, run_bind, run_read32 junk pre n tail hoff, run_loadMany, hblock, run_pure]

/-- A text is written with its length, and read up to its length. -/
theorem run_readBytes_putString (pre : List UInt8) (text : List Char) (rest : List UInt8)
    {buffoffset : BitVec 32} (hoff : buffoffset.toNat = pre.length)
    (hsize : pre.length + 4 + (utf8 text).length < 2 ^ 32) :
    (readBytes buffoffset).run (inBuffer (pre ++ (putString text ++ rest)) junk) =
      .ok ((utf8 text).take (utf16Length text),
        buffoffset + 4 + BitVec.ofNat 32 (utf16Length text)) := by
  have hle := utf16Length_le_length text
  have hn : (BitVec.ofNat 32 (utf16Length text)).toNat = utf16Length text := by
    rw [BitVec.toNat_ofNat]
    exact Nat.mod_eq_of_lt (by omega)
  have hread := run_readBytes junk pre (BitVec.ofNat 32 (utf16Length text)) (utf8 text ++ rest) hoff
    (by omega) (by rw [hn, List.length_append]; omega)
  rw [hn, List.take_append_of_le_length hle] at hread
  rw [putString, List.append_assoc, hread]

end Run

/-- A text that is read from as many bytes as it has units is ASCII. -/
theorem isAscii_of_wxStringOf_take {kept romname : List Char}
    (hunits : utf16Length kept = utf16Length romname)
    (h : romname = wxStringOf ((utf8 kept).take (utf16Length kept))) : IsAscii romname := by
  cases hread : ofUtf8 ((utf8 kept).take (utf16Length kept)) with
  | none =>
    obtain rfl : [] = romname := by simpa [wxStringOf, hread] using h.symm
    exact fun c hc => absurd hc List.not_mem_nil
  | some t =>
    obtain rfl : t = romname := by simpa [wxStringOf, hread] using h.symm
    have hkept := utf16Length_le_length kept
    have hall := congrArg List.length (utf8_of_ofUtf8 hread)
    rw [List.length_take] at hall
    exact length_utf8_eq_iff.mp (by omega)

/-- What the browser makes of a text it has read, whole or not. -/
theorem wxStringOf_take_eq_iff (text : List Char) :
    wxStringOf ((utf8 text).take (utf16Length text)) = text ↔ IsAscii text := by
  constructor
  · intro h
    exact isAscii_of_wxStringOf_take rfl h.symm
  · intro hascii
    have hunits := length_utf8_eq_iff.mpr hascii
    rw [List.take_of_length_le hunits.le, wxStringOf, ofUtf8_utf8, Option.getD_some]

theorem exists_run_read32 (m : ℕ → UInt8) (buffoffset : BitVec 32) :
    ∃ r, (read32 buffoffset).run m = .ok r := ⟨_, rfl⟩

theorem exists_run_readBytes (m : ℕ → UInt8) (buffoffset : BitVec 32) :
    ∃ r, (readBytes buffoffset).run m = .ok r := by
  obtain ⟨r, hr⟩ := exists_run_read32 m buffoffset
  exact ⟨((List.range' r.2.toNat r.1.toNat).map m, r.2 + r.1),
    by simp only [readBytes, run_bind, hr, run_loadMany, run_pure]⟩

theorem exists_run_parsePacketServer (m : ℕ → UInt8) : ∃ r, parsePacketServer.run m = .ok r := by
  obtain ⟨r1, h1⟩ := exists_run_readBytes m 0
  obtain ⟨r2, h2⟩ := exists_run_readBytes m r1.2
  obtain ⟨r3, h3⟩ := exists_run_readBytes m r2.2
  simp only [parsePacketServer, run_bind, h1, h2, h3, run_cell, run_pure]
  exact ⟨_, rfl⟩

/-- The offset behind a text. -/
theorem toNat_behind {pre : List UInt8} {text : List Char} {buffoffset : BitVec 32}
    (hoff : buffoffset.toNat = pre.length) (hascii : IsAscii text)
    (hsize : pre.length + 4 + (utf8 text).length < 2 ^ 32) :
    (buffoffset + 4 + BitVec.ofNat 32 (utf16Length text)).toNat = (pre ++ putString text).length := by
  have hunits := length_utf8_eq_iff.mpr hascii
  have h4 : (4 : BitVec 32).toNat = 4 := rfl
  rw [BitVec.toNat_add, BitVec.toNat_add, hoff, BitVec.toNat_ofNat, List.length_append,
    length_putString, h4, hunits]
  omega

/-! ### The two ways -/

section Trip

variable (address : HostAddress) (port : BitVec 32)

theorem length_utf8_addrPort_le : (utf8 (addrPort address port)).length ≤ 267 := by
  have hascii := isAscii_addrPort address port
  rw [length_utf8_eq_iff.mpr hascii, utf16Length_of_isAscii hascii]
  exact length_addrPort_le address port

/-- The first text of each payload is the address, which the browser reads back. -/
theorem run_address (rest : List UInt8) (junk : ℕ → UInt8) :
    ∃ bytes buffoffset, (readBytes 0).run (inBuffer (putString (addrPort address port) ++ rest) junk) =
      .ok (bytes, buffoffset) ∧ wxStringOf bytes = addrPort address port ∧
        buffoffset.toNat = (putString (addrPort address port)).length := by
  have hascii := isAscii_addrPort address port
  have hlen := length_utf8_addrPort_le address port
  have h0 : (0 : BitVec 32).toNat = ([] : List UInt8).length := rfl
  have hread := run_readBytes_putString junk [] (addrPort address port) rest h0 (by simp; omega)
  rw [List.nil_append] at hread
  exact ⟨_, _, hread, (wxStringOf_take_eq_iff _).mpr hascii,
    toNat_behind h0 hascii (by simp; omega)⟩

theorem identifierOf_discoverData (fulladdress : List Char) :
    identifierOf (discoverData fulladdress) = fulladdress := by
  rw [identifierOf, discoverData, ofUtf8_utf8, Option.getD_some]

theorem toByteArray_eq (s : N64Server) (hasrom : Bool) :
    s.toByteArray hasrom = putString (addrPort s.address s.publicport) ++ (putString s.romName ++
      (be32 (BitVec.ofNat 32 s.romHash.length) ++ (s.romHash ++ [if hasrom then 1 else 0]))) := by
  simp only [N64Server.toByteArray, N64Server.publicaddr, List.append_assoc]

/-- **The ROM name that the browser reads**: as many bytes as the name has units. -/
theorem romname_of_run {s : N64Server} {hasrom : Bool} {junk : ℕ → UInt8} {found : FoundServer}
    {copied : ℕ} (hsize : (utf8 s.romName).length < 2 ^ 31)
    (h : parsePacketServer.run (inBuffer (s.toByteArray hasrom) junk) = .ok (found, copied)) :
    found.romname = wxStringOf ((utf8 s.romName).take (utf16Length s.romName)) := by
  have hlen := length_utf8_addrPort_le s.address s.publicport
  rw [toByteArray_eq] at h
  generalize be32 (BitVec.ofNat 32 s.romHash.length) ++ (s.romHash ++
    [if hasrom then (1 : UInt8) else 0]) = rest at h
  obtain ⟨bytes, off1, hread1, -, hoff1⟩ :=
    run_address s.address s.publicport (putString s.romName ++ rest) junk
  have hread2 := run_readBytes_putString junk (putString (addrPort s.address s.publicport)) s.romName
    rest hoff1 (by simp; omega)
  obtain ⟨r3, hread3⟩ := exists_run_readBytes (inBuffer (putString (addrPort s.address s.publicport) ++
    (putString s.romName ++ rest)) junk) (off1 + 4 + BitVec.ofNat 32 (utf16Length s.romName))
  simp only [parsePacketServer, run_bind, hread1, hread2, hread3, run_cell, run_pure,
    Except.ok.injEq, Prod.mk.injEq] at h
  exact congrArg FoundServer.romname h.1.symm

/-- **The server name that the browser reads** of a server it has asked. -/
theorem name_of_run {servername : List Char} {playerCount maxplayers : BitVec 32}
    {serverlist : List Char → Bool} {junk : ℕ → UInt8} {found : Discovered}
    (hknown : serverlist (addrPort address port) = true) (hsize : (utf8 servername).length < 2 ^ 31)
    (h : (discoveredServer serverlist).run (inBuffer (toByteArrayClient (addrPort address port)
      servername playerCount maxplayers) junk) = .ok (some found)) :
    found.name = wxStringOf ((utf8 servername).take (utf16Length servername)) := by
  have hlen := length_utf8_addrPort_le address port
  simp only [toByteArrayClient, List.append_assoc] at h
  generalize be32 playerCount ++ be32 maxplayers = rest at h
  obtain ⟨bytes, off1, hread1, haddress, hoff1⟩ :=
    run_address address port (putString servername ++ rest) junk
  have hread2 := run_readBytes_putString junk (putString (addrPort address port)) servername rest
    hoff1 (by simp; omega)
  obtain ⟨r3, hread3⟩ := exists_run_read32 (inBuffer (putString (addrPort address port) ++
    (putString servername ++ rest)) junk) (off1 + 4 + BitVec.ofNat 32 (utf16Length servername))
  obtain ⟨r4, hread4⟩ := exists_run_read32 (inBuffer (putString (addrPort address port) ++
    (putString servername ++ rest)) junk) r3.2
  simp only [discoveredServer, run_bind, hread1, haddress, hknown, if_true, hread2, hread3, hread4,
    run_pure, Except.ok.injEq, Option.some.injEq] at h
  exact congrArg Discovered.name h.symm

/-- The answer of a server whose name is ASCII is read back whole. -/
theorem run_toByteArrayClient {servername : List Char} (playerCount maxplayers : BitVec 32)
    {serverlist : List Char → Bool} (junk : ℕ → UInt8)
    (hknown : serverlist (addrPort address port) = true) (hsize : (utf8 servername).length < 2 ^ 31)
    (hascii : IsAscii servername) :
    (discoveredServer serverlist).run (inBuffer (toByteArrayClient (addrPort address port)
        servername playerCount maxplayers) junk) =
      .ok (some ⟨addrPort address port, servername, playerCount, maxplayers⟩) := by
  have hlen := length_utf8_addrPort_le address port
  have hname := (wxStringOf_take_eq_iff servername).mpr hascii
  obtain ⟨bytes, off1, hread1, haddress, hoff1⟩ := run_address address port
    (putString servername ++ (be32 playerCount ++ be32 maxplayers)) junk
  have hread2 := run_readBytes_putString junk (putString (addrPort address port)) servername
    (be32 playerCount ++ be32 maxplayers) hoff1 (by simp; omega)
  have hoff2 := toNat_behind hoff1 hascii (by simp; omega)
  have hoff3 : (off1 + 4 + BitVec.ofNat 32 (utf16Length servername) + 4).toNat =
      (putString (addrPort address port) ++ putString servername ++ be32 playerCount).length := by
    rw [BitVec.toNat_add, hoff2]
    simp
    omega
  have hread3 := run_read32 junk (putString (addrPort address port) ++ putString servername)
    playerCount (be32 maxplayers) hoff2
  have hread4 := run_read32 junk (putString (addrPort address port) ++ putString servername ++
    be32 playerCount) maxplayers [] hoff3
  simp only [List.append_assoc, List.append_nil] at hread3 hread4
  simp only [toByteArrayClient, List.append_assoc, discoveredServer, run_bind, hread1, haddress,
    hknown, if_true, hread2, hread3, hread4, hname, run_pure]

/-- **The answer to a `DISCOVER` survives** exactly if the name of the server is ASCII. -/
theorem discoverSurvives_iff {address : HostAddress} {port : BitVec 32} {servername : List Char}
    {playerCount maxplayers : BitVec 32} {serverlist : List Char → Bool}
    (hknown : serverlist (addrPort address port) = true)
    (hsize : (utf8 servername).length ≤ packetMaxSize) :
    DiscoverSurvives address port servername playerCount maxplayers serverlist ↔
      IsAscii servername := by
  simp only [packetMaxSize] at hsize
  rw [DiscoverSurvives, identifierOf_discoverData]
  constructor
  · intro h
    have hname := name_of_run address port hknown (by omega) (h fun _ => 0)
    exact (wxStringOf_take_eq_iff servername).mp hname.symm
  · intro hascii junk
    exact run_toByteArrayClient address port playerCount maxplayers junk hknown (by omega) hascii

/-- What the master keeps of the name: a char for each unit. -/
theorem utf16Length_romName {address : HostAddress} {port : BitVec 32} {now : ℤ}
    {romname : List Char} {romhash : List UInt8} (hname : utf16Length romname < 2 ^ 31) {s : N64Server}
    (h : registerServer now address (toByteArrayMaster port romname romhash) = .ok s) :
    utf16Length s.romName = utf16Length romname := by
  obtain ⟨size, hashsize, name, rest, hdata, hlen, -, hromname, -, -⟩ := registerServer_eq h
  simp only [toByteArrayMaster, putString, List.append_assoc] at hdata
  obtain ⟨-, hdata⟩ := List.append_inj hdata rfl
  obtain ⟨hsize, -⟩ := List.append_inj hdata rfl
  have hunits : utf16Length s.romName = name.length := by
    rw [hromname, utf16Length, List.map_map]
    simp [Function.comp_def, utf16Size_byteToChar]
  rw [hunits, hlen, ← be32_inj hsize, toNat_toInt_ofNat hname, Int.toNat_natCast]

theorem hexDigit_eq {n : ℕ} (h : n < 16) : hexDigit n = hexArray.getD n '0' := by
  revert n
  decide

/-- The two ways of writing a hash. -/
theorem formatHex_eq (bytes : List UInt8) : formatHex bytes = bytesToHash bytes := by
  unfold formatHex bytesToHash
  congr 1
  funext b
  have hb := b.toNat_lt
  have hmod : b.toNat &&& 0x0F = b.toNat % 16 := Nat.and_two_pow_sub_one_eq_mod b.toNat 4
  have hdiv : b.toNat >>> 4 = b.toNat / 16 := Nat.shiftRight_eq_div_pow b.toNat 4
  simp only [hmod, hdiv]
  rw [hexDigit_eq (by omega), hexDigit_eq (by omega)]

theorem byteToChar_ascii {c : Char} (h : c.toNat < 128) : byteToChar (UInt8.ofNat c.toNat) = c := by
  have hint : (UInt8.ofNat c.toNat).toBitVec.toInt = c.toNat := by
    rw [BitVec.toInt_eq_toNat_cond, UInt8.toNat_toBitVec, UInt8.toNat_ofNat']
    split_ifs <;> omega
  rw [byteToChar, Java.toChar, hint]
  have hmod : ((c.toNat : ℤ) % 65536).toNat = c.toNat := by omega
  rw [hmod, Char.ofNat_toNat]

/-- The master keeps an ASCII name as it is. -/
theorem map_byteToChar_utf8 {romname : List Char} (h : IsAscii romname) :
    (utf8 romname).map byteToChar = romname := by
  rw [utf8_of_isAscii h, List.map_map]
  refine (List.map_congr_left fun c hc => ?_).trans (List.map_id romname)
  exact byteToChar_ascii (h c hc)

/-- The `SERVER` of a server whose ROM name is ASCII is read back whole. -/
theorem run_toByteArray {s : N64Server} (hasrom : Bool) (junk : ℕ → UInt8)
    (hhash : s.romHash.length = 32) (hsize : (utf8 s.romName).length < 2 ^ 31)
    (hascii : IsAscii s.romName) :
    parsePacketServer.run (inBuffer (s.toByteArray hasrom) junk) =
      .ok (⟨addrPort s.address s.publicport, s.romName, bytesToHash s.romHash, hasrom⟩,
        s.romHash.length) := by
  have hlen := length_utf8_addrPort_le s.address s.publicport
  have hname := (wxStringOf_take_eq_iff s.romName).mpr hascii
  obtain ⟨bytes, off1, hread1, haddress, hoff1⟩ :=
    run_address s.address s.publicport (putString s.romName ++
      (be32 (BitVec.ofNat 32 s.romHash.length) ++ (s.romHash ++ [if hasrom then 1 else 0]))) junk
  have hread2 := run_readBytes_putString junk (putString (addrPort s.address s.publicport)) s.romName
    (be32 (BitVec.ofNat 32 s.romHash.length) ++ (s.romHash ++ [if hasrom then 1 else 0])) hoff1
    (by simp; omega)
  have hoff2 := toNat_behind hoff1 hascii (by simp; omega)
  have hread3 := run_readBytes junk
    (putString (addrPort s.address s.publicport) ++ putString s.romName)
    (BitVec.ofNat 32 s.romHash.length) (s.romHash ++ [if hasrom then 1 else 0]) hoff2
    (by simp; omega) (by simp [hhash])
  have htake : (s.romHash ++ [if hasrom then (1 : UInt8) else 0]).take
      (BitVec.ofNat 32 s.romHash.length).toNat = s.romHash := by
    simp [hhash]
  rw [htake] at hread3
  have hoff3 : (off1 + 4 + BitVec.ofNat 32 (utf16Length s.romName) + 4 +
      BitVec.ofNat 32 s.romHash.length).toNat = (putString (addrPort s.address s.publicport) ++
        (putString s.romName ++ (be32 (BitVec.ofNat 32 s.romHash.length) ++ s.romHash))).length := by
    rw [BitVec.toNat_add, BitVec.toNat_add, hoff2, hhash]
    simp [hhash]
    omega
  -- the flag is the last byte
  have hflag : ∀ (l : List UInt8) (b : UInt8), inBuffer (l ++ [b]) junk l.length = b := by
    simp [inBuffer]
  have hcell := hflag (putString (addrPort s.address s.publicport) ++
    (putString s.romName ++ (be32 (BitVec.ofNat 32 s.romHash.length) ++ s.romHash)))
    (if hasrom then 1 else 0)
  simp only [List.append_assoc] at hread3 hcell
  simp only [toByteArray_eq, parsePacketServer, run_bind, hread1, haddress, hread2, hread3, hname,
    run_cell, hoff3, hcell, run_pure, formatHex_eq]
  cases hasrom <;> rfl

/-- **A `SERVER` survives** exactly if the name of the ROM is ASCII. -/
theorem serverSurvives_iff {address : HostAddress} {port : BitVec 32} {romname : List Char}
    {romhash : List UInt8} (roms : RomTable) (hhash : romhash.length = 32)
    (hsize : (utf8 romname).length ≤ packetMaxSize) :
    ServerSurvives address port romname romhash roms ↔ IsAscii romname := by
  have hunits := utf16Length_le_length romname
  simp only [packetMaxSize] at hsize
  constructor
  · intro h
    obtain ⟨s, hs, copied, hrun⟩ := h 0 fun _ => 0
    have hname := utf16Length_romName (by omega) hs
    have hbytes := length_utf8_le s.romName
    exact isAscii_of_wxStringOf_take hname (romname_of_run (by omega) hrun)
  · intro hascii now junk
    have hregister := registerServer_bytes now address port (utf8 romname) romhash (by omega)
      (by omega)
    rw [map_byteToChar_utf8 hascii, length_utf8_eq_iff.mpr hascii] at hregister
    refine ⟨⟨address, port, romname, romhash, now⟩, ?_, romhash.length, ?_⟩
    · simpa only [toByteArrayMaster, putString, List.append_assoc, List.append_nil] using hregister
    · exact run_toByteArray _ junk hhash (show (utf8 romname).length < 2 ^ 31 by omega) hascii

end Trip

/-- **What survives the trip**: the names that are ASCII, with all that is sent with them. -/
theorem survives_iff {address : HostAddress} {port : BitVec 32} {romname servername : List Char}
    {romhash : List UInt8} (roms : RomTable) {playerCount maxplayers : BitVec 32}
    {serverlist : List Char → Bool} (hhash : romhash.length = 32)
    (hknown : serverlist (addrPort address port) = true)
    (hmaster : (toByteArrayMaster port romname romhash).length ≤ packetMaxSize)
    (hclient : (toByteArrayClient (identifierOf (discoverData (addrPort address port))) servername
      playerCount maxplayers).length ≤ packetMaxSize) :
    (ServerSurvives address port romname romhash roms ↔ IsAscii romname) ∧
      (DiscoverSurvives address port servername playerCount maxplayers serverlist ↔
        IsAscii servername) := by
  simp only [toByteArrayMaster, toByteArrayClient, List.length_append, length_putString]
    at hmaster hclient
  exact ⟨serverSurvives_iff roms hhash (by omega), discoverSurvives_iff hknown (by omega)⟩

theorem survives_plainNames :
    (ServerSurvives sampleAddress 6460 ['a', '.', 'z', '6', '4'] (List.replicate 32 7) (fun _ => none) ↔
        IsAscii ['a', '.', 'z', '6', '4']) ∧
      (DiscoverSurvives sampleAddress 6460 ['H', 'i'] 1 4 (fun _ => true) ↔ IsAscii ['H', 'i']) :=
  survives_iff _ (by decide) rfl (by decide +kernel) (by
    rw [identifierOf_discoverData]
    decide +kernel)

/-- One accent in a name is enough. -/
theorem not_survives_accent :
    ¬ ServerSurvives sampleAddress 6460 ['é'] (List.replicate 32 7) (fun _ => none) ∧
      ¬ DiscoverSurvives sampleAddress 6460 ['é'] 1 4 (fun _ => true) := by
  have haccent : ¬ IsAscii ['é'] := by decide
  rw [serverSurvives_iff _ (by decide) (by decide +kernel), discoverSurvives_iff rfl (by decide +kernel)]
  exact ⟨haccent, haccent⟩

end N64NetLib.Client.ServerTrip
