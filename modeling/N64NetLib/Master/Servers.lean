import N64NetLib.Lib.Utf8
import N64NetLib.Master.Rom
import N64NetLib.Udp.Handler

/-! # The servers of the master

`RegisterServer`, `N64Server` and `ListServers`. A game server writes its port, the name of its ROM and
the hash of it into the payload of a `REGISTER`; the master keeps them, and sends them on to every
browser that asks, with the address in front and a flag behind.

A byte of the name becomes a char of its own, the byte being signed: one that is not ASCII becomes a
char from `U+FF80` on, and three bytes when the name is sent on. What is sent has to fit into a packet;
if one server does not fit, the listing ends there with an exception (`listed_iff`). -/

namespace N64NetLib.Master.Servers

open N64NetLib.Lib.BigEndian N64NetLib.Lib.Utf8 N64NetLib.Packet N64NetLib.Packet.Basic
open N64NetLib.Udp.Handler N64NetLib.Master.Rom

/-! ### The table -/

/-- What `getHostAddress` gives: an IP address as text. -/
structure HostAddress where
  text : List Char
  ascii : IsAscii text
  length_le : text.length ≤ 255

/-- `N64Server`; `ROMHashStr` is computed from the hash. -/
structure N64Server where
  address : HostAddress
  publicport : BitVec 32
  romName : List Char
  romHash : List UInt8
  lastmessage : ℤ

/-- An `int` in a Java string. -/
def intText (i : BitVec 32) : List Char :=
  if i.toInt < 0 then '-' :: Nat.toDigits 10 i.toInt.natAbs else Nat.toDigits 10 i.toInt.natAbs

/-- An address and a port, with a colon between them. -/
def addrPort (address : HostAddress) (port : BitVec 32) : List Char :=
  address.text ++ ':' :: intText port

/-- `publicaddr`. -/
def N64Server.publicaddr (s : N64Server) : List Char := addrPort s.address s.publicport

/-- `GetROMHashStr`. -/
def N64Server.romHashStr (s : N64Server) : List Char := bytesToHash s.romHash

/-- A string with its length in front of its bytes, as the Java programs write it. -/
def putString (s : List Char) : List UInt8 := be32 (BitVec.ofNat 32 (utf16Length s)) ++ utf8 s

/-- `N64Server.toByteArray`. -/
def N64Server.toByteArray (s : N64Server) (hasrom : Bool) : List UInt8 :=
  putString s.publicaddr ++ putString s.romName ++ be32 (BitVec.ofNat 32 s.romHash.length) ++
    s.romHash ++ [if hasrom then 1 else 0]

/-- `servertable`: at most one server for a key. -/
structure ServerTable where
  entries : List (List Char × N64Server)
  nodup : (entries.map Prod.fst).Nodup

/-- The table of a master that has started. -/
def ServerTable.empty : ServerTable := ⟨[], List.nodup_nil⟩

/-- `put`: the server takes the place of the one that had its key. -/
def ServerTable.put (t : ServerTable) (key : List Char) (s : N64Server) : ServerTable where
  entries := (key, s) :: t.entries.filter (·.1 ≠ key)
  nodup := by
    rw [List.map_cons, List.nodup_cons]
    exact ⟨by simp, (List.filter_sublist.map _).nodup t.nodup⟩

/-- `values`. -/
def ServerTable.values (t : ServerTable) : List N64Server := t.entries.map Prod.snd

/-! ### Registering -/

/-- `ByteBuffer.getInt`. -/
def getInt : List UInt8 → Except Exn (BitVec 32 × List UInt8)
  | b0 :: b1 :: b2 :: b3 :: bb => .ok (ofBe32 b0 b1 b2 b3, bb)
  | _ => .error .bufferUnderflow

/-- `n` times `ByteBuffer.get`. -/
def get : ℕ → List UInt8 → Except Exn (List UInt8 × List UInt8)
  | 0, bb => .ok ([], bb)
  | _ + 1, [] => .error .bufferUnderflow
  | n + 1, b :: bb => do
    let (l, bb) ← get n bb
    return (b :: l, bb)

/-- The `(char)` cast of a byte. -/
def byteToChar (b : UInt8) : Char := Java.toChar b.toBitVec.toInt

/-- `RegisterServer`: the server that is put into the table. -/
def registerServer (now : ℤ) (address : HostAddress) (data : List UInt8) : Except Exn N64Server := do
  let (publicport, bb) ← getInt data
  let (size, bb) ← getInt bb
  let (romname, bb) ← get size.toInt.toNat bb
  let (size, bb) ← getInt bb
  if size.toInt < 0 then
    throw .negativeArraySize
  let (romhash, _) ← get size.toInt.toNat bb
  return ⟨address, publicport, romname.map byteToChar, romhash, now⟩

/-- A datagram that has come to the master, with the clock when it is handled. -/
structure Arrival where
  address : HostAddress
  port : BitVec 32
  now : ℤ
  data : List UInt8

/-- What a datagram with a `REGISTER` does to the table; one that ends in an exception does nothing. -/
def register (t : ServerTable) (a : Arrival) : ServerTable :=
  match Lang.decode .java .s64 a.data fun _ => 0 with
  | .ok (some pkt) =>
    if pkt.body = .s64 ['R', 'E', 'G', 'I', 'S', 'T', 'E', 'R'] then
      match registerServer a.now a.address pkt.data with
      | .ok s => t.put (addrPort a.address a.port) s
      | .error _ => t
    else t
  | _ => t

/-- The table after some datagrams. -/
def registerAll (l : List Arrival) : ServerTable := l.foldl register .empty

/-! ### Listing -/

/-- The type of the packet for one server. -/
def typeServer : Body := .s64 ['S', 'E', 'R', 'V', 'E', 'R']

/-- The type of the packet behind the last. -/
def typeDonelisting : Body := .s64 ['D', 'O', 'N', 'E', 'L', 'I', 'S', 'T', 'I', 'N', 'G']

/-- What `ListServers` leaves behind. -/
structure Listed where
  handler : UDPHandler
  out : List Datagram
  exn : Option Exn

/-- `ListServers`, from the `i`-th packet on. -/
def listServers (calls : ℕ → Call) (roms : RomTable) : ℕ → UDPHandler → List N64Server → Listed
  | i, h, [] =>
    let r := sendPacket .java (calls i) h
      (newS64Packet i ['D', 'O', 'N', 'E', 'L', 'I', 'S', 'T', 'I', 'N', 'G'] [] flagUnreliable)
    ⟨r.handler, r.out, r.exn⟩
  | i, h, s :: servers =>
    let r := sendPacket .java (calls i) h
      (newS64Packet i ['S', 'E', 'R', 'V', 'E', 'R'] (s.toByteArray (roms s.romHashStr).isSome)
        flagUnreliable)
    match r.exn with
    | some e => ⟨r.handler, r.out, some e⟩
    | none =>
      let rest := listServers calls roms (i + 1) r.handler servers
      ⟨rest.handler, r.out ++ rest.out, rest.exn⟩

/-- **Exactly one `SERVER` for each server**, in their order, and one `DONELISTING` behind them. -/
def ListsAll (roms : RomTable) (servers : List N64Server) (r : Listed) : Prop :=
  r.exn = none ∧ r.out.map (fun d => (d.pkt.body, d.pkt.data)) =
    servers.map (fun s => (typeServer, s.toByteArray (roms s.romHashStr).isSome)) ++
      [(typeDonelisting, [])]

/-- The `SERVER` packet of a server fits into the buffer of `GetBytes`: its header of 20 bytes, three
lengths, the address, the name in UTF-8, the hash and the flag. -/
def N64Server.Fits (s : N64Server) : Prop :=
  33 + s.publicaddr.length + (utf8 s.romName).length + s.romHash.length ≤ packetMaxSize

/-! ### Texts -/

theorem isAscii_intText (i : BitVec 32) : IsAscii (intText i) := by
  have hdigits : IsAscii (Nat.toDigits 10 i.toInt.natAbs) := by
    intro c hc
    have hdigit := Nat.isDigit_of_mem_toDigits (by decide) (by decide) hc
    simp only [Char.isDigit, Bool.and_eq_true, decide_eq_true_eq] at hdigit
    exact lt_of_le_of_lt (UInt32.le_iff_toNat_le.mp hdigit.2) (by decide)
  unfold intText
  split_ifs
  · exact isAscii_cons.mpr ⟨by decide, hdigits⟩
  · exact hdigits

theorem length_intText_le (i : BitVec 32) : (intText i).length ≤ 11 := by
  have hlt : i.toInt.natAbs < 10 ^ 10 := by
    have hle := BitVec.toInt_lt (x := i)
    have hge := BitVec.le_toInt (x := i)
    omega
  have hdigits := Nat.toDigits_length 10 _ 10 (by decide) hlt
  unfold intText
  split_ifs
  · simpa using Nat.lt_succ_of_le hdigits
  · omega

theorem isAscii_addrPort (address : HostAddress) (port : BitVec 32) :
    IsAscii (addrPort address port) :=
  isAscii_append.mpr ⟨address.ascii, isAscii_cons.mpr ⟨by decide, isAscii_intText port⟩⟩

theorem length_addrPort_le (address : HostAddress) (port : BitVec 32) :
    (addrPort address port).length ≤ 267 := by
  have haddress := address.length_le
  have hport := length_intText_le port
  simp only [addrPort, List.length_append, List.length_cons]
  omega

@[simp] theorem length_putString (s : List Char) : (putString s).length = 4 + (utf8 s).length := by
  simp [putString]

theorem length_toByteArray (s : N64Server) (hasrom : Bool) :
    (s.toByteArray hasrom).length =
      13 + s.publicaddr.length + (utf8 s.romName).length + s.romHash.length := by
  have hascii := isAscii_addrPort s.address s.publicport
  have haddr : (utf8 s.publicaddr).length = s.publicaddr.length := by
    rw [N64Server.publicaddr, length_utf8_eq_iff.mpr hascii, utf16Length_of_isAscii hascii]
  simp only [N64Server.toByteArray, List.length_append, length_putString, length_be32,
    List.length_singleton, haddr]
  omega

/-! ### What is registered is small -/

theorem getInt_eq {data bb : List UInt8} {i : BitVec 32} (h : getInt data = .ok (i, bb)) :
    data = be32 i ++ bb := by
  unfold getInt at h
  split at h
  · next b0 b1 b2 b3 rest =>
    obtain ⟨rfl, rfl⟩ := Prod.mk.inj (Except.ok.inj h)
    obtain ⟨h0, h1, h2, h3⟩ := byteOf_ofBe32 b0 b1 b2 b3
    simp [be32, h0, h1, h2, h3]
  · cases h

@[simp] theorem getInt_be32 (i : BitVec 32) (bb : List UInt8) : getInt (be32 i ++ bb) = .ok (i, bb) := by
  simp [getInt, be32]

theorem bind_eq_ok {α β : Type} {x : Except Exn α} {f : α → Except Exn β} {r : β} :
    x >>= f = .ok r ↔ ∃ a, x = .ok a ∧ f a = .ok r := by
  cases x <;> simp [bind, Except.bind]

theorem get_eq : ∀ {n : ℕ} {data l bb : List UInt8}, get n data = .ok (l, bb) →
    data = l ++ bb ∧ l.length = n
  | 0, data, l, bb, h => by
    obtain ⟨rfl, rfl⟩ := Prod.mk.inj (Except.ok.inj h)
    simp
  | n + 1, [], l, bb, h => by cases h
  | n + 1, b :: data, l, bb, h => by
    obtain ⟨⟨l', bb'⟩, hrest, h⟩ := bind_eq_ok.mp h
    obtain ⟨rfl, rfl⟩ := Prod.mk.inj (Except.ok.inj h)
    obtain ⟨hdata, hlen⟩ := get_eq hrest
    simp [← hdata, hlen]

@[simp] theorem get_append : ∀ (l bb : List UInt8), get l.length (l ++ bb) = .ok (l, bb)
  | [], bb => rfl
  | b :: l, bb => by simp [get, get_append l bb, bind, Except.bind, pure, Except.pure]

/-- **What `RegisterServer` accepts**: the fields one after the other, and perhaps more behind. -/
theorem registerServer_eq {now : ℤ} {address : HostAddress} {data : List UInt8} {s : N64Server}
    (h : registerServer now address data = .ok s) :
    ∃ (size hashsize : BitVec 32) (name rest : List UInt8),
      data = be32 s.publicport ++ be32 size ++ name ++ be32 hashsize ++ s.romHash ++ rest ∧
        name.length = size.toInt.toNat ∧ (s.romHash.length : ℤ) = hashsize.toInt ∧
          s.romName = name.map byteToChar ∧ s.address = address ∧ s.lastmessage = now := by
  obtain ⟨⟨publicport, bb1⟩, h1, h⟩ := bind_eq_ok.mp h
  obtain ⟨⟨size, bb2⟩, h2, h⟩ := bind_eq_ok.mp h
  obtain ⟨⟨name, bb3⟩, h3, h⟩ := bind_eq_ok.mp h
  obtain ⟨⟨hashsize, bb4⟩, h4, h⟩ := bind_eq_ok.mp h
  dsimp only at h2 h3 h4 h
  split_ifs at h with hneg
  · cases h
  obtain ⟨⟨romhash, rest⟩, h5, h⟩ := bind_eq_ok.mp h
  obtain rfl := Except.ok.inj h
  obtain ⟨hname, hlen⟩ := get_eq h3
  obtain ⟨hhash, hhashlen⟩ := get_eq h5
  refine ⟨size, hashsize, name, rest, ?_, hlen, by dsimp only; omega, rfl, rfl, rfl⟩
  rw [getInt_eq h1, getInt_eq h2, hname, getInt_eq h4, hhash]
  simp only [List.append_assoc]

theorem toNat_toInt_ofNat {n : ℕ} (h : n < 2 ^ 31) : (BitVec.ofNat 32 n).toInt = n := by
  rw [BitVec.toInt_eq_toNat_cond, BitVec.toNat_ofNat]
  split_ifs <;> omega

/-- The bytes of a `REGISTER`, as `ToByteArray_Master` writes them for an ASCII name, are accepted. -/
theorem registerServer_bytes (now : ℤ) (address : HostAddress) (publicport : BitVec 32)
    (name romhash : List UInt8) (hname : name.length < 2 ^ 31) (hhash : romhash.length < 2 ^ 31) :
    registerServer now address (be32 publicport ++ (be32 (BitVec.ofNat 32 name.length) ++
        (name ++ (be32 (BitVec.ofNat 32 romhash.length) ++ (romhash ++ []))))) =
      .ok ⟨address, publicport, name.map byteToChar, romhash, now⟩ := by
  have hneg : ¬ (romhash.length : ℤ) < 0 := by omega
  simp only [registerServer, getInt_be32, bind, Except.bind, toNat_toInt_ofNat hname,
    toNat_toInt_ofNat hhash, Int.toNat_natCast, get_append, hneg, if_false, pure, Except.pure]

/-- A server that came in one datagram. -/
def Small (s : N64Server) : Prop :=
  (utf8 s.romName).length ≤ 3 * packetMaxSize ∧ s.romHash.length ≤ packetMaxSize

theorem length_decode {b : List UInt8} {q : AbstractPacket}
    (h : Java.decode .s64 b = .ok (some q)) : q.data.length ≤ b.length := by
  unfold Java.decode at h
  split_ifs at h
  · cases h
  obtain ⟨version, flags, seqnum, ack, ackbitfield, typesize, type, size, data, htype, rfl⟩ :=
    Java.s64ReadPacket_some h
  rw [Java.readPacket, Java.s64ReadPacket_bytes _ _ _ _ _ _ _ _ _ htype] at h
  split_ifs at h
  · obtain rfl := Option.some.inj (Except.ok.inj h)
    simp [s64Bytes]
    omega
  · obtain rfl := Option.some.inj (Except.ok.inj h)
    simp

theorem utf16Size_byteToChar (b : UInt8) : utf16Size (byteToChar b) = 1 := by
  have hle : ∀ n, (Char.ofNat n).toNat ≤ n := by
    intro n
    rw [Char.ofNat]
    by_cases hvalid : n.isValidChar
    · rw [dif_pos hvalid]
      exact Nat.le_of_eq rfl
    · rw [dif_neg hvalid]
      exact Nat.zero_le _
  have hn := hle (b.toBitVec.toInt % 65536).toNat
  exact if_pos (by rw [byteToChar, Java.toChar]; omega)

theorem small_registerServer {now : ℤ} {address : HostAddress} {data : List UInt8} {s : N64Server}
    (h : registerServer now address data = .ok s) (hdata : data.length ≤ packetMaxSize) :
    Small s := by
  obtain ⟨size, hashsize, name, rest, rfl, -, -, hname, -, -⟩ := registerServer_eq h
  simp only [List.length_append, length_be32] at hdata
  have hunits : utf16Length s.romName = name.length := by
    rw [hname, utf16Length, List.map_map]
    simp [Function.comp_def, utf16Size_byteToChar]
  have hbytes := length_utf8_le s.romName
  exact ⟨by omega, by omega⟩

theorem mem_values_put {t : ServerTable} {key : List Char} {s s' : N64Server}
    (h : s' ∈ (t.put key s).values) : s' = s ∨ s' ∈ t.values := by
  simp only [ServerTable.values, ServerTable.put, List.map_cons, List.mem_cons] at h
  rcases h with h | h
  · exact Or.inl h
  · exact Or.inr ((List.filter_sublist.map _).subset h)

/-- **What is registered is small.** -/
theorem small_registerAll (l : List Arrival) : ∀ s ∈ (registerAll l).values, Small s := by
  suffices hfold : ∀ t : ServerTable, (∀ s ∈ t.values, Small s) →
      ∀ s ∈ (l.foldl register t).values, Small s from
    hfold .empty (by simp [ServerTable.values, ServerTable.empty])
  induction l with
  | nil => exact fun t ht => ht
  | cons a l ih =>
    refine fun t ht => ih _ fun s hs => ?_
    unfold register at hs
    split at hs
    · next pkt hpkt =>
      split_ifs at hs
      · split at hs
        · next s' hs' =>
          rcases mem_values_put hs with rfl | hs
          · refine small_registerServer hs' ((length_decode hpkt).trans ?_)
            simp
          · exact ht s hs
        · exact ht s hs
      · exact ht s hs
    · exact ht s hs

/-! ### What is sent -/

/-- A packet with a payload takes 14 bytes more than its type and its payload. -/
theorem getBytes_ok_iff (h : UDPHandler) (call : Call) (ref : ℕ) (type : List Char)
    {data : List UInt8} (hdata : data.length < 2 ^ 15) :
    (∃ b, Lang.getBytes .java (firstSent .java call h (newS64Packet ref type data flagUnreliable)) =
      .ok b) ↔ 14 + type.length + data.length ≤ packetMaxSize := by
  have hsize : (Java.size data).toInt = data.length := by
    rw [Java.size, BitVec.toInt_eq_toNat_cond, BitVec.toNat_ofNat]
    split_ifs <;> omega
  have hput : (if (Java.size data).toInt > 0 then data else []) = data := by
    split_ifs with hpos
    · rfl
    · exact (List.length_eq_zero_iff.mp (by omega)).symm
  have hputs : (Java.puts (firstSent .java call h (newS64Packet ref type data flagUnreliable))).length =
      14 + type.length + data.length := by
    simp [Java.puts, firstSent, newS64Packet, hput, packetHeader, Java.asciiBytes]
    omega
  rw [Lang.getBytes, Java.getBytes, hputs]
  split_ifs with hfit <;> simp [hfit]

section Sending
variable (call : Call) (hcall : call.sent = true) (h : UDPHandler) (ref : ℕ) (type : List Char)
  (data : List UInt8) (hdata : data.length < 2 ^ 15)
include hcall hdata

/-- An unreliable packet that fits goes out, and the handler stays as it is. -/
theorem sendPacket_fits (hfit : 14 + type.length + data.length ≤ packetMaxSize) :
    ∃ d, sendPacket .java call h (newS64Packet ref type data flagUnreliable) =
        ⟨h, firstSent .java call h (newS64Packet ref type data flagUnreliable), [d], none⟩ ∧
      (d.pkt.body, d.pkt.data) = (.s64 type, data) := by
  obtain ⟨b, hb⟩ := (getBytes_ok_iff h call ref type hdata).mpr hfit
  have hrel : (firstSent .java call h (newS64Packet ref type data flagUnreliable)).reliable = false := by
    simp [AbstractPacket.reliable, firstSent, newS64Packet, flagUnreliable]
  refine ⟨⟨firstSent .java call h (newS64Packet ref type data flagUnreliable), b⟩, ?_, rfl⟩
  rw [sendPacket_first .java call h rfl hcall, hb]
  simp [addSent, hrel]

/-- One that does not fit ends in an exception. -/
theorem sendPacket_not_fits (hfit : ¬ 14 + type.length + data.length ≤ packetMaxSize) :
    (sendPacket .java call h (newS64Packet ref type data flagUnreliable)).exn ≠ none := by
  rw [sendPacket_first .java call h rfl hcall]
  cases hb : Lang.getBytes .java (firstSent .java call h (newS64Packet ref type data flagUnreliable)) with
  | error e => simp
  | ok b => exact absurd ((getBytes_ok_iff h call ref type hdata).mp ⟨b, hb⟩) hfit

end Sending

theorem length_toByteArray_lt {s : N64Server} (hs : Small s) (hasrom : Bool) :
    (s.toByteArray hasrom).length < 2 ^ 15 := by
  have haddr := length_addrPort_le s.address s.publicport
  obtain ⟨hname, hhash⟩ := hs
  rw [length_toByteArray, N64Server.publicaddr]
  simp only [packetMaxSize] at hname hhash
  omega

theorem fits_iff (s : N64Server) (hasrom : Bool) :
    14 + ['S', 'E', 'R', 'V', 'E', 'R'].length + (s.toByteArray hasrom).length ≤ packetMaxSize ↔
      s.Fits := by
  rw [length_toByteArray, N64Server.Fits]
  simp only [List.length_cons, List.length_nil]
  omega

/-- **The loop of `ListServers`**, when the socket takes everything. -/
theorem listServers_spec {calls : ℕ → Call} (hcalls : ∀ i, (calls i).sent = true) (roms : RomTable) :
    ∀ {servers : List N64Server} (i : ℕ) (h : UDPHandler), (∀ s ∈ servers, Small s) →
      (ListsAll roms servers (listServers calls roms i h servers) ↔ ∀ s ∈ servers, s.Fits)
  | [], i, h, _ => by
    obtain ⟨d, hsend, hd⟩ := sendPacket_fits (calls i) (hcalls i) h i
      ['D', 'O', 'N', 'E', 'L', 'I', 'S', 'T', 'I', 'N', 'G'] [] (by decide) (by decide)
    simp [listServers, ListsAll, hsend, hd, typeDonelisting]
  | s :: servers, i, h, hsmall => by
    obtain ⟨hs, hrest⟩ := List.forall_mem_cons.mp hsmall
    have hdata := length_toByteArray_lt hs (roms s.romHashStr).isSome
    rw [List.forall_mem_cons, listServers]
    by_cases hfit : s.Fits
    · obtain ⟨d, hsend, hd⟩ := sendPacket_fits (calls i) (hcalls i) h i
        ['S', 'E', 'R', 'V', 'E', 'R'] _ hdata ((fits_iff s _).mpr hfit)
      have ih := listServers_spec hcalls roms (i + 1) h hrest
      simp only [hsend, hfit, true_and, ← ih, ListsAll, List.map_cons, hd, typeServer,
        List.nil_append, List.cons_append, List.cons.injEq]
    · have hexn := sendPacket_not_fits (calls i) (hcalls i) h i ['S', 'E', 'R', 'V', 'E', 'R'] _ hdata
        (mt (fits_iff s _).mp hfit)
      obtain ⟨e, he⟩ := Option.ne_none_iff_exists'.mp hexn
      simp [he, ListsAll, hfit]

/-- **When `LIST` lists everything**: exactly if the packet of each registered server fits. -/
theorem listed_iff (l : List Arrival) {servers : List N64Server}
    (hservers : servers.Perm (registerAll l).values) (roms : RomTable) (h : UDPHandler)
    (clock : ℕ → ℤ) :
    ListsAll roms servers (listServers (fun i => ⟨clock i, clock i, true⟩) roms 0 h servers) ↔
      ∀ s ∈ (registerAll l).values, s.Fits := by
  rw [listServers_spec (fun _ => rfl) roms 0 h fun s hs =>
    small_registerAll l s (hservers.mem_iff.mp hs)]
  exact forall_congr' fun s => by rw [hservers.mem_iff]

instance decidableFits (s : N64Server) : Decidable s.Fits := inferInstanceAs (Decidable (_ ≤ _))

/-- `10.0.0.1`. -/
def sampleAddress : HostAddress :=
  ⟨['1', '0', '.', '0', '.', '0', '.', '1'], by decide, by decide⟩

/-- The datagram of a game server with this name and this hash. -/
def sampleArrival (name romhash : List UInt8) : Arrival where
  address := sampleAddress
  port := 6464
  now := 0
  data := WireFormat.wireBytes (newS64Packet 0 ['R', 'E', 'G', 'I', 'S', 'T', 'E', 'R']
    (be32 6460 ++ be32 (BitVec.ofNat 32 name.length) ++ name ++
      be32 (BitVec.ofNat 32 romhash.length) ++ romhash) flagUnreliable)

/-- One server with a short name that is not ASCII. -/
def shortHash : List Arrival := [sampleArrival [0x61, 0xE9] (List.replicate 32 7)]

theorem listed_shortHash : ListsAll (fun _ => none) (registerAll shortHash).values
    (listServers (fun i => ⟨i, i, true⟩) (fun _ => none) 0 newUDPHandler
      (registerAll shortHash).values) :=
  (listed_iff _ (List.Perm.refl _) (fun _ => none) newUDPHandler fun i => i).mpr (by decide +kernel)

/-- One server whose hash has 4060 bytes; its `REGISTER` is a datagram of 4094 bytes. -/
def longHash : List Arrival := [sampleArrival [] (List.replicate 4060 7)]

theorem not_listed_longHash :
    (∀ a ∈ longHash, a.data.length ≤ packetMaxSize) ∧
      ¬ ListsAll (fun _ => none) (registerAll longHash).values
        (listServers (fun i => ⟨i, i, true⟩) (fun _ => none) 0 newUDPHandler
          (registerAll longHash).values) := by
  have hexn : (listServers (fun i => ⟨i, i, true⟩) (fun _ => none) 0 newUDPHandler
      (registerAll longHash).values).exn = some .bufferOverflow := by decide +kernel
  refine ⟨by decide +kernel, fun h => ?_⟩
  have hnone := h.1
  rw [hexn] at hnone
  cases hnone

end N64NetLib.Master.Servers
