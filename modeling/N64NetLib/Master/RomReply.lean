import N64NetLib.Master.Rom
import N64NetLib.Udp.Handler

/-! # Is every `DOWNLOAD` answered?

A `DOWNLOAD` in a thread of a client of the master: `run` reads the packet, and `DownloadROM` looks the
hash up, looks at the file, and replies with the size of the file or with nothing. What goes wrong on the
way ends in the `catch` of `run`, which prints it and goes on with the loop.

So there is no reply for a packet without a payload, which `ByteBuffer.wrap` does not take, and none for a
file that can no longer be read or is no ROM any more, which stays in the table. Everything else is
answered once, and as it should be, if the socket takes the reply (`download_answered_iff`). -/

namespace N64NetLib.Master.RomReply

open N64NetLib.Lib.BigEndian N64NetLib.Packet N64NetLib.Packet.Basic N64NetLib.Udp.Handler
open N64NetLib.Master.Rom

/-! ### The thread -/

def downloadType : List Char := ['D', 'O', 'W', 'N', 'L', 'O', 'A', 'D']

/-- `GetData` of the packet in a datagram: null if its size field is not positive. -/
def getData (data : List UInt8) (pkt : AbstractPacket) : Option (List UInt8) :=
  let typesize := (data.getD 11 0).toNat
  let size := ofBe16 (data.getD (12 + typesize) 0) (data.getD (13 + typesize) 0)
  if 0 < size.toInt then some pkt.data else none

/-- What `run` catches. -/
inductive Raised
  | nullPointer
  | exn (e : Exn)

/-- How `DownloadROM` comes to its end: it returns, it throws, or the file is next. -/
inductive Ending
  | returned
  | threw (e : Raised)
  | sending (file : Transfer)

/-- What `DownloadROM` leaves behind: the table, what it has sent, how it came to its end. -/
structure Served where
  roms : RomTable
  out : List Datagram
  ending : Ending

/-- The reply is sent. -/
def sendReply (call : Call) (h : UDPHandler) (roms : RomTable) (data : List UInt8) (ending : Ending) :
    Served :=
  let r := sendPacket .java call h (newS64Packet 0 downloadType data flagUnreliable)
  ⟨roms, r.out, match r.exn with
    | none => ending
    | some e => .threw (.exn e)⟩

section Download
variable (sha256 : List UInt8 → List UInt8) (disk : List Char → DiskFile)

/-- `DownloadROM`, up to the file. -/
def downloadROM (call : Call) (h : UDPHandler) (roms : RomTable) : Option (List UInt8) → Served
  | none => ⟨roms, [], .threw .nullPointer⟩
  | some hash =>
    match findROM sha256 disk roms hash with
    | (roms, .refused) => sendReply call h roms [] .returned
    | (roms, .raised e) => ⟨roms, [], .threw (.exn e)⟩
    | (roms, .found file) =>
      sendReply call h roms
        (be32 (BitVec.ofNat 32 file.size) ++ be32 (BitVec.ofNat 32 fileChunkSize)) (.sending file)

/-- The loop of `run`, for a datagram that is a `DOWNLOAD`: the payload, and what comes of it. -/
def serve (reading replying : Call) (h : UDPHandler) (roms : RomTable) (data : List UInt8) :
    Option (Option (List UInt8) × Served) :=
  let r := readPacket .java .s64 reading h 0 0 data fun _ => 0
  match r.result with
  | .ok (some pkt) =>
    if pkt.body = .s64 downloadType then
      let s := downloadROM sha256 disk replying r.handler roms (getData data pkt)
      some (getData data pkt, { s with out := r.out ++ s.out })
    else none
  | _ => none

/-! ### What should come of it -/

/-- The datagram is a `DOWNLOAD`. -/
def isReply (d : Datagram) : Bool := d.pkt.body = .s64 downloadType

/-- The file of the ROM that the table has for the hash has this hash now. -/
def Current (roms : RomTable) (hash : List UInt8) : Prop :=
  ∃ rom bytes, roms (bytesToHash hash) = some rom ∧ disk rom.path = .file bytes ∧ sha256 bytes = hash

/-- **Answered**: there is one reply, one with a size only if the file has the hash now, and a ROM whose
file no longer has it is gone from the table. -/
structure Answered (roms : RomTable) (payload : Option (List UInt8)) (s : Served) : Prop where
  one : (s.out.filter isReply).length = 1
  sized : ∀ d ∈ s.out, isReply d → d.pkt.data ≠ [] →
    ∃ hash, payload = some hash ∧ Current sha256 disk roms hash
  stale : ∀ hash, payload = some hash → ¬ Current sha256 disk roms hash →
    s.roms (bytesToHash hash) = none

/-- There is a payload, and the file of the ROM that the table has under it is missing, has the hash, or
begins like a ROM. -/
def Answerable (roms : RomTable) : Option (List UInt8) → Prop
  | none => False
  | some hash => ∀ rom, roms (bytesToHash hash) = some rom →
    match disk rom.path with
    | .missing => True
    | .unreadable => False
    | .file bytes => sha256 bytes = hash ∨ [0x80, 0x37, 0x12, 0x40] <+: bytes

/-! ### The reply -/

theorem sendReply_eq {call : Call} (hcall : call.sent = true) (h : UDPHandler) (roms : RomTable)
    {data : List UInt8} (hlen : data.length ≤ 8) (ending : Ending) :
    ∃ d, isReply d = true ∧ d.pkt.data = data ∧
      sendReply call h roms data ending = ⟨roms, [d], ending⟩ := by
  have h0 : (newS64Packet 0 downloadType data flagUnreliable).attempts = 0 := rfl
  have hw : WireFormat.WellFormed
      (firstSent .java call h (newS64Packet 0 downloadType data flagUnreliable)) := by
    refine ⟨UInt8.le_refl _, fun type ht => ?_, ?_⟩
    · obtain rfl : downloadType = type := by simpa [firstSent, newS64Packet] using ht
      exact ⟨by decide, by simp [downloadType]⟩
    · simp only [WireFormat.wireLength, firstSent, newS64Packet, downloadType, packetMaxSize,
        List.length_cons, List.length_nil]
      omega
  refine ⟨⟨firstSent .java call h (newS64Packet 0 downloadType data flagUnreliable),
    WireFormat.wireBytes (firstSent .java call h (newS64Packet 0 downloadType data flagUnreliable))⟩,
    by simp [isReply, firstSent, newS64Packet], rfl, ?_⟩
  simp only [sendReply, sendPacket_first .java call h h0 hcall, Lang.java.getBytes_eq hw]

/-- One reply, with a size or without. -/
theorem answered_sendReply_iff {sha256 : List UInt8 → List UInt8} {disk : List Char → DiskFile}
    {call : Call} (hcall : call.sent = true) (h : UDPHandler) (roms roms' : RomTable)
    {hash data : List UInt8} (hlen : data.length ≤ 8) (ending : Ending) :
    Answered sha256 disk roms (some hash) (sendReply call h roms' data ending) ↔
      (data ≠ [] → Current sha256 disk roms hash) ∧
        (¬ Current sha256 disk roms hash → roms' (bytesToHash hash) = none) := by
  obtain ⟨d, hd, hdata, heq⟩ := sendReply_eq hcall h roms' hlen ending
  rw [heq]
  constructor
  · intro ha
    refine ⟨fun hne => ?_, ha.stale hash rfl⟩
    obtain ⟨hash', hpayload, hcurrent⟩ := ha.sized d (by simp) hd (by rwa [hdata])
    rwa [Option.some.inj hpayload]
  · rintro ⟨hsized, hstale⟩
    refine ⟨by simp [hd], fun d' hd' _ hne => ⟨hash, rfl, hsized ?_⟩, fun hash' hpayload => ?_⟩
    · obtain rfl := List.mem_singleton.mp hd'
      rwa [hdata] at hne
    · rwa [← Option.some.inj hpayload]

/-- Without a reply nothing is answered. -/
theorem not_answered_of_silent {sha256 : List UInt8 → List UInt8} {disk : List Char → DiskFile}
    {roms roms' : RomTable} {payload : Option (List UInt8)} {ending : Ending} :
    ¬ Answered sha256 disk roms payload ⟨roms', [], ending⟩ := fun ha => by
  have hone := ha.one
  simp at hone

variable {sha256 : List UInt8 → List UInt8} {disk : List Char → DiskFile}

/-- The ackbeats of the read before it are no replies. -/
theorem answered_append_iff {roms : RomTable} {payload : Option (List UInt8)} {s : Served}
    {acks : List Datagram} (hacks : acks.filter isReply = []) :
    Answered sha256 disk roms payload { s with out := acks ++ s.out } ↔
      Answered sha256 disk roms payload s := by
  have hno : ∀ d ∈ acks, ¬ isReply d = true := by simpa using List.filter_eq_nil_iff.mp hacks
  constructor
  · intro ha
    exact ⟨by simpa [hacks] using ha.one, fun d hd => ha.sized d (List.mem_append_right _ hd), ha.stale⟩
  · intro ha
    refine ⟨by simpa [hacks] using ha.one, fun d hd hreply => ?_, ha.stale⟩
    exact ha.sized d ((List.mem_append.mp hd).resolve_left fun hack => hno d hack hreply) hreply

/-- A file that is read again, and has another hash now. -/
theorem answered_changed_iff {call : Call} (hcall : call.sent = true) (h : UDPHandler)
    {roms : RomTable} {hash : List UInt8} {rom : N64ROM}
    (hbytes : ∀ bytes, disk rom.path = .file bytes → sha256 bytes ≠ hash) :
    Answered sha256 disk roms (some hash)
        (match findROM.changed sha256 disk roms hash rom with
        | (roms, .refused) => sendReply call h roms [] .returned
        | (roms, .raised e) => ⟨roms, [], .threw (.exn e)⟩
        | (roms, .found file) =>
          sendReply call h roms
            (be32 (BitVec.ofNat 32 file.size) ++ be32 (BitVec.ofNat 32 fileChunkSize)) (.sending file)) ↔
      ∃ bytes, disk rom.path = .file bytes ∧ [0x80, 0x37, 0x12, 0x40] <+: bytes := by
  unfold findROM.changed
  cases hdisk : disk rom.path with
  | missing => simp [newN64ROM, hdisk, not_answered_of_silent]
  | unreadable => simp [newN64ROM, hdisk, not_answered_of_silent]
  | file bytes =>
    cases hheader : checkHeader bytes [0x80, 0x37, 0x12, 0x40] with
    | error e =>
      have hnot : ¬ [0x80, 0x37, 0x12, 0x40] <+: bytes := fun hprefix => by
        rw [checkHeader_ok_iff.mpr hprefix] at hheader
        cases hheader
      simp only [newN64ROM, hdisk, hheader]
      exact iff_of_false not_answered_of_silent (by simpa using hnot)
    | ok =>
      have hprefix := checkHeader_ok_iff.mp hheader
      simp only [newN64ROM, hdisk, hheader]
      have hnone : ([] : List UInt8).length ≤ 8 := Nat.zero_le 8
      have hkey : bytesToHash hash ≠ bytesToHash (sha256 bytes) := fun hkey =>
        hbytes bytes hdisk (bytesToHash_inj hkey).symm
      refine iff_of_true ((answered_sendReply_iff hcall h roms _ hnone .returned).mpr
        ⟨fun hne => absurd rfl hne, fun _ => ?_⟩) ⟨bytes, rfl, hprefix⟩
      rw [RomTable.put_apply, if_neg hkey, RomTable.remove, Function.update_self]

/-- `DownloadROM` on a socket that takes the reply. -/
theorem answered_downloadROM_iff {call : Call} (hcall : call.sent = true) (h : UDPHandler)
    (roms : RomTable) (payload : Option (List UInt8)) :
    Answered sha256 disk roms payload (downloadROM sha256 disk call h roms payload) ↔
      Answerable sha256 disk roms payload := by
  cases payload with
  | none => exact iff_of_false not_answered_of_silent id
  | some hash =>
    have hnone : ([] : List UInt8).length ≤ 8 := Nat.zero_le 8
    have hrefused : ∀ roms', roms' (bytesToHash hash) = none →
        Answered sha256 disk roms (some hash) (sendReply call h roms' [] .returned) := fun roms' hgone =>
      (answered_sendReply_iff hcall h roms roms' hnone _).mpr ⟨fun hne => absurd rfl hne, fun _ => hgone⟩
    simp only [Answerable, downloadROM, findROM]
    cases hrom : roms (bytesToHash hash) with
    | none => exact iff_of_true (hrefused roms hrom) (by simp)
    | some rom =>
      simp only [Option.some.injEq, forall_eq']
      cases hdisk : disk rom.path with
      | missing =>
        exact iff_of_true (hrefused _ (by rw [RomTable.remove, Function.update_self])) trivial
      | unreadable =>
        have hbytes : ∀ bytes, disk rom.path = .file bytes → sha256 bytes ≠ hash := by simp [hdisk]
        simpa [hdisk] using answered_changed_iff hcall h hbytes
      | file bytes =>
        dsimp only
        split_ifs with hhash
        · have hcurrent : Current sha256 disk roms hash := ⟨rom, bytes, hrom, hdisk, hhash⟩
          refine iff_of_true ((answered_sendReply_iff hcall h roms roms (by simp) _).mpr
            ⟨fun _ => hcurrent, fun hno => absurd hcurrent hno⟩) (Or.inl hhash)
        · have hbytes : ∀ bytes', disk rom.path = .file bytes' → sha256 bytes' ≠ hash := by
            simpa [hdisk] using hhash
          simpa [hdisk, hhash] using answered_changed_iff hcall h hbytes

/-- On a socket that does not take the reply nothing goes out. -/
theorem out_downloadROM (sha256 : List UInt8 → List UInt8) (disk : List Char → DiskFile) {call : Call}
    (hcall : call.sent = false) (h : UDPHandler) (roms : RomTable) (payload : Option (List UInt8)) :
    (downloadROM sha256 disk call h roms payload).out = [] := by
  have hreply : ∀ {roms' data ending}, (sendReply call h roms' data ending).out = [] := by
    intro roms' data ending
    by_contra hne
    obtain ⟨d, hd⟩ := List.exists_mem_of_ne_nil _ hne
    exact absurd (sent_of_mem_sendPacket hd) (by simp [hcall])
  unfold downloadROM
  split
  · rfl
  · split
    · exact hreply
    · rfl
    · exact hreply

/-- **When a `DOWNLOAD` is answered**: if the socket takes the reply, and for every payload, table and
disk but the ones that `DownloadROM` throws for. -/
theorem download_answered_iff {reading replying : Call} {h : UDPHandler} {roms : RomTable}
    {data : List UInt8} {payload : Option (List UInt8)} {s : Served}
    (hserve : serve sha256 disk reading replying h roms data = some (payload, s)) :
    Answered sha256 disk roms payload s ↔
      replying.sent = true ∧ Answerable sha256 disk roms payload := by
  have hacks : (readPacket .java .s64 reading h 0 0 data fun _ => 0).out.filter isReply = [] := by
    refine List.filter_eq_nil_iff.mpr fun d hd => ?_
    simp [isReply, body_of_mem_readPacket hd, newAckbeat, newS64Packet, downloadType]
  unfold serve at hserve
  dsimp only at hserve
  split at hserve
  · split_ifs at hserve
    obtain ⟨rfl, rfl⟩ := Prod.mk.inj (Option.some.inj hserve)
    rw [answered_append_iff hacks]
    by_cases hsent : replying.sent = true
    · rw [answered_downloadROM_iff hsent, and_iff_right hsent]
    · have hout := fun payload => out_downloadROM sha256 disk (Bool.not_eq_true _ ▸ hsent)
        (readPacket .java .s64 reading h 0 0 data fun _ => 0).handler roms payload
      exact iff_of_false (fun ha => by simpa [hout] using ha.one) fun hand => hsent hand.1
  · cases hserve

end Download

/-! ### A file that was replaced, and one that was cut off -/

/-- A `DOWNLOAD` with this payload. -/
def downloadRequest (payload : List UInt8) : List UInt8 :=
  WireFormat.wireBytes (newS64Packet 0 downloadType payload flagUnreliable)

/-- The hash that the ROM had when it was put into the table. -/
def formerHash : List UInt8 := List.replicate 32 0xA7

/-- Another ROM, and its SHA-256. -/
def otherROM : List UInt8 := [0x80, 0x37, 0x12, 0x40, 0xAA]

def otherHash : List UInt8 :=
  [0x86, 0xF3, 0x57, 0x40, 0xFB, 0xBD, 0x6B, 0xE0, 0x3E, 0x14, 0xE8, 0x87, 0x06, 0x36, 0xCF, 0xD5,
    0xF5, 0xF4, 0x75, 0x93, 0xE6, 0x28, 0xFA, 0x1B, 0xD7, 0xCD, 0xC5, 0x0D, 0x06, 0x08, 0x07, 0x0C]

/-- A table with one ROM, whose file is another ROM now, serves a request. -/
def serveReplaced (payload : List UInt8) : Option (Option (List UInt8) × Served) :=
  serve (fun _ => otherHash) (fun _ => .file otherROM) ⟨0, 0, true⟩ ⟨0, 0, true⟩ newUDPHandler
    (RomTable.put (fun _ => none) ⟨['r'], formerHash, 4096⟩) (downloadRequest payload)

/-- The request for the ROM that was there is answered, and the table has the other one for it. -/
theorem download_answered_replaced : ∃ s, serveReplaced formerHash = some (some formerHash, s) ∧
    Answered (fun _ => otherHash) (fun _ => .file otherROM)
      (RomTable.put (fun _ => none) ⟨['r'], formerHash, 4096⟩) (some formerHash) s ∧
    (s.roms (bytesToHash formerHash)).isNone ∧ (s.roms (bytesToHash otherHash)).isSome := by
  have hrun : (serveReplaced formerHash).map (fun r => (r.1, (r.2.roms (bytesToHash formerHash)).isNone,
      (r.2.roms (bytesToHash otherHash)).isSome)) = some (some formerHash, true, true) := by decide +kernel
  obtain ⟨⟨payload, s⟩, hserve, hs⟩ := Option.map_eq_some_iff.mp hrun
  simp only [Prod.mk.injEq] at hs
  obtain ⟨rfl, hgone, hthere⟩ := hs
  refine ⟨s, hserve, (download_answered_iff hserve).mpr ⟨rfl, fun rom _ => Or.inr ?_⟩, hgone, hthere⟩
  exact ⟨[0xAA], rfl⟩

/-- The SHA-256 of no bytes. -/
def emptyHash : List UInt8 :=
  [0xE3, 0xB0, 0xC4, 0x42, 0x98, 0xFC, 0x1C, 0x14, 0x9A, 0xFB, 0xF4, 0xC8, 0x99, 0x6F, 0xB9, 0x24,
    0x27, 0xAE, 0x41, 0xE4, 0x64, 0x9B, 0x93, 0x4C, 0xA4, 0x95, 0x99, 0x1B, 0x78, 0x52, 0xB8, 0x55]

/-- A table with one ROM, whose file is empty now, serves a request. -/
def serveTruncated (payload : List UInt8) : Option (Option (List UInt8) × Served) :=
  serve (fun _ => emptyHash) (fun _ => .file []) ⟨0, 0, true⟩ ⟨0, 0, true⟩ newUDPHandler
    (RomTable.put (fun _ => none) ⟨['r'], formerHash, 4096⟩) (downloadRequest payload)

/-- The ROM itself gets no reply, nor does a request without a hash. -/
theorem not_answered_truncated :
    (∃ s, serveTruncated formerHash = some (some formerHash, s) ∧
      ¬ Answered (fun _ => emptyHash) (fun _ => .file [])
        (RomTable.put (fun _ => none) ⟨['r'], formerHash, 4096⟩) (some formerHash) s) ∧
    ∃ s, serveTruncated [] = some (none, s) ∧
      ¬ Answered (fun _ => emptyHash) (fun _ => .file [])
        (RomTable.put (fun _ => none) ⟨['r'], formerHash, 4096⟩) none s := by
  have hsilent : ∀ {request payload}, (serveTruncated request).map (fun r =>
      (r.1, (r.2.out.filter isReply).length)) = some (payload, 0) →
        ∃ s, serveTruncated request = some (payload, s) ∧
          ¬ Answered (fun _ => emptyHash) (fun _ => .file [])
            (RomTable.put (fun _ => none) ⟨['r'], formerHash, 4096⟩) payload s := by
    intro request payload h
    obtain ⟨⟨payload', s⟩, hserve, hnone⟩ := Option.map_eq_some_iff.mp h
    obtain ⟨rfl, hzero⟩ := Prod.mk.inj hnone
    exact ⟨s, hserve, fun ha => by simpa [hzero] using ha.one⟩
  exact ⟨hsilent (by decide +kernel), hsilent (by decide +kernel)⟩

end N64NetLib.Master.RomReply
