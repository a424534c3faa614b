import Mathlib.Logic.Function.Basic
import N64NetLib.Packet.Basic

/-! # The ROMs of the master

The table of ROMs, what `DownloadROM` finds for a hash, and the chunks in which a thread writes the file
it found. The table has for a hash the ROM that was read from the disk at some time; `DownloadROM`
reads the file again, and sends it only if it still has the hash (`findROM_found`). The number of chunks
comes from the size in single precision. -/

namespace N64NetLib.Master.Rom

open N64NetLib.Packet.Basic

/-! ### The table -/

/-- What is under a path: nothing, something that cannot be read, or a file. -/
inductive DiskFile
  | missing
  | unreadable
  | file (bytes : List UInt8)

/-- The attributes of `N64ROM` that are used; `size` is that of the file when it was read. -/
structure N64ROM where
  path : List Char
  hash : List UInt8
  size : ℕ

/-- `HEX_ARRAY`. -/
def hexArray : List Char :=
  ['0', '1', '2', '3', '4', '5', '6', '7', '8', '9', 'A', 'B', 'C', 'D', 'E', 'F']

/-- `BytesToHash`. -/
def bytesToHash (bytes : List UInt8) : List Char :=
  bytes.flatMap fun b =>
    let v := b.toNat
    [hexArray.getD (v >>> 4) '0', hexArray.getD (v &&& 0x0F) '0']

theorem hexArray_inj {m n : ℕ} (hm : m < 16) (hn : n < 16)
    (h : hexArray.getD m '0' = hexArray.getD n '0') : m = n := by
  have hall : ∀ m < 16, ∀ n < 16, hexArray.getD m '0' = hexArray.getD n '0' → m = n := by decide
  exact hall m hm n hn h

/-- **A hash can be read off its key.** -/
theorem bytesToHash_inj : ∀ {a b : List UInt8}, bytesToHash a = bytesToHash b → a = b
  | [], [], _ => rfl
  | [], _ :: _, h => by simp [bytesToHash] at h
  | _ :: _, [], h => by simp [bytesToHash] at h
  | x :: a, y :: b, h => by
    simp only [bytesToHash, List.flatMap_cons, List.cons_append, List.nil_append, List.cons.injEq] at h
    obtain ⟨hhigh, hlow, hrest⟩ := h
    have hx := x.toNat_lt
    have hy := y.toNat_lt
    have hmod : ∀ n, n &&& 0x0F = n % 16 := fun n => Nat.and_two_pow_sub_one_eq_mod n 4
    simp only [hmod, Nat.shiftRight_eq_div_pow] at hhigh hlow
    have hdivs := hexArray_inj (by omega) (by omega) hhigh
    have hmods := hexArray_inj (by omega) (by omega) hlow
    have hxy : x = y := UInt8.toNat_inj.mp (by omega)
    rw [hxy, bytesToHash_inj hrest]

/-- `romtable`, as what `get` gives. -/
abbrev RomTable := List Char → Option N64ROM

/-- `put`. -/
def RomTable.put (roms : RomTable) (rom : N64ROM) : RomTable :=
  Function.update roms (bytesToHash rom.hash) (some rom)

theorem RomTable.put_apply (roms : RomTable) (rom : N64ROM) (key : List Char) :
    roms.put rom key = if key = bytesToHash rom.hash then some rom else roms key :=
  Function.update_apply _ _ _ _

/-- `remove`. -/
def RomTable.remove (roms : RomTable) (romhashstr : List Char) : RomTable :=
  Function.update roms romhashstr none

/-- The comparison with the first bytes of a ROM, one after the other. -/
def checkHeader : List UInt8 → List UInt8 → Except Exn Unit
  | _, [] => .ok ()
  | [], _ :: _ => .error .arrayIndex
  | b :: rombytes, h :: header => if b = h then checkHeader rombytes header else .error .invalidROM

theorem checkHeader_ok_iff : ∀ {rombytes header : List UInt8},
    checkHeader rombytes header = .ok () ↔ header <+: rombytes
  | _, [] => by simp [checkHeader]
  | [], _ :: _ => by simp [checkHeader]
  | b :: rombytes, h :: header => by
    rw [checkHeader, List.cons_prefix_cons]
    split_ifs with hb
    · simp [hb, checkHeader_ok_iff]
    · simp [Ne.symm hb]

section Lookup
variable (sha256 : List UInt8 → List UInt8) (disk : List Char → DiskFile)

/-- The constructor of `N64ROM`. -/
def newN64ROM (path : List Char) : Except Exn N64ROM :=
  match disk path with
  | .file rombytes => do
    checkHeader rombytes [0x80, 0x37, 0x12, 0x40]
    return ⟨path, sha256 rombytes, rombytes.length⟩
  | .missing | .unreadable => .error .io

/-- A file a thread is about to send, and the size that the table has for it. -/
structure Transfer where
  size : ℕ
  bytes : List UInt8

/-- What `DownloadROM` comes to: an empty `DOWNLOAD` is sent, an exception ends it before anything is
sent, or a `DOWNLOAD` with the size is sent and the file is next. -/
inductive Outcome
  | refused
  | raised (e : Exn)
  | found (file : Transfer)

/-- `DownloadROM` up to its reply, with the table it leaves. -/
def findROM (roms : RomTable) (hash : List UInt8) : RomTable × Outcome :=
  match roms (bytesToHash hash) with
  | none => (roms, .refused)
  | some rom =>
    match disk rom.path with
    | .missing => (roms.remove (bytesToHash hash), .refused)
    | .file bytes =>
      if sha256 bytes = hash then (roms, .found ⟨rom.size, bytes⟩) else changed rom
    | .unreadable => changed rom
where
  /-- The file no longer has the hash. -/
  changed (rom : N64ROM) : RomTable × Outcome :=
    match newN64ROM sha256 disk rom.path with
    | .error e => (roms, .raised e)
    | .ok rom' => ((roms.remove (bytesToHash hash)).put rom', .refused)

variable {sha256 disk}

theorem changed_ne_found {roms : RomTable} {hash : List UInt8} {rom : N64ROM} {file : Transfer} :
    (findROM.changed sha256 disk roms hash rom).2 ≠ .found file := by
  unfold findROM.changed
  split <;> simp

/-- **Only a file with the hash is sent.** -/
theorem findROM_found {roms : RomTable} {hash : List UInt8} {file : Transfer}
    (h : (findROM sha256 disk roms hash).2 = .found file) : sha256 file.bytes = hash := by
  unfold findROM at h
  split at h
  · cases h
  · split at h
    · cases h
    · split_ifs at h with hhash
      · cases h
        exact hhash
      · exact absurd h changed_ne_found
    · exact absurd h changed_ne_found

end Lookup

/-! ### The chunks -/

/-- `FILECHUNKSIZE`. -/
def fileChunkSize : ℕ := 2048

/-- `(float) n`: the nearest number with 24 significant bits, of two the one whose last bit is 0. -/
def toFloat (n : ℕ) : ℕ :=
  let ulp := 2 ^ (n.log2 - 23)
  let q := n / ulp
  if 2 * (n % ulp) < ulp ∨ (2 * (n % ulp) = ulp ∧ q % 2 = 0) then q * ulp else (q + 1) * ulp

/-- `(long)Math.ceil(((float)rom.GetSize()) / FILECHUNKSIZE)`. -/
def chunks (size : ℕ) : ℕ := (toFloat size + (fileChunkSize - 1)) / fileChunkSize

/-- What the first `i` calls of `fis.readNBytes(FILECHUNKSIZE)` read. -/
def Transfer.upTo (file : Transfer) (i : ℕ) : List UInt8 := file.bytes.take (fileChunkSize * i)

/-- What the next call reads. -/
def Transfer.chunk (file : Transfer) (i : ℕ) : List UInt8 :=
  (file.bytes.drop (fileChunkSize * i)).take fileChunkSize

/-- What the loop writes. -/
def Transfer.sent (file : Transfer) : List UInt8 := file.upTo (chunks file.size)

@[simp] theorem Transfer.upTo_zero (file : Transfer) : file.upTo 0 = [] := by simp [upTo]

theorem Transfer.upTo_succ (file : Transfer) (i : ℕ) :
    file.upTo (i + 1) = file.upTo i ++ file.chunk i := by
  rw [upTo, upTo, chunk, Nat.mul_succ, List.take_add]

theorem Transfer.upTo_prefix_bytes (file : Transfer) (i : ℕ) : file.upTo i <+: file.bytes :=
  List.take_prefix _ _

theorem Transfer.upTo_prefix (file : Transfer) {i : ℕ} (h : i ≤ chunks file.size) :
    file.upTo i <+: file.sent :=
  List.take_prefix_take_left (Nat.mul_le_mul_left _ h)

end N64NetLib.Master.Rom
