import N64NetLib.Lib.Path
import N64NetLib.Master.Servers

/-! # The ROM folder of the master

When a server registers with a hash that the table of ROMs does not have, `FindROMWithName` looks for a
file with the server's ROM name, and puts it into the table, from which everybody may download it. The
name is what the server wrote into its `REGISTER`; it is put behind the folder and a slash as it is, and
leads out of the folder if its `..` do (`addsInside_iff`). -/

namespace N64NetLib.Master.RomFolder

open N64NetLib.Lib.Path N64NetLib.Packet.Basic N64NetLib.Master.Rom N64NetLib.Master.Servers

/-- The path of `new File(romdir + "/" + name)`. -/
def romPath (romdir name : List Char) : List Char := romdir ++ '/' :: name

section Find
variable (sha256 : List UInt8 → List UInt8) (disk : List Char → DiskFile) (romdir : List Char)

/-- `File.exists`; a path with a NUL is none. -/
def fileExists (path : List Char) : Bool :=
  match disk path with
  | .missing => false
  | .unreadable | .file _ => !path.contains nul

/-- `FindROMWithName`. -/
def findROMWithName (roms : RomTable) (name : List Char) : RomTable :=
  if fileExists disk (romPath romdir name) then
    match newN64ROM sha256 disk (romPath romdir name) with
    | .ok rom => roms.put rom
    | .error _ => roms
  else roms

/-- What `RegisterServer` does to the table of ROMs. -/
def registerRoms (roms : RomTable) (s : N64Server) : RomTable :=
  match roms s.romHashStr with
  | some _ => roms
  | none => findROMWithName sha256 disk romdir roms s.romName

end Find

/-- **Every ROM that a server brings into the table lies in the ROM folder**, whatever there is on the
disk and in the table. -/
def AddsInside (fs : FileNames) (sha256 : List UInt8 → List UInt8) (romdir : List Char)
    (s : N64Server) : Prop :=
  ∀ (disk : List Char → DiskFile) (roms : RomTable) (key : List Char) (rom : N64ROM),
    registerRoms sha256 disk romdir roms s key = some rom → roms key ≠ some rom →
      fs.locate (romdir ++ ['/']) <+: fs.locate rom.path

/-- The name leads to a place in the folder or below it. -/
def StaysIn (fs : FileNames) (folder name : List Char) : Prop :=
  (offset (components fs.isSep name)).Returns (fs.locate folder)

instance decidableStaysIn (fs : FileNames) (folder name : List Char) :
    Decidable (StaysIn fs folder name) := decidableReturns _ _

theorem staysIn_iff (fs : FileNames) (folder : List Char) {sep : Char} (hsep : fs.isSep sep = true)
    (name : List Char) :
    fs.locate (folder ++ [sep]) <+: fs.locate (folder ++ sep :: name) ↔
      StaysIn fs (folder ++ [sep]) name := by
  rw [fs.locate_append folder sep name hsep, prefix_walk_iff, StaysIn]

section Confined
variable {sha256 : List UInt8 → List UInt8} {disk : List Char → DiskFile} {romdir : List Char}

theorem newN64ROM_path {path : List Char} {rom : N64ROM} (h : newN64ROM sha256 disk path = .ok rom) :
    rom.path = path := by
  unfold newN64ROM at h
  split at h
  · obtain ⟨-, -, h⟩ := bind_eq_ok.mp h
    exact congrArg N64ROM.path (Except.ok.inj h).symm
  · cases h
  · cases h

/-- What `FindROMWithName` adds is what the path names, and the path has no NUL. -/
theorem findROMWithName_new {roms : RomTable} {name key : List Char} {rom : N64ROM}
    (h : findROMWithName sha256 disk romdir roms name key = some rom) (hnew : roms key ≠ some rom) :
    rom.path = romPath romdir name ∧ nul ∉ romPath romdir name := by
  unfold findROMWithName at h
  split_ifs at h with hexists
  · cases hrom' : newN64ROM sha256 disk (romPath romdir name) with
    | error e => exact absurd (by simpa only [hrom'] using h) hnew
    | ok rom' =>
      simp only [hrom', RomTable.put_apply] at h
      split_ifs at h with hkey
      · obtain rfl := Option.some.inj h
        refine ⟨newN64ROM_path hrom', fun hnul => ?_⟩
        unfold fileExists at hexists
        split at hexists <;> simp [hnul] at hexists
      · exact absurd h hnew
  · exact absurd h hnew

theorem registerRoms_new {roms : RomTable} {s : N64Server} {key : List Char} {rom : N64ROM}
    (h : registerRoms sha256 disk romdir roms s key = some rom) (hnew : roms key ≠ some rom) :
    rom.path = romPath romdir s.romName ∧ nul ∉ romPath romdir s.romName := by
  unfold registerRoms at h
  cases hs : roms s.romHashStr with
  | some _ => exact absurd (by rwa [hs] at h) hnew
  | none =>
    rw [hs] at h
    exact findROMWithName_new h hnew

/-- The first bytes of a ROM are one already. -/
def shortROM : List UInt8 := [0x80, 0x37, 0x12, 0x40]

/-- If there is a ROM under the path, an empty table gets it. -/
theorem registerRoms_found (s : N64Server) (hnul : nul ∉ romPath romdir s.romName)
    (hfile : disk (romPath romdir s.romName) = .file shortROM) :
    registerRoms sha256 disk romdir (fun _ => none) s (bytesToHash (sha256 shortROM)) =
      some ⟨romPath romdir s.romName, sha256 shortROM, 4⟩ := by
  have hexists : fileExists disk (romPath romdir s.romName) = true := by
    simp [fileExists, hfile, hnul]
  have hnew : newN64ROM sha256 disk (romPath romdir s.romName) =
      .ok ⟨romPath romdir s.romName, sha256 shortROM, 4⟩ := by
    rw [newN64ROM, hfile]
    rfl
  simp only [registerRoms, findROMWithName, hexists, hnew, if_true, RomTable.put_apply]

/-- **A server brings in only ROMs of the folder exactly if its ROM name stays in the folder** (or is
not the name of a file at all). -/
theorem addsInside_iff (fs : FileNames) (s : N64Server) :
    AddsInside fs sha256 romdir s ↔
      nul ∈ romPath romdir s.romName ∨ StaysIn fs (romdir ++ ['/']) s.romName := by
  have hinside := staysIn_iff fs romdir fs.isSep_slash s.romName
  constructor
  · intro h
    by_contra hno
    obtain ⟨hnul, hout⟩ := not_or.mp hno
    -- a disk with this one file
    obtain ⟨disk, hfile⟩ : ∃ disk : List Char → DiskFile,
        disk (romPath romdir s.romName) = .file shortROM :=
      ⟨fun path => if path = romPath romdir s.romName then .file shortROM else .missing, if_pos rfl⟩
    have hfound := @registerRoms_found sha256 disk romdir s hnul hfile
    exact hout (hinside.mp (h _ _ _ _ hfound (by simp)))
  · rintro h disk roms key rom hrom hnew
    obtain ⟨hpath, hnul⟩ := registerRoms_new hrom hnew
    rw [hpath]
    exact hinside.mpr (h.resolve_left hnul)

end Confined

end N64NetLib.Master.RomFolder
