import N64NetLib.Client.ServerTrip
import N64NetLib.Master.RomFolder

/-! # The path of a ROM

`get_rompath` and `get_sanitizedromname`. The browser shows the ROM name of a server in a column, with
markup around it if the ROM is there or cannot be had; when the user picks the server, it takes the
markup off again and puts the name behind its folder. What comes out is the name without its `</span>`,
or nearly so (`getSanitizedromname_marked`), and the `..` of a name are still in it.

So neither the master nor the browser keeps a ROM name in its folder: it stays there exactly if its own
parts say so (`confined_iff`). And the name in the column is not always the one that is used:
`shownAsUsed_iff` says when it is. -/

namespace N64NetLib.Client.RomPath

open N64NetLib.Lib.BigEndian N64NetLib.Lib.Path N64NetLib.Lib.Memory N64NetLib.Lib.Memory.Load
open N64NetLib.Lib.Utf8
open N64NetLib.Packet N64NetLib.Packet.Basic N64NetLib.Master.Rom N64NetLib.Master.Servers
open N64NetLib.Master.RomFolder N64NetLib.Client.ServerInfo N64NetLib.Client.ServerTrip

/-- `</span>`. -/
def spanEnd : List Char := ['<', '/', 's', 'p', 'a', 'n', '>']

/-- `Replace("</span>", "")`. -/
def removeSpans : List Char → List Char
  | '<' :: '/' :: 's' :: 'p' :: 'a' :: 'n' :: '>' :: text => removeSpans text
  | c :: text => c :: removeSpans text
  | [] => []

/-- `AfterFirst`. -/
def afterFirst (c : Char) (text : List Char) : List Char := (text.dropWhile (· ≠ c)).tail

/-- `get_sanitizedromname`. -/
def getSanitizedromname (romname : List Char) : List Char :=
  if spanEnd <:+ romname then afterFirst '>' (removeSpans romname) else romname

/-- `romfolder`. -/
def romfolder : List Char := ['r', 'o', 'm', 's']

/-- `get_rompath`. -/
def getRompath (fs : FileNames) (romname : List Char) : List Char :=
  romfolder ++ fs.separator :: romname

/-- What the browser knows about the ROM when it adds a server: it has the ROM, or another one of the
name; if it has none, the master has it not, or has it. -/
inductive RomStatus
  | same
  | different
  | unavailable
  | downloadable

/-- The markup in front of a name. -/
def spanStart (color : List Char) : List Char :=
  ['<', 's', 'p', 'a', 'n', ' ', 'c', 'o', 'l', 'o', 'r', '=', '"', '#'] ++ color ++ ['"', '>']

/-- The colors `#008000`, `#FF8000` and `#800000`. -/
def RomStatus.color : RomStatus → Option (List Char)
  | .same => some ['0', '0', '8', '0', '0', '0']
  | .different => some ['F', 'F', '8', '0', '0', '0']
  | .unavailable => some ['8', '0', '0', '0', '0', '0']
  | .downloadable => none

/-- `COLUMN_ROM`. What is formatted is passed on as a C string. -/
def romColumn (status : RomStatus) (romname : List Char) : List Char :=
  match status.color with
  | some color => spanStart color ++ cString romname ++ spanEnd
  | none => romname

/-- `rompath`, as the file functions take it. -/
def rompath (fs : FileNames) (status : RomStatus) (romname : List Char) : List Char :=
  cString (getRompath fs (getSanitizedromname (romColumn status romname)))

/-! ### What should come of it -/

/-- **The path of the browser** lies in its folder, whatever it knows about the ROM. -/
def BrowsesInside (fs : FileNames) (romname : List Char) : Prop :=
  ∀ status, fs.locate (romfolder ++ [fs.separator]) <+: fs.locate (rompath fs status romname)

/-- **A ROM name stays in the folders**: of the master, and of every browser that reads of the server. -/
def Confined (master browser : FileNames) (sha256 : List UInt8 → List UInt8) (romdir : List Char)
    (s : N64Server) : Prop :=
  AddsInside master sha256 romdir s ∧
    ∀ hasrom junk found copied,
      parsePacketServer.run (inBuffer (s.toByteArray hasrom) junk) = .ok (found, copied) →
        BrowsesInside browser found.romname

/-- The ROM name that a browser reads of a server. -/
def nameRead (romname : List Char) : List Char :=
  wxStringOf ((utf8 romname).take (utf16Length romname))

/-! ### Markup -/

theorem removeSpans_spanEnd (text : List Char) : removeSpans (spanEnd ++ text) = removeSpans text := by
  rw [spanEnd]
  simp only [List.cons_append, List.nil_append]
  rw [removeSpans]

theorem removeSpans_cons {c : Char} {text : List Char} (h : ¬ spanEnd <+: c :: text) :
    removeSpans (c :: text) = c :: removeSpans text := by
  rw [removeSpans]
  rintro text' hc rfl
  exact h ⟨text', by rw [hc]; rfl⟩

/-- A `</span>` that begins in a text and ends behind it would begin in a `</span>` a second time. -/
theorem spanEnd_prefix_append {c : Char} {text : List Char} (h : spanEnd <+: c :: text ++ spanEnd) :
    spanEnd <+: c :: text := by
  obtain ⟨rest, hrest⟩ := h
  rcases List.append_eq_append_iff.mp hrest with ⟨a, ha, -⟩ | ⟨b, hb, htail⟩
  · exact ⟨a, ha.symm⟩
  · have hb' : b = [] := by
      by_contra hne
      obtain ⟨d, b, rfl⟩ := List.exists_cons_of_ne_nil hne
      obtain rfl : d = '<' := by
        have hhead := congrArg List.head? htail
        simpa [spanEnd] using hhead.symm
      rw [spanEnd, List.cons_append, List.cons.injEq] at hb
      have hmem : '<' ∈ ['/', 's', 'p', 'a', 'n', '>'] := hb.2 ▸ by simp
      exact absurd hmem (by decide)
    rw [hb', List.append_nil] at hb
    exact hb ▸ List.prefix_rfl

theorem not_spanEnd_prefix {c : Char} {text : List Char}
    (hno : ∀ rest, c = '<' → text = '/' :: 's' :: 'p' :: 'a' :: 'n' :: '>' :: rest → False) :
    ¬ spanEnd <+: c :: text := by
  rintro ⟨rest, hrest⟩
  obtain ⟨hc, htext⟩ := List.cons.inj hrest
  exact hno rest hc.symm htext.symm

theorem removeSpans_append_spanEnd (text : List Char) :
    removeSpans (text ++ spanEnd) = removeSpans text := by
  induction text using removeSpans.induct with
  | case1 text ih =>
    have hleft := removeSpans_spanEnd (text ++ spanEnd)
    have hright := removeSpans_spanEnd text
    exact hleft.trans (ih.trans hright.symm)
  | case2 c text hno ih =>
    have hstart := not_spanEnd_prefix hno
    have hend : ¬ spanEnd <+: c :: (text ++ spanEnd) := fun h => hstart (spanEnd_prefix_append h)
    rw [List.cons_append, removeSpans_cons hend, removeSpans_cons hstart, ih]
  | case3 => rfl

/-- The markup goes, and with it what looks like it. -/
theorem getSanitizedromname_marked (status : RomStatus) {color : List Char}
    (hcolor : status.color = some color) (romname : List Char) :
    getSanitizedromname (romColumn status romname) = removeSpans (cString romname) := by
  rw [getSanitizedromname, romColumn, hcolor, if_pos (List.suffix_append _ _),
    removeSpans_append_spanEnd]
  cases status <;> cases hcolor <;> simp [spanStart, removeSpans, afterFirst]

theorem removeSpans_sublist (text : List Char) : List.Sublist (removeSpans text) text := by
  induction text using removeSpans.induct with
  | case1 text ih =>
    have hmore : List.Sublist text (spanEnd ++ text) := List.sublist_append_right _ _
    exact (removeSpans_spanEnd text).symm ▸ ih.trans hmore
  | case2 c text hno ih =>
    rw [removeSpans]
    · exact ih.cons_cons c
    · exact hno
  | case3 => exact List.Sublist.refl []

/-! ### The browser -/

theorem nul_not_mem_cString (text : List Char) : nul ∉ cString text := by
  intro h
  simpa using List.mem_takeWhile_imp h

theorem cString_eq_self {text : List Char} (h : nul ∉ text) : cString text = text := by
  have happend := cString_append h []
  rwa [List.append_nil, show cString [] = [] from rfl, List.append_nil] at happend

theorem cString_getRompath (fs : FileNames) (romname : List Char) :
    cString (getRompath fs romname) = romfolder ++ fs.separator :: cString romname := by
  have hnul : nul ∉ romfolder ++ [fs.separator] := by
    have hsep : nul ≠ fs.separator := fun h => by
      have hfalse := fs.isSep_nul
      rw [h, fs.isSep_separator] at hfalse
      cases hfalse
    have hletters : nul ∉ romfolder := by decide
    simp [hletters, hsep]
  have happend := cString_append hnul romname
  simpa only [getRompath, List.append_assoc, List.singleton_append] using happend

/-- **The browser's path lies in its folder** exactly if the name does so both without its `</span>` and
as the browser takes it from the column when it has no markup there. -/
theorem browsesInside_iff (fs : FileNames) (romname : List Char) :
    BrowsesInside fs romname ↔
      StaysIn fs (romfolder ++ [fs.separator]) (removeSpans (cString romname)) ∧
        StaysIn fs (romfolder ++ [fs.separator]) (cString (getSanitizedromname romname)) := by
  have hpath : ∀ status, fs.locate (romfolder ++ [fs.separator]) <+: fs.locate (rompath fs status romname) ↔
      StaysIn fs (romfolder ++ [fs.separator])
        (cString (getSanitizedromname (romColumn status romname))) := by
    intro status
    rw [rompath, cString_getRompath]
    exact staysIn_iff fs romfolder fs.isSep_separator _
  have hmarked : ∀ status color, RomStatus.color status = some color →
      cString (getSanitizedromname (romColumn status romname)) = removeSpans (cString romname) := by
    intro status color hcolor
    rw [getSanitizedromname_marked status hcolor]
    exact cString_eq_self fun h =>
      nul_not_mem_cString romname ((removeSpans_sublist _).subset h)
  constructor
  · intro h
    refine ⟨?_, (hpath .downloadable).mp (h .downloadable)⟩
    have hsame := (hpath .same).mp (h .same)
    rwa [hmarked .same _ rfl] at hsame
  · rintro ⟨hspans, hplain⟩ status
    rw [hpath]
    cases hcolor : RomStatus.color status with
    | some color => rwa [hmarked status color hcolor]
    | none => rwa [romColumn, hcolor]

/-! ### Master and browser -/

/-- The ROM name stays in the folder of the master, unless it cannot be the name of a file, and what the
browser makes of it stays in its folder. -/
def Stays (master browser : FileNames) (romdir romname : List Char) : Prop :=
  (nul ∈ romPath romdir romname ∨ StaysIn master (romdir ++ ['/']) romname) ∧
    StaysIn browser (romfolder ++ [browser.separator]) (removeSpans (cString (nameRead romname))) ∧
      StaysIn browser (romfolder ++ [browser.separator])
        (cString (getSanitizedromname (nameRead romname)))

instance decidableStays (master browser : FileNames) (romdir romname : List Char) :
    Decidable (Stays master browser romdir romname) := instDecidableAnd

/-- **A ROM name stays in the folders exactly if its own parts do not lead out of them.** -/
theorem confined_iff (master browser : FileNames) (sha256 : List UInt8 → List UInt8)
    (romdir : List Char) {now : ℤ} {address : HostAddress} {data : List UInt8} {s : N64Server}
    (hdata : data.length ≤ packetMaxSize) (hs : registerServer now address data = .ok s) :
    Confined master browser sha256 romdir s ↔ Stays master browser romdir s.romName := by
  have hsize : (utf8 s.romName).length < 2 ^ 31 :=
    lt_of_le_of_lt (small_registerServer hs hdata).1 (by decide)
  rw [Confined, Stays, addsInside_iff, ← browsesInside_iff]
  refine and_congr_right fun _ => ⟨fun h => ?_, fun h hasrom junk found copied hrun => ?_⟩
  · obtain ⟨⟨found, copied⟩, hrun⟩ := exists_run_parsePacketServer
      (inBuffer (s.toByteArray false) fun _ => 0)
    rw [nameRead, ← romname_of_run hsize hrun]
    exact h _ _ _ _ hrun
  · rw [romname_of_run hsize hrun]
    exact h

/-- The working directories `/srv` and `/home`. -/
def srv : FileNames := unix [['s', 'r', 'v']]

def home : FileNames := unix [['h', 'o', 'm', 'e']]

/-- The bytes of a `REGISTER` with a ROM name. -/
def registerBytes (name : List UInt8) : List UInt8 :=
  be32 6460 ++ (be32 (BitVec.ofNat 32 name.length) ++
    (name ++ (be32 (BitVec.ofNat 32 ([] : List UInt8).length) ++ ([] ++ []))))

theorem nameRead_of_isAscii {romname : List Char} (h : IsAscii romname) : nameRead romname = romname :=
  (wxStringOf_take_eq_iff romname).mpr h

theorem confined_plainName : Confined srv home id romfolder
    ⟨sampleAddress, 6460, ([97, 46, 122, 54, 52] : List UInt8).map byteToChar, [], 0⟩ := by
  refine (confined_iff srv home id romfolder
    (by decide : (registerBytes [97, 46, 122, 54, 52]).length ≤ packetMaxSize)
    (registerServer_bytes 0 sampleAddress 6460 [97, 46, 122, 54, 52] [] (by decide)
      (by decide))).mpr ?_
  unfold Stays
  rw [nameRead_of_isAscii (by decide)]
  decide

/-- The name `../a`. -/
theorem not_confined_dotDot :
    registerServer 0 sampleAddress (registerBytes [46, 46, 47, 97]) =
        .ok ⟨sampleAddress, 6460, ['.', '.', '/', 'a'], [], 0⟩ ∧
      ¬ Confined srv home id romfolder ⟨sampleAddress, 6460, ['.', '.', '/', 'a'], [], 0⟩ ∧
        ¬ BrowsesInside home (nameRead ['.', '.', '/', 'a']) := by
  refine ⟨registerServer_bytes 0 sampleAddress 6460 [46, 46, 47, 97] [] (by decide) (by decide), ?_, ?_⟩
  · rw [Confined, addsInside_iff]
    exact fun h => absurd h.1 (by decide)
  · rw [nameRead_of_isAscii (by decide), browsesInside_iff]
    decide

/-! ### The name in the column -/

/-- **The name shown is the name used**: what the browser takes from the column is the ROM name. -/
def ShownAsUsed (status : RomStatus) (romname : List Char) : Prop :=
  getSanitizedromname (romColumn status romname) = romname

/-- The browser can tell the markup from the name: a name without markup does not end like one with
it, and a name with markup has no `</span>` of its own and no NUL. -/
def Unambiguous (status : RomStatus) (romname : List Char) : Prop :=
  match status.color with
  | none => ¬ spanEnd <:+ romname
  | some _ => ¬ spanEnd <:+: romname ∧ nul ∉ romname

theorem removeSpans_eq_self_iff (text : List Char) : removeSpans text = text ↔ ¬ spanEnd <:+: text := by
  induction text using removeSpans.induct with
  | case1 text ih =>
    have hsub := (removeSpans_sublist text).length_le
    have hgoes := congrArg List.length (removeSpans_spanEnd text)
    refine iff_of_false (fun h => ?_) (not_not.mpr ⟨[], text, rfl⟩)
    have hstays := congrArg List.length h
    have hlen : spanEnd.length = 7 := rfl
    simp only [spanEnd, List.cons_append, List.nil_append] at hgoes
    simp only [List.length_cons] at hstays
    omega
  | case2 c text hno ih =>
    have hstart := not_spanEnd_prefix hno
    rw [removeSpans_cons hstart, List.cons.injEq, ih, List.infix_cons_iff]
    simp [hstart]
  | case3 => simp [removeSpans, spanEnd]

theorem afterFirst_sublist (c : Char) (text : List Char) : List.Sublist (afterFirst c text) text :=
  (List.tail_sublist _).trans (List.dropWhile_sublist _)

theorem cString_eq_self_iff {text : List Char} : cString text = text ↔ nul ∉ text :=
  ⟨fun h hmem => nul_not_mem_cString text (h.symm ▸ hmem), cString_eq_self⟩

/-- A name that ends in `</span>` loses it. -/
theorem getSanitizedromname_eq_self_iff (romname : List Char) :
    getSanitizedromname romname = romname ↔ ¬ spanEnd <:+ romname := by
  unfold getSanitizedromname
  split_ifs with hend
  · refine iff_of_false (fun h => ?_) (not_not.mpr hend)
    have hkept := afterFirst_sublist '>' (removeSpans romname)
    rw [h] at hkept
    have hsame := (removeSpans_sublist romname).antisymm hkept
    exact (removeSpans_eq_self_iff romname).mp hsame hend.isInfix
  · exact iff_of_true rfl hend

/-- **When the name shown is the name used.** -/
theorem shownAsUsed_iff (status : RomStatus) (romname : List Char) :
    ShownAsUsed status romname ↔ Unambiguous status romname := by
  unfold ShownAsUsed Unambiguous
  cases hcolor : status.color with
  | none =>
    rw [romColumn, hcolor]
    exact getSanitizedromname_eq_self_iff romname
  | some color =>
    rw [getSanitizedromname_marked status hcolor]
    constructor
    · intro h
      have hkept := removeSpans_sublist (cString romname)
      rw [h] at hkept
      have hcut : cString romname = romname := (List.takeWhile_sublist _).antisymm hkept
      rw [hcut] at h
      exact ⟨(removeSpans_eq_self_iff romname).mp h, cString_eq_self_iff.mp hcut⟩
    · rintro ⟨hspans, hnul⟩
      rw [cString_eq_self hnul]
      exact (removeSpans_eq_self_iff romname).mpr hspans

/-- A server whose ROM is called `</span>`. -/
theorem not_shownAsUsed_spanEnd : ∃ payload found copied,
    parsePacketServer.run (inBuffer payload fun _ => 0) = .ok (found, copied) ∧
      ∀ status, ¬ ShownAsUsed status found.romname := by
  obtain ⟨⟨found, copied⟩, hrun⟩ := exists_run_parsePacketServer
    (inBuffer ((⟨sampleAddress, 6460, spanEnd, [], 0⟩ : N64Server).toByteArray false) fun _ => 0)
  refine ⟨_, found, copied, hrun, fun status h => ?_⟩
  have hname : found.romname = spanEnd := by
    rw [romname_of_run (by decide) hrun]
    exact nameRead_of_isAscii (by decide)
  rw [hname] at h
  cases status <;> exact absurd h (by unfold ShownAsUsed; decide)

end N64NetLib.Client.RomPath
