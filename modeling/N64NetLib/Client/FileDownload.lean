import N64NetLib.Lib.Run
import N64NetLib.Master.Rom

/-! # The loop of `FileDownload`

What the browser does with the bytes of a download: as long as it has fewer than it was told, it reads
what there is, up to `readsize`, and when it has them it saves the file. All numbers of the loop have 32
bits.

The buffer has `filesize` bytes. The comparison that should clamp `readsize` at the end of the buffer is
the wrong way round: it clamps where the chunk fits, and where the chunk does not fit it reads a whole
chunk. `withinBuffer_iff` says for which sizes no peer can make the loop write behind the buffer. -/

namespace N64NetLib.Client.FileDownload

open N64NetLib.Lib.Run

/-- `readsize`. -/
def readsize (fileread filesize chunksize : BitVec 32) : BitVec 32 :=
  if fileread + chunksize < filesize then filesize - fileread else chunksize

/-- The loop has read something already: where it writes next, and what is left to it. -/
structure Progress where
  filesize : BitVec 32
  chunksize : BitVec 32
  filedata : List UInt8
deriving DecidableEq

/-- `fileread`. -/
def Progress.fileread (p : Progress) : BitVec 32 := BitVec.ofNat 32 p.filedata.length

/-- The condition of the loop. -/
def Progress.Reading (p : Progress) : Prop := p.fileread < p.filesize

instance decidableReading (p : Progress) : Decidable p.Reading := inferInstanceAs (Decidable (_ < _))

/-- What `Read` is asked for. -/
def Progress.readsize (p : Progress) : BitVec 32 :=
  FileDownload.readsize p.fileread p.filesize p.chunksize

/-- What stands in the file if the loop has ended. -/
def Progress.saved (p : Progress) : Option (List UInt8) :=
  if p.fileread = p.filesize then some p.filedata else none

/-! ### The loop and its peer -/

/-- The loop: `writes` says where each `Read` wrote and how much, `left` that the loop was left. -/
structure Loop where
  progress : Progress
  writes : List (ℕ × ℕ)
  left : Bool
deriving DecidableEq

/-- The loop before its first round. -/
def start (filesize chunksize : BitVec 32) : Loop := ⟨⟨filesize, chunksize, []⟩, [], false⟩

/-- `Read` gets some bytes, or none; a round passes without data; the user cancels; the condition of
the loop fails. -/
inductive Label
  | read (bytes : List UInt8)
  | rest
  | cancel
  | leave

/-- A round of the loop, or its end. -/
def step (m : Loop) : Label → Option Loop
  | .read bytes =>
    if m.left = false ∧ m.progress.Reading ∧ bytes.length ≤ m.progress.readsize.toNat then
      some
        { m with
          progress := { m.progress with filedata := m.progress.filedata ++ bytes }
          writes := m.writes ++ [(m.progress.fileread.toNat, bytes.length)] }
    else none
  | .rest => if m.left = false ∧ m.progress.Reading then some m else none
  | .cancel => if m.left = false ∧ m.progress.Reading then some { m with left := true } else none
  | .leave => if m.left = false ∧ ¬ m.progress.Reading then some { m with left := true } else none

/-- **The loop stays within its buffer**: every write lies inside the `filesize` bytes, and the loop is
not left with more than these. -/
structure Within (m : Loop) : Prop where
  writes : ∀ w ∈ m.writes, w.1 + w.2 ≤ m.progress.filesize.toNat
  left : m.left = true → m.progress.fileread ≤ m.progress.filesize

/-- No chunk reaches over the end: the file is empty, or so long that the end of a chunk behind it
comes round to zero, or a chunk is one byte. -/
def Harmless (filesize chunksize : BitVec 32) : Prop :=
  filesize = 0 ∨ filesize = BitVec.allOnes 32 ∨ chunksize ≤ 1

/-- `readsize` on numbers, where the sum may come round. -/
theorem readsize_toNat {fileread filesize : BitVec 32} (chunksize : BitVec 32)
    (hread : fileread < filesize) :
    (readsize fileread filesize chunksize).toNat =
      if (fileread.toNat + chunksize.toNat) % 2 ^ 32 < filesize.toNat then
        filesize.toNat - fileread.toNat
      else chunksize.toNat := by
  have h1 := fileread.isLt
  have h2 := filesize.isLt
  have hsub : (filesize - fileread).toNat = filesize.toNat - fileread.toNat := by
    rw [BitVec.lt_def] at hread
    rw [BitVec.toNat_sub]
    omega
  have hclamp : fileread + chunksize < filesize ↔
      (fileread.toNat + chunksize.toNat) % 2 ^ 32 < filesize.toNat := by
    rw [BitVec.lt_def, BitVec.toNat_add]
  simp only [readsize, hclamp]
  split_ifs
  · exact hsub
  · rfl

/-- What the loop reads fits at these sizes, wherever it is. -/
theorem readsize_le {fileread filesize chunksize : BitVec 32} (h : Harmless filesize chunksize)
    (hread : fileread < filesize) :
    fileread.toNat + (readsize fileread filesize chunksize).toNat ≤ filesize.toNat := by
  have h1 := fileread.isLt
  have h3 := chunksize.isLt
  have hcases : filesize.toNat = 0 ∨ filesize.toNat = 2 ^ 32 - 1 ∨ chunksize.toNat ≤ 1 := by
    rcases h with rfl | rfl | h
    · exact Or.inl rfl
    · exact Or.inr (Or.inl rfl)
    · exact Or.inr (Or.inr h)
  rw [readsize_toNat chunksize hread]
  rw [BitVec.lt_def] at hread
  split_ifs <;> omega

/-- **The invariant.** Nothing has wrapped: what was read fits. -/
structure Inv (m : Loop) : Prop where
  within : Within m
  length : m.progress.filedata.length ≤ m.progress.filesize.toNat

theorem fileread_toNat {p : Progress} (h : p.filedata.length ≤ p.filesize.toNat) :
    p.fileread.toNat = p.filedata.length := by
  have hlt := p.filesize.isLt
  rw [Progress.fileread, BitVec.toNat_ofNat, Nat.mod_eq_of_lt (by omega)]

theorem Inv.leave {m : Loop} (h : Inv m) : Inv { m with left := true } := by
  refine ⟨⟨h.within.writes, fun _ => ?_⟩, h.length⟩
  rw [BitVec.le_def, fileread_toNat h.length]
  exact h.length

/-- The sizes that the reply announced stay. -/
theorem sizes_step {m m' : Loop} {a : Label} (hstep : step m a = some m') :
    m'.progress.filesize = m.progress.filesize ∧ m'.progress.chunksize = m.progress.chunksize := by
  cases a <;>
  · simp only [step] at hstep
    split_ifs at hstep
    obtain rfl := Option.some.inj hstep
    exact ⟨rfl, rfl⟩

theorem inv_step {m m' : Loop} {a : Label}
    (hsizes : Harmless m.progress.filesize m.progress.chunksize) (h : Inv m)
    (hstep : step m a = some m') : Inv m' := by
  cases a with
  | read bytes =>
    simp only [step] at hstep
    split_ifs at hstep with hread
    obtain rfl := Option.some.inj hstep
    obtain ⟨hleft, hreading, hbytes⟩ := hread
    have hfits := readsize_le hsizes hreading
    have hfileread := fileread_toNat h.length
    rw [Progress.readsize] at hbytes
    refine ⟨⟨fun w hw => ?_, fun hl => ?_⟩, ?_⟩
    · rcases List.mem_append.mp hw with hw | hw
      · exact h.within.writes w hw
      · obtain rfl := List.mem_singleton.mp hw
        dsimp only
        omega
    · rw [hleft] at hl
      cases hl
    · rw [List.length_append]
      dsimp only
      omega
  | rest =>
    simp only [step] at hstep
    split_ifs at hstep
    exact Option.some.inj hstep ▸ h
  | cancel =>
    simp only [step] at hstep
    split_ifs at hstep
    exact Option.some.inj hstep ▸ h.leave
  | leave =>
    simp only [step] at hstep
    split_ifs at hstep
    exact Option.some.inj hstep ▸ h.leave

/-- A peer that reaches over the end: it sends so much that one chunk more is one byte too long, and
then this chunk. -/
def overrun (filesize chunksize : BitVec 32) : List Label :=
  [.read (List.replicate (filesize.toNat + 1 - chunksize.toNat) 0),
    .read (List.replicate chunksize.toNat 0)]

theorem step_read {m : Loop} {bytes : List UInt8} (hleft : m.left = false)
    (hreading : m.progress.Reading) (hbytes : bytes.length ≤ m.progress.readsize.toNat) :
    step m (.read bytes) =
      some
        { m with
          progress := { m.progress with filedata := m.progress.filedata ++ bytes }
          writes := m.writes ++ [(m.progress.fileread.toNat, bytes.length)] } :=
  if_pos ⟨hleft, hreading, hbytes⟩

/-- The loop has read `n` bytes in one piece. -/
def afterOne (filesize chunksize : BitVec 32) (n : ℕ) : Loop :=
  ⟨⟨filesize, chunksize, List.replicate n 0⟩, [(0, n)], false⟩

theorem not_within_overrun {filesize chunksize : BitVec 32} (h : ¬ Harmless filesize chunksize) :
    ¬ Always step Within (start filesize chunksize) (overrun filesize chunksize) := by
  have h2 := filesize.isLt
  have h3 := chunksize.isLt
  simp only [Harmless, not_or, BitVec.le_def, ← BitVec.toNat_inj] at h
  obtain ⟨hzero, hall, hchunk⟩ := h
  have hzero' : filesize.toNat ≠ 0 := hzero
  have hall' : filesize.toNat ≠ 2 ^ 32 - 1 := hall
  have hchunk' : 1 < chunksize.toNat := by simpa using hchunk
  generalize hn : filesize.toNat + 1 - chunksize.toNat = n
  -- the first read is granted: at 0 the loop asks for the file or for a chunk
  have hzeroread : (start filesize chunksize).progress.fileread < filesize := by
    rw [BitVec.lt_def]
    show 0 < filesize.toNat
    omega
  have hfirst : step (start filesize chunksize) (.read (List.replicate n 0)) =
      some (afterOne filesize chunksize n) := by
    have hasked : n ≤ (start filesize chunksize).progress.readsize.toNat := by
      have hsize := readsize_toNat chunksize hzeroread
      have hstart : (start filesize chunksize).progress.fileread.toNat = 0 := rfl
      rw [Progress.readsize]
      show n ≤ (readsize _ filesize chunksize).toNat
      rw [hsize, hstart]
      split_ifs <;> omega
    rw [step_read rfl hzeroread (by rwa [List.length_replicate])]
    simp [start, afterOne, Progress.fileread]
  -- the second is a whole chunk
  have hread : (afterOne filesize chunksize n).progress.fileread.toNat = n := by
    rw [fileread_toNat]
    · exact List.length_replicate
    · show (List.replicate n (0 : UInt8)).length ≤ filesize.toNat
      rw [List.length_replicate]
      omega
  have hreading : (afterOne filesize chunksize n).progress.fileread < filesize := by
    rw [BitVec.lt_def, hread]
    omega
  have hasked : chunksize.toNat ≤ (afterOne filesize chunksize n).progress.readsize.toNat := by
    have hsize := readsize_toNat chunksize hreading
    rw [hread] at hsize
    show _ ≤ (readsize _ filesize chunksize).toNat
    rw [hsize]
    split_ifs <;> omega
  have hlen : (List.replicate chunksize.toNat (0 : UInt8)).length ≤
      (afterOne filesize chunksize n).progress.readsize.toNat := by rwa [List.length_replicate]
  have hsecond := step_read (m := afterOne filesize chunksize n) rfl hreading hlen
  intro halways
  rw [overrun, hn] at halways
  have hwithin : Within _ := (halways.2 _ hfirst).2 _ hsecond
  have hbad := hwithin.writes (n, chunksize.toNat) (by simp [hread])
  have hfits : n + chunksize.toNat ≤ filesize.toNat := hbad
  omega

/-- **When the buffer is enough**: exactly at these sizes every peer, user and timing leave the loop
within its buffer. -/
theorem withinBuffer_iff (filesize chunksize : BitVec 32) :
    (∀ l, Always step Within (start filesize chunksize) l) ↔ Harmless filesize chunksize := by
  constructor
  · intro hall
    by_contra h
    exact not_within_overrun h (hall (overrun filesize chunksize))
  · intro h l
    have hstart : Inv (start filesize chunksize) :=
      ⟨⟨fun w hw => by simp [start] at hw, fun hl => by simp [start] at hl⟩, Nat.zero_le _⟩
    refine always_of_invariant
      (J := fun m => Inv m ∧ Harmless m.progress.filesize m.progress.chunksize)
      (fun m hm => hm.1.within) (fun m a m' hm hstep => ?_) l ⟨hstart, h⟩
    obtain ⟨hfile, hchunk⟩ := sizes_step hstep
    refine ⟨inv_step hm.2 hm.1 hstep, ?_⟩
    rw [hfile, hchunk]
    exact hm.2

/-- A file of 10 bytes in chunks of 4: with 7 bytes read, the next read writes 4 more. -/
theorem not_withinBuffer_short : ¬ ∀ filesize chunksize l,
    Always step Within (start filesize chunksize) l := by
  intro hall
  have hwithin := (((hall 10 4 [.read (List.replicate 7 0), .read (List.replicate 4 0)]).2 _ rfl).2 _
    rfl).writes (7, 4) (by decide)
  revert hwithin
  decide

end N64NetLib.Client.FileDownload
