import N64NetLib.Lib.Run
import N64NetLib.Client.FileDownload

/-! # Is a downloaded ROM the whole ROM?

One thread of the master and one client, from the reply to a `DOWNLOAD` on: the thread writes the file in
chunks and closes the connection, and the client reads what has come, in pieces of any size up to
`readsize`, until it has as many bytes as the reply said.

The number of chunks is the size in single precision, divided and rounded up. Rounding the size down
can cost the last chunk, if there are only a few bytes in it: then the file is not written whole, and the
client waits for ever. `whole_iff` says for which sizes this happens. -/

namespace N64NetLib.Master.Transfer

open N64NetLib.Lib.Run N64NetLib.Master.Rom N64NetLib.Client.FileDownload

/-- The thread has written `chunk` chunks and perhaps closed the connection; `incoming` has come to the
client, which has read `progress` and perhaps left its loop. -/
structure State where
  chunk : ℕ
  closed : Bool
  incoming : List UInt8
  progress : Progress
  ended : Bool

/-- The connection is open. The reply says the size of the file and of the chunks. -/
def init (file : Transfer) : State :=
  ⟨0, false, [], ⟨BitVec.ofNat 32 file.size, BitVec.ofNat 32 fileChunkSize, []⟩, false⟩

/-- The thread writes a chunk or, behind the last, closes the connection; `Read` gets `n` bytes; the
client leaves its loop. -/
inductive Label
  | write
  | read (n : ℕ)
  | leave

/-- One step of the thread or of the client. -/
def step (file : Transfer) (m : State) : Label → Option State
  | .write =>
    if m.closed then none
    else if m.chunk < chunks file.size then
      some { m with chunk := m.chunk + 1, incoming := m.incoming ++ file.chunk m.chunk }
    else some { m with closed := true }
  | .read n =>
    if m.ended = false ∧ m.progress.Reading ∧ 0 < n ∧ n ≤ m.incoming.length ∧
        n ≤ m.progress.readsize.toNat then
      some
        { m with
          incoming := m.incoming.drop n
          progress := { m.progress with filedata := m.progress.filedata ++ m.incoming.take n } }
    else none
  | .leave => if m.ended = false ∧ ¬ m.progress.Reading then some { m with ended := true } else none

/-- **The whole file arrives**: however the stream is split, the transfer comes to an end; when the
thread closes the connection it has written the file, once and in order; and at the end the client has
left its loop with all bytes and saved the file. -/
structure Whole (file : Transfer) : Prop where
  bounded : ∃ n, ∀ l m, run (step file) (init file) l = some m → l.length ≤ n
  written : ∀ l m, run (step file) (init file) l = some m → m.closed = true →
    m.progress.filedata ++ m.incoming = file.bytes
  saved : ∀ l m, run (step file) (init file) l = some m → Halted (step file) m →
    m.ended = true ∧ m.progress.fileread = m.progress.filesize ∧ m.progress.saved = some file.bytes

/-- What the size must be: there is no last chunk, or one with more bytes than half of what single
precision tells apart at this size. -/
def Covered (size : ℕ) : Prop :=
  size % fileChunkSize = 0 ∨ 2 ^ (size.log2 - 23) < 2 * (size % fileChunkSize)

/-! ### The number of chunks -/

/-- **The chunks cover the file** exactly at these sizes. -/
theorem covered_iff {size : ℕ} (hsize : size < 2 ^ 31) :
    size ≤ fileChunkSize * chunks size ↔ Covered size := by
  have hlog : size.log2 - 23 ≤ 7 := by
    rcases Nat.eq_zero_or_pos size with rfl | hpos
    · decide
    · have := (Nat.log2_lt (by omega)).mpr hsize
      omega
  unfold Covered chunks toFloat fileChunkSize
  generalize size.log2 - 23 = e at hlog
  dsimp only
  interval_cases e <;> simp only [Nat.reducePow] <;> split_ifs <;> omega

/-! ### One step -/

/-- **The invariant.** What the client has read and what has come are the chunks written. -/
structure Inv (file : Transfer) (m : State) : Prop where
  filesize : m.progress.filesize = BitVec.ofNat 32 file.size
  chunksize : m.progress.chunksize = BitVec.ofNat 32 fileChunkSize
  bytes : m.progress.filedata ++ m.incoming = file.upTo m.chunk
  chunk_le : m.chunk ≤ chunks file.size
  closed : m.closed = true → m.chunk = chunks file.size
  ended : m.ended = true → ¬ m.progress.Reading

theorem inv_init (file : Transfer) : Inv file (init file) :=
  ⟨rfl, rfl, by simp [init], Nat.zero_le _, by simp [init], by simp [init]⟩

theorem inv_step {file : Transfer} {m m' : State} {a : Label} (h : Inv file m)
    (hstep : step file m a = some m') : Inv file m' := by
  cases a with
  | write =>
    simp only [step] at hstep
    split_ifs at hstep with hclosed hlt
    · obtain rfl := Option.some.inj hstep
      refine ⟨h.filesize, h.chunksize, ?_, hlt, fun hc => absurd hc hclosed, h.ended⟩
      rw [← List.append_assoc, h.bytes, file.upTo_succ]
    · obtain rfl := Option.some.inj hstep
      have hle := h.chunk_le
      exact ⟨h.filesize, h.chunksize, h.bytes, hle, fun _ => by dsimp only; omega, h.ended⟩
  | read n =>
    simp only [step] at hstep
    split_ifs at hstep with hread
    obtain rfl := Option.some.inj hstep
    refine ⟨h.filesize, h.chunksize, ?_, h.chunk_le, h.closed, fun he => ?_⟩
    · rw [List.append_assoc, List.take_append_drop, h.bytes]
    · rw [hread.1] at he
      cases he
  | leave =>
    simp only [step] at hstep
    split_ifs at hstep with hleave
    obtain rfl := Option.some.inj hstep
    exact ⟨h.filesize, h.chunksize, h.bytes, h.chunk_le, h.closed, fun _ => hleave.2⟩

/-- What the client has read is a beginning of the file. -/
theorem Inv.prefix {file : Transfer} {m : State} (h : Inv file m) :
    m.progress.filedata <+: file.bytes :=
  (List.prefix_append _ _).trans (h.bytes ▸ file.upTo_prefix_bytes m.chunk)

/-- How many steps are left at most. -/
def rank (file : Transfer) (m : State) : ℕ :=
  (file.bytes.length - m.progress.filedata.length) + (chunks file.size - m.chunk) +
    (if m.closed then 0 else 1) + if m.ended then 0 else 1

theorem rank_step {file : Transfer} {m m' : State} {a : Label} (h : Inv file m)
    (hstep : step file m a = some m') : rank file m' < rank file m := by
  cases a with
  | write =>
    simp only [step] at hstep
    split_ifs at hstep with hclosed hlt
    · obtain rfl := Option.some.inj hstep
      simp only [rank]
      omega
    · obtain rfl := Option.some.inj hstep
      simp [rank, hclosed]
  | read n =>
    have hinv := inv_step h hstep
    simp only [step] at hstep
    split_ifs at hstep with hread
    obtain rfl := Option.some.inj hstep
    have hle := hinv.prefix.length_le
    obtain ⟨-, -, hpos, hlen, -⟩ := hread
    simp only [rank, List.length_append, List.length_take, min_eq_left hlen] at hle ⊢
    omega
  | leave =>
    simp only [step] at hstep
    split_ifs at hstep with hleave
    obtain rfl := Option.some.inj hstep
    simp [rank, hleave.1]

theorem run_inv {file : Transfer} {l : List Label} {m : State}
    (h : run (step file) (init file) l = some m) : Inv file m :=
  run_invariant (fun _ _ _ => inv_step) (inv_init file) h

theorem run_bounded (file : Transfer) :
    ∃ n, ∀ l m, run (step file) (init file) l = some m → l.length ≤ n :=
  ⟨rank file (init file), fun _ _ h =>
    length_le_rank (fun _ _ _ => inv_step) (fun _ _ _ => rank_step) (inv_init file) h⟩

/-! ### The end of a transfer -/

/-- As long as it goes on, `Read` is asked for something. -/
theorem Inv.readsize_pos {m : State} (h : Inv file m) (hreading : m.progress.Reading) :
    0 < m.progress.readsize.toNat := by
  have hlt : m.progress.fileread.toNat < m.progress.filesize.toNat := hreading
  rw [Progress.readsize, readsize, h.chunksize]
  split_ifs
  · rw [BitVec.toNat_sub]
    have hfilesize := m.progress.filesize.isLt
    omega
  · decide

section End

variable {file : Transfer} (hsize : file.size = file.bytes.length) (hint : file.size < 2 ^ 31)
include hsize hint

theorem sent_eq_iff : file.upTo (chunks file.size) = file.bytes ↔ Covered file.size := by
  rw [← covered_iff hint, Transfer.upTo, List.take_eq_self_iff, hsize]

/-- The loop of the client goes on as long as bytes are missing. -/
theorem Inv.reading_iff {m : State} (h : Inv file m) :
    m.progress.Reading ↔ m.progress.filedata.length < file.bytes.length := by
  have hle := h.prefix.length_le
  rw [Progress.Reading, BitVec.lt_def, h.filesize, Progress.fileread, BitVec.toNat_ofNat,
    BitVec.toNat_ofNat]
  omega

theorem Inv.end_eq {m : State} (h : Inv file m) (hcovered : Covered file.size)
    (hhalted : Halted (step file) m) :
    m.ended = true ∧ m.progress.filedata = file.bytes := by
  have hwrite := hhalted .write
  have hread := hhalted (.read 1)
  have hleave := hhalted .leave
  simp only [step] at hwrite hread hleave
  split_ifs at hwrite with hclosed
  have hall := h.bytes
  rw [h.closed hclosed, (sent_eq_iff hsize hint).mpr hcovered] at hall
  -- nothing is left to read
  have hdone : ¬ m.progress.Reading := by
    intro hreading
    have hlt := (h.reading_iff hsize hint).mp hreading
    have hpos := h.readsize_pos hreading
    have hlen := congrArg List.length hall
    rw [List.length_append] at hlen
    have hended : m.ended = false := by
      by_contra hne
      exact h.ended (by simpa using hne) hreading
    rw [if_pos ⟨hended, hreading, Nat.one_pos, by omega, hpos⟩] at hread
    cases hread
  refine ⟨?_, ?_⟩
  · by_contra hne
    rw [if_pos ⟨by simpa using hne, hdone⟩] at hleave
    cases hleave
  · have hge := mt (h.reading_iff hsize hint).mpr hdone
    exact h.prefix.eq_of_length_le (by omega)

theorem covered_of_whole (h : Whole file) : Covered file.size := by
  obtain ⟨n, hn⟩ := h.bounded
  obtain ⟨l, m, hrun, hhalted⟩ := exists_halted hn
  have hinv := run_inv hrun
  obtain ⟨-, -, hsaved⟩ := h.saved l m hrun hhalted
  have hdata : m.progress.filedata = file.bytes := by
    unfold Progress.saved at hsaved
    split_ifs at hsaved
    exact Option.some.inj hsaved
  rw [← covered_iff hint]
  have hle := congrArg List.length hinv.bytes
  have hchunk := Nat.mul_le_mul_left fileChunkSize hinv.chunk_le
  rw [List.length_append, hdata, Transfer.upTo, List.length_take] at hle
  omega

theorem whole_of_covered (hcovered : Covered file.size) : Whole file := by
  refine ⟨run_bounded file, fun l m hrun hclosed => ?_, fun l m hrun hhalted => ?_⟩
  · have hinv := run_inv hrun
    rw [hinv.bytes, hinv.closed hclosed, (sent_eq_iff hsize hint).mpr hcovered]
  · have hinv := run_inv hrun
    obtain ⟨hended, hdata⟩ := hinv.end_eq hsize hint hcovered hhalted
    have hfileread : m.progress.fileread = m.progress.filesize := by
      rw [hinv.filesize, Progress.fileread, hdata, hsize]
    exact ⟨hended, hfileread, by rw [Progress.saved, if_pos hfileread, hdata]⟩

/-- **When the whole ROM arrives**: exactly if the chunks cover it. -/
theorem whole_iff : Whole file ↔ Covered file.size :=
  ⟨covered_of_whole hsize hint, whole_of_covered hsize hint⟩

end End

theorem whole_threeBytes : Whole ⟨3, [0x80, 0x37, 0x12]⟩ :=
  (whole_iff rfl (by decide)).mpr (by unfold Covered; decide)

/-- A ROM of 16 MiB and one byte: the size is rounded down by one, and its last byte is not sent. -/
theorem not_whole_oneByteMore : ¬ Whole ⟨16777217, List.replicate 16777217 0⟩ := by
  intro h
  have hcovered := covered_of_whole (List.length_replicate.symm) (by decide) h
  unfold Covered at hcovered
  exact absurd hcovered (by decide)

end N64NetLib.Master.Transfer
