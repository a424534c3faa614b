import N64NetLib.Lib.Run
import N64NetLib.Client.FileDownload
import N64NetLib.Client.RomPath

/-! # Downloads and cancels in the browser

The window of the browser posts messages to the thread `ServerFinderThread`: a path and a hash for a
download, and that it is cancelled. `HandleMainInput` takes them, both in the loop of the thread, where
it sets `filedl_path`, and in the loop of `FileDownload`, where it sets this function's copy of it. A
`DOWNLOAD` packet starts `FileDownload` with whatever path there is.

A path is never empty (`getRompath_ne_nil`), so a path variable is a request or nothing. If a transfer is
only started for the path that was requested last and not cancelled, and no new path arrives during one,
each file has the bytes that were requested for its path, and none is written after a cancel
(`together_of_current`). -/

namespace N64NetLib.Client.Downloads

open N64NetLib.Lib.Path N64NetLib.Lib.Run N64NetLib.Client.FileDownload N64NetLib.Client.RomPath

/-- What `RequestDownload` is called for: the path of a ROM name, and the ROM with a hash. -/
structure Request where
  romname : List Char
  romhash : List UInt8
deriving DecidableEq

/-- `filepath`. -/
def Request.filepath (fs : FileNames) (r : Request) : List Char := getRompath fs r.romname

theorem getRompath_ne_nil (fs : FileNames) (r : Request) : r.filepath fs ≠ [] := by
  simp [Request.filepath, getRompath, romfolder]

/-- `InputMessage`. A `TEVENT_FILENAME` has the path of its request, a `TEVENT_DODL` the hash of one. -/
inductive InputMessage
  | doList
  | doDl (romhash : List UInt8)
  | cancelDl
  | filename (r : Request)
deriving DecidableEq

/-- What a message does to the path. -/
def InputMessage.setPath (filedlPath : Option Request) : InputMessage → Option Request
  | .doList | .doDl _ => filedlPath
  | .cancelDl => none
  | .filename r => some r

/-- The hash for which a message makes the thread send a `DOWNLOAD`, if it has a handler. -/
def InputMessage.hash : InputMessage → Option (List UInt8)
  | .doDl romhash => some romhash
  | .doList | .cancelDl | .filename _ => none

/-- `HandleMainInput`, with the messages that are there: the path, and the hashes it asks for. -/
def handleMainInput (handler : Bool) (filedlPath : Option Request) (input : List InputMessage) :
    Option Request × List (List UInt8) :=
  (input.foldl InputMessage.setPath filedlPath, if handler then input.filterMap InputMessage.hash else [])

/-- Whether the last of the messages about the path, if there is one, and otherwise `cancelled`, was a
`TEVENT_CANCELDL`. -/
def cancelledAfter (cancelled : Bool) (input : List InputMessage) : Bool :=
  input.foldl (fun c msg => match msg with
    | .doList | .doDl _ => c
    | .cancelDl => true
    | .filename _ => false) cancelled

/-- A ROM of the master, whose size is an `int`. -/
structure RomFile where
  bytes : List UInt8
  length_lt : bytes.length < 2 ^ 31

/-- The window: nothing is asked for, a path is posted and its hash is next, or the dialog is shown. -/
inductive Window
  | idle
  | posting (romhash : List UInt8)
  | shown

/-- The thread: in its loop, in the loop of `FileDownload`, where `incoming` is what has yet to be read
from the socket, or ended by a write to a file that could not be opened. -/
inductive Stage
  | looping
  | downloading (filepath : Request) (progress : Progress) (incoming : List UInt8)
  | crashed

/-- A file that was written, and whether a cancel was the last that was taken. -/
structure Written where
  filepath : Request
  filedata : List UInt8
  cancelled : Bool
deriving DecidableEq

/-- The window, the messages that wait, and the thread. `asked` has the hashes of the `DOWNLOAD`s that
went out, `cancelled` and `written` are there for the statement only. -/
structure State where
  window : Window
  input : List InputMessage
  filedlPath : Option Request
  stage : Stage
  asked : List (List UInt8)
  cancelled : Bool
  written : List Written

def init : State := ⟨.idle, [], none, .looping, [], false, []⟩

/-- What comes with a `DOWNLOAD`: the chunk size, and the ROM that the socket delivers. -/
structure Reply where
  chunksize : BitVec 32
  served : List UInt8

/-- The steps of the window (`request` to `refresh`) and of the thread. `download` handles an answer to
the request for a hash, which is empty if there is no `Reply`; `iterate n` goes once through the loop of
`FileDownload` and reads `n` bytes. -/
inductive Label
  | request (r : Request)
  | requestDl
  | giveUp
  | finish
  | refresh
  | input
  | download (romhash : List UInt8) (reply : Option Reply)
  | iterate (n : ℕ)
  | leave

def State.post (m : State) (msg : InputMessage) (window : Window) : State :=
  { m with input := m.input ++ [msg], window := window }

/-- The messages are taken. -/
def State.taken (m : State) : State :=
  { m with input := [], cancelled := cancelledAfter m.cancelled m.input }

section Step
variable (roms : List UInt8 → RomFile)

/-- The beginning of `FileDownload`. -/
def fileDownload (m : State) (romhash : List UInt8) (reply : Option Reply) : State :=
  match m.filedlPath, reply with
  | some r, some reply =>
    let filesize := BitVec.ofNat 32 (roms romhash).bytes.length
    { m with stage := .downloading r ⟨filesize, reply.chunksize, []⟩ (roms reply.served).bytes }
  | _, _ => m

/-- Once through the loop of `FileDownload`. If it is left for a cancel and all has been read, the file
is opened at the empty path, which fails, and written to. -/
def iterate (m : State) (filepath : Request) (p : Progress) (incoming : List UInt8) (n : ℕ) : State :=
  let p' := { p with filedata := p.filedata ++ incoming.take n }
  match (handleMainInput false (some filepath) m.input).1 with
  | some filepath => { m.taken with stage := .downloading filepath p' (incoming.drop n) }
  | none => { m.taken with stage := if p'.fileread = p'.filesize then .crashed else .looping }

/-- The end of `FileDownload`. -/
def leave (m : State) (filepath : Request) (p : Progress) : State :=
  { m with
    stage := .looping
    written := m.written ++ (p.saved.map fun data => ⟨filepath, data, m.cancelled⟩).toList }

/-- One step of the window or of the thread. -/
def step (m : State) : Label → Option State
  | .request r =>
    match m.window with
    | .idle => some (m.post (.filename r) (.posting r.romhash))
    | _ => none
  | .requestDl =>
    match m.window with
    | .posting romhash => some (m.post (.doDl romhash) .shown)
    | _ => none
  | .giveUp =>
    match m.window with
    | .shown => some (m.post .cancelDl .idle)
    | _ => none
  | .finish =>
    match m.window with
    | .shown => some { m with window := .idle }
    | _ => none
  | .refresh =>
    match m.window, m.stage with
    | .idle, .looping => some { m.post .doList .idle with filedlPath := none, asked := [] }
    | _, _ => none
  | .input =>
    match m.stage with
    | .looping =>
      let r := handleMainInput true m.filedlPath m.input
      some { m.taken with filedlPath := r.1, asked := m.asked ++ r.2 }
    | _ => none
  | .download romhash reply =>
    match m.stage with
    | .looping => if romhash ∈ m.asked then some (fileDownload roms m romhash reply) else none
    | _ => none
  | .iterate n =>
    match m.stage with
    | .downloading filepath p incoming =>
      if p.Reading ∧ n ≤ p.readsize.toNat ∧ n ≤ incoming.length then
        some (iterate m filepath p incoming n)
      else none
    | _ => none
  | .leave =>
    match m.stage with
    | .downloading filepath p _ => if p.Reading then none else some (leave m filepath p)
    | _ => none

/-- **Path and content stay together**: each file has the bytes of the ROM that was requested with its
path, and was not written after a cancel. -/
def Together (m : State) : Prop :=
  ∀ w ∈ m.written, w.filedata = (roms w.filepath.romhash).bytes ∧ w.cancelled = false

end Step

/-- What a step needs: a transfer that starts is of the ROM that was requested with the path, and the path
is not cancelled; and the messages that are taken during a transfer leave no new path. -/
def Current (m : State) : Label → Prop
  | .download romhash (some reply) =>
    ∀ r, m.filedlPath = some r →
      m.cancelled = false ∧ romhash = r.romhash ∧ reply.served = r.romhash
  | .iterate _ => (handleMainInput false none m.input).1 = none
  | _ => True

instance decidableCurrent (m : State) : ∀ a, Decidable (Current m a)
  | .download romhash (some reply) =>
    decidableForallSome m.filedlPath fun r =>
      m.cancelled = false ∧ romhash = r.romhash ∧ reply.served = r.romhash
  | .iterate _ => inferInstanceAs (Decidable (_ = none))
  | .download _ none | .request _ | .requestDl | .giveUp | .finish | .refresh | .input | .leave =>
    isTrue trivial

/-- A transfer that goes on is of the ROM that was requested with its path, and is not cancelled. -/
def Sound (roms : List UInt8 → RomFile) (m : State) : Prop :=
  match m.stage with
  | .downloading filepath p incoming =>
    m.cancelled = false ∧ p.filesize.toNat = (roms filepath.romhash).bytes.length ∧
      p.filedata ++ incoming = (roms filepath.romhash).bytes
  | .looping | .crashed => True

variable {roms : List UInt8 → RomFile}

/-- The messages either leave the path alone, or leave a path that does not depend on the one before, and
none exactly if they cancelled it. -/
theorem handleMainInput_cases (input : List InputMessage) :
    (∀ handler p c, (handleMainInput handler p input).1 = p ∧ cancelledAfter c input = c) ∨
      ∃ r, ∀ handler p c, (handleMainInput handler p input).1 = r ∧
        cancelledAfter c input = r.isNone := by
  induction input using List.reverseRecOn with
  | nil => exact Or.inl fun _ _ _ => ⟨rfl, rfl⟩
  | append_singleton input msg ih =>
    simp only [handleMainInput, cancelledAfter, List.foldl_append, List.foldl_cons,
      List.foldl_nil] at ih ⊢
    cases msg with
    | doList => exact ih
    | doDl romhash => exact ih
    | cancelDl => exact Or.inr ⟨none, fun _ _ _ => ⟨rfl, rfl⟩⟩
    | filename r => exact Or.inr ⟨some r, fun _ _ _ => ⟨rfl, rfl⟩⟩

/-- Messages that leave no new path either leave the one there is, or cancel it. -/
theorem handleMainInput_current {input : List InputMessage} {r r' : Request}
    (hcurrent : (handleMainInput false none input).1 = none)
    (h : (handleMainInput false (some r) input).1 = some r') (c : Bool) :
    r' = r ∧ cancelledAfter c input = c := by
  rcases handleMainInput_cases input with hsame | ⟨o, ho⟩
  · obtain ⟨hpath, hcancelled⟩ := hsame false (some r) c
    exact ⟨Option.some.inj (h.symm.trans hpath), hcancelled⟩
  · rw [(ho false none c).1] at hcurrent
    rw [(ho false (some r) c).1, hcurrent] at h
    cases h

/-- What is saved is all of the ROM. -/
theorem saved_eq {p : Progress} {incoming data : List UInt8} {rom : RomFile}
    (hsize : p.filesize.toNat = rom.bytes.length) (hbytes : p.filedata ++ incoming = rom.bytes)
    (h : p.saved = some data) : data = rom.bytes := by
  unfold Progress.saved at h
  split_ifs at h with hread
  obtain rfl := Option.some.inj h
  have hlen := congrArg List.length hbytes
  rw [List.length_append] at hlen
  have hrom := rom.length_lt
  have hfile := congrArg BitVec.toNat hread
  rw [Progress.fileread, BitVec.toNat_ofNat, hsize, Nat.mod_eq_of_lt (by omega)] at hfile
  have hnil : incoming = [] := List.length_eq_zero_iff.mp (by omega)
  rw [← hbytes, hnil, List.append_nil]

/-! ### One step -/

theorem sound_of_looping {m : State} (h : m.stage = .looping) : Sound roms m := by
  rw [Sound, h]
  trivial

/-- A step that leaves the transfer and the cancel alone. -/
theorem Sound.congr {m m' : State} (h : Sound roms m) (hstage : m'.stage = m.stage)
    (hcancelled : m'.cancelled = m.cancelled) : Sound roms m' := by
  rwa [Sound, hstage, hcancelled]

theorem sound_fileDownload {m : State} {romhash : List UInt8} {reply : Option Reply}
    (hlooping : m.stage = .looping) (hcurrent : Current m (.download romhash reply)) :
    Sound roms (fileDownload roms m romhash reply) := by
  unfold fileDownload
  split
  · next r reply hpath =>
    obtain ⟨hcancelled, rfl, hserved⟩ := hcurrent r hpath
    refine ⟨hcancelled, ?_, ?_⟩
    · have hrom := (roms r.romhash).length_lt
      exact Nat.mod_eq_of_lt (hrom.trans (by decide))
    · simp [hserved]
  · exact sound_of_looping hlooping

theorem sound_iterate {m : State} {filepath : Request} {p : Progress} {incoming : List UInt8} {n : ℕ}
    (h : Sound roms m) (hstage : m.stage = .downloading filepath p incoming)
    (hcurrent : Current m (.iterate n)) : Sound roms (iterate m filepath p incoming n) := by
  rw [Sound, hstage] at h
  obtain ⟨hcancelled, hsize, hbytes⟩ := h
  unfold iterate
  split
  · next r hpath =>
    obtain ⟨rfl, hsame⟩ := handleMainInput_current hcurrent hpath m.cancelled
    exact ⟨hsame.trans hcancelled, hsize, by simpa using hbytes⟩
  · simp only [Sound]
    split_ifs <;> trivial

/-- **One step** that meets the condition keeps a transfer sound. -/
theorem sound_step {m m' : State} {a : Label} (h : Sound roms m) (hcurrent : Current m a)
    (hstep : step roms m a = some m') : Sound roms m' := by
  cases a with
  | request _ | requestDl | giveUp | finish | refresh =>
    simp only [step] at hstep
    split at hstep <;> cases hstep
    exact h.congr rfl rfl
  | input =>
    simp only [step] at hstep
    split at hstep <;> cases hstep
    next hlooping => exact sound_of_looping hlooping
  | download romhash reply =>
    simp only [step] at hstep
    split at hstep
    · next hlooping =>
      split_ifs at hstep
      cases hstep
      exact sound_fileDownload hlooping hcurrent
    · cases hstep
  | iterate n =>
    simp only [step] at hstep
    split at hstep
    · next hstage =>
      split_ifs at hstep
      cases hstep
      exact sound_iterate h hstage hcurrent
    · cases hstep
  | leave =>
    simp only [step] at hstep
    split at hstep
    · split_ifs at hstep
      cases hstep
      exact sound_of_looping rfl
    · cases hstep

theorem fileDownload_written (m : State) (romhash : List UInt8) (reply : Option Reply) :
    (fileDownload roms m romhash reply).written = m.written := by
  unfold fileDownload
  split <;> rfl

theorem iterate_written (m : State) (filepath : Request) (p : Progress) (incoming : List UInt8)
    (n : ℕ) : (iterate m filepath p incoming n).written = m.written := by
  unfold iterate
  split <;> rfl

/-- Files are written only at the end of a transfer. -/
theorem step_written {m m' : State} {a : Label} (hstep : step roms m a = some m') :
    m'.written = m.written ∨ ∃ filepath p incoming, m.stage = .downloading filepath p incoming ∧
      m' = leave m filepath p := by
  cases a with
  | leave =>
    simp only [step] at hstep
    split at hstep
    · next filepath p incoming hstage =>
      split_ifs at hstep
      exact Or.inr ⟨filepath, p, incoming, hstage, (Option.some.inj hstep).symm⟩
    · cases hstep
  | iterate n =>
    simp only [step] at hstep
    split at hstep
    · split_ifs at hstep
      obtain rfl := Option.some.inj hstep
      exact Or.inl (iterate_written _ _ _ _ _)
    · cases hstep
  | download romhash reply =>
    simp only [step] at hstep
    split at hstep
    · split_ifs at hstep
      obtain rfl := Option.some.inj hstep
      exact Or.inl (fileDownload_written _ _ _)
    · cases hstep
  | request _ | requestDl | giveUp | finish | refresh | input =>
    simp only [step] at hstep
    split at hstep <;> cases hstep
    exact Or.inl rfl

theorem together_step {m m' : State} {a : Label} (hsound : Sound roms m) (h : Together roms m)
    (hstep : step roms m a = some m') : Together roms m' := by
  rcases step_written hstep with hsame | ⟨filepath, p, incoming, hstage, rfl⟩
  · rwa [Together, hsame]
  · rw [Sound, hstage] at hsound
    obtain ⟨hcancelled, hsize, hbytes⟩ := hsound
    intro w hw
    rcases List.mem_append.mp hw with hw | hw
    · exact h w hw
    · obtain ⟨data, hdata, rfl⟩ := Option.map_eq_some_iff.mp (Option.mem_toList.mp hw)
      exact ⟨saved_eq hsize hbytes hdata, hcancelled⟩

/-! ### All runs -/

/-- **Path and content stay together in every run whose steps meet the condition.** -/
theorem together_of_current (roms : List UInt8 → RomFile) {l : List Label}
    (h : Along (step roms) Current init l) : Always (step roms) (Together roms) init l :=
  always_of_along (J := Sound roms) (fun _ _ _ hJ hC hs => sound_step hJ hC hs)
    (fun _ _ _ hJ hI _ hs => together_step hJ hI hs) trivial (fun _ hw => by cases hw) h

/-! ### Runs -/

/-- The master has for every hash a ROM that ends in the hash. -/
def sampleRoms (romhash : List UInt8) : RomFile where
  bytes := [0x80, 0x37, 0x12, 0x40] ++ romhash.take 32
  length_lt := by
    simp only [List.length_append, List.length_take, List.length_cons, List.length_nil]
    omega

def requestA : Request := ⟨['a'], [1]⟩

def requestB : Request := ⟨['b'], [2]⟩

/-- One download and nothing else. -/
def plainRun : List Label :=
  [.request requestA, .requestDl, .input, .download [1] (some ⟨2048, [1]⟩), .iterate 5, .leave]

theorem together_plainRun : Always (step sampleRoms) (Together sampleRoms) init plainRun :=
  together_of_current sampleRoms (by decide)

/-- A download is cancelled and another requested, both before the thread has read what it can. -/
def swappedRun : List Label :=
  [.request requestA, .requestDl, .input, .download [1] (some ⟨2048, [1]⟩), .giveUp,
    .request requestB, .requestDl, .iterate 5, .leave]

/-- A download is cancelled, and then a second answer to the request arrives. -/
def lateRun : List Label :=
  [.request requestA, .requestDl, .input, .download [1] (some ⟨2048, [1]⟩), .giveUp, .iterate 0,
    .download [1] (some ⟨2048, [1]⟩), .iterate 5, .leave]

theorem written_swappedRun : ∃ m, run (step sampleRoms) init swappedRun = some m ∧
    m.written = [⟨requestB, [0x80, 0x37, 0x12, 0x40, 1], false⟩] := ⟨_, rfl, by decide⟩

theorem written_lateRun : ∃ m, run (step sampleRoms) init lateRun = some m ∧
    m.written = [⟨requestA, [0x80, 0x37, 0x12, 0x40, 1], true⟩] := ⟨_, rfl, by decide⟩

/-- One file has the bytes of another ROM, the other is written after a cancel. -/
theorem not_together_runs :
    ¬ Always (step sampleRoms) (Together sampleRoms) init swappedRun ∧
      ¬ Always (step sampleRoms) (Together sampleRoms) init lateRun := by
  constructor
  · intro h
    obtain ⟨m, hrun, hwritten⟩ := written_swappedRun
    have hlast := h.last hrun ⟨requestB, [0x80, 0x37, 0x12, 0x40, 1], false⟩ (by rw [hwritten]; simp)
    exact absurd hlast.1 (by decide)
  · intro h
    obtain ⟨m, hrun, hwritten⟩ := written_lateRun
    have hlast := h.last hrun ⟨requestA, [0x80, 0x37, 0x12, 0x40, 1], true⟩ (by rw [hwritten]; simp)
    exact absurd hlast.2 (by decide)

end N64NetLib.Client.Downloads
