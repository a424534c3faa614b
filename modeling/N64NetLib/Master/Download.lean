import N64NetLib.Lib.Run
import N64NetLib.Client.FileDownload

/-! # Does a client download the ROM it asked for?

`DownloadROM` in the threads of the master and `FileDownload` in the clients, step by step. A thread
replies over UDP, then opens the one `ServerSocket(6464)` of the master, and sends its file to the first
client that `accept` gives it; a client connects at any time after it has its reply. All steps
interleave (`step`), and `accept` takes any of the connections that wait.

Nothing in the stream says whose it is. If each client connects when a thread that was asked for the same
hash is in `accept`, with nobody else waiting, and the chunks of this thread cover a file that has the size
in the reply (`Awaited`), each receives the ROM it asked for (`downloads_of_awaited`). That the file has the
hash is the doing of `DownloadROM`, which looks at it before it replies (`Asked`). -/

namespace N64NetLib.Master.Download

open N64NetLib.Lib.Run N64NetLib.Master.Rom

/-- Where a client is: it has sent its `DOWNLOAD`; it has the reply with the size, or the empty one; its
connection waits in the backlog, has been accepted, or is closed at the other end; it has left the loop
and saved the file; it has given up. -/
inductive ClientStage
  | idle
  | asked
  | answered
  | turnedDown
  | queued
  | accepted
  | cut
  | saved
  | cancelled
deriving DecidableEq

/-- A client: the hash it sent, the `filesize` of its reply, what has come over its connection and is
not read yet, and what it has read. -/
structure Client where
  hash : List UInt8
  stage : ClientStage
  filesize : BitVec 32
  incoming : List UInt8
  received : List UInt8

/-- `fileread`. -/
def Client.fileread (c : Client) : BitVec 32 := BitVec.ofNat 32 c.received.length

/-- `readsize`. -/
def Client.readsize (c : Client) : BitVec 32 :=
  Client.FileDownload.readsize c.fileread c.filesize (BitVec.ofNat 32 fileChunkSize)

/-- The client comes from one stage to another, if it is there. -/
def Client.move (old new : ClientStage) (c : Client) : Client :=
  if c.stage = old then { c with stage := new } else c

/-- The reply with the size comes, if the client still waits for it. -/
def Client.answer (size : ℕ) (c : Client) : Client :=
  if c.stage = .asked then { c with stage := .answered, filesize := BitVec.ofNat 32 size } else c

/-- Bytes come over an accepted connection; one that the client has closed takes none. -/
def Client.deliver (data : List UInt8) (c : Client) : Client :=
  if c.stage = .accepted then { c with incoming := c.incoming ++ data } else c

/-- Where a thread is in `DownloadROM`; while it has the socket, the socket says more. -/
inductive ThreadStage
  | idle
  | requested (hash : List UInt8)
  | replied (file : Transfer)
  | serving
  | done

/-- The thread that has the socket waits in `accept`, is about to write a chunk to a client, or about to
close the socket. -/
inductive SocketStage
  | accepting
  | sending (peer : ℕ) (i : ℕ)
  | closing

/-- The one `ServerSocket(6464)`: the thread that has it, the file this sends, and the clients whose
connections wait. -/
structure ServerSocket where
  thread : ℕ
  file : Transfer
  backlog : List ℕ
  stage : SocketStage

/-- The clients, for each the thread of the master that handles its request, the socket if it is open,
and the table of ROMs. -/
structure State where
  clients : ℕ → Client
  threads : ℕ → ThreadStage
  listener : Option ServerSocket
  roms : RomTable

def State.setClient (m : State) (j : ℕ) (c : Client) : State :=
  { m with clients := Function.update m.clients j c }

def State.setThread (m : State) (i : ℕ) (t : ThreadStage) : State :=
  { m with threads := Function.update m.threads i t }

/-- Nobody has asked for anything. -/
def init (roms : RomTable) : State :=
  ⟨fun _ => ⟨[], .idle, 0, [], []⟩, fun _ => .idle, none, roms⟩

/-- The steps of the clients (`request`, `connect`, `read`, `leave`, `cancel`) and of the threads. -/
inductive Label
  | request (j : ℕ) (hash : List UInt8)
  | reply (i : ℕ)
  | bind (i : ℕ)
  | connect (j : ℕ)
  | accept (j : ℕ)
  | write
  | breakOff
  | close
  | read (j : ℕ) (n : ℕ)
  | leave (j : ℕ)
  | cancel (j : ℕ)

section Step
variable (sha256 : List UInt8 → List UInt8) (disk : List Char → DiskFile)

/-- One step of a client or of a thread. -/
def step (m : State) : Label → Option State
  | .request j hash =>
    match (m.clients j).stage with
    | .idle =>
      some ((m.setClient j { m.clients j with hash := hash, stage := .asked }).setThread j
        (.requested hash))
    | _ => none
  | .reply i =>
    match m.threads i with
    | .requested hash =>
      let r := findROM sha256 disk m.roms hash
      let m' := { m with roms := r.1 }
      match r.2 with
      | .refused => some ((m'.setClient i ((m.clients i).move .asked .turnedDown)).setThread i .done)
      | .raised _ => some (m'.setThread i .done)
      | .found file =>
        some ((m'.setClient i ((m.clients i).answer file.size)).setThread i (.replied file))
    | _ => none
  | .bind i =>
    match m.threads i with
    | .replied file =>
      match m.listener with
      | none => some { m.setThread i .serving with listener := some ⟨i, file, [], .accepting⟩ }
      | some _ => some (m.setThread i .done)
    | _ => none
  | .connect j =>
    match (m.clients j).stage with
    | .answered =>
      match m.listener with
      | none => some (m.setClient j ((m.clients j).move .answered .cut))
      | some ss =>
        some { m.setClient j ((m.clients j).move .answered .queued) with
          listener := some { ss with backlog := ss.backlog ++ [j] } }
    | _ => none
  | .accept j =>
    match m.listener with
    | some ⟨i, file, backlog, .accepting⟩ =>
      if j ∈ backlog then
        some { m.setClient j ((m.clients j).move .queued .accepted) with
          listener := some ⟨i, file, backlog.erase j, .sending j 0⟩ }
      else none
    | _ => none
  | .write =>
    match m.listener with
    | some ⟨i, file, backlog, .sending j k⟩ =>
      if k < chunks file.size then
        some { m.setClient j ((m.clients j).deliver (file.chunk k)) with
          listener := some ⟨i, file, backlog, .sending j (k + 1)⟩ }
      else
        some { m.setClient j ((m.clients j).move .accepted .cut) with
          listener := some ⟨i, file, backlog, .closing⟩ }
    | _ => none
  | .breakOff =>
    match m.listener with
    | some ⟨i, file, backlog, .sending j k⟩ =>
      if k < chunks file.size ∧ ((m.clients j).stage = .saved ∨ (m.clients j).stage = .cancelled) then
        some { m with listener := some ⟨i, file, backlog, .closing⟩ }
      else none
    | _ => none
  | .close =>
    match m.listener with
    | some ⟨i, _, backlog, .closing⟩ =>
      some { m.setThread i .done with
        clients := fun j => if j ∈ backlog then (m.clients j).move .queued .cut else m.clients j
        listener := none }
    | _ => none
  | .read j n =>
    let c := m.clients j
    if (c.stage = .accepted ∨ c.stage = .cut) ∧ c.fileread < c.filesize ∧ n ≤ c.incoming.length ∧
        n ≤ c.readsize.toNat then
      some (m.setClient j
        { c with received := c.received ++ c.incoming.take n, incoming := c.incoming.drop n })
    else none
  | .leave j =>
    let c := m.clients j
    if (c.stage = .queued ∨ c.stage = .accepted ∨ c.stage = .cut) ∧ ¬ c.fileread < c.filesize then
      some (m.setClient j { c with stage := .saved })
    else none
  | .cancel j =>
    if (m.clients j).stage ∈ [.asked, .answered, .queued, .accepted, .cut] then
      some (m.setClient j { m.clients j with stage := .cancelled })
    else none

end Step

/-! ### What should come of it -/

section Right
variable (sha256 : List UInt8 → List UInt8)

/-- Nothing more can come: the file is saved, or the connection is closed at the other end and all that
came is read. -/
def Client.Over (c : Client) : Prop := c.stage = .saved ∨ (c.stage = .cut ∧ c.incoming = [])

/-- **Each client receives the ROM with the hash it sent**: what it has received is a beginning of it,
and all of it if nothing more can come. -/
def Right (m : State) : Prop :=
  ∀ j, let c := m.clients j
    (c.received = [] ∧ ¬ c.Over) ∨
      ∃ rom, sha256 rom = c.hash ∧ c.received <+: rom ∧ (c.Over → c.received = rom)

/-- What is sent has the hash that the client sent and the size that it was told. -/
def Suits (file : Transfer) (c : Client) : Prop :=
  sha256 file.sent = c.hash ∧ file.sent.length = c.filesize.toNat

/-- What is known of client `j` at its stage. -/
def Fine (listener : Option ServerSocket) (j : ℕ) (c : Client) : Prop :=
  match c.stage with
  | .idle | .asked | .answered | .turnedDown => c.received = [] ∧ c.incoming = []
  | .queued =>
    (c.received = [] ∧ c.incoming = []) ∧
      ∃ i file, listener = some ⟨i, file, [j], .accepting⟩ ∧ Suits sha256 file c
  | .accepted =>
    ∃ i file backlog k, listener = some ⟨i, file, backlog, .sending j k⟩ ∧ Suits sha256 file c ∧
      k ≤ chunks file.size ∧ c.received ++ c.incoming = file.upTo k
  | .cut =>
    sha256 (c.received ++ c.incoming) = c.hash ∧
      (c.received ++ c.incoming).length = c.filesize.toNat
  | .saved => sha256 c.received = c.hash
  | .cancelled => c.received = [] ∨ ∃ rom, sha256 rom = c.hash ∧ c.received <+: rom

/-- **The invariant of the clients.** -/
def AllFine (m : State) : Prop := ∀ j, Fine sha256 m.listener j (m.clients j)

/-- What a thread knows: the hash that its client sent, and then a file with this hash. -/
def Knows (c : Client) : ThreadStage → Prop
  | .requested hash => hash = c.hash
  | .replied file => sha256 file.bytes = c.hash
  | .idle | .serving | .done => True

/-- **The invariant of the threads.** A thread begins after its client, and what is sent through the socket
has the hash that the client of this thread sent. -/
structure Asked (m : State) : Prop where
  idle : ∀ i, (m.clients i).stage = .idle → m.threads i = .idle
  knows : ∀ i, Knows sha256 (m.clients i) (m.threads i)
  socket : ∀ ss, m.listener = some ss →
    m.threads ss.thread = .serving ∧ sha256 ss.file.bytes = (m.clients ss.thread).hash

end Right

/-- The thread writes all of its file, and the size it took from the table is that of the file. -/
def Covers (file : Transfer) : Prop :=
  file.size = file.bytes.length ∧ file.size ≤ fileChunkSize * chunks file.size

instance (file : Transfer) : Decidable (Covers file) := by
  unfold Covers; infer_instance

/-- What a step needs: a client connects when a thread that was asked for the same hash waits in `accept`
and no other client waits; this thread writes all of its file, and the client was told the size of it. -/
def Awaited (m : State) : Label → Prop
  | .connect j =>
    match m.listener with
    | some ⟨i, file, [], .accepting⟩ =>
      (m.clients i).hash = (m.clients j).hash ∧ Covers file ∧ (m.clients j).filesize.toNat = file.size
    | _ => False
  | _ => True

variable {sha256 : List UInt8 → List UInt8} {disk : List Char → DiskFile}

theorem Fine.right {listener : Option ServerSocket} {j : ℕ} {c : Client}
    (h : Fine sha256 listener j c) : (c.received = [] ∧ ¬ c.Over) ∨
      ∃ rom, sha256 rom = c.hash ∧ c.received <+: rom ∧ (c.Over → c.received = rom) := by
  unfold Fine at h
  unfold Client.Over
  split at h
  · next hs => exact Or.inl ⟨h.1, by simp [hs]⟩
  · next hs => exact Or.inl ⟨h.1, by simp [hs]⟩
  · next hs => exact Or.inl ⟨h.1, by simp [hs]⟩
  · next hs => exact Or.inl ⟨h.1, by simp [hs]⟩
  · next hs => exact Or.inl ⟨h.1.1, by simp [hs]⟩
  · next hs =>
    obtain ⟨i, file, backlog, k, -, hsuits, hk, hbytes⟩ := h
    refine Or.inr ⟨file.sent, hsuits.1, ?_, by simp [hs]⟩
    exact (List.prefix_append _ _).trans (hbytes ▸ file.upTo_prefix hk)
  · next hs =>
    refine Or.inr ⟨c.received ++ c.incoming, h.1, List.prefix_append _ _, ?_⟩
    rintro (hsaved | ⟨-, hnil⟩)
    · simp [hs] at hsaved
    · simp [hnil]
  · exact Or.inr ⟨c.received, h, List.prefix_rfl, fun _ => rfl⟩
  · next hs =>
    rcases h with h | ⟨rom, hrom, hpre⟩
    · exact Or.inl ⟨h, by simp [hs]⟩
    · exact Or.inr ⟨rom, hrom, hpre, by simp [hs]⟩

/-- The client whose connection is the only one that waits, or the one that is served. -/
def ServerSocket.Attends (ss : ServerSocket) (j : ℕ) : Prop :=
  match ss.stage with
  | .accepting => ss.backlog = [j]
  | .sending peer _ => peer = j
  | .closing => False

theorem Fine.queued {l : Option ServerSocket} {j : ℕ} {c : Client} (h : Fine sha256 l j c)
    (hs : c.stage = .queued) : (c.received = [] ∧ c.incoming = []) ∧
      ∃ i file, l = some ⟨i, file, [j], .accepting⟩ ∧ Suits sha256 file c := by
  simpa only [Fine, hs] using h

theorem Fine.accepted {l : Option ServerSocket} {j : ℕ} {c : Client} (h : Fine sha256 l j c)
    (hs : c.stage = .accepted) :
    ∃ i file backlog k, l = some ⟨i, file, backlog, .sending j k⟩ ∧ Suits sha256 file c ∧
      k ≤ chunks file.size ∧ c.received ++ c.incoming = file.upTo k := by
  simpa only [Fine, hs] using h

/-- The connection of a client waits or is served. -/
def Client.Engaged (c : Client) : Prop := c.stage = .queued ∨ c.stage = .accepted

/-- A client without such a connection does not need the socket. -/
theorem Fine.of_not_engaged {l l' : Option ServerSocket} {j : ℕ} {c : Client}
    (h : Fine sha256 l j c) (hc : ¬ c.Engaged) : Fine sha256 l' j c := by
  simp only [Client.Engaged, not_or] at hc
  unfold Fine at *
  split at h <;> simp_all

/-- The socket attends to the client whose connection waits or is served. -/
theorem Fine.attends {l : Option ServerSocket} {j : ℕ} {c : Client} (h : Fine sha256 l j c)
    (hc : c.Engaged) : ∃ ss, l = some ss ∧ ss.Attends j := by
  rcases hc with hs | hs
  · obtain ⟨-, i, file, hl, -⟩ := h.queued hs
    exact ⟨_, hl, rfl⟩
  · obtain ⟨i, file, backlog, k, hl, -⟩ := h.accepted hs
    exact ⟨_, hl, rfl⟩

/-! ### One step -/

theorem Client.move_eq {old new : ClientStage} {c : Client} (h : c.stage = old) :
    c.move old new = { c with stage := new } := if_pos h

theorem Client.move_ne {old new : ClientStage} {c : Client} (h : c.stage ≠ old) :
    c.move old new = c := if_neg h

/-- One client changes. -/
theorem AllFine.setClient {m : State} (h : AllFine sha256 m) {j : ℕ} {c : Client}
    (hc : Fine sha256 m.listener j c) : AllFine sha256 (m.setClient j c) := by
  intro j'
  by_cases hj : j' = j
  · subst hj
    simpa [State.setClient] using hc
  · simpa [State.setClient, hj] using h j'

/-- The socket changes, and with it one client: it attends to no other. -/
theorem AllFine.socket {m : State} (h : AllFine sha256 m) {l : Option ServerSocket} {j : ℕ}
    {c : Client} (hc : Fine sha256 l j c)
    (hss : ∀ ss, m.listener = some ss → ∀ j', ss.Attends j' → j' = j) :
    AllFine sha256 { m.setClient j c with listener := l } := by
  intro j'
  by_cases hj : j' = j
  · subst hj
    simpa [State.setClient] using hc
  · have hfine : Fine sha256 l j' (m.clients j') := (h j').of_not_engaged fun hc => by
      obtain ⟨ss, hl, hattends⟩ := (h j').attends hc
      exact hj (hss ss hl j' hattends)
    simpa [State.setClient, hj] using hfine

/-- A client that has read no fewer bytes than it was told has read all. -/
theorem Client.eq_of_prefix {c : Client} {rom : List UInt8} (hpre : c.received <+: rom)
    (hsize : rom.length = c.filesize.toNat) (hread : ¬ c.fileread < c.filesize) :
    c.received = rom := by
  have hle := hpre.length_le
  have hfile : c.fileread.toNat = c.received.length := by
    simp only [Client.fileread, BitVec.toNat_ofNat]
    have := c.filesize.isLt
    omega
  rw [BitVec.lt_def, hfile] at hread
  exact hpre.eq_of_length (by omega)

theorem fine_leave {l : Option ServerSocket} {j : ℕ} {c : Client} (h : Fine sha256 l j c)
    (hs : c.stage = .queued ∨ c.stage = .accepted ∨ c.stage = .cut)
    (hread : ¬ c.fileread < c.filesize) : Fine sha256 l j { c with stage := .saved } := by
  suffices hrom : ∃ rom, sha256 rom = c.hash ∧ rom.length = c.filesize.toNat ∧
      c.received <+: rom by
    obtain ⟨rom, hhash, hsize, hpre⟩ := hrom
    simpa only [Fine, Client.eq_of_prefix hpre hsize hread] using hhash
  rcases hs with hs | hs | hs
  · obtain ⟨⟨hnil, -⟩, -, file, -, hsuits⟩ := h.queued hs
    exact ⟨file.sent, hsuits.1, hsuits.2, hnil ▸ List.nil_prefix⟩
  · obtain ⟨-, file, -, k, -, hsuits, hk, hbytes⟩ := h.accepted hs
    exact ⟨file.sent, hsuits.1, hsuits.2,
      (List.prefix_append _ _).trans (hbytes ▸ file.upTo_prefix hk)⟩
  · simp only [Fine, hs] at h
    exact ⟨_, h.1, h.2, List.prefix_append _ _⟩

theorem fine_cancel {l : Option ServerSocket} {j : ℕ} {c : Client} (h : Fine sha256 l j c) :
    Fine sha256 l j { c with stage := .cancelled } := by
  rcases h.right with ⟨hnil, -⟩ | ⟨rom, hhash, hpre, -⟩
  · exact Or.inl hnil
  · exact Or.inr ⟨rom, hhash, hpre⟩

theorem fine_read {l : Option ServerSocket} {j n : ℕ} {c : Client} (h : Fine sha256 l j c)
    (hs : c.stage = .accepted ∨ c.stage = .cut) :
    Fine sha256 l j
      { c with received := c.received ++ c.incoming.take n, incoming := c.incoming.drop n } := by
  rcases hs with hs | hs <;> simpa [Fine, hs, Suits] using h

/-- A connection that waits is accepted. -/
theorem fine_accept {i j : ℕ} {file : Transfer} {backlog backlog' : List ℕ} {c : Client}
    (h : Fine sha256 (some ⟨i, file, backlog, .accepting⟩) j c) :
    Fine sha256 (some ⟨i, file, backlog', .sending j 0⟩) j (c.move .queued .accepted) := by
  by_cases hs : c.stage = .queued
  · obtain ⟨⟨hreceived, hincoming⟩, _, _, hl, hsuits⟩ := h.queued hs
    simp only [Option.some.injEq, ServerSocket.mk.injEq] at hl
    obtain rfl := hl.2.1
    rw [Client.move_eq hs]
    exact ⟨i, file, backlog', 0, rfl, hsuits, Nat.zero_le _, by simp [hreceived, hincoming]⟩
  · rw [Client.move_ne hs]
    refine h.of_not_engaged ?_
    rintro (hs' | hs')
    · exact hs hs'
    · obtain ⟨_, _, _, _, hl, -⟩ := h.accepted hs'
      simp at hl

/-- What is known of the client to which the chunks go. -/
theorem Fine.sending {i j k : ℕ} {file : Transfer} {backlog : List ℕ} {c : Client}
    (h : Fine sha256 (some ⟨i, file, backlog, .sending j k⟩) j c) :
    (c.stage = .accepted ∧ Suits sha256 file c ∧ k ≤ chunks file.size ∧
      c.received ++ c.incoming = file.upTo k) ∨ (c.stage ≠ .accepted ∧ ¬ c.Engaged) := by
  by_cases hs : c.stage = .accepted
  · obtain ⟨_, _, _, _, hl, hsuits, hk, hbytes⟩ := h.accepted hs
    simp only [Option.some.injEq, ServerSocket.mk.injEq, SocketStage.sending.injEq] at hl
    obtain ⟨-, rfl, -, -, rfl⟩ := hl
    exact Or.inl ⟨hs, hsuits, hk, hbytes⟩
  · refine Or.inr ⟨hs, ?_⟩
    rintro (hs' | hs')
    · obtain ⟨-, _, _, hl, -⟩ := h.queued hs'
      simp at hl
    · exact hs hs'

theorem attends_sending {m : State} {i j k : ℕ} {file : Transfer} {backlog : List ℕ}
    (hl : m.listener = some ⟨i, file, backlog, .sending j k⟩) :
    ∀ ss, m.listener = some ss → ∀ j', ss.Attends j' → j' = j := by
  intro ss hss j' hattends
  obtain rfl := Option.some.inj (hl.symm.trans hss)
  exact hattends.symm

/-- A chunk comes. -/
theorem fine_deliver {i j k : ℕ} {file : Transfer} {backlog : List ℕ} {c : Client}
    (h : Fine sha256 (some ⟨i, file, backlog, .sending j k⟩) j c) (hk : k < chunks file.size) :
    Fine sha256 (some ⟨i, file, backlog, .sending j (k + 1)⟩) j (c.deliver (file.chunk k)) := by
  rcases h.sending with ⟨hs, hsuits, -, hbytes⟩ | ⟨hs, hc⟩
  · rw [Client.deliver, if_pos hs]
    simp only [Fine, hs]
    refine ⟨i, file, backlog, k + 1, rfl, hsuits, hk, ?_⟩
    rw [file.upTo_succ, ← hbytes, List.append_assoc]
  · rw [Client.deliver, if_neg hs]
    exact h.of_not_engaged hc

/-- The connection is closed behind the last chunk. -/
theorem fine_cut {i j k : ℕ} {file : Transfer} {backlog : List ℕ} {c : Client}
    (h : Fine sha256 (some ⟨i, file, backlog, .sending j k⟩) j c) (hk : chunks file.size ≤ k) :
    Fine sha256 (some ⟨i, file, backlog, .closing⟩) j (c.move .accepted .cut) := by
  rcases h.sending with ⟨hs, hsuits, hk', hbytes⟩ | ⟨hs, hc⟩
  · rw [Client.move_eq hs]
    rw [le_antisymm hk' hk] at hbytes
    exact ⟨hbytes ▸ hsuits.1, hbytes ▸ hsuits.2⟩
  · rw [Client.move_ne hs]
    exact h.of_not_engaged hc

/-- A step of the request and its reply. -/
theorem allFine_answer {m : State} (h : AllFine sha256 m) {j : ℕ} {c : Client}
    (hs : (m.clients j).stage = .idle ∨ (m.clients j).stage = .asked)
    (hc : c.stage = .asked ∨ c.stage = .answered ∨ c.stage = .turnedDown)
    (hbytes : c.received = (m.clients j).received ∧ c.incoming = (m.clients j).incoming) :
    AllFine sha256 (m.setClient j c) := by
  have hj := h j
  have hnil : c.received = [] ∧ c.incoming = [] := by
    rcases hs with hs | hs <;> simpa [Fine, hs, hbytes] using hj
  refine h.setClient ?_
  rcases hc with hc | hc | hc <;> simpa only [Fine, hc] using hnil

theorem allFine_turnedDown {m : State} (h : AllFine sha256 m) (i : ℕ) :
    AllFine sha256 (m.setClient i ((m.clients i).move .asked .turnedDown)) := by
  by_cases hs : (m.clients i).stage = .asked
  · rw [Client.move_eq hs]
    exact allFine_answer h (Or.inr hs) (Or.inr (Or.inr rfl)) ⟨rfl, rfl⟩
  · rw [Client.move_ne hs]
    exact h.setClient (h i)

theorem allFine_answered {m : State} (h : AllFine sha256 m) (i size : ℕ) :
    AllFine sha256 (m.setClient i ((m.clients i).answer size)) := by
  unfold Client.answer
  split_ifs with hs
  · exact allFine_answer h (Or.inr hs) (Or.inr (Or.inl rfl)) ⟨rfl, rfl⟩
  · exact h.setClient (h i)

/-- A socket is opened when there is none, so that it attends to nobody. -/
theorem allFine_bind {m : State} (h : AllFine sha256 m) (hl : m.listener = none) (i : ℕ)
    (file : Transfer) :
    AllFine sha256 { m.setThread i .serving with listener := some ⟨i, file, [], .accepting⟩ } := by
  intro j
  refine (h j).of_not_engaged fun hc => ?_
  obtain ⟨ss, hss, -⟩ := (h j).attends hc
  simp [hl] at hss

/-- A client connects in its turn. -/
theorem allFine_connect {m : State} (h : AllFine sha256 m) {i j : ℕ} {file : Transfer}
    (hl : m.listener = some ⟨i, file, [], .accepting⟩) (hs : (m.clients j).stage = .answered)
    (hsuits : Suits sha256 file (m.clients j)) :
    AllFine sha256 { m.setClient j ((m.clients j).move .answered .queued) with
      listener := some ⟨i, file, [j], .accepting⟩ } := by
  have hnil := h j
  simp only [Fine, hs] at hnil
  refine h.socket ?_ fun ss hss j' hattends => ?_
  · rw [Client.move_eq hs]
    exact ⟨hnil, i, file, rfl, hsuits⟩
  · obtain rfl := Option.some.inj (hl.symm.trans hss)
    simp [ServerSocket.Attends] at hattends

/-- The only connection that waits is accepted. -/
theorem allFine_accept {m : State} (h : AllFine sha256 m) {i j : ℕ} {file : Transfer}
    {backlog : List ℕ} (hl : m.listener = some ⟨i, file, backlog, .accepting⟩) (hmem : j ∈ backlog) :
    AllFine sha256 { m.setClient j ((m.clients j).move .queued .accepted) with
      listener := some ⟨i, file, backlog.erase j, .sending j 0⟩ } := by
  refine h.socket (fine_accept (hl ▸ h j)) fun ss hss j' hattends => ?_
  obtain rfl := Option.some.inj (hl.symm.trans hss)
  rw [show backlog = [j'] from hattends, List.mem_singleton] at hmem
  exact hmem.symm

/-- The thread breaks off, to a client that no longer reads. -/
theorem allFine_breakOff {m : State} (h : AllFine sha256 m) {i j k : ℕ} {file : Transfer}
    {backlog : List ℕ} (hl : m.listener = some ⟨i, file, backlog, .sending j k⟩)
    (hc : ¬ (m.clients j).Engaged) :
    AllFine sha256 { m with listener := some ⟨i, file, backlog, .closing⟩ } := by
  have hfine : Fine sha256 (some ⟨i, file, backlog, .closing⟩) j (m.clients j) :=
    (h j).of_not_engaged hc
  have hsame := h.socket hfine (attends_sending hl)
  simpa only [State.setClient, Function.update_eq_self] using hsame

/-- The socket is closed when it attends to nobody any more. -/
theorem allFine_close {m : State} (h : AllFine sha256 m) {i : ℕ} {file : Transfer}
    {backlog : List ℕ} (hl : m.listener = some ⟨i, file, backlog, .closing⟩) :
    AllFine sha256 { m.setThread i .done with
      clients := fun j => if j ∈ backlog then (m.clients j).move .queued .cut else m.clients j
      listener := none } := by
  intro j
  have hc : ¬ (m.clients j).Engaged := by
    intro hc
    obtain ⟨ss, hss, hattends⟩ := (h j).attends hc
    obtain rfl := Option.some.inj (hl.symm.trans hss)
    exact hattends
  have hsame : (m.clients j).move .queued .cut = m.clients j :=
    Client.move_ne fun hs => hc (Or.inl hs)
  simpa only [hsame, ite_self] using (h j).of_not_engaged hc

/-! ### What the threads know -/

theorem Covers.sent_eq {file : Transfer} (h : Covers file) : file.sent = file.bytes :=
  List.take_of_length_le (h.1 ▸ h.2)

/-- The file of the thread suits a client that sent the same hash. -/
theorem Asked.suits {m : State} (h : Asked sha256 m) {i j : ℕ} {file : Transfer} {backlog : List ℕ}
    {stage : SocketStage} (hl : m.listener = some ⟨i, file, backlog, stage⟩)
    (hhash : (m.clients i).hash = (m.clients j).hash) (hcovers : Covers file)
    (hsize : (m.clients j).filesize.toNat = file.size) : Suits sha256 file (m.clients j) := by
  have hfile : sha256 file.bytes = (m.clients i).hash := (h.socket _ hl).2
  unfold Suits
  rw [hcovers.sent_eq]
  exact ⟨hfile.trans hhash, hcovers.1.symm.trans hsize.symm⟩

theorem Knows.congr {c c' : Client} {t : ThreadStage} (h : Knows sha256 c t) (hhash : c'.hash = c.hash) :
    Knows sha256 c' t := by
  cases t <;> simp_all [Knows]

@[simp] theorem Client.hash_move (old new : ClientStage) (c : Client) : (c.move old new).hash = c.hash := by
  unfold Client.move
  split_ifs <;> rfl

@[simp] theorem Client.hash_answer (size : ℕ) (c : Client) : (c.answer size).hash = c.hash := by
  unfold Client.answer
  split_ifs <;> rfl

@[simp] theorem Client.hash_deliver (data : List UInt8) (c : Client) :
    (c.deliver data).hash = c.hash := by
  unfold Client.deliver
  split_ifs <;> rfl

theorem Client.idle_move {old new : ClientStage} {c : Client} (hnew : new ≠ .idle)
    (h : (c.move old new).stage = .idle) : c.stage = .idle := by
  unfold Client.move at h
  split_ifs at h
  · exact absurd h hnew
  · exact h

theorem Client.idle_answer {size : ℕ} {c : Client} (h : (c.answer size).stage = .idle) :
    c.stage = .idle := by
  unfold Client.answer at h
  split_ifs at h
  exact h

theorem Client.idle_deliver {data : List UInt8} {c : Client} (h : (c.deliver data).stage = .idle) :
    c.stage = .idle := by
  unfold Client.deliver at h
  split_ifs at h
  · exact h
  · exact h

/-- A client goes on, and the thread and the file of the socket stay. -/
theorem Asked.client {m : State} (h : Asked sha256 m) {j : ℕ} {c : Client} {l : Option ServerSocket}
    (hhash : c.hash = (m.clients j).hash) (hidle : c.stage = .idle → (m.clients j).stage = .idle)
    (hl : ∀ ss, l = some ss → ∃ ss', m.listener = some ss' ∧ ss.thread = ss'.thread ∧ ss.file = ss'.file) :
    Asked sha256 { m.setClient j c with listener := l } := by
  have hhashes : ∀ i, (Function.update m.clients j c i).hash = (m.clients i).hash := fun i => by
    by_cases hi : i = j
    · rw [hi, Function.update_self, hhash]
    · rw [Function.update_of_ne hi]
  refine ⟨fun i hs => h.idle i ?_, fun i => (h.knows i).congr (hhashes i), fun ss hss => ?_⟩
  · by_cases hi : i = j
    · subst hi
      exact hidle (by simpa [State.setClient] using hs)
    · simpa [State.setClient, hi] using hs
  · obtain ⟨ss', hss', hthread, hfile⟩ := hl ss hss
    rw [hthread, hfile]
    exact ⟨(h.socket ss' hss').1, (h.socket ss' hss').2.trans (hhashes _).symm⟩

/-- A client goes on, and so does the socket. -/
theorem Asked.attend {m : State} (h : Asked sha256 m) {j : ℕ} {c : Client} {ss ss' : ServerSocket}
    (hl : m.listener = some ss) (hthread : ss'.thread = ss.thread) (hfile : ss'.file = ss.file)
    (hhash : c.hash = (m.clients j).hash) (hidle : c.stage = .idle → (m.clients j).stage = .idle) :
    Asked sha256 { m.setClient j c with listener := some ss' } :=
  h.client hhash hidle fun _ hss => ⟨ss, hl, Option.some.inj hss ▸ hthread, Option.some.inj hss ▸ hfile⟩

/-- A client goes on, and the socket stays. -/
theorem Asked.setClient {m : State} (h : Asked sha256 m) {j : ℕ} {c : Client}
    (hhash : c.hash = (m.clients j).hash) (hidle : c.stage = .idle → (m.clients j).stage = .idle) :
    Asked sha256 (m.setClient j c) :=
  h.client hhash hidle fun ss hss => ⟨ss, hss, rfl, rfl⟩

/-- A thread that does not have the socket goes on. -/
theorem Asked.setThread {m : State} (h : Asked sha256 m) {i : ℕ} {t : ThreadStage}
    (hi : m.threads i ≠ .serving) (hidle : (m.clients i).stage ≠ .idle)
    (ht : Knows sha256 (m.clients i) t) : Asked sha256 (m.setThread i t) := by
  refine ⟨fun k hs => ?_, fun k => ?_, fun ss hss => ?_⟩
  · have hk : k ≠ i := fun hk => hidle (hk ▸ hs)
    simpa [State.setThread, hk] using h.idle k hs
  · by_cases hk : k = i
    · subst hk
      simpa [State.setThread] using ht
    · simpa [State.setThread, hk] using h.knows k
  · obtain ⟨hserving, hfile⟩ := h.socket ss hss
    have hk : ss.thread ≠ i := fun hk => hi (hk ▸ hserving)
    exact ⟨by simpa [State.setThread, hk] using hserving, hfile⟩

/-- A client whose thread has begun is not idle. -/
theorem Asked.begun {m : State} (h : Asked sha256 m) {i : ℕ} (hi : m.threads i ≠ .idle) :
    (m.clients i).stage ≠ .idle := fun hs => hi (h.idle i hs)

/-- **Every step keeps what the threads know.** `DownloadROM` looks at the hash of the file before it
replies. -/
theorem asked_step {m m' : State} {a : Label} (h : Asked sha256 m)
    (hstep : step sha256 disk m a = some m') : Asked sha256 m' := by
  cases a with
  | request j hash =>
    simp only [step] at hstep
    split at hstep
    · next hs =>
      obtain rfl := Option.some.inj hstep
      have hthread := h.idle j hs
      refine ⟨fun k hk => ?_, fun k => ?_, fun ss hss => ?_⟩
      · have hkj : k ≠ j := by
          rintro rfl
          simp [State.setThread, State.setClient] at hk
        simp only [State.setThread, State.setClient, Function.update_of_ne hkj] at hk ⊢
        exact h.idle k hk
      · by_cases hkj : k = j
        · subst hkj
          simp [State.setThread, State.setClient, Knows]
        · simpa [State.setThread, State.setClient, hkj] using h.knows k
      · obtain ⟨hserving, hfile⟩ := h.socket ss hss
        have hkj : ss.thread ≠ j := by
          rintro rfl
          simp [hthread] at hserving
        simp only [State.setThread, State.setClient, Function.update_of_ne hkj]
        exact ⟨hserving, hfile⟩
    · cases hstep
  | reply i =>
    simp only [step] at hstep
    split at hstep
    · next hash hthread =>
      have hknows : hash = (m.clients i).hash := by simpa [hthread, Knows] using h.knows i
      have hbegun := h.begun (i := i) (by simp [hthread])
      -- the table is no part of the invariant
      have htable : Asked sha256 { m with roms := (findROM sha256 disk m.roms hash).1 } :=
        ⟨h.idle, h.knows, h.socket⟩
      split at hstep
      · obtain rfl := Option.some.inj hstep
        have hclient := htable.setClient (j := i) (c := (m.clients i).move .asked .turnedDown) (by simp)
          (Client.idle_move (by simp))
        refine hclient.setThread (by simp [State.setClient, hthread]) (fun hs => hbegun ?_) trivial
        exact @Client.idle_move .asked .turnedDown _ (by simp) (by simpa [State.setClient] using hs)
      · obtain rfl := Option.some.inj hstep
        exact htable.setThread (by simp [hthread]) hbegun trivial
      · next file hfound =>
        obtain rfl := Option.some.inj hstep
        have hclient := htable.setClient (j := i) (c := (m.clients i).answer file.size) (by simp)
          Client.idle_answer
        refine hclient.setThread (by simp [State.setClient, hthread]) (fun hs => hbegun ?_) ?_
        · exact Client.idle_answer (by simpa [State.setClient] using hs)
        · have hfile : sha256 file.bytes = hash := findROM_found hfound
          simpa [State.setClient, Knows] using hfile.trans hknows
    · cases hstep
  | bind i =>
    simp only [step] at hstep
    split at hstep
    · next file hthread =>
      have hknows : sha256 file.bytes = (m.clients i).hash := by simpa [hthread, Knows] using h.knows i
      have hbegun := h.begun (i := i) (by simp [hthread])
      split at hstep
      · obtain rfl := Option.some.inj hstep
        have hserving := h.setThread (t := .serving) (by simp [hthread]) hbegun trivial
        refine ⟨hserving.idle, hserving.knows, fun ss hss => ?_⟩
        obtain rfl := Option.some.inj hss
        exact ⟨by simp [State.setThread], hknows⟩
      · obtain rfl := Option.some.inj hstep
        exact h.setThread (by simp [hthread]) hbegun trivial
    · cases hstep
  | connect j =>
    simp only [step] at hstep
    split at hstep
    · split at hstep
      · obtain rfl := Option.some.inj hstep
        exact h.setClient (by simp) (Client.idle_move (by simp))
      · next ss hl =>
        obtain rfl := Option.some.inj hstep
        exact h.attend hl rfl rfl (by simp) (Client.idle_move (by simp))
    · cases hstep
  | accept j =>
    simp only [step] at hstep
    split at hstep
    · next hl =>
      split_ifs at hstep
      obtain rfl := Option.some.inj hstep
      exact h.attend hl rfl rfl (by simp) (Client.idle_move (by simp))
    · cases hstep
  | write =>
    simp only [step] at hstep
    split at hstep
    · next hl =>
      split_ifs at hstep
      · obtain rfl := Option.some.inj hstep
        exact h.attend hl rfl rfl (by simp) Client.idle_deliver
      · obtain rfl := Option.some.inj hstep
        exact h.attend hl rfl rfl (by simp) (Client.idle_move (by simp))
    · cases hstep
  | breakOff =>
    simp only [step] at hstep
    split at hstep
    · next hl =>
      split_ifs at hstep
      obtain rfl := Option.some.inj hstep
      refine ⟨h.idle, h.knows, fun ss hss => ?_⟩
      obtain rfl := Option.some.inj hss
      obtain ⟨hserving, hfile⟩ := h.socket _ hl
      exact ⟨hserving, hfile⟩
    · cases hstep
  | close =>
    simp only [step] at hstep
    split at hstep
    · next i file backlog hl =>
      obtain rfl := Option.some.inj hstep
      have hbegun := h.begun (i := i) (by simp [(h.socket _ hl).1])
      refine ⟨fun k hk => ?_, fun k => ?_, by simp⟩
      · have hidle : (m.clients k).stage = .idle := by
          dsimp only at hk
          split_ifs at hk
          · exact Client.idle_move (by simp) hk
          · exact hk
        have hki : k ≠ i := fun hki => hbegun (hki ▸ hidle)
        simpa [State.setThread, hki] using h.idle k hidle
      · by_cases hki : k = i
        · subst hki
          simp [State.setThread, Knows]
        · simp only [State.setThread, Function.update_of_ne hki]
          exact (h.knows k).congr (by split_ifs <;> simp)
    · cases hstep
  | read j n =>
    simp only [step] at hstep
    split_ifs at hstep
    obtain rfl := Option.some.inj hstep
    exact h.setClient rfl id
  | leave j =>
    simp only [step] at hstep
    split_ifs at hstep
    obtain rfl := Option.some.inj hstep
    exact h.setClient rfl (by simp)
  | cancel j =>
    simp only [step] at hstep
    split_ifs at hstep
    obtain rfl := Option.some.inj hstep
    exact h.setClient rfl (by simp)

/-! ### Runs -/

/-- **A step in which nobody connects out of turn keeps the invariant.** -/
theorem allFine_step {m m' : State} {a : Label} (hm : Asked sha256 m) (h : AllFine sha256 m)
    (ha : Awaited m a) (hstep : step sha256 disk m a = some m') : AllFine sha256 m' := by
  cases a with
  | request j hash =>
    simp only [step] at hstep
    split at hstep
    · next hs =>
      obtain rfl := Option.some.inj hstep
      exact allFine_answer h (Or.inl hs) (Or.inl rfl) ⟨rfl, rfl⟩
    · cases hstep
  | reply i =>
    simp only [step] at hstep
    split at hstep
    · split at hstep
      · obtain rfl := Option.some.inj hstep
        exact allFine_turnedDown h i
      · obtain rfl := Option.some.inj hstep
        exact h
      · next file _ =>
        obtain rfl := Option.some.inj hstep
        exact allFine_answered h i file.size
    · cases hstep
  | bind i =>
    simp only [step] at hstep
    split at hstep
    · next file _ =>
      split at hstep
      · next hl =>
        obtain rfl := Option.some.inj hstep
        exact allFine_bind h hl i file
      · obtain rfl := Option.some.inj hstep
        exact h
    · cases hstep
  | connect j =>
    simp only [step] at hstep
    simp only [Awaited] at ha
    split at hstep
    · next hs =>
      split at ha
      · next i file hl =>
        rw [hl] at hstep
        obtain rfl := Option.some.inj hstep
        exact allFine_connect h hl hs (hm.suits hl ha.1 ha.2.1 ha.2.2)
      · exact ha.elim
    · cases hstep
  | accept j =>
    simp only [step] at hstep
    split at hstep
    · next i file backlog hl =>
      split_ifs at hstep with hmem
      obtain rfl := Option.some.inj hstep
      exact allFine_accept h hl hmem
    · cases hstep
  | write =>
    simp only [step] at hstep
    split at hstep
    · next i file backlog j k hl =>
      have hj := h j
      rw [hl] at hj
      split_ifs at hstep with hk
      · obtain rfl := Option.some.inj hstep
        exact h.socket (fine_deliver hj hk) (attends_sending hl)
      · obtain rfl := Option.some.inj hstep
        exact h.socket (fine_cut hj (not_lt.mp hk)) (attends_sending hl)
    · cases hstep
  | breakOff =>
    simp only [step] at hstep
    split at hstep
    · next i file backlog j k hl =>
      split_ifs at hstep with hbreak
      obtain rfl := Option.some.inj hstep
      refine allFine_breakOff h hl ?_
      rcases hbreak.2 with hs | hs <;> simp [Client.Engaged, hs]
    · cases hstep
  | close =>
    simp only [step] at hstep
    split at hstep
    · next hl =>
      obtain rfl := Option.some.inj hstep
      exact allFine_close h hl
    · cases hstep
  | read j n =>
    simp only [step] at hstep
    split_ifs at hstep with hread
    obtain rfl := Option.some.inj hstep
    exact h.setClient (fine_read (h j) hread.1)
  | leave j =>
    simp only [step] at hstep
    split_ifs at hstep with hleave
    obtain rfl := Option.some.inj hstep
    exact h.setClient (fine_leave (h j) hleave.1 hleave.2)
  | cancel j =>
    simp only [step] at hstep
    split_ifs at hstep
    obtain rfl := Option.some.inj hstep
    exact h.setClient (fine_cancel (h j))

/-- **Each client downloads the ROM it asked for**, if no client connects out of turn. -/
theorem downloads_of_awaited (roms : RomTable) {l : List Label}
    (h : Along (step sha256 disk) Awaited (init roms) l) :
    Always (step sha256 disk) (Right sha256) (init roms) l :=
  always_of_along (J := fun m => Asked sha256 m ∧ AllFine sha256 m)
    (fun _ _ _ hs ha hstep => ⟨asked_step hs.1 hstep, allFine_step hs.1 hs.2 ha hstep⟩)
    (fun _ _ _ hs _ ha hstep j => (allFine_step hs.1 hs.2 ha hstep j).right)
    ⟨⟨fun _ _ => rfl, fun _ => trivial, by simp [init]⟩, fun _ => ⟨rfl, rfl⟩⟩
    (fun _ => Or.inl ⟨rfl, by simp [Client.Over, init]⟩) h

instance decidableAwaited (m : State) : ∀ a, Decidable (Awaited m a)
  | .connect j =>
    match h : m.listener with
    | some ⟨i, file, [], .accepting⟩ =>
      decidable_of_iff ((m.clients i).hash = (m.clients j).hash ∧ Covers file ∧
        (m.clients j).filesize.toNat = file.size) (by simp [Awaited, h])
    | none => isFalse (by simp [Awaited, h])
    | some ⟨_, _, _ :: _, _⟩ | some ⟨_, _, [], .sending ..⟩ | some ⟨_, _, [], .closing⟩ =>
      isFalse (by simp [Awaited, h])
  | .request .. | .reply _ | .bind _ | .accept _ | .write | .breakOff | .close | .read .. | .leave _
  | .cancel _ => isTrue trivial

/-- Two ROMs of five bytes. -/
def romA : List UInt8 := [0x80, 0x37, 0x12, 0x40, 0xaa]

def romB : List UInt8 := [0x80, 0x37, 0x12, 0x40, 0xbb]

/-- SHA-256 on the two ROMs. -/
def sampleSha (bytes : List UInt8) : List UInt8 :=
  if bytes = romA then
    [0x86, 0xf3, 0x57, 0x40, 0xfb, 0xbd, 0x6b, 0xe0, 0x3e, 0x14, 0xe8, 0x87, 0x06, 0x36, 0xcf, 0xd5,
      0xf5, 0xf4, 0x75, 0x93, 0xe6, 0x28, 0xfa, 0x1b, 0xd7, 0xcd, 0xc5, 0x0d, 0x06, 0x08, 0x07, 0x0c]
  else if bytes = romB then
    [0x62, 0x34, 0xe1, 0x6d, 0x19, 0x3a, 0x6a, 0x31, 0xc5, 0x3b, 0x43, 0x3d, 0x3b, 0x2c, 0x18, 0x8a,
      0xd5, 0x9b, 0x9f, 0x83, 0x24, 0xc4, 0xc8, 0x3e, 0x80, 0xf6, 0x20, 0x1a, 0x0d, 0x8a, 0x82, 0x78]
  else []

def sampleDisk (path : List Char) : DiskFile :=
  if path = ['m'] then .file romA else if path = ['z'] then .file romB else .missing

/-- The table with the two ROMs. -/
def sampleRoms : RomTable :=
  (RomTable.put (fun _ => none) ⟨['m'], sampleSha romA, 5⟩).put ⟨['z'], sampleSha romB, 5⟩

/-- Two clients, one after the other. -/
def politeRun : List Label :=
  [.request 0 (sampleSha romA), .reply 0, .bind 0, .connect 0, .request 1 (sampleSha romB),
    .reply 1, .accept 0, .write, .read 0 5, .write, .close, .leave 0]

theorem downloads_politeRun :
    Always (step sampleSha sampleDisk) (Right sampleSha) (init sampleRoms) politeRun :=
  downloads_of_awaited sampleRoms (by decide +kernel)

/-- The second client connects first, when the thread of the first is in `accept`. -/
def swappedRun : List Label :=
  [.request 0 (sampleSha romA), .request 1 (sampleSha romB), .reply 0, .reply 1, .bind 0,
    .connect 1, .accept 1, .write, .read 1 5]

theorem eq_romB_of_hash {rom : List UInt8} (h : sampleSha rom = sampleSha romB) : rom = romB := by
  by_contra hB
  by_cases hA : rom = romA
  · subst hA
    exact absurd h (by decide)
  · rw [sampleSha, if_neg hA, if_neg hB] at h
    exact absurd h (by decide)

/-- The second client receives the first ROM. -/
theorem not_downloads_swappedRun :
    ¬ Always (step sampleSha sampleDisk) (Right sampleSha) (init sampleRoms) swappedRun := by
  intro h
  have hrun : (run (step sampleSha sampleDisk) (init sampleRoms) swappedRun).map (fun m =>
      ((m.clients 1).hash, (m.clients 1).received)) = some (sampleSha romB, romA) := by
    decide +kernel
  obtain ⟨m, hm, hclient⟩ := Option.map_eq_some_iff.mp hrun
  rw [Prod.mk.injEq] at hclient
  rcases h.last hm 1 with ⟨hnil, -⟩ | ⟨rom, hhash, hpre, -⟩
  · rw [hclient.2] at hnil
    cases hnil
  · rw [hclient.1] at hhash
    rw [hclient.2] at hpre
    rw [eq_romB_of_hash hhash] at hpre
    exact absurd hpre (by decide)

end N64NetLib.Master.Download
