import N64NetLib.Lib.Run
import N64NetLib.Udp.Handler

/-! # Does the master handle what it receives?

The main loop of `MasterServer` and the threads of its clients. For each datagram the main loop sweeps
the threads that have ended out of its table, looks up the thread of the sender or starts one, and
appends the datagram to its queue; a thread polls its queue, and leaves its loop after the first packet
it has handled. All steps of the loop and of the threads interleave (`step`).

`Handled` says that no thread has ended with something in its queue. A datagram that comes to a thread
that is leaving (`Leaving`: it has ended, or will before it gets to what is appended now) is left there
as soon as the thread has run on; if none comes so, none is left (`handled_iff`). -/

namespace N64NetLib.Master.Dispatch

open N64NetLib.Lib.Run N64NetLib.Packet N64NetLib.Packet.Basic N64NetLib.Udp.Handler

/-- A datagram of a client, with what its thread will meet: the surroundings of `ReadS64Packet`, and
whether the handling of the packet ends with an exception. -/
structure Received where
  addr : ℕ
  data : List UInt8
  call : Call
  raises : Bool

/-- Where a thread is: in front of `poll`, with a packet to handle, after which it leaves the loop or
goes on with it because of an exception, or behind its loop. -/
inductive Phase
  | polling
  | handling (leaves : Bool)
  | ended
deriving DecidableEq

/-- `ClientConnectionThread`. -/
structure ClientConnectionThread where
  handler : UDPHandler
  msgqueue : List Received
  phase : Phase

/-- The constructor, and `start`. -/
def newClientConnectionThread : ClientConnectionThread := ⟨newUDPHandler, [], .polling⟩

/-- `SendMessage`. -/
def ClientConnectionThread.sendMessage (d : Received) (th : ClientConnectionThread) :
    ClientConnectionThread :=
  { th with msgqueue := th.msgqueue ++ [d] }

/-- `ReadS64Packet` in a client thread. -/
def readS64Packet (h : UDPHandler) (d : Received) : UDPHandler × Except Exn (Option AbstractPacket) :=
  let r := readPacket .java .s64 d.call h 0 0 d.data fun _ => 0
  (r.handler, r.result)

/-- A packet that is handled without an exception ends the loop of its thread; a null or an exception
does not. -/
def leavesWith (h : UDPHandler) (d : Received) : Bool :=
  match (readS64Packet h d).2 with
  | .ok (some _) => !d.raises
  | _ => false

/-- A step of `run`: `poll` and `ReadS64Packet`, or the handling of the packet. -/
def work (th : ClientConnectionThread) : ClientConnectionThread :=
  match th.phase with
  | .polling =>
    match th.msgqueue with
    | [] => th
    | d :: rest =>
      { handler := (readS64Packet th.handler d).1
        msgqueue := rest
        phase := match (readS64Packet th.handler d).2 with
          | .ok (some _) => .handling !d.raises
          | _ => .polling }
  | .handling true => { th with phase := .ended }
  | .handling false => { th with phase := .polling }
  | .ended => th

/-- Where the main loop is: at `receive`, in the sweep with entries it has not looked at yet, or with
the thread that gets the datagram. -/
inductive Main
  | receiving
  | sweeping (d : Received) (todo : List ℕ)
  | sending (d : Received) (t : ℕ)

/-- The master: the main loop, `connectiontable` as pairs of an address and a thread, and the threads in
the order of their start. -/
structure MasterServer where
  main : Main
  connectiontable : List (ℕ × ℕ)
  threads : List ClientConnectionThread

/-- The master when it has opened its socket. -/
def init : MasterServer := ⟨.receiving, [], []⟩

inductive Label
  | receive (d : Received)
  | check (addr : ℕ)
  | find
  | send
  | work (t : ℕ)

/-- `isAlive`. -/
def isAlive (m : MasterServer) (t : ℕ) : Bool :=
  m.threads[t]?.any fun th => th.phase ≠ .ended

/-- One step of the main loop or of a thread. -/
def step (m : MasterServer) : Label → Option MasterServer
  | .receive d =>
    match m.main with
    | .receiving => some { m with main := .sweeping d (m.connectiontable.map (·.1)) }
    | _ => none
  | .check addr =>
    match m.main with
    | .sweeping d todo =>
      if addr ∈ todo then
        some
          { m with
            main := .sweeping d (todo.erase addr)
            connectiontable := m.connectiontable.filter fun e => e.1 ≠ addr || isAlive m e.2 }
      else none
    | _ => none
  | .find =>
    match m.main with
    | .sweeping d [] =>
      match m.connectiontable.lookup d.addr with
      | some t => some { m with main := .sending d t }
      | none =>
        some
          { main := .sending d m.threads.length
            connectiontable := (d.addr, m.threads.length) :: m.connectiontable
            threads := m.threads ++ [newClientConnectionThread] }
    | _ => none
  | .send =>
    match m.main with
    | .sending d t =>
      some
        { m with
          main := .receiving
          threads := m.threads.modify t (ClientConnectionThread.sendMessage d) }
    | _ => none
  | .work t => some { m with threads := m.threads.modify t work }

/-! ### What should come of it -/

/-- **No thread has ended with a datagram in its queue.** -/
def Handled (m : MasterServer) : Prop :=
  ∀ th ∈ m.threads, th.phase = .ended → th.msgqueue = []

/-- One of the datagrams, in this order, ends the loop of a thread with this handler. -/
def leavesAmong : UDPHandler → List Received → Bool
  | _, [] => false
  | h, d :: rest => leavesWith h d || leavesAmong (readS64Packet h d).1 rest

/-- The thread has ended, or ends before it polls what is appended to its queue now. -/
def Leaving (th : ClientConnectionThread) : Bool :=
  match th.phase with
  | .ended | .handling true => true
  | _ => leavesAmong th.handler th.msgqueue

/-- What a step needs: a datagram comes to a thread that is not leaving. -/
def InTime (m : MasterServer) : Label → Prop
  | .send =>
    match m.main with
    | .sending _ t => ∀ th, m.threads[t]? = some th → Leaving th = false
    | _ => True
  | _ => True

instance decidableInTime (m : MasterServer) : ∀ a, Decidable (InTime m a)
  | .send =>
    match h : m.main with
    | .sending _ t =>
      decidable_of_iff (∀ th, m.threads[t]? = some th → Leaving th = false) (by simp [InTime, h])
    | .receiving => isTrue (by simp [InTime, h])
    | .sweeping .. => isTrue (by simp [InTime, h])
  | .receive _ | .check _ | .find | .work _ => isTrue trivial

/-! ### One thread -/

/-- The thread polls everything in its queue: it is not leaving before it gets to the last. -/
def Serves (th : ClientConnectionThread) : Prop :=
  th.msgqueue = [] ∨ Leaving { th with msgqueue := th.msgqueue.dropLast } = false

theorem serves_sendMessage (d : Received) (th : ClientConnectionThread) :
    Serves (th.sendMessage d) ↔ Leaving th = false := by
  simp [Serves, ClientConnectionThread.sendMessage]

theorem Serves.handled {th : ClientConnectionThread} (h : Serves th) (hend : th.phase = .ended) :
    th.msgqueue = [] := by
  rcases h with h | h
  · exact h
  · simp [Leaving, hend] at h

theorem leavesAmong_dropLast : ∀ {h : UDPHandler} {l : List Received},
    leavesAmong h l = false → leavesAmong h l.dropLast = false
  | _, [], _ => rfl
  | _, [_], _ => rfl
  | h, d :: e :: l, hl => by
    simp only [leavesAmong, List.dropLast_cons_cons, Bool.or_eq_false_iff] at hl ⊢
    exact ⟨hl.1, leavesAmong_dropLast (l := e :: l) (by simpa [leavesAmong] using hl.2)⟩

/-- A thread that is not leaving serves what it has. -/
theorem Serves.of_not_leaving {th : ClientConnectionThread} (h : Leaving th = false) : Serves th := by
  refine Or.inr ?_
  unfold Leaving at *
  split at h
  · cases h
  · cases h
  · exact leavesAmong_dropLast h

/-- **A step of a thread keeps what it serves**, in both directions. -/
theorem serves_work (th : ClientConnectionThread) : Serves (work th) ↔ Serves th := by
  unfold work
  split
  · next hphase =>
    split
    · rfl
    next d rest hqueue =>
    have hserves : Serves th ↔ rest = [] ∨ leavesAmong th.handler (d :: rest.dropLast) = false := by
      unfold Serves
      cases rest with
      | nil => simp [hqueue, Leaving, hphase, leavesAmong]
      | cons e rest => simp [hqueue, Leaving, hphase]
    rw [hserves, leavesAmong, leavesWith]
    unfold Serves
    split
    · cases d.raises <;> simp [Leaving]
    · simp [Leaving]
  · next hphase => simp [Serves, Leaving, hphase]
  · next hphase => simp [Serves, Leaving, hphase]
  · rfl

/-- How many steps the thread takes at most before it ends or waits. -/
def rank (th : ClientConnectionThread) : ℕ :=
  3 * th.msgqueue.length + match th.phase with
    | .polling => 1
    | .handling _ => 2
    | .ended => 0

theorem rank_work {th : ClientConnectionThread} (hend : th.phase ≠ .ended)
    (hqueue : th.msgqueue ≠ []) : rank (work th) < rank th := by
  cases hphase : th.phase with
  | polling =>
    obtain ⟨d, rest, hq⟩ := List.exists_cons_of_ne_nil hqueue
    simp only [work, rank, hphase, hq, List.length_cons]
    split <;> omega
  | handling leaves => cases leaves <;> simp [work, rank, hphase]
  | ended => exact absurd hphase hend

/-- **What is not served is left there** when the thread runs on. -/
theorem exists_left {th : ClientConnectionThread} (h : ¬ Serves th) :
    ∃ n, (work^[n] th).phase = .ended ∧ (work^[n] th).msgqueue ≠ [] := by
  have hqueue : th.msgqueue ≠ [] := fun hnil => h (Or.inl hnil)
  by_cases hend : th.phase = .ended
  · exact ⟨0, hend, hqueue⟩
  · obtain ⟨n, hn⟩ := exists_left (mt (serves_work th).mp h)
    exact ⟨n + 1, hn⟩
termination_by rank th
decreasing_by exact rank_work hend hqueue

/-! ### The master -/

/-- Every thread serves what it has. -/
def AllServe (m : MasterServer) : Prop := ∀ th ∈ m.threads, Serves th

theorem AllServe.handled {m : MasterServer} (h : AllServe m) : Handled m :=
  fun th hth => (h th hth).handled

theorem allServe_iff {m : MasterServer} :
    AllServe m ↔ ∀ (i : ℕ) (th : ClientConnectionThread), m.threads[i]? = some th → Serves th := by
  simp only [AllServe, List.mem_iff_getElem?, forall_exists_index]
  exact forall_comm

/-- A change of one thread. -/
theorem allServe_modify {m m' : MasterServer} {t : ℕ}
    {f : ClientConnectionThread → ClientConnectionThread} (h : m'.threads = m.threads.modify t f) :
    AllServe m' ↔ ∀ (i : ℕ) (th : ClientConnectionThread), m.threads[i]? = some th →
      Serves (if t = i then f th else th) := by
  rw [allServe_iff, h]
  refine forall_congr' fun i => ?_
  rw [List.getElem?_modify]
  cases m.threads[i]? with
  | none => simp
  | some th => split_ifs <;> simp

/-- **A step of the master**: what is not served stays so, and something new is not served exactly if
the datagram does not come in time. -/
theorem allServe_step {m m' : MasterServer} {a : Label} (h : step m a = some m') :
    AllServe m' ↔ AllServe m ∧ InTime m a := by
  cases a with
  | receive d =>
    simp only [step] at h
    split at h
    · obtain rfl := Option.some.inj h
      simp [InTime, AllServe]
    · cases h
  | check addr =>
    simp only [step] at h
    split at h
    · split_ifs at h
      obtain rfl := Option.some.inj h
      simp [InTime, AllServe]
    · cases h
  | find =>
    simp only [step] at h
    split at h
    · split at h
      · obtain rfl := Option.some.inj h
        simp [InTime, AllServe]
      · obtain rfl := Option.some.inj h
        have hnew : Serves newClientConnectionThread := Or.inl rfl
        simp only [InTime, AllServe, List.forall_mem_append, List.forall_mem_singleton, hnew]
    · cases h
  | send =>
    simp only [step] at h
    split at h
    · next d t hmain =>
      obtain rfl := Option.some.inj h
      rw [allServe_modify rfl, allServe_iff]
      simp only [InTime, hmain]
      constructor
      · intro hs
        have ht : ∀ th, m.threads[t]? = some th → Leaving th = false := fun th hth =>
          (serves_sendMessage d th).mp (by simpa using hs t th hth)
        refine ⟨fun i th hth => ?_, ht⟩
        by_cases hi : t = i
        · exact .of_not_leaving (ht th (hi ▸ hth))
        · simpa [hi] using hs i th hth
      · rintro ⟨hs, ht⟩ i th hth
        split_ifs with hi
        · exact (serves_sendMessage d th).mpr (ht th (hi ▸ hth))
        · exact hs i th hth
    · cases h
  | work t =>
    obtain rfl := Option.some.inj h
    rw [allServe_modify rfl, allServe_iff]
    simp only [InTime, and_true]
    refine forall₃_congr fun i th _ => ?_
    split_ifs
    · exact serves_work th
    · rfl

/-- A thread runs on alone. -/
theorem run_work (t : ℕ) : ∀ (n : ℕ) (m : MasterServer), ∃ m',
    run step m (List.replicate n (.work t)) = some m' ∧
      m'.threads[t]? = m.threads[t]?.map work^[n]
  | 0, m => ⟨m, rfl, by simp⟩
  | n + 1, m => by
    obtain ⟨m', hrun, hthread⟩ := run_work t n { m with threads := m.threads.modify t work }
    refine ⟨m', run_cons.mpr ⟨_, rfl, hrun⟩, ?_⟩
    rw [hthread, List.getElem?_modify_eq, Option.map_eq_map, Option.map_map]
    rfl

/-- A run of threads alone. -/
def ThreadsOnly (k : List Label) : Prop := ∀ a ∈ k, ∃ t, a = .work t

theorem along_threadsOnly {k : List Label} (hk : ThreadsOnly k) : ∀ m, Along step InTime m k := by
  induction k with
  | nil => exact fun _ => trivial
  | cons a k ih =>
    intro m m' hm
    obtain ⟨t, rfl⟩ := hk a (by simp)
    exact ⟨trivial, ih (fun b hb => hk b (by simp [hb])) m'⟩

/-- **When every datagram is handled**: exactly if each came to its thread in time, however the
threads run on. -/
theorem handled_iff {l : List Label} {m : MasterServer} (h : run step init l = some m) :
    (∀ k, ThreadsOnly k → Always step Handled init (l ++ k)) ↔ Along step InTime init l := by
  have hinit : AllServe init := by simp [AllServe, init]
  constructor
  · intro hall
    by_contra hno
    have hlast : ¬ AllServe m := mt (last_iff_along (fun _ _ _ hs hstep => by
      rw [allServe_step hstep, and_iff_right hs]) (fun _ _ _ hs hstep hs' =>
        hs ((allServe_step hstep).mp hs').1) hinit h).mp hno
    simp only [allServe_iff, not_forall] at hlast
    obtain ⟨t, th, hth, hserves⟩ := hlast
    obtain ⟨n, hend, hleft⟩ := exists_left hserves
    obtain ⟨m', hrun, hth'⟩ := run_work t n m
    rw [hth, Option.map_some] at hth'
    have halways := (always_append.mp (hall (List.replicate n (.work t)) fun a ha =>
      ⟨t, (List.mem_replicate.mp ha).2⟩)).2 m h
    exact hleft (halways.last hrun _ (List.mem_of_getElem? hth') hend)
  · intro halong k hk
    refine always_of_along (J := AllServe) (C := InTime) (fun _ _ _ hs hc hstep =>
      (allServe_step hstep).mpr ⟨hs, hc⟩) (fun _ _ _ hs _ hc hstep =>
        ((allServe_step hstep).mpr ⟨hs, hc⟩).handled) hinit hinit.handled ?_
    exact along_append.mpr ⟨halong, fun m' _ => along_threadsOnly hk m'⟩

/-- The first and the second `LIST` of one client. -/
def listRequest (seqnum : BitVec 16) : Received :=
  ⟨7, WireFormat.wireBytes { newS64Packet 0 ['L', 'I', 'S', 'T'] [] flagUnreliable with seqnum := seqnum },
    ⟨0, 0, true⟩, false⟩

/-- The second comes when the thread of the first has ended. -/
def patientRun : List Label :=
  [.receive (listRequest 0), .find, .send, .work 0, .work 0,
    .receive (listRequest 1), .check 7, .find, .send]

theorem handled_patientRun : Always step Handled init patientRun := by
  obtain ⟨m, hm⟩ : ∃ m, run step init patientRun = some m :=
    Option.isSome_iff_exists.mp (by decide +kernel)
  have hall := (handled_iff hm).mpr (by decide +kernel)
  simpa using hall [] (by simp [ThreadsOnly])

/-- Both come before the thread polls. -/
def hurriedRun : List Label :=
  [.receive (listRequest 0), .find, .send, .receive (listRequest 1), .check 7, .find, .send,
    .work 0, .work 0]

/-- The thread ends while the main loop has it in hand for the second. -/
def overtakenRun : List Label :=
  [.receive (listRequest 0), .find, .send, .work 0, .receive (listRequest 1), .check 7, .find,
    .work 0, .send]

/-- A thread ends with the second request in its queue, and one gets it when it has ended. -/
theorem not_handled_runs :
    ¬ Always step Handled init hurriedRun ∧ ¬ Always step Handled init overtakenRun := by
  have hstuck : ∀ l, (run step init l).map (fun m => m.threads.map fun th =>
      (decide (th.phase = .ended), th.msgqueue.length)) = some [(true, 1)] →
        ¬ Always step Handled init l := by
    intro l hl h
    obtain ⟨m, hm, hthreads⟩ := Option.map_eq_some_iff.mp hl
    obtain ⟨th, rest, hth, hone, -⟩ := List.map_eq_cons_iff.mp hthreads
    rw [Prod.mk.injEq, decide_eq_true_eq] at hone
    have hnil := h.last hm th (by simp [hth]) hone.1
    simp [hnil] at hone
  exact ⟨hstuck hurriedRun (by decide +kernel), hstuck overtakenRun (by decide +kernel)⟩

end N64NetLib.Master.Dispatch
