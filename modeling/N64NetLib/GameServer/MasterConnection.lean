import N64NetLib.Udp.AckFields

/-! # Does a game server register again when the master asks it to?

`MasterConnectionThread` of the game servers (the two servers have the same one, but for the payload of
their packets). The thread registers, and then sends a heartbeat every three minutes. After each of these
packets it waits for the `ACK` of the master (`WaitAck`), with a resend a second. The master's packets
come into `msgqueue` in any order: they may be late, lost or doubled (`Label.arrive`).

A `REGISTER` of the master is answered where the loop begins. But `WaitAck` takes packets from the same
queue and passes over all that are no `ACK`, and the master sends its `REGISTER` right behind the `ACK` of
the heartbeat that made it ask. `prompt_of_heeded`: in the runs in which `WaitAck` takes no `REGISTER`,
and no `SendPacket` of an answer fails, no heartbeat goes out before the answer. -/

namespace N64NetLib.GameServer.MasterConnection

open N64NetLib.Lib.Run N64NetLib.Packet N64NetLib.Packet.Basic N64NetLib.Udp.Handler
open N64NetLib.Udp.AckFields

/-! ### The packets -/

def ackType : List Char := ['A', 'C', 'K']

def registerType : List Char := ['R', 'E', 'G', 'I', 'S', 'T', 'E', 'R']

def heartbeatType : List Char := ['H', 'E', 'A', 'R', 'T', 'B', 'E', 'A', 'T']

/-- `GetType`. -/
def getType (pkt : AbstractPacket) : List Char :=
  match pkt.body with
  | .s64 type => type
  | .netlib .. => []

/-- A packet of the master, an `ACK` or a `REGISTER`: both are unreliable and have no payload. -/
structure Reply where
  register : Bool
  seqnum : BitVec 16
  ack : BitVec 16
  ackbitfield : BitVec 16

def Reply.pkt (r : Reply) : AbstractPacket :=
  { newS64Packet 0 (if r.register then registerType else ackType) [] flagUnreliable with
    seqnum := r.seqnum, ack := r.ack, ackbitfield := r.ackbitfield }

/-- The datagram of the packet. -/
def Reply.bytes (r : Reply) : List UInt8 := WireFormat.wireBytes r.pkt

/-- `ReadS64Packet`. -/
def readS64Packet (call : Call) (h : UDPHandler) (reply : List UInt8) : Received :=
  readPacket .java .s64 call h 0 0 reply fun _ => 0

/-- The datagram is a `REGISTER` packet. -/
def isRegister (reply : List UInt8) : Bool :=
  match Lang.java.decode .s64 reply fun _ => 0 with
  | .ok (some pkt) => getType pkt = registerType
  | _ => false

/-! ### The thread -/

/-- Where the thread is: in front of the `poll` of its loop, of the `SendPacket` of a `REGISTER`, of the
three minutes' sleep and the heartbeat behind it, or in `WaitAck` for one of the two. -/
inductive Stage
  | polling
  | registering
  | sleeping
  | waiting (register : Bool)
  | ended
deriving DecidableEq

/-- What happens at the thread: it takes a `REGISTER` from its queue after the first registration, or a
packet of this type goes out. -/
inductive Event
  | took
  | sent (type : List Char)
deriving DecidableEq

/-- `MasterConnectionThread`, and what has happened so far. -/
structure State where
  handler : UDPHandler
  msgqueue : List (List UInt8)
  firsttime : Bool
  stage : Stage
  log : List Event
deriving DecidableEq

/-- The beginning of `run`. -/
def init : State := ⟨newUDPHandler, [], true, .polling, []⟩

/-- A datagram of the master is put into the queue, or the thread goes on. -/
inductive Label
  | arrive (r : Reply)
  | work (call : Call) (calls : ℕ → Call)

/-- What went out. -/
def sends (out : List Datagram) : List Event := out.map fun d => .sent (getType d.pkt)

/-- The thread takes a datagram from its queue. -/
def State.take (s : State) (reply : List UInt8) (rest : List (List UInt8)) : State :=
  { s with
    msgqueue := rest
    log := s.log ++ if !s.firsttime && isRegister reply then [.took] else [] }

/-- The handler was used, and the thread is at this stage then. -/
def State.after (s : State) (h : UDPHandler) (out : List Datagram) (stage : Stage) : State :=
  { s with handler := h, log := s.log ++ sends out, stage := stage }

/-- Where an exception leads: the inner `catch` of a registration gives up the first time and for a bad
version, the outer one begins the loop again. -/
def caught (firsttime register : Bool) : Exn → Stage
  | .badPacketVersion _ => if register then .ended else .polling
  | _ => if register then (if firsttime then .ended else .sleeping) else .polling

variable (data : List UInt8)

/-- The thread goes on to the next thing it sends, polls or waits for. -/
def work (s : State) (call : Call) (calls : ℕ → Call) : State :=
  match s.stage with
  | .polling =>
    match s.msgqueue with
    | [] => { s with stage := if s.firsttime then .registering else .sleeping }
    | reply :: rest =>
      let s := s.take reply rest
      if s.firsttime then { s with stage := .registering }
      else
        let r := readS64Packet call s.handler reply
        s.after r.handler r.out
          (match r.result with
          | .ok (some pkt) => if getType pkt = registerType then .registering else .sleeping
          -- `pkt.GetType()` on null throws, and is caught like the other exceptions
          | .ok none => .sleeping
          | .error e => caught s.firsttime true e)
  | .registering =>
    let r := sendPacket .java call s.handler (newS64Packet 0 registerType data flagExplicitack)
    s.after r.handler r.out
      (match r.exn with
      | none => .waiting true
      | some e => caught s.firsttime true e)
  | .waiting register =>
    match s.msgqueue with
    | [] =>
      let r := resendMissingPackets .java calls s.handler
      s.after r.handler r.out
        (match r.exn with
        | none => .waiting register
        | some e => caught s.firsttime register e)
    | reply :: rest =>
      let s := s.take reply rest
      let r := readS64Packet call s.handler reply
      match r.result with
      | .ok (some pkt) =>
        if getType pkt = ackType then
          { s.after r.handler r.out (if register then .sleeping else .polling) with
            firsttime := s.firsttime && !register }
        else s.after r.handler r.out (.waiting register)
      | .ok none => s.after r.handler r.out (.waiting register)
      | .error e => s.after r.handler r.out (caught s.firsttime register e)
  | .sleeping =>
    let r := sendPacket .java call s.handler (newS64Packet 0 heartbeatType data flagExplicitack)
    s.after r.handler r.out
      (match r.exn with
      | none => .waiting false
      | some e => caught s.firsttime false e)
  | .ended => s

/-- One step. -/
def step (s : State) : Label → Option State
  | .arrive r => some { s with msgqueue := s.msgqueue ++ [r.bytes] }
  | .work call calls => if s.stage = .ended then none else some (work data s call calls)

/-! ### What the master may expect -/

/-- A `REGISTER` was taken, and none has gone out since. -/
def owed (log : List Event) : Bool :=
  log.foldl (fun owes e =>
    match e with
    | .took => true
    | .sent type => owes && type ≠ registerType) false

/-- **Every `REGISTER` is answered before the next heartbeat.** -/
def Prompt (log : List Event) : Prop :=
  ∀ before after, log = before ++ .sent heartbeatType :: after → owed before = false

/-- What a step needs once the server is registered: `WaitAck` takes no `REGISTER`, and the socket takes
the answer to one. -/
def Heeded (s : State) : Label → Prop
  | .arrive _ => True
  | .work call _ =>
    s.firsttime = false →
      match s.stage with
      | .waiting _ => ∀ reply ∈ s.msgqueue.head?, isRegister reply = false
      | .registering => call.sent = true
      | _ => True

instance decidableHeeded (s : State) : ∀ a, Decidable (Heeded s a)
  | .arrive _ => isTrue trivial
  | .work call calls => by
    unfold Heeded
    cases s.stage <;> infer_instance

/-! ### The log -/

theorem owed_concat (log : List Event) (e : Event) :
    owed (log ++ [e]) =
      match e with
      | .took => true
      | .sent type => owed log && type ≠ registerType := by
  rw [owed, List.foldl_append]
  rfl

/-- Nothing is owed once a `REGISTER` went out. -/
theorem owed_register (log : List Event) : owed (log ++ [.sent registerType]) = false := by
  rw [owed_concat]
  simp

/-- One more event keeps a log prompt, unless it is a heartbeat that something is owed before. -/
theorem Prompt.concat {log : List Event} (h : Prompt log) {e : Event}
    (he : e = .sent heartbeatType → owed log = false) : Prompt (log ++ [e]) := by
  intro before after hsplit
  rcases List.eq_nil_or_concat after with rfl | ⟨rest, x, rfl⟩
  · obtain ⟨hlog, hone⟩ := List.append_inj' hsplit rfl
    rw [← hlog]
    exact he (List.cons.inj hone).1
  · rw [List.concat_eq_append, ← List.cons_append, ← List.append_assoc] at hsplit
    obtain ⟨hlog, -⟩ := List.append_inj' hsplit rfl
    exact h before rest hlog

/-- Nothing is owed after what was sent if nothing was before. -/
theorem prompt_sends : ∀ (out : List Datagram) {log : List Event}, Prompt log → owed log = false →
    Prompt (log ++ sends out) ∧ owed (log ++ sends out) = false
  | [], log, h, howed => by simpa [sends] using ⟨h, howed⟩
  | d :: out, log, h, howed => by
    have hone : owed (log ++ [.sent (getType d.pkt)]) = false := by
      rw [owed_concat, howed]
      rfl
    have hrest := prompt_sends out (h.concat (e := .sent (getType d.pkt)) fun _ => howed) hone
    rw [List.append_assoc] at hrest
    exact hrest

/-! ### Reading the master's packets -/

theorem wellFormed_reply (r : Reply) : WireFormat.WellFormed r.pkt := by
  refine ⟨UInt8.le_refl _, fun type ht => ?_, ?_⟩
  · have htype : type = if r.register then registerType else ackType := by
      injection ht with ht
      exact ht.symm
    rw [htype]
    split_ifs
    · exact ⟨by decide, by simp [registerType]⟩
    · exact ⟨by decide, by simp [ackType]⟩
  · simp only [WireFormat.wireLength, Reply.pkt, newS64Packet]
    split_ifs <;> decide

theorem decode_reply (r : Reply) (junk : ℕ → UInt8) :
    Lang.java.decode .s64 r.bytes junk = .ok (some r.pkt) :=
  Lang.java.decode_eq (wellFormed_reply r) junk

theorem getType_reply (r : Reply) :
    getType r.pkt = if r.register then registerType else ackType := rfl

theorem isRegister_reply (r : Reply) : isRegister r.bytes = r.register := by
  rw [isRegister, decode_reply]
  cases hr : r.register <;> simp [getType_reply, hr, registerType, ackType]

/-- **The thread reads every packet of the master**: none is a duplicate, as none is reliable, and none
is answered. -/
theorem read_reply (r : Reply) (call : Call) {h : UDPHandler} (hrx : h.acksleftRx = []) :
    (readS64Packet call h r.bytes).result = .ok (some r.pkt) ∧
      (readS64Packet call h r.bytes).out = [] ∧
      (readS64Packet call h r.bytes).handler.acksleftRx = [] := by
  have hdup : isDuplicate h { r.pkt with ref := 0 } = false := by simp [isDuplicate, hrx]
  have hask : AbstractPacket.explicitAck { r.pkt with ref := 0 } = false := by
    show decide (flagUnreliable &&& flagExplicitack ≠ 0) = false
    decide
  have hrel : AbstractPacket.reliable { r.pkt with ref := 0 } = false := by
    show decide (flagUnreliable &&& flagUnreliable = 0) = false
    decide
  have hread : readS64Packet call h r.bytes =
      ⟨accept .java h { r.pkt with ref := 0 }, [], some true, .ok (some r.pkt)⟩ := by
    simp only [readS64Packet, readPacket, decode_reply, handlePacketSequence, hdup, hask,
      Bool.false_eq_true, if_false]
    rfl
  rw [hread]
  exact ⟨rfl, rfl, by simp [accept, hrel, hrx]⟩

/-! ### Sending -/

/-- The packets of the server fit. -/
def Fits (data : List UInt8) : Prop :=
  (Java.puts (newS64Packet 0 registerType data flagExplicitack)).length ≤ packetMaxSize

/-- How long the bytes of a packet are does not depend on its header. -/
theorem length_puts_firstSent (call : Call) (h : UDPHandler) :
    (Java.puts (firstSent .java call h (newS64Packet 0 registerType data flagExplicitack))).length =
      (Java.puts (newS64Packet 0 registerType data flagExplicitack)).length := by
  simp [Java.puts, firstSent, newS64Packet]

/-- A `REGISTER` that goes out fits. -/
theorem fits_of_sent {call : Call} {h : UDPHandler}
    (hexn : (sendPacket .java call h (newS64Packet 0 registerType data flagExplicitack)).exn = none) :
    Fits data := by
  have hsent := sendPacket_sent hexn
  rw [sendPacket_first .java call h rfl hsent] at hexn
  by_contra hno
  have hlen := length_puts_firstSent data call h
  have herror : Lang.java.getBytes
      (firstSent .java call h (newS64Packet 0 registerType data flagExplicitack)) =
        .error .bufferOverflow := by
    rw [Lang.getBytes, Java.getBytes, if_neg (by rw [hlen]; exact hno)]
  rw [herror] at hexn
  cases hexn

/-- A `REGISTER` that fits goes out if the socket takes it. -/
theorem sent_of_fits (hfits : Fits data) {call : Call} (hcall : call.sent = true) (h : UDPHandler) :
    (sendPacket .java call h (newS64Packet 0 registerType data flagExplicitack)).exn = none ∧
      sends (sendPacket .java call h (newS64Packet 0 registerType data flagExplicitack)).out =
        [.sent registerType] := by
  have hlen := length_puts_firstSent data call h
  have hbytes : Lang.java.getBytes
      (firstSent .java call h (newS64Packet 0 registerType data flagExplicitack)) =
        .ok (Java.puts (firstSent .java call h (newS64Packet 0 registerType data flagExplicitack))) := by
    rw [Lang.getBytes, Java.getBytes, if_pos (by rw [hlen]; exact hfits)]
  rw [sendPacket_first .java call h rfl hcall, hbytes]
  exact ⟨rfl, rfl⟩

/-! ### The invariant -/

/-- **The invariant.** The handler holds no packet of the master, the queue has none but these, a server
that is registered fits its packet, and what is owed is being answered. -/
structure Inv (s : State) : Prop where
  rx : s.handler.acksleftRx = []
  queue : ∀ reply ∈ s.msgqueue, ∃ r : Reply, reply = r.bytes
  fits : s.firsttime = false ∨ s.stage = .waiting true → Fits data
  owed : owed s.log = true → s.stage = .registering ∧ s.firsttime = false
  prompt : Prompt s.log

theorem inv_init : Inv data init := by
  refine ⟨rfl, fun reply h => ?_, ?_, ?_, ?_⟩
  · simp [init] at h
  · simp [init]
  · simp [init, MasterConnection.owed]
  · intro before after h
    simp [init] at h

variable {data}

/-- The handler was used. -/
theorem inv_after {s : State} {h : UDPHandler} {out : List Datagram} {stage : Stage}
    (hrx : h.acksleftRx = []) (hqueue : ∀ reply ∈ s.msgqueue, ∃ r : Reply, reply = r.bytes)
    (hfits : s.firsttime = false ∨ stage = .waiting true → Fits data)
    (howed : MasterConnection.owed (s.log ++ sends out) = true →
      stage = .registering ∧ s.firsttime = false)
    (hprompt : Prompt (s.log ++ sends out)) : Inv data (s.after h out stage) :=
  ⟨hrx, hqueue, hfits, howed, hprompt⟩

/-- The handler was used, and nothing was owed. -/
theorem Inv.after {s : State} (hs : Inv data s) (howed : MasterConnection.owed s.log = false)
    {h : UDPHandler} (hrx : h.acksleftRx = []) (out : List Datagram) (stage : Stage)
    (hfits : stage = .waiting true → Fits data) : Inv data (s.after h out stage) := by
  obtain ⟨hprompt, hnone⟩ := prompt_sends out hs.prompt howed
  refine inv_after hrx hs.queue ?_ (fun ho => ?_) hprompt
  · rintro (hfirst | hstage)
    · exact hs.fits (Or.inl hfirst)
    · exact hfits hstage
  · rw [hnone] at ho
    cases ho

/-- The thread takes a packet that is not owed an answer. -/
theorem Inv.take {s : State} (hs : Inv data s) {reply : List UInt8} {rest : List (List UInt8)}
    (hqueue : s.msgqueue = reply :: rest) (hno : s.firsttime = false → isRegister reply = false) :
    Inv data (s.take reply rest) ∧ (s.take reply rest).log = s.log := by
  have hlog : (s.take reply rest).log = s.log := by
    have hnone : (!s.firsttime && isRegister reply) = false := by
      cases hfirst : s.firsttime with
      | false => simp [hno hfirst]
      | true => rfl
    simp [State.take, hnone]
  refine ⟨⟨hs.rx, fun d hd => hs.queue d ?_, hs.fits, ?_, ?_⟩, hlog⟩
  · rw [hqueue]
    exact List.mem_cons_of_mem _ hd
  · rw [hlog]
    exact hs.owed
  · rw [hlog]
    exact hs.prompt

theorem Inv.owed_eq_false {s : State} (hs : Inv data s) (h : s.stage ≠ .registering) :
    MasterConnection.owed s.log = false := by
  cases howed : MasterConnection.owed s.log with
  | false => rfl
  | true => exact absurd (hs.owed howed).1 h

/-- The thread goes on to another place, and nothing is owed. -/
theorem Inv.goto {s : State} (hs : Inv data s) (howed : MasterConnection.owed s.log = false)
    (stage : Stage) (hstage : stage ≠ .waiting true) : Inv data { s with stage := stage } := by
  refine ⟨hs.rx, hs.queue, ?_, fun ho => ?_, hs.prompt⟩
  · rintro (hfirst | hwait)
    · exact hs.fits (Or.inl hfirst)
    · exact absurd hwait hstage
  · have ho' : MasterConnection.owed s.log = true := ho
    rw [howed] at ho'
    cases ho'

/-- The thread takes note whether it is registered, and nothing is owed. -/
theorem Inv.first {s : State} (hs : Inv data s) (howed : MasterConnection.owed s.log = false)
    (firsttime : Bool) (hfits : firsttime = false → Fits data) :
    Inv data { s with firsttime := firsttime } := by
  refine ⟨hs.rx, hs.queue, ?_, fun ho => ?_, hs.prompt⟩
  · rintro (hfirst | hwait)
    · exact hfits hfirst
    · exact hs.fits (Or.inr hwait)
  · have ho' : MasterConnection.owed s.log = true := ho
    rw [howed] at ho'
    cases ho'

theorem caught_ne (firsttime register : Bool) (e : Exn) (register' : Bool) :
    caught firsttime register e ≠ .waiting register' := by
  unfold caught
  split <;> split_ifs <;> simp

/-! ### One step -/

theorem inv_polling {s : State} (hs : Inv data s) (hstage : s.stage = .polling) (call : Call)
    (calls : ℕ → Call) : Inv data (work data s call calls) := by
  have howed : owed s.log = false := hs.owed_eq_false (by rw [hstage]; simp)
  unfold work
  simp only [hstage]
  cases hqueue : s.msgqueue with
  | nil =>
    have hnext := hs.goto howed (if s.firsttime then .registering else .sleeping)
      (by split_ifs <;> simp)
    rw [hqueue] at hnext
    exact hnext
  | cons reply rest =>
    obtain ⟨r, rfl⟩ := hs.queue reply (by rw [hqueue]; simp)
    dsimp only
    have hfirst : (s.take r.bytes rest).firsttime = s.firsttime := rfl
    rw [hfirst]
    cases hf : s.firsttime with
    | true =>
      obtain ⟨htake, hlog⟩ := hs.take hqueue (fun h => absurd h (by rw [hf]; simp))
      have hnext := htake.goto (by rw [hlog]; exact howed) .registering (by simp)
      rw [hfirst, hf] at hnext
      exact hnext
    | false =>
      obtain ⟨hresult, hout, hrx⟩ := read_reply r call (h := (s.take r.bytes rest).handler) hs.rx
      simp only [Bool.false_eq_true, if_false, hresult, hout]
      cases hr : r.register with
      | false =>
        have hno : isRegister r.bytes = false := by rw [isRegister_reply, hr]
        obtain ⟨htake, hlog⟩ := hs.take hqueue fun _ => hno
        refine htake.after (by rw [hlog]; exact howed) hrx [] _ fun h => ?_
        split_ifs at h
      | true =>
        -- the `REGISTER` is owed an answer from here on, and its answer is what comes next
        have hlog : (s.take r.bytes rest).log = s.log ++ [.took] := by
          simp [State.take, hf, isRegister_reply, hr]
        have hstage' : (if getType r.pkt = registerType then Stage.registering else .sleeping) =
            .registering := by
          rw [getType_reply, hr]
          rfl
        rw [hstage']
        refine inv_after hrx (fun d hd => hs.queue d ?_) (fun _ => hs.fits (Or.inl hf))
          (fun _ => ⟨rfl, hf⟩) ?_
        · rw [hqueue]
          exact List.mem_cons_of_mem _ hd
        · rw [hlog, sends, List.map_nil, List.append_nil]
          exact hs.prompt.concat fun h => by cases h

theorem inv_registering {s : State} (hs : Inv data s) (hstage : s.stage = .registering) {call : Call}
    (hcall : s.firsttime = false → call.sent = true) (calls : ℕ → Call) :
    Inv data (work data s call calls) := by
  have hrx : (sendPacket .java call s.handler
      (newS64Packet 0 registerType data flagExplicitack)).handler.acksleftRx = [] := by
    rw [sendPacket_rx, hs.rx]
  unfold work
  simp only [hstage]
  cases howed : owed s.log with
  | false =>
    refine hs.after howed hrx _ _ fun hwait => ?_
    split at hwait
    · next hexn => exact fits_of_sent data hexn
    · exact absurd hwait (caught_ne _ _ _ _)
  | true =>
    have hfirst := (hs.owed howed).2
    have hfits : Fits data := hs.fits (Or.inl hfirst)
    obtain ⟨hexn, hout⟩ := sent_of_fits data hfits (hcall hfirst) s.handler
    rw [hexn]
    refine inv_after hrx hs.queue (fun _ => hfits) (fun ho => ?_) ?_
    · rw [hout, owed_register] at ho
      cases ho
    · rw [hout]
      exact hs.prompt.concat fun h => absurd h (by decide)

theorem inv_waiting {s : State} (hs : Inv data s) {register : Bool} (hstage : s.stage = .waiting register)
    (hno : s.firsttime = false → ∀ reply ∈ s.msgqueue.head?, isRegister reply = false) (call : Call)
    (calls : ℕ → Call) : Inv data (work data s call calls) := by
  have howed : owed s.log = false := hs.owed_eq_false (by rw [hstage]; simp)
  have hfits : Stage.waiting register = .waiting true → Fits data := fun h =>
    hs.fits (Or.inr (hstage.trans h))
  unfold work
  simp only [hstage]
  cases hqueue : s.msgqueue with
  | nil =>
    have hrx : (resendMissingPackets .java calls s.handler).handler.acksleftRx = [] := by
      rw [resendMissingPackets, resendLoop_rx, hs.rx]
    refine hs.after howed hrx _ _ fun hwait => ?_
    split at hwait
    · exact hfits hwait
    · exact absurd hwait (caught_ne _ _ _ _)
  | cons reply rest =>
    obtain ⟨r, rfl⟩ := hs.queue reply (by rw [hqueue]; simp)
    obtain ⟨htake, hlog⟩ := hs.take hqueue fun hf => hno hf r.bytes (by rw [hqueue]; rfl)
    obtain ⟨hresult, hout, hrx⟩ := read_reply r call (h := (s.take r.bytes rest).handler) hs.rx
    have howed' : owed (s.take r.bytes rest).log = false := by rw [hlog]; exact howed
    simp only [hresult, hout]
    split_ifs with hack hregister
    · have hnext := htake.after howed' hrx [] .sleeping fun h => by cases h
      exact hnext.first (hnext.owed_eq_false (by simp [State.after])) _ fun _ =>
        hfits (by rw [hregister])
    · have hnext := htake.after howed' hrx [] .polling fun h => by cases h
      refine hnext.first (hnext.owed_eq_false (by simp [State.after])) _ fun h =>
        hnext.fits (Or.inl ?_)
      simpa [hregister, State.after, State.take] using h
    · exact htake.after howed' hrx [] _ hfits

theorem inv_sleeping {s : State} (hs : Inv data s) (hstage : s.stage = .sleeping) (call : Call)
    (calls : ℕ → Call) : Inv data (work data s call calls) := by
  have howed : owed s.log = false := hs.owed_eq_false (by rw [hstage]; simp)
  have hrx : (sendPacket .java call s.handler
      (newS64Packet 0 heartbeatType data flagExplicitack)).handler.acksleftRx = [] := by
    rw [sendPacket_rx, hs.rx]
  unfold work
  simp only [hstage]
  refine hs.after howed hrx _ _ fun hwait => ?_
  split at hwait
  · cases hwait
  · exact absurd hwait (caught_ne _ _ _ _)

/-- **A step that meets the condition keeps the invariant.** -/
theorem inv_step {s s' : State} {a : Label} (hs : Inv data s) (hheeded : Heeded s a)
    (hstep : step data s a = some s') : Inv data s' := by
  cases a with
  | arrive r =>
    obtain rfl := Option.some.inj hstep
    refine ⟨hs.rx, fun d hd => ?_, hs.fits, hs.owed, hs.prompt⟩
    rcases List.mem_append.mp hd with hd | hd
    · exact hs.queue d hd
    · exact ⟨r, List.mem_singleton.mp hd⟩
  | work call calls =>
    simp only [step] at hstep
    split_ifs at hstep with hend
    obtain rfl := Option.some.inj hstep
    cases hstage : s.stage with
    | polling => exact inv_polling hs hstage call calls
    | registering =>
      refine inv_registering hs hstage (fun hf => ?_) calls
      have hcall := hheeded hf
      rw [hstage] at hcall
      exact hcall
    | sleeping => exact inv_sleeping hs hstage call calls
    | waiting register =>
      refine inv_waiting hs hstage (fun hf => ?_) call calls
      have hno := hheeded hf
      rw [hstage] at hno
      exact hno
    | ended => exact absurd hstage hend

/-- **The server registers again**: in every run whose steps meet the condition, every `REGISTER` taken is
answered before the next heartbeat. -/
theorem prompt_of_heeded (data : List UInt8) (l : List Label) (h : Along (step data) Heeded init l) :
    Always (step data) (fun s => Prompt s.log) init l :=
  always_of_along (J := Inv data) (fun _ _ _ hs hheeded hstep => inv_step hs hheeded hstep)
    (fun _ _ _ hs _ hheeded hstep => (inv_step hs hheeded hstep).prompt) (inv_init data)
    (inv_init data).prompt h

/-- The socket takes everything. -/
def go : Label := .work ⟨0, 0, true⟩ fun _ => ⟨0, 0, true⟩

def ack : Label := .arrive ⟨false, 0, 0, 0⟩

def register : Label := .arrive ⟨true, 0, 0, 0⟩

/-- The server registers and sends a heartbeat; the `REGISTER` comes when the `ACK` has been taken. -/
def askedLate : List Label :=
  [go, go, ack, go, go, ack, go, register, go, go, ack, go, go]

theorem prompt_askedLate : Always (step []) (fun s => Prompt s.log) init askedLate :=
  prompt_of_heeded [] askedLate (by decide +kernel)

/-- The `REGISTER` overtakes the `ACK` of the heartbeat: `WaitAck` passes over it. -/
def askedEarly : List Label :=
  [go, go, ack, go, go, register, ack, go, go, go, go]

theorem not_prompt_askedEarly :
    ¬ ∀ data l, Always (step data) (fun s => Prompt s.log) init l := by
  intro hall
  obtain ⟨s, hs⟩ : ∃ s, run (step []) init askedEarly = some s :=
    Option.isSome_iff_exists.mp (by decide +kernel)
  have hlog : (run (step []) init askedEarly).map (·.log) =
      some [.sent registerType, .sent heartbeatType, .took, .sent heartbeatType] := by decide +kernel
  rw [hs, Option.map_some, Option.some.injEq] at hlog
  have hprompt : Prompt s.log := (hall [] askedEarly).last hs
  have hnone := hprompt [.sent registerType, .sent heartbeatType, .took] [] hlog
  revert hnone
  decide

end N64NetLib.GameServer.MasterConnection
