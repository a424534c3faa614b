import N64NetLib.N64.Machine
import N64NetLib.Packet.WireFormat

/-! # The packet in the write buffer

What the write buffer is for: a packet is built in it. `Draft` is a packet while it is built, as the
application sees it, with operations named after those of the library; `Holds` says that the buffer
has it, and each function of the library keeps this (`holds_start`, `holds_write`, `holds_setflags`).
What is passed to `usb_write` after a send function is then the encoding of the packet with the mask
of its recipients (`packet_commit`), and a program that builds a packet and sends it gives away the bytes
that the client decodes to what was written (`sent_decodes`). -/

namespace N64NetLib.N64.Builder

open N64NetLib.Lib.BigEndian N64NetLib.Lib.Memory N64NetLib.Lib.Run N64NetLib.Packet.Basic
open N64NetLib.Packet N64NetLib.Packet.Sequence N64NetLib.N64.Netlib N64NetLib.N64.Machine

/-- A packet while it is built. -/
structure Draft where
  type : UInt8
  flags : UInt8
  data : List UInt8
deriving DecidableEq, Repr

/-- An empty packet. -/
def Draft.start (type : UInt8) : Draft := ⟨type, 0, []⟩

/-- Something more in the payload, if there is room. -/
def Draft.write (v : Value) (d : Draft) : Draft :=
  if packetHeadersize + d.data.length + v.toBytes.length > packetMaxSize then d
  else { d with data := d.data ++ v.toBytes }

/-- Other flags. -/
def Draft.setflags (flags : UInt8) (d : Draft) : Draft := { d with flags := flags }

/-- The packet that goes to these recipients. -/
def Draft.packet (d : Draft) (mask : BitVec 32) : AbstractPacket :=
  { newNetLibPacket 0 d.type d.data d.flags with body := .netlib d.type mask 0 }

/-- The parts of the buffer that no packet changes: the header and the sequence fields. -/
structure Ready (g : Globals) : Prop where
  header : block g.writebuffer 0 4 = packetHeader .netlib ++ [netlibVersion]
  sequence : block g.writebuffer 6 6 = List.replicate 6 0

/-- The buffer has the packet. -/
structure Holds (g : Globals) (d : Draft) : Prop extends Ready g where
  type : g.writebuffer 4 = d.type
  flags : g.writebuffer 5 = d.flags
  size : g.writecursize = packetHeadersize + d.data.length
  data : block g.writebuffer packetHeadersize d.data.length = d.data
  fits : g.writecursize ≤ packetMaxSize

theorem ready_init (g : Globals) : Ready (netlibInitialize g) :=
  ⟨block_store_of_le (by decide) |>.trans block_store, block_store⟩

theorem ready_setclient {g : Globals} (h : Ready g) (num : UInt8) : Ready (netlibSetclient num g) :=
  ⟨h.header, h.sequence⟩

/-- A store in front of the payload and behind the header and the sequence fields. -/
theorem Ready.store {g g' : Globals} (h : Ready g) {i : ℕ} {l : List UInt8}
    (hbuffer : g'.writebuffer = store g.writebuffer i l)
    (hi : 4 ≤ i ∧ i + l.length ≤ 6 ∨ 12 ≤ i) : Ready g' := by
  refine ⟨?_, ?_⟩
  · rw [hbuffer, block_store_of_le (by omega), h.header]
  · rcases hi with hi | hi
    · rw [hbuffer, block_store_of_ge (by omega), h.sequence]
    · rw [hbuffer, block_store_of_le (by omega), h.sequence]

theorem holds_start {g : Globals} (h : Ready g) (type : UInt8) :
    Holds (netlibStart type g) (.start type) where
  toReady := h.store rfl (Or.inl ⟨by simp, by simp⟩)
  type := by simp [netlibStart, store, Draft.start]
  flags := by simp [netlibStart, store, Draft.start]
  size := rfl
  data := rfl
  fits := by simp [netlibStart, packetHeadersize, packetMaxSize]

theorem holds_setflags {g : Globals} {d : Draft} (h : Holds g d) (flags : UInt8) :
    Holds (netlibSetflags flags g) (d.setflags flags) where
  toReady := h.toReady.store rfl (Or.inl ⟨by simp, by simp⟩)
  type := by simpa [netlibSetflags, store, Draft.setflags] using h.type
  flags := by simp [netlibSetflags, store, Draft.setflags]
  size := h.size
  data := (block_store_of_ge (by simp [packetHeadersize])).trans h.data
  fits := h.fits

/-- **Writing appends to the payload, or does nothing.** -/
theorem holds_write {g : Globals} {d : Draft} (h : Holds g d) (v : Value) :
    Holds (netlibWrite v g) (d.write v) := by
  have hsize := h.size
  unfold netlibWrite Draft.write
  rw [← hsize]
  split_ifs with hfull
  · exact h
  have h18 : packetHeadersize = 18 := rfl
  exact {
    toReady := h.toReady.store rfl (Or.inr (by omega))
    type := (store_of_lt (by omega)).trans h.type
    flags := (store_of_lt (by omega)).trans h.flags
    size := by simp only [List.length_append]; omega
    data := by
      rw [List.length_append, block_add, block_store_of_le (by omega), h.data, ← hsize, block_store]
    fits := by dsimp only; omega }

/-- Something that fits is appended. -/
theorem holds_write_of_fits {g : Globals} {d : Draft} (h : Holds g d) {v : Value}
    (hfits : packetHeadersize + d.data.length + v.toBytes.length ≤ packetMaxSize) :
    Holds (netlibWrite v g) { d with data := d.data ++ v.toBytes } := by
  have hwrite := holds_write h v
  rwa [Draft.write, if_neg (Nat.not_lt.mpr hfits)] at hwrite

/-! ### Sending -/

/-- A draft that is in the buffer fits a packet. -/
theorem Holds.wellFormed {g : Globals} {d : Draft} (h : Holds g d) (mask : BitVec 32) :
    WireFormat.WellFormed (d.packet mask) where
  version := UInt8.le_refl _
  type := by simp [Draft.packet]
  size := by
    have hfits := h.fits
    rw [h.size] at hfits
    exact hfits

/-- **What a send function commits is the encoding of the packet.** -/
theorem packet_commit {g : Globals} {d : Draft} (h : Holds g d) (mask : BitVec 32) :
    (commit mask g).packet = WireFormat.wireBytes (d.packet mask) := by
  have hlen : datasize g = BitVec.ofNat 16 d.data.length := by
    simp [datasize, h.size]
  have h18 : packetHeadersize = 18 := rfl
  have hsplit : (commit mask g).packet =
      block (commit mask g).writebuffer 0 4 ++ (block (commit mask g).writebuffer 4 2 ++
        (block (commit mask g).writebuffer 6 6 ++ (block (commit mask g).writebuffer 12 4 ++
          (block (commit mask g).writebuffer 16 2 ++
            block (commit mask g).writebuffer 18 d.data.length)))) := by
    simp only [Globals.packet, show (commit mask g).writecursize = 4 + (2 + (6 + (4 + (2 +
      d.data.length)))) by simp only [commit, h.size]; omega, block_add]
  have hfirst : block (commit mask g).writebuffer 4 2 = [d.type, d.flags] := by
    simp [commit, block, List.range'_succ, store, h.type, h.flags]
  have hmask : block (commit mask g).writebuffer 12 4 = be32 mask :=
    (block_store_of_le (by decide)).trans block_store
  have hdata : block (commit mask g).writebuffer 18 d.data.length = d.data := by
    simp only [commit]
    rw [block_store_of_ge (by simp), block_store_of_ge (by simp), ← h18, h.data]
  have hsize : block (commit mask g).writebuffer 16 2 = be16 (datasize g) := block_store
  have hready' : Ready { g with writebuffer := store g.writebuffer 12 (be32 mask) } :=
    h.toReady.store rfl (Or.inr (by omega))
  have hready : Ready (commit mask g) := hready'.store rfl (Or.inr (by omega))
  have hzero : List.replicate 6 (0 : UInt8) = be16 0 ++ be16 0 ++ be16 0 := by decide
  rw [hsplit, hready.header, hready.sequence, hfirst, hmask, hdata, hsize, hlen, hzero]
  simp [WireFormat.wireBytes, Draft.packet, netlibBytes, newNetLibPacket, netlibVersion,
    packetVersion]

/-! ### A program that builds and sends a packet -/

/-- What it does after `netlib_initialize`. -/
inductive Setup
  | setclient (num : UInt8)
  | register (type : UInt8) (callback : BitVec 32)

def Setup.call : Setup → Call
  | setclient num => .setclient num
  | register type callback => .register type callback

/-- What it does with the packet it has started. -/
inductive Edit
  | write (v : Value)
  | setflags (flags : UInt8)

def Edit.call : Edit → Call
  | write v => .write v
  | setflags flags => .setflags flags

/-- Where it sends it. -/
inductive Recipients
  | everyone
  | client (number : UInt8)
  | server

def Recipients.call (now : Now) : Recipients → Call
  | everyone => .broadcast now
  | client number => .send number now
  | server => .sendtoserver now

/-- The calls in front of the sending. -/
def buildCalls (cart : Cart) (setup : List Setup) (type : UInt8) (edits : List Edit) : List Call :=
  .init cart :: setup.map Setup.call ++ .start type :: edits.map Edit.call

/-- The client number it has set. -/
def number (setup : List Setup) : UInt8 :=
  setup.foldl (fun num c => match c with
    | .setclient num => num
    | .register .. => num) 0

/-- The recipients have a mask: the number in it is one of the 32 bits. -/
def Recipients.Defined (num : UInt8) : Recipients → Prop
  | everyone => 1 ≤ num.toNat ∧ num.toNat ≤ 32
  | client number => number.toNat < 32
  | server => True

/-- The mask that stands for the recipients. -/
def Recipients.mask (num : UInt8) : Recipients → BitVec 32
  | everyone => ~~~(1#32 <<< (num.toNat - 1))
  | client number => 1#32 <<< number.toNat
  | server => 0

/-- The flags it has set last. -/
def lastFlags (flags : UInt8) (edits : List Edit) : UInt8 :=
  edits.foldl (fun flags e => match e with
    | .setflags flags => flags
    | .write _ => flags) flags

/-- The writes that are accepted. -/
def accepted : Globals → List Edit → List Value
  | _, [] => []
  | g, .setflags flags :: edits => accepted (netlibSetflags flags g) edits
  | g, .write v :: edits =>
    if g.writecursize + v.toBytes.length > packetMaxSize then accepted g edits
    else v :: accepted (netlibWrite v g) edits

/-- What the next turn of the loop of `netlib_poll` gives to `usb_write`. -/
def handed (s : State) : Option (List UInt8) :=
  if (usbPoll s.usb).1 = 0 ∧ s.globals.sendafterpoll then some s.globals.packet else none

/-- Nothing is incoming. -/
def Quiet (u : Usb) : Prop := u.incoming = [] ∧ u.data = []

/-- Without callbacks `netlib_poll` notifies nobody. -/
structure Silent (g : Globals) : Prop where
  disconnect : g.funcptrDisconnect = 0
  reconnect : g.funcptrReconnect = 0

/-! ### The globals on the way -/

def Setup.apply : Setup → Globals → Globals
  | setclient num => netlibSetclient num
  | register type callback => netlibRegister type callback

def Edit.apply : Edit → Globals → Globals
  | write v => netlibWrite v
  | setflags flags => netlibSetflags flags

/-- The globals when the packet has been started. -/
def started (g : Globals) (setup : List Setup) (type : UInt8) : Globals :=
  netlibStart type (setup.foldl (fun g c => c.apply g) (netlibInitialize g))

/-- The globals when it has been built. -/
def built (g : Globals) (setup : List Setup) (type : UInt8) (edits : List Edit) : Globals :=
  edits.foldl (fun g e => e.apply g) (started g setup type)

/-- The setup keeps the buffer and the callbacks of the connection, and has the client number. -/
theorem ready_setup : ∀ (setup : List Setup) {g : Globals}, Ready g → Silent g →
    Ready (setup.foldl (fun g c => c.apply g) g) ∧ Silent (setup.foldl (fun g c => c.apply g) g) ∧
      (setup.foldl (fun g c => c.apply g) g).clnumber =
        setup.foldl (fun num c => match c with
          | .setclient num => num
          | .register .. => num) g.clnumber
  | [], g, hready, hsilent => ⟨hready, hsilent, rfl⟩
  | .setclient num :: setup, g, hready, hsilent =>
    ready_setup setup (ready_setclient hready num) ⟨hsilent.disconnect, hsilent.reconnect⟩
  | .register type callback :: setup, g, hready, hsilent => by
    have hregister : Ready (netlibRegister type callback g) ∧ Silent (netlibRegister type callback g) ∧
        (netlibRegister type callback g).clnumber = g.clnumber := by
      unfold netlibRegister
      split_ifs
      · exact ⟨hready, hsilent, rfl⟩
      · exact ⟨⟨hready.header, hready.sequence⟩, ⟨hsilent.disconnect, hsilent.reconnect⟩, rfl⟩
    have hrest := ready_setup setup hregister.1 hregister.2.1
    rw [hregister.2.2] at hrest
    exact hrest

/-- **What was written is in the buffer**, with the flags that were set last. -/
theorem holds_edits : ∀ (edits : List Edit) {g : Globals} {d : Draft}, Holds g d →
    Holds (edits.foldl (fun g e => e.apply g) g)
      ⟨d.type, lastFlags d.flags edits, d.data ++ (accepted g edits).flatMap Value.toBytes⟩
  | [], g, d, h => by simpa [accepted, lastFlags] using h
  | .setflags flags :: edits, g, d, h => holds_edits edits (holds_setflags h flags)
  | .write v :: edits, g, d, h => by
    have hrest := holds_edits edits (holds_write h v)
    have hsize := h.size
    unfold Draft.write at hrest
    rw [← hsize] at hrest
    simp only [List.foldl_cons, Edit.apply, lastFlags, accepted] at hrest ⊢
    split_ifs at hrest ⊢ with hfull
    · rwa [netlibWrite, if_pos hfull] at hrest ⊢
    · simpa using hrest

theorem silent_edits : ∀ (edits : List Edit) {g : Globals}, Silent g →
    Silent (edits.foldl (fun g e => e.apply g) g) ∧
      (edits.foldl (fun g e => e.apply g) g).clnumber = g.clnumber
  | [], g, h => ⟨h, rfl⟩
  | e :: edits, g, h => by
    have he : Silent (e.apply g) ∧ (e.apply g).clnumber = g.clnumber := by
      cases e with
      | setflags flags => exact ⟨⟨h.disconnect, h.reconnect⟩, rfl⟩
      | write v =>
        simp only [Edit.apply, netlibWrite]
        split_ifs
        · exact ⟨h, rfl⟩
        · exact ⟨⟨h.disconnect, h.reconnect⟩, rfl⟩
    have hrest := silent_edits edits he.1
    rwa [he.2] at hrest

/-! ### The steps -/

/-- Calls that do not poll, one after the other. -/
theorem run_calls (host : Host) : ∀ {cs : List Call} {s : State},
    (∀ c ∈ cs, ∀ s, (call host s c).stack = s.stack) → userRuns s.stack = true →
      run (Machine.step host) s (cs.map .call) = some (cs.foldl (call host) s)
  | [], s, _, _ => rfl
  | c :: cs, s, hcs, hruns => by
    refine run_cons.mpr ⟨call host s c, by simp [Machine.step, hruns], run_calls host ?_ ?_⟩
    · exact fun c' hc' => hcs c' (List.mem_cons_of_mem _ hc')
    · rwa [hcs c (by simp)]

theorem foldl_call {α : Type} {host : Host} {toCall : α → Call} {apply : α → Globals → Globals}
    (h : ∀ a s, call host s (toCall a) = { s with globals := apply a s.globals }) :
    ∀ (l : List α) (s : State), (l.map toCall).foldl (call host) s =
      { s with globals := l.foldl (fun g a => apply a g) s.globals }
  | [], s => rfl
  | a :: l, s => by rw [List.map_cons, List.foldl_cons, h, foldl_call h l]; rfl

/-- `netlib_poll` without callbacks comes to its loop. -/
theorem enterPoll_silent {s : State} (h : Silent s.globals) (now : Now) :
    (enterPoll now s).stack = .polling now.curtime :: s.stack ∧ (enterPoll now s).usb = s.usb ∧
      (enterPoll now s).globals.packet = s.globals.packet ∧
        (enterPoll now s).globals.sendafterpoll = s.globals.sendafterpoll ∧
          (enterPoll now s).written = s.written := by
  simp only [enterPoll, checkConnection, h.disconnect, h.reconnect]
  split_ifs <;> simp_all [Globals.packet]

/-- The mask is the one of the recipients. -/
theorem call_recipients (host : Host) {s : State} {dest : Recipients}
    (hdest : dest.Defined s.globals.clnumber) (now : Now) : call host s (dest.call now) =
      sendNow (commit (dest.mask s.globals.clnumber)) now s := by
  cases dest with
  | server => rfl
  | client number =>
    have hmask : sendMask host number = 1#32 <<< number.toNat := cppShiftOne_of_lt host hdest
    simp only [call, Recipients.call, Recipients.mask, sendNow, netlibSend, hmask]
  | everyone =>
    obtain ⟨hone, hmax⟩ := hdest
    have hk : (s.globals.clnumber.toNat : ℤ) - 1 = ((s.globals.clnumber.toNat - 1 : ℕ) : ℤ) := by omega
    have hmask : broadcastMask host s.globals = ~~~(1#32 <<< (s.globals.clnumber.toNat - 1)) := by
      rw [broadcastMask, hk, cppShiftOne_of_lt host (by omega)]
      exact BitVec.allOnes_and
    simp only [call, Recipients.call, Recipients.mask, sendNow, netlibBroadcast, hmask]

/-- **The packet that was built.** -/
theorem holds_built (g : Globals) (setup : List Setup) (type : UInt8) (edits : List Edit) :
    Holds (built g setup type edits) ⟨type, lastFlags 0 edits,
        (accepted (started g setup type) edits).flatMap Value.toBytes⟩ ∧
      Silent (built g setup type edits) ∧ (built g setup type edits).clnumber = number setup := by
  obtain ⟨hready, hsilent, hnumber⟩ := ready_setup setup (ready_init g) ⟨rfl, rfl⟩
  have hstarted : Silent (started g setup type) := ⟨hsilent.disconnect, hsilent.reconnect⟩
  obtain ⟨hbuilt, hclnumber⟩ := silent_edits edits hstarted
  exact ⟨holds_edits edits (holds_start hready type), hbuilt, hclnumber.trans hnumber⟩

/-- Building leads to the state with these globals. -/
theorem run_buildCalls (host : Host) {s : State} (hruns : userRuns s.stack = true) (cart : Cart)
    (setup : List Setup) (type : UInt8) (edits : List Edit) :
    run (Machine.step host) s ((buildCalls cart setup type edits).map .call) =
      some { s with globals := built s.globals setup type edits, usb := { s.usb with cart := cart } } := by
  have hsetup : ∀ c s, call host s (Setup.call c) = { s with globals := c.apply s.globals } := by
    intro c s
    cases c <;> rfl
  have hedit : ∀ e s, call host s (Edit.call e) = { s with globals := e.apply s.globals } := by
    intro e s
    cases e <;> rfl
  rw [run_calls host ?_ hruns]
  · simp only [buildCalls, List.cons_append, List.foldl_cons, List.foldl_append]
    rw [foldl_call hsetup, foldl_call hedit]
    rfl
  · intro c hc s
    simp only [buildCalls, List.cons_append, List.mem_cons, List.mem_append, List.mem_map] at hc
    rcases hc with rfl | ⟨c, -, rfl⟩ | rfl | ⟨e, -, rfl⟩
    · rfl
    · cases c <;> rfl
    · rfl
    · cases e <;> rfl

/-- There is nothing to read. -/
theorem usbPoll_quiet {u : Usb} (h : Quiet u) :
    (usbPoll u).1 = 0 ∧ (usbPoll u).2.data = [] ∧ (usbPoll u).2.cart = u.cart := by
  obtain ⟨hincoming, hdata⟩ := h
  unfold usbPoll
  split_ifs with hcart hleft
  · exact ⟨rfl, hdata, rfl⟩
  · exact absurd hdata hleft
  · simp [cartPoll, hincoming, hdata]

/-- A packet that is in the buffer is sent, with nothing incoming. -/
theorem send_quiet (host : Host) {s : State} {d : Draft} (hholds : Holds s.globals d)
    (hsilent : Silent s.globals) (hruns : userRuns s.stack = true) (hquiet : Quiet s.usb) {dest : Recipients}
    (hdest : dest.Defined s.globals.clnumber) (now : Now) (locals : Locals) : ∃ s₂ s₃,
    Machine.step host s (.call (dest.call now)) = some s₂ ∧
      handed s₂ = some (WireFormat.wireBytes (d.packet (dest.mask s.globals.clnumber))) ∧
      Machine.step host s₂ (.turn locals .success) = some s₃ ∧
      (s.usb.cart ≠ .none → s₃.written =
        s.written ++ [WireFormat.wireBytes (d.packet (dest.mask s.globals.clnumber))]) := by
  let mask := dest.mask s.globals.clnumber
  let sending : State := { s with
    globals := commit mask s.globals, committed := s.committed ++ [(commit mask s.globals).packet] }
  have hbytes : sending.globals.packet = WireFormat.wireBytes (d.packet mask) := packet_commit hholds mask
  obtain ⟨hstack, husb, hpacket, hflag, hwritten⟩ :=
    enterPoll_silent (s := sending) ⟨hsilent.disconnect, hsilent.reconnect⟩ now
  obtain ⟨hheader, hdata, hcart⟩ := usbPoll_quiet (u := (enterPoll now sending).usb) (husb ▸ hquiet)
  rw [hbytes] at hpacket
  replace hflag : (enterPoll now sending).globals.sendafterpoll = true := hflag
  refine ⟨enterPoll now sending,
    finish .success (usbPoll (enterPoll now sending).usb).2 s.stack (enterPoll now sending),
    ?_, ?_, ?_, fun hcart' => ?_⟩
  · rw [Machine.step, if_pos hruns, call_recipients host hdest]
    rfl
  · rw [handed, if_pos ⟨hheader, hflag⟩, hpacket]
  · simp only [Machine.step, hstack, turn, hheader, if_true]
    rfl
  · have hwrite : usbWrite .success (usbPoll (enterPoll now sending).usb).2 = .success := by
      rw [usbWrite, if_neg (by rw [hcart, husb]; exact hcart'), if_neg (not_not.mpr hdata)]
    simp only [finish, hflag, hwrite, hpacket, hwritten, if_true]
    rfl

/-- **The bytes that go out decode to what was written.** -/
theorem sent_decodes (host peer : Host) {s : State} (hruns : userRuns s.stack = true) (hquiet : Quiet s.usb)
    (cart : Cart) (setup : List Setup) (type : UInt8) (edits : List Edit) {dest : Recipients}
    (hdest : dest.Defined (number setup)) (now : Now) (locals : Locals) (junk : ℕ → UInt8) :
    ∃ s₁ s₂ s₃ bytes pkt,
      run (Machine.step host) s ((buildCalls cart setup type edits).map .call) = some s₁ ∧
      (packetHeadersize ≤ s₁.globals.writecursize ∧ s₁.globals.writecursize ≤ packetMaxSize) ∧
      (∀ v : Value, s₁.globals.writecursize + v.toBytes.length > packetMaxSize →
        call host s₁ (.write v) = s₁) ∧
      Machine.step host s₁ (.call (dest.call now)) = some s₂ ∧ handed s₂ = some bytes ∧
      Machine.step host s₂ (.turn locals .success) = some s₃ ∧
      (cart ≠ .none → s₃.written = s.written ++ [bytes]) ∧
      (Cpp.decode peer .netlib).run (inBuffer bytes junk) = .ok (some pkt) ∧
      pkt.version = 1 ∧ pkt.body = .netlib type (dest.mask (number setup)) 0 ∧
      pkt.flags = lastFlags 0 edits ∧ pkt.seqnum = 0 ∧ pkt.ack = 0 ∧ pkt.ackbitfield = 0 ∧
      pkt.data = (accepted (started s.globals setup type) edits).flatMap Value.toBytes := by
  obtain ⟨hholds, hsilent, hnumber⟩ := holds_built s.globals setup type edits
  let s₁ : State := { s with
    globals := built s.globals setup type edits, usb := { s.usb with cart := cart } }
  obtain ⟨s₂, s₃, hsend, hhanded, hturn, hwritten⟩ := send_quiet host (s := s₁) hholds hsilent hruns hquiet
    (hnumber.symm ▸ hdest) now locals
  rw [show s₁.globals.clnumber = number setup from hnumber] at hhanded hwritten
  refine ⟨s₁, s₂, s₃, _, _, run_buildCalls host hruns cart setup type edits, ⟨?_, hholds.fits⟩,
    fun v hfull => ?_, hsend, hhanded, hturn, hwritten,
    WireFormat.cpp_decode peer (hholds.wellFormed _) junk, rfl, rfl, rfl, rfl, rfl, rfl, rfl⟩
  · rw [show s₁.globals.writecursize = _ from hholds.size]
    exact Nat.le_add_right _ _
  · simp only [call, netlibWrite, if_pos hfull]

/-- A packet with one word in it, for the second player, of a program that has just started. -/
theorem sent_decodes_word : ∃ s₁ s₂ s₃ bytes pkt,
    run (Machine.step .x86) (init fun _ => 0)
        ((buildCalls .everdrive [] 5 [.write (.word 0x1234)]).map .call) = some s₁ ∧
      (packetHeadersize ≤ s₁.globals.writecursize ∧ s₁.globals.writecursize ≤ packetMaxSize) ∧
      (∀ v : Value, s₁.globals.writecursize + v.toBytes.length > packetMaxSize →
        call .x86 s₁ (.write v) = s₁) ∧
      Machine.step .x86 s₁ (.call (Recipients.call ⟨0, false⟩ (.client 2))) = some s₂ ∧
      handed s₂ = some bytes ∧ Machine.step .x86 s₂ (.turn ⟨0, 0, 0, 0⟩ .success) = some s₃ ∧
      (Cart.everdrive ≠ .none → s₃.written = (init fun _ => 0).written ++ [bytes]) ∧
      (Cpp.decode .x86 .netlib).run (inBuffer bytes fun _ => 0) = .ok (some pkt) ∧
      pkt.version = 1 ∧ pkt.body = .netlib 5 (Recipients.mask (number []) (.client 2)) 0 ∧
      pkt.flags = lastFlags 0 [.write (.word 0x1234)] ∧ pkt.seqnum = 0 ∧ pkt.ack = 0 ∧
      pkt.ackbitfield = 0 ∧
      pkt.data = (accepted (started (init fun _ => 0).globals [] 5) [.write (.word 0x1234)]).flatMap
        Value.toBytes := by
  have hdest : Recipients.Defined (number []) (.client 2) := by
    change (2 : UInt8).toNat < 32
    decide
  exact sent_decodes .x86 .x86 rfl ⟨rfl, rfl⟩ .everdrive [] 5 _ hdest _ _ _

end N64NetLib.N64.Builder
