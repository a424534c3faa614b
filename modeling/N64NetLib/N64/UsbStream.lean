import N64NetLib.N64.UsbWrite
import N64NetLib.Lib.Run

/-! # Reading what the carts receive

`usb_poll`, `usb_read`, `usb_skip`, `usb_rewind`, `usb_purge` and `usb_write` over the globals of `usb.c`: what a
cart receives is put into its memory, from which it is read through a buffer of one block, and the block that
is in the buffer is remembered. The EverDrive hands over a stream of bytes, in which each message is in a
frame.

For the application there is a message that is read from front to back (`Stream`, the `Usb` of `netlib.c`'s
model with what was read of the message). In every run, with messages that come between the calls, the code does
the same, whatever blocks the reads cross, as long as no message is rewound after something was written over it
(`run_refines`). The library rewinds nothing, so that what it sees is what its own model of the USB says
(`run_usb`). -/

namespace N64NetLib.N64.UsbStream

open N64NetLib.Lib.BigEndian N64NetLib.Lib.Memory N64NetLib.Lib.Run N64NetLib.N64.Netlib
open N64NetLib.N64.UsbWrite

/-! ### The code -/

/-- What a cart can receive in one transfer. -/
structure Transfer where
  datatype : UInt8
  data : List UInt8
  nonempty : data ≠ []
  fits : data.length < 2 ^ 24

/-- What a cart has received: transfers, or the bytes that the EverDrive gets one by one. -/
inductive Device
  | none
  | d64 (incoming : List Transfer)
  | everdrive (fifo : List UInt8)
  | sc64 (incoming : List Transfer)

/-- `usb_cart`. -/
def Device.cart : Device → Cart
  | .none => .none
  | .d64 _ => .d64
  | .everdrive _ => .everdrive
  | .sc64 _ => .sc64

/-- What the EverDrive gets of a transfer: a frame around it, with a byte behind the data if their number is
odd. -/
def Transfer.frame (pad : UInt8) (t : Transfer) : List UInt8 :=
  dma ++ be32 (usbheaderCreate t.datatype t.data.length) ++
    (t.data ++ List.replicate (align t.data.length 2 - t.data.length) pad) ++ cmp

/-- A transfer comes. -/
def Device.arrive (t : Transfer) (pad : UInt8) : Device → Device
  | .none => .none
  | .d64 incoming => .d64 (incoming ++ [t])
  | .everdrive fifo => .everdrive (fifo ++ t.frame pad)
  | .sc64 incoming => .sc64 (incoming ++ [t])

/-- The globals of `usb.c`, with the memory of the cart from `usb_getaddr()` on. A `usbReadblock` of `-1` is
`none`. -/
structure Globals where
  device : Device
  sdram : ℕ → UInt8
  usbBuffer : ℕ → UInt8
  usbDatatype : UInt8
  usbDatasize : ℕ
  usbDataleft : ℕ
  usbReadblock : Option ℕ

/-- What the poll functions do with a header. -/
def Globals.received (datatype : UInt8) (size : ℕ) (g : Globals) : Globals :=
  { g with usbDatatype := datatype, usbDatasize := size, usbDataleft := size, usbReadblock := none }

/-- `usb_64drive_poll`. -/
def usb64drivePoll (g : Globals) : BitVec 32 × Globals :=
  match g.device with
  | .d64 (t :: rest) =>
    (usbheaderCreate t.datatype t.data.length,
      { g.received t.datatype t.data.length with
        device := .d64 rest
        sdram := store g.sdram 0 t.data })
  | _ => (0, g)

/-- `usb_sc64_poll`. -/
def usbSc64Poll (g : Globals) : BitVec 32 × Globals :=
  match g.device with
  | .sc64 (t :: rest) =>
    (usbheaderCreate t.datatype t.data.length,
      { g.received t.datatype t.data.length with
        device := .sc64 rest
        sdram := store g.sdram 0 t.data })
  | _ => (0, g)

/-- `usb_everdrive_readusb`: the buffer from address `i` on, and what the EverDrive has then. A block that has
not come takes too long. -/
def usbEverdriveReadusb (buffer : ℕ → UInt8) (i size : ℕ) (fifo : List UInt8) : (ℕ → UInt8) × List UInt8 :=
  if size = 0 then (buffer, fifo)
  else
    let n := min bufferSize size
    if fifo.length < n then (buffer, fifo)
    else usbEverdriveReadusb (store buffer i (fifo.take n)) (i + n) (size - n) (fifo.drop n)
termination_by size
decreasing_by
  simp only [bufferSize]
  omega

/-- The loop of `usb_everdrive_poll`: the buffer, the memory, and what the EverDrive has then. -/
def receiveLoop (buffer sdram : ℕ → UInt8) (offset len : ℕ) (fifo : List UInt8) :
    (ℕ → UInt8) × (ℕ → UInt8) × List UInt8 :=
  if len = 0 then (buffer, sdram, fifo)
  else
    let n := min len bufferSize
    let (buffer, fifo) := usbEverdriveReadusb buffer 0 n fifo
    receiveLoop buffer (store sdram offset (block buffer 0 n)) (offset + n) (len - n) fifo
termination_by len
decreasing_by
  show len - min len bufferSize < len
  simp only [bufferSize]
  omega

/-- `usb_everdrive_poll`, with what is on the stack where `buff` is. -/
def usbEverdrivePoll (stack : ℕ → UInt8) (fifo : List UInt8) (g : Globals) : BitVec 32 × Globals :=
  if fifo = [] then (0, g)
  else
    let buff := usbEverdriveReadusb stack 0 8 fifo
    if block buff.1 0 4 ≠ dma then (0, { g with device := .everdrive buff.2 })
    else
      let size := usbheaderGetsize (ofBe32 (buff.1 4) (buff.1 5) (buff.1 6) (buff.1 7))
      let data := receiveLoop g.usbBuffer g.sdram 0 (align size 2) buff.2
      let signal := usbEverdriveReadusb buff.1 0 4 data.2.2
      let g := { g with device := .everdrive signal.2, usbBuffer := data.1, sdram := data.2.1 }
      if block signal.1 0 4 ≠ cmp then (0, g.received 0 0)
      else (usbheaderCreate (buff.1 4) size, g.received (buff.1 4) size)

/-- `funcPointer_poll`. -/
def funcPointerPoll (stack : ℕ → UInt8) (g : Globals) : BitVec 32 × Globals :=
  match g.device with
  | .none => (0, g)
  | .d64 _ => usb64drivePoll g
  | .everdrive fifo => usbEverdrivePoll stack fifo g
  | .sc64 _ => usbSc64Poll g

/-- `usb_poll`. -/
def usbPoll (stack : ℕ → UInt8) (g : Globals) : BitVec 32 × Globals :=
  if g.device.cart = .none then (0, g)
  else
    let g := if g.usbDataleft = 0 then g.received 0 0 else g
    if g.usbDataleft ≠ 0 then (usbheaderCreate g.usbDatatype g.usbDataleft, g) else funcPointerPoll stack g

/-- `funcPointer_read`, the same for the three carts. -/
def funcPointerRead (blockoffset : ℕ) (g : Globals) : Globals :=
  { g with usbBuffer := store g.usbBuffer 0 (block g.sdram blockoffset bufferSize) }

/-- The block that is read from, in the buffer. -/
def fetch (blockoffset : ℕ) (g : Globals) : Globals :=
  if g.usbReadblock ≠ some blockoffset then
    funcPointerRead blockoffset { g with usbReadblock := some blockoffset }
  else g

/-- A block from which nothing is copied is read from its front after that. -/
theorem readLoop_decreases {left dataleft copystart : ℕ} (h : left ≠ 0) :
    Prod.Lex (· < ·) (· < ·) (min left dataleft - min (bufferSize - copystart) (min left dataleft), 0)
      (left, copystart) := by
  unfold bufferSize
  by_cases hcopy : 0 < copystart
  · rcases Nat.lt_or_eq_of_le (show min left dataleft - min (512 - copystart) (min left dataleft) ≤ left by omega)
      with hlt | heq
    · exact Prod.Lex.left _ _ hlt
    · rw [heq]
      exact Prod.Lex.right _ hcopy
  · exact Prod.Lex.left _ _ (by omega)

/-- The loop of `usb_read`: the bytes that are copied. Its `block` is what is behind `copystart`. -/
def readLoop (left blockoffset copystart : ℕ) (g : Globals) : List UInt8 × Globals :=
  if left = 0 then ([], g)
  else
    let size := min left g.usbDataleft
    let n := min (bufferSize - copystart) size
    let g := fetch blockoffset g
    let r := readLoop (size - n) (blockoffset + bufferSize) 0 { g with usbDataleft := g.usbDataleft - n }
    (block g.usbBuffer copystart n ++ r.1, r.2)
termination_by (left, copystart)
decreasing_by exact readLoop_decreases ‹_›

/-- The 64Drive is polled again. -/
def repoll (g : Globals) : Globals := if g.device.cart = .d64 then (usb64drivePoll g).2 else g

/-- `usb_read`. -/
def usbRead (nbytes : ℕ) (g : Globals) : List UInt8 × Globals :=
  let offset := g.usbDatasize - g.usbDataleft
  if g.device.cart = .none then ([], g)
  else if g.usbDataleft = 0 then ([], g)
  else
    let r := readLoop nbytes (offset / bufferSize * bufferSize) (offset % bufferSize) g
    (r.1, if r.2.usbDataleft = 0 then repoll r.2 else r.2)

/-- `usb_skip`. -/
def usbSkip (nbytes : ℕ) (g : Globals) : Globals :=
  if g.usbDataleft < nbytes then repoll { g with usbDataleft := 0 }
  else { g with usbDataleft := g.usbDataleft - nbytes }

/-- `usb_rewind`. -/
def usbRewind (nbytes : ℕ) (g : Globals) : Globals :=
  { g with usbDataleft := min (g.usbDataleft + nbytes) g.usbDatasize }

/-- `usb_purge`. -/
def usbPurge (g : Globals) : Globals := repoll (g.received 0 0)

/-- `usb_write`: what it returns. -/
def usbWrite (ans : Answers) (datatype : UInt8) (data : List UInt8) (g : Globals) : Written × Globals :=
  if g.device.cart = .none then (.fail, g)
  else if g.usbDataleft ≠ 0 then (.fail, g)
  else
    let done := funcPointerWrite g.device.cart ans datatype data g.usbBuffer g.sdram
    (done.result, { g with usbBuffer := done.buffer, sdram := done.sdram })

/-- What happens: the application makes a call, or a transfer comes. -/
inductive Event
  | poll (stack : ℕ → UInt8)
  | read (nbytes : ℕ)
  | skip (nbytes : ℕ)
  | rewind (nbytes : ℕ)
  | purge
  | write (ans : Answers) (datatype : UInt8) (data : List UInt8)
  | arrive (t : Transfer) (pad : UInt8)

/-- What the application gets. -/
inductive Output
  | nothing
  | header (header : BitVec 32)
  | bytes (l : List UInt8)
  | written (result : Written)
deriving DecidableEq

/-- An event. -/
def handle (g : Globals) : Event → Output × Globals
  | .poll stack => let r := usbPoll stack g; (.header r.1, r.2)
  | .read nbytes => let r := usbRead nbytes g; (.bytes r.1, r.2)
  | .skip nbytes => (.nothing, usbSkip nbytes g)
  | .rewind nbytes => (.nothing, usbRewind nbytes g)
  | .purge => (.nothing, usbPurge g)
  | .write ans datatype data => let r := usbWrite ans datatype data g; (.written r.1, r.2)
  | .arrive t pad => (.nothing, { g with device := g.device.arrive t pad })

/-- Some events, one after the other. -/
def handleAll (g : Globals) : List Event → List Output × Globals
  | [] => ([], g)
  | e :: l =>
    let r := handle g e
    let rest := handleAll r.2 l
    (r.1 :: rest.1, rest.2)

/-- The globals at the start, with anything in the buffer and in the memory of the cart. -/
def startGlobals (device : Device) (sdram usbBuffer : ℕ → UInt8) : Globals :=
  ⟨device, sdram, usbBuffer, 0, 0, 0, none⟩

/-! ### What it is for -/

/-- A transfer as the application sees it. -/
def Transfer.toMessage (t : Transfer) : Message := ⟨t.datatype, t.data⟩

/-- A message comes, if there is a cart. -/
def arrive (m : Message) (u : Usb) : Usb :=
  if u.cart = .none then u else { u with incoming := u.incoming ++ [m] }

/-- The message that is read: `usb` with the bytes to come, and `past` with those that were. `kept` says that
nothing was written since it came. -/
structure Stream where
  usb : Usb
  past : List UInt8
  kept : Bool

namespace Stream

/-- The next message. -/
def next (s : Stream) : Stream :=
  match s.usb.incoming with
  | [] => s
  | _ :: _ => ⟨cartPoll s.usb, [], true⟩

/-- The 64Drive is polled when nothing is left. -/
def repoll (s : Stream) : Stream := if s.usb.cart = .d64 ∧ s.usb.data = [] then s.next else s

/-- Some bytes pass. -/
def pass (n : ℕ) (s : Stream) : Stream :=
  { s with
    usb := { s.usb with data := s.usb.data.drop n }
    past := s.past ++ s.usb.data.take n }

/-- No message. -/
def reset (s : Stream) : Stream := ⟨{ s.usb with datatype := 0, data := [] }, [], s.kept⟩

/-- A message is asked for. -/
def poll (s : Stream) : Output × Stream :=
  if s.usb.cart = .none then (.header 0, s)
  else
    let s := if s.usb.data = [] then s.reset.next else s
    (.header (usbheaderCreate s.usb.datatype s.usb.data.length), s)

/-- Bytes are read. -/
def read (n : ℕ) (s : Stream) : Output × Stream :=
  if s.usb.cart = .none ∨ s.usb.data = [] then (.bytes [], s) else (.bytes (s.usb.data.take n), (s.pass n).repoll)

/-- Bytes are skipped. -/
def skip (n : ℕ) (s : Stream) : Stream := if n > s.usb.data.length then (s.pass n).repoll else s.pass n

/-- Bytes that were read come again. -/
def rewind (n : ℕ) (s : Stream) : Stream :=
  { s with
    usb := { s.usb with data := s.past.drop (s.past.length - n) ++ s.usb.data }
    past := s.past.take (s.past.length - n) }

/-- The message is dropped. -/
def purge (s : Stream) : Stream := s.reset.repoll

/-- Something is written, if nothing is left to read. -/
def write (ans : Answers) (datatype : UInt8) (data : List UInt8) (s : Stream) : Output × Stream :=
  (.written (Netlib.usbWrite (funcPointerWrite s.usb.cart ans datatype data (fun _ => 0) fun _ => 0).result s.usb),
    if s.usb.cart = .none ∨ s.usb.data ≠ [] then s else { s with kept := false })

/-- An event. -/
def handle (s : Stream) : Event → Output × Stream
  | .poll _ => s.poll
  | .read n => s.read n
  | .skip n => (.nothing, s.skip n)
  | .rewind n => (.nothing, s.rewind n)
  | .purge => (.nothing, s.purge)
  | .write ans datatype data => s.write ans datatype data
  | .arrive t _ => (.nothing, { s with usb := arrive t.toMessage s.usb })

/-- Some events, one after the other. -/
def handleAll (s : Stream) : List Event → List Output × Stream
  | [] => ([], s)
  | e :: l =>
    let r := s.handle e
    let rest := r.2.handleAll l
    (r.1 :: rest.1, rest.2)

/-- An event as a step. -/
def step (s : Stream) (e : Event) : Option Stream := some (s.handle e).2

/-- Nothing that was written over is read again. -/
def Careful (s : Stream) : Event → Prop
  | .rewind n => s.kept = true ∨ s.past = [] ∨ n = 0
  | _ => True

instance decidableCareful (s : Stream) : ∀ e, Decidable (s.Careful e)
  | .rewind n => inferInstanceAs (Decidable (s.kept = true ∨ s.past = [] ∨ n = 0))
  | .poll _ | .read _ | .skip _ | .purge | .write _ _ _ | .arrive _ _ => isTrue trivial

/-- A cart that has received these messages, and nothing read yet. -/
def start (cart : Cart) (incoming : List Message) : Stream := ⟨⟨cart, 0, [], incoming⟩, [], true⟩

theorem usb_next (s : Stream) : s.next.usb = cartPoll s.usb := by
  unfold next cartPoll
  split <;> simp_all

theorem usb_repoll (s : Stream) : s.repoll.usb = Netlib.repoll s.usb := by
  unfold repoll Netlib.repoll
  split_ifs
  · exact usb_next s
  · rfl

theorem usb_poll (s : Stream) : s.poll.2.usb = (Netlib.usbPoll s.usb).2 := by
  unfold poll Netlib.usbPoll
  by_cases hcart : s.usb.cart = .none
  · rw [if_pos hcart, if_pos hcart]
  · rw [if_neg hcart, if_neg hcart]
    by_cases hdata : s.usb.data = []
    · have hreset : s.reset.usb = { s.usb with datatype := 0 } := by
        show ({ s.usb with datatype := 0, data := [] } : Usb) = _
        rw [← hdata]
      rw [if_neg (not_not.mpr hdata)]
      dsimp only
      rw [if_pos hdata, usb_next, hreset]
    · rw [if_pos hdata]
      dsimp only
      rw [if_neg hdata]

theorem usb_read (n : ℕ) (s : Stream) : (s.read n).2.usb = (Netlib.usbRead n s.usb).2 := by
  unfold read Netlib.usbRead
  split_ifs
  · rfl
  · exact usb_repoll _

theorem usb_skip (n : ℕ) (s : Stream) : (s.skip n).usb = Netlib.usbSkip n s.usb := by
  unfold skip Netlib.usbSkip
  dsimp only
  split_ifs
  · exact usb_repoll _
  · rfl

theorem usb_purge (s : Stream) : s.purge.usb = Netlib.usbPurge s.usb := usb_repoll _

end Stream

/-! ### What the library sees of it -/

/-- An event in the library's model of the USB, which has no call to rewind. -/
def call (u : Usb) : Event → Output × Usb
  | .poll _ =>
    let r := Netlib.usbPoll u
    (.header (if u.cart = .none then 0 else usbheaderCreate r.1 r.2.data.length), r.2)
  | .read n => let r := Netlib.usbRead n u; (.bytes r.1, r.2)
  | .skip n => (.nothing, Netlib.usbSkip n u)
  | .rewind _ => (.nothing, u)
  | .purge => (.nothing, Netlib.usbPurge u)
  | .write ans datatype data =>
    (.written (Netlib.usbWrite (funcPointerWrite u.cart ans datatype data (fun _ => 0) fun _ => 0).result u), u)
  | .arrive t _ => (.nothing, arrive t.toMessage u)

/-- Some events, one after the other. -/
def callAll (u : Usb) : List Event → List Output × Usb
  | [] => ([], u)
  | e :: l =>
    let r := call u e
    let rest := callAll r.2 l
    (r.1 :: rest.1, rest.2)

/-- An event that does not rewind. -/
def Forward : Event → Prop
  | .rewind _ => False
  | _ => True

theorem Stream.call_usb (s : Stream) {e : Event} (he : Forward e) :
    (s.handle e).1 = (call s.usb e).1 ∧ (s.handle e).2.usb = (call s.usb e).2 := by
  cases e with
  | poll stack =>
    refine ⟨?_, s.usb_poll⟩
    have husb := s.usb_poll
    show s.poll.1 = .header (if s.usb.cart = .none then 0 else _)
    have hdatatype : (Netlib.usbPoll s.usb).1 =
        if s.usb.cart = .none then 0 else (Netlib.usbPoll s.usb).2.datatype := by
      unfold Netlib.usbPoll
      split_ifs <;> rfl
    rw [hdatatype, ← husb]
    unfold Stream.poll
    split_ifs <;> rfl
  | read n =>
    refine ⟨?_, s.usb_read n⟩
    show (s.read n).1 = .bytes (Netlib.usbRead n s.usb).1
    unfold Stream.read Netlib.usbRead
    split_ifs <;> rfl
  | skip n => exact ⟨rfl, s.usb_skip n⟩
  | rewind n => exact absurd he id
  | purge => exact ⟨rfl, s.usb_purge⟩
  | write ans datatype data =>
    refine ⟨rfl, ?_⟩
    show (s.write ans datatype data).2.usb = s.usb
    unfold Stream.write
    dsimp only
    split_ifs <;> rfl
  | arrive t pad => exact ⟨rfl, rfl⟩

theorem Stream.callAll_usb (s : Stream) {l : List Event} (hl : ∀ e ∈ l, Forward e) :
    (s.handleAll l).1 = (callAll s.usb l).1 ∧ (s.handleAll l).2.usb = (callAll s.usb l).2 := by
  induction l generalizing s with
  | nil => exact ⟨rfl, rfl⟩
  | cons e l ih =>
    obtain ⟨hone, hrest⟩ := List.forall_mem_cons.mp hl
    obtain ⟨hout, husb⟩ := s.call_usb hone
    obtain ⟨houts, hend⟩ := ih (s.handle e).2 hrest
    rw [husb] at houts hend
    exact ⟨congrArg₂ List.cons hout houts, hend⟩

/-- Who does not rewind is careful. -/
theorem Stream.careful_of_forward (s : Stream) {l : List Event} (hl : ∀ e ∈ l, Forward e) :
    Along Stream.step Stream.Careful s l := by
  induction l generalizing s with
  | nil => trivial
  | cons e l ih =>
    obtain ⟨hone, hrest⟩ := List.forall_mem_cons.mp hl
    refine fun s' _ => ⟨?_, ih s' hrest⟩
    cases e with
    | rewind n => exact absurd hone id
    | _ => trivial

/-! ### What a cart hands over -/

/-- A frame around a transfer, with a byte behind the data if their number is odd. -/
def Transfer.IsFrame (t : Transfer) (l : List UInt8) : Prop :=
  ∃ pad : List UInt8, t.data.length + pad.length = align t.data.length 2 ∧
    l = dma ++ be32 (usbheaderCreate t.datatype t.data.length) ++ (t.data ++ pad) ++ cmp

/-- The bytes are frames, one for each of the transfers. -/
def Frames : List UInt8 → List Transfer → Prop
  | fifo, [] => fifo = []
  | fifo, t :: ts => ∃ l rest, t.IsFrame l ∧ fifo = l ++ rest ∧ Frames rest ts

theorem Transfer.isFrame_frame (pad : UInt8) (t : Transfer) : t.IsFrame (t.frame pad) := by
  have hle : t.data.length ≤ align t.data.length 2 := le_align (by decide)
  refine ⟨List.replicate (align t.data.length 2 - t.data.length) pad, ?_, rfl⟩
  rw [List.length_replicate, Nat.add_sub_cancel' hle]

theorem Frames.concat {fifo l : List UInt8} {ts : List Transfer} {t : Transfer} (h : Frames fifo ts)
    (hl : t.IsFrame l) : Frames (fifo ++ l) (ts ++ [t]) := by
  induction ts generalizing fifo with
  | nil =>
    rw [show fifo = [] from h]
    exact ⟨l, [], hl, (List.append_nil l).symm, rfl⟩
  | cons t' ts ih =>
    obtain ⟨l', rest, hl', rfl, hrest⟩ := h
    exact ⟨l', rest ++ l, hl', List.append_assoc l' rest l, ih hrest⟩

/-- The cart has received these messages. -/
def Device.Holds : Device → List Message → Prop
  | .none, ms => ms = []
  | .d64 ts, ms => ms = ts.map Transfer.toMessage
  | .everdrive fifo, ms => ∃ ts, Frames fifo ts ∧ ms = ts.map Transfer.toMessage
  | .sc64 ts, ms => ms = ts.map Transfer.toMessage

@[simp] theorem Device.cart_arrive (t : Transfer) (pad : UInt8) (d : Device) :
    (d.arrive t pad).cart = d.cart := by
  cases d <;> rfl

/-- **What comes** is one message more, for whichever cart there is. -/
theorem Device.Holds.arrive {d : Device} {ms : List Message} (h : d.Holds ms) (t : Transfer) (pad : UInt8) :
    (d.arrive t pad).Holds (if d.cart = .none then ms else ms ++ [t.toMessage]) := by
  have hmap : ∀ ts : List Transfer,
      ts.map Transfer.toMessage ++ [t.toMessage] = (ts ++ [t]).map Transfer.toMessage := by simp
  cases d with
  | none => exact h
  | d64 ts =>
    rw [show ms = ts.map Transfer.toMessage from h]
    exact hmap ts
  | everdrive fifo =>
    obtain ⟨ts, hts, rfl⟩ := h
    exact ⟨ts ++ [t], hts.concat (t.isFrame_frame pad), hmap ts⟩
  | sc64 ts =>
    rw [show ms = ts.map Transfer.toMessage from h]
    exact hmap ts

/-- One list stored behind another. -/
theorem store_store {m : ℕ → UInt8} {i : ℕ} {l l' : List UInt8} :
    store (store m i l) (i + l.length) l' = store m i (l ++ l') := by
  funext j
  unfold store
  by_cases hlow : j < i
  · rw [if_pos (by omega), if_pos hlow, if_pos hlow]
  · rw [if_neg hlow, if_neg hlow]
    by_cases hmid : j < i + l.length
    · rw [if_pos hmid, List.getElem?_append_left (by omega)]
    · have hnone : l[j - i]? = none := List.getElem?_eq_none (by omega)
      rw [if_neg hmid, List.getElem?_append_right (by omega), hnone, Option.getD_none, Nat.sub_sub]

/-- Bytes that have come are read. -/
theorem usbEverdriveReadusb_spec (buffer : ℕ → UInt8) (i size : ℕ) {l rest : List UInt8} (hl : l.length = size) :
    usbEverdriveReadusb buffer i size (l ++ rest) = (store buffer i l, rest) := by
  induction size using Nat.strong_induction_on generalizing buffer i l with
  | _ size ih =>
    rw [usbEverdriveReadusb]
    by_cases hzero : size = 0
    · have hnil : l = [] := List.length_eq_zero_iff.mp (hl.trans hzero)
      rw [if_pos hzero, hnil, store_nil, List.nil_append]
    · rw [if_neg hzero]
      have hpos : 0 < min bufferSize size := Nat.lt_min.mpr ⟨by decide, by omega⟩
      have hle : min bufferSize size ≤ l.length := by omega
      have htake : (l.take (min bufferSize size)).length = min bufferSize size := List.length_take_of_le hle
      dsimp only
      rw [if_neg (by rw [List.length_append]; omega), List.take_append_of_le_length hle,
        List.drop_append_of_le_length hle, ih _ (by omega) _ _ (by rw [List.length_drop]; omega)]
      conv_lhs => enter [1, 2]; rw [← htake]
      rw [store_store, List.take_append_drop]

/-- The loop that receives bytes that have come. -/
theorem receiveLoop_spec (buffer sdram : ℕ → UInt8) (offset len : ℕ) {l rest : List UInt8} (hl : l.length = len) :
    (receiveLoop buffer sdram offset len (l ++ rest)).2 = (store sdram offset l, rest) := by
  induction len using Nat.strong_induction_on generalizing buffer sdram offset l with
  | _ len ih =>
    rw [receiveLoop]
    by_cases hzero : len = 0
    · have hnil : l = [] := List.length_eq_zero_iff.mp (hl.trans hzero)
      rw [if_pos hzero, hnil, store_nil, List.nil_append]
    · rw [if_neg hzero]
      have hpos : 0 < min len bufferSize := Nat.lt_min.mpr ⟨by omega, by decide⟩
      have hle : min len bufferSize ≤ l.length := by omega
      have htake : (l.take (min len bufferSize)).length = min len bufferSize := List.length_take_of_le hle
      have hsplit : l ++ rest = l.take (min len bufferSize) ++ (l.drop (min len bufferSize) ++ rest) := by
        rw [← List.append_assoc, List.take_append_drop]
      have hblock := block_store (m := buffer) (i := 0) (l := l.take (min len bufferSize))
      rw [htake] at hblock
      dsimp only
      rw [hsplit, usbEverdriveReadusb_spec buffer 0 _ htake]
      dsimp only
      rw [hblock, ih _ (by omega) _ _ _ (by rw [List.length_drop]; omega)]
      conv_lhs => enter [1, 2]; rw [← htake]
      rw [store_store, List.take_append_drop]

/-- What the globals are when a message has been received. -/
structure Receives (g : Globals) (m : Message) (rest : List Message) (g' : Globals) : Prop where
  cart : g'.device.cart = g.device.cart
  device : g'.device.Holds rest
  datatype : g'.usbDatatype = m.datatype
  datasize : g'.usbDatasize = m.data.length
  dataleft : g'.usbDataleft = m.data.length
  readblock : g'.usbReadblock = none
  sdram : block g'.sdram 0 m.data.length = m.data

theorem receives_transfer {g : Globals} {t : Transfer} {device : Device} {rest : List Message}
    (hcart : device.cart = g.device.cart) (hdevice : device.Holds rest) :
    Receives g t.toMessage rest
      { g.received t.datatype t.data.length with
        device := device
        sdram := store g.sdram 0 t.data } := by
  have hmem : block (store g.sdram 0 t.data) 0 t.data.length = t.data := block_store
  exact ⟨hcart, hdevice, rfl, rfl, rfl, rfl, hmem⟩

/-- The first bytes of a frame. -/
theorem frame_header (stack : ℕ → UInt8) (header : BitVec 32) :
    let buff := store stack 0 (dma ++ be32 header)
    block buff 0 4 = dma ∧ buff 4 = usbheaderGettype header ∧
      ofBe32 (buff 4) (buff 5) (buff 6) (buff 7) = header := by
  have hlen : (dma ++ be32 header).length = 8 := rfl
  have hbyte : ∀ j (hj : j < (dma ++ be32 header).length),
      store stack 0 (dma ++ be32 header) j = (dma ++ be32 header)[j] := by
    intro j hj
    have hmem := store_of_mem (m := stack) (i := 0) hj
    rwa [Nat.zero_add] at hmem
  refine ⟨block_store_take (by rw [hlen]; decide), hbyte 4 (by omega), ?_⟩
  rw [hbyte 4 (by omega), hbyte 5 (by omega), hbyte 6 (by omega), hbyte 7 (by omega)]
  exact ofBe32_byteOf header

/-- A frame is a message. -/
theorem usbEverdrivePoll_frame (stack : ℕ → UInt8) (g : Globals) {t : Transfer} {ts : List Transfer}
    {l rest : List UInt8} (hl : t.IsFrame l) (hrest : Frames rest ts) (hcart : g.device.cart = .everdrive) :
    ∃ g', usbEverdrivePoll stack (l ++ rest) g = (usbheaderCreate t.datatype t.data.length, g') ∧
      Receives g t.toMessage (ts.map Transfer.toMessage) g' := by
  obtain ⟨pad, hpad, rfl⟩ := hl
  obtain ⟨hmagic, htype, hheader⟩ := frame_header stack (usbheaderCreate t.datatype t.data.length)
  have hsplit : dma ++ be32 (usbheaderCreate t.datatype t.data.length) ++ (t.data ++ pad) ++ cmp ++ rest =
      (dma ++ be32 (usbheaderCreate t.datatype t.data.length)) ++ ((t.data ++ pad) ++ (cmp ++ rest)) := by
    simp only [List.append_assoc]
  have hlen : (t.data ++ pad).length = align t.data.length 2 := List.length_append.trans hpad
  have hend (buff : ℕ → UInt8) : block (store buff 0 cmp) 0 4 = cmp := block_store
  have hdata := @receiveLoop_spec g.usbBuffer g.sdram 0 _ _ (cmp ++ rest) hlen
  have hfirst := @usbEverdriveReadusb_spec stack 0 8 (dma ++ be32 (usbheaderCreate t.datatype t.data.length))
    ((t.data ++ pad) ++ (cmp ++ rest)) rfl
  have hlast (buff : ℕ → UInt8) := @usbEverdriveReadusb_spec buff 0 4 cmp rest rfl
  have hne : dma ++ be32 (usbheaderCreate t.datatype t.data.length) ++ ((t.data ++ pad) ++ (cmp ++ rest)) ≠ [] :=
    List.append_ne_nil_of_left_ne_nil (List.cons_ne_nil _ _) _
  rw [hsplit, usbEverdrivePoll, if_neg hne]
  simp only [hfirst, hmagic, hheader, usbheaderGetsize_create _ t.fits, hdata, hlast, hend, ne_eq, not_true, if_false]
  rw [htype, usbheaderGettype_create]
  refine ⟨_, rfl, ⟨hcart.symm, ⟨ts, hrest, rfl⟩, rfl, rfl, rfl, rfl, ?_⟩⟩
  show block (store g.sdram 0 (t.data ++ pad)) 0 t.data.length = t.data
  rw [block_store_take (by rw [List.length_append]; omega), List.take_left]

/-- **Polling a cart**: it hands over the next message, if there is one. -/
theorem funcPointerPoll_spec (stack : ℕ → UInt8) (g : Globals) {ms : List Message} (h : g.device.Holds ms) :
    ms = [] ∧ funcPointerPoll stack g = (0, g) ∨
      ∃ m rest g', ms = m :: rest ∧ funcPointerPoll stack g = (usbheaderCreate m.datatype m.data.length, g') ∧
        m.data ≠ [] ∧ Receives g m rest g' := by
  unfold funcPointerPoll
  cases hdevice : g.device with
  | none =>
    rw [hdevice] at h
    exact .inl ⟨h, rfl⟩
  | d64 ts =>
    rw [hdevice] at h
    dsimp only
    unfold usb64drivePoll
    cases ts with
    | nil => exact .inl ⟨h, by rw [hdevice]⟩
    | cons t ts =>
      rw [hdevice]
      exact .inr ⟨t.toMessage, ts.map Transfer.toMessage, _, h, rfl, t.nonempty,
        receives_transfer (by rw [hdevice]; rfl) rfl⟩
  | everdrive fifo =>
    rw [hdevice] at h
    obtain ⟨ts, hts, rfl⟩ := h
    cases ts with
    | nil =>
      refine .inl ⟨rfl, ?_⟩
      show usbEverdrivePoll stack fifo g = _
      rw [usbEverdrivePoll, if_pos (show fifo = [] from hts)]
    | cons t ts =>
      obtain ⟨l, rest, hl, rfl, hrest⟩ := hts
      obtain ⟨g', hpoll, hg'⟩ := usbEverdrivePoll_frame stack g hl hrest (by rw [hdevice]; rfl)
      exact .inr ⟨t.toMessage, ts.map Transfer.toMessage, g', rfl, hpoll, t.nonempty, hg'⟩
  | sc64 ts =>
    rw [hdevice] at h
    dsimp only
    unfold usbSc64Poll
    cases ts with
    | nil => exact .inl ⟨h, by rw [hdevice]⟩
    | cons t ts =>
      rw [hdevice]
      exact .inr ⟨t.toMessage, ts.map Transfer.toMessage, _, h, rfl, t.nonempty,
        receives_transfer (by rw [hdevice]; rfl) rfl⟩

/-! ### Reading through the buffer -/

theorem drop_block {m : ℕ → UInt8} {i k n : ℕ} : (block m i (k + n)).drop k = block m (i + k) n := by
  rw [block_add, List.drop_left' length_block]

/-- A part of two blocks that are the same. -/
theorem block_part {m m' : ℕ → UInt8} {i j k n len : ℕ} (h : block m i len = block m' j len) (hle : k + n ≤ len) :
    block m (i + k) n = block m' (j + k) n := by
  rw [← drop_block, ← drop_block, ← take_block hle, ← take_block hle, h]

/-- The buffer holds the block that it is remembered to hold. -/
def Coherent (g : Globals) : Prop :=
  ∀ b, g.usbReadblock = some b → block g.usbBuffer 0 bufferSize = block g.sdram b bufferSize

/-- Reading changes the buffer and the block that is remembered, and what is left. -/
structure Reads (g : Globals) (n : ℕ) (g' : Globals) : Prop where
  device : g'.device = g.device
  sdram : g'.sdram = g.sdram
  datatype : g'.usbDatatype = g.usbDatatype
  datasize : g'.usbDatasize = g.usbDatasize
  dataleft : g'.usbDataleft = g.usbDataleft - n

theorem fetch_spec {g : Globals} (b : ℕ) (h : Coherent g) :
    Reads g 0 (fetch b g) ∧ Coherent (fetch b g) ∧
      block (fetch b g).usbBuffer 0 bufferSize = block g.sdram b bufferSize := by
  unfold fetch
  split_ifs with hblock
  · have hone : block (store g.usbBuffer 0 (block g.sdram b bufferSize)) 0 bufferSize =
        block g.sdram b bufferSize := by
      have hstored := block_store (m := g.usbBuffer) (i := 0) (l := block g.sdram b bufferSize)
      rwa [length_block] at hstored
    refine ⟨⟨rfl, rfl, rfl, rfl, rfl⟩, fun b' hb' => ?_, hone⟩
    obtain rfl := Option.some.inj hb'
    exact hone
  · exact ⟨⟨rfl, rfl, rfl, rfl, rfl⟩, h, h b (not_not.mp hblock)⟩

/-- **The loop of `usb_read`** copies what is in the memory of the cart, across the blocks. -/
theorem readLoop_spec (left blockoffset copystart : ℕ) (g : Globals) (hcopy : copystart ≤ bufferSize)
    (h : Coherent g) :
    (readLoop left blockoffset copystart g).1 = block g.sdram (blockoffset + copystart) (min left g.usbDataleft) ∧
      Reads g (min left g.usbDataleft) (readLoop left blockoffset copystart g).2 ∧
      Coherent (readLoop left blockoffset copystart g).2 := by
  fun_induction readLoop left blockoffset copystart g with
  | case1 blockoffset copystart g =>
    rw [Nat.zero_min]
    exact ⟨rfl, ⟨rfl, rfl, rfl, rfl, rfl⟩, h⟩
  | case2 left blockoffset copystart g hleft size n g' r ih =>
    obtain ⟨hfetch, hcoherent, hbuffer⟩ := fetch_spec blockoffset h
    have hdataleft : g'.usbDataleft = g.usbDataleft := hfetch.dataleft
    have hsdram : g'.sdram = g.sdram := hfetch.sdram
    obtain ⟨hbytes, hreads, hcoherent'⟩ := ih (Nat.zero_le _) hcoherent
    have hsize : size = min left g.usbDataleft := rfl
    have hn : n = min (bufferSize - copystart) size := rfl
    have hmin : min (size - n) (g'.usbDataleft - n) = size - n := by omega
    have hmin' : min (size - n) ({ g' with usbDataleft := g'.usbDataleft - n } : Globals).usbDataleft = size - n :=
      hmin
    rw [hmin'] at hbytes hreads
    refine ⟨?_, ⟨hreads.device.trans hfetch.device, hreads.sdram.trans hfetch.sdram,
      hreads.datatype.trans hfetch.datatype, hreads.datasize.trans hfetch.datasize, ?_⟩, hcoherent'⟩
    · -- what is copied from this block, and the rest
      have hpart : block g'.usbBuffer copystart n = block g.sdram (blockoffset + copystart) n := by
        have hsame := block_part (k := copystart) (n := n) hbuffer (by omega)
        rwa [Nat.zero_add] at hsame
      have hrest : r.1 = block g.sdram (blockoffset + copystart + n) (size - n) := by
        rw [show r.1 = _ from hbytes, ← hsdram]
        by_cases hend : size - n = 0
        · rw [hend]
          rfl
        · have hfull : blockoffset + bufferSize + 0 = blockoffset + copystart + n := by omega
          rw [hfull]
      have hadd : n + (size - n) = size := Nat.add_sub_cancel' (hn.trans_le (Nat.min_le_right _ _))
      rw [hpart, hrest, ← block_add, hadd]
    · rw [hreads.dataleft, ← hsize, ← hdataleft]
      show g'.usbDataleft - n - (size - n) = _
      omega

/-! ### The globals and the message -/

/-- **The globals are those of the message**: it is in the memory of the cart, as long as nothing was written over
it, and then there is nothing of it left to read. -/
structure Tracks (g : Globals) (s : Stream) : Prop where
  cart : g.device.cart = s.usb.cart
  device : g.device.Holds s.usb.incoming
  datatype : g.usbDatatype = s.usb.datatype
  datasize : g.usbDatasize = s.past.length + s.usb.data.length
  dataleft : g.usbDataleft = s.usb.data.length
  memory : s.kept = true → block g.sdram 0 g.usbDatasize = s.past ++ s.usb.data
  coherent : s.kept = true → Coherent g
  written : s.kept = false → s.usb.data = []

section Calls

variable {g : Globals} {s : Stream}

theorem Tracks.data_eq_nil (h : Tracks g s) : g.usbDataleft = 0 ↔ s.usb.data = [] := by
  rw [h.dataleft, List.length_eq_zero_iff]

/-- The next message. -/
theorem Tracks.next (h : Tracks g s) (stack : ℕ → UInt8) :
    Tracks (funcPointerPoll stack g).2 s.next ∧
      (funcPointerPoll stack g).1 =
        if s.usb.incoming = [] then 0 else usbheaderCreate s.next.usb.datatype s.next.usb.data.length := by
  rcases funcPointerPoll_spec stack g h.device with ⟨hnone, hpoll⟩ | ⟨m, rest, g', hmore, hpoll, -, hg'⟩
  · have hnext : s.next = s := by
      unfold Stream.next
      rw [hnone]
    rw [hpoll, hnext, if_pos hnone]
    exact ⟨h, rfl⟩
  · have hnext : s.next = ⟨⟨s.usb.cart, m.datatype, m.data, rest⟩, [], true⟩ := by
      unfold Stream.next cartPoll
      rw [hmore]
    rw [hpoll, hnext, if_neg (by rw [hmore]; exact List.cons_ne_nil _ _)]
    refine ⟨⟨hg'.cart.trans h.cart, hg'.device, hg'.datatype, ?_, hg'.dataleft, fun _ => ?_, fun _ b hb => ?_,
      fun hno => Bool.noConfusion hno⟩, rfl⟩
    · rw [hg'.datasize]
      exact (Nat.zero_add _).symm
    · rw [hg'.datasize]
      exact hg'.sdram
    · rw [hg'.readblock] at hb
      cases hb

/-- The 64Drive is polled again. -/
theorem Tracks.repoll (h : Tracks g s) (hdata : s.usb.data = []) : Tracks (repoll g) s.repoll := by
  unfold UsbStream.repoll Stream.repoll
  rw [h.cart]
  by_cases hd64 : s.usb.cart = .d64
  · rw [if_pos hd64, if_pos ⟨hd64, hdata⟩]
    have hpoll : funcPointerPoll (fun _ => 0) g = usb64drivePoll g := by
      have hcart := h.cart.trans hd64
      unfold funcPointerPoll
      cases hdevice : g.device with
      | d64 ts => rfl
      | _ =>
        rw [hdevice] at hcart
        cases hcart
    have hnext := (h.next fun _ => 0).1
    rwa [hpoll] at hnext
  · rw [if_neg hd64, if_neg fun hboth => hd64 hboth.1]
    exact h

/-- Some of what is left is passed. -/
theorem Tracks.pass (h : Tracks g s) {n : ℕ} {g' : Globals} (hg' : Reads g (min n g.usbDataleft) g')
    (hcoherent : s.kept = true → Coherent g') : Tracks g' (s.pass n) := by
  have hlen : (s.past ++ s.usb.data.take n).length + (s.usb.data.drop n).length =
      s.past.length + s.usb.data.length := by
    rw [List.length_append, List.length_take, List.length_drop]
    omega
  refine ⟨by rw [hg'.device]; exact h.cart, by rw [hg'.device]; exact h.device, hg'.datatype.trans h.datatype,
    (hg'.datasize.trans h.datasize).trans hlen.symm, ?_, fun hkept => ?_, hcoherent, fun hno => ?_⟩
  · rw [hg'.dataleft, h.dataleft]
    show _ = (s.usb.data.drop n).length
    rw [List.length_drop]
    omega
  · rw [hg'.sdram, hg'.datasize, h.memory hkept]
    show _ = s.past ++ s.usb.data.take n ++ s.usb.data.drop n
    rw [List.append_assoc, List.take_append_drop]
  · show s.usb.data.drop n = []
    rw [h.written hno, List.drop_nil]

theorem Tracks.reset (h : Tracks g s) : Tracks (g.received 0 0) s.reset :=
  ⟨h.cart, h.device, rfl, rfl, rfl, fun _ => rfl, fun _ _ hb => (by cases hb), fun _ => rfl⟩

theorem Tracks.poll (h : Tracks g s) (stack : ℕ → UInt8) :
    Output.header (usbPoll stack g).1 = s.poll.1 ∧ Tracks (usbPoll stack g).2 s.poll.2 := by
  unfold usbPoll Stream.poll
  rw [h.cart]
  by_cases hcart : s.usb.cart = .none
  · rw [if_pos hcart, if_pos hcart]
    exact ⟨rfl, h⟩
  · rw [if_neg hcart, if_neg hcart]
    by_cases hdata : s.usb.data = []
    · -- the globals are reset, and the cart is polled
      obtain ⟨htracks, hheader⟩ := h.reset.next stack
      have hpolled : (g.received 0 0).usbDataleft = 0 := rfl
      dsimp only
      rw [if_pos (h.data_eq_nil.mpr hdata), if_neg (not_not.mpr hpolled), if_pos hdata]
      refine ⟨?_, htracks⟩
      rw [hheader]
      by_cases hnone : s.reset.usb.incoming = []
      · have hnext : s.reset.next = s.reset := by
          unfold Stream.next
          rw [hnone]
        have hzero : usbheaderCreate 0 0 = 0 := by decide
        rw [if_pos hnone, hnext]
        exact congrArg _ hzero.symm
      · rw [if_neg hnone]
    · have hleft : g.usbDataleft ≠ 0 := fun hzero => hdata (h.data_eq_nil.mp hzero)
      dsimp only
      rw [if_neg hleft, if_pos hleft, if_neg hdata, h.datatype, h.dataleft]
      exact ⟨rfl, h⟩

theorem Tracks.read (h : Tracks g s) (n : ℕ) :
    Output.bytes (usbRead n g).1 = (s.read n).1 ∧ Tracks (usbRead n g).2 (s.read n).2 := by
  unfold usbRead Stream.read
  dsimp only
  rw [h.cart]
  by_cases hcart : s.usb.cart = .none
  · rw [if_pos hcart, if_pos (.inl hcart)]
    exact ⟨rfl, h⟩
  · rw [if_neg hcart]
    by_cases hdata : s.usb.data = []
    · rw [if_pos (h.data_eq_nil.mpr hdata), if_pos (.inr hdata)]
      exact ⟨rfl, h⟩
    · rw [if_neg fun hzero => hdata (h.data_eq_nil.mp hzero), if_neg (not_or.mpr ⟨hcart, hdata⟩)]
      have hkept : s.kept = true := by
        by_contra hno
        exact hdata (h.written (by simpa using hno))
      have hoffset : g.usbDatasize - g.usbDataleft = s.past.length := by
        rw [h.datasize, h.dataleft, Nat.add_sub_cancel]
      rw [hoffset]
      obtain ⟨hbytes, hreads, hcoherent⟩ := readLoop_spec n (s.past.length / bufferSize * bufferSize)
        (s.past.length % bufferSize) g (Nat.mod_lt _ (by decide)).le (h.coherent hkept)
      refine ⟨congrArg _ ?_, ?_⟩
      · -- what is in the memory behind what was read
        rw [hbytes, Nat.div_add_mod', h.dataleft]
        have hmemory := h.memory hkept
        rw [h.datasize] at hmemory
        have hdrop := drop_block (m := g.sdram) (i := 0) (k := s.past.length) (n := s.usb.data.length)
        rw [hmemory, List.drop_left, Nat.zero_add] at hdrop
        rw [← take_block (Nat.min_le_right n _), ← hdrop]
        exact List.take_eq_take_min.symm
      · have hpass := h.pass hreads fun _ => hcoherent
        by_cases hend : (s.usb.data.drop n) = []
        · rw [if_pos (hpass.data_eq_nil.mpr hend)]
          exact hpass.repoll hend
        · rw [if_neg fun hzero => hend (hpass.data_eq_nil.mp hzero)]
          have hsame : (s.pass n).repoll = s.pass n := if_neg fun hboth => hend hboth.2
          rw [hsame]
          exact hpass

theorem Tracks.skip (h : Tracks g s) (n : ℕ) : Tracks (usbSkip n g) (s.skip n) := by
  unfold usbSkip Stream.skip
  by_cases hfar : g.usbDataleft < n
  · have hnil : (s.pass n).usb.data = [] := List.drop_of_length_le (by have hleft := h.dataleft; omega)
    rw [if_pos hfar, if_pos (h.dataleft ▸ hfar)]
    have hreads : Reads g (min n g.usbDataleft) { g with usbDataleft := 0 } :=
      ⟨rfl, rfl, rfl, rfl, by show 0 = _; omega⟩
    exact (h.pass hreads h.coherent).repoll hnil
  · rw [if_neg hfar, if_neg (h.dataleft ▸ hfar)]
    have hreads : Reads g (min n g.usbDataleft) { g with usbDataleft := g.usbDataleft - n } :=
      ⟨rfl, rfl, rfl, rfl, by show g.usbDataleft - n = _; omega⟩
    exact h.pass hreads h.coherent

theorem Tracks.rewind (h : Tracks g s) (n : ℕ) (hcareful : s.Careful (.rewind n)) :
    Tracks (usbRewind n g) (s.rewind n) := by
  have hlen : s.past.length - n + (s.past.length - (s.past.length - n) + s.usb.data.length) =
      s.past.length + s.usb.data.length := by omega
  have hdata : (s.rewind n).usb.data.length = s.past.length - (s.past.length - n) + s.usb.data.length := by
    show (s.past.drop (s.past.length - n) ++ s.usb.data).length = _
    rw [List.length_append, List.length_drop]
  have hpast : (s.rewind n).past.length = s.past.length - n := by
    show (s.past.take (s.past.length - n)).length = _
    rw [List.length_take]
    omega
  refine ⟨h.cart, h.device, h.datatype, ?_, ?_, fun hkept => ?_, h.coherent, fun hno => ?_⟩
  · rw [hpast, hdata, hlen]
    exact h.datasize
  · show min (g.usbDataleft + n) g.usbDatasize = _
    rw [hdata, h.dataleft, h.datasize]
    omega
  · show block g.sdram 0 g.usbDatasize = s.past.take _ ++ (s.past.drop _ ++ s.usb.data)
    rw [← List.append_assoc, List.take_append_drop]
    exact h.memory hkept
  · -- there was nothing to rewind
    have hnone : s.past.drop (s.past.length - n) = [] := by
      rcases hcareful with hkept | hnil | hzero
      · exact absurd (hkept.symm.trans hno) (by decide)
      · rw [hnil, List.drop_nil]
      · rw [hzero, Nat.sub_zero, List.drop_length]
    show s.past.drop _ ++ s.usb.data = []
    rw [hnone, h.written hno]
    rfl

theorem Tracks.purge (h : Tracks g s) : Tracks (usbPurge g) s.purge := h.reset.repoll rfl

theorem Tracks.write (h : Tracks g s) (ans : Answers) (datatype : UInt8) (data : List UInt8) :
    Output.written (usbWrite ans datatype data g).1 = (s.write ans datatype data).1 ∧
      Tracks (usbWrite ans datatype data g).2 (s.write ans datatype data).2 := by
  unfold usbWrite Stream.write Netlib.usbWrite
  rw [h.cart]
  by_cases hcart : s.usb.cart = .none
  · rw [if_pos hcart, if_pos hcart, if_pos (.inl hcart)]
    exact ⟨rfl, h⟩
  · rw [if_neg hcart, if_neg hcart]
    by_cases hdata : s.usb.data = []
    · rw [if_neg (not_not.mpr (h.data_eq_nil.mpr hdata)), if_neg (not_not.mpr hdata),
        if_neg (not_or.mpr ⟨hcart, not_not.mpr hdata⟩)]
      exact ⟨congrArg _ (funcPointerWrite_result _ _ _ _ _ _ _ _),
        ⟨h.cart, h.device, h.datatype, h.datasize, h.dataleft, fun hno => Bool.noConfusion hno,
          fun hno => Bool.noConfusion hno, fun _ => hdata⟩⟩
    · rw [if_pos fun hzero => hdata (h.data_eq_nil.mp hzero), if_pos hdata, if_pos (.inr hdata)]
      exact ⟨rfl, h⟩

theorem Tracks.arrive (h : Tracks g s) (t : Transfer) (pad : UInt8) :
    Tracks { g with device := g.device.arrive t pad } { s with usb := UsbStream.arrive t.toMessage s.usb } := by
  have hholds := h.device.arrive t pad
  unfold UsbStream.arrive
  rw [h.cart] at hholds
  split_ifs at hholds ⊢ <;>
    exact ⟨(g.device.cart_arrive t pad).trans h.cart, hholds, h.datatype, h.datasize, h.dataleft, h.memory,
      h.coherent, h.written⟩

/-- **An event** does what it is for. -/
theorem Tracks.handle (h : Tracks g s) {e : Event} (hcareful : s.Careful e) :
    (UsbStream.handle g e).1 = (s.handle e).1 ∧ Tracks (UsbStream.handle g e).2 (s.handle e).2 := by
  cases e with
  | poll stack => exact h.poll stack
  | read n => exact h.read n
  | skip n => exact ⟨rfl, h.skip n⟩
  | rewind n => exact ⟨rfl, h.rewind n hcareful⟩
  | purge => exact ⟨rfl, h.purge⟩
  | write ans datatype data => exact h.write ans datatype data
  | arrive t pad => exact ⟨rfl, h.arrive t pad⟩

theorem Tracks.handleAll {l : List Event} (h : Tracks g s) (hcareful : Along Stream.step Stream.Careful s l) :
    (UsbStream.handleAll g l).1 = (s.handleAll l).1 ∧ Tracks (UsbStream.handleAll g l).2 (s.handleAll l).2 := by
  induction l generalizing g s with
  | nil => exact ⟨rfl, h⟩
  | cons e l ih =>
    obtain ⟨hone, hrest⟩ := hcareful _ rfl
    obtain ⟨hout, htracks⟩ := h.handle hone
    obtain ⟨houts, hend⟩ := ih htracks hrest
    exact ⟨congrArg₂ List.cons hout houts, hend⟩

end Calls

/-! ### Runs -/

/-- **In every run** from the start, with anything in the buffer and in the memory of the cart and whatever comes
between the calls, the application gets what the message is for, if it rewinds no message that something was
written over. -/
theorem run_refines {device : Device} {incoming : List Message} (hdevice : device.Holds incoming)
    (sdram usbBuffer : ℕ → UInt8) {l : List Event}
    (hcareful : Along Stream.step Stream.Careful (.start device.cart incoming) l) :
    (handleAll (startGlobals device sdram usbBuffer) l).1 = ((Stream.start device.cart incoming).handleAll l).1 ∧
      Tracks (handleAll (startGlobals device sdram usbBuffer) l).2
        ((Stream.start device.cart incoming).handleAll l).2 :=
  Tracks.handleAll ⟨rfl, hdevice, rfl, rfl, rfl, fun _ => rfl, fun _ _ hb => (by cases hb),
    fun hno => Bool.noConfusion hno⟩ hcareful

/-- Three bytes. -/
def three : Transfer := ⟨0x27, [7, 8, 9], by decide, by decide⟩

theorem holds_three : (Device.everdrive (three.frame 0)).Holds [three.toMessage] :=
  ⟨[three], ⟨three.frame 0, [], three.isFrame_frame 0, (List.append_nil _).symm, rfl⟩, rfl⟩

/-- The second byte is read twice, and another message comes before the rest is read. -/
def rereads : List Event :=
  [.poll fun _ => 0, .read 2, .rewind 1, .arrive three 0, .read 5, .poll fun _ => 0, .read 1]

theorem run_refines_three : (handleAll (startGlobals (.everdrive (three.frame 0)) (fun _ => 1) fun _ => 2)
    rereads).1 = [.header 0x27000003#32, .bytes [7, 8], .nothing, .nothing, .bytes [8, 9], .header 0x27000003#32,
      .bytes [7]] :=
  (run_refines holds_three (fun _ => 1) (fun _ => 2) (l := rereads) (by decide)).1.trans (by decide)

/-- **What the library sees**: in every run in which nothing is rewound, the code gives what the library's model of
the USB does. -/
theorem run_usb {device : Device} {incoming : List Message} (hdevice : device.Holds incoming)
    (sdram usbBuffer : ℕ → UInt8) {l : List Event} (hl : ∀ e ∈ l, Forward e) :
    (handleAll (startGlobals device sdram usbBuffer) l).1 = (callAll ⟨device.cart, 0, [], incoming⟩ l).1 := by
  have hcareful := (Stream.start device.cart incoming).careful_of_forward hl
  rw [(run_refines hdevice sdram usbBuffer hcareful).1]
  exact ((Stream.start device.cart incoming).callAll_usb hl).1

/-- The first byte is skipped, and another message comes. -/
def skips : List Event := [.poll fun _ => 0, .skip 1, .arrive three 0, .read 2, .poll fun _ => 0, .read 3]

theorem run_usb_three : (handleAll (startGlobals (.everdrive (three.frame 0)) (fun _ => 1) fun _ => 2) skips).1 =
    [.header 0x27000003#32, .nothing, .nothing, .bytes [8, 9], .header 0x27000003#32, .bytes [7, 8, 9]] :=
  (run_usb holds_three (fun _ => 1) (fun _ => 2) (l := skips) (by simp [skips, Forward])).trans (by decide)

end N64NetLib.N64.UsbStream
