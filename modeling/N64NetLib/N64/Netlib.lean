import N64NetLib.Lib.BigEndian
import N64NetLib.Lib.Memory
import N64NetLib.Packet.Basic
import N64NetLib.Packet.Sequence

/-! # The N64 library

The globals of `netlib.c` and what its functions do to them, with `SAFETYCHECKS` on, over the part of
`usb.c` that they use. `netlib_poll` calls functions of the application, which call the library again,
so it is not a function here but a machine with a stack (`N64NetLib.N64.Machine`); this module has the
rest. The N64 is big-endian: a word goes into the write buffer in network order. -/

namespace N64NetLib.N64.Netlib

open N64NetLib.Lib.BigEndian N64NetLib.Lib.Memory N64NetLib.Packet.Basic N64NetLib.Packet.Sequence

/-! ### The USB layer -/

/-- `CART_NONE`, `CART_64DRIVE`, `CART_EVERDRIVE`, `CART_SC64`. -/
inductive Cart
  | none | d64 | everdrive | sc64
deriving DecidableEq, Repr

/-- What the PC sends in one transfer. -/
structure Message where
  datatype : UInt8
  data : List UInt8
deriving DecidableEq, Repr

/-- The globals of `usb.c`. `data` are the bytes still to be read, of which there are `usb_dataleft`,
and `incoming` is what the cart has received and not yet been asked for. -/
structure Usb where
  cart : Cart
  datatype : UInt8
  data : List UInt8
  incoming : List Message
deriving DecidableEq, Repr

/-- What `usb_write` returns: `1`, `0`, `-1`. -/
inductive Written
  | success | fail | timeout
deriving DecidableEq, Repr

/-- `DATATYPE_NETPACKET`. -/
def datatypeNetpacket : UInt8 := 0x27

/-- `funcPointer_poll`: the cart hands over the next message, if it has one. -/
def cartPoll (u : Usb) : Usb :=
  match u.incoming with
  | [] => u
  | m :: rest => { u with datatype := m.datatype, data := m.data, incoming := rest }

/-- The 64Drive is polled again when the data has been read. -/
def repoll (u : Usb) : Usb := if u.cart = .d64 ∧ u.data = [] then cartPoll u else u

/-- `USBHEADER_GETTYPE(usb_poll())`. -/
def usbPoll (u : Usb) : UInt8 × Usb :=
  if u.cart = .none then (0, u)
  else if u.data ≠ [] then (u.datatype, u)
  else
    let u := cartPoll { u with datatype := 0 }
    (u.datatype, u)

/-- `usb_read`: the bytes that are copied into the buffer. -/
def usbRead (n : ℕ) (u : Usb) : List UInt8 × Usb :=
  if u.cart = .none ∨ u.data = [] then ([], u)
  else (u.data.take n, repoll { u with data := u.data.drop n })

/-- `usb_skip`. -/
def usbSkip (n : ℕ) (u : Usb) : Usb :=
  let rest : Usb := { u with data := u.data.drop n }
  if n > u.data.length then repoll rest else rest

/-- `usb_purge`. -/
def usbPurge (u : Usb) : Usb := repoll { u with datatype := 0, data := [] }

/-- `usb_write`, where the cart's own write function ends with `result`. -/
def usbWrite (result : Written) (u : Usb) : Written :=
  if u.cart = .none then .fail
  else if u.data ≠ [] then .fail
  else result

/-! ### The globals -/

/-- The globals of `netlib.c`. A function pointer is its address, and zero is `NULL`; `funcptrs` is the
memory from the table of callbacks on, of which the first 64 words are the table. -/
structure Globals where
  timeouttime : BitVec 32
  writecursize : ℕ
  writebuffer : ℕ → UInt8
  clnumber : UInt8
  lastpkt : BitVec 64
  sendafterpoll : Bool
  disconnected : Bool
  funcptrDisconnect : BitVec 32
  funcptrReconnect : BitVec 32
  funcptrs : ℕ → BitVec 32

/-- `NETLIB_VERSION`. -/
def netlibVersion : UInt8 := 1

/-- `PACKET_HEADERSIZE`. -/
def packetHeadersize : ℕ := 18

/-- `MAX_UNIQUEPACKETS`. -/
def maxUniquepackets : UInt8 := 64

/-- The bytes that `usb_write` is given. -/
def Globals.packet (g : Globals) : List UInt8 := block g.writebuffer 0 g.writecursize

/-- The globals when the program starts; `behind` is what lies behind the table. -/
def startGlobals (behind : ℕ → BitVec 32) : Globals :=
  ⟨0, 0, fun _ => 0, 0, 0, false, false, 0, 0, fun i => if i < 64 then 0 else behind i⟩

/-! ### Configuration -/

/-- `netlib_initialize`. The arguments of its `memset` are the other way round: it sets one byte, the
first of the table, to the low byte of `sizeof(global_funcptrs)`, which is 256. -/
def netlibInitialize (g : Globals) : Globals :=
  { g with
    writebuffer := store (store g.writebuffer 0 [0x4E, 0x4C, 0x50, netlibVersion]) 6
      (List.replicate 6 0)
    funcptrs := Function.update g.funcptrs 0 (g.funcptrs 0 &&& 0x00FFFFFF#32)
    clnumber := 0
    sendafterpoll := false
    disconnected := false
    funcptrDisconnect := 0
    funcptrReconnect := 0
    lastpkt := 0
    timeouttime := 0 }

/-- `netlib_setclient`. -/
def netlibSetclient (num : UInt8) (g : Globals) : Globals := { g with clnumber := num }

/-- `netlib_callback_disconnect`, with the time in the cycles of the SDK's clock. -/
def netlibCallbackDisconnect (cycles callback : BitVec 32) (g : Globals) : Globals :=
  { g with timeouttime := cycles, funcptrDisconnect := callback }

/-- `netlib_callback_reconnect`. -/
def netlibCallbackReconnect (callback : BitVec 32) (g : Globals) : Globals :=
  { g with funcptrReconnect := callback }

/-- `netlib_register`. -/
def netlibRegister (type : UInt8) (callback : BitVec 32) (g : Globals) : Globals :=
  if type > maxUniquepackets then g
  else { g with funcptrs := Function.update g.funcptrs type.toNat callback }

/-! ### Building a packet -/

/-- `netlib_start`. -/
def netlibStart (type : UInt8) (g : Globals) : Globals :=
  { g with writebuffer := store g.writebuffer 4 [type, 0], writecursize := packetHeadersize }

/-- What the `netlib_write` functions append: the argument of each, floating-point numbers as their
bits, and for `netlib_writebytes` the bytes of an array. -/
inductive Value
  | byte (data : UInt8)
  | word (data : BitVec 16)
  | dword (data : BitVec 32)
  | qword (data : BitVec 64)
  | float (data : BitVec 32)
  | double (data : BitVec 64)
  | bytes (data : List UInt8)

/-- The eight bytes of a 64-bit word in network order. -/
def be64 (x : BitVec 64) : List UInt8 :=
  [byteOf x 7, byteOf x 6, byteOf x 5, byteOf x 4, byteOf x 3, byteOf x 2, byteOf x 1, byteOf x 0]

/-- The bytes of an argument as the N64 has them in memory. -/
def Value.toBytes : Value → List UInt8
  | byte data => [data]
  | word data => be16 data
  | dword data => be32 data
  | qword data => be64 data
  | float data => be32 data
  | double data => be64 data
  | bytes data => data

/-- The `netlib_write` functions: a value that does not fit is not written. The sum is one of sizes in
the memory of the N64, far from the end of a `size_t`. -/
def netlibWrite (v : Value) (g : Globals) : Globals :=
  if g.writecursize + v.toBytes.length > packetMaxSize then g
  else
    { g with
      writebuffer := store g.writebuffer g.writecursize v.toBytes
      writecursize := g.writecursize + v.toBytes.length }

/-- `netlib_writebyte`. -/
def netlibWritebyte (data : UInt8) : Globals → Globals := netlibWrite (.byte data)

/-- `netlib_writeword`. -/
def netlibWriteword (data : BitVec 16) : Globals → Globals := netlibWrite (.word data)

/-- `netlib_writedword`. -/
def netlibWritedword (data : BitVec 32) : Globals → Globals := netlibWrite (.dword data)

/-- `netlib_writeqword`. -/
def netlibWriteqword (data : BitVec 64) : Globals → Globals := netlibWrite (.qword data)

/-- `netlib_writefloat`. -/
def netlibWritefloat (data : BitVec 32) : Globals → Globals := netlibWrite (.float data)

/-- `netlib_writedouble`. -/
def netlibWritedouble (data : BitVec 64) : Globals → Globals := netlibWrite (.double data)

/-- `netlib_writebytes`. -/
def netlibWritebytes (data : List UInt8) : Globals → Globals := netlibWrite (.bytes data)

/-- `netlib_setflags`. -/
def netlibSetflags (flags : UInt8) (g : Globals) : Globals :=
  { g with writebuffer := store g.writebuffer 5 [flags] }

/-! ### Sending a packet -/

/-- The `datasize` of the three send functions. -/
def datasize (g : Globals) : BitVec 16 := BitVec.ofInt 16 (g.writecursize - packetHeadersize)

/-- What the three send functions do in front of `netlib_poll`. -/
def commit (mask : BitVec 32) (g : Globals) : Globals :=
  { g with
    writebuffer := store (store g.writebuffer 12 (be32 mask)) 16 (be16 (datasize g))
    sendafterpoll := true }

/-- The `mask` of `netlib_broadcast`. -/
def broadcastMask (host : Host) (g : Globals) : BitVec 32 :=
  0xFFFFFFFF#32 &&& ~~~ cppShiftOne host (g.clnumber.toNat - 1)

/-- The `mask` of `netlib_send`. -/
def sendMask (host : Host) (client : UInt8) : BitVec 32 := cppShiftOne host client.toNat

/-- `netlib_broadcast`, in front of `netlib_poll`. -/
def netlibBroadcast (host : Host) (g : Globals) : Globals := commit (broadcastMask host g) g

/-- `netlib_send`, in front of `netlib_poll`. -/
def netlibSend (host : Host) (client : UInt8) (g : Globals) : Globals := commit (sendMask host client) g

/-- `netlib_sendtoserver`, in front of `netlib_poll`. -/
def netlibSendtoserver (g : Globals) : Globals := commit 0 g

/-! ### Polling -/

/-- The first part of `netlib_poll`: whether the connection was lost or came back. The second result
says that a callback is called, and whether it is the disconnect callback. `usb_getcart` is compared
with a constant without being called, which never makes them equal. -/
def checkConnection (curtime : BitVec 64) (timedout : Bool) (g : Globals) : Globals × Option Bool :=
  if !g.disconnected && (decide (g.lastpkt + g.timeouttime.setWidth 64 < curtime) || timedout) then
    ({ g with disconnected := true }, if g.funcptrDisconnect ≠ 0 then some true else none)
  else if g.disconnected && decide (g.lastpkt + g.timeouttime.setWidth 64 > curtime) then
    ({ g with disconnected := false }, if g.funcptrReconnect ≠ 0 then some false else none)
  else (g, none)

/-- What the local variables of `netlib_poll` hold before they are read into. -/
structure Locals where
  version : UInt8
  type : UInt8
  size : UInt8 × UInt8

/-- What `netlib_poll` finds in a NetLib packet: a version it does not support, no callback for the
type, or the callback to call with the type and the size. -/
inductive Found
  | unsupported
  | unregistered
  | callback (type : UInt8) (address : BitVec 32) (size : BitVec 16)
deriving DecidableEq, Repr

/-- `netlib_poll` reads the header of a packet. -/
def readHeader (locals : Locals) (g : Globals) (u : Usb) : Found × Usb :=
  let u := usbSkip 3 u
  let (version, u) := usbRead 1 u
  if version.headD locals.version > netlibVersion then (.unsupported, u)
  else
    let (type, u) := usbRead 1 u
    let (_, u) := usbRead 1 u
    let u := usbSkip 6 u
    let (_, u) := usbRead 4 u
    let (size, u) := usbRead 2 u
    let type := type.headD locals.type
    if g.funcptrs type.toNat = 0 then (.unregistered, u)
    else
      (.callback type (g.funcptrs type.toNat)
        (ofBe16 (size.getD 0 locals.size.1) (size.getD 1 locals.size.2)), u)

end N64NetLib.N64.Netlib
