import N64NetLib.Lib.Run
import N64NetLib.N64.Netlib

/-! # A program on the N64

One thread runs the application and the library. The application calls the library, `netlib_poll` calls
functions of the application, and these call the library again, to any depth. The stack holds the calls
of `netlib_poll` that have not returned, the innermost first, each with the place it is at (`Frame`).

A step is a call of the library by the application, one turn of the loop of `netlib_poll` or its end,
or the return of a function that `netlib_poll` called. What the application does in such a function is
not fixed: its calls are steps like any other. `committed` and `written` are no state of the program;
they record what was given to the send functions and what a `usb_write` of a packet succeeded with. -/

namespace N64NetLib.N64.Machine

open N64NetLib.Lib.Run N64NetLib.Packet.Sequence N64NetLib.N64.Netlib

/-- Where a call of `netlib_poll` is: in front of a turn of its loop, in the disconnect or the
reconnect callback, or in the function registered for a type. -/
inductive Frame
  | polling (curtime : BitVec 64)
  | notified (lost : Bool) (curtime : BitVec 64)
  | dispatched (type : UInt8) (address : BitVec 32) (size : BitVec 16) (curtime : BitVec 64)
deriving DecidableEq

structure State where
  globals : Globals
  usb : Usb
  stack : List Frame
  committed : List (List UInt8)
  written : List (List UInt8)

/-- What `netlib_poll` gets from its surroundings: the clock and `usb_timedout`. -/
structure Now where
  curtime : BitVec 64
  timedout : Bool

/-- A call of the library by the application. -/
inductive Call
  | init (cart : Cart)
  | setclient (num : UInt8)
  | callbackDisconnect (cycles callback : BitVec 32)
  | callbackReconnect (callback : BitVec 32)
  | register (type : UInt8) (callback : BitVec 32)
  | start (type : UInt8)
  | write (v : Value)
  | setflags (flags : UInt8)
  | broadcast (now : Now)
  | send (client : UInt8) (now : Now)
  | sendtoserver (now : Now)
  | poll (now : Now)
  | read (size : ℕ)
  | skip (count : ℕ)

inductive Label
  | arrive (m : Message)
  | call (c : Call)
  | turn (locals : Locals) (result : Written)
  | ret

/-- The application is running: no call of `netlib_poll`, or the innermost is in a callback. -/
def userRuns : List Frame → Bool
  | .polling _ :: _ => false
  | _ => true

/-- `netlib_poll` up to its loop. -/
def enterPoll (now : Now) (s : State) : State :=
  let (g, callback) := checkConnection now.curtime now.timedout s.globals
  let frame := match callback with
    | none => .polling now.curtime
    | some lost => .notified lost now.curtime
  { s with globals := g, stack := frame :: s.stack }

/-- A send function, which ends with `netlib_poll`. -/
def sendNow (f : Globals → Globals) (now : Now) (s : State) : State :=
  enterPoll now
    { s with globals := f s.globals, committed := s.committed ++ [(f s.globals).packet] }

/-- A call of the library. -/
def call (host : Host) (s : State) : Call → State
  | .init cart =>
    { s with globals := netlibInitialize s.globals, usb := { s.usb with cart := cart } }
  | .setclient num => { s with globals := netlibSetclient num s.globals }
  | .callbackDisconnect cycles callback =>
    { s with globals := netlibCallbackDisconnect cycles callback s.globals }
  | .callbackReconnect callback => { s with globals := netlibCallbackReconnect callback s.globals }
  | .register type callback => { s with globals := netlibRegister type callback s.globals }
  | .start type => { s with globals := netlibStart type s.globals }
  | .write v => { s with globals := netlibWrite v s.globals }
  | .setflags flags => { s with globals := netlibSetflags flags s.globals }
  | .broadcast now => sendNow (netlibBroadcast host) now s
  | .send client now => sendNow (netlibSend host client) now s
  | .sendtoserver now => sendNow netlibSendtoserver now s
  | .poll now => enterPoll now s
  | .read size => { s with usb := (usbRead size s.usb).2 }
  | .skip count => { s with usb := usbSkip count s.usb }

/-- The end of `netlib_poll`: the pending packet is written, and stays pending if that is refused. -/
def finish (result : Written) (u : Usb) (rest : List Frame) (s : State) : State :=
  if s.globals.sendafterpoll then
    let r := usbWrite result u
    { s with
      usb := u
      stack := rest
      globals := { s.globals with sendafterpoll := decide (r = .fail) }
      written := if r = .success then s.written ++ [s.globals.packet] else s.written }
  else { s with usb := u, stack := rest }

/-- One turn of the loop of `netlib_poll`, from one `usb_poll` to the next or into a callback. -/
def turn (locals : Locals) (result : Written) (curtime : BitVec 64) (rest : List Frame)
    (s : State) : State :=
  let (header, u) := usbPoll s.usb
  if header = 0 then finish result u rest s
  else if header = datatypeNetpacket then
    match readHeader locals s.globals u with
    | (.unsupported, u) => { s with usb := usbPurge u, stack := rest }
    | (.unregistered, u) => { s with usb := usbPurge u, stack := rest }
    | (.callback type address size, u) =>
      { s with usb := u, stack := .dispatched type address size curtime :: rest }
  else { s with usb := usbPurge u, stack := .polling curtime :: rest }

/-- A function that `netlib_poll` called returns. -/
def ret (s : State) : Option State :=
  match s.stack with
  | .notified _ curtime :: rest => some { s with stack := .polling curtime :: rest }
  | .dispatched _ _ _ curtime :: rest =>
    some
      { s with
        globals := { s.globals with lastpkt := curtime }
        usb := usbPurge s.usb
        stack := .polling curtime :: rest }
  | _ => none

/-- One step of the program. -/
def step (host : Host) (s : State) : Label → Option State
  | .arrive m => some { s with usb := { s.usb with incoming := s.usb.incoming ++ [m] } }
  | .call c => if userRuns s.stack then some (call host s c) else none
  | .turn locals result =>
    match s.stack with
    | .polling curtime :: rest => some (turn locals result curtime rest s)
    | _ => none
  | .ret => ret s

/-- The program starts. -/
def init (behind : ℕ → BitVec 32) : State where
  globals := startGlobals behind
  usb := ⟨.none, 0, [], []⟩
  stack := []
  committed := []
  written := []

end N64NetLib.N64.Machine
