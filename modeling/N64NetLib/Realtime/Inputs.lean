import N64NetLib.Lib.Run
import N64NetLib.N64.Builder

/-! # Are the inputs of a player applied entry by entry?

Fifteen times a second the N64 sends the inputs of the last frames in one packet: a count, and for each
input its time, its timestep and two bytes for the stick. `do_update` of the Realtime server goes through
them and applies those that are newer than the last input of the player it has applied.

It reads the timestep and the stick only for these. Behind an input that is not new it takes its six
bytes for the beginning of the next one. A batch is read as it was written if all its inputs but the last
one are new when it is their turn (`along_applied`). The count is a signed byte to it, so that of a batch
of more than 127 inputs it applies none. -/

namespace N64NetLib.Realtime.Inputs

open N64NetLib.Lib.BigEndian N64NetLib.Lib.Run N64NetLib.Packet.Basic N64NetLib.N64.Netlib
open N64NetLib.N64.Builder

/-! ### The N64 -/

/-- `InputToAck`, as far as it is sent. -/
structure InputToAck where
  time : BitVec 64
  dt : BitVec 32
  stickx : UInt8
  sticky : UInt8
deriving DecidableEq, Repr

/-- The time of an input, as the `long` it is for the server. -/
def InputToAck.sendtime (insend : InputToAck) : ℤ := insend.time.toInt

/-- `PACKETID_CLIENTINPUT`. -/
def clientInput : UInt8 := 8

/-- The packet that `stage_game_update` makes of the inputs it has buffered. -/
def writeInputs (inputstosend : List InputToAck) (g : Globals) : Globals :=
  inputstosend.foldl (fun g insend =>
      netlibWritebyte insend.sticky (netlibWritebyte insend.stickx
        (netlibWritefloat insend.dt (netlibWriteqword insend.time g))))
    (netlibWritebyte (UInt8.ofNat inputstosend.length) (netlibStart clientInput g))

/-- The bytes of an input. -/
def InputToAck.toBytes (insend : InputToAck) : List UInt8 :=
  be64 insend.time ++ be32 insend.dt ++ [insend.stickx, insend.sticky]

/-- A count and that many inputs. -/
def payload (inputs : List InputToAck) : List UInt8 :=
  UInt8.ofNat inputs.length :: inputs.flatMap InputToAck.toBytes

/-! ### The server -/

/-- `getLong`. -/
def getLong : List UInt8 → Option (BitVec 64 × List UInt8)
  | b0 :: b1 :: b2 :: b3 :: b4 :: b5 :: b6 :: b7 :: bb =>
    some (ofBe32 b0 b1 b2 b3 ++ ofBe32 b4 b5 b6 b7, bb)
  | _ => none

/-- `getFloat`, as the bits of the number. -/
def getFloat : List UInt8 → Option (BitVec 32 × List UInt8)
  | b0 :: b1 :: b2 :: b3 :: bb => some (ofBe32 b0 b1 b2 b3, bb)
  | _ => none

/-- `Player`, as far as its inputs are concerned. -/
structure Player (Obj : Type) where
  lastupdate : BitVec 64
  obj : Obj

section Update
variable {Obj : Type} (apply : InputToAck → Obj → Obj)

/-- A new input is applied: the direction and the speed of the stick, and `ApplyObjectPhysics`. -/
def Player.applyInput (insend : InputToAck) (sender : Player Obj) : Player Obj :=
  ⟨insend.time, apply insend sender.obj⟩

/-- The loop of `do_update` over the inputs of a packet. A `BufferUnderflowException` is caught behind
it. -/
def readInputs : ℕ → List UInt8 → Player Obj → Player Obj
  | 0, _, sender => sender
  | n + 1, bb, sender =>
    match getLong bb with
    | none => sender
    | some (sendtime, bb) =>
      if sender.lastupdate.toInt < sendtime.toInt then
        match getFloat bb with
        | some (fdt, stickx :: sticky :: bb) =>
          readInputs n bb (sender.applyInput apply ⟨sendtime, fdt, stickx, sticky⟩)
        | _ => sender
      else readInputs n bb sender

/-- `do_update` for a `PACKETID_CLIENTINPUT`. -/
def updatePlayer (data : List UInt8) (sender : Player Obj) : Player Obj :=
  match data with
  | [] => sender
  | inputcount :: bb => readInputs apply inputcount.toBitVec.toInt.toNat bb sender

/-- The players of the game. -/
abbrev Players (Obj : Type) := Fin 32 → Option (Player Obj)

/-- The inputs of a packet. -/
abbrev Batch := { inputs : List InputToAck // inputs.length ≤ 255 }

/-- A batch of a player arrives. -/
structure Arrival where
  sender : Fin 32
  batch : Batch

/-- `do_update` for a message. -/
def update (players : Players Obj) (a : Arrival) : Players Obj :=
  match players a.sender with
  | none => players
  | some sender =>
    Function.update players a.sender (some (updatePlayer apply (payload a.batch.val) sender))

def step (players : Players Obj) (a : Arrival) : Option (Players Obj) := some (update apply players a)

/-! ### What should come of it -/

/-- The inputs that are newer than the last one applied, each when it is its turn. -/
def newer (lastupdate : ℤ) : List InputToAck → List InputToAck
  | [] => []
  | insend :: inputs =>
    if lastupdate < insend.sendtime then insend :: newer insend.sendtime inputs
    else newer lastupdate inputs

/-- The player when these inputs have been applied. -/
def Player.applyAll (inputs : List InputToAck) (sender : Player Obj) : Player Obj where
  lastupdate := inputs.getLast?.elim sender.lastupdate InputToAck.time
  obj := inputs.foldl (fun obj insend => apply insend obj) sender.obj

/-- **The newer inputs are applied**, in order, and the other players are left alone. -/
def Applied (players : Players Obj) (a : Arrival) : Prop :=
  ∀ i, update apply players a i =
    if i = a.sender then (players i).map fun sender =>
      sender.applyAll apply (newer sender.lastupdate.toInt a.batch.val)
    else players i

/-- All but the last of the inputs are new when it is their turn. -/
def AllNew (lastupdate : ℤ) : List InputToAck → Prop
  | [] => True
  | [_] => True
  | insend :: next :: inputs =>
    lastupdate < insend.sendtime ∧ AllNew insend.sendtime (next :: inputs)

/-- The condition: the inputs of a batch are new, the last one maybe not, and in one that is too large none
is. -/
def Readable (players : Players Obj) (a : Arrival) : Prop :=
  ∀ sender, players a.sender = some sender →
    if a.batch.val.length ≤ 127 then AllNew sender.lastupdate.toInt a.batch.val
    else newer sender.lastupdate.toInt a.batch.val = []

end Update

/-! ### The packet that the N64 builds -/

/-- An input that fits is in the buffer when it has been written. -/
theorem holds_writeInput {g : Globals} {d : Draft} (h : Holds g d) (insend : InputToAck)
    (hfits : packetHeadersize + d.data.length + 14 ≤ packetMaxSize) :
    Holds (netlibWritebyte insend.sticky (netlibWritebyte insend.stickx
        (netlibWritefloat insend.dt (netlibWriteqword insend.time g))))
      { d with data := d.data ++ insend.toBytes } := by
  have htime := holds_write_of_fits h (v := .qword insend.time) (by simp [Value.toBytes, be64]; omega)
  have hdt := holds_write_of_fits htime (v := .float insend.dt)
    (by simp [Value.toBytes, be64, be32]; omega)
  have hx := holds_write_of_fits hdt (v := .byte insend.stickx)
    (by simp [Value.toBytes, be64, be32]; omega)
  have hy := holds_write_of_fits hx (v := .byte insend.sticky)
    (by simp [Value.toBytes, be64, be32]; omega)
  simpa [Value.toBytes, InputToAck.toBytes, netlibWritebyte, netlibWritefloat, netlibWriteqword] using hy

/-- **The N64 builds the payload of its inputs.** -/
theorem holds_writeInputs {g : Globals} (h : Ready g) {inputs : List InputToAck}
    (hlen : inputs.length ≤ 255) : Holds (writeInputs inputs g) ⟨clientInput, 0, payload inputs⟩ := by
  have hfold : ∀ (rest : List InputToAck) {g : Globals} {d : Draft}, Holds g d →
      packetHeadersize + d.data.length + 14 * rest.length ≤ packetMaxSize →
        Holds (rest.foldl (fun g insend =>
          netlibWritebyte insend.sticky (netlibWritebyte insend.stickx
            (netlibWritefloat insend.dt (netlibWriteqword insend.time g)))) g)
          { d with data := d.data ++ rest.flatMap InputToAck.toBytes } := by
    intro rest
    induction rest with
    | nil => intro g d hd _; simpa using hd
    | cons insend rest ih =>
      intro g d hd hfits
      rw [List.length_cons] at hfits
      have hone := holds_writeInput hd insend (by omega)
      have hrest := ih hone (by simp [InputToAck.toBytes, be64, be32]; omega)
      simpa using hrest
  have hstart := holds_write_of_fits (holds_start h clientInput) (v := .byte (UInt8.ofNat inputs.length))
    (by simp [Draft.start, Value.toBytes, packetHeadersize, packetMaxSize])
  have hall := hfold inputs hstart (by
    simp only [Draft.start, Value.toBytes, packetHeadersize, packetMaxSize, List.nil_append,
      List.length_singleton]
    omega)
  simpa [payload, Draft.start, Value.toBytes, writeInputs, netlibWritebyte] using hall

/-! ### How the server reads it -/

theorem getLong_be64 (x : BitVec 64) (bb : List UInt8) : getLong (be64 x ++ bb) = some (x, bb) := by
  have hhigh : ofBe32 (byteOf x 7) (byteOf x 6) (byteOf x 5) (byteOf x 4) = x.extractLsb' 32 32 := by
    ext i hi
    simp only [ofBe32, byteOf]
    grind
  have hlow : ofBe32 (byteOf x 3) (byteOf x 2) (byteOf x 1) (byteOf x 0) = x.extractLsb' 0 32 := by
    ext i hi
    simp only [ofBe32, byteOf]
    grind
  have hboth : x.extractLsb' 32 32 ++ x.extractLsb' 0 32 = x := by
    ext i hi
    grind
  simp only [be64, List.cons_append, List.nil_append, getLong, hhigh, hlow]
  exact congrArg (fun x => some (x, bb)) hboth

theorem getFloat_be32 (x : BitVec 32) (bb : List UInt8) : getFloat (be32 x ++ bb) = some (x, bb) := by
  simp only [be32, List.cons_append, List.nil_append, getFloat, ofBe32_byteOf]

/-- The count, as the signed byte it is. -/
theorem inputcount_eq {n : ℕ} (h : n ≤ 255) :
    (UInt8.ofNat n).toBitVec.toInt.toNat = if n ≤ 127 then n else 0 := by
  have hn : (UInt8.ofNat n).toBitVec.toInt = if n ≤ 127 then (n : ℤ) else (n : ℤ) - 256 := by
    rw [BitVec.toInt_eq_toNat_cond]
    simp only [UInt8.toNat_toBitVec, UInt8.toNat_ofNat']
    split_ifs <;> omega
  rw [hn]
  split_ifs <;> omega

section Update
variable {Obj : Type} {apply : InputToAck → Obj → Obj}

/-- A new input is read to its end. -/
theorem readInputs_of_new {insend : InputToAck} {sender : Player Obj}
    (hnew : sender.lastupdate.toInt < insend.sendtime) (n : ℕ) (bb : List UInt8) :
    readInputs apply (n + 1) (insend.toBytes ++ bb) sender =
      readInputs apply n bb (sender.applyInput apply insend) := by
  rw [InputToAck.toBytes, List.append_assoc, List.append_assoc, readInputs, getLong_be64]
  dsimp only
  rw [if_pos (show sender.lastupdate.toInt < insend.time.toInt from hnew), getFloat_be32]
  rfl

/-- Of any other only the time is read. -/
theorem readInputs_of_old {insend : InputToAck} {sender : Player Obj}
    (hold : ¬ sender.lastupdate.toInt < insend.sendtime) (n : ℕ) (bb : List UInt8) :
    readInputs apply (n + 1) (insend.toBytes ++ bb) sender =
      readInputs apply n (be32 insend.dt ++ [insend.stickx, insend.sticky] ++ bb) sender := by
  rw [InputToAck.toBytes, List.append_assoc, List.append_assoc, readInputs, getLong_be64]
  dsimp only
  rw [if_neg (show ¬ sender.lastupdate.toInt < insend.time.toInt from hold), List.append_assoc]

theorem Player.applyAll_cons (insend : InputToAck) (inputs : List InputToAck) (sender : Player Obj) :
    sender.applyAll apply (insend :: inputs) = (sender.applyInput apply insend).applyAll apply inputs := by
  simp only [applyAll, applyInput, List.getLast?_cons, Option.elim_some, List.foldl_cons]
  cases inputs.getLast? <;> rfl

/-- **Inputs that are new, the last one maybe not, are read as they were written.** -/
theorem readInputs_of_allNew : ∀ {inputs : List InputToAck} {sender : Player Obj},
    AllNew sender.lastupdate.toInt inputs →
      readInputs apply inputs.length (inputs.flatMap InputToAck.toBytes) sender =
        sender.applyAll apply (newer sender.lastupdate.toInt inputs)
  | [], _, _ => rfl
  | [insend], sender, _ => by
    simp only [List.length_singleton, List.flatMap_cons, List.flatMap_nil, newer]
    split_ifs with hnew
    · rw [readInputs_of_new hnew]
      rfl
    · rw [readInputs_of_old hnew]
      rfl
  | insend :: next :: inputs, sender, h => by
    have hone : newer sender.lastupdate.toInt (insend :: next :: inputs) =
        insend :: newer insend.sendtime (next :: inputs) := if_pos h.1
    have hrest : AllNew (sender.applyInput apply insend).lastupdate.toInt (next :: inputs) := h.2
    rw [List.length_cons, List.flatMap_cons, readInputs_of_new h.1, readInputs_of_allNew hrest, hone,
      Player.applyAll_cons]
    rfl

/-- A batch that can be read. -/
theorem updatePlayer_payload {batch : Batch} {sender : Player Obj}
    (h : if batch.val.length ≤ 127 then AllNew sender.lastupdate.toInt batch.val
      else newer sender.lastupdate.toInt batch.val = []) :
    updatePlayer apply (payload batch.val) sender =
      sender.applyAll apply (newer sender.lastupdate.toInt batch.val) := by
  rw [payload, updatePlayer, inputcount_eq batch.property]
  split_ifs at h ⊢ with hcount
  · exact readInputs_of_allNew h
  · rw [h]
    rfl

theorem applied_of_readable {players : Players Obj} {a : Arrival} (h : Readable players a) :
    Applied apply players a := by
  intro i
  unfold update
  cases hsender : players a.sender with
  | none =>
    split_ifs with hi
    · simp [hi, hsender]
    · rfl
  | some sender =>
    dsimp only
    rw [updatePlayer_payload (h sender hsender), Function.update_apply]
    split_ifs with hi
    · rw [hi, hsender]
      rfl
    · rfl

/-- **When the inputs are applied entry by entry**: in the runs whose batches can be read. -/
theorem along_applied (players : Players Obj) {l : List Arrival}
    (h : Along (step apply) Readable players l) : Along (step apply) (Applied apply) players l :=
  along_of_along (J := fun _ => True) (fun _ _ _ _ _ _ => trivial)
    (fun _ _ _ _ hreadable _ => applied_of_readable hreadable) trivial h

end Update

/-- Two inputs of a twentieth of a second each. -/
def twoInputs : Batch :=
  ⟨[⟨10, 0x3D4CCCCD#32, 40, 0⟩, ⟨20, 0x3D4CCCCD#32, 40, 0⟩], by decide⟩

/-- A player alone, and the inputs it has applied. -/
def alone : Players (List InputToAck) := fun i => if i = 0 then some ⟨0, []⟩ else none

/-- The first batch of a player is applied as it is. -/
theorem along_applied_twoInputs :
    Along (step fun insend obj => obj ++ [insend]) (Applied fun insend obj => obj ++ [insend]) alone
      [⟨0, twoInputs⟩] :=
  along_applied alone fun _ _ => ⟨by simp [Readable, alone, twoInputs, AllNew, InputToAck.sendtime], trivial⟩

/-- **If it arrives twice**, the timestep of the first input and its stick are taken for a time. -/
theorem not_applied_repeated : ¬ ∀ players l,
    Along (step fun insend obj => obj ++ [insend]) (Applied fun insend obj => obj ++ [insend]) players l := by
  intro h
  have hsecond := ((h alone [⟨0, twoInputs⟩, ⟨0, twoInputs⟩] _ rfl).2 _ rfl).1 0
  have hlast := congrArg (Option.map Player.lastupdate) hsecond
  revert hlast
  decide +kernel

end N64NetLib.Realtime.Inputs
