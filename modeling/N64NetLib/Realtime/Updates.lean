import N64NetLib.Realtime.Inputs
import N64NetLib.Realtime.Objects

/-! # The state that the Realtime server sends

Five times a second `send_updates` tells all players what has changed: for each object that has changed its
key, the size of the changes, and the changes, each with its kind in front. A player that joins is told all
of an object at once. The N64 reads this into the transform of the object, skips what is for objects that it
does not know, and keeps the transforms of the last ticks on a timeline.

What was written is what is read: a packet is read to its end, the changes get to the objects that are known,
and the client learns whether one of them was its own (`netcallbackUpdateplayer_spec`,
`netcallbackUpdateobject_spec`, `packetReadobject_spec`). -/

namespace N64NetLib.Realtime.Updates

open N64NetLib.Lib.BigEndian N64NetLib.N64.Netlib N64NetLib.Realtime.Inputs N64NetLib.Realtime.Objects

/-! ### Numbers -/

/-- The bits of a `float`. -/
abbrev F32 := BitVec 32

/-- A number that is not one. -/
def isNaN (x : F32) : Bool := decide (0x7F800000#32 < x &&& 0x7FFFFFFF#32)

/-- `!=` for two `float`s: zero has two signs, and what is no number differs from all. -/
def floatNe (x y : F32) : Bool :=
  isNaN x || isNaN y || (decide (x ≠ y) && decide ((x ||| y) &&& 0x7FFFFFFF#32 ≠ 0))

/-! ### The server -/

namespace Server

/-- `Vector2D`. -/
structure Vector2D where
  x : F32
  y : F32
  prevx : F32
  prevy : F32
deriving DecidableEq

/-- `SetX` and `SetY`, as `SetPos` and `SetDirection` call them. -/
def Vector2D.set (x y : F32) (v : Vector2D) : Vector2D := ⟨x, y, v.x, v.y⟩

/-- `GameObject`. -/
structure GameObject where
  id : BitVec 32
  pos : Vector2D
  dir : Vector2D
  size : Vector2D
  speed : F32
  oldspeed : F32
  bounce : Bool
  col : UInt8 × UInt8 × UInt8
deriving DecidableEq

/-- What `send_updates` compares of a vector. -/
def Vector2D.changed (v : Vector2D) : Bool := floatNe v.x v.prevx || floatNe v.y v.prevy

/-- A vector that has changed. -/
def Vector2D.update (kind : UInt8) (v : Vector2D) : List UInt8 :=
  if v.changed then kind :: (be32 v.x ++ be32 v.y) else []

/-- The changes of an object. -/
def GameObject.update (obj : GameObject) : List UInt8 :=
  obj.pos.update 0 ++ obj.dir.update 1 ++ obj.size.update 2 ++
    if floatNe obj.oldspeed obj.speed then 3 :: be32 obj.speed else []

/-- The changes with a key and their size in front, if there are any. -/
def entry (key : List UInt8) (obj : GameObject) : Option (List UInt8) :=
  if obj.update = [] then none else some (key ++ UInt8.ofNat obj.update.length :: obj.update)

/-- `GetNumber`, as it is sent. -/
def number (i : Fin 32) : UInt8 := UInt8.ofNat (i.val + 1)

/-- A count, a time, and that many entries. -/
def packet (time : BitVec 64) (entries : List (List UInt8)) : List UInt8 :=
  UInt8.ofNat entries.length :: (be64 time ++ entries.flatten)

/-- The entries of the players that have changed. -/
def playerEntries (players : Players GameObject) : List (List UInt8) :=
  (List.finRange 32).filterMap fun i => (players i).bind fun ply => entry [number i] ply.obj

/-- The data of the `PACKETID_PLAYERUPDATE` for a player. -/
def playerUpdate (players : Players GameObject) (ply2send : Player GameObject) : List UInt8 :=
  packet ply2send.lastupdate (playerEntries players)

/-- The entries of the objects that have changed. -/
def objectEntries (objs : List GameObject) : List (List UInt8) := objs.filterMap fun obj => entry (be32 obj.id) obj

/-- The data of the `PACKETID_OBJECTUPDATE`, if there is one. -/
def objectUpdate (gametime : BitVec 64) (objs : List GameObject) : Option (List UInt8) :=
  if (objectEntries objs).length > 0 then some (packet gametime (objectEntries objs)) else none

/-- `GetData`. -/
def GameObject.getData (obj : GameObject) : List UInt8 :=
  be32 obj.id ++ be32 obj.pos.x ++ be32 obj.pos.y ++ be32 obj.dir.x ++ be32 obj.dir.y ++ be32 obj.size.x ++
    be32 obj.size.y ++ be32 obj.speed ++ [if obj.bounce then 1 else 0, obj.col.1, obj.col.2.1, obj.col.2.2]

/-- `GetData` of a player. -/
def playerData (i : Fin 32) (ply : Player GameObject) : List UInt8 := number i :: ply.obj.getData

end Server

/-! ### The N64 -/

/-- `Transform`. -/
structure Transform where
  pos : F32 × F32
  dir : F32 × F32
  size : F32 × F32
  speed : F32
  col : UInt8 × UInt8 × UInt8
  timestamp : BitVec 64
deriving DecidableEq

/-- What of a `GameObject` is not for finding it. -/
structure Body where
  bounce : UInt8
  clTrans : Transform
  svTrans : Transform
  oldTrans : List Transform
deriving DecidableEq

/-- The objects by their ids, and the objects of the players. -/
structure Client where
  objects : BitVec 32 → Option Body
  players : Fin 32 → Option (BitVec 32)

section Reading

/-- `usb_read` into a variable: what is not there any more leaves the rest of it. -/
def readInto (old : List UInt8) (data : List UInt8) : List UInt8 :=
  data.take old.length ++ old.drop (data.take old.length).length

/-- `netlib_readbyte`. -/
def netlibReadbyte (old : UInt8) (data : List UInt8) : UInt8 × List UInt8 :=
  ((readInto [old] data).getD 0 0, data.drop 1)

/-- `netlib_readdword`, and `netlib_readfloat`. -/
def netlibReaddword (old : BitVec 32) (data : List UInt8) : BitVec 32 × List UInt8 :=
  let b := readInto (be32 old) data
  (ofBe32 (b.getD 0 0) (b.getD 1 0) (b.getD 2 0) (b.getD 3 0), data.drop 4)

/-- `netlib_readqword`. -/
def netlibReadqword (old : BitVec 64) (data : List UInt8) : BitVec 64 × List UInt8 :=
  let b := readInto (be64 old) data
  (ofBe32 (b.getD 0 0) (b.getD 1 0) (b.getD 2 0) (b.getD 3 0) ++
    ofBe32 (b.getD 4 0) (b.getD 5 0) (b.getD 6 0) (b.getD 7 0), data.drop 8)

/-- Two times `netlib_readfloat`. -/
def readVector (old : F32 × F32) (data : List UInt8) : (F32 × F32) × List UInt8 :=
  let x := netlibReaddword old.1 data
  let y := netlibReaddword old.2 x.2
  ((x.1, y.1), y.2)

end Reading

/-- Where a change is read into. -/
def setVector (kind : UInt8) (v : F32 × F32) (t : Transform) : Transform :=
  if kind = 0 then { t with pos := v } else if kind = 1 then { t with dir := v } else { t with size := v }

/-- What is there before. -/
def getVector (kind : UInt8) (t : Transform) : F32 × F32 :=
  if kind = 0 then t.pos else if kind = 1 then t.dir else t.size

/-- `packet_readobjectupdate`, into the transform of the server's values if there is an object; `junk` is what the
variable for the kind holds. There is no result if the loop does not end. -/
def packetReadobjectupdate (junk : UInt8) :
    ℕ → Option Transform → UInt8 → List UInt8 → Option (Option Transform × List UInt8)
  | 0, _, _, _ => none
  | fuel + 1, obj, size, data =>
    if size = 0 then some (obj, data)
    else
      let kind := netlibReadbyte junk data
      if kind.1 = 0 ∨ kind.1 = 1 ∨ kind.1 = 2 then
        match obj with
        | some t =>
          let v := readVector (getVector kind.1 t) kind.2
          packetReadobjectupdate junk fuel (some (setVector kind.1 v.1 t)) (size - 1 - 8) v.2
        | none => packetReadobjectupdate junk fuel none (size - 1 - 8) (kind.2.drop 8)
      else if kind.1 = 3 then
        match obj with
        | some t =>
          let speed := netlibReaddword t.speed kind.2
          packetReadobjectupdate junk fuel (some { t with speed := speed.1 }) (size - 1 - 4) speed.2
        | none => packetReadobjectupdate junk fuel none (size - 1 - 4) (kind.2.drop 4)
      else packetReadobjectupdate junk fuel obj (size - 1) kind.2

/-- `objects_pusholdtransforms`. -/
def objectsPusholdtransforms (b : Body) : Body :=
  { b with oldTrans := (b.svTrans :: b.oldTrans).take b.oldTrans.length }

section Timeline

variable (limit tick : BitVec 64)

/-- The loop of `objects_synctransforms` over the older transforms. `limit` and `tick` are the two times in it, one
and a half ticks and one tick. -/
def syncLoop : Bool → Transform → List Transform → List Transform
  | _, _, [] => []
  | propagate, newer, older :: rest =>
    let propagate := propagate || decide (newer.timestamp - older.timestamp > limit)
    let older := if propagate then { newer with timestamp := newer.timestamp - tick } else older
    older :: syncLoop propagate older rest

/-- `objects_synctransforms`. -/
def objectsSynctransforms (b : Body) : Body :=
  { b with
    clTrans := b.svTrans
    oldTrans := syncLoop limit tick false b.svTrans b.oldTrans }

/-- The part of an entry behind its key: the object, if there is one, is brought up to date. -/
def readUpdate (junk : UInt8) (fuel : ℕ) (time : BitVec 64) (obj : Option (BitVec 32)) (c : Client)
    (data : List UInt8) : Option (Client × List UInt8) :=
  let size := netlibReadbyte junk data
  match obj with
  | none => (packetReadobjectupdate junk fuel none size.1 size.2).map fun r => (c, r.2)
  | some id =>
    match c.objects id with
    | none => none
    | some b =>
      let b := objectsPusholdtransforms b
      (packetReadobjectupdate junk fuel (some b.svTrans) size.1 size.2).map fun r =>
        let b := { b with svTrans := { r.1.getD b.svTrans with timestamp := time } }
        ({ c with objects := Function.update c.objects id (some (objectsSynctransforms limit tick b)) }, r.2)

/-- The loop of `netcallback_updateplayer`, and whether an object was that of the client. There is no result if a
number is not one of the array. -/
def updateplayerLoop (junk : UInt8) (fuel : ℕ) (time : BitVec 64) (clobj : Option (BitVec 32)) :
    ℕ → Bool → Client → List UInt8 → Option (Bool × Client × List UInt8)
  | 0, reconcile, c, data => some (reconcile, c, data)
  | n + 1, reconcile, c, data => do
    let plynum := netlibReadbyte junk data
    let i ← slot plynum.1
    let r ← readUpdate limit tick junk fuel time (c.players i) c plynum.2
    updateplayerLoop junk fuel time clobj n (reconcile || decide (c.players i = clobj)) r.1 r.2

/-- `netcallback_updateplayer`: the time and whether to reconcile, as `stage_game_ackinput` gets them, the objects,
and what is left of the packet. -/
def netcallbackUpdateplayer (junk : UInt8) (fuel : ℕ) (me : Fin 32) (c : Client) (data : List UInt8) :
    Option (BitVec 64 × Bool × Client × List UInt8) := do
  let objcount := netlibReadbyte junk data
  let time := netlibReadqword 0 objcount.2
  let r ← updateplayerLoop limit tick junk fuel time.1 (c.players me) objcount.1.toNat false c time.2
  some (time.1, r)

/-- The loop of `netcallback_updateobject`. -/
def updateobjectLoop (junk : UInt8) (fuel : ℕ) (ctime : BitVec 64) :
    ℕ → Client → List UInt8 → Option (Client × List UInt8)
  | 0, c, data => some (c, data)
  | n + 1, c, data => do
    let id := netlibReaddword 0 data
    let r ← readUpdate limit tick junk fuel ctime (if (c.objects id.1).isSome then some id.1 else none) c id.2
    updateobjectLoop junk fuel ctime n r.1 r.2

/-- `netcallback_updateobject`, with `OS_NSEC_TO_CYCLES`. -/
def netcallbackUpdateobject (nsecToCycles : BitVec 64 → BitVec 64) (junk : UInt8) (fuel : ℕ) (c : Client)
    (data : List UInt8) : Option (Client × List UInt8) :=
  let objcount := netlibReadbyte junk data
  let time := netlibReadqword 0 objcount.2
  updateobjectLoop limit tick junk fuel (nsecToCycles time.1) objcount.1.toNat c time.2

/-- `packet_readobject`: the id, the objects, and what is left. `fresh` is what a new object holds. -/
def packetReadobject (fresh : Body) (now : BitVec 64) (c : Client) (data : List UInt8) :
    BitVec 32 × Client × List UInt8 :=
  let objid := netlibReaddword 0 data
  let b := (c.objects objid.1).getD fresh
  let pos := readVector b.svTrans.pos objid.2
  let dir := readVector b.svTrans.dir pos.2
  let size := readVector b.svTrans.size dir.2
  let speed := netlibReaddword b.svTrans.speed size.2
  let bounce := netlibReadbyte b.bounce speed.2
  let red := netlibReadbyte b.svTrans.col.1 bounce.2
  let green := netlibReadbyte b.svTrans.col.2.1 red.2
  let blue := netlibReadbyte b.svTrans.col.2.2 green.2
  -- all the older transforms but the last one
  let older := (b.oldTrans.dropLast.map fun t => { t with timestamp := 0 }) ++ b.oldTrans.getLast?.toList
  let b : Body := ⟨bounce.1, b.clTrans, ⟨pos.1, dir.1, size.1, speed.1, (red.1, green.1, blue.1), now⟩, older⟩
  (objid.1, { c with objects := Function.update c.objects objid.1 (some (objectsSynctransforms limit tick b)) },
    blue.2)

/-- `netcallback_playerinfo`. There is no result if the number is not one of the array. -/
def netcallbackPlayerinfo (fresh : Body) (junk : UInt8) (now : BitVec 64) (c : Client) (data : List UInt8) :
    Option (Client × List UInt8) := do
  let plynum := netlibReadbyte junk data
  let i ← slot plynum.1
  let r := packetReadobject limit tick fresh now c plynum.2
  some ({ r.2.1 with players := Function.update r.2.1.players i (some r.1) }, r.2.2)

end Timeline

/-! ### Reading what was written -/

theorem readInto_append {old l rest : List UInt8} (h : l.length = old.length) : readInto old (l ++ rest) = l := by
  rw [readInto, List.take_left' h, h, List.drop_length, List.append_nil]

theorem netlibReadbyte_cons (old b : UInt8) (rest : List UInt8) : netlibReadbyte old (b :: rest) = (b, rest) := rfl

theorem netlibReaddword_be32 (old x : BitVec 32) (rest : List UInt8) :
    netlibReaddword old (be32 x ++ rest) = (x, rest) := by
  have hread : readInto (be32 old) (be32 x ++ rest) = be32 x := readInto_append rfl
  rw [netlibReaddword, hread]
  exact Prod.ext (ofBe32_byteOf x) rfl

theorem netlibReadqword_be64 (old x : BitVec 64) (rest : List UInt8) :
    netlibReadqword old (be64 x ++ rest) = (x, rest) := by
  have hread : readInto (be64 old) (be64 x ++ rest) = be64 x := readInto_append rfl
  rw [netlibReadqword, hread]
  exact Option.some.inj (getLong_be64 x rest)

theorem readVector_append (old : F32 × F32) (x y : F32) (rest : List UInt8) :
    readVector old (be32 x ++ be32 y ++ rest) = ((x, y), rest) := by
  rw [readVector, List.append_assoc, netlibReaddword_be32]
  dsimp only
  rw [netlibReaddword_be32]

/-! ### The changes of an object -/

/-- A change. -/
inductive Change
  | pos (x y : F32)
  | dir (x y : F32)
  | size (x y : F32)
  | speed (s : F32)

namespace Change

/-- Its bytes. -/
def toBytes : Change → List UInt8
  | pos x y => 0 :: (be32 x ++ be32 y)
  | dir x y => 1 :: (be32 x ++ be32 y)
  | size x y => 2 :: (be32 x ++ be32 y)
  | speed s => 3 :: be32 s

/-- What it does to a transform. -/
def apply (t : Transform) : Change → Transform
  | pos x y => { t with pos := (x, y) }
  | dir x y => { t with dir := (x, y) }
  | size x y => { t with size := (x, y) }
  | speed s => { t with speed := s }

end Change

/-- The changes of an object. -/
def changes (obj : Server.GameObject) : List Change :=
  (if obj.pos.changed then [.pos obj.pos.x obj.pos.y] else []) ++
    (if obj.dir.changed then [.dir obj.dir.x obj.dir.y] else []) ++
    (if obj.size.changed then [.size obj.size.x obj.size.y] else []) ++
    if floatNe obj.oldspeed obj.speed then [.speed obj.speed] else []

theorem update_eq (obj : Server.GameObject) : obj.update = (changes obj).flatMap Change.toBytes := by
  unfold Server.GameObject.update Server.Vector2D.update changes
  simp only [List.flatMap_append]
  congr 1
  · congr 1
    · congr 1
      · split_ifs <;> rfl
      · split_ifs <;> rfl
    · split_ifs <;> rfl
  · split_ifs
    · exact (List.append_nil _).symm
    · rfl

/-- A transform with what has changed. -/
def changed (obj : Server.GameObject) (t : Transform) : Transform := (changes obj).foldl Change.apply t

theorem length_update_le (obj : Server.GameObject) : obj.update.length ≤ 32 := by
  unfold Server.GameObject.update Server.Vector2D.update
  simp only [List.length_append]
  have hvector : ∀ (kind : UInt8) (v : Server.Vector2D),
      (if v.changed then kind :: (be32 v.x ++ be32 v.y) else []).length ≤ 9 := by
    intro kind v
    split_ifs <;> simp
  have hspeed : (if floatNe obj.oldspeed obj.speed then 3 :: be32 obj.speed else []).length ≤ 5 := by
    split_ifs <;> simp
  have h0 := hvector 0 obj.pos
  have h1 := hvector 1 obj.dir
  have h2 := hvector 2 obj.size
  omega

theorem ofNat_sub {m n k : ℕ} (h : n = k + m) (hn : n < 256) : UInt8.ofNat n - UInt8.ofNat k = UInt8.ofNat m := by
  refine UInt8.toNat_inj.mp ?_
  rw [UInt8.toNat_sub_of_le, UInt8.toNat_ofNat', UInt8.toNat_ofNat', UInt8.toNat_ofNat']
  · omega
  · rw [UInt8.le_iff_toNat_le, UInt8.toNat_ofNat', UInt8.toNat_ofNat']
    omega

theorem read_vector (junk : UInt8) (k : ℕ) (obj : Option Transform) {kind : UInt8}
    (hkind : kind = 0 ∨ kind = 1 ∨ kind = 2) (x y : F32) {size : UInt8} (hsize : size ≠ 0) (data : List UInt8) :
    packetReadobjectupdate junk (k + 1) obj size (kind :: (be32 x ++ be32 y) ++ data) =
      packetReadobjectupdate junk k (obj.map (setVector kind (x, y))) (size - 1 - 8) data := by
  rw [packetReadobjectupdate, if_neg hsize, List.cons_append, netlibReadbyte_cons]
  dsimp only
  rw [if_pos hkind]
  cases obj with
  | none => rfl
  | some t =>
    dsimp only
    rw [readVector_append]
    rfl

theorem read_speed (junk : UInt8) (k : ℕ) (obj : Option Transform) (s : F32) {size : UInt8} (hsize : size ≠ 0)
    (data : List UInt8) :
    packetReadobjectupdate junk (k + 1) obj size (3 :: be32 s ++ data) =
      packetReadobjectupdate junk k (obj.map fun t => { t with speed := s }) (size - 1 - 4) data := by
  rw [packetReadobjectupdate, if_neg hsize, List.cons_append, netlibReadbyte_cons]
  dsimp only
  rw [if_neg (by decide), if_pos rfl]
  cases obj with
  | none => rfl
  | some t =>
    dsimp only
    rw [netlibReaddword_be32]
    rfl

/-- A change is read. -/
theorem read_change (junk : UInt8) (k : ℕ) (obj : Option Transform) (change : Change) {m : ℕ} (data : List UInt8)
    (hsize : change.toBytes.length + m < 256) :
    packetReadobjectupdate junk (k + 1) obj (UInt8.ofNat (change.toBytes.length + m)) (change.toBytes ++ data) =
      packetReadobjectupdate junk k (obj.map fun t => change.apply t) (UInt8.ofNat m) data := by
  have hpos : 0 < change.toBytes.length := by cases change <;> exact Nat.succ_pos _
  have hne : ∀ n, 0 < n → n < 256 → UInt8.ofNat n ≠ 0 := by
    intro n hpos hlt hzero
    have hnat := congrArg UInt8.toNat hzero
    rw [UInt8.toNat_ofNat', Nat.mod_eq_of_lt hlt] at hnat
    exact hpos.ne' hnat
  have hvector : ∀ {n : ℕ}, n = 9 + m → n < 256 → UInt8.ofNat n - 1 - 8 = UInt8.ofNat m := by
    rintro n rfl hlt
    have hone : UInt8.ofNat (9 + m) - UInt8.ofNat 1 = UInt8.ofNat (8 + m) := ofNat_sub (by omega) hlt
    have height : UInt8.ofNat (8 + m) - UInt8.ofNat 8 = UInt8.ofNat m := ofNat_sub rfl (by omega)
    rw [← height, ← hone]
    rfl
  have hspeed : ∀ {n : ℕ}, n = 5 + m → n < 256 → UInt8.ofNat n - 1 - 4 = UInt8.ofNat m := by
    rintro n rfl hlt
    have hone : UInt8.ofNat (5 + m) - UInt8.ofNat 1 = UInt8.ofNat (4 + m) := ofNat_sub (by omega) hlt
    have hfour : UInt8.ofNat (4 + m) - UInt8.ofNat 4 = UInt8.ofNat m := ofNat_sub rfl (by omega)
    rw [← hfour, ← hone]
    rfl
  cases change with
  | pos x y =>
    rw [← hvector (n := 9 + m) rfl hsize]
    exact read_vector junk k obj (.inl rfl) x y (hne _ (by omega) hsize) data
  | dir x y =>
    rw [← hvector (n := 9 + m) rfl hsize]
    exact read_vector junk k obj (.inr (.inl rfl)) x y (hne _ (by omega) hsize) data
  | size x y =>
    rw [← hvector (n := 9 + m) rfl hsize]
    exact read_vector junk k obj (.inr (.inr rfl)) x y (hne _ (by omega) hsize) data
  | speed v =>
    rw [← hspeed (n := 5 + m) rfl hsize]
    exact read_speed junk k obj v (hne _ (by omega) hsize) data

/-- **The changes are read to their end**, and into the object if there is one. -/
theorem packetReadobjectupdate_spec (junk : UInt8) {fuel : ℕ} {l : List Change} {obj : Option Transform}
    {rest : List UInt8} (hfuel : l.length < fuel) (hsize : (l.flatMap Change.toBytes).length < 256) :
    packetReadobjectupdate junk fuel obj (UInt8.ofNat (l.flatMap Change.toBytes).length)
        (l.flatMap Change.toBytes ++ rest) = some (obj.map fun t => l.foldl Change.apply t, rest) := by
  induction l generalizing fuel obj with
  | nil =>
    obtain ⟨k, rfl⟩ : ∃ k, fuel = k + 1 := ⟨fuel - 1, by simp at hfuel; omega⟩
    have hzero : UInt8.ofNat (([] : List Change).flatMap Change.toBytes).length = 0 := rfl
    rw [packetReadobjectupdate, if_pos hzero]
    cases obj <;> rfl
  | cons change l ih =>
    obtain ⟨k, rfl⟩ : ∃ k, fuel = k + 1 := ⟨fuel - 1, by rw [List.length_cons] at hfuel; omega⟩
    rw [List.length_cons] at hfuel
    rw [List.flatMap_cons, List.length_append] at hsize
    rw [List.flatMap_cons, List.length_append, List.append_assoc]
    have hrest := @ih k (obj.map fun t => change.apply t) (by omega) (by omega)
    have hone : (obj.map fun t => change.apply t).map (fun t => l.foldl Change.apply t) =
        obj.map fun t => (change :: l).foldl Change.apply t := by
      cases obj <;> rfl
    rw [hone] at hrest
    rw [← hrest]
    exact read_change junk k obj change _ (by omega)

/-! ### The packets -/

theorem length_changes_le (obj : Server.GameObject) : (changes obj).length ≤ 4 := by
  have hone : ∀ (p : Bool) (change : Change), (if p then [change] else []).length ≤ 1 := by
    intro p change
    split_ifs <;> simp
  unfold changes
  simp only [List.length_append]
  have h0 := hone obj.pos.changed (.pos obj.pos.x obj.pos.y)
  have h1 := hone obj.dir.changed (.dir obj.dir.x obj.dir.y)
  have h2 := hone obj.size.changed (.size obj.size.x obj.size.y)
  have h3 := hone (floatNe obj.oldspeed obj.speed) (.speed obj.speed)
  omega

section Receiving

variable (limit tick : BitVec 64)

/-- The object is brought up to date. -/
def Body.received (obj : Server.GameObject) (time : BitVec 64) (b : Body) : Body :=
  objectsSynctransforms limit tick
    { objectsPusholdtransforms b with svTrans := { changed obj b.svTrans with timestamp := time } }

/-- If there are changes and the object is known, it is brought up to date. -/
def Client.receive (obj : Server.GameObject) (time : BitVec 64) (id : Option (BitVec 32)) (c : Client) : Client :=
  if obj.update = [] then c
  else
    match id with
    | none => c
    | some id =>
      match c.objects id with
      | none => c
      | some b => { c with objects := Function.update c.objects id (some (b.received limit tick obj time)) }

/-- The objects of the players are there. -/
def Client.Live (c : Client) : Prop := ∀ i id, c.players i = some id → (c.objects id).isSome

variable {limit tick} {c : Client} {time : BitVec 64}

@[simp] theorem receive_players (obj : Server.GameObject) (id : Option (BitVec 32)) :
    (c.receive limit tick obj time id).players = c.players := by
  unfold Client.receive
  split_ifs
  · rfl
  · split
    · rfl
    · split <;> rfl

theorem Client.Live.receive (h : c.Live) (obj : Server.GameObject) (id : Option (BitVec 32)) :
    (c.receive limit tick obj time id).Live := by
  intro i id' hi
  rw [receive_players] at hi
  have hlive := h i id' hi
  unfold Client.receive
  split_ifs
  · exact hlive
  · split
    · exact hlive
    · rename_i id
      split
      · exact hlive
      · by_cases heq : id' = id
        · rw [heq]
          simp
        · simpa [Function.update_of_ne heq] using hlive

/-- The part of an entry behind its key is read to its end. -/
theorem readUpdate_spec (junk : UInt8) {fuel : ℕ} (hfuel : 4 < fuel) (id : Option (BitVec 32))
    (hlive : ∀ i, id = some i → (c.objects i).isSome) {obj : Server.GameObject} (hobj : obj.update ≠ [])
    (rest : List UInt8) :
    readUpdate limit tick junk fuel time id c (UInt8.ofNat obj.update.length :: obj.update ++ rest) =
      some (c.receive limit tick obj time id, rest) := by
  have hchanges := length_changes_le obj
  have hlen := length_update_le obj
  have hread := fun t => @packetReadobjectupdate_spec junk fuel (changes obj) t rest (by omega)
    (by rw [← update_eq]; omega)
  rw [← update_eq] at hread
  unfold readUpdate
  rw [List.cons_append, netlibReadbyte_cons]
  dsimp only
  cases id with
  | none =>
    dsimp only
    rw [hread, Client.receive, if_neg hobj]
    rfl
  | some id =>
    obtain ⟨b, hb⟩ := Option.isSome_iff_exists.mp (hlive id rfl)
    dsimp only
    rw [hb]
    dsimp only
    rw [hread, Client.receive, if_neg hobj, hb]
    rfl

theorem slot_number (i : Fin 32) : slot (Server.number i) = some i := by
  have hnat : (Server.number i).toNat = i.val + 1 := by
    rw [Server.number, UInt8.toNat_ofNat', Nat.mod_eq_of_lt]
    have hi := i.isLt
    omega
  have hi := i.isLt
  rw [slot, dif_pos (by omega)]
  simp [hnat]

/-- A player's entry. -/
def receivePlayer (limit tick : BitVec 64) (players : Players Server.GameObject) (time : BitVec 64) (c : Client)
    (i : Fin 32) : Client :=
  match players i with
  | some ply => c.receive limit tick ply.obj time (c.players i)
  | none => c

/-- An entry for the object `clobj`. -/
def reconciles (players : Players Server.GameObject) (c : Client) (clobj : Option (BitVec 32)) (i : Fin 32) : Bool :=
  match players i with
  | some ply => decide (ply.obj.update ≠ []) && decide (c.players i = clobj)
  | none => false

theorem updateplayerLoop_spec (junk : UInt8) {fuel : ℕ} (hfuel : 4 < fuel) (players : Players Server.GameObject)
    (clobj : Option (BitVec 32)) (slots : List (Fin 32)) (reconcile : Bool) (hlive : c.Live) (rest : List UInt8) :
    let entries := slots.filterMap fun i => (players i).bind fun ply => Server.entry [Server.number i] ply.obj
    updateplayerLoop limit tick junk fuel time clobj entries.length reconcile c (entries.flatten ++ rest) =
      some (reconcile || slots.any (reconciles players c clobj),
        slots.foldl (receivePlayer limit tick players time) c, rest) := by
  induction slots generalizing c reconcile with
  | nil => simp [updateplayerLoop]
  | cons i slots ih =>
    have hskip : ((players i).bind fun ply => Server.entry [Server.number i] ply.obj) = none →
        receivePlayer limit tick players time c i = c ∧ reconciles players c clobj i = false := by
      unfold receivePlayer reconciles
      cases players i with
      | none => exact fun _ => ⟨rfl, rfl⟩
      | some ply =>
        intro hnone
        have hsame : ply.obj.update = [] := by
          by_contra hne
          exact Option.some_ne_none _ ((if_neg hne).symm.trans hnone)
        simp [Client.receive, hsame]
    dsimp only
    rw [List.filterMap_cons, List.foldl_cons, List.any_cons]
    cases hentry : (players i).bind fun ply => Server.entry [Server.number i] ply.obj with
    | none =>
      obtain ⟨hc, hrec⟩ := hskip hentry
      rw [hc, hrec, Bool.false_or]
      exact ih reconcile hlive
    | some e =>
      obtain ⟨ply, hply, he⟩ := Option.bind_eq_some_iff.mp hentry
      have hne : ply.obj.update ≠ [] := by
        intro hsame
        rw [Server.entry, if_pos hsame] at he
        cases he
      have hbytes : e = Server.number i :: (UInt8.ofNat ply.obj.update.length :: ply.obj.update) := by
        rw [Server.entry, if_neg hne] at he
        exact (Option.some.inj he).symm
      have hrec : reconciles players c clobj i = decide (c.players i = clobj) := by
        unfold reconciles
        simp [hply, hne]
      have hc : receivePlayer limit tick players time c i = c.receive limit tick ply.obj time (c.players i) := by
        unfold receivePlayer
        rw [hply]
      have hsplit : e ++ (slots.filterMap fun i => (players i).bind fun ply =>
          Server.entry [Server.number i] ply.obj).flatten ++ rest =
          Server.number i :: (UInt8.ofNat ply.obj.update.length :: ply.obj.update ++
            ((slots.filterMap fun i => (players i).bind fun ply =>
              Server.entry [Server.number i] ply.obj).flatten ++ rest)) := by
        rw [hbytes]
        simp
      have hread := @readUpdate_spec limit tick c time junk _ hfuel (c.players i)
        (fun id hid => hlive i id hid) _ hne ((slots.filterMap fun i => (players i).bind fun ply =>
          Server.entry [Server.number i] ply.obj).flatten ++ rest)
      dsimp only
      rw [List.flatten_cons, hsplit, List.length_cons, updateplayerLoop, netlibReadbyte_cons, slot_number]
      simp only [Option.bind_eq_bind, Option.bind_some, hread]
      have hsame : reconciles players (c.receive limit tick ply.obj time (c.players i)) clobj =
          reconciles players c clobj := by
        funext j
        unfold reconciles
        rw [receive_players]
      rw [ih (c := c.receive limit tick ply.obj time (c.players i)) _ (hlive.receive _ _), hc, hrec, Bool.or_assoc,
        hsame]

/-- **The update of the players** is read to its end: the objects that have changed and are known are brought up to
date, and the client reconciles if its own was one of them. -/
theorem netcallbackUpdateplayer_spec (junk : UInt8) {fuel : ℕ} (hfuel : 4 < fuel) (me : Fin 32)
    (players : Players Server.GameObject) (ply2send : Player Server.GameObject) (hlive : c.Live) (rest : List UInt8) :
    netcallbackUpdateplayer limit tick junk fuel me c (Server.playerUpdate players ply2send ++ rest) =
      some (ply2send.lastupdate, (List.finRange 32).any (reconciles players c (c.players me)),
        (List.finRange 32).foldl (receivePlayer limit tick players ply2send.lastupdate) c, rest) := by
  have hcount : (Server.playerEntries players).length ≤ 32 := by
    have hle := List.length_filterMap_le (fun i => (players i).bind fun ply => Server.entry [Server.number i] ply.obj)
      (List.finRange 32)
    rwa [List.length_finRange] at hle
  have hnat : (UInt8.ofNat (Server.playerEntries players).length).toNat = (Server.playerEntries players).length := by
    rw [UInt8.toNat_ofNat', Nat.mod_eq_of_lt (by omega)]
  have hloop := @updateplayerLoop_spec limit tick c ply2send.lastupdate junk _ hfuel
    players (c.players me) (List.finRange 32) false hlive rest
  unfold netcallbackUpdateplayer
  rw [Server.playerUpdate, Server.packet, List.cons_append, netlibReadbyte_cons]
  dsimp only
  rw [List.append_assoc, netlibReadqword_be64, hnat]
  dsimp only
  rw [show updateplayerLoop limit tick junk fuel ply2send.lastupdate (c.players me)
    (Server.playerEntries players).length false c ((Server.playerEntries players).flatten ++ rest) = _ from hloop,
    Bool.false_or]
  rfl

/-- An object's entry. -/
def receiveObject (limit tick : BitVec 64) (time : BitVec 64) (c : Client) (obj : Server.GameObject) : Client :=
  c.receive limit tick obj time (some obj.id)

theorem updateobjectLoop_spec (junk : UInt8) {fuel : ℕ} (hfuel : 4 < fuel) (objs : List Server.GameObject)
    (rest : List UInt8) :
    updateobjectLoop limit tick junk fuel time (Server.objectEntries objs).length c
        ((Server.objectEntries objs).flatten ++ rest) =
      some (objs.foldl (receiveObject limit tick time) c, rest) := by
  induction objs generalizing c with
  | nil => rfl
  | cons obj objs ih =>
    rw [List.foldl_cons, Server.objectEntries, List.filterMap_cons]
    by_cases hsame : obj.update = []
    · have hentry : Server.entry (be32 obj.id) obj = none := if_pos hsame
      have hc : receiveObject limit tick time c obj = c := if_pos hsame
      rw [hentry, hc]
      exact ih
    · have hentry : Server.entry (be32 obj.id) obj =
          some (be32 obj.id ++ UInt8.ofNat obj.update.length :: obj.update) := if_neg hsame
      -- an object that is not known is no object
      have hfind : c.receive limit tick obj time (if (c.objects obj.id).isSome then some obj.id else none) =
          receiveObject limit tick time c obj := by
        by_cases hknown : (c.objects obj.id).isSome
        · rw [if_pos hknown]
          rfl
        · rw [if_neg hknown]
          unfold receiveObject Client.receive
          rw [if_neg hsame, if_neg hsame]
          dsimp only
          rw [Option.not_isSome_iff_eq_none.mp hknown]
      have hlive : ∀ id, (if (c.objects obj.id).isSome then some obj.id else none) = some id →
          (c.objects id).isSome := by
        intro id hid
        by_cases hknown : (c.objects obj.id).isSome
        · rw [if_pos hknown] at hid
          exact Option.some.inj hid ▸ hknown
        · rw [if_neg hknown] at hid
          cases hid
      have hsplit : be32 obj.id ++ UInt8.ofNat obj.update.length :: obj.update ++
          (Server.objectEntries objs).flatten ++ rest =
          be32 obj.id ++ (UInt8.ofNat obj.update.length :: obj.update ++
            ((Server.objectEntries objs).flatten ++ rest)) := by simp
      have hread := @readUpdate_spec limit tick c time junk _ hfuel _ hlive _ hsame
        ((Server.objectEntries objs).flatten ++ rest)
      rw [hentry]
      show updateobjectLoop limit tick junk fuel time ((Server.objectEntries objs).length + 1) c
        (be32 obj.id ++ UInt8.ofNat obj.update.length :: obj.update ++ (Server.objectEntries objs).flatten ++
          rest) = _
      rw [hsplit, updateobjectLoop, netlibReaddword_be32]
      simp only [Option.bind_eq_bind, hread, Option.bind_some]
      rw [hfind]
      exact ih

/-- **The update of the objects** is read to its end: those that have changed and are known are brought up to date. -/
theorem netcallbackUpdateobject_spec (nsecToCycles : BitVec 64 → BitVec 64) (junk : UInt8) {fuel : ℕ}
    (hfuel : 4 < fuel) (gametime : BitVec 64) {objs : List Server.GameObject} {data : List UInt8}
    (hdata : Server.objectUpdate gametime objs = some data) (hcount : (Server.objectEntries objs).length ≤ 255)
    (rest : List UInt8) :
    netcallbackUpdateobject limit tick nsecToCycles junk fuel c (data ++ rest) =
      some (objs.foldl (receiveObject limit tick (nsecToCycles gametime)) c, rest) := by
  have hpacket : data = Server.packet gametime (Server.objectEntries objs) := by
    rw [Server.objectUpdate] at hdata
    split_ifs at hdata
    exact (Option.some.inj hdata).symm
  have hnat : (UInt8.ofNat (Server.objectEntries objs).length).toNat = (Server.objectEntries objs).length := by
    rw [UInt8.toNat_ofNat', Nat.mod_eq_of_lt (by omega)]
  unfold netcallbackUpdateobject
  rw [hpacket, Server.packet, List.cons_append, netlibReadbyte_cons]
  dsimp only
  rw [List.append_assoc, netlibReadqword_be64, hnat]
  exact updateobjectLoop_spec junk hfuel objs rest

/-- What a player is told of an object at once. -/
def readTransform (obj : Server.GameObject) (now : BitVec 64) : Transform :=
  ⟨(obj.pos.x, obj.pos.y), (obj.dir.x, obj.dir.y), (obj.size.x, obj.size.y), obj.speed, obj.col, now⟩

/-- **An object that is told at once** is read to its end: it has the values of the server after that, whether it was
known before or not. -/
theorem packetReadobject_spec (fresh : Body) (now : BitVec 64) (obj : Server.GameObject) (rest : List UInt8) :
    ∃ b : Body, packetReadobject limit tick fresh now c (obj.getData ++ rest) =
        (obj.id, { c with objects := Function.update c.objects obj.id (some b) }, rest) ∧
      b.svTrans = readTransform obj now ∧ b.clTrans = readTransform obj now ∧
      b.bounce = if obj.bounce then 1 else 0 := by
  have hsplit : obj.getData ++ rest = be32 obj.id ++ ((be32 obj.pos.x ++ be32 obj.pos.y) ++
      ((be32 obj.dir.x ++ be32 obj.dir.y) ++ ((be32 obj.size.x ++ be32 obj.size.y) ++ (be32 obj.speed ++
        ((if obj.bounce then 1 else 0) :: obj.col.1 :: obj.col.2.1 :: obj.col.2.2 :: rest))))) := by
    simp [Server.GameObject.getData]
  unfold packetReadobject
  simp only [hsplit, netlibReaddword_be32, readVector_append, netlibReadbyte_cons]
  exact ⟨_, rfl, rfl, rfl, rfl⟩

/-- **The object of a player that is told at once** is that of the player after that. -/
theorem netcallbackPlayerinfo_spec (fresh : Body) (junk : UInt8) (now : BitVec 64) (i : Fin 32)
    (ply : Player Server.GameObject) (rest : List UInt8) :
    ∃ b : Body, netcallbackPlayerinfo limit tick fresh junk now c (Server.playerData i ply ++ rest) =
        some (⟨Function.update c.objects ply.obj.id (some b), Function.update c.players i (some ply.obj.id)⟩, rest) ∧
      b.svTrans = readTransform ply.obj now ∧ b.clTrans = readTransform ply.obj now ∧
      b.bounce = if ply.obj.bounce then 1 else 0 := by
  obtain ⟨b, hread, hbody⟩ := @packetReadobject_spec limit tick c fresh now ply.obj rest
  refine ⟨b, ?_, hbody⟩
  unfold netcallbackPlayerinfo
  rw [Server.playerData, List.cons_append, netlibReadbyte_cons]
  dsimp only
  rw [slot_number]
  simp only [Option.bind_eq_bind, Option.bind_some, hread]

end Receiving

end N64NetLib.Realtime.Updates
