import N64NetLib.Lib.Run
import N64NetLib.Realtime.Updates

/-! # Do the players see the objects of the server?

The server of the Realtime example changes its objects and tells all players every tick; a player that joins
is told at once, and when it leaves the others take its object away. Here this is a system of the server and of
one client that gets all packets in their order.

`InSync` says that the client has the values of the server for all objects that it knows. The server sends a
value if it is not the one in front of it, which is that of the last call of `SetPos`, `SetDirection` or
`SetSpeed` and not that of the last tick. So a value that is set twice in a tick is not sent, and the client
keeps the old one: a run stays in sync exactly if every tick is `Complete` (`always_inSync_iff`). -/

namespace N64NetLib.Realtime.Replication

open N64NetLib.Lib.Run N64NetLib.N64.Netlib N64NetLib.Realtime.Inputs N64NetLib.Realtime.Objects
open N64NetLib.Realtime.Updates

/-! ### The server -/

/-- What changes an object: `SetPos`, `SetDirection` and `SetSpeed`. -/
inductive Setting
  | pos (x y : F32)
  | dir (x y : F32)
  | speed (s : F32)

/-- An object with a value set. -/
def set (obj : Server.GameObject) : Setting → Server.GameObject
  | .pos x y => { obj with pos := obj.pos.set x y }
  | .dir x y => { obj with dir := obj.dir.set x y }
  | .speed s => { obj with oldspeed := obj.speed, speed := s }

/-- `Game`: the players and the other objects. -/
structure Game where
  players : Players Server.GameObject
  objs : List Server.GameObject

/-- What `do_update` does: the object of a player or another one is changed, or an input of a player has been
applied (`SetLastUpdate`). -/
inductive Doing
  | player (i : Fin 32) (s : Setting)
  | obj (k : ℕ) (s : Setting)
  | lastupdate (i : Fin 32) (time : BitVec 64)

/-- Something happens to a player, if there is one. -/
def Game.onPlayer (g : Game) (i : Fin 32) (f : Player Server.GameObject → Player Server.GameObject) : Game :=
  { g with players := Function.update g.players i ((g.players i).map f) }

/-- One of these. -/
def doing (g : Game) : Doing → Game
  | .player i s => g.onPlayer i fun ply => { ply with obj := set ply.obj s }
  | .obj k s => { g with objs := g.objs.modify k fun obj => set obj s }
  | .lastupdate i time => g.onPlayer i fun ply => { ply with lastupdate := time }

/-! ### The system -/

/-- What does not change: the times of the timeline, the SDK's conversion, what is in memory that is not set yet,
and the player whose client this is. -/
structure Setup where
  limit : BitVec 64
  tick : BitVec 64
  nsecToCycles : BitVec 64 → BitVec 64
  junk : UInt8
  fresh : Body
  me : Fin 32

/-- The server and the client. -/
structure System where
  game : Game
  client : Client

/-- A tick of the server, with all that `do_update` does and the time of the game; a player who joins with this
object; and a player who leaves. -/
inductive Event
  | tick (doings : List Doing) (gametime : BitVec 64)
  | join (i : Fin 32) (obj : Server.GameObject) (now : BitVec 64)
  | leave (i : Fin 32)

/-- The ids of the server's objects. -/
def Game.ids (g : Game) : List (BitVec 32) :=
  (List.finRange 32).filterMap (fun i => (g.players i).map fun ply => ply.obj.id) ++ g.objs.map fun obj => obj.id

/-- `netcallback_playerdisconnect`. -/
def netcallbackPlayerdisconnect (c : Client) (i : Fin 32) : Client :=
  match c.players i with
  | none => c
  | some id => ⟨Function.update c.objects id none, Function.update c.players i none⟩

section Steps

variable (w : Setup)

/-- The client gets what the server sends after a tick. -/
def sendUpdates (g : Game) (gametime : BitVec 64) (c : Client) : Option Client := do
  let ply ← g.players w.me
  let r ← netcallbackUpdateplayer w.limit w.tick w.junk 5 w.me c (Server.playerUpdate g.players ply)
  match Server.objectUpdate gametime g.objs with
  | none => some r.2.2.1
  | some data => (netcallbackUpdateobject w.limit w.tick w.nsecToCycles w.junk 5 r.2.2.1 data).map Prod.fst

/-- A step. The ids are those of a counter, so that a new object has a new one. -/
def step (s : System) : Event → Option System
  | .tick doings gametime =>
    let game := doings.foldl doing s.game
    (sendUpdates w game gametime s.client).map fun c => ⟨game, c⟩
  | .join i obj now =>
    if (s.game.players i).isSome ∨ obj.id ∈ s.game.ids then none
    else
      let ply : Player Server.GameObject := ⟨0, obj⟩
      (netcallbackPlayerinfo w.limit w.tick w.fresh w.junk now s.client (Server.playerData i ply)).map fun r =>
        ⟨{ s.game with players := Function.update s.game.players i (some ply) }, r.1⟩
  | .leave i =>
    if i = w.me then none
    else
      some ⟨{ s.game with players := Function.update s.game.players i none },
        netcallbackPlayerdisconnect s.client i⟩

end Steps

/-! ### Being in sync -/

/-- A transform has the values of an object. -/
structure Agrees (t : Transform) (obj : Server.GameObject) : Prop where
  pos : t.pos = (obj.pos.x, obj.pos.y)
  dir : t.dir = (obj.dir.x, obj.dir.y)
  size : t.size = (obj.size.x, obj.size.y)
  speed : t.speed = obj.speed

/-- The object of a player, if the client has it. -/
def Game.knownPlayer (g : Game) (c : Client) (i : Fin 32) : Option Server.GameObject :=
  (g.players i).bind fun ply => if c.players i = some ply.obj.id then some ply.obj else none

/-- The server's objects that have a way to the client: those of the players that it has an object for, and the
others. -/
def Game.known (g : Game) (c : Client) : List Server.GameObject :=
  (List.finRange 32).filterMap (g.knownPlayer c) ++ g.objs

/-- **The client sees what the server has**, of the objects that it knows. -/
def InSync (s : System) : Prop :=
  ∀ obj ∈ s.game.known s.client, ∀ b, s.client.objects obj.id = some b → Agrees b.svTrans obj

/-- After a tick that leaves `obj'` of `obj`, what is not sent is as before. -/
structure Caught (obj obj' : Server.GameObject) : Prop where
  pos : obj'.pos.changed = true ∨ (obj'.pos.x, obj'.pos.y) = (obj.pos.x, obj.pos.y)
  dir : obj'.dir.changed = true ∨ (obj'.dir.x, obj'.dir.y) = (obj.dir.x, obj.dir.y)
  size : obj'.size.changed = true ∨ (obj'.size.x, obj'.size.y) = (obj.size.x, obj.size.y)
  speed : floatNe obj'.oldspeed obj'.speed = true ∨ obj'.speed = obj.speed

/-- **A tick is complete** if this is so for all objects that the client knows. -/
def Complete (s : System) : Event → Prop
  | .tick doings _ => ∀ obj ∈ s.game.known s.client, ∀ obj' ∈ (doings.foldl doing s.game).known s.client,
      obj'.id = obj.id → (s.client.objects obj.id).isSome → Caught obj obj'
  | _ => True

/-- The client and the server know the same, and every object has its own id. -/
structure Joined (w : Setup) (s : System) : Prop where
  me : (s.game.players w.me).isSome
  known : ∀ i id, s.client.players i = some id → ∃ ply, s.game.players i = some ply ∧ ply.obj.id = id
  live : s.client.Live
  ids : s.game.ids.Nodup
  count : s.game.objs.length ≤ 255

/-! ### What a tick does to a transform -/

section Changed

variable (obj : Server.GameObject) (t : Transform)

theorem changed_pos : (changed obj t).pos = if obj.pos.changed then (obj.pos.x, obj.pos.y) else t.pos := by
  unfold changed changes
  split_ifs <;> rfl

theorem changed_dir : (changed obj t).dir = if obj.dir.changed then (obj.dir.x, obj.dir.y) else t.dir := by
  unfold changed changes
  split_ifs <;> rfl

theorem changed_size : (changed obj t).size = if obj.size.changed then (obj.size.x, obj.size.y) else t.size := by
  unfold changed changes
  split_ifs <;> rfl

theorem changed_speed : (changed obj t).speed = if floatNe obj.oldspeed obj.speed then obj.speed else t.speed := by
  unfold changed changes
  split_ifs <;> rfl

/-- Without a change nothing is sent. -/
theorem changed_of_update (h : obj.update = []) : changed obj t = t := by
  have hnil : changes obj = [] := by
    rw [update_eq, List.flatMap_eq_nil_iff] at h
    refine List.eq_nil_iff_forall_not_mem.mpr fun change hmem => ?_
    have hbytes := h change hmem
    cases change <;> cases hbytes
  rw [changed, hnil]
  rfl

end Changed

/-- **Of an object that was in sync** the client has the new values exactly if what is not sent is as before. -/
theorem agrees_changed_iff {t : Transform} {obj obj' : Server.GameObject} (h : Agrees t obj) :
    Agrees (changed obj' t) obj' ↔ Caught obj obj' := by
  have hfield : ∀ {α : Type} (p : Bool) (new old : α), (if p then new else old) = new ↔ p = true ∨ new = old := by
    intro α p new old
    cases p <;> simp [eq_comm]
  constructor
  · intro hnew
    refine ⟨?_, ?_, ?_, ?_⟩
    · rw [← h.pos]
      exact (hfield _ _ _).mp ((changed_pos obj' t).symm.trans hnew.pos)
    · rw [← h.dir]
      exact (hfield _ _ _).mp ((changed_dir obj' t).symm.trans hnew.dir)
    · rw [← h.size]
      exact (hfield _ _ _).mp ((changed_size obj' t).symm.trans hnew.size)
    · rw [← h.speed]
      exact (hfield _ _ _).mp ((changed_speed obj' t).symm.trans hnew.speed)
  · rintro ⟨hpos, hdir, hsize, hspeed⟩
    rw [← h.pos] at hpos
    rw [← h.dir] at hdir
    rw [← h.size] at hsize
    rw [← h.speed] at hspeed
    exact ⟨(changed_pos obj' t).trans ((hfield _ _ _).mpr hpos),
      (changed_dir obj' t).trans ((hfield _ _ _).mpr hdir), (changed_size obj' t).trans ((hfield _ _ _).mpr hsize),
      (changed_speed obj' t).trans ((hfield _ _ _).mpr hspeed)⟩

/-! ### What a tick does to the client -/

section Receive

variable {w : Setup} {c : Client} {time : BitVec 64}

/-- Some objects, each by its id. -/
def receiveAll (w : Setup) (time : BitVec 64) (l : List Server.GameObject) (c : Client) : Client :=
  l.foldl (receiveObject w.limit w.tick time) c

theorem receiveAll_players (l : List Server.GameObject) : (receiveAll w time l c).players = c.players := by
  induction l generalizing c with
  | nil => rfl
  | cons obj l ih => exact (ih (c := receiveObject w.limit w.tick time c obj)).trans (receive_players _ _)

theorem receiveObject_objects (obj : Server.GameObject) (id : BitVec 32) :
    (receiveObject w.limit w.tick time c obj).objects id =
      if id = obj.id ∧ obj.update ≠ [] then (c.objects id).map (Body.received w.limit w.tick obj time)
      else c.objects id := by
  unfold receiveObject Client.receive
  by_cases hsame : obj.update = []
  · rw [if_pos hsame, if_neg fun h => h.2 hsame]
  · rw [if_neg hsame]
    dsimp only
    by_cases hid : id = obj.id
    · rw [if_pos ⟨hid, hsame⟩, hid]
      cases hb : c.objects obj.id with
      | none => exact hb
      | some b => simp
    · rw [if_neg fun h => hid h.1]
      cases hb : c.objects obj.id with
      | none => rfl
      | some b => simp [Function.update_of_ne hid]

/-- Other objects stay as they are. -/
theorem receiveAll_objects_of_notMem {l : List Server.GameObject} {id : BitVec 32}
    (h : id ∉ l.map Server.GameObject.id) : (receiveAll w time l c).objects id = c.objects id := by
  induction l generalizing c with
  | nil => rfl
  | cons obj l ih =>
    rw [List.map_cons, List.mem_cons, not_or] at h
    refine (ih (c := receiveObject w.limit w.tick time c obj) h.2).trans ?_
    rw [receiveObject_objects, if_neg fun hboth => h.1 hboth.1]

/-- An object is brought up to date once. -/
theorem receiveAll_objects {l : List Server.GameObject} (hl : (l.map Server.GameObject.id).Nodup)
    {obj : Server.GameObject} (hobj : obj ∈ l) :
    (receiveAll w time l c).objects obj.id =
      (c.objects obj.id).map fun b => if obj.update = [] then b else b.received w.limit w.tick obj time := by
  induction l generalizing c with
  | nil => cases hobj
  | cons obj' l ih =>
    rw [List.map_cons, List.nodup_cons] at hl
    rcases List.mem_cons.mp hobj with rfl | hmem
    · refine (receiveAll_objects_of_notMem (c := receiveObject w.limit w.tick time c obj) hl.1).trans ?_
      rw [receiveObject_objects]
      by_cases hsame : obj.update = []
      · rw [if_neg fun h => h.2 hsame]
        simp [hsame]
      · rw [if_pos ⟨rfl, hsame⟩]
        simp only [hsame, if_false]
    · have hne : obj.id ≠ obj'.id := fun heq => hl.1 (List.mem_map.mpr ⟨obj, hmem, heq⟩)
      refine (ih (c := receiveObject w.limit w.tick time c obj') hl.2 hmem).trans ?_
      rw [receiveObject_objects, if_neg fun h => hne h.1]

/-- The client has an object for no player that the server does not have. -/
def Knows (g : Game) (c : Client) : Prop :=
  ∀ i id, c.players i = some id → ∃ ply, g.players i = some ply ∧ ply.obj.id = id

theorem knownPlayer_congr {g : Game} {c' : Client} (h : c'.players = c.players) :
    g.knownPlayer c' = g.knownPlayer c := by
  funext i
  unfold Game.knownPlayer
  rw [h]

/-- The players are told by their numbers, which is to say by the ids of their objects. -/
theorem foldl_receivePlayer {g : Game} (h : Knows g c) (slots : List (Fin 32)) :
    slots.foldl (receivePlayer w.limit w.tick g.players time) c =
      receiveAll w time (slots.filterMap (g.knownPlayer c)) c := by
  induction slots generalizing c with
  | nil => rfl
  | cons i slots ih =>
    have hone : receivePlayer w.limit w.tick g.players time c i =
        receiveAll w time ((g.knownPlayer c i).toList) c := by
      unfold receivePlayer Game.knownPlayer
      cases hply : g.players i with
      | none => rfl
      | some ply =>
        rw [Option.bind_some]
        cases hid : c.players i with
        | none =>
          rw [if_neg (by simp)]
          show c.receive w.limit w.tick ply.obj time none = c
          unfold Client.receive
          split_ifs <;> rfl
        | some id =>
          obtain ⟨ply', hply', rfl⟩ := h i id hid
          obtain rfl := Option.some.inj (hply.symm.trans hply')
          rw [if_pos rfl]
          rfl
    have hplayers : (receiveAll w time ((g.knownPlayer c i).toList) c).players = c.players := receiveAll_players _
    have hsame := knownPlayer_congr (g := g) hplayers
    rw [List.foldl_cons, hone, ih (by unfold Knows; rw [hplayers]; exact h), hsame, List.filterMap_cons]
    cases g.knownPlayer c i <;> rfl

/-- **A tick** tells the client of all objects that it knows. -/
theorem sendUpdates_spec {g : Game} {ply : Player Server.GameObject} (hme : g.players w.me = some ply)
    (hlive : c.Live) (hknows : Knows g c) (hcount : g.objs.length ≤ 255) (gametime : BitVec 64) :
    sendUpdates w g gametime c = some (receiveAll w (w.nsecToCycles gametime) g.objs
      (receiveAll w ply.lastupdate ((List.finRange 32).filterMap (g.knownPlayer c)) c)) := by
  have hplayers := @netcallbackUpdateplayer_spec w.limit w.tick c w.junk 5 (by decide)
    w.me g.players ply hlive []
  rw [List.append_nil, foldl_receivePlayer hknows] at hplayers
  unfold sendUpdates
  simp only [hme, hplayers, Option.bind_eq_bind, Option.bind_some]
  cases hdata : Server.objectUpdate gametime g.objs with
  | none =>
    -- no object has changed
    have hnone : ∀ obj ∈ g.objs, obj.update = [] := by
      intro obj hobj
      rw [Server.objectUpdate] at hdata
      split_ifs at hdata with hlen
      by_contra hne
      have hentry : Server.entry (Lib.BigEndian.be32 obj.id) obj ≠ none := by
        rw [Server.entry, if_neg hne]
        exact Option.some_ne_none _
      obtain ⟨e, he⟩ := Option.ne_none_iff_exists'.mp hentry
      exact hlen (List.length_pos_of_mem (List.mem_filterMap.mpr ⟨obj, hobj, he⟩))
    have hsame : ∀ (l : List Server.GameObject) (c : Client), (∀ obj ∈ l, obj.update = []) →
        receiveAll w (w.nsecToCycles gametime) l c = c := by
      intro l
      induction l with
      | nil => exact fun _ _ => rfl
      | cons obj l ih =>
        intro c hl
        obtain ⟨hone, hrest⟩ := List.forall_mem_cons.mp hl
        have hc : receiveObject w.limit w.tick (w.nsecToCycles gametime) c obj = c := if_pos hone
        show receiveAll w _ l (receiveObject w.limit w.tick (w.nsecToCycles gametime) c obj) = c
        rw [hc, ih c hrest]
    rw [hsame _ _ hnone]
  | some data =>
    have hlen : (Server.objectEntries g.objs).length ≤ 255 := (List.length_filterMap_le _ _).trans hcount
    have hobjs := @netcallbackUpdateobject_spec w.limit w.tick
      (receiveAll w ply.lastupdate ((List.finRange 32).filterMap (g.knownPlayer c)) c) w.nsecToCycles w.junk 5
      (by decide) gametime _ _ hdata hlen []
    rw [List.append_nil] at hobjs
    dsimp only
    rw [hobjs]
    rfl

/-- Of an object that it knows, the client gets what has changed. -/
theorem objects_receiveAll {g : Game} (hids : ((g.known c).map Server.GameObject.id).Nodup) (time time' : BitVec 64)
    {obj : Server.GameObject} (hobj : obj ∈ g.known c) :
    ∃ t, (receiveAll w time' g.objs (receiveAll w time ((List.finRange 32).filterMap (g.knownPlayer c)) c)).objects
      obj.id = (c.objects obj.id).map fun b => if obj.update = [] then b else b.received w.limit w.tick obj t := by
  rw [Game.known, List.map_append, List.nodup_append] at hids
  obtain ⟨hplayers, hobjs, hapart⟩ := hids
  rcases List.mem_append.mp hobj with hmem | hmem
  · have hnot : obj.id ∉ g.objs.map Server.GameObject.id :=
      fun hno => hapart _ (List.mem_map.mpr ⟨obj, hmem, rfl⟩) _ hno rfl
    exact ⟨time, (receiveAll_objects_of_notMem hnot).trans (receiveAll_objects hplayers hmem)⟩
  · have hnot : obj.id ∉ ((List.finRange 32).filterMap (g.knownPlayer c)).map Server.GameObject.id :=
      fun hno => hapart _ hno _ (List.mem_map.mpr ⟨obj, hmem, rfl⟩) rfl
    refine ⟨time', (receiveAll_objects hobjs hmem).trans ?_⟩
    rw [receiveAll_objects_of_notMem hnot]

end Receive

/-! ### What a tick does to the server -/

/-- The objects have the same ids. -/
structure SameIds (g g' : Game) : Prop where
  players : ∀ i, (g'.players i).map (fun ply => ply.obj.id) = (g.players i).map fun ply => ply.obj.id
  objs : g'.objs.map Server.GameObject.id = g.objs.map Server.GameObject.id

theorem set_id (obj : Server.GameObject) (s : Setting) : (set obj s).id = obj.id := by
  cases s <;> rfl

theorem sameIds_doing (g : Game) (d : Doing) : SameIds g (doing g d) := by
  cases d with
  | player i s =>
    refine ⟨fun j => ?_, rfl⟩
    by_cases hj : j = i
    · subst hj
      simp [doing, Game.onPlayer, Function.comp_def, set_id]
    · simp [doing, Game.onPlayer, Function.update_of_ne hj]
  | obj k s =>
    refine ⟨fun _ => rfl, List.ext_getElem? fun j => ?_⟩
    simp only [doing, List.getElem?_map, List.getElem?_modify]
    cases g.objs[j]? with
    | none => simp
    | some obj =>
      by_cases hj : k = j <;> simp [hj, set_id]
  | lastupdate i time =>
    refine ⟨fun j => ?_, rfl⟩
    by_cases hj : j = i
    · subst hj
      simp [doing, Game.onPlayer, Function.comp_def]
    · simp [doing, Game.onPlayer, Function.update_of_ne hj]

theorem sameIds_doings (doings : List Doing) (g : Game) : SameIds g (doings.foldl doing g) := by
  induction doings generalizing g with
  | nil => exact ⟨fun _ => rfl, rfl⟩
  | cons d doings ih =>
    have hone := sameIds_doing g d
    have hrest := ih (doing g d)
    exact ⟨fun i => (hrest.players i).trans (hone.players i), hrest.objs.trans hone.objs⟩

namespace SameIds

variable {g g' : Game} {c : Client}

theorem ids (h : SameIds g g') : g'.ids = g.ids := by
  unfold Game.ids
  rw [h.objs]
  simp only [h.players]

theorem known (h : SameIds g g') : (g'.known c).map Server.GameObject.id = (g.known c).map Server.GameObject.id := by
  have hid : ∀ (g : Game) (i : Fin 32), (g.knownPlayer c i).map Server.GameObject.id =
      ((g.players i).map fun ply => ply.obj.id).bind fun id => if c.players i = some id then some id else none := by
    intro g i
    unfold Game.knownPlayer
    cases g.players i with
    | none => rfl
    | some ply =>
      simp only [Option.bind_some, Option.map_some]
      split_ifs <;> rfl
  unfold Game.known
  rw [List.map_append, List.map_append, List.map_filterMap, List.map_filterMap, h.objs]
  simp only [hid, h.players]

theorem knows (h : SameIds g g') (hk : Knows g c) : Knows g' c := by
  intro i id hi
  obtain ⟨ply, hply, rfl⟩ := hk i id hi
  have hsame := h.players i
  rw [hply, Option.map_some, Option.map_eq_some_iff] at hsame
  exact hsame

end SameIds

theorem filterMap_sublist {α β : Type} {f f' : α → Option β} (h : ∀ a, f a = none ∨ f a = f' a) (l : List α) :
    (l.filterMap f).Sublist (l.filterMap f') := by
  induction l with
  | nil => exact List.Sublist.refl _
  | cons a l ih =>
    rw [List.filterMap_cons, List.filterMap_cons]
    rcases h a with hnone | hsame
    · rw [hnone]
      cases f' a with
      | none => exact ih
      | some b => exact ih.cons b
    · rw [hsame]
      cases f' a with
      | none => exact ih
      | some b => exact ih.cons_cons b

/-- What the client knows is a part of what the server has. -/
theorem known_sublist (g : Game) (c : Client) : ((g.known c).map Server.GameObject.id).Sublist g.ids := by
  unfold Game.known Game.ids
  rw [List.map_append, List.map_filterMap]
  refine List.Sublist.append (filterMap_sublist (fun i => ?_) _) (List.Sublist.refl _)
  unfold Game.knownPlayer
  cases g.players i with
  | none => exact .inl rfl
  | some ply =>
    rw [Option.bind_some, Option.map_some]
    split_ifs
    · exact .inr rfl
    · exact .inl rfl

/-- A value more. -/
theorem filterMap_perm {α β : Type} {f f' : α → Option β} {a : α} {b : β} (ha : f a = none) (ha' : f' a = some b)
    (h : ∀ a', a' ≠ a → f' a' = f a') {l : List α} (hl : l.Nodup) (hmem : a ∈ l) :
    (l.filterMap f').Perm (b :: l.filterMap f) := by
  induction l with
  | nil => cases hmem
  | cons a' l ih =>
    rw [List.nodup_cons] at hl
    rw [List.filterMap_cons, List.filterMap_cons]
    by_cases heq : a' = a
    · subst heq
      have hsame : l.filterMap f' = l.filterMap f :=
        List.filterMap_congr fun x hx => h x fun hxa => hl.1 (hxa ▸ hx)
      rw [ha, ha', hsame]
    · have hrest := ih hl.2 ((List.mem_cons.mp hmem).resolve_left (Ne.symm heq))
      rw [h a' heq]
      cases f a' with
      | none => exact hrest
      | some b' => exact (hrest.cons b').trans (List.Perm.swap b b' _)

/-- A value comes from one place. -/
theorem filterMap_inj {α β : Type} {f : α → Option β} {l : List α} (hl : (l.filterMap f).Nodup) {a a' : α} {b : β}
    (ha : a ∈ l) (ha' : a' ∈ l) (hf : f a = some b) (hf' : f a' = some b) : a = a' := by
  induction l with
  | nil => cases ha
  | cons x l ih =>
    rw [List.filterMap_cons] at hl
    rcases List.mem_cons.mp ha with rfl | hmem <;> rcases List.mem_cons.mp ha' with rfl | hmem'
    · rfl
    · rw [hf] at hl
      exact absurd (List.mem_filterMap.mpr ⟨a', hmem', hf'⟩) (List.nodup_cons.mp hl).1
    · rw [hf'] at hl
      exact absurd (List.mem_filterMap.mpr ⟨a, hmem, hf⟩) (List.nodup_cons.mp hl).1
    · refine ih ?_ hmem hmem'
      cases hx : f x with
      | none => rwa [hx] at hl
      | some y =>
        rw [hx] at hl
        exact (List.nodup_cons.mp hl).2

/-! ### Steps and runs -/

section Steps

variable {w : Setup} {s s' : System}

theorem Joined.congr (h : Joined w s) {g : Game} {c : Client} (hg : SameIds s.game g)
    (hc : c.players = s.client.players) (hlive : c.Live) : Joined w ⟨g, c⟩ := by
  refine ⟨?_, ?_, hlive, ?_, ?_⟩
  · have hme := congrArg Option.isSome (hg.players w.me)
    rw [Option.isSome_map, Option.isSome_map] at hme
    exact hme.trans h.me
  · intro i id hi
    exact hg.knows h.known i id (hc ▸ hi)
  · exact hg.ids.symm ▸ h.ids
  · have hlen := congrArg List.length hg.objs
    rw [List.length_map, List.length_map] at hlen
    exact hlen.trans_le h.count

/-- What a tick leaves of a transform. -/
theorem agrees_received_iff {obj : Server.GameObject} {b : Body} {t : BitVec 64} :
    Agrees (if obj.update = [] then b else b.received w.limit w.tick obj t).svTrans obj ↔
      Agrees (changed obj b.svTrans) obj := by
  by_cases hsame : obj.update = []
  · rw [if_pos hsame, changed_of_update obj b.svTrans hsame]
  · rw [if_neg hsame]
    exact ⟨fun h => ⟨h.pos, h.dir, h.size, h.speed⟩, fun h => ⟨h.pos, h.dir, h.size, h.speed⟩⟩

theorem receiveAll_live {c : Client} {time : BitVec 64} (h : c.Live) (l : List Server.GameObject) :
    (receiveAll w time l c).Live := by
  induction l generalizing c with
  | nil => exact h
  | cons obj l ih => exact ih (h.receive obj (some obj.id))

/-- A tick can always be taken, and the client gets all of it. -/
theorem step_tick (h : Joined w s) (doings : List Doing) (gametime : BitVec 64) :
    ∃ time, step w s (.tick doings gametime) = some ⟨doings.foldl doing s.game,
      receiveAll w (w.nsecToCycles gametime) (doings.foldl doing s.game).objs (receiveAll w time
        ((List.finRange 32).filterMap ((doings.foldl doing s.game).knownPlayer s.client)) s.client)⟩ := by
  have hids := sameIds_doings doings s.game
  obtain ⟨ply, hply⟩ : ∃ ply, (doings.foldl doing s.game).players w.me = some ply := by
    have hme := congrArg Option.isSome (hids.players w.me)
    rw [Option.isSome_map, Option.isSome_map, h.me] at hme
    exact Option.isSome_iff_exists.mp hme
  have hcount : (doings.foldl doing s.game).objs.length ≤ 255 := by
    have hlen := congrArg List.length hids.objs
    rw [List.length_map, List.length_map] at hlen
    exact hlen.trans_le h.count
  refine ⟨ply.lastupdate, ?_⟩
  rw [step, sendUpdates_spec hply h.live (hids.knows h.known) hcount gametime]
  rfl

/-- **A tick** leaves the client in sync exactly if it is complete. -/
theorem inSync_tick (h : Joined w s) {doings : List Doing} {gametime : BitVec 64}
    (hs' : step w s (.tick doings gametime) = some s') :
    Joined w s' ∧ (InSync s → (InSync s' ↔ Complete s (.tick doings gametime))) := by
  have hids := sameIds_doings doings s.game
  obtain ⟨time, hstep⟩ := step_tick h doings gametime
  set g := doings.foldl doing s.game with hg
  set c := receiveAll w (w.nsecToCycles gametime) g.objs
    (receiveAll w time ((List.finRange 32).filterMap (g.knownPlayer s.client)) s.client) with hc
  have hplayers : c.players = s.client.players := (receiveAll_players _).trans (receiveAll_players _)
  obtain rfl : s' = ⟨g, c⟩ := Option.some.inj (hs'.symm.trans hstep)
  have hknown : g.known c = g.known s.client := by
    unfold Game.known
    rw [knownPlayer_congr hplayers]
  have hnodup : ((g.known s.client).map Server.GameObject.id).Nodup :=
    (hids.ids.symm ▸ h.ids).sublist (known_sublist g s.client)
  have hobjects := fun obj' (hobj' : obj' ∈ g.known s.client) =>
    objects_receiveAll (w := w) hnodup time (w.nsecToCycles gametime) hobj'
  refine ⟨h.congr hids hplayers (receiveAll_live (receiveAll_live h.live _) _),
    fun hsync => ⟨fun hnew => ?_, fun hcomplete => ?_⟩⟩
  · intro obj hobj obj' hobj' hid hsome
    obtain ⟨b, hb⟩ := Option.isSome_iff_exists.mp hsome
    obtain ⟨t, ht⟩ := hobjects obj' hobj'
    rw [hid, hb, Option.map_some, ← hid] at ht
    have hagrees := hnew obj' (hknown.symm ▸ hobj') _ ht
    exact (agrees_changed_iff (hsync obj hobj b hb)).mp (agrees_received_iff.mp hagrees)
  · intro obj' hobj' b' hb'
    have hmem : obj' ∈ g.known s.client := hknown ▸ hobj'
    obtain ⟨t, ht⟩ := hobjects obj' hmem
    rw [show c.objects obj'.id = _ from ht, Option.map_eq_some_iff] at hb'
    obtain ⟨b, hb, rfl⟩ := hb'
    -- the object that it was in front of the tick
    have hmap : obj'.id ∈ (s.game.known s.client).map Server.GameObject.id :=
      hids.known ▸ List.mem_map.mpr ⟨obj', hmem, rfl⟩
    obtain ⟨obj, hobj, hid⟩ := List.mem_map.mp hmap
    rw [← hid] at hb
    have hcaught := hcomplete obj hobj obj' hmem hid.symm (by rw [hb]; rfl)
    exact agrees_received_iff.mpr ((agrees_changed_iff (hsync obj hobj b hb)).mpr hcaught)

/-- The ids with a new one for a player. -/
theorem ids_join {g : Game} {i : Fin 32} (hfree : g.players i = none) (ply : Player Server.GameObject) :
    (Game.ids { g with players := Function.update g.players i (some ply) }).Perm (ply.obj.id :: g.ids) := by
  have hone := @filterMap_perm _ _ (fun j => (g.players j).map fun ply => ply.obj.id)
    (fun j => (Function.update g.players i (some ply) j).map fun ply => ply.obj.id) i ply.obj.id
    (by rw [hfree]; rfl) (by simp) (fun j hj => by simp [Function.update_of_ne hj]) _ (List.nodup_finRange 32)
    (List.mem_finRange i)
  exact hone.append_right _

/-- **Who joins** is seen as the server has it. -/
theorem inSync_join (h : Joined w s) {i : Fin 32} {obj : Server.GameObject} {now : BitVec 64}
    (hs' : step w s (.join i obj now) = some s') : Joined w s' ∧ (InSync s → InSync s') := by
  rw [step] at hs'
  split_ifs at hs' with hguard
  rw [not_or, Option.not_isSome_iff_eq_none] at hguard
  obtain ⟨hfree, hnew⟩ := hguard
  obtain ⟨b, hinfo, hbody, -, -⟩ := @netcallbackPlayerinfo_spec w.limit w.tick s.client w.fresh w.junk
    now i ⟨0, obj⟩ []
  rw [List.append_nil] at hinfo
  dsimp only at hs'
  rw [hinfo] at hs'
  obtain rfl := Option.some.inj hs'
  have hne : w.me ≠ i := by
    rintro rfl
    exact absurd h.me (by rw [hfree]; decide)
  have hother : ∀ j, j ≠ i → Function.update s.client.players i (some obj.id) j = s.client.players j :=
    fun j hj => Function.update_of_ne hj _ _
  refine ⟨⟨?_, ?_, ?_, ?_, h.count⟩, ?_⟩
  · show (Function.update s.game.players i _ w.me).isSome
    rw [Function.update_of_ne hne]
    exact h.me
  · intro j id hj
    by_cases hji : j = i
    · subst hji
      have hid : some obj.id = some id := by simpa using hj
      exact ⟨⟨0, obj⟩, by simp, Option.some.inj hid⟩
    · obtain ⟨ply, hply, hid⟩ := h.known j id ((hother j hji).symm.trans hj)
      exact ⟨ply, (Function.update_of_ne hji _ _).trans hply, hid⟩
  · intro j id hj
    show (Function.update s.client.objects obj.id (some b) id).isSome
    by_cases hid : id = obj.id
    · rw [hid, Function.update_self]
      rfl
    · rw [Function.update_of_ne hid]
      by_cases hji : j = i
      · subst hji
        have hsame : some obj.id = some id := by simpa using hj
        exact absurd (Option.some.inj hsame).symm hid
      · exact h.live j id ((hother j hji).symm.trans hj)
  · exact (ids_join hfree ⟨0, obj⟩).nodup_iff.mpr (List.nodup_cons.mpr ⟨hnew, h.ids⟩)
  · intro hsync obj' hobj' b' hb'
    -- it is the new object, or one that was there
    have hcases : obj' = obj ∨ obj' ∈ s.game.known s.client := by
      rcases List.mem_append.mp hobj' with hmem | hmem
      · obtain ⟨j, -, hj⟩ := List.mem_filterMap.mp hmem
        unfold Game.knownPlayer at hj
        by_cases hji : j = i
        · subst hji
          simp at hj
          exact .inl hj.symm
        · refine .inr (List.mem_append_left _ (List.mem_filterMap.mpr ⟨j, List.mem_finRange j, ?_⟩))
          simpa [Game.knownPlayer, Function.update_of_ne hji] using hj
      · exact .inr (List.mem_append_right _ hmem)
    rcases hcases with rfl | hmem
    · have hb : some b = some b' := by simpa using hb'
      rw [← Option.some.inj hb, hbody]
      exact ⟨rfl, rfl, rfl, rfl⟩
    · have hid : obj'.id ≠ obj.id := by
        intro heq
        exact hnew (heq ▸ (known_sublist s.game s.client).subset (List.mem_map.mpr ⟨obj', hmem, rfl⟩))
      exact hsync obj' hmem b' ((Function.update_of_ne hid _ _).symm.trans hb')

theorem disconnect_players (c : Client) (i j : Fin 32) :
    (netcallbackPlayerdisconnect c i).players j = if j = i then none else c.players j := by
  unfold netcallbackPlayerdisconnect
  cases hi : c.players i with
  | none =>
    by_cases hji : j = i
    · rw [if_pos hji, hji]
      exact hi
    · rw [if_neg hji]
  | some id =>
    dsimp only
    rw [Function.update_apply]

theorem disconnect_objects (c : Client) (i : Fin 32) (id : BitVec 32) :
    (netcallbackPlayerdisconnect c i).objects id = if c.players i = some id then none else c.objects id := by
  unfold netcallbackPlayerdisconnect
  cases hi : c.players i with
  | none => rw [if_neg (by simp)]
  | some id' =>
    dsimp only
    by_cases hid : id = id'
    · rw [hid, Function.update_self, if_pos rfl]
    · rw [Function.update_of_ne hid, if_neg fun heq => hid (Option.some.inj heq).symm]

/-- **Who leaves** takes its object along. -/
theorem inSync_leave (h : Joined w s) {i : Fin 32} (hs' : step w s (.leave i) = some s') :
    Joined w s' ∧ (InSync s → InSync s') := by
  rw [step] at hs'
  split_ifs at hs' with hme
  obtain rfl := Option.some.inj hs'
  have hother : ∀ j id, (netcallbackPlayerdisconnect s.client i).players j = some id →
      j ≠ i ∧ s.client.players j = some id := by
    intro j id hj
    rw [disconnect_players] at hj
    by_cases hji : j = i
    · rw [if_pos hji] at hj
      cases hj
    · rw [if_neg hji] at hj
      exact ⟨hji, hj⟩
  refine ⟨⟨?_, ?_, ?_, ?_, h.count⟩, ?_⟩
  · show (Function.update s.game.players i none w.me).isSome
    rw [Function.update_of_ne (Ne.symm hme)]
    exact h.me
  · intro j id hj
    obtain ⟨hji, hid⟩ := hother j id hj
    obtain ⟨ply, hply, heq⟩ := h.known j id hid
    exact ⟨ply, (Function.update_of_ne hji _ _).trans hply, heq⟩
  · intro j id hj
    obtain ⟨hji, hid⟩ := hother j id hj
    rw [disconnect_objects]
    split_ifs with hgone
    · -- two players with one object
      obtain ⟨ply, hply, heq⟩ := h.known j id hid
      obtain ⟨ply', hply', heq'⟩ := h.known i id hgone
      have hnodup := (List.nodup_append.mp h.ids).1
      exact absurd (filterMap_inj hnodup (List.mem_finRange j) (List.mem_finRange i)
        (by rw [hply]; exact congrArg some heq) (by rw [hply']; exact congrArg some heq')) hji
    · exact h.live j id hid
  · refine h.ids.sublist (List.Sublist.append (filterMap_sublist (fun j => ?_) _) (List.Sublist.refl _))
    by_cases hji : j = i
    · subst hji
      exact .inl (by simp)
    · exact .inr (by simp [Function.update_of_ne hji])
  · intro hsync obj hobj b hb
    rw [disconnect_objects] at hb
    split_ifs at hb
    refine hsync obj ?_ b hb
    rcases List.mem_append.mp hobj with hmem | hmem
    · obtain ⟨j, hj, hobj'⟩ := List.mem_filterMap.mp hmem
      refine List.mem_append_left _ (List.mem_filterMap.mpr ⟨j, hj, ?_⟩)
      unfold Game.knownPlayer at hobj' ⊢
      by_cases hji : j = i
      · subst hji
        simp at hobj'
      · simpa [disconnect_players, hji, Function.update_of_ne hji] using hobj'
    · exact List.mem_append_right _ hmem

theorem Joined.step (h : Joined w s) {e : Event} (hs' : step w s e = some s') :
    Joined w s' ∧ (InSync s → (InSync s' ↔ Complete s e)) := by
  cases e with
  | tick doings gametime => exact inSync_tick h hs'
  | join i obj now =>
    have hjoin := inSync_join h hs'
    exact ⟨hjoin.1, fun hsync => iff_of_true (hjoin.2 hsync) trivial⟩
  | leave i =>
    have hleave := inSync_leave h hs'
    exact ⟨hleave.1, fun hsync => iff_of_true (hleave.2 hsync) trivial⟩

end Steps

/-- **A run stays in sync** exactly if all its ticks are complete, whoever joins and leaves in it; and the server can
always take the next tick. -/
theorem always_inSync_iff {w : Setup} {s : System} (h : Joined w s) (hsync : InSync s) (l : List Event) :
    (Always (step w) InSync s l ↔ Along (step w) Complete s l) ∧
      ∀ t, run (step w) s l = some t → ∀ doings gametime, ∃ t', step w t (.tick doings gametime) = some t' := by
  refine ⟨always_iff_along (J := Joined w) (D := fun _ _ => True) (fun _ _ _ hs _ hs' => (hs.step hs').1)
    (fun _ _ _ hs hsync _ hs' => (hs.step hs').2 hsync) h hsync (along_true s l), fun t ht doings gametime => ?_⟩
  have ht' : Joined w t := run_invariant (fun _ _ _ hs hs' => (hs.step hs').1) h ht
  obtain ⟨_, hstep⟩ := step_tick ht' doings gametime
  exact ⟨_, hstep⟩

/-- A transform with all values zero. -/
def zeroTransform : Transform := ⟨(0#32, 0#32), (0#32, 0#32), (0#32, 0#32), 0#32, (0, 0, 0), 0#64⟩

/-- An object with all values zero, but for its speed. -/
def slowObject (speed oldspeed : F32) : Server.GameObject :=
  let zero : Server.Vector2D := ⟨0#32, 0#32, 0#32, 0#32⟩
  ⟨1#32, zero, zero, zero, speed, oldspeed, false, (0, 0, 0)⟩

/-- The last player, with two transforms to keep. -/
def setup : Setup :=
  ⟨150#64, 100#64, id, 0, ⟨0, zeroTransform, zeroTransform, [zeroTransform, zeroTransform]⟩, Fin.last 31⟩

/-- A client that is alone with its object. -/
def alone : System :=
  ⟨⟨fun i => if i = Fin.last 31 then some ⟨0#64, slowObject 0#32 0#32⟩ else none, []⟩,
    ⟨fun id => if id = 1#32 then some ⟨0, zeroTransform, zeroTransform, [zeroTransform]⟩ else none,
      fun i => if i = Fin.last 31 then some 1#32 else none⟩⟩

theorem inSync_alone : InSync alone := by
  have hall : alone.game.known alone.client = [slowObject 0#32 0#32] := by decide
  intro obj hobj b hb
  rw [hall, List.mem_singleton] at hobj
  subst hobj
  obtain rfl := Option.some.inj hb
  exact ⟨rfl, rfl, rfl, rfl⟩

theorem joined_alone : Joined setup alone := by
  refine ⟨rfl, fun i id hi => ?_, fun i id hi => ?_, by decide, by decide⟩
  all_goals
    have hown : (if i = Fin.last 31 then some (1 : BitVec 32) else none) = some id := hi
    split_ifs at hown with hlast
    obtain rfl := Option.some.inj hown
  · exact ⟨_, if_pos hlast, rfl⟩
  · rfl

/-- Its speed is set two times in a tick. -/
def twice : List Doing := [.player (Fin.last 31) (.speed 0x42480000#32), .player (Fin.last 31) (.speed 0x42480000#32)]

/-- It is not sent. -/
theorem always_inSync_iff_twice : ¬ Always (step setup) InSync alone [.tick twice 0] := by
  intro hsync
  have hiff := (always_inSync_iff joined_alone inSync_alone [.tick twice 0]).1
  obtain ⟨t, ht⟩ := (always_inSync_iff joined_alone inSync_alone []).2 alone rfl twice 0
  have hcaught := (hiff.mp hsync t ht).1 (slowObject 0#32 0#32) (by decide)
    (slowObject 0x42480000#32 0x42480000#32) (by decide) rfl rfl
  exact absurd hcaught.speed (by decide)

end N64NetLib.Realtime.Replication
