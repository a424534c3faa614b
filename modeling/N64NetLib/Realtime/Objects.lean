import N64NetLib.Lib.Run
import N64NetLib.Realtime.DataStructs

/-! # The objects of the N64 client

`objects.c` and the handlers that make objects and take them away. The level is a list of objects, of which
a player may have one; the packets of the server name objects by their ids and players by their numbers.

`Roster` says what this is for: the ids, and for each player that of its object. As long as no player is
connected with the object of another one and the numbers are those of the array, the code does the same
in memory, and nothing is used after it was freed (`level_run`). It is different at the end:
`objects_destroyall` goes on to the next node before it destroys, so that it looks for a second object behind
the only one, and of more it uses a node that it has freed (`leave_faults_iff`). -/

namespace N64NetLib.Realtime.Objects

open N64NetLib.Lib.Run N64NetLib.Lib.Separation N64NetLib.Realtime.DataStructs

/-! ### The code -/

/-- `GameObject`, as far as it is looked for: its `id`. -/
abbrev GameObject := BitVec 32

/-- `global_levelobjects`, and the `obj` of `global_players`. -/
structure Level where
  objects : LinkedList
  players : Fin 32 → Ptr

/-- `objects_initsystem`. -/
def objectsInitsystem : Level := ⟨emptyLinkedList, fun _ => none⟩

/-- The place of a player in the array, if there is one. -/
def slot (num : UInt8) : Option (Fin 32) :=
  if h : 1 ≤ num.toNat ∧ num.toNat ≤ 32 then some ⟨num.toNat - 1, by omega⟩ else none

section Code

variable (A : Allocator (Cell GameObject)) (fuel : ℕ)

/-- The loop of `objects_findbyid`. -/
def findLoop (id : GameObject) : ℕ → Ptr → Prog (Cell GameObject) Ptr
  | 0, _ => fail .outOfFuel
  | fuel + 1, listit =>
    if listit = none then pure none
    else do
      let node ← readNode listit
      let obj ← readObject node.1
      if obj = id then pure node.1 else findLoop id fuel node.2

/-- `objects_findbyid`. -/
def objectsFindbyid (id : GameObject) (lv : Level) : Prog (Cell GameObject) Ptr :=
  findLoop id fuel lv.objects.head

/-- `objects_create`, with the id that the object gets. -/
def objectsCreate (id : GameObject) (lv : Level) : Prog (Cell GameObject) (Ptr × Level) := do
  let obj ← alloc A (.object id)
  let r ← listAppend A lv.objects (some obj)
  pure (some obj, { lv with objects := r.2 })

/-- `packet_readobject`, up to the values that it assigns. -/
def packetReadobject (id : GameObject) (lv : Level) : Prog (Cell GameObject) (Ptr × Level) := do
  let obj ← objectsFindbyid fuel id lv
  if obj = none then objectsCreate A id lv else pure (obj, lv)

/-- `objects_connectplayer`. -/
def objectsConnectplayer (num : UInt8) (obj : Ptr) (lv : Level) : Prog (Cell GameObject) Level :=
  match slot num with
  | some i => pure { lv with players := Function.update lv.players i obj }
  | none => fail .invalid

/-- `objects_disconnectplayer`, with `objects_destroy`. -/
def objectsDisconnectplayer (num : UInt8) (lv : Level) : Prog (Cell GameObject) Level :=
  match slot num with
  | some i => do
    let list ← removeFree fuel lv.objects (lv.players i)
    pure ⟨list, Function.update lv.players i none⟩
  | none => fail .invalid

/-- The loop of `objects_destroyall`. -/
def destroyallLoop : ℕ → LinkedList → Ptr → Prog (Cell GameObject) LinkedList
  | 0, _, _ => fail .outOfFuel
  | n + 1, list, listit =>
    if listit = none then pure list
    else do
      let node ← readNode listit
      let next ← readNode node.2
      let list ← removeFree fuel list next.1
      destroyallLoop n list node.2

/-- `objects_destroyall`. -/
def objectsDestroyall (lv : Level) : Prog (Cell GameObject) Level := do
  let list ← destroyallLoop fuel fuel lv.objects lv.objects.head
  let list ← listDestroy fuel list
  pure { lv with objects := list }

/-- What the server says about objects and players. -/
inductive Packet
  | createobject (id : GameObject)
  | playerinfo (num : UInt8) (id : GameObject)
  | playerdisconnect (num : UInt8)

/-- `netcallback_createobject`, `netcallback_playerinfo` (and `netcallback_clientinfo`), and
`netcallback_playerdisconnect`. -/
def netcallback (lv : Level) : Packet → Prog (Cell GameObject) Level
  | .createobject id => do
    let r ← packetReadobject A fuel id lv
    pure r.2
  | .playerinfo num id => do
    let r ← packetReadobject A fuel id lv
    objectsConnectplayer num r.1 r.2
  | .playerdisconnect num => objectsDisconnectplayer fuel num lv

/-- Some packets, one after the other. -/
def netcallbacks : Level → List Packet → Prog (Cell GameObject) Level
  | lv, [] => pure lv
  | lv, p :: l => do
    let lv ← netcallback A fuel lv p
    netcallbacks lv l

end Code

/-! ### What it is for -/

/-- The ids of the objects, and for each player that of its object. -/
structure Roster where
  ids : List GameObject
  players : Fin 32 → Option GameObject

namespace Roster

/-- Nobody and nothing. -/
def empty : Roster := ⟨[], fun _ => none⟩

/-- An object, if it is not there yet. -/
def add (id : GameObject) (r : Roster) : Roster := if id ∈ r.ids then r else { r with ids := r.ids ++ [id] }

/-- A packet for a player that is not one of the array is no step. -/
def step (r : Roster) : Packet → Option Roster
  | .createobject id => some (r.add id)
  | .playerinfo num id =>
    (slot num).map fun i => { r.add id with players := Function.update r.players i (some id) }
  | .playerdisconnect num =>
    (slot num).map fun i =>
      ⟨(r.players i).elim r.ids r.ids.erase, Function.update r.players i none⟩

/-- No other player has the object. -/
def Unshared (r : Roster) : Packet → Prop
  | .playerinfo num id => ∀ i, slot num = some i → ∀ j, j ≠ i → r.players j ≠ some id
  | _ => True

instance decidableUnshared (r : Roster) : ∀ p, Decidable (r.Unshared p)
  | .createobject _ => isTrue trivial
  | .playerinfo num id =>
    inferInstanceAs (Decidable (∀ i, slot num = some i → ∀ j, j ≠ i → r.players j ≠ some id))
  | .playerdisconnect _ => isTrue trivial

end Roster

/-! ### The level and its roster -/

/-- Where the object with this id is. -/
def pointerOf (es : List (Entry GameObject)) (id : GameObject) : Ptr :=
  (es.find? fun e => e.obj = id).map Entry.data

/-- The level is that of the roster, with these entries in the list. -/
structure Holds (lv : Level) (r : Roster) (es : List (Entry GameObject)) : Prop where
  list : Represents lv.objects (nodes es)
  ids : es.map Entry.obj = r.ids
  nodup : r.ids.Nodup
  pointers : ∀ i, lv.players i = (r.players i).elim none (pointerOf es)
  live : ∀ i id, r.players i = some id → id ∈ r.ids
  unshared : ∀ i j id, r.players i = some id → r.players j = some id → i = j

/-- **What the level owns**: the objects of the list and its nodes. -/
def levelOwns (lv : Level) (r : Roster) : Assertion (Cell GameObject) :=
  exist fun es => fact (Holds lv r es) (owned es)

theorem pointerOf_eq_none {es : List (Entry GameObject)} {id : GameObject} :
    pointerOf es id = none ↔ id ∉ es.map Entry.obj := by
  simp [pointerOf]

theorem pointerOf_concat_self {es : List (Entry GameObject)} {e : Entry GameObject} (h : pointerOf es e.obj = none) :
    pointerOf (es ++ [e]) e.obj = some e.data := by
  rw [pointerOf, Option.map_eq_none_iff] at h
  rw [pointerOf, List.find?_append, h]
  simp

theorem pointerOf_concat {es : List (Entry GameObject)} {e : Entry GameObject} {id : GameObject}
    (h : id ∈ es.map Entry.obj) : pointerOf (es ++ [e]) id = pointerOf es id := by
  have hsome : (es.find? fun e => e.obj = id).isSome := by simpa using h
  obtain ⟨e', he'⟩ := Option.isSome_iff_exists.mp hsome
  rw [pointerOf, List.find?_append, pointerOf, he']
  rfl

/-- The other objects stay where they are. -/
theorem pointerOf_erase {es es' : List (Entry GameObject)} {e : Entry GameObject} {id : GameObject}
    (h : id ≠ e.obj) : pointerOf (es ++ e :: es') id = pointerOf (es ++ es') id := by
  rw [pointerOf, pointerOf, List.find?_append, List.find?_append, List.find?_cons_of_neg (by simpa using h.symm)]

theorem pointerOf_split {es es' : List (Entry GameObject)} {e : Entry GameObject}
    (h : e.obj ∉ es.map Entry.obj) : pointerOf (es ++ e :: es') e.obj = some e.data := by
  have hnone : (es.find? fun e' => e'.obj = e.obj) = none := by simpa using h
  rw [pointerOf, List.find?_append, hnone, List.find?_cons_of_pos (by simp)]
  rfl

section Steps

variable {A : Allocator (Cell GameObject)} {fuel : ℕ} {lv : Level} {r : Roster}

/-- The loop that looks for an object. -/
theorem findLoop_spec {id : GameObject} (es : List (Entry GameObject)) {es' : List (Entry GameObject)} {n : ℕ}
    (hn : es'.length < n) :
    Triple (owned (es ++ es')) (findLoop id n (first (nodes es') none)) fun p =>
      fact (p = pointerOf es' id) (owned (es ++ es')) := by
  induction es' generalizing es n with
  | nil =>
    obtain ⟨n, rfl⟩ := Nat.exists_eq_succ_of_ne_zero (show n ≠ 0 by omega)
    exact triple_pure fun h hh => ⟨rfl, hh⟩
  | cons e es' ih =>
    obtain ⟨n, rfl⟩ := Nat.exists_eq_succ_of_ne_zero (show n ≠ 0 by omega)
    rw [List.length_cons] at hn
    have hsplit : es ++ e :: es' = es ++ [e] ++ es' := by simp
    rw [Nat.succ_eq_add_one, nodes_cons, first_cons, findLoop, if_neg (by simp)]
    refine triple_readEntry es (triple_readEntryObject es ?_)
    by_cases hid : e.obj = id
    · rw [if_pos hid]
      refine triple_pure fun h hh => ⟨?_, hh⟩
      rw [pointerOf, List.find?_cons_of_pos (by simpa using hid)]
      rfl
    · rw [if_neg hid, hsplit, pointerOf, List.find?_cons_of_neg (by simpa using hid)]
      exact ih _ (by omega)

/-- An object that is read is there, and where it is found. -/
def readOwns (lv : Level) (r : Roster) (id : GameObject) (p : Ptr × Level) : Assertion (Cell GameObject) :=
  exist fun es => fact (Holds p.2 (r.add id) es ∧ p.1 = pointerOf es id ∧ p.2.players = lv.players) (owned es)

theorem packetReadobject_spec (id : GameObject) (hfuel : r.ids.length < fuel) :
    Triple (levelOwns lv r) (packetReadobject A fuel id lv) (readOwns lv r id) := by
  refine triple_exist fun es => triple_fact fun h => ?_
  have hlen : es.length = r.ids.length := by rw [← h.ids, List.length_map]
  rw [packetReadobject, objectsFindbyid, h.list.head]
  refine (findLoop_spec [] (by omega)).bind fun p => triple_fact fun hp => ?_
  rw [List.nil_append]
  by_cases hnone : p = none
  · -- a new object behind the others
    rw [if_pos hnone, objectsCreate]
    have habsent : pointerOf es id = none := hp.symm.trans hnone
    have hnew : id ∉ r.ids := by rwa [← h.ids, ← pointerOf_eq_none]
    refine triple_alloc fun data => (listAppend_owned A h.list data id).bind fun r' => ?_
    refine triple_exist fun node => triple_fact fun hr' => triple_pure fun m hm =>
      ⟨_, ⟨⟨hr', ?_, ?_, ?_, ?_, ?_⟩, ?_, rfl⟩, hm⟩
    · rw [List.map_append, h.ids, Roster.add, if_neg hnew]
      rfl
    · rw [Roster.add, if_neg hnew]
      exact List.nodup_append.mpr ⟨h.nodup, List.nodup_singleton id, by simpa using fun a ha => by grind⟩
    · intro i
      rw [Roster.add, if_neg hnew]
      show lv.players i = (r.players i).elim none _
      rw [h.pointers i]
      cases hi : r.players i with
      | none => rfl
      | some id' =>
        have hlive : id' ∈ es.map Entry.obj := h.ids ▸ h.live i id' hi
        exact (pointerOf_concat hlive).symm
    · intro i id' hi
      rw [Roster.add, if_neg hnew] at hi ⊢
      exact List.mem_append_left _ (h.live i id' hi)
    · rw [Roster.add, if_neg hnew]
      exact h.unshared
    · exact (pointerOf_concat_self (e := ⟨node, data, id⟩) habsent).symm
  · have hmem : id ∈ r.ids := by
      rw [← h.ids]
      by_contra hno
      exact hnone (hp.trans (pointerOf_eq_none.mpr hno))
    rw [if_neg hnone]
    refine triple_pure fun m hm => ⟨es, ⟨?_, hp, rfl⟩, hm⟩
    rwa [Roster.add, if_pos hmem]

/-- A player gets an object that no other player has. -/
theorem holds_connect {es : List (Entry GameObject)} (h : Holds lv r es) {i : Fin 32} {id : GameObject}
    (hid : id ∈ r.ids) (hunshared : ∀ j, j ≠ i → r.players j ≠ some id) :
    Holds { lv with players := Function.update lv.players i (pointerOf es id) }
      { r with players := Function.update r.players i (some id) } es where
  list := h.list
  ids := h.ids
  nodup := h.nodup
  pointers j := by
    by_cases hj : j = i
    · rw [hj]
      simp
    · simpa [Function.update_of_ne hj] using h.pointers j
  live j id' hj := by
    by_cases hji : j = i
    · rw [hji] at hj
      simp at hj
      exact hj ▸ hid
    · exact h.live j id' (by simpa [Function.update_of_ne hji] using hj)
  unshared j k id' hj hk := by
    by_cases hji : j = i <;> by_cases hki : k = i
    · rw [hji, hki]
    · simp only [hji, Function.update_self, Option.some.injEq, Function.update_of_ne hki] at hj hk
      exact absurd (hj ▸ hk) (hunshared k hki)
    · simp only [hki, Function.update_self, Option.some.injEq, Function.update_of_ne hji] at hj hk
      exact absurd (hk ▸ hj) (hunshared j hji)
    · simp only [Function.update_of_ne hji, Function.update_of_ne hki] at hj hk
      exact h.unshared j k id' hj hk

/-- A player and its object go, and the others keep theirs. -/
theorem holds_disconnect {es es' : List (Entry GameObject)} {e : Entry GameObject} {i : Fin 32}
    (h : Holds lv r (es ++ e :: es')) (hi : r.players i = some e.obj) {list : LinkedList}
    (hlist : Represents list (nodes (es ++ es'))) :
    Holds ⟨list, Function.update lv.players i none⟩
      ⟨r.ids.erase e.obj, Function.update r.players i none⟩ (es ++ es') := by
  have hnodup := h.nodup
  have hids := h.ids
  rw [List.map_append, List.map_cons] at hids
  have hnot : e.obj ∉ es.map Entry.obj := by
    rw [← hids, List.nodup_append] at hnodup
    exact fun hmem => hnodup.2.2 _ hmem _ List.mem_cons_self rfl
  have herase : r.ids.erase e.obj = (es ++ es').map Entry.obj := by
    rw [← hids, List.erase_append_right _ hnot, List.erase_cons_head, List.map_append]
  have hother : ∀ j id, j ≠ i → r.players j = some id → id ≠ e.obj := by
    rintro j id hj hjid rfl
    exact hj (h.unshared j i _ hjid hi)
  refine ⟨hlist, herase.symm, hnodup.erase _, fun j => ?_, fun j id hj => ?_, fun j k id hj hk => ?_⟩
  · by_cases hji : j = i
    · rw [hji]
      simp
    · show Function.update lv.players i none j = (Function.update r.players i none j).elim none _
      rw [Function.update_of_ne hji, Function.update_of_ne hji, h.pointers j]
      cases hj : r.players j with
      | none => rfl
      | some id => exact pointerOf_erase (hother j id hji hj)
  · by_cases hji : j = i
    · rw [hji] at hj
      simp at hj
    · have hj' : r.players j = some id := by simpa [Function.update_of_ne hji] using hj
      exact (hnodup.mem_erase_iff).mpr ⟨hother j id hji hj', h.live j id hj'⟩
  · by_cases hji : j = i
    · rw [hji] at hj
      simp at hj
    · by_cases hki : k = i
      · rw [hki] at hk
        simp at hk
      · simp only [Function.update_of_ne hji, Function.update_of_ne hki] at hj hk
        exact h.unshared j k id hj hk

theorem objectsDisconnectplayer_spec {num : UInt8} {i : Fin 32} (hi : slot num = some i)
    (hfuel : r.ids.length < fuel) :
    Triple (levelOwns lv r) (objectsDisconnectplayer fuel num lv) fun lv' => levelOwns lv'
      ⟨(r.players i).elim r.ids r.ids.erase, Function.update r.players i none⟩ := by
  refine triple_exist fun es => triple_fact fun h => ?_
  have hlen : es.length = r.ids.length := by rw [← h.ids, List.length_map]
  rw [objectsDisconnectplayer, hi]
  dsimp only
  cases hp : r.players i with
  | none =>
    -- nothing to destroy
    have hnull : lv.players i = none := by rw [h.pointers i, hp]; rfl
    rw [hnull]
    refine (removeFree_null h.list (by omega)).bind fun list => triple_fact fun hlist => ?_
    rw [hlist]
    have hsame : Function.update lv.players i none = lv.players := by
      rw [← hnull, Function.update_eq_self]
    have hsame' : Function.update r.players i none = r.players := by
      rw [← hp, Function.update_eq_self]
    rw [hsame, hsame']
    exact triple_pure fun m hm => ⟨es, h, hm⟩
  | some id =>
    have hmem := h.live i id hp
    rw [← h.ids] at hmem
    obtain ⟨e, he, rfl⟩ := List.mem_map.mp hmem
    obtain ⟨es1, es2, rfl⟩ := List.append_of_mem he
    have hnot : e.obj ∉ es1.map Entry.obj := by
      have hnodup := h.nodup
      rw [← h.ids, List.map_append, List.map_cons, List.nodup_append] at hnodup
      exact fun hmem => hnodup.2.2 _ hmem _ List.mem_cons_self rfl
    have hptr : lv.players i = some e.data := by
      rw [h.pointers i, hp]
      exact pointerOf_split hnot
    rw [List.length_append, List.length_cons] at hlen
    rw [hptr]
    refine (removeFree_owned es1 h.list (by omega)).bind fun list => triple_fact fun hlist => ?_
    exact triple_pure fun m hm => ⟨es1 ++ es2, holds_disconnect h hp hlist, hm⟩

/-- **A packet** does to the level what it is for. -/
theorem netcallback_spec {p : Packet} {r' : Roster} (hstep : r.step p = some r') (hsafe : r.Unshared p)
    (hfuel : r.ids.length < fuel) :
    Triple (levelOwns lv r) (netcallback A fuel lv p) fun lv' => levelOwns lv' r' := by
  cases p with
  | createobject id =>
    obtain rfl := Option.some.inj hstep
    refine (packetReadobject_spec id hfuel).bind fun q => triple_exist fun es => triple_fact fun hq => ?_
    exact triple_pure fun m hm => ⟨es, hq.1, hm⟩
  | playerinfo num id =>
    obtain ⟨i, hi, rfl⟩ := Option.map_eq_some_iff.mp hstep
    refine (packetReadobject_spec id hfuel).bind fun q => triple_exist fun es => triple_fact fun hq => ?_
    obtain ⟨hholds, hptr, hplayers⟩ := hq
    have hadd : (r.add id).players = r.players := by
      unfold Roster.add
      split_ifs <;> rfl
    have hmem : id ∈ (r.add id).ids := by
      unfold Roster.add
      split_ifs with hid
      · exact hid
      · simp
    rw [objectsConnectplayer, hi]
    refine triple_pure fun m hm => ⟨es, ?_, hm⟩
    rw [hptr, ← hadd]
    exact holds_connect hholds hmem (by rw [hadd]; exact hsafe i hi)
  | playerdisconnect num =>
    obtain ⟨i, hi, rfl⟩ := Option.map_eq_some_iff.mp hstep
    exact objectsDisconnectplayer_spec hi hfuel

/-- A packet adds one object at most. -/
theorem length_step {p : Packet} {r' : Roster} (hstep : r.step p = some r') : r'.ids.length ≤ r.ids.length + 1 := by
  have hadd : ∀ id, (r.add id).ids.length ≤ r.ids.length + 1 := by
    intro id
    unfold Roster.add
    split_ifs <;> simp
  cases p with
  | createobject id => exact Option.some.inj hstep ▸ hadd id
  | playerinfo num id =>
    obtain ⟨i, -, rfl⟩ := Option.map_eq_some_iff.mp hstep
    exact hadd id
  | playerdisconnect num =>
    obtain ⟨i, -, rfl⟩ := Option.map_eq_some_iff.mp hstep
    show ((r.players i).elim r.ids r.ids.erase).length ≤ _
    cases r.players i with
    | none => exact Nat.le_succ _
    | some id => exact List.length_erase_le.trans (Nat.le_succ _)

/-- Some packets, one after the other. -/
theorem netcallbacks_spec {l : List Packet} {r' : Roster} (hrun : run Roster.step r l = some r')
    (hsafe : Along Roster.step Roster.Unshared r l) (hfuel : r.ids.length + l.length < fuel) :
    Triple (levelOwns lv r) (netcallbacks A fuel lv l) fun lv' => levelOwns lv' r' := by
  induction l generalizing lv r with
  | nil =>
    obtain rfl := Option.some.inj hrun
    exact triple_pure fun m hm => hm
  | cons p l ih =>
    obtain ⟨t, ht, hrun⟩ := run_cons.mp hrun
    obtain ⟨hone, hrest⟩ := hsafe t ht
    have hlen := length_step ht
    rw [List.length_cons] at hfuel
    exact (netcallback_spec ht hone (by omega)).bind fun lv' => ih hrun hrest (by omega)

theorem levelOwns_init {rest : Heap (Cell GameObject)} : (levelOwns objectsInitsystem .empty * only rest) rest := by
  have hholds : Holds objectsInitsystem .empty [] :=
    ⟨represents_empty, rfl, List.nodup_nil, fun _ => rfl,
      fun _ _ h => absurd h (Option.some_ne_none _).symm, fun _ _ _ h => absurd h (Option.some_ne_none _).symm⟩
  have hone : ((1 : Assertion (Cell GameObject)) * only rest) rest := by
    rw [one_mul]
    rfl
  refine star_mono (fun m hm => ⟨[], hholds, ?_⟩) rest hone
  rwa [owned_nil]

/-! ### The end of the stage -/

/-- A node that was freed is read again. -/
theorem readNode_freed {a : ℕ} {m : Heap (Cell GameObject)} (ha : m a = none) :
    readNode (some a) m = .error (.dangling a) :=
  bind_error (by rw [load, ha])

section Destroyall

variable {es : List (Entry GameObject)} {e e' : Entry GameObject} {rest m : Heap (Cell GameObject)}
  {list : LinkedList} {n : ℕ}

/-- A node of the list is read. -/
theorem readNode_split (es1 : List (Entry GameObject)) {es2 : List (Entry GameObject)}
    (hm : (owned (es1 ++ e :: es2) * only rest) m) :
    readNode (some e.node) m = .ok ((some e.data, first (nodes es2) none), m) := by
  rw [owned_split, mul_assoc, cell_star_iff] at hm
  have hload : load (some e.node) m = .ok (.node (some e.data) (first (nodes es2) none), m) := by
    rw [load, hm.1]
  rw [readNode, bind_ok hload]
  rfl

/-- **Behind the only object** it looks for a second one. -/
theorem destroyallLoop_one (hl : Represents list (nodes [e])) (hm : (owned [e] * only rest) m) :
    destroyallLoop fuel (n + 1) list list.head m = .error .null := by
  have hread : readNode (some e.node) m = .ok ((some e.data, none), m) := readNode_split [] hm
  rw [hl.head, nodes_cons, first_cons, destroyallLoop, if_neg (by simp), bind_ok hread]
  exact bind_error rfl

/-- **Of two objects** it frees the node of the second, and goes on from there. -/
theorem destroyallLoop_two (hl : Represents list (nodes (e :: e' :: es)))
    (hm : (owned (e :: e' :: es) * only rest) m) (hfuel : 1 < fuel) :
    m e'.node ≠ none ∧ destroyallLoop fuel (n + 2) list list.head m = .error (.dangling e'.node) := by
  have hread : readNode (some e.node) m = .ok ((some e.data, some e'.node), m) :=
    readNode_split [] hm
  have hread' : readNode (some e'.node) m = .ok ((some e'.data, first (nodes es) none), m) :=
    readNode_split [e] hm
  have hremove := (removeFree_owned [e] hl (by simpa using hfuel)).run_of_frugal (frugal_removeFree fuel list _) hm
  obtain ⟨list', m', hok, hm'⟩ := hremove
  rw [fact_star] at hm'
  have hthere : m e'.node ≠ none := fun hnone => by
    rw [readNode_freed hnone] at hread'
    cases hread'
  have hfreed : m' e'.node = none := by
    obtain ⟨h1, h2, hap, rfl, hes1, rfl⟩ := hm
    obtain ⟨h1', h2', -, rfl, hes1', rfl⟩ := hm'.2
    have hapart := @node_apart _ [e] _ _ _ hes1
    have howned : h1 e'.node ≠ none := by
      rw [show e :: e' :: es = [e] ++ e' :: es from rfl, owned_split, cell_star_iff] at hes1
      simp [hes1.1]
    exact join_eq_none.mpr ⟨owned_none hes1' hapart.1 hapart.2, (hap e'.node).resolve_left howned⟩
  refine ⟨hthere, ?_⟩
  rw [hl.head, nodes_cons, first_cons, destroyallLoop, if_neg (by simp), bind_ok hread]
  refine (bind_ok hread').trans ((bind_ok hok).trans ?_)
  show destroyallLoop fuel (n + 1) list' (some e'.node) m' = _
  rw [destroyallLoop, if_neg (by simp)]
  exact bind_error (readNode_freed hfreed)

end Destroyall

/-- **What `objects_destroyall` does** to the level of some roster: it ends well if there is no object, it
follows a null pointer if there is one, and of more it reads a node that was there before and is freed. -/
theorem objectsDestroyall_cases {rest m : Heap (Cell GameObject)} (hm : (levelOwns lv r * only rest) m)
    (hfuel : 1 < fuel) :
    (r.ids = [] ∧ objectsDestroyall fuel lv m = .ok ({ lv with objects := emptyLinkedList }, m)) ∨
      (r.ids.length = 1 ∧ objectsDestroyall fuel lv m = .error .null) ∨
      (2 ≤ r.ids.length ∧ ∃ a, m a ≠ none ∧ objectsDestroyall fuel lv m = .error (.dangling a)) := by
  rw [levelOwns, exist_star] at hm
  obtain ⟨es, hm⟩ := hm
  rw [fact_star] at hm
  obtain ⟨h, hm⟩ := hm
  obtain ⟨k, rfl⟩ : ∃ k, fuel = k + 2 := ⟨fuel - 2, by omega⟩
  rw [← h.ids, List.length_map]
  match es, h, hm with
  | [], h, _ =>
    have hhead : lv.objects.head = none := h.list.head
    refine .inl ⟨rfl, ?_⟩
    rw [objectsDestroyall, destroyallLoop, if_pos hhead]
    show (listDestroy (k + 2) lv.objects >>= _) m = _
    rw [listDestroy, destroyLoop, if_pos hhead]
    rfl
  | [e], h, hm => exact .inr (.inl ⟨rfl, bind_error (destroyallLoop_one h.list hm)⟩)
  | e :: e' :: es, h, hm =>
    obtain ⟨hthere, hfault⟩ := destroyallLoop_two (n := k) h.list hm hfuel
    exact .inr (.inr ⟨by simp, e'.node, hthere, bind_error hfault⟩)

end Steps

/-! ### A run -/

/-- **A run of the level**, whatever is in memory and wherever new memory is found, does what it is for unless
memory runs out: it owns the objects of the roster and their nodes, each once, and nothing else. -/
theorem level_run (A : Allocator (Cell GameObject)) {l : List Packet} {r : Roster}
    (hrun : run Roster.step .empty l = some r) (hsafe : Along Roster.step Roster.Unshared .empty l)
    (rest : Heap (Cell GameObject)) :
    netcallbacks A (l.length + 1) objectsInitsystem l rest = .error .outOfMemory ∨
      ∃ lv m, netcallbacks A (l.length + 1) objectsInitsystem l rest = .ok (lv, m) ∧
        (levelOwns lv r * only rest) m := by
  have hlen : Roster.empty.ids.length + l.length < l.length + 1 := by
    show 0 + l.length < l.length + 1
    omega
  exact (netcallbacks_spec hrun hsafe hlen).run levelOwns_init

/-- The first free one of the addresses below 100. -/
def lowest : Allocator (Cell GameObject) where
  fresh h := (List.range 100).find? fun a => (h a).isNone
  vacant h := Option.isNone_iff_eq_none.mp (by simpa using List.find?_some h)

/-- Of two players one leaves. -/
theorem level_run_two : ∃ r : Roster,
    (netcallbacks lowest 4 objectsInitsystem [.playerinfo 1 5, .playerinfo 2 6, .playerdisconnect 1] (fun _ => none) =
        .error .outOfMemory ∨
      ∃ lv m, netcallbacks lowest 4 objectsInitsystem [.playerinfo 1 5, .playerinfo 2 6, .playerdisconnect 1]
        (fun _ => none) = .ok (lv, m) ∧ (levelOwns lv r * only (fun _ => none : Heap (Cell GameObject))) m) ∧
      r.ids = [6] :=
  ⟨_, level_run lowest (l := [.playerinfo 1 5, .playerinfo 2 6, .playerdisconnect 1]) rfl (by decide) _, rfl⟩

/-- **Leaving the stage** after any such run goes well exactly if there is no object. With one object
`objects_destroyall` follows a null pointer, with two or more it reads memory that it has freed. -/
theorem leave_faults_iff {A : Allocator (Cell GameObject)} {l : List Packet} {r : Roster}
    (hrun : run Roster.step .empty l = some r) (hsafe : Along Roster.step Roster.Unshared .empty l)
    {rest m : Heap (Cell GameObject)} {lv : Level} {fuel : ℕ} (hlen : l.length < fuel) (hfuel : 1 < fuel)
    (hok : netcallbacks A fuel objectsInitsystem l rest = .ok (lv, m)) :
    (objectsDestroyall fuel lv m = .ok ({ lv with objects := emptyLinkedList }, m) ↔ r.ids = []) ∧
      (objectsDestroyall fuel lv m = .error .null ↔ r.ids.length = 1) ∧
      ((∃ a, m a ≠ none ∧ objectsDestroyall fuel lv m = .error (.dangling a)) ↔ 2 ≤ r.ids.length) := by
  have hlen' : Roster.empty.ids.length + l.length < fuel := by
    show 0 + l.length < fuel
    omega
  rcases (netcallbacks_spec (A := A) hrun hsafe hlen').run (@levelOwns_init rest) with
    hfail | ⟨lv', m', hok', hm⟩
  · rw [hok] at hfail
    cases hfail
  obtain ⟨rfl, rfl⟩ := Prod.mk.inj (Except.ok.inj (hok.symm.trans hok'))
  rcases objectsDestroyall_cases hm hfuel with ⟨hids, hout⟩ | ⟨hids, hout⟩ | ⟨hids, a, ha, hout⟩
  · simp [hout, hids]
  · have hne : r.ids ≠ [] := List.ne_nil_of_length_pos (by omega)
    simp [hout, hids, hne]
  · have hne : r.ids ≠ [] := List.ne_nil_of_length_pos (by omega)
    have hlong : r.ids.length ≠ 1 := by omega
    simp [hout, hids, hne, hlong, ha]

/-- Two players are still there: the node of the second is read after it was freed. -/
theorem leave_faults_iff_two : ∃ lv m a,
    netcallbacks lowest 3 objectsInitsystem [.playerinfo 1 5, .playerinfo 2 6] (fun _ => none) = .ok (lv, m) ∧
      m a ≠ none ∧ objectsDestroyall 3 lv m = .error (.dangling a) := by
  obtain ⟨a, ha, hfault⟩ := (@leave_faults_iff lowest [.playerinfo 1 5, .playerinfo 2 6] _ rfl (by decide)
    (fun _ => none) _ _ 3 (by decide) (by decide) rfl).2.2.mpr (by decide)
  exact ⟨_, _, a, rfl, ha, hfault⟩

end N64NetLib.Realtime.Objects
