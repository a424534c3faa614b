import N64NetLib.Realtime.Replication

/-! # The timeline of an object

For each object the N64 keeps the transforms of the last ticks. It draws an object where it was some time ago,
and `stage_game_draw` looks on the timeline for the two transforms that surround that time. The server sends only
what changes, so that a transform may be much older than the next one: `objects_synctransforms` then fills the
rest of the timeline with ticks.

The packets are read here with any bytes whatever, in any order. No timeline that the client gets to has a gap, and
so the two transforms that are found are close to each other and surround the time, if the timeline reaches back
to it (`run_surrounds`). -/

namespace N64NetLib.Realtime.Timeline

open N64NetLib.Lib.Run N64NetLib.Realtime.Objects N64NetLib.Realtime.Updates N64NetLib.Realtime.Replication

/-! ### The packets -/

/-- A packet about objects. The time is what `osGetTime` tells when it is read. -/
inductive Packet
  | playerinfo (now : BitVec 64)
  | createobject (now : BitVec 64)
  | updateobject
  | updateplayer
  | playerdisconnect

/-- What the callbacks do to the objects. -/
def receive (w : Setup) (fuel : ℕ) (c : Client) : Packet × List UInt8 → Option Client
  | (.playerinfo now, data) => (netcallbackPlayerinfo w.limit w.tick w.fresh w.junk now c data).map Prod.fst
  | (.createobject now, data) => some (Updates.packetReadobject w.limit w.tick w.fresh now c data).2.1
  | (.updateobject, data) =>
    (netcallbackUpdateobject w.limit w.tick w.nsecToCycles w.junk fuel c data).map Prod.fst
  | (.updateplayer, data) =>
    (netcallbackUpdateplayer w.limit w.tick w.junk fuel w.me c data).map fun r => r.2.2.1
  | (.playerdisconnect, data) => (slot (netlibReadbyte w.junk data).1).map (netcallbackPlayerdisconnect c)

/-! ### Drawing -/

/-- The loop of `stage_game_draw`: without one that is old enough it ends with the last two. -/
def surroundLoop (time : BitVec 64) : Transform → List Transform → Option (Transform × Transform)
  | _, [] => none
  | after, before :: rest =>
    if before.timestamp ≤ time ∨ rest = [] then some (before, after) else surroundLoop time before rest

/-- The two transforms, before and after the time. There is none if there are not two to keep. -/
def surround (time : BitVec 64) (b : Body) : Option (Transform × Transform) :=
  match b.oldTrans with
  | [] => none
  | t :: rest => if t.timestamp ≤ time then some (t, b.svTrans) else surroundLoop time t rest

/-! ### Without a gap -/

/-- No two transforms that follow each other are further apart than the limit. -/
def Gapless (limit : BitVec 64) : Transform → List Transform → Prop
  | _, [] => True
  | newer, older :: rest => newer.timestamp - older.timestamp ≤ limit ∧ Gapless limit older rest

section Sync

variable {limit tick : BitVec 64}

theorem syncLoop_gapless (htick : tick ≤ limit) (propagate : Bool) (newer : Transform) (l : List Transform) :
    Gapless limit newer (syncLoop limit tick propagate newer l) := by
  induction l generalizing propagate newer with
  | nil => trivial
  | cons older rest ih =>
    refine ⟨?_, ih _ _⟩
    by_cases hfar : (propagate || decide (newer.timestamp - older.timestamp > limit)) = true
    · -- the older one is a copy of the newer one, a tick before it
      rw [if_pos hfar]
      have hback : newer.timestamp - (newer.timestamp - tick) = tick := by bv_omega
      show newer.timestamp - (newer.timestamp - tick) ≤ limit
      rwa [hback]
    · rw [if_neg hfar]
      simp only [Bool.or_eq_true, decide_eq_true_eq, not_or, gt_iff_lt] at hfar
      exact BitVec.not_lt.mp hfar.2

theorem length_syncLoop (propagate : Bool) (newer : Transform) (l : List Transform) :
    (syncLoop limit tick propagate newer l).length = l.length := by
  induction l generalizing propagate newer with
  | nil => rfl
  | cons older rest ih => exact congrArg (· + 1) (ih _ _)

/-- The timeline of an object, with `n` transforms to keep. -/
structure Kept (limit : BitVec 64) (n : ℕ) (b : Body) : Prop where
  gapless : Gapless limit b.svTrans b.oldTrans
  length : b.oldTrans.length = n

/-- Whatever was on it, after `objects_synctransforms` there is no gap. -/
theorem kept_synctransforms (htick : tick ≤ limit) {b : Body} {n : ℕ} (hlen : b.oldTrans.length = n) :
    Kept limit n (objectsSynctransforms limit tick b) :=
  ⟨syncLoop_gapless htick false b.svTrans b.oldTrans, (length_syncLoop false b.svTrans b.oldTrans).trans hlen⟩

theorem length_pusholdtransforms (b : Body) : (objectsPusholdtransforms b).oldTrans.length = b.oldTrans.length := by
  rw [objectsPusholdtransforms, List.length_take, List.length_cons]
  omega

end Sync

/-- All timelines of the client. -/
def AllKept (limit : BitVec 64) (n : ℕ) (c : Client) : Prop := ∀ id b, c.objects id = some b → Kept limit n b

theorem AllKept.update {limit : BitVec 64} {n : ℕ} {c : Client} (h : AllKept limit n c) {id : BitVec 32} {b : Body}
    (hb : Kept limit n b) : AllKept limit n { c with objects := Function.update c.objects id (some b) } := by
  intro id' b' hb'
  have heq : Function.update c.objects id (some b) id' = some b' := hb'
  rw [Function.update_apply] at heq
  split_ifs at heq
  · exact Option.some.inj heq ▸ hb
  · exact h id' b' heq

/-! ### What the callbacks keep -/

section Callbacks

variable {limit tick : BitVec 64} {n : ℕ} {c c' : Client} {data rest : List UInt8}

theorem allKept_readUpdate (htick : tick ≤ limit) {junk : UInt8} {fuel : ℕ} {time : BitVec 64}
    {obj : Option (BitVec 32)} (h : AllKept limit n c)
    (hr : readUpdate limit tick junk fuel time obj c data = some (c', rest)) : AllKept limit n c' := by
  unfold readUpdate at hr
  dsimp only at hr
  split at hr
  · obtain ⟨r, -, hr⟩ := Option.map_eq_some_iff.mp hr
    rwa [← (Prod.mk.inj hr).1]
  · rename_i id
    split at hr
    · cases hr
    · rename_i b hb
      obtain ⟨r, -, hr⟩ := Option.map_eq_some_iff.mp hr
      rw [← (Prod.mk.inj hr).1]
      exact h.update (kept_synctransforms htick ((length_pusholdtransforms b).trans (h id b hb).length))

theorem allKept_updateplayerLoop (htick : tick ≤ limit) {junk : UInt8} {fuel : ℕ} {time : BitVec 64}
    {clobj : Option (BitVec 32)} {k : ℕ} {reconcile reconcile' : Bool} (h : AllKept limit n c)
    (hr : updateplayerLoop limit tick junk fuel time clobj k reconcile c data = some (reconcile', c', rest)) :
    AllKept limit n c' := by
  induction k generalizing reconcile c data with
  | zero =>
    obtain ⟨-, rfl, -⟩ := by simpa [updateplayerLoop] using hr
    exact h
  | succ k ih =>
    rw [updateplayerLoop] at hr
    simp only [Option.bind_eq_bind, Option.bind_eq_some_iff] at hr
    obtain ⟨i, -, r, hread, hr⟩ := hr
    exact ih (allKept_readUpdate htick h hread) hr

theorem allKept_updateobjectLoop (htick : tick ≤ limit) {junk : UInt8} {fuel : ℕ} {ctime : BitVec 64} {k : ℕ}
    (h : AllKept limit n c) (hr : updateobjectLoop limit tick junk fuel ctime k c data = some (c', rest)) :
    AllKept limit n c' := by
  induction k generalizing c data with
  | zero =>
    obtain ⟨rfl, -⟩ := by simpa [updateobjectLoop] using hr
    exact h
  | succ k ih =>
    rw [updateobjectLoop] at hr
    simp only [Option.bind_eq_bind, Option.bind_eq_some_iff] at hr
    obtain ⟨r, hread, hr⟩ := hr
    exact ih (allKept_readUpdate htick h hread) hr

/-- The last of the older transforms stays where it is. -/
theorem length_older (l : List Transform) :
    ((l.dropLast.map fun t : Transform => { t with timestamp := 0 }) ++ l.getLast?.toList).length = l.length := by
  cases l with
  | nil => rfl
  | cons t l =>
    rw [List.length_append, List.length_map, List.length_dropLast,
      List.getLast?_eq_some_getLast (List.cons_ne_nil t l)]
    rfl

theorem allKept_packetReadobject (htick : tick ≤ limit) {fresh : Body} (hfresh : fresh.oldTrans.length = n)
    (now : BitVec 64) (h : AllKept limit n c) (data : List UInt8) :
    AllKept limit n (Updates.packetReadobject limit tick fresh now c data).2.1 := by
  refine h.update ?_
  have hlen : ((c.objects (netlibReaddword 0 data).1).getD fresh).oldTrans.length = n := by
    cases hb : c.objects (netlibReaddword 0 data).1 with
    | none => exact hfresh
    | some b => exact (h _ b hb).length
  exact kept_synctransforms htick ((length_older _).trans hlen)

theorem allKept_playerdisconnect (h : AllKept limit n c) (i : Fin 32) :
    AllKept limit n (netcallbackPlayerdisconnect c i) := by
  intro id b hb
  rw [disconnect_objects] at hb
  split_ifs at hb
  exact h id b hb

/-- **A packet**, whatever its bytes are, leaves no gap. -/
theorem allKept_receive {w : Setup} {fuel : ℕ} (htick : w.tick ≤ w.limit) {p : Packet × List UInt8}
    (h : AllKept w.limit w.fresh.oldTrans.length c) (hc' : receive w fuel c p = some c') :
    AllKept w.limit w.fresh.oldTrans.length c' := by
  obtain ⟨kind, data⟩ := p
  cases kind with
  | playerinfo now =>
    obtain ⟨r, hr, rfl⟩ := Option.map_eq_some_iff.mp hc'
    unfold netcallbackPlayerinfo at hr
    simp only [Option.bind_eq_bind, Option.bind_eq_some_iff] at hr
    obtain ⟨i, -, hr⟩ := hr
    rw [← Option.some.inj hr]
    exact allKept_packetReadobject htick rfl now h _
  | createobject now =>
    rw [← Option.some.inj hc']
    exact allKept_packetReadobject htick rfl now h data
  | updateobject =>
    obtain ⟨r, hr, rfl⟩ := Option.map_eq_some_iff.mp hc'
    exact allKept_updateobjectLoop htick h hr
  | updateplayer =>
    obtain ⟨r, hr, rfl⟩ := Option.map_eq_some_iff.mp hc'
    unfold netcallbackUpdateplayer at hr
    simp only [Option.bind_eq_bind, Option.bind_eq_some_iff] at hr
    obtain ⟨r', hread, hr⟩ := hr
    rw [← Option.some.inj hr]
    exact allKept_updateplayerLoop htick h hread
  | playerdisconnect =>
    obtain ⟨i, -, rfl⟩ := Option.map_eq_some_iff.mp hc'
    exact allKept_playerdisconnect h i

end Callbacks

/-! ### The view time -/

/-- What is drawn between: two transforms that are close; the first is not after the time if any on the timeline is
not, and the second is after it, if it is not the newest one. -/
structure Surrounds (limit time : BitVec 64) (b : Body) (before after : Transform) : Prop where
  close : after.timestamp - before.timestamp ≤ limit
  before : (∃ t ∈ b.oldTrans, t.timestamp ≤ time) → before.timestamp ≤ time
  after : after = b.svTrans ∨ time < after.timestamp

theorem surroundLoop_spec {limit time : BitVec 64} {after : Transform} {l : List Transform} (hl : l ≠ [])
    (hgap : Gapless limit after l) (hafter : time < after.timestamp) :
    ∃ before after', surroundLoop time after l = some (before, after') ∧
      after'.timestamp - before.timestamp ≤ limit ∧
      ((∃ t ∈ l, t.timestamp ≤ time) → before.timestamp ≤ time) ∧ time < after'.timestamp := by
  induction l generalizing after with
  | nil => exact absurd rfl hl
  | cons before rest ih =>
    obtain ⟨hclose, hrest⟩ := hgap
    by_cases hstop : before.timestamp ≤ time ∨ rest = []
    · refine ⟨before, after, if_pos hstop, hclose, fun ⟨t, ht, htime⟩ => ?_, hafter⟩
      rcases hstop with hle | rfl
      · exact hle
      · rwa [List.mem_singleton.mp ht] at htime
    · rw [not_or] at hstop
      obtain ⟨before', after', hloop, hclose', hbefore', hafter'⟩ := ih hstop.2 hrest (BitVec.not_le.mp hstop.1)
      refine ⟨before', after', (if_neg (not_or.mpr hstop)).trans hloop, hclose', fun ⟨t, ht, htime⟩ => ?_, hafter'⟩
      rcases List.mem_cons.mp ht with rfl | hmem
      · exact absurd htime hstop.1
      · exact hbefore' ⟨t, hmem, htime⟩

theorem surround_spec {limit : BitVec 64} {n : ℕ} {b : Body} (hb : Kept limit n b) (hn : 2 ≤ n) (time : BitVec 64) :
    ∃ before after, surround time b = some (before, after) ∧ Surrounds limit time b before after := by
  obtain ⟨hgap, hlen⟩ := hb
  obtain ⟨bounce, clTrans, svTrans, oldTrans⟩ := b
  match oldTrans, hgap, hlen with
  | [], _, hlen =>
    rw [List.length_nil] at hlen
    omega
  | [_], _, hlen =>
    rw [List.length_singleton] at hlen
    omega
  | t :: t' :: rest, ⟨hclose, hrest⟩, _ =>
    by_cases hnow : t.timestamp ≤ time
    · exact ⟨t, svTrans, if_pos hnow, hclose, fun _ => hnow, .inl rfl⟩
    · obtain ⟨before, after, hloop, hclose', hbefore, hafter⟩ :=
        surroundLoop_spec (List.cons_ne_nil t' rest) hrest (BitVec.not_le.mp hnow)
      refine ⟨before, after, (if_neg hnow).trans hloop, hclose', fun ⟨u, hu, htime⟩ => ?_, .inr hafter⟩
      rcases List.mem_cons.mp hu with rfl | hmem
      · exact absurd htime hnow
      · exact hbefore ⟨u, hmem, htime⟩

/-- **What is drawn between** is close and surrounds the time, for every object, after any packets with any bytes. -/
theorem run_surrounds {w : Setup} {fuel : ℕ} (htick : w.tick ≤ w.limit) (htwo : 2 ≤ w.fresh.oldTrans.length)
    {l : List (Packet × List UInt8)} {c : Client}
    (h : run (receive w fuel) ⟨fun _ => none, fun _ => none⟩ l = some c) {id : BitVec 32} {b : Body}
    (hb : c.objects id = some b) (time : BitVec 64) :
    ∃ before after, surround time b = some (before, after) ∧ Surrounds w.limit time b before after := by
  have hkept : AllKept w.limit w.fresh.oldTrans.length c :=
    run_invariant (fun _ _ _ hs hs' => allKept_receive htick hs hs') (fun id b hno => by cases hno) h
  exact surround_spec (hkept id b hb) htwo time

/-- An object is made, and five ticks later its speed changes: the rest of its timeline is filled with ticks. -/
theorem run_surrounds_gap :
    let t : BitVec 64 → Transform := fun time => { zeroTransform with speed := 0x3F800000#32, timestamp := time }
    ∃ before after, surround 1350 ⟨0, t 1500, t 1500, [t 1400, t 1300]⟩ = some (before, after) ∧
      Surrounds 150 1350 ⟨0, t 1500, t 1500, [t 1400, t 1300]⟩ before after :=
  @run_surrounds setup 5 (by decide) (by decide) [(.createobject 1000, []),
    (.updateobject, [1, 0, 0, 0, 0, 0, 0, 0x05, 0xDC, 0, 0, 0, 0, 5, 3, 0x3F, 0x80, 0, 0])] _ rfl 0 _ rfl 1350

end N64NetLib.Realtime.Timeline
