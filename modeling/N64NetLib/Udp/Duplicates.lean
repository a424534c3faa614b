import N64NetLib.Udp.Network

/-! # Are reliable packets delivered once?

`HandlePacketSequence` takes a packet for a duplicate if one of the last 18 reliable packets it
accepted has the same number. A number is the count of the reliable packets before, modulo 65536, so
this is a matter of the order of sending alone (`isDuplicate_iff`): a copy that comes after 18 other
packets is new again, and the first copy of an unreliable packet is a duplicate if the reliable packet
sent after it overtook it.

`Fresh` says of a read that it is neither. Runs of such reads, and only these, deliver every reliable
packet at most once and take no first copy for a duplicate (`delivered_iff_fresh`). -/

namespace N64NetLib.Udp.Duplicates

open N64NetLib.Lib.Run N64NetLib.Packet.Basic N64NetLib.Packet.Sequence N64NetLib.Udp.Handler
open N64NetLib.Udp.Network

/-- The reliable packets a side returned true for, in order. -/
def delivered (heard : List Hearing) : List ℕ :=
  (heard.filter fun x => x.accepted && x.pkt.reliable).map (·.pkt.ref)

/-- **At most once**: no reliable packet was returned true for twice. -/
def AtMostOnce (e : Endpoint) : Prop := (delivered e.heard).Nodup

/-- A copy of packet `r` has come in. -/
def Heard (heard : List Hearing) (r : ℕ) : Prop := ∃ x ∈ heard, x.pkt.ref = r

/-- **No first copy is taken for a duplicate.** -/
def FirstAccepted (e : Endpoint) : Prop :=
  ∀ i x, e.heard[i]? = some x → ¬ Heard (e.heard.take i) x.pkt.ref → x.accepted = true

/-- Both sides deliver as they should. -/
def Delivered (n : Net) : Prop := ∀ s, AtMostOnce (n s) ∧ FirstAccepted (n s)

/-- How many reliable packets were sent before packet `r`, modulo 65536. -/
def number (log : List Record) (r : ℕ) : Option ℕ := log[r]?.map (·.index % 65536)

/-- One of the last 18 accepted reliable packets has the number of packet `r`. -/
def Collides (log : List Record) (heard : List Hearing) (r : ℕ) : Prop :=
  ∃ x ∈ recent heard, number log x.pkt.ref = number log r

variable (lang : Bool → Lang)

/-- What a step needs: a reliable packet that was accepted is among the last 18 still, or a packet
with its number is; a packet that is new has the number of none of these. -/
def Fresh (n : Net) : Label → Prop
  | .read s k i junk _ => ∀ d, (n !s).wire[i]? = some d → Decodes (lang s) k d junk →
      (d.pkt.reliable → d.pkt.ref ∈ delivered (n s).heard →
        Collides (n !s).log (n s).heard d.pkt.ref) ∧
      (¬ Heard (n s).heard d.pkt.ref → ¬ Collides (n !s).log (n s).heard d.pkt.ref)
  | _ => True

variable {lang}

instance (heard : List Hearing) (r : ℕ) : Decidable (Heard heard r) := by
  unfold Heard; infer_instance

instance (log : List Record) (heard : List Hearing) (r : ℕ) : Decidable (Collides log heard r) := by
  unfold Collides; infer_instance

instance decidableFresh (n : Net) : ∀ a, Decidable (Fresh lang n a)
  | .send .. => isTrue trivial
  | .resend .. => isTrue trivial
  | .read s _ i _ _ => decidableForallSome ((n !s).wire[i]?) _

/-! ### What a duplicate is -/

theorem number_eq {e : Endpoint} (he : Own e) {q : AbstractPacket} (hq : Logged e.log q) :
    number e.log q.ref = some q.seqnum.toNat := by
  obtain ⟨R, hR, hhd⟩ := hq
  have hseq : q.seqnum = R.pkt.seqnum := congrArg Header.seqnum hhd
  rw [number, hR, hseq, he.seqnum R (List.mem_of_getElem? hR)]
  simp

/-- **A duplicate is a collision.** -/
theorem isDuplicate_iff {lang : Lang} {e peer : Endpoint} (hpeer : Own peer)
    (he : Knows lang peer.log e) {d : AbstractPacket} (hd : Logged peer.log d) :
    isDuplicate e.handler d = true ↔ Collides peer.log e.heard d.ref := by
  have hrec : ∀ x ∈ recent e.heard, number peer.log x.pkt.ref = some x.pkt.seqnum.toNat := by
    intro x hx
    have hx' : x ∈ e.heard := List.mem_of_mem_filter (List.mem_of_mem_drop hx)
    exact number_eq hpeer (he.heard x hx')
  have hlen : e.handler.acksleftRx.length = (recent e.heard).length := by
    simpa using he.rx.length_eq
  have hget : ∀ i, (h : i < e.handler.acksleftRx.length) → (h' : i < (recent e.heard).length) →
      e.handler.acksleftRx[i].seqnum = (recent e.heard)[i].pkt.seqnum := by
    intro i h h'
    have hs : Same e.handler.acksleftRx[i] (recent e.heard)[i].pkt := by
      simpa using (List.forall₂_iff_get.mp he.rx).2 i h (by simpa using h')
    exact congrArg Header.seqnum hs.2
  simp only [isDuplicate, List.any_eq_true, decide_eq_true_eq, Collides, number_eq hpeer hd]
  constructor
  · rintro ⟨x, hx, hseq⟩
    obtain ⟨i, hi, rfl⟩ := List.getElem_of_mem hx
    have hi' : i < (recent e.heard).length := hlen ▸ hi
    refine ⟨(recent e.heard)[i], List.getElem_mem hi', ?_⟩
    rw [hrec _ (List.getElem_mem hi'), ← hget i hi hi', hseq]
  · rintro ⟨x, hx, hnum⟩
    obtain ⟨i, hi', rfl⟩ := List.getElem_of_mem hx
    have hi : i < e.handler.acksleftRx.length := hlen ▸ hi'
    refine ⟨e.handler.acksleftRx[i], List.getElem_mem hi, ?_⟩
    rw [hrec _ (List.getElem_mem hi'), Option.some.injEq, BitVec.toNat_inj] at hnum
    rw [hget i hi hi', hnum]

/-! ### One more packet -/

theorem delivered_append (heard : List Hearing) (x : Hearing) :
    delivered (heard ++ [x]) =
      delivered heard ++ if x.accepted && x.pkt.reliable then [x.pkt.ref] else [] := by
  unfold delivered
  rw [List.filter_append, List.map_append]
  cases h : (x.accepted && x.pkt.reliable) <;> simp [h]

theorem atMostOnce_append {heard : List Hearing} {x : Hearing} (h : (delivered heard).Nodup) :
    (delivered (heard ++ [x])).Nodup ↔
      (x.pkt.reliable → x.pkt.ref ∈ delivered heard → x.accepted = false) := by
  rw [delivered_append]
  by_cases hx : (x.accepted && x.pkt.reliable) = true
  · rw [if_pos hx, List.nodup_append_comm, List.singleton_append, List.nodup_cons]
    simp_all
  · rw [if_neg hx, List.append_nil]
    cases hacc : x.accepted <;> simp_all

theorem firstAccepted_append {heard : List Hearing} {x : Hearing}
    (h : ∀ i y, heard[i]? = some y → ¬ Heard (heard.take i) y.pkt.ref → y.accepted = true) :
    (∀ i y, (heard ++ [x])[i]? = some y → ¬ Heard ((heard ++ [x]).take i) y.pkt.ref →
      y.accepted = true) ↔ (¬ Heard heard x.pkt.ref → x.accepted = true) := by
  constructor
  · intro hall hnew
    refine hall heard.length x (by simp) ?_
    rwa [List.take_left' rfl]
  · intro hx i y hy hnew
    rcases getElem?_concat hy with hy | ⟨rfl, rfl⟩
    · refine h i y hy ?_
      rwa [List.take_append_of_le_length (List.getElem?_eq_some_iff.mp hy).1.le] at hnew
    · rw [List.take_left' rfl] at hnew
      exact hx hnew

/-! ### Steps and runs -/

/-- A step that takes nothing in. -/
theorem delivered_update {n : Net} (hn : Delivered n) {s : Bool} {e : Endpoint}
    (hheard : e.heard = (n s).heard) : Delivered (Function.update n s e) := by
  intro t
  by_cases ht : t = s
  · subst ht
    simpa [AtMostOnce, FirstAccepted, hheard] using hn t
  · simpa [Function.update_of_ne ht] using hn t

theorem delivered_update_iff {n : Net} (hn : Delivered n) {s : Bool} {e : Endpoint} {x : Hearing}
    (hheard : e.heard = (n s).heard ++ [x]) : Delivered (Function.update n s e) ↔
      (x.pkt.reliable → x.pkt.ref ∈ delivered (n s).heard → x.accepted = false) ∧
      (¬ Heard (n s).heard x.pkt.ref → x.accepted = true) := by
  rw [← atMostOnce_append (hn s).1, ← firstAccepted_append (hn s).2, ← hheard]
  constructor
  · intro h
    simpa [AtMostOnce, FirstAccepted] using h s
  · intro h t
    by_cases ht : t = s
    · subst ht
      simpa [AtMostOnce, FirstAccepted] using h
    · simpa [Function.update_of_ne ht] using hn t

/-- **One step delivers as it should exactly if it is fresh.** -/
theorem delivered_step {n n' : Net} {a : Label} (hn : Inv lang n) (hdel : Delivered n)
    (hwrap : NoWrap lang n a) (h : step lang n a = some n') : Delivered n' ↔ Fresh lang n a := by
  cases a with
  | send s pkt now =>
    simp only [Fresh, iff_true]
    rcases step_send h with rfl | ⟨p, data, rfl, hdata, rfl⟩
    · exact hdel
    · exact delivered_update hdel rfl
  | resend s calls =>
    simp only [Fresh, iff_true]
    obtain ⟨tx, out, rfl, -, -⟩ := step_resend h hwrap
    exact delivered_update hdel rfl
  | read s k i junk now =>
    obtain ⟨d, hd, ⟨hdec, rfl⟩ | ⟨hdec, x, hx, hn'⟩⟩ := step_read hn h
    · simp only [Fresh, hd, Option.some.injEq]
      exact ⟨fun _ d' hd' hdec' => absurd (hd' ▸ hdec') hdec, fun _ => hdel⟩
    have hlogged := ((hn !s).1.wire d (List.mem_of_getElem? hd)).1
    have hdup := isDuplicate_iff (hn !s).1 (hn s).2 hlogged
    rw [← isDuplicate_same (n s).handler hx] at hdup
    have hfresh : Fresh lang n (.read s k i junk now) ↔
        (d.pkt.reliable → d.pkt.ref ∈ delivered (n s).heard →
          (!isDuplicate (n s).handler x) = false) ∧
        (¬ Heard (n s).heard d.pkt.ref → (!isDuplicate (n s).handler x) = true) := by
      simp only [Fresh, hd, Option.some.injEq, forall_eq', hdec, forall_true_left, ← hdup,
        Bool.not_eq_true, Bool.not_eq_false', Bool.not_eq_true']
    rw [hfresh]
    rcases hn' with rfl | ⟨data, hdata, rfl⟩
    · exact delivered_update_iff hdel (x := ⟨d.pkt, !isDuplicate (n s).handler x⟩) rfl
    · exact delivered_update_iff hdel (x := ⟨d.pkt, !isDuplicate (n s).handler x⟩) rfl

/-- **Fresh runs deliver, and only these**: as long as no attempt counter comes round to one, every
state of a run has delivered each reliable packet at most once and taken no first copy for a
duplicate exactly if each read of the run is fresh. -/
theorem delivered_iff_fresh (lang : Bool → Lang) (l : List Label)
    (hwrap : Along (step lang) (NoWrap lang) init l) :
    Always (step lang) Delivered init l ↔ Along (step lang) (Fresh lang) init l :=
  always_iff_along (fun _ _ _ hn hwrap hs => inv_step hn hwrap hs)
    (fun _ _ _ hn hdel hwrap hs => delivered_step hn hdel hwrap hs) inv_init
    (fun s => ⟨by simp [AtMostOnce, delivered, init], by simp [FirstAccepted, init]⟩) hwrap

/-- A packet and two more copies of it arrive, and an unreliable one between them. -/
def freshRun : List Label :=
  [.send false (newNetLibPacket 0 5 [1] 0) 0, .send false (newNetLibPacket 0 6 [] 1) 0,
    .read true .netlib 0 (fun _ => 0) 1, .resend false (fun _ => ⟨2000, 2000, true⟩),
    .read true .netlib 2 (fun _ => 0) 2, .read true .netlib 1 (fun _ => 0) 3,
    .read true .netlib 0 (fun _ => 0) 4]

theorem delivered_freshRun : Always (step fun _ => .java) Delivered init freshRun :=
  (delivered_iff_fresh (fun _ => .java) freshRun (by decide +kernel)).mpr (by decide +kernel)

/-- An unreliable packet is overtaken by the reliable packet sent after it, which has its number. -/
def overtakenRun : List Label :=
  [.send false (newNetLibPacket 0 6 [] 1) 0, .send false (newNetLibPacket 0 5 [1] 0) 0,
    .read true .netlib 1 (fun _ => 0) 1, .read true .netlib 0 (fun _ => 0) 2]

/-- Nineteen reliable packets arrive, and then a copy of the first. -/
def repeatedRun : List Label :=
  (List.range 19).map (fun i => .send false (newNetLibPacket 0 5 [] 0) i) ++
    (List.range 19).map (fun i => .read true .netlib i (fun _ => 0) i) ++
      [.read true .netlib 0 (fun _ => 0) 20]

/-- The packet is returned true for twice, and the overtaken packet is not returned true for. -/
theorem not_delivered_runs :
    (¬ ∀ lang l, Always (step lang) (fun n => ∀ s, AtMostOnce (n s)) init l) ∧
      ¬ ∀ lang l, Always (step lang) (fun n => ∀ s, FirstAccepted (n s)) init l := by
  constructor
  · intro h
    obtain ⟨n, hn⟩ : ∃ n, run (step fun _ => .java) init repeatedRun = some n :=
      Option.isSome_iff_exists.mp (by decide +kernel)
    have hrun : (run (step fun _ => .java) init repeatedRun).map (fun n =>
        decide (delivered (n true).heard).Nodup) = some false := by decide +kernel
    rw [hn, Option.map_some, Option.some.injEq, decide_eq_false_iff_not] at hrun
    exact hrun ((h (fun _ => .java) repeatedRun).last hn true)
  · intro h
    obtain ⟨n, hn⟩ : ∃ n, run (step fun _ => .java) init overtakenRun = some n :=
      Option.isSome_iff_exists.mp (by decide +kernel)
    have hrun : (run (step fun _ => .java) init overtakenRun).map (fun n =>
        (n true).heard.map fun x => (x.pkt.ref, x.accepted)) = some [(1, true), (0, false)] := by
      decide +kernel
    rw [hn, Option.map_some, Option.some.injEq] at hrun
    obtain ⟨x, l, hxl, hx, hrun⟩ := List.map_eq_cons_iff.mp hrun
    obtain ⟨y, l', rfl, hy, -⟩ := List.map_eq_cons_iff.mp hrun
    rw [Prod.mk.injEq] at hx hy
    have hfirst := (h (fun _ => .java) overtakenRun).last hn true 1 y (by simp [hxl])
      (by simp [hxl, Heard, hx.1, hy.1])
    simp [hy.2] at hfirst

end N64NetLib.Udp.Duplicates
