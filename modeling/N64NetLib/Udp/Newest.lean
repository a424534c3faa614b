import N64NetLib.Lib.Serial
import N64NetLib.Udp.AckFields

/-! # The newest packet

`remoteseqnum` goes to the number of every accepted packet that the comparison finds greater. The numbers
wrap: C++ compares them as unsigned shorts, which wrap at 65535, and Java as signed ones, which wrap at 32767.
In both, a number is greater than those up to 32767 behind it and not greater than those up to 32767 ahead,
however far the sender has counted (`ahead_javaAdvance`, `ahead_cppAdvance`).

The place of a packet is its number in a count that does not wrap. `step` runs a handler beside the list
of the packets it accepted, with their places; while these come near the newest one, `remoteseqnum` is its
number (`always_isNewest`). -/

namespace N64NetLib.Udp.Newest

open N64NetLib.Lib.Run N64NetLib.Lib.Serial N64NetLib.Packet N64NetLib.Packet.Basic
open N64NetLib.Packet.Sequence N64NetLib.Udp.Handler N64NetLib.Udp.Resend N64NetLib.Udp.AckFields

/-! ### Two numbers -/

/-- `t` is `k` ahead of `s`, as the sequence arithmetic sees it. -/
structure Ahead (lang : Lang) (t s : BitVec 16) (k : ℕ) : Prop where
  greater : lang.sequenceGreaterThan t s = true
  not_greater : lang.sequenceGreaterThan s t = false
  delta : lang.sequenceDelta t s = k

/-- **The comparison is right** up to 32767, in both languages. -/
theorem rightWithin (lang : Lang) : RightWithin lang.sequenceGreaterThan 32767 where
  ahead s k h1 hk := by
    have hd := dist_add s (show k < 65536 by omega)
    exact lang.sequenceGreaterThan_of_dist (by omega) (by omega)
  behind s k hk := by
    rw [Bool.eq_false_iff, ne_eq, Lang.sequenceGreaterThan_iff]
    rcases Nat.eq_zero_or_pos k with rfl | h1
    · have hd : dist s (s + BitVec.ofNat 16 0) = 0 := dist_eq_zero.mpr (BitVec.add_zero s).symm
      omega
    · have hd := dist_behind s h1 (show k < 65536 by omega)
      omega

theorem ahead_add (lang : Lang) (s : BitVec 16) {k : ℕ} (h1 : 1 ≤ k) (hk : k ≤ 32767) :
    Ahead lang (s + BitVec.ofNat 16 k) s k where
  greater := (rightWithin lang).ahead s k h1 hk
  not_greater := (rightWithin lang).behind s k hk
  delta := by rw [Lang.sequenceDelta_eq, dist_add s (by omega)]

/-- **Java**, from any int. -/
theorem ahead_javaAdvance (seq : ℤ) {k : ℕ} (h1 : 1 ≤ k) (hk : k ≤ 32767) :
    Ahead .java (javaAdvance seq k) (BitVec.ofInt 16 seq) k := by
  rw [javaAdvance_eq]
  exact ahead_add .java _ h1 hk

/-- **C++**. -/
theorem ahead_cppAdvance (host : Host) (s : BitVec 16) {k : ℕ} (h1 : 1 ≤ k) (hk : k ≤ 32767) :
    Ahead (.cpp host) (cppAdvance s k) s k := by
  rw [cppAdvance_eq]
  exact ahead_add (.cpp host) s h1 hk

/-! ### The packets of a run -/

/-- A handler, and the packets it accepted with their places, the last one at the end. -/
structure Counted where
  handler : UDPHandler
  accepted : List (ℤ × AbstractPacket)

/-- A handler that has accepted nothing. -/
def start : Counted := ⟨newUDPHandler, []⟩

/-- A call of the handler. A packet that is accepted in it has this place. -/
structure Label where
  call : HandlerCall
  place : ℤ

/-- The place of the newest packet, from place 0 on. -/
def Counted.newest (c : Counted) : ℤ := highest (c.accepted.map Prod.fst)

def step (lang : Lang) (c : Counted) (a : Label) : Option Counted :=
  (handlerStep lang c.handler a.call).map fun h =>
    ⟨h, c.accepted ++ ((accepts lang c.handler a.call).map fun pkt => (a.place, pkt)).toList⟩

/-- The packet that the call accepts has the number of its place, and is at most 32767 ahead of the newest
one or at most 32767 behind it. -/
def Near (lang : Lang) (c : Counted) (a : Label) : Prop :=
  ∀ pkt, accepts lang c.handler a.call = some pkt →
    pkt.seqnum = BitVec.ofInt 16 a.place ∧ a.place - c.newest ≤ 32767 ∧ c.newest - a.place ≤ 32767

instance (lang : Lang) (c : Counted) (a : Label) : Decidable (Near lang c a) := by
  unfold Near; infer_instance

/-- **`remoteseqnum` is the number of the newest packet accepted**, or still 0 if none is newer than
place 0. -/
def IsNewest (c : Counted) : Prop :=
  (c.handler.remoteseqnum = 0 ∧ ∀ a ∈ c.accepted, a.1 ≤ 0) ∨
    ∃ a ∈ c.accepted, c.handler.remoteseqnum = a.2.seqnum ∧ 0 ≤ a.1 ∧ ∀ b ∈ c.accepted, b.1 ≤ a.1

/-! ### Its number -/

/-- The numbers are those of the places. -/
structure Inv (c : Counted) : Prop where
  remote : c.handler.remoteseqnum = BitVec.ofInt 16 c.newest
  seqnum : ∀ a ∈ c.accepted, a.2.seqnum = BitVec.ofInt 16 a.1

theorem inv_start : Inv start := ⟨rfl, by simp [start]⟩

/-- A packet that is accepted moves the number as a counter moves. -/
theorem inv_step {lang : Lang} {c c' : Counted} {a : Label} (hc : Inv c) (hnear : Near lang c a)
    (hstep : step lang c a = some c') : Inv c' := by
  obtain ⟨h, hh, rfl⟩ := Option.map_eq_some_iff.mp hstep
  have hremote : h.remoteseqnum =
      ((accepts lang c.handler a.call).elim c.handler (accept lang c.handler)).remoteseqnum :=
    congrArg Prod.fst (noted_step hh)
  cases hacc : accepts lang c.handler a.call with
  | none =>
    simp only [hacc, Option.elim_none] at hremote
    simp only [Option.map_none, Option.toList_none, List.append_nil]
    exact ⟨hremote.trans hc.remote, hc.seqnum⟩
  | some pkt =>
    obtain ⟨hseqnum, hahead, hbehind⟩ := hnear pkt hacc
    have hlatest : h.remoteseqnum = latest lang.sequenceGreaterThan c.handler.remoteseqnum pkt.seqnum := by
      rw [hremote, hacc]
      rfl
    simp only [Option.map_some, Option.toList_some]
    refine ⟨?_, fun b hb => ?_⟩
    · rw [hlatest, hc.remote, hseqnum, (rightWithin lang).latest_ofInt hahead hbehind]
      simp only [Counted.newest, List.map_append, List.map_cons, List.map_nil, highest_concat]
    · rcases List.mem_append.mp hb with hb | hb
      · exact hc.seqnum b hb
      · exact List.mem_singleton.mp hb ▸ hseqnum

theorem Inv.isNewest {c : Counted} (hc : Inv c) : IsNewest c := by
  obtain ⟨hmem, hstart, hle⟩ := highest_spec (c.accepted.map Prod.fst)
  have hall : ∀ a ∈ c.accepted, a.1 ≤ c.newest := fun a ha => hle a.1 (List.mem_map_of_mem ha)
  rcases hmem with hzero | hmem
  · have hnewest : c.newest = 0 := hzero
    rw [hnewest] at hall
    exact Or.inl ⟨by rw [hc.remote, hnewest]; rfl, hall⟩
  · obtain ⟨a, ha, hplace⟩ := List.mem_map.mp hmem
    have hnewest : c.newest = a.1 := hplace.symm
    rw [hnewest] at hall
    exact Or.inr ⟨a, ha, by rw [hc.remote, hnewest, hc.seqnum a ha], hplace ▸ hstart, hall⟩

/-- **Over a run**: as long as the accepted packets come near the newest one. -/
theorem always_isNewest (lang : Lang) {l : List Label} (h : Along (step lang) (Near lang) start l) :
    Always (step lang) IsNewest start l :=
  always_of_along (J := Inv) (fun _ _ _ hc hnear hstep => inv_step hc hnear hstep)
    (fun _ _ _ hc _ hnear hstep => (inv_step hc hnear hstep).isNewest) inv_start inv_start.isNewest h

/-- **Sequence arithmetic is serial-number arithmetic**: however far the sender has counted, and in all
runs in which the packets come near the newest one. -/
theorem serial_arithmetic :
    (∀ (seq : ℤ) (k : ℕ), 1 ≤ k → k ≤ 32767 →
      Ahead .java (javaAdvance seq k) (BitVec.ofInt 16 seq) k) ∧
    (∀ (host : Host) (s : BitVec 16) (k : ℕ), 1 ≤ k → k ≤ 32767 → Ahead (.cpp host) (cppAdvance s k) s k) ∧
    ∀ (lang : Lang) (l : List Label), Along (step lang) (Near lang) start l →
      Always (step lang) IsNewest start l :=
  ⟨fun seq _ h1 hk => ahead_javaAdvance seq h1 hk, fun host s _ h1 hk => ahead_cppAdvance host s h1 hk,
    fun lang _ h => always_isNewest lang h⟩

/-- A reliable packet of this place comes in. -/
def arrive (place : ℤ) : Label :=
  ⟨.read ⟨0, 0, true⟩ .netlib 0 1 (netlibBytes packetVersion 5 0 (BitVec.ofInt 16 place) 0 0 0 0 [])
    fun _ => 0, place⟩

/-- The packets wrap twice, and the last one is late. -/
def acrossWraps : List Label := [32767, 65534, 65537, 65530].map arrive

theorem serial_arithmetic_acrossWraps :
    Ahead .java (javaAdvance 32760 10) (BitVec.ofInt 16 32760) 10 ∧
      Ahead (.cpp .x86) (cppAdvance 65530 10) 65530 10 ∧
      Always (step .java) IsNewest start acrossWraps ∧
      Always (step (.cpp .x86)) IsNewest start acrossWraps :=
  ⟨serial_arithmetic.1 32760 10 (by decide) (by decide),
    serial_arithmetic.2.1 .x86 65530 10 (by decide) (by decide),
    serial_arithmetic.2.2 .java acrossWraps (by decide +kernel),
    serial_arithmetic.2.2 (.cpp .x86) acrossWraps (by decide +kernel)⟩

end N64NetLib.Udp.Newest
