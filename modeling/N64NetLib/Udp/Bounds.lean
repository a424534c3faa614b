import N64NetLib.Udp.Handler

/-! # Do the C++ decoders stay inside the datagram?

`FromBytes` gets a pointer to the receive buffer and no length, although the socket knows how many
bytes it received. So it loads what the lengths in the packet say. `InBounds` is what the datagram has
to look like for the loads to end before the bytes do: it differs from the header somewhere, or it has
a version byte that is refused, or the lengths in it add up to no more than it has. -/

namespace N64NetLib.Udp.Bounds

open N64NetLib.Lib.BigEndian N64NetLib.Lib.Memory N64NetLib.Packet N64NetLib.Packet.Basic
open N64NetLib.Packet.Sequence N64NetLib.Packet.Cpp N64NetLib.Udp.Handler Load

/-- **The decoder stays inside the datagram**: it loads nothing behind it, and what
`ReadNetLibPacket` and `ReadS64Packet` do does not depend on what stands there. -/
def StaysInside (host : Host) (k : Kind) (d : List UInt8) : Prop :=
  (∀ junk, ∀ i ∈ loads (inBuffer d junk) (decode host k), i < d.length) ∧
    ∀ call h ref ackref junk junk', readPacket (.cpp host) k call h ref ackref d junk =
      readPacket (.cpp host) k call h ref ackref d junk'

/-- The lengths in the packet fit the datagram. -/
def Fits : Kind → List UInt8 → Prop
  | .netlib, d => 18 + (ofBe16 (d.getD 16 0) (d.getD 17 0)).toNat ≤ d.length
  | .s64, d => 14 + (d.getD 11 0).toNat + (ofBe16 (d.getD (12 + (d.getD 11 0).toNat) 0)
      (d.getD (13 + (d.getD 11 0).toNat) 0)).toNat ≤ d.length

/-- Nothing behind the datagram is looked at. -/
def InBounds (k : Kind) (d : List UInt8) : Prop :=
  ¬ d.take 3 <+: packetHeader k ∨ (3 < d.length ∧ packetVersion < d.getD 3 0) ∨ Fits k d

instance (k : Kind) (d : List UInt8) : Decidable (Fits k d) := by
  cases k <;> unfold Fits <;> infer_instance

instance (k : Kind) (d : List UInt8) : Decidable (InBounds k d) := by
  unfold InBounds; infer_instance

/-! ### What is loaded -/

theorem mem_loads_strncmp (m : ℕ → UInt8) {a : ℕ} : ∀ (str : List UInt8) (i : ℕ),
    a ∈ loads m (strncmp i str) ↔
      ∃ j, ∃ h : j < str.length, a = i + j ∧ ∀ j', (h' : j' < j) → m (i + j') = str[j']
  | [], i => by simp [strncmp]
  | c :: str, i => by
    have hs : ∀ j, i + 1 + j = i + (j + 1) := fun j => by omega
    have ih := mem_loads_strncmp m (a := a) str (i + 1)
    simp only [strncmp, loads_bind, run_cell, loads_cell, List.singleton_append, List.mem_cons]
    constructor
    · rintro (rfl | h)
      · exact ⟨0, by simp, rfl, by simp⟩
      · split_ifs at h with hc
        · obtain ⟨j, hj, rfl, hm⟩ := ih.mp h
          refine ⟨j + 1, by simpa using hj, hs j, fun j' h' => ?_⟩
          cases j' with
          | zero => exact hc
          | succ j' => exact hs j' ▸ hm j' (by omega)
        · simp at h
    · rintro ⟨j, hj, rfl, hm⟩
      cases j with
      | zero => exact Or.inl rfl
      | succ j =>
        rw [if_pos (show m i = c from hm 0 (by omega))]
        exact Or.inr (ih.mpr ⟨j, by simpa using hj, (hs j).symm,
          fun j' h' => (hs j').symm ▸ hm (j' + 1) (by omega)⟩)

/-- The cells of a packet with a header and a version that are accepted. -/
def bodyLoads : Kind → (ℕ → UInt8) → List ℕ
  | .netlib, m => List.range' 4 14 ++ List.range' 18 (ofBe16 (m 16) (m 17)).toNat
  | .s64, m => List.range' 4 8 ++ List.range' 12 (m 11).toNat ++
      [12 + (m 11).toNat, 13 + (m 11).toNat] ++ List.range' (14 + (m 11).toNat)
        (ofBe16 (m (12 + (m 11).toNat)) (m (13 + (m 11).toNat))).toNat

theorem loads_fromBytes (host : Host) (k : Kind) (m : ℕ → UInt8) :
    loads m (fromBytes host k) = loads m (isPacket k) ++
      if HasMagic k m then 3 :: if packetVersion < m 3 then [] else bodyLoads k m else [] := by
  cases k with
  | netlib =>
    simp only [fromBytes, netLibFromBytes, loads_bind, run_isPacket]
    by_cases hm : HasMagic .netlib m
    · by_cases hv : packetVersion < m 3
      · simp [hm, hv, loads_bind]
      · simp [hm, hv, loads_bind, bodyLoads, List.range'_succ]
    · simp [hm]
  | s64 =>
    have h13 : 12 + (m 11).toNat + 1 = 13 + (m 11).toNat := by omega
    simp only [fromBytes, s64FromBytes, loads_bind, run_isPacket]
    by_cases hm : HasMagic .s64 m
    · by_cases hv : packetVersion < m 3
      · simp [hm, hv, loads_bind]
      · simp [hm, hv, loads_bind, bodyLoads, List.range'_succ, h13]
    · simp [hm]

/-- Where the packet in memory ends. -/
def sizeAt : Kind → (ℕ → UInt8) → ℕ
  | .netlib, m => 18 + (ofBe16 (m 16) (m 17)).toNat
  | .s64, m => 14 + (m 11).toNat +
      (ofBe16 (m (12 + (m 11).toNat)) (m (13 + (m 11).toNat))).toNat

theorem bodyLoads_lt {k : Kind} {m : ℕ → UInt8} {n : ℕ} :
    (∀ i ∈ bodyLoads k m, i < n) ↔ sizeAt k m ≤ n := by
  cases k with
  | netlib =>
    simp only [bodyLoads, sizeAt, List.mem_append, List.mem_range'_1]
    constructor
    · intro h
      have h17 := h 17 (by omega)
      by_cases hlen : (ofBe16 (m 16) (m 17)).toNat = 0
      · omega
      · have := h (17 + (ofBe16 (m 16) (m 17)).toNat) (by omega)
        omega
    · intro h i hi
      omega
  | s64 =>
    simp only [bodyLoads, sizeAt, List.mem_append, List.mem_range'_1, List.mem_cons,
      List.not_mem_nil, or_false]
    generalize (m 11).toNat = t
    generalize (ofBe16 (m (12 + t)) (m (13 + t))).toNat = len
    constructor
    · intro h
      have h13 := h (13 + t) (by omega)
      by_cases hlen : len = 0
      · omega
      · have := h (13 + t + len) (by omega)
        omega
    · intro h i hi
      omega

theorem loads_decode_lt {host : Host} {k : Kind} {m : ℕ → UInt8} {n : ℕ} :
    (∀ i ∈ loads m (decode host k), i < n) ↔ (∀ i ∈ loads m (isPacket k), i < n) ∧
      (HasMagic k m → 3 < n ∧ (¬ packetVersion < m 3 → sizeAt k m ≤ n)) := by
  have hload : loads m (decode host k) = loads m (isPacket k) ++
      if HasMagic k m then loads m (fromBytes host k) else [] := by
    simp only [decode, loads_bind, run_isPacket]
    by_cases hm : HasMagic k m <;> simp [hm]
  rw [hload, loads_fromBytes]
  by_cases hm : HasMagic k m
  · by_cases hv : packetVersion < m 3
    · simp only [hm, hv, if_true, List.forall_mem_append, List.forall_mem_singleton]
      tauto
    · simp only [hm, hv, if_true, if_false, List.forall_mem_append, List.forall_mem_cons,
        ← bodyLoads_lt]
      tauto
  · simp [hm]

/-! ### The datagram in the buffer -/

section Datagram

variable {k : Kind} {d : List UInt8}

theorem getD_eq_inBuffer {i : ℕ} (h : i < d.length) (junk : ℕ → UInt8) :
    inBuffer d junk i = d.getD i 0 := by
  simp [inBuffer, h]

theorem length_packetHeader (k : Kind) : (packetHeader k).length = 3 := by cases k <;> rfl

theorem prefix_of_hasMagic {junk : ℕ → UInt8} (h : HasMagic k (inBuffer d junk)) :
    d.take 3 <+: packetHeader k := by
  have h3 := length_packetHeader k
  refine List.prefix_iff_getElem.mpr ⟨by simp; omega, fun j hj => ?_⟩
  rw [List.getElem_take, ← h j (by simp at hj; omega), inBuffer_of_lt]

/-- The header in the datagram is the one in the buffer. -/
theorem take_prefix_iff (h3 : 3 ≤ d.length) (junk : ℕ → UInt8) :
    d.take 3 <+: packetHeader k ↔ HasMagic k (inBuffer d junk) := by
  refine ⟨fun h j hj => ?_, prefix_of_hasMagic⟩
  have he : d.take 3 = packetHeader k := by
    refine h.eq_of_length ?_
    rw [length_packetHeader]; simp; omega
  have hj3 : j < 3 := by rw [← length_packetHeader k]; exact hj
  rw [inBuffer_of_lt (by omega)]
  simp [← he]

/-- The comparison with the header ends inside the datagram unless the datagram is the beginning of
the header and nothing more. -/
theorem isPacket_lt_iff (junk : ℕ → UInt8) :
    (∀ i ∈ loads (inBuffer d junk) (isPacket k), i < d.length) ↔
      3 ≤ d.length ∨ ¬ d.take 3 <+: packetHeader k := by
  have hlen := length_packetHeader k
  constructor
  · intro h
    by_contra hn
    obtain ⟨hlt, hpre⟩ : d.length < 3 ∧ d.take 3 <+: packetHeader k := by push Not at hn; exact hn
    rw [List.take_of_length_le (by omega)] at hpre
    refine absurd (h d.length ?_) (lt_irrefl _)
    refine (mem_loads_strncmp _ _ 0).mpr ⟨d.length, by omega, by omega, fun j hj => ?_⟩
    rw [Nat.zero_add, inBuffer_of_lt hj]
    exact hpre.getElem hj
  · rintro h i hi
    obtain ⟨j, hj, rfl, hm⟩ := (mem_loads_strncmp _ _ 0).mp hi
    rcases h with h | h
    · omega
    · by_contra hn
      refine h ?_
      have hd : d.length ≤ j := by omega
      rw [List.take_of_length_le (by omega)]
      refine List.prefix_iff_getElem.mpr ⟨by omega, fun j' hj' => ?_⟩
      rw [← hm j' (by omega), Nat.zero_add, inBuffer_of_lt hj']

/-- The packet in the buffer ends in the datagram if the lengths in it fit. -/
theorem sizeAt_le_iff (junk : ℕ → UInt8) :
    sizeAt k (inBuffer d junk) ≤ d.length ↔ Fits k d := by
  cases k with
  | netlib =>
    simp only [sizeAt, Fits]
    by_cases h : 18 ≤ d.length
    · rw [getD_eq_inBuffer (by omega), getD_eq_inBuffer (by omega)]
    · omega
  | s64 =>
    simp only [sizeAt, Fits]
    by_cases h : 14 ≤ d.length
    · rw [getD_eq_inBuffer (i := 11) (by omega)]
      by_cases ht : 14 + (d.getD 11 0).toNat ≤ d.length
      · rw [getD_eq_inBuffer (by omega), getD_eq_inBuffer (by omega)]
      · omega
    · omega

end Datagram

/-- **When the decoders stay inside the datagram**: exactly when nothing in it makes them look
further. -/
theorem staysInside_iff (host : Host) (k : Kind) (d : List UInt8) (hd : d.length ≤ packetMaxSize) :
    StaysInside host k d ↔ InBounds k d := by
  have hinside : StaysInside host k d ↔
      ∀ junk, ∀ i ∈ loads (inBuffer d junk) (decode host k), i < d.length := by
    refine ⟨fun h => h.1, fun h => ⟨h, fun call hdl ref ackref junk junk' => ?_⟩⟩
    have hrun : (Cpp.decode host k).run (inBuffer d junk) =
        (Cpp.decode host k).run (inBuffer d junk') := run_congr fun i hi => by
      rw [getD_eq_inBuffer (h junk i hi), getD_eq_inBuffer (h junk i hi)]
    simp only [readPacket, Lang.decode, List.take_of_length_le hd, hrun]
  have hfits : Fits k d → 3 < d.length := fun h => by cases k <;> simp only [Fits] at h <;> omega
  rw [hinside]
  simp only [loads_decode_lt, isPacket_lt_iff, sizeAt_le_iff, InBounds]
  by_cases h3 : 3 ≤ d.length
  · simp only [← take_prefix_iff h3, h3, true_or, true_and]
    by_cases h4 : 3 < d.length
    · simp only [getD_eq_inBuffer h4, h4, true_and, forall_const]
      tauto
    · simp only [h4, false_and, false_or, forall_const]
      tauto
  · constructor
    · intro h
      exact Or.inl ((h fun _ => 0).1.resolve_left h3)
    · rintro (h | h | h) junk
      · exact ⟨Or.inr h, fun hm => absurd (prefix_of_hasMagic hm) h⟩
      · omega
      · exact absurd (hfits h) (by omega)

/-- A NetLib header with a payload of 65535 bytes, in a datagram of 18. -/
def longPayload : List UInt8 := [0x4E, 0x4C, 0x50, 1, 5, 0, 0, 0, 0, 0, 0, 0, 0, 0, 0, 0, 0xFF, 0xFF]

/-- An acknowledgement: a NetLib header and no payload. -/
def ackbeat : List UInt8 := [0x4E, 0x4C, 0x50, 1, 0, 1, 0, 0, 0, 0, 0, 0, 0, 0, 0, 0, 0, 0]

theorem staysInside_ackbeat : StaysInside .x86 .netlib ackbeat :=
  (staysInside_iff .x86 .netlib ackbeat (by decide)).mpr (by decide)

/-- The payload is loaded from behind the datagram, and from behind the buffer. -/
theorem not_staysInside_longPayload :
    ¬ ∀ host k (d : List UInt8), 0 < d.length → d.length ≤ packetMaxSize → StaysInside host k d := by
  intro h
  have hin := (h .x86 .netlib longPayload (by decide) (by decide)).1 fun _ => 0
  have hsize := ((loads_decode_lt.mp hin).2 (by decide)).2 (by decide)
  exact absurd hsize (by decide)

end N64NetLib.Udp.Bounds
