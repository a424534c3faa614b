import Mathlib.Data.BitVec
import Mathlib.Tactic

/-! # Serial numbers

The numbers of `w` bits count the places of an endless row: place `p` has the number `BitVec.ofInt w p`,
and places `2 ^ w` apart have the same one. A comparison of numbers knows nothing of the places. It is
`RightWithin` a distance if it orders the numbers as the places are ordered, for places that are no
further apart (`RightWithin.ofInt_iff`). A counter that goes to every number it finds greater than its own
(`latest`) is then at the highest place that it was shown, if each is no further than that from the
highest before it (`RightWithin.latest_ofInt`). -/

namespace N64NetLib.Lib.Serial

variable {w d : ℕ} {gt : BitVec w → BitVec w → Bool}

/-- The comparison is right up to the distance `d`. -/
structure RightWithin (gt : BitVec w → BitVec w → Bool) (d : ℕ) : Prop where
  ahead : ∀ s k, 1 ≤ k → k ≤ d → gt (s + BitVec.ofNat w k) s = true
  behind : ∀ s k, k ≤ d → gt s (s + BitVec.ofNat w k) = false

/-- The number `k` places further on. -/
theorem ofInt_add_natCast (p : ℤ) (k : ℕ) :
    BitVec.ofInt w (p + k) = BitVec.ofInt w p + BitVec.ofNat w k := by
  rw [BitVec.ofInt_add, BitVec.ofInt_natCast]

/-- **Near places** are ordered as their numbers are. -/
theorem RightWithin.ofInt_iff (h : RightWithin gt d) {p q : ℤ} (hpq : p - q ≤ d) (hqp : q - p ≤ d) :
    gt (BitVec.ofInt w p) (BitVec.ofInt w q) = true ↔ q < p := by
  rcases lt_or_ge q p with hlt | hle
  · have hp : p = q + ((p - q).toNat : ℕ) := by omega
    have hgt := h.ahead (BitVec.ofInt w q) (p - q).toNat (by omega) (by omega)
    rw [← ofInt_add_natCast, ← hp] at hgt
    simp only [hgt, hlt]
  · have hq : q = p + ((q - p).toNat : ℕ) := by omega
    have hgt := h.behind (BitVec.ofInt w p) (q - p).toNat (by omega)
    rw [← ofInt_add_natCast, ← hq] at hgt
    simp only [hgt, Bool.false_eq_true, false_iff, not_lt]
    exact hle

/-- The counter goes to a number that it finds greater. -/
def latest (gt : BitVec w → BitVec w → Bool) (r n : BitVec w) : BitVec w := if gt n r then n else r

/-- **The counter stays at the highest place.** -/
theorem RightWithin.latest_ofInt (h : RightWithin gt d) {p q : ℤ} (hpq : p - q ≤ d) (hqp : q - p ≤ d) :
    latest gt (BitVec.ofInt w q) (BitVec.ofInt w p) = BitVec.ofInt w (max q p) := by
  unfold latest
  simp only [h.ofInt_iff hpq hqp]
  split_ifs with hlt
  · rw [max_eq_right hlt.le]
  · rw [max_eq_left (not_lt.mp hlt)]

/-- The highest of the places, from place 0 on. -/
def highest (places : List ℤ) : ℤ := places.foldl max 0

theorem highest_concat (places : List ℤ) (p : ℤ) : highest (places ++ [p]) = max (highest places) p := by
  rw [highest, List.foldl_append]
  rfl

/-- It is one of them, or place 0, and none is higher. -/
theorem highest_spec (places : List ℤ) :
    (highest places = 0 ∨ highest places ∈ places) ∧ 0 ≤ highest places ∧ ∀ p ∈ places, p ≤ highest places := by
  induction places using List.reverseRecOn with
  | nil => simp [highest]
  | append_singleton places p ih =>
    obtain ⟨hmem, hstart, hle⟩ := ih
    rw [highest_concat]
    refine ⟨?_, le_max_of_le_left hstart, fun q hq => ?_⟩
    · rcases max_choice (highest places) p with hmax | hmax
      · rw [hmax]
        exact hmem.imp_right (List.mem_append_left _)
      · rw [hmax]
        exact Or.inr (by simp)
    · rcases List.mem_append.mp hq with hq | hq
      · exact le_max_of_le_left (hle q hq)
      · exact le_max_of_le_right (List.mem_singleton.mp hq).le

end N64NetLib.Lib.Serial
