import Mathlib.Data.List.Basic
import Mathlib.Tactic

/-! # Absorbing a stream in blocks

A function `f` that takes a state and a block of `n` elements to the next state is run over a stream
that comes element by element: the elements are kept in a buffer, and when it is full the block is
absorbed and the buffer emptied (`absorb`). However the stream was cut, the state is that of the full
blocks of everything that came, and the buffer holds what is behind them (`absorb_eq`). -/

namespace N64NetLib.Lib.Blocks

variable {σ β : Type*} (n : ℕ) (f : σ → List β → σ)

/-- The state after `k` blocks of the list. -/
def foldBlocks : ℕ → σ → List β → σ
  | 0, s, _ => s
  | k + 1, s, l => foldBlocks k (f s (l.take n)) (l.drop n)

/-- The state after all full blocks of the list. -/
def full (s : σ) (l : List β) : σ := foldBlocks n f (l.length / n) s l

/-- What is behind the full blocks. -/
def rest (l : List β) : List β := l.drop (n * (l.length / n))

/-- One element more, in a state with a buffer. -/
def absorb (p : σ × List β) (b : β) : σ × List β :=
  if p.2.length + 1 = n then (f p.1 (p.2 ++ [b]), []) else (p.1, p.2 ++ [b])

variable {n f} {s : σ} {l l' : List β} {k : ℕ}

theorem foldBlocks_append_right (h : n * k ≤ l.length) :
    foldBlocks n f k s (l ++ l') = foldBlocks n f k s l := by
  induction k generalizing s l with
  | zero => rfl
  | succ k ih =>
    rw [Nat.mul_succ] at h
    rw [foldBlocks, foldBlocks, List.take_append_of_le_length (by omega),
      List.drop_append_of_le_length (by omega), ih]
    rw [List.length_drop]
    omega

/-- Some blocks and then the others. -/
theorem foldBlocks_add {j : ℕ} (h : l.length = n * j) :
    foldBlocks n f (j + k) s (l ++ l') = foldBlocks n f k (foldBlocks n f j s l) l' := by
  induction j generalizing s l with
  | zero =>
    rw [Nat.mul_zero, List.length_eq_zero_iff] at h
    rw [h, Nat.zero_add, List.nil_append, foldBlocks]
  | succ j ih =>
    rw [Nat.mul_succ] at h
    rw [Nat.add_right_comm, foldBlocks, foldBlocks,
      List.take_append_of_le_length (by omega), List.drop_append_of_le_length (by omega), ih]
    rw [List.length_drop]
    omega

theorem length_rest : (rest n l).length = l.length % n := by
  rw [rest, List.length_drop, Nat.mod_eq_sub_mul_div]

theorem rest_of_lt (h : l.length < n) : rest n l = l := by
  rw [rest, Nat.div_eq_of_lt h, Nat.mul_zero, List.drop_zero]

theorem full_of_lt (h : l.length < n) : full n f s l = s := by
  rw [full, Nat.div_eq_of_lt h, foldBlocks]

/-- The full blocks and what is behind them. -/
theorem take_append_rest : l.take (n * (l.length / n)) ++ rest n l = l := List.take_append_drop _ l

/-- **The full blocks of a list, and then those of what is behind them with more behind it.** -/
theorem full_append (hn : 0 < n) : full n f s (l ++ l') = full n f (full n f s l) (rest n l ++ l') := by
  have hle : n * (l.length / n) ≤ l.length := Nat.mul_div_le _ _
  have hlen : (l ++ l').length = (rest n l ++ l').length + n * (l.length / n) := by
    rw [List.length_append, List.length_append, length_rest, Nat.mod_eq_sub_mul_div]
    omega
  have hdiv : (l ++ l').length / n = l.length / n + (rest n l ++ l').length / n := by
    rw [hlen, Nat.add_mul_div_left _ _ hn, Nat.add_comm]
  have htake : (l.take (n * (l.length / n))).length = n * (l.length / n) := by
    rw [List.length_take]
    omega
  have hfirst : full n f s l = foldBlocks n f (l.length / n) s (l.take (n * (l.length / n))) := by
    have hright := @foldBlocks_append_right _ _ _ f s _ (rest n l) _ htake.ge
    rwa [take_append_rest] at hright
  rw [hfirst, full, hdiv, full, ← foldBlocks_add htake, ← List.append_assoc, take_append_rest]

/-- What is behind the full blocks, with more behind it. -/
theorem rest_append (hn : 0 < n) : rest n (l ++ l') = rest n (rest n l ++ l') := by
  have hle : n * (l.length / n) ≤ l.length := Nat.mul_div_le _ _
  have hlen : (l ++ l').length = (rest n l ++ l').length + n * (l.length / n) := by
    rw [List.length_append, List.length_append, length_rest, Nat.mod_eq_sub_mul_div]
    omega
  have hl : (l.drop (n * (l.length / n))) ++ l' = (l ++ l').drop (n * (l.length / n)) :=
    (List.drop_append_of_le_length hle).symm
  rw [rest, rest, hlen, Nat.add_mul_div_left _ _ hn, Nat.mul_add, rest, hl, List.drop_drop, Nat.add_comm]

/-- One block exactly. -/
theorem full_of_length (hn : 0 < n) (h : l.length = n) : full n f s l = f s l := by
  rw [full, h, Nat.div_self hn, foldBlocks, foldBlocks, List.take_of_length_le h.le]

theorem rest_of_length (hn : 0 < n) (h : l.length = n) : rest n l = [] := by
  rw [rest, h, Nat.div_self hn, Nat.mul_one, List.drop_of_length_le h.le]

/-- A block in front. -/
theorem full_block_append (hn : 0 < n) (h : l.length = n) :
    full n f s (l ++ l') = full n f (f s l) l' := by
  rw [full_append hn, full_of_length hn h, rest_of_length hn h, List.nil_append]

/-- **One element more**: the state and the buffer stay those of everything that came. -/
theorem absorb_eq (hn : 0 < n) (b : β) :
    absorb n f (full n f s l, rest n l) b = (full n f s (l ++ [b]), rest n (l ++ [b])) := by
  have hlt : (rest n l).length < n := length_rest.trans_lt (Nat.mod_lt _ hn)
  have hlen : (rest n l ++ [b]).length = (rest n l).length + 1 := by simp
  rw [full_append hn, rest_append hn]
  by_cases hfull : (rest n l).length + 1 = n
  · rw [full_of_length hn (hlen.trans hfull), rest_of_length hn (hlen.trans hfull), absorb, if_pos hfull]
  · have hshort : (rest n l ++ [b]).length < n := by omega
    rw [full_of_lt hshort, rest_of_lt hshort, absorb, if_neg hfull]

end N64NetLib.Lib.Blocks
