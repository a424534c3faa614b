import Mathlib.Data.List.Basic
import Mathlib.Tactic

/-! # Programs that load from memory

A computation that loads cells of a memory it does not write, may branch on what it finds there, and
ends with a value or an exception. It is kept as the tree of its loads, so that from one definition
there are both the result in a memory (`run`) and the addresses it looked at on the way (`loads`).

What was not loaded does not matter (`run_congr`). Composition runs one program after the other
(`run_bind`, `loads_bind`), and `loadMany` loads a block of cells. `Reads` says that all loads are of
certain addresses and the result is as it should be; its rules go through a program from its end.
`store` changes a block of a memory and nothing around it. -/

namespace N64NetLib.Lib.Memory

/-- A program that loads cells of type `β` from addresses in `ι`. -/
inductive Load (ι β ε α : Type)
  | done (a : α)
  | raise (e : ε)
  | load (i : ι) (k : β → Load ι β ε α)

namespace Load

variable {ι β ε α γ : Type}

/-- One program after the other. -/
def andThen (f : α → Load ι β ε γ) : Load ι β ε α → Load ι β ε γ
  | done a => f a
  | raise e => raise e
  | load i k => load i fun b => andThen f (k b)

instance : Monad (Load ι β ε) where
  pure := done
  bind p f := andThen f p

/-- One cell. -/
def cell (i : ι) : Load ι β ε β := load i done

/-- `n` cells from address `i` on. -/
def loadMany : ℕ → ℕ → Load ℕ β ε (List β)
  | _, 0 => pure []
  | i, n + 1 => do
    let b ← cell i
    let l ← loadMany (i + 1) n
    pure (b :: l)

/-- The result in the memory `m`. -/
def run (m : ι → β) : Load ι β ε α → Except ε α
  | done a => .ok a
  | raise e => .error e
  | load i k => run m (k (m i))

/-- The addresses loaded in the memory `m`, in order. -/
def loads (m : ι → β) : Load ι β ε α → List ι
  | done _ => []
  | raise _ => []
  | load i k => i :: loads m (k (m i))

@[simp] theorem run_pure (m : ι → β) (a : α) : run m (pure a : Load ι β ε α) = .ok a := rfl
@[simp] theorem loads_pure (m : ι → β) (a : α) : loads m (pure a : Load ι β ε α) = [] := rfl
@[simp] theorem run_raise (m : ι → β) (e : ε) : run m (raise e : Load ι β ε α) = .error e := rfl
@[simp] theorem loads_raise (m : ι → β) (e : ε) : loads m (raise e : Load ι β ε α) = [] := rfl
@[simp] theorem run_cell (m : ι → β) (i : ι) : run m (cell i : Load ι β ε β) = .ok (m i) := rfl
@[simp] theorem loads_cell (m : ι → β) (i : ι) : loads m (cell i : Load ι β ε β) = [i] := rfl

theorem run_bind (m : ι → β) (p : Load ι β ε α) (f : α → Load ι β ε γ) :
    run m (p >>= f) =
      match run m p with
        | .ok a => run m (f a)
        | .error e => .error e := by
  induction p with
  | done a => rfl
  | raise e => rfl
  | load i k ih => exact ih (m i)

theorem loads_bind (m : ι → β) (p : Load ι β ε α) (f : α → Load ι β ε γ) :
    loads m (p >>= f) =
      loads m p ++ match run m p with
        | .ok a => loads m (f a)
        | .error _ => [] := by
  induction p with
  | done a => rfl
  | raise e => rfl
  | load i k ih => exact congrArg (i :: ·) (ih (m i))

/-- **The result depends on the loaded cells only.** -/
theorem run_congr {m m' : ι → β} : ∀ {p : Load ι β ε α}, (∀ i ∈ loads m p, m i = m' i) →
    run m p = run m' p
  | done _, _ => rfl
  | raise _, _ => rfl
  | load i k, h => by
    simp only [loads, List.mem_cons, forall_eq_or_imp] at h
    simp only [run, ← h.1]
    exact run_congr h.2

@[simp] theorem run_loadMany (m : ℕ → β) : ∀ (n i : ℕ),
    run m (loadMany i n : Load ℕ β ε (List β)) = .ok ((List.range' i n).map m)
  | 0, i => rfl
  | n + 1, i => by
    simp [loadMany, run_bind, run_loadMany m n (i + 1), List.range'_succ]

@[simp] theorem loads_loadMany (m : ℕ → β) : ∀ (n i : ℕ),
    loads m (loadMany i n : Load ℕ β ε (List β)) = List.range' i n
  | 0, i => rfl
  | n + 1, i => by
    simp [loadMany, loads_bind, loads_loadMany m n (i + 1), List.range'_succ]

end Load

/-! ### What a program reads, and what it ends with -/

section Reads

variable {ι β ε α γ : Type}

/-- In the memory `m` the program loads only addresses in `A`, and what it ends with satisfies `Q`. -/
def Reads (m : ι → β) (A : ι → Prop) (Q : α → Prop) (p : Load ι β ε α) : Prop :=
  (∀ i ∈ p.loads m, A i) ∧ ∀ a, p.run m = .ok a → Q a

variable {m m' : ι → β} {A : ι → Prop} {Q : α → Prop}

@[simp] theorem reads_pure {a : α} : Reads m A Q (pure a : Load ι β ε α) ↔ Q a := by
  simp [Reads]

/-- **The rule for one program after the other.** -/
theorem reads_bind {p : Load ι β ε α} {f : α → Load ι β ε γ} {Q : γ → Prop} :
    Reads m A Q (p >>= f) ↔ Reads m A (fun a => Reads m A Q (f a)) p := by
  simp only [Reads, Load.loads_bind, Load.run_bind]
  cases p.run m with
  | error e => simp
  | ok a =>
    simp only [List.forall_mem_append, Except.ok.injEq, forall_eq']
    exact and_assoc

@[simp] theorem reads_cell {i : ι} {Q : β → Prop} :
    Reads m A Q (Load.cell i : Load ι β ε β) ↔ A i ∧ Q (m i) := by
  simp [Reads]

theorem reads_loadMany {m : ℕ → β} {A : ℕ → Prop} {i n : ℕ} {Q : List β → Prop} :
    Reads m A Q (Load.loadMany i n : Load ℕ β ε (List β)) ↔
      (∀ j ∈ List.range' i n, A j) ∧ Q ((List.range' i n).map m) := by
  simp [Reads]

end Reads

/-! ### Blocks of cells -/

section Blocks

variable {β : Type} {m m' : ℕ → β} {i j n k : ℕ} {l : List β}

/-- The `n` cells from address `i` on. -/
def block (m : ℕ → β) (i n : ℕ) : List β := (List.range' i n).map m

/-- The memory with the cells of `l` from address `i` on. -/
def store (m : ℕ → β) (i : ℕ) (l : List β) : ℕ → β :=
  fun j => if j < i then m j else l[j - i]?.getD (m j)

@[simp] theorem length_block : (block m i n).length = n := by simp [block]

theorem block_congr_iff : block m i n = block m' i n ↔ ∀ j, i ≤ j → j < i + n → m j = m' j := by
  simp only [block, List.map_inj_left, List.mem_range'_1, and_imp]

theorem block_add : block m i (n + k) = block m i n ++ block m (i + n) k := by
  rw [block, block, block, ← List.map_append, List.range'_append_1]

theorem store_of_lt (h : j < i) : store m i l j = m j := if_pos h

theorem store_of_ge (h : i + l.length ≤ j) : store m i l j = m j := by
  have hlt : ¬ j < i := by omega
  rw [store, if_neg hlt, List.getElem?_eq_none (by omega), Option.getD_none]

theorem store_of_mem (h : j < l.length) : store m i l (i + j) = l[j] := by
  have hlt : ¬ i + j < i := by omega
  simp [store, hlt, h]

@[simp] theorem store_nil : store m i [] = m := by
  funext j
  simp [store]

/-- What was stored is there. -/
theorem block_store : block (store m i l) i l.length = l := by
  refine List.ext_getElem (by simp) fun j h1 h2 => ?_
  simp only [block, List.getElem_map, List.getElem_range', Nat.one_mul]
  exact store_of_mem h2

/-- The cells in front of what was stored are as before. -/
theorem block_store_of_le (h : i + n ≤ j) : block (store m j l) i n = block m i n :=
  block_congr_iff.mpr fun _ _ hk => store_of_lt (by omega)

/-- The cells behind what was stored are as before. -/
theorem block_store_of_ge (h : j + l.length ≤ i) : block (store m j l) i n = block m i n :=
  block_congr_iff.mpr fun _ hk _ => store_of_ge (by omega)

end Blocks

end N64NetLib.Lib.Memory
