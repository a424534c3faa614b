import Mathlib.Algebra.BigOperators.Group.List.Basic
import Mathlib.Tactic

/-! # Programs on a heap

A heap says for each address what is allocated there. A program loads, stores, allocates and frees; it
faults if it touches what is not allocated, and it may run out of memory or of fuel. Pointers may be null.

An assertion is about a part of the heap. `P * Q` says that the part falls into two that have no address
in common, one with `P` and one with `Q`; with the empty part as `1` this is a commutative monoid.
`Triple P c Q` says that where `P` holds of a part, whatever the rest, `c` does not fault, leaves the
rest alone and ends with `Q`, unless it runs out of memory. So there is no use after free and no double
free, and what `Q` does not mention was freed. -/

namespace N64NetLib.Lib.Separation

/-- What is allocated at each address. -/
abbrev Heap (κ : Type) := ℕ → Option κ

/-- A pointer, `none` if it is null. -/
abbrev Ptr := Option ℕ

/-- How a program may fail: it follows a null pointer, it touches an address at which nothing is allocated
(any more), or it does something else that is undefined. -/
inductive Fault
  | null
  | dangling (a : ℕ)
  | invalid
  | outOfMemory
  | outOfFuel
deriving DecidableEq

/-- A program. -/
def Prog (κ α : Type) := Heap κ → Except Fault (α × Heap κ)

/-- Where memory is taken from: an address at which nothing is allocated, if there is one. -/
structure Allocator (κ : Type) where
  fresh : Heap κ → Option ℕ
  vacant : ∀ {h a}, fresh h = some a → h a = none

section Programs

variable {κ α β : Type}

instance : Monad (Prog κ) where
  pure a := fun h => .ok (a, h)
  bind c f := fun h =>
    match c h with
    | .ok (a, h') => f a h'
    | .error e => .error e

/-- What is at a pointer. -/
def load : Ptr → Prog κ κ
  | none, _ => .error .null
  | some a, h =>
    match h a with
    | some v => .ok (v, h)
    | none => .error (.dangling a)

/-- Change what is at a pointer. -/
def store : Ptr → κ → Prog κ Unit
  | none, _, _ => .error .null
  | some a, v, h =>
    if h a = none then .error (.dangling a) else .ok ((), Function.update h a (some v))

/-- Free what is at a pointer; of a null pointer nothing. -/
def free : Ptr → Prog κ Unit
  | none, h => .ok ((), h)
  | some a, h => if h a = none then .error (.dangling a) else .ok ((), Function.update h a none)

/-- Allocate. -/
def alloc (A : Allocator κ) (v : κ) : Prog κ ℕ := fun h =>
  match A.fresh h with
  | some a => .ok (a, Function.update h a (some v))
  | none => .error .outOfMemory

/-- A program that fails. -/
def fail (e : Fault) : Prog κ α := fun _ => .error e

theorem pure_apply (a : α) (h : Heap κ) : (pure a : Prog κ α) h = .ok (a, h) := rfl

theorem bind_ok {c : Prog κ α} {f : α → Prog κ β} {h h' : Heap κ} {a : α} (hc : c h = .ok (a, h')) :
    (c >>= f) h = f a h' := by
  show (match c h with | .ok (a, h') => f a h' | .error e => .error e) = _
  rw [hc]

theorem bind_error {c : Prog κ α} {f : α → Prog κ β} {h : Heap κ} {e : Fault} (hc : c h = .error e) :
    (c >>= f) h = .error e := by
  show (match c h with | .ok (a, h') => f a h' | .error e => .error e) = _
  rw [hc]

instance : LawfulMonad (Prog κ) :=
  LawfulMonad.mk' (Prog κ)
    (fun c => by
      funext h
      show (match c h with | .ok (a, h') => .ok (id a, h') | .error e => .error e) = c h
      cases c h <;> rfl)
    (fun _ _ => rfl)
    (fun c f g => by
      funext h
      show (match (match c h with | .ok (a, h') => f a h' | .error e => .error e) with
          | .ok (a, h') => g a h'
          | .error e => .error e) =
        match c h with
        | .ok (a, h') => (match f a h' with | .ok (b, h'') => g b h'' | .error e => .error e)
        | .error e => .error e
      cases c h <;> rfl)

end Programs

/-! ### Parts of a heap -/

section Parts

variable {κ : Type} {h k m : Heap κ}

/-- No address is allocated in both. -/
def Apart (h k : Heap κ) : Prop := ∀ a, h a = none ∨ k a = none

/-- Both together. -/
def join (h k : Heap κ) : Heap κ := fun a => (h a).or (k a)

theorem Apart.symm (hk : Apart h k) : Apart k h := fun a => (hk a).symm

theorem Apart.join_comm (hk : Apart h k) : join h k = join k h := by
  funext a
  rcases hk a with ha | ha <;> simp [join, ha]

theorem join_assoc : join (join h k) m = join h (join k m) := by
  funext a
  exact Option.or_assoc

theorem join_empty : join (fun _ => none) h = h := by
  funext a
  simp [join]

theorem join_eq_none {a : ℕ} : join h k a = none ↔ h a = none ∧ k a = none := Option.or_eq_none_iff

theorem apart_join_left : Apart (join h k) m ↔ Apart h m ∧ Apart k m := by
  simp only [Apart, join_eq_none, ← forall_and]
  refine forall_congr' fun a => ?_
  tauto

theorem apart_join_right : Apart h (join k m) ↔ Apart h k ∧ Apart h m := by
  simp only [Apart, join_eq_none, ← forall_and]
  refine forall_congr' fun a => ?_
  tauto

end Parts

/-! ### Assertions -/

/-- What is said of a part of the heap. -/
def Assertion (κ : Type) := Heap κ → Prop

section Assertions

variable {κ ι : Type} {P Q R : Assertion κ} {h : Heap κ}

@[ext] theorem Assertion.ext (hPQ : ∀ h, P h ↔ Q h) : P = Q := funext fun h => propext (hPQ h)

instance : Mul (Assertion κ) where
  mul P Q := fun h => ∃ h1 h2, Apart h1 h2 ∧ h = join h1 h2 ∧ P h1 ∧ Q h2

instance : One (Assertion κ) where
  one := fun h => h = fun _ => none

theorem star_iff : (P * Q) h ↔ ∃ h1 h2, Apart h1 h2 ∧ h = join h1 h2 ∧ P h1 ∧ Q h2 := Iff.rfl

theorem empty_iff : (1 : Assertion κ) h ↔ h = fun _ => none := Iff.rfl

theorem star_comm (P Q : Assertion κ) : P * Q = Q * P := by
  have himp : ∀ (P Q : Assertion κ) h, (P * Q) h → (Q * P) h := by
    rintro P Q h ⟨h1, h2, hap, rfl, hP, hQ⟩
    exact ⟨h2, h1, hap.symm, hap.join_comm, hQ, hP⟩
  exact Assertion.ext fun h => ⟨himp P Q h, himp Q P h⟩

theorem star_assoc (P Q R : Assertion κ) : P * Q * R = P * (Q * R) := by
  refine Assertion.ext fun h => ⟨?_, ?_⟩
  · rintro ⟨_, h3, hap, rfl, ⟨h1, h2, hap12, rfl, hP, hQ⟩, hR⟩
    obtain ⟨hap13, hap23⟩ := apart_join_left.mp hap
    exact ⟨h1, join h2 h3, apart_join_right.mpr ⟨hap12, hap13⟩, join_assoc, hP, h2, h3, hap23, rfl, hQ, hR⟩
  · rintro ⟨h1, _, hap, rfl, hP, h2, h3, hap23, rfl, hQ, hR⟩
    obtain ⟨hap12, hap13⟩ := apart_join_right.mp hap
    exact ⟨join h1 h2, h3, apart_join_left.mpr ⟨hap13, hap23⟩, join_assoc.symm, ⟨h1, h2, hap12, rfl, hP, hQ⟩, hR⟩

theorem empty_star (P : Assertion κ) : 1 * P = P := by
  refine Assertion.ext fun h => ⟨?_, fun hP => ?_⟩
  · rintro ⟨h1, h2, -, rfl, h1e, hP⟩
    rwa [empty_iff.mp h1e, join_empty]
  · exact ⟨fun _ => none, h, fun _ => .inl rfl, join_empty.symm, rfl, hP⟩

instance : CommMonoid (Assertion κ) where
  mul_assoc := star_assoc
  one_mul := empty_star
  mul_one P := by rw [star_comm, empty_star]
  mul_comm := star_comm

/-- One address and what it holds. -/
def cell (a : ℕ) (v : κ) : Assertion κ := fun h => h = Function.update (fun _ => none) a (some v)

/-- The part is this one. -/
def only (h : Heap κ) : Assertion κ := fun k => k = h

/-- `P`, and a fact besides. -/
def fact (φ : Prop) (P : Assertion κ) : Assertion κ := fun h => φ ∧ P h

/-- `P i` for some `i`. -/
def exist (P : ι → Assertion κ) : Assertion κ := fun h => ∃ i, P i h

theorem fact_star (φ : Prop) : fact φ P * Q = fact φ (P * Q) := by
  refine Assertion.ext fun h => ⟨?_, ?_⟩
  · rintro ⟨h1, h2, hap, rfl, ⟨hφ, hP⟩, hQ⟩
    exact ⟨hφ, h1, h2, hap, rfl, hP, hQ⟩
  · rintro ⟨hφ, h1, h2, hap, rfl, hP, hQ⟩
    exact ⟨h1, h2, hap, rfl, ⟨hφ, hP⟩, hQ⟩

theorem exist_star (P : ι → Assertion κ) : exist P * Q = exist fun i => P i * Q := by
  refine Assertion.ext fun h => ⟨?_, ?_⟩
  · rintro ⟨h1, h2, hap, rfl, ⟨i, hP⟩, hQ⟩
    exact ⟨i, h1, h2, hap, rfl, hP, hQ⟩
  · rintro ⟨i, h1, h2, hap, rfl, hP, hQ⟩
    exact ⟨h1, h2, hap, rfl, ⟨i, hP⟩, hQ⟩

theorem star_mono {P' : Assertion κ} (hP : ∀ h, P h → P' h) (h : Heap κ) : (P * Q) h → (P' * Q) h := by
  rintro ⟨h1, h2, hap, rfl, hP1, hQ⟩
  exact ⟨h1, h2, hap, rfl, hP h1 hP1, hQ⟩

/-- What is at an address that is owned. -/
theorem cell_star_iff {a : ℕ} {v : κ} :
    (cell a v * P) h ↔ h a = some v ∧ P (Function.update h a none) := by
  constructor
  · rintro ⟨_, h2, hap, rfl, rfl, hP⟩
    have ha : h2 a = none := by simpa using hap a
    refine ⟨by simp [join], ?_⟩
    have hrest : Function.update (join (Function.update (fun _ => none) a (some v)) h2) a none = h2 := by
      funext b
      by_cases hb : b = a
      · rw [hb, Function.update_self, ha]
      · rw [Function.update_of_ne hb, join, Function.update_of_ne hb, Option.none_or]
    rwa [hrest]
  · rintro ⟨ha, hP⟩
    refine ⟨_, _, fun b => ?_, ?_, rfl, hP⟩
    · by_cases hb : b = a
      · rw [hb]
        exact .inr (Function.update_self ..)
      · exact .inl (Function.update_of_ne hb ..)
    · funext b
      by_cases hb : b = a
      · rw [hb, ha, join, Function.update_self, Option.some_or]
      · rw [join, Function.update_of_ne hb, Option.none_or, Function.update_of_ne hb]

/-- **Cells that are owned together are at different addresses.** -/
theorem cells_nodup {l : List ι} {f : ι → ℕ} {g : ι → κ} (hl : (l.map fun i => cell (f i) (g i)).prod h) :
    (l.map f).Nodup := by
  induction l generalizing h with
  | nil => exact List.nodup_nil
  | cons i l ih =>
    rw [List.map_cons, List.prod_cons, cell_star_iff] at hl
    refine List.nodup_cons.mpr ⟨fun hmem => ?_, ih hl.2⟩
    obtain ⟨j, hj, hfj⟩ := List.mem_map.mp hmem
    obtain ⟨l1, l2, rfl⟩ := List.append_of_mem hj
    have hrest := hl.2
    rw [List.map_append, List.prod_append, List.map_cons, List.prod_cons, mul_left_comm, cell_star_iff, hfj,
      Function.update_self] at hrest
    simp at hrest

end Assertions

/-! ### Triples -/

section Triples

variable {κ α β ι : Type} {P P' R F : Assertion κ} {Q Q' : α → Assertion κ} {S : β → Assertion κ}
  {c : Prog κ α} {f : α → Prog κ β}

/-- What an outcome has to be. -/
def Ends (Q : α → Assertion κ) (F : Assertion κ) : Except Fault (α × Heap κ) → Prop
  | .ok (a, h) => (Q a * F) h
  | .error e => e = .outOfMemory

/-- Where `P` holds of a part, `c` ends with `Q` of that part and leaves the rest alone. -/
def Triple (P : Assertion κ) (c : Prog κ α) (Q : α → Assertion κ) : Prop :=
  ∀ F h, (P * F) h → Ends Q F (c h)

/-- **The rest of the heap.** -/
theorem Triple.frame (hc : Triple P c Q) (R : Assertion κ) : Triple (P * R) c fun a => Q a * R := by
  intro F h hPRF
  have hend := hc (R * F) h (by rwa [← mul_assoc])
  cases hch : c h with
  | error e => rwa [hch] at hend
  | ok r =>
    rw [hch] at hend
    rwa [Ends, mul_assoc]

theorem Triple.weaken (hc : Triple P c Q) (hQ : ∀ a h, Q a h → Q' a h) : Triple P c Q' := by
  intro F h hPF
  have hend := hc F h hPF
  cases hch : c h with
  | error e => rwa [hch] at hend
  | ok r =>
    rw [hch] at hend
    exact star_mono (hQ r.1) r.2 hend

theorem Triple.strengthen (hc : Triple P' c Q) (hP : ∀ h, P h → P' h) : Triple P c Q :=
  fun F h hPF => hc F h (star_mono hP h hPF)

/-- **One program after the other.** -/
theorem Triple.bind (hc : Triple P c Q) (hf : ∀ a, Triple (Q a) (f a) S) : Triple P (c >>= f) S := by
  intro F h hPF
  have hend := hc F h hPF
  cases hch : c h with
  | error e =>
    rw [hch] at hend
    rw [bind_error hch]
    exact hend
  | ok r =>
    rw [hch] at hend
    rw [bind_ok hch]
    exact hf r.1 F r.2 hend

theorem triple_pure {a : α} (hP : ∀ h, P h → Q a h) : Triple P (pure a) Q :=
  fun _ h hPF => star_mono hP h hPF

theorem triple_exist {P : ι → Assertion κ} (hc : ∀ i, Triple (P i) c Q) : Triple (exist P) c Q := by
  intro F h hPF
  rw [exist_star] at hPF
  obtain ⟨i, hi⟩ := hPF
  exact hc i F h hi

theorem triple_fact {φ : Prop} (hc : φ → Triple P c Q) : Triple (fact φ P) c Q := by
  intro F h hPF
  rw [fact_star] at hPF
  exact hc hPF.1 F h hPF.2

/-- A fact that the part of the heap gives. -/
theorem triple_given {φ : Prop} (hφ : ∀ h, P h → φ) (hc : φ → Triple P c Q) : Triple P c Q :=
  fun F h hPF => by
    have ⟨h1, _, _, _, hP, _⟩ := hPF
    exact hc (hφ h1 hP) F h hPF

/-- Loading what is owned. -/
theorem triple_load {a : ℕ} {v : κ} {f : κ → Prog κ β} (hf : Triple (cell a v * R) (f v) S) :
    Triple (cell a v * R) (load (some a) >>= f) S := by
  intro F h hPF
  have ha : h a = some v := by
    rw [mul_assoc] at hPF
    exact (cell_star_iff.mp hPF).1
  have hload : load (some a) h = .ok (v, h) := by rw [load, ha]
  rw [bind_ok hload]
  exact hf F h hPF

/-- Storing into what is owned. -/
theorem triple_store {a : ℕ} {v v' : κ} {f : Unit → Prog κ β} (hf : Triple (cell a v' * R) (f ()) S) :
    Triple (cell a v * R) (store (some a) v' >>= f) S := by
  intro F h hPF
  rw [mul_assoc, cell_star_iff] at hPF
  have hstore : store (some a) v' h = .ok ((), Function.update h a (some v')) := by
    rw [store, if_neg (by rw [hPF.1]; exact Option.some_ne_none v)]
  rw [bind_ok hstore]
  refine hf F _ ?_
  rw [mul_assoc, cell_star_iff, Function.update_self, Function.update_idem]
  exact ⟨rfl, hPF.2⟩

/-- Freeing what is owned. -/
theorem triple_free {a : ℕ} {v : κ} {f : Unit → Prog κ β} (hf : Triple R (f ()) S) :
    Triple (cell a v * R) (free (some a) >>= f) S := by
  intro F h hPF
  rw [mul_assoc, cell_star_iff] at hPF
  have hfree : free (some a) h = .ok ((), Function.update h a none) := by
    rw [free, if_neg (by rw [hPF.1]; exact Option.some_ne_none v)]
  rw [bind_ok hfree]
  exact hf F _ hPF.2

/-- Allocating. -/
theorem triple_alloc {A : Allocator κ} {v : κ} {f : ℕ → Prog κ β}
    (hf : ∀ a, Triple (cell a v * R) (f a) S) : Triple R (alloc A v >>= f) S := by
  intro F h hRF
  cases hfresh : A.fresh h with
  | none =>
    have halloc : alloc A v h = .error .outOfMemory := by rw [alloc, hfresh]
    rw [bind_error halloc]
    rfl
  | some a =>
    have halloc : alloc A v h = .ok (a, Function.update h a (some v)) := by rw [alloc, hfresh]
    rw [bind_ok halloc]
    refine hf a F _ ?_
    rw [mul_assoc, cell_star_iff, Function.update_self, Function.update_idem,
      Function.update_eq_self_iff.mpr (A.vacant hfresh).symm]
    exact ⟨rfl, hRF⟩

/-- **What a triple says about a run** in a heap with another part, which is left alone. -/
theorem Triple.run (hc : Triple P c Q) {h rest : Heap κ} (hP : (P * only rest) h) :
    c h = .error .outOfMemory ∨ ∃ a h', c h = .ok (a, h') ∧ (Q a * only rest) h' := by
  have hend := hc _ h hP
  cases hch : c h with
  | error e =>
    rw [hch] at hend
    exact .inl (congrArg _ hend)
  | ok r =>
    rw [hch] at hend
    exact .inr ⟨r.1, r.2, rfl, hend⟩

end Triples

/-! ### Programs that do not allocate -/

section Frugal

variable {κ α β : Type} {c : Prog κ α} {f : α → Prog κ β}

/-- The program does not run out of memory. -/
def Frugal (c : Prog κ α) : Prop := ∀ h, c h ≠ .error .outOfMemory

theorem frugal_pure (a : α) : Frugal (pure a : Prog κ α) := fun _ h => by cases h

theorem frugal_fail {e : Fault} (he : e ≠ .outOfMemory) : Frugal (fail e : Prog κ α) :=
  fun _ h => he (Except.error.inj h)

theorem frugal_load (p : Ptr) : Frugal (load p : Prog κ κ) := by
  intro h
  cases p with
  | none => simp [load]
  | some a => cases ha : h a <;> simp [load, ha]

theorem frugal_store (p : Ptr) (v : κ) : Frugal (store p v) := by
  intro h
  cases p with
  | none => simp [store]
  | some a =>
    rw [store]
    split_ifs <;> simp

theorem frugal_free (p : Ptr) : Frugal (free p : Prog κ Unit) := by
  intro h
  cases p with
  | none => simp [free]
  | some a =>
    rw [free]
    split_ifs <;> simp

theorem Frugal.bind (hc : Frugal c) (hf : ∀ a, Frugal (f a)) : Frugal (c >>= f) := by
  intro h
  cases hch : c h with
  | error e =>
    have hne := hc h
    rw [hch] at hne
    rw [bind_error hch]
    exact fun he => hne (congrArg _ (Except.error.inj he))
  | ok r =>
    rw [bind_ok hch]
    exact hf r.1 r.2

/-- **What a triple says about a run** that does not allocate. -/
theorem Triple.run_of_frugal {P : Assertion κ} {Q : α → Assertion κ} (hc : Triple P c Q) (hfrugal : Frugal c)
    {h rest : Heap κ} (hP : (P * only rest) h) : ∃ a h', c h = .ok (a, h') ∧ (Q a * only rest) h' :=
  (hc.run hP).resolve_left (hfrugal h)

end Frugal

end N64NetLib.Lib.Separation
