import Mathlib.Data.Option.Basic
import Mathlib.Data.List.Basic

/-! # Labelled runs

A system is its step `step : σ → α → Option σ`: in a state, a label leads to at most one next state,
and to none if the step it names cannot be taken there. A run is a list of labels, so that a
statement over all runs is a statement over all lists. `Always I` says that every state of a run
satisfies `I`, `Along C` that every step taken meets the condition `C` in the state it starts from.

The rules: an invariant holds in every state (`run_invariant`), a property that steps keep while they
meet `C` holds along a run that meets `C` (`always_of_along`), and if `C` is exactly what a step
needs, the two are equivalent (`always_iff_along`); so it is for what the steps do (`along_of_along`,
`along_congr`). A rank that every step lowers bounds the runs (`length_le_rank`), and bounded runs come to
an end (`exists_halted`). -/

namespace N64NetLib.Lib.Run

variable {σ α : Type*} (step : σ → α → Option σ)

/-- The state after the labels of a run, if each of its steps can be taken. -/
def run (s : σ) : List α → Option σ
  | [] => some s
  | a :: l => (step s a).bind fun s' => run s' l

/-- Every state of the run, the first and the last included, satisfies `I`. -/
def Always (I : σ → Prop) : σ → List α → Prop
  | s, [] => I s
  | s, a :: l => I s ∧ ∀ s', step s a = some s' → Always I s' l

/-- Every step the run takes meets `C` in the state it starts from. -/
def Along (C : σ → α → Prop) : σ → List α → Prop
  | _, [] => True
  | s, a :: l => ∀ s', step s a = some s' → C s a ∧ Along C s' l

variable {step}

@[simp] theorem run_nil (s : σ) : run step s ([] : List α) = some s := rfl

theorem run_cons {s s' : σ} {a : α} {l : List α} :
    run step s (a :: l) = some s' ↔ ∃ t, step s a = some t ∧ run step t l = some s' := by
  simp [run, Option.bind_eq_some_iff]

theorem run_append {s s' : σ} {l k : List α} :
    run step s (l ++ k) = some s' ↔ ∃ t, run step s l = some t ∧ run step t k = some s' := by
  induction l generalizing s with
  | nil => simp
  | cons a l ih =>
    simp only [List.cons_append, run_cons, ih]
    constructor
    · rintro ⟨t, ht, u, hu, h⟩; exact ⟨u, ⟨t, ht, hu⟩, h⟩
    · rintro ⟨u, ⟨t, ht, hu⟩, h⟩; exact ⟨t, ht, u, hu, h⟩

/-- **The invariant rule.** -/
theorem run_invariant {I : σ → Prop} (hstep : ∀ s a s', I s → step s a = some s' → I s')
    {s s' : σ} {l : List α} (hs : I s) (h : run step s l = some s') : I s' := by
  induction l generalizing s with
  | nil => exact Option.some.inj h ▸ hs
  | cons a l ih =>
    obtain ⟨t, ht, h⟩ := run_cons.mp h
    exact ih (hstep s a t hs ht) h

/-- The invariant rule for all states of a run. -/
theorem always_of_invariant {I J : σ → Prop} (hI : ∀ s, J s → I s)
    (hJ : ∀ s a s', J s → step s a = some s' → J s') :
    ∀ {s : σ} (l : List α), J s → Always step I s l
  | s, [], hJs => hI s hJs
  | s, a :: l, hJs => ⟨hI s hJs, fun s' hs' => always_of_invariant hI hJ l (hJ s a s' hJs hs')⟩

/-- **The conditional invariant rule**: a step that meets `C` keeps `J` and `I`. -/
theorem always_of_along {I J : σ → Prop} {C : σ → α → Prop}
    (hJ : ∀ s a s', J s → C s a → step s a = some s' → J s')
    (hI : ∀ s a s', J s → I s → C s a → step s a = some s' → I s') :
    ∀ {s : σ} {l : List α}, J s → I s → Along step C s l → Always step I s l
  | s, [], _, hIs, _ => hIs
  | s, a :: l, hJs, hIs, h => by
    refine ⟨hIs, fun s' hs' => ?_⟩
    obtain ⟨hC, hl⟩ := h s' hs'
    exact always_of_along hJ hI (hJ s a s' hJs hC hs') (hI s a s' hJs hIs hC hs') hl

theorem Always.head {I : σ → Prop} {s : σ} {l : List α} (h : Always step I s l) : I s := by
  cases l with
  | nil => exact h
  | cons a l => exact h.1

/-- **The exact rule**: in a run whose steps meet `D`, if `C` is what a step needs to keep `I`, no
more and no less, then `I` holds in every state exactly if the steps meet `C`. -/
theorem always_iff_along {I J : σ → Prop} {C D : σ → α → Prop}
    (hJ : ∀ s a s', J s → D s a → step s a = some s' → J s')
    (hI : ∀ s a s', J s → I s → D s a → step s a = some s' → (I s' ↔ C s a)) :
    ∀ {s : σ} {l : List α}, J s → I s → Along step D s l →
      (Always step I s l ↔ Along step C s l)
  | s, [], _, hIs, _ => by simpa [Always, Along] using hIs
  | s, a :: l, hJs, hIs, hD => by
    simp only [Always, Along, hIs, true_and]
    refine forall_congr' fun s' => imp_congr_right fun hs' => ?_
    obtain ⟨hDs, hDl⟩ := hD s' hs'
    have hI' := hI s a s' hJs hIs hDs hs'
    by_cases hC : C s a
    · simp only [hC, true_and]
      exact always_iff_along hJ hI (hJ s a s' hJs hDs hs') (hI'.mpr hC) hDl
    · have hno : ¬ Always step I s' l := fun h => hC (hI'.mp h.head)
      simp [hC, hno]

/-- **The exact rule for an invariant that the condition keeps**: the steps that meet `C` keep `J`, which
has `I` in it, and the others lose `I`. -/
theorem always_iff_of_kept {I J : σ → Prop} {C : σ → α → Prop} (hI : ∀ s, J s → I s)
    (hJ : ∀ s a s', J s → C s a → step s a = some s' → J s')
    (hno : ∀ s a s', J s → ¬ C s a → step s a = some s' → ¬ I s') :
    ∀ {s : σ} {l : List α}, J s → (Always step I s l ↔ Along step C s l)
  | s, [], hJs => by simpa [Always, Along] using hI s hJs
  | s, a :: l, hJs => by
    simp only [Always, Along, hI s hJs, true_and]
    refine forall_congr' fun s' => imp_congr_right fun hs' => ?_
    by_cases hC : C s a
    · simp only [hC, true_and]
      exact always_iff_of_kept hI hJ hno (hJ s a s' hJs hC hs')
    · have hlost : ¬ Always step I s' l := fun h => hno s a s' hJs hC hs' h.head
      simp [hC, hlost]

/-- The last state of a run that always satisfies `I`. -/
theorem Always.last {I : σ → Prop} {s s' : σ} {l : List α} (h : Always step I s l)
    (hr : run step s l = some s') : I s' := by
  induction l generalizing s with
  | nil => exact Option.some.inj hr ▸ h
  | cons a l ih =>
    obtain ⟨t, ht, hr⟩ := run_cons.mp hr
    exact ih (h.2 t ht) hr

/-- A run and its continuation. -/
theorem always_append {I : σ → Prop} {s : σ} {l k : List α} :
    Always step I s (l ++ k) ↔
      Always step I s l ∧ ∀ t, run step s l = some t → Always step I t k := by
  induction l generalizing s with
  | nil => simpa [Always] using fun h : Always step I s k => h.head
  | cons a l ih =>
    simp only [List.cons_append, Always, ih, run_cons, forall_exists_index, and_imp, and_assoc]
    refine and_congr_right fun _ => ?_
    constructor
    · intro h
      exact ⟨fun s' hs' => (h s' hs').1, fun t s' hs' ht => (h s' hs').2 t ht⟩
    · rintro ⟨h1, h2⟩ s' hs'
      exact ⟨h1 s' hs', fun t ht => h2 t s' hs' ht⟩

theorem along_append {C : σ → α → Prop} {s : σ} {l k : List α} :
    Along step C s (l ++ k) ↔
      Along step C s l ∧ ∀ t, run step s l = some t → Along step C t k := by
  induction l generalizing s with
  | nil => simp [Along]
  | cons a l ih =>
    simp only [List.cons_append, Along, ih, run_cons, forall_exists_index, and_imp]
    constructor
    · intro h
      exact ⟨fun s' hs' => ⟨(h s' hs').1, (h s' hs').2.1⟩, fun t s' hs' ht => (h s' hs').2.2 t ht⟩
    · rintro ⟨h1, h2⟩ s' hs'
      exact ⟨(h1 s' hs').1, (h1 s' hs').2, fun t ht => h2 t s' hs' ht⟩

/-- **The exact rule for the last state**: if `C` is exactly what a step needs to keep `I`, and what is
lost stays lost, then `I` holds in the last state exactly if the steps met `C`. -/
theorem last_iff_along {I : σ → Prop} {C : σ → α → Prop}
    (hI : ∀ s a s', I s → step s a = some s' → (I s' ↔ C s a))
    (hno : ∀ s a s', ¬ I s → step s a = some s' → ¬ I s') {s t : σ} {l : List α} (hs : I s)
    (h : run step s l = some t) : I t ↔ Along step C s l := by
  have hlost : ∀ {s t : σ} {l : List α}, ¬ I s → run step s l = some t → ¬ I t := fun hs h =>
    run_invariant (I := fun s => ¬ I s) hno hs h
  induction l generalizing s with
  | nil => simpa [Along, ← Option.some.inj h] using hs
  | cons a l ih =>
    obtain ⟨s', hs', h⟩ := run_cons.mp h
    have hone : Along step C s (a :: l) ↔ C s a ∧ Along step C s' l := by
      simp only [Along, hs', Option.some.injEq, forall_eq']
    rw [hone, ← hI s a s' hs hs']
    by_cases hs1 : I s'
    · simp [hs1, ih hs1 h]
    · simp [hs1, hlost hs1 h]

/-- **The conditional rule for steps**: if the steps that meet `C` keep `J`, and in `J` they meet `P`,
then a run that meets `C` meets `P`. -/
theorem along_of_along {J : σ → Prop} {P C : σ → α → Prop}
    (hJ : ∀ s a s', J s → C s a → step s a = some s' → J s')
    (hP : ∀ s a s', J s → C s a → step s a = some s' → P s a) :
    ∀ {s : σ} {l : List α}, J s → Along step C s l → Along step P s l
  | _, [], _, _ => trivial
  | s, a :: l, hJs, h => fun s' hs' => by
    obtain ⟨hC, hl⟩ := h s' hs'
    exact ⟨hP s a s' hJs hC hs', along_of_along hJ hP (hJ s a s' hJs hC hs') hl⟩

/-- **The exact rule for steps**: if the steps that meet `C` keep `J`, and in `J` what a step needs is
exactly `C`, then a run meets the one exactly if it meets the other. -/
theorem along_congr {J : σ → Prop} {P C : σ → α → Prop}
    (hJ : ∀ s a s', J s → C s a → step s a = some s' → J s')
    (hPC : ∀ s a s', J s → step s a = some s' → (P s a ↔ C s a)) :
    ∀ {s : σ} {l : List α}, J s → (Along step P s l ↔ Along step C s l)
  | _, [], _ => Iff.rfl
  | s, a :: l, hJs => by
    simp only [Along]
    refine forall_congr' fun s' => imp_congr_right fun hs' => ?_
    rw [hPC s a s' hJs hs']
    exact and_congr_right fun hC => along_congr hJ hPC (hJ s a s' hJs hC hs')

theorem along_true : ∀ (s : σ) (l : List α), Along step (fun _ _ => True) s l
  | _, [] => trivial
  | _, _ :: l => fun s' _ => ⟨trivial, along_true s' l⟩

/-! ### Runs that end -/

/-- No step can be taken. -/
def Halted (step : σ → α → Option σ) (s : σ) : Prop := ∀ a, step s a = none

/-- **The rank rule**: if every step lowers the rank, a run has no more steps than the rank. -/
theorem length_le_rank {J : σ → Prop} {rank : σ → ℕ} (hJ : ∀ s a s', J s → step s a = some s' → J s')
    (hrank : ∀ s a s', J s → step s a = some s' → rank s' < rank s) {s t : σ} {l : List α} (hs : J s)
    (h : run step s l = some t) : l.length ≤ rank s := by
  induction l generalizing s with
  | nil => exact Nat.zero_le _
  | cons a l ih =>
    obtain ⟨s', hs', h⟩ := run_cons.mp h
    have hlt := hrank s a s' hs hs'
    have hle := ih (hJ s a s' hs hs') h
    rw [List.length_cons]
    omega

/-- If the runs from a state are bounded, one of them ends where no step can be taken. -/
theorem exists_halted {s : σ} {n : ℕ} (h : ∀ l t, run step s l = some t → l.length ≤ n) :
    ∃ l t, run step s l = some t ∧ Halted step t := by
  induction n generalizing s with
  | zero =>
    refine ⟨[], s, rfl, fun a => ?_⟩
    by_contra hne
    obtain ⟨s', hs'⟩ := Option.ne_none_iff_exists'.mp hne
    have hone := h [a] s' (run_cons.mpr ⟨s', hs', rfl⟩)
    simp at hone
  | succ n ih =>
    by_cases hs : Halted step s
    · exact ⟨[], s, rfl, hs⟩
    · obtain ⟨a, hne⟩ := not_forall.mp hs
      obtain ⟨s', hs'⟩ := Option.ne_none_iff_exists'.mp hne
      obtain ⟨l, t, ht, hhalted⟩ := ih fun l t hl => by
        have hlen := h (a :: l) t (run_cons.mpr ⟨s', hs', hl⟩)
        rw [List.length_cons] at hlen
        omega
      exact ⟨a :: l, t, run_cons.mpr ⟨s', hs', ht⟩, hhalted⟩

/-! ### Deciding -/

instance decidableForallSome (o : Option α) (P : α → Prop) [DecidablePred P] :
    Decidable (∀ a, o = some a → P a) :=
  match o with
  | none => isTrue (by simp)
  | some a => decidable_of_iff (P a) (by simp)

instance decidableAlong (C : σ → α → Prop) [∀ s a, Decidable (C s a)] :
    ∀ (s : σ) (l : List α), Decidable (Along step C s l)
  | _, [] => isTrue trivial
  | s, a :: l =>
    haveI := fun s' => decidableAlong C s' l
    decidableForallSome (step s a) fun s' => C s a ∧ Along step C s' l

end N64NetLib.Lib.Run
