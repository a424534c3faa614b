import Mathlib.Data.List.Infix

/-! # Where a path leads

A path is its components: one that stays (`.`, or nothing between two separators), one that goes up
(`..`), or a name. A position is the list of names from the root down, and a path leads from one to
another (`walk`).

What a path comes to does not depend on where it starts: it goes up some levels and then down along some
names (`offset`, `walk_eq`). So a path that starts in a folder ends in or below it exactly if the names
lead down again the way it went up (`prefix_walk_iff`). -/

namespace N64NetLib.Lib.Path

/-! ### Components -/

section Walk

variable {N : Type*}

inductive Component (N : Type*)
  | stay
  | up
  | down (name : N)
deriving DecidableEq

/-- One component further; above the root is the root. -/
def go (p : List N) : Component N → List N
  | .stay => p
  | .up => p.dropLast
  | .down name => p ++ [name]

/-- The position to which the components lead. -/
def walk (p : List N) (cs : List (Component N)) : List N := cs.foldl go p

/-- So many levels up, and then down along the names. -/
structure Offset (N : Type*) where
  ups : ℕ
  names : List N
deriving DecidableEq

/-- A component more. A name is taken back before a level is gone up. -/
def Offset.step (o : Offset N) : Component N → Offset N
  | .stay => o
  | .up => match o.names with
    | [] => ⟨o.ups + 1, []⟩
    | _ :: _ => ⟨o.ups, o.names.dropLast⟩
  | .down name => ⟨o.ups, o.names ++ [name]⟩

/-- What the components come to. -/
def offset (cs : List (Component N)) : Offset N := cs.foldl Offset.step ⟨0, []⟩

/-- The position at the offset. -/
def Offset.apply (o : Offset N) (p : List N) : List N := p.take (p.length - o.ups) ++ o.names

/-- The names lead down again the way that was gone up. -/
def Offset.Returns (o : Offset N) (dir : List N) : Prop := dir.drop (dir.length - o.ups) <+: o.names

instance decidableReturns [DecidableEq N] (o : Offset N) (dir : List N) : Decidable (o.Returns dir) :=
  inferInstanceAs (Decidable (_ <+: _))

@[simp] theorem walk_nil (p : List N) : walk p [] = p := rfl

@[simp] theorem walk_append (p : List N) (cs ds : List (Component N)) :
    walk p (cs ++ ds) = walk (walk p cs) ds := List.foldl_append

theorem Offset.apply_zero (p : List N) : (⟨0, []⟩ : Offset N).apply p = p := by
  simp [Offset.apply]

/-- One component, from the position at an offset. -/
theorem go_apply (o : Offset N) (p : List N) (c : Component N) :
    go (o.apply p) c = (o.step c).apply p := by
  obtain ⟨ups, names⟩ := o
  cases c with
  | stay => rfl
  | down name => simp [go, Offset.apply, Offset.step]
  | up =>
    cases names with
    | nil =>
      have hlen : min (p.length - ups) p.length - 1 = p.length - (ups + 1) := by omega
      simp only [go, Offset.apply, Offset.step, List.append_nil, List.dropLast_eq_take,
        List.length_take, List.take_take, hlen]
      congr 1
      omega
    | cons name names =>
      simp only [go, Offset.apply, Offset.step]
      exact List.dropLast_append_of_ne_nil (List.cons_ne_nil name names)

/-- **What a path comes to does not depend on where it starts.** -/
theorem walk_eq (p : List N) (cs : List (Component N)) : walk p cs = (offset cs).apply p := by
  suffices hfold : ∀ o : Offset N, cs.foldl go (o.apply p) = (cs.foldl Offset.step o).apply p by
    have hstart := hfold ⟨0, []⟩
    rwa [Offset.apply_zero] at hstart
  induction cs with
  | nil => exact fun o => rfl
  | cons c cs ih =>
    intro o
    rw [List.foldl_cons, List.foldl_cons, go_apply, ih]

/-- **In or below the folder where it starts.** -/
theorem prefix_walk_iff (dir : List N) (cs : List (Component N)) :
    dir <+: walk dir cs ↔ (offset cs).Returns dir := by
  set n := dir.length - (offset cs).ups
  have hcommon : dir.take n ++ dir.drop n <+: dir.take n ++ (offset cs).names ↔
      dir.drop n <+: (offset cs).names := List.prefix_append_right_inj (dir.take n)
  rwa [List.take_append_drop, ← Offset.apply, ← walk_eq] at hcommon

end Walk

/-! ### Texts -/

/-- What is between two separators. -/
def component : List Char → Component (List Char)
  | [] | ['.'] => .stay
  | ['.', '.'] => .up
  | name => .down name

/-- The components of a text. -/
def components (isSep : Char → Bool) (text : List Char) : List (Component (List Char)) :=
  (text.splitOnP isSep).map component

theorem components_append {isSep : Char → Bool} {sep : Char} (hsep : isSep sep = true)
    (a b : List Char) :
    components isSep (a ++ sep :: b) = components isSep a ++ components isSep b := by
  rw [components, List.splitOnP_append_cons _ _ hsep, List.map_append]
  rfl

/-- The char with which a C string ends. -/
def nul : Char := Char.ofNat 0

/-- What of a text is passed on as a C string. -/
def cString (text : List Char) : List Char := text.takeWhile (· ≠ nul)

/-- How the files of a system are named: which characters separate components, the one that programs
write for it, and where a text leads. There are no links. -/
structure FileNames where
  isSep : Char → Bool
  separator : Char
  isSep_separator : isSep separator = true
  isSep_slash : isSep '/' = true
  isSep_nul : isSep nul = false
  locate : List Char → List (List Char)
  locate_append : ∀ (a : List Char) (sep : Char) (b : List Char), isSep sep = true →
    locate (a ++ sep :: b) = walk (locate (a ++ [sep])) (components isSep b)

theorem cString_append {a : List Char} (ha : nul ∉ a) (b : List Char) :
    cString (a ++ b) = a ++ cString b :=
  List.takeWhile_append_of_pos fun c hc => decide_eq_true fun h => ha (h ▸ hc)

/-- A text starts at the root if a separator comes first, and otherwise in the working directory. -/
def start (isSep : Char → Bool) (cwd : List (List Char)) : List Char → List (List Char)
  | [] => cwd
  | c :: _ => if isSep c then [] else cwd

theorem start_append {isSep : Char → Bool} {cwd : List (List Char)} (a : List Char) (c : Char)
    (b : List Char) : start isSep cwd (a ++ c :: b) = start isSep cwd (a ++ [c]) := by
  cases a <;> rfl

/-- The names of a Unix system, in a working directory. -/
def unix (cwd : List (List Char)) : FileNames where
  isSep := (· = '/')
  separator := '/'
  isSep_separator := rfl
  isSep_slash := rfl
  isSep_nul := rfl
  locate text := walk (start (· = '/') cwd text) (components (· = '/') text)
  locate_append a sep b hsep := by
    have hnil : components (fun c => decide (c = '/')) [] = [.stay] := rfl
    rw [start_append, components_append hsep, components_append hsep, walk_append, walk_append,
      hnil]
    rfl

end N64NetLib.Lib.Path
