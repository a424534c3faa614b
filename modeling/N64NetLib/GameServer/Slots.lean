import Mathlib.Data.Fintype.Basic
import Mathlib.Data.List.FinRange
import Mathlib.Logic.Function.Basic

/-! # The slots of a game server

The array `players` of `Game`, in the Tic Tac Toe server and in the Realtime server. The player objects
are told apart by a reference, as `==` does; what the array knows about them is carried by `PlayerArray`:
whoever is in slot `i` has number `i + 1`, and no object is in two slots. The two servers take a slot in
the same way and free it in two: by object, and by number. In an array that knows its players both free
the slot of the player (`freeObject_players`, `freeNumber_players`). -/

namespace N64NetLib.GameServer.Slots

/-- A `Player`: which object it is, and its number. -/
structure Player where
  ref : ℕ
  number : ℕ
deriving DecidableEq, Repr

/-- The array `players`, and how many player objects were made so far. -/
structure PlayerArray (n : ℕ) where
  players : Fin n → Option Player
  made : ℕ
  numbered : ∀ i ply, players i = some ply → ply.number = i.val + 1
  known : ∀ i ply, players i = some ply → ply.ref < made
  apart : ∀ i j p q, players i = some p → players j = some q → p.ref = q.ref → i = j

variable {n : ℕ}

/-- The array of the constructor. -/
def newPlayerArray (n : ℕ) : PlayerArray n := ⟨fun _ => none, 0, by simp, by simp, by simp⟩

/-- Who is in a slot after slot `i` was written. -/
theorem update_eq_some {f : Fin n → Option Player} {i j : Fin n} {v : Option Player} {ply : Player} :
    Function.update f i v j = some ply ↔ j = i ∧ v = some ply ∨ j ≠ i ∧ f j = some ply := by
  by_cases hj : j = i
  · subst hj
    simp
  · simp [hj]

/-- The empty slot filled with a new object. -/
def PlayerArray.fill (s : PlayerArray n) (i : Fin n) : PlayerArray n where
  players := Function.update s.players i (some ⟨s.made, i.val + 1⟩)
  made := s.made + 1
  numbered := by
    intro j ply hply
    obtain ⟨rfl, hnew⟩ | ⟨-, hold⟩ := update_eq_some.mp hply
    · rw [← Option.some.inj hnew]
    · exact s.numbered j ply hold
  known := by
    intro j ply hply
    obtain ⟨rfl, hnew⟩ | ⟨-, hold⟩ := update_eq_some.mp hply
    · rw [← Option.some.inj hnew]
      exact Nat.lt_succ_self _
    · exact Nat.lt_succ_of_lt (s.known j ply hold)
  apart := by
    -- the new object is known to no other slot
    have hfresh : ∀ k q, s.players k = some q → q.ref ≠ s.made := fun k q hq =>
      (s.known k q hq).ne
    intro j k p q hp hq href
    rcases update_eq_some.mp hp with ⟨hj, hp⟩ | ⟨-, hp⟩ <;>
      rcases update_eq_some.mp hq with ⟨hk, hq⟩ | ⟨-, hq⟩
    · exact hj.trans hk.symm
    · rw [← Option.some.inj hp] at href
      exact absurd href.symm (hfresh k q hq)
    · rw [← Option.some.inj hq] at href
      exact absurd href (hfresh j p hp)
    · exact s.apart j k p q hp hq href

/-- The slot emptied. -/
def PlayerArray.free (s : PlayerArray n) (i : Fin n) : PlayerArray n where
  players := Function.update s.players i none
  made := s.made
  numbered := by
    intro j ply hply
    obtain ⟨-, hnone⟩ | ⟨-, hold⟩ := update_eq_some.mp hply
    · cases hnone
    · exact s.numbered j ply hold
  known := by
    intro j ply hply
    obtain ⟨-, hnone⟩ | ⟨-, hold⟩ := update_eq_some.mp hply
    · cases hnone
    · exact s.known j ply hold
  apart := by
    intro j k p q hp hq
    obtain ⟨-, hnone⟩ | ⟨-, hp⟩ := update_eq_some.mp hp
    · cases hnone
    obtain ⟨-, hnone⟩ | ⟨-, hq⟩ := update_eq_some.mp hq
    · cases hnone
    exact s.apart j k p q hp hq

/-- The first slot in front of which the loop over the array stops. -/
def PlayerArray.find (s : PlayerArray n) (stops : Fin n → Option Player → Bool) : Option (Fin n) :=
  (List.finRange n).find? fun i => stops i (s.players i)

/-- `Game.CanConnectPlayer`. -/
def canConnectPlayer (s : PlayerArray n) : Bool := (s.find fun _ ply => ply.isNone).isSome

/-- `Game.ConnectPlayer`: the player in the first empty slot, or null. -/
def connectPlayer (s : PlayerArray n) : Option Player × PlayerArray n :=
  match s.find fun _ ply => ply.isNone with
  | none => (none, s)
  | some i => (some ⟨s.made, i.val + 1⟩, s.fill i)

/-- `Game.DisconnectPlayer` of the Tic Tac Toe server, as far as the array goes: the slot with this
object is emptied. -/
def freeObject (s : PlayerArray n) (ply : Player) : PlayerArray n :=
  match s.find fun _ q => q.map (·.ref) = some ply.ref with
  | none => s
  | some i => s.free i

/-- `Game.DisconnectPlayer` of the Realtime server: the slot with this number is emptied. The index of a
number that no slot has would throw. -/
def freeNumber (s : PlayerArray n) (ply : Player) : PlayerArray n :=
  if h : 0 < ply.number ∧ ply.number - 1 < n then s.free ⟨ply.number - 1, h.2⟩ else s

/-! ### What they do -/

theorem find_eq_none {s : PlayerArray n} {stops : Fin n → Option Player → Bool} :
    s.find stops = none ↔ ∀ i, stops i (s.players i) = false := by
  simp [PlayerArray.find]

theorem find_stops {s : PlayerArray n} {stops : Fin n → Option Player → Bool} {i : Fin n}
    (h : s.find stops = some i) : stops i (s.players i) = true :=
  List.find?_some (p := fun i => stops i (s.players i)) h

/-- The loop finds the only slot it stops at. -/
theorem find_eq_some {s : PlayerArray n} {stops : Fin n → Option Player → Bool} {i : Fin n}
    (hi : stops i (s.players i) = true) (hone : ∀ j, stops j (s.players j) = true → j = i) :
    s.find stops = some i := by
  cases h : s.find stops with
  | none => simp [find_eq_none.mp h i] at hi
  | some j => rw [hone j (find_stops h)]

/-- Who connects has an object of their own, in a slot that was empty. -/
theorem connectPlayer_some {s : PlayerArray n} {ply : Player} (h : (connectPlayer s).1 = some ply) :
    ∃ i, s.players i = none ∧ ply = ⟨s.made, i.val + 1⟩ ∧ (connectPlayer s).2 = s.fill i := by
  unfold connectPlayer at h ⊢
  cases hfind : s.find fun _ ply => ply.isNone with
  | none => simp [hfind] at h
  | some i =>
    rw [hfind] at h
    exact ⟨i, by simpa using find_stops hfind, (Option.some.inj h).symm, rfl⟩

theorem connectPlayer_none {s : PlayerArray n} (h : (connectPlayer s).1 = none) :
    (connectPlayer s).2 = s := by
  unfold connectPlayer at h ⊢
  cases hfind : s.find fun _ ply => ply.isNone with
  | none => rfl
  | some i => simp [hfind] at h

theorem connectPlayer_eq_none {s : PlayerArray n} :
    (connectPlayer s).1 = none ↔ canConnectPlayer s = false := by
  unfold connectPlayer canConnectPlayer
  cases s.find fun _ ply => ply.isNone <;> simp

/-- A player of the array is in one slot. -/
theorem PlayerArray.inj {s : PlayerArray n} {i j : Fin n} {ply : Player} (hi : s.players i = some ply)
    (hj : s.players j = some ply) : i = j := s.apart i j ply ply hi hj rfl

/-- The Tic Tac Toe server frees the slot of the player. -/
theorem freeObject_players {s : PlayerArray n} {i : Fin n} {ply : Player} (h : s.players i = some ply) :
    freeObject s ply = s.free i := by
  have hfind : s.find (fun _ q => q.map (·.ref) = some ply.ref) = some i := by
    refine find_eq_some (by simp [h]) fun j hj => ?_
    obtain ⟨q, hq, href⟩ := Option.map_eq_some_iff.mp (of_decide_eq_true hj)
    exact s.apart j i q ply hq h href
  rw [freeObject, hfind]

/-- The Realtime server frees the slot of the player. -/
theorem freeNumber_players {s : PlayerArray n} {i : Fin n} {ply : Player} (h : s.players i = some ply) :
    freeNumber s ply = s.free i := by
  have hnumber := s.numbered i ply h
  have hslot : 0 < ply.number ∧ ply.number - 1 < n := by omega
  have hindex : (⟨ply.number - 1, hslot.2⟩ : Fin n) = i := Fin.ext (by dsimp only; omega)
  rw [freeNumber, dif_pos hslot, hindex]

@[simp] theorem fill_players (s : PlayerArray n) (i : Fin n) :
    (s.fill i).players = Function.update s.players i (some ⟨s.made, i.val + 1⟩) := rfl

@[simp] theorem free_players (s : PlayerArray n) (i : Fin n) :
    (s.free i).players = Function.update s.players i none := rfl

end N64NetLib.GameServer.Slots
