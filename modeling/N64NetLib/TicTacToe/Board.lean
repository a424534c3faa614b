import N64NetLib.GameServer.Slots
import N64NetLib.Packet.Basic

/-! # The boards of Tic Tac Toe

`BoardSmall` and `BoardLarge` of the Tic Tac Toe server. The nine small boards are objects of their own
that stay where they are, so that the position of a small board stands for the object (`forcedboard`).
The coordinates of a move come from a packet, as signed bytes: those above 2 are refused, and negative
ones end in an exception, in either case before anything has changed. -/

namespace N64NetLib.TicTacToe.Board

open N64NetLib.GameServer.Slots N64NetLib.Packet.Basic

/-! ### Three in a row -/

/-- A line of three positions. -/
abbrev Line := Fin 3 → Fin 3 × Fin 3

/-- The rows, the columns and the two diagonals, in the order in which `CheckWinner` takes them. -/
def lines : List Line :=
  ((List.finRange 3).map fun y x => (x, y)) ++ ((List.finRange 3).map fun x y => (x, y)) ++
    [fun x => (x, x), fun x => (x.rev, x)]

/-- The line is taken by one player. -/
def haswinner (owner : Fin 3 → Fin 3 → Option Player) (line : Line) : Bool :=
  let taken (x : Fin 3) := owner (line x).1 (line x).2
  (taken 0).isSome && taken 1 = taken 0 && taken 2 = taken 1

/-- `CheckWinner` of the two classes: the owner of the first line that is taken, if there is one. -/
def checkWinner (owner : Fin 3 → Fin 3 → Option Player) (winner : Option Player) : Option Player :=
  match lines.find? (haswinner owner) with
  | none => winner
  | some line => owner (line 0).1 (line 0).2

/-- An array entry replaced. -/
def set {α : Type*} (a : Fin 3 → Fin 3 → α) (x y : Fin 3) (v : α) : Fin 3 → Fin 3 → α :=
  Function.update a x (Function.update (a x) y v)

/-! ### The small board -/

/-- `BoardSmall`. -/
structure BoardSmall where
  movecount : ℕ
  winner : Option Player
  moves : Fin 3 → Fin 3 → Option Player

/-- The constructor. -/
def newBoardSmall : BoardSmall := ⟨0, none, fun _ _ => none⟩

namespace BoardSmall

/-- `BoardSmall.MakeMove`. The player may be null. -/
def makeMove (b : BoardSmall) (ply : Option Player) (xpos ypos : Fin 3) : Bool × BoardSmall :=
  if (b.moves xpos ypos).isSome then (false, b)
  else
    let moves := set b.moves xpos ypos ply
    (true, ⟨b.movecount + 1, checkWinner moves b.winner, moves⟩)

/-- `BoardSmall.BoardFinished`. -/
def boardFinished (b : BoardSmall) : Bool := b.winner.isSome || b.movecount = 9

end BoardSmall

/-! ### The large board -/

/-- `BoardLarge`. -/
structure BoardLarge where
  movecount : ℕ
  boards : Fin 3 → Fin 3 → BoardSmall
  forcedboard : Option (Fin 3 × Fin 3)
  winner : Option Player

/-- The constructor. -/
def newBoardLarge : BoardLarge := ⟨0, fun _ _ => newBoardSmall, none, none⟩

/-- An index into an array of three. -/
def index (i : ℤ) : Except Exn (Fin 3) :=
  if h : 0 ≤ i ∧ i < 3 then .ok ⟨i.toNat, by omega⟩ else .error .arrayIndex

namespace BoardLarge

/-- `BoardLarge.BoardFinished`. -/
def boardFinished (b : BoardLarge) : Bool := b.winner.isSome || b.movecount = 9

/-- `BoardLarge.MakeMove` behind the check of the forced board. -/
def makeMoveOn (b : BoardLarge) (ply : Option Player) (xboard yboard xpos ypos : Fin 3) :
    Bool × BoardLarge :=
  let r := (b.boards xboard yboard).makeMove ply xpos ypos
  let boards := set b.boards xboard yboard r.2
  (r.1,
    { movecount := if r.2.boardFinished then b.movecount + 1 else b.movecount
      boards := boards
      forcedboard :=
        if r.1 then if (boards xpos ypos).boardFinished then none else some (xpos, ypos)
        else b.forcedboard
      winner := checkWinner (fun x y => (boards x y).winner) b.winner })

/-- `BoardLarge.MakeMove`. -/
def makeMove (b : BoardLarge) (ply : Option Player) (xboard yboard xpos ypos : ℤ) :
    Except Exn (Bool × BoardLarge) := do
  if xboard > 2 ∨ yboard > 2 ∨ xpos > 2 ∨ ypos > 2 then
    return (false, b)
  let xboard ← index xboard
  let yboard ← index yboard
  if b.forcedboard = none ∨ b.forcedboard = some (xboard, yboard) then
    let xpos ← index xpos
    let ypos ← index ypos
    return b.makeMoveOn ply xboard yboard xpos ypos
  return (false, b)

/-- `BoardLarge.GetBoard`. -/
def getBoard (b : BoardLarge) (xpos ypos : ℤ) : Except Exn BoardSmall := do
  let x ← index xpos
  let y ← index ypos
  return b.boards x y

/-- A move that was accepted was made on a board that exists. -/
theorem getBoard_of_makeMove {b b' : BoardLarge} {ply : Option Player} {xboard yboard xpos ypos : ℤ}
    (h : b.makeMove ply xboard yboard xpos ypos = .ok (true, b')) (c : BoardLarge) :
    ∃ small, c.getBoard xboard yboard = .ok small := by
  unfold makeMove at h
  split_ifs at h with hbound
  · cases h
  · unfold getBoard
    cases hx : index xboard with
    | error e => rw [hx] at h; cases h
    | ok x =>
      cases hy : index yboard with
      | error e => rw [hx, hy] at h; cases h
      | ok y => exact ⟨c.boards x y, rfl⟩

end BoardLarge

end N64NetLib.TicTacToe.Board
