import Mathlib.Data.Fintype.Prod
import N64NetLib.Lib.Run
import N64NetLib.TicTacToe.Board

/-! # Do the boards enforce the rules?

Calls of `BoardLarge.MakeMove` by any players, with coordinates on the board. `MakeMove` looks at the
forced board, and the small board at the cell, but nobody asks whether the small board is finished: a move
on one that is won is accepted, and any move on a finished one counts it a second time, also a move that
is rejected. `CheckWinner` goes through the lines anew after each call, so that a line completed later
takes the large board from its winner if it stands before that one's.

`along_enforced_iff` says that there is nothing else: the rules are kept in exactly the runs whose calls do
neither. -/

namespace N64NetLib.TicTacToe.Referee

open N64NetLib.Lib.Run N64NetLib.Packet.Basic N64NetLib.GameServer.Slots N64NetLib.TicTacToe.Board

/-! ### The rules -/

/-- A call of `MakeMove`. -/
structure Move where
  ply : Player
  xboard : Fin 3
  yboard : Fin 3
  xpos : Fin 3
  ypos : Fin 3

/-- The small board the move is for. -/
def Move.target (m : Move) (b : BoardLarge) : BoardSmall := b.boards m.xboard m.yboard

/-- The call. -/
def Move.make (m : Move) (b : BoardLarge) : Except Exn (Bool × BoardLarge) :=
  b.makeMove (some m.ply) m.xboard.val m.yboard.val m.xpos.val m.ypos.val

def step (b : BoardLarge) (m : Move) : Option BoardLarge :=
  match m.make b with
  | .ok (_, b') => some b'
  | .error _ => none

/-- A small board is finished: it has a winner, or there is no room left. -/
def Finished (b : BoardSmall) : Prop := b.winner.isSome ∨ ∀ x y, (b.moves x y).isSome

/-- Where the rules let a player go. -/
def Free (b : BoardLarge) (m : Move) : Prop :=
  ∀ forced, b.forcedboard = some forced → forced = (m.xboard, m.yboard)

/-- **The rules**, for a call that returns `wasvalid` and leaves `b'`. -/
structure Kept (b : BoardLarge) (m : Move) (wasvalid : Bool) (b' : BoardLarge) : Prop where
  accepted : wasvalid = true ↔
    ¬ Finished (m.target b) ∧ (m.target b).moves m.xpos m.ypos = none ∧ Free b m
  rejected : wasvalid = false → b' = b
  small : ∀ x y w, (b.boards x y).winner = some w → (b'.boards x y).winner = some w
  large : ∀ w, b.winner = some w → b'.winner = some w
  finished : b'.boardFinished ↔ b'.winner.isSome ∨ ∀ x y, Finished (b'.boards x y)

/-- The call returns, and keeps the rules. -/
def Enforced (b : BoardLarge) (m : Move) : Prop :=
  ∃ wasvalid b', m.make b = .ok (wasvalid, b') ∧ Kept b m wasvalid b'

/-! ### What the calls must not do -/

/-- The player has all of the line but this position, which is on it. -/
def Completes (owner : Fin 3 → Fin 3 → Option Player) (ply : Player) (x y : Fin 3) (line : Line) : Prop :=
  (∃ i, line i = (x, y)) ∧ ∀ i, line i ≠ (x, y) → owner (line i).1 (line i).2 = some ply

/-- The player completes a line there, and no line before it is taken. -/
def CompletesFirst (owner : Fin 3 → Fin 3 → Option Player) (ply : Player) (x y : Fin 3) : Prop :=
  ∃ before line after, lines = before ++ line :: after ∧ Completes owner ply x y line ∧
    ∀ taken ∈ before, haswinner owner taken = false

/-- The winners of the small boards. -/
def winners (b : BoardLarge) (x y : Fin 3) : Option Player := (b.boards x y).winner

/-- The move wins its small board, which completes a line of the large board before the line of the
player who has won it. -/
def Overturns (b : BoardLarge) (m : Move) : Prop :=
  (m.target b).moves m.xpos m.ypos = none ∧ Free b m ∧ (∃ w, b.winner = some w ∧ w ≠ m.ply) ∧
    CompletesFirst (m.target b).moves m.ply m.xpos m.ypos ∧
      CompletesFirst (winners b) m.ply m.xboard m.yboard

/-- The condition: no move on a finished small board where the player may go, and none that takes the
large board from another. -/
def Lawful (b : BoardLarge) (m : Move) : Prop :=
  (Free b m → ¬ Finished (m.target b)) ∧ ¬ Overturns b m

/-! ### Entries -/

section Entries
variable {α β : Type*} {a : Fin 3 → Fin 3 → α} {x y : Fin 3}

theorem set_apply (v : α) (x' y' : Fin 3) :
    set a x y v x' y' = if (x', y') = (x, y) then v else a x' y' := by
  simp only [Board.set, Function.update_apply, Prod.mk.injEq]
  split_ifs <;> simp_all

theorem set_self : set a x y (a x y) = a := by simp [Board.set]

theorem map_set (f : α → β) (v : α) :
    (fun x' y' => f (set a x y v x' y')) = set (fun x' y' => f (a x' y')) x y (f v) := by
  funext x' y'
  rw [set_apply, set_apply, apply_ite f]

/-- The number of entries that are true. -/
def count (q : Fin 3 → Fin 3 → Bool) : ℕ := (Finset.univ.filter fun p : Fin 3 × Fin 3 => q p.1 p.2).card

theorem count_set {q : Fin 3 → Fin 3 → Bool} (h : q x y = false) : count (set q x y true) = count q + 1 := by
  have hinsert : (Finset.univ.filter fun p : Fin 3 × Fin 3 => set q x y true p.1 p.2) =
      insert (x, y) (Finset.univ.filter fun p : Fin 3 × Fin 3 => q p.1 p.2) := by
    ext p
    simp only [set_apply, Finset.mem_filter, Finset.mem_univ, true_and, Finset.mem_insert]
    split_ifs with hp
    · simp [show p = (x, y) from hp]
    · simp [show p ≠ (x, y) from hp]
  rw [count, hinsert, Finset.card_insert_of_notMem (by simp [h]), count]

theorem count_eq_nine {q : Fin 3 → Fin 3 → Bool} : count q = 9 ↔ ∀ x y, q x y = true := by
  have hall : (Finset.univ : Finset (Fin 3 × Fin 3)).card = 9 := by simp
  rw [count, ← hall, Finset.card_filter_eq_iff]
  simp

end Entries

/-! ### Lines -/

section Lines
variable {owner : Fin 3 → Fin 3 → Option Player} {ply : Player} {x y : Fin 3} {line : Line}

theorem haswinner_iff : haswinner owner line = true ↔ ∃ ply, ∀ i, owner (line i).1 (line i).2 = some ply := by
  simp only [haswinner, Bool.and_eq_true, decide_eq_true_eq, Fin.forall_fin_succ, Option.isSome_iff_exists]
  constructor
  · rintro ⟨⟨⟨ply, h0⟩, h1⟩, h2⟩
    exact ⟨ply, h0, h1.trans h0, h2.trans (h1.trans h0), fun i => i.elim0⟩
  · rintro ⟨ply, h0, h1, h2, -⟩
    exact ⟨⟨⟨ply, h0⟩, h1.trans h0.symm⟩, h2.trans h1.symm⟩

/-- The lines that are taken after a move: those that were, and those that it completes. -/
theorem haswinner_set_iff (h : owner x y = none) :
    haswinner (Board.set owner x y (some ply)) line = true ↔
      haswinner owner line = true ∨ Completes owner ply x y line := by
  rw [haswinner_iff, haswinner_iff]
  constructor
  · rintro ⟨who, hwho⟩
    by_cases hon : ∃ i, line i = (x, y)
    · obtain ⟨i, hi⟩ := hon
      have hply : ply = who := by simpa [set_apply, hi] using hwho i
      exact Or.inr ⟨⟨i, hi⟩, fun j hj => by simpa [set_apply, hj, hply] using hwho j⟩
    · have hoff := not_exists.mp hon
      exact Or.inl ⟨who, fun i => by simpa [set_apply, hoff i] using hwho i⟩
  · rintro (⟨who, hwho⟩ | ⟨-, hrest⟩)
    · refine ⟨who, fun i => ?_⟩
      have hne : line i ≠ (x, y) := fun hi => by simpa [hi, h] using hwho i
      simpa [set_apply, hne] using hwho i
    · refine ⟨ply, fun i => ?_⟩
      by_cases hi : line i = (x, y)
      · simp [set_apply, hi]
      · simpa [set_apply, hi] using hrest i hi

theorem Completes.set_eq (hc : Completes owner ply x y line) (i : Fin 3) :
    Board.set owner x y (some ply) (line i).1 (line i).2 = some ply := by
  by_cases hi : line i = (x, y)
  · simp [set_apply, hi]
  · simpa [set_apply, hi] using hc.2 i hi

/-- A move that completes the first of the taken lines makes its player the winner. -/
theorem checkWinner_set_of_completesFirst (h : owner x y = none) (hc : CompletesFirst owner ply x y)
    (winner : Option Player) :
    checkWinner (Board.set owner x y (some ply)) winner = some ply := by
  obtain ⟨before, line, after, hlines, hline, hbefore⟩ := hc
  have hfind : ∃ first, lines.find? (haswinner (Board.set owner x y (some ply))) = some first ∧
      Completes owner ply x y first := by
    rw [hlines, List.find?_append]
    cases hb : before.find? (haswinner (Board.set owner x y (some ply))) with
    | some first =>
      have hfirst := (haswinner_set_iff h).mp (List.find?_some hb)
      refine ⟨first, rfl, hfirst.resolve_left ?_⟩
      simp [hbefore first (List.mem_of_find?_eq_some hb)]
    | none =>
      have hw := (haswinner_set_iff h).mpr (Or.inr hline)
      exact ⟨line, by simp [hw], hline⟩
  obtain ⟨first, hfirst, hcompletes⟩ := hfind
  rw [checkWinner, hfirst]
  exact hcompletes.set_eq 0

/-- Any other move leaves the winner as it is. -/
theorem checkWinner_set_of_not (h : owner x y = none) (hc : ¬ CompletesFirst owner ply x y)
    (winner : Option Player) :
    checkWinner (Board.set owner x y (some ply)) winner = checkWinner owner winner := by
  have hset : ∀ line, haswinner owner line = true →
      Board.set owner x y (some ply) (line 0).1 (line 0).2 = owner (line 0).1 (line 0).2 := by
    intro line hw
    obtain ⟨who, hwho⟩ := haswinner_iff.mp hw
    have hne : line 0 ≠ (x, y) := fun h0 => by simpa [h0, h] using hwho 0
    simp [set_apply, hne]
  have hfind : lines.find? (haswinner (Board.set owner x y (some ply))) = lines.find? (haswinner owner) := by
    cases hf : lines.find? (haswinner (Board.set owner x y (some ply))) with
    | none =>
      refine (List.find?_eq_none.mpr fun line hline hw => ?_).symm
      exact List.find?_eq_none.mp hf line hline ((haswinner_set_iff h).mpr (Or.inl hw))
    | some line =>
      obtain ⟨hw, before, after, hlines, hbefore⟩ := List.find?_eq_some_iff_append.mp hf
      have hfree : ∀ taken ∈ before, haswinner owner taken = false := fun taken htaken =>
        Bool.eq_false_iff.mpr fun ht => by
          simpa [(haswinner_set_iff h).mpr (Or.inl ht)] using hbefore taken htaken
      have hold : haswinner owner line = true := ((haswinner_set_iff h).mp hw).resolve_right fun hline =>
        hc ⟨before, line, after, hlines, hline, hfree⟩
      exact (List.find?_eq_some_iff_append.mpr
        ⟨hold, before, after, hlines, fun taken htaken => by simp [hfree taken htaken]⟩).symm
  rw [checkWinner, checkWinner, hfind]
  cases hf : lines.find? (haswinner owner) with
  | none => rfl
  | some line => exact hset line (List.find?_some hf)

end Lines

/-! ### A call -/

/-- The small board after a move that it accepts. -/
def Move.mark (m : Move) (b : BoardLarge) : BoardSmall :=
  let moves := Board.set (m.target b).moves m.xpos m.ypos (some m.ply)
  ⟨(m.target b).movecount + 1, checkWinner moves (m.target b).winner, moves⟩

/-- The boards after a move that they accept. -/
def Move.place (m : Move) (b : BoardLarge) : BoardLarge :=
  let boards := Board.set b.boards m.xboard m.yboard (m.mark b)
  { movecount := if (m.mark b).boardFinished then b.movecount + 1 else b.movecount
    boards := boards
    forcedboard := if (boards m.xpos m.ypos).boardFinished then none else some (m.xpos, m.ypos)
    winner := checkWinner (fun x y => (boards x y).winner) b.winner }

/-- The boards after a move that the small board rejects. -/
def Move.bounce (m : Move) (b : BoardLarge) : BoardLarge :=
  { b with
    movecount := if (m.target b).boardFinished then b.movecount + 1 else b.movecount
    winner := checkWinner (winners b) b.winner }

section Call
variable {b : BoardLarge} {m : Move}

theorem free_iff : Free b m ↔ b.forcedboard = none ∨ b.forcedboard = some (m.xboard, m.yboard) := by
  unfold Free
  cases b.forcedboard <;> simp [eq_comm]

theorem make_eq : m.make b =
    if b.forcedboard = none ∨ b.forcedboard = some (m.xboard, m.yboard) then
      .ok (b.makeMoveOn (some m.ply) m.xboard m.yboard m.xpos m.ypos)
    else .ok (false, b) := by
  have hindex : ∀ i : Fin 3, index (i.val : ℤ) = .ok i := fun i => by
    have hi := i.isLt
    rw [index, dif_pos (by omega)]
    simp
  have hbound : ¬ ((m.xboard.val : ℤ) > 2 ∨ (m.yboard.val : ℤ) > 2 ∨ (m.xpos.val : ℤ) > 2 ∨
      (m.ypos.val : ℤ) > 2) := by omega
  unfold Move.make BoardLarge.makeMove
  rw [if_neg hbound, hindex, hindex, hindex, hindex]
  rfl

theorem make_of_not_free (h : ¬ Free b m) : m.make b = .ok (false, b) := by
  rw [make_eq, if_neg (mt free_iff.mpr h)]

theorem make_of_empty (h : Free b m) (hempty : (m.target b).moves m.xpos m.ypos = none) :
    m.make b = .ok (true, m.place b) := by
  unfold Move.target at hempty
  rw [make_eq, if_pos (free_iff.mp h), BoardLarge.makeMoveOn, BoardSmall.makeMove, if_neg (by simp [hempty])]
  rfl

theorem make_of_taken (h : Free b m) (htaken : (m.target b).moves m.xpos m.ypos ≠ none) :
    m.make b = .ok (false, m.bounce b) := by
  unfold Move.target at htaken
  have hsome := Option.isSome_iff_ne_none.mpr htaken
  rw [make_eq, if_pos (free_iff.mp h), BoardLarge.makeMoveOn, BoardSmall.makeMove, if_pos hsome]
  simp only [set_self]
  rfl

end Call

/-! ### What the boards know -/

/-- The counter and the winner of a small board are right. -/
structure Marked (b : BoardSmall) : Prop where
  winner : b.winner = checkWinner b.moves none
  count : b.movecount = count fun x y => (b.moves x y).isSome

/-- **The invariant**: those of all boards are. -/
structure Inv (b : BoardLarge) : Prop where
  small : ∀ x y, Marked (b.boards x y)
  large : b.winner = checkWinner (winners b) none
  count : b.movecount = count fun x y => (b.boards x y).boardFinished

theorem Marked.boardFinished_iff {b : BoardSmall} (h : Marked b) : b.boardFinished = true ↔ Finished b := by
  simp only [BoardSmall.boardFinished, Finished, h.count, Bool.or_eq_true, decide_eq_true_eq, count_eq_nine]

theorem Inv.boardFinished_iff {b : BoardLarge} (h : Inv b) :
    b.boardFinished = true ↔ b.winner.isSome ∨ ∀ x y, Finished (b.boards x y) := by
  simp only [BoardLarge.boardFinished, h.count, Bool.or_eq_true, decide_eq_true_eq, count_eq_nine,
    fun x y => (h.small x y).boardFinished_iff]

theorem Inv.target {b : BoardLarge} (h : Inv b) (m : Move) : Marked (m.target b) := h.small _ _

theorem inv_newBoardLarge : Inv newBoardLarge := by
  have hsmall : Marked newBoardSmall := ⟨by decide, by decide⟩
  exact ⟨fun _ _ => hsmall, by decide, by decide⟩

theorem checkWinner_self {owner : Fin 3 → Fin 3 → Option Player} {winner : Option Player}
    (h : winner = checkWinner owner none) : checkWinner owner winner = winner := by
  unfold checkWinner at h ⊢
  split at h <;> simp_all

/-! ### A lawful call -/

section Lawful
variable {b : BoardLarge} {m : Move}

theorem winner_of_not_finished (h : ¬ Finished (m.target b)) : (m.target b).winner = none :=
  Option.not_isSome_iff_eq_none.mp fun hw => h (Or.inl hw)

theorem marked_mark (hb : Inv b) (hopen : ¬ Finished (m.target b))
    (hempty : (m.target b).moves m.xpos m.ypos = none) : Marked (m.mark b) := by
  refine ⟨?_, ?_⟩
  · rw [Move.mark, winner_of_not_finished hopen]
  · have hcount := (hb.target m).count
    have hset := map_set (x := m.xpos) (y := m.ypos) (a := (m.target b).moves) Option.isSome (some m.ply)
    simp only [Move.mark, hset, Option.isSome_some]
    rw [count_set (by simp [hempty])]
    exact congrArg (· + 1) hcount

open Classical in
/-- The winner of the small board, which had none. -/
theorem winner_mark (hb : Inv b) (hopen : ¬ Finished (m.target b))
    (hempty : (m.target b).moves m.xpos m.ypos = none) :
    (m.mark b).winner =
      if CompletesFirst (m.target b).moves m.ply m.xpos m.ypos then some m.ply else none := by
  have hnone := winner_of_not_finished hopen
  simp only [Move.mark]
  split_ifs with hc
  · exact checkWinner_set_of_completesFirst hempty hc _
  · rw [checkWinner_set_of_not hempty hc, hnone, ← (hb.target m).winner, hnone]

theorem winners_place : winners (m.place b) = Board.set (winners b) m.xboard m.yboard (m.mark b).winner :=
  map_set BoardSmall.winner (m.mark b)

open Classical in
/-- What the lines of the large board say after the move. -/
theorem checkWinner_place (hb : Inv b) (hopen : ¬ Finished (m.target b))
    (hempty : (m.target b).moves m.xpos m.ypos = none) (winner : Option Player) :
    checkWinner (winners (m.place b)) winner =
      if CompletesFirst (m.target b).moves m.ply m.xpos m.ypos ∧
          CompletesFirst (winners b) m.ply m.xboard m.yboard then some m.ply
      else checkWinner (winners b) winner := by
  have hnone : winners b m.xboard m.yboard = none := winner_of_not_finished hopen
  rw [winners_place, winner_mark hb hopen hempty]
  by_cases hsmall : CompletesFirst (m.target b).moves m.ply m.xpos m.ypos
  · rw [if_pos hsmall]
    by_cases hlarge : CompletesFirst (winners b) m.ply m.xboard m.yboard
    · rw [if_pos ⟨hsmall, hlarge⟩, checkWinner_set_of_completesFirst hnone hlarge]
    · rw [if_neg fun h => hlarge h.2, checkWinner_set_of_not hnone hlarge]
  · have hself : Board.set (winners b) m.xboard m.yboard none = winners b := by
      conv_lhs => rw [← hnone]
      exact set_self
    rw [if_neg hsmall, if_neg fun h => hsmall h.1, hself]

theorem inv_place (hb : Inv b) (hopen : ¬ Finished (m.target b))
    (hempty : (m.target b).moves m.xpos m.ypos = none) : Inv (m.place b) := by
  refine ⟨fun x y => ?_, ?_, ?_⟩
  · simp only [Move.place, set_apply]
    split_ifs
    · exact marked_mark hb hopen hempty
    · exact hb.small x y
  · change checkWinner (winners (m.place b)) b.winner = _
    rw [checkWinner_place hb hopen hempty, checkWinner_place hb hopen hempty, checkWinner_self hb.large,
      ← hb.large]
  · have hopen' : (m.target b).boardFinished = false :=
      Bool.eq_false_iff.mpr (mt (hb.target m).boardFinished_iff.mp hopen)
    have hset := map_set (x := m.xboard) (y := m.yboard) (a := b.boards) BoardSmall.boardFinished (m.mark b)
    simp only [Move.place, hset]
    split_ifs with hfinished
    · rw [hfinished, count_set hopen', hb.count]
    · rw [Bool.not_eq_true] at hfinished
      rw [hfinished, ← hopen', hb.count]
      exact congrArg count set_self.symm

theorem bounce_eq (hb : Inv b) (hopen : ¬ Finished (m.target b)) : m.bounce b = b := by
  have hopen' : (m.target b).boardFinished = false :=
    Bool.eq_false_iff.mpr (mt (hb.target m).boardFinished_iff.mp hopen)
  simp [Move.bounce, hopen', checkWinner_self hb.large]

/-- A lawful call keeps the rules. -/
theorem kept_of_lawful (hb : Inv b) (hlawful : Lawful b m) :
    ∃ wasvalid b', m.make b = .ok (wasvalid, b') ∧ Kept b m wasvalid b' ∧ Inv b' := by
  have hself : ∀ {wasvalid}, (wasvalid = true ↔
      ¬ Finished (m.target b) ∧ (m.target b).moves m.xpos m.ypos = none ∧ Free b m) →
        Kept b m wasvalid b := fun haccepted =>
    ⟨haccepted, fun _ => rfl, fun _ _ _ => id, fun _ => id, hb.boardFinished_iff⟩
  by_cases hfree : Free b m
  · have hopen := hlawful.1 hfree
    by_cases hempty : (m.target b).moves m.xpos m.ypos = none
    · have hinv := inv_place hb hopen hempty
      refine ⟨_, _, make_of_empty hfree hempty, ⟨?_, by simp, fun x y w hw => ?_, fun w hw => ?_, ?_⟩, hinv⟩
      · exact iff_of_true rfl ⟨hopen, hempty, hfree⟩
      · have hne : (x, y) ≠ (m.xboard, m.yboard) := by
          rintro ⟨⟩
          simp [show (b.boards m.xboard m.yboard).winner = none from winner_of_not_finished hopen] at hw
        simpa [Move.place, set_apply, hne] using hw
      · have hwinner := checkWinner_place hb hopen hempty b.winner
        change checkWinner (winners (m.place b)) b.winner = _
        rw [hwinner, checkWinner_self hb.large]
        split_ifs with hboth
        · by_contra hne
          exact hlawful.2 ⟨hempty, hfree, ⟨w, hw, fun heq => hne (congrArg some heq.symm)⟩, hboth⟩
        · exact hw
      · exact hinv.boardFinished_iff
    · exact ⟨_, _, bounce_eq hb hopen ▸ make_of_taken hfree hempty, hself (by simp [hempty]), hb⟩
  · exact ⟨_, _, make_of_not_free hfree, hself (by simp [hfree]), hb⟩

/-- Any other call breaks one. -/
theorem not_enforced_of_not_lawful (hb : Inv b) (hlawless : ¬ Lawful b m) : ¬ Enforced b m := by
  rintro ⟨wasvalid, b', hmake, hkept⟩
  by_cases hopen : Free b m → ¬ Finished (m.target b)
  · obtain ⟨hempty, hfree, ⟨w, hw, hne⟩, hboth⟩ := not_not.mp fun h => hlawless ⟨hopen, h⟩
    obtain ⟨rfl, rfl⟩ := Prod.mk.inj (Except.ok.inj ((make_of_empty hfree hempty).symm.trans hmake))
    have hwinner := (checkWinner_place hb (hopen hfree) hempty b.winner).trans (if_pos hboth)
    exact hne (Option.some.inj ((hkept.large w hw).symm.trans hwinner))
  · rw [Classical.not_imp, not_not] at hopen
    obtain ⟨hfree, hfinished⟩ := hopen
    by_cases hempty : (m.target b).moves m.xpos m.ypos = none
    · obtain ⟨rfl, rfl⟩ := Prod.mk.inj (Except.ok.inj ((make_of_empty hfree hempty).symm.trans hmake))
      exact (hkept.accepted.mp rfl).1 hfinished
    · obtain ⟨rfl, rfl⟩ := Prod.mk.inj (Except.ok.inj ((make_of_taken hfree hempty).symm.trans hmake))
      have hcount := congrArg BoardLarge.movecount (hkept.rejected rfl)
      simp [Move.bounce, (hb.target m).boardFinished_iff.mpr hfinished] at hcount

end Lawful

/-- **When the rules are kept**: exactly in the runs whose calls are all lawful. -/
theorem along_enforced_iff (l : List Move) :
    Along step Enforced newBoardLarge l ↔ Along step Lawful newBoardLarge l := by
  refine along_congr (J := Inv) (fun b m b' hb hlawful hstep => ?_) (fun b m b' hb _ => ?_) inv_newBoardLarge
  · obtain ⟨wasvalid, b'', hmake, -, hinv⟩ := kept_of_lawful hb hlawful
    simp only [step, hmake, Option.some.injEq] at hstep
    exact hstep ▸ hinv
  · constructor
    · exact not_imp_not.mp (not_enforced_of_not_lawful hb)
    · intro hlawful
      obtain ⟨wasvalid, b'', hmake, hkept, -⟩ := kept_of_lawful hb hlawful
      exact ⟨wasvalid, b'', hmake, hkept⟩

-- For the numerals of the cells below.
local instance neZero_three : NeZero 3 := ⟨by decide⟩

/-- The two players take turns, and the second one wins the small board in the corner. -/
def cornerWon : List Move :=
  let ply1 : Player := ⟨0, 1⟩
  let ply2 : Player := ⟨1, 2⟩
  [⟨ply1, 0, 0, 0, 0⟩, ⟨ply2, 0, 0, 1, 1⟩, ⟨ply1, 1, 1, 0, 0⟩, ⟨ply2, 0, 0, 2, 0⟩, ⟨ply1, 2, 0, 0, 0⟩,
    ⟨ply2, 0, 0, 0, 2⟩, ⟨ply1, 0, 2, 0, 0⟩]

/-- A move on that board, while no board is forced. -/
def afterwards : Move := ⟨⟨1, 2⟩, 0, 0, 1, 0⟩

theorem not_enforced_afterwards : ¬ ∀ l, Along step Enforced newBoardLarge l := by
  intro h
  obtain ⟨b, hrun, hwon⟩ : ∃ b, run step newBoardLarge cornerWon = some b ∧
      ((afterwards.target b).winner.isSome, (afterwards.make b).toOption.map Prod.fst) = (true, some true) :=
    Option.map_eq_some_iff.mp (by decide +kernel)
  obtain ⟨hwinner, hvalid⟩ := Prod.mk.inj hwon
  cases hmake : afterwards.make b with
  | error e => simp [hmake, Except.toOption] at hvalid
  | ok r =>
    have hone := (along_append.mp (h (cornerWon ++ [afterwards]))).2 b hrun r.2 (by simp [step, hmake])
    obtain ⟨wasvalid, b', hmake', hkept⟩ := hone.1
    obtain rfl : wasvalid = true := by simpa [hmake', Except.toOption] using hvalid
    exact (hkept.accepted.mp rfl).1 (Or.inl hwinner)

end N64NetLib.TicTacToe.Referee
