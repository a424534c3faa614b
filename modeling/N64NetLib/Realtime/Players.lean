import N64NetLib.Packet.Basic
import N64NetLib.Packet.Sequence

/-! # The players of the Realtime server

The player array of `Game.java`, and how `ClientConnectionThread` passes on what a connected client
sends. A player object is in one slot of the array only, so that the slot stands for the object. The
numbers of the players are an invariant of the array, carried by `Game` (`Game.numbered`): whoever is in
slot `i` has number `i + 1` and bit `i`. -/

namespace N64NetLib.Realtime.Players

open N64NetLib.Packet.Basic N64NetLib.Packet.Sequence

/-- `Player`, as far as packets are concerned. -/
structure Player where
  number : ℤ
  bitmask : BitVec 32
  messages : List AbstractPacket
deriving DecidableEq, Repr

/-- The constructor. -/
def newPlayer : Player := ⟨0, 0, []⟩

/-- `Player.SetNumber`. -/
def Player.setNumber (number : ℤ) (ply : Player) : Player :=
  { ply with number := number, bitmask := javaShiftOne (number - 1) }

/-- The type of a NetLib packet, and its recipients. -/
def typeOf (pkt : AbstractPacket) : UInt8 :=
  match pkt.body with
  | .netlib type .. => type
  | .s64 _ => 0

def recipientsOf (pkt : AbstractPacket) : BitVec 32 :=
  match pkt.body with
  | .netlib _ recipients _ => recipients
  | .s64 _ => 0

/-- The packet with another sender. -/
def setSender (sender : ℤ) (pkt : AbstractPacket) : AbstractPacket :=
  match pkt.body with
  | .netlib type recipients _ => { pkt with body := .netlib type recipients sender }
  | .s64 _ => pkt

/-- The copy that `Player.SendMessage` makes. -/
def duplicate (sender : ℤ) (pkt : AbstractPacket) : AbstractPacket :=
  setSender sender (newNetLibPacket 0 (typeOf pkt) pkt.data pkt.flags)

/-- `Player.SendMessage`. -/
def Player.sendMessage (sender : ℤ) (pkt : AbstractPacket) (ply : Player) : Player :=
  { ply with messages := ply.messages ++ [duplicate sender pkt] }

/-- `MAXPLAYERS`. -/
abbrev maxPlayers : ℕ := 32

/-- `Game`, as far as packets are concerned. -/
structure Game where
  players : Fin maxPlayers → Option Player
  messages : List AbstractPacket
  numbered : ∀ i ply, players i = some ply → ply.number = i.val + 1 ∧ ply.bitmask = javaShiftOne i.val

/-- No player yet. -/
def newGame : Game := ⟨fun _ => none, [], by simp⟩

/-- The game with a player of this number in the slot. -/
def Game.fill (game : Game) (i : Fin maxPlayers) (ply : Player)
    (hply : ply.number = i.val + 1 ∧ ply.bitmask = javaShiftOne i.val) : Game where
  players := Function.update game.players i (some ply)
  messages := game.messages
  numbered := by
    intro j q hq
    by_cases hj : j = i
    · subst hj
      rw [Function.update_self, Option.some.injEq] at hq
      exact hq ▸ hply
    · rw [Function.update_of_ne hj] at hq
      exact game.numbered j q hq

/-- `Game.ConnectPlayer`: the first empty slot, with the game in which it is taken. -/
def connectPlayer (game : Game) : Option (Fin maxPlayers × Game) :=
  ((List.finRange maxPlayers).find? fun i => (game.players i).isNone).map fun i =>
    (i, game.fill i (newPlayer.setNumber (i.val + 1)) ⟨rfl, by simp [Player.setNumber]⟩)

/-- `Game.SendMessage`. -/
def Game.sendMessage (sender : ℤ) (pkt : AbstractPacket) (game : Game) : Game :=
  { game with messages := game.messages ++ [setSender sender pkt] }

/-- The number of the player in the slot. -/
def number (i : Fin maxPlayers) : ℤ := i.val + 1

/-- A copy for the player in the slot. -/
def Game.queue (game : Game) (i : Fin maxPlayers) (ply : Player) (hply : game.players i = some ply)
    (sender : ℤ) (pkt : AbstractPacket) : Game :=
  game.fill i (ply.sendMessage sender pkt) (game.numbered i ply hply)

/-- The loop that relays a packet of player `me` to the players of the slots, in order; an empty slot
ends it with a `NullPointerException`, which is the second result. -/
def relayLoop (me : Fin maxPlayers) (pkt : AbstractPacket) :
    List (Fin maxPlayers) → Game → Game × Bool
  | [], game => (game, false)
  | i :: slots, game =>
    if i = me then relayLoop me pkt slots game
    else
      match hply : game.players i with
      | none => (game, true)
      | some ply =>
        if recipientsOf pkt &&& ply.bitmask ≠ 0 then
          relayLoop me pkt slots (game.queue i ply hply (number me) pkt)
        else relayLoop me pkt slots game

/-- `HandleNetLibPackets`, for a client that is connected as player `me`. -/
def handleConnected (me : Fin maxPlayers) (pkt : AbstractPacket) (game : Game) : Game × Bool :=
  if typeOf pkt = 0 then (game, false)
  else if recipientsOf pkt ≠ 0 then relayLoop me pkt (List.finRange maxPlayers) game
  else (game.sendMessage (number me) pkt, false)

/-! ### Who is reached -/

/-- The loop over the slots gets to slot `i` and finds a player there. -/
def Reached (me : Fin maxPlayers) (slots : List (Fin maxPlayers)) (game : Game)
    (i : Fin maxPlayers) : Prop :=
  i ∈ slots ∧ i ≠ me ∧ ∀ j ∈ slots, j ≤ i → j ≠ me → (game.players j).isSome

/-- Bit `i` of a mask against the bit of the player in slot `i`. -/
theorem and_bitmask_ne_zero (mask : BitVec 32) (i : Fin maxPlayers) :
    mask &&& javaShiftOne i.val ≠ 0 ↔ mask.getLsbD i = true := by
  have hi := i.isLt
  rw [javaShiftOne_of_lt (by omega)]
  exact and_shiftLeft_ne_zero (by omega)

theorem queue_players {game : Game} {i : Fin maxPlayers} {ply : Player}
    (hply : game.players i = some ply) (sender : ℤ) (pkt : AbstractPacket) :
    (game.queue i ply hply sender pkt).players =
      Function.update game.players i (some (ply.sendMessage sender pkt)) := rfl

theorem isSome_queue {game : Game} {i : Fin maxPlayers} {ply : Player}
    (hply : game.players i = some ply) (sender : ℤ) (pkt : AbstractPacket) (j : Fin maxPlayers) :
    ((game.queue i ply hply sender pkt).players j).isSome = (game.players j).isSome := by
  rw [queue_players]
  by_cases hj : j = i
  · simp [hj, hply]
  · rw [Function.update_of_ne hj]

section RelayLoop

variable {me : Fin maxPlayers} {pkt : AbstractPacket} {slots : List (Fin maxPlayers)} {game : Game}

theorem relayLoop_messages : ∀ (slots : List (Fin maxPlayers)) (game : Game),
    (relayLoop me pkt slots game).1.messages = game.messages
  | [], _ => rfl
  | i :: slots, game => by
    unfold relayLoop
    split_ifs with hi
    · exact relayLoop_messages slots game
    · split
      · rfl
      · split_ifs
        · rw [relayLoop_messages slots]; rfl
        · exact relayLoop_messages slots game

theorem reached_cons_me {i : Fin maxPlayers} :
    Reached me (me :: slots) game i ↔ Reached me slots game i := by
  simp only [Reached, List.mem_cons, forall_eq_or_imp, ne_eq, not_true_eq_false, false_imp_iff,
    implies_true, true_and]
  constructor
  · rintro ⟨hmem, hne, h⟩
    exact ⟨hmem.resolve_left hne, hne, h⟩
  · rintro ⟨hmem, hne, h⟩
    exact ⟨Or.inr hmem, hne, h⟩

theorem not_reached_cons_none {i j : Fin maxPlayers} (hs : (j :: slots).Pairwise (· < ·))
    (hj : j ≠ me) (hnone : game.players j = none) : ¬ Reached me (j :: slots) game i := by
  rintro ⟨hmem, -, h⟩
  have hle : j ≤ i := by
    rcases List.mem_cons.mp hmem with rfl | hmem
    · exact le_rfl
    · exact (List.rel_of_pairwise_cons hs hmem).le
  simpa [hnone] using h j (by simp) hle hj

theorem reached_cons_some {i j : Fin maxPlayers} (hij : i ≠ j) (hsome : (game.players j).isSome) :
    Reached me (j :: slots) game i ↔ Reached me slots game i := by
  simp only [Reached, List.mem_cons, forall_eq_or_imp, hsome, implies_true, true_and]
  exact and_congr_left fun _ => or_iff_right hij

/-- **The players after the loop**: those that were reached and addressed have a copy more. -/
theorem relayLoop_players (me : Fin maxPlayers) (pkt : AbstractPacket) :
    ∀ {slots : List (Fin maxPlayers)}, slots.Pairwise (· < ·) →
    ∀ (game : Game) (i : Fin maxPlayers),
      (Reached me slots game i ∧ (recipientsOf pkt).getLsbD i →
        (relayLoop me pkt slots game).1.players i =
          (game.players i).map (Player.sendMessage (number me) pkt)) ∧
      (¬ (Reached me slots game i ∧ (recipientsOf pkt).getLsbD i) →
        (relayLoop me pkt slots game).1.players i = game.players i)
  | [], _, game, i => by simp [Reached, relayLoop]
  | j :: slots, hs, game, i => by
    have ih := relayLoop_players me pkt (List.pairwise_cons.mp hs).2
    unfold relayLoop
    split_ifs with hj
    · subst hj
      rw [reached_cons_me]
      exact ih game i
    split
    · next hnone => simp [not_reached_cons_none hs hj hnone]
    next ply hply =>
    have hsome : (game.players j).isSome := by simp [hply]
    have hbit : recipientsOf pkt &&& ply.bitmask ≠ 0 ↔ (recipientsOf pkt).getLsbD j = true := by
      rw [(game.numbered j ply hply).2]
      exact and_bitmask_ne_zero _ j
    by_cases hij : i = j
    · -- the slot itself: the rest of the loop does not come back to it
      subst hij
      have hno : ∀ game, ¬ Reached me slots game i := fun game h =>
        lt_irrefl i (List.rel_of_pairwise_cons hs h.1)
      have hreached : Reached me (i :: slots) game i := by
        refine ⟨by simp, hj, fun k hk hki _ => ?_⟩
        rcases List.mem_cons.mp hk with rfl | hk
        · exact hsome
        · exact absurd (List.rel_of_pairwise_cons hs hk) (not_lt.mpr hki)
      split_ifs with hmask
      · rw [(ih _ i).2 fun h => hno _ h.1, queue_players, Function.update_self]
        simp [hreached, hbit.mp hmask, hply]
      · rw [(ih _ i).2 fun h => hno _ h.1]
        exact ⟨fun h => absurd (hbit.mpr h.2) hmask, fun _ => rfl⟩
    · split_ifs with hmask
      · have hsame := isSome_queue hply (number me) pkt
        have hreached : Reached me (j :: slots) game i ↔
            Reached me slots (game.queue j ply hply (number me) pkt) i := by
          rw [reached_cons_some hij hsome]
          simp only [Reached, hsame]
        rw [hreached]
        have hplayers : (game.queue j ply hply (number me) pkt).players i = game.players i := by
          rw [queue_players, Function.update_of_ne hij]
        rw [← hplayers]
        exact ih _ i
      · rw [reached_cons_some hij hsome]
        exact ih game i

end RelayLoop

end N64NetLib.Realtime.Players
