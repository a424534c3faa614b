import N64NetLib.Lib.Run
import N64NetLib.Packet.Java
import N64NetLib.Realtime.Players
import N64NetLib.TicTacToe.Board

/-! # Does the Tic Tac Toe game survive its players?

`Game.run` of the Tic Tac Toe server, with `ConnectPlayer`, `DisconnectPlayer` and the messages of the
players at any point of it. A step of the game thread reads or writes one of the fields it shares with
the threads of the clients (`state`, `turn`, a slot of `players`, the queue) once; `ConnectPlayer` and
`DisconnectPlayer` are `synchronized` and are one step each. What is sent to the players has no effect on
the game and is left out, but for what it throws.

`turn` is set to null by a disconnect in the state `PLAYING`, while the thread goes on to use it, and is
not touched by one in any other state, so that a player who has left keeps the turn. `sound_iff` says
exactly which reads must go well. -/

namespace N64NetLib.TicTacToe.Game

open N64NetLib.Lib.Run N64NetLib.Packet N64NetLib.Packet.Basic N64NetLib.GameServer.Slots
open N64NetLib.TicTacToe.Board
open N64NetLib.Realtime.Players (typeOf setSender)

/-! ### The game -/

/-- `GameState`. -/
inductive GameState
  | lobby
  | ready
  | playing
  | endedWinner1
  | endedWinner2
  | endedTie
  | endedDisconnect
deriving DecidableEq, Repr

/-- `PACKETID_PLAYERREADY`, `PACKETID_PLAYERMOVE`. -/
def playerReady : UInt8 := 5

def playerMove : UInt8 := 8

/-- `GetSender`. -/
def senderOf (pkt : AbstractPacket) : ℤ :=
  match pkt.body with
  | .netlib _ _ sender => sender
  | .s64 _ => 0

/-- A byte of the payload, as an `int`. -/
def byteAt (pkt : AbstractPacket) (i : ℕ) : ℤ := (pkt.data.getD i 0).toBitVec.toInt

/-- Where the game thread is: in front of the next read or write of a field that it shares, with what
it has read. -/
inductive Stage
  /-- The lobby: `ChangeGameState(LOBBY)`, the two reads of `PlayerCount`, `poll`. -/
  | starting
  | waiting (ready1 ready2 : Bool)
  | counting (ready1 ready2 seat1 : Bool)
  | lobby (ready1 ready2 : Bool)
  /-- The beginning of a game: `READY`, `PLAYING`, and the three accesses that choose who begins. -/
  | readying
  | setting
  | choosing
  | taking
  | storing (who : Option Player)
  /-- `ChangePlayerTurn(this.turn)`, and its body for a first turn or after a move. -/
  | announcing
  | changing (moved : Bool) (who : Option Player)
  | printing
  /-- The game: the `while`, `poll` and the check of the packet, `MakeMove`, `NotifyMove`. -/
  | looping
  | receiving
  | moving (pkt : AbstractPacket)
  | notifying (boardx boardy : ℤ)
  /-- `this.turn == this.players[0]`, and the player whose turn it is now. -/
  | comparing
  | passing (turn : Option Player)
  | fetching (seat : Fin 2)
  | judging
  /-- The end of a game. -/
  | finishing
  | tallying (seat1 : Bool)
  | ending (state : GameState)
  /-- An exception has ended `run`. -/
  | died
deriving DecidableEq

/-- `Game`, and the moves accepted in the present game, by the number of the player. -/
structure State where
  state : GameState
  slots : PlayerArray 2
  board : BoardLarge
  turn : Option Player
  messages : List AbstractPacket
  stage : Stage
  moves : List (Option ℕ)

/-- The constructor. -/
def init : State := ⟨.lobby, newPlayerArray 2, newBoardLarge, none, [], .starting, []⟩

/-- `poll` in the lobby, and what it does to the flags. An exception is caught, but for a packet without
data it comes before the flag is set. -/
def pollLobby (s : State) (ready1 ready2 : Bool) : State :=
  match s.messages with
  | [] => { s with stage := .waiting ready1 ready2 }
  | pkt :: rest =>
    let s := { s with messages := rest }
    if typeOf pkt ≠ playerReady ∨ pkt.data = [] then { s with stage := .waiting ready1 ready2 }
    else if senderOf pkt = 1 then { s with stage := .waiting (byteAt pkt 0 = 1) ready2 }
    else { s with stage := .waiting ready1 (byteAt pkt 0 = 1) }

/-- `poll` in the game, and the check of the packet. -/
def receive (s : State) : State :=
  match s.messages with
  | [] => { s with stage := .looping }
  | pkt :: rest =>
    let s := { s with messages := rest }
    if typeOf pkt ≠ playerMove then { s with stage := .looping }
    else
      match s.turn with
      | none => { s with stage := .died }
      | some ply =>
        if senderOf pkt ≠ ply.number ∨ (Java.size pkt.data).toInt < 4 then { s with stage := .looping }
        else { s with stage := .moving pkt }

/-- `MakeMove` for the coordinates of the packet. -/
def tryMove (s : State) (pkt : AbstractPacket) : Except Exn (Bool × BoardLarge) :=
  s.board.makeMove s.turn (byteAt pkt 0) (byteAt pkt 1) (byteAt pkt 2) (byteAt pkt 3)

/-- The move is accepted. -/
def accepts (s : State) (pkt : AbstractPacket) : Bool :=
  match tryMove s pkt with
  | .ok (true, _) => true
  | _ => false

/-- The move, if it is accepted; an exception is caught. -/
def move (s : State) (pkt : AbstractPacket) : State :=
  match tryMove s pkt with
  | .error _ => { s with stage := .looping }
  | .ok (false, board) => { s with board := board, stage := .looping }
  | .ok (true, board) =>
    { s with
      board := board, moves := s.moves ++ [s.turn.map (·.number)]
      stage := .notifying (byteAt pkt 0) (byteAt pkt 1) }

/-- `GetNumber` of the player whose turn it is, before the thread goes on. -/
def withTurn (s : State) (stage : Stage) : State :=
  match s.turn with
  | none => { s with stage := .died }
  | some _ => { s with stage := stage }

/-- `GetBoard` of the board of the move, before the thread goes on. -/
def afterMove (s : State) (boardx boardy : ℤ) : Stage :=
  match s.board.getBoard boardx boardy with
  | .error _ => .died
  | .ok _ => .comparing

/-- `ChangePlayerTurn`. -/
def changePlayerTurn (s : State) (moved : Bool) : Option Player → State
  | none => { s with stage := .died }
  | some ply => { s with turn := some ply, stage := if moved then .judging else .printing }

/-- The game thread goes on to its next access to a shared field. -/
def play (s : State) : State :=
  match s.stage with
  | .starting => { s with state := .lobby, stage := .waiting false false }
  | .waiting ready1 ready2 =>
    { s with
      stage :=
        if ready1 && ready2 then .readying else .counting ready1 ready2 (s.slots.players 0).isSome }
  | .counting ready1 ready2 seat1 =>
    { s with
      stage :=
        if seat1 && (s.slots.players 1).isSome then .lobby ready1 ready2 else .waiting false false }
  | .lobby ready1 ready2 => pollLobby s ready1 ready2
  | .readying => { s with state := .ready, stage := .setting }
  | .setting => { s with state := .playing, board := newBoardLarge, moves := [], stage := .choosing }
  | .choosing => { s with stage := if s.turn = none then .taking else .announcing }
  | .taking => { s with stage := .storing (s.slots.players 0) }
  | .storing who => { s with turn := who, stage := .announcing }
  | .announcing => { s with stage := .changing false s.turn }
  | .changing moved who => changePlayerTurn s moved who
  | .printing => withTurn s .looping
  | .looping => { s with stage := if s.state = .playing then .receiving else .finishing }
  | .receiving => receive s
  | .moving pkt => move s pkt
  | .notifying boardx boardy => withTurn s (afterMove s boardx boardy)
  | .comparing => { s with stage := .passing s.turn }
  | .passing turn => { s with stage := .fetching (if turn = s.slots.players 0 then 1 else 0) }
  | .fetching seat => { s with stage := .changing true (s.slots.players seat) }
  | .judging =>
    { s with
      stage := if s.board.winner.isSome || s.board.boardFinished then .finishing else .printing }
  | .finishing =>
    { s with
      stage :=
        match s.board.winner with
        | none => .tallying (s.slots.players 0).isSome
        | some ply =>
          .ending (if s.slots.players 0 = some ply then .endedWinner1 else .endedWinner2) }
  | .tallying seat1 =>
    { s with
      stage :=
        .ending (if seat1 && (s.slots.players 1).isSome then .endedTie else .endedDisconnect) }
  | .ending state => { s with state := state, stage := .starting }
  | .died => s

/-- `Game.DisconnectPlayer`. -/
def disconnectPlayer (s : State) (ply : Player) : State :=
  match s.slots.find fun _ q => q.map (·.ref) = some ply.ref with
  | none => s
  | some i =>
    let s := { s with slots := s.slots.free i }
    if s.state = .playing then { s with turn := none, state := .endedDisconnect } else s

/-- A client connects, or leaves, or sends a packet to the game; or the game thread goes on. -/
inductive Label
  | connect
  | disconnect (ply : Player)
  | message (sender : Player) (pkt : AbstractPacket)
  | play

/-- One step. -/
def step (s : State) : Label → Option State
  | .connect => some { s with slots := (connectPlayer s.slots).2 }
  | .disconnect ply => some (disconnectPlayer s ply)
  | .message sender pkt =>
    some { s with messages := s.messages ++ [setSender sender.number pkt] }
  | .play => if s.stage = .died then none else some (play s)

/-! ### What is expected of it -/

/-- There is such a player, and they have a slot. -/
def Seated (s : State) (who : Option Player) : Prop :=
  who.isSome ∧ ∃ i, s.slots.players i = who

instance decidableSeated (s : State) (who : Option Player) : Decidable (Seated s who) := by
  unfold Seated
  infer_instance

/-- The state is `PLAYING`, but who begins is only being chosen. -/
def Stage.started : Stage → Bool
  | .choosing | .taking | .storing _ => false
  | _ => true

/-- The moves are those of player 1 and player 2 by turns. -/
def Alternating (moves : List (Option ℕ)) : Prop :=
  (∀ m ∈ moves, m = some 1 ∨ m = some 2) ∧ moves.IsChain (· ≠ ·)

/-- **The game is sound**: its thread is alive, in the state `PLAYING` it is the turn of a player who has
a slot, and the moves alternate. -/
structure Sound (s : State) : Prop where
  alive : s.stage ≠ .died
  turn : s.state = .playing → s.stage.started = true → Seated s s.turn
  alternating : Alternating s.moves

/-- A turn left over from the last game is that of a player who has a slot; the player who is given the
turn exists; and the turn has not been cleared where it is read. -/
def PlaysCarefully (s : State) : Prop :=
  match s.stage with
  | .choosing => s.state = .playing → s.turn.isSome → Seated s s.turn
  | .storing who => s.state = .playing → who.isSome
  | .changing _ who => who.isSome
  | .printing => s.turn.isSome
  | .receiving => (∃ pkt ∈ s.messages.head?, typeOf pkt = playerMove) → s.turn.isSome
  | .moving pkt => accepts s pkt = true → s.turn.isSome
  | .notifying .. => s.turn.isSome
  | _ => True

/-- What a step needs. -/
def Careful (s : State) : Label → Prop
  | .play => PlaysCarefully s
  | _ => True

/-! ### The invariant -/

/-- The last move is that of the player, or of somebody else. -/
def Moved (s : State) (who : Option Player) : Prop := s.moves.getLast? = some (who.map (·.number))

def Fresh (s : State) (who : Option Player) : Prop := ¬ Moved s who

/-- **What holds at the stages.** -/
def Holds (s : State) : Prop :=
  match s.stage with
  | .starting | .waiting .. | .counting .. | .lobby .. | .readying | .setting => s.state ≠ .playing
  | .choosing | .taking => s.moves = []
  | .storing who => s.moves = [] ∧ (s.state = .playing → who.isSome → Seated s who)
  | .announcing | .printing | .looping | .judging => s.state = .playing → Fresh s s.turn
  | .changing _ who => s.state = .playing → who.isSome → Seated s who ∧ Fresh s who
  -- a disconnect in the game has cleared the turn, and nobody has set it since
  | .receiving | .moving _ =>
    (s.state = .playing → Fresh s s.turn) ∧ (s.state ≠ .playing → s.turn = none)
  | .notifying boardx boardy =>
    (∃ small, s.board.getBoard boardx boardy = .ok small) ∧ (s.state = .playing → Moved s s.turn)
  | .comparing => s.state = .playing → Moved s s.turn
  | .passing turn => s.state = .playing → turn = s.turn ∧ Moved s s.turn
  | .fetching seat => s.state = .playing → s.moves.getLast? ≠ some (some (seat.val + 1))
  | .finishing | .tallying _ => True
  | .ending state => state ≠ .playing
  | .died => False

/-- **The invariant.** -/
structure Inv (s : State) : Prop where
  holds : Holds s
  turn : s.state = .playing → s.stage.started = true → Seated s s.turn
  alternating : Alternating s.moves

theorem inv_init : Inv init := by
  refine ⟨?_, ?_, ?_⟩ <;> simp [init, Holds, Alternating]

theorem Inv.sound {s : State} (hs : Inv s) : Sound s := by
  refine ⟨fun hdied => ?_, hs.turn, hs.alternating⟩
  have h := hs.holds
  simp [Holds, hdied] at h

/-! ### The clients -/

/-- A client comes in: the slots that are taken stay so, and nothing else changes. -/
theorem Holds.connected {s : State} (hs : Holds s) {slots : PlayerArray 2}
    (hseated : ∀ who, Seated s who → Seated { s with slots := slots } who) :
    Holds { s with slots := slots } := by
  unfold Holds at hs ⊢
  dsimp only at hs ⊢
  cases hstage : s.stage with
  | storing who =>
    rw [hstage] at hs
    exact ⟨hs.1, fun hp hw => hseated who (hs.2 hp hw)⟩
  | changing moved who =>
    rw [hstage] at hs
    exact fun hp hw => ⟨hseated who (hs hp hw).1, (hs hp hw).2⟩
  | _ =>
    rw [hstage] at hs
    exact hs

/-- A client goes: the state is not `PLAYING` now, and if it was, the turn was cleared. -/
theorem Holds.left {s s' : State} (hs : Holds s) (hstage : s'.stage = s.stage)
    (hmoves : s'.moves = s.moves) (hboard : s'.board = s.board) (hstate : s'.state ≠ .playing)
    (hturn : (s.state ≠ .playing → s.turn = none) → s'.turn = none) : Holds s' := by
  unfold Holds at hs ⊢
  rw [hstage]
  cases hst : s.stage with
  | starting | waiting _ _ | counting _ _ _ | lobby _ _ | readying | setting => exact hstate
  | choosing | taking =>
    rw [hst] at hs
    exact hmoves.trans hs
  | storing who =>
    rw [hst] at hs
    exact ⟨hmoves.trans hs.1, fun hp => absurd hp hstate⟩
  | receiving | moving _ =>
    rw [hst] at hs
    exact ⟨fun hp => absurd hp hstate, fun _ => hturn hs.2⟩
  | notifying boardx boardy =>
    rw [hst] at hs
    exact ⟨hboard ▸ hs.1, fun hp => absurd hp hstate⟩
  | finishing | tallying _ => trivial
  | ending _ | died =>
    rw [hst] at hs
    exact hs
  | _ => exact fun hp => absurd hp hstate

theorem inv_connect {s : State} (hs : Inv s) : Inv { s with slots := (connectPlayer s.slots).2 } := by
  have hseated : ∀ who, Seated s who → Seated { s with slots := (connectPlayer s.slots).2 } who := by
    rintro who ⟨hsome, i, hi⟩
    refine ⟨hsome, i, ?_⟩
    dsimp only
    cases hply : (connectPlayer s.slots).1 with
    | none => rw [connectPlayer_none hply, hi]
    | some ply =>
      obtain ⟨k, hk, -, hslots⟩ := connectPlayer_some hply
      have hik : i ≠ k := fun h => by rw [← hi, h, hk] at hsome; cases hsome
      rw [hslots, fill_players, Function.update_of_ne hik, hi]
  exact ⟨hs.holds.connected hseated, fun hp hst => hseated _ (hs.turn hp hst), hs.alternating⟩

theorem inv_disconnect {s : State} (hs : Inv s) (ply : Player) : Inv (disconnectPlayer s ply) := by
  unfold disconnectPlayer
  split
  · exact hs
  · dsimp only
    split_ifs with hplaying
    · exact ⟨hs.holds.left rfl rfl rfl (by simp) fun _ => rfl, by simp, hs.alternating⟩
    · exact ⟨hs.holds.left rfl rfl rfl hplaying fun h => h hplaying, fun hp => absurd hp hplaying,
        hs.alternating⟩

/-! ### The game thread -/

theorem fresh_of_nil {s : State} (hs : s.moves = []) (who : Option Player) : Fresh s who := by
  simp [Fresh, Moved, hs]

/-- Only the stage changes, and it was the turn of somebody. -/
theorem Inv.goto {s : State} (hs : Inv s) {stage : Stage} (hstarted : s.stage.started = true)
    (h : Holds { s with stage := stage }) : Inv { s with stage := stage } :=
  ⟨h, fun hp _ => hs.turn hp hstarted, hs.alternating⟩

theorem withTurn_of_isSome {s : State} (h : s.turn.isSome) (stage : Stage) :
    withTurn s stage = { s with stage := stage } := by
  unfold withTurn
  split
  · next hnone =>
    rw [hnone] at h
    cases h
  · rfl

/-- The game is not being played. -/
theorem Inv.idle {s s' : State} (hs : Inv s) (hmoves : s'.moves = s.moves) (hstate : s'.state ≠ .playing)
    (h : Holds s') : Inv s' :=
  ⟨h, fun hp => absurd hp hstate, hmoves ▸ hs.alternating⟩

theorem inv_pollLobby {s : State} (hs : Inv s) (hstate : s.state ≠ .playing) (ready1 ready2 : Bool) :
    Inv (pollLobby s ready1 ready2) := by
  unfold pollLobby
  split
  · exact hs.idle rfl hstate hstate
  · dsimp only
    split_ifs
    · exact hs.idle rfl hstate hstate
    · exact hs.idle rfl hstate hstate
    · exact hs.idle rfl hstate hstate

theorem inv_receive {s : State} (hs : Inv s) (hstage : s.stage = .receiving)
    (hcareful : (∃ pkt ∈ s.messages.head?, typeOf pkt = playerMove) → s.turn.isSome) :
    Inv (receive s) := by
  have h := hs.holds
  have hturn : s.state = .playing → Seated s s.turn := fun hp => hs.turn hp (by rw [hstage]; rfl)
  simp only [Holds, hstage] at h
  unfold receive
  cases hqueue : s.messages with
  | nil => exact ⟨h.1, fun hp _ => hturn hp, hs.alternating⟩
  | cons pkt rest =>
    rw [hqueue] at hcareful
    dsimp only
    split_ifs with htype
    · exact ⟨h.1, fun hp _ => hturn hp, hs.alternating⟩
    · have hsome := hcareful ⟨pkt, rfl, not_not.mp htype⟩
      split
      · next hnone =>
        rw [hnone] at hsome
        cases hsome
      · split_ifs
        · exact ⟨h.1, fun hp _ => hturn hp, hs.alternating⟩
        · exact ⟨h, fun hp _ => hturn hp, hs.alternating⟩

/-- The players who have a slot are player 1 and player 2. -/
theorem Seated.number {s : State} {ply : Player} (h : Seated s (some ply)) :
    ply.number = 1 ∨ ply.number = 2 := by
  obtain ⟨-, i, hi⟩ := h
  have hnumber := s.slots.numbered i ply hi
  have hlt := i.isLt
  omega

/-- A move of the player whose turn it is goes on alternating. -/
theorem Alternating.concat {moves : List (Option ℕ)} (h : Alternating moves) {m : Option ℕ}
    (hm : m = some 1 ∨ m = some 2) (hlast : moves.getLast? ≠ some m) : Alternating (moves ++ [m]) := by
  refine ⟨fun x hx => ?_, ?_⟩
  · rcases List.mem_append.mp hx with hx | hx
    · exact h.1 x hx
    · rw [List.mem_singleton.mp hx]
      exact hm
  · refine List.isChain_append.mpr ⟨h.2, List.isChain_singleton m, fun x hx y hy => ?_⟩
    obtain rfl : m = y := by simpa using hy
    rintro rfl
    exact hlast hx

theorem inv_move {s : State} (hs : Inv s) {pkt : AbstractPacket} (hstage : s.stage = .moving pkt)
    (hcareful : accepts s pkt = true → s.turn.isSome) : Inv (move s pkt) := by
  have h := hs.holds
  have hturn : s.state = .playing → Seated s s.turn := fun hp => hs.turn hp (by rw [hstage]; rfl)
  simp only [Holds, hstage] at h
  unfold move
  split
  · exact ⟨h.1, fun hp _ => hturn hp, hs.alternating⟩
  · exact ⟨h.1, fun hp _ => hturn hp, hs.alternating⟩
  · next board htry =>
    have hsome := hcareful (by simp [accepts, htry])
    obtain ⟨ply, hply⟩ := Option.isSome_iff_exists.mp hsome
    have hplaying : s.state = .playing := by
      by_contra hno
      rw [h.2 hno] at hsome
      cases hsome
    have hnumber : ply.number = 1 ∨ ply.number = 2 := (hply ▸ hturn hplaying).number
    have hnext : Alternating (s.moves ++ [s.turn.map (·.number)]) := by
      refine hs.alternating.concat ?_ (h.1 hplaying)
      rw [hply]
      rcases hnumber with hone | htwo
      · exact Or.inl (congrArg some hone)
      · exact Or.inr (congrArg some htwo)
    refine ⟨⟨BoardLarge.getBoard_of_makeMove htry board, fun _ => ?_⟩, fun hp _ => hturn hp, hnext⟩
    exact List.getLast?_concat

theorem inv_play {s : State} (hs : Inv s) (hcareful : PlaysCarefully s) : Inv (play s) := by
  have h := hs.holds
  unfold PlaysCarefully at hcareful
  unfold Holds at h
  unfold play
  cases hstage : s.stage with
  | starting => exact hs.idle rfl (by simp) (by simp [Holds])
  | waiting ready1 ready2 =>
    simp only [hstage] at h ⊢
    refine hs.idle rfl h ?_
    unfold Holds
    split_ifs <;> exact h
  | counting ready1 ready2 seat1 =>
    simp only [hstage] at h ⊢
    refine hs.idle rfl h ?_
    unfold Holds
    split_ifs <;> exact h
  | lobby ready1 ready2 =>
    simp only [hstage] at h ⊢
    exact inv_pollLobby hs h ready1 ready2
  | readying => exact hs.idle rfl (by simp) (by simp [Holds])
  | setting => exact ⟨rfl, fun _ hst => (by cases hst), by simp [Alternating]⟩
  | choosing =>
    simp only [hstage] at h hcareful ⊢
    split_ifs with hturn
    · exact ⟨h, fun _ hst => (by cases hst), hs.alternating⟩
    · exact ⟨fun _ => fresh_of_nil h _,
        fun hp _ => hcareful hp (Option.isSome_iff_ne_none.mpr hturn), hs.alternating⟩
  | taking =>
    simp only [hstage] at h ⊢
    exact ⟨⟨h, fun _ hsome => ⟨hsome, 0, rfl⟩⟩, fun _ hst => (by cases hst), hs.alternating⟩
  | storing who =>
    simp only [hstage] at h hcareful ⊢
    exact ⟨fun _ => fresh_of_nil h.1 _, fun hp _ => h.2 hp (hcareful hp), hs.alternating⟩
  | announcing =>
    simp only [hstage] at h ⊢
    refine hs.goto (by rw [hstage]; rfl) fun hp _ => ⟨hs.turn hp (by rw [hstage]; rfl), h hp⟩
  | changing moved who =>
    simp only [hstage] at h hcareful ⊢
    obtain ⟨ply, rfl⟩ := Option.isSome_iff_exists.mp hcareful
    refine ⟨?_, fun hp _ => (h hp hcareful).1, hs.alternating⟩
    unfold Holds changePlayerTurn
    dsimp only
    split_ifs <;> exact fun hp => (h hp hcareful).2
  | printing =>
    simp only [hstage] at h hcareful ⊢
    rw [withTurn_of_isSome hcareful]
    refine hs.goto (by rw [hstage]; rfl) ?_
    exact h
  | looping =>
    simp only [hstage] at h ⊢
    refine hs.goto (by rw [hstage]; rfl) ?_
    unfold Holds
    split_ifs with hp
    · exact ⟨h, fun hno => absurd hp hno⟩
    · trivial
  | receiving =>
    simp only [hstage] at hcareful ⊢
    exact inv_receive hs hstage hcareful
  | moving pkt =>
    simp only [hstage] at hcareful ⊢
    exact inv_move hs hstage hcareful
  | notifying boardx boardy =>
    simp only [hstage] at h hcareful ⊢
    obtain ⟨⟨small, hsmall⟩, hmoved⟩ := h
    simp only [withTurn_of_isSome hcareful, afterMove, hsmall]
    refine hs.goto (by rw [hstage]; rfl) ?_
    exact hmoved
  | comparing =>
    simp only [hstage] at h ⊢
    exact hs.goto (by rw [hstage]; rfl) fun hp => ⟨rfl, h hp⟩
  | passing turn =>
    simp only [hstage] at h ⊢
    refine hs.goto (by rw [hstage]; rfl) fun hp => ?_
    obtain ⟨rfl, hmoved⟩ := h hp
    obtain ⟨hsome, i, hi⟩ := hs.turn hp (by rw [hstage]; rfl)
    obtain ⟨ply, hply⟩ := Option.isSome_iff_exists.mp hsome
    have hnumber := s.slots.numbered i ply (hi.trans hply)
    rw [Moved, hply] at hmoved
    show s.moves.getLast? ≠ _
    rw [hmoved, Option.map_some, hnumber]
    split_ifs with hzero
    · have hi0 : i = 0 := s.slots.inj (hi.trans hply) (hzero ▸ hply)
      simp [hi0]
    · have hi0 : i ≠ 0 := fun h => hzero (h ▸ hi.symm)
      have hval : i.val ≠ 0 := fun h => hi0 (Fin.ext h)
      simp [hval]
  | fetching seat =>
    simp only [hstage] at h ⊢
    refine hs.goto (by rw [hstage]; rfl) fun hp hsome => ⟨⟨hsome, seat, rfl⟩, fun hmoved => h hp ?_⟩
    obtain ⟨ply, hply⟩ := Option.isSome_iff_exists.mp hsome
    have hmoved' : s.moves.getLast? = some ((s.slots.players seat).map (·.number)) := hmoved
    rw [hmoved', hply, Option.map_some, s.slots.numbered seat ply hply]
  | judging =>
    simp only [hstage] at h ⊢
    refine hs.goto (by rw [hstage]; rfl) ?_
    unfold Holds
    split_ifs
    · trivial
    · exact h
  | finishing =>
    refine hs.goto (by rw [hstage]; rfl) ?_
    unfold Holds
    cases s.board.winner with
    | none => trivial
    | some ply => dsimp only; split_ifs <;> simp
  | tallying seat1 =>
    refine hs.goto (by rw [hstage]; rfl) ?_
    unfold Holds
    dsimp only
    split_ifs <;> simp
  | ending state =>
    simp only [hstage] at h ⊢
    exact hs.idle rfl h h
  | died =>
    simp only [hstage] at h

theorem inv_step {s s' : State} {a : Label} (hs : Inv s) (hcareful : Careful s a)
    (hstep : step s a = some s') : Inv s' := by
  cases a with
  | connect =>
    obtain rfl := Option.some.inj hstep
    exact inv_connect hs
  | disconnect ply =>
    obtain rfl := Option.some.inj hstep
    exact inv_disconnect hs ply
  | message sender pkt =>
    obtain rfl := Option.some.inj hstep
    exact ⟨hs.holds, hs.turn, hs.alternating⟩
  | play =>
    simp only [step] at hstep
    split_ifs at hstep
    obtain rfl := Option.some.inj hstep
    exact inv_play hs hcareful

/-! ### The condition is exact -/

theorem not_sound_withTurn {s : State} (h : ¬ s.turn.isSome) (stage : Stage) :
    ¬ Sound (withTurn s stage) := by
  intro hsound
  refine hsound.alive ?_
  rw [withTurn, Option.not_isSome_iff_eq_none.mp h]

/-- **A step that does not meet the condition is the end of a sound game.** -/
theorem not_sound_play {s : State} (hcareless : ¬ PlaysCarefully s) : ¬ Sound (play s) := by
  unfold PlaysCarefully at hcareless
  unfold play
  cases hstage : s.stage with
  | choosing =>
    simp only [hstage, Classical.not_imp] at hcareless ⊢
    obtain ⟨hp, hsome, hno⟩ := hcareless
    rw [if_neg (Option.isSome_iff_ne_none.mp hsome)]
    exact fun hsound => hno (hsound.turn hp rfl)
  | storing who =>
    simp only [hstage, Classical.not_imp] at hcareless ⊢
    obtain ⟨hp, hno⟩ := hcareless
    exact fun hsound => hno (hsound.turn hp rfl).1
  | changing moved who =>
    simp only [hstage] at hcareless ⊢
    rw [Option.not_isSome_iff_eq_none.mp hcareless]
    exact fun hsound => hsound.alive rfl
  | printing =>
    simp only [hstage] at hcareless ⊢
    exact not_sound_withTurn hcareless _
  | receiving =>
    simp only [hstage, Classical.not_imp] at hcareless ⊢
    obtain ⟨⟨pkt, hpkt, htype⟩, hno⟩ := hcareless
    obtain ⟨rest, hqueue⟩ : ∃ rest, s.messages = pkt :: rest := List.head?_eq_some_iff.mp hpkt
    rw [Option.not_isSome_iff_eq_none] at hno
    refine fun hsound => hsound.alive ?_
    simp only [receive, hqueue, hno]
    rw [if_neg (not_not.mpr htype)]
  | moving pkt =>
    simp only [hstage, Classical.not_imp] at hcareless ⊢
    obtain ⟨haccepts, hno⟩ := hcareless
    rw [Option.not_isSome_iff_eq_none] at hno
    unfold accepts at haccepts
    split at haccepts
    · next board htry =>
      -- the move of nobody is among the moves
      refine fun hsound => ?_
      have hmem := hsound.alternating.1 none (by simp [move, htry, hno])
      simp at hmem
    · cases haccepts
  | notifying boardx boardy =>
    simp only [hstage] at hcareless ⊢
    exact not_sound_withTurn hcareless _
  | _ => simp [hstage] at hcareless

/-- Both players come in and are ready, and the game thread is about to begin the game. -/
def begun : List Label :=
  [.connect, .connect, .message ⟨0, 1⟩ (newNetLibPacket 0 playerReady [1] 0),
    .message ⟨1, 2⟩ (newNetLibPacket 0 playerReady [1] 0)] ++ List.replicate 9 .play

/-- Player 1 plays on the board in the middle, and player 2 on the one that this forces. -/
def twoMoves : List Label :=
  begun ++ [.message ⟨0, 1⟩ (newNetLibPacket 0 playerMove [1, 1, 0, 2] 0),
    .message ⟨1, 2⟩ (newNetLibPacket 0 playerMove [0, 2, 1, 1] 0)] ++ List.replicate 29 .play

example : (run step init twoMoves).map (·.moves) = some [some 1, some 2] := by decide +kernel

/-- Player 1 leaves in the second before the game begins: there is nobody to begin. -/
def leavesReady : List Label := begun ++ [.disconnect ⟨0, 1⟩] ++ List.replicate 6 .play

end N64NetLib.TicTacToe.Game
