import N64NetLib.N64.Builder
import N64NetLib.Realtime.Players
import N64NetLib.Udp.Handler

/-! # Do packets get to the players addressed?

The way of a packet from the N64 of one player to the queues of the others: a send function puts the
mask of the recipients into it, the client app decodes it and sends it on to the server, and the
server relays it to the players whose bit is set (`serverReads`, `handleConnected`).

`Routed` says that it gets to the players addressed and to nobody else. The two ends do not have the
same bit for a player (`netlib_send` shifts by the number, the server by the number less one), and the
relay loop does not get past an empty slot. `RoutedWhen` is what is left (`routed_iff`). -/

namespace N64NetLib.Realtime.Routing

open N64NetLib.Lib.Memory N64NetLib.Packet N64NetLib.Packet.Basic N64NetLib.Packet.Sequence
open N64NetLib.Udp.Handler N64NetLib.N64.Netlib N64NetLib.N64.Builder N64NetLib.Realtime.Players

/-! ### The way to the server -/

/-- What a packet meets on its way: the client's machine, its clock and its handler, and the
connection at the server. -/
structure Path where
  host : Host
  junk : ℕ → UInt8
  now : ℤ
  client : UDPHandler
  call : Call
  server : UDPHandler
  ref : ℕ
  ackref : ℕ

/-- The packet that `ReadNetLibPacket` of the server returns for the bytes an N64 wrote to the USB:
`ParseUSB_NetLibPacket` makes a packet of them, and `ServerConnectionThread` sends it. -/
def serverReads (w : Path) (b : List UInt8) : Option AbstractPacket :=
  match (Cpp.fromBytes w.host .netlib).run (inBuffer b w.junk) with
  | .ok (some p) =>
    match (sendPacket (.cpp w.host) ⟨w.now, w.now, true⟩ w.client p).out with
    | d :: _ =>
      match (readPacket .java .netlib w.call w.server w.ref w.ackref d.data w.junk).result with
      | .ok pkt => pkt
      | .error _ => none
    | [] => none
  | _ => none

/-- **What the server reads is the packet that was built, with its mask.** -/
theorem serverReads_commit {w : Path} {g : Globals} {d : Draft} (hg : Holds g d) {mask : BitVec 32}
    {q : AbstractPacket} (hq : serverReads w (commit mask g).packet = some q) :
    q.body = .netlib d.type mask 0 ∧ q.data = d.data ∧ q.flags = d.flags := by
  have hwf := hg.wellFormed mask
  have hcpp : (Cpp.fromBytes w.host .netlib).run (inBuffer (commit mask g).packet w.junk) =
      .ok (some (WireFormat.received (d.packet mask))) := by
    rw [packet_commit hg, ← Cpp.run_decode]
    exact WireFormat.cpp_decode w.host hwf w.junk
  have hwf' : WireFormat.WellFormed (firstSent (.cpp w.host) ⟨w.now, w.now, true⟩ w.client
      (WireFormat.received (d.packet mask))) :=
    ⟨hwf.version, by simp [firstSent, Draft.packet, WireFormat.received], hwf.size⟩
  have hsend := sendPacket_first (.cpp w.host) ⟨w.now, w.now, true⟩ w.client
    (show (WireFormat.received (d.packet mask)).attempts = 0 from rfl) rfl
  have hread := Lang.decode_eq .java hwf' w.junk
  simp only [Lang.getBytes_eq _ hwf'] at hsend
  simp only [serverReads, hcpp, hsend] at hq
  split at hq
  · next pkt hresult =>
    subst hq
    obtain rfl := readPacket_result hread hresult
    exact ⟨rfl, rfl, rfl⟩
  · cases hq

/-! ### What should come of it -/

/-- The three ways to send. -/
inductive Sending
  | send (client : UInt8)
  | broadcast
  | sendtoserver

/-- The library after the send function, in front of `netlib_poll`. -/
def Sending.commit (host : Host) (g : Globals) : Sending → Globals
  | .send client => netlibSend host client g
  | .broadcast => netlibBroadcast host g
  | .sendtoserver => netlibSendtoserver g

/-- The packet sent by player `s` is for the player in slot `i`. -/
def Addressed (s : Fin maxPlayers) : Sending → Fin maxPlayers → Prop
  | .send client, i => i ≠ s ∧ i.val + 1 = client.toNat
  | .broadcast, i => i ≠ s
  | .sendtoserver, _ => False

/-- The game has the packet, in the name of the sender, if it was sent to the server. -/
def GameGets (d : Draft) (s : Fin maxPlayers) (op : Sending) (game game' : Game) : Prop :=
  match op with
  | .sendtoserver => ∃ pkt, pkt.body = .netlib d.type 0 (number s) ∧ pkt.data = d.data ∧
    pkt.flags = d.flags ∧ game'.messages = game.messages ++ [pkt]
  | _ => game'.messages = game.messages

/-- **The packet goes where it should**: who is addressed and connected has one copy more, in the name
of the sender, and the others have not. -/
structure Routed (d : Draft) (s : Fin maxPlayers) (op : Sending) (game game' : Game) : Prop where
  players : ∀ i, (Addressed s op i →
      game'.players i = (game.players i).map (Player.sendMessage (number s) (d.packet 0))) ∧
    (¬ Addressed s op i → game'.players i = game.players i)
  messages : GameGets d s op game game'

/-- No empty slot in front of slot `i`, that of the sender apart. -/
def Unbroken (game : Game) (s i : Fin maxPlayers) : Prop :=
  ∀ j < i, j ≠ s → (game.players j).isSome

/-- **When a packet of this type goes where it should.** A packet to the server has to be another one
than an ackbeat. A broadcast has to be, and no empty slot may stand in front of another player. A
packet to a player below 32 gets to nobody it should get to, so that there may be no such player, nor
anybody where the bit of the next number leads to; for higher numbers it depends on what the N64 makes
of the shift. -/
def RoutedWhen (host : Host) (type : UInt8) (game : Game) (s : Fin maxPlayers) : Sending → Prop
  | .sendtoserver => type ≠ 0
  | .broadcast => ∀ i, i ≠ s → (game.players i).isSome → type ≠ 0 ∧ Unbroken game s i
  | .send client =>
    if client.toNat < 32 then
      ∀ i, i ≠ s → (game.players i).isSome → i.val + 1 ≠ client.toNat ∧
        (i.val = client.toNat → type = 0 ∨ ¬ Unbroken game s i)
    else
      (type ≠ 0 → host.shiftOut client.toNat ≠ 0) ∧
        ∀ i, i ≠ s → (game.players i).isSome → (i.val + 1 = client.toNat ↔
          type ≠ 0 ∧ Unbroken game s i ∧ (host.shiftOut client.toNat).getLsbD i = true)

instance (game : Game) (s i : Fin maxPlayers) : Decidable (Unbroken game s i) := by
  unfold Unbroken; infer_instance

instance (host : Host) (type : UInt8) (game : Game) (s : Fin maxPlayers) (op : Sending) :
    Decidable (RoutedWhen host type game s op) := by
  cases op <;> unfold RoutedWhen <;> infer_instance

/-! ### What comes of it -/

theorem reached_iff {game : Game} {s i : Fin maxPlayers} :
    Reached s (List.finRange maxPlayers) game i ↔
      i ≠ s ∧ (game.players i).isSome ∧ Unbroken game s i := by
  simp only [Reached, List.mem_finRange, forall_true_left, true_and, Unbroken]
  refine and_congr_right fun hi => ?_
  constructor
  · intro h
    exact ⟨h i le_rfl hi, fun j hj => h j hj.le⟩
  · rintro ⟨hsome, h⟩ j hj hjs
    rcases hj.eq_or_lt with rfl | hj
    · exact hsome
    · exact h j hj hjs

/-- A copy more is not what was there. -/
theorem map_sendMessage_eq_iff {o : Option Player} {sender : ℤ} {pkt : AbstractPacket} :
    o.map (Player.sendMessage sender pkt) = o ↔ o.isSome = false := by
  cases o with
  | none => simp
  | some ply =>
    simp only [Option.map_some, Option.some.injEq, Option.isSome_some, Bool.true_eq_false, iff_false]
    intro h
    simpa [Player.sendMessage] using congrArg (fun p => p.messages.length) h

/-- If a slot gets a copy exactly if `A`, it gets one exactly if `B` if the two agree where there is
a player. -/
theorem copied_iff {o o' : Option Player} {sender : ℤ} {pkt : AbstractPacket} {A B : Prop}
    (hyes : A → o' = o.map (Player.sendMessage sender pkt)) (hno : ¬ A → o' = o) :
    ((B → o' = o.map (Player.sendMessage sender pkt)) ∧ (¬ B → o' = o)) ↔
      (o.isSome = true → (B ↔ A)) := by
  by_cases hA : A <;> by_cases hB : B
  · simp [hA, hB, hyes]
  · simp [hA, hB, hyes, map_sendMessage_eq_iff]
  · simp [hA, hB, hno, eq_comm.trans map_sendMessage_eq_iff]
  · simp [hA, hB, hno]

section Handle

variable {d : Draft} {q : AbstractPacket} {mask : BitVec 32} {game : Game} {s : Fin maxPlayers}

/-- **The players after a packet**: a copy for those with a bit in the mask that the loop gets to. -/
theorem handleConnected_players (game : Game) (s : Fin maxPlayers)
    (hq : q.body = .netlib d.type mask 0 ∧ q.data = d.data ∧ q.flags = d.flags)
    (i : Fin maxPlayers) :
    let got := d.type ≠ 0 ∧ (i ≠ s ∧ (game.players i).isSome ∧ Unbroken game s i) ∧
      mask.getLsbD i = true
    (got → (handleConnected s q game).1.players i =
      (game.players i).map (Player.sendMessage (number s) (d.packet 0))) ∧
    (¬ got → (handleConnected s q game).1.players i = game.players i) := by
  obtain ⟨hbody, hdata, hflags⟩ := hq
  have hsend : Player.sendMessage (number s) q = Player.sendMessage (number s) (d.packet 0) := by
    funext ply
    simp [Player.sendMessage, duplicate, typeOf, hbody, hdata, hflags, Draft.packet,
      newNetLibPacket]
  have hloop := relayLoop_players s q (List.pairwise_lt_finRange maxPlayers) game i
  simp only [reached_iff, recipientsOf, hbody, hsend] at hloop
  simp only [handleConnected, typeOf, recipientsOf, hbody]
  split_ifs with htype hmask
  · simp [htype]
  · simpa [htype] using hloop
  · have hzero : mask = 0 := not_not.mp hmask
    simp [hzero, Game.sendMessage]

/-- The game after a packet: it has it if the mask is zero. -/
theorem handleConnected_messages (game : Game) (s : Fin maxPlayers)
    (hq : q.body = .netlib d.type mask 0 ∧ q.data = d.data ∧ q.flags = d.flags) :
    (handleConnected s q game).1.messages =
      if d.type ≠ 0 ∧ mask = 0 then game.messages ++ [setSender (number s) q] else game.messages := by
  simp only [handleConnected, typeOf, recipientsOf, hq.1]
  split_ifs <;> simp_all [relayLoop_messages, Game.sendMessage]

/-- A packet is routed if its mask is zero exactly for the server, and the players that get it are
those it is for. -/
theorem routed_iff_mask (hq : q.body = .netlib d.type mask 0 ∧ q.data = d.data ∧ q.flags = d.flags)
    (op : Sending) :
    Routed d s op game (handleConnected s q game).1 ↔
      (∀ i, (game.players i).isSome → (Addressed s op i ↔ d.type ≠ 0 ∧
        (i ≠ s ∧ (game.players i).isSome ∧ Unbroken game s i) ∧ mask.getLsbD i = true)) ∧
      match op with
        | .sendtoserver => d.type ≠ 0 ∧ mask = 0
        | _ => ¬ (d.type ≠ 0 ∧ mask = 0) := by
  have hplayers := fun i => copied_iff (B := Addressed s op i)
    (handleConnected_players game s hq i).1 (handleConnected_players game s hq i).2
  have hmessages := handleConnected_messages game s hq
  have hrouted : Routed d s op game (handleConnected s q game).1 ↔ _ ∧ _ :=
    ⟨fun h => ⟨h.players, h.messages⟩, fun h => ⟨h.1, h.2⟩⟩
  rw [hrouted]
  refine and_congr (forall_congr' hplayers) ?_
  cases op with
  | send client => simp [GameGets, hmessages]
  | broadcast => simp [GameGets, hmessages]
  | sendtoserver =>
    rw [GameGets, hmessages]
    constructor
    · rintro ⟨pkt, -, -, -, h⟩
      by_contra hno
      rw [if_neg hno] at h
      simp at h
    · intro h
      refine ⟨setSender (number s) q, ?_, ?_, ?_, if_pos h⟩ <;>
        simp [setSender, hq, h.2]

end Handle

/-! ### The masks -/

theorem getLsbD_shiftOne {k i : ℕ} (hk : k < 32) : (1#32 <<< k).getLsbD i = true ↔ i = k := by
  simp only [BitVec.getLsbD_shiftLeft, BitVec.getLsbD_one]
  simp
  omega

/-- The mask of a broadcast has every bit but that of the sender. -/
theorem getLsbD_broadcastMask (host : Host) {g : Globals} {s i : Fin maxPlayers}
    (hs : g.clnumber.toNat = s.val + 1) : (broadcastMask host g).getLsbD i = true ↔ i ≠ s := by
  have hlt := s.isLt
  have hi := i.isLt
  have hk : (g.clnumber.toNat : ℤ) - 1 = (s.val : ℕ) := by omega
  rw [broadcastMask, hk, cppShiftOne_of_lt host (by omega)]
  have hall : (0xFFFFFFFF#32).getLsbD i = true := by
    rw [show (0xFFFFFFFF#32) = BitVec.allOnes 32 by decide, BitVec.getLsbD_allOnes]
    simp
  rw [BitVec.getLsbD_and, hall, BitVec.getLsbD_not, Bool.true_and, Bool.and_eq_true,
    decide_eq_true_eq, Bool.not_eq_true', ← Bool.not_eq_true, getLsbD_shiftOne (by omega)]
  simp [Fin.ext_iff]

/-- Somebody else has a bit in it. -/
theorem broadcastMask_ne_zero (host : Host) {g : Globals} {s : Fin maxPlayers}
    (hs : g.clnumber.toNat = s.val + 1) : broadcastMask host g ≠ 0 := by
  obtain ⟨i, hi⟩ : ∃ i : Fin maxPlayers, i ≠ s := exists_ne s
  intro h
  have hbit := (getLsbD_broadcastMask host hs).mpr hi
  simp [h] at hbit

/-- One slot: whether its player should get the packet, against whether the loop gets there and the
bit is set. -/
theorem slot_iff {other player addressed zero unbroken bit : Prop} :
    (player → (other ∧ addressed ↔ ¬ zero ∧ (other ∧ player ∧ unbroken) ∧ bit)) ↔
      (other → player → (addressed ↔ ¬ zero ∧ unbroken ∧ bit)) := by
  by_cases hother : other <;> by_cases hplayer : player <;> simp [hother, hplayer]

/-- One slot against a `netlib_send`: its number is the client and its bit is the next one. -/
theorem send_slot_iff {other player zero unbroken : Prop} {i client : ℕ} :
    (player → (other ∧ i + 1 = client ↔ ¬ zero ∧ (other ∧ player ∧ unbroken) ∧ i = client)) ↔
      (other → player → i + 1 ≠ client ∧ (i = client → zero ∨ ¬ unbroken)) := by
  by_cases hi : i = client
  · subst hi
    have hne : i + 1 ≠ i := by omega
    simp only [hne, and_true, and_false, false_iff, not_false_eq_true, true_and, forall_true_left, ne_eq]
    tauto
  · simp only [hi, and_false, iff_false, false_imp_iff, and_true]
    tauto

/-- **When packets go where they should**, for every pattern of slots and every connected sender. -/
theorem routed_iff (w : Path) {g : Globals} {d : Draft} (hg : Holds g d) (game : Game)
    (s : Fin maxPlayers) (hs : g.clnumber.toNat = s.val + 1) (op : Sending) {q : AbstractPacket}
    (hq : serverReads w (op.commit w.host g).packet = some q) :
    Routed d s op game (handleConnected s q game).1 ↔ RoutedWhen w.host d.type game s op := by
  cases op with
  | sendtoserver =>
    rw [routed_iff_mask (serverReads_commit hg hq)]
    simp [Addressed, RoutedWhen]
  | broadcast =>
    rw [routed_iff_mask (serverReads_commit hg hq)]
    simp only [Addressed, RoutedWhen, getLsbD_broadcastMask w.host hs,
      broadcastMask_ne_zero w.host hs]
    grind
  | send client =>
    rw [routed_iff_mask (serverReads_commit hg hq)]
    simp only [Addressed, RoutedWhen, sendMask]
    split_ifs with hlt
    · have hmask : 1#32 <<< client.toNat ≠ 0#32 := by
        intro h
        have hbit := (getLsbD_shiftOne hlt).mpr rfl
        simp [h] at hbit
      rw [cppShiftOne_of_lt w.host hlt, and_iff_left fun h => hmask h.2]
      simp only [getLsbD_shiftOne hlt]
      exact forall_congr' fun i => send_slot_iff
    · have hshift : cppShiftOne w.host client.toNat = w.host.shiftOut client.toNat :=
        if_neg (by omega)
      rw [hshift, and_comm]
      refine and_congr ?_ (forall_congr' fun i => slot_iff)
      rw [not_and]

/-- Player 1 has built a packet. -/
def sampleGlobals : Globals :=
  netlibWrite (.byte 1) (netlibStart 5 (netlibSetclient 1 (netlibInitialize (startGlobals fun _ => 0))))

/-- The packet. -/
def sampleDraft : Draft := (Draft.start 5).write (.byte 1)

theorem holds_sample : Holds sampleGlobals sampleDraft :=
  holds_write (holds_start (ready_setclient (ready_init _) 1) 5) _

/-- A client app and a server that have heard nothing of each other yet. -/
def samplePath : Path := ⟨.x86, fun _ => 0, 0, newUDPHandler, ⟨0, 0, true⟩, newUDPHandler, 0, 1⟩

/-- A game that `n` players have joined, one after the other. -/
def joined : ℕ → Game
  | 0 => newGame
  | n + 1 => ((connectPlayer (joined n)).map (·.2)).getD (joined n)

theorem routed_broadcast : ∃ q,
    serverReads samplePath (Sending.broadcast.commit .x86 sampleGlobals).packet = some q ∧
      Routed sampleDraft 0 .broadcast (joined 3) (handleConnected 0 q (joined 3)).1 := by
  obtain ⟨q, hq⟩ : ∃ q, serverReads samplePath
      (Sending.broadcast.commit .x86 sampleGlobals).packet = some q :=
    Option.isSome_iff_exists.mp (by decide +kernel)
  exact ⟨q, hq, (routed_iff samplePath holds_sample (joined 3) 0 (by decide) .broadcast hq).mpr
    (by decide +kernel)⟩

/-- Of two players the first sends to the second: the mask has the bit of the third, and the loop ends
at the empty slot of the third. -/
theorem not_routed_send :
    ¬ ∀ (w : Path) (g : Globals) (d : Draft) (game : Game) (s : Fin maxPlayers) (op : Sending) (q),
      Holds g d → g.clnumber.toNat = s.val + 1 → (game.players s).isSome →
        serverReads w (op.commit w.host g).packet = some q →
          Routed d s op game (handleConnected s q game).1 := by
  intro h
  obtain ⟨q, hq⟩ : ∃ q, serverReads samplePath
      ((Sending.send 2).commit .x86 sampleGlobals).packet = some q :=
    Option.isSome_iff_exists.mp (by decide +kernel)
  have hrouted := h samplePath sampleGlobals sampleDraft (joined 2) 0 (.send 2) q holds_sample
    (by decide) (by decide +kernel) hq
  have hcopies : (serverReads samplePath ((Sending.send 2).commit .x86 sampleGlobals).packet).map
      (fun q => ((handleConnected 0 q (joined 2)).1.players 1).map (·.messages.length)) =
        some (some 0) := by decide +kernel
  have hone : (((joined 2).players 1).map (Player.sendMessage (number 0) (sampleDraft.packet 0))).map
      (·.messages.length) = some 1 := by decide +kernel
  rw [hq, Option.map_some, (hrouted.players 1).1 ⟨by decide, by decide⟩, hone] at hcopies
  simp at hcopies

end N64NetLib.Realtime.Routing
