import N64NetLib.N64.Machine

/-! # Is a committed packet written once and intact?

The library has one write buffer, one size and one flag that says whether what is in the buffer is to
be sent. A send function sets the flag, and the packet is written when the outermost or any inner call
of `netlib_poll` comes to its end and `usb_write` takes it.

`Intact` says that the packets given to the send functions are the ones written and the one pending,
each once and with its bytes. A call keeps the pending packet if it does not change what is in the
buffer (`Keeps`), and `netlib_poll` keeps it unless its `usb_write` times out. Runs of such steps, and
only these, are intact in every state (`intact_iff_harmless`). -/

namespace N64NetLib.N64.WriteBuffer

open N64NetLib.Lib.Run N64NetLib.Lib.Memory N64NetLib.Packet.Basic N64NetLib.Packet.Sequence
open N64NetLib.N64.Netlib N64NetLib.N64.Machine

/-- The packet that was committed and not written yet. -/
def pending (g : Globals) : List (List UInt8) := if g.sendafterpoll then [g.packet] else []

/-- **Every committed packet was written once, as it was, or is pending as it was**, and nothing else
was written. -/
def Intact (s : State) : Prop := (s.written ++ pending s.globals).Perm s.committed

/-- The call leaves the packet in the buffer as it is: a packet is not started over it unless it is an
empty packet of the same type, nothing is appended, its flags stay, and it is not sent again. -/
def Keeps (g : Globals) : Call → Prop
  | .start type =>
    g.writecursize = packetHeadersize ∧ g.writebuffer 4 = type ∧ g.writebuffer 5 = 0
  | .write v => v.toBytes = [] ∨ g.writecursize + v.toBytes.length > packetMaxSize
  | .setflags flags => 5 < g.writecursize → g.writebuffer 5 = flags
  | .init _ | .broadcast _ | .send .. | .sendtoserver _ => False
  | _ => True

/-- What a step needs while a packet is pending. -/
def Harmless (s : State) (a : Label) : Prop :=
  s.globals.sendafterpoll = true →
    match a with
    | .call c => Keeps s.globals c
    | .turn _ result =>
      (usbPoll s.usb).1 = 0 → usbWrite result (usbPoll s.usb).2 ≠ .timeout
    | _ => True

/-! ### What is pending -/

theorem pending_congr {g g' : Globals} (hflag : g'.sendafterpoll = g.sendafterpoll)
    (hpacket : g'.packet = g.packet) : pending g' = pending g := by
  rw [pending, pending, hflag, hpacket]

theorem pending_eq_iff (g g' : Globals) (hflag : g'.sendafterpoll = g.sendafterpoll) :
    pending g' = pending g ↔ (g.sendafterpoll = true → g'.packet = g.packet) := by
  rw [pending, pending, hflag]
  split_ifs with h <;> simp [h]

/-- At most one packet is pending, so there is nothing to permute. -/
theorem pending_perm_iff {g g' : Globals} : (pending g').Perm (pending g) ↔ pending g' = pending g := by
  unfold pending
  split_ifs <;> simp

/-- A step that commits nothing and writes nothing has to keep what is pending. -/
theorem intact_iff_of_same {s : State} (hs : Intact s) (s' : State)
    (hcommitted : s'.committed = s.committed) (hwritten : s'.written = s.written) :
    Intact s' ↔ pending s'.globals = pending s.globals := by
  unfold Intact at *
  rw [hcommitted, hwritten, ← pending_perm_iff]
  constructor
  · intro h
    exact (List.perm_append_left_iff _).mp (h.trans hs.symm)
  · intro h
    exact ((List.perm_append_left_iff _).mpr h).trans hs

/-! ### The calls -/

theorem packet_start {type : UInt8} {g : Globals} :
    (netlibStart type g).packet = g.packet ↔
      g.writecursize = packetHeadersize ∧ g.writebuffer 4 = type ∧ g.writebuffer 5 = 0 := by
  constructor
  · intro h
    have hlen : packetHeadersize = g.writecursize := by
      simpa [Globals.packet, netlibStart] using congrArg List.length h
    simp only [Globals.packet, netlibStart, ← hlen, block_congr_iff] at h
    have h4 := h 4 (by omega) (by decide)
    have h5 := h 5 (by omega) (by decide)
    exact ⟨hlen.symm, by simpa [store] using h4.symm, by simpa [store] using h5.symm⟩
  · rintro ⟨hlen, h4, h5⟩
    simp only [Globals.packet, netlibStart, hlen, block_congr_iff]
    intro j _ hj
    rcases Nat.lt_or_ge j 4 with h | h
    · exact store_of_lt h
    rcases Nat.lt_or_ge j 6 with h' | h'
    · obtain rfl | rfl : j = 4 ∨ j = 5 := by omega
      · simp [store, h4]
      · simp [store, h5]
    · exact store_of_ge h'

theorem packet_write {v : Value} {g : Globals} :
    (netlibWrite v g).packet = g.packet ↔
      v.toBytes = [] ∨ g.writecursize + v.toBytes.length > packetMaxSize := by
  unfold netlibWrite
  split_ifs with h
  · simp [h]
  · simp only [h, or_false]
    constructor
    · intro heq
      have hlen : g.writecursize + v.toBytes.length = g.writecursize := by
        simpa [Globals.packet] using congrArg List.length heq
      exact List.length_eq_zero_iff.mp (by omega)
    · intro hnil
      simp [Globals.packet, hnil]

theorem packet_setflags {flags : UInt8} {g : Globals} :
    (netlibSetflags flags g).packet = g.packet ↔ (5 < g.writecursize → g.writebuffer 5 = flags) := by
  simp only [Globals.packet, netlibSetflags, block_congr_iff]
  constructor
  · intro h hlt
    simpa [store] using (h 5 (by omega) (by omega)).symm
  · intro h j _ hj
    rcases Nat.lt_trichotomy j 5 with hj5 | rfl | hj5
    · exact store_of_lt hj5
    · simp [store, h (by omega)]
    · exact store_of_ge hj5

theorem pending_checkConnection (curtime : BitVec 64) (timedout : Bool) (g : Globals) :
    pending (checkConnection curtime timedout g).1 = pending g := by
  unfold checkConnection
  split_ifs <;> exact pending_congr rfl rfl

theorem pending_enterPoll (now : Now) (s : State) :
    pending (enterPoll now s).globals = pending s.globals :=
  pending_checkConnection ..

/-- **A send function**: the pending packet, if there is one, is lost. -/
theorem intact_sendNow_iff {s : State} (hs : Intact s) (mask : BitVec 32) (now : Now) :
    Intact (sendNow (commit mask) now s) ↔ (s.globals.sendafterpoll = true → False) := by
  have hpending : pending (sendNow (commit mask) now s).globals = [(commit mask s.globals).packet] :=
    pending_enterPoll ..
  have hlen := List.Perm.length_eq hs
  unfold Intact at *
  rw [hpending]
  constructor
  · intro h hflag
    have hlen' := h.length_eq
    simp [pending, hflag, sendNow, enterPoll] at hlen hlen'
    omega
  · intro hflag
    have hnone : pending s.globals = [] := if_neg hflag
    rw [hnone, List.append_nil] at hs
    exact hs.append_right _

/-- **A call keeps the packets intact exactly if it keeps the pending one.** -/
theorem intact_call_iff (host : Host) {s : State} (hs : Intact s) (c : Call) :
    Intact (call host s c) ↔ (s.globals.sendafterpoll = true → Keeps s.globals c) := by
  cases c with
  | broadcast now => exact intact_sendNow_iff hs _ now
  | send client now => exact intact_sendNow_iff hs _ now
  | sendtoserver now => exact intact_sendNow_iff hs _ now
  | init cart =>
    refine (intact_iff_of_same hs (call host s (.init cart)) rfl rfl).trans ?_
    simp [call, pending, netlibInitialize, Keeps]
  | start type =>
    refine (intact_iff_of_same hs (call host s (.start type)) rfl rfl).trans
      ((pending_eq_iff s.globals (netlibStart type s.globals) rfl).trans ?_)
    simp only [packet_start, Keeps]
  | write v =>
    have hflag : (netlibWrite v s.globals).sendafterpoll = s.globals.sendafterpoll := by
      unfold netlibWrite; split_ifs <;> rfl
    refine (intact_iff_of_same hs (call host s (.write v)) rfl rfl).trans
      ((pending_eq_iff s.globals (netlibWrite v s.globals) hflag).trans ?_)
    simp only [packet_write, Keeps]
  | setflags flags =>
    refine (intact_iff_of_same hs (call host s (.setflags flags)) rfl rfl).trans
      ((pending_eq_iff s.globals (netlibSetflags flags s.globals) rfl).trans ?_)
    simp only [packet_setflags, Keeps]
  | register type callback =>
    refine (intact_iff_of_same hs (call host s (.register type callback)) rfl rfl).trans
      (iff_of_true ?_ fun _ => trivial)
    simp only [call, netlibRegister]
    split_ifs <;> exact pending_congr rfl rfl
  | poll now =>
    exact (intact_iff_of_same hs (enterPoll now s) rfl rfl).trans
      (iff_of_true (pending_enterPoll now s) fun _ => trivial)
  | setclient | callbackDisconnect | callbackReconnect | read | skip =>
    exact (intact_iff_of_same hs (call host s _) rfl rfl).trans
      (iff_of_true (pending_congr rfl rfl) fun _ => trivial)

/-! ### Polling -/

/-- The end of `netlib_poll`: a time-out drops the packet, success moves it, a refusal leaves it. -/
theorem intact_finish_iff {s : State} (hs : Intact s) (result : Written) (u : Usb) (rest : List Frame) :
    Intact (finish result u rest s) ↔
      (s.globals.sendafterpoll = true → usbWrite result u ≠ .timeout) := by
  unfold finish
  split_ifs with hflag
  · have hsome : pending s.globals = [s.globals.packet] := if_pos hflag
    have hlen := List.Perm.length_eq hs
    unfold Intact at *
    rw [hsome] at hs hlen
    cases usbWrite result u with
    | success => simpa [pending] using hs
    | fail => simpa [pending, Globals.packet] using hs
    | timeout =>
      simp only [hflag, forall_true_left, ne_eq, not_true_eq_false, iff_false]
      intro h
      have hlen' := h.length_eq
      simp [pending] at hlen hlen'
      omega
  · simpa [hflag, Intact] using hs

theorem intact_turn_iff {s : State} (hs : Intact s) (locals : Locals) (result : Written)
    (curtime : BitVec 64) (rest : List Frame) :
    Intact (turn locals result curtime rest s) ↔ Harmless s (.turn locals result) := by
  unfold turn Harmless
  dsimp only
  split_ifs with h0 hnet
  · simp only [h0, forall_true_left]
    exact intact_finish_iff hs result _ rest
  · simp only [h0, false_imp_iff, implies_true, iff_true]
    split <;> exact (intact_iff_of_same hs _ rfl rfl).mpr rfl
  · simp only [h0, false_imp_iff, implies_true, iff_true]
    exact (intact_iff_of_same hs _ rfl rfl).mpr rfl

/-- **One step.** -/
theorem intact_step {host : Host} {s s' : State} {a : Label} (hs : Intact s)
    (h : step host s a = some s') : Intact s' ↔ Harmless s a := by
  cases a with
  | arrive m =>
    obtain rfl := Option.some.inj h
    exact (intact_iff_of_same hs _ rfl rfl).trans (by simp [Harmless])
  | call c =>
    obtain ⟨-, rfl⟩ : userRuns s.stack ∧ call host s c = s' := by
      simpa [step] using h
    exact intact_call_iff host hs c
  | turn locals result =>
    obtain ⟨curtime, rest, -, rfl⟩ :
        ∃ curtime rest, s.stack = .polling curtime :: rest ∧ turn locals result curtime rest s = s' := by
      unfold step at h
      dsimp only at h
      split at h
      · next curtime rest hstack => exact ⟨curtime, rest, hstack, Option.some.inj h⟩
      · cases h
    exact intact_turn_iff hs locals result curtime rest
  | ret =>
    have hsame : s'.committed = s.committed ∧ s'.written = s.written ∧
        pending s'.globals = pending s.globals := by
      simp only [step, ret] at h
      split at h
      · obtain rfl := Option.some.inj h
        exact ⟨rfl, rfl, rfl⟩
      · obtain rfl := Option.some.inj h
        exact ⟨rfl, rfl, pending_congr rfl rfl⟩
      · cases h
    exact (intact_iff_of_same hs s' hsame.1 hsame.2.1).trans (by simp [Harmless, hsame.2.2])

/-- **Harmless runs are intact, and only these.** -/
theorem intact_iff_harmless (host : Host) (behind : ℕ → BitVec 32) (l : List Label) :
    Always (step host) Intact (init behind) l ↔ Along (step host) Harmless (init behind) l :=
  always_iff_along (J := fun _ => True) (D := fun _ _ => True) (fun _ _ _ _ _ _ => trivial)
    (fun _ _ _ _ hs _ h => intact_step hs h) trivial (List.Perm.refl _) (along_true _ l)

/-- The application sends a packet to a player while a heartbeat of the server waits on the USB, and
its callback answers the heartbeat as the examples do. -/
def heartbeatRun : List Label :=
  let now : Now := ⟨0, false⟩
  let locals : Locals := ⟨0, 0, 0, 0⟩
  [.call (.init .everdrive), .call (.register 0 0x80001000#32),
    .arrive ⟨datatypeNetpacket, netlibBytes 1 0 0 0 0 0 0 0 []⟩,
    .call (.start 5), .call (.write (.byte 1)), .call (.send 2 now), .turn locals .success,
    .call (.start 0), .call (.sendtoserver now), .turn locals .success, .ret, .turn locals .success]

/-- The answer is written, and the packet is neither written nor pending. -/
theorem not_intact_heartbeatRun :
    ¬ ∀ host behind l, Always (step host) Intact (init behind) l := by
  intro h
  obtain ⟨s, hs⟩ : ∃ s, run (step .x86) (init fun _ => 0) heartbeatRun = some s :=
    Option.isSome_iff_exists.mp (by decide +kernel)
  have hrun : (run (step .x86) (init fun _ => 0) heartbeatRun).map (fun s =>
      (s.committed.length, s.written.length, s.globals.sendafterpoll)) = some (2, 1, false) := by
    decide +kernel
  rw [hs, Option.map_some, Option.some.injEq, Prod.mk.injEq, Prod.mk.injEq] at hrun
  obtain ⟨hcommitted, hwritten, hflag⟩ := hrun
  have hlen := ((h .x86 (fun _ => 0) heartbeatRun).last hs).length_eq
  simp [pending, hflag, hcommitted, hwritten] at hlen

end N64NetLib.N64.WriteBuffer
