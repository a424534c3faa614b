import N64NetLib.N64.Callbacks

/-! # What do the disconnect and the reconnect callback mean?

In every call `netlib_poll` compares the time of the last packet with the clock. If the timeout has passed,
or the USB timed out, it calls the disconnect callback, once; when a packet has come since, the other one.

The program is followed by the clock, the time at which the last registered packet was received and the
callbacks that were called (`Tracked`). They always alternate. What they say can be wrong (`Meant`): after a
time-out of the USB the last packet may still be new enough for a reconnect, and the time of a packet is
that of the `netlib_poll` that received it, written when its callback returns, so that a `netlib_poll` in
the callback does not know it yet, and an older one may come later. Runs without such a call are right
(`always_meant`). -/

namespace N64NetLib.N64.Connection

open N64NetLib.Lib.Run N64NetLib.Packet.Basic N64NetLib.Packet.Sequence N64NetLib.N64.Netlib
open N64NetLib.N64.Machine
open N64NetLib.N64.Callbacks (called)

/-! ### What happens -/

/-- A call of one of the two callbacks: when, with the time of the last registered packet, and whether the
USB had timed out; or whether a registered packet came since the last disconnect. -/
inductive Note
  | disconnect (curtime lastpacket : BitVec 64) (timedout : Bool)
  | reconnect (received : Bool)
deriving DecidableEq

def Note.isDisconnect : Note → Bool
  | disconnect .. => true
  | reconnect _ => false

/-- The program, the last time the clock was read, what it said when the last registered packet was
received, whether one was since the last disconnect, and the callbacks called. -/
structure Tracked where
  base : State
  clock : BitVec 64
  lastpacket : BitVec 64
  received : Bool
  notes : List Note

/-- What a `netlib_poll` that begins with the step gets from its surroundings. -/
def pollNow : Label → Option Now
  | .call (.broadcast now) => some now
  | .call (.send _ now) => some now
  | .call (.sendtoserver now) => some now
  | .call (.poll now) => some now
  | _ => none

/-- Whether a call changes the timeout or the callbacks. -/
def setsUp : Label → Bool
  | .call (.init _) => true
  | .call (.callbackDisconnect ..) => true
  | .call (.callbackReconnect _) => true
  | _ => false

/-- What may happen: the clock does not go back, and timeout and callbacks stay. -/
def Allowed (t : Tracked) (a : Label) : Prop :=
  setsUp a = false ∧ ∀ now, pollNow a = some now → t.clock ≤ now.curtime

instance (t : Tracked) (a : Label) : Decidable (Allowed t a) := by
  unfold Allowed; infer_instance

/-- The callback that the call of `netlib_poll` is in, if it is in one of the two. -/
def notified (s : State) : Option Bool :=
  match s.stack with
  | .notified lost _ :: _ => some lost
  | _ => none

/-- A `netlib_poll` begins, which leads to `s`. -/
def trackPoll (t : Tracked) (s : State) (now : Now) : Tracked :=
  match notified s with
  | some true =>
    { t with
      base := s
      clock := now.curtime
      received := false
      notes := t.notes ++ [.disconnect now.curtime t.lastpacket now.timedout] }
  | some false =>
    { t with base := s, clock := now.curtime, notes := t.notes ++ [.reconnect t.received] }
  | none => { t with base := s, clock := now.curtime }

/-- The step of the program leads to `s`. -/
def track (t : Tracked) (s : State) (a : Label) : Tracked :=
  match pollNow a with
  | some now => trackPoll t s now
  | none =>
    if (called t.base a).isSome then { t with base := s, lastpacket := t.clock, received := true }
    else { t with base := s }

/-- One step. -/
def step (host : Host) (t : Tracked) (a : Label) : Option Tracked :=
  if Allowed t a then (Machine.step host t.base a).map fun s => track t s a else none

/-- The program when it has been set up, with both callbacks. -/
structure Setup where
  globals : Globals
  usb : Usb
  clock : BitVec 64
  connected : globals.disconnected = false
  disconnect : globals.funcptrDisconnect ≠ 0
  reconnect : globals.funcptrReconnect ≠ 0
  past : globals.lastpkt ≤ clock

def start (s : Setup) : Tracked :=
  ⟨⟨s.globals, s.usb, [], [], []⟩, s.clock, s.globals.lastpkt, false, []⟩

/-! ### What it should mean -/

/-- The timeout has passed since the packet. -/
def Passed (timeout : BitVec 32) (lastpacket curtime : BitVec 64) : Prop :=
  lastpacket.toNat + timeout.toNat ≤ curtime.toNat

/-- The callback was called for a reason. -/
def Justified (timeout : BitVec 32) : Note → Prop
  | .disconnect curtime lastpacket timedout =>
    timedout = true ∨ lastpacket.toNat + timeout.toNat < curtime.toNat
  | .reconnect received => received = true

/-- **The callbacks mean what they say**: they alternate, beginning with a disconnect, a disconnect comes
when no registered packet was received within the timeout or the USB timed out, and a reconnect when one
was received since. -/
structure Meant (t : Tracked) : Prop where
  alternate : ∀ k note, t.notes[k]? = some note → (note.isDisconnect = true ↔ k % 2 = 0)
  justified : ∀ note ∈ t.notes, Justified t.base.globals.timeouttime note

/-- The condition: while it is connected, `netlib_poll` finds the USB timed out only if the timeout has
passed since the last registered packet; and if it finds that the timeout has passed, the time it has
for this packet is the right one, and the sum with the timeout a word. -/
def Steady (t : Tracked) (a : Label) : Prop :=
  ∀ now, pollNow a = some now → t.base.globals.disconnected = false →
    if now.timedout then Passed t.base.globals.timeouttime t.lastpacket now.curtime
    else t.base.globals.lastpkt + t.base.globals.timeouttime.setWidth 64 < now.curtime →
      t.base.globals.lastpkt = t.lastpacket ∧
        t.lastpacket.toNat + t.base.globals.timeouttime.toNat < 2 ^ 64

/-! ### The globals of the connection -/

/-- Two states of the globals with the same connection, the time of the last packet apart. -/
structure Linked (g g' : Globals) : Prop where
  timeouttime : g'.timeouttime = g.timeouttime
  disconnected : g'.disconnected = g.disconnected
  funcptrDisconnect : g'.funcptrDisconnect = g.funcptrDisconnect
  funcptrReconnect : g'.funcptrReconnect = g.funcptrReconnect

theorem Linked.refl (g : Globals) : Linked g g := ⟨rfl, rfl, rfl, rfl⟩

/-- A call that is allowed and does not poll keeps the connection and the stack. -/
theorem linked_call (host : Host) {t : Tracked} {c : Call} (hallowed : Allowed t (.call c))
    (hpoll : pollNow (.call c) = none) :
    (call host t.base c).stack = t.base.stack ∧ Linked t.base.globals (call host t.base c).globals ∧
      (call host t.base c).globals.lastpkt = t.base.globals.lastpkt := by
  cases c with
  | init | callbackDisconnect | callbackReconnect => exact absurd hallowed.1 (by simp [setsUp])
  | broadcast | send | sendtoserver | poll => cases hpoll
  | setclient | start | setflags | read | skip => exact ⟨rfl, ⟨rfl, rfl, rfl, rfl⟩, rfl⟩
  | register type callback =>
    have hregister : Linked t.base.globals (netlibRegister type callback t.base.globals) ∧
        (netlibRegister type callback t.base.globals).lastpkt = t.base.globals.lastpkt := by
      unfold netlibRegister
      split_ifs <;> exact ⟨⟨rfl, rfl, rfl, rfl⟩, rfl⟩
    exact ⟨rfl, hregister⟩
  | write v =>
    have hwrite : Linked t.base.globals (netlibWrite v t.base.globals) ∧
        (netlibWrite v t.base.globals).lastpkt = t.base.globals.lastpkt := by
      unfold netlibWrite
      split_ifs <;> exact ⟨⟨rfl, rfl, rfl, rfl⟩, rfl⟩
    exact ⟨rfl, hwrite⟩

/-- The steps that poll: `netlib_poll` begins in a state with the same connection. -/
theorem step_poll {host : Host} {s s' : State} {a : Label} {now : Now} (hpoll : pollNow a = some now)
    (h : Machine.step host s a = some s') : ∃ s₁, s₁.stack = s.stack ∧ Linked s.globals s₁.globals ∧
      s₁.globals.lastpkt = s.globals.lastpkt ∧ s' = enterPoll now s₁ := by
  cases a with
  | arrive | turn | ret => cases hpoll
  | call c =>
    obtain ⟨-, rfl⟩ : userRuns s.stack ∧ call host s c = s' := by simpa [Machine.step] using h
    have hsend : ∀ mask, ∃ s₁, s₁.stack = s.stack ∧ Linked s.globals s₁.globals ∧
        s₁.globals.lastpkt = s.globals.lastpkt ∧ sendNow (commit mask) now s = enterPoll now s₁ := fun mask =>
      ⟨{ s with
          globals := commit mask s.globals, committed := s.committed ++ [(commit mask s.globals).packet] },
        rfl, ⟨rfl, rfl, rfl, rfl⟩, rfl, rfl⟩
    cases c with
    | broadcast | send | sendtoserver =>
      obtain rfl := Option.some.inj hpoll
      exact hsend _
    | poll =>
      obtain rfl := Option.some.inj hpoll
      exact ⟨s, rfl, Linked.refl _, rfl, rfl⟩
    | _ => cases hpoll

/-- **The beginning of `netlib_poll`**: it disconnects, or it reconnects, or it does neither. -/
theorem enterPoll_cases (now : Now) {s : State} (hdisconnect : s.globals.funcptrDisconnect ≠ 0)
    (hreconnect : s.globals.funcptrReconnect ≠ 0) :
    (s.globals.disconnected = false ∧
        (now.timedout = true ∨ s.globals.lastpkt + s.globals.timeouttime.setWidth 64 < now.curtime) ∧
        enterPoll now s = { s with
          globals := { s.globals with disconnected := true }
          stack := .notified true now.curtime :: s.stack }) ∨
      (s.globals.disconnected = true ∧
        s.globals.lastpkt + s.globals.timeouttime.setWidth 64 > now.curtime ∧
        enterPoll now s = { s with
          globals := { s.globals with disconnected := false }
          stack := .notified false now.curtime :: s.stack }) ∨
      enterPoll now s = { s with stack := .polling now.curtime :: s.stack } := by
  unfold enterPoll checkConnection
  simp only [hdisconnect, hreconnect, ne_eq, not_false_eq_true, if_true]
  split_ifs with hlost hback
  · simp only [Bool.and_eq_true, Bool.not_eq_true', Bool.or_eq_true, decide_eq_true_eq] at hlost
    exact Or.inl ⟨hlost.1, hlost.2.symm, rfl⟩
  · simp only [Bool.and_eq_true, decide_eq_true_eq] at hback
    exact Or.inr (Or.inl ⟨hback.1, hback.2, rfl⟩)
  · exact Or.inr (Or.inr rfl)

/-- **A turn of the loop** calls a registered function, or no function. -/
theorem turn_cases (locals : Locals) (result : Written) (curtime : BitVec 64) (rest : List Frame)
    (s : State) :
    Linked s.globals (turn locals result curtime rest s).globals ∧
      (turn locals result curtime rest s).globals.lastpkt = s.globals.lastpkt ∧
      ((called s (.turn locals result) = none ∧ ((turn locals result curtime rest s).stack = rest ∨
          (turn locals result curtime rest s).stack = .polling curtime :: rest)) ∨
        ((called s (.turn locals result)).isSome ∧ ∃ type address size,
          (turn locals result curtime rest s).stack = .dispatched type address size curtime :: rest)) := by
  have hfinish : ∀ u, Linked s.globals (finish result u rest s).globals ∧
      (finish result u rest s).globals.lastpkt = s.globals.lastpkt ∧
        (finish result u rest s).stack = rest := fun u => by
    unfold finish
    split_ifs <;> exact ⟨⟨rfl, rfl, rfl, rfl⟩, rfl, rfl⟩
  unfold turn called
  dsimp only
  split_ifs with hnone hnet hnet
  · rw [hnone] at hnet
    cases hnet
  · obtain ⟨hlinked, hlastpkt, hstack⟩ := hfinish (usbPoll s.usb).2
    exact ⟨hlinked, hlastpkt, Or.inl ⟨rfl, Or.inl hstack⟩⟩
  · cases hheader : readHeader locals s.globals (usbPoll s.usb).2 with
    | mk found u =>
      cases found with
      | unsupported => exact ⟨Linked.refl _, rfl, Or.inl ⟨rfl, Or.inl rfl⟩⟩
      | unregistered => exact ⟨Linked.refl _, rfl, Or.inl ⟨rfl, Or.inl rfl⟩⟩
      | callback type address size =>
        exact ⟨Linked.refl _, rfl, Or.inr ⟨rfl, type, address, size, rfl⟩⟩
  · exact ⟨Linked.refl _, rfl, Or.inl ⟨rfl, Or.inr rfl⟩⟩

/-! ### The invariant -/

/-- A call of `netlib_poll` has read the clock by now, and that of a callback of a packet no later than
when the last packet was received. -/
def Timely (t : Tracked) : Frame → Prop
  | .polling curtime => curtime.toNat ≤ t.clock.toNat
  | .notified _ curtime => curtime.toNat ≤ t.clock.toNat
  | .dispatched _ _ _ curtime => curtime.toNat ≤ t.lastpacket.toNat

/-- **The invariant**: the times are in order, the latch says which callback was called last, and while
nothing is received after a disconnect, the timeout has passed since the last packet. -/
structure Inv (t : Tracked) : Prop where
  disconnect : t.base.globals.funcptrDisconnect ≠ 0
  reconnect : t.base.globals.funcptrReconnect ≠ 0
  lastpkt : t.base.globals.lastpkt.toNat ≤ t.lastpacket.toNat
  lastpacket : t.lastpacket.toNat ≤ t.clock.toNat
  frames : ∀ f ∈ t.base.stack, Timely t f
  latch : t.base.globals.disconnected = true ↔ t.notes.length % 2 = 1
  lost : t.base.globals.disconnected = true → t.received = false →
    Passed t.base.globals.timeouttime t.lastpacket t.clock
  meant : Meant t

theorem inv_start (s : Setup) : Inv (start s) where
  disconnect := s.disconnect
  reconnect := s.reconnect
  lastpkt := Nat.le_refl _
  lastpacket := s.past
  frames := nofun
  latch := by simp [start, s.connected]
  lost := by simp [start, s.connected]
  meant := ⟨by simp [start], by simp [start]⟩

/-- A step that leaves the latch and the notes: the frames are timely, and the times go on. -/
theorem Inv.go {t t' : Tracked} (ht : Inv t) (hlinked : Linked t.base.globals t'.base.globals)
    (hnotes : t'.notes = t.notes) (hlastpkt : t'.base.globals.lastpkt.toNat ≤ t'.lastpacket.toNat)
    (hlastpacket : t'.lastpacket.toNat ≤ t'.clock.toNat) (hclock : t.clock.toNat ≤ t'.clock.toNat)
    (hframes : ∀ f ∈ t'.base.stack, Timely t' f)
    (hreceived : t'.received = false → t.received = false ∧ t'.lastpacket = t.lastpacket) : Inv t' where
  disconnect := hlinked.funcptrDisconnect ▸ ht.disconnect
  reconnect := hlinked.funcptrReconnect ▸ ht.reconnect
  lastpkt := hlastpkt
  lastpacket := hlastpacket
  frames := hframes
  latch := by rw [hlinked.disconnected, hnotes, ht.latch]
  lost := by
    intro hlost hnone
    obtain ⟨hnone', hsame⟩ := hreceived hnone
    rw [hlinked.disconnected] at hlost
    have hpassed := ht.lost hlost hnone'
    rw [hlinked.timeouttime, hsame]
    exact Nat.le_trans hpassed hclock
  meant := by
    refine ⟨by rw [hnotes]; exact ht.meant.alternate, fun note hnote => ?_⟩
    rw [hlinked.timeouttime]
    exact ht.meant.justified note (hnotes ▸ hnote)

/-- A callback is called: it is the other one than before. -/
theorem Meant.note {t t' : Tracked} (ht : Meant t) {note : Note} (hnotes : t'.notes = t.notes ++ [note])
    (htimeout : t'.base.globals.timeouttime = t.base.globals.timeouttime)
    (hturn : note.isDisconnect = true ↔ t.notes.length % 2 = 0)
    (hwhy : Justified t.base.globals.timeouttime note) : Meant t' := by
  refine ⟨fun k note' hk => ?_, fun note' hnote' => ?_⟩
  · rw [hnotes] at hk
    rcases Nat.lt_or_ge k t.notes.length with hlt | hge
    · rw [List.getElem?_append_left hlt] at hk
      exact ht.alternate k note' hk
    · rw [List.getElem?_append_right hge] at hk
      rw [List.getElem?_singleton] at hk
      split_ifs at hk with hzero
      rw [← Option.some.inj hk, show k = t.notes.length by omega, hturn]
  · rw [htimeout]
    rw [hnotes, List.mem_append, List.mem_singleton] at hnote'
    rcases hnote' with hold | rfl
    · exact ht.justified note' hold
    · exact hwhy

/-- The sum with the timeout, if it is a word. -/
theorem toNat_add_timeout {lastpkt : BitVec 64} {timeouttime : BitVec 32}
    (h : lastpkt.toNat + timeouttime.toNat < 2 ^ 64) :
    (lastpkt + timeouttime.setWidth 64).toNat = lastpkt.toNat + timeouttime.toNat := by
  have htimeout := timeouttime.isLt
  rw [BitVec.toNat_add, BitVec.toNat_setWidth, Nat.mod_eq_of_lt (by omega : timeouttime.toNat < 2 ^ 64),
    Nat.mod_eq_of_lt h]

/-- The times go on. -/
theorem Timely.mono {t t' : Tracked} {f : Frame} (h : Timely t f) (hclock : t.clock.toNat ≤ t'.clock.toNat)
    (hlastpacket : t.lastpacket.toNat ≤ t'.lastpacket.toNat) : Timely t' f := by
  cases f with
  | polling curtime => exact Nat.le_trans h hclock
  | notified lost curtime => exact Nat.le_trans h hclock
  | dispatched type address size curtime => exact Nat.le_trans h hlastpacket

/-- **A `netlib_poll` begins.** -/
theorem inv_trackPoll {t : Tracked} (ht : Inv t) {now : Now} (hclock : t.clock ≤ now.curtime)
    {s₁ : State} (hstack : s₁.stack = t.base.stack) (hlinked : Linked t.base.globals s₁.globals)
    (hlastpkt : s₁.globals.lastpkt = t.base.globals.lastpkt)
    (hsteady : t.base.globals.disconnected = false →
      if now.timedout then Passed t.base.globals.timeouttime t.lastpacket now.curtime
      else t.base.globals.lastpkt + t.base.globals.timeouttime.setWidth 64 < now.curtime →
        t.base.globals.lastpkt = t.lastpacket ∧
          t.lastpacket.toNat + t.base.globals.timeouttime.toNat < 2 ^ 64) :
    Inv (trackPoll t (enterPoll now s₁) now) := by
  have hclock' : t.clock.toNat ≤ now.curtime.toNat := hclock
  have hlastpacket := ht.lastpacket
  have hdisconnect : s₁.globals.funcptrDisconnect ≠ 0 := hlinked.funcptrDisconnect ▸ ht.disconnect
  have hreconnect : s₁.globals.funcptrReconnect ≠ 0 := hlinked.funcptrReconnect ▸ ht.reconnect
  have hframes : ∀ {t' : Tracked} {f : Frame}, t'.clock = now.curtime → t'.lastpacket = t.lastpacket →
      Timely t' f → ∀ f' ∈ f :: s₁.stack, Timely t' f' := by
    intro t' f hnow hlast hf f' hf'
    rcases List.mem_cons.mp hf' with rfl | hf'
    · exact hf
    · exact (ht.frames f' (hstack ▸ hf')).mono (hnow ▸ hclock') (hlast ▸ Nat.le_refl _)
  rcases enterPoll_cases now hdisconnect hreconnect with
    ⟨hconnected, hwhy, heq⟩ | ⟨hlost, hback, heq⟩ | heq
  · -- it disconnects, and the timeout has passed since the last packet
    rw [hlinked.disconnected] at hconnected
    rw [hlinked.timeouttime, hlastpkt] at hwhy
    have heven : t.notes.length % 2 = 0 := by
      have hlatch := ht.latch
      rw [hconnected] at hlatch
      simp at hlatch
      exact hlatch
    obtain ⟨hpassed, hjust⟩ : Passed t.base.globals.timeouttime t.lastpacket now.curtime ∧
        Justified t.base.globals.timeouttime (.disconnect now.curtime t.lastpacket now.timedout) := by
      have hmust := hsteady hconnected
      split_ifs at hmust with htimedout
      · exact ⟨hmust, Or.inl htimedout⟩
      · have hlate := hwhy.resolve_left htimedout
        obtain ⟨hright, hword⟩ := hmust hlate
        rw [hright, BitVec.lt_def, toNat_add_timeout hword] at hlate
        exact ⟨Nat.le_of_lt hlate, Or.inr hlate⟩
    rw [heq]
    exact {
      disconnect := hdisconnect
      reconnect := hreconnect
      lastpkt := by simpa [trackPoll, notified, hlastpkt] using ht.lastpkt
      lastpacket := Nat.le_trans hlastpacket hclock'
      frames := hframes rfl rfl (Nat.le_refl _)
      latch := by simp [trackPoll, notified]; omega
      lost := fun _ _ => by simpa [trackPoll, notified, hlinked.timeouttime] using hpassed
      meant := ht.meant.note rfl hlinked.timeouttime (by simpa [Note.isDisconnect] using heven) hjust }
  · -- it reconnects, so that a packet has come
    rw [hlinked.disconnected] at hlost
    rw [hlinked.timeouttime, hlastpkt] at hback
    have hodd : t.notes.length % 2 = 1 := ht.latch.mp hlost
    have hreceived : t.received = true := by
      by_contra hnone
      have hpassed : t.lastpacket.toNat + t.base.globals.timeouttime.toNat ≤ t.clock.toNat :=
        ht.lost hlost (by simpa using hnone)
      have hle := ht.lastpkt
      have hlt := now.curtime.isLt
      rw [gt_iff_lt, BitVec.lt_def, toNat_add_timeout (by omega)] at hback
      omega
    rw [heq]
    exact {
      disconnect := hdisconnect
      reconnect := hreconnect
      lastpkt := by simpa [trackPoll, notified, hlastpkt] using ht.lastpkt
      lastpacket := Nat.le_trans hlastpacket hclock'
      frames := hframes rfl rfl (Nat.le_refl _)
      latch := by simp [trackPoll, notified]; omega
      lost := fun hstill => by simp [trackPoll, notified] at hstill
      meant := ht.meant.note rfl hlinked.timeouttime (by simp [Note.isDisconnect, hodd]) hreceived }
  · rw [heq]
    exact ht.go hlinked rfl (by simpa [trackPoll, notified, hlastpkt] using ht.lastpkt)
      (Nat.le_trans hlastpacket hclock') hclock' (hframes rfl rfl (Nat.le_refl _)) fun hnone => ⟨hnone, rfl⟩

/-- **Any other step.** -/
theorem inv_track {host : Host} {t : Tracked} (ht : Inv t) {a : Label} (hallowed : Allowed t a)
    (hpoll : pollNow a = none) {s : State} (h : Machine.step host t.base a = some s) : Inv (track t s a) := by
  have hquiet : called t.base a = none → Linked t.base.globals s.globals →
      s.globals.lastpkt.toNat ≤ t.lastpacket.toNat → (∀ f ∈ s.stack, Timely t f) → Inv (track t s a) := by
    intro hcalled hlinked hlastpkt hframes
    have heq : track t s a = { t with base := s } := by simp [track, hpoll, hcalled]
    rw [heq]
    exact ht.go hlinked rfl hlastpkt ht.lastpacket (Nat.le_refl _)
      (fun f hf => (hframes f hf).mono (Nat.le_refl _) (Nat.le_refl _)) fun hnone => ⟨hnone, rfl⟩
  cases a with
  | arrive m =>
    obtain rfl := Option.some.inj h
    exact hquiet rfl (Linked.refl _) ht.lastpkt ht.frames
  | call c =>
    obtain ⟨-, rfl⟩ : userRuns t.base.stack ∧ call host t.base c = s := by simpa [Machine.step] using h
    obtain ⟨hstack, hlinked, hlastpkt⟩ := linked_call host hallowed hpoll
    exact hquiet rfl hlinked (hlastpkt ▸ ht.lastpkt) (hstack ▸ ht.frames)
  | turn locals result =>
    obtain ⟨curtime, rest, hstack, rfl⟩ : ∃ curtime rest, t.base.stack = .polling curtime :: rest ∧
        turn locals result curtime rest t.base = s := by
      simp only [Machine.step] at h
      split at h
      · next curtime rest hstack => exact ⟨curtime, rest, hstack, Option.some.inj h⟩
      · cases h
    obtain ⟨hlinked, hlastpkt, ⟨hcalled, hframes⟩ | ⟨hcalled, type, address, size, hframes⟩⟩ :=
      turn_cases locals result curtime rest t.base
    · refine hquiet hcalled hlinked (hlastpkt ▸ ht.lastpkt) fun f hf => ht.frames f ?_
      rw [hstack]
      rcases hframes with hframes | hframes
      · exact List.mem_cons_of_mem _ (hframes ▸ hf)
      · exact hframes ▸ hf
    · have heq : track t (turn locals result curtime rest t.base) (.turn locals result) =
          { t with
            base := turn locals result curtime rest t.base, lastpacket := t.clock, received := true } := by
        simp [track, pollNow, hcalled]
      rw [heq]
      refine ht.go hlinked rfl ?_ (Nat.le_refl _) (Nat.le_refl _) (fun f hf => ?_) (by simp)
      · exact Nat.le_trans (hlastpkt ▸ ht.lastpkt) ht.lastpacket
      · have hpolling : curtime.toNat ≤ t.clock.toNat := ht.frames (.polling curtime) (by simp [hstack])
        rw [hframes] at hf
        rcases List.mem_cons.mp hf with rfl | hf
        · exact hpolling
        · exact (ht.frames f (by simp [hstack, hf])).mono (Nat.le_refl _) ht.lastpacket
  | ret =>
    simp only [Machine.step, ret] at h
    split at h
    · next lost curtime rest hstack =>
      obtain rfl := Option.some.inj h
      have htimely : Timely t (.notified lost curtime) := ht.frames _ (by simp [hstack])
      refine hquiet rfl (Linked.refl _) ht.lastpkt fun f hf => ?_
      rcases List.mem_cons.mp hf with rfl | hf
      · exact htimely
      · exact ht.frames f (by simp [hstack, hf])
    · next type address size curtime rest hstack =>
      obtain rfl := Option.some.inj h
      have htimely : Timely t (.dispatched type address size curtime) := ht.frames _ (by simp [hstack])
      refine hquiet rfl ⟨rfl, rfl, rfl, rfl⟩ htimely fun f hf => ?_
      rcases List.mem_cons.mp hf with rfl | hf
      · exact Nat.le_trans htimely ht.lastpacket
      · exact ht.frames f (by simp [hstack, hf])
    · cases h

theorem inv_step {host : Host} {t t' : Tracked} {a : Label} (ht : Inv t) (hsteady : Steady t a)
    (h : step host t a = some t') : Inv t' := by
  unfold step at h
  split_ifs at h with hallowed
  obtain ⟨s, hs, rfl⟩ := Option.map_eq_some_iff.mp h
  cases hpoll : pollNow a with
  | none => exact inv_track ht hallowed hpoll hs
  | some now =>
    obtain ⟨s₁, hstack, hlinked, hlastpkt, rfl⟩ := step_poll hpoll hs
    have hclock : t.clock ≤ now.curtime := hallowed.2 now hpoll
    rw [track, hpoll]
    exact inv_trackPoll ht hclock hstack hlinked hlastpkt (hsteady now hpoll)

/-- **When the callbacks mean what they say**: in every run that is steady. -/
theorem always_meant (host : Host) (s : Setup) {l : List Label} (h : Along (step host) Steady (start s) l) :
    Always (step host) Meant (start s) l :=
  always_of_along (J := Inv) (fun _ _ _ ht hsteady hstep => inv_step ht hsteady hstep)
    (fun _ _ _ ht _ hsteady hstep => (inv_step ht hsteady hstep).meant) (inv_start s) (inv_start s).meant h

instance (t : Tracked) (a : Label) : Decidable (Steady t a) := by
  unfold Steady Passed; infer_instance

/-- A program with a timeout of ten cycles, and a callback for the type 5. -/
def tenCycles : Setup where
  globals := { startGlobals (fun _ => 0) with
    timeouttime := 10
    funcptrDisconnect := 0x80001000#32
    funcptrReconnect := 0x80002000#32
    funcptrs := fun i => if i = 5 then 0x80003000#32 else 0 }
  usb := ⟨.everdrive, 0, [], []⟩
  clock := 0
  connected := rfl
  disconnect := by decide
  reconnect := by decide
  past := by decide

/-- A packet of this type comes. -/
def packetComes : Label := .arrive ⟨datatypeNetpacket, netlibBytes 1 5 0 0 0 0 0 0 []⟩

def pollAt (curtime : BitVec 64) (timedout : Bool) : Label := .call (.poll ⟨curtime, timedout⟩)

def nextTurn : Label := .turn ⟨0, 0, 0, 0⟩ .success

/-- The timeout passes, and a packet comes after it. -/
def quietRun : List Label :=
  [pollAt 11 false, .ret, nextTurn, packetComes, pollAt 12 false, nextTurn, .ret, nextTurn,
    pollAt 13 false, .ret, nextTurn]

theorem always_meant_quietRun : Always (step .x86) Meant (start tenCycles) quietRun :=
  always_meant .x86 tenCycles (by decide +kernel)

/-- The USB times out once, before the timeout has passed. -/
def flappingRun : List Label := [pollAt 5 true, .ret, nextTurn, pollAt 6 false]

/-- The callback of a packet polls. -/
def answeringRun : List Label := [packetComes, pollAt 8 false, nextTurn, pollAt 11 false]

/-- The connection comes back without a packet, and is lost although one has just come. -/
theorem not_meant_runs : ¬ Always (step .x86) Meant (start tenCycles) flappingRun ∧
    ¬ Always (step .x86) Meant (start tenCycles) answeringRun := by
  have hlast : ∀ {l : List Label} (note : Note), (run (step .x86) (start tenCycles) l).map (fun t =>
      (t.notes.getLast?, t.base.globals.timeouttime)) = some (some note, 10) → ¬ Justified 10 note →
        ¬ Always (step .x86) Meant (start tenCycles) l := by
    intro l note hl hno h
    obtain ⟨t, ht, hnote⟩ := Option.map_eq_some_iff.mp hl
    obtain ⟨hnote, htimeout⟩ := Prod.mk.inj hnote
    exact hno (htimeout ▸ (h.last ht).justified note (List.mem_of_getLast? hnote))
  exact ⟨hlast (.reconnect false) (by decide +kernel) (by simp [Justified]),
    hlast (.disconnect 11 8 false) (by decide +kernel) (by simp [Justified])⟩

end N64NetLib.N64.Connection
