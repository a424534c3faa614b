import N64NetLib.N64.Machine

/-! # Is every packet dispatched once, from its own header?

`netlib_poll` reads the header of a packet and calls the function registered for its type, which reads
what it likes of the payload and may send, and so call `netlib_poll` again. Both calls look at the one
USB layer, which knows what is left of the packet it holds, and not whose packet that is.

What is read is followed by the packets that arrived, the callbacks that were called and run, and what
they read (`Tracked`). `Dispatched` says that each packet gets one call, with its own type and size,
and that a callback reads its own payload. This holds as long as no call of `netlib_poll` finds the
rest of a packet whose callback runs, and no callback returns when the USB layer has the next packet
already (`Undisturbed`), and no longer (`dispatched_iff`). The next packet is there early on a 64Drive,
which is polled again when the last byte has been read. -/

namespace N64NetLib.N64.Dispatch

open N64NetLib.Lib.Run N64NetLib.Lib.BigEndian N64NetLib.Packet.Basic N64NetLib.Packet.Sequence
open N64NetLib.N64.Netlib N64NetLib.N64.Machine

/-! ### What happens to the packets -/

/-- A call of a registered function: the packet whose bytes the header was read from, by its place
among those that arrived, and the type and the size that were read. -/
structure Called where
  packet : ℕ
  type : UInt8
  size : BitVec 16
deriving DecidableEq, Repr

/-- A callback that runs: its packet, and how much of the payload it has read and skipped. -/
structure Running where
  packet : ℕ
  pos : ℕ
deriving DecidableEq, Repr

/-- What a callback read: at which place of the payload, how much, and what it got. -/
structure Read where
  packet : ℕ
  pos : ℕ
  count : ℕ
  data : List UInt8
deriving DecidableEq, Repr

/-- The program, the packets that arrived, the calls so far, the callbacks that run, the innermost
first, and what was read. -/
structure Tracked where
  base : State
  arrived : List Message
  calls : List Called
  running : List Running
  reads : List Read

/-- The program when it has been set up. -/
def start (cart : Cart) (g : Globals) : Tracked :=
  ⟨⟨g, ⟨cart, 0, [], []⟩, [], [], []⟩, [], [], [], []⟩

/-- A net packet with a callback registered for its type. -/
structure NetPacket (g : Globals) (m : Message) : Prop where
  datatype : m.datatype = datatypeNetpacket
  header : packetHeadersize ≤ m.data.length
  size : m.data.length = packetHeadersize + (ofBe16 (m.data.getD 16 0) (m.data.getD 17 0)).toNat
  version : m.data.getD 3 0 ≤ netlibVersion
  registered : g.funcptrs (m.data.getD 4 0).toNat ≠ 0

/-- The innermost callback has this much left to read of the size it was called with. -/
def Within (t : Tracked) (count : ℕ) : Prop :=
  match t.base.stack, t.running with
  | .dispatched _ _ size _ :: _, r :: _ => r.pos + count ≤ size.toNat
  | _, _ => False

/-- What may happen: net packets arrive, callbacks read their payload, and no function is
unregistered. -/
def Allowed (t : Tracked) : Label → Prop
  | .arrive m => NetPacket t.base.globals m
  | .call (.init _) => False
  | .call (.register _ callback) => callback ≠ 0
  | .call (.read size) => Within t size
  | .call (.skip count) => Within t count
  | _ => True

/-- The callback that a turn of the loop of `netlib_poll` calls. -/
def callback (locals : Locals) (s : State) : Option (UInt8 × BitVec 16) :=
  if (usbPoll s.usb).1 = datatypeNetpacket then
    match (readHeader locals s.globals (usbPoll s.usb).2).1 with
    | .callback type _ size => some (type, size)
    | _ => none
  else none

/-- The packet the USB layer has after `usb_poll`. -/
def polled (t : Tracked) : ℕ := t.arrived.length - (usbPoll t.base.usb).2.incoming.length - 1

/-- The step of the program leads to `s`. -/
def track (t : Tracked) (s : State) : Label → Tracked
  | .arrive m => { t with base := s, arrived := t.arrived ++ [m] }
  | .call (.read size) =>
    match t.running with
    | [] => { t with base := s }
    | r :: rest =>
      { t with
        base := s
        running := ⟨r.packet, r.pos + size⟩ :: rest
        reads := t.reads ++ [⟨r.packet, r.pos, size, (usbRead size t.base.usb).1⟩] }
  | .call (.skip count) =>
    match t.running with
    | [] => { t with base := s }
    | r :: rest => { t with base := s, running := ⟨r.packet, r.pos + count⟩ :: rest }
  | .turn locals _ =>
    match callback locals t.base with
    | none => { t with base := s }
    | some (type, size) =>
      { t with
        base := s
        calls := t.calls ++ [⟨polled t, type, size⟩]
        running := ⟨polled t, 0⟩ :: t.running }
  | .ret =>
    match t.base.stack with
    | .dispatched .. :: _ => { t with base := s, running := t.running.tail }
    | _ => { t with base := s }
  | _ => { t with base := s }

instance (g : Globals) (m : Message) : Decidable (NetPacket g m) :=
  decidable_of_iff (m.datatype = datatypeNetpacket ∧ packetHeadersize ≤ m.data.length ∧
    m.data.length = packetHeadersize + (ofBe16 (m.data.getD 16 0) (m.data.getD 17 0)).toNat ∧
      m.data.getD 3 0 ≤ netlibVersion ∧ g.funcptrs (m.data.getD 4 0).toNat ≠ 0)
    ⟨fun ⟨h1, h2, h3, h4, h5⟩ => ⟨h1, h2, h3, h4, h5⟩, fun ⟨h1, h2, h3, h4, h5⟩ => ⟨h1, h2, h3, h4, h5⟩⟩

instance (t : Tracked) (count : ℕ) : Decidable (Within t count) := by
  unfold Within; split <;> infer_instance

instance (t : Tracked) (a : Label) : Decidable (Allowed t a) := by
  unfold Allowed; split <;> infer_instance

/-- One step. -/
def step (host : Host) (t : Tracked) (a : Label) : Option Tracked :=
  if Allowed t a then (Machine.step host t.base a).map fun s => track t s a else none

/-! ### What should happen to them -/

/-- How many packets the cart has handed over. -/
def handed (t : Tracked) : ℕ := t.arrived.length - t.base.usb.incoming.length

/-- The USB layer has a packet whose callback has not been called. -/
def Fresh (t : Tracked) : Prop := t.calls.length < handed t

/-- What a callback has not read of its payload. -/
def unread (arrived : List Message) (r : Running) : List UInt8 :=
  (arrived[r.packet]?.elim [] (·.data)).drop (packetHeadersize + r.pos)

/-- **Every packet is dispatched once, from its own header**: the calls are those for the packets in
the order of arrival, with the type and the size in each, and a packet that was not dispatched yet is
still to be handed over, or is in the USB layer as it came. A callback reads consecutive bytes of its
own payload, and what it has not read yet is still to be read. -/
structure Dispatched (t : Tracked) : Prop where
  calls : ∀ k (d : Called), t.calls[k]? = some d → d.packet = k ∧ ∃ m, t.arrived[k]? = some m ∧
    d.type = m.data.getD 4 0 ∧ d.size = ofBe16 (m.data.getD 16 0) (m.data.getD 17 0)
  waiting : ∀ i (m : Message), t.arrived[i]? = some m → t.calls.length ≤ i →
    handed t ≤ i ∨ i + 1 = handed t ∧ t.base.usb.data = m.data
  reads : ∀ r ∈ t.reads, ∃ m, t.arrived[r.packet]? = some m ∧
    r.data = ((m.data.drop packetHeadersize).drop r.pos).take r.count
  unread : ∀ r, t.running.head? = some r →
    unread t.arrived r = [] ∨ ¬ Fresh t ∧ t.base.usb.data = unread t.arrived r

/-- **Nothing disturbs a packet**: when `netlib_poll` looks for one, nothing is left of a packet whose
callback was called, and when a callback returns, the next packet is not there yet. -/
def Undisturbed (t : Tracked) : Label → Prop
  | .turn .. => t.base.usb.data = [] ∨ Fresh t
  | .ret =>
    match t.base.stack with
    | .dispatched .. :: _ => ¬ Fresh t
    | _ => True
  | _ => True

/-! ### The USB layer -/

/-- Where the USB layer is: it has a packet that was not dispatched, or the rest of one whose callback
runs; `n` packets were dispatched, and `rests` is what the callbacks have not read. -/
def Holds (arrived : List Message) (n : ℕ) (rests : List (List UInt8)) (u : Usb) : Prop :=
  ∃ taken, arrived = taken ++ u.incoming ∧
    ((taken.length = n + 1 ∧ (∃ m, taken[n]? = some m ∧ u.data = m.data) ∧
        u.datatype = datatypeNetpacket ∧ ∀ x ∈ rests, x = []) ∨
      (taken.length = n ∧ u.data = rests.headD [] ∧ (u.data ≠ [] → u.datatype = datatypeNetpacket) ∧
        ∀ x ∈ rests.tail, x = []))

/-- All that arrived are net packets. -/
def NetPackets (g : Globals) (arrived : List Message) : Prop := ∀ m ∈ arrived, NetPacket g m

theorem NetPacket.data_ne_nil {g : Globals} {m : Message} (h : NetPacket g m) : m.data ≠ [] := by
  intro hnil
  have hheader := h.header
  rw [hnil] at hheader
  exact absurd hheader (by decide)

section Usb

variable {g : Globals} {arrived : List Message} {n : ℕ} {rests : List (List UInt8)} {u : Usb}

/-- The USB layer has nothing, and no callback has anything left. -/
def Empty (arrived : List Message) (n : ℕ) (rests : List (List UInt8)) (u : Usb) : Prop :=
  u.data = [] ∧ (∀ x ∈ rests, x = []) ∧ ∃ taken, arrived = taken ++ u.incoming ∧ taken.length = n

theorem headD_eq_nil {rests : List (List UInt8)} (h : ∀ x ∈ rests, x = []) : rests.headD [] = [] := by
  cases rests with
  | nil => rfl
  | cons x rests => exact h x (by simp)

theorem Empty.holds (h : Empty arrived n rests u) : Holds arrived n rests u := by
  obtain ⟨hdata, hrests, taken, hsplit, hlen⟩ := h
  exact ⟨taken, hsplit, Or.inr ⟨hlen, by rw [hdata, headD_eq_nil hrests], fun hne => absurd hdata hne,
    fun x hx => hrests x (List.mem_of_mem_tail hx)⟩⟩

/-- If the USB layer has nothing, then nothing is left. -/
theorem Holds.empty (harrived : NetPackets g arrived) (h : Holds arrived n rests u)
    (hdata : u.data = []) : Empty arrived n rests u := by
  obtain ⟨taken, hsplit, ⟨hlen, ⟨m, hm, hmdata⟩, -, -⟩ | ⟨hlen, hhead, -, htail⟩⟩ := h
  · have hmem : m ∈ arrived := hsplit ▸ List.mem_append_left _ (List.mem_of_getElem? hm)
    exact absurd (hmdata.symm.trans hdata) (harrived m hmem).data_ne_nil
  · refine ⟨hdata, fun x hx => ?_, taken, hsplit, hlen⟩
    cases rests with
    | nil => simp at hx
    | cons y rests =>
      rcases List.mem_cons.mp hx with rfl | hx
      · exact hhead.symm.trans hdata
      · exact htail x hx

/-- The cart hands over the next packet, or has none. -/
theorem Empty.cartPoll (harrived : NetPackets g arrived) (h : Empty arrived n rests u) :
    (u.incoming = [] ∧ Netlib.cartPoll u = u) ∨ ∃ m rest, u.incoming = m :: rest ∧ m ∈ arrived ∧
      arrived[n]? = some m ∧
        Netlib.cartPoll u = { u with datatype := datatypeNetpacket, data := m.data, incoming := rest } ∧
          Holds arrived n rests (Netlib.cartPoll u) := by
  obtain ⟨-, hrests, taken, hsplit, hlen⟩ := h
  unfold Netlib.cartPoll
  cases hin : u.incoming with
  | nil => exact Or.inl ⟨rfl, rfl⟩
  | cons m rest =>
    rw [hin] at hsplit
    have hmem : m ∈ arrived := by simp [hsplit]
    have htype := (harrived m hmem).datatype
    refine Or.inr ⟨m, rest, rfl, hmem, ?_, by simp [htype], taken ++ [m], by simp [hsplit],
      Or.inl ⟨by simp [hlen], ⟨m, ?_, rfl⟩, htype, hrests⟩⟩
    · rw [hsplit, ← hlen]
      simp
    · rw [← hlen]
      simp

theorem Holds.repoll (harrived : NetPackets g arrived) (h : Holds arrived n rests u) :
    Holds arrived n rests (Netlib.repoll u) := by
  unfold Netlib.repoll
  split_ifs with hd64
  · have hempty := h.empty harrived hd64.2
    rcases hempty.cartPoll harrived with ⟨-, heq⟩ | ⟨m, rest, -, -, -, -, hholds⟩
    · rw [heq]
      exact h
    · exact hholds
  · exact h

/-- A callback reads within its payload. -/
theorem Holds.read {x : List UInt8} (harrived : NetPackets g arrived)
    (h : Holds arrived n (x :: rests) u) (hnone : u.cart = .none → u.data = []) {count : ℕ}
    (hcount : count ≤ x.length) : (usbRead count u).1 = x.take count ∧
      Holds arrived n (x.drop count :: rests) (usbRead count u).2 := by
  unfold usbRead
  split_ifs with hno
  · have hempty := h.empty harrived (hno.elim hnone id)
    obtain rfl : x = [] := hempty.2.1 x (by simp)
    simpa using h
  · obtain ⟨taken, hsplit, ⟨hlen, hm, htype, hrests⟩ | ⟨hlen, hhead, htype, htail⟩⟩ := h
    · obtain rfl : x = [] := hrests x (by simp)
      obtain rfl : count = 0 := by simpa using hcount
      refine ⟨by simp, Holds.repoll harrived ⟨taken, hsplit, Or.inl ⟨hlen, ?_, htype, ?_⟩⟩⟩
      · simpa using hm
      · simpa using hrests
    · rw [List.headD_cons] at hhead
      refine ⟨by rw [hhead], Holds.repoll harrived ⟨taken, hsplit, Or.inr ⟨hlen, ?_, ?_, htail⟩⟩⟩
      · rw [hhead, List.headD_cons]
      · exact fun _ => htype fun hdata => hno (Or.inr hdata)

/-- A callback skips within its payload. -/
theorem Holds.skip {x : List UInt8} (harrived : NetPackets g arrived)
    (h : Holds arrived n (x :: rests) u) {count : ℕ} (hcount : count ≤ x.length) :
    Holds arrived n (x.drop count :: rests) (usbSkip count u) := by
  have hrest : Holds arrived n (x.drop count :: rests) { u with data := u.data.drop count } := by
    obtain ⟨taken, hsplit, ⟨hlen, hm, htype, hrests⟩ | ⟨hlen, hhead, htype, htail⟩⟩ := h
    · obtain rfl : x = [] := hrests x (by simp)
      obtain rfl : count = 0 := by simpa using hcount
      exact ⟨taken, hsplit, Or.inl ⟨hlen, by simpa using hm, htype, by simpa using hrests⟩⟩
    · rw [List.headD_cons] at hhead
      refine ⟨taken, hsplit, Or.inr ⟨hlen, by rw [hhead, List.headD_cons], fun hne => htype ?_, htail⟩⟩
      intro hdata
      exact hne (by rw [hdata, List.drop_nil])
  unfold usbSkip
  split_ifs
  · exact hrest.repoll harrived
  · exact hrest

/-- A callback returns, and the rest of its packet is thrown away. -/
theorem Holds.purge (harrived : NetPackets g arrived) (h : Holds arrived n rests u)
    (hold : ¬ ∃ taken, arrived = taken ++ u.incoming ∧ n < taken.length) :
    Holds arrived n rests.tail (usbPurge u) := by
  obtain ⟨taken, hsplit, ⟨hlen, -⟩ | ⟨hlen, -, -, htail⟩⟩ := h
  · exact absurd ⟨taken, hsplit, by omega⟩ hold
  · have hempty : Empty arrived n rests.tail { u with datatype := 0, data := [] } :=
      ⟨rfl, htail, taken, hsplit, hlen⟩
    exact hempty.holds.repoll harrived

/-- The USB layer has packet `n`, complete, and no callback has anything left. -/
structure Complete (arrived : List Message) (n : ℕ) (rests : List (List UInt8)) (u : Usb)
    (m : Message) : Prop where
  place : arrived[n]? = some m
  data : u.data = m.data
  datatype : u.datatype = datatypeNetpacket
  cart : u.cart ≠ .none
  rests : ∀ x ∈ rests, x = []
  handed : ∃ taken, arrived = taken ++ u.incoming ∧ taken.length = n + 1

/-- `usb_poll`, when nothing is left of a packet whose callback was called. -/
theorem Holds.poll (harrived : NetPackets g arrived) (h : Holds arrived n rests u)
    (hnone : u.cart = .none → u.data = [])
    (hfree : u.data = [] ∨ ∃ taken, arrived = taken ++ u.incoming ∧ n < taken.length) :
    ((usbPoll u).1 = 0 ∧ Empty arrived n rests (usbPoll u).2) ∨
      ((usbPoll u).1 = datatypeNetpacket ∧ ∃ m, Complete arrived n rests (usbPoll u).2 m) := by
  unfold usbPoll
  by_cases hcart : u.cart = .none
  · rw [if_pos hcart]
    exact Or.inl ⟨rfl, h.empty harrived (hnone hcart)⟩
  rw [if_neg hcart]
  by_cases hdata : u.data = []
  · rw [if_neg (by simpa using hdata)]
    obtain ⟨-, hrests, hsplit⟩ := h.empty harrived hdata
    have hempty : Empty arrived n rests { u with datatype := 0 } := ⟨hdata, hrests, hsplit⟩
    rcases hempty.cartPoll harrived with ⟨-, heq⟩ | ⟨m, rest, hin, -, hm, heq, -⟩
    · rw [heq]
      exact Or.inl ⟨rfl, hempty⟩
    · rw [heq]
      obtain ⟨taken, htaken, hlen⟩ := hsplit
      refine Or.inr ⟨rfl, m, hm, rfl, rfl, hcart, hrests, taken ++ [m], ?_, by simp [hlen]⟩
      rw [htaken, show u.incoming = m :: rest from hin, List.append_assoc, List.singleton_append]
  · rw [if_pos hdata]
    obtain ⟨taken, hsplit, ⟨hlen, ⟨m, hm, hmdata⟩, htype, hrests⟩ | ⟨hlen, -⟩⟩ := h
    · refine Or.inr ⟨htype, m, ?_, hmdata, htype, hcart, hrests, taken, hsplit, hlen⟩
      rw [hsplit, List.getElem?_append_left (by omega), hm]
    · obtain ⟨taken', hsplit', hlt⟩ := hfree.resolve_left hdata
      have heq : taken' = taken := List.append_cancel_right (hsplit'.symm.trans hsplit)
      rw [heq] at hlt
      omega

/-- **The header of a net packet**: the callback for its type is called with its size, and the payload
is what is left. -/
theorem readHeader_netPacket {m : Message} (hm : NetPacket g m) (hdata : u.data = m.data)
    (hcart : u.cart ≠ .none) (locals : Locals) : readHeader locals g u =
      (.callback (m.data.getD 4 0) (g.funcptrs (m.data.getD 4 0).toNat)
        (ofBe16 (m.data.getD 16 0) (m.data.getD 17 0)),
        Netlib.repoll { u with data := m.data.drop packetHeadersize }) := by
  obtain ⟨-, hheader, -, hversion, hregistered⟩ := hm
  rcases hd : m.data with _ | ⟨b0, _ | ⟨b1, _ | ⟨b2, _ | ⟨b3, _ | ⟨b4, _ | ⟨b5, _ | ⟨b6, _ | ⟨b7,
    _ | ⟨b8, _ | ⟨b9, _ | ⟨b10, _ | ⟨b11, _ | ⟨b12, _ | ⟨b13, _ | ⟨b14, _ | ⟨b15, _ | ⟨b16,
      _ | ⟨b17, payload⟩⟩⟩⟩⟩⟩⟩⟩⟩⟩⟩⟩⟩⟩⟩⟩⟩⟩
  iterate 18
    · simp [hd, packetHeadersize] at hheader
  rw [hd] at hversion hregistered
  have hv : ¬ b3 > netlibVersion := UInt8.not_lt.mpr hversion
  have hr : g.funcptrs b4.toNat ≠ 0 := hregistered
  rw [hd] at hdata
  simp [readHeader, usbSkip, usbRead, Netlib.repoll, hdata, hcart, hv, packetHeadersize]
  exact hr

end Usb

/-! ### Without a cart, and what is handed over -/

/-- Without a cart there is nothing to read. -/
def Idle (u : Usb) : Prop := u.cart = .none → u.data = []

theorem cart_cartPoll (u : Usb) : (cartPoll u).cart = u.cart := by
  unfold cartPoll; split <;> rfl

theorem idle_repoll {u : Usb} (h : Idle u) : Idle (repoll u) := by
  unfold repoll
  split_ifs with hd64
  · intro hnone
    rw [cart_cartPoll, hd64.1] at hnone
    cases hnone
  · exact h

theorem idle_read {u : Usb} (h : Idle u) (count : ℕ) : Idle (usbRead count u).2 := by
  unfold usbRead
  split_ifs with hno
  · exact h
  · exact idle_repoll fun hnone => absurd (Or.inl hnone) hno

theorem idle_skip {u : Usb} (h : Idle u) (count : ℕ) : Idle (usbSkip count u) := by
  have hrest : Idle { u with data := u.data.drop count } := fun hnone => by
    show u.data.drop count = []
    rw [h hnone, List.drop_nil]
  unfold usbSkip
  split_ifs
  · exact idle_repoll hrest
  · exact hrest

theorem idle_purge (u : Usb) : Idle (usbPurge u) := idle_repoll fun _ => rfl

theorem incoming_cartPoll (u : Usb) : (cartPoll u = u ∧ u.incoming = []) ∨
    (cartPoll u).incoming.length + 1 = u.incoming.length := by
  unfold cartPoll
  cases hin : u.incoming with
  | nil => exact Or.inl ⟨rfl, rfl⟩
  | cons m rest => exact Or.inr rfl

theorem incoming_repoll (u : Usb) :
    repoll u = u ∨ (repoll u).incoming.length + 1 = u.incoming.length := by
  unfold repoll
  split_ifs
  · exact (incoming_cartPoll u).imp And.left id
  · exact Or.inl rfl

theorem incoming_repoll_le (u : Usb) : (repoll u).incoming.length ≤ u.incoming.length := by
  rcases incoming_repoll u with h | h
  · rw [h]
  · omega

theorem incoming_read_le (count : ℕ) (u : Usb) :
    (usbRead count u).2.incoming.length ≤ u.incoming.length := by
  unfold usbRead
  split_ifs
  · exact le_rfl
  · exact incoming_repoll_le _

theorem incoming_skip_le (count : ℕ) (u : Usb) :
    (usbSkip count u).incoming.length ≤ u.incoming.length := by
  unfold usbSkip
  split_ifs
  · exact incoming_repoll_le _
  · exact le_rfl

theorem incoming_readHeader_le (locals : Locals) (g : Globals) (u : Usb) :
    (readHeader locals g u).2.incoming.length ≤ u.incoming.length := by
  have hread : ∀ {count : ℕ} {u u' : Usb} {data : List UInt8}, usbRead count u = (data, u') →
      u'.incoming.length ≤ u.incoming.length := fun {count u u' data} h => by
    have hle := incoming_read_le count u
    rwa [h] at hle
  have hskip3 := incoming_skip_le 3 u
  rcases hversion : usbRead 1 (usbSkip 3 u) with ⟨version, u1⟩
  rcases htype : usbRead 1 u1 with ⟨type, u2⟩
  rcases hflags : usbRead 1 u2 with ⟨flags, u3⟩
  have hskip6 := incoming_skip_le 6 u3
  rcases hrecipients : usbRead 4 (usbSkip 6 u3) with ⟨recipients, u4⟩
  rcases hsize : usbRead 2 u4 with ⟨size, u5⟩
  have h1 := hread hversion
  have h2 := hread htype
  have h3 := hread hflags
  have h4 := hread hrecipients
  have h5 := hread hsize
  simp only [readHeader, hversion, htype, hflags, hrecipients, hsize]
  split_ifs
  · exact h1.trans hskip3
  · dsimp only
    omega
  · dsimp only
    omega

/-- A purge leaves nothing, or the next packet. -/
theorem incoming_purge (u : Usb) :
    ((usbPurge u).data = [] ∧ (usbPurge u).incoming = u.incoming) ∨
      (usbPurge u).incoming.length + 1 = u.incoming.length := by
  rcases incoming_repoll { u with datatype := 0, data := [] } with h | h
  · refine Or.inl ?_
    unfold usbPurge
    rw [h]
    exact ⟨rfl, rfl⟩
  · exact Or.inr h

/-! ### The invariant -/

/-- The frame of a callback, and what it has read of its packet. -/
def Runs (arrived : List Message) (n : ℕ) : Frame → Running → Prop
  | .dispatched _ _ size _, r => r.packet < n ∧ ∃ m, arrived[r.packet]? = some m ∧
      m.data.length = packetHeadersize + size.toNat ∧ r.pos ≤ size.toNat
  | _, _ => False

/-- The frame is that of a callback for a packet. -/
def isDispatched : Frame → Bool
  | .dispatched .. => true
  | _ => false

/-- What the callbacks have not read. -/
def rests (t : Tracked) : List (List UInt8) := t.running.map (unread t.arrived)

/-- **The invariant.** -/
structure Inv (t : Tracked) : Prop where
  calls : ∀ k (d : Called), t.calls[k]? = some d → d.packet = k ∧ ∃ m, t.arrived[k]? = some m ∧
    d.type = m.data.getD 4 0 ∧ d.size = ofBe16 (m.data.getD 16 0) (m.data.getD 17 0)
  reads : ∀ r ∈ t.reads, ∃ m, t.arrived[r.packet]? = some m ∧
    r.data = ((m.data.drop packetHeadersize).drop r.pos).take r.count
  net : NetPackets t.base.globals t.arrived
  idle : Idle t.base.usb
  holds : Holds t.arrived t.calls.length (rests t) t.base.usb
  frames : List.Forall₂ (Runs t.arrived t.calls.length) (t.base.stack.filter isDispatched) t.running

theorem handed_eq {t : Tracked} {taken : List Message} (h : t.arrived = taken ++ t.base.usb.incoming) :
    handed t = taken.length := by
  rw [handed, h, List.length_append]
  omega

/-- `Fresh` in the words of `Holds`. -/
theorem Inv.fresh_iff {t : Tracked} (ht : Inv t) : Fresh t ↔
    ∃ taken, t.arrived = taken ++ t.base.usb.incoming ∧ t.calls.length < taken.length := by
  obtain ⟨taken, hsplit, -⟩ := ht.holds
  constructor
  · intro h
    exact ⟨taken, hsplit, handed_eq hsplit ▸ h⟩
  · rintro ⟨taken', hsplit', hlt⟩
    rw [Fresh, handed_eq hsplit']
    exact hlt

theorem Inv.dispatched {t : Tracked} (ht : Inv t) : Dispatched t := by
  obtain ⟨taken, hsplit, hholds⟩ := ht.holds
  have hhanded := handed_eq hsplit
  refine ⟨ht.calls, fun i m hm hi => ?_, ht.reads, fun r hr => ?_⟩
  · rcases hholds with ⟨hlen, ⟨m', hm', hdata⟩, -⟩ | ⟨hlen, -⟩
    · rcases hi.lt_or_eq with hlt | rfl
      · exact Or.inl (by omega)
      · rw [hsplit, List.getElem?_append_left (by omega), hm'] at hm
        obtain rfl := Option.some.inj hm
        exact Or.inr ⟨by omega, hdata⟩
    · exact Or.inl (by omega)
  · obtain ⟨l, hl⟩ := List.head?_eq_some_iff.mp hr
    rcases hholds with ⟨-, -, -, hrests⟩ | ⟨hlen, hdata, -⟩
    · exact Or.inl (hrests _ (List.mem_map_of_mem (by simp [hl])))
    · refine Or.inr ⟨fun hfresh => ?_, ?_⟩
      · unfold Fresh at hfresh
        omega
      · rw [hdata, rests, hl]
        rfl

/-! ### One step -/

section Step

variable {t : Tracked}

theorem unread_append {arrived : List Message} {r : Running} (hr : r.packet < arrived.length)
    (l : List Message) : unread (arrived ++ l) r = unread arrived r := by
  unfold unread
  rw [List.getElem?_append_left hr]

/-- A callback has its payload from its place on. -/
theorem unread_advance (arrived : List Message) (r : Running) (count : ℕ) :
    unread arrived ⟨r.packet, r.pos + count⟩ = (unread arrived r).drop count := by
  unfold unread
  rw [List.drop_drop, Nat.add_assoc]

theorem NetPacket.mono {g g' : Globals} (hg : ∀ i, g.funcptrs i ≠ 0 → g'.funcptrs i ≠ 0)
    {m : Message} (hm : NetPacket g m) : NetPacket g' m :=
  ⟨hm.datatype, hm.header, hm.size, hm.version, hg _ hm.registered⟩

theorem Runs.mono {arrived : List Message} {n n' : ℕ} (hn : n ≤ n') (l : List Message) {f : Frame}
    {r : Running} (h : Runs arrived n f r) : Runs (arrived ++ l) n' f r := by
  cases f with
  | dispatched type address size curtime =>
    obtain ⟨hlt, m, hm, hlen, hpos⟩ := h
    refine ⟨hlt.trans_le hn, m, ?_, hlen, hpos⟩
    rw [List.getElem?_append_left (List.getElem?_eq_some_iff.mp hm).1, hm]
  | polling curtime => exact h
  | notified lost curtime => exact h

/-- The packet of a callback was dispatched, and arrived. -/
theorem Inv.packet_lt (ht : Inv t) {r : Running} (hr : r ∈ t.running) :
    r.packet < t.calls.length ∧ r.packet < t.arrived.length := by
  obtain ⟨i, hi, rfl⟩ := List.getElem_of_mem hr
  have hf := List.forall₂_iff_get.mp ht.frames
  have hruns := hf.2 i (hf.1.symm ▸ hi) hi
  simp only [List.get_eq_getElem] at hruns
  unfold Runs at hruns
  split at hruns
  · obtain ⟨hlt, m, hm, -⟩ := hruns
    exact ⟨hlt, (List.getElem?_eq_some_iff.mp hm).1⟩
  · exact hruns.elim

/-- What is done to the state but for the callbacks. -/
theorem Inv.base (ht : Inv t) {s : State} (hidle : Idle s.usb)
    (hholds : Holds t.arrived t.calls.length (rests t) s.usb)
    (hg : ∀ i, t.base.globals.funcptrs i ≠ 0 → s.globals.funcptrs i ≠ 0)
    (hstack : s.stack.filter isDispatched = t.base.stack.filter isDispatched) :
    Inv { t with base := s } :=
  ⟨ht.calls, ht.reads, fun m hm => (ht.net m hm).mono hg, hidle, hholds, hstack.symm ▸ ht.frames⟩

/-- **A packet arrives.** -/
theorem inv_arrive (ht : Inv t) {m : Message} (hm : NetPacket t.base.globals m) :
    Inv { t with
      base := { t.base with usb := { t.base.usb with incoming := t.base.usb.incoming ++ [m] } }
      arrived := t.arrived ++ [m] } := by
  have hpre : ∀ {i : ℕ} {m' : Message}, t.arrived[i]? = some m' → (t.arrived ++ [m])[i]? = some m' :=
    fun {i m'} h => by rw [List.getElem?_append_left (List.getElem?_eq_some_iff.mp h).1, h]
  refine ⟨fun k d hd => ?_, fun r hr => ?_, fun m' hm' => ?_, ht.idle, ?_, ?_⟩
  · obtain ⟨hk, m', hm', heq⟩ := ht.calls k d hd
    exact ⟨hk, m', hpre hm', heq⟩
  · obtain ⟨m', hm', heq⟩ := ht.reads r hr
    exact ⟨m', hpre hm', heq⟩
  · rcases List.mem_append.mp hm' with hm' | hm'
    · exact ht.net m' hm'
    · exact List.mem_singleton.mp hm' ▸ hm
  · have hrests : t.running.map (unread (t.arrived ++ [m])) = rests t :=
      List.map_congr_left fun r hr => unread_append (ht.packet_lt hr).2 [m]
    obtain ⟨taken, hsplit, h⟩ := ht.holds
    refine ⟨taken, ?_, ?_⟩
    · show t.arrived ++ [m] = _
      rw [hsplit, List.append_assoc]
    · simp only [rests, hrests]
      exact h
  · exact ht.frames.imp fun f r h => h.mono le_rfl [m]

/-- **A callback reads or skips a part of its payload.** -/
theorem inv_advance (ht : Inv t) {count : ℕ} (hwithin : Within t count) :
    ∃ r rest, t.running = r :: rest ∧ count ≤ (unread t.arrived r).length ∧
      (∃ m, t.arrived[r.packet]? = some m) ∧
      ∀ u l, Idle u → Holds t.arrived t.calls.length
          ((unread t.arrived r).drop count :: rest.map (unread t.arrived)) u →
        (∀ x ∈ l, ∃ m, t.arrived[x.packet]? = some m ∧
          x.data = ((m.data.drop packetHeadersize).drop x.pos).take x.count) →
        Inv { t with
          base := { t.base with usb := u }
          running := ⟨r.packet, r.pos + count⟩ :: rest
          reads := l } := by
  unfold Within at hwithin
  split at hwithin
  swap
  · exact hwithin.elim
  next type address size curtime stack r rest hstack hrunning =>
  have hframes := ht.frames
  rw [hstack, hrunning, List.filter_cons_of_pos rfl, List.forall₂_cons] at hframes
  obtain ⟨⟨hlt, m, hm, hlen, hpos⟩, hframes⟩ := hframes
  refine ⟨r, rest, hrunning, ?_, ⟨m, hm⟩, fun u l hidle hholds hreads => ?_⟩
  · rw [unread, hm, Option.elim_some, List.length_drop]
    omega
  · refine ⟨ht.calls, hreads, ht.net, hidle, ?_, ?_⟩
    · simp only [rests, List.map_cons, unread_advance]
      exact hholds
    · show List.Forall₂ _ (t.base.stack.filter isDispatched) _
      rw [hstack, List.filter_cons_of_pos rfl]
      exact .cons ⟨hlt, m, hm, hlen, hwithin⟩ hframes

/-! ### The calls of the application -/

theorem enterPoll_frame (now : Now) (s : State) : (enterPoll now s).usb = s.usb ∧
    (enterPoll now s).globals.funcptrs = s.globals.funcptrs ∧
    (enterPoll now s).stack.filter isDispatched = s.stack.filter isDispatched := by
  have hg : (checkConnection now.curtime now.timedout s.globals).1.funcptrs = s.globals.funcptrs := by
    unfold checkConnection
    split_ifs <;> rfl
  refine ⟨rfl, hg, ?_⟩
  unfold enterPoll
  dsimp only
  split <;> exact List.filter_cons_of_neg (by simp [isDispatched])

theorem inv_enterPoll (ht : Inv t) {s : State} (husb : s.usb = t.base.usb)
    (hg : s.globals.funcptrs = t.base.globals.funcptrs) (hstack : s.stack = t.base.stack) (now : Now) :
    Inv { t with base := enterPoll now s } := by
  obtain ⟨husb', hg', hstack'⟩ := enterPoll_frame now s
  refine ht.base ?_ ?_ (fun i hi => ?_) (by rw [hstack', hstack])
  · rw [husb', husb]
    exact ht.idle
  · rw [husb', husb]
    exact ht.holds
  · rw [hg', hg]
    exact hi

theorem inv_sendNow (ht : Inv t) {f : Globals → Globals}
    (hf : (f t.base.globals).funcptrs = t.base.globals.funcptrs) (now : Now) :
    Inv { t with base := sendNow f now t.base } :=
  inv_enterPoll (s := { t.base with
    globals := f t.base.globals, committed := t.base.committed ++ [(f t.base.globals).packet] })
    ht rfl hf rfl now

/-- The functions that leave the USB layer, the stack and the registrations as they are. -/
theorem Inv.globals (ht : Inv t) (g : Globals)
    (hg : ∀ i, t.base.globals.funcptrs i ≠ 0 → g.funcptrs i ≠ 0) :
    Inv { t with base := { t.base with globals := g } } :=
  ht.base ht.idle ht.holds hg rfl

/-- **A call keeps the invariant.** -/
theorem inv_call (ht : Inv t) (host : Host) {c : Call} (hc : Allowed t (.call c)) :
    Inv (track t (Machine.call host t.base c) (.call c)) := by
  cases c with
  | init cart => exact hc.elim
  | register type callback =>
    refine ht.globals _ fun i hi => ?_
    unfold netlibRegister
    split_ifs
    · exact hi
    · show Function.update t.base.globals.funcptrs type.toNat callback i ≠ 0
      rw [Function.update_apply]
      split_ifs
      · exact hc
      · exact hi
  | write v =>
    refine ht.globals _ fun i hi => ?_
    unfold netlibWrite
    split_ifs <;> exact hi
  | setclient | callbackDisconnect | callbackReconnect | start | setflags =>
    exact ht.globals _ fun i hi => hi
  | poll now => exact inv_enterPoll ht rfl rfl rfl now
  | broadcast now | sendtoserver now => exact inv_sendNow ht rfl now
  | send client now => exact inv_sendNow ht rfl now
  | read size =>
    obtain ⟨r, rest, hrunning, hle, ⟨m, hm⟩, hadvance⟩ := inv_advance ht hc
    have hholds := ht.holds
    rw [rests, hrunning, List.map_cons] at hholds
    obtain ⟨hdata, hholds'⟩ := hholds.read ht.net ht.idle hle
    simp only [track, hrunning]
    refine hadvance _ _ (idle_read ht.idle size) hholds' fun x hx => ?_
    rcases List.mem_append.mp hx with hx | hx
    · exact ht.reads x hx
    · obtain rfl := List.mem_singleton.mp hx
      refine ⟨m, hm, ?_⟩
      rw [hdata, unread, hm, Option.elim_some, List.drop_drop]
  | skip count =>
    obtain ⟨r, rest, hrunning, hle, -, hadvance⟩ := inv_advance ht hc
    have hholds := ht.holds
    rw [rests, hrunning, List.map_cons] at hholds
    simp only [track, hrunning]
    exact hadvance _ _ (idle_skip ht.idle count) (hholds.skip ht.net hle) ht.reads

/-! ### The loop -/

/-- A turn of the loop finds a packet. -/
theorem inv_complete (ht : Inv t) {u : Usb} {m : Message}
    (hu : Complete t.arrived t.calls.length (rests t) u m) {curtime : BitVec 64} {stack : List Frame}
    (hstack : stack.filter isDispatched = t.base.stack.filter isDispatched) :
    Inv { t with
      base := { t.base with
        usb := repoll { u with data := m.data.drop packetHeadersize }
        stack := .dispatched (m.data.getD 4 0) (t.base.globals.funcptrs (m.data.getD 4 0).toNat)
          (ofBe16 (m.data.getD 16 0) (m.data.getD 17 0)) curtime :: stack }
      calls := t.calls ++ [⟨t.calls.length, m.data.getD 4 0,
        ofBe16 (m.data.getD 16 0) (m.data.getD 17 0)⟩]
      running := ⟨t.calls.length, 0⟩ :: t.running } := by
  have hnet := ht.net m (List.mem_of_getElem? hu.place)
  have hunread : unread t.arrived ⟨t.calls.length, 0⟩ = m.data.drop packetHeadersize := by
    rw [unread, hu.place, Option.elim_some, Nat.add_zero]
  have hlen : (t.calls ++ [(⟨t.calls.length, m.data.getD 4 0,
      ofBe16 (m.data.getD 16 0) (m.data.getD 17 0)⟩ : Called)]).length = t.calls.length + 1 := by
    rw [List.length_append, List.length_singleton]
  refine ⟨fun k d hd => ?_, ht.reads, ht.net, idle_repoll fun hnone => absurd hnone hu.cart, ?_, ?_⟩
  · rcases Nat.lt_trichotomy k t.calls.length with hk | rfl | hk
    · rw [List.getElem?_append_left hk] at hd
      exact ht.calls k d hd
    · rw [List.getElem?_concat_length] at hd
      obtain rfl := Option.some.inj hd
      exact ⟨rfl, m, hu.place, rfl, rfl⟩
    · rw [List.getElem?_eq_none (by rw [hlen]; omega)] at hd
      cases hd
  · obtain ⟨taken, hsplit, htaken⟩ := hu.handed
    rw [hlen]
    refine Holds.repoll ht.net ⟨taken, hsplit, Or.inr ⟨htaken, ?_, fun _ => hu.datatype, hu.rests⟩⟩
    rw [rests, List.map_cons, hunread, List.headD_cons]
  · show List.Forall₂ _ (List.filter isDispatched _) _
    rw [List.filter_cons_of_pos rfl, hstack, hlen]
    refine .cons ⟨Nat.lt_succ_self _, m, hu.place, hnet.size, Nat.zero_le _⟩ ?_
    exact ht.frames.imp fun f r h => by simpa using h.mono (Nat.le_succ _) []

/-- **A turn of the loop keeps the invariant** if nothing is left of a packet that was dispatched. -/
theorem inv_turn (ht : Inv t) {locals : Locals} {result : Written} {curtime : BitVec 64}
    {stack : List Frame} (hstack : t.base.stack = .polling curtime :: stack)
    (hfree : t.base.usb.data = [] ∨ Fresh t) :
    Inv (track t (turn locals result curtime stack t.base) (.turn locals result)) := by
  have hfilter : stack.filter isDispatched = t.base.stack.filter isDispatched := by
    rw [hstack, List.filter_cons_of_neg (by simp [isDispatched])]
  rcases ht.holds.poll ht.net ht.idle (hfree.imp id ht.fresh_iff.mp) with
    ⟨hheader, hempty⟩ | ⟨hheader, m, hcomplete⟩
  · have hno : callback locals t.base = none := by
      rw [callback, hheader, if_neg (by decide)]
    simp only [track, hno, turn, hheader, if_true]
    have hidle : Idle (usbPoll t.base.usb).2 := fun _ => hempty.1
    unfold finish
    split_ifs
    · exact ht.base hidle hempty.holds (fun i hi => hi) hfilter
    · exact ht.base hidle hempty.holds (fun i hi => hi) hfilter
  · have hnet := ht.net m (List.mem_of_getElem? hcomplete.place)
    have hread := readHeader_netPacket hnet hcomplete.data hcomplete.cart locals
    have hcallback : callback locals t.base =
        some (m.data.getD 4 0, ofBe16 (m.data.getD 16 0) (m.data.getD 17 0)) := by
      simp only [callback, hheader, if_true, hread]
    have hpolled : polled t = t.calls.length := by
      obtain ⟨taken, hsplit, hlen⟩ := hcomplete.handed
      rw [polled, hsplit, List.length_append]
      omega
    have hne : datatypeNetpacket ≠ 0 := by decide
    simp only [track, hcallback, hpolled, turn, hheader, hne, if_false, if_true, hread]
    exact inv_complete ht hcomplete hfilter

/-- **The return of a callback keeps the invariant** if the next packet is not there yet. -/
theorem inv_ret (ht : Inv t) {s : State} (h : ret t.base = some s)
    (hundisturbed : Undisturbed t .ret) : Inv (track t s .ret) := by
  unfold ret at h
  unfold Undisturbed at hundisturbed
  unfold track
  split at h
  · next lost curtime stack hstack =>
    obtain rfl := Option.some.inj h
    simp only [hstack]
    refine ht.base ht.idle ht.holds (fun i hi => hi) ?_
    rw [hstack]
    rfl
  · next type address size curtime stack hstack =>
    obtain rfl := Option.some.inj h
    simp only [hstack] at hundisturbed ⊢
    have hholds := ht.holds.purge ht.net fun hex => hundisturbed (ht.fresh_iff.mpr hex)
    refine ⟨ht.calls, ht.reads, fun m hm => (ht.net m hm).mono ?_, idle_purge _, ?_, ?_⟩
    · exact fun i hi => hi
    · simp only [rests, List.map_tail]
      exact hholds
    · have hframes := ht.frames
      rw [hstack, List.filter_cons_of_pos rfl] at hframes
      show List.Forall₂ _ (List.filter isDispatched _) _
      rw [List.filter_cons_of_neg (by simp [isDispatched])]
      cases hr : t.running with
      | nil => rw [hr] at hframes; cases hframes
      | cons r rest =>
        rw [hr, List.forall₂_cons] at hframes
        exact hframes.2
  · cases h

/-! ### What disturbs a packet -/

/-- The USB layer is purged with nothing to be kept in it. -/
theorem handed_purge {arrived : List Message} {u u' : Usb} (hu : u.incoming.length ≤ arrived.length)
    (hle : u'.incoming.length ≤ u.incoming.length) :
    (usbPurge u').data = [] ∧ arrived.length - u.incoming.length ≤
        arrived.length - (usbPurge u').incoming.length ∨
      arrived.length - u.incoming.length < arrived.length - (usbPurge u').incoming.length := by
  rcases incoming_purge u' with ⟨hdata, hin⟩ | hin
  · rw [hin]
    exact Or.inl ⟨hdata, by omega⟩
  · exact Or.inr (by omega)

/-- **A turn that finds the rest of a packet**: the rest is taken for a packet, or thrown away. -/
theorem not_dispatched_turn (ht : Inv t) {locals : Locals} {result : Written} {curtime : BitVec 64}
    {stack : List Frame} (hfree : ¬ (t.base.usb.data = [] ∨ Fresh t)) :
    ¬ Dispatched (track t (turn locals result curtime stack t.base) (.turn locals result)) := by
  intro hd
  obtain ⟨hdata, hfresh⟩ := not_or.mp hfree
  obtain ⟨taken, hsplit, ⟨hlen, -⟩ | ⟨hlen, hhead, htype, -⟩⟩ := ht.holds
  · exact hfresh (ht.fresh_iff.mpr ⟨taken, hsplit, by omega⟩)
  obtain ⟨r, rest, hrunning⟩ : ∃ r rest, t.running = r :: rest := by
    cases hr : t.running with
    | nil =>
      rw [rests, hr] at hhead
      exact absurd hhead hdata
    | cons r rest => exact ⟨r, rest, rfl⟩
  rw [rests, hrunning, List.map_cons, List.headD_cons] at hhead
  have hin : t.base.usb.incoming.length ≤ t.arrived.length := by
    rw [hsplit, List.length_append]
    omega
  have hn : t.arrived.length - t.base.usb.incoming.length = t.calls.length := by
    rw [hsplit, List.length_append]
    omega
  have hcart : t.base.usb.cart ≠ .none := fun hnone => hdata (ht.idle hnone)
  have hpoll : usbPoll t.base.usb = (datatypeNetpacket, t.base.usb) := by
    rw [usbPoll, if_neg hcart, if_pos hdata, htype hdata]
  have hle := incoming_readHeader_le locals t.base.globals t.base.usb
  -- the rest is not there any more, or there is a new packet
  have hlost : ∀ u', u'.incoming.length ≤ t.base.usb.incoming.length →
      ¬ Dispatched { t with base := { t.base with usb := usbPurge u', stack := stack } } := by
    intro u' hu' hd
    rcases hd.unread r (by rw [hrunning]; rfl) with hnil | ⟨hold, hkept⟩
    · exact hdata (hhead.trans hnil)
    · rcases handed_purge hin hu' with ⟨hempty, -⟩ | hnew
      · exact hdata (hhead.trans (hkept.symm.trans hempty))
      · exact hold (show t.calls.length < t.arrived.length - (usbPurge u').incoming.length by omega)
  have hne : datatypeNetpacket ≠ 0 := by decide
  rcases hread : readHeader locals t.base.globals t.base.usb with ⟨found, u'⟩
  rw [hread] at hle
  cases found with
  | unsupported =>
    simp only [track, callback, hpoll, if_true, hread, turn, hne, if_false] at hd
    exact hlost u' hle hd
  | unregistered =>
    simp only [track, callback, hpoll, if_true, hread, turn, hne, if_false] at hd
    exact hlost u' hle hd
  | callback type address size =>
    simp only [track, callback, hpoll, if_true, hread, turn, hne, if_false] at hd
    have hlast := (hd.calls t.calls.length ⟨polled t, type, size⟩ List.getElem?_concat_length).1
    have hpos := (ht.packet_lt (r := r) (by simp [hrunning])).1
    simp only [polled, hpoll] at hlast
    omega

/-- **A return that finds the next packet**: it is thrown away. -/
theorem not_dispatched_ret (ht : Inv t) {s : State} (h : ret t.base = some s)
    (hundisturbed : ¬ Undisturbed t .ret) : ¬ Dispatched (track t s .ret) := by
  intro hd
  unfold ret at h
  unfold Undisturbed at hundisturbed
  unfold track at hd
  split at h
  · next lost curtime stack hstack =>
    simp [hstack] at hundisturbed
  · next type address size curtime stack hstack =>
    obtain rfl := Option.some.inj h
    simp only [hstack, not_not] at hundisturbed hd
    obtain ⟨taken, hsplit, ⟨hlen, ⟨m, hm, -⟩, -⟩ | ⟨hlen, -⟩⟩ := ht.holds
    swap
    · rw [Fresh, handed_eq hsplit] at hundisturbed
      omega
    have hplace : t.arrived[t.calls.length]? = some m := by
      rw [hsplit, List.getElem?_append_left (by omega), hm]
    have hin : t.base.usb.incoming.length ≤ t.arrived.length := by
      rw [hsplit, List.length_append]
      omega
    have hn : t.arrived.length - t.base.usb.incoming.length = t.calls.length + 1 := by
      rw [hsplit, List.length_append]
      omega
    have hwaiting := hd.waiting t.calls.length m hplace le_rfl
    have hnil := (ht.net m (List.mem_of_getElem? hplace)).data_ne_nil
    simp only [handed] at hwaiting
    rcases handed_purge hin le_rfl with ⟨hempty, hle⟩ | hnew
    · rcases hwaiting with hlt | ⟨-, hkept⟩
      · omega
      · exact hnil (hkept.symm.trans hempty)
    · rcases hwaiting with hlt | ⟨hlast, -⟩
      · omega
      · omega
  · cases h

/-! ### Runs -/

theorem step_eq {host : Host} {t' : Tracked} {a : Label} (h : step host t a = some t') :
    Allowed t a ∧ ∃ s, Machine.step host t.base a = some s ∧ t' = track t s a := by
  unfold step at h
  split_ifs at h with ha
  obtain ⟨s, hs, rfl⟩ := Option.map_eq_some_iff.mp h
  exact ⟨ha, s, hs, rfl⟩

/-- **One step keeps the invariant** if it disturbs no packet. -/
theorem inv_step {host : Host} {t' : Tracked} {a : Label} (ht : Inv t) (hundisturbed : Undisturbed t a)
    (h : step host t a = some t') : Inv t' := by
  obtain ⟨ha, s, hs, rfl⟩ := step_eq h
  cases a with
  | arrive m =>
    obtain rfl := Option.some.inj hs
    exact inv_arrive ht ha
  | call c =>
    simp only [Machine.step] at hs
    split_ifs at hs
    obtain rfl := Option.some.inj hs
    exact inv_call ht host ha
  | turn locals result =>
    simp only [Machine.step] at hs
    split at hs
    · next curtime stack hstack =>
      obtain rfl := Option.some.inj hs
      exact inv_turn ht hstack hundisturbed
    · cases hs
  | ret => exact inv_ret ht hs hundisturbed

theorem not_dispatched_step {host : Host} {t' : Tracked} {a : Label} (ht : Inv t)
    (hundisturbed : ¬ Undisturbed t a) (h : step host t a = some t') : ¬ Dispatched t' := by
  obtain ⟨-, s, hs, rfl⟩ := step_eq h
  cases a with
  | arrive m => exact absurd trivial hundisturbed
  | call c => exact absurd trivial hundisturbed
  | turn locals result =>
    simp only [Machine.step] at hs
    split at hs
    · obtain rfl := Option.some.inj hs
      exact not_dispatched_turn ht hundisturbed
    · cases hs
  | ret => exact not_dispatched_ret ht hs hundisturbed

end Step

theorem inv_start (cart : Cart) (g : Globals) : Inv (start cart g) :=
  ⟨by simp [start], by simp [start], by simp [start, NetPackets], fun _ => rfl,
    ⟨[], rfl, Or.inr ⟨rfl, rfl, fun h => absurd rfl h, by simp [rests, start]⟩⟩, .nil⟩

/-- **When every packet is dispatched once, from its own header**: in all states of a run exactly if no
step of the run disturbs a packet. -/
theorem dispatched_iff (host : Host) (cart : Cart) (g : Globals) (l : List Label) :
    Always (step host) Dispatched (start cart g) l ↔ Along (step host) Undisturbed (start cart g) l :=
  always_iff_of_kept (J := Inv) (fun _ ht => ht.dispatched) (fun _ _ _ => inv_step)
    (fun _ _ _ => not_dispatched_step) (inv_start cart g)

/-! ### Packets that are disturbed -/

/-- Callbacks for the types 0 and 5. -/
def twoCallbacks : Globals :=
  netlibRegister 5 0x80001000#32 (netlibRegister 0 0x80002000#32 (startGlobals fun _ => 0))

/-- A packet of type 5 from the server. -/
def packetOf (payload : List UInt8) : Message :=
  ⟨datatypeNetpacket, netlibBytes 1 5 0 0 0 0 0 (BitVec.ofNat 16 payload.length) payload⟩

/-- The callback sends before it reads its payload, which is 18 zeros. -/
def answerFirst : List Label :=
  let now : Now := ⟨0, false⟩
  let locals : Locals := ⟨0, 0, 0, 0⟩
  [.arrive (packetOf (List.replicate 18 0)), .call (.poll now), .turn locals .success,
    .call (.start 6), .call (.sendtoserver now), .turn locals .success]

/-- The callback reads its payload to the end while another packet waits. -/
def readToEnd : List Label :=
  let now : Now := ⟨0, false⟩
  let locals : Locals := ⟨0, 0, 0, 0⟩
  [.arrive (packetOf [1]), .arrive (packetOf [2]), .call (.poll now), .turn locals .success,
    .call (.read 1), .ret]

/-- The payload is dispatched as a packet of type 0; on a 64Drive the second packet is thrown away. -/
theorem not_dispatched_runs :
    ¬ Always (step .x86) Dispatched (start .sc64 twoCallbacks) answerFirst ∧
      ¬ Always (step .x86) Dispatched (start .d64 twoCallbacks) readToEnd := by
  constructor
  · intro h
    obtain ⟨t, ht⟩ : ∃ t, run (step .x86) (start .sc64 twoCallbacks) answerFirst = some t :=
      Option.isSome_iff_exists.mp (by decide +kernel)
    have hrun : (run (step .x86) (start .sc64 twoCallbacks) answerFirst).map (·.calls[1]?) =
        some (some ⟨0, 0, 0⟩) := by decide +kernel
    rw [ht, Option.map_some, Option.some.injEq] at hrun
    have hpacket := ((h.last ht).calls 1 _ hrun).1
    simp at hpacket
  · intro h
    obtain ⟨t, ht⟩ : ∃ t, run (step .x86) (start .d64 twoCallbacks) readToEnd = some t :=
      Option.isSome_iff_exists.mp (by decide +kernel)
    have hrun : (run (step .x86) (start .d64 twoCallbacks) readToEnd).map (fun t =>
        (t.arrived[1]?, t.calls.length, handed t, t.base.usb.data)) =
          some (some (packetOf [2]), 1, 2, []) := by decide +kernel
    rw [ht, Option.map_some, Option.some.injEq, Prod.mk.injEq, Prod.mk.injEq, Prod.mk.injEq] at hrun
    obtain ⟨harrived, hcalls, hhanded, hdata⟩ := hrun
    rcases (h.last ht).waiting 1 _ harrived (by rw [hcalls]) with hlt | ⟨-, hkept⟩
    · rw [hhanded] at hlt
      omega
    · rw [hdata] at hkept
      exact absurd hkept (by decide)

end N64NetLib.N64.Dispatch
