import N64NetLib.Lib.Run
import N64NetLib.Udp.Handler
import Mathlib.Data.List.DropRight

/-! # Two connection handlers and the network between them

Two endpoints, each with its handler in either language. The network keeps every datagram that was
ever sent; a read may pick any of them, any number of times, in any order, so it loses, duplicates,
delays and reorders as it likes. The sockets take what they are given.

What a handler does not remember is kept beside it, for the statements only: the packets it sent for
the first time (`log`; a packet is the object whose `ref` is its place there), the verdicts of
`HandlePacketSequence` (`heard`), and the reliable packet its `remoteseqnum` stands for, if there is
one (`bearer`). At the start there is none, and none either after an unreliable packet, which carries
the number of the reliable packet still to come.

`Inv` says how these fit together in every state (`inv_step`). -/

namespace N64NetLib.Udp.Network

open N64NetLib.Lib.Run N64NetLib.Packet.Basic N64NetLib.Packet.Sequence N64NetLib.Udp.Handler

/-- A packet at its first sending: how many reliable packets were sent before it, and what the sender
had received by then. -/
structure Record where
  pkt : AbstractPacket
  index : ℕ
  held : List AbstractPacket
  bearer : Option ℕ
deriving DecidableEq

/-- A packet that came in, and whether `HandlePacketSequence` returned true for it. -/
structure Hearing where
  pkt : AbstractPacket
  accepted : Bool
deriving DecidableEq

/-- One side. -/
structure Endpoint where
  handler : UDPHandler
  log : List Record
  wire : List Datagram
  heard : List Hearing
  bearer : Option ℕ
deriving DecidableEq

/-- The two sides. -/
abbrev Net := Bool → Endpoint

/-- The start. -/
def init : Net := fun _ => ⟨newUDPHandler, [], [], [], none⟩

/-- A step: side `s` sends a new packet, resends, or reads datagram `i` of the other side. -/
inductive Label
  | send (s : Bool) (pkt : AbstractPacket) (now : ℤ)
  | resend (s : Bool) (calls : ℕ → Call)
  | read (s : Bool) (k : Kind) (i : ℕ) (junk : ℕ → UInt8) (now : ℤ)

/-- How many of the packets are reliable. -/
def reliableSent (log : List Record) : ℕ := log.countP (·.pkt.reliable)

/-- The side after a call that sent new packets. -/
def Endpoint.post (e : Endpoint) (h : UDPHandler) (out : List Datagram) : Endpoint :=
  { e with
    handler := h
    wire := e.wire ++ out
    log := e.log ++ out.map fun d => ⟨d.pkt, reliableSent e.log, h.acksleftRx, e.bearer⟩ }

/-- The packet that `remoteseqnum` stands for after a packet came in. -/
def bearerAfter (lang : Lang) (e : Endpoint) (pkt : AbstractPacket) : Option ℕ :=
  if isDuplicate e.handler pkt then e.bearer
  else if lang.sequenceGreaterThan pkt.seqnum e.handler.remoteseqnum then
    if pkt.reliable then some pkt.ref else none
  else if pkt.reliable ∧ pkt.seqnum = e.handler.remoteseqnum then some pkt.ref
  else e.bearer

/-- The side after a packet came in, but for the handler. -/
def Endpoint.hear (lang : Lang) (e : Endpoint) (pkt : AbstractPacket) : Option Bool → Endpoint
  | none => e
  | some verdict =>
    { e with heard := e.heard ++ [⟨pkt, verdict⟩], bearer := bearerAfter lang e pkt }

variable (lang : Bool → Lang)

/-- One step. -/
def step (n : Net) : Label → Option Net
  | .send s pkt now =>
    let e := n s
    let r := sendPacket (lang s) ⟨now, now, true⟩ e.handler
      { pkt with ref := e.log.length, attempts := 0 }
    some (Function.update n s (e.post r.handler r.out))
  | .resend s calls =>
    let e := n s
    let r := resendMissingPackets (lang s) calls e.handler
    some (Function.update n s { e with handler := r.handler, wire := e.wire ++ r.out })
  | .read s k i junk now =>
    match (n !s).wire[i]? with
    | none => none
    | some d =>
      let e := n s
      let r := readPacket (lang s) k ⟨now, now, true⟩ e.handler d.pkt.ref e.log.length d.data junk
      some (Function.update n s ((e.hear (lang s) d.pkt r.verdict).post r.handler r.out))

/-- No attempt counter comes round to one again in a resend. -/
def NoWrap (n : Net) : Label → Prop
  | .resend s _ => ∀ q ∈ (n s).handler.acksleftTx, (lang s).updateSendAttempt q.attempts ≠ 1
  | _ => True

instance (n : Net) (a : Label) : Decidable (NoWrap lang n a) := by
  cases a <;> unfold NoWrap <;> infer_instance

/-! ### The invariant -/

/-- The packet is in the log, with its header unchanged. -/
def Logged (log : List Record) (q : AbstractPacket) : Prop :=
  ∃ R, log[q.ref]? = some R ∧ q.header = R.pkt.header

/-- `HandlePacketSequence` returned true for packet `r` of the other side. -/
def Accepted (e : Endpoint) (r : ℕ) : Prop := ∃ x ∈ e.heard, x.accepted ∧ x.pkt.ref = r

/-- The last 18 reliable packets `HandlePacketSequence` returned true for. -/
def recent (heard : List Hearing) : List Hearing :=
  (heard.filter fun x => x.accepted && x.pkt.reliable).rtake 18

/-- What a side knows of its own packets. -/
structure Own (e : Endpoint) : Prop where
  ref : ∀ i (R : Record), e.log[i]? = some R → R.pkt.ref = i
  index : ∀ i (R : Record), e.log[i]? = some R → R.index = reliableSent (e.log.take i)
  seqnum : ∀ R ∈ e.log, R.pkt.seqnum = BitVec.ofNat 16 R.index
  localseqnum : e.handler.localseqnum = BitVec.ofNat 16 (reliableSent e.log)
  tx : ∀ q ∈ e.handler.acksleftTx, Logged e.log q ∧ q.reliable
  wire : ∀ d ∈ e.wire, Logged e.log d.pkt ∧ Carries d.data d.pkt.body.kind d.pkt.header

/-- A reliable packet of the other side that was accepted. -/
def Held (log : List Record) (e : Endpoint) (x : AbstractPacket) : Prop :=
  Logged log x ∧ x.reliable ∧ Accepted e x.ref

/-- If there is a bearer, it is an accepted reliable packet with this number. -/
def Bears (log : List Record) (e : Endpoint) (seqnum : BitVec 16) (b : Option ℕ) : Prop :=
  ∀ r, b = some r → ∃ R, log[r]? = some R ∧ R.pkt.reliable ∧ R.pkt.seqnum = seqnum ∧ Accepted e r

/-- What a side knows of the packets of the other. -/
structure Knows (lang : Lang) (log : List Record) (e : Endpoint) : Prop where
  heard : ∀ x ∈ e.heard, Logged log x.pkt
  rx : List.Forall₂ Same e.handler.acksleftRx ((recent e.heard).map Hearing.pkt)
  bearer : Bears log e e.handler.remoteseqnum e.bearer
  bits : ∀ R ∈ e.log, R.pkt.ackbitfield = ackBits lang R.pkt.ack R.held
  held : ∀ R ∈ e.log, ∀ x ∈ R.held, Held log e x
  acks : ∀ R ∈ e.log, Bears log e R.pkt.ack R.bearer

/-- **The invariant.** -/
def Inv (n : Net) : Prop := ∀ s, Own (n s) ∧ Knows (lang s) (n !s).log (n s)

variable {lang}

/-! ### Logs only grow -/

theorem Logged.mono {log log' : List Record} (h : log <+: log') {q : AbstractPacket}
    (hq : Logged log q) : Logged log' q := by
  obtain ⟨R, hR, hhd⟩ := hq
  obtain ⟨l, rfl⟩ := h
  exact ⟨R, by rw [List.getElem?_append_left (List.getElem?_eq_some_iff.mp hR).1, hR], hhd⟩

theorem Logged.same {log : List Record} {p q : AbstractPacket} (h : Same p q) (hq : Logged log q) :
    Logged log p := by
  obtain ⟨R, hR, hhd⟩ := hq
  exact ⟨R, by rw [h.1, hR], h.2.trans hhd⟩

theorem Accepted.mono {e e' : Endpoint} (h : e.heard <+: e'.heard) {r : ℕ} (hr : Accepted e r) :
    Accepted e' r := by
  obtain ⟨x, hx, hv⟩ := hr
  exact ⟨x, h.subset hx, hv⟩

theorem Held.mono {log log' : List Record} (hlog : log <+: log') {e e' : Endpoint}
    (he : e.heard <+: e'.heard) {x : AbstractPacket} (hx : Held log e x) : Held log' e' x :=
  ⟨hx.1.mono hlog, hx.2.1, hx.2.2.mono he⟩

theorem Bears.mono {log log' : List Record} (hlog : log <+: log') {e e' : Endpoint}
    (he : e.heard <+: e'.heard) {seqnum : BitVec 16} {b : Option ℕ} (hb : Bears log e seqnum b) :
    Bears log' e' seqnum b := fun r hr => by
  obtain ⟨R, hR, hrel, hseq, hacc⟩ := hb r hr
  obtain ⟨l, rfl⟩ := hlog
  exact ⟨R, by rw [List.getElem?_append_left (List.getElem?_eq_some_iff.mp hR).1, hR], hrel, hseq,
    hacc.mono he⟩

theorem Knows.mono {lang : Lang} {log log' : List Record} (h : log <+: log') {e : Endpoint}
    (he : Knows lang log e) : Knows lang log' e :=
  ⟨fun x hx => (he.heard x hx).mono h, he.rx, he.bearer.mono h List.prefix_rfl, he.bits,
    fun R hR x hx => (he.held R hR x hx).mono h List.prefix_rfl,
    fun R hR => (he.acks R hR).mono h List.prefix_rfl⟩

/-- A step of one side. -/
theorem Inv.update {n : Net} (hn : Inv lang n) {s : Bool} {e : Endpoint} (hown : Own e)
    (hknows : Knows (lang s) (n !s).log e) (hlog : (n s).log <+: e.log) :
    Inv lang (Function.update n s e) := by
  intro t
  by_cases ht : t = s
  · subst ht
    simpa using ⟨hown, hknows⟩
  · have hts : (!t) = s := by cases t <;> cases s <;> simp_all
    subst hts
    simp only [Function.update_of_ne ht, Function.update_self]
    exact ⟨(hn t).1, (hn t).2.mono (by simpa using hlog)⟩

/-! ### What a side has received -/

/-- A packet joins the last 18. -/
theorem rtake_push {α : Type} (n : ℕ) (l : List α) :
    (if (l.rtake (n + 1)).length > n then (l.rtake (n + 1)).tail else l.rtake (n + 1)) =
      l.rtake n := by
  have hlen : (l.rtake (n + 1)).length = min (n + 1) l.length := by simp [List.rtake]; omega
  rw [hlen]
  split_ifs with h
  · rw [List.rtake, List.rtake, List.tail_drop]
    congr 1
    omega
  · rw [List.rtake, List.rtake]
    congr 1
    omega

theorem recent_append (heard : List Hearing) (x : Hearing) :
    recent (heard ++ [x]) =
      if x.accepted && x.pkt.reliable then
        (if (recent heard).length > 17 then (recent heard).tail else recent heard) ++ [x]
      else recent heard := by
  unfold recent
  rw [rtake_push 17, List.filter_append]
  by_cases hx : (x.accepted && x.pkt.reliable) = true
  · rw [if_pos hx, List.filter_cons_of_pos (by simpa using hx), List.filter_nil]
    exact List.rtake_concat_succ _ 17 x
  · rw [if_neg hx, List.filter_cons_of_neg (by simpa using hx), List.filter_nil, List.append_nil]

theorem Knows.rx_held {lang : Lang} {log : List Record} {e : Endpoint} (he : Knows lang log e) :
    ∀ x ∈ e.handler.acksleftRx, Held log e x := by
  intro x hx
  obtain ⟨i, hi, rfl⟩ := List.getElem_of_mem hx
  have hlen := he.rx.length_eq
  have hs := List.forall₂_iff_get.mp he.rx
  have hi' : i < (recent e.heard).length := by simpa [hlen] using hi
  have hsame : Same e.handler.acksleftRx[i] (recent e.heard)[i].pkt := by
    simpa using hs.2 i hi (by simpa using hi')
  have hmem : (recent e.heard)[i] ∈ e.heard.filter fun x => x.accepted && x.pkt.reliable :=
    List.mem_of_mem_drop (List.getElem_mem hi')
  obtain ⟨hmem, hv⟩ := List.mem_filter.mp hmem
  rw [Bool.and_eq_true] at hv
  refine ⟨(he.heard _ hmem).same hsame, ?_, _, hmem, hv.1, hsame.1.symm⟩
  rw [AbstractPacket.reliable_of_header hsame.2, hv.2]

/-! ### A new packet is sent -/

theorem reliableSent_append (log : List Record) (R : Record) :
    reliableSent (log ++ [R]) = reliableSent log + if R.pkt.reliable then 1 else 0 := by
  simp [reliableSent, List.countP_append, List.countP_singleton]

theorem getElem?_concat {α : Type} {l : List α} {a x : α} {i : ℕ} (h : (l ++ [a])[i]? = some x) :
    l[i]? = some x ∨ (i = l.length ∧ x = a) := by
  rcases Nat.lt_trichotomy i l.length with hi | hi | hi
  · exact Or.inl (by rwa [List.getElem?_append_left hi] at h)
  · subst hi
    simp at h
    exact Or.inr ⟨rfl, h.symm⟩
  · rw [List.getElem?_eq_none (by simp; omega)] at h
    simp at h

section First

variable {lang : Lang} {call : Call} {e : Endpoint} {pkt : AbstractPacket} {data : List UInt8}

/-- The side after the first sending of a packet. -/
def afterFirst (lang : Lang) (call : Call) (e : Endpoint) (pkt : AbstractPacket)
    (data : List UInt8) : Endpoint :=
  e.post (addSent lang e.handler (firstSent lang call e.handler pkt))
    [⟨firstSent lang call e.handler pkt, data⟩]

theorem addSent_remote (lang : Lang) (h : UDPHandler) (p : AbstractPacket) :
    (addSent lang h p).remoteseqnum = h.remoteseqnum ∧
      (addSent lang h p).acksleftRx = h.acksleftRx := by
  unfold addSent; split_ifs <;> exact ⟨rfl, rfl⟩

theorem own_first (he : Own e) (href : pkt.ref = e.log.length)
    (hdata : lang.getBytes (firstSent lang call e.handler pkt) = .ok data) :
    Own (afterFirst lang call e pkt data) := by
  set p := firstSent lang call e.handler pkt with hp
  have hpref : p.ref = e.log.length := href
  have hlog : (afterFirst lang call e pkt data).log = e.log ++ [⟨p, reliableSent e.log,
    (addSent lang e.handler p).acksleftRx, e.bearer⟩] := rfl
  have hnew : Logged (afterFirst lang call e pkt data).log p :=
    ⟨_, by rw [hlog, hpref, List.getElem?_concat_length], rfl⟩
  have hpre : e.log <+: (afterFirst lang call e pkt data).log := List.prefix_append ..
  refine ⟨fun i R hR => ?_, fun i R hR => ?_, fun R hR => ?_, ?_, fun q hq => ?_, fun d hd => ?_⟩
  · rcases getElem?_concat hR with hR | ⟨rfl, rfl⟩
    · exact he.ref i R hR
    · exact href
  · rcases getElem?_concat hR with hR | ⟨rfl, rfl⟩
    · rw [he.index i R hR, show (afterFirst lang call e pkt data).log.take i = e.log.take i from
        List.take_append_of_le_length (List.getElem?_eq_some_iff.mp hR).1.le]
    · rw [show (afterFirst lang call e pkt data).log.take e.log.length = e.log from
        List.take_left' rfl]
  · rcases List.mem_append.mp hR with hR | hR
    · exact he.seqnum R hR
    · rw [List.mem_map] at hR
      obtain ⟨d, hd, rfl⟩ := hR
      obtain rfl := List.mem_singleton.mp hd
      exact he.localseqnum
  · rw [hlog, reliableSent_append]
    show (addSent lang e.handler p).localseqnum = _
    unfold addSent
    split_ifs
    · rw [Lang.sequenceIncrement_eq, he.localseqnum, ← BitVec.toNat_inj]
      simp [BitVec.toNat_add]
    · exact he.localseqnum
  · have hq : q ∈ e.handler.acksleftTx ∨ (q = p ∧ p.reliable) := by
      have hq : q ∈ (addSent lang e.handler p).acksleftTx := hq
      unfold addSent at hq
      split_ifs at hq with hr
      · simpa [hr] using hq
      · exact Or.inl hq
    rcases hq with hq | ⟨rfl, hr⟩
    · exact ⟨(he.tx q hq).1.mono hpre, (he.tx q hq).2⟩
    · exact ⟨hnew, hr⟩
  · rcases List.mem_append.mp hd with hd | hd
    · exact ⟨(he.wire d hd).1.mono hpre, (he.wire d hd).2⟩
    · obtain rfl := List.mem_singleton.mp hd
      exact ⟨hnew, Lang.getBytes_carries hdata⟩

theorem knows_first {log : List Record} (he : Knows lang log e) :
    Knows lang log (afterFirst lang call e pkt data) := by
  obtain ⟨hremote, hrx⟩ := addSent_remote lang e.handler
    (firstSent lang call e.handler pkt)
  have hlog : ∀ R ∈ (afterFirst lang call e pkt data).log, R ∈ e.log ∨
      (R.pkt.ackbitfield = ackBits lang R.pkt.ack R.held ∧ R.held = e.handler.acksleftRx ∧
        R.pkt.ack = e.handler.remoteseqnum ∧ R.bearer = e.bearer) := by
    intro R hR
    rcases List.mem_append.mp hR with hR | hR
    · exact Or.inl hR
    · rw [List.mem_map] at hR
      obtain ⟨d, hd, rfl⟩ := hR
      obtain rfl := List.mem_singleton.mp hd
      exact Or.inr ⟨by simp only [hrx]; rfl, hrx, rfl, rfl⟩
  refine ⟨he.heard, ?_, ?_, fun R hR => ?_, fun R hR => ?_, fun R hR => ?_⟩
  · show List.Forall₂ Same (addSent lang e.handler _).acksleftRx _
    rw [hrx]
    exact he.rx
  · show Bears log e (addSent lang e.handler _).remoteseqnum e.bearer
    rw [hremote]
    exact he.bearer
  · rcases hlog R hR with hR | ⟨hbits, -⟩
    · exact he.bits R hR
    · exact hbits
  · rcases hlog R hR with hR | ⟨-, hheld, -⟩
    · exact he.held R hR
    · rw [hheld]
      exact he.rx_held
  · rcases hlog R hR with hR | ⟨-, -, hack, hb⟩
    · exact he.acks R hR
    · rw [hack, hb]
      exact he.bearer

end First

/-! ### A packet comes in -/

section Hear

variable {lang : Lang} {log : List Record} {e : Endpoint} {d x : AbstractPacket}

/-- The side after `d` came in and was decoded as the object `x`, but for an ackbeat. -/
def afterHeard (lang : Lang) (e : Endpoint) (d x : AbstractPacket) : Endpoint :=
  { e.hear lang d (some !isDuplicate e.handler x) with handler := afterPacket lang e.handler x }

theorem isDuplicate_same (h : UDPHandler) (hx : Same x d) : isDuplicate h x = isDuplicate h d := by
  have hseq : x.seqnum = d.seqnum := congrArg Header.seqnum hx.2
  simp only [isDuplicate, hseq]

theorem own_heard (he : Own e) : Own (afterHeard lang e d x) :=
  ⟨he.ref, he.index, he.seqnum,
    (localseqnum_afterPacket lang e.handler x).trans he.localseqnum,
    fun q hq => he.tx q ((tx_afterPacket lang e.handler x).subset hq), he.wire⟩

theorem rx_heard (he : Knows lang log e) (hx : Same x d) :
    List.Forall₂ Same (afterPacket lang e.handler x).acksleftRx
      ((recent (e.heard ++ [⟨d, !isDuplicate e.handler x⟩])).map Hearing.pkt) := by
  rw [recent_append]
  unfold afterPacket
  cases hdup : isDuplicate e.handler x with
  | true => simpa using he.rx
  | false =>
    have hrel := AbstractPacket.reliable_of_header hx.2
    have hlen : e.handler.acksleftRx.length = (recent e.heard).length := by
      simpa using he.rx.length_eq
    simp only [accept, hrel, Bool.not_false, Bool.true_and, Bool.false_eq_true, if_false, hlen]
    split_ifs
    · rw [List.map_append, List.map_tail, ← List.drop_one, ← List.drop_one]
      exact List.rel_append (List.forall₂_drop 1 he.rx) (.cons hx .nil)
    · rw [List.map_append]
      exact List.rel_append he.rx (.cons hx .nil)
    · exact he.rx

theorem bearer_heard (he : Knows lang log e) (hd : Logged log d) (hx : Same x d) :
    Bears log (afterHeard lang e d x) (afterHeard lang e d x).handler.remoteseqnum
      (afterHeard lang e d x).bearer := by
  have hold := he.bearer.mono List.prefix_rfl
    (show e.heard <+: (afterHeard lang e d x).heard from List.prefix_append ..)
  have hdup := isDuplicate_same e.handler hx
  have hseq : x.seqnum = d.seqnum := congrArg Header.seqnum hx.2
  show Bears log _ (afterPacket lang e.handler x).remoteseqnum (bearerAfter lang e d)
  unfold afterPacket bearerAfter
  rw [← hdup]
  cases hdupx : isDuplicate e.handler x with
  | true => simpa using hold
  | false =>
    have hnew : d.reliable = true →
        Bears log (afterHeard lang e d x) d.seqnum (some d.ref) := by
      rintro hrel r ⟨⟩
      obtain ⟨R, hR, hhd⟩ := hd
      refine ⟨R, hR, by rw [← AbstractPacket.reliable_of_header hhd, hrel],
        (congrArg Header.seqnum hhd).symm, ⟨d, !isDuplicate e.handler x⟩, ?_, by simp [hdupx], rfl⟩
      exact List.mem_append_right _ (List.mem_singleton_self _)
    simp only [accept, hseq, Bool.false_eq_true, if_false]
    split_ifs with hgt hrel hrel
    · exact hnew hrel
    · exact fun r hr => by simp at hr
    · exact hrel.2 ▸ hnew hrel.1
    · exact hold

theorem knows_heard (he : Knows lang log e) (hd : Logged log d) (hx : Same x d) :
    Knows lang log (afterHeard lang e d x) := by
  have hpre : e.heard <+: (afterHeard lang e d x).heard := List.prefix_append ..
  refine ⟨fun y hy => ?_, rx_heard he hx, bearer_heard he hd hx, he.bits,
    fun R hR y hy => (he.held R hR y hy).mono List.prefix_rfl hpre,
    fun R hR => (he.acks R hR).mono List.prefix_rfl hpre⟩
  rcases List.mem_append.mp hy with hy | hy
  · exact he.heard y hy
  · obtain rfl := List.mem_singleton.mp hy
    exact hd

end Hear

/-! ### Packets are sent again -/

section Again

variable {lang : Lang} {log : List Record} {e : Endpoint} {tx : List AbstractPacket}
  {out : List Datagram}

/-- The side after a resend. -/
def afterResend (e : Endpoint) (tx : List AbstractPacket) (out : List Datagram) : Endpoint :=
  { e with handler := { e.handler with acksleftTx := tx }, wire := e.wire ++ out }

theorem own_resend (he : Own e) (htx : List.Forall₂ Same tx e.handler.acksleftTx)
    (hout : ∀ d ∈ out, lang.getBytes d.pkt = .ok d.data ∧ ∃ q ∈ e.handler.acksleftTx, Same d.pkt q) :
    Own (afterResend e tx out) := by
  refine ⟨he.ref, he.index, he.seqnum, he.localseqnum, fun q hq => ?_, fun d hd => ?_⟩
  · obtain ⟨i, hi, rfl⟩ := List.getElem_of_mem hq
    have hi' : i < e.handler.acksleftTx.length := by rw [← htx.length_eq]; exact hi
    have hs : Same tx[i] e.handler.acksleftTx[i] := (List.forall₂_iff_get.mp htx).2 i hi hi'
    obtain ⟨hlog, hrel⟩ := he.tx _ (List.getElem_mem hi')
    exact ⟨hlog.same hs, (AbstractPacket.reliable_of_header hs.2).trans hrel⟩
  · rcases List.mem_append.mp hd with hd | hd
    · exact he.wire d hd
    · obtain ⟨hb, q, hq, hs⟩ := hout d hd
      exact ⟨(he.tx q hq).1.same hs, Lang.getBytes_carries hb⟩

theorem knows_resend (he : Knows lang log e) : Knows lang log (afterResend e tx out) :=
  ⟨he.heard, he.rx, he.bearer, he.bits, he.held, he.acks⟩

end Again

/-! ### The invariant holds in every state -/

theorem inv_init : Inv lang init := fun s =>
  ⟨⟨by simp [init], by simp [init], by simp [init], rfl, by simp [init, newUDPHandler],
    by simp [init]⟩, by simp [init], .nil, fun r hr => by simp [init] at hr, by simp [init],
    by simp [init], by simp [init]⟩

theorem update_post_nil (n : Net) (s : Bool) :
    Function.update n s ((n s).post (n s).handler []) = n := by
  simp [Endpoint.post]

/-- What sending can do. -/
theorem step_send {n n' : Net} {s : Bool} {pkt : AbstractPacket} {now : ℤ}
    (h : step lang n (.send s pkt now) = some n') :
    n' = n ∨ ∃ p data, p = { pkt with ref := (n s).log.length, attempts := 0 } ∧
      (lang s).getBytes (firstSent (lang s) ⟨now, now, true⟩ (n s).handler p) = .ok data ∧
      n' = Function.update n s (afterFirst (lang s) ⟨now, now, true⟩ (n s) p data) := by
  simp only [step, Option.some.injEq] at h
  rw [sendPacket_first (lang s) _ (n s).handler rfl rfl] at h
  split at h
  · exact Or.inl (h.symm.trans (update_post_nil n s))
  · next data hdata => exact Or.inr ⟨_, data, rfl, hdata, h.symm⟩

/-- What resending can do. -/
theorem step_resend {n n' : Net} {s : Bool} {calls : ℕ → Call}
    (h : step lang n (.resend s calls) = some n') (hwrap : NoWrap lang n (.resend s calls)) :
    ∃ tx out, n' = Function.update n s (afterResend (n s) tx out) ∧
      List.Forall₂ Same tx (n s).handler.acksleftTx ∧
      ∀ d ∈ out, (lang s).getBytes d.pkt = .ok d.data ∧ ∃ q ∈ (n s).handler.acksleftTx, Same d.pkt q := by
  obtain ⟨tx, htx, hsame, hout⟩ :=
    resendLoop_same (lang s) calls (n s).handler 0 hwrap
  refine ⟨tx, _, ?_, hsame, hout⟩
  simp only [step, resendMissingPackets, htx, Option.some.injEq] at h
  exact h.symm

/-- The datagram is a packet of format `k` for this reader. -/
def Decodes (lang : Lang) (k : Kind) (d : Datagram) (junk : ℕ → UInt8) : Prop :=
  ∃ q, lang.decode k d.data junk = .ok (some q)

instance (lang : Lang) (k : Kind) (d : Datagram) (junk : ℕ → UInt8) :
    Decidable (Decodes lang k d junk) := by
  unfold Decodes
  rcases lang.decode k d.data junk with e | _ | q
  · exact isFalse (by simp)
  · exact isFalse (by simp)
  · exact isTrue ⟨q, rfl⟩

/-- What reading can do. -/
theorem step_read {n n' : Net} (hn : Inv lang n) {s : Bool} {k : Kind} {i : ℕ} {junk : ℕ → UInt8}
    {now : ℤ} (h : step lang n (.read s k i junk now) = some n') :
    ∃ d, (n !s).wire[i]? = some d ∧ ((¬ Decodes (lang s) k d junk ∧ n' = n) ∨
      (Decodes (lang s) k d junk ∧ ∃ x, Same x d.pkt ∧
        (n' = Function.update n s (afterHeard (lang s) (n s) d.pkt x) ∨
          ∃ data, (lang s).getBytes (firstSent (lang s) ⟨now, now, true⟩
              (afterHeard (lang s) (n s) d.pkt x).handler (newAckbeat (n s).log.length k)) = .ok data ∧
            n' = Function.update n s (afterFirst (lang s) ⟨now, now, true⟩
              (afterHeard (lang s) (n s) d.pkt x) (newAckbeat (n s).log.length k) data)))) := by
  simp only [step] at h
  cases hd : (n !s).wire[i]? with
  | none => simp [hd] at h
  | some d =>
  simp only [hd] at h
  refine ⟨d, rfl, ?_⟩
  have hd' : d ∈ (n !s).wire := List.mem_of_getElem? hd
  rw [Option.some.injEq] at h
  by_cases hdec : Decodes (lang s) k d junk
  · obtain ⟨q, hq⟩ := hdec
    refine Or.inr ⟨⟨q, hq⟩, { q with ref := d.pkt.ref }, ⟨rfl, ?_⟩, ?_⟩
    · exact (Lang.decode_header ((hn !s).1.wire d hd').2 hq).2
    · obtain ⟨data, hdata, hh, hout, hv⟩ :=
        readPacket_eq ⟨now, now, true⟩ rfl hq (n s).handler d.pkt.ref (n s).log.length
      simp only [hh, hout, hv] at h
      split_ifs at h
      · refine Or.inr ⟨data, hdata, h.symm.trans ?_⟩
        have hun := not_reliable_newAckbeat (lang s) ⟨now, now, true⟩
          (afterPacket (lang s) (n s).handler { q with ref := d.pkt.ref }) (n s).log.length k
        simp only [afterFirst, afterHeard, addSent, hun, Bool.false_eq_true, if_false]
        rfl
      · exact Or.inl (h.symm.trans (by simp [Endpoint.post, afterHeard]))
  · obtain ⟨hh, hout, hv⟩ := readPacket_none ⟨now, now, true⟩
      (fun q hq => hdec ⟨q, hq⟩) (n s).handler d.pkt.ref (n s).log.length
    simp only [hh, hout, hv] at h
    exact Or.inl ⟨hdec, h.symm.trans (update_post_nil n s)⟩

theorem newAckbeat_ref (ref : ℕ) (k : Kind) : (newAckbeat ref k).ref = ref := by cases k <;> rfl

/-- **One step keeps the invariant.** -/
theorem inv_step {n n' : Net} {a : Label} (hn : Inv lang n) (hwrap : NoWrap lang n a)
    (h : step lang n a = some n') : Inv lang n' := by
  cases a with
  | send s pkt now =>
    obtain ⟨hown, hknows⟩ := hn s
    rcases step_send h with rfl | ⟨p, data, rfl, hdata, rfl⟩
    · exact hn
    · exact hn.update (own_first hown rfl hdata) (knows_first hknows) (List.prefix_append ..)
  | resend s calls =>
    obtain ⟨hown, hknows⟩ := hn s
    obtain ⟨tx, out, rfl, hsame, hout⟩ := step_resend h hwrap
    exact hn.update (own_resend hown hsame hout) (knows_resend hknows) List.prefix_rfl
  | read s k i junk now =>
    obtain ⟨hown, hknows⟩ := hn s
    obtain ⟨d, hd, ⟨-, rfl⟩ | ⟨-, x, hx, hn'⟩⟩ := step_read hn h
    · exact hn
    have hlogged := ((hn !s).1.wire d (List.mem_of_getElem? hd)).1
    rcases hn' with rfl | ⟨data, hdata, rfl⟩
    · exact hn.update (own_heard hown) (knows_heard hknows hlogged hx) List.prefix_rfl
    · exact hn.update (own_first (own_heard hown) (newAckbeat_ref _ k) hdata)
        (knows_first (knows_heard hknows hlogged hx)) (List.prefix_append ..)

end N64NetLib.Udp.Network
