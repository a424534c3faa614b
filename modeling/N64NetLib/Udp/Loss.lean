import N64NetLib.Udp.Network

/-! # Are reliable packets lost?

A reliable packet leaves `acksleft_tx` when a datagram of the other side acknowledges its number.
`NoLoss` says that it was accepted there by then. It is not so in every run: the ack number of a
datagram stands for a reliable packet only if the sender's `remoteseqnum` came from one, the field has
sixteen bits while packets are remembered and tested at any distance, and numbers come round.

`Sound` is what a step needs: every packet a datagram acknowledges by its number has a bearer there,
and every packet it acknowledges by a bit is one of the sixteen behind, as are the packets the bit
was set for. -/

namespace N64NetLib.Udp.Loss

open N64NetLib.Lib.Run N64NetLib.Packet.Basic N64NetLib.Packet.Sequence N64NetLib.Udp.Handler
open N64NetLib.Udp.Network

/-- **No reliable packet is lost**: it is still in `acksleft_tx`, or the other side returned true
for it. -/
def NoLoss (n : Net) : Prop :=
  ∀ s, ∀ R ∈ (n s).log, R.pkt.reliable →
    (∃ q ∈ (n s).handler.acksleftTx, q.ref = R.pkt.ref) ∨ Accepted (n !s) R.pkt.ref

/-- Fewer than 65536 reliable packets lie between the two. -/
def Near (log : List Record) (i j : ℕ) : Prop :=
  ∀ R, log[i]? = some R → ∀ R', log[j]? = some R' →
    R.index < R'.index + 65536 ∧ R'.index < R.index + 65536

/-- The datagram sent as `R` acknowledges `q` for a packet near it: by its number, and then this is
the number of a bearer, or by a bit that no far packet has set. -/
def AckSound (lang : Lang) (log : List Record) (R : Record) (q : AbstractPacket) : Prop :=
  if q.seqnum = R.pkt.ack then ∃ b, R.bearer = some b ∧ Near log b q.ref
  else dist R.pkt.ack q.seqnum ≤ 16 ∧ ∀ x ∈ R.held, lang.sequenceGreaterThan R.pkt.ack x.seqnum →
    (lang.ackBit R.pkt.ack x.seqnum).getLsbD (dist R.pkt.ack q.seqnum - 1) →
      dist R.pkt.ack x.seqnum ≤ 16 ∧ Near log x.ref q.ref

instance (log : List Record) (i j : ℕ) : Decidable (Near log i j) := by
  unfold Near; infer_instance

instance decidableExistsSome (o : Option ℕ) (P : ℕ → Prop) [DecidablePred P] :
    Decidable (∃ b, o = some b ∧ P b) :=
  match o with
  | none => isFalse (by simp)
  | some b => decidable_of_iff (P b) (by simp)

instance (lang : Lang) (log : List Record) (R : Record) (q : AbstractPacket) :
    Decidable (AckSound lang log R q) := by
  unfold AckSound; infer_instance

variable (lang : Bool → Lang)

/-- What a step needs to lose nothing. -/
def Sound (n : Net) : Label → Prop
  | .read s k i junk _ => ∀ d, (n !s).wire[i]? = some d → Decodes (lang s) k d junk →
      isDuplicate (n s).handler d.pkt = false → ∀ R, (n !s).log[d.pkt.ref]? = some R →
        ∀ q ∈ (n s).handler.acksleftTx,
          (lang s).isAcked R.pkt.ack R.pkt.ackbitfield q.seqnum → AckSound (lang !s) (n s).log R q
  | a => NoWrap lang n a

instance decidableSound (n : Net) : ∀ a, Decidable (Sound lang n a)
  | .send s pkt now => inferInstanceAs (Decidable (NoWrap lang n (.send s pkt now)))
  | .resend s calls => inferInstanceAs (Decidable (NoWrap lang n (.resend s calls)))
  | .read s _ i _ _ => decidableForallSome ((n !s).wire[i]?) _

variable {lang}

theorem Sound.noWrap {n : Net} {a : Label} (h : Sound lang n a) : NoWrap lang n a := by
  cases a with
  | send => trivial
  | resend => exact h
  | read => trivial

/-! ### A number near a packet is its own -/

theorem index_lt {e : Endpoint} (he : Own e) {i j : ℕ} {R R' : Record} (hi : e.log[i]? = some R)
    (hj : e.log[j]? = some R') (hR : R.pkt.reliable) (hij : i < j) : R.index < R'.index := by
  have hi' := (List.getElem?_eq_some_iff.mp hi).1
  have hpre : e.log.take i ++ [R] <+: e.log.take j := by
    have h1 : e.log.take (i + 1) = e.log.take i ++ [R] := by
      rw [List.take_add_one, hi]
      rfl
    rw [← h1]
    exact List.take_prefix_take_left (by omega)
  rw [he.index i R hi, he.index j R' hj]
  calc reliableSent (e.log.take i) < reliableSent (e.log.take i ++ [R]) := by
        rw [reliableSent_append, if_pos hR]; omega
    _ ≤ reliableSent (e.log.take j) := hpre.sublist.countP_le

/-- Two near reliable packets with one number are one packet. -/
theorem eq_of_near {e : Endpoint} (he : Own e) {i j : ℕ} {R R' : Record} (hi : e.log[i]? = some R)
    (hj : e.log[j]? = some R') (hR : R.pkt.reliable) (hR' : R'.pkt.reliable)
    (hseq : R.pkt.seqnum = R'.pkt.seqnum) (hnear : Near e.log i j) : i = j := by
  obtain ⟨h1, h2⟩ := hnear R hi R' hj
  have hindex : R.index = R'.index := by
    rw [he.seqnum R (List.mem_of_getElem? hi), he.seqnum R' (List.mem_of_getElem? hj),
      ← BitVec.toNat_inj, BitVec.toNat_ofNat, BitVec.toNat_ofNat] at hseq
    omega
  rcases Nat.lt_trichotomy i j with h | h | h
  · have := index_lt he hi hj hR h; omega
  · exact h
  · have := index_lt he hj hi hR' h; omega

/-- **A sound acknowledgement is for a packet that was accepted.** -/
theorem accepted_of_ackSound {n : Net} (hn : Inv lang n) {s : Bool} {R : Record}
    (hR : R ∈ (n !s).log) {q : AbstractPacket} (hq : q ∈ (n s).handler.acksleftTx)
    (hack : (lang s).isAcked R.pkt.ack R.pkt.ackbitfield q.seqnum)
    (hsound : AckSound (lang !s) (n s).log R q) : Accepted (n !s) q.ref := by
  obtain ⟨hown, -⟩ := hn s
  have hknows : Knows (lang !s) (n s).log (n !s) := by simpa using (hn !s).2
  obtain ⟨⟨Rq, hRq, hhd⟩, hrel⟩ := hown.tx q hq
  have hseq : q.seqnum = Rq.pkt.seqnum := congrArg Header.seqnum hhd
  have hrelq : Rq.pkt.reliable := (AbstractPacket.reliable_of_header hhd).symm.trans hrel
  unfold AckSound at hsound
  split_ifs at hsound with heq
  · obtain ⟨b, hb, hnear⟩ := hsound
    obtain ⟨Rb, hRb, hrelb, hseqb, hacc⟩ := hknows.acks R hR b hb
    have hbq : b = q.ref := eq_of_near hown hRb hRq hrelb hrelq
      (hseqb.trans (heq.symm.trans hseq)) hnear
    exact hbq ▸ hacc
  · obtain ⟨hd, hheld⟩ := hsound
    have hne : R.pkt.ack ≠ q.seqnum := fun h => heq h.symm
    rw [Lang.isAcked_of_near hne hd, hknows.bits R hR] at hack
    obtain ⟨x, hx, hgt, hbit⟩ := ackBits_iff.mp hack
    obtain ⟨hdx, hnear⟩ := hheld x hx hgt hbit
    obtain ⟨⟨Rx, hRx, hhdx⟩, hrelx, hacc⟩ := hknows.held R hR x hx
    have hnex : R.pkt.ack ≠ x.seqnum := by
      intro h
      rw [h, Lang.not_sequenceGreaterThan_self] at hgt
      simp at hgt
    have hxq : x.seqnum = q.seqnum := Lang.eq_of_ackBit hnex hdx hne hbit
    have hseqx : Rx.pkt.seqnum = Rq.pkt.seqnum :=
      (congrArg Header.seqnum hhdx).symm.trans (hxq.trans hseq)
    have hrefs : x.ref = q.ref := eq_of_near hown hRx hRq
      ((AbstractPacket.reliable_of_header hhdx).symm.trans hrelx) hrelq hseqx hnear
    exact hrefs ▸ hacc

/-! ### Steps and runs -/

/-- What the sides keep from one state to the next suffices. -/
theorem NoLoss.update {n : Net} (hn : NoLoss n) {s : Bool} {e : Endpoint}
    (hheard : (n s).heard <+: e.heard)
    (htx : ∀ R ∈ e.log, R.pkt.reliable →
      (∃ q ∈ e.handler.acksleftTx, q.ref = R.pkt.ref) ∨ Accepted (n !s) R.pkt.ref) :
    NoLoss (Function.update n s e) := by
  intro t R hR hrel
  by_cases ht : t = s
  · subst ht
    simpa using htx R (by simpa using hR) hrel
  · have hts : (!t) = s := by cases t <;> cases s <;> simp_all
    subst hts
    rw [Function.update_of_ne ht] at hR ⊢
    rw [Function.update_self]
    exact (hn t R hR hrel).imp id fun h => h.mono hheard

/-- The packets of a side are on their way or at the other side. -/
def Kept (e peer : Endpoint) : Prop :=
  ∀ R ∈ e.log, R.pkt.reliable → (∃ q ∈ e.handler.acksleftTx, q.ref = R.pkt.ref) ∨
    Accepted peer R.pkt.ref

theorem kept_first {lang : Lang} {call : Call} {e peer : Endpoint} {p : AbstractPacket}
    {data : List UInt8} (h : Kept e peer) : Kept (afterFirst lang call e p data) peer := by
  intro R hR hrel
  have htx : (afterFirst lang call e p data).handler.acksleftTx =
      (addSent lang e.handler (firstSent lang call e.handler p)).acksleftTx := rfl
  rw [htx]
  unfold addSent
  rcases List.mem_append.mp hR with hR | hR
  · refine (h R hR hrel).imp (fun ⟨q, hq, hr⟩ => ⟨q, ?_, hr⟩) id
    split_ifs
    · exact List.mem_append_left _ hq
    · exact hq
  · rw [List.mem_map] at hR
    obtain ⟨d, hd, rfl⟩ := hR
    obtain rfl := List.mem_singleton.mp hd
    rw [if_pos hrel]
    exact Or.inl ⟨_, List.mem_append_right _ (List.mem_singleton_self _), rfl⟩

theorem kept_resend {e peer : Endpoint} {tx : List AbstractPacket} {out : List Datagram}
    (htx : List.Forall₂ Same tx e.handler.acksleftTx) (h : Kept e peer) :
    Kept (afterResend e tx out) peer := by
  intro R hR hrel
  refine (h R hR hrel).imp (fun ⟨q, hq, hr⟩ => ?_) id
  obtain ⟨i, hi, rfl⟩ := List.getElem_of_mem hq
  have hi' : i < tx.length := by rw [htx.length_eq]; exact hi
  exact ⟨tx[i], List.getElem_mem hi', ((List.forall₂_iff_get.mp htx).2 i hi' hi).1.trans hr⟩

/-- What an accepted packet takes out of `acksleft_tx`. -/
theorem kept_heard {lang : Lang} {e peer : Endpoint} {d x : AbstractPacket}
    (hacked : isDuplicate e.handler x = false → ∀ q ∈ e.handler.acksleftTx,
      lang.isAcked x.ack x.ackbitfield q.seqnum → Accepted peer q.ref)
    (h : Kept e peer) : Kept (afterHeard lang e d x) peer := by
  intro R hR hrel
  rcases h R hR hrel with ⟨q, hq, hr⟩ | hacc
  · show (∃ q ∈ (afterPacket lang e.handler x).acksleftTx, q.ref = R.pkt.ref) ∨ _
    unfold afterPacket
    cases hdup : isDuplicate e.handler x with
    | true => exact Or.inl ⟨q, by simpa using hq, hr⟩
    | false =>
      by_cases hack : lang.isAcked x.ack x.ackbitfield q.seqnum = true
      · exact Or.inr (hr ▸ hacked hdup q hq hack)
      · exact Or.inl ⟨q, by simpa [accept, hq] using hack, hr⟩
  · exact Or.inr hacc

/-- **One sound step loses nothing.** -/
theorem noLoss_step {n n' : Net} {a : Label} (hn : Inv lang n) (hloss : NoLoss n)
    (ha : Sound lang n a) (h : step lang n a = some n') : NoLoss n' := by
  cases a with
  | send s pkt now =>
    rcases step_send h with rfl | ⟨p, data, rfl, hdata, rfl⟩
    · exact hloss
    · exact hloss.update List.prefix_rfl (kept_first (hloss s))
  | resend s calls =>
    obtain ⟨tx, out, rfl, hsame, hout⟩ := step_resend h ha
    exact hloss.update List.prefix_rfl (kept_resend hsame (hloss s))
  | read s k i junk now =>
    obtain ⟨d, hd, ⟨-, rfl⟩ | ⟨hdec, x, hx, hn'⟩⟩ := step_read hn h
    · exact hloss
    obtain ⟨R, hR, hhd⟩ := ((hn !s).1.wire d (List.mem_of_getElem? hd)).1
    have hhd' := hx.2.trans hhd
    have hkept : Kept (afterHeard (lang s) (n s) d.pkt x) (n !s) := by
      refine kept_heard (fun hdup q hq hack => ?_) (hloss s)
      rw [show x.ack = R.pkt.ack from congrArg Header.ack hhd',
        show x.ackbitfield = R.pkt.ackbitfield from congrArg Header.ackbitfield hhd'] at hack
      rw [isDuplicate_same _ hx] at hdup
      exact accepted_of_ackSound hn (List.mem_of_getElem? hR) hq hack
        (ha d hd hdec hdup R hR q hq hack)
    have hheard : (n s).heard <+: (afterHeard (lang s) (n s) d.pkt x).heard := List.prefix_append ..
    rcases hn' with rfl | ⟨data, hdata, rfl⟩
    · exact hloss.update hheard hkept
    · exact hloss.update hheard (kept_first hkept)

/-- **Sound runs lose no reliable packet**: in every state of such a run, a reliable packet that was
sent is in `acksleft_tx`, or the other side returned true for it. -/
theorem noLoss_of_sound (lang : Bool → Lang) (l : List Label)
    (h : Along (step lang) (Sound lang) init l) : Always (step lang) NoLoss init l :=
  always_of_along (fun _ _ _ hn ha hs => inv_step hn ha.noWrap hs)
    (fun _ _ _ hn hloss ha hs => noLoss_step hn hloss ha hs) inv_init
    (by simp [NoLoss, init]) h

/-- A packet of either side arrives, and the second acknowledges the first. -/
def ackedRun : List Label :=
  [.send false (newNetLibPacket 0 5 [1] 0) 0, .read true .netlib 0 (fun _ => 0) 1,
    .send true (newNetLibPacket 0 6 [2] 0) 2, .resend false (fun _ => ⟨2000, 2000, true⟩),
    .read false .netlib 0 (fun _ => 0) 3]

theorem noLoss_ackedRun : Always (step fun _ => .java) NoLoss init ackedRun :=
  noLoss_of_sound (fun _ => .java) ackedRun (by decide +kernel)

/-- The first packet of one side is lost, the other side has received nothing when it sends, and its
packet acknowledges number 0. -/
def lostRun : List Label :=
  [.send false (newNetLibPacket 0 5 [1] 0) 0, .send true (newNetLibPacket 0 6 [2] 0) 0,
    .read false .netlib 0 (fun _ => 0) 0]

/-- The packet is gone from `acksleft_tx`, and the other side has not heard of it. -/
theorem not_noLoss_lostRun : ¬ ∀ lang l, Always (step lang) NoLoss init l := by
  intro h
  obtain ⟨n, hn⟩ : ∃ n, run (step fun _ => .java) init lostRun = some n :=
    Option.isSome_iff_exists.mp (by decide +kernel)
  have hloss := (h (fun _ => .java) lostRun).last hn
  have hlost : (run (step fun _ => .java) init lostRun).map (fun n =>
      ((n false).log.any (·.pkt.reliable), (n false).handler.acksleftTx, (n true).heard)) =
        some (true, [], []) := by decide +kernel
  rw [hn] at hlost
  simp only [Option.map_some, Option.some.injEq, Prod.mk.injEq, List.any_eq_true] at hlost
  obtain ⟨⟨R, hR, hrel⟩, htx, hheard⟩ := hlost
  rcases hloss false R hR hrel with ⟨q, hq, -⟩ | ⟨x, hx, -⟩
  · simp [htx] at hq
  · simp [hheard] at hx

end N64NetLib.Udp.Loss
