import N64NetLib.N64.Machine

/-! # Does `netlib_poll` call only what was registered?

The table of callbacks has 64 entries. `netlib_register` refuses the types above 64, and so lets 64
through, and `netlib_poll` takes whatever type byte comes from the network. `netlib_initialize` means to
clear the table, but sets its first byte alone, so that the callbacks stay.

The program is followed by what was registered since the last `netlib_initialize` (`Tracked`). Outside of
these cases every access is in the table and every callback is the one that was registered, and in them
none is (`along_guarded_iff`). -/

namespace N64NetLib.N64.Callbacks

open N64NetLib.Lib.Run N64NetLib.Lib.BigEndian N64NetLib.Packet.Basic N64NetLib.Packet.Sequence
open N64NetLib.N64.Netlib N64NetLib.N64.Machine

/-! ### The table -/

/-- The type that `netlib_poll` reads from a packet, if it supports the version. -/
def readType (locals : Locals) (u : Usb) : Option UInt8 :=
  let u := usbSkip 3 u
  let (version, u) := usbRead 1 u
  if version.headD locals.version > netlibVersion then none
  else some ((usbRead 1 u).1.headD locals.type)

/-- The type of the packet in a turn of the loop, if there is one. -/
def turnType (locals : Locals) (s : State) : Option UInt8 :=
  if (usbPoll s.usb).1 = datatypeNetpacket then readType locals (usbPoll s.usb).2 else none

/-- The indices at which a step reads or writes the table. -/
def accessed (s : State) : Label → List ℕ
  | .call (.init _) => [0]
  | .call (.register type _) => if type > maxUniquepackets then [] else [type.toNat]
  | .turn locals _ => (turnType locals s).toList.map UInt8.toNat
  | _ => []

/-- The callback that a step calls, with the type of the packet. -/
def called (s : State) : Label → Option (UInt8 × BitVec 32)
  | .turn locals _ =>
    if (usbPoll s.usb).1 = datatypeNetpacket then
      match (readHeader locals s.globals (usbPoll s.usb).2).1 with
      | .callback type address _ => some (type, address)
      | _ => none
    else none
  | _ => none

/-- The program, and the callback last registered for each type since the last `netlib_initialize`. -/
structure Tracked where
  base : State
  registered : UInt8 → Option (BitVec 32)

def start (behind : ℕ → BitVec 32) : Tracked := ⟨init behind, fun _ => none⟩

def track (t : Tracked) (s : State) : Label → Tracked
  | .call (.init _) => ⟨s, fun _ => none⟩
  | .call (.register type callback) => ⟨s, Function.update t.registered type (some callback)⟩
  | _ => ⟨s, t.registered⟩

/-- One step. -/
def step (host : Host) (t : Tracked) (a : Label) : Option Tracked :=
  (Machine.step host t.base a).map fun s => track t s a

/-- **Only the table is accessed, and only what was registered is called.** -/
structure Guarded (t : Tracked) (a : Label) : Prop where
  inTable : ∀ i ∈ accessed t.base a, i < 64
  registered : ∀ type address, called t.base a = some (type, address) → t.registered type = some address

/-- The condition: the type 64 is not registered, the types of the packets are below it, and there is
nothing left in the table for a type that was not registered since the last `netlib_initialize`. -/
def Safe (t : Tracked) : Label → Prop
  | .call (.register type _) => type ≠ maxUniquepackets
  | .turn locals _ => ∀ type, turnType locals t.base = some type →
    type < maxUniquepackets ∧ (t.registered type = none → t.base.globals.funcptrs type.toNat = 0)
  | _ => True

/-! ### The header -/

/-- What `netlib_poll` finds depends on the entry for the type alone. -/
theorem readHeader_eq (locals : Locals) (g : Globals) (u : Usb) :
    ∃ size u', ∀ funcptrs, readHeader locals { g with funcptrs := funcptrs } u =
      (match readType locals u with
      | none => .unsupported
      | some type =>
        if funcptrs type.toNat = 0 then .unregistered
        else .callback type (funcptrs type.toNat) size, u') := by
  unfold readHeader readType
  dsimp only
  split_ifs with hversion
  · exact ⟨0, _, fun _ => rfl⟩
  · let u' := (usbRead 4 (usbSkip 6 (usbRead 1 (usbRead 1 (usbRead 1 (usbSkip 3 u)).2).2).2)).2
    refine ⟨ofBe16 ((usbRead 2 u').1.getD 0 locals.size.1) ((usbRead 2 u').1.getD 1 locals.size.2),
      (usbRead 2 u').2, fun funcptrs => ?_⟩
    dsimp only
    split_ifs <;> rfl

theorem called_turn (locals : Locals) (result : Written) (s : State) {type : UInt8} {address : BitVec 32} :
    called s (.turn locals result) = some (type, address) ↔
      turnType locals s = some type ∧ s.globals.funcptrs type.toNat = address ∧ address ≠ 0 := by
  obtain ⟨size, u', hheader⟩ := readHeader_eq locals s.globals (usbPoll s.usb).2
  have hread := hheader s.globals.funcptrs
  unfold called turnType
  dsimp only
  split_ifs with hnet
  · rw [hread]
    cases readType locals (usbPoll s.usb).2 with
    | none => simp
    | some read =>
      dsimp only
      split_ifs with hzero
      · simp only [false_iff, Option.some.injEq]
        rintro ⟨rfl, rfl, hne⟩
        exact hne hzero
      · simp only [Option.some.injEq, Prod.mk.injEq]
        constructor
        · rintro ⟨rfl, rfl⟩
          exact ⟨rfl, rfl, hzero⟩
        · rintro ⟨rfl, rfl, -⟩
          exact ⟨rfl, rfl⟩
  · simp

/-! ### What is not accessed -/

/-- The program with another word at this place behind the address of the table. -/
def overwrite (i : ℕ) (word : BitVec 32) (s : State) : State :=
  { s with globals := { s.globals with funcptrs := Function.update s.globals.funcptrs i word } }

section Overwrite
variable {i : ℕ} {word : BitVec 32} {s : State}

theorem enterPoll_overwrite (now : Now) :
    enterPoll now (overwrite i word s) = overwrite i word (enterPoll now s) := by
  unfold enterPoll checkConnection overwrite
  dsimp only
  split_ifs <;> rfl

theorem sendNow_overwrite (mask : Globals → BitVec 32) (now : Now)
    (hmask : mask (overwrite i word s).globals = mask s.globals) :
    sendNow (fun g => commit (mask g) g) now (overwrite i word s) =
      overwrite i word (sendNow (fun g => commit (mask g) g) now s) := by
  simp only [sendNow, hmask]
  exact enterPoll_overwrite now (s := { s with
    globals := commit (mask s.globals) s.globals
    committed := s.committed ++ [(commit (mask s.globals) s.globals).packet] })

theorem call_overwrite (host : Host) (c : Call) (h : i ∉ accessed s (.call c)) :
    call host (overwrite i word s) c = overwrite i word (call host s c) := by
  cases c with
  | init cart =>
    have hne : i ≠ 0 := by simpa [accessed] using h
    simp only [call, netlibInitialize, overwrite, Function.update_of_ne (Ne.symm hne)]
    rw [Function.update_comm hne]
  | register type callback =>
    simp only [accessed] at h
    simp only [call, netlibRegister]
    split_ifs with hrefused
    · rfl
    · rw [if_neg hrefused, List.mem_singleton] at h
      simp only [overwrite]
      rw [Function.update_comm h]
  | broadcast now => exact sendNow_overwrite (broadcastMask host) now rfl
  | send client now => exact sendNow_overwrite (fun _ => sendMask host client) now rfl
  | sendtoserver now => exact sendNow_overwrite (fun _ => 0) now rfl
  | poll now => exact enterPoll_overwrite now
  | write v =>
    by_cases hfull : s.globals.writecursize + v.toBytes.length > packetMaxSize
    · simp [call, netlibWrite, overwrite, hfull]
    · simp [call, netlibWrite, overwrite, hfull]
  | setclient | callbackDisconnect | callbackReconnect | start | setflags | read | skip => rfl

theorem finish_overwrite (result : Written) (u : Usb) (rest : List Frame) :
    finish result u rest (overwrite i word s) = overwrite i word (finish result u rest s) := by
  cases hflag : s.globals.sendafterpoll with
  | false => simp [finish, overwrite, hflag]
  | true => simp [finish, overwrite, hflag, Globals.packet]

theorem turn_overwrite {locals : Locals} {result : Written} (curtime : BitVec 64) (rest : List Frame)
    (h : i ∉ accessed s (.turn locals result)) :
    turn locals result curtime rest (overwrite i word s) =
      overwrite i word (turn locals result curtime rest s) := by
  have husb : (overwrite i word s).usb = s.usb := rfl
  unfold turn
  dsimp only
  rw [husb]
  split_ifs with h0 hnet
  · exact finish_overwrite _ _ _
  · obtain ⟨size, u', hheader⟩ := readHeader_eq locals s.globals (usbPoll s.usb).2
    have hread := hheader s.globals.funcptrs
    have hread' := hheader (overwrite i word s).globals.funcptrs
    change readHeader locals (overwrite i word s).globals (usbPoll s.usb).2 = _ at hread'
    simp only [accessed, turnType, if_pos hnet] at h
    rw [hread, hread']
    cases hread : readType locals (usbPoll s.usb).2 with
    | none => rfl
    | some type =>
      have hne : type.toNat ≠ i := by simpa [hread, eq_comm] using h
      simp only [overwrite, Function.update_of_ne hne]
      split_ifs <;> rfl
  · rfl

/-- **A step depends on no other word of the memory from the table on, and changes none**. -/
theorem step_overwrite (host : Host) {a : Label} (h : i ∉ accessed s a) :
    Machine.step host (overwrite i word s) a = (Machine.step host s a).map (overwrite i word) := by
  have hstack : (overwrite i word s).stack = s.stack := rfl
  cases a with
  | arrive m => rfl
  | call c =>
    simp only [Machine.step, hstack, call_overwrite host c h]
    split_ifs <;> rfl
  | turn locals result =>
    simp only [Machine.step, hstack]
    split
    · exact congrArg some (turn_overwrite _ _ h)
    · rfl
  | ret =>
    simp only [Machine.step, ret, hstack]
    split <;> rfl

end Overwrite

/-! ### Every run -/

/-- What was registered is in the table. -/
def Inv (t : Tracked) : Prop :=
  ∀ type address, type < maxUniquepackets → t.registered type = some address →
    t.base.globals.funcptrs type.toNat = address

theorem lt_maxUniquepackets {type : UInt8} : type < maxUniquepackets ↔ type.toNat < 64 :=
  UInt8.lt_iff_toNat_lt

theorem gt_maxUniquepackets {type : UInt8} : type > maxUniquepackets ↔ 64 < type.toNat :=
  UInt8.lt_iff_toNat_lt

/-- The table changes in `netlib_initialize` and `netlib_register` only. -/
theorem funcptrs_step {host : Host} {s s' : State} {a : Label} (h : Machine.step host s a = some s')
    (ha : ∀ cart, a ≠ .call (.init cart)) (ha' : ∀ type callback, a ≠ .call (.register type callback)) :
    s'.globals.funcptrs = s.globals.funcptrs := by
  have hpoll : ∀ now s, (enterPoll now s).globals.funcptrs = s.globals.funcptrs := fun now s => by
    simp only [enterPoll, checkConnection]
    split_ifs <;> rfl
  cases a with
  | arrive m =>
    obtain rfl := Option.some.inj h
    rfl
  | call c =>
    obtain ⟨-, rfl⟩ : userRuns s.stack ∧ call host s c = s' := by simpa [Machine.step] using h
    cases c with
    | init cart => exact absurd rfl (ha cart)
    | register type callback => exact absurd rfl (ha' type callback)
    | broadcast now | send client now | sendtoserver now | poll now => exact hpoll now _
    | write v =>
      simp only [call, netlibWrite]
      split_ifs <;> rfl
    | setclient | callbackDisconnect | callbackReconnect | start | setflags | read | skip => rfl
  | turn locals result =>
    simp only [Machine.step] at h
    split at h
    · obtain rfl := Option.some.inj h
      unfold turn
      dsimp only
      split_ifs
      · unfold finish
        split_ifs <;> rfl
      · split <;> rfl
      · rfl
    · cases h
  | ret =>
    simp only [Machine.step, ret] at h
    split at h
    · obtain rfl := Option.some.inj h
      rfl
    · obtain rfl := Option.some.inj h
      rfl
    · cases h

theorem inv_step {host : Host} {t t' : Tracked} {a : Label} (ht : Inv t) (h : step host t a = some t') :
    Inv t' := by
  obtain ⟨s, hs, rfl⟩ := Option.map_eq_some_iff.mp h
  have hkept : (∀ cart, a ≠ .call (.init cart)) → (∀ type callback, a ≠ .call (.register type callback)) →
      (track t s a).registered = t.registered → (track t s a).base = s → Inv (track t s a) := by
    intro hinit hregister hregistered hbase
    rw [Inv, hregistered, hbase, funcptrs_step hs hinit hregister]
    exact ht
  cases a with
  | arrive m => exact hkept nofun nofun rfl rfl
  | turn locals result => exact hkept nofun nofun rfl rfl
  | ret => exact hkept nofun nofun rfl rfl
  | call c =>
    cases c with
    | init cart => exact fun type address _ h => by cases h
    | register type callback =>
      obtain ⟨-, rfl⟩ : userRuns t.base.stack ∧ call host t.base (.register type callback) = s := by
        simpa [Machine.step] using hs
      intro other address hlt hother
      simp only [track, Function.update_apply] at hother
      simp only [track, call, netlibRegister]
      by_cases heq : other = type
      · have hok : ¬ type > maxUniquepackets := by
          rw [heq, lt_maxUniquepackets] at hlt
          rw [gt_maxUniquepackets]
          omega
        rw [if_pos heq, Option.some.injEq] at hother
        simp [hok, heq, hother]
      · have hne : other.toNat ≠ type.toNat := fun hnat => heq (UInt8.toNat_inj.mp hnat)
        rw [if_neg heq] at hother
        split_ifs
        · exact ht other address hlt hother
        · simpa [Function.update_of_ne hne] using ht other address hlt hother
    | setclient | callbackDisconnect | callbackReconnect | start | write | setflags | broadcast | send
    | sendtoserver | poll | read | skip => exact hkept nofun nofun rfl rfl

/-- **What a step needs.** -/
theorem guarded_iff {t : Tracked} (ht : Inv t) (a : Label) : Guarded t a ↔ Safe t a := by
  have hquiet : ∀ {a}, accessed t.base a = [] → called t.base a = none → Guarded t a := fun hnone hcall =>
    ⟨by simp [hnone], by simp [hcall]⟩
  cases a with
  | arrive m => exact iff_of_true (hquiet rfl rfl) trivial
  | ret => exact iff_of_true (hquiet rfl rfl) trivial
  | call c =>
    cases c with
    | init cart => exact iff_of_true ⟨by simp [accessed], nofun⟩ trivial
    | register type callback =>
      have hbound : (∀ i ∈ accessed t.base (.call (.register type callback)), i < 64) ↔
          type ≠ maxUniquepackets := by
        have hne : type ≠ maxUniquepackets ↔ type.toNat ≠ 64 := UInt8.toNat_inj.symm.not
        simp only [accessed, gt_maxUniquepackets, hne]
        split_ifs with hgt
        · simp
          omega
        · simp
          omega
      exact ⟨fun hg => hbound.mp hg.inTable, fun hs => ⟨hbound.mpr hs, nofun⟩⟩
    | setclient | callbackDisconnect | callbackReconnect | start | write | setflags | broadcast | send
    | sendtoserver | poll | read | skip => exact iff_of_true (hquiet rfl rfl) trivial
  | turn locals result =>
    have hbound : (∀ i ∈ accessed t.base (.turn locals result), i < 64) ↔
        ∀ type, turnType locals t.base = some type → type < maxUniquepackets := by
      cases h : turnType locals t.base with
      | none => simp [accessed, h]
      | some type => simp [accessed, h, lt_maxUniquepackets]
    constructor
    · rintro ⟨htable, hregistered⟩ type htype
      refine ⟨hbound.mp htable type htype, fun hnone => ?_⟩
      by_contra hne
      have hcall := hregistered type _ ((called_turn locals result t.base).mpr ⟨htype, rfl, hne⟩)
      simp [hnone] at hcall
    · intro hsafe
      refine ⟨hbound.mpr fun type htype => (hsafe type htype).1, fun type address hcall => ?_⟩
      obtain ⟨htype, rfl, hne⟩ := (called_turn locals result t.base).mp hcall
      obtain ⟨hlt, hleft⟩ := hsafe type htype
      cases hregistered : t.registered type with
      | none => exact absurd (hleft hregistered) hne
      | some address => rw [ht type address hlt hregistered]

/-- **When only what was registered is called**: exactly in the runs whose steps are all safe. -/
theorem along_guarded_iff (host : Host) (behind : ℕ → BitVec 32) (l : List Label) :
    Along (step host) Guarded (start behind) l ↔ Along (step host) Safe (start behind) l :=
  along_congr (J := Inv) (fun _ _ _ ht _ h => inv_step ht h) (fun _ a _ ht _ => guarded_iff ht a) nofun

/-- A callback is registered, the library is initialized again, and a packet of its type comes. -/
def restart : List Label :=
  [.call (.init .everdrive), .call (.register 5 0x80001000#32), .call (.init .everdrive),
    .arrive ⟨datatypeNetpacket, netlibBytes 1 5 0 0 0 0 0 0 []⟩, .call (.poll ⟨0, false⟩)]

/-- The old callback is called. -/
theorem not_guarded_restart : ¬ ∀ host behind l, Along (step host) Guarded (start behind) l := by
  intro h
  let turned : Label := .turn ⟨0, 0, 0, 0⟩ .success
  obtain ⟨t, hrun, hcalled⟩ : ∃ t, run (step .x86) (start fun _ => 0) restart = some t ∧
      ((Machine.step .x86 t.base turned).isSome, called t.base turned, t.registered 5) =
        (true, some (5, 0x80001000#32), none) :=
    Option.map_eq_some_iff.mp (by decide +kernel)
  obtain ⟨hsome, hcalled, hnone⟩ := by simpa only [Prod.mk.injEq] using hcalled
  obtain ⟨s, hs⟩ := Option.isSome_iff_exists.mp hsome
  have hone := (along_append.mp (h .x86 (fun _ => 0) (restart ++ [turned]))).2 t hrun _
    (by rw [step, hs, Option.map_some])
  have hregistered := hone.1.registered 5 _ hcalled
  simp [hnone] at hregistered

end N64NetLib.N64.Callbacks
