import Mathlib.Algebra.Order.Group.Int
import Mathlib.Logic.Function.Basic
import N64NetLib.Lib.Run

/-! # The servers that are still alive

The main loop of the master goes through the table of servers before it passes a datagram on, and removes
those that have not been heard of for `TIME_KEEPSERVERS`. At the same time the threads of the clients
register servers and refresh them. Each access to the table and to an object in it is one step, and all
steps interleave (`step`); for one client there is one thread at most.

The main loop removes by key what it has compared a while ago, and a thread refreshes an object that it
has looked up a while ago. A server is lost exactly if it was heard of between the comparison and the
removal, or removed between the lookup and the refresh (`kept_iff`). -/

namespace N64NetLib.Master.Registry

open N64NetLib.Lib.Run

/-- `TIME_KEEPSERVERS`. -/
def timeKeepservers : ℤ := 1000 * 60 * 10

/-- An object `N64Server`: the key of the client whose thread made it, and a number. -/
structure ServerRef where
  key : List Char
  number : ℕ
deriving DecidableEq

/-- A thread handles a `REGISTER` or a `HEARTBEAT`: since when, and for a new object the time in it, or
the object it has looked up. -/
inductive Handler
  | idle
  | registering (start : ℤ)
  | created (start time : ℤ)
  | heartbeat (start : ℤ)
  | found (start : ℤ) (server : ServerRef)
  | unknown

/-- The loop over the servers: it has an entry, the entry and the clock, or is about to remove a key. -/
inductive Sweep
  | idle
  | entry (key : List Char) (server : ServerRef)
  | clocked (key : List Char) (server : ServerRef) (clock : ℤ)
  | dead (key : List Char)

/-- A packet that was handled without a `REGISTER` in reply, and the time it left as that of the last
interaction. -/
structure Handling where
  key : List Char
  start : ℤ
  time : ℤ
deriving DecidableEq

/-- The clock, `servertable`, the times in the objects, the threads and the loop. `handled` and `finished`
are there for the statement only: all that was handled, and what the last step has finished. -/
structure State where
  now : ℤ
  table : List Char → Option ServerRef
  lastmessage : ServerRef → ℤ
  made : ℕ
  threads : List Char → Handler
  sweep : Sweep
  handled : List Handling
  finished : Option Handling

def init : State := ⟨0, fun _ => none, fun _ => 0, 0, fun _ => .idle, .idle, [], none⟩

/-- The clock goes on; the thread of a client registers its server (`register` to `put`) or refreshes it
(`heartbeat` to `refuse`); the loop takes an entry, compares it and removes it (`next` to `remove`). -/
inductive Label
  | tick (ms : ℕ)
  | register (key : List Char)
  | create (key : List Char)
  | put (key : List Char)
  | heartbeat (key : List Char)
  | get (key : List Char)
  | refresh (key : List Char)
  | refuse (key : List Char)
  | next (key : List Char)
  | clock
  | compare
  | remove

def State.setThread (m : State) (key : List Char) (t : Handler) : State :=
  { m with threads := Function.update m.threads key t, finished := none }

def State.setSweep (m : State) (s : Sweep) : State := { m with sweep := s, finished := none }

/-- A thread is done, and has left a time in an object. -/
def State.finish (m : State) (key : List Char) (start time : ℤ) (server : ServerRef)
    (table : List Char → Option ServerRef) : State :=
  { m with
    table := table
    lastmessage := Function.update m.lastmessage server time
    threads := Function.update m.threads key .idle
    handled := ⟨key, start, time⟩ :: m.handled
    finished := some ⟨key, start, time⟩ }

@[simp] theorem State.finish_lastmessage (m : State) (key : List Char) (start time : ℤ)
    (server : ServerRef) (table : List Char → Option ServerRef) :
    (m.finish key start time server table).lastmessage server = time := Function.update_self _ _ _

/-- One step of the clock, of a thread or of the loop. -/
def step (m : State) : Label → Option State
  | .tick ms => some { m with now := m.now + ms, finished := none }
  | .register key =>
    match m.threads key with
    | .idle => some (m.setThread key (.registering m.now))
    | _ => none
  | .create key =>
    match m.threads key with
    | .registering start => some (m.setThread key (.created start m.now))
    | _ => none
  | .put key =>
    match m.threads key with
    | .created start time =>
      let server : ServerRef := ⟨key, m.made⟩
      some { m.finish key start time server (Function.update m.table key (some server)) with
        made := m.made + 1 }
    | _ => none
  | .heartbeat key =>
    match m.threads key with
    | .idle => some (m.setThread key (.heartbeat m.now))
    | _ => none
  | .get key =>
    match m.threads key with
    | .heartbeat start =>
      match m.table key with
      | some server => some (m.setThread key (.found start server))
      | none => some (m.setThread key .unknown)
    | _ => none
  | .refresh key =>
    match m.threads key with
    | .found start server => some (m.finish key start m.now server m.table)
    | _ => none
  | .refuse key =>
    match m.threads key with
    | .unknown => some (m.setThread key .idle)
    | _ => none
  | .next key =>
    match m.sweep, m.table key with
    | .idle, some server => some (m.setSweep (.entry key server))
    | _, _ => none
  | .clock =>
    match m.sweep with
    | .entry key server => some (m.setSweep (.clocked key server m.now))
    | _ => none
  | .compare =>
    match m.sweep with
    | .clocked key server clock =>
      some (m.setSweep
        (if clock - m.lastmessage server > timeKeepservers then .dead key else .idle))
    | _ => none
  | .remove =>
    match m.sweep with
    | .dead key => some { m.setSweep .idle with table := Function.update m.table key none }
    | _ => none

/-- **Nothing that was handled is lost**: when it is finished, and for the ten minutes after it, the server
is in the table with a time no older. -/
def Kept (m : State) : Prop :=
  ∀ h, (m.finished = some h ∨ h ∈ m.handled ∧ m.now - h.time ≤ timeKeepservers) →
    ∃ server, m.table h.key = some server ∧ h.start ≤ m.lastmessage server ∧
      h.time ≤ m.lastmessage server

/-- What a step needs: a server that is removed has still not been heard of for ten minutes, and one that
is refreshed is still in the table. -/
def Undisturbed (m : State) : Label → Prop
  | .remove => ∀ key, m.sweep = .dead key → ∀ server, m.table key = some server →
      m.now - m.lastmessage server > timeKeepservers
  | .refresh key => m.table key ≠ none
  | _ => True

/-! ### The invariant -/

/-- What is known of a thread. -/
def Fine (m : State) (key : List Char) : Handler → Prop
  | .idle | .unknown => True
  | .registering start | .heartbeat start => start ≤ m.now
  | .created start time =>
    start ≤ time ∧ time ≤ m.now ∧ ∀ h ∈ m.handled, h.key = key → h.time ≤ time
  | .found start server =>
    start ≤ m.now ∧ server.key = key ∧ (m.table key = none ∨ m.table key = some server)

/-- **The invariant**: the objects in the table were put there for their keys and have the time of
something that was handled. -/
structure Inv (m : State) : Prop where
  key : ∀ key server, m.table key = some server → server.key = key
  recorded : ∀ key server, m.table key = some server →
    ∃ h ∈ m.handled, h.key = key ∧ h.time = m.lastmessage server
  times : ∀ h ∈ m.handled, h.start ≤ h.time ∧ h.time ≤ m.now
  fine : ∀ key, Fine m key (m.threads key)

theorem Fine.mono {m m' : State} {key : List Char} {t : Handler} (h : Fine m key t)
    (hnow : m.now ≤ m'.now) (hhandled : ∀ h ∈ m'.handled, h.key = key → h ∈ m.handled)
    (htable : m'.table key = m.table key ∨ m'.table key = none) : Fine m' key t := by
  cases t with
  | idle | unknown => trivial
  | registering start => exact le_trans h hnow
  | heartbeat start => exact le_trans h hnow
  | created start time =>
    obtain ⟨hstart, htime, hbefore⟩ := h
    exact ⟨hstart, htime.trans hnow, fun g hg hkey => hbefore g (hhandled g hg hkey) hkey⟩
  | found start server =>
    obtain ⟨hstart, hkey, hserver⟩ := h
    refine ⟨hstart.trans hnow, hkey, ?_⟩
    rcases htable with htable | htable
    · rwa [htable]
    · exact Or.inl htable

theorem Inv.thread {m : State} (h : Inv m) {key : List Char} {t : Handler}
    (ht : m.threads key = t) : Fine m key t := ht ▸ h.fine key

theorem inv_init : Inv init where
  key _ _ h := by cases h
  recorded _ _ h := by cases h
  times _ h := by cases h
  fine _ := trivial

theorem Inv.setThread {m : State} (h : Inv m) {key : List Char} {t : Handler} (ht : Fine m key t) :
    Inv (m.setThread key t) where
  key := h.key
  recorded := h.recorded
  times := h.times
  fine key' := by
    have hmono : ∀ t', Fine m key' t' → Fine (m.setThread key t) key' t' := fun t' h' =>
      h'.mono le_rfl (fun _ hg _ => hg) (Or.inl rfl)
    by_cases hkey : key' = key
    · subst hkey
      simpa [State.setThread] using hmono t ht
    · simpa [State.setThread, hkey] using hmono _ (h.fine key')

theorem Inv.setSweep {m : State} (h : Inv m) (s : Sweep) : Inv (m.setSweep s) where
  key := h.key
  recorded := h.recorded
  times := h.times
  fine key := (h.fine key).mono le_rfl (fun _ hg _ => hg) (Or.inl rfl)

section Finish

variable {m : State} (hinv : Inv m) {key : List Char} (start time : ℤ) (server : ServerRef)
  (table : List Char → Option ServerRef) (hkey : server.key = key) (hstart : start ≤ time)
  (htable : table key = none ∨ table key = some server)
  (hother : ∀ key', key' ≠ key → table key' = m.table key')
include hinv hkey hother

/-- The objects of other servers keep their times. -/
theorem lastmessage_finish {key' : List Char} {server' : ServerRef} (hne : key' ≠ key)
    (h : table key' = some server') :
    m.table key' = some server' ∧
      (m.finish key start time server table).lastmessage server' = m.lastmessage server' := by
  rw [hother key' hne] at h
  have hne' : server' ≠ server := by
    rintro rfl
    exact hne ((hinv.key key' server' h).symm.trans hkey)
  exact ⟨h, Function.update_of_ne hne' _ _⟩

include hstart htable

theorem inv_finish (htime : time ≤ m.now) :
    Inv (m.finish key start time server table) where
  key key' server' h := by
    by_cases hk : key' = key
    · subst hk
      rcases htable with hnone | hsome
      · cases hnone.symm.trans h
      · cases hsome.symm.trans h
        exact hkey
    · exact hinv.key key' server' ((hother key' hk).symm.trans h)
  recorded key' server' h := by
    by_cases hk : key' = key
    · subst hk
      refine ⟨⟨key', start, time⟩, List.mem_cons_self, rfl, ?_⟩
      rcases htable with hnone | hsome
      · cases hnone.symm.trans h
      · cases hsome.symm.trans h
        exact (State.finish_lastmessage _ _ _ _ _ _).symm
    · obtain ⟨h', hlast⟩ := lastmessage_finish hinv start time server table hkey hother hk h
      obtain ⟨g, hg, hgkey, hgtime⟩ := hinv.recorded key' server' h'
      exact ⟨g, List.mem_cons_of_mem _ hg, hgkey, hgtime.trans hlast.symm⟩
  times g hg := by
    rcases List.mem_cons.mp hg with rfl | hg
    · exact ⟨hstart, htime⟩
    · exact hinv.times g hg
  fine key' := by
    by_cases hk : key' = key
    · subst hk
      simp [State.finish, Fine]
    · have hthread : (m.finish key start time server table).threads key' = m.threads key' :=
        Function.update_of_ne hk _ _
      rw [hthread]
      refine (hinv.fine key').mono le_rfl (fun g hg hgkey => ?_) (Or.inl (hother key' hk))
      rcases List.mem_cons.mp hg with rfl | hg
      · exact absurd hgkey.symm hk
      · exact hg

/-- What is finished is kept exactly if its object is in the table. -/
theorem kept_finish (hkept : Kept m) (hbefore : ∀ h ∈ m.handled, h.key = key → h.time ≤ time) :
    Kept (m.finish key start time server table) ↔ table key ≠ none := by
  constructor
  · intro h hnone
    obtain ⟨server', hserver', -⟩ := h ⟨key, start, time⟩ (Or.inl rfl)
    cases hnone.symm.trans hserver'
  · intro hne h hh
    have hsome := htable.resolve_left hne
    have hlast := m.finish_lastmessage key start time server table
    have hnew : h = ⟨key, start, time⟩ ∨ h ∈ m.handled ∧ m.now - h.time ≤ timeKeepservers := by
      rcases hh with hfinished | ⟨hhandled, hnow⟩
      · exact Or.inl (Option.some.inj hfinished).symm
      · exact (List.mem_cons.mp hhandled).imp_right fun hold => ⟨hold, hnow⟩
    rcases hnew with rfl | ⟨hold, hnow⟩
    · exact ⟨server, hsome, hlast.symm ▸ hstart, hlast.symm ▸ le_rfl⟩
    · by_cases hk : h.key = key
      · have hle := hbefore h hold hk
        refine ⟨server, by rw [hk]; exact hsome, ?_, ?_⟩
        · rw [hlast]
          exact (hinv.times h hold).1.trans hle
        · rw [hlast]
          exact hle
      · obtain ⟨server', hserver', hstart', htime'⟩ := hkept h (Or.inr ⟨hold, hnow⟩)
        have htab : table h.key = some server' := (hother h.key hk).trans hserver'
        obtain ⟨-, hlast'⟩ :=
          lastmessage_finish hinv start time server table hkey hother hk htab
        exact ⟨server', htab, hlast'.symm ▸ hstart', hlast'.symm ▸ htime'⟩

end Finish

/-! ### One step -/

/-- A step that leaves the table, the objects and what was handled alone. -/
theorem Kept.quiet {m m' : State} (h : Kept m) (hfinished : m'.finished = none)
    (hhandled : m'.handled = m.handled) (hnow : m.now ≤ m'.now) (htable : m'.table = m.table)
    (hlast : m'.lastmessage = m.lastmessage) : Kept m' := by
  intro g hg
  rcases hg with hg | ⟨hg, hle⟩
  · cases hfinished.symm.trans hg
  · rw [hhandled] at hg
    rw [htable, hlast]
    exact h g (Or.inr ⟨hg, by omega⟩)

theorem kept_setThread {m : State} (h : Kept m) (key : List Char) (t : Handler) :
    Kept (m.setThread key t) := h.quiet rfl rfl le_rfl rfl rfl

theorem kept_setSweep {m : State} (h : Kept m) (s : Sweep) : Kept (m.setSweep s) :=
  h.quiet rfl rfl le_rfl rfl rfl

theorem inv_tick {m : State} (h : Inv m) (ms : ℕ) :
    Inv { m with now := m.now + ms, finished := none } where
  key := h.key
  recorded := h.recorded
  times g hg := ⟨(h.times g hg).1, (h.times g hg).2.trans (by simp)⟩
  fine key := (h.fine key).mono (by simp) (fun _ hg _ => hg) (Or.inl rfl)

theorem inv_remove {m : State} (h : Inv m) (key : List Char) :
    Inv { m.setSweep .idle with table := Function.update m.table key none } := by
  have htable : ∀ key', Function.update m.table key none key' = m.table key' ∨
      Function.update m.table key none key' = none := by
    intro key'
    by_cases hk : key' = key
    · exact Or.inr (hk ▸ Function.update_self _ _ _)
    · exact Or.inl (Function.update_of_ne hk _ _)
  have hold : ∀ key' server, Function.update m.table key none key' = some server →
      m.table key' = some server := by
    intro key' server hserver
    rcases htable key' with hsame | hnone
    · exact hsame.symm.trans hserver
    · cases hnone.symm.trans hserver
  exact {
    key := fun key' server hserver => h.key key' server (hold key' server hserver)
    recorded := fun key' server hserver => h.recorded key' server (hold key' server hserver)
    times := h.times
    fine := fun key' => (h.fine key').mono le_rfl (fun _ hg _ => hg) (htable key') }

/-- A server that is removed must not have been heard of for ten minutes. -/
theorem kept_remove {m : State} (hinv : Inv m) (hkept : Kept m) (key : List Char) :
    Kept { m.setSweep .idle with table := Function.update m.table key none } ↔
      ∀ server, m.table key = some server → m.now - m.lastmessage server > timeKeepservers := by
  constructor
  · intro h server hserver
    by_contra hle
    obtain ⟨g, hg, hgkey, hgtime⟩ := hinv.recorded key server hserver
    obtain ⟨server', hserver', -⟩ := h g (Or.inr ⟨hg, by
      change m.now - g.time ≤ timeKeepservers
      omega⟩)
    rw [hgkey] at hserver'
    cases (Function.update_self key none m.table).symm.trans hserver'
  · intro hold g hg
    rcases hg with hg | ⟨hg, hle⟩
    · cases hg
    · obtain ⟨server, hserver, hstart, htime⟩ := hkept g (Or.inr ⟨hg, hle⟩)
      have hne : g.key ≠ key := by
        intro hgkey
        have hlong := hold server (hgkey ▸ hserver)
        change m.now - g.time ≤ timeKeepservers at hle
        omega
      exact ⟨server, (Function.update_of_ne hne _ _).trans hserver, hstart, htime⟩

theorem inv_step {m m' : State} {a : Label} (h : Inv m) (hstep : step m a = some m') : Inv m' := by
  cases a with
  | tick ms =>
    cases hstep
    exact inv_tick h ms
  | register key =>
    simp only [step] at hstep
    split at hstep <;> cases hstep
    exact h.setThread le_rfl
  | create key =>
    simp only [step] at hstep
    split at hstep <;> cases hstep
    next start hthread =>
    have hstart : start ≤ m.now := h.thread hthread
    exact h.setThread ⟨hstart, le_rfl, fun g hg _ => (h.times g hg).2⟩
  | put key =>
    simp only [step] at hstep
    split at hstep <;> cases hstep
    next start time hthread =>
    obtain ⟨hstart, htime, -⟩ := h.thread hthread
    have hnew := inv_finish h start time ⟨key, m.made⟩
      (Function.update m.table key (some ⟨key, m.made⟩)) rfl hstart
      (Or.inr (Function.update_self _ _ _)) (fun key' hk => Function.update_of_ne hk _ _) htime
    exact ⟨hnew.key, hnew.recorded, hnew.times, hnew.fine⟩
  | heartbeat key =>
    simp only [step] at hstep
    split at hstep <;> cases hstep
    exact h.setThread le_rfl
  | get key =>
    simp only [step] at hstep
    split at hstep
    · next start hthread =>
      have hstart : start ≤ m.now := h.thread hthread
      split at hstep <;> cases hstep
      · next server hserver =>
        exact h.setThread ⟨hstart, h.key key server hserver, Or.inr hserver⟩
      · exact h.setThread trivial
    · cases hstep
  | refresh key =>
    simp only [step] at hstep
    split at hstep <;> cases hstep
    next start server hthread =>
    obtain ⟨hstart, hkey, htable⟩ := h.thread hthread
    exact inv_finish h start m.now server m.table hkey hstart htable (fun _ _ => rfl) le_rfl
  | refuse key =>
    simp only [step] at hstep
    split at hstep <;> cases hstep
    exact h.setThread trivial
  | next key =>
    simp only [step] at hstep
    split at hstep <;> cases hstep
    exact h.setSweep _
  | clock | compare =>
    simp only [step] at hstep
    split at hstep <;> cases hstep
    exact h.setSweep _
  | remove =>
    simp only [step] at hstep
    split at hstep <;> cases hstep
    exact inv_remove h _

/-- **One step** keeps what was handled exactly if it meets the condition. -/
theorem kept_step {m m' : State} {a : Label} (hinv : Inv m) (h : Kept m) (hstep : step m a = some m') :
    Kept m' ↔ Undisturbed m a := by
  cases a with
  | tick ms =>
    cases hstep
    exact iff_of_true (h.quiet rfl rfl (by simp) rfl rfl) trivial
  | register key | create key | heartbeat key | refuse key =>
    simp only [step] at hstep
    split at hstep <;> cases hstep
    exact iff_of_true (kept_setThread h _ _) trivial
  | get key =>
    simp only [step] at hstep
    split at hstep
    · split at hstep <;> cases hstep <;> exact iff_of_true (kept_setThread h _ _) trivial
    · cases hstep
  | next key | clock | compare =>
    simp only [step] at hstep
    split at hstep <;> cases hstep
    exact iff_of_true (kept_setSweep h _) trivial
  | put key =>
    simp only [step] at hstep
    split at hstep <;> cases hstep
    next start time hthread =>
    obtain ⟨hstart, -, hbefore⟩ := hinv.thread hthread
    have hself : Function.update m.table key (some ⟨key, m.made⟩) key = some ⟨key, m.made⟩ :=
      Function.update_self _ _ _
    have hkept := kept_finish hinv start time ⟨key, m.made⟩
      (Function.update m.table key (some ⟨key, m.made⟩)) rfl hstart (Or.inr hself)
      (fun key' hk => Function.update_of_ne hk _ _) h hbefore
    exact iff_of_true (hkept.mpr (by simp)) trivial
  | refresh key =>
    simp only [step] at hstep
    split at hstep <;> cases hstep
    next start server hthread =>
    obtain ⟨hstart, hkey, htable⟩ := hinv.thread hthread
    exact kept_finish hinv start m.now server m.table hkey hstart htable (fun _ _ => rfl) h
      fun g hg _ => (hinv.times g hg).2
  | remove =>
    simp only [step] at hstep
    split at hstep <;> cases hstep
    next key hsweep =>
    rw [kept_remove hinv h key, Undisturbed, hsweep]
    simp

/-! ### All runs -/

/-- **Nothing is lost in a run exactly if no step of it is disturbed.** -/
theorem kept_iff (l : List Label) : Always step Kept init l ↔ Along step Undisturbed init l :=
  always_iff_along (J := Inv) (D := fun _ _ => True) (fun _ _ _ hJ _ hs => inv_step hJ hs)
    (fun _ _ _ hJ hI _ hs => kept_step hJ hI hs) inv_init
    (fun _ hg => by rcases hg with hg | ⟨hg, -⟩ <;> cases hg) (along_true _ _)

/-- A server that is registered, and ten minutes and a millisecond later. -/
def longSilence : List Label := [.register ['a'], .create ['a'], .put ['a'], .tick 600001, .heartbeat ['a']]

/-- The server is heard of after it was compared. -/
def lateRemoval : List Label :=
  longSilence ++ [.next ['a'], .clock, .compare, .get ['a'], .refresh ['a'], .remove]

/-- The server is removed after it was looked up. -/
def lateRefresh : List Label :=
  longSilence ++ [.get ['a'], .next ['a'], .clock, .compare, .remove, .refresh ['a']]

theorem handled_lateRemoval : ∃ m, run step init lateRemoval = some m ∧
    ⟨['a'], 600001, 600001⟩ ∈ m.handled ∧ m.now = 600001 ∧ m.table ['a'] = none :=
  ⟨_, rfl, by decide, by decide, by decide⟩

theorem handled_lateRefresh : ∃ m, run step init lateRefresh = some m ∧
    ⟨['a'], 600001, 600001⟩ ∈ m.handled ∧ m.now = 600001 ∧ m.table ['a'] = none :=
  ⟨_, rfl, by decide, by decide, by decide⟩

/-- In both runs the `HEARTBEAT` has been handled, and the server is not in the table. -/
theorem not_kept_runs : ¬ Always step Kept init lateRemoval ∧ ¬ Always step Kept init lateRefresh := by
  have hlost : ∀ m, ⟨['a'], 600001, 600001⟩ ∈ m.handled ∧ m.now = 600001 ∧ m.table ['a'] = none →
      ¬ Kept m := by
    rintro m ⟨hhandled, hnow, hnone⟩ h
    obtain ⟨server, hserver, -⟩ := h _ (Or.inr ⟨hhandled, by rw [hnow]; decide⟩)
    cases hnone.symm.trans hserver
  obtain ⟨m1, hrun1, h1⟩ := handled_lateRemoval
  obtain ⟨m2, hrun2, h2⟩ := handled_lateRefresh
  exact ⟨fun h => hlost m1 h1 (h.last hrun1), fun h => hlost m2 h2 (h.last hrun2)⟩

end N64NetLib.Master.Registry
