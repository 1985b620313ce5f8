import TereServer.Services.Sessions.Invariant
import TereServer.Services.Sessions.Progress

/-!
# Integrity of the map of sessions

No entry is ever removed or replaced, and only the request that inserted it
changes it, once.  An entry whose request fails before its session is stored
stays as it was inserted.
-/

namespace TereServer.Services.Sessions

open Lib Bincode Ipc Proto.Sessions

section Definitions

variable {ι F : Type}

/-- A request that has an entry and is not yet stored. -/
def Point.reservation : Point F → Option (Reservation F)
  | .printingId r => some r
  | .creatingShell r => some r
  | .connecting r _ => some r
  | .greeting a => some a.toReservation
  | .awaitingReply a => some a.toReservation
  | .sendingInit a => some a.toReservation
  | .lockingEntry a => some a.toReservation
  | .storing a => some a.toReservation
  | _ => none

/-- A live thread is on the way to store the session of an entry. -/
def Processing (s : State ι F) (k : Nat) (id : RequestId ι) : Prop :=
  s.serial id.1 = id.2 ∧ ∃ r, (s.point id.1).reservation = some r ∧ r.sessionEntry = k

/-- The thread of a request has panicked before the session was stored. -/
def Failed (s : State ι F) (id : RequestId ι) : Prop :=
  s.serial id.1 = id.2 ∧ ∃ e, s.point id.1 = .panicked e ∧ e.beforeReady = true

/-- What holds of the map and its entries in one state. -/
structure Intact (s : State ι F) : Prop where
  refers : ∀ id k, s.sessions.value id = some k →
    ∃ entry, s.entries[k]? = some entry ∧ entry.sessionId = id
  distinct : ∀ (i j : Nat) (entry entry' : Entry ι F), s.entries[i]? = some entry →
    s.entries[j]? = some entry' →
      entry.sessionId = entry'.sessionId ∨ entry.owner = entry'.owner → i = j
  holds : ∀ t r, (s.point t).reservation = some r →
    s.sessions.value r.sessionId = some r.sessionEntry ∧
      ∃ entry, s.entries[r.sessionEntry]? = some entry ∧ entry.owner = (t, s.serial t) ∧
        entry.sessionId = r.sessionId
  holders : ∀ t u r r', (s.point t).reservation = some r → (s.point u).reservation = some r' →
    r.sessionId = r'.sessionId → t = u
  ready : ∀ (k : Nat) (entry : Entry ι F), s.entries[k]? = some entry →
    entry.session.value = .creating ∨ entry.Ready s
  sessions_unpoisoned : s.sessions.poisoned = false
  entries_unpoisoned : ∀ entry ∈ s.entries, entry.session.poisoned = false
  no_panic : ∀ t, s.point t ≠ .panicked .stolen ∧ s.point t ≠ .panicked .sessionsPoisoned ∧
    s.point t ≠ .panicked .sessionPoisoned

/-- What holds between a state and a later one. -/
structure Evolves (s s' : State ι F) : Prop where
  sessions : ∀ id k, s.sessions.value id = some k → s'.sessions.value id = some k
  entries : ∀ (k : Nat) (entry : Entry ι F), s.entries[k]? = some entry →
    ∃ entry', s'.entries[k]? = some entry' ∧ entry'.owner = entry.owner ∧
      entry'.sessionId = entry.sessionId ∧ (entry'.session.value = entry.session.value ∨
        entry.session.value = .creating ∧ entry'.Ready s')

end Definitions

section Steps

variable {ι F : Type} [DecidableEq ι] {setup : Setup F} {s s' : State ι F} {a : Action ι F}
  {t : ι} {id : RequestId ι}

/-! ## Requests and their entries -/

omit [DecidableEq ι] in
theorem Inv.entry_of_owner (hinv : Inv setup s) {i j : Nat} {entry entry' : Entry ι F}
    (hentry : s.entries[i]? = some entry) (hentry' : s.entries[j]? = some entry')
    (howner : entry.owner = entry'.owner) : i = j := by
  have hi : (s.reservations.map Prod.fst)[i]? = some entry.owner := by
    simp [State.reservations, hentry]
  have hj : (s.reservations.map Prod.fst)[j]? = some entry'.owner := by
    simp [State.reservations, hentry']
  obtain ⟨hlt, -⟩ := List.getElem?_eq_some_iff.1 hi
  exact (List.getElem?_inj hlt hinv.reservations_nodup).1 (by rw [hi, hj, howner])

omit [DecidableEq ι] in
theorem Inv.sessions_entry (hinv : Inv setup s) {k : Nat} {entry : Entry ι F}
    (hentry : s.entries[k]? = some entry) : s.sessions.value entry.sessionId = some k :=
  (hinv.sessions _ _).2 ⟨entry.owner, by simp [State.reservations, hentry]⟩

omit [DecidableEq ι] in
theorem Point.Knows.reserved {p : Point F} {r : Reservation F} (hknows : p.Knows setup s id)
    (hr : p.reservation = some r) : Reserved s id r := by
  cases p with
  | printingId r' =>
      cases hr
      exact hknows
  | creatingShell r' =>
      cases hr
      exact hknows
  | connecting r' ptyMaster =>
      cases hr
      exact hknows.1
  | greeting b =>
      cases hr
      exact hknows.1
  | awaitingReply b =>
      cases hr
      exact hknows.1
  | sendingInit b =>
      cases hr
      exact hknows.1
  | lockingEntry b =>
      cases hr
      exact hknows.1
  | storing b =>
      cases hr
      exact hknows.1
  | _ => cases hr

omit [DecidableEq ι] in
theorem Inv.reserved (hinv : Inv setup s) {r : Reservation F}
    (hr : (s.point t).reservation = some r) : Reserved s (t, s.serial t) r :=
  (hinv.knows t).reserved hr

/-- What `create_shell` returned for a request stays the same once the request is
past the points at which it is recorded. -/
theorem Step.started (h : Step setup s a s')
    (hrequest : ∀ t, s.point t = .receiving → id ≠ (t, s.serial t + 1))
    (hshell : ∀ t r, s.point t = .creatingShell r → id ≠ (t, s.serial t))
    {create : CreateShellSession F} {ptyMaster : F} (hs : Started s id create ptyMaster) :
    Started s' id create ptyMaster := by
  cases h with
  | @request t create' pkt hpoint h =>
      exact ⟨(Function.update_of_ne (hrequest t hpoint) ..).trans hs.1, hs.2⟩
  | @createShell t r ptyMaster' hpoint =>
      exact ⟨hs.1, (Function.update_of_ne (hshell t r hpoint) ..).trans hs.2⟩
  | _ => exact hs

theorem Step.conn_owner (h : Step setup s a s') {k : Nat} {conn : PtyConn ι F}
    (hconn : s.conns[k]? = some conn) :
    ∃ conn', s'.conns[k]? = some conn' ∧ conn'.owner = conn.owner := by
  have howner : s.owners[k]? = some conn.owner := by simp [State.owners, hconn]
  have howner' : s'.owners[k]? = some conn.owner := by
    rcases h.owners with hsame | ⟨t, r, ptyMaster, -, rfl⟩
    · rw [hsame, howner]
    · have hsnoc : (s.connect t r ptyMaster).owners = s.owners ++ [(t, s.serial t)] :=
        List.map_append
      rw [hsnoc]
      exact getElem?_append_of_some howner
  rw [State.owners, List.getElem?_map] at howner'
  exact Option.map_eq_some_iff.1 howner'

/-! ## Stored sessions -/

def AllReady (s : State ι F) : Prop :=
  ∀ (k : Nat) (entry : Entry ι F), s.entries[k]? = some entry →
    entry.session.value = .creating ∨ entry.Ready s

theorem Step.ready (hinv : Inv setup s) (h : Step setup s a s') {k : Nat} {entry entry' : Entry ι F}
    (hentry : s.entries[k]? = some entry) (howner : entry'.owner = entry.owner)
    (hvalue : entry'.session.value = entry.session.value) (hready : entry.Ready s) :
    entry'.Ready s' := by
  obtain ⟨create, ptyMaster, ptyConn, sent, hstored, hstarted, conn, hconn, hconnOwner, -⟩ := hready
  obtain ⟨conn', hconn', hsame⟩ := h.conn_owner hconn
  have hstarted' : Started s' entry.owner create ptyMaster := by
    refine h.started (fun t hpoint hnew => ?_) (fun t r hpoint hown => ?_) hstarted
    · have hmem : (entry.owner, entry.sessionId) ∈ s.reservations :=
        List.mem_map_of_mem (List.mem_of_getElem? hentry)
      have hlt := hinv.reservations_lt _ hmem
      simp [hnew, State.next, hpoint, Point.unreserved] at hlt
    · obtain ⟨-, mine, hmine, hmineOwner, -, hcreating⟩ := hinv.knows_at hpoint
      obtain rfl := hinv.entry_of_owner hentry hmine (hown.trans hmineOwner.symm)
      obtain rfl := Option.some.inj (hentry.symm.trans hmine)
      rw [hcreating] at hstored
      cases hstored
  rw [← howner] at hstarted' hconnOwner
  exact ⟨create, ptyMaster, ptyConn, _, hvalue.trans hstored, hstarted', conn', hconn',
    hsame.trans hconnOwner, rfl⟩

theorem step_allReady (hinv : Inv setup s) (h : Step setup s a s') (hready : AllReady s) :
    AllReady s' := by
  intro k entry' hentry'
  rcases h.entry_origin hentry' with ⟨entry, hentry⟩ | ⟨t, create, sessionId, -, -, -, rfl⟩
  · obtain ⟨entry'', hentry'', hnext⟩ := h.entry hinv hentry
    obtain rfl := Option.some.inj (hentry'.symm.trans hentry'')
    rcases hnext.value with hsame | ⟨-, hstored, -⟩
    · rcases hready k entry hentry with hcreating | hstored
      · exact .inl (hsame.trans hcreating)
      · exact .inr (h.ready hinv hentry hnext.owner hsame hstored)
    · exact .inr hstored
  · exact .inl rfl

/-! ## Panics that do not happen -/

def NoPanic (p : Point F) : Prop :=
  p ≠ .panicked .stolen ∧ p ≠ .panicked .sessionsPoisoned ∧ p ≠ .panicked .sessionPoisoned

theorem Step.noPanic (hinv : Inv setup s) (h : Step setup s a s') (ht : a.thread = some t) :
    NoPanic (s'.point t) := by
  cases h with
  | @move _ u p ha h =>
      obtain rfl : u = t := Option.some.inj (ha.symm.trans ht)
      rw [State.goto_point]
      generalize s.point u = q at h
      cases h <;> exact ⟨nofun, nofun, nofun⟩
  | @panic _ u e ha h =>
      obtain rfl : u = t := Option.some.inj (ha.symm.trans ht)
      rw [State.panic_point]
      generalize s.point u = q at h
      cases h with
      | sessionsPoisoned create hpoisoned =>
          rw [hinv.sessions_unpoisoned] at hpoisoned
          cases hpoisoned
      | sessionPoisoned b entry hentry hpoisoned =>
          rw [hinv.entries_unpoisoned entry (List.mem_of_getElem? hentry)] at hpoisoned
          cases hpoisoned
      | _ => exact ⟨nofun, nofun, nofun⟩
  | @send u k m p h =>
      obtain rfl : u = t := Option.some.inj ht
      rw [State.send_point]
      generalize s.point u = q at h
      cases h <;> exact ⟨nofun, nofun, nofun⟩
  | @stolen u b entry hpoint hentry hvalue =>
      exact absurd (hinv.storing hpoint hentry).2 hvalue
  | pty hconn h => cases ht
  | _ =>
      obtain rfl := Option.some.inj ht
      simp [NoPanic]

theorem step_noPanic (hinv : Inv setup s) (h : Step setup s a s')
    (hpanic : ∀ t, NoPanic (s.point t)) (t : ι) : NoPanic (s'.point t) := by
  by_cases ht : a.thread = some t
  · exact h.noPanic hinv ht
  · rw [(h.frame hinv ht).point]
    exact hpanic t

/-! ## Runs -/

/-- What every step preserves. -/
structure Good (setup : Setup F) (s : State ι F) : Prop where
  inv : Inv setup s
  ready : AllReady s
  noPanic : ∀ t, NoPanic (s.point t)

theorem step_good (h : step setup s a = some s') (hgood : Good setup s) : Good setup s' where
  inv := step_inv hgood.inv (step_spec h)
  ready := step_allReady hgood.inv (step_spec h) hgood.ready
  noPanic := step_noPanic hgood.inv (step_spec h) hgood.noPanic

theorem run_good {actions : List (Action ι F)} (h : run (step setup) actions start = some s) :
    Good setup s := by
  have hready : AllReady (start : State ι F) := fun k entry hentry => by simp [start] at hentry
  exact run_invariant (fun _ _ _ => step_good) h
    ⟨start_inv, hready, fun t => by simp [NoPanic, start]⟩

omit [DecidableEq ι] in
theorem Good.intact (hgood : Good setup s) : Intact s where
  refers id k hk := by
    obtain ⟨owner, howner⟩ := (hgood.inv.sessions id k).1 hk
    rw [State.reservations, List.getElem?_map] at howner
    obtain ⟨entry, hentry, hsame⟩ := Option.map_eq_some_iff.1 howner
    exact ⟨entry, hentry, congrArg Prod.snd hsame⟩
  distinct i j entry entry' hentry hentry' hsame := by
    rcases hsame with hid | howner
    · have hi := hgood.inv.sessions_entry hentry
      rw [hid, hgood.inv.sessions_entry hentry'] at hi
      exact (Option.some.inj hi).symm
    · exact hgood.inv.entry_of_owner hentry hentry' howner
  holds t r hr := by
    obtain ⟨-, entry, hentry, howner, hid, -⟩ := hgood.inv.reserved hr
    exact ⟨hid ▸ hgood.inv.sessions_entry hentry, entry, hentry, howner, hid⟩
  holders t u r r' hr hr' hid := by
    obtain ⟨-, entry, hentry, howner, hentryId, -⟩ := hgood.inv.reserved hr
    obtain ⟨-, entry', hentry', howner', hentryId', -⟩ := hgood.inv.reserved hr'
    have hk := hgood.inv.sessions_entry hentry
    rw [hentryId, hid, ← hentryId', hgood.inv.sessions_entry hentry'] at hk
    rw [Option.some.inj hk, hentry] at hentry'
    obtain rfl := Option.some.inj hentry'
    exact congrArg Prod.fst (howner.symm.trans howner')
  ready := hgood.ready
  sessions_unpoisoned := hgood.inv.sessions_unpoisoned
  entries_unpoisoned := hgood.inv.entries_unpoisoned
  no_panic := hgood.noPanic

omit [DecidableEq ι] in
theorem Evolves.refl (s : State ι F) : Evolves s s :=
  ⟨fun _ _ h => h, fun _ entry hentry => ⟨entry, hentry, rfl, rfl, .inl rfl⟩⟩

theorem Evolves.step {s'' : State ι F} (hgood : Good setup s') (h : step setup s' a = some s'')
    (hevolves : Evolves s s') : Evolves s s'' where
  sessions id k hk := by
    obtain ⟨owner, howner⟩ := (hgood.inv.sessions id k).1 (hevolves.sessions id k hk)
    refine ((step_good h hgood).inv.sessions id k).2 ⟨owner, ?_⟩
    rcases (step_spec h).reservations with ⟨hsame, -⟩ | ⟨t, create, sessionId, -, rfl⟩
    · rw [hsame, howner]
    · have hsnoc : (s'.insert t create sessionId).reservations =
          s'.reservations ++ [((t, s'.serial t), sessionId)] := List.map_append
      rw [hsnoc]
      exact getElem?_append_of_some howner
  entries k entry hentry := by
    obtain ⟨entry', hentry', howner, hid, hvalue⟩ := hevolves.entries k entry hentry
    obtain ⟨entry'', hentry'', hnext⟩ := (step_spec h).entry hgood.inv hentry'
    refine ⟨entry'', hentry'', hnext.owner.trans howner, hnext.sessionId.trans hid, ?_⟩
    rcases hnext.value with hsame | ⟨hcreating, hready, -⟩
    · rcases hvalue with hvalue | ⟨hcreating, hready⟩
      · exact .inl (hsame.trans hvalue)
      · exact .inr ⟨hcreating, (step_spec h).ready hgood.inv hentry' hnext.owner hsame hready⟩
    · rcases hvalue with hvalue | ⟨hwas, -⟩
      · exact .inr ⟨hvalue ▸ hcreating, hready⟩
      · exact .inr ⟨hwas, hready⟩

theorem run_evolves {later : List (Action ι F)} (hgood : Good setup s)
    (h : run (step setup) later s = some s') : Good setup s' ∧ Evolves s s' :=
  run_invariant (I := fun s' => Good setup s' ∧ Evolves s s')
    (fun _ _ _ hstep hs => ⟨step_good hstep hs.1, hs.2.step hs.1 hstep⟩) h ⟨hgood, .refl s⟩

/-- In every reachable state the map and its entries are intact; every later state
has all of its entries, each as it was or stored with its own PTY and connection
to the pty service; and it is its own request that stores a session. -/
theorem sessions_integrity (setup : Setup F) (actions : List (Action ι F)) (s : State ι F)
    (h : run (step setup) actions start = some s) :
    Intact s ∧
      (∀ later s', run (step setup) later s = some s' → Evolves s s') ∧
      ∀ a s', step setup s a = some s' → ∀ (k : Nat) (entry entry' : Entry ι F),
        s.entries[k]? = some entry → s'.entries[k]? = some entry' →
          entry'.session.value ≠ entry.session.value →
            ∃ t, a = .store t ∧ entry.owner = (t, s.serial t) := by
  have hgood := run_good h
  refine ⟨hgood.intact, fun later s' hlater => (run_evolves hgood hlater).2, ?_⟩
  intro a s' hstep k entry entry' hentry hentry' hchanged
  obtain ⟨entry'', hentry'', hnext⟩ := (step_spec hstep).entry hgood.inv hentry
  obtain rfl := Option.some.inj (hentry'.symm.trans hentry'')
  rcases hnext.value with hsame | ⟨-, -, hstored⟩
  · exact absurd hsame hchanged
  · exact hstored

end Steps

theorem sessions_integrity_test : ∃ (s s' : State Unit Nat) (entry entry' : Entry Unit Nat),
    run (step testSetup) (testReserving ++ testConnecting) start = some s ∧ Intact s ∧
      step testSetup s (.store ()) = some s' ∧ Evolves s s' ∧
        s.entries[0]? = some entry ∧ entry.session.value = .creating ∧
          s'.entries[0]? = some entry' ∧ entry'.session.value = .ready 5 0 ∧
            entry.owner.1 = () ∧ entry.owner.2 = s.serial () := by
  obtain ⟨s, s', -, entry, entry', -, hrun, hstep, -, hentry, hvalue, hentry', hvalue', -⟩ := testRun
  obtain ⟨hintact, hlater, howner⟩ := sessions_integrity testSetup _ s hrun
  have hevolves := hlater [.store ()] s' (run_cons_eq_some.2 ⟨s', hstep, rfl⟩)
  have hchanged : entry'.session.value ≠ entry.session.value := by
    rw [hvalue, hvalue']
    nofun
  obtain ⟨t, -, howned⟩ := howner _ s' hstep 0 entry entry' hentry hentry' hchanged
  exact ⟨s, s', entry, entry', hrun, hintact, hstep, hevolves, hentry, hvalue, hentry', hvalue', rfl,
    congrArg Prod.snd howned⟩

end TereServer.Services.Sessions
