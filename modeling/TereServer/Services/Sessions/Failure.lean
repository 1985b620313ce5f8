import TereServer.Services.Sessions.Integrity

/-!
# What a failed request leaves behind

A session that was not stored belongs to a request that a thread is still
serving, or whose thread has panicked; nothing removes the entry of the latter.
-/

namespace TereServer.Services.Sessions

open Lib Bincode Ipc Proto.Sessions

section Steps

variable {ι F : Type} [DecidableEq ι] {setup : Setup F} {s s' : State ι F} {a : Action ι F}
  {t : ι}

/-- Every entry that was not stored belongs to a request that is still served. -/
def CreatingServed (s : State ι F) : Prop :=
  ∀ (id : SessionId) (k : Nat) (entry : Entry ι F), s.sessions.value id = some k →
    s.entries[k]? = some entry → entry.session.value = .creating → Processing s k entry.owner

/-- The same, of a request that is still served or has failed. -/
def CreatingOwned (s : State ι F) : Prop :=
  ∀ (k : Nat) (entry : Entry ι F), s.entries[k]? = some entry →
    entry.session.value = .creating → Processing s k entry.owner ∨ Failed s entry.owner

omit [DecidableEq ι] in
theorem Moves.reservation {p p' : Point F} {r : Reservation F} (h : Moves s p p')
    (hr : p.reservation = some r) : p'.reservation = some r := by
  cases h with
  | printedId r' => exact hr
  | _ => cases hr

omit [DecidableEq ι] in
theorem Panics.beforeReady {p : Point F} {e : Panic} {r : Reservation F} (hinv : Inv setup s)
    (h : Panics s p e) (hr : p.reservation = some r) : e.beforeReady = true := by
  cases h with
  | printRequest create => cases hr
  | sessionsPoisoned create h => cases hr
  | sessionPoisoned b entry hentry hpoisoned =>
      rw [hinv.entries_unpoisoned entry (List.mem_of_getElem? hentry)] at hpoisoned
      cases hpoisoned
  | sendNewClient create k e => cases hr
  | _ => rfl

omit [DecidableEq ι] in
theorem Sends.reservation {p p' : Point F} {k : Nat} {m : Sent F} {r : Reservation F}
    (h : Sends setup p k m p') (hr : p.reservation = some r) : p'.reservation = some r := by
  cases h with
  | newClient create k => cases hr
  | _ => exact hr

/-- A thread on the way to store a session stays on it, panics or stores it. -/
theorem Step.reservation (hinv : Inv setup s) (h : Step setup s a s') (ht : a.thread = some t)
    {r : Reservation F} (hr : (s.point t).reservation = some r) :
    s'.serial t = s.serial t ∧
      ((s'.point t).reservation = some r ∨
        (∃ e, s'.point t = .panicked e ∧ e.beforeReady = true) ∨
        ∃ entry, s'.entries[r.sessionEntry]? = some entry ∧ entry.session.value ≠ .creating) := by
  cases h with
  | @move _ u p ha h =>
      obtain rfl : u = t := Option.some.inj (ha.symm.trans ht)
      rw [State.goto_point]
      exact ⟨rfl, .inl (h.reservation hr)⟩
  | @panic _ u e ha h =>
      obtain rfl : u = t := Option.some.inj (ha.symm.trans ht)
      rw [State.panic_point]
      exact ⟨rfl, .inr (.inl ⟨e, rfl, h.beforeReady hinv hr⟩)⟩
  | @createShell u r' ptyMaster hpoint =>
      obtain rfl : u = t := Option.some.inj ht
      rw [hpoint] at hr
      rw [State.createShell_point]
      exact ⟨rfl, .inl hr⟩
  | @connect u r' ptyMaster hpoint =>
      obtain rfl : u = t := Option.some.inj ht
      rw [hpoint] at hr
      rw [State.connect_point]
      exact ⟨rfl, .inl hr⟩
  | @send u k m p h =>
      obtain rfl : u = t := Option.some.inj ht
      rw [State.send_point]
      exact ⟨rfl, .inl (h.reservation hr)⟩
  | @accept u b hpoint =>
      obtain rfl : u = t := Option.some.inj ht
      rw [hpoint] at hr
      rw [State.goto_point]
      exact ⟨rfl, .inl hr⟩
  | @refuse u b e hpoint =>
      obtain rfl : u = t := Option.some.inj ht
      rw [State.panic_point]
      exact ⟨rfl, .inr (.inl ⟨_, rfl, rfl⟩)⟩
  | @lockEntry u b entry hpoint hentry =>
      obtain rfl : u = t := Option.some.inj ht
      rw [hpoint] at hr
      rw [State.goto_point]
      exact ⟨rfl, .inl hr⟩
  | @store u b entry hpoint hentry hvalue =>
      obtain rfl : u = t := Option.some.inj ht
      rw [hpoint] at hr
      cases hr
      refine ⟨rfl, .inr (.inr ⟨_, getElem?_modify_of_some hentry, ?_⟩)⟩
      rw [if_pos rfl]
      nofun
  | @stolen u b entry hpoint hentry hvalue =>
      obtain rfl : u = t := Option.some.inj ht
      rw [hpoint] at hr
      cases hr
      refine ⟨rfl, .inr (.inr ⟨_, getElem?_modify_of_some hentry, ?_⟩)⟩
      rw [if_pos rfl]
      exact hvalue
  | pty hconn h => cases ht
  | @request u create pkt hpoint h =>
      obtain rfl : u = t := Option.some.inj ht
      rw [hpoint] at hr
      cases hr
  | @lockSessions u create hpoint hfree =>
      obtain rfl : u = t := Option.some.inj ht
      rw [hpoint] at hr
      cases hr
  | @insert u create sessionId hpoint =>
      obtain rfl : u = t := Option.some.inj ht
      rw [hpoint] at hr
      cases hr

/-- A thread that has panicked takes no step. -/
theorem Step.not_panicked (h : Step setup s a s') (ht : a.thread = some t) (e : Panic) :
    s.point t ≠ .panicked e := by
  intro hpanicked
  cases h with
  | @move _ u p ha h =>
      obtain rfl : u = t := Option.some.inj (ha.symm.trans ht)
      rw [hpanicked] at h
      cases h
  | @panic _ u e ha h =>
      obtain rfl : u = t := Option.some.inj (ha.symm.trans ht)
      rw [hpanicked] at h
      cases h
  | @send u k m p h =>
      obtain rfl : u = t := Option.some.inj ht
      rw [hpanicked] at h
      cases h
  | pty hconn h => cases ht
  | _ =>
      obtain rfl := Option.some.inj ht
      simp_all

theorem step_failed (hinv : Inv setup s) (h : Step setup s a s') {id : RequestId ι}
    (hfailed : Failed s id) : Failed s' id := by
  obtain ⟨hserial, e, hpoint, he⟩ := hfailed
  have hframe := h.frame hinv (u := id.1) fun ht => h.not_panicked ht e hpoint
  exact ⟨hframe.serial.trans hserial, e, hframe.point.trans hpoint, he⟩

theorem step_creatingOwned (hinv : Inv setup s) (h : Step setup s a s') (howned : CreatingOwned s) :
    CreatingOwned s' := by
  intro k entry' hentry' hcreating'
  rcases h.entry_origin hentry' with ⟨entry, hentry⟩ | ⟨t, create, sessionId, -, rfl, rfl, rfl⟩
  · obtain ⟨entry'', hentry'', hnext⟩ := h.entry hinv hentry
    obtain rfl := Option.some.inj (hentry'.symm.trans hentry'')
    rw [hnext.owner]
    rcases hnext.value with hsame | ⟨-, ⟨create, ptyMaster, ptyConn, sent, hready, -⟩, -⟩
    · rcases howned k entry hentry (hsame.symm.trans hcreating') with ⟨hserial, r, hr, rfl⟩ | hfailed
      · by_cases ht : a.thread = some entry.owner.1
        · obtain ⟨hserial', hstays | ⟨e, hpanicked, he⟩ | ⟨stored, hstored, hvalue⟩⟩ :=
            h.reservation hinv ht hr
          · exact .inl ⟨hserial'.trans hserial, r, hstays, rfl⟩
          · exact .inr ⟨hserial'.trans hserial, e, hpanicked, he⟩
          · obtain rfl := Option.some.inj (hentry'.symm.trans hstored)
            exact absurd hcreating' hvalue
        · have hframe := h.frame hinv ht
          exact .inl ⟨hframe.serial.trans hserial, r, by rw [hframe.point]; exact hr, rfl⟩
      · exact .inr (step_failed hinv h hfailed)
    · rw [hready] at hcreating'
      cases hcreating'
  · refine .inl ⟨rfl, ⟨create, sessionId, s.entries.length⟩, ?_, rfl⟩
    rw [State.insert_point]
    rfl

omit [DecidableEq ι] in
/-- The entry of a request that has failed. -/
theorem Failed.abandoned {id : RequestId ι} (hinv : Inv setup s) (hfailed : Failed s id) :
    Abandoned s id := by
  obtain ⟨hserial, e, hpoint, he⟩ := hfailed
  have hknows := hinv.knows_at hpoint
  rw [hserial] at hknows
  exact hknows he

theorem run_creatingOwned {actions : List (Action ι F)}
    (h : run (step setup) actions start = some s) : CreatingOwned s := by
  have hstart : CreatingOwned (start : State ι F) := fun k entry hentry => by simp [start] at hentry
  have hboth : Inv setup s ∧ CreatingOwned s :=
    run_invariant (I := fun s => Inv setup s ∧ CreatingOwned s)
      (fun _ _ _ hstep hs => ⟨step_inv hs.1 (step_spec hstep),
        step_creatingOwned hs.1 (step_spec hstep) hs.2⟩) h ⟨start_inv, hstart⟩
  exact hboth.2

/-- In every reachable state an entry that was not stored belongs to a request that
is still served, or whose thread has panicked on the way; and the entry of the
latter is in the map, as it was inserted, in every later state. -/
theorem creating_served_or_failed (setup : Setup F) (actions : List (Action ι F)) (s : State ι F)
    (h : run (step setup) actions start = some s) :
    (∀ (id : SessionId) (k : Nat) (entry : Entry ι F), s.sessions.value id = some k →
      s.entries[k]? = some entry → entry.session.value = .creating →
        Processing s k entry.owner ∨ Failed s entry.owner) ∧
    ∀ owner, Failed s owner → ∃ (k : Nat) (entry : Entry ι F), s.entries[k]? = some entry ∧
      entry.owner = owner ∧ ∀ later s', run (step setup) later s = some s' →
        s'.sessions.value entry.sessionId = some k ∧
          ∃ entry', s'.entries[k]? = some entry' ∧ entry'.owner = owner ∧
            entry'.session.value = .creating := by
  refine ⟨fun id k entry _ => run_creatingOwned h k entry, fun owner hfailed => ?_⟩
  have hgood := run_good h
  obtain ⟨k, entry, hentry, howner, -⟩ := hfailed.abandoned hgood.inv
  refine ⟨k, entry, hentry, howner, fun later s' hlater => ?_⟩
  obtain ⟨hgood', hevolves⟩ := run_evolves hgood hlater
  have hboth : Good setup s' ∧ Failed s' owner :=
    run_invariant (I := fun s => Good setup s ∧ Failed s owner)
      (fun _ _ _ hstep hs => ⟨step_good hstep hs.1,
        step_failed hs.1.inv (step_spec hstep) hs.2⟩) hlater ⟨hgood, hfailed⟩
  obtain ⟨j, left, hleft, hleftOwner, hcreating⟩ := hboth.2.abandoned hgood'.inv
  obtain ⟨entry', hentry', howner', -, -⟩ := hevolves.entries k entry hentry
  obtain rfl := hgood'.inv.entry_of_owner hentry' hleft
    (howner'.trans (howner.trans hleftOwner.symm))
  exact ⟨hevolves.sessions _ _ (hgood.inv.sessions_entry hentry), left, hleft, hleftOwner, hcreating⟩

end Steps

/-! ## A shell that cannot be created -/

theorem testFailure : ∃ s entry,
    run (step testSetup) (testReserving ++ [.createShell () none]) start = some s ∧
    s.point () = .panicked .createShell ∧ s.serial () = 1 ∧ s.sessions.value testId = some 0 ∧
    s.entries[0]? = some entry ∧ entry.owner = ((), 1) ∧ entry.session.value = .creating :=
  ⟨_, _,
    run_append_eq_some.2 ⟨_,
      run_cons_eq_some.2 ⟨_, step_accepted rfl testClient_accepted,
      run_cons_eq_some.2 ⟨_, rfl,
      run_cons_eq_some.2 ⟨_, step_requested rfl testRequest_received, rfl⟩⟩⟩, rfl⟩,
    rfl, rfl, rfl, rfl, rfl, rfl⟩

theorem creating_served_or_failed_test : ∃ (s : State Unit Nat) (k : Nat) (entry : Entry Unit Nat),
    run (step testSetup) (testReserving ++ [.createShell () none]) start = some s ∧
      Failed s ((), 1) ∧ s.entries[k]? = some entry ∧ entry.owner = ((), 1) ∧
        s.sessions.value entry.sessionId = some k := by
  obtain ⟨s, -, hrun, hpoint, hserial, -⟩ := testFailure
  have hfailed : Failed s ((), 1) := ⟨hserial, _, hpoint, rfl⟩
  obtain ⟨k, entry, hentry, howner, hlater⟩ :=
    (creating_served_or_failed testSetup _ s hrun).2 ((), 1) hfailed
  exact ⟨s, k, entry, hrun, hfailed, hentry, howner, (hlater [] s rfl).1⟩

theorem failed_shell_leaves_entry :
    ¬ ∀ (actions : List (Action Unit Nat)) (s : State Unit Nat),
      run (step testSetup) actions start = some s → CreatingServed s := by
  intro hclaim
  obtain ⟨s, entry, hrun, hpoint, -, hsessions, hentry, -, hvalue⟩ := testFailure
  obtain ⟨-, r, hr, -⟩ := hclaim _ s hrun testId 0 entry hsessions hentry hvalue
  rw [hpoint] at hr
  cases hr

end TereServer.Services.Sessions
