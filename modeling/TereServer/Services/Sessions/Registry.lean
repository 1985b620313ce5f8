import TereServer.Lib.Refinement
import TereServer.Lib.Registry
import TereServer.Services.Sessions.Failure
import TereServer.Services.Sessions.Liveness
import TereServer.Services.Sessions.Shells
import TereServer.Services.Sessions.Versions

/-!
# The map of sessions as a registry

What the map and the mutexes around it and its entries amount to: a registry in which
the threads register the ids they draw and complete each registration with a PTY.  An
`insert` and a `store` are the steps of it, and all other steps are none.
-/

namespace TereServer.Services.Sessions

open Lib Bincode Ipc Proto.Sessions

section Definitions

variable {ι F : Type}

def Session.ptyMaster : Session F → Option F
  | .creating => none
  | .ready ptyMaster _ => some ptyMaster

def Entry.registration (entry : Entry ι F) : Registration SessionId ι F where
  key := entry.sessionId
  client := entry.owner.1
  number := entry.owner.2
  value := entry.session.value.ptyMaster

namespace State

def registrations (s : State ι F) : List (Registration SessionId ι F) :=
  s.entries.map Entry.registration

/-- What a lookup in the map finds. -/
def find (s : State ι F) (id : SessionId) : Option (Registration SessionId ι F) :=
  (s.sessions.value id).bind fun k => s.entries[k]?.map Entry.registration

end State

def event (s : State ι F) : Action ι F → Option (Registry.Event SessionId ι F)
  | .insert t =>
      match s.point t with
      | .inserting _ sessionId => some (.reserve sessionId t)
      | _ => none
  | .store t =>
      match s.point t with
      | .storing a => some (.complete a.sessionId a.ptyMaster)
      | _ => none
  | _ => none

/-- The map and a registry hold the same. -/
structure Shows [DecidableEq ι] (s : State ι F) (registry : Registry SessionId ι F) : Prop where
  registrations : s.registrations = registry.registrations
  find : ∀ id, s.find id = registry.find id

/-- The invariants that the steps of the registry rest on. -/
structure Sound (setup : Setup F) (s : State ι F) : Prop where
  completes : Completes setup s
  exclusive : Exclusive s
  owned : CreatingOwned s

end Definitions

section Steps

variable {ι F : Type} [DecidableEq ι] {setup : Setup F} {s s' : State ι F} {a : Action ι F}
  {t : ι} {registry : Registry SessionId ι F}

theorem step_sound (h : step setup s a = some s') (hs : Sound setup s) : Sound setup s' where
  completes := step_completes h hs.completes
  exclusive := step_exclusive hs.completes.good.inv (step_spec h) hs.exclusive
  owned := step_creatingOwned hs.completes.good.inv (step_spec h) hs.owned

theorem start_sound : Sound setup (start : State ι F) where
  completes := run_completes (run_nil _)
  exclusive := start_exclusive
  owned := by
    have h : run (step setup) [] (start : State ι F) = some start := rfl
    exact run_creatingOwned h

/-! ## Lookups -/

omit [DecidableEq ι] in
theorem Inv.find_eq (hinv : Inv setup s) (id : SessionId) :
    s.find id = s.registrations.find? fun r => r.key = id := by
  cases hfind : s.registrations.find? fun r => r.key = id with
  | none =>
      cases hk : s.sessions.value id with
      | none => simp [State.find, hk]
      | some k =>
          obtain ⟨owner, howner⟩ := (hinv.sessions id k).1 hk
          rw [State.reservations, List.getElem?_map] at howner
          obtain ⟨entry, hentry, hsame⟩ := Option.map_eq_some_iff.1 howner
          have hmem : entry.registration ∈ s.registrations :=
            List.mem_map_of_mem (List.mem_of_getElem? hentry)
          have hother := List.find?_eq_none.1 hfind _ hmem
          have hid : entry.sessionId = id := congrArg Prod.snd hsame
          exact absurd (decide_eq_true hid) hother
  | some r =>
      obtain ⟨entry, hentry, rfl⟩ := List.mem_map.1 (List.mem_of_find?_eq_some hfind)
      have hkey := List.find?_some hfind
      have hid : entry.sessionId = id := of_decide_eq_true hkey
      obtain ⟨k, hk⟩ := List.mem_iff_getElem?.1 hentry
      have hvalue := hinv.sessions_entry hk
      rw [hid] at hvalue
      simp [State.find, hvalue, hk]

theorem Inv.shows (hinv : Inv setup s) (h : s.registrations = registry.registrations) :
    Shows s registry where
  registrations := h
  find id := by
    rw [hinv.find_eq id, h]
    rfl

/-! ## The steps of the registry -/

omit [DecidableEq ι] in
theorem event_eq_none (ha : a.thread = some t)
    (hinserting : ∀ create sessionId, s.point t ≠ .inserting create sessionId)
    (hstoring : ∀ b, s.point t ≠ .storing b) : event s a = none := by
  cases a with
  | insert u =>
      obtain rfl : u = t := Option.some.inj ha
      cases hpoint : s.point u with
      | inserting create sessionId => exact absurd hpoint (hinserting create sessionId)
      | _ => simp [event, hpoint]
  | store u =>
      obtain rfl : u = t := Option.some.inj ha
      cases hpoint : s.point u with
      | storing b => exact absurd hpoint (hstoring b)
      | _ => simp [event, hpoint]
  | _ => rfl

omit [DecidableEq ι] in
theorem registrations_setSession {k : Nat} {session : Mutex ι (Session F)}
    (h : ∀ entry, s.entries[k]? = some entry → session.value = entry.session.value) :
    (s.setSession k session).registrations = s.registrations := by
  apply map_modify_of_eq
  intro entry hentry
  unfold Entry.registration Entry.withSession
  rw [h entry hentry]

/-- What the steps do to the registrations. -/
theorem Step.registers (hinv : Inv setup s) (h : Step setup s a s') :
    event s a = none ∧ s'.registrations = s.registrations ∨
      (∃ t create sessionId, s.point t = .inserting create sessionId ∧
        event s a = some (.reserve sessionId t) ∧ s' = s.insert t create sessionId) ∨
      ∃ t b entry, s.point t = .storing b ∧ s.entries[b.sessionEntry]? = some entry ∧
        event s a = some (.complete b.sessionId b.ptyMaster) ∧
        s'.entries = s.entries.modify b.sessionEntry
          (.withSession (entry.session.release (.ready b.ptyMaster b.ptyConn))) := by
  cases h with
  | @move _ t p ha h =>
      refine .inl ⟨event_eq_none ha ?_ ?_, rfl⟩
      · intro create sessionId hpoint
        rw [hpoint] at h
        cases h
      · intro b hpoint
        rw [hpoint] at h
        cases h
  | @panic _ t e ha h =>
      refine .inl ⟨event_eq_none ha ?_ ?_, rfl⟩
      · intro create sessionId hpoint
        rw [hpoint] at h
        cases h
      · intro b hpoint
        rw [hpoint] at h
        cases h
  | @insert t create sessionId hpoint =>
      exact .inr (.inl ⟨t, create, sessionId, hpoint, by simp [event, hpoint], rfl⟩)
  | @lockEntry t b entry hpoint hentry =>
      refine .inl ⟨rfl, registrations_setSession fun entry' hentry' => ?_⟩
      obtain rfl := Option.some.inj (hentry.symm.trans hentry')
      rfl
  | @store t b entry hpoint hentry hvalue =>
      exact .inr (.inr ⟨t, b, entry, hpoint, hentry, by simp [event, hpoint], rfl⟩)
  | @stolen t b entry hpoint hentry hvalue =>
      exact absurd (hinv.storing hpoint hentry).2 hvalue
  | _ => exact .inl ⟨rfl, rfl⟩

omit [DecidableEq ι] in
/-- A thread that inserts an entry has stored all its sessions. -/
theorem Sound.stored_before (hs : Sound setup s) {create : CreateShellSession F}
    {sessionId : SessionId} (hpoint : s.point t = .inserting create sessionId)
    {entry : Entry ι F} (hentry : entry ∈ s.entries) (howner : entry.owner.1 = t) :
    entry.session.value.ptyMaster.isSome = true := by
  obtain ⟨k, hk⟩ := List.mem_iff_getElem?.1 hentry
  cases hvalue : entry.session.value with
  | ready ptyMaster conn => rfl
  | creating =>
      rcases hs.owned k entry hk hvalue with ⟨-, r, hr, -⟩ | ⟨-, e, hpanicked, -⟩
      · rw [howner, hpoint] at hr
        cases hr
      · rw [howner, hpoint] at hpanicked
        cases hpanicked

/-- The requests of a thread before the one it inserts an entry for have the entries that
it has inserted. -/
theorem Sound.numbered (hs : Sound setup s) {create : CreateShellSession F}
    {sessionId : SessionId} (hpoint : s.point t = .inserting create sessionId)
    (hR : s.registrations = registry.registrations) :
    s.serial t = registeredBy t registry.registrations + 1 := by
  have hinv := hs.completes.good.inv
  have hnumbers (n : Nat) : (∃ r ∈ registry.registrations, r.client = t ∧ r.number = n) ↔
      1 ≤ n ∧ n ≤ registeredBy t registry.registrations := registry.justified.exists_number_iff
  rw [← hR] at hnumbers ⊢
  have hone : 1 ≤ s.serial t := by
    apply hs.exclusive.one_le_serial
    rw [hpoint]
    rfl
  have hbelow {n : Nat} (hn : 1 ≤ n ∧ n ≤ registeredBy t s.registrations) : n < s.serial t := by
    obtain ⟨r, hr, hclient, hnumber⟩ := (hnumbers n).2 hn
    obtain ⟨entry, hentry, rfl⟩ := List.mem_map.1 hr
    have hlt := hinv.reservations_lt (entry.owner, entry.sessionId) (List.mem_map_of_mem hentry)
    have howner : entry.owner.1 = t := hclient
    simp only [State.next, howner, hpoint, Point.unreserved, if_true] at hlt
    exact hnumber ▸ hlt
  have habove {n : Nat} (hn : 1 ≤ n) (hlt : n < s.serial t) :
      n ≤ registeredBy t s.registrations := by
    obtain ⟨-, -, -, -, ⟨k, entry, hentry, howner, -⟩, -⟩ := hs.completes.completed.before t n hn hlt
    have hmem : entry.registration ∈ s.registrations :=
      List.mem_map_of_mem (List.mem_of_getElem? hentry)
    exact ((hnumbers n).1 ⟨_, hmem, congrArg Prod.fst howner, congrArg Prod.snd howner⟩).2
  by_contra hne
  by_cases hlt : registeredBy t s.registrations + 1 < s.serial t
  · have hle := habove (Nat.le_add_left 1 _) hlt
    omega
  · have hself := hbelow ⟨hone, by omega⟩
    exact Nat.lt_irrefl _ hself

theorem insert_simulates (hs : Sound setup s) (hR : s.registrations = registry.registrations)
    {create : CreateShellSession F} {sessionId : SessionId}
    (hpoint : s.point t = .inserting create sessionId) :
    ∃ registry' : Registry SessionId ι F, registry.step (.reserve sessionId t) = some registry' ∧
      (s.insert t create sessionId).registrations = registry'.registrations := by
  have hinv := hs.completes.good.inv
  have hadmits : registry.Admits sessionId t := by
    rw [Registry.Admits, ← hR]
    constructor
    · intro hmem
      obtain ⟨r, hr, hkey⟩ := List.mem_map.1 hmem
      obtain ⟨entry, hentry, rfl⟩ := List.mem_map.1 hr
      obtain ⟨k, hk⟩ := List.mem_iff_getElem?.1 hentry
      have hvalue := hinv.sessions_entry hk
      have hid : entry.sessionId = sessionId := hkey
      rw [hid, (hinv.knows_at hpoint).2] at hvalue
      cases hvalue
    · intro r hr hclient
      obtain ⟨entry, hentry, rfl⟩ := List.mem_map.1 hr
      exact hs.stored_before hpoint hentry hclient
  refine ⟨_, Registry.step_reserve_eq_some.2 ⟨hadmits, rfl⟩, ?_⟩
  have hsnoc : (s.insert t create sessionId).registrations =
      s.registrations ++ [⟨sessionId, t, s.serial t, none⟩] := List.map_append
  rw [hsnoc, hR, hs.numbered hpoint hR]
  rfl

theorem store_simulates (hinv : Inv setup s) (hR : s.registrations = registry.registrations)
    {b : Attachment F} (hpoint : s.point t = .storing b) {entry : Entry ι F}
    (hentry : s.entries[b.sessionEntry]? = some entry)
    (hentries : s'.entries = s.entries.modify b.sessionEntry
      (.withSession (entry.session.release (.ready b.ptyMaster b.ptyConn)))) :
    ∃ registry' : Registry SessionId ι F,
      registry.step (.complete b.sessionId b.ptyMaster) = some registry' ∧
        s'.registrations = registry'.registrations := by
  have hvalue := (hinv.storing hpoint hentry).2
  have hid : entry.sessionId = b.sessionId := by
    obtain ⟨⟨-, mine, hmine, -, hsame, -⟩, -⟩ := hinv.knows_at hpoint
    obtain rfl := Option.some.inj (hentry.symm.trans hmine)
    exact hsame
  have hawaits : registry.Awaits b.sessionId := by
    rw [Registry.Awaits, ← hR]
    refine ⟨entry.registration, List.mem_map_of_mem (List.mem_of_getElem? hentry), hid, ?_⟩
    show entry.session.value.ptyMaster.isNone = true
    rw [hvalue]
    rfl
  refine ⟨_, Registry.step_complete_eq_some.2 ⟨hawaits, rfl⟩, ?_⟩
  show s'.entries.map Entry.registration = registry.registrations.map _
  rw [← hR, hentries]
  apply List.ext_getElem?
  intro i
  simp only [State.registrations, List.getElem?_map]
  cases hi : s.entries[i]? with
  | none => simp [List.getElem?_modify, hi]
  | some mine =>
      have hmine := hinv.sessions_entry hi
      have hkey : mine.sessionId = b.sessionId ↔ b.sessionEntry = i := by
        have hstored := hinv.sessions_entry hentry
        rw [hid] at hstored
        constructor
        · intro hsame
          rw [hsame, hstored] at hmine
          exact Option.some.inj hmine
        · rintro rfl
          obtain rfl := Option.some.inj (hentry.symm.trans hi)
          exact hid
      rw [getElem?_modify_of_some hi, Option.map_some, Option.map_some, Option.map_some,
        Registration.complete]
      by_cases hk : b.sessionEntry = i
      · have hsame : mine.registration.key = b.sessionId := hkey.2 hk
        rw [if_pos hk, if_pos hsame]
        rfl
      · have hother : mine.registration.key ≠ b.sessionId := fun h => hk (hkey.1 h)
        rw [if_neg hk, if_neg hother]

theorem step_simulates (hs : Sound setup s) (h : step setup s a = some s')
    (hR : s.registrations = registry.registrations) :
    ∃ registry' : Registry SessionId ι F,
      run Registry.step (event s a).toList registry = some registry' ∧
        s'.registrations = registry'.registrations := by
  have hinv := hs.completes.good.inv
  have hone {e : Registry.Event SessionId ι F} {registry' : Registry SessionId ι F}
      (hstep : registry.step e = some registry') : run Registry.step [e] registry = some registry' :=
    run_cons_eq_some.2 ⟨registry', hstep, rfl⟩
  rcases (step_spec h).registers hinv with ⟨hnone, hsame⟩ |
    ⟨t, create, sessionId, hpoint, hevent, rfl⟩ | ⟨t, b, entry, hpoint, hentry, hevent, hentries⟩
  · rw [hnone]
    exact ⟨registry, rfl, hsame.trans hR⟩
  · obtain ⟨registry', hstep, hR'⟩ := insert_simulates hs hR hpoint
    rw [hevent]
    exact ⟨registry', hone hstep, hR'⟩
  · obtain ⟨registry', hstep, hR'⟩ := store_simulates hinv hR hpoint hentry hentries
    rw [hevent]
    exact ⟨registry', hone hstep, hR'⟩

/-- A state of the service and the registry it stands for. -/
structure Tracks (setup : Setup F) (s : State ι F) (registry : Registry SessionId ι F) : Prop where
  sound : Sound setup s
  registrations : s.registrations = registry.registrations

/-- Runs of the service show runs of the registry. -/
theorem observed_simulates {events : List (Registry.Event SessionId ι F)}
    (h : Observed (step setup) event s events s') (hs : Tracks setup s registry) :
    ∃ registry' : Registry SessionId ι F, run Registry.step events registry = some registry' ∧
      Tracks setup s' registry' := by
  refine h.simulates (fun s a s' registry hstep htracks => ?_) hs
  obtain ⟨registry', hrun, hregistrations⟩ :=
    step_simulates htracks.sound hstep htracks.registrations
  exact ⟨registry', hrun, step_sound hstep htracks.sound, hregistrations⟩

/-! ## Steps of one thread -/

/-- A thread gets from `s` to `s'` with the events, and all others stay where they are. -/
structure Reaches (setup : Setup F) (s : State ι F) (t : ι)
    (events : List (Registry.Event SessionId ι F)) (s' : State ι F) : Prop where
  observed : Observed (step setup) event s events s'
  sound : Sound setup s'
  others : ∀ u, u ≠ t → s'.point u = s.point u

theorem Reaches.refl (hs : Sound setup s) : Reaches setup s t [] s :=
  ⟨.nil s, hs, fun _ _ => rfl⟩

theorem Reaches.step {s'' : State ι F} {events : List (Registry.Event SessionId ι F)}
    (h : Reaches setup s t events s') (hstep : Sessions.step setup s' a = some s'')
    (hthread : a.thread = some t ∨ a.thread = none) :
    Reaches setup s t (events ++ (event s' a).toList) s'' where
  observed := by
    have hlast : Observed (Sessions.step setup) event s' ((event s' a).toList ++ []) s'' :=
      .cons hstep (.nil s'')
    rw [List.append_nil] at hlast
    exact h.observed.append hlast
  sound := step_sound hstep h.sound
  others u hu := by
    have hother : a.thread ≠ some u := by
      rcases hthread with hown | hnone
      · rw [hown]
        exact fun heq => hu (Option.some.inj heq).symm
      · rw [hnone]
        nofun
    have hframe := (step_spec hstep).frame h.sound.completes.good.inv hother
    exact hframe.point.trans (h.others u hu)

theorem Reaches.silent {s'' : State ι F} {events : List (Registry.Event SessionId ι F)}
    (h : Reaches setup s t events s') (hstep : Sessions.step setup s' a = some s'')
    (hthread : a.thread = some t ∨ a.thread = none) (hnone : event s' a = none) :
    Reaches setup s t events s'' := by
  have hnext := h.step hstep hthread
  rw [hnone, Option.toList_none, List.append_nil] at hnext
  exact hnext

theorem Reaches.trans {s'' : State ι F} {first second : List (Registry.Event SessionId ι F)}
    (h : Reaches setup s t first s') (h' : Reaches setup s' t second s'') :
    Reaches setup s t (first ++ second) s'' :=
  ⟨h.observed.append h'.observed, h'.sound, fun u hu => (h'.others u hu).trans (h.others u hu)⟩

/-! ## A registration -/

omit [DecidableEq ι] in
theorem clientHello_accepted (setup : Setup F) : acceptClient setup
    (.ok (.of (Handshake.new setup.deriveKey setup.identity clientIntent : Handshake F))) =
      .ok () := by
  have hfits : (Handshake.new setup.deriveKey setup.identity clientIntent : Handshake F).Fits := by
    rw [Handshake.fits_iff]
    show clientIntent.1.utf8ByteSize ≤ 8157
    decide
  exact Handshake.accept_self hfits

omit [DecidableEq ι] in
theorem hello_accepted (hsame : setup.identity = setup.ptyIdentity) : HelloAccepted setup := by
  have hfits : (hello setup).Fits := by
    rw [Handshake.fits_iff]
    show Proto.Pty.clientIntent.1.utf8ByteSize ≤ 8157
    decide
  unfold HelloAccepted
  rw [← hsame]
  exact Handshake.accept_self hfits

/-- A shell on the host for the user without a name. -/
def shortRequest (fd : F) : CreateShellSession F :=
  ⟨fd, .host, ⟨"", empty_size⟩, none, none, none⟩

theorem shortRequest_received (fd : F) :
    receiveRequest (.ok (.of (Request.createShellSession (shortRequest fd)))) =
      .ok (.createShellSession (shortRequest fd)) := by
  apply short_received
  show 5 ≤ 8191
  decide

/-- No thread is in a critical section or on the way to store a session. -/
structure Settled (s : State ι F) : Prop where
  free : s.sessions.holder = none
  point : ∀ t, s.point t = .handshaking ∨ s.point t = .receiving ∨ ∃ r, s.point t = .printingId r

theorem Reaches.settled {events : List (Registry.Event SessionId ι F)} (hs : Settled s)
    (h : Reaches setup s t events s') (hfree : s'.sessions.holder = none)
    (hpoint : s'.point t = .receiving ∨ ∃ r, s'.point t = .printingId r) : Settled s' where
  free := hfree
  point u := by
    by_cases hu : u = t
    · subst hu
      exact .inr hpoint
    · rw [h.others u hu]
      exact hs.point u

theorem exists_receiving (hs : Sound setup s)
    (hpoint : s.point t = .handshaking ∨ s.point t = .receiving) :
    ∃ s', Reaches setup s t [] s' ∧ s'.point t = .receiving ∧ s'.sessions = s.sessions := by
  rcases hpoint with hpoint | hpoint
  · have haccepted := step_accepted hpoint (clientHello_accepted setup)
    have hreplied : step setup (s.goto t .replying) (.sent t (.ok ())) =
        some ((s.goto t .replying).goto t .receiving) := by
      simp only [step, State.sent, State.goto_point]
    have hgreeted := (Reaches.refl hs).silent haccepted (.inl rfl) rfl
    exact ⟨_, hgreeted.silent hreplied (.inl rfl) rfl, State.goto_point .., rfl⟩
  · exact ⟨s, .refl hs, hpoint, rfl⟩

/-- It gets a request and takes the mutex of the map. -/
theorem exists_drawing (hs : Sound setup s) (hfree : s.sessions.holder = none) (fd : F)
    (hpoint : s.point t = .handshaking ∨ s.point t = .receiving) :
    ∃ s' create, Reaches setup s t [] s' ∧ s'.point t = .drawingId create ∧
      s'.sessions.value = s.sessions.value := by
  obtain ⟨s₁, hreach, hreceiving, hsessions⟩ := exists_receiving hs hpoint
  let s₂ := s₁.request t (shortRequest fd)
  let s₃ := s₂.goto t (.lockingSessions (shortRequest fd))
  have hrequested : step setup s₁ (.received t (.ok (.of (Request.createShellSession
      (shortRequest fd))))) = some s₂ := step_requested hreceiving (shortRequest_received fd)
  have hprinted : step setup s₂ (.printed t true) = some s₃ :=
    step_printedRequest (State.request_point ..)
  have hreach := (hreach.silent hrequested (.inl rfl) rfl).silent hprinted (.inl rfl) rfl
  have hholder : s₃.sessions.holder = none := (congrArg Mutex.holder hsessions).trans hfree
  let s₄ := ({ s₃ with sessions := { s₃.sessions with holder := some t } } : State ι F).goto t
    (.drawingId (shortRequest fd))
  have hlocked : step setup s₃ (.lockSessions t) = some s₄ :=
    step_lockSessions (State.goto_point ..) hholder
      hreach.sound.completes.good.inv.sessions_unpoisoned
  have hvalue : s₃.sessions.value = s.sessions.value := congrArg Mutex.value hsessions
  exact ⟨_, _, hreach.silent hlocked (.inl rfl) rfl, State.goto_point .., hvalue⟩

/-- A thread that serves no request can register a free id. -/
theorem exists_reserved (hs : Sound setup s) (hsettled : Settled s) (fd : F) {id : SessionId}
    (hfree : s.sessions.value id = none)
    (hpoint : s.point t = .handshaking ∨ s.point t = .receiving) :
    ∃ s', Reaches setup s t [.reserve id t] s' ∧ Settled s' := by
  obtain ⟨s₁, create, hreach, hdrawing, hvalue⟩ := exists_drawing hs hsettled.free fd hpoint
  have hvacant : s₁.sessions.value id = none := by
    rw [hvalue]
    exact hfree
  have hinserting : (s₁.goto t (.inserting create id)).point t = .inserting create id :=
    State.goto_point ..
  have hevent : event (s₁.goto t (.inserting create id)) (.insert t) = some (.reserve id t) := by
    simp only [event, hinserting]
  have hreach := (hreach.silent (step_draw hdrawing hvacant) (.inl rfl) rfl).step
    (step_insert hinserting) (.inl rfl)
  rw [hevent] at hreach
  exact ⟨_, hreach, hreach.settled hsettled rfl (.inr ⟨_, State.insert_point ..⟩)⟩

/-! ## Its completion -/

/-- A thread with an id gets its PTY and connects to the pty service. -/
theorem exists_greeting (hs : Sound setup s) {r : Reservation F}
    (hpoint : s.point t = .printingId r) (pty : F) :
    ∃ s' k, Reaches setup s t [] s' ∧ s'.point t = .greeting ⟨r, pty, k⟩ ∧
      s'.conns[k]? = some (.connected (t, s.serial t)) ∧ s'.sessions = s.sessions := by
  let s₁ := s.goto t (.creatingShell r)
  let s₂ := s₁.createShell t r pty
  have hcreated : step setup s₁ (.createShell t (some pty)) = some s₂ :=
    step_createShell (State.goto_point ..) pty
  have hconnected : step setup s₂ (.connect t true) = some (s₂.connect t r pty) :=
    step_connect (State.createShell_point ..)
  have hreach := (((Reaches.refl hs).silent (step_printedId hpoint) (.inl rfl) rfl).silent hcreated
    (.inl rfl) rfl).silent hconnected (.inl rfl) rfl
  exact ⟨_, s.conns.length, hreach, State.connect_point .., List.getElem?_concat_length, rfl⟩

/-- A step of an instance. -/
theorem Reaches.serve {events : List (Registry.Event SessionId ι F)}
    (h : Reaches setup s t events s') {k : Nat} {conn conn' : PtyConn ι F}
    (hconn : s'.conns[k]? = some conn) (hserve : conn.step setup (.run .serve) = some conn') :
    ∃ s'', Reaches setup s t events s'' ∧ s''.conns[k]? = some conn' ∧ s''.point = s'.point ∧
      s''.sessions = s'.sessions := by
  have hstep : Sessions.step setup s' (.pty k (.run .serve)) =
      some { s' with conns := s'.conns.modify k fun _ => conn' } := by
    simp only [Sessions.step, hconn, Option.bind_some, hserve, Option.map_some]
  have hconn' : (s'.conns.modify k fun _ => conn')[k]? = some conn' := by
    rw [List.getElem?_modify_eq, hconn]
    rfl
  exact ⟨_, h.silent hstep (.inr rfl) rfl, hconn', rfl, rfl⟩

/-- The pty service of the same build takes the handshake and answers it. -/
theorem exists_greeted (hsame : setup.identity = setup.ptyIdentity) (hs : Sound setup s)
    {b : Attachment F} (hpoint : s.point t = .greeting b) {owner : RequestId ι}
    (hconn : s.conns[b.ptyConn]? = some (.connected owner)) :
    ∃ s', Reaches setup s t [] s' ∧ s'.point t = .sendingInit b ∧ s'.sessions = s.sessions := by
  let sent : PtyConn ι F := (PtyConn.connected owner).push (.handshake (hello setup))
  let greeted : PtyConn ι F := { sent with
    reads := [(.handshake, Packet.of (hello setup))]
    service := ⟨.replying, ⟨[], []⟩, [.handshakeAccepted]⟩ }
  let replied : PtyConn ι F := greeted.withService
    ⟨.awaitingInit, ⟨[], [ptyReply setup]⟩, [.handshakeAccepted]⟩
  have hserved : sent.step setup (.run .serve) = some greeted := by
    have hreceive : sent.step setup (.run .serve) =
        some (sent.receive setup .handshake (Packet.of (hello setup)) []) :=
      PtyConn.step_receive rfl rfl
    have hhello : received setup sent.service.point (Packet.of (hello setup)) =
        (.replying, [.handshakeAccepted]) := by
      rcases received_hello setup with ⟨heq, -⟩ | ⟨hrefused, -⟩
      · exact heq
      · exact absurd (hello_accepted hsame) hrefused
    rw [hreceive, PtyConn.receive, hhello]
    rfl
  have hreplied : greeted.step setup (.run .serve) = some replied := rfl
  have hreach := (Reaches.refl hs).silent (step_sentHello hpoint) (.inl rfl) rfl
  have hconnSent : (s.send t b.ptyConn (.handshake (hello setup))
      (.awaitingReply b)).conns[b.ptyConn]? = some sent := by
    show (s.conns.modify _ _)[_]? = _
    rw [List.getElem?_modify_eq, hconn]
    rfl
  obtain ⟨s₁, hreach₁, hconn₁, hpoint₁, hsessions₁⟩ := hreach.serve hconnSent hserved
  obtain ⟨s₂, hreach₂, hconn₂, hpoint₂, hsessions₂⟩ := hreach₁.serve hconn₁ hreplied
  have hwaiting : s₂.point t = .awaitingReply b := by
    rw [hpoint₂, hpoint₁, State.send_point]
  have haccepted : step setup s₂ (.receiveReply t none) =
      some ((s₂.dropReply b.ptyConn).goto t (.sendingInit b)) :=
    step_replied hwaiting hconn₂ rfl (reply_accepted hsame)
  exact ⟨_, hreach₂.silent haccepted (.inl rfl) rfl, State.goto_point ..,
    hsessions₂.trans hsessions₁⟩

/-- The session is stored and the client is announced. -/
theorem exists_stored (hs : Sound setup s) {b : Attachment F} (hpoint : s.point t = .sendingInit b) :
    ∃ s', Reaches setup s t [.complete b.sessionId b.ptyMaster] s' ∧ s'.point t = .receiving ∧
      s'.sessions = s.sessions := by
  let s₁ := s.send t b.ptyConn (.init ⟨0, b.ptyMaster⟩) (.lockingEntry b)
  have hlocking : s₁.point t = .lockingEntry b := State.send_point ..
  have hreach₁ : Reaches setup s t [] s₁ :=
    (Reaches.refl hs).silent (step_sentInit hpoint) (.inl rfl) rfl
  have hinv₁ := hreach₁.sound.completes.good.inv
  obtain ⟨entry, hentry, hfree⟩ := hreach₁.sound.exclusive.entry_free hinv₁ hlocking
  let s₂ := (s₁.setSession b.sessionEntry { entry.session with holder := some t }).goto t
    (.storing b)
  have hstoring : s₂.point t = .storing b := State.goto_point ..
  have hlocked : step setup s₁ (.lockEntry t) = some s₂ := step_lockEntry hlocking hentry hfree
    (hinv₁.entries_unpoisoned entry (List.mem_of_getElem? hentry))
  have hreach₂ : Reaches setup s t [] s₂ := hreach₁.silent hlocked (.inl rfl) rfl
  obtain ⟨⟨-, locked, hentry₂, -, -, hcreating⟩, -⟩ :=
    hreach₂.sound.completes.good.inv.knows_at hstoring
  let s₃ := (s₂.setSession b.sessionEntry
    (locked.session.release (.ready b.ptyMaster b.ptyConn))).goto t
      (.sendingClient b.create b.ptyConn)
  have hstored : step setup s₂ (.store t) = some s₃ := step_store hstoring hentry₂ hcreating
  have hannounced : step setup s₃ (.sent t (.ok ())) =
      some (s₃.send t b.ptyConn (.request (.newClient 0 b.create.fd)) .receiving) :=
    step_sentClient (State.goto_point ..)
  have hevent : event s₂ (.store t) = some (.complete b.sessionId b.ptyMaster) := by
    simp only [event, hstoring]
  have hreach₃ := hreach₂.step hstored (.inl rfl)
  rw [hevent] at hreach₃
  exact ⟨_, hreach₃.silent hannounced (.inl rfl) rfl, State.send_point .., rfl⟩

/-- A thread with an id can complete its registration with any PTY. -/
theorem exists_completed (hsame : setup.identity = setup.ptyIdentity) (hs : Sound setup s)
    (hsettled : Settled s) {r : Reservation F} (hpoint : s.point t = .printingId r) (pty : F) :
    ∃ s', Reaches setup s t [.complete r.sessionId pty] s' ∧ Settled s' := by
  obtain ⟨s₁, k, hreach₁, hgreeting, hconn, hsessions₁⟩ := exists_greeting hs hpoint pty
  obtain ⟨s₂, hreach₂, hsending, hsessions₂⟩ := exists_greeted hsame hreach₁.sound hgreeting hconn
  obtain ⟨s₃, hreach₃, hreceiving, hsessions₃⟩ := exists_stored hreach₂.sound hsending
  have hreach := (hreach₁.trans hreach₂).trans hreach₃
  have hfree : s₃.sessions.holder = none := by
    rw [hsessions₃, hsessions₂, hsessions₁]
    exact hsettled.free
  exact ⟨s₃, hreach, hreach.settled hsettled hfree (.inl hreceiving)⟩

/-! ## All runs of the registry -/

theorem Tracks.exists_reserved (h : Tracks setup s registry) (hsettled : Settled s) (fd : F)
    {id : SessionId} (hadmits : registry.Admits id t) :
    ∃ s', Observed (step setup) event s [.reserve id t] s' ∧ Settled s' := by
  have hinv := h.sound.completes.good.inv
  have hfree : s.sessions.value id = none := by
    cases hk : s.sessions.value id with
    | none => rfl
    | some k =>
        obtain ⟨entry, hentry, hid⟩ := h.sound.completes.good.intact.refers id k hk
        have hmem : entry.registration ∈ registry.registrations :=
          h.registrations ▸ List.mem_map_of_mem (List.mem_of_getElem? hentry)
        have hkey : id ∈ registry.registrations.map Registration.key :=
          List.mem_map.2 ⟨_, hmem, hid⟩
        exact absurd hkey hadmits.1
  have hpoint : s.point t = .handshaking ∨ s.point t = .receiving := by
    rcases hsettled.point t with hhandshaking | hreceiving | ⟨r, hprinting⟩
    · exact .inl hhandshaking
    · exact .inr hreceiving
    · obtain ⟨-, entry, hentry, howner, -, hcreating⟩ := hinv.knows_at hprinting
      have hmem : entry.registration ∈ registry.registrations :=
        h.registrations ▸ List.mem_map_of_mem (List.mem_of_getElem? hentry)
      have hvalue := hadmits.2 _ hmem (congrArg Prod.fst howner)
      rw [Entry.registration, hcreating] at hvalue
      cases hvalue
  obtain ⟨s', hreach, hsettled'⟩ := Sessions.exists_reserved h.sound hsettled fd hfree hpoint
  exact ⟨s', hreach.observed, hsettled'⟩

theorem Tracks.exists_completed (hsame : setup.identity = setup.ptyIdentity)
    (h : Tracks setup s registry) (hsettled : Settled s) {id : SessionId}
    (hawaits : registry.Awaits id) (pty : F) :
    ∃ s', Observed (step setup) event s [.complete id pty] s' ∧ Settled s' := by
  have hinv := h.sound.completes.good.inv
  obtain ⟨registration, hmem, rfl, hnone⟩ := hawaits
  rw [← h.registrations] at hmem
  obtain ⟨entry, hentry, rfl⟩ := List.mem_map.1 hmem
  obtain ⟨k, hk⟩ := List.mem_iff_getElem?.1 hentry
  have hcreating : entry.session.value = .creating := by
    cases hvalue : entry.session.value with
    | creating => rfl
    | ready ptyMaster conn =>
        rw [Entry.registration, hvalue] at hnone
        cases hnone
  have hprinting : ∃ r, s.point entry.owner.1 = .printingId r ∧ r.sessionEntry = k := by
    have hpoints := hsettled.point entry.owner.1
    rcases h.sound.owned k entry hk hcreating with ⟨-, r, hr, hrk⟩ | ⟨-, e, hpanicked, -⟩
    · rcases hpoints with hhandshaking | hreceiving | ⟨r', hprinting⟩
      · rw [hhandshaking] at hr
        cases hr
      · rw [hreceiving] at hr
        cases hr
      · rw [hprinting] at hr
        cases hr
        exact ⟨r, hprinting, hrk⟩
    · rw [hpanicked] at hpoints
      simp at hpoints
  obtain ⟨r, hpoint, rfl⟩ := hprinting
  obtain ⟨-, mine, hmine, -, hid, -⟩ := hinv.knows_at hpoint
  obtain rfl := Option.some.inj (hk.symm.trans hmine)
  obtain ⟨s', hreach, hsettled'⟩ :=
    Sessions.exists_completed hsame h.sound hsettled hpoint pty
  have hkey : entry.registration.key = r.sessionId := hid
  rw [hkey]
  exact ⟨s', hreach.observed, hsettled'⟩

/-- Each step of the registry is shown by a run between settled states. -/
theorem Tracks.exists_shown (hsame : setup.identity = setup.ptyIdentity) (fd : F)
    (h : Tracks setup s registry) (hsettled : Settled s) {e : Registry.Event SessionId ι F}
    {registry' : Registry SessionId ι F} (hstep : registry.step e = some registry') :
    ∃ s', Observed (step setup) event s [e] s' ∧ Tracks setup s' registry' ∧ Settled s' := by
  have hshown : ∃ s', Observed (step setup) event s [e] s' ∧ Settled s' := by
    cases e with
    | reserve id t =>
        obtain ⟨hadmits, -⟩ := Registry.step_reserve_eq_some.1 hstep
        exact h.exists_reserved hsettled fd hadmits
    | complete id pty =>
        obtain ⟨hawaits, -⟩ := Registry.step_complete_eq_some.1 hstep
        exact h.exists_completed hsame hsettled hawaits pty
  obtain ⟨s', hobserved, hsettled'⟩ := hshown
  obtain ⟨next, hrun, htracks⟩ := observed_simulates hobserved h
  obtain ⟨registry₁, hstep₁, hnil⟩ := run_cons_eq_some.1 hrun
  obtain rfl : registry₁ = next := Option.some.inj hnil
  obtain rfl : registry₁ = registry' := Option.some.inj (hstep₁.symm.trans hstep)
  exact ⟨s', hobserved, htracks, hsettled'⟩

theorem start_tracks : Tracks setup (start : State ι F) .empty := ⟨start_sound, rfl⟩

omit [DecidableEq ι] in
theorem start_settled : Settled (start : State ι F) := ⟨rfl, fun _ => .inl rfl⟩

/-- What the runs of the sessions service show are runs of the registry, in which a
registration and its completion are one step each, and the map holds what the registry
holds; and they show every run of the registry, when the pty service is of the same
build. -/
theorem sessions_refine_registry (setup : Setup F) (events : List (Registry.Event SessionId ι F)) :
    (∀ s, Observed (step setup) event start events s →
      ∃ registry, run Registry.step events .empty = some registry ∧ Shows s registry) ∧
    (setup.identity = setup.ptyIdentity → ∀ (_ : F) (registry : Registry SessionId ι F),
      run Registry.step events .empty = some registry →
        ∃ s, Observed (step setup) event start events s ∧ Shows s registry) := by
  constructor
  · intro s hobserved
    obtain ⟨registry, hrun, htracks⟩ := observed_simulates hobserved (start_tracks (ι := ι))
    exact ⟨registry, hrun, htracks.sound.completes.good.inv.shows htracks.registrations⟩
  · intro hsame fd registry hrun
    have hboth : Tracks setup (start : State ι F) .empty ∧ Settled (start : State ι F) :=
      ⟨start_tracks, start_settled⟩
    obtain ⟨s, hobserved, htracks, -⟩ := Observed.of_run
      (R := fun s registry => Tracks setup s registry ∧ Settled s)
      (fun s registry e registry' hstep hs => hs.1.exists_shown hsame fd hs.2 hstep) hrun hboth
    exact ⟨s, hobserved, htracks.sound.completes.good.inv.shows htracks.registrations⟩

end Steps

def testOtherId : SessionId := ⟨List.replicate 24 1, rfl⟩

/-- Two clients that are served at a time, and one of them done. -/
def testRegistering : List (Registry.Event SessionId Bool Nat) :=
  [.reserve testId false, .reserve testOtherId true, .complete testId 5]

/-- A client that begins its second request before the first one is stored. -/
def testOverlapping : List (Registry.Event SessionId Bool Nat) :=
  [.reserve testId false, .reserve testOtherId false]

theorem sessions_refine_registry_test :
    (∃ s, Observed (step testSetup) event start testRegistering s ∧
      s.find testId = some ⟨testId, false, 1, some 5⟩ ∧
      s.find testOtherId = some ⟨testOtherId, true, 1, none⟩) ∧
    ¬ ∃ s, Observed (step testSetup) event start testOverlapping s := by
  have hrun : ∃ registry, run Registry.step testRegistering .empty = some registry ∧
      registry.find testId = some ⟨testId, false, 1, some 5⟩ ∧
      registry.find testOtherId = some ⟨testOtherId, true, 1, none⟩ := ⟨_, rfl, rfl, rfl⟩
  have hnone : run Registry.step testOverlapping .empty = none := rfl
  constructor
  · obtain ⟨registry, hregistry, hfirst, hsecond⟩ := hrun
    obtain ⟨s, hobserved, hshows⟩ :=
      (sessions_refine_registry testSetup testRegistering).2 rfl 5 registry hregistry
    exact ⟨s, hobserved, (hshows.find _).trans hfirst, (hshows.find _).trans hsecond⟩
  · rintro ⟨s, hobserved⟩
    obtain ⟨registry, hregistry, -⟩ :=
      (sessions_refine_registry testSetup testOverlapping).1 s hobserved
    rw [hnone] at hregistry
    cases hregistry

end TereServer.Services.Sessions
