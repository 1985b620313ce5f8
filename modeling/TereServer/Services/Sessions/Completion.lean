import TereServer.Services.Sessions.Connections
import TereServer.Services.Sessions.Relay

/-!
# Requests run to completion

The requests on one connection are served one after the other.  When a thread is
between two requests, every request it has received was stored and announced to
its instance of the pty service, over a connection that is never closed.
-/

namespace TereServer.Services.Sessions

open Lib Bincode Ipc Proto.Sessions

section Definitions

variable {ι F : Type}

def StoredEntry (s : State ι F) (id : RequestId ι) (ptyMaster : F) (k : Nat) : Prop :=
  ∃ (j : Nat) (entry : Entry ι F), s.entries[j]? = some entry ∧ entry.owner = id ∧
    entry.session.value = .ready ptyMaster k

/-- It is stored with what `create_shell` has returned for the request and with the
connection on which the first `n` messages of the request were sent. -/
def Stored (setup : Setup F) (s : State ι F) (id : RequestId ι) (n : Nat) : Prop :=
  ∃ create ptyMaster k, Started s id create ptyMaster ∧ StoredEntry s id ptyMaster k ∧
    Linked s id k ((script setup create ptyMaster).take n)

/-- How many messages of its last request a thread has sent that has stored its
session. -/
def Point.announced : Point F → Option Nat
  | .handshaking => some 3
  | .replying => some 3
  | .receiving => some 3
  | .returned _ => some 3
  | .sendingClient _ _ => some 2
  | .panicked (.sendNewClient _) => some 2
  | _ => none

def Point.idle : Point F → Bool
  | .handshaking => true
  | .replying => true
  | .receiving => true
  | .returned _ => true
  | _ => false

/-- The session of a request is in the map, with its PTY and with an open connection
to the pty service that has carried all its messages. -/
def Served (setup : Setup F) (s : State ι F) (id : RequestId ι) : Prop :=
  ∃ (create : CreateShellSession F) (ptyMaster : F) (j k : Nat) (entry : Entry ι F)
    (conn : PtyConn ι F),
    s.requested id = some create ∧ s.shells id = some (shellSpec create, ptyMaster) ∧
    s.entries[j]? = some entry ∧ entry.owner = id ∧ s.sessions.value entry.sessionId = some j ∧
    entry.session.value = .ready ptyMaster k ∧
    s.conns[k]? = some conn ∧ conn.owner = id ∧ conn.closed = false ∧
    conn.sent = script setup create ptyMaster

/-- What a thread has stored of the requests up to its last one. -/
structure Completed (setup : Setup F) (s : State ι F) : Prop where
  before : ∀ t n, 1 ≤ n → n < s.serial t → Stored setup s (t, n) 3
  last : ∀ t m, 1 ≤ s.serial t → (s.point t).announced = some m →
    Stored setup s (t, s.serial t) m

/-- A session is stored after two messages were sent on its connection. -/
def AllStored (setup : Setup F) (s : State ι F) : Prop :=
  ∀ id ptyMaster k, StoredEntry s id ptyMaster k → Stored setup s id 2 ∨ Stored setup s id 3

/-- A connection is closed only by the panic of the thread that made it. -/
def ClosedFailed (s : State ι F) : Prop :=
  ∀ (k : Nat) (conn : PtyConn ι F), s.conns[k]? = some conn → conn.closed = true →
    Failed s conn.owner

variable {setup : Setup F} {s : State ι F} {t : ι} {id : RequestId ι}

theorem StoredEntry.not_abandoned (hinv : Inv setup s) {ptyMaster : F} {k : Nat}
    (h : StoredEntry s id ptyMaster k) : ¬ Abandoned s id := by
  rintro ⟨i, other, hother, howner', hcreating⟩
  obtain ⟨j, entry, hentry, howner, hready⟩ := h
  have hij : j = i := hinv.entry_of_owner hentry hother (howner.trans howner'.symm)
  subst hij
  rw [hentry] at hother
  obtain rfl := Option.some.inj hother
  rw [hready] at hcreating
  cases hcreating

theorem StoredEntry.not_reserved (hinv : Inv setup s) {ptyMaster : F} {k : Nat}
    (h : StoredEntry s (t, s.serial t) ptyMaster k) : (s.point t).reservation = none := by
  cases hr : (s.point t).reservation with
  | none => rfl
  | some r => exact absurd (hinv.reserved hr).abandoned (h.not_abandoned hinv)

end Definitions

section Steps

variable {ι F : Type} [DecidableEq ι] {setup : Setup F} {s s' : State ι F} {a : Action ι F}
  {t : ι} {id : RequestId ι}

/-! ## What a step leaves of a stored session -/

theorem step_linked (hinv : Inv setup s) (h : step setup s a = some s') {k : Nat}
    {sent : List (Sent F)} (hl : Linked s id k sent) :
    Linked s' id k sent ∨ ∃ m p, id.2 = s.serial id.1 ∧ Sends setup (s.point id.1) k m p ∧
      s' = s.send id.1 k m p := by
  obtain ⟨conn, hconn, howner, hsent⟩ := hl
  obtain ⟨conn', hconn', hnext⟩ := step_conn_kept hinv h hconn
  have howner' := hnext.owner_eq.trans howner
  cases hnext with
  | @pushed t m p hmine hsends hs' =>
      obtain rfl : id = (t, s.serial t) := howner.symm.trans hmine
      exact .inr ⟨m, p, rfl, hsends, hs'⟩
  | served hserve _ =>
      have hkept := (PtyConn.step_spec hserve).kept.2
      exact .inl ⟨conn', hconn', howner', hkept.trans hsent⟩
  | _ => exact .inl ⟨_, hconn', howner', hsent⟩

theorem Step.storedEntry (hinv : Inv setup s) (h : Step setup s a s') {ptyMaster : F} {k : Nat}
    (hs : StoredEntry s id ptyMaster k) : StoredEntry s' id ptyMaster k := by
  obtain ⟨j, entry, hentry, howner, hready⟩ := hs
  obtain ⟨entry', hentry', hnext⟩ := h.entry hinv hentry
  refine ⟨j, entry', hentry', hnext.owner.trans howner, ?_⟩
  rcases hnext.value with hsame | ⟨hcreating, -⟩
  · exact hsame.trans hready
  · rw [hready] at hcreating
    cases hcreating

theorem Step.started_of_stored (hinv : Inv setup s) (h : Step setup s a s')
    {create : CreateShellSession F} {ptyMaster pty : F} {k : Nat} (hle : id.2 ≤ s.serial id.1)
    (hs : StoredEntry s id pty k) (hstarted : Started s id create ptyMaster) :
    Started s' id create ptyMaster := by
  apply h.started
  · rintro t - rfl
    dsimp only at hle
    omega
  · rintro t r hpoint rfl
    have hnone := hs.not_reserved hinv
    rw [hpoint] at hnone
    cases hnone
  · exact hstarted

/-- A stored session stays stored, and the messages of its request are added to by
its own thread only. -/
theorem step_stored (hinv : Inv setup s) (h : step setup s a = some s') {n : Nat}
    (hle : id.2 ≤ s.serial id.1) (hs : Stored setup s id n) :
    Stored setup s' id n ∨ ∃ k m p, id.2 = s.serial id.1 ∧ Sends setup (s.point id.1) k m p ∧
      s' = s.send id.1 k m p := by
  obtain ⟨create, ptyMaster, k, hstarted, hentry, hlinked⟩ := hs
  have hspec := step_spec h
  rcases step_linked hinv h hlinked with hkept | ⟨m, p, hserial, hsends, hsend⟩
  · exact .inl ⟨create, ptyMaster, k, hspec.started_of_stored hinv hle hentry hstarted,
      hspec.storedEntry hinv hentry, hkept⟩
  · exact .inr ⟨k, m, p, hserial, hsends, hsend⟩

omit [DecidableEq ι] in
theorem Sends.announced {p p' : Point F} {k n : Nat} {m : Sent F} (h : Sends setup p k m p')
    (hp : p.announced = some n) : p'.announced ≠ some n := by
  cases h with
  | newClient create k =>
      cases hp
      simp [Point.announced]
  | _ => cases hp

omit [DecidableEq ι] in
theorem Moves.announced {p p' : Point F} (h : Moves s p p') {n : Nat}
    (hp : p'.announced = some n) : p.announced = some n := by
  cases h with
  | accepted => exact hp
  | refused e => exact hp
  | replied => exact hp
  | replyFailed e => exact hp
  | receiveFailed e => exact hp
  | _ => cases hp

omit [DecidableEq ι] in
theorem Panics.announced {p : Point F} {e : Panic} (h : Panics s p e) {n : Nat}
    (he : (Point.panicked e : Point F).announced = some n) : p.announced = some n := by
  cases h with
  | sendNewClient create k e => exact he
  | _ => cases he

theorem stored_of_storing (hinv : Inv setup s) {b : Attachment F} {entry : Entry ι F}
    (hpoint : s.point t = .storing b) (hentry : s.entries[b.sessionEntry]? = some entry)
    (p : Point F) :
    Stored setup ((s.setSession b.sessionEntry
      (entry.session.release (.ready b.ptyMaster b.ptyConn))).goto t p) (t, s.serial t) 2 := by
  obtain ⟨-, hstarted, hlinked⟩ := hinv.knows_at hpoint
  have howner := (hinv.storing hpoint hentry).1
  have hstored : StoredEntry ((s.setSession b.sessionEntry
      (entry.session.release (.ready b.ptyMaster b.ptyConn))).goto t p) (t, s.serial t)
        b.ptyMaster b.ptyConn := by
    refine ⟨b.sessionEntry, _, getElem?_modify_of_some hentry, ?_⟩
    rw [if_pos rfl]
    exact ⟨howner, rfl⟩
  exact ⟨b.create, b.ptyMaster, b.ptyConn, hstarted, hstored, hlinked⟩

theorem stored_of_sent (hinv : Inv setup s) {create : CreateShellSession F} {k : Nat}
    (hpoint : s.point t = .sendingClient create k) (hs : Stored setup s (t, s.serial t) 2) :
    Stored setup (s.send t k (.request (.newClient 0 create.fd)) .receiving) (t, s.serial t) 3 := by
  obtain ⟨ptyMaster, hstarted, hlinked⟩ := hinv.knows_at hpoint
  obtain ⟨create', ptyMaster', k', hstarted', hentry, hlinked'⟩ := hs
  obtain ⟨rfl, rfl⟩ := Started.unique hstarted hstarted'
  obtain ⟨rfl, -⟩ := hinv.linked_unique hlinked hlinked'
  exact ⟨create, ptyMaster, k, hstarted, hentry,
    hlinked.send (.request (.newClient 0 create.fd)) .receiving⟩

theorem Step.announces (hinv : Inv setup s) (h : Step setup s a s') (ht : a.thread = some t)
    {n : Nat} (hn : (s'.point t).announced = some n) :
    s'.serial t = s.serial t ∧
      ((s.point t).announced = some n ∨ Stored setup s' (t, s.serial t) n ∨
        ∃ create k, s.point t = .sendingClient create k ∧ n = 3 ∧
          s' = s.send t k (.request (.newClient 0 create.fd)) .receiving) := by
  cases h with
  | @move _ u p ha h =>
      obtain rfl : u = t := Option.some.inj (ha.symm.trans ht)
      rw [State.goto_point] at hn
      exact ⟨rfl, .inl (h.announced hn)⟩
  | @panic _ u e ha h =>
      obtain rfl : u = t := Option.some.inj (ha.symm.trans ht)
      rw [State.panic_point] at hn
      exact ⟨rfl, .inl (h.announced hn)⟩
  | @send u k m p h =>
      obtain rfl : u = t := Option.some.inj ht
      rw [State.send_point] at hn
      refine ⟨rfl, .inr (.inr ?_)⟩
      generalize hpoint : s.point u = q at h
      cases h with
      | newClient create k =>
          cases hn
          exact ⟨create, k, rfl, rfl, rfl⟩
      | _ => cases hn
  | @store u b entry hpoint hentry hvalue =>
      obtain rfl : u = t := Option.some.inj ht
      rw [State.goto_point] at hn
      cases hn
      exact ⟨rfl, .inr (.inl (stored_of_storing hinv hpoint hentry _))⟩
  | @stolen u b entry hpoint hentry hvalue =>
      exact absurd (hinv.storing hpoint hentry).2 hvalue
  | pty hconn h => cases ht
  | _ =>
      obtain rfl := Option.some.inj ht
      simp [Point.announced] at hn

/-! ## All requests -/

theorem step_completed (hinv : Inv setup s) (h : step setup s a = some s') (hs : Completed setup s) :
    Completed setup s' where
  before u n hone hlt := by
    -- a request that is over takes no part in the step, also when the next one starts with it
    have hkeeps (hle : n ≤ s.serial u) (hstored : Stored setup s (u, n) 3)
        (hsilent : ∀ k m p, n = s.serial u → ¬ Sends setup (s.point u) k m p) :
        Stored setup s' (u, n) 3 := by
      rcases step_stored hinv h hle hstored with hkept | ⟨k, m, p, hserial, hsends, -⟩
      · exact hkept
      · exact absurd hsends (hsilent k m p hserial)
    by_cases hold : n < s.serial u
    · apply hkeeps (Nat.le_of_lt hold) (hs.before u n hone hold)
      intro k m p hserial
      omega
    · by_cases ht : a.thread = some u
      · rcases (step_spec h).advances ht with ⟨hpoint, hserial⟩ | ⟨hserial, -⟩
        · obtain rfl : n = s.serial u := by omega
          apply hkeeps le_rfl
          · apply hs.last u 3 hone
            rw [hpoint]
            rfl
          · intro k m p _ hsends
            rw [hpoint] at hsends
            cases hsends
        · omega
      · have hserial := ((step_spec h).frame hinv ht).serial
        omega
  last u n hone hn := by
    by_cases ht : a.thread = some u
    · obtain ⟨hserial, hsame | hnew | ⟨create, k, hpoint, rfl, rfl⟩⟩ :=
        (step_spec h).announces hinv ht hn
      · rw [hserial] at hone ⊢
        rcases step_stored hinv h le_rfl (hs.last u n hone hsame) with
          hkept | ⟨k, m, p, -, hsends, rfl⟩
        · exact hkept
        · rw [State.send_point] at hn
          exact absurd hn (hsends.announced hsame)
      · rw [hserial]
        exact hnew
      · apply stored_of_sent hinv hpoint
        apply hs.last u 2 hone
        rw [hpoint]
        rfl
    · have hframe := (step_spec h).frame hinv ht
      rw [hframe.point] at hn
      rw [hframe.serial] at hone ⊢
      rcases step_stored hinv h le_rfl (hs.last u n hone hn) with hkept | ⟨k, m, p, -, hsends, rfl⟩
      · exact hkept
      · have hpoint := hframe.point
        rw [State.send_point] at hpoint
        rw [← hpoint] at hn
        exact absurd hn (hsends.announced (hpoint ▸ hn))

omit [DecidableEq ι] in
theorem StoredEntry.le_serial (hinv : Inv setup s) {ptyMaster : F} {k : Nat}
    (h : StoredEntry s id ptyMaster k) : id.2 ≤ s.serial id.1 := by
  obtain ⟨j, entry, hentry, rfl, -⟩ := h
  have hmem : (entry.owner, entry.sessionId) ∈ s.reservations :=
    List.mem_map_of_mem (List.mem_of_getElem? hentry)
  have hlt := hinv.reservations_lt _ hmem
  unfold State.next at hlt
  split at hlt
  · exact Nat.le_of_lt hlt
  · exact Nat.le_of_lt_succ hlt

/-- All the messages of a stored request are sent, so nothing more is. -/
theorem step_stored_all (hinv : Inv setup s) (h : step setup s a = some s') (hs : Stored setup s id 3) :
    Stored setup s' id 3 := by
  have hle : id.2 ≤ s.serial id.1 := by
    obtain ⟨create, ptyMaster, k, -, hstored, -⟩ := hs
    exact hstored.le_serial hinv
  rcases step_stored hinv h hle hs with hkept | ⟨i, m, p, hserial, hsends, -⟩
  · exact hkept
  · obtain ⟨create, ptyMaster, k, -, -, hlinked⟩ := hs
    obtain ⟨create', ptyMaster', sent, -, hlinked', hpre⟩ :=
      hsends.script (hinv.knows id.1)
    rw [← hserial] at hlinked'
    obtain ⟨-, rfl⟩ := hinv.linked_unique hlinked hlinked'
    have hlength := hpre.length_le
    simp [script] at hlength

theorem Step.storedEntry_origin (hinv : Inv setup s) (h : Step setup s a s') {ptyMaster : F} {k : Nat}
    (hs' : StoredEntry s' id ptyMaster k) :
    StoredEntry s id ptyMaster k ∨ Stored setup s' id 2 := by
  obtain ⟨j, entry', hentry', howner', hready⟩ := hs'
  rcases h.entry_origin hentry' with ⟨entry, hentry⟩ | ⟨t, create, sessionId, -, -, -, rfl⟩
  · obtain ⟨next, hnext', hnext⟩ := h.entry hinv hentry
    rw [hentry'] at hnext'
    obtain rfl := Option.some.inj hnext'
    have howner := hnext.owner.symm.trans howner'
    rcases hnext.value with hsame | ⟨hcreating, -, t, rfl, hmine⟩
    · exact .inl ⟨j, entry, hentry, howner, hsame.symm.trans hready⟩
    · obtain rfl : id = (t, s.serial t) := howner.symm.trans hmine
      have hunchanged (hentries : s'.entries = s.entries) : False := by
        rw [hentries, hentry] at hentry'
        obtain rfl := Option.some.inj hentry'
        rw [hcreating] at hready
        cases hready
      cases h with
      | move ha h => exact (hunchanged rfl).elim
      | panic ha h => exact (hunchanged rfl).elim
      | store hpoint hstoring hvalue => exact .inr (stored_of_storing hinv hpoint hstoring _)
      | stolen hpoint hstoring hvalue => exact absurd (hinv.storing hpoint hstoring).2 hvalue
  · cases hready

theorem step_allStored (hinv : Inv setup s) (h : step setup s a = some s')
    (hs : AllStored setup s) : AllStored setup s' := by
  intro id ptyMaster k hstored'
  rcases (step_spec h).storedEntry_origin hinv hstored' with hstored | hnew
  · have hle : id.2 ≤ s.serial id.1 := hstored.le_serial hinv
    rcases hs id ptyMaster k hstored with htwo | hthree
    · rcases step_stored hinv h hle htwo with hkept | ⟨i, m, p, hserial, hsends, rfl⟩
      · exact .inl hkept
      · right
        obtain ⟨t, n⟩ := id
        obtain rfl : n = s.serial t := hserial
        generalize hpoint : s.point t = q at hsends
        have hnone := hstored.not_reserved hinv
        rw [hpoint] at hnone
        cases hsends with
        | newClient create k => exact stored_of_sent hinv hpoint htwo
        | _ => cases hnone
    · exact .inr (step_stored_all hinv h hthree)
  · exact .inl hnew

/-! ## Connections that are closed -/

theorem step_closedFailed (hinv : Inv setup s) (h : step setup s a = some s')
    (hs : ClosedFailed s) : ClosedFailed s' := by
  intro k conn' hconn' hclosed
  have hold {conn : PtyConn ι F} (hconn : s.conns[k]? = some conn) (hwas : conn.closed = true) :
      Failed s' conn.owner := step_failed hinv (step_spec h) (hs k conn hconn hwas)
  rcases step_conn hinv h hconn' with ⟨t, r, ptyMaster, -, -, -, rfl⟩ | ⟨conn, hconn, hnext⟩
  · cases hclosed
  · rw [hnext.owner_eq]
    cases hnext with
    | kept => exact hold hconn hclosed
    | @closed t e howner he hs' =>
        subst hs'
        rw [howner]
        exact ⟨rfl, e, State.panic_point .., he⟩
    | pushed howner hsends hs' => exact hold hconn hclosed
    | accepted howner hpoint hk hreply haccept hs' => exact hold hconn hclosed
    | @refused t e howner hs' =>
        subst hs'
        rw [howner]
        exact ⟨rfl, _, State.panic_point .., rfl⟩
    | served hserve hs' =>
        rw [(PtyConn.step_spec hserve).closed_eq] at hclosed
        exact hold hconn hclosed

omit [DecidableEq ι] in
theorem ClosedFailed.open_of_stored (hs : ClosedFailed s) (hinv : Inv setup s) {ptyMaster : F}
    {i k : Nat} {conn : PtyConn ι F} (hconn : s.conns[k]? = some conn)
    (hstored : StoredEntry s conn.owner ptyMaster i) : conn.closed = false := by
  cases hclosed : conn.closed with
  | false => rfl
  | true => exact absurd ((hs k conn hconn hclosed).abandoned hinv) (hstored.not_abandoned hinv)

/-! ## Runs -/

structure Completes (setup : Setup F) (s : State ι F) : Prop where
  good : Good setup s
  completed : Completed setup s
  allStored : AllStored setup s
  closedFailed : ClosedFailed s

theorem step_completes (h : step setup s a = some s') (hs : Completes setup s) :
    Completes setup s' where
  good := step_good h hs.good
  completed := step_completed hs.good.inv h hs.completed
  allStored := step_allStored hs.good.inv h hs.allStored
  closedFailed := step_closedFailed hs.good.inv h hs.closedFailed

omit [DecidableEq ι] in
theorem start_completed : Completed setup (start : State ι F) where
  before t n hone hlt := absurd hlt (Nat.not_lt_zero n)
  last t m hone := absurd hone (by simp [start])

theorem run_completes {actions : List (Action ι F)} (h : run (step setup) actions start = some s) :
    Completes setup s := by
  have hgood : Good setup (start : State ι F) := run_good (run_nil _)
  have hstored : AllStored setup (start : State ι F) := by
    rintro id ptyMaster k ⟨j, entry, hentry, -⟩
    simp [start] at hentry
  have hclosed : ClosedFailed (start : State ι F) := fun k conn hconn => by simp [start] at hconn
  exact run_invariant (fun _ _ _ => step_completes) h ⟨hgood, start_completed, hstored, hclosed⟩

omit [DecidableEq ι] in
theorem Completes.served (hs : Completes setup s) (h : Stored setup s id 3) : Served setup s id := by
  obtain ⟨create, ptyMaster, k, hstarted, hstored, conn, hconn, howner, hsent⟩ := h
  have hopen : conn.closed = false :=
    hs.closedFailed.open_of_stored hs.good.inv hconn (howner.symm ▸ hstored)
  obtain ⟨j, entry, hentry, hentryOwner, hready⟩ := hstored
  exact ⟨create, ptyMaster, j, k, entry, conn, hstarted.1, hstarted.2, hentry, hentryOwner,
    hs.good.inv.sessions_entry hentry, hready, hconn, howner, hopen, hsent⟩

omit [DecidableEq ι] in
theorem Served.stored (h : Served setup s id) : Stored setup s id 3 := by
  obtain ⟨create, ptyMaster, j, k, entry, conn, hrequested, hshell, hentry, howner, -, hready, hconn,
    hconnOwner, -, hsent⟩ := h
  exact ⟨create, ptyMaster, k, ⟨hrequested, hshell⟩, ⟨j, entry, hentry, howner, hready⟩, conn, hconn,
    hconnOwner, hsent⟩

theorem Served.later (hserved : Served setup s id) (hs : Completes setup s)
    {later : List (Action ι F)} (hlater : run (step setup) later s = some s') :
    Served setup s' id := by
  have hboth : Completes setup s' ∧ Stored setup s' id 3 :=
    run_invariant (I := fun s => Completes setup s ∧ Stored setup s id 3)
      (fun _ _ _ hstep hs => ⟨step_completes hstep hs.1,
        step_stored_all hs.1.good.inv hstep hs.2⟩) hlater ⟨hs, hserved.stored⟩
  exact hboth.1.served hboth.2

/-- In every reachable state the requests of a thread, up to its last one and with the
last one when it serves none, are stored in the map with what `create_shell` has
returned for them, each with an open connection to the pty service that has carried all
its messages; and this stays so in every later state. -/
theorem requests_run_to_completion (setup : Setup F) (actions : List (Action ι F)) (s : State ι F)
    (h : run (step setup) actions start = some s) :
    (∀ t n, 1 ≤ n → n < s.serial t ∨ n = s.serial t ∧ (s.point t).idle = true →
      Served setup s (t, n)) ∧
    ∀ id, Served setup s id → ∀ later s', run (step setup) later s = some s' →
      Served setup s' id := by
  have hs := run_completes h
  constructor
  · intro t n hone hn
    apply hs.served
    rcases hn with hlt | ⟨rfl, hidle⟩
    · exact hs.completed.before t n hone hlt
    · apply hs.completed.last t 3 hone
      cases hpoint : s.point t with
      | handshaking => rfl
      | replying => rfl
      | receiving => rfl
      | returned e => rfl
      | _ =>
          rw [hpoint] at hidle
          cases hidle
  · intro id hserved later s' hlater
    exact hserved.later hs hlater

end Steps

/-! ## The request of the debug client -/

theorem testCompletion : ∃ s conn,
    run (step testSetup) ((testReserving ++ testConnecting) ++ (.store () :: testServing)) start =
      some s ∧ s.serial () = 1 ∧ (s.point ()).idle = true ∧ s.conns = [conn] ∧
        conn.service.point = .serving 5 ∧ Pty.users conn.service.events = [(5, 7)] :=
  ⟨_, _, run_append_eq_some.2 ⟨_, run_append_eq_some.2 ⟨_,
      run_cons_eq_some.2 ⟨_, step_accepted rfl testClient_accepted,
      run_cons_eq_some.2 ⟨_, rfl,
      run_cons_eq_some.2 ⟨_, step_requested rfl testRequest_received, rfl⟩⟩⟩,
      run_cons_eq_some.2 ⟨_, rfl,
      run_cons_eq_some.2 ⟨_, rfl,
      run_cons_eq_some.2 ⟨_, rfl,
      run_cons_eq_some.2 ⟨_, step_received rfl rfl rfl testHello_received,
      run_cons_eq_some.2 ⟨_, rfl,
      run_cons_eq_some.2 ⟨_, step_replied rfl rfl rfl testPtyReply_accepted, rfl⟩⟩⟩⟩⟩⟩⟩,
    run_cons_eq_some.2 ⟨_, rfl,
    run_cons_eq_some.2 ⟨_, rfl,
    run_cons_eq_some.2 ⟨_, step_received rfl rfl rfl testInit_received,
    run_cons_eq_some.2 ⟨_, step_received rfl rfl rfl testNewClient_received, rfl⟩⟩⟩⟩⟩, rfl, rfl, rfl,
    rfl, rfl⟩

theorem requests_run_to_completion_test : ∃ s : State Unit Nat,
    run (step testSetup) ((testReserving ++ testConnecting) ++ (.store () :: testServing)) start =
      some s ∧ s.serial () = 1 ∧ Served testSetup s ((), 1) := by
  obtain ⟨s, -, hrun, hserial, hidle, -⟩ := testCompletion
  have hserved := (requests_run_to_completion testSetup _ s hrun).1 () 1 le_rfl
    (.inr ⟨hserial.symm, hidle⟩)
  exact ⟨s, hrun, hserial, hserved⟩

end TereServer.Services.Sessions
