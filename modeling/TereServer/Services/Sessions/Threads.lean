import TereServer.Services.Sessions.Step

/-!
# What the threads know

At each point of `serve_conn` a thread knows something about the map, its entry
and its connection to the pty service that no other thread can change.  `Frame`
is what a step leaves alone for the threads that do not take it.
-/

namespace TereServer.Services.Sessions

open Lib Bincode Ipc Proto.Sessions

section Assertions

variable {ι F : Type}

/-- All the messages of a request to the pty service. -/
def script (setup : Setup F) (create : CreateShellSession F) (ptyMaster : F) : List (Sent F) :=
  [.handshake (hello setup), .init ⟨0, ptyMaster⟩, .request (.newClient 0 create.fd)]

/-- The entry of a request is in the state in which it was inserted. -/
def Reserved (s : State ι F) (id : RequestId ι) (r : Reservation F) : Prop :=
  s.requested id = some r.create ∧ ∃ entry, s.entries[r.sessionEntry]? = some entry ∧
    entry.owner = id ∧ entry.sessionId = r.sessionId ∧ entry.session.value = .creating

/-- `create_shell` was called for a request and has returned `ptyMaster`. -/
def Started (s : State ι F) (id : RequestId ι) (create : CreateShellSession F) (ptyMaster : F) :
    Prop :=
  s.requested id = some create ∧ s.shells id = some (shellSpec create, ptyMaster)

/-- The connection of a request and what was sent on it. -/
def Linked (s : State ι F) (id : RequestId ι) (k : Nat) (sent : List (Sent F)) : Prop :=
  ∃ conn, s.conns[k]? = some conn ∧ conn.owner = id ∧ conn.sent = sent

/-- A request before it is stored, with the first `n` messages sent. -/
def Attached (setup : Setup F) (s : State ι F) (id : RequestId ι) (a : Attachment F) (n : Nat) :
    Prop :=
  Reserved s id a.toReservation ∧ Started s id a.create a.ptyMaster ∧
    Linked s id a.ptyConn ((script setup a.create a.ptyMaster).take n)

/-- A panic between the insertion of an entry and the storing of its session. -/
def Panic.beforeReady : Panic → Bool
  | .printSessionId => true
  | .createShell => true
  | .connect => true
  | .handshake _ => true
  | .sendInit _ => true
  | _ => false

/-- The entry of a request is in the map and its session was not stored. -/
def Abandoned (s : State ι F) (id : RequestId ι) : Prop :=
  ∃ (k : Nat) (entry : Entry ι F), s.entries[k]? = some entry ∧ entry.owner = id ∧
    entry.session.value = .creating

def Point.Knows (setup : Setup F) (s : State ι F) (id : RequestId ι) : Point F → Prop
  | .handshaking => True
  | .replying => True
  | .receiving => True
  | .printingRequest create => s.requested id = some create
  | .lockingSessions create => s.requested id = some create
  | .drawingId create => s.requested id = some create
  | .inserting create sessionId =>
      s.requested id = some create ∧ s.sessions.value sessionId = none
  | .printingId r => Reserved s id r
  | .creatingShell r => Reserved s id r
  | .connecting r ptyMaster => Reserved s id r ∧ Started s id r.create ptyMaster
  | .greeting a => Attached setup s id a 0
  | .awaitingReply a => Attached setup s id a 1
  | .sendingInit a => Attached setup s id a 1
  | .lockingEntry a => Attached setup s id a 2
  | .storing a => Attached setup s id a 2
  | .sendingClient create k => ∃ ptyMaster, Started s id create ptyMaster ∧
      Linked s id k ((script setup create ptyMaster).take 2)
  | .returned _ => True
  | .panicked e => e.beforeReady = true → Abandoned s id

def Point.holdsSessions : Point F → Bool
  | .drawingId _ => true
  | .inserting _ _ => true
  | _ => false

/-- A request is served that has no entry yet. -/
def Point.unreserved : Point F → Bool
  | .printingRequest _ => true
  | .lockingSessions _ => true
  | .drawingId _ => true
  | .inserting _ _ => true
  | _ => false

/-- A request is served that has no connection to the pty service yet. -/
def Point.unconnected : Point F → Bool
  | .printingId _ => true
  | .creatingShell _ => true
  | .connecting _ _ => true
  | p => p.unreserved

namespace State

/-- Who has inserted which id, by entry. -/
def reservations (s : State ι F) : List (RequestId ι × SessionId) :=
  s.entries.map fun entry => (entry.owner, entry.sessionId)

def owners (s : State ι F) : List (RequestId ι) := s.conns.map PtyConn.owner

/-- The first request of a thread that is after every request that has what the
requests at the points `without` do not have. -/
def next (without : Point F → Bool) (s : State ι F) (t : ι) : Nat :=
  if without (s.point t) then s.serial t else s.serial t + 1

end State

structure Inv (setup : Setup F) (s : State ι F) : Prop where
  knows : ∀ t, (s.point t).Knows setup s (t, s.serial t)
  holder : ∀ t, (s.point t).holdsSessions = true → s.sessions.holder = some t
  sessions : ∀ id k, s.sessions.value id = some k ↔ ∃ owner, s.reservations[k]? = some (owner, id)
  reservations_nodup : (s.reservations.map Prod.fst).Nodup
  reservations_lt : ∀ r ∈ s.reservations, r.1.2 < s.next Point.unreserved r.1.1
  owners_nodup : s.owners.Nodup
  owners_lt : ∀ owner ∈ s.owners, owner.2 < s.next Point.unconnected owner.1
  sessions_unpoisoned : s.sessions.poisoned = false
  entries_unpoisoned : ∀ entry ∈ s.entries, entry.session.poisoned = false

/-- What a thread can count on while others take a step. -/
structure Frame (t : ι) (s s' : State ι F) : Prop where
  point : s'.point t = s.point t
  serial : s'.serial t = s.serial t
  requested : ∀ n, s'.requested (t, n) = s.requested (t, n)
  shells : ∀ n, s'.shells (t, n) = s.shells (t, n)
  entry : ∀ {k : Nat} {entry : Entry ι F}, s.entries[k]? = some entry → entry.owner.1 = t →
    s'.entries[k]? = some entry
  conn : ∀ {k : Nat} {conn : PtyConn ι F}, s.conns[k]? = some conn → conn.owner.1 = t →
    ∃ conn', s'.conns[k]? = some conn' ∧ conn'.owner = conn.owner ∧ conn'.sent = conn.sent
  sessions : (s.point t).holdsSessions = true → s'.sessions = s.sessions

variable {setup : Setup F} {s s' : State ι F} {t : ι} {n : Nat}

theorem Reserved.frame (h : Frame t s s') {r : Reservation F} (hr : Reserved s (t, n) r) :
    Reserved s' (t, n) r := by
  obtain ⟨hrequested, entry, hentry, howner, hid, hvalue⟩ := hr
  exact ⟨(h.requested n).trans hrequested, entry, h.entry hentry (howner ▸ rfl), howner, hid, hvalue⟩

theorem Reserved.abandoned {id : RequestId ι} {r : Reservation F} (hr : Reserved s id r) :
    Abandoned s id := by
  obtain ⟨-, entry, hentry, howner, -, hvalue⟩ := hr
  exact ⟨_, entry, hentry, howner, hvalue⟩

theorem Abandoned.frame (h : Frame t s s') (ha : Abandoned s (t, n)) : Abandoned s' (t, n) := by
  obtain ⟨k, entry, hentry, howner, hvalue⟩ := ha
  exact ⟨k, entry, h.entry hentry (howner ▸ rfl), howner, hvalue⟩

theorem Started.frame (h : Frame t s s') {create : CreateShellSession F} {ptyMaster : F}
    (hs : Started s (t, n) create ptyMaster) : Started s' (t, n) create ptyMaster :=
  ⟨(h.requested n).trans hs.1, (h.shells n).trans hs.2⟩

theorem Linked.frame (h : Frame t s s') {k : Nat} {sent : List (Sent F)}
    (hl : Linked s (t, n) k sent) : Linked s' (t, n) k sent := by
  obtain ⟨conn, hconn, howner, hsent⟩ := hl
  obtain ⟨conn', hconn', howner', hsent'⟩ := h.conn hconn (howner ▸ rfl)
  exact ⟨conn', hconn', howner'.trans howner, hsent'.trans hsent⟩

theorem Attached.frame (h : Frame t s s') {a : Attachment F} {sent : Nat}
    (ha : Attached setup s (t, n) a sent) : Attached setup s' (t, n) a sent :=
  ⟨ha.1.frame h, ha.2.1.frame h, ha.2.2.frame h⟩

theorem knows_frame (h : Frame t s s') {p : Point F} (hp : s.point t = p)
    (hknows : p.Knows setup s (t, n)) : p.Knows setup s' (t, n) := by
  cases p with
  | handshaking => trivial
  | replying => trivial
  | receiving => trivial
  | printingRequest create => exact (h.requested n).trans hknows
  | lockingSessions create => exact (h.requested n).trans hknows
  | drawingId create => exact (h.requested n).trans hknows
  | inserting create sessionId =>
      have hsessions : s'.sessions = s.sessions := h.sessions (by rw [hp]; rfl)
      exact ⟨(h.requested n).trans hknows.1, by rw [hsessions]; exact hknows.2⟩
  | printingId r => exact hknows.frame h
  | creatingShell r => exact hknows.frame h
  | connecting r ptyMaster => exact ⟨hknows.1.frame h, hknows.2.frame h⟩
  | greeting a => exact hknows.frame h
  | awaitingReply a => exact hknows.frame h
  | sendingInit a => exact hknows.frame h
  | lockingEntry a => exact hknows.frame h
  | storing a => exact hknows.frame h
  | sendingClient create k =>
      obtain ⟨ptyMaster, hstarted, hlinked⟩ := hknows
      exact ⟨ptyMaster, hstarted.frame h, hlinked.frame h⟩
  | returned e => trivial
  | panicked e => exact fun he => (hknows he).frame h

/-! ## What a step leaves alone -/

variable {u : ι}

theorem Frame.refl (t : ι) (s : State ι F) : Frame t s s :=
  ⟨rfl, rfl, fun _ => rfl, fun _ => rfl, fun h _ => h, fun h _ => ⟨_, h, rfl, rfl⟩, fun _ => rfl⟩

theorem entry_modify {k : Nat} {f : Entry ι F → Entry ι F} {mine : Entry ι F}
    (hmine : s.entries[k]? = some mine) (howner : mine.owner.1 ≠ u) {i : Nat} {entry : Entry ι F}
    (hentry : s.entries[i]? = some entry) (hu : entry.owner.1 = u) :
    (s.entries.modify k f)[i]? = some entry := by
  rw [getElem?_modify_of_some hentry, if_neg]
  rintro rfl
  rw [hmine] at hentry
  exact howner (Option.some.inj hentry ▸ hu)

theorem conn_modify_of_ne {k : Nat} {f : PtyConn ι F → PtyConn ι F} {mine : PtyConn ι F}
    (hmine : s.conns[k]? = some mine) (howner : mine.owner.1 ≠ u) {i : Nat} {conn : PtyConn ι F}
    (hconn : s.conns[i]? = some conn) (hu : conn.owner.1 = u) :
    ∃ conn', (s.conns.modify k f)[i]? = some conn' ∧ conn'.owner = conn.owner ∧
      conn'.sent = conn.sent := by
  refine ⟨conn, ?_, rfl, rfl⟩
  rw [getElem?_modify_of_some hconn, if_neg]
  rintro rfl
  rw [hmine] at hconn
  exact howner (Option.some.inj hconn ▸ hu)

/-- A change that only the instance and the queues see. -/
structure Unseen (f : PtyConn ι F → PtyConn ι F) : Prop where
  owner : ∀ conn, (f conn).owner = conn.owner
  sent : ∀ conn, (f conn).sent = conn.sent

theorem unseen_close : Unseen (ι := ι) (F := F) .close := ⟨fun _ => rfl, fun _ => rfl⟩

theorem unseen_dropReply : Unseen (ι := ι) (F := F) .dropReply := ⟨fun _ => rfl, fun _ => rfl⟩

theorem conn_modify {k : Nat} {f : PtyConn ι F → PtyConn ι F} (hf : Unseen f)
    {conns : List (PtyConn ι F)} {i : Nat} {conn : PtyConn ι F} (hconn : conns[i]? = some conn) :
    ∃ conn', (conns.modify k f)[i]? = some conn' ∧ conn'.owner = conn.owner ∧
      conn'.sent = conn.sent := by
  refine ⟨_, getElem?_modify_of_some hconn, ?_⟩
  split
  · exact ⟨hf.owner conn, hf.sent conn⟩
  · exact ⟨rfl, rfl⟩

theorem Sends.linked {p p' : Point F} {k : Nat} {m : Sent F} {id : RequestId ι}
    (h : Sends setup p k m p') (hknows : p.Knows setup s id) : ∃ sent, Linked s id k sent := by
  cases h with
  | hello b => exact ⟨_, hknows.2.2⟩
  | init b => exact ⟨_, hknows.2.2⟩
  | newClient create k =>
      obtain ⟨ptyMaster, -, hlinked⟩ := hknows
      exact ⟨_, hlinked⟩

theorem Inv.knows_at (hinv : Inv setup s) {p : Point F} (hpoint : s.point t = p) :
    p.Knows setup s (t, s.serial t) :=
  hpoint ▸ hinv.knows t

/-- The entry that a thread is about to store in is its own and was not stored. -/
theorem Inv.storing (hinv : Inv setup s) {b : Attachment F} {entry : Entry ι F}
    (hpoint : s.point t = .storing b) (hentry : s.entries[b.sessionEntry]? = some entry) :
    entry.owner = (t, s.serial t) ∧ entry.session.value = .creating := by
  obtain ⟨⟨-, entry', hentry', howner, -, hvalue⟩, -⟩ := hinv.knows_at hpoint
  obtain rfl := Option.some.inj (hentry.symm.trans hentry')
  exact ⟨howner, hvalue⟩

end Assertions

section Steps

variable {ι F : Type} [DecidableEq ι] {setup : Setup F} {s s' : State ι F} {a : Action ι F}
  {t u : ι}

theorem conn_panic {e : Panic} {i : Nat} {conn : PtyConn ι F} (hconn : s.conns[i]? = some conn) :
    ∃ conn', (s.panic t e).conns[i]? = some conn' ∧ conn'.owner = conn.owner ∧
      conn'.sent = conn.sent := by
  unfold State.panic
  split
  · exact conn_modify unseen_close hconn
  · exact ⟨conn, hconn, rfl, rfl⟩

theorem frame_setSession {r : Reservation F}
    (hr : Reserved s (t, s.serial t) r) (hu : u ≠ t) {session : Mutex ι (Session F)} {p : Point F} :
    Frame u s ((s.setSession r.sessionEntry session).goto t p) := by
  obtain ⟨-, mine, hmine, howner, -⟩ := hr
  exact { Frame.refl u s with
    point := Function.update_of_ne hu ..
    entry := fun hentry => entry_modify hmine (by rw [howner]; exact hu.symm) hentry }

theorem Step.frame (hinv : Inv setup s) (h : Step setup s a s') (hne : a.thread ≠ some u) :
    Frame u s s' := by
  cases h with
  | @move _ t p ha h =>
      have hu : u ≠ t := fun hu => hne (hu ▸ ha)
      exact { Frame.refl u s with point := Function.update_of_ne hu .. }
  | @panic _ t e ha h =>
      have hu : u ≠ t := fun hu => hne (hu ▸ ha)
      exact { Frame.refl u s with
        point := Function.update_of_ne hu ..
        conn := fun hconn _ => conn_panic hconn }
  | @request t create pkt hpoint h =>
      have hu : u ≠ t := fun hu => hne (hu ▸ rfl)
      exact { Frame.refl u s with
        point := Function.update_of_ne hu ..
        serial := Function.update_of_ne hu ..
        requested := fun n => Function.update_of_ne (fun h => hu (congrArg Prod.fst h)) .. }
  | @lockSessions t create hpoint hfree =>
      have hu : u ≠ t := fun hu => hne (hu ▸ rfl)
      exact { Frame.refl u s with
        point := Function.update_of_ne hu ..
        sessions := fun hholds => by
          rw [hinv.holder u hholds] at hfree
          cases hfree }
  | @insert t create sessionId hpoint =>
      have hu : u ≠ t := fun hu => hne (hu ▸ rfl)
      exact { Frame.refl u s with
        point := Function.update_of_ne hu ..
        entry := fun hentry _ => getElem?_append_of_some hentry
        sessions := fun hholds => by
          have ht := hinv.holder t (by rw [hpoint]; rfl)
          rw [hinv.holder u hholds] at ht
          exact absurd (Option.some.inj ht) hu }
  | @createShell t r ptyMaster hpoint =>
      have hu : u ≠ t := fun hu => hne (hu ▸ rfl)
      exact { Frame.refl u s with
        point := Function.update_of_ne hu ..
        shells := fun n => Function.update_of_ne (fun h => hu (congrArg Prod.fst h)) .. }
  | @connect t r ptyMaster hpoint =>
      have hu : u ≠ t := fun hu => hne (hu ▸ rfl)
      exact { Frame.refl u s with
        point := Function.update_of_ne hu ..
        conn := fun hconn _ => ⟨_, getElem?_append_of_some hconn, rfl, rfl⟩ }
  | @send t k m p h =>
      have hu : u ≠ t := fun hu => hne (hu ▸ rfl)
      obtain ⟨sent, mine, hmine, howner, -⟩ := h.linked (hinv.knows t)
      exact { Frame.refl u s with
        point := Function.update_of_ne hu ..
        conn := fun hconn => conn_modify_of_ne hmine (by rw [howner]; exact hu.symm) hconn }
  | @accept t b hpoint =>
      have hu : u ≠ t := fun hu => hne (hu ▸ rfl)
      exact { Frame.refl u s with
        point := Function.update_of_ne hu ..
        conn := fun hconn _ => conn_modify unseen_dropReply hconn }
  | @refuse t b e hpoint =>
      have hu : u ≠ t := fun hu => hne (hu ▸ rfl)
      exact { Frame.refl u s with
        point := Function.update_of_ne hu ..
        conn := fun hconn _ => by
          obtain ⟨conn, hconn, howner, hsent⟩ := conn_modify unseen_dropReply hconn
          obtain ⟨conn', hconn', howner', hsent'⟩ := conn_panic (s := s.dropReply b.ptyConn) hconn
          exact ⟨conn', hconn', howner'.trans howner, hsent'.trans hsent⟩ }
  | @lockEntry t b entry hpoint hentry =>
      have hu : u ≠ t := fun hu => hne (hu ▸ rfl)
      exact frame_setSession (hinv.knows_at hpoint).1 hu
  | @store t b entry hpoint hentry hvalue =>
      have hu : u ≠ t := fun hu => hne (hu ▸ rfl)
      exact frame_setSession (hinv.knows_at hpoint).1 hu
  | @stolen t b entry hpoint hentry hvalue =>
      exact absurd (hinv.storing hpoint hentry).2 hvalue
  | @pty k b conn conn' hconn h =>
      obtain ⟨howner, hsent⟩ := h.kept
      exact { Frame.refl u s with
        conn := fun {i} {other} hother _ => by
          refine ⟨_, getElem?_modify_of_some hother, ?_⟩
          split
          · rename_i hki
            rw [← hki, hconn] at hother
            obtain rfl := Option.some.inj hother
            exact ⟨howner, hsent⟩
          · exact ⟨rfl, rfl⟩ }

/-! ## What the thread itself knows next -/

theorem Moves.knows {p p' : Point F} {id : RequestId ι} (h : Moves s p p')
    (hknows : p.Knows setup s id) : p'.Knows setup (s.goto t p') id := by
  cases h with
  | accepted => trivial
  | refused e => trivial
  | replied => trivial
  | replyFailed e => trivial
  | receiveFailed e => trivial
  | printedRequest create => exact hknows
  | occupied create => exact hknows
  | vacant create sessionId hvacant => exact ⟨hknows, hvacant⟩
  | printedId r => exact hknows

theorem Panics.knows {p : Point F} {e : Panic} {id : RequestId ι} (h : Panics s p e)
    (hknows : p.Knows setup s id) : (Point.panicked e).Knows setup (s.panic t e) id := by
  cases h with
  | printRequest create => exact nofun
  | sessionsPoisoned create h => exact nofun
  | printSessionId r => exact fun _ => hknows.abandoned
  | createShell r => exact fun _ => hknows.abandoned
  | connect r ptyMaster => exact fun _ => hknows.1.abandoned
  | greeting b e => exact fun _ => hknows.1.abandoned
  | awaitingReply b e => exact fun _ => hknows.1.abandoned
  | sendInit b e => exact fun _ => hknows.1.abandoned
  | sessionPoisoned b entry hentry h => exact nofun
  | sendNewClient create k e => exact nofun

theorem Linked.send {id : RequestId ι} {k : Nat} {sent : List (Sent F)} (h : Linked s id k sent)
    (m : Sent F) (p : Point F) : Linked (s.send t k m p) id k (sent ++ [m]) := by
  obtain ⟨conn, hconn, howner, rfl⟩ := h
  exact ⟨conn.push m, (getElem?_modify_of_some hconn).trans (by rw [if_pos rfl]), howner, rfl⟩

theorem Sends.knows {p p' : Point F} {id : RequestId ι} {k : Nat} {m : Sent F}
    (h : Sends setup p k m p') (hknows : p.Knows setup s id) :
    p'.Knows setup (s.send t k m p') id := by
  cases h with
  | hello b => exact ⟨hknows.1, hknows.2.1, hknows.2.2.send _ _⟩
  | init b => exact ⟨hknows.1, hknows.2.1, hknows.2.2.send _ _⟩
  | newClient create k => trivial

theorem Step.knows (hinv : Inv setup s) (h : Step setup s a s') (ht : a.thread = some t) :
    (s'.point t).Knows setup s' (t, s'.serial t) := by
  have hknows := hinv.knows t
  cases h with
  | @move _ u p ha h =>
      obtain rfl : u = t := Option.some.inj (ha.symm.trans ht)
      rw [State.goto_point]
      exact h.knows hknows
  | @panic _ u e ha h =>
      obtain rfl : u = t := Option.some.inj (ha.symm.trans ht)
      rw [State.panic_point]
      exact h.knows hknows
  | @request u create pkt hpoint h =>
      obtain rfl : u = t := Option.some.inj ht
      rw [State.request_point, State.request_serial]
      exact Function.update_self ..
  | @lockSessions u create hpoint hfree =>
      obtain rfl : u = t := Option.some.inj ht
      rw [hpoint] at hknows
      rw [State.goto_point]
      exact hknows
  | @insert u create sessionId hpoint =>
      obtain rfl : u = t := Option.some.inj ht
      rw [hpoint] at hknows
      rw [State.insert_point]
      exact ⟨hknows.1, _, List.getElem?_concat_length, rfl, rfl, rfl⟩
  | @createShell u r ptyMaster hpoint =>
      obtain rfl : u = t := Option.some.inj ht
      rw [hpoint] at hknows
      rw [State.createShell_point]
      exact ⟨hknows, hknows.1, Function.update_self ..⟩
  | @connect u r ptyMaster hpoint =>
      obtain rfl : u = t := Option.some.inj ht
      rw [hpoint] at hknows
      rw [State.connect_point]
      exact ⟨hknows.1, hknows.2, _, List.getElem?_concat_length, rfl, rfl⟩
  | @send u k m p h =>
      obtain rfl : u = t := Option.some.inj ht
      rw [State.send_point]
      exact h.knows hknows
  | @accept u b hpoint =>
      obtain rfl : u = t := Option.some.inj ht
      rw [hpoint] at hknows
      rw [State.goto_point]
      obtain ⟨hreserved, hstarted, conn, hconn, howner, hsent⟩ := hknows
      obtain ⟨conn', hconn', howner', hsent'⟩ := conn_modify unseen_dropReply hconn
      exact ⟨hreserved, hstarted, conn', hconn', howner'.trans howner, hsent'.trans hsent⟩
  | @refuse u b e hpoint =>
      obtain rfl : u = t := Option.some.inj ht
      rw [hpoint] at hknows
      rw [State.panic_point]
      exact fun _ => hknows.1.abandoned
  | @lockEntry u b entry hpoint hentry =>
      obtain rfl : u = t := Option.some.inj ht
      rw [hpoint] at hknows
      rw [State.goto_point]
      obtain ⟨⟨hrequested, entry', hentry', howner, hid, hvalue⟩, hrest⟩ := hknows
      obtain rfl := Option.some.inj (hentry.symm.trans hentry')
      refine ⟨⟨hrequested, _, getElem?_modify_of_some hentry, ?_⟩, hrest⟩
      rw [if_pos rfl]
      exact ⟨howner, hid, hvalue⟩
  | @store u b entry hpoint hentry hvalue =>
      obtain rfl : u = t := Option.some.inj ht
      rw [hpoint] at hknows
      rw [State.goto_point]
      exact ⟨b.ptyMaster, hknows.2⟩
  | @stolen u b entry hpoint hentry hvalue =>
      obtain rfl : u = t := Option.some.inj ht
      rw [State.panic_point]
      exact nofun
  | pty hconn h => cases ht

theorem step_knows (hinv : Inv setup s) (h : Step setup s a s') (t : ι) :
    (s'.point t).Knows setup s' (t, s'.serial t) := by
  by_cases ht : a.thread = some t
  · exact h.knows hinv ht
  · have hframe := h.frame hinv ht
    rw [hframe.point, hframe.serial]
    exact knows_frame hframe rfl (hinv.knows t)

end Steps

end TereServer.Services.Sessions
