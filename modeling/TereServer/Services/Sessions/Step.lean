import TereServer.Services.Sessions.Connection

/-!
# The steps of the sessions service

`Step` lists what the step function does, one case for each kind of effect on
what the threads share; `step_spec` is the only place where the function itself
is taken apart.
-/

namespace TereServer.Services.Sessions

open Lib Bincode Ipc Proto.Sessions

variable {ι F : Type} [DecidableEq ι]

/-- Moves of a thread that change nothing it shares. -/
inductive Moves (s : State ι F) : Point F → Point F → Prop
  | accepted : Moves s .handshaking .replying
  | refused (e : ConnError) : Moves s .handshaking (.returned e)
  | replied : Moves s .replying .receiving
  | replyFailed (e : ConnError) : Moves s .replying (.returned e)
  | receiveFailed (e : ConnError) : Moves s .receiving (.returned e)
  | printedRequest (create : CreateShellSession F) :
      Moves s (.printingRequest create) (.lockingSessions create)
  | occupied (create : CreateShellSession F) : Moves s (.drawingId create) (.drawingId create)
  | vacant (create : CreateShellSession F) (sessionId : SessionId)
      (h : s.sessions.value sessionId = none) :
      Moves s (.drawingId create) (.inserting create sessionId)
  | printedId (r : Reservation F) : Moves s (.printingId r) (.creatingShell r)

/-- The panics of a thread that holds no mutex. -/
inductive Panics (s : State ι F) : Point F → Panic → Prop
  | printRequest (create : CreateShellSession F) : Panics s (.printingRequest create) .printRequest
  | sessionsPoisoned (create : CreateShellSession F) (h : s.sessions.poisoned = true) :
      Panics s (.lockingSessions create) .sessionsPoisoned
  | printSessionId (r : Reservation F) : Panics s (.printingId r) .printSessionId
  | createShell (r : Reservation F) : Panics s (.creatingShell r) .createShell
  | connect (r : Reservation F) (ptyMaster : F) : Panics s (.connecting r ptyMaster) .connect
  | greeting (a : Attachment F) (e : HandshakeError) : Panics s (.greeting a) (.handshake e)
  | awaitingReply (a : Attachment F) (e : HandshakeError) :
      Panics s (.awaitingReply a) (.handshake e)
  | sendInit (a : Attachment F) (e : SendError) : Panics s (.sendingInit a) (.sendInit e)
  | sessionPoisoned (a : Attachment F) (entry : Entry ι F)
      (hentry : s.entries[a.sessionEntry]? = some entry) (h : entry.session.poisoned = true) :
      Panics s (.lockingEntry a) .sessionPoisoned
  | sendNewClient (create : CreateShellSession F) (k : Nat) (e : SendError) :
      Panics s (.sendingClient create k) (.sendNewClient e)

/-- The messages to the pty service. -/
inductive Sends (setup : Setup F) : Point F → Nat → Sent F → Point F → Prop
  | hello (a : Attachment F) : Sends setup (.greeting a) a.ptyConn
      (.handshake (hello setup)) (.awaitingReply a)
  | init (a : Attachment F) : Sends setup (.sendingInit a) a.ptyConn
      (.init ⟨0, a.ptyMaster⟩) (.lockingEntry a)
  | newClient (create : CreateShellSession F) (k : Nat) : Sends setup (.sendingClient create k) k
      (.request (.newClient 0 create.fd)) .receiving

inductive Step (setup : Setup F) (s : State ι F) : Action ι F → State ι F → Prop
  | move {a : Action ι F} {t : ι} {p : Point F} (ha : a.thread = some t)
      (h : Moves s (s.point t) p) : Step setup s a (s.goto t p)
  | panic {a : Action ι F} {t : ι} {e : Panic} (ha : a.thread = some t)
      (h : Panics s (s.point t) e) : Step setup s a (s.panic t e)
  | request {t : ι} {create : CreateShellSession F} {pkt : Packet F}
      (hpoint : s.point t = .receiving)
      (h : pkt.receiveAs Request = .ok (.createShellSession create)) :
      Step setup s (.received t (.ok pkt)) (s.request t create)
  | lockSessions {t : ι} {create : CreateShellSession F} (hpoint : s.point t = .lockingSessions create)
      (hfree : s.sessions.holder = none) : Step setup s (.lockSessions t)
        (({ s with sessions := { s.sessions with holder := some t } } : State ι F).goto t
          (.drawingId create))
  | insert {t : ι} {create : CreateShellSession F} {sessionId : SessionId}
      (hpoint : s.point t = .inserting create sessionId) :
      Step setup s (.insert t) (s.insert t create sessionId)
  | createShell {t : ι} {r : Reservation F} {ptyMaster : F}
      (hpoint : s.point t = .creatingShell r) :
      Step setup s (.createShell t (some ptyMaster)) (s.createShell t r ptyMaster)
  | connect {t : ι} {r : Reservation F} {ptyMaster : F}
      (hpoint : s.point t = .connecting r ptyMaster) :
      Step setup s (.connect t true) (s.connect t r ptyMaster)
  | send {t : ι} {k : Nat} {m : Sent F} {p : Point F} (h : Sends setup (s.point t) k m p) :
      Step setup s (.sent t (.ok ())) (s.send t k m p)
  | accept {t : ι} {a : Attachment F} (hpoint : s.point t = .awaitingReply a) :
      Step setup s (.receiveReply t none) ((s.dropReply a.ptyConn).goto t (.sendingInit a))
  | refuse {t : ι} {a : Attachment F} {e : HandshakeError} (hpoint : s.point t = .awaitingReply a) :
      Step setup s (.receiveReply t none) ((s.dropReply a.ptyConn).panic t (.handshake e))
  | lockEntry {t : ι} {a : Attachment F} {entry : Entry ι F}
      (hpoint : s.point t = .lockingEntry a) (hentry : s.entries[a.sessionEntry]? = some entry) :
      Step setup s (.lockEntry t)
        ((s.setSession a.sessionEntry { entry.session with holder := some t }).goto t (.storing a))
  | store {t : ι} {a : Attachment F} {entry : Entry ι F} (hpoint : s.point t = .storing a)
      (hentry : s.entries[a.sessionEntry]? = some entry) (hvalue : entry.session.value = .creating) :
      Step setup s (.store t) ((s.setSession a.sessionEntry
        (entry.session.release (.ready a.ptyMaster a.ptyConn))).goto t
          (.sendingClient a.create a.ptyConn))
  | stolen {t : ι} {a : Attachment F} {entry : Entry ι F} (hpoint : s.point t = .storing a)
      (hentry : s.entries[a.sessionEntry]? = some entry) (hvalue : entry.session.value ≠ .creating) :
      Step setup s (.store t)
        ((s.setSession a.sessionEntry entry.session.poison).panic t .stolen)
  | pty {k : Nat} {a : PtyAction} {conn conn' : PtyConn ι F} (hconn : s.conns[k]? = some conn)
      (h : PtyConn.Step setup conn conn') :
      Step setup s (.pty k a) { s with conns := s.conns.modify k fun _ => conn' }

variable {setup : Setup F} {s s' : State ι F} {a : Action ι F} {t : ι}

theorem received_spec {result : Except IoError (Packet F)}
    (h : s.received setup t result = some s') : Step setup s (.received t result) s' := by
  simp only [State.received] at h
  split at h
  · rename_i hpoint
    split at h
    · rename_i e _
      cases h
      exact .move rfl (hpoint ▸ .refused (.handshake e))
    · cases h
      exact .move rfl (hpoint ▸ .accepted)
  · rename_i hpoint
    split at h
    · rename_i e _
      cases h
      exact .move rfl (hpoint ▸ .receiveFailed (.receive e))
    · rename_i create hreceive
      cases h
      cases result with
      | error e => cases hreceive
      | ok pkt => exact .request hpoint hreceive
  · cases h

theorem sent_spec {result : Except SendError Unit}
    (h : s.sent setup t result = some s') : Step setup s (.sent t result) s' := by
  simp only [State.sent] at h
  split at h
  · rename_i e hpoint
    cases h
    exact .move rfl (hpoint ▸ .replyFailed (.handshake (.send e)))
  · rename_i hpoint
    cases h
    exact .move rfl (hpoint ▸ .replied)
  · rename_i a e hpoint
    cases h
    exact .panic rfl (hpoint ▸ .greeting a (.send e))
  · rename_i a hpoint
    cases h
    exact .send (hpoint ▸ .hello a)
  · rename_i a e hpoint
    cases h
    exact .panic rfl (hpoint ▸ .sendInit a e)
  · rename_i a hpoint
    cases h
    exact .send (hpoint ▸ .init a)
  · rename_i create k e hpoint
    cases h
    exact .panic rfl (hpoint ▸ .sendNewClient create k e)
  · rename_i create k hpoint
    cases h
    exact .send (hpoint ▸ .newClient create k)
  · cases h

theorem printed_spec {ok : Bool} (h : s.printed t ok = some s') :
    Step setup s (.printed t ok) s' := by
  simp only [State.printed] at h
  split at h
  · rename_i create hpoint
    cases ok with
    | true =>
        cases h
        exact .move rfl (hpoint ▸ .printedRequest create)
    | false =>
        cases h
        exact .panic rfl (hpoint ▸ .printRequest create)
  · rename_i r hpoint
    cases ok with
    | true =>
        cases h
        exact .move rfl (hpoint ▸ .printedId r)
    | false =>
        cases h
        exact .panic rfl (hpoint ▸ .printSessionId r)
  · cases h

theorem lockSessions_spec (h : s.lockSessions t = some s') :
    Step setup s (.lockSessions t) s' := by
  simp only [State.lockSessions] at h
  split at h
  · rename_i create hpoint
    split at h
    · cases h
    · rename_i hlock
      cases h
      exact .panic rfl (hpoint ▸ .sessionsPoisoned create (Mutex.lock_eq_poisoned hlock))
    · rename_i sessions hlock
      obtain ⟨hfree, rfl⟩ := Mutex.lock_eq_acquired hlock
      cases h
      exact .lockSessions hpoint hfree
  · cases h

theorem draw_spec {sessionId : SessionId} (h : s.draw t sessionId = some s') :
    Step setup s (.draw t sessionId) s' := by
  simp only [State.draw] at h
  split at h
  · rename_i create hpoint
    split at h
    · cases h
      exact .move rfl (by rw [hpoint]; exact .occupied create)
    · rename_i hvacant
      cases h
      exact .move rfl (hpoint ▸ .vacant create sessionId hvacant)
  · cases h

theorem insert_spec (h : s.inserted t = some s') : Step setup s (.insert t) s' := by
  simp only [State.inserted] at h
  split at h
  · rename_i hpoint
    cases h
    exact .insert hpoint
  · cases h

theorem createShell_spec {result : Option F} (h : s.shellCreated t result = some s') :
    Step setup s (.createShell t result) s' := by
  simp only [State.shellCreated] at h
  split at h
  · rename_i r hpoint
    cases h
    exact .panic rfl (hpoint ▸ .createShell r)
  · rename_i hpoint
    cases h
    exact .createShell hpoint
  · cases h

theorem connect_spec {ok : Bool} (h : s.connected t ok = some s') :
    Step setup s (.connect t ok) s' := by
  simp only [State.connected] at h
  split at h
  · rename_i r ptyMaster hpoint
    cases ok with
    | true =>
        cases h
        exact .connect hpoint
    | false =>
        cases h
        exact .panic rfl (hpoint ▸ .connect r ptyMaster)
  · cases h

theorem receiveReply_spec {failure : Option IoError}
    (h : s.receivedReply setup t failure = some s') :
    Step setup s (.receiveReply t failure) s' := by
  simp only [State.receivedReply] at h
  split at h
  · rename_i a e hpoint
    cases h
    exact .panic rfl (hpoint ▸ .awaitingReply a (.receive (.socket e)))
  · rename_i a hpoint
    obtain ⟨pkt, -, h⟩ := Option.map_eq_some_iff.1 h
    split at h
    · cases h
      exact .refuse hpoint
    · cases h
      exact .accept hpoint
  · cases h

theorem lockEntry_spec (h : s.lockEntry t = some s') :
    Step setup s (.lockEntry t) s' := by
  simp only [State.lockEntry] at h
  split at h
  · rename_i a hpoint
    obtain ⟨entry, hentry, h⟩ := Option.bind_eq_some_iff.1 h
    split at h
    · cases h
    · rename_i hlock
      cases h
      exact .panic rfl (hpoint ▸ .sessionPoisoned a entry hentry (Mutex.lock_eq_poisoned hlock))
    · rename_i session hlock
      obtain ⟨-, rfl⟩ := Mutex.lock_eq_acquired hlock
      cases h
      exact .lockEntry hpoint hentry
  · cases h

theorem store_spec (h : s.store t = some s') : Step setup s (.store t) s' := by
  simp only [State.store] at h
  split at h
  · rename_i a hpoint
    obtain ⟨entry, hentry, h⟩ := Option.map_eq_some_iff.1 h
    split at h
    · rename_i hvalue
      cases h
      exact .store hpoint hentry hvalue
    · rename_i hvalue
      cases h
      exact .stolen hpoint hentry (by simp [hvalue])
  · cases h

theorem step_spec (h : step setup s a = some s') : Step setup s a s' := by
  cases a with
  | received t result => exact received_spec h
  | sent t result => exact sent_spec h
  | printed t ok => exact printed_spec h
  | lockSessions t => exact lockSessions_spec h
  | draw t sessionId => exact draw_spec h
  | insert t => exact insert_spec h
  | createShell t result => exact createShell_spec h
  | connect t ok => exact connect_spec h
  | receiveReply t failure => exact receiveReply_spec h
  | lockEntry t => exact lockEntry_spec h
  | store t => exact store_spec h
  | pty k a =>
      obtain ⟨conn', hconn', rfl⟩ := Option.map_eq_some_iff.1 h
      obtain ⟨conn, hconn, hstep⟩ := Option.bind_eq_some_iff.1 hconn'
      exact .pty hconn (PtyConn.step_spec hstep)

end TereServer.Services.Sessions
