import TereServer.Proto.Limits
import TereServer.Services.Sessions.Step

/-!
# Steps that are taken

What the steps do whose system calls succeed and whose packets are accepted, and with
them the run in which the request of the debug client is served.
-/

namespace TereServer.Services.Sessions

open Lib Bincode Ipc Proto.Sessions

section Progress

variable {ι F : Type} [DecidableEq ι] {setup : Setup F} {s : State ι F} {t : ι}
  {create : CreateShellSession F} {sessionId : SessionId} {r : Reservation F} {b : Attachment F}
  {entry : Entry ι F}

theorem step_accepted {result : Except IoError (Packet F)} (hpoint : s.point t = .handshaking)
    (h : acceptClient setup result = .ok ()) :
    step setup s (.received t result) = some (s.goto t .replying) := by
  simp only [step, State.received, hpoint, h]

theorem step_requested {result : Except IoError (Packet F)}
    (hpoint : s.point t = .receiving)
    (h : receiveRequest result = .ok (.createShellSession create)) :
    step setup s (.received t result) = some (s.request t create) := by
  simp only [step, State.received, hpoint, h]

theorem step_printedRequest (hpoint : s.point t = .printingRequest create) :
    step setup s (.printed t true) = some (s.goto t (.lockingSessions create)) := by
  simp only [step, State.printed, hpoint, if_true]

theorem step_lockSessions (hpoint : s.point t = .lockingSessions create)
    (hfree : s.sessions.holder = none) (hclean : s.sessions.poisoned = false) :
    step setup s (.lockSessions t) =
      some (({ s with sessions := { s.sessions with holder := some t } } : State ι F).goto t
        (.drawingId create)) := by
  have hlock : s.sessions.lock t = .acquired { s.sessions with holder := some t } := by
    simp [Mutex.lock, hfree, hclean]
  simp only [step, State.lockSessions, hpoint, hlock]

theorem step_draw (hpoint : s.point t = .drawingId create)
    (hfree : s.sessions.value sessionId = none) :
    step setup s (.draw t sessionId) = some (s.goto t (.inserting create sessionId)) := by
  simp only [step, State.draw, hpoint, hfree]

theorem step_insert (hpoint : s.point t = .inserting create sessionId) :
    step setup s (.insert t) = some (s.insert t create sessionId) := by
  simp only [step, State.inserted, hpoint]

theorem step_printedId (hpoint : s.point t = .printingId r) :
    step setup s (.printed t true) = some (s.goto t (.creatingShell r)) := by
  simp only [step, State.printed, hpoint, if_true]

theorem step_createShell (hpoint : s.point t = .creatingShell r) (pty : F) :
    step setup s (.createShell t (some pty)) = some (s.createShell t r pty) := by
  simp only [step, State.shellCreated, hpoint]

theorem step_connect {ptyMaster : F} (hpoint : s.point t = .connecting r ptyMaster) :
    step setup s (.connect t true) = some (s.connect t r ptyMaster) := by
  simp only [step, State.connected, hpoint, if_true]

theorem step_sentHello (hpoint : s.point t = .greeting b) : step setup s (.sent t (.ok ())) =
    some (s.send t b.ptyConn (.handshake (hello setup)) (.awaitingReply b)) := by
  simp only [step, State.sent, hpoint]

theorem step_sentInit (hpoint : s.point t = .sendingInit b) : step setup s (.sent t (.ok ())) =
    some (s.send t b.ptyConn (.init ⟨0, b.ptyMaster⟩) (.lockingEntry b)) := by
  simp only [step, State.sent, hpoint]

theorem step_lockEntry (hpoint : s.point t = .lockingEntry b)
    (hentry : s.entries[b.sessionEntry]? = some entry) (hfree : entry.session.holder = none)
    (hclean : entry.session.poisoned = false) :
    step setup s (.lockEntry t) = some ((s.setSession b.sessionEntry
      { entry.session with holder := some t }).goto t (.storing b)) := by
  have hlock : entry.session.lock t = .acquired { entry.session with holder := some t } := by
    simp [Mutex.lock, hfree, hclean]
  simp only [step, State.lockEntry, hpoint, hentry, Option.bind_some, hlock]

theorem step_store (hpoint : s.point t = .storing b)
    (hentry : s.entries[b.sessionEntry]? = some entry) (hvalue : entry.session.value = .creating) :
    step setup s (.store t) = some ((s.setSession b.sessionEntry
      (entry.session.release (.ready b.ptyMaster b.ptyConn))).goto t
        (.sendingClient b.create b.ptyConn)) := by
  simp only [step, State.store, hpoint, hentry, Option.map_some, hvalue]

theorem step_sentClient {k : Nat} (hpoint : s.point t = .sendingClient create k) :
    step setup s (.sent t (.ok ())) =
      some (s.send t k (.request (.newClient 0 create.fd)) .receiving) := by
  simp only [step, State.sent, hpoint]

theorem step_replied {a : Attachment F} {conn : PtyConn ι F} {pkt : Packet F}
    (hpoint : s.point t = .awaitingReply a) (hconn : s.conns[a.ptyConn]? = some conn)
    (hreply : conn.nextReply = some pkt) (h : acceptPty setup pkt = .ok ()) :
    step setup s (.receiveReply t none) =
      some ((s.dropReply a.ptyConn).goto t (.sendingInit a)) := by
  simp only [step, State.receivedReply, hpoint, hconn, Option.bind_some, hreply, Option.map_some, h]

theorem step_received {k : Nat} {conn : PtyConn ι F} {kind : Kind} {pkt : Packet F}
    {rest : List (Packet F)} {p : Pty.Point F} {events : List (Pty.Event F)}
    (hconn : s.conns[k]? = some conn) (hkind : receives conn.service.point = some kind)
    (hincoming : conn.service.conn.incoming = pkt :: rest)
    (h : received setup conn.service.point pkt = (p, events)) :
    step setup s (.pty k (.run .serve)) = some { s with
      conns := s.conns.modify k fun _ => { conn with
        reads := conn.reads ++ [(kind, pkt)]
        service := ⟨p, ⟨rest, conn.service.conn.outgoing⟩, conn.service.events ++ events⟩ } } := by
  simp only [step, hconn, Option.bind_some, PtyConn.step_receive hkind hincoming, Option.map_some,
    PtyConn.receive, h]

end Progress

/-! ## The request of the debug client -/

/-- What `blake3::derive_key` returns at the intents and the identity below. -/
def servicesDeriveKey (context : Str) (keyMaterial : Bytes) : BuildId :=
  if keyMaterial ≠ strBytes testIdentity then testDeriveKey context keyMaterial
  else if context = clientIntent then
    ⟨[0xfa, 0xab, 0x4e, 0x11, 0xc0, 0xde, 0x3c, 0xf0, 0x31, 0x91, 0xf4, 0x24, 0xd8, 0x4f, 0xf5,
      0xab, 0xad, 0x3e, 0x9b, 0x68, 0xf3, 0xec, 0x3b, 0x4e, 0xb9, 0xef, 0x78, 0x83, 0x3d, 0x94,
      0x08, 0xed], rfl⟩
  else if context = Proto.Pty.clientIntent then
    ⟨[0xc9, 0x95, 0x70, 0x18, 0x1d, 0x13, 0x33, 0x33, 0x1f, 0xff, 0x3a, 0xfd, 0x95, 0x31, 0x19,
      0x5e, 0xe9, 0x59, 0xe8, 0x3b, 0xff, 0x4e, 0x1e, 0xdf, 0xbd, 0xd4, 0x06, 0x29, 0x4a, 0xfb,
      0x0b, 0xf9], rfl⟩
  else if context = Proto.Pty.serverIntent then
    ⟨[0xed, 0x36, 0xdd, 0x25, 0xd4, 0xb6, 0xe4, 0x8a, 0xd2, 0x4e, 0x88, 0x6e, 0x1b, 0xcf, 0x29,
      0xdc, 0x5f, 0x74, 0x0f, 0x99, 0xf2, 0xd3, 0x34, 0xc0, 0x92, 0x77, 0x3b, 0x66, 0xea, 0xd3,
      0x81, 0xcf], rfl⟩
  else testDeriveKey context keyMaterial

def testSetup : Setup Nat := ⟨servicesDeriveKey, fun _ => true, testIdentity, testIdentity⟩

def testCreate : CreateShellSession Nat :=
  ⟨7, .host, ⟨"testuser", by decide⟩, none, none, none⟩

def testId : SessionId := ⟨List.replicate 24 0, rfl⟩

def testClient : Packet Nat :=
  .of (Handshake.new testSetup.deriveKey testSetup.identity clientIntent : Handshake Nat)

def testRequest : Packet Nat := .of (Request.createShellSession testCreate)

theorem testClient_accepted : acceptClient testSetup (.ok testClient) = .ok () := by
  have hfits : (Handshake.new testSetup.deriveKey testSetup.identity clientIntent :
    Handshake Nat).Fits := by decide
  unfold acceptClient testClient
  exact Handshake.accept_self hfits

theorem testRequest_received :
    receiveRequest (.ok testRequest) = .ok (.createShellSession testCreate) := by
  have hsized : testRequest.Sized (Serde.message Request) := by
    unfold Packet.Sized
    decide
  have hfits : testRequest.Fits libcCmsgSpace (Serde.message Request) := by
    unfold Packet.Fits
    decide
  exact Packet.receiveAs_of_eq_ok.2 ⟨hsized, hfits, rfl⟩

theorem testHello_accepted : Handshake.accept testSetup.deriveKey testSetup.ptyIdentity
    Proto.Pty.clientIntent (Packet.of (hello testSetup)) = .ok () := by
  have hfits : (hello testSetup).Fits := by decide
  exact Handshake.accept_self hfits

theorem testHello_received : received testSetup .handshaking (Packet.of (hello testSetup)) =
    (.replying, [.handshakeAccepted]) := by
  simp only [received, Pty.Point.received, testHello_accepted]

theorem testPtyReply_accepted : acceptPty testSetup (ptyReply testSetup) = .ok () := by
  have hfits : (Handshake.new testSetup.deriveKey testSetup.identity Proto.Pty.serverIntent :
    Handshake Nat).Fits := by decide
  unfold acceptPty ptyReply
  exact Handshake.accept_self hfits

def testInit : Proto.Pty.Init Nat := ⟨0, 5⟩

def testNewClient : Proto.Pty.Request Nat := .newClient 0 7

theorem testInit_received : received testSetup .awaitingInit (Packet.of testInit) =
    (.serving 5, [.initAccepted 5]) := by
  have hreceive : (Packet.of testInit).receiveAs Proto.Pty.Init = .ok testInit :=
    Proto.ptyInit_received 0 5
  simp only [received, Pty.Point.received, hreceive]
  rfl

theorem testNewClient_received : received testSetup (.serving 5) (Packet.of testNewClient) =
    (.serving 5, [.userStarted 5 7]) := by
  have hreceive : (Packet.of testNewClient).receiveAs Proto.Pty.Request = .ok testNewClient :=
    Proto.newClient_received 0 7
  simp only [received, Pty.Point.received, hreceive]
  rfl

/-- Up to the call of `create_shell`. -/
def testReserving : List (Action Unit Nat) :=
  [.received () (.ok testClient), .sent () (.ok ()), .received () (.ok testRequest),
    .printed () true, .lockSessions (), .draw () testId, .insert (), .printed () true]

def testConnecting : List (Action Unit Nat) :=
  [.createShell () (some 5), .connect () true, .sent () (.ok ()), .pty 0 (.run .serve),
    .pty 0 (.run .serve), .receiveReply () none, .sent () (.ok ()), .lockEntry ()]

def testServing : List (Action Unit Nat) :=
  [.sent () (.ok ()), .pty 0 (.run .serve), .pty 0 (.run .serve)]

/-- The session is stored in the step from `s` to `s'`, and the client is served
at the end. -/
theorem testRun : ∃ s s' s'' entry entry' conn,
    run (step testSetup) (testReserving ++ testConnecting) start = some s ∧
    step testSetup s (.store ()) = some s' ∧ run (step testSetup) testServing s' = some s'' ∧
    s.entries[0]? = some entry ∧ entry.session.value = .creating ∧
    s'.entries[0]? = some entry' ∧ entry'.session.value = .ready 5 0 ∧
    s''.conns[0]? = some conn ∧ Pty.users conn.service.events = [(5, 7)] :=
  ⟨_, _, _, _, _, _,
    run_append_eq_some.2 ⟨_,
      run_cons_eq_some.2 ⟨_, step_accepted rfl testClient_accepted,
      run_cons_eq_some.2 ⟨_, rfl,
      run_cons_eq_some.2 ⟨_, step_requested rfl testRequest_received, rfl⟩⟩⟩,
      run_cons_eq_some.2 ⟨_, rfl,
      run_cons_eq_some.2 ⟨_, rfl,
      run_cons_eq_some.2 ⟨_, rfl,
      run_cons_eq_some.2 ⟨_, step_received rfl rfl rfl testHello_received,
      run_cons_eq_some.2 ⟨_, rfl,
      run_cons_eq_some.2 ⟨_, step_replied rfl rfl rfl testPtyReply_accepted, rfl⟩⟩⟩⟩⟩⟩⟩,
    rfl,
    run_cons_eq_some.2 ⟨_, rfl,
    run_cons_eq_some.2 ⟨_, step_received rfl rfl rfl testInit_received,
    run_cons_eq_some.2 ⟨_, step_received rfl rfl rfl testNewClient_received, rfl⟩⟩⟩,
    rfl, rfl, rfl, rfl, rfl, rfl⟩

end TereServer.Services.Sessions
