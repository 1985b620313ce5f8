import TereServer.Lib.Mutex
import TereServer.Proto.Sessions
import TereServer.Services.PtyRun

/-!
# The sessions service

Any number of `serve_conn` threads on the map of sessions they share, and the
instances of the pty service they connect to, one for each connection.  A step
is one system call of a thread or an instance, or a part of a critical section.
Sessions and connections to the pty service are referred to by the order in
which they were made.
-/

namespace TereServer.Services.Sessions

open Lib Bincode Ipc Proto.Sessions

abbrev SessionId := {l : List (BitVec 8) // l.length = 24}

/-- The `n`-th request on the connection that a thread serves, from 1. -/
abbrev RequestId (ι : Type) := ι × Nat

structure ShellSpec where
  machine : Str
  user : Str
  program : Str
  args : List Str
  environment : List Str

inductive Session (F : Type)
  | creating
  | ready (ptyMaster : F) (ptyServiceConn : Nat)

inductive ConnError
  | handshake (e : HandshakeError)
  | receive (e : ReceiveError)

/-- The places where `serve_conn` panics. -/
inductive Panic
  | printRequest
  | sessionsPoisoned
  | printSessionId
  | createShell
  | connect
  | handshake (e : HandshakeError)
  | sendInit (e : SendError)
  | sessionPoisoned
  | stolen
  | sendNewClient (e : SendError)

/-- What stays the same in a run: the keys and identities of the two builds, and
which open files are `SOCK_SEQPACKET` sockets. -/
structure Setup (F : Type) where
  deriveKey : Str → Bytes → BuildId
  isSeqPacket : F → Bool
  identity : Str
  ptyIdentity : Str

/-! ## Connections to the pty service -/

/-- The message type that a `receive_with_fds` decodes. -/
inductive Kind
  | handshake
  | init
  | request
  deriving DecidableEq

/-- A message sent to the pty service. -/
inductive Sent (F : Type)
  | handshake (m : Handshake F)
  | init (m : Proto.Pty.Init F)
  | request (m : Proto.Pty.Request F)

section Connection

variable {ι F : Type}

def Sent.kind : Sent F → Kind
  | .handshake _ => .handshake
  | .init _ => .init
  | .request _ => .request

def Sent.packet : Sent F → Packet F
  | .handshake m => .of m
  | .init m => .of m
  | .request m => .of m

/-- What the receive at a point of the pty service decodes. -/
def receives : Pty.Point F → Option Kind
  | .handshaking => some .handshake
  | .awaitingInit => some .init
  | .serving _ => some .request
  | _ => none

/-- How `pty::serve` ends when its system call at a point fails. -/
def failure (e : IoError) : Pty.Point F → Option Pty.Exit
  | .handshaking => some (.returned (.handshake (.receive (.socket e))))
  | .replying => some (.returned (.handshake (.send (.socket e))))
  | .awaitingInit => some (.returned (.receive (.socket e)))
  | .serving _ => some (.returned (.receive (.socket e)))
  | .exited _ => none

/-- A connection to the pty service, the request it was made for and the instance
at its other end.  The queues of packets are those of the instance; the messages
sent, and the packets the instance received with the types it decoded them at,
are kept beside them. -/
structure PtyConn (ι F : Type) where
  owner : RequestId ι
  sent : List (Sent F)
  reads : List (Kind × Packet F)
  closed : Bool
  service : Pty.Service F

/-- A step of an instance, or the failure of the system call it is in. -/
inductive PtyAction
  | run (a : Pty.Action)
  | fail (e : IoError)

namespace PtyConn

def connected (owner : RequestId ι) : PtyConn ι F := ⟨owner, [], [], false, Pty.start ⟨[], []⟩⟩

def withService (conn : PtyConn ι F) (service : Pty.Service F) : PtyConn ι F :=
  { conn with service }

def push (m : Sent F) (conn : PtyConn ι F) : PtyConn ι F :=
  { conn with
    sent := conn.sent ++ [m]
    service := { conn.service with
      conn := ⟨conn.service.conn.incoming ++ [m.packet], conn.service.conn.outgoing⟩ } }

def close (conn : PtyConn ι F) : PtyConn ι F := { conn with closed := true }

/-- The next packet of the instance, or its end; `none` while there is neither. -/
def nextReply (conn : PtyConn ι F) : Option (Packet F) :=
  match conn.service.conn.outgoing, conn.service.point with
  | pkt :: _, _ => some pkt
  | [], .exited _ => some .closed
  | [], _ => none

def dropReply (conn : PtyConn ι F) : PtyConn ι F :=
  conn.withService { conn.service with
    conn := ⟨conn.service.conn.incoming, conn.service.conn.outgoing.tail⟩ }

/-- The instance is in a receive and there is nothing to receive. -/
def blocked (conn : PtyConn ι F) : Bool :=
  (receives conn.service.point).isSome && conn.service.conn.incoming.isEmpty && !conn.closed

/-- The packet that the next step of the instance receives. -/
def nextRead (conn : PtyConn ι F) : List (Kind × Packet F) :=
  match receives conn.service.point, conn.service.conn.incoming with
  | some kind, pkt :: _ => [(kind, pkt)]
  | _, _ => []

def step (setup : Setup F) (conn : PtyConn ι F) : PtyAction → Option (PtyConn ι F)
  | .run .serve =>
      if conn.blocked then none
      else (Pty.step setup.deriveKey setup.isSeqPacket setup.ptyIdentity conn.service .serve).map
        fun service => { conn with service, reads := conn.reads ++ conn.nextRead }
  | .run (.ptyIo n) =>
      (Pty.step setup.deriveKey setup.isSeqPacket setup.ptyIdentity conn.service (.ptyIo n)).map
        conn.withService
  | .fail e =>
      (failure e conn.service.point).map fun exit =>
        conn.withService { conn.service with point := .exited exit }

end PtyConn

end Connection

/-! ## Threads -/

/-- A request and the entry it has put into the map. -/
structure Reservation (F : Type) where
  create : CreateShellSession F
  sessionId : SessionId
  sessionEntry : Nat

/-- The same with the PTY and the connection to the pty service. -/
structure Attachment (F : Type) extends Reservation F where
  ptyMaster : F
  ptyConn : Nat

/-- Where `serve_conn` is, with its local variables: before a system call, before
a `lock`, in a critical section, or done. -/
inductive Point (F : Type)
  | handshaking
  | replying
  | receiving
  | printingRequest (create : CreateShellSession F)
  | lockingSessions (create : CreateShellSession F)
  | drawingId (create : CreateShellSession F)
  | inserting (create : CreateShellSession F) (sessionId : SessionId)
  | printingId (r : Reservation F)
  | creatingShell (r : Reservation F)
  | connecting (r : Reservation F) (ptyMaster : F)
  | greeting (a : Attachment F)
  | awaitingReply (a : Attachment F)
  | sendingInit (a : Attachment F)
  | lockingEntry (a : Attachment F)
  | storing (a : Attachment F)
  | sendingClient (create : CreateShellSession F) (ptyConn : Nat)
  | returned (e : ConnError)
  | panicked (e : Panic)

/-- The connection to the pty service that only the thread itself holds. -/
def Point.ptyConn {F : Type} : Point F → Option Nat
  | .greeting a => some a.ptyConn
  | .awaitingReply a => some a.ptyConn
  | .sendingInit a => some a.ptyConn
  | .lockingEntry a => some a.ptyConn
  | .storing a => some a.ptyConn
  | _ => none

/-- A session in the map and the request that inserted it. -/
structure Entry (ι F : Type) where
  owner : RequestId ι
  sessionId : SessionId
  session : Mutex ι (Session F)

/-- Beside the threads, the map and what it refers to: how many requests a thread
has received, what they were, and what `create_shell` was called with and has
returned for them. -/
structure State (ι F : Type) where
  point : ι → Point F
  serial : ι → Nat
  requested : RequestId ι → Option (CreateShellSession F)
  shells : RequestId ι → Option (ShellSpec × F)
  sessions : Mutex ι (SessionId → Option Nat)
  entries : List (Entry ι F)
  conns : List (PtyConn ι F)

/-- A step of a thread and what the system call in it returns, or a step of the
pty service instance of a connection. -/
inductive Action (ι F : Type)
  | received (t : ι) (result : Except IoError (Packet F))
  | sent (t : ι) (result : Except SendError Unit)
  | printed (t : ι) (ok : Bool)
  | lockSessions (t : ι)
  | draw (t : ι) (sessionId : SessionId)
  | insert (t : ι)
  | createShell (t : ι) (result : Option F)
  | connect (t : ι) (ok : Bool)
  | receiveReply (t : ι) (failure : Option IoError)
  | lockEntry (t : ι)
  | store (t : ι)
  | pty (k : Nat) (a : PtyAction)

/-- The thread that takes a step. -/
def Action.thread {ι F : Type} : Action ι F → Option ι
  | .received t _ => some t
  | .sent t _ => some t
  | .printed t _ => some t
  | .lockSessions t => some t
  | .draw t _ => some t
  | .insert t => some t
  | .createShell t _ => some t
  | .connect t _ => some t
  | .receiveReply t _ => some t
  | .lockEntry t => some t
  | .store t => some t
  | .pty _ _ => none

section Threads

variable {ι F : Type}

/-- What `create_shell` is called with. -/
def shellSpec (create : CreateShellSession F) : ShellSpec where
  machine :=
    match create.machine with
    | .host => ⟨".host", by decide⟩
    | .container name => name
  user := create.user
  program := ⟨"", by decide⟩
  args := []
  environment := []

def start : State ι F :=
  ⟨fun _ => .handshaking, fun _ => 0, fun _ => none, fun _ => none, .new fun _ => none, [], []⟩

def Entry.withSession (session : Mutex ι (Session F)) (entry : Entry ι F) : Entry ι F :=
  { entry with session }

/-- The client handshake that a thread accepts, or not. -/
def acceptClient (setup : Setup F) :
    (result : Except IoError (Packet F)) → Except HandshakeError Unit
  | .error e => .error (.receive (.socket e))
  | .ok pkt => Handshake.accept setup.deriveKey setup.identity clientIntent pkt

def receiveRequest : (result : Except IoError (Packet F)) → Except ReceiveError (Request F)
  | .error e => .error (.socket e)
  | .ok pkt => pkt.receiveAs Request

/-- The handshake that a thread sends to the pty service. -/
def hello (setup : Setup F) : Handshake F :=
  .new setup.deriveKey setup.identity Proto.Pty.clientIntent

def acceptPty (setup : Setup F) (pkt : Packet F) : Except HandshakeError Unit :=
  Handshake.accept setup.deriveKey setup.identity Proto.Pty.serverIntent pkt

variable [DecidableEq ι]

namespace State

def goto (s : State ι F) (t : ι) (p : Point F) : State ι F :=
  { s with point := Function.update s.point t p }

/-- A panic drops the connection to the pty service. -/
def panic (s : State ι F) (t : ι) (e : Panic) : State ι F :=
  { s with
    point := Function.update s.point t (.panicked e)
    conns :=
      match (s.point t).ptyConn with
      | some k => s.conns.modify k .close
      | none => s.conns }

def request (s : State ι F) (t : ι) (create : CreateShellSession F) : State ι F :=
  { s with
    point := Function.update s.point t (.printingRequest create)
    serial := Function.update s.serial t (s.serial t + 1)
    requested := Function.update s.requested (t, s.serial t + 1) (some create) }

def insert (s : State ι F) (t : ι) (create : CreateShellSession F) (sessionId : SessionId) :
    State ι F :=
  { s with
    point := Function.update s.point t (.printingId ⟨create, sessionId, s.entries.length⟩)
    sessions := s.sessions.release
      (Function.update s.sessions.value sessionId (some s.entries.length))
    entries := s.entries ++ [⟨(t, s.serial t), sessionId, .new .creating⟩] }

def createShell (s : State ι F) (t : ι) (r : Reservation F) (ptyMaster : F) : State ι F :=
  { s with
    point := Function.update s.point t (.connecting r ptyMaster)
    shells := Function.update s.shells (t, s.serial t) (some (shellSpec r.create, ptyMaster)) }

def connect (s : State ι F) (t : ι) (r : Reservation F) (ptyMaster : F) : State ι F :=
  { s with
    point := Function.update s.point t (.greeting ⟨r, ptyMaster, s.conns.length⟩)
    conns := s.conns ++ [.connected (t, s.serial t)] }

def send (s : State ι F) (t : ι) (k : Nat) (m : Sent F) (p : Point F) : State ι F :=
  { s with
    point := Function.update s.point t p
    conns := s.conns.modify k (.push m) }

def dropReply (s : State ι F) (k : Nat) : State ι F :=
  { s with conns := s.conns.modify k .dropReply }

def setSession (s : State ι F) (k : Nat) (session : Mutex ι (Session F)) : State ι F :=
  { s with entries := s.entries.modify k (.withSession session) }

variable (s : State ι F) (t : ι)

@[simp] theorem goto_point (p : Point F) : (s.goto t p).point t = p := Function.update_self ..

@[simp] theorem panic_point (e : Panic) : (s.panic t e).point t = .panicked e :=
  Function.update_self ..

@[simp] theorem request_point (create : CreateShellSession F) :
    (s.request t create).point t = .printingRequest create := Function.update_self ..

@[simp] theorem request_serial (create : CreateShellSession F) :
    (s.request t create).serial t = s.serial t + 1 := Function.update_self ..

@[simp] theorem insert_point (create : CreateShellSession F) (sessionId : SessionId) :
    (s.insert t create sessionId).point t = .printingId ⟨create, sessionId, s.entries.length⟩ :=
  Function.update_self ..

@[simp] theorem createShell_point (r : Reservation F) (ptyMaster : F) :
    (s.createShell t r ptyMaster).point t = .connecting r ptyMaster := Function.update_self ..

@[simp] theorem connect_point (r : Reservation F) (ptyMaster : F) :
    (s.connect t r ptyMaster).point t = .greeting ⟨r, ptyMaster, s.conns.length⟩ :=
  Function.update_self ..

@[simp] theorem send_point (k : Nat) (m : Sent F) (p : Point F) :
    (s.send t k m p).point t = p := Function.update_self ..

end State

/-! ## Steps of a thread -/

namespace State

variable (setup : Setup F) (s : State ι F) (t : ι)

def received (result : Except IoError (Packet F)) : Option (State ι F) :=
  match s.point t with
  | .handshaking =>
      match acceptClient setup result with
      | .error e => some (s.goto t (.returned (.handshake e)))
      | .ok () => some (s.goto t .replying)
  | .receiving =>
      match receiveRequest result with
      | .error e => some (s.goto t (.returned (.receive e)))
      | .ok (.createShellSession create) => some (s.request t create)
  | _ => none

def sent (result : Except SendError Unit) : Option (State ι F) :=
  match s.point t, result with
  | .replying, .error e => some (s.goto t (.returned (.handshake (.send e))))
  | .replying, .ok () => some (s.goto t .receiving)
  | .greeting _, .error e => some (s.panic t (.handshake (.send e)))
  | .greeting a, .ok () => some (s.send t a.ptyConn (.handshake (hello setup)) (.awaitingReply a))
  | .sendingInit _, .error e => some (s.panic t (.sendInit e))
  | .sendingInit a, .ok () => some (s.send t a.ptyConn (.init ⟨0, a.ptyMaster⟩) (.lockingEntry a))
  | .sendingClient _ _, .error e => some (s.panic t (.sendNewClient e))
  | .sendingClient create k, .ok () =>
      some (s.send t k (.request (.newClient 0 create.fd)) .receiving)
  | _, _ => none

def printed (ok : Bool) : Option (State ι F) :=
  match s.point t with
  | .printingRequest create =>
      some (if ok then s.goto t (.lockingSessions create) else s.panic t .printRequest)
  | .printingId r => some (if ok then s.goto t (.creatingShell r) else s.panic t .printSessionId)
  | _ => none

def lockSessions : Option (State ι F) :=
  match s.point t with
  | .lockingSessions create =>
      match s.sessions.lock t with
      | .blocked => none
      | .poisoned => some (s.panic t .sessionsPoisoned)
      | .acquired sessions => some (({ s with sessions } : State ι F).goto t (.drawingId create))
  | _ => none

/-- An id that is taken is drawn again. -/
def draw (sessionId : SessionId) : Option (State ι F) :=
  match s.point t with
  | .drawingId create =>
      match s.sessions.value sessionId with
      | some _ => some (s.goto t (.drawingId create))
      | none => some (s.goto t (.inserting create sessionId))
  | _ => none

def inserted : Option (State ι F) :=
  match s.point t with
  | .inserting create sessionId => some (s.insert t create sessionId)
  | _ => none

def shellCreated (result : Option F) : Option (State ι F) :=
  match s.point t, result with
  | .creatingShell _, none => some (s.panic t .createShell)
  | .creatingShell r, some ptyMaster => some (s.createShell t r ptyMaster)
  | _, _ => none

def connected (ok : Bool) : Option (State ι F) :=
  match s.point t with
  | .connecting r ptyMaster => some (if ok then s.connect t r ptyMaster else s.panic t .connect)
  | _ => none

def receivedReply (failure : Option IoError) : Option (State ι F) :=
  match s.point t, failure with
  | .awaitingReply _, some e => some (s.panic t (.handshake (.receive (.socket e))))
  | .awaitingReply a, none =>
      (s.conns[a.ptyConn]?.bind PtyConn.nextReply).map fun pkt =>
        match acceptPty setup pkt with
        | .error e => (s.dropReply a.ptyConn).panic t (.handshake e)
        | .ok () => (s.dropReply a.ptyConn).goto t (.sendingInit a)
  | _, _ => none

def lockEntry : Option (State ι F) :=
  match s.point t with
  | .lockingEntry a =>
      s.entries[a.sessionEntry]?.bind fun entry =>
        match entry.session.lock t with
        | .blocked => none
        | .poisoned => some (s.panic t .sessionPoisoned)
        | .acquired session => some ((s.setSession a.sessionEntry session).goto t (.storing a))
  | _ => none

def store : Option (State ι F) :=
  match s.point t with
  | .storing a =>
      s.entries[a.sessionEntry]?.map fun entry =>
        match entry.session.value with
        | .creating =>
            (s.setSession a.sessionEntry
              (entry.session.release (.ready a.ptyMaster a.ptyConn))).goto t
                (.sendingClient a.create a.ptyConn)
        | .ready _ _ => (s.setSession a.sessionEntry entry.session.poison).panic t .stolen
  | _ => none

end State

def step (setup : Setup F) (s : State ι F) : Action ι F → Option (State ι F)
  | .received t result => s.received setup t result
  | .sent t result => s.sent setup t result
  | .printed t ok => s.printed t ok
  | .lockSessions t => s.lockSessions t
  | .draw t sessionId => s.draw t sessionId
  | .insert t => s.inserted t
  | .createShell t result => s.shellCreated t result
  | .connect t ok => s.connected t ok
  | .receiveReply t failure => s.receivedReply setup t failure
  | .lockEntry t => s.lockEntry t
  | .store t => s.store t
  | .pty k a =>
      (s.conns[k]?.bind (PtyConn.step setup · a)).map fun conn =>
        { s with conns := s.conns.modify k fun _ => conn }

end Threads

end TereServer.Services.Sessions
