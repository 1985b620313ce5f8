import TereServer.Ipc.Handshake
import TereServer.Lib.Components
import TereServer.Proto.PtyUser

/-!
# Users of a PTY

Any number of `serve_user` calls on one PTY.  Each is the thread of the call and the
two threads it starts, on the connection to its client; a step is one system call of
one of them, whose outcome is part of the action.  The PTY is the object they all
share: what is read from it and written to it is logged.
-/

namespace TereServer.Services.PtyUser

open Lib Bincode Ipc Proto.PtyUser

/-- The errors of PTY I/O: those of the system, and that of `write_all` when a write
takes no byte. -/
inductive PtyIoError
  | os (e : IoError)
  | writeZero
  deriving DecidableEq

inductive ServeUserError
  | handshake (e : HandshakeError)
  | receive (e : ReceiveError)
  | send (e : SendError)
  | socketShutdown (e : IoError)
  | ptyIo (e : PtyIoError)
  deriving DecidableEq

/-- What `join` returns for a thread that has ended. -/
inductive Joined
  | panicked
  | returned (result : Except ServeUserError Unit)

abbrev Data := List (BitVec 8)

/-- What a read leaves in a buffer of 1024 bytes. -/
abbrev Chunk := {l : Data // l.length ≤ 1024}

/-- What a thread does to the PTY. -/
inductive Transfer
  | read (bytes : Data)
  | wrote (bytes : Data)

/-- What one read has returned. -/
def Transfer.readChunk : Transfer → Option Data
  | .read bytes => some bytes
  | .wrote _ => none

def Transfer.readBytes : Transfer → Data
  | .read bytes => bytes
  | .wrote _ => []

def Transfer.wroteBytes : Transfer → Data
  | .read _ => []
  | .wrote bytes => bytes

def EINTR : Nat := 4

def EIO : Nat := 5

/-! ## The connection to a client -/

/-- The service's end: the packets it has not received yet and those it has, whether
the client has closed its end and the service its read side, and what was sent to the
client. -/
structure Socket (F : Type) where
  incoming : List (Packet F)
  received : List (Packet F)
  closed : Bool
  readShutdown : Bool
  outgoing : List (Packet F)

inductive ClientAction (F : Type)
  | send (pkt : Packet F)
  | close

namespace Socket

variable {F : Type}

def connected : Socket F := ⟨[], [], false, false, []⟩

/-- All that the client has sent. -/
def sent (socket : Socket F) : List (Packet F) := socket.received ++ socket.incoming

def client (socket : Socket F) : ClientAction F → Option (Socket F)
  | .send pkt =>
      if socket.closed || socket.readShutdown then none
      else some { socket with incoming := socket.incoming ++ [pkt] }
  | .close => some { socket with closed := true }

/-- A `recvmsg` that may fail, and else gets the next packet, or what stands for the
end; `none` while there is neither. -/
def recv (socket : Socket F) : (failure : Option IoError) →
    Option (Except IoError (Packet F) × Socket F)
  | some e => some (.error e, socket)
  | none =>
      match socket.incoming with
      | pkt :: incoming =>
          some (.ok pkt, { socket with incoming, received := socket.received ++ [pkt] })
      | [] => if socket.closed || socket.readShutdown then some (.ok .closed, socket) else none

def push (socket : Socket F) (pkt : Packet F) : Socket F :=
  { socket with outgoing := socket.outgoing ++ [pkt] }

end Socket

/-! ## The input thread -/

/-- Before its start, before a receive, before a write of `write_all`, and done. -/
inductive InputThread
  | notStarted
  | receiving
  | writing (left : Data)
  | ended (joined : Joined)

inductive InputAction
  | receive (failure : Option IoError)
  | write (result : Except IoError Nat)
  | panic

namespace InputThread

variable {F : Type}

/-- `write_all` with `left` to be written, and the loop once there is nothing left. -/
def writeAll (left : Data) : InputThread := if left.isEmpty then .receiving else .writing left

def received (result : Except IoError (Packet F)) : InputThread :=
  match result with
  | .error e => .ended (.returned (.error (.receive (.socket e))))
  | .ok pkt =>
      match pkt.receiveAs Input with
      | .error e => .ended (.returned (.error (.receive e)))
      | .ok (.keyboardInput input) => writeAll input.1

/-- A write of `left` takes no more than there is. -/
def wrote (left : Data) : (result : Except IoError Nat) → Option (InputThread × List Transfer)
  | .ok 0 => some (.ended (.returned (.error (.ptyIo .writeZero))), [])
  | .ok (n + 1) =>
      if n + 1 ≤ left.length then some (writeAll (left.drop (n + 1)), [.wrote (left.take (n + 1))])
      else none
  | .error e =>
      if e.errno = EINTR then some (.writing left, [])
      else some (.ended (.returned (.error (.ptyIo (.os e)))), [])

def step (input : InputThread) (socket : Socket F) :
    InputAction → Option (InputThread × Socket F × List Transfer)
  | .receive failure =>
      match input with
      | .receiving => (socket.recv failure).map fun r => (received r.1, r.2, [])
      | _ => none
  | .write result =>
      match input with
      | .writing left => (wrote left result).map fun r => (r.1, socket, r.2)
      | _ => none
  | .panic =>
      match input with
      | .receiving => some (.ended .panicked, socket, [])
      | .writing _ => some (.ended .panicked, socket, [])
      | _ => none

end InputThread

/-! ## The output thread -/

/-- Before its start, before a read, before a send, and done. -/
inductive OutputThread
  | notStarted
  | reading
  | sending (buf : Chunk)
  | ended (joined : Joined)

inductive OutputAction
  | read (result : Except IoError Chunk)
  | send (result : Except IoError Unit)
  | panic

theorem chunk_length_lt (buf : Chunk) : buf.1.length < 2 ^ 64 := by
  have hle := buf.2
  omega

/-- The message that a chunk is sent as. -/
def sessionOutput {F : Type} (buf : Chunk) : Output F := .sessionOutput ⟨buf.1, chunk_length_lt buf⟩

/-- The first bytes of a buffer overwritten by a read. -/
def fill (buf chunk : Data) : Data := chunk ++ buf.drop chunk.length

theorem take_fill (buf chunk : Data) : (fill buf chunk).take chunk.length = chunk := by
  rw [fill, List.take_left']
  rfl

theorem length_take_fill_le (chunk : Chunk) :
    ((fill (List.replicate 1024 0) chunk.1).take chunk.1.length).length ≤ 1024 := by
  rw [take_fill]
  exact chunk.2

namespace OutputThread

variable {F : Type}

/-- A read into a new buffer, which is truncated to what was read. -/
def received (chunk : Chunk) : OutputThread :=
  .sending ⟨(fill (List.replicate 1024 0) chunk.1).take chunk.1.length, length_take_fill_le chunk⟩

theorem received_eq (chunk : Chunk) : received chunk = .sending chunk := by
  unfold received
  congr 1
  exact Subtype.ext (take_fill _ _)

/-- `EIO` is a regular end. -/
def failed (e : IoError) : OutputThread :=
  if e.errno = EIO then .ended (.returned (.ok ()))
  else .ended (.returned (.error (.ptyIo (.os e))))

def step (output : OutputThread) (socket : Socket F) :
    OutputAction → Option (OutputThread × Socket F × List Transfer)
  | .read result =>
      match output, result with
      | .reading, .ok chunk => some (received chunk, socket, [.read chunk.1])
      | .reading, .error e => some (failed e, socket, [])
      | _, _ => none
  | .send result =>
      match output, result with
      | .sending buf, .ok () => some (.reading, socket.push (.of (sessionOutput buf)), [])
      | .sending _, .error e => some (.ended (.returned (.error (.send (.socket e)))), socket, [])
      | _, _ => none
  | .panic =>
      match output with
      | .reading => some (.ended .panicked, socket, [])
      | .sending _ => some (.ended .panicked, socket, [])
      | _ => none

end OutputThread

/-! ## The call -/

/-- The places where `serve_user` panics. -/
inductive Panic
  | spawnInput
  | spawnOutput
  | outputPanicked
  | print
  | inputPanicked
  deriving DecidableEq

/-- Before the receive and the send of the handshake, the start of the two threads,
the join of the output thread, the print, the shutdown and the join of the input
thread, and done. -/
inductive Main
  | handshaking
  | replying
  | spawningInput
  | spawningOutput
  | joiningOutput
  | printing
  | shuttingDown
  | joiningInput
  | returned (result : Except ServeUserError Unit)
  | panicked (e : Panic)

inductive MainAction
  | receive (failure : Option IoError)
  | send (result : Except IoError Unit)
  | spawnInput (ok : Bool)
  | spawnOutput (ok : Bool)
  | joinOutput
  | print (ok : Bool)
  | shutdown (result : Except IoError Unit)
  | joinInput

structure User (F : Type) where
  main : Main
  input : InputThread
  output : OutputThread
  socket : Socket F

/-- A step of the client, of the call, or of one of its threads. -/
inductive Action (F : Type)
  | client (a : ClientAction F)
  | main (a : MainAction)
  | input (a : InputAction)
  | output (a : OutputAction)

section Call

variable {F : Type} (deriveKey : Str → Bytes → BuildId) (identity : Str)

/-- The service end of a connection, for a build with the given identity. -/
def endpoint (identity : Str) : Endpoint := ⟨clientIntent, serverIntent, identity⟩

def Main.received (result : Except IoError (Packet F)) : Main :=
  match result with
  | .error e => .returned (.error (.handshake (.receive (.socket e))))
  | .ok pkt =>
      match Handshake.accept deriveKey identity clientIntent pkt with
      | .error e => .returned (.error (.handshake e))
      | .ok () => .replying

namespace User

def connected : User F := ⟨.handshaking, .notStarted, .notStarted, .connected⟩

def stepMain (u : User F) (a : MainAction) : Option (User F) :=
  match u.main, a with
  | .handshaking, .receive failure =>
      (u.socket.recv failure).map fun r =>
        { u with main := .received deriveKey identity r.1, socket := r.2 }
  | .replying, .send (.ok ()) =>
      some { u with
        main := .spawningInput
        socket := u.socket.push ((endpoint identity).reply deriveKey) }
  | .replying, .send (.error e) =>
      some { u with main := .returned (.error (.handshake (.send (.socket e)))) }
  | .spawningInput, .spawnInput true => some { u with main := .spawningOutput, input := .receiving }
  | .spawningInput, .spawnInput false => some { u with main := .panicked .spawnInput }
  | .spawningOutput, .spawnOutput true => some { u with main := .joiningOutput, output := .reading }
  | .spawningOutput, .spawnOutput false => some { u with main := .panicked .spawnOutput }
  | .joiningOutput, .joinOutput =>
      match u.output with
      | .ended .panicked => some { u with main := .panicked .outputPanicked }
      | .ended (.returned _) => some { u with main := .printing }
      | _ => none
  | .printing, .print true => some { u with main := .shuttingDown }
  | .printing, .print false => some { u with main := .panicked .print }
  | .shuttingDown, .shutdown (.ok ()) =>
      some { u with main := .joiningInput, socket := { u.socket with readShutdown := true } }
  | .shuttingDown, .shutdown (.error e) =>
      some { u with main := .returned (.error (.socketShutdown e)) }
  | .joiningInput, .joinInput =>
      match u.input with
      | .ended .panicked => some { u with main := .panicked .inputPanicked }
      | .ended (.returned result) => some { u with main := .returned result }
      | _ => none
  | _, _ => none

def step (u : User F) : Action F → Option (User F × List Transfer)
  | .client a => (u.socket.client a).map fun socket => ({ u with socket }, [])
  | .main a => (u.stepMain deriveKey identity a).map fun u' => (u', [])
  | .input a => (u.input.step u.socket a).map fun r =>
      ({ u with input := r.1, socket := r.2.1 }, r.2.2)
  | .output a => (u.output.step u.socket a).map fun r =>
      ({ u with output := r.1, socket := r.2.1 }, r.2.2)

end User

end Call

/-- The calls for the clients `ι` on one PTY. -/
abbrev Users (ι F : Type) := Components ι (User F) Transfer

namespace Users

variable {ι F : Type} [DecidableEq ι]

def start : Users ι F := ⟨fun _ => .connected, []⟩

def step (deriveKey : Str → Bytes → BuildId) (identity : Str) (s : Users ι F)
    (a : ι × Action F) : Option (Users ι F) :=
  Components.step (User.step deriveKey identity) s a

/-- What was read from the PTY so far, and the chunks read by the threads of one call. -/
def readFromPty (s : Users ι F) : Data := s.log.flatMap fun e => e.2.readBytes

def readBy (s : Users ι F) (i : ι) : List Data := (entriesOf i s.log).filterMap Transfer.readChunk

/-- What the PTY has accepted so far, and from the threads of one call. -/
def writtenToPty (s : Users ι F) : Data := s.log.flatMap fun e => e.2.wroteBytes

def writtenBy (s : Users ι F) (i : ι) : Data := (entriesOf i s.log).flatMap Transfer.wroteBytes

end Users

end TereServer.Services.PtyUser
