import TereServer.Services.PtyUser

/-!
# What a step of a user can do

One constructor for each way in which a step of the call or of one of its threads
can go, with what the step needs and what it leaves.
-/

namespace TereServer.Services.PtyUser

open Lib Bincode Ipc Proto.PtyUser

section Steps

variable {F : Type} {socket socket' : Socket F} {events : List Transfer}

/-- The socket once its next packet is received. -/
def Socket.take (socket : Socket F) (pkt : Packet F) (incoming : List (Packet F)) : Socket F :=
  { socket with incoming, received := socket.received ++ [pkt] }

theorem Socket.recv_cases {failure : Option IoError} {result : Except IoError (Packet F)}
    (h : socket.recv failure = some (result, socket')) :
    (∃ e, failure = some e ∧ result = .error e ∧ socket' = socket) ∨
    (failure = none ∧ ∃ pkt incoming, socket.incoming = pkt :: incoming ∧ result = .ok pkt ∧
      socket' = socket.take pkt incoming) ∨
    (failure = none ∧ result = .ok .closed ∧ socket' = socket) := by
  cases failure with
  | some e =>
      cases h
      exact .inl ⟨e, rfl, rfl, rfl⟩
  | none =>
      simp only [Socket.recv] at h
      split at h
      · rename_i pkt incoming hincoming
        cases h
        exact .inr (.inl ⟨rfl, pkt, incoming, hincoming, rfl, rfl⟩)
      · split at h
        · cases h
          exact .inr (.inr ⟨rfl, rfl, rfl⟩)
        · cases h

def InputThread.Live : InputThread → Prop
  | .receiving => True
  | .writing _ => True
  | _ => False

def OutputThread.Live : OutputThread → Prop
  | .reading => True
  | .sending _ => True
  | _ => False

/-- A step of an input thread. -/
inductive InputStep : InputThread → Socket F → InputAction →
    InputThread → Socket F → List Transfer → Prop
  | accepted {socket : Socket F} {pkt : Packet F} {incoming : List (Packet F)}
      {input : Vec (BitVec 8)} (hincoming : socket.incoming = pkt :: incoming)
      (h : pkt.receiveAs Input = .ok (.keyboardInput input)) :
      InputStep .receiving socket (.receive none) (.writeAll input.1) (socket.take pkt incoming) []
  | rejected {socket : Socket F} {pkt : Packet F} {incoming : List (Packet F)} {e : ReceiveError}
      (hincoming : socket.incoming = pkt :: incoming) (h : pkt.receiveAs Input = .error e) :
      InputStep .receiving socket (.receive none) (.ended (.returned (.error (.receive e))))
        (socket.take pkt incoming) []
  | atEnd {socket : Socket F} :
      InputStep .receiving socket (.receive none)
        (.ended (.returned (.error (.receive .endOfStream)))) socket []
  | receiveFailed {socket : Socket F} {e : IoError} :
      InputStep .receiving socket (.receive (some e))
        (.ended (.returned (.error (.receive (.socket e))))) socket []
  | wrote {socket : Socket F} {left : Data} {n : Nat} (hle : n + 1 ≤ left.length) :
      InputStep (.writing left) socket (.write (.ok (n + 1))) (.writeAll (left.drop (n + 1))) socket
        [.wrote (left.take (n + 1))]
  | wroteNothing {socket : Socket F} {left : Data} :
      InputStep (.writing left) socket (.write (.ok 0))
        (.ended (.returned (.error (.ptyIo .writeZero)))) socket []
  | interrupted {socket : Socket F} {left : Data} {e : IoError} (h : e.errno = EINTR) :
      InputStep (.writing left) socket (.write (.error e)) (.writing left) socket []
  | writeFailed {socket : Socket F} {left : Data} {e : IoError} (h : e.errno ≠ EINTR) :
      InputStep (.writing left) socket (.write (.error e))
        (.ended (.returned (.error (.ptyIo (.os e))))) socket []
  | panicked {input : InputThread} {socket : Socket F} (h : input.Live) :
      InputStep input socket .panic (.ended .panicked) socket []

theorem InputThread.received_spec {failure : Option IoError} {result : Except IoError (Packet F)}
    (h : socket.recv failure = some (result, socket')) :
    InputStep .receiving socket (.receive failure) (.received result) socket' [] := by
  rcases Socket.recv_cases h with ⟨e, rfl, rfl, rfl⟩ | ⟨rfl, pkt, incoming, hincoming, rfl, rfl⟩ |
    ⟨rfl, rfl, rfl⟩
  · exact .receiveFailed
  · cases hpkt : pkt.receiveAs Input with
    | error e =>
        simp only [received, hpkt]
        exact .rejected hincoming hpkt
    | ok msg =>
        obtain ⟨input⟩ := msg
        simp only [received, hpkt]
        exact .accepted hincoming hpkt
  · simp only [received, Packet.receiveAs_closed]
    exact .atEnd

theorem InputThread.wrote_spec {left : Data} {result : Except IoError Nat} {input : InputThread}
    (h : wrote left result = some (input, events)) :
    InputStep (.writing left) socket (.write result) input socket events := by
  cases result with
  | error e =>
      simp only [wrote] at h
      split at h
      · rename_i hintr
        cases h
        exact .interrupted hintr
      · rename_i hintr
        cases h
        exact .writeFailed hintr
  | ok n =>
      cases n with
      | zero =>
          cases h
          exact .wroteNothing
      | succ n =>
          simp only [wrote] at h
          split at h
          · rename_i hle
            cases h
            exact .wrote hle
          · cases h

theorem InputThread.step_spec {input input' : InputThread} {a : InputAction}
    (h : input.step socket a = some (input', socket', events)) :
    InputStep input socket a input' socket' events := by
  cases a with
  | receive failure =>
      cases input with
      | receiving =>
          obtain ⟨⟨result, next⟩, hrecv, heq⟩ := Option.map_eq_some_iff.1 h
          cases heq
          exact received_spec hrecv
      | notStarted => cases h
      | writing left => cases h
      | ended joined => cases h
  | write result =>
      cases input with
      | writing left =>
          obtain ⟨⟨next, transfers⟩, hwrote, heq⟩ := Option.map_eq_some_iff.1 h
          cases heq
          exact wrote_spec hwrote
      | notStarted => cases h
      | receiving => cases h
      | ended joined => cases h
  | panic =>
      cases input with
      | receiving =>
          cases h
          exact .panicked trivial
      | writing left =>
          cases h
          exact .panicked trivial
      | notStarted => cases h
      | ended joined => cases h

/-- A step of an output thread. -/
inductive OutputStep : OutputThread → Socket F → OutputAction →
    OutputThread → Socket F → List Transfer → Prop
  | read {socket : Socket F} {chunk : Chunk} :
      OutputStep .reading socket (.read (.ok chunk)) (.sending chunk) socket [.read chunk.1]
  | hungUp {socket : Socket F} {e : IoError} (h : e.errno = EIO) :
      OutputStep .reading socket (.read (.error e)) (.ended (.returned (.ok ()))) socket []
  | readFailed {socket : Socket F} {e : IoError} (h : e.errno ≠ EIO) :
      OutputStep .reading socket (.read (.error e))
        (.ended (.returned (.error (.ptyIo (.os e))))) socket []
  | sent {socket : Socket F} {buf : Chunk} :
      OutputStep (.sending buf) socket (.send (.ok ())) .reading
        (socket.push (.of (sessionOutput buf))) []
  | sendFailed {socket : Socket F} {buf : Chunk} {e : IoError} :
      OutputStep (.sending buf) socket (.send (.error e))
        (.ended (.returned (.error (.send (.socket e))))) socket []
  | panicked {output : OutputThread} {socket : Socket F} (h : output.Live) :
      OutputStep output socket .panic (.ended .panicked) socket []

theorem OutputThread.step_spec {output output' : OutputThread} {a : OutputAction}
    (h : output.step socket a = some (output', socket', events)) :
    OutputStep output socket a output' socket' events := by
  unfold step at h
  cases a with
  | read result =>
      dsimp only at h
      split at h
      · cases h
        rw [received_eq]
        exact .read
      · rename_i e
        cases h
        unfold failed
        split
        · rename_i heio
          exact .hungUp heio
        · rename_i heio
          exact .readFailed heio
      · cases h
  | send result =>
      dsimp only at h
      split at h
      · cases h
        exact .sent
      · cases h
        exact .sendFailed
      · cases h
  | panic =>
      dsimp only at h
      split at h
      · cases h
        exact .panicked trivial
      · cases h
        exact .panicked trivial
      · cases h

end Steps

section Call

variable {F : Type} {deriveKey : Str → Bytes → BuildId} {identity : Str}

/-- A step of the call itself. -/
inductive MainStep (deriveKey : Str → Bytes → BuildId) (identity : Str) :
    User F → MainAction → User F → Prop
  | greeted {input : InputThread} {output : OutputThread} {socket : Socket F} {pkt : Packet F}
      {incoming : List (Packet F)} (hincoming : socket.incoming = pkt :: incoming)
      (h : Handshake.accept deriveKey identity clientIntent pkt = .ok ()) :
      MainStep deriveKey identity ⟨.handshaking, input, output, socket⟩ (.receive none)
        ⟨.replying, input, output, socket.take pkt incoming⟩
  | notGreeted {input : InputThread} {output : OutputThread} {socket socket' : Socket F}
      {failure : Option IoError} {result : Except IoError (Packet F)} {e : HandshakeError}
      (hrecv : socket.recv failure = some (result, socket'))
      (h : Main.received deriveKey identity result = .returned (.error (.handshake e))) :
      MainStep deriveKey identity ⟨.handshaking, input, output, socket⟩ (.receive failure)
        ⟨.returned (.error (.handshake e)), input, output, socket'⟩
  | replied {input : InputThread} {output : OutputThread} {socket : Socket F} :
      MainStep deriveKey identity ⟨.replying, input, output, socket⟩ (.send (.ok ()))
        ⟨.spawningInput, input, output, socket.push ((endpoint identity).reply deriveKey)⟩
  | notReplied {input : InputThread} {output : OutputThread} {socket : Socket F} {e : IoError} :
      MainStep deriveKey identity ⟨.replying, input, output, socket⟩ (.send (.error e))
        ⟨.returned (.error (.handshake (.send (.socket e)))), input, output, socket⟩
  | inputSpawned {input : InputThread} {output : OutputThread} {socket : Socket F} :
      MainStep deriveKey identity ⟨.spawningInput, input, output, socket⟩ (.spawnInput true)
        ⟨.spawningOutput, .receiving, output, socket⟩
  | inputNotSpawned {input : InputThread} {output : OutputThread} {socket : Socket F} :
      MainStep deriveKey identity ⟨.spawningInput, input, output, socket⟩ (.spawnInput false)
        ⟨.panicked .spawnInput, input, output, socket⟩
  | outputSpawned {input : InputThread} {output : OutputThread} {socket : Socket F} :
      MainStep deriveKey identity ⟨.spawningOutput, input, output, socket⟩ (.spawnOutput true)
        ⟨.joiningOutput, input, .reading, socket⟩
  | outputNotSpawned {input : InputThread} {output : OutputThread} {socket : Socket F} :
      MainStep deriveKey identity ⟨.spawningOutput, input, output, socket⟩ (.spawnOutput false)
        ⟨.panicked .spawnOutput, input, output, socket⟩
  | outputPanicked {input : InputThread} {socket : Socket F} :
      MainStep deriveKey identity ⟨.joiningOutput, input, .ended .panicked, socket⟩ .joinOutput
        ⟨.panicked .outputPanicked, input, .ended .panicked, socket⟩
  | outputJoined {input : InputThread} {socket : Socket F} {result : Except ServeUserError Unit} :
      MainStep deriveKey identity ⟨.joiningOutput, input, .ended (.returned result), socket⟩
        .joinOutput ⟨.printing, input, .ended (.returned result), socket⟩
  | printed {input : InputThread} {output : OutputThread} {socket : Socket F} :
      MainStep deriveKey identity ⟨.printing, input, output, socket⟩ (.print true)
        ⟨.shuttingDown, input, output, socket⟩
  | notPrinted {input : InputThread} {output : OutputThread} {socket : Socket F} :
      MainStep deriveKey identity ⟨.printing, input, output, socket⟩ (.print false)
        ⟨.panicked .print, input, output, socket⟩
  | shutDown {input : InputThread} {output : OutputThread} {socket : Socket F} :
      MainStep deriveKey identity ⟨.shuttingDown, input, output, socket⟩ (.shutdown (.ok ()))
        ⟨.joiningInput, input, output, { socket with readShutdown := true }⟩
  | notShutDown {input : InputThread} {output : OutputThread} {socket : Socket F} {e : IoError} :
      MainStep deriveKey identity ⟨.shuttingDown, input, output, socket⟩ (.shutdown (.error e))
        ⟨.returned (.error (.socketShutdown e)), input, output, socket⟩
  | inputPanicked {output : OutputThread} {socket : Socket F} :
      MainStep deriveKey identity ⟨.joiningInput, .ended .panicked, output, socket⟩ .joinInput
        ⟨.panicked .inputPanicked, .ended .panicked, output, socket⟩
  | inputJoined {output : OutputThread} {socket : Socket F} {result : Except ServeUserError Unit} :
      MainStep deriveKey identity ⟨.joiningInput, .ended (.returned result), output, socket⟩
        .joinInput ⟨.returned result, .ended (.returned result), output, socket⟩

theorem Main.received_of_accepted {pkt : Packet F}
    (h : Handshake.accept deriveKey identity clientIntent pkt = .ok ()) :
    Main.received deriveKey identity (.ok pkt) = .replying := by
  simp only [Main.received, h]

theorem Main.received_of_rejected {pkt : Packet F} {e : HandshakeError}
    (h : Handshake.accept deriveKey identity clientIntent pkt = .error e) :
    Main.received deriveKey identity (.ok pkt) = .returned (.error (.handshake e)) := by
  simp only [Main.received, h]

theorem closed_not_accepted {intent : Str} :
    Handshake.accept deriveKey identity intent (Packet.closed : Packet F) =
      .error (.receive .endOfStream) := by
  simp only [Handshake.accept, Packet.receiveAs_closed]

theorem stepMain_received {input : InputThread} {output : OutputThread} {socket socket' : Socket F}
    {failure : Option IoError} {result : Except IoError (Packet F)}
    (hrecv : socket.recv failure = some (result, socket')) :
    MainStep deriveKey identity ⟨.handshaking, input, output, socket⟩ (.receive failure)
      ⟨.received deriveKey identity result, input, output, socket'⟩ := by
  rcases Socket.recv_cases hrecv with ⟨e, rfl, rfl, rfl⟩ |
    ⟨rfl, pkt, incoming, hincoming, rfl, rfl⟩ | ⟨rfl, rfl, rfl⟩
  · exact .notGreeted hrecv rfl
  · cases haccept : Handshake.accept deriveKey identity clientIntent pkt with
    | error e =>
        rw [Main.received_of_rejected haccept]
        exact .notGreeted hrecv (Main.received_of_rejected haccept)
    | ok u =>
        rw [Main.received_of_accepted haccept]
        exact .greeted hincoming haccept
  · rw [Main.received_of_rejected closed_not_accepted]
    exact .notGreeted hrecv (Main.received_of_rejected closed_not_accepted)

theorem stepMain_joined {u u' : User F} (hmain : u.main = .joiningOutput)
    (h : u.stepMain deriveKey identity .joinOutput = some u') :
    MainStep deriveKey identity u .joinOutput u' := by
  obtain ⟨main, input, output, socket⟩ := u
  obtain rfl : main = .joiningOutput := hmain
  cases output with
  | ended joined =>
      cases joined with
      | panicked =>
          cases h
          exact .outputPanicked
      | returned result =>
          cases h
          exact .outputJoined
  | _ => cases h

theorem stepMain_finished {u u' : User F} (hmain : u.main = .joiningInput)
    (h : u.stepMain deriveKey identity .joinInput = some u') :
    MainStep deriveKey identity u .joinInput u' := by
  obtain ⟨main, input, output, socket⟩ := u
  obtain rfl : main = .joiningInput := hmain
  cases input with
  | ended joined =>
      cases joined with
      | panicked =>
          cases h
          exact .inputPanicked
      | returned result =>
          cases h
          exact .inputJoined
  | _ => cases h

theorem User.stepMain_spec {u u' : User F} {a : MainAction}
    (h : u.stepMain deriveKey identity a = some u') : MainStep deriveKey identity u a u' := by
  obtain ⟨main, input, output, socket⟩ := u
  cases a with
  | receive failure =>
      cases main with
      | handshaking =>
          obtain ⟨⟨result, next⟩, hrecv, heq⟩ := Option.map_eq_some_iff.1 h
          cases heq
          exact stepMain_received hrecv
      | _ => cases h
  | send result =>
      cases main with
      | replying =>
          cases result with
          | ok u =>
              cases h
              exact .replied
          | error e =>
              cases h
              exact .notReplied
      | _ => cases result <;> cases h
  | spawnInput ok =>
      cases main with
      | spawningInput =>
          cases ok with
          | true =>
              cases h
              exact .inputSpawned
          | false =>
              cases h
              exact .inputNotSpawned
      | _ => cases ok <;> cases h
  | spawnOutput ok =>
      cases main with
      | spawningOutput =>
          cases ok with
          | true =>
              cases h
              exact .outputSpawned
          | false =>
              cases h
              exact .outputNotSpawned
      | _ => cases ok <;> cases h
  | joinOutput =>
      cases main with
      | joiningOutput => exact stepMain_joined rfl h
      | _ => cases h
  | print ok =>
      cases main with
      | printing =>
          cases ok with
          | true =>
              cases h
              exact .printed
          | false =>
              cases h
              exact .notPrinted
      | _ => cases ok <;> cases h
  | shutdown result =>
      cases main with
      | shuttingDown =>
          cases result with
          | ok u =>
              cases h
              exact .shutDown
          | error e =>
              cases h
              exact .notShutDown
      | _ => cases result <;> cases h
  | joinInput =>
      cases main with
      | joiningInput => exact stepMain_finished rfl h
      | _ => cases h

/-- A step of the client. -/
inductive ClientStep : Socket F → ClientAction F → Socket F → Prop
  | sent {socket : Socket F} {pkt : Packet F} (h : socket.readShutdown = false) :
      ClientStep socket (.send pkt) { socket with incoming := socket.incoming ++ [pkt] }
  | closed {socket : Socket F} : ClientStep socket .close { socket with closed := true }

theorem Socket.client_spec {socket socket' : Socket F} {a : ClientAction F}
    (h : socket.client a = some socket') : ClientStep socket a socket' := by
  cases a with
  | send pkt =>
      simp only [Socket.client] at h
      split at h
      · cases h
      · rename_i hopen
        cases h
        simp only [Bool.or_eq_true, not_or, Bool.not_eq_true] at hopen
        exact .sent hopen.2
  | close =>
      cases h
      exact .closed

/-- A step of a user. -/
inductive UserStep (deriveKey : Str → Bytes → BuildId) (identity : Str) :
    User F → Action F → User F → List Transfer → Prop
  | client {u : User F} {a : ClientAction F} {socket : Socket F} (h : ClientStep u.socket a socket) :
      UserStep deriveKey identity u (.client a) { u with socket } []
  | main {u u' : User F} {a : MainAction} (h : MainStep deriveKey identity u a u') :
      UserStep deriveKey identity u (.main a) u' []
  | input {u : User F} {a : InputAction} {input : InputThread} {socket : Socket F}
      {events : List Transfer} (h : InputStep u.input u.socket a input socket events) :
      UserStep deriveKey identity u (.input a) { u with input, socket } events
  | output {u : User F} {a : OutputAction} {output : OutputThread} {socket : Socket F}
      {events : List Transfer} (h : OutputStep u.output u.socket a output socket events) :
      UserStep deriveKey identity u (.output a) { u with output, socket } events

theorem User.step_spec {u u' : User F} {a : Action F} {events : List Transfer}
    (h : u.step deriveKey identity a = some (u', events)) :
    UserStep deriveKey identity u a u' events := by
  cases a with
  | client a =>
      obtain ⟨socket, hsocket, heq⟩ := Option.map_eq_some_iff.1 h
      cases heq
      exact .client (Socket.client_spec hsocket)
  | main a =>
      obtain ⟨next, hnext, heq⟩ := Option.map_eq_some_iff.1 h
      cases heq
      exact .main (stepMain_spec hnext)
  | input a =>
      obtain ⟨⟨input, socket, transfers⟩, hstep, heq⟩ := Option.map_eq_some_iff.1 h
      cases heq
      exact .input (InputThread.step_spec hstep)
  | output a =>
      obtain ⟨⟨output, socket, transfers⟩, hstep, heq⟩ := Option.map_eq_some_iff.1 h
      cases heq
      exact .output (OutputThread.step_spec hstep)

/-- A step of a user with the transfers it has made so far. -/
theorem traced_spec {own own' : User F × List Transfer} {a : Action F}
    (h : traced (User.step deriveKey identity) own a = some own') :
    ∃ events, UserStep deriveKey identity own.1 a own'.1 events ∧ own'.2 = own.2 ++ events := by
  obtain ⟨⟨u, events⟩, hstep, rfl⟩ := Option.map_eq_some_iff.1 h
  exact ⟨events, User.step_spec hstep, rfl⟩

/-- An invariant of a user and its transfers, from its steps. -/
theorem traced_invariant {I : User F × List Transfer → Prop}
    (hI : ∀ {u u' : User F} {a : Action F} {events transfers : List Transfer},
      UserStep deriveKey identity u a u' events → I (u, transfers) → I (u', transfers ++ events))
    (own : User F × List Transfer) (a : Action F) (own' : User F × List Transfer)
    (h : traced (User.step deriveKey identity) own a = some own') (hown : I own) : I own' := by
  obtain ⟨u, transfers⟩ := own
  obtain ⟨u', transfers'⟩ := own'
  obtain ⟨events, hstep, hevents⟩ := traced_spec h
  obtain rfl : transfers' = transfers ++ events := hevents
  exact hI hstep hown

/-- An invariant of a user, from those of its steps that meet a condition. -/
theorem run_invariant_of_steps {P : User F → Action F → Prop} {I : User F → Prop}
    (hI : ∀ {u u' : User F} {a : Action F} {events : List Transfer},
      UserStep deriveKey identity u a u' events → P u a → I u → I u')
    {actions : List (Action F)} {own own' : User F × List Transfer}
    (hrun : run (traced (User.step deriveKey identity)) actions own = some own')
    (hmeets : Meets (traced (User.step deriveKey identity)) (fun own a => P own.1 a) actions own)
    (hown : I own.1) : I own'.1 := by
  refine run_invariant_of_meets (I := fun own => I own.1) ?_ hrun hmeets hown
  intro mid a next hstep hmeet hmid
  obtain ⟨events, hspec, -⟩ := traced_spec hstep
  exact hI hspec hmeet hmid

end Call

end TereServer.Services.PtyUser
