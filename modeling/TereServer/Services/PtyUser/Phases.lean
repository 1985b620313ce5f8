import TereServer.Services.PtyUser.Step

/-!
# How far the call and its threads are

The call has started a thread or has seen it end by the time it gets to a point, and
the handshake is the first packet in either direction.
-/

namespace TereServer.Services.PtyUser

open Lib Bincode Ipc Proto.PtyUser

section Frames

variable {F : Type} {socket socket' : Socket F} {events : List Transfer}

def OutputThread.Ended : OutputThread → Prop
  | .ended _ => True
  | _ => False

theorem InputThread.writeAll_live (left : Data) : (writeAll left).Live := by
  unfold writeAll
  split <;> trivial

theorem InputThread.Live.started {input : InputThread} (h : input.Live) : input ≠ .notStarted := by
  rintro rfl
  exact h

theorem OutputThread.Live.started {output : OutputThread} (h : output.Live) :
    output ≠ .notStarted := by
  rintro rfl
  exact h

theorem OutputThread.Ended.not_live {output : OutputThread} (h : output.Ended) :
    ¬ output.Live := by
  cases output with
  | ended joined => exact not_false
  | _ => exact h.elim

/-- An input thread only receives from the socket. -/
structure InputFrame (input : InputThread) (socket : Socket F) (input' : InputThread)
    (socket' : Socket F) : Prop where
  live : input.Live
  started : input' ≠ .notStarted
  outgoing_eq : socket'.outgoing = socket.outgoing
  readShutdown_eq : socket'.readShutdown = socket.readShutdown
  received : socket.received <+: socket'.received

theorem InputStep.frame {input input' : InputThread} {a : InputAction}
    (h : InputStep input socket a input' socket' events) : InputFrame input socket input' socket' := by
  have htake (pkt : Packet F) (incoming : List (Packet F)) :
      socket.received <+: (socket.take pkt incoming).received := List.prefix_append _ _
  cases h with
  | accepted _ _ => exact ⟨trivial, (InputThread.writeAll_live _).started, rfl, rfl, htake _ _⟩
  | rejected _ _ => exact ⟨trivial, by simp, rfl, rfl, htake _ _⟩
  | atEnd => exact ⟨trivial, by simp, rfl, rfl, List.prefix_rfl⟩
  | receiveFailed => exact ⟨trivial, by simp, rfl, rfl, List.prefix_rfl⟩
  | wrote _ => exact ⟨trivial, (InputThread.writeAll_live _).started, rfl, rfl, List.prefix_rfl⟩
  | wroteNothing => exact ⟨trivial, by simp, rfl, rfl, List.prefix_rfl⟩
  | interrupted _ => exact ⟨trivial, by simp, rfl, rfl, List.prefix_rfl⟩
  | writeFailed _ => exact ⟨trivial, by simp, rfl, rfl, List.prefix_rfl⟩
  | panicked hlive => exact ⟨hlive, by simp, rfl, rfl, List.prefix_rfl⟩

/-- An output thread only sends on the socket. -/
structure OutputFrame (output : OutputThread) (socket : Socket F) (output' : OutputThread)
    (socket' : Socket F) : Prop where
  live : output.Live
  started : output' ≠ .notStarted
  received_eq : socket'.received = socket.received
  incoming_eq : socket'.incoming = socket.incoming
  readShutdown_eq : socket'.readShutdown = socket.readShutdown
  outgoing : socket.outgoing <+: socket'.outgoing

theorem OutputStep.frame {output output' : OutputThread} {a : OutputAction}
    (h : OutputStep output socket a output' socket' events) :
    OutputFrame output socket output' socket' := by
  cases h with
  | read => exact ⟨trivial, by simp, rfl, rfl, rfl, List.prefix_rfl⟩
  | hungUp _ => exact ⟨trivial, by simp, rfl, rfl, rfl, List.prefix_rfl⟩
  | readFailed _ => exact ⟨trivial, by simp, rfl, rfl, rfl, List.prefix_rfl⟩
  | sent => exact ⟨trivial, by simp, rfl, rfl, rfl, List.prefix_append _ _⟩
  | sendFailed => exact ⟨trivial, by simp, rfl, rfl, rfl, List.prefix_rfl⟩
  | panicked hlive => exact ⟨hlive, by simp, rfl, rfl, rfl, List.prefix_rfl⟩

theorem ClientStep.frame {a : ClientAction F} (h : ClientStep socket a socket') :
    socket'.received = socket.received ∧ socket'.outgoing = socket.outgoing ∧
      socket'.readShutdown = socket.readShutdown := by
  cases h with
  | sent _ => exact ⟨rfl, rfl, rfl⟩
  | closed => exact ⟨rfl, rfl, rfl⟩

theorem Socket.recv_frame {failure : Option IoError} {result : Except IoError (Packet F)}
    (h : socket.recv failure = some (result, socket')) :
    socket'.outgoing = socket.outgoing ∧ socket'.readShutdown = socket.readShutdown ∧
      (socket'.received = socket.received ∨
        ∃ pkt, socket'.received = socket.received ++ [pkt]) := by
  rcases Socket.recv_cases h with ⟨e, -, -, rfl⟩ | ⟨-, pkt, incoming, -, -, rfl⟩ | ⟨-, -, rfl⟩
  · exact ⟨rfl, rfl, .inl rfl⟩
  · exact ⟨rfl, rfl, .inr ⟨pkt, rfl⟩⟩
  · exact ⟨rfl, rfl, .inl rfl⟩

end Frames

section Phases

variable {F : Type} {deriveKey : Str → Bytes → BuildId} {identity : Str} {u u' : User F}

/-- What is there when the call is at a point. -/
def Main.Phase (input : InputThread) (output : OutputThread) (socket : Socket F) : Main → Prop
  | .handshaking => input = .notStarted ∧ output = .notStarted ∧ socket.received = [] ∧
      socket.outgoing = []
  | .replying => input = .notStarted ∧ output = .notStarted ∧ socket.received.length = 1 ∧
      socket.outgoing = []
  | .spawningInput => input = .notStarted ∧ output = .notStarted ∧ socket.received.length = 1 ∧
      socket.outgoing.length = 1
  | .spawningOutput => input ≠ .notStarted ∧ output = .notStarted ∧ socket.outgoing.length = 1
  | .joiningOutput => True
  | .printing => output.Ended
  | .shuttingDown => output.Ended
  | .joiningInput => output.Ended
  | .returned _ => ¬ output.Live
  | .panicked _ => ¬ output.Live

structure Phased (u : User F) : Prop where
  phase : u.main.Phase u.input u.output u.socket
  inputFresh : u.input = .notStarted → u.socket.received.length ≤ 1
  inputGreeted : u.input ≠ .notStarted → u.socket.received ≠ []
  outputFresh : u.output = .notStarted → u.socket.outgoing.length ≤ 1
  outputGreeted : u.output ≠ .notStarted → u.socket.outgoing ≠ []
  shutDown : u.socket.readShutdown = true → u.output.Ended

theorem phased_connected : Phased (.connected : User F) where
  phase := ⟨rfl, rfl, rfl, rfl⟩
  inputFresh _ := Nat.zero_le 1
  inputGreeted h := absurd rfl h
  outputFresh _ := Nat.zero_le 1
  outputGreeted h := absurd rfl h
  shutDown h := by cases h

/-- While the output thread runs, the call waits for it. -/
theorem Main.Phase.joining {main : Main} {input : InputThread} {output : OutputThread}
    {socket : Socket F} (h : main.Phase input output socket) (hlive : output.Live) :
    main = .joiningOutput := by
  have hstarted := hlive.started
  have hnotEnded (hended : output.Ended) : False := hended.not_live hlive
  cases main with
  | joiningOutput => rfl
  | handshaking => exact absurd h.2.1 hstarted
  | replying => exact absurd h.2.1 hstarted
  | spawningInput => exact absurd h.2.1 hstarted
  | spawningOutput => exact absurd h.2.1 hstarted
  | printing => exact (hnotEnded h).elim
  | shuttingDown => exact (hnotEnded h).elim
  | joiningInput => exact (hnotEnded h).elim
  | returned result => exact absurd hlive h
  | panicked e => exact absurd hlive h

theorem Phased.joining (h : Phased u) (hlive : u.output.Live) : u.main = .joiningOutput :=
  h.phase.joining hlive

theorem Main.Phase.input {main : Main} {input input' : InputThread} {output : OutputThread}
    {socket socket' : Socket F} (h : main.Phase input output socket)
    (hframe : InputFrame input socket input' socket') : main.Phase input' output socket' := by
  have hstarted := hframe.live.started
  cases main with
  | handshaking => exact absurd h.1 hstarted
  | replying => exact absurd h.1 hstarted
  | spawningInput => exact absurd h.1 hstarted
  | spawningOutput => exact ⟨hframe.started, h.2.1, by rw [hframe.outgoing_eq]; exact h.2.2⟩
  | _ => exact h

theorem Main.Phase.client {main : Main} {input : InputThread} {output : OutputThread}
    {socket socket' : Socket F} (h : main.Phase input output socket)
    (hreceived : socket'.received = socket.received)
    (houtgoing : socket'.outgoing = socket.outgoing) : main.Phase input output socket' := by
  cases main with
  | handshaking =>
      unfold Phase
      rw [hreceived, houtgoing]
      exact h
  | replying =>
      unfold Phase
      rw [hreceived, houtgoing]
      exact h
  | spawningInput =>
      unfold Phase
      rw [hreceived, houtgoing]
      exact h
  | spawningOutput =>
      unfold Phase
      rw [houtgoing]
      exact h
  | _ => exact h

/-- The call gets to another point, and nothing else changes. -/
theorem Phased.moveTo {main : Main} (hu : Phased u) (h : main.Phase u.input u.output u.socket) :
    Phased { u with main } :=
  ⟨h, hu.inputFresh, hu.inputGreeted, hu.outputFresh, hu.outputGreeted, hu.shutDown⟩

theorem MainStep.phased {a : MainAction} (h : MainStep deriveKey identity u a u')
    (hu : Phased u) : Phased u' := by
  have hphase := hu.phase
  cases h with
  | greeted _ _ =>
      obtain ⟨rfl, rfl, hreceived, houtgoing⟩ := hphase
      dsimp only at hreceived houtgoing
      refine ⟨⟨rfl, rfl, ?_, houtgoing⟩, fun _ => ?_, absurd rfl, hu.outputFresh, absurd rfl,
        hu.shutDown⟩
      · simp [Socket.take, hreceived]
      · simp [Socket.take, hreceived]
  | notGreeted hrecv _ =>
      obtain ⟨rfl, rfl, hreceived, houtgoing⟩ := hphase
      dsimp only at hreceived houtgoing
      obtain ⟨hout, hshut, hnew⟩ := Socket.recv_frame hrecv
      refine ⟨not_false, fun _ => ?_, absurd rfl, fun _ => ?_, absurd rfl, fun h => ?_⟩
      · rcases hnew with hnew | ⟨pkt, hnew⟩ <;> simp [hnew, hreceived]
      · simp [hout, houtgoing]
      · dsimp only at h
        rw [hshut] at h
        exact hu.shutDown h
  | replied =>
      obtain ⟨rfl, rfl, hreceived, houtgoing⟩ := hphase
      dsimp only at hreceived houtgoing
      refine ⟨⟨rfl, rfl, hreceived, ?_⟩, hu.inputFresh, absurd rfl, fun _ => ?_, absurd rfl,
        hu.shutDown⟩
      · simp [Socket.push, houtgoing]
      · simp [Socket.push, houtgoing]
  | notReplied =>
      obtain ⟨rfl, rfl, -, -⟩ := hphase
      exact hu.moveTo not_false
  | inputSpawned =>
      obtain ⟨rfl, rfl, hreceived, houtgoing⟩ := hphase
      dsimp only at hreceived houtgoing
      refine ⟨⟨by simp, rfl, houtgoing⟩, (fun h => by cases h), fun _ => ?_, hu.outputFresh,
        hu.outputGreeted, hu.shutDown⟩
      rintro hnil
      rw [hnil] at hreceived
      cases hreceived
  | inputNotSpawned =>
      obtain ⟨rfl, rfl, -, -⟩ := hphase
      exact hu.moveTo not_false
  | outputSpawned =>
      obtain ⟨-, rfl, houtgoing⟩ := hphase
      dsimp only at houtgoing
      refine ⟨trivial, hu.inputFresh, hu.inputGreeted, (fun h => by cases h), fun _ => ?_,
        fun h => ?_⟩
      · rintro hnil
        rw [hnil] at houtgoing
        cases houtgoing
      · exact (hu.shutDown h).elim
  | outputNotSpawned =>
      obtain ⟨-, rfl, -⟩ := hphase
      exact hu.moveTo not_false
  | outputPanicked => exact hu.moveTo not_false
  | outputJoined => exact hu.moveTo trivial
  | printed => exact hu.moveTo hphase
  | notPrinted => exact hu.moveTo (OutputThread.Ended.not_live hphase)
  | shutDown =>
      exact ⟨hphase, hu.inputFresh, hu.inputGreeted, hu.outputFresh, hu.outputGreeted,
        fun _ => hphase⟩
  | notShutDown => exact hu.moveTo (OutputThread.Ended.not_live hphase)
  | inputPanicked => exact hu.moveTo (OutputThread.Ended.not_live hphase)
  | inputJoined => exact hu.moveTo (OutputThread.Ended.not_live hphase)

theorem UserStep.phased {a : Action F} {events : List Transfer}
    (h : UserStep deriveKey identity u a u' events) (hu : Phased u) : Phased u' := by
  cases h with
  | client hclient =>
      obtain ⟨hreceived, houtgoing, hshut⟩ := hclient.frame
      constructor
      · exact hu.phase.client hreceived houtgoing
      · rw [hreceived]
        exact hu.inputFresh
      · rw [hreceived]
        exact hu.inputGreeted
      · rw [houtgoing]
        exact hu.outputFresh
      · rw [houtgoing]
        exact hu.outputGreeted
      · rw [hshut]
        exact hu.shutDown
  | main hmain => exact hmain.phased hu
  | input hinput =>
      have hframe := hinput.frame
      constructor
      · exact hu.phase.input hframe
      · exact fun hfresh => absurd hfresh hframe.started
      · intro _ hnil
        have hreceived := hframe.received
        dsimp only at hnil
        rw [hnil] at hreceived
        exact hu.inputGreeted hframe.live.started (List.prefix_nil.1 hreceived)
      · rw [hframe.outgoing_eq]
        exact hu.outputFresh
      · rw [hframe.outgoing_eq]
        exact hu.outputGreeted
      · rw [hframe.readShutdown_eq]
        exact hu.shutDown
  | output houtput =>
      have hframe := houtput.frame
      have hmain := hu.joining hframe.live
      constructor
      · show u.main.Phase u.input _ _
        rw [hmain]
        trivial
      · rw [hframe.received_eq]
        exact hu.inputFresh
      · rw [hframe.received_eq]
        exact hu.inputGreeted
      · exact fun hfresh => absurd hfresh hframe.started
      · intro _ hnil
        have houtgoing := hframe.outgoing
        dsimp only at hnil
        rw [hnil] at houtgoing
        exact hu.outputGreeted hframe.live.started (List.prefix_nil.1 houtgoing)
      · intro hshut
        dsimp only at hshut
        rw [hframe.readShutdown_eq] at hshut
        exact absurd hframe.live (hu.shutDown hshut).not_live

/-! ## A call that gets to its loops -/

/-- The client sends its handshake, and the call starts its threads. -/
def greeting (hello : Packet F) : List (Action F) :=
  [.client (.send hello), .main (.receive none), .main (.send (.ok ())), .main (.spawnInput true),
    .main (.spawnOutput true)]

def User.served (deriveKey : Str → Bytes → BuildId) (identity : Str) (hello : Packet F) : User F :=
  ⟨.joiningOutput, .receiving, .reading,
    ⟨[], [hello], false, false, [(endpoint identity).reply deriveKey]⟩⟩

theorem traced_greeted {hello : Packet F}
    (h : Handshake.accept deriveKey identity clientIntent hello = .ok ()) :
    traced (User.step deriveKey identity)
        (⟨.handshaking, .notStarted, .notStarted, ⟨[hello], [], false, false, []⟩⟩, [])
        (.main (.receive none)) =
      some (⟨.replying, .notStarted, .notStarted, ⟨[], [hello], false, false, []⟩⟩, []) := by
  have hreplying := Main.received_of_accepted h
  simp only [traced, User.step, User.stepMain, Socket.recv, List.nil_append, Option.map_some,
    hreplying]

theorem run_greeting {hello : Packet F}
    (h : Handshake.accept deriveKey identity clientIntent hello = .ok ()) :
    run (traced (User.step deriveKey identity)) (greeting hello) (.connected, []) =
      some (.served deriveKey identity hello, []) :=
  run_cons_eq_some.2 ⟨_, rfl, run_cons_eq_some.2 ⟨_, traced_greeted h, rfl⟩⟩

theorem run_greeting_part {ι : Type} [DecidableEq ι] {hello : Packet F}
    (h : Handshake.accept deriveKey identity clientIntent hello = .ok ()) (s : Users ι F) {i : ι}
    (hi : s.part i = .connected) :
    run (Users.step deriveKey identity) ((greeting hello).map (Prod.mk i)) s =
      some ⟨Function.update s.part i (.served deriveKey identity hello), s.log⟩ := by
  obtain ⟨events, hevents, hrun⟩ := Components.run_part (run_greeting h) hi
  obtain rfl : events = [] := hevents.symm
  rw [List.map_nil, List.append_nil] at hrun
  exact hrun

end Phases

/-! ## The client of the unit tests -/

/-- What `blake3::derive_key` returns at the intents and the identity below. -/
def userDeriveKey (context : Str) (keyMaterial : Bytes) : BuildId :=
  if keyMaterial ≠ strBytes testIdentity then testDeriveKey context keyMaterial
  else if context = clientIntent then
    ⟨[0x28, 0xdd, 0xee, 0xe2, 0x4b, 0x4a, 0xa8, 0x1a, 0xd8, 0x45, 0x50, 0x8a, 0xdf, 0x33, 0xff,
      0xc4, 0x5b, 0xcf, 0x2c, 0xe1, 0x56, 0xe4, 0x47, 0xaa, 0xc0, 0x00, 0xf9, 0x6d, 0x00, 0xfd,
      0x5b, 0xc5], rfl⟩
  else if context = serverIntent then
    ⟨[0x2f, 0x4a, 0x83, 0x9d, 0x45, 0x36, 0xec, 0xb7, 0x25, 0x11, 0x13, 0x01, 0xbb, 0x7e, 0x02,
      0xc8, 0xc0, 0xe1, 0x73, 0xcb, 0xd7, 0xc6, 0x13, 0x28, 0x36, 0x97, 0x42, 0x23, 0x72, 0xff,
      0x56, 0x96], rfl⟩
  else testDeriveKey context keyMaterial

def testHello : Packet Nat :=
  .of (Handshake.new userDeriveKey testIdentity clientIntent : Handshake Nat)

theorem testHello_accepted :
    Handshake.accept userDeriveKey testIdentity clientIntent testHello = .ok () := by
  have hfits : (Handshake.new userDeriveKey testIdentity clientIntent : Handshake Nat).Fits := by
    decide
  exact Handshake.accept_self hfits

end TereServer.Services.PtyUser
