import TereServer.Services.PtyUser.Flow

/-!
# Calls that end

When the PTY has hung up, the call and its threads have only so much left to do, and
they wait for nobody but the client.
-/

namespace TereServer.Services.PtyUser

open Lib Bincode Ipc Proto.PtyUser

section Definitions

variable {F : Type}

/-- How many steps a packet is worth: the receive, and at most one write for each byte. -/
def inputWork (pkt : Packet F) : Nat := ((keyboardInput pkt).getD []).length + 1

def InputThread.work : InputThread → Nat
  | .notStarted => 0
  | .receiving => 1
  | .writing left => left.length + 1
  | .ended _ => 0

def OutputThread.work : OutputThread → Nat
  | .notStarted => 0
  | .reading => 1
  | .sending _ => 2
  | .ended _ => 0

/-- The steps that are left to the call, with those of the threads it still starts. -/
def Main.work : Main → Nat
  | .handshaking => 10
  | .replying => 9
  | .spawningInput => 8
  | .spawningOutput => 6
  | .joiningOutput => 4
  | .printing => 3
  | .shuttingDown => 2
  | .joiningInput => 1
  | .returned _ => 0
  | .panicked _ => 0

def User.work (u : User F) : Nat :=
  u.main.work + u.input.work + u.output.work + (u.socket.incoming.map inputWork).sum

/-- The work that the client makes. -/
def Action.work : Action F → Nat
  | .client (.send pkt) => inputWork pkt
  | _ => 0

/-- The PTY has hung up: it delivers nothing more.  No write is interrupted. -/
def HungUp : Action F → Prop
  | .output (.read (.ok _)) => False
  | .input (.write (.error e)) => e.errno ≠ EINTR
  | _ => True

/-- What is there for the call to go on. -/
def Joinable (u : User F) : Prop :=
  match u.main with
  | .joiningOutput => u.input ≠ .notStarted ∧ u.output ≠ .notStarted
  | .printing => u.input ≠ .notStarted
  | .shuttingDown => u.input ≠ .notStarted
  | .joiningInput => u.input ≠ .notStarted ∧ u.socket.readShutdown = true
  | _ => True

/-- A system call that returns as it should once the PTY has hung up: no spurious failure
and no panic. -/
def Action.regular (closed : Bool) : Action F → Bool
  | .client _ => false
  | .main (.receive failure) => failure.isNone
  | .main (.send (.ok ())) => true
  | .main (.send (.error e)) => closed && decide (e.errno = EPIPE)
  | .main (.spawnInput ok) => ok
  | .main (.spawnOutput ok) => ok
  | .main .joinOutput => true
  | .main (.print ok) => ok
  | .main (.shutdown result) => result.isOk
  | .main .joinInput => true
  | .input (.receive failure) => failure.isNone
  | .input (.write (.ok n)) => n ≠ 0
  | .input (.write (.error e)) => e.errno = EIO
  | .input .panic => false
  | .output (.read (.ok _)) => true
  | .output (.read (.error e)) => e.errno = EIO
  | .output (.send (.ok ())) => true
  | .output (.send (.error e)) => closed && decide (e.errno = EPIPE)
  | .output .panic => false

namespace FlowAction

def own : FlowAction F → Bool
  | .call a => a.own
  | _ => false

def work : FlowAction F → Nat
  | .call a => a.work
  | _ => 0

def HungUp : FlowAction F → Prop
  | .call a => PtyUser.HungUp a
  | _ => True

end FlowAction

variable (room : Room F) (deriveKey : Str → Bytes → BuildId) (identity : Str)

namespace Flow

/-- A step of the call or one of its threads is possible. -/
def Proceeds (s : Flow F) : Prop :=
  ∃ (a : Action F) (next : Flow F), a.own = true ∧ a.regular s.call.socket.closed = true ∧
    PtyUser.HungUp a ∧ s.step room deriveKey identity (.call a) = some next

end Flow

end Definitions

section Work

variable {F : Type} {deriveKey : Str → Bytes → BuildId} {identity : Str} {u u' : User F}
variable {transfers events : List Transfer}

theorem InputThread.work_receiving : receiving.work = 1 := rfl

theorem InputThread.work_writing (left : Data) : (writing left).work = left.length + 1 := rfl

theorem InputThread.work_writeAll (left : Data) : (writeAll left).work = left.length + 1 := by
  cases left with
  | nil => rfl
  | cons b left => rfl

theorem inputWork_of_ok {pkt : Packet F} {input : Vec (BitVec 8)}
    (h : pkt.receiveAs Input = .ok (.keyboardInput input)) : inputWork pkt = input.1.length + 1 := by
  rw [inputWork, keyboardInput_of_ok h]
  rfl

theorem InputStep.work {input input' : InputThread} {socket socket' : Socket F} {a : InputAction}
    (h : InputStep input socket a input' socket' events) (hhung : HungUp (.input a : Action F)) :
    1 + input'.work + (socket'.incoming.map inputWork).sum ≤
      input.work + (socket.incoming.map inputWork).sum := by
  cases h with
  | accepted hincoming hpkt =>
      rw [hincoming, InputThread.work_writeAll, List.map_cons, List.sum_cons, inputWork_of_ok hpkt]
      show _ + _ + (List.map inputWork _).sum ≤ 1 + _
      dsimp only [Socket.take]
      omega
  | rejected hincoming hpkt =>
      rw [hincoming, List.map_cons, List.sum_cons]
      dsimp only [Socket.take, InputThread.work]
      omega
  | atEnd =>
      dsimp only [InputThread.work]
      omega
  | receiveFailed =>
      dsimp only [InputThread.work]
      omega
  | wrote hle =>
      rw [InputThread.work_writeAll, List.length_drop]
      dsimp only [InputThread.work]
      omega
  | wroteNothing =>
      dsimp only [InputThread.work]
      omega
  | interrupted hintr => exact absurd hintr hhung
  | writeFailed hintr =>
      dsimp only [InputThread.work]
      omega
  | panicked hlive =>
      cases input with
      | receiving =>
          dsimp only [InputThread.work]
          omega
      | writing left =>
          dsimp only [InputThread.work]
          omega
      | notStarted => exact hlive.elim
      | ended joined => exact hlive.elim

theorem OutputStep.work {output output' : OutputThread} {socket socket' : Socket F}
    {a : OutputAction} (h : OutputStep output socket a output' socket' events)
    (hhung : HungUp (.output a : Action F)) : 1 + output'.work ≤ output.work := by
  cases h with
  | read => exact hhung.elim
  | panicked hlive =>
      cases output with
      | reading => exact le_rfl
      | sending buf =>
          dsimp only [OutputThread.work]
          omega
      | notStarted => exact hlive.elim
      | ended joined => exact hlive.elim
  | _ =>
      dsimp only [OutputThread.work]
      omega

theorem Socket.recv_work {failure : Option IoError} {socket socket' : Socket F}
    {result : Except IoError (Packet F)} (h : socket.recv failure = some (result, socket')) :
    (socket'.incoming.map inputWork).sum ≤ (socket.incoming.map inputWork).sum := by
  rcases Socket.recv_cases h with ⟨e, -, -, rfl⟩ | ⟨-, pkt, incoming, hincoming, -, rfl⟩ |
    ⟨-, -, rfl⟩
  · exact le_rfl
  · rw [hincoming, List.map_cons, List.sum_cons]
    exact Nat.le_add_left _ _
  · exact le_rfl

theorem MainStep.work {a : MainAction} (h : MainStep deriveKey identity u a u') :
    1 + u'.work ≤ u.work := by
  cases h with
  | greeted hincoming haccept =>
      simp only [User.work, Main.work, Socket.take, hincoming, List.map_cons, List.sum_cons]
      omega
  | notGreeted hrecv hrejected =>
      have hle := Socket.recv_work hrecv
      simp only [User.work, Main.work]
      omega
  | _ =>
      simp only [User.work, Main.work, InputThread.work, OutputThread.work, Socket.push]
      omega

theorem ClientStep.work {socket socket' : Socket F} {a : ClientAction F}
    (h : ClientStep socket a socket') : (socket'.incoming.map inputWork).sum =
      (socket.incoming.map inputWork).sum + (Action.client a).work := by
  cases h with
  | sent hopen =>
      rw [List.map_append, List.sum_append]
      rfl
  | closed => rfl

/-- Each step of the call or of its threads is one less. -/
theorem UserStep.work {a : Action F} (h : UserStep deriveKey identity u a u' events)
    (hhung : HungUp a) : a.own.toNat + u'.work ≤ u.work + a.work := by
  cases h with
  | client hclient =>
      have heq := hclient.work
      simp only [Action.own, Bool.toNat_false, User.work]
      omega
  | main hmain => exact hmain.work
  | input hinput =>
      have hle := hinput.work hhung
      simp only [Action.own, Bool.toNat_true, User.work, Action.work]
      omega
  | output houtput =>
      have hle := houtput.work hhung
      simp only [Action.own, Bool.toNat_true, User.work, Action.work, houtput.frame.incoming_eq]
      omega

end Work

section Blocked

variable {F : Type} {deriveKey : Str → Bytes → BuildId} {identity : Str} {u u' : User F}
variable {transfers events : List Transfer}

theorem UserStep.joinable {a : Action F} (h : UserStep deriveKey identity u a u' events)
    (hu : Phased u) (hjoinable : Joinable u) : Joinable u' := by
  unfold Joinable at hjoinable ⊢
  cases h with
  | client hclient =>
      have hshut := hclient.frame.2.2
      dsimp only
      rw [hshut]
      exact hjoinable
  | main hmain =>
      have hphase := hu.phase
      cases hmain with
      | outputSpawned => exact ⟨hphase.1, by simp⟩
      | outputJoined => exact hjoinable.1
      | printed => exact hjoinable
      | shutDown => exact ⟨hjoinable, rfl⟩
      | _ => trivial
  | input hinput =>
      have hstarted := hinput.frame.started
      dsimp only
      rw [hinput.frame.readShutdown_eq]
      generalize u.main = main at hjoinable
      cases main with
      | joiningOutput => exact ⟨hstarted, hjoinable.2⟩
      | printing => exact hstarted
      | shuttingDown => exact hstarted
      | joiningInput => exact ⟨hstarted, hjoinable.2⟩
      | _ => trivial
  | output houtput =>
      have hjoining := hu.joining houtput.frame.live
      dsimp only
      rw [hjoining] at hjoinable ⊢
      exact ⟨hjoinable.1, houtput.frame.started⟩

theorem InputThread.writeAll_ne_writing (left : Data) : writeAll left ≠ .writing [] := by
  cases left with
  | nil => simp [writeAll]
  | cons b left => simp [writeAll]

/-- A write is of something. -/
theorem UserStep.writing {a : Action F} (h : UserStep deriveKey identity u a u' events)
    (hu : u.input ≠ .writing []) : u'.input ≠ .writing [] := by
  cases h with
  | client hclient => exact hu
  | main hmain =>
      cases hmain with
      | inputSpawned => simp
      | _ => exact hu
  | input hinput =>
      dsimp only
      generalize u.input = input at hu hinput
      cases hinput with
      | accepted hincoming hpkt => exact InputThread.writeAll_ne_writing _
      | wrote hle => exact InputThread.writeAll_ne_writing _
      | interrupted hintr => exact hu
      | _ => simp
  | output houtput => exact hu

/-- What holds of every reachable state. -/
structure Sound (u : User F) : Prop where
  phased : Phased u
  joinable : Joinable u
  writing : u.input ≠ .writing []

theorem UserStep.sound {a : Action F} (h : UserStep deriveKey identity u a u' events)
    (hu : Sound u) : Sound u' :=
  ⟨h.phased hu.phased, h.joinable hu.phased hu.joinable, h.writing hu.writing⟩

theorem sound_connected : Sound (.connected : User F) :=
  ⟨phased_connected, trivial, by simp [User.connected]⟩

theorem run_sound {actions : List (Action F)} {own own' : User F × List Transfer}
    (h : run (traced (User.step deriveKey identity)) actions own = some own') (hown : Sound own.1) :
    Sound own'.1 :=
  run_invariant (I := fun own => Sound own.1) (fun own a own' hstep hown => by
    obtain ⟨events, hspec, -⟩ := traced_spec hstep
    exact hspec.sound hown) h hown

end Blocked

section Waiting

variable {F : Type} {room : Room F} {deriveKey : Str → Bytes → BuildId} {identity : Str}
  {s s' : Flow F}

namespace Flow

theorem proceeds_of (b : Action F) (hown : b.own = true)
    (hregular : b.regular s.call.socket.closed = true) (hhung : PtyUser.HungUp b)
    (hreturns : s.call.returns room deriveKey identity s.unread s.unconsumed b = true)
    (h : ∃ next, s.call.step deriveKey identity b = some next) :
    s.Proceeds room deriveKey identity := by
  obtain ⟨next, hnext⟩ := h
  have htraced : traced (User.step deriveKey identity) s.own b =
      some (next.1, s.log ++ next.2) := by
    simp only [traced, own, hnext, Option.map_some]
  exact ⟨b, _, hown, hregular, hhung, step_call htraced hreturns⟩

theorem proceeds_of_main (a : MainAction)
    (hregular : (Action.main a : Action F).regular s.call.socket.closed = true)
    (hreturns : s.call.returns room deriveKey identity s.unread s.unconsumed (.main a) = true)
    (h : ∃ u', s.call.stepMain deriveKey identity a = some u') :
    s.Proceeds room deriveKey identity := by
  obtain ⟨u', h⟩ := h
  exact proceeds_of (.main a) rfl hregular trivial hreturns ⟨(u', []), by simp [User.step, h]⟩

/-- The reply is the first packet, and there is room for it. -/
theorem replies (hs : Sound s.call) (hmain : s.call.main = .replying) :
    s.Proceeds room deriveKey identity := by
  have hphase := hs.phased.phase
  rw [hmain] at hphase
  obtain ⟨-, -, -, houtgoing⟩ := hphase
  have hunread : s.unread = [] := by rw [unread, houtgoing, List.drop_nil]
  cases hclosed : s.call.socket.closed with
  | true =>
      refine proceeds_of_main (.send (.error { errno := EPIPE })) ?_
        (User.returns_of_quiet rfl rfl) ?_
      · simp [Action.regular, hclosed]
      · simp [User.stepMain, hmain]
  | false =>
      refine proceeds_of_main (.send (.ok ())) rfl (User.returns_of_sends rfl rfl hclosed ?_) ?_
      · rw [hunread]
        exact room.fits_nil _
      · simp [User.stepMain, hmain]

end Flow

end Waiting

end TereServer.Services.PtyUser
