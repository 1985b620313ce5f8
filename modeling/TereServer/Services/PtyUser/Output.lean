import TereServer.Proto.Limits
import TereServer.Services.PtyUser.Phases

/-!
# From the PTY to its users

Every byte read from the PTY is sent to one client or held by one output thread, in
the order in which that thread has read it.
-/

namespace TereServer.Services.PtyUser

open Lib Bincode Ipc Proto.PtyUser

section Output

variable {ι F : Type} {deriveKey : Str → Bytes → BuildId} {identity : Str} {u u' : User F}
variable {transfers events : List Transfer} {payloads : List Data} {held : Option Data}

/-- The client gets `payload` from `pkt`. -/
def CarriesOutput (pkt : Packet F) (payload : Data) : Prop :=
  ∃ output, pkt.receiveAs Output = .ok (.sessionOutput output) ∧ output.1 = payload

/-- Every chunk is short enough for its message. -/
theorem sessionOutput_carried (buf : Chunk) :
    CarriesOutput (.of (sessionOutput buf) : Packet F) buf.1 := by
  have hle : buf.1.length ≤ 8188 := buf.2.trans (by decide)
  exact ⟨⟨buf.1, chunk_length_lt buf⟩, Proto.sessionOutput_received hle, rfl⟩

/-- What an output thread has read and not sent: the chunk it is about to send, or the
one whose send failed. -/
def OutputThread.Holds (held : Option Data) : OutputThread → Prop
  | .notStarted => held = none
  | .reading => held = none
  | .sending buf => held = some buf.1
  | .ended (.returned (.ok ())) => held = none
  | .ended (.returned (.error (.send _))) => ∃ buf : Chunk, held = some buf.1
  | .ended (.returned (.error _)) => held = none
  | .ended .panicked => ∀ bytes ∈ held, bytes.length ≤ 1024

/-- What was sent to the client and what is held is what the thread has read. -/
structure Forwards (u : User F) (transfers : List Transfer) (payloads : List Data)
    (held : Option Data) : Prop where
  carried : List.Forall₂ CarriesOutput (u.socket.outgoing.drop 1) payloads
  holds : u.output.Holds held
  read : transfers.filterMap Transfer.readChunk = payloads ++ held.toList

/-- A step that does not concern the output thread. -/
theorem Forwards.frame (h : Forwards u transfers payloads held)
    (hsocket : u'.socket.outgoing.drop 1 = u.socket.outgoing.drop 1)
    (houtput : u.output.Holds held → u'.output.Holds held)
    (hevents : events.filterMap Transfer.readChunk = []) :
    Forwards u' (transfers ++ events) payloads held := by
  refine ⟨?_, houtput h.holds, ?_⟩
  · rw [hsocket]
    exact h.carried
  · rw [List.filterMap_append, hevents, List.append_nil, h.read]

theorem InputStep.readChunk_eq_nil {input input' : InputThread} {socket socket' : Socket F}
    {a : InputAction} (h : InputStep input socket a input' socket' events) :
    events.filterMap Transfer.readChunk = [] := by
  cases h <;> rfl

/-- The call itself only sends its handshake and starts the thread. -/
theorem MainStep.output_frame {a : MainAction} (h : MainStep deriveKey identity u a u')
    (hu : Phased u) :
    u'.socket.outgoing.drop 1 = u.socket.outgoing.drop 1 ∧
      ∀ held, u.output.Holds held → u'.output.Holds held := by
  have hphase := hu.phase
  cases h with
  | notGreeted hrecv _ =>
      dsimp only
      rw [(Socket.recv_frame hrecv).1]
      exact ⟨rfl, fun _ => id⟩
  | replied =>
      obtain ⟨-, -, -, hnil⟩ := hphase
      dsimp only at hnil
      refine ⟨?_, fun _ => id⟩
      simp [Socket.push, hnil]
  | outputSpawned =>
      obtain ⟨-, rfl, -⟩ := hphase
      exact ⟨rfl, fun _ => id⟩
  | _ => exact ⟨rfl, fun _ => id⟩

theorem OutputStep.forwards {output : OutputThread} {socket : Socket F} {a : OutputAction}
    (h : OutputStep u.output u.socket a output socket events) (hgreeted : u.socket.outgoing ≠ [])
    (hu : Forwards u transfers payloads held) :
    ∃ payloads held, Forwards { u with output, socket } (transfers ++ events) payloads held := by
  obtain ⟨main, input, before, socket'⟩ := u
  have hholds := hu.holds
  have hread := hu.read
  dsimp only at h hgreeted hholds
  cases h with
  | read =>
      obtain rfl : held = none := hholds
      refine ⟨payloads, _, hu.carried, rfl, ?_⟩
      rw [Option.toList_none, List.append_nil] at hread
      rw [List.filterMap_append, hread]
      rfl
  | hungUp _ => exact ⟨payloads, held, hu.frame rfl id rfl⟩
  | readFailed _ => exact ⟨payloads, held, hu.frame rfl id rfl⟩
  | @sent _ buf =>
      obtain rfl : held = some buf.1 := hholds
      refine ⟨payloads ++ [buf.1], none, ?_, rfl, ?_⟩
      · have hone : 1 ≤ socket'.outgoing.length := List.length_pos_iff.2 hgreeted
        simp only [Socket.push, List.drop_append_of_le_length hone]
        exact List.rel_append hu.carried (.cons (sessionOutput_carried buf) .nil)
      · simpa using hread
  | @sendFailed _ buf _ =>
      exact ⟨payloads, held, hu.frame rfl (fun hbefore => ⟨buf, hbefore⟩) rfl⟩
  | panicked hlive =>
      refine ⟨payloads, held, hu.frame rfl (fun hbefore => ?_) rfl⟩
      cases before with
      | reading =>
          obtain rfl : held = none := hbefore
          rintro bytes ⟨⟩
      | sending buf =>
          obtain rfl : held = some buf.1 := hbefore
          rintro bytes ⟨⟩
          exact buf.2
      | notStarted => exact hlive.elim
      | ended joined => exact hlive.elim

/-- The invariant of a user. -/
def Forwarding (own : User F × List Transfer) : Prop :=
  Phased own.1 ∧ ∃ payloads held, Forwards own.1 own.2 payloads held

theorem forwarding_connected : Forwarding ((.connected, []) : User F × List Transfer) :=
  ⟨phased_connected, [], none, .nil, rfl, rfl⟩

theorem UserStep.forwarding {a : Action F} (h : UserStep deriveKey identity u a u' events)
    (hu : Forwarding (u, transfers)) : Forwarding (u', transfers ++ events) := by
  obtain ⟨hphased, payloads, held, hforwards⟩ := hu
  refine ⟨h.phased hphased, ?_⟩
  cases h with
  | client hclient =>
      obtain ⟨-, houtgoing, -⟩ := hclient.frame
      refine ⟨payloads, held, hforwards.frame ?_ id rfl⟩
      rw [houtgoing]
  | main hmain =>
      obtain ⟨houtgoing, hholds⟩ := hmain.output_frame hphased
      exact ⟨payloads, held, hforwards.frame houtgoing (hholds held) rfl⟩
  | input hinput =>
      refine ⟨payloads, held, hforwards.frame ?_ id hinput.readChunk_eq_nil⟩
      rw [hinput.frame.outgoing_eq]
  | output houtput =>
      exact houtput.forwards (hphased.outputGreeted houtput.frame.live.started) hforwards

/-- A user whose output thread was not started has got nothing. -/
theorem Forwards.of_notStarted (h : Forwards u transfers payloads held) (hu : Phased u)
    (hfresh : u.output = .notStarted) : payloads ++ held.toList = [] := by
  have hnone : u.socket.outgoing.drop 1 = [] := List.drop_eq_nil_iff.2 (hu.outputFresh hfresh)
  have hcarried := h.carried
  have hholds := h.holds
  rw [hnone] at hcarried
  rw [hfresh] at hholds
  obtain rfl := List.forall₂_nil_left_iff.1 hcarried
  obtain rfl : held = none := hholds
  rfl

/-! ## A thread that has ended -/

/-- A user whose output thread has ended, with what it has read and sent by then. -/
structure OutputEnded (chunks : List Data) (outgoing : List (Packet F)) (own : User F × List Transfer) :
    Prop where
  phased : Phased own.1
  ended : own.1.output.Ended
  read : own.2.filterMap Transfer.readChunk = chunks
  outgoing_eq : own.1.socket.outgoing = outgoing

theorem OutputThread.Ended.started {output : OutputThread} (h : output.Ended) :
    output ≠ .notStarted := by
  rintro rfl
  exact h

theorem MainStep.output_ended {a : MainAction} (h : MainStep deriveKey identity u a u')
    (hu : Phased u) (hended : u.output.Ended) :
    u'.output = u.output ∧ u'.socket.outgoing = u.socket.outgoing := by
  have hphase := hu.phase
  cases h with
  | notGreeted hrecv _ => exact ⟨rfl, (Socket.recv_frame hrecv).1⟩
  | replied => exact absurd hphase.2.1 hended.started
  | outputSpawned => exact absurd hphase.2.1 hended.started
  | _ => exact ⟨rfl, rfl⟩

theorem UserStep.outputEnded {chunks : List Data} {outgoing : List (Packet F)} {a : Action F}
    (h : UserStep deriveKey identity u a u' events)
    (hu : OutputEnded chunks outgoing (u, transfers)) :
    OutputEnded chunks outgoing (u', transfers ++ events) := by
  obtain ⟨hphased, hended, hread, houtgoing⟩ := hu
  have hphased' := h.phased hphased
  have hmore (hnone : events.filterMap Transfer.readChunk = []) :
      (transfers ++ events).filterMap Transfer.readChunk = chunks := by
    rw [List.filterMap_append, hnone, List.append_nil, hread]
  cases h with
  | client hclient =>
      obtain ⟨-, hsame, -⟩ := hclient.frame
      exact ⟨hphased', hended, hmore rfl, hsame.trans houtgoing⟩
  | main hmain =>
      obtain ⟨hsame, hsocket⟩ := hmain.output_ended hphased hended
      refine ⟨hphased', ?_, hmore rfl, hsocket.trans houtgoing⟩
      show u'.output.Ended
      rw [hsame]
      exact hended
  | input hinput =>
      exact ⟨hphased', hended, hmore hinput.readChunk_eq_nil,
        hinput.frame.outgoing_eq.trans houtgoing⟩
  | output houtput => exact absurd houtput.frame.live hended.not_live

variable [DecidableEq ι] {actions : List (ι × Action F)} {s : Users ι F}

theorem flatMap_readBytes (transfers : List Transfer) :
    transfers.flatMap Transfer.readBytes = (transfers.filterMap Transfer.readChunk).flatten := by
  induction transfers with
  | nil => rfl
  | cons transfer transfers ih =>
      rw [List.flatMap_cons, ih]
      cases transfer <;> rfl

theorem Users.interleaves_readBy (s : Users ι F) :
    Interleaves (fun i => (s.readBy i).flatten) s.readFromPty := by
  have hstreams : (fun i => (entriesOf i s.log).flatMap Transfer.readBytes) =
      fun i => (s.readBy i).flatten := funext fun i => flatMap_readBytes _
  rw [← hstreams]
  exact interleaves_log Transfer.readBytes s.log

/-- At every moment what was read from the PTY is an interleaving of what was sent to
the clients, each followed by the chunk that its thread holds; a single client has got
all of it at the end; a thread that has ended reads and sends nothing more, and the
read side is shut down only then. -/
theorem output_conserved
    (hrun : run (Users.step deriveKey identity) actions (Users.start : Users ι F) = some s) :
    ∃ (payloads : ι → List Data) (held : ι → Option Data),
      (∀ i, List.Forall₂ CarriesOutput ((s.part i).socket.outgoing.drop 1) (payloads i) ∧
        (s.part i).output.Holds (held i) ∧ s.readBy i = payloads i ++ (held i).toList) ∧
      Interleaves (fun i => (payloads i ++ (held i).toList).flatten) s.readFromPty ∧
      (∀ i, (∀ j, j ≠ i → (s.part j).output = .notStarted) →
        (s.part i).output = .ended (.returned (.ok ())) →
          (payloads i).flatten = s.readFromPty) ∧
      ∀ i, (s.part i).output.Ended ∨ (s.part i).socket.readShutdown = true →
        ∀ more s', run (Users.step deriveKey identity) more s = some s' →
          s'.readBy i = s.readBy i ∧
            (s'.part i).socket.outgoing = (s.part i).socket.outgoing := by
  have hforwarding (i : ι) : Forwarding (s.own i) :=
    Components.run_invariant (traced_invariant UserStep.forwarding) hrun forwarding_connected
  choose payloads held hforwards using fun i => (hforwarding i).2
  have hread (i : ι) : s.readBy i = payloads i ++ (held i).toList := (hforwards i).read
  have hinterleaves : Interleaves (fun i => (payloads i ++ (held i).toList).flatten)
      s.readFromPty := by
    simp only [← hread]
    exact s.interleaves_readBy
  refine ⟨payloads, held, fun i => ⟨(hforwards i).carried, (hforwards i).holds, hread i⟩,
    hinterleaves, fun i hothers hended => ?_, fun i hended more s' hmore => ?_⟩
  · have hsingle := hinterleaves.eq_of_single fun j hj => by
      rw [(hforwards j).of_notStarted (hforwarding j).1 (hothers j hj), List.flatten_nil]
    have hnone : held i = none := by
      have hholds := (hforwards i).holds
      have houtput : (s.own i).1.output = .ended (.returned (.ok ())) := hended
      rw [houtput] at hholds
      exact hholds
    rw [hsingle, hnone, Option.toList_none, List.append_nil]
  · have hdone : (s.part i).output.Ended := by
      rcases hended with hended | hshut
      · exact hended
      · exact (hforwarding i).1.shutDown hshut
    have hsame : OutputEnded (s.readBy i) (s.part i).socket.outgoing (s'.own i) :=
      Components.run_invariant (traced_invariant UserStep.outputEnded) hmore
        ⟨(hforwarding i).1, hdone, rfl, rfl⟩
    exact ⟨hsame.read, hsame.outgoing_eq⟩

end Output

/-! ## Two clients of one PTY -/

def firstChunk : Chunk := ⟨[104], by decide⟩

def secondChunk : Chunk := ⟨[105], by decide⟩

/-- Both threads read before either of them sends. -/
def testReads : List (Bool × Action Nat) :=
  [(false, .output (.read (.ok firstChunk))), (true, .output (.read (.ok secondChunk))),
    (true, .output (.send (.ok ()))), (false, .output (.send (.ok ())))]

def testOutput : List (Bool × Action Nat) :=
  (greeting testHello).map (Prod.mk false) ++ ((greeting testHello).map (Prod.mk true) ++ testReads)

theorem run_testOutput : ∃ s : Users Bool Nat,
    run (Users.step userDeriveKey testIdentity) testOutput Users.start = some s ∧
      s.readFromPty = [104, 105] :=
  ⟨_, run_append_eq_some.2 ⟨_, run_greeting_part testHello_accepted _ rfl,
    run_append_eq_some.2 ⟨_, run_greeting_part testHello_accepted _ rfl, rfl⟩⟩, rfl⟩

theorem output_conserved_two : ∃ (s : Users Bool Nat) (payloads : Bool → List Data)
    (held : Bool → Option Data), s.readFromPty = [104, 105] ∧
      Interleaves (fun i => (payloads i ++ (held i).toList).flatten) s.readFromPty := by
  obtain ⟨s, hrun, hread⟩ := run_testOutput
  obtain ⟨payloads, held, -, hinterleaves, -⟩ := output_conserved hrun
  exact ⟨s, payloads, held, hread, hinterleaves⟩

end TereServer.Services.PtyUser
