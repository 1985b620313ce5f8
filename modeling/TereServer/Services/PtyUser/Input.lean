import Mathlib.Data.List.Infix
import TereServer.Proto.Limits
import TereServer.Services.PtyUser.Phases

/-!
# From the users to their PTY

What the PTY has accepted from a client is the beginning of what the client has typed,
however the writes are cut and whoever else writes in between.
-/

namespace TereServer.Services.PtyUser

open Lib Bincode Ipc Proto.PtyUser

section Keyboard

variable {ι F : Type} {deriveKey : Str → Bytes → BuildId} {identity : Str} {u u' : User F}
variable {transfers events : List Transfer} {payloads : List Data} {written left : Data}

/-- The payload of a valid message. -/
def keyboardInput (pkt : Packet F) : Option Data :=
  match pkt.receiveAs Input with
  | .ok (.keyboardInput input) => some input.1
  | .error _ => none

/-- What is typed in the packets of a client. -/
def keyboard (pkts : List (Packet F)) : List Data := pkts.filterMap keyboardInput

theorem keyboardInput_of_ok {pkt : Packet F} {input : Vec (BitVec 8)}
    (h : pkt.receiveAs Input = .ok (.keyboardInput input)) : keyboardInput pkt = some input.1 := by
  simp only [keyboardInput, h]

theorem keyboardInput_of_error {pkt : Packet F} {e : ReceiveError}
    (h : pkt.receiveAs Input = .error e) : keyboardInput pkt = none := by
  simp only [keyboardInput, h]

/-- What an input thread has written of the payloads it has received: all of them, all
but the rest of the last one, or some of them if it has ended. -/
def InputThread.Wrote (payloads : List Data) (written : Data) : InputThread → Prop
  | .notStarted => written = []
  | .receiving => written = payloads.flatten
  | .writing left => ∃ done part, payloads = done ++ [part ++ left] ∧ written = done.flatten ++ part
  | .ended _ => written <+: payloads.flatten

theorem InputThread.Wrote.isPrefix {input : InputThread} (h : input.Wrote payloads written) :
    written <+: payloads.flatten := by
  cases input with
  | notStarted =>
      obtain rfl : written = [] := h
      exact List.nil_prefix
  | receiving =>
      obtain rfl : written = payloads.flatten := h
      exact List.prefix_rfl
  | writing left =>
      obtain ⟨done, part, rfl, rfl⟩ := h
      refine ⟨left, ?_⟩
      simp
  | ended joined => exact h

theorem InputThread.Wrote.ended {input : InputThread} (h : input.Wrote payloads written)
    (joined : Joined) : (InputThread.ended joined).Wrote payloads written := h.isPrefix

/-- Nothing left to write is the same as having written everything. -/
theorem InputThread.Wrote.writeAll (h : (InputThread.writing left).Wrote payloads written) :
    (InputThread.writeAll left).Wrote payloads written := by
  cases left with
  | nil =>
      obtain ⟨done, part, rfl, rfl⟩ := h
      simp [InputThread.writeAll, InputThread.Wrote]
  | cons b left => exact h

theorem InputThread.Wrote.receive {input : Data} (h : InputThread.receiving.Wrote payloads written) :
    (InputThread.writing input).Wrote (payloads ++ [input]) written := by
  obtain rfl : written = payloads.flatten := h
  exact ⟨payloads, [], rfl, (List.append_nil _).symm⟩

/-- A write moves bytes from what is left to what is written. -/
theorem InputThread.Wrote.write (h : (InputThread.writing left).Wrote payloads written) (n : Nat) :
    (InputThread.writing (left.drop n)).Wrote payloads (written ++ left.take n) := by
  obtain ⟨done, part, rfl, rfl⟩ := h
  refine ⟨done, part ++ left.take n, ?_, ?_⟩
  · rw [List.append_assoc, List.take_append_drop]
  · rw [List.append_assoc]

/-- What the input thread has done so far. -/
def Typed (u : User F) (transfers : List Transfer) : Prop :=
  u.input.Wrote (keyboard (u.socket.received.drop 1)) (transfers.flatMap Transfer.wroteBytes)

theorem keyboard_take {socket : Socket F} (h : socket.received ≠ []) (pkt : Packet F)
    (incoming : List (Packet F)) :
    keyboard ((socket.take pkt incoming).received.drop 1) =
      keyboard (socket.received.drop 1) ++ (keyboardInput pkt).toList := by
  have hone : 1 ≤ socket.received.length := List.length_pos_iff.2 h
  have hreceived : (socket.take pkt incoming).received = socket.received ++ [pkt] := rfl
  rw [hreceived, List.drop_append_of_le_length hone, keyboard, List.filterMap_append]
  cases hpkt : keyboardInput pkt with
  | none => simp [keyboard, hpkt]
  | some input => simp [keyboard, hpkt]

theorem InputStep.typed {input : InputThread} {socket : Socket F} {a : InputAction}
    (h : InputStep u.input u.socket a input socket events) (hgreeted : u.socket.received ≠ [])
    (hu : Typed u transfers) : Typed { u with input, socket } (transfers ++ events) := by
  obtain ⟨main, before, output, socket'⟩ := u
  unfold Typed at hu ⊢
  dsimp only at h hgreeted hu ⊢
  have hsame : (transfers ++ []).flatMap Transfer.wroteBytes =
      transfers.flatMap Transfer.wroteBytes := by rw [List.append_nil]
  cases h with
  | accepted _ hpkt =>
      rw [hsame, keyboard_take hgreeted, keyboardInput_of_ok hpkt]
      exact hu.receive.writeAll
  | rejected _ hpkt =>
      rw [hsame, keyboard_take hgreeted, keyboardInput_of_error hpkt, Option.toList_none,
        List.append_nil]
      exact hu.ended _
  | atEnd =>
      rw [hsame]
      exact hu.ended _
  | receiveFailed =>
      rw [hsame]
      exact hu.ended _
  | @wrote _ left n _ =>
      have hwrote := (hu.write (n + 1)).writeAll
      rw [List.flatMap_append]
      simpa [Transfer.wroteBytes] using hwrote
  | wroteNothing =>
      rw [hsame]
      exact hu.ended _
  | interrupted _ =>
      rw [hsame]
      exact hu
  | writeFailed _ =>
      rw [hsame]
      exact hu.ended _
  | panicked _ =>
      rw [hsame]
      exact hu.ended _

/-- A step that does not concern the input thread. -/
theorem Typed.frame (h : Typed u transfers)
    (hinput : u.input.Wrote (keyboard (u.socket.received.drop 1))
        (transfers.flatMap Transfer.wroteBytes) →
      u'.input.Wrote (keyboard (u'.socket.received.drop 1))
        (transfers.flatMap Transfer.wroteBytes))
    (hevents : events.flatMap Transfer.wroteBytes = []) : Typed u' (transfers ++ events) := by
  unfold Typed
  rw [List.flatMap_append, hevents, List.append_nil]
  exact hinput h

theorem OutputStep.wroteBytes_eq_nil {output output' : OutputThread} {socket socket' : Socket F}
    {a : OutputAction} (h : OutputStep output socket a output' socket' events) :
    events.flatMap Transfer.wroteBytes = [] := by
  cases h <;> rfl

/-- The call itself receives the handshake, before the thread starts. -/
theorem MainStep.input_frame {a : MainAction} (h : MainStep deriveKey identity u a u')
    (hu : Phased u) (hinput : u.input.Wrote (keyboard (u.socket.received.drop 1)) written) :
    u'.input.Wrote (keyboard (u'.socket.received.drop 1)) written := by
  have hphase := hu.phase
  cases h with
  | greeted _ _ =>
      obtain ⟨rfl, -, -, -⟩ := hphase
      exact hinput
  | notGreeted _ _ =>
      obtain ⟨rfl, -, -, -⟩ := hphase
      exact hinput
  | inputSpawned =>
      obtain ⟨rfl, -, hone, -⟩ := hphase
      obtain rfl : written = [] := hinput
      dsimp only at hone ⊢
      rw [List.drop_eq_nil_iff.2 (Nat.le_of_eq hone)]
      rfl
  | _ => exact hinput

/-- The invariant of a user. -/
def Typing (own : User F × List Transfer) : Prop := Phased own.1 ∧ Typed own.1 own.2

theorem typing_connected : Typing ((.connected, []) : User F × List Transfer) :=
  ⟨phased_connected, rfl⟩

theorem UserStep.typing {a : Action F} (h : UserStep deriveKey identity u a u' events)
    (hu : Typing (u, transfers)) : Typing (u', transfers ++ events) := by
  obtain ⟨hphased, htyped⟩ := hu
  refine ⟨h.phased hphased, ?_⟩
  cases h with
  | client hclient =>
      refine htyped.frame (fun hinput => ?_) rfl
      rw [hclient.frame.1]
      exact hinput
  | main hmain => exact htyped.frame (hmain.input_frame hphased) rfl
  | input hinput => exact hinput.typed (hphased.inputGreeted hinput.frame.live.started) htyped
  | output houtput =>
      refine htyped.frame (fun hinput => ?_) houtput.wroteBytes_eq_nil
      rw [houtput.frame.received_eq]
      exact hinput

/-! ## A thread that has failed -/

def InputThread.Ended : InputThread → Prop
  | .ended _ => True
  | _ => False

theorem InputThread.Ended.not_live {input : InputThread} (h : input.Ended) : ¬ input.Live := by
  cases input with
  | ended joined => exact not_false
  | _ => exact h.elim

theorem InputThread.Ended.started {input : InputThread} (h : input.Ended) :
    input ≠ .notStarted := by
  rintro rfl
  exact h

/-- A receive that fails or gets no valid message, a failed write, or a panic. -/
def InputAction.Fails (socket : Socket F) : InputAction → Prop
  | .receive (some _) => True
  | .receive none => ∀ pkt ∈ socket.incoming.head?, keyboardInput pkt = none
  | .write (.ok n) => n = 0
  | .write (.error e) => e.errno ≠ EINTR
  | .panic => True

theorem InputStep.failed {input input' : InputThread} {socket socket' : Socket F} {a : InputAction}
    (h : InputStep input socket a input' socket' events) (hfails : a.Fails socket) :
    input'.Ended ∧ events.flatMap Transfer.wroteBytes = [] := by
  cases h with
  | accepted hincoming hpkt =>
      have hnone := hfails _ (by rw [hincoming]; rfl)
      rw [keyboardInput_of_ok hpkt] at hnone
      cases hnone
  | wrote _ => cases hfails
  | interrupted hintr => exact absurd hintr hfails
  | _ => exact ⟨trivial, rfl⟩

theorem UserStep.failed {a : InputAction} (h : UserStep deriveKey identity u (.input a) u' events)
    (hfails : a.Fails u.socket) : u'.input.Ended ∧ events.flatMap Transfer.wroteBytes = [] := by
  cases h with
  | input hinput => exact hinput.failed hfails

/-- A user whose input thread has ended, with what it has written by then. -/
structure InputEnded (bytes : Data) (own : User F × List Transfer) : Prop where
  phased : Phased own.1
  ended : own.1.input.Ended
  written : own.2.flatMap Transfer.wroteBytes = bytes

theorem MainStep.input_ended {a : MainAction} (h : MainStep deriveKey identity u a u')
    (hu : Phased u) (hended : u.input.Ended) : u'.input = u.input := by
  have hphase := hu.phase
  cases h with
  | inputSpawned => exact absurd hphase.1 hended.started
  | _ => rfl

theorem UserStep.inputEnded {bytes : Data} {a : Action F}
    (h : UserStep deriveKey identity u a u' events) (hu : InputEnded bytes (u, transfers)) :
    InputEnded bytes (u', transfers ++ events) := by
  obtain ⟨hphased, hended, hwritten⟩ := hu
  have hphased' := h.phased hphased
  have hmore (hnone : events.flatMap Transfer.wroteBytes = []) :
      (transfers ++ events).flatMap Transfer.wroteBytes = bytes := by
    rw [List.flatMap_append, hnone, List.append_nil, hwritten]
  cases h with
  | client hclient => exact ⟨hphased', hended, hmore rfl⟩
  | main hmain =>
      refine ⟨hphased', ?_, hmore rfl⟩
      show u'.input.Ended
      rw [hmain.input_ended hphased hended]
      exact hended
  | input hinput => exact absurd hinput.frame.live hended.not_live
  | output houtput => exact ⟨hphased', hended, hmore houtput.wroteBytes_eq_nil⟩

variable [DecidableEq ι] {actions : List (ι × Action F)} {s : Users ι F}

/-- Once its input thread has ended, a client contributes no further byte. -/
theorem writtenBy_of_ended {i : ι} (hs : Phased (s.part i)) (hended : (s.part i).input.Ended)
    {more : List (ι × Action F)} {s' : Users ι F}
    (hmore : run (Users.step deriveKey identity) more s = some s') :
    s'.writtenBy i = s.writtenBy i := by
  have hsame : InputEnded (s.writtenBy i) (s'.own i) :=
    Components.run_invariant (traced_invariant UserStep.inputEnded) hmore ⟨hs, hended, rfl⟩
  exact hsame.written

/-- At every moment what the PTY has accepted is an interleaving of a prefix of what
each client has typed: all the payloads its thread is done with, and part of the one
it is writing.  A failure is the last thing that a thread does. -/
theorem keyboard_conserved
    (hrun : run (Users.step deriveKey identity) actions (Users.start : Users ι F) = some s) :
    Interleaves s.writtenBy s.writtenToPty ∧
      ∀ i, s.writtenBy i <+: (keyboard ((s.part i).socket.sent.drop 1)).flatten ∧
        (s.part i).input.Wrote (keyboard ((s.part i).socket.received.drop 1)) (s.writtenBy i) ∧
        ∀ a s', a.Fails (s.part i).socket →
          Users.step deriveKey identity s (i, .input a) = some s' →
            ∀ more s'', run (Users.step deriveKey identity) more s' = some s'' →
              s''.writtenBy i = s.writtenBy i := by
  have htyping (i : ι) : Typing (s.own i) :=
    Components.run_invariant (traced_invariant UserStep.typing) hrun typing_connected
  refine ⟨interleaves_log Transfer.wroteBytes s.log, fun i => ⟨?_, (htyping i).2, ?_⟩⟩
  · have hprefix : s.writtenBy i <+: (keyboard ((s.part i).socket.received.drop 1)).flatten :=
      (htyping i).2.isPrefix
    have hsent : (s.part i).socket.received <+: (s.part i).socket.sent := List.prefix_append _ _
    exact hprefix.trans ((hsent.drop 1).filterMap keyboardInput).flatten
  · intro a s' hfails hstep more s'' hmore
    have htraced := Components.step_own_self hstep
    have hphased := (traced_invariant UserStep.typing _ _ _ htraced (htyping i)).1
    obtain ⟨events, hspec, hevents⟩ := traced_spec htraced
    obtain ⟨hended, hnone⟩ := hspec.failed hfails
    have hlog : entriesOf i s'.log = entriesOf i s.log ++ events := hevents
    rw [writtenBy_of_ended hphased hended hmore, Users.writtenBy, hlog, List.flatMap_append, hnone,
      List.append_nil]
    rfl

end Keyboard

/-! ## Two clients that type at the same time -/

section Typing

variable {F : Type} {deriveKey : Str → Bytes → BuildId} {identity : Str}

theorem step_types {main : Main} {output : OutputThread} {socket : Socket F} {pkt : Packet F}
    {incoming : List (Packet F)} {input : Vec (BitVec 8)} (hincoming : socket.incoming = pkt :: incoming)
    (h : pkt.receiveAs Input = .ok (.keyboardInput input)) :
    User.step deriveKey identity ⟨main, .receiving, output, socket⟩ (.input (.receive none)) =
      some (⟨main, .writeAll input.1, output, socket.take pkt incoming⟩, []) := by
  have hrecv : socket.recv none = some (.ok pkt, socket.take pkt incoming) := by
    simp only [Socket.recv, hincoming, Socket.take]
  simp only [User.step, InputThread.step, hrecv, Option.map_some, InputThread.received, h]

theorem traced_types {main : Main} {output : OutputThread} {socket : Socket F} {pkt : Packet F}
    {incoming : List (Packet F)} {input : Vec (BitVec 8)} {transfers : List Transfer}
    (hincoming : socket.incoming = pkt :: incoming)
    (h : pkt.receiveAs Input = .ok (.keyboardInput input)) :
    traced (User.step deriveKey identity) (⟨main, .receiving, output, socket⟩, transfers)
        (.input (.receive none)) =
      some (⟨main, .writeAll input.1, output, socket.take pkt incoming⟩, transfers) := by
  simp only [traced, step_types hincoming h, Option.map_some, List.append_nil]

end Typing

def firstInput : Vec (BitVec 8) := ⟨[104, 105], by decide⟩

def secondInput : Vec (BitVec 8) := ⟨[98], by decide⟩

def firstTyped : Packet Nat := .of (Input.keyboardInput firstInput : Input Nat)

def secondTyped : Packet Nat := .of (Input.keyboardInput secondInput : Input Nat)

theorem firstTyped_received : firstTyped.receiveAs Input = .ok (.keyboardInput firstInput) :=
  Proto.keyboardInput_received (by decide)

theorem secondTyped_received : secondTyped.receiveAs Input = .ok (.keyboardInput secondInput) :=
  Proto.keyboardInput_received (by decide)

def testSends : List (Bool × Action Nat) :=
  [(false, .client (.send firstTyped)), (true, .client (.send secondTyped))]

/-- A short write, and the write of the other client before the rest of it. -/
def testWrites : List (Bool × Action Nat) :=
  [(false, .input (.receive none)), (true, .input (.receive none)),
    (false, .input (.write (.ok 1))), (true, .input (.write (.ok 1))),
    (false, .input (.write (.ok 1)))]

def testTyping : List (Bool × Action Nat) :=
  (greeting testHello).map (Prod.mk false) ++
    ((greeting testHello).map (Prod.mk true) ++ (testSends ++ testWrites))

theorem run_testTyping : ∃ s : Users Bool Nat,
    run (Users.step userDeriveKey testIdentity) testTyping Users.start = some s ∧
      s.writtenToPty = [104, 98, 105] :=
  ⟨_, run_append_eq_some.2 ⟨_, run_greeting_part testHello_accepted _ rfl,
    run_append_eq_some.2 ⟨_, run_greeting_part testHello_accepted _ rfl,
    run_append_eq_some.2 ⟨_, rfl,
    run_cons_eq_some.2 ⟨_, Components.step_part (step_types rfl firstTyped_received),
    run_cons_eq_some.2 ⟨_, Components.step_part (step_types rfl secondTyped_received), rfl⟩⟩⟩⟩⟩,
    rfl⟩

theorem keyboard_conserved_two : ∃ s : Users Bool Nat, s.writtenToPty = [104, 98, 105] ∧
    Interleaves s.writtenBy s.writtenToPty := by
  obtain ⟨s, hrun, hwritten⟩ := run_testTyping
  exact ⟨s, hwritten, (keyboard_conserved hrun).1⟩

end TereServer.Services.PtyUser
