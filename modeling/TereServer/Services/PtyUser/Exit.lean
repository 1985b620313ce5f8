import TereServer.Services.PtyUser.Input
import TereServer.Services.PtyUser.Output

/-!
# How a call ends

What `serve_user` leaves behind when it returns or unwinds, and what it reports when
nothing has gone wrong.  These are results about one call; those of a family are runs
of it (`Components.run_own`).
-/

namespace TereServer.Services.PtyUser

open Lib Bincode Ipc Proto.PtyUser

def Main.Finished : Main → Prop
  | .returned _ => True
  | .panicked _ => True
  | _ => False

section Threads

variable {F : Type} {deriveKey : Str → Bytes → BuildId} {identity : Str} {u u' : User F}

/-- When the call has ended, so have its threads, which hold the connection until then,
and no further byte is written. -/
def LeavesNone (deriveKey : Str → Bytes → BuildId) (identity : Str)
    (own : User F × List Transfer) : Prop :=
  own.1.main.Finished → ¬ own.1.input.Live ∧ ¬ own.1.output.Live ∧
    ∀ more own', run (traced (User.step deriveKey identity)) more own = some own' →
      own'.2.flatMap Transfer.wroteBytes = own.2.flatMap Transfer.wroteBytes

/-- The call does not leave early while its input thread runs: it starts its output
thread, which does not panic, and the print and the shutdown succeed. -/
def Orderly (u : User F) : Action F → Prop
  | .main (.spawnOutput false) => ¬ u.input.Live
  | .main .joinOutput => u.output = .ended .panicked → ¬ u.input.Live
  | .main (.print false) => ¬ u.input.Live
  | .main (.shutdown (.error _)) => ¬ u.input.Live
  | _ => True

/-- A call that has ended has no input thread. -/
structure Quiet (u : User F) : Prop where
  phased : Phased u
  finished : u.main.Finished → ¬ u.input.Live

theorem quiet_connected : Quiet (.connected : User F) := ⟨phased_connected, fun h => h.elim⟩

theorem MainStep.finished {a : MainAction} (h : MainStep deriveKey identity u a u')
    (horderly : Orderly u (.main a)) (hu : Phased u) : u'.main.Finished → ¬ u'.input.Live := by
  have hphase := hu.phase
  intro hfinished
  cases h with
  | notGreeted _ _ =>
      obtain ⟨rfl, -, -, -⟩ := hphase
      exact not_false
  | notReplied =>
      obtain ⟨rfl, -, -, -⟩ := hphase
      exact not_false
  | inputNotSpawned =>
      obtain ⟨rfl, -, -, -⟩ := hphase
      exact not_false
  | outputNotSpawned => exact horderly
  | outputPanicked => exact horderly rfl
  | notPrinted => exact horderly
  | notShutDown => exact horderly
  | inputPanicked => exact not_false
  | inputJoined => exact not_false
  | _ => exact hfinished.elim

theorem UserStep.quiet {a : Action F} {events : List Transfer}
    (h : UserStep deriveKey identity u a u' events) (horderly : Orderly u a) (hu : Quiet u) :
    Quiet u' := by
  refine ⟨h.phased hu.phased, ?_⟩
  cases h with
  | client _ => exact hu.finished
  | main hmain => exact hmain.finished horderly hu.phased
  | input hinput =>
      intro hfinished
      exact absurd hinput.frame.live (hu.finished hfinished)
  | output houtput =>
      intro hfinished
      have hmain := hu.phased.joining houtput.frame.live
      dsimp only at hfinished
      rw [hmain] at hfinished
      exact hfinished.elim

/-- Without its input thread, a call that has ended writes nothing. -/
structure Silent (bytes : Data) (own : User F × List Transfer) : Prop where
  finished : own.1.main.Finished
  not_live : ¬ own.1.input.Live
  written : own.2.flatMap Transfer.wroteBytes = bytes

theorem UserStep.silent {bytes : Data} {a : Action F} {transfers events : List Transfer}
    (h : UserStep deriveKey identity u a u' events) (hu : Silent bytes (u, transfers)) :
    Silent bytes (u', transfers ++ events) := by
  obtain ⟨hfinished, hlive, hwritten⟩ := hu
  cases h with
  | client _ =>
      refine ⟨hfinished, hlive, ?_⟩
      rw [List.append_nil]
      exact hwritten
  | main hmain => cases hmain <;> exact hfinished.elim
  | input hinput => exact absurd hinput.frame.live hlive
  | output houtput =>
      refine ⟨hfinished, hlive, ?_⟩
      rw [List.flatMap_append, houtput.wroteBytes_eq_nil, List.append_nil, hwritten]

theorem Quiet.leavesNone {own : User F × List Transfer} (h : Quiet own.1) :
    LeavesNone deriveKey identity own := by
  intro hfinished
  have houtput : ¬ own.1.output.Live := by
    intro hlive
    rw [h.phased.joining hlive] at hfinished
    exact hfinished
  refine ⟨h.finished hfinished, houtput, fun more own' hmore => ?_⟩
  have hsilent : Silent (own.2.flatMap Transfer.wroteBytes) own' :=
    run_invariant (traced_invariant UserStep.silent) hmore ⟨hfinished, h.finished hfinished, rfl⟩
  exact hsilent.written

/-- A step that is not orderly leaves the input thread behind. -/
theorem MainStep.orderly {a : MainAction} (h : MainStep deriveKey identity u a u')
    (hlive : u'.main.Finished → ¬ u'.input.Live) : Orderly u (.main a) := by
  cases h with
  | outputNotSpawned => exact hlive trivial
  | outputPanicked => exact fun _ => hlive trivial
  | outputJoined => exact fun hpanicked => by cases hpanicked
  | notPrinted => exact hlive trivial
  | notShutDown => exact hlive trivial
  | _ => trivial

/-- In every state that a run goes through the threads are gone with their call,
exactly when no step of the run leaves early while the input thread runs. -/
theorem leaves_none_iff_orderly {actions : List (Action F)} {own : User F × List Transfer}
    (hrun : run (traced (User.step deriveKey identity)) actions (.connected, []) = some own) :
    (∀ pre mid, pre <+: actions →
      run (traced (User.step deriveKey identity)) pre (.connected, []) = some mid →
        LeavesNone deriveKey identity mid) ↔
      Meets (traced (User.step deriveKey identity)) (fun own a => Orderly own.1 a) actions
        (.connected, []) := by
  constructor
  · intro hreached
    refine meets_of_reached (fun own a own' hstep hleaves => ?_) hrun hreached
    obtain ⟨events, hspec, -⟩ := traced_spec hstep
    cases a with
    | main a =>
        cases hspec with
        | main hmain => exact hmain.orderly fun hfinished => (hleaves hfinished).1
    | _ => trivial
  · intro hmeets pre mid hpre hmid
    obtain ⟨rest, rfl⟩ := hpre
    have hquiet : Quiet mid.1 :=
      run_invariant_of_steps UserStep.quiet hmid hmeets.prefix_of quiet_connected
    exact hquiet.leavesNone

end Threads

section Result

variable {F : Type} {deriveKey : Str → Bytes → BuildId} {identity : Str} {u u' : User F}

/-- The input thread ends in an error, and so does the call. -/
structure NeverOk (u : User F) : Prop where
  input : u.input ≠ .ended (.returned (.ok ()))
  main : u.main ≠ .returned (.ok ())

theorem neverOk_connected : NeverOk (.connected : User F) := ⟨by simp [User.connected],
  by simp [User.connected]⟩

theorem InputThread.writeAll_ne_ended (left : Data) (joined : Joined) :
    writeAll left ≠ .ended joined := by
  unfold writeAll
  split <;> simp

theorem UserStep.neverOk {a : Action F} {events : List Transfer}
    (h : UserStep deriveKey identity u a u' events) (hu : NeverOk u) : NeverOk u' := by
  obtain ⟨hinput, hmain⟩ := hu
  cases h with
  | client _ => exact ⟨hinput, hmain⟩
  | main hstep =>
      cases hstep with
      | inputJoined =>
          refine ⟨hinput, fun hok => ?_⟩
          cases hok
          exact hinput rfl
      | inputSpawned => exact ⟨by simp, by simp⟩
      | _ => exact ⟨hinput, by simp⟩
  | input hstep =>
      refine ⟨?_, hmain⟩
      dsimp only
      generalize u.input = before at *
      cases hstep with
      | accepted _ _ => exact InputThread.writeAll_ne_ended _ _
      | wrote _ => exact InputThread.writeAll_ne_ended _ _
      | _ => simp
  | output _ => exact ⟨hinput, hmain⟩

/-- Nothing goes wrong: the handshake is accepted, the client sends valid messages,
every write takes some bytes or is interrupted, the PTY delivers chunks and then `EIO`,
and every other call succeeds. -/
def Clean (deriveKey : Str → Bytes → BuildId) (identity : Str) (u : User F) : Action F → Prop
  | .client (.send pkt) => u.socket.sent ≠ [] → (keyboardInput pkt).isSome
  | .client .close => True
  | .main (.receive failure) => failure = none ∧
      ∃ pkt ∈ u.socket.incoming.head?, Handshake.accept deriveKey identity clientIntent pkt = .ok ()
  | .main (.send result) => result = .ok ()
  | .main (.spawnInput ok) => ok = true
  | .main (.spawnOutput ok) => ok = true
  | .main .joinOutput => True
  | .main (.print ok) => ok = true
  | .main (.shutdown result) => result = .ok ()
  | .main .joinInput => True
  | .input (.receive failure) => failure = none
  | .input (.write (.ok n)) => n ≠ 0
  | .input (.write (.error e)) => e.errno = EINTR
  | .input .panic => False
  | .output (.read (.ok _)) => True
  | .output (.read (.error e)) => e.errno = EIO
  | .output (.send result) => result = .ok ()
  | .output .panic => False

/-- The end of the stream, as the input thread reports it. -/
def reportedEnd : Except ServeUserError Unit := .error (.receive .endOfStream)

/-- What a clean run has got to. -/
structure CleanEnd (u : User F) : Prop where
  phased : Phased u
  valid : ∀ pkt ∈ u.socket.sent.drop 1, (keyboardInput pkt).isSome
  output : ∀ joined, u.output = .ended joined → joined = .returned (.ok ())
  input : ∀ joined, u.input = .ended joined → joined = .returned reportedEnd
  main : u.main.Finished → u.main = .returned reportedEnd

theorem cleanEnd_connected : CleanEnd (.connected : User F) where
  phased := phased_connected
  valid _ h := by cases h
  output _ h := by cases h
  input _ h := by cases h
  main h := h.elim

theorem Socket.sent_take {socket : Socket F} {pkt : Packet F} {incoming : List (Packet F)}
    (h : socket.incoming = pkt :: incoming) : (socket.take pkt incoming).sent = socket.sent := by
  simp [Socket.take, Socket.sent, h]

theorem ClientStep.valid {socket socket' : Socket F} {a : ClientAction F}
    (h : ClientStep socket a socket') (hclean : Clean deriveKey identity u (.client a))
    (hsocket : u.socket = socket) (hvalid : ∀ pkt ∈ socket.sent.drop 1, (keyboardInput pkt).isSome) :
    ∀ pkt ∈ socket'.sent.drop 1, (keyboardInput pkt).isSome := by
  subst hsocket
  cases h with
  | closed => exact hvalid
  | @sent pkt _ =>
      have hsent : ({ u.socket with incoming := u.socket.incoming ++ [pkt] } : Socket F).sent =
          u.socket.sent ++ [pkt] := (List.append_assoc _ _ _).symm
      intro other hmem
      rw [hsent] at hmem
      cases hempty : u.socket.sent with
      | nil =>
          rw [hempty] at hmem
          cases hmem
      | cons first rest =>
          rw [hempty, List.cons_append, List.drop_one, List.tail_cons, List.mem_append,
            List.mem_singleton] at hmem
          rw [hempty] at hvalid
          rcases hmem with hold | rfl
          · exact hvalid other hold
          · refine hclean ?_
            rw [hempty]
            simp

/-- In a clean run the input thread only ends at the end of the stream. -/
theorem InputStep.cleanEnd {input input' : InputThread} {socket socket' : Socket F}
    {events : List Transfer} {a : InputAction} (h : InputStep input socket a input' socket' events)
    (hclean : Clean deriveKey identity u (.input a)) (hgreeted : socket.received ≠ [])
    (hvalid : ∀ pkt ∈ socket.sent.drop 1, (keyboardInput pkt).isSome) :
    socket'.sent = socket.sent ∧
      ∀ joined, input' = .ended joined → joined = .returned reportedEnd := by
  cases h with
  | accepted hincoming _ =>
      exact ⟨Socket.sent_take hincoming, fun joined hended =>
        absurd hended (InputThread.writeAll_ne_ended _ _)⟩
  | @rejected _ pkt incoming _ hincoming hpkt =>
      have hmem : pkt ∈ socket.sent.drop 1 := by
        have hone : 1 ≤ socket.received.length := List.length_pos_iff.2 hgreeted
        rw [Socket.sent, List.drop_append_of_le_length hone, hincoming]
        simp
      have hsome := hvalid pkt hmem
      rw [keyboardInput_of_error hpkt] at hsome
      cases hsome
  | atEnd =>
      refine ⟨rfl, fun joined hended => ?_⟩
      cases hended
      rfl
  | receiveFailed => cases hclean
  | wrote _ =>
      exact ⟨rfl, fun joined hended => absurd hended (InputThread.writeAll_ne_ended _ _)⟩
  | wroteNothing => exact absurd rfl hclean
  | interrupted _ => exact ⟨rfl, fun joined hended => by cases hended⟩
  | writeFailed hintr => exact absurd hclean hintr
  | panicked _ => exact hclean.elim

theorem OutputStep.cleanEnd {output output' : OutputThread} {socket socket' : Socket F}
    {events : List Transfer} {a : OutputAction}
    (h : OutputStep output socket a output' socket' events)
    (hclean : Clean deriveKey identity u (.output a)) :
    ∀ joined, output' = .ended joined → joined = .returned (.ok ()) := by
  intro joined hended
  cases h with
  | read => cases hended
  | hungUp _ =>
      cases hended
      rfl
  | readFailed heio => exact absurd hclean heio
  | sent => cases hended
  | sendFailed => cases hclean
  | panicked _ => exact hclean.elim

theorem MainStep.cleanEnd {a : MainAction} (h : MainStep deriveKey identity u a u')
    (hclean : Clean deriveKey identity u (.main a)) (hu : CleanEnd u) : CleanEnd u' := by
  have hphased := h.phased hu.phased
  have hvalid := hu.valid
  cases h with
  | greeted hincoming _ =>
      rw [← Socket.sent_take hincoming] at hvalid
      exact ⟨hphased, hvalid, hu.output, hu.input, fun hfinished => hfinished.elim⟩
  | @notGreeted _ _ socket _ _ _ _ hrecv hrejected =>
      obtain ⟨rfl, pkt, hhead, haccept⟩ := hclean
      obtain ⟨incoming, hincoming⟩ : ∃ incoming, socket.incoming = pkt :: incoming :=
        List.head?_eq_some_iff.1 hhead
      simp only [Socket.recv, hincoming, Option.some.injEq, Prod.mk.injEq] at hrecv
      obtain ⟨rfl, -⟩ := hrecv
      rw [Main.received_of_accepted haccept] at hrejected
      cases hrejected
  | notReplied => cases hclean
  | inputNotSpawned => cases hclean
  | outputNotSpawned => cases hclean
  | outputPanicked => cases hu.output .panicked rfl
  | notPrinted => cases hclean
  | notShutDown => cases hclean
  | inputPanicked => cases hu.input .panicked rfl
  | inputJoined =>
      refine ⟨hphased, hvalid, hu.output, hu.input, fun _ => ?_⟩
      cases hu.input _ rfl
      rfl
  | inputSpawned =>
      exact ⟨hphased, hvalid, hu.output, (fun joined hended => by cases hended),
        fun hfinished => hfinished.elim⟩
  | outputSpawned =>
      exact ⟨hphased, hvalid, (fun joined hended => by cases hended), hu.input,
        fun hfinished => hfinished.elim⟩
  | _ => exact ⟨hphased, hvalid, hu.output, hu.input, fun hfinished => hfinished.elim⟩

theorem UserStep.cleanEnd {a : Action F} {events : List Transfer}
    (h : UserStep deriveKey identity u a u' events) (hclean : Clean deriveKey identity u a)
    (hu : CleanEnd u) : CleanEnd u' := by
  have hphased := h.phased hu.phased
  cases h with
  | client hclient =>
      exact ⟨hphased, hclient.valid hclean rfl hu.valid, hu.output, hu.input, hu.main⟩
  | main hmain => exact hmain.cleanEnd hclean hu
  | @input _ _ socket _ hinput =>
      have hgreeted := hu.phased.inputGreeted hinput.frame.live.started
      obtain ⟨hsent, hend⟩ := hinput.cleanEnd hclean hgreeted hu.valid
      refine ⟨hphased, ?_, hu.output, hend, hu.main⟩
      show ∀ pkt ∈ socket.sent.drop 1, (keyboardInput pkt).isSome
      rw [hsent]
      exact hu.valid
  | @output _ _ socket _ houtput =>
      have hframe := houtput.frame
      have hsent : socket.sent = u.socket.sent := by
        rw [Socket.sent, Socket.sent, hframe.received_eq, hframe.incoming_eq]
      refine ⟨hphased, ?_, houtput.cleanEnd hclean, hu.input, hu.main⟩
      show ∀ pkt ∈ socket.sent.drop 1, (keyboardInput pkt).isSome
      rw [hsent]
      exact hu.valid

/-- No call returns `Ok`; one in which nothing goes wrong reports the end of the stream. -/
theorem serve_user_reports_end {actions : List (Action F)} {own : User F × List Transfer}
    (hrun : run (traced (User.step deriveKey identity)) actions (.connected, []) = some own) :
    own.1.main ≠ .returned (.ok ()) ∧
      (Meets (traced (User.step deriveKey identity)) (fun own a => Clean deriveKey identity own.1 a)
          actions (.connected, []) →
        own.1.main.Finished → own.1.main = .returned (.error (.receive .endOfStream))) := by
  constructor
  · have hnever : NeverOk own.1 :=
      run_invariant (traced_invariant (I := fun own => NeverOk own.1) UserStep.neverOk) hrun
        neverOk_connected
    exact hnever.main
  · intro hclean
    have hend : CleanEnd own.1 :=
      run_invariant_of_steps UserStep.cleanEnd hrun hclean cleanEnd_connected
    exact hend.main

/-! ## Calls in which nothing goes wrong -/

theorem greeting_clean {hello : Packet F}
    (h : Handshake.accept deriveKey identity clientIntent hello = .ok ()) :
    RunMeets (traced (User.step deriveKey identity)) (fun own a => Clean deriveKey identity own.1 a)
      (greeting hello) (.connected, []) (.served deriveKey identity hello, []) := by
  have hsent : Clean deriveKey identity .connected (.client (.send hello)) := absurd rfl
  refine .cons rfl hsent (.cons (traced_greeted h) ⟨rfl, hello, rfl, h⟩ ?_)
  exact .cons rfl rfl (.cons rfl rfl (.cons rfl rfl (.nil _)))

end Result

/-! ## The end of a shell -/

/-- The client types, the PTY delivers a chunk and then `EIO`. -/
def testTraffic : List (Action Nat) :=
  [.client (.send firstTyped), .input (.receive none), .input (.write (.ok 2)),
    .output (.read (.ok firstChunk)), .output (.send (.ok ())),
    .output (.read (.error { errno := EIO })), .main .joinOutput, .main (.print true)]

def testEnding : List (Action Nat) :=
  [.main (.shutdown (.ok ())), .input (.receive none), .main .joinInput]

theorem firstTyped_valid : (keyboardInput firstTyped).isSome := by
  rw [keyboardInput_of_ok firstTyped_received]
  rfl

/-- The call once the shell has ended, before the shutdown. -/
def User.hungUp : User Nat :=
  ⟨.shuttingDown, .receiving, .ended (.returned (.ok ())),
    ⟨[], [testHello, firstTyped], false, false,
      [(endpoint testIdentity).reply userDeriveKey, .of (sessionOutput firstChunk)]⟩⟩

def testTransfers : List Transfer := [.wrote [104, 105], .read [104]]

theorem testTraffic_clean :
    RunMeets (traced (User.step userDeriveKey testIdentity))
      (fun own a => Clean userDeriveKey testIdentity own.1 a) (greeting testHello ++ testTraffic)
      (.connected, []) (.hungUp, testTransfers) := by
  refine .append (greeting_clean testHello_accepted) ?_
  refine .cons rfl (fun _ => firstTyped_valid) (.cons (traced_types rfl firstTyped_received) rfl ?_)
  refine .cons rfl (Nat.succ_ne_zero 1) (.cons rfl trivial (.cons rfl rfl ?_))
  exact .cons rfl rfl (.cons rfl trivial (.cons rfl rfl (.nil _)))

theorem testEnding_clean : ∃ own : User Nat × List Transfer,
    RunMeets (traced (User.step userDeriveKey testIdentity))
      (fun own a => Clean userDeriveKey testIdentity own.1 a)
      (greeting testHello ++ testTraffic ++ testEnding) (.connected, []) own ∧
    own.1.main = .returned reportedEnd :=
  ⟨_, testTraffic_clean.append (.cons rfl rfl (.cons rfl rfl (.cons rfl trivial (.nil _)))), rfl⟩

theorem Main.finished_of_returned {main : Main} {result : Except ServeUserError Unit}
    (h : main = .returned result) : main.Finished := by
  rw [h]
  trivial

theorem serve_user_reports_end_of_shell : ∃ own : User Nat × List Transfer,
    run (traced (User.step userDeriveKey testIdentity))
      (greeting testHello ++ testTraffic ++ testEnding) (.connected, []) = some own ∧
    own.1.main = .returned (.error (.receive .endOfStream)) := by
  obtain ⟨own, hclean, hreturned⟩ := testEnding_clean
  exact ⟨own, hclean.run_eq, (serve_user_reports_end hclean.run_eq).2 hclean.meets
    (Main.finished_of_returned hreturned)⟩

/-- All goes well, and the result is not `Ok`. -/
theorem clean_run_returns_error : ∃ own : User Nat × List Transfer,
    RunMeets (traced (User.step userDeriveKey testIdentity))
      (fun own a => Clean userDeriveKey testIdentity own.1 a)
      (greeting testHello ++ testTraffic ++ testEnding) (.connected, []) own ∧
    own.1.main.Finished ∧ own.1.main ≠ .returned (.ok ()) := by
  obtain ⟨own, hclean, hreturned⟩ := testEnding_clean
  refine ⟨own, hclean, Main.finished_of_returned hreturned, ?_⟩
  rw [hreturned, reportedEnd]
  simp

/-- The PTY is gone from the start. -/
def testHangup : List (Action Nat) :=
  [.output (.read (.error { errno := EIO })), .main .joinOutput, .main (.print true)]

theorem testHangup_orderly : ∃ own : User Nat × List Transfer,
    RunMeets (traced (User.step userDeriveKey testIdentity)) (fun own a => Orderly own.1 a)
      (greeting testHello ++ (testHangup ++ testEnding)) (.connected, []) own ∧
    own.1.main.Finished :=
  ⟨_, .cons rfl trivial (.cons (traced_greeted testHello_accepted) trivial
    (.cons rfl trivial (.cons rfl trivial (.cons rfl trivial
    (.cons rfl trivial (.cons rfl (fun h => by cases h) (.cons rfl trivial
    (.cons rfl trivial (.cons rfl trivial (.cons rfl trivial (.nil _))))))))))), trivial⟩

theorem leaves_none_after_hangup : ∃ own : User Nat × List Transfer,
    run (traced (User.step userDeriveKey testIdentity))
      (greeting testHello ++ (testHangup ++ testEnding)) (.connected, []) = some own ∧
    own.1.main.Finished ∧ ¬ own.1.input.Live ∧ ¬ own.1.output.Live := by
  obtain ⟨own, horderly, hfinished⟩ := testHangup_orderly
  have hleaves := (leaves_none_iff_orderly horderly.run_eq).2 horderly.meets _ own List.prefix_rfl
    horderly.run_eq
  obtain ⟨hinput, houtput, -⟩ := hleaves hfinished
  exact ⟨own, horderly.run_eq, hfinished, hinput, houtput⟩

/-- The shutdown fails, and the client types on after the call has returned. -/
theorem failed_shutdown_leaves_thread : ∃ own own' : User Nat × List Transfer,
    run (traced (User.step userDeriveKey testIdentity))
        (greeting testHello ++ testTraffic ++ [.main (.shutdown (.error ⟨107⟩))])
        (.connected, []) = some own ∧
      own.1.main = .returned (.error (.socketShutdown ⟨107⟩)) ∧
      ¬ LeavesNone userDeriveKey testIdentity own ∧
      run (traced (User.step userDeriveKey testIdentity))
        [.client (.send firstTyped), .input (.receive none), .input (.write (.ok 2))] own =
          some own' ∧
      own'.2 = own.2 ++ [.wrote [104, 105]] := by
  refine ⟨_, _, run_append_eq_some.2 ⟨_, testTraffic_clean.run_eq, rfl⟩, rfl, fun h => ?_,
    run_cons_eq_some.2 ⟨_, rfl, run_cons_eq_some.2 ⟨_, traced_types rfl firstTyped_received, rfl⟩⟩,
    rfl⟩
  exact (h trivial).1 trivial

end TereServer.Services.PtyUser
