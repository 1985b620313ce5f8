import TereServer.Services.PtyUser.Liveness

/-!
# What is typed gets to the shell

As long as the shell reads what is written to the PTY, the input thread can always write
what was typed, without the others.
-/

namespace TereServer.Services.PtyUser

open Lib Bincode Ipc Proto.PtyUser

section Draining

variable {F : Type} {room : Room F} {deriveKey : Str → Bytes → BuildId} {identity : Str}
  {u : User F} {start own : User F × List Transfer}

def User.backlog (u : User F) : Nat := u.input.work - 1 + (u.socket.incoming.map inputWork).sum

/-- The input thread goes on, and everybody else stays as at the start. -/
structure Draining (start own : User F × List Transfer) : Prop where
  main : own.1.main = start.1.main
  output : own.1.output = start.1.output
  sent : own.1.socket.sent = start.1.socket.sent
  closed : own.1.socket.closed = start.1.socket.closed
  readShutdown : own.1.socket.readShutdown = start.1.socket.readShutdown
  outgoing : own.1.socket.outgoing = start.1.socket.outgoing
  read : own.2.flatMap Transfer.readBytes = start.2.flatMap Transfer.readBytes
  live : own.1.input.Live
  writing : own.1.input ≠ .writing []
  valid : ∀ pkt ∈ own.1.socket.incoming, (keyboardInput pkt).isSome
  typing : Typing own

theorem Draining.receives (hown : Draining start own) (hinput : own.1.input = .receiving)
    {pkt : Packet F} {incoming : List (Packet F)}
    (hincoming : own.1.socket.incoming = pkt :: incoming) :
    ∃ own', traced (User.step deriveKey identity) own (.input (.receive none)) = some own' ∧
      Draining start own' ∧ own'.1.backlog < own.1.backlog := by
  obtain ⟨⟨main, input, output, socket⟩, transfers⟩ := own
  obtain rfl : input = .receiving := hinput
  obtain ⟨hmain, houtput, hsent, hclosed, hshut, houtgoing, hread, -, -, hvalid, htyping⟩ := hown
  dsimp only at hmain houtput hsent hclosed hshut houtgoing hread hvalid hincoming
  rw [hincoming] at hvalid
  obtain ⟨hpkt, hrest⟩ := List.forall_mem_cons.1 hvalid
  cases hreceive : pkt.receiveAs Input with
  | error e =>
      rw [keyboardInput_of_error hreceive] at hpkt
      cases hpkt
  | ok msg =>
      obtain ⟨typed⟩ := msg
      have hstep : traced (User.step deriveKey identity)
          (⟨main, .receiving, output, socket⟩, transfers) (.input (.receive none)) =
            some (⟨main, .writeAll typed.1, output, socket.take pkt incoming⟩,
              transfers ++ []) := by
        simp [traced, User.step, InputThread.step, Socket.recv, hincoming,
          InputThread.received, hreceive, Socket.take]
      refine ⟨_, hstep, ⟨hmain, houtput, ?_, hclosed, hshut, houtgoing, ?_,
        InputThread.writeAll_live _, InputThread.writeAll_ne_writing _, hrest,
        traced_invariant UserStep.typing _ _ _ hstep htyping⟩, ?_⟩
      · exact (Socket.sent_take hincoming).trans hsent
      · rw [List.append_nil]
        exact hread
      · simp only [User.backlog, InputThread.work_writeAll, InputThread.work_receiving,
          Socket.take, hincoming, List.map_cons, List.sum_cons, inputWork_of_ok hreceive]
        omega

theorem Draining.writes (hown : Draining start own) {left : Data}
    (hinput : own.1.input = .writing left) {n : Nat} (hle : n + 1 ≤ left.length) :
    ∃ own', traced (User.step deriveKey identity) own (.input (.write (.ok (n + 1)))) =
        some own' ∧ Draining start own' ∧ own'.1.backlog < own.1.backlog := by
  obtain ⟨⟨main, input, output, socket⟩, transfers⟩ := own
  obtain rfl : input = .writing left := hinput
  obtain ⟨hmain, houtput, hsent, hclosed, hshut, houtgoing, hread, -, -, hvalid, htyping⟩ := hown
  have hstep : traced (User.step deriveKey identity)
      (⟨main, .writing left, output, socket⟩, transfers) (.input (.write (.ok (n + 1)))) =
        some (⟨main, .writeAll (left.drop (n + 1)), output, socket⟩,
          transfers ++ [.wrote (left.take (n + 1))]) := by
    simp [traced, User.step, InputThread.step, InputThread.wrote, hle]
  refine ⟨_, hstep, ⟨hmain, houtput, hsent, hclosed, hshut, houtgoing, ?_,
    InputThread.writeAll_live _, InputThread.writeAll_ne_writing _, hvalid,
    traced_invariant UserStep.typing _ _ _ hstep htyping⟩, ?_⟩
  · rw [List.flatMap_append, hread]
    exact List.append_nil _
  · simp only [User.backlog, InputThread.work_writeAll, InputThread.work_writing, List.length_drop]
    omega

theorem Draining.next (hown : Draining start own) (hbacklog : own.1.backlog ≠ 0) {limit : Nat}
    (hlimit : 0 < limit) :
    ∃ b own', (Action.input b : Action F).writes ≤ limit ∧
      traced (User.step deriveKey identity) own (.input b) = some own' ∧
        Draining start own' ∧ own'.1.backlog < own.1.backlog := by
  have hlive := hown.live
  have hwriting := hown.writing
  cases hinput : own.1.input with
  | receiving =>
      cases hincoming : own.1.socket.incoming with
      | nil => simp [User.backlog, InputThread.work, hinput, hincoming] at hbacklog
      | cons pkt incoming =>
          obtain ⟨own', hnext⟩ := hown.receives hinput hincoming
          exact ⟨.receive none, own', Nat.zero_le _, hnext⟩
  | writing left =>
      have hpos : left.length ≠ 0 := fun hzero =>
        hwriting (hinput.trans (congrArg _ (List.eq_nil_of_length_eq_zero hzero)))
      -- as much as there is room for
      obtain ⟨n, hleft, hle⟩ : ∃ n, n + 1 ≤ left.length ∧ n + 1 ≤ limit :=
        ⟨min left.length limit - 1, by omega, by omega⟩
      obtain ⟨own', hnext⟩ := hown.writes hinput hleft
      exact ⟨.write (.ok (n + 1)), own', hle, hnext⟩
  | notStarted =>
      rw [hinput] at hlive
      exact hlive.elim
  | ended joined =>
      rw [hinput] at hlive
      exact hlive.elim

theorem User.backlog_eq_zero (hlive : u.input.Live) (hwriting : u.input ≠ .writing [])
    (h : u.backlog = 0) : u.input = .receiving ∧ u.socket.incoming = [] := by
  obtain ⟨hinput, hincoming⟩ := Nat.add_eq_zero_iff.1 h
  constructor
  · cases hcase : u.input with
    | receiving => rfl
    | writing left =>
        rw [hcase, InputThread.work_writing] at hinput
        have hnil : left = [] := List.eq_nil_of_length_eq_zero (by omega)
        rw [hcase, hnil] at hwriting
        exact absurd rfl hwriting
    | notStarted =>
        rw [hcase] at hlive
        exact hlive.elim
    | ended joined =>
        rw [hcase] at hlive
        exact hlive.elim
  · cases hcase : u.socket.incoming with
    | nil => rfl
    | cons pkt incoming =>
        rw [hcase, List.map_cons, List.sum_cons, inputWork] at hincoming
        omega

end Draining

section Typing

variable {F : Type} {room : Room F} {deriveKey : Str → Bytes → BuildId} {identity : Str}
  {start s : Flow F}

def FlowAction.Drains (a : FlowAction F) : Prop :=
  (∃ b, a = .call (.input b)) ∨ ∃ n, a = .shellReads n

/-- The same with what the shell has not read, which keeps a write waiting. -/
structure Flow.Draining (start s : Flow F) : Prop where
  own : PtyUser.Draining start.own s.own
  shown : s.shown = start.shown
  behind : s.Behind

/-- Twice, as a write gives the shell something to read. -/
def Flow.backlog (s : Flow F) : Nat := 2 * s.call.backlog + min 1 s.unconsumed

theorem Flow.unconsumed_consumed (s : Flow F) :
    ({ s with consumed := s.consumed + s.unconsumed } : Flow F).unconsumed = 0 := by
  unfold unconsumed written
  dsimp only
  omega

theorem Flow.Draining.next (hs : Flow.Draining start s) (hbacklog : s.backlog ≠ 0) :
    ∃ a s', a.Drains ∧ s.step room deriveKey identity a = some s' ∧ Flow.Draining start s' ∧
      s'.backlog < s.backlog := by
  cases hunconsumed : s.unconsumed with
  | succ n =>
      have hstep : s.step room deriveKey identity (.shellReads s.unconsumed) =
          some { s with consumed := s.consumed + s.unconsumed } := if_pos le_rfl
      refine ⟨_, _, .inr ⟨_, rfl⟩, hstep, ⟨hs.own, hs.shown, step_behind hstep hs.behind⟩, ?_⟩
      rw [backlog, backlog, s.unconsumed_consumed, hunconsumed]
      dsimp only
      omega
  | zero =>
      have hne : s.own.1.backlog ≠ 0 := by
        intro hzero
        apply hbacklog
        rw [backlog, hunconsumed, show s.call.backlog = 0 from hzero]
        rfl
      obtain ⟨b, own', hwrites, hown, hdraining, hlt⟩ := hs.own.next hne room.pty_pos
      have hreturns : s.call.returns room deriveKey identity s.unread s.unconsumed (.input b) =
          true := User.returns_of_writes rfl (by rwa [hunconsumed, Nat.sub_zero])
      have hstep := step_call hown hreturns
      refine ⟨_, _, .inl ⟨b, rfl⟩, hstep, ⟨hdraining, hs.shown, step_behind hstep hs.behind⟩, ?_⟩
      have hlt' : own'.1.backlog < s.call.backlog := hlt
      rw [backlog, backlog, hunconsumed]
      dsimp only
      omega

theorem Flow.exists_written (hsound : Sound start.call) (htyping : Typing start.own)
    (hbehind : start.Behind) (hlive : start.call.input.Live)
    (hvalid : ∀ pkt ∈ start.call.socket.incoming, (keyboardInput pkt).isSome) :
    ∃ later s', (∀ a ∈ later, a.Drains) ∧
      run (step room deriveKey identity) later start = some s' ∧
      s'.call = { start.call with
        input := .receiving
        socket := { start.call.socket with incoming := [], received := start.call.socket.sent } } ∧
      s'.written = (keyboard (start.call.socket.sent.drop 1)).flatten ∧
      s'.log.flatMap Transfer.readBytes = start.log.flatMap Transfer.readBytes ∧
      s'.shown = start.shown ∧ s'.consumed = s'.written.length := by
  have hstart : Flow.Draining start start :=
    ⟨⟨rfl, rfl, rfl, rfl, rfl, rfl, rfl, hlive, hsound.writing, hvalid, htyping⟩, rfl, hbehind⟩
  obtain ⟨later, s', hrun, hlater, hdraining, hzero⟩ :=
    exists_run_of_measure backlog (fun _ hs hne => hs.next hne) hstart
  obtain ⟨hown, hshown, hbehind'⟩ := hdraining
  obtain ⟨hcall, hunconsumed⟩ : s'.call.backlog = 0 ∧ s'.unconsumed = 0 := by
    unfold backlog at hzero
    omega
  obtain ⟨hreceiving, hincoming⟩ : s'.call.input = .receiving ∧ s'.call.socket.incoming = [] :=
    User.backlog_eq_zero hown.live hown.writing hcall
  have hreceived : s'.call.socket.received = start.call.socket.sent := by
    have hsent := hown.sent
    rw [Socket.sent, show s'.own.1.socket.incoming = [] from hincoming, List.append_nil] at hsent
    exact hsent
  have hwritten : s'.written = (keyboard (start.call.socket.sent.drop 1)).flatten := by
    have hwrote : s'.call.input.Wrote (keyboard (s'.call.socket.received.drop 1)) s'.written :=
      hown.typing.2
    rw [hreceiving, hreceived] at hwrote
    exact hwrote
  have hconsumed : s'.consumed = s'.written.length := by
    have hle := hbehind'.consumed_le
    unfold unconsumed at hunconsumed
    omega
  refine ⟨later, s', hlater, hrun, ?_, hwritten, hown.read, hshown, hconsumed⟩
  obtain ⟨⟨main, input, output, socket⟩, transfers, shown, consumed⟩ := s'
  obtain ⟨incoming, received, closed, readShutdown, outgoing⟩ := socket
  obtain ⟨hmain, houtput, -, hclosed, hshut, houtgoing, -, -, -, -, -⟩ := hown
  dsimp only [Flow.own] at *
  rw [hmain, houtput, hclosed, hshut, houtgoing, hreceiving, hincoming, hreceived]

end Typing

end TereServer.Services.PtyUser
