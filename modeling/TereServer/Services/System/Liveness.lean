import TereServer.Services.PtyUser.Session
import TereServer.Services.Sessions.Liveness
import TereServer.Services.System

/-!
# A shell that can be used

From a request that is being served to the end user's keyboard and screen: all that has
to be done for a shell to be used can still be done.
-/

namespace TereServer.Services.System

open Lib Bincode Ipc

section Steps

variable {ι F : Type} [DecidableEq ι] [DecidableEq F] {room : PtyUser.Room F}
  {setup : Sessions.Setup F} {s s' : State ι F} {a : Action ι F} {actions : List (Action ι F)}
  {t : ι} {k : Nat} {pty file : F}

/-- A call takes its first step after its start, and nothing is read before it was sent or
written. -/
structure Ordered (setup : Sessions.Setup F) (s : State ι F) : Prop where
  replying : Sessions.Replying setup s.services
  unstarted : ∀ c, (clients s.services c.1)[c.2]? = none → s.calls c = .start
  shown_le : ∀ file, s.shown file ≤ (s.sockets file).outgoing.length
  consumed_le : ∀ pty, s.consumed pty ≤ (s.written pty).length

omit [DecidableEq F] in
theorem ordered_start : Ordered setup (State.start : State ι F) where
  replying := Sessions.run_replying (run_nil _)
  unstarted _ _ := rfl
  shown_le _ := Nat.zero_le _
  consumed_le _ := Nat.zero_le _

theorem Step.unstarted (h : Step room setup s a s') (hs : Ordered setup s) (c : Nat × Nat)
    (hc : (clients s'.services c.1)[c.2]? = none) : s'.calls c = .start := by
  have hnone : (clients s.services c.1)[c.2]? = none := by
    cases hclient : (clients s.services c.1)[c.2]? with
    | none => rfl
    | some client =>
        rw [h.client_kept hs.replying.completes.good.inv hclient] at hc
        cases hc
  have hstart := hs.unstarted c hnone
  cases h with
  | call hclient _ _ =>
      refine (Function.update_of_ne ?_ ..).trans hstart
      rintro rfl
      rw [hnone] at hclient
      cases hclient
  | _ => exact hstart

theorem Step.ordered (h : Step room setup s a s') (hs : Ordered setup s) : Ordered setup s' := by
  have hreplying := h.replying hs.replying
  have hunstarted := h.unstarted hs
  obtain ⟨-, -, hshown, hconsumed⟩ := hs
  cases h with
  | service hstep => exact ⟨hreplying, hunstarted, hshown, hconsumed⟩
  | @call k n b pty file next services hclient hnext hio =>
      obtain ⟨hshown', hconsumed'⟩ := PtyUser.Flow.step_behind hnext ⟨hshown file, hconsumed pty⟩
      refine ⟨hreplying, hunstarted, fun f => ?_, fun p => ?_⟩
      · by_cases hf : f = file
        · subst hf
          simp only [State.put, Function.update_self]
          exact hshown'
        · simp only [State.put, Function.update_of_ne hf]
          exact hshown f
      · by_cases hp : p = pty
        · subst hp
          simp only [State.written, State.put, Function.update_self]
          exact hconsumed'
        · simp only [State.written, State.put, Function.update_of_ne hp]
          exact hconsumed p
  | @client file b socket hsocket =>
      refine ⟨hreplying, hunstarted, fun f => ?_, hconsumed⟩
      by_cases hf : f = file
      · subst hf
        simp only [Function.update_self]
        rw [(PtyUser.Socket.client_spec hsocket).frame.2.1]
        exact hshown f
      · simp only [Function.update_of_ne hf]
        exact hshown f
  | @clientReads file hunread =>
      refine ⟨hreplying, hunstarted, fun f => ?_, hconsumed⟩
      by_cases hf : f = file
      · subst hf
        simp only [Function.update_self]
        by_contra hge
        exact hunread (List.drop_eq_nil_of_le (Nat.not_lt.1 hge))
      · simp only [Function.update_of_ne hf]
        exact hshown f
  | @shellReads pty n hle =>
      refine ⟨hreplying, hunstarted, hshown, fun p => ?_⟩
      by_cases hp : p = pty
      · subst hp
        have hbefore := hconsumed p
        simp only [Function.update_self]
        unfold State.unconsumed at hle
        show _ ≤ (s.written p).length
        omega
      · simp only [Function.update_of_ne hp]
        exact hconsumed p

theorem run_ordered (h : run (step room setup) actions State.start = some s) : Ordered setup s :=
  run_invariant (fun _ _ _ hstep => (step_spec hstep).ordered) h ordered_start

omit [DecidableEq F] in
theorem run_conn_owner {services services' : Sessions.State ι F}
    {actions : List (Sessions.Action ι F)} (h : run (Sessions.step setup) actions services = some services') {conn : Sessions.PtyConn ι F}
    (hconn : services.conns[k]? = some conn) :
    ∃ conn', services'.conns[k]? = some conn' ∧ conn'.owner = conn.owner := by
  refine run_invariant (I := fun services => ∃ conn' : Sessions.PtyConn ι F,
    services.conns[k]? = some conn' ∧ conn'.owner = conn.owner) ?_ h ⟨conn, hconn, rfl⟩
  rintro s a s' hstep ⟨conn₁, hconn₁, howner₁⟩
  obtain ⟨conn₂, hconn₂, howner₂⟩ := (Sessions.step_spec hstep).conn_owner hconn₁
  exact ⟨conn₂, hconn₂, howner₂.trans howner₁⟩

theorem exists_attending (hhello : Sessions.HelloAccepted setup)
    (hreply : Sessions.acceptPty setup (Sessions.ptyReply setup) = .ok ())
    (h : run (step room setup) actions State.start = some s)
    (hserving : (s.services.point t).serving = true)
    (hspace : s.services.entries.length + 2 ≤ 2 ^ 192)
    (halive : ∀ (k : Nat) (conn : Sessions.PtyConn ι F), s.services.conns[k]? = some conn →
      conn.owner = (t, s.services.serial t) → ∀ e, conn.service.point ≠ .exited e)
    {create : Proto.Sessions.CreateShellSession F}
    (hcreate : s.services.requested (t, s.services.serial t) = some create)
    (hsocket : setup.isSeqPacket create.fd = true) (pty : F) :
    ∃ later services k ptyMaster,
      run (step room setup) later s = some { s with services } ∧
      Sessions.Served setup services (t, s.services.serial t) ∧
      services.requested = s.services.requested ∧
      services.shells (t, s.services.serial t) = some (Sessions.shellSpec create, ptyMaster) ∧
      Attending services k [(ptyMaster, create.fd)] ∧
      ∀ conn, s.services.conns[k]? = some conn → conn.owner = (t, s.services.serial t) := by
  obtain ⟨before, hbefore⟩ := run_services h
  obtain ⟨first, services, k, hfirst, hacts, -, -, hrequested, hserved, hannounced, hrunning⟩ :=
    Sessions.exists_completion hhello hreply hbefore hserving hspace halive pty
  have hquiet (j n : Nat) : .pty j (.run (.ptyIo n)) ∉ first := by
    intro hmem
    rcases hacts _ hmem with hown | ⟨u, -, hu⟩ | hserve
    · cases hown
    · cases hu
    · cases hserve
  obtain ⟨create', ptyMaster, conn, hcreate', hshell, hconn, howner, -, hclients⟩ := hannounced
  obtain rfl : create = create' := by
    rw [hrequested, hcreate] at hcreate'
    exact Option.some.inj hcreate'
  rw [if_pos hsocket] at hclients
  have hsockets (create' : Proto.Sessions.CreateShellSession F)
      (h : s.services.requested (t, s.services.serial t) = some create') :
      setup.isSeqPacket create'.fd = true := by
    rw [hcreate] at h
    cases h
    exact hsocket
  refine ⟨first.map .service, services, k, ptyMaster, run_service hquiet hfirst,
    hserved, hrequested, hshell, ⟨conn, hconn, hrunning hsockets conn hconn, hclients⟩, ?_⟩
  intro conn₀ hconn₀
  obtain ⟨conn', hconn', hsame⟩ := run_conn_owner hfirst hconn₀
  obtain rfl : conn = conn' := Option.some.inj (hconn.symm.trans hconn')
  exact hsame.symm.trans howner

/-- The first call of the instance before its first step, on a PTY whose shell has read
everything. -/
theorem exists_ready (room : PtyUser.Room F) (hs : Ordered setup s)
    (hattending : Attending s.services k [(pty, file)]) (hcall : s.calls (k, 0) = .start)
    {early : List (Packet F)} (hwaiting : s.sockets file = ⟨early, [], false, false, []⟩) :
    ∃ s', step room setup s (.shellReads pty (s.unconsumed pty)) = some s' ∧
      Beside s s' k pty file ∧
      s'.flow (k, 0) pty file = PtyUser.Flow.after ⟨.waiting early, [], 0, 0⟩ (s.logs pty) := by
  refine ⟨{ s with consumed := Function.update s.consumed pty (s.consumed pty + s.unconsumed pty) },
    if_pos le_rfl, ⟨hattending, rfl, rfl, fun _ _ => rfl, elsewhere_consumed _⟩, ?_⟩
  have hshown : s.shown file = 0 := by
    have hle := hs.shown_le file
    rw [hwaiting] at hle
    exact Nat.le_zero.1 hle
  have hconsumed : s.consumed pty + s.unconsumed pty = (s.written pty).length + 0 :=
    Nat.add_sub_cancel' (hs.consumed_le pty)
  simp only [State.flow, hcall, hwaiting, hshown, Function.update_self, hconsumed,
    PtyUser.Flow.after, List.append_nil]
  rfl

/-- Everything was typed and shown, and all have read what they got. -/
structure Used (setup : Sessions.Setup F) (before s : State ι F) (c : Nat × Nat) (pty file : F)
    (hello : Packet F) (typed : List (Packet F)) (chunks : List PtyUser.Chunk) : Prop where
  call : (s.flow c pty file).call =
    .settled setup.deriveKey setup.ptyIdentity hello typed chunks
  written : s.written pty = before.written pty ++ (PtyUser.keyboard typed).flatten
  read : s.read pty = before.read pty ++ (chunks.map Subtype.val).flatten
  unread : s.unread file = []
  unconsumed : s.unconsumed pty = 0

theorem exists_used (room : PtyUser.Room F) (hs : Ordered setup s)
    (hattending : Attending s.services k [(pty, file)]) (hcall : s.calls (k, 0) = .start)
    {hello : Packet F} (haccept : Handshake.accept setup.deriveKey setup.ptyIdentity
      Proto.PtyUser.clientIntent hello = .ok ())
    {typed : List (Packet F)} (htyped : ∀ pkt ∈ typed, (PtyUser.keyboardInput pkt).isSome)
    {early : List (Packet F)} (hearly : early <+: hello :: typed)
    (hwaiting : s.sockets file = ⟨early, [], false, false, []⟩) (chunks : List PtyUser.Chunk) :
    ∃ later s', run (step room setup) later s = some s' ∧ Beside s s' k pty file ∧
      Used setup s s' (k, 0) pty file hello typed chunks := by
  obtain ⟨ready, hready, hbeside, hflow⟩ := exists_ready room hs hattending hcall hwaiting
  obtain ⟨more, call, hsession, hsettled, hwritten, hread, hunread, hunconsumed⟩ :=
    PtyUser.Flow.exists_session room haccept htyped hearly chunks
  obtain ⟨second, s', hsecond, hbeside', hflow'⟩ :=
    exists_run room setup hbeside.attending hflow hsession
  refine ⟨_, s', run_cons_eq_some.2 ⟨ready, hready, hsecond⟩, hbeside.trans hbeside', ?_⟩
  have hlog : s'.logs pty = s.logs pty ++ call.log := congrArg PtyUser.Flow.log hflow'
  constructor
  · rw [hflow']
    exact hsettled
  · rw [State.written, hlog, List.flatMap_append]
    exact congrArg _ hwritten
  · rw [State.read, hlog, List.flatMap_append]
    exact congrArg _ hread
  · exact (congrArg PtyUser.Flow.unread hflow').trans hunread
  · exact (congrArg PtyUser.Flow.unconsumed hflow').trans
      ((call.unconsumed_after _).trans hunconsumed)

/-- From every reachable state, a request with a `SOCK_SEQPACKET` socket that is being
served can be completed, and its end user, who has so far sent at most a beginning of
what is to be sent, to a call that has not begun, can get everything typed to its PTY and
everything that the PTY delivers sent to it, while all other calls, files and PTYs stay
as they are. -/
theorem shell_can_be_used (room : PtyUser.Room F) (setup : Sessions.Setup F)
    (hhello : Sessions.HelloAccepted setup)
    (hreply : Sessions.acceptPty setup (Sessions.ptyReply setup) = .ok ())
    (actions : List (Action ι F)) (s : State ι F)
    (h : run (step room setup) actions State.start = some s) (t : ι)
    (hserving : (s.services.point t).serving = true)
    (hspace : s.services.entries.length + 2 ≤ 2 ^ 192)
    (halive : ∀ (k : Nat) (conn : Sessions.PtyConn ι F), s.services.conns[k]? = some conn →
      conn.owner = (t, s.services.serial t) → ∀ e, conn.service.point ≠ .exited e)
    (create : Proto.Sessions.CreateShellSession F)
    (hcreate : s.services.requested (t, s.services.serial t) = some create)
    (hsocket : setup.isSeqPacket create.fd = true) (pty : F)
    (hello : Packet F) (haccept : Handshake.accept setup.deriveKey setup.ptyIdentity
      Proto.PtyUser.clientIntent hello = .ok ())
    (typed : List (Packet F)) (htyped : ∀ pkt ∈ typed, (PtyUser.keyboardInput pkt).isSome)
    (early : List (Packet F)) (hearly : early <+: hello :: typed)
    (hwaiting : s.sockets create.fd = ⟨early, [], false, false, []⟩)
    (hfresh : ∀ (k : Nat) (conn : Sessions.PtyConn ι F), s.services.conns[k]? = some conn →
      conn.owner = (t, s.services.serial t) → s.calls (k, 0) = .start)
    (chunks : List PtyUser.Chunk) :
    ∃ later s' k ptyMaster, run (step room setup) later s = some s' ∧
      Sessions.Served setup s'.services (t, s.services.serial t) ∧
      s'.services.requested (t, s.services.serial t) = some create ∧
      s'.services.shells (t, s.services.serial t) =
        some (Sessions.shellSpec create, ptyMaster) ∧
      clients s'.services k = [(ptyMaster, create.fd)] ∧
      Used setup s s' (k, 0) ptyMaster create.fd hello typed chunks ∧
      Elsewhere s s' (k, 0) ptyMaster create.fd := by
  obtain ⟨first, services, k, ptyMaster, hfirst, hserved, hrequested, hshell, hattending, howner⟩ :=
    exists_attending hhello hreply h hserving hspace halive hcreate hsocket pty
  have hcall : s.calls (k, 0) = .start := by
    cases hconn : s.services.conns[k]? with
    | none =>
        apply (run_ordered h).unstarted
        unfold clients
        rw [hconn]
        rfl
    | some conn => exact hfresh k conn hconn (howner conn hconn)
  have hordered := run_ordered (run_append_eq_some.2 ⟨s, h, hfirst⟩)
  obtain ⟨second, s', hsecond, hbeside, hused⟩ :=
    exists_used room hordered hattending hcall haccept htyped hearly hwaiting chunks
  obtain ⟨others, hothers⟩ := run_services hsecond
  refine ⟨first ++ second, s', k, ptyMaster, run_append_eq_some.2 ⟨_, hfirst, hsecond⟩,
    hserved.later hordered.replying.completes hothers, ?_, ?_, hbeside.attending.clients_eq,
    ⟨hused.call, hused.written, hused.read, hused.unread, hused.unconsumed⟩,
    ⟨hbeside.elsewhere.calls, hbeside.elsewhere.sockets, hbeside.elsewhere.shown,
      hbeside.elsewhere.logs, hbeside.elsewhere.consumed⟩⟩
  · rw [hbeside.requested]
    exact (congrFun hrequested _).trans hcreate
  · rw [hbeside.shells]
    exact hshell

end Steps

theorem shell_can_be_used_test : ∃ (s s' : State Unit Nat) (later : List (Action Unit Nat))
    (ptyMaster : Nat), (s.services.point ()).serving = true ∧
      run (step PtyUser.testRoom Sessions.testSetup) later s = some s' ∧
      s'.written ptyMaster = [104, 105] ∧ s'.read ptyMaster = [104] := by
  obtain ⟨services, hrun, hserving, hrequested, hlength, hconns⟩ := Sessions.testReserved
  have hquiet (k n : Nat) : .pty k (.run (.ptyIo n)) ∉ Sessions.testReserving := by
    simp [Sessions.testReserving]
  have hreserved : run (step PtyUser.testRoom Sessions.testSetup)
      (Sessions.testReserving.map .service) State.start =
        some ({ (State.start : State Unit Nat) with services }) := run_service hquiet hrun
  have hspace : services.entries.length + 2 ≤ 2 ^ 192 := by
    rw [hlength]
    decide
  have hfirst : PtyUser.keyboardInput PtyUser.firstTyped = some [104, 105] :=
    PtyUser.keyboardInput_of_ok PtyUser.firstTyped_received
  obtain ⟨later, s', k, ptyMaster, hlater, -, -, -, -, hused, -⟩ :=
    shell_can_be_used PtyUser.testRoom Sessions.testSetup Sessions.testHello_accepted
      Sessions.testPtyReply_accepted _ _ hreserved () hserving hspace
      (fun k conn hconn => by simp [hconns] at hconn) _ hrequested rfl 5 testHello
      testHello_accepted [PtyUser.firstTyped] (by simp [hfirst]) [] List.nil_prefix rfl
      (fun k conn hconn => by simp [hconns] at hconn) [PtyUser.firstChunk]
  refine ⟨_, s', later, ptyMaster, hserving, hlater, hused.written.trans ?_, hused.read⟩
  simp [PtyUser.keyboard, hfirst]
  rfl

end TereServer.Services.System
