import TereServer.Services.System

/-!
# From the shell to the end user and back

What happens to a file and a PTY that only one call uses is a run of this call alone, so
what holds of a call by itself holds of it in the system.
-/

namespace TereServer.Services.System

open Lib Bincode Ipc

section Steps

variable {ι F : Type} [DecidableEq ι] [DecidableEq F] {room : PtyUser.Room F}
  {setup : Sessions.Setup F} {s s' : State ι F} {a : Action ι F} {actions : List (Action ι F)}
  {c : Nat × Nat} {pty file : F}

/-- A call is for this file on this PTY, if it was started, and no other call has either. -/
structure Alone (services : Sessions.State ι F) (c : Nat × Nat) (pty file : F) : Prop where
  own : ∀ client, (clients services c.1)[c.2]? = some client → client = (pty, file)
  others : ∀ c' client, c' ≠ c → (clients services c'.1)[c'.2]? = some client →
    client.1 ≠ pty ∧ client.2 ≠ file

theorem Step.alone (hinv : Sessions.Inv setup s.services) (h : Step room setup s a s')
    (hs : Alone s'.services c pty file) : Alone s.services c pty file :=
  ⟨fun client hclient => hs.own client (h.client_kept hinv hclient),
    fun c' client hc hclient => hs.others c' client hc (h.client_kept hinv hclient)⟩

theorem Step.own (h : Step room setup s a s') (hs : Alone s.services c pty file) :
    ∃ actions, run (traced (PtyUser.User.step setup.deriveKey setup.ptyIdentity)) actions
      (s.flow c pty file).own = some (s'.flow c pty file).own := by
  cases h with
  | service hstep => exact ⟨[], rfl⟩
  | @call k n b pty' file' next services hclient hnext hio =>
      by_cases hc : (k, n) = c
      · subst hc
        obtain ⟨rfl, rfl⟩ := Prod.mk.inj (hs.own _ hclient)
        rw [State.flow_put]
        exact PtyUser.Flow.step_own hnext
      · obtain ⟨hpty, hfile⟩ := hs.others _ _ hc hclient
        rw [State.flow_put_of_ne (Ne.symm hc) hpty.symm hfile.symm]
        exact ⟨[], rfl⟩
  | @client file' b socket hsocket =>
      by_cases hfile : file = file'
      · subst hfile
        refine ⟨[.client b], run_cons_eq_some.2 ⟨_, PtyUser.traced_client hsocket, ?_⟩⟩
        simp only [run, State.flow, PtyUser.Flow.own, Function.update_self]
      · refine ⟨[], ?_⟩
        simp only [run, State.flow, PtyUser.Flow.own, Function.update_of_ne hfile]
  | clientReads hunread => exact ⟨[], rfl⟩
  | shellReads hle => exact ⟨[], rfl⟩

/-- A run of the system is a run of each call that nobody else gets in the way of. -/
theorem run_own (h : run (step room setup) actions State.start = some s)
    (hs : Alone s.services c pty file) :
    ∃ actions', run (traced (PtyUser.User.step setup.deriveKey setup.ptyIdentity)) actions'
      (.connected, []) = some (s.flow c pty file).own := by
  have hstart : Sessions.Replying setup (State.start : State ι F).services :=
    Sessions.run_replying (run_nil _)
  exact (run_part_while (fun s : State ι F => (s.flow c pty file).own)
    (fun s a s' hstep hs => (step_spec hstep).replying hs)
    (P := fun s => Alone s.services c pty file)
    (fun s a s' hstep hs => (step_spec hstep).alone hs.completes.good.inv)
    (fun s a s' hstep hs => (step_spec hstep).own hs) h hstart hs).2

omit [DecidableEq ι] [DecidableEq F] in
theorem held_le {output : PtyUser.OutputThread} {held : Option PtyUser.Data}
    (h : output.Holds held) : (held.getD []).length ≤ 1024 := by
  have hchunk (buf : PtyUser.Chunk) (hheld : held = some buf.1) : (held.getD []).length ≤ 1024 := by
    rw [hheld]
    exact buf.2
  have hnone (hheld : held = none) : (held.getD []).length ≤ 1024 := by
    rw [hheld]
    exact Nat.zero_le _
  unfold PtyUser.OutputThread.Holds at h
  split at h
  · exact hnone h
  · exact hnone h
  · exact hchunk _ h
  · exact hnone h
  · obtain ⟨buf, hbuf⟩ := h
    exact hchunk buf hbuf
  · exact hnone h
  · cases held with
    | none => exact Nat.zero_le _
    | some bytes => exact h bytes rfl

/-- What the end user behind a file has typed and got, and the PTY. -/
structure Exchange (s : State ι F) (pty file : F) (payloads : List PtyUser.Data)
    (held : PtyUser.Data) : Prop where
  /-- The packets after the handshake carry the payloads. -/
  shown : List.Forall₂ PtyUser.CarriesOutput ((s.sockets file).outgoing.drop 1) payloads
  /-- They are all that was read from the PTY, but for what is not sent yet. -/
  read : s.read pty = payloads.flatten ++ held
  held_le : held.length ≤ 1024
  /-- The PTY has accepted a beginning of what was typed. -/
  written : s.written pty <+: (PtyUser.keyboard ((s.sockets file).sent.drop 1)).flatten

theorem exists_exchange (h : run (step room setup) actions State.start = some s)
    (hs : Alone s.services c pty file) : ∃ payloads held, Exchange s pty file payloads held := by
  obtain ⟨actions', hrun⟩ := run_own h hs
  obtain ⟨-, payloads, held, hforwards⟩ :=
    run_invariant (PtyUser.traced_invariant PtyUser.UserStep.forwarding) hrun
      PtyUser.forwarding_connected
  obtain ⟨-, htyped⟩ := run_invariant (PtyUser.traced_invariant PtyUser.UserStep.typing) hrun
    PtyUser.typing_connected
  refine ⟨payloads, held.getD [], hforwards.carried, ?_, held_le hforwards.holds, ?_⟩
  · have hread : (s.logs pty).filterMap PtyUser.Transfer.readChunk = payloads ++ held.toList :=
      hforwards.read
    rw [State.read, PtyUser.flatMap_readBytes, hread, List.flatten_append]
    cases held with
    | none => rfl
    | some bytes => simp
  · have hprefix : s.written pty <+:
        (PtyUser.keyboard ((s.sockets file).received.drop 1)).flatten := htyped.isPrefix
    have hsent : (s.sockets file).received <+: (s.sockets file).sent := List.prefix_append _ _
    exact hprefix.trans ((hsent.drop 1).filterMap PtyUser.keyboardInput).flatten

/-! ## Whose call it is -/

/-- No other instance has started a call for this file or on this PTY. -/
def Unshared (services : Sessions.State ι F) (k : Nat) (pty file : F) : Prop :=
  ∀ j, j ≠ k → ∀ client ∈ clients services j, client.1 ≠ pty ∧ client.2 ≠ file

omit [DecidableEq ι] [DecidableEq F] in
theorem exists_client {services : Sessions.State ι F} (h : Sessions.Replying setup services)
    {k : Nat} {conn : Sessions.PtyConn ι F} (hconn : services.conns[k]? = some conn) :
    ∃ create ptyMaster, services.requested conn.owner = some create ∧
      services.shells conn.owner = some (Sessions.shellSpec create, ptyMaster) ∧
      (clients services k = [] ∨ clients services k = [(ptyMaster, create.fd)]) := by
  obtain ⟨create, ptyMaster, hrequest, -⟩ := h.relaying k conn hconn
  have hserves := h.replies.serves k conn hconn create ptyMaster hrequest
  refine ⟨create, ptyMaster, hrequest.1, hrequest.2, ?_⟩
  unfold clients
  rw [hconn]
  dsimp only
  rw [hserves]
  split
  · exact .inr rfl
  · exact .inl rfl

omit [DecidableEq ι] [DecidableEq F] in
theorem Unshared.alone {services : Sessions.State ι F} {k : Nat}
    (h : Unshared services k pty file)
    (hclients : clients services k = [] ∨ clients services k = [(pty, file)]) :
    Alone services (k, 0) pty file := by
  have hone {n : Nat} {client : F × F} (hclient : (clients services k)[n]? = some client) :
      n = 0 ∧ client = (pty, file) := by
    rcases hclients with hnone | hone
    · rw [hnone] at hclient
      cases hclient
    · rw [hone] at hclient
      obtain ⟨hlt, heq⟩ := List.getElem?_eq_some_iff.1 hclient
      obtain rfl : n = 0 := Nat.lt_one_iff.1 hlt
      exact ⟨rfl, heq.symm⟩
  refine ⟨fun client hclient => (hone hclient).2, fun ⟨j, n⟩ client hc hclient => ?_⟩
  apply h j _ client (List.mem_of_getElem? hclient)
  rintro rfl
  obtain ⟨rfl, -⟩ := hone hclient
  exact hc rfl

/-- In every reachable state each connection to the pty service belongs to one request,
and its instance has started at most one call, for the file that this request came with
on the PTY that `create_shell` has returned for it.  As long as no other call has this
file or this PTY, what the end user behind the file was sent, followed by at most one
chunk, is all that was read from this PTY, and what this PTY has accepted is a beginning
of what that end user has typed. -/
theorem end_to_end (room : PtyUser.Room F) (setup : Sessions.Setup F) (actions : List (Action ι F))
    (s : State ι F) (h : run (step room setup) actions State.start = some s) :
    s.services.owners.Nodup ∧
    ∀ (k : Nat) (conn : Sessions.PtyConn ι F), s.services.conns[k]? = some conn →
      ∃ create ptyMaster,
        s.services.requested conn.owner = some create ∧
        s.services.shells conn.owner = some (Sessions.shellSpec create, ptyMaster) ∧
        (clients s.services k = [] ∨ clients s.services k = [(ptyMaster, create.fd)]) ∧
        (Unshared s.services k ptyMaster create.fd →
          ∃ payloads held, Exchange s ptyMaster create.fd payloads held) := by
  obtain ⟨actions', hservices⟩ := run_services h
  have hreplying := Sessions.run_replying hservices
  refine ⟨hreplying.completes.good.inv.owners_nodup, fun k conn hconn => ?_⟩
  obtain ⟨create, ptyMaster, hrequested, hshell, hclients⟩ := exists_client hreplying hconn
  exact ⟨create, ptyMaster, hrequested, hshell, hclients, fun hunshared =>
    exists_exchange h (hunshared.alone hclients)⟩

end Steps

open PtyUser (firstChunk firstTyped firstTyped_received)

def testExchange : List (PtyUser.FlowAction Nat) :=
  [testHello, firstTyped].map (fun pkt => .call (.client (.send pkt))) ++ (PtyUser.attaching ++
    [.call (.output (.read (.ok firstChunk))), .call (.output (.send (.ok ()))),
      .call (.input (.receive none)), .call (.input (.write (.ok 1)))])

theorem run_testExchange : ∃ call : PtyUser.Flow Nat,
    run (PtyUser.Flow.step PtyUser.testRoom Sessions.servicesDeriveKey testIdentity) testExchange
      .start = some call ∧
    call.log = [.read [104], .wrote [104]] := by
  have hsends := PtyUser.Flow.run_sends PtyUser.testRoom Sessions.servicesDeriveKey testIdentity []
    [testHello, firstTyped]
  have hattaching :=
    PtyUser.Flow.run_attaching PtyUser.testRoom testHello_accepted [firstTyped]
  have hreceived : traced (PtyUser.User.step Sessions.servicesDeriveKey testIdentity)
      (⟨.joiningOutput, .receiving, .reading, ⟨[firstTyped], [testHello], false, false,
        [(PtyUser.endpoint testIdentity).reply Sessions.servicesDeriveKey,
          .of (PtyUser.sessionOutput firstChunk)]⟩⟩, [.read [104]]) (.input (.receive none)) =
      some (⟨.joiningOutput, .writing [104, 105], .reading, ⟨[], [testHello, firstTyped], false,
        false, [(PtyUser.endpoint testIdentity).reply Sessions.servicesDeriveKey,
          .of (PtyUser.sessionOutput firstChunk)]⟩⟩, [.read [104]]) :=
    PtyUser.traced_types rfl firstTyped_received
  have hshown : run
      (PtyUser.Flow.step PtyUser.testRoom Sessions.servicesDeriveKey testIdentity)
      [.call (.output (.read (.ok firstChunk))), .call (.output (.send (.ok ()))),
        .call (.input (.receive none)), .call (.input (.write (.ok 1)))]
      ⟨.attached Sessions.servicesDeriveKey testIdentity testHello [firstTyped] [], [], 1, 0⟩ =
      some ⟨⟨.joiningOutput, .writing [105], .reading, ⟨[], [testHello, firstTyped], false, false,
        [(PtyUser.endpoint testIdentity).reply Sessions.servicesDeriveKey,
          .of (PtyUser.sessionOutput firstChunk)]⟩⟩, [.read [104], .wrote [104]], 1, 0⟩ :=
    run_cons_eq_some.2 ⟨_, rfl, run_cons_eq_some.2 ⟨_, rfl, run_cons_eq_some.2 ⟨_,
      PtyUser.Flow.step_call hreceived (PtyUser.User.returns_of_quiet rfl rfl), rfl⟩⟩⟩
  exact ⟨_, run_append_eq_some.2 ⟨_, hsends, run_append_eq_some.2 ⟨_, hattaching, hshown⟩⟩, rfl⟩

theorem end_to_end_test : ∃ (s : State Unit Nat) (payloads : List PtyUser.Data)
    (held : PtyUser.Data), clients s.services 0 = [(5, 7)] ∧ s.read 5 = [104] ∧
      s.written 5 = [104] ∧ Exchange s 5 7 payloads held := by
  obtain ⟨services, conn, hsession, hconns, hattending⟩ := run_testSession
  obtain ⟨call, hexchange, hlog⟩ := run_testExchange
  have hstart : State.flow { (State.start : State Unit Nat) with services } (0, 0) 5 7 =
      PtyUser.Flow.start.after [] := rfl
  obtain ⟨later, s, hlater, hbeside, hflow⟩ :=
    exists_run PtyUser.testRoom Sessions.testSetup hattending hstart hexchange
  have hclients := hbeside.attending.clients_eq
  have htransfers : s.logs 5 = [.read [104], .wrote [104]] :=
    (congrArg PtyUser.Flow.log hflow).trans hlog
  have hunshared : Unshared s.services 0 5 7 := by
    intro j hj client hclient
    have hnone : s.services.conns[j]? = none := by
      rw [hbeside.conns j hj, hconns]
      exact List.getElem?_eq_none (Nat.one_le_iff_ne_zero.2 hj)
    unfold clients at hclient
    rw [hnone] at hclient
    cases hclient
  obtain ⟨conn', hconn', -⟩ := id hbeside.attending
  obtain ⟨-, hall⟩ := end_to_end PtyUser.testRoom Sessions.testSetup _ s
    (run_append_eq_some.2 ⟨_, hsession, hlater⟩)
  obtain ⟨create, ptyMaster, -, -, hclient, hexchanged⟩ := hall 0 conn' hconn'
  rw [hclients] at hclient
  have heq : (ptyMaster, create.fd) = (5, 7) := by
    rcases hclient with hnone | hone
    · cases hnone
    · exact (List.singleton_inj.1 hone).symm
  obtain ⟨rfl, hfile⟩ := Prod.mk.inj heq
  rw [hfile] at hexchanged
  obtain ⟨payloads, held, hresult⟩ := hexchanged hunshared
  refine ⟨s, payloads, held, hclients, ?_, ?_, hresult⟩
  · rw [State.read, htransfers]
    rfl
  · rw [State.written, htransfers]
    rfl

end TereServer.Services.System
