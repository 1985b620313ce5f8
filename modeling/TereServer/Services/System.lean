import TereServer.Services.PtyUser.Flow
import TereServer.Services.Sessions.Instances

/-!
# All services together

The sessions service, an instance of the pty service for each of its connections, and
the `serve_user` calls that each instance has started.  A call serves the file that was
passed for it, on the PTY of its instance: calls with the same file share its socket,
and calls on the same PTY what is read from it and written to it.  A send waits for the
end user to read, and a write for the shell.
-/

namespace TereServer.Services.System

open Lib Bincode Ipc

structure Call where
  main : PtyUser.Main
  input : PtyUser.InputThread
  output : PtyUser.OutputThread

/-- The calls of an instance are numbered in the order in which it has started them.  For
each file there is the socket and how many packets its end user has read, for each PTY
what the calls have done to it and how many bytes the shell has read. -/
structure State (ι F : Type) where
  services : Sessions.State ι F
  calls : Nat × Nat → Call
  sockets : F → PtyUser.Socket F
  shown : F → Nat
  logs : F → List PtyUser.Transfer
  consumed : F → Nat

/-- A step of the services, of the `n`-th call of the instance `k`, of an end user or of
a shell. -/
inductive Action (ι F : Type)
  | service (a : Sessions.Action ι F)
  | call (k n : Nat) (a : PtyUser.Action F)
  | client (file : F) (a : PtyUser.ClientAction F)
  | clientReads (file : F)
  | shellReads (pty : F) (n : Nat)

section Definitions

variable {ι F : Type}

def Call.start : Call := ⟨.handshaking, .notStarted, .notStarted⟩

def Call.of (u : PtyUser.User F) : Call := ⟨u.main, u.input, u.output⟩

/-- The PTY and the file of each call that an instance has started. -/
def clients (services : Sessions.State ι F) (k : Nat) : List (F × F) :=
  match services.conns[k]? with
  | some conn => Pty.users conn.service.events
  | none => []

/-- The process of an instance has ended, and with it all its threads. -/
def exited (services : Sessions.State ι F) (k : Nat) : Bool :=
  match services.conns[k]? with
  | some conn =>
      match conn.service.point with
      | .exited _ => true
      | _ => false
  | none => false

namespace State

def start : State ι F :=
  ⟨Sessions.start, fun _ => .start, fun _ => .connected, fun _ => 0, fun _ => [], fun _ => 0⟩

/-- A call on a PTY, with the socket of a file. -/
def flow (s : State ι F) (c : Nat × Nat) (pty file : F) : PtyUser.Flow F where
  call := ⟨(s.calls c).main, (s.calls c).input, (s.calls c).output, s.sockets file⟩
  log := s.logs pty
  shown := s.shown file
  consumed := s.consumed pty

def unread (s : State ι F) (file : F) : List (Packet F) :=
  (s.sockets file).outgoing.drop (s.shown file)

def written (s : State ι F) (pty : F) : PtyUser.Data :=
  (s.logs pty).flatMap PtyUser.Transfer.wroteBytes

def read (s : State ι F) (pty : F) : PtyUser.Data :=
  (s.logs pty).flatMap PtyUser.Transfer.readBytes

def unconsumed (s : State ι F) (pty : F) : Nat := (s.written pty).length - s.consumed pty

variable [DecidableEq F]

def put (s : State ι F) (services : Sessions.State ι F) (c : Nat × Nat) (pty file : F)
    (next : PtyUser.Flow F) : State ι F where
  services := services
  calls := Function.update s.calls c (.of next.call)
  sockets := Function.update s.sockets file next.call.socket
  shown := Function.update s.shown file next.shown
  logs := Function.update s.logs pty next.log
  consumed := Function.update s.consumed pty next.consumed

end State

variable [DecidableEq ι] [DecidableEq F]

/-- The I/O of a call is that of its instance. -/
def ptyIo (setup : Sessions.Setup F) (services : Sessions.State ι F) (k n : Nat) (silent : Bool) :
    Option (Sessions.State ι F) :=
  if silent then some services else Sessions.step setup services (.pty k (.run (.ptyIo n)))

def stepCall (room : PtyUser.Room F) (setup : Sessions.Setup F) (s : State ι F) (k n : Nat)
    (pty file : F) (a : PtyUser.Action F) : Option (State ι F) :=
  (PtyUser.Flow.step room setup.deriveKey setup.ptyIdentity (s.flow (k, n) pty file)
    (.call a)).bind fun next =>
      (ptyIo setup s.services k n (next.log.length == (s.logs pty).length)).map fun services =>
        s.put services (k, n) pty file next

def step (room : PtyUser.Room F) (setup : Sessions.Setup F) (s : State ι F) :
    Action ι F → Option (State ι F)
  | .service (.pty _ (.run (.ptyIo _))) => none
  | .service a => (Sessions.step setup s.services a).map fun services => { s with services }
  | .call k n a =>
      if a.own && !exited s.services k then
        (clients s.services k)[n]?.bind fun client => stepCall room setup s k n client.1 client.2 a
      else none
  -- What is sent when nobody is left to receive it stays where it is.
  | .client file a => ((s.sockets file).client a).map fun socket =>
      { s with sockets := Function.update s.sockets file socket }
  | .clientReads file =>
      if (s.unread file).isEmpty || (s.sockets file).closed then none
      else some { s with shown := Function.update s.shown file (s.shown file + 1) }
  | .shellReads pty n =>
      if n ≤ s.unconsumed pty then
        some { s with consumed := Function.update s.consumed pty (s.consumed pty + n) }
      else none

end Definitions

section Steps

variable {ι F : Type} [DecidableEq ι] [DecidableEq F] {room : PtyUser.Room F}
  {setup : Sessions.Setup F} {s s' : State ι F} {a : Action ι F}

inductive Step (room : PtyUser.Room F) (setup : Sessions.Setup F) (s : State ι F) :
    Action ι F → State ι F → Prop
  | service {b : Sessions.Action ι F} {services : Sessions.State ι F}
      (h : Sessions.step setup s.services b = some services) :
      Step room setup s (.service b) { s with services }
  | call {k n : Nat} {b : PtyUser.Action F} {pty file : F} {next : PtyUser.Flow F}
      {services : Sessions.State ι F} (hclient : (clients s.services k)[n]? = some (pty, file))
      (h : PtyUser.Flow.step room setup.deriveKey setup.ptyIdentity (s.flow (k, n) pty file)
        (.call b) = some next)
      (hio : services = s.services ∨
        Sessions.step setup s.services (.pty k (.run (.ptyIo n))) = some services) :
      Step room setup s (.call k n b) (s.put services (k, n) pty file next)
  | client {file : F} {b : PtyUser.ClientAction F} {socket : PtyUser.Socket F}
      (h : (s.sockets file).client b = some socket) :
      Step room setup s (.client file b)
        { s with sockets := Function.update s.sockets file socket }
  | clientReads {file : F} (h : s.unread file ≠ []) :
      Step room setup s (.clientReads file)
        { s with shown := Function.update s.shown file (s.shown file + 1) }
  | shellReads {pty : F} {n : Nat} (h : n ≤ s.unconsumed pty) :
      Step room setup s (.shellReads pty n)
        { s with consumed := Function.update s.consumed pty (s.consumed pty + n) }

omit [DecidableEq F] in
theorem ptyIo_cases {services services' : Sessions.State ι F} {k n : Nat} {silent : Bool}
    (h : ptyIo setup services k n silent = some services') : services' = services ∨
      Sessions.step setup services (.pty k (.run (.ptyIo n))) = some services' := by
  cases silent with
  | true => exact .inl (Option.some.inj h).symm
  | false => exact .inr h

theorem step_spec (h : step room setup s a = some s') : Step room setup s a s' := by
  cases a with
  | service b =>
      unfold step at h
      split at h
      · cases h
      · rename_i heq
        obtain ⟨services, hservices, rfl⟩ := Option.map_eq_some_iff.1 h
        obtain rfl := Action.service.inj heq
        exact .service hservices
      all_goals cases ‹Action.service b = _›
  | call k n b =>
      simp only [step] at h
      split at h
      · obtain ⟨⟨pty, file⟩, hclient, h⟩ := Option.bind_eq_some_iff.1 h
        obtain ⟨next, hnext, h⟩ := Option.bind_eq_some_iff.1 h
        obtain ⟨services, hio, rfl⟩ := Option.map_eq_some_iff.1 h
        exact .call hclient hnext (ptyIo_cases hio)
      · cases h
  | client file b =>
      obtain ⟨socket, hsocket, rfl⟩ := Option.map_eq_some_iff.1 h
      exact .client hsocket
  | clientReads file =>
      simp only [step] at h
      split at h
      · cases h
      · rename_i hunread
        simp only [Bool.or_eq_true, List.isEmpty_iff, not_or] at hunread
        cases h
        exact .clientReads hunread.1
  | shellReads pty n =>
      simp only [step] at h
      split at h
      · rename_i hle
        cases h
        exact .shellReads hle
      · cases h

/-- A run of the services in which no call does I/O. -/
theorem run_service {actions : List (Sessions.Action ι F)} {services : Sessions.State ι F}
    (hactions : ∀ k n, .pty k (.run (.ptyIo n)) ∉ actions)
    (h : run (Sessions.step setup) actions s.services = some services) :
    run (step room setup) (actions.map .service) s = some { s with services } := by
  induction actions generalizing s with
  | nil =>
      cases h
      rfl
  | cons b actions ih =>
      obtain ⟨next, hnext, hrest⟩ := run_cons_eq_some.1 h
      have hstep : step room setup s (.service b) = some { s with services := next } := by
        unfold step
        split
        · rename_i heq
          obtain rfl := Action.service.inj heq
          exact absurd (List.mem_cons_self ..) (hactions _ _)
        · rename_i heq
          obtain rfl := Action.service.inj heq
          rw [hnext]
          rfl
        all_goals cases ‹Action.service b = _›
      exact run_cons_eq_some.2 ⟨_, hstep,
        ih (fun k n hmem => hactions k n (List.mem_cons_of_mem _ hmem)) hrest⟩

/-! ## The services -/

theorem Step.services (h : Step room setup s a s') :
    ∃ actions, run (Sessions.step setup) actions s.services = some s'.services := by
  cases h with
  | service hstep => exact ⟨[_], run_cons_eq_some.2 ⟨_, hstep, rfl⟩⟩
  | call _ _ hio =>
      rcases hio with rfl | hstep
      · exact ⟨[], rfl⟩
      · exact ⟨[_], run_cons_eq_some.2 ⟨_, hstep, rfl⟩⟩
  | _ => exact ⟨[], rfl⟩

/-- A run of the system is a run of the sessions service with its instances. -/
theorem run_services {actions : List (Action ι F)} (h : run (step room setup) actions s = some s') :
    ∃ actions', run (Sessions.step setup) actions' s.services = some s'.services :=
  run_part_of State.services (fun _ _ _ hstep => (step_spec hstep).services) h

theorem Step.replying (h : Step room setup s a s') (hs : Sessions.Replying setup s.services) :
    Sessions.Replying setup s'.services := by
  obtain ⟨actions, hactions⟩ := h.services
  exact run_invariant (fun _ _ _ => Sessions.step_replying) hactions hs

omit [DecidableEq ι] [DecidableEq F] in
theorem events_grow {conn conn' : Sessions.PtyConn ι F} (h : conn.Step setup conn') :
    conn.service.events <+: conn'.service.events := by
  cases h with
  | receive hkind hincoming => exact List.prefix_append _ _
  | reply hpoint => exact List.prefix_rfl
  | ptyIo huser => exact List.prefix_append _ _
  | exit e => exact List.prefix_rfl

omit [DecidableEq F] in
/-- An instance keeps the calls it has started. -/
theorem clients_prefix {services services' : Sessions.State ι F} {b : Sessions.Action ι F}
    (hinv : Sessions.Inv setup services) (h : Sessions.step setup services b = some services')
    (k : Nat) : clients services k <+: clients services' k := by
  unfold clients
  cases hconn : services.conns[k]? with
  | none => exact List.nil_prefix
  | some conn =>
      obtain ⟨conn', hconn', hnext⟩ := Sessions.step_conn_kept hinv h hconn
      rw [hconn']
      cases hnext with
      | served hserve _ => exact (events_grow (Sessions.PtyConn.step_spec hserve)).filterMap _
      | _ => exact List.prefix_rfl

theorem Step.clients_kept (hinv : Sessions.Inv setup s.services) (h : Step room setup s a s')
    (k : Nat) : clients s.services k <+: clients s'.services k := by
  cases h with
  | service hstep => exact clients_prefix hinv hstep k
  | call _ _ hio =>
      rcases hio with rfl | hstep
      · exact List.prefix_rfl
      · exact clients_prefix hinv hstep k
  | _ => exact List.prefix_rfl

theorem Step.client_kept (hinv : Sessions.Inv setup s.services) (h : Step room setup s a s')
    {k n : Nat} {client : F × F} (hclient : (clients s.services k)[n]? = some client) :
    (clients s'.services k)[n]? = some client := by
  obtain ⟨more, hmore⟩ := h.clients_kept hinv k
  rw [← hmore, List.getElem?_append_left (List.getElem?_eq_some_iff.1 hclient).1]
  exact hclient

end Steps

/-! ## One call inside the system -/

section Calls

variable {ι F : Type} [DecidableEq F] {s s' : State ι F} {services : Sessions.State ι F}
  {c c' : Nat × Nat} {pty pty' file file' : F} {next : PtyUser.Flow F}

theorem State.flow_put : (s.put services c pty file next).flow c pty file = next := by
  simp only [flow, put, Call.of, Function.update_self]

theorem State.flow_put_of_ne (hc : c' ≠ c) (hpty : pty' ≠ pty) (hfile : file' ≠ file) :
    (s.put services c pty file next).flow c' pty' file' = s.flow c' pty' file' := by
  simp only [flow, put, Function.update_of_ne hc, Function.update_of_ne hpty,
    Function.update_of_ne hfile]

/-- Nothing has happened but to this call, its PTY and its file. -/
structure Elsewhere (before s : State ι F) (c : Nat × Nat) (pty file : F) : Prop where
  calls : ∀ c', c' ≠ c → s.calls c' = before.calls c'
  sockets : ∀ f, f ≠ file → s.sockets f = before.sockets f
  shown : ∀ f, f ≠ file → s.shown f = before.shown f
  logs : ∀ p, p ≠ pty → s.logs p = before.logs p
  consumed : ∀ p, p ≠ pty → s.consumed p = before.consumed p

omit [DecidableEq F] in
theorem Elsewhere.refl (s : State ι F) : Elsewhere s s c pty file :=
  ⟨fun _ _ => rfl, fun _ _ => rfl, fun _ _ => rfl, fun _ _ => rfl, fun _ _ => rfl⟩

omit [DecidableEq F] in
theorem Elsewhere.trans {s'' : State ι F} (h : Elsewhere s s' c pty file)
    (h' : Elsewhere s' s'' c pty file) : Elsewhere s s'' c pty file where
  calls c' hc := (h'.calls c' hc).trans (h.calls c' hc)
  sockets f hf := (h'.sockets f hf).trans (h.sockets f hf)
  shown f hf := (h'.shown f hf).trans (h.shown f hf)
  logs p hp := (h'.logs p hp).trans (h.logs p hp)
  consumed p hp := (h'.consumed p hp).trans (h.consumed p hp)

theorem elsewhere_put : Elsewhere s (s.put services c pty file next) c pty file where
  calls _ hc := Function.update_of_ne hc ..
  sockets _ hf := Function.update_of_ne hf ..
  shown _ hf := Function.update_of_ne hf ..
  logs _ hp := Function.update_of_ne hp ..
  consumed _ hp := Function.update_of_ne hp ..

theorem elsewhere_socket (socket : PtyUser.Socket F) :
    Elsewhere s { s with sockets := Function.update s.sockets file socket } c pty file where
  calls _ _ := rfl
  sockets _ hf := Function.update_of_ne hf ..
  shown _ _ := rfl
  logs _ _ := rfl
  consumed _ _ := rfl

theorem elsewhere_shown (n : Nat) :
    Elsewhere s { s with shown := Function.update s.shown file n } c pty file where
  calls _ _ := rfl
  sockets _ _ := rfl
  shown _ hf := Function.update_of_ne hf ..
  logs _ _ := rfl
  consumed _ _ := rfl

theorem elsewhere_consumed (n : Nat) :
    Elsewhere s { s with consumed := Function.update s.consumed pty n } c pty file where
  calls _ _ := rfl
  sockets _ _ := rfl
  shown _ _ := rfl
  logs _ _ := rfl
  consumed _ hp := Function.update_of_ne hp ..

end Calls

section Attending

variable {ι F : Type} [DecidableEq ι] [DecidableEq F] {room : PtyUser.Room F}
  {setup : Sessions.Setup F} {s : State ι F} {services : Sessions.State ι F} {k n : Nat}
  {started : List (F × F)} {pty file : F}

/-- The instance `k` runs, and has started these calls. -/
def Attending (services : Sessions.State ι F) (k : Nat) (started : List (F × F)) : Prop :=
  ∃ conn, services.conns[k]? = some conn ∧ (∀ e, conn.service.point ≠ .exited e) ∧
    Pty.users conn.service.events = started

omit [DecidableEq ι] [DecidableEq F] in
theorem Attending.clients_eq (h : Attending services k started) :
    clients services k = started := by
  obtain ⟨conn, hconn, -, hstarted⟩ := h
  unfold clients
  rw [hconn]
  exact hstarted

omit [DecidableEq ι] [DecidableEq F] in
theorem Attending.exited_eq (h : Attending services k started) : exited services k = false := by
  obtain ⟨conn, hconn, hpoint, -⟩ := h
  unfold exited
  rw [hconn]
  dsimp only
  split
  · rename_i e hexited
    exact absurd hexited (hpoint e)
  · rfl

omit [DecidableEq F] in
/-- The I/O of a call changes nothing but the record of it. -/
theorem Attending.ptyIo (setup : Sessions.Setup F) (h : Attending services k started)
    (hclient : started[n]? = some (pty, file)) (silent : Bool) : ∃ services',
      System.ptyIo setup services k n silent = some services' ∧ Attending services' k started ∧
        services'.requested = services.requested ∧ services'.shells = services.shells ∧
          ∀ j, j ≠ k → services'.conns[j]? = services.conns[j]? := by
  cases silent with
  | true => exact ⟨services, rfl, h, rfl, rfl, fun _ _ => rfl⟩
  | false =>
      obtain ⟨conn, hconn, hpoint, rfl⟩ := h
      have husers : Pty.users (conn.service.events ++ [.ptyIo pty]) =
          Pty.users conn.service.events := by
        rw [Pty.users_append]
        exact List.append_nil _
      let conn' := conn.withService
        { conn.service with events := conn.service.events ++ [.ptyIo pty] }
      have hstep : Sessions.PtyConn.step setup conn (.run (.ptyIo n)) = some conn' := by
        simp only [Sessions.PtyConn.step, Pty.step, hclient, Option.map_some, conn']
      have hnew : (services.conns.modify k fun _ => conn')[k]? = some conn' := by
        rw [getElem?_modify_of_some hconn, if_pos rfl]
      refine ⟨{ services with conns := services.conns.modify k fun _ => conn' }, ?_,
        ⟨conn', hnew, hpoint, husers⟩, rfl, rfl, fun j hj => List.getElem?_modify_ne _ _ hj.symm⟩
      simp only [System.ptyIo, Sessions.step, hconn, Option.bind_some, hstep, Option.map_some]
      rfl

/-- Only the first call of an instance goes on. -/
structure Beside (before s : State ι F) (k : Nat) (pty file : F) : Prop where
  attending : Attending s.services k [(pty, file)]
  requested : s.services.requested = before.services.requested
  shells : s.services.shells = before.services.shells
  conns : ∀ j, j ≠ k → s.services.conns[j]? = before.services.conns[j]?
  elsewhere : Elsewhere before s (k, 0) pty file

variable {s' : State ι F} {next : PtyUser.Flow F}

theorem exists_stepCall (hs : Attending s.services k [(pty, file)]) {b : PtyUser.Action F}
    (hown : b.own = true)
    (h : PtyUser.Flow.step room setup.deriveKey setup.ptyIdentity (s.flow (k, 0) pty file)
      (.call b) = some next) :
    ∃ s', step room setup s (.call k 0 b) = some s' ∧ Beside s s' k pty file ∧
      s'.flow (k, 0) pty file = next := by
  obtain ⟨services, hio, hattending, hrequested, hshells, hconns⟩ :=
    hs.ptyIo (n := 0) setup rfl (next.log.length == (s.logs pty).length)
  have hclient : (clients s.services k)[0]? = some (pty, file) := by
    rw [hs.clients_eq]
    rfl
  refine ⟨s.put services (k, 0) pty file next, ?_, ⟨hattending, hrequested, hshells,
    hconns, elsewhere_put⟩, State.flow_put⟩
  simp only [step, hown, hs.exited_eq, Bool.not_false, Bool.and_true, if_true, hclient,
    Option.bind_some, stepCall, h, hio, Option.map_some]

/-- What a call by itself can do with its client and its shell, it can do in the system. -/
theorem exists_step (hs : Attending s.services k [(pty, file)]) {a : PtyUser.FlowAction F}
    (h : PtyUser.Flow.step room setup.deriveKey setup.ptyIdentity (s.flow (k, 0) pty file) a =
      some next) :
    ∃ b s', step room setup s b = some s' ∧ Beside s s' k pty file ∧
      s'.flow (k, 0) pty file = next := by
  cases a with
  | call b =>
      cases b with
      | client b =>
          obtain ⟨socket, hsocket, rfl⟩ := PtyUser.Flow.step_client h
          have hclient : (s.sockets file).client b = some socket := hsocket
          refine ⟨.client file b, { s with sockets := Function.update s.sockets file socket }, ?_,
            ⟨hs, rfl, rfl, fun _ _ => rfl, elsewhere_socket socket⟩, ?_⟩
          · simp only [step, hclient, Option.map_some]
          · simp only [State.flow, Function.update_self]
      | _ =>
          obtain ⟨s', hstep⟩ := exists_stepCall hs rfl h
          exact ⟨_, s', hstep⟩
  | clientReads =>
      simp only [PtyUser.Flow.step] at h
      split at h
      · cases h
      · rename_i hunread
        cases h
        refine ⟨.clientReads file,
          { s with shown := Function.update s.shown file (s.shown file + 1) }, if_neg hunread,
          ⟨hs, rfl, rfl, fun _ _ => rfl, elsewhere_shown _⟩, ?_⟩
        simp only [State.flow, Function.update_self]
  | shellReads m =>
      simp only [PtyUser.Flow.step] at h
      split at h
      · rename_i hle
        cases h
        refine ⟨.shellReads pty m,
          { s with consumed := Function.update s.consumed pty (s.consumed pty + m) }, if_pos hle,
          ⟨hs, rfl, rfl, fun _ _ => rfl, elsewhere_consumed _⟩, ?_⟩
        simp only [State.flow, Function.update_self]
      · cases h

omit [DecidableEq ι] [DecidableEq F] in
theorem Beside.trans {s'' : State ι F} (h : Beside s s' k pty file)
    (h' : Beside s' s'' k pty file) : Beside s s'' k pty file :=
  ⟨h'.attending, h'.requested.trans h.requested, h'.shells.trans h.shells,
    fun j hj => (h'.conns j hj).trans (h.conns j hj), h.elsewhere.trans h'.elsewhere⟩

/-- A run of a call by itself is one in the system, also on a PTY that was used before. -/
theorem exists_run (room : PtyUser.Room F) (setup : Sessions.Setup F)
    (hs : Attending s.services k [(pty, file)]) {call call' : PtyUser.Flow F}
    {log : List PtyUser.Transfer} (hflow : s.flow (k, 0) pty file = call.after log)
    {actions : List (PtyUser.FlowAction F)}
    (h : run (PtyUser.Flow.step room setup.deriveKey setup.ptyIdentity) actions call =
      some call') :
    ∃ later s', run (step room setup) later s = some s' ∧ Beside s s' k pty file ∧
      s'.flow (k, 0) pty file = call'.after log := by
  have hstart : Beside s s k pty file ∧ s.flow (k, 0) pty file = call.after log :=
    ⟨⟨hs, rfl, rfl, fun _ _ => rfl, .refl s⟩, hflow⟩
  refine run_simulation (fun call s' => Beside s s' k pty file ∧
    s'.flow (k, 0) pty file = call.after log) ?_ h hstart
  rintro call a call' mid hstep ⟨hmid, hcall⟩
  have hafter := PtyUser.Flow.step_after log hstep
  rw [← hcall] at hafter
  obtain ⟨b, next, hnext, hbeside, hflow'⟩ := exists_step hmid.attending hafter
  exact ⟨[b], next, run_cons_eq_some.2 ⟨next, hnext, rfl⟩, hmid.trans hbeside, hflow'⟩

end Attending

/-! ## The services of the debug client -/

open Proto.PtyUser (clientIntent)

def testHello : Packet Nat :=
  .of (Handshake.new Sessions.servicesDeriveKey testIdentity clientIntent : Handshake Nat)

theorem testHello_accepted : Handshake.accept Sessions.servicesDeriveKey testIdentity clientIntent
    testHello = .ok () := by
  have hfits : (Handshake.new Sessions.servicesDeriveKey testIdentity clientIntent :
    Handshake Nat).Fits := by decide
  exact Handshake.accept_self hfits

def testSession : List (Sessions.Action Unit Nat) :=
  (Sessions.testReserving ++ Sessions.testConnecting) ++ (.store () :: Sessions.testServing)

theorem run_testSession : ∃ (services : Sessions.State Unit Nat) (conn : Sessions.PtyConn Unit Nat),
    run (step PtyUser.testRoom Sessions.testSetup) (testSession.map .service) State.start =
      some ({ (State.start : State Unit Nat) with services }) ∧
    services.conns = [conn] ∧ Attending services 0 [(5, 7)] := by
  obtain ⟨services, conn, hrun, -, -, hconns, hpoint, husers⟩ := Sessions.testCompletion
  have hquiet (k n : Nat) : .pty k (.run (.ptyIo n)) ∉ testSession := by
    simp [testSession, Sessions.testReserving, Sessions.testConnecting, Sessions.testServing]
  have hconn : services.conns[0]? = some conn := by
    rw [hconns]
    rfl
  refine ⟨services, conn, run_service hquiet hrun, hconns, conn, hconn, fun e he => ?_, husers⟩
  rw [hpoint] at he
  cases he

end TereServer.Services.System
