import TereServer.Services.Pty

/-!
# Runs of the pty service

`serve` between its system calls, while the clients it has started read and
write their PTY at any moment.  What a run has started is what the call as a
whole starts, and no PTY is touched before the handshake and the init packet
were accepted.
-/

namespace TereServer.Services.Pty

open Lib Bincode Ipc Proto.Pty

/-- Where `serve` is: before the receive and the send of the handshake, before
the receive of the init packet, in the loop, or done. -/
inductive Point (F : Type)
  | handshaking
  | replying
  | awaitingInit
  | serving (pty : F)
  | exited (exit : Exit)

inductive Event (F : Type)
  | handshakeAccepted
  | initAccepted (pty : F)
  | userStarted (pty client : F)
  | ptyIo (pty : F)

structure Service (F : Type) where
  point : Point F
  conn : Conn F
  events : List (Event F)

/-- A step of `serve`, or I/O on its PTY by the `n`-th client started. -/
inductive Action
  | serve
  | ptyIo (n : Nat)

section Run

variable {F : Type} (deriveKey : Str → Bytes → BuildId) (isSeqPacket : F → Bool) (identity : Str)

/-- What the receive at a point makes of a packet. -/
def Point.received (pkt : Packet F) : Point F → Point F × List (Event F)
  | .handshaking =>
      match Handshake.accept deriveKey identity clientIntent pkt with
      | .error e => (.exited (.returned (.handshake e)), [])
      | .ok () => (.replying, [.handshakeAccepted])
  | .awaitingInit =>
      match pkt.receiveAs Init with
      | .error e => (.exited (.returned (.receive e)), [])
      | .ok msg => (.serving msg.ptyMaster, [.initAccepted msg.ptyMaster])
  | .serving pty =>
      match pkt.receiveAs Request with
      | .error e => (.exited (.returned (.receive e)), [])
      | .ok (.newClient _ fd) =>
          match tryFrom isSeqPacket fd with
          | .error e => (.exited (.panicked e), [])
          | .ok conn => (.serving pty, [.userStarted pty conn])
  | point => (point, [])

/-- The clients that were started, in order. -/
def users (events : List (Event F)) : List (F × F) :=
  events.filterMap fun
    | .userStarted pty client => some (pty, client)
    | _ => none

def start (conn : Conn F) : Service F := ⟨.handshaking, conn, []⟩

def Service.receive (s : Service F) : Service F where
  point := (s.point.received deriveKey isSeqPacket identity s.conn.next.1).1
  conn := s.conn.next.2
  events := s.events ++ (s.point.received deriveKey isSeqPacket identity s.conn.next.1).2

def step (s : Service F) : Action → Option (Service F)
  | .serve =>
      match s.point with
      | .exited _ => none
      | .replying => some { s with
          point := .awaitingInit
          conn := s.conn.push ((endpoint identity).reply deriveKey) }
      | _ => some (s.receive deriveKey isSeqPacket identity)
  | .ptyIo n =>
      (users s.events)[n]?.map fun user => { s with events := s.events ++ [.ptyIo user.1] }

/-- The rest of the call from a point on. -/
def resume : Point F → Conn F → Exit × List (F × F)
  | .handshaking, conn => serve deriveKey isSeqPacket identity conn
  | .replying, conn => serveInit isSeqPacket (conn.push ((endpoint identity).reply deriveKey))
  | .awaitingInit, conn => serveInit isSeqPacket conn
  | .serving pty, conn => serveRequests isSeqPacket pty conn.incoming
  | .exited exit, _ => (exit, [])

variable {deriveKey isSeqPacket identity} {s s' : Service F} {conn : Conn F} {action : Action}

theorem users_append (events events' : List (Event F)) :
    users (events ++ events') = users events ++ users events' := List.filterMap_append

theorem step_spec (h : step deriveKey isSeqPacket identity s action = some s') :
    (s.point = .replying ∧ s' = { s with
      point := .awaitingInit
      conn := s.conn.push ((endpoint identity).reply deriveKey) }) ∨
    (s.point ≠ .replying ∧ (∀ exit, s.point ≠ .exited exit) ∧
      s' = s.receive deriveKey isSeqPacket identity) ∨
    (∃ user ∈ users s.events, s' = { s with events := s.events ++ [.ptyIo user.1] }) := by
  cases action with
  | serve =>
      simp only [step] at h
      split at h
      · cases h
      · rename_i hpoint
        exact .inl ⟨hpoint, (Option.some.inj h).symm⟩
      · rename_i hexited hreplying
        exact .inr (.inl ⟨hreplying, hexited, (Option.some.inj h).symm⟩)
  | ptyIo n =>
      obtain ⟨user, huser, rfl⟩ := Option.map_eq_some_iff.1 h
      exact .inr (.inr ⟨user, List.mem_of_getElem? huser, rfl⟩)

/-! ## A run against the call -/

theorem resume_received (point : Point F) (hpoint : point ≠ .replying) (conn : Conn F) :
    let received := point.received deriveKey isSeqPacket identity conn.next.1
    resume deriveKey isSeqPacket identity point conn =
      ((resume deriveKey isSeqPacket identity received.1 conn.next.2).1,
        users received.2 ++ (resume deriveKey isSeqPacket identity received.1 conn.next.2).2) := by
  dsimp only
  cases point with
  | handshaking =>
      simp only [resume, serve, handshakeAsServer_eq, Point.received]
      have hsame : Handshake.accept deriveKey (endpoint identity).identity
          (endpoint identity).clientIntent conn.next.1 =
            Handshake.accept deriveKey identity clientIntent conn.next.1 := rfl
      rw [hsame]
      cases Handshake.accept deriveKey identity clientIntent conn.next.1 <;> rfl
  | replying => exact absurd rfl hpoint
  | awaitingInit =>
      simp only [resume, serveInit, Conn.receiveWithFds, Point.received]
      cases conn.next.1.receiveAs Init <;> rfl
  | serving pty =>
      obtain ⟨incoming, out⟩ := conn
      cases incoming with
      | nil => simp [resume, serveRequests, Point.received, Conn.next, users]
      | cons pkt incoming =>
          simp only [resume, serveRequests, Point.received, Conn.next]
          rcases pkt.receiveAs Request with e | ⟨dummy, fd⟩
          · rfl
          · dsimp only
            cases tryFrom isSeqPacket fd <;> rfl
  | exited exit => rfl

/-- What was started so far and what the rest of the call starts. -/
def Agrees (deriveKey : Str → Bytes → BuildId) (isSeqPacket : F → Bool) (identity : Str)
    (conn : Conn F) (s : Service F) : Prop :=
  serve deriveKey isSeqPacket identity conn =
    ((resume deriveKey isSeqPacket identity s.point s.conn).1,
      users s.events ++ (resume deriveKey isSeqPacket identity s.point s.conn).2)

theorem step_agrees (h : step deriveKey isSeqPacket identity s action = some s')
    (hagrees : Agrees deriveKey isSeqPacket identity conn s) :
    Agrees deriveKey isSeqPacket identity conn s' := by
  unfold Agrees at hagrees ⊢
  rcases step_spec h with ⟨hpoint, rfl⟩ | ⟨hpoint, -, rfl⟩ | ⟨user, -, rfl⟩
  · rw [hagrees, hpoint]
    rfl
  · rw [hagrees, resume_received s.point hpoint s.conn]
    simp only [Service.receive, users_append, List.append_assoc]
  · rw [hagrees, users_append]
    simp [users]

/-! ## The order of the events -/

/-- What must have happened before an event. -/
def Needs (before : List (Event F)) : Event F → Prop
  | .handshakeAccepted => True
  | .initAccepted _ => .handshakeAccepted ∈ before
  | .userStarted pty _ => .handshakeAccepted ∈ before ∧ .initAccepted pty ∈ before
  | .ptyIo pty => .handshakeAccepted ∈ before ∧ .initAccepted pty ∈ before ∧
      ∃ client, .userStarted pty client ∈ before

/-- What has happened when `serve` is at a point. -/
def Reached (events : List (Event F)) : Point F → Prop
  | .replying => .handshakeAccepted ∈ events
  | .awaitingInit => .handshakeAccepted ∈ events
  | .serving pty => .handshakeAccepted ∈ events ∧ .initAccepted pty ∈ events
  | _ => True

def InOrder (s : Service F) : Prop := Justified Needs s.events ∧ Reached s.events s.point

theorem mem_of_user {events : List (Event F)} {user : F × F} (h : user ∈ users events) :
    .userStarted user.1 user.2 ∈ events := by
  obtain ⟨event, hevent, hsome⟩ := List.mem_filterMap.1 h
  cases event with
  | userStarted pty client =>
      cases hsome
      exact hevent
  | _ => cases hsome

theorem Justified.user_needs {events : List (Event F)} (h : Justified Needs events)
    {pty client : F} (hmem : .userStarted pty client ∈ events) :
    .handshakeAccepted ∈ events ∧ .initAccepted pty ∈ events := by
  obtain ⟨before, after, rfl⟩ := List.append_of_mem hmem
  obtain ⟨hhandshake, hinit⟩ := h before _ after rfl
  exact ⟨List.mem_append_left _ hhandshake, List.mem_append_left _ hinit⟩

theorem receive_inOrder (h : InOrder s) :
    InOrder (s.receive deriveKey isSeqPacket identity) := by
  obtain ⟨point, conn, events⟩ := s
  obtain ⟨hjustified, hreached⟩ := h
  dsimp only at hjustified hreached
  unfold Service.receive InOrder
  dsimp only
  cases point with
  | handshaking =>
      simp only [Point.received]
      cases Handshake.accept deriveKey identity clientIntent conn.next.1 with
      | error e => exact ⟨by simpa using hjustified, trivial⟩
      | ok u => exact ⟨hjustified.snoc trivial, List.mem_append_right _ (List.mem_singleton.2 rfl)⟩
  | replying => exact ⟨by simpa [Point.received] using hjustified, by
      simpa [Point.received] using hreached⟩
  | awaitingInit =>
      simp only [Point.received]
      cases conn.next.1.receiveAs Init with
      | error e => exact ⟨by simpa using hjustified, trivial⟩
      | ok msg => exact ⟨hjustified.snoc hreached, List.mem_append_left _ hreached,
          List.mem_append_right _ (List.mem_singleton.2 rfl)⟩
  | serving pty =>
      simp only [Point.received]
      rcases conn.next.1.receiveAs Request with e | ⟨dummy, fd⟩
      · exact ⟨by simpa using hjustified, trivial⟩
      · dsimp only
        cases tryFrom isSeqPacket fd with
        | error e => exact ⟨by simpa using hjustified, trivial⟩
        | ok client => exact ⟨hjustified.snoc hreached, List.mem_append_left _ hreached.1,
            List.mem_append_left _ hreached.2⟩
  | exited exit => exact ⟨by simpa [Point.received] using hjustified, trivial⟩

theorem Reached.append {events : List (Event F)} {point : Point F} (h : Reached events point)
    (event : Event F) : Reached (events ++ [event]) point := by
  cases point with
  | handshaking => trivial
  | replying => exact List.mem_append_left _ h
  | awaitingInit => exact List.mem_append_left _ h
  | serving pty => exact ⟨List.mem_append_left _ h.1, List.mem_append_left _ h.2⟩
  | exited exit => trivial

theorem step_inOrder (h : step deriveKey isSeqPacket identity s action = some s')
    (hinOrder : InOrder s) : InOrder s' := by
  rcases step_spec h with ⟨hpoint, rfl⟩ | ⟨-, -, rfl⟩ | ⟨user, huser, rfl⟩
  · obtain ⟨hjustified, hreached⟩ := hinOrder
    rw [hpoint] at hreached
    exact ⟨hjustified, hreached⟩
  · exact receive_inOrder hinOrder
  · obtain ⟨hjustified, hreached⟩ := hinOrder
    have hstarted := mem_of_user huser
    obtain ⟨hhandshake, hinit⟩ := Justified.user_needs hjustified hstarted
    exact ⟨hjustified.snoc ⟨hhandshake, hinit, user.2, hstarted⟩, hreached.append _⟩

/-- On every script, `serve` starts exactly the clients of the longest accepted
prefix, on the PTY of its init packet; a run of the service starts them in this
order, and touches a PTY only for a client it has started, after the handshake
and the init packet with this PTY were accepted. -/
theorem serve_attaches_accepted (deriveKey : Str → Bytes → BuildId) (isSeqPacket : F → Bool)
    (identity : Str) (incoming : List (Packet F)) :
    ∃ pre started, Attaches deriveKey isSeqPacket identity incoming pre started ∧
      ∀ actions service, run (step deriveKey isSeqPacket identity) actions
          (start ⟨incoming, []⟩) = some service →
        users service.events <+: started ∧
        (∀ exit, service.point = .exited exit → users service.events = started ∧
          exit = (serve deriveKey isSeqPacket identity ⟨incoming, []⟩).1) ∧
        ∀ before pty after, service.events = before ++ .ptyIo pty :: after →
          .handshakeAccepted ∈ before ∧ .initAccepted pty ∈ before ∧
            ∃ client, .userStarted pty client ∈ before := by
  obtain ⟨pre, started, hattaches⟩ := exists_attaches deriveKey isSeqPacket identity incoming
  refine ⟨pre, started, hattaches, fun actions service hrun => ?_⟩
  have hagrees : Agrees deriveKey isSeqPacket identity ⟨incoming, []⟩ service :=
    run_invariant (fun _ _ _ => step_agrees) hrun rfl
  have hinOrder : InOrder service :=
    run_invariant (fun _ _ _ => step_inOrder) hrun ⟨justified_nil, trivial⟩
  have hstarted := hattaches.started_eq
  unfold Agrees at hagrees
  rw [hagrees] at hstarted
  refine ⟨⟨_, hstarted⟩, fun exit hexit => ?_, fun before pty after h =>
    hinOrder.1 before _ after h⟩
  rw [hexit] at hstarted hagrees
  refine ⟨by simpa [resume] using hstarted, ?_⟩
  rw [hagrees]
  rfl

end Run

end TereServer.Services.Pty
