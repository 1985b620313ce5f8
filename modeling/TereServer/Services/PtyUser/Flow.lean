import TereServer.Services.PtyUser.Exit

/-!
# Calls that wait for their peers

A send waits until there is room behind the packets that the client has not read, and a
write to the PTY until there is room behind the bytes that the shell has not.  Here such
a system call is a step only once it returns; the client and the shell make room by
steps of their own.
-/

namespace TereServer.Services.PtyUser

open Lib Bincode Ipc Proto.PtyUser

def EPIPE : Nat := 32

/-- What may wait to be read: the packets that fit behind others in a socket, and a number
of bytes in a PTY.  There is room in an empty buffer. -/
structure Room (F : Type) where
  fits : (unread : List (Packet F)) → (pkt : Packet F) → Bool
  fits_nil : ∀ pkt, fits [] pkt = true
  pty : Nat
  pty_pos : 0 < pty

/-- A call with what it has done to its PTY, and how many packets its client has read and
how many bytes the shell. -/
structure Flow (F : Type) where
  call : User F
  log : List Transfer
  shown : Nat
  consumed : Nat

inductive FlowAction (F : Type)
  | call (a : Action F)
  | clientReads
  | shellReads (n : Nat)

section Definitions

variable {F : Type} (room : Room F) (deriveKey : Str → Bytes → BuildId) (identity : Str)

/-- A step of the call or of one of its threads. -/
def Action.own : Action F → Bool
  | .client _ => false
  | _ => true

/-- The packet that a send adds when it succeeds. -/
def User.sends (u : User F) : Action F → Option (Packet F)
  | .main (.send (.ok ())) => some ((endpoint identity).reply deriveKey)
  | .output (.send (.ok ())) =>
      match u.output with
      | .sending buf => some (.of (sessionOutput buf))
      | _ => none
  | _ => none

def Action.writes : Action F → Nat
  | .input (.write (.ok n)) => n
  | _ => 0

/-- Whether a system call may return so: a send succeeds only with room for its packet and
to a client that is there, and a write takes no more than there is room for. -/
def User.returns (u : User F) (unread : List (Packet F)) (unconsumed : Nat) (a : Action F) : Bool :=
  (match u.sends deriveKey identity a with
    | some pkt => !u.socket.closed && room.fits unread pkt
    | none => true) && decide (a.writes ≤ room.pty - unconsumed)

namespace Flow

def start : Flow F := ⟨.connected, [], 0, 0⟩

def own (s : Flow F) : User F × List Transfer := (s.call, s.log)

def unread (s : Flow F) : List (Packet F) := s.call.socket.outgoing.drop s.shown

def written (s : Flow F) : Data := s.log.flatMap Transfer.wroteBytes

def unconsumed (s : Flow F) : Nat := s.written.length - s.consumed

def step (s : Flow F) : FlowAction F → Option (Flow F)
  | .call a =>
      if s.call.returns room deriveKey identity s.unread s.unconsumed a then
        (traced (User.step deriveKey identity) s.own a).map fun own =>
          { s with call := own.1, log := own.2 }
      else none
  | .clientReads =>
      if s.unread.isEmpty || s.call.socket.closed then none
      else some { s with shown := s.shown + 1 }
  | .shellReads n => if n ≤ s.unconsumed then some { s with consumed := s.consumed + n } else none

end Flow

end Definitions

section Steps

variable {F : Type} {room : Room F} {deriveKey : Str → Bytes → BuildId} {identity : Str}
  {s s' : Flow F} {a : FlowAction F}

namespace User

variable {u : User F} {unread : List (Packet F)} {unconsumed : Nat} {b : Action F}

theorem returns_of_quiet (hsends : u.sends deriveKey identity b = none) (hwrites : b.writes = 0) :
    u.returns room deriveKey identity unread unconsumed b = true := by
  simp [returns, hsends, hwrites]

theorem returns_of_sends {pkt : Packet F} (hsends : u.sends deriveKey identity b = some pkt)
    (hwrites : b.writes = 0) (hopen : u.socket.closed = false)
    (hfits : room.fits unread pkt = true) :
    u.returns room deriveKey identity unread unconsumed b = true := by
  simp [returns, hsends, hwrites, hopen, hfits]

theorem returns_of_writes (hsends : u.sends deriveKey identity b = none)
    (hwrites : b.writes ≤ room.pty - unconsumed) :
    u.returns room deriveKey identity unread unconsumed b = true := by
  simp [returns, hsends, hwrites]

end User

theorem traced_client {u : User F} {log : List Transfer} {b : ClientAction F} {socket : Socket F}
    (h : u.socket.client b = some socket) :
    traced (User.step deriveKey identity) (u, log) (.client b) = some ({ u with socket }, log) := by
  simp only [traced, User.step, h, Option.map_some, List.append_nil]

theorem UserStep.outgoing {u u' : User F} {b : Action F} {events : List Transfer}
    (h : UserStep deriveKey identity u b u' events) : u.socket.outgoing <+: u'.socket.outgoing := by
  cases h with
  | client hclient => rw [hclient.frame.2.1]
  | main hmain =>
      cases hmain with
      | notGreeted hrecv _ => rw [(Socket.recv_frame hrecv).1]
      | replied => exact List.prefix_append _ _
      | _ => exact List.prefix_rfl
  | input hinput => rw [hinput.frame.outgoing_eq]
  | output houtput => exact houtput.frame.outgoing

namespace Flow

theorem step_call {b : Action F} {own : User F × List Transfer}
    (h : traced (User.step deriveKey identity) s.own b = some own)
    (hreturns : s.call.returns room deriveKey identity s.unread s.unconsumed b = true) :
    s.step room deriveKey identity (.call b) = some { s with call := own.1, log := own.2 } := by
  simp only [step, hreturns, if_true, h, Option.map_some]

theorem step_client {b : ClientAction F}
    (h : s.step room deriveKey identity (.call (.client b)) = some s') :
    ∃ socket, s.call.socket.client b = some socket ∧
      s' = { s with call := { s.call with socket } } := by
  simp only [step] at h
  split at h
  · obtain ⟨own', htraced, rfl⟩ := Option.map_eq_some_iff.1 h
    obtain ⟨⟨u, events⟩, hstep, rfl⟩ := Option.map_eq_some_iff.1 htraced
    obtain ⟨socket, hsocket, heq⟩ := Option.map_eq_some_iff.1 hstep
    cases heq
    refine ⟨socket, hsocket, ?_⟩
    simp only [own, List.append_nil]
  · cases h

/-- A step is one of the call and its client, or one of them reads. -/
theorem step_cases (h : s.step room deriveKey identity a = some s') :
    (∃ b, a = .call b ∧ traced (User.step deriveKey identity) s.own b = some s'.own ∧
      s'.shown = s.shown ∧ s'.consumed = s.consumed) ∨
    (a = .clientReads ∧ s.unread ≠ [] ∧ s' = { s with shown := s.shown + 1 }) ∨
    ∃ n, a = .shellReads n ∧ n ≤ s.unconsumed ∧ s' = { s with consumed := s.consumed + n } := by
  cases a with
  | call b =>
      simp only [step] at h
      split at h
      · obtain ⟨own, hown, rfl⟩ := Option.map_eq_some_iff.1 h
        exact .inl ⟨b, rfl, hown, rfl, rfl⟩
      · cases h
  | clientReads =>
      simp only [step] at h
      split at h
      · cases h
      · rename_i hunread
        simp only [Bool.or_eq_true, List.isEmpty_iff, not_or] at hunread
        exact .inr (.inl ⟨rfl, hunread.1, (Option.some.inj h).symm⟩)
  | shellReads n =>
      simp only [step] at h
      split at h
      · rename_i hle
        exact .inr (.inr ⟨n, rfl, hle, (Option.some.inj h).symm⟩)
      · cases h

theorem step_own (h : s.step room deriveKey identity a = some s') :
    ∃ actions, run (traced (User.step deriveKey identity)) actions s.own = some s'.own := by
  rcases step_cases h with ⟨b, -, hstep, -, -⟩ | ⟨-, -, rfl⟩ | ⟨n, -, -, rfl⟩
  · exact ⟨[b], run_cons_eq_some.2 ⟨_, hstep, rfl⟩⟩
  · exact ⟨[], rfl⟩
  · exact ⟨[], rfl⟩

/-- The same on a PTY that has been used before, and whose shell has read it all. -/
def after (s : Flow F) (log : List Transfer) : Flow F :=
  { s with
    log := log ++ s.log
    consumed := (log.flatMap Transfer.wroteBytes).length + s.consumed }

theorem written_after (log : List Transfer) :
    (s.after log).written = log.flatMap Transfer.wroteBytes ++ s.written := List.flatMap_append

theorem unconsumed_after (log : List Transfer) : (s.after log).unconsumed = s.unconsumed := by
  rw [unconsumed, written_after, List.length_append]
  exact Nat.add_sub_add_left ..

theorem step_after (log : List Transfer) (h : s.step room deriveKey identity a = some s') :
    (s.after log).step room deriveKey identity a = some (s'.after log) := by
  unfold step at h ⊢
  rw [unconsumed_after]
  cases a with
  | call b =>
      dsimp only at h ⊢
      split at h
      · rename_i hreturns
        obtain ⟨own', htraced, rfl⟩ := Option.map_eq_some_iff.1 h
        obtain ⟨⟨u, events⟩, hstep, rfl⟩ := Option.map_eq_some_iff.1 htraced
        have hcall : (s.after log).call.step deriveKey identity b = some (u, events) := hstep
        have hreturns' : (s.after log).call.returns room deriveKey identity (s.after log).unread
          s.unconsumed b = true := hreturns
        simp only [hreturns', if_true, traced, own, hcall, Option.map_some]
        simp only [after, List.append_assoc]
      · cases h
  | clientReads =>
      dsimp only at h ⊢
      split at h
      · cases h
      · rename_i hunread
        cases h
        exact if_neg hunread
  | shellReads n =>
      dsimp only at h ⊢
      split at h
      · rename_i hle
        cases h
        rw [if_pos hle]
        simp only [after, Nat.add_assoc]
      · cases h

/-- Nothing is read that was not sent or written. -/
structure Behind (s : Flow F) : Prop where
  shown_le : s.shown ≤ s.call.socket.outgoing.length
  consumed_le : s.consumed ≤ s.written.length

theorem behind_start : Behind (start : Flow F) := ⟨le_rfl, le_rfl⟩

theorem step_behind (h : s.step room deriveKey identity a = some s') (hs : Behind s) :
    Behind s' := by
  obtain ⟨hshown, hconsumed⟩ := hs
  rcases step_cases h with ⟨b, -, hstep, hshown', hconsumed'⟩ | ⟨-, hunread, rfl⟩ | ⟨n, -, hle, rfl⟩
  · obtain ⟨events, hspec, hlog⟩ := traced_spec hstep
    have hwritten : s'.written = s.written ++ events.flatMap Transfer.wroteBytes := by
      rw [written, show s'.log = s.log ++ events from hlog, List.flatMap_append]
      rfl
    constructor
    · rw [hshown']
      exact hshown.trans hspec.outgoing.length_le
    · rw [hconsumed', hwritten, List.length_append]
      exact Nat.le_add_right_of_le hconsumed
  · refine ⟨?_, hconsumed⟩
    have hlt : s.shown < s.call.socket.outgoing.length := by
      by_contra hge
      exact hunread (List.drop_eq_nil_of_le (Nat.not_lt.1 hge))
    exact hlt
  · refine ⟨hshown, ?_⟩
    rw [unconsumed] at hle
    dsimp only
    rw [show (⟨s.call, s.log, s.shown, s.consumed + n⟩ : Flow F).written = s.written from rfl]
    omega

/-- A call that waits for its peers is a call. -/
theorem run_own {actions : List (FlowAction F)}
    (h : run (step room deriveKey identity) actions s = some s') :
    ∃ actions', run (traced (User.step deriveKey identity)) actions' s.own = some s'.own :=
  run_part_of own (fun _ _ _ => step_own) h

end Flow

end Steps

/-! ## A call that gets to its loops -/

section Start

variable {F : Type} (room : Room F) (deriveKey : Str → Bytes → BuildId) (identity : Str)

/-- The call before its first step, to a client that has sent some packets. -/
def User.waiting (pkts : List (Packet F)) : User F :=
  ⟨.handshaking, .notStarted, .notStarted, ⟨pkts, [], false, false, []⟩⟩

/-- The call with both threads in their loops, after the client was sent some chunks. -/
def User.attached (hello : Packet F) (typed : List (Packet F)) (chunks : List Chunk) : User F :=
  ⟨.joiningOutput, .receiving, .reading, ⟨typed, [hello], false, false,
    (endpoint identity).reply deriveKey :: chunks.map fun buf => .of (sessionOutput buf)⟩⟩

/-- The handshake and the start of the threads. -/
def attaching : List (FlowAction F) :=
  [.call (.main (.receive none)), .call (.main (.send (.ok ()))), .clientReads,
    .call (.main (.spawnInput true)), .call (.main (.spawnOutput true))]

theorem traced_waiting {hello : Packet F}
    (h : Handshake.accept deriveKey identity clientIntent hello = .ok ())
    (typed : List (Packet F)) :
    traced (User.step deriveKey identity) (.waiting (hello :: typed), []) (.main (.receive none)) =
      some (⟨.replying, .notStarted, .notStarted, ⟨typed, [hello], false, false, []⟩⟩, []) := by
  have hreplying := Main.received_of_accepted h
  simp only [traced, User.step, User.stepMain, User.waiting, Socket.recv, List.nil_append,
    Option.map_some, hreplying]

theorem Flow.run_sends (early more : List (Packet F)) :
    run (step room deriveKey identity) (more.map fun pkt => .call (.client (.send pkt)))
      ⟨.waiting early, [], 0, 0⟩ = some ⟨.waiting (early ++ more), [], 0, 0⟩ := by
  induction more generalizing early with
  | nil =>
      rw [List.append_nil]
      rfl
  | cons pkt more ih =>
      have hsent : traced (User.step deriveKey identity) (.waiting early, [])
          (.client (.send pkt)) = some (.waiting (early ++ [pkt]), []) := rfl
      have hrest := ih (early ++ [pkt])
      rw [List.append_assoc] at hrest
      exact run_cons_eq_some.2 ⟨_, step_call hsent (User.returns_of_quiet rfl rfl), hrest⟩

variable {deriveKey identity}

theorem Flow.run_attaching {hello : Packet F}
    (h : Handshake.accept deriveKey identity clientIntent hello = .ok ())
    (typed : List (Packet F)) :
    run (step room deriveKey identity) attaching ⟨.waiting (hello :: typed), [], 0, 0⟩ =
      some ⟨.attached deriveKey identity hello typed [], [], 1, 0⟩ :=
  run_cons_eq_some.2 ⟨_, step_call (traced_waiting deriveKey identity h typed)
    (User.returns_of_quiet rfl rfl),
  run_cons_eq_some.2 ⟨_, step_call rfl (User.returns_of_sends rfl rfl rfl (room.fits_nil _)),
  run_cons_eq_some.2 ⟨_, rfl,
  run_cons_eq_some.2 ⟨_, step_call rfl (User.returns_of_quiet rfl rfl),
  run_cons_eq_some.2 ⟨_, step_call rfl (User.returns_of_quiet rfl rfl), rfl⟩⟩⟩⟩⟩

end Start

/-- Two packets may wait to be read, and a page of bytes. -/
def testRoom : Room Nat where
  fits unread _ := decide (unread.length < 2)
  fits_nil _ := rfl
  pty := 4096
  pty_pos := by decide

end TereServer.Services.PtyUser
