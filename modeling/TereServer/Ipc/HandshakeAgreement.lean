import TereServer.Ipc.Handshake
import TereServer.Lib.Transition

/-!
# Agreement

A client and a server on one reliable connection, taking their system calls in
any order.  A side that returned an error has closed the connection, and the
other side then receives the end of the stream.
-/

namespace TereServer.Ipc

open Lib Bincode

def Client.failed : Client → Bool
  | .returned (.error _) => true
  | _ => false

def Server.failed : Server → Bool
  | .returned (.error _) => true
  | _ => false

structure Link (F : Type) where
  client : Client
  server : Server
  toServer : List (Packet F)
  toClient : List (Packet F)

namespace Link

variable {F : Type}

inductive Turn
  | client
  | server
  deriving DecidableEq

def start : Link F := ⟨.sending, .waiting, [], []⟩

/-- The next packet of a queue; blocks while the queue is empty and open. -/
def takePacket (queue : List (Packet F)) (peerFailed : Bool) :
    Option (Packet F × List (Packet F)) :=
  match queue with
  | pkt :: queue => some (pkt, queue)
  | [] => if peerFailed then some (.closed, []) else none

variable (deriveKey : Str → Bytes → BuildId) (c s : Endpoint)

/-- The next system call of one of the sides. -/
def step (link : Link F) : Turn → Option (Link F)
  | .client =>
      match link.client with
      | .sending => some { link with
          client := .sent (.ok ())
          toServer := link.toServer ++ [c.hello deriveKey] }
      | .waiting =>
          (takePacket link.toClient link.server.failed).map fun (pkt, toClient) =>
            { link with client := .received deriveKey c pkt, toClient }
      | .returned _ => none
  | .server =>
      match link.server with
      | .waiting =>
          (takePacket link.toServer link.client.failed).map fun (pkt, toServer) =>
            { link with server := .received deriveKey s pkt, toServer }
      | .replying => some { link with
          server := .sent (.ok ())
          toClient := link.toClient ++ [s.reply deriveKey] }
      | .returned _ => none

/-- The states of a run, with what the server and the client make of the one
packet each of them gets. -/
inductive Phase : Link F → Prop
  | start : Phase start
  | greeted : Phase ⟨.waiting, .waiting, [c.hello deriveKey], []⟩
  | rejected {e : HandshakeError}
      (h : Handshake.accept deriveKey s.identity s.clientIntent
        (c.hello deriveKey : Packet F) = .error e) :
      Phase ⟨.waiting, .returned (.error e), [], []⟩
  | closed {e : HandshakeError}
      (h : Handshake.accept deriveKey s.identity s.clientIntent
        (c.hello deriveKey : Packet F) = .error e) :
      Phase ⟨.returned (.error (.receive .endOfStream)), .returned (.error e), [], []⟩
  | accepted
      (h : Handshake.accept deriveKey s.identity s.clientIntent
        (c.hello deriveKey : Packet F) = .ok ()) :
      Phase ⟨.waiting, .replying, [], []⟩
  | replied
      (h : Handshake.accept deriveKey s.identity s.clientIntent
        (c.hello deriveKey : Packet F) = .ok ()) :
      Phase ⟨.waiting, .returned (.ok ()), [], [s.reply deriveKey]⟩
  | finished
      (h : Handshake.accept deriveKey s.identity s.clientIntent
        (c.hello deriveKey : Packet F) = .ok ()) :
      Phase ⟨.received deriveKey c (s.reply deriveKey : Packet F), .returned (.ok ()), [], []⟩

variable {deriveKey c s} {link link' : Link F} {turn : Turn}

theorem step_phase (h : Phase deriveKey c s link) (hstep : step deriveKey c s link turn = some link') :
    Phase deriveKey c s link' := by
  cases h with
  | start =>
      cases turn with
      | client =>
          cases hstep
          exact .greeted
      | server => cases hstep
  | greeted =>
      cases turn with
      | client => cases hstep
      | server =>
          simp only [step, takePacket, Option.map_some, Option.some.injEq, Server.received] at hstep
          subst hstep
          split
          · rename_i e he
            exact .rejected he
          · rename_i hok
            exact .accepted hok
  | rejected h =>
      cases turn with
      | client =>
          cases hstep
          simpa [Client.received, Handshake.accept] using Phase.closed h
      | server => cases hstep
  | closed h =>
      cases turn <;> cases hstep
  | accepted h =>
      cases turn with
      | client => cases hstep
      | server =>
          cases hstep
          exact .replied h
  | replied h =>
      cases turn with
      | client =>
          cases hstep
          exact .finished h
      | server => cases hstep
  | finished h =>
      cases turn <;> cases hstep

def remaining (link : Link F) : Nat :=
  (match link.client with
    | .sending => 2
    | .waiting => 1
    | .returned _ => 0) +
  (match link.server with
    | .waiting => 2
    | .replying => 1
    | .returned _ => 0)

theorem step_remaining (link : Link F) (turn : Turn) (link' : Link F)
    (hstep : step deriveKey c s link turn = some link') : link'.remaining < link.remaining := by
  obtain ⟨client, server, toServer, toClient⟩ := link
  cases turn with
  | client =>
      cases client with
      | sending =>
          cases hstep
          simp [remaining, Client.sent]
      | waiting =>
          obtain ⟨⟨pkt, queue⟩, -, rfl⟩ := Option.map_eq_some_iff.1 hstep
          simp [remaining, Client.received]
      | returned result => cases hstep
  | server =>
      cases server with
      | waiting =>
          obtain ⟨⟨pkt, queue⟩, -, rfl⟩ := Option.map_eq_some_iff.1 hstep
          rcases Server.received_cases deriveKey s pkt with ⟨-, h⟩ | ⟨e, h⟩ <;>
            simp [remaining, h]
      | replying =>
          cases hstep
          simp [remaining, Server.sent]
      | returned result => cases hstep

/-! ## What the phases say -/

/-- A client that has returned `Ok` has accepted the reply of a server that has
returned `Ok`. -/
theorem Phase.client_ok (h : Phase deriveKey c s link) (hok : link.client = .returned (.ok ())) :
    link.server = .returned (.ok ()) ∧ Handshake.accept deriveKey c.identity c.serverIntent
      (s.reply deriveKey : Packet F) = .ok () := by
  cases h with
  | finished h => exact ⟨rfl, Client.returned.inj hok⟩
  | _ => cases hok

theorem Phase.server_ok (h : Phase deriveKey c s link) (hok : link.server = .returned (.ok ())) :
    Handshake.accept deriveKey s.identity s.clientIntent (c.hello deriveKey : Packet F) =
      .ok () := by
  cases h with
  | replied h => exact h
  | finished h => exact h
  | _ => cases hok

/-- A run that cannot go on has ended on both sides. -/
theorem Phase.stuck (h : Phase deriveKey c s link) (hstuck : Stuck (step deriveKey c s) link) :
    (∃ e, Handshake.accept deriveKey s.identity s.clientIntent
        (c.hello deriveKey : Packet F) = .error e ∧
      link = ⟨.returned (.error (.receive .endOfStream)), .returned (.error e), [], []⟩) ∨
    (Handshake.accept deriveKey s.identity s.clientIntent
        (c.hello deriveKey : Packet F) = .ok () ∧
      link = ⟨.received deriveKey c (s.reply deriveKey : Packet F), .returned (.ok ()), [], []⟩) := by
  cases h with
  | start => cases hstuck .client
  | greeted => cases hstuck .server
  | rejected h => cases hstuck .client
  | closed h => exact .inl ⟨_, h, rfl⟩
  | accepted h => cases hstuck .server
  | replied h => cases hstuck .client
  | finished h => exact .inr ⟨h, rfl⟩

theorem accept_hello_iff (hkeys : KeysDistinct deriveKey (c.keys ∪ s.keys))
    (hhello : (Handshake.new deriveKey c.identity c.clientIntent : Handshake F).Fits) :
    Handshake.accept deriveKey s.identity s.clientIntent (c.hello deriveKey : Packet F) = .ok () ↔
      c.clientIntent = s.clientIntent ∧ c.identity = s.identity := by
  rw [Endpoint.hello, Handshake.accept_of_new hkeys (by simp [Endpoint.keys])
    (by simp [Endpoint.keys]) hhello]
  exact and_congr eq_comm eq_comm

theorem accept_reply_iff (hkeys : KeysDistinct deriveKey (c.keys ∪ s.keys))
    (hreply : (Handshake.new deriveKey s.identity s.serverIntent : Handshake F).Fits) :
    Handshake.accept deriveKey c.identity c.serverIntent (s.reply deriveKey : Packet F) = .ok () ↔
      c.serverIntent = s.serverIntent ∧ c.identity = s.identity := by
  rw [Endpoint.reply, Handshake.accept_of_new hkeys (by simp [Endpoint.keys])
    (by simp [Endpoint.keys]) hreply]

/-- Whatever the order of the calls, a run ends, with both sides returned.  Then
the server accepts exactly a client with its client intent and identity, the
client exactly a server that agrees on everything; and a client has not returned
before its server has. -/
theorem handshake_agreement (deriveKey : Str → Bytes → BuildId) (c s : Endpoint)
    (hkeys : KeysDistinct deriveKey (c.keys ∪ s.keys))
    (hhello : (Handshake.new deriveKey c.identity c.clientIntent : Handshake F).Fits)
    (hreply : (Handshake.new deriveKey s.identity s.serverIntent : Handshake F).Fits)
    (turns : List Turn) (link : Link F) (hrun : run (step deriveKey c s) turns start = some link) :
    turns.length ≤ 4 ∧
    (link.client = .returned (.ok ()) → link.server = .returned (.ok ()) ∧
      c.clientIntent = s.clientIntent ∧ c.serverIntent = s.serverIntent ∧
      c.identity = s.identity) ∧
    (link.server = .returned (.ok ()) →
      c.clientIntent = s.clientIntent ∧ c.identity = s.identity) ∧
    (Stuck (step deriveKey c s) link →
      (∃ result, link.client = .returned result) ∧ (∃ result, link.server = .returned result) ∧
      (link.server = .returned (.ok ()) ↔
        c.clientIntent = s.clientIntent ∧ c.identity = s.identity) ∧
      (link.client = .returned (.ok ()) ↔
        c.clientIntent = s.clientIntent ∧ c.serverIntent = s.serverIntent ∧
        c.identity = s.identity)) := by
  have hphase : Phase deriveKey c s link :=
    run_invariant (fun _ _ _ hstep h => step_phase h hstep) hrun .start
  have hlength := run_length_le step_remaining hrun
  have hserver := accept_hello_iff hkeys hhello
  have hclient := accept_reply_iff hkeys hreply
  refine ⟨by simpa [remaining, start] using Nat.le_trans (Nat.le_add_right _ _) hlength,
    fun hok => ?_, fun hok => hserver.1 (hphase.server_ok hok), fun hstuck => ?_⟩
  · obtain ⟨hdone, hreplied⟩ := hphase.client_ok hok
    have hagree := hserver.1 (hphase.server_ok hdone)
    exact ⟨hdone, hagree.1, hclient.1 hreplied⟩
  · rcases hphase.stuck hstuck with ⟨e, he, rfl⟩ | ⟨hok, rfl⟩
    · have hdiffer : ¬ (c.clientIntent = s.clientIntent ∧ c.identity = s.identity) := by
        rw [← hserver, he]
        simp
      refine ⟨⟨_, rfl⟩, ⟨_, rfl⟩, ?_, ?_⟩
      · exact iff_of_false (by simp) hdiffer
      · exact iff_of_false (by simp) fun h => hdiffer ⟨h.1, h.2.2⟩
    · have hagree := hserver.1 hok
      have hdone : Client.received deriveKey c (s.reply deriveKey : Packet F) =
          .returned (.ok ()) ↔ c.serverIntent = s.serverIntent ∧ c.identity = s.identity := by
        rw [← hclient, Client.received, Client.returned.injEq]
      refine ⟨⟨_, rfl⟩, ⟨_, rfl⟩, iff_of_true rfl hagree, ?_⟩
      exact hdone.trans ⟨fun h => ⟨hagree.1, h⟩, And.right⟩

theorem handshake_agreement_test :
    ∃ link : Link Nat, run (step testDeriveKey testEndpoint testEndpoint)
        [.client, .server, .server, .client] start = some link ∧
      link.client = .returned (.ok ()) ∧ link.server = .returned (.ok ()) := by
  have hkeys : KeysDistinct testDeriveKey (testEndpoint.keys ∪ testEndpoint.keys) := by
    rw [Set.union_self]
    exact testKeysDistinct
  have hrun : run (step testDeriveKey testEndpoint testEndpoint)
      [.client, .server, .server, .client] (start : Link Nat) =
        some ⟨.received testDeriveKey testEndpoint
          (testEndpoint.reply testDeriveKey : Packet Nat), .returned (.ok ()), [], []⟩ := by
    simp [run, step, start, takePacket, Server.received, testHello_accepted, Client.sent, Server.sent]
  obtain ⟨-, -, -, hdone⟩ := handshake_agreement testDeriveKey testEndpoint testEndpoint
    hkeys testHello_fits testReply_fits _ _ hrun
  obtain ⟨-, -, hserver, hclient⟩ := hdone fun turn => by cases turn <;> rfl
  exact ⟨_, hrun, hclient.2 ⟨rfl, rfl, rfl⟩, hserver.2 ⟨rfl, rfl⟩⟩

end Link

end TereServer.Ipc
