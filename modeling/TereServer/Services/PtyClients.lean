import TereServer.Services.PtyRun
import TereServer.Services.Sessions.Progress

/-!
# Clients of any kind

The fd of a client comes from the end user, and nobody in front of the pty service
looks at the kind of file it refers to.
-/

namespace TereServer.Services.Pty

open Lib Bincode Ipc Proto.Pty

section Clients

variable {F : Type} {deriveKey : Str → Bytes → BuildId} {isSeqPacket : F → Bool} {identity : Str}
variable {pty fd : F} {pkt hello init : Packet F} {pkts : List (Packet F)} {fds : List F}

/-- A request for a client with a file of any kind. -/
def CarriesClient (pkt : Packet F) (fd : F) : Prop :=
  ∃ dummy, pkt.receiveAs Request = .ok (.newClient dummy fd)

/-- The clients that are `SOCK_SEQPACKET` sockets are attached, and the rest of the
script is served as if the others had not been there. -/
def Isolates (deriveKey : Str → Bytes → BuildId) (isSeqPacket : F → Bool) (identity : Str)
    (hello init : Packet F) (pty : F) (pkts : List (Packet F)) (fds : List F) : Prop :=
  ∀ later, serve deriveKey isSeqPacket identity ⟨hello :: init :: (pkts ++ later), []⟩ =
    ((serveRequests isSeqPacket pty later).1,
      (fds.filter isSeqPacket).map (Prod.mk pty) ++ (serveRequests isSeqPacket pty later).2)

theorem acceptsClients (h : List.Forall₂ CarriesClient pkts fds)
    (hkind : ∀ fd ∈ fds, isSeqPacket fd = true) :
    List.Forall₂ (AcceptsClient isSeqPacket) pkts fds := by
  induction h with
  | nil => exact .nil
  | cons hpkt _ ih =>
      obtain ⟨hfd, hfds⟩ := List.forall_mem_cons.1 hkind
      exact .cons ⟨hpkt, hfd⟩ (ih hfds)

theorem serveRequests_notSeqPacket (h : CarriesClient pkt fd) (hkind : isSeqPacket fd = false)
    (later : List (Packet F)) :
    serveRequests isSeqPacket pty (pkt :: later) = (.panicked .notSeqPacket, []) := by
  obtain ⟨dummy, hreceive⟩ := h
  simp [serveRequests, hreceive, tryFrom, hkind]

/-- The first client of another kind ends the service. -/
theorem serveRequests_panics (h : List.Forall₂ CarriesClient pkts fds)
    (hkind : ¬ ∀ fd ∈ fds, isSeqPacket fd = true) (later : List (Packet F)) :
    (serveRequests isSeqPacket pty (pkts ++ later)).1 = .panicked .notSeqPacket := by
  induction h with
  | nil => exact absurd (List.forall_mem_nil _) hkind
  | @cons pkt fd pkts fds hpkt _ ih =>
      cases hfd : isSeqPacket fd with
      | false => rw [List.cons_append, serveRequests_notSeqPacket hpkt hfd]
      | true =>
          have hrest : ¬ ∀ fd ∈ fds, isSeqPacket fd = true := by
            intro hfds
            exact hkind (List.forall_mem_cons.2 ⟨hfd, hfds⟩)
          rw [List.cons_append, serveRequests_cons ⟨hpkt, hfd⟩]
          exact ih hrest

theorem serve_clients (hhello : AcceptsHandshake deriveKey identity hello)
    (hinit : AcceptsInit init pty) (incoming : List (Packet F)) :
    serve deriveKey isSeqPacket identity ⟨hello :: init :: incoming, []⟩ =
      serveRequests isSeqPacket pty incoming := by
  rw [serve_of_accepts hhello, serveInit_of_accepts hinit]

/-- No client affects the others exactly when each of them is a `SOCK_SEQPACKET`
socket. -/
theorem isolates_clients_iff (hhello : AcceptsHandshake deriveKey identity hello)
    (hinit : AcceptsInit init pty) (hclients : List.Forall₂ CarriesClient pkts fds) :
    Isolates deriveKey isSeqPacket identity hello init pty pkts fds ↔
      ∀ fd ∈ fds, isSeqPacket fd = true := by
  constructor
  · intro h
    by_contra hkind
    have hend := congrArg Prod.fst (h [])
    rw [serve_clients hhello hinit, serveRequests_panics hclients hkind] at hend
    cases hend
  · intro hkind later
    rw [serve_clients hhello hinit, serveRequests_append (acceptsClients hclients hkind),
      List.filter_eq_self.2 hkind]

end Clients

/-! ## Two sockets and another file -/

/-- The file `9` is no `SOCK_SEQPACKET` socket. -/
def socketKind (fd : Nat) : Bool := fd != 9

def sessionsHello : Packet Nat := .of (Sessions.hello Sessions.testSetup)

def sessionsInit : Packet Nat := .of Sessions.testInit

def requestFor (fd : Nat) : Packet Nat := .of (Request.newClient 0 fd)

theorem sessionsHello_accepted :
    AcceptsHandshake Sessions.servicesDeriveKey testIdentity sessionsHello :=
  Sessions.testHello_accepted

theorem sessionsInit_accepted : AcceptsInit sessionsInit 5 := ⟨0, Proto.ptyInit_received 0 5⟩

theorem requestFor_carries (fd : Nat) : CarriesClient (requestFor fd) fd :=
  ⟨0, Proto.newClient_received 0 fd⟩

theorem isolates_two_clients :
    Isolates Sessions.servicesDeriveKey socketKind testIdentity sessionsHello sessionsInit 5
      [requestFor 7, requestFor 8] [7, 8] :=
  (isolates_clients_iff sessionsHello_accepted sessionsInit_accepted
    (.cons (requestFor_carries 7) (.cons (requestFor_carries 8) .nil))).2 (by decide)

/-- The client `8` is a `SOCK_SEQPACKET` socket, but the service has ended. -/
theorem wrong_kind_ends_service :
    serve Sessions.servicesDeriveKey socketKind testIdentity
        ⟨[sessionsHello, sessionsInit, requestFor 7, requestFor 9, requestFor 8], []⟩ =
      (.panicked .notSeqPacket, [(5, 7)]) ∧
    ¬ Isolates Sessions.servicesDeriveKey socketKind testIdentity sessionsHello sessionsInit 5
      [requestFor 7, requestFor 9, requestFor 8] [7, 9, 8] := by
  have hsocket : AcceptsClient socketKind (requestFor 7) 7 := ⟨requestFor_carries 7, rfl⟩
  have hother : socketKind 9 = false := rfl
  have hserve : serve Sessions.servicesDeriveKey socketKind testIdentity
        ⟨[sessionsHello, sessionsInit, requestFor 7, requestFor 9, requestFor 8], []⟩ =
      (.panicked .notSeqPacket, [(5, 7)]) := by
    rw [serve_clients sessionsHello_accepted sessionsInit_accepted, serveRequests_cons hsocket,
      serveRequests_notSeqPacket (requestFor_carries 9) hother]
  refine ⟨hserve, fun h => ?_⟩
  have hattached := h []
  rw [List.append_nil, hserve] at hattached
  cases congrArg Prod.fst hattached

end TereServer.Services.Pty
