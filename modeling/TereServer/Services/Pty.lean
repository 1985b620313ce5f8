import TereServer.Ipc.Handshake
import TereServer.Lib.Transition
import TereServer.Proto.Pty

/-!
# The pty service

`serve` on the packets that a peer sends before it closes.  Its result is how the
call ends, and the clients it has started `serve_user` for, each with the PTY it
was given.  The parameter `isSeqPacket` is the socket type of an open file.
-/

namespace TereServer.Services.Pty

open Lib Bincode Ipc Proto.Pty

inductive Error
  | handshake (e : HandshakeError)
  | receive (e : ReceiveError)
  deriving DecidableEq

inductive SocketConversionError
  | notSeqPacket
  deriving DecidableEq, Repr

/-- `serve` never returns `Ok`: it returns an error, or an `unwrap` panics. -/
inductive Exit
  | returned (e : Error)
  | panicked (e : SocketConversionError)
  deriving DecidableEq

/-- The service end of a connection, for a build with the given identity. -/
def endpoint (identity : Str) : Endpoint := ⟨clientIntent, serverIntent, identity⟩

section Serve

variable {F : Type} (deriveKey : Str → Bytes → BuildId) (isSeqPacket : F → Bool) (identity : Str)

/-- `SeqPacket::try_from`. -/
def tryFrom (socket : F) : Except SocketConversionError F :=
  if isSeqPacket socket then .ok socket else .error .notSeqPacket

/-- The loop of `serve`, with the clients it starts. -/
def serveRequests (pty : F) : (incoming : List (Packet F)) → Exit × List (F × F)
  | [] => (.returned (.receive .endOfStream), [])
  | pkt :: incoming =>
      match pkt.receiveAs Request with
      | .error e => (.returned (.receive e), [])
      | .ok (.newClient _ fd) =>
          match tryFrom isSeqPacket fd with
          | .error e => (.panicked e, [])
          | .ok conn =>
              let rest := serveRequests pty incoming
              (rest.1, (pty, conn) :: rest.2)

def serveInit (conn : Conn F) : Exit × List (F × F) :=
  match Conn.receiveWithFds Init conn with
  | (.error e, _) => (.returned (.receive e), [])
  | (.ok msg, conn) => serveRequests isSeqPacket msg.ptyMaster conn.incoming

def serve (conn : Conn F) : Exit × List (F × F) :=
  match handshakeAsServer deriveKey (endpoint identity) conn with
  | (.error e, _) => (.returned (.handshake e), [])
  | (.ok (), conn) => serveInit isSeqPacket conn

/-! ## Accepted packets -/

def AcceptsHandshake (pkt : Packet F) : Prop :=
  Handshake.accept deriveKey identity clientIntent pkt = .ok ()

def AcceptsInit (pkt : Packet F) (pty : F) : Prop := ∃ dummy, pkt.receiveAs Init = .ok ⟨dummy, pty⟩

def AcceptsClient (pkt : Packet F) (fd : F) : Prop :=
  (∃ dummy, pkt.receiveAs Request = .ok (.newClient dummy fd)) ∧ isSeqPacket fd = true

/-- A handshake, an init packet and any number of clients, or as much of it as
there is; with the clients that are attached. -/
inductive Accepted : List (Packet F) → List (F × F) → Prop
  | nothing : Accepted [] []
  | handshake {hello : Packet F} (h : AcceptsHandshake deriveKey identity hello) :
      Accepted [hello] []
  | clients {hello init : Packet F} {pty : F} {pkts : List (Packet F)} {fds : List F}
      (hhello : AcceptsHandshake deriveKey identity hello) (hinit : AcceptsInit init pty)
      (hfds : List.Forall₂ (AcceptsClient isSeqPacket) pkts fds) :
      Accepted (hello :: init :: pkts) (fds.map (Prod.mk pty))

variable {deriveKey isSeqPacket identity} {pkt : Packet F} {pkts incoming : List (Packet F)}
  {pty fd : F} {fds : List F}

theorem serveRequests_cons (h : AcceptsClient isSeqPacket pkt fd) :
    serveRequests isSeqPacket pty (pkt :: incoming) =
      ((serveRequests isSeqPacket pty incoming).1,
        (pty, fd) :: (serveRequests isSeqPacket pty incoming).2) := by
  obtain ⟨⟨dummy, hreceive⟩, hsocket⟩ := h
  simp [serveRequests, hreceive, tryFrom, hsocket]

theorem serveRequests_append (h : List.Forall₂ (AcceptsClient isSeqPacket) pkts fds) :
    serveRequests isSeqPacket pty (pkts ++ incoming) =
      ((serveRequests isSeqPacket pty incoming).1,
        fds.map (Prod.mk pty) ++ (serveRequests isSeqPacket pty incoming).2) := by
  induction h with
  | nil => rfl
  | cons hpkt _ ih => simp only [List.cons_append, serveRequests_cons hpkt, ih, List.map_cons]

/-- A packet that is no client ends the call, whatever follows. -/
theorem serveRequests_deviates (h : ∀ fd, ¬ AcceptsClient isSeqPacket pkt fd) :
    ∃ exit, ∀ incoming, serveRequests isSeqPacket pty (pkt :: incoming) = (exit, []) := by
  cases hreceive : pkt.receiveAs Request with
  | error e => exact ⟨_, fun incoming => by rw [serveRequests, hreceive]⟩
  | ok msg =>
      obtain ⟨dummy, fd⟩ := msg
      have hsocket : ¬ isSeqPacket fd = true := fun hsocket => h fd ⟨⟨dummy, hreceive⟩, hsocket⟩
      exact ⟨.panicked .notSeqPacket, fun incoming => by
        simp [serveRequests, hreceive, tryFrom, hsocket]⟩

/-- The requests up to the first packet that is no client. -/
theorem exists_clients (isSeqPacket : F → Bool) (incoming : List (Packet F)) :
    ∃ pkts fds rest, incoming = pkts ++ rest ∧
      List.Forall₂ (AcceptsClient isSeqPacket) pkts fds ∧
      ∀ pkt ∈ rest.head?, ∀ fd, ¬ AcceptsClient isSeqPacket pkt fd := by
  induction incoming with
  | nil => exact ⟨[], [], [], rfl, .nil, nofun⟩
  | cons pkt incoming ih =>
      by_cases h : ∃ fd, AcceptsClient isSeqPacket pkt fd
      · obtain ⟨fd, hfd⟩ := h
        obtain ⟨pkts, fds, rest, rfl, hfds, hrest⟩ := ih
        exact ⟨pkt :: pkts, fd :: fds, rest, rfl, .cons hfd hfds, hrest⟩
      · refine ⟨[], [], pkt :: incoming, rfl, .nil, fun pkt' hpkt fd hfd => ?_⟩
        obtain rfl := Option.mem_some.1 hpkt
        exact h ⟨fd, hfd⟩

/-! ## The packets of a whole script -/

theorem serveInit_of_accepts {out : List (Packet F)} (h : AcceptsInit pkt pty) :
    serveInit isSeqPacket ⟨pkt :: incoming, out⟩ = serveRequests isSeqPacket pty incoming := by
  obtain ⟨dummy, hreceive⟩ := h
  have hinit : Conn.receiveWithFds Init ⟨pkt :: incoming, out⟩ =
      (.ok ⟨dummy, pty⟩, ⟨incoming, out⟩) := Conn.receiveWithFds_of_ok hreceive
  rw [serveInit, hinit]

theorem serveInit_deviates {out : List (Packet F)} (h : ∀ pty, ¬ AcceptsInit pkt pty) :
    ∃ exit, ∀ incoming, serveInit isSeqPacket ⟨pkt :: incoming, out⟩ = (exit, []) := by
  cases hreceive : pkt.receiveAs Init with
  | error e =>
      refine ⟨.returned (.receive e), fun incoming => ?_⟩
      have hinit : Conn.receiveWithFds Init ⟨pkt :: incoming, out⟩ = (.error e, ⟨incoming, out⟩) :=
        Conn.receiveWithFds_of_error hreceive
      rw [serveInit, hinit]
  | ok msg => exact absurd ⟨msg.dummy, hreceive⟩ (h msg.ptyMaster)

theorem serve_of_accepts (h : AcceptsHandshake deriveKey identity pkt) {out : List (Packet F)} :
    serve deriveKey isSeqPacket identity ⟨pkt :: incoming, out⟩ =
      serveInit isSeqPacket ⟨incoming, out ++ [(endpoint identity).reply deriveKey]⟩ := by
  have haccept : Handshake.accept deriveKey (endpoint identity).identity
    (endpoint identity).clientIntent pkt = .ok () := h
  simp only [serve, handshakeAsServer_eq, Conn.next, haccept]
  rfl

theorem serve_deviates (h : ¬ AcceptsHandshake deriveKey identity pkt) {out : List (Packet F)} :
    ∃ exit, ∀ incoming,
      serve deriveKey isSeqPacket identity ⟨pkt :: incoming, out⟩ = (exit, []) := by
  cases haccept : Handshake.accept deriveKey (endpoint identity).identity
      (endpoint identity).clientIntent pkt with
  | error e =>
      exact ⟨_, fun incoming => by simp only [serve, handshakeAsServer_eq, Conn.next, haccept]; rfl⟩
  | ok u => exact absurd haccept h

theorem serve_nil {out : List (Packet F)} :
    (serve deriveKey isSeqPacket identity ⟨[], out⟩).2 = [] := by
  have haccept : Handshake.accept deriveKey (endpoint identity).identity
      (endpoint identity).clientIntent (Packet.closed : Packet F) =
        .error (.receive .endOfStream) := by
    simp [Handshake.accept]
  simp only [serve, handshakeAsServer_eq, Conn.next, haccept]

theorem serveInit_nil {out : List (Packet F)} :
    serveInit isSeqPacket (⟨[], out⟩ : Conn F) = (.returned (.receive .endOfStream), []) := by
  have hinit : Conn.receiveWithFds Init (⟨[], out⟩ : Conn F) = (.error .endOfStream, ⟨[], out⟩) :=
    Conn.receiveWithFds_of_error Packet.receiveAs_closed
  rw [serveInit, hinit]

/-- Clients in front of a packet that is none are the most there are. -/
theorem clients_longest {others rest : List (Packet F)}
    (hothers : List.Forall₂ (AcceptsClient isSeqPacket) others fds)
    (hrest : ∀ pkt ∈ rest.head?, ∀ fd, ¬ AcceptsClient isSeqPacket pkt fd)
    (hpre : others <+: pkts ++ rest) : others.length ≤ pkts.length := by
  induction pkts generalizing others fds with
  | nil =>
      cases hothers with
      | nil => exact le_rfl
      | @cons pkt fd _ _ hpkt _ =>
          obtain ⟨tail, htail⟩ := hpre
          have hhead : pkt ∈ rest.head? := by
            have hsplit : rest = pkt :: _ := htail.symm
            rw [hsplit]
            rfl
          exact absurd hpkt (hrest pkt hhead fd)
  | cons pkt pkts ih =>
      cases hothers with
      | nil => exact Nat.zero_le _
      | cons _ htail =>
          obtain ⟨-, hpre⟩ := List.cons_prefix_cons.1 hpre
          exact Nat.succ_le_succ (ih htail hpre)

/-- How `serve` treats a script whose longest accepted prefix is `pre`. -/
structure Attaches (deriveKey : Str → Bytes → BuildId) (isSeqPacket : F → Bool) (identity : Str)
    (incoming pre : List (Packet F)) (started : List (F × F)) : Prop where
  accepted : Accepted deriveKey isSeqPacket identity pre started
  isPrefix : pre <+: incoming
  longest : ∀ pre' started', Accepted deriveKey isSeqPacket identity pre' started' →
    pre' <+: incoming → pre'.length ≤ pre.length
  started_eq : (serve deriveKey isSeqPacket identity ⟨incoming, []⟩).2 = started
  deviates : ∀ pkt rest rest', incoming = pre ++ pkt :: rest →
    serve deriveKey isSeqPacket identity ⟨pre ++ pkt :: rest', []⟩ =
      serve deriveKey isSeqPacket identity ⟨incoming, []⟩
  ends : incoming = pre → 2 ≤ pre.length →
    (serve deriveKey isSeqPacket identity ⟨incoming, []⟩).1 = .returned (.receive .endOfStream)

theorem attaches_nil : Attaches deriveKey isSeqPacket identity ([] : List (Packet F)) [] [] where
  accepted := .nothing
  isPrefix := List.prefix_rfl
  longest _ _ _ h := h.length_le
  started_eq := serve_nil
  deviates _ _ _ h := by simp at h
  ends _ h := by simp at h

theorem attaches_of_no_handshake (h : ¬ AcceptsHandshake deriveKey identity pkt) :
    Attaches deriveKey isSeqPacket identity (pkt :: incoming) [] [] := by
  obtain ⟨exit, hexit⟩ : ∃ exit, ∀ incoming,
      serve deriveKey isSeqPacket identity ⟨pkt :: incoming, []⟩ = (exit, []) := serve_deviates h
  refine ⟨.nothing, List.nil_prefix, ?_, by rw [hexit], ?_, nofun⟩
  · intro pre' started' haccepted hpre
    cases haccepted with
    | nothing => exact le_rfl
    | handshake hhello =>
        obtain ⟨rfl, -⟩ := List.cons_prefix_cons.1 hpre
        exact absurd hhello h
    | clients hhello _ _ =>
        obtain ⟨rfl, -⟩ := List.cons_prefix_cons.1 hpre
        exact absurd hhello h
  · intro pkt' rest rest' hsplit
    obtain ⟨rfl, rfl⟩ := List.cons.inj hsplit
    rw [List.nil_append, hexit, hexit]

theorem attaches_of_no_init (hhello : AcceptsHandshake deriveKey identity pkt)
    (hinit : ∀ init ∈ incoming.head?, ∀ pty, ¬ AcceptsInit init pty) :
    Attaches deriveKey isSeqPacket identity (pkt :: incoming) [pkt] [] := by
  refine ⟨.handshake hhello, by simp, ?_, ?_, ?_, nofun⟩
  · intro pre' started' haccepted hpre
    cases haccepted with
    | nothing => simp
    | handshake _ => exact le_rfl
    | @clients _ init pty _ _ _ hinit' _ =>
        obtain ⟨-, htail⟩ := List.cons_prefix_cons.1 hpre
        obtain ⟨tail, rfl⟩ := htail
        exact absurd hinit' (hinit init rfl pty)
  · rw [serve_of_accepts hhello]
    cases incoming with
    | nil => rw [serveInit_nil]
    | cons init rest =>
        have hdeviates := hinit init rfl
        obtain ⟨exit, hexit⟩ : ∃ exit, ∀ incoming, serveInit isSeqPacket ⟨init :: incoming, _⟩ =
          (exit, []) := serveInit_deviates hdeviates
        rw [hexit]
  · intro init rest rest' hsplit
    obtain ⟨-, rfl⟩ := List.cons.inj hsplit
    obtain ⟨exit, hexit⟩ : ∃ exit, ∀ incoming, serveInit isSeqPacket ⟨init :: incoming, _⟩ =
      (exit, []) := serveInit_deviates (hinit init rfl)
    rw [List.singleton_append, serve_of_accepts hhello, serve_of_accepts hhello]
    exact (hexit rest').trans (hexit rest).symm

theorem attaches_of_clients {init : Packet F} {rest : List (Packet F)}
    (hhello : AcceptsHandshake deriveKey identity pkt) (hinit : AcceptsInit init pty)
    (hfds : List.Forall₂ (AcceptsClient isSeqPacket) pkts fds)
    (hrest : ∀ pkt ∈ rest.head?, ∀ fd, ¬ AcceptsClient isSeqPacket pkt fd) :
    Attaches deriveKey isSeqPacket identity (pkt :: init :: (pkts ++ rest))
      (pkt :: init :: pkts) (fds.map (Prod.mk pty)) := by
  have hserve (rest : List (Packet F)) :
      serve deriveKey isSeqPacket identity ⟨pkt :: init :: (pkts ++ rest), []⟩ =
        ((serveRequests isSeqPacket pty rest).1,
          fds.map (Prod.mk pty) ++ (serveRequests isSeqPacket pty rest).2) := by
    rw [serve_of_accepts hhello, serveInit_of_accepts hinit, serveRequests_append hfds]
  refine ⟨.clients hhello hinit hfds, by simp, ?_, ?_, ?_, ?_⟩
  · intro pre' started' haccepted hpre
    cases haccepted with
    | nothing => simp
    | handshake _ => simp
    | clients _ _ hfds' =>
        obtain ⟨-, htail⟩ := List.cons_prefix_cons.1 hpre
        obtain ⟨-, hclients⟩ := List.cons_prefix_cons.1 htail
        have hle := clients_longest hfds' hrest hclients
        simpa using hle
  · rw [hserve]
    cases rest with
    | nil => simp [serveRequests]
    | cons pkt' rest =>
        obtain ⟨exit, hexit⟩ : ∃ exit, ∀ incoming, serveRequests isSeqPacket pty
          (pkt' :: incoming) = (exit, []) := serveRequests_deviates (hrest pkt' rfl)
        rw [hexit, List.append_nil]
  · intro pkt' tail rest' hsplit
    obtain rfl : rest = pkt' :: tail := by simpa using hsplit
    obtain ⟨exit, hexit⟩ : ∃ exit, ∀ incoming, serveRequests isSeqPacket pty
      (pkt' :: incoming) = (exit, []) := serveRequests_deviates (hrest pkt' rfl)
    have hright := hserve (pkt' :: rest')
    rw [hexit] at hright
    rw [hserve, hexit]
    exact hright
  · intro hend _
    obtain rfl : rest = [] := by simpa using hend
    rw [hserve]
    rfl

theorem exists_attaches (deriveKey : Str → Bytes → BuildId) (isSeqPacket : F → Bool)
    (identity : Str) (incoming : List (Packet F)) :
    ∃ pre started, Attaches deriveKey isSeqPacket identity incoming pre started := by
  cases incoming with
  | nil => exact ⟨[], [], attaches_nil⟩
  | cons hello incoming =>
      by_cases hhello : AcceptsHandshake deriveKey identity hello
      · cases incoming with
        | nil => exact ⟨[hello], [], attaches_of_no_init hhello nofun⟩
        | cons init incoming =>
            by_cases hinit : ∃ pty, AcceptsInit init pty
            · obtain ⟨pty, hpty⟩ := hinit
              obtain ⟨pkts, fds, rest, rfl, hfds, hrest⟩ := exists_clients isSeqPacket incoming
              exact ⟨_, _, attaches_of_clients hhello hpty hfds hrest⟩
            · refine ⟨[hello], [], attaches_of_no_init hhello fun pkt hpkt pty hpty => hinit ?_⟩
              obtain rfl := Option.mem_some.1 hpkt
              exact ⟨pty, hpty⟩
      · exact ⟨[], [], attaches_of_no_handshake hhello⟩

end Serve

end TereServer.Services.Pty
