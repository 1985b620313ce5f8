import TereServer.Services.Sessions.Completion

/-!
# The instances at the other ends

What an instance of the pty service has said on its connection, and why it exits.
The instance of a stored session has replied, and as its connection is never closed
it exits only because a system call has failed or because of the client's file.
-/

namespace TereServer.Services.Sessions

open Lib Bincode Ipc Proto.Sessions

/-! ## One instance -/

section Connection

variable {ι F : Type}

/-- The pty service takes the sessions service for one of its own build. -/
def HelloAccepted (setup : Setup F) : Prop :=
  Handshake.accept setup.deriveKey setup.ptyIdentity Proto.Pty.clientIntent
    (Packet.of (hello setup)) = .ok ()

structure Greeted (setup : Setup F) (events : List (Pty.Event F)) : Prop where
  accepted : HelloAccepted setup
  logged : .handshakeAccepted ∈ events

/-- The reply to the handshake is on the connection once it was sent. -/
def ReplyPending (setup : Setup F) (service : Pty.Service F) : Prop :=
  match service.point with
  | .handshaking => service.conn.outgoing = []
  | .replying => service.conn.outgoing = [] ∧ Greeted setup service.events
  | .awaitingInit => service.conn.outgoing = [ptyReply setup] ∧ Greeted setup service.events
  | .serving _ => service.conn.outgoing = [ptyReply setup] ∧ Greeted setup service.events
  | .exited _ => service.conn.outgoing = [] ∨
      service.conn.outgoing = [ptyReply setup] ∧ Greeted setup service.events

/-- An instance has accepted the handshake and is past its reply, and none is left on the
connection. -/
structure ReplyTaken (setup : Setup F) (service : Pty.Service F) : Prop extends
    Greeted setup service.events where
  greeted : service.point ≠ .handshaking
  replied : service.point ≠ .replying
  outgoing : service.conn.outgoing = []

/-- Why an instance that a thread has connected to for `create` may have exited. -/
def ExitCause (setup : Setup F) (create : CreateShellSession F) (conn : PtyConn ι F)
    (exit : Pty.Exit) : Prop :=
  (∃ e point, failure (F := F) e point = some exit) ∨ conn.closed = true ∨
    ¬ HelloAccepted setup ∨
      exit = .panicked .notSeqPacket ∧ setup.isSeqPacket create.fd = false

/-- The client of a request, once its message was received. -/
def PtyConn.Serves (setup : Setup F) (create : CreateShellSession F) (ptyMaster : F)
    (conn : PtyConn ι F) : Prop :=
  Pty.users conn.service.events =
    if conn.reads.length = 3 ∧ setup.isSeqPacket create.fd = true then [(ptyMaster, create.fd)]
    else []

variable {setup : Setup F} {create : CreateShellSession F} {ptyMaster : F}
  {conn conn' : PtyConn ι F} {kind : Kind} {pkt : Packet F} {rest : List (Packet F)}

/-- The packet that is received next is that of the next message of the request. -/
theorem PtyConn.Relays.next (h : conn.Relays setup create ptyMaster)
    (hincoming : conn.service.conn.incoming = pkt :: rest) :
    ∃ m, (script setup create ptyMaster)[conn.reads.length]? = some m ∧ pkt = m.packet := by
  rw [h.incoming] at hincoming
  obtain ⟨m, tail, hdrop, rfl, -⟩ := List.map_eq_cons_iff.1 hincoming
  have hsent : conn.sent[conn.reads.length]? = some m := by
    rw [← List.head?_drop, hdrop]
    rfl
  obtain ⟨others, hothers⟩ := h.sent
  refine ⟨m, ?_, rfl⟩
  rw [← hothers]
  exact getElem?_append_of_some hsent

theorem received_hello (setup : Setup F) :
    received setup .handshaking (Packet.of (hello setup)) = (.replying, [.handshakeAccepted]) ∧
        HelloAccepted setup ∨
      ¬ HelloAccepted setup ∧ ∃ e, received setup .handshaking (Packet.of (hello setup)) =
        (.exited (.returned (.handshake e)), []) := by
  unfold HelloAccepted received Pty.Point.received
  cases Handshake.accept setup.deriveKey setup.ptyIdentity Proto.Pty.clientIntent
      (Packet.of (hello setup)) with
  | ok u => exact .inl ⟨rfl, rfl⟩
  | error e => exact .inr ⟨by simp, e, rfl⟩

theorem received_init : received setup .awaitingInit (Packet.of (⟨0, ptyMaster⟩ : Proto.Pty.Init F)) =
    (.serving ptyMaster, [.initAccepted ptyMaster]) := by
  simp only [received, Pty.Point.received, Proto.ptyInit_received]

theorem received_client (pty fd : F) :
    received setup (.serving pty) (Packet.of (Proto.Pty.Request.newClient 0 fd)) =
      if setup.isSeqPacket fd then (.serving pty, [.userStarted pty fd])
      else (.exited (.panicked .notSeqPacket), []) := by
  simp only [received, Pty.Point.received, Proto.newClient_received, Pty.tryFrom]
  cases setup.isSeqPacket fd <;> rfl

/-- What an instance makes of the packet that is received next. -/
inductive Receives (setup : Setup F) (create : CreateShellSession F) (ptyMaster : F) :
    Pty.Point F → Nat → Pty.Point F → List (Pty.Event F) → Prop
  | accepted (h : HelloAccepted setup) :
      Receives setup create ptyMaster .handshaking 0 .replying [.handshakeAccepted]
  | refused (h : ¬ HelloAccepted setup) (e : HandshakeError) :
      Receives setup create ptyMaster .handshaking 0 (.exited (.returned (.handshake e))) []
  | init : Receives setup create ptyMaster .awaitingInit 1 (.serving ptyMaster)
      [.initAccepted ptyMaster]
  | client (h : setup.isSeqPacket create.fd = true) :
      Receives setup create ptyMaster (.serving ptyMaster) 2 (.serving ptyMaster)
        [.userStarted ptyMaster create.fd]
  | notSocket (h : setup.isSeqPacket create.fd = false) :
      Receives setup create ptyMaster (.serving ptyMaster) 2
        (.exited (.panicked .notSeqPacket)) []

theorem PtyConn.Relays.receives (h : conn.Relays setup create ptyMaster)
    (hkind : receives conn.service.point = some kind)
    (hincoming : conn.service.conn.incoming = pkt :: rest) :
    Receives setup create ptyMaster conn.service.point conn.reads.length
      (received setup conn.service.point pkt).1 (received setup conn.service.point pkt).2 := by
  obtain ⟨m, hm, rfl⟩ := h.next hincoming
  have hpoint := h.point
  cases hcase : conn.service.point with
  | handshaking =>
      rw [hcase] at hpoint
      have hn : conn.reads.length = 0 := hpoint
      rw [hn] at hm ⊢
      obtain rfl := Option.some.inj hm
      dsimp only [Sent.packet]
      rcases received_hello setup with ⟨heq, haccepted⟩ | ⟨hrefused, e, heq⟩
      · rw [heq]
        exact .accepted haccepted
      · rw [heq]
        exact .refused hrefused e
  | awaitingInit =>
      rw [hcase] at hpoint
      have hn : conn.reads.length = 1 := hpoint
      rw [hn] at hm ⊢
      obtain rfl := Option.some.inj hm
      dsimp only [Sent.packet]
      rw [received_init]
      exact .init
  | serving pty =>
      rw [hcase] at hpoint
      obtain ⟨hn, rfl⟩ := hpoint
      obtain ⟨hlt, -⟩ := List.getElem?_eq_some_iff.1 hm
      have htwo : conn.reads.length = 2 := by
        simp only [script, List.length_cons, List.length_nil] at hlt
        omega
      rw [htwo] at hm ⊢
      obtain rfl := Option.some.inj hm
      dsimp only [Sent.packet]
      rw [received_client]
      cases hsocket : setup.isSeqPacket create.fd with
      | true => exact .client hsocket
      | false => exact .notSocket hsocket
  | replying =>
      rw [hcase] at hkind
      cases hkind
  | exited e =>
      rw [hcase] at hkind
      cases hkind

theorem PtyConn.Serves.step (h : conn.Serves setup create ptyMaster)
    (hrelays : conn.Relays setup create ptyMaster) (hstep : conn.Step setup conn') :
    conn'.Serves setup create ptyMaster := by
  unfold PtyConn.Serves at h ⊢
  cases hstep with
  | @receive kind pkt rest hkind hincoming =>
      have hreceives := hrelays.receives hkind hincoming
      simp only [PtyConn.receive, Pty.users_append, h, List.length_append, List.length_singleton]
      generalize (received setup conn.service.point pkt).1 = p at hreceives
      generalize (received setup conn.service.point pkt).2 = events at hreceives
      generalize conn.service.point = q at hreceives
      generalize conn.reads.length = n at hreceives
      cases hreceives with
      | accepted haccepted => simp [Pty.users]
      | refused hrefused e => simp [Pty.users]
      | init => simp [Pty.users]
      | client hsocket => simp [Pty.users, hsocket]
      | notSocket hsocket => simp [Pty.users, hsocket]
  | reply hpoint => exact h
  | @ptyIo user huser =>
      have hsame : Pty.users (conn.service.events ++ [.ptyIo user.1]) =
          Pty.users conn.service.events := by
        rw [Pty.users_append]
        exact List.append_nil _
      exact hsame.trans h
  | exit e => exact h

theorem Greeted.append {events : List (Pty.Event F)} (h : Greeted setup events)
    (more : List (Pty.Event F)) : Greeted setup (events ++ more) :=
  ⟨h.accepted, List.mem_append_left _ h.logged⟩

theorem ReplyPending.log {service : Pty.Service F} (h : ReplyPending setup service)
    (event : Pty.Event F) :
    ReplyPending setup { service with events := service.events ++ [event] } := by
  unfold ReplyPending at h ⊢
  dsimp only
  cases hpoint : service.point with
  | handshaking =>
      rw [hpoint] at h
      exact h
  | exited e =>
      rw [hpoint] at h
      exact h.imp_right fun h => ⟨h.1, h.2.append _⟩
  | _ =>
      rw [hpoint] at h
      exact ⟨h.1, h.2.append _⟩

theorem ReplyPending.step (h : ReplyPending setup conn.service)
    (hrelays : conn.Relays setup create ptyMaster) (hstep : conn.Step setup conn') :
    ReplyPending setup conn'.service := by
  unfold ReplyPending at h
  cases hstep with
  | @receive kind pkt rest hkind hincoming =>
      have hreceives := hrelays.receives hkind hincoming
      unfold ReplyPending PtyConn.receive
      dsimp only
      generalize (received setup conn.service.point pkt).1 = p at hreceives
      generalize (received setup conn.service.point pkt).2 = events at hreceives
      generalize conn.reads.length = n at hreceives
      generalize conn.service.point = q at h hreceives
      cases hreceives with
      | accepted haccepted => exact ⟨h, haccepted, List.mem_append_right _ (List.mem_singleton.2 rfl)⟩
      | refused hrefused e => exact .inl h
      | init => exact ⟨h.1, h.2.append _⟩
      | client hsocket => exact ⟨h.1, h.2.append _⟩
      | notSocket hsocket => exact .inr ⟨h.1, h.2.append _⟩
  | reply hpoint =>
      rw [hpoint] at h
      obtain ⟨houtgoing, hgreeted⟩ := h
      have hpush : (conn.service.conn.push (ptyReply setup)).outgoing = [ptyReply setup] := by
        rw [Conn.push, houtgoing]
        rfl
      exact ⟨hpush, hgreeted⟩
  | ptyIo huser =>
      have hpending : ReplyPending setup conn.service := h
      exact hpending.log _
  | exit e =>
      change conn.service.conn.outgoing = [] ∨ _
      cases hpoint : conn.service.point with
      | handshaking =>
          rw [hpoint] at h
          exact .inl h
      | replying =>
          rw [hpoint] at h
          exact .inl h.1
      | awaitingInit =>
          rw [hpoint] at h
          exact .inr h
      | serving pty =>
          rw [hpoint] at h
          exact .inr h
      | exited e' =>
          rw [hpoint] at h
          exact h

theorem ReplyTaken.step (h : ReplyTaken setup conn.service)
    (hrelays : conn.Relays setup create ptyMaster) (hstep : conn.Step setup conn') :
    ReplyTaken setup conn'.service := by
  obtain ⟨haccepted, hgreeted, hreplied, houtgoing⟩ := h
  cases hstep with
  | @receive kind pkt rest hkind hincoming =>
      have hreceives := hrelays.receives hkind hincoming
      have hpast : (received setup conn.service.point pkt).1 ≠ .handshaking ∧
          (received setup conn.service.point pkt).1 ≠ .replying := by
        generalize (received setup conn.service.point pkt).1 = p at hreceives
        generalize (received setup conn.service.point pkt).2 = events at hreceives
        generalize conn.reads.length = n at hreceives
        generalize conn.service.point = q at hgreeted hreceives
        cases hreceives with
        | accepted haccepted => exact absurd rfl hgreeted
        | refused hrefused e => exact absurd rfl hgreeted
        | init => exact ⟨by simp, by simp⟩
        | client hsocket => exact ⟨by simp, by simp⟩
        | notSocket hsocket => exact ⟨by simp, by simp⟩
      exact ⟨haccepted.append _, hpast.1, hpast.2, houtgoing⟩
  | reply hpoint => exact absurd hpoint hreplied
  | ptyIo huser => exact ⟨haccepted.append _, hgreeted, hreplied, houtgoing⟩
  | exit e =>
      exact ⟨haccepted, by simp [PtyConn.withService], by simp [PtyConn.withService], houtgoing⟩

theorem ReplyPending.taken (h : ReplyPending setup conn.service)
    (hreply : conn.nextReply = some pkt) (haccept : acceptPty setup pkt = .ok ()) :
    ReplyTaken setup conn.dropReply.service := by
  have hclosed : acceptPty setup .closed ≠ .ok () := by simp [acceptPty, Handshake.accept]
  have hthere (houtgoing : conn.service.conn.outgoing = [ptyReply setup])
      (haccepted : Greeted setup conn.service.events)
      (hgreeted : conn.service.point ≠ .handshaking) (hreplied : conn.service.point ≠ .replying) :
      ReplyTaken setup conn.dropReply.service := by
    refine ⟨haccepted, hgreeted, hreplied, ?_⟩
    have htail : conn.dropReply.service.conn.outgoing = conn.service.conn.outgoing.tail := rfl
    rw [htail, houtgoing]
    rfl
  unfold ReplyPending at h
  unfold PtyConn.nextReply at hreply
  cases hpoint : conn.service.point with
  | handshaking =>
      rw [hpoint] at h
      rw [h, hpoint] at hreply
      cases hreply
  | replying =>
      rw [hpoint] at h
      rw [h.1, hpoint] at hreply
      cases hreply
  | awaitingInit =>
      rw [hpoint] at h hthere
      exact hthere h.1 h.2 (by simp) (by simp)
  | serving pty =>
      rw [hpoint] at h hthere
      exact hthere h.1 h.2 (by simp) (by simp)
  | exited e =>
      rw [hpoint] at h hthere
      rcases h with houtgoing | ⟨houtgoing, haccepted⟩
      · rw [houtgoing, hpoint] at hreply
        obtain rfl := Option.some.inj hreply
        exact absurd haccept hclosed
      · exact hthere houtgoing haccepted (by simp) (by simp)

/-! ## Exits -/

theorem PtyConn.serve_cases (h : conn.step setup (.run .serve) = some conn') :
    (∃ kind pkt rest, Sessions.receives conn.service.point = some kind ∧
      conn.service.conn.incoming = pkt :: rest ∧ conn' = conn.receive setup kind pkt rest) ∨
    (∃ kind e, Sessions.receives conn.service.point = some kind ∧ conn.closed = true ∧
      conn' = conn.withService { conn.service with point := .exited e }) ∨
    conn.service.point = .replying ∧ conn' = conn.withService { conn.service with
      point := .awaitingInit
      conn := conn.service.conn.push (ptyReply setup) } := by
  cases hkind : Sessions.receives conn.service.point with
  | some kind =>
      cases hincoming : conn.service.conn.incoming with
      | nil =>
          obtain ⟨e, he⟩ := received_closed setup hkind
          have hnext : conn.service.conn.next = (.closed, conn.service.conn) := by
            simp [Conn.next, hincoming]
          have hread : conn.nextRead = [] := by simp [PtyConn.nextRead, hkind, hincoming]
          unfold received at he
          simp only [PtyConn.step, step_receives hkind, Pty.Service.receive, hnext, he, hread,
            List.append_nil, Option.map_some] at h
          by_cases hblocked : conn.blocked = true
          · rw [if_pos hblocked] at h
            cases h
          · rw [if_neg hblocked] at h
            have hclosed : conn.closed = true := by
              simpa [PtyConn.blocked, hkind, hincoming] using hblocked
            exact .inr (.inl ⟨kind, e, rfl, hclosed, (Option.some.inj h).symm⟩)
      | cons pkt rest =>
          rw [PtyConn.step_receive hkind hincoming] at h
          exact .inl ⟨kind, pkt, rest, rfl, rfl, (Option.some.inj h).symm⟩
  | none =>
      have hnotBlocked : conn.blocked = false := by simp [PtyConn.blocked, hkind]
      have hread : conn.nextRead = [] := by simp [PtyConn.nextRead, hkind]
      simp only [PtyConn.step, hnotBlocked, hread, List.append_nil, Bool.false_eq_true,
        if_false] at h
      cases hpoint : conn.service.point with
      | replying =>
          simp only [Pty.step, hpoint, Option.map_some, Option.some.injEq] at h
          exact .inr (.inr ⟨rfl, h.symm⟩)
      | exited e =>
          simp only [Pty.step, hpoint, Option.map_none] at h
          cases h
      | _ =>
          rw [hpoint] at hkind
          cases hkind

theorem PtyConn.Relays.exits (hrelays : conn.Relays setup create ptyMaster) {b : PtyAction}
    (h : conn.step setup b = some conn') {e : Pty.Exit} (hexit : conn'.service.point = .exited e) :
    conn.service.point = .exited e ∨ ExitCause setup create conn' e := by
  cases b with
  | fail io =>
      obtain ⟨exit, hfailure, rfl⟩ := Option.map_eq_some_iff.1 h
      cases hexit
      exact .inr (.inl ⟨io, _, hfailure⟩)
  | run action =>
      cases action with
      | ptyIo n =>
          obtain ⟨service, hservice, rfl⟩ := Option.map_eq_some_iff.1 h
          obtain ⟨user, -, rfl⟩ := Option.map_eq_some_iff.1 hservice
          exact .inl hexit
      | serve =>
          right
          rcases PtyConn.serve_cases h with ⟨kind, pkt, rest, hkind, hincoming, rfl⟩ |
            ⟨kind, e', hkind, hclosed, rfl⟩ | ⟨hpoint, rfl⟩
          · have hreceives := hrelays.receives hkind hincoming
            have hpoint : (received setup conn.service.point pkt).1 = .exited e := hexit
            rw [hpoint] at hreceives
            generalize conn.reads.length = n at hreceives
            generalize (received setup conn.service.point pkt).2 = events at hreceives
            generalize conn.service.point = q at hreceives
            cases hreceives with
            | refused hrefused e' => exact .inr (.inr (.inl hrefused))
            | notSocket hsocket => exact .inr (.inr (.inr ⟨rfl, hsocket⟩))
          · exact .inr (.inl hclosed)
          · cases hexit

end Connection

/-! ## All connections -/

section Steps

variable {ι F : Type} [DecidableEq ι] {setup : Setup F} {s s' : State ι F} {a : Action ι F}
  {t : ι} {id : RequestId ι} {k : Nat} {conn conn' : PtyConn ι F}

theorem Inv.started_step (hinv : Inv setup s) (h : Step setup s a s')
    (hconn : s.conns[k]? = some conn) {create : CreateShellSession F} {ptyMaster : F}
    (hs : Started s conn.owner create ptyMaster) : Started s' conn.owner create ptyMaster := by
  have hlt := hinv.owners_lt conn.owner (List.mem_map_of_mem (List.mem_of_getElem? hconn))
  apply h.started
  · intro t hpoint hnew
    simp [hnew, State.next, hpoint, Point.unconnected, Point.unreserved] at hlt
  · intro t r hpoint hown
    simp [hown, State.next, hpoint, Point.unconnected] at hlt
  · exact hs

/-- What has become of the replies to the handshakes, and why instances have exited. -/
structure Replies (setup : Setup F) (s : State ι F) : Prop where
  pending : ∀ t b, s.point t = .greeting b ∨ s.point t = .awaitingReply b →
    ∀ conn, s.conns[b.ptyConn]? = some conn → ReplyPending setup conn.service
  taken : ∀ t b, s.point t = .sendingInit b →
    ∀ conn, s.conns[b.ptyConn]? = some conn → ReplyTaken setup conn.service
  announced : ∀ (k : Nat) (conn : PtyConn ι F), s.conns[k]? = some conn → 2 ≤ conn.sent.length →
    ReplyTaken setup conn.service
  exits : ∀ (k : Nat) (conn : PtyConn ι F), s.conns[k]? = some conn →
    ∀ create ptyMaster e, Started s conn.owner create ptyMaster →
      conn.service.point = .exited e → ExitCause setup create conn e
  serves : ∀ (k : Nat) (conn : PtyConn ι F), s.conns[k]? = some conn →
    ∀ create ptyMaster, Started s conn.owner create ptyMaster → conn.Serves setup create ptyMaster

theorem step_pending (hinv : Inv setup s) (h : Step setup s a s') {b : Attachment F}
    (hpoint : s'.point t = .greeting b ∨ s'.point t = .awaitingReply b) :
    (s.point t = .greeting b ∨ s.point t = .awaitingReply b) ∨ b.ptyConn = s.conns.length := by
  by_cases ht : a.thread = some t
  · cases h with
    | @move _ u p ha h =>
        obtain rfl : u = t := Option.some.inj (ha.symm.trans ht)
        rw [State.goto_point] at hpoint
        generalize s.point u = q at h
        rcases hpoint with rfl | rfl
        · cases h
        · cases h
    | @panic _ u e ha h =>
        obtain rfl : u = t := Option.some.inj (ha.symm.trans ht)
        simp at hpoint
    | @connect u r ptyMaster hconnecting =>
        obtain rfl : u = t := Option.some.inj ht
        rw [State.connect_point] at hpoint
        rcases hpoint with hpoint | hpoint
        · cases hpoint
          exact .inr rfl
        · cases hpoint
    | @send u i m p h =>
        obtain rfl : u = t := Option.some.inj ht
        rw [State.send_point] at hpoint
        generalize s.point u = q at h
        cases h with
        | hello b' =>
            rcases hpoint with hpoint | hpoint
            · cases hpoint
            · cases hpoint
              exact .inl (.inl rfl)
        | _ => simp at hpoint
    | pty hconn h => cases ht
    | _ =>
        obtain rfl := Option.some.inj ht
        simp at hpoint
  · rw [(h.frame hinv ht).point] at hpoint
    exact .inl hpoint

/-- Where a thread was that has taken a reply, which was accepted. -/
theorem step_taken (hinv : Inv setup s) (h : step setup s a = some s') {b : Attachment F}
    (hpoint' : s'.point t = .sendingInit b) :
    s.point t = .sendingInit b ∨ ∃ conn pkt, s.point t = .awaitingReply b ∧
      s.conns[b.ptyConn]? = some conn ∧ conn.nextReply = some pkt ∧ acceptPty setup pkt = .ok () ∧
        s' = (s.dropReply b.ptyConn).goto t (.sendingInit b) := by
  by_cases ht : a.thread = some t
  · cases step_spec h with
    | @move _ u p ha hmoves =>
        obtain rfl : u = t := Option.some.inj (ha.symm.trans ht)
        rw [State.goto_point] at hpoint'
        subst hpoint'
        generalize s.point u = q at hmoves
        cases hmoves
    | @panic _ u e ha hpanics =>
        obtain rfl : u = t := Option.some.inj (ha.symm.trans ht)
        simp at hpoint'
    | @send u i m p hsends =>
        obtain rfl : u = t := Option.some.inj ht
        rw [State.send_point] at hpoint'
        subst hpoint'
        generalize s.point u = q at hsends
        cases hsends
    | @accept u b' hpoint =>
        obtain rfl : u = t := Option.some.inj ht
        rw [State.goto_point] at hpoint'
        cases hpoint'
        simp only [step, State.receivedReply, hpoint] at h
        obtain ⟨pkt, hpkt, h⟩ := Option.map_eq_some_iff.1 h
        obtain ⟨conn, hconn, hreply⟩ := Option.bind_eq_some_iff.1 hpkt
        cases haccept : acceptPty setup pkt with
        | ok u => exact .inr ⟨conn, pkt, hpoint, hconn, hreply, haccept, rfl⟩
        | error e =>
            simp only [haccept] at h
            have hpanicked := congrArg (fun s => s.point u) h
            simp at hpanicked
    | pty hconn hserve => cases ht
    | _ =>
        obtain rfl := Option.some.inj ht
        simp at hpoint'
  · rw [((step_spec h).frame hinv ht).point] at hpoint'
    exact .inl hpoint'

omit [DecidableEq ι] in
theorem ReplyTaken.dropReply (h : ReplyTaken setup conn.service) :
    ReplyTaken setup conn.dropReply.service := by
  obtain ⟨haccepted, hgreeted, hreplied, houtgoing⟩ := h
  refine ⟨haccepted, hgreeted, hreplied, ?_⟩
  change conn.service.conn.outgoing.tail = []
  rw [houtgoing]
  rfl

/-- A reply that was taken stays taken. -/
theorem PtyConn.Next.replyTaken {create : CreateShellSession F} {ptyMaster : F}
    (h : conn.Next setup s s' k conn') (hrelays : conn.Relays setup create ptyMaster)
    (htaken : ReplyTaken setup conn.service) : ReplyTaken setup conn'.service := by
  cases h with
  | kept => exact htaken
  | closed howner he hs' => exact htaken
  | pushed howner hsends hs' => exact ⟨htaken.toGreeted, htaken.greeted, htaken.replied, htaken.outgoing⟩
  | accepted howner hpoint hk hreply haccept hs' => exact htaken.dropReply
  | refused howner hs' => exact htaken.dropReply
  | served hserve hs' => exact htaken.step hrelays (PtyConn.step_spec hserve)

omit [DecidableEq ι] in
theorem ExitCause.close {create : CreateShellSession F} {e : Pty.Exit}
    (h : ExitCause setup create conn e) : ExitCause setup create conn.close e := by
  rcases h with hfailure | hclosed | hrefused | hsocket
  · exact .inl hfailure
  · exact .inr (.inl rfl)
  · exact .inr (.inr (.inl hrefused))
  · exact .inr (.inr (.inr hsocket))

theorem PtyConn.Next.exits {create : CreateShellSession F} {ptyMaster : F} {e : Pty.Exit}
    (h : conn.Next setup s s' k conn') (hrelays : conn.Relays setup create ptyMaster)
    (hold : conn.service.point = .exited e → ExitCause setup create conn e)
    (hexit : conn'.service.point = .exited e) : ExitCause setup create conn' e := by
  cases h with
  | kept => exact hold hexit
  | closed howner he hs' => exact (hold hexit).close
  | pushed howner hsends hs' => exact hold hexit
  | accepted howner hpoint hk hreply haccept hs' => exact hold hexit
  | refused howner hs' =>
      have hdropped : ExitCause setup create conn.dropReply e := hold hexit
      exact hdropped.close
  | served hserve hs' =>
      rcases hrelays.exits hserve hexit with hwas | hcause
      · have hsame := (PtyConn.step_spec hserve).closed_eq
        unfold ExitCause
        rw [hsame]
        exact hold hwas
      · exact hcause

theorem PtyConn.Next.serves {create : CreateShellSession F} {ptyMaster : F}
    (h : conn.Next setup s s' k conn') (hrelays : conn.Relays setup create ptyMaster)
    (hserves : conn.Serves setup create ptyMaster) : conn'.Serves setup create ptyMaster := by
  cases h with
  | served hserve hs' => exact hserves.step hrelays (PtyConn.step_spec hserve)
  | _ => exact hserves

theorem step_replies (hinv : Inv setup s) (hall : Relaying setup s s.conns)
    (h : step setup s a = some s') (hs : Replies setup s) : Replies setup s' where
  pending t b hpoint' conn' hconn' := by
    rcases step_conn hinv h hconn' with ⟨u, r, ptyMaster, -, -, -, rfl⟩ | ⟨conn, hconn, hnext⟩
    · rfl
    · obtain ⟨create, ptyMaster, -, hrelays⟩ := hall _ conn hconn
      rcases step_pending hinv (step_spec h) hpoint' with hpoint | hlength
      · have hpending := hs.pending t b hpoint conn hconn
        have hmine : conn.owner = (t, s.serial t) := by
          apply hinv.conn_owner _ hconn
          rcases hpoint with hpoint | hpoint
          · rw [hpoint]
            rfl
          · rw [hpoint]
            rfl
        cases hnext with
        | kept => exact hpending
        | closed howner he hs' => exact hpending
        | pushed howner hsends hs' => exact hpending
        | @accepted u b' pkt howner hwaiting hk hreply haccept hs' =>
            obtain rfl : u = t := congrArg Prod.fst (howner.symm.trans hmine)
            simp [hs'] at hpoint'
        | @refused u e howner hs' =>
            obtain rfl : u = t := congrArg Prod.fst (howner.symm.trans hmine)
            simp [hs'] at hpoint'
        | served hserve hs' => exact hpending.step hrelays (PtyConn.step_spec hserve)
      · rw [hlength, List.getElem?_eq_none le_rfl] at hconn
        cases hconn
  taken t b hpoint' conn' hconn' := by
    rcases step_taken hinv h hpoint' with
      hpoint | ⟨conn, pkt, hpoint, hconn, hreply, haccept, rfl⟩
    · rcases step_conn hinv h hconn' with ⟨u, r, ptyMaster, -, -, hlength, -⟩ | ⟨conn, hconn, hnext⟩
      · obtain ⟨-, -, mine, hmine, -⟩ := hinv.knows_at hpoint
        rw [hlength, List.getElem?_eq_none le_rfl] at hmine
        cases hmine
      · obtain ⟨create, ptyMaster, -, hrelays⟩ := hall _ conn hconn
        exact hnext.replyTaken hrelays (hs.taken t b hpoint conn hconn)
    · have hpending := hs.pending t b (.inr hpoint) conn hconn
      obtain ⟨mine, hmine, rfl⟩ := getElem?_modify_eq_some.1 hconn'
      rw [hconn] at hmine
      obtain rfl := Option.some.inj hmine
      rw [if_pos rfl]
      exact hpending.taken hreply haccept
  announced k conn' hconn' htwo := by
    rcases step_conn hinv h hconn' with ⟨u, r, ptyMaster, -, -, -, rfl⟩ | ⟨conn, hconn, hnext⟩
    · simp [PtyConn.connected] at htwo
    · obtain ⟨create, ptyMaster, -, hrelays⟩ := hall _ conn hconn
      have hold (htaken : ReplyTaken setup conn.service) : ReplyTaken setup conn'.service :=
        hnext.replyTaken hrelays htaken
      cases hnext with
      | @pushed u m p howner hsends hs' =>
          generalize hpoint : s.point u = q at hsends
          cases hsends with
          | hello b =>
              have hsent := ((hinv.knows_at hpoint).2.2.owner_eq hconn).2
              simp [PtyConn.push, hsent] at htwo
          | init b => exact hold (hs.taken u b hpoint conn hconn)
          | newClient create k =>
              obtain ⟨pty, -, hlinked⟩ := hinv.knows_at hpoint
              have hsent := (hlinked.owner_eq hconn).2
              exact hold (hs.announced k conn hconn (by simp [hsent, script]))
      | served hserve hs' =>
          rw [(PtyConn.step_spec hserve).kept.2] at htwo
          exact hold (hs.announced k conn hconn htwo)
      | _ => exact hold (hs.announced k _ hconn htwo)
  exits k conn' hconn' create ptyMaster e hstarted' hexit := by
    rcases step_conn hinv h hconn' with ⟨u, r, pty, -, -, -, rfl⟩ | ⟨conn, hconn, hnext⟩
    · cases hexit
    · obtain ⟨create₀, pty, hstarted, hrelays⟩ := hall _ conn hconn
      rw [hnext.owner_eq] at hstarted'
      obtain ⟨rfl, rfl⟩ := Started.unique (hinv.started_step (step_spec h) hconn hstarted) hstarted'
      exact hnext.exits hrelays (hs.exits k conn hconn create₀ pty e hstarted) hexit
  serves k conn' hconn' create ptyMaster hstarted' := by
    rcases step_conn hinv h hconn' with ⟨u, r, pty, -, -, -, rfl⟩ | ⟨conn, hconn, hnext⟩
    · rfl
    · obtain ⟨create₀, pty, hstarted, hrelays⟩ := hall _ conn hconn
      rw [hnext.owner_eq] at hstarted'
      obtain ⟨rfl, rfl⟩ := Started.unique (hinv.started_step (step_spec h) hconn hstarted) hstarted'
      exact hnext.serves hrelays (hs.serves k conn hconn create₀ pty hstarted)

omit [DecidableEq ι] in
theorem start_replies : Replies setup (start : State ι F) where
  pending t b hpoint := by simp [start] at hpoint
  taken t b hpoint := by simp [start] at hpoint
  announced k conn hconn := by simp [start] at hconn
  exits k conn hconn := by simp [start] at hconn
  serves k conn hconn := by simp [start] at hconn

/-! ## Runs -/

structure Replying (setup : Setup F) (s : State ι F) : Prop where
  completes : Completes setup s
  relaying : Relaying setup s s.conns
  replies : Replies setup s

theorem step_replying (h : step setup s a = some s') (hs : Replying setup s) :
    Replying setup s' where
  completes := step_completes h hs.completes
  relaying := step_relaying hs.completes.good.inv (step_spec h) hs.relaying
  replies := step_replies hs.completes.good.inv hs.relaying h hs.replies

theorem run_replying {actions : List (Action ι F)} (h : run (step setup) actions start = some s) :
    Replying setup s := by
  have hcompletes : Completes setup (start : State ι F) := run_completes (run_nil _)
  have hrelaying : Relaying setup (start : State ι F) (start : State ι F).conns :=
    run_relaying (run_nil _)
  exact run_invariant (fun _ _ _ => step_replying) h ⟨hcompletes, hrelaying, start_replies⟩

omit [DecidableEq ι] in
theorem Replying.stored (hs : Replying setup s) {ptyMaster : F}
    (h : StoredEntry s id ptyMaster k) :
    ∃ create conn, Started s id create ptyMaster ∧ s.conns[k]? = some conn ∧ conn.owner = id ∧
      conn.closed = false ∧ 2 ≤ conn.sent.length := by
  have hinv := hs.completes.good.inv
  have hall := hs.completes.allStored id ptyMaster k h
  obtain ⟨n, hn, create, pty, i, hstarted, hstored, conn, hconn, howner, hsent⟩ :
      ∃ n, 2 ≤ n ∧ Stored setup s id n := by
    rcases hall with htwo | hthree
    · exact ⟨2, le_rfl, htwo⟩
    · exact ⟨3, by omega, hthree⟩
  obtain ⟨rfl, rfl⟩ : ptyMaster = pty ∧ k = i := by
    obtain ⟨j, entry, hentry, hentryOwner, hready⟩ := h
    obtain ⟨j', entry', hentry', hentryOwner', hready'⟩ := hstored
    have hjj : j = j' := hinv.entry_of_owner hentry hentry' (hentryOwner.trans hentryOwner'.symm)
    subst hjj
    rw [hentry] at hentry'
    obtain rfl := Option.some.inj hentry'
    rw [hready] at hready'
    cases hready'
    exact ⟨rfl, rfl⟩
  refine ⟨create, conn, hstarted, hconn, howner, ?_, ?_⟩
  · exact hs.completes.closedFailed.open_of_stored hinv hconn (howner.symm ▸ h)
  · rw [hsent, List.length_take]
    simp only [script, List.length_cons, List.length_nil]
    omega

/-- In every reachable state the connection of a stored session is open, and the
instance at its other end has accepted the handshake of the sessions service and is past
its reply.  If the instance has exited, one of its system calls has failed, or the file
that the client came with is no `SOCK_SEQPACKET` socket. -/
theorem stored_session_kept (setup : Setup F) (actions : List (Action ι F)) (s : State ι F)
    (h : run (step setup) actions start = some s) (j k : Nat) (entry : Entry ι F) (ptyMaster : F)
    (hentry : s.entries[j]? = some entry) (hready : entry.session.value = .ready ptyMaster k) :
    ∃ create conn, s.requested entry.owner = some create ∧
      s.conns[k]? = some conn ∧ conn.owner = entry.owner ∧ conn.closed = false ∧
      ReplyTaken setup conn.service ∧
      ∀ exit, conn.service.point = .exited exit →
        (∃ e point, failure (F := F) e point = some exit) ∨
          exit = .panicked .notSeqPacket ∧ setup.isSeqPacket create.fd = false := by
  have hs := run_replying h
  obtain ⟨create, conn, hstarted, hconn, howner, hopen, htwo⟩ :=
    hs.stored ⟨j, entry, hentry, rfl, hready⟩
  have htaken := hs.replies.announced k conn hconn htwo
  refine ⟨create, conn, hstarted.1, hconn, howner, hopen, htaken, ?_⟩
  intro exit hexit
  rcases hs.replies.exits k conn hconn create ptyMaster exit (howner.symm ▸ hstarted) hexit with
    hfailure | hclosed | hrefused | hsocket
  · exact .inl hfailure
  · rw [hopen] at hclosed
    cases hclosed
  · exact absurd htaken.accepted hrefused
  · exact .inr hsocket

end Steps

theorem stored_session_kept_test : ∃ (s : State Unit Nat) (entry : Entry Unit Nat)
    (conn : PtyConn Unit Nat),
    run (step testSetup) ((testReserving ++ testConnecting) ++ [.store ()]) start = some s ∧
      s.entries[0]? = some entry ∧ entry.session.value = .ready 5 0 ∧
        s.conns[0]? = some conn ∧ conn.closed = false ∧
          .handshakeAccepted ∈ conn.service.events := by
  obtain ⟨s, s', s'', -, entry, -, hrun, hstep, -, -, -, hentry, hready, -⟩ := testRun
  have hlast : run (step testSetup) [.store ()] s = some s' :=
    run_cons_eq_some.2 ⟨s', hstep, rfl⟩
  have hstored := run_append_eq_some.2 ⟨s, hrun, hlast⟩
  obtain ⟨create, conn, -, hconn, -, hopen, htaken, -⟩ :=
    stored_session_kept testSetup _ s' hstored 0 0 entry 5 hentry hready
  exact ⟨s', entry, conn, hstored, hentry, hready, hconn, hopen, htaken.logged⟩

end TereServer.Services.Sessions
