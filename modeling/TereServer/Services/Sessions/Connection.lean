import TereServer.Services.Sessions

/-!
# The pty service at the other end of a connection

What a step of an instance of the pty service does to its connection: it
receives a packet, replies to the handshake, does I/O on its PTY or exits.
-/

namespace TereServer.Services.Sessions

open Lib Bincode Ipc

variable {ι F : Type} {setup : Setup F} {conn conn' : PtyConn ι F} {kind : Kind} {pkt : Packet F}

/-- What the receive of an instance makes of a packet. -/
def received (setup : Setup F) (point : Pty.Point F) (pkt : Packet F) :
    Pty.Point F × List (Pty.Event F) :=
  point.received setup.deriveKey setup.isSeqPacket setup.ptyIdentity pkt

def ptyReply (setup : Setup F) : Packet F := (Pty.endpoint setup.ptyIdentity).reply setup.deriveKey

/-- The instance takes `pkt`, with `rest` behind it. -/
def PtyConn.receive (setup : Setup F) (kind : Kind) (pkt : Packet F) (rest : List (Packet F))
    (conn : PtyConn ι F) : PtyConn ι F :=
  { conn with
    reads := conn.reads ++ [(kind, pkt)]
    service := ⟨(received setup conn.service.point pkt).1, ⟨rest, conn.service.conn.outgoing⟩,
      conn.service.events ++ (received setup conn.service.point pkt).2⟩ }

inductive PtyConn.Step (setup : Setup F) (conn : PtyConn ι F) : PtyConn ι F → Prop
  | receive {kind : Kind} {pkt : Packet F} {rest : List (Packet F)}
      (hkind : receives conn.service.point = some kind)
      (hincoming : conn.service.conn.incoming = pkt :: rest) :
      PtyConn.Step setup conn (conn.receive setup kind pkt rest)
  | reply (hpoint : conn.service.point = .replying) :
      PtyConn.Step setup conn (conn.withService { conn.service with
        point := .awaitingInit
        conn := conn.service.conn.push (ptyReply setup) })
  | ptyIo {user : F × F} (huser : user ∈ Pty.users conn.service.events) :
      PtyConn.Step setup conn (conn.withService { conn.service with
        events := conn.service.events ++ [.ptyIo user.1] })
  | exit (e : Pty.Exit) :
      PtyConn.Step setup conn (conn.withService { conn.service with point := .exited e })

theorem received_closed (setup : Setup F) (hkind : receives conn.service.point = some kind) :
    ∃ e, received setup conn.service.point .closed = (.exited e, []) := by
  unfold received Pty.Point.received
  cases hpoint : conn.service.point with
  | handshaking => exact ⟨.returned (.handshake (.receive .endOfStream)), by simp [Handshake.accept]⟩
  | awaitingInit => exact ⟨.returned (.receive .endOfStream), by simp⟩
  | serving pty => exact ⟨.returned (.receive .endOfStream), by simp⟩
  | _ =>
      rw [hpoint] at hkind
      cases hkind

/-- The step of an instance that is in a receive. -/
theorem step_receives (hkind : receives conn.service.point = some kind) :
    Pty.step setup.deriveKey setup.isSeqPacket setup.ptyIdentity conn.service .serve =
      some (conn.service.receive setup.deriveKey setup.isSeqPacket setup.ptyIdentity) := by
  unfold Pty.step
  cases hpoint : conn.service.point with
  | exited e =>
      rw [hpoint] at hkind
      cases hkind
  | replying =>
      rw [hpoint] at hkind
      cases hkind
  | _ => rfl

theorem PtyConn.step_receive {rest : List (Packet F)}
    (hkind : receives conn.service.point = some kind)
    (hincoming : conn.service.conn.incoming = pkt :: rest) :
    conn.step setup (.run .serve) = some (conn.receive setup kind pkt rest) := by
  have hnotBlocked : conn.blocked = false := by simp [PtyConn.blocked, hincoming]
  have hread : conn.nextRead = [(kind, pkt)] := by simp [PtyConn.nextRead, hkind, hincoming]
  have hnext : conn.service.conn.next = (pkt, ⟨rest, conn.service.conn.outgoing⟩) := by
    simp [Conn.next, hincoming]
  simp only [PtyConn.step, hnotBlocked, step_receives hkind, hread, Option.map_some,
    Pty.Service.receive, hnext]
  rfl

theorem PtyConn.serve_spec (h : conn.step setup (.run .serve) = some conn') :
    PtyConn.Step setup conn conn' := by
  cases hkind : receives conn.service.point with
  | some kind =>
      cases hincoming : conn.service.conn.incoming with
      | cons pkt rest =>
          rw [PtyConn.step_receive hkind hincoming] at h
          cases h
          exact .receive hkind hincoming
      | nil =>
          obtain ⟨e, he⟩ := received_closed setup hkind
          have hnext : conn.service.conn.next = (.closed, conn.service.conn) := by
            simp [Conn.next, hincoming]
          simp only [PtyConn.step] at h
          split at h
          · cases h
          · rw [step_receives hkind] at h
            unfold received at he
            simp only [PtyConn.nextRead, hkind, hincoming, Pty.Service.receive, hnext, he,
              List.append_nil, Option.map_some] at h
            cases h
            exact .exit e
  | none =>
      simp only [PtyConn.step, PtyConn.blocked, PtyConn.nextRead, hkind, Option.isSome_none,
        Bool.false_and, Bool.false_eq_true, if_false, List.append_nil] at h
      obtain ⟨service, hservice, rfl⟩ := Option.map_eq_some_iff.1 h
      rcases Pty.step_spec hservice with ⟨hpoint, rfl⟩ | ⟨hreplying, hexited, -⟩ | ⟨user, huser, rfl⟩
      · exact .reply hpoint
      · cases hpoint : conn.service.point with
        | replying => exact absurd hpoint hreplying
        | exited e => exact absurd hpoint (hexited e)
        | _ =>
            rw [hpoint] at hkind
            cases hkind
      · exact .ptyIo huser

theorem PtyConn.step_spec {a : PtyAction} (h : conn.step setup a = some conn') :
    PtyConn.Step setup conn conn' := by
  cases a with
  | run a =>
      cases a with
      | serve => exact PtyConn.serve_spec h
      | ptyIo n =>
          obtain ⟨service, hservice, rfl⟩ := Option.map_eq_some_iff.1 h
          obtain ⟨user, huser, rfl⟩ := Option.map_eq_some_iff.1 hservice
          exact .ptyIo (List.mem_of_getElem? huser)
  | fail e =>
      obtain ⟨exit, -, rfl⟩ := Option.map_eq_some_iff.1 h
      exact .exit exit

theorem PtyConn.Step.kept (h : PtyConn.Step setup conn conn') :
    conn'.owner = conn.owner ∧ conn'.sent = conn.sent := by
  cases h <;> exact ⟨rfl, rfl⟩

end TereServer.Services.Sessions
