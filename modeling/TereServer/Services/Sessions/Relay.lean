import TereServer.Services.Sessions.Integrity

/-!
# Sessions are never crossed

Each connection to the pty service carries the messages of one request, the
instance at its other end decodes each of them at the type it was sent at, and
so the client of a request is only served on the PTY of this request.
-/

namespace TereServer.Services.Sessions

open Lib Bincode Ipc Proto.Sessions

/-! ## One connection -/

section Connection

variable {ι F : Type}

def Sent.read (m : Sent F) : Kind × Packet F := (m.kind, m.packet)

/-- How many packets an instance has received at a point, and the PTY it serves. -/
def Reached (ptyMaster : F) (n : Nat) : Pty.Point F → Prop
  | .handshaking => n = 0
  | .replying => n = 1
  | .awaitingInit => n = 1
  | .serving pty => 2 ≤ n ∧ pty = ptyMaster
  | .exited _ => True

/-- A connection for the request `create`, whose PTY is `ptyMaster`. -/
structure PtyConn.Relays (setup : Setup F) (create : CreateShellSession F) (ptyMaster : F)
    (conn : PtyConn ι F) : Prop where
  sent : conn.sent <+: script setup create ptyMaster
  reads : conn.reads <+: conn.sent.map Sent.read
  incoming : conn.service.conn.incoming = (conn.sent.drop conn.reads.length).map Sent.packet
  point : Reached ptyMaster conn.reads.length conn.service.point
  users : ∀ user ∈ Pty.users conn.service.events, user = (ptyMaster, create.fd)

variable {setup : Setup F} {create : CreateShellSession F} {ptyMaster : F}
  {conn conn' : PtyConn ι F} {m : Sent F} {kind : Kind} {point : Pty.Point F} {n : Nat}

/-- What an instance makes of the next message of the script. -/
theorem received_script (hm : (script setup create ptyMaster)[n]? = some m)
    (hpoint : Reached ptyMaster n point) (hkind : receives point = some kind) :
    kind = m.kind ∧ Reached ptyMaster (n + 1) (received setup point m.packet).1 ∧
      ∀ user ∈ Pty.users (received setup point m.packet).2, user = (ptyMaster, create.fd) := by
  unfold received Pty.Point.received
  cases point with
  | handshaking =>
      obtain rfl : n = 0 := hpoint
      obtain rfl := Option.some.inj hm
      refine ⟨(Option.some.inj hkind).symm, ?_⟩
      dsimp only
      split
      · exact ⟨trivial, by simp [Pty.users]⟩
      · exact ⟨rfl, by simp [Pty.users]⟩
  | awaitingInit =>
      obtain rfl : n = 1 := hpoint
      obtain rfl := Option.some.inj hm
      refine ⟨(Option.some.inj hkind).symm, ?_⟩
      dsimp only [Sent.packet]
      split
      · exact ⟨trivial, by simp [Pty.users]⟩
      · rename_i msg hreceive
        obtain ⟨-, -, rfl⟩ := Packet.receiveAs_of_eq_ok.1 hreceive
        exact ⟨⟨le_rfl, rfl⟩, by simp [Pty.users]⟩
  | serving pty =>
      obtain ⟨hn, rfl⟩ := hpoint
      obtain ⟨hlt, -⟩ := List.getElem?_eq_some_iff.1 hm
      obtain rfl : n = 2 := Nat.le_antisymm (Nat.le_of_lt_succ hlt) hn
      obtain rfl := Option.some.inj hm
      refine ⟨(Option.some.inj hkind).symm, ?_⟩
      dsimp only [Sent.packet]
      split
      · exact ⟨trivial, by simp [Pty.users]⟩
      · rename_i dummy fd hreceive
        obtain ⟨-, -, hmsg⟩ := Packet.receiveAs_of_eq_ok.1 hreceive
        cases hmsg
        unfold Pty.tryFrom
        split
        · rename_i e htry
          exact ⟨trivial, by simp [Pty.users]⟩
        · rename_i client htry
          split at htry
          · cases htry
            exact ⟨⟨by omega, rfl⟩, by simp [Pty.users]⟩
          · cases htry
  | _ => cases hkind

theorem PtyConn.Relays.receive (h : conn.Relays setup create ptyMaster)
    (hkind : receives conn.service.point = some kind) {pkt : Packet F} {rest : List (Packet F)}
    (hincoming : conn.service.conn.incoming = pkt :: rest) :
    (conn.receive setup kind pkt rest).Relays setup create ptyMaster := by
  rw [h.incoming] at hincoming
  obtain ⟨m, tail, hdrop, rfl, rfl⟩ := List.map_eq_cons_iff.1 hincoming
  have hsent : conn.sent[conn.reads.length]? = some m := by
    rw [← List.head?_drop, hdrop]
    rfl
  have htail : conn.sent.drop (conn.reads.length + 1) = tail := by
    rw [← List.tail_drop, hdrop]
    rfl
  have hscript : (script setup create ptyMaster)[conn.reads.length]? = some m := by
    obtain ⟨others, hothers⟩ := h.sent
    rw [← hothers]
    exact getElem?_append_of_some hsent
  obtain ⟨rfl, hpoint, husers⟩ := received_script hscript h.point hkind
  have hlength : (conn.receive setup m.kind m.packet (tail.map Sent.packet)).reads.length =
      conn.reads.length + 1 := by
    simp [PtyConn.receive]
  refine ⟨h.sent, ?_, ?_, ?_, ?_⟩
  · obtain ⟨others, hothers⟩ := h.reads
    have hothers' : (conn.sent.map Sent.read).drop conn.reads.length = others := by
      rw [← hothers, List.drop_left]
    rw [← List.map_drop, hdrop] at hothers'
    refine ⟨tail.map Sent.read, ?_⟩
    change conn.reads ++ [m.read] ++ tail.map Sent.read = conn.sent.map Sent.read
    rw [← hothers, ← hothers']
    simp
  · rw [hlength]
    exact congrArg (List.map Sent.packet) htail.symm
  · rw [hlength]
    exact hpoint
  · intro user huser
    simp only [PtyConn.receive, Pty.users_append] at huser
    rcases List.mem_append.1 huser with hold | hnew
    · exact h.users user hold
    · exact husers user hnew

theorem PtyConn.Relays.step (h : conn.Relays setup create ptyMaster) (hstep : conn.Step setup conn') :
    conn'.Relays setup create ptyMaster := by
  cases hstep with
  | receive hkind hincoming => exact h.receive hkind hincoming
  | reply hpoint =>
      have hreached := h.point
      rw [hpoint] at hreached
      exact ⟨h.sent, h.reads, h.incoming, hreached, h.users⟩
  | @ptyIo user huser =>
      refine ⟨h.sent, h.reads, h.incoming, h.point, fun other hother => h.users other ?_⟩
      simpa [PtyConn.withService, Pty.users_append, Pty.users] using hother
  | exit e => exact ⟨h.sent, h.reads, h.incoming, trivial, h.users⟩

theorem PtyConn.Relays.push (h : conn.Relays setup create ptyMaster)
    (hm : conn.sent ++ [m] <+: script setup create ptyMaster) :
    (conn.push m).Relays setup create ptyMaster where
  sent := hm
  reads := by
    have hmap : (conn.push m).sent.map Sent.read = conn.sent.map Sent.read ++ [m.read] :=
      List.map_append
    rw [hmap]
    exact h.reads.trans (List.prefix_append _ _)
  incoming := by
    have hle : conn.reads.length ≤ conn.sent.length := by
      simpa using h.reads.length_le
    have hdrop : (conn.push m).sent.drop conn.reads.length =
        conn.sent.drop conn.reads.length ++ [m] := List.drop_append_of_le_length hle
    have hincoming : (conn.push m).service.conn.incoming =
        conn.service.conn.incoming ++ [m.packet] := rfl
    rw [hincoming, h.incoming]
    change _ = ((conn.push m).sent.drop conn.reads.length).map Sent.packet
    rw [hdrop, List.map_append]
    rfl
  point := h.point
  users := h.users

theorem relays_connected {owner : RequestId ι} :
    (PtyConn.connected owner).Relays setup create ptyMaster where
  sent := List.nil_prefix
  reads := List.nil_prefix
  incoming := rfl
  point := rfl
  users user huser := by cases huser

theorem PtyConn.Relays.close (h : conn.Relays setup create ptyMaster) :
    conn.close.Relays setup create ptyMaster := ⟨h.sent, h.reads, h.incoming, h.point, h.users⟩

theorem PtyConn.Relays.dropReply (h : conn.Relays setup create ptyMaster) :
    conn.dropReply.Relays setup create ptyMaster := ⟨h.sent, h.reads, h.incoming, h.point, h.users⟩

end Connection

/-! ## All connections -/

section Steps

variable {ι F : Type} {setup : Setup F} {s s' : State ι F} {conns : List (PtyConn ι F)}

/-- Each of the connections relays the messages of its request. -/
def Relaying (setup : Setup F) (s : State ι F) (conns : List (PtyConn ι F)) : Prop :=
  ∀ (k : Nat) (conn : PtyConn ι F), conns[k]? = some conn →
    ∃ create ptyMaster, Started s conn.owner create ptyMaster ∧ conn.Relays setup create ptyMaster

theorem Relaying.modify (h : Relaying setup s conns) {k : Nat} {f : PtyConn ι F → PtyConn ι F}
    (hf : ∀ conn create ptyMaster, conns[k]? = some conn → Started s conn.owner create ptyMaster →
      conn.Relays setup create ptyMaster →
        (f conn).owner = conn.owner ∧ (f conn).Relays setup create ptyMaster) :
    Relaying setup s (conns.modify k f) := by
  intro i conn' hconn'
  obtain ⟨conn, hconn, rfl⟩ := getElem?_modify_eq_some.1 hconn'
  obtain ⟨create, ptyMaster, hstarted, hrelays⟩ := h i conn hconn
  refine ⟨create, ptyMaster, ?_⟩
  split
  · rename_i hk
    obtain ⟨howner, hrelays'⟩ := hf conn create ptyMaster (hk ▸ hconn) hstarted hrelays
    exact ⟨howner ▸ hstarted, hrelays'⟩
  · exact ⟨hstarted, hrelays⟩

theorem Relaying.dropReply (h : Relaying setup s conns) (k : Nat) :
    Relaying setup s (conns.modify k .dropReply) :=
  h.modify fun _ _ _ _ _ hrelays => ⟨rfl, hrelays.dropReply⟩

variable [DecidableEq ι] {a : Action ι F} {t : ι}

theorem Relaying.panic {before : State ι F} {e : Panic} (h : Relaying setup s before.conns) :
    Relaying setup s (before.panic t e).conns := by
  unfold State.panic
  dsimp only
  split
  · exact h.modify fun _ _ _ _ _ hrelays => ⟨rfl, hrelays.close⟩
  · exact h

/-- The request of a connection is past the points at which it is recorded. -/
theorem Relaying.step (hinv : Inv setup s) (h : Step setup s a s')
    (hall : Relaying setup s s.conns) : Relaying setup s' s.conns := by
  intro k conn hconn
  obtain ⟨create, ptyMaster, hstarted, hrelays⟩ := hall k conn hconn
  have hlt := hinv.owners_lt conn.owner (List.mem_map_of_mem (List.mem_of_getElem? hconn))
  refine ⟨create, ptyMaster, h.started (fun t hpoint hnew => ?_) (fun t r hpoint hown => ?_) hstarted,
    hrelays⟩
  · simp [hnew, State.next, hpoint, Point.unconnected, Point.unreserved] at hlt
  · simp [hown, State.next, hpoint, Point.unconnected] at hlt

omit [DecidableEq ι] in
/-- The message that a thread sends is the next one of its request. -/
theorem Sends.script {p p' : Point F} {k : Nat} {m : Sent F} {id : RequestId ι}
    (h : Sends setup p k m p') (hknows : p.Knows setup s id) :
    ∃ create ptyMaster sent, Started s id create ptyMaster ∧ Linked s id k sent ∧
      sent ++ [m] <+: script setup create ptyMaster := by
  cases h with
  | hello b => exact ⟨b.create, b.ptyMaster, _, hknows.2.1, hknows.2.2, by simp [Sessions.script]⟩
  | init b => exact ⟨b.create, b.ptyMaster, _, hknows.2.1, hknows.2.2, by simp [Sessions.script]⟩
  | newClient create k =>
      obtain ⟨ptyMaster, hstarted, hlinked⟩ := hknows
      exact ⟨create, ptyMaster, _, hstarted, hlinked, by simp [Sessions.script]⟩

omit [DecidableEq ι] in
theorem Started.unique {id : RequestId ι} {create create' : CreateShellSession F}
    {ptyMaster ptyMaster' : F} (h : Started s id create ptyMaster)
    (h' : Started s id create' ptyMaster') : create = create' ∧ ptyMaster = ptyMaster' := by
  have hcreate := h.1.symm.trans h'.1
  have hshell := h.2.symm.trans h'.2
  exact ⟨Option.some.inj hcreate, congrArg Prod.snd (Option.some.inj hshell)⟩

theorem step_relaying (hinv : Inv setup s) (h : Step setup s a s')
    (hall : Relaying setup s s.conns) : Relaying setup s' s'.conns := by
  have hold := hall.step hinv h
  cases h with
  | panic ha h => exact hold.panic
  | @connect t r ptyMaster hpoint =>
      intro k conn hconn
      rcases getElem?_snoc_eq_some hconn with hconn | ⟨rfl, rfl⟩
      · exact hold k conn hconn
      · exact ⟨r.create, ptyMaster, (hinv.knows_at hpoint).2, relays_connected⟩
  | @send t k m p h =>
      obtain ⟨create, ptyMaster, sent, hstarted, ⟨mine, hmine, howner, rfl⟩, hpre⟩ :=
        h.script (hinv.knows t)
      refine hold.modify fun conn create' ptyMaster' hconn hstarted' hrelays => ⟨rfl, ?_⟩
      obtain rfl := Option.some.inj (hconn.symm.trans hmine)
      rw [howner] at hstarted'
      obtain ⟨rfl, rfl⟩ := Started.unique hstarted hstarted'
      exact hrelays.push hpre
  | accept hpoint => exact hold.dropReply _
  | refuse hpoint => exact (hold.dropReply _).panic
  | @stolen t b entry hpoint hentry hvalue =>
      have hsame : Relaying setup _ (s.setSession b.sessionEntry entry.session.poison).conns := hold
      exact hsame.panic
  | pty hconn h =>
      refine hold.modify fun conn create ptyMaster hconn' _ hrelays => ?_
      obtain rfl := Option.some.inj (hconn.symm.trans hconn')
      exact ⟨h.kept.1, hrelays.step h⟩
  | _ => exact hold

theorem run_relaying {actions : List (Action ι F)} (h : run (step setup) actions start = some s) :
    Relaying setup s s.conns := by
  have hstart : Relaying setup (start : State ι F) (start : State ι F).conns :=
    fun k conn hconn => by simp [start] at hconn
  have hboth : Inv setup s ∧ Relaying setup s s.conns :=
    run_invariant (I := fun s => Inv setup s ∧ Relaying setup s s.conns)
      (fun _ _ _ hstep hs => ⟨step_inv hs.1 (step_spec hstep),
        step_relaying hs.1 (step_spec hstep) hs.2⟩) h ⟨start_inv, hstart⟩
  exact hboth.2

/-- In every reachable state a request has at most one connection to the pty
service.  What was sent on it is a beginning of the messages of this request, with
the PTY that `create_shell` returned for it and the fd it came with; the instance
has received a beginning of what was sent, each packet at the type it was sent at,
and has started clients for this fd on this PTY only. -/
theorem sessions_not_crossed (setup : Setup F) (actions : List (Action ι F)) (s : State ι F)
    (h : run (step setup) actions start = some s) :
    s.owners.Nodup ∧ ∀ (k : Nat) (conn : PtyConn ι F), s.conns[k]? = some conn →
      ∃ create ptyMaster, s.requested conn.owner = some create ∧
        s.shells conn.owner = some (shellSpec create, ptyMaster) ∧
        conn.sent <+: [.handshake (hello setup), .init ⟨0, ptyMaster⟩,
          .request (.newClient 0 create.fd)] ∧
        conn.reads <+: conn.sent.map (fun m => (m.kind, m.packet)) ∧
        (∀ pty, conn.service.point = .serving pty → pty = ptyMaster) ∧
        ∀ user ∈ Pty.users conn.service.events, user = (ptyMaster, create.fd) := by
  refine ⟨(run_inv h).owners_nodup, fun k conn hconn => ?_⟩
  obtain ⟨create, ptyMaster, hstarted, hrelays⟩ := run_relaying h k conn hconn
  refine ⟨create, ptyMaster, hstarted.1, hstarted.2, hrelays.sent, hrelays.reads, ?_, hrelays.users⟩
  intro pty hpoint
  have hreached := hrelays.point
  rw [hpoint] at hreached
  exact hreached.2

end Steps

theorem sessions_not_crossed_test : ∃ (s : State Unit Nat) (conn : PtyConn Unit Nat),
    run (step testSetup) ((testReserving ++ testConnecting) ++ (.store () :: testServing)) start =
      some s ∧ s.conns[0]? = some conn ∧ Pty.users conn.service.events = [(5, 7)] ∧
        ∃ create, s.requested conn.owner = some create ∧
          s.shells conn.owner = some (shellSpec create, 5) ∧ create.fd = 7 := by
  obtain ⟨s, s', s'', -, -, conn, hrun, hstep, hserving, -, -, -, -, hconn, husers⟩ := testRun
  have hall := run_append_eq_some.2 ⟨s, hrun, run_cons_eq_some.2 ⟨s', hstep, hserving⟩⟩
  obtain ⟨create, ptyMaster, hrequested, hshell, -, -, -, hserved⟩ :=
    (sessions_not_crossed testSetup _ s'' hall).2 0 conn hconn
  have huser := hserved (5, 7) (by rw [husers]; exact List.mem_singleton.2 rfl)
  obtain ⟨rfl, hfd⟩ := Prod.mk.inj huser
  exact ⟨s'', conn, hall, hconn, husers, create, hrequested, hshell, hfd.symm⟩

end TereServer.Services.Sessions
