import TereServer.Ipc.HandshakeErrors

/-!
# The connection of the unit tests

`FakeIpc` stands in for a connection to a peer.  A program over the `IPC` trait that
gets through a test on it does the same on a connection to a peer that sends the same
messages, when these are within the limits of their types.
-/

namespace TereServer.Ipc

open Lib Bincode

/-! ## Programs over the trait -/

section Programs

variable {K : Type} {T : K → Type → Type} {F α : Type}

/-- What is done over the `IPC` trait, for messages of the types `T`. -/
inductive Program (T : K → Type → Type) (F α : Type) : Type
  | done (a : α)
  | send (k : K) (m : T k F) (next : Except SendError Unit → Program T F α)
  | receive (k : K) (next : Except ReceiveError (T k F) → Program T F α)

/-- A program that does nothing more once a receive has met the end. -/
def Program.StopsAtEnd : Program T F α → Prop
  | .done _ => True
  | .send _ _ next => ∀ result, (next result).StopsAtEnd
  | .receive _ next =>
      (∃ a, next (.error .endOfStream) = .done a) ∧ ∀ result, (next result).StopsAtEnd

abbrev Any (T : K → Type → Type) (F : Type) := (k : K) × T k F

def Any.packet [∀ k, Serde (T k)] (m : Any T F) : Packet F := .of m.2

/-- The message is received as it was sent. -/
def Any.Carried [∀ k, Serde (T k)] (m : Any T F) : Prop := m.packet.receiveAs (T m.1) = .ok m.2

/-- A program on a connection with a scripted peer. -/
def Program.onConn [∀ k, Serde (T k)] : Program T F α → Conn F → α × Conn F
  | .done a, conn => (a, conn)
  | .send _ m next, conn => (next (Conn.sendWithFds m conn).1).onConn (Conn.sendWithFds m conn).2
  | .receive k next, conn =>
      (next (Conn.receiveWithFds (T k) conn).1).onConn (Conn.receiveWithFds (T k) conn).2

theorem Program.onConn_send [∀ k, Serde (T k)] (k : K) (m : T k F)
    (next : Except SendError Unit → Program T F α) (conn : Conn F) :
    (send k m next).onConn conn = (next (.ok ())).onConn (conn.push (.of m)) := rfl

theorem Program.onConn_receive [∀ k, Serde (T k)] (k : K)
    (next : Except ReceiveError (T k F) → Program T F α) (conn : Conn F) :
    (receive k next).onConn conn = (next (conn.next.1.receiveAs (T k))).onConn conn.next.2 := rfl

end Programs

/-! ## The fake -/

namespace FakeIpc

variable {K : Type} {T : K → Type → Type} {F α : Type}

inductive Shutdown
  | read
  | write
  | both

inductive Panic
  | noIncoming
  | downcast
  | expectation
  | todo

/-- A callback of a test: it looks at the message that is sent, panics or adds messages. -/
abbrev Expectation (T : K → Type → Type) (F : Type) := Any T F → Option (List (Any T F))

/-- Beside the fields of the source, all messages that were ever added and sent. -/
structure State (T : K → Type → Type) (F : Type) where
  incoming : List (Any T F)
  shutdown : Bool
  expectations : List (Expectation T F)
  added : List (Any T F)
  sent : List (Any T F)

namespace State

def new : State T F := ⟨[], false, [], [], []⟩

def add (s : State T F) (m : Any T F) : State T F :=
  { s with incoming := s.incoming ++ [m], added := s.added ++ [m] }

def expect (s : State T F) (f : Expectation T F) : State T F :=
  { s with expectations := s.expectations ++ [f] }

def shut (s : State T F) : (how : Shutdown) → Except Panic (State T F)
  | .read => .ok { s with shutdown := true }
  | _ => .error .todo

def addAll (s : State T F) (ms : List (Any T F)) : State T F := ms.foldl add s

/-- The callback runs after the expectation was taken. -/
def sendWithFds (s : State T F) (m : Any T F) : Except Panic (State T F) :=
  match s.expectations with
  | [] => .ok { s with sent := s.sent ++ [m] }
  | f :: expectations =>
      match f m with
      | none => .error .expectation
      | some ms => .ok (addAll { s with expectations, sent := s.sent ++ [m] } ms)

def receiveWithFds [DecidableEq K] (s : State T F) (k : K) :
    Except Panic (Except ReceiveError (T k F) × State T F) :=
  match s.incoming with
  | m :: incoming =>
      if h : m.1 = k then .ok (.ok (h ▸ m.2), { s with incoming }) else .error .downcast
  | [] => if s.shutdown then .ok (.error .endOfStream, s) else .error .noIncoming

end State

def run [DecidableEq K] : Program T F α → State T F → Except Panic (α × State T F)
  | .done a, s => .ok (a, s)
  | .send k m next, s =>
      match s.sendWithFds ⟨k, m⟩ with
      | .error e => .error e
      | .ok s' => run (next (.ok ())) s'
  | .receive k next, s =>
      match s.receiveWithFds k with
      | .error e => .error e
      | .ok (result, s') => run (next result) s'

/-! ## What is queued -/

def Silent (s : State T F) : Prop := ∀ f ∈ s.expectations, ∀ m ms, f m = some ms → ms = []

def Ends (s : State T F) : Prop := s.shutdown = true → Silent s

theorem State.addAll_eq (s : State T F) (ms : List (Any T F)) :
    s.addAll ms = { s with incoming := s.incoming ++ ms, added := s.added ++ ms } := by
  unfold addAll
  induction ms generalizing s with
  | nil => simp
  | cons m ms ih =>
      rw [List.foldl_cons, ih]
      simp [add]

theorem State.sendWithFds_eq_ok {s s' : State T F} {m : Any T F} (h : s.sendWithFds m = .ok s') :
    ∃ ms expectations, s' = { s with
        incoming := s.incoming ++ ms
        expectations
        added := s.added ++ ms
        sent := s.sent ++ [m] } ∧
      (∀ f ∈ expectations, f ∈ s.expectations) ∧
      (ms ≠ [] → ∃ f ∈ s.expectations, f m = some ms) := by
  unfold sendWithFds at h
  cases hexpectations : s.expectations with
  | nil =>
      rw [hexpectations] at h
      cases h
      exact ⟨[], [], by simp, by simp, by simp⟩
  | cons f expectations =>
      rw [hexpectations] at h
      dsimp only at h
      cases hf : f m with
      | none =>
          rw [hf] at h
          cases h
      | some ms =>
          rw [hf] at h
          cases h
          refine ⟨ms, expectations, State.addAll_eq _ ms, fun g hg => List.mem_cons_of_mem _ hg,
            fun _ => ⟨f, List.mem_cons_self, hf⟩⟩

variable [DecidableEq K]

theorem State.receiveWithFds_eq_ok {s s' : State T F} {k : K}
    {result : Except ReceiveError (T k F)} (h : s.receiveWithFds k = .ok (result, s')) :
    (∃ m incoming, s.incoming = ⟨k, m⟩ :: incoming ∧ result = .ok m ∧
      s' = { s with incoming }) ∨
    (s.incoming = [] ∧ s.shutdown = true ∧ result = .error .endOfStream ∧ s' = s) := by
  unfold receiveWithFds at h
  cases hincoming : s.incoming with
  | nil =>
      rw [hincoming] at h
      dsimp only at h
      split at h
      · rename_i hshut
        cases h
        exact .inr ⟨rfl, hshut, rfl, rfl⟩
      · cases h
  | cons first incoming =>
      rw [hincoming] at h
      obtain ⟨k', m⟩ := first
      dsimp only at h
      split at h
      · rename_i hk
        subst hk
        cases h
        exact .inl ⟨m, incoming, rfl, rfl, rfl⟩
      · cases h

/-! ## Agreement -/

variable [∀ k, Serde (T k)]

/-- What has come of the messages that were added. -/
structure Agrees (s s' : State T F) (added sent : List (Any T F)) : Prop where
  added_eq : s'.added = s.added ++ added
  sent_eq : s'.sent = s.sent ++ sent
  silent : Silent s → added = []

/-- A test that is got through, and the same on a connection.  On the connection no packet
follows the end, so nothing may be added after it, or the program must not ask. -/
theorem run_agrees {p : Program T F α} {s s' : State T F} {a : α} (h : run p s = .ok (a, s'))
    (hends : Ends s ∨ p.StopsAtEnd) (outgoing : List (Packet F)) :
    ∃ added sent, Agrees s s' added sent ∧ ((∀ m ∈ s.incoming ++ added, m.Carried) →
      p.onConn ⟨(s.incoming ++ added).map Any.packet, outgoing⟩ =
        (a, ⟨s'.incoming.map Any.packet, outgoing ++ sent.map Any.packet⟩)) := by
  induction p generalizing s outgoing with
  | done b =>
      cases h
      refine ⟨[], [], ⟨(List.append_nil _).symm, (List.append_nil _).symm, fun _ => rfl⟩, fun _ => ?_⟩
      rw [List.append_nil, List.map_nil, List.append_nil]
      rfl
  | send k m next ih =>
      simp only [run] at h
      cases hsend : s.sendWithFds ⟨k, m⟩ with
      | error e =>
          rw [hsend] at h
          cases h
      | ok s₁ =>
          rw [hsend] at h
          obtain ⟨ms, expectations, rfl, hsub, hms⟩ := State.sendWithFds_eq_ok hsend
          have hsilent (hs : Silent s) : Silent { s with
              incoming := s.incoming ++ ms
              expectations
              added := s.added ++ ms
              sent := s.sent ++ [⟨k, m⟩] } :=
            fun f hf => hs f (hsub f hf)
          have hnone (hs : Silent s) : ms = [] := by
            by_contra hne
            obtain ⟨f, hf, hfm⟩ := hms hne
            exact hne (hs f hf _ ms hfm)
          obtain ⟨added, sent, hagrees, hconn⟩ :=
            ih _ h (hends.imp (fun hends hshut => hsilent (hends hshut)) fun hstops => hstops _)
              (outgoing ++ [.of m])
          refine ⟨ms ++ added, ⟨k, m⟩ :: sent, ⟨?_, ?_, ?_⟩, fun hcarried => ?_⟩
          · rw [hagrees.added_eq, List.append_assoc]
          · rw [hagrees.sent_eq, List.append_assoc]
            rfl
          · intro hs
            rw [hnone hs, hagrees.silent (hsilent hs)]
            rfl
          · rw [← List.append_assoc] at hcarried ⊢
            have hcons : outgoing ++ List.map Any.packet (⟨k, m⟩ :: sent) =
                outgoing ++ [.of m] ++ sent.map Any.packet := by
              rw [List.append_assoc]
              rfl
            rw [hcons]
            exact hconn hcarried
  | receive k next ih =>
      simp only [run] at h
      cases hreceive : s.receiveWithFds k with
      | error e =>
          rw [hreceive] at h
          cases h
      | ok r =>
          obtain ⟨result, s₁⟩ := r
          rw [hreceive] at h
          rcases State.receiveWithFds_eq_ok hreceive with ⟨m, incoming, hincoming, rfl, rfl⟩ |
            ⟨hnil, hshut, rfl, rfl⟩
          · obtain ⟨added, sent, hagrees, hconn⟩ :=
              ih _ h (hends.imp_right fun hstops => hstops.2 _) outgoing
            refine ⟨added, sent, ⟨hagrees.added_eq, hagrees.sent_eq, hagrees.silent⟩,
              fun hcarried => ?_⟩
            rw [hincoming, List.cons_append] at hcarried ⊢
            obtain ⟨hfirst, hrest⟩ := List.forall_mem_cons.1 hcarried
            have hgot : (Packet.of m).receiveAs (T k) = .ok m := hfirst
            simp only [Program.onConn, Conn.receiveWithFds, Conn.next, List.map_cons, Any.packet,
              hgot]
            exact hconn hrest
          · have hlast : ∃ sent, Agrees s₁ s' [] sent ∧
                (next (.error .endOfStream)).onConn ⟨[], outgoing⟩ =
                  (a, ⟨s'.incoming.map Any.packet, outgoing ++ sent.map Any.packet⟩) := by
              rcases hends with hends | hstops
              · obtain ⟨added, sent, hagrees, hconn⟩ := ih _ h (.inl hends) outgoing
                obtain rfl := hagrees.silent (hends hshut)
                rw [hnil] at hconn
                exact ⟨sent, hagrees, hconn (List.forall_mem_nil _)⟩
              · obtain ⟨b, hb⟩ := hstops.1
                dsimp only at h
                rw [hb] at h ⊢
                cases h
                refine ⟨[], ⟨(List.append_nil _).symm, (List.append_nil _).symm, fun _ => rfl⟩, ?_⟩
                rw [hnil, List.map_nil, List.append_nil]
                rfl
            obtain ⟨sent, hagrees, hconn⟩ := hlast
            refine ⟨[], sent, hagrees, fun _ => ?_⟩
            rw [hnil]
            simp only [Program.onConn, Conn.receiveWithFds, Conn.next, List.append_nil,
              List.map_nil, Packet.receiveAs_closed]
            exact hconn

/-- A test that has not begun. -/
structure Fresh (s : State T F) : Prop where
  added : s.added = s.incoming
  sent : s.sent = []

/-- The same for a test from its start: the peer of the connection sends what the test
adds, and gets what the test sees. -/
theorem fresh_agrees {p : Program T F α} {s s' : State T F} {a : α} (hs : Fresh s)
    (hends : Ends s ∨ p.StopsAtEnd) (h : run p s = .ok (a, s')) (hcarried : ∀ m ∈ s'.added, m.Carried) :
    p.onConn ⟨s'.added.map Any.packet, []⟩ =
      (a, ⟨s'.incoming.map Any.packet, s'.sent.map Any.packet⟩) := by
  obtain ⟨added, sent, hagrees, hconn⟩ := run_agrees h hends []
  rw [hagrees.added_eq, hs.added] at hcarried ⊢
  rw [hagrees.sent_eq, hs.sent]
  exact hconn hcarried

/-! ## Scripts -/

/-- A test that adds its messages first, and may then shut down. -/
def State.script (ms : List (Any T F)) (ended : Bool) : State T F := ⟨ms, ended, [], ms, []⟩

omit [DecidableEq K] [∀ k, Serde (T k)] in
theorem script_eq (ms : List (Any T F)) (ended : Bool) :
    .script ms ended = { (State.new.addAll ms : State T F) with shutdown := ended } := by
  rw [State.addAll_eq]
  rfl

def receiveAll : List K → List (Option (Any T F)) → Program T F (List (Option (Any T F)))
  | [], received => .done received
  | k :: ks, received => .receive k fun result =>
      receiveAll ks (received ++ [result.toOption.map (Sigma.mk k)])

def transported (m : Any T F) : Option (Any T F) :=
  (m.packet.receiveAs (T m.1)).toOption.map (Sigma.mk m.1)

omit [DecidableEq K] in
theorem transported_eq_some {m : Any T F} : transported m = some m ↔ m.Carried := by
  obtain ⟨k, m⟩ := m
  unfold transported Any.Carried
  cases Packet.receiveAs (T k) (Any.packet ⟨k, m⟩) with
  | error e => simp [Except.toOption]
  | ok m' => simp [Except.toOption]

omit [∀ k, Serde (T k)] in
theorem run_receiveAll (ms : List (Any T F)) (received : List (Option (Any T F))) (s : State T F)
    (hs : s.incoming = ms) : run (receiveAll (ms.map Sigma.fst) received) s =
      .ok (received ++ ms.map some, { s with incoming := [] }) := by
  induction ms generalizing received s with
  | nil =>
      rw [List.map_nil, List.map_nil, List.append_nil, ← hs]
      rfl
  | cons m ms ih =>
      obtain ⟨k, m⟩ := m
      have hreceive : s.receiveWithFds k = .ok (.ok m, { s with incoming := ms }) := by
        simp [State.receiveWithFds, hs]
      rw [List.map_cons, receiveAll, run, hreceive]
      dsimp only
      rw [ih _ _ rfl, List.append_assoc]
      rfl

omit [DecidableEq K] in
theorem onConn_receiveAll (ms : List (Any T F)) (received : List (Option (Any T F)))
    (outgoing : List (Packet F)) :
    (receiveAll (ms.map Sigma.fst) received).onConn ⟨ms.map Any.packet, outgoing⟩ =
      (received ++ ms.map transported, ⟨[], outgoing⟩) := by
  induction ms generalizing received with
  | nil =>
      rw [List.map_nil (f := transported), List.append_nil]
      rfl
  | cons m ms ih =>
      have hstep : (receiveAll ((m :: ms).map Sigma.fst) received).onConn
          ⟨(m :: ms).map Any.packet, outgoing⟩ =
            (receiveAll (ms.map Sigma.fst) (received ++ [transported m])).onConn
              ⟨ms.map Any.packet, outgoing⟩ := rfl
      rw [hstep, ih, List.append_assoc]
      rfl

/-- A scripted test is right about a connection for every program exactly when the
connection would carry each of its messages. -/
theorem scripts_agree_iff_carried (ms : List (Any T F)) (ended : Bool) :
    (∀ (α : Type) (p : Program T F α) (a : α) (s' : State T F),
      run p (.script ms ended) = .ok (a, s') → p.onConn ⟨ms.map Any.packet, []⟩ =
        (a, ⟨s'.incoming.map Any.packet, s'.sent.map Any.packet⟩)) ↔
    ∀ m ∈ ms, m.Carried := by
  constructor
  · intro hagree m hm
    have hrun := run_receiveAll ms [] (.script ms ended) rfl
    have hconn := hagree _ _ _ _ hrun
    rw [onConn_receiveAll ms] at hconn
    have hall : ms.map transported = ms.map some := congrArg Prod.fst hconn
    exact transported_eq_some.1 (List.map_inj_left.1 hall m hm)
  · intro hcarried α p a s' h
    have hsilent : Silent (.script ms ended : State T F) := fun f hf => by cases hf
    obtain ⟨added, sent, hagrees, hconn⟩ := run_agrees h (.inl fun _ => hsilent) []
    obtain rfl := hagrees.silent hsilent
    rw [List.append_nil] at hconn
    rw [hagrees.sent_eq]
    exact hconn hcarried

end FakeIpc

/-! ## The handshake over the trait -/

section Handshakes

variable {F : Type} (deriveKey : Str → Bytes → BuildId) (self : Endpoint)

abbrev Handshakes : Unit → Type → Type := fun _ => Handshake

instance (k : Unit) : Serde (Handshakes k) := inferInstanceAs (Serde Handshake)

/-- `handshake_as_client`, whatever the connection. -/
def handshakeAsClientProgram : Program Handshakes F (Except HandshakeError Unit) :=
  .send () (Handshake.new deriveKey self.identity self.clientIntent) fun
    | .error e => .done (.error (.send e))
    | .ok () => .receive () fun
      | .error e => .done (.error (.receive e))
      | .ok msg => .done (msg.check deriveKey self.identity self.serverIntent)

def serverReply (msg : Handshake F) : Program Handshakes F (Except HandshakeError Unit) :=
  match msg.check deriveKey self.identity self.clientIntent with
  | .error e => .done (.error e)
  | .ok () => .send () (Handshake.new deriveKey self.identity self.serverIntent) fun
    | .error e => .done (.error (.send e))
    | .ok () => .done (.ok ())

/-- `handshake_as_server` -/
def handshakeAsServerProgram : Program Handshakes F (Except HandshakeError Unit) :=
  .receive () fun
    | .error e => .done (.error (.receive e))
    | .ok msg => serverReply deriveKey self msg

theorem handshakeAsClientProgram_onConn (conn : Conn F) :
    (handshakeAsClientProgram deriveKey self).onConn conn = handshakeAsClient deriveKey self conn := by
  have hhello : Packet.of (T := Handshakes ()) (F := F)
      (Handshake.new deriveKey self.identity self.clientIntent) = self.hello deriveKey := rfl
  unfold handshakeAsClientProgram
  rw [Program.onConn_send, hhello, handshakeAsClient_eq]
  dsimp only [Handshake.accept]
  rw [Program.onConn_receive]
  cases hr : (conn.push (self.hello deriveKey)).next.1.receiveAs Handshake with
  | error e =>
      have hr' : (conn.push (self.hello deriveKey)).next.1.receiveAs (Handshakes ()) = .error e := hr
      rw [hr']
      rfl
  | ok msg =>
      have hr' : (conn.push (self.hello deriveKey)).next.1.receiveAs (Handshakes ()) = .ok msg := hr
      rw [hr']
      rfl

theorem handshakeAsServerProgram_onConn (conn : Conn F) :
    (handshakeAsServerProgram deriveKey self).onConn conn = handshakeAsServer deriveKey self conn := by
  unfold handshakeAsServerProgram
  rw [Program.onConn_receive, handshakeAsServer_eq]
  unfold Handshake.accept
  cases hr : conn.next.1.receiveAs Handshake with
  | error e =>
      have hr' : conn.next.1.receiveAs (Handshakes ()) = .error e := hr
      rw [hr']
      rfl
  | ok msg =>
      have hr' : conn.next.1.receiveAs (Handshakes ()) = .ok msg := hr
      rw [hr']
      dsimp only [serverReply]
      cases msg.check deriveKey self.identity self.clientIntent with
      | error e => rfl
      | ok u => rfl

theorem handshakeAsClientProgram_stops :
    (handshakeAsClientProgram deriveKey self : Program Handshakes F _).StopsAtEnd := by
  intro sent
  cases sent with
  | error e => trivial
  | ok u =>
      refine ⟨⟨.error (.receive .endOfStream), rfl⟩, fun received => ?_⟩
      cases received with
      | error e => trivial
      | ok msg => trivial

theorem handshakeAsServerProgram_stops :
    (handshakeAsServerProgram deriveKey self : Program Handshakes F _).StopsAtEnd := by
  refine ⟨⟨.error (.receive .endOfStream), rfl⟩, fun received => ?_⟩
  cases received with
  | error e => trivial
  | ok msg =>
      dsimp only [serverReply]
      cases msg.check deriveKey self.identity self.clientIntent with
      | error e => trivial
      | ok u =>
          intro sent
          cases sent with
          | error e => trivial
          | ok u => trivial

/-- What a unit test shows of a handshake is so on a connection, if the intents of the
messages that the test adds are short enough. -/
theorem handshake_tests_agree (s s' : FakeIpc.State Handshakes F) (hs : FakeIpc.Fresh s)
    (hshort : ∀ m ∈ s'.added, m.2.intent.1.utf8ByteSize ≤ 8157) (result : Except HandshakeError Unit) :
    (FakeIpc.run (handshakeAsClientProgram deriveKey self) s = .ok (result, s') →
      handshakeAsClient deriveKey self ⟨s'.added.map Any.packet, []⟩ =
        (result, ⟨s'.incoming.map Any.packet, s'.sent.map Any.packet⟩)) ∧
    (FakeIpc.run (handshakeAsServerProgram deriveKey self) s = .ok (result, s') →
      handshakeAsServer deriveKey self ⟨s'.added.map Any.packet, []⟩ =
        (result, ⟨s'.incoming.map Any.packet, s'.sent.map Any.packet⟩)) := by
  have hcarried : ∀ m ∈ s'.added, m.Carried := fun m hm =>
    (Handshake.receiveAs_of ((Handshake.fits_iff m.2).2 (hshort m hm))).2 rfl
  constructor
  · intro h
    rw [← handshakeAsClientProgram_onConn]
    exact FakeIpc.fresh_agrees hs (.inr (handshakeAsClientProgram_stops deriveKey self)) h hcarried
  · intro h
    rw [← handshakeAsServerProgram_onConn]
    exact FakeIpc.fresh_agrees hs (.inr (handshakeAsServerProgram_stops deriveKey self)) h hcarried

/-- A peer that is gone is the end of the stream, in a test and on a connection.  The unit
test `client_simple_disconnected` asks for a socket error instead. -/
theorem disconnected_is_end :
    FakeIpc.run (handshakeAsClientProgram deriveKey self) (.script [] true : FakeIpc.State _ F) =
      .ok (.error (.receive .endOfStream),
        ⟨[], true, [], [], [⟨(), Handshake.new deriveKey self.identity self.clientIntent⟩]⟩) ∧
    handshakeAsClient deriveKey self (⟨[], []⟩ : Conn F) =
      (.error (.receive .endOfStream), ⟨[], [self.hello deriveKey]⟩) := by
  have hrun : FakeIpc.run (handshakeAsClientProgram deriveKey self)
      (.script [] true : FakeIpc.State _ F) = .ok (.error (.receive .endOfStream),
        ⟨[], true, [], [], [⟨(), Handshake.new deriveKey self.identity self.clientIntent⟩]⟩) := rfl
  refine ⟨hrun, ?_⟩
  rw [← handshakeAsClientProgram_onConn]
  exact FakeIpc.fresh_agrees ⟨rfl, rfl⟩ (.inr (handshakeAsClientProgram_stops deriveKey self)) hrun
    fun m hm => by cases hm

end Handshakes

/-! ## The unit tests of the handshake -/

def clientHandshake : Handshake Nat :=
  .new testDeriveKey testIdentity testEndpoint.clientIntent

def serverHandshake : Handshake Nat :=
  .new testDeriveKey testIdentity testEndpoint.serverIntent

/-- The callback asserts what it is sent, and adds the reply. -/
def clientSimple : FakeIpc.State Handshakes Nat :=
  FakeIpc.State.new.expect fun m =>
    if m.2 = clientHandshake then some [⟨(), serverHandshake⟩] else none

def serverSimple : FakeIpc.State Handshakes Nat := FakeIpc.State.new.add ⟨(), clientHandshake⟩

theorem handshake_tests_agree_simple :
    handshakeAsClient testDeriveKey testEndpoint
        ⟨[(⟨(), serverHandshake⟩ : Any Handshakes Nat)].map Any.packet, []⟩ =
      (.ok (), ⟨[], [(⟨(), clientHandshake⟩ : Any Handshakes Nat)].map Any.packet⟩) ∧
    handshakeAsServer testDeriveKey testEndpoint
        ⟨[(⟨(), clientHandshake⟩ : Any Handshakes Nat)].map Any.packet, []⟩ =
      (.ok (), ⟨[], [(⟨(), serverHandshake⟩ : Any Handshakes Nat)].map Any.packet⟩) := by
  have hclient : FakeIpc.run (handshakeAsClientProgram testDeriveKey testEndpoint) clientSimple =
      .ok (.ok (), ⟨[], false, [], [⟨(), serverHandshake⟩], [⟨(), clientHandshake⟩]⟩) := by
    have hcheck : serverHandshake.check testDeriveKey testEndpoint.identity
        testEndpoint.serverIntent = .ok () := Handshake.check_eq_ok.2 rfl
    have hsent : clientSimple.sendWithFds ⟨(), clientHandshake⟩ =
        .ok ⟨[⟨(), serverHandshake⟩], false, [], [⟨(), serverHandshake⟩],
          [⟨(), clientHandshake⟩]⟩ := by
      simp [clientSimple, FakeIpc.State.expect, FakeIpc.State.new, FakeIpc.State.sendWithFds,
        FakeIpc.State.addAll, FakeIpc.State.add]
    have hhello : Handshake.new testDeriveKey testEndpoint.identity testEndpoint.clientIntent =
      clientHandshake := rfl
    simp only [handshakeAsClientProgram, FakeIpc.run, hhello, hsent]
    simp [FakeIpc.State.receiveWithFds, FakeIpc.run, hcheck]
  have hserver : FakeIpc.run (handshakeAsServerProgram testDeriveKey testEndpoint) serverSimple =
      .ok (.ok (), ⟨[], false, [], [⟨(), clientHandshake⟩], [⟨(), serverHandshake⟩]⟩) := by
    have hcheck : clientHandshake.check testDeriveKey testEndpoint.identity
        testEndpoint.clientIntent = .ok () := Handshake.check_eq_ok.2 rfl
    have hreply : Handshake.new testDeriveKey testEndpoint.identity testEndpoint.serverIntent =
      serverHandshake := rfl
    simp [handshakeAsServerProgram, serverReply, FakeIpc.run, serverSimple, FakeIpc.State.add,
      FakeIpc.State.new, FakeIpc.State.receiveWithFds, FakeIpc.State.sendWithFds, hcheck, hreply]
  have hclientShort : clientHandshake.intent.1.utf8ByteSize ≤ 8157 := by decide
  have hserverShort : serverHandshake.intent.1.utf8ByteSize ≤ 8157 := by decide
  have hclientFresh : FakeIpc.Fresh clientSimple := ⟨rfl, rfl⟩
  have hserverFresh : FakeIpc.Fresh serverSimple := ⟨rfl, rfl⟩
  constructor
  · have hagree := handshake_tests_agree testDeriveKey testEndpoint clientSimple
      ⟨[], false, [], [⟨(), serverHandshake⟩], [⟨(), clientHandshake⟩]⟩ hclientFresh
      (List.forall_mem_singleton.2 hserverShort) (.ok ())
    exact hagree.1 hclient
  · have hagree := handshake_tests_agree testDeriveKey testEndpoint serverSimple
      ⟨[], false, [], [⟨(), clientHandshake⟩], [⟨(), serverHandshake⟩]⟩ hserverFresh
      (List.forall_mem_singleton.2 hclientShort) (.ok ())
    exact hagree.2 hserver

end TereServer.Ipc
