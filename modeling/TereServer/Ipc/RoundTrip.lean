import TereServer.Ipc.Acceptance
import TereServer.Lib.Transition

/-!
# Receive undoes send

Two processes on the ends of one connection: one sends a list of messages of
any types, the other receives at the same types, and their calls interleave
freely.  What the receiver holds is compared with what was sent through the
descriptor tables, as values whose fds are replaced by the open files.
-/

namespace TereServer.Ipc

open Lib Bincode

abbrev AnyMessage := Σ M : Message, M.Val OwnedFd

namespace Process

variable {F : Type}

/-- A message as `p` sees it, each fd replaced by its open file. -/
def view (p : Process F) (msg : AnyMessage) : Σ M : Message, M.Val (Option F) :=
  ⟨msg.1, msg.1.schema.map p.file msg.2⟩

def Holds (p : Process F) (msg : AnyMessage) : Prop :=
  ∀ fd ∈ msg.1.schema.fds msg.2, (p.file fd).isSome

theorem view_eq {p q : Process F} {M : Message} {m m' : M.Val OwnedFd}
    (hshape : M.schema.shape m = M.schema.shape m')
    (hfds : (M.schema.fds m).map p.file = (M.schema.fds m').map q.file) :
    p.view ⟨M, m⟩ = q.view ⟨M, m'⟩ := by
  have hmap : M.schema.map p.file m = M.schema.map q.file m' := by
    refine M.schema.val_ext ?_ ?_
    · rw [Schema.shape_map, Schema.shape_map, hshape]
    · rw [Schema.fds_map, Schema.fds_map, hfds]
  exact congrArg (Sigma.mk M) hmap

theorem view_congr {p q : Process F} {msg : AnyMessage}
    (h : ∀ fd ∈ msg.1.schema.fds msg.2, p.file fd = q.file fd) : p.view msg = q.view msg :=
  view_eq rfl (List.map_congr_left h)

end Process

/-- The encoding of the message is not empty and fits the limits of its type. -/
def AnyMessage.WithinLimits (msg : AnyMessage) : Prop :=
  1 ≤ (msg.1.schema.encode msg.2).length ∧ (msg.1.schema.encode msg.2).length ≤ msg.1.maxSize ∧
    (msg.1.schema.fds msg.2).length ≤ msg.1.maxFds

instance (msg : AnyMessage) : Decidable msg.WithinLimits :=
  inferInstanceAs (Decidable (_ ∧ _ ∧ _))

/-- The control buffer of `receive_with_fds` has a size that fits a `c_uint`. -/
def Message.ControlFits (M : Message) : Prop := cmsgAlign (4 * M.maxFds) + 16 < 2 ^ 32

instance (M : Message) : Decidable M.ControlFits := inferInstanceAs (Decidable (_ < _))

/-! ## One message -/

/-- `pkt` is what `p` sends for `msg`. -/
def SentAs {F : Type} (p : Process F) (msg : AnyMessage) (pkt : Packet F) : Prop :=
  pkt.payload = msg.1.schema.encode msg.2 ∧
    (msg.1.schema.fds msg.2).map p.file = pkt.files.map some

namespace Process

variable {F : Type}

theorem mapM_get_eq_some {table : FdTable F} {fds : List OwnedFd}
    (h : ∀ fd ∈ fds, (table.get fd.raw).isSome) :
    ∃ files, (fds.map OwnedFd.asRawFd).mapM table.get = some files ∧
      fds.map (fun fd => table.get fd.raw) = files.map some := by
  induction fds with
  | nil => exact ⟨[], rfl, rfl⟩
  | cons fd fds ih =>
      obtain ⟨files, hfiles, hmap⟩ := ih fun fd' hfd => h fd' (List.mem_cons_of_mem fd hfd)
      obtain ⟨file, hfile⟩ := Option.isSome_iff_exists.1 (h fd List.mem_cons_self)
      refine ⟨file :: files, ?_, ?_⟩
      · simp [List.mapM_cons, hfiles, OwnedFd.asRawFd, hfile]
      · simp [hmap, hfile]

theorem sendWithFds_eq_ok {cmsgSpace : Nat → Nat} {p : Process F} {msg : AnyMessage}
    (hholds : p.Holds msg) (hcount : 4 * (msg.1.schema.fds msg.2).length < 2 ^ 32) :
    ∃ pkt, p.sendWithFds cmsgSpace msg.1 msg.2 = some (.ok pkt, p) ∧ SentAs p msg pkt := by
  obtain ⟨files, hfiles, hmap⟩ := mapM_get_eq_some hholds
  have hgrow : (SeqPacket.growAncillary cmsgSpace (msg.1.schema.fds msg.2).length
      (cmsgSpace (4 * (msg.1.schema.fds msg.2).length) / 128 + 1) 0).isSome :=
    SeqPacket.growAncillary_isSome.2 ⟨hcount, by omega, by omega⟩
  obtain ⟨bufLen, hgrow⟩ := Option.isSome_iff_exists.1 hgrow
  refine ⟨⟨msg.1.schema.encode msg.2, files⟩, ?_, rfl, hmap⟩
  simp [sendWithFds, PassFd.gather_encodeMessage _ _ p.idle, hgrow, sendmsg, hfiles]

theorem mapM_get_eq_map {table : FdTable F} {fds : List OwnedFd} {files : List F}
    (h : (fds.map OwnedFd.asRawFd).mapM table.get = some files) :
    fds.map (fun fd => table.get fd.raw) = files.map some := by
  induction fds generalizing files with
  | nil =>
      cases h
      rfl
  | cons fd fds ih =>
      simp only [List.map_cons, List.mapM_cons, Option.bind_eq_bind, Option.bind_eq_some_iff,
        Option.pure_def] at h
      obtain ⟨file, hfile, rest, hrest, hfiles⟩ := h
      cases hfiles
      have hhead : table.get fd.raw = some file := hfile
      rw [List.map_cons, List.map_cons, hhead, ih hrest]

theorem sendWithFds_sentAs {cmsgSpace : Nat → Nat} {p p' : Process F} {msg : AnyMessage}
    {pkt : Packet F} (h : p.sendWithFds cmsgSpace msg.1 msg.2 = some (.ok pkt, p')) :
    SentAs p msg pkt := by
  simp only [sendWithFds, PassFd.gather_encodeMessage _ _ p.idle] at h
  split at h
  · cases h
  · split at h
    · cases h
    · rename_i sent hsend
      cases h
      unfold sendmsg at hsend
      split at hsend
      · rename_i files hfiles
        cases hsend
        exact ⟨rfl, mapM_get_eq_map hfiles⟩
      · cases hsend

theorem receiveWithFds_sent {p q : Process F} {msg : AnyMessage} {pkt : Packet F}
    (hlimits : msg.WithinLimits) (hcontrol : msg.1.ControlFits) (hsent : SentAs p msg pkt) :
    ∃ m, (q.receiveWithFds libcCmsgSpace msg.1 pkt).1 = .ok m ∧
      (q.receiveWithFds libcCmsgSpace msg.1 pkt).2.view ⟨msg.1, m⟩ = p.view msg := by
  obtain ⟨M, sent⟩ := msg
  obtain ⟨hpos, hsize, hcount⟩ := hlimits
  obtain ⟨hpayload, hfiles⟩ := hsent
  dsimp only at *
  have hlength : (M.schema.fds sent).length = pkt.files.length := by
    simpa using congrArg List.length hfiles
  have hfits : pkt.Fits libcCmsgSpace M := by
    unfold Message.ControlFits cmsgAlign at hcontrol
    refine fits_of_space (by omega) (Nat.mod_eq_of_lt ?_) (by omega)
    unfold cmsgAlign
    omega
  obtain ⟨m, hm, hshape⟩ : ∃ m, (q.receiveWithFds libcCmsgSpace M pkt).1 = .ok m ∧
      M.schema.shape m = M.schema.shape sent := receiveWithFds_shape.2
    ⟨⟨by rwa [hpayload], by rwa [hpayload]⟩, hfits,
      (M.schema.layout_map _ sent _).2 (hpayload ▸ M.schema.layout_encode sent),
      by rw [Schema.fds_map, List.length_map, hlength]⟩
  exact ⟨m, hm, view_eq hshape ((receiveWithFds_files hm).trans hfiles.symm)⟩

/-- Fds that were open before a packet was accepted refer to the same files. -/
theorem receiveWithFds_view {cmsgSpace : Nat → Nat} {M : Message} {pkt : Packet F}
    {p : Process F} {m : M.Val OwnedFd} (h : (p.receiveWithFds cmsgSpace M pkt).1 = .ok m)
    {msg : AnyMessage} (hholds : p.Holds msg) :
    (p.receiveWithFds cmsgSpace M pkt).2.view msg = p.view msg := by
  refine view_congr fun fd hfd => ?_
  obtain ⟨file, hfile⟩ := Option.isSome_iff_exists.1 (hholds fd hfd)
  have hkept : (p.install cmsgSpace M pkt).2.get fd.raw = some file :=
    FdTable.get_installAll_of_open hfile
  rw [hfile]
  unfold Process.file
  rw [(receiveWithFds_table h).1, hkept]

theorem holds_of_view {p q : Process F} {msg msg' : AnyMessage}
    (h : p.view msg = q.view msg') (hholds : q.Holds msg') : p.Holds msg := by
  obtain ⟨M, m⟩ := msg
  obtain ⟨M', m'⟩ := msg'
  obtain ⟨rfl, hmap⟩ := Sigma.mk.inj h
  have hfds := congrArg M.schema.fds (eq_of_heq hmap)
  rw [Schema.fds_map, Schema.fds_map] at hfds
  intro fd hfd
  have hmem : p.file fd ∈ (M.schema.fds m').map q.file := hfds ▸ List.mem_map_of_mem hfd
  obtain ⟨fd', hfd', heq⟩ := List.mem_map.1 hmem
  rw [← heq]
  exact hholds fd' hfd'

end Process

/-! ## A connection -/

inductive Failure
  | send (e : SendError)
  | sendLoop
  | receive (e : ReceiveError)

/-- A sender and a receiver; `inFlight` holds the packets in the order they were
sent. -/
structure Connection (F : Type) where
  sender : Process F
  receiver : Process F
  unsent : List AnyMessage
  inFlight : List (Packet F)
  expected : List Message
  received : List AnyMessage
  failure : Option Failure

namespace Connection

variable {F : Type}

inductive Action
  | send
  | receive
  deriving DecidableEq

def start (sender receiver : Process F) (msgs : List AnyMessage) : Connection F :=
  ⟨sender, receiver, msgs, [], msgs.map Sigma.fst, [], none⟩

/-- One call of one of the two processes.  A receive blocks while nothing is in
flight; after a failure both stop. -/
def step (c : Connection F) : Action → Option (Connection F)
  | .send =>
      match c.failure, c.unsent with
      | none, msg :: unsent =>
          match c.sender.sendWithFds libcCmsgSpace msg.1 msg.2 with
          | some (.ok pkt, sender) =>
              some { c with sender, unsent, inFlight := c.inFlight ++ [pkt] }
          | some (.error e, sender) => some { c with sender, failure := some (.send e) }
          | none => some { c with failure := some .sendLoop }
      | _, _ => none
  | .receive =>
      match c.failure, c.inFlight, c.expected with
      | none, pkt :: inFlight, M :: expected =>
          match c.receiver.receiveWithFds libcCmsgSpace M pkt with
          | (.ok m, receiver) =>
              some { c with receiver, inFlight, expected, received := c.received ++ [⟨M, m⟩] }
          | (.error e, receiver) => some { c with receiver, failure := some (.receive e) }
      | _, _, _ => none

/-- What the sender and the types of the messages must provide. -/
structure Sendable (sender : Process F) (msg : AnyMessage) : Prop where
  holds : sender.Holds msg
  withinLimits : msg.WithinLimits
  controlFits : msg.1.ControlFits

theorem Sendable.count_lt {sender : Process F} {msg : AnyMessage} (h : Sendable sender msg) :
    4 * (msg.1.schema.fds msg.2).length < 2 ^ 32 := by
  have hcount := h.withinLimits.2.2
  have hcontrol := h.controlFits
  unfold Message.ControlFits cmsgAlign at hcontrol
  omega

/-- The messages `done` have been received, `flying` are in flight. -/
structure InOrder (sender : Process F) (done flying unsent : List AnyMessage)
    (c : Connection F) : Prop where
  sender_eq : c.sender = sender
  failure_eq : c.failure = none
  unsent_eq : c.unsent = unsent
  received_eq : c.received.map c.receiver.view = done.map sender.view
  sentAs : List.Forall₂ (SentAs sender) flying c.inFlight
  expected_eq : c.expected = (flying ++ unsent).map Sigma.fst

variable {sender receiver : Process F} {done flying unsent msgs : List AnyMessage}
variable {msg : AnyMessage} {c c' : Connection F}

theorem start_inOrder (sender receiver : Process F) (msgs : List AnyMessage) :
    InOrder sender [] [] msgs (start sender receiver msgs) :=
  ⟨rfl, rfl, rfl, rfl, .nil, rfl⟩

theorem InOrder.send (h : InOrder sender done flying (msg :: unsent) c)
    (hmsg : Sendable sender msg) :
    ∃ c', c.step .send = some c' ∧ InOrder sender done (flying ++ [msg]) unsent c' := by
  obtain ⟨pkt, hsend, hsent⟩ : ∃ pkt, sender.sendWithFds libcCmsgSpace msg.1 msg.2 =
      some (.ok pkt, sender) ∧ SentAs sender msg pkt :=
    Process.sendWithFds_eq_ok hmsg.holds hmsg.count_lt
  refine ⟨{ c with sender, unsent, inFlight := c.inFlight ++ [pkt] }, ?_, ?_⟩
  · simp only [step, h.failure_eq, h.unsent_eq, h.sender_eq, hsend]
  · refine ⟨rfl, h.failure_eq, rfl, h.received_eq, ?_, ?_⟩
    · exact List.rel_append h.sentAs (.cons hsent .nil)
    · rw [h.expected_eq, List.append_assoc]
      rfl

theorem InOrder.receive (h : InOrder sender done (msg :: flying) unsent c)
    (hdone : ∀ msg ∈ done, Sendable sender msg) (hmsg : Sendable sender msg) :
    ∃ c', c.step .receive = some c' ∧ InOrder sender (done ++ [msg]) flying unsent c' := by
  obtain ⟨pkt, inFlight, hsent, hrest, hflight⟩ := List.forall₂_cons_left_iff.1 h.sentAs
  obtain ⟨m, hok, hview⟩ := Process.receiveWithFds_sent (q := c.receiver) hmsg.withinLimits
    hmsg.controlFits hsent
  have hcall : c.receiver.receiveWithFds libcCmsgSpace msg.1 pkt =
      (.ok m, (c.receiver.receiveWithFds libcCmsgSpace msg.1 pkt).2) := Prod.ext hok rfl
  have hexpected : c.expected = msg.1 :: (flying ++ unsent).map Sigma.fst := h.expected_eq
  refine ⟨{ c with
    receiver := (c.receiver.receiveWithFds libcCmsgSpace msg.1 pkt).2
    inFlight
    expected := (flying ++ unsent).map Sigma.fst
    received := c.received ++ [⟨msg.1, m⟩] }, ?_, ?_⟩
  · simp only [step, h.failure_eq, hflight, hexpected]
    rw [hcall]
  · refine ⟨h.sender_eq, h.failure_eq, h.unsent_eq, ?_, hrest, rfl⟩
    have hkept : c.received.map (c.receiver.receiveWithFds libcCmsgSpace msg.1 pkt).2.view =
        c.received.map c.receiver.view := by
      refine List.map_congr_left fun old hold => Process.receiveWithFds_view hok ?_
      -- an earlier message holds its fds because the sender held those it was sent with
      have hmem : c.receiver.view old ∈ done.map sender.view :=
        h.received_eq ▸ List.mem_map_of_mem hold
      obtain ⟨sent, hin, hsame⟩ := List.mem_map.1 hmem
      exact Process.holds_of_view hsame.symm (hdone sent hin).holds
    simp only [List.map_append, List.map_cons, List.map_nil, hkept, hview, h.received_eq]

theorem InOrder.send_none (h : InOrder sender done flying [] c) : c.step .send = none := by
  simp only [step, h.failure_eq, h.unsent_eq]

theorem InOrder.receive_none (h : InOrder sender done [] unsent c) : c.step .receive = none := by
  have hempty : c.inFlight = [] := List.forall₂_nil_left_iff.1 h.sentAs
  simp only [step, h.failure_eq, hempty]

/-- The messages are received, in flight and unsent, in this order. -/
def Ordered (sender : Process F) (msgs : List AnyMessage) (c : Connection F) : Prop :=
  ∃ done flying unsent, msgs = done ++ flying ++ unsent ∧ InOrder sender done flying unsent c

theorem step_ordered (hmsgs : ∀ msg ∈ msgs, Sendable sender msg) (a : Action)
    (hstep : c.step a = some c') (h : Ordered sender msgs c) : Ordered sender msgs c' := by
  obtain ⟨done, flying, unsent, rfl, h⟩ := h
  cases a with
  | send =>
      cases unsent with
      | nil => simp [h.send_none] at hstep
      | cons msg unsent =>
          obtain ⟨next, hsend, hnext⟩ := h.send (hmsgs msg (by simp))
          obtain rfl := Option.some.inj (hsend.symm.trans hstep)
          exact ⟨done, flying ++ [msg], unsent, by simp, hnext⟩
  | receive =>
      cases flying with
      | nil => simp [h.receive_none] at hstep
      | cons msg flying =>
          obtain ⟨next, hreceive, hnext⟩ := h.receive (fun old hold => hmsgs old (by simp [hold]))
            (hmsgs msg (by simp))
          obtain rfl := Option.some.inj (hreceive.symm.trans hstep)
          exact ⟨done ++ [msg], flying, unsent, by simp, hnext⟩

def remaining (c : Connection F) : Nat :=
  2 * c.unsent.length + c.inFlight.length + if c.failure.isNone then 1 else 0

theorem step_remaining (c : Connection F) (a : Action) (c' : Connection F)
    (hstep : c.step a = some c') : c'.remaining < c.remaining := by
  unfold step at hstep
  cases a with
  | send =>
      dsimp only at hstep
      split at hstep
      · rename_i hfailure hunsent
        split at hstep <;> cases hstep <;> simp [remaining, hfailure, hunsent]
        omega
      · cases hstep
  | receive =>
      dsimp only at hstep
      split at hstep
      · rename_i hfailure hflight _
        split at hstep <;> cases hstep <;> simp [remaining, hfailure, hflight]
      · cases hstep

/-- However the calls interleave, none of them fails, the messages received so
far are the first of those sent, and a run ends, with all of them received. -/
theorem run_receives_sent (sender receiver : Process F) (msgs : List AnyMessage)
    (hmsgs : ∀ msg ∈ msgs, Sendable sender msg) (actions : List Action) (c : Connection F)
    (hrun : run step actions (start sender receiver msgs) = some c) :
    c.failure = none ∧ c.received.map c.receiver.view <+: msgs.map sender.view ∧
      actions.length ≤ 2 * msgs.length ∧
      (Stuck step c → c.received.map c.receiver.view = msgs.map sender.view) := by
  have hlength := run_length_le step_remaining hrun
  obtain ⟨done, flying, unsent, hsplit, h⟩ : Ordered sender msgs c :=
    run_invariant (fun _ a _ hstep => step_ordered hmsgs a hstep) hrun
      ⟨[], [], msgs, rfl, start_inOrder sender receiver msgs⟩
  subst hsplit
  refine ⟨h.failure_eq, ?_, ?_, fun hstuck => ?_⟩
  · rw [h.received_eq, List.append_assoc, List.map_append]
    exact List.prefix_append _ _
  · simp only [remaining, start, h.failure_eq, Option.isNone_none, if_true, List.length_nil]
      at hlength
    omega
  · have hunsent : unsent = [] := by
      cases unsent with
      | nil => rfl
      | cons msg unsent =>
          obtain ⟨next, hsend, -⟩ := h.send (hmsgs msg (by simp))
          simp [hstuck .send] at hsend
    have hflying : flying = [] := by
      cases flying with
      | nil => rfl
      | cons msg flying =>
          obtain ⟨next, hreceive, -⟩ := h.receive (fun old hold => hmsgs old (by simp [hold]))
            (hmsgs msg (by simp))
          simp [hstuck .receive] at hreceive
    rw [h.received_eq, hflying, hunsent, List.append_nil, List.append_nil]

def twoFiles : Process Nat := ⟨[some 7, some 8], ⟨none, none, []⟩, Thread.idle_fresh⟩

def optionalFd (maxFds : Nat) : AnyMessage :=
  let value : BitVec 8 × Option OwnedFd × Unit := (5, some ⟨1⟩, ())
  ⟨⟨.struct (.field (.int .u8) (.field (.option .fd) .noFields)), 8192, maxFds⟩, value⟩

def byteVector : AnyMessage :=
  let value : {l : List (BitVec 8) // l.length < 2 ^ 64} := ⟨[1, 2], by decide⟩
  ⟨⟨.bytes, 8192, 0⟩, value⟩

theorem optionalFd_holds (maxFds : Nat) : twoFiles.Holds (optionalFd maxFds) := by
  intro fd hfd
  obtain rfl : fd = ⟨1⟩ := List.mem_singleton.1 hfd
  rfl

theorem run_receives_sent_two :
    ∃ c, run step [.send, .send, .receive, .receive]
        (start twoFiles .empty [optionalFd 1, byteVector]) = some c ∧
      c.received.map c.receiver.view = [optionalFd 1, byteVector].map twoFiles.view := by
  have hmsgs : ∀ msg ∈ [optionalFd 1, byteVector], Sendable twoFiles msg := by
    intro msg hmem
    rcases List.mem_pair.1 hmem with rfl | rfl
    · exact ⟨optionalFd_holds 1, by decide, by decide⟩
    · exact ⟨fun fd hfd => (by cases hfd), by decide, by decide⟩
  have hrun : run step [.send, .send, .receive, .receive]
      (start twoFiles .empty [optionalFd 1, byteVector]) = some _ := rfl
  have hall := (run_receives_sent twoFiles .empty _ hmsgs _ _ hrun).2.2.2
  exact ⟨_, hrun, hall fun a => by cases a <;> rfl⟩

/-- With `MAX_FDS` at 2^30 the size of the control buffer is computed from zero. -/
theorem run_fails_at_wrapped_max_fds :
    twoFiles.Holds (optionalFd 1073741824) ∧ (optionalFd 1073741824).WithinLimits ∧
      ∃ c, run step [.send, .receive] (start twoFiles .empty [optionalFd 1073741824]) = some c ∧
        c.failure = some (.receive (.ancillaryTruncated 1073741824 16)) :=
  ⟨optionalFd_holds _, by decide, _, rfl, rfl⟩

end Connection

end TereServer.Ipc
