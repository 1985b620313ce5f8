import TereServer.Ipc.Ownership

/-!
# The packets a receive accepts

`Process.receiveWithFds` returns raw fds of the receiving process,
`Packet.receive` the open files themselves.  They agree: looking every fd of the
result up in the table of the receiver gives the result on the packet.
-/

namespace TereServer.Ipc

open Lib Bincode

def RecvMsg.map {φ ψ : Type} (f : φ → ψ) (msg : RecvMsg φ) : RecvMsg ψ where
  encoded := msg.encoded
  size := msg.size
  truncated := msg.truncated
  messages := msg.messages.map fun
    | .error e => .error e
    | .ok (.scmRights fds) => .ok (.scmRights (fds.map f))
    | .ok .scmCredentials => .ok .scmCredentials
  ancillaryTruncated := msg.ancillaryTruncated
  ancillaryCapacity := msg.ancillaryCapacity

def Thread.map {φ ψ : Type} (f : φ → ψ) (th : Thread φ) : Thread ψ :=
  ⟨th.oobSer, th.oobDe.map (List.map f), th.closed.map f⟩

section Relabel

variable {F φ ψ : Type} (f : φ → ψ)

theorem recvmsg_map (bufLen bytesCap : Nat) (pkt : Packet F) (delivered : List φ) :
    (recvmsg bufLen bytesCap pkt delivered).map f =
      recvmsg bufLen bytesCap pkt (delivered.map f) := by
  cases delivered <;> simp [recvmsg, RecvMsg.map]

theorem SeqPacket.ancillaryFds_map (msg : RecvMsg φ) :
    ancillaryFds (msg.map f).messages = (ancillaryFds msg.messages).map f := by
  unfold ancillaryFds RecvMsg.map
  generalize msg.messages = messages
  induction messages with
  | nil => rfl
  | cons cmsg messages ih =>
      rcases cmsg with ⟨_, _⟩ | ⟨rights⟩ | _
      · simpa using ih
      · simpa using ih
      · simpa using ih

theorem Thread.close_map (th : Thread φ) (fds : List φ) :
    (th.map f).close (fds.map f) = (th.close fds).map f := by
  simp [Thread.map, Thread.close]

theorem PassFd.decodeMessage_map (s : Schema .value) (encoded : Bytes) (th : Thread φ) :
    decodeMessage s encoded (th.map f) =
      ((decodeMessage s encoded th).1.map (s.map f), (decodeMessage s encoded th).2.map f) := by
  have h := s.deserialize_relabels f (deserialize_relabels f) ⟨encoded, th.oobDe, th.closed⟩
  simp only [Source.map] at h
  simp only [decodeMessage, Thread.map, h]

theorem PassFd.scatter_map {R S : Type} {g : R → S} {de : Thread φ → R × Thread φ}
    {de' : Thread ψ → S × Thread ψ} (h : ∀ th, de' (th.map f) = (g (de th).1, (de th).2.map f))
    (fds : List φ) (th : Thread φ) :
    scatterFdsFromVecDeque (fds.map f) de' (th.map f) =
      (g (scatterFdsFromVecDeque fds de th).1, (scatterFdsFromVecDeque fds de th).2.1.map f,
        (scatterFdsFromVecDeque fds de th).2.2.map f) := by
  obtain ⟨oobSer, oobDe, closed⟩ := th
  have hde := h ⟨oobSer, some fds, closed ++ oobDe.getD []⟩
  have hstart : Thread.map f ⟨oobSer, some fds, closed ++ oobDe.getD []⟩ =
      ⟨oobSer, some (fds.map f), closed.map f ++ (oobDe.map (List.map f)).getD []⟩ := by
    cases oobDe <;> simp [Thread.map]
  rw [hstart] at hde
  simp only [scatterFdsFromVecDeque, Thread.close, Thread.map, hde]
  rcases de ⟨oobSer, some fds, closed ++ oobDe.getD []⟩ with ⟨r, ser, slot, closed'⟩
  cases slot <;> rfl

/-- The code behind `recvmsg` does not look at the fds. -/
theorem SeqPacket.receiveWithFds_relabels (M : Message) (msg : RecvMsg φ) :
    Eff.Relabels (Thread.map f) (M.schema.map f) (receiveWithFds M msg)
      (receiveWithFds M (msg.map f)) := by
  intro th
  have hscatter := PassFd.scatter_map f (PassFd.decodeMessage_map f M.schema
    (msg.encoded.take msg.size)) (ancillaryFds msg.messages) th
  have hfds := ancillaryFds_map f msg
  simp only [RecvMsg.map] at hfds
  simp only [receiveWithFds, RecvMsg.map, hfds, hscatter]
  by_cases htruncated : msg.truncated = true
  · simp only [if_pos htruncated, Except.map]
  by_cases hsize : msg.size = 0
  · simp only [if_neg htruncated, if_pos hsize, Except.map]
  by_cases hancillary : msg.ancillaryTruncated = true
  · simp only [if_neg htruncated, if_neg hsize, if_pos hancillary, Except.map, Thread.close_map]
  simp only [if_neg htruncated, if_neg hsize, if_neg hancillary]
  rcases PassFd.scatterFdsFromVecDeque (ancillaryFds msg.messages)
    (PassFd.decodeMessage M.schema (msg.encoded.take msg.size)) th with ⟨e | m, left, th'⟩
  · simp only [Except.map, Thread.close_map]
  · simp only [Except.map, List.length_map, Schema.fds_map, Thread.close_map]
    by_cases hleft : left.length ≠ 0
    · simp only [if_pos hleft]
    · simp only [if_neg hleft]

end Relabel

/-! ## Processes and packets -/

namespace Packet

variable {F : Type} {cmsgSpace : Nat → Nat} {M : Message} {pkt : Packet F}

/-- All the files of the packet fit in the control buffer of the receiver. -/
def Fits (cmsgSpace : Nat → Nat) (M : Message) (pkt : Packet F) : Prop :=
  pkt.files.length ≤ controlCapacity (SeqPacket.ancillarySize cmsgSpace M)

theorem delivered_eq : (pkt.files.take (controlCapacity (SeqPacket.ancillarySize cmsgSpace M))).length =
    pkt.files.length ↔ pkt.Fits cmsgSpace M := by
  simp only [Fits, List.length_take]
  omega

theorem receive_eq_ok {m : M.Val F} :
    pkt.receive cmsgSpace M = .ok m ↔
      pkt.Sized M ∧ pkt.Fits cmsgSpace M ∧ M.schema.Layout m pkt.payload ∧
        pkt.files = M.schema.fds m := by
  have hidle : (⟨none, none, []⟩ : Thread F).Idle := Thread.idle_fresh
  have hle : (pkt.files.take (controlCapacity
      (SeqPacket.ancillarySize cmsgSpace M))).length ≤ pkt.files.length := by
    simp only [List.length_take]
    omega
  constructor
  · intro h
    obtain ⟨hsized, hlength, hlayout, hfds, -⟩ :=
      (SeqPacket.receiveWithFds_eq_ok hidle hle).1 (Prod.ext h rfl)
    have hfits : pkt.Fits cmsgSpace M := delivered_eq.1 hlength
    rw [List.take_of_length_le hfits] at hfds
    exact ⟨hsized, hfits, hlayout, hfds⟩
  · rintro ⟨hsized, hfits, hlayout, hfds⟩
    have h : SeqPacket.receiveWithFds M (recvmsg M.maxSize (SeqPacket.ancillarySize cmsgSpace M)
        pkt (pkt.files.take (controlCapacity (SeqPacket.ancillarySize cmsgSpace M))))
        ⟨none, none, []⟩ = (.ok m, ⟨none, none, []⟩) :=
      (SeqPacket.receiveWithFds_eq_ok hidle hle).2
        ⟨hsized, delivered_eq.2 hfits, hlayout, (List.take_of_length_le hfits).trans hfds, rfl⟩
    exact congrArg Prod.fst h

/-! ## Packets at a message type -/

variable {T : Type → Type} [Serde T]

theorem receiveAs_eq_ok {m : T F} :
    pkt.receiveAs T = .ok m ↔
      pkt.Sized (Serde.message T) ∧ pkt.Fits libcCmsgSpace (Serde.message T) ∧
        (Serde.message T).schema.Layout (Serde.toVal m) pkt.payload ∧
        pkt.files = (Serde.message T).schema.fds (Serde.toVal m) := by
  rw [← receive_eq_ok, receiveAs]
  cases hr : pkt.receive libcCmsgSpace (Serde.message T) with
  | error e => simp [Except.map]
  | ok v =>
      simp only [Except.map, Except.ok.injEq]
      constructor
      · rintro rfl
        exact (Serde.toVal_ofVal v).symm
      · rintro rfl
        exact Serde.ofVal_toVal m

/-- A packet made from a message is received as that message, if at all. -/
theorem receiveAs_of_eq_ok {m m' : T F} :
    (of m).receiveAs T = .ok m' ↔
      (of m).Sized (Serde.message T) ∧ (of m).Fits libcCmsgSpace (Serde.message T) ∧ m' = m := by
  have hself (hsized : (of m).Sized (Serde.message T))
      (hfits : (of m).Fits libcCmsgSpace (Serde.message T)) : (of m).receiveAs T = .ok m :=
    receiveAs_eq_ok.2 ⟨hsized, hfits, Schema.layout_encode _ _, rfl⟩
  constructor
  · intro h
    obtain ⟨hsized, hfits, -, -⟩ := receiveAs_eq_ok.1 h
    rw [hself hsized hfits] at h
    exact ⟨hsized, hfits, (Except.ok.inj h).symm⟩
  · rintro ⟨hsized, hfits, rfl⟩
    exact hself hsized hfits

/-- What `recvmsg` hands over once the peer has closed the connection. -/
def closed : Packet F := ⟨[], []⟩

@[simp] theorem receiveAs_closed : (closed : Packet F).receiveAs T = .error .endOfStream := by
  have hempty : ¬ (closed : Packet F).Sized (Serde.message T) :=
    fun h => Nat.not_succ_le_zero 0 h.1
  simp only [receiveAs, receive, SeqPacket.receiveWithFds_of_not_sized hempty]
  rfl

end Packet

namespace Process

variable {F : Type} {cmsgSpace : Nat → Nat} {M : Message} {pkt : Packet F}

theorem receiveWithFds_eq_ok {p : Process F} {m : M.Val OwnedFd} :
    (p.receiveWithFds cmsgSpace M pkt).1 = .ok m ↔
      pkt.Sized M ∧ pkt.Fits cmsgSpace M ∧ M.schema.Layout m pkt.payload ∧
        (p.install cmsgSpace M pkt).1.map OwnedFd.mk = M.schema.fds m := by
  have hidle : p.thread.slots.Idle := p.idle
  have hle := p.install_length_le cmsgSpace M pkt
  have hlength : ((p.install cmsgSpace M pkt).1.map OwnedFd.mk).length = pkt.files.length ↔
      pkt.Fits cmsgSpace M := by
    rw [← Packet.delivered_eq]
    simp [install]
  constructor
  · intro h
    obtain ⟨hsized, hdelivered, hlayout, hfds, -⟩ :=
      (SeqPacket.receiveWithFds_eq_ok hidle hle).1 (Prod.ext h rfl)
    exact ⟨hsized, hlength.1 hdelivered, hlayout, hfds⟩
  · rintro ⟨hsized, hfits, hlayout, hfds⟩
    have h : SeqPacket.receiveWithFds M (recvmsg M.maxSize (SeqPacket.ancillarySize cmsgSpace M)
        pkt ((p.install cmsgSpace M pkt).1.map OwnedFd.mk)) p.thread.slots =
          (.ok m, p.thread.slots) :=
      (SeqPacket.receiveWithFds_eq_ok hidle hle).2
        ⟨hsized, hlength.2 hfits, hlayout, hfds, rfl⟩
    exact congrArg Prod.fst h

/-- An accepted packet leaves the table as the kernel made it, and closes
nothing. -/
theorem receiveWithFds_table {p : Process F} {m : M.Val OwnedFd}
    (h : (p.receiveWithFds cmsgSpace M pkt).1 = .ok m) :
    (p.receiveWithFds cmsgSpace M pkt).2.table = (p.install cmsgSpace M pkt).2 ∧
      (p.receiveWithFds cmsgSpace M pkt).2.thread.closed = p.thread.closed := by
  have hidle : p.thread.slots.Idle := p.idle
  obtain ⟨-, -, -, -, hthread⟩ :=
    (SeqPacket.receiveWithFds_eq_ok hidle (p.install_length_le cmsgSpace M pkt)).1 (Prod.ext h rfl)
  constructor
  · simp only [receiveWithFds, hthread]
    rfl
  · simp only [receiveWithFds, hthread, Thread.slots_closed, List.append_nil]

/-- The fds of an accepted message refer to the files of the packet, in
traversal order. -/
theorem receiveWithFds_files {p : Process F} {m : M.Val OwnedFd}
    (h : (p.receiveWithFds cmsgSpace M pkt).1 = .ok m) :
    (M.schema.fds m).map (p.receiveWithFds cmsgSpace M pkt).2.file = pkt.files.map some := by
  obtain ⟨-, hfits, -, hfds⟩ := receiveWithFds_eq_ok.1 h
  obtain ⟨htable, -⟩ := receiveWithFds_table h
  have hinstall : p.install cmsgSpace M pkt = FdTable.installAll pkt.files p.table := by
    rw [install, List.take_of_length_le hfits]
  rw [← hfds, List.map_map, hinstall, ← FdTable.installAll_get pkt.files p.table]
  refine List.map_congr_left fun fd _ => ?_
  simp only [Function.comp, file, htable, hinstall]

/-- The verdict on a packet does not depend on the process, and the files behind
the returned fds are those of `Packet.receive`. -/
theorem receiveWithFds_eq_receive (p : Process F) :
    (p.receiveWithFds cmsgSpace M pkt).1.map
        (M.schema.map fun fd => (p.install cmsgSpace M pkt).2.get fd.raw) =
      (pkt.receive cmsgSpace M).map (M.schema.map some) := by
  obtain ⟨hser, hde⟩ := p.idle
  have hslots : p.thread.slots = ⟨none, none, []⟩ := by
    simp [Thread.slots, hser, hde]
  have hget : ((p.install cmsgSpace M pkt).1.map OwnedFd.mk).map
      (fun fd => (p.install cmsgSpace M pkt).2.get fd.raw) =
        (pkt.files.take (controlCapacity (SeqPacket.ancillarySize cmsgSpace M))).map some := by
    rw [List.map_map]
    exact FdTable.installAll_get _ _
  have hraw := SeqPacket.receiveWithFds_relabels
    (fun fd : OwnedFd => (p.install cmsgSpace M pkt).2.get fd.raw) M
    (recvmsg M.maxSize (SeqPacket.ancillarySize cmsgSpace M) pkt
      ((p.install cmsgSpace M pkt).1.map OwnedFd.mk)) ⟨none, none, []⟩
  have hfile := SeqPacket.receiveWithFds_relabels (some (α := F)) M
    (recvmsg M.maxSize (SeqPacket.ancillarySize cmsgSpace M) pkt
      (pkt.files.take (controlCapacity (SeqPacket.ancillarySize cmsgSpace M)))) ⟨none, none, []⟩
  rw [recvmsg_map, hget] at hraw
  rw [recvmsg_map] at hfile
  have h := congrArg Prod.fst (hraw.symm.trans hfile)
  simpa only [receiveWithFds, Packet.receive, hslots] using h

/-! ## Well-formed packets -/

/-- The shape of the returned message is decided by the payload and the number of
files alone. -/
theorem receiveWithFds_shape {p : Process F} {shape : M.Val Unit} :
    (∃ m, (p.receiveWithFds cmsgSpace M pkt).1 = .ok m ∧
        M.schema.shape m = shape) ↔
      pkt.Sized M ∧ pkt.Fits cmsgSpace M ∧ M.schema.Layout shape pkt.payload ∧
        (M.schema.fds shape).length = pkt.files.length := by
  constructor
  · rintro ⟨m, hm, rfl⟩
    obtain ⟨hsized, hfits, hlayout, hfds⟩ := receiveWithFds_eq_ok.1 hm
    refine ⟨hsized, hfits, (M.schema.layout_map _ m _).2 hlayout, ?_⟩
    rw [Schema.fds_map, ← hfds, List.length_map, List.length_map, install,
      FdTable.installAll_length, List.take_of_length_le hfits]
  · rintro ⟨hsized, hfits, hlayout, hlength⟩
    have hinstall : (p.install cmsgSpace M pkt).1.length = pkt.files.length := by
      rw [install, FdTable.installAll_length, List.take_of_length_le hfits]
    have hunits : ((p.install cmsgSpace M pkt).1.map OwnedFd.mk).map (fun _ => ()) =
        M.schema.fds shape := by
      refine List.ext_getElem (by simp only [List.length_map, hinstall, hlength]) fun _ _ _ => rfl
    have hrun : SeqPacket.receiveWithFds M (recvmsg M.maxSize (SeqPacket.ancillarySize cmsgSpace M)
        pkt (M.schema.fds shape)) (p.thread.slots.map fun _ => ()) =
          (.ok shape, p.thread.slots.map fun _ => ()) := by
      have hidle : (p.thread.slots.map fun _ => ()).Idle := ⟨p.idle.1, by
        simp [Thread.map, Thread.slots, p.idle.2]⟩
      exact (SeqPacket.receiveWithFds_eq_ok hidle hlength.le).2
        ⟨hsized, hlength, hlayout, rfl, rfl⟩
    have hrelabel := SeqPacket.receiveWithFds_relabels (fun _ : OwnedFd => ()) M
      (recvmsg M.maxSize (SeqPacket.ancillarySize cmsgSpace M) pkt
        ((p.install cmsgSpace M pkt).1.map OwnedFd.mk)) p.thread.slots
    rw [recvmsg_map, hunits, hrun] at hrelabel
    have hmap : .ok shape = (p.receiveWithFds cmsgSpace M pkt).1.map
        (M.schema.map fun _ : OwnedFd => ()) := congrArg Prod.fst hrelabel
    rcases hr : (p.receiveWithFds cmsgSpace M pkt).1 with e | m
    · rw [hr] at hmap
      cases hmap
    · rw [hr] at hmap
      exact ⟨m, rfl, (Except.ok.inj hmap).symm⟩

/-- When every file fits, the control data is not cut off. -/
theorem receiveWithFds_not_truncated {p : Process F} (hfits : pkt.Fits cmsgSpace M)
    (maxFds bytesCap : Nat) :
    (p.receiveWithFds cmsgSpace M pkt).1 ≠ .error (.ancillaryTruncated maxFds bytesCap) := by
  have hlength : ¬ ((p.install cmsgSpace M pkt).1.map OwnedFd.mk).length < pkt.files.length := by
    rw [List.length_map, install, FdTable.installAll_length, List.take_of_length_le hfits]
    omega
  by_cases hsized : pkt.Sized M
  · simp only [receiveWithFds, SeqPacket.receiveWithFds_of_sized hsized, if_neg hlength]
    split
    · simp
    split <;> simp
  · simp only [receiveWithFds, SeqPacket.receiveWithFds_of_not_sized hsized]
    split <;> simp

/-- Only the size of the payload makes a packet too large. -/
theorem receiveWithFds_tooLarge {p : Process F} :
    (p.receiveWithFds cmsgSpace M pkt).1 = .error .tooLarge ↔ M.maxSize < pkt.payload.length := by
  by_cases hsized : pkt.Sized M
  · have hle := hsized.2
    refine iff_of_false ?_ (by omega)
    simp only [receiveWithFds, SeqPacket.receiveWithFds_of_sized hsized]
    split
    · simp
    split
    · simp
    split <;> simp
  · simp only [receiveWithFds, SeqPacket.receiveWithFds_of_not_sized hsized]
    split
    · rename_i hlong
      exact iff_of_true rfl hlong
    · rename_i hshort
      exact iff_of_false (by simp) hshort

theorem fits_of_space (hcast : 4 * M.maxFds < 2 ^ 32)
    (hspace : cmsgSpace (4 * M.maxFds) = cmsgAlign (4 * M.maxFds) + 16)
    (hle : pkt.files.length ≤ M.maxFds) : pkt.Fits cmsgSpace M := by
  unfold Packet.Fits SeqPacket.ancillarySize controlCapacity
  rw [Nat.mod_eq_of_lt hcast, hspace]
  unfold cmsgAlign
  split <;> omega

/-- A receive returns exactly the messages that the payload of a well-formed
packet stands for, with the fds of the packet in traversal order.  The shape of
a message is the message without its fds. -/
theorem receiveWithFds_accepts_iff (cmsgSpace : Nat → Nat) (M : Message) (pkt : Packet F)
    (p : Process F) (hcast : 4 * M.maxFds < 2 ^ 32)
    (hspace : cmsgSpace (4 * M.maxFds) = cmsgAlign (4 * M.maxFds) + 16)
    (hfds : ∀ shape : M.Val Unit, (M.schema.fds shape).length ≤ M.maxFds) :
    (∀ shape : M.Val Unit,
      (∃ m, (p.receiveWithFds cmsgSpace M pkt).1 = .ok m ∧
          M.schema.shape m = shape) ↔
        1 ≤ pkt.payload.length ∧ pkt.payload.length ≤ M.maxSize ∧
          M.schema.Layout shape pkt.payload ∧
          (M.schema.fds shape).length = pkt.files.length) ∧
    (∀ m, (p.receiveWithFds cmsgSpace M pkt).1 = .ok m →
      (M.schema.fds m).map (p.receiveWithFds cmsgSpace M pkt).2.file = pkt.files.map some) ∧
    (pkt.files.length ≤ M.maxFds → ∀ maxFds bytesCap,
      (p.receiveWithFds cmsgSpace M pkt).1 ≠ .error (.ancillaryTruncated maxFds bytesCap)) ∧
    (M.maxFds < pkt.files.length → ∀ m, (p.receiveWithFds cmsgSpace M pkt).1 ≠ .ok m) := by
  have hfits (hle : pkt.files.length ≤ M.maxFds) : pkt.Fits cmsgSpace M :=
    fits_of_space hcast hspace hle
  refine ⟨fun shape => ?_, fun m => receiveWithFds_files, fun hle => ?_, fun hlt m hm => ?_⟩
  · rw [receiveWithFds_shape, Packet.Sized, and_assoc]
    refine and_congr_right fun _ => and_congr_right fun _ => ?_
    refine ⟨And.right, fun h => ⟨hfits ?_, h⟩⟩
    exact h.2 ▸ hfds shape
  · exact receiveWithFds_not_truncated (hfits hle)
  · obtain ⟨-, -, -, hlength⟩ := receiveWithFds_shape.1 ⟨m, hm, rfl⟩
    have := hfds (M.schema.shape m)
    omega

/-- A greeting and two files; the limit of three fds is odd. -/
def dummyMessage : Message :=
  ⟨.struct (.field .string (.field .fd (.field .fd .noFields))), 4000, 3⟩

def dummyShape : dummyMessage.Val Unit :=
  let value : Str × Unit × Unit × Unit := (⟨"hi", by decide⟩, (), (), ())
  value

theorem receiveWithFds_accepts_dummy :
    ∃ m, ((empty : Process Nat).receiveWithFds libcCmsgSpace dummyMessage
        ⟨[2, 104, 105], [7, 8]⟩).1 = .ok m ∧ dummyMessage.schema.shape m = dummyShape := by
  have hlayout : dummyMessage.schema.Layout dummyShape [2, 104, 105] :=
    dummyMessage.schema.layout_encode dummyShape
  have haccepts := (receiveWithFds_accepts_iff libcCmsgSpace dummyMessage ⟨[2, 104, 105], [7, 8]⟩
    (empty : Process Nat) (by decide) (by decide) (fun _ => Nat.le_succ 2)).1 dummyShape
  exact haccepts.2 ⟨by decide, by decide, hlayout, rfl⟩

end Process

end TereServer.Ipc
