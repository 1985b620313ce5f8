import TereServer.Ipc.HandshakeErrors
import TereServer.Ipc.RoundTrip
import TereServer.Proto.Pty
import TereServer.Proto.PtyUser
import TereServer.Proto.Sessions

/-!
# The declared limits

`MAX_SIZE` and `MAX_FDS` against the messages a sender can build.  Nothing on the
sending side looks at the limits, so what keeps a message below them is the size of
the strings and byte vectors in it.
-/

namespace TereServer.Proto

open Bincode Ipc

/-- A message of some type of the repository. -/
inductive ProtocolMessage (φ : Type)
  | handshake (m : Handshake φ)
  | ptyInit (m : Pty.Init φ)
  | ptyRequest (m : Pty.Request φ)
  | ptyUserInput (m : PtyUser.Input φ)
  | ptyUserOutput (m : PtyUser.Output φ)
  | sessionsRequest (m : Sessions.Request φ)

/-! ## Sizes -/

def optionSize {α : Type} (size : α → Nat) (v : Option α) : Nat := 1 + v.elim 0 size

def stringsSize (l : Vec Str) : Nat := varintSize l.1.length + (l.1.map strSize).sum

def machineSize : Sessions.Machine → Nat
  | .host => 1
  | .container name => 1 + strSize name

def createShellSessionSize {φ : Type} (create : Sessions.CreateShellSession φ) : Nat :=
  machineSize create.machine + strSize create.user + optionSize strSize create.program +
    optionSize stringsSize create.args + optionSize stringsSize create.env

/-- The variable-length parts of a message are short enough for its type. -/
def ProtocolMessage.Short {φ : Type} : ProtocolMessage φ → Prop
  | .handshake m => m.intent.1.utf8ByteSize ≤ 8157
  | .ptyInit _ => True
  | .ptyRequest _ => True
  | .ptyUserInput (.keyboardInput bytes) => bytes.1.length ≤ 8188
  | .ptyUserOutput (.sessionOutput bytes) => bytes.1.length ≤ 8188
  | .sessionsRequest (.createShellSession create) => createShellSessionSize create ≤ 8191

section Sizes

variable {φ : Type}

theorem ptyRequest_size (m : Pty.Request φ) :
    (Serde.message Pty.Request).schema.size (Serde.toVal m) = 2 := by
  obtain ⟨dummy, fd⟩ := m
  rfl

theorem byteVecEnum_size (bytes : Vec (BitVec 8)) :
    PtyUser.byteVecEnum.schema.size (φ := φ) (Sum.inl (bytes, ())) =
      1 + varintSize bytes.1.length + bytes.1.length := by
  have hsize : PtyUser.byteVecEnum.schema.size (φ := φ) (Sum.inl (bytes, ())) =
      1 + (varintSize bytes.1.length + (bytes.1.map (intSize .u8)).sum + 0) := rfl
  rw [hsize, Schema.u8s_size]
  omega

theorem machine_size (m : Sessions.Machine) :
    Sessions.machineSchema.size (φ := φ) m.toVal = machineSize m := by
  cases m with
  | host => rfl
  | container name => rfl

theorem sessionsRequest_size (create : Sessions.CreateShellSession φ) :
    (Serde.message Sessions.Request).schema.size
        (Serde.toVal (Sessions.Request.createShellSession create)) =
      1 + createShellSessionSize create := by
  have hsize : (Serde.message Sessions.Request).schema.size
      (Serde.toVal (Sessions.Request.createShellSession create)) =
      1 + ((0 + (Sessions.machineSchema.size (φ := φ) create.machine.toVal + (strSize create.user +
        (optionSize strSize create.program + (optionSize stringsSize create.args +
          (optionSize stringsSize create.env + 0)))))) + 0) := rfl
  rw [hsize, machine_size, createShellSessionSize]
  omega

theorem byteVec_le_iff (n : Nat) : 1 + varintSize n + n ≤ 8192 ↔ n ≤ 8188 := by
  unfold varintSize
  split
  · omega
  split
  · omega
  split
  · omega
  split
  · omega
  · omega

/-- A message of one byte vector is within its limit when the vector is. -/
theorem byteVecEnum_le_iff (bytes : Vec (BitVec 8)) :
    PtyUser.byteVecEnum.schema.size (φ := φ) (Sum.inl (bytes, ())) ≤ 8192 ↔
      bytes.1.length ≤ 8188 := by
  rw [byteVecEnum_size, byteVec_le_iff]

end Sizes

/-! ## Messages of fixed size -/

theorem receiveAs_of_size {F : Type} {T : Type → Type} [Serde T] {m : T F}
    (hpos : 1 ≤ (Serde.message T).schema.size (Serde.toVal m))
    (hle : (Serde.message T).schema.size (Serde.toVal m) ≤ (Serde.message T).maxSize)
    (hfits : (Packet.of m).Fits libcCmsgSpace (Serde.message T)) :
    (Packet.of m).receiveAs T = .ok m := by
  have hlength : (Packet.of m).payload.length =
      (Serde.message T).schema.size (Serde.toVal m) := Schema.encode_length _ _
  rw [← hlength] at hpos hle
  exact Packet.receiveAs_of_eq_ok.2 ⟨⟨hpos, hle⟩, hfits, rfl⟩

theorem ptyInit_received {F : Type} (dummy : BitVec 8) (pty : F) :
    (Packet.of (⟨dummy, pty⟩ : Pty.Init F)).receiveAs Pty.Init = .ok ⟨dummy, pty⟩ :=
  receiveAs_of_size (Nat.le_refl 1) (Nat.le_refl 1)
    (Process.fits_of_space (by decide) (by decide) (Nat.le_refl 1))

theorem newClient_received {F : Type} (dummy : BitVec 8) (fd : F) :
    (Packet.of (Pty.Request.newClient dummy fd)).receiveAs Pty.Request =
      .ok (.newClient dummy fd) := by
  have hsize := ptyRequest_size (Pty.Request.newClient dummy fd)
  have hpos : 1 ≤ 2 := by decide
  have hle : 2 ≤ 8192 := by decide
  apply receiveAs_of_size
  · rw [hsize]
    exact hpos
  · rw [hsize]
    exact hle
  · exact Process.fits_of_space (by decide) (by decide) (Nat.le_refl 1)

/-! ## Messages of one byte vector -/

theorem byteVecEnum_fits {F : Type} (v : PtyUser.byteVecEnum.Val F) :
    (Packet.ofMessage PtyUser.byteVecEnum v).Fits libcCmsgSpace PtyUser.byteVecEnum := by
  have hfiles : (Packet.ofMessage PtyUser.byteVecEnum v).files.length ≤ 0 :=
    Schema.fds_length_le _ rfl _
  exact Process.fits_of_space (by decide) (by decide) hfiles

theorem byteVecEnum_sized {F : Type} {bytes : Vec (BitVec 8)} (h : bytes.1.length ≤ 8188) :
    1 ≤ PtyUser.byteVecEnum.schema.size (φ := F) (Sum.inl (bytes, ())) ∧
      PtyUser.byteVecEnum.schema.size (φ := F) (Sum.inl (bytes, ())) ≤ 8192 := by
  refine ⟨?_, (byteVecEnum_le_iff bytes).2 h⟩
  rw [byteVecEnum_size]
  omega

theorem keyboardInput_received {F : Type} {bytes : Vec (BitVec 8)} (h : bytes.1.length ≤ 8188) :
    (Packet.of (PtyUser.Input.keyboardInput bytes : PtyUser.Input F)).receiveAs PtyUser.Input =
      .ok (.keyboardInput bytes) := by
  obtain ⟨hpos, hle⟩ := byteVecEnum_sized (F := F) h
  exact receiveAs_of_size hpos hle (byteVecEnum_fits _)

theorem sessionOutput_received {F : Type} {bytes : Vec (BitVec 8)} (h : bytes.1.length ≤ 8188) :
    (Packet.of (PtyUser.Output.sessionOutput bytes : PtyUser.Output F)).receiveAs PtyUser.Output =
      .ok (.sessionOutput bytes) := by
  obtain ⟨hpos, hle⟩ := byteVecEnum_sized (F := F) h
  exact receiveAs_of_size hpos hle (byteVecEnum_fits _)

/-! ## Messages of any type -/

def ProtocolMessage.toAny : ProtocolMessage OwnedFd → AnyMessage
  | .handshake m => ⟨Serde.message Handshake, Serde.toVal m⟩
  | .ptyInit m => ⟨Serde.message Pty.Init, Serde.toVal m⟩
  | .ptyRequest m => ⟨Serde.message Pty.Request, Serde.toVal m⟩
  | .ptyUserInput m => ⟨Serde.message PtyUser.Input, Serde.toVal m⟩
  | .ptyUserOutput m => ⟨Serde.message PtyUser.Output, Serde.toVal m⟩
  | .sessionsRequest m => ⟨Serde.message Sessions.Request, Serde.toVal m⟩

/-- The encoding fits `MAX_SIZE` exactly when the message is short. -/
theorem ProtocolMessage.encode_le_iff (msg : ProtocolMessage OwnedFd) :
    (msg.toAny.1.schema.encode msg.toAny.2).length ≤ msg.toAny.1.maxSize ↔ msg.Short := by
  rw [Schema.encode_length]
  cases msg with
  | handshake m =>
      have hsize := handshake_size m
      have hiff := strSize_le_iff m.intent
      rw [← hsize] at hiff
      exact hiff
  | ptyInit m => exact iff_of_true (Nat.le_refl 1) trivial
  | ptyRequest m =>
      have hsize := ptyRequest_size m
      have hle : 2 ≤ 8192 := by decide
      exact iff_of_true (hsize.trans_le hle) trivial
  | ptyUserInput m =>
      obtain ⟨bytes⟩ := m
      exact byteVecEnum_le_iff bytes
  | ptyUserOutput m =>
      obtain ⟨bytes⟩ := m
      exact byteVecEnum_le_iff bytes
  | sessionsRequest m =>
      obtain ⟨create⟩ := m
      have hsize := sessionsRequest_size create
      have hiff : 1 + createShellSessionSize create ≤ 8192 ↔
          createShellSessionSize create ≤ 8191 := by omega
      rw [← hsize] at hiff
      exact hiff

theorem ProtocolMessage.fds_le (msg : ProtocolMessage OwnedFd) :
    (msg.toAny.1.schema.fds msg.toAny.2).length ≤ msg.toAny.1.maxFds := by
  apply Schema.fds_length_le
  cases msg <;> rfl

theorem ProtocolMessage.maxFds_eq (msg : ProtocolMessage OwnedFd) :
    msg.toAny.1.maxFds = 0 ∨ msg.toAny.1.maxFds = 1 := by
  cases msg with
  | handshake m => exact .inl rfl
  | ptyInit m => exact .inr rfl
  | ptyRequest m => exact .inr rfl
  | ptyUserInput m => exact .inl rfl
  | ptyUserOutput m => exact .inl rfl
  | sessionsRequest m => exact .inr rfl

/-- The control buffer of every type has room for its fds. -/
theorem ProtocolMessage.fits {F : Type} {msg : ProtocolMessage OwnedFd} {pkt : Packet F}
    (h : pkt.files.length ≤ msg.toAny.1.maxFds) : pkt.Fits libcCmsgSpace msg.toAny.1 := by
  rcases msg.maxFds_eq with hmax | hmax
  · exact Process.fits_of_space (hmax ▸ by decide) (hmax ▸ by decide) h
  · exact Process.fits_of_space (hmax ▸ by decide) (hmax ▸ by decide) h

/-- Only the fds of a message decide whether it can be sent. -/
theorem ProtocolMessage.sends {F : Type} {p : Process F} {msg : ProtocolMessage OwnedFd}
    (hholds : p.Holds msg.toAny) :
    ∃ pkt, p.sendWithFds libcCmsgSpace msg.toAny.1 msg.toAny.2 = some (.ok pkt, p) := by
  have hcount : 4 * (msg.toAny.1.schema.fds msg.toAny.2).length < 2 ^ 32 := by
    have hle := msg.fds_le
    have hmax := msg.maxFds_eq
    omega
  obtain ⟨pkt, hsend, -⟩ : ∃ pkt, p.sendWithFds libcCmsgSpace msg.toAny.1 msg.toAny.2 =
      some (.ok pkt, p) ∧ SentAs p msg.toAny pkt := Process.sendWithFds_eq_ok hholds hcount
  exact ⟨pkt, hsend⟩

/-- The limits of its type are true of a message, and the receiver of its packet
does not say otherwise. -/
def LimitsHold {F : Type} (msg : ProtocolMessage OwnedFd) (pkt : Packet F) : Prop :=
  (msg.toAny.1.schema.encode msg.toAny.2).length ≤ msg.toAny.1.maxSize ∧
    (msg.toAny.1.schema.fds msg.toAny.2).length ≤ msg.toAny.1.maxFds ∧
    ∀ peer : Process F,
      (peer.receiveWithFds libcCmsgSpace msg.toAny.1 pkt).1 ≠ .error .tooLarge ∧
        ∀ maxFds bytesCap, (peer.receiveWithFds libcCmsgSpace msg.toAny.1 pkt).1 ≠
          .error (.ancillaryTruncated maxFds bytesCap)

/-- A message that was sent is within the limits exactly when it is short. -/
theorem limits_hold_iff_short {F : Type} (p p' : Process F) (msg : ProtocolMessage OwnedFd)
    (pkt : Packet F)
    (hsend : p.sendWithFds libcCmsgSpace msg.toAny.1 msg.toAny.2 = some (.ok pkt, p')) :
    LimitsHold msg pkt ↔ msg.Short := by
  have hsent : SentAs p msg.toAny pkt := Process.sendWithFds_sentAs hsend
  have hfiles : pkt.files.length ≤ msg.toAny.1.maxFds := by
    have hlength := congrArg List.length hsent.2
    rw [List.length_map, List.length_map] at hlength
    rw [← hlength]
    exact msg.fds_le
  constructor
  · intro h
    exact msg.encode_le_iff.1 h.1
  · intro hshort
    have hsize := msg.encode_le_iff.2 hshort
    refine ⟨hsize, msg.fds_le, fun peer => ⟨?_, fun maxFds bytesCap => ?_⟩⟩
    · rw [Ne, Process.receiveWithFds_tooLarge, hsent.1]
      exact Nat.not_lt.2 hsize
    · exact Process.receiveWithFds_not_truncated (ProtocolMessage.fits hfiles) maxFds bytesCap

/-- A client of a process with two open files. -/
def newClient : ProtocolMessage OwnedFd := .ptyRequest (.newClient 0 ⟨1⟩)

theorem newClient_holds : Connection.twoFiles.Holds newClient.toAny := by
  intro fd hfd
  obtain rfl : fd = ⟨1⟩ := List.mem_singleton.1 hfd
  rfl

theorem limits_hold_newClient :
    ∃ pkt, Connection.twoFiles.sendWithFds libcCmsgSpace newClient.toAny.1 newClient.toAny.2 =
        some (.ok pkt, Connection.twoFiles) ∧ LimitsHold newClient pkt := by
  obtain ⟨pkt, hsend⟩ := ProtocolMessage.sends newClient_holds
  exact ⟨pkt, hsend, (limits_hold_iff_short _ _ newClient pkt hsend).2 trivial⟩

theorem pasted_length : (List.replicate 8189 (0 : BitVec 8)).length < 2 ^ 64 := by
  rw [List.length_replicate]
  decide

/-- One byte more than the limit leaves room for. -/
def pasted : ProtocolMessage OwnedFd :=
  .ptyUserInput (.keyboardInput ⟨List.replicate 8189 0, pasted_length⟩)

theorem pasted_holds : Connection.twoFiles.Holds pasted.toAny := by
  intro fd hfd
  have hnone : pasted.toAny.1.schema.fds pasted.toAny.2 = [] :=
    List.length_eq_zero_iff.1 (Nat.le_zero.1 pasted.fds_le)
  rw [hnone] at hfd
  cases hfd

/-- A long text is sent in one message, which its receiver finds too large. -/
theorem pasted_exceeds_limits :
    ∃ pkt, Connection.twoFiles.sendWithFds libcCmsgSpace pasted.toAny.1 pasted.toAny.2 =
        some (.ok pkt, Connection.twoFiles) ∧ ¬ LimitsHold pasted pkt := by
  obtain ⟨pkt, hsend⟩ := ProtocolMessage.sends pasted_holds
  refine ⟨pkt, hsend, fun hlimits => ?_⟩
  have hshort : (List.replicate 8189 (0 : BitVec 8)).length ≤ 8188 :=
    pasted.encode_le_iff.1 hlimits.1
  rw [List.length_replicate] at hshort
  exact absurd hshort (by decide)

end TereServer.Proto
