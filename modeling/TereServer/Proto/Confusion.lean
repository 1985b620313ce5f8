import TereServer.Bincode.Canonical
import TereServer.Proto.Limits

/-!
# Messages taken for those of another type

A packet does not say which type of message it is.  What keeps the types apart is
whether an fd is passed, how long the payload is, and the length at the front of a
handshake.
-/

namespace TereServer.Proto

open Bincode Ipc

inductive MessageType
  | handshake
  | ptyInit
  | ptyRequest
  | ptyUserInput
  | ptyUserOutput
  | sessionsRequest
  deriving DecidableEq

def MessageType.message : MessageType → Message
  | .handshake => Serde.message Handshake
  | .ptyInit => Serde.message Pty.Init
  | .ptyRequest => Serde.message Pty.Request
  | .ptyUserInput => Serde.message PtyUser.Input
  | .ptyUserOutput => Serde.message PtyUser.Output
  | .sessionsRequest => Serde.message Sessions.Request

/-- A receiver that waits for a message of the type gets one. -/
def MessageType.Accepts {F : Type} : MessageType → Packet F → Prop
  | .handshake, pkt => ∃ m, pkt.receiveAs Handshake = .ok m
  | .ptyInit, pkt => ∃ m, pkt.receiveAs Pty.Init = .ok m
  | .ptyRequest, pkt => ∃ m, pkt.receiveAs Pty.Request = .ok m
  | .ptyUserInput, pkt => ∃ m, pkt.receiveAs PtyUser.Input = .ok m
  | .ptyUserOutput, pkt => ∃ m, pkt.receiveAs PtyUser.Output = .ok m
  | .sessionsRequest, pkt => ∃ m, pkt.receiveAs Sessions.Request = .ok m

/-- Messages of the type pass an fd. -/
def MessageType.passesFd : MessageType → Bool
  | .handshake => false
  | .ptyInit => true
  | .ptyRequest => true
  | .ptyUserInput => false
  | .ptyUserOutput => false
  | .sessionsRequest => true

namespace ProtocolMessage

variable {φ : Type}

def type : ProtocolMessage φ → MessageType
  | .handshake _ => .handshake
  | .ptyInit _ => .ptyInit
  | .ptyRequest _ => .ptyRequest
  | .ptyUserInput _ => .ptyUserInput
  | .ptyUserOutput _ => .ptyUserOutput
  | .sessionsRequest _ => .sessionsRequest

def packet : ProtocolMessage φ → Packet φ
  | .handshake m => .of m
  | .ptyInit m => .of m
  | .ptyRequest m => .of m
  | .ptyUserInput m => .of m
  | .ptyUserOutput m => .of m
  | .sessionsRequest m => .of m

end ProtocolMessage

/-- A build id that is a length and as many bytes. -/
def ReadsAsBytes (buildId : BuildId) : Prop :=
  ∃ bytes : Vec (BitVec 8),
    (Schema.bytes).Layout (φ := Empty) bytes (buildId.1.map UInt8.ofBitVec)

/-- The messages that a receiver of the type takes for its own. -/
def ProtocolMessage.PassesFor {φ : Type} : ProtocolMessage φ → MessageType → Prop
  | .handshake _, .handshake => True
  | .handshake m, .ptyUserInput => m.intent.1 = "" ∧ ReadsAsBytes m.buildId
  | .handshake m, .ptyUserOutput => m.intent.1 = "" ∧ ReadsAsBytes m.buildId
  | .ptyInit _, .ptyInit => True
  | .ptyRequest _, .ptyRequest => True
  | .ptyUserInput (.keyboardInput bytes), .handshake => bytes.1.length = 31
  | .ptyUserInput _, .ptyUserInput => True
  | .ptyUserInput _, .ptyUserOutput => True
  | .ptyUserOutput (.sessionOutput bytes), .handshake => bytes.1.length = 31
  | .ptyUserOutput _, .ptyUserInput => True
  | .ptyUserOutput _, .ptyUserOutput => True
  | .sessionsRequest _, .sessionsRequest => True
  | _, _ => False

/-! ## Layouts -/

section Layouts

variable {φ : Type} {payload : Bytes}

theorem byteVecEnum_layout {bytes : Vec (BitVec 8)} :
    PtyUser.byteVecEnum.schema.Layout (φ := φ) (Sum.inl (bytes, ())) payload ↔
      ∃ index tail, payload = index ++ tail ∧ VarintLayout false 0 index ∧
        (Schema.bytes).Layout (φ := φ) bytes tail := by
  constructor
  · rintro ⟨index, -, rfl, hindex, tail, -, rfl, htail, rfl⟩
    exact ⟨index, tail, by rw [List.append_nil], hindex, htail⟩
  · rintro ⟨index, tail, rfl, hindex, htail⟩
    exact ⟨index, tail, rfl, hindex, tail, [], (List.append_nil tail).symm, htail, rfl⟩

theorem handshake_layout {m : Handshake φ} :
    (Serde.message Handshake).schema.Layout (Serde.toVal m) payload ↔
      ∃ head, payload = head ++ m.buildId.1.map UInt8.ofBitVec ∧
        Codec.string.Layout m.intent head := by
  constructor
  · rintro ⟨head, -, rfl, hhead, back, -, rfl, hback, rfl⟩
    obtain rfl := (Schema.listed_u8s m.buildId.1).1 hback
    exact ⟨head, by rw [List.append_nil], hhead⟩
  · rintro ⟨head, rfl, hhead⟩
    exact ⟨head, _, rfl, hhead, _, [], (List.append_nil _).symm,
      (Schema.listed_u8s m.buildId.1).2 rfl, rfl⟩

/-- A string that starts like the index of the first variant is empty. -/
theorem string_of_index {s : Str} {head index rest rest' : Bytes}
    (hs : Codec.string.Layout s head) (hindex : VarintLayout false 0 index)
    (h : head ++ rest = index ++ rest') : s.1 = "" ∧ rest = rest' := by
  obtain ⟨length, hlength, rfl⟩ : ∃ length, VarintLayout false s.1.utf8ByteSize length ∧
      head = length ++ strBytes s.1 := hs
  rw [List.append_assoc] at h
  have hsize : Codec.length.Layout ⟨s.1.utf8ByteSize, s.2⟩ length := hlength
  have hone : Codec.length.Layout ⟨0, Nat.two_pow_pos 64⟩ index := hindex
  obtain ⟨heq, -, hrest⟩ := Codec.length.layout_unique hsize hone h
  have hzero : s.1.utf8ByteSize = 0 := congrArg Subtype.val heq
  have hempty : s.1 = "" := String.utf8ByteSize_eq_zero_iff.1 hzero
  have hnil : strBytes s.1 = [] := List.eq_nil_of_length_eq_zero hzero
  rw [hnil] at hrest
  exact ⟨hempty, hrest⟩

end Layouts

/-! ## Receivers -/

section Receivers

variable {F : Type} {pkt : Packet F}

theorem MessageType.message_maxFds (t : MessageType) : t.message.maxFds = t.passesFd.toNat := by
  cases t <;> rfl

theorem MessageType.fds_length (t : MessageType) (v : t.message.Val F) :
    (t.message.schema.fds v).length = t.passesFd.toNat := by
  have hle : (t.message.schema.fds v).length ≤ t.passesFd.toNat := by
    apply Schema.fds_length_le
    cases t <;> rfl
  apply Nat.le_antisymm hle
  cases t with
  | ptyInit => exact Nat.le_refl 1
  | ptyRequest =>
      obtain v | v := v
      · exact Nat.le_refl 1
      · exact Empty.elim v
  | sessionsRequest =>
      obtain v | v := v
      · exact Nat.succ_le_succ (Nat.zero_le _)
      · exact Empty.elim v
  | _ => exact Nat.zero_le _

theorem MessageType.fits {t : MessageType} (h : pkt.files.length = t.passesFd.toNat) :
    pkt.Fits libcCmsgSpace t.message := by
  have hle : pkt.files.length ≤ t.message.maxFds := (h.trans t.message_maxFds.symm).le
  cases t <;> exact Process.fits_of_space (by decide) (by decide) hle

theorem receiveAs_isOk_iff {T : Type → Type} [Serde T] :
    (∃ m, pkt.receiveAs T = .ok m) ↔
      pkt.Sized (Serde.message T) ∧ pkt.Fits libcCmsgSpace (Serde.message T) ∧
        ∃ v, (Serde.message T).schema.Layout v pkt.payload ∧
          pkt.files = (Serde.message T).schema.fds v := by
  constructor
  · rintro ⟨m, h⟩
    obtain ⟨hsized, hfits, hlayout, hfiles⟩ := Packet.receiveAs_eq_ok.1 h
    exact ⟨hsized, hfits, _, hlayout, hfiles⟩
  · rintro ⟨hsized, hfits, v, hlayout, hfiles⟩
    refine ⟨Serde.ofVal v, Packet.receiveAs_eq_ok.2 ⟨hsized, hfits, ?_⟩⟩
    rw [Serde.toVal_ofVal]
    exact ⟨hlayout, hfiles⟩

theorem MessageType.accepts_iff (t : MessageType) :
    t.Accepts pkt ↔ pkt.Sized t.message ∧
      ∃ v, t.message.schema.Layout v pkt.payload ∧ pkt.files = t.message.schema.fds v := by
  have haccepts : t.Accepts pkt ↔ pkt.Sized t.message ∧ pkt.Fits libcCmsgSpace t.message ∧
      ∃ v, t.message.schema.Layout v pkt.payload ∧ pkt.files = t.message.schema.fds v := by
    cases t <;> exact receiveAs_isOk_iff
  rw [haccepts]
  refine and_congr_right fun _ => ⟨And.right, fun h => ⟨?_, h⟩⟩
  obtain ⟨v, -, hfiles⟩ := h
  exact MessageType.fits ((congrArg List.length hfiles).trans (t.fds_length v))

end Receivers

/-! ## Packets -/

section Packets

variable {F : Type}

theorem ProtocolMessage.exists_val (msg : ProtocolMessage F) :
    ∃ v, msg.packet = .ofMessage msg.type.message v := by
  cases msg <;> exact ⟨_, rfl⟩

theorem ProtocolMessage.files_length (msg : ProtocolMessage F) :
    msg.packet.files.length = msg.type.passesFd.toNat := by
  obtain ⟨v, hpacket⟩ := msg.exists_val
  rw [hpacket]
  exact msg.type.fds_length v

theorem createShellSessionSize_pos (create : Sessions.CreateShellSession F) :
    5 ≤ createShellSessionSize create := by
  have hmachine : 1 ≤ machineSize create.machine := by
    cases create.machine with
    | host => exact Nat.le_refl 1
    | container name => exact Nat.le_add_right 1 _
  have huser : 1 ≤ strSize create.user := by
    unfold strSize varintSize
    split <;> omega
  unfold createShellSessionSize optionSize
  omega

theorem ProtocolMessage.sized_iff (msg : ProtocolMessage F) :
    msg.packet.Sized msg.type.message ↔ msg.Short := by
  have hsized {T : Type → Type} [Serde T] (m : T F)
      (hpos : 1 ≤ (Serde.message T).schema.size (Serde.toVal m)) :
      (Packet.of m).Sized (Serde.message T) ↔
        (Serde.message T).schema.size (Serde.toVal m) ≤ (Serde.message T).maxSize := by
    have hlength : (Packet.of m).payload.length =
        (Serde.message T).schema.size (Serde.toVal m) := Schema.encode_length _ _
    rw [Packet.Sized, hlength]
    exact and_iff_right hpos
  cases msg with
  | handshake m =>
      have hsize := handshake_size m
      have hpos : 1 ≤ (Serde.message Handshake).schema.size (Serde.toVal m) := by omega
      refine (hsized m hpos).trans ?_
      rw [hsize]
      exact strSize_le_iff m.intent
  | ptyInit m => exact (hsized m (Nat.le_refl 1)).trans (iff_of_true (Nat.le_refl 1) trivial)
  | ptyRequest m =>
      have hsize := ptyRequest_size m
      have hpos : 1 ≤ (Serde.message Pty.Request).schema.size (Serde.toVal m) := by omega
      have hle : 2 ≤ 8192 := by decide
      exact (hsized m hpos).trans (iff_of_true (hsize.trans_le hle) trivial)
  | ptyUserInput m =>
      obtain ⟨bytes⟩ := m
      refine (hsized _ ?_).trans (byteVecEnum_le_iff bytes)
      have hsize := byteVecEnum_size (φ := F) bytes
      exact hsize.symm ▸ Nat.le_trans (Nat.le_add_right 1 _) (Nat.le_add_right _ _)
  | ptyUserOutput m =>
      obtain ⟨bytes⟩ := m
      refine (hsized _ ?_).trans (byteVecEnum_le_iff bytes)
      have hsize := byteVecEnum_size (φ := F) bytes
      exact hsize.symm ▸ Nat.le_trans (Nat.le_add_right 1 _) (Nat.le_add_right _ _)
  | sessionsRequest m =>
      obtain ⟨create⟩ := m
      have hsize := sessionsRequest_size create
      have hpos : 1 ≤ (Serde.message Sessions.Request).schema.size
          (Serde.toVal (Sessions.Request.createShellSession create)) := by omega
      refine (hsized _ hpos).trans ?_
      rw [hsize]
      show 1 + _ ≤ 8192 ↔ _ ≤ 8191
      omega

/-- A packet is received as the message that it was made from. -/
theorem ProtocolMessage.accepts_self (msg : ProtocolMessage F) :
    msg.type.Accepts msg.packet ↔ msg.Short := by
  rw [MessageType.accepts_iff, msg.sized_iff]
  obtain ⟨v, hpacket⟩ := msg.exists_val
  apply and_iff_left
  rw [hpacket]
  exact ⟨v, Schema.layout_encode _ _, rfl⟩

end Packets

/-! ## Other types with an fd -/

section WithFd

variable {F : Type} {payload : Bytes}

theorem MessageType.Accepts.passesFd {t : MessageType} {msg : ProtocolMessage F}
    (h : t.Accepts msg.packet) : t.passesFd = msg.type.passesFd := by
  obtain ⟨-, v, -, hfiles⟩ := t.accepts_iff.1 h
  have hlength := msg.files_length
  rw [hfiles, t.fds_length v] at hlength
  rw [Bool.eq_iff_iff, ← Bool.toNat_eq_one, hlength, Bool.toNat_eq_one]

theorem ptyInit_length {v : (Serde.message Pty.Init).Val F}
    (h : (Serde.message Pty.Init).schema.Layout v payload) : payload.length = 1 := by
  obtain ⟨front, -, rfl, hfront, -, -, rfl, rfl, rfl⟩ := h
  obtain rfl : front = [UInt8.ofBitVec v.1] := hfront
  rfl

theorem ptyRequest_layout {v : (Serde.message Pty.Request).Val F}
    (h : (Serde.message Pty.Request).schema.Layout v payload) :
    ∃ index b, payload = index ++ [b] ∧ VarintLayout false 0 index := by
  obtain v | v := v
  · obtain ⟨index, -, rfl, hindex, front, -, rfl, hfront, -, -, rfl, rfl, rfl⟩ := h
    obtain rfl : front = [UInt8.ofBitVec v.1] := hfront
    exact ⟨index, UInt8.ofBitVec v.1, rfl, hindex⟩
  · exact Empty.elim v

theorem sessionsRequest_le {v : (Serde.message Sessions.Request).Val F}
    (h : (Serde.message Sessions.Request).schema.Layout v payload) : 6 ≤ payload.length := by
  have hle := Schema.size_le _ v h
  obtain ⟨⟨create⟩, rfl⟩ : ∃ m : Sessions.Request F, Serde.toVal m = v := ⟨_, Serde.toVal_ofVal v⟩
  rw [sessionsRequest_size create] at hle
  have hpos := createShellSessionSize_pos create
  omega

theorem ptyRequest_payload (m : Pty.Request F) : (Packet.of m).payload.length = 2 :=
  (Schema.encode_length _ _).trans (ptyRequest_size m)

theorem sessionsRequest_payload (m : Sessions.Request F) :
    ∃ rest, (Packet.of m).payload = [0] ++ rest ∧ 5 ≤ rest.length := by
  obtain ⟨create⟩ := m
  have hlength : (Packet.of (Sessions.Request.createShellSession create)).payload.length =
      1 + createShellSessionSize create :=
    (Schema.encode_length _ _).trans (sessionsRequest_size create)
  obtain ⟨rest, hrest⟩ : ∃ rest,
      (Packet.of (Sessions.Request.createShellSession create)).payload = [0] ++ rest := ⟨_, rfl⟩
  have hpos := createShellSessionSize_pos create
  rw [hrest, List.length_append, List.length_singleton] at hlength
  exact ⟨rest, hrest, by omega⟩

theorem ptyInit_accepts (msg : ProtocolMessage F) (h : MessageType.ptyInit.Accepts msg.packet) :
    msg.type = .ptyInit := by
  obtain ⟨-, v, hlayout, -⟩ := (MessageType.accepts_iff _).1 h
  have hlength : msg.packet.payload.length = 1 := ptyInit_length hlayout
  cases msg with
  | ptyInit m => rfl
  | ptyRequest m =>
      have htwo : (Packet.of m).payload.length = 2 := ptyRequest_payload m
      exact absurd (htwo.symm.trans hlength) (by decide)
  | sessionsRequest m =>
      obtain ⟨rest, hrest, hle⟩ := sessionsRequest_payload m
      have hone : (Packet.of m).payload.length = 1 := hlength
      rw [hrest, List.length_append, List.length_singleton] at hone
      omega
  | handshake m => exact absurd h.passesFd Bool.false_ne_true.symm
  | ptyUserInput m => exact absurd h.passesFd Bool.false_ne_true.symm
  | ptyUserOutput m => exact absurd h.passesFd Bool.false_ne_true.symm

theorem ptyRequest_accepts (msg : ProtocolMessage F)
    (h : MessageType.ptyRequest.Accepts msg.packet) : msg.type = .ptyRequest := by
  obtain ⟨-, v, hlayout, -⟩ := (MessageType.accepts_iff _).1 h
  obtain ⟨index, b, hpayload, hindex⟩ := ptyRequest_layout hlayout
  cases msg with
  | ptyInit m =>
      have hone : (index ++ [b]).length = 1 := congrArg List.length hpayload.symm
      have hpos := List.length_pos_of_ne_nil hindex.ne_nil
      rw [List.length_append, List.length_singleton] at hone
      omega
  | ptyRequest m => rfl
  | sessionsRequest m =>
      obtain ⟨rest, hrest, hle⟩ := sessionsRequest_payload m
      have heq : [0] ++ rest = index ++ [b] := hrest.symm.trans hpayload
      have hzero : Codec.length.Layout ⟨0, Nat.two_pow_pos 64⟩ [0] := .byte 0 (by decide) rfl
      have hlayout : Codec.length.Layout ⟨0, Nat.two_pow_pos 64⟩ index := hindex
      obtain ⟨-, -, hb⟩ := Codec.length.layout_unique hzero hlayout heq
      rw [hb, List.length_singleton] at hle
      exact absurd hle (by decide)
  | handshake m => exact absurd h.passesFd Bool.false_ne_true.symm
  | ptyUserInput m => exact absurd h.passesFd Bool.false_ne_true.symm
  | ptyUserOutput m => exact absurd h.passesFd Bool.false_ne_true.symm

theorem sessionsRequest_accepts (msg : ProtocolMessage F)
    (h : MessageType.sessionsRequest.Accepts msg.packet) : msg.type = .sessionsRequest := by
  obtain ⟨-, v, hlayout, -⟩ := (MessageType.accepts_iff _).1 h
  have hle : 6 ≤ msg.packet.payload.length := sessionsRequest_le hlayout
  cases msg with
  | ptyInit m =>
      have hone : (Packet.of m).payload.length = 1 := rfl
      exact absurd (hone ▸ hle) (by decide)
  | ptyRequest m =>
      have htwo : (Packet.of m).payload.length = 2 := ptyRequest_payload m
      exact absurd (htwo ▸ hle) (by decide)
  | sessionsRequest m => rfl
  | handshake m => exact absurd h.passesFd Bool.false_ne_true.symm
  | ptyUserInput m => exact absurd h.passesFd Bool.false_ne_true.symm
  | ptyUserOutput m => exact absurd h.passesFd Bool.false_ne_true.symm

end WithFd

/-! ## Types without an fd -/

section WithoutFd

variable {F : Type}

theorem MessageType.maxSize_of_not_passesFd {t : MessageType} (h : t.passesFd = false) :
    t.message.maxSize = 8192 := by
  cases t <;> first | rfl | cases h

theorem MessageType.accepts_iff_layout {t : MessageType} {msg : ProtocolMessage F}
    (ht : t.passesFd = false) (hmsg : msg.type.passesFd = false) :
    t.Accepts msg.packet ↔
      msg.Short ∧ ∃ v : t.message.Val F, t.message.schema.Layout v msg.packet.payload := by
  have hsized : msg.packet.Sized t.message ↔ msg.packet.Sized msg.type.message := by
    rw [Packet.Sized, Packet.Sized, maxSize_of_not_passesFd ht, maxSize_of_not_passesFd hmsg]
  have hnone : msg.packet.files = [] := by
    apply List.eq_nil_of_length_eq_zero
    rw [msg.files_length, hmsg, Bool.toNat_false]
  rw [t.accepts_iff, hsized, msg.sized_iff]
  refine and_congr_right fun _ => exists_congr fun v => and_iff_left ?_
  have hfds : t.message.schema.fds v = [] := by
    apply List.eq_nil_of_length_eq_zero
    rw [t.fds_length v, ht, Bool.toNat_false]
  rw [hnone, hfds]

theorem varintSize_add_eq {n : Nat} (h : varintSize n + n = 32) : n = 31 := by
  unfold varintSize at h
  split at h
  · omega
  split at h
  · omega
  split at h
  · omega
  split at h <;> omega

theorem bytes_payload (bytes : Vec (BitVec 8)) : ∃ tail,
    (Packet.ofMessage (F := F) PtyUser.byteVecEnum (Sum.inl (bytes, ()))).payload = [0] ++ tail ∧
      tail.length = varintSize bytes.1.length + bytes.1.length := by
  obtain ⟨tail, htail⟩ : ∃ tail,
      (Packet.ofMessage (F := F) PtyUser.byteVecEnum (Sum.inl (bytes, ()))).payload =
        [0] ++ tail := ⟨_, rfl⟩
  have hwhole : ([0] ++ tail).length = 1 + varintSize bytes.1.length + bytes.1.length :=
    (congrArg List.length htail).symm.trans
      ((Schema.encode_length _ _).trans (byteVecEnum_size bytes))
  rw [List.length_append, List.length_singleton] at hwhole
  exact ⟨tail, htail, by omega⟩

/-- Behind the index of the variant stands what a handshake has for its build id. -/
theorem bytes_as_handshake {bytes : Vec (BitVec 8)} {m : Handshake F}
    (h : (Serde.message Handshake).schema.Layout (Serde.toVal m)
      (Packet.ofMessage (F := F) PtyUser.byteVecEnum (Sum.inl (bytes, ()))).payload) :
    m.intent.1 = "" ∧ bytes.1.length = 31 := by
  obtain ⟨tail, htail, hlength⟩ := bytes_payload (F := F) bytes
  rw [htail] at h
  obtain ⟨head, hpayload, hhead⟩ := handshake_layout.1 h
  have hzero : VarintLayout false 0 [0] := .byte 0 (by decide) rfl
  obtain ⟨hempty, hid⟩ := string_of_index hhead hzero hpayload.symm
  have hlong := congrArg List.length hid
  rw [List.length_map, m.buildId.2, hlength] at hlong
  exact ⟨hempty, varintSize_add_eq hlong.symm⟩

theorem bytes_as_handshake_iff (bytes : Vec (BitVec 8)) :
    (∃ v : (Serde.message Handshake).Val F, (Serde.message Handshake).schema.Layout v
      (Packet.ofMessage (F := F) PtyUser.byteVecEnum (Sum.inl (bytes, ()))).payload) ↔
        bytes.1.length = 31 := by
  constructor
  · rintro ⟨v, hlayout⟩
    obtain ⟨m, rfl⟩ : ∃ m : Handshake F, Serde.toVal m = v := ⟨_, Serde.toVal_ofVal v⟩
    exact (bytes_as_handshake hlayout).2
  · intro hbytes
    obtain ⟨tail, htail, hlength⟩ := bytes_payload (F := F) bytes
    have hlong : (tail.map UInt8.toBitVec).length = 32 := by
      rw [hbytes] at hlength
      exact (List.length_map _).trans hlength
    have hzero : VarintLayout false 0 [0] := .byte 0 (by decide) rfl
    rw [htail]
    refine ⟨Serde.toVal (⟨⟨"", by decide⟩, tail.map UInt8.toBitVec, hlong⟩ : Handshake F),
      handshake_layout.2 ⟨[0], ?_, [0], hzero, rfl⟩⟩
    rw [List.map_map]
    exact congrArg ([0] ++ ·) (List.map_id tail).symm

/-- Without an intent the length at the front is read as the index of the variant. -/
theorem handshake_as_bytes (m : Handshake F) :
    (∃ v : PtyUser.byteVecEnum.Val F, PtyUser.byteVecEnum.schema.Layout v (Packet.of m).payload) ↔
      m.intent.1 = "" ∧ ReadsAsBytes m.buildId := by
  obtain ⟨head, hpayload, hhead⟩ := handshake_layout.1 (Schema.layout_encode _ (Serde.toVal m))
  have hpayload : (Packet.of m).payload = head ++ m.buildId.1.map UInt8.ofBitVec := hpayload
  rw [hpayload]
  constructor
  · rintro ⟨v, hlayout⟩
    obtain ⟨bytes, ⟨⟩⟩ | v := v
    · obtain ⟨index, tail, heq, hindex, htail⟩ := byteVecEnum_layout.1 hlayout
      obtain ⟨hempty, rfl⟩ := string_of_index hhead hindex heq
      exact ⟨hempty, bytes, htail⟩
    · exact Empty.elim v
  · rintro ⟨hempty, bytes, htail⟩
    obtain ⟨length, hlength, rfl⟩ : ∃ length, VarintLayout false m.intent.1.utf8ByteSize length ∧
      head = length ++ strBytes m.intent.1 := hhead
    rw [hempty] at hlength
    refine ⟨Sum.inl (bytes, ()), byteVecEnum_layout.2 ⟨length, _, ?_, hlength, htail⟩⟩
    rw [hempty]
    exact congrArg (· ++ _) (List.append_nil length)

end WithoutFd

/-! ## All types -/

section Types

variable {F : Type}

theorem ProtocolMessage.passesFor_iff (msg : ProtocolMessage F) {t : MessageType}
    (ht : t.passesFd = true) : msg.PassesFor t ↔ msg.type = t := by
  cases msg with
  | ptyUserInput m =>
      obtain ⟨bytes⟩ := m
      cases t <;> simp_all [PassesFor, type, MessageType.passesFd]
  | ptyUserOutput m =>
      obtain ⟨bytes⟩ := m
      cases t <;> simp_all [PassesFor, type, MessageType.passesFd]
  | _ => cases t <;> simp_all [PassesFor, type, MessageType.passesFd]

theorem accepts_own {msg : ProtocolMessage F} {t : MessageType} (htype : msg.type = t)
    (hpasses : msg.PassesFor t) : t.Accepts msg.packet ↔ msg.Short ∧ msg.PassesFor t := by
  subst htype
  exact msg.accepts_self.trans (and_iff_left hpasses).symm

theorem accepts_iff_type {msg : ProtocolMessage F} {t : MessageType} (ht : t.passesFd = true)
    (h : t.Accepts msg.packet → msg.type = t) :
    t.Accepts msg.packet ↔ msg.Short ∧ msg.PassesFor t := by
  rw [msg.passesFor_iff ht]
  constructor
  · intro haccepts
    obtain rfl := h haccepts
    exact ⟨msg.accepts_self.1 haccepts, rfl⟩
  · rintro ⟨hshort, rfl⟩
    exact msg.accepts_self.2 hshort

theorem handshake_accepts_iff (msg : ProtocolMessage F) :
    MessageType.handshake.Accepts msg.packet ↔ msg.Short ∧ msg.PassesFor .handshake := by
  cases msg with
  | handshake m => exact accepts_own rfl trivial
  | ptyUserInput m =>
      obtain ⟨bytes⟩ := m
      exact (MessageType.accepts_iff_layout rfl rfl).trans
        (and_congr_right' (bytes_as_handshake_iff bytes))
  | ptyUserOutput m =>
      obtain ⟨bytes⟩ := m
      exact (MessageType.accepts_iff_layout rfl rfl).trans
        (and_congr_right' (bytes_as_handshake_iff bytes))
  | _ => exact iff_of_false (fun h => Bool.false_ne_true h.passesFd) And.right

theorem bytes_accepts_iff (msg : ProtocolMessage F) :
    MessageType.ptyUserInput.Accepts msg.packet ↔ msg.Short ∧ msg.PassesFor .ptyUserInput := by
  cases msg with
  | handshake m =>
      exact (MessageType.accepts_iff_layout rfl rfl).trans
        (and_congr_right' (handshake_as_bytes m))
  | ptyUserInput m => exact accepts_own rfl trivial
  | ptyUserOutput m =>
      obtain ⟨bytes⟩ := m
      exact (ProtocolMessage.accepts_self (.ptyUserInput (.keyboardInput bytes))).trans
        (and_iff_left trivial).symm
  | _ => exact iff_of_false (fun h => Bool.false_ne_true h.passesFd) And.right

/-- What the pty service sends to its client has the encoding of what it gets from it. -/
theorem output_accepts_iff (msg : ProtocolMessage F) :
    MessageType.ptyUserOutput.Accepts msg.packet ↔ msg.Short ∧ msg.PassesFor .ptyUserInput := by
  have hinput : MessageType.ptyUserOutput.Accepts msg.packet ↔
      MessageType.ptyUserInput.Accepts msg.packet :=
    (MessageType.accepts_iff .ptyUserOutput).trans (MessageType.accepts_iff .ptyUserInput).symm
  exact hinput.trans (bytes_accepts_iff msg)

theorem ProtocolMessage.passesFor_output (msg : ProtocolMessage F) :
    msg.PassesFor .ptyUserOutput ↔ msg.PassesFor .ptyUserInput := by
  cases msg <;> exact Iff.rfl

theorem accepts_packet_iff (msg : ProtocolMessage F) (t : MessageType) :
    t.Accepts msg.packet ↔ msg.Short ∧ msg.PassesFor t := by
  cases t with
  | handshake => exact handshake_accepts_iff msg
  | ptyInit => exact accepts_iff_type rfl (ptyInit_accepts msg)
  | ptyRequest => exact accepts_iff_type rfl (ptyRequest_accepts msg)
  | ptyUserInput => exact bytes_accepts_iff msg
  | ptyUserOutput =>
      rw [msg.passesFor_output]
      exact output_accepts_iff msg
  | sessionsRequest => exact accepts_iff_type rfl (sessionsRequest_accepts msg)

/-- Which receivers take a message for their own, and that none but a handshake gets a
peer through a handshake with an intent. -/
theorem types_told_apart (msg : ProtocolMessage F) :
    (∀ t : MessageType, t.Accepts msg.packet ↔ msg.Short ∧ msg.PassesFor t) ∧
      ∀ (deriveKey : Str → Bytes → BuildId) (identity intent : Str), intent.1 ≠ "" →
        Handshake.accept deriveKey identity intent msg.packet = .ok () →
          msg.type = .handshake := by
  refine ⟨accepts_packet_iff msg, fun deriveKey identity intent hintent haccept => ?_⟩
  have hreceived := Handshake.accept_eq_ok.1 haccept
  have hpasses : msg.PassesFor .handshake := ((handshake_accepts_iff msg).1 ⟨_, hreceived⟩).2
  obtain ⟨-, -, hlayout, -⟩ := Packet.receiveAs_eq_ok.1 hreceived
  cases msg with
  | handshake m => rfl
  | ptyUserInput m =>
      obtain ⟨bytes⟩ := m
      exact absurd (bytes_as_handshake hlayout).1 hintent
  | ptyUserOutput m =>
      obtain ⟨bytes⟩ := m
      exact absurd (bytes_as_handshake hlayout).1 hintent
  | _ => exact hpasses.elim

/-- A line of 31 bytes. -/
def typedLine : ProtocolMessage Nat :=
  .ptyUserInput (.keyboardInput ⟨List.replicate 31 97, by decide⟩)

theorem types_told_apart_line :
    MessageType.handshake.Accepts typedLine.packet ∧
      ¬ MessageType.ptyRequest.Accepts typedLine.packet ∧
      Handshake.accept (fun _ _ => ⟨List.replicate 32 97, by decide⟩) testIdentity
        PtyUser.clientIntent typedLine.packet ≠ .ok () := by
  obtain ⟨hreceivers, haccept⟩ := types_told_apart typedLine
  have hshort : typedLine.Short := by
    show 31 ≤ 8188
    decide
  refine ⟨(hreceivers .handshake).2 ⟨hshort, rfl⟩, fun h => ((hreceivers .ptyRequest).1 h).2,
    fun h => ?_⟩
  have htype := haccept _ testIdentity PtyUser.clientIntent (by decide) h
  cases htype

end Types

end TereServer.Proto
