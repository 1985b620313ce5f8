import TereServer.Bincode.Size
import TereServer.Ipc.Handshake

/-!
# What a mismatch is called

Both sides derive the build id from an intent and the identity of a build, so a peer
with another intent has another build id, whatever its build is.
-/

namespace TereServer.Ipc

open Lib Bincode

/-! ## The size of a handshake -/

section Size

variable {F : Type}

theorem handshake_size (msg : Handshake F) :
    (Serde.message Handshake).schema.size (Serde.toVal msg) = strSize msg.intent + 32 := by
  have hsize : (Serde.message Handshake).schema.size (Serde.toVal msg) =
      strSize msg.intent + ((msg.buildId.1.map (intSize .u8)).sum + 0) := rfl
  rw [hsize, Schema.u8s_size, msg.buildId.2]

theorem strSize_le_iff (s : Str) : strSize s + 32 ≤ 8192 ↔ s.1.utf8ByteSize ≤ 8157 := by
  unfold strSize varintSize
  split
  · omega
  split
  · omega
  split
  · omega
  split
  · omega
  · omega

theorem Handshake.fits_iff (msg : Handshake F) : msg.Fits ↔ msg.intent.1.utf8ByteSize ≤ 8157 := by
  have hlength : (Packet.of msg).payload.length =
      (Serde.message Handshake).schema.size (Serde.toVal msg) := Schema.encode_length _ _
  unfold Fits
  rw [hlength, handshake_size, strSize_le_iff]

end Size

section Errors

variable {F : Type} {deriveKey : Str → Bytes → BuildId} {self : Endpoint} {identity intent : Str}
variable {identity' intent' : Str}

/-- The handshake of an honest peer that differs in any way is of the wrong version. -/
theorem Handshake.check_new
    (hkeys : KeysDistinct deriveKey {(intent, identity), (intent', identity')}) :
    (Handshake.new deriveKey identity' intent' : Handshake F).check deriveKey identity intent =
      if intent' = intent ∧ identity' = identity then .ok () else .error .wrongVersion := by
  unfold Handshake.check Handshake.new
  by_cases hsame : intent' = intent ∧ identity' = identity
  · obtain ⟨rfl, rfl⟩ := hsame
    simp
  · have hdiffer : identify deriveKey identity intent ≠ identify deriveKey identity' intent' := by
      intro heq
      have hpair := hkeys (.inl rfl) (.inr rfl) heq
      exact hsame ⟨(congrArg Prod.fst hpair).symm, (congrArg Prod.snd hpair).symm⟩
    rw [if_pos hdiffer, if_neg hsame]

theorem Handshake.accept_of_fits {msg : Handshake F} (h : msg.Fits) :
    Handshake.accept deriveKey identity intent (Packet.of msg) =
      msg.check deriveKey identity intent := by
  have hreceive : (Packet.of msg).receiveAs Handshake = .ok msg := (Handshake.receiveAs_of h).2 rfl
  simp only [accept, hreceive]

theorem Handshake.accept_of_not_fits {msg : Handshake F} (h : ¬ msg.Fits) :
    ∃ e, Handshake.accept deriveKey identity intent (Packet.of msg) = .error (.receive e) := by
  unfold accept
  cases hreceive : (Packet.of msg).receiveAs Handshake with
  | error e => exact ⟨e, rfl⟩
  | ok other =>
      obtain ⟨hsized, -, -⟩ := Packet.receiveAs_of_eq_ok.1 hreceive
      exact absurd hsized.2 h

/-- What becomes of the handshake of an honest peer. -/
theorem Handshake.accept_new
    (hkeys : KeysDistinct deriveKey {(intent, identity), (intent', identity')}) :
    (intent'.1.utf8ByteSize ≤ 8157 ∧
      Handshake.accept deriveKey identity intent
          (Packet.of (Handshake.new deriveKey identity' intent' : Handshake F)) =
        if intent' = intent ∧ identity' = identity then .ok () else .error .wrongVersion) ∨
    ¬ intent'.1.utf8ByteSize ≤ 8157 ∧ ∃ e,
      Handshake.accept deriveKey identity intent
          (Packet.of (Handshake.new deriveKey identity' intent' : Handshake F)) =
        .error (.receive e) := by
  have hfits : (Handshake.new deriveKey identity' intent' : Handshake F).Fits ↔
      intent'.1.utf8ByteSize ≤ 8157 := Handshake.fits_iff _
  by_cases hshort : intent'.1.utf8ByteSize ≤ 8157
  · left
    refine ⟨hshort, ?_⟩
    rw [Handshake.accept_of_fits (hfits.2 hshort), Handshake.check_new hkeys]
  · right
    exact ⟨hshort, Handshake.accept_of_not_fits fun h => hshort (hfits.1 h)⟩

/-! ## Both sides -/

inductive Role
  | client
  | server

/-- The intent that a side expects of its peer. -/
def Role.expected (self : Endpoint) : Role → Str
  | .client => self.serverIntent
  | .server => self.clientIntent

def Role.handshake (deriveKey : Str → Bytes → BuildId) (self : Endpoint) (conn : Conn F) :
    Role → Except HandshakeError Unit
  | .client => (handshakeAsClient deriveKey self conn).1
  | .server => (handshakeAsServer deriveKey self conn).1

theorem Role.handshake_eq (role : Role) (pkt : Packet F) (incoming out : List (Packet F)) :
    role.handshake deriveKey self ⟨pkt :: incoming, out⟩ =
      Handshake.accept deriveKey self.identity (role.expected self) pkt := by
  cases role with
  | client =>
      unfold handshake
      rw [handshakeAsClient_eq]
      rfl
  | server =>
      unfold handshake
      rw [handshakeAsServer_eq]
      dsimp only [Conn.next, expected]
      cases Handshake.accept deriveKey self.identity self.clientIntent pkt <;> rfl

/-- The result of a handshake with an honest peer names what is wrong with it. -/
def NamesCause (deriveKey : Str → Bytes → BuildId) (self : Endpoint) (role : Role)
    (identity' intent' : Str) (incoming out : List (Packet F)) : Prop :=
  let peer : Packet F := Packet.of (Handshake.new deriveKey identity' intent' : Handshake F)
  let result := role.handshake deriveKey self ⟨peer :: incoming, out⟩
  (identity' = self.identity → intent' ≠ role.expected self → result = .error .wrongService) ∧
    (intent' = role.expected self → identity' ≠ self.identity → result = .error .wrongVersion) ∧
    (result = .ok () ↔ intent' = role.expected self ∧ identity' = self.identity)

theorem namesCause_of_expected {role : Role} {incoming out : List (Packet F)}
    (hkeys : KeysDistinct deriveKey
      {(role.expected self, self.identity), (role.expected self, identity')}) :
    NamesCause deriveKey self role identity' (role.expected self) incoming out ↔
      (role.expected self).1.utf8ByteSize ≤ 8157 := by
  unfold NamesCause
  dsimp only
  rw [Role.handshake_eq]
  rcases Handshake.accept_new (F := F) hkeys with ⟨hshort, haccept⟩ | ⟨hlong, e, he⟩
  · rw [haccept]
    refine iff_of_true ⟨fun _ h => absurd rfl h, fun _ hother => ?_, ?_⟩ hshort
    · rw [if_neg fun h => hother h.2]
    · by_cases hsame : identity' = self.identity
      · simp [hsame]
      · simp [hsame]
  · rw [he]
    refine iff_of_false (fun h => ?_) hlong
    obtain ⟨-, hversion, hok⟩ := h
    by_cases hsame : identity' = self.identity
    · cases hok.2 ⟨rfl, hsame⟩
    · cases hversion rfl hsame

/-- A peer with another intent is never told from one of another version. -/
theorem namesCause_of_other {role : Role} {incoming out : List (Packet F)}
    (hkeys : KeysDistinct deriveKey
      {(role.expected self, self.identity), (intent', identity')})
    (hintent : intent' ≠ role.expected self) :
    NamesCause deriveKey self role identity' intent' incoming out ↔
      identity' ≠ self.identity := by
  unfold NamesCause
  dsimp only
  rw [Role.handshake_eq]
  have hnot : Handshake.accept deriveKey self.identity (role.expected self)
      (Packet.of (Handshake.new deriveKey identity' intent' : Handshake F)) ≠ .error .wrongService ∧
      Handshake.accept deriveKey self.identity (role.expected self)
        (Packet.of (Handshake.new deriveKey identity' intent' : Handshake F)) ≠ .ok () := by
    rcases Handshake.accept_new (F := F) hkeys with ⟨-, haccept⟩ | ⟨-, e, he⟩
    · rw [haccept, if_neg fun h => hintent h.1]
      simp
    · rw [he]
      simp
  constructor
  · intro h hsame
    exact hnot.1 (h.1 hsame hintent)
  · intro hother
    refine ⟨fun hsame => absurd hsame hother, fun hsame => absurd hsame hintent, ?_⟩
    exact iff_of_false hnot.2 fun h => hintent h.1

/-- A mismatch is named exactly when the peer has the expected intent, which fits a
handshake, or another identity too. -/
theorem handshake_names_cause_iff (self : Endpoint) (role : Role) (identity' intent' : Str)
    (incoming out : List (Packet F))
    (hkeys : KeysDistinct deriveKey
      {(role.expected self, self.identity), (intent', identity')}) :
    NamesCause deriveKey self role identity' intent' incoming out ↔
      if intent' = role.expected self then (role.expected self).1.utf8ByteSize ≤ 8157
      else identity' ≠ self.identity := by
  split
  · rename_i hintent
    subst hintent
    exact namesCause_of_expected hkeys
  · rename_i hintent
    exact namesCause_of_other hkeys hintent

end Errors

theorem handshake_names_cause_of_client :
    NamesCause testDeriveKey testEndpoint .server testIdentity testEndpoint.clientIntent
      ([] : List (Packet Nat)) [] := by
  have hkeys : KeysDistinct testDeriveKey
      {(Role.server.expected testEndpoint, testEndpoint.identity),
        (testEndpoint.clientIntent, testIdentity)} := by
    rintro pair (rfl | rfl) pair' (rfl | rfl) _
    · rfl
    · rfl
    · rfl
    · rfl
  have hexpected : testEndpoint.clientIntent = Role.server.expected testEndpoint := rfl
  refine (handshake_names_cause_iff testEndpoint .server testIdentity testEndpoint.clientIntent
    [] [] hkeys).2 ?_
  rw [if_pos hexpected]
  decide

/-- A client that greets a server as a server would, from the same build. -/
theorem other_service_called_wrong_version :
    Role.server.handshake testDeriveKey testEndpoint
        (⟨[testEndpoint.reply testDeriveKey], []⟩ : Conn Nat) = .error .wrongVersion ∧
      ¬ NamesCause testDeriveKey testEndpoint .server testIdentity testEndpoint.serverIntent
        ([] : List (Packet Nat)) [] := by
  have hversion : Role.server.handshake testDeriveKey testEndpoint
      (⟨[testEndpoint.reply testDeriveKey], []⟩ : Conn Nat) = .error .wrongVersion := by
    have hdiffer : identify testDeriveKey testIdentity testEndpoint.clientIntent ≠
        identify testDeriveKey testIdentity testEndpoint.serverIntent := by decide
    have haccept : Handshake.accept testDeriveKey testIdentity testEndpoint.clientIntent
        (testEndpoint.reply testDeriveKey : Packet Nat) =
          (Handshake.new testDeriveKey testIdentity testEndpoint.serverIntent : Handshake Nat).check
            testDeriveKey testIdentity testEndpoint.clientIntent :=
      Handshake.accept_of_fits testReply_fits
    rw [Role.handshake_eq]
    exact haccept.trans (if_pos hdiffer)
  refine ⟨hversion, fun h => ?_⟩
  have hservice := h.1 rfl (by decide)
  have hsame : Role.server.handshake testDeriveKey testEndpoint
      (⟨[testEndpoint.reply testDeriveKey], []⟩ : Conn Nat) = .error .wrongService := hservice
  rw [hversion] at hsame
  cases hsame

end TereServer.Ipc
