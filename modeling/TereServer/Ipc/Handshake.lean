import TereServer.Ipc.Acceptance

/-!
# The handshake between an IPC client and server

Each side sends its intent and a build id: the protocol identity of its build,
keyed by that intent.  The parameter `deriveKey` stands for `blake3::derive_key`
with an output of 32 bytes, and the identity of a build is a parameter of its
parties.
-/

namespace TereServer.Ipc

open Lib Bincode

abbrev BuildId := {l : List (BitVec 8) // l.length = 32}

structure Handshake (φ : Type) where
  intent : Str
  buildId : BuildId
  deriving DecidableEq

instance : Serde Handshake where
  message := { schema := .struct (.field .string (.field (.array (.int .u8) 32) .noFields)) }
  toVal m := (m.intent, m.buildId, ())
  ofVal v := ⟨v.1, v.2.1⟩
  ofVal_toVal _ := rfl
  toVal_ofVal _ := rfl

inductive HandshakeError
  | send (e : SendError)
  | receive (e : ReceiveError)
  | wrongVersion
  | wrongService
  deriving DecidableEq

/-- What one side of a handshake is called with, and the identity of its build. -/
structure Endpoint where
  clientIntent : Str
  serverIntent : Str
  identity : Str

/-- The pairs of an intent and an identity that a side derives keys from. -/
def Endpoint.keys (self : Endpoint) : Set (Str × Str) :=
  {(self.clientIntent, self.identity), (self.serverIntent, self.identity)}

/-! ## A connection with a scripted peer -/

/-- The packets a peer sends before it closes, and those that were sent to it. -/
structure Conn (F : Type) where
  incoming : List (Packet F)
  outgoing : List (Packet F)

namespace Conn

variable {F : Type} {T : Type → Type} [Serde T]

/-- The next packet of the peer; what `recvmsg` makes of its end when there is
none. -/
def next (conn : Conn F) : Packet F × Conn F :=
  match conn.incoming with
  | [] => (.closed, conn)
  | pkt :: incoming => (pkt, { conn with incoming })

def push (conn : Conn F) (pkt : Packet F) : Conn F :=
  { conn with outgoing := conn.outgoing ++ [pkt] }

def receiveWithFds (T : Type → Type) [Serde T] : Eff (Conn F) ReceiveError (T F) := fun conn =>
  (conn.next.1.receiveAs T, conn.next.2)

/-- A send to a peer that is still there. -/
def sendWithFds (m : T F) : Eff (Conn F) SendError Unit := fun conn => (.ok (), conn.push (.of m))

theorem sendWithFds_run (m : T F) (conn : Conn F) :
    sendWithFds m conn = (.ok (), conn.push (.of m)) := rfl

theorem receiveWithFds_of_ok {conn : Conn F} {m : T F} (h : conn.next.1.receiveAs T = .ok m) :
    receiveWithFds T conn = (.ok m, conn.next.2) := by
  rw [receiveWithFds, h]

theorem receiveWithFds_of_error {conn : Conn F} {e : ReceiveError}
    (h : conn.next.1.receiveAs T = .error e) :
    receiveWithFds T conn = (.error e, conn.next.2) := by
  rw [receiveWithFds, h]

end Conn

section Identity

variable {F : Type} (deriveKey : Str → Bytes → BuildId)

def identify (identity context : Str) : BuildId := deriveKey context (strBytes identity)

def Handshake.new (identity intent : Str) : Handshake F := ⟨intent, identify deriveKey identity intent⟩

/-- The two comparisons that both sides make with what they expect. -/
def Handshake.check (identity intent : Str) (msg : Handshake F) : Except HandshakeError Unit :=
  if identify deriveKey identity intent ≠ msg.buildId then .error .wrongVersion
  else if msg.intent ≠ intent then .error .wrongService
  else .ok ()

def handshakeAsClient (self : Endpoint) : Eff (Conn F) HandshakeError Unit := do
  (Conn.sendWithFds (Handshake.new deriveKey self.identity self.clientIntent)).mapError .send
  let msg ← (Conn.receiveWithFds Handshake).mapError .receive
  Eff.lift (msg.check deriveKey self.identity self.serverIntent)

def handshakeAsServer (self : Endpoint) : Eff (Conn F) HandshakeError Unit := do
  let msg ← (Conn.receiveWithFds Handshake).mapError .receive
  Eff.lift (msg.check deriveKey self.identity self.clientIntent)
  (Conn.sendWithFds (Handshake.new deriveKey self.identity self.serverIntent)).mapError .send

/-! ## The two sides between their system calls -/

/-- `handshake_as_client` before its send, before its receive, and returned. -/
inductive Client
  | sending
  | waiting
  | returned (result : Except HandshakeError Unit)

/-- `handshake_as_server` before its receive, before its send, and returned. -/
inductive Server
  | waiting
  | replying
  | returned (result : Except HandshakeError Unit)

/-- A received packet as a handshake that is checked against `intent`. -/
def Handshake.accept (identity intent : Str) (pkt : Packet F) : Except HandshakeError Unit :=
  match pkt.receiveAs Handshake with
  | .error e => .error (.receive e)
  | .ok msg => msg.check deriveKey identity intent

def Endpoint.hello (self : Endpoint) : Packet F :=
  Packet.of (Handshake.new deriveKey self.identity self.clientIntent)

def Endpoint.reply (self : Endpoint) : Packet F :=
  Packet.of (Handshake.new deriveKey self.identity self.serverIntent)

def Client.received (self : Endpoint) (pkt : Packet F) : Client :=
  .returned (Handshake.accept deriveKey self.identity self.serverIntent pkt)

def Server.received (self : Endpoint) (pkt : Packet F) : Server :=
  match Handshake.accept deriveKey self.identity self.clientIntent pkt with
  | .error e => .returned (.error e)
  | .ok () => .replying

theorem Server.received_cases (self : Endpoint) (pkt : Packet F) :
    (Handshake.accept deriveKey self.identity self.clientIntent pkt = .ok () ∧
        Server.received deriveKey self pkt = .replying) ∨
      ∃ e, Server.received deriveKey self pkt = .returned (.error e) := by
  unfold Server.received
  cases Handshake.accept deriveKey self.identity self.clientIntent pkt with
  | error e => exact .inr ⟨e, rfl⟩
  | ok u => exact .inl ⟨rfl, rfl⟩

def Client.sent : Except SendError Unit → Client
  | .error e => .returned (.error (.send e))
  | .ok () => .waiting

def Server.sent : Except SendError Unit → Server
  | .error e => .returned (.error (.send e))
  | .ok () => .returned (.ok ())

variable {deriveKey} {self : Endpoint} {conn : Conn F} {pkt : Packet F} {identity intent : Str}

/-- The call of a client is what its two states do. -/
theorem handshakeAsClient_eq :
    handshakeAsClient deriveKey self conn =
      let sent := conn.push (self.hello deriveKey)
      (Handshake.accept deriveKey self.identity self.serverIntent sent.next.1, sent.next.2) := by
  dsimp only
  unfold handshakeAsClient Handshake.accept
  rw [Eff.bind_of_ok (Eff.mapError_of_ok (Conn.sendWithFds_run _ conn)), ← Endpoint.hello]
  cases hr : (conn.push (self.hello deriveKey)).next.1.receiveAs Handshake with
  | error e =>
      rw [Eff.bind_of_error (Eff.mapError_of_error (Conn.receiveWithFds_of_error hr))]
  | ok msg =>
      rw [Eff.bind_of_ok (Eff.mapError_of_ok (Conn.receiveWithFds_of_ok hr)), Eff.lift_run]

/-- The call of a server is what its two states do. -/
theorem handshakeAsServer_eq :
    handshakeAsServer deriveKey self conn =
      match Handshake.accept deriveKey self.identity self.clientIntent conn.next.1 with
      | .error e => (.error e, conn.next.2)
      | .ok () => (.ok (), conn.next.2.push (self.reply deriveKey)) := by
  unfold handshakeAsServer Handshake.accept
  cases hr : conn.next.1.receiveAs Handshake with
  | error e =>
      rw [Eff.bind_of_error (Eff.mapError_of_error (Conn.receiveWithFds_of_error hr))]
  | ok msg =>
      rw [Eff.bind_of_ok (Eff.mapError_of_ok (Conn.receiveWithFds_of_ok hr))]
      dsimp only
      cases hc : msg.check deriveKey self.identity self.clientIntent with
      | error e => rw [Eff.bind_of_error (Eff.lift_run (.error e) _)]
      | ok u => rw [Eff.bind_of_ok (Eff.lift_run (.ok u) _)]; rfl

/-! ## What is accepted -/

theorem Handshake.check_eq_ok {msg : Handshake F} :
    msg.check deriveKey identity intent = .ok () ↔ msg = .new deriveKey identity intent := by
  obtain ⟨sent, buildId⟩ := msg
  simp only [Handshake.check, Handshake.new, Handshake.mk.injEq]
  split
  · rename_i hid
    simp [Ne.symm hid]
  split
  · rename_i hintent
    simp [hintent]
  · simp_all

/-- Only the handshake that is expected is accepted. -/
theorem Handshake.accept_eq_ok :
    Handshake.accept deriveKey identity intent pkt = .ok () ↔
      pkt.receiveAs Handshake = .ok (.new deriveKey identity intent) := by
  unfold Handshake.accept
  cases pkt.receiveAs Handshake with
  | error e => simp
  | ok msg => simp [Handshake.check_eq_ok]

/-- No two different pairs of an intent and an identity in `pairs` have the same
derived key. -/
def KeysDistinct (deriveKey : Str → Bytes → BuildId) (pairs : Set (Str × Str)) : Prop :=
  Set.InjOn (fun pair => deriveKey pair.1 (strBytes pair.2)) pairs

theorem Handshake.new_inj {pairs : Set (Str × Str)} (hkeys : KeysDistinct deriveKey pairs)
    {identity' intent' : Str} (h : (intent, identity) ∈ pairs) (h' : (intent', identity') ∈ pairs) :
    (Handshake.new deriveKey identity intent : Handshake F) = .new deriveKey identity' intent' ↔
      intent = intent' ∧ identity = identity' := by
  simp only [Handshake.new, Handshake.mk.injEq]
  constructor
  · rintro ⟨rfl, hid⟩
    exact ⟨rfl, congrArg Prod.snd (hkeys h h' hid)⟩
  · rintro ⟨rfl, rfl⟩
    exact ⟨rfl, rfl⟩

/-- The build id alone takes bytes. -/
theorem Handshake.payload_pos (msg : Handshake F) : 1 ≤ (Packet.of msg).payload.length := by
  obtain ⟨intent, l, hlength⟩ := msg
  cases l with
  | nil => cases hlength
  | cons b l =>
      have hpayload : (Packet.of (⟨intent, b :: l, hlength⟩ : Handshake F)).payload =
          Codec.string.encode intent ++ ((Codec.int .u8).encode b ++
            l.flatMap (Codec.int .u8).encode ++ []) := rfl
      have hbyte : (Codec.int .u8).encode b = [UInt8.ofBitVec b] := rfl
      simp only [hpayload, hbyte, List.length_append, List.length_cons]
      omega

theorem Handshake.files_eq (msg : Handshake F) : (Packet.of msg).files = [] := by
  have hfiles : (Packet.of msg).files =
      [] ++ (msg.buildId.1.flatMap (fun _ => ([] : List F)) ++ []) := rfl
  simp [hfiles]

theorem Handshake.files_fit (msg : Handshake F) :
    (Packet.of msg).Fits libcCmsgSpace (Serde.message Handshake) := by
  rw [Packet.Fits, msg.files_eq]
  exact Nat.zero_le _

/-- An encoded handshake fits the size limit. -/
def Handshake.Fits (msg : Handshake F) : Prop := (Packet.of msg).payload.length ≤ 8192

instance (msg : Handshake F) : Decidable msg.Fits := inferInstanceAs (Decidable (_ ≤ _))

theorem Handshake.receiveAs_of {msg msg' : Handshake F} (hfits : msg.Fits) :
    (Packet.of msg).receiveAs Handshake = .ok msg' ↔ msg' = msg := by
  rw [Packet.receiveAs_of_eq_ok]
  exact ⟨fun h => h.2.2, fun h => ⟨⟨msg.payload_pos, hfits⟩, msg.files_fit, h⟩⟩

theorem Handshake.accept_self
    (hfits : (Handshake.new deriveKey identity intent : Handshake F).Fits) :
    Handshake.accept deriveKey identity intent
      (Packet.of (Handshake.new deriveKey identity intent : Handshake F)) = .ok () :=
  Handshake.accept_eq_ok.2 ((Handshake.receiveAs_of hfits).2 rfl)

/-- A handshake sent by one side, checked by the other. -/
theorem Handshake.accept_of_new {pairs : Set (Str × Str)} (hkeys : KeysDistinct deriveKey pairs)
    {identity' intent' : Str} (h : (intent, identity) ∈ pairs) (h' : (intent', identity') ∈ pairs)
    (hfits : (Handshake.new deriveKey identity' intent' : Handshake F).Fits) :
    Handshake.accept deriveKey identity intent
        (Packet.of (Handshake.new deriveKey identity' intent' : Handshake F)) = .ok () ↔
      intent = intent' ∧ identity = identity' := by
  rw [Handshake.accept_eq_ok, Handshake.receiveAs_of hfits, Handshake.new_inj hkeys h h']

end Identity

/-! ## The handshake of the unit tests -/

def testIdentity : Str :=
  ⟨"af1349b9f5f9a1a6a0404dea36dcc9499bcb25c9adc112b7cc9a93cae41f3262", by decide⟩

def testEndpoint : Endpoint :=
  ⟨⟨"tere 2021-06-10T13:38:10 testing client", by decide⟩,
    ⟨"tere 2021-06-10T13:38:43 testing server", by decide⟩, testIdentity⟩

/-- What `blake3::derive_key` returns at the two intents and the identity. -/
def testDeriveKey (context : Str) (keyMaterial : Bytes) : BuildId :=
  if keyMaterial ≠ strBytes testIdentity then ⟨List.replicate 32 0, rfl⟩
  else if context = testEndpoint.clientIntent then
    ⟨[0xfd, 0x52, 0x95, 0x6b, 0xcc, 0x59, 0xa9, 0x1b, 0x1c, 0xc6, 0x92, 0x16, 0xfa, 0xf7, 0x3d,
      0x0e, 0xcc, 0x7b, 0xbf, 0xbd, 0xcf, 0x54, 0xce, 0xbf, 0xf6, 0xc6, 0x5a, 0x33, 0x78, 0x60,
      0x09, 0x40], rfl⟩
  else if context = testEndpoint.serverIntent then
    ⟨[0xa1, 0x92, 0x54, 0x1d, 0x2e, 0xcf, 0x47, 0x63, 0x6c, 0xb9, 0x71, 0x86, 0xa5, 0xdf, 0x83,
      0x0d, 0x9f, 0xae, 0x63, 0x94, 0xf1, 0x39, 0x06, 0x30, 0x60, 0x14, 0x03, 0x94, 0x80, 0x56,
      0x61, 0x69], rfl⟩
  else ⟨List.replicate 32 0, rfl⟩

theorem testKeysDistinct : KeysDistinct testDeriveKey testEndpoint.keys := by
  have hdiffer : testDeriveKey testEndpoint.clientIntent (strBytes testIdentity) ≠
      testDeriveKey testEndpoint.serverIntent (strBytes testIdentity) := by decide
  rintro pair (rfl | rfl) pair' (rfl | rfl) h
  · rfl
  · exact absurd h hdiffer
  · exact absurd h.symm hdiffer
  · rfl

theorem testHello_fits :
    (Handshake.new testDeriveKey testIdentity testEndpoint.clientIntent : Handshake Nat).Fits := by
  decide

theorem testReply_fits :
    (Handshake.new testDeriveKey testIdentity testEndpoint.serverIntent : Handshake Nat).Fits := by
  decide

theorem testHello_accepted :
    Handshake.accept testDeriveKey testEndpoint.identity testEndpoint.clientIntent
      (testEndpoint.hello testDeriveKey : Packet Nat) = .ok () :=
  (Handshake.accept_of_new testKeysDistinct (.inl rfl) (.inl rfl) testHello_fits).2 ⟨rfl, rfl⟩

theorem testReply_accepted :
    Handshake.accept testDeriveKey testEndpoint.identity testEndpoint.serverIntent
      (testEndpoint.reply testDeriveKey : Packet Nat) = .ok () :=
  (Handshake.accept_of_new testKeysDistinct (.inr rfl) (.inr rfl) testReply_fits).2 ⟨rfl, rfl⟩

end TereServer.Ipc
