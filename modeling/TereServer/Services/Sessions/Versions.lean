import TereServer.Ipc.HandshakeErrors
import TereServer.ProtocolIdentity.Stream
import TereServer.Services.Sessions.Liveness

/-!
# Services of two builds

The identity of a build is the hash of its source trees.  A sessions service and a pty
service that were built from the same files can complete every request, and where the
files differ every instance rejects the sessions service: no PTY and no client ever
leaves it.
-/

namespace TereServer.Services.Sessions

open Lib Bincode Ipc Proto.Sessions ProtocolIdentity

theorem utf8ByteSize_le (l : List Char) : (String.ofList l).utf8ByteSize ≤ 4 * l.length := by
  induction l with
  | nil => simp
  | cons c l ih =>
      have hsize := Char.utf8Size_le_four c
      have hcons : (String.ofList (c :: l)).utf8ByteSize =
          c.utf8Size + (String.ofList l).utf8ByteSize := by
        rw [← List.singleton_append, String.ofList_append, String.utf8ByteSize_append]
        simp
      rw [hcons, List.length_cons]
      omega

/-! ## One instance -/

section Connection

variable {ι F : Type} {setup : Setup F} {create : CreateShellSession F} {ptyMaster : F}
  {conn conn' : PtyConn ι F} {b : PtyAction}

/-- The instance has not read the handshake, or it has rejected it. -/
def PtyConn.Rejects (conn : PtyConn ι F) : Prop :=
  conn.reads = [] ∧ conn.service.point = .handshaking ∨
    ∃ e, conn.service.point = .exited e ∧
      (conn.reads = [] ∨ e = .returned (.handshake .wrongVersion))

def helloKeys (setup : Setup F) : Set (Str × Str) :=
  {(Proto.Pty.clientIntent, setup.ptyIdentity), (Proto.Pty.clientIntent, setup.identity)}

theorem accept_hello (hkeys : KeysDistinct setup.deriveKey (helloKeys setup)) :
    Handshake.accept setup.deriveKey setup.ptyIdentity Proto.Pty.clientIntent
        (Packet.of (hello setup)) =
      if setup.identity = setup.ptyIdentity then .ok () else .error .wrongVersion := by
  rcases Handshake.accept_new (F := F) hkeys with ⟨-, haccept⟩ | ⟨hlong, -⟩
  · simpa [hello] using haccept
  · exact absurd (by decide) hlong

theorem helloAccepted_iff (hkeys : KeysDistinct setup.deriveKey (helloKeys setup)) :
    HelloAccepted setup ↔ setup.identity = setup.ptyIdentity := by
  unfold HelloAccepted
  rw [accept_hello hkeys]
  by_cases hsame : setup.identity = setup.ptyIdentity
  · simp [hsame]
  · simp [hsame]

theorem reply_accepted (hsame : setup.identity = setup.ptyIdentity) :
    acceptPty setup (ptyReply setup) = .ok () := by
  have hfits : (Handshake.new setup.deriveKey setup.identity Proto.Pty.serverIntent :
      Handshake F).Fits := by
    rw [Handshake.fits_iff]
    show Proto.Pty.serverIntent.1.utf8ByteSize ≤ 8157
    decide
  unfold acceptPty ptyReply
  rw [← hsame]
  exact Handshake.accept_self hfits

theorem received_wrong_version (hkeys : KeysDistinct setup.deriveKey (helloKeys setup))
    (hdiffer : setup.identity ≠ setup.ptyIdentity) :
    received setup .handshaking (Packet.of (hello setup)) =
      (.exited (.returned (.handshake .wrongVersion)), []) := by
  unfold received Pty.Point.received
  rw [accept_hello hkeys, if_neg hdiffer]

theorem PtyConn.step_handshaking (hpoint : conn.service.point = .handshaking)
    (h : conn.step setup b = some conn') :
    (conn'.service.point = .handshaking ∧ conn'.reads = conn.reads) ∨
    (∃ e, conn'.service.point = .exited e ∧ conn'.reads = conn.reads) ∨
    ∃ pkt rest, conn.service.conn.incoming = pkt :: rest ∧
      conn' = conn.receive setup .handshake pkt rest := by
  cases b with
  | fail io =>
      obtain ⟨exit, -, rfl⟩ := Option.map_eq_some_iff.1 h
      exact .inr (.inl ⟨exit, rfl, rfl⟩)
  | run action =>
      cases action with
      | ptyIo n =>
          obtain ⟨service, hservice, rfl⟩ := Option.map_eq_some_iff.1 h
          obtain ⟨user, -, rfl⟩ := Option.map_eq_some_iff.1 hservice
          exact .inl ⟨hpoint, rfl⟩
      | serve =>
          rcases PtyConn.serve_cases h with ⟨kind, pkt, rest, hkind, hincoming, rfl⟩ |
            ⟨kind, e, -, -, rfl⟩ | ⟨hreplying, -⟩
          · rw [hpoint] at hkind
            cases hkind
            exact .inr (.inr ⟨pkt, rest, hincoming, rfl⟩)
          · exact .inr (.inl ⟨e, rfl, rfl⟩)
          · rw [hpoint] at hreplying
            cases hreplying

theorem PtyConn.step_exited {e : Pty.Exit} (hpoint : conn.service.point = .exited e)
    (h : conn.step setup b = some conn') :
    conn'.service.point = .exited e ∧ conn'.reads = conn.reads := by
  cases b with
  | fail io => simp [PtyConn.step, hpoint, failure] at h
  | run action =>
      cases action with
      | serve => simp [PtyConn.step, PtyConn.blocked, Sessions.receives, Pty.step, hpoint] at h
      | ptyIo n =>
          obtain ⟨service, hservice, rfl⟩ := Option.map_eq_some_iff.1 h
          obtain ⟨user, -, rfl⟩ := Option.map_eq_some_iff.1 hservice
          exact ⟨hpoint, rfl⟩

/-- No step of the instance gets past the handshake of another build. -/
theorem PtyConn.Rejects.step (hkeys : KeysDistinct setup.deriveKey (helloKeys setup))
    (hdiffer : setup.identity ≠ setup.ptyIdentity) (hrelays : conn.Relays setup create ptyMaster)
    (hrejects : conn.Rejects) (h : conn.step setup b = some conn') : conn'.Rejects := by
  rcases hrejects with ⟨hreads, hpoint⟩ | ⟨e, hpoint, hreads⟩
  · rcases PtyConn.step_handshaking hpoint h with
      ⟨hpoint', hreads'⟩ | ⟨e, hpoint', hreads'⟩ | ⟨pkt, rest, hincoming, rfl⟩
    · exact .inl ⟨hreads'.trans hreads, hpoint'⟩
    · exact .inr ⟨e, hpoint', .inl (hreads'.trans hreads)⟩
    · obtain ⟨m, hm, rfl⟩ := hrelays.next hincoming
      rw [hreads] at hm
      obtain rfl := Option.some.inj hm
      right
      refine ⟨_, ?_, .inr rfl⟩
      show (received setup conn.service.point (Packet.of (hello setup))).1 = _
      rw [hpoint, received_wrong_version hkeys hdiffer]
  · obtain ⟨hpoint', hreads'⟩ := PtyConn.step_exited hpoint h
    right
    refine ⟨e, hpoint', ?_⟩
    rw [hreads']
    exact hreads

end Connection

/-! ## All instances -/

section Steps

variable {ι F : Type} {setup : Setup F} {s s' : State ι F} {k : Nat} {conn conn' : PtyConn ι F}

theorem PtyConn.Next.rejects (hkeys : KeysDistinct setup.deriveKey (helloKeys setup))
    (hdiffer : setup.identity ≠ setup.ptyIdentity) {create : CreateShellSession F} {ptyMaster : F}
    (hrelays : conn.Relays setup create ptyMaster) (hrejects : conn.Rejects) [DecidableEq ι]
    (h : conn.Next setup s s' k conn') : conn'.Rejects := by
  cases h with
  | kept => exact hrejects
  | closed howner he hs' => exact hrejects
  | pushed howner hsends hs' => exact hrejects
  | accepted howner hpoint hk hreply haccept hs' => exact hrejects
  | refused howner hs' => exact hrejects
  | served hserve hs' => exact hrejects.step hkeys hdiffer hrelays hserve

variable [DecidableEq ι] {actions : List (Action ι F)}

theorem Point.nonempty_of_serving {p : Point F} (h : p.serving = true) : Nonempty F := by
  cases p with
  | printingRequest create => exact ⟨create.fd⟩
  | lockingSessions create => exact ⟨create.fd⟩
  | drawingId create => exact ⟨create.fd⟩
  | inserting create sessionId => exact ⟨create.fd⟩
  | printingId r => exact ⟨r.create.fd⟩
  | creatingShell r => exact ⟨r.create.fd⟩
  | connecting r ptyMaster => exact ⟨ptyMaster⟩
  | greeting b => exact ⟨b.ptyMaster⟩
  | awaitingReply b => exact ⟨b.ptyMaster⟩
  | sendingInit b => exact ⟨b.ptyMaster⟩
  | lockingEntry b => exact ⟨b.ptyMaster⟩
  | storing b => exact ⟨b.ptyMaster⟩
  | sendingClient create k => exact ⟨create.fd⟩
  | _ => cases h

def Rejecting (setup : Setup F) (s : State ι F) : Prop :=
  Replying setup s ∧ ∀ (k : Nat) (conn : PtyConn ι F), s.conns[k]? = some conn → conn.Rejects

theorem step_rejecting (hkeys : KeysDistinct setup.deriveKey (helloKeys setup))
    (hdiffer : setup.identity ≠ setup.ptyIdentity) {a : Action ι F} (h : step setup s a = some s')
    (hs : Rejecting setup s) : Rejecting setup s' := by
  obtain ⟨hreplying, hrejects⟩ := hs
  refine ⟨step_replying h hreplying, fun k conn' hconn' => ?_⟩
  rcases step_conn hreplying.completes.good.inv h hconn' with
    ⟨t, r, ptyMaster, -, -, -, rfl⟩ | ⟨conn, hconn, hnext⟩
  · exact .inl ⟨rfl, rfl⟩
  · obtain ⟨create, ptyMaster, -, hrelays⟩ := hreplying.relaying k conn hconn
    exact hnext.rejects hkeys hdiffer hrelays (hrejects k conn hconn)

theorem run_rejecting (hkeys : KeysDistinct setup.deriveKey (helloKeys setup))
    (hdiffer : setup.identity ≠ setup.ptyIdentity)
    (h : run (step setup) actions start = some s) : Rejecting setup s := by
  have hstart : Rejecting setup (start : State ι F) :=
    ⟨run_replying (run_nil _), fun k conn hconn => by simp [start] at hconn⟩
  exact run_invariant (fun _ _ _ => step_rejecting hkeys hdiffer) h hstart

/-- Nothing but handshakes has left the sessions service, and no session is stored. -/
structure Isolated (setup : Setup F) (s : State ι F) : Prop where
  entries : ∀ (j : Nat) (entry : Entry ι F), s.entries[j]? = some entry →
    entry.session.value = .creating
  sent : ∀ (k : Nat) (conn : PtyConn ι F), s.conns[k]? = some conn →
    conn.sent <+: [.handshake (hello setup)]
  users : ∀ (k : Nat) (conn : PtyConn ι F), s.conns[k]? = some conn →
    Pty.users conn.service.events = []
  rejects : ∀ (k : Nat) (conn : PtyConn ι F), s.conns[k]? = some conn → conn.Rejects

theorem run_isolated (hkeys : KeysDistinct setup.deriveKey (helloKeys setup))
    (hdiffer : setup.identity ≠ setup.ptyIdentity)
    (h : run (step setup) actions start = some s) : Isolated setup s := by
  obtain ⟨hreplying, hrejects⟩ := run_rejecting hkeys hdiffer h
  have hrefused : ¬ HelloAccepted setup := (helloAccepted_iff hkeys).not.2 hdiffer
  have hshort (k : Nat) (conn : PtyConn ι F) (hconn : s.conns[k]? = some conn) :
      conn.sent.length ≤ 1 := by
    by_contra hlong
    have htaken := hreplying.replies.announced k conn hconn (by omega)
    exact hrefused htaken.accepted
  refine ⟨fun j entry hentry => ?_, fun k conn hconn => ?_, fun k conn hconn => ?_, hrejects⟩
  · cases hvalue : entry.session.value with
    | creating => rfl
    | ready ptyMaster k =>
        obtain ⟨create, conn, -, hconn, -, -, htwo⟩ :=
          hreplying.stored ⟨j, entry, hentry, rfl, hvalue⟩
        exact absurd (hshort k conn hconn) (by omega)
  · obtain ⟨create, ptyMaster, -, hrelays⟩ := hreplying.relaying k conn hconn
    have hhello : [Sent.handshake (hello setup)] <+: script setup create ptyMaster := ⟨_, rfl⟩
    exact List.prefix_of_prefix_length_le hrelays.sent hhello (hshort k conn hconn)
  · obtain ⟨create, ptyMaster, hstarted, hrelays⟩ := hreplying.relaying k conn hconn
    have hserves := hreplying.replies.serves k conn hconn create ptyMaster hstarted
    have hle := hrelays.reads_le
    have hone := hshort k conn hconn
    rw [PtyConn.Serves, if_neg (by omega)] at hserves
    exact hserves

/-! ## Builds of source trees -/

/-- The identity that the build script puts into a build of `tree`. -/
def protocolIdentity (blake3 : Bytes → Hash) (tree : SourceTree) : Str where
  val := hashProtocolIdentity blake3 tree
  property := by
    have hle := utf8ByteSize_le ((blake3 (tree.stream blake3)).1.flatMap hexByte)
    have hdigits (bytes : Bytes) : (bytes.flatMap hexByte).length = 2 * bytes.length := by
      rw [List.length_flatMap]
      simp [hexByte, Nat.mul_comm]
    rw [hdigits, (blake3 _).2] at hle
    show (String.ofList _).utf8ByteSize < _
    omega

/-- The sessions service of one build and the pty service of another. -/
def Setup.ofTrees (blake3 : Bytes → Hash) (deriveKey : Str → Bytes → BuildId)
    (isSeqPacket : F → Bool) (tree ptyTree : SourceTree) : Setup F where
  deriveKey := deriveKey
  isSeqPacket := isSeqPacket
  identity := protocolIdentity blake3 tree
  ptyIdentity := protocolIdentity blake3 ptyTree

/-- Where the files of the two builds differ, no session is ever stored and nothing but
handshakes leaves the sessions service.  A request that is being served, and whose
instance has not exited, can be completed exactly when the files are the same. -/
theorem requests_complete_iff_same_files (blake3 : Bytes → Hash)
    (deriveKey : Str → Bytes → BuildId) (isSeqPacket : F → Bool) (tree ptyTree : SourceTree)
    (hblake3 : Set.InjOn blake3 (SourceTree.contents tree ptyTree ∪
      {tree.stream blake3, ptyTree.stream blake3}))
    (hkeys : KeysDistinct deriveKey
      (helloKeys (Setup.ofTrees blake3 deriveKey isSeqPacket tree ptyTree)))
    (actions : List (Action ι F)) (s : State ι F)
    (h : run (step (.ofTrees blake3 deriveKey isSeqPacket tree ptyTree)) actions start = some s) :
    (¬ (∀ path leaf, tree.Contains path leaf ↔ ptyTree.Contains path leaf) →
      Isolated (.ofTrees blake3 deriveKey isSeqPacket tree ptyTree) s) ∧
    ∀ t, (s.point t).serving = true → s.entries.length + 2 ≤ 2 ^ 192 →
      (∀ (k : Nat) (conn : PtyConn ι F), s.conns[k]? = some conn → conn.owner = (t, s.serial t) →
        ∀ e, conn.service.point ≠ .exited e) →
      ((∃ later s', run (step (.ofTrees blake3 deriveKey isSeqPacket tree ptyTree)) later s = some s' ∧
          Served (.ofTrees blake3 deriveKey isSeqPacket tree ptyTree) s' (t, s.serial t)) ↔
        ∀ path leaf, tree.Contains path leaf ↔ ptyTree.Contains path leaf) := by
  have hsame : (Setup.ofTrees blake3 deriveKey isSeqPacket tree ptyTree).identity =
      (Setup.ofTrees blake3 deriveKey isSeqPacket tree ptyTree).ptyIdentity ↔
        ∀ path leaf, tree.Contains path leaf ↔ ptyTree.Contains path leaf := by
    rw [← hashProtocolIdentity_eq_iff hblake3]
    exact Subtype.ext_iff
  refine ⟨fun hdiffer => run_isolated hkeys (hsame.not.2 hdiffer) h,
    fun t hserving hspace halive => ?_⟩
  constructor
  · intro hcompletes
    obtain ⟨later, s', hlater, hserved⟩ := hcompletes
    by_contra hdiffer
    have hisolated := run_isolated hkeys (hsame.not.2 hdiffer)
      (run_append_eq_some.2 ⟨s, h, hlater⟩)
    obtain ⟨create, ptyMaster, j, k, entry, conn, -, -, hentry, -, -, hready, -⟩ := hserved
    have hcreating := hisolated.entries j entry hentry
    rw [hready] at hcreating
    cases hcreating
  · intro hfiles
    have hidentity := hsame.2 hfiles
    obtain ⟨pty⟩ := Point.nonempty_of_serving hserving
    obtain ⟨later, s', k, hlater, -, -, -, -, hserved, -⟩ :=
      exists_completion ((helloAccepted_iff hkeys).2 hidentity) (reply_accepted hidentity) h
        hserving hspace halive pty
    exact ⟨later, s', hlater, hserved⟩

end Steps

/-! ## A build of nothing, and one of a file and a link -/

def testEmptyTree : SourceTree :=
  .ofListing [] (.dir List.nodup_nil (List.forall_mem_nil _))

/-- What `blake3::hash` returns for the inputs of the two builds. -/
def versionBlake3 (input : Bytes) : Hash :=
  if input = [] then testBlake3 []
  else
    ⟨[0xd2, 0x41, 0xd2, 0x2d, 0x73, 0x20, 0x2f, 0x0c, 0xea, 0x09, 0x53, 0x48, 0xff, 0x8b, 0x41,
      0x2f, 0x24, 0x96, 0x6a, 0xad, 0xf4, 0xc8, 0x87, 0xdf, 0xcd, 0x2f, 0x75, 0x64, 0xea, 0x72,
      0xdd, 0x88], rfl⟩

/-- What `blake3::derive_key` returns at the intents and the two identities. -/
def versionDeriveKey (context : Str) (keyMaterial : Bytes) : BuildId :=
  if keyMaterial = strBytes testIdentity then servicesDeriveKey context keyMaterial
  else
    ⟨[0x9d, 0x18, 0xd5, 0x1b, 0x9f, 0x72, 0x34, 0x60, 0xe7, 0x5a, 0xb3, 0xe8, 0x19, 0x26, 0x76,
      0x0a, 0xd2, 0xce, 0xc6, 0x2b, 0x2e, 0x25, 0xc2, 0x51, 0x09, 0xbc, 0xf7, 0x9b, 0xbe, 0x90,
      0xc3, 0x6d], rfl⟩

def testFilesIdentity : Str :=
  ⟨"d241d22d73202f0cea095348ff8b412f24966aadf4c887dfcd2f7564ea72dd88", by decide⟩

def testBuilds (ptyTree : SourceTree) : Setup Nat :=
  .ofTrees versionBlake3 versionDeriveKey (fun _ => true) testEmptyTree ptyTree

theorem testEmptyTree_contains {path : PathBuf} {leaf : ProtocolIdentity.Leaf Bytes} :
    ¬ testEmptyTree.Contains path leaf := by
  rw [← SourceTree.mem_leaves]
  have hleaves : leaves testEmptyTree.walk = [] := rfl
  rw [hleaves]
  exact List.not_mem_nil

theorem versionBlake3_injOn {inputs : Set Bytes} (input : Bytes)
    (h : ∀ i ∈ inputs, i = [] ∨ i = input) : Set.InjOn versionBlake3 inputs := by
  intro i hi j hj heq
  have hdiffer : ∀ k : Bytes, k ≠ [] → versionBlake3 k ≠ versionBlake3 [] := by
    intro k hk
    unfold versionBlake3
    rw [if_neg hk]
    decide
  by_cases hi' : i = []
  · by_cases hj' : j = []
    · rw [hi', hj']
    · rw [hi'] at heq
      exact absurd heq.symm (hdiffer j hj')
  · by_cases hj' : j = []
    · rw [hj'] at heq
      exact absurd heq (hdiffer i hi')
    · rw [(h i hi).resolve_left hi', (h j hj).resolve_left hj']

theorem testBuilds_client (ptyTree : SourceTree) :
    acceptClient (testBuilds ptyTree) (.ok testClient) = .ok () := by
  have hhello : (Handshake.new versionDeriveKey testIdentity clientIntent : Handshake Nat) =
      .new servicesDeriveKey testIdentity clientIntent := rfl
  have hfits : (Handshake.new versionDeriveKey testIdentity clientIntent : Handshake Nat).Fits := by
    rw [Handshake.fits_iff]
    show clientIntent.1.utf8ByteSize ≤ 8157
    decide
  have hidentity : (testBuilds ptyTree).identity = testIdentity := Subtype.ext rfl
  unfold acceptClient
  rw [hidentity]
  show Handshake.accept versionDeriveKey testIdentity clientIntent (Packet.of
    (Handshake.new servicesDeriveKey testIdentity clientIntent)) = .ok ()
  rw [← hhello]
  exact Handshake.accept_self hfits

def testRejecting : List (Action Unit Nat) :=
  [.createShell () (some 5), .connect () true, .sent () (.ok ()), .pty 0 (.run .serve)]

theorem testBuilds_rejecting {ptyTree : SourceTree}
    (hkeys : KeysDistinct versionDeriveKey (helloKeys (testBuilds ptyTree)))
    (hdiffer : (testBuilds ptyTree).identity ≠ (testBuilds ptyTree).ptyIdentity) :
    ∃ s conn, run (step (testBuilds ptyTree)) (testReserving ++ testRejecting) start = some s ∧
      s.conns[0]? = some conn ∧
        conn.service.point = .exited (.returned (.handshake .wrongVersion)) :=
  ⟨_, _, run_append_eq_some.2 ⟨_,
      run_cons_eq_some.2 ⟨_, step_accepted rfl (testBuilds_client ptyTree),
      run_cons_eq_some.2 ⟨_, rfl,
      run_cons_eq_some.2 ⟨_, step_requested rfl testRequest_received, rfl⟩⟩⟩,
      run_cons_eq_some.2 ⟨_, rfl,
      run_cons_eq_some.2 ⟨_, rfl,
      run_cons_eq_some.2 ⟨_, rfl,
      run_cons_eq_some.2 ⟨_, step_received rfl rfl rfl
        (received_wrong_version hkeys hdiffer), rfl⟩⟩⟩⟩⟩, rfl, rfl⟩

theorem testBuilds_reserved (ptyTree : SourceTree) : ∃ s,
    run (step (testBuilds ptyTree)) testReserving start = some s ∧
      (s.point ()).serving = true ∧ s.entries.length = 1 ∧ s.conns = [] :=
  ⟨_,
    run_cons_eq_some.2 ⟨_, step_accepted rfl (testBuilds_client ptyTree),
    run_cons_eq_some.2 ⟨_, rfl,
    run_cons_eq_some.2 ⟨_, step_requested rfl testRequest_received, rfl⟩⟩⟩, rfl, rfl, rfl⟩

theorem versionKeys_distinct : KeysDistinct versionDeriveKey
    {(Proto.Pty.clientIntent, testFilesIdentity), (Proto.Pty.clientIntent, testIdentity)} := by
  have hdiffer : versionDeriveKey Proto.Pty.clientIntent (strBytes testFilesIdentity) ≠
      versionDeriveKey Proto.Pty.clientIntent (strBytes testIdentity) := by decide
  rintro pair (rfl | rfl) pair' (rfl | rfl) heq
  · rfl
  · exact absurd heq hdiffer
  · exact absurd heq.symm hdiffer
  · rfl

/-- The inputs of the hash function in the two builds. -/
theorem testBuilds_injOn (ptyTree : SourceTree)
    (hcontent : ∀ path content, ptyTree.Contains path (.file content) → content = []) :
    Set.InjOn versionBlake3 (SourceTree.contents testEmptyTree ptyTree ∪
      {testEmptyTree.stream versionBlake3, ptyTree.stream versionBlake3}) := by
  apply versionBlake3_injOn (ptyTree.stream versionBlake3)
  rintro i (⟨path, hempty | hfile⟩ | hstream | hstream)
  · exact absurd hempty testEmptyTree_contains
  · exact .inl (hcontent path i hfile)
  · exact .inl hstream
  · exact .inr hstream

/-- A request is completed by a pty service of the same build, and rejected by one that
was built from two more files. -/
theorem requests_complete_iff_same_files_test :
    (∃ (s : State Unit Nat) (later : List (Action Unit Nat)) (s' : State Unit Nat),
      run (step (testBuilds testEmptyTree)) testReserving start = some s ∧
      run (step (testBuilds testEmptyTree)) later s = some s' ∧
      Served (testBuilds testEmptyTree) s' ((), s.serial ())) ∧
    ∃ (s : State Unit Nat) (conn : PtyConn Unit Nat),
      run (step (testBuilds (.testTree []))) (testReserving ++ testRejecting) start = some s ∧
      s.conns[0]? = some conn ∧
      conn.service.point = .exited (.returned (.handshake .wrongVersion)) ∧
      Isolated (testBuilds (.testTree [])) s := by
  constructor
  · obtain ⟨s, hrun, hserving, hlength, hconns⟩ := testBuilds_reserved testEmptyTree
    have hspace : s.entries.length + 2 ≤ 2 ^ 192 := by
      rw [hlength]
      decide
    have hkeys : KeysDistinct versionDeriveKey (helloKeys (testBuilds testEmptyTree)) := by
      rintro pair (rfl | rfl) pair' (rfl | rfl) heq <;> rfl
    have hblake3 := testBuilds_injOn testEmptyTree
      fun path content hfile => absurd hfile testEmptyTree_contains
    obtain ⟨later, s', hlater, hserved⟩ :=
      ((requests_complete_iff_same_files versionBlake3 versionDeriveKey (fun _ => true) testEmptyTree
        testEmptyTree hblake3 hkeys testReserving s hrun).2 () hserving hspace
        (fun k conn hconn => by simp [hconns] at hconn)).2 fun _ _ => Iff.rfl
    exact ⟨s, later, s', hrun, hlater, hserved⟩
  · have hpty : (testBuilds (.testTree [])).ptyIdentity = testFilesIdentity := Subtype.ext rfl
    have hempty : (testBuilds (.testTree [])).identity = testIdentity := Subtype.ext rfl
    have hne : testIdentity ≠ testFilesIdentity := by decide
    have hkeys : KeysDistinct versionDeriveKey (helloKeys (testBuilds (.testTree []))) := by
      unfold helloKeys
      rw [hpty, hempty]
      exact versionKeys_distinct
    have hdiffer : ¬ ∀ path leaf, testEmptyTree.Contains path leaf ↔
        (SourceTree.testTree []).Contains path leaf := by
      intro hsame
      exact testEmptyTree_contains ((hsame _ _).2 (SourceTree.testTree_contains []))
    have hidentity : (testBuilds (.testTree [])).identity ≠ (testBuilds (.testTree [])).ptyIdentity := by
      rw [hpty, hempty]
      exact hne
    obtain ⟨s, conn, hrun, hconn, hpoint⟩ := testBuilds_rejecting hkeys hidentity
    have hblake3 := testBuilds_injOn (.testTree [])
      fun path content hfile => SourceTree.testTree_content hfile
    exact ⟨s, conn, hrun, hconn, hpoint, (requests_complete_iff_same_files versionBlake3
      versionDeriveKey (fun _ => true) testEmptyTree (.testTree []) hblake3 hkeys _ s hrun).1 hdiffer⟩

end TereServer.Services.Sessions
