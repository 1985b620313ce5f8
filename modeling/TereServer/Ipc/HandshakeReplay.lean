import TereServer.Ipc.HandshakeAgreement

/-!
# No echo, no replay across roles

Any number of clients and servers whose messages are in the hands of the
network: it may hand any of the packets that were sent so far to anyone who is
receiving, as often as it likes, or close the connection.  It cannot make up a
packet of its own.
-/

namespace TereServer.Ipc

open Lib Bincode

/-- `sent` holds the packets on the network and who sent each of them. -/
structure Network (F ι κ : Type) where
  client : ι → Client
  server : κ → Server
  sent : List ((ι ⊕ κ) × Packet F)

namespace Network

variable {F ι κ : Type}

/-- One system call of one party.  A receive gets the `n`-th packet sent so far,
or the end of the stream. -/
inductive Action (ι κ : Type)
  | clientSend (i : ι) (result : Except SendError Unit)
  | clientReceive (i : ι) (n : Option Nat)
  | serverReceive (j : κ) (n : Option Nat)
  | serverSend (j : κ) (result : Except SendError Unit)

def start : Network F ι κ := ⟨fun _ => .sending, fun _ => .waiting, []⟩

def fetch (net : Network F ι κ) : Option Nat → Option (Packet F)
  | some n => (net.sent[n]?).map Prod.snd
  | none => some .closed

def post (net : Network F ι κ) (sender : ι ⊕ κ) (pkt : Packet F) (result : Except SendError Unit) :
    List ((ι ⊕ κ) × Packet F) :=
  match result with
  | .ok () => net.sent ++ [(sender, pkt)]
  | .error _ => net.sent

variable [DecidableEq ι] [DecidableEq κ]
variable (deriveKey : Str → Bytes → BuildId) (clients : ι → Endpoint) (servers : κ → Endpoint)

def step (net : Network F ι κ) : Action ι κ → Option (Network F ι κ)
  | .clientSend i result =>
      match net.client i with
      | .sending => some { net with
          client := Function.update net.client i (.sent result)
          sent := net.post (.inl i) ((clients i).hello deriveKey) result }
      | _ => none
  | .clientReceive i n =>
      match net.client i with
      | .waiting => (net.fetch n).map fun pkt => { net with
          client := Function.update net.client i (.received deriveKey (clients i) pkt) }
      | _ => none
  | .serverReceive j n =>
      match net.server j with
      | .waiting => (net.fetch n).map fun pkt => { net with
          server := Function.update net.server j (.received deriveKey (servers j) pkt) }
      | _ => none
  | .serverSend j result =>
      match net.server j with
      | .replying => some { net with
          server := Function.update net.server j (.sent result)
          sent := net.post (.inr j) ((servers j).reply deriveKey) result }
      | _ => none

/-- The only message a party ever sends. -/
def packetOf : ι ⊕ κ → Packet F
  | .inl i => (clients i).hello deriveKey
  | .inr j => (servers j).reply deriveKey

variable {deriveKey clients servers} {net net' : Network F ι κ} {a : Action ι κ}

theorem step_spec (h : step deriveKey clients servers net a = some net') :
    (∃ i result, a = .clientSend i result ∧ net.client i = .sending ∧
      net' = { net with
        client := Function.update net.client i (.sent result)
        sent := net.post (.inl i) ((clients i).hello deriveKey) result }) ∨
    (∃ i n pkt, a = .clientReceive i n ∧ net.client i = .waiting ∧ net.fetch n = some pkt ∧
      net' = { net with
        client := Function.update net.client i (.received deriveKey (clients i) pkt) }) ∨
    (∃ j n pkt, a = .serverReceive j n ∧ net.server j = .waiting ∧ net.fetch n = some pkt ∧
      net' = { net with
        server := Function.update net.server j (.received deriveKey (servers j) pkt) }) ∨
    (∃ j result, a = .serverSend j result ∧ net.server j = .replying ∧
      net' = { net with
        server := Function.update net.server j (.sent result)
        sent := net.post (.inr j) ((servers j).reply deriveKey) result }) := by
  cases a with
  | clientSend i result =>
      simp only [step] at h
      split at h
      · rename_i hi
        exact .inl ⟨i, result, rfl, hi, (Option.some.inj h).symm⟩
      · cases h
  | clientReceive i n =>
      simp only [step] at h
      split at h
      · rename_i hi
        obtain ⟨pkt, hpkt, rfl⟩ := Option.map_eq_some_iff.1 h
        exact .inr (.inl ⟨i, n, pkt, rfl, hi, hpkt, rfl⟩)
      · cases h
  | serverReceive j n =>
      simp only [step] at h
      split at h
      · rename_i hj
        obtain ⟨pkt, hpkt, rfl⟩ := Option.map_eq_some_iff.1 h
        exact .inr (.inr (.inl ⟨j, n, pkt, rfl, hj, hpkt, rfl⟩))
      · cases h
  | serverSend j result =>
      simp only [step] at h
      split at h
      · rename_i hj
        exact .inr (.inr (.inr ⟨j, result, rfl, hj, (Option.some.inj h).symm⟩))
      · cases h

omit [DecidableEq ι] [DecidableEq κ] in
theorem mem_post {sender : ι ⊕ κ} {pkt : Packet F} {result : Except SendError Unit}
    {entry : (ι ⊕ κ) × Packet F} (h : entry ∈ net.post sender pkt result) :
    entry ∈ net.sent ∨ result = .ok () ∧ entry = (sender, pkt) := by
  cases result with
  | error e => exact .inl h
  | ok u =>
      rcases List.mem_append.1 h with h | h
      · exact .inl h
      · exact .inr ⟨rfl, List.mem_singleton.1 h⟩

/-! ## What is on the network -/

/-- Every packet is the message of its sender, and a server that sent one has
returned. -/
def Genuine (deriveKey : Str → Bytes → BuildId) (clients : ι → Endpoint)
    (servers : κ → Endpoint) (net : Network F ι κ) : Prop :=
  ∀ entry ∈ net.sent, entry.2 = packetOf deriveKey clients servers entry.1 ∧
    ∀ j, entry.1 = .inr j → net.server j = .returned (.ok ())

theorem step_genuine (h : step deriveKey clients servers net a = some net')
    (hgenuine : Genuine deriveKey clients servers net) :
    Genuine deriveKey clients servers net' := by
  rcases step_spec h with ⟨i, result, -, -, rfl⟩ | ⟨i, n, pkt, -, -, -, rfl⟩ |
    ⟨j, n, pkt, -, hj, -, rfl⟩ | ⟨j, result, -, hj, rfl⟩
  · intro entry hentry
    rcases mem_post hentry with hold | ⟨-, rfl⟩
    · exact hgenuine entry hold
    · exact ⟨rfl, nofun⟩
  · exact hgenuine
  · intro entry hentry
    obtain ⟨hpkt, hserver⟩ := hgenuine entry hentry
    refine ⟨hpkt, fun k hk => ?_⟩
    have hne : k ≠ j := by
      rintro rfl
      rw [hserver k hk] at hj
      cases hj
    simpa [Function.update_of_ne hne] using hserver k hk
  · intro entry hentry
    rcases mem_post hentry with hold | ⟨rfl, rfl⟩
    · obtain ⟨hpkt, hserver⟩ := hgenuine entry hold
      refine ⟨hpkt, fun k hk => ?_⟩
      by_cases hkj : k = j
      · rw [hkj] at hk
        rw [hserver j hk] at hj
        cases hj
      · simpa [Function.update_of_ne hkj] using hserver k hk
    · refine ⟨rfl, fun k hk => ?_⟩
      obtain rfl := Sum.inr.inj hk
      simp [Server.sent]

/-- The pairs of an intent and an identity that some party derives keys from. -/
def keys (clients : ι → Endpoint) (servers : κ → Endpoint) : Set (Str × Str) :=
  {pair | (∃ i, pair ∈ (clients i).keys) ∨ ∃ j, pair ∈ (servers j).keys}

/-- No client intent in use is a server intent in use. -/
def IntentsDisjoint (clients : ι → Endpoint) (servers : κ → Endpoint) : Prop :=
  ∀ p q : ι ⊕ κ, (Sum.elim clients servers p).clientIntent ≠
    (Sum.elim clients servers q).serverIntent

omit [DecidableEq ι] [DecidableEq κ] in
theorem accept_fetched (hgenuine : Genuine deriveKey clients servers net) {n : Option Nat}
    {pkt : Packet F} (hfetch : net.fetch n = some pkt) {identity intent : Str}
    (haccept : Handshake.accept deriveKey identity intent pkt = .ok ()) :
    (∃ i, .inl i ∈ net.sent.map Prod.fst ∧ (Handshake.new deriveKey identity intent : Handshake F) =
      .new deriveKey (clients i).identity (clients i).clientIntent) ∨
    (∃ j, net.server j = .returned (.ok ()) ∧
      (Handshake.new deriveKey identity intent : Handshake F) =
        .new deriveKey (servers j).identity (servers j).serverIntent) := by
  rw [Handshake.accept_eq_ok] at haccept
  cases n with
  | none =>
      obtain rfl := Option.some.inj hfetch
      rw [Packet.receiveAs_closed] at haccept
      cases haccept
  | some n =>
      obtain ⟨⟨sender, pkt⟩, hget, rfl⟩ := Option.map_eq_some_iff.1 hfetch
      have hmem : (sender, pkt) ∈ net.sent := List.mem_of_getElem? hget
      obtain ⟨hpkt, hserver⟩ := hgenuine _ hmem
      dsimp only at hpkt hserver haccept
      subst hpkt
      cases sender with
      | inl i =>
          exact .inl ⟨i, List.mem_map_of_mem hmem, (Packet.receiveAs_of_eq_ok.1 haccept).2.2⟩
      | inr j => exact .inr ⟨j, hserver j rfl, (Packet.receiveAs_of_eq_ok.1 haccept).2.2⟩

variable (hkeys : KeysDistinct deriveKey (keys clients servers))
  (hdisjoint : IntentsDisjoint clients servers)
include hkeys hdisjoint

omit [DecidableEq ι] [DecidableEq κ] in
/-- What a client accepts, a server of its server intent has sent. -/
theorem client_accepts (hgenuine : Genuine deriveKey clients servers net) {n : Option Nat}
    {pkt : Packet F} (hfetch : net.fetch n = some pkt) {i : ι}
    (haccept : Handshake.accept deriveKey (clients i).identity (clients i).serverIntent pkt =
      .ok ()) :
    ∃ j, net.server j = .returned (.ok ()) ∧
      (servers j).serverIntent = (clients i).serverIntent ∧
      (servers j).identity = (clients i).identity := by
  have hi : ((clients i).serverIntent, (clients i).identity) ∈ keys clients servers :=
    .inl ⟨i, .inr rfl⟩
  rcases accept_fetched hgenuine hfetch haccept with ⟨k, -, hnew⟩ | ⟨j, hj, hnew⟩
  · obtain ⟨hintent, -⟩ := (Handshake.new_inj hkeys hi (.inl ⟨k, .inl rfl⟩)).1 hnew
    exact absurd hintent.symm (hdisjoint (.inl k) (.inl i))
  · obtain ⟨hintent, hidentity⟩ := (Handshake.new_inj hkeys hi (.inr ⟨j, .inr rfl⟩)).1 hnew
    exact ⟨j, hj, hintent.symm, hidentity.symm⟩

omit [DecidableEq ι] [DecidableEq κ] in
/-- What a server accepts, a client of its client intent has sent. -/
theorem server_accepts (hgenuine : Genuine deriveKey clients servers net) {n : Option Nat}
    {pkt : Packet F} (hfetch : net.fetch n = some pkt) {j : κ}
    (haccept : Handshake.accept deriveKey (servers j).identity (servers j).clientIntent pkt =
      .ok ()) :
    ∃ i, .inl i ∈ net.sent.map Prod.fst ∧
      (clients i).clientIntent = (servers j).clientIntent ∧
      (clients i).identity = (servers j).identity := by
  have hj : ((servers j).clientIntent, (servers j).identity) ∈ keys clients servers :=
    .inr ⟨j, .inl rfl⟩
  rcases accept_fetched hgenuine hfetch haccept with ⟨i, hi, hnew⟩ | ⟨k, -, hnew⟩
  · obtain ⟨hintent, hidentity⟩ := (Handshake.new_inj hkeys hj (.inl ⟨i, .inl rfl⟩)).1 hnew
    exact ⟨i, hi, hintent.symm, hidentity.symm⟩
  · obtain ⟨hintent, -⟩ := (Handshake.new_inj hkeys hj (.inr ⟨k, .inr rfl⟩)).1 hnew
    exact absurd hintent (hdisjoint (.inr j) (.inr k))

omit hkeys hdisjoint

/-! ## Which step did it -/

theorem client_returned_cause (h : step deriveKey clients servers net a = some net') {i : ι}
    (hbefore : net.client i ≠ .returned (.ok ())) (hafter : net'.client i = .returned (.ok ())) :
    ∃ n pkt, a = .clientReceive i n ∧ net.fetch n = some pkt ∧
      Handshake.accept deriveKey (clients i).identity (clients i).serverIntent pkt = .ok () := by
  rcases step_spec h with ⟨k, result, rfl, -, rfl⟩ | ⟨k, n, pkt, rfl, -, hpkt, rfl⟩ |
    ⟨j, n, pkt, -, -, -, rfl⟩ | ⟨j, result, -, -, rfl⟩
  · obtain ⟨-, hsent⟩ := update_changed hbefore hafter
    cases result <;> cases hsent
  · obtain ⟨rfl, haccept⟩ := update_changed hbefore hafter
    exact ⟨n, pkt, rfl, hpkt, Client.returned.inj haccept⟩
  · exact absurd hafter hbefore
  · exact absurd hafter hbefore

theorem server_returned_cause (h : step deriveKey clients servers net a = some net') {j : κ}
    (hbefore : net.server j ≠ .returned (.ok ())) (hafter : net'.server j = .returned (.ok ())) :
    a = .serverSend j (.ok ()) ∧ net.server j = .replying := by
  rcases step_spec h with ⟨i, result, -, -, rfl⟩ | ⟨i, n, pkt, -, -, -, rfl⟩ |
    ⟨k, n, pkt, rfl, -, -, rfl⟩ | ⟨k, result, rfl, hk, rfl⟩
  · exact absurd hafter hbefore
  · exact absurd hafter hbefore
  · obtain ⟨-, hreceived⟩ := update_changed hbefore hafter
    rcases Server.received_cases deriveKey (servers k) pkt with ⟨-, hreply⟩ | ⟨e, he⟩
    · cases hreply.symm.trans hreceived
    · cases he.symm.trans hreceived
  · obtain ⟨rfl, hsent⟩ := update_changed hbefore hafter
    cases result with
    | ok u => exact ⟨rfl, hk⟩
    | error e => cases hsent

theorem server_replying_cause (h : step deriveKey clients servers net a = some net') {j : κ}
    (hbefore : net.server j ≠ .replying) (hafter : net'.server j = .replying) :
    ∃ n pkt, a = .serverReceive j n ∧ net.fetch n = some pkt ∧
      Handshake.accept deriveKey (servers j).identity (servers j).clientIntent pkt = .ok () := by
  rcases step_spec h with ⟨i, result, -, -, rfl⟩ | ⟨i, n, pkt, -, -, -, rfl⟩ |
    ⟨k, n, pkt, rfl, -, hpkt, rfl⟩ | ⟨k, result, rfl, hk, rfl⟩
  · exact absurd hafter hbefore
  · exact absurd hafter hbefore
  · obtain ⟨rfl, hreceived⟩ := update_changed hbefore hafter
    rcases Server.received_cases deriveKey (servers j) pkt with ⟨haccept, -⟩ | ⟨e, he⟩
    · exact ⟨n, pkt, rfl, hpkt, haccept⟩
    · cases he.symm.trans hreceived
  · obtain ⟨rfl, -⟩ := update_changed hbefore hafter
    exact absurd hk hbefore

theorem client_sent_cause (h : step deriveKey clients servers net a = some net') {i : ι}
    (hbefore : .inl i ∉ net.sent.map Prod.fst) (hafter : .inl i ∈ net'.sent.map Prod.fst) :
    a = .clientSend i (.ok ()) := by
  obtain ⟨entry, hentry, hsender⟩ := List.mem_map.1 hafter
  have hnew : entry ∉ net.sent := fun hold => hbefore (hsender ▸ List.mem_map_of_mem hold)
  rcases step_spec h with ⟨k, result, rfl, -, rfl⟩ | ⟨k, n, pkt, -, -, -, rfl⟩ |
    ⟨j, n, pkt, -, -, -, rfl⟩ | ⟨j, result, -, -, rfl⟩
  · obtain ⟨rfl, rfl⟩ := (mem_post hentry).resolve_left hnew
    obtain rfl := Sum.inl.inj hsender
    rfl
  · exact absurd hentry hnew
  · exact absurd hentry hnew
  · obtain ⟨rfl, rfl⟩ := (mem_post hentry).resolve_left hnew
    cases hsender

/-! ## Runs -/

theorem run_genuine {actions : List (Action ι κ)}
    (h : run (step deriveKey clients servers) actions start = some net) :
    Genuine deriveKey clients servers net :=
  run_invariant (fun _ _ _ => step_genuine) h (by intro entry hentry; cases hentry)

/-- In the run, `j` accepts a handshake for its own client intent and later sends
its reply. -/
def ServedBy (deriveKey : Str → Bytes → BuildId) (clients : ι → Endpoint)
    (servers : κ → Endpoint) (F : Type) (actions : List (Action ι κ)) (j : κ) : Prop :=
  ∃ before n middle after, actions =
      before ++ .serverReceive j n :: (middle ++ .serverSend j (.ok ()) :: after) ∧
    ∃ (net : Network F ι κ) (pkt : Packet F),
      run (step deriveKey clients servers) before start = some net ∧ net.fetch n = some pkt ∧
        Handshake.accept deriveKey (servers j).identity (servers j).clientIntent pkt = .ok ()

theorem returned_served {actions : List (Action ι κ)} {j : κ}
    (h : run (step deriveKey clients servers) actions start = some net)
    (hj : net.server j = .returned (.ok ())) :
    ServedBy deriveKey clients servers F actions j := by
  obtain ⟨accepting, _, after, replying, _, rfl, haccepting, hnot, hstep, hreturned, -⟩ :=
    run_cause (P := fun net => net.server j = .returned (.ok ())) h nofun hj
  obtain ⟨rfl, hreplying⟩ := server_returned_cause hstep hnot hreturned
  obtain ⟨before, _, middle, waiting, _, rfl, hbefore, hnot, hstep, haccepted, -⟩ :=
    run_cause (P := fun net => net.server j = .replying) haccepting nofun hreplying
  obtain ⟨n, pkt, rfl, hfetch, haccept⟩ := server_replying_cause hstep hnot haccepted
  exact ⟨before, n, middle, after, by simp, waiting, pkt, hbefore, hfetch, haccept⟩

/-- A client that has returned got its reply after a server with that server
intent and identity had accepted a handshake for its own client intent and sent
its reply; a server that has returned got its handshake after a client with that
client intent and identity had sent it. -/
theorem returned_after_peer (deriveKey : Str → Bytes → BuildId) (clients : ι → Endpoint)
    (servers : κ → Endpoint) (hkeys : KeysDistinct deriveKey (keys clients servers))
    (hdisjoint : IntentsDisjoint clients servers) (actions : List (Action ι κ))
    (net : Network F ι κ) (hrun : run (step deriveKey clients servers) actions start = some net) :
    (∀ i, net.client i = .returned (.ok ()) →
      ∃ j before n after, (servers j).serverIntent = (clients i).serverIntent ∧
        (servers j).identity = (clients i).identity ∧
        actions = before ++ .clientReceive i n :: after ∧
        ServedBy deriveKey clients servers F before j) ∧
    (∀ j, net.server j = .returned (.ok ()) →
      ∃ i before n after, (clients i).clientIntent = (servers j).clientIntent ∧
        (clients i).identity = (servers j).identity ∧
        actions = before ++ .serverReceive j n :: after ∧
        .clientSend i (.ok ()) ∈ before) := by
  constructor
  · intro i hi
    obtain ⟨before, _, after, waiting, _, rfl, hbefore, hnot, hstep, hreturned, -⟩ :=
      run_cause (P := fun net => net.client i = .returned (.ok ())) hrun nofun hi
    obtain ⟨n, pkt, rfl, hfetch, haccept⟩ := client_returned_cause hstep hnot hreturned
    obtain ⟨j, hj, hintent, hidentity⟩ :=
      client_accepts hkeys hdisjoint (run_genuine hbefore) hfetch haccept
    exact ⟨j, before, n, after, hintent, hidentity, rfl, returned_served hbefore hj⟩
  · intro j hj
    obtain ⟨before, n, middle, after, rfl, waiting, pkt, hbefore, hfetch, haccept⟩ :=
      returned_served hrun hj
    obtain ⟨i, hi, hintent, hidentity⟩ :=
      server_accepts hkeys hdisjoint (run_genuine hbefore) hfetch haccept
    obtain ⟨first, _, rest, _, _, rfl, -, hnot, hstep, hsent, -⟩ :=
      run_cause (P := fun net => .inl i ∈ net.sent.map Prod.fst) hbefore (by simp [start]) hi
    obtain rfl := client_sent_cause hstep hnot hsent
    exact ⟨i, _, n, _, hintent, hidentity, rfl, by simp⟩

theorem returned_after_peer_test :
    ∃ net : Network Nat Unit Unit, run (step testDeriveKey (fun _ => testEndpoint)
        (fun _ => testEndpoint)) [.clientSend () (.ok ()), .serverReceive () (some 0),
          .serverSend () (.ok ()), .clientReceive () (some 1)] start = some net ∧
      ∃ before n after, [.clientSend () (.ok ()), .serverReceive () (some 0),
          .serverSend () (.ok ()), .clientReceive () (some 1)] =
        before ++ .clientReceive () n :: after ∧
        ServedBy testDeriveKey (fun _ => testEndpoint) (fun _ => testEndpoint) Nat before () := by
  have hkeys : KeysDistinct testDeriveKey
      (keys (fun _ : Unit => testEndpoint) (fun _ : Unit => testEndpoint)) :=
    testKeysDistinct.mono fun pair hpair => hpair.elim (fun ⟨_, h⟩ => h) fun ⟨_, h⟩ => h
  have hdisjoint : IntentsDisjoint (fun _ : Unit => testEndpoint) (fun _ : Unit => testEndpoint) := by
    have hdiffer : testEndpoint.clientIntent ≠ testEndpoint.serverIntent := by decide
    rintro (i | i) (j | j) <;> exact hdiffer
  have hrun : run (step testDeriveKey (fun _ => testEndpoint) (fun _ => testEndpoint))
      [.clientSend () (.ok ()), .serverReceive () (some 0), .serverSend () (.ok ()),
        .clientReceive () (some 1)] (start : Network Nat Unit Unit) =
      some ⟨fun _ => .returned (.ok ()), fun _ => .returned (.ok ()),
        [(.inl (), testEndpoint.hello testDeriveKey),
          (.inr (), testEndpoint.reply testDeriveKey)]⟩ := by
    simp [run, step, start, fetch, post, Server.received, Client.received, Server.sent,
      Client.sent, testHello_accepted, testReply_accepted]
    exact ⟨funext fun _ => rfl, funext fun _ => rfl⟩
  obtain ⟨hclients, -⟩ := returned_after_peer testDeriveKey (fun _ => testEndpoint)
    (fun _ => testEndpoint) hkeys hdisjoint _ _ hrun
  obtain ⟨j, before, n, after, -, -, hsplit, hserved⟩ := hclients () rfl
  exact ⟨_, hrun, before, n, after, hsplit, hserved⟩

end Network

end TereServer.Ipc
