import Mathlib.Data.BitVec
import Mathlib.Logic.Encodable.Pi
import Mathlib.SetTheory.Cardinal.Finite
import TereServer.Services.Sessions.Instances

/-!
# Requests that can be completed

The threads wait for each other only at the mutex of the map, and its holder leaves
the critical section in two steps.  So whatever has happened to the other requests, a
request that is being served can be brought to its end by its own thread, the holder
of the map and its own instance of the pty service.
-/

namespace TereServer.Services.Sessions

open Lib Bincode Ipc Proto.Sessions

/-! ## Session ids that are free -/

theorem card_sessionId : Nat.card SessionId = 2 ^ 192 := by
  have hbyte : Nat.card (BitVec 8) = 2 ^ 8 := by
    rw [Nat.card_congr (BitVec.equivFin (m := 8)).toEquiv, Nat.card_fin]
  have hvector : Nat.card SessionId = Nat.card (Fin 24 → BitVec 8) :=
    Nat.card_congr (Equiv.vectorEquivFin (BitVec 8) 24)
  rw [hvector, Nat.card_fun, hbyte, Nat.card_fin, ← pow_mul]

section Definitions

variable {ι F : Type} {setup : Setup F} {s : State ι F} {t : ι}

theorem Inv.sessions_lt (hinv : Inv setup s) {id : SessionId} {k : Nat}
    (h : s.sessions.value id = some k) : k < s.entries.length := by
  obtain ⟨owner, howner⟩ := (hinv.sessions id k).1 h
  obtain ⟨hlt, -⟩ := List.getElem?_eq_some_iff.1 howner
  rw [State.reservations, List.length_map] at hlt
  exact hlt

theorem Inv.sessions_inj (hinv : Inv setup s) {id id' : SessionId} {k : Nat}
    (h : s.sessions.value id = some k) (h' : s.sessions.value id' = some k) : id = id' := by
  obtain ⟨owner, howner⟩ := (hinv.sessions id k).1 h
  obtain ⟨owner', howner'⟩ := (hinv.sessions id' k).1 h'
  rw [howner] at howner'
  exact congrArg Prod.snd (Option.some.inj howner')

theorem Inv.exists_free (hinv : Inv setup s) (h : s.entries.length < 2 ^ 192) :
    ∃ id, s.sessions.value id = none := by
  by_contra hall
  have htaken (id : SessionId) : ∃ k, s.sessions.value id = some k := by
    apply Option.ne_none_iff_exists'.1
    intro hnone
    exact hall ⟨id, hnone⟩
  choose index hindex using htaken
  have hinjective : Function.Injective fun id =>
      (⟨index id, hinv.sessions_lt (hindex id)⟩ : Fin s.entries.length) := by
    intro id id' heq
    apply hinv.sessions_inj (hindex id)
    rw [hindex id']
    exact congrArg some (Fin.val_eq_of_eq heq).symm
  have hle := Nat.card_le_card_of_injective _ hinjective
  rw [card_sessionId, Nat.card_fin] at hle
  omega

/-! ## Who holds a mutex -/

/-- Only a thread in a critical section holds a mutex, and only after a request. -/
structure Exclusive (s : State ι F) : Prop where
  sessions : ∀ t, s.sessions.holder = some t → (s.point t).holdsSessions = true
  entries : ∀ (k : Nat) (entry : Entry ι F), s.entries[k]? = some entry →
    entry.session.holder = none ∨ ∃ b, s.point entry.owner.1 = .storing b ∧ b.sessionEntry = k
  counted : ∀ t, s.serial t = 0 → (s.point t).idle = true

/-- A request that is served and was not announced yet. -/
def Point.serving : Point F → Bool
  | .sendingClient _ _ => true
  | p => p.unconnected || p.ptyConn.isSome

end Definitions

section Steps

variable {ι F : Type} [DecidableEq ι] {setup : Setup F} {s s' : State ι F} {a : Action ι F}
  {t : ι}

/-- The mutex of the map is left by the thread that has taken it. -/
theorem Step.exclusive_sessions (h : Step setup s a s')
    (hs : ∀ t, s.sessions.holder = some t → (s.point t).holdsSessions = true)
    (hholder : s'.sessions.holder = some t) : (s'.point t).holdsSessions = true := by
  have hother {u : ι} {p : Point F} (hu : (s.point u).holdsSessions = true → p.holdsSessions = true)
      (hsame : s.sessions.holder = some t) :
      (Function.update s.point u p t).holdsSessions = true := by
    by_cases htu : t = u
    · subst htu
      rw [Function.update_self]
      exact hu (hs t hsame)
    · rw [Function.update_of_ne htu]
      exact hs t hsame
  cases h with
  | @move _ u p ha h =>
      apply hother _ hholder
      generalize s.point u = q at h
      intro hholds
      cases h with
      | occupied create => rfl
      | vacant create sessionId hvacant => rfl
      | _ => cases hholds
  | @panic _ u e ha h =>
      apply hother _ hholder
      generalize s.point u = q at h
      intro hholds
      cases h <;> cases hholds
  | @lockSessions u create hpoint hfree =>
      obtain rfl : u = t := Option.some.inj hholder
      rw [State.goto_point]
      rfl
  | insert hpoint => cases hholder
  | @send u k m p h =>
      apply hother _ hholder
      generalize s.point u = q at h
      intro hholds
      cases h <;> cases hholds
  | @stolen u b entry hpoint hentry hvalue =>
      apply hother _ hholder
      rw [hpoint]
      intro hholds
      cases hholds
  | pty hconn h => exact hs t hholder
  | _ =>
      apply hother _ hholder
      simp [*, Point.holdsSessions]

/-- The mutex of an entry is left by the thread that has inserted it. -/
theorem Step.exclusive_entries (hinv : Inv setup s) (h : Step setup s a s')
    (hs : ∀ (k : Nat) (entry : Entry ι F), s.entries[k]? = some entry →
      entry.session.holder = none ∨ ∃ b, s.point entry.owner.1 = .storing b ∧ b.sessionEntry = k)
    {k : Nat} {entry' : Entry ι F} (hentry' : s'.entries[k]? = some entry') :
    entry'.session.holder = none ∨
      ∃ b, s'.point entry'.owner.1 = .storing b ∧ b.sessionEntry = k := by
  have hother {u : ι} {p : Point F} (hu : ∀ b, s.point u ≠ .storing b)
      (hentry : s.entries[k]? = some entry') :
      entry'.session.holder = none ∨
        ∃ b, Function.update s.point u p entry'.owner.1 = .storing b ∧ b.sessionEntry = k := by
    rcases hs k entry' hentry with hnone | ⟨b, hpoint, hb⟩
    · exact .inl hnone
    · have hne : entry'.owner.1 ≠ u := by
        rintro rfl
        exact hu b hpoint
      rw [Function.update_of_ne hne]
      exact .inr ⟨b, hpoint, hb⟩
  cases h with
  | @move _ u p ha h =>
      apply hother _ hentry'
      intro b hpoint
      rw [hpoint] at h
      cases h
  | @panic _ u e ha h =>
      apply hother _ hentry'
      intro b hpoint
      rw [hpoint] at h
      cases h
  | @insert u create sessionId hpoint =>
      rcases getElem?_snoc_eq_some hentry' with hentry | ⟨-, rfl⟩
      · apply hother _ hentry
        simp [hpoint]
      · exact .inl rfl
  | @send u i m p h =>
      apply hother _ hentry'
      intro b hpoint
      rw [hpoint] at h
      cases h
  | @lockEntry u b entry hpoint hentry =>
      obtain ⟨mine, hmine, rfl⟩ := getElem?_modify_eq_some.1 hentry'
      by_cases hk : b.sessionEntry = k
      · subst hk
        obtain ⟨⟨-, entry₀, hentry₀, howner, -⟩, -⟩ := hinv.knows_at hpoint
        rw [hmine] at hentry₀
        obtain rfl := Option.some.inj hentry₀
        rw [if_pos rfl]
        have howner' : (Entry.withSession { entry.session with holder := some u } mine).owner.1 = u :=
          congrArg Prod.fst howner
        rw [howner']
        exact .inr ⟨b, State.goto_point .., rfl⟩
      · rw [if_neg hk] at hother ⊢
        apply hother _ hmine
        simp [hpoint]
  | @store u b entry hpoint hentry hvalue =>
      obtain ⟨mine, hmine, rfl⟩ := getElem?_modify_eq_some.1 hentry'
      by_cases hk : b.sessionEntry = k
      · rw [if_pos hk]
        exact .inl rfl
      · rw [if_neg hk]
        rcases hs k mine hmine with hnone | ⟨b', hpoint', hb'⟩
        · exact .inl hnone
        · have hne : mine.owner.1 ≠ u := by
            rintro rfl
            rw [hpoint] at hpoint'
            cases hpoint'
            exact hk hb'
          refine .inr ⟨b', ?_, hb'⟩
          exact (Function.update_of_ne hne ..).trans hpoint'
  | @stolen u b entry hpoint hentry hvalue =>
      exact absurd (hinv.storing hpoint hentry).2 hvalue
  | pty hconn h => exact hs k entry' hentry'
  | _ =>
      apply hother _ hentry'
      simp [*]

theorem Step.exclusive_counted (hinv : Inv setup s) (h : Step setup s a s')
    (hs : ∀ t, s.serial t = 0 → (s.point t).idle = true) (hzero : s'.serial t = 0) :
    (s'.point t).idle = true := by
  by_cases ht : a.thread = some t
  · rcases h.advances ht with ⟨-, hserial⟩ | ⟨hserial, -⟩
    · omega
    · have hidle := hs t (hserial.symm.trans hzero)
      cases h with
      | @move _ u p ha h =>
          obtain rfl : u = t := Option.some.inj (ha.symm.trans ht)
          rw [State.goto_point]
          generalize s.point u = q at h hidle
          cases h with
          | accepted => rfl
          | refused e => rfl
          | replied => rfl
          | replyFailed e => rfl
          | receiveFailed e => rfl
          | _ => cases hidle
      | @panic _ u e ha h =>
          obtain rfl : u = t := Option.some.inj (ha.symm.trans ht)
          generalize s.point u = q at h hidle
          cases h <;> cases hidle
      | @request u create pkt hpoint h =>
          obtain rfl : u = t := Option.some.inj ht
          simp at hzero
      | @send u i m p h =>
          obtain rfl : u = t := Option.some.inj ht
          generalize s.point u = q at h hidle
          cases h <;> cases hidle
      | pty hconn h => cases ht
      | _ =>
          obtain rfl := Option.some.inj ht
          simp [*, Point.idle] at hidle
  · have hframe := h.frame hinv ht
    rw [hframe.point]
    exact hs t (hframe.serial.symm.trans hzero)

theorem step_exclusive (hinv : Inv setup s) (h : Step setup s a s') (hs : Exclusive s) :
    Exclusive s' where
  sessions _ := h.exclusive_sessions hs.sessions
  entries _ _ := h.exclusive_entries hinv hs.entries
  counted _ := h.exclusive_counted hinv hs.counted

omit [DecidableEq ι] in
theorem start_exclusive : Exclusive (start : State ι F) where
  sessions t h := by cases h
  entries k entry hentry := by simp [start] at hentry
  counted t _ := rfl

omit [DecidableEq ι] in
theorem Exclusive.entry_free (hs : Exclusive s) (hinv : Inv setup s) {b : Attachment F}
    (hpoint : s.point t = .lockingEntry b) :
    ∃ entry, s.entries[b.sessionEntry]? = some entry ∧ entry.session.holder = none := by
  obtain ⟨⟨-, entry, hentry, howner, -⟩, -⟩ := hinv.knows_at hpoint
  rcases hs.entries _ entry hentry with hnone | ⟨c, hstoring, -⟩
  · exact ⟨entry, hentry, hnone⟩
  · rw [howner, hpoint] at hstoring
    cases hstoring

omit [DecidableEq ι] in
theorem Exclusive.one_le_serial (hs : Exclusive s) (h : (s.point t).idle = false) :
    1 ≤ s.serial t := by
  apply Nat.one_le_iff_ne_zero.2
  intro hzero
  have hidle := hs.counted t hzero
  rw [h] at hidle
  cases hidle

end Steps

/-! ## Up to the connection -/

section Waiting

variable {ι F : Type} {setup : Setup F} {s₀ s s' : State ι F} {t : ι}

/-- How far the holder of the map is from leaving it. -/
def State.holderDistance (s : State ι F) : Nat :=
  match s.sessions.holder with
  | none => 0
  | some u =>
      match s.point u with
      | .drawingId _ => 2
      | .inserting _ _ => 1
      | _ => 0

def State.distance (s : State ι F) (t : ι) : Nat :=
  match s.point t with
  | .printingRequest _ => 10
  | .lockingSessions _ => 7 + s.holderDistance
  | .drawingId _ => 6
  | .inserting _ _ => 5
  | .printingId _ => 4
  | .creatingShell _ => 3
  | .connecting _ _ => 2
  | _ => 0

/-- How many entries are inserted until then. -/
def State.room (s : State ι F) (t : ι) : Nat :=
  match s.point t with
  | .printingRequest _ => 1 + s.sessions.holder.toList.length
  | .lockingSessions _ => 1 + s.sessions.holder.toList.length
  | .drawingId _ => 1
  | .inserting _ _ => 1
  | _ => 0

/-- A state on the way from `s₀` to where the thread `t` has connected. -/
structure Waiting (setup : Setup F) (s₀ : State ι F) (t : ι) (s : State ι F) : Prop where
  replying : Replying setup s
  exclusive : Exclusive s
  serial : s.serial t = s₀.serial t
  requested : s.requested = s₀.requested
  holder : ∀ u, s.sessions.holder = some u → u = t ∨ s₀.sessions.holder = some u
  space : s.entries.length + s.room t ≤ 2 ^ 192
  point : (s.point t).unconnected = true ∨ ∃ b, s.point t = .greeting b
  alive : ∀ b, s.point t = .greeting b → ∀ conn, s.conns[b.ptyConn]? = some conn →
    ∀ e, conn.service.point ≠ .exited e

theorem holderDistance_le (s : State ι F) : s.holderDistance ≤ 2 := by
  unfold State.holderDistance
  split
  · omega
  · split <;> omega

variable [DecidableEq ι] {a : Action ι F}

def Waiting.Acts (s₀ : State ι F) (t : ι) (a : Action ι F) : Prop :=
  a.thread = some t ∨ ∃ u, s₀.sessions.holder = some u ∧ a.thread = some u

theorem Waiting.next (h : Waiting setup s₀ t s) (hstep : step setup s a = some s')
    (hserial : s'.serial t = s.serial t) (hrequested : s'.requested = s.requested)
    (hholder : ∀ u, s'.sessions.holder = some u → u = t ∨ s.sessions.holder = some u)
    (hspace : s'.entries.length + s'.room t ≤ s.entries.length + s.room t)
    (hpoint : (s'.point t).unconnected = true) : Waiting setup s₀ t s' where
  replying := step_replying hstep h.replying
  exclusive := step_exclusive h.replying.completes.good.inv (step_spec hstep) h.exclusive
  serial := hserial.trans h.serial
  requested := hrequested.trans h.requested
  holder u hu := by
    rcases hholder u hu with rfl | hwas
    · exact .inl rfl
    · exact h.holder u hwas
  space := hspace.trans h.space
  point := .inl hpoint
  alive b hgreeting := by
    rw [hgreeting] at hpoint
    cases hpoint

theorem Waiting.own (h : Waiting setup s₀ t s) (hstep : step setup s a = some s')
    (ha : a.thread = some t) (hserial : s'.serial t = s.serial t)
    (hrequested : s'.requested = s.requested)
    (hholder : ∀ u, s'.sessions.holder = some u → u = t ∨ s.sessions.holder = some u)
    (hspace : s'.entries.length + s'.room t ≤ s.entries.length + s.room t)
    (hpoint : (s'.point t).unconnected = true) (hlt : s'.distance t < s.distance t) :
    ∃ a s', Waiting.Acts s₀ t a ∧ step setup s a = some s' ∧ Waiting setup s₀ t s' ∧
      s'.distance t < s.distance t :=
  ⟨a, s', .inl ha, hstep, h.next hstep hserial hrequested hholder hspace hpoint, hlt⟩

theorem Waiting.step_holder (h : Waiting setup s₀ t s) {create : CreateShellSession F}
    (hpoint : s.point t = .lockingSessions create) {u : ι} (hu : s.sessions.holder = some u) :
    ∃ a s', Waiting.Acts s₀ t a ∧ step setup s a = some s' ∧ Waiting setup s₀ t s' ∧
      s'.distance t < s.distance t := by
  have hinv := h.replying.completes.good.inv
  have hholds := h.exclusive.sessions u hu
  have hut : u ≠ t := by
    rintro rfl
    rw [hpoint] at hholds
    cases hholds
  have hacts (a : Action ι F) (ha : a.thread = some u) : Waiting.Acts s₀ t a := by
    rcases h.holder u hu with rfl | hwas
    · exact .inl ha
    · exact .inr ⟨u, hwas, ha⟩
  have hroom : s.room t = 2 := by
    simp [State.room, hpoint, hu]
  have hspace := h.space
  rw [hroom] at hspace
  cases hcase : s.point u with
  | drawingId create' =>
      obtain ⟨id, hfree⟩ := hinv.exists_free (by omega)
      have hstep : step setup s (.draw u id) = some (s.goto u (.inserting create' id)) :=
        step_draw hcase hfree
      have hpoint' : (s.goto u (.inserting create' id)).point t = .lockingSessions create :=
        (Function.update_of_ne hut.symm ..).trans hpoint
      have hholder' : (s.goto u (.inserting create' id)).sessions.holder = some u := hu
      have hroom' : (s.goto u (.inserting create' id)).room t = 2 := by
        simp [State.room, hpoint', hholder']
      refine ⟨_, _, hacts (.draw u id) rfl, hstep, ?_, ?_⟩
      · apply h.next hstep rfl rfl
        · intro v hv
          exact .inr hv
        · rw [hroom, hroom']
          exact le_rfl
        · rw [hpoint']
          rfl
      · simp [State.distance, hpoint, hpoint', State.holderDistance, hholder', hu, hcase]
  | inserting create' id =>
      have hstep : step setup s (.insert u) = some (s.insert u create' id) := step_insert hcase
      have hpoint' : (s.insert u create' id).point t = .lockingSessions create :=
        (Function.update_of_ne hut.symm ..).trans hpoint
      have hholder' : (s.insert u create' id).sessions.holder = none := rfl
      have hroom' : (s.insert u create' id).room t = 1 := by
        simp [State.room, hpoint', hholder']
      have hlength : (s.insert u create' id).entries.length = s.entries.length + 1 := by
        simp [State.insert]
      refine ⟨_, _, hacts (.insert u) rfl, hstep, ?_, ?_⟩
      · apply h.next hstep rfl rfl
        · intro v hv
          rw [hholder'] at hv
          cases hv
        · omega
        · rw [hpoint']
          rfl
      · simp [State.distance, hpoint, hpoint', State.holderDistance, hholder', hu, hcase]
  | _ =>
      rw [hcase] at hholds
      cases hholds

theorem Waiting.advances (pty : F) (h : Waiting setup s₀ t s) (hne : s.distance t ≠ 0) :
    ∃ a s', Waiting.Acts s₀ t a ∧ step setup s a = some s' ∧ Waiting setup s₀ t s' ∧
      s'.distance t < s.distance t := by
  have hinv := h.replying.completes.good.inv
  have hspace := h.space
  cases hpoint : s.point t with
  | printingRequest create =>
      have hle := holderDistance_le (s.goto t (.lockingSessions create))
      apply h.own (step_printedRequest hpoint) rfl rfl rfl (fun u hu => .inr hu)
      · simp [State.room, hpoint, State.goto]
      · simp [Point.unconnected, Point.unreserved]
      · simp only [State.distance, hpoint, State.goto_point]
        omega
  | lockingSessions create =>
      cases hu : s.sessions.holder with
      | some u => exact h.step_holder hpoint hu
      | none =>
          have hlocked : step setup s (.lockSessions t) =
              some (({ s with sessions := { s.sessions with holder := some t } } :
                State ι F).goto t (.drawingId create)) :=
            step_lockSessions hpoint hu hinv.sessions_unpoisoned
          apply h.own hlocked rfl rfl rfl
          · intro v hv
            exact .inl (Option.some.inj hv).symm
          · simp [State.room, hpoint, hu, State.goto]
          · simp [Point.unconnected, Point.unreserved]
          · simp only [State.distance, hpoint, State.goto_point]
            omega
  | drawingId create =>
      have hroom : s.room t = 1 := by simp [State.room, hpoint]
      obtain ⟨id, hfree⟩ := hinv.exists_free (by omega)
      apply h.own (step_draw hpoint hfree) rfl rfl rfl (fun u hu => .inr hu)
      · simp [State.room, hpoint, State.goto]
      · simp [Point.unconnected, Point.unreserved]
      · simp [State.distance, hpoint]
  | inserting create id =>
      apply h.own (step_insert hpoint) rfl rfl rfl
      · intro u hu
        cases hu
      · simp [State.room, hpoint, State.insert]
      · simp [Point.unconnected]
      · simp [State.distance, hpoint]
  | printingId r =>
      apply h.own (step_printedId hpoint) rfl rfl rfl (fun u hu => .inr hu)
      · simp [State.room, hpoint, State.goto]
      · simp [Point.unconnected]
      · simp [State.distance, hpoint]
  | creatingShell r =>
      apply h.own (step_createShell hpoint pty) rfl rfl rfl (fun u hu => .inr hu)
      · simp [State.room, hpoint, State.createShell]
      · simp [Point.unconnected]
      · simp [State.distance, hpoint]
  | connecting r ptyMaster =>
      have hstep : step setup s (.connect t true) = some (s.connect t r ptyMaster) :=
        step_connect hpoint
      have hroom : (s.connect t r ptyMaster).room t = 0 := by simp [State.room]
      refine ⟨_, _, .inl rfl, hstep, ?_, ?_⟩
      · refine ⟨step_replying hstep h.replying,
          step_exclusive hinv (step_spec hstep) h.exclusive, h.serial, h.requested, h.holder,
          ?_, ?_, ?_⟩
        · rw [hroom]
          exact (Nat.le_add_right _ _).trans hspace
        · exact .inr ⟨_, State.connect_point ..⟩
        · intro b hgreeting conn hconn e
          rw [State.connect_point] at hgreeting
          cases hgreeting
          rw [State.connect, List.getElem?_concat_length] at hconn
          obtain rfl := Option.some.inj hconn
          intro he
          cases he
      · simp [State.distance, hpoint]
  | _ =>
      simp [State.distance, hpoint] at hne

end Waiting

/-! ## From the connection to the client -/

section Instance

variable {ι F : Type} {setup : Setup F} {create : CreateShellSession F} {ptyMaster : F}
  {conn : PtyConn ι F} {kind : Kind}

/-- How far an instance is from having received all messages of its request. -/
def PtyConn.remaining (conn : PtyConn ι F) : Nat :=
  match conn.service.point with
  | .handshaking => 4
  | .replying => 3
  | .awaitingInit => 2
  | .serving _ => 3 - conn.reads.length
  | .exited _ => 0

/-- It has not exited, unless it has received them and the client is of no use. -/
def PtyConn.Alive (conn : PtyConn ι F) : Prop :=
  ∀ e, conn.service.point = .exited e → conn.reads.length = 3 ∧ e = .panicked .notSeqPacket

theorem PtyConn.Relays.reads_le (h : conn.Relays setup create ptyMaster) :
    conn.reads.length ≤ conn.sent.length := by
  have hle := h.reads.length_le
  rw [List.length_map] at hle
  exact hle

theorem PtyConn.Relays.sent_le (h : conn.Relays setup create ptyMaster) : conn.sent.length ≤ 3 :=
  h.sent.length_le

theorem PtyConn.receive_advances (hhello : HelloAccepted setup)
    (hrelays : conn.Relays setup create ptyMaster)
    (hkind : receives conn.service.point = some kind)
    (hlt : conn.reads.length < conn.sent.length) :
    ∃ conn', conn.step setup (.run .serve) = some conn' ∧ conn'.Alive ∧
      conn'.remaining < conn.remaining := by
  obtain ⟨pkt, rest, hincoming⟩ : ∃ pkt rest, conn.service.conn.incoming = pkt :: rest := by
    apply List.exists_cons_of_ne_nil
    rw [hrelays.incoming]
    intro hnil
    have hlength := congrArg List.length hnil
    simp only [List.length_map, List.length_drop, List.length_nil] at hlength
    omega
  refine ⟨_, PtyConn.step_receive hkind hincoming, ?_⟩
  have hreceives := hrelays.receives hkind hincoming
  have hreads : (conn.receive setup kind pkt rest).reads.length = conn.reads.length + 1 := by
    simp [PtyConn.receive]
  have hpoint : (conn.receive setup kind pkt rest).service.point =
      (received setup conn.service.point pkt).1 := rfl
  simp only [PtyConn.Alive, PtyConn.remaining, hreads, hpoint]
  generalize (received setup conn.service.point pkt).1 = p at hreceives
  generalize (received setup conn.service.point pkt).2 = events at hreceives
  generalize conn.service.point = q at hreceives
  generalize conn.reads.length = n at hreceives
  cases hreceives with
  | accepted haccepted => exact ⟨by simp, by simp⟩
  | refused hrefused e => exact absurd hhello hrefused
  | init => exact ⟨by simp, by simp⟩
  | client hsocket => exact ⟨by simp, by simp⟩
  | notSocket hsocket =>
      refine ⟨fun e he => ⟨rfl, ?_⟩, by simp⟩
      cases he
      rfl

theorem PtyConn.reply_advances (setup : Setup F) (hpoint : conn.service.point = .replying) :
    ∃ conn', conn.step setup (.run .serve) = some conn' ∧ conn'.Alive ∧
      conn'.remaining < conn.remaining := by
  have hstep : conn.step setup (.run .serve) = some (conn.withService { conn.service with
      point := .awaitingInit
      conn := conn.service.conn.push (ptyReply setup) }) := by
    simp [PtyConn.step, PtyConn.blocked, PtyConn.nextRead, Pty.step, hpoint, receives,
      PtyConn.withService, ptyReply]
  refine ⟨_, hstep, ?_, ?_⟩
  · intro e he
    cases he
  · simp [PtyConn.remaining, hpoint, PtyConn.withService]

end Instance

section Finishing

variable {ι F : Type} {setup : Setup F} {s₀ s s' : State ι F} {t : ι} {k : Nat}

/-- How far a thread is from announcing its client. -/
def Point.rank : Point F → Nat
  | .greeting _ => 6
  | .awaitingReply _ => 5
  | .sendingInit _ => 4
  | .lockingEntry _ => 3
  | .storing _ => 2
  | .sendingClient _ _ => 1
  | _ => 0

def State.remaining (s : State ι F) (t : ι) (k : Nat) : Nat :=
  8 * (s.point t).rank + (s.conns[k]?.map PtyConn.remaining).getD 0

/-- A state on the way from `s₀` to where the client of the thread `t` was announced on
the connection `k`. -/
structure Finishing (setup : Setup F) (s₀ : State ι F) (t : ι) (k : Nat) (s : State ι F) :
    Prop where
  replying : Replying setup s
  exclusive : Exclusive s
  serial : s.serial t = s₀.serial t
  requested : s.requested = s₀.requested
  point : (s.point t).ptyConn = some k ∨ (∃ create, s.point t = .sendingClient create k) ∨
    s.point t = .receiving
  conn : ∃ conn, s.conns[k]? = some conn ∧ conn.owner = (t, s.serial t) ∧ conn.Alive

def Finishing.Acts (t : ι) (k : Nat) (a : Action ι F) : Prop :=
  a.thread = some t ∨ a = .pty k (.run .serve)

variable [DecidableEq ι] {a : Action ι F}

theorem Finishing.own (h : Finishing setup s₀ t k s) (hstep : step setup s a = some s')
    (ha : a.thread = some t) (hserial : s'.serial t = s.serial t)
    (hrequested : s'.requested = s.requested)
    (hconn : ∀ conn, s.conns[k]? = some conn → ∃ conn', s'.conns[k]? = some conn' ∧
      conn'.owner = conn.owner ∧ conn'.service.point = conn.service.point ∧
        conn'.reads = conn.reads)
    (hpoint : (s'.point t).ptyConn = some k ∨ (∃ create, s'.point t = .sendingClient create k) ∨
      s'.point t = .receiving)
    (hrank : (s'.point t).rank < (s.point t).rank) :
    ∃ a s', Finishing.Acts t k a ∧ step setup s a = some s' ∧ Finishing setup s₀ t k s' ∧
      s'.remaining t k < s.remaining t k := by
  obtain ⟨conn, hold, howner, halive⟩ := h.conn
  obtain ⟨conn', hnew, howner', hsame, hreads⟩ := hconn conn hold
  have halive' : conn'.Alive := by
    intro e
    rw [hsame, hreads]
    exact halive e
  refine ⟨a, s', .inl ha, hstep, ⟨step_replying hstep h.replying,
    step_exclusive h.replying.completes.good.inv (step_spec hstep) h.exclusive,
    hserial.trans h.serial, hrequested.trans h.requested, hpoint, conn', hnew, ?_, halive'⟩, ?_⟩
  · rw [howner', howner, hserial]
  · have hremaining : conn'.remaining = conn.remaining := by
      unfold PtyConn.remaining
      rw [hsame, hreads]
    simp only [State.remaining, hold, hnew, Option.map_some, Option.getD_some, hremaining]
    omega

theorem Finishing.instance_step (h : Finishing setup s₀ t k s) {conn conn' : PtyConn ι F}
    (hconn : s.conns[k]? = some conn) (hserve : conn.step setup (.run .serve) = some conn')
    (halive : conn'.Alive) (hlt : conn'.remaining < conn.remaining) :
    ∃ a s', Finishing.Acts t k a ∧ step setup s a = some s' ∧ Finishing setup s₀ t k s' ∧
      s'.remaining t k < s.remaining t k := by
  have hstep : step setup s (.pty k (.run .serve)) =
      some { s with conns := s.conns.modify k fun _ => conn' } := by
    simp only [step, hconn, Option.bind_some, hserve, Option.map_some]
  have hnew : (s.conns.modify k fun _ => conn')[k]? = some conn' := by
    rw [getElem?_modify_of_some hconn, if_pos rfl]
  obtain ⟨mine, hmine, howner, -⟩ := h.conn
  rw [hconn] at hmine
  obtain rfl := Option.some.inj hmine
  have howner' : conn'.owner = (t, s.serial t) :=
    (PtyConn.step_spec hserve).kept.1.trans howner
  refine ⟨.pty k (.run .serve), _, .inr rfl, hstep, ⟨step_replying hstep h.replying,
    step_exclusive h.replying.completes.good.inv (step_spec hstep) h.exclusive,
    h.serial, h.requested, h.point, conn', hnew, howner', halive⟩, ?_⟩
  simp only [State.remaining, hconn, hnew, Option.map_some, Option.getD_some]
  omega

omit [DecidableEq ι] in
theorem modified_conn {f : PtyConn ι F → PtyConn ι F}
    (hf : ∀ conn, (f conn).owner = conn.owner ∧ (f conn).service.point = conn.service.point ∧
      (f conn).reads = conn.reads) (conn : PtyConn ι F) (hconn : s.conns[k]? = some conn) :
    ∃ conn', (s.conns.modify k f)[k]? = some conn' ∧ conn'.owner = conn.owner ∧
      conn'.service.point = conn.service.point ∧ conn'.reads = conn.reads := by
  refine ⟨f conn, ?_, hf conn⟩
  rw [getElem?_modify_of_some hconn, if_pos rfl]

theorem Finishing.awaits_reply (hhello : HelloAccepted setup)
    (hreply : acceptPty setup (ptyReply setup) = .ok ()) (h : Finishing setup s₀ t k s)
    {b : Attachment F} (hpoint : s.point t = .awaitingReply b) (hk : b.ptyConn = k) :
    ∃ a s', Finishing.Acts t k a ∧ step setup s a = some s' ∧ Finishing setup s₀ t k s' ∧
      s'.remaining t k < s.remaining t k := by
  subst hk
  have hinv := h.replying.completes.good.inv
  obtain ⟨conn, hconn, howner, halive⟩ := h.conn
  obtain ⟨create, ptyMaster, -, hrelays⟩ := h.replying.relaying _ conn hconn
  have hsent : conn.sent.length = 1 := by
    rw [((hinv.knows_at hpoint).2.2.owner_eq hconn).2]
    rfl
  have hreads := hrelays.reads_le
  have hpending := h.replying.replies.pending t b (.inr hpoint) conn hconn
  have hreached := hrelays.point
  unfold ReplyPending at hpending
  cases hcase : conn.service.point with
  | handshaking =>
      have hkind : receives conn.service.point = some .handshake := by
        rw [hcase]
        rfl
      rw [hcase] at hreached
      have hlt : conn.reads.length < conn.sent.length := by
        have hzero : conn.reads.length = 0 := hreached
        omega
      obtain ⟨conn', hserve, halive', hadvances⟩ :=
        PtyConn.receive_advances hhello hrelays hkind hlt
      exact h.instance_step hconn hserve halive' hadvances
  | replying =>
      obtain ⟨conn', hserve, halive', hadvances⟩ := PtyConn.reply_advances setup hcase
      exact h.instance_step hconn hserve halive' hadvances
  | awaitingInit =>
      rw [hcase] at hpending
      have hnext : conn.nextReply = some (ptyReply setup) := by
        simp [PtyConn.nextReply, hpending.1]
      have hstep := step_replied hpoint hconn hnext hreply
      apply h.own hstep rfl rfl rfl
      · exact modified_conn fun conn => ⟨rfl, rfl, rfl⟩
      · exact .inl (by rw [State.goto_point]; rfl)
      · rw [State.goto_point, hpoint]
        exact Nat.lt_succ_self _
  | serving pty =>
      rw [hcase] at hreached
      have htwo : 2 ≤ conn.reads.length := hreached.1
      omega
  | exited e =>
      have hthree := (halive e hcase).1
      omega

theorem Finishing.announced (hhello : HelloAccepted setup) (hone : 1 ≤ s₀.serial t)
    (h : Finishing setup s₀ t k s) (hpoint : s.point t = .receiving)
    (hne : s.remaining t k ≠ 0) :
    ∃ a s', Finishing.Acts t k a ∧ step setup s a = some s' ∧ Finishing setup s₀ t k s' ∧
      s'.remaining t k < s.remaining t k := by
  have hinv := h.replying.completes.good.inv
  obtain ⟨conn, hconn, howner, halive⟩ := h.conn
  obtain ⟨create, ptyMaster, -, hrelays⟩ := h.replying.relaying _ conn hconn
  have hsent : conn.sent.length = 3 := by
    have hstored := h.replying.completes.completed.last t 3 (h.serial ▸ hone) (by rw [hpoint]; rfl)
    obtain ⟨create', ptyMaster', k', -, -, hlinked⟩ := hstored
    have hmine : Linked s (t, s.serial t) k conn.sent := ⟨conn, hconn, howner, rfl⟩
    rw [(hinv.linked_unique hmine hlinked).2]
    rfl
  have htaken := h.replying.replies.announced k conn hconn (by omega)
  have hreached := hrelays.point
  have hadvance {kind : Kind} (hkind : receives conn.service.point = some kind)
      (hlt : conn.reads.length < 3) :
      ∃ a s', Finishing.Acts t k a ∧ step setup s a = some s' ∧ Finishing setup s₀ t k s' ∧
        s'.remaining t k < s.remaining t k := by
    obtain ⟨conn', hserve, halive', hadvances⟩ :=
      PtyConn.receive_advances hhello hrelays hkind (by omega)
    exact h.instance_step hconn hserve halive' hadvances
  cases hcase : conn.service.point with
  | handshaking => exact absurd hcase htaken.greeted
  | replying => exact absurd hcase htaken.replied
  | awaitingInit =>
      rw [hcase] at hreached hadvance
      have hread : conn.reads.length = 1 := hreached
      exact hadvance rfl (by omega)
  | serving pty =>
      rw [hcase] at hadvance
      simp only [State.remaining, hpoint, hconn, PtyConn.remaining, hcase, Point.rank,
        Option.map_some, Option.getD_some] at hne
      exact hadvance rfl (by omega)
  | exited e =>
      simp [State.remaining, hpoint, hconn, PtyConn.remaining, hcase, Point.rank] at hne

theorem Finishing.advances (hhello : HelloAccepted setup)
    (hreply : acceptPty setup (ptyReply setup) = .ok ()) (hone : 1 ≤ s₀.serial t)
    (h : Finishing setup s₀ t k s) (hne : s.remaining t k ≠ 0) :
    ∃ a s', Finishing.Acts t k a ∧ step setup s a = some s' ∧ Finishing setup s₀ t k s' ∧
      s'.remaining t k < s.remaining t k := by
  have hinv := h.replying.completes.good.inv
  rcases h.point with hk | ⟨create, hpoint⟩ | hpoint
  · cases hpoint : s.point t with
    | greeting b =>
        rw [hpoint] at hk
        obtain rfl : b.ptyConn = k := Option.some.inj hk
        apply h.own (step_sentHello hpoint) rfl rfl rfl
        · exact modified_conn fun conn => ⟨rfl, rfl, rfl⟩
        · exact .inl (by rw [State.send_point]; rfl)
        · rw [State.send_point, hpoint]
          exact Nat.lt_succ_self _
    | awaitingReply b =>
        rw [hpoint] at hk
        exact h.awaits_reply hhello hreply hpoint (Option.some.inj hk)
    | sendingInit b =>
        rw [hpoint] at hk
        obtain rfl : b.ptyConn = k := Option.some.inj hk
        apply h.own (step_sentInit hpoint) rfl rfl rfl
        · exact modified_conn fun conn => ⟨rfl, rfl, rfl⟩
        · exact .inl (by rw [State.send_point]; rfl)
        · rw [State.send_point, hpoint]
          exact Nat.lt_succ_self _
    | lockingEntry b =>
        rw [hpoint] at hk
        obtain ⟨entry, hentry, hfree⟩ := h.exclusive.entry_free hinv hpoint
        have hclean := hinv.entries_unpoisoned entry (List.mem_of_getElem? hentry)
        apply h.own (step_lockEntry hpoint hentry hfree hclean) rfl rfl rfl
        · exact fun conn hconn => ⟨conn, hconn, rfl, rfl, rfl⟩
        · rw [State.goto_point]
          exact .inl hk
        · rw [State.goto_point, hpoint]
          exact Nat.lt_succ_self _
    | storing b =>
        rw [hpoint] at hk
        obtain rfl : b.ptyConn = k := Option.some.inj hk
        obtain ⟨⟨-, entry, hentry, -, -, hvalue⟩, -⟩ := hinv.knows_at hpoint
        apply h.own (step_store hpoint hentry hvalue) rfl rfl rfl
        · exact fun conn hconn => ⟨conn, hconn, rfl, rfl, rfl⟩
        · rw [State.goto_point]
          exact .inr (.inl ⟨b.create, rfl⟩)
        · rw [State.goto_point, hpoint]
          exact Nat.lt_succ_self _
    | _ =>
        rw [hpoint] at hk
        cases hk
  · apply h.own (step_sentClient hpoint) rfl rfl rfl
    · exact modified_conn fun conn => ⟨rfl, rfl, rfl⟩
    · exact .inr (.inr (State.send_point ..))
    · rw [State.send_point, hpoint]
      exact Nat.lt_succ_self _
  · exact h.announced hhello hone hpoint hne

end Finishing

/-! ## A whole request -/

section Request

variable {ι F : Type} [DecidableEq ι] {setup : Setup F} {s : State ι F} {t : ι}

omit [DecidableEq ι] in
theorem Point.serving_not_idle {p : Point F} (h : p.serving = true) : p.idle = false := by
  cases p with
  | handshaking => cases h
  | replying => cases h
  | receiving => cases h
  | returned e => cases h
  | _ => rfl

omit [DecidableEq ι] in
theorem room_le (s : State ι F) (t : ι) : s.room t ≤ 2 := by
  have hle : s.sessions.holder.toList.length ≤ 1 := by
    cases s.sessions.holder with
    | none => exact Nat.zero_le 1
    | some u => exact le_rfl
  unfold State.room
  split <;> omega

theorem exists_connected (pty : F) (hs : Replying setup s) (hexclusive : Exclusive s)
    (hspace : s.entries.length + 2 ≤ 2 ^ 192) (hpoint : (s.point t).unconnected = true) :
    ∃ later s' k, run (step setup) later s = some s' ∧ (∀ a ∈ later, Waiting.Acts s t a) ∧
      Finishing setup s t k s' := by
  have hstart : Waiting setup s t s := by
    refine ⟨hs, hexclusive, rfl, rfl, fun u hu => .inr hu, ?_, .inl hpoint, fun b hgreeting => ?_⟩
    · have hle := room_le s t
      omega
    · rw [hgreeting] at hpoint
      cases hpoint
  obtain ⟨later, s', hrun, hacts, hwaiting, hzero⟩ :=
    exists_run_of_measure (I := Waiting setup s t) (fun s => s.distance t)
      (fun s hI hne => hI.advances pty hne) hstart
  obtain ⟨b, hgreeting⟩ : ∃ b, s'.point t = .greeting b := by
    rcases hwaiting.point with hunconnected | hgreeting
    · unfold State.distance at hzero
      cases hcase : s'.point t with
      | printingRequest create => simp [hcase] at hzero
      | lockingSessions create => simp [hcase] at hzero
      | drawingId create => simp [hcase] at hzero
      | inserting create id => simp [hcase] at hzero
      | printingId r => simp [hcase] at hzero
      | creatingShell r => simp [hcase] at hzero
      | connecting r ptyMaster => simp [hcase] at hzero
      | _ =>
          rw [hcase] at hunconnected
          cases hunconnected
    · exact hgreeting
  have hinv := hwaiting.replying.completes.good.inv
  obtain ⟨-, -, conn, hconn, howner, -⟩ := hinv.knows_at hgreeting
  refine ⟨later, s', b.ptyConn, hrun, hacts, hwaiting.replying, hwaiting.exclusive,
    hwaiting.serial, hwaiting.requested, .inl (by rw [hgreeting]; rfl), conn, hconn, howner, ?_⟩
  intro e hexited
  exact absurd hexited (hwaiting.alive b hgreeting conn hconn e)

def State.Running (s : State ι F) (k : Nat) : Prop :=
  ∀ conn, s.conns[k]? = some conn → ∀ e, conn.service.point ≠ .exited e

/-- The instance on the connection `k` has received all messages of a request, and
serves its client if this is a `SOCK_SEQPACKET` socket. -/
def Announced (setup : Setup F) (s : State ι F) (id : RequestId ι) (k : Nat) : Prop :=
  ∃ create ptyMaster conn, s.requested id = some create ∧
    s.shells id = some (shellSpec create, ptyMaster) ∧ s.conns[k]? = some conn ∧
    conn.owner = id ∧ conn.reads.length = 3 ∧ Pty.users conn.service.events =
      if setup.isSeqPacket create.fd = true then [(ptyMaster, create.fd)] else []

omit [DecidableEq ι] in
theorem failure_ne_panicked {e : IoError} {point : Pty.Point F} {error : Pty.SocketConversionError} :
    failure e point ≠ some (.panicked error) := by
  cases point <;> simp [failure]

omit [DecidableEq ι] in
theorem Finishing.running {s' : State ι F} {k : Nat} (hhello : HelloAccepted setup)
    (h : Finishing setup s t k s') (hstored : Stored setup s' (t, s'.serial t) 3)
    (hsocket : ∀ create, s'.requested (t, s'.serial t) = some create →
      setup.isSeqPacket create.fd = true) : s'.Running k := by
  intro conn' hconn' e hexited
  obtain ⟨conn, hconn, howner, halive⟩ := h.conn
  obtain rfl : conn = conn' := Option.some.inj (hconn.symm.trans hconn')
  obtain ⟨create, ptyMaster, hstarted, -⟩ := h.replying.relaying _ conn hconn
  obtain ⟨-, rfl⟩ := halive e hexited
  rcases h.replying.replies.exits k conn hconn create ptyMaster _ hstarted hexited with
    ⟨e, point, hfailure⟩ | hclosed | hrefused | ⟨-, hother⟩
  · exact failure_ne_panicked hfailure
  · obtain ⟨create', ptyMaster', i, -, hentry, -⟩ := hstored
    have hinv := h.replying.completes.good.inv
    rw [h.replying.completes.closedFailed.open_of_stored hinv hconn (howner ▸ hentry)] at hclosed
    cases hclosed
  · exact hrefused hhello
  · rw [hsocket create (howner ▸ hstarted.1)] at hother
    cases hother

omit [DecidableEq ι] in
theorem Finishing.stored {s' : State ι F} {k : Nat} (hone : 1 ≤ s.serial t)
    (h : Finishing setup s t k s') (hpoint : s'.point t = .receiving) :
    Stored setup s' (t, s'.serial t) 3 :=
  h.replying.completes.completed.last t 3 (h.serial ▸ hone) (by rw [hpoint]; rfl)

omit [DecidableEq ι] in
theorem Finishing.done {s' : State ι F} {k : Nat} (hone : 1 ≤ s.serial t)
    (h : Finishing setup s t k s') (hzero : s'.remaining t k = 0) :
    s'.point t = .receiving ∧ Served setup s' (t, s.serial t) ∧
      Announced setup s' (t, s.serial t) k := by
  have hpoint : s'.point t = .receiving := by
    rcases h.point with hk | ⟨create, hsending⟩ | hreceiving
    · unfold State.remaining at hzero
      cases hcase : s'.point t with
      | greeting b => simp [hcase, Point.rank] at hzero
      | awaitingReply b => simp [hcase, Point.rank] at hzero
      | sendingInit b => simp [hcase, Point.rank] at hzero
      | lockingEntry b => simp [hcase, Point.rank] at hzero
      | storing b => simp [hcase, Point.rank] at hzero
      | receiving => rfl
      | _ =>
          rw [hcase] at hk
          cases hk
    · simp [State.remaining, hsending, Point.rank] at hzero
    · exact hreceiving
  have hstored := h.stored hone hpoint
  obtain ⟨conn, hconn, howner, halive⟩ := h.conn
  obtain ⟨create, ptyMaster, hstarted, hrelays⟩ := h.replying.relaying _ conn hconn
  have hserves := h.replying.replies.serves k conn hconn create ptyMaster hstarted
  have hthree : conn.reads.length = 3 := by
    have hle := hrelays.reads_le
    have hsent := hrelays.sent_le
    simp only [State.remaining, hpoint, hconn, PtyConn.remaining, Point.rank, Option.map_some,
      Option.getD_some] at hzero
    cases hcase : conn.service.point with
    | serving pty =>
        rw [hcase] at hzero
        dsimp only at hzero
        omega
    | exited e => exact (halive e hcase).1
    | _ =>
        rw [hcase] at hzero
        cases hzero
  rw [howner] at hstarted
  rw [PtyConn.Serves, hthree] at hserves
  simp only [true_and] at hserves
  rw [h.serial] at hstored howner hstarted
  exact ⟨hpoint, h.replying.completes.served hstored, create, ptyMaster, conn, hstarted.1,
    hstarted.2, hconn, howner, hthree, hserves⟩

omit [DecidableEq ι] in
theorem Point.announcing {p : Point F} (hserving : p.serving = true)
    (hconnected : p.unconnected ≠ true) (hnone : p.ptyConn = none) :
    ∃ create k, p = .sendingClient create k := by
  cases p with
  | sendingClient create k => exact ⟨create, k, rfl⟩
  | _ => simp_all [Point.serving]

theorem exists_finishing (pty : F) (hs : Replying setup s) (hexclusive : Exclusive s)
    (hserving : (s.point t).serving = true) (hspace : s.entries.length + 2 ≤ 2 ^ 192)
    (halive : ∀ (k : Nat) (conn : PtyConn ι F), s.conns[k]? = some conn →
      conn.owner = (t, s.serial t) → ∀ e, conn.service.point ≠ .exited e) :
    ∃ first mid k, run (step setup) first s = some mid ∧ (∀ a ∈ first, Waiting.Acts s t a) ∧
      Finishing setup s t k mid := by
  have hinv := hs.completes.good.inv
  have hhere {k : Nat} {sent : List (Sent F)} (hlinked : Linked s (t, s.serial t) k sent)
      (hpoint : (s.point t).ptyConn = some k ∨ (∃ create, s.point t = .sendingClient create k) ∨
        s.point t = .receiving) : Finishing setup s t k s := by
    obtain ⟨conn, hconn, howner, -⟩ := hlinked
    refine ⟨hs, hexclusive, rfl, rfl, hpoint, conn, hconn, howner, fun e hexited => ?_⟩
    exact absurd hexited (halive k conn hconn howner e)
  by_cases hunconnected : (s.point t).unconnected = true
  · exact exists_connected pty hs hexclusive hspace hunconnected
  · cases hk : (s.point t).ptyConn with
    | some k =>
        obtain ⟨sent, hlinked⟩ := (hinv.knows t).linked hk
        exact ⟨[], s, k, rfl, List.forall_mem_nil _, hhere hlinked (.inl hk)⟩
    | none =>
        obtain ⟨create, k, hpoint⟩ := Point.announcing hserving hunconnected hk
        obtain ⟨ptyMaster, -, hlinked⟩ := hinv.knows_at hpoint
        exact ⟨[], s, k, rfl, List.forall_mem_nil _, hhere hlinked (.inr (.inl ⟨create, hpoint⟩))⟩

theorem run_exclusive {actions : List (Action ι F)} (h : run (step setup) actions start = some s) :
    Exclusive s := by
  have hboth : Replying setup s ∧ Exclusive s :=
    run_invariant (I := fun s => Replying setup s ∧ Exclusive s)
      (fun _ _ _ hstep hs => ⟨step_replying hstep hs.1,
        step_exclusive hs.1.completes.good.inv (step_spec hstep) hs.2⟩) h
      ⟨run_replying (run_nil _), start_exclusive⟩
  exact hboth.2

/-- A request that is being served is completed by its own thread, the holder of the map
and its instance. -/
theorem exists_completion (hhello : HelloAccepted setup)
    (hreply : acceptPty setup (ptyReply setup) = .ok ()) {actions : List (Action ι F)}
    (h : run (step setup) actions start = some s) (hserving : (s.point t).serving = true)
    (hspace : s.entries.length + 2 ≤ 2 ^ 192)
    (halive : ∀ (k : Nat) (conn : PtyConn ι F), s.conns[k]? = some conn →
      conn.owner = (t, s.serial t) → ∀ e, conn.service.point ≠ .exited e) (pty : F) :
    ∃ later s' k, run (step setup) later s = some s' ∧
      (∀ a ∈ later, a.thread = some t ∨
        (∃ u, s.sessions.holder = some u ∧ a.thread = some u) ∨ a = .pty k (.run .serve)) ∧
      s'.point t = .receiving ∧ s'.serial t = s.serial t ∧ s'.requested = s.requested ∧
      Served setup s' (t, s.serial t) ∧ Announced setup s' (t, s.serial t) k ∧
      ((∀ create, s.requested (t, s.serial t) = some create →
        setup.isSeqPacket create.fd = true) → s'.Running k) := by
  have hs := run_replying h
  have hexclusive := run_exclusive h
  have hone := hexclusive.one_le_serial (Point.serving_not_idle hserving)
  obtain ⟨first, mid, k, hfirst, hfirstActs, hfinishing⟩ :=
    exists_finishing pty hs hexclusive hserving hspace halive
  obtain ⟨second, s', hsecond, hsecondActs, hdone, hzero⟩ :=
    exists_run_of_measure (I := Finishing setup s t k) (fun s => s.remaining t k)
      (fun s hI hne => hI.advances hhello hreply hone hne) hfinishing
  obtain ⟨hpoint, hserved, hannounced⟩ := hdone.done hone hzero
  refine ⟨first ++ second, s', k, run_append_eq_some.2 ⟨mid, hfirst, hsecond⟩, ?_, hpoint,
    hdone.serial, hdone.requested, hserved, hannounced, fun hsocket => ?_⟩
  · intro a ha
    rcases List.mem_append.1 ha with ha | ha
    · rcases hfirstActs a ha with hown | hholder
      · exact .inl hown
      · exact .inr (.inl hholder)
    · rcases hsecondActs a ha with hown | hinstance
      · exact .inl hown
      · exact .inr (.inr hinstance)
  · apply hdone.running hhello (hdone.stored hone hpoint)
    rw [hdone.requested, hdone.serial]
    exact hsocket

/-- From every reachable state, a request that is being served can be completed, when
the two services are of one build, not all ids are taken, and the instance of the
request, if it has one, has not exited: there is a run of its own thread, the holder of
the map and its instance at the end of which the session is stored and the instance has
received the client. -/
theorem request_can_complete (setup : Setup F) (hhello : HelloAccepted setup)
    (hreply : acceptPty setup (ptyReply setup) = .ok ()) (actions : List (Action ι F))
    (s : State ι F) (h : run (step setup) actions start = some s) (t : ι)
    (hserving : (s.point t).serving = true) (hspace : s.entries.length + 2 ≤ 2 ^ 192)
    (halive : ∀ (k : Nat) (conn : PtyConn ι F), s.conns[k]? = some conn →
      conn.owner = (t, s.serial t) → ∀ e, conn.service.point ≠ .exited e) (pty : F) :
    ∃ later s' k, run (step setup) later s = some s' ∧
      (∀ a ∈ later, a.thread = some t ∨
        (∃ u, s.sessions.holder = some u ∧ a.thread = some u) ∨ ∃ b, a = .pty k b) ∧
      s'.point t = .receiving ∧ s'.serial t = s.serial t ∧ s'.requested = s.requested ∧
      Served setup s' (t, s.serial t) ∧ Announced setup s' (t, s.serial t) k := by
  obtain ⟨later, s', k, hrun, hacts, hpoint, hserial, hrequested, hserved, hannounced, -⟩ :=
    exists_completion hhello hreply h hserving hspace halive pty
  refine ⟨later, s', k, hrun, fun a ha => ?_, hpoint, hserial, hrequested, hserved, hannounced⟩
  rcases hacts a ha with hown | hholder | hinstance
  · exact .inl hown
  · exact .inr (.inl hholder)
  · exact .inr (.inr ⟨_, hinstance⟩)

end Request

/-! ## The request of the debug client -/

theorem testReserved : ∃ s, run (step testSetup) testReserving start = some s ∧
    (s.point ()).serving = true ∧ s.requested ((), s.serial ()) = some testCreate ∧
      s.entries.length = 1 ∧ s.conns = [] :=
  ⟨_,
    run_cons_eq_some.2 ⟨_, step_accepted rfl testClient_accepted,
    run_cons_eq_some.2 ⟨_, rfl,
    run_cons_eq_some.2 ⟨_, step_requested rfl testRequest_received, rfl⟩⟩⟩, rfl, rfl, rfl, rfl⟩

theorem request_can_complete_test : ∃ (s : State Unit Nat) (later : List (Action Unit Nat))
    (s' : State Unit Nat) (k : Nat), run (step testSetup) testReserving start = some s ∧
      run (step testSetup) later s = some s' ∧ s'.point () = .receiving ∧
        Announced testSetup s' ((), s.serial ()) k := by
  obtain ⟨s, hrun, hserving, -, hlength, hconns⟩ := testReserved
  have hspace : s.entries.length + 2 ≤ 2 ^ 192 := by
    rw [hlength]
    decide
  obtain ⟨later, s', k, hlater, -, hpoint, -, -, -, hannounced⟩ :=
    request_can_complete testSetup testHello_accepted testPtyReply_accepted testReserving s hrun ()
      hserving hspace (fun k conn hconn => by simp [hconns] at hconn) 5
  exact ⟨s, later, s', k, hrun, hlater, hpoint, hannounced⟩

end TereServer.Services.Sessions
