import TereServer.Services.Sessions.Threads

/-!
# The invariant of the sessions service

Beside what the threads know: the threads exclude each other from the map, the
map and the entries agree, no request has two entries or two connections, and no
mutex is poisoned.
-/

namespace TereServer.Services.Sessions

open Lib Bincode Ipc Proto.Sessions

section Steps

variable {ι F : Type} [DecidableEq ι] {setup : Setup F} {s s' : State ι F} {a : Action ι F}
  {t : ι}

/-! ## The mutex of the map -/

omit [DecidableEq ι] in
theorem Moves.holdsSessions {p p' : Point F} (h : Moves s p p') (hholds : p'.holdsSessions = true) :
    p.holdsSessions = true := by
  cases h with
  | occupied create => rfl
  | vacant create sessionId hvacant => rfl
  | _ => cases hholds

theorem Sends.not_holdsSessions {p p' : Point F} {k : Nat} {m : Sent F}
    (h : Sends setup p k m p') : p'.holdsSessions = false := by
  cases h <;> rfl

theorem Step.holder (hinv : Inv setup s) (h : Step setup s a s') (ht : a.thread = some t)
    (hholds : (s'.point t).holdsSessions = true) : s'.sessions.holder = some t := by
  cases h with
  | @move _ u p ha h =>
      obtain rfl : u = t := Option.some.inj (ha.symm.trans ht)
      rw [State.goto_point] at hholds
      exact hinv.holder u (h.holdsSessions hholds)
  | @lockSessions u create hpoint hfree => exact ht
  | @send u k m p h =>
      obtain rfl : u = t := Option.some.inj ht
      rw [State.send_point, h.not_holdsSessions] at hholds
      cases hholds
  | pty hconn h => cases ht
  | @panic _ u e ha h =>
      obtain rfl : u = t := Option.some.inj (ha.symm.trans ht)
      simp [Point.holdsSessions] at hholds
  | _ =>
      obtain rfl := Option.some.inj ht
      simp [Point.holdsSessions] at hholds

theorem step_holder (hinv : Inv setup s) (h : Step setup s a s') (t : ι)
    (hholds : (s'.point t).holdsSessions = true) : s'.sessions.holder = some t := by
  by_cases ht : a.thread = some t
  · exact h.holder hinv ht hholds
  · have hframe := h.frame hinv ht
    rw [hframe.point] at hholds
    rw [hframe.sessions hholds]
    exact hinv.holder t hholds

/-! ## Who has an entry and a connection -/

omit [DecidableEq ι] in
theorem reservations_setSession {k : Nat} {session : Mutex ι (Session F)} :
    (s.setSession k session).reservations = s.reservations :=
  map_modify_of_eq fun _ _ => rfl

theorem Step.reservations (h : Step setup s a s') :
    s'.reservations = s.reservations ∧ s'.sessions.value = s.sessions.value ∨
      ∃ t create sessionId, s.point t = .inserting create sessionId ∧
        s' = s.insert t create sessionId := by
  cases h with
  | @insert t create sessionId hpoint => exact .inr ⟨t, create, sessionId, hpoint, rfl⟩
  | lockEntry hpoint hentry => exact .inl ⟨reservations_setSession, rfl⟩
  | store hpoint hentry hvalue => exact .inl ⟨reservations_setSession, rfl⟩
  | stolen hpoint hentry hvalue => exact .inl ⟨reservations_setSession, rfl⟩
  | _ => exact .inl ⟨rfl, rfl⟩

theorem owners_panic {e : Panic} : (s.panic t e).owners = s.owners := by
  unfold State.panic State.owners
  dsimp only
  split
  · exact map_modify_of_eq fun _ _ => rfl
  · rfl

omit [DecidableEq ι] in
theorem owners_dropReply {k : Nat} : (s.dropReply k).owners = s.owners :=
  map_modify_of_eq fun _ _ => rfl

theorem Step.owners (h : Step setup s a s') :
    s'.owners = s.owners ∨ ∃ t r ptyMaster, s.point t = .connecting r ptyMaster ∧
      s' = s.connect t r ptyMaster := by
  cases h with
  | @connect t r ptyMaster hpoint => exact .inr ⟨t, r, ptyMaster, hpoint, rfl⟩
  | panic ha h => exact .inl owners_panic
  | send h => exact .inl (map_modify_of_eq fun _ _ => rfl)
  | accept hpoint => exact .inl owners_dropReply
  | refuse hpoint => exact .inl (owners_panic.trans owners_dropReply)
  | stolen hpoint hentry hvalue => exact .inl owners_panic
  | @pty k b conn conn' hconn h =>
      refine .inl (map_modify_of_eq fun other hother => ?_)
      obtain rfl := Option.some.inj (hconn.symm.trans hother)
      exact h.kept.1
  | _ => exact .inl rfl

/-- A thread only goes back to a point without an entry or a connection with a
new request. -/
theorem Step.advances (h : Step setup s a s') (ht : a.thread = some t) :
    s.point t = .receiving ∧ s'.serial t = s.serial t + 1 ∨
      s'.serial t = s.serial t ∧
        ((s'.point t).unreserved = true → (s.point t).unreserved = true) ∧
        ((s'.point t).unconnected = true → (s.point t).unconnected = true) := by
  cases h with
  | @move _ u p ha h =>
      obtain rfl : u = t := Option.some.inj (ha.symm.trans ht)
      refine .inr ⟨rfl, ?_⟩
      rw [State.goto_point]
      generalize s.point u = q at h
      cases h <;> exact ⟨by simp [Point.unreserved], by simp [Point.unconnected, Point.unreserved]⟩
  | @panic _ u e ha h =>
      obtain rfl : u = t := Option.some.inj (ha.symm.trans ht)
      exact .inr ⟨rfl, by simp [Point.unreserved], by simp [Point.unconnected, Point.unreserved]⟩
  | @request u create pkt hpoint h =>
      obtain rfl : u = t := Option.some.inj ht
      exact .inl ⟨hpoint, State.request_serial ..⟩
  | @send u k m p h =>
      obtain rfl : u = t := Option.some.inj ht
      refine .inr ⟨rfl, ?_⟩
      rw [State.send_point]
      generalize s.point u = q at h
      cases h <;> exact ⟨by simp [Point.unreserved], by simp [Point.unconnected, Point.unreserved]⟩
  | pty hconn h => cases ht
  | _ =>
      obtain rfl := Option.some.inj ht
      exact .inr ⟨rfl, by simp [*, Point.unreserved],
        by simp [*, Point.unconnected, Point.unreserved]⟩

theorem step_next_le (hinv : Inv setup s) (h : Step setup s a s') (t : ι) :
    s.next Point.unreserved t ≤ s'.next Point.unreserved t ∧
      s.next Point.unconnected t ≤ s'.next Point.unconnected t := by
  unfold State.next
  by_cases ht : a.thread = some t
  · rcases h.advances ht with ⟨hpoint, hserial⟩ | ⟨hserial, hunreserved, hunconnected⟩
    · rw [hpoint, hserial]
      constructor <;> split <;> split <;> omega
    · rw [hserial]
      constructor
      · split <;> split <;> simp_all
      · split <;> split <;> simp_all
  · have hframe := h.frame hinv ht
    rw [hframe.point, hframe.serial]
    exact ⟨le_rfl, le_rfl⟩

/-! ## The invariant -/

theorem step_sessions (hinv : Inv setup s) (h : Step setup s a s') (id : SessionId) (k : Nat) :
    s'.sessions.value id = some k ↔ ∃ owner, s'.reservations[k]? = some (owner, id) := by
  rcases h.reservations with ⟨hreservations, hvalue⟩ | ⟨t, create, sessionId, hpoint, rfl⟩
  · rw [hreservations, hvalue]
    exact hinv.sessions id k
  · have hknows := hinv.knows_at hpoint
    have hlength : s.entries.length = s.reservations.length := (List.length_map ..).symm
    have hsnoc : (s.insert t create sessionId).reservations =
        s.reservations ++ [((t, s.serial t), sessionId)] := List.map_append
    have hvalue : (s.insert t create sessionId).sessions.value =
        Function.update s.sessions.value sessionId (some s.reservations.length) := by
      rw [← hlength]
      rfl
    rw [hsnoc, hvalue]
    by_cases hid : id = sessionId
    · subst hid
      rw [Function.update_self]
      constructor
      · intro hk
        obtain rfl := Option.some.inj hk
        exact ⟨_, List.getElem?_concat_length⟩
      · rintro ⟨owner, howner⟩
        rcases getElem?_snoc_eq_some howner with hold | ⟨rfl, -⟩
        · have hsome := (hinv.sessions id k).2 ⟨owner, hold⟩
          rw [hknows.2] at hsome
          cases hsome
        · rfl
    · rw [Function.update_of_ne hid, hinv.sessions id k]
      constructor
      · rintro ⟨owner, howner⟩
        exact ⟨owner, getElem?_append_of_some howner⟩
      · rintro ⟨owner, howner⟩
        rcases getElem?_snoc_eq_some howner with hold | ⟨-, hnew⟩
        · exact ⟨owner, hold⟩
        · exact absurd (congrArg Prod.snd hnew) hid

theorem next_unreserved_insert (create : CreateShellSession F) (sessionId : SessionId) :
    (s.insert t create sessionId).next Point.unreserved t = s.serial t + 1 := by
  simp only [State.next, State.insert_point]
  rfl

theorem next_unconnected_connect (r : Reservation F) (ptyMaster : F) :
    (s.connect t r ptyMaster).next Point.unconnected t = s.serial t + 1 := by
  simp only [State.next, State.connect_point]
  rfl

theorem step_reservations_lt (hinv : Inv setup s) (h : Step setup s a s') :
    ∀ r ∈ s'.reservations, r.1.2 < s'.next Point.unreserved r.1.1 := by
  have hold (r) (hr : r ∈ s.reservations) : r.1.2 < s'.next Point.unreserved r.1.1 :=
    (hinv.reservations_lt r hr).trans_le (step_next_le hinv h _).1
  rcases h.reservations with ⟨hreservations, -⟩ | ⟨t, create, sessionId, hpoint, rfl⟩
  · rw [hreservations]
    exact hold
  · intro r hr
    have hsnoc : (s.insert t create sessionId).reservations =
        s.reservations ++ [((t, s.serial t), sessionId)] := List.map_append
    rw [hsnoc] at hr
    rcases List.mem_append.1 hr with hr | hr
    · exact hold r hr
    · obtain rfl := List.mem_singleton.1 hr
      rw [next_unreserved_insert]
      exact Nat.lt_succ_self _

theorem step_reservations_nodup (hinv : Inv setup s) (h : Step setup s a s') :
    (s'.reservations.map Prod.fst).Nodup := by
  rcases h.reservations with ⟨hreservations, -⟩ | ⟨t, create, sessionId, hpoint, rfl⟩
  · rw [hreservations]
    exact hinv.reservations_nodup
  · have hsnoc : (s.insert t create sessionId).reservations =
        s.reservations ++ [((t, s.serial t), sessionId)] := List.map_append
    rw [hsnoc, List.map_append, List.map_singleton]
    rw [← List.concat_eq_append]
    refine hinv.reservations_nodup.concat fun hmem => ?_
    obtain ⟨r, hr, howner⟩ := List.mem_map.1 hmem
    have hlt := hinv.reservations_lt r hr
    rw [howner] at hlt
    simp [State.next, hpoint, Point.unreserved] at hlt

theorem step_owners_lt (hinv : Inv setup s) (h : Step setup s a s') :
    ∀ owner ∈ s'.owners, owner.2 < s'.next Point.unconnected owner.1 := by
  have hold (owner) (ho : owner ∈ s.owners) : owner.2 < s'.next Point.unconnected owner.1 :=
    (hinv.owners_lt owner ho).trans_le (step_next_le hinv h _).2
  rcases h.owners with howners | ⟨t, r, ptyMaster, hpoint, rfl⟩
  · rw [howners]
    exact hold
  · intro owner ho
    have hsnoc : (s.connect t r ptyMaster).owners = s.owners ++ [(t, s.serial t)] :=
      List.map_append
    rw [hsnoc] at ho
    rcases List.mem_append.1 ho with ho | ho
    · exact hold owner ho
    · obtain rfl := List.mem_singleton.1 ho
      rw [next_unconnected_connect]
      exact Nat.lt_succ_self _

theorem step_owners_nodup (hinv : Inv setup s) (h : Step setup s a s') : s'.owners.Nodup := by
  rcases h.owners with howners | ⟨t, r, ptyMaster, hpoint, rfl⟩
  · rw [howners]
    exact hinv.owners_nodup
  · have hsnoc : (s.connect t r ptyMaster).owners = s.owners ++ [(t, s.serial t)] :=
      List.map_append
    rw [hsnoc, ← List.concat_eq_append]
    refine hinv.owners_nodup.concat fun hmem => ?_
    have hlt := hinv.owners_lt _ hmem
    simp [State.next, hpoint, Point.unconnected] at hlt

/-! ## Entries -/

/-- The session of an entry was stored, by its own request. -/
def Entry.Ready (s : State ι F) (entry : Entry ι F) : Prop :=
  ∃ create ptyMaster ptyConn sent, entry.session.value = .ready ptyMaster ptyConn ∧
    Started s entry.owner create ptyMaster ∧ Linked s entry.owner ptyConn sent

/-- What a step makes of an entry. -/
structure Entry.Next (s : State ι F) (a : Action ι F) (s' : State ι F) (entry entry' : Entry ι F) :
    Prop where
  owner : entry'.owner = entry.owner
  sessionId : entry'.sessionId = entry.sessionId
  poisoned : entry'.session.poisoned = entry.session.poisoned
  value : entry'.session.value = entry.session.value ∨
    entry.session.value = .creating ∧ entry'.Ready s' ∧
      ∃ t, a = .store t ∧ entry.owner = (t, s.serial t)

omit [DecidableEq ι] in
theorem Entry.Next.refl (entry : Entry ι F) : entry.Next s a s' entry :=
  ⟨rfl, rfl, rfl, .inl rfl⟩

theorem Step.entry (hinv : Inv setup s) (h : Step setup s a s') {k : Nat} {entry : Entry ι F}
    (hentry : s.entries[k]? = some entry) :
    ∃ entry', s'.entries[k]? = some entry' ∧ entry.Next s a s' entry' := by
  cases h with
  | insert hpoint => exact ⟨entry, getElem?_append_of_some hentry, .refl entry⟩
  | @lockEntry t b mine hpoint hmine =>
      refine ⟨_, getElem?_modify_of_some hentry, ?_⟩
      split
      · rename_i hk
        rw [hk, hentry] at hmine
        obtain rfl := Option.some.inj hmine
        exact ⟨rfl, rfl, rfl, .inl rfl⟩
      · exact .refl entry
  | @store t b mine hpoint hmine hvalue =>
      obtain ⟨-, hstarted, hlinked⟩ := hinv.knows_at hpoint
      have howner := (hinv.storing hpoint hmine).1
      refine ⟨_, getElem?_modify_of_some hentry, ?_⟩
      split
      · rename_i hk
        rw [hk, hentry] at hmine
        obtain rfl := Option.some.inj hmine
        refine ⟨rfl, rfl, rfl, .inr ⟨hvalue, ?_, t, rfl, howner⟩⟩
        rw [← howner] at hstarted hlinked
        exact ⟨b.create, b.ptyMaster, b.ptyConn, _, rfl, hstarted, hlinked⟩
      · exact .refl entry
  | @stolen t b mine hpoint hmine hvalue =>
      exact absurd (hinv.storing hpoint hmine).2 hvalue
  | _ => exact ⟨entry, hentry, .refl entry⟩

theorem Step.entry_origin (h : Step setup s a s') {k : Nat} {entry' : Entry ι F}
    (hentry' : s'.entries[k]? = some entry') :
    (∃ entry, s.entries[k]? = some entry) ∨
      ∃ t create sessionId, s.point t = .inserting create sessionId ∧
        s' = s.insert t create sessionId ∧ k = s.entries.length ∧
          entry' = ⟨(t, s.serial t), sessionId, .new .creating⟩ := by
  rcases h.reservations with ⟨hreservations, -⟩ | ⟨t, create, sessionId, hpoint, rfl⟩
  · have hlength : s'.entries.length = s.entries.length := by
      simpa [State.reservations] using congrArg List.length hreservations
    obtain ⟨hk, -⟩ := List.getElem?_eq_some_iff.1 hentry'
    exact .inl ⟨_, List.getElem?_eq_getElem (hlength ▸ hk)⟩
  · rcases getElem?_snoc_eq_some hentry' with hold | ⟨rfl, rfl⟩
    · exact .inl ⟨entry', hold⟩
    · exact .inr ⟨t, create, sessionId, hpoint, rfl, rfl, rfl⟩

theorem step_entries_unpoisoned (hinv : Inv setup s) (h : Step setup s a s') :
    ∀ entry ∈ s'.entries, entry.session.poisoned = false := by
  intro entry' hmem
  obtain ⟨k, hentry'⟩ := List.mem_iff_getElem?.1 hmem
  rcases h.entry_origin hentry' with ⟨entry, hentry⟩ | ⟨t, create, sessionId, -, -, -, rfl⟩
  · obtain ⟨entry'', hentry'', hnext⟩ := h.entry hinv hentry
    obtain rfl := Option.some.inj (hentry'.symm.trans hentry'')
    exact hnext.poisoned.trans (hinv.entries_unpoisoned entry (List.mem_of_getElem? hentry))
  · rfl

theorem step_sessions_unpoisoned (hinv : Inv setup s) (h : Step setup s a s') :
    s'.sessions.poisoned = false := by
  have hsame : s'.sessions.poisoned = s.sessions.poisoned := by
    cases h <;> rfl
  exact hsame.trans hinv.sessions_unpoisoned

theorem step_inv (hinv : Inv setup s) (h : Step setup s a s') : Inv setup s' where
  knows := step_knows hinv h
  holder := step_holder hinv h
  sessions := step_sessions hinv h
  reservations_nodup := step_reservations_nodup hinv h
  reservations_lt := step_reservations_lt hinv h
  owners_nodup := step_owners_nodup hinv h
  owners_lt := step_owners_lt hinv h
  sessions_unpoisoned := step_sessions_unpoisoned hinv h
  entries_unpoisoned := step_entries_unpoisoned hinv h

omit [DecidableEq ι] in
theorem start_inv : Inv setup (start : State ι F) where
  knows t := trivial
  holder t h := by cases h
  sessions id k := by simp [start, State.reservations, Mutex.new]
  reservations_nodup := List.nodup_nil
  reservations_lt r h := by cases h
  owners_nodup := List.nodup_nil
  owners_lt owner h := by cases h
  sessions_unpoisoned := rfl
  entries_unpoisoned entry h := by cases h

theorem run_inv {actions : List (Action ι F)} (h : run (step setup) actions start = some s) :
    Inv setup s :=
  run_invariant (fun _ _ _ hstep hinv => step_inv hinv (step_spec hstep)) h start_inv

end Steps

end TereServer.Services.Sessions
