import TereServer.Services.Sessions.Failure

/-!
# What a step does to a connection to the pty service

Only the thread that has made a connection sends on it, takes the reply from it or
closes it, and it does one of these in a step; everything else on it is done by the
instance at its other end.
-/

namespace TereServer.Services.Sessions

open Lib Bincode Ipc Proto.Sessions

section Owners

variable {ι F : Type} {setup : Setup F} {s : State ι F} {t : ι} {id : RequestId ι}

theorem Inv.conn_of_owner (hinv : Inv setup s) {i j : Nat} {conn conn' : PtyConn ι F}
    (hconn : s.conns[i]? = some conn) (hconn' : s.conns[j]? = some conn')
    (howner : conn.owner = conn'.owner) : i = j := by
  have hi : s.owners[i]? = some conn.owner := by simp [State.owners, hconn]
  have hj : s.owners[j]? = some conn'.owner := by simp [State.owners, hconn']
  obtain ⟨hlt, -⟩ := List.getElem?_eq_some_iff.1 hi
  apply (List.getElem?_inj hlt hinv.owners_nodup).1
  rw [hi, hj, howner]

theorem Linked.owner_eq {k : Nat} {sent : List (Sent F)} {conn : PtyConn ι F}
    (h : Linked s id k sent) (hconn : s.conns[k]? = some conn) :
    conn.owner = id ∧ conn.sent = sent := by
  obtain ⟨mine, hmine, howner, hsent⟩ := h
  rw [hconn] at hmine
  obtain rfl := Option.some.inj hmine
  exact ⟨howner, hsent⟩

theorem Inv.linked_unique (hinv : Inv setup s) {i j : Nat} {sent sent' : List (Sent F)}
    (h : Linked s id i sent) (h' : Linked s id j sent') : i = j ∧ sent = sent' := by
  obtain ⟨conn, hconn, howner, rfl⟩ := h
  obtain ⟨conn', hconn', howner', rfl⟩ := h'
  have hij : i = j := hinv.conn_of_owner hconn hconn' (howner.trans howner'.symm)
  subst hij
  rw [hconn] at hconn'
  obtain rfl := Option.some.inj hconn'
  exact ⟨rfl, rfl⟩

theorem Point.Knows.linked {p : Point F} {k : Nat} (hknows : p.Knows setup s id)
    (hk : p.ptyConn = some k) : ∃ sent, Linked s id k sent := by
  cases p with
  | greeting b =>
      cases hk
      exact ⟨_, hknows.2.2⟩
  | awaitingReply b =>
      cases hk
      exact ⟨_, hknows.2.2⟩
  | sendingInit b =>
      cases hk
      exact ⟨_, hknows.2.2⟩
  | lockingEntry b =>
      cases hk
      exact ⟨_, hknows.2.2⟩
  | storing b =>
      cases hk
      exact ⟨_, hknows.2.2⟩
  | _ => cases hk

theorem Inv.conn_owner (hinv : Inv setup s) {k : Nat} {conn : PtyConn ι F}
    (hk : (s.point t).ptyConn = some k) (hconn : s.conns[k]? = some conn) :
    conn.owner = (t, s.serial t) := by
  obtain ⟨sent, hlinked⟩ := (hinv.knows t).linked hk
  exact (hlinked.owner_eq hconn).1

theorem Point.reservation_of_ptyConn {p : Point F} {k : Nat} (hk : p.ptyConn = some k) :
    ∃ r, p.reservation = some r := by
  cases p with
  | greeting b => exact ⟨b.toReservation, rfl⟩
  | awaitingReply b => exact ⟨b.toReservation, rfl⟩
  | sendingInit b => exact ⟨b.toReservation, rfl⟩
  | lockingEntry b => exact ⟨b.toReservation, rfl⟩
  | storing b => exact ⟨b.toReservation, rfl⟩
  | _ => cases hk

end Owners

section Steps

variable {ι F : Type} [DecidableEq ι] {setup : Setup F} {s s' : State ι F} {a : Action ι F}
  {t : ι} {k : Nat} {conn conn' : PtyConn ι F}

/-- What the step from `s` to `s'` makes of the connection `k`. -/
inductive PtyConn.Next (setup : Setup F) (s s' : State ι F) (k : Nat) (conn : PtyConn ι F) :
    PtyConn ι F → Prop
  | kept : PtyConn.Next setup s s' k conn conn
  | closed {t : ι} {e : Panic} (howner : conn.owner = (t, s.serial t))
      (he : e.beforeReady = true) (hs' : s' = s.panic t e) :
      PtyConn.Next setup s s' k conn conn.close
  | pushed {t : ι} {m : Sent F} {p : Point F} (howner : conn.owner = (t, s.serial t))
      (h : Sends setup (s.point t) k m p) (hs' : s' = s.send t k m p) :
      PtyConn.Next setup s s' k conn (conn.push m)
  | accepted {t : ι} {b : Attachment F} {pkt : Packet F} (howner : conn.owner = (t, s.serial t))
      (hpoint : s.point t = .awaitingReply b) (hk : b.ptyConn = k)
      (hreply : conn.nextReply = some pkt) (haccept : acceptPty setup pkt = .ok ())
      (hs' : s' = (s.dropReply k).goto t (.sendingInit b)) :
      PtyConn.Next setup s s' k conn conn.dropReply
  | refused {t : ι} {e : HandshakeError} (howner : conn.owner = (t, s.serial t))
      (hs' : s' = (s.dropReply k).panic t (.handshake e)) :
      PtyConn.Next setup s s' k conn conn.dropReply.close
  | served {b : PtyAction} {conn' : PtyConn ι F} (h : conn.step setup b = some conn')
      (hs' : s' = { s with conns := s.conns.modify k fun _ => conn' }) :
      PtyConn.Next setup s s' k conn conn'

theorem conns_panic {e : Panic} (hk : (s.point t).ptyConn = some k) :
    (s.panic t e).conns = s.conns.modify k .close := by
  unfold State.panic
  rw [hk]

/-- A panic before the session is stored closes the connection of its own request. -/
theorem conn_next_panic (hinv : Inv setup s) {e : Panic} (h : Panics s (s.point t) e)
    (hconn' : (s.panic t e).conns[k]? = some conn') :
    ∃ conn, s.conns[k]? = some conn ∧ conn.Next setup s (s.panic t e) k conn' := by
  cases hi : (s.point t).ptyConn with
  | none =>
      have hconns : (s.panic t e).conns = s.conns := by
        unfold State.panic
        rw [hi]
      rw [hconns] at hconn'
      exact ⟨conn', hconn', .kept⟩
  | some i =>
      rw [conns_panic hi] at hconn'
      obtain ⟨conn, hconn, rfl⟩ := getElem?_modify_eq_some.1 hconn'
      refine ⟨conn, hconn, ?_⟩
      by_cases hik : i = k
      · subst hik
        obtain ⟨r, hr⟩ := Point.reservation_of_ptyConn hi
        rw [if_pos rfl]
        exact .closed (hinv.conn_owner hi hconn) (h.beforeReady hinv hr) rfl
      · rw [if_neg hik]
        exact .kept

theorem conn_next_send (hinv : Inv setup s) {i : Nat} {m : Sent F} {p : Point F}
    (h : Sends setup (s.point t) i m p) (hconn' : (s.send t i m p).conns[k]? = some conn') :
    ∃ conn, s.conns[k]? = some conn ∧ conn.Next setup s (s.send t i m p) k conn' := by
  obtain ⟨conn, hconn, rfl⟩ := getElem?_modify_eq_some.1 hconn'
  refine ⟨conn, hconn, ?_⟩
  by_cases hik : i = k
  · subst hik
    obtain ⟨sent, hlinked⟩ := h.linked (hinv.knows t)
    rw [if_pos rfl]
    exact .pushed (hlinked.owner_eq hconn).1 h rfl
  · rw [if_neg hik]
    exact .kept

theorem conn_next_reply (hinv : Inv setup s) (h : s.receivedReply setup t none = some s')
    (hconn' : s'.conns[k]? = some conn') :
    ∃ conn, s.conns[k]? = some conn ∧ conn.Next setup s s' k conn' := by
  cases hpoint : s.point t with
  | awaitingReply b =>
      have hptyConn : (s.point t).ptyConn = some b.ptyConn := by
        rw [hpoint]
        rfl
      simp only [State.receivedReply, hpoint] at h
      obtain ⟨pkt, hpkt, h⟩ := Option.map_eq_some_iff.1 h
      obtain ⟨mine, hmine, hreply⟩ := Option.bind_eq_some_iff.1 hpkt
      have howner := hinv.conn_owner hptyConn hmine
      cases haccept : acceptPty setup pkt with
      | ok u =>
          simp only [haccept] at h
          subst h
          obtain ⟨conn, hconn, rfl⟩ := getElem?_modify_eq_some.1 hconn'
          refine ⟨conn, hconn, ?_⟩
          by_cases hk : b.ptyConn = k
          · subst hk
            rw [hmine] at hconn
            obtain rfl := Option.some.inj hconn
            rw [if_pos rfl]
            exact .accepted howner hpoint rfl hreply haccept rfl
          · rw [if_neg hk]
            exact .kept
      | error e =>
          simp only [haccept] at h
          subst h
          have hptyConn' : ((s.dropReply b.ptyConn).point t).ptyConn = some b.ptyConn := hptyConn
          rw [conns_panic hptyConn'] at hconn'
          obtain ⟨dropped, hdropped, rfl⟩ := getElem?_modify_eq_some.1 hconn'
          obtain ⟨conn, hconn, rfl⟩ := getElem?_modify_eq_some.1 hdropped
          refine ⟨conn, hconn, ?_⟩
          by_cases hk : b.ptyConn = k
          · subst hk
            rw [hmine] at hconn
            obtain rfl := Option.some.inj hconn
            rw [if_pos rfl, if_pos rfl]
            exact .refused howner rfl
          · rw [if_neg hk, if_neg hk]
            exact .kept
  | _ =>
      simp only [State.receivedReply, hpoint] at h
      cases h

/-- A connection after a step was just made, or is what the step has made of it. -/
theorem step_conn (hinv : Inv setup s) (h : step setup s a = some s')
    (hconn' : s'.conns[k]? = some conn') :
    (∃ t r ptyMaster, s.point t = .connecting r ptyMaster ∧ s' = s.connect t r ptyMaster ∧
      k = s.conns.length ∧ conn' = .connected (t, s.serial t)) ∨
    ∃ conn, s.conns[k]? = some conn ∧ conn.Next setup s s' k conn' := by
  cases step_spec h with
  | panic ha hpanics => exact .inr (conn_next_panic hinv hpanics hconn')
  | @connect t r ptyMaster hpoint =>
      rcases getElem?_snoc_eq_some hconn' with hconn | ⟨rfl, rfl⟩
      · exact .inr ⟨conn', hconn, .kept⟩
      · exact .inl ⟨t, r, ptyMaster, hpoint, rfl, rfl, rfl⟩
  | send hsends => exact .inr (conn_next_send hinv hsends hconn')
  | accept hpoint => exact .inr (conn_next_reply hinv h hconn')
  | refuse hpoint => exact .inr (conn_next_reply hinv h hconn')
  | stolen hpoint hentry hvalue => exact absurd (hinv.storing hpoint hentry).2 hvalue
  | @pty i b mine mine' hmine hspec =>
      obtain ⟨next, hnext, hs'⟩ := Option.map_eq_some_iff.1 h
      obtain ⟨mine, hmine, hserve⟩ := Option.bind_eq_some_iff.1 hnext
      rw [← hs'] at hconn' ⊢
      obtain ⟨conn, hconn, rfl⟩ := getElem?_modify_eq_some.1 hconn'
      refine .inr ⟨conn, hconn, ?_⟩
      by_cases hik : i = k
      · subst hik
        rw [hmine] at hconn
        obtain rfl := Option.some.inj hconn
        rw [if_pos rfl]
        exact .served hserve rfl
      · rw [if_neg hik]
        exact .kept
  | _ => exact .inr ⟨conn', hconn', .kept⟩

/-- No connection is ever removed. -/
theorem step_conn_kept (hinv : Inv setup s) (h : step setup s a = some s')
    (hconn : s.conns[k]? = some conn) :
    ∃ conn', s'.conns[k]? = some conn' ∧ conn.Next setup s s' k conn' := by
  obtain ⟨conn', hconn', -⟩ := (step_spec h).conn_owner hconn
  refine ⟨conn', hconn', ?_⟩
  rcases step_conn hinv h hconn' with ⟨t, r, ptyMaster, -, -, rfl, -⟩ | ⟨conn₀, hconn₀, hnext⟩
  · rw [List.getElem?_eq_none le_rfl] at hconn
    cases hconn
  · rw [hconn] at hconn₀
    obtain rfl := Option.some.inj hconn₀
    exact hnext

omit [DecidableEq ι] in
theorem PtyConn.Step.closed_eq (h : PtyConn.Step setup conn conn') :
    conn'.closed = conn.closed := by
  cases h <;> rfl

theorem PtyConn.Next.owner_eq {s s' : State ι F} (h : conn.Next setup s s' k conn') :
    conn'.owner = conn.owner := by
  cases h with
  | served h _ => exact (PtyConn.step_spec h).kept.1
  | _ => rfl

end Steps

end TereServer.Services.Sessions
