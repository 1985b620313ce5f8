import TereServer.Services.Sessions.Instances

/-!
# The process of the sessions service

The loop that accepts connections and starts a `serve_conn` thread for each of them.
While it runs, the threads and what they share take the steps of a family of threads
that were all there from the start.  A panic of the loop ends the process, and with it
every instance of the pty service.
-/

namespace TereServer.Services.Sessions

open Lib Bincode Ipc Proto.Sessions

theorem Step.not_returned {ι F : Type} [DecidableEq ι] {setup : Setup F} {s s' : State ι F}
    {a : Action ι F} {t : ι} {e : ConnError} (h : Step setup s a s')
    (hpoint : s.point t = .returned e) : a.thread ≠ some t := by
  intro ht
  cases h with
  | @move _ u p ha hmoves =>
      obtain rfl : u = t := Option.some.inj (ha.symm.trans ht)
      rw [hpoint] at hmoves
      cases hmoves
  | @panic _ u e ha hpanics =>
      obtain rfl : u = t := Option.some.inj (ha.symm.trans ht)
      rw [hpoint] at hpanics
      cases hpanics
  | @send u k m p hsends =>
      obtain rfl : u = t := Option.some.inj ht
      rw [hpoint] at hsends
      cases hsends
  | pty hconn hserve => cases ht
  | _ =>
      obtain rfl := Option.some.inj ht
      simp_all

theorem Step.point_of_ne {ι F : Type} [DecidableEq ι] {setup : Setup F} {s s' : State ι F}
    {a : Action ι F} {t : ι} (h : Step setup s a s') (hne : a.thread ≠ some t) :
    s'.point t = s.point t := by
  have hother {u : ι} (hu : a.thread = some u) : t ≠ u := fun htu => hne (htu ▸ hu)
  cases h with
  | pty hconn h => rfl
  | move ha h => exact Function.update_of_ne (hother ha) ..
  | panic ha h => exact Function.update_of_ne (hother ha) ..
  | _ => exact Function.update_of_ne (hother rfl) ..

/-! ## What an instance can still do -/

def PtyAction.steps : PtyAction → Nat
  | .run (.ptyIo _) => 0
  | _ => 1

/-- At most how many steps are left before an instance exits that is sent nothing more. -/
def PtyConn.stepsLeft {ι F : Type} (conn : PtyConn ι F) : Nat :=
  match conn.service.point with
  | .handshaking => conn.service.conn.incoming.length + 2
  | .replying => conn.service.conn.incoming.length + 2
  | .awaitingInit => conn.service.conn.incoming.length + 1
  | .serving _ => conn.service.conn.incoming.length + 1
  | .exited _ => 0

section Connection

variable {ι F : Type} {setup : Setup F} {conn conn' : PtyConn ι F} {kind : Kind} {pkt : Packet F}
  {rest : List (Packet F)}

theorem PtyConn.stepsLeft_le (conn : PtyConn ι F) :
    conn.stepsLeft ≤ conn.service.conn.incoming.length + 2 := by
  unfold PtyConn.stepsLeft
  split <;> omega

theorem PtyConn.receive_stepsLeft (setup : Setup F)
    (hkind : Sessions.receives conn.service.point = some kind)
    (hincoming : conn.service.conn.incoming = pkt :: rest) :
    (conn.receive setup kind pkt rest).stepsLeft < conn.stepsLeft := by
  have hlength : conn.service.conn.incoming.length = rest.length + 1 := by
    rw [hincoming, List.length_cons]
  unfold PtyConn.stepsLeft PtyConn.receive received
  dsimp only
  rw [hlength]
  cases hpoint : conn.service.point with
  | handshaking =>
      simp only [Pty.Point.received]
      cases Handshake.accept setup.deriveKey setup.ptyIdentity Proto.Pty.clientIntent pkt with
      | error e => simp
      | ok u => simp
  | awaitingInit =>
      simp only [Pty.Point.received]
      cases pkt.receiveAs Proto.Pty.Init with
      | error e => simp
      | ok msg => simp
  | serving pty =>
      simp only [Pty.Point.received]
      rcases pkt.receiveAs Proto.Pty.Request with e | ⟨dummy, fd⟩
      · simp
      · dsimp only
        cases Pty.tryFrom setup.isSeqPacket fd with
        | error e => simp
        | ok client => simp
  | _ =>
      rw [hpoint] at hkind
      cases hkind

theorem PtyConn.step_stepsLeft {b : PtyAction} (h : conn.step setup b = some conn') :
    b.steps + conn'.stepsLeft ≤ conn.stepsLeft := by
  have hpositive (hexited : ∀ e, conn.service.point ≠ .exited e) : 1 ≤ conn.stepsLeft := by
    unfold PtyConn.stepsLeft
    split
    · omega
    · omega
    · omega
    · omega
    · rename_i e hpoint
      exact absurd hpoint (hexited e)
  have hdone {e : Pty.Exit} (hexit : conn'.service.point = .exited e) : conn'.stepsLeft = 0 := by
    unfold PtyConn.stepsLeft
    rw [hexit]
  cases b with
  | fail io =>
      obtain ⟨exit, hfailure, rfl⟩ := Option.map_eq_some_iff.1 h
      have hzero := hdone rfl
      have hone := hpositive (fun e hpoint => by simp [hpoint, failure] at hfailure)
      show 1 + _ ≤ _
      omega
  | run action =>
      cases action with
      | ptyIo n =>
          obtain ⟨service, hservice, rfl⟩ := Option.map_eq_some_iff.1 h
          obtain ⟨user, -, rfl⟩ := Option.map_eq_some_iff.1 hservice
          show 0 + conn.stepsLeft ≤ conn.stepsLeft
          omega
      | serve =>
          show 1 + conn'.stepsLeft ≤ conn.stepsLeft
          rcases PtyConn.serve_cases h with ⟨kind, pkt, rest, hkind, hincoming, rfl⟩ |
            ⟨kind, e, hkind, -, rfl⟩ | ⟨hpoint, rfl⟩
          · have hlt := PtyConn.receive_stepsLeft setup hkind hincoming
            omega
          · have hzero := hdone rfl
            have hone := hpositive (fun e hpoint => by simp [hpoint, receives] at hkind)
            omega
          · simp only [PtyConn.stepsLeft, PtyConn.withService, hpoint, Conn.push]
            omega

/-- On a closed connection an instance does not wait. -/
theorem PtyConn.exists_serve (setup : Setup F) (hclosed : conn.closed = true)
    (hexited : ∀ e, conn.service.point ≠ .exited e) :
    ∃ conn', conn.step setup (.run .serve) = some conn' := by
  have hnotBlocked : conn.blocked = false := by simp [PtyConn.blocked, hclosed]
  simp only [PtyConn.step, hnotBlocked, Bool.false_eq_true, if_false]
  cases hpoint : conn.service.point with
  | exited e => exact absurd hpoint (hexited e)
  | _ => simp [Pty.step, hpoint]

end Connection

namespace Server

/-- The places where the loop panics. -/
inductive Panic
  | notSeqPacket
  | spawn
  | print
  deriving DecidableEq

/-- Before an `accept`, the conversion of a connection, the start of its thread or the
report of an error, and ended. -/
inductive Main (F : Type)
  | accepting
  | converting (conn : F)
  | spawning (conn : F)
  | reporting (e : IoError)
  | panicked (e : Panic)

def Main.ended {F : Type} : Main F → Bool
  | .panicked _ => true
  | _ => false

/-- A line on the standard error. -/
inductive Line
  | accept (e : IoError)
  | serving (t : Nat) (e : ConnError)

/-- The connections that were accepted, each with its thread, the threads that are done
with reporting, and what was printed. -/
structure State (F : Type) where
  main : Main F
  accepted : List F
  ended : List Nat
  log : List Line
  services : Sessions.State Nat F

inductive Action (F : Type)
  | accept (result : Except IoError F)
  | convert
  | spawn (ok : Bool)
  | print (ok : Bool)
  | service (a : Sessions.Action Nat F)
  | report (t : Nat) (ok : Bool)

section Definitions

variable {F : Type}

def Action.shared : Action F → Option (Sessions.Action Nat F)
  | .service a => some a
  | _ => none

/-- The end of the process closes its connections to the pty service. -/
def abandon (services : Sessions.State Nat F) : Sessions.State Nat F :=
  { services with conns := services.conns.map .close }

namespace State

def start : State F := ⟨.accepting, [], [], [], Sessions.start⟩

def panic (s : State F) (e : Panic) : State F :=
  { s with main := .panicked e, services := abandon s.services }

/-- The threads run until the process ends; the instances are processes of their own. -/
def enabled (s : State F) (a : Sessions.Action Nat F) : Bool :=
  match a.thread with
  | some t => !s.main.ended && decide (t < s.accepted.length)
  | none => true

/-- What a thread does after `serve_conn` has returned. -/
def reported (s : State F) (t : Nat) (ok : Bool) : Option (State F) :=
  match s.services.point t with
  | .returned e =>
      if s.main.ended || decide (t ∈ s.ended) then none
      else some { s with
        ended := s.ended ++ [t]
        log := if ok then s.log ++ [.serving t e] else s.log }
  | _ => none

end State

def step (setup : Setup F) (s : State F) : Action F → Option (State F)
  | .accept result =>
      match s.main, result with
      | .accepting, .ok conn => some { s with main := .converting conn }
      | .accepting, .error e => some { s with main := .reporting e }
      | _, _ => none
  | .convert =>
      match s.main with
      | .converting conn =>
          if setup.isSeqPacket conn then some { s with main := .spawning conn }
          else some (s.panic .notSeqPacket)
      | _ => none
  | .spawn ok =>
      match s.main with
      | .spawning conn =>
          if ok then some { s with main := .accepting, accepted := s.accepted ++ [conn] }
          else some (s.panic .spawn)
      | _ => none
  | .print ok =>
      match s.main with
      | .reporting e =>
          if ok then some { s with main := .accepting, log := s.log ++ [.accept e] }
          else some (s.panic .print)
      | _ => none
  | .service a =>
      if s.enabled a then
        (Sessions.step setup s.services a).map fun services => { s with services }
      else none
  | .report t ok => s.reported t ok

end Definitions

section Steps

variable {F : Type} {setup : Setup F} {s s' : State F} {a : Action F}

inductive Step (setup : Setup F) (s : State F) : Action F → State F → Prop
  | accepted {conn : F} (hmain : s.main = .accepting) :
      Step setup s (.accept (.ok conn)) { s with main := .converting conn }
  | failed {e : IoError} (hmain : s.main = .accepting) :
      Step setup s (.accept (.error e)) { s with main := .reporting e }
  | converted {conn : F} (hmain : s.main = .converting conn)
      (hkind : setup.isSeqPacket conn = true) :
      Step setup s .convert { s with main := .spawning conn }
  | spawned {conn : F} (hmain : s.main = .spawning conn) :
      Step setup s (.spawn true) { s with main := .accepting, accepted := s.accepted ++ [conn] }
  | printed {e : IoError} (hmain : s.main = .reporting e) :
      Step setup s (.print true) { s with main := .accepting, log := s.log ++ [.accept e] }
  | panicked {a : Action F} {e : Panic} (hmain : s.main.ended = false)
      (hown : a = .convert ∨ a = .spawn false ∨ a = .print false) : Step setup s a (s.panic e)
  | service {b : Sessions.Action Nat F} {services : Sessions.State Nat F}
      (henabled : s.enabled b = true) (h : Sessions.step setup s.services b = some services) :
      Step setup s (.service b) { s with services }
  | reported {t : Nat} {ok : Bool} {e : ConnError} (hmain : s.main.ended = false)
      (hended : t ∉ s.ended) (hpoint : s.services.point t = .returned e) :
      Step setup s (.report t ok) { s with
        ended := s.ended ++ [t]
        log := if ok then s.log ++ [.serving t e] else s.log }

theorem step_spec (h : step setup s a = some s') : Step setup s a s' := by
  cases a with
  | accept result =>
      simp only [step] at h
      split at h
      · rename_i conn hmain
        cases h
        exact .accepted hmain
      · rename_i e hmain
        cases h
        exact .failed hmain
      · cases h
  | convert =>
      simp only [step] at h
      split at h
      · rename_i conn hmain
        split at h
        · rename_i hkind
          cases h
          exact .converted hmain hkind
        · cases h
          exact .panicked (by rw [hmain]; rfl) (.inl rfl)
      · cases h
  | spawn ok =>
      simp only [step] at h
      split at h
      · rename_i conn hmain
        cases ok with
        | true =>
            cases h
            exact .spawned hmain
        | false =>
            cases h
            exact .panicked (by rw [hmain]; rfl) (.inr (.inl rfl))
      · cases h
  | print ok =>
      simp only [step] at h
      split at h
      · rename_i e hmain
        cases ok with
        | true =>
            cases h
            exact .printed hmain
        | false =>
            cases h
            exact .panicked (by rw [hmain]; rfl) (.inr (.inr rfl))
      · cases h
  | service b =>
      simp only [step] at h
      split at h
      · rename_i henabled
        obtain ⟨services, hservices, rfl⟩ := Option.map_eq_some_iff.1 h
        exact .service henabled hservices
      · cases h
  | report t ok =>
      simp only [step, State.reported] at h
      split at h
      · rename_i e hpoint
        split at h
        · cases h
        · rename_i hopen
          cases h
          simp only [Bool.or_eq_true, decide_eq_true_eq, not_or, Bool.not_eq_true] at hopen
          exact .reported hopen.1 hopen.2 hpoint
      · cases h

/-! ## The threads in a run of the process -/

/-- After the end of the process only the instances take steps. -/
theorem Step.ended (h : Step setup s a s') (hended : s.main.ended = true) :
    ∃ k b services, a = .service (.pty k b) ∧
      Sessions.step setup s.services (.pty k b) = some services ∧ s' = { s with services } := by
  cases h with
  | @service b services henabled h =>
      cases hthread : b.thread with
      | some t => simp [State.enabled, hthread, hended] at henabled
      | none =>
          cases b with
          | pty k b => exact ⟨k, b, services, rfl, h, rfl⟩
          | _ => cases hthread
  | panicked hmain hown =>
      rw [hended] at hmain
      cases hmain
  | reported hmain hreport hpoint =>
      rw [hended] at hmain
      cases hmain
  | accepted hmain => simp [hmain, Main.ended] at hended
  | failed hmain => simp [hmain, Main.ended] at hended
  | converted hmain hkind => simp [hmain, Main.ended] at hended
  | spawned hmain => simp [hmain, Main.ended] at hended
  | printed hmain => simp [hmain, Main.ended] at hended

/-- What a step of the running process does to what the threads share. -/
inductive Shares (setup : Setup F) (services : Sessions.State Nat F) :
    Option (Sessions.Action Nat F) → Bool → Sessions.State Nat F → Prop
  | own : Shares setup services none false services
  | ended : Shares setup services none true (abandon services)
  | shared {b : Sessions.Action Nat F} {services' : Sessions.State Nat F}
      (h : Sessions.step setup services b = some services') :
      Shares setup services (some b) false services'

theorem Step.shares (h : Step setup s a s') (hrunning : s.main.ended = false) :
    Shares setup s.services a.shared s'.main.ended s'.services := by
  cases h with
  | panicked hmain hown => rcases hown with rfl | rfl | rfl <;> exact .ended
  | service henabled h =>
      show Shares setup s.services (some _) s.main.ended _
      rw [hrunning]
      exact .shared h
  | reported hmain hreport hpoint =>
      show Shares setup s.services none s.main.ended s.services
      rw [hrunning]
      exact .own
  | _ => exact .own

theorem run_ended {actions : List (Action F)} (h : run (step setup) actions s = some s')
    (hended : s.main.ended = true) :
    (∀ b ∈ actions.filterMap Action.shared, b.thread = none) ∧
      run (Sessions.step setup) (actions.filterMap Action.shared) s.services = some s'.services ∧
        s' = { s with services := s'.services } := by
  induction actions generalizing s with
  | nil =>
      cases h
      exact ⟨List.forall_mem_nil _, rfl, rfl⟩
  | cons a actions ih =>
      obtain ⟨next, ha, hrest⟩ := run_cons_eq_some.1 h
      obtain ⟨k, b, services, rfl, hb, rfl⟩ := (step_spec ha).ended hended
      obtain ⟨hthreads, hrun, hsame⟩ := ih hrest hended
      exact ⟨List.forall_mem_cons.2 ⟨rfl, hthreads⟩, run_cons_eq_some.2 ⟨services, hb, hrun⟩, hsame⟩

/-- The shared state of the process is that of a run of the threads alone, which the
end of the process cuts short. -/
theorem run_shared {actions : List (Action F)} (h : run (step setup) actions s = some s')
    (hrunning : s.main.ended = false) :
    s'.main.ended = false ∧
        run (Sessions.step setup) (actions.filterMap Action.shared) s.services =
          some s'.services ∨
      s'.main.ended = true ∧ ∃ before after services,
        actions.filterMap Action.shared = before ++ after ∧
        run (Sessions.step setup) before s.services = some services ∧
        (∀ b ∈ after, b.thread = none) ∧
        run (Sessions.step setup) after (abandon services) = some s'.services := by
  induction actions generalizing s with
  | nil =>
      cases h
      exact .inl ⟨hrunning, rfl⟩
  | cons a actions ih =>
      obtain ⟨next, ha, hrest⟩ := run_cons_eq_some.1 h
      have hshares := (step_spec ha).shares hrunning
      rw [List.filterMap_cons]
      generalize a.shared = b, hnext : next.main.ended = ended, hservices : next.services = services
        at hshares
      cases hshares with
      | own =>
          have hih := ih hrest hnext
          rw [hservices] at hih
          exact hih
      | ended =>
          obtain ⟨hthreads, hrun, hsame⟩ := run_ended hrest hnext
          rw [hservices] at hrun
          have hmain : s'.main = next.main := by rw [hsame]
          exact .inr ⟨hmain ▸ hnext, [], _, _, rfl, run_nil _, hthreads, hrun⟩
      | shared hb =>
          rcases ih hrest hnext with ⟨hrunning', hrun⟩ |
            ⟨hended, before, after, last, hshared, hbefore, hthreads, hafter⟩
          · rw [hservices] at hrun
            exact .inl ⟨hrunning', run_cons_eq_some.2 ⟨_, hb, hrun⟩⟩
          · rw [hservices] at hbefore
            refine .inr ⟨hended, _ :: before, after, last, congrArg (List.cons _) hshared, ?_,
              hthreads, hafter⟩
            exact run_cons_eq_some.2 ⟨_, hb, hbefore⟩

/-! ## Which threads there are -/

/-- A thread that was not started has done nothing. -/
structure Confined (s : State F) : Prop where
  point : ∀ t, s.accepted.length ≤ t → s.services.point t = .handshaking
  reservations : ∀ r ∈ s.services.reservations, r.1.1 < s.accepted.length
  owners : ∀ owner ∈ s.services.owners, owner.1 < s.accepted.length

theorem Confined.lt (hs : Confined s) {t : Nat} (hpoint : s.services.point t ≠ .handshaking) :
    t < s.accepted.length := by
  by_contra hle
  exact hpoint (hs.point t (Nat.not_lt.1 hle))

theorem abandon_owners (services : Sessions.State Nat F) :
    (abandon services).owners = services.owners := by
  unfold abandon Sessions.State.owners
  rw [List.map_map]
  rfl

theorem State.enabled_lt {b : Sessions.Action Nat F} {t : Nat} (h : s.enabled b = true)
    (ht : b.thread = some t) : t < s.accepted.length := by
  simp only [State.enabled, ht, Bool.and_eq_true, decide_eq_true_eq] at h
  exact h.2

theorem Confined.service (hs : Confined s) {b : Sessions.Action Nat F}
    {services : Sessions.State Nat F} (henabled : s.enabled b = true)
    (h : Sessions.Step setup s.services b services) : Confined { s with services } where
  point t hle := by
    have hother : b.thread ≠ some t := by
      intro ht
      have hlt := State.enabled_lt henabled ht
      have hle' : s.accepted.length ≤ t := hle
      omega
    exact (h.point_of_ne hother).trans (hs.point t hle)
  reservations := by
    rcases h.reservations with ⟨hsame, -⟩ | ⟨t, create, sessionId, hpoint, rfl⟩
    · rw [hsame]
      exact hs.reservations
    · have hsnoc : (s.services.insert t create sessionId).reservations =
          s.services.reservations ++ [((t, s.services.serial t), sessionId)] := List.map_append
      rw [hsnoc, List.forall_mem_append, List.forall_mem_singleton]
      exact ⟨hs.reservations, hs.lt (by simp [hpoint])⟩
  owners := by
    rcases h.owners with hsame | ⟨t, r, ptyMaster, hpoint, rfl⟩
    · rw [hsame]
      exact hs.owners
    · have hsnoc : (s.services.connect t r ptyMaster).owners =
          s.services.owners ++ [(t, s.services.serial t)] := List.map_append
      rw [hsnoc, List.forall_mem_append, List.forall_mem_singleton]
      exact ⟨hs.owners, hs.lt (by simp [hpoint])⟩

theorem Step.confined (h : Step setup s a s') (hs : Confined s) : Confined s' := by
  cases h with
  | @spawned conn hmain =>
      have hlength : (s.accepted ++ [conn]).length = s.accepted.length + 1 := List.length_append
      refine ⟨fun t hle => hs.point t ?_, fun r hr => ?_, fun owner howner => ?_⟩
      · have hle' : (s.accepted ++ [conn]).length ≤ t := hle
        omega
      · have hlt := hs.reservations r hr
        show r.1.1 < (s.accepted ++ [conn]).length
        omega
      · have hlt := hs.owners owner howner
        show owner.1 < (s.accepted ++ [conn]).length
        omega
  | panicked hmain hown =>
      refine ⟨hs.point, hs.reservations, ?_⟩
      show ∀ owner ∈ (abandon s.services).owners, owner.1 < s.accepted.length
      rw [abandon_owners]
      exact hs.owners
  | service henabled h => exact hs.service henabled (Sessions.step_spec h)
  | _ => exact ⟨hs.point, hs.reservations, hs.owners⟩

/-! ## Every run of the threads is one of the process -/

theorem run_accepts {file : F} (hfile : setup.isSeqPacket file = true) (n : Nat) (s : State F)
    (hmain : s.main = .accepting) : ∃ actions, run (step setup) actions s =
      some { s with accepted := s.accepted ++ List.replicate n file } := by
  induction n generalizing s with
  | zero =>
      refine ⟨[], ?_⟩
      rw [List.replicate_zero, List.append_nil]
      rfl
  | succ n ih =>
      obtain ⟨actions, hrun⟩ := ih { s with accepted := s.accepted ++ [file] } hmain
      have haccept : step setup s (.accept (.ok file)) =
          some { s with main := .converting file } := by
        simp only [step, hmain]
      have hconvert : step setup { s with main := .converting file } .convert =
          some { s with main := .spawning file } := by
        simp only [step, hfile, if_true]
      have hspawn : step setup { s with main := .spawning file } (.spawn true) =
          some { s with accepted := s.accepted ++ [file] } := by
        simp only [step, if_true, hmain]
      refine ⟨.accept (.ok file) :: .convert :: .spawn true :: actions, ?_⟩
      rw [List.append_assoc] at hrun
      exact run_cons_eq_some.2 ⟨_, haccept, run_cons_eq_some.2 ⟨_, hconvert,
        run_cons_eq_some.2 ⟨_, hspawn, hrun⟩⟩⟩

theorem run_services {actions : List (Sessions.Action Nat F)} {services : Sessions.State Nat F}
    (hrunning : s.main.ended = false)
    (hlt : ∀ a ∈ actions, ∀ t, a.thread = some t → t < s.accepted.length)
    (h : run (Sessions.step setup) actions s.services = some services) :
    run (step setup) (actions.map .service) s = some { s with services } := by
  induction actions generalizing s with
  | nil =>
      cases h
      rfl
  | cons a actions ih =>
      obtain ⟨next, ha, hrest⟩ := run_cons_eq_some.1 h
      obtain ⟨hlta, hlt⟩ := List.forall_mem_cons.1 hlt
      have henabled : s.enabled a = true := by
        unfold State.enabled
        cases hthread : a.thread with
        | none => rfl
        | some t => simp [hrunning, hlta t hthread]
      have hstep : step setup s (.service a) = some { s with services := next } := by
        simp only [step, henabled, if_true, ha, Option.map_some]
      exact run_cons_eq_some.2 ⟨_, hstep, ih hrunning hlt hrest⟩

theorem exists_thread_bound (actions : List (Sessions.Action Nat F)) :
    ∃ n, ∀ a ∈ actions, ∀ t, a.thread = some t → t < n := by
  induction actions with
  | nil => exact ⟨0, List.forall_mem_nil _⟩
  | cons a actions ih =>
      obtain ⟨n, hn⟩ := ih
      refine ⟨n + a.thread.getD 0 + 1, List.forall_mem_cons.2 ⟨?_, ?_⟩⟩
      · intro t ht
        rw [ht, Option.getD_some]
        omega
      · intro b hb t ht
        have hlt := hn b hb t ht
        omega

/-- What the threads of the running process share is what the threads would share if
they had all been there from the start: the same states can be reached, and no more. -/
theorem services_reachable_iff (setup : Setup F) (file : F) (hfile : setup.isSeqPacket file = true)
    (services : Sessions.State Nat F) :
    (∃ actions s, run (step setup) actions .start = some s ∧ s.main.ended = false ∧
      s.services = services) ↔
    ∃ actions, run (Sessions.step setup) actions Sessions.start = some services := by
  constructor
  · rintro ⟨actions, s, hrun, hrunning, rfl⟩
    rcases run_shared hrun rfl with ⟨-, hshared⟩ | ⟨hended, -⟩
    · exact ⟨_, hshared⟩
    · rw [hended] at hrunning
      cases hrunning
  · rintro ⟨actions, hrun⟩
    obtain ⟨n, hn⟩ := exists_thread_bound actions
    obtain ⟨accepts, haccepts⟩ := run_accepts hfile n (.start : State F) rfl
    have hlength : ([] ++ List.replicate n file).length = n := by simp
    have hservices : run (step setup) (actions.map .service)
        ⟨.accepting, [] ++ List.replicate n file, [], [], Sessions.start⟩ = some
          ⟨.accepting, [] ++ List.replicate n file, [], [], services⟩ := by
      apply run_services rfl _ hrun
      intro a ha t ht
      show t < ([] ++ List.replicate n file).length
      rw [hlength]
      exact hn a ha t ht
    exact ⟨accepts ++ actions.map .service, _, run_append_eq_some.2 ⟨_, haccepts, hservices⟩, rfl,
      rfl⟩

/-! ## The end of the process -/

theorem Step.conns_closed (h : Step setup s a s')
    (hs : s.main.ended = true → ∀ conn ∈ s.services.conns, conn.closed = true)
    (hended' : s'.main.ended = true) : ∀ conn ∈ s'.services.conns, conn.closed = true := by
  by_cases hended : s.main.ended = true
  · obtain ⟨k, b, services, rfl, hstep, rfl⟩ := h.ended hended
    obtain ⟨conn', hconn', rfl⟩ := Option.map_eq_some_iff.1 hstep
    obtain ⟨conn, hconn, hserve⟩ := Option.bind_eq_some_iff.1 hconn'
    intro last hlast
    obtain ⟨i, hi⟩ := List.mem_iff_getElem?.1 hlast
    obtain ⟨other, hother, rfl⟩ := getElem?_modify_eq_some.1 hi
    split
    · have hsame := (PtyConn.step_spec hserve).closed_eq
      exact hsame.trans (hs hended conn (List.mem_of_getElem? hconn))
    · exact hs hended other (List.mem_of_getElem? hother)
  · cases h with
    | panicked hmain hown =>
        intro conn hconn
        obtain ⟨other, -, rfl⟩ := List.mem_map.1 hconn
        rfl
    | service henabled h => exact absurd hended' hended
    | reported hmain hreport hpoint => exact absurd hended' hended
    | _ => cases hended'

theorem run_conns_closed {actions : List (Action F)} (h : run (step setup) actions .start = some s)
    (hended : s.main.ended = true) : ∀ conn ∈ s.services.conns, conn.closed = true := by
  have hclosed : s.main.ended = true → ∀ conn ∈ s.services.conns, conn.closed = true :=
    run_invariant (I := fun s : State F =>
      s.main.ended = true → ∀ conn ∈ s.services.conns, conn.closed = true)
      (fun _ _ _ hstep => (step_spec hstep).conns_closed) h (fun hstart => by cases hstart)
  exact hclosed hended

def Action.serves (k : Nat) : Action F → Bool
  | .service (.pty j (.run .serve)) => j = k
  | .service (.pty j (.fail _)) => j = k
  | _ => false

/-- After the end of the process, an instance uses up what it can still do. -/
theorem run_stepsLeft {actions : List (Action F)} (h : run (step setup) actions s = some s')
    (hended : s.main.ended = true) {k : Nat} {conn : PtyConn Nat F}
    (hconn : s.services.conns[k]? = some conn) :
    ∃ conn', s'.services.conns[k]? = some conn' ∧ conn'.owner = conn.owner ∧
      conn'.sent = conn.sent ∧
      actions.countP (Action.serves k) + conn'.stepsLeft ≤ conn.stepsLeft := by
  induction actions generalizing s conn with
  | nil =>
      cases h
      exact ⟨conn, hconn, rfl, rfl, by simp⟩
  | cons a actions ih =>
      obtain ⟨next, ha, hrest⟩ := run_cons_eq_some.1 h
      obtain ⟨j, b, services, rfl, hstep, rfl⟩ := (step_spec ha).ended hended
      obtain ⟨served, hserved, rfl⟩ := Option.map_eq_some_iff.1 hstep
      obtain ⟨before, hbefore, hserve⟩ := Option.bind_eq_some_iff.1 hserved
      obtain ⟨conn', hconn', howner, hsent, hle⟩ := ih hrest hended (getElem?_modify_of_some hconn)
      rw [List.countP_cons]
      by_cases hj : j = k
      · subst hj
        rw [hconn] at hbefore
        obtain rfl := Option.some.inj hbefore
        rw [if_pos rfl] at howner hsent hle
        have hkept := (PtyConn.step_spec hserve).kept
        refine ⟨conn', hconn', howner.trans hkept.1, hsent.trans hkept.2, ?_⟩
        have hused := PtyConn.step_stepsLeft hserve
        have hcount : (if Action.serves j (Action.service (F := F) (.pty j b)) then 1 else 0) =
            b.steps := by
          cases b with
          | fail e => simp [Action.serves, PtyAction.steps]
          | run action => cases action <;> simp [Action.serves, PtyAction.steps]
        omega
      · rw [if_neg hj] at howner hsent hle
        have hother : Action.serves k (Action.service (F := F) (.pty j b)) = false := by
          cases b with
          | fail e => simp [Action.serves, hj]
          | run action => cases action <;> simp [Action.serves, hj]
        rw [hother]
        refine ⟨conn', hconn', howner, hsent, ?_⟩
        simpa using hle

theorem run_ended_frame {actions : List (Action F)} (h : run (step setup) actions s = some s')
    (hended : s.main.ended = true) :
    s' = { s with services := { s.services with conns := s'.services.conns } } ∧
      s'.services.conns.length = s.services.conns.length := by
  induction actions generalizing s with
  | nil =>
      cases h
      exact ⟨rfl, rfl⟩
  | cons a actions ih =>
      obtain ⟨next, ha, hrest⟩ := run_cons_eq_some.1 h
      obtain ⟨k, b, services, rfl, hstep, rfl⟩ := (step_spec ha).ended hended
      obtain ⟨conn', -, rfl⟩ := Option.map_eq_some_iff.1 hstep
      obtain ⟨hsame, hlength⟩ := ih hrest hended
      exact ⟨hsame, hlength.trans (List.length_modify ..)⟩

/-- When the loop panics, every thread stops where it is and says nothing more to the
pty service.  Whatever the order of the steps that are left, each instance gets to the
end of `serve`: it has at most two steps more than there were packets for it, and while
it has not exited it can take one. -/
theorem panicked_process_ends (setup : Setup F) (actions : List (Action F)) (s : State F)
    (h : run (step setup) actions .start = some s) (e : Panic) (hpanic : s.main = .panicked e)
    (actions' : List (Action F)) (s' : State F) (h' : run (step setup) actions' s = some s') :
    s' = { s with services := { s.services with conns := s'.services.conns } } ∧
    s'.services.conns.length = s.services.conns.length ∧
    ∀ (k : Nat) (conn : PtyConn Nat F), s.services.conns[k]? = some conn →
      actions'.countP (Action.serves k) ≤ conn.service.conn.incoming.length + 2 ∧
      ∃ conn', s'.services.conns[k]? = some conn' ∧ conn'.owner = conn.owner ∧
        conn'.sent = conn.sent ∧ conn'.closed = true ∧
        ((∃ exit, conn'.service.point = .exited exit) ∨
          ∃ next, step setup s' (.service (.pty k (.run .serve))) = some next) := by
  have hended : s.main.ended = true := by
    rw [hpanic]
    rfl
  have hframe := run_ended_frame h' hended
  refine ⟨hframe.1, hframe.2, fun k conn hconn => ?_⟩
  obtain ⟨conn', hconn', howner, hsent, hle⟩ := run_stepsLeft h' hended hconn
  have hlast := run_append_eq_some.2 ⟨s, h, h'⟩
  have hended' : s'.main.ended = true := by
    rw [hframe.1]
    exact hended
  have hclosed := run_conns_closed hlast hended' conn' (List.mem_of_getElem? hconn')
  refine ⟨?_, conn', hconn', howner, hsent, hclosed, ?_⟩
  · have hleft := conn.stepsLeft_le
    omega
  · by_cases hexited : ∃ exit, conn'.service.point = .exited exit
    · exact .inl hexited
    · obtain ⟨served, hserved⟩ := PtyConn.exists_serve setup hclosed
        (fun e he => hexited ⟨e, he⟩)
      refine .inr ⟨{ s' with
        services := { s'.services with conns := s'.services.conns.modify k fun _ => served } }, ?_⟩
      simp only [step, State.enabled, Sessions.Action.thread, if_true, Sessions.step, hconn',
        Option.bind_some, hserved, Option.map_some]

/-! ## What is reported -/

def Line.thread : Line → Option Nat
  | .accept _ => none
  | .serving t _ => some t

structure Reported (setup : Setup F) (s : State F) : Prop where
  accepted : ∀ conn ∈ s.accepted, setup.isSeqPacket conn = true
  spawning : ∀ conn, s.main = .spawning conn → setup.isSeqPacket conn = true
  nodup : s.ended.Nodup
  once : (s.log.filterMap Line.thread).Sublist s.ended

theorem Step.reports (h : Step setup s a s') (hs : Reported setup s) : Reported setup s' := by
  obtain ⟨haccepted, hspawning, hnodup, honce⟩ := hs
  cases h with
  | accepted hmain => exact ⟨haccepted, by simp, hnodup, honce⟩
  | failed hmain => exact ⟨haccepted, by simp, hnodup, honce⟩
  | @converted conn hmain hkind =>
      refine ⟨haccepted, ?_, hnodup, honce⟩
      intro conn' hconn'
      obtain rfl : conn = conn' := Main.spawning.inj hconn'
      exact hkind
  | @spawned conn hmain =>
      refine ⟨?_, by simp, hnodup, honce⟩
      rw [List.forall_mem_append, List.forall_mem_singleton]
      exact ⟨haccepted, hspawning conn hmain⟩
  | printed hmain =>
      refine ⟨haccepted, by simp, hnodup, ?_⟩
      rw [List.filterMap_append]
      exact (List.append_nil _).symm ▸ honce
  | panicked hmain hown => exact ⟨haccepted, by simp [State.panic], hnodup, honce⟩
  | service henabled h => exact ⟨haccepted, hspawning, hnodup, honce⟩
  | @reported t ok e hmain hreport hpoint =>
      refine ⟨haccepted, hspawning, ?_, ?_⟩
      · rw [← List.concat_eq_append]
        exact hnodup.concat hreport
      · cases ok with
        | false => exact honce.trans (List.sublist_append_left _ _)
        | true =>
            show ((s.log ++ [Line.serving t e]).filterMap Line.thread).Sublist _
            rw [List.filterMap_append]
            exact honce.append (List.Sublist.refl _)

theorem Step.returned (h : Step setup s a s') {t : Nat} {e : ConnError}
    (hpoint : s.services.point t = .returned e) : s'.services.point t = .returned e := by
  cases h with
  | service henabled h =>
      have hspec := Sessions.step_spec h
      exact (hspec.point_of_ne (hspec.not_returned hpoint)).trans hpoint
  | _ => exact hpoint

theorem run_returned {actions : List (Action F)} (h : run (step setup) actions s = some s')
    {t : Nat} {e : ConnError} (hpoint : s.services.point t = .returned e) :
    s'.services.point t = .returned e :=
  run_invariant (I := fun s : State F => s.services.point t = .returned e)
    (fun _ _ _ hstep => (step_spec hstep).returned) h hpoint

/-- The report of a thread is its line in the log. -/
theorem Step.line_iff (h : Step setup s a s') (t : Nat) (e : ConnError) :
    .serving t e ∈ s'.log ↔
      .serving t e ∈ s.log ∨ a = .report t true ∧ s'.services.point t = .returned e := by
  cases h with
  | printed hmain => simp
  | panicked hmain hown => rcases hown with rfl | rfl | rfl <;> simp [State.panic]
  | @reported u ok e' hmain hreport hpoint =>
      cases ok with
      | false => simp
      | true =>
          have hiff : (t = u ∧ e = e') ↔ u = t ∧ s.services.point t = .returned e := by
            constructor
            · rintro ⟨rfl, rfl⟩
              exact ⟨rfl, hpoint⟩
            · rintro ⟨rfl, hpoint'⟩
              rw [hpoint] at hpoint'
              exact ⟨rfl, (Point.returned.inj hpoint').symm⟩
          simpa using or_congr_right hiff
  | _ => simp

theorem run_line_iff {actions : List (Action F)} (h : run (step setup) actions s = some s')
    (t : Nat) (e : ConnError) : .serving t e ∈ s'.log ↔
      .serving t e ∈ s.log ∨ .report t true ∈ actions ∧ s'.services.point t = .returned e := by
  induction actions generalizing s with
  | nil =>
      cases h
      simp
  | cons a actions ih =>
      obtain ⟨next, ha, hrest⟩ := run_cons_eq_some.1 h
      rw [ih hrest, (step_spec ha).line_iff, List.mem_cons]
      constructor
      · rintro ((hlog | ⟨rfl, hpoint⟩) | ⟨hmem, hpoint⟩)
        · exact .inl hlog
        · exact .inr ⟨.inl rfl, run_returned hrest hpoint⟩
        · exact .inr ⟨.inr hmem, hpoint⟩
      · rintro (hlog | ⟨rfl | hmem, hpoint⟩)
        · exact .inl (.inl hlog)
        · -- a thread that is reported has returned before
          have hreported := step_spec ha
          cases hreported with
          | panicked hmain hown => simp at hown
          | reported hmain hreport hpoint' =>
              have hlast := run_returned hrest (e := _) hpoint'
              rw [hpoint] at hlast
              cases hlast
              exact .inl (.inr ⟨rfl, hpoint'⟩)
        · exact .inr ⟨hmem, hpoint⟩

/-- Every connection that is served was accepted and is a `SOCK_SEQPACKET` socket; what
is stored and who is connected to belongs to the threads of such connections.  A
connection that was served to its end is reported at most once, with the error it has
ended with, and is in the log exactly when its report was printed. -/
theorem connections_reported (setup : Setup F) (actions : List (Action F)) (s : State F)
    (h : run (step setup) actions .start = some s) :
    (∀ conn ∈ s.accepted, setup.isSeqPacket conn = true) ∧
    (∀ t, s.accepted.length ≤ t → s.services.point t = .handshaking) ∧
    (∀ entry ∈ s.services.entries, entry.owner.1 < s.accepted.length) ∧
    (∀ conn ∈ s.services.conns, conn.owner.1 < s.accepted.length) ∧
    (s.log.filterMap Line.thread).Nodup ∧
    ∀ t e, .serving t e ∈ s.log ↔ .report t true ∈ actions ∧ s.services.point t = .returned e := by
  have hreported : Reported setup s := run_invariant (fun _ _ _ hstep => (step_spec hstep).reports)
    h ⟨List.forall_mem_nil _, by simp [State.start], List.nodup_nil, List.Sublist.refl _⟩
  have hconfined : Confined s := run_invariant (fun _ _ _ hstep => (step_spec hstep).confined) h
    ⟨fun _ _ => rfl, List.forall_mem_nil _, List.forall_mem_nil _⟩
  refine ⟨hreported.accepted, hconfined.point, fun entry hentry => ?_, fun conn hconn => ?_,
    hreported.once.nodup hreported.nodup, fun t e => ?_⟩
  · exact hconfined.reservations _ (List.mem_map_of_mem hentry)
  · exact hconfined.owners _ (List.mem_map_of_mem hconn)
  · rw [run_line_iff h]
    exact ⟨fun hline => hline.resolve_left List.not_mem_nil, .inr⟩

end Steps

/-! ## A process with one connection -/

def testAccepting : List (Action Nat) := [.accept (.ok 3), .convert, .spawn true]

def testGone : List (Action Nat) := [.service (.received 0 (.ok .closed)), .report 0 true]

theorem connections_reported_test : ∃ s, run (step testSetup) (testAccepting ++ testGone) .start =
    some s ∧ .serving 0 (.handshake (.receive .endOfStream)) ∈ s.log := by
  let gone : Sessions.State Nat Nat :=
    Sessions.start.goto 0 (.returned (.handshake (.receive .endOfStream)))
  have hrefused : acceptClient testSetup (.ok .closed) = .error (.receive .endOfStream) := by
    simp [acceptClient, Handshake.accept]
  have hstep : Sessions.step testSetup Sessions.start (.received (0 : Nat) (.ok .closed)) =
      some gone := by
    simp only [Sessions.step, Sessions.State.received, Sessions.start, hrefused]
    rfl
  have hserved : step testSetup ⟨.accepting, [3], [], [], Sessions.start⟩
      (.service (.received 0 (.ok .closed))) = some ⟨.accepting, [3], [], [], gone⟩ :=
    congrArg (Option.map _) hstep
  have hrun : run (step testSetup) (testAccepting ++ testGone) .start = some ⟨.accepting, [3], [0],
      [.serving 0 (.handshake (.receive .endOfStream))], gone⟩ :=
    run_append_eq_some.2 ⟨⟨.accepting, [3], [], [], Sessions.start⟩, rfl,
      run_cons_eq_some.2 ⟨_, hserved, rfl⟩⟩
  obtain ⟨-, -, -, -, -, hlog⟩ := connections_reported testSetup _ _ hrun
  exact ⟨_, hrun, (hlog 0 _).2 ⟨by simp [testGone], rfl⟩⟩

/-- Up to the connection to the pty service, which has received nothing yet. -/
def testOpening : List (Sessions.Action Nat Nat) :=
  [.received 0 (.ok testClient), .sent 0 (.ok ()), .received 0 (.ok testRequest), .printed 0 true,
    .lockSessions 0, .draw 0 testId, .insert 0, .printed 0 true, .createShell 0 (some 5),
    .connect 0 true, .sent 0 (.ok ())]

theorem testOpened : ∃ services conn, run (Sessions.step testSetup) testOpening Sessions.start =
    some services ∧ services.conns = [conn] ∧ conn.service.point = .handshaking ∧
      conn.service.conn.incoming.length = 1 :=
  ⟨_, _,
    run_cons_eq_some.2 ⟨_, step_accepted rfl testClient_accepted,
    run_cons_eq_some.2 ⟨_, rfl,
    run_cons_eq_some.2 ⟨_, step_requested rfl testRequest_received, rfl⟩⟩⟩, rfl, rfl, rfl⟩

theorem services_reachable_iff_test : ∃ actions s, run (step testSetup) actions .start = some s ∧
    s.main.ended = false ∧ s.services.conns.length = 1 := by
  obtain ⟨services, conn, hrun, hconns, -⟩ := testOpened
  obtain ⟨actions, s, hserved, hrunning, rfl⟩ :=
    (services_reachable_iff testSetup 3 rfl services).2 ⟨_, hrun⟩
  exact ⟨actions, s, hserved, hrunning, by rw [hconns]; rfl⟩

/-- An `accept` fails, and so does its report. -/
def testPrinting : List (Action Nat) := [.accept (.error ⟨24⟩), .print false]

theorem panicked_process_ends_test : ∃ actions s conn next,
    run (step testSetup) actions .start = some s ∧ s.main = .panicked .print ∧
      s.services.conns[0]? = some conn ∧ conn.closed = true ∧
        step testSetup s (.service (.pty 0 (.run .serve))) = some next := by
  obtain ⟨services, conn, hopened, hconns, hpoint, -⟩ := testOpened
  have hopening : run (step testSetup) (testOpening.map .service)
      ⟨.accepting, [3], [], [], Sessions.start⟩ = some ⟨.accepting, [3], [], [], services⟩ :=
    run_services rfl (by decide) hopened
  have hrun : run (step testSetup) (testAccepting ++ (testOpening.map .service ++ testPrinting))
      .start = some ⟨.panicked .print, [3], [], [], abandon services⟩ :=
    run_append_eq_some.2 ⟨_, rfl, run_append_eq_some.2 ⟨_, hopening, rfl⟩⟩
  have hconn : (abandon services).conns[0]? = some conn.close := by
    unfold abandon
    rw [hconns]
    rfl
  obtain ⟨-, -, hinstance⟩ := panicked_process_ends testSetup _ _ hrun .print rfl [] _ rfl
  obtain ⟨-, conn', hconn', -, -, hclosed, hserves⟩ := hinstance 0 _ hconn
  obtain rfl := Option.some.inj (hconn.symm.trans hconn')
  rcases hserves with ⟨exit, hexit⟩ | ⟨next, hnext⟩
  · have hhere : conn.close.service.point = .handshaking := hpoint
    rw [hhere] at hexit
    cases hexit
  · exact ⟨_, _, _, next, hrun, rfl, hconn, hclosed, hnext⟩

end Server

end TereServer.Services.Sessions
