import TereServer.Proto.Limits
import TereServer.Services.Sessions.Invariant
import TereServer.Services.Sessions.Progress

/-!
# The shell that is started

What a request asks for beside what `OpenMachineShell` is called with for it.  The
machine and the user reach the call, under the name of the machine; the program,
its arguments and its environment do not.
-/

namespace TereServer.Services.Sessions

open Lib Bincode Ipc Proto.Sessions

/-! ## The call -/

/-- The arguments of `OpenMachineShell`. -/
structure OpenMachineShell where
  name : Str
  user : Str
  path : Str
  args : List Str
  environment : List Str
  deriving DecidableEq

/-- The call that `create_shell` makes. -/
def Dbus.createShell (spec : ShellSpec) : OpenMachineShell :=
  ⟨spec.machine, spec.user, spec.program, spec.args, spec.environment⟩

/-- What a thread calls in its next step, whatever comes of the call. -/
def Point.call {F : Type} : Point F → Option OpenMachineShell
  | .creatingShell r => some (Dbus.createShell (shellSpec r.create))
  | _ => none

/-- A run to where a thread has received a request and makes a call for it. -/
def Opens (ι : Type) {F : Type} [DecidableEq ι] (setup : Setup F) (create : CreateShellSession F)
    (call : OpenMachineShell) : Prop :=
  ∃ (actions : List (Action ι F)) (s : State ι F) (t : ι),
    run (step setup) actions start = some s ∧
      s.requested (t, s.serial t) = some create ∧ (s.point t).call = some call

/-! ## The request -/

/-- What to run on the machine; what is absent counts as empty. -/
structure Command where
  program : Str
  args : List Str
  env : List Str
  deriving DecidableEq

section Requests

variable {F : Type}

theorem empty_size : "".utf8ByteSize < 2 ^ 64 := by decide

def command (create : CreateShellSession F) : Command where
  program := create.program.getD ⟨"", empty_size⟩
  args := create.args.elim [] Subtype.val
  env := create.env.elim [] Subtype.val

/-- Two requests ask for the same shell. -/
structure Agree (create create' : CreateShellSession F) : Prop where
  machine : create.machine = create'.machine
  user : create.user = create'.user
  command : command create = command create'

theorem host_size : ".host".utf8ByteSize < 2 ^ 64 := by decide

/-- The container whose name is what stands for the host. -/
def hostContainer : Machine := .container ⟨".host", host_size⟩

def HostAlias (machine machine' : Machine) : Prop :=
  machine = .host ∧ machine' = hostContainer ∨ machine = hostContainer ∧ machine' = .host

instance : DecidableRel HostAlias := fun _ _ => inferInstanceAs (Decidable (_ ∨ _))

/-- The same user asks for two commands on one machine, or for the host and for the
container that has its name. -/
def Collides (create create' : CreateShellSession F) : Prop :=
  create.user = create'.user ∧
    (create.machine = create'.machine ∧ command create ≠ command create' ∨
      HostAlias create.machine create'.machine)

instance : DecidableRel fun create create' : CreateShellSession F => Collides create create' :=
  fun _ _ => inferInstanceAs (Decidable (_ ∧ _))

end Requests

/-! ## Calls and requests -/

section Calls

variable {F : Type} {create create' : CreateShellSession F}

theorem shellSpec_machine_eq_iff :
    (shellSpec create).machine = (shellSpec create').machine ↔
      create.machine = create'.machine ∨ HostAlias create.machine create'.machine := by
  obtain ⟨_, machine, _, _, _, _⟩ := create
  obtain ⟨_, machine', _, _, _, _⟩ := create'
  cases machine with
  | host =>
      cases machine' with
      | host => simp [shellSpec]
      | container name' => simp [shellSpec, HostAlias, hostContainer, eq_comm]
  | container name =>
      cases machine' with
      | host => simp [shellSpec, HostAlias, hostContainer]
      | container name' => simp [shellSpec, HostAlias]

theorem createShell_eq_iff :
    Dbus.createShell (shellSpec create) = Dbus.createShell (shellSpec create') ↔
      (create.machine = create'.machine ∨ HostAlias create.machine create'.machine) ∧
        create.user = create'.user := by
  rw [← shellSpec_machine_eq_iff]
  constructor
  · intro h
    exact ⟨congrArg OpenMachineShell.name h, congrArg OpenMachineShell.user h⟩
  · rintro ⟨hmachine, huser⟩
    have hspec : (shellSpec create).user = (shellSpec create').user := huser
    simp only [Dbus.createShell, hmachine, hspec]
    rfl

theorem HostAlias.machine_ne {machine machine' : Machine} (h : HostAlias machine machine') :
    machine ≠ machine' := by
  rcases h with ⟨rfl, rfl⟩ | ⟨rfl, rfl⟩
  · exact Machine.noConfusion
  · exact Machine.noConfusion

theorem agree_of_call_iff :
    (Dbus.createShell (shellSpec create) = Dbus.createShell (shellSpec create') →
      Agree create create') ↔ ¬ Collides create create' := by
  rw [createShell_eq_iff]
  constructor
  · rintro hagree ⟨huser, ⟨hmachine, hcommand⟩ | halias⟩
    · exact hcommand (hagree ⟨.inl hmachine, huser⟩).command
    · exact halias.machine_ne (hagree ⟨.inr halias, huser⟩).machine
  · rintro hcollides ⟨hmachine | halias, huser⟩
    · by_cases hcommand : command create = command create'
      · exact ⟨hmachine, huser, hcommand⟩
      · exact absurd ⟨huser, .inl ⟨hmachine, hcommand⟩⟩ hcollides
    · exact absurd ⟨huser, .inr halias⟩ hcollides

end Calls

/-! ## Runs -/

section Runs

variable {ι F : Type} [DecidableEq ι] {setup setup' : Setup F} {s s' : State ι F}
  {create create' : CreateShellSession F}

omit [DecidableEq ι] in
theorem Point.Knows.call_eq {p : Point F} {id : RequestId ι} {call : OpenMachineShell}
    (hknows : p.Knows setup s id) (hcall : p.call = some call) :
    ∃ create, s.requested id = some create ∧ call = Dbus.createShell (shellSpec create) := by
  cases p with
  | creatingShell r =>
      cases hcall
      exact ⟨r.create, hknows.1, rfl⟩
  | _ => cases hcall

variable {call call' : OpenMachineShell}

/-- The call is made for the request that was received last. -/
theorem Opens.call_eq (h : Opens ι setup create call) :
    call = Dbus.createShell (shellSpec create) := by
  obtain ⟨actions, s, t, hrun, hrequested, hcall⟩ := h
  obtain ⟨received, hreceived, rfl⟩ := ((run_inv hrun).knows t).call_eq hcall
  rw [hrequested] at hreceived
  cases hreceived
  rfl

/-- Of two requests, in the same run or in two, that lead to the same call it holds that
they agree, exactly when they do not collide. -/
theorem same_call_agrees_iff {κ : Type} [DecidableEq κ] (h : Opens ι setup create call)
    (h' : Opens κ setup' create' call') :
    (call = call' → Agree create create') ↔ ¬ Collides create create' := by
  rw [h.call_eq, h'.call_eq]
  exact agree_of_call_iff

end Runs

/-! ## Requests of the debug client -/

def reserving (create : CreateShellSession Nat) : List (Action Unit Nat) :=
  [.received () (.ok testClient), .sent () (.ok ()),
    .received () (.ok (.of (Request.createShellSession create))),
    .printed () true, .lockSessions (), .draw () testId, .insert (), .printed () true]

theorem short_received {F : Type} {create : CreateShellSession F}
    (h : Proto.createShellSessionSize create ≤ 8191) :
    receiveRequest (.ok (.of (Request.createShellSession create))) =
      .ok (.createShellSession create) := by
  have hsize := Proto.sessionsRequest_size create
  have hfiles : (Packet.of (Request.createShellSession create)).files.length ≤ 1 :=
    Schema.fds_length_le _ rfl _
  have hpos : 1 ≤ 1 + Proto.createShellSessionSize create := by omega
  have hle : 1 + Proto.createShellSessionSize create ≤ 8192 := by omega
  rw [← hsize] at hpos hle
  exact Proto.receiveAs_of_size hpos hle (Process.fits_of_space (by decide) (by decide) hfiles)

/-- Every request that fits into a packet is acted on in some run. -/
theorem opens_of_short {create : CreateShellSession Nat}
    (h : Proto.createShellSessionSize create ≤ 8191) :
    Opens Unit testSetup create (Dbus.createShell (shellSpec create)) :=
  ⟨reserving create, _, (),
    run_cons_eq_some.2 ⟨_, step_accepted rfl testClient_accepted,
    run_cons_eq_some.2 ⟨_, rfl,
    run_cons_eq_some.2 ⟨_, step_requested rfl (short_received h), rfl⟩⟩⟩, rfl, rfl⟩

def testEmpty : CreateShellSession Nat :=
  { testCreate with program := some ⟨"", empty_size⟩, args := some ⟨[], Nat.two_pow_pos 64⟩ }

/-- An absent program and an empty one. -/
theorem same_call_agrees_empty : ∃ call, Opens Unit testSetup testCreate call ∧
    Opens Unit testSetup testEmpty call ∧ Agree testCreate testEmpty := by
  have hopens : Opens Unit testSetup testCreate (Dbus.createShell (shellSpec testCreate)) :=
    opens_of_short (by decide)
  have hempty : Opens Unit testSetup testEmpty (Dbus.createShell (shellSpec testEmpty)) :=
    opens_of_short (by decide)
  exact ⟨_, hopens, hempty, (same_call_agrees_iff hopens hempty).2 (by decide) rfl⟩

def testHostContainer : CreateShellSession Nat := { testCreate with machine := hostContainer }

def testProgram : CreateShellSession Nat :=
  { testCreate with program := some ⟨"/bin/false", by decide⟩ }

/-- The container of the name `.host` is the host, and a program is ignored. -/
theorem same_call_disagrees : ∃ call, Opens Unit testSetup testCreate call ∧
    (Opens Unit testSetup testHostContainer call ∧ ¬ Agree testCreate testHostContainer) ∧
      Opens Unit testSetup testProgram call ∧ ¬ Agree testCreate testProgram := by
  have hopens : Opens Unit testSetup testCreate (Dbus.createShell (shellSpec testCreate)) :=
    opens_of_short (by decide)
  have hhost : Opens Unit testSetup testHostContainer
      (Dbus.createShell (shellSpec testHostContainer)) := opens_of_short (by decide)
  have hprogram : Opens Unit testSetup testProgram (Dbus.createShell (shellSpec testProgram)) :=
    opens_of_short (by decide)
  refine ⟨_, hopens, ⟨hhost, ?_⟩, hprogram, ?_⟩
  · intro h
    cases h.machine
  · intro h
    exact absurd h.command (by decide)

end TereServer.Services.Sessions
