import TereServer.SocketActivation

/-!
# What `parse` decides

The three variables against what they are meant to say.  A decimal is read off its
digits here, and the parser of the standard library accepts exactly these.
-/

namespace TereServer.SocketActivation

open Lib Bincode

/-! ## Decimals -/

def IsDigit (byte : UInt8) : Prop := 48 ≤ byte ∧ byte ≤ 57

instance : DecidablePred IsDigit := fun byte => inferInstanceAs (Decidable (48 ≤ byte ∧ byte ≤ 57))

def decimalValue (digits : Bytes) (value : Nat) : Nat :=
  digits.foldl (fun value digit => 10 * value + (digit.toNat - 48)) value

/-- At least one digit after an optional `+`, for a number below `bound`. -/
def Decimal (bound : Nat) (bytes : Bytes) (n : Nat) : Prop :=
  ∃ digits, (bytes = digits ∨ bytes = 43 :: digits) ∧ digits ≠ [] ∧
    (∀ digit ∈ digits, IsDigit digit) ∧ decimalValue digits 0 = n ∧ n < bound

theorem le_decimalValue (digits : Bytes) (value : Nat) : value ≤ decimalValue digits value := by
  induction digits generalizing value with
  | nil => exact Nat.le_refl value
  | cons digit digits ih =>
      have hle := ih (10 * value + (digit.toNat - 48))
      have hcons : decimalValue (digit :: digits) value =
        decimalValue digits (10 * value + (digit.toNat - 48)) := rfl
      rw [hcons]
      omega

theorem not_isDigit {byte : UInt8} : ¬ IsDigit byte ↔ byte < 48 ∨ 57 < byte := by
  unfold IsDigit
  rw [not_and_or, UInt8.not_le, UInt8.not_le]

theorem parseDigits_eq_ok {bound value n : Nat} (digits : Bytes) (hvalue : value < bound) :
    parseDigits bound digits value = .ok n ↔
      (∀ digit ∈ digits, IsDigit digit) ∧ decimalValue digits value = n ∧ n < bound := by
  induction digits generalizing value with
  | nil =>
      constructor
      · intro h
        cases h
        exact ⟨List.forall_mem_nil _, rfl, hvalue⟩
      · rintro ⟨-, rfl, -⟩
        rfl
  | cons digit digits ih =>
      have hcons : decimalValue (digit :: digits) value =
        decimalValue digits (10 * value + (digit.toNat - 48)) := rfl
      rw [parseDigits, List.forall_mem_cons, hcons]
      by_cases hdigit : IsDigit digit
      · rw [if_neg fun h => not_isDigit.2 h hdigit]
        by_cases hbound : bound ≤ 10 * value + (digit.toNat - 48)
        · -- the value only grows, so it is too large at the end as well
          have hle := le_decimalValue digits (10 * value + (digit.toNat - 48))
          rw [if_pos hbound]
          refine iff_of_false (by simp) ?_
          rintro ⟨-, rfl, hlt⟩
          omega
        · rw [if_neg hbound, ih (Nat.lt_of_not_le hbound)]
          simp only [hdigit, true_and]
      · rw [if_pos (not_isDigit.1 hdigit)]
        refine iff_of_false (by simp) ?_
        rintro ⟨⟨h, -⟩, -⟩
        exact hdigit h

theorem not_isDigit_plus : ¬ IsDigit 43 := by
  unfold IsDigit
  decide

/-- The standard library accepts the decimals. -/
theorem parseUnsigned_eq_ok {bound n : Nat} (s : String) (hbound : 0 < bound) :
    parseUnsigned bound s = .ok n ↔ Decimal bound (strBytes s) n := by
  unfold parseUnsigned Decimal
  split
  · rename_i hbytes
    refine iff_of_false (by simp) ?_
    rintro ⟨digits, rfl | hplus, hne, -⟩
    · exact hne hbytes
    · rw [hbytes] at hplus
      cases hplus
  · rename_i hbytes
    refine iff_of_false (by simp) ?_
    rintro ⟨digits, rfl | hplus, hne, hdigits, -⟩
    · rw [hbytes] at hdigits
      exact not_isDigit_plus (hdigits 43 List.mem_cons_self)
    · rw [hbytes] at hplus
      cases hplus
      exact hne rfl
  · rename_i digits hsingle hbytes
    rw [parseDigits_eq_ok digits hbound]
    constructor
    · intro h
      refine ⟨digits, .inr hbytes, ?_, h⟩
      rintro rfl
      exact hsingle rfl
    · rintro ⟨others, rfl | hplus, -, hothers⟩
      · rw [hbytes] at hothers
        exact absurd (hothers.1 43 List.mem_cons_self) not_isDigit_plus
      · rw [hbytes] at hplus
        cases hplus
        exact hothers
  · rename_i hempty hsingle hplus
    rw [parseDigits_eq_ok _ hbound]
    constructor
    · intro h
      exact ⟨strBytes s, .inl rfl, hempty, h⟩
    · rintro ⟨digits, rfl | hsign, -, hdigits⟩
      · exact hdigits
      · exact absurd hsign (hplus digits)

/-! ## Variables -/

/-- The value of a variable that is a number. -/
def Number (bound : Nat) (bytes : OsString) (n : Nat) : Prop :=
  (ByteArray.mk bytes.toArray).IsValidUTF8 ∧ Decimal bound bytes n

theorem envVar_of_valid {bytes : OsString} (h : (ByteArray.mk bytes.toArray).IsValidUTF8) :
    ∃ s, envVar (some bytes) = .ok s ∧ strBytes s = bytes := by
  refine ⟨.ofByteArray _ h, ?_, ?_⟩
  · simp only [envVar, h, dif_pos]
  · simp [strBytes]

theorem envVar_of_invalid {bytes : OsString} (h : ¬ (ByteArray.mk bytes.toArray).IsValidUTF8) :
    envVar (some bytes) = .error (.notUnicode bytes) := by
  simp only [envVar, h, dif_neg, not_false_eq_true]

section Outcomes

variable {self : SocketActivation} {pid n : Nat} {env : Env} {bytes : OsString}

/-- The number in a variable, or some error about its value. -/
theorem parse_var_cases (bound : Nat) (hbound : 0 < bound) (bytes : OsString) :
    (∃ s n, envVar (some bytes) = .ok s ∧ parseUnsigned bound s = .ok n ∧ Number bound bytes n) ∨
      (¬ ∃ n, Number bound bytes n) ∧
        ((∃ e, envVar (some bytes) = .error e) ∨
          ∃ s e, envVar (some bytes) = .ok s ∧ parseUnsigned bound s = .error e) := by
  by_cases hvalid : (ByteArray.mk bytes.toArray).IsValidUTF8
  · obtain ⟨s, hs, hbytes⟩ := envVar_of_valid hvalid
    have hdecimal (n : Nat) : parseUnsigned bound s = .ok n ↔ Decimal bound bytes n := by
      rw [parseUnsigned_eq_ok s hbound, hbytes]
    cases hparse : parseUnsigned bound s with
    | ok n => exact .inl ⟨s, n, hs, hparse, hvalid, (hdecimal n).1 hparse⟩
    | error e =>
        refine .inr ⟨?_, .inr ⟨s, e, hs, hparse⟩⟩
        rintro ⟨n, -, hn⟩
        have hok := (hdecimal n).2 hn
        rw [hparse] at hok
        cases hok
  · refine .inr ⟨?_, .inl ⟨_, envVar_of_invalid hvalid⟩⟩
    rintro ⟨n, hutf8, -⟩
    exact hvalid hutf8

theorem Decimal.unique {bound n m : Nat} {bytes : Bytes} (hn : Decimal bound bytes n)
    (hm : Decimal bound bytes m) : n = m := by
  obtain ⟨digits, hdigits, hne, hall, rfl, -⟩ := hn
  obtain ⟨digits', hdigits', hne', hall', rfl, -⟩ := hm
  have hsame : digits = digits' := by
    rcases hdigits with rfl | rfl
    · rcases hdigits' with rfl | rfl
      · rfl
      · exact absurd (hall 43 List.mem_cons_self) not_isDigit_plus
    · rcases hdigits' with rfl | hplus
      · exact absurd (hall' 43 List.mem_cons_self) not_isDigit_plus
      · cases hplus
        rfl
  rw [hsame]

theorem forUs_of_none : forUs pid (envVar none) = .error (.var .notPresent) := rfl

theorem forUs_of_number (h : Number (2 ^ 32) bytes n) :
    forUs pid (envVar (some bytes)) = .ok (n == pid) := by
  rcases parse_var_cases (2 ^ 32) (by decide) bytes with ⟨s, m, hs, hparse, hm⟩ | ⟨hnone, -⟩
  · obtain rfl : m = n := hm.2.unique h.2
    simp only [forUs, bind, Except.bind, hs, hparse, Except.mapError, pure, Except.pure]
  · exact absurd ⟨n, h⟩ hnone

theorem forUs_of_not_number (h : ¬ ∃ n, Number (2 ^ 32) bytes n) :
    ∃ e, forUs pid (envVar (some bytes)) = .error e := by
  rcases parse_var_cases (2 ^ 32) (by decide) bytes with ⟨s, m, -, -, hm⟩ |
    ⟨-, ⟨e, he⟩ | ⟨s, e, hs, hparse⟩⟩
  · exact absurd ⟨m, hm⟩ h
  · exact ⟨.var e, by simp only [forUs, bind, Except.bind, he, Except.mapError]⟩
  · exact ⟨.notInt e, by simp only [forUs, bind, Except.bind, hs, hparse, Except.mapError]⟩

theorem parse_of_forUs_error {e : EnvError} (h : forUs pid (envVar (env "LISTEN_PID")) = .error e) :
    (parse self pid env).1 = .error (.env "LISTEN_PID" e) := by
  simp only [parse, bind, Except.bind, h, Except.mapError]

theorem parse_of_not_forUs (h : forUs pid (envVar (env "LISTEN_PID")) = .ok false) :
    (parse self pid env).1 = .ok (empty self) := by
  simp only [parse, bind, Except.bind, h, Except.mapError]
  rfl

theorem parse_of_forUs (h : forUs pid (envVar (env "LISTEN_PID")) = .ok true) :
    (∀ bytes n, env "LISTEN_FDS" = some bytes → Number (2 ^ 64) bytes n →
      (parse self pid env).1 =
        .ok ⟨self, listenFdsStart, n, (env "LISTEN_FDNAMES").getD [], 0⟩) ∧
    ((¬ ∃ bytes n, env "LISTEN_FDS" = some bytes ∧ Number (2 ^ 64) bytes n) →
      ∃ e, (parse self pid env).1 = .error (.env "LISTEN_FDS" e)) := by
  cases hfds : env "LISTEN_FDS" with
  | none =>
      constructor
      · intro bytes n hsome
        cases hsome
      · intro _
        refine ⟨.var .notPresent, ?_⟩
        simp only [parse, bind, Except.bind, h, hfds, Except.mapError]
        rfl
  | some bytes =>
      rcases parse_var_cases (2 ^ 64) (by decide) bytes with ⟨s, m, hs, hparse, hm⟩ |
        ⟨hnone, hfails⟩
      · constructor
        · rintro _ n ⟨⟩ hn
          obtain rfl : m = n := hm.2.unique hn.2
          simp only [parse, bind, Except.bind, h, hfds, hs, hparse, Except.mapError]
          rfl
        · intro hnot
          exact absurd ⟨bytes, m, rfl, hm⟩ hnot
      · constructor
        · rintro _ n ⟨⟩ hn
          exact absurd ⟨n, hn⟩ hnone
        · intro _
          rcases hfails with ⟨e, he⟩ | ⟨s, e, hs, hparse⟩
          · refine ⟨.var e, ?_⟩
            simp only [parse, bind, Except.bind, h, hfds, he, Except.mapError]
            rfl
          · refine ⟨.notInt e, ?_⟩
            simp only [parse, bind, Except.bind, h, hfds, hs, hparse, Except.mapError]
            rfl

/-- Without the process id the result is an error about it. -/
theorem parse_of_unset (hpid : env "LISTEN_PID" = none) :
    (parse self pid env).1 = .error (.env "LISTEN_PID" (.var .notPresent)) := by
  apply parse_of_forUs_error
  rw [hpid]
  exact forUs_of_none

/-- The descriptors are meant for this process. -/
def MeantForUs (pid : Nat) (env : Env) : Prop :=
  env "LISTEN_PID" = none ∨ ∃ bytes, env "LISTEN_PID" = some bytes ∧ Number (2 ^ 32) bytes pid

/-- What `parse` is meant to decide. -/
structure Decides (self : SocketActivation) (pid : Nat) (env : Env)
    (result : Except Error FdIter) : Prop where
  badPid : ∀ bytes, env "LISTEN_PID" = some bytes → (¬ ∃ n, Number (2 ^ 32) bytes n) →
    ∃ e, result = .error (.env "LISTEN_PID" e)
  otherPid : ∀ bytes n, env "LISTEN_PID" = some bytes → Number (2 ^ 32) bytes n → n ≠ pid →
    ∃ iter, result = .ok iter ∧ iter.count = 0
  badFds : MeantForUs pid env →
    (¬ ∃ bytes n, env "LISTEN_FDS" = some bytes ∧ Number (2 ^ 64) bytes n) →
      ∃ e, result = .error (.env "LISTEN_FDS" e)
  fds : MeantForUs pid env → ∀ bytes n, env "LISTEN_FDS" = some bytes → Number (2 ^ 64) bytes n →
    result = .ok ⟨self, 3, n, (env "LISTEN_FDNAMES").getD [], 0⟩

theorem not_decides_of_unset (hpid : env "LISTEN_PID" = none) :
    ¬ Decides self pid env (parse self pid env).1 := by
  rintro ⟨-, -, hbadFds, hgoodFds⟩
  have hresult : (parse self pid env).1 = .error (.env "LISTEN_PID" (.var .notPresent)) :=
    parse_of_unset hpid
  by_cases hfds : ∃ bytes n, env "LISTEN_FDS" = some bytes ∧ Number (2 ^ 64) bytes n
  · obtain ⟨bytes, n, hbytes, hn⟩ := hfds
    have hok := hgoodFds (.inl hpid) bytes n hbytes hn
    rw [hresult] at hok
    cases hok
  · obtain ⟨e, he⟩ := hbadFds (.inl hpid) hfds
    rw [hresult] at he
    simp at he

theorem decides_of_set (hpid : env "LISTEN_PID" = some bytes) :
    Decides self pid env (parse self pid env).1 := by
  have hforUs (h : MeantForUs pid env) : forUs pid (envVar (env "LISTEN_PID")) = .ok true := by
    rcases h with hnone | ⟨other, hother, hn⟩
    · rw [hpid] at hnone
      cases hnone
    · rw [hother, forUs_of_number hn, beq_self_eq_true]
  constructor
  · intro other hother hnot
    obtain ⟨e, he⟩ : ∃ e, forUs pid (envVar (some other)) = .error e := forUs_of_not_number hnot
    rw [← hother] at he
    exact ⟨e, parse_of_forUs_error he⟩
  · intro other n hother hn hne
    have hno : forUs pid (envVar (some other)) = .ok (n == pid) := forUs_of_number hn
    rw [← hother, beq_eq_false_iff_ne.2 hne] at hno
    exact ⟨empty self, parse_of_not_forUs hno, rfl⟩
  · intro hus hnot
    exact (parse_of_forUs (hforUs hus)).2 hnot
  · intro hus
    exact (parse_of_forUs (hforUs hus)).1

/-- `parse` decides as it is meant to exactly when the process id is set. -/
theorem parse_decides_iff (self : SocketActivation) (pid : Nat) (env : Env) :
    Decides self pid env (parse self pid env).1 ↔ env "LISTEN_PID" ≠ none := by
  cases hpid : env "LISTEN_PID" with
  | none => exact iff_of_false (not_decides_of_unset hpid) (by simp)
  | some bytes => exact iff_of_true (decides_of_set hpid) (by simp)

end Outcomes

/-- One descriptor, for whatever process. -/
def unnamedEnv : Env := fun key => if key = "LISTEN_FDS" then some (strBytes "1") else none

theorem unset_pid_is_error :
    (parse {} 7 unnamedEnv).1 = .error (.env "LISTEN_PID" (.var .notPresent)) ∧
      ¬ Decides {} 7 unnamedEnv (parse {} 7 unnamedEnv).1 :=
  ⟨rfl, not_decides_of_unset rfl⟩

end TereServer.SocketActivation
