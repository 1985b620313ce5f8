import TereServer.Bincode.Codec
import Mathlib.Data.Int.Basic

/-!
# Integers and strings

The codecs of the leaves that travel inside the payload.  Eight-bit integers
are raw bytes; the wider ones are varints, signed ones after a zigzag.  A string
is its length and its UTF-8 bytes.
-/

namespace TereServer.Bincode

open Lib

inductive IntWidth
  | w8 | w16 | w32 | w64 | w128
  deriving DecidableEq, Repr

def IntWidth.bits : IntWidth → Nat
  | w8 => 8
  | w16 => 16
  | w32 => 32
  | w64 => 64
  | w128 => 128

/-- Only the 128-bit integers use the reader that knows the 16-byte varints. -/
def IntWidth.wide : IntWidth → Bool
  | w128 => true
  | _ => false

theorem IntWidth.bits_le (w : IntWidth) : w.bits ≤ varintBits w.wide := by
  cases w <;> decide

structure IntType where
  signed : Bool
  width : IntWidth
  deriving DecidableEq, Repr

abbrev IntType.u8 : IntType := ⟨false, .w8⟩

/-- The machine integers of a type, as its bits. -/
abbrev IntType.Val (t : IntType) : Type := BitVec t.width.bits

def zigzagEncode (i : Int) : Nat :=
  if i < 0 then (-(i + 1)).toNat * 2 + 1 else i.toNat * 2

def zigzagDecode (n : Nat) : Int :=
  if n % 2 = 0 then (n / 2 : Nat) else -((n / 2 : Nat) : Int) - 1

theorem zigzagDecode_zigzagEncode (i : Int) : zigzagDecode (zigzagEncode i) = i := by
  unfold zigzagDecode zigzagEncode
  split <;> omega

theorem zigzagEncode_zigzagDecode (n : Nat) : zigzagEncode (zigzagDecode n) = n := by
  unfold zigzagDecode zigzagEncode
  split <;> split <;> omega

theorem zigzagEncode_lt {i : Int} {k : Nat} (hlow : -(2 ^ k : Nat) ≤ i) (hhigh : i < (2 ^ k : Nat)) :
    zigzagEncode i < 2 ^ (k + 1) := by
  unfold zigzagEncode
  rw [pow_succ]
  split <;> omega

namespace Codec

def unsigned (w : IntWidth) : Codec (BitVec w.bits) :=
  (varint w.wide).restrict
    (fun n => if n.1 < 2 ^ w.bits then some (BitVec.ofNat w.bits n.1) else none)
    (fun v => ⟨v.toNat, lt_of_lt_of_le v.isLt (Nat.pow_le_pow_right (by decide) w.bits_le)⟩)
    (fun n => .invalidCast n.1)
    (by
      rintro ⟨n, hn⟩ v
      have hv := v.isLt
      simp only [Subtype.mk.injEq]
      constructor
      · intro h
        split at h
        · rename_i hlt
          cases h
          exact Nat.mod_eq_of_lt hlt
        · cases h
      · rintro rfl
        simp [hv])

theorem toInt_zigzag_lt {w : IntWidth} (v : BitVec w.bits) :
    zigzagEncode v.toInt < 2 ^ varintBits w.wide := by
  have hlow := BitVec.le_toInt v
  have hhigh := BitVec.toInt_lt (x := v)
  have hpos : 1 ≤ w.bits := by cases w <;> decide
  have hlt : zigzagEncode v.toInt < 2 ^ (w.bits - 1 + 1) := zigzagEncode_lt hlow hhigh
  rw [Nat.sub_add_cancel hpos] at hlt
  exact lt_of_lt_of_le hlt (Nat.pow_le_pow_right (by decide) w.bits_le)

def signed (w : IntWidth) : Codec (BitVec w.bits) :=
  (varint w.wide).restrict
    (fun n =>
      let i := zigzagDecode n.1
      if -(2 ^ (w.bits - 1) : Nat) ≤ i ∧ i < (2 ^ (w.bits - 1) : Nat) then
        some (BitVec.ofInt w.bits i)
      else none)
    (fun v => ⟨zigzagEncode v.toInt, toInt_zigzag_lt v⟩)
    (fun n => .invalidCast n.1)
    (by
      rintro ⟨n, hn⟩ v
      have hpos : 0 < w.bits := by cases w <;> decide
      simp only [Subtype.mk.injEq]
      constructor
      · intro h
        split at h
        · rename_i hrange
          cases h
          rw [BitVec.toInt_ofInt_eq_self hpos hrange.1 hrange.2, zigzagEncode_zigzagDecode]
        · cases h
      · rintro rfl
        have hlow := BitVec.le_toInt v
        have hhigh := BitVec.toInt_lt (x := v)
        rw [zigzagDecode_zigzagEncode, if_pos ⟨hlow, hhigh⟩, BitVec.ofInt_toInt])

def rawByte : Codec (BitVec 8) :=
  byte.restrict (fun b => some b.toBitVec) UInt8.ofBitVec (fun b => .invalidCast b.toNat)
    (by
      intro b v
      simp only [Option.some.injEq]
      exact ⟨fun h => h ▸ rfl, fun h => h ▸ rfl⟩)

def int : (t : IntType) → Codec t.Val
  | ⟨_, .w8⟩ => rawByte
  | ⟨false, w⟩ => unsigned w
  | ⟨true, w⟩ => signed w

/-- Lengths, as `usize`. -/
abbrev length : Codec {n : Nat // n < 2 ^ 64} := varint false

/-- The tag byte of an `Option`. -/
def optionTag : Codec Bool :=
  byte.restrict (fun b => if b = 0 then some false else if b = 1 then some true else none)
    (fun some? => if some? then 1 else 0) .invalidTagEncoding
    (by
      intro b tag
      split
      · subst b
        cases tag <;> simp
      split
      · subst b
        cases tag <;> simp
      · cases tag <;> simp_all [eq_comm])

/-- A variant index: read as a `u32`, then compared with the number of variants. -/
def variantIndex {n : Nat} (h : n ≤ 2 ^ 32) : Codec (Fin n) :=
  ((varint false).restrict
      (fun i => if hi : i.1 < 2 ^ 32 then some (⟨i.1, hi⟩ : Fin (2 ^ 32)) else none)
      (fun i => ⟨i.1, lt_trans i.2 (by decide)⟩)
      (fun i => .invalidCast i.1)
      (by
        rintro ⟨i, hi⟩ j
        simp only [Subtype.mk.injEq]
        split
        · simp [Fin.ext_iff, eq_comm]
        · rename_i hlarge
          simp only [reduceCtorEq, false_iff]
          omega)).restrict
    (fun i => if hi : i.1 < n then some ⟨i.1, hi⟩ else none)
    (fun i => ⟨i.1, lt_of_lt_of_le i.2 h⟩)
    (fun i => .unknownVariant i.1)
    (by
      intro i j
      split
      · simp [Fin.ext_iff, eq_comm]
      · simp only [reduceCtorEq, Fin.ext_iff, false_iff]
        omega)

/-- A length and that many raw bytes. -/
def buffer : Codec {l : Bytes // l.length < 2 ^ 64} where
  encode l := length.encode ⟨l.1.length, l.2⟩ ++ l.1
  Layout l bytes := ∃ head, length.Layout ⟨l.1.length, l.2⟩ head ∧ bytes = head ++ l.1
  decode := do
    let n ← length.decode
    let l ← (run n.1).decode
    pure ⟨l.1, l.2.symm ▸ n.2⟩
  layout_encode l := ⟨_, length.layout_encode _, rfl⟩
  decode_eq_ok bytes l rest := by
    rw [Eff.bind_eq_ok]
    constructor
    · rintro ⟨n, tail, hlength, hrest⟩
      obtain ⟨head, rfl, hhead⟩ := (length.decode_eq_ok _ _ _).1 hlength
      obtain ⟨body, tail', hrun, hpure⟩ := Eff.bind_eq_ok.1 hrest
      obtain ⟨used, rfl, rfl⟩ := ((run _).decode_eq_ok _ _ _).1 hrun
      simp only [Eff.pure_run, Prod.mk.injEq, Except.ok.injEq] at hpure
      obtain ⟨rfl, rfl⟩ := hpure
      have hn : (⟨body.1.length, body.2.symm ▸ n.2⟩ : {n : Nat // n < 2 ^ varintBits false}) = n :=
        Subtype.ext body.2
      exact ⟨head ++ body.1, by simp, head,
        (congrArg (length.Layout · head) hn).mpr hhead, rfl⟩
    · rintro ⟨used, rfl, head, hhead, rfl⟩
      have hlength := length.decode_append hhead (l.1 ++ rest)
      have hrun := (run l.1.length).decode_append (a := ⟨l.1, rfl⟩) rfl rest
      rw [List.append_assoc]
      exact ⟨_, _, hlength, Eff.bind_eq_ok.2 ⟨_, _, hrun, rfl⟩⟩

end Codec

/-- A `String` of the source language: UTF-8, and at most `usize::MAX` bytes. -/
abbrev Str := {s : String // s.utf8ByteSize < 2 ^ 64}

def strBytes (s : String) : Bytes := s.toByteArray.data.toList

def Codec.string : Codec Str :=
  Codec.buffer.restrict
    (fun l =>
      if h : (ByteArray.mk l.1.toArray).IsValidUTF8 then
        some ⟨String.ofByteArray _ h, l.2⟩
      else none)
    (fun s => ⟨strBytes s.1, s.2⟩)
    (fun _ => .invalidUtf8Encoding)
    (by
      rintro ⟨l, hl⟩ ⟨s, hs⟩
      constructor
      · intro h
        split at h
        · simp only [Option.some.injEq, Subtype.mk.injEq] at h
          subst h
          rfl
        · cases h
      · intro h
        obtain rfl : strBytes s = l := congrArg Subtype.val h
        have hbytes : ByteArray.mk (strBytes s).toArray = s.toByteArray := rfl
        simp only [hbytes, s.isValidUTF8, dif_pos])

end TereServer.Bincode
