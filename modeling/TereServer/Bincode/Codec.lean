import TereServer.Lib.Effect
import Mathlib.Data.List.Basic
import Mathlib.Tactic.Ring

/-!
# Leaf codecs

A codec packages an encoder, the relation `Layout` that says which byte strings
stand for a value, and a decoder, with the proofs that the encoder stays inside
the layout and that the decoder accepts exactly the layout.  A layout may hold
several byte strings for one value: varints have non-minimal forms, which the
decoder accepts and the encoder never emits.
-/

namespace TereServer.Bincode

open Lib

abbrev Bytes := List UInt8

/-- The decode errors of the format (`bincode::ErrorKind`). -/
inductive ErrorKind
  | unexpectedEof
  | invalidUtf8Encoding
  | invalidTagEncoding (tag : UInt8)
  | invalidVarint (marker : UInt8)
  | invalidCast (value : Nat)
  | unknownVariant (index : Nat)
  | trailingBytes
  | custom (message : String)
  deriving DecidableEq, Repr

structure Codec (α : Type) where
  encode : α → Bytes
  Layout : α → Bytes → Prop
  decode : Eff Bytes ErrorKind α
  layout_encode : ∀ a, Layout a (encode a)
  decode_eq_ok : ∀ bytes a rest,
    decode bytes = (.ok a, rest) ↔ ∃ used, bytes = used ++ rest ∧ Layout a used

namespace Codec

variable {α β : Type}

theorem decode_append (c : Codec α) {a : α} {used : Bytes} (h : c.Layout a used)
    (rest : Bytes) : c.decode (used ++ rest) = (.ok a, rest) :=
  (c.decode_eq_ok _ a rest).2 ⟨used, rfl, h⟩

/-- Keep the values that `cast` maps to a `β`, and report the others. -/
def restrict (c : Codec α) (cast : α → Option β) (back : β → α)
    (refused : α → ErrorKind) (h : ∀ a b, cast a = some b ↔ back b = a) : Codec β where
  encode b := c.encode (back b)
  Layout b := c.Layout (back b)
  decode := do
    let a ← c.decode
    match cast a with
    | some b => pure b
    | none => Eff.fail (refused a)
  layout_encode b := c.layout_encode (back b)
  decode_eq_ok bytes b rest := by
    rw [Eff.bind_eq_ok]
    constructor
    · rintro ⟨a, s, hdecode, hcast⟩
      obtain ⟨used, rfl, hused⟩ := (c.decode_eq_ok _ _ _).1 hdecode
      cases hb : cast a with
      | none => simp [hb] at hcast
      | some b' =>
          simp only [hb, Eff.pure_run, Prod.mk.injEq, Except.ok.injEq] at hcast
          obtain ⟨rfl, rfl⟩ := hcast
          exact ⟨used, rfl, by rwa [(h a b').1 hb]⟩
    · rintro ⟨used, rfl, hused⟩
      refine ⟨back b, rest, c.decode_append hused rest, ?_⟩
      simp [(h (back b) b).2 rfl]

/-- One raw byte. -/
def byte : Codec UInt8 where
  encode b := [b]
  Layout b bytes := bytes = [b]
  decode
    | [] => (.error .unexpectedEof, [])
    | b :: rest => (.ok b, rest)
  layout_encode _ := rfl
  decode_eq_ok bytes b rest := by
    cases bytes with
    | nil => simp
    | cons c bytes => simp [eq_comm]

/-- A run of raw bytes whose length is known to the decoder. -/
def run (k : Nat) : Codec {l : Bytes // l.length = k} where
  encode l := l.1
  Layout l bytes := bytes = l.1
  decode bytes :=
    if h : k ≤ bytes.length then
      (.ok ⟨bytes.take k, List.length_take_of_le h⟩, bytes.drop k)
    else (.error .unexpectedEof, bytes)
  layout_encode _ := rfl
  decode_eq_ok bytes l rest := by
    obtain ⟨l, hl⟩ := l
    simp only
    split
    · simp only [Prod.mk.injEq, Except.ok.injEq, Subtype.mk.injEq]
      constructor
      · rintro ⟨rfl, rfl⟩
        exact ⟨_, (List.take_append_drop k bytes).symm, rfl⟩
      · rintro ⟨used, rfl, rfl⟩
        simp [← hl]
    · rename_i hshort
      simp only [Prod.mk.injEq, reduceCtorEq, false_and, false_iff]
      rintro ⟨used, rfl, rfl⟩
      simp only [List.length_append] at hshort
      omega

@[simp] theorem byte_layout {b : UInt8} {bytes : Bytes} :
    byte.Layout b bytes ↔ bytes = [b] := Iff.rfl

@[simp] theorem run_layout {k : Nat} {l : {l : Bytes // l.length = k}} {bytes : Bytes} :
    (run k).Layout l bytes ↔ bytes = l.1 := Iff.rfl

end Codec

/-! ## Little-endian numbers -/

/-- The `k` low base-256 digits of `n`, lowest first. -/
def le : Nat → Nat → Bytes
  | 0, _ => []
  | k + 1, n => UInt8.ofNat (n % 256) :: le k (n / 256)

def ofLe : Bytes → Nat
  | [] => 0
  | b :: bytes => b.toNat + 256 * ofLe bytes

@[simp] theorem le_length (k n : Nat) : (le k n).length = k := by
  induction k generalizing n with
  | zero => rfl
  | succ k ih => simp [le, ih]

theorem ofLe_lt (bytes : Bytes) : ofLe bytes < 256 ^ bytes.length := by
  induction bytes with
  | nil => simp [ofLe]
  | cons b bytes ih =>
      have hb : b.toNat < 256 := b.toNat_lt
      simp only [ofLe, List.length_cons, pow_succ]
      omega

theorem ofLe_le {k n : Nat} (h : n < 256 ^ k) : ofLe (le k n) = n := by
  induction k generalizing n with
  | zero =>
      have hn : n = 0 := by simpa using h
      simp [le, ofLe, hn]
  | succ k ih =>
      have hdiv : n / 256 < 256 ^ k := by
        rw [Nat.div_lt_iff_lt_mul (by decide), ← pow_succ]
        exact h
      have hdigit : (UInt8.ofNat (n % 256)).toNat = n % 256 := by
        rw [UInt8.toNat_ofNat']
        omega
      simp only [le, ofLe, ih hdiv, hdigit]
      omega

/-! ## Varints -/

/-- How many little-endian bytes follow a marker byte.  Only the 128-bit
readers know the 16-byte form. -/
def markerWidth (wide : Bool) (marker : UInt8) : Option Nat :=
  if marker = 251 then some 2
  else if marker = 252 then some 4
  else if marker = 253 then some 8
  else if marker = 254 ∧ wide = true then some 16
  else none

def varintBits (wide : Bool) : Nat := if wide then 128 else 64

inductive VarintLayout (wide : Bool) (n : Nat) : Bytes → Prop
  | byte (b : UInt8) (small : b.toNat ≤ 250) (value : b.toNat = n) : VarintLayout wide n [b]
  | marked (marker : UInt8) (digits : Bytes)
      (width : markerWidth wide marker = some digits.length) (value : ofLe digits = n) :
      VarintLayout wide n (marker :: digits)

def encodeVarint (n : Nat) : Bytes :=
  if n ≤ 250 then [UInt8.ofNat n]
  else if n < 2 ^ 16 then 251 :: le 2 n
  else if n < 2 ^ 32 then 252 :: le 4 n
  else if n < 2 ^ 64 then 253 :: le 8 n
  else 254 :: le 16 n

theorem markerWidth_large {wide : Bool} {marker : UInt8} {k : Nat}
    (h : markerWidth wide marker = some k) :
    250 < marker.toNat ∧ 256 ^ k ≤ 2 ^ varintBits wide := by
  unfold markerWidth at h
  split at h
  · rename_i hm
    cases h
    exact ⟨by simp [hm], by cases wide <;> decide⟩
  split at h
  · rename_i hm
    cases h
    exact ⟨by simp [hm], by cases wide <;> decide⟩
  split at h
  · rename_i hm
    cases h
    exact ⟨by simp [hm], by cases wide <;> decide⟩
  split at h
  · rename_i hm
    cases h
    exact ⟨by simp [hm.1], by simp [varintBits, hm.2]⟩
  · cases h

theorem encodeVarint_layout {wide : Bool} {n : Nat} (h : n < 2 ^ varintBits wide) :
    VarintLayout wide n (encodeVarint n) := by
  have marked (marker : UInt8) (k : Nat) (hk : markerWidth wide marker = some k)
      (hn : n < 256 ^ k) : VarintLayout wide n (marker :: le k n) :=
    .marked marker (le k n) (by rw [le_length]; exact hk) (ofLe_le hn)
  unfold encodeVarint
  split
  · have hb : (UInt8.ofNat n).toNat = n := by
      rw [UInt8.toNat_ofNat']
      omega
    exact .byte _ (by omega) hb
  split
  · exact marked 251 2 rfl (by omega)
  split
  · exact marked 252 4 rfl (by omega)
  split
  · exact marked 253 8 rfl (by omega)
  · cases wide with
    | false =>
        simp only [varintBits, Bool.false_eq_true, if_false] at h
        omega
    | true =>
        simp only [varintBits, if_true] at h
        exact marked 254 16 rfl (by omega)

namespace Codec

/-- `VarintEncoding` of the unsigned numbers that fit 64, or 128, bits. -/
def varint (wide : Bool) : Codec {n : Nat // n < 2 ^ varintBits wide} where
  encode n := encodeVarint n.1
  Layout n := VarintLayout wide n.1
  decode := do
    let b ← byte.decode
    if hb : b.toNat ≤ 250 then
      pure ⟨b.toNat, by cases wide <;> simp only [varintBits] <;> norm_num <;> omega⟩
    else if hk : (markerWidth wide b).isSome then do
      let digits ← (run ((markerWidth wide b).get hk)).decode
      pure ⟨ofLe digits.1, by
        have hlt := ofLe_lt digits.1
        rw [digits.2] at hlt
        exact lt_of_lt_of_le hlt (markerWidth_large (Option.some_get hk).symm).2⟩
    else Eff.fail (.invalidVarint b)
  layout_encode n := encodeVarint_layout n.2
  decode_eq_ok bytes n rest := by
    rw [Eff.bind_eq_ok]
    constructor
    · rintro ⟨b, tail, hbyte, hrest⟩
      obtain ⟨used, rfl, rfl⟩ := (byte.decode_eq_ok _ _ _).1 hbyte
      split at hrest
      · rename_i hb
        simp only [Eff.pure_run, Prod.mk.injEq, Except.ok.injEq] at hrest
        obtain ⟨rfl, rfl⟩ := hrest
        exact ⟨[b], rfl, .byte b hb rfl⟩
      split at hrest
      · rename_i hk
        obtain ⟨digits, tail', hrun, hpure⟩ := Eff.bind_eq_ok.1 hrest
        obtain ⟨used, rfl, rfl⟩ := ((run _).decode_eq_ok _ _ _).1 hrun
        simp only [Eff.pure_run, Prod.mk.injEq, Except.ok.injEq] at hpure
        obtain ⟨rfl, rfl⟩ := hpure
        refine ⟨b :: digits.1, rfl, .marked b digits.1 ?_ rfl⟩
        rw [digits.2, Option.some_get]
      · simp at hrest
    · rintro ⟨used, rfl, hused⟩
      obtain ⟨n, hn⟩ := n
      cases hused with
      | byte b small value =>
          cases value
          refine ⟨b, rest, byte.decode_append rfl rest, ?_⟩
          rw [dif_pos small]
          rfl
      | marked marker digits width value =>
          cases value
          refine ⟨marker, digits ++ rest, byte.decode_append rfl (digits ++ rest), ?_⟩
          have hlarge := (markerWidth_large width).1
          have hlength : digits.length = (markerWidth wide marker).get (by simp [width]) := by
            simp [width]
          have hrun : (run _).decode (digits ++ rest) = (.ok ⟨digits, hlength⟩, rest) :=
            (run _).decode_append (a := ⟨digits, hlength⟩) rfl rest
          rw [dif_neg (by omega), dif_pos (by simp [width])]
          exact Eff.bind_eq_ok.2 ⟨⟨digits, hlength⟩, rest, hrun, rfl⟩

end Codec

end TereServer.Bincode
