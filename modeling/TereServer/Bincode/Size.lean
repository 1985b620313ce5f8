import TereServer.Bincode.Schema

/-!
# Sizes of encodings

How many bytes the serializer emits for a value: a sum over its leaves, of which
only the variable-length ones depend on what they hold.  How many out-of-band items
a value can have is known from its schema, unless they stand in a sequence.
-/

namespace TereServer.Bincode

/-- The size of a varint. -/
def varintSize (n : Nat) : Nat :=
  if n ≤ 250 then 1
  else if n < 2 ^ 16 then 3
  else if n < 2 ^ 32 then 5
  else if n < 2 ^ 64 then 9
  else 17

theorem encodeVarint_length (n : Nat) : (encodeVarint n).length = varintSize n := by
  unfold encodeVarint varintSize
  split
  · rfl
  split
  · rw [List.length_cons, le_length]
  split
  · rw [List.length_cons, le_length]
  split
  · rw [List.length_cons, le_length]
  · rw [List.length_cons, le_length]

def intSize : (t : IntType) → t.Val → Nat
  | ⟨_, .w8⟩, _ => 1
  | ⟨false, _⟩, v => varintSize v.toNat
  | ⟨true, _⟩, v => varintSize (zigzagEncode v.toInt)

def strSize (s : Str) : Nat := varintSize s.1.utf8ByteSize + s.1.utf8ByteSize

theorem int_encode_length (t : IntType) (v : t.Val) :
    ((Codec.int t).encode v).length = intSize t v := by
  obtain ⟨signed, width⟩ := t
  cases width with
  | w8 => rfl
  | _ => cases signed <;> exact encodeVarint_length _

theorem string_encode_length (s : Str) : (Codec.string.encode s).length = strSize s := by
  have hencode : Codec.string.encode s = encodeVarint (strBytes s.1).length ++ strBytes s.1 := rfl
  have hlength : (strBytes s.1).length = s.1.utf8ByteSize := rfl
  rw [hencode, List.length_append, encodeVarint_length, hlength, strSize]

namespace Schema

variable {φ : Type} {k : Kind}

/-- The size of a value; for the variants of an enum, that of the payload. -/
def size : {k : Kind} → (s : Schema k) → s.Val φ → Nat
  | _, int t, v => intSize t v
  | _, string, v => strSize v
  | _, fd, _ => 0
  | _, option s, v => 1 + v.elim 0 s.size
  | _, seq s, l => varintSize l.1.length + (l.1.map s.size).sum
  | _, array s _, l => (l.1.map s.size).sum
  | _, struct fs, v => fs.size v
  | _, enum vs _, v => varintSize (vs.pick v).1 + vs.size v
  | _, noFields, _ => 0
  | _, field s fs, v => s.size v.1 + fs.size v.2
  | _, noVariants, v => nomatch v
  | _, variant fs vs, v => v.elim fs.size vs.size

theorem flatMap_encode_length {s : Schema k} (h : ∀ v : s.Val φ, (s.encode v).length = s.size v)
    (l : List (s.Val φ)) : (l.flatMap s.encode).length = (l.map s.size).sum := by
  rw [List.length_flatMap]
  exact congrArg List.sum (List.map_congr_left fun v _ => h v)

theorem encode_length (s : Schema k) (v : s.Val φ) : (s.encode v).length = s.size v := by
  induction s with
  | int t => exact int_encode_length t v
  | string => exact string_encode_length v
  | fd => rfl
  | option s ih =>
      cases v with
      | none => rfl
      | some v =>
          have htag : (Codec.optionTag.encode true).length = 1 := rfl
          have hvalue : s.option.encode (some v) = Codec.optionTag.encode true ++ s.encode v := rfl
          rw [hvalue, List.length_append, htag, ih v]
          rfl
  | seq s ih =>
      have hlength : (Codec.length.encode (Vec.len v)).length = varintSize v.1.length :=
        encodeVarint_length _
      rw [encode, List.length_append, hlength, flatMap_encode_length ih]
      rfl
  | array s n ih => exact flatMap_encode_length ih v.1
  | struct fs ih => exact ih v
  | enum vs fits ih =>
      have hindex : ((Codec.variantIndex fits).encode (vs.pick v)).length =
          varintSize (vs.pick v).1 := encodeVarint_length _
      rw [encode, List.length_append, hindex, ih v]
      rfl
  | noFields => rfl
  | field s fs ihs ihfs =>
      rw [encode, List.length_append, ihs v.1, ihfs v.2]
      rfl
  | noVariants => exact Empty.elim v
  | variant fs vs ihfs ihvs =>
      cases v with
      | inl v => exact ihfs v
      | inr v => exact ihvs v

/-- Raw bytes take one byte each. -/
theorem u8s_size (l : List (BitVec 8)) : (l.map (intSize .u8)).sum = l.length := by
  have hbytes : l.map (intSize .u8) = List.replicate l.length 1 :=
    List.map_eq_replicate_iff.2 fun _ _ => rfl
  rw [hbytes, List.sum_replicate_nat, Nat.mul_one]

/-! ## Out-of-band items -/

/-- The most out-of-band items that a value can have, when there is a bound. -/
def fdCount : {k : Kind} → Schema k → Option Nat
  | _, int _ => some 0
  | _, string => some 0
  | _, fd => some 1
  | _, option s => s.fdCount
  | _, seq s => if s.fdCount = some 0 then some 0 else none
  | _, array s n => s.fdCount.map (n * ·)
  | _, struct fs => fs.fdCount
  | _, enum vs _ => vs.fdCount
  | _, noFields => some 0
  | _, field s fs => s.fdCount.bind fun n => fs.fdCount.map (n + ·)
  | _, noVariants => some 0
  | _, variant fs vs => fs.fdCount.bind fun n => vs.fdCount.map (max n)

theorem flatMap_fds_le {s : Schema k} {n : Nat} (h : ∀ v : s.Val φ, (s.fds v).length ≤ n)
    (l : List (s.Val φ)) : (l.flatMap s.fds).length ≤ l.length * n := by
  induction l with
  | nil => simp
  | cons v l ih =>
      have hv := h v
      rw [List.flatMap_cons, List.length_append, List.length_cons, Nat.succ_mul]
      omega

theorem fds_length_le (s : Schema k) {n : Nat} (h : s.fdCount = some n) (v : s.Val φ) :
    (s.fds v).length ≤ n := by
  induction s generalizing n with
  | int t => exact Nat.zero_le _
  | string => exact Nat.zero_le _
  | fd =>
      cases h
      exact Nat.le_refl 1
  | option s ih =>
      cases v with
      | none => exact Nat.zero_le _
      | some v => exact ih h v
  | seq s ih =>
      rw [fdCount] at h
      split at h
      · rename_i hzero
        have hle := flatMap_fds_le (ih hzero) v.1
        exact hle.trans (Nat.zero_le _)
      · cases h
  | array s m ih =>
      obtain ⟨count, hcount, rfl⟩ := Option.map_eq_some_iff.1 h
      have hle := flatMap_fds_le (ih hcount) v.1
      rw [v.2] at hle
      exact hle
  | struct fs ih => exact ih h v
  | enum vs fits ih => exact ih h v
  | noFields => exact Nat.zero_le _
  | field s fs ihs ihfs =>
      obtain ⟨first, hfirst, hmap⟩ := Option.bind_eq_some_iff.1 h
      obtain ⟨rest, hrest, rfl⟩ := Option.map_eq_some_iff.1 hmap
      rw [fds, List.length_append]
      exact Nat.add_le_add (ihs hfirst v.1) (ihfs hrest v.2)
  | noVariants => exact Empty.elim v
  | variant fs vs ihfs ihvs =>
      obtain ⟨first, hfirst, hmap⟩ := Option.bind_eq_some_iff.1 h
      obtain ⟨rest, hrest, rfl⟩ := Option.map_eq_some_iff.1 hmap
      cases v with
      | inl v => exact (ihfs hfirst v).trans (Nat.le_max_left _ _)
      | inr v => exact (ihvs hrest v).trans (Nat.le_max_right _ _)

end Schema

end TereServer.Bincode
