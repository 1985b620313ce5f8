import TereServer.Bincode.Size

/-!
# The layouts beside the encoder's string

A value may be written in several ways, since a varint may be longer than it needs to
be.  The encoder's string is never the longer one, and what stands at the front of a
string of bytes is known whatever follows it.
-/

namespace TereServer.Bincode

/-! ## What stands at the front -/

/-- The layouts of a codec are a prefix code. -/
theorem Codec.layout_unique {α : Type} (c : Codec α) {a a' : α} {used used' rest rest' : Bytes}
    (h : c.Layout a used) (h' : c.Layout a' used') (heq : used ++ rest = used' ++ rest') :
    a = a' ∧ used = used' ∧ rest = rest' := by
  have hdecode := c.decode_append h rest
  rw [heq, c.decode_append h' rest'] at hdecode
  have ha : a' = a := Except.ok.inj (congrArg Prod.fst hdecode)
  have hrest : rest' = rest := congrArg Prod.snd hdecode
  subst hrest
  exact ⟨ha.symm, List.append_cancel_right heq, rfl⟩

theorem VarintLayout.ne_nil {wide : Bool} {n : Nat} {bytes : Bytes}
    (h : VarintLayout wide n bytes) : bytes ≠ [] := by
  cases h with
  | byte b small value => exact List.cons_ne_nil _ _
  | marked marker digits width value => exact List.cons_ne_nil _ _

/-! ## The shortest string -/

theorem varintSize_le_of_lt {n k : Nat} (hn : n < 256 ^ k) (hk : k = 2 ∨ k = 4 ∨ k = 8 ∨ k = 16) :
    varintSize n ≤ k + 1 := by
  unfold varintSize
  rcases hk with rfl | rfl | rfl | rfl
  · have hlt : n < 2 ^ 16 := hn
    split <;> omega
  · have hlt : n < 2 ^ 32 := hn
    split
    · omega
    split <;> omega
  · have hlt : n < 2 ^ 64 := hn
    split
    · omega
    split
    · omega
    split <;> omega
  · split
    · omega
    split
    · omega
    split
    · omega
    split <;> omega

theorem markerWidth_cases {wide : Bool} {marker : UInt8} {k : Nat}
    (h : markerWidth wide marker = some k) : k = 2 ∨ k = 4 ∨ k = 8 ∨ k = 16 := by
  unfold markerWidth at h
  split at h
  · exact .inl (Option.some.inj h).symm
  split at h
  · exact .inr (.inl (Option.some.inj h).symm)
  split at h
  · exact .inr (.inr (.inl (Option.some.inj h).symm))
  split at h
  · exact .inr (.inr (.inr (Option.some.inj h).symm))
  · cases h

theorem VarintLayout.size_le {wide : Bool} {n : Nat} {bytes : Bytes}
    (h : VarintLayout wide n bytes) : varintSize n ≤ bytes.length := by
  cases h with
  | byte b small value =>
      have hsmall : n ≤ 250 := value ▸ small
      rw [varintSize, if_pos hsmall]
      exact le_rfl
  | marked marker digits width value =>
      have hlt : n < 256 ^ digits.length := value ▸ ofLe_lt digits
      exact varintSize_le_of_lt hlt (markerWidth_cases width)

theorem int_size_le {t : IntType} {v : t.Val} {bytes : Bytes} (h : (Codec.int t).Layout v bytes) :
    intSize t v ≤ bytes.length := by
  obtain ⟨signed, width⟩ := t
  cases width with
  | w8 =>
      obtain rfl : bytes = [UInt8.ofBitVec v] := h
      exact le_rfl
  | _ => cases signed <;> exact VarintLayout.size_le h

theorem string_size_le {s : Str} {bytes : Bytes} (h : Codec.string.Layout s bytes) :
    strSize s ≤ bytes.length := by
  obtain ⟨head, hhead, rfl⟩ := h
  have hsize : varintSize s.1.utf8ByteSize ≤ head.length := VarintLayout.size_le hhead
  have hlength : (strBytes s.1).length = s.1.utf8ByteSize := rfl
  rw [List.length_append, hlength, strSize]
  omega

namespace Schema

variable {φ : Type} {k : Kind}

theorem listed_size_le {s : Schema k}
    (h : ∀ (v : s.Val φ) (bytes : Bytes), s.Layout v bytes → s.size v ≤ bytes.length)
    (l : List (s.Val φ)) {bytes : Bytes} (hl : Listed s.Layout l bytes) :
    (l.map s.size).sum ≤ bytes.length := by
  induction l generalizing bytes with
  | nil => exact Nat.zero_le _
  | cons v l ih =>
      obtain ⟨front, back, rfl, hfront, hback⟩ := hl
      have hv := h v front hfront
      have hrest := ih hback
      rw [List.map_cons, List.sum_cons, List.length_append]
      omega

/-- No string that stands for a value is shorter than the encoder's. -/
theorem size_le (s : Schema k) (v : s.Val φ) {bytes : Bytes} (h : s.Layout v bytes) :
    s.size v ≤ bytes.length := by
  induction s generalizing bytes with
  | int t => exact int_size_le h
  | string => exact string_size_le h
  | fd => exact Nat.zero_le _
  | option s ih =>
      obtain ⟨front, back, rfl, hfront, hback⟩ := h
      cases v with
      | none =>
          obtain rfl : front = [0] := hfront
          show 1 + 0 ≤ _
          rw [List.length_append, List.length_singleton]
          omega
      | some v =>
          obtain rfl : front = [1] := hfront
          have hv : s.size v ≤ back.length := ih v hback
          show 1 + s.size v ≤ _
          rw [List.length_append, List.length_singleton]
          omega
  | seq s ih =>
      obtain ⟨front, back, rfl, hfront, hback⟩ := h
      have hhead : varintSize v.1.length ≤ front.length := VarintLayout.size_le hfront
      have hrest : (v.1.map s.size).sum ≤ back.length :=
        listed_size_le (fun v bytes h => ih v h) v.1 hback
      rw [size, List.length_append]
      omega
  | array s n ih => exact listed_size_le (fun v bytes h => ih v h) v.1 h
  | struct fs ih => exact ih v h
  | enum vs fits ih =>
      obtain ⟨front, back, rfl, hfront, hback⟩ := h
      have hindex : varintSize (vs.pick v).1 ≤ front.length := VarintLayout.size_le hfront
      have hrest := ih v hback
      rw [size, List.length_append]
      omega
  | noFields => exact Nat.zero_le _
  | field s fs ihs ihfs =>
      obtain ⟨front, back, rfl, hfront, hback⟩ := h
      have hfst := ihs v.1 hfront
      have hsnd := ihfs v.2 hback
      rw [size, List.length_append]
      omega
  | noVariants => exact Empty.elim v
  | variant fs vs ihfs ihvs =>
      cases v with
      | inl v => exact ihfs v h
      | inr v => exact ihvs v h

/-! ## Byte vectors -/

theorem listed_u8s (l : List (BitVec 8)) {bytes : Bytes} :
    Listed (Codec.int .u8).Layout l bytes ↔ bytes = l.map UInt8.ofBitVec := by
  induction l generalizing bytes with
  | nil => exact Iff.rfl
  | cons b l ih =>
      constructor
      · rintro ⟨front, back, rfl, hfront, hback⟩
        obtain rfl : front = [UInt8.ofBitVec b] := hfront
        rw [ih.1 hback]
        rfl
      · rintro rfl
        exact ⟨[UInt8.ofBitVec b], l.map UInt8.ofBitVec, rfl, rfl, ih.2 rfl⟩

end Schema

end TereServer.Bincode
