import EmbedNfs.Proto.Types

/-!
# XDR encodings

Big-endian integers and length-prefixed opaque data of `xdr.rs`. Both are uniquely
readable from the front of a byte string, which is what makes a concatenation of them
injective. A decoder takes what it reads off the front of its input and leaves the rest.
-/

namespace EmbedNfs

/-- `put_u32`: four bytes, most significant first. -/
def be32 (x : U32) : Bytes :=
  [x.extractLsb' 24 8, x.extractLsb' 16 8, x.extractLsb' 8 8, x.extractLsb' 0 8]

/-- `put_u64`: eight bytes, most significant first. -/
def be64 (x : U64) : Bytes := be32 (x.extractLsb' 32 32) ++ be32 (x.extractLsb' 0 32)

@[simp] theorem length_be32 (x : U32) : (be32 x).length = 4 := rfl

@[simp] theorem length_be64 (x : U64) : (be64 x).length = 8 := rfl

theorem be32_injective {x y : U32} (h : be32 x = be32 y) : x = y := by
  simp only [be32, List.cons.injEq, and_true] at h
  obtain ⟨h₃, h₂, h₁, h₀⟩ := h
  -- equal bytes at position `k` give equal bits in that byte
  have hbit : ∀ k i, x.extractLsb' k 8 = y.extractLsb' k 8 → k ≤ i → i < k + 8 →
      x.getLsbD i = y.getLsbD i := by
    intro k i hk hle hlt
    have hb := congrArg (fun z => z.getLsbD (i - k)) hk
    simpa [BitVec.getLsbD_extractLsb', show i - k < 8 by omega,
      show k + (i - k) = i by omega] using hb
  refine BitVec.eq_of_getLsbD_eq fun i hi => ?_
  by_cases hi₀ : i < 8
  · exact hbit 0 i h₀ (by omega) (by omega)
  by_cases hi₁ : i < 16
  · exact hbit 8 i h₁ (by omega) (by omega)
  by_cases hi₂ : i < 24
  · exact hbit 16 i h₂ (by omega) (by omega)
  · exact hbit 24 i h₃ (by omega) (by omega)

theorem be32_join (x : U32) :
    x.extractLsb' 24 8 ++ x.extractLsb' 16 8 ++ x.extractLsb' 8 8 ++ x.extractLsb' 0 8 = x := by
  grind

theorem be64_injective {x y : U64} (h : be64 x = be64 y) : x = y := by
  obtain ⟨hhigh, hlow⟩ := List.append_inj h rfl
  have hhigh := be32_injective hhigh
  have hlow := be32_injective hlow
  refine BitVec.eq_of_getLsbD_eq fun i hi => ?_
  by_cases hi' : i < 32
  · have hbit := congrArg (fun z => z.getLsbD i) hlow
    simpa [BitVec.getLsbD_extractLsb', hi'] using hbit
  · have hbit := congrArg (fun z => z.getLsbD (i - 32)) hhigh
    simpa [BitVec.getLsbD_extractLsb', show i - 32 < 32 by omega,
      show 32 + (i - 32) = i by omega] using hbit

/-- A word has a bit in common with a one-bit mask exactly if it has that bit. -/
theorem and_shiftLeft_ne_zero (word : U32) {i : Nat} (hi : i < 32) :
    word &&& (1#32 <<< i) ≠ 0 ↔ word.getLsbD i = true := by
  constructor
  · intro hne
    by_contra hbit
    refine hne (BitVec.eq_of_getLsbD_eq fun j hj => ?_)
    by_cases hij : j = i
    · subst hij
      simp [hbit]
    · have hone : (1#32 <<< i).getLsbD j = false := by
        simp only [BitVec.getLsbD_shiftLeft, BitVec.getLsbD_one]
        by_cases hlt : j < i
        · simp [hlt]
        · have : j - i ≠ 0 := by omega
          simp [this]
      simp [hone]
  · intro hbit hzero
    have hand : (word &&& (1#32 <<< i)).getLsbD i = true := by
      rw [BitVec.getLsbD_and, hbit]
      simp [hi]
    rw [hzero] at hand
    simp at hand

/-- `xdr_pad`. -/
def xdrPad (len : Nat) : Nat := (4 - len % 4) % 4

/-- `encode_opaque`: length, data, and zero bytes up to a multiple of four. -/
def encodeOpaque (data : Bytes) : Bytes :=
  be32 (BitVec.ofNat 32 data.length) ++ data ++ List.replicate (xdrPad data.length) 0

/-- Opaque data whose length fits its prefix can be read off the front of a byte string. -/
theorem encodeOpaque_append_inj {a b : Bytes} {r r' : Bytes} (ha : a.length < 2 ^ 32)
    (hb : b.length < 2 ^ 32) (h : encodeOpaque a ++ r = encodeOpaque b ++ r') :
    a = b ∧ r = r' := by
  simp only [encodeOpaque, List.append_assoc] at h
  obtain ⟨hlen, hrest⟩ := List.append_inj h (by simp)
  have hlen' : a.length = b.length := by
    have hmod := congrArg BitVec.toNat (be32_injective hlen)
    simp only [BitVec.toNat_ofNat] at hmod
    rwa [Nat.mod_eq_of_lt ha, Nat.mod_eq_of_lt hb] at hmod
  obtain ⟨hab, hrest⟩ := List.append_inj hrest hlen'
  rw [hlen'] at hrest
  exact ⟨hab, List.append_cancel_left hrest⟩

/-! ## Decoders -/

/-- `XdrError`, as far as the decoders here raise it. -/
inductive XdrError where
  | underflow
  | invalidEnum (value : U32)
  | invalidBool (value : U32)
  | invalidUtf8
  | opaqueTooLong (len : Nat)
  deriving DecidableEq, Repr

/-- Reads a value off the front of a byte string. -/
abbrev Decoder (α : Type) := StateT Bytes (Except XdrError) α

/-- `u32::decode`. -/
def decodeU32 : Decoder U32
  | a :: b :: c :: d :: src => .ok (a ++ b ++ c ++ d, src)
  | _ => .error .underflow

/-- `decode_opaque`. -/
def decodeOpaque : Decoder Bytes := do
  let len := (← decodeU32).toNat
  let src ← get
  if src.length < len + xdrPad len then throw .underflow
  set (src.drop (len + xdrPad len))
  return src.take len

/-- `decode_opaque_max`. -/
def decodeOpaqueMax (max : Nat) : Decoder Bytes := do
  let data ← decodeOpaque
  if max < data.length then throw (.opaqueTooLong data.length)
  return data

/-- `String::from_utf8`. -/
def utf8? (data : Bytes) : Option String :=
  String.fromUTF8? ⟨(data.map fun byte => UInt8.ofBitVec byte).toArray⟩

/-- `decode_string_max`. -/
def decodeStringMax (max : Nat) : Decoder String := do
  let some string := utf8? (← decodeOpaqueMax max) | throw .invalidUtf8
  return string

/-- A value decoded `count` times. -/
def decodeTimes {α : Type} (decode : Decoder α) : Nat → Decoder (List α)
  | 0 => return []
  | count + 1 => do
    let item ← decode
    return item :: (← decodeTimes decode count)

/-- `decode_list_max`. -/
def decodeListMax {α : Type} (decode : Decoder α) (max : Nat) : Decoder (List α) := do
  let count := (← decodeU32).toNat
  if max < count then throw (.opaqueTooLong count)
  decodeTimes decode count

/-- A sequence of two decoders succeeds where both do, the second on what the first left. -/
theorem decoder_bind_ok {α β : Type} {decode : Decoder α} {next : α → Decoder β}
    {src rest : Bytes} {b : β} (h : (decode >>= next) src = .ok (b, rest)) :
    ∃ a mid, decode src = .ok (a, mid) ∧ next a mid = .ok (b, rest) := by
  simp only [bind, StateT.bind, Except.bind] at h
  split at h
  · cases h
  · rename_i v hv
    exact ⟨v.1, v.2, hv, h⟩

theorem decodeU32_be32 (x : U32) (rest : Bytes) : decodeU32 (be32 x ++ rest) = .ok (x, rest) := by
  simp only [be32, List.cons_append, List.nil_append, decodeU32]
  exact congrArg (fun y => Except.ok (y, rest)) (be32_join x)

theorem decoder_bind_eq {α β : Type} {decode : Decoder α} {next : α → Decoder β} {src mid : Bytes}
    {a : α} (h : decode src = .ok (a, mid)) : (decode >>= next) src = next a mid := by
  simp only [bind, StateT.bind, Except.bind, h]

theorem decodeOpaqueMax_length {max : Nat} {src rest data : Bytes}
    (h : decodeOpaqueMax max src = .ok (data, rest)) : data.length ≤ max := by
  obtain ⟨a, mid, -, h⟩ := decoder_bind_ok h
  split at h
  · obtain ⟨_, _, hthrow, -⟩ := decoder_bind_ok h
    cases hthrow
  · cases h
    omega

end EmbedNfs
