import EmbedNfs.Proto.Xdr

/-!
# XDR encoders

The encoders of `xdr.rs` for truth values, strings and lists, with the number of bytes they
write.
-/

namespace EmbedNfs

/-- `bool::encode`. -/
def encodeBool (b : Bool) : Bytes := be32 (if b then 1 else 0)

/-- `str::as_bytes`. -/
def utf8Bytes (s : String) : Bytes := s.toUTF8.data.toList.map UInt8.toBitVec

/-- `String::encode`. -/
def encodeString (s : String) : Bytes := encodeOpaque (utf8Bytes s)

/-- `Vec::encode`: the number of items, then the items. -/
def encodeList {α : Type} (encode : α → Bytes) (items : List α) : Bytes :=
  be32 (BitVec.ofNat 32 items.length) ++ items.flatMap encode

/-- `xdr_opaque_len`. -/
def xdrOpaqueLen (len : Nat) : Nat := 4 + len + xdrPad len

@[simp] theorem length_encodeBool (b : Bool) : (encodeBool b).length = 4 := rfl

@[simp] theorem length_encodeOpaque (data : Bytes) :
    (encodeOpaque data).length = xdrOpaqueLen data.length := by
  simp only [encodeOpaque, xdrOpaqueLen, List.length_append, length_be32, List.length_replicate]

@[simp] theorem length_utf8Bytes (s : String) : (utf8Bytes s).length = s.utf8ByteSize := by
  simp only [utf8Bytes, List.length_map, Array.length_toList]
  exact String.size_toByteArray

@[simp] theorem length_encodeString (s : String) :
    (encodeString s).length = xdrOpaqueLen s.utf8ByteSize := by
  rw [encodeString, length_encodeOpaque, length_utf8Bytes]

theorem length_encodeList {α : Type} (encode : α → Bytes) (items : List α) :
    (encodeList encode items).length = 4 + (items.map fun item => (encode item).length).sum := by
  rw [encodeList, List.length_append, length_be32, List.length_flatMap]

theorem utf8?_utf8Bytes (s : String) : utf8? (utf8Bytes s) = some s := by
  have hbytes : (utf8Bytes s).map (fun byte => UInt8.ofBitVec byte) = s.toUTF8.data.toList := by
    simp [utf8Bytes, Function.comp_def]
  rw [utf8?, hbytes]
  have hvalid : (⟨s.toUTF8.data.toList.toArray⟩ : ByteArray).IsValidUTF8 := s.isValidUTF8
  rw [String.fromUTF8?, dif_pos hvalid]
  rfl

end EmbedNfs
