import EmbedNfs.Attrs.Encode
import Mathlib.Data.List.Sort

/-!
# Attributes describe themselves

A mask names the attributes whose encodings follow it, so that a reader that knows the type of
every attribute recovers the values from the mask and the bytes. A value whose length does not fit
its 32-bit prefix is the one thing that cannot be read back.
-/

namespace EmbedNfs

/-! ## Bitmaps -/

theorem Bitmap4.isSet_eq (bitmap : Bitmap4) (bit : Nat) :
    bitmap.isSet bit = (bitmap.words[bit / 32]?.any fun word => word.getLsbD (bit % 32)) := by
  have hword (word : U32) :
      decide (word &&& (1#32 <<< (bit % 32)) ≠ 0) = word.getLsbD (bit % 32) := by
    rw [Bool.eq_iff_iff, decide_eq_true_iff]
    exact and_shiftLeft_ne_zero word (Nat.mod_lt bit (by omega))
  rw [Bitmap4.isSet]
  simp only [hword]

theorem Bitmap4.isSet_set (bitmap : Bitmap4) (bit other : Nat) :
    (bitmap.set bit).isSet other = (decide (other = bit) || bitmap.isSet other) := by
  rw [Bitmap4.isSet_eq, Bitmap4.isSet_eq]
  -- growing a bitmap adds words without a bit
  have hgrown (k : Nat) (i : Nat) : ((bitmap.words ++
      List.replicate (bit / 32 + 1 - bitmap.words.length) 0)[k]?.any fun w => w.getLsbD i) =
        (bitmap.words[k]?.any fun w => w.getLsbD i) := by
    rw [List.getElem?_append]
    split
    · rfl
    · rename_i hk
      rw [List.getElem?_eq_none (Nat.le_of_not_lt hk), List.getElem?_replicate]
      split <;> simp
  rw [Bitmap4.set]
  by_cases hword : other / 32 = bit / 32
  · have hlt : bit / 32 < (bitmap.words ++
        List.replicate (bit / 32 + 1 - bitmap.words.length) 0).length := by
      rw [List.length_append, List.length_replicate]
      omega
    have hbit : (1#32 <<< (bit % 32)).getLsbD (other % 32) = decide (other = bit) := by
      simp only [BitVec.getLsbD_shiftLeft, BitVec.getLsbD_one]
      by_cases heq : other = bit
      · subst heq
        simp [Nat.mod_lt]
      · by_cases hlt : other % 32 < bit % 32
        · simp [hlt, heq]
        · have : other % 32 - bit % 32 ≠ 0 := by omega
          simp [heq, this]
    rw [← hgrown, hword, List.getElem?_modify, List.getElem?_eq_getElem hlt]
    simp only [Option.map_eq_map, Option.map_some, Option.any_some, if_true, BitVec.getLsbD_or,
      hbit]
    rw [Bool.or_comm]
  · have hne : other ≠ bit := fun h => hword (by rw [h])
    rw [List.getElem?_modify]
    simp only [if_neg (Ne.symm hword), Option.map_eq_map, Option.map_id', hne, decide_false,
      Bool.false_or]
    exact hgrown _ _

theorem Bitmap4.isSet_nil (bit : Nat) : (⟨[]⟩ : Bitmap4).isSet bit = false := rfl

theorem Bitmap4.isSet_foldl {α : Type} (number : α → Nat) (items : List α) (bitmap : Bitmap4)
    (bit : Nat) :
    (items.foldl (fun bitmap a => bitmap.set (number a)) bitmap).isSet bit = true ↔
      bitmap.isSet bit = true ∨ ∃ a ∈ items, number a = bit := by
  induction items generalizing bitmap with
  | nil => simp
  | cons item items ih =>
    rw [List.foldl_cons, ih, Bitmap4.isSet_set, Bool.or_eq_true, decide_eq_true_iff]
    simp only [List.mem_cons, exists_eq_or_imp, eq_comm (a := bit)]
    tauto

theorem Bitmap4.mem_bits {bitmap : Bitmap4} {bit : Nat} :
    bit ∈ bitmap.bits ↔ bitmap.isSet bit = true := by
  rw [Bitmap4.bits, List.mem_filter, List.mem_range, and_iff_right_iff_imp]
  intro hset
  rw [Bitmap4.isSet_eq] at hset
  by_contra hlt
  rw [List.getElem?_eq_none (by omega)] at hset
  cases hset

theorem Bitmap4.bits_sorted (bitmap : Bitmap4) : bitmap.bits.Pairwise (· < ·) :=
  List.pairwise_lt_range.filter _

theorem Bitmap4.bits_eq {bitmap : Bitmap4} {numbers : List Nat}
    (hsorted : numbers.Pairwise (· < ·)) (hmem : ∀ bit, bit ∈ numbers ↔ bitmap.isSet bit = true) :
    bitmap.bits = numbers := by
  have hperm : bitmap.bits.Perm numbers := by
    refine (List.perm_ext_iff_of_nodup ?_ ?_).mpr fun bit => ?_
    · exact bitmap.bits_sorted.imp fun h => Nat.ne_of_lt h
    · exact hsorted.imp fun h => Nat.ne_of_lt h
    · rw [Bitmap4.mem_bits, hmem]
  exact hperm.eq_of_pairwise (fun a b _ _ hab hba => absurd hab (Nat.lt_asymm hba))
    bitmap.bits_sorted hsorted

/-- No zero word at the end: what a bitmap built by `set` looks like. -/
def Bitmap4.Tight (bitmap : Bitmap4) : Prop := bitmap.trimmed = bitmap.words

instance (bitmap : Bitmap4) : Decidable bitmap.Tight :=
  inferInstanceAs (Decidable (bitmap.trimmed = bitmap.words))

theorem Bitmap4.tight_iff {bitmap : Bitmap4} :
    bitmap.Tight ↔ ∀ h : bitmap.words ≠ [], bitmap.words.getLast h ≠ 0 := by
  rw [Bitmap4.Tight, Bitmap4.trimmed, List.rdropWhile_eq_self_iff]
  simp only [decide_eq_true_eq]

theorem Bitmap4.tight_nil : (⟨[]⟩ : Bitmap4).Tight := rfl

theorem or_shiftLeft_ne_zero (word : U32) {i : Nat} (hi : i < 32) :
    word ||| (1#32 <<< i) ≠ 0 := by
  intro hzero
  have hor : (word ||| (1#32 <<< i)).getLsbD i = true := by
    rw [BitVec.getLsbD_or]
    simp [hi]
  rw [hzero] at hor
  simp at hor

theorem Bitmap4.Tight.set {bitmap : Bitmap4} (h : bitmap.Tight) (bit : Nat) :
    (bitmap.set bit).Tight := by
  rw [Bitmap4.tight_iff] at h ⊢
  intro hne
  simp only [Bitmap4.set] at hne ⊢
  rw [List.getLast_eq_getElem, List.getElem_modify]
  simp only [List.length_modify, List.length_append, List.length_replicate]
  split
  · exact or_shiftLeft_ne_zero _ (Nat.mod_lt bit (by omega))
  · -- the bit is not in the last word, so the bitmap did not grow
    rename_i hlast
    have hlen : bit / 32 + 1 - bitmap.words.length = 0 := by omega
    have hwords : bitmap.words ≠ [] := by
      intro hnil
      rw [hnil, List.length_nil] at hlen
      omega
    have hold := h hwords
    rw [List.getLast_eq_getElem] at hold
    rw [List.getElem_append_left (by
      have := List.length_pos_iff.mpr hwords
      omega)]
    simpa only [hlen, Nat.add_zero] using hold

/-! ## Reading values back -/

/-- A reader takes exactly the given bytes off the front and gives the value. -/
def Reads {α : Type} (reader : Reader α) (a : α) (bytes : Bytes) : Prop :=
  ∀ rest, reader (bytes ++ rest) = some (a, rest)

theorem Reader.pure_apply {α : Type} (a : α) (src : Bytes) :
    (Pure.pure a : Reader α) src = some (a, src) := rfl

theorem Reader.set_apply (src src' : Bytes) : (set src : Reader PUnit) src' = some (⟨⟩, src) := rfl

theorem Reads.map {α β : Type} {reader : Reader α} {a : α} {bytes : Bytes} (f : α → β)
    (h : Reads reader a bytes) : Reads (f <$> reader) (f a) bytes := by
  intro rest
  simp only [Functor.map, StateT.map, h rest]
  rfl

theorem Reads.pure {α : Type} (a : α) : Reads (Pure.pure a : Reader α) a [] := fun _ => rfl

theorem Reads.bind {α β : Type} {reader : Reader α} {next : α → Reader β} {a : α} {b : β}
    {bytes bytes' : Bytes} (h : Reads reader a bytes) (h' : Reads (next a) b bytes') :
    Reads (reader >>= next) b (bytes ++ bytes') := by
  intro rest
  rw [List.append_assoc]
  simp only [Bind.bind, StateT.bind, h (bytes' ++ rest)]
  exact h' rest

theorem Reads.bindPure {α β : Type} {reader : Reader α} {a : α} {bytes : Bytes}
    (h : Reads reader a bytes) (f : α → β) :
    Reads (reader >>= fun a => Pure.pure (f a)) (f a) bytes := by
  intro rest
  simp only [Bind.bind, StateT.bind, h rest]
  rfl

theorem Reads.seq {α β : Type} {reader : Reader (α → β)} {reader' : Reader α} {f : α → β} {a : α}
    {bytes bytes' : Bytes} (h : Reads reader f bytes) (h' : Reads reader' a bytes') :
    Reads (reader <*> reader') (f a) (bytes ++ bytes') := by
  have hseq : reader <*> reader' = reader >>= fun f => f <$> reader' := rfl
  rw [hseq]
  exact h.bind (h'.map f)

theorem reads_be32 (x : U32) : Reads readU32 x (be32 x) := by
  intro rest
  simp only [be32, List.cons_append, List.nil_append, readU32]
  exact congrArg (fun y => some (y, rest)) (be32_join x)

theorem reads_be64 (x : U64) : Reads readU64 x (be64 x) := by
  have hx : x.extractLsb' 32 32 ++ x.extractLsb' 0 32 = x := by
    grind
  have hlow := (reads_be32 (x.extractLsb' 0 32)).bindPure (x.extractLsb' 32 32 ++ ·)
  rw [hx] at hlow
  exact (reads_be32 (x.extractLsb' 32 32)).bind hlow

theorem reads_encodeBool (b : Bool) : Reads readBool b (encodeBool b) := by
  intro rest
  have h := reads_be32 (if b then 1 else 0) rest
  simp only [readBool, bind, StateT.bind, encodeBool, h]
  cases b <;> rfl

theorem reads_encodeOpaque {data : Bytes} (hlen : data.length < 2 ^ 32) :
    Reads readOpaque data (encodeOpaque data) := by
  intro rest
  have hpadded : (data ++ (List.replicate (xdrPad data.length) 0 ++ rest)).length =
      data.length + xdrPad data.length + rest.length := by
    simp only [List.length_append, List.length_replicate]
    omega
  have hdrop : (data ++ (List.replicate (xdrPad data.length) 0 ++ rest)).drop
      (data.length + xdrPad data.length) = rest := by
    rw [← List.append_assoc, List.drop_left']
    rw [List.length_append, List.length_replicate]
  have hlen' : (BitVec.ofNat 32 data.length).toNat = data.length := by
    rw [BitVec.toNat_ofNat, Nat.mod_eq_of_lt hlen]
  have h := reads_be32 (BitVec.ofNat 32 data.length)
    (data ++ (List.replicate (xdrPad data.length) 0 ++ rest))
  have hfits : ¬ (data ++ (List.replicate (xdrPad data.length) 0 ++ rest)).length <
      data.length + xdrPad data.length := by omega
  simp only [readOpaque, encodeOpaque, List.append_assoc, bind, StateT.bind, h, get, getThe,
    MonadStateOf.get, StateT.get, Option.pure_def, Option.bind_some, hlen', if_neg hfits,
    Reader.set_apply, Reader.pure_apply, hdrop, List.take_left]

theorem reads_encodeString {s : String} (hlen : s.utf8ByteSize < 2 ^ 32) :
    Reads readString s (encodeString s) := by
  intro rest
  have h := reads_encodeOpaque ((length_utf8Bytes s).symm ▸ hlen) rest
  have hutf8 : String.fromUTF8?
      (ByteArray.mk ((utf8Bytes s).map UInt8.ofBitVec).toArray) = some s := utf8?_utf8Bytes s
  simp only [readString, encodeString, bind, StateT.bind, h, Option.bind_some, hutf8]
  rfl

theorem reads_time (time : Timestamp) :
    Reads readTime time (be64 time.seconds ++ be32 time.nanos) := by
  have hnanos := (reads_be32 time.nanos).bindPure fun nanos => Timestamp.mk time.seconds nanos
  exact (reads_be64 time.seconds).bind hnanos

theorem reads_words (words : List U32) :
    Reads (readTimes readU32 words.length) words (words.flatMap be32) := by
  induction words with
  | nil => exact Reads.pure []
  | cons word words ih =>
    exact (reads_be32 word).bind (ih.bindPure (word :: ·))

theorem length_flatMap_be32 (words : List U32) :
    (words.flatMap be32).length = words.length * 4 := by
  induction words with
  | nil => rfl
  | cons word words ih =>
    rw [List.flatMap_cons, List.length_append, ih, length_be32, List.length_cons]
    omega

theorem reads_bitmap {bitmap : Bitmap4} (htight : bitmap.Tight)
    (hlen : bitmap.words.length < 2 ^ 32) : Reads readBitmap bitmap bitmap.encode := by
  intro rest
  have hcount : (BitVec.ofNat 32 bitmap.words.length).toNat = bitmap.words.length := by
    rw [BitVec.toNat_ofNat, Nat.mod_eq_of_lt hlen]
  have hbytes : ¬ (bitmap.words.flatMap be32 ++ rest).length < bitmap.words.length * 4 := by
    rw [List.length_append, length_flatMap_be32]
    omega
  have hcountRead := reads_be32 (BitVec.ofNat 32 bitmap.words.length)
    (bitmap.words.flatMap be32 ++ rest)
  have hwords := reads_words bitmap.words rest
  rw [Bitmap4.encode, htight, encodeList]
  simp only [readBitmap, List.append_assoc, bind, StateT.bind, hcountRead, get, getThe,
    MonadStateOf.get, StateT.get, Option.pure_def, Option.bind_some, hcount, if_neg hbytes, hwords,
    Reader.pure_apply]

/-- What makes a value readable: its length fits a prefix of 32 bits. -/
def AttrValue.Fits : AttrValue → Prop
  | .bitmap mask => mask.Tight ∧ mask.words.length < 2 ^ 32
  | .opaqueData data => data.length < 2 ^ 32
  | .string value => value.utf8ByteSize < 2 ^ 32
  | _ => True

theorem AttrValue.reads_encode {value : AttrValue} (h : value.Fits) :
    Reads value.kind.read value value.encode := by
  cases value with
  | bitmap mask => exact (reads_bitmap h.1 h.2).map _
  | u32 value => exact (reads_be32 value).map _
  | u64 value => exact (reads_be64 value).map _
  | bool value => exact (reads_encodeBool value).map _
  | fsid major minor => exact ((reads_be64 major).map AttrValue.fsid).seq (reads_be64 minor)
  | opaqueData data => exact (reads_encodeOpaque h).map _
  | string value => exact (reads_encodeString h).map _
  | specdata a b => exact ((reads_be32 a).map AttrValue.specdata).seq (reads_be32 b)
  | time value => exact (reads_time value).map _

/-! ## The attributes -/

theorem Attribute.encoded_sorted :
    (Attribute.encoded.map Attribute.number).Pairwise (· < ·) := by decide

theorem Attribute.ofNumber_number {a : Attribute} (h : a ∈ Attribute.encoded) :
    Attribute.ofNumber a.number = some a := by
  revert a
  decide

theorem Attribute.value_kind {attr : EncodedFileAttr} {fh : Bytes} {ctx : AttrEncodingContext}
    {a : Attribute} {value : AttrValue} (h : a.value attr fh ctx = some value) :
    value.kind = a.kind := by
  cases a <;> simp only [Attribute.value, Option.map_eq_some_iff, Option.ite_none_right_eq_some,
    Option.some_inj, reduceCtorEq] at h
  all_goals first | (subst h; rfl) | (obtain ⟨_, _, rfl⟩ := h; rfl)

theorem supportedAttrsBitmap_fits (capabilities : FsCapabilities) (minorversion : U32) :
    (AttrValue.bitmap (supportedAttrsBitmap capabilities minorversion)).Fits := by
  simp only [supportedAttrsBitmap]
  by_cases hx : capabilities.xattrs = true <;> by_cases hm : 2 ≤ minorversion
  all_goals
    simp only [hx, hm, and_self, and_false, if_true, if_false, and_true, Bool.false_eq_true]
    exact ⟨by decide +kernel, by decide +kernel⟩

/-- The strings and the filehandle that an encoding holds have lengths that fit their prefix. -/
structure Prefixed (attr : EncodedFileAttr) (fh : Bytes) : Prop where
  owner : attr.owner.utf8ByteSize < 2 ^ 32
  ownerGroup : attr.ownerGroup.utf8ByteSize < 2 ^ 32
  filehandle : fh.length < 2 ^ 32

theorem Attribute.value_fits {attr : EncodedFileAttr} {fh : Bytes} {ctx : AttrEncodingContext}
    (hattr : Prefixed attr fh) {a : Attribute} {value : AttrValue}
    (h : a.value attr fh ctx = some value) : value.Fits := by
  cases a with
  | supportedAttrs =>
    cases h
    exact supportedAttrsBitmap_fits _ _
  | suppattrExclcreat =>
    cases h
    exact ⟨by decide +kernel, by decide +kernel⟩
  | owner =>
    cases h
    exact hattr.owner
  | ownerGroup =>
    cases h
    exact hattr.ownerGroup
  | filehandle =>
    cases h
    exact hattr.filehandle
  | _ =>
    simp only [Attribute.value, Option.map_eq_some_iff, Option.ite_none_right_eq_some,
      Option.some_inj, reduceCtorEq] at h
    first
      | done
      | (subst h; trivial)
      | (obtain ⟨_, _, rfl⟩ := h; trivial)

/-! ## The encoder -/

section

variable (attr : EncodedFileAttr) (request : Bitmap4) (fh : Bytes) (ctx : AttrEncodingContext)

/-- The attributes that are asked for and have a value, with their values. -/
def takenAttrs (attributes : List Attribute) : List (Attribute × AttrValue) :=
  attributes.filterMap fun a =>
    if request.isSet a.number then (a.value attr fh ctx).map fun value => (a, value) else none

variable {attr request fh ctx}

theorem mem_takenAttrs {attributes : List Attribute} {p : Attribute × AttrValue} :
    p ∈ takenAttrs attr request fh ctx attributes ↔
      p.1 ∈ attributes ∧ request.isSet p.1.number = true ∧ p.1.value attr fh ctx = some p.2 := by
  simp only [takenAttrs, List.mem_filterMap, Option.ite_none_right_eq_some,
    Option.map_eq_some_iff]
  constructor
  · rintro ⟨a, ha, hset, value, hvalue, rfl⟩
    exact ⟨ha, hset, hvalue⟩
  · rintro ⟨ha, hset, hvalue⟩
    exact ⟨p.1, ha, hset, p.2, hvalue, rfl⟩

theorem foldl_putAttr (attributes : List Attribute) (fattr : Fattr4) :
    attributes.foldl (putAttr attr request fh ctx) fattr =
      ⟨(takenAttrs attr request fh ctx attributes).foldl
          (fun mask p => mask.set p.1.number) fattr.attrmask,
        fattr.attrVals ++ (takenAttrs attr request fh ctx attributes).flatMap (·.2.encode)⟩ := by
  induction attributes generalizing fattr with
  | nil =>
    simp [takenAttrs]
  | cons a attributes ih =>
    rw [List.foldl_cons, ih]
    simp only [takenAttrs, List.filterMap_cons, putAttr]
    by_cases hset : request.isSet a.number = true
    · cases hvalue : a.value attr fh ctx with
      | none => simp [hset]
      | some value => simp [hset, List.append_assoc]
    · simp [hset]

theorem encodeFattr4_attrVals :
    (encodeFattr4 attr request fh ctx).attrVals =
      (takenAttrs attr request fh ctx Attribute.encoded).flatMap (·.2.encode) := by
  rw [encodeFattr4, foldl_putAttr, List.nil_append]

theorem isSet_encodeFattr4 {bit : Nat} :
    (encodeFattr4 attr request fh ctx).attrmask.isSet bit = true ↔
      ∃ a ∈ Attribute.encoded, a.number = bit ∧ request.isSet bit = true ∧
        (a.value attr fh ctx).isSome = true := by
  rw [encodeFattr4, foldl_putAttr]
  rw [Bitmap4.isSet_foldl (fun p : Attribute × AttrValue => p.1.number), Bitmap4.isSet_nil]
  simp only [Bool.false_eq_true, false_or, Prod.exists, mem_takenAttrs, Option.isSome_iff_exists]
  constructor
  · rintro ⟨a, value, ⟨ha, hset, hvalue⟩, rfl⟩
    exact ⟨a, ha, rfl, hset, value, hvalue⟩
  · rintro ⟨a, ha, rfl, hset, value, hvalue⟩
    exact ⟨a, value, ⟨ha, hset, hvalue⟩, rfl⟩

theorem encodeFattr4_tight : (encodeFattr4 attr request fh ctx).attrmask.Tight := by
  rw [encodeFattr4, foldl_putAttr]
  generalize takenAttrs attr request fh ctx Attribute.encoded = taken
  have hset (mask : Bitmap4) (h : mask.Tight) :
      (taken.foldl (fun mask p => mask.set p.1.number) mask).Tight := by
    induction taken generalizing mask with
    | nil => exact h
    | cons p taken ih => exact ih _ (h.set _)
  exact hset _ Bitmap4.tight_nil

theorem encodeFattr4_bits :
    (encodeFattr4 attr request fh ctx).attrmask.bits =
      (takenAttrs attr request fh ctx Attribute.encoded).map (·.1.number) := by
  refine Bitmap4.bits_eq ?_ fun bit => ?_
  · have hsub : ((takenAttrs attr request fh ctx Attribute.encoded).map (·.1.number)).Sublist
        (Attribute.encoded.map Attribute.number) := by
      rw [takenAttrs, List.map_filterMap]
      generalize Attribute.encoded = attributes
      induction attributes with
      | nil => exact .slnil
      | cons a attributes ih =>
        rw [List.filterMap_cons, List.map_cons]
        by_cases hset : request.isSet a.number = true
        · cases hvalue : a.value attr fh ctx with
          | none => simpa [hset] using ih.cons _
          | some value => simpa [hset] using ih
        · simpa [hset] using ih.cons _
    exact Attribute.encoded_sorted.sublist hsub
  · simp only [isSet_encodeFattr4, List.mem_map, Prod.exists, mem_takenAttrs,
      Option.isSome_iff_exists]
    constructor
    · rintro ⟨a, value, ⟨ha, hset, hvalue⟩, rfl⟩
      exact ⟨a, ha, rfl, hset, value, hvalue⟩
    · rintro ⟨a, ha, rfl, hset, value, hvalue⟩
      exact ⟨a, value, ⟨ha, hset, hvalue⟩, rfl⟩

theorem reads_attrs (taken : List (Attribute × AttrValue))
    (h : ∀ p ∈ taken, p.1 ∈ Attribute.encoded ∧ p.2.kind = p.1.kind ∧ p.2.Fits) :
    Reads (readAttrs (taken.map (·.1.number))) (taken.map fun p => (p.1.number, p.2))
      (taken.flatMap (·.2.encode)) := by
  induction taken with
  | nil => exact Reads.pure []
  | cons p taken ih =>
    obtain ⟨hmem, hkind, hfits⟩ := h p List.mem_cons_self
    have hrest := (ih fun q hq => h q (List.mem_cons_of_mem p hq)).bindPure
      ((p.1.number, p.2) :: ·)
    have hfirst := AttrValue.reads_encode hfits
    rw [hkind] at hfirst
    simp only [List.map_cons, readAttrs, Attribute.ofNumber_number hmem, List.flatMap_cons]
    exact hfirst.bind hrest

end

/-- What a self-describing encoding is: the mask has requested bits only, the bytes are the
encodings of the attributes in the mask in ascending order, and the reader that is driven by the
mask recovers every value and leaves no byte. -/
def SelfDescribing (attr : EncodedFileAttr) (request : Bitmap4) (fh : Bytes)
    (ctx : AttrEncodingContext) (fattr : Fattr4) : Prop :=
  (∀ bit, fattr.attrmask.isSet bit = true → request.isSet bit = true) ∧
  ∃ taken : List (Attribute × AttrValue),
    (∀ p ∈ taken, p.1.value attr fh ctx = some p.2) ∧
    taken.map (·.1.number) = fattr.attrmask.bits ∧
    fattr.attrVals = taken.flatMap (·.2.encode) ∧
    decodeFattr fattr = some (taken.map fun p => (p.1.number, p.2), [])

/-- The attributes that `encode_fattr4` writes describe themselves, if the owner, the group and the
filehandle are shorter than 4 GiB. -/
theorem encodeFattr4_selfDescribing (attr : EncodedFileAttr) (request : Bitmap4) (fh : Bytes)
    (ctx : AttrEncodingContext) (hattr : Prefixed attr fh) :
    SelfDescribing attr request fh ctx (encodeFattr4 attr request fh ctx) := by
  refine ⟨fun bit hset => ?_, takenAttrs attr request fh ctx Attribute.encoded,
    fun p hp => (mem_takenAttrs.mp hp).2.2, encodeFattr4_bits.symm, encodeFattr4_attrVals, ?_⟩
  · obtain ⟨a, -, -, hrequest, -⟩ := isSet_encodeFattr4.mp hset
    exact hrequest
  · have hreads := reads_attrs (takenAttrs attr request fh ctx Attribute.encoded) fun p hp => by
      obtain ⟨hmem, -, hvalue⟩ := mem_takenAttrs.mp hp
      exact ⟨hmem, Attribute.value_kind hvalue, Attribute.value_fits hattr hvalue⟩
    have hall := hreads []
    rw [List.append_nil] at hall
    rw [decodeFattr, encodeFattr4_bits, encodeFattr4_attrVals, hall]

/-- A file for the examples below. -/
def plainFile : EncodedFileAttr where
  fileType := .regular
  size := 5
  changeId := 7
  fsidMajor := 0
  fsidMinor := 0
  fileid := 2
  used := 5
  mode := 0o100644
  nlink := 1
  owner := "0"
  ownerGroup := "0"
  atime := ⟨0, 0⟩
  mtime := ⟨0, 0⟩
  ctime := ⟨0, 0⟩
  crtime := ⟨0, 0⟩
  rdevMajor := 0
  rdevMinor := 0
  archive := false
  hidden := false
  system := false
  hasNamedAttrs := false

def plainContext : AttrEncodingContext where
  limits := ⟨255, 1048576, 1048576, 1 <<< 40⟩
  stats := none
  capabilities := ⟨true, true, true, true, true⟩
  minorversion := 2

theorem encodeFattr4_selfDescribing_plainFile :
    SelfDescribing plainFile ⟨[24, 18]⟩ [1, 0] plainContext
      (encodeFattr4 plainFile ⟨[24, 18]⟩ [1, 0] plainContext) :=
  encodeFattr4_selfDescribing plainFile ⟨[24, 18]⟩ [1, 0] plainContext
    ⟨by decide +kernel, by decide +kernel, by decide +kernel⟩

theorem takenAttrs_owner (text : String) :
    takenAttrs { plainFile with owner := text } ⟨[0, 16]⟩ [] plainContext Attribute.encoded =
      [(.owner, .string text)] := rfl

theorem encodeOpaque_of_length {data : Bytes} (h : data.length = 2 ^ 32) :
    encodeOpaque data = encodeOpaque [] ++ data := by
  have hpad : xdrPad (2 ^ 32) = 0 := by decide
  have hlen : BitVec.ofNat 32 (2 ^ 32) = 0 := by decide
  rw [encodeOpaque, h, hpad, hlen]
  exact List.append_nil _

theorem exists_text (n : Nat) : ∃ text : String, text.utf8ByteSize = n := by
  induction n with
  | zero => exact ⟨"", rfl⟩
  | succ n ih =>
    obtain ⟨text, rfl⟩ := ih
    exact ⟨text.push '0', String.utf8ByteSize_push⟩

/-- An owner text of 4 GiB, which an id mapper may return: the prefix of its length is 0. -/
theorem encodeFattr4_long_owner :
    ∃ text : String, text.utf8ByteSize = 2 ^ 32 ∧
      ¬ SelfDescribing { plainFile with owner := text } ⟨[0, 16]⟩ [] plainContext
        (encodeFattr4 { plainFile with owner := text } ⟨[0, 16]⟩ [] plainContext) := by
  obtain ⟨text, hsize⟩ := exists_text (2 ^ 32)
  refine ⟨text, hsize, ?_⟩
  have hlen : (utf8Bytes text).length = 2 ^ 32 := (length_utf8Bytes text).trans hsize
  rintro ⟨-, taken, -, -, -, hdecode⟩
  rw [decodeFattr, encodeFattr4_bits, encodeFattr4_attrVals, takenAttrs_owner] at hdecode
  -- the reader finds an empty text and leaves all of the real one
  have hread := reads_attrs [(.owner, .string "")] (fun p hp => by
    rw [List.mem_singleton.mp hp]
    exact ⟨by decide, rfl, Nat.two_pow_pos 32⟩) (utf8Bytes text)
  have hbytes : [(Attribute.owner, AttrValue.string text)].flatMap (·.2.encode) =
      [(Attribute.owner, AttrValue.string "")].flatMap (·.2.encode) ++ utf8Bytes text := by
    simp only [List.flatMap_cons, List.flatMap_nil, List.append_nil, AttrValue.encode]
    exact encodeOpaque_of_length hlen
  rw [hbytes] at hdecode
  have hrest := congrArg (Option.map Prod.snd) (hread.symm.trans hdecode)
  rw [Option.map_some, Option.map_some, Option.some_inj] at hrest
  have hnil : utf8Bytes text = [] := hrest
  rw [hnil] at hlen
  cases hlen

end EmbedNfs
