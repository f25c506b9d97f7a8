import EmbedNfs.Proto.Codec

/-!
# XDR round trips

For every type that the protocol crate both writes and reads, reading takes exactly the bytes that
were written off the front of any input and gives the value back. A value is readable if its lengths
are within the limits of its reader; of a bitmap, zero words at the end are not written.
-/

namespace EmbedNfs

/-! ## Decoding what was encoded -/

/-- The decoder takes exactly the given bytes off the front and gives the value. -/
def Decodes {α : Type} (decode : Decoder α) (a : α) (bytes : Bytes) : Prop :=
  ∀ rest, decode (bytes ++ rest) = .ok (a, rest)

namespace Decodes

variable {α β : Type}

theorem pure (a : α) : Decodes (Pure.pure a) a [] := fun _ => rfl

theorem bind {decode : Decoder α} {next : α → Decoder β} {a : α} {b : β} {bytes bytes' : Bytes}
    (h : Decodes decode a bytes) (h' : Decodes (next a) b bytes') :
    Decodes (decode >>= next) b (bytes ++ bytes') := by
  intro rest
  rw [List.append_assoc, decoder_bind_eq (h (bytes' ++ rest))]
  exact h' rest

theorem map {decode : Decoder α} {a : α} {bytes : Bytes} (f : α → β) (h : Decodes decode a bytes) :
    Decodes (f <$> decode) (f a) bytes := by
  intro rest
  simp only [Functor.map, StateT.map, h rest]
  rfl

theorem seq {decode : Decoder (α → β)} {decode' : Decoder α} {f : α → β} {a : α}
    {bytes bytes' : Bytes} (h : Decodes decode f bytes) (h' : Decodes decode' a bytes') :
    Decodes (decode <*> decode') (f a) (bytes ++ bytes') := by
  have hseq : decode <*> decode' = decode >>= fun f => f <$> decode' := rfl
  rw [hseq]
  exact h.bind (h'.map f)

theorem bindPure {decode : Decoder α} {a : α} {bytes : Bytes} (h : Decodes decode a bytes)
    (f : α → β) : Decodes (decode >>= fun a => Pure.pure (f a)) (f a) bytes := by
  intro rest
  rw [decoder_bind_eq (h rest)]
  rfl

end Decodes

theorem decodes_u32 (x : U32) : Decodes decodeU32 x (be32 x) := decodeU32_be32 x

theorem decodes_u64 (x : U64) : Decodes decodeU64 x (be64 x) := by
  have hx : x.extractLsb' 32 32 ++ x.extractLsb' 0 32 = x := by
    grind
  have hlow := (decodes_u32 (x.extractLsb' 0 32)).bindPure (x.extractLsb' 32 32 ++ ·)
  rw [hx] at hlow
  exact (decodes_u32 (x.extractLsb' 32 32)).bind hlow

theorem decodes_bool (b : Bool) : Decodes decodeBool b (encodeBool b) := by
  cases b with
  | false => exact (decodes_u32 0).bind (Decodes.pure false)
  | true => exact (decodes_u32 1).bind (Decodes.pure true)

theorem decodes_fixedOpaque (data : Bytes) :
    Decodes (decodeFixedOpaque data.length) data (encodeFixedOpaque data) := by
  intro rest
  have hlen : (encodeFixedOpaque data).length = data.length + xdrPad data.length := by
    rw [encodeFixedOpaque, List.length_append, List.length_replicate]
  unfold decodeFixedOpaque
  rw [if_neg (by rw [List.length_append]; omega), ← hlen, List.drop_left, encodeFixedOpaque,
    List.append_assoc, List.take_left]

theorem decodeOpaque_eq : decodeOpaque = decodeU32 >>= fun len => decodeFixedOpaque len.toNat := by
  unfold decodeOpaque
  congr 1
  funext len src
  simp only [bind, StateT.bind, get, getThe, MonadStateOf.get, StateT.get, pure, Except.pure,
    Except.bind, decodeFixedOpaque]
  split
  · rfl
  · rfl

theorem toNat_length {α : Type} {items : List α} (h : items.length < 2 ^ 32) :
    (BitVec.ofNat 32 items.length).toNat = items.length := by
  rw [BitVec.toNat_ofNat, Nat.mod_eq_of_lt h]

theorem decodes_opaqueData {data : Bytes} (h : data.length < 2 ^ 32) :
    Decodes decodeOpaque data (encodeOpaque data) := by
  rw [decodeOpaque_eq, encodeOpaque, List.append_assoc]
  refine (decodes_u32 _).bind ?_
  rw [toNat_length h]
  exact decodes_fixedOpaque data

theorem decodes_opaqueMax {max : Nat} {data : Bytes} (hmax : max < 2 ^ 32)
    (h : data.length ≤ max) : Decodes (decodeOpaqueMax max) data (encodeOpaque data) := by
  intro rest
  rw [decodeOpaqueMax, decoder_bind_eq (decodes_opaqueData (h.trans_lt hmax) rest)]
  simp only [if_neg (Nat.not_lt.mpr h)]
  rfl

theorem decodes_string {s : String} (h : s.utf8ByteSize < 2 ^ 32) :
    Decodes decodeString s (encodeString s) := by
  intro rest
  have hbytes := decodes_opaqueData ((length_utf8Bytes s).symm ▸ h) rest
  rw [decodeString, encodeString, decoder_bind_eq hbytes]
  simp only [utf8?_utf8Bytes]
  rfl

theorem decodes_stringMax {max : Nat} {s : String} (hmax : max < 2 ^ 32)
    (h : s.utf8ByteSize ≤ max) : Decodes (decodeStringMax max) s (encodeString s) := by
  intro rest
  have hbytes := decodes_opaqueMax hmax ((length_utf8Bytes s).symm ▸ h) rest
  rw [decodeStringMax, encodeString, decoder_bind_eq hbytes]
  simp only [utf8?_utf8Bytes]
  rfl

/-! ## Lists, options and enumerations -/

section

variable {α : Type} {decode : Decoder α} {encode : α → Bytes}

theorem decodes_times {items : List α} (h : ∀ a ∈ items, Decodes decode a (encode a)) :
    Decodes (decodeTimes decode items.length) items (items.flatMap encode) := by
  induction items with
  | nil => exact Decodes.pure []
  | cons item items ih =>
    rw [List.forall_mem_cons] at h
    exact h.1.bind ((ih h.2).bindPure (item :: ·))

theorem decodes_list {items : List α} (hlen : items.length < 2 ^ 32)
    (h : ∀ a ∈ items, Decodes decode a (encode a)) :
    Decodes (decodeList decode) items (encodeList encode items) := by
  refine (decodes_u32 _).bind ?_
  rw [toNat_length hlen]
  exact decodes_times h

theorem decodes_listMax {max : Nat} {items : List α} (hmax : max < 2 ^ 32)
    (hlen : items.length ≤ max) (h : ∀ a ∈ items, Decodes decode a (encode a)) :
    Decodes (decodeListMax decode max) items (encodeList encode items) := by
  refine (decodes_u32 _).bind ?_
  rw [toNat_length (by omega), if_neg (by omega)]
  exact decodes_times h

theorem decodes_option {v : Option α} (h : ∀ a, v = some a → Decodes decode a (encode a)) :
    Decodes (decodeOption decode) v (encodeOption encode v) := by
  cases v with
  | none => exact (decodes_u32 0).bind (Decodes.pure none)
  | some a => exact (decodes_u32 1).bind ((h a rfl).bindPure some)

theorem decodes_enum {arms : List (U32 × α)} {a : α} {code : U32}
    (h : arms.lookup code = some a) : Decodes (decodeEnum arms) a (be32 code) := by
  intro rest
  rw [decodeEnum, decoder_bind_eq (decodes_u32 code rest)]
  simp only [h]
  rfl

end

/-! ## The types of the protocol -/

theorem decodes_stat (status : NfsStat4) : Decodes NfsStat4.decode status (be32 status.code) := by
  refine decodes_enum ?_
  cases status <;> rfl

theorem decodes_ftype (ftype : NfsFtype4) : Decodes NfsFtype4.decode ftype (be32 ftype.code) := by
  refine decodes_enum ?_
  cases ftype <;> rfl

theorem decodes_lockType (locktype : NfsLockType4) :
    Decodes NfsLockType4.decode locktype (be32 locktype.code) := by
  refine decodes_enum ?_
  cases locktype <;> rfl

theorem decodes_time (time : Timestamp) : Decodes Timestamp.decode time time.encode :=
  ((decodes_u64 time.seconds).map Timestamp.mk).seq (decodes_u32 time.nanos)

theorem ofBytes_bytes (other : StateidOther) : ofBytes 96 other.bytes = other := by
  refine BitVec.eq_of_toNat_eq ?_
  simp only [ofBytes, StateidOther.bytes, List.foldl_cons, List.foldl_nil, BitVec.toNat_ofNat,
    BitVec.extractLsb'_toNat, Nat.shiftRight_eq_div_pow]
  -- One more byte at every step.
  have hstep : ∀ k m, m = k + 8 → 256 * (other.toNat / 2 ^ m) + other.toNat / 2 ^ k % 2 ^ 8 =
      other.toNat / 2 ^ k := by
    rintro k m rfl
    rw [pow_add, ← Nat.div_div_eq_div_mul]
    omega
  have hlt := other.isLt
  have htop : 256 * 0 + other.toNat / 2 ^ 88 % 2 ^ 8 = other.toNat / 2 ^ 88 := by omega
  rw [htop, hstep 80 88 rfl, hstep 72 80 rfl, hstep 64 72 rfl, hstep 56 64 rfl, hstep 48 56 rfl,
    hstep 40 48 rfl, hstep 32 40 rfl, hstep 24 32 rfl, hstep 16 24 rfl, hstep 8 16 rfl,
    hstep 0 8 rfl, pow_zero, Nat.div_one, Nat.mod_eq_of_lt hlt]

theorem decodes_stateid (stateid : Stateid4) :
    Decodes Stateid4.decode stateid stateid.encode := by
  have hlen : stateid.other.bytes.length = 12 := rfl
  have hother := decodes_fixedOpaque stateid.other.bytes
  rw [encodeFixedOpaque, hlen, show xdrPad 12 = 0 by decide, List.replicate_zero,
    List.append_nil] at hother
  have hother' := hother.map (ofBytes 96)
  rw [ofBytes_bytes] at hother'
  exact ((decodes_u32 stateid.seqid).map Stateid4.mk).seq hother'

/-- The encoder leaves zero words at the end out, which changes no bit. -/
theorem Bitmap4.isSet_trimmed (bitmap : Bitmap4) (bit : Nat) :
    isSet ⟨bitmap.trimmed⟩ bit = bitmap.isSet bit := by
  have hwords : bitmap.words = bitmap.trimmed ++ bitmap.words.rtakeWhile (· = 0) :=
    List.rdropWhile_append_rtakeWhile.symm
  unfold isSet
  rw [hwords, List.getElem?_append]
  split
  · rfl
  · rename_i hle
    rw [List.getElem?_eq_none (Nat.le_of_not_lt hle), Option.any_none, eq_comm, Option.any_eq_false]
    intro word hword
    have hzero := List.mem_rtakeWhile_imp (List.mem_of_getElem? hword)
    simp [of_decide_eq_true hzero]

theorem decodes_bitmap {bitmap : Bitmap4} (h : bitmap.trimmed.length < 2 ^ 32) :
    Decodes Bitmap4.decode ⟨bitmap.trimmed⟩ bitmap.encode := by
  intro rest
  have hlong : ¬ (bitmap.trimmed.flatMap be32 ++ rest).length < bitmap.trimmed.length * 4 := by
    have hsum : (bitmap.trimmed.flatMap be32).length = bitmap.trimmed.length * 4 := by
      rw [List.length_flatMap]
      simp [Nat.mul_comm]
    rw [List.length_append, hsum]
    omega
  have hwords : Decodes (decodeTimes decodeU32 bitmap.trimmed.length) bitmap.trimmed
      (bitmap.trimmed.flatMap be32) := decodes_times fun word _ => decodes_u32 word
  rw [Bitmap4.decode, Bitmap4.encode, encodeList, List.append_assoc,
    decoder_bind_eq (decodes_u32 _ _)]
  simp only [toNat_length h]
  simp only [bind, StateT.bind, get, getThe, MonadStateOf.get, StateT.get, pure, Except.pure,
    Except.bind, if_neg hlong, hwords rest]
  rfl

theorem decodes_fsid (fsid : Fsid4) : Decodes Fsid4.decode fsid fsid.encode :=
  ((decodes_u64 fsid.major).map Fsid4.mk).seq (decodes_u64 fsid.minor)

theorem decodes_fattr {fattr : Fattr4} (hmask : fattr.attrmask.trimmed.length < 2 ^ 32)
    (hvals : fattr.attrVals.length < 2 ^ 32) :
    Decodes Fattr4.decode ⟨⟨fattr.attrmask.trimmed⟩, fattr.attrVals⟩ fattr.encode :=
  ((decodes_bitmap hmask).map Fattr4.mk).seq (decodes_opaqueData hvals)

theorem decodes_channelAttrs {attrs : ChannelAttrs4} (h : attrs.rdmaIrd.length < 2 ^ 32) :
    Decodes ChannelAttrs4.decode attrs attrs.encode := by
  unfold ChannelAttrs4.decode ChannelAttrs4.encode
  refine Decodes.seq (.seq (.seq (.seq (.seq (.seq ((decodes_u32 _).map ChannelAttrs4.mk)
    (decodes_u32 _)) (decodes_u32 _)) (decodes_u32 _)) (decodes_u32 _)) (decodes_u32 _)) ?_
  exact decodes_list h fun word _ => decodes_u32 word

theorem decodes_implId {id : NfsImplId4} (hdomain : id.domain.utf8ByteSize < 2 ^ 32)
    (hname : id.name.utf8ByteSize < 2 ^ 32) : Decodes NfsImplId4.decode id id.encode := by
  exact (((decodes_string hdomain).map NfsImplId4.mk).seq (decodes_string hname)).seq
    (decodes_time id.date)

/-! ## RPC -/

theorem decodes_msgType (msgType : MsgType) :
    Decodes MsgType.decode msgType (be32 msgType.code) := by
  cases msgType with
  | call => exact (decodes_u32 0).bind (Decodes.pure _)
  | reply => exact (decodes_u32 1).bind (Decodes.pure _)

theorem decodes_replyStat (stat : ReplyStat) : Decodes ReplyStat.decode stat (be32 stat.code) := by
  refine decodes_enum ?_
  cases stat <;> rfl

theorem decodes_acceptStat (stat : AcceptStat) :
    Decodes AcceptStat.decode stat (be32 stat.code) := by
  refine decodes_enum ?_
  cases stat <;> rfl

theorem decodes_authFlavor (flavor : AuthFlavor) :
    Decodes AuthFlavor.decode flavor (be32 flavor.code) := by
  refine decodes_enum ?_
  cases flavor <;> rfl

theorem decodes_auth {auth : OpaqueAuth} (h : auth.body.length ≤ 400) :
    Decodes OpaqueAuth.decode auth auth.encode :=
  (decodes_u32 auth.flavor).bind
    ((decodes_opaqueMax (by omega) h).bindPure (OpaqueAuth.mk auth.flavor ·))

theorem decodes_authSys {params : AuthSysParams} (hname : params.machinename.utf8ByteSize ≤ 255)
    (hgids : params.gids.length ≤ 16) : Decodes AuthSysParams.decode params params.encode := by
  simp only [AuthSysParams.encode, List.append_assoc]
  refine (decodes_u32 _).bind ((decodes_stringMax (by omega) hname).bind ?_)
  refine (decodes_u32 _).bind ((decodes_u32 _).bind ?_)
  exact (decodes_listMax (by omega) hgids fun gid _ => decodes_u32 gid).bindPure _

theorem decodes_call {xid prog vers procNum : U32} {cred verf : OpaqueAuth}
    (hcred : cred.body.length ≤ 400) (hverf : verf.body.length ≤ 400) :
    Decodes RpcCallHeader.decode ⟨xid, rpcVersion, prog, vers, procNum, cred, verf⟩
      (encodeRpcCall xid prog vers procNum cred verf) := by
  simp only [encodeRpcCall, List.append_assoc]
  refine (decodes_u32 xid).bind ((decodes_u32 MsgType.call.code).bind ?_)
  refine (decodes_u32 _).bind ((decodes_u32 _).bind ((decodes_u32 _).bind ?_))
  refine (decodes_u32 _).bind ((decodes_auth hcred).bind ?_)
  exact (decodes_auth hverf).bindPure _

theorem decodes_reply (xid : U32) (stat : AcceptStat) :
    Decodes RpcAcceptedReply.decode ⟨xid, OpaqueAuth.null, stat⟩ (rpcReply xid stat) := by
  simp only [rpcReply, List.append_assoc]
  refine (decodes_u32 xid).bind ((decodes_msgType .reply).bind ?_)
  refine (decodes_replyStat .accepted).bind ?_
  refine (decodes_auth (show OpaqueAuth.null.body.length ≤ 400 by decide)).bind ?_
  exact (decodes_acceptStat stat).bindPure _

/-- **XDR round trips.** Every value within the limits of its type is read back from what was
written, whatever follows, and exactly what follows is left. -/
theorem xdr_round_trip :
    (∀ x, Decodes decodeU32 x (be32 x)) ∧ (∀ x, Decodes decodeU64 x (be64 x)) ∧
    (∀ b, Decodes decodeBool b (encodeBool b)) ∧
    (∀ fh : Bytes, fh.length ≤ 128 → Decodes decodeFh fh (encodeOpaque fh)) ∧
    (∀ data : Bytes, data.length < 2 ^ 32 → Decodes decodeOpaque data (encodeOpaque data)) ∧
    (∀ data : Bytes, Decodes (decodeFixedOpaque data.length) data (encodeFixedOpaque data)) ∧
    (∀ s : String, s.utf8ByteSize < 2 ^ 32 → Decodes decodeString s (encodeString s)) ∧
    (∀ {α : Type} (decode : Decoder α) (encode : α → Bytes) (items : List α),
      items.length < 2 ^ 32 → (∀ a ∈ items, Decodes decode a (encode a)) →
        Decodes (decodeList decode) items (encodeList encode items)) ∧
    (∀ {α : Type} (decode : Decoder α) (encode : α → Bytes) (v : Option α),
      (∀ a, v = some a → Decodes decode a (encode a)) →
        Decodes (decodeOption decode) v (encodeOption encode v)) ∧
    (∀ status, Decodes NfsStat4.decode status (be32 status.code)) ∧
    (∀ ftype, Decodes NfsFtype4.decode ftype (be32 ftype.code)) ∧
    (∀ locktype, Decodes NfsLockType4.decode locktype (be32 locktype.code)) ∧
    (∀ time, Decodes Timestamp.decode time time.encode) ∧
    (∀ stateid, Decodes Stateid4.decode stateid stateid.encode) ∧
    (∀ bitmap : Bitmap4, bitmap.trimmed.length < 2 ^ 32 →
      Decodes Bitmap4.decode ⟨bitmap.trimmed⟩ bitmap.encode ∧
        ∀ bit, Bitmap4.isSet ⟨bitmap.trimmed⟩ bit = bitmap.isSet bit) ∧
    (∀ fsid, Decodes Fsid4.decode fsid fsid.encode) ∧
    (∀ fattr : Fattr4, fattr.attrmask.trimmed.length < 2 ^ 32 → fattr.attrVals.length < 2 ^ 32 →
      Decodes Fattr4.decode ⟨⟨fattr.attrmask.trimmed⟩, fattr.attrVals⟩ fattr.encode) ∧
    (∀ attrs : ChannelAttrs4, attrs.rdmaIrd.length < 2 ^ 32 →
      Decodes ChannelAttrs4.decode attrs attrs.encode) ∧
    (∀ id : NfsImplId4, id.domain.utf8ByteSize < 2 ^ 32 → id.name.utf8ByteSize < 2 ^ 32 →
      Decodes NfsImplId4.decode id id.encode) ∧
    (∀ msgType, Decodes MsgType.decode msgType (be32 msgType.code)) ∧
    (∀ stat, Decodes ReplyStat.decode stat (be32 stat.code)) ∧
    (∀ stat, Decodes AcceptStat.decode stat (be32 stat.code)) ∧
    (∀ flavor, Decodes AuthFlavor.decode flavor (be32 flavor.code)) ∧
    (∀ auth : OpaqueAuth, auth.body.length ≤ 400 → Decodes OpaqueAuth.decode auth auth.encode) ∧
    (∀ params : AuthSysParams, params.machinename.utf8ByteSize ≤ 255 → params.gids.length ≤ 16 →
      Decodes AuthSysParams.decode params params.encode) ∧
    (∀ xid prog vers procNum, ∀ cred verf : OpaqueAuth, cred.body.length ≤ 400 →
      verf.body.length ≤ 400 →
        Decodes RpcCallHeader.decode ⟨xid, rpcVersion, prog, vers, procNum, cred, verf⟩
          (encodeRpcCall xid prog vers procNum cred verf)) ∧
    ∀ xid stat, Decodes RpcAcceptedReply.decode ⟨xid, OpaqueAuth.null, stat⟩ (rpcReply xid stat) :=
  ⟨decodes_u32, decodes_u64, decodes_bool, fun _ => decodes_opaqueMax (by omega),
    fun _ => decodes_opaqueData, decodes_fixedOpaque, fun _ => decodes_string,
    fun _ _ _ => decodes_list, fun _ _ _ => decodes_option, decodes_stat, decodes_ftype,
    decodes_lockType, decodes_time, decodes_stateid,
    fun bitmap h => ⟨decodes_bitmap h, bitmap.isSet_trimmed⟩, decodes_fsid, fun _ => decodes_fattr,
    fun _ => decodes_channelAttrs, fun _ => decodes_implId, decodes_msgType, decodes_replyStat,
    decodes_acceptStat, decodes_authFlavor, fun _ => decodes_auth, fun _ => decodes_authSys,
    fun _ _ _ _ _ _ => decodes_call, decodes_reply⟩

/-- A filehandle of three bytes. -/
theorem xdr_round_trip_fh : Decodes decodeFh [1, 2, 3] (encodeOpaque [1, 2, 3]) :=
  xdr_round_trip.2.2.2.1 [1, 2, 3] (by decide)

end EmbedNfs
