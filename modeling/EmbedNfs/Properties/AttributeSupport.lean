import EmbedNfs.Properties.AttributeEncoding
import EmbedNfs.Properties.ReaddirProgress
import EmbedNfs.Server.Ops.Getattr

/-!
# Attributes that are supported, and attributes that are returned

GETATTR returns the attributes that are asked for and have a value; `supported_attrs_bitmap` says
which attributes the server supports. The two agree on a backend with extended attributes. On one
without them, NAMED_ATTR and, from minor version 2 on, XATTR_SUPPORT are returned although they
are not among the supported ones.
-/

namespace EmbedNfs

variable {H : Type}

theorem isSet_supportedAttrsBitmap {capabilities : FsCapabilities} {minorversion : U32}
    {bit : Nat} :
    (supportedAttrsBitmap capabilities minorversion).isSet bit = true ↔
      (∃ a ∈ Attribute.supported, a.number = bit) ∨
        capabilities.xattrs = true ∧ (bit = Attribute.namedAttr.number ∨
          2 ≤ minorversion ∧ bit = Attribute.xattrSupport.number) := by
  have hfixed := Bitmap4.isSet_foldl Attribute.number Attribute.supported ⟨[]⟩ bit
  rw [Bitmap4.isSet_nil] at hfixed
  simp only [Bool.false_eq_true, false_or] at hfixed
  simp only [supportedAttrsBitmap]
  generalize Attribute.supported.foldl (fun bitmap a => Bitmap4.set bitmap a.number)
    (Bitmap4.mk []) = fixed at hfixed ⊢
  generalize (∃ a ∈ Attribute.supported, a.number = bit) = P at hfixed ⊢
  generalize Attribute.namedAttr.number = named
  generalize Attribute.xattrSupport.number = xattr
  by_cases hx : capabilities.xattrs = true <;> by_cases hm : 2 ≤ minorversion <;>
    simp only [hx, hm, and_self, and_false, if_true, if_false, and_true, true_and,
      Bool.false_eq_true, false_and, or_false, Bitmap4.isSet_set, Bool.or_eq_true,
      decide_eq_true_eq, hfixed] <;>
    tauto

/-- The attributes that depend on the capabilities or on the minor version, and all others: the
ones that are encoded are the supported ones that can be read. -/
theorem Attribute.encoded_iff (bit : Nat) :
    (∃ a ∈ Attribute.encoded, a.number = bit ∧ a ≠ .namedAttr ∧ a ≠ .xattrSupport) ↔
      (∃ a ∈ Attribute.supported, a.number = bit) ∧
        bit ≠ Attribute.timeAccessSet.number ∧ bit ≠ Attribute.timeModifySet.number := by
  constructor
  · rintro ⟨a, ha, rfl, hnamed, hxattr⟩
    revert a
    decide
  · rintro ⟨⟨a, ha, rfl⟩, haccess, hmodify⟩
    revert a
    decide

/-- The numbers of the file system are given wherever they are asked for. -/
def StatsGiven (request : Bitmap4) (stats : Option FsStats) : Prop :=
  requestNeedsFsStats request = true → stats.isSome = true

theorem Attribute.value_isSome {attr : EncodedFileAttr} {request : Bitmap4} {fh : Bytes}
    {ctx : AttrEncodingContext} (hstats : StatsGiven request ctx.stats) {a : Attribute}
    (ha : a ∈ Attribute.encoded) (hrequest : request.isSet a.number = true) :
    (a.value attr fh ctx).isSome = true ↔ (a = .xattrSupport → 2 ≤ ctx.minorversion) := by
  have hneeds (hbit : a.number ∈ [21, 22, 23, 42, 43, 44]) : ctx.stats.isSome = true := by
    refine hstats ?_
    simp only [List.mem_cons, List.not_mem_nil, or_false] at hbit
    simp only [requestNeedsFsStats, Bool.or_eq_true]
    rcases hbit with h | h | h | h | h | h <;> rw [h] at hrequest <;> simp [hrequest]
  cases a with
  | xattrSupport =>
    simp only [Attribute.value, forall_const]
    split <;> simp_all
  | timeAccessSet => exact absurd ha (by decide)
  | timeModifySet => exact absurd ha (by decide)
  | filesAvail | filesFree | filesTotal | spaceAvail | spaceFree | spaceTotal =>
    simp only [Attribute.value, Option.isSome_map, hneeds (by decide), reduceCtorEq,
      false_implies]
  | _ => simp only [Attribute.value, Option.isSome_some, reduceCtorEq, false_implies]

/-- What a mask should be: the requested bits that are supported, without the two attributes that
can only be written. -/
def MaskIsSupported (capabilities : FsCapabilities) (minorversion : U32) (request mask : Bitmap4) :
    Prop :=
  ∀ bit, mask.isSet bit = true ↔ request.isSet bit = true ∧
    (supportedAttrsBitmap capabilities minorversion).isSet bit = true ∧
      bit ≠ Attribute.timeAccessSet.number ∧ bit ≠ Attribute.timeModifySet.number

/-- The two attributes that are encoded without regard to the capabilities are not asked for, or
are supported. -/
def AsksSupported (capabilities : FsCapabilities) (minorversion : U32) (request : Bitmap4) :
    Prop :=
  capabilities.xattrs = true ∨
    request.isSet Attribute.namedAttr.number = false ∧
      (2 ≤ minorversion → request.isSet Attribute.xattrSupport.number = false)

theorem encodeFattr4_mask (ctx : AttrEncodingContext) {attr : EncodedFileAttr} {request : Bitmap4}
    {fh : Bytes} (hstats : StatsGiven request ctx.stats)
    (hasks : AsksSupported ctx.capabilities ctx.minorversion request) :
    MaskIsSupported ctx.capabilities ctx.minorversion request
      (encodeFattr4 attr request fh ctx).attrmask := by
  intro bit
  rw [isSet_encodeFattr4, isSet_supportedAttrsBitmap]
  constructor
  · rintro ⟨a, ha, rfl, hrequest, hvalue⟩
    refine ⟨hrequest, ?_⟩
    have hminor := (Attribute.value_isSome hstats ha hrequest).mp hvalue
    by_cases hnamed : a = .namedAttr
    · subst hnamed
      have hx : ctx.capabilities.xattrs = true := by
        rcases hasks with hx | ⟨hno, -⟩
        · exact hx
        · rw [hno] at hrequest
          cases hrequest
      exact ⟨.inr ⟨hx, .inl rfl⟩, by decide, by decide⟩
    · by_cases hxattr : a = .xattrSupport
      · subst hxattr
        have hx : ctx.capabilities.xattrs = true := by
          rcases hasks with hx | ⟨-, hno⟩
          · exact hx
          · rw [hno (hminor rfl)] at hrequest
            cases hrequest
        exact ⟨.inr ⟨hx, .inr ⟨hminor rfl, rfl⟩⟩, by decide, by decide⟩
      · obtain ⟨hsupported, haccess, hmodify⟩ :=
          (Attribute.encoded_iff a.number).mp ⟨a, ha, rfl, hnamed, hxattr⟩
        exact ⟨.inl hsupported, haccess, hmodify⟩
  · rintro ⟨hrequest, hsupported, haccess, hmodify⟩
    -- an attribute that is supported is encoded, and has a value
    obtain ⟨a, ha, rfl, hminor⟩ : ∃ a ∈ Attribute.encoded, a.number = bit ∧
        (a = .xattrSupport → 2 ≤ ctx.minorversion) := by
      rcases hsupported with hfixed | ⟨-, rfl | ⟨hm, rfl⟩⟩
      · obtain ⟨a, ha, hnumber, -, hxattr⟩ :=
          (Attribute.encoded_iff bit).mpr ⟨hfixed, haccess, hmodify⟩
        exact ⟨a, ha, hnumber, fun h => absurd h hxattr⟩
      · exact ⟨.namedAttr, by decide, rfl, nofun⟩
      · exact ⟨.xattrSupport, by decide, rfl, fun _ => hm⟩
    exact ⟨a, ha, rfl, hrequest, (Attribute.value_isSome hstats ha hrequest).mpr hminor⟩

/-- An attribute that is returned although the backend does not support it is not in the mask. -/
theorem asksSupported_of_mask (ctx : AttrEncodingContext) {attr : EncodedFileAttr}
    {request : Bitmap4} {fh : Bytes} (hstats : StatsGiven request ctx.stats)
    (hmask : MaskIsSupported ctx.capabilities ctx.minorversion request
      (encodeFattr4 attr request fh ctx).attrmask) :
    AsksSupported ctx.capabilities ctx.minorversion request := by
  refine or_iff_not_imp_left.mpr fun hx => ?_
  have hunset (a : Attribute) (ha : a ∈ Attribute.encoded)
      (hminor : a = .xattrSupport → 2 ≤ ctx.minorversion)
      (hextra : ¬∃ b ∈ Attribute.supported, b.number = a.number) :
      request.isSet a.number = false := by
    by_contra hset
    have hrequest : request.isSet a.number = true := by simpa using hset
    have hvalue : (a.value attr fh ctx).isSome = true :=
      (Attribute.value_isSome hstats ha hrequest).mpr hminor
    have hbit := (hmask a.number).mp (isSet_encodeFattr4.mpr ⟨a, ha, rfl, hrequest, hvalue⟩)
    rcases isSet_supportedAttrsBitmap.mp hbit.2.1 with hfixed | ⟨hx', -⟩
    · exact hextra hfixed
    · exact hx hx'
  exact ⟨hunset .namedAttr (by decide) nofun (by decide),
    fun hm => hunset .xattrSupport (by decide) (fun _ => hm) (by decide)⟩

theorem mask_iff_asksSupported (ctx : AttrEncodingContext) {attr : EncodedFileAttr}
    {request : Bitmap4} {fh : Bytes} (hstats : StatsGiven request ctx.stats) :
    MaskIsSupported ctx.capabilities ctx.minorversion request
      (encodeFattr4 attr request fh ctx).attrmask ↔
        AsksSupported ctx.capabilities ctx.minorversion request :=
  ⟨asksSupported_of_mask ctx hstats, encodeFattr4_mask ctx hstats⟩

/-! ## GETATTR -/

section

variable {record : ServerObject → ServerFileAttr → EncodedFileAttr} {limits : FsLimits}
  {capabilities : FsCapabilities} {ctx : RequestContext} {request : Bitmap4} {minorversion : U32}

theorem encodeFattr_mask {may : (c : Call H) → c.Ret → Prop} (attr : ServerFileAttr) (fh : Bytes) :
    (encodeFattr (fattrEncoder record limits capabilities) ctx attr request fh
      minorversion).Ensures may fun r => ∀ fattr, r = .ok fattr →
        (MaskIsSupported capabilities minorversion request fattr.attrmask ↔
          AsksSupported capabilities minorversion request) := by
  refine Program.Along.bind (Program.Ensures.trivial _) fun r _ => ?_
  cases r with
  | none => exact nofun
  | some object =>
    dsimp only
    split
    · refine Program.Along.bind (Program.Ensures.trivial _) fun r _ => ?_
      cases r with
      | error e => exact nofun
      | ok stats =>
        rintro fattr h
        cases h
        exact mask_iff_asksSupported ⟨limits, some stats, capabilities, minorversion⟩ fun _ => rfl
    · rename_i hneeds
      rintro fattr h
      cases h
      exact mask_iff_asksSupported ⟨limits, none, capabilities, minorversion⟩
        fun h => absurd h hneeds

theorem opGetattr_mask (may : (c : Call H) → c.Ret → Prop) {backend : Backend H}
    {currentFh : Option Bytes} :
    (opGetattr backend (fattrEncoder record limits capabilities) ctx request currentFh
      minorversion).Ensures may fun r => ∀ fattr, r = .ok fattr →
        (MaskIsSupported capabilities minorversion request fattr.attrmask ↔
          AsksSupported capabilities minorversion request) := by
  refine Program.Along.bind (Program.Ensures.trivial _) fun r _ => ?_
  cases r with
  | error status => exact nofun
  | ok resolved =>
    refine Program.Along.bind (Program.Ensures.trivial _) fun r _ => ?_
    cases r with
    | error e => exact nofun
    | ok attr =>
      refine Program.Along.bind (encodeFattr_mask attr resolved.1) fun r hr => ?_
      cases r with
      | error e => exact nofun
      | ok fattr =>
        rintro fattr' h
        cases h
        exact hr fattr rfl

end

open Scripted

variable [DecidableEq H]

/-- **GETATTR returns what is supported.** In every run, a GETATTR gets exactly the requested
attributes that the server says it supports, if and only if it does not ask for one of the two
attributes that are returned without regard to the capabilities. -/
theorem getattr_mask_supported {backend : Backend H}
    {record : ServerObject → ServerFileAttr → EncodedFileAttr} {limits : FsLimits}
    {capabilities : FsCapabilities} {ctx : RequestContext} {request : Bitmap4}
    {currentFh : Option Bytes} {minorversion : U32}
    {c c' : Machine H (Except NfsStat4 Fattr4)}
    {tr : Trace H} {t : Nat} {fattr : Fattr4}
    (hrun : (Server.system backend).Run c tr c')
    (hthread : c.threads[t]? = some (opGetattr backend (fattrEncoder record limits capabilities)
      ctx request currentFh minorversion))
    (hdone : c'.threads[t]? = some (.ret (.ok fattr))) :
    MaskIsSupported capabilities minorversion request fattr.attrmask ↔
      AsksSupported capabilities minorversion request := by
  obtain ⟨-, p, hp, hresult⟩ := hrun.along hthread (fun _ _ _ => trivial)
    (opGetattr_mask fun _ _ => True)
  rw [hdone] at hp
  cases hp
  exact hresult fattr rfl

/-! ## A backend without extended attributes -/

namespace Scripted

/-- GETATTR of the root in the scripted world, for a backend with the given capabilities. -/
def getattrRoot (capabilities : FsCapabilities) (request : Bitmap4) :
    Request Bool (Except NfsStat4 Fattr4) :=
  opGetattr listingConfig.backend
    (fattrEncoder (fun _ attr => { plainFile with toServerFileAttr := attr }) plainContext.limits
      capabilities) ⟨.none⟩ request (some fh) 1

/-- The root gets a filehandle. -/
def nameRoot : Request Bool (Except NfsStat4 Fattr4) :=
  (fun _ => .error .ok) <$> putRoot

def getattrRun (capabilities : FsCapabilities) (request : Bitmap4) :
    Trace Bool ×
      Machine Bool (Except NfsStat4 Fattr4) :=
  (listing listingConfig.backend).play
    ⟨Server.new Bool .fixed, [nameRoot, getattrRoot capabilities request]⟩
    (List.replicate 20 0 ++ List.replicate 20 1)

end Scripted

theorem getattrRun_run (capabilities : FsCapabilities) (request : Bitmap4) :
    (Server.system listingConfig.backend).Run
      ⟨Server.new Bool .fixed, [nameRoot, getattrRoot capabilities request]⟩
      (getattrRun capabilities request).1 (getattrRun capabilities request).2 :=
  (listing listingConfig.backend).play_run _ _

theorem getattr_mask_supported_size :
    MaskIsSupported ⟨true, true, true, true, true⟩ 1 ⟨[144]⟩ ⟨[144]⟩ := by
  have hresult : (getattrRun ⟨true, true, true, true, true⟩ ⟨[144]⟩).2.threads[1]?.bind
      Program.result = some (.ok ⟨⟨[144]⟩, be64 0 ++ encodeBool false⟩) := by
    decide +kernel
  exact (getattr_mask_supported (getattrRun_run _ _)
    (show [nameRoot, getattrRoot _ _][1]? = some (getattrRoot _ _) from rfl)
    (of_bind_result hresult)).mpr (.inl rfl)

/-- A backend without extended attributes returns NAMED_ATTR, which it does not support. -/
theorem getattr_unsupported_namedAttr :
    (Server.system listingConfig.backend).Run
      ⟨Server.new Bool .fixed, [nameRoot, getattrRoot ⟨true, true, false, true, true⟩ ⟨[128]⟩]⟩
      (getattrRun ⟨true, true, false, true, true⟩ ⟨[128]⟩).1
      (getattrRun ⟨true, true, false, true, true⟩ ⟨[128]⟩).2 ∧
    (getattrRun ⟨true, true, false, true, true⟩ ⟨[128]⟩).2.threads[1]?.bind Program.result =
      some (.ok ⟨⟨[128]⟩, encodeBool false⟩) ∧
    ¬ MaskIsSupported ⟨true, true, false, true, true⟩ 1 ⟨[128]⟩ ⟨[128]⟩ := by
  refine ⟨getattrRun_run _ _, by decide +kernel, fun h => ?_⟩
  have hset := (h 7).mp (by decide)
  exact absurd hset.2.1 (by decide +kernel)

end EmbedNfs
