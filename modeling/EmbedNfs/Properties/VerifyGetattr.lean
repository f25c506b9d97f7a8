import EmbedNfs.Properties.AttributeSupport

/-!
# VERIFY and GETATTR

A VERIFY takes the steps of a GETATTR for the same set of attributes and compares the bytes that
come out with those of the client. It also compares the masks as lists of words: the mask of the
server ends in a word that is not zero, so that a client's mask with zero words at its end never
matches, whatever its values are (`verify_zero_word`).
-/

namespace EmbedNfs

/-! ## Bitmaps by their bits -/

namespace Bitmap4

theorem isSet_word {bitmap : Bitmap4} {i j : Nat} (hj : j < 32) :
    bitmap.isSet (32 * i + j) = (bitmap.words[i]?.any fun word => word.getLsbD j) := by
  rw [isSet_eq, show (32 * i + j) / 32 = i by omega, show (32 * i + j) % 32 = j by omega]

theorem Tight.length_le {a b : Bitmap4} (ha : a.Tight)
    (h : ∀ bit, a.isSet bit = true → b.isSet bit = true) : a.words.length ≤ b.words.length := by
  by_contra hlt
  have hwords : a.words ≠ [] := by
    intro hnil
    rw [hnil, List.length_nil] at hlt
    omega
  have hlast := tight_iff.mp ha hwords
  have hpos : a.words.length - 1 < a.words.length := by omega
  rw [List.getLast_eq_getElem] at hlast
  obtain ⟨j, hj, hbit⟩ : ∃ j, ∃ _ : j < 32, a.words[a.words.length - 1].getLsbD j = true := by
    by_contra hnone
    refine hlast (BitVec.eq_of_getLsbD_eq fun j hj => ?_)
    by_contra hne
    exact hnone ⟨j, hj, by simpa using hne⟩
  have hset := h (32 * (a.words.length - 1) + j) (by
    rw [isSet_word hj, List.getElem?_eq_getElem hpos, Option.any_some]
    exact hbit)
  rw [isSet_word hj, List.getElem?_eq_none (by omega)] at hset
  cases hset

theorem Tight.ext {a b : Bitmap4} (ha : a.Tight) (hb : b.Tight)
    (h : ∀ bit, a.isSet bit = b.isSet bit) : a = b := by
  have hle := ha.length_le fun bit hbit => (h bit).symm.trans hbit
  have hge := hb.length_le fun bit hbit => (h bit).trans hbit
  have hwords : a.words = b.words := by
    refine List.ext_getElem (by omega) fun i hi hi' => ?_
    refine BitVec.eq_of_getLsbD_eq fun j hj => ?_
    have hbit := h (32 * i + j)
    rw [isSet_word hj, isSet_word hj, List.getElem?_eq_getElem hi, List.getElem?_eq_getElem hi',
      Option.any_some, Option.any_some] at hbit
    exact hbit
  cases a
  cases b
  exact congrArg Bitmap4.mk hwords

theorem covers_of_isSet {supported mask : Bitmap4}
    (h : ∀ bit, mask.isSet bit = true → supported.isSet bit = true) :
    supported.covers mask = true := by
  rw [covers, List.all_eq_true]
  intro word hword
  have hget := List.mem_zipIdx_iff_getElem?.mp hword
  rw [decide_eq_true_iff]
  refine BitVec.eq_of_getLsbD_eq fun j hj => ?_
  rw [BitVec.getLsbD_and, BitVec.getLsbD_not]
  cases hbit : word.1.getLsbD j with
  | false => simp
  | true =>
    have hset := h (32 * word.2 + j) (by rw [isSet_word hj, hget, Option.any_some, hbit])
    rw [isSet_word hj] at hset
    cases hsupported : supported.words[word.2]? with
    | none =>
      rw [hsupported] at hset
      cases hset
    | some s =>
      rw [hsupported, Option.any_some] at hset
      simp [hset]

end Bitmap4

/-! ## VERIFY -/

theorem encodeFattr4_congr {attr : EncodedFileAttr} {request request' : Bitmap4} {fh : Bytes}
    {ctx : AttrEncodingContext} (h : ∀ bit, request.isSet bit = request'.isSet bit) :
    encodeFattr4 attr request fh ctx = encodeFattr4 attr request' fh ctx := by
  have hput : putAttr attr request fh ctx = putAttr attr request' fh ctx := by
    funext fattr a
    simp only [putAttr, h]
  simp only [encodeFattr4, hput]

section

variable {H : Type} {record : ServerObject → ServerFileAttr → EncodedFileAttr} {limits : FsLimits}
  {capabilities : FsCapabilities} {ctx : RequestContext} {minorversion : U32}

theorem encodeFattr_congr {request request' : Bitmap4}
    (h : ∀ bit, request.isSet bit = request'.isSet bit) (attr : ServerFileAttr) (fh : Bytes) :
    (encodeFattr (fattrEncoder record limits capabilities) ctx attr request fh minorversion :
        Request H _) =
      encodeFattr (fattrEncoder record limits capabilities) ctx attr request' fh minorversion := by
  have hneeds : requestNeedsFsStats request = requestNeedsFsStats request' := by
    simp only [requestNeedsFsStats, h]
  unfold encodeFattr
  refine congrArg (mapOp (.fhToObject fh) >>= ·) (funext fun object => ?_)
  cases object with
  | none => rfl
  | some object =>
    dsimp only
    rw [hneeds]
    simp only [fattrEncoder, encodeFattr4_congr h]

/-- The client asks for attributes that are supported and that can be read. -/
structure Verifiable (capabilities : FsCapabilities) (minorversion : U32) (mask : Bitmap4) :
    Prop where
  supported : ∀ bit, mask.isSet bit = true →
    (supportedAttrsBitmap capabilities minorversion).isSet bit = true
  timeAccessSet : mask.isSet Attribute.timeAccessSet.number = false
  timeModifySet : mask.isSet Attribute.timeModifySet.number = false

theorem Verifiable.asksSupported {mask : Bitmap4} (h : Verifiable capabilities minorversion mask) :
    AsksSupported capabilities minorversion mask := by
  cases hxattrs : capabilities.xattrs with
  | true => exact .inl hxattrs
  | false =>
    have hunset : ∀ a : Attribute, (¬ ∃ b ∈ Attribute.supported, b.number = a.number) →
        mask.isSet a.number = false := by
      intro a ha
      by_contra hset
      have hsupported := h.supported a.number (by simpa using hset)
      rw [isSet_supportedAttrsBitmap, hxattrs] at hsupported
      exact ha (hsupported.resolve_right fun h => by cases h.1)
    exact .inr ⟨hunset _ (by decide), fun _ => hunset _ (by decide)⟩

theorem Verifiable.attrmask_iff {mask : Bitmap4} (h : Verifiable capabilities minorversion mask)
    {stats : Option FsStats} (hstats : StatsGiven mask stats) (attr : EncodedFileAttr)
    (fh : Bytes) :
    (encodeFattr4 attr mask fh ⟨limits, stats, capabilities, minorversion⟩).attrmask = mask ↔
      mask.Tight := by
  refine ⟨fun heq => heq ▸ encodeFattr4_tight, fun htight => ?_⟩
  refine encodeFattr4_tight.ext htight fun bit => ?_
  have hmask : (encodeFattr4 attr mask fh _).attrmask.isSet bit = true ↔ _ :=
    encodeFattr4_mask ⟨limits, stats, capabilities, minorversion⟩ hstats h.asksSupported bit
  rw [Bool.eq_iff_iff, hmask, and_iff_left_iff_imp]
  intro hset
  refine ⟨h.supported bit hset, ?_, ?_⟩
  · rintro rfl
    rw [h.timeAccessSet] at hset
    cases hset
  · rintro rfl
    rw [h.timeModifySet] at hset
    cases hset

/-- What VERIFY and NVERIFY should say to the result of a GETATTR: whether it has the client's
values. -/
def verdict (negate : Bool) (attrVals : Bytes) : Except NfsStat4 Fattr4 → NfsStat4
  | .error status => status
  | .ok fattr => verifyStatus negate (fattr.attrVals = attrVals)

/-- What they do say: a mask with a zero word at its end never matches. -/
def tightVerdict (negate : Bool) (client : Fattr4) : Except NfsStat4 Fattr4 → NfsStat4
  | .error status => status
  | .ok fattr =>
    verifyStatus negate (client.attrmask.Tight && fattr.attrVals = client.attrVals)

theorem tightVerdict_eq_iff {negate : Bool} {client : Fattr4} (r : Except NfsStat4 Fattr4) :
    tightVerdict negate client r = verdict negate client.attrVals r ↔
      client.attrmask.Tight ∨ ∀ fattr, r = .ok fattr → fattr.attrVals ≠ client.attrVals := by
  cases r with
  | error status => simp [tightVerdict, verdict]
  | ok fattr =>
    by_cases htight : client.attrmask.Tight <;>
      by_cases hvals : fattr.attrVals = client.attrVals <;>
        cases negate <;> simp [tightVerdict, verdict, verifyStatus, htight, hvals]

theorem Verifiable.encodeFattr_bind {mask : Bitmap4} (h : Verifiable capabilities minorversion mask)
    (attr : ServerFileAttr) (fh : Bytes) {β : Type}
    {f g : Except FsError Fattr4 → Request H β} (herror : ∀ e, f (.error e) = g (.error e))
    (hok : ∀ fattr, (fattr.attrmask = mask ↔ mask.Tight) → f (.ok fattr) = g (.ok fattr)) :
    encodeFattr (fattrEncoder record limits capabilities) ctx attr mask fh minorversion >>= f =
      encodeFattr (fattrEncoder record limits capabilities) ctx attr mask fh minorversion >>= g := by
  unfold encodeFattr
  rw [Program.bind_assoc, Program.bind_assoc]
  refine congrArg (mapOp (.fhToObject fh) >>= ·) (funext fun object => ?_)
  cases object with
  | none => exact herror .stale
  | some object =>
    cases hneeds : requestNeedsFsStats mask with
    | true =>
      simp only [if_true]
      rw [Program.bind_assoc, Program.bind_assoc]
      refine congrArg (statfsForObject ctx object >>= ·) (funext fun stats => ?_)
      cases stats with
      | error e => exact herror e
      | ok stats => exact hok _ (h.attrmask_iff (fun _ => rfl) _ _)
    | false =>
      simp only [Bool.false_eq_true, if_false]
      exact hok _ (h.attrmask_iff (fun hstats => absurd hstats (by simp [hneeds])) _ _)

/-- **VERIFY means equality with GETATTR.** Whatever happens meanwhile, a VERIFY without
RDATTR_ERROR takes the steps of a GETATTR for the same attributes, and its status says whether the
values are those of the client, exactly if the mask has no zero word at its end or the values
differ. With RDATTR_ERROR the status is INVAL once the attributes of the object are there. -/
theorem verify_eq_getattr {backend : Backend H} {client : Fattr4} {request : Bitmap4}
    {currentFh : Option Bytes} {negate : Bool}
    (hverifiable : Verifiable capabilities minorversion client.attrmask)
    (hrequest : ∀ bit, request.isSet bit = client.attrmask.isSet bit) :
    let verify : Request H NfsStat4 := opVerify backend (fattrEncoder record limits capabilities)
      capabilities ctx client currentFh negate minorversion
    (client.attrmask.isSet Attribute.rdattrError.number = false →
      verify = (opGetattr backend (fattrEncoder record limits capabilities) ctx request currentFh
        minorversion >>= fun r => return tightVerdict negate client r)) ∧
    (∀ r, tightVerdict negate client r = verdict negate client.attrVals r ↔
      client.attrmask.Tight ∨ ∀ fattr, r = .ok fattr → fattr.attrVals ≠ client.attrVals) ∧
    (client.attrmask.isSet Attribute.rdattrError.number = true →
      verify = (resolveObject backend currentFh >>= fun r => match r with
        | .error status => return status
        | .ok (_, object) => buildAttr backend ctx object >>= fun r =>
          return match r with | .error e => e.toNfsstat4 | .ok _ => .inval)) := by
  refine ⟨fun hrdattr => ?_, tightVerdict_eq_iff, fun hrdattr => ?_⟩
  · unfold opVerify opGetattr
    rw [Program.bind_assoc]
    refine congrArg (resolveObject backend currentFh >>= ·) (funext fun r => ?_)
    cases r with
    | error status => rfl
    | ok found =>
      dsimp only
      rw [Program.bind_assoc]
      refine congrArg (buildAttr backend ctx found.2 >>= ·) (funext fun r => ?_)
      cases r with
      | error e => rfl
      | ok attr =>
        have hcovers := Bitmap4.covers_of_isSet hverifiable.supported
        simp only [hrdattr, hverifiable.timeAccessSet, hverifiable.timeModifySet,
          hcovers, encodeFattr_congr hrequest, Bool.or_self, Bool.false_eq_true, if_false,
          Bool.not_true]
        rw [Program.bind_assoc]
        refine hverifiable.encodeFattr_bind attr found.1 (fun e => rfl) fun fattr hmask => ?_
        simp only [hmask]
        rfl
  · unfold opVerify
    refine congrArg (resolveObject backend currentFh >>= ·) (funext fun r => ?_)
    cases r with
    | error status => rfl
    | ok found =>
      refine congrArg (buildAttr backend ctx found.2 >>= ·) (funext fun r => ?_)
      cases r with
      | error e => rfl
      | ok attr => simp only [hrdattr, Bool.true_or, if_true]

end

/-! ## Runs -/

namespace Scripted

/-- VERIFY of the root in the scripted world, with its status as an error. -/
def verifyRoot (fattr : Fattr4) : Request Bool (Except NfsStat4 Fattr4) :=
  Except.error <$> opVerify listingConfig.backend
    (fattrEncoder (fun _ attr => { plainFile with toServerFileAttr := attr }) plainContext.limits
      plainContext.capabilities) plainContext.capabilities ⟨.none⟩ fattr (some fh) false 1

/-- GETATTR of the root, and then VERIFY with the same mask and the given values. -/
def verifyThreads (mask : Bitmap4) (vals : Bytes) : List (Request Bool (Except NfsStat4 Fattr4)) :=
  [nameRoot, getattrRoot plainContext.capabilities mask, verifyRoot ⟨mask, vals⟩]

def verifyRun (mask : Bitmap4) (vals : Bytes) :
    Trace Bool ×
      Machine Bool (Except NfsStat4 Fattr4) :=
  (listing listingConfig.backend).play ⟨Server.new Bool .fixed, verifyThreads mask vals⟩
    (List.replicate 20 0 ++ List.replicate 20 1 ++ List.replicate 20 2)

end Scripted

open Scripted

/-- The size of the root, with a mask of two words: VERIFY right after GETATTR says that the values
that GETATTR returned are not the same. -/
theorem verify_zero_word :
    (Server.system listingConfig.backend).Run
      ⟨Server.new Bool .fixed, verifyThreads ⟨[16, 0]⟩ (be64 0)⟩
      (verifyRun ⟨[16, 0]⟩ (be64 0)).1 (verifyRun ⟨[16, 0]⟩ (be64 0)).2 ∧
    (verifyRun ⟨[16, 0]⟩ (be64 0)).2.threads[1]?.bind Program.result =
      some (.ok ⟨⟨[16]⟩, be64 0⟩) ∧
    (verifyRun ⟨[16, 0]⟩ (be64 0)).2.threads[2]?.bind Program.result =
      some (.error .notSame) :=
  ⟨(listing listingConfig.backend).play_run _ _, by decide +kernel, by decide +kernel⟩

/-- The size of the root, with a mask of one word. -/
theorem verify_eq_getattr_size :
    verifyRoot ⟨⟨[16]⟩, be64 0⟩ =
      Except.error <$> (getattrRoot plainContext.capabilities ⟨[16]⟩ >>= fun r =>
        return tightVerdict false ⟨⟨[16]⟩, be64 0⟩ r) := by
  have hbits : ∀ bit, (⟨[16]⟩ : Bitmap4).isSet bit = true → bit = Attribute.size.number := by
    intro bit hbit
    rw [← Bitmap4.mem_bits, show (⟨[16]⟩ : Bitmap4).bits = [4] by decide] at hbit
    exact List.mem_singleton.mp hbit
  refine congrArg (Except.error <$> ·) ((verify_eq_getattr ⟨fun bit hbit => ?_, by decide,
    by decide⟩ fun bit => rfl).1 (by decide))
  rw [hbits bit hbit]
  decide +kernel

end EmbedNfs
