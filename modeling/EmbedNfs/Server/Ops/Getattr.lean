import EmbedNfs.Attrs.Encode
import EmbedNfs.Server.Ops.Readdir

/-!
# GETATTR and VERIFY, and the encoding of READDIR

`op_getattr` and `op_verify` of `server/ops/attrs.rs` with `encode_fattr`, and the body of a READDIR result as
`NfsResop4::encode` writes it. The record of an object's attributes is made from what the modelled
operations read and from the rest of its attributes, which a function supplies.
-/

namespace EmbedNfs

variable {H : Type}

/-- `encode_fattr4` with the limits and the capabilities of a backend. -/
def fattrEncoder (record : ServerObject → ServerFileAttr → EncodedFileAttr) (limits : FsLimits)
    (capabilities : FsCapabilities) : FattrEncoder :=
  fun object attr request fh stats minorversion =>
    encodeFattr4 (record object attr) request fh ⟨limits, stats, capabilities, minorversion⟩

/-- `encode_fattr`. -/
def encodeFattr (encode : FattrEncoder) (ctx : RequestContext) (attr : ServerFileAttr)
    (request : Bitmap4) (fh : Bytes) (minorversion : U32) :
    Request H (Except FsError Fattr4) := do
  match ← mapOp (.fhToObject fh) with
  | none => return .error .stale
  | some object =>
    if requestNeedsFsStats request then
      match ← statfsForObject ctx object with
      | .ok stats => return .ok (encode object attr request fh (some stats) minorversion)
      | .error e => return .error e
    else return .ok (encode object attr request fh none minorversion)

/-- `op_getattr`. -/
def opGetattr (backend : Backend H) (encode : FattrEncoder) (ctx : RequestContext)
    (request : Bitmap4) (currentFh : Option Bytes) (minorversion : U32) :
    Request H (Except NfsStat4 Fattr4) := do
  match ← resolveObject backend currentFh with
  | .error status => return .error status
  | .ok (fh, object) =>
    match ← buildAttr backend ctx object with
    | .error e => return .error e.toNfsstat4
    | .ok attr =>
      match ← encodeFattr encode ctx attr request fh minorversion with
      | .ok fattr => return .ok fattr
      | .error e => return .error e.toNfsstat4

/-- No word of the mask has a bit that the supported attributes lack. -/
def Bitmap4.covers (supported mask : Bitmap4) : Bool :=
  mask.words.zipIdx.all fun word => word.1 &&& ~~~(supported.words[word.2]?.getD 0) = 0

/-- The status of VERIFY, or of NVERIFY, for attributes that match or do not. -/
def verifyStatus (negate attrsMatch : Bool) : NfsStat4 :=
  if negate then if attrsMatch then .same else .ok
  else if attrsMatch then .ok else .notSame

/-- `op_verify`, whose reply is a status. -/
def opVerify (backend : Backend H) (encode : FattrEncoder) (capabilities : FsCapabilities)
    (ctx : RequestContext) (clientFattr : Fattr4) (currentFh : Option Bytes) (negate : Bool)
    (minorversion : U32) : Request H NfsStat4 := do
  match ← resolveObject backend currentFh with
  | .error status => return status
  | .ok (fh, object) =>
    match ← buildAttr backend ctx object with
    | .error e => return e.toNfsstat4
    | .ok attr =>
      if clientFattr.attrmask.isSet Attribute.rdattrError.number ||
          clientFattr.attrmask.isSet Attribute.timeAccessSet.number ||
          clientFattr.attrmask.isSet Attribute.timeModifySet.number then
        return .inval
      if !(supportedAttrsBitmap capabilities minorversion).covers clientFattr.attrmask then
        return .attrNotsupp
      match ← encodeFattr encode ctx attr clientFattr.attrmask fh minorversion with
      | .error e => return e.toNfsstat4
      | .ok serverFattr =>
        return verifyStatus negate (serverFattr.attrmask = clientFattr.attrmask &&
          serverFattr.attrVals = clientFattr.attrVals)

/-- The encoding of an entry in a READDIR result. -/
def Entry4.encode (entry : Entry4) : Bytes :=
  be64 entry.cookie ++ encodeString entry.name ++ entry.attrs.encode

/-- The encoding of a READDIR result: the verifier, every entry after a `true`, and the end. -/
def ReaddirRes4.encode (res : ReaddirRes4) : Bytes :=
  be64 res.cookieverf ++ res.entries.flatMap (fun entry => encodeBool true ++ entry.encode) ++
    encodeBool false ++ encodeBool res.eof

end EmbedNfs
