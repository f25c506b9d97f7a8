import EmbedNfs.Proto.Encode
import EmbedNfs.Server.FileAttrs

/-!
# READDIR

`op_readdir` of `server/ops/directory.rs`. The backend gives a page of entries; an entry is left
out if its handle may not be registered, its attributes cannot be had or it has no filehandle,
and the reply is cut where the byte limits of the request are reached. The encoding of
attributes, `encode_fattr4`, is a parameter: it also sees attributes that are left out here, which
is why it is given the object.
-/

namespace EmbedNfs

variable {H : Type}

/-- `attrs::encode_fattr4`: the object and its attributes, what is asked for, the filehandle, the
file system's numbers and the minor version. -/
abbrev FattrEncoder :=
  ServerObject → ServerFileAttr → Bitmap4 → Bytes → Option FsStats → U32 → Fattr4

/-! ## Lengths -/

/-- `xdr_fattr4_len`. -/
def xdrFattr4Len (fattr : Fattr4) : Nat :=
  4 + fattr.attrmask.words.length * 4 + xdrOpaqueLen fattr.attrVals.length

/-- `readdir_dir_info_len`. -/
def readdirDirInfoLen (entry : Entry4) : Nat := 8 + xdrOpaqueLen entry.name.utf8ByteSize

/-- `readdir_entry_list_item_len`. -/
def readdirEntryListItemLen (entry : Entry4) : Nat :=
  4 + (8 + xdrOpaqueLen entry.name.utf8ByteSize + xdrFattr4Len entry.attrs)

/-- `readdir_resok_len`. -/
def readdirResokLen (entries : List Entry4) : Nat :=
  8 + (entries.map readdirEntryListItemLen).sum + 4 + 4

/-! ## Helpers -/

/-- `statfs_for_object`. -/
def statfsForObject (ctx : RequestContext) (object : ServerObject) :
    Request H (Except FsError FsStats) :=
  let id :=
    match object with
    | .fs id | .namedAttrDir id | .namedAttrFile id _ => id
  Request.andThen (resolveBackendHandle id) fun handle => askBackend ctx (.statfs handle)

/-- `attrs::request_needs_fs_stats`. -/
def requestNeedsFsStats (request : Bitmap4) : Bool :=
  request.isSet 21 || request.isSet 22 || request.isSet 23 || request.isSet 42 ||
    request.isSet 43 || request.isSet 44

/-- Register the entries of a page, leaving out the ones that are refused. -/
def registerEntries : List (DirEntry H) → Request H (List (DirEntry ObjectId))
  | [] => return []
  | entry :: entries => do
    match ← registerHandle entry.handle with
    | .ok id =>
      let rest ← registerEntries entries
      return ⟨entry.name, id, entry.cookie, entry.attrs⟩ :: rest
    | .error _ => registerEntries entries

/-- `readdir`. -/
def readdir (ctx : RequestContext) (dirId : ObjectId) (cookie : U64) (maxEntries : U32)
    (withAttrs : Bool) : Request H (Except FsError (DirPage ObjectId)) :=
  Request.andThen (resolveBackendHandle dirId) fun handle =>
    Request.andThen (askBackend ctx (.readdir handle cookie maxEntries withAttrs)) fun page => do
      return .ok ⟨← registerEntries page.entries, page.eof⟩

/-- An entry that READDIR may return. -/
structure ReaddirItem where
  name : String
  object : ServerObject
  cookie : U64
  attrs : Option Attrs

/-- The named attributes from a cookie on, with their cookies. -/
def namedAttrItems (parent : ObjectId) (cookie : U64) (names : List String) :
    List ReaddirItem :=
  let start := if cookie = 0 then 0 else cookie.toNat - 2
  (names.drop start).zipIdx.map fun (name, idx) =>
    ⟨name, .namedAttrFile parent name, BitVec.ofNat 64 start + 3 + BitVec.ofNat 64 idx, none⟩

/-- The entries from which READDIR fills its reply, and whether the backend has no more. -/
def readdirItems (backend : Backend H) (ctx : RequestContext) (args : ReaddirArgs4)
    (object : ServerObject) : Request H (Except NfsStat4 (List ReaddirItem × Bool)) := do
  match object with
  | .fs dirId =>
    let withAttrs := args.attrRequest.words.any (· ≠ 0)
    let maxEntries := if args.maxcount / 128 = 0 then 1 else args.maxcount / 128
    match ← readdir ctx dirId args.cookie maxEntries withAttrs with
    | .ok page =>
      return .ok (page.entries.map fun entry =>
        ⟨entry.name, .fs entry.handle, entry.cookie, entry.attrs⟩, page.eof)
    | .error e => return .error e.toNfsstat4
  | .namedAttrDir parent =>
    if !backend.xattrs then return .error .notsupp
    match ← resolveBackendHandle parent with
    | .error e => return .error e.toNfsstat4
    | .ok handle =>
      match ← askBackend ctx (.listXattrs handle) with
      | .error e => return .error e.toNfsstat4
      | .ok names => return .ok (namedAttrItems parent args.cookie names, true)
  | .namedAttrFile _ _ => return .error .notdir

/-- The attributes of an entry: the ones that came with it, or else the object's. -/
def itemAttr (backend : Backend H) (ctx : RequestContext) (item : ReaddirItem) :
    Request H (Except FsError ServerFileAttr) :=
  match item.attrs with
  | some attrs => return .ok ⟨.fromAttrs attrs, attrs.size, attrs.change⟩
  | none => buildAttr backend ctx item.object

/-- The file system's numbers, where they are asked for. -/
def itemStats (ctx : RequestContext) (args : ReaddirArgs4) (object : ServerObject) :
    Request H (Except FsError (Option FsStats)) := do
  if !requestNeedsFsStats args.attrRequest then return .ok none
  match ← statfsForObject ctx object with
  | .ok stats => return .ok (some stats)
  | .error e => return .error e

/-- A reply that is being filled. -/
structure ReaddirReply where
  entries : List Entry4
  dirBytes : Nat
  totalBytes : Nat

/-- The byte limit that `dircount` sets; there is none if it is 0. -/
def exceedsDircount (args : ReaddirArgs4) (bytes : Nat) : Bool :=
  args.dircount ≠ 0 ∧ args.dircount.toNat < bytes

/-- Put an entry into the reply: the reply with it, or `none` if the reply is full. An entry that
does not fit into an empty reply is an error. -/
def ReaddirReply.push (reply : ReaddirReply) (args : ReaddirArgs4) (entry : Entry4) :
    Except NfsStat4 (Option ReaddirReply) :=
  let dirBytes := reply.dirBytes + readdirDirInfoLen entry
  let totalBytes := reply.totalBytes + readdirEntryListItemLen entry
  let exceedsMaxcount := args.maxcount.toNat < totalBytes
  if !reply.entries.isEmpty ∧ (exceedsDircount args dirBytes ∨ exceedsMaxcount) then .ok none
  else if reply.entries.isEmpty ∧ exceedsMaxcount then .error .toosmall
  else .ok (some ⟨reply.entries ++ [entry], dirBytes, totalBytes⟩)

/-- The loop of `op_readdir`. -/
def readdirLoop (backend : Backend H) (encode : FattrEncoder) (ctx : RequestContext)
    (args : ReaddirArgs4) (minorversion : U32) :
    List ReaddirItem → ReaddirReply → Request H (Except NfsStat4 (List Entry4))
  | [], reply => return .ok reply.entries
  | item :: items, reply => do
    match ← itemAttr backend ctx item with
    | .error _ => readdirLoop backend encode ctx args minorversion items reply
    | .ok attr =>
      match ← itemStats ctx args item.object with
      | .error e => return .error e.toNfsstat4
      | .ok stats =>
        match ← objectToFh item.object with
        | none => readdirLoop backend encode ctx args minorversion items reply
        | some fh =>
          let attrs := encode item.object attr args.attrRequest fh stats minorversion
          match reply.push args ⟨item.cookie, item.name, attrs⟩ with
          | .error status => return .error status
          | .ok none => return .ok reply.entries
          | .ok (some reply) => readdirLoop backend encode ctx args minorversion items reply

/-- The gate of an attribute directory, before its attributes are listed. -/
def readdirGate (ctx : RequestContext) (object : ServerObject) : Request H (Except NfsStat4 Unit) :=
  match object with
  | .namedAttrDir parent => requireAccess ctx parent AccessMask.xattrList
  | _ => return .ok ()

/-- The checks of the arguments. -/
def readdirCheck (args : ReaddirArgs4) (dirAttr : ServerFileAttr) : Except NfsStat4 Unit :=
  if !dirAttr.isDir then .error .notdir
  else if args.cookie = 1 ∨ args.cookie = 2 then .error .badCookie
  else if args.maxcount = 0 then .error .toosmall
  else if args.attrRequest.isSet 48 || args.attrRequest.isSet 54 then .error .inval
  else if args.cookie ≠ 0 ∧ args.cookieverf ≠ dirAttr.changeId then .error .notSame
  else .ok ()

/-- `op_readdir`. -/
def opReaddir (backend : Backend H) (encode : FattrEncoder) (ctx : RequestContext)
    (args : ReaddirArgs4) (currentFh : Option Bytes) (minorversion : U32) :
    Request H NfsResop4 := do
  let object ← match ← resolveObject backend currentFh with
    | .ok (_, object) => pure object
    | .error status => return .readdir status none
  if let .error status ← readdirGate ctx object then return .readdir status none
  let dirAttr ← match ← buildAttr backend ctx object with
    | .ok attr => pure attr
    | .error e => return .readdir e.toNfsstat4 none
  if let .error status := readdirCheck args dirAttr then return .readdir status none
  let (items, backendEof) ← match ← readdirItems backend ctx args object with
    | .ok page => pure page
    | .error status => return .readdir status none
  if args.maxcount.toNat < readdirResokLen [] then return .readdir .toosmall none
  match ← readdirLoop backend encode ctx args minorversion items ⟨[], 0, readdirResokLen []⟩ with
  | .error status => return .readdir status none
  | .ok entries =>
    let eof := backendEof && entries.length = items.length
    return .readdir .ok (some ⟨dirAttr.changeId, entries, eof⟩)

end EmbedNfs
