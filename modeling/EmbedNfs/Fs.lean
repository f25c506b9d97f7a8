import EmbedNfs.Proto.Types

/-!
# The backend's vocabulary

The types of `fs.rs` through which the server talks to an embedding file system: errors,
attributes and attribute updates. Of `Attrs` the model keeps the fields that the modelled
operations read.
-/

namespace EmbedNfs

/-- Backend errors. -/
inductive FsError where
  | ok
  | permissionDenied
  | notFound
  | io
  | accessDenied
  | alreadyExists
  | crossDevice
  | notDirectory
  | isDirectory
  | invalidInput
  | fileTooLarge
  | noSpace
  | readOnly
  | nameTooLong
  | notEmpty
  | stale
  | unsupported
  | badHandle
  | serverFault
  | delay
  deriving DecidableEq, Repr

/-- `to_nfsstat4`. -/
def FsError.toNfsstat4 : FsError → NfsStat4
  | .ok => .ok
  | .permissionDenied => .perm
  | .notFound => .noent
  | .io => .io
  | .accessDenied => .access
  | .alreadyExists => .exist
  | .crossDevice => .xdev
  | .notDirectory => .notdir
  | .isDirectory => .isdir
  | .invalidInput => .inval
  | .fileTooLarge => .fbig
  | .noSpace => .nospc
  | .readOnly => .rofs
  | .nameTooLong => .nametoolong
  | .notEmpty => .notempty
  | .stale => .stale
  | .unsupported => .notsupp
  | .badHandle => .badhandle
  | .serverFault => .serverfault
  | .delay => .delay

/-- Only the error that says "success" is reported as success. -/
theorem FsError.toNfsstat4_eq_ok {e : FsError} : e.toNfsstat4 = .ok ↔ e = .ok := by
  cases e <;> simp [toNfsstat4]

inductive ObjectType where
  | file
  | directory
  | symlink
  deriving DecidableEq, Repr

/-- The attributes of a backend object that the modelled operations read. -/
structure Attrs where
  objectType : ObjectType
  change : U64
  size : U64
  deriving DecidableEq, Repr

structure Timestamp where
  seconds : BitVec 64
  nanos : U32
  deriving DecidableEq, Repr

inductive SetTime where
  | serverNow
  | client (time : Timestamp)
  deriving DecidableEq, Repr

/-- Partial attribute update request. -/
structure SetAttrs where
  size : Option U64 := none
  archive : Option Bool := none
  hidden : Option Bool := none
  mode : Option U32 := none
  uid : Option U32 := none
  gid : Option U32 := none
  system : Option Bool := none
  atime : Option SetTime := none
  mtime : Option SetTime := none
  birthtime : Option SetTime := none
  deriving DecidableEq, Repr

/-- `SetAttrs::is_empty`. -/
def SetAttrs.isEmpty (attrs : SetAttrs) : Bool := attrs = {}

inductive XattrSetMode where
  | createOrReplace
  | createOnly
  | replaceOnly
  deriving DecidableEq, Repr

/-- The server's file kinds. -/
inductive ServerFileType where
  | regular
  | directory
  | symlink
  | namedAttrDir
  | namedAttr
  deriving DecidableEq, Repr

/-- `ServerFileType::from_attrs`. -/
def ServerFileType.fromAttrs (attrs : Attrs) : ServerFileType :=
  match attrs.objectType with
  | .file => .regular
  | .directory => .directory
  | .symlink => .symlink

/-- The attributes of a server object that the modelled operations read. -/
structure ServerFileAttr where
  fileType : ServerFileType
  size : U64
  changeId : U64
  deriving DecidableEq, Repr

/-! ## Access masks and request context -/

abbrev AccessMask := U32

namespace AccessMask

def read : AccessMask := 1
def modify : AccessMask := 4
def extend : AccessMask := 8
def xattrRead : AccessMask := 64
def xattrWrite : AccessMask := 128
def xattrList : AccessMask := 256

/-- `AccessMask::contains`. -/
def contains (mask other : AccessMask) : Bool := mask &&& other = other

end AccessMask

inductive AuthContext where
  | none
  | sys (uid gid : U32) (supplementalGids : List U32)
  | unknown (flavor : U32)
  deriving DecidableEq, Repr

structure RequestContext where
  auth : AuthContext
  deriving DecidableEq, Repr

/-! ## The file system trait -/

inductive CreateKind where
  | file
  | directory
  deriving DecidableEq, Repr

inductive WriteStability where
  | unstable
  | dataSync
  | fileSync
  deriving DecidableEq, Repr

structure WriteResult where
  written : U32
  stability : WriteStability
  deriving DecidableEq, Repr

structure ReadResult where
  data : Bytes
  eof : Bool
  deriving DecidableEq, Repr

/-- `FsStats`. -/
structure FsStats where
  totalBytes : U64
  freeBytes : U64
  availBytes : U64
  totalFiles : U64
  freeFiles : U64
  availFiles : U64
  deriving DecidableEq, Repr

/-- `DirEntry`, with handles of the backend or object ids. -/
structure DirEntry (H : Type) where
  name : String
  handle : H
  cookie : U64
  attrs : Option Attrs
  deriving DecidableEq

/-- `DirPage`. -/
structure DirPage (H : Type) where
  entries : List (DirEntry H)
  eof : Bool
  deriving DecidableEq

/-- The calls the server makes to its backend, with the backend's own handles. -/
inductive BackendCall (H : Type) where
  | getattr (handle : H)
  | access (handle : H) (requested : AccessMask)
  | lookup (parent : H) (name : String)
  | statfs (handle : H)
  | readdir (dir : H) (cookie : U64) (maxEntries : U32) (withAttrs : Bool)
  | read (handle : H) (offset : U64) (count : U32)
  | write (handle : H) (offset : U64) (data : Bytes) (requested : WriteStability)
  | create (parent : H) (name : String) (kind : CreateKind) (attrs : SetAttrs)
  | remove (parent : H) (name : String)
  | rename (fromDir : H) (fromName : String) (toDir : H) (toName : String)
  | setattr (handle : H) (attrs : SetAttrs)
  | createSymlink (parent : H) (name target : String) (attrs : SetAttrs)
  | link (source parent : H) (name : String)
  | listXattrs (handle : H)
  | getXattr (handle : H) (name : String)
  | setXattr (handle : H) (name : String) (value : Bytes) (mode : XattrSetMode)
  | removeXattr (handle : H) (name : String)
  | onOpen (handle : H) (writeAccess : Bool)
  | onClose (handle : H) (lastWriter : Bool)
  | decodeHandle (bytes : Bytes)

/-- The type of a backend call's value. A created object's attributes, which the modelled
operations do not read, are left out. -/
@[reducible] def BackendCall.Val {H : Type} : BackendCall H → Type
  | .getattr _ => Attrs
  | .access _ _ => AccessMask
  | .lookup _ _ => H
  | .statfs _ => FsStats
  | .readdir _ _ _ _ => DirPage H
  | .read _ _ _ => ReadResult
  | .write _ _ _ _ => WriteResult
  | .create _ _ _ _ => H
  | .remove _ _ => Unit
  | .rename _ _ _ _ => Unit
  | .setattr _ _ => Attrs
  | .createSymlink _ _ _ _ => H
  | .link _ _ _ => Unit
  | .listXattrs _ => List String
  | .getXattr _ _ => Bytes
  | .setXattr _ _ _ _ => Unit
  | .removeXattr _ _ => Unit
  | .onOpen _ _ => Unit
  | .onClose _ _ => Unit
  | .decodeHandle _ => H

/-- The type of a backend call's result. -/
abbrev BackendCall.Ret {H : Type} (c : BackendCall H) : Type := Except FsError c.Val

/-- What the server knows of its backend without asking: its root, which optional parts it
has, its name limit, and the durable encoding of its handles. -/
structure Backend (H : Type) where
  root : H
  xattrs : Bool
  symlinks : Bool
  hardLinks : Bool
  openLifecycle : Bool
  maxNameBytes : U32
  /-- The codec of `persistent_handles`, if the backend has one. -/
  persistentHandles : Option (H → Option Bytes)

end EmbedNfs
