import EmbedNfs.Fs
import EmbedNfs.Lib.Table

/-!
# The in-memory file system

`memfs/`, the reference backend: a table of inodes and two counters. Every call runs under one
acquisition of the file system's lock, so it is one function of the state. A call may change the
state although it fails: it has taken an inode number by then. The two counters are 64 bits wide
and come round, a link count has 32 bits. The clock is read once in a call.
-/

namespace EmbedNfs.MemFs

abbrev InodeId := Nat

/-- What `fetch_add(1)` leaves in a 64-bit counter. -/
def fetchAdd (counter : Nat) : Nat := (counter + 1) % 2 ^ 64

theorem fetchAdd_of_lt {counter : Nat} (h : counter + 1 < 2 ^ 64) :
    fetchAdd counter = counter + 1 :=
  Nat.mod_eq_of_lt h

/-- `Attrs` of `fs.rs`, without the constant file system id. -/
structure InodeAttrs where
  objectType : ObjectType
  fileid : InodeId
  change : Nat
  size : U64
  spaceUsed : U64
  linkCount : Nat
  mode : U32
  uid : U32
  gid : U32
  atime : Timestamp
  mtime : Timestamp
  ctime : Timestamp
  birthtime : Timestamp
  archive : Bool
  hidden : Bool
  system : Bool
  hasNamedAttrs : Bool
  deriving DecidableEq, Repr

inductive InodeData where
  | file (data : Bytes)
  | directory (entries : Table String InodeId)
  | symlink (target : String)
  deriving DecidableEq

structure Inode where
  attrs : InodeAttrs
  parent : Option InodeId
  data : InodeData
  xattrs : Table String Bytes
  deriving DecidableEq

/-- `MemFs`. -/
structure State where
  inodes : Table InodeId Inode
  nextId : InodeId
  nextChange : Nat
  deriving DecidableEq

/-- `MAX_FILE_BYTES`. -/
def maxFileBytes : Nat := 64 * 1024 * 1024

/-- `Attrs::new`. -/
def InodeAttrs.new (now : Timestamp) (objectType : ObjectType) (fileid : InodeId) : InodeAttrs where
  objectType
  fileid
  change := max fileid 1
  size := 0
  spaceUsed := 0
  linkCount :=
    match objectType with
    | .directory => 2
    | _ => 1
  mode :=
    match objectType with
    | .directory => 0o755
    | .file => 0o644
    | .symlink => 0o777
  uid := 0
  gid := 0
  atime := now
  mtime := now
  ctime := now
  birthtime := now
  archive := false
  hidden := false
  system := false
  hasNamedAttrs := false

/-- The number of the root. -/
def rootId : InodeId := 1

/-- `MemFs::new`. -/
def State.new (now : Timestamp) : State where
  inodes := Table.empty.insert rootId
    { attrs := { InodeAttrs.new now .directory rootId with mode := 0o777 }
      parent := none
      data := .directory .empty
      xattrs := .empty }
  nextId := 2
  nextChange := 2

/-- The entries of a directory. -/
def Inode.entries? (inode : Inode) : Option (Table String InodeId) :=
  match inode.data with
  | .directory entries => some entries
  | _ => none

/-! ## Helpers -/

/-- `checked_file_len`. -/
def checkedFileLen (len : Nat) : Except FsError Nat :=
  if maxFileBytes < len then .error .fileTooLarge else .ok len

/-- `checked_write_range`. -/
def checkedWriteRange (offset : U64) (len : Nat) : Except FsError (Nat × Nat) := do
  if 2 ^ 64 ≤ offset.toNat + len then throw .fileTooLarge
  return (← checkedFileLen offset.toNat, ← checkedFileLen (offset.toNat + len))

/-- `Vec::resize` with zeros. -/
def resize (data : Bytes) (len : Nat) : Bytes :=
  data.take len ++ List.replicate (len - data.length) 0

/-- `touch_change`, with the value that `next_change` has returned. -/
def InodeAttrs.touchChange (attrs : InodeAttrs) (now : Timestamp) (change : Nat) : InodeAttrs :=
  { attrs with change, ctime := now }

/-- `touch_data_change`. -/
def InodeAttrs.touchDataChange (attrs : InodeAttrs) (now : Timestamp) (change : Nat) :
    InodeAttrs :=
  { attrs with change, mtime := now, ctime := now }

/-- `touch_change` and the modification time, as every change of a directory does. -/
def InodeAttrs.touchDirectory (attrs : InodeAttrs) (now : Timestamp) (change : Nat) :
    InodeAttrs :=
  { attrs.touchChange now change with mtime := now }

/-- `apply_set_time`. -/
def applySetTime (now : Timestamp) : SetTime → Timestamp
  | .serverNow => now
  | .client time => time

/-- `apply_create_owner`. -/
def InodeAttrs.applyCreateOwner (attrs : InodeAttrs) (ctx : RequestContext) : InodeAttrs :=
  match ctx.auth with
  | .sys uid gid _ => { attrs with uid, gid }
  | _ => attrs

/-- The attributes that `apply_setattrs` writes besides the size and the times it sets itself. -/
def InodeAttrs.update (attrs : InodeAttrs) (now : Timestamp) (set : SetAttrs) : InodeAttrs :=
  { attrs with
    mode := (set.mode.map (· &&& 0o7777)).getD attrs.mode
    uid := set.uid.getD attrs.uid
    gid := set.gid.getD attrs.gid
    archive := set.archive.getD attrs.archive
    hidden := set.hidden.getD attrs.hidden
    system := set.system.getD attrs.system
    atime := (set.atime.map (applySetTime now)).getD attrs.atime
    mtime := (set.mtime.map (applySetTime now)).getD attrs.mtime
    birthtime := (set.birthtime.map (applySetTime now)).getD attrs.birthtime }

/-- The size part of `apply_setattrs`. -/
def Inode.applySize (inode : Inode) : Option U64 → Except FsError Inode
  | none => .ok inode
  | some size =>
    match inode.data with
    | .file data =>
      match checkedFileLen size.toNat with
      | .error e => .error e
      | .ok len =>
        .ok { inode with
          data := .file (resize data len)
          attrs.size := size
          attrs.spaceUsed := size }
    | _ => .error .invalidInput

/-- `apply_setattrs`: the inode, and the counter of change values. -/
def applySetattrs (now : Timestamp) (inode : Inode) (set : SetAttrs) (nextChange : Nat) :
    Except FsError (Inode × Nat) :=
  match inode.applySize set.size with
  | .error e => .error e
  | .ok inode =>
    if set.isEmpty then .ok (inode, nextChange)
    else
      let attrs := inode.attrs.update now set
      let mtime := if set.size.isSome ∧ set.mtime.isNone then now else attrs.mtime
      .ok ({ inode with attrs := { attrs with change := nextChange, ctime := now, mtime } },
        fetchAdd nextChange)

/-! ## Link counts -/

/-- Add one to the link count of an inode. -/
def addLink (inodes : Table InodeId Inode) (id : InodeId) : Table InodeId Inode :=
  inodes.modify id fun inode =>
    { inode with attrs.linkCount := (inode.attrs.linkCount + 1) % 2 ^ 32 }

/-- What one entry of a directory adds: to the directory for a subdirectory, else to the child. -/
def countEntry (dir : InodeId) (inodes : Table InodeId Inode) (child : InodeId) :
    Table InodeId Inode :=
  match inodes.get child with
  | none => inodes
  | some inode =>
    match inode.attrs.objectType with
    | .directory => addLink inodes dir
    | _ => addLink inodes child

/-- What the entries of one directory add. -/
def countEntries (inodes : Table InodeId Inode) (dir : InodeId) : Table InodeId Inode :=
  match (inodes.get dir).bind Inode.entries? with
  | none => inodes
  | some entries => entries.values.foldl (countEntry dir) inodes

/-- The link count from which `recompute_link_counts` starts. -/
def baseLinkCount : ObjectType → Nat
  | .directory => 2
  | _ => 0

/-- `recompute_link_counts`. -/
def recomputeLinkCounts (inodes : Table InodeId Inode) : Table InodeId Inode :=
  let reset := inodes.mapValues fun _ inode =>
    { inode with attrs.linkCount := baseLinkCount inode.attrs.objectType }
  let directoryIds := reset.keysWhere fun _ inode => inode.entries?.isSome
  directoryIds.foldl countEntries reset

/-- Whether some directory has an entry for the inode. -/
def isLinked (inodes : Table InodeId Inode) (id : InodeId) : Bool :=
  inodes.any fun _ inode => inode.entries?.any fun entries => entries.any fun _ child => child = id

/-- `remove_if_unlinked`. -/
def removeIfUnlinked (inodes : Table InodeId Inode) (id : InodeId) : Table InodeId Inode :=
  match inodes.get id with
  | none => inodes
  | some inode =>
    match inode.attrs.objectType with
    | .directory => inodes.erase id
    | _ => if isLinked inodes id then inodes else inodes.erase id

/-- The parent to which `directory_descends_from` goes on. -/
def parentDirectory (inodes : Table InodeId Inode) (id : InodeId) : Option InodeId :=
  (inodes.get id).bind fun inode =>
    match inode.attrs.objectType with
    | .directory => inode.parent
    | _ => none

/-- The loop of `directory_descends_from`. -/
def descendsLoop (inodes : Table InodeId Inode) (ancestor : InodeId) : Nat → Option InodeId → Bool
  | _, none => false
  | 0, some id => id = ancestor
  | remaining + 1, some id =>
    id = ancestor ∨ descendsLoop inodes ancestor remaining (parentDirectory inodes id)

/-- `directory_descends_from`. -/
def directoryDescendsFrom (inodes : Table InodeId Inode) (descendant ancestor : InodeId) : Bool :=
  descendsLoop inodes ancestor inodes.entries.length (some descendant)

end EmbedNfs.MemFs
