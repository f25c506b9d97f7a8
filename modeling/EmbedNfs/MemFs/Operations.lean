import Mathlib.Data.List.Sort
import EmbedNfs.MemFs.Model

/-!
# The calls of the in-memory file system

`memfs/core.rs`, `memfs/hardlinks.rs`, `memfs/symlinks.rs` and `memfs/xattrs.rs`. A call answers
and leaves a state.
-/

namespace EmbedNfs.MemFs

namespace State

/-- A call that fails without having changed anything. -/
def fail {α : Type} (s : State) (e : FsError) : Except FsError α × State := (.error e, s)

/-- Rewrite an inode. -/
def modify (s : State) (id : InodeId) (f : Inode → Inode) : State :=
  { s with inodes := s.inodes.modify id f }

/-- Rewrite the entries of a directory and touch it. -/
def changeDirectory (s : State) (now : Timestamp) (dir : InodeId)
    (f : Table String InodeId → Table String InodeId) : State :=
  { s.modify dir fun inode =>
      { inode with
        data :=
          match inode.data with
          | .directory entries => .directory (f entries)
          | data => data
        attrs := inode.attrs.touchDirectory now s.nextChange } with
    nextChange := fetchAdd s.nextChange }

/-- `recompute_link_counts`. -/
def recount (s : State) : State := { s with inodes := recomputeLinkCounts s.inodes }

/-- Enter a new inode under a name, as `create` and `create_symlink` do before they count. -/
def enter (s : State) (now : Timestamp) (parent : InodeId) (name : String) (id : InodeId)
    (inode : Inode) : State :=
  let s := s.changeDirectory now parent fun entries => entries.insert name id
  { s with inodes := s.inodes.insert id inode }

/-! ## Data and attributes -/

/-- `write`. -/
def write (s : State) (now : Timestamp) (handle : InodeId) (offset : U64) (data : Bytes) :
    Except FsError WriteResult × State :=
  match s.inodes.get handle with
  | none => s.fail .stale
  | some inode =>
    match inode.data with
    | .file file =>
      match checkedWriteRange offset data.length with
      | .error e => s.fail e
      | .ok (start, stop) =>
        let file := if file.length < stop then resize file stop else file
        let file := file.take start ++ data ++ file.drop stop
        let size := BitVec.ofNat 64 file.length
        let attrs := { inode.attrs with size, spaceUsed := size }
        (.ok ⟨BitVec.ofNat 32 data.length, .fileSync⟩,
          { s.modify handle fun inode =>
              { inode with
                data := .file file
                attrs := attrs.touchDataChange now s.nextChange } with
            nextChange := fetchAdd s.nextChange })
    | _ => s.fail .invalidInput

/-- `setattr`. -/
def setattr (s : State) (now : Timestamp) (handle : InodeId) (set : SetAttrs) :
    Except FsError InodeAttrs × State :=
  match s.inodes.get handle with
  | none => s.fail .stale
  | some inode =>
    match applySetattrs now inode set s.nextChange with
    | .error e => s.fail e
    | .ok (inode, nextChange) =>
      (.ok inode.attrs, { s.modify handle fun _ => inode with nextChange })

/-! ## Entries -/

/-- `create`. -/
def create (s : State) (now : Timestamp) (ctx : RequestContext) (parent : InodeId) (name : String)
    (kind : CreateKind) (set : SetAttrs) : Except FsError (InodeId × InodeAttrs) × State :=
  let id := s.nextId
  let s := { s with nextId := fetchAdd s.nextId }
  match s.inodes.get parent with
  | none => s.fail .stale
  | some dir =>
    if dir.attrs.objectType ≠ .directory then s.fail .notDirectory
    else if (dir.entries?.bind (·.get name)).isSome then s.fail .alreadyExists
    else
      let attrs := InodeAttrs.new now
        (match kind with
        | .file => .file
        | .directory => .directory) id
      let inode : Inode :=
        { attrs := attrs.applyCreateOwner ctx
          parent := some parent
          data :=
            match kind with
            | .file => .file []
            | .directory => .directory .empty
          xattrs := .empty }
      match applySetattrs now inode set s.nextChange with
      | .error e => s.fail e
      | .ok (inode, nextChange) =>
        let s := { s with nextChange }
        -- The directory is a directory by its data as well.
        if dir.entries?.isNone then s.fail .notDirectory
        else
          let s := (s.enter now parent name id inode).recount
          match s.inodes.get id with
          | none => s.fail .serverFault
          | some inode => (.ok (id, inode.attrs), s)

/-- `create_symlink`. -/
def createSymlink (s : State) (now : Timestamp) (ctx : RequestContext) (parent : InodeId)
    (name target : String) (set : SetAttrs) : Except FsError (InodeId × InodeAttrs) × State :=
  let id := s.nextId
  let s := { s with nextId := fetchAdd s.nextId }
  match s.inodes.get parent with
  | none => s.fail .stale
  | some dir =>
    match dir.entries? with
    | none => s.fail .notDirectory
    | some entries =>
      if (entries.get name).isSome then s.fail .alreadyExists
      else
        let size := BitVec.ofNat 64 target.utf8ByteSize
        let attrs := (InodeAttrs.new now .symlink id).applyCreateOwner ctx
        let inode : Inode :=
          { attrs := { attrs with size, spaceUsed := size }
            parent := some parent
            data := .symlink target
            xattrs := .empty }
        match applySetattrs now inode set s.nextChange with
        | .error e => s.fail e
        | .ok (inode, nextChange) =>
          let inode := { inode with attrs := { inode.attrs with size, spaceUsed := size } }
          let s := ({ s with nextChange }.enter now parent name id inode).recount
          match s.inodes.get id with
          | none => s.fail .serverFault
          | some inode => (.ok (id, inode.attrs), s)

/-- `link`. -/
def link (s : State) (now : Timestamp) (source parent : InodeId) (name : String) :
    Except FsError Unit × State :=
  match s.inodes.get source with
  | none => s.fail .stale
  | some inode =>
    if inode.attrs.objectType = .directory then s.fail .isDirectory
    else
      match s.inodes.get parent with
      | none => s.fail .stale
      | some dir =>
        match dir.entries? with
        | none => s.fail .notDirectory
        | some entries =>
          if (entries.get name).isSome then s.fail .alreadyExists
          else (.ok (), (s.changeDirectory now parent (·.insert name source)).recount)

/-- `remove_if_unlinked` on the inode that an entry named, if there was such an entry. -/
def dropReplaced (s : State) : Option InodeId → State
  | none => s
  | some id => { s with inodes := removeIfUnlinked s.inodes id }

/-- `remove`. -/
def remove (s : State) (now : Timestamp) (parent : InodeId) (name : String) :
    Except FsError Unit × State :=
  match s.inodes.get parent with
  | none => s.fail .stale
  | some dir =>
    match dir.entries? with
    | none => s.fail .notDirectory
    | some entries =>
      match entries.get name with
      | none => s.fail .notFound
      | some child =>
        let childEntries := (s.inodes.get child).bind Inode.entries?
        if childEntries.any fun entries => !entries.entries.isEmpty then s.fail .notEmpty
        else
          let s := s.changeDirectory now parent (·.erase name)
          (.ok (), (s.dropReplaced (some child)).recount)

/-- The check that `rename` makes of an entry that it replaces. -/
def checkReplaced (s : State) (childType : ObjectType) : Option InodeId → Except FsError Unit
  | none => .ok ()
  | some replaced =>
    match s.inodes.get replaced with
    | none => .error .stale
    | some inode =>
      match childType, inode.attrs.objectType with
      | .directory, .directory =>
        if inode.entries?.any fun entries => !entries.entries.isEmpty then .error .notEmpty
        else .ok ()
      | .directory, _ => .error .notDirectory
      | _, .directory => .error .isDirectory
      | _, _ => .ok ()

/-- The part of `rename` that moves the entry. -/
def moveEntry (s : State) (now : Timestamp) (fromDir : InodeId) (fromName : String)
    (toDir : InodeId) (toName : String) (child : InodeId) : State :=
  if fromDir = toDir then
    s.changeDirectory now fromDir fun entries => (entries.erase fromName).insert toName child
  else
    (s.changeDirectory now fromDir (·.erase fromName)).changeDirectory now toDir
      (·.insert toName child)

/-- The part of `rename` that updates the parent of a directory. -/
def moveParent (s : State) (fromDir toDir child : InodeId) : State :=
  s.modify child fun inode =>
    if inode.attrs.objectType = .directory ∧ fromDir ≠ toDir then
      { inode with parent := some toDir }
    else inode

/-- `rename`. -/
def rename (s : State) (now : Timestamp) (fromDir : InodeId) (fromName : String)
    (toDir : InodeId) (toName : String) : Except FsError Unit × State :=
  match s.inodes.get fromDir with
  | none => s.fail .stale
  | some source =>
    match source.entries? with
    | none => s.fail .notDirectory
    | some entries =>
      match entries.get fromName with
      | none => s.fail .notFound
      | some child =>
        match s.inodes.get child with
        | none => s.fail .stale
        | some inode =>
          if inode.attrs.objectType = .directory ∧ directoryDescendsFrom s.inodes toDir child then
            s.fail .invalidInput
          else
            match s.inodes.get toDir with
            | none => s.fail .stale
            | some target =>
              match target.entries? with
              | none => s.fail .notDirectory
              | some entries =>
                let replaced := entries.get toName
                if replaced = some child then (.ok (), s)
                else
                  match s.checkReplaced inode.attrs.objectType replaced with
                  | .error e => s.fail e
                  | .ok () =>
                    let s := s.moveEntry now fromDir fromName toDir toName child
                    let s := s.moveParent fromDir toDir child
                    (.ok (), (s.dropReplaced replaced).recount)

/-! ## Extended attributes -/

/-- `set_xattr`. -/
def setXattr (s : State) (now : Timestamp) (handle : InodeId) (name : String) (value : Bytes)
    (mode : XattrSetMode) : Except FsError Unit × State :=
  match s.inodes.get handle with
  | none => s.fail .stale
  | some inode =>
    let found := (inode.xattrs.get name).isSome
    if mode = .createOnly ∧ found then s.fail .alreadyExists
    else if mode = .replaceOnly ∧ !found then s.fail .notFound
    else
      let xattrs := inode.xattrs.insert name value
      let attrs := { inode.attrs with hasNamedAttrs := !xattrs.entries.isEmpty }
      (.ok (), { s.modify handle fun inode =>
          { inode with xattrs, attrs := attrs.touchDataChange now s.nextChange } with
        nextChange := fetchAdd s.nextChange })

/-- `remove_xattr`. -/
def removeXattr (s : State) (now : Timestamp) (handle : InodeId) (name : String) :
    Except FsError Unit × State :=
  match s.inodes.get handle with
  | none => s.fail .stale
  | some inode =>
    if (inode.xattrs.get name).isNone then s.fail .notFound
    else
      let xattrs := inode.xattrs.erase name
      let attrs := { inode.attrs with hasNamedAttrs := !xattrs.entries.isEmpty }
      (.ok (), { s.modify handle fun inode =>
          { inode with xattrs, attrs := attrs.touchChange now s.nextChange } with
        nextChange := fetchAdd s.nextChange })

/-! ## Listing -/

/-- The entries of a directory by their names. -/
def sortedEntries (entries : Table String InodeId) : List (String × InodeId) :=
  entries.entries.insertionSort fun a b => a.1 ≤ b.1

/-- The attributes of an inode as far as the server reads them. -/
def attrsOf (s : State) (id : InodeId) : Option Attrs :=
  (s.inodes.get id).map fun inode =>
    ⟨inode.attrs.objectType, BitVec.ofNat 64 inode.attrs.change, inode.attrs.size⟩

/-- `readdir`. -/
def readdir (s : State) (dir : InodeId) (cookie : U64) (maxEntries : U32) (withAttrs : Bool) :
    Except FsError (DirPage InodeId) :=
  match s.inodes.get dir with
  | none => .error .stale
  | some inode =>
    match inode.entries? with
    | none => .error .notDirectory
    | some entries =>
      let start := if cookie = 0 then 0 else cookie.toNat - 2
      let limit := if maxEntries = 0 then 2 ^ 64 - 1 else maxEntries.toNat
      let listed := ((sortedEntries entries).drop start).take limit
      if listed.any fun entry => (s.inodes.get entry.2).isNone then .error .stale
      else
        .ok
          { entries := listed.zipIdx.map fun (entry, idx) =>
              { name := entry.1
                handle := entry.2
                cookie := BitVec.ofNat 64 (start + idx + 3)
                attrs := if withAttrs then s.attrsOf entry.2 else none }
            eof := entries.entries.length ≤ start + listed.length }

end State

/-! ## Runs -/

/-- The calls that can change the file system. -/
inductive Op where
  | create (ctx : RequestContext) (parent : InodeId) (name : String) (kind : CreateKind)
      (set : SetAttrs)
  | createSymlink (ctx : RequestContext) (parent : InodeId) (name target : String)
      (set : SetAttrs)
  | link (source parent : InodeId) (name : String)
  | remove (parent : InodeId) (name : String)
  | rename (fromDir : InodeId) (fromName : String) (toDir : InodeId) (toName : String)
  | write (handle : InodeId) (offset : U64) (data : Bytes)
  | setattr (handle : InodeId) (set : SetAttrs)
  | setXattr (handle : InodeId) (name : String) (value : Bytes) (mode : XattrSetMode)
  | removeXattr (handle : InodeId) (name : String)

/-- The state after a call, whether it succeeds or fails. -/
def State.step (s : State) (now : Timestamp) : Op → State
  | .create ctx parent name kind set => (s.create now ctx parent name kind set).2
  | .createSymlink ctx parent name target set => (s.createSymlink now ctx parent name target set).2
  | .link source parent name => (s.link now source parent name).2
  | .remove parent name => (s.remove now parent name).2
  | .rename fromDir fromName toDir toName => (s.rename now fromDir fromName toDir toName).2
  | .write handle offset data => (s.write now handle offset data).2
  | .setattr handle set => (s.setattr now handle set).2
  | .setXattr handle name value mode => (s.setXattr now handle name value mode).2
  | .removeXattr handle name => (s.removeXattr now handle name).2

/-- The state after a sequence of calls. -/
def State.run (s : State) (calls : List (Timestamp × Op)) : State :=
  calls.foldl (fun s call => s.step call.1 call.2) s

end EmbedNfs.MemFs
