import EmbedNfs.Lib.Directory
import EmbedNfs.MemFs.Effects
import EmbedNfs.MemFs.LinkCounts

/-!
# The tree of the in-memory file system

`shape` reads the inodes as a graph of named entries. A call changes the graph in one of the
four ways that keep a tree a tree; the bounded walk of `directory_descends_from` looks far enough
because the directories on the way to the root are different inodes.
-/

namespace EmbedNfs.MemFs

/-- The inodes as a graph of named entries. -/
def shape (inodes : Table InodeId Inode) : Graph InodeId String where
  present := {id | (inodes.get id).isSome = true}
  dirs := {id | isDirectory inodes id = true}
  child dir name := ((inodes.get dir).bind Inode.entries?).bind (·.get name)
  parent := parentDirectory inodes

/-- The inodes with entries are the directories. -/
def Typed (inodes : Table InodeId Inode) : Prop :=
  ∀ id inode, inodes.get id = some inode →
    (inode.entries?.isSome = true ↔ inode.attrs.objectType = .directory)

/-- The entries form a tree, and the link counts are right. -/
structure WellFormed (s : State) : Prop where
  typed : Typed s.inodes
  tree : (shape s.inodes).IsTree rootId
  counted : LinksCounted s.inodes

/-- A well-formed file system whose inodes have numbers from a set. -/
structure Confined (ids : Set InodeId) (s : State) : Prop extends WellFormed s where
  within : ∀ id ∈ (shape s.inodes).present, id ∈ ids

theorem mem_dirs {inodes : Table InodeId Inode} {id : InodeId} :
    id ∈ (shape inodes).dirs ↔
      ∃ inode, inodes.get id = some inode ∧ inode.attrs.objectType = .directory := by
  simp only [shape, isDirectory, Set.mem_ofPred_eq]
  cases inodes.get id <;> simp

theorem mem_present {inodes : Table InodeId Inode} {id : InodeId} :
    id ∈ (shape inodes).present ↔ ∃ inode, inodes.get id = some inode := by
  simp [shape, Option.isSome_iff_exists]

theorem child_eq_some {inodes : Table InodeId Inode} {dir child : InodeId} {name : String} :
    (shape inodes).child dir name = some child ↔
      ∃ inode entries, inodes.get dir = some inode ∧ inode.entries? = some entries ∧
        entries.get name = some child := by
  simp only [shape, Option.bind_eq_some_iff]
  constructor
  · rintro ⟨entries, ⟨inode, hget, hentries⟩, hname⟩
    exact ⟨inode, entries, hget, hentries, hname⟩
  · rintro ⟨inode, entries, hget, hentries, hname⟩
    exact ⟨entries, ⟨inode, hget, hentries⟩, hname⟩

theorem child_of_get {inodes : Table InodeId Inode} {dir : InodeId} {inode : Inode}
    {entries : Table String InodeId} (hget : inodes.get dir = some inode)
    (hentries : inode.entries? = some entries) (name : String) :
    (shape inodes).child dir name = entries.get name := by
  simp [shape, hget, hentries]

theorem Typed.dir {inodes : Table InodeId Inode} (h : Typed inodes) {dir : InodeId}
    {inode : Inode} {entries : Table String InodeId} (hget : inodes.get dir = some inode)
    (hentries : inode.entries? = some entries) : dir ∈ (shape inodes).dirs :=
  mem_dirs.mpr ⟨inode, hget, (h dir inode hget).mp (by simp [hentries])⟩

theorem Typed.child_eq_none {inodes : Table InodeId Inode} (h : Typed inodes) {id : InodeId}
    (hfile : id ∉ (shape inodes).dirs) (name : String) : (shape inodes).child id name = none := by
  rw [Option.eq_none_iff_forall_ne_some]
  intro child hchild
  obtain ⟨inode, entries, hget, hentries, -⟩ := child_eq_some.mp hchild
  exact hfile (h.dir hget hentries)

theorem parent_eq_none {inodes : Table InodeId Inode} {id : InodeId}
    (hfile : id ∉ (shape inodes).dirs) : (shape inodes).parent id = none := by
  simp only [shape, parentDirectory]
  cases hget : inodes.get id with
  | none => rfl
  | some inode =>
    have hne : inode.attrs.objectType ≠ .directory := fun h => hfile (mem_dirs.mpr ⟨inode, hget, h⟩)
    cases htype : inode.attrs.objectType with
    | directory => exact absurd htype hne
    | file => simp [htype]
    | symlink => simp [htype]

theorem parent_of_get {inodes : Table InodeId Inode} {id : InodeId} {inode : Inode}
    (hget : inodes.get id = some inode) (hdir : inode.attrs.objectType = .directory) :
    (shape inodes).parent id = inode.parent := by
  simp [shape, parentDirectory, hget, hdir]

/-! ## Changes that leave the tree alone -/

section MapValues

variable {f : InodeId → Inode → Inode} {inodes : Table InodeId Inode}
  (htype : ∀ id inode, inodes.get id = some inode →
    (f id inode).attrs.objectType = inode.attrs.objectType)
  (hentries : ∀ id inode, inodes.get id = some inode → (f id inode).entries? = inode.entries?)

include htype in
theorem dirs_mapValues : (shape (inodes.mapValues f)).dirs = (shape inodes).dirs := by
  ext id
  simp only [mem_dirs, Table.get_mapValues, Option.map_eq_some_iff]
  constructor
  · rintro ⟨_, ⟨inode, hget, rfl⟩, hdir⟩
    exact ⟨inode, hget, (htype id inode hget).symm.trans hdir⟩
  · rintro ⟨inode, hget, hdir⟩
    exact ⟨_, ⟨inode, hget, rfl⟩, (htype id inode hget).trans hdir⟩

theorem present_mapValues : (shape (inodes.mapValues f)).present = (shape inodes).present := by
  ext id
  simp [shape]

include htype in
theorem parent_mapValues (hparent : ∀ id inode, inodes.get id = some inode →
    (f id inode).parent = inode.parent) :
    (shape (inodes.mapValues f)).parent = (shape inodes).parent := by
  funext id
  simp only [shape, parentDirectory, Table.get_mapValues]
  cases hget : inodes.get id with
  | none => rfl
  | some inode => simp [htype id inode hget, hparent id inode hget]

include hentries in
theorem child_mapValues : (shape (inodes.mapValues f)).child = (shape inodes).child := by
  funext dir name
  simp only [shape, Table.get_mapValues]
  cases hget : inodes.get dir with
  | none => rfl
  | some inode => simp [hentries dir inode hget]

include htype hentries in
theorem shape_mapValues (hparent : ∀ id inode, inodes.get id = some inode →
    (f id inode).parent = inode.parent) : shape (inodes.mapValues f) = shape inodes :=
  Graph.ext_fields present_mapValues (dirs_mapValues htype) (child_mapValues hentries)
    (parent_mapValues htype hparent)

include htype hentries in
theorem Typed.mapValues (h : Typed inodes) : Typed (inodes.mapValues f) := by
  intro id inode hget
  rw [Table.get_mapValues] at hget
  obtain ⟨old, hold, rfl⟩ := Option.map_eq_some_iff.mp hget
  rw [htype id old hold, hentries id old hold]
  exact h id old hold

end MapValues

theorem shape_recompute {inodes : Table InodeId Inode} (h : Typed inodes) :
    shape (recomputeLinkCounts inodes) = shape inodes := by
  rw [recomputeLinkCounts_eq fun id inode hget => (h id inode hget).mp]
  exact shape_mapValues (fun _ _ _ => rfl) (fun _ _ _ => rfl) fun _ _ _ => rfl

theorem Typed.recompute {inodes : Table InodeId Inode} (h : Typed inodes) :
    Typed (recomputeLinkCounts inodes) := by
  rw [recomputeLinkCounts_eq fun id inode hget => (h id inode hget).mp]
  exact h.mapValues (fun _ _ _ => rfl) fun _ _ _ => rfl

/-! ## Changes of the entries of one directory -/

section ChangeDirectory

variable {s : State} {now : Timestamp} {dir : InodeId} {inode : Inode}
  {entries : Table String InodeId} {f : Table String InodeId → Table String InodeId}

theorem changeDirectory_entries (now : Timestamp)
    (f : Table String InodeId → Table String InodeId) (hget : s.inodes.get dir = some inode)
    (hentries : inode.entries? = some entries) :
    ∃ inode', (s.changeDirectory now dir f).inodes.get dir = some inode' ∧
      inode'.entries? = some (f entries) ∧
      inode'.attrs.objectType = inode.attrs.objectType ∧ inode'.parent = inode.parent := by
  have hdata : inode.data = .directory entries := by
    unfold Inode.entries? at hentries
    split at hentries
    · rename_i hdata
      cases hentries
      exact hdata
    · cases hentries
  refine ⟨_, Table.get_modify_self hget _, ?_, rfl, rfl⟩
  simp [Inode.entries?, hdata]

theorem changeDirectory_ne {id : InodeId} (hne : id ≠ dir) :
    (s.changeDirectory now dir f).inodes.get id = s.inodes.get id := by
  simp [State.changeDirectory, State.modify, hne]

theorem shape_changeDirectory (hget : s.inodes.get dir = some inode)
    (hentries : inode.entries? = some entries) :
    shape (s.changeDirectory now dir f).inodes =
      (shape s.inodes).withChild fun d n =>
        if d = dir then (f entries).get n else (shape s.inodes).child d n := by
  refine Graph.ext_fields present_mapValues (dirs_mapValues ?_) ?_ (parent_mapValues ?_ ?_)
  · intro id old _
    split <;> rfl
  · funext d n
    by_cases hd : d = dir
    · subst hd
      obtain ⟨inode', hget', hentries', -⟩ :=
        changeDirectory_entries now f hget hentries
      dsimp only [Graph.withChild]
      rw [if_pos rfl]
      exact child_of_get hget' hentries' n
    · dsimp only [Graph.withChild]
      rw [if_neg hd]
      simp only [shape, changeDirectory_ne hd]
  · intro id old _
    split <;> rfl
  · intro id old _
    split <;> rfl

theorem Typed.changeDirectory (h : Typed s.inodes) :
    Typed (s.changeDirectory now dir f).inodes := by
  intro id inode' hget'
  simp only [State.changeDirectory, State.modify, Table.get_modify] at hget'
  split at hget'
  · obtain ⟨old, hold, rfl⟩ := Option.map_eq_some_iff.mp hget'
    have := h id old hold
    unfold Inode.entries? at this ⊢
    cases hdata : old.data <;> simp_all [InodeAttrs.touchDirectory, InodeAttrs.touchChange]
  · exact h id inode' hget'

end ChangeDirectory

end EmbedNfs.MemFs
