import Mathlib.Algebra.BigOperators.Group.List.Lemmas
import EmbedNfs.MemFs.Model

/-!
# Link counts

`recompute_link_counts` sets every count anew: two and the number of subdirectories for a
directory, and the number of entries that name it for anything else
(`get_recomputeLinkCounts`). The loops of the source add to the counts in place; `addLinks` says
what has been added so far as one function of the inode.
-/

namespace EmbedNfs.MemFs

/-- Whether the inode is there and is a directory. -/
def isDirectory (inodes : Table InodeId Inode) (id : InodeId) : Bool :=
  (inodes.get id).any fun inode => inode.attrs.objectType = .directory

/-- The inodes that a directory names, once for each entry. -/
def Inode.children (inode : Inode) : List InodeId := inode.entries?.elim [] Table.values

/-- The number of directories among the entries of an inode. -/
def subdirectories (inodes : Table InodeId Inode) (id : InodeId) : Nat :=
  ((inodes.get id).elim [] Inode.children).countP (isDirectory inodes)

/-- The number of entries that name an inode. -/
def entriesNaming (inodes : Table InodeId Inode) (id : InodeId) : Nat :=
  (inodes.values.map fun inode => inode.children.count id).sum

/-- The link count that an inode of a type has to have. -/
def expectedLinkCount (inodes : Table InodeId Inode) (id : InodeId) : ObjectType → Nat
  | .directory => 2 + subdirectories inodes id
  | _ => entriesNaming inodes id

/-- Every link count is the number it has to be, as far as 32 bits hold it. -/
def LinksCounted (inodes : Table InodeId Inode) : Prop :=
  ∀ id inode, inodes.get id = some inode →
    inode.attrs.linkCount = expectedLinkCount inodes id inode.attrs.objectType % 2 ^ 32

/-! ## What the loops add -/

/-- Add to every link count. -/
def addLinks (f : InodeId → Nat) (inodes : Table InodeId Inode) : Table InodeId Inode :=
  inodes.mapValues fun id inode =>
    { inode with attrs.linkCount := (inode.attrs.linkCount + f id) % 2 ^ 32 }

theorem addLink_addLinks (f : InodeId → Nat) (inodes : Table InodeId Inode) (id : InodeId) :
    addLink (addLinks f inodes) id =
      addLinks (fun x => f x + if x = id then 1 else 0) inodes := by
  apply Table.ext_entries
  simp only [addLink, addLinks, Table.modify, Table.mapValues, List.map_map]
  refine List.map_congr_left fun e _ => ?_
  by_cases h : e.1 = id
  · simp [h, Nat.add_assoc]
  · simp [h]

/-- What one entry of a directory adds to the link count of an inode. -/
def entryAdds (inodes : Table InodeId Inode) (dir child id : InodeId) : Nat :=
  match inodes.get child with
  | none => 0
  | some inode =>
    match inode.attrs.objectType with
    | .directory => if id = dir then 1 else 0
    | _ => if id = child then 1 else 0

theorem countEntry_addLinks (f : InodeId → Nat) (inodes : Table InodeId Inode)
    (dir child : InodeId) :
    countEntry dir (addLinks f inodes) child =
      addLinks (fun x => f x + entryAdds inodes dir child x) inodes := by
  unfold countEntry entryAdds
  cases h : inodes.get child with
  | none => simp [addLinks, h]
  | some inode =>
    have hget : (addLinks f inodes).get child =
        some { inode with attrs.linkCount := (inode.attrs.linkCount + f child) % 2 ^ 32 } := by
      simp [addLinks, h]
    rw [hget]
    cases htype : inode.attrs.objectType <;> simp [addLink_addLinks, htype]

theorem foldl_countEntry (inodes : Table InodeId Inode) (dir : InodeId) (children : List InodeId)
    (f : InodeId → Nat) :
    children.foldl (countEntry dir) (addLinks f inodes) =
      addLinks (fun x => f x + (children.map fun child => entryAdds inodes dir child x).sum)
        inodes := by
  induction children generalizing f with
  | nil => simp
  | cons child children ih =>
    rw [List.foldl_cons, countEntry_addLinks, ih]
    simp [Nat.add_assoc]

/-- What the entries of a directory add to the link count of an inode. -/
def directoryAdds (inodes : Table InodeId Inode) (dir id : InodeId) : Nat :=
  (((inodes.get dir).elim [] Inode.children).map fun child => entryAdds inodes dir child id).sum

theorem countEntries_addLinks (f : InodeId → Nat) (inodes : Table InodeId Inode)
    (dir : InodeId) :
    countEntries (addLinks f inodes) dir =
      addLinks (fun x => f x + directoryAdds inodes dir x) inodes := by
  have hentries : ((addLinks f inodes).get dir).bind Inode.entries? =
      (inodes.get dir).bind Inode.entries? := by
    simp only [addLinks, Table.get_mapValues]
    cases inodes.get dir <;> rfl
  unfold countEntries directoryAdds
  rw [hentries]
  cases hdir : inodes.get dir with
  | none => simp
  | some inode =>
    cases hchildren : inode.entries? with
    | none => simp [Inode.children, hchildren]
    | some entries => simp [Inode.children, hchildren, foldl_countEntry]

theorem foldl_countEntries (inodes : Table InodeId Inode) (dirs : List InodeId)
    (f : InodeId → Nat) :
    dirs.foldl countEntries (addLinks f inodes) =
      addLinks (fun x => f x + (dirs.map fun dir => directoryAdds inodes dir x).sum) inodes := by
  induction dirs generalizing f with
  | nil => simp
  | cons dir dirs ih =>
    rw [List.foldl_cons, countEntries_addLinks, ih]
    simp [Nat.add_assoc]

/-! ## What it comes to -/

section Sums

variable {inodes : Table InodeId Inode} {id : InodeId} {inode : Inode}

theorem directoryAdds_of_directory (h : inodes.get id = some inode)
    (hdir : inode.attrs.objectType = .directory) (dir : InodeId) :
    directoryAdds inodes dir id = if dir = id then subdirectories inodes id else 0 := by
  have hentry : ∀ child, entryAdds inodes dir child id =
      if dir = id then (if isDirectory inodes child then 1 else 0) else 0 := by
    intro child
    unfold entryAdds isDirectory
    by_cases hchild : child = id
    · subst hchild
      simp [h, hdir, eq_comm]
    · cases hget : inodes.get child with
      | none => simp
      | some c => cases htype : c.attrs.objectType <;> simp [htype, Ne.symm hchild, eq_comm]
  unfold directoryAdds subdirectories
  by_cases heq : dir = id
  · subst heq
    simp only [hentry, if_pos]
    induction (inodes.get dir).elim [] Inode.children with
    | nil => rfl
    | cons c cs ih => simp [List.countP_cons, ih, Nat.add_comm]
  · simp [hentry, heq]

theorem directoryAdds_of_not_directory (h : inodes.get id = some inode)
    (hdir : inode.attrs.objectType ≠ .directory) {dir : InodeId} (hne : dir ≠ id) :
    directoryAdds inodes dir id = ((inodes.get dir).elim [] Inode.children).count id := by
  have hentry : ∀ child, entryAdds inodes dir child id = if child = id then 1 else 0 := by
    intro child
    unfold entryAdds
    by_cases hchild : child = id
    · subst hchild
      cases htype : inode.attrs.objectType <;> simp_all
    · cases hget : inodes.get child with
      | none => simp [hchild]
      | some c => cases htype : c.attrs.objectType <;> simp [htype, hchild, Ne.symm hchild, hne.symm]
  unfold directoryAdds
  simp only [hentry]
  induction (inodes.get dir).elim [] Inode.children with
  | nil => rfl
  | cons c cs ih => simp [List.count_cons, ih, Nat.add_comm]

theorem sum_directoryAdds_of_directory (h : inodes.get id = some inode)
    (hdir : inode.attrs.objectType = .directory) {dirs : List InodeId} (hnodup : dirs.Nodup)
    (hmem : subdirectories inodes id ≠ 0 → id ∈ dirs) :
    (dirs.map fun dir => directoryAdds inodes dir id).sum = subdirectories inodes id := by
  simp only [directoryAdds_of_directory h hdir]
  induction dirs with
  | nil =>
    by_contra hne
    exact List.not_mem_nil (hmem fun h => hne (by simp [h]))
  | cons dir dirs ih =>
    obtain ⟨hnew, hnodup⟩ := List.nodup_cons.mp hnodup
    by_cases heq : dir = id
    · subst heq
      have hzero : ∀ x ∈ dirs.map (fun dir' => if dir' = dir then subdirectories inodes dir else 0),
          x = 0 := by
        intro x hx
        obtain ⟨dir', hdir', rfl⟩ := List.mem_map.mp hx
        have hne : dir' ≠ dir := fun heq => hnew (heq ▸ hdir')
        rw [if_neg hne]
      simp [List.sum_eq_zero hzero]
    · rw [List.map_cons, List.sum_cons, if_neg heq, Nat.zero_add]
      refine ih hnodup fun hne => ?_
      exact (List.mem_cons.mp (hmem hne)).resolve_left (Ne.symm heq)

end Sums

theorem sum_children_directories (inodes : Table InodeId Inode) (id : InodeId) :
    ((inodes.keysWhere fun _ inode => inode.entries?.isSome).map
      fun dir => ((inodes.get dir).elim [] Inode.children).count id).sum =
      entriesNaming inodes id := by
  have hsum : ∀ l : List (InodeId × Inode), (∀ e ∈ l, inodes.get e.1 = some e.2) →
      (((l.filter fun e => e.2.entries?.isSome).map Prod.fst).map
        fun dir => ((inodes.get dir).elim [] Inode.children).count id).sum =
        (l.map fun e => e.2.children.count id).sum := by
    intro l hl
    induction l with
    | nil => rfl
    | cons e l ih =>
      have he : inodes.get e.1 = some e.2 := hl e List.mem_cons_self
      have ih := ih fun e' he' => hl e' (List.mem_cons_of_mem _ he')
      rw [List.filter_cons, List.map_cons, List.sum_cons, ← ih]
      split
      · simp [he]
      · rename_i hnone
        simp [Inode.children, Option.not_isSome_iff_eq_none.mp hnone]
  have := hsum inodes.entries fun e he => Table.mem_entries.mp he
  simpa [Table.keysWhere, entriesNaming, Table.values, List.map_map, Function.comp_def] using this

/-! ## The whole function -/

section MapValues

variable {f : InodeId → Inode → Inode} {inodes : Table InodeId Inode}

theorem isDirectory_mapValues
    (htype : ∀ id inode, inodes.get id = some inode →
      (f id inode).attrs.objectType = inode.attrs.objectType) :
    isDirectory (inodes.mapValues f) = isDirectory inodes := by
  funext id
  unfold isDirectory
  rw [Table.get_mapValues]
  cases hget : inodes.get id with
  | none => rfl
  | some inode => simp [htype id inode hget]

/-- The numbers do not change with what is no type and no entry. -/
theorem expectedLinkCount_mapValues
    (htype : ∀ id inode, inodes.get id = some inode →
      (f id inode).attrs.objectType = inode.attrs.objectType)
    (hchildren : ∀ id inode, inodes.get id = some inode → (f id inode).children = inode.children)
    (id : InodeId) (objectType : ObjectType) :
    expectedLinkCount (inodes.mapValues f) id objectType =
      expectedLinkCount inodes id objectType := by
  have hsub : subdirectories (inodes.mapValues f) id = subdirectories inodes id := by
    unfold subdirectories
    rw [isDirectory_mapValues htype, Table.get_mapValues]
    cases hget : inodes.get id with
    | none => rfl
    | some inode => simp [hchildren id inode hget]
  have hnaming : entriesNaming (inodes.mapValues f) id = entriesNaming inodes id := by
    simp only [entriesNaming, Table.values, Table.mapValues, List.map_map]
    refine congrArg List.sum (List.map_congr_left fun e he => ?_)
    simp [hchildren e.1 e.2 (Table.mem_entries.mp he)]
  cases objectType <;> simp [expectedLinkCount, hsub, hnaming]

end MapValues

/-- The inodes with every link count set anew. -/
def resetLinkCounts (inodes : Table InodeId Inode) : Table InodeId Inode :=
  inodes.mapValues fun _ inode =>
    { inode with attrs.linkCount := baseLinkCount inode.attrs.objectType }

theorem addLinks_reset (inodes : Table InodeId Inode) :
    addLinks (fun _ => 0) (resetLinkCounts inodes) = resetLinkCounts inodes := by
  apply Table.ext_entries
  simp only [addLinks, resetLinkCounts, Table.mapValues, List.map_map]
  refine List.map_congr_left fun e _ => ?_
  simp only [Function.comp_apply]
  cases e.2.attrs.objectType <;> rfl

/-- What the loops add to the count from which they start is what is missing. -/
theorem base_add_sum_directoryAdds {inodes : Table InodeId Inode}
    (htyped : ∀ id inode, inodes.get id = some inode → inode.entries?.isSome →
      inode.attrs.objectType = .directory) {id : InodeId} {inode : Inode}
    (h : inodes.get id = some inode) :
    baseLinkCount inode.attrs.objectType +
      ((inodes.keysWhere fun _ inode => inode.entries?.isSome).map
        fun dir => directoryAdds inodes dir id).sum =
      expectedLinkCount inodes id inode.attrs.objectType := by
  by_cases hdir : inode.attrs.objectType = .directory
  · rw [sum_directoryAdds_of_directory h hdir (inodes.nodup_keysWhere _), hdir]
    · rfl
    · intro hne
      refine Table.mem_keysWhere.mpr ⟨inode, h, ?_⟩
      by_contra hnone
      simp [subdirectories, h, Inode.children, Option.not_isSome_iff_eq_none.mp hnone] at hne
  · have hsum : ((inodes.keysWhere fun _ inode => inode.entries?.isSome).map
        fun dir => directoryAdds inodes dir id).sum = entriesNaming inodes id := by
      rw [← sum_children_directories]
      congr 1
      refine List.map_congr_left fun dir hmem => ?_
      obtain ⟨d, hd, hentries⟩ := Table.mem_keysWhere.mp hmem
      refine directoryAdds_of_not_directory h hdir ?_
      rintro rfl
      rw [h] at hd
      cases hd
      exact hdir (htyped _ _ h hentries)
    rw [hsum]
    cases htype : inode.attrs.objectType with
    | directory => exact absurd htype hdir
    | file => simp [baseLinkCount, expectedLinkCount]
    | symlink => simp [baseLinkCount, expectedLinkCount]

theorem recomputeLinkCounts_eq {inodes : Table InodeId Inode}
    (htyped : ∀ id inode, inodes.get id = some inode → inode.entries?.isSome →
      inode.attrs.objectType = .directory) :
    recomputeLinkCounts inodes = inodes.mapValues fun id inode =>
      { inode with
        attrs.linkCount := expectedLinkCount inodes id inode.attrs.objectType % 2 ^ 32 } := by
  have hreset : ∀ id inode, (resetLinkCounts inodes).get id = some inode →
      inode.entries?.isSome → inode.attrs.objectType = .directory := by
    intro id inode h hentries
    rw [resetLinkCounts, Table.get_mapValues] at h
    obtain ⟨old, hold, rfl⟩ := Option.map_eq_some_iff.mp h
    exact htyped id old hold hentries
  have hfold := foldl_countEntries (resetLinkCounts inodes)
    ((resetLinkCounts inodes).keysWhere fun _ inode => inode.entries?.isSome) fun _ => 0
  rw [addLinks_reset] at hfold
  apply Table.ext_entries
  refine (congrArg Table.entries hfold).trans ?_
  simp only [addLinks, Table.mapValues, resetLinkCounts, List.map_map]
  refine List.map_congr_left fun e he => ?_
  have hget : (resetLinkCounts inodes).get e.1 =
      some { e.2 with attrs.linkCount := baseLinkCount e.2.attrs.objectType } := by
    rw [resetLinkCounts, Table.get_mapValues, Table.mem_entries.mp he]
    rfl
  have hsum := base_add_sum_directoryAdds hreset hget
  have hsame : expectedLinkCount (resetLinkCounts inodes) e.1 e.2.attrs.objectType =
      expectedLinkCount inodes e.1 e.2.attrs.objectType := by
    refine expectedLinkCount_mapValues ?_ ?_ e.1 e.2.attrs.objectType
    · exact fun _ _ _ => rfl
    · exact fun _ _ _ => rfl
  simp only [Function.comp_apply, Nat.zero_add]
  rw [← hsame]
  exact congrArg (fun n => (e.1, { e.2 with attrs.linkCount := n % 2 ^ 32 })) hsum

theorem LinksCounted.recompute {inodes : Table InodeId Inode}
    (htyped : ∀ id inode, inodes.get id = some inode → inode.entries?.isSome →
      inode.attrs.objectType = .directory) : LinksCounted (recomputeLinkCounts inodes) := by
  intro id inode h
  rw [recomputeLinkCounts_eq htyped] at h ⊢
  rw [Table.get_mapValues] at h
  obtain ⟨old, -, rfl⟩ := Option.map_eq_some_iff.mp h
  rw [expectedLinkCount_mapValues]
  · exact fun _ _ _ => rfl
  · exact fun _ _ _ => rfl

/-- A change of inodes that is no change of a type, an entry or a link count keeps the counts. -/
theorem LinksCounted.mapValues {inodes : Table InodeId Inode} (h : LinksCounted inodes)
    {f : InodeId → Inode → Inode}
    (htype : ∀ id inode, inodes.get id = some inode →
      (f id inode).attrs.objectType = inode.attrs.objectType)
    (hchildren : ∀ id inode, inodes.get id = some inode → (f id inode).children = inode.children)
    (hcount : ∀ id inode, inodes.get id = some inode →
      (f id inode).attrs.linkCount = inode.attrs.linkCount) :
    LinksCounted (inodes.mapValues f) := by
  intro id inode hget
  rw [Table.get_mapValues] at hget
  obtain ⟨old, hold, rfl⟩ := Option.map_eq_some_iff.mp hget
  rw [expectedLinkCount_mapValues htype hchildren, hcount id old hold, htype id old hold]
  exact h id old hold

end EmbedNfs.MemFs
