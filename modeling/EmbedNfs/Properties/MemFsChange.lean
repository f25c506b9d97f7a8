import EmbedNfs.Properties.MemFsTree

/-!
# Change values of the in-memory file system

A call that alters an inode gives it a change value that it never had, as long as no inode is
created whose number has overtaken the counter of change values and no hard link is made. Inode
numbers are used up by calls that fail, and a new inode starts with its number as its change
value, so without the first condition a later change can lower the value
(`change_value_falls`). A hard link changes the link count of an inode that is not touched. Both
counters have 64 bits, and neither may come round.

The invariant is that every change value is below the counter, and that every inode has one
name, so that no call changes the link count of an inode it does not touch.
-/

namespace EmbedNfs

namespace MemFs

/-- The data, the entries, the extended attributes or an attribute differ. -/
def Inode.Altered (inode inode' : Inode) : Prop :=
  inode'.data ≠ inode.data ∨ inode'.xattrs ≠ inode.xattrs ∨ inode'.attrs ≠ inode.attrs

/-- The call makes no hard link, and enters a new inode with its number as its change value only
while the counter of change values has reached that number. -/
def Op.Ordered (s : State) (now : Timestamp) : Op → Prop
  | .create _ _ _ _ set => set.isEmpty = true → s.nextId ≤ s.nextChange
  | .createSymlink _ _ _ _ set => set.isEmpty = true → s.nextId ≤ s.nextChange
  | .link source parent name => (s.link now source parent name).1 ≠ .ok ()
  | _ => True

/-- Neither counter comes round in a call, which takes at most one inode number and two change
values. -/
structure State.Room (s : State) : Prop where
  id : s.nextId + 1 < 2 ^ 64
  change : s.nextChange + 2 < 2 ^ 64

/-- Every call of a sequence meets the condition. -/
def State.Ordered (s : State) : List (Timestamp × Op) → Prop
  | [] => True
  | (now, op) :: calls => (s.Room ∧ op.Ordered s now) ∧ (s.step now op).Ordered calls

/-- Every change value is below the counter. -/
def Below (s : State) : Prop :=
  ∀ id inode, s.inodes.get id = some inode → inode.attrs.change < s.nextChange

/-- Nothing that counts as a change of the inode. -/
def Inode.Kept (inode inode' : Inode) : Prop :=
  inode'.data = inode.data ∧ inode'.xattrs = inode.xattrs ∧ inode'.attrs = inode.attrs

/-- Every inode after the step was there and is kept, or has a change value from the counter, or
is new. -/
def Steps (s s' : State) : Prop :=
  ∀ id inode', s'.inodes.get id = some inode' →
    (∃ inode, s.inodes.get id = some inode ∧ inode.Kept inode') ∨
      ((s.nextChange ≤ inode'.attrs.change ∨ s.inodes.get id = none) ∧
        inode'.attrs.change < s'.nextChange)

/-! ## Link counts of inodes with one name -/

theorem sum_values_eq {K V : Type} [DecidableEq K] {t : Table K V} {f : V → Nat} {k : K} {v : V}
    (hget : t.get k = some v) (hother : ∀ k' v', t.get k' = some v' → k' ≠ k → f v' = 0) :
    (t.values.map f).sum = f v := by
  obtain ⟨l, r, hsplit⟩ := List.append_of_mem (Table.mem_entries.mpr hget)
  have hnodup := t.nodupKeys
  have hzero : ∀ e ∈ t.entries, e.1 ≠ k → f e.2 = 0 := fun e he =>
    hother e.1 e.2 (Table.mem_entries.mp he)
  unfold Table.values
  rw [hsplit] at hnodup hzero ⊢
  simp only [List.map_append, List.map_cons, List.nodup_append, List.nodup_cons] at hnodup
  have hl : ((l.map Prod.snd).map f).sum = 0 := by
    refine List.sum_eq_zero fun x hx => ?_
    simp only [List.map_map, List.mem_map] at hx
    obtain ⟨e, he, rfl⟩ := hx
    refine hzero e (List.mem_append_left _ he) fun hk => ?_
    exact hnodup.2.2 e.1 (List.mem_map_of_mem he) k List.mem_cons_self hk
  have hr : ((r.map Prod.snd).map f).sum = 0 := by
    refine List.sum_eq_zero fun x hx => ?_
    simp only [List.map_map, List.mem_map] at hx
    obtain ⟨e, he, rfl⟩ := hx
    refine hzero e (List.mem_append_right _ (List.mem_cons_of_mem _ he)) fun hk => ?_
    exact hnodup.2.1.1 (hk ▸ List.mem_map_of_mem he)
  simp only [List.map_append, List.map_cons, List.sum_append, List.sum_cons]
  rw [hl, hr]
  simp

theorem entriesNaming_eq_one {inodes : Table InodeId Inode} (hone : (shape inodes).Single) {d : InodeId}
    {n : String} {id : InodeId} (h : (shape inodes).child d n = some id) :
    entriesNaming inodes id = 1 := by
  obtain ⟨inode, entries, hget, hentries, hname⟩ := child_eq_some.mp h
  have hcount : ∀ l : List InodeId, l.count id = (l.map fun x => if x = id then 1 else 0).sum := by
    intro l
    induction l with
    | nil => rfl
    | cons x l ih => simp [List.count_cons, ih, Nat.add_comm]
  have hchildren : inode.children.count id = 1 := by
    simp only [Inode.children, hentries, Option.elim_some, hcount]
    rw [sum_values_eq hname, if_pos rfl]
    intro n' id' hname' hne
    refine if_neg fun heq => hne ?_
    rw [heq] at hname'
    exact (hone d n d n' id h (child_eq_some.mpr ⟨inode, entries, hget, hentries, hname'⟩)).2
  rw [entriesNaming, sum_values_eq hget, hchildren]
  intro d' inode' hget' hne
  rw [List.count_eq_zero]
  intro hmem
  cases hentries' : inode'.entries? with
  | none => simp [Inode.children, hentries'] at hmem
  | some entries' =>
    simp only [Inode.children, hentries', Option.elim_some, Table.mem_values] at hmem
    obtain ⟨n', hname'⟩ := hmem
    exact hne (hone d n d' n' id h
      (child_eq_some.mpr ⟨inode', entries', hget', hentries', hname'⟩)).1

section Recount

variable {s s' : State}

theorem expectedLinkCount_eq (hs : WellFormed s) (hone : (shape s.inodes).Single)
    (htree : (shape s'.inodes).IsTree rootId) (hone' : (shape s'.inodes).Single) {id : InodeId}
    {inode inode' : Inode} (hget : s.inodes.get id = some inode)
    (hget' : s'.inodes.get id = some inode') (hkept : inode.Kept inode')
    (hdirs : ∀ n c, (shape s.inodes).child id n = some c →
      (c ∈ (shape s'.inodes).dirs ↔ c ∈ (shape s.inodes).dirs)) :
    expectedLinkCount s'.inodes id inode'.attrs.objectType % 2 ^ 32 = inode.attrs.linkCount := by
  rw [hs.counted id inode hget, hkept.2.2]
  refine congrArg (· % 2 ^ 32) ?_
  by_cases hdir : inode.attrs.objectType = .directory
  · have hchildren : inode'.children = inode.children := by
      simp only [Inode.children, Inode.entries?, hkept.1]
    simp only [hdir, expectedLinkCount, subdirectories, hget, hget', Option.elim_some, hchildren]
    congr 1
    refine List.countP_congr fun c hc => ?_
    cases hentries : inode.entries? with
    | none => simp [Inode.children, hentries] at hc
    | some entries =>
      simp only [Inode.children, hentries, Option.elim_some, Table.mem_values] at hc
      obtain ⟨n, hn⟩ := hc
      exact hdirs n c (child_eq_some.mpr ⟨inode, entries, hget, hentries, hn⟩)
  · -- An inode that is no directory has exactly one entry before and after.
    have hroot : id ≠ rootId := by
      rintro rfl
      obtain ⟨root, hroot, hrootDir⟩ := mem_dirs.mp hs.tree.root_dir
      rw [hget] at hroot
      cases hroot
      exact hdir hrootDir
    obtain ⟨d, n, hchild⟩ := hs.tree.entered id (mem_present.mpr ⟨inode, hget⟩) hroot
    obtain ⟨d', n', hchild'⟩ := htree.entered id (mem_present.mpr ⟨inode', hget'⟩) hroot
    have hnaming := entriesNaming_eq_one hone hchild
    have hnaming' := entriesNaming_eq_one hone' hchild'
    cases htype : inode.attrs.objectType with
    | directory => exact absurd htype hdir
    | file => simp [expectedLinkCount, hnaming, hnaming']
    | symlink => simp [expectedLinkCount, hnaming, hnaming']

theorem Steps.of_recount (hs : WellFormed s) (hone : (shape s.inodes).Single)
    (htyped : Typed s'.inodes) (htree : (shape s'.inodes).IsTree rootId)
    (hone' : (shape s'.inodes).Single)
    (h : ∀ id inode', s'.inodes.get id = some inode' →
      (∃ inode, s.inodes.get id = some inode ∧ inode.Kept inode' ∧
        ∀ n c, (shape s.inodes).child id n = some c →
          (c ∈ (shape s'.inodes).dirs ↔ c ∈ (shape s.inodes).dirs)) ∨
      ((s.nextChange ≤ inode'.attrs.change ∨ s.inodes.get id = none) ∧
        inode'.attrs.change < s'.nextChange)) : Steps s s'.recount := by
  intro id inode'' hget''
  simp only [State.recount] at hget''
  rw [recomputeLinkCounts_eq fun id inode hget => (htyped id inode hget).mp,
    Table.get_mapValues] at hget''
  obtain ⟨inode', hget', rfl⟩ := Option.map_eq_some_iff.mp hget''
  rcases h id inode' hget' with ⟨inode, hget, hkept, hdirs⟩ | hchange
  · refine Or.inl ⟨inode, hget, hkept.1, hkept.2.1, ?_⟩
    dsimp only
    rw [expectedLinkCount_eq hs hone htree hone' hget hget' hkept hdirs, hkept.2.2]
  · exact Or.inr hchange

end Recount

/-! ## The calls -/

section Changed

variable {s : State} {now : Timestamp} {id : InodeId} {inode : Inode}

theorem State.Room.lt_fetchAdd (h : s.Room) : s.nextChange < fetchAdd s.nextChange := by
  rw [fetchAdd_of_lt (Nat.lt_of_succ_lt h.change)]
  exact Nat.lt_succ_self _

theorem get_changeDirectory {dir : InodeId} {f : Table String InodeId → Table String InodeId}
    (h : (s.changeDirectory now dir f).inodes.get id = some inode) :
    (id = dir ∧ inode.attrs.change = s.nextChange) ∨
      (id ≠ dir ∧ s.inodes.get id = some inode) := by
  simp only [State.changeDirectory, State.modify, Table.get_modify] at h
  split at h
  · rename_i hid
    obtain ⟨old, -, rfl⟩ := Option.map_eq_some_iff.mp h
    exact Or.inl ⟨hid, rfl⟩
  · rename_i hid
    exact Or.inr ⟨hid, h⟩

theorem get_moveEntry (hroom : s.Room) {fromDir toDir child : InodeId} {fromName toName : String}
    (h : (s.moveEntry now fromDir fromName toDir toName child).inodes.get id = some inode) :
    (s.nextChange ≤ inode.attrs.change ∧
      inode.attrs.change < (s.moveEntry now fromDir fromName toDir toName child).nextChange) ∨
      (id ≠ toDir ∧ s.inodes.get id = some inode) := by
  have hfetch := fetchAdd_of_lt (Nat.lt_of_succ_lt hroom.change)
  have hfetch' : fetchAdd (s.nextChange + 1) = s.nextChange + 2 := fetchAdd_of_lt hroom.change
  unfold State.moveEntry at h ⊢
  split at h
  · rename_i heq
    rw [if_pos heq]
    rcases get_changeDirectory h with ⟨-, hchange⟩ | ⟨hne, hget⟩
    · exact Or.inl ⟨hchange.ge, hchange.trans_lt hroom.lt_fetchAdd⟩
    · exact Or.inr ⟨heq ▸ hne, hget⟩
  · rename_i hne
    rw [if_neg hne]
    rcases get_changeDirectory h with ⟨-, hchange⟩ | ⟨hto, hget⟩
    · simp only [State.changeDirectory, State.modify, hfetch, hfetch'] at hchange ⊢
      exact Or.inl ⟨by omega, by omega⟩
    · rcases get_changeDirectory hget with ⟨-, hchange⟩ | ⟨-, hget⟩
      · simp only [State.changeDirectory, State.modify, hfetch, hfetch']
        exact Or.inl ⟨by omega, by omega⟩
      · exact Or.inr ⟨hto, hget⟩

theorem get_moveParent {fromDir toDir child : InodeId}
    (h : (s.moveParent fromDir toDir child).inodes.get id = some inode) :
    ∃ old, s.inodes.get id = some old ∧ old.Kept inode := by
  simp only [State.moveParent, State.modify, Table.get_modify] at h
  split at h
  · obtain ⟨old, hold, rfl⟩ := Option.map_eq_some_iff.mp h
    refine ⟨old, hold, ?_⟩
    split <;> exact ⟨rfl, rfl, rfl⟩
  · exact ⟨inode, h, rfl, rfl, rfl⟩

theorem get_removeIfUnlinked {inodes : Table InodeId Inode} {gone : InodeId}
    (h : (removeIfUnlinked inodes gone).get id = some inode) : inodes.get id = some inode := by
  unfold removeIfUnlinked at h
  split at h
  · exact h
  · split at h
    · exact Table.erase_sub _ _ _ _ h
    · split at h
      · exact h
      · exact Table.erase_sub _ _ _ _ h

theorem get_dropReplaced {replaced : Option InodeId}
    (h : (s.dropReplaced replaced).inodes.get id = some inode) : s.inodes.get id = some inode := by
  cases replaced with
  | none => exact h
  | some gone => exact get_removeIfUnlinked h

end Changed

section Room

variable {s : State} (hroom : s.Room) {set : SetAttrs}

include hroom

theorem nextChange_le_after : s.nextChange ≤ nextChangeAfter s set := by
  unfold nextChangeAfter
  split
  · exact le_rfl
  · exact hroom.lt_fetchAdd.le

theorem fetchAdd_after : nextChangeAfter s set < fetchAdd (nextChangeAfter s set) := by
  have hle : nextChangeAfter s set ≤ s.nextChange + 1 := by
    unfold nextChangeAfter
    split
    · exact Nat.le_succ _
    · exact Nat.mod_le _ _
  have := hroom.change
  rw [fetchAdd_of_lt (by omega)]
  exact Nat.lt_succ_self _

theorem newChange_lt (hpos : 1 < s.nextId) (hset : set.isEmpty = true → s.nextId ≤ s.nextChange) :
    newChange s set < fetchAdd (nextChangeAfter s set) := by
  refine lt_of_le_of_lt ?_ (fetchAdd_after hroom)
  unfold newChange nextChangeAfter
  by_cases hempty : set.isEmpty = true
  · have hle : s.nextId ≤ s.nextChange := hset hempty
    rw [if_pos hempty, if_pos hempty]
    exact max_le hle (hpos.le.trans hle)
  · rw [if_neg hempty, if_neg hempty]
    exact hroom.lt_fetchAdd.le

theorem moveEntry_nextChange_le {now : Timestamp} {fromDir toDir child : InodeId}
    {fromName toName : String} :
    s.nextChange ≤ (s.moveEntry now fromDir fromName toDir toName child).nextChange := by
  have hfetch := fetchAdd_of_lt (Nat.lt_of_succ_lt hroom.change)
  have hfetch' : fetchAdd (s.nextChange + 1) = s.nextChange + 2 := fetchAdd_of_lt hroom.change
  unfold State.moveEntry
  split
  · exact hroom.lt_fetchAdd.le
  · simp only [State.changeDirectory, State.modify, hfetch, hfetch']
    omega

end Room

/-- What holds before and after every call that meets the condition. -/
structure Settled (s : State) : Prop where
  wellFormed : Confined {id | id < s.nextId} s
  single : (shape s.inodes).Single
  below : Below s

/-- What a call that meets the condition does. -/
structure Progress (s s' : State) : Prop where
  settled : Settled s'
  steps : Steps s s'
  le : s.nextChange ≤ s'.nextChange

namespace Settled

variable {s s' : State} {now : Timestamp}

theorem progress (hs : Settled s) (hwf : Confined {id | id < s'.nextId} s') (hone : (shape s'.inodes).Single)
    (hsteps : Steps s s') (hle : s.nextChange ≤ s'.nextChange) : Progress s s' := by
  refine ⟨⟨hwf, hone, fun id inode' hget' => ?_⟩, hsteps, hle⟩
  rcases hsteps id inode' hget' with ⟨inode, hget, hkept⟩ | ⟨-, hlt⟩
  · rw [hkept.2.2]
    exact (hs.below id inode hget).trans_le hle
  · exact hlt

theorem progress_recount (hs : Settled s) (hwf : Confined {id | id < s'.nextId} s'.recount)
    (htyped : Typed s'.inodes)
    (hone : (shape s'.inodes).Single) (hle : s.nextChange ≤ s'.nextChange)
    (h : ∀ id inode', s'.inodes.get id = some inode' →
      (∃ inode, s.inodes.get id = some inode ∧ inode.Kept inode' ∧
        ∀ n c, (shape s.inodes).child id n = some c →
          (c ∈ (shape s'.inodes).dirs ↔ c ∈ (shape s.inodes).dirs)) ∨
      ((s.nextChange ≤ inode'.attrs.change ∨ s.inodes.get id = none) ∧
        inode'.attrs.change < s'.nextChange)) : Progress s s'.recount := by
  have hshape : shape s'.recount.inodes = shape s'.inodes := shape_recompute htyped
  refine hs.progress hwf (hshape ▸ hone) ?_ hle
  exact .of_recount hs.wellFormed.toWellFormed hs.single htyped (hshape ▸ hwf.tree) hone h

theorem touched (hs : Settled s) (hroom : s.Room) {id : InodeId} {inode inode' : Inode}
    (hget : s.inodes.get id = some inode) (hplace : inode.SamePlace inode')
    (hchange : inode'.attrs.change = s.nextChange) :
    Progress s { s.modify id fun _ => inode' with nextChange := fetchAdd s.nextChange } := by
  have hwf := hs.wellFormed.touched hget hplace (fetchAdd s.nextChange)
  have hget' : ∀ x i, (s.modify id fun _ => inode').inodes.get x = some i →
      (x = id ∧ i = inode') ∨ s.inodes.get x = some i := by
    intro x i h
    simp only [State.modify, Table.get_modify] at h
    split at h
    · rename_i hx
      rw [hx, hget] at h
      cases h
      exact Or.inl ⟨hx, rfl⟩
    · exact Or.inr h
  refine hs.progress hwf ?_ ?_ hroom.lt_fetchAdd.le
  · refine hs.single.mono fun d n c hchild => ?_
    obtain ⟨i, entries, hi, hentries, hname⟩ := child_eq_some.mp hchild
    rcases hget' d i hi with ⟨rfl, rfl⟩ | hi
    · exact child_eq_some.mpr ⟨inode, entries, hget, hplace.entries ▸ hentries, hname⟩
    · exact child_eq_some.mpr ⟨i, entries, hi, hentries, hname⟩
  · intro x i hi
    rcases hget' x i hi with ⟨rfl, rfl⟩ | hi
    · exact Or.inr ⟨Or.inl hchange.ge, hchange.trans_lt hroom.lt_fetchAdd⟩
    · exact Or.inl ⟨i, hi, rfl, rfl, rfl⟩

theorem entered (hs : Settled s) (hroom : s.Room) {set : SetAttrs} {parent : InodeId} {dir : Inode}
    {entries : Table String InodeId} {name : String} {inode : Inode}
    (hset : set.isEmpty = true → s.nextId ≤ s.nextChange)
    (hparent : s.inodes.get parent = some dir) (hentries : dir.entries? = some entries)
    (hfree : entries.get name = none) (hblank : inode.Blank parent)
    (hchange : inode.attrs.change = newChange s set) :
    Progress s ({ s with nextId := fetchAdd s.nextId, nextChange := nextChangeAfter s set }.enter now
      parent name s.nextId inode).recount := by
  have hwf := hs.wellFormed
  have hgone : s.nextId ∉ (shape s.inodes).present :=
    fun h => lt_irrefl s.nextId (hwf.within s.nextId h)
  have hnone : s.inodes.get s.nextId = none := by simpa [shape] using hgone
  have hafter : s.nextChange ≤ nextChangeAfter s set := nextChange_le_after hroom
  have hlast : nextChangeAfter s set < fetchAdd (nextChangeAfter s set) := fetchAdd_after hroom
  -- The number of a new inode is above the root's, so it is not 0.
  have hpos : 1 < s.nextId := hwf.within rootId (hwf.tree.dirs_present _ hwf.tree.root_dir)
  have hshape := Confined.shape_entered hgone now name (nextChangeAfter s set) hparent hentries
    hblank
  have hwithin : insert s.nextId {id | id < s.nextId} ⊆ {id | id < fetchAdd s.nextId} := by
    rw [fetchAdd_of_lt hroom.id]
    exact Set.insert_subset (Nat.lt_succ_self _) fun id hid => Nat.lt_succ_of_lt hid
  refine hs.progress_recount ((hwf.entered hgone hparent hentries hfree hblank).mono hwithin)
    (hwf.typed_entered name _ hblank) ?_ (hafter.trans hlast.le) ?_
  · rw [hshape]
    exact hs.single.add fun d n h => hgone (hwf.tree.entry_present d n _ h)
  · intro id inode' hget
    simp only [State.enter, Table.get_insert] at hget
    split at hget
    · rename_i hid
      cases hget
      refine Or.inr ⟨Or.inr (hid ▸ hnone), ?_⟩
      rw [hchange]
      exact newChange_lt hroom hpos hset
    · rename_i hid
      rcases get_changeDirectory hget with ⟨-, hnew⟩ | ⟨-, hold⟩
      · refine Or.inr ⟨Or.inl (hnew.symm ▸ hafter), ?_⟩
        exact hnew.trans_lt hlast
      · refine Or.inl ⟨inode', hold, ⟨rfl, rfl, rfl⟩, fun n c hc => ?_⟩
        have hne : c ≠ s.nextId := fun h => hgone (h ▸ hwf.tree.entry_present id n c hc)
        rw [hshape]
        simp [Graph.add, hne]

theorem removed (hs : Settled s) (hroom : s.Room) {parent child : InodeId} {name : String} {dir : Inode}
    {entries : Table String InodeId} (hparent : s.inodes.get parent = some dir)
    (hentries : dir.entries? = some entries) (hchild : entries.get name = some child)
    (hempty : ∀ n, (shape s.inodes).child child n = none) :
    Progress s ((s.changeDirectory now parent (·.erase name)).dropReplaced (some child)).recount := by
  have hwf := hs.wellFormed
  have hentry : (shape s.inodes).child parent name = some child := by
    rw [child_of_get hparent hentries, hchild]
  have hshape := hwf.shape_removed now hparent hentries hchild hempty
  refine hs.progress_recount (hwf.removed hparent hentries hchild hempty)
    (Typed.removeIfUnlinked hwf.typed.changeDirectory) ?_ hroom.lt_fetchAdd.le ?_
  · rw [hshape]
    exact hs.single.unlink parent name
  · intro id inode' hget
    rcases get_changeDirectory (get_dropReplaced hget) with ⟨-, hnew⟩ | ⟨hid, hold⟩
    · exact Or.inr ⟨Or.inl hnew.ge, hnew.trans_lt hroom.lt_fetchAdd⟩
    · refine Or.inl ⟨inode', hold, ⟨rfl, rfl, rfl⟩, fun n c hc => ?_⟩
      have hne : (shape s.inodes).child parent name ≠ some c :=
        fun h => hid (hs.single parent name id n c h hc).1
      rw [hshape]
      simp [Graph.unlink, hne]

theorem renamed (hs : Settled s) (hroom : s.Room) {fromDir toDir child : InodeId} {fromName toName : String}
    {source inode target : Inode} {entries targets : Table String InodeId}
    (hfrom : s.inodes.get fromDir = some source) (hentries : source.entries? = some entries)
    (hchild : entries.get fromName = some child) (hinode : s.inodes.get child = some inode)
    (hdescends : inode.attrs.objectType = .directory →
      directoryDescendsFrom s.inodes toDir child = false)
    (hto : s.inodes.get toDir = some target) (htargets : target.entries? = some targets)
    (hother : targets.get toName ≠ some child)
    (hreplaced : s.checkReplaced inode.attrs.objectType (targets.get toName) = .ok ()) :
    Progress s (((s.moveEntry now fromDir fromName toDir toName child).moveParent fromDir toDir
      child).dropReplaced (targets.get toName)).recount := by
  have hwf := hs.wellFormed
  have hentry : (shape s.inodes).child fromDir fromName = some child := by
    rw [child_of_get hfrom hentries, hchild]
  have hmoved : Typed ((s.moveEntry now fromDir fromName toDir toName child).moveParent fromDir toDir
      child).inodes :=
    (hwf.typed.moveEntry now fromDir toDir child fromName toName).moveParent fromDir toDir child
  have hshape := hwf.shape_moved now toName hfrom hentries hchild hinode hto htargets
  have hsingle : ((shape s.inodes).move fromDir fromName toDir toName child
      (inode.attrs.objectType = .directory)).Single := hs.single.move hentry
  -- The directories after the call are the ones before it, without what has been replaced.
  have hfinal : Typed (((s.moveEntry now fromDir fromName toDir toName child).moveParent fromDir
        toDir child).dropReplaced (targets.get toName)).inodes ∧
      (shape (((s.moveEntry now fromDir fromName toDir toName child).moveParent fromDir
        toDir child).dropReplaced (targets.get toName)).inodes).Single ∧
      ∀ c, targets.get toName ≠ some c →
        (c ∈ (shape (((s.moveEntry now fromDir fromName toDir toName child).moveParent fromDir
          toDir child).dropReplaced (targets.get toName)).inodes).dirs ↔
          c ∈ (shape s.inodes).dirs) := by
    cases targets.get toName with
    | none =>
      refine ⟨hmoved, ?_, fun c _ => ?_⟩
      · rw [State.dropReplaced, hshape]
        exact hsingle
      · rw [State.dropReplaced, hshape]
        rfl
    | some replaced =>
      refine ⟨hmoved.removeIfUnlinked, ?_, fun c hc => ?_⟩
      · rw [State.dropReplaced, shape_removeIfUnlinked hmoved, hshape]
        exact hsingle.drop replaced
      · have hne : c ≠ replaced := fun h => hc (by rw [h])
        rw [State.dropReplaced, shape_removeIfUnlinked hmoved, hshape]
        simp [Graph.drop, Graph.move, hne]
  have hcounter : (((s.moveEntry now fromDir fromName toDir toName child).moveParent fromDir
      toDir child).dropReplaced (targets.get toName)).nextChange =
      (s.moveEntry now fromDir fromName toDir toName child).nextChange := by
    cases targets.get toName <;> rfl
  have hid : (((s.moveEntry now fromDir fromName toDir toName child).moveParent fromDir
      toDir child).dropReplaced (targets.get toName)).nextId = s.nextId := by
    refine Eq.trans ?_ (moveEntry_nextId s now fromDir toDir child fromName toName)
    cases targets.get toName <;> rfl
  refine hs.progress_recount ?_ hfinal.1 hfinal.2.1 ?_ ?_
  · rw [hid]
    exact hwf.renamed hfrom hentries hchild hinode hdescends hto htargets hother hreplaced
  · rw [hcounter]
    exact moveEntry_nextChange_le hroom
  · intro id inode' hget
    obtain ⟨old, hold, hkept⟩ := get_moveParent (get_dropReplaced hget)
    rw [hcounter, hkept.2.2]
    rcases get_moveEntry hroom hold with ⟨hge, hlt⟩ | ⟨hid, hold⟩
    · exact Or.inr ⟨Or.inl hge, hlt⟩
    · refine Or.inl ⟨old, hold, hkept, fun n c hc => hfinal.2.2 c fun htaken => hid ?_⟩
      rw [← child_of_get hto htargets] at htaken
      exact (hs.single toDir toName id n c htaken hc).1

theorem idle (hs : Settled s) (hroom : s.Room) (hinodes : s'.inodes = s.inodes)
    (hid : s'.nextId = s.nextId ∨ s'.nextId = fetchAdd s.nextId)
    (hchange : s'.nextChange = s.nextChange ∨ s'.nextChange = fetchAdd s.nextChange) :
    Progress s s' := by
  have hidle : s.nextId ≤ s'.nextId := by
    rcases hid with hid | hid
    · exact hid.ge
    · rw [hid, fetchAdd_of_lt hroom.id]
      exact Nat.le_succ _
  have hle : s.nextChange ≤ s'.nextChange := by
    rcases hchange with hchange | hchange
    · exact hchange.ge
    · exact hchange ▸ hroom.lt_fetchAdd.le
  have hwf : Confined {id | id < s.nextId} s' := by
    obtain ⟨⟨htyped, htree, hcounted⟩, hwithin⟩ := hs.wellFormed
    exact ⟨⟨hinodes ▸ htyped, hinodes ▸ htree, hinodes ▸ hcounted⟩, hinodes ▸ hwithin⟩
  refine hs.progress (hwf.mono fun id hlt => lt_of_lt_of_le hlt hidle) (hinodes ▸ hs.single)
    (fun id inode hget => ?_) hle
  rw [hinodes] at hget
  exact Or.inl ⟨inode, hget, rfl, rfl, rfl⟩

theorem effect (hs : Settled s) {op : Op} (hop : s.Room ∧ op.Ordered s now)
    (h : Effect s now op s') : Progress s s' := by
  obtain ⟨hroom, hop⟩ := hop
  cases h with
  | idle hinodes hid hchange => exact hs.idle hroom hinodes hid hchange
  | touched hget hplace hchange => exact hs.touched hroom hget hplace hchange
  | entered hcreate hparent hentries hfree hblank hchange =>
    refine hs.entered hroom ?_ hparent hentries hfree hblank hchange
    rcases hcreate with ⟨ctx, kind, rfl⟩ | ⟨ctx, target, rfl⟩
    · exact hop
    · exact hop
  | linked _ _ _ _ _ hok => exact absurd hok hop
  | removed hparent hentries hchild hempty =>
    exact hs.removed hroom hparent hentries hchild (child_eq_none_of_empty hempty)
  | renamed hfrom hentries hchild hinode hdescends hto htargets hother hreplaced =>
    exact hs.renamed hroom hfrom hentries hchild hinode hdescends hto htargets hother hreplaced

theorem new (start : Timestamp) : Settled (.new start) := by
  refine ⟨(Confined.new start).mono fun id hid => hid ▸ Nat.lt_succ_self 1, fun d n d' n' c h => ?_, fun id inode hget => ?_⟩
  · obtain ⟨inode, entries, hget, hentries, hname⟩ := child_eq_some.mp h
    simp only [State.new, Table.get_insert, Table.get_empty] at hget
    split at hget
    · cases hget
      cases hentries
      cases hname
    · cases hget
  · simp only [State.new, Table.get_insert, Table.get_empty] at hget
    split at hget
    · cases hget
      exact Nat.lt_succ_self 1
    · cases hget

end Settled

/-! ## Runs -/

theorem State.Ordered.append {s : State} {calls calls' : List (Timestamp × Op)}
    (h : s.Ordered (calls ++ calls')) : s.Ordered calls ∧ (s.run calls).Ordered calls' := by
  induction calls generalizing s with
  | nil => exact ⟨trivial, h⟩
  | cons call calls ih =>
    obtain ⟨hop, hrest⟩ := h
    obtain ⟨hcalls, hcalls'⟩ := ih hrest
    exact ⟨⟨hop, hcalls⟩, hcalls'⟩

theorem Settled.run {s : State} (hs : Settled s) {calls : List (Timestamp × Op)}
    (h : s.Ordered calls) : Settled (s.run calls) ∧ s.nextChange ≤ (s.run calls).nextChange := by
  induction calls generalizing s with
  | nil => exact ⟨hs, le_rfl⟩
  | cons call calls ih =>
    have hstep := hs.effect h.1 (s.step_effect call.1 call.2)
    obtain ⟨hsettled, hle⟩ := ih hstep.settled h.2
    exact ⟨hsettled, hstep.le.trans hle⟩

end MemFs

open MemFs

/-- A call that alters an inode gives it a change value above every one it had before. -/
theorem change_value_rises (start : Timestamp) (calls : List (Timestamp × Op)) (now : Timestamp)
    (op : Op) (hordered : (State.new start).Ordered (calls ++ [(now, op)])) (id : InodeId)
    (inode inode' : Inode) (hbefore : ((State.new start).run calls).inodes.get id = some inode)
    (hafter : (((State.new start).run calls).step now op).inodes.get id = some inode')
    (haltered : inode.Altered inode') (past : List (Timestamp × Op)) (hpast : past <+: calls)
    (old : Inode) (hold : ((State.new start).run past).inodes.get id = some old) :
    old.attrs.change < inode'.attrs.change := by
  obtain ⟨rest, rfl⟩ := hpast
  obtain ⟨hcalls, hlast⟩ := hordered.append
  obtain ⟨hpast, hrest⟩ := hcalls.append
  obtain ⟨hsettled, -⟩ := (Settled.new start).run hpast
  obtain ⟨hsettled', hle⟩ := hsettled.run hrest
  rw [← State.run_append] at hsettled' hle
  have hstep := hsettled'.effect hlast.1 (State.step_effect _ now op)
  have hlt := hsettled.below id old hold
  rcases hstep.steps id inode' hafter with ⟨inode'', hbefore', hkept⟩ | ⟨hge | hnone, -⟩
  · rw [hbefore] at hbefore'
    cases hbefore'
    rcases haltered with h | h | h
    · exact absurd hkept.1 h
    · exact absurd hkept.2.1 h
    · exact absurd hkept.2.2 h
  · exact hlt.trans_le (hle.trans hge)
  · rw [hbefore] at hnone
    cases hnone

theorem change_value_rises_write :
    ∃ inode inode',
      ((State.new ⟨0, 0⟩).run [createFile rootId "a"]).inodes.get 2 = some inode ∧
      (((State.new ⟨0, 0⟩).run [createFile rootId "a"]).step ⟨1, 0⟩ (.write 2 0 [7])).inodes.get 2 =
        some inode' ∧
      inode.attrs.change < inode'.attrs.change := by
  refine ⟨_, _, rfl, rfl, ?_⟩
  exact change_value_rises ⟨0, 0⟩ [createFile rootId "a"] ⟨1, 0⟩ (.write 2 0 [7])
    ⟨⟨⟨by decide, by decide⟩, fun _ => by decide⟩, ⟨⟨by decide, by decide⟩, trivial⟩, trivial⟩ 2 _ _ rfl rfl (Or.inl (by decide)) _ List.prefix_rfl _ rfl

/-- Two calls that fail use up inode numbers, so the next file starts with a change value that
its first write lowers. -/
theorem change_value_falls :
    ∃ inode inode',
      ((State.new ⟨0, 0⟩).run
        [createFile 9 "a", createFile 9 "a", createFile rootId "a"]).inodes.get 4 = some inode ∧
      (((State.new ⟨0, 0⟩).run [createFile 9 "a", createFile 9 "a", createFile rootId "a"]).step
        ⟨1, 0⟩ (.write 4 0 [7])).inodes.get 4 = some inode' ∧
      inode.Altered inode' ∧ inode'.attrs.change < inode.attrs.change := by
  exact ⟨_, _, rfl, rfl, Or.inl (by decide), by decide⟩

-- A hard link changes an attribute of the inode and leaves its change value.
example :
    ∃ inode inode',
      ((State.new ⟨0, 0⟩).run [createFile rootId "a"]).inodes.get 2 = some inode ∧
      (((State.new ⟨0, 0⟩).run [createFile rootId "a"]).step ⟨1, 0⟩
        (.link 2 rootId "b")).inodes.get 2 = some inode' ∧
      inode.Altered inode' ∧ inode'.attrs.change = inode.attrs.change :=
  ⟨_, _, rfl, rfl, Or.inr (Or.inr (by decide)), rfl⟩

end EmbedNfs
