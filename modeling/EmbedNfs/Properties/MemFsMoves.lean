import EmbedNfs.MemFs.Tree

/-!
# What a rename and a remove change

A successful rename moves one entry and a successful remove takes one away; all other entries of
all directories stay, and an inode goes away exactly if the entry that named it was the last one.
For the entries and the inodes that are there this is the calculus of `Lib.Directory`: the shape
after a remove is `Graph.unlink`, that after a rename is `Graph.move` after `Graph.unlink` of what
is replaced. What is not in the shape, the data of files and symbolic links and the extended
attributes, goes through the steps of a call by `Framed`.
-/

namespace EmbedNfs

namespace MemFs

/-- The inode that a name of a directory stands for. -/
def State.entry (s : State) (dir : InodeId) (name : String) : Option InodeId :=
  ((s.inodes.get dir).bind Inode.entries?).bind (·.get name)

/-- No other entry names the inode. -/
def State.OnlyEntry (s : State) (dir : InodeId) (name : String) (id : InodeId) : Prop :=
  ∀ d n, s.entry d n = some id → d = dir ∧ n = name

/-- The extended attributes of every inode are unchanged, and the data of those not listed. -/
def SameContents (s s' : State) (dirs : List InodeId) : Prop :=
  ∀ id inode inode', s.inodes.get id = some inode → s'.inodes.get id = some inode' →
    inode'.xattrs = inode.xattrs ∧ (id ∉ dirs → inode'.data = inode.data)

/-- Exactly the entry is gone, and its inode if nothing else names it. -/
def RemovesExactly (s : State) (dir : InodeId) (name : String) (s' : State) : Prop :=
  ∃ id, s.entry dir name = some id ∧
    (∀ d n, s'.entry d n = if d = dir ∧ n = name then none else s.entry d n) ∧
    (∀ i, s'.inodes.get i = none ↔
      s.inodes.get i = none ∨ (i = id ∧ s.OnlyEntry dir name i)) ∧
    SameContents s s' [dir]

/-- Nothing changes if both names stand for one inode. Otherwise exactly the entry has moved, and
what it replaced is gone if nothing else names it. -/
def RenamesExactly (s : State) (fromDir : InodeId) (fromName : String) (toDir : InodeId)
    (toName : String) (s' : State) : Prop :=
  ∃ id, s.entry fromDir fromName = some id ∧
    (s.entry toDir toName = some id → s' = s) ∧
    (s.entry toDir toName ≠ some id →
      s'.entry toDir toName = some id ∧ s'.entry fromDir fromName = none ∧
      (∀ d n, ¬(d = fromDir ∧ n = fromName) → ¬(d = toDir ∧ n = toName) →
        s'.entry d n = s.entry d n) ∧
      (∀ i, s'.inodes.get i = none ↔
        s.inodes.get i = none ∨ (s.entry toDir toName = some i ∧ s.OnlyEntry toDir toName i)) ∧
      SameContents s s' [fromDir, toDir])

/-! ## Successful calls -/

section Calls

variable {s : State} {now : Timestamp}

theorem remove_ok {dir : InodeId} {name : String} (h : (s.remove now dir name).1 = .ok ()) :
    ∃ inode entries id, s.inodes.get dir = some inode ∧ inode.entries? = some entries ∧
      entries.get name = some id ∧ (∀ n, (shape s.inodes).child id n = none) ∧
      (s.remove now dir name).2 =
        ((s.changeDirectory now dir (·.erase name)).dropReplaced (some id)).recount := by
  simp only [State.remove] at h ⊢
  cases hdir : s.inodes.get dir with
  | none => simp [hdir, State.fail] at h
  | some inode =>
    cases hentries : inode.entries? with
    | none => simp [hdir, hentries, State.fail] at h
    | some entries =>
      cases hname : entries.get name with
      | none => simp [hdir, hentries, hname, State.fail] at h
      | some id =>
        simp only [hdir, hentries, hname] at h ⊢
        split at h
        · cases h
        · rename_i hempty
          refine ⟨inode, entries, id, rfl, hentries, hname, ?_, by rw [if_neg hempty]⟩
          refine child_eq_none_of_empty fun inode below hinode hbelow => ?_
          refine Table.get_eq_none_of_isEmpty ?_
          simpa [hinode, hbelow] using hempty

/-- What a successful rename has found. -/
structure Renames (s : State) (fromDir : InodeId) (fromName : String) (toDir : InodeId)
    (toName : String) (source inode target : Inode) (entries targets : Table String InodeId)
    (id : InodeId) : Prop where
  hfrom : s.inodes.get fromDir = some source
  hentries : source.entries? = some entries
  hname : entries.get fromName = some id
  hinode : s.inodes.get id = some inode
  hto : s.inodes.get toDir = some target
  htargets : target.entries? = some targets

theorem rename_ok {fromDir toDir : InodeId} {fromName toName : String}
    (h : (s.rename now fromDir fromName toDir toName).1 = .ok ()) :
    ∃ source inode target entries targets id,
      Renames s fromDir fromName toDir toName source inode target entries targets id ∧
      ((targets.get toName = some id ∧ (s.rename now fromDir fromName toDir toName).2 = s) ∨
        (targets.get toName ≠ some id ∧
          s.checkReplaced inode.attrs.objectType (targets.get toName) = .ok () ∧
          (s.rename now fromDir fromName toDir toName).2 =
            (((s.moveEntry now fromDir fromName toDir toName id).moveParent fromDir toDir
              id).dropReplaced (targets.get toName)).recount)) := by
  simp only [State.rename] at h ⊢
  cases hfrom : s.inodes.get fromDir with
  | none => simp [hfrom, State.fail] at h
  | some source =>
    cases hentries : source.entries? with
    | none => simp [hfrom, hentries, State.fail] at h
    | some entries =>
      cases hname : entries.get fromName with
      | none => simp [hfrom, hentries, hname, State.fail] at h
      | some id =>
        cases hinode : s.inodes.get id with
        | none => simp [hfrom, hentries, hname, hinode, State.fail] at h
        | some inode =>
          simp only [hfrom, hentries, hname, hinode] at h ⊢
          split at h
          · cases h
          · rename_i hdescends
            rw [if_neg hdescends]
            cases hto : s.inodes.get toDir with
            | none => simp [hto, State.fail] at h
            | some target =>
              cases htargets : target.entries? with
              | none => simp [hto, htargets, State.fail] at h
              | some targets =>
                simp only [hto, htargets] at h ⊢
                refine ⟨source, inode, target, entries, targets, id,
                  ⟨hfrom, hentries, hname, hinode, hto, htargets⟩, ?_⟩
                by_cases hsame : targets.get toName = some id
                · exact Or.inl ⟨hsame, by rw [if_pos hsame]⟩
                · rw [if_neg hsame] at h ⊢
                  cases hcheck : s.checkReplaced inode.attrs.objectType (targets.get toName) with
                  | error e => simp [hcheck, State.fail] at h
                  | ok _ => exact Or.inr ⟨hsame, rfl, rfl⟩

end Calls

/-! ## Contents through the steps of a call -/

/-- Every inode that is left was there, with the same extended attributes, and with the same data
unless it is listed. -/
def Framed (dirs : List InodeId) (t t' : Table InodeId Inode) : Prop :=
  ∀ id inode', t'.get id = some inode' → ∃ inode, t.get id = some inode ∧
    inode'.xattrs = inode.xattrs ∧ (id ∉ dirs → inode'.data = inode.data)

namespace Framed

variable {dirs : List InodeId} {t t' t'' : Table InodeId Inode}

theorem refl : Framed dirs t t := fun _ inode h => ⟨inode, h, rfl, fun _ => rfl⟩

theorem trans (h : Framed dirs t t') (h' : Framed dirs t' t'') : Framed dirs t t'' := by
  intro id inode'' hget
  obtain ⟨inode', hget', hxattrs', hdata'⟩ := h' id inode'' hget
  obtain ⟨inode, hget, hxattrs, hdata⟩ := h id inode' hget'
  exact ⟨inode, hget, hxattrs'.trans hxattrs, fun hid => (hdata' hid).trans (hdata hid)⟩

theorem mapValues {f : InodeId → Inode → Inode}
    (hxattrs : ∀ id inode, (f id inode).xattrs = inode.xattrs)
    (hdata : ∀ id inode, id ∉ dirs → (f id inode).data = inode.data) :
    Framed dirs t (t.mapValues f) := by
  intro id inode' hget
  rw [Table.get_mapValues] at hget
  obtain ⟨inode, hold, rfl⟩ := Option.map_eq_some_iff.mp hget
  exact ⟨inode, hold, hxattrs id inode, hdata id inode⟩

theorem recount (htyped : Typed t) : Framed dirs t (recomputeLinkCounts t) := by
  rw [recomputeLinkCounts_eq fun id inode hget => (htyped id inode hget).mp]
  exact mapValues (fun _ _ => rfl) fun _ _ _ => rfl

theorem modify {id : InodeId} {f : Inode → Inode} (hxattrs : ∀ inode, (f inode).xattrs = inode.xattrs)
    (hdata : id ∉ dirs → ∀ inode, (f inode).data = inode.data) : Framed dirs t (t.modify id f) := by
  intro id' inode' hget
  rcases Table.of_get_modify hget with ⟨rfl, inode, hold, rfl⟩ | ⟨-, hget⟩
  · exact ⟨inode, hold, hxattrs inode, fun hdirs => hdata hdirs inode⟩
  · exact ⟨inode', hget, rfl, fun _ => rfl⟩

theorem changeDirectory {s : State} (now : Timestamp) {dir : InodeId} (hdir : dir ∈ dirs)
    (f : Table String InodeId → Table String InodeId) :
    Framed dirs s.inodes (s.changeDirectory now dir f).inodes :=
  modify (fun _ => rfl) fun h => absurd hdir h

theorem moveEntry {s : State} (now : Timestamp) (fromDir toDir id : InodeId)
    (fromName toName : String) :
    Framed [fromDir, toDir] s.inodes (s.moveEntry now fromDir fromName toDir toName id).inodes := by
  unfold State.moveEntry
  split
  · exact changeDirectory now (by simp) _
  · exact (changeDirectory now (by simp) _).trans (changeDirectory now (by simp) _)

theorem moveParent {s : State} (fromDir toDir id : InodeId) :
    Framed dirs s.inodes (s.moveParent fromDir toDir id).inodes := by
  refine modify (fun inode => ?_) fun _ inode => ?_
  · split <;> rfl
  · split <;> rfl

theorem erase (id : InodeId) : Framed dirs t (t.erase id) := by
  intro id' inode' hget
  rw [Table.get_erase] at hget
  split at hget
  · cases hget
  · exact ⟨inode', hget, rfl, fun _ => rfl⟩

theorem dropReplaced {s : State} (replaced : Option InodeId) :
    Framed dirs s.inodes (s.dropReplaced replaced).inodes := by
  cases replaced with
  | none => exact refl
  | some id =>
    simp only [State.dropReplaced, removeIfUnlinked]
    split
    · exact refl
    · split
      · exact erase id
      · split
        · exact refl
        · exact erase id

theorem sameContents {s s' : State} (h : Framed dirs s.inodes s'.inodes) :
    SameContents s s' dirs := by
  intro id inode inode' hget hget'
  obtain ⟨old, hold, hsame⟩ := h id inode' hget'
  rw [hget] at hold
  cases hold
  exact hsame

end Framed

/-! ## The inodes that go away -/

theorem notMem_unlink {s : State} (hs : WellFormed s) {dir : InodeId} {name : String}
    {i : InodeId} :
    i ∉ ((shape s.inodes).unlink dir name).present ↔
      s.inodes.get i = none ∨ (s.entry dir name = some i ∧ s.OnlyEntry dir name i) := by
  have hpresent : i ∈ (shape s.inodes).present ↔ s.inodes.get i ≠ none := by
    rw [mem_present, ← Option.ne_none_iff_exists']
  have hnamed : (shape s.inodes).NamedBesides dir name i ↔ ¬ s.OnlyEntry dir name i := by
    simp only [State.OnlyEntry, not_forall, Graph.NamedBesides]
    constructor
    · rintro ⟨d, n, hother, hentry⟩
      exact ⟨d, n, hentry, hother⟩
    · rintro ⟨d, n, hentry, hother⟩
      exact ⟨d, n, hother, hentry⟩
  -- A directory has one entry, so it always goes away.
  have hdirs : s.entry dir name = some i → i ∈ (shape s.inodes).dirs → s.OnlyEntry dir name i :=
    fun hentry hdir d n h => hs.tree.entry_eq hdir hentry h
  simp only [Graph.unlink, Set.mem_ofPred_eq, hpresent, hnamed]
  have hchild : (shape s.inodes).child dir name = s.entry dir name := rfl
  rw [hchild]
  tauto

theorem get_eq_none_iff {t : Table InodeId Inode} {i : InodeId} :
    t.get i = none ↔ i ∉ (shape t).present := by
  rw [mem_present, ← Option.ne_none_iff_exists', not_not]

/-! ## The calls -/

section Exact

variable {s : State} (hs : WellFormed s) {now : Timestamp}

include hs

theorem removes_exactly {dir : InodeId} {name : String}
    (h : (s.remove now dir name).1 = .ok ()) :
    RemovesExactly s dir name (s.remove now dir name).2 := by
  obtain ⟨inode, entries, id, hdir, hentries, hname, hempty, hstate⟩ := remove_ok h
  have hentry : s.entry dir name = some id := (child_of_get hdir hentries name).trans hname
  have htyped : Typed ((s.changeDirectory now dir (·.erase name)).dropReplaced (some id)).inodes :=
    Typed.removeIfUnlinked hs.typed.changeDirectory
  have hshape : shape (s.remove now dir name).2.inodes = (shape s.inodes).unlink dir name := by
    rw [hstate, State.recount, shape_recompute htyped,
      (Confined.of_wellFormed hs).shape_removed now hdir hentries hname hempty]
  refine ⟨id, hentry, fun d n => congrFun (congrFun (congrArg Graph.child hshape) d) n, ?_, ?_⟩
  · intro i
    rw [get_eq_none_iff, hshape, notMem_unlink hs, hentry, Option.some.injEq, eq_comm (a := id)]
  · rw [hstate]
    refine Framed.sameContents (Framed.trans ?_ (.recount htyped))
    exact (Framed.changeDirectory now (by simp) _).trans (.dropReplaced _)

theorem shape_rename {fromDir toDir id : InodeId} {fromName toName : String}
    {source inode target : Inode} {entries targets : Table String InodeId}
    (h : Renames s fromDir fromName toDir toName source inode target entries targets id)
    (hother : targets.get toName ≠ some id)
    (hcheck : s.checkReplaced inode.attrs.objectType (targets.get toName) = .ok ()) :
    shape (((s.moveEntry now fromDir fromName toDir toName id).moveParent fromDir toDir
        id).dropReplaced (targets.get toName)).inodes =
      ((shape s.inodes).unlink toDir toName).move fromDir fromName toDir toName id
        (inode.attrs.objectType = .directory) := by
  have hmoved := (Confined.of_wellFormed hs).shape_moved now toName h.hfrom h.hentries h.hname
    h.hinode h.hto h.htargets
  have hentry : (shape s.inodes).child fromDir fromName = some id :=
    (child_of_get h.hfrom h.hentries fromName).trans h.hname
  have htaken := child_of_get h.hto h.htargets toName
  have htyped := (hs.typed.moveEntry now fromDir toDir id fromName toName).moveParent fromDir toDir id
  cases hname : targets.get toName with
  | none =>
    rw [State.dropReplaced, hmoved]
    rw [hname] at htaken
    refine Graph.ext_fields ?_ ?_ ?_ ?_
    · ext x
      simp [Graph.move, Graph.unlink, htaken]
    · ext x
      simp [Graph.move, Graph.unlink, htaken]
    · funext e m
      simp only [Graph.move, Graph.unlink, Graph.setEntry]
      grind
    · funext x
      simp [Graph.move, Graph.unlink, htaken]
  | some replaced =>
    rw [hname] at htaken hcheck hother
    have hdirs : toDir ∈ (shape s.inodes).dirs := hs.typed.dir h.hto h.htargets
    have hself : replaced ≠ toDir := by
      rintro rfl
      exact hs.tree.acyclic hdirs (.single ⟨toName, htaken⟩)
    rw [State.dropReplaced, shape_removeIfUnlinked htyped, hmoved]
    exact Graph.drop_move hentry htaken (fun hid => hother (by rw [hid])) hself
      (checkReplaced_empty hs.typed hcheck)

theorem renames_exactly {fromDir toDir : InodeId} {fromName toName : String}
    (h : (s.rename now fromDir fromName toDir toName).1 = .ok ()) :
    RenamesExactly s fromDir fromName toDir toName
      (s.rename now fromDir fromName toDir toName).2 := by
  obtain ⟨source, inode, target, entries, targets, id, hfound, hcase⟩ := rename_ok h
  have hentry : s.entry fromDir fromName = some id :=
    (child_of_get hfound.hfrom hfound.hentries fromName).trans hfound.hname
  have htaken : s.entry toDir toName = targets.get toName :=
    child_of_get hfound.hto hfound.htargets toName
  refine ⟨id, hentry, fun hsame => ?_, fun hdiffer => ?_⟩
  · rcases hcase with ⟨-, hstate⟩ | ⟨hother, -⟩
    · exact hstate
    · exact absurd (htaken ▸ hsame) hother
  · rcases hcase with ⟨hsame, -⟩ | ⟨hother, hcheck, hstate⟩
    · exact absurd (htaken.trans hsame) hdiffer
    · have htyped : Typed (((s.moveEntry now fromDir fromName toDir toName id).moveParent fromDir
          toDir id).dropReplaced (targets.get toName)).inodes := by
        have hmoved := (hs.typed.moveEntry now fromDir toDir id fromName toName).moveParent
          fromDir toDir id
        cases targets.get toName with
        | none => exact hmoved
        | some replaced => exact hmoved.removeIfUnlinked
      have hshape : shape (s.rename now fromDir fromName toDir toName).2.inodes =
          ((shape s.inodes).unlink toDir toName).move fromDir fromName toDir toName id
            (inode.attrs.objectType = .directory) := by
        rw [hstate, State.recount, shape_recompute htyped, shape_rename hs hfound hother hcheck]
      have hentries : ∀ d n, (s.rename now fromDir fromName toDir toName).2.entry d n =
          if d = toDir ∧ n = toName then some id
          else if d = fromDir ∧ n = fromName then none
          else if d = toDir ∧ n = toName then none else s.entry d n :=
        fun d n => congrFun (congrFun (congrArg Graph.child hshape) d) n
      have hplace : ¬(fromDir = toDir ∧ fromName = toName) := by
        rintro ⟨rfl, rfl⟩
        exact hdiffer hentry
      refine ⟨?_, ?_, ?_, ?_, ?_⟩
      · rw [hentries, if_pos ⟨rfl, rfl⟩]
      · rw [hentries, if_neg hplace, if_pos ⟨rfl, rfl⟩]
      · intro d n hfrom hto
        rw [hentries, if_neg hto, if_neg hfrom, if_neg hto]
      · intro i
        rw [get_eq_none_iff, hshape]
        exact notMem_unlink hs
      · rw [hstate]
        refine Framed.sameContents (Framed.trans ?_ (.recount htyped))
        exact ((Framed.moveEntry now _ _ _ _ _).trans (.moveParent _ _ _)).trans (.dropReplaced _)

end Exact

end MemFs

open MemFs

/-- **Exact effect.** A successful rename, and a successful remove, changes the one entry that it
is about, the inode that has lost its last entry, and nothing else. -/
theorem memfs_moves_exact (s : State) (hs : WellFormed s) (now : Timestamp) :
    (∀ fromDir fromName toDir toName,
      (s.rename now fromDir fromName toDir toName).1 = .ok () →
        RenamesExactly s fromDir fromName toDir toName
          (s.rename now fromDir fromName toDir toName).2) ∧
    ∀ dir name, (s.remove now dir name).1 = .ok () →
      RemovesExactly s dir name (s.remove now dir name).2 :=
  ⟨fun _ _ _ _ h => renames_exactly hs h, fun _ _ h => removes_exactly hs h⟩

/-- Two files of the root, one renamed over the other, and one removed. -/
theorem memfs_moves_exact_files :
    let s := (State.new ⟨0, 0⟩).run [(⟨0, 0⟩, .create ⟨.none⟩ rootId "a" .file {}),
      (⟨0, 0⟩, .create ⟨.none⟩ rootId "b" .file {})]
    RenamesExactly s rootId "a" rootId "b" (s.rename ⟨1, 0⟩ rootId "a" rootId "b").2 ∧
      RemovesExactly s rootId "a" (s.remove ⟨1, 0⟩ rootId "a").2 := by
  intro s
  have hexact := memfs_moves_exact s (.of_new ⟨0, 0⟩ (by decide)) ⟨1, 0⟩
  exact ⟨hexact.1 rootId "a" rootId "b" (by decide +kernel),
    hexact.2 rootId "a" (by decide +kernel)⟩

end EmbedNfs
