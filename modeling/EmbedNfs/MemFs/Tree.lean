import EmbedNfs.MemFs.Shape

/-!
# The file system stays a tree

What each effect does to the graph of entries, and that every call keeps the file system well
formed.
-/

namespace EmbedNfs.MemFs

/-! ## The ancestor check -/

section Descends

variable {inodes : Table InodeId Inode}

/-- The walk meets every ancestor if it may take as many steps as the root is away. -/
theorem descendsLoop_complete {ancestor : InodeId} {n : Nat} {id : InodeId}
    (hroot : (shape inodes).parent rootId = none) (h : (shape inodes).Climbs rootId n id)
    {remaining : Nat} (hle : n ≤ remaining)
    (hloop : descendsLoop inodes ancestor remaining (some id) = false) :
    ∀ x, Relation.ReflTransGen (shape inodes).Up id x → x ≠ ancestor := by
  induction h generalizing remaining with
  | root =>
    intro x hx
    have hself : rootId ≠ ancestor := by
      cases remaining <;> simp_all [descendsLoop]
    rcases Relation.ReflTransGen.cases_head hx with rfl | ⟨y, hy, -⟩
    · exact hself
    · rw [Graph.Up, hroot] at hy
      cases hy
  | @up n id d _ hparent _ ih =>
    obtain ⟨remaining, rfl⟩ : ∃ k, remaining = k + 1 := ⟨remaining - 1, by omega⟩
    have hparent' : parentDirectory inodes id = some d := hparent
    simp only [descendsLoop, hparent', Bool.decide_or, Bool.or_eq_false_iff, decide_eq_false_iff_not,
      Bool.decide_eq_true] at hloop
    intro x hx
    rcases Relation.ReflTransGen.cases_head hx with rfl | ⟨y, hy, hyx⟩
    · exact hloop.1
    · rw [Graph.Up, hparent] at hy
      cases hy
      exact ih (by omega) hloop.2 x hyx

/-- There are at least as many inodes as directories on the way to the root. -/
theorem climbs_le_length (htree : (shape inodes).IsTree rootId) {n : Nat} {id : InodeId}
    (h : (shape inodes).Climbs rootId n id) : n ≤ inodes.entries.length := by
  obtain ⟨path, hlength, hnodup, hpath⟩ := htree.climbs_path h
  have hsub : path ⊆ inodes.entries.map Prod.fst := by
    intro x hx
    obtain ⟨inode, hget, -⟩ := mem_dirs.mp (hpath x hx).1
    exact List.mem_map.mpr ⟨(x, inode), Table.mem_entries.mpr hget, rfl⟩
  have hle := (List.subperm_of_subset hnodup hsub).length_le
  rw [List.length_map] at hle
  omega

theorem directoryDescendsFrom_complete (htree : (shape inodes).IsTree rootId)
    {descendant ancestor : InodeId} (hdir : descendant ∈ (shape inodes).dirs)
    (h : directoryDescendsFrom inodes descendant ancestor = false) :
    ∀ x, Relation.ReflTransGen (shape inodes).Up descendant x → x ≠ ancestor := by
  obtain ⟨n, hclimbs⟩ := htree.climbs descendant hdir
  exact descendsLoop_complete htree.root_parent hclimbs (climbs_le_length htree hclimbs) h

end Descends

/-! ## New entries -/

section Enter

variable {s : State} {parent : InodeId} {dir : Inode} {entries : Table String InodeId}

theorem shape_insert_name (now : Timestamp) (name : String) (hparent : s.inodes.get parent = some dir)
    (hentries : dir.entries? = some entries) (child : InodeId) :
    shape (s.changeDirectory now parent (·.insert name child)).inodes =
      (shape s.inodes).link parent name child := by
  rw [shape_changeDirectory hparent hentries, Graph.link]
  congr 1
  funext d n
  by_cases hd : d = parent
  · subst hd
    by_cases hn : n = name <;> simp [Graph.setEntry, hn, child_of_get hparent hentries]
  · simp [Graph.setEntry, hd]

theorem shape_erase_name (now : Timestamp) (name : String) (hparent : s.inodes.get parent = some dir)
    (hentries : dir.entries? = some entries) :
    shape (s.changeDirectory now parent (·.erase name)).inodes =
      (shape s.inodes).withChild ((shape s.inodes).setEntry parent name none) := by
  rw [shape_changeDirectory hparent hentries]
  congr 1
  funext d n
  by_cases hd : d = parent
  · subst hd
    by_cases hn : n = name <;> simp [Graph.setEntry, hn, child_of_get hparent hentries]
  · simp [Graph.setEntry, hd]

variable {id : InodeId} {inode : Inode}

theorem shape_insert {inodes : Table InodeId Inode} (hnew : inodes.get id = none)
    (hblank : inode.Blank parent) :
    shape (inodes.insert id inode) =
      { present := {x | x = id ∨ x ∈ (shape inodes).present}
        dirs := {x | (x = id ∧ decide (inode.attrs.objectType = .directory) = true) ∨
          x ∈ (shape inodes).dirs}
        child := (shape inodes).child
        parent := fun x =>
          if x = id then
            (if decide (inode.attrs.objectType = .directory) = true then some parent else none)
          else (shape inodes).parent x } := by
  refine Graph.ext_fields ?_ ?_ ?_ ?_
  · ext x
    by_cases hx : x = id <;> simp [shape, hx]
  · ext x
    by_cases hx : x = id
    · simp [shape, isDirectory, hx, hnew]
    · simp [shape, isDirectory, hx]
  · funext d n
    by_cases hd : d = id
    · subst hd
      simp only [shape, Table.get_insert_self, Option.bind_some, hblank.entries, hnew,
        Option.bind_none]
      split <;> rfl
    · simp [shape, hd]
  · funext x
    by_cases hx : x = id
    · subst hx
      simp only [shape, parentDirectory, Table.get_insert_self, Option.bind_some, hblank.parent]
      cases inode.attrs.objectType <;> rfl
    · simp [shape, parentDirectory, hx]

theorem Typed.insert {inodes : Table InodeId Inode} (h : Typed inodes)
    (hblank : inode.Blank parent) : Typed (inodes.insert id inode) := by
  intro x inode' hget
  rcases Table.of_get_insert hget with ⟨-, rfl⟩ | ⟨-, hget⟩
  · rw [hblank.entries]
    split
    · rename_i hdir
      simp [hdir]
    · rename_i hdir
      simp [hdir]
  · exact h x inode' hget

end Enter

/-! ## Entries taken away -/

section Drop

variable {inodes : Table InodeId Inode} {id : InodeId}

theorem isLinked_iff : isLinked inodes id = true ↔ ∃ d, (shape inodes).Contains d id := by
  simp only [isLinked, Table.any_eq_true, Graph.Contains, child_eq_some]
  constructor
  · rintro ⟨d, inode, hget, hany⟩
    cases hentries : inode.entries? with
    | none => simp [hentries] at hany
    | some entries =>
      simp only [hentries, Option.any_some, Table.any_eq_true, decide_eq_true_eq] at hany
      obtain ⟨n, child, hchild, rfl⟩ := hany
      exact ⟨d, n, inode, entries, hget, hentries, hchild⟩
  · rintro ⟨d, n, inode, entries, hget, hentries, hchild⟩
    refine ⟨d, inode, hget, ?_⟩
    simp only [hentries, Option.any_some, Table.any_eq_true, decide_eq_true_eq]
    exact ⟨n, id, hchild, rfl⟩

theorem shape_erase :
    shape (inodes.erase id) =
      { present := {x | x ∈ (shape inodes).present ∧ x ≠ id}
        dirs := {x | x ∈ (shape inodes).dirs ∧ x ≠ id}
        child := fun d n => if d = id then none else (shape inodes).child d n
        parent := fun x => if x = id then none else (shape inodes).parent x } := by
  refine Graph.ext_fields ?_ ?_ ?_ ?_
  · ext x
    by_cases hx : x = id <;> simp [shape, hx]
  · ext x
    by_cases hx : x = id <;> simp [shape, isDirectory, hx]
  · funext d n
    by_cases hd : d = id <;> simp [shape, hd]
  · funext x
    by_cases hx : x = id <;> simp [shape, parentDirectory, hx]

/-- Nothing is dropped that is no directory and, if it is there, has an entry. -/
theorem drop_eq_self (htyped : Typed inodes) (hfile : id ∉ (shape inodes).dirs)
    (hkeep : id ∈ (shape inodes).present → ∃ d, (shape inodes).Contains d id) :
    (shape inodes).drop id = shape inodes := by
  refine Graph.ext_fields ?_ ?_ ?_ ?_
  · ext x
    simp only [Graph.drop, Set.mem_ofPred_eq, and_iff_left_iff_imp]
    rintro hx rfl
    exact ⟨hfile, hkeep hx⟩
  · ext x
    simp only [Graph.drop, Set.mem_ofPred_eq, and_iff_left_iff_imp]
    rintro hx rfl
    exact hfile hx
  · funext d n
    simp only [Graph.drop]
    split
    · rename_i hd
      exact hd ▸ (htyped.child_eq_none hfile n).symm
    · rfl
  · funext x
    simp only [Graph.drop]
    split
    · rename_i hx
      exact hx ▸ (parent_eq_none hfile).symm
    · rfl

/-- What is erased has been dropped if it is a directory or has no entry. -/
theorem shape_erase_drop
    (hdrop : id ∈ (shape inodes).dirs ∨ ¬ ∃ d, (shape inodes).Contains d id) :
    shape (inodes.erase id) = (shape inodes).drop id := by
  rw [shape_erase, Graph.drop]
  congr 1
  ext x
  simp only [Set.mem_ofPred_eq]
  constructor
  · rintro ⟨hx, hne⟩
    exact ⟨hx, fun h => absurd h hne⟩
  · rintro ⟨hx, hkept⟩
    refine ⟨hx, fun h => ?_⟩
    rcases hdrop with hdir | hnone
    · exact (hkept h).1 hdir
    · exact hnone (hkept h).2

theorem shape_removeIfUnlinked (htyped : Typed inodes) :
    shape (removeIfUnlinked inodes id) = (shape inodes).drop id := by
  unfold removeIfUnlinked
  split
  · rename_i hget
    have hgone : id ∉ (shape inodes).present := by simp [shape, hget]
    refine (drop_eq_self htyped (fun hdir => ?_) fun hthere => absurd hthere hgone).symm
    obtain ⟨inode, hinode, -⟩ := mem_dirs.mp hdir
    exact hgone (mem_present.mpr ⟨inode, hinode⟩)
  · rename_i inode hget
    split
    · rename_i hdir
      exact shape_erase_drop (Or.inl (mem_dirs.mpr ⟨inode, hget, hdir⟩))
    · rename_i hdir
      split
      · rename_i hlinked
        refine (drop_eq_self htyped (fun hmem => ?_) fun _ => isLinked_iff.mp hlinked).symm
        obtain ⟨inode', hinode', hdir'⟩ := mem_dirs.mp hmem
        rw [hget] at hinode'
        cases hinode'
        exact hdir hdir'
      · rename_i hlinked
        exact shape_erase_drop (Or.inr fun h => hlinked (isLinked_iff.mpr h))

theorem Typed.erase (h : Typed inodes) : Typed (inodes.erase id) :=
  fun x inode hget => h x inode (Table.erase_sub inodes id x inode hget)

theorem Typed.removeIfUnlinked (h : Typed inodes) : Typed (removeIfUnlinked inodes id) := by
  unfold MemFs.removeIfUnlinked
  split
  · exact h
  · split
    · exact h.erase
    · split
      · exact h
      · exact h.erase

end Drop

theorem child_eq_none_of_empty {inodes : Table InodeId Inode} {id : InodeId}
    (hempty : ∀ inode below, inodes.get id = some inode → inode.entries? = some below →
      ∀ n, below.get n = none) (name : String) : (shape inodes).child id name = none := by
  rw [Option.eq_none_iff_forall_ne_some]
  intro child hchild
  obtain ⟨inode, entries, hget, hentries, hname⟩ := child_eq_some.mp hchild
  rw [hempty inode entries hget hentries name] at hname
  cases hname

/-! ## Entries carried to another place -/

section Move

variable {s : State} {now : Timestamp} {fromDir toDir child : InodeId} {fromName toName : String}
  {source target : Inode} {entries targets : Table String InodeId}

theorem shape_moveEntry (hfrom : s.inodes.get fromDir = some source)
    (hentries : source.entries? = some entries) (hto : s.inodes.get toDir = some target)
    (htargets : target.entries? = some targets) :
    shape (s.moveEntry now fromDir fromName toDir toName child).inodes =
      (shape s.inodes).withChild fun e m =>
        if e = toDir ∧ m = toName then some child
        else (shape s.inodes).setEntry fromDir fromName none e m := by
  unfold State.moveEntry
  split
  · rename_i heq
    subst heq
    rw [shape_changeDirectory hfrom hentries]
    congr 1
    funext e m
    by_cases he : e = fromDir
    · subst he
      by_cases hm : m = toName
      · simp [hm]
      · by_cases hm' : m = fromName
        · simp [Graph.setEntry, hm']
        · simp [Graph.setEntry, hm, hm', child_of_get hfrom hentries]
    · simp [Graph.setEntry, he]
  · rename_i hne
    have hto' : (s.changeDirectory now fromDir (·.erase fromName)).inodes.get toDir =
        some target := by
      rw [changeDirectory_ne (Ne.symm hne), hto]
    rw [shape_insert_name now toName hto' htargets, shape_erase_name now fromName hfrom hentries]
    rfl

theorem shape_moveParent {inode : Inode} (hget : s.inodes.get child = some inode)
    (hparent : inode.attrs.objectType = .directory → fromDir = toDir → inode.parent = some toDir) :
    shape (s.moveParent fromDir toDir child).inodes =
      { present := (shape s.inodes).present
        dirs := (shape s.inodes).dirs
        child := (shape s.inodes).child
        parent := fun x =>
          if x = child ∧ decide (inode.attrs.objectType = .directory) = true then some toDir
          else (shape s.inodes).parent x } := by
  have htype : ∀ x old, s.inodes.get x = some old →
      (if x = child then (if old.attrs.objectType = .directory ∧ fromDir ≠ toDir then
        { old with parent := some toDir } else old) else old).attrs.objectType =
        old.attrs.objectType := by
    intro x old _
    split
    · split <;> rfl
    · rfl
  refine Graph.ext_fields present_mapValues (dirs_mapValues htype) (child_mapValues ?_) ?_
  · intro x old _
    split
    · dsimp only
      split <;> rfl
    · rfl
  · funext x
    by_cases hx : x = child
    · subst hx
      by_cases hdir : inode.attrs.objectType = .directory
      · by_cases heq : fromDir = toDir
        · simp [shape, parentDirectory, State.moveParent, State.modify, hget, hdir, heq,
            hparent hdir heq]
        · simp [shape, parentDirectory, State.moveParent, State.modify, hget, hdir, heq]
      · simp [shape, parentDirectory, State.moveParent, State.modify, hget, hdir]
    · simp [shape, parentDirectory, State.moveParent, State.modify, hx]

theorem changeDirectory_place {id dir : InodeId} {inode : Inode}
    {f : Table String InodeId → Table String InodeId} (hget : s.inodes.get id = some inode) :
    ∃ inode', (s.changeDirectory now dir f).inodes.get id = some inode' ∧
      inode'.attrs.objectType = inode.attrs.objectType ∧ inode'.parent = inode.parent := by
  by_cases hid : id = dir
  · subst hid
    exact ⟨_, Table.get_modify_self hget _, rfl, rfl⟩
  · exact ⟨inode, by rw [changeDirectory_ne hid, hget], rfl, rfl⟩

variable (s now fromDir fromName toDir toName child)

theorem moveEntry_nextId :
    (s.moveEntry now fromDir fromName toDir toName child).nextId = s.nextId := by
  unfold State.moveEntry
  split
  · rfl
  · rfl

variable {s}

theorem moveEntry_place {id : InodeId} {inode : Inode} (hget : s.inodes.get id = some inode) :
    ∃ inode', (s.moveEntry now fromDir fromName toDir toName child).inodes.get id = some inode' ∧
      inode'.attrs.objectType = inode.attrs.objectType ∧ inode'.parent = inode.parent := by
  unfold State.moveEntry
  split
  · exact changeDirectory_place hget
  · obtain ⟨inode', hget', htype, hparent⟩ := changeDirectory_place hget
    obtain ⟨inode'', hget'', htype', hparent'⟩ := changeDirectory_place hget'
    exact ⟨inode'', hget'', htype'.trans htype, hparent'.trans hparent⟩

theorem Typed.moveEntry (h : Typed s.inodes) :
    Typed (s.moveEntry now fromDir fromName toDir toName child).inodes := by
  unfold State.moveEntry
  split
  · exact h.changeDirectory
  · exact (Typed.changeDirectory h).changeDirectory

theorem Typed.moveParent (h : Typed s.inodes) :
    Typed (s.moveParent fromDir toDir child).inodes := by
  refine h.mapValues ?_ ?_
  · intro x old _
    split
    · dsimp only
      split <;> rfl
    · rfl
  · intro x old _
    split
    · dsimp only
      split <;> rfl
    · rfl

theorem checkReplaced_empty (htyped : Typed s.inodes) {childType : ObjectType} {id : InodeId}
    (h : s.checkReplaced childType (some id) = .ok ()) (name : String) :
    (shape s.inodes).child id name = none := by
  refine child_eq_none_of_empty (fun inode below hget hbelow => ?_) name
  have hdir := (htyped id inode hget).mp (by simp [hbelow])
  simp only [State.checkReplaced, hget, hdir] at h
  cases childType with
  | directory =>
    refine Table.get_eq_none_of_isEmpty ?_
    simpa [hbelow] using h
  | file => cases h
  | symlink => cases h

end Move

/-! ## Every call keeps the file system well formed -/

namespace Confined

variable {ids : Set InodeId} {s : State} {now : Timestamp}

theorem of_wellFormed (hs : WellFormed s) : Confined .univ s := ⟨hs, fun _ _ => trivial⟩

theorem mono (hs : Confined ids s) {ids' : Set InodeId} (h : ids ⊆ ids') : Confined ids' s :=
  ⟨hs.toWellFormed, fun id hid => h (hs.within id hid)⟩

/-- What is left to show after the link counts have been computed anew. -/
theorem of_recount (htyped : Typed s.inodes) (htree : (shape s.inodes).IsTree rootId)
    (hwithin : ∀ id ∈ (shape s.inodes).present, id ∈ ids) : Confined ids s.recount where
  typed := htyped.recompute
  tree := by
    rw [State.recount, shape_recompute htyped]
    exact htree
  counted := .recompute fun id inode hget => (htyped id inode hget).mp
  within := by
    rw [State.recount, shape_recompute htyped]
    exact hwithin

theorem touched (hs : Confined ids s) {id : InodeId} {inode inode' : Inode}
    (hget : s.inodes.get id = some inode) (hplace : inode.SamePlace inode') (nextChange : Nat) :
    Confined ids { s.modify id fun _ => inode' with nextChange } := by
  have hval : ∀ x old, s.inodes.get x = some old →
      old.SamePlace (if x = id then inode' else old) := by
    intro x old hold
    split
    · rename_i hx
      rw [hx, hget] at hold
      cases hold
      exact hplace
    · exact ⟨rfl, rfl, rfl, rfl⟩
  have hshape : shape (s.modify id fun _ => inode').inodes = shape s.inodes :=
    shape_mapValues (fun x old hold => (hval x old hold).objectType)
      (fun x old hold => (hval x old hold).entries) fun x old hold => (hval x old hold).parent
  refine ⟨⟨hs.typed.mapValues ?_ ?_, hshape.symm ▸ hs.tree, ?_⟩, hshape.symm ▸ hs.within⟩
  · exact fun x old hold => (hval x old hold).objectType
  · exact fun x old hold => (hval x old hold).entries
  · refine hs.counted.mapValues (fun x old hold => (hval x old hold).objectType)
      (fun x old hold => ?_) fun x old hold => (hval x old hold).linkCount
    exact congrArg (fun o => Option.elim o [] Table.values) (hval x old hold).entries

section Enter

variable {parent : InodeId} {dir : Inode} {entries : Table String InodeId} {inode : Inode}

theorem shape_entered (hnew : s.nextId ∉ (shape s.inodes).present) (now : Timestamp)
    (name : String) (nextChange : Nat) (hparent : s.inodes.get parent = some dir) (hentries : dir.entries? = some entries)
    (hblank : inode.Blank parent) :
    shape ({ s with nextId := fetchAdd s.nextId, nextChange }.enter now parent name s.nextId
      inode).inodes =
      (shape s.inodes).add parent name s.nextId (inode.attrs.objectType = .directory) := by
  let s' : State := { s with nextId := fetchAdd s.nextId, nextChange }
  have hshape : shape (s'.changeDirectory now parent (·.insert name s.nextId)).inodes =
      (shape s.inodes).link parent name s.nextId :=
    shape_insert_name (s := s') now name hparent hentries s.nextId
  have hnone : (s'.changeDirectory now parent (·.insert name s.nextId)).inodes.get s.nextId =
      none := by
    have hgone : s.nextId ∉
        (shape (s'.changeDirectory now parent (·.insert name s.nextId)).inodes).present := by
      rw [hshape]
      exact hnew
    simpa [shape] using hgone
  refine (shape_insert hnone hblank).trans ?_
  rw [hshape]
  rfl

theorem typed_entered (hs : Confined ids s) (name : String) (nextChange : Nat)
    (hblank : inode.Blank parent) :
    Typed ({ s with nextId := fetchAdd s.nextId, nextChange }.enter now parent name s.nextId
      inode).inodes := by
  let s' : State := { s with nextId := fetchAdd s.nextId, nextChange }
  have htyped : Typed (s'.changeDirectory now parent (·.insert name s.nextId)).inodes :=
    Typed.changeDirectory (s := s') hs.typed
  exact htyped.insert hblank

theorem entered (hs : Confined ids s) (hnew : s.nextId ∉ (shape s.inodes).present)
    {name : String} {nextChange : Nat} (hparent : s.inodes.get parent = some dir) (hentries : dir.entries? = some entries)
    (hfree : entries.get name = none) (hblank : inode.Blank parent) :
    Confined (insert s.nextId ids)
      ({ s with nextId := fetchAdd s.nextId, nextChange }.enter now parent name s.nextId
        inode).recount := by
  have hadd := shape_entered hnew now name nextChange hparent hentries hblank
  refine of_recount (hs.typed_entered name nextChange hblank) ?_ ?_
  · rw [hadd]
    refine hs.tree.add (hs.typed.dir hparent hentries) hnew ?_
    rw [child_of_get hparent hentries, hfree]
  · intro id hid
    rw [hadd] at hid
    exact hid.imp_right (hs.within id)

end Enter

theorem linked (hs : Confined ids s) {source parent : InodeId} {name : String} {inode dir : Inode}
    {entries : Table String InodeId} (hsource : s.inodes.get source = some inode)
    (hfile : inode.attrs.objectType ≠ .directory) (hparent : s.inodes.get parent = some dir)
    (hentries : dir.entries? = some entries) (hfree : entries.get name = none) :
    Confined ids (s.changeDirectory now parent (·.insert name source)).recount := by
  have hshape := shape_insert_name now name hparent hentries source
  refine of_recount hs.typed.changeDirectory ?_ ?_
  · rw [hshape]
    refine hs.tree.link (hs.typed.dir hparent hentries) (mem_present.mpr ⟨inode, hsource⟩) ?_ ?_
    · intro hdir
      obtain ⟨inode', hsource', hdir'⟩ := mem_dirs.mp hdir
      rw [hsource] at hsource'
      cases hsource'
      exact hfile hdir'
    · rw [child_of_get hparent hentries, hfree]
  · rw [hshape]
    exact hs.within

section Remove

variable {parent child : InodeId} {name : String} {dir : Inode} {entries : Table String InodeId}

theorem shape_removed (hs : Confined ids s) (now : Timestamp)
    (hparent : s.inodes.get parent = some dir)
    (hentries : dir.entries? = some entries) (hchild : entries.get name = some child)
    (hempty : ∀ n, (shape s.inodes).child child n = none) :
    shape ((s.changeDirectory now parent (·.erase name)).dropReplaced (some child)).inodes =
      (shape s.inodes).unlink parent name := by
  have hentry : (shape s.inodes).child parent name = some child := by
    rw [child_of_get hparent hentries, hchild]
  rw [State.dropReplaced, shape_removeIfUnlinked hs.typed.changeDirectory,
    shape_erase_name now name hparent hentries, Graph.drop_eq_unlink hentry hempty]

theorem removed (hs : Confined ids s) (hparent : s.inodes.get parent = some dir)
    (hentries : dir.entries? = some entries) (hchild : entries.get name = some child)
    (hempty : ∀ n, (shape s.inodes).child child n = none) :
    Confined ids
      ((s.changeDirectory now parent (·.erase name)).dropReplaced (some child)).recount := by
  have hshape := hs.shape_removed now hparent hentries hchild hempty
  refine of_recount (Typed.removeIfUnlinked hs.typed.changeDirectory) ?_ ?_
  · rw [hshape]
    refine hs.tree.unlink fun c _ hc => ?_
    rw [child_of_get hparent hentries, hchild] at hc
    cases hc
    exact hempty
  · rw [hshape]
    exact fun id hid => hs.within id hid.1

end Remove

theorem shape_moved (hs : Confined ids s) (now : Timestamp) {fromDir toDir child : InodeId}
    {fromName : String} (toName : String) {source inode target : Inode} {entries targets : Table String InodeId}
    (hfrom : s.inodes.get fromDir = some source) (hentries : source.entries? = some entries)
    (hchild : entries.get fromName = some child) (hinode : s.inodes.get child = some inode)
    (hto : s.inodes.get toDir = some target) (htargets : target.entries? = some targets) :
    shape ((s.moveEntry now fromDir fromName toDir toName child).moveParent fromDir toDir
      child).inodes =
      (shape s.inodes).move fromDir fromName toDir toName child
        (inode.attrs.objectType = .directory) := by
  obtain ⟨inode', hinode', htype, hparent⟩ :=
    moveEntry_place now fromDir toDir child fromName toName hinode
  have hentry : (shape s.inodes).child fromDir fromName = some child := by
    rw [child_of_get hfrom hentries, hchild]
  rw [shape_moveParent hinode', shape_moveEntry hfrom hentries hto htargets]
  · simp only [htype]
    rfl
  · intro hdir heq
    have hdir : inode.attrs.objectType = .directory := htype.symm.trans hdir
    have := hs.tree.entry_parent fromDir fromName child hentry (mem_dirs.mpr ⟨inode, hinode, hdir⟩)
    rw [parent_of_get hinode hdir] at this
    rw [hparent, this, heq]

theorem renamed (hs : Confined ids s) {fromDir toDir child : InodeId} {fromName toName : String}
    {source inode target : Inode} {entries targets : Table String InodeId}
    (hfrom : s.inodes.get fromDir = some source) (hentries : source.entries? = some entries)
    (hchild : entries.get fromName = some child) (hinode : s.inodes.get child = some inode)
    (hdescends : inode.attrs.objectType = .directory →
      directoryDescendsFrom s.inodes toDir child = false)
    (hto : s.inodes.get toDir = some target) (htargets : target.entries? = some targets)
    (hother : targets.get toName ≠ some child)
    (hreplaced : s.checkReplaced inode.attrs.objectType (targets.get toName) = .ok ()) :
    Confined ids (((s.moveEntry now fromDir fromName toDir toName child).moveParent fromDir toDir
      child).dropReplaced (targets.get toName)).recount := by
  have hentry : (shape s.inodes).child fromDir fromName = some child := by
    rw [child_of_get hfrom hentries, hchild]
  have htaken : (shape s.inodes).child toDir toName = targets.get toName :=
    child_of_get hto htargets toName
  have hdirs : toDir ∈ (shape s.inodes).dirs := hs.typed.dir hto htargets
  have hdir : decide (inode.attrs.objectType = .directory) = true ↔
      child ∈ (shape s.inodes).dirs := by
    rw [decide_eq_true_eq, mem_dirs]
    constructor
    · exact fun h => ⟨inode, hinode, h⟩
    · rintro ⟨inode', hinode', h⟩
      rw [hinode] at hinode'
      cases hinode'
      exact h
  have havoid : child ∈ (shape s.inodes).dirs →
      ∀ x, Relation.ReflTransGen (shape s.inodes).Up toDir x → x ≠ child := fun h =>
    directoryDescendsFrom_complete hs.tree hdirs (hdescends (of_decide_eq_true (hdir.mpr h)))
  have hshape := hs.shape_moved now toName hfrom hentries hchild hinode hto htargets
  have htyped : Typed ((s.moveEntry now fromDir fromName toDir toName child).moveParent fromDir toDir
      child).inodes :=
    (hs.typed.moveEntry now fromDir toDir child fromName toName).moveParent fromDir toDir child
  cases hname : targets.get toName with
  | none =>
    refine of_recount htyped ?_ ?_
    · rw [State.dropReplaced, hshape]
      exact hs.tree.move hentry hdirs (by rw [htaken, hname]) hdir havoid
    · rw [State.dropReplaced, hshape]
      exact hs.within
  | some replaced =>
    rw [hname] at hreplaced htaken hother
    have hne : replaced ≠ child := fun h => hother (by rw [h])
    refine of_recount htyped.removeIfUnlinked ?_ ?_
    · rw [State.dropReplaced, shape_removeIfUnlinked htyped, hshape]
      exact hs.tree.move_over hentry hdirs htaken hne (checkReplaced_empty hs.typed hreplaced) hdir
        havoid
    · rw [State.dropReplaced, shape_removeIfUnlinked htyped, hshape]
      exact fun id hmem => hs.within id hmem.1

theorem new (now : Timestamp) : Confined {rootId} (.new now) := by
  have hroot : ∀ id inode, (State.new now).inodes.get id = some inode →
      id = rootId ∧ inode.attrs.objectType = .directory ∧ inode.entries? = some .empty ∧
        inode.parent = none ∧ inode.attrs.linkCount = 2 := by
    intro id inode hget
    simp only [State.new, Table.get_insert, Table.get_empty] at hget
    split at hget
    · rename_i hid
      cases hget
      exact ⟨hid, rfl, rfl, rfl, rfl⟩
    · cases hget
  have hdir : rootId ∈ (shape (State.new now).inodes).dirs :=
    mem_dirs.mpr ⟨_, Table.get_insert_self _ _ _, rfl⟩
  have honly : ∀ id ∈ (shape (State.new now).inodes).present, id = rootId := by
    intro id hid
    obtain ⟨inode, hget⟩ := mem_present.mp hid
    exact (hroot id inode hget).1
  have hempty : ∀ d n, (shape (State.new now).inodes).child d n = none := by
    refine fun d => child_eq_none_of_empty fun inode below hget hbelow n => ?_
    rw [(hroot d inode hget).2.2.1] at hbelow
    cases hbelow
    rfl
  have hdirs : ∀ id ∈ (shape (State.new now).inodes).dirs,
      id ∈ (shape (State.new now).inodes).present := by
    intro id hid
    obtain ⟨inode, hget, -⟩ := mem_dirs.mp hid
    exact mem_present.mpr ⟨inode, hget⟩
  refine ⟨⟨?_, ⟨hdirs, hdir, rfl, ?_, ?_, ?_, ?_, ?_, ?_⟩, ?_⟩, honly⟩
  · intro id inode hget
    obtain ⟨-, htype, hentries, -⟩ := hroot id inode hget
    simp [htype, hentries]
  · exact fun d n c h => absurd h (by simp [hempty])
  · exact fun d n c h => absurd h (by simp [hempty])
  · exact fun d n c h => absurd h (by simp [hempty])
  · exact fun d n n' c h => absurd h (by simp [hempty])
  · exact fun c hc hne => absurd (honly c hc) hne
  · intro c hc
    rw [honly c (hdirs c hc)]
    exact ⟨0, .root⟩
  · intro id inode hget
    obtain ⟨rfl, htype, hentries, -, hcount⟩ := hroot id inode hget
    rw [hcount, htype]
    rfl

/-- A call leaves the inodes that are there and their numbers, or enters one with the number that
is next. -/
theorem effect (hs : Confined ids s) (hnew : s.nextId ∉ (shape s.inodes).present) {op : Op}
    {s' : State} (h : Effect s now op s') :
    Confined ids s' ∧ (s'.nextId = s.nextId ∨ s'.nextId = fetchAdd s.nextId) ∨
      Confined (insert s.nextId ids) s' ∧ s'.nextId = fetchAdd s.nextId := by
  cases h with
  | idle hinodes hid _ =>
    exact Or.inl ⟨⟨⟨hinodes ▸ hs.typed, hinodes ▸ hs.tree, hinodes ▸ hs.counted⟩,
      hinodes ▸ hs.within⟩, hid⟩
  | touched hget hplace _ => exact Or.inl ⟨hs.touched hget hplace _, Or.inl rfl⟩
  | entered _ hparent hentries hfree hblank _ =>
    exact Or.inr ⟨hs.entered hnew hparent hentries hfree hblank, rfl⟩
  | linked hsource hfile hparent hentries hfree _ =>
    exact Or.inl ⟨hs.linked hsource hfile hparent hentries hfree, Or.inl rfl⟩
  | removed hparent hentries hchild hempty =>
    exact Or.inl ⟨hs.removed hparent hentries hchild (child_eq_none_of_empty hempty), Or.inl rfl⟩
  | @renamed fromDir toDir child fromName toName source inode target entries targets hfrom hentries
      hchild hinode hdescends hto htargets hother hreplaced =>
    refine Or.inl ⟨hs.renamed hfrom hentries hchild hinode hdescends hto htargets hother hreplaced,
      Or.inl ?_⟩
    refine Eq.trans ?_ (moveEntry_nextId s now fromDir toDir child fromName toName)
    cases targets.get toName <;> rfl

end Confined

/-! ## Runs -/

theorem State.run_append (s : State) (calls calls' : List (Timestamp × Op)) :
    s.run (calls ++ calls') = (s.run calls).run calls' :=
  List.foldl_append

/-- The inode number that is taken after `n` others. -/
def numbered (n : Nat) : InodeId := (2 + n) % 2 ^ 64

theorem fetchAdd_numbered (n : Nat) : fetchAdd (numbered n) = numbered (n + 1) := by
  simp only [fetchAdd, numbered]
  omega

/-- `n` inode numbers have been taken, and the inodes have the root's and these. -/
structure Taken (n : Nat) (s : State) : Prop extends
    Confined (insert rootId {id | ∃ i < n, id = numbered i}) s where
  nextId : s.nextId = numbered n

namespace Taken

variable {n : Nat} {s : State} {now : Timestamp}

/-- The number that is next comes back to the root's only after all others have been taken. -/
theorem not_present (hs : Taken n s) (hn : n < 2 ^ 64 - 1) :
    s.nextId ∉ (shape s.inodes).present := by
  intro h
  have hmem := hs.within _ h
  rw [hs.nextId] at hmem
  rcases hmem with hroot | ⟨i, hi, heq⟩
  · have hroot : (2 + n) % 2 ^ 64 = 1 := hroot
    omega
  · have heq : (2 + n) % 2 ^ 64 = (2 + i) % 2 ^ 64 := heq
    omega

theorem effect (hs : Taken n s) (hn : n < 2 ^ 64 - 1) {op : Op} {s' : State}
    (h : Effect s now op s') : ∃ m ≤ n + 1, Taken m s' := by
  have hmono : insert rootId {id | ∃ i < n, id = numbered i} ⊆
      insert rootId {id | ∃ i < n + 1, id = numbered i} :=
    Set.insert_subset_insert fun id ⟨i, hi, h⟩ => ⟨i, Nat.lt_succ_of_lt hi, h⟩
  rcases hs.toConfined.effect (hs.not_present hn) h with ⟨hs', hid | hid⟩ | ⟨hs', hid⟩
  · exact ⟨n, Nat.le_succ n, hs', hid.trans hs.nextId⟩
  · exact ⟨n + 1, le_rfl, hs'.mono hmono, by rw [hid, hs.nextId, fetchAdd_numbered]⟩
  · refine ⟨n + 1, le_rfl, hs'.mono ?_, by rw [hid, hs.nextId, fetchAdd_numbered]⟩
    refine Set.insert_subset (Or.inr ⟨n, Nat.lt_succ_self n, hs.nextId⟩) hmono

theorem run (hs : Taken n s) {calls : List (Timestamp × Op)} (hn : n + calls.length < 2 ^ 64) :
    ∃ m ≤ n + calls.length, Taken m (s.run calls) := by
  induction calls generalizing n s with
  | nil => exact ⟨n, le_rfl, hs⟩
  | cons call calls ih =>
    rw [List.length_cons] at hn
    obtain ⟨m, hm, hs'⟩ := hs.effect (by omega) (s.step_effect call.1 call.2)
    obtain ⟨k, hk, hend⟩ := ih hs' (by omega)
    exact ⟨k, by rw [List.length_cons]; omega, hend⟩

end Taken

/-- Fewer than 2⁶⁴ calls keep a new file system well formed. -/
theorem WellFormed.of_new (start : Timestamp) {calls : List (Timestamp × Op)}
    (h : calls.length < 2 ^ 64) : WellFormed ((State.new start).run calls) := by
  have hnew : Taken 0 (State.new start) :=
    ⟨(Confined.new start).mono (by simp), rfl⟩
  have hlength : 0 + calls.length < 2 ^ 64 := by omega
  obtain ⟨m, -, hs⟩ := hnew.run hlength
  exact hs.toWellFormed

end EmbedNfs.MemFs
