import EmbedNfs.MemFs.Operations

/-!
# What a call can do to the file system

`Effect s now op s'` says what a call may leave behind: nothing but used numbers, one inode
rewritten, a new inode with an entry, another entry, an entry taken away, or an entry carried
to another place. `State.step_effect` is the only place where the calls are opened.
-/

namespace EmbedNfs.MemFs

/-- The inodes have the same place in the tree: type, entries, parent and link count. -/
structure Inode.SamePlace (inode inode' : Inode) : Prop where
  objectType : inode'.attrs.objectType = inode.attrs.objectType
  entries : inode'.entries? = inode.entries?
  parent : inode'.parent = inode.parent
  linkCount : inode'.attrs.linkCount = inode.attrs.linkCount

/-- A new inode that is to be entered into a directory: a directory has no entries yet. -/
structure Inode.Blank (inode : Inode) (parent : InodeId) : Prop where
  parent : inode.parent = some parent
  entries : inode.entries? = if inode.attrs.objectType = .directory then some .empty else none

/-- The change value of a new inode: its number if no attribute is requested. -/
def newChange (s : State) (set : SetAttrs) : Nat :=
  if set.isEmpty then max s.nextId 1 else s.nextChange

/-- The counter of change values after the attributes of a new inode have been applied. -/
def nextChangeAfter (s : State) (set : SetAttrs) : Nat :=
  if set.isEmpty then s.nextChange else fetchAdd s.nextChange

/-- What a call may leave behind. -/
inductive Effect (s : State) (now : Timestamp) : Op → State → Prop where
  | idle {op : Op} {s' : State} (hinodes : s'.inodes = s.inodes)
      (hid : s'.nextId = s.nextId ∨ s'.nextId = fetchAdd s.nextId)
      (hchange : s'.nextChange = s.nextChange ∨ s'.nextChange = fetchAdd s.nextChange) : Effect s now op s'
  | touched {op : Op} {id : InodeId} {inode inode' : Inode} (hget : s.inodes.get id = some inode)
      (hplace : inode.SamePlace inode') (hchange : inode'.attrs.change = s.nextChange) :
      Effect s now op { s.modify id fun _ => inode' with nextChange := fetchAdd s.nextChange }
  | entered {op : Op} {set : SetAttrs} {parent : InodeId} {dir : Inode}
      {entries : Table String InodeId} {name : String} {inode : Inode}
      (hop : (∃ ctx kind, op = .create ctx parent name kind set) ∨
        ∃ ctx target, op = .createSymlink ctx parent name target set)
      (hparent : s.inodes.get parent = some dir) (hentries : dir.entries? = some entries)
      (hfree : entries.get name = none) (hblank : inode.Blank parent)
      (hchange : inode.attrs.change = newChange s set) :
      Effect s now op
        ({ s with nextId := fetchAdd s.nextId, nextChange := nextChangeAfter s set }.enter now parent name
          s.nextId inode).recount
  | linked {source parent : InodeId} {name : String} {inode dir : Inode}
      {entries : Table String InodeId} (hsource : s.inodes.get source = some inode)
      (hfile : inode.attrs.objectType ≠ .directory) (hparent : s.inodes.get parent = some dir)
      (hentries : dir.entries? = some entries) (hfree : entries.get name = none)
      (hok : (s.link now source parent name).1 = .ok ()) :
      Effect s now (.link source parent name)
        ((s.changeDirectory now parent (·.insert name source)).recount)
  | removed {parent child : InodeId} {name : String} {dir : Inode}
      {entries : Table String InodeId} (hparent : s.inodes.get parent = some dir)
      (hentries : dir.entries? = some entries) (hchild : entries.get name = some child)
      (hempty : ∀ inode below, s.inodes.get child = some inode → inode.entries? = some below →
        ∀ n, below.get n = none) :
      Effect s now (.remove parent name)
        (((s.changeDirectory now parent (·.erase name)).dropReplaced (some child)).recount)
  | renamed {fromDir toDir child : InodeId} {fromName toName : String}
      {source inode target : Inode} {entries targets : Table String InodeId}
      (hfrom : s.inodes.get fromDir = some source) (hentries : source.entries? = some entries)
      (hchild : entries.get fromName = some child) (hinode : s.inodes.get child = some inode)
      (hdescends : inode.attrs.objectType = .directory →
        directoryDescendsFrom s.inodes toDir child = false)
      (hto : s.inodes.get toDir = some target) (htargets : target.entries? = some targets)
      (hother : targets.get toName ≠ some child)
      (hreplaced : s.checkReplaced inode.attrs.objectType (targets.get toName) = .ok ()) :
      Effect s now (.rename fromDir fromName toDir toName)
        ((((s.moveEntry now fromDir fromName toDir toName child).moveParent fromDir toDir
          child).dropReplaced (targets.get toName)).recount)

theorem Effect.refl {s : State} {now : Timestamp} {op : Op} : Effect s now op s :=
  .idle rfl (Or.inl rfl) (Or.inl rfl)

/-- Taking an inode number is all that a failing `create` has done. -/
theorem Effect.took {s : State} {now : Timestamp} {op : Op} :
    Effect s now op { s with nextId := fetchAdd s.nextId } :=
  .idle rfl (Or.inr rfl) (Or.inl rfl)

theorem Inode.applySize_place {inode inode' : Inode} {size : Option U64}
    (h : inode.applySize size = .ok inode') :
    inode.SamePlace inode' ∧ inode'.attrs.change = inode.attrs.change := by
  unfold Inode.applySize at h
  split at h
  · cases h
    exact ⟨⟨rfl, rfl, rfl, rfl⟩, rfl⟩
  · split at h
    · rename_i data hdata
      split at h
      · cases h
      · cases h
        exact ⟨⟨rfl, by simp [Inode.entries?, hdata], rfl, rfl⟩, rfl⟩
    · cases h

theorem Inode.applySize_none {inode inode' : Inode} (h : inode.applySize none = .ok inode') :
    inode' = inode := by
  cases h
  rfl

theorem applySetattrs_place {now : Timestamp} {inode inode' : Inode} {set : SetAttrs}
    {nextChange nextChange' : Nat}
    (h : applySetattrs now inode set nextChange = .ok (inode', nextChange')) :
    inode.SamePlace inode' ∧
      ((set.isEmpty = true ∧ inode' = inode ∧ nextChange' = nextChange) ∨
        (set.isEmpty = false ∧ inode'.attrs.change = nextChange ∧ nextChange' = fetchAdd nextChange)) := by
  unfold applySetattrs at h
  split at h
  · cases h
  · rename_i sized hsized
    obtain ⟨hplace, -⟩ := Inode.applySize_place hsized
    split at h
    · rename_i hempty
      cases h
      have hnone : set.size = none := by
        unfold SetAttrs.isEmpty at hempty
        simp_all
      rw [hnone] at hsized
      exact ⟨hplace, Or.inl ⟨hempty, Inode.applySize_none hsized, rfl⟩⟩
    · rename_i hset
      cases h
      exact ⟨⟨hplace.objectType, hplace.entries, hplace.parent, hplace.linkCount⟩,
        Or.inr ⟨Bool.not_eq_true _ ▸ hset, rfl, rfl⟩⟩

/-! ## The calls -/

section Calls

variable (s : State) (now : Timestamp)

theorem write_effect (handle : InodeId) (offset : U64) (data : Bytes) :
    Effect s now (.write handle offset data) (s.step now (.write handle offset data)) := by
  simp only [State.step, State.write]
  split
  · exact .refl
  · rename_i inode hget
    split
    · rename_i file hfile
      split
      · exact .refl
      · rw [State.modify, Table.modify_const hget]
        exact .touched hget ⟨rfl, by simp [Inode.entries?, hfile], rfl, rfl⟩ rfl
    · exact .refl

theorem setattr_effect (handle : InodeId) (set : SetAttrs) :
    Effect s now (.setattr handle set) (s.step now (.setattr handle set)) := by
  simp only [State.step, State.setattr]
  split
  · exact .refl
  · rename_i inode hget
    split
    · exact .refl
    · rename_i inode' nextChange h
      obtain ⟨hplace, ⟨-, rfl, rfl⟩ | ⟨-, hchange, rfl⟩⟩ := applySetattrs_place h
      · exact .idle (Table.modify_same hget) (Or.inl rfl) (Or.inl rfl)
      · exact .touched hget hplace hchange

theorem setXattr_effect (handle : InodeId) (name : String) (value : Bytes) (mode : XattrSetMode) :
    Effect s now (.setXattr handle name value mode)
      (s.step now (.setXattr handle name value mode)) := by
  simp only [State.step, State.setXattr]
  split
  · exact .refl
  · rename_i inode hget
    split
    · exact .refl
    · split
      · exact .refl
      · rw [State.modify, Table.modify_const hget]
        exact .touched hget ⟨rfl, rfl, rfl, rfl⟩ rfl

theorem removeXattr_effect (handle : InodeId) (name : String) :
    Effect s now (.removeXattr handle name) (s.step now (.removeXattr handle name)) := by
  simp only [State.step, State.removeXattr]
  split
  · exact .refl
  · rename_i inode hget
    split
    · exact .refl
    · rw [State.modify, Table.modify_const hget]
      exact .touched hget ⟨rfl, rfl, rfl, rfl⟩ rfl

theorem link_effect (source parent : InodeId) (name : String) :
    Effect s now (.link source parent name) (s.step now (.link source parent name)) := by
  simp only [State.step]
  cases hsource : s.inodes.get source with
  | none => simpa [State.link, hsource, State.fail] using Effect.refl
  | some inode =>
    by_cases hdir : inode.attrs.objectType = .directory
    · simpa [State.link, hsource, hdir, State.fail] using Effect.refl
    · cases hparent : s.inodes.get parent with
      | none => simpa [State.link, hsource, hdir, hparent, State.fail] using Effect.refl
      | some dir =>
        cases hentries : dir.entries? with
        | none => simpa [State.link, hsource, hdir, hparent, hentries, State.fail] using Effect.refl
        | some entries =>
          cases hfree : entries.get name with
          | some id =>
            simpa [State.link, hsource, hdir, hparent, hentries, hfree, State.fail] using Effect.refl
          | none =>
            have hlink : s.link now source parent name =
                (.ok (), (s.changeDirectory now parent (·.insert name source)).recount) := by
              simp [State.link, hsource, hdir, hparent, hentries, hfree]
            rw [hlink]
            exact .linked hsource hdir hparent hentries hfree (by rw [hlink])

theorem remove_effect (parent : InodeId) (name : String) :
    Effect s now (.remove parent name) (s.step now (.remove parent name)) := by
  simp only [State.step, State.remove]
  split
  · exact .refl
  · rename_i dir hparent
    split
    · exact .refl
    · rename_i entries hentries
      split
      · exact .refl
      · rename_i child hchild
        split
        · exact .refl
        · rename_i hempty
          refine .removed hparent hentries hchild fun inode below hinode hbelow => ?_
          refine Table.get_eq_none_of_isEmpty ?_
          simpa [hinode, hbelow] using hempty

theorem rename_effect (fromDir : InodeId) (fromName : String) (toDir : InodeId)
    (toName : String) :
    Effect s now (.rename fromDir fromName toDir toName)
      (s.step now (.rename fromDir fromName toDir toName)) := by
  simp only [State.step, State.rename]
  split
  · exact .refl
  · rename_i source hfrom
    split
    · exact .refl
    · rename_i entries hentries
      split
      · exact .refl
      · rename_i child hchild
        split
        · exact .refl
        · rename_i inode hinode
          split
          · exact .refl
          · rename_i hdescends
            split
            · exact .refl
            · rename_i target hto
              split
              · exact .refl
              · rename_i targets htargets
                split
                · exact .refl
                · rename_i hother
                  split
                  · exact .refl
                  · rename_i hreplaced
                    refine .renamed hfrom hentries hchild hinode (fun hdir => ?_) hto htargets
                      hother hreplaced
                    simpa [hdir] using hdescends

/-- What `create` and `create_symlink` have made before they enter it. -/
theorem Inode.Blank.of_place {inode inode' : Inode} {parent : InodeId}
    (h : inode.Blank parent) (hplace : inode.SamePlace inode') : inode'.Blank parent := by
  refine ⟨hplace.parent.trans h.parent, ?_⟩
  rw [hplace.entries, hplace.objectType, h.entries]

theorem applyCreateOwner_place (attrs : InodeAttrs) (ctx : RequestContext) :
    (attrs.applyCreateOwner ctx).objectType = attrs.objectType ∧
      (attrs.applyCreateOwner ctx).change = attrs.change := by
  unfold InodeAttrs.applyCreateOwner
  split
  · exact ⟨rfl, rfl⟩
  · exact ⟨rfl, rfl⟩

theorem applySetattrs_new {s : State} {now : Timestamp} {inode inode' : Inode} {set : SetAttrs}
    {nextChange : Nat} (hnew : inode.attrs.change = max s.nextId 1)
    (h : applySetattrs now inode set s.nextChange = .ok (inode', nextChange)) :
    inode'.attrs.change = newChange s set ∧ nextChange = nextChangeAfter s set := by
  obtain ⟨-, ⟨hempty, rfl, rfl⟩ | ⟨hset, hchange, rfl⟩⟩ := applySetattrs_place h
  · simp [newChange, nextChangeAfter, hempty, hnew]
  · simp [newChange, nextChangeAfter, hset, hchange]

theorem create_effect (ctx : RequestContext) (parent : InodeId) (name : String)
    (kind : CreateKind) (set : SetAttrs) :
    Effect s now (.create ctx parent name kind set)
      (s.step now (.create ctx parent name kind set)) := by
  simp only [State.step, State.create]
  split
  · exact .took
  · rename_i dir hparent
    split
    · exact .took
    · split
      · exact .took
      · rename_i hfree
        split
        · exact .took
        · rename_i inode nextChange h
          obtain ⟨hplace, -⟩ := applySetattrs_place h
          obtain ⟨hchange, rfl⟩ := applySetattrs_new (by
            rw [(applyCreateOwner_place _ _).2]
            rfl) h
          have hblank : inode.Blank parent := by
            refine Inode.Blank.of_place ⟨rfl, ?_⟩ hplace
            rw [(applyCreateOwner_place _ _).1]
            cases kind <;> rfl
          cases hentries : dir.entries? with
          | none =>
            refine .idle rfl (Or.inr rfl) ?_
            simp only [Option.isNone_none, if_true, State.fail, nextChangeAfter]
            split
            · exact Or.inl rfl
            · exact Or.inr rfl
          | some entries =>
            have hfree : entries.get name = none := by simpa [hentries] using hfree
            have heffect : Effect s now (.create ctx parent name kind set)
                ({ s with nextId := fetchAdd s.nextId, nextChange := nextChangeAfter s set }.enter now
                  parent name s.nextId inode).recount :=
              .entered (Or.inl ⟨ctx, kind, rfl⟩) hparent hentries hfree hblank hchange
            simp only [Option.isNone_some, Bool.false_eq_true, if_false]
            split
            · exact heffect
            · exact heffect

theorem createSymlink_effect (ctx : RequestContext) (parent : InodeId) (name target : String)
    (set : SetAttrs) :
    Effect s now (.createSymlink ctx parent name target set)
      (s.step now (.createSymlink ctx parent name target set)) := by
  simp only [State.step, State.createSymlink]
  split
  · exact .took
  · rename_i dir hparent
    split
    · exact .took
    · rename_i entries hentries
      split
      · exact .took
      · rename_i hfree
        split
        · exact .took
        · rename_i inode nextChange h
          obtain ⟨hplace, -⟩ := applySetattrs_place h
          obtain ⟨hchange, rfl⟩ := applySetattrs_new (by
            rw [(applyCreateOwner_place _ _).2]
            rfl) h
          have hblank : inode.Blank parent := by
            refine Inode.Blank.of_place ⟨rfl, ?_⟩ hplace
            rw [(applyCreateOwner_place _ _).1]
            rfl
          have heffect : ∀ size, Effect s now (.createSymlink ctx parent name target set)
              ({ s with nextId := fetchAdd s.nextId, nextChange := nextChangeAfter s set }.enter now
                parent name s.nextId
                { inode with attrs := { inode.attrs with size, spaceUsed := size } }).recount :=
            fun size => .entered (Or.inr ⟨ctx, target, rfl⟩) hparent hentries
              (Option.not_isSome_iff_eq_none.mp hfree) ⟨hblank.parent, hblank.entries⟩ hchange
          split
          · exact heffect _
          · exact heffect _

theorem State.step_effect (op : Op) : Effect s now op (s.step now op) := by
  cases op with
  | create ctx parent name kind set => exact create_effect s now ctx parent name kind set
  | createSymlink ctx parent name target set =>
    exact createSymlink_effect s now ctx parent name target set
  | link source parent name => exact link_effect s now source parent name
  | remove parent name => exact remove_effect s now parent name
  | rename fromDir fromName toDir toName => exact rename_effect s now fromDir fromName toDir toName
  | write handle offset data => exact write_effect s now handle offset data
  | setattr handle set => exact setattr_effect s now handle set
  | setXattr handle name value mode => exact setXattr_effect s now handle name value mode
  | removeXattr handle name => exact removeXattr_effect s now handle name

end Calls

end EmbedNfs.MemFs
