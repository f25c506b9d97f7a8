import EmbedNfs.MemFs.Operations

/-!
# A failed call of the in-memory file system changes no inode

Every call makes its checks before its first change. The calls in `MemFs.Operations` show that by
their shape, except where `apply_setattrs` assigns to an inode in place: there an early return
would leave the assignments made before it. `Update` has these statements one by one, over an inode
that keeps what was assigned to it when a later statement fails, and `setattrInPlace_eq` shows that
nothing was.
-/

namespace EmbedNfs

namespace MemFs

/-! ## Assignments in place -/

/-- What `apply_setattrs` writes to: the inode, the counter of change values, and its flags. -/
structure Assigning where
  inode : Inode
  nextChange : Nat
  changed : Bool := false
  dataChanged : Bool := false
  explicitMtime : Bool := false

/-- Statements that assign in place. What has been assigned stays when one of them fails. -/
abbrev Update := ExceptT FsError (StateM Assigning)

/-- `if let Some(value) = value { inode.attrs.field = …; changed = true; }`. -/
def assign {α : Type} (value : Option α) (write : α → InodeAttrs → InodeAttrs) : Update PUnit :=
  match value with
  | none => pure ⟨⟩
  | some v => modify fun p => { p with inode.attrs := write v p.inode.attrs, changed := true }

/-- The size part of `apply_setattrs`. -/
def assignSize (size : Option U64) : Update PUnit :=
  match size with
  | none => pure ⟨⟩
  | some size => do
    match (← get).inode.data with
    | .file data =>
      let len ← liftExcept (checkedFileLen size.toNat)
      modify fun p => { p with inode.data := .file (resize data len) }
      modify fun p => { p with inode.attrs.size := size }
      modify fun p => { p with inode.attrs.spaceUsed := size }
      modify fun p => { p with changed := true, dataChanged := true }
    | _ => throw .invalidInput
where
  liftExcept (x : Except FsError Nat) : Update Nat := ExceptT.mk (pure x)

/-- The last part of `apply_setattrs`. -/
def assignChange (now : Timestamp) : Update PUnit := do
  if (← get).changed then
    modify fun p =>
      { p with inode.attrs.change := p.nextChange, nextChange := fetchAdd p.nextChange }
    modify fun p => { p with inode.attrs.ctime := now }
    if (← get).dataChanged && !(← get).explicitMtime then
      modify fun p => { p with inode.attrs.mtime := now }

/-- `apply_setattrs`, statement by statement. -/
def applySetattrsInPlace (now : Timestamp) (set : SetAttrs) : Update PUnit := do
  assignSize set.size
  assign (set.mode.map (· &&& 0o7777)) fun mode attrs => { attrs with mode }
  assign set.uid fun uid attrs => { attrs with uid }
  assign set.gid fun gid attrs => { attrs with gid }
  assign set.archive fun archive attrs => { attrs with archive }
  assign set.hidden fun hidden attrs => { attrs with hidden }
  assign set.system fun system attrs => { attrs with system }
  assign (set.atime.map (applySetTime now)) fun atime attrs => { attrs with atime }
  assign (set.mtime.map (applySetTime now)) fun mtime attrs => { attrs with mtime }
  modify fun p => { p with explicitMtime := set.mtime.isSome }
  assign (set.birthtime.map (applySetTime now)) fun birthtime attrs => { attrs with birthtime }
  assignChange now

/-- `setattr` on the inode in place. -/
def State.setattrInPlace (s : State) (now : Timestamp) (handle : InodeId) (set : SetAttrs) :
    Except FsError InodeAttrs × State :=
  match s.inodes.get handle with
  | none => s.fail .stale
  | some inode =>
    let (answer, p) := (applySetattrsInPlace now set).run ⟨inode, s.nextChange, false, false, false⟩
    (answer.map fun _ => p.inode.attrs,
      { s.modify handle fun _ => p.inode with nextChange := p.nextChange })

/-! ### What the statements come to -/

theorem assign_run {α : Type} (value : Option α) (write : α → InodeAttrs → InodeAttrs)
    (read : InodeAttrs → α) (hread : ∀ attrs, write (read attrs) attrs = attrs) (p : Assigning) :
    (assign value write).run p =
      (.ok ⟨⟩,
        { p with
          inode.attrs := write (value.getD (read p.inode.attrs)) p.inode.attrs
          changed := p.changed || value.isSome }) := by
  cases value with
  | none => simp only [Option.getD_none, hread, Option.isSome_none, Bool.or_false]; rfl
  | some v => simp only [Option.getD_some, Option.isSome_some, Bool.or_true]; rfl

theorem Update.bind_ok {α β : Type} {x : Update α} {f : α → Update β} {p p' : Assigning} {a : α}
    (h : x.run p = (.ok a, p')) : (x >>= f).run p = (f a).run p' := by
  simp only [ExceptT.run, bind, ExceptT.bind, ExceptT.mk, StateT.bind] at h ⊢
  rw [h]
  rfl

theorem Update.get_bind {β : Type} (f : Assigning → Update β) (p : Assigning) :
    (get >>= f).run p = (f p).run p := rfl

theorem Update.modify_bind {β : Type} (g : Assigning → Assigning) (f : PUnit → Update β)
    (p : Assigning) : (modify g >>= f).run p = (f ⟨⟩).run (g p) := rfl

theorem Update.bind_error {α β : Type} {x : Update α} {f : α → Update β} {p p' : Assigning}
    {e : FsError} (h : x.run p = (.error e, p')) : (x >>= f).run p = (.error e, p') := by
  simp only [ExceptT.run, bind, ExceptT.bind, ExceptT.mk, StateT.bind] at h ⊢
  rw [h]
  rfl

theorem assignSize_error {p : Assigning} {size : Option U64} {e : FsError}
    (h : p.inode.applySize size = .error e) : (assignSize size).run p = (.error e, p) := by
  cases size with
  | none => cases h
  | some size =>
    simp only [Inode.applySize] at h
    cases hdata : p.inode.data with
    | file data =>
      simp only [hdata] at h
      cases hlen : checkedFileLen size.toNat with
      | error e' =>
        simp only [hlen, Except.error.injEq] at h
        subst h
        simp only [assignSize]
        rw [Update.get_bind, hdata]
        exact Update.bind_error (by rw [hlen]; rfl)
      | ok len =>
        simp only [hlen, reduceCtorEq] at h
    | directory entries =>
      simp only [hdata, Except.error.injEq] at h
      subst h
      simp only [assignSize]
      rw [Update.get_bind, hdata]
      rfl
    | symlink target =>
      simp only [hdata, Except.error.injEq] at h
      subst h
      simp only [assignSize]
      rw [Update.get_bind, hdata]
      rfl

theorem assignSize_ok {inode inode' : Inode} {nextChange : Nat} {size : Option U64}
    (h : inode.applySize size = .ok inode') :
    (assignSize size).run ⟨inode, nextChange, false, false, false⟩ =
      (.ok ⟨⟩, ⟨inode', nextChange, size.isSome, size.isSome, false⟩) := by
  cases size with
  | none =>
    cases h
    rfl
  | some size =>
    simp only [Inode.applySize] at h
    cases hdata : inode.data with
    | file data =>
      simp only [hdata] at h
      cases hlen : checkedFileLen size.toNat with
      | error e => simp only [hlen, reduceCtorEq] at h
      | ok len =>
        simp only [hlen, Except.ok.injEq] at h
        subst h
        simp only [assignSize]
        rw [Update.get_bind, hdata]
        rw [Update.bind_ok (a := len) (by rw [hlen]; rfl)]
        rfl
    | directory entries => simp only [hdata, reduceCtorEq] at h
    | symlink target => simp only [hdata, reduceCtorEq] at h

theorem applySetattrsInPlace_error {now : Timestamp} {inode : Inode} {set : SetAttrs}
    {nextChange : Nat} {e : FsError} (h : applySetattrs now inode set nextChange = .error e) :
    (applySetattrsInPlace now set).run ⟨inode, nextChange, false, false, false⟩ =
      (.error e, ⟨inode, nextChange, false, false, false⟩) := by
  have hsize : inode.applySize set.size = .error e := by
    unfold applySetattrs at h
    split at h
    · rename_i hsize
      rw [hsize]
      cases h
      rfl
    · split at h <;> cases h
  exact Update.bind_error (assignSize_error hsize)

/-- What the last part leaves. -/
def Assigning.finish (now : Timestamp) (p : Assigning) : Assigning :=
  if p.changed then
    { p with
      inode.attrs.change := p.nextChange
      inode.attrs.ctime := now
      inode.attrs.mtime := if p.dataChanged && !p.explicitMtime then now else p.inode.attrs.mtime
      nextChange := fetchAdd p.nextChange }
  else p

theorem assignChange_run (now : Timestamp) (p : Assigning) :
    (assignChange now).run p = (.ok ⟨⟩, p.finish now) := by
  rcases p with ⟨inode, nextChange, changed, dataChanged, explicitMtime⟩
  cases changed
  · rfl
  · cases dataChanged
    · rfl
    · cases explicitMtime <;> rfl

theorem isEmpty_eq (set : SetAttrs) :
    set.isEmpty = !(set.size.isSome || set.mode.isSome || set.uid.isSome || set.gid.isSome ||
      set.archive.isSome || set.hidden.isSome || set.system.isSome || set.atime.isSome ||
      set.mtime.isSome || set.birthtime.isSome) := by
  rcases set with ⟨size, archive, hidden, mode, uid, gid, system, atime, mtime, birthtime⟩
  rw [SetAttrs.isEmpty, Bool.eq_iff_iff]
  simp only [SetAttrs.mk.injEq, decide_eq_true_eq, Bool.not_eq_true', Bool.or_eq_false_iff,
    Option.isSome_eq_false_iff, Option.isNone_iff_eq_none]
  tauto

theorem applySetattrsInPlace_ok {now : Timestamp} {inode inode' : Inode} {set : SetAttrs}
    {nextChange nextChange' : Nat}
    (h : applySetattrs now inode set nextChange = .ok (inode', nextChange')) :
    ∃ p, (applySetattrsInPlace now set).run ⟨inode, nextChange, false, false, false⟩ =
      (.ok ⟨⟩, p) ∧ p.inode = inode' ∧ p.nextChange = nextChange' := by
  cases hsize : inode.applySize set.size with
  | error e =>
    simp only [applySetattrs, hsize, reduceCtorEq] at h
  | ok sized =>
    simp only [applySetattrs, hsize] at h
    rw [applySetattrsInPlace, Update.bind_ok (assignSize_ok hsize)]
    -- Each assignment is carried out on the fields, so that the inode stays a plain record.
    rcases sized with ⟨⟨type, id, change, size, used, links, mode, uid, gid, atime, mtime, ctime,
      birthtime, archive, hidden, system, named⟩, parent, data, xattrs⟩
    rw [Update.bind_ok (assign_run _ _ (·.mode) (fun _ => rfl) _)]
    dsimp only
    rw [Update.bind_ok (assign_run _ _ (·.uid) (fun _ => rfl) _)]
    dsimp only
    rw [Update.bind_ok (assign_run _ _ (·.gid) (fun _ => rfl) _)]
    dsimp only
    rw [Update.bind_ok (assign_run _ _ (·.archive) (fun _ => rfl) _)]
    dsimp only
    rw [Update.bind_ok (assign_run _ _ (·.hidden) (fun _ => rfl) _)]
    dsimp only
    rw [Update.bind_ok (assign_run _ _ (·.system) (fun _ => rfl) _)]
    dsimp only
    rw [Update.bind_ok (assign_run _ _ (·.atime) (fun _ => rfl) _)]
    dsimp only
    rw [Update.bind_ok (assign_run _ _ (·.mtime) (fun _ => rfl) _)]
    dsimp only
    rw [Update.modify_bind]
    dsimp only
    rw [Update.bind_ok (assign_run _ _ (·.birthtime) (fun _ => rfl) _)]
    dsimp only
    rw [assignChange_run]
    refine ⟨_, rfl, ?_⟩
    have hchanged := isEmpty_eq set
    by_cases hempty : set.isEmpty = true
    · obtain rfl : set = {} := of_decide_eq_true hempty
      cases h
      exact ⟨rfl, rfl⟩
    · rw [if_neg hempty] at h
      dsimp only [InodeAttrs.update] at h
      cases h
      rw [Bool.not_eq_true] at hempty
      rw [hempty] at hchanged
      have hset := Bool.not_eq_eq_eq_not.mp hchanged.symm
      simp only [Assigning.finish, Option.isSome_map, Bool.not_false] at hset ⊢
      rw [if_pos hset]
      cases set.size <;> cases set.mtime <;> exact ⟨rfl, rfl⟩

theorem setattrInPlace_eq (s : State) (now : Timestamp) (handle : InodeId) (set : SetAttrs) :
    s.setattrInPlace now handle set = s.setattr now handle set := by
  unfold State.setattrInPlace State.setattr
  cases hget : s.inodes.get handle with
  | none => rfl
  | some inode =>
    dsimp only
    cases hset : applySetattrs now inode set s.nextChange with
    | error e =>
      rw [applySetattrsInPlace_error hset]
      dsimp only [State.modify, State.fail]
      rw [Table.modify_same hget]
      rfl
    | ok result =>
      obtain ⟨p, hrun, hinode, hchange⟩ := applySetattrsInPlace_ok hset
      rw [hrun]
      dsimp only
      rw [hinode, hchange]
      rfl

/-! ## Failed calls -/

/-- A call: its error, if it fails, and the state it leaves. -/
def State.attempt (s : State) (now : Timestamp) : Op → Option FsError × State
  | .create ctx parent name kind set => failure (s.create now ctx parent name kind set)
  | .createSymlink ctx parent name target set =>
    failure (s.createSymlink now ctx parent name target set)
  | .link source parent name => failure (s.link now source parent name)
  | .remove parent name => failure (s.remove now parent name)
  | .rename fromDir fromName toDir toName => failure (s.rename now fromDir fromName toDir toName)
  | .write handle offset data => failure (s.write now handle offset data)
  | .setattr handle set => failure (s.setattrInPlace now handle set)
  | .setXattr handle name value mode => failure (s.setXattr now handle name value mode)
  | .removeXattr handle name => failure (s.removeXattr now handle name)
where
  failure {α : Type} : Except FsError α × State → Option FsError × State
    | (.error e, s) => (some e, s)
    | (.ok _, s) => (none, s)

theorem State.attempt_state (s : State) (now : Timestamp) (op : Op) :
    (s.attempt now op).2 = s.step now op := by
  have hfailure : ∀ {α : Type} (r : Except FsError α × State),
      (State.attempt.failure r).2 = r.2 := by
    rintro α ⟨_ | _, s⟩ <;> rfl
  cases op
  case setattr handle set =>
    rw [State.attempt, hfailure, setattrInPlace_eq]
    rfl
  all_goals exact hfailure _

theorem isSome_get_recomputeLinkCounts (inodes : Table InodeId Inode) (id : InodeId) :
    ((recomputeLinkCounts inodes).get id).isSome = (inodes.get id).isSome := by
  have hadd : ∀ (t : Table InodeId Inode) (x : InodeId),
      ((addLink t x).get id).isSome = (t.get id).isSome := by
    intro t x
    rw [addLink, Table.get_modify]
    split
    · rw [Option.isSome_map]
    · rfl
  have hentry : ∀ (dir : InodeId) (t : Table InodeId Inode) (child : InodeId),
      ((countEntry dir t child).get id).isSome = (t.get id).isSome := by
    intro dir t child
    unfold countEntry
    split
    · rfl
    · split
      · exact hadd t dir
      · exact hadd t child
  have hfold : ∀ (dir : InodeId) (children : List InodeId) (t : Table InodeId Inode),
      ((children.foldl (countEntry dir) t).get id).isSome = (t.get id).isSome := by
    intro dir children
    induction children with
    | nil => exact fun t => rfl
    | cons child children ih => exact fun t => (ih _).trans (hentry dir t child)
  have hdirs : ∀ (dirs : List InodeId) (t : Table InodeId Inode),
      ((dirs.foldl countEntries t).get id).isSome = (t.get id).isSome := by
    intro dirs
    induction dirs with
    | nil => exact fun t => rfl
    | cons dir dirs ih =>
      intro t
      refine (ih _).trans ?_
      unfold countEntries
      split
      · rfl
      · exact hfold dir _ t
  rw [recomputeLinkCounts, hdirs, Table.get_mapValues, Option.isSome_map]

theorem get_enter_recount_ne_none (s : State) (now : Timestamp) (parent : InodeId) (name : String)
    (id : InodeId) (inode : Inode) :
    (s.enter now parent name id inode).recount.inodes.get id ≠ none := by
  rw [← Option.isSome_iff_ne_none]
  simp only [State.recount, isSome_get_recomputeLinkCounts, State.enter, Table.get_insert_self,
    Option.isSome_some]

/-- The call fails only with the inodes as they were. -/
def Spared (s : State) {α : Type} (r : Except FsError α × State) : Prop :=
  ∀ e, r.1 = .error e → r.2.inodes = s.inodes

section

variable {s : State} {α : Type}

theorem Spared.fail {s' : State} (h : s'.inodes = s.inodes) (e : FsError) :
    Spared s (s'.fail e : Except FsError α × State) := fun _ _ => h

theorem Spared.done (a : α) (s' : State) : Spared s (.ok a, s') := by
  intro e h
  cases h

variable (s) (now : Timestamp)

theorem create_spared (ctx : RequestContext) (parent : InodeId) (name : String)
    (kind : CreateKind) (set : SetAttrs) : Spared s (s.create now ctx parent name kind set) := by
  simp only [State.create]
  split
  · exact .fail rfl _
  · split
    · exact .fail rfl _
    · split
      · exact .fail rfl _
      · split
        · exact .fail rfl _
        · split
          · exact .fail rfl _
          · split
            · rename_i hnone
              exact absurd hnone (get_enter_recount_ne_none _ _ _ _ _ _)
            · exact .done _ _

theorem createSymlink_spared (ctx : RequestContext) (parent : InodeId) (name target : String)
    (set : SetAttrs) : Spared s (s.createSymlink now ctx parent name target set) := by
  simp only [State.createSymlink]
  split
  · exact .fail rfl _
  · split
    · exact .fail rfl _
    · split
      · exact .fail rfl _
      · split
        · exact .fail rfl _
        · split
          · rename_i hnone
            exact absurd hnone (get_enter_recount_ne_none _ _ _ _ _ _)
          · exact .done _ _

theorem link_spared (source parent : InodeId) (name : String) :
    Spared s (s.link now source parent name) := by
  simp only [State.link]
  repeat' split
  all_goals first | exact .fail rfl _ | exact .done _ _

theorem remove_spared (parent : InodeId) (name : String) :
    Spared s (s.remove now parent name) := by
  simp only [State.remove]
  repeat' split
  all_goals first | exact .fail rfl _ | exact .done _ _

theorem rename_spared (fromDir : InodeId) (fromName : String) (toDir : InodeId)
    (toName : String) : Spared s (s.rename now fromDir fromName toDir toName) := by
  simp only [State.rename]
  repeat' split
  all_goals first | exact .fail rfl _ | exact .done _ _

theorem write_spared (handle : InodeId) (offset : U64) (data : Bytes) :
    Spared s (s.write now handle offset data) := by
  simp only [State.write]
  repeat' split
  all_goals first | exact .fail rfl _ | exact .done _ _

theorem setattrInPlace_spared (handle : InodeId) (set : SetAttrs) :
    Spared s (s.setattrInPlace now handle set) := by
  rw [setattrInPlace_eq]
  simp only [State.setattr]
  repeat' split
  all_goals first | exact .fail rfl _ | exact .done _ _

theorem setXattr_spared (handle : InodeId) (name : String) (value : Bytes) (mode : XattrSetMode) :
    Spared s (s.setXattr now handle name value mode) := by
  simp only [State.setXattr]
  repeat' split
  all_goals first | exact .fail rfl _ | exact .done _ _

theorem removeXattr_spared (handle : InodeId) (name : String) :
    Spared s (s.removeXattr now handle name) := by
  simp only [State.removeXattr]
  repeat' split
  all_goals first | exact .fail rfl _ | exact .done _ _

end

theorem Spared.attempt {s : State} {α : Type} {r : Except FsError α × State} (h : Spared s r)
    {e : FsError} (hfail : (State.attempt.failure r).1 = some e) :
    (State.attempt.failure r).2.inodes = s.inodes := by
  rcases r with ⟨_ | _, s'⟩
  · exact h _ rfl
  · cases hfail

end MemFs

open MemFs

/-- **All or nothing.** From any state and with any arguments, a call that fails leaves every
inode with its attributes, data, entries and extended attributes. -/
theorem memfs_all_or_nothing (s : State) (now : Timestamp) (op : Op) (e : FsError)
    (hfail : (s.attempt now op).1 = some e) : (s.attempt now op).2.inodes = s.inodes := by
  cases op with
  | create ctx parent name kind set => exact (create_spared s now _ _ _ _ _).attempt hfail
  | createSymlink ctx parent name target set =>
    exact (createSymlink_spared s now _ _ _ _ _).attempt hfail
  | link source parent name => exact (link_spared s now _ _ _).attempt hfail
  | remove parent name => exact (remove_spared s now _ _).attempt hfail
  | rename fromDir fromName toDir toName => exact (rename_spared s now _ _ _ _).attempt hfail
  | write handle offset data => exact (write_spared s now _ _ _).attempt hfail
  | setattr handle set => exact (setattrInPlace_spared s now _ _).attempt hfail
  | setXattr handle name value mode => exact (setXattr_spared s now _ _ _ _).attempt hfail
  | removeXattr handle name => exact (removeXattr_spared s now _ _).attempt hfail

/-- A size beyond the limit, for a file that has a name. -/
theorem memfs_all_or_nothing_resize :
    let s := (State.new ⟨0, 0⟩).run
      [(⟨0, 0⟩, .create ⟨.none⟩ rootId "a" .file {})]
    (s.attempt ⟨1, 0⟩ (.setattr 2 { mode := some 0, size := some 0x4000001 })).2.inodes =
      s.inodes :=
  memfs_all_or_nothing _ ⟨1, 0⟩ (.setattr 2 { mode := some 0, size := some 0x4000001 })
    .fileTooLarge (by decide +kernel)

end EmbedNfs
