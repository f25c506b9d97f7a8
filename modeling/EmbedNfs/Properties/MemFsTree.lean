import EmbedNfs.MemFs.Tree

/-!
# The in-memory file system is a tree

Whatever the calls and their arguments, and whether they succeed or fail, the directories of a
file system that started empty form a tree in which every inode hangs and every link count is
right. Inode numbers come from a 64-bit counter that calls use up whether they succeed or not: with
fewer than 2⁶⁴ calls no number is taken twice, and the call after that takes the root's
(`memfs_root_replaced`).
-/

namespace EmbedNfs

open MemFs

/-- **The file system is a tree.** After fewer than 2⁶⁴ calls every entry names an inode that is
there; a directory other than the root has one entry, in its parent; every inode is reached from
the root; no directory is below itself; and the link counts are, in 32 bits, the numbers of
entries. -/
theorem memfs_tree (start : Timestamp) (calls : List (Timestamp × Op))
    (hcalls : calls.length < 2 ^ 64) :
    let s := (State.new start).run calls
    (∀ dir name child, (shape s.inodes).child dir name = some child →
      ∃ inode, s.inodes.get child = some inode) ∧
    (∀ id inode, s.inodes.get id = some inode → inode.attrs.objectType = .directory →
      id ≠ rootId → ∃ dir name, inode.parent = some dir ∧
        ∀ dir' name', (shape s.inodes).child dir' name' = some id ↔ dir' = dir ∧ name' = name) ∧
    (∀ id inode, s.inodes.get id = some inode →
      Relation.ReflTransGen (shape s.inodes).Contains rootId id) ∧
    (∀ id inode, s.inodes.get id = some inode → inode.attrs.objectType = .directory →
      ¬ Relation.TransGen (shape s.inodes).Contains id id) ∧
    ∀ id inode, s.inodes.get id = some inode →
      inode.attrs.linkCount =
        (match inode.attrs.objectType with
        | .directory => 2 + subdirectories s.inodes id
        | _ => entriesNaming s.inodes id) % 2 ^ 32 := by
  intro s
  have hs : WellFormed s := .of_new start hcalls
  refine ⟨?_, ?_, ?_, ?_, ?_⟩
  · intro dir name child hchild
    exact mem_present.mp (hs.tree.entry_present dir name child hchild)
  · intro id inode hget hdir hroot
    have hmem : id ∈ (shape s.inodes).dirs := mem_dirs.mpr ⟨inode, hget, hdir⟩
    obtain ⟨dir, name, hchild⟩ := hs.tree.entered id (hs.tree.dirs_present id hmem) hroot
    refine ⟨dir, name, ?_, fun dir' name' => ⟨hs.tree.entry_eq hmem hchild, ?_⟩⟩
    · rw [← parent_of_get hget hdir]
      exact hs.tree.entry_parent dir name id hchild hmem
    · rintro ⟨rfl, rfl⟩
      exact hchild
  · intro id inode hget
    exact hs.tree.reachable (mem_present.mpr ⟨inode, hget⟩)
  · intro id inode hget hdir
    exact hs.tree.acyclic (mem_dirs.mpr ⟨inode, hget, hdir⟩)
  · intro id inode hget
    have hcount := hs.counted id inode hget
    cases htype : inode.attrs.objectType <;> simpa [htype, expectedLinkCount] using hcount

/-- A call of an unauthenticated client at the epoch. -/
def createFile (parent : InodeId) (name : String) : Timestamp × Op :=
  (⟨0, 0⟩, .create ⟨.none⟩ parent name .file {})

/-- A file and two names. -/
theorem memfs_tree_link :
    let s := (State.new ⟨0, 0⟩).run [createFile rootId "a", (⟨0, 0⟩, .link 2 rootId "b")]
    ∃ inode, s.inodes.get 2 = some inode ∧ inode.attrs.linkCount = 2 ∧
      Relation.ReflTransGen (shape s.inodes).Contains rootId 2 :=
  ⟨_, rfl, rfl, (memfs_tree ⟨0, 0⟩ _ (by decide)).2.2.1 2 _ rfl⟩

/-! ## The counter comes round -/

theorem run_failing (s : State) (hs : s.nextId < 2 ^ 64) (hnone : s.inodes.get 0 = none) (n : Nat) :
    s.run (List.replicate n (createFile 0 "a")) =
      { s with nextId := (s.nextId + n) % 2 ^ 64 } := by
  induction n generalizing s with
  | zero =>
    rw [Nat.add_zero, Nat.mod_eq_of_lt hs]
    rfl
  | succ n ih =>
    have hstep : s.step ⟨0, 0⟩ (createFile 0 "a").2 = { s with nextId := fetchAdd s.nextId } := by
      simp [createFile, State.step, State.create, hnone, State.fail]
    have hrun : s.run (List.replicate (n + 1) (createFile 0 "a")) =
        (s.step ⟨0, 0⟩ (createFile 0 "a").2).run (List.replicate n (createFile 0 "a")) := rfl
    have hnext : (fetchAdd s.nextId + n) % 2 ^ 64 = (s.nextId + (n + 1)) % 2 ^ 64 := by
      simp only [fetchAdd]
      omega
    rw [hrun, hstep, ih { s with nextId := fetchAdd s.nextId } (Nat.mod_lt _ (by decide)) hnone,
      ← hnext]

theorem not_reached {s : State} {id : InodeId}
    (hfile : ((s.inodes.get rootId).bind Inode.entries?).isNone = true) (hid : rootId ≠ id) :
    ¬ Relation.ReflTransGen (shape s.inodes).Contains rootId id := by
  intro hreach
  rcases hreach.cases_head with heq | ⟨child, ⟨name, hchild⟩, -⟩
  · exact hid heq
  · obtain ⟨entries, hentries, -⟩ := Option.bind_eq_some_iff.mp hchild
    rw [Option.isNone_iff_eq_none.mp hfile] at hentries
    cases hentries

/-- After 2⁶⁴ calls, all but two of which fail, the file "b" has replaced the root, and the file
"a" cannot be reached. -/
theorem memfs_root_replaced :
    ∃ calls : List (Timestamp × Op), calls.length = 2 ^ 64 ∧
      ∃ inode, ((State.new ⟨0, 0⟩).run calls).inodes.get 2 = some inode ∧
        ¬ Relation.ReflTransGen (shape ((State.new ⟨0, 0⟩).run calls).inodes).Contains rootId 2 := by
  obtain ⟨n, hn⟩ : ∃ n, n = 2 ^ 64 - 2 := ⟨_, rfl⟩
  let s₁ : State := (State.new ⟨0, 0⟩).run [createFile rootId "a"]
  let s₂ : State := { s₁ with nextId := 1 }
  have hrun : (State.new ⟨0, 0⟩).run
      ([createFile rootId "a"] ++ (List.replicate n (createFile 0 "a") ++
        [createFile rootId "b"])) = s₂.run [createFile rootId "b"] := by
    have hnext : (s₁.nextId + n) % 2 ^ 64 = 1 := by
      show (3 + n) % 2 ^ 64 = 1
      omega
    have hfailing : s₁.run (List.replicate n (createFile 0 "a")) = s₂ := by
      rw [run_failing s₁ (by decide) rfl n, hnext]
    rw [State.run_append, State.run_append]
    exact congrArg (State.run · _) hfailing
  refine ⟨[createFile rootId "a"] ++ (List.replicate n (createFile 0 "a") ++
    [createFile rootId "b"]), ?_, ?_⟩
  · simp only [List.length_append, List.length_cons, List.length_replicate, List.length_nil]
    omega
  · rw [hrun]
    have hpresent : ((s₂.run [createFile rootId "b"]).inodes.get 2).isSome = true := by
      decide +kernel
    have hfile : (((s₂.run [createFile rootId "b"]).inodes.get rootId).bind
        Inode.entries?).isNone = true := by decide +kernel
    obtain ⟨inode, hget⟩ := Option.isSome_iff_exists.mp hpresent
    exact ⟨inode, hget, not_reached hfile (by decide)⟩

end EmbedNfs
