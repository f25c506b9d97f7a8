import Mathlib.Data.List.Nodup
import Mathlib.Data.Set.Basic
import Mathlib.Logic.Relation

/-!
# Trees of named entries

A `Graph ι ν` has objects, some of which are directories; a directory has entries, which name
objects, and a pointer to a parent. The graph is a tree when every object but the root has an
entry, every directory but the root has exactly one, in the directory its pointer names, and
every pointer leads to the root after finitely many steps.

The four ways of changing the entries that keep a graph a tree are to enter a new object
(`add`), to enter an object that is not a directory once more (`link`), to take an entry away
together with what no entry names any longer (`unlink`), and to carry an entry to a free name
(`move`). A directory may be carried only where its own subtree does not reach.
-/

namespace EmbedNfs

/-- Objects and directories with named entries and pointers to parents. -/
structure Graph (ι ν : Type) where
  present : Set ι
  dirs : Set ι
  child : ι → ν → Option ι
  parent : ι → Option ι

namespace Graph

variable {ι ν : Type}

@[ext] theorem ext_fields {g g' : Graph ι ν} (hpresent : g.present = g'.present)
    (hdirs : g.dirs = g'.dirs) (hchild : g.child = g'.child) (hparent : g.parent = g'.parent) :
    g = g' := by
  cases g
  cases g'
  cases hpresent
  cases hdirs
  cases hchild
  cases hparent
  rfl

/-- The graph with other entries. -/
def withChild (g : Graph ι ν) (child : ι → ν → Option ι) : Graph ι ν :=
  ⟨g.present, g.dirs, child, g.parent⟩

/-- The directory has an entry for the object. -/
def Contains (g : Graph ι ν) (d c : ι) : Prop := ∃ n, g.child d n = some c

/-- One step up along the pointers. -/
def Up (g : Graph ι ν) (c d : ι) : Prop := g.parent c = some d

/-- The pointers lead from a directory to the root in so many steps. -/
inductive Climbs (g : Graph ι ν) (root : ι) : Nat → ι → Prop where
  | root : Climbs g root 0 root
  | up {n : Nat} {c d : ι} (hc : c ∈ g.dirs) (hparent : g.parent c = some d)
      (h : Climbs g root n d) : Climbs g root (n + 1) c

theorem Climbs.mono {g : Graph ι ν} (g' : Graph ι ν) {root : ι}
    (hdirs : ∀ c ∈ g.dirs, c ∈ g'.dirs)
    (hparent : ∀ c ∈ g.dirs, ∀ d, g.parent c = some d → g'.parent c = some d) {n : Nat} {c : ι}
    (h : g.Climbs root n c) : g'.Climbs root n c := by
  induction h with
  | root => exact .root
  | up hc hup _ ih => exact .up (hdirs _ hc) (hparent _ hc _ hup) ih

/-- The graph is a tree. -/
structure IsTree (g : Graph ι ν) (root : ι) : Prop where
  dirs_present : ∀ c ∈ g.dirs, c ∈ g.present
  root_dir : root ∈ g.dirs
  root_parent : g.parent root = none
  entry_dir : ∀ d n c, g.child d n = some c → d ∈ g.dirs
  entry_present : ∀ d n c, g.child d n = some c → c ∈ g.present
  entry_parent : ∀ d n c, g.child d n = some c → c ∈ g.dirs → g.parent c = some d
  entry_unique : ∀ d n n' c, g.child d n = some c → g.child d n' = some c → c ∈ g.dirs → n = n'
  entered : ∀ c ∈ g.present, c ≠ root → ∃ d, g.Contains d c
  climbs : ∀ c ∈ g.dirs, ∃ n, g.Climbs root n c

namespace IsTree

variable {g : Graph ι ν} {root : ι}

theorem entry_ne_root (hg : g.IsTree root) {d : ι} {n : ν} {c : ι} (h : g.child d n = some c) :
    c ≠ root := by
  rintro rfl
  have hparent := hg.entry_parent d n c h hg.root_dir
  rw [hg.root_parent] at hparent
  cases hparent

theorem entry_eq (hg : g.IsTree root) {d d' : ι} {n n' : ν} {c : ι} (hc : c ∈ g.dirs)
    (h : g.child d n = some c) (h' : g.child d' n' = some c) : d' = d ∧ n' = n := by
  have hparent := hg.entry_parent d n c h hc
  rw [hg.entry_parent d' n' c h' hc] at hparent
  cases hparent
  exact ⟨rfl, hg.entry_unique _ _ _ _ h' h hc⟩

theorem climbs_unique (hg : g.IsTree root) {n m : Nat} {c : ι} (h : g.Climbs root n c)
    (h' : g.Climbs root m c) : n = m := by
  induction h generalizing m with
  | root =>
    cases h' with
    | root => rfl
    | up _ hparent _ =>
      rw [hg.root_parent] at hparent
      cases hparent
  | up _ hparent _ ih =>
    cases h' with
    | root =>
      rw [hg.root_parent] at hparent
      cases hparent
    | up _ hparent' h' =>
      rw [hparent] at hparent'
      cases hparent'
      rw [ih h']

/-- The directories on the way to the root are different. -/
theorem climbs_path (hg : g.IsTree root) {n : Nat} {c : ι} (h : g.Climbs root n c) :
    ∃ path : List ι, path.length = n + 1 ∧ path.Nodup ∧
      ∀ x ∈ path, x ∈ g.dirs ∧ ∃ m ≤ n, g.Climbs root m x := by
  induction h with
  | root => exact ⟨[root], rfl, List.nodup_singleton _, by simpa using ⟨hg.root_dir, .root⟩⟩
  | @up n c d hc hparent h ih =>
    obtain ⟨path, hlength, hnodup, hpath⟩ := ih
    have hclimbs : g.Climbs root (n + 1) c := .up hc hparent h
    have hnew : c ∉ path := by
      intro hmem
      obtain ⟨_, m, hm, hclimbs'⟩ := hpath c hmem
      have := hg.climbs_unique hclimbs hclimbs'
      omega
    refine ⟨c :: path, by simp [hlength], List.nodup_cons.mpr ⟨hnew, hnodup⟩, ?_⟩
    intro x hx
    rcases List.mem_cons.mp hx with rfl | hx
    · exact ⟨hc, n + 1, le_rfl, hclimbs⟩
    · obtain ⟨hdir, m, hm, hclimbs'⟩ := hpath x hx
      exact ⟨hdir, m, by omega, hclimbs'⟩

/-- The entry of a directory is in the directory to which its pointer leads. -/
theorem contains_of_parent (hg : g.IsTree root) {c d : ι} (hc : c ∈ g.dirs)
    (hparent : g.parent c = some d) : g.Contains d c := by
  have hne : c ≠ root := by
    rintro rfl
    rw [hg.root_parent] at hparent
    cases hparent
  obtain ⟨d', n, hchild⟩ := hg.entered c (hg.dirs_present c hc) hne
  have hparent' := hg.entry_parent d' n c hchild hc
  rw [hparent] at hparent'
  cases hparent'
  exact ⟨n, hchild⟩

theorem reachable_dir (hg : g.IsTree root) {n : Nat} {c : ι} (h : g.Climbs root n c) :
    Relation.ReflTransGen g.Contains root c := by
  induction h with
  | root => exact .refl
  | up hc hparent _ ih => exact ih.tail (hg.contains_of_parent hc hparent)

theorem reachable (hg : g.IsTree root) {c : ι} (hc : c ∈ g.present) :
    Relation.ReflTransGen g.Contains root c := by
  by_cases hroot : c = root
  · rw [hroot]
  · obtain ⟨d, n, hchild⟩ := hg.entered c hc hroot
    obtain ⟨m, hclimbs⟩ := hg.climbs d (hg.entry_dir d n c hchild)
    exact (hg.reachable_dir hclimbs).tail ⟨n, hchild⟩

/-- An entry of a directory is one step further from the root. -/
theorem climbs_contains (hg : g.IsTree root) {d c : ι} (h : g.Contains d c) (hc : c ∈ g.dirs)
    {n : Nat} (hn : g.Climbs root n d) : g.Climbs root (n + 1) c := by
  obtain ⟨name, hchild⟩ := h
  exact .up hc (hg.entry_parent d name c hchild hc) hn

theorem climbs_descends (hg : g.IsTree root) {d c : ι} (h : Relation.TransGen g.Contains d c)
    {n : Nat} (hn : g.Climbs root n d) (hc : c ∈ g.dirs) : ∃ m, n < m ∧ g.Climbs root m c := by
  induction h with
  | single h => exact ⟨n + 1, Nat.lt_succ_self n, hg.climbs_contains h hc hn⟩
  | tail _ h ih =>
    obtain ⟨name, hchild⟩ := h
    obtain ⟨m, hm, hclimbs⟩ := ih (hg.entry_dir _ _ _ hchild)
    exact ⟨m + 1, by omega, hg.climbs_contains ⟨name, hchild⟩ hc hclimbs⟩

theorem acyclic (hg : g.IsTree root) {c : ι} (hc : c ∈ g.dirs) :
    ¬ Relation.TransGen g.Contains c c := by
  intro h
  obtain ⟨n, hn⟩ := hg.climbs c hc
  obtain ⟨m, hm, hclimbs⟩ := hg.climbs_descends h hn hc
  have := hg.climbs_unique hn hclimbs
  omega

end IsTree

/-! ## Changes of the entries -/

variable [DecidableEq ι] [DecidableEq ν]

/-- The entries after one of them has been written or taken away. -/
def setEntry (g : Graph ι ν) (d : ι) (n : ν) (o : Option ι) : ι → ν → Option ι :=
  fun d' n' => if d' = d ∧ n' = n then o else g.child d' n'

/-- Enter a new object. -/
def add (g : Graph ι ν) (d : ι) (n : ν) (c : ι) (isDir : Bool) : Graph ι ν where
  present := {x | x = c ∨ x ∈ g.present}
  dirs := {x | (x = c ∧ isDir = true) ∨ x ∈ g.dirs}
  child := g.setEntry d n (some c)
  parent x := if x = c then (if isDir then some d else none) else g.parent x

/-- Enter an object once more. -/
def link (g : Graph ι ν) (d : ι) (n : ν) (c : ι) : Graph ι ν :=
  g.withChild (g.setEntry d n (some c))

/-- Another entry than the given one names the object. -/
def NamedBesides (g : Graph ι ν) (d : ι) (n : ν) (c : ι) : Prop :=
  ∃ d' n', ¬ (d' = d ∧ n' = n) ∧ g.child d' n' = some c

/-- Take an entry away, and the object too if it is a directory or has no other entry. -/
def unlink (g : Graph ι ν) (d : ι) (n : ν) : Graph ι ν where
  present := {x | x ∈ g.present ∧ (g.child d n = some x → x ∉ g.dirs ∧ g.NamedBesides d n x)}
  dirs := {x | x ∈ g.dirs ∧ g.child d n ≠ some x}
  child := g.setEntry d n none
  parent x := if g.child d n = some x then none else g.parent x

/-- Drop an object if it is a directory or no entry names it. -/
def drop (g : Graph ι ν) (c : ι) : Graph ι ν where
  present := {x | x ∈ g.present ∧ (x = c → c ∉ g.dirs ∧ ∃ d, g.Contains d c)}
  dirs := {x | x ∈ g.dirs ∧ x ≠ c}
  child := fun d n => if d = c then none else g.child d n
  parent := fun x => if x = c then none else g.parent x

/-- Carry an entry to another place. -/
def move (g : Graph ι ν) (d : ι) (n : ν) (d' : ι) (n' : ν) (c : ι) (isDir : Bool) : Graph ι ν where
  present := g.present
  dirs := g.dirs
  child := fun e m => if e = d' ∧ m = n' then some c else g.setEntry d n none e m
  parent x := if x = c ∧ isDir = true then some d' else g.parent x

variable {g : Graph ι ν} {root : ι}

theorem IsTree.add (hg : g.IsTree root) {d : ι} {n : ν} {c : ι} {isDir : Bool} (hd : d ∈ g.dirs)
    (hc : c ∉ g.present) (hfree : g.child d n = none) : (g.add d n c isDir).IsTree root := by
  have hroot : root ≠ c := fun h => hc (h ▸ hg.dirs_present root hg.root_dir)
  -- No entry named the new object.
  have hnew : ∀ d' n', g.child d' n' ≠ some c := fun d' n' h => hc (hg.entry_present d' n' c h)
  have hclimbs : ∀ {m x}, g.Climbs root m x → (g.add d n c isDir).Climbs root m x := by
    intro m y h
    refine Climbs.mono (g.add d n c isDir) (fun x hx => Or.inr hx) (fun x hx z hxz => ?_) h
    have hne : x ≠ c := fun h => hc (h ▸ hg.dirs_present x hx)
    simp [Graph.add, hne, hxz]
  refine ⟨?_, Or.inr hg.root_dir, ?_, ?_, ?_, ?_, ?_, ?_, ?_⟩
  · rintro x (⟨rfl, _⟩ | hx)
    · exact Or.inl rfl
    · exact Or.inr (hg.dirs_present x hx)
  · simp [Graph.add, hroot, hg.root_parent]
  · intro d' n' x h
    simp only [Graph.add, setEntry] at h
    split at h
    · rename_i heq
      exact Or.inr (heq.1 ▸ hd)
    · exact Or.inr (hg.entry_dir d' n' x h)
  · intro d' n' x h
    simp only [Graph.add, setEntry] at h
    split at h
    · exact Or.inl (Option.some.inj h).symm
    · exact Or.inr (hg.entry_present d' n' x h)
  · intro d' n' x h hx
    simp only [Graph.add, setEntry, Set.mem_ofPred_eq] at h hx ⊢
    have := hg.entry_parent d' n' x
    have := hnew d' n'
    have := hg.dirs_present c
    grind
  · intro d' m m' x h h' hx
    simp only [Graph.add, setEntry, Set.mem_ofPred_eq] at h h' hx
    have := hg.entry_unique d' m m' x
    grind
  · rintro x (rfl | hx) hne
    · exact ⟨d, n, by simp [Graph.add, setEntry]⟩
    · obtain ⟨d', m, h⟩ := hg.entered x hx hne
      refine ⟨d', m, ?_⟩
      have : ¬ (d' = d ∧ m = n) := by
        rintro ⟨rfl, rfl⟩
        rw [hfree] at h
        cases h
      simpa [Graph.add, setEntry, this] using h
  · rintro x (⟨rfl, hdir⟩ | hx)
    · obtain ⟨m, h⟩ := hg.climbs d hd
      exact ⟨m + 1, .up (Or.inl ⟨rfl, hdir⟩) (by simp [Graph.add, hdir]) (hclimbs h)⟩
    · obtain ⟨m, h⟩ := hg.climbs x hx
      exact ⟨m, hclimbs h⟩

theorem IsTree.link (hg : g.IsTree root) {d : ι} {n : ν} {c : ι} (hd : d ∈ g.dirs)
    (hc : c ∈ g.present) (hfile : c ∉ g.dirs) (hfree : g.child d n = none) :
    (g.link d n c).IsTree root := by
  refine ⟨hg.dirs_present, hg.root_dir, hg.root_parent, ?_, ?_, ?_, ?_, ?_, ?_⟩
  · intro d' n' x h
    simp only [Graph.link, withChild, setEntry] at h
    split at h
    · rename_i heq
      exact heq.1 ▸ hd
    · exact hg.entry_dir d' n' x h
  · intro d' n' x h
    simp only [Graph.link, withChild, setEntry] at h
    split at h
    · exact Option.some.inj h ▸ hc
    · exact hg.entry_present d' n' x h
  · intro d' n' x h hx
    simp only [Graph.link, withChild, setEntry] at h hx ⊢
    have := hg.entry_parent d' n' x
    grind
  · intro d' m m' x h h' hx
    simp only [Graph.link, withChild, setEntry] at h h' hx
    have := hg.entry_unique d' m m' x
    grind
  · intro x hx hne
    obtain ⟨d', m, h⟩ := hg.entered x hx hne
    refine ⟨d', m, ?_⟩
    have : ¬ (d' = d ∧ m = n) := by
      rintro ⟨rfl, rfl⟩
      rw [hfree] at h
      cases h
    simpa [Graph.link, withChild, setEntry, this] using h
  · intro x hx
    obtain ⟨m, h⟩ := hg.climbs x hx
    have hsame : ∀ c' ∈ g.dirs, c' ∈ (g.link d n c).dirs := fun _ hx => hx
    exact ⟨m, h.mono (g.link d n c) hsame fun _ _ _ hup => hup⟩

theorem IsTree.unlink (hg : g.IsTree root) {d : ι} {n : ν}
    (hempty : ∀ c ∈ g.dirs, g.child d n = some c → ∀ m, g.child c m = none) :
    (g.unlink d n).IsTree root := by
  have hroot : g.child d n ≠ some root := fun h => hg.entry_ne_root h rfl
  have hclimbs : ∀ {m x}, g.Climbs root m x → g.child d n ≠ some x →
      (g.unlink d n).Climbs root m x := by
    intro m x h
    induction h with
    | root => exact fun _ => .root
    | @up m x y hx hparent _ ih =>
      intro hne
      refine .up ⟨hx, hne⟩ (by simp [Graph.unlink, hne, hparent]) (ih fun hy => ?_)
      -- The object would be an entry of the directory that is taken away.
      obtain ⟨name, hchild⟩ := hg.contains_of_parent hx hparent
      rw [hempty y (hg.entry_dir _ _ _ hchild) hy name] at hchild
      cases hchild
  refine ⟨?_, ⟨hg.root_dir, hroot⟩, ?_, ?_, ?_, ?_, ?_, ?_, ?_⟩
  · rintro x ⟨hx, hne⟩
    exact ⟨hg.dirs_present x hx, fun h => absurd h hne⟩
  · simp [Graph.unlink, hroot, hg.root_parent]
  · intro d' n' x h
    simp only [Graph.unlink, setEntry] at h
    split at h
    · cases h
    · refine ⟨hg.entry_dir d' n' x h, fun hd' => ?_⟩
      rw [hempty d' (hg.entry_dir d' n' x h) hd' n'] at h
      cases h
  · intro d' n' x h
    simp only [Graph.unlink, setEntry] at h
    split at h
    · cases h
    · rename_i hother
      refine ⟨hg.entry_present d' n' x h, fun hx => ⟨fun hdir => ?_, d', n', hother, h⟩⟩
      exact hother (hg.entry_eq hdir hx h)
  · rintro d' n' x h ⟨hx, hne⟩
    simp only [Graph.unlink, setEntry] at h ⊢
    split at h
    · cases h
    · rw [if_neg hne]
      exact hg.entry_parent d' n' x h hx
  · rintro d' m m' x h h' ⟨hx, -⟩
    simp only [Graph.unlink, setEntry] at h h'
    split at h
    · cases h
    · split at h'
      · cases h'
      · exact hg.entry_unique d' m m' x h h' hx
  · rintro x ⟨hx, hnamed⟩ hne
    by_cases hchild : g.child d n = some x
    · obtain ⟨-, d', n', hother, h⟩ := hnamed hchild
      exact ⟨d', n', by simpa [Graph.unlink, setEntry, hother] using h⟩
    · obtain ⟨d', m, h⟩ := hg.entered x hx hne
      refine ⟨d', m, ?_⟩
      have : ¬ (d' = d ∧ m = n) := by
        rintro ⟨rfl, rfl⟩
        exact hchild h
      simpa [Graph.unlink, setEntry, this] using h
  · rintro x ⟨hx, hne⟩
    obtain ⟨m, h⟩ := hg.climbs x hx
    exact ⟨m, hclimbs h hne⟩

theorem IsTree.move (hg : g.IsTree root) {d : ι} {n : ν} {d' : ι} {n' : ν} {c : ι} {isDir : Bool}
    (hchild : g.child d n = some c) (hd' : d' ∈ g.dirs) (hfree : g.child d' n' = none)
    (hdir : isDir = true ↔ c ∈ g.dirs)
    (havoid : c ∈ g.dirs → ∀ x, Relation.ReflTransGen g.Up d' x → x ≠ c) :
    (g.move d n d' n' c isDir).IsTree root := by
  have hcroot : root ≠ c := (hg.entry_ne_root hchild).symm
  have hother : ¬ (d' = d ∧ n' = n) := by
    rintro ⟨rfl, rfl⟩
    rw [hfree] at hchild
    cases hchild
  -- A directory that is carried had no other entry.
  have honly : c ∈ g.dirs → ∀ e m, g.child e m = some c → e = d ∧ m = n :=
    fun hc e m h => hg.entry_eq hc hchild h
  have hclimbs_target : ∀ {m x}, g.Climbs root m x →
      (c ∈ g.dirs → ∀ y, Relation.ReflTransGen g.Up x y → y ≠ c) →
      (g.move d n d' n' c isDir).Climbs root m x := by
    intro m x h
    induction h with
    | root => exact fun _ => .root
    | @up m x y hx hparent _ ih =>
      intro havoid
      have hne : ¬ (x = c ∧ isDir = true) := by
        rintro ⟨rfl, -⟩
        exact havoid hx x .refl rfl
      refine .up hx (by simp only [Graph.move, if_neg hne]; exact hparent) (ih fun hc z hz => ?_)
      exact havoid hc z (.head hparent hz)
  have hclimbs : ∀ {m x}, g.Climbs root m x →
      ∃ k, (g.move d n d' n' c isDir).Climbs root k x := by
    intro m x h
    induction h with
    | root => exact ⟨0, .root⟩
    | @up m x y hx hparent _ ih =>
      by_cases hxc : x = c ∧ isDir = true
      · obtain ⟨k, hk⟩ := hg.climbs d' hd'
        exact ⟨k + 1, .up hx (by simp only [Graph.move, if_pos hxc])
          (hclimbs_target hk havoid)⟩
      · obtain ⟨k, hk⟩ := ih
        exact ⟨k + 1, .up hx (by simp only [Graph.move, if_neg hxc]; exact hparent) hk⟩
  refine ⟨hg.dirs_present, hg.root_dir, ?_, ?_, ?_, ?_, ?_, ?_, ?_⟩
  · simp [Graph.move, hcroot, hg.root_parent]
  · intro e m x h
    have := hg.entry_dir e m x
    simp only [Graph.move, setEntry] at h ⊢
    grind
  · intro e m x h
    have := hg.entry_present e m x
    have := hg.entry_present d n c hchild
    simp only [Graph.move, setEntry] at h ⊢
    grind
  · intro e m x h hx
    have := hg.entry_parent e m x
    simp only [Graph.move, setEntry] at h hx ⊢
    grind
  · intro e m m' x h h' hx
    have := hg.entry_unique e m m' x
    simp only [Graph.move, setEntry] at h h' hx
    grind
  · intro x hx hne
    by_cases hxc : x = c
    · exact ⟨d', n', by simp [Graph.move, hxc]⟩
    · obtain ⟨e, m, h⟩ := hg.entered x hx hne
      refine ⟨e, m, ?_⟩
      simp only [Graph.move, setEntry]
      grind
  · intro x hx
    obtain ⟨m, h⟩ := hg.climbs x hx
    exact hclimbs h

/-! ## Dropping what an entry has named -/

/-- To take an entry away is to erase it and to drop what it named. -/
theorem drop_eq_unlink {d : ι} {n : ν} {c : ι} (hchild : g.child d n = some c)
    (hempty : ∀ m, g.child c m = none) :
    (g.withChild (g.setEntry d n none)).drop c = g.unlink d n := by
  refine ext_fields ?_ ?_ ?_ ?_
  · ext x
    simp only [drop, unlink, withChild, Contains, NamedBesides, setEntry, Set.mem_ofPred_eq, hchild,
      Option.some.injEq]
    refine and_congr_right fun _ => ?_
    constructor
    · rintro h rfl
      obtain ⟨hfile, d', n', hd'⟩ := h rfl
      split at hd'
      · cases hd'
      · rename_i hother
        exact ⟨hfile, d', n', hother, hd'⟩
    · rintro h rfl
      obtain ⟨hfile, d', n', hother, hd'⟩ := h rfl
      exact ⟨hfile, d', n', by rw [if_neg hother, hd']⟩
  · ext x
    simp [drop, unlink, withChild, hchild, eq_comm]
  · funext d' n'
    have := hempty n'
    simp only [drop, unlink, withChild, setEntry]
    grind
  · funext x
    simp [drop, unlink, withChild, hchild, eq_comm]

/-- To carry an entry over another one is to take that one away first. -/
theorem drop_move {d : ι} {n : ν} {d' : ι} {n' : ν} {c r : ι} {isDir : Bool}
    (hchild : g.child d n = some c) (htaken : g.child d' n' = some r) (hne : r ≠ c)
    (hdir : r ≠ d') (hempty : ∀ m, g.child r m = none) :
    (g.move d n d' n' c isDir).drop r = (g.unlink d' n').move d n d' n' c isDir := by
  refine ext_fields ?_ ?_ ?_ ?_
  · ext x
    simp only [drop, unlink, move, Contains, NamedBesides, setEntry, Set.mem_ofPred_eq, htaken,
      Option.some.injEq]
    refine and_congr_right fun _ => ?_
    constructor
    · rintro h rfl
      obtain ⟨hfile, e, m, he⟩ := h rfl
      exact ⟨hfile, e, m, by grind⟩
    · rintro h rfl
      obtain ⟨hfile, e, m, hother, he⟩ := h rfl
      exact ⟨hfile, e, m, by grind⟩
  · ext x
    simp [drop, unlink, move, htaken, eq_comm]
  · funext e m
    have := hempty m
    simp only [drop, unlink, move, setEntry]
    grind
  · funext x
    simp only [drop, unlink, move, htaken]
    grind

theorem IsTree.move_over (hg : g.IsTree root) {d : ι} {n : ν} {d' : ι} {n' : ν} {c r : ι}
    {isDir : Bool} (hchild : g.child d n = some c) (hd' : d' ∈ g.dirs)
    (htaken : g.child d' n' = some r) (hne : r ≠ c) (hempty : ∀ m, g.child r m = none)
    (hdir : isDir = true ↔ c ∈ g.dirs)
    (havoid : c ∈ g.dirs → ∀ x, Relation.ReflTransGen g.Up d' x → x ≠ c) :
    ((g.move d n d' n' c isDir).drop r).IsTree root := by
  have hself : r ≠ d' := by
    rintro rfl
    exact hg.acyclic hd' (.single ⟨n', htaken⟩)
  have hplace : ¬ (d = d' ∧ n = n') := by
    rintro ⟨rfl, rfl⟩
    rw [hchild] at htaken
    cases htaken
    exact hne rfl
  have hkept : ∀ x, x ∈ (g.unlink d' n').dirs ↔ x ∈ g.dirs ∧ x ≠ r := by
    intro x
    simp [Graph.unlink, htaken, eq_comm]
  have hup : ∀ x y, (g.unlink d' n').Up x y → g.Up x y := by
    intro x y h
    simp only [Up, Graph.unlink] at h ⊢
    split at h
    · cases h
    · exact h
  rw [drop_move hchild htaken hne hself hempty]
  refine (hg.unlink fun x _ hx => ?_).move ?_ ?_ ?_ ?_ ?_
  · rw [htaken] at hx
    cases hx
    exact hempty
  · simpa [Graph.unlink, setEntry, hplace] using hchild
  · exact (hkept d').mpr ⟨hd', hself.symm⟩
  · simp [Graph.unlink, setEntry]
  · rw [hdir, hkept]
    exact ⟨fun h => ⟨h, hne.symm⟩, fun h => h.1⟩
  · intro hc x hx
    exact havoid ((hkept c).mp hc).1 x (Relation.ReflTransGen.mono hup d' x hx)

/-! ## Objects with one name -/

/-- No object has two entries. -/
def Single (g : Graph ι ν) : Prop :=
  ∀ d n d' n' c, g.child d n = some c → g.child d' n' = some c → d' = d ∧ n' = n

omit [DecidableEq ι] [DecidableEq ν] in
theorem Single.mono {g' : Graph ι ν} (h : g.Single)
    (hsub : ∀ d n c, g'.child d n = some c → g.child d n = some c) : g'.Single :=
  fun d n d' n' c hc hc' => h d n d' n' c (hsub d n c hc) (hsub d' n' c hc')

theorem Single.add (h : g.Single) {d : ι} {n : ν} {c : ι} {isDir : Bool}
    (hnew : ∀ d' n', g.child d' n' ≠ some c) : (g.add d n c isDir).Single := by
  intro e m e' m' x hx hx'
  have := h e m e' m' x
  simp only [Graph.add, setEntry] at hx hx'
  grind

theorem Single.unlink (h : g.Single) (d : ι) (n : ν) : (g.unlink d n).Single := by
  refine h.mono fun e m x hx => ?_
  simp only [Graph.unlink, setEntry] at hx
  split at hx
  · cases hx
  · exact hx

omit [DecidableEq ν] in
theorem Single.drop (h : g.Single) (c : ι) : (g.drop c).Single := by
  refine h.mono fun e m x hx => ?_
  simp only [Graph.drop] at hx
  split at hx
  · cases hx
  · exact hx

theorem Single.move (h : g.Single) {d : ι} {n : ν} {d' : ι} {n' : ν} {c : ι} {isDir : Bool}
    (hchild : g.child d n = some c) : (g.move d n d' n' c isDir).Single := by
  intro e m e' m' x hx hx'
  have := h e m e' m' x
  have := h d n e m c hchild
  have := h d n e' m' c hchild
  simp only [Graph.move, setEntry] at hx hx'
  grind

end Graph

end EmbedNfs
