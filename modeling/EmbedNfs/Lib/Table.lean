import Mathlib.Data.List.Nodup
import Mathlib.Data.List.Perm.Subperm

/-!
# Finite tables with an iteration order

A `Table K V` is a finite map from keys to values together with the order in which an
iteration visits its entries. Every key occurs once, and the type carries that fact, so the
two ways of reading a table agree: `mem_entries` says that the entries an iteration visits
are exactly the ones a lookup finds.

Two tables are the `Same` when every lookup agrees. An insertion may place an entry
anywhere in the iteration order, so what is proved about a table whose order is not
specified has to be invariant under `Same`.
-/

namespace EmbedNfs

/-- A finite map with distinct keys, listed in iteration order. -/
structure Table (K V : Type) where
  entries : List (K × V)
  nodupKeys : (entries.map Prod.fst).Nodup

namespace Table

variable {K V W : Type}

@[ext] theorem ext_entries {t u : Table K V} (h : t.entries = u.entries) : t = u := by
  cases t
  cases u
  cases h
  rfl

instance [DecidableEq K] [DecidableEq V] : DecidableEq (Table K V) := fun t u =>
  decidable_of_iff (t.entries = u.entries) ⟨ext_entries, fun h => h ▸ rfl⟩

/-- The table without entries. -/
def empty : Table K V := ⟨[], List.nodup_nil⟩

instance : Inhabited (Table K V) := ⟨empty⟩

/-- The values in iteration order. -/
def values (t : Table K V) : List V := t.entries.map Prod.snd

/-- Keep the entries that satisfy `p`. -/
def retain (t : Table K V) (p : K → V → Bool) : Table K V where
  entries := t.entries.filter fun e => p e.1 e.2
  nodupKeys := t.nodupKeys.sublist (List.filter_sublist.map _)

/-- Rewrite every value, leaving keys and order alone. -/
def mapValues (t : Table K V) (f : K → V → W) : Table K W where
  entries := t.entries.map fun e => (e.1, f e.1 e.2)
  nodupKeys := by
    have h : (t.entries.map fun e => (e.1, f e.1 e.2)).map Prod.fst = t.entries.map Prod.fst := by
      simp [List.map_map, Function.comp_def]
    rw [h]
    exact t.nodupKeys

/-- Whether some entry satisfies `p`. -/
def any (t : Table K V) (p : K → V → Bool) : Bool := t.entries.any fun e => p e.1 e.2

/-- The first entry in iteration order that satisfies `p`. -/
def find? (t : Table K V) (p : K → V → Bool) : Option (K × V) :=
  t.entries.find? fun e => p e.1 e.2

/-- The keys, in iteration order, of the entries that satisfy `p`. -/
def keysWhere (t : Table K V) (p : K → V → Bool) : List K :=
  (t.entries.filter fun e => p e.1 e.2).map Prod.fst

theorem nodup_keysWhere (t : Table K V) (p : K → V → Bool) : (t.keysWhere p).Nodup :=
  t.nodupKeys.sublist (List.filter_sublist.map _)

theorem length_filter_values (t : Table K V) (p : V → Bool) :
    (t.values.filter p).length = (t.keysWhere fun _ v => p v).length := by
  simp [values, keysWhere, List.filter_map, Function.comp_def]

theorem retain_eq_self {t : Table K V} {p : K → V → Bool}
    (h : ∀ e ∈ t.entries, p e.1 e.2 = true) : t.retain p = t :=
  ext_entries (List.filter_eq_self.mpr h)

theorem retain_congr {t : Table K V} {p q : K → V → Bool}
    (h : ∀ e ∈ t.entries, p e.1 e.2 = q e.1 e.2) : t.retain p = t.retain q :=
  ext_entries (List.filter_congr h)

theorem retain_retain (t : Table K V) (p : K → V → Bool) :
    (t.retain p).retain p = t.retain p :=
  retain_eq_self fun _ he => (List.mem_filter.mp he).2

theorem mapValues_eq_self {t : Table K V} {f : K → V → V}
    (h : ∀ e ∈ t.entries, f e.1 e.2 = e.2) : t.mapValues f = t := by
  refine ext_entries ?_
  show t.entries.map (fun e => (e.1, f e.1 e.2)) = t.entries
  conv_rhs => rw [← List.map_id t.entries]
  refine List.map_congr_left fun e he => ?_
  rw [h e he]
  rfl

theorem length_keysWhere_add (t : Table K V) (p : K → V → Bool) :
    (t.keysWhere p).length + (t.retain fun k v => !p k v).entries.length = t.entries.length := by
  simp only [keysWhere, retain, List.length_map]
  exact (List.length_eq_length_filter_add _).symm

theorem keysWhere_retain_not (t : Table K V) (p : K → V → Bool) :
    (t.retain fun k v => !p k v).keysWhere p = [] := by
  simp only [keysWhere, retain, List.filter_filter, List.map_eq_nil_iff, List.filter_eq_nil_iff]
  intro e _
  simp

variable [DecidableEq K]

/-- The value stored under a key. -/
def get (t : Table K V) (k : K) : Option V := t.entries.lookup k

/-- Remove the entry of a key. -/
def erase (t : Table K V) (k : K) : Table K V := t.retain fun k' _ => k' ≠ k

/-- Store a value under a key, replacing the value stored there. -/
def insert (t : Table K V) (k : K) (v : V) : Table K V where
  entries := (k, v) :: (t.erase k).entries
  nodupKeys := by
    have hk : k ∉ (t.erase k).entries.map Prod.fst := by
      simp [erase, retain]
    exact List.nodup_cons.mpr ⟨hk, (t.erase k).nodupKeys⟩

/-- Rewrite the value stored under a key, if there is one. -/
def modify (t : Table K V) (k : K) (f : V → V) : Table K V :=
  t.mapValues fun k' v => if k' = k then f v else v

/-! ## Lookups -/

theorem lookup_eq_some_of_mem {l : List (K × V)} (hl : (l.map Prod.fst).Nodup) {k : K} {v : V}
    (h : (k, v) ∈ l) : l.lookup k = some v := by
  induction l with
  | nil => cases h
  | cons e l ih =>
    obtain ⟨k', v'⟩ := e
    simp only [List.map_cons, List.nodup_cons] at hl
    rcases List.mem_cons.mp h with h | h
    · cases h
      simp
    · have hne : k ≠ k' := fun hk => hl.1 (List.mem_map.mpr ⟨(k, v), h, hk⟩)
      simp only [List.lookup_cons, beq_eq_false_iff_ne.mpr hne]
      exact ih hl.2 h

theorem mem_of_lookup_eq_some {l : List (K × V)} {k : K} {v : V} (h : l.lookup k = some v) :
    (k, v) ∈ l := by
  induction l with
  | nil => simp at h
  | cons e l ih =>
    obtain ⟨k', v'⟩ := e
    by_cases hk : k = k'
    · subst hk
      simp only [List.lookup_cons, beq_self_eq_true, Option.some.injEq] at h
      simp [h]
    · simp only [List.lookup_cons, beq_eq_false_iff_ne.mpr hk] at h
      exact List.mem_cons_of_mem _ (ih h)

/-- The entries visited by an iteration are the ones found by a lookup. -/
theorem mem_entries {t : Table K V} {k : K} {v : V} : (k, v) ∈ t.entries ↔ t.get k = some v :=
  ⟨lookup_eq_some_of_mem t.nodupKeys, mem_of_lookup_eq_some⟩

@[simp] theorem get_empty (k : K) : (empty : Table K V).get k = none := rfl

theorem get_eq_none {t : Table K V} {k : K} : t.get k = none ↔ ∀ v, (k, v) ∉ t.entries := by
  rw [Option.eq_none_iff_forall_ne_some]
  exact forall_congr' fun v => not_congr mem_entries.symm

theorem get_eq_of_forall {t : Table K V} {k : K} {o : Option V}
    (h : ∀ v, t.get k = some v ↔ o = some v) : t.get k = o :=
  Option.ext h

theorem get_retain_eq_some {t : Table K V} {p : K → V → Bool} {k : K} {v : V} :
    (t.retain p).get k = some v ↔ t.get k = some v ∧ p k v = true := by
  rw [← mem_entries, ← mem_entries, retain, List.mem_filter]

@[simp] theorem get_retain (t : Table K V) (p : K → V → Bool) (k : K) :
    (t.retain p).get k = (t.get k).filter (p k) := by
  refine get_eq_of_forall fun v => ?_
  rw [get_retain_eq_some, Option.filter_eq_some_iff]

@[simp] theorem get_erase (t : Table K V) (k k' : K) :
    (t.erase k).get k' = if k' = k then none else t.get k' := by
  rw [erase, get_retain]
  by_cases h : k' = k
  · simp [h]
  · cases t.get k' <;> simp [h]

@[simp] theorem get_insert (t : Table K V) (k : K) (v : V) (k' : K) :
    (t.insert k v).get k' = if k' = k then some v else t.get k' := by
  by_cases h : k' = k
  · subst h
    simp [get, insert]
  · have h' : (k' == k) = false := beq_eq_false_iff_ne.mpr h
    have he : (t.insert k v).get k' = (t.erase k).get k' := by
      simp only [get, insert, List.lookup_cons, h']
    rw [he, get_erase]
    simp [h]

theorem get_insert_self (t : Table K V) (k : K) (v : V) : (t.insert k v).get k = some v := by
  simp

@[simp] theorem get_mapValues (t : Table K V) (f : K → V → W) (k : K) :
    (t.mapValues f).get k = (t.get k).map (f k) := by
  refine get_eq_of_forall fun w => ?_
  rw [← mem_entries, mapValues, List.mem_map]
  constructor
  · rintro ⟨⟨k', v⟩, hmem, heq⟩
    cases heq
    simp [mem_entries.mp hmem]
  · intro h
    obtain ⟨v, hv, rfl⟩ := Option.map_eq_some_iff.mp h
    exact ⟨(k, v), mem_entries.mpr hv, rfl⟩

@[simp] theorem get_modify (t : Table K V) (k : K) (f : V → V) (k' : K) :
    (t.modify k f).get k' = if k' = k then (t.get k').map f else t.get k' := by
  rw [modify, get_mapValues]
  by_cases h : k' = k
  · simp [h]
  · simp [h]

/-- What is found after an insertion is the new value, or it was there. -/
theorem of_get_insert {t : Table K V} {k k' : K} {v w : V} (h : (t.insert k v).get k' = some w) :
    (k' = k ∧ w = v) ∨ (k' ≠ k ∧ t.get k' = some w) := by
  rw [get_insert] at h
  split at h
  · rename_i hk
    exact Or.inl ⟨hk, (Option.some.inj h).symm⟩
  · rename_i hk
    exact Or.inr ⟨hk, h⟩

/-- What is found after a rewrite is the rewritten value, or it was there. -/
theorem of_get_modify {t : Table K V} {k k' : K} {f : V → V} {v : V}
    (h : (t.modify k f).get k' = some v) :
    (k' = k ∧ ∃ old, t.get k = some old ∧ f old = v) ∨ (k' ≠ k ∧ t.get k' = some v) := by
  rw [get_modify] at h
  split at h
  · rename_i hk
    obtain ⟨old, hold, hv⟩ := Option.map_eq_some_iff.mp h
    exact Or.inl ⟨hk, old, hk ▸ hold, hv⟩
  · rename_i hk
    exact Or.inr ⟨hk, h⟩

theorem get_modify_of_get {t : Table K V} {k : K} {v : V} (h : t.get k = some v) (f : V → V)
    (k' : K) : (t.modify k f).get k' = if k' = k then some (f v) else t.get k' := by
  rw [get_modify]
  split
  · rename_i hk
    rw [hk, h]
    rfl
  · rfl

theorem get_modify_self {t : Table K V} {k : K} {v : V} (h : t.get k = some v) (f : V → V) :
    (t.modify k f).get k = some (f v) := by
  simp [h]

theorem get_eq_none_of_isEmpty {t : Table K V} (h : t.entries.isEmpty = true) (k : K) :
    t.get k = none := by
  rw [get_eq_none]
  intro v hv
  rw [List.isEmpty_iff.mp h] at hv
  cases hv

theorem modify_const {t : Table K V} {k : K} {v : V} {f : V → V} (h : t.get k = some v) :
    t.modify k f = t.modify k fun _ => f v := by
  apply ext_entries
  refine List.map_congr_left fun e he => ?_
  dsimp only
  split
  · rename_i hk
    have hv := mem_entries.mp he
    rw [hk, h] at hv
    cases hv
    rfl
  · rfl

theorem modify_same {t : Table K V} {k : K} {v : V} (h : t.get k = some v) :
    t.modify k (fun _ => v) = t := by
  have hconst : t.modify k (fun _ => v) = t.modify k id := (modify_const (f := id) h).symm
  rw [hconst]
  apply ext_entries
  simp [modify, mapValues]

/-! ## Iterations -/

theorem any_eq_true {t : Table K V} {p : K → V → Bool} :
    t.any p = true ↔ ∃ k v, t.get k = some v ∧ p k v = true := by
  simp only [any, List.any_eq_true, Prod.exists, mem_entries]

theorem any_eq_false {t : Table K V} {p : K → V → Bool} :
    t.any p = false ↔ ∀ k v, t.get k = some v → p k v = false := by
  rw [← Bool.not_eq_true, any_eq_true]
  simp

theorem find?_eq_none {t : Table K V} {p : K → V → Bool} :
    t.find? p = none ↔ ∀ k v, t.get k = some v → p k v = false := by
  simp only [find?, List.find?_eq_none, Prod.forall, mem_entries, Bool.not_eq_true]

theorem of_find?_eq_some {t : Table K V} {p : K → V → Bool} {k : K} {v : V}
    (h : t.find? p = some (k, v)) : t.get k = some v ∧ p k v = true := by
  have h' : t.entries.find? (fun e => p e.1 e.2) = some (k, v) := h
  have hp := List.find?_some h'
  exact ⟨mem_entries.mp (List.mem_of_find?_eq_some h'), hp⟩

theorem mem_keysWhere {t : Table K V} {p : K → V → Bool} {k : K} :
    k ∈ t.keysWhere p ↔ ∃ v, t.get k = some v ∧ p k v = true := by
  simp only [keysWhere, List.mem_map, List.mem_filter, Prod.exists, mem_entries]
  constructor
  · rintro ⟨k', v, h, rfl⟩
    exact ⟨v, h⟩
  · rintro ⟨v, h⟩
    exact ⟨k, v, h, rfl⟩

/-- There are at most as many entries that satisfy `p` as there are elements in a list of their
keys. -/
theorem length_keysWhere_le {t : Table K V} {p : K → V → Bool} {ks : List K}
    (h : ∀ k v, t.get k = some v → p k v = true → k ∈ ks) : (t.keysWhere p).length ≤ ks.length := by
  refine (List.subperm_of_subset (t.nodup_keysWhere p) fun k hk => ?_).length_le
  obtain ⟨v, hv, hp⟩ := mem_keysWhere.mp hk
  exact h k v hv hp

theorem mem_values {t : Table K V} {v : V} : v ∈ t.values ↔ ∃ k, t.get k = some v := by
  simp only [values, List.mem_map, Prod.exists, mem_entries]
  constructor
  · rintro ⟨k, v', h, rfl⟩
    exact ⟨k, h⟩
  · rintro ⟨k, h⟩
    exact ⟨k, v, h, rfl⟩

/-! ## Smaller tables -/

/-- Every entry of the first table is an entry of the second. -/
def Sub (t u : Table K V) : Prop := ∀ k v, t.get k = some v → u.get k = some v

theorem Sub.refl (t : Table K V) : t.Sub t := fun _ _ h => h

theorem Sub.trans {t u w : Table K V} (h : t.Sub u) (h' : u.Sub w) : t.Sub w :=
  fun k v hk => h' k v (h k v hk)

theorem retain_sub (t : Table K V) (p : K → V → Bool) : (t.retain p).Sub t :=
  fun _ _ h => (get_retain_eq_some.mp h).1

theorem erase_sub (t : Table K V) (k : K) : (t.erase k).Sub t := retain_sub t _

theorem get_foldl_erase (t : Table K V) (ks : List K) (k : K) :
    (ks.foldl erase t).get k = if k ∈ ks then none else t.get k := by
  induction ks generalizing t with
  | nil => simp
  | cons k' ks ih =>
    rw [List.foldl_cons, ih, get_erase]
    by_cases hk : k = k'
    · simp [hk]
    · simp [hk]

theorem foldl_erase_sub (t : Table K V) (ks : List K) : (ks.foldl erase t).Sub t := by
  intro k v h
  rw [get_foldl_erase] at h
  split at h
  · cases h
  · exact h

theorem foldl_erase_eq (t : Table K V) (ks : List K) :
    ks.foldl erase t = t.retain fun k _ => k ∉ ks := by
  induction ks generalizing t with
  | nil => exact (retain_eq_self fun _ _ => by simp).symm
  | cons k ks ih =>
    rw [List.foldl_cons, ih]
    refine ext_entries ?_
    simp only [erase, retain, List.filter_filter]
    refine List.filter_congr fun e _ => ?_
    simp [Bool.and_comm]

theorem foldl_erase_keysWhere (t : Table K V) (p : K → V → Bool) :
    (t.keysWhere p).foldl erase t = t.retain fun k v => !p k v := by
  rw [foldl_erase_eq]
  refine retain_congr fun e he => ?_
  have hget : t.get e.1 = some e.2 := mem_entries.mp he
  have hmem : e.1 ∈ t.keysWhere p ↔ p e.1 e.2 = true := by
    rw [mem_keysWhere, hget]
    simp
  simp [hmem]

theorem get_foldl_retain {A : Type} [DecidableEq A] (t : Table K V) (owner : V → A) (as : List A)
    (k : K) :
    (as.foldl (fun t a => t.retain fun _ v => owner v ≠ a) t).get k =
      (t.get k).filter fun v => owner v ∉ as := by
  induction as generalizing t with
  | nil =>
    cases h : t.get k with
    | none => simp [h]
    | some v => simp [h, Option.filter]
  | cons a as ih =>
    rw [List.foldl_cons, ih, get_retain]
    cases h : t.get k with
    | none => simp
    | some v =>
      by_cases hv : owner v = a
      · simp [Option.filter, hv]
      · simp [Option.filter, hv]

/-- Every entry of the first table is an entry of the second with the same view. -/
def SubBy (view : V → W) (t u : Table K V) : Prop :=
  ∀ k v, t.get k = some v → ∃ v', u.get k = some v' ∧ view v = view v'

variable {view : V → W} {t u : Table K V}

theorem Sub.subBy (h : t.Sub u) : t.SubBy view u := fun k v hk => ⟨v, h k v hk, rfl⟩

theorem SubBy.refl (t : Table K V) : t.SubBy view t := (Sub.refl t).subBy

theorem SubBy.trans {w : Table K V} (h : t.SubBy view u) (h' : u.SubBy view w) :
    t.SubBy view w := by
  intro k v hk
  obtain ⟨v', hk', hv⟩ := h k v hk
  obtain ⟨v'', hk'', hv'⟩ := h' k v' hk'
  exact ⟨v'', hk'', hv.trans hv'⟩

theorem mapValues_subBy {f : K → V → V} (hf : ∀ k v, t.get k = some v → view (f k v) = view v) :
    (t.mapValues f).SubBy view t := by
  intro k v hk
  rw [get_mapValues] at hk
  obtain ⟨v', hk', rfl⟩ := Option.map_eq_some_iff.mp hk
  exact ⟨v', hk', hf k v' hk'⟩

theorem modify_subBy {k : K} {f : V → V} (hf : ∀ v, t.get k = some v → view (f v) = view v) :
    (t.modify k f).SubBy view t := by
  refine mapValues_subBy fun k' v hk' => ?_
  split
  · rename_i h
    exact hf v (h ▸ hk')
  · rfl

/-! ## Tables up to the iteration order -/

/-- The two tables answer every lookup alike. -/
def Same (t u : Table K V) : Prop := ∀ k, t.get k = u.get k

theorem Same.refl (t : Table K V) : t.Same t := fun _ => rfl

end Table

/-! ## Sets as lists -/

/-- Add an element to a set that is given by the list of its elements. -/
def setInsert {α : Type} [DecidableEq α] (x : α) (xs : List α) : List α :=
  if x ∈ xs then xs else x :: xs

/-- Remove an element from a set that is given by the list of its elements. -/
def setRemove {α : Type} [DecidableEq α] (x : α) (xs : List α) : List α :=
  xs.filter (· ≠ x)

@[simp] theorem mem_setInsert {α : Type} [DecidableEq α] {x y : α} {xs : List α} :
    y ∈ setInsert x xs ↔ y = x ∨ y ∈ xs := by
  unfold setInsert
  split
  · rename_i hx
    constructor
    · exact Or.inr
    · rintro (rfl | h)
      · exact hx
      · exact h
  · exact List.mem_cons

@[simp] theorem mem_setRemove {α : Type} [DecidableEq α] {x y : α} {xs : List α} :
    y ∈ setRemove x xs ↔ y ∈ xs ∧ y ≠ x := by
  simp [setRemove]

theorem mem_foldl_setInsert {α : Type} [DecidableEq α] {x : α} {xs ys : List α} :
    x ∈ xs.foldl (fun l y => setInsert y l) ys ↔ x ∈ xs ∨ x ∈ ys := by
  induction xs generalizing ys with
  | nil => simp
  | cons y xs ih =>
    rw [List.foldl_cons, ih, mem_setInsert, List.mem_cons]
    exact ⟨by rintro (h | rfl | h) <;> simp [*], by rintro ((rfl | h) | h) <;> simp [*]⟩

theorem foldl_setInsert_of_subset {α : Type} [DecidableEq α] {xs ys : List α}
    (h : ∀ x ∈ xs, x ∈ ys) : xs.foldl (fun l y => setInsert y l) ys = ys := by
  induction xs with
  | nil => rfl
  | cons y xs ih =>
    have hy : setInsert y ys = ys := if_pos (h y (List.mem_cons_self ..))
    rw [List.foldl_cons, hy]
    exact ih fun x hx => h x (List.mem_cons_of_mem _ hx)

/-! ## Folds -/

/-- A fold stays within a reflexive and transitive relation that every step respects. -/
theorem foldl_rel {α β : Type} {R : β → β → Prop} {f : β → α → β} (hrefl : ∀ b, R b b)
    (htrans : ∀ a b c, R a b → R b c → R a c) (hstep : ∀ b a, R (f b a) b) (l : List α) (b : β) :
    R (l.foldl f b) b := by
  induction l generalizing b with
  | nil => exact hrefl b
  | cons a l ih => exact htrans _ _ _ (ih (f b a)) (hstep b a)

end EmbedNfs
