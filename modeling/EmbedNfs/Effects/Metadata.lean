import EmbedNfs.Effects.Maps

/-!
# Sections and metadata

Each of the five sections that make or change synthetic metadata does so for the one object it is
called with.
-/

namespace EmbedNfs

namespace StateManager

/-! ## The sections that write metadata -/

/-- Every entry is an old one or belongs to the object. -/
def MetadataUpTo (object : ServerObject) (s' s : StateManager) : Prop :=
  ∀ other, other ≠ object → s'.inner.metadata.get other = s.inner.metadata.get other

theorem ensureMeta_upTo (s : StateManager) (object : ServerObject) (fileType : ServerFileType) :
    (s.ensureMeta object fileType).2.MetadataUpTo object s := by
  intro other hne
  unfold ensureMeta
  split
  · rfl
  · cases object <;> exact (Table.get_insert ..).trans (if_neg hne)

theorem MetadataUpTo.insert {s s' : StateManager} {object : ServerObject}
    (h : s'.MetadataUpTo object s) (entry : SynthMeta) :
    ∀ other, other ≠ object →
      (s'.inner.metadata.insert object entry).get other = s.inner.metadata.get other := by
  intro other hne
  rw [Table.get_insert, if_neg hne]
  exact h other hne

theorem touch_upTo (s : StateManager) (object : ServerObject) (fileType : ServerFileType) :
    (s.touch object fileType).MetadataUpTo object s :=
  (s.ensureMeta_upTo object fileType).insert _

theorem applySetattr_upTo (s : StateManager) (object : ServerObject) (fileType : ServerFileType)
    (attrs : SetAttrs) : (s.applySetattr object fileType attrs).MetadataUpTo object s := by
  unfold applySetattr
  dsimp only
  split <;> exact (s.ensureMeta_upTo object fileType).insert _

theorem runSection_upTo (s : StateManager) {c : Section} {object : ServerObject}
    (h : c.metadataOf = some object) : (s.runSection c).2.MetadataUpTo object s := by
  cases c <;> cases h
  · exact s.ensureMeta_upTo object _
  · exact s.touch_upTo object _
  · exact s.touch_upTo object _
  · exact (s.ensureMeta_upTo object _).insert _
  · exact s.applySetattr_upTo object _ _

end StateManager

end EmbedNfs
