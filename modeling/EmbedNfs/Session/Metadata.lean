import EmbedNfs.Fs
import EmbedNfs.Session.Model

/-!
# Synthetic metadata

`session/metadata.rs`: the metadata the server keeps for objects whose attributes the
backend does not supply. The sections read the wall clock once.
-/

namespace EmbedNfs

/-- `default_mode`. -/
def defaultMode : ServerFileType → U32
  | .regular => 0o644
  | .namedAttr => 0o644
  | .directory => 0o755
  | .namedAttrDir => 0o755
  | .symlink => 0o777

/-- `default_nlink`. -/
def defaultNlink : ServerFileType → U32
  | .directory => 2
  | .namedAttrDir => 2
  | _ => 1

namespace StateManager

/-- `ensure_meta_locked`. -/
def ensureMeta (s : StateManager) (object : ServerObject) (fileType : ServerFileType) :
    SynthMeta × StateManager :=
  match s.inner.metadata.get object with
  | some entry => (entry, s)
  | none =>
    let (fileid, nextSynthFileid) :=
      match object with
      | .fs id => (id, s.nextSynthFileid)
      | _ => (s.nextSynthFileid, s.nextSynthFileid + 1)
    let entry : SynthMeta :=
      { fileid, mode := defaultMode fileType, nlink := defaultNlink fileType, uid := 0, gid := 0,
        owner := "root", ownerGroup := "root",
        atimeSec := s.wallSec, atimeNsec := s.wallNsec,
        mtimeSec := s.wallSec, mtimeNsec := s.wallNsec,
        ctimeSec := s.wallSec, ctimeNsec := s.wallNsec,
        crtimeSec := s.wallSec, crtimeNsec := s.wallNsec,
        changeId := s.nextChangeid, archive := false, hidden := false, system := false,
        namedAttrCount := none }
    (entry,
      { s with
        nextSynthFileid
        nextChangeid := s.nextChangeid + 1
        inner.metadata := s.inner.metadata.insert object entry })

/-- The common body of `touch_data` and `touch_metadata`. -/
def touch (s : StateManager) (object : ServerObject) (fileType : ServerFileType) : StateManager :=
  let (entry, s) := s.ensureMeta object fileType
  let entry :=
    { entry with
      mtimeSec := s.wallSec, mtimeNsec := s.wallNsec,
      ctimeSec := s.wallSec, ctimeNsec := s.wallNsec,
      changeId := s.nextChangeid }
  { s with
    nextChangeid := s.nextChangeid + 1
    inner.metadata := s.inner.metadata.insert object entry }

/-- `touch_data`. -/
def touchData (s : StateManager) (object : ServerObject) (fileType : ServerFileType) :
    StateManager :=
  s.touch object fileType

/-- `touch_metadata`. -/
def touchMetadata (s : StateManager) (object : ServerObject) (fileType : ServerFileType) :
    StateManager :=
  s.touch object fileType

/-- `named_attr_count`. -/
def namedAttrCount (s : StateManager) (object : ServerObject) : Option U64 :=
  (s.inner.metadata.get object).bind fun entry => entry.namedAttrCount

/-- `set_named_attr_count`. -/
def setNamedAttrCount (s : StateManager) (object : ServerObject) (fileType : ServerFileType)
    (count : U64) : StateManager :=
  let (entry, s) := s.ensureMeta object fileType
  { s with
    inner.metadata :=
      s.inner.metadata.insert object { entry with namedAttrCount := some count } }

/-- The time a `SetTime` stands for, or the old one when the field is not set. -/
def chosenTime (s : StateManager) (requested : Option SetTime) (old : BitVec 64 × U32) :
    BitVec 64 × U32 :=
  match requested with
  | none => old
  | some .serverNow => (s.wallSec, s.wallNsec)
  | some (.client time) => (time.seconds, time.nanos)

/-- `apply_setattr`. -/
def applySetattr (s : StateManager) (object : ServerObject) (fileType : ServerFileType)
    (attrs : SetAttrs) : StateManager :=
  let (entry, s) := s.ensureMeta object fileType
  let (atimeSec, atimeNsec) := s.chosenTime attrs.atime (entry.atimeSec, entry.atimeNsec)
  let (mtimeSec, mtimeNsec) := s.chosenTime attrs.mtime (entry.mtimeSec, entry.mtimeNsec)
  let (crtimeSec, crtimeNsec) := s.chosenTime attrs.birthtime (entry.crtimeSec, entry.crtimeNsec)
  let entry :=
    { entry with
      mode := attrs.mode.getD entry.mode
      archive := attrs.archive.getD entry.archive
      hidden := attrs.hidden.getD entry.hidden
      uid := attrs.uid.getD entry.uid
      gid := attrs.gid.getD entry.gid
      system := attrs.system.getD entry.system
      atimeSec, atimeNsec, mtimeSec, mtimeNsec, crtimeSec, crtimeNsec }
  if attrs.isEmpty then { s with inner.metadata := s.inner.metadata.insert object entry }
  else
    { s with
      nextChangeid := s.nextChangeid + 1
      inner.metadata := s.inner.metadata.insert object
        { entry with ctimeSec := s.wallSec, ctimeNsec := s.wallNsec, changeId := s.nextChangeid } }

/-! ## What the sections leave alone -/

/-- The two states differ at most in the metadata table and its two counters. -/
def OnlyMetadata (s' s : StateManager) : Prop :=
  ∃ entries changeid fileid, s' = { s with
    inner.metadata := entries, nextChangeid := changeid, nextSynthFileid := fileid }

theorem ensureMeta_only (s : StateManager) (object : ServerObject) (fileType : ServerFileType) :
    (s.ensureMeta object fileType).2.OnlyMetadata s := by
  unfold ensureMeta
  split
  · exact ⟨_, _, _, rfl⟩
  · cases object <;> exact ⟨_, _, _, rfl⟩

theorem touch_only (s : StateManager) (object : ServerObject) (fileType : ServerFileType) :
    (s.touch object fileType).OnlyMetadata s := by
  obtain ⟨entries, changeid, fileid, h⟩ := s.ensureMeta_only object fileType
  simp only [touch, h]
  exact ⟨_, _, _, rfl⟩

theorem setNamedAttrCount_only (s : StateManager) (object : ServerObject)
    (fileType : ServerFileType) (count : U64) :
    (s.setNamedAttrCount object fileType count).OnlyMetadata s := by
  obtain ⟨entries, changeid, fileid, h⟩ := s.ensureMeta_only object fileType
  simp only [setNamedAttrCount, h]
  exact ⟨_, _, _, rfl⟩

theorem applySetattr_only (s : StateManager) (object : ServerObject) (fileType : ServerFileType)
    (attrs : SetAttrs) : (s.applySetattr object fileType attrs).OnlyMetadata s := by
  obtain ⟨entries, changeid, fileid, h⟩ := s.ensureMeta_only object fileType
  simp only [applySetattr, h]
  split
  · exact ⟨_, _, _, rfl⟩
  · exact ⟨_, _, _, rfl⟩

end StateManager

end EmbedNfs
