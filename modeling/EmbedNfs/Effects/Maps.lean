import EmbedNfs.Effects.Shrinking

/-!
# Sections, the concurrent maps and metadata

A section works on what the `inner` lock guards and on the counters it mints from. It leaves
the filehandle maps, the retired set and the boot's constants alone. Synthetic metadata is made and
changed by five sections and dropped by the sweep of an invalidation.
-/

namespace EmbedNfs

namespace StateInner

theorem metadata_foldl {α : Type} {f : StateInner → α → StateInner}
    (h : ∀ inner a, (f inner a).metadata = inner.metadata) (items : List α) (inner : StateInner) :
    (items.foldl f inner).metadata = inner.metadata := by
  induction items generalizing inner with
  | nil => rfl
  | cons a items ih => rw [List.foldl_cons, ih, h]

theorem metadata_removeDelegationLocked (inner : StateInner) (other : StateidOther) :
    (inner.removeDelegationLocked other).metadata = inner.metadata := by
  unfold removeDelegationLocked
  split <;> rfl

theorem metadata_revokeClientState (inner : StateInner) (clientid : Clientid4) :
    (inner.revokeClientState clientid).metadata = inner.metadata :=
  metadata_foldl metadata_removeDelegationLocked _ _

theorem metadata_dropClientState (inner : StateInner) (clientid : Clientid4) :
    (inner.dropClientState clientid).metadata = inner.metadata :=
  metadata_revokeClientState _ clientid

theorem metadata_expireClient (now : Instant) (inner : StateInner) (clientid : Clientid4) :
    (expireClient now inner clientid).metadata = inner.metadata :=
  metadata_revokeClientState inner clientid

theorem metadata_reapExpiredClientsLocked (inner : StateInner) (now : Instant) :
    (inner.reapExpiredClientsLocked now).metadata = inner.metadata := by
  unfold reapExpiredClientsLocked
  dsimp only
  rw [metadata_foldl metadata_dropClientState, metadata_foldl (metadata_expireClient now)]

end StateInner

/-- What the state manager keeps about filehandles and retirement. -/
structure Maps where
  fhToObject : Table Bytes ServerObject
  objectToFh : Table ServerObject Bytes
  persistentFh : Table ObjectId Bytes
  retiredObjects : List ObjectId
  nextFh : U64
  fhBootNonce : Bytes
  fhHash : Bytes → Nat
  fhShardMask : Nat

namespace StateManager

def maps (s : StateManager) : Maps where
  fhToObject := s.fhToObject
  objectToFh := s.objectToFh
  persistentFh := s.persistentFh
  retiredObjects := s.retiredObjects
  nextFh := s.nextFh
  fhBootNonce := s.fhBootNonce
  fhHash := s.fhHash
  fhShardMask := s.fhShardMask

/-- The two states have the same maps. -/
def SameMaps (a b : StateManager) : Prop := a.maps = b.maps

theorem SameMaps.trans {a b c : StateManager} (h : a.SameMaps b) (h' : b.SameMaps c) :
    a.SameMaps c := Eq.trans h h'

theorem SameMaps.fhToObject {a b : StateManager} (h : a.SameMaps b) :
    a.fhToObject = b.fhToObject := congrArg Maps.fhToObject h

theorem SameMaps.retiredObjects {a b : StateManager} (h : a.SameMaps b) :
    a.retiredObjects = b.retiredObjects := congrArg Maps.retiredObjects h

/-- The two states have the same metadata. -/
def SameMetadata (a b : StateManager) : Prop := a.inner.metadata = b.inner.metadata

/-- The two states have the same maps and the same metadata. -/
def SameBeside (a b : StateManager) : Prop := a.SameMaps b ∧ a.SameMetadata b

theorem SameBeside.trans {a b c : StateManager} (h : a.SameBeside b) (h' : b.SameBeside c) :
    a.SameBeside c := ⟨h.1.trans h'.1, Eq.trans h.2 h'.2⟩

theorem reapExpiredClients_sameBeside (s : StateManager) : s.reapExpiredClients.SameBeside s :=
  ⟨rfl, s.inner.metadata_reapExpiredClientsLocked _⟩

theorem exchangeId_sameBeside (s : StateManager) (args : ExchangeIdArgs4) :
    (s.exchangeId args).2.SameBeside s := by
  unfold exchangeId
  split
  · exact ⟨rfl, rfl⟩
  · refine SameBeside.trans ?_ s.reapExpiredClients_sameBeside
    show (s.reapExpiredClients.exchangeIdReaped args).2.SameBeside s.reapExpiredClients
    unfold exchangeIdReaped
    dsimp only
    split
    · exact ⟨rfl, rfl⟩
    · exact ⟨rfl, StateInner.metadata_foldl StateInner.metadata_dropClientState _ _⟩

theorem setClientIdReaped_sameBeside (s : StateManager) (args : SetClientIdArgs4) :
    (s.setClientIdReaped args).2.SameBeside s := by
  unfold setClientIdReaped
  dsimp only
  split
  · exact ⟨rfl, StateInner.metadata_foldl StateInner.metadata_dropClientState _ _⟩
  · exact ⟨rfl, StateInner.metadata_foldl StateInner.metadata_dropClientState _ _⟩

theorem confirmClient_metadata (s : StateManager) (clientid : Clientid4)
    (clientSequenceId : Sequenceid4) (replaced : Option Clientid4) :
    (s.confirmClient clientid clientSequenceId replaced).metadata = s.inner.metadata := by
  unfold confirmClient
  cases replaced with
  | some oldClientid => exact StateInner.metadata_dropClientState _ oldClientid
  | none => rfl

theorem runSection_sameBeside (s : StateManager) {c : Section} (hmeta : c.metadataOf = none)
    (hdrop : ∀ ids, c ≠ .dropBelonging ids) : (s.runSection c).2.SameBeside s := by
  have hrefl (s : StateManager) : s.SameBeside s := ⟨rfl, rfl⟩
  have hreap := s.reapExpiredClients_sameBeside
  cases hfiles : c.ofFiles with
  | true =>
    obtain ⟨_, _, _, hs⟩ := s.runSection_onlyFiles c hfiles
    rw [hs]
    exact ⟨rfl, rfl⟩
  | false =>
  cases hsessions : c.ofSessions with
  | true =>
    obtain ⟨t, _, _, rfl | rfl, hs⟩ := s.runSection_onlySessions c hsessions
    · rw [hs]
      exact ⟨rfl, rfl⟩
    · rw [hs]
      exact ⟨rfl, hreap.2⟩
  | false =>
  cases hdelegations : c.ofDelegations with
  | true =>
    obtain ⟨_, _, ⟨_, _, _, rfl⟩, -, hs⟩ := s.runSection_onlyDelegations c hdelegations
    rw [hs]
    exact ⟨rfl, rfl⟩
  | false =>
  cases c with
  | exchangeId args => exact exchangeId_sameBeside s args
  | createSession args conn =>
    refine SameBeside.trans (commit_snd (hrefl _) fun a s' hok => ?_) hreap
    obtain ⟨client, inner, -, -, rfl, -, rfl⟩ := createSessionReaped_ok hok
    exact ⟨rfl, confirmClient_metadata ..⟩
  | destroyClientid clientid =>
    refine SameBeside.trans (commitUnit_snd (hrefl _) fun s' hok => ?_) hreap
    rw [destroyClientidReaped_ok hok]
    exact ⟨rfl, StateInner.metadata_dropClientState _ clientid⟩
  | setClientId args => exact SameBeside.trans (setClientIdReaped_sameBeside _ args) hreap
  | freeStateid stateid =>
    refine commitUnit_snd (hrefl s) fun s' hok => ?_
    rcases freeStateid_ok hok with ⟨-, rfl⟩ | rfl | rfl
    · exact ⟨rfl, rfl⟩
    · exact ⟨rfl, rfl⟩
    · exact ⟨rfl, StateInner.metadata_removeDelegationLocked _ _⟩
  | revokeRecallableDelegation stateid =>
    refine commitUnit_snd (hrefl s) fun s' hok => ?_
    obtain ⟨state, -, rfl⟩ := revokeRecallableDelegation_ok hok
    exact ⟨rfl, rfl⟩
  | dropBelonging ids => exact absurd rfl (hdrop ids)
  | _ =>
    first
      | (cases hmeta; done)
      | (cases hfiles; done)
      | (cases hsessions; done)
      | (cases hdelegations; done)
      | exact ⟨rfl, rfl⟩

theorem OnlyMetadata.sameMaps {s s' : StateManager} (h : s'.OnlyMetadata s) : s'.SameMaps s := by
  obtain ⟨entries, changeid, fileid, rfl⟩ := h
  exact rfl

theorem runSection_sameMaps (s : StateManager) (c : Section) :
    (s.runSection c).2.SameMaps s := by
  cases hmeta : c.metadataOf with
  | some object => exact (s.runSection_onlyMetadata hmeta).sameMaps
  | none =>
    cases c with
    | dropBelonging ids => exact rfl
    | _ => exact (s.runSection_sameBeside hmeta nofun).1

end StateManager

end EmbedNfs
