import EmbedNfs.Session.Model

/-!
# Directory delegations

The delegation sections of `session/delegations.rs`. A delegation is referenced from three
places: the stateid table and two indexes, by directory and by client. Every function here
is the part of its source function that runs under one acquisition of the `inner` lock; the
lease reaping that precedes it is a section of its own.
-/

namespace EmbedNfs

/-! ## Stateid sequence numbers -/

/-- `validate_stateid_seq`. -/
def validateStateidSeq (storedSeq providedSeq : U32) : Except NfsStat4 Unit :=
  if providedSeq = 0 ∨ providedSeq = storedSeq then .ok ()
  else if providedSeq < storedSeq then .error .oldStateid
  else .error .badStateid

theorem validateStateidSeq_ne_error_ok (storedSeq providedSeq : U32) :
    validateStateidSeq storedSeq providedSeq ≠ .error .ok := by
  unfold validateStateidSeq
  split
  · simp
  · split <;> simp

/-! ## Indexes -/

section Index

variable {K : Type} [DecidableEq K]

/-- `entry(key).or_default().insert(other)`. -/
def addToIndex (index : Table K (List StateidOther)) (key : K) (other : StateidOther) :
    Table K (List StateidOther) :=
  match index.get key with
  | none => index.insert key [other]
  | some _ => index.modify key (setInsert other)

/-- Remove a stateid from one set of an index, and the set when it becomes empty. -/
def removeFromIndex (index : Table K (List StateidOther)) (key : K) (other : StateidOther) :
    Table K (List StateidOther) :=
  match index.get key with
  | none => index
  | some entries =>
    if (setRemove other entries).isEmpty then index.erase key
    else index.modify key (setRemove other)

/-- The stateids an index lists under a key. -/
def indexed (index : Table K (List StateidOther)) (key : K) : List StateidOther :=
  (index.get key).getD []

theorem mem_indexed_addToIndex {index : Table K (List StateidOther)} {key key' : K}
    {other other' : StateidOther} :
    other' ∈ indexed (addToIndex index key other) key' ↔
      (key' = key ∧ other' = other) ∨ other' ∈ indexed index key' := by
  unfold addToIndex indexed
  by_cases hk : key' = key
  · subst hk
    cases h : index.get key' with
    | none => simp
    | some entries => simp [h]
  · cases h : index.get key with
    | none => simp [hk]
    | some entries => simp [hk]

theorem mem_indexed_removeFromIndex {index : Table K (List StateidOther)} {key key' : K}
    {other other' : StateidOther} :
    other' ∈ indexed (removeFromIndex index key other) key' ↔
      other' ∈ indexed index key' ∧ ¬(key' = key ∧ other' = other) := by
  unfold removeFromIndex
  cases h : index.get key with
  | none =>
    by_cases hk : key' = key
    · simp [indexed, hk, h]
    · simp [hk]
  | some entries =>
    dsimp only
    split
    · rename_i hempty
      by_cases hk : key' = key
      · subst hk
        have hall : ∀ x ∈ entries, x = other := by
          simpa [setRemove, List.filter_eq_nil_iff] using hempty
        simp only [indexed, Table.get_erase, ↓reduceIte, h, Option.getD_some, true_and,
          Option.getD_none, List.not_mem_nil, false_iff, not_and, not_not]
        exact hall other'
      · simp [indexed, hk]
    · by_cases hk : key' = key
      · simp [indexed, hk, h]
      · simp [indexed, hk]

theorem mem_indexed_retain {index : Table K (List StateidOther)} {p : K → Bool} {key : K}
    {other : StateidOther} :
    other ∈ indexed (index.retain fun k _ => p k) key ↔
      p key = true ∧ other ∈ indexed index key := by
  unfold indexed
  rw [Table.get_retain]
  cases index.get key with
  | none => simp
  | some others => cases p key <;> simp [Option.filter]

theorem mem_indexed_mapValues {index : Table K (List StateidOther)} {p : StateidOther → Bool}
    {key : K} {other : StateidOther} :
    other ∈ indexed (index.mapValues fun _ others => others.filter p) key ↔
      other ∈ indexed index key ∧ p other = true := by
  unfold indexed
  rw [Table.get_mapValues]
  cases index.get key with
  | none => simp
  | some others => simp

end Index

/-! ## Removal -/

namespace StateInner

/-- `remove_delegation_locked`. -/
def removeDelegationLocked (inner : StateInner) (other : StateidOther) : StateInner :=
  match inner.delegations.get other with
  | none => inner
  | some state =>
    { inner with
      delegations := inner.delegations.erase other
      dirDelegations := removeFromIndex inner.dirDelegations state.object other
      clientDelegations := removeFromIndex inner.clientDelegations state.clientid other }

/-- `remove_client_delegations_locked`. -/
def removeClientDelegationsLocked (inner : StateInner) (clientid : Clientid4) : StateInner :=
  (indexed inner.clientDelegations clientid).foldl removeDelegationLocked inner

end StateInner

/-! ## Queries -/

/-- `is_live_delegation_status`. -/
def DelegationStatus.isLive : DelegationStatus → Bool
  | .granted => true
  | .recallInProgress => true
  | .returned => false
  | .revoked => false

namespace StateInner

/-- `find_live_directory_delegation`. -/
def findLiveDirectoryDelegation (inner : StateInner) (object : ServerObject)
    (clientid : Clientid4) : Option StateidOther :=
  (indexed inner.clientDelegations clientid).find? fun other =>
    (inner.delegations.get other).any fun state =>
      state.object = object ∧ state.kind = .directoryRead ∧ state.status.isLive

/-- `has_recall_in_progress`. -/
def hasRecallInProgress (inner : StateInner) (object : ServerObject) : Bool :=
  (indexed inner.dirDelegations object).any fun other =>
    (inner.delegations.get other).any fun state => state.status = .recallInProgress

/-- `is_live_delegation`. -/
def isLiveDelegation (inner : StateInner) (other : StateidOther) : Bool :=
  (inner.delegations.get other).any fun state => state.status.isLive

/-- `has_live_client_delegations`. -/
def hasLiveClientDelegations (inner : StateInner) (clientid : Clientid4) : Bool :=
  (indexed inner.clientDelegations clientid).any fun other => inner.isLiveDelegation other

end StateInner

/-- `delegation_test_status`. -/
def delegationTestStatus (state : DelegationState) (stateid : Stateid4) : NfsStat4 :=
  match validateStateidSeq state.stateidSeq stateid.seqid with
  | .ok () => if state.status = .revoked then .delegRevoked else .ok
  | .error status => status

/-! ## Sections -/

/-- `is_retired`: whether the object belongs to something the backend has retired. -/
def StateManager.isRetired (s : StateManager) (object : ServerObject) : Bool :=
  s.retiredObjects.contains object.root

namespace StateManager

/-- `grant_directory_delegation`. -/
def grantDirectoryDelegation (s : StateManager) (object : ServerObject) (clientid : Clientid4)
    (sessionid : Option Sessionid4) (maxPerClient maxTotal : Nat) :
    Except NfsStat4 (DirectoryDelegationGrant × StateManager) :=
  if s.isRetired object then .error .stale
  else if (s.inner.findLiveDirectoryDelegation object clientid).isSome then
    .ok (.alreadyHeld, s)
  else if s.inner.hasRecallInProgress object then .ok (.unavailable, s)
  else if maxPerClient ≤
      ((indexed s.inner.clientDelegations clientid).filter s.inner.isLiveDelegation).length then
    .ok (.unavailable, s)
  else if maxTotal ≤
      (s.inner.delegations.values.filter fun state => state.status.isLive).length then
    .ok (.unavailable, s)
  else
    let other := StateidOther.mint s.nextStateid clientid
    let state : DelegationState :=
      { object, clientid, sessionid, stateidSeq := 1, kind := .directoryRead,
        status := .granted, grantedAt := s.clock, lastRecallAt := none }
    .ok (.granted ⟨1, other⟩,
      { s with
        nextStateid := s.nextStateid + 1
        inner.delegations := s.inner.delegations.insert other state
        inner.dirDelegations := addToIndex s.inner.dirDelegations object other
        inner.clientDelegations := addToIndex s.inner.clientDelegations clientid other })

/-- `return_delegation_state`. The status written to the entry before it is removed is not
observable. -/
def returnDelegationState (s : StateManager) (stateid : Stateid4)
    (clientid : Option Clientid4) : Except NfsStat4 StateManager := do
  let some state := s.inner.delegations.get stateid.other | throw .badStateid
  validateStateidSeq state.stateidSeq stateid.seqid
  if clientid.any (· ≠ state.clientid) then throw .badStateid
  if state.status = .revoked then throw .delegRevoked
  return { s with inner := s.inner.removeDelegationLocked stateid.other }

/-- `purge_client_delegations`. -/
def purgeClientDelegations (s : StateManager) (clientid : Clientid4) : StateManager :=
  { s with inner := s.inner.removeClientDelegationsLocked clientid }

/-- The loop of `begin_directory_recall_excluding` over the directory's stateids. -/
def beginRecalls (now : Instant) (excluded : Option Clientid4) :
    List StateidOther → Table StateidOther DelegationState →
      List DirectoryDelegationRecall × Table StateidOther DelegationState
  | [], delegations => ([], delegations)
  | other :: others, delegations =>
    match delegations.get other with
    | none => beginRecalls now excluded others delegations
    | some state =>
      let recalled (sendCallback : Bool) : DirectoryDelegationRecall :=
        { stateid := ⟨state.stateidSeq, other⟩, clientid := state.clientid, sendCallback }
      if state.kind ≠ .directoryRead then beginRecalls now excluded others delegations
      else
        match state.status with
        | .granted =>
          if excluded = some state.clientid then beginRecalls now excluded others delegations
          else
            let marked := delegations.modify other fun state =>
              { state with status := .recallInProgress, lastRecallAt := some now }
            let (recalls, delegations) := beginRecalls now excluded others marked
            (recalled true :: recalls, delegations)
        | .recallInProgress =>
          let (recalls, delegations) := beginRecalls now excluded others delegations
          (recalled false :: recalls, delegations)
        | .returned => beginRecalls now excluded others delegations
        | .revoked => beginRecalls now excluded others delegations

/-- `begin_directory_recall_excluding`. -/
def beginDirectoryRecallExcluding (s : StateManager) (object : ServerObject)
    (excluded : Option Clientid4) : List DirectoryDelegationRecall × StateManager :=
  let (recalls, delegations) :=
    beginRecalls s.clock excluded (indexed s.inner.dirDelegations object) s.inner.delegations
  (recalls, { s with inner.delegations := delegations })

/-- `write_delegations_over`. -/
def writeDelegationsOver (s : StateManager) (objects : List ServerObject) : List Stateid4 :=
  (s.inner.delegations.entries.filter fun (_, state) =>
    state.kind.conveysWrite ∧ state.object ∈ objects ∧ state.status.isLive).map
      fun (other, state) => ⟨state.stateidSeq, other⟩

/-- `delegation_recall_complete`. -/
def delegationRecallComplete (s : StateManager) (stateid : Stateid4) : Bool :=
  !(s.inner.delegations.get stateid.other).any fun state => state.status.isLive

/-- `revoke_recallable_delegation`. -/
def revokeRecallableDelegation (s : StateManager) (stateid : Stateid4) :
    Except NfsStat4 StateManager := do
  let some state := s.inner.delegations.get stateid.other | throw .badStateid
  validateStateidSeq state.stateidSeq stateid.seqid
  return { s with
    inner.delegations := s.inner.delegations.modify stateid.other fun state =>
      { state with status := .revoked }
    inner.clients := s.inner.clients.modify state.clientid fun client =>
      { client with statusFlags := client.statusFlags ||| seq4StatusRecallableStateRevoked } }

/-! ## What a successful section did -/

/-- What a `grantDirectoryDelegation` that did not fail did: nothing, or it installed a
delegation in the table and in both indexes. -/
theorem grantDirectoryDelegation_ok {s s' : StateManager} {object : ServerObject}
    {clientid : Clientid4} {sessionid : Option Sessionid4} {maxPerClient maxTotal : Nat}
    {grant : DirectoryDelegationGrant}
    (h : s.grantDirectoryDelegation object clientid sessionid maxPerClient maxTotal =
      .ok (grant, s')) :
    s' = s ∨
    (s.isRetired object = false ∧ s.inner.hasRecallInProgress object = false ∧
      grant = .granted ⟨1, .mint s.nextStateid clientid⟩ ∧
      s' = { s with
        nextStateid := s.nextStateid + 1
        inner.delegations := s.inner.delegations.insert (.mint s.nextStateid clientid)
          { object, clientid, sessionid, stateidSeq := 1, kind := .directoryRead,
            status := .granted, grantedAt := s.clock, lastRecallAt := none }
        inner.dirDelegations :=
          addToIndex s.inner.dirDelegations object (.mint s.nextStateid clientid)
        inner.clientDelegations :=
          addToIndex s.inner.clientDelegations clientid (.mint s.nextStateid clientid) }) := by
  unfold grantDirectoryDelegation at h
  grind

/-- When a delegation is granted: the client has none on the directory, none is being recalled
there, and there is room for one more. -/
theorem grantDirectoryDelegation_room {s s' : StateManager} {object : ServerObject}
    {clientid : Clientid4} {sessionid : Option Sessionid4} {maxPerClient maxTotal : Nat}
    {stateid : Stateid4}
    (h : s.grantDirectoryDelegation object clientid sessionid maxPerClient maxTotal =
      .ok (.granted stateid, s')) :
    s.inner.findLiveDirectoryDelegation object clientid = none ∧
    s.inner.hasRecallInProgress object = false ∧
    ((indexed s.inner.clientDelegations clientid).filter s.inner.isLiveDelegation).length <
      maxPerClient ∧
    (s.inner.delegations.values.filter fun state => state.status.isLive).length < maxTotal := by
  unfold grantDirectoryDelegation at h
  split at h
  · cases h
  split at h
  · cases h
  split at h
  · cases h
  split at h
  · cases h
  split at h
  · cases h
  rename_i hfind hrecall hcount htotal
  exact ⟨by simpa using hfind, by simpa using hrecall, Nat.lt_of_not_le hcount,
    Nat.lt_of_not_le htotal⟩

/-- What `beginRecalls` makes of one delegation. -/
def markRecall (now : Instant) (excluded : Option Clientid4) (state : DelegationState) :
    DelegationState :=
  if state.status = .granted ∧ excluded ≠ some state.clientid then
    { state with status := .recallInProgress, lastRecallAt := some now }
  else state

theorem markRecall_markRecall (now : Instant) (excluded : Option Clientid4)
    (state : DelegationState) :
    markRecall now excluded (markRecall now excluded state) = markRecall now excluded state := by
  unfold markRecall
  grind

theorem get_beginRecalls (now : Instant) (excluded : Option Clientid4)
    (others : List StateidOther) (t : Table StateidOther DelegationState) (k : StateidOther) :
    (beginRecalls now excluded others t).2.get k =
      if k ∈ others then (t.get k).map (markRecall now excluded) else t.get k := by
  induction others generalizing t with
  | nil => simp [beginRecalls]
  | cons other others ih =>
    have hkind : ∀ kind : DelegationKind, kind = .directoryRead := fun kind => by cases kind; rfl
    cases hget : t.get other with
    | none =>
      simp only [beginRecalls, hget, ih, List.mem_cons]
      by_cases hk : k = other
      · simp [hk, hget]
      · simp [hk]
    | some state =>
      have hskip : markRecall now excluded state = state →
          (beginRecalls now excluded others t).2.get k =
            if k ∈ other :: others then (t.get k).map (markRecall now excluded) else t.get k := by
        intro hmark
        rw [ih]
        by_cases hk : k = other
        · simp [hk, hget, hmark]
        · simp [hk]
      simp only [beginRecalls, hget, hkind state.kind, ne_eq, not_true_eq_false, ↓reduceIte]
      cases hstatus : state.status with
      | granted =>
        dsimp only
        split
        · rename_i hex
          exact hskip (by simp [markRecall, hex])
        · rename_i hex
          have hmark : ∀ a, t.get other = some a →
              { a with status := .recallInProgress, lastRecallAt := some now } =
                markRecall now excluded a := by
            intro a ha
            cases hget.symm.trans ha
            simp [markRecall, hstatus, hex]
          rw [ih, Table.get_modify]
          by_cases hk : k = other
          · subst hk
            simp only [↓reduceIte, hget, Option.map_some, hmark state hget, List.mem_cons,
              true_or, markRecall_markRecall, ite_self]
          · simp [hk]
      | recallInProgress => exact hskip (by simp [markRecall, hstatus])
      | returned => exact hskip (by simp [markRecall, hstatus])
      | revoked => exact hskip (by simp [markRecall, hstatus])

/-- Every live delegation of another client is recalled. -/
theorem exists_mem_beginRecalls (now : Instant) {excluded : Option Clientid4}
    {others : List StateidOther} {t : Table StateidOther DelegationState} {k : StateidOther}
    {state : DelegationState} (hk : k ∈ others) (hget : t.get k = some state)
    (hlive : state.status.isLive = true) (hother : excluded ≠ some state.clientid) :
    ∃ recalled ∈ (beginRecalls now excluded others t).1,
      recalled.stateid = ⟨state.stateidSeq, k⟩ := by
  induction others generalizing t with
  | nil => cases hk
  | cons other others ih =>
    have hkind : ∀ kind : DelegationKind, kind = .directoryRead := fun kind => by cases kind; rfl
    by_cases hhead : k = other
    · subst hhead
      simp only [beginRecalls, hget, hkind state.kind, ne_eq, not_true_eq_false, ↓reduceIte]
      cases hstatus : state.status with
      | granted =>
        simp only [hother, ↓reduceIte]
        exact ⟨_, List.mem_cons_self .., rfl⟩
      | recallInProgress => exact ⟨_, List.mem_cons_self .., rfl⟩
      | returned => simp [hstatus, DelegationStatus.isLive] at hlive
      | revoked => simp [hstatus, DelegationStatus.isLive] at hlive
    · have hk' : k ∈ others := (List.mem_cons.mp hk).resolve_left hhead
      have hskip := ih hk' hget
      cases hother' : t.get other with
      | none =>
        simp only [beginRecalls, hother']
        exact hskip
      | some found =>
        simp only [beginRecalls, hother', hkind found.kind, ne_eq, not_true_eq_false, ↓reduceIte]
        cases found.status with
        | granted =>
          dsimp only
          split
          · exact hskip
          · have hget' : (t.modify other fun state =>
                { state with status := .recallInProgress, lastRecallAt := some now }).get k =
                  some state := by
              rw [Table.get_modify, if_neg hhead, hget]
            obtain ⟨recalled, hmem, hid⟩ := ih hk' hget'
            exact ⟨recalled, List.mem_cons_of_mem _ hmem, hid⟩
        | recallInProgress =>
          obtain ⟨recalled, hmem, hid⟩ := hskip
          exact ⟨recalled, List.mem_cons_of_mem _ hmem, hid⟩
        | returned => exact hskip
        | revoked => exact hskip

theorem returnDelegationState_status {s s' : StateManager} {stateid : Stateid4}
    {clientid : Option Clientid4} (h : s.returnDelegationState stateid clientid = .ok s') :
    (∀ state, s.inner.delegations.get stateid.other = some state → state.status ≠ .revoked) ∧
    s' = { s with inner := s.inner.removeDelegationLocked stateid.other } := by
  simp only [returnDelegationState, bind, Except.bind, pure, Except.pure, throw, throwThe,
    MonadExceptOf.throw] at h
  grind

theorem returnDelegationState_ok {s s' : StateManager} {stateid : Stateid4}
    {clientid : Option Clientid4} (h : s.returnDelegationState stateid clientid = .ok s') :
    (∃ state, s.inner.delegations.get stateid.other = some state ∧
      ∀ c, clientid = some c → state.clientid = c) ∧
    s' = { s with inner := s.inner.removeDelegationLocked stateid.other } := by
  simp only [returnDelegationState, bind, Except.bind, pure, Except.pure, throw, throwThe,
    MonadExceptOf.throw] at h
  cases clientid with
  | none => grind
  | some c =>
    simp only [Option.any_some, ne_eq, decide_not, Bool.not_eq_eq_eq_not, Bool.not_true,
      decide_eq_false_iff_not] at h
    grind

theorem returnDelegationState_ne_error_ok (s : StateManager) (stateid : Stateid4)
    (clientid : Option Clientid4) : s.returnDelegationState stateid clientid ≠ .error .ok := by
  have hseq := validateStateidSeq_ne_error_ok
  simp only [returnDelegationState, bind, Except.bind, pure, Except.pure, throw, throwThe,
    MonadExceptOf.throw]
  grind

theorem revokeRecallableDelegation_ok {s s' : StateManager} {stateid : Stateid4}
    (h : s.revokeRecallableDelegation stateid = .ok s') :
    ∃ state, s.inner.delegations.get stateid.other = some state ∧
      s' = { s with
        inner.delegations := s.inner.delegations.modify stateid.other fun deleg =>
          { deleg with status := .revoked }
        inner.clients := s.inner.clients.modify state.clientid fun client =>
          { client with
            statusFlags := client.statusFlags ||| seq4StatusRecallableStateRevoked } } := by
  simp only [revokeRecallableDelegation, bind, Except.bind, pure, Except.pure, throw, throwThe,
    MonadExceptOf.throw] at h
  grind

end StateManager

end EmbedNfs
