import EmbedNfs.Session.Opens

/-!
# Resolving stateids

`session/stateids.rs` and `test_stateids`. A request names its state by a stateid, by one of
the special stateids, or by the current stateid of its COMPOUND. `normalizeStateid` tells
these apart without looking at any table; `resolveConcrete` looks the stateid up among the
opens and then among the locks, and checks that the state belongs to the requesting client.
-/

namespace EmbedNfs

inductive CurrentStateidMode where
  | zeroSeqid
  | preserveSeqid
  deriving DecidableEq, Repr

inductive NormalizedStateid where
  | anonymous
  | bypass
  | concrete (stateid : Stateid4)
  deriving DecidableEq, Repr

/-- `is_special_stateid`. -/
def Stateid4.isSpecial (stateid : Stateid4) : Bool :=
  stateid = .anonymous ∨ stateid = .bypass ∨ stateid = .current

/-- `is_invalid_special_stateid`. -/
def Stateid4.isInvalidSpecial (stateid : Stateid4) : Bool :=
  (stateid.other = 0 ∨ stateid.other = BitVec.allOnes 96) ∧ !stateid.isSpecial

/-- `normalize_stateid`. -/
def normalizeStateid (requested : Stateid4) (currentStateid : Option Stateid4)
    (currentMode : CurrentStateidMode) : Except NfsStat4 NormalizedStateid :=
  if requested = .anonymous then .ok .anonymous
  else if requested = .bypass then .ok .bypass
  else if requested = .current then
    match currentStateid with
    | none => .error .badStateid
    | some current =>
      if current.isSpecial then .error .badStateid
      else
        match currentMode with
        | .zeroSeqid => .ok (.concrete ⟨0, current.other⟩)
        | .preserveSeqid => .ok (.concrete current)
  else if requested.isInvalidSpecial then .error .badStateid
  else .ok (.concrete requested)

/-- What becomes of a stateid that is looked up for its own sake. -/
theorem normalizeStateid_none (requested : Stateid4) (mode : CurrentStateidMode) :
    normalizeStateid requested none mode = .error .badStateid ∨
      normalizeStateid requested none mode = .ok .anonymous ∨
      normalizeStateid requested none mode = .ok .bypass ∨
      normalizeStateid requested none mode = .ok (.concrete requested) := by
  unfold normalizeStateid
  grind

namespace StateManager

/-- The part of `resolve_stateid` under the lock, for a stateid that is not special. -/
def resolveConcrete (s : StateManager) (clientid : Option Clientid4) (stateid : Stateid4) :
    Except NfsStat4 ResolvedStateid := do
  if let some opened := s.inner.openFiles.get stateid.other then
    validateStateidSeq opened.stateidSeq stateid.seqid
    if !opened.active then throw .badStateid
    if clientid.any (· ≠ opened.clientid) then throw .badStateid
    return .opened ⟨stateid.other, opened.object, opened.shareAccess⟩
  if let some lock := s.inner.lockFiles.get stateid.other then
    validateStateidSeq lock.stateidSeq stateid.seqid
    if clientid.any (· ≠ lock.owner.clientid) then throw .badStateid
    let some opened := s.inner.openFiles.get lock.openStateOther | throw .badStateid
    if !opened.active then throw .badStateid
    if clientid.any (· ≠ opened.clientid) then throw .badStateid
    return .locked
      { other := stateid.other, object := lock.object, owner := lock.owner,
        openState := ⟨lock.openStateOther, opened.object, opened.shareAccess⟩ }
  throw .badStateid

/-- What a successful lookup found: an active open, or a lock state under an active open, of
the client. -/
theorem resolveConcrete_ok {s : StateManager} {clientid : Option Clientid4} {stateid : Stateid4}
    {resolved : ResolvedStateid} (h : s.resolveConcrete clientid stateid = .ok resolved) :
    (∃ opened, s.inner.openFiles.get stateid.other = some opened ∧ opened.active = true ∧
      (∀ c, clientid = some c → opened.clientid = c) ∧
      resolved = .opened ⟨stateid.other, opened.object, opened.shareAccess⟩) ∨
    (∃ lock opened, s.inner.lockFiles.get stateid.other = some lock ∧
      s.inner.openFiles.get lock.openStateOther = some opened ∧
      (∀ c, clientid = some c → lock.owner.clientid = c) ∧
      (∀ c, clientid = some c → opened.clientid = c) ∧
      resolved = .locked ⟨stateid.other, lock.object, lock.owner,
        ⟨lock.openStateOther, opened.object, opened.shareAccess⟩⟩) := by
  have hany : ∀ {c' : Clientid4}, ¬clientid.any (· ≠ c') = true →
      ∀ c, clientid = some c → c' = c := by
    rintro c' hany c rfl
    have heq : c = c' := by simpa using hany
    exact heq.symm
  simp only [resolveConcrete, bind, Except.bind, pure, Except.pure, throw, throwThe,
    MonadExceptOf.throw] at h
  cases hopen : s.inner.openFiles.get stateid.other with
  | some opened =>
    simp only [hopen] at h
    refine Or.inl ⟨opened, rfl, ?_⟩
    split at h
    · cases h
    · split at h
      · cases h
      · split at h
        · cases h
        · rename_i hactive hclient
          exact ⟨by simpa using hactive, hany hclient, (Except.ok.inj h).symm⟩
  | none =>
    simp only [hopen] at h
    cases hlock : s.inner.lockFiles.get stateid.other with
    | none =>
      simp only [hlock] at h
      cases h
    | some lock =>
      simp only [hlock] at h
      split at h
      · cases h
      · split at h
        · cases h
        · rename_i hclient
          split at h
          · rename_i opened hget
            split at h
            · cases h
            · split at h
              · cases h
              · rename_i hclient'
                exact Or.inr ⟨lock, opened, rfl, hget, hany hclient, hany hclient',
                  (Except.ok.inj h).symm⟩
          · cases h

theorem resolveConcrete_ne_error_ok (s : StateManager) (clientid : Option Clientid4)
    (stateid : Stateid4) : s.resolveConcrete clientid stateid ≠ .error .ok := by
  have hseq := validateStateidSeq_ne_error_ok
  simp only [resolveConcrete, bind, Except.bind, pure, Except.pure, throw, throwThe,
    MonadExceptOf.throw]
  grind

/-- `resolve_stateid`, once expired clients have been reaped. -/
def resolveStateid (s : StateManager) (clientid : Option Clientid4) (requested : Stateid4)
    (currentStateid : Option Stateid4) (currentMode : CurrentStateidMode) :
    Except NfsStat4 ResolvedStateid := do
  match ← normalizeStateid requested currentStateid currentMode with
  | .anonymous => return .anonymous
  | .bypass => return .bypass
  | .concrete stateid => s.resolveConcrete clientid stateid

/-- The answer of `test_stateids` for one stateid. -/
def testStateid (s : StateManager) (stateid : Stateid4) : NfsStat4 :=
  let seqStatus (stored : U32) : NfsStat4 :=
    match validateStateidSeq stored stateid.seqid with
    | .ok () => .ok
    | .error status => status
  if stateid.isSpecial ∨ stateid.isInvalidSpecial then .badStateid
  else
    match s.inner.openFiles.get stateid.other with
    | some state => if state.active then seqStatus state.stateidSeq else .badStateid
    | none =>
      match s.inner.lockFiles.get stateid.other with
      | some state => seqStatus state.stateidSeq
      | none =>
        match s.inner.delegations.get stateid.other with
        | some state => delegationTestStatus state stateid
        | none => .badStateid

/-- `test_stateids`. -/
def testStateids (s : StateManager) (stateids : List Stateid4) : List NfsStat4 :=
  stateids.map s.testStateid

end StateManager

end EmbedNfs
