import EmbedNfs.Properties.LeaseReaping
import EmbedNfs.Properties.LockLastByte
import EmbedNfs.Server.Alone
import EmbedNfs.Server.Ops.File

/-!
# Which READs and WRITEs are let through

`validate_io_stateid` makes three checks, each in a section of its own: the access of the open
behind the stateid, the share reservations of the other opens, and the byte-range locks of the
others. `IoAdmitted` says what they are for, byte by byte. The stored ranges of locks are never
empty, and so the comparison of interval ends finds a conflict exactly where there is a byte.
-/

namespace EmbedNfs

/-! ## What an I/O has to meet -/

namespace ResolvedStateid

/-- The share access of the open that the stateid stands for. -/
def shareAccess : ResolvedStateid → Option U32
  | .opened state => some state.shareAccess
  | .locked lock => some lock.openState.shareAccess
  | .anonymous => none
  | .bypass => none

/-- The open that the stateid stands for. -/
def openOther : ResolvedStateid → Option StateidOther
  | .opened state => some state.other
  | .locked lock => some lock.openState.other
  | .anonymous => none
  | .bypass => none

/-- A lock state that does not stand in the way: the presented one, and those of its owner. -/
def exempts (k : StateidOther) (lockState : LockFileState) : ResolvedStateid → Bool
  | .locked lock => k = lock.other ∨ lockState.owner = lock.owner
  | .opened _ => false
  | .anonymous => false
  | .bypass => false

/-- The stateid is special, or it is that of an open or lock of the object. -/
def isOf (object : ServerObject) : ResolvedStateid → Bool
  | .opened state => state.object = object
  | .locked lock => lock.object = object
  | .anonymous => true
  | .bypass => true

end ResolvedStateid

/-- The access that an I/O asks for. -/
def ioAccess (isWrite : Bool) : U32 :=
  if isWrite then open4ShareAccessWrite else open4ShareAccessRead

/-- The I/O is in order: a write has an open with write access behind it, no other open denies the
access, and no byte is locked by somebody else. -/
structure IoAdmitted (inner : StateInner) (object : ServerObject) (resolved : ResolvedStateid)
    (isWrite : Bool) (offset length : U64) : Prop where
  backed : isWrite = true → ∀ access, resolved.shareAccess = some access →
    access &&& open4ShareAccessWrite ≠ 0
  shares : ∀ k opened, inner.openFiles.get k = some opened → opened.active = true →
    opened.object = object → resolved.openOther ≠ some k →
      opened.shareDeny &&& ioAccess isWrite = 0
  locks : ∀ b, offset.toNat ≤ b → b < offset.toNat + length.toNat →
    ∀ k lock, inner.lockFiles.get k = some lock → lock.active = true → lock.object = object →
      resolved.exempts k lock = false → ∀ range ∈ lock.ranges, range.Covers b →
        isWrite = false ∧ range.locktype.isWriteLock = false

/-! ## The checks -/

theorem shareAccessMode_write (access : U32) :
    shareAccessMode access &&& open4ShareAccessWrite = access &&& open4ShareAccessWrite := by
  have hmask : ~~~open4ShareAccessWantDelegMask &&& open4ShareAccessWrite =
      open4ShareAccessWrite := by decide
  rw [shareAccessMode, BitVec.and_assoc, hmask]

theorem ioExemptions_eq (isWrite : Bool) (resolved : ResolvedStateid) :
    (ioExemptions isWrite resolved = .error .openmode ∧ isWrite = true ∧
      ∃ access, resolved.shareAccess = some access ∧ access &&& open4ShareAccessWrite = 0) ∨
    (∃ owner ignored, ioExemptions isWrite resolved = .ok (resolved.openOther, owner, ignored) ∧
      (isWrite = true → ∀ access, resolved.shareAccess = some access →
        access &&& open4ShareAccessWrite ≠ 0) ∧
      ∀ k state, resolved.exempts k state = false ↔
        some k ≠ ignored ∧ owner ≠ some state.owner) := by
  have hcase : ∀ (access : U32), resolved.shareAccess = some access →
      (decide (isWrite = true ∧ shareAccessMode access &&& open4ShareAccessWrite = 0) = true ↔
        isWrite = true ∧ access &&& open4ShareAccessWrite = 0) := by
    intro access _
    rw [decide_eq_true_eq, shareAccessMode_write]
  cases resolved with
  | anonymous =>
    refine Or.inr ⟨none, none, rfl, fun _ access h => ?_, by simp [ResolvedStateid.exempts]⟩
    cases h
  | bypass =>
    refine Or.inr ⟨none, none, rfl, fun _ access h => ?_, by simp [ResolvedStateid.exempts]⟩
    cases h
  | opened opened =>
    by_cases hlacks : isWrite = true ∧ opened.shareAccess &&& open4ShareAccessWrite = 0
    · refine Or.inl ⟨?_, hlacks.1, opened.shareAccess, rfl, hlacks.2⟩
      simp only [ioExemptions, if_pos ((hcase _ rfl).mpr hlacks)]
    · refine Or.inr ⟨none, none, ?_, ?_, by simp [ResolvedStateid.exempts]⟩
      · simp only [ioExemptions, if_neg (mt (hcase _ rfl).mp hlacks)]
        rfl
      · rintro hwrite access ⟨⟩ hzero
        exact hlacks ⟨hwrite, hzero⟩
  | locked lock =>
    by_cases hlacks : isWrite = true ∧ lock.openState.shareAccess &&& open4ShareAccessWrite = 0
    · refine Or.inl ⟨?_, hlacks.1, lock.openState.shareAccess, rfl, hlacks.2⟩
      simp only [ioExemptions, if_pos ((hcase _ rfl).mpr hlacks)]
    · refine Or.inr ⟨some lock.owner, some lock.other, ?_, ?_, fun k state => ?_⟩
      · simp only [ioExemptions, if_neg (mt (hcase _ rfl).mp hlacks)]
        rfl
      · rintro hwrite access ⟨⟩ hzero
        exact hlacks ⟨hwrite, hzero⟩
      · simp only [ResolvedStateid.exempts, decide_eq_false_iff_not, not_or, ne_eq,
          Option.some.injEq]
        rw [eq_comm (a := state.owner)]

namespace StateManager

variable {s : StateManager} {offset length : U64}

theorem hasConflictingShareDeny_eq_false (s : StateManager) (object : ServerObject) (access : U32)
    (ignored : Option StateidOther) :
    s.hasConflictingShareDeny object access ignored = false ↔
      ∀ k opened, s.inner.openFiles.get k = some opened → opened.active = true →
        opened.object = object → ignored ≠ some k → opened.shareDeny &&& access = 0 := by
  unfold hasConflictingShareDeny
  rw [Table.any_eq_false]
  refine forall_congr' fun k => forall_congr' fun opened => imp_congr_right fun _ => ?_
  rw [decide_eq_false_iff_not]
  constructor
  · intro hnot hactive hobject hignored
    by_contra hdeny
    exact hnot ⟨hactive, hobject, Ne.symm hignored, hdeny⟩
  · rintro hall ⟨hactive, hobject, hignored, hdeny⟩
    exact hdeny (hall hactive hobject (Ne.symm hignored))

theorem locksOverlap_iff {range : LockRange} (hrange : range.Valid) (hlength : length ≠ u64Max)
    (hpos : length ≠ 0) :
    locksOverlap range.offset range.length offset length = true ↔
      ∃ b, offset.toNat ≤ b ∧ b < offset.toNat + length.toNat ∧ range.Covers b := by
  have hend : lockEnd offset length = offset.toNat + length.toNat := by simp [lockEnd, hlength]
  have hlt : 0 < length.toNat := Nat.pos_of_ne_zero fun h => hpos (BitVec.eq_of_toNat_eq h)
  have hrangePos : range.offset.toNat < lockEnd range.offset range.length := by
    have hoffset := range.offset.isLt
    have hlast : LockRange.lastByte < u128Max := by decide
    rcases lockEnd_of_valid hrange with ⟨-, hmax⟩ | ⟨-, -, h⟩
    · unfold LockRange.lastByte at hlast
      omega
    · exact h
  simp only [locksOverlap, hend, Bool.decide_and, Bool.and_eq_true, decide_eq_true_eq]
  constructor
  · rintro ⟨h₁, h₂⟩
    refine ⟨max offset.toNat range.offset.toNat, le_max_left _ _, ?_, le_max_right _ _, ?_⟩
    · omega
    · omega
  · rintro ⟨b, h₁, h₂, h₃, h₄⟩
    exact ⟨by omega, by omega⟩

theorem hasConflictingIoLock_eq_false
    (hvalid : ∀ k lock, s.inner.lockFiles.get k = some lock → ∀ range ∈ lock.ranges, range.Valid)
    (object : ServerObject) (owner : Option StateOwner4) (isWrite : Bool) (offset : U64)
    (hlength : length ≠ u64Max) (ignored : Option StateidOther) :
    s.hasConflictingIoLock object owner isWrite offset length ignored = false ↔
      ∀ b, offset.toNat ≤ b → b < offset.toNat + length.toNat →
        ∀ k lock, s.inner.lockFiles.get k = some lock → lock.active = true →
          lock.object = object → (some k ≠ ignored ∧ owner ≠ some lock.owner) →
            ∀ range ∈ lock.ranges, range.Covers b →
              isWrite = false ∧ range.locktype.isWriteLock = false := by
  unfold hasConflictingIoLock
  by_cases hzero : length = 0
  · subst hzero
    rw [if_pos rfl]
    refine iff_of_true rfl fun b h₁ h₂ => ?_
    exact absurd h₂ (Nat.not_lt.mpr h₁)
  · simp only [hzero, ↓reduceIte, Table.any_eq_false, decide_eq_false_iff_not]
    constructor
    · intro hnone b h₁ h₂ k lock hk hactive hobject hexempt range hrange hcov
      have hoverlap := (locksOverlap_iff (hvalid k lock hk range hrange) hlength hzero).mpr
        ⟨b, h₁, h₂, hcov⟩
      by_contra hconflict
      refine hnone k lock hk ⟨hactive, hobject, hexempt.1, hexempt.2, ?_⟩
      refine List.any_eq_true.mpr ⟨range, hrange, decide_eq_true ⟨hoverlap, ?_⟩⟩
      cases isWrite with
      | true => exact Or.inl rfl
      | false => exact Or.inr (Bool.eq_true_of_not_eq_false fun h => hconflict ⟨rfl, h⟩)
    · rintro hall k lock hk ⟨hactive, hobject, hignored, howner, hconflict⟩
      obtain ⟨range, hrange, hboth⟩ := List.any_eq_true.mp hconflict
      obtain ⟨hoverlap, hkind⟩ := of_decide_eq_true hboth
      obtain ⟨b, h₁, h₂, hcov⟩ :=
        (locksOverlap_iff (hvalid k lock hk range hrange) hlength hzero).mp hoverlap
      obtain ⟨hread, hshared⟩ :=
        hall b h₁ h₂ k lock hk hactive hobject ⟨hignored, howner⟩ range hrange hcov
      rw [hread, hshared] at hkind
      rcases hkind with h | h
      · cases h
      · cases h

theorem reapExpiredClients_idem (s : StateManager) :
    s.reapExpiredClients.reapExpiredClients = s.reapExpiredClients := by
  have hexpiring : s.reapExpiredClients.inner.expiring s.clock = [] := by
    rw [List.eq_nil_iff_forall_not_mem]
    intro k hk
    obtain ⟨client, hget, hexpired⟩ := (StateInner.mem_expiring _ _).mp hk
    cases hlease : client.leaseState with
    | active deadline =>
      have hlt := StateInner.deadline_of_reap hget hlease
      simp only [StateInner.leaseExpired, hlease, decide_eq_true_eq] at hexpired
      exact absurd hexpired (Nat.not_le.mpr hlt)
    | revoked since flags => simp [StateInner.leaseExpired, hlease] at hexpired
  have hdropping : s.reapExpiredClients.inner.dropping s.clock = [] := by
    rw [List.eq_nil_iff_forall_not_mem]
    intro k hk
    rw [StateInner.dropping, hexpiring, Table.mem_keysWhere] at hk
    obtain ⟨client, hget, hdue⟩ := hk
    cases hlease : client.leaseState with
    | active deadline => simp [StateInner.dropDue, hlease] at hdue
    | revoked since flags =>
      obtain ⟨⟨i, session, hi, hid⟩, hlt⟩ := StateInner.revoked_of_reap hget hlease
      have hany : (s.reapExpiredClients.inner.sessions.any fun _ session =>
          session.clientid = k) = true := Table.any_eq_true.mpr ⟨i, session, hi, decide_eq_true hid⟩
      simp only [StateInner.dropDue, hlease, hany, Bool.not_true, Bool.false_eq_true, or_false,
        decide_eq_true_eq] at hdue
      exact absurd hlt (Nat.not_lt.mpr hdue)
  have hsame : s.reapExpiredClients.inner.reapExpiredClientsLocked s.clock =
      s.reapExpiredClients.inner := by
    rw [StateInner.reapExpiredClientsLocked_eq, hexpiring, hdropping]
    rfl
  show { s.reapExpiredClients with
    inner := s.reapExpiredClients.inner.reapExpiredClientsLocked s.clock } = s.reapExpiredClients
  rw [hsame]

end StateManager

/-! ## The request -/

section

variable {H : Type}

theorem alone_resolveStateidOp (clientid : Option Clientid4) (stateid : Stateid4)
    (current : Option Stateid4) (mode : CurrentStateidMode) (s : Server H) :
    Request.alone (resolveStateidOp clientid stateid current mode) s =
      some (s.state.reapExpiredClients.resolveStateid clientid stateid current mode,
        { s with state := s.state.reapExpiredClients }) := by
  unfold resolveStateidOp StateManager.resolveStateid
  rw [Request.alone_guarded]
  cases normalizeStateid stateid current mode with
  | error status => rfl
  | ok normalized => cases normalized <;> rfl

theorem alone_reapThen {α : Type} (c : Section) (f : c.Ret → Request H α) {s : Server H}
    (hreaped : s.state.reapExpiredClients = s.state) :
    Request.alone (reapThen c >>= f) s =
      Request.alone (f (s.state.runSection c).1) { s with state := (s.state.runSection c).2 } := by
  show Request.alone (f (s.state.reapExpiredClients.runSection c).1)
    { s with state := (s.state.reapExpiredClients.runSection c).2 } = _
  rw [hreaped]

theorem alone_check {α : Type} {s : Server H} (hreaped : s.state.reapExpiredClients = s.state)
    (c : Section) {f : c.Ret → Request H α} {r : c.Ret}
    (hcheck : s.state.runSection c = (r, s.state)) :
    Request.alone (reapThen c >>= f) s = Request.alone (f r) s := by
  rw [alone_reapThen c f hreaped, hcheck]

variable {object : ServerObject} {stateid : Stateid4} {current : Option Stateid4}
  {clientid : Option Clientid4} {isWrite : Bool} {offset length : U64}
  {resolved : ResolvedStateid} {s : Server H}

theorem alone_resolveIoStateid
    (hresolved : s.state.reapExpiredClients.resolveStateid clientid stateid current .zeroSeqid =
      .ok resolved) (hobject : resolved.isOf object = true) :
    Request.alone (resolveIoStateid object stateid current clientid) s =
      some (.ok resolved, { s with state := s.state.reapExpiredClients }) := by
  unfold resolveIoStateid Request.andThen
  rw [Request.alone_bind_of_eq (alone_resolveStateidOp ..), hresolved]
  cases resolved with
  | anonymous => rfl
  | bypass => rfl
  | opened opened =>
    simp only [ResolvedStateid.isOf, decide_eq_true_eq] at hobject
    simp [hobject]
  | locked lock =>
    simp only [ResolvedStateid.isOf, decide_eq_true_eq] at hobject
    simp [hobject]

theorem alone_validateIoStateid_error {status : NfsStat4}
    (hresolved : s.state.reapExpiredClients.resolveStateid clientid stateid current .zeroSeqid =
      .ok resolved) (hobject : resolved.isOf object = true)
    (hexempt : ioExemptions isWrite resolved = .error status) :
    Request.alone (validateIoStateid object stateid current clientid isWrite offset length) s =
      some (.error status, { s with state := s.state.reapExpiredClients }) := by
  unfold validateIoStateid Request.andThen
  rw [Request.alone_bind_of_eq (alone_resolveIoStateid hresolved hobject)]
  simp only [hexempt]
  rfl

theorem alone_validateIoStateid_ok {ignoreOpen ignoreLock : Option StateidOther}
    {owner : Option StateOwner4}
    (hresolved : s.state.reapExpiredClients.resolveStateid clientid stateid current .zeroSeqid =
      .ok resolved) (hobject : resolved.isOf object = true)
    (hexempt : ioExemptions isWrite resolved = .ok (ignoreOpen, owner, ignoreLock)) :
    Request.alone (validateIoStateid object stateid current clientid isWrite offset length) s =
      some (if s.state.reapExpiredClients.hasConflictingShareDeny object (ioAccess isWrite)
            ignoreOpen ∨
          s.state.reapExpiredClients.hasConflictingIoLock object owner isWrite offset length
            ignoreLock then
        .error .locked else .ok (), { s with state := s.state.reapExpiredClients }) := by
  have hidem := s.state.reapExpiredClients_idem
  unfold validateIoStateid Request.andThen
  rw [Request.alone_bind_of_eq (alone_resolveIoStateid hresolved hobject)]
  simp only [hexempt]
  generalize s.state.reapExpiredClients = reaped at hidem ⊢
  refine (alone_check hidem (.hasConflictingShareDeny object (ioAccess isWrite) ignoreOpen)
    rfl).trans ?_
  by_cases hshare : reaped.hasConflictingShareDeny object (ioAccess isWrite) ignoreOpen = true
  · rw [if_pos hshare, if_pos (Or.inl hshare)]
    rfl
  rw [if_neg hshare]
  refine (alone_check hidem
    (.hasConflictingIoLock object owner isWrite offset length ignoreLock) rfl).trans ?_
  by_cases hlock : reaped.hasConflictingIoLock object owner isWrite offset length ignoreLock = true
  · rw [if_pos hlock, if_pos (Or.inr hlock)]
    rfl
  · rw [if_neg hlock, if_neg (not_or.mpr ⟨hshare, hlock⟩)]
    rfl

end

section

variable {H α : Type} [DecidableEq H] {backend : Backend H} {boot : Boot}
  {threads : List (Request H α)} {tr : Trace H} {c : Machine H α}

/-- **I/O admission is exact.** Take any reachable state and a stateid that resolves for the caller
to a special stateid or to an open or lock of the object. With nothing else going on and the clock
standing still, `validate_io_stateid` returns, and it succeeds exactly if the I/O is in order. The
clients whose leases have run out are reaped first, and what is said is about the state that
this leaves. -/
theorem io_admission_exact
    (hrun : (Server.system backend).Run ⟨Server.new H boot, threads⟩ tr c) (object : ServerObject)
    (stateid : Stateid4) (current : Option Stateid4) (clientid : Option Clientid4) (isWrite : Bool)
    (offset length : U64) (hlength : length.toNat < 2 ^ 64 - 1) (resolved : ResolvedStateid)
    (hresolved : c.state.state.reapExpiredClients.resolveStateid clientid stateid current
      .zeroSeqid = .ok resolved) (hobject : resolved.isOf object = true) :
    ∃ r s', Request.alone
        (validateIoStateid object stateid current clientid isWrite offset length) c.state =
          some (r, s') ∧
      (r = .ok () ↔ IoAdmitted c.state.state.reapExpiredClients.inner object resolved isWrite
        offset length) := by
  have hlength' : length ≠ u64Max := by
    rintro rfl
    exact absurd hlength (by decide)
  have hvalid : ∀ k lock, c.state.state.reapExpiredClients.inner.lockFiles.get k = some lock →
      ∀ range ∈ lock.ranges, range.Valid := fun k lock hk =>
    (hrun.follows k lock (c.state.state.reapExpiredClients_shrunk.lockFiles k lock hk)).valid
  rcases ioExemptions_eq isWrite resolved with
    ⟨hexempt, hwrite, access, haccess, hzero⟩ | ⟨owner, ignored, hexempt, hbacked, hexempts⟩
  · refine ⟨_, _, alone_validateIoStateid_error hresolved hobject hexempt, ?_⟩
    simp only [reduceCtorEq, false_iff]
    exact fun hadmitted => hadmitted.backed hwrite access haccess hzero
  · refine ⟨_, _, alone_validateIoStateid_ok hresolved hobject hexempt, ?_⟩
    have hshares := c.state.state.reapExpiredClients.hasConflictingShareDeny_eq_false object
      (ioAccess isWrite) resolved.openOther
    have hlocks := StateManager.hasConflictingIoLock_eq_false hvalid object owner isWrite offset
      hlength' ignored
    constructor
    · intro hok
      split at hok
      · cases hok
      rename_i hnone
      rw [not_or, Bool.not_eq_true, Bool.not_eq_true] at hnone
      refine ⟨hbacked, hshares.mp hnone.1, fun b h₁ h₂ k lock hk hactive hobject' hexempt' => ?_⟩
      exact hlocks.mp hnone.2 b h₁ h₂ k lock hk hactive hobject' ((hexempts k lock).mp hexempt')
    · intro hadmitted
      rw [if_neg]
      rw [not_or, Bool.not_eq_true, Bool.not_eq_true]
      refine ⟨hshares.mpr hadmitted.shares, hlocks.mpr ?_⟩
      intro b h₁ h₂ k lock hk hactive hobject' hexempt'
      exact hadmitted.locks b h₁ h₂ k lock hk hactive hobject' ((hexempts k lock).mpr hexempt')

end

open Scripted in
/-- A WRITE of four bytes through the open under which another owner of the client has locked ten:
it is refused. -/
theorem io_admission_exact_locked :
    let s := (lockSections 0 10).foldl Server.afterSection (Server.new Unit .fixed)
    let opened : ResolvedStateid := .opened ⟨.mint 1 1, .fs 1, 3⟩
    ¬IoAdmitted s.state.reapExpiredClients.inner (.fs 1) opened true 8 4 := by
  intro s opened hadmitted
  have hrun : (Server.system Backend.single).Run
      ⟨Server.new Unit .fixed, (lockSections 0 10).map (Server.sectionThread ())⟩ _ _ :=
    Server.sections_run () (lockSections 0 10) _ []
  have hresolved : s.state.reapExpiredClients.resolveStateid (some 1) ⟨1, .mint 1 1⟩ none
      .zeroSeqid = .ok opened := by decide +kernel
  obtain ⟨r, s', halone, hiff⟩ := io_admission_exact hrun (.fs 1) ⟨1, .mint 1 1⟩ none (some 1) true
    8 4 (by decide) opened hresolved (by decide)
  have hrefused : (Request.alone (validateIoStateid (H := Unit) (.fs 1) ⟨1, .mint 1 1⟩ none (some 1)
      true 8 4) s).map Prod.fst = some (.error .locked) := by decide +kernel
  have halone' : Request.alone (validateIoStateid (.fs 1) ⟨1, .mint 1 1⟩ none (some 1) true 8 4) s =
      some (r, s') := halone
  rw [halone'] at hrefused
  cases (Option.some.inj hrefused).symm.trans (hiff.mpr hadmitted)

end EmbedNfs
