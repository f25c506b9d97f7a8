import EmbedNfs.Effects.Holdings
import EmbedNfs.Effects.StateidCounter
import EmbedNfs.Server.Scripted

/-!
# What the reaping pass does

The pass over the clients revokes those whose lease has run out and drops those that have been
revoked for long enough or have no session. It takes everything from the one kind and leaves
everything to the rest. For the indexes of delegations this needs that they list nothing but
delegations: a stateid that is reused before the counter has come round would leave an entry
behind that removal does not find.
-/

namespace EmbedNfs

/-! ## Indexes without leftovers -/

/-- What the indexes list is a delegation, on the directory and of the client. -/
structure StateInner.Traced (inner : StateInner) : Prop where
  dir : ∀ object k, k ∈ indexed inner.dirDelegations object →
    ∃ state, inner.delegations.get k = some state ∧ state.object = object
  client : ∀ clientid k, k ∈ indexed inner.clientDelegations clientid →
    ∃ state, inner.delegations.get k = some state ∧ state.clientid = clientid

namespace StateInner.Traced

variable {inner inner' : StateInner}

theorem of_same {a b : StateInner} (h : b.Traced) (hd : a.delegations = b.delegations)
    (hdir : a.dirDelegations = b.dirDelegations)
    (hclient : a.clientDelegations = b.clientDelegations) : a.Traced where
  dir object k hk := by
    rw [hdir] at hk
    rw [hd]
    exact h.dir object k hk
  client clientid k hk := by
    rw [hclient] at hk
    rw [hd]
    exact h.client clientid k hk

theorem of_age {a b : StateInner} (h : b.Traced)
    (hage : DelegationsAge a.delegations b.delegations)
    (hkeep : ∀ k, (b.delegations.get k).isSome = true → (a.delegations.get k).isSome = true)
    (hdir : a.dirDelegations = b.dirDelegations)
    (hclient : a.clientDelegations = b.clientDelegations) : a.Traced := by
  have hnew : ∀ k old, b.delegations.get k = some old →
      ∃ state, a.delegations.get k = some state ∧ state.object = old.object ∧
        state.clientid = old.clientid := by
    intro k old hold
    obtain ⟨state, hstate⟩ := Option.isSome_iff_exists.mp (hkeep k (by rw [hold]; rfl))
    obtain ⟨old', hold', hages⟩ := hage k state hstate
    cases hold.symm.trans hold'
    exact ⟨state, hstate, hages.object, hages.clientid⟩
  constructor
  · intro object k hk
    rw [hdir] at hk
    obtain ⟨old, hold, hobject⟩ := h.dir object k hk
    obtain ⟨state, hstate, hsame, -⟩ := hnew k old hold
    exact ⟨state, hstate, hsame.trans hobject⟩
  · intro clientid k hk
    rw [hclient] at hk
    obtain ⟨old, hold, hid⟩ := h.client clientid k hk
    obtain ⟨state, hstate, -, hsame⟩ := hnew k old hold
    exact ⟨state, hstate, hsame.trans hid⟩

theorem removeDelegationLocked (h : inner.Traced) (other : StateidOther) :
    (inner.removeDelegationLocked other).Traced := by
  have hmem := inner.mem_indexed_removeDelegationLocked other
  constructor
  · intro object k hk
    obtain ⟨hold, hnot⟩ := ((hmem k).1 object).mp hk
    obtain ⟨state, hstate, hobject⟩ := h.dir object k hold
    have hne : k ≠ other := fun heq => hnot ⟨state, heq ▸ hstate, hobject.symm, heq⟩
    exact ⟨state, by rw [inner.get_removeDelegationLocked, if_neg hne, hstate], hobject⟩
  · intro clientid k hk
    obtain ⟨hold, hnot⟩ := ((hmem k).2 clientid).mp hk
    obtain ⟨state, hstate, hid⟩ := h.client clientid k hold
    have hne : k ≠ other := fun heq => hnot ⟨state, heq ▸ hstate, hid.symm, heq⟩
    exact ⟨state, by rw [inner.get_removeDelegationLocked, if_neg hne, hstate], hid⟩

theorem dropBelonging {s : StateManager} (h : s.inner.Traced) (ids : List ObjectId) :
    (s.dropBelonging ids).2.inner.Traced := by
  constructor
  · intro object k hk
    obtain ⟨hkept, hold⟩ := mem_indexed_retain.mp hk
    obtain ⟨state, hstate, rfl⟩ := h.dir object k hold
    refine ⟨state, StateManager.get_dropBelonging_delegations.mpr ⟨hstate, fun hmem => ?_⟩, rfl⟩
    obtain ⟨state', hstate', hbelongs⟩ := Table.mem_keysWhere.mp hmem
    cases hstate.symm.trans hstate'
    rw [hbelongs] at hkept
    cases hkept
  · intro clientid k hk
    obtain ⟨hold, hkept⟩ := mem_indexed_mapValues.mp hk
    obtain ⟨state, hstate, hid⟩ := h.client clientid k hold
    exact ⟨state, StateManager.get_dropBelonging_delegations.mpr
      ⟨hstate, of_decide_eq_true hkept⟩, hid⟩

theorem closed : DelegationClosed StateInner.Traced where
  same _ _ := of_same
  remove _ other h := h.removeDelegationLocked other
  age _ _ := of_age
  drop _ ids h := h.dropBelonging ids

theorem grant {s s' : StateManager} {object : ServerObject} {clientid : Clientid4}
    {sessionid : Option Sessionid4} {perClient total : Nat} {grant : DirectoryDelegationGrant}
    (h : s.inner.Traced) (hnew : s.inner.delegations.get (.mint s.nextStateid clientid) = none)
    (hok : s.grantDirectoryDelegation object clientid sessionid perClient total =
      .ok (grant, s')) : s'.inner.Traced := by
  rcases StateManager.grantDirectoryDelegation_ok hok with rfl | ⟨-, -, -, rfl⟩
  · exact h
  · have hold : ∀ k state, s.inner.delegations.get k = some state →
        k ≠ .mint s.nextStateid clientid := by
      rintro k state hk rfl
      rw [hnew] at hk
      cases hk
    constructor
    · intro object' k hk
      rw [mem_indexed_addToIndex] at hk
      rcases hk with ⟨rfl, rfl⟩ | hk
      · exact ⟨_, Table.get_insert_self _ _ _, rfl⟩
      · obtain ⟨state, hstate, hobject⟩ := h.dir object' k hk
        exact ⟨state, by rw [Table.get_insert, if_neg (hold k state hstate), hstate], hobject⟩
    · intro id k hk
      rw [mem_indexed_addToIndex] at hk
      rcases hk with ⟨rfl, rfl⟩ | hk
      · exact ⟨_, Table.get_insert_self _ _ _, rfl⟩
      · obtain ⟨state, hstate, hid⟩ := h.client id k hk
        exact ⟨state, by rw [Table.get_insert, if_neg (hold k state hstate), hstate], hid⟩

theorem mem_dir (h : inner.Traced) (hindexed : inner.Indexed) {object : ServerObject}
    {k : StateidOther} : k ∈ indexed inner.dirDelegations object ↔
      ∃ state, inner.delegations.get k = some state ∧ state.object = object := by
  refine ⟨h.dir object k, ?_⟩
  rintro ⟨state, hstate, rfl⟩
  exact hindexed.byObject k state hstate

theorem mem_client (h : inner.Traced) (hindexed : inner.Indexed) {clientid : Clientid4}
    {k : StateidOther} : k ∈ indexed inner.clientDelegations clientid ↔
      ∃ state, inner.delegations.get k = some state ∧ state.clientid = clientid := by
  refine ⟨h.client clientid k, ?_⟩
  rintro ⟨state, hstate, rfl⟩
  exact hindexed.byClient k state hstate

end StateInner.Traced

/-! ## Runs -/

section

variable {H : Type} {tr : Trace H}

/-- The stateids of delegations have been issued, and the indexes list delegations only. -/
structure DelegationHistory (tr : Trace H) (s : StateManager) : Prop where
  issued : ∀ k state, s.inner.delegations.get k = some state →
    ∃ i < stateidsIssued tr, k.number = BitVec.ofNat 32 (1 + i)
  traced : stateidsIssued tr < 2 ^ 32 → s.inner.Traced

theorem DelegationHistory.of_age {s s' : StateManager}
    {e : ServerEvent H} (h : DelegationHistory tr s)
    (hage : DelegationsAge s'.inner.delegations s.inner.delegations)
    (htraced : s.inner.Traced → s'.inner.Traced) : DelegationHistory (tr ++ [e]) s' where
  issued k state hk := by
    obtain ⟨old, hold, -⟩ := hage k state hk
    obtain ⟨i, hi, hnumber⟩ := h.issued k old hold
    exact ⟨i, lt_of_lt_of_le hi (stateidsIssued_le_concat tr e), hnumber⟩
  traced hlt := htraced (h.traced (lt_of_le_of_lt (stateidsIssued_le_concat tr e) hlt))

theorem DelegationHistory.grant {e : ServerEvent H} {object : ServerObject}
    {clientid : Clientid4} {sessionid : Option Sessionid4} {perClient total : Nat}
    (h : DelegationHistory tr e.before.state)
    (hnext : e.before.state.nextStateid = BitVec.ofNat 32 (1 + stateidsIssued tr))
    (hafter : e.after.state = (e.before.state.runSection
      (.grantDirectoryDelegation object clientid sessionid perClient total)).2) :
    DelegationHistory (tr ++ [e]) e.after.state := by
  have hsame : e.after.state = e.before.state → DelegationHistory (tr ++ [e]) e.after.state := by
    intro heq
    rw [heq]
    exact h.of_age (.of_sub (.refl _)) id
  have hcommit : e.after.state = (e.before.state.commit (e.before.state.grantDirectoryDelegation
      object clientid sessionid perClient total)).2 := hafter
  cases hok : e.before.state.grantDirectoryDelegation object clientid sessionid perClient total with
  | error status =>
    rw [hok] at hcommit
    exact hsame hcommit
  | ok p =>
    obtain ⟨grant, s'⟩ := p
    have hafter' : e.after.state = s' := by
      rw [hcommit, hok]
      rfl
    rcases StateManager.grantDirectoryDelegation_ok hok with heq | ⟨-, -, -, hs'⟩
    · exact hsame (hafter'.trans heq)
    · have htakes : takesStateid e = true := by
        simp [takesStateid, hafter', hs']
      rw [hafter']
      refine ⟨fun k state hk => ?_, fun hlt => ?_⟩
      · rw [stateidsIssued_concat, htakes]
        rw [hs'] at hk
        rcases Table.of_get_insert hk with ⟨rfl, -⟩ | ⟨-, hk⟩
        · refine ⟨stateidsIssued tr, by simp, ?_⟩
          rw [StateidOther.number_mint, hnext]
        · obtain ⟨i, hi, hnumber⟩ := h.issued k state hk
          exact ⟨i, lt_of_lt_of_le hi (Nat.le_add_right _ _), hnumber⟩
      · rw [stateidsIssued_concat, htakes] at hlt
        have hlt' : stateidsIssued tr < 2 ^ 32 := lt_of_le_of_lt (Nat.le_add_right _ _) hlt
        refine (h.traced hlt').grant ?_ hok
        cases hget : e.before.state.inner.delegations.get
            (.mint e.before.state.nextStateid clientid) with
        | none => rfl
        | some state =>
          obtain ⟨i, hi, hnumber⟩ := h.issued _ state hget
          rw [StateidOther.number_mint, hnext] at hnumber
          have := ofNat_add_injective hlt' (lt_trans hi hlt') hnumber
          omega

variable {α : Type} [DecidableEq H] {backend : Backend H} {boot : Boot}
  {threads : List (Request H α)} {c : Machine H α}

theorem System.Run.delegationHistory
    (hrun : (Server.system backend).Run ⟨Server.new H boot, threads⟩ tr c) :
    DelegationHistory tr c.state.state := by
  refine hrun.invariant_history (I := fun tr s => DelegationHistory tr s.state) ?_ ?_ ?_
  · refine ⟨fun k state hk => ?_, fun _ => ⟨fun object k hk => ?_, fun id k hk => ?_⟩⟩
    · cases hk
    · cases hk
    · cases hk
  · intro tr s s' h hdrift
    have hget := hdrift.state.delegations
    refine ⟨fun k state hk => h.issued k state ((hget k).trans hk), fun hlt => ?_⟩
    obtain ⟨hdir, hclient⟩ := h.traced hlt
    refine ⟨fun object k hk => ?_, fun id k hk => ?_⟩
    · rw [← hget]
      exact hdir object k ((hdrift.state.dirDelegations object).mem_iff.mpr hk)
    · rw [← hget]
      exact hclient id k ((hdrift.state.clientDelegations id).mem_iff.mpr hk)
  · intro tr e c' hrun' hexec h
    obtain ⟨ts, k, hbefore, -, -, -⟩ := hrun'.last
    rcases Server.exec_inner hexec with ⟨q, -, hs⟩ | hs
    · by_cases hgrant : ∃ object clientid sessionid perClient total,
          q = .grantDirectoryDelegation object clientid sessionid perClient total
      · obtain ⟨object, clientid, sessionid, perClient, total, rfl⟩ := hgrant
        exact h.grant hbefore.nextStateid_eq hs
      · have hnot : ∀ object clientid sessionid perClient total,
            q ≠ .grantDirectoryDelegation object clientid sessionid perClient total :=
          fun object clientid sessionid perClient total heq =>
            hgrant ⟨object, clientid, sessionid, perClient, total, heq⟩
        rw [hs]
        exact h.of_age (e.before.state.runSection_age q hnot) fun htraced =>
          StateInner.Traced.closed.runSection _ q htraced hnot
    · refine h.of_age (hs ▸ .of_sub (.refl _)) fun htraced => ?_
      rw [hs]
      exact htraced

end

/-! ## The pass -/

/-- The client has no open, no lock and no delegation in any table or index. -/
structure StateInner.HoldsNothing (inner : StateInner) (clientid : Clientid4) : Prop where
  openFiles : ∀ k state, inner.openFiles.get k = some state → state.clientid ≠ clientid
  lockFiles : ∀ k state, inner.lockFiles.get k = some state → state.owner.clientid ≠ clientid
  delegations : ∀ k state, inner.delegations.get k = some state → state.clientid ≠ clientid
  dirIndex : ∀ object k, k ∈ indexed inner.dirDelegations object → k.clientid ≠ clientid
  clientIndex : ∀ k, k ∉ indexed inner.clientDelegations clientid

/-- The indexes list the same delegations of the client. -/
structure StateInner.SameIndexFor (clientid : Clientid4) (a b : StateInner) : Prop where
  dir : ∀ object k, k.clientid = clientid →
    (k ∈ indexed a.dirDelegations object ↔ k ∈ indexed b.dirDelegations object)
  client : ∀ k, k ∈ indexed a.clientDelegations clientid ↔ k ∈ indexed b.clientDelegations clientid

namespace StateInner

variable {inner : StateInner} {now : Instant} {k : Clientid4}

theorem deadline_of_reap {client : ClientState} {deadline : Instant}
    (hget : (inner.reapExpiredClientsLocked now).clients.get k = some client)
    (hlease : client.leaseState = .active deadline) : now < deadline := by
  obtain ⟨-, old, -, rfl⟩ := inner.of_get_reap_clients now hget
  unfold afterExpiry at hlease
  split at hlease
  · cases hlease
  · rename_i hexpired
    simpa [leaseExpired, hlease] using hexpired

theorem Indexed.holdsNothing_reap (h : inner.Indexed) (htraced : inner.Traced)
    (hexpiring : k ∈ inner.expiring now) :
    (inner.reapExpiredClientsLocked now).HoldsNothing k := by
  have htraced' := Traced.closed.reap inner now htraced
  have hout : ∀ x state, (inner.reapExpiredClientsLocked now).delegations.get x = some state →
      state.clientid ≠ k := by
    rintro x state hx rfl
    rw [h.get_reap_delegations] at hx
    exact (of_decide_eq_true (Option.filter_eq_some_iff.mp hx).2).1 hexpiring
  refine ⟨?_, ?_, hout, fun object x hx => ?_, fun x hx => ?_⟩
  · rintro x state hx rfl
    rw [get_reap_openFiles] at hx
    exact (of_decide_eq_true (Option.filter_eq_some_iff.mp hx).2).1 hexpiring
  · rintro x state hx rfl
    rw [get_reap_lockFiles] at hx
    exact (of_decide_eq_true (Option.filter_eq_some_iff.mp hx).2).1 hexpiring
  · obtain ⟨state, hstate, -⟩ := htraced'.dir object x hx
    rw [← (h.reap now).embedded x state hstate]
    exact hout x state hstate
  · obtain ⟨state, hstate, hid⟩ := htraced'.client k x hx
    exact hout x state hstate hid

theorem revoked_of_reap {client : ClientState} {since : Instant} {flags : U32}
    (hget : (inner.reapExpiredClientsLocked now).clients.get k = some client)
    (hlease : client.leaseState = .revoked since flags) :
    (∃ i session, (inner.reapExpiredClientsLocked now).sessions.get i = some session ∧
      session.clientid = k) ∧ now - since < revokedRetention := by
  obtain ⟨hkeep, old, hold, rfl⟩ := inner.of_get_reap_clients now hget
  have hdue : dropDue now inner.sessions k (afterExpiry now old) = false := by
    rw [← Bool.not_eq_true]
    exact fun hdue => hkeep ((inner.mem_dropping now).mpr ⟨old, hold, hdue⟩)
  simp only [dropDue, hlease, Bool.decide_or, Bool.or_eq_false_iff, decide_eq_false_iff_not,
    Nat.not_le, Bool.not_eq_true'] at hdue
  obtain ⟨hrecent, hsession⟩ := hdue
  refine ⟨?_, hrecent⟩
  rw [Bool.not_eq_false] at hsession
  obtain ⟨i, session, hi, hid⟩ := Table.any_eq_true.mp hsession
  have hid := of_decide_eq_true hid
  refine ⟨i, session, ?_, hid⟩
  rw [get_reap_sessions]
  refine (filter_keeps ?_).mpr hi
  simp [hid, hkeep]

theorem dropped_of_reap {client : ClientState} (hget : inner.clients.get k = some client)
    (hgone : (inner.reapExpiredClientsLocked now).clients.get k = none) :
    k ∈ inner.dropping now := by
  by_contra hkeep
  rw [get_reap_clients, if_neg hkeep, hget] at hgone
  cases hgone

theorem Indexed.sameIndexFor_reap (h : inner.Indexed) (htraced : inner.Traced)
    (hsame : SameFor k (inner.reapExpiredClientsLocked now) inner) :
    SameIndexFor k (inner.reapExpiredClientsLocked now) inner := by
  have hindexed' := h.reap now
  have htraced' := Traced.closed.reap inner now htraced
  refine ⟨fun object x hx => ?_, fun x => ?_⟩
  · rw [htraced'.mem_dir hindexed', htraced.mem_dir h]
    refine exists_congr fun state => and_congr_left fun _ => ⟨fun hstate => ?_, fun hstate => ?_⟩
    · exact (hsame.delegations x state ((hindexed'.embedded x state hstate).trans hx)).mp hstate
    · exact (hsame.delegations x state ((h.embedded x state hstate).trans hx)).mpr hstate
  · rw [htraced'.mem_client hindexed', htraced.mem_client h]
    exact exists_congr fun state => and_congr_left fun hid => hsame.delegations x state hid

end StateInner

section

variable {H α : Type} [DecidableEq H] {backend : Backend H} {boot : Boot}
  {threads : List (Request H α)} {tr : Trace H} {c : Machine H α}

/-- **Lease reaping is complete and precise.** Take any state that requests can reach before the
counter of stateids has come round, and any time. After the reaping pass every active lease is
still running; a client whose lease the pass found expired has no open, lock or delegation in any
table or index; a client that is recorded as revoked has a session and was revoked less than the
retention period ago; the revoked clients that are gone, and no others are, have no session; and
a client that was neither expired nor dropped has everything that it had. -/
theorem lease_reaping
    (hrun : (Server.system backend).Run ⟨Server.new H boot, threads⟩ tr c)
    (hissued : stateidsIssued tr < 2 ^ 32) (now : Instant) :
    let inner := c.state.state.inner
    let reaped := inner.reapExpiredClientsLocked now
    (∀ k client deadline, reaped.clients.get k = some client →
      client.leaseState = .active deadline → now < deadline) ∧
    (∀ k client deadline, inner.clients.get k = some client →
      client.leaseState = .active deadline → deadline ≤ now → reaped.HoldsNothing k) ∧
    (∀ k client since flags, reaped.clients.get k = some client →
      client.leaseState = .revoked since flags →
      (∃ i session, reaped.sessions.get i = some session ∧ session.clientid = k) ∧
        now - since < revokedRetention) ∧
    (∀ k client, inner.clients.get k = some client → reaped.clients.get k = none →
      StateInner.dropDue now inner.sessions k (StateInner.afterExpiry now client) = true ∧
        ∀ i session, reaped.sessions.get i = some session → session.clientid ≠ k) ∧
    ∀ k, (∀ client deadline, inner.clients.get k = some client →
        client.leaseState = .active deadline → now < deadline) →
      (∀ client, inner.clients.get k = some client → reaped.clients.get k ≠ none) →
      StateInner.SameFor k reaped inner ∧ StateInner.SameIndexFor k reaped inner := by
  intro inner reaped
  have hindexed : inner.Indexed := hrun.indexed (StateInner.indexed_new boot)
  have htraced : inner.Traced := hrun.delegationHistory.traced hissued
  refine ⟨fun k client deadline => StateInner.deadline_of_reap, fun k client deadline hget hlease hle =>
    ?_, fun k client since flags => StateInner.revoked_of_reap, fun k client hget hgone => ?_,
    fun k hrunning hkept => ?_⟩
  · refine hindexed.holdsNothing_reap htraced ((inner.mem_expiring now).mpr ⟨client, hget, ?_⟩)
    simp [StateInner.leaseExpired, hlease, hle]
  · have hdropping := StateInner.dropped_of_reap hget hgone
    obtain ⟨client', hget', hdue⟩ := (inner.mem_dropping now).mp hdropping
    cases hget.symm.trans hget'
    refine ⟨hdue, ?_⟩
    rintro i session hi rfl
    rw [StateInner.get_reap_sessions] at hi
    exact of_decide_eq_true (Option.filter_eq_some_iff.mp hi).2 hdropping
  · have hexpiring : k ∉ inner.expiring now := by
      rw [StateInner.mem_expiring]
      rintro ⟨client, hget, hexpired⟩
      unfold StateInner.leaseExpired at hexpired
      split at hexpired
      · rename_i deadline hlease
        exact absurd (of_decide_eq_true hexpired) (Nat.not_le.mpr (hrunning client _ hget hlease))
      · cases hexpired
    have hdropping : k ∉ inner.dropping now := by
      intro hmem
      obtain ⟨client, hget, -⟩ := (inner.mem_dropping now).mp hmem
      refine hkept client hget ?_
      rw [StateInner.get_reap_clients, if_pos hmem]
    have hsame := hindexed.sameFor_reap_of_not_mem hexpiring hdropping
    exact ⟨hsame, hindexed.sameIndexFor_reap htraced hsame⟩

end

open Scripted in
/-- A client with an open and a delegation, at the end of its lease. -/
theorem lease_reaping_expired :
    let sections := sessionSetUp ++ [.createOpenState (.fs 1) ⟨1, [1]⟩ 1 0,
      .grantDirectoryDelegation (.fs 1) 1 none 1 2]
    let s := sections.foldl Server.afterSection (Server.new Unit .fixed)
    s.state.inner.openFiles.entries.length = 1 ∧ s.state.inner.delegations.entries.length = 1 ∧
      (s.state.inner.reapExpiredClientsLocked 90000000000).HoldsNothing 1 := by
  intro sections s
  have hrun : (Server.system Backend.single).Run
      ⟨Server.new Unit .fixed, sections.map (Server.sectionThread ())⟩ _ _ :=
    Server.sections_run () sections _ []
  have hissued : stateidsIssued ((Server.new Unit .fixed).sectionEvents 0 sections) < 2 ^ 32 := by
    decide +kernel
  have hlease : (s.state.inner.clients.get 1).map (·.leaseState) = some (.active 90000000000) := by
    decide +kernel
  obtain ⟨client, hget, hlease⟩ := Option.map_eq_some_iff.mp hlease
  exact ⟨by decide +kernel, by decide +kernel,
    (lease_reaping hrun hissued 90000000000).2.1 1 client _ hget hlease le_rfl⟩

end EmbedNfs
