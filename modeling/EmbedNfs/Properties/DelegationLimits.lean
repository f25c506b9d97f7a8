import EmbedNfs.Effects.Delegations
import EmbedNfs.Server.Scripted

/-!
# Delegation limits

A grant counts the client's delegations through the index by client and all delegations in the
table. Live and dead delegations share both, and delegations leave them on many paths. The limits
hold in every reachable state, because a delegation is made live by a grant alone and the index
lists every delegation of the client.
-/

namespace EmbedNfs

namespace StateInner

/-- The live delegations: granted ones, and those being recalled. -/
def liveDelegations (inner : StateInner) : List StateidOther :=
  inner.delegations.keysWhere fun _ state => state.status.isLive

/-- The live delegations of a client. -/
def liveDelegationsOf (inner : StateInner) (clientid : Clientid4) : List StateidOther :=
  inner.delegations.keysWhere fun _ state => state.clientid = clientid ∧ state.status.isLive

/-- The limits are kept, and no client has two live delegations on one directory. -/
structure WithinLimits (maxPerClient maxTotal : Nat) (inner : StateInner) : Prop where
  perClient : ∀ clientid, (inner.liveDelegationsOf clientid).length ≤ maxPerClient
  total : inner.liveDelegations.length ≤ maxTotal
  single : ∀ k l a b, inner.delegations.get k = some a → inner.delegations.get l = some b →
    a.status.isLive = true → b.status.isLive = true → a.clientid = b.clientid →
    a.object = b.object → k = l

/-- Some delegation on the directory is being recalled. -/
def BeingRecalled (inner : StateInner) (object : ServerObject) : Prop :=
  ∃ k a, inner.delegations.get k = some a ∧ a.object = object ∧ a.status = .recallInProgress

variable {maxPerClient maxTotal : Nat} {inner inner' : StateInner}

theorem mem_liveDelegations {k : StateidOther} : k ∈ inner.liveDelegations ↔
    ∃ a, inner.delegations.get k = some a ∧ a.status.isLive = true :=
  Table.mem_keysWhere

theorem mem_liveDelegationsOf {clientid : Clientid4} {k : StateidOther} :
    k ∈ inner.liveDelegationsOf clientid ↔ ∃ a, inner.delegations.get k = some a ∧
      a.clientid = clientid ∧ a.status.isLive = true := by
  simp [liveDelegationsOf, Table.mem_keysWhere]

theorem WithinLimits.of_age (h : inner.WithinLimits maxPerClient maxTotal)
    (hage : DelegationsAge inner'.delegations inner.delegations) :
    inner'.WithinLimits maxPerClient maxTotal where
  perClient clientid := by
    refine le_trans (Table.length_keysWhere_le fun k a ha hlive => ?_) (h.perClient clientid)
    obtain ⟨b, hb, hages⟩ := hage k a ha
    obtain ⟨hclient, hlive⟩ := of_decide_eq_true hlive
    exact mem_liveDelegationsOf.mpr ⟨b, hb, hages.clientid ▸ hclient, hages.live hlive⟩
  total := by
    refine le_trans (Table.length_keysWhere_le fun k a ha hlive => ?_) h.total
    obtain ⟨b, hb, hages⟩ := hage k a ha
    exact mem_liveDelegations.mpr ⟨b, hb, hages.live hlive⟩
  single k l a b ha hb hlive hlive' hclient hobject := by
    obtain ⟨a', ha', hages⟩ := hage k a ha
    obtain ⟨b', hb', hages'⟩ := hage l b hb
    refine h.single k l a' b' ha' hb' (hages.live hlive) (hages'.live hlive') ?_ ?_
    · rw [← hages.clientid, ← hages'.clientid, hclient]
    · rw [← hages.object, ← hages'.object, hobject]

/-! ## What a grant has checked -/

theorem Indexed.length_liveDelegationsOf_le (h : inner.Indexed) (clientid : Clientid4) :
    (inner.liveDelegationsOf clientid).length ≤
      ((indexed inner.clientDelegations clientid).filter inner.isLiveDelegation).length := by
  refine Table.length_keysWhere_le fun k a ha hlive => ?_
  obtain ⟨rfl, halive⟩ := of_decide_eq_true hlive
  refine List.mem_filter.mpr ⟨h.byClient k a ha, ?_⟩
  simp [isLiveDelegation, ha, halive]

theorem Indexed.of_findLive_eq_none (h : inner.Indexed) {object : ServerObject}
    {clientid : Clientid4} (hnone : inner.findLiveDirectoryDelegation object clientid = none)
    {k : StateidOther} {a : DelegationState} (ha : inner.delegations.get k = some a)
    (hobject : a.object = object) (hclient : a.clientid = clientid) :
    a.status.isLive = false := by
  have hmem : k ∈ indexed inner.clientDelegations clientid := hclient ▸ h.byClient k a ha
  have hkind : a.kind = .directoryRead := by cases a.kind; rfl
  simpa [ha, hobject, hkind] using List.find?_eq_none.mp hnone k hmem

theorem Indexed.of_hasRecall_eq_false (h : inner.Indexed) {object : ServerObject}
    (hfalse : inner.hasRecallInProgress object = false) : ¬inner.BeingRecalled object := by
  rintro ⟨k, a, ha, rfl, hstatus⟩
  have htrue : inner.hasRecallInProgress a.object = true :=
    List.any_eq_true.mpr ⟨k, h.byObject k a ha, by simp [ha, hstatus]⟩
  rw [hfalse] at htrue
  cases htrue

theorem WithinLimits.grant (h : inner.WithinLimits maxPerClient maxTotal) {k : StateidOther}
    {new : DelegationState} (hinsert : inner'.delegations = inner.delegations.insert k new)
    (hperClient : (inner.liveDelegationsOf new.clientid).length < maxPerClient)
    (htotal : inner.liveDelegations.length < maxTotal)
    (hnone : ∀ l a, inner.delegations.get l = some a → a.object = new.object →
      a.clientid = new.clientid → a.status.isLive = false) :
    inner'.WithinLimits maxPerClient maxTotal := by
  have hget : ∀ l a, inner'.delegations.get l = some a →
      (l = k ∧ a = new) ∨ (l ≠ k ∧ inner.delegations.get l = some a) := by
    rw [hinsert]
    exact fun _ _ => Table.of_get_insert
  refine ⟨fun clientid => ?_, ?_, fun l m a b ha hb hlive hlive' hclient hobject => ?_⟩
  · by_cases hclient : clientid = new.clientid
    · subst hclient
      have hcons : (k :: inner.liveDelegationsOf new.clientid).length ≤ maxPerClient := hperClient
      refine le_trans (Table.length_keysWhere_le fun l a ha hlive => ?_) hcons
      rcases hget l a ha with ⟨rfl, -⟩ | ⟨-, ha⟩
      · exact List.mem_cons_self
      · exact List.mem_cons_of_mem _ (mem_liveDelegationsOf.mpr ⟨a, ha, of_decide_eq_true hlive⟩)
    · refine le_trans (Table.length_keysWhere_le fun l a ha hlive => ?_) (h.perClient clientid)
      have hlive := of_decide_eq_true hlive
      rcases hget l a ha with ⟨-, rfl⟩ | ⟨-, ha⟩
      · exact absurd hlive.1.symm hclient
      · exact mem_liveDelegationsOf.mpr ⟨a, ha, hlive⟩
  · have hcons : (k :: inner.liveDelegations).length ≤ maxTotal := htotal
    refine le_trans (Table.length_keysWhere_le fun l a ha hlive => ?_) hcons
    rcases hget l a ha with ⟨rfl, -⟩ | ⟨-, ha⟩
    · exact List.mem_cons_self
    · exact List.mem_cons_of_mem _ (mem_liveDelegations.mpr ⟨a, ha, hlive⟩)
  · rcases hget l a ha with ⟨rfl, rfl⟩ | ⟨-, ha⟩ <;> rcases hget m b hb with ⟨rfl, rfl⟩ | ⟨-, hb⟩
    · rfl
    · rw [hnone m b hb hobject.symm hclient.symm] at hlive'
      cases hlive'
    · rw [hnone l a ha hobject hclient] at hlive
      cases hlive
    · exact h.single l m a b ha hb hlive hlive' hclient hobject

end StateInner

/-! ## Sections -/

/-- The section grants with the given limits, if it grants at all. -/
def Section.HasLimits (maxPerClient maxTotal : Nat) : Section → Prop
  | .grantDirectoryDelegation _ _ _ perClient total => perClient = maxPerClient ∧ total = maxTotal
  | _ => True

/-- Granted delegations on the directory were there before. -/
def NoNewGrant (object : ServerObject) (before after : StateInner) : Prop :=
  ∀ k a, after.delegations.get k = some a → a.object = object → a.status = .granted →
    ∃ b, before.delegations.get k = some b ∧ b.object = object ∧ b.status = .granted

namespace StateManager

variable {maxPerClient maxTotal : Nat}

theorem noNewGrant_of_age {before after : StateInner}
    (h : DelegationsAge after.delegations before.delegations) (object : ServerObject) :
    NoNewGrant object before after := by
  intro k a ha hobject hgranted
  obtain ⟨b, hb, hages⟩ := h k a ha
  exact ⟨b, hb, hages.object ▸ hobject, hages.granted hgranted⟩

theorem runSection_withinLimits (s : StateManager) (q : Section) (hindexed : s.inner.Indexed)
    (h : s.inner.WithinLimits maxPerClient maxTotal) (hq : q.HasLimits maxPerClient maxTotal) :
    (s.runSection q).2.inner.WithinLimits maxPerClient maxTotal ∧
      ∀ object, s.inner.BeingRecalled object →
        NoNewGrant object s.inner (s.runSection q).2.inner := by
  by_cases hgrant : ∃ object clientid sessionid perClient total,
      q = .grantDirectoryDelegation object clientid sessionid perClient total
  · obtain ⟨object, clientid, sessionid, perClient, total, rfl⟩ := hgrant
    obtain ⟨rfl, rfl⟩ := hq
    have hsame : ∀ object, NoNewGrant object s.inner s.inner := fun object k a ha hobject hgranted =>
      ⟨a, ha, hobject, hgranted⟩
    refine commit_keeps (fun s' => s'.inner.WithinLimits perClient total ∧ ∀ object,
      s.inner.BeingRecalled object → NoNewGrant object s.inner s'.inner)
      ⟨h, fun object _ => hsame object⟩ fun grant s' hok => ?_
    rcases grantDirectoryDelegation_ok hok with rfl | ⟨-, -, rfl, hs'⟩
    · exact ⟨h, fun object _ => hsame object⟩
    · obtain ⟨hfind, hrecall, hcount, htotal⟩ := grantDirectoryDelegation_room hok
      rw [Table.length_filter_values] at htotal
      subst hs'
      refine ⟨h.grant rfl (lt_of_le_of_lt (hindexed.length_liveDelegationsOf_le clientid) hcount)
        htotal fun l a ha => hindexed.of_findLive_eq_none hfind ha, fun object' hbeing => ?_⟩
      have hother : object' ≠ object := by
        rintro rfl
        exact hindexed.of_hasRecall_eq_false hrecall hbeing
      intro k a ha hobject hgranted
      rcases Table.of_get_insert ha with ⟨-, rfl⟩ | ⟨-, ha⟩
      · exact absurd hobject.symm hother
      · exact ⟨a, ha, hobject, hgranted⟩
  · have hage := s.runSection_age q fun object clientid sessionid perClient total heq =>
      hgrant ⟨object, clientid, sessionid, perClient, total, heq⟩
    exact ⟨h.of_age hage, fun object _ => noNewGrant_of_age hage object⟩

end StateManager

/-! ## Runs -/

section

variable {H α : Type} [DecidableEq H] {backend : Backend H} {boot : Boot}
  {threads : List (Request H α)} {tr : Trace H} {c : Machine H α}
  {maxPerClient maxTotal : Nat}

theorem System.Run.withinLimits
    (hrun : (Server.system backend).Run ⟨Server.new H boot, threads⟩ tr c)
    (hlimits : ∀ e ∈ tr, ∀ q, e.call = .guarded q → q.HasLimits maxPerClient maxTotal) :
    c.state.state.inner.Indexed ∧
      c.state.state.inner.WithinLimits maxPerClient maxTotal := by
  refine hrun.inner_invariant
    (I := fun inner => inner.Indexed ∧ inner.WithinLimits maxPerClient maxTotal) ?_ ?_ ?_
  · refine ⟨StateInner.indexed_new boot, fun clientid => Nat.zero_le _, Nat.zero_le _, ?_⟩
    intro k l a b ha
    cases ha
  · rintro s s' hdrift ⟨hindexed, h⟩
    refine ⟨hdrift.indexed hindexed, h.of_age (.of_sub fun k a ha => ?_)⟩
    exact (hdrift.delegations k).trans ha
  · rintro e he q hq ⟨hindexed, h⟩
    exact ⟨e.before.state.runSection_indexed q hindexed,
      (e.before.state.runSection_withinLimits q hindexed h (hlimits e he q hq)).1⟩

/-- **Delegation limits.** Let any requests run against a server, with their steps interleaved in
any order, and let all grants be made with the same limits. Then no client has more live
delegations than the limit for a client, there are no more than the limit for all, no client has
two on one directory, and no step grants a delegation on a directory on which one is being
recalled. -/
theorem delegation_limits
    (hrun : (Server.system backend).Run ⟨Server.new H boot, threads⟩ tr c)
    (hlimits : ∀ e ∈ tr, ∀ q, e.call = .guarded q → q.HasLimits maxPerClient maxTotal) :
    (∀ clientid,
      (c.state.state.inner.liveDelegationsOf clientid).length ≤ maxPerClient) ∧
    c.state.state.inner.liveDelegations.length ≤ maxTotal ∧
    (∀ k l a b, c.state.state.inner.delegations.get k = some a →
      c.state.state.inner.delegations.get l = some b → a.status.isLive = true →
      b.status.isLive = true → a.clientid = b.clientid → a.object = b.object → k = l) ∧
    ∀ e ∈ tr, ∀ object, e.before.state.inner.BeingRecalled object →
      NoNewGrant object e.before.state.inner e.after.state.inner := by
  obtain ⟨-, hwithin⟩ := hrun.withinLimits hlimits
  refine ⟨hwithin.perClient, hwithin.total, hwithin.single, fun e he object hbeing => ?_⟩
  obtain ⟨tr₁, tr₂, rfl⟩ := List.append_of_mem he
  obtain ⟨ts, next, hbefore, -, hexec, -⟩ := hrun.at_event
  obtain ⟨hindexed, hwithin'⟩ :=
    hbefore.withinLimits fun e' he' => hlimits e' (List.mem_append_left _ he')
  rcases Server.exec_inner hexec with ⟨q, hq, hs⟩ | hs
  · rw [hs]
    exact (e.before.state.runSection_withinLimits q hindexed hwithin' (hlimits e he q hq)).2
      object hbeing
  · rw [hs]
    exact fun k a ha hobject hgranted => ⟨a, ha, hobject, hgranted⟩

end

/-- Two clients on one directory: both are granted a delegation, one is recalled and returned. -/
theorem delegation_limits_recalled :
    let sections : List Section := [.grantDirectoryDelegation (.fs 1) 1 none 1 2,
      .grantDirectoryDelegation (.fs 1) 2 none 1 2, .grantDirectoryDelegation (.fs 2) 2 none 1 2,
      .beginDirectoryRecallExcluding (.fs 1) (some 1), .grantDirectoryDelegation (.fs 1) 3 none 1 2,
      .returnDelegationState ⟨1, .mint 2 2⟩ (some 2)]
    let s := sections.foldl Server.afterSection (Server.new Unit .fixed)
    (s.state.inner.liveDelegationsOf 1).length = 1 ∧
      (s.state.inner.liveDelegationsOf 1).length ≤ 1 := by
  intro sections s
  have hlimits : ∀ e ∈ (Server.new Unit .fixed).sectionEvents 0 sections, ∀ q,
      e.call = .guarded q → q.HasLimits 1 2 := by
    intro e he q hq
    simp only [sections, Server.sectionEvents, List.mem_cons, List.not_mem_nil, or_false] at he
    rcases he with rfl | rfl | rfl | rfl | rfl | rfl <;> cases hq <;> trivial
  have hrun : (Server.system Backend.single).Run
      ⟨Server.new Unit .fixed, sections.map (Server.sectionThread ())⟩ _ _ :=
    Server.sections_run () sections _ []
  exact ⟨by decide +kernel, (delegation_limits hrun hlimits).1 1⟩

end EmbedNfs
