import EmbedNfs.Effects.Clients
import EmbedNfs.Effects.Sessions
import EmbedNfs.Server.Scripted

/-!
# An NFSv4.0 client that comes back

SETCLIENTID_CONFIRM confirms a record and looks at no other. A confirmed record of the same
owner with another verifier goes only when its lease has run out, and its opens with it; until
then they deny access to the client that has come back.
-/

namespace EmbedNfs

section

variable {H : Type}

/-- The client that a SETCLIENTID_CONFIRM confirms. -/
def Call.confirms : (c : Call H) → c.Ret → Option Clientid4
  | .guarded (.setClientIdConfirm args), .ok () => some args.clientid
  | _, _ => none

theorem System.Run.sessions_empty {α : Type} [DecidableEq H] {backend : Backend H} {boot : Boot}
    {threads : List (Request H α)} {tr : Trace H}
    {c : Machine H α}
    (hrun : (Server.system backend).Run ⟨Server.new H boot, threads⟩ tr c)
    (hissues : ∀ e ∈ tr, e.call.issues e.answer = none) (k : Sessionid4) :
    c.state.state.inner.sessions.get k = none := by
  have hempty : ∀ k session, c.state.state.inner.sessions.get k ≠ some session := by
    refine hrun.invariant (I := fun s : Server H => ∀ k session,
      s.state.inner.sessions.get k ≠ some session) ?_ ?_ ?_
    · intro k session hk
      cases hk
    · intro s s' h hd k session hk
      obtain ⟨old, hold, -⟩ := hd.state.fades.inner.sessions k session hk
      exact h k old hold
    · intro e he hexec h k session hk
      cases Server.exec_sessionStep hexec with
      | fades hs =>
        obtain ⟨old, hold, -⟩ := hs.inner.sessions k session hk
        exact h k old hold
      | enrols hs =>
        obtain ⟨old, hold, -⟩ := hs.sessions k session hk
        exact h k old hold
      | issues clientid sessionid hs hsome =>
        rw [hissues e he] at hsome
        cases hsome
      | executes args fingerprint _ _ _ hs =>
        obtain ⟨old, hold, -⟩ := hs.sessions k session hk
        exact h k old hold
      | stores token response hs =>
        obtain ⟨old, hold, -⟩ := hs.sessions k session hk
        exact h k old hold
  exact Option.eq_none_iff_forall_ne_some.mpr (hempty k)

end

namespace StateManager

variable {s : StateManager}

theorem mem_dropping_of_expired (hsessions : ∀ i, s.inner.sessions.get i = none) {k : Clientid4}
    {client : ClientState} (hk : s.inner.clients.get k = some client)
    (hlease : StateInner.leaseExpired s.clock client = true) :
    k ∈ s.inner.dropping s.clock := by
  have hnone : (s.inner.sessions.any fun _ session => session.clientid = k) = false := by
    rw [Table.any_eq_false]
    intro i session hi
    rw [hsessions i] at hi
    cases hi
  rw [StateInner.mem_dropping]
  refine ⟨client, hk, ?_⟩
  rw [StateInner.afterExpiry, if_pos hlease]
  simp [StateInner.dropDue, StateInner.expired, hnone]

/-- When SETCLIENTID_CONFIRM has succeeded, a client whose lease had run out is gone, with its
opens; every other record has the owner it had, and all but the one confirmed were confirmed. -/
theorem setClientIdConfirm_clients {args : SetClientIdConfirmArgs4}
    (hok : (s.runSection (.setClientIdConfirm args)).1 = .ok ()) :
    (∀ k client, (s.runSection (.setClientIdConfirm args)).2.inner.clients.get k = some client →
      k ∉ s.inner.dropping s.clock ∧ ∃ old, s.inner.clients.get k = some old ∧
        client.owner = old.owner ∧ (k ≠ args.clientid → client.confirmed = old.confirmed)) ∧
    ∀ x state, (s.runSection (.setClientIdConfirm args)).2.inner.openFiles.get x = some state →
      state.clientid ∉ s.inner.dropping s.clock := by
  refine commitUnit_of_ok (fun s' => (∀ k client, s'.inner.clients.get k = some client →
      k ∉ s.inner.dropping s.clock ∧ ∃ old, s.inner.clients.get k = some old ∧
        client.owner = old.owner ∧ (k ≠ args.clientid → client.confirmed = old.confirmed)) ∧
    ∀ x state, s'.inner.openFiles.get x = some state →
      state.clientid ∉ s.inner.dropping s.clock) hok fun s' hs' => ?_
  rw [setClientIdConfirmReaped_ok hs']
  have hexpiry : ∀ old, (StateInner.afterExpiry s.clock old).owner = old.owner ∧
      (StateInner.afterExpiry s.clock old).confirmed = old.confirmed := by
    intro old
    unfold StateInner.afterExpiry
    split <;> exact ⟨rfl, rfl⟩
  constructor
  · intro k client hk
    rcases Table.of_get_modify hk with ⟨rfl, mid, hmid, rfl⟩ | ⟨hkey, hk⟩
    · obtain ⟨hkeep, old, hold, rfl⟩ := StateInner.of_get_reap_clients _ _ hmid
      exact ⟨hkeep, old, hold, (hexpiry old).1, fun hne => absurd rfl hne⟩
    · obtain ⟨hkeep, old, hold, rfl⟩ := StateInner.of_get_reap_clients _ _ hk
      exact ⟨hkeep, old, hold, (hexpiry old).1, fun _ => (hexpiry old).2⟩
  · intro x state hx
    have hx' : (s.inner.reapExpiredClientsLocked s.clock).openFiles.get x = some state := hx
    rw [StateInner.get_reap_openFiles, Option.filter_eq_some_iff] at hx'
    exact (of_decide_eq_true hx'.2).2

end StateManager

/-- **Restart of an NFSv4.0 client.** Let any requests without sessions run against a server,
with their steps interleaved in any order. If at every SETCLIENTID_CONFIRM the leases of the
confirmed records of the same owner with another verifier have run out, then after it no such
record is left, and no open of such a record. -/
theorem v40_restart {H α : Type} [DecidableEq H] {backend : Backend H} {boot : Boot}
    {threads : List (Request H α)} {tr : Trace H}
    {c : Machine H α}
    (hrun : (Server.system backend).Run ⟨Server.new H boot, threads⟩ tr c)
    (hissues : ∀ e ∈ tr, e.call.issues e.answer = none)
    (hexpired : ∀ e ∈ tr, ∀ clientid client, e.call.confirms e.answer = some clientid →
      e.before.state.inner.clients.get clientid = some client → ∀ k other,
      e.before.state.inner.clients.get k = some other → other.confirmed = true →
      other.owner.ownerid = client.owner.ownerid → other.owner.verifier ≠ client.owner.verifier →
      StateInner.leaseExpired e.before.state.clock other = true) :
    ∀ e ∈ tr, ∀ clientid client, e.call.confirms e.answer = some clientid →
      e.before.state.inner.clients.get clientid = some client →
      (∀ k other, e.after.state.inner.clients.get k = some other → other.confirmed = true →
        other.owner.ownerid = client.owner.ownerid →
        other.owner.verifier = client.owner.verifier) ∧
      ∀ k other, e.before.state.inner.clients.get k = some other → other.confirmed = true →
        other.owner.ownerid = client.owner.ownerid →
        other.owner.verifier ≠ client.owner.verifier →
        ∀ x state, e.after.state.inner.openFiles.get x = some state → state.clientid ≠ k := by
  intro e he clientid client hconfirms hclient
  have hlease := hexpired e he clientid client hconfirms hclient
  obtain ⟨tr₁, tr₂, rfl⟩ := List.append_of_mem he
  obtain ⟨ts, k, hbefore, -, hexec, -⟩ := hrun.at_event
  have hempty := hbefore.sessions_empty fun e' he' => hissues e' (List.mem_append_left _ he')
  obtain ⟨t, before, call, answer, after⟩ := e
  cases call with
  | guarded q =>
    cases q with
    | setClientIdConfirm args =>
      cases answer with
      | error status => cases hconfirms
      | ok u =>
        cases hconfirms
        obtain ⟨hok, hafter⟩ := hexec
        obtain ⟨hclients, hopens⟩ := StateManager.setClientIdConfirm_clients hok.symm
        dsimp only at hafter hlease hclient ⊢
        rw [hafter]
        constructor
        · intro k other hk hconfirmed howner
          obtain ⟨hkeep, old, hold, hsame, hsame'⟩ := hclients k other hk
          by_cases hkey : k = args.clientid
          · rw [hkey, hclient] at hold
            cases hold
            rw [hsame]
          · by_contra hverifier
            rw [hsame] at howner hverifier
            rw [hsame' hkey] at hconfirmed
            exact hkeep (StateManager.mem_dropping_of_expired hempty hold
              (hlease k old hold hconfirmed howner hverifier))
        · intro k other hk hconfirmed howner hverifier x state hx heq
          refine hopens x state hx ?_
          rw [heq]
          exact StateManager.mem_dropping_of_expired hempty hk
            (hlease k other hk hconfirmed howner hverifier)
    | _ => cases hconfirms
  | _ => cases hconfirms

/-! ## One owner, two verifiers -/

namespace Scripted

/-- An NFSv4.0 client introduces itself and opens the object, denying everything; then the same
owner introduces itself with another verifier. -/
def v40Compounds : List Compound4Args :=
  [⟨0, [.setClientId ⟨⟨1, [1]⟩⟩]⟩, ⟨0, [.setClientIdConfirm ⟨1, 1⟩]⟩,
    ⟨0, [.putrootfh, .open ⟨1, 3, ⟨1, [1]⟩, .noCreate, .fh⟩]⟩,
    ⟨0, [.setClientId ⟨⟨2, [1]⟩⟩]⟩, ⟨0, [.setClientIdConfirm ⟨2, 2⟩]⟩]

/-- The run of these requests, with a pause before the last. -/
def v40Run (pause : Nat) :
    Trace Unit ×
      Machine Unit (Option Bytes) :=
  Server.playPhases (Server.scripted Backend.single .someFile)
    ⟨Server.new Unit .fixed, requests config v40Compounds⟩
    [(0, [0, 1] ++ List.replicate 20 2), (pause, [3]), (pause, [4])]

theorem v40Run_run (pause : Nat) :
    (Server.system Backend.single).Run
      ⟨Server.new Unit .fixed, requests config v40Compounds⟩ (v40Run pause).1 (v40Run pause).2 :=
  Server.playPhases_run _ _ _

/-- Whether the leases that the theorem asks about have run out at the event. -/
def othersExpired (e : ServerEvent Unit) : Bool :=
  (e.call.confirms e.answer).all fun clientid =>
    (e.before.state.inner.clients.get clientid).all fun client =>
      e.before.state.inner.clients.entries.all fun p =>
        (p.2.confirmed = true ∧ p.2.owner.ownerid = client.owner.ownerid ∧
          p.2.owner.verifier ≠ client.owner.verifier) →
            StateInner.leaseExpired e.before.state.clock p.2 = true

theorem of_othersExpired {e : ServerEvent Unit}
    (h : othersExpired e = true) {clientid : Clientid4} {client : ClientState}
    (hconfirms : e.call.confirms e.answer = some clientid)
    (hclient : e.before.state.inner.clients.get clientid = some client) {k : Clientid4}
    {other : ClientState} (hk : e.before.state.inner.clients.get k = some other)
    (hconfirmed : other.confirmed = true) (howner : other.owner.ownerid = client.owner.ownerid)
    (hverifier : other.owner.verifier ≠ client.owner.verifier) :
    StateInner.leaseExpired e.before.state.clock other = true := by
  rw [othersExpired, hconfirms, Option.all_some, hclient, Option.all_some, List.all_eq_true] at h
  have hp := h (k, other) (Table.mem_entries.mpr hk)
  exact of_decide_eq_true hp ⟨hconfirmed, howner, hverifier⟩

end Scripted

open Scripted

/-- Without a pause both records are confirmed, and the open of the first still denies
everything. -/
theorem v40_restart_at_once :
    ∃ tr c, (Server.system Backend.single).Run
        ⟨Server.new Unit .fixed, requests config v40Compounds⟩ tr c ∧
      (∃ e ∈ tr, e.call.confirms e.answer = some 2) ∧
      ∃ other client x state, c.state.state.inner.clients.get 1 = some other ∧
        c.state.state.inner.clients.get 2 = some client ∧ other.confirmed = true ∧
        client.confirmed = true ∧ other.owner.ownerid = client.owner.ownerid ∧
        other.owner.verifier ≠ client.owner.verifier ∧
        c.state.state.inner.openFiles.get x = some state ∧ state.clientid = 1 ∧
        state.active = true ∧ state.shareDeny = 3 :=
  ⟨_, _, v40Run_run 0, by decide +kernel,
    ⟨1, ⟨1, [1]⟩, true, false, 1, 0, none, .active leaseDuration, none⟩,
    ⟨2, ⟨2, [1]⟩, true, false, 1, 0, none, .active leaseDuration, none⟩, .mint 1 1,
    ⟨.fs 1, 1, [1], 1, true, 1, 3⟩, by decide +kernel⟩

/-- With a pause the lease of the first record has run out when the second is confirmed. -/
theorem v40_restart_later :
    ∃ tr c, (Server.system Backend.single).Run
        ⟨Server.new Unit .fixed, requests config v40Compounds⟩ tr c ∧
      ∃ e ∈ tr, e.call.confirms e.answer = some 2 ∧
        (∃ other, e.before.state.inner.clients.get 1 = some other ∧ other.confirmed = true) ∧
        ∀ x state, e.after.state.inner.openFiles.get x = some state → state.clientid ≠ 1 := by
  let tr := (v40Run 46000000000).1
  have hrun : (Server.system Backend.single).Run _ tr _ := v40Run_run 46000000000
  have hissues : ∀ e ∈ tr, e.call.issues e.answer = none := by decide +kernel
  have hexpired : ∀ e ∈ tr, othersExpired e = true := by decide +kernel
  have hany : ∃ e ∈ tr, e.call.confirms e.answer = some 2 ∧
      ((e.before.state.inner.clients.get 1).any fun other =>
        other.confirmed = true ∧ other.owner = ⟨1, [1]⟩) = true ∧
      ((e.before.state.inner.clients.get 2).any fun client => client.owner = ⟨2, [1]⟩) = true := by
    decide +kernel
  obtain ⟨e, he, hconfirms, hfirst, hsecond⟩ := hany
  obtain ⟨other, hother, hp⟩ := (Option.any_eq_true _ _).mp hfirst
  obtain ⟨client, hclient, hp'⟩ := (Option.any_eq_true _ _).mp hsecond
  obtain ⟨hconfirmed, howner⟩ := of_decide_eq_true hp
  have howner' := of_decide_eq_true hp'
  refine ⟨tr, _, hrun, e, he, hconfirms, ⟨other, hother, hconfirmed⟩, ?_⟩
  obtain ⟨-, hopens⟩ := v40_restart hrun hissues
    (fun e he clientid client hc hclient k other hk hconfirmed howner hverifier =>
      of_othersExpired (hexpired e he) hc hclient hk hconfirmed howner hverifier)
    e he 2 client hconfirms hclient
  refine hopens 1 other hother hconfirmed ?_ ?_
  · rw [howner, howner']
  · rw [howner, howner']
    decide

end EmbedNfs
