import EmbedNfs.Effects.Holdings
import EmbedNfs.Properties.AtMostOnce
import EmbedNfs.Properties.ClientNumbers

/-!
# A client that comes back

EXCHANGE_ID with a new verifier enrols a second record for the owner, which names the record
it replaces; CREATE_SESSION confirms it and drops the other one. `Incarnations` says how the
records of one owner are related at any time: at most one is confirmed, at most one is not,
and the second names the first.
-/

namespace EmbedNfs

/-- What of a client's record changes only when the client is enrolled or confirmed. -/
def ClientState.incarnation (client : ClientState) :
    Clientid4 × ClientOwner4 × Bool × Option Clientid4 :=
  (client.clientid, client.owner, client.confirmed, client.replacedClientid)

theorem ClientState.incarnation_inj {a b : ClientState} (h : a.incarnation = b.incarnation) :
    a.clientid = b.clientid ∧ a.owner = b.owner ∧ a.confirmed = b.confirmed ∧
      a.replacedClientid = b.replacedClientid := by
  simpa [ClientState.incarnation] using h

theorem StateInner.afterExpiry_incarnation (now : Instant) (client : ClientState) :
    (afterExpiry now client).incarnation = client.incarnation := by
  unfold afterExpiry
  split <;> rfl

/-- How the records of one owner are related. -/
structure StateInner.Incarnations (inner : StateInner) : Prop where
  key : ∀ k client, inner.clients.get k = some client → client.clientid = k
  confirmed : ∀ k l a b, inner.clients.get k = some a → inner.clients.get l = some b →
    a.owner.ownerid = b.owner.ownerid → a.confirmed = true → b.confirmed = true → k = l
  unconfirmed : ∀ k l a b, inner.clients.get k = some a → inner.clients.get l = some b →
    a.owner.ownerid = b.owner.ownerid → a.confirmed = false → b.confirmed = false → k = l
  replaces : ∀ k l a b, inner.clients.get k = some a → inner.clients.get l = some b →
    a.owner.ownerid = b.owner.ownerid → a.confirmed = false → b.confirmed = true →
      a.replacedClientid = some l
  replaces_other : ∀ k a, inner.clients.get k = some a → a.replacedClientid ≠ some k
  sessions : ∀ i session, inner.sessions.get i = some session →
    ∃ client, inner.clients.get session.clientid = some client ∧ client.confirmed = true

namespace StateInner.Incarnations

variable {a b : StateInner}

theorem of_subBy (h : b.Incarnations)
    (hclients : a.clients.SubBy ClientState.incarnation b.clients)
    (hsessions : ∀ i session, a.sessions.get i = some session →
      (a.clients.get session.clientid).isSome = true ∧
        ∃ old, b.sessions.get i = some old ∧ session.clientid = old.clientid) :
    a.Incarnations := by
  have hold : ∀ k client, a.clients.get k = some client → ∃ old, b.clients.get k = some old ∧
      client.clientid = old.clientid ∧ client.owner = old.owner ∧
      client.confirmed = old.confirmed ∧ client.replacedClientid = old.replacedClientid := by
    intro k client hk
    obtain ⟨old, hold, hsame⟩ := hclients k client hk
    exact ⟨old, hold, ClientState.incarnation_inj hsame⟩
  refine ⟨?_, ?_, ?_, ?_, ?_, ?_⟩
  · intro k client hk
    obtain ⟨old, hget, hid, -⟩ := hold k client hk
    rw [hid]
    exact h.key k old hget
  · intro k l x y hk hl howner hx hy
    obtain ⟨x', hx', -, hxo, hxc, -⟩ := hold k x hk
    obtain ⟨y', hy', -, hyo, hyc, -⟩ := hold l y hl
    exact h.confirmed k l x' y' hx' hy' (by rw [← hxo, ← hyo, howner]) (hxc ▸ hx) (hyc ▸ hy)
  · intro k l x y hk hl howner hx hy
    obtain ⟨x', hx', -, hxo, hxc, -⟩ := hold k x hk
    obtain ⟨y', hy', -, hyo, hyc, -⟩ := hold l y hl
    exact h.unconfirmed k l x' y' hx' hy' (by rw [← hxo, ← hyo, howner]) (hxc ▸ hx) (hyc ▸ hy)
  · intro k l x y hk hl howner hx hy
    obtain ⟨x', hx', -, hxo, hxc, hxr⟩ := hold k x hk
    obtain ⟨y', hy', -, hyo, hyc, -⟩ := hold l y hl
    rw [hxr]
    exact h.replaces k l x' y' hx' hy' (by rw [← hxo, ← hyo, howner]) (hxc ▸ hx) (hyc ▸ hy)
  · intro k x hk
    obtain ⟨x', hx', -, -, -, hxr⟩ := hold k x hk
    rw [hxr]
    exact h.replaces_other k x' hx'
  · intro i session hi
    obtain ⟨hsome, old, hget, hid⟩ := hsessions i session hi
    obtain ⟨client, hclient⟩ := Option.isSome_iff_exists.mp hsome
    obtain ⟨client', hclient', -, -, hc, -⟩ := hold _ client hclient
    obtain ⟨found, hfound, hconfirmed⟩ := h.sessions i old hget
    rw [hid, hfound] at hclient'
    cases hclient'
    exact ⟨client, hclient, hc.trans hconfirmed⟩

theorem of_map (h : b.Incarnations)
    (hclients : ∀ k, (a.clients.get k).map ClientState.incarnation =
      (b.clients.get k).map ClientState.incarnation)
    (hsessions : a.sessions.SubBy SessionState.clientid b.sessions) : a.Incarnations := by
  refine h.of_subBy ?_ ?_
  · intro k client hk
    have hview := hclients k
    rw [hk, Option.map_some] at hview
    obtain ⟨old, hold, hsame⟩ := Option.map_eq_some_iff.mp hview.symm
    exact ⟨old, hold, hsame.symm⟩
  · intro i session hi
    obtain ⟨old, hold, hid⟩ := hsessions i session hi
    obtain ⟨client, hclient, -⟩ := h.sessions i old hold
    refine ⟨?_, old, hold, hid⟩
    rw [← Option.isSome_map, hclients, hid, hclient]
    rfl

theorem of_modify (h : b.Incarnations) {k : Clientid4} {f : ClientState → ClientState}
    (hclients : a.clients = b.clients.modify k f)
    (hf : ∀ client, (f client).incarnation = client.incarnation)
    (hsessions : a.sessions.SubBy SessionState.clientid b.sessions) : a.Incarnations := by
  refine h.of_map (fun l => ?_) hsessions
  rw [hclients, Table.get_modify]
  split
  · rw [Option.map_map]
    exact congrArg (Option.map · _) (funext hf)
  · rfl

theorem drop (h : b.Incarnations) (clientids : List Clientid4) :
    (clientids.foldl dropClientState b).Incarnations := by
  refine h.of_subBy ?_ ?_
  · exact fun k client hk => ⟨client, (of_get_dropClientStates_clients hk).2, rfl⟩
  · intro i session hi
    rw [get_dropClientStates_sessions, Option.filter_eq_some_iff] at hi
    obtain ⟨hi, hid⟩ := hi
    obtain ⟨client, hclient, -⟩ := h.sessions i session hi
    refine ⟨?_, session, hi, rfl⟩
    rw [get_dropClientStates_clients, if_neg (by simpa using hid), hclient]
    rfl

theorem reap (h : b.Incarnations) (now : Instant) :
    (b.reapExpiredClientsLocked now).Incarnations := by
  refine h.of_subBy ?_ ?_
  · intro k client hk
    obtain ⟨-, old, hold, rfl⟩ := of_get_reap_clients b now hk
    exact ⟨old, hold, afterExpiry_incarnation now old⟩
  · intro i session hi
    rw [get_reap_sessions, Option.filter_eq_some_iff] at hi
    obtain ⟨hi, hid⟩ := hi
    obtain ⟨client, hclient, -⟩ := h.sessions i session hi
    refine ⟨?_, session, hi, rfl⟩
    rw [get_reap_clients, if_neg (by simpa using hid), hclient]
    rfl

/-- Once clients have been reaped, a record that is revoked is confirmed: only confirmed
clients have sessions, and a revoked client without a session goes. -/
theorem confirmed_of_revoked (h : b.Incarnations) (now : Instant) {k : Clientid4}
    {client : ClientState} (hk : (b.reapExpiredClientsLocked now).clients.get k = some client)
    (hrevoked : client.leaseState.isActive = false) : client.confirmed = true := by
  obtain ⟨hkeep, old, hold, rfl⟩ := of_get_reap_clients b now hk
  rw [mem_dropping] at hkeep
  have hdue : dropDue now b.sessions k (afterExpiry now old) = false := by
    rw [← Bool.not_eq_true]
    exact fun hdue => hkeep ⟨old, hold, hdue⟩
  obtain ⟨-, -, hsame, -⟩ := ClientState.incarnation_inj (afterExpiry_incarnation now old)
  cases hlease : (afterExpiry now old).leaseState with
  | active deadline =>
    rw [hlease] at hrevoked
    cases hrevoked
  | revoked since flags =>
    simp only [dropDue, hlease, decide_eq_false_iff_not, not_or, Bool.not_eq_true,
      Bool.not_eq_false'] at hdue
    obtain ⟨i, session, hi, hid⟩ := Table.any_eq_true.mp hdue.2
    obtain ⟨found, hfound, hconfirmed⟩ := h.sessions i session hi
    rw [of_decide_eq_true hid, hold] at hfound
    cases hfound
    exact hsame.trans hconfirmed

theorem insert (h : b.Incarnations) {k : Clientid4} {new : ClientState}
    (hfresh : b.clients.get k = none) (hkey : new.clientid = k) (hnew : new.confirmed = false)
    (halone : ∀ l client, b.clients.get l = some client →
      client.owner.ownerid = new.owner.ownerid → client.confirmed = true)
    (hreplaces : ∀ l client, b.clients.get l = some client →
      client.owner.ownerid = new.owner.ownerid → new.replacedClientid = some l)
    (hother : new.replacedClientid ≠ some k) :
    Incarnations { b with clients := b.clients.insert k new } := by
  refine ⟨?_, ?_, ?_, ?_, ?_, ?_⟩
  · intro l client hl
    rcases Table.of_get_insert hl with ⟨rfl, rfl⟩ | ⟨-, hl⟩
    · exact hkey
    · exact h.key l client hl
  · intro l m x y hl hm howner hx hy
    rcases Table.of_get_insert hl with ⟨rfl, rfl⟩ | ⟨-, hl⟩
    · rw [hnew] at hx
      cases hx
    rcases Table.of_get_insert hm with ⟨rfl, rfl⟩ | ⟨-, hm⟩
    · rw [hnew] at hy
      cases hy
    exact h.confirmed l m x y hl hm howner hx hy
  · intro l m x y hl hm howner hx hy
    rcases Table.of_get_insert hl with ⟨rfl, rfl⟩ | ⟨-, hl'⟩
    · rcases Table.of_get_insert hm with ⟨rfl, rfl⟩ | ⟨-, hm'⟩
      · rfl
      · rw [halone m y hm' howner.symm] at hy
        cases hy
    · rcases Table.of_get_insert hm with ⟨rfl, rfl⟩ | ⟨-, hm'⟩
      · rw [halone l x hl' howner] at hx
        cases hx
      · exact h.unconfirmed l m x y hl' hm' howner hx hy
  · intro l m x y hl hm howner hx hy
    rcases Table.of_get_insert hm with ⟨rfl, rfl⟩ | ⟨-, hm'⟩
    · rw [hnew] at hy
      cases hy
    rcases Table.of_get_insert hl with ⟨rfl, rfl⟩ | ⟨-, hl'⟩
    · exact hreplaces m y hm' howner.symm
    · exact h.replaces l m x y hl' hm' howner hx hy
  · intro l x hl
    rcases Table.of_get_insert hl with ⟨rfl, rfl⟩ | ⟨-, hl⟩
    · exact hother
    · exact h.replaces_other l x hl
  · intro i session hi
    obtain ⟨client, hclient, hconfirmed⟩ := h.sessions i session hi
    refine ⟨client, ?_, hconfirmed⟩
    rw [Table.get_insert, if_neg, hclient]
    rintro rfl
    rw [hfresh] at hclient
    cases hclient

end StateInner.Incarnations

/-- The sections with which NFSv4.0 clients introduce themselves. -/
def Section.introduces : Section → Bool
  | .setClientId _ | .setClientIdConfirm _ => true
  | _ => false

namespace StateManager

variable {s s' : StateManager}

/-! ## EXCHANGE_ID -/

theorem replacedClient_eq (h : s.inner.Incarnations)
    (hrevoked : ∀ k client, s.inner.clients.get k = some client →
      client.leaseState.isActive = false → client.confirmed = true)
    {owner : ClientOwner4} {l : Clientid4} {old : ClientState}
    (hl : s.inner.clients.get l = some old) (hconfirmed : old.confirmed = true)
    (howner : old.owner.ownerid = owner.ownerid)
    (hrunning : old.owner.verifier = owner.verifier → old.leaseState.isActive = false) :
    replacedClient s.inner.clients owner = some l := by
  -- Whatever either search finds is a confirmed record of the owner.
  have hfound : ∀ (p : Clientid4 → ClientState → Bool) found,
      s.inner.clients.find? p = some found →
      (∀ k client, p k client = true → client.owner.ownerid = owner.ownerid ∧
        (client.confirmed = true ∨ client.leaseState.isActive = false)) →
      found.1 = l ∧ found.2 = old ∧ p l old = true := by
    rintro p ⟨k, client⟩ hfind hp
    obtain ⟨hk, hpk⟩ := Table.of_find?_eq_some hfind
    obtain ⟨hk', hc⟩ := hp k client hpk
    have hck : client.confirmed = true := hc.elim id (hrevoked k client hk)
    have heq : k = l := h.confirmed k l client old hk hl (hk'.trans howner.symm) hck hconfirmed
    subst heq
    cases hk.symm.trans hl
    exact ⟨rfl, rfl, hpk⟩
  unfold replacedClient
  cases hfirst : s.inner.clients.find? fun _ client =>
      client.owner.ownerid = owner.ownerid ∧ client.owner.verifier ≠ owner.verifier ∧
        (client.confirmed ∨ !client.leaseState.isActive) with
  | some found =>
    obtain ⟨rfl, hold, -⟩ := hfound _ found hfirst fun k client hp => by
      simp only [decide_eq_true_eq, Bool.not_eq_true'] at hp
      exact ⟨hp.1, hp.2.2⟩
    simp [hold, h.key _ old hl]
  | none =>
    have hverifier : old.owner.verifier = owner.verifier := by
      have hno := Table.find?_eq_none.mp hfirst l old hl
      simpa [howner, hconfirmed] using hno
    have hsecond : (s.inner.clients.find? fun _ client =>
        client.owner.ownerid = owner.ownerid ∧ client.owner.verifier = owner.verifier ∧
          !client.leaseState.isActive) ≠ none := by
      intro hnone
      have hno := Table.find?_eq_none.mp hnone l old hl
      simp [howner, hverifier, hrunning hverifier] at hno
    obtain ⟨found, hfind⟩ := Option.ne_none_iff_exists'.mp hsecond
    obtain ⟨rfl, hold, -⟩ := hfound _ found hfind fun k client hp => by
      simp only [decide_eq_true_eq, Bool.not_eq_true'] at hp
      exact ⟨hp.1, Or.inr hp.2.2⟩
    rw [Option.none_or, hfind, Option.map_some]
    show some found.2.clientid = some found.1
    rw [hold, h.key _ old hl]

theorem of_replacedClient (h : s.inner.Incarnations) {owner : ClientOwner4} {l : Clientid4}
    (hl : replacedClient s.inner.clients owner = some l) :
    (s.inner.clients.get l).isSome = true := by
  unfold replacedClient at hl
  obtain ⟨⟨k, client⟩, hfind, hid⟩ := Option.map_eq_some_iff.mp hl
  have hk : s.inner.clients.get k = some client := by
    rcases Option.or_eq_some_iff.mp hfind with hfind | ⟨-, hfind⟩
    · exact (Table.of_find?_eq_some hfind).1
    · exact (Table.of_find?_eq_some hfind).1
  rw [← hid]
  show (s.inner.clients.get client.clientid).isSome = true
  rw [h.key k client hk, hk]
  rfl

theorem exchangeIdReaped_incarnations (h : s.inner.Incarnations)
    (hrevoked : ∀ k client, s.inner.clients.get k = some client →
      client.leaseState.isActive = false → client.confirmed = true)
    (hfresh : s.inner.clients.get s.nextClientid = none) (args : ExchangeIdArgs4) :
    (s.exchangeIdReaped args).2.inner.Incarnations := by
  rcases s.exchangeIdReaped_cases args with
    ⟨k, client, -, -, -, -, -, hs⟩ | ⟨hnone, -, inner, hinner, hs⟩
  · rw [hs]
    exact h
  rw [hs]
  have hdrop : inner.Incarnations := hinner ▸ h.drop _
  have hold : ∀ k client, inner.clients.get k = some client →
      s.inner.clients.get k = some client ∧
        k ∉ staleUnconfirmed s.inner.clients args.clientowner := by
    rw [hinner]
    exact fun _ _ hk => (StateInner.of_get_dropClientStates_clients hk).symm
  have halone : ∀ k client, inner.clients.get k = some client →
      client.owner.ownerid = args.clientowner.ownerid → client.confirmed = true := by
    intro k client hk howner
    obtain ⟨hget, hkeep⟩ := hold k client hk
    by_contra hconfirmed
    have hunconfirmed : client.confirmed = false := Bool.eq_false_iff.mpr hconfirmed
    have hactive : client.leaseState.isActive = true := by
      by_contra hinactive
      exact hconfirmed (hrevoked k client hget (Bool.eq_false_iff.mpr hinactive))
    by_cases hverifier : client.owner.verifier = args.clientowner.verifier
    · rw [hnone k client hget howner hverifier] at hactive
      cases hactive
    · refine hkeep (List.mem_map.mpr ⟨client, List.mem_filter.mpr ⟨?_, ?_⟩, h.key k client hget⟩)
      · exact Table.mem_values.mpr ⟨k, hget⟩
      · simp [howner, hverifier, hunconfirmed, hactive]
  refine hdrop.insert ?_ rfl rfl halone ?_ ?_
  · rw [hinner, StateInner.get_dropClientStates_clients, hfresh]
    split <;> rfl
  · intro l client hl howner
    exact replacedClient_eq h hrevoked (hold l client hl).1 (halone l client hl howner) howner
      (hnone l client (hold l client hl).1 howner)
  · intro hself
    have hsome := of_replacedClient h hself
    rw [hfresh] at hsome
    cases hsome

/-! ## CREATE_SESSION -/

theorem createSessionReaped_incarnations (h : s.inner.Incarnations) {args : CreateSessionArgs4}
    {conn : U64} {res : CreateSessionRes4}
    (hok : s.createSessionReaped args conn = .ok (res, s')) : s'.inner.Incarnations := by
  obtain ⟨client, inner, hget, -, hinner, -, rfl⟩ := createSessionReaped_ok hok
  let f := ClientState.established s.clock (client.sequenceId + 1)
  -- The client's own record is confirmed now; of the others the replaced one is gone.
  have hself : inner.clients.get args.clientid = some (f client) := by
    rw [hinner, get_confirmClient_clients, if_neg (h.replaces_other _ client hget),
      Table.get_modify_self hget]
  have hcases : ∀ k x, inner.clients.get k = some x → (k = args.clientid ∧ x = f client) ∨
      (k ≠ args.clientid ∧ s.inner.clients.get k = some x ∧ client.replacedClientid ≠ some k) := by
    intro k x hk
    by_cases hkey : k = args.clientid
    · subst hkey
      exact Or.inl ⟨rfl, Option.some.inj (hk.symm.trans hself)⟩
    · rw [hinner, get_confirmClient_clients] at hk
      split at hk
      · cases hk
      · rename_i hkeep
        rw [Table.get_modify, if_neg hkey] at hk
        exact Or.inr ⟨hkey, hk, hkeep⟩
  have hclash : ∀ k x, k ≠ args.clientid → s.inner.clients.get k = some x →
      client.replacedClientid ≠ some k → x.owner.ownerid = client.owner.ownerid →
      x.confirmed = false := by
    intro k x hne hk hkeep howner
    rw [← Bool.not_eq_true]
    intro hx
    cases hc : client.confirmed with
    | true => exact hne (h.confirmed k _ x client hk hget howner hx hc)
    | false => exact hkeep (h.replaces _ k client x hget hk howner.symm hc hx)
  refine ⟨?_, ?_, ?_, ?_, ?_, ?_⟩
  · intro k x hk
    rcases hcases k x hk with ⟨rfl, rfl⟩ | ⟨-, hk', -⟩
    · exact h.key _ client hget
    · exact h.key k x hk'
  · intro k l x y hk hl howner hx hy
    rcases hcases k x hk with ⟨rfl, rfl⟩ | ⟨hne, hk', hkeep⟩
    · rcases hcases l y hl with ⟨rfl, rfl⟩ | ⟨hne, hl', hkeep⟩
      · rfl
      · rw [hclash l y hne hl' hkeep howner.symm] at hy
        cases hy
    · rcases hcases l y hl with ⟨rfl, rfl⟩ | ⟨-, hl', -⟩
      · rw [hclash k x hne hk' hkeep howner] at hx
        cases hx
      · exact h.confirmed k l x y hk' hl' howner hx hy
  · intro k l x y hk hl howner hx hy
    rcases hcases k x hk with ⟨rfl, rfl⟩ | ⟨-, hk', -⟩
    · cases hx
    · rcases hcases l y hl with ⟨rfl, rfl⟩ | ⟨-, hl', -⟩
      · cases hy
      · exact h.unconfirmed k l x y hk' hl' howner hx hy
  · intro k l x y hk hl howner hx hy
    rcases hcases k x hk with ⟨rfl, rfl⟩ | ⟨hne, hk', -⟩
    · cases hx
    · rcases hcases l y hl with ⟨rfl, rfl⟩ | ⟨-, hl', -⟩
      · cases hc : client.confirmed with
        | true => exact h.replaces k _ x client hk' hget howner hx hc
        | false => exact absurd (h.unconfirmed k _ x client hk' hget howner hx hc) hne
      · exact h.replaces k l x y hk' hl' howner hx hy
  · intro k x hk
    rcases hcases k x hk with ⟨rfl, rfl⟩ | ⟨-, hk', -⟩
    · intro hreplaced
      cases hreplaced
    · exact h.replaces_other k x hk'
  · intro i session hi
    change (inner.sessions.insert res.sessionid (newSession args conn)).get i = some session at hi
    rcases Table.of_get_insert hi with ⟨-, rfl⟩ | ⟨-, hi⟩
    · exact ⟨f client, hself, rfl⟩
    · rw [hinner, get_confirmClient_sessions, Option.filter_eq_some_iff] at hi
      obtain ⟨hi, hkeep⟩ := hi
      obtain ⟨x, hx, hconfirmed⟩ := h.sessions i session hi
      by_cases hkey : session.clientid = args.clientid
      · rw [hkey]
        exact ⟨f client, hself, rfl⟩
      · refine ⟨x, ?_, hconfirmed⟩
        show inner.clients.get session.clientid = some x
        rw [hinner, get_confirmClient_clients, if_neg (of_decide_eq_true hkeep), Table.get_modify,
          if_neg hkey]
        exact hx

/-! ## The clients that a section leaves -/

theorem runSection_incarnations (c : Section) (hc : c.introduces = false)
    (h : s.inner.Incarnations)
    (hfresh : c.enrols = true → s.inner.clients.get s.nextClientid = none) :
    (s.runSection c).2.inner.Incarnations := by
  cases hadmin : c.administers with
  | false =>
    have hstill := s.runSection_still c hadmin
    refine h.of_map (fun k => ?_) hstill.sessions
    have hview := congrArg (Option.map ClientState.incarnation) (hstill.clients k)
    rwa [Option.map_map, Option.map_map] at hview
  | true =>
    have h₀ : (s.reapedFor c).inner.Incarnations := by
      unfold reapedFor
      split
      · exact h.reap s.clock
      · exact h
    cases s.runSection_clientAct c hadmin with
    | sessions sessions hsessions hs =>
      rw [hs]
      exact h₀.of_map (fun _ => rfl) hsessions
    | reclaimed clientid hs =>
      rw [hs]
      refine h₀.of_modify rfl ?_ (.refl _)
      exact fun _ => rfl
    | sequenced clientid client sessions _ _ _ hsessions hs =>
      rw [hs]
      refine h₀.of_modify rfl ?_ hsessions
      exact fun _ => rfl
    | renewed clientid client _ _ _ hs =>
      rw [hs]
      refine h₀.of_modify rfl ?_ (.refl _)
      exact fun _ => rfl
    | destroyed clientid hs =>
      rw [hs]
      exact h₀.drop [clientid]
    | exchanged args hc' hreaps hs =>
      rw [hs]
      have heq : s.reapedFor c = s.reapExpiredClients := if_pos hreaps
      rw [heq]
      rw [heq] at h₀
      refine exchangeIdReaped_incarnations h₀ (fun k client => h.confirmed_of_revoked s.clock) ?_
        args
      show (s.inner.reapExpiredClientsLocked s.clock).clients.get s.nextClientid = none
      rw [StateInner.get_reap_clients, hfresh (by rw [hc']; rfl)]
      split <;> rfl
    | created args conn res _ hok => exact createSessionReaped_incarnations h₀ hok
    | introduced args hc' =>
      rw [hc'] at hc
      cases hc
    | confirmed args hc' =>
      rw [hc'] at hc
      cases hc

end StateManager

namespace StateManager

variable {s : StateManager} {l : Clientid4} {old : ClientState}

theorem exchangeId_sameFor (h : s.inner.Incarnations) (hindexed : s.inner.Indexed)
    (hfresh : s.inner.clients.get s.nextClientid = none) (args : ExchangeIdArgs4)
    (hl : s.inner.clients.get l = some old) (hconfirmed : old.confirmed = true)
    (hlease : StateInner.leaseExpired s.clock old = false)
    (hdue : StateInner.dropDue s.clock s.inner.sessions l old = false) :
    StateInner.SameFor l (s.runSection (.exchangeId args)).2.inner s.inner := by
  show StateInner.SameFor l (s.exchangeId args).2.inner s.inner
  unfold exchangeId
  split
  · exact .refl _
  have hreap := hindexed.sameFor_reap hl hlease hdue
  have hreaped : s.reapExpiredClients.inner.clients.get l = some old := hreap.client.trans hl
  have hkey := h.reap s.clock
  refine StateInner.SameFor.trans ?_ hreap
  dsimp only
  rcases s.reapExpiredClients.exchangeIdReaped_cases args with
    ⟨k, client, -, -, -, -, -, hs⟩ | ⟨-, -, inner, hinner, hs⟩
  · rw [hs]
    exact .refl _
  rw [hs]
  -- The stale records are unconfirmed, and the new one has a new id.
  have hstale : l ∉ staleUnconfirmed s.reapExpiredClients.inner.clients args.clientowner := by
    intro hmem
    obtain ⟨client, hclient, hid⟩ := List.mem_map.mp hmem
    obtain ⟨hvalue, hunconfirmed⟩ := List.mem_filter.mp hclient
    obtain ⟨k, hk⟩ := Table.mem_values.mp hvalue
    have hkl : k = l := (hkey.key k client hk).symm.trans hid
    subst hkl
    cases hk.symm.trans hreaped
    simp [hconfirmed] at hunconfirmed
  have hdrop : StateInner.SameFor l inner s.reapExpiredClients.inner :=
    hinner ▸ (hindexed.reap s.clock).sameFor_drop hstale
  refine StateInner.SameFor.trans ⟨?_, ?_, ?_, ?_, ?_⟩ hdrop
  · refine (Table.get_insert _ _ _ _).trans (if_neg ?_)
    rintro rfl
    rw [show s.inner.clients.get s.reapExpiredClients.nextClientid = none from hfresh] at hl
    cases hl
  · exact fun _ _ _ => .rfl
  · exact fun _ _ _ => .rfl
  · exact fun _ _ _ => .rfl
  · exact fun _ _ _ => .rfl

theorem createSession_without (h : s.inner.Incarnations) (hindexed : s.inner.Indexed)
    {args : CreateSessionArgs4} {conn : U64} {res : CreateSessionRes4} {client : ClientState}
    (hok : (s.runSection (.createSession args conn)).1 = .ok res)
    (hclient : s.inner.clients.get args.clientid = some client)
    (hunconfirmed : client.confirmed = false) (hl : s.inner.clients.get l = some old)
    (hconfirmed : old.confirmed = true) (howner : old.owner.ownerid = client.owner.ownerid) :
    (s.runSection (.createSession args conn)).2.inner.Without l := by
  refine commit_of_ok (fun s' => s'.inner.Without l) hok fun s' hok => ?_
  have hreaped := h.reap s.clock
  obtain ⟨client', inner, hclient', -, hinner, -, rfl⟩ := createSessionReaped_ok hok
  have hne : args.clientid ≠ l := by
    rintro rfl
    cases hclient.symm.trans hl
    rw [hconfirmed] at hunconfirmed
    cases hunconfirmed
  suffices hwithout : inner.Without l by
    refine ⟨hwithout.client, fun i session hi => ?_, hwithout.openFiles, hwithout.lockFiles,
      hwithout.delegations⟩
    change (inner.sessions.insert res.sessionid (newSession args conn)).get i = some session at hi
    rcases Table.of_get_insert hi with ⟨-, rfl⟩ | ⟨-, hi⟩
    · exact hne
    · exact hwithout.sessions i session hi
  by_cases hdropping : l ∈ s.inner.dropping s.clock
  · -- The old record went in the reaping pass.
    have hgone : s.reapExpiredClients.inner.Without l := by
      show (s.inner.reapExpiredClientsLocked s.clock).Without l
      rw [StateInner.reapExpiredClientsLocked_eq]
      exact (hindexed.expireClients s.clock _).1.without_drop hdropping
    rw [hinner]
    refine hgone.of_sub ?_ ?_ (confirmClient_shrunk _ _ _ _)
    · rw [get_confirmClient_clients, Table.get_modify, if_neg (Ne.symm hne), hgone.client]
      split <;> rfl
    · intro i session hi
      rw [get_confirmClient_sessions, Option.filter_eq_some_iff] at hi
      exact hi.1
  · -- It is still there, and the client names it.
    have hfound : s.reapExpiredClients.inner.clients.get l =
        some (StateInner.afterExpiry s.clock old) := by
      show (s.inner.reapExpiredClientsLocked s.clock).clients.get l = _
      rw [StateInner.get_reap_clients, if_neg hdropping, hl]
      rfl
    obtain ⟨-, prev, hprev, rfl⟩ := StateInner.of_get_reap_clients _ _ hclient'
    cases hclient.symm.trans hprev
    obtain ⟨-, howner₁, hconfirmed₁, -⟩ :=
      ClientState.incarnation_inj (StateInner.afterExpiry_incarnation s.clock client)
    obtain ⟨-, howner₂, hconfirmed₂, -⟩ :=
      ClientState.incarnation_inj (StateInner.afterExpiry_incarnation s.clock old)
    have hreplaces := hreaped.replaces args.clientid l _ _ hclient' hfound
      (by rw [howner₁, howner₂, howner]) (hconfirmed₁.trans hunconfirmed)
      (hconfirmed₂.trans hconfirmed)
    rw [hinner, hreplaces]
    exact ((hindexed.reap s.clock).with_tables _ _ _ _).without_drop (List.mem_singleton.mpr rfl)

end StateManager

/-! ## Runs -/

/-- A call with which an NFSv4.0 client introduces itself. -/
def Call.introduces {H : Type} : Call H → Bool
  | .guarded q => q.introduces
  | _ => false

/-- What holds in every state of a run without NFSv4.0 clients in which the counter of client
ids has not come round. -/
structure Restartable {H : Type} (tr : Trace H) (s : StateManager) : Prop where
  numbered : ∃ n ≤ enrolments tr, s.Numbered n
  incarnations : s.inner.Incarnations
  indexed : s.inner.Indexed

namespace Restartable

variable {H : Type} {tr : Trace H} {s s' : StateManager}

theorem fresh (h : Restartable tr s) (hn : enrolments tr < 2 ^ 64) :
    s.inner.clients.get s.nextClientid = none := by
  obtain ⟨n, hle, hnumbered⟩ := h.numbered
  exact hnumbered.fresh (by omega)

theorem new (boot : Boot) : Restartable ([] : Trace H) (StateManager.new boot) where
  numbered := ⟨0, Nat.le_refl 0, .new boot⟩
  incarnations :=
    ⟨fun _ _ hk => (by cases hk), fun _ _ _ _ hk => (by cases hk), fun _ _ _ _ hk => (by cases hk),
      fun _ _ _ _ hk => (by cases hk), fun _ _ hk => (by cases hk), fun _ _ hi => (by cases hi)⟩
  indexed := StateInner.indexed_new boot

theorem drift (h : Restartable tr s) (hd : s.Drift s') : Restartable tr s' where
  numbered := by
    obtain ⟨n, hle, hnumbered⟩ := h.numbered
    exact ⟨n, hle, hnumbered.drift hd⟩
  incarnations := by
    refine h.incarnations.of_map (fun k => by rw [hd.clients k]) fun i session hi => ?_
    obtain ⟨old, hold, hr⟩ := hd.session hi
    exact ⟨old, hold, hr.clientid⟩
  indexed := hd.indexed h.indexed

theorem step [DecidableEq H] {backend : Backend H} {e : ServerEvent H}
    (h : Restartable tr e.before.state)
    (hexec : (Server.system backend).exec e.before e.call e.answer e.after)
    (hv41 : e.call.introduces = false) (hbound : enrolments (tr ++ [e]) ≤ 2 ^ 64) :
    Restartable (tr ++ [e]) e.after.state where
  numbered := by
    obtain ⟨n, hle, hnumbered⟩ := h.numbered
    obtain ⟨m, -, hm, hnumbered'⟩ := hnumbered.step hexec
    refine ⟨m, ?_, hnumbered'⟩
    rw [enrolments_append]
    omega
  incarnations := by
    rcases Server.exec_inner hexec with ⟨q, hq, hs⟩ | hs
    · rw [hs]
      rw [hq] at hv41
      refine StateManager.runSection_incarnations q hv41 h.incarnations fun henrols => ?_
      refine h.fresh ?_
      have hcount : e.call.enrols = true := by
        rw [hq]
        exact Section.enrols_call henrols
      have hone : enrolments [e] = 1 := by simp [enrolments, hcount]
      rw [enrolments_append] at hbound
      omega
    · rw [hs]
      exact h.incarnations
  indexed := Server.exec_indexed hexec h.indexed

end Restartable

section

variable {H α : Type} [DecidableEq H] {backend : Backend H} {boot : Boot}
  {threads : List (Request H α)} {tr : Trace H} {c : Machine H α}

theorem System.Run.restartable
    (hrun : (Server.system backend).Run ⟨Server.new H boot, threads⟩ tr c)
    (hv41 : ∀ e ∈ tr, e.call.introduces = false) (hbound : enrolments tr ≤ 2 ^ 64) :
    Restartable tr c.state.state := by
  refine hrun.invariant_trace (I := fun tr s => (∀ e ∈ tr, e.call.introduces = false) →
    enrolments tr ≤ 2 ^ 64 → Restartable tr s.state) ?_ ?_ ?_ hv41 hbound
  · exact fun _ _ => .new boot
  · exact fun tr s s' h hd hv41 hbound => (h hv41 hbound).drift hd.state
  · intro tr e hexec h hv41 hbound
    have hprev : enrolments tr ≤ 2 ^ 64 := by
      rw [enrolments_append] at hbound
      omega
    exact (h (fun e' he' => hv41 e' (List.mem_append_left _ he')) hprev).step hexec
      (hv41 e (by simp)) hbound

end

/-- **Restart of an NFSv4.1 client.** Let any requests run against a server, with their steps
interleaved in any order and no NFSv4.0 client among them. As long as the counter of client ids
has not come round, there is at most one confirmed record for an owner; a CREATE_SESSION that
confirms a record removes the confirmed record of the same owner with all that belongs to it; and
an EXCHANGE_ID with a new verifier leaves the confirmed record and all that belongs to it as it
was, unless its lease has run out. -/
theorem client_restart {H α : Type} [DecidableEq H] {backend : Backend H} {boot : Boot}
    {threads : List (Request H α)} {tr : Trace H} {c : Machine H α}
    (hrun : (Server.system backend).Run ⟨Server.new H boot, threads⟩ tr c)
    (hv41 : ∀ e ∈ tr, e.call.introduces = false) (hbound : enrolments tr ≤ 2 ^ 64) :
    (∀ k l a b, c.state.state.inner.clients.get k = some a →
      c.state.state.inner.clients.get l = some b → a.owner.ownerid = b.owner.ownerid →
      a.confirmed = true → b.confirmed = true → k = l) ∧
    (∀ e ∈ tr, ∀ args conn, e.call = .guarded (.createSession args conn) →
      e.call.issues e.answer ≠ none → ∀ client l old,
      e.before.state.inner.clients.get args.clientid = some client → client.confirmed = false →
      e.before.state.inner.clients.get l = some old → old.confirmed = true →
      old.owner.ownerid = client.owner.ownerid → e.after.state.inner.Without l) ∧
    (∀ e ∈ tr, ∀ args, e.call = .guarded (.exchangeId args) → ∀ l old,
      e.before.state.inner.clients.get l = some old → old.confirmed = true →
      old.owner.ownerid = args.clientowner.ownerid →
      old.owner.verifier ≠ args.clientowner.verifier →
      StateInner.leaseExpired e.before.state.clock old = false →
      StateInner.dropDue e.before.state.clock e.before.state.inner.sessions l old = false →
      StateInner.SameFor l e.after.state.inner e.before.state.inner) := by
  have hbefore : ∀ e tr₁ tr₂, tr = tr₁ ++ e :: tr₂ →
      Restartable tr₁ e.before.state ∧ enrolments tr₁ + enrolments [e] ≤ 2 ^ 64 ∧
        (Server.system backend).exec e.before e.call e.answer e.after := by
    rintro e tr₁ tr₂ rfl
    obtain ⟨ts, k, hearlier, -, hexec, -⟩ := hrun.at_event
    have hcount : enrolments (tr₁ ++ e :: tr₂) =
        enrolments tr₁ + (enrolments [e] + enrolments tr₂) := by
      rw [← enrolments_append, ← enrolments_append]
      rfl
    refine ⟨hearlier.restartable (fun e' he' => hv41 e' (List.mem_append_left _ he')) (by omega),
      by omega, hexec⟩
  refine ⟨(hrun.restartable hv41 hbound).incarnations.confirmed, ?_, ?_⟩
  · rintro e he args conn hcall hissues client l old hclient hunconfirmed hl hconfirmed howner
    obtain ⟨tr₁, tr₂, htr⟩ := List.append_of_mem he
    obtain ⟨hinv, -, hexec⟩ := hbefore e tr₁ tr₂ htr
    obtain ⟨t, before, call, answer, after⟩ := e
    dsimp only at *
    subst hcall
    obtain ⟨hanswer, hafter⟩ := hexec
    cases answer with
    | error status => exact absurd rfl hissues
    | ok res =>
      rw [hafter]
      exact StateManager.createSession_without hinv.incarnations hinv.indexed hanswer.symm hclient
        hunconfirmed hl hconfirmed howner
  · rintro e he args hcall l old hl hconfirmed - - hlease hdue
    obtain ⟨tr₁, tr₂, htr⟩ := List.append_of_mem he
    obtain ⟨hinv, hcount, hexec⟩ := hbefore e tr₁ tr₂ htr
    obtain ⟨t, before, call, answer, after⟩ := e
    dsimp only at *
    subst hcall
    rw [hexec.2]
    refine StateManager.exchangeId_sameFor hinv.incarnations hinv.indexed (hinv.fresh ?_) args hl
      hconfirmed hlease hdue
    have hone : enrolments [(⟨t, before, .guarded (.exchangeId args), answer, after⟩ :
        ServerEvent H)] = 1 := rfl
    omega

/-- **Records of an owner.** Let any requests run as before. Every session is of a confirmed
record, and of two records of one owner one is confirmed, and the other one is going to replace
it. -/
theorem owner_records {H α : Type} [DecidableEq H] {backend : Backend H} {boot : Boot}
    {threads : List (Request H α)} {tr : Trace H} {c : Machine H α}
    (hrun : (Server.system backend).Run ⟨Server.new H boot, threads⟩ tr c)
    (hv41 : ∀ e ∈ tr, e.call.introduces = false) (hbound : enrolments tr ≤ 2 ^ 64) :
    (∀ i session, c.state.state.inner.sessions.get i = some session → ∃ client,
      c.state.state.inner.clients.get session.clientid = some client ∧ client.confirmed = true) ∧
    ∀ k l a b, c.state.state.inner.clients.get k = some a →
      c.state.state.inner.clients.get l = some b → a.owner.ownerid = b.owner.ownerid → k ≠ l →
      a.confirmed = true ∧ b.confirmed = false ∧ b.replacedClientid = some k ∨
      b.confirmed = true ∧ a.confirmed = false ∧ a.replacedClientid = some l := by
  have h := (hrun.restartable hv41 hbound).incarnations
  refine ⟨h.sessions, fun k l a b ha hb howner hne => ?_⟩
  cases hca : a.confirmed <;> cases hcb : b.confirmed
  · exact absurd (h.unconfirmed k l a b ha hb howner hca hcb) hne
  · exact .inr ⟨rfl, rfl, h.replaces k l a b ha hb howner hca hcb⟩
  · exact .inl ⟨rfl, rfl, h.replaces l k b a hb ha howner.symm hcb hca⟩
  · exact absurd (h.confirmed k l a b ha hb howner hca hcb) hne

/-! ## Sections in turn -/

section

variable {cs : List Section} (s : Server Unit) (t : Nat)

theorem introduces_sectionEvents (hcs : ∀ c ∈ cs, c.introduces = false) :
    ∀ e ∈ s.sectionEvents t cs, e.call.introduces = false := by
  induction cs generalizing s t with
  | nil => exact fun e he => by cases he
  | cons c cs ih =>
    intro e he
    rcases List.mem_cons.mp he with rfl | he
    · exact hcs c (by simp)
    · exact ih _ _ (fun c' hc' => hcs c' (List.mem_cons_of_mem c hc')) e he

theorem enrolments_sectionEvents : enrolments (s.sectionEvents t cs) = cs.countP Section.enrols := by
  induction cs generalizing s t with
  | nil => rfl
  | cons c cs ih =>
    have hcons : enrolments (s.sectionEvents t (c :: cs)) =
        enrolments ((s.afterSection c).sectionEvents (t + 1) cs) +
          if c.enrols = true then 1 else 0 := by
      show List.countP _ (_ :: _) = _
      rw [List.countP_cons]
      congr 2
      cases c <;> rfl
    rw [hcons, ih, List.countP_cons]

end

namespace Scripted

/-- The first client introduces itself with a new verifier. -/
def again : Section := .exchangeId ⟨⟨2, [1]⟩, .none⟩

/-- The first client has a session and comes back. -/
def comeback : List Section := sessionSetUp ++ [again]

end Scripted

open Scripted

/-- The first record goes when the second one gets its session. -/
theorem client_restart_comeback :
    let s := comeback.foldl Server.afterSection (Server.new Unit .fixed)
    (s.afterSection (.createSession (sessionArgs 2 1) 0)).state.inner.Without 1 := by
  intro s
  let last : Section := .createSession (sessionArgs 2 1) 0
  have hrun : (Server.system Backend.single).Run _ _ _ :=
    Server.sections_run () (comeback ++ [last]) (Server.new Unit .fixed) []
  have hv41 := introduces_sectionEvents (Server.new Unit .fixed) 0
    (show ∀ c ∈ comeback ++ [last], c.introduces = false by decide)
  have hcount : enrolments ((Server.new Unit .fixed).sectionEvents 0 (comeback ++ [last])) ≤
      2 ^ 64 := by
    rw [enrolments_sectionEvents]
    decide
  obtain ⟨-, hcreate, -⟩ := client_restart hrun hv41 hcount
  have hmem : (⟨3, s, .guarded last, (s.state.runSection last).1, s.afterSection last⟩ :
      ServerEvent Unit) ∈
        (Server.new Unit .fixed).sectionEvents 0 (comeback ++ [last]) := by
    rw [Server.sectionEvents_append]
    exact List.mem_append_right _ (List.mem_singleton.mpr rfl)
  obtain ⟨client, hclient, hnew⟩ := (Option.any_eq_true _ _).mp
    (show (s.state.inner.clients.get 2).any (fun client =>
      client.confirmed = false ∧ client.owner.ownerid = [1]) = true by decide +kernel)
  obtain ⟨old, hl, hold⟩ := (Option.any_eq_true _ _).mp
    (show (s.state.inner.clients.get 1).any (fun client =>
      client.confirmed = true ∧ client.owner.ownerid = [1]) = true by decide +kernel)
  obtain ⟨hunconfirmed, howner⟩ := of_decide_eq_true hnew
  obtain ⟨hconfirmed, howner'⟩ := of_decide_eq_true hold
  refine hcreate _ hmem (sessionArgs 2 1) 0 rfl ?_ client 1 old hclient hunconfirmed hl hconfirmed
    (howner'.trans howner.symm)
  show Call.issues (H := Unit) (.guarded last) (s.state.runSection last).1 ≠ none
  decide +kernel

theorem owner_records_comeback :
    let s := (comeback.foldl Server.afterSection (Server.new Unit .fixed)).state.inner
    ∃ a b, s.clients.get 1 = some a ∧ s.clients.get 2 = some b ∧
      (a.confirmed = true ∧ b.confirmed = false ∧ b.replacedClientid = some 1 ∨
        b.confirmed = true ∧ a.confirmed = false ∧ a.replacedClientid = some 2) := by
  intro s
  have hrun : (Server.system Backend.single).Run _ _ _ :=
    Server.sections_run () comeback (Server.new Unit .fixed) []
  have hrecords := owner_records hrun
    (introduces_sectionEvents _ 0 (show ∀ c ∈ comeback, c.introduces = false by decide))
    (by rw [enrolments_sectionEvents]; decide)
  obtain ⟨a, ha, howner⟩ := Option.map_eq_some_iff.mp
    (show (s.clients.get 1).map (·.owner.ownerid) = some [1] by decide +kernel)
  obtain ⟨b, hb, howner'⟩ := Option.map_eq_some_iff.mp
    (show (s.clients.get 2).map (·.owner.ownerid) = some [1] by decide +kernel)
  exact ⟨a, b, ha, hb, hrecords.2 1 2 a b ha hb (howner.trans howner'.symm) (by decide)⟩

/-- The sections after which `n` instances of the second client have introduced themselves. -/
def restartSections (n : Nat) : List Section := sessionSetUp ++ (List.range n).map restart

/-- The server after them. -/
def restartServer (n : Nat) : Server Unit :=
  (restartSections n).foldl Server.afterSection (Server.new Unit .fixed)

theorem restartServer_succ (n : Nat) :
    restartServer (n + 1) = (restartServer n).afterSection (restart n) := by
  simp only [restartServer, restartSections, List.range_succ, List.map_append, List.foldl_append,
    List.map_cons, List.map_nil, List.foldl_cons, List.foldl_nil]

theorem restartServer_restarted {n : Nat} (hn : n ≤ 2 ^ 64) :
    Restarted n (restartServer n).state := by
  have h := Restarted.restarts n hn Restarted.set_up
  rwa [← List.foldl_append] at h

theorem restartServer_restartable {n : Nat} (hn : n < 2 ^ 64) :
    ∃ tr : Trace Unit, enrolments tr = 1 + n ∧ Restartable tr (restartServer n).state := by
  have hrun : (Server.system Backend.single).Run _ _ _ :=
    Server.sections_run () (restartSections n) (Server.new Unit .fixed) []
  have hcount : enrolments ((Server.new Unit .fixed).sectionEvents 0 (restartSections n)) =
      1 + n := by
    have hall : ((List.range n).map restart).countP Section.enrols = n := by
      rw [List.countP_map]
      exact (List.countP_eq_length.mpr fun _ _ => rfl).trans List.length_range
    rw [enrolments_sectionEvents, restartSections, List.countP_append, hall]
    rfl
  have hbound : enrolments ((Server.new Unit .fixed).sectionEvents 0 (restartSections n)) ≤
      2 ^ 64 := by omega
  have hsetUp : ∀ c ∈ sessionSetUp, c.introduces = false := by decide
  refine ⟨_, hcount, hrun.restartable (introduces_sectionEvents _ _ fun c hc => ?_) hbound⟩
  rcases List.mem_append.mp hc with hc | hc
  · exact hsetUp c hc
  · obtain ⟨k, -, rfl⟩ := List.mem_map.mp hc
    rfl

theorem afterSection_exchangeId (s : Server Unit) (owner : ClientOwner4) :
    (s.afterSection (.exchangeId ⟨owner, .none⟩)).state =
      (s.state.reapExpiredClients.exchangeIdReaped ⟨owner, .none⟩).2 := rfl

theorem restartServer_first {n : Nat} (hn : n < 2 ^ 64) :
    (∃ old, (restartServer n).state.inner.clients.get 1 = some old ∧ old.confirmed = true ∧
      old.owner = ⟨1, [1]⟩) ∧
    ∀ k client, (restartServer n).state.inner.clients.get k = some client →
      client.owner.ownerid = [1] → client.owner.verifier = 1 := by
  induction n with
  | zero =>
    have hentries : ∀ p ∈ (restartServer 0).state.inner.clients.entries,
        p.2.owner.ownerid = [1] → p.2.owner.verifier = 1 := by decide +kernel
    obtain ⟨old, hold, hp⟩ := (Option.any_eq_true _ _).mp
      (show ((restartServer 0).state.inner.clients.get 1).any (fun client =>
        client.confirmed = true ∧ client.owner = ⟨1, [1]⟩) = true by decide +kernel)
    exact ⟨⟨old, hold, of_decide_eq_true hp⟩, fun k client hk =>
      hentries (k, client) (Table.mem_entries.mpr hk)⟩
  | succ n ih =>
    obtain ⟨⟨old, hold, hconfirmed, howner⟩, halone⟩ := ih (by omega)
    obtain ⟨tr, hcount, hinv⟩ := restartServer_restartable (show n < 2 ^ 64 by omega)
    have hrestarted := restartServer_restarted (show n ≤ 2 ^ 64 by omega)
    rw [restartServer_succ, restart, afterSection_exchangeId]
    generalize (restartServer n).state = s at *
    have hsame : StateInner.SameFor 1
        (s.reapExpiredClients.exchangeIdReaped ⟨⟨BitVec.ofNat 64 n, [2]⟩, .none⟩).2.inner
        s.inner := by
      have hlease := hrestarted.active 1 old hold
      refine StateManager.exchangeId_sameFor hinv.incarnations hinv.indexed (hinv.fresh (by omega))
        ⟨⟨BitVec.ofNat 64 n, [2]⟩, .none⟩ hold hconfirmed ?_ ?_
      · rw [hrestarted.clock, StateInner.leaseExpired, hlease]
        decide
      · rw [StateInner.dropDue, hlease]
    refine ⟨⟨old, hsame.client.trans hold, hconfirmed, howner⟩, ?_⟩
    rw [hrestarted.reap]
    rcases s.exchangeIdReaped_cases ⟨⟨BitVec.ofNat 64 n, [2]⟩, .none⟩ with
      ⟨_, _, -, -, -, -, -, hs⟩ | ⟨-, -, inner, hinner, hs⟩
    · rw [hs]
      exact halone
    · rw [hs]
      intro k client hk hid
      rcases Table.of_get_insert hk with ⟨-, rfl⟩ | ⟨-, hk⟩
      · cases hid
      · rw [hinner] at hk
        exact halone k client (StateInner.of_get_dropClientStates_clients hk).2 hid

theorem restartServer_wraps {n : Nat} (hn : n + 1 = 2 ^ 64) :
    (∃ old, (restartServer n).state.inner.clients.get 1 = some old ∧ old.confirmed = true ∧
      old.owner = ⟨1, [1]⟩ ∧
      StateInner.leaseExpired (restartServer n).state.clock old = false ∧
      StateInner.dropDue (restartServer n).state.clock (restartServer n).state.inner.sessions 1
        old = false) ∧
    ∃ new, ((restartServer n).afterSection again).state.inner.clients.get 1 = some new ∧
      new.confirmed = false := by
  have hrestarted := restartServer_restarted (show n ≤ 2 ^ 64 by omega)
  obtain ⟨⟨old, hold, hconfirmed, howner⟩, halone⟩ :=
    restartServer_first (show n < 2 ^ 64 by omega)
  have hlease := hrestarted.active 1 old hold
  refine ⟨⟨old, hold, hconfirmed, howner, ?_, ?_⟩, ?_⟩
  · rw [hrestarted.clock, StateInner.leaseExpired, hlease]
    decide
  · rw [StateInner.dropDue, hlease]
  · rw [again, afterSection_exchangeId, hrestarted.reap]
    rcases (restartServer n).state.exchangeIdReaped_cases ⟨⟨2, [1]⟩, .none⟩ with
      ⟨k, client, hk, hid, hverifier, -⟩ | ⟨-, -, inner, -, hs⟩
    · have hone := halone k client hk hid
      rw [hverifier] at hone
      cases hone
    · have hnext : (restartServer n).state.nextClientid = 1 := by
        rw [hrestarted.nextClientid, show 2 + n = 1 + 2 ^ 64 by omega]
        decide
      rw [hs, hnext]
      exact ⟨_, Table.get_insert_self _ _ _, rfl⟩

/-- When the counter of client ids has come round, an EXCHANGE_ID with a new verifier takes the
place of the confirmed record. -/
theorem client_restart_wraps :
    ∃ n, (Server.system Backend.single).Run
        ⟨Server.new Unit .fixed, (restartSections n ++ [again]).map (Server.sectionThread ())⟩
        ((Server.new Unit .fixed).sectionEvents 0 (restartSections n) ++
          [⟨(restartSections n).length, restartServer n, .guarded again,
            ((restartServer n).state.runSection again).1, (restartServer n).afterSection again⟩])
        ⟨(restartServer n).afterSection again, (restartSections n ++ [again]).map fun _ => .ret ()⟩ ∧
      (∃ old, (restartServer n).state.inner.clients.get 1 = some old ∧ old.confirmed = true ∧
        old.owner = ⟨1, [1]⟩ ∧
        StateInner.leaseExpired (restartServer n).state.clock old = false ∧
        StateInner.dropDue (restartServer n).state.clock (restartServer n).state.inner.sessions 1
          old = false) ∧
      ∃ new, ((restartServer n).afterSection again).state.inner.clients.get 1 = some new ∧
        new.confirmed = false := by
  refine ⟨2 ^ 64 - 1, ?_, restartServer_wraps (by omega)⟩
  generalize 2 ^ 64 - 1 = n
  have hrun : (Server.system Backend.single).Run _ _ _ :=
    Server.sections_run () (restartSections n ++ [again]) (Server.new Unit .fixed) []
  rw [List.foldl_append, Server.sectionEvents_append, List.length_nil, Nat.zero_add] at hrun
  exact hrun

end EmbedNfs
