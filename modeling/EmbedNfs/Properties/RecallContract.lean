import EmbedNfs.Effects.Delegations
import EmbedNfs.Effects.Operations

/-!
# What a recall achieves

The contract of a request for one directory and one origin. It counts the recalls that the
request has begun on the directory. After a chosen one of them, the other threads may only take
delegations on the directory away; then a recall that has come to its end leaves none that
belongs to anybody but the origin.
-/

namespace EmbedNfs

/-! ## Delegations held by others -/

/-- A live delegation on the directory, held by somebody other than `origin`. -/
def StateInner.Held (d : ServerObject) (origin : Option Clientid4) (inner : StateInner)
    (k : StateidOther) : Prop :=
  ∃ state, inner.delegations.get k = some state ∧ state.object = d ∧
    state.status.isLive = true ∧ origin ≠ some state.clientid

theorem StateInner.Held.of_age {d : ServerObject} {origin : Option Clientid4}
    {a b : StateInner} {k : StateidOther} (h : a.Held d origin k)
    (hage : DelegationsAge a.delegations b.delegations) : b.Held d origin k := by
  obtain ⟨state, hk, hobject, hlive, horigin⟩ := h
  obtain ⟨old, hold, ha⟩ := hage k state hk
  exact ⟨old, hold, ha.object ▸ hobject, ha.live hlive, ha.clientid ▸ horigin⟩

variable {H : Type}

/-- The delegation that a call has granted: the directory and the client. -/
def Call.granted : (c : Call H) → c.Ret → Option (ServerObject × Clientid4)
  | .guarded (.grantDirectoryDelegation object clientid _ _ _), .ok (.granted _) =>
    some (object, clientid)
  | _, _ => none

/-- Whether the call begins a recall on the directory. -/
def Call.begins (d : ServerObject) : Call H → Bool
  | .guarded (.beginDirectoryRecallExcluding object _) => object = d
  | _ => false

/-- What holds in every state: exact indexes, the first sequence number in every delegation,
and no retired object. -/
structure Server.Delegating (s : Server H) : Prop where
  indexed : s.state.inner.Indexed
  first : ∀ k state, s.state.inner.delegations.get k = some state → state.stateidSeq = 1
  unretired : s.state.retiredObjects = []

theorem Server.delegating_new (boot : Boot) : (Server.new H boot).Delegating where
  indexed := StateInner.indexed_new boot
  first k state hk := by cases hk
  unretired := rfl

section

variable [DecidableEq H] {backend : Backend H} {s s' : Server H}

theorem Server.exec_held {c : Call H} {r : c.Ret} {d : ServerObject} {origin : Option Clientid4}
    (hexec : (Server.system backend).exec s c r s')
    (hgrant : ∀ clientid, c.granted r = some (d, clientid) → origin = some clientid)
    {k : StateidOther} (h : s'.state.inner.Held d origin k) : s.state.inner.Held d origin k := by
  rcases Server.exec_inner hexec with ⟨q, rfl, hs⟩ | hs
  · by_cases hq : ∃ object clientid sessionid perClient total,
        q = .grantDirectoryDelegation object clientid sessionid perClient total
    · obtain ⟨object, clientid, sessionid, perClient, total, rfl⟩ := hq
      rw [hs] at h
      have hanswer := hexec.1
      revert h
      refine StateManager.commit_keeps
        (fun s' => s'.inner.Held d origin k → s.state.inner.Held d origin k) id ?_
      intro grant s₁ hok
      rcases StateManager.grantDirectoryDelegation_ok hok with rfl | ⟨-, -, hgranted, rfl⟩
      · exact id
      · rintro ⟨state, hk, hobject, hlive, horigin⟩
        rw [Table.get_insert] at hk
        split at hk
        · -- The delegation is the new one, so it is the client's own.
          cases hk
          refine absurd (hgrant clientid ?_) horigin
          have hcommit : r = .ok (.granted ⟨1, .mint s.state.nextStateid clientid⟩) := by
            rw [hanswer, ← hgranted]
            show (s.state.commit (s.state.grantDirectoryDelegation object clientid sessionid
              perClient total)).1 = _
            rw [hok]
            rfl
          subst hcommit
          exact congrArg (fun d => some (d, clientid)) hobject
        · exact ⟨state, hk, hobject, hlive, horigin⟩
    · rw [hs] at h
      refine h.of_age (s.state.runSection_age q ?_)
      intro object clientid sessionid perClient total heq
      exact hq ⟨object, clientid, sessionid, perClient, total, heq⟩
  · rwa [hs] at h

theorem Server.Delegating.step {c : Call H} {r : c.Ret} (h : s.Delegating)
    (hexec : (Server.system backend).exec s c r s') (hc : ∀ id, c ≠ .mapOp (.retire id)) :
    s'.Delegating := by
  refine ⟨Server.exec_indexed hexec h.indexed, ?_, ?_⟩
  · rcases Server.exec_inner hexec with ⟨q, rfl, hs⟩ | hs
    · rw [hs]
      by_cases hq : ∃ object clientid sessionid perClient total,
          q = .grantDirectoryDelegation object clientid sessionid perClient total
      · obtain ⟨object, clientid, sessionid, perClient, total, rfl⟩ := hq
        refine StateManager.commit_keeps (fun s' => ∀ k state,
          s'.inner.delegations.get k = some state → state.stateidSeq = 1) h.first ?_
        intro grant s₁ hok k state hk
        rcases StateManager.grantDirectoryDelegation_ok hok with rfl | ⟨-, -, -, rfl⟩
        · exact h.first k state hk
        · rcases Table.of_get_insert hk with ⟨-, rfl⟩ | ⟨-, hk⟩
          · rfl
          · exact h.first k state hk
      · intro k state hk
        obtain ⟨old, hold, hage⟩ := s.state.runSection_age q
          (fun object clientid sessionid perClient total heq =>
            hq ⟨object, clientid, sessionid, perClient, total, heq⟩) k state hk
        rw [hage.stateidSeq]
        exact h.first k old hold
    · rw [hs]
      exact h.first
  · cases c with
    | guarded q =>
      rw [hexec.2]
      exact (s.state.runSection_sameMaps q).retiredObjects.trans h.unretired
    | mapOp q =>
      rw [hexec.2]
      refine Eq.trans ?_ h.unretired
      cases q with
      | retire id => exact absurd rfl (hc id)
      | objectToFhEntry object fh =>
        simp only [StateManager.runMapOp]
        split <;> rfl
      | fhToObjectClaim fh object =>
        simp only [StateManager.runMapOp]
        split <;> rfl
      | _ => rfl
    | _ =>
      obtain ⟨persistentFh, hs⟩ := Server.exec_other hexec (by simp) (by simp)
      rw [hs]
      exact h.unretired

theorem Server.Delegating.drift (h : s.Delegating) (hd : s.Drift s') : s'.Delegating where
  indexed := hd.state.indexed h.indexed
  first k state hk := h.first k state ((hd.state.delegations k).trans hk)
  unretired := by
    have hmem := hd.state.retiredObjects
    rw [h.unretired] at hmem
    exact List.eq_nil_iff_forall_not_mem.mpr fun id hid => by simpa using (hmem id).mp hid

end

/-! ## The contract of a request -/

/-- The contract for one directory and one origin. The phase is the number of recalls begun on
the directory. In the phase `n` the others add nothing to what is held, and a call that changes
the directory comes after a recall and finds nothing held. -/
def coherence (d : ServerObject) (origin : Option Clientid4) (n : Nat) :
    Contract (Call H) Call.Ret (Server H) Nat where
  inv := Server.Delegating
  phase m c _ := if c.begins d then m + 1 else m
  rely m s s' := 0 < m → m = n → ∀ k, s'.state.inner.Held d origin k → s.state.inner.Held d origin k
  guar m s c _ _ := ∀ ctx dirs q, c = .backend ctx origin dirs q → d ∈ dirs →
    0 < m ∧ (m = n → ∀ k, ¬s.state.inner.Held d origin k)
  rely_refl _ _ _ _ _ h := h
  rely_trans _ _ _ _ h h' hpos hm k hk := h hpos hm k (h' hpos hm k hk)

theorem le_phaseAfter (d : ServerObject) (origin : Option Clientid4) (n t m : Nat)
    (tr : Trace H) :
    m ≤ (coherence d origin n).phaseAfter t m tr := by
  induction tr generalizing m with
  | nil => exact Nat.le_refl m
  | cons e tr ih =>
    refine Nat.le_trans ?_ (ih _)
    show m ≤ if e.thread = t then (if e.call.begins d then m + 1 else m) else m
    split
    · split
      · exact Nat.le_succ m
      · exact Nat.le_refl m
    · exact Nat.le_refl m

theorem lt_phaseAfter (d : ServerObject) (origin : Option Clientid4) (n : Nat) {t : Nat} (m : Nat)
    {tr : Trace H}
    (h : ∃ b ∈ tr, b.thread = t ∧ b.call.begins d = true) :
    m < (coherence d origin n).phaseAfter t m tr := by
  obtain ⟨b, hb, ht, hbegins⟩ := h
  obtain ⟨tr₁, tr₂, rfl⟩ := List.append_of_mem hb
  let m' := (coherence d origin n).phaseAfter t m tr₁
  have hfirst : m ≤ m' := le_phaseAfter d origin n t m tr₁
  have hlast := le_phaseAfter d origin n t (m' + 1) tr₂
  rw [Contract.phaseAfter_append]
  show m < (coherence d origin n).phaseAfter t
    (if b.thread = t then (if b.call.begins d then m' + 1 else m') else m') tr₂
  rw [if_pos ht, if_pos hbegins]
  omega

/-! ## Grants and changes -/

/-- The client and the directories of a change that the backend has made. -/
def Call.applied : (c : Call H) → c.Ret → Option (Option Clientid4 × List ServerObject)
  | .backend _ origin dirs _, .ok _ => some (origin, dirs)
  | _, _ => none

theorem Call.eq_of_applied {c : Call H} {r : c.Ret} {origin : Option Clientid4}
    {dirs : List ServerObject}
    (h : c.applied r = some (origin, dirs)) : ∃ ctx q, c = .backend ctx origin dirs q := by
  cases c with
  | backend ctx origin' dirs' q =>
    cases r with
    | ok a =>
      cases h
      exact ⟨ctx, q, rfl⟩
    | error e => cases h
  | _ => cases h

/-- Whatever other threads have granted to others on the directory, the thread has begun a
recall there since. -/
def RecalledSince (d : ServerObject) (origin : Option Clientid4) (t : Nat)
    (tr : Trace H) : Prop :=
  ∀ tr₁ g tr₂, tr = tr₁ ++ g :: tr₂ → g.thread ≠ t →
    ∀ clientid, g.call.granted g.answer = some (d, clientid) → origin ≠ some clientid →
      ∃ b ∈ tr₂, b.thread = t ∧ b.call.begins d = true

/-- No change of a directory has a grant to another client between its recall and itself. -/
def GrantsApart (tr : Trace H) : Prop :=
  ∀ tr₁ e tr₂, tr = tr₁ ++ e :: tr₂ → ∀ ctx origin dirs q, e.call = .backend ctx origin dirs q →
    ∀ d ∈ dirs, RecalledSince d origin e.thread tr₁

/-- Whether a grant is to the client, and a change of a directory by it. -/
def onlyBy (clientid : Clientid4) (e : ServerEvent H) : Bool :=
  ((e.call.granted e.answer).all fun grant => grant.2 = clientid) &&
    match e.call with
    | .backend _ origin dirs _ => dirs.isEmpty || origin = some clientid
    | _ => true

theorem GrantsApart.of_onlyBy (clientid : Clientid4)
    {tr : Trace H} (h : tr.all (onlyBy clientid) = true) :
    GrantsApart tr := by
  rintro tr₁ e tr₂ rfl ctx origin dirs q hq d hd l g l' rfl _ x hg hne
  rw [List.all_eq_true] at h
  have hgrant := h g (by simp)
  have hchange := h e (by simp)
  simp only [onlyBy, hg, Option.all_some, decide_eq_true_eq, Bool.and_eq_true] at hgrant
  simp only [onlyBy, hq, Bool.and_eq_true, Bool.or_eq_true, List.isEmpty_iff,
    decide_eq_true_eq] at hchange
  rcases hchange.2 with rfl | horigin
  · cases hd
  · rw [hgrant.1] at hne
    exact absurd horigin hne

/-! ## What is left -/

/-- A recall has begun, and only delegations among the stateids can still be held. -/
def Left (d : ServerObject) (origin : Option Clientid4) (n : Nat) (stateids : List Stateid4)
    (m : Nat) (s : Server H) : Prop :=
  0 < m ∧ (m = n → ∀ k, s.state.inner.Held d origin k → ⟨1, k⟩ ∈ stateids)

/-- The calls that neither begin a recall on the directory nor grant a delegation nor change a
directory. -/
def Call.Neutral (d : ServerObject) : Call H → Prop
  | .guarded (.beginDirectoryRecallExcluding object _) => object ≠ d
  | .guarded (.grantDirectoryDelegation _ _ _ _ _) => False
  | .backend _ _ dirs _ => dirs = []
  | _ => True

theorem Call.Recalling.neutral {c : Call H} (h : c.Recalling) (d : ServerObject) :
    c.Neutral d := by
  cases c with
  | guarded q => cases q <;> first | exact True.intro | exact h.elim
  | backend ctx origin dirs q => exact h
  | _ => exact True.intro

theorem Recalling.neutral {α : Type} {p : Request H α} (h : p.All Call.Recalling)
    (d : ServerObject) : p.All (Call.Neutral d) :=
  h.mono (fun _ _ h => h) (fun _ hc => hc.neutral d) fun _ h => h

theorem Helper.neutral {α : Type} {Q : α → Prop} {p : Request H α} (h : Helper False Q p)
    (d : ServerObject) : p.All (Call.Neutral d) :=
  h.all.mono (fun _ _ h => h) (fun _ hc => hc.recalling.neutral d) fun _ h => h

section

variable {s s' : Server H} {d : ServerObject} {origin : Option Clientid4} {n m : Nat}
  {stateids : List Stateid4} {α : Type}

theorem Left.rely (h : Left d origin n stateids m s)
    (hr : (coherence d origin n).rely m s s') : Left d origin n stateids m s' :=
  ⟨h.1, fun hm k hk => h.2 hm k (hr h.1 hm k hk)⟩

/-- The answers that can come while no object is retired. -/
def Call.Unretired : (c : Call H) → c.Ret → Prop
  | .mapOp (.isRetired _), r => r = false
  | _, _ => True

theorem publishFh_some (object : ServerObject) (fh : Bytes) :
    (publishFh object fh : Request H _).Along Call.Unretired (Call.Neutral d)
      fun fh => fh.isSome = true := by
  refine ⟨True.intro, fun winner _ => ?_⟩
  cases winner with
  | some winner =>
    show Program.Along _ _ _ (if winner ≠ fh then _ else _)
    split
    · exact ⟨True.intro, fun _ _ => rfl⟩
    · exact rfl
  | none =>
    refine ⟨True.intro, fun retired hretired => ?_⟩
    rw [show retired = false from hretired]
    exact rfl

theorem objectToFh_some (object : ServerObject) :
    (objectToFh object : Request H _).Along Call.Unretired (Call.Neutral d)
      fun fh => fh.isSome = true := by
  refine ⟨True.intro, fun fh _ => ?_⟩
  cases fh with
  | some fh => exact rfl
  | none =>
    refine ⟨True.intro, fun retired hretired => ?_⟩
    rw [show retired = false from hretired]
    show Program.Along _ _ _ (claimPersistentFh object >>= _)
    have hclaim : (claimPersistentFh object : Request H _).Along Call.Unretired (Call.Neutral d)
        fun _ => True :=
      ((claimPersistentFh_helper object).neutral d).mono (fun _ _ _ => True.intro)
        (fun _ h => h) fun _ h => h
    refine Program.Along.bind hclaim fun claimed _ => ?_
    cases claimed with
    | some fh => exact publishFh_some object fh
    | none => exact ⟨True.intro, fun fh _ => ⟨True.intro, fun _ _ => publishFh_some object fh⟩⟩

variable [DecidableEq H] {backend : Backend H}

theorem Left.neutral {c : Call H} {r : c.Ret} (h : Left d origin n stateids m s)
    (hc : c.Neutral d) (hexec : (Server.system backend).exec s c r s') :
    (coherence d origin n).guar m s c r s' ∧
      Left d origin n stateids ((coherence d origin n).phase m c r) s' := by
  have hphase : c.begins d = false := by
    cases c with
    | guarded q => cases q <;> first | rfl | exact decide_eq_false hc
    | _ => rfl
  have hgrant : ∀ clientid, c.granted r = some (d, clientid) → origin = some clientid := by
    intro clientid hg
    cases c with
    | guarded q => cases q <;> first | cases hg | exact hc.elim
    | _ => cases hg
  refine ⟨?_, ?_⟩
  · rintro ctx dirs q rfl hd
    rw [show dirs = [] from hc] at hd
    cases hd
  · show Left d origin n stateids (if c.begins d then m + 1 else m) s'
    rw [hphase, if_neg (by simp)]
    exact ⟨h.1, fun hm k hk => h.2 hm k (Server.exec_held hexec hgrant hk)⟩

theorem Left.safe {p : Request H α} (h : Left d origin n stateids m s)
    (hp : p.All (Call.Neutral d)) :
    (coherence d origin n).Safe (Server.system backend)
      (fun m _ s => Left d origin n stateids m s) m p s :=
  (Contract.Safe.along hp (fun _ _ _ _ _ _ => True.intro) (fun _ _ _ => Left.rely)
    (fun _ _ _ _ _ hc _ h hexec => h.neutral hc hexec) h).mono fun _ _ _ _ h => h.2

theorem safe_guarded (q : Section) :
    (coherence d origin n).Safe (Server.system backend) (fun _ _ _ => True) m
      (guarded q : Request H _) s :=
  fun _ _ _ _ _ _ _ => ⟨fun _ _ _ heq => (nomatch heq), fun _ _ _ => True.intro⟩

theorem safe_of_operational {p : Request H α} (hp : p.All Call.Operational) :
    (coherence d origin n).Safe (Server.system backend) (fun _ _ _ => True) m p s := by
  refine (Contract.Safe.along (J := fun _ _ => True) hp (fun _ _ _ _ _ _ => True.intro)
    (fun _ _ _ _ _ => True.intro) ?_ True.intro).mono fun _ _ _ _ h => h.2
  intro m s c r s' hc _ _ _
  refine ⟨?_, True.intro⟩
  rintro ctx dirs q rfl hd
  rw [show dirs = [] from hc] at hd
  cases hd

/-! ## Recalls -/

theorem mem_recalls_of_held {recalls : List DirectoryDelegationRecall} {k : StateidOther}
    (h : s.Delegating) (hexec : (Server.system backend).exec s
      (.guarded (.beginDirectoryRecallExcluding d origin)) recalls s')
    (hheld : s.state.inner.Held d origin k) : ⟨1, k⟩ ∈ recalls.map (·.stateid) := by
  obtain ⟨state, hget, rfl, hlive, horigin⟩ := hheld
  obtain ⟨recalled, hmem, hid⟩ := StateManager.exists_mem_beginRecalls s.state.clock
    (h.indexed.byObject k state hget) hget hlive horigin
  rw [h.first k state hget] at hid
  rw [show recalls = _ from hexec.1]
  exact List.mem_map.mpr ⟨recalled, hmem, hid⟩

theorem begin_left {recalls : List DirectoryDelegationRecall} (h : s.Delegating)
    (hexec : (Server.system backend).exec s
      (.guarded (.beginDirectoryRecallExcluding d origin)) recalls s') :
    Left d origin n (recalls.map (·.stateid)) (m + 1) s' := by
  refine ⟨Nat.succ_pos m, fun _ k hk => ?_⟩
  exact mem_recalls_of_held h hexec (Server.exec_held hexec nofun hk)

theorem stillOutstanding_safe (outstanding kept : List Stateid4)
    (h : Left d origin n (outstanding ++ kept) m s) :
    (coherence d origin n).Safe (Server.system backend)
      (fun m remaining s => Left d origin n (remaining ++ kept) m s) m
      (stillOutstanding outstanding) s := by
  induction outstanding generalizing kept m s with
  | nil => exact fun s' _ hr => h.rely hr
  | cons stateid rest ih =>
    intro s₁ _ hr complete s₂ hexec _
    have h₁ := h.rely hr
    obtain ⟨hguar, h₂⟩ := h₁.neutral (c := .guarded (.delegationRecallComplete stateid))
      True.intro hexec
    refine ⟨hguar, ?_⟩
    show (coherence d origin n).Safe (Server.system backend) _ m
      (stillOutstanding rest >>= fun remaining =>
        return if complete then remaining else stateid :: remaining) s₂
    refine Contract.Safe.bind ?_
    cases complete with
    | false =>
      have hmove : Left d origin n (rest ++ stateid :: kept) m s₂ := by
        refine ⟨h₂.1, fun hm k hk => ?_⟩
        have := h₂.2 hm k hk
        simp only [List.cons_append, List.mem_cons, List.mem_append] at this ⊢
        tauto
      refine (ih (stateid :: kept) hmove).mono fun m remaining s _ hleft => ?_
      intro s' _ hr'
      refine Left.rely ⟨hleft.1, fun hm k hk => ?_⟩ hr'
      have := hleft.2 hm k hk
      simp only [List.cons_append, List.mem_cons, List.mem_append, Bool.false_eq_true,
        ↓reduceIte] at this ⊢
      tauto
    | true =>
      have hdone : Left d origin n (rest ++ kept) m s₂ := by
        refine ⟨h₂.1, fun hm k hk => ?_⟩
        rcases List.mem_cons.mp (h₂.2 hm k hk) with heq | hmem
        · -- The delegation was not live when it was looked at.
          exfalso
          obtain ⟨state, hget, -, hlive, -⟩ := hk
          obtain ⟨hcomplete, hs₂⟩ := hexec
          rw [hs₂] at hget
          have hget' : s₁.state.inner.delegations.get stateid.other = some state := heq ▸ hget
          have hanswer : s₁.state.delegationRecallComplete stateid = true := hcomplete.symm
          simp [StateManager.delegationRecallComplete, hget', hlive] at hanswer
        · exact hmem
      refine (ih kept hdone).mono fun m remaining s _ hleft => ?_
      exact fun s' _ hr' => hleft.rely hr'

theorem revoke_left {stateid : Stateid4} {rest : List Stateid4} {r : Except NfsStat4 Unit}
    (hinv : s.Delegating) (h : Left d origin n (stateid :: rest) m s)
    (hexec : (Server.system backend).exec s
      (.guarded (.revokeRecallableDelegation stateid)) r s') : Left d origin n rest m s' := by
  have hneutral := (h.neutral (c := .guarded (.revokeRecallableDelegation stateid))
    True.intro hexec).2
  refine ⟨hneutral.1, fun hm k hk => ?_⟩
  rcases List.mem_cons.mp (hneutral.2 hm k hk) with heq | hmem
  · exfalso
    subst heq
    obtain ⟨state, hget, -, hlive, -⟩ := hk
    obtain ⟨-, rfl⟩ := hexec
    have hrevoked := StateManager.revokeRecallableDelegation_dead ⟨1, k⟩ (hinv.first k) hget
    rw [hrevoked] at hlive
    cases hlive
  · exact hmem

theorem reapThen_revoke_safe {stateid : Stateid4} {rest : List Stateid4}
    (h : Left d origin n (stateid :: rest) m s) :
    (coherence d origin n).Safe (Server.system backend)
      (fun m _ s => Left d origin n rest m s) m
      (discard (reapThen (.revokeRecallableDelegation stateid))) s := by
  intro s₁ _ hr _ s₂ hexec _
  obtain ⟨hguar, h₂⟩ := (h.rely hr).neutral (c := .guarded .reapExpiredClients) True.intro hexec
  refine ⟨hguar, fun s₃ hinv hr' r s₄ hexec' _ => ?_⟩
  have h₃ := h₂.rely hr'
  exact ⟨(h₃.neutral (c := .guarded (.revokeRecallableDelegation stateid)) True.intro hexec').1,
    fun s' _ hr'' => (revoke_left hinv h₃ hexec').rely hr''⟩

theorem revokeAll_safe {remaining : List Stateid4} (h : Left d origin n remaining m s) :
    (coherence d origin n).Safe (Server.system backend) (fun m _ s => Left d origin n [] m s) m
      (revokeAll remaining) s :=
  Contract.Safe.each (fun remaining m s => Left d origin n remaining m s)
    (fun _ _ _ => Left.rely) (fun _ _ _ _ => reapThen_revoke_safe) h

theorem poll_safe {outstanding : List Stateid4} {next : Instant → List Stateid4 → Request H Unit}
    (hnext : ∀ now remaining m s, Left d origin n remaining m s →
      (coherence d origin n).Safe (Server.system backend) (fun m _ s => Left d origin n [] m s) m
        (next now remaining) s) (h : Left d origin n outstanding m s) :
    (coherence d origin n).Safe (Server.system backend) (fun m _ s => Left d origin n [] m s) m
      (do
        let remaining ← stillOutstanding outstanding
        if remaining.isEmpty then return ()
        let now ← Program.perform Call.now
        next now remaining) s := by
  refine Contract.Safe.bind ((stillOutstanding_safe outstanding [] (by simpa using h)).mono ?_)
  intro m remaining s _ hleft
  rw [List.append_nil] at hleft
  split
  · rename_i hempty
    rw [List.isEmpty_iff.mp hempty] at hleft
    exact fun s' _ hr => hleft.rely hr
  · intro s₁ _ hr now s₂ hexec _
    obtain ⟨hguar, h₂⟩ := (hleft.rely hr).neutral (c := .now) True.intro hexec
    exact ⟨hguar, hnext now remaining _ _ h₂⟩

theorem pollRecalled_safe (deadline : Instant) (fuel : Nat) {outstanding : List Stateid4}
    (h : Left d origin n outstanding m s) :
    (coherence d origin n).Safe (Server.system backend) (fun m _ s => Left d origin n [] m s) m
      (pollRecalled deadline fuel outstanding) s := by
  induction fuel generalizing outstanding m s with
  | zero => exact poll_safe (fun _ _ _ _ => revokeAll_safe) h
  | succ fuel ih =>
    refine poll_safe (fun now remaining m s h => ?_) h
    split
    · exact revokeAll_safe h
    · exact ih h

theorem Server.Delegating.answer {c : Call H} {r : c.Ret} (h : s.Delegating)
    (hexec : (Server.system backend).exec s c r s') : c.Unretired r := by
  cases c with
  | mapOp q =>
    cases q with
    | isRetired object =>
      obtain ⟨hr, -⟩ := hexec
      rw [show r = s.state.isRetired object from hr]
      show s.state.isRetired object = false
      rw [StateManager.isRetired, h.unretired]
      rfl
    | _ => exact True.intro
  | _ => exact True.intro

/-- **Recall.** After a recall on the directory nothing is left there. -/
theorem recallDirectoryDelegations_safe {config : DelegationConfig}
    (henabled : config.directoryDelegations = true) :
    (coherence d origin n).Safe (Server.system backend) (fun m _ s => Left d origin n [] m s) m
      (recallDirectoryDelegations config d origin) s := by
  unfold recallDirectoryDelegations
  rw [if_pos henabled]
  intro s₁ _ _ _ s₂ _ _
  refine ⟨(fun _ _ _ hq => nomatch hq), fun s₃ hinv _ recalls s₄ hexec _ => ?_⟩
  refine ⟨(fun _ _ _ hq => nomatch hq), ?_⟩
  have hphase : ∀ m', (coherence d origin n).phase m'
      (.guarded (.beginDirectoryRecallExcluding d origin)) recalls = m' + 1 := by
    intro m'
    show (if decide (d = d) then m' + 1 else m') = m' + 1
    simp
  rw [hphase]
  have hleft : ∀ m', Left d origin n (recalls.map (·.stateid)) (m' + 1) s₄ :=
    fun _ => begin_left hinv hexec
  generalize (coherence d origin n).phase m _ _ = m'
  show (coherence d origin n).Safe (Server.system backend) _ (m' + 1)
    (if recalls.isEmpty then _ else _) s₄
  split
  · rename_i hempty
    have h := hleft m'
    rw [List.isEmpty_iff.mp hempty] at h
    exact fun s' _ hr => h.rely hr
  · refine Contract.Safe.bind ((Contract.Safe.along (objectToFh_some d)
      (fun _ _ _ _ h hexec => Server.Delegating.answer h hexec) (fun _ _ _ => Left.rely)
      (fun _ _ _ _ _ hc _ h hexec => h.neutral hc hexec) (hleft m')).mono ?_)
    rintro m fh s - ⟨hsome, h⟩
    obtain ⟨fh, rfl⟩ := Option.isSome_iff_exists.mp hsome
    refine Contract.Safe.bind
      ((h.safe (Recalling.neutral (sendRecalls_recalling fh recalls) d)).mono ?_)
    intro m _ s _ h s₅ _ hr now s₆ hexec' _
    obtain ⟨hguar, h₆⟩ := (h.rely hr).neutral (c := .now) True.intro hexec'
    exact ⟨hguar, pollRecalled_safe _ _ h₆⟩

end

end EmbedNfs
