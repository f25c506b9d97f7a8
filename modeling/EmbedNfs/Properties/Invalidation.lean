import EmbedNfs.Effects.Helpers
import EmbedNfs.Properties.ObjectSweep
import EmbedNfs.Properties.Restart

/-!
# Invalidation is exact and idempotent

With calls on the state manager made one at a time, every object's filehandle leads back to the
object, until the counter of filehandles comes round: a number that is taken a second time is taken
from the object that had it. Up to then `invalidate_objects` does exactly what it should, and doing
it again does nothing.
-/

namespace EmbedNfs

/-! ## Calls made one at a time -/

/-- A call on the state manager. Those that reap expired clients first are two of these. -/
inductive ManagerCall where
  | guarded (c : Section)
  | objectToFh (object : ServerObject)
  | fhToObject (fh : Bytes)
  | markRetired (ids : List ObjectId)
  | invalidateObjects (ids : List ObjectId)
  | allocConnectionId

section

variable {H : Type}

/-- The call as a program, for a filehandle map with the given number of shards. -/
def ManagerCall.program (shards : Nat) : ManagerCall → Request H Unit
  | .guarded c => EmbedNfs.guarded c >>= fun _ => .ret ()
  | .objectToFh object => EmbedNfs.objectToFh object >>= fun _ => .ret ()
  | .fhToObject fh => mapOp (.fhToObject fh) >>= fun _ => .ret ()
  | .markRetired ids => EmbedNfs.markRetired ids
  | .invalidateObjects ids => EmbedNfs.invalidateObjects shards ids >>= fun _ => .ret ()
  | .allocConnectionId => mapOp .allocConnectionId >>= fun _ => .ret ()

/-- The states that calls made one at a time lead to, with the steps taken. Between two calls time
passes, and iteration orders may change; calls of the server that are not on the state manager are
single steps. -/
inductive Server.OneByOne [DecidableEq H] (backend : Backend H) (boot : Boot) :
    Trace H → Server H → Prop where
  | new : OneByOne backend boot [] (Server.new H boot)
  | drift {tr : Trace H} {s s' : Server H} (h : OneByOne backend boot tr s) (hdrift : s.Drift s') :
      OneByOne backend boot tr s'
  | manager {tr : Trace H} {s s' : Server H} (h : OneByOne backend boot tr s) (q : ManagerCall)
      (halone : Request.alone (q.program (s.state.fhShardMask + 1)) s = some ((), s')) :
      OneByOne backend boot (tr ++ Request.events (q.program (s.state.fhShardMask + 1)) s) s'
  | other {tr : Trace H} {s s' : Server H} (h : OneByOne backend boot tr s) (c : Call H) (r : c.Ret)
      (hguarded : ∀ q, c ≠ .guarded q) (hmapOp : ∀ q, c ≠ .mapOp q)
      (hexec : (Server.system backend).exec s c r s') :
      OneByOne backend boot (tr ++ [⟨0, s, c, r, s'⟩]) s'

theorem Server.OneByOne.run [DecidableEq H] {backend : Backend H} {boot : Boot} {tr : Trace H}
    {s : Server H} (h : Server.OneByOne backend boot tr s) :
    ∃ p : Request H Unit,
      (Server.system backend).Run ⟨Server.new H boot, [p]⟩ tr ⟨s, [.ret ()]⟩ := by
  induction h with
  | new => exact ⟨.ret (), .nil _⟩
  | drift _ hdrift ih =>
    obtain ⟨p, hrun⟩ := ih
    exact ⟨p, .env hrun hdrift⟩
  | manager _ q halone ih =>
    obtain ⟨p, hrun⟩ := ih
    exact ⟨_, (hrun.bind_single fun _ => q.program _).trans (Request.alone_run halone)⟩
  | other _ c r _ _ hexec ih =>
    obtain ⟨p, hrun⟩ := ih
    have hthread : [Program.call c fun _ => Program.ret ()][0]? =
        some (Program.call (R := Call.Ret) c fun _ => Program.ret ()) := rfl
    exact ⟨_, (hrun.bind_single fun _ => .call c fun _ => .ret ()).step hthread hexec⟩

/-! ## Filehandles -/

/-- The call takes a number from the counter of filehandles. -/
def Call.mintsFh : Call H → Bool
  | .mapOp .nextBootFh => true
  | _ => false

theorem Call.mintsFh_mapOp (q : MapOp) (hq : q ≠ .nextBootFh) :
    (Call.mapOp q : Call H).mintsFh = false := by
  cases q with
  | nextBootFh => exact absurd rfl hq
  | _ => rfl

/-- The number of boot-scoped filehandles minted. -/
def filehandlesMinted (tr : Trace H) : Nat := tr.countP fun e => e.call.mintsFh

theorem filehandlesMinted_append (tr tr' : Trace H) :
    filehandlesMinted (tr ++ tr') = filehandlesMinted tr + filehandlesMinted tr' :=
  List.countP_append

theorem filehandlesMinted_eq_zero {tr : Trace H} (h : ∀ e ∈ tr, e.call.mintsFh = false) :
    filehandlesMinted tr = 0 :=
  List.countP_eq_zero.mpr fun e he => by simp [h e he]

theorem stateidsIssued_events {α : Type} {p : Request H α} (h : p.All fun c => ∃ q, c = .mapOp q)
    (s : Server H) : stateidsIssued (Request.events p s) = 0 := by
  induction p generalizing s with
  | ret a => rfl
  | call c k ih =>
    obtain ⟨q, rfl⟩ := h.1
    have hsame : takesStateid (⟨0, s, .mapOp q, (s.state.runMapOp q).1,
        { s with state := (s.state.runMapOp q).2 }⟩ : ServerEvent H) =
          false := by
      simp [takesStateid, s.state.runMapOp_nextStateid q]
    show stateidsIssued (_ :: _) = 0
    rw [stateidsIssued, List.countP_cons_of_neg (by rw [hsame]; exact Bool.false_ne_true)]
    exact ih _ (h.2 _ trivial) _

theorem markRetired_mintsFh (ids : List ObjectId) :
    (markRetired ids : Request H Unit).All fun c => c.mintsFh = false :=
  .each fun _ _ => ⟨rfl, fun _ _ => trivial⟩

theorem collectStale_mintsFh (ids : List ObjectId) (shards : List Nat) :
    (collectStale ids shards : Request H _).All fun c => c.mintsFh = false := by
  induction shards with
  | nil => trivial
  | cons shard shards ih => exact ⟨rfl, fun _ _ => ih.bind fun _ => trivial⟩

theorem invalidateObjects_mintsFh (shards : Nat) (ids : List ObjectId) :
    (invalidateObjects shards ids : Request H _).All fun c => c.mintsFh = false := by
  unfold invalidateObjects
  split
  · trivial
  · refine (markRetired_mintsFh ids).bind fun _ => ?_
    refine (collectStale_mintsFh ids _).bind fun stale => ?_
    refine .bind (.each fun _ _ => ⟨rfl, fun _ _ => ⟨rfl, fun _ _ => trivial⟩⟩) fun _ => ?_
    refine .bind (.each fun _ _ => ⟨rfl, fun _ _ => trivial⟩) fun _ => ?_
    exact ⟨rfl, fun _ _ => trivial⟩

theorem ManagerCall.minted_eq_zero {q : ManagerCall} (hq : ∀ object, q ≠ .objectToFh object)
    (shards : Nat) (s : Server H) :
    filehandlesMinted (Request.events (q.program shards) s) = 0 := by
  have hall : (q.program shards : Request H Unit).All fun c => c.mintsFh = false := by
    cases q with
    | guarded c => exact ⟨rfl, fun _ _ => trivial⟩
    | objectToFh object => exact absurd rfl (hq object)
    | fhToObject fh => exact ⟨rfl, fun _ _ => trivial⟩
    | markRetired ids => exact markRetired_mintsFh ids
    | invalidateObjects ids => exact (invalidateObjects_mintsFh shards ids).bind fun _ => trivial
    | allocConnectionId => exact ⟨rfl, fun _ _ => trivial⟩
  exact filehandlesMinted_eq_zero (Request.forall_events hall s)

/-- What minting does to the filehandle maps, and how many numbers it takes. -/
inductive MintStep (object : ServerObject) (s s' : StateManager) : Nat → Prop where
  | none (hdone : s.objectToFh.get object ≠ none ∨ s.isRetired object = true) (hs : s' = s) :
      MintStep object s s' 0
  | claim (id : ObjectId) (fh : Bytes) (hrecorded : s.persistentFh.get id = some fh)
      (hunclaimed : s.fhToObject.get fh = some object ∧ s'.fhToObject = s.fhToObject ∨
        s.fhToObject.get fh = none ∧ s'.fhToObject = s.fhToObject.insert fh object)
      (hobject : s'.objectToFh = s.objectToFh.insert object fh) (hnext : s'.nextFh = s.nextFh)
      (hnonce : s'.fhBootNonce = s.fhBootNonce) : MintStep object s s' 0
  | boot (hs : s' = { s with
      nextFh := s.nextFh + 1
      fhToObject := s.fhToObject.insert (s.bootFh s.nextFh) object
      objectToFh := s.objectToFh.insert object (s.bootFh s.nextFh) }) : MintStep object s s' 1

/-- What `object_to_fh` returned is the object's filehandle, the one it had if it had one, and no
encoding was recorded. -/
structure NamesObject (object : ServerObject) (r : Option Bytes) (s s' : StateManager) : Prop where
  named : ∀ fh, r = some fh → s'.objectToFh.get object = some fh
  persistent : s'.persistentFh = s.persistentFh
  same : s.objectToFh.get object ≠ none → s' = s

theorem alone_publishFh {object : ServerObject} {s : Server H}
    (hget : s.state.objectToFh.get object = none) (hretired : s.state.isRetired object = false)
    (fh : Bytes) : Request.alone (publishFh object fh) s = some (some fh, { s with
      state.objectToFh := s.state.objectToFh.insert object fh }) := by
  unfold publishFh
  rw [Request.alone_mapOp]
  simp only [StateManager.runMapOp, hget]
  rw [Request.alone_mapOp]
  have hretired' : ({ s.state with objectToFh := s.state.objectToFh.insert object fh }).isRetired
    object = false := hretired
  simp only [StateManager.runMapOp, hretired']
  rfl

theorem alone_claimPersistentFh (object : ServerObject) (s : Server H) :
    Request.alone (claimPersistentFh object) s = some (none, s) ∨
    ∃ id fh, s.state.persistentFh.get id = some fh ∧
      (s.state.fhToObject.get fh = some object ∧
        Request.alone (claimPersistentFh object) s = some (some fh, s) ∨
      s.state.fhToObject.get fh = none ∧
        Request.alone (claimPersistentFh object) s = some (some fh, { s with
          state.fhToObject := s.state.fhToObject.insert fh object })) := by
  cases object with
  | fs id =>
    cases hrecorded : s.state.persistentFh.get id with
    | none =>
      refine Or.inl ?_
      unfold claimPersistentFh
      rw [Request.alone_mapOp]
      simp only [StateManager.runMapOp, hrecorded]
      rfl
    | some fh =>
      have hclaim : Request.alone (claimPersistentFh (.fs id)) s =
          Request.alone (if (s.state.runMapOp (.fhToObjectClaim fh (.fs id))).1 = true then
            pure (some fh) else pure none)
            { s with state := (s.state.runMapOp (.fhToObjectClaim fh (.fs id))).2 } := by
        unfold claimPersistentFh
        rw [Request.alone_mapOp]
        simp only [StateManager.runMapOp, hrecorded]
        rfl
      cases hholder : s.state.fhToObject.get fh with
      | none =>
        refine Or.inr ⟨id, fh, hrecorded, Or.inr ⟨hholder, ?_⟩⟩
        rw [hclaim]
        simp only [StateManager.runMapOp, hholder]
        rfl
      | some holder =>
        by_cases heq : holder = .fs id
        · subst heq
          refine Or.inr ⟨id, fh, hrecorded, Or.inl ⟨hholder, ?_⟩⟩
          rw [hclaim]
          simp only [StateManager.runMapOp, hholder, decide_true]
          rfl
        · refine Or.inl ?_
          rw [hclaim]
          simp only [StateManager.runMapOp, hholder, heq, decide_false]
          rfl
  | _ => exact Or.inl rfl

theorem alone_mintFh {object : ServerObject} {s : Server H}
    (hget : s.state.objectToFh.get object = none) (hretired : s.state.isRetired object = false) :
    ∃ r s', Request.alone (mintFh object) s = some (r, s') ∧
      MintStep object s.state s'.state (filehandlesMinted (Request.events (mintFh object) s)) ∧
      NamesObject object r s.state s'.state := by
  have hnamed : ∀ (fh : Bytes) (objects : Table ServerObject Bytes) (fh' : Bytes),
      some fh = some fh' → (objects.insert object fh).get object = some fh' := by
    intro fh objects fh' h
    rw [Table.get_insert_self, h]
  have hnone : ∀ fh s, filehandlesMinted (Request.events (publishFh (H := H) object fh) s) = 0 :=
    fun fh s => filehandlesMinted_eq_zero
      (Request.forall_events (P := fun c => c.mintsFh = false)
        (publishFh_all Call.mintsFh_mapOp object fh) s)
  have hclaimNone : filehandlesMinted (Request.events (claimPersistentFh (H := H) object) s) = 0 :=
    filehandlesMinted_eq_zero
      (Request.forall_events (P := fun c => c.mintsFh = false)
        (claimPersistentFh_all Call.mintsFh_mapOp object) s)
  unfold mintFh
  rcases alone_claimPersistentFh object s with
    hclaim | ⟨id, fh, hrecorded, ⟨hfh, hclaim⟩ | ⟨hfh, hclaim⟩⟩
  · rw [Request.alone_bind_of_eq hclaim, Request.events_bind_of_eq hclaim,
      filehandlesMinted_append, hclaimNone]
    have hminted : filehandlesMinted (Request.events (mapOp .nextBootFh >>= fun fh =>
        mapOp (.fhToObjectInsert fh object) >>= fun _ => publishFh object fh) s) = 1 := by
      rw [Request.events_mapOp, Request.events_mapOp, filehandlesMinted,
        List.countP_cons_of_pos rfl, List.countP_cons_of_neg Bool.false_ne_true]
      exact congrArg (· + 1) (hnone _ _)
    simp only [Option.elim_none, hminted]
    exact ⟨_, _, alone_publishFh (s := { s with
      state.nextFh := s.state.nextFh + 1
      state.fhToObject := s.state.fhToObject.insert (s.state.bootFh s.state.nextFh) object })
      hget hretired _, .boot rfl, hnamed _ _, rfl, fun h => absurd hget h⟩
  · rw [Request.alone_bind_of_eq hclaim, Request.events_bind_of_eq hclaim,
      filehandlesMinted_append, hclaimNone]
    simp only [Option.elim_some, hnone]
    exact ⟨_, _, alone_publishFh hget hretired fh,
      .claim id fh hrecorded (Or.inl ⟨hfh, rfl⟩) rfl rfl rfl, hnamed _ _, rfl, fun h => absurd hget h⟩
  · rw [Request.alone_bind_of_eq hclaim, Request.events_bind_of_eq hclaim,
      filehandlesMinted_append, hclaimNone]
    simp only [Option.elim_some, hnone]
    exact ⟨_, _, alone_publishFh (s := { s with
      state.fhToObject := s.state.fhToObject.insert fh object }) hget hretired fh,
      .claim id fh hrecorded (Or.inr ⟨hfh, rfl⟩) rfl rfl rfl, hnamed _ _, rfl, fun h => absurd hget h⟩

/-- **What `object_to_fh` does alone.** -/
theorem alone_objectToFh (object : ServerObject) (s : Server H) :
    ∃ r s', Request.alone (objectToFh object) s = some (r, s') ∧
      MintStep object s.state s'.state
        (filehandlesMinted (Request.events (objectToFh object) s)) ∧
      NamesObject object r s.state s'.state := by
  have hrest : ∀ retired : Bool, s.state.isRetired object = retired →
      s.state.objectToFh.get object = none →
        let rest : Request H (Option Bytes) := if retired then .ret none else mintFh object
        ∃ r s', Request.alone rest s = some (r, s') ∧
          MintStep object s.state s'.state (filehandlesMinted (Request.events rest s)) ∧
          NamesObject object r s.state s'.state := by
    intro retired hretired hget
    cases retired with
    | true => exact ⟨_, _, rfl, .none (Or.inr hretired) rfl, nofun, rfl,
        fun _ => rfl⟩
    | false => exact alone_mintFh hget hretired
  rw [objectToFh_eq, Request.alone_mapOp, Request.events_mapOp, filehandlesMinted,
    List.countP_cons_of_neg Bool.false_ne_true]
  simp only [StateManager.runMapOp]
  cases hget : s.state.objectToFh.get object with
  | some fh =>
    exact ⟨_, _, rfl, .none (Or.inl (by simp [hget])) rfl, fun _ h => hget.trans h, rfl,
      fun _ => rfl⟩
  | none =>
    rw [Option.elim_none, Request.alone_mapOp, Request.events_mapOp,
      List.countP_cons_of_neg Bool.false_ne_true]
    exact hrest _ rfl hget

end

/-! ## Filehandles lead back to their objects -/

/-- What filehandles there are after so many have been minted, and where they lead. -/
structure Filehandles (boot : Boot) (minted : Nat) (s : StateManager) : Prop where
  known : ∀ fh object, s.fhToObject.get fh = some object → fh.head? = some persistentFhTag ∨
    ∃ i < minted, fh = newFhBootNonce boot.random ++ be64 (BitVec.ofNat 64 (1 + i))
  next : s.nextFh = BitVec.ofNat 64 (1 + minted)
  paired : minted ≤ 2 ^ 64 → s.Paired

namespace Filehandles

variable {boot : Boot} {minted : Nat} {s s' : StateManager}

theorem of_sub (h : Filehandles boot minted s) (hfhs : s'.fhToObject.Sub s.fhToObject)
    (hnext : s'.nextFh = s.nextFh) (hpaired : s.Paired → s'.Paired) :
    Filehandles boot minted s' :=
  ⟨fun fh object hget => h.known fh object (hfhs fh object hget), hnext.trans h.next,
    fun hle => hpaired (h.paired hle)⟩

theorem paired_insert {object : ServerObject} {fh : Bytes} (h : s.Paired)
    (hfresh : s.fhToObject.get fh = none)
    (hfhs : s'.fhToObject = s.fhToObject.insert fh object)
    (hobjects : s'.objectToFh = s.objectToFh.insert object fh) : s'.Paired := by
  intro object' fh' hget
  rw [hobjects] at hget
  rw [hfhs, Table.get_insert]
  rcases Table.of_get_insert hget with ⟨rfl, rfl⟩ | ⟨-, hget⟩
  · rw [if_pos rfl]
  · have hold := h object' fh' hget
    have hne : fh' ≠ fh := by
      rintro rfl
      cases hfresh.symm.trans hold
    rw [if_neg hne]
    exact hold

theorem mint {object : ServerObject} {n : Nat} (h : Filehandles boot minted s)
    (hbooted : s.Booted boot) (hstep : MintStep object s s' n) :
    Filehandles boot (minted + n) s' := by
  cases hstep with
  | none _ hs =>
    rw [hs]
    exact h
  | claim id fh hrecorded hclaimed hobjects hnext hnonce =>
    have htagged := hbooted.tagged id fh hrecorded
    rcases hclaimed with ⟨hfh, hfhs⟩ | ⟨hfresh, hfhs⟩
    · refine ⟨fun fh' object' hget => ?_, hnext.trans h.next, fun hle object' fh' hget => ?_⟩
      · rw [hfhs] at hget
        exact h.known fh' object' hget
      · rw [hobjects] at hget
        rw [hfhs]
        rcases Table.of_get_insert hget with ⟨rfl, rfl⟩ | ⟨-, hget⟩
        · exact hfh
        · exact h.paired hle object' fh' hget
    · refine ⟨fun fh' object' hget => ?_, hnext.trans h.next, fun hle =>
        paired_insert (h.paired hle) hfresh hfhs hobjects⟩
      rw [hfhs] at hget
      rcases Table.of_get_insert hget with ⟨rfl, -⟩ | ⟨-, hget⟩
      · exact Or.inl htagged
      · exact h.known fh' object' hget
  | boot hs =>
    have hfh : s.bootFh s.nextFh =
        newFhBootNonce boot.random ++ be64 (BitVec.ofNat 64 (1 + minted)) := by
      rw [StateManager.bootFh, hbooted.nonce, h.next]
    have hfhs : s'.fhToObject = s.fhToObject.insert (s.bootFh s.nextFh) object := by rw [hs]
    refine ⟨fun fh' object' hget => ?_, ?_, fun hle => ?_⟩
    · rw [hfhs] at hget
      rcases Table.of_get_insert hget with ⟨rfl, -⟩ | ⟨-, hget⟩
      · exact Or.inr ⟨minted, Nat.lt_succ_self _, hfh⟩
      · rcases h.known fh' object' hget with htag | ⟨i, hi, heq⟩
        · exact Or.inl htag
        · exact Or.inr ⟨i, Nat.lt_succ_of_lt hi, heq⟩
    · rw [hs]
      show s.nextFh + 1 = _
      rw [h.next, ofNat_succ]
      rfl
    · refine paired_insert (h.paired (by omega)) ?_ hfhs (by rw [hs])
      -- The number has not been used before.
      rw [Option.eq_none_iff_forall_ne_some]
      intro object' hget
      rcases h.known _ object' hget with htag | ⟨i, hi, heq⟩
      · rw [hfh] at htag
        exact head_bootFh boot.random _ htag
      · have hnumber := be64_injective (List.append_cancel_left (hfh.symm.trans heq))
        have := ofNat_add_injective (by omega) (by omega) hnumber
        omega

end Filehandles

section

variable {H : Type} [DecidableEq H] {backend : Backend H} {boot : Boot} {tr : Trace H}
  {s : Server H}

omit [DecidableEq H] in
theorem Filehandles.invalidate {minted : Nat} {s' : Server H} {ids : List ObjectId}
    (h : Filehandles boot minted s.state) {counts : InvalidationCounts}
    (halone : Request.alone (invalidateObjects (s.state.fhShardMask + 1) ids) s =
      some (counts, s')) : Filehandles boot minted s'.state := by
  by_cases hids : ids = []
  · subst hids
    cases halone
    exact h
  · have hsweep := alone_invalidateObjects_sweep hids s
    rw [halone] at hsweep
    obtain ⟨-, hs⟩ := Prod.mk.inj (Option.some.inj hsweep)
    refine h.of_sub ?_ (by rw [hs]; rfl) fun hpaired => ?_
    · rw [hs]
      exact Table.retain_sub _ _
    · have hwithout := alone_invalidateObjects hpaired ids
      rw [halone] at hwithout
      obtain ⟨-, hs'⟩ := Prod.mk.inj (Option.some.inj hwithout)
      rw [hs']
      exact hpaired.without

omit [DecidableEq H] in
/-- **Step lemma.** What a call on the state manager does to the filehandles. -/
theorem Filehandles.manager {minted : Nat} {s s' : Server H} (h : Filehandles boot minted s.state)
    (hbooted : s.state.Booted boot) (q : ManagerCall)
    (halone : Request.alone (q.program (s.state.fhShardMask + 1)) s = some ((), s')) :
    Filehandles boot (minted + filehandlesMinted
      (Request.events (q.program (s.state.fhShardMask + 1)) s)) s'.state := by
  cases q with
  | guarded c =>
    have hmaps := s.state.runSection_sameMaps c
    rw [ManagerCall.minted_eq_zero (fun _ => by simp)]
    cases halone
    refine h.of_sub ?_ (congrArg Maps.nextFh hmaps) fun hpaired object fh hget => ?_
    · rw [hmaps.fhToObject]
      exact .refl _
    · have hobjects : (s.state.runSection c).2.objectToFh = s.state.objectToFh :=
        congrArg Maps.objectToFh hmaps
      rw [hobjects] at hget
      rw [hmaps.fhToObject]
      exact hpaired object fh hget
  | objectToFh object =>
    obtain ⟨r, s₁, hmint, hstep, -⟩ := alone_objectToFh object s
    simp only [ManagerCall.program] at halone ⊢
    rw [Request.alone_bind_of_eq hmint] at halone
    rw [Request.events_bind_of_eq hmint, filehandlesMinted_append]
    cases halone
    exact h.mint hbooted hstep
  | fhToObject fh =>
    rw [ManagerCall.minted_eq_zero (fun _ => by simp)]
    cases halone
    exact h
  | markRetired ids =>
    rw [ManagerCall.minted_eq_zero (fun _ => by simp)]
    rw [ManagerCall.program, alone_markRetired] at halone
    cases halone
    exact h.of_sub (.refl _) rfl id
  | invalidateObjects ids =>
    rw [ManagerCall.minted_eq_zero (fun _ => by simp)]
    rw [ManagerCall.program, Request.alone_bind] at halone
    obtain ⟨r, hr, hret⟩ := Option.bind_eq_some_iff.mp halone
    cases hret
    exact h.invalidate hr
  | allocConnectionId =>
    rw [ManagerCall.minted_eq_zero (fun _ => by simp)]
    cases halone
    exact h.of_sub (.refl _) rfl id

theorem Server.OneByOne.filehandles (h : Server.OneByOne backend boot tr s) :
    Filehandles boot (filehandlesMinted tr) s.state := by
  induction h with
  | new =>
    refine ⟨fun fh object hget => ?_, rfl, fun _ object fh hget => ?_⟩
    · cases hget
    · cases hget
  | drift _ hdrift ih =>
    have hfhs := hdrift.state.fhToObject
    have hobjects := hdrift.state.objectToFh
    refine ⟨fun fh object hget => ih.known fh object ((hfhs fh).trans hget),
      hdrift.state.nextFh.trans ih.next, fun hle object fh hget => ?_⟩
    rw [← hfhs]
    exact ih.paired hle object fh ((hobjects object).trans hget)
  | manager h q halone ih =>
    obtain ⟨p, hrun⟩ := h.run
    rw [filehandlesMinted_append]
    exact ih.manager hrun.booted q halone
  | @other tr s s' h c r hguarded hmapOp hexec ih =>
    obtain ⟨persistentFh, hs⟩ := Server.exec_other hexec hguarded hmapOp
    have hcall : c.mintsFh = false := by
      cases c with
      | mapOp q => exact absurd rfl (hmapOp q)
      | _ => rfl
    have hzero : filehandlesMinted [⟨0, s, c, r, s'⟩] = 0 :=
      filehandlesMinted_eq_zero fun e he => by
        rw [List.mem_singleton.mp he]
        exact hcall
    rw [filehandlesMinted_append, hzero]
    refine ih.of_sub ?_ (by rw [hs]) fun hpaired => ?_
    · rw [hs]
      exact .refl _
    · rw [hs]
      exact hpaired

/-- **Invalidation is exact and idempotent.** Take any state that calls made one at a time lead to,
with fewer than `2 ^ 32` stateids issued and at most `2 ^ 64` boot-scoped filehandles minted, and
any set of objects. `invalidate_objects` leaves what is of other objects as it was and nothing of
these or of what hangs off them, and it reports how many entries of each kind it has removed. A
second call changes nothing and reports zero. -/
theorem invalidation_exact (h : Server.OneByOne backend boot tr s)
    (hissued : stateidsIssued tr < 2 ^ 32) (hminted : filehandlesMinted tr ≤ 2 ^ 64)
    (ids : List ObjectId) :
    ∃ counts s', Request.alone (invalidateObjects (s.state.fhShardMask + 1) ids) s =
        some (counts, s') ∧
      StateManager.Invalidated ids s.state s'.state counts ∧
      Request.alone (invalidateObjects (s'.state.fhShardMask + 1) ids) s' =
        some (⟨0, 0, 0, 0, 0⟩, s') := by
  obtain ⟨p, hrun⟩ := h.run
  have hpaired := h.filehandles.paired hminted
  have htraced := hrun.delegationHistory.traced hissued
  refine ⟨_, _, alone_invalidateObjects hpaired ids,
    StateManager.invalidated_without htraced ids, ?_⟩
  have hagain := alone_invalidateObjects (s := { s with state := s.state.without ids })
    hpaired.without ids
  rw [hagain]
  show some ((s.state.without ids).countOf ids,
    { s with state := (s.state.without ids).without ids }) = _
  rw [StateManager.countOf_without, StateManager.without_without]

end

/-! ## The counter comes round -/

/-- The state after an object got a boot-scoped filehandle. -/
def StateManager.bootMinted (s : StateManager) (object : ServerObject) : StateManager :=
  { s with
    nextFh := s.nextFh + 1
    fhToObject := s.fhToObject.insert (s.bootFh s.nextFh) object
    objectToFh := s.objectToFh.insert object (s.bootFh s.nextFh) }

theorem alone_objectToFh_boot {H : Type} (object : ServerObject) (s : Server H)
    (hget : s.state.objectToFh.get object = none) (hretired : s.state.retiredObjects = [])
    (hpersistent : ∀ id, s.state.persistentFh.get id = none) :
    ∃ r s', Request.alone (objectToFh object) s = some (r, s') ∧
      filehandlesMinted (Request.events (objectToFh object) s) = 1 ∧
      s'.state = s.state.bootMinted object := by
  obtain ⟨r, s', halone, hstep, -⟩ := alone_objectToFh object s
  refine ⟨r, s', halone, ?_⟩
  generalize filehandlesMinted (Request.events (objectToFh object) s) = n at hstep
  cases hstep with
  | none hdone hs =>
    rcases hdone with hsome | hmarked
    · exact absurd hget hsome
    · simp [StateManager.isRetired, hretired] at hmarked
  | claim id fh hrecorded => cases (hpersistent id).symm.trans hrecorded
  | boot hs => exact ⟨rfl, hs⟩

theorem Server.OneByOne.mint {H : Type} [DecidableEq H] {backend : Backend H} {boot : Boot}
    {tr : Trace H} {s : Server H} (h : Server.OneByOne backend boot tr s) (object : ServerObject)
    (hget : s.state.objectToFh.get object = none) (hretired : s.state.retiredObjects = [])
    (hpersistent : ∀ id, s.state.persistentFh.get id = none) :
    ∃ tr' s', Server.OneByOne backend boot tr' s' ∧ stateidsIssued tr' = stateidsIssued tr ∧
      filehandlesMinted tr' = filehandlesMinted tr + 1 ∧
      s'.state = s.state.bootMinted object := by
  obtain ⟨r, s', halone, hminted, hs⟩ := alone_objectToFh_boot object s hget hretired hpersistent
  have hcall : Request.alone
      ((ManagerCall.objectToFh object).program (s.state.fhShardMask + 1)) s = some ((), s') :=
    (Request.alone_bind_of_eq halone _).trans rfl
  have hevents : Request.events
      ((ManagerCall.objectToFh object).program (s.state.fhShardMask + 1)) s =
        Request.events (objectToFh object) s :=
    (Request.events_bind_of_eq halone _).trans (List.append_nil _)
  have hzero : stateidsIssued (Request.events (objectToFh object) s) = 0 :=
    stateidsIssued_events (objectToFh_all (fun q _ => ⟨q, rfl⟩) ⟨_, rfl⟩ object) s
  refine ⟨_, s', h.manager (.objectToFh object) hcall, ?_, ?_, hs⟩
  · rw [hevents, stateidsIssued, List.countP_append]
    exact congrArg (stateidsIssued tr + ·) hzero
  · rw [hevents, filehandlesMinted_append, hminted]

/-- The state after the first filehandle was given to a named-attribute directory and the next `n`
to the objects `0`, `1`, ... -/
structure ComesRound (nonce : Bytes) (n : Nat) (s : StateManager) : Prop where
  next : s.nextFh = BitVec.ofNat 64 (2 + n)
  bootNonce : s.fhBootNonce = nonce
  retired : s.retiredObjects = []
  persistent : ∀ id, s.persistentFh.get id = none
  first : s.objectToFh.get (.namedAttrDir 1) = some (nonce ++ be64 1)
  only : ∀ fh, s.fhToObject.get fh = some (.namedAttrDir 1) → fh = nonce ++ be64 1
  free : ∀ i, n ≤ i → i < 2 ^ 64 → s.objectToFh.get (.fs (BitVec.ofNat 64 i)) = none
  last : n ≠ 0 → ∃ id, s.fhToObject.get (nonce ++ be64 (BitVec.ofNat 64 (1 + n))) = some (.fs id)

theorem ComesRound.first_minted :
    ComesRound (newFhBootNonce Boot.fixed.random) 0
      ((Server.new Nat .fixed).state.bootMinted (.namedAttrDir 1)) := by
  refine ⟨rfl, rfl, rfl, fun _ => rfl, Table.get_insert_self .., fun fh hget => ?_,
    fun i _ _ => ?_, fun h => absurd rfl h⟩
  · rw [StateManager.bootMinted, Table.get_insert] at hget
    split at hget
    · assumption
    · cases hget
  · rw [StateManager.bootMinted, Table.get_insert, if_neg (by simp)]
    rfl

theorem ComesRound.minted {nonce : Bytes} {n : Nat} {s : StateManager}
    (hround : ComesRound nonce n s) (hn : n < 2 ^ 64) :
    ComesRound nonce (n + 1) (s.bootMinted (.fs (BitVec.ofNat 64 n))) := by
  have hfh : s.bootFh s.nextFh = nonce ++ be64 (BitVec.ofNat 64 (1 + (n + 1))) := by
    rw [StateManager.bootFh, hround.bootNonce, hround.next]
    congr 3
    omega
  refine ⟨?_, hround.bootNonce, hround.retired, hround.persistent, ?_, fun fh hget => ?_,
    fun i hi hlt => ?_, fun _ => ⟨BitVec.ofNat 64 n, ?_⟩⟩
  · show s.nextFh + 1 = _
    rw [hround.next, ofNat_succ]
    rfl
  · rw [StateManager.bootMinted, Table.get_insert, if_neg (by simp)]
    exact hround.first
  · rw [StateManager.bootMinted, Table.get_insert] at hget
    split at hget
    · cases hget
    · exact hround.only fh hget
  · have hne : BitVec.ofNat 64 i ≠ BitVec.ofNat 64 n := by
      intro heq
      have hnat := congrArg BitVec.toNat heq
      rw [BitVec.toNat_ofNat, BitVec.toNat_ofNat, Nat.mod_eq_of_lt hlt,
        Nat.mod_eq_of_lt (by omega)] at hnat
      omega
    rw [StateManager.bootMinted, Table.get_insert, if_neg (by simpa using hne)]
    exact hround.free i (by omega) hlt
  · rw [← hfh]
    exact Table.get_insert_self ..

theorem comesRound (n : Nat) (hn : n ≤ 2 ^ 64) :
    ∃ tr s, Server.OneByOne (Backend.plain 0) .fixed tr s ∧ stateidsIssued tr = 0 ∧
      ComesRound (newFhBootNonce Boot.fixed.random) n s.state := by
  induction n with
  | zero =>
    have hnew : Server.OneByOne (Backend.plain 0) .fixed [] (Server.new Nat .fixed) := .new
    obtain ⟨tr, s, h, hissued, -, hs⟩ := hnew.mint (.namedAttrDir 1) rfl rfl fun _ => rfl
    refine ⟨tr, s, h, hissued, ?_⟩
    rw [hs]
    exact ComesRound.first_minted
  | succ n ih =>
    obtain ⟨tr, s, h, hissued, hround⟩ := ih (by omega)
    obtain ⟨tr', s', h', hissued', -, hs⟩ := h.mint _ (hround.free n le_rfl (by omega))
      hround.retired hround.persistent
    refine ⟨tr', s', h', hissued'.trans hissued, ?_⟩
    rw [hs]
    exact hround.minted (by omega)

/-- After `2 ^ 64 + 1` filehandles the first one has been given to another object, and its old owner
is not found any more. -/
theorem invalidation_exact_wraps :
    ∃ tr s counts s', Server.OneByOne (Backend.plain 0) .fixed tr s ∧ stateidsIssued tr = 0 ∧
      Request.alone (invalidateObjects (s.state.fhShardMask + 1) [1]) s = some (counts, s') ∧
      s'.state.objectToFh.get (.namedAttrDir 1) ≠ none := by
  obtain ⟨tr, s, h, hissued, hround⟩ := comesRound (2 ^ 64) le_rfl
  refine ⟨tr, s, _, _, h, hissued, alone_invalidateObjects_sweep (by simp) s, ?_⟩
  obtain ⟨id, hlast⟩ := hround.last (by omega)
  have hone : BitVec.ofNat 64 (1 + 2 ^ 64) = 1 := by decide
  rw [hone] at hlast
  have hunswept : ServerObject.namedAttrDir 1 ∉ (s.state.stale [1]).map Prod.snd := by
    simp only [List.mem_map, Prod.exists, StateManager.mem_stale]
    rintro ⟨fh, object, ⟨hget, -⟩, rfl⟩
    rw [hround.only fh hget, hlast] at hget
    cases hget
  have hleft := Table.get_retain_eq_some
    (p := fun object _ => object ∉ (s.state.stale [1]).map Prod.snd) |>.mpr
      ⟨hround.first, decide_eq_true hunswept⟩
  exact fun hgone => Option.some_ne_none _ (hleft.symm.trans hgone)

/-- One object has a filehandle, and is invalidated. -/
theorem invalidation_exact_minted :
    ∃ tr s counts s', Server.OneByOne (Backend.plain 0) .fixed tr s ∧
      s.state.objectToFh.get (.fs 1) ≠ none ∧
      Request.alone (invalidateObjects (s.state.fhShardMask + 1) [1]) s = some (counts, s') ∧
      s'.state.objectToFh.get (.fs 1) = none := by
  have hnew : Server.OneByOne (Backend.plain 0) .fixed [] (Server.new Nat .fixed) := .new
  obtain ⟨tr, s, h, hissued, hminted, hs⟩ := hnew.mint (.fs 1) rfl rfl fun _ => rfl
  have hissued' : stateidsIssued tr = 0 := hissued
  have hminted' : filehandlesMinted tr = 1 := hminted
  obtain ⟨counts, s', halone, hinvalidated, -⟩ :=
    invalidation_exact h (by omega) (by omega) [1]
  refine ⟨tr, s, counts, s', h, ?_, halone, ?_⟩
  · rw [hs, StateManager.bootMinted, Table.get_insert_self]
    exact Option.some_ne_none _
  · refine Option.eq_none_iff_forall_ne_some.mpr fun fh hget => ?_
    exact ((hinvalidated.objectToFh (.fs 1) fh).mp hget).2 (by decide)

end EmbedNfs
