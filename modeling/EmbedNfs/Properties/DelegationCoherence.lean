import EmbedNfs.Properties.RecallContract
import EmbedNfs.Server.Scripted

/-!
# Coherence of directory delegations

A mutation recalls the delegations that other clients hold on the directory before it reaches
the backend. So nobody else holds one when the backend is called, provided that none is granted
between the recall and the call.
-/

namespace EmbedNfs

section

variable {H α β : Type} {s s' : Server H} {d : ServerObject} {origin : Option Clientid4}
  {n m : Nat} {C : Prop}

/-- Under the condition `C`, a recall has been made and nothing is left. -/
def Ready (d : ServerObject) (origin : Option Clientid4) (n : Nat) (C : Prop) (m : Nat)
    (s : Server H) : Prop :=
  C → Left d origin n [] m s

theorem Ready.mono {C' : Prop} (h : Ready d origin n C m s) (hC : C' → C) :
    Ready d origin n C' m s :=
  fun hC' => h (hC hC')

theorem processRpcMessage_unretiring {cfg : ServerConfig H} {policy : AuthPolicy}
    {codec : CompoundCodec} {record : Bytes} {connectionId : U64} :
    (processRpcMessage cfg policy codec record connectionId).All
      fun c => ∀ id, c ≠ .mapOp (.retire id) := by
  have hcompound : ∀ ctx args prepared, (handleCompound cfg ctx connectionId args prepared).All
      fun c => ∀ id, c ≠ .mapOp (.retire id) := by
    intro ctx args prepared
    refine handleCompound_requested.mono (fun _ _ h => h) ?_ fun _ h => h
    rintro _ hc id rfl
    exact hc
  have hguarded : ∀ q : Section, (guarded q : Request H _).All
      fun c => ∀ id, c ≠ .mapOp (.retire id) :=
    fun q => guarded_all (fun _ heq => nomatch heq)
  unfold processRpcMessage processCompound
  repeat' first
    | exact True.intro
    | exact hguarded _
    | exact Program.Along.discard (hguarded _)
    | exact hcompound _ _ _
    | refine Program.All.bind ?_ fun _ => ?_
    | split

variable [DecidableEq H] {backend : Backend H}

/-! ## Pieces of operations -/

/-- The program is safe for the directory, whatever came before. -/
abbrev Coherent (d : ServerObject) (origin : Option Clientid4) (n : Nat) (backend : Backend H)
    (p : Request H α) : Prop :=
  ∀ m s, (coherence d origin n).Safe (Server.system backend) (fun _ _ _ => True) m p s

theorem Coherent.ret (a : α) : Coherent d origin n backend (.ret a : Request H α) :=
  fun _ _ _ _ _ => True.intro

theorem Coherent.of_operational {p : Request H α} (hp : p.All Call.Operational) :
    Coherent d origin n backend p :=
  fun _ _ => safe_of_operational hp

theorem Coherent.of_helper {Q : α → Prop} {p : Request H α} (hp : Helper False Q p) :
    Coherent d origin n backend p :=
  .of_operational (Background.operational hp.background)

theorem Coherent.discard_helper {Q : α → Prop} {p : Request H α} (hp : Helper False Q p) :
    Coherent d origin n backend (discard p) :=
  .of_operational (Program.Along.discard (Background.operational hp.background))

theorem Coherent.bind {p : Request H β} {f : β → Request H α}
    (hp : Coherent d origin n backend p) (hf : ∀ b, Coherent d origin n backend (f b)) :
    Coherent d origin n backend (p >>= f) :=
  fun m s => Contract.Safe.bind ((hp m s).mono fun m b s _ _ => hf b m s)

theorem Coherent.after {p : Request H β} {f : β → Request H α}
    (hp : (coherence d origin n).Safe (Server.system backend) (fun _ _ _ => True) m p s)
    (hf : ∀ b, Coherent d origin n backend (f b)) :
    (coherence d origin n).Safe (Server.system backend) (fun _ _ _ => True) m (p >>= f) s :=
  Contract.Safe.bind (hp.mono fun m b s _ _ => hf b m s)

theorem Coherent.thenReady {p : Request H β} {f : β → Request H α}
    (hp : ∀ {m s}, (coherence d origin n).Safe (Server.system backend)
      (fun m _ s => Ready d origin n C m s) m p s)
    (hf : ∀ b m s, Ready d origin n C m s →
      (coherence d origin n).Safe (Server.system backend) (fun _ _ _ => True) m (f b) s) :
    Coherent d origin n backend (p >>= f) :=
  fun _ _ => Contract.Safe.bind (hp.mono fun m b s _ h => hf b m s h)

theorem Ready.safe {p : Request H α} (h : Ready d origin n C m s)
    (hp : p.All (Call.Neutral d)) (hp' : p.All Call.Operational) :
    (coherence d origin n).Safe (Server.system backend)
      (fun m _ s => Ready d origin n C m s) m p s := by
  by_cases hC : C
  · exact ((h hC).safe hp).mono fun _ _ _ _ h _ => h
  · exact (safe_of_operational hp').mono fun _ _ _ _ _ hC' => absurd hC' hC

theorem Ready.resolve (h : Ready d origin n C m s) (id : ObjectId) :
    (coherence d origin n).Safe (Server.system backend)
      (fun m _ s => Ready d origin n C m s) m (resolveBackendHandle id) s :=
  h.safe ((resolveBackendHandle_helper id).neutral d)
    (Background.operational (resolveBackendHandle_helper id).background)

theorem Ready.resolveThen (h : Ready d origin n C m s) (id : ObjectId)
    {f : Except FsError H → Request H α}
    (hf : ∀ r m s, Ready d origin n C m s →
      (coherence d origin n).Safe (Server.system backend) (fun _ _ _ => True) m (f r) s) :
    (coherence d origin n).Safe (Server.system backend) (fun _ _ _ => True) m
      (resolveBackendHandle id >>= f) s :=
  Contract.Safe.bind ((h.resolve id).mono fun m r s _ h => hf r m s h)

theorem recall_ready {config : DelegationConfig} (henabled : config.directoryDelegations = true)
    (object : ServerObject) (excluded : Option Clientid4) :
    (coherence d origin n).Safe (Server.system backend)
      (fun m _ s => Ready d origin n (object = d ∧ excluded = origin) m s) m
      (recallDirectoryDelegations config object excluded) s := by
  by_cases hC : object = d ∧ excluded = origin
  · obtain ⟨rfl, rfl⟩ := hC
    exact (recallDirectoryDelegations_safe henabled).mono fun _ _ _ _ h _ => h
  · refine (safe_of_operational (Background.operational
      (recallDirectoryDelegations_background ..))).mono ?_
    exact fun _ _ _ _ _ hC' => absurd hC' hC

theorem Ready.perform {origin' : Option Clientid4} {dirs : List ServerObject}
    {ctx : RequestContext} {q : BackendCall H}
    (h : Ready d origin n (d ∈ dirs ∧ origin' = origin) m s) :
    (coherence d origin n).Safe (Server.system backend) (fun _ _ _ => True) m
      (Program.perform (Call.backend ctx origin' dirs q)) s := by
  intro s₁ _ hr r s₂ _ _
  refine ⟨?_, fun _ _ _ => True.intro⟩
  rintro ctx' dirs' q' heq hd
  cases heq
  have hleft := (h ⟨hd, rfl⟩).rely hr
  refine ⟨hleft.1, fun hm k hk => ?_⟩
  have hmem := hleft.2 hm k hk
  cases hmem

theorem andThen_safe {ε : Type} {Q : Nat → Server H → Prop} {p : Request H (Except ε β)}
    {f : β → Request H (Except ε α)}
    (hp : (coherence d origin n).Safe (Server.system backend) (fun m _ s => Q m s) m p s)
    (hf : ∀ b m s, Q m s →
      (coherence d origin n).Safe (Server.system backend) (fun _ _ _ => True) m (f b) s) :
    (coherence d origin n).Safe (Server.system backend) (fun _ _ _ => True) m
      (Request.andThen p f) s := by
  refine Contract.Safe.bind (hp.mono fun m r s _ hQ => ?_)
  cases r with
  | ok b => exact hf b m s hQ
  | error e => exact Coherent.ret _ m s

theorem eq_of_mem_one {x : ServerObject} (h : d ∈ [x] ∧ C) : x = d ∧ C :=
  ⟨(List.mem_singleton.mp h.1).symm, h.2⟩

theorem createObject_safe {ctx : RequestContext} {origin' : Option Clientid4} {dirId : ObjectId}
    {name : String} {kind : CreateKind} {attrs : SetAttrs}
    (h : Ready d origin n (.fs dirId = d ∧ origin' = origin) m s) :
    (coherence d origin n).Safe (Server.system backend) (fun _ _ _ => True) m
      (createObject ctx origin' dirId name kind attrs) s := by
  refine andThen_safe (h.resolve dirId) fun handle m s h => ?_
  refine andThen_safe (Ready.perform (h.mono eq_of_mem_one)) fun created m s _ => ?_
  exact safe_of_operational (Background.operational (registerHandle_helper created).background)

theorem createByType_safe {backend' : Backend H} {ctx : OpContext} {args : CreateArgs4}
    {dirId : ObjectId} {attrs : SetAttrs}
    (h : Ready d origin n (.fs dirId = d ∧ ctx.sequenceClientid = origin) m s) :
    (coherence d origin n).Safe (Server.system backend) (fun _ _ _ => True) m
      (createByType backend' ctx args dirId attrs) s := by
  unfold createByType
  split
  case h_2 =>
    refine Contract.Safe.bind ((createObject_safe h).mono fun m r s _ _ => ?_)
    split
    · exact Coherent.ret _ m s
    · exact Coherent.ret _ m s
  case h_3 =>
    split
    · exact Coherent.ret _ m s
    · refine h.resolveThen dirId fun r m s h => ?_
      split
      · rw [Program.pure_eq, Program.ret_bind]
        refine Coherent.after (Ready.perform (h.mono eq_of_mem_one)) fun r => ?_
        split
        · exact .ret _
        · refine Coherent.bind (.of_helper (registerHandle_helper _)) fun r => ?_
          split
          · exact .ret _
          · exact .ret _
      · exact Coherent.ret _ m s
  all_goals exact Coherent.ret _ m s

/-! ## Operations -/

variable {backend' : Backend H} {config : DelegationConfig} {ctx : OpContext}

theorem opCreate_coherent (henabled : config.directoryDelegations = true) {args : CreateArgs4}
    {currentFh : Option Bytes} :
    Coherent d origin n backend (opCreate backend' config ctx args currentFh) := by
  unfold opCreate
  refine .bind (.of_helper (resolveObject_helper _)) fun resolved => ?_
  split
  · refine .bind (.ret _) fun dirObject => ?_
    split
    · refine .bind (.of_helper (kindOf_helper _)) fun kind => ?_
      split
      · split
        · exact .ret _
        · refine .bind (.of_helper (buildAttr_helper _)) fun attr => ?_
          split
          · refine .bind (.ret _) fun before => ?_
            split
            · refine .bind (.ret _) fun setAttrs => ?_
              split
              · exact .ret _
              · -- From here on the directory has been recalled.
                refine .thenReady (recall_ready henabled _ _) fun _ m s h => ?_
                refine Coherent.after (createByType_safe h) fun created => ?_
                split
                · refine .bind (.ret _) fun id => .bind (.of_helper (objectToFh_helper _)) ?_
                  intro fh
                  split
                  · exact .ret _
                  · exact .bind (.of_helper (mutationChangeInfo_helper _ _)) fun _ => .ret _
                · exact .ret _
            · exact .ret _
          · exact .ret _
      · exact .ret _
    · exact .ret _
  · exact .ret _

theorem opLink_coherent (henabled : config.directoryDelegations = true) {newname : String}
    {currentFh savedFh : Option Bytes} :
    Coherent d origin n backend (opLink backend' config ctx newname currentFh savedFh) := by
  unfold opLink
  refine .bind (.of_helper (resolveObject_helper _)) fun resolved => ?_
  split
  · refine .bind (.ret _) fun source => .bind (.of_helper (resolveObject_helper _)) ?_
    intro resolved
    split
    · refine .bind (.ret _) fun targetDir => ?_
      split
      · rename_i sourceId dirId heq
        cases heq
        refine .bind (.of_helper (kindOf_helper _)) fun kind => ?_
        split
        · split
          · exact .ret _
          · refine .bind (.of_helper (buildAttr_helper _)) fun attr => ?_
            split
            · refine .bind (.ret _) fun before => ?_
              split
              · exact .ret _
              · -- From here on the directory has been recalled.
                refine .thenReady (recall_ready henabled _ _) fun _ m s h => ?_
                split
                · exact Coherent.ret _ m s
                · refine h.resolveThen sourceId fun handle m s h => ?_
                  split
                  · rw [Program.pure_eq, Program.ret_bind]
                    refine h.resolveThen dirId fun handle m s h => ?_
                    split
                    · rw [Program.pure_eq, Program.ret_bind]
                      refine Coherent.after (Ready.perform (h.mono eq_of_mem_one)) fun r => ?_
                      split
                      · exact .ret _
                      · exact .bind (.of_helper (mutationChangeInfo_helper _ _)) fun _ => .ret _
                    · exact Coherent.ret _ m s
                  · exact Coherent.ret _ m s
            · exact .ret _
        · exact .ret _
      · exact .ret _
    · exact .ret _
  · exact .ret _

theorem removeFrom_safe {attr : ServerFileAttr} {dirObject : ServerObject} {target : String}
    (h : Ready d origin n (attr.isDir = true ∧ dirObject = d ∧ ctx.sequenceClientid = origin) m s) :
    (coherence d origin n).Safe (Server.system backend) (fun _ _ _ => True) m
      (removeFrom backend' ctx (removeDirs attr dirObject) dirObject target) s := by
  have hdirs : d ∈ removeDirs attr dirObject ∧ ctx.sequenceClientid = origin →
      attr.isDir = true ∧ dirObject = d ∧ ctx.sequenceClientid = origin := by
    rintro ⟨hd, ho⟩
    unfold removeDirs at hd
    split at hd
    · rename_i hdir
      exact ⟨hdir, (List.mem_singleton.mp hd).symm, ho⟩
    · cases hd
  unfold removeFrom
  split
  · refine Coherent.after (andThen_safe (h.resolve _) fun handle m s h => ?_) fun r => ?_
    · exact (h.mono hdirs).perform
    · split
      · exact .ret _
      · exact .ret _
  · split
    · exact Coherent.ret _ m s
    · refine h.resolveThen _ fun r m s h => ?_
      split
      · rw [Program.pure_eq, Program.ret_bind]
        refine Coherent.after (h.mono hdirs).perform fun r => ?_
        split
        · exact .ret _
        · refine .bind (.discard_helper (refreshXattrSummary_helper _)) fun _ => ?_
          refine .bind (.of_operational (guarded_all True.intro)) fun _ => ?_
          exact .bind (.discard_helper (getattr_helper _)) fun _ => .ret _
      · exact Coherent.ret _ m s
  · exact Coherent.ret _ m s

theorem recallIfDir_ready (henabled : config.directoryDelegations = true)
    (attr : ServerFileAttr) (object : ServerObject) :
    (coherence d origin n).Safe (Server.system backend)
      (fun m _ s => Ready d origin n
        (attr.isDir = true ∧ object = d ∧ ctx.sequenceClientid = origin) m s) m
      (recallIfDir config ctx attr object) s := by
  unfold recallIfDir
  split
  · exact (recall_ready henabled object _).mono fun _ _ _ _ h => h.mono And.right
  · rename_i hdir
    exact fun _ _ _ hC => absurd hC.1 hdir

theorem removeGate_coherent {dirObject : ServerObject} :
    Coherent d origin n backend (removeGate ctx dirObject : Request H _) := by
  cases dirObject with
  | namedAttrDir parent => exact .of_helper (requireAccess_helper _ _)
  | fs id => exact .ret _
  | namedAttrFile parent name => exact .ret _

theorem opRemove_coherent (henabled : config.directoryDelegations = true) {target : String}
    {currentFh : Option Bytes} :
    Coherent d origin n backend (opRemove backend' config ctx target currentFh) := by
  unfold opRemove
  refine .bind (.of_helper (resolveObject_helper _)) fun resolved => ?_
  split
  · refine .bind (.ret _) fun dirObject => ?_
    refine .bind removeGate_coherent fun allowed => ?_
    split
    · exact .ret _
    · refine .bind (.of_helper (buildAttr_helper _)) fun attr => ?_
      split
      · refine .bind (.ret _) fun before => ?_
        split
        · exact .ret _
        · refine .thenReady (recallIfDir_ready henabled before dirObject) fun _ m s h => ?_
          refine Coherent.after (removeFrom_safe h) fun status => ?_
          split
          · exact .ret _
          · exact .bind (.of_helper (mutationChangeInfo_helper _ _)) fun _ => .ret _
      · exact .ret _
  · exact .ret _

theorem recallBoth_ready (henabled : config.directoryDelegations = true)
    (source target : ServerObject) :
    (coherence d origin n).Safe (Server.system backend)
      (fun m _ s => Ready d origin n (d ∈ [source, target] ∧ ctx.sequenceClientid = origin) m s) m
      (recallBoth config ctx source target) s := by
  unfold recallBoth
  refine Contract.Safe.bind ((recall_ready henabled source _).mono fun m _ s _ h => ?_)
  by_cases hsource : source = d
  · have h' : Ready d origin n (d ∈ [source, target] ∧ ctx.sequenceClientid = origin) m s :=
      h.mono fun hC => ⟨hsource, hC.2⟩
    split
    · exact fun s' _ hr hC => (h' hC).rely hr
    · -- The second recall is on another directory.
      rename_i hne
      refine h'.safe (recallDirectoryDelegations_along _ _ _ ?_ fun _ hc => hc.neutral d)
        (Background.operational (recallDirectoryDelegations_background ..))
      exact fun htarget => hne (hsource.trans htarget.symm)
  · split
    · rename_i heq
      refine fun s' _ hr hC => ?_
      rcases List.mem_cons.mp hC.1 with hd | hd
      · exact absurd hd.symm hsource
      · exact absurd (heq.trans (List.mem_singleton.mp hd).symm) hsource
    · refine (recall_ready henabled target _).mono fun m _ s _ h => h.mono ?_
      rintro ⟨hd, ho⟩
      rcases List.mem_cons.mp hd with hd | hd
      · exact absurd hd.symm hsource
      · exact ⟨(List.mem_singleton.mp hd).symm, ho⟩

theorem rename_safe {request : RequestContext} {origin' : Option Clientid4}
    {fromDir toDir : ObjectId} {fromName toName : String}
    (h : Ready d origin n (d ∈ [.fs fromDir, .fs toDir] ∧ origin' = origin) m s) :
    (coherence d origin n).Safe (Server.system backend) (fun _ _ _ => True) m
      (rename request origin' fromDir fromName toDir toName) s :=
  andThen_safe (h.resolve _) fun _ _ _ h => andThen_safe (h.resolve _) fun _ _ _ h => h.perform

theorem opRename_coherent (henabled : config.directoryDelegations = true) {args : RenameArgs4}
    {currentFh savedFh : Option Bytes} :
    Coherent d origin n backend (opRename backend' config ctx args currentFh savedFh) := by
  unfold opRename
  refine .bind (.of_helper (resolveObject_helper _)) fun resolved => ?_
  split
  · refine .bind (.ret _) fun source => .bind (.of_helper (resolveObject_helper _)) ?_
    intro resolved
    split
    · refine .bind (.ret _) fun target => ?_
      split
      · rename_i sourceId targetId heq
        cases heq
        refine .bind (.of_helper (buildAttr_helper _)) fun attr => ?_
        split
        · refine .bind (.ret _) fun before => .bind (.of_helper (buildAttr_helper _)) ?_
          intro attr
          split
          · refine .bind (.ret _) fun before => ?_
            refine .thenReady (recallBoth_ready henabled _ _) fun _ m s h => ?_
            refine Coherent.after (rename_safe h) fun r => ?_
            split
            · exact .ret _
            · refine .bind (.of_helper (mutationChangeInfo_helper _ _)) fun _ => ?_
              exact .bind (.of_helper (mutationChangeInfo_helper _ _)) fun _ => .ret _
          · exact .ret _
        · exact .ret _
      · exact .ret _
    · exact .ret _
  · exact .ret _

/-! ### SETATTR -/

theorem setattrDirectory_ready (henabled : config.directoryDelegations = true)
    (object : ServerObject) (setAttrs : SetAttrs) (currentAttr : Option ServerFileAttr) :
    (coherence d origin n).Safe (Server.system backend)
      (fun m r s => r = .ok () →
        Ready d origin n (d ∈ setattrDirs object setAttrs currentAttr ∧
          ctx.sequenceClientid = origin) m s ∧
        (d ∈ setattrDirs object setAttrs currentAttr → setAttrs.size = none)) m
      (setattrDirectory config ctx object setAttrs currentAttr) s := by
  cases currentAttr with
  | none => exact fun _ _ _ _ => ⟨fun hC => absurd hC.1 (by simp [setattrDirs]), by simp [setattrDirs]⟩
  | some attr =>
    unfold setattrDirectory
    have hdirs : d ∈ setattrDirs object setAttrs (some attr) →
        attr.isDir = true ∧ setAttrs.isEmpty = false ∧ object = d := by
      intro hd
      unfold setattrDirs at hd
      split at hd
      · rename_i hcond
        exact ⟨by simpa using hcond.1, by simpa using hcond.2, (List.mem_singleton.mp hd).symm⟩
      · cases hd
    dsimp only
    split
    · split
      · exact nofun
      · rename_i hsize
        have hnone : setAttrs.size = none := by simpa using hsize
        split
        · rename_i hempty
          refine fun _ _ _ _ => ⟨fun hC => ?_, fun _ => hnone⟩
          rw [(hdirs hC.1).2.1] at hempty
          cases hempty
        · refine Contract.Safe.bind ((recall_ready henabled object _).mono fun m _ s _ h => ?_)
          refine fun s' _ hr _ => ⟨fun hC => ?_, fun _ => hnone⟩
          exact (h ⟨(hdirs hC.1).2.2, hC.2⟩).rely hr
    · rename_i hdir
      refine fun _ _ _ _ => ⟨fun hC => ?_, fun hd => ?_⟩
      · exact absurd (hdirs hC.1).1 hdir
      · exact absurd (hdirs hd).1 hdir

theorem setattrSize_ready {args : SetattrArgs4} {object : ServerObject} {setAttrs : SetAttrs}
    {currentAttr : Option ServerFileAttr} {currentStateid : Option Stateid4}
    (h : Ready d origin n C m s) (hsize : C → setAttrs.size = none) :
    (coherence d origin n).Safe (Server.system backend) (fun m _ s => Ready d origin n C m s) m
      (setattrSize ctx args object setAttrs currentAttr currentStateid) s := by
  by_cases hC : C
  · unfold setattrSize
    rw [hsize hC]
    exact fun s' _ hr hC => (h hC).rely hr
  · have hp : (setattrSize ctx args object setAttrs currentAttr currentStateid :
        Request H _).All Call.Operational := by
      unfold setattrSize
      repeat' first
        | exact True.intro
        | exact Background.operational validateIoStateid_background
        | exact Background.operational (requireAccess_helper _ _).background
        | refine Program.All.bind ?_ fun _ => ?_
        | split
    exact (safe_of_operational hp).mono fun _ _ _ _ _ hC' => absurd hC' hC

theorem setattrApply_safe {object : ServerObject} {setAttrs : SetAttrs}
    {dirs : List ServerObject}
    (h : Ready d origin n (d ∈ dirs ∧ ctx.sequenceClientid = origin) m s) :
    (coherence d origin n).Safe (Server.system backend) (fun _ _ _ => True) m
      (setattrApply backend' ctx object setAttrs dirs) s := by
  unfold setattrApply
  split
  · refine Coherent.after (andThen_safe (h.resolve _) fun _ _ _ h => h.perform) fun r => ?_
    split
    · exact .ret _
    · exact .ret _
  · refine Coherent.of_operational ?_ m s
    unfold setattrResize xattrResize
    repeat' first
      | exact True.intro
      | exact Background.operational (resolveBackendHandle_helper _).background
      | exact Background.operational (xattrValue_helper _ _).background
      | exact Background.operational (askBackend_helper _).background
      | exact guarded_all True.intro
      | refine andThen_all ?_ fun _ => ?_
      | refine Program.All.bind ?_ fun _ => ?_
      | split
  · refine Coherent.of_operational ?_ m s
    repeat' first
      | exact True.intro
      | exact guarded_all True.intro
      | refine Program.All.bind ?_ fun _ => ?_
      | split

theorem opSetattr_coherent (henabled : config.directoryDelegations = true) {args : SetattrArgs4}
    {currentFh : Option Bytes} {currentStateid : Option Stateid4} :
    Coherent d origin n backend
      (opSetattr backend' config ctx args currentFh currentStateid) := by
  unfold opSetattr setattrGate
  repeat' first
    | exact .ret _
    | exact .of_helper (resolveObject_helper _)
    | exact .of_helper (namedAttrGate_helper _ _)
    | exact .of_operational (Background.operational setattrCurrent_background)
    | refine fun m s => Contract.Safe.bind
        ((setattrDirectory_ready henabled _ _ _).mono fun m r s _ h => ?_)
    | refine Coherent.bind ?_ fun _ => ?_
    | split
  · exact Coherent.ret _ _ _
  · rename_i hr
    have hok : r = .ok () := by
      cases r with
      | ok _ => rfl
      | error status => exact (hr status rfl).elim
    obtain ⟨hready, hsize⟩ := h hok
    refine Contract.Safe.bind
      ((setattrSize_ready hready fun hC => hsize hC.1).mono fun m r s _ h => ?_)
    split
    · exact Coherent.ret _ m s
    · refine Coherent.after (setattrApply_safe h) fun status => ?_
      split
      · exact .ret _
      · exact .ret _

/-! ### OPEN -/

theorem openInDirectory_coherent (henabled : config.directoryDelegations = true)
    {args : OpenArgs4} {dirId : ObjectId} {name : String}
    {beforeAttr : Except FsError ServerFileAttr} :
    Coherent d origin n backend
      (openInDirectory backend' config ctx args dirId name beforeAttr) := by
  unfold openInDirectory
  split
  · exact .ret _
  · refine .bind (.of_helper (kindOf_helper _)) fun kind => ?_
    split
    · split
      · exact .ret _
      · refine .bind (.of_helper (lookup_helper _ _)) fun found => ?_
        split
        · split
          · exact .ret _
          · exact .ret _
        · split
          · exact .ret _
          · -- The file is to be created.
            split
            · refine .bind (.ret _) fun beforeChange => ?_
              split
              · refine .bind (.ret _) fun setAttrs => ?_
                refine .thenReady (recall_ready henabled _ _) fun _ m s h => ?_
                refine Coherent.after (createObject_safe h) fun created => ?_
                split
                · exact .ret _
                · exact .ret _
              · exact .ret _
            · exact .ret _
        · exact .ret _
    · exact .ret _

theorem openNamedAttr_coherent (henabled : config.directoryDelegations = true)
    {args : OpenArgs4} {parent : ObjectId} {name : String}
    {beforeAttr : Except FsError ServerFileAttr} :
    Coherent d origin n backend
      (openNamedAttr backend' config ctx args parent name beforeAttr) := by
  unfold openNamedAttr
  dsimp only
  split
  · exact .ret _
  · refine .bind (.of_helper (resolveBackendHandle_helper _)) fun resolved => ?_
    split
    · refine .bind (.ret _) fun handle => .bind (.of_helper (askBackend_helper _)) ?_
      intro found
      split
      · split
        · exact .ret _
        · exact .ret _
      · split
        · exact .ret _
        · -- The attribute is to be created.
          split
          · refine .bind (.ret _) fun beforeChange => ?_
            split
            · refine .bind (.ret _) fun setAttrs => ?_
              refine .thenReady (recall_ready henabled _ _) fun _ m s h => ?_
              refine Coherent.after (Ready.perform (h.mono eq_of_mem_one)) fun r => ?_
              split
              · exact .ret _
              · refine .bind (.discard_helper (refreshXattrSummary_helper _)) fun _ => ?_
                refine .bind (.of_operational (guarded_all True.intro)) fun _ => ?_
                refine .bind (.of_operational (guarded_all True.intro)) fun _ => ?_
                exact .bind (.discard_helper (getattr_helper _)) fun _ => .ret _
            · exact .ret _
          · exact .ret _
      · exact .ret _
    · exact .ret _

theorem openTarget_coherent (henabled : config.directoryDelegations = true) {args : OpenArgs4}
    {container : ServerObject} {beforeAttr : Except FsError ServerFileAttr} :
    Coherent d origin n backend (openTarget backend' config ctx args container beforeAttr) := by
  unfold openTarget
  repeat' first
    | exact .ret _
    | exact openInDirectory_coherent henabled
    | exact openNamedAttr_coherent henabled
    | split

theorem opOpen_coherent (henabled : config.directoryDelegations = true) {args : OpenArgs4}
    {currentFh : Option Bytes} {minorversion : U32} :
    Coherent d origin n backend
      (opOpen backend' config ctx args currentFh minorversion) := by
  unfold opOpen
  repeat' first
    | exact .ret _
    | exact .of_helper (resolveObject_helper _)
    | exact .of_helper (buildAttr_helper _)
    | exact .of_operational (Background.operational openXattrGate_background)
    | exact .of_operational (Background.operational openAccessCheck_background)
    | exact .of_operational finishOpen_operational
    | exact openTarget_coherent henabled
    | refine Coherent.bind ?_ fun _ => ?_
    | split

/-! ### COMPOUND -/

variable {cfg : ServerConfig H} {connectionId : U64}

theorem handleOp_coherent (henabled : cfg.delegations.directoryDelegations = true)
    (op : NfsArgop4) (state : CompoundState) :
    Coherent d origin n backend (handleOp cfg ctx connectionId op state) := by
  cases h : op.mutates with
  | false => exact .of_operational (handleOp_operational h)
  | true =>
    cases op with
    | create args => exact .bind (opCreate_coherent henabled) fun _ => .ret _
    | link newname => exact .bind (opLink_coherent henabled) fun _ => .ret _
    | «open» args =>
      refine .bind ?_ fun _ => .ret _
      unfold opOpenReclaim
      split
      · exact opOpen_coherent henabled
      · refine .bind (.of_operational (reapThen_all True.intro True.intro)) fun r => ?_
        split
        · exact .ret _
        · exact opOpen_coherent henabled
    | remove target => exact .bind (opRemove_coherent henabled) fun _ => .ret _
    | rename args => exact .bind (opRename_coherent henabled) fun _ => .ret _
    | setattr args => exact .bind (opSetattr_coherent henabled) fun _ => .ret _
    | _ => cases h

theorem runOps_coherent (henabled : cfg.delegations.directoryDelegations = true)
    (ops : List NfsArgop4) (state : CompoundState) :
    Coherent d origin n backend (runOps cfg ctx connectionId ops state) := by
  induction ops generalizing state with
  | nil => exact .ret _
  | cons op ops ih =>
    unfold runOps
    split
    · exact .ret _
    · refine .bind (handleOp_coherent henabled op state) fun (res, state) => ?_
      dsimp only
      split
      · exact .ret _
      · exact .bind (ih _) fun _ => .ret _

theorem handleCompound_coherent (henabled : cfg.delegations.directoryDelegations = true)
    {request : RequestContext} {args : Compound4Args} {prepared : Option NfsResop4} :
    Coherent d origin n backend (handleCompound cfg request connectionId args prepared) := by
  unfold handleCompound leadingClientid runFirst
  repeat' first
    | exact .ret _
    | exact .of_operational (guarded_all True.intro)
    | exact handleOp_coherent henabled _ _
    | exact runOps_coherent henabled _ _
    | refine Coherent.bind ?_ fun _ => ?_
    | split

theorem processCompound_coherent (henabled : cfg.delegations.directoryDelegations = true)
    {codec : CompoundCodec} {cred : OpaqueAuth} {payload : Bytes} :
    Coherent d origin n backend (processCompound cfg codec cred payload connectionId) := by
  unfold processCompound
  repeat' first
    | exact .ret _
    | exact fun _ _ => safe_guarded _
    | exact handleCompound_coherent henabled
    | refine Coherent.bind ?_ fun _ => ?_
    | split

theorem processRpcMessage_coherent (henabled : cfg.delegations.directoryDelegations = true)
    {policy : AuthPolicy} {codec : CompoundCodec} {record : Bytes} :
    Coherent d origin n backend (processRpcMessage cfg policy codec record connectionId) := by
  unfold processRpcMessage
  repeat' first
    | exact .ret _
    | exact processCompound_coherent henabled
    | refine Coherent.bind ?_ fun _ => ?_
    | split

/-! ## Runs -/

variable {tr tr' : Trace H}

theorem RecalledSince.rely {t : Nat} {e : ServerEvent H}
    (h : RecalledSince d origin t (tr ++ e :: tr'))
    (hexec : (Server.system backend).exec e.before e.call e.answer e.after) (he : e.thread ≠ t) :
    (coherence d origin ((coherence d origin 0).phaseAfter t 0 (tr ++ e :: tr'))).rely
      ((coherence d origin 0).phaseAfter t 0 tr) e.before e.after := by
  intro _ hlast k hk
  refine Server.exec_held hexec ?_ hk
  intro clientid hgranted
  by_contra horigin
  have hlt := lt_phaseAfter d origin 0 ((coherence d origin 0).phaseAfter t 0 tr)
    (h tr e tr' rfl he clientid hgranted horigin)
  rw [Contract.phaseAfter_append] at hlast
  have hskip : (coherence d origin 0).phaseAfter t ((coherence d origin 0).phaseAfter t 0 tr)
      (e :: tr') = (coherence d origin 0).phaseAfter t
        ((coherence d origin 0).phaseAfter t 0 tr) tr' := by
    show (coherence d origin 0).phaseAfter t (if e.thread = t then _ else _) tr' = _
    rw [if_neg he]
  omega

end

/-- **Coherence of directory delegations.** Let requests run against a server with directory
delegations, with their steps interleaved in any order. If no delegation on a directory goes to
another client between the recall that a change of the directory begins with and the change,
then at the moment the backend applies the change no other client holds a live delegation on
the directory. -/
theorem delegation_coherence {H : Type} [DecidableEq H] (cfg : ServerConfig H)
    (policy : AuthPolicy) (codec : CompoundCodec) {boot : Boot}
    {threads : List (Request H (Option Bytes))} {tr : Trace H}
    {c : Machine H (Option Bytes)}
    (hrun : (Server.system cfg.backend).Run ⟨Server.new H boot, threads⟩ tr c)
    (henabled : cfg.delegations.directoryDelegations = true)
    (hthreads : ∀ p ∈ threads, ∃ record connectionId,
      p = processRpcMessage cfg policy codec record connectionId)
    (hgrants : GrantsApart tr) {e : ServerEvent H} (he : e ∈ tr)
    {ctx : RequestContext} {origin : Option Clientid4} {dirs : List ServerObject}
    {q : BackendCall H} (hq : e.call = .backend ctx origin dirs q) {d : ServerObject}
    (hd : d ∈ dirs) {k : StateidOther} {state : DelegationState}
    (hk : e.before.state.inner.delegations.get k = some state) (hobject : state.object = d)
    (hlive : state.status.isLive = true) : origin = some state.clientid := by
  obtain ⟨tr₁, tr₂, rfl⟩ := List.append_of_mem he
  have hsince := hgrants tr₁ e tr₂ rfl ctx origin dirs q hq d hd
  obtain ⟨p, hp⟩ := hrun.thread_of_event
  obtain ⟨record, connectionId, rfl⟩ := hthreads p (List.mem_of_getElem? hp)
  let n := (coherence d origin 0 : Contract (Call H) _ _ _).phaseAfter e.thread 0 tr₁
  obtain ⟨ts, cont, hbefore, hthread, hexec, -⟩ := hrun.at_event
  have hsafe : Coherent d origin n cfg.backend
      (processRpcMessage cfg policy codec record connectionId) :=
    processRpcMessage_coherent henabled
  have hnew : (coherence d origin n).inv (Server.new H boot) := Server.delegating_new boot
  have hcontract := hbefore.contract hnew
    (fun m s s' h hdrift => ⟨Server.Delegating.drift h hdrift, ?_⟩) ?_ hp (hsafe 0 _)
  · obtain ⟨hinv, -, p', hp', hsafe⟩ := hcontract
    cases hthread.symm.trans hp'
    have hafter : e.after.Delegating := hinv.step hexec (by simp [hq])
    obtain ⟨hguar, -⟩ := hsafe _ hinv ((coherence d origin n).rely_refl _ _) _ _ hexec hafter
    by_contra horigin
    exact (hguar ctx dirs q hq hd).2 rfl k ⟨state, hk, hobject, hlive, horigin⟩
  · rintro _ _ k' ⟨state', hk', hrest⟩
    exact ⟨state', (hdrift.state.delegations k').trans hk', hrest⟩
  · rintro l g l' rfl hinv hexec'
    obtain ⟨p', hp'⟩ := hbefore.thread_of_event
    obtain ⟨record', connectionId', rfl⟩ := hthreads p' (List.mem_of_getElem? hp')
    have hcall := hbefore.call_along hp' (fun _ _ _ => True.intro) processRpcMessage_unretiring
    exact ⟨hinv.step hexec' hcall, hsince.rely hexec'⟩

/-! ## Two clients -/

namespace Scripted

def delegatingConfig : ServerConfig Unit := { config with delegations := ⟨true, 0, 10, 10⟩ }

/-- COMPOUNDs of two clients with sessions and callback connections. The first client removes
an entry of the root; the second asks for a delegation on the root and then removes an entry. -/
def delegatingCompounds : List Compound4Args :=
  [⟨1, [.exchangeId ⟨⟨1, [1]⟩, .none⟩]⟩, ⟨1, [.exchangeId ⟨⟨1, [2]⟩, .none⟩]⟩,
    ⟨1, [.createSession (callbackSessionArgs 1 1)]⟩,
    ⟨1, [.createSession (callbackSessionArgs 2 1)]⟩,
    ⟨1, [.sequence ⟨mintSessionid 1 2, 1, 0, 0, true⟩, .putrootfh, .remove "a"]⟩,
    ⟨1, [.sequence ⟨mintSessionid 2 2, 1, 0, 0, true⟩, .putrootfh, .getDirDelegation]⟩,
    ⟨1, [.sequence ⟨mintSessionid 2 2, 2, 0, 0, true⟩, .putrootfh, .remove "a"]⟩]

/-- The run of these requests in the order of a schedule, once both sessions exist. -/
def delegatingRun (schedule : List Nat) :
    Trace Unit ×
      Machine Unit (Option Bytes) :=
  (Server.connected Backend.single .someDir).play
    ⟨Server.new Unit .fixed, requests delegatingConfig delegatingCompounds⟩
    ([0, 1, 2, 3] ++ schedule)

theorem delegatingRun_run (schedule : List Nat) :
    (Server.system Backend.single).Run
      ⟨Server.new Unit .fixed, requests delegatingConfig delegatingCompounds⟩
      (delegatingRun schedule).1 (delegatingRun schedule).2 :=
  (Server.connected Backend.single .someDir).play_run _ _

/-- Whether the event is a change of the root by the client, at a time at which the holder has
a live delegation on the root. -/
def changesRoot (clientid holder : Clientid4)
    (e : ServerEvent Unit) : Bool :=
  e.call.applied e.answer = some (some clientid, [.fs 1]) ∧
    (e.before.state.inner.delegations.any fun _ state =>
      state.object = .fs 1 ∧ state.status.isLive ∧ state.clientid = holder)

theorem of_changesRoot (clientid holder : Clientid4)
    {tr : Trace Unit}
    (h : tr.any (changesRoot clientid holder) = true) :
    ∃ e ∈ tr, e.call.applied e.answer = some (some clientid, [.fs 1]) ∧
      ∃ k state, e.before.state.inner.delegations.get k = some state ∧ state.object = .fs 1 ∧
        state.status.isLive = true ∧ state.clientid = holder := by
  obtain ⟨e, he, hchanges⟩ := List.any_eq_true.mp h
  obtain ⟨happlied, hholder⟩ := of_decide_eq_true hchanges
  obtain ⟨k, state, hk, hstate⟩ := Table.any_eq_true.mp hholder
  exact ⟨e, he, happlied, k, state, hk, of_decide_eq_true hstate⟩

end Scripted

open Scripted

/-- The first client's REMOVE recalls the delegations on the root while there is none; then the
second client is granted one; then the backend removes the entry. -/
theorem delegation_coherence_interleaved :
    ∃ tr c, (Server.system Backend.single).Run
        ⟨Server.new Unit .fixed, requests delegatingConfig delegatingCompounds⟩ tr c ∧
      ∃ e ∈ tr, e.call.applied e.answer = some (some 1, [.fs 1]) ∧
        ∃ k state, e.before.state.inner.delegations.get k = some state ∧
          state.object = .fs 1 ∧ state.status.isLive = true ∧ state.clientid = 2 :=
  ⟨_, _, delegatingRun_run (List.replicate 16 4 ++ List.replicate 20 5 ++ [4, 4]),
    of_changesRoot 1 2 (by decide +kernel)⟩

/-- A client that holds a delegation on the root changes the root. -/
theorem delegation_coherence_own :
    ∃ tr c, (Server.system Backend.single).Run
        ⟨Server.new Unit .fixed, requests delegatingConfig delegatingCompounds⟩ tr c ∧
      GrantsApart tr ∧ ∃ e ∈ tr, ∃ ctx origin dirs q k state,
        e.call = .backend ctx origin dirs q ∧ .fs 1 ∈ dirs ∧
        e.before.state.inner.delegations.get k = some state ∧ state.object = .fs 1 ∧
        state.status.isLive = true ∧ origin = some state.clientid := by
  let tr := (delegatingRun (List.replicate 20 5 ++ List.replicate 20 6)).1
  have hrun := delegatingRun_run (List.replicate 20 5 ++ List.replicate 20 6)
  have hgrants : GrantsApart tr := .of_onlyBy 2 (by decide +kernel)
  obtain ⟨e, he, happlied, k, state, hk, hobject, hlive, -⟩ :=
    of_changesRoot 2 2 (show tr.any (changesRoot 2 2) = true by decide +kernel)
  obtain ⟨ctx, q, hq⟩ := Call.eq_of_applied happlied
  refine ⟨tr, _, hrun, hgrants, e, he, ctx, some 2, [.fs 1], q, k, state, hq, by simp, hk,
    hobject, hlive, ?_⟩
  refine delegation_coherence delegatingConfig ⟨[.none]⟩ (codecOf delegatingCompounds) hrun rfl
    ?_ hgrants he hq (List.mem_singleton.mpr rfl) hk hobject hlive
  intro p hp
  obtain ⟨i, -, rfl⟩ := List.mem_map.mp hp
  exact ⟨_, _, rfl⟩

end EmbedNfs
