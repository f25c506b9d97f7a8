import EmbedNfs.Effects.Helpers
import EmbedNfs.Server.Compound

/-!
# What operations do

Most calls of an operation are background calls: they reap, look things up, keep metadata,
recall delegations or reach the backend, and make no open, lock, delegation, client or session.
Namespace operations and I/O make background calls only; each other operation adds a section of
its own. No operation prepares or finishes a SEQUENCE, closes a connection or retires an object:
those steps belong to the transport and to the server's own maintenance.
-/

namespace EmbedNfs

variable {H α β ε : Type}

/-- The calls that make no open, lock, delegation, client or session, and change no
directory. -/
def Call.Background : Call H → Prop
  | .guarded (.resolveConcrete _ _) | .guarded (.validateOpenReclaim _ _)
  | .guarded (.hasConflictingShareDeny _ _ _) | .guarded (.hasConflictingIoLock _ _ _ _ _ _)
  | .guarded (.findLockConflict _ _ _ _ _ _) | .guarded (.touchData _ _)
  | .guarded (.touchMetadata _ _) | .guarded (.applySetattr _ _ _)
  | .guarded (.beginDirectoryRecallExcluding _ _) => True
  | c => c.Recalling

/-- Background calls, and backend calls that change directories. -/
def Call.Mutating : Call H → Prop
  | .backend _ _ _ _ => True
  | c => c.Background

/-- The calls that operations make which change no directory. -/
def Call.Operational : Call H → Prop
  | .guarded (.prepareSequence _ _ _) | .guarded (.finishSequence _ _)
  | .guarded (.removeConnection _) | .guarded (.dropBelonging _)
  | .guarded (.writeDelegationsOver _) | .mapOp (.retire _) | .retireMatching _ => False
  | .backend _ _ dirs _ => dirs = []
  | _ => True

/-- The calls that operations make. -/
def Call.Requested : Call H → Prop
  | .backend _ _ _ _ => True
  | c => c.Operational

theorem Call.Recalling.background {c : Call H} (h : c.Recalling) : c.Background := by
  cases c with
  | guarded q => cases q <;> first | exact h | exact True.intro
  | _ => exact h

theorem Call.Background.mutating {c : Call H} (h : c.Background) : c.Mutating := by
  cases c with
  | backend ctx origin dirs q => exact True.intro
  | _ => exact h

theorem Call.Background.operational {c : Call H} (h : c.Background) : c.Operational := by
  cases c with
  | guarded q => cases q <;> first | exact h | exact True.intro
  | mapOp q => cases q <;> exact h
  | retireMatching fence => exact h
  | backend ctx origin dirs q => exact h
  | _ => exact True.intro

theorem Call.Operational.requested {c : Call H} (h : c.Operational) : c.Requested := by
  cases c with
  | backend ctx origin dirs q => exact True.intro
  | _ => exact h

theorem Call.Mutating.requested {c : Call H} (h : c.Mutating) : c.Requested := by
  cases c with
  | backend ctx origin dirs q => exact True.intro
  | guarded q => exact Call.Background.operational (c := .guarded q) h
  | mapOp q => exact Call.Background.operational (c := .mapOp q) h
  | retireMatching fence => exact h
  | _ => exact True.intro

theorem Background.operational {p : Request H α} (h : p.All Call.Background) :
    p.All Call.Operational :=
  h.mono (fun _ _ h => h) (fun _ => Call.Background.operational) fun _ h => h

theorem Background.mutating {p : Request H α} (h : p.All Call.Background) :
    p.All Call.Mutating :=
  h.mono (fun _ _ h => h) (fun _ => Call.Background.mutating) fun _ h => h

theorem Operational.requested {p : Request H α} (h : p.All Call.Operational) :
    p.All Call.Requested :=
  h.mono (fun _ _ h => h) (fun _ => Call.Operational.requested) fun _ h => h

theorem Mutating.requested {p : Request H α} (h : p.All Call.Mutating) :
    p.All Call.Requested :=
  h.mono (fun _ _ h => h) (fun _ => Call.Mutating.requested) fun _ h => h

theorem Helper.background {Q : α → Prop} {p : Request H α} (h : Helper False Q p) :
    p.All Call.Background :=
  h.all.mono (fun _ _ h => h) (fun _ hc => hc.recalling.background) fun _ h => h

theorem Helper.mutating {Q : α → Prop} {p : Request H α} (h : Helper False Q p) :
    p.All Call.Mutating :=
  Background.mutating h.background

theorem recallDirectoryDelegations_background (config : DelegationConfig) (object : ServerObject)
    (excluded : Option Clientid4) :
    (recallDirectoryDelegations config object excluded : Request H _).All Call.Background :=
  recallDirectoryDelegations_along config object excluded True.intro fun _ =>
    Call.Recalling.background

/-! ## Programs known to make such calls -/

/-- The program makes calls with `P` only. Being a class it is found by itself for what the
operations are made of. -/
class MakesOnly (P : Call H → Prop) (p : Request H α) : Prop where
  all : p.All P

instance {p : Request H α} [h : MakesOnly Call.Background p] : MakesOnly Call.Mutating p :=
  ⟨Background.mutating h.all⟩

instance {p : Request H α} [h : MakesOnly Call.Background p] : MakesOnly Call.Operational p :=
  ⟨Background.operational h.all⟩

instance {p : Request H α} [h : MakesOnly Call.Operational p] : MakesOnly Call.Requested p :=
  ⟨Operational.requested h.all⟩

instance {p : Request H α} [h : MakesOnly Call.Mutating p] : MakesOnly Call.Requested p :=
  ⟨Mutating.requested h.all⟩

instance {P : Call H → Prop} {p : Request H α} [h : MakesOnly P p] : MakesOnly P (discard p) :=
  ⟨h.all.discard⟩

section

variable {backend : Backend H} {ctx : RequestContext} {object : ServerObject} {id : ObjectId}
  {need : AccessMask} {name : String}

instance : MakesOnly (H := H) Call.Background (resolveBackendHandle id) :=
  ⟨(resolveBackendHandle_helper id).background⟩

instance {handle : H} : MakesOnly Call.Background (registerHandle handle) :=
  ⟨(registerHandle_helper handle).background⟩

instance : MakesOnly (H := H) Call.Background (objectToFh object) :=
  ⟨(objectToFh_helper object).background⟩

instance {fh : Option Bytes} : MakesOnly Call.Background (resolveObject backend fh) :=
  ⟨(resolveObject_helper fh).background⟩

instance : MakesOnly (H := H) Call.Background (getattr ctx id) := ⟨(getattr_helper id).background⟩

instance : MakesOnly (H := H) Call.Background (kindOf ctx id) := ⟨(kindOf_helper id).background⟩

instance : MakesOnly (H := H) Call.Background (lookup ctx id name) :=
  ⟨(lookup_helper id name).background⟩

instance : MakesOnly Call.Background (xattrValue backend ctx id name) :=
  ⟨(xattrValue_helper id name).background⟩

instance : MakesOnly Call.Background (refreshXattrSummary backend ctx id) :=
  ⟨(refreshXattrSummary_helper id).background⟩

instance : MakesOnly Call.Background (buildAttr backend ctx object) :=
  ⟨(buildAttr_helper object).background⟩

instance {before : U64} : MakesOnly Call.Background (mutationChangeInfo backend ctx object before) :=
  ⟨(mutationChangeInfo_helper object before).background⟩

instance : MakesOnly (H := H) Call.Background (requireAccess ctx id need) :=
  ⟨(requireAccess_helper id need).background⟩

instance {ctx : OpContext} : MakesOnly (H := H) Call.Background (namedAttrGate ctx object need) :=
  ⟨(namedAttrGate_helper object need).background⟩

instance {config : DelegationConfig} {excluded : Option Clientid4} :
    MakesOnly (H := H) Call.Background (recallDirectoryDelegations config object excluded) :=
  ⟨recallDirectoryDelegations_background config object excluded⟩

end

section

variable {P : Call H → Prop}

theorem perform_all {c : Call H} (h : P c) : (Program.perform c : Request H c.Ret).All P :=
  ⟨h, fun _ _ => trivial⟩

theorem guarded_all {c : Section} (h : P (.guarded c)) : (guarded c : Request H c.Ret).All P :=
  perform_all h

theorem reapThen_all {c : Section} (hreap : P (.guarded .reapExpiredClients))
    (h : P (.guarded c)) : (reapThen c : Request H c.Ret).All P :=
  ⟨hreap, fun _ _ => ⟨h, fun _ _ => trivial⟩⟩

theorem andThen_all {p : Request H (Except ε α)} {f : α → Request H (Except ε β)}
    (hp : p.All P) (hf : ∀ a, (f a).All P) : (Request.andThen p f).All P := by
  refine Program.All.bind hp fun r => ?_
  cases r with
  | ok a => exact hf a
  | error e => trivial

end

section

variable {backend : Backend H} {config : DelegationConfig} {ctx : OpContext}

/-! ## Stateids and notifications -/

theorem resolveStateidOp_background {clientid : Option Clientid4} {requested : Stateid4}
    {current : Option Stateid4} {mode : CurrentStateidMode} :
    (resolveStateidOp clientid requested current mode : Request H _).All Call.Background := by
  refine Program.All.bind (guarded_all trivial) fun _ => ?_
  split
  · trivial
  · trivial
  · trivial
  · exact guarded_all trivial

theorem validateIoStateid_background {object : ServerObject} {stateid : Stateid4}
    {current : Option Stateid4} {clientid : Option Clientid4} {isWrite : Bool}
    {offset length : U64} :
    (validateIoStateid object stateid current clientid isWrite offset length :
      Request H _).All Call.Background := by
  refine andThen_all (andThen_all resolveStateidOp_background fun resolved => ?_)
    fun resolved => ?_
  · split <;> trivial
  · dsimp only
    split
    · trivial
    · refine Program.All.bind (reapThen_all trivial trivial) fun _ => ?_
      split
      · trivial
      · refine Program.All.bind (reapThen_all trivial trivial) fun _ => ?_
        split <;> trivial

theorem notifyLifecycle_background {object : ServerObject} {event : H → BackendCall H} :
    (notifyLifecycle backend ctx object event).All Call.Background := by
  unfold notifyLifecycle
  repeat' first
    | exact True.intro
    | exact MakesOnly.all
    | with_reducible exact (askBackend_helper _).background.discard
    | refine Program.All.bind ?_ fun _ => ?_
    | split

/-! ## Backend mutations -/

theorem createObject_mutating {ctx : RequestContext} (origin : Option Clientid4)
    (dirId : ObjectId) (name : String) (kind : CreateKind) (attrs : SetAttrs) :
    (createObject ctx origin dirId name kind attrs : Request H _).All Call.Mutating :=
  andThen_all (resolveBackendHandle_helper dirId).mutating fun _ =>
    andThen_all (perform_all trivial) fun created => (registerHandle_helper created).mutating

theorem createByType_mutating {args : CreateArgs4} {dirId : ObjectId} {attrs : SetAttrs} :
    (createByType backend ctx args dirId attrs).All Call.Mutating := by
  unfold createByType
  repeat' first
    | exact True.intro
    | exact MakesOnly.all
    | with_reducible exact createObject_mutating ..
    | exact perform_all True.intro
    | refine Program.All.bind ?_ fun _ => ?_
    | split

theorem opCreate_mutating {args : CreateArgs4} {currentFh : Option Bytes} :
    (opCreate backend config ctx args currentFh).All Call.Mutating := by
  unfold opCreate
  repeat' first
    | exact True.intro
    | exact MakesOnly.all
    | with_reducible exact createByType_mutating
    | refine Program.All.bind ?_ fun _ => ?_
    | split

theorem opLink_mutating {newname : String} {currentFh savedFh : Option Bytes} :
    (opLink backend config ctx newname currentFh savedFh).All Call.Mutating := by
  unfold opLink
  repeat' first
    | exact True.intro
    | exact MakesOnly.all
    | exact perform_all True.intro
    | refine Program.All.bind ?_ fun _ => ?_
    | split

theorem removeFrom_mutating {dirs : List ServerObject} {dirObject : ServerObject}
    {target : String} : (removeFrom backend ctx dirs dirObject target).All Call.Mutating := by
  unfold removeFrom remove
  repeat' first
    | exact True.intro
    | exact MakesOnly.all
    | exact guarded_all True.intro
    | exact perform_all True.intro
    | refine andThen_all ?_ fun _ => ?_
    | refine Program.All.bind ?_ fun _ => ?_
    | split

theorem opRemove_mutating {target : String} {currentFh : Option Bytes} :
    (opRemove backend config ctx target currentFh).All Call.Mutating := by
  unfold opRemove removeGate recallIfDir
  repeat' first
    | exact True.intro
    | exact MakesOnly.all
    | with_reducible exact removeFrom_mutating
    | refine Program.All.bind ?_ fun _ => ?_
    | split

theorem opRename_mutating {args : RenameArgs4} {currentFh savedFh : Option Bytes} :
    (opRename backend config ctx args currentFh savedFh).All Call.Mutating := by
  unfold opRename recallBoth rename
  repeat' first
    | exact True.intro
    | exact MakesOnly.all
    | exact perform_all True.intro
    | refine andThen_all ?_ fun _ => ?_
    | refine Program.All.bind ?_ fun _ => ?_
    | split

theorem setattrCurrent_background {object : ServerObject} {setAttrs : SetAttrs} :
    (setattrCurrent backend config ctx object setAttrs).All Call.Background := by
  unfold setattrCurrent
  repeat' first
    | exact True.intro
    | exact MakesOnly.all
    | refine Program.All.bind ?_ fun _ => ?_
    | split

theorem setattrGate_mutating {object : ServerObject} {setAttrs : SetAttrs} :
    (setattrGate ctx object setAttrs : Request H _).All Call.Mutating := by
  unfold setattrGate
  split
  · exact (namedAttrGate_helper _ _).mutating
  · exact True.intro

theorem setattrDirectory_mutating {object : ServerObject} {setAttrs : SetAttrs}
    {currentAttr : Option ServerFileAttr} :
    (setattrDirectory config ctx object setAttrs currentAttr : Request H _).All Call.Mutating := by
  unfold setattrDirectory
  repeat' first
    | exact True.intro
    | exact MakesOnly.all
    | refine Program.All.bind ?_ fun _ => ?_
    | split

theorem setattrSize_mutating {args : SetattrArgs4} {object : ServerObject} {setAttrs : SetAttrs}
    {currentAttr : Option ServerFileAttr} {currentStateid : Option Stateid4} :
    (setattrSize ctx args object setAttrs currentAttr currentStateid : Request H _).All
      Call.Mutating := by
  unfold setattrSize
  repeat' first
    | exact True.intro
    | exact MakesOnly.all
    | with_reducible exact Background.mutating validateIoStateid_background
    | refine Program.All.bind ?_ fun _ => ?_
    | split

theorem setattrApply_mutating {object : ServerObject} {setAttrs : SetAttrs}
    {dirs : List ServerObject} :
    (setattrApply backend ctx object setAttrs dirs).All Call.Mutating := by
  unfold setattrApply setattrResize setattrReal xattrResize
  repeat' first
    | exact True.intro
    | exact MakesOnly.all
    | with_reducible exact (askBackend_helper _).mutating
    | exact guarded_all True.intro
    | exact perform_all True.intro
    | refine andThen_all ?_ fun _ => ?_
    | refine Program.All.bind ?_ fun _ => ?_
    | split

theorem opSetattr_mutating {args : SetattrArgs4} {currentFh : Option Bytes}
    {currentStateid : Option Stateid4} :
    (opSetattr backend config ctx args currentFh currentStateid).All Call.Mutating := by
  unfold opSetattr
  repeat' first
    | exact True.intro
    | exact MakesOnly.all
    | with_reducible exact setattrGate_mutating
    | with_reducible exact Background.mutating setattrCurrent_background
    | with_reducible exact setattrDirectory_mutating
    | with_reducible exact setattrSize_mutating
    | with_reducible exact setattrApply_mutating
    | refine Program.All.bind ?_ fun _ => ?_
    | split

/-! ## Reading, writing and looking up -/

theorem opRead_background {args : ReadArgs4} {currentFh : Option Bytes}
    {currentStateid : Option Stateid4} :
    (opRead backend ctx args currentFh currentStateid).All Call.Background := by
  unfold opRead readObject read xattrReadSlice
  repeat' first
    | exact True.intro
    | exact MakesOnly.all
    | with_reducible exact (askBackend_helper _).background
    | with_reducible exact validateIoStateid_background
    | refine andThen_all ?_ fun _ => ?_
    | refine Program.All.bind ?_ fun _ => ?_
    | split
    | dsimp only

theorem opWrite_background {writeVerifier : Verifier4} {args : WriteArgs4}
    {currentFh : Option Bytes} {currentStateid : Option Stateid4} :
    (opWrite backend writeVerifier ctx args currentFh currentStateid).All Call.Background := by
  unfold opWrite writeObject write xattrWrite touchWritten
  repeat' first
    | exact True.intro
    | exact MakesOnly.all
    | with_reducible exact (askBackend_helper _).background
    | with_reducible exact validateIoStateid_background
    | exact guarded_all True.intro
    | refine andThen_all ?_ fun _ => ?_
    | refine Program.All.bind ?_ fun _ => ?_
    | split
    | dsimp only

theorem opLookup_background {name : String} {currentFh : Option Bytes} :
    (opLookup backend ctx name currentFh).All Call.Background := by
  unfold opLookup lookupChild
  repeat' first
    | exact True.intro
    | exact MakesOnly.all
    | refine Program.All.bind ?_ fun _ => ?_
    | split

theorem opOpenattr_background {currentFh : Option Bytes} :
    (opOpenattr backend currentFh).All Call.Background := by
  unfold opOpenattr
  repeat' first
    | exact True.intro
    | exact MakesOnly.all
    | exact Program.Along.discard (guarded_all True.intro)
    | refine Program.All.bind ?_ fun _ => ?_
    | split

theorem opPutrootfh_background {currentFh : Option Bytes} :
    (opPutrootfh backend currentFh).All Call.Background := by
  unfold opPutrootfh
  repeat' first
    | exact True.intro
    | exact MakesOnly.all
    | refine Program.All.bind ?_ fun _ => ?_
    | split

theorem registerEntries_background (entries : List (DirEntry H)) :
    (registerEntries entries).All Call.Background := by
  induction entries with
  | nil => trivial
  | cons entry entries ih =>
    refine Program.All.bind (registerHandle_helper _).background fun r => ?_
    cases r with
    | ok id => exact Program.All.bind ih fun _ => trivial
    | error e => exact ih

theorem readdirItems_background {request : RequestContext} {args : ReaddirArgs4}
    {object : ServerObject} : (readdirItems backend request args object).All Call.Background := by
  unfold readdirItems readdir
  repeat' first
    | exact True.intro
    | exact MakesOnly.all
    | with_reducible exact (askBackend_helper _).background
    | with_reducible exact registerEntries_background _
    | refine andThen_all ?_ fun _ => ?_
    | refine Program.All.bind ?_ fun _ => ?_
    | split

theorem readdirLoop_background {encode : FattrEncoder} {request : RequestContext}
    {args : ReaddirArgs4} {minorversion : U32} (items : List ReaddirItem) (reply : ReaddirReply) :
    (readdirLoop backend encode request args minorversion items reply).All Call.Background := by
  induction items generalizing reply with
  | nil => trivial
  | cons item items ih =>
    unfold readdirLoop itemAttr itemStats statfsForObject
    repeat' first
      | exact True.intro
      | exact MakesOnly.all
      | exact ih _
      | with_reducible exact (askBackend_helper _).background
      | refine andThen_all ?_ fun _ => ?_
      | refine Program.All.bind ?_ fun _ => ?_
      | split
      | dsimp only

theorem opReaddir_background {encode : FattrEncoder} {request : RequestContext}
    {args : ReaddirArgs4} {currentFh : Option Bytes} {minorversion : U32} :
    (opReaddir backend encode request args currentFh minorversion).All Call.Background := by
  unfold opReaddir readdirGate
  repeat' first
    | exact True.intro
    | exact MakesOnly.all
    | with_reducible exact readdirItems_background
    | with_reducible exact readdirLoop_background _ _
    | refine Program.All.bind ?_ fun _ => ?_
    | split

theorem opLockt_background {args : LocktArgs4} {currentFh : Option Bytes} :
    (opLockt backend ctx args currentFh).All Call.Background := by
  unfold opLockt
  repeat' first
    | exact True.intro
    | exact MakesOnly.all
    | exact reapThen_all True.intro True.intro
    | refine Program.All.bind ?_ fun _ => ?_
    | split

/-! ## OPEN, up to the section that makes the open -/

theorem openXattrGate_background {args : OpenArgs4} {container : ServerObject} :
    (openXattrGate ctx args container : Request H _).All Call.Background := by
  unfold openXattrGate
  repeat' first
    | exact True.intro
    | exact MakesOnly.all
    | split

theorem openInDirectory_mutating {args : OpenArgs4} {dirId : ObjectId} {name : String}
    {beforeAttr : Except FsError ServerFileAttr} :
    (openInDirectory backend config ctx args dirId name beforeAttr).All Call.Mutating := by
  unfold openInDirectory
  repeat' first
    | exact True.intro
    | exact MakesOnly.all
    | with_reducible exact createObject_mutating ..
    | refine Program.All.bind ?_ fun _ => ?_
    | split

theorem openNamedAttr_mutating {args : OpenArgs4} {parent : ObjectId} {name : String}
    {beforeAttr : Except FsError ServerFileAttr} :
    (openNamedAttr backend config ctx args parent name beforeAttr).All Call.Mutating := by
  unfold openNamedAttr
  dsimp only
  repeat' first
    | exact True.intro
    | exact MakesOnly.all
    | with_reducible exact (askBackend_helper _).mutating
    | exact guarded_all True.intro
    | exact perform_all True.intro
    | refine Program.All.bind ?_ fun _ => ?_
    | split

theorem openTarget_mutating {args : OpenArgs4} {container : ServerObject}
    {beforeAttr : Except FsError ServerFileAttr} :
    (openTarget backend config ctx args container beforeAttr).All Call.Mutating := by
  unfold openTarget
  repeat' first
    | exact True.intro
    | with_reducible exact openInDirectory_mutating
    | with_reducible exact openNamedAttr_mutating
    | split

theorem openAccessCheck_background {args : OpenArgs4} {target : OpenTarget} :
    (openAccessCheck ctx args target : Request H _).All Call.Background := by
  unfold openAccessCheck
  repeat' first
    | exact True.intro
    | exact MakesOnly.all
    | split

theorem openChangeInfo_background {container : ServerObject}
    {beforeAttr : Except FsError ServerFileAttr} {target : OpenTarget} :
    (openChangeInfo backend ctx container beforeAttr target).All Call.Background := by
  unfold openChangeInfo
  repeat' first
    | exact True.intro
    | exact MakesOnly.all
    | refine Program.All.bind ?_ fun _ => ?_
    | split

theorem notifyOpen_background {args : OpenArgs4} {object : ServerObject} :
    (notifyOpen backend ctx args object).All Call.Background := by
  unfold notifyOpen
  repeat' first
    | exact True.intro
    | with_reducible exact notifyLifecycle_background
    | split

/-! ## Operations with a section of their own -/

theorem finishOpen_operational {args : OpenArgs4} {minorversion : U32} {container : ServerObject}
    {beforeAttr : Except FsError ServerFileAttr} {currentFh : Option Bytes} {target : OpenTarget} :
    (finishOpen backend ctx args minorversion container beforeAttr currentFh target).All
      Call.Operational := by
  unfold finishOpen
  repeat' first
    | exact True.intro
    | exact MakesOnly.all
    | with_reducible exact Background.operational openChangeInfo_background
    | with_reducible exact Background.operational notifyOpen_background
    | exact reapThen_all True.intro True.intro
    | refine Program.All.bind ?_ fun _ => ?_
    | split

theorem opOpen_requested {args : OpenArgs4} {currentFh : Option Bytes} {minorversion : U32} :
    (opOpen backend config ctx args currentFh minorversion).All Call.Requested := by
  unfold opOpen
  repeat' first
    | exact True.intro
    | exact MakesOnly.all
    | exact Operational.requested <| Background.operational openXattrGate_background
    | exact Mutating.requested openTarget_mutating
    | exact Operational.requested <| Background.operational openAccessCheck_background
    | exact Operational.requested finishOpen_operational
    | refine Program.All.bind ?_ fun _ => ?_
    | split

theorem opClose_operational {stateid : Stateid4} {currentFh : Option Bytes}
    {currentStateid : Option Stateid4} :
    (opClose backend ctx stateid currentFh currentStateid).All Call.Operational := by
  unfold opClose notifyClose
  repeat' first
    | exact True.intro
    | exact MakesOnly.all
    | with_reducible exact Background.operational resolveStateidOp_background
    | with_reducible exact Background.operational notifyLifecycle_background
    | exact reapThen_all True.intro True.intro
    | refine Program.All.bind ?_ fun _ => ?_
    | split

theorem opOpenDowngrade_operational {args : OpenDowngradeArgs4}
    {currentStateid : Option Stateid4} :
    (opOpenDowngrade ctx args currentStateid : Request H _).All Call.Operational := by
  unfold opOpenDowngrade
  repeat' first
    | exact True.intro
    | with_reducible exact Background.operational resolveStateidOp_background
    | exact reapThen_all True.intro True.intro
    | refine Program.All.bind ?_ fun _ => ?_
    | split

theorem opLock_operational {args : LockArgs4} {currentFh : Option Bytes}
    {currentStateid : Option Stateid4} :
    (opLock backend ctx args currentFh currentStateid).All Call.Operational := by
  unfold opLock lockNewOwner lockExistingOwner
  repeat' first
    | exact True.intro
    | exact MakesOnly.all
    | with_reducible exact Background.operational resolveStateidOp_background
    | exact reapThen_all True.intro True.intro
    | refine Program.All.bind ?_ fun _ => ?_
    | split

theorem opLocku_operational {args : LockuArgs4} {currentFh : Option Bytes}
    {currentStateid : Option Stateid4} :
    (opLocku backend ctx args currentFh currentStateid).All Call.Operational := by
  unfold opLocku
  repeat' first
    | exact True.intro
    | exact MakesOnly.all
    | with_reducible exact Background.operational resolveStateidOp_background
    | exact reapThen_all True.intro True.intro
    | refine Program.All.bind ?_ fun _ => ?_
    | split

theorem anyConnection_operational (ids : List U64) :
    (anyConnection ids : Request H _).All Call.Operational := by
  induction ids with
  | nil => trivial
  | cons id ids ih =>
    refine Program.All.bind (perform_all trivial) fun connected => ?_
    split
    · trivial
    · exact ih

theorem opGetDirDelegation_operational {cfg : ServerConfig H} {currentFh : Option Bytes}
    {minorversion : U32} :
    (opGetDirDelegation cfg ctx currentFh minorversion).All Call.Operational := by
  unfold opGetDirDelegation hasCallbackPath
  repeat' first
    | exact True.intro
    | exact MakesOnly.all
    | exact guarded_all True.intro
    | with_reducible exact anyConnection_operational _
    | exact reapThen_all True.intro True.intro
    | refine Program.All.bind ?_ fun _ => ?_
    | split

theorem opReclaimComplete_operational {oneFs : Bool} {currentFh : Option Bytes} :
    (opReclaimComplete backend ctx oneFs currentFh).All Call.Operational := by
  unfold opReclaimComplete
  repeat' first
    | exact True.intro
    | exact MakesOnly.all
    | exact guarded_all True.intro
    | refine Program.All.bind ?_ fun _ => ?_
    | split

/-! ## Dispatch -/

variable {cfg : ServerConfig H} {connectionId : U64} {state : CompoundState}

variable {P : Call H → Prop}

theorem keepState_all {p : Request H NfsResop4} (hp : p.All P) : (keepState state p).All P :=
  hp.bind fun _ => trivial

theorem storeFh_all {p : Request H (NfsResop4 × Option Bytes)} (hp : p.All P) :
    (storeFh state p).All P :=
  hp.bind fun _ => trivial

theorem onlyV40_all {refused : NfsResop4} {p : Request H NfsResop4} (hp : p.All P) :
    (onlyV40 state refused p).All P := by
  unfold onlyV40
  split
  · trivial
  · exact keepState_all hp

/-- Whether the operation may change a directory. -/
def NfsArgop4.mutates : NfsArgop4 → Bool
  | .create _ | .link _ | .open _ | .remove _ | .rename _ | .setattr _ => true
  | _ => false

/-- **Operations are operational**, and those that change no directory say so. -/
theorem handleOp_operational {op : NfsArgop4} (h : op.mutates = false) :
    (handleOp cfg ctx connectionId op state).All Call.Operational := by
  cases op with
  | close stateid => exact keepState_all opClose_operational
  | create args => cases h
  | getfh =>
    simp only [handleOp]
    split <;> trivial
  | link newname => cases h
  | lookup name => exact storeFh_all (Background.operational opLookup_background)
  | «open» args => cases h
  | putfh object =>
    simp only [handleOp]
    split <;> trivial
  | putrootfh => exact storeFh_all (Background.operational opPutrootfh_background)
  | read args => exact keepState_all (Background.operational opRead_background)
  | remove target => cases h
  | rename args => cases h
  | restorefh =>
    simp only [handleOp]
    split <;> trivial
  | savefh =>
    simp only [handleOp]
    split <;> trivial
  | setattr args => cases h
  | write args => exact keepState_all (Background.operational opWrite_background)
  | reclaimComplete oneFs => exact keepState_all opReclaimComplete_operational
  | freeStateid stateid =>
    refine keepState_all ?_
    unfold opFreeStateid
    split
    · refine Program.All.bind trivial fun _ => ?_
      exact Program.All.bind (reapThen_all trivial trivial) fun _ => trivial
    · trivial
  | delegReturn stateid =>
    refine keepState_all ?_
    unfold opDelegReturn
    split
    · trivial
    · split
      · refine Program.All.bind trivial fun _ => ?_
        exact Program.All.bind (reapThen_all trivial trivial) fun _ => trivial
      · trivial
  | delegPurge =>
    refine keepState_all ?_
    unfold opDelegPurge
    split
    · split
      · trivial
      · exact Program.All.bind (reapThen_all trivial trivial) fun _ => trivial
    · trivial
  | lock args => exact keepState_all opLock_operational
  | lockt args => exact keepState_all (Background.operational opLockt_background)
  | locku args => exact keepState_all opLocku_operational
  | openAttr => exact storeFh_all (Background.operational opOpenattr_background)
  | openDowngrade args => exact keepState_all opOpenDowngrade_operational
  | getDirDelegation => exact keepState_all opGetDirDelegation_operational
  | readdir args => exact keepState_all (Background.operational opReaddir_background)
  | sequence args => trivial
  | illegal => trivial
  | openConfirm stateid =>
    refine onlyV40_all (Program.All.bind (reapThen_all trivial trivial) fun r => ?_)
    split <;> trivial
  | renew clientid =>
    exact onlyV40_all (Program.All.bind (guarded_all trivial) fun _ => trivial)
  | setClientId args =>
    exact onlyV40_all (Program.All.bind (guarded_all trivial) fun _ => trivial)
  | setClientIdConfirm args =>
    exact onlyV40_all (Program.All.bind (guarded_all trivial) fun _ => trivial)
  | destroySession sessionid =>
    exact keepState_all (Program.All.bind (guarded_all trivial) fun _ => trivial)
  | destroyClientid clientid =>
    exact keepState_all (Program.All.bind (guarded_all trivial) fun _ => trivial)
  | testStateid stateids =>
    exact keepState_all
      (Program.All.bind (reapThen_all trivial trivial) fun _ => trivial)
  | exchangeId args =>
    refine keepState_all (Program.All.bind (guarded_all trivial) fun r => ?_)
    split <;> trivial
  | createSession args =>
    refine keepState_all (Program.All.bind (guarded_all trivial) fun r => ?_)
    split <;> trivial
  | bindConnToSession args =>
    refine keepState_all (Program.All.bind (guarded_all trivial) fun r => ?_)
    split <;> trivial

theorem opOpenReclaim_requested {args : OpenArgs4} :
    (opOpenReclaim cfg ctx args state).All Call.Requested := by
  unfold opOpenReclaim
  split
  · exact opOpen_requested
  · refine Program.All.bind (reapThen_all trivial trivial) fun r => ?_
    split
    · trivial
    · exact opOpen_requested

theorem handleOp_requested (op : NfsArgop4) :
    (handleOp cfg ctx connectionId op state).All Call.Requested := by
  cases h : op.mutates with
  | false => exact Operational.requested (handleOp_operational h)
  | true =>
    cases op with
    | create args => exact storeFh_all (Mutating.requested opCreate_mutating)
    | link newname => exact keepState_all (Mutating.requested opLink_mutating)
    | «open» args => exact storeFh_all opOpenReclaim_requested
    | remove target => exact keepState_all (Mutating.requested opRemove_mutating)
    | rename args => exact keepState_all (Mutating.requested opRename_mutating)
    | setattr args => exact keepState_all (Mutating.requested opSetattr_mutating)
    | _ => cases h

theorem runOps_requested (ops : List NfsArgop4) (state : CompoundState) :
    (runOps cfg ctx connectionId ops state).All Call.Requested := by
  induction ops generalizing state with
  | nil => trivial
  | cons op ops ih =>
    unfold runOps
    split
    · trivial
    · refine Program.All.bind (handleOp_requested op) fun (res, state) => ?_
      dsimp only
      split
      · trivial
      · exact (ih _).bind fun _ => trivial

theorem handleCompound_requested {request : RequestContext} {args : Compound4Args}
    {prepared : Option NfsResop4} :
    (handleCompound cfg request connectionId args prepared).All Call.Requested := by
  unfold handleCompound leadingClientid runFirst
  repeat' first
    | exact True.intro
    | exact guarded_all True.intro
    | exact handleOp_requested _
    | exact runOps_requested _ _
    | refine Program.All.bind ?_ fun _ => ?_
    | split

end

end EmbedNfs
