import EmbedNfs.Effects.Operations

/-!
# The shape of a COMPOUND's reply

Every handler answers with a result of its own kind, and `handle_compound` stops at the first
failure. The walk over the handlers looks at what they return only: whatever their calls are
answered, each branch ends with the constructor of its operation.
-/

namespace EmbedNfs

/-- The result is of the kind that `error_res_for_op` gives the operation. -/
def NfsResop4.Answers (res : NfsResop4) (op : NfsArgop4) : Prop :=
  res.ctorIdx = (op.errorRes res.status).ctorIdx

/-- Results for all the operations, or for those up to the first that failed, and the status of
the last of them. -/
inductive Answered : List NfsArgop4 → Compound4Res → Prop where
  | done : Answered [] ⟨.ok, []⟩
  | failed {op : NfsArgop4} {ops : List NfsArgop4} {res : NfsResop4} (hres : res.Answers op)
      (hstatus : res.status ≠ .ok) : Answered (op :: ops) ⟨res.status, [res]⟩
  | next {op : NfsArgop4} {ops : List NfsArgop4} {res : NfsResop4} {rest : Compound4Res}
      (hres : res.Answers op) (hstatus : res.status = .ok) (hrest : Answered ops rest) :
      Answered (op :: ops) ⟨rest.status, res :: rest.resarray⟩

/-- Whatever its calls are answered, the program returns values with `Q`. -/
abbrev Returns {H α : Type} (Q : α → Prop) (p : Request H α) : Prop :=
  p.Ensures (fun _ _ => True) Q

/-! ## Operations -/

section

variable {H : Type} {cfg : ServerConfig H} {ctx : OpContext} {connectionId : U64}
  {state : CompoundState} {op : NfsArgop4} {ops : List NfsArgop4} {p : Request H NfsResop4}

theorem keepState_answers (hp : Returns (·.Answers op) p) :
    Returns (·.1.Answers op) (keepState state p) :=
  hp.bind fun _ h => h

theorem storeFh_answers {p : Request H (NfsResop4 × Option Bytes)}
    (hp : Returns (·.1.Answers op) p) : Returns (·.1.Answers op) (storeFh state p) :=
  hp.bind fun _ h => h

theorem onlyV40_answers {refused : NfsResop4} (hrefused : refused.Answers op)
    (hp : Returns (·.Answers op) p) : Returns (·.1.Answers op) (onlyV40 state refused p) := by
  unfold onlyV40
  split
  · exact hrefused
  · exact keepState_answers hp

theorem handleOp_answers (op : NfsArgop4) (state : CompoundState) :
    Returns (·.1.Answers op) (handleOp cfg ctx connectionId op state) := by
  cases op
  all_goals
    dsimp only [handleOp]
    first
      | refine keepState_answers ?_
      | refine storeFh_answers ?_
      | refine onlyV40_answers rfl ?_
      | skip
  all_goals
    first
      | unfold opClose | unfold opCreate | unfold opLink | unfold opLookup | unfold opPutrootfh
      | unfold opOpenReclaim opOpen | unfold opRead | unfold opRemove | unfold opRename
      | unfold opSetattr | unfold opWrite | unfold opReclaimComplete | unfold opFreeStateid
      | unfold opDelegReturn | unfold opLock lockNewOwner lockExistingOwner | unfold opLockt
      | unfold opLocku | unfold opOpenattr | unfold opDelegPurge | unfold opOpenDowngrade
      | unfold opGetDirDelegation | unfold opReaddir | skip
  -- What the calls return on the way does not matter, only how each branch ends.
  all_goals
    repeat' first
      | exact rfl
      | refine Program.Along.bind (Program.Ensures.trivial _) fun _ _ => ?_
      | split

theorem runFirst_answers (op : NfsArgop4) (state : CompoundState)
    (prepared : Option SequenceRes4) : Returns (·.1.Answers op) (runFirst cfg ctx connectionId op
      (prepared.map fun res => .sequence .ok (some res)) state) := by
  unfold runFirst
  split
  · rename_i hprepared
    obtain ⟨sequence, -, rfl⟩ := Option.map_eq_some_iff.mp hprepared
    rfl
  · exact handleOp_answers _ state

/-! ## COMPOUND -/

theorem Answered.refused (op : NfsArgop4) (ops : List NfsArgop4) {status : NfsStat4}
    (h : status ≠ .ok) : Answered (op :: ops) ⟨status, [op.errorRes status]⟩ := by
  have hstatus : (op.errorRes status).status = status := by cases op <;> rfl
  have hfailed : Answered (op :: ops) ⟨_, [op.errorRes status]⟩ :=
    .failed (by rw [NfsResop4.Answers, hstatus]) (by rwa [hstatus])
  rwa [hstatus] at hfailed

theorem thenOps_answered {p : Request H (NfsResop4 × CompoundState)}
    (hp : Returns (·.1.Answers op) p)
    (hrest : ∀ state, Returns (Answered ops) (runOps cfg ctx connectionId ops state)) :
    Returns (Answered (op :: ops)) (do
      let (res, state) ← p
      if res.status ≠ .ok then return ⟨res.status, [res]⟩
      let rest ← runOps cfg ctx connectionId ops (applyTransition op res state)
      return ⟨rest.status, res :: rest.resarray⟩) := by
  refine hp.bind fun r hr => ?_
  dsimp only
  split
  · rename_i hstatus
    exact .failed hr hstatus
  · rename_i hstatus
    exact (hrest _).bind fun rest h => .next hr (not_not.mp hstatus) h

theorem misplaced_ne_ok {isLast : Bool} {status : NfsStat4}
    (h : misplaced ctx isLast op = some status) : status ≠ .ok := by
  rintro rfl
  unfold misplaced at h
  split at h
  · cases h
  · cases h
  · split at h <;> cases h
  · split at h <;> cases h
  · cases h

theorem runOps_answered (ops : List NfsArgop4) (state : CompoundState) :
    Returns (Answered ops) (runOps cfg ctx connectionId ops state) := by
  induction ops generalizing state with
  | nil => exact .done
  | cons op ops ih =>
    unfold runOps
    split
    · rename_i status hmisplaced
      exact .refused op ops (misplaced_ne_ok hmisplaced)
    · exact thenOps_answered (handleOp_answers op state) ih

/-- **The shape of a reply.** Whatever runs meanwhile and whatever the backend answers,
`handle_compound` refuses an unknown minor version without a result, and otherwise returns, in
order, a result of the right kind for each operation up to the first that fails. All results but
the last have succeeded, and the status is that of the last one. -/
theorem compound_reply_shape (cfg : ServerConfig H) (request : RequestContext)
    (connectionId : U64) (args : Compound4Args) (prepared : Option SequenceRes4) :
    Returns (fun res => 2 < args.minorversion.toNat ∧ res = ⟨.minorVersMismatch, []⟩ ∨
        args.minorversion.toNat ≤ 2 ∧ Answered args.argarray res)
      (handleCompound cfg request connectionId args
        (prepared.map fun res => .sequence .ok (some res))) := by
  unfold handleCompound
  split
  · rename_i hversion
    exact .inl ⟨hversion, rfl⟩
  rename_i hversion
  suffices h : Returns (Answered args.argarray) _ from h.imp fun res hres => .inr ⟨by omega, hres⟩
  refine Program.Along.bind (Program.Ensures.trivial _) fun clientid _ => ?_
  dsimp only
  split
  · rename_i hops
    rw [hops]
    exact .done
  · rename_i op ops hops
    rw [hops]
    split
    · exact .refused op ops (by decide)
    split
    · refine .refused op ops ?_
      unfold NfsArgop4.withoutSequence
      split <;> decide
    · exact thenOps_answered (runFirst_answers op _ prepared) fun state => runOps_answered ops state

end

end EmbedNfs
