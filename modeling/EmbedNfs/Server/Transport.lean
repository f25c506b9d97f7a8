import EmbedNfs.Proto.Rpc
import EmbedNfs.Server.Compound

/-!
# RPC requests

`process_rpc_message` of `server/transport.rs`: decode the call header, refuse what is not
NFSv4 or not authorised, and serve the COMPOUND procedure. A COMPOUND of minor version 1 or 2
that leads with SEQUENCE goes through the reply cache, under a fingerprint of its credential
and its bytes. How COMPOUND arguments and results are laid out on the wire is a parameter.
-/

namespace EmbedNfs

/-- The wire format of COMPOUND arguments, with the tag, and of results. -/
structure CompoundCodec where
  decode : Bytes → Option (String × Compound4Args)
  encode : String → Compound4Res → Bytes

/-- `AuthPolicy`. -/
structure AuthPolicy where
  flavors : List AuthFlavor

/-- `AuthPolicy::allows`. -/
def AuthPolicy.allows (policy : AuthPolicy) (flavor : U32) : Bool :=
  policy.flavors.any fun f => f.code = flavor

/-- `parse_auth_sys`. -/
def parseAuthSys (body : Bytes) : Option AuthSysParams :=
  match AuthSysParams.decode body with
  | .ok (params, []) => some params
  | _ => none

/-- `validate_rpc_auth`. -/
def validateRpcAuth (policy : AuthPolicy) (call : RpcCallHeader) : Except AuthStat Unit := do
  if !policy.allows call.cred.flavor then throw .tooWeak
  if call.cred.flavor = AuthFlavor.sys.code ∧ (parseAuthSys call.cred.body).isNone then
    throw .badCred
  if call.verf.flavor = AuthFlavor.sys.code ∧ (parseAuthSys call.verf.body).isNone then
    throw .badVerf

/-- `request_context`. -/
def requestContext (cred : OpaqueAuth) : RequestContext :=
  if cred.flavor = AuthFlavor.none.code then ⟨.none⟩
  else if cred.flavor = AuthFlavor.sys.code then
    match parseAuthSys cred.body with
    | some params => ⟨.sys params.uid params.gid params.gids⟩
    | none => ⟨.unknown cred.flavor⟩
  else ⟨.unknown cred.flavor⟩

/-- `replay_fingerprint`. -/
def replayFingerprint (cred : OpaqueAuth) (payload : Bytes) : Bytes :=
  be32 cred.flavor ++ encodeOpaque cred.body ++ payload

/-- The fingerprint determines the credential and the COMPOUND bytes, for credentials within
the limit of the header. -/
theorem replayFingerprint_inj {cred cred' : OpaqueAuth} {payload payload' : Bytes}
    (hcred : cred.body.length ≤ 400) (hcred' : cred'.body.length ≤ 400)
    (h : replayFingerprint cred payload = replayFingerprint cred' payload') :
    cred = cred' ∧ payload = payload' := by
  simp only [replayFingerprint, List.append_assoc] at h
  obtain ⟨hflavor, hrest⟩ := List.append_inj h (by simp)
  obtain ⟨hbody, hpayload⟩ := encodeOpaque_append_inj (by omega) (by omega) hrest
  cases cred
  cases cred'
  cases be32_injective hflavor
  cases hbody
  exact ⟨rfl, hpayload⟩

/-- `sequence_error_compound`. -/
def sequenceErrorCompound (status : NfsStat4) : Compound4Res := ⟨status, [.sequence status none]⟩

/-- `sequence_only_compound`. -/
def sequenceOnlyCompound (res : SequenceRes4) : Compound4Res :=
  ⟨.ok, [.sequence .ok (some res)]⟩

/-- The leading SEQUENCE of a COMPOUND that has sessions. -/
def Compound4Args.leadingSequence (args : Compound4Args) : Option SequenceArgs4 :=
  if args.minorversion = 1 ∨ args.minorversion = 2 then
    match args.argarray with
    | .sequence seqArgs :: _ => some seqArgs
    | _ => none
  else none

variable {H : Type}

/-- The COMPOUND procedure: the body of the reply. -/
def processCompound (cfg : ServerConfig H) (codec : CompoundCodec) (cred : OpaqueAuth)
    (payload : Bytes) (connectionId : U64) : Request H Bytes := do
  let some (tag, args) := codec.decode payload | return codec.encode "" ⟨.badXdr, []⟩
  let ctx := requestContext cred
  match args.leadingSequence with
  | some seqArgs =>
    match ← guarded (.prepareSequence seqArgs (replayFingerprint cred payload) connectionId) with
    | .execute res token =>
      let result ← handleCompound cfg ctx connectionId args (some (.sequence .ok (some res)))
      let body := codec.encode tag result
      -- A failure to store the reply is only logged.
      discard (guarded (.finishSequence token body))
      return body
    | .replay cached => return cached
    | .statusOnly res => return codec.encode tag (sequenceOnlyCompound res)
    | .error status => return codec.encode tag (sequenceErrorCompound status)
  | none => return codec.encode tag (← handleCompound cfg ctx connectionId args none)

/-- `process_rpc_message`: the reply to a record, if there is one. -/
def processRpcMessage (cfg : ServerConfig H) (policy : AuthPolicy) (codec : CompoundCodec)
    (data : Bytes) (connectionId : U64) : Request H (Option Bytes) :=
  match RpcCallHeader.decode data with
  | .error _ => return none
  | .ok (call, payload) =>
    if call.rpcvers ≠ rpcVersion then
      return some (rpcReplyProgMismatch call.xid rpcVersion rpcVersion)
    else if call.prog ≠ nfsProgram then
      return some (rpcReplyProgMismatch call.xid nfsProgram nfsProgram)
    else if call.vers ≠ nfsV4 then return some (rpcReplyProgMismatch call.xid nfsV4 nfsV4)
    else if call.procNum = 0 then return some (rpcReplyAccepted call.xid)
    else
      match validateRpcAuth policy call with
      | .error auth => return some (rpcReplyAuthError call.xid auth)
      | .ok () =>
        if call.procNum = 1 then do
          let body ← processCompound cfg codec call.cred payload connectionId
          return some (rpcReplyAccepted call.xid ++ body)
        else return some (rpcReplyProcUnavail call.xid)

end EmbedNfs
