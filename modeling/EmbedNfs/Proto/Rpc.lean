import EmbedNfs.Proto.Xdr

/-!
# RPC messages

The call header and the reply headers of `rpc.rs`. Of the authentication errors only the
members that the server sends are listed.
-/

namespace EmbedNfs

def rpcVersion : U32 := 2
def nfsProgram : U32 := 100003
def nfsV4 : U32 := 4

inductive MsgType where
  | call
  | reply
  deriving DecidableEq, Repr

/-- `MsgType::decode`. -/
def MsgType.decode : Decoder MsgType := do
  match (← decodeU32).toNat with
  | 0 => return .call
  | 1 => return .reply
  | value => throw (.invalidEnum (BitVec.ofNat 32 value))

inductive AuthFlavor where
  | none
  | sys
  | short
  | dh
  | rpcSecGss
  deriving DecidableEq, Repr

/-- The number of a flavor on the wire. -/
def AuthFlavor.code : AuthFlavor → U32
  | .none => 0
  | .sys => 1
  | .short => 2
  | .dh => 3
  | .rpcSecGss => 6

inductive AcceptStat where
  | success
  | progUnavail
  | progMismatch
  | procUnavail
  | garbageArgs
  | systemErr
  deriving DecidableEq, Repr

def AcceptStat.code : AcceptStat → U32
  | .success => 0
  | .progUnavail => 1
  | .progMismatch => 2
  | .procUnavail => 3
  | .garbageArgs => 4
  | .systemErr => 5

inductive AuthStat where
  | badCred
  | badVerf
  | tooWeak
  deriving DecidableEq, Repr

def AuthStat.code : AuthStat → U32
  | .badCred => 1
  | .badVerf => 3
  | .tooWeak => 5

/-! ## Calls -/

def OpaqueAuth.encode (auth : OpaqueAuth) : Bytes := be32 auth.flavor ++ encodeOpaque auth.body

def OpaqueAuth.decode : Decoder OpaqueAuth := do
  let flavor ← decodeU32
  let body ← decodeOpaqueMax 400
  return ⟨flavor, body⟩

structure AuthSysParams where
  stamp : U32
  machinename : String
  uid : U32
  gid : U32
  gids : List U32
  deriving DecidableEq, Repr

def AuthSysParams.decode : Decoder AuthSysParams := do
  let stamp ← decodeU32
  let machinename ← decodeStringMax 255
  let uid ← decodeU32
  let gid ← decodeU32
  let gids ← decodeListMax decodeU32 16
  return { stamp, machinename, uid, gid, gids }

structure RpcCallHeader where
  xid : U32
  rpcvers : U32
  prog : U32
  vers : U32
  procNum : U32
  cred : OpaqueAuth
  verf : OpaqueAuth
  deriving DecidableEq, Repr

def RpcCallHeader.decode : Decoder RpcCallHeader := do
  let xid ← decodeU32
  let msgType ← decodeU32
  if msgType ≠ 0 then throw (.invalidEnum msgType)
  let rpcvers ← decodeU32
  let prog ← decodeU32
  let vers ← decodeU32
  let procNum ← decodeU32
  let cred ← OpaqueAuth.decode
  let verf ← OpaqueAuth.decode
  return { xid, rpcvers, prog, vers, procNum, cred, verf }

/-! ## Replies -/

/-- The header of an accepted reply: message type REPLY, an empty verifier, a status. -/
def rpcReply (xid : U32) (status : AcceptStat) : Bytes :=
  be32 xid ++ be32 1 ++ be32 0 ++ OpaqueAuth.null.encode ++ be32 status.code

/-- `encode_rpc_reply_accepted`. -/
def rpcReplyAccepted (xid : U32) : Bytes := rpcReply xid .success

/-- `encode_rpc_reply_prog_mismatch`. -/
def rpcReplyProgMismatch (xid low high : U32) : Bytes :=
  rpcReply xid .progMismatch ++ be32 low ++ be32 high

/-- `encode_rpc_reply_proc_unavail`. -/
def rpcReplyProcUnavail (xid : U32) : Bytes := rpcReply xid .procUnavail

/-- `encode_rpc_reply_auth_error`. -/
def rpcReplyAuthError (xid : U32) (auth : AuthStat) : Bytes :=
  be32 xid ++ be32 1 ++ be32 1 ++ be32 1 ++ be32 auth.code

/-! ## Bounds -/

theorem OpaqueAuth.decode_length {src rest : Bytes} {auth : OpaqueAuth}
    (h : OpaqueAuth.decode src = .ok (auth, rest)) : auth.body.length ≤ 400 := by
  obtain ⟨flavor, mid, -, h⟩ := decoder_bind_ok h
  obtain ⟨body, mid', hbody, h⟩ := decoder_bind_ok h
  cases h
  exact decodeOpaqueMax_length hbody

theorem RpcCallHeader.decode_cred {src rest : Bytes} {header : RpcCallHeader}
    (h : RpcCallHeader.decode src = .ok (header, rest)) : header.cred.body.length ≤ 400 := by
  obtain ⟨xid, _, -, h⟩ := decoder_bind_ok h
  obtain ⟨msgType, _, -, h⟩ := decoder_bind_ok h
  split at h
  · obtain ⟨_, _, hthrow, -⟩ := decoder_bind_ok h
    cases hthrow
  · obtain ⟨rpcvers, _, -, h⟩ := decoder_bind_ok h
    obtain ⟨prog, _, -, h⟩ := decoder_bind_ok h
    obtain ⟨vers, _, -, h⟩ := decoder_bind_ok h
    obtain ⟨procNum, _, -, h⟩ := decoder_bind_ok h
    obtain ⟨cred, _, hcred, h⟩ := decoder_bind_ok h
    obtain ⟨verf, _, -, h⟩ := decoder_bind_ok h
    cases h
    exact OpaqueAuth.decode_length hcred

end EmbedNfs
