import EmbedNfs.Fs
import EmbedNfs.Lib.Interleaving
import EmbedNfs.Session.Calls

/-!
# The server's atomic steps

The server adds to the state manager a registration map between backend handles and object
ids, the list of retirement fences, and the world outside: the backend, the clients'
callback connections and the clock. `Call H` lists every atomic step a request can take,
`Server.exec` says what a step does. What the outside answers is not determined: any answer
of the right type may come back, so a statement about all runs holds for every backend and
every client.

A backend call carries two annotations the backend does not see: the client the request
came from, and the directories which the server knows the call to change.
-/

namespace EmbedNfs

/-- `DelegationConfig`, with the recall timeout in nanoseconds. -/
structure DelegationConfig where
  directoryDelegations : Bool
  recallTimeout : Nat
  maxDelegationsPerClient : Nat
  maxDelegationsTotal : Nat

/-- `NfsServer`, for a backend with handles of type `H`. -/
structure Server (H : Type) where
  state : StateManager
  handleToObject : Table H ObjectId
  objectToHandle : Table ObjectId H
  nextObjectId : U64
  fences : List (H → Bool)

/-- `NfsServerBuilder::build` for a new state manager. -/
def Server.new (H : Type) (boot : Boot) : Server H where
  state := .new boot
  handleToObject := .empty
  objectToHandle := .empty
  nextObjectId := 1
  fences := []

/-! ## Callbacks -/

inductive CallbackError where
  | noConnection
  | sendFailed
  | timeout
  | rpcRejected
  | badReply
  deriving DecidableEq, Repr

inductive NfsCbResop4 where
  | sequence (status : NfsStat4)
  | recall (status : NfsStat4)
  deriving DecidableEq, Repr

structure CbCompound4Res where
  status : NfsStat4
  resarray : List NfsCbResop4
  deriving DecidableEq, Repr

/-! ## Calls -/

/-- One atomic step of a request. -/
inductive Call (H : Type) where
  /-- A section of the state manager. -/
  | guarded (c : Section)
  /-- An operation on one of the state manager's concurrent maps. -/
  | mapOp (c : MapOp)
  /-- `handle_to_object.read().get(handle)`, the fast path of registration. -/
  | registered (handle : H)
  /-- The part of `register_handle` under the registration write lock. -/
  | register (handle : H)
  /-- `object_to_handle.read().get(id)`. -/
  | backendHandle (id : ObjectId)
  /-- The part of `retire_handles` under the registration write lock. -/
  | retireMatching (fence : H → Bool)
  /-- `Instant::now()`. -/
  | now
  /-- `backchannels.has_connection(id)`. -/
  | hasConnection (connectionId : U64)
  /-- `backchannels.send_callback` with a recall of the delegation, until the request is handed
  to the connection. -/
  | sendCallback (target : CallbackTarget) (stateid : Stateid4) (fh : Bytes)
  /-- The rest of `send_callback`: the reply comes, or the time is over. -/
  | callbackReply (target : CallbackTarget)
  /-- A call to the backend, on behalf of a client, changing the given directories. -/
  | backend (ctx : RequestContext) (origin : Option Clientid4) (dirs : List ServerObject)
      (c : BackendCall H)

/-- The type of a call's answer. -/
@[reducible] def Call.Ret {H : Type} : Call H → Type
  | .guarded c => c.Ret
  | .mapOp c => c.Ret
  | .registered _ => Option ObjectId
  | .register _ => Except FsError ObjectId
  | .backendHandle _ => Option H
  | .retireMatching _ => List (H × ObjectId)
  | .now => Instant
  | .hasConnection _ => Bool
  | .sendCallback _ _ _ => Except CallbackError Unit
  | .callbackReply _ => Except CallbackError CbCompound4Res
  | .backend _ _ _ c => c.Ret

namespace Server

variable {H : Type} [DecidableEq H]

/-- `RetirementFences::is_retired`. -/
def isFenced (s : Server H) (handle : H) : Bool := s.fences.any fun fence => fence handle

/-- The durable encoding that registration records, if the backend gives a usable one. -/
def usableEncoding (backend : Backend H) (handle : H) : Option Bytes :=
  (backend.persistentHandles.bind fun encode => encode handle).filter fun encoded =>
    !encoded.isEmpty ∧ encoded.length ≤ maxPersistentHandleLen

/-- `register_handle` under the write lock. -/
def register (backend : Backend H) (s : Server H) (handle : H) :
    Except FsError ObjectId × Server H :=
  match s.handleToObject.get handle with
  | some id => (.ok id, s)
  | none =>
    if s.isFenced handle then (.error .stale, s)
    else
      let id := s.nextObjectId
      (.ok id,
        { s with
          nextObjectId := s.nextObjectId + 1
          handleToObject := s.handleToObject.insert handle id
          objectToHandle := s.objectToHandle.insert id handle
          state :=
            match usableEncoding backend handle with
            | some encoded => s.state.recordPersistentFh id encoded
            | none => s.state })

/-- `retire_handles` under the write lock: install the fence, snapshot and unmap. -/
def retireMatching (s : Server H) (fence : H → Bool) : List (H × ObjectId) × Server H :=
  let matched := s.handleToObject.entries.filter fun (handle, _) => fence handle
  (matched,
    { s with
      fences := s.fences ++ [fence]
      handleToObject := (matched.map Prod.fst).foldl Table.erase s.handleToObject
      objectToHandle := (matched.map Prod.snd).foldl Table.erase s.objectToHandle })

/-- What a call does. Answers from outside the server are left open. -/
def exec (backend : Backend H) (s : Server H) : (c : Call H) → c.Ret → Server H → Prop
  | .guarded c, r, s' =>
    r = (s.state.runSection c).1 ∧ s' = { s with state := (s.state.runSection c).2 }
  | .mapOp c, r, s' =>
    r = (s.state.runMapOp c).1 ∧ s' = { s with state := (s.state.runMapOp c).2 }
  | .registered handle, r, s' => r = s.handleToObject.get handle ∧ s' = s
  | .register handle, r, s' => (r, s') = register backend s handle
  | .backendHandle id, r, s' => r = s.objectToHandle.get id ∧ s' = s
  | .retireMatching fence, r, s' => (r, s') = s.retireMatching fence
  | .now, r, s' => r = s.state.clock ∧ s' = s
  | .hasConnection _, _, s' => s' = s
  | .sendCallback _ _ _, _, s' => s' = s
  | .callbackReply _, _, s' => s' = s
  | .backend _ _ _ _, _, s' => s' = s

/-- What may happen between two steps. -/
structure Drift (s s' : Server H) : Prop where
  state : s.state.Drift s'.state
  handleToObject : s.handleToObject.Same s'.handleToObject
  objectToHandle : s.objectToHandle.Same s'.objectToHandle
  nextObjectId : s'.nextObjectId = s.nextObjectId
  fences : s'.fences = s.fences

/-- The server as a system of atomic steps. -/
def system (backend : Backend H) : System (Call H) Call.Ret (Server H) where
  exec := exec backend
  env := Drift

end Server

/-- A request, as the steps it takes. -/
abbrev Request (H : Type) (α : Type) := Program (Call H) Call.Ret α

/-- A server and the requests that run on it. -/
abbrev Machine (H α : Type) := Config (Call H) Call.Ret (Server H) α

/-- A step of a request on the server. -/
abbrev ServerEvent (H : Type) := Event (Call H) Call.Ret (Server H)

/-- The events of a run of the server. -/
abbrev Trace (H : Type) := List (ServerEvent H)

end EmbedNfs
