import EmbedNfs.Server.Transport

/-!
# A scripted world

One way for the world outside the server to answer: a backend that has a single object and
lets everybody do everything with it, and no callback connection. With it the model can be
run on concrete requests.
-/

namespace EmbedNfs

/-- The backend's answers: the object exists and has the given attributes. -/
def BackendCall.scripted {H : Type} (attrs : Attrs) : (c : BackendCall H) → c.Ret
  | .getattr _ => .ok attrs
  | .access _ requested => .ok requested
  | .lookup _ _ => .error .notFound
  | .statfs _ => .error .unsupported
  | .readdir _ _ _ _ => .ok ⟨[], true⟩
  | .read _ _ _ => .ok ⟨[], true⟩
  | .write _ _ data requested => .ok ⟨BitVec.ofNat 32 data.length, requested⟩
  | .create _ _ _ _ => .error .readOnly
  | .remove _ _ => .ok ()
  | .rename _ _ _ _ => .ok ()
  | .setattr _ _ => .ok attrs
  | .createSymlink _ _ _ _ => .error .readOnly
  | .link _ _ _ => .ok ()
  | .listXattrs _ => .ok []
  | .getXattr _ _ => .error .notFound
  | .setXattr _ _ _ _ => .ok ()
  | .removeXattr _ _ => .ok ()
  | .onOpen _ _ => .ok ()
  | .onClose _ _ => .ok ()
  | .decodeHandle _ => .error .stale

namespace Server

variable {H : Type} [DecidableEq H]

/-- The answer of a call in the scripted world, and the state it leaves. -/
def scriptedAnswer (backend : Backend H) (attrs : Attrs) (s : Server H) :
    (c : Call H) → c.Ret × Server H
  | .guarded c => ((s.state.runSection c).1, { s with state := (s.state.runSection c).2 })
  | .mapOp c => ((s.state.runMapOp c).1, { s with state := (s.state.runMapOp c).2 })
  | .registered handle => (s.handleToObject.get handle, s)
  | .register handle => register backend s handle
  | .backendHandle id => (s.objectToHandle.get id, s)
  | .retireMatching fence => s.retireMatching fence
  | .now => (s.state.clock, s)
  | .hasConnection _ => (false, s)
  | .sendCallback _ _ _ => (.error .noConnection, s)
  | .callbackReply _ => (.error .timeout, s)
  | .backend _ _ _ c => (c.scripted attrs, s)

/-- The scripted world is one of the worlds the server may meet. -/
def scripted (backend : Backend H) (attrs : Attrs) : (Server.system backend).Resolver where
  answer := scriptedAnswer backend attrs
  exec s c := by cases c <;> first | rfl | exact ⟨rfl, rfl⟩

end Server

namespace Server

variable {H : Type} [DecidableEq H]

/-- The same world, with a callback connection that takes no calls. -/
def connectedAnswer (backend : Backend H) (attrs : Attrs) (s : Server H) :
    (c : Call H) → c.Ret × Server H
  | .hasConnection _ => (true, s)
  | c => scriptedAnswer backend attrs s c

def connected (backend : Backend H) (attrs : Attrs) : (Server.system backend).Resolver where
  answer := connectedAnswer backend attrs
  exec s c := by cases c <;> first | rfl | exact ⟨rfl, rfl⟩

end Server

theorem of_bind_result {C α : Type} {R : C → Type} {p : Option (Program C R α)} {a : α}
    (h : p.bind Program.result = some a) : p = some (.ret a) := by
  obtain ⟨q, rfl, hq⟩ := Option.bind_eq_some_iff.mp h
  cases q with
  | ret b =>
    cases hq
    rfl
  | call c k => cases hq

/-! ## Time -/

namespace Server

variable {H : Type}

/-- Time passes, and nothing else happens. -/
def wait (n : Nat) (s : Server H) : Server H := { s with state.clock := s.state.clock + n }

variable [DecidableEq H]

theorem drift_wait (n : Nat) (s : Server H) : s.Drift (s.wait n) where
  state :=
    { clients := .refl _, openFiles := .refl _, lockFiles := .refl _, delegations := .refl _,
      metadata := .refl _, fhToObject := .refl _, objectToFh := .refl _, persistentFh := .refl _
      sessions := fun k => by
        show Option.Rel _ (s.state.inner.sessions.get k) (s.state.inner.sessions.get k)
        cases s.state.inner.sessions.get k with
        | none => exact .none
        | some session => exact .some ⟨rfl, rfl, rfl, .refl _, .refl _⟩
      dirDelegations := fun _ => .refl _
      clientDelegations := fun _ => .refl _
      retiredObjects := fun _ => .rfl
      nextFh := rfl, fhBootNonce := rfl, nextClientid := rfl, nextStateid := rfl
      nextChangeid := rfl, nextSynthFileid := rfl, nextConnectionid := rfl, writeVerifier := rfl
      clock := Nat.le_add_right _ _
      fhHash := rfl, fhShardMask := rfl }
  handleToObject := .refl _
  objectToHandle := .refl _
  nextObjectId := rfl
  fences := rfl

variable {α : Type} {backend : Backend H}

/-- Let some time pass and then threads move in the order of a schedule, again and again. -/
def playPhases (res : (Server.system backend).Resolver)
    (c : Machine H α) : List (Nat × List Nat) →
    Trace H × Machine H α
  | [] => ([], c)
  | (n, schedule) :: phases =>
    let (tr, c) := res.play ⟨c.state.wait n, c.threads⟩ schedule
    let (tr', c) := playPhases res c phases
    (tr ++ tr', c)

theorem playPhases_run (res : (Server.system backend).Resolver)
    (c : Machine H α) (phases : List (Nat × List Nat)) :
    (Server.system backend).Run c (playPhases res c phases).1 (playPhases res c phases).2 := by
  induction phases generalizing c with
  | nil => exact .nil c
  | cons phase phases ih =>
    have hwait : (Server.system backend).Run c [] ⟨c.state.wait phase.1, c.threads⟩ :=
      .env (.nil c) (drift_wait phase.1 c.state)
    have hplay := res.play_run ⟨c.state.wait phase.1, c.threads⟩ phase.2
    exact (hwait.trans hplay).trans (ih _)

end Server

/-! ## Sections one after the other -/

namespace Server

variable {H α : Type}

/-- The server after a section. -/
def afterSection (s : Server H) (c : Section) : Server H :=
  { s with state := (s.state.runSection c).2 }

theorem state_afterSection (s : Server H) (c : Section) :
    (s.afterSection c).state = (s.state.runSection c).2 := rfl

/-- A thread that performs one section. -/
def sectionThread (a : α) (c : Section) : Request H α := (fun _ => a) <$> guarded c

/-- The events of threads that perform one section each, in turn. -/
def sectionEvents (s : Server H) (t : Nat) :
    List Section → Trace H
  | [] => []
  | c :: cs =>
    ⟨t, s, .guarded c, (s.state.runSection c).1, s.afterSection c⟩ ::
      (s.afterSection c).sectionEvents (t + 1) cs

theorem sectionEvents_append (s : Server H) (t : Nat) (cs cs' : List Section) :
    s.sectionEvents t (cs ++ cs') =
      s.sectionEvents t cs ++ (cs.foldl afterSection s).sectionEvents (t + cs.length) cs' := by
  induction cs generalizing s t with
  | nil => rfl
  | cons c cs ih =>
    simp only [List.cons_append, sectionEvents, ih, List.foldl_cons, List.length_cons]
    congr 3
    omega

variable [DecidableEq H] {backend : Backend H}

theorem sections_run (a : α) (cs : List Section) (s : Server H) (finished : List (Request H α)) :
    (Server.system backend).Run ⟨s, finished ++ cs.map (sectionThread a)⟩
      (s.sectionEvents finished.length cs)
      ⟨cs.foldl afterSection s, finished ++ cs.map fun _ => .ret a⟩ := by
  induction cs generalizing s finished with
  | nil => exact .nil _
  | cons c cs ih =>
    have hthread : (finished ++ (c :: cs).map (sectionThread a))[finished.length]? =
        some (sectionThread a c) := by simp
    have hfirst := System.Run.step (.nil ⟨s, finished ++ (c :: cs).map (sectionThread a)⟩) hthread
      (show (Server.system backend).exec s (.guarded c) (s.state.runSection c).1
        (s.afterSection c) from ⟨rfl, rfl⟩)
    have hrest := ih (s.afterSection c) (finished ++ [.ret a])
    have hset : (finished ++ (c :: cs).map (sectionThread a)).set finished.length (.ret a) =
        finished ++ [.ret a] ++ cs.map (sectionThread a) := by simp
    rw [List.length_append] at hrest
    rw [← hset] at hrest
    simpa [sectionEvents] using hfirst.trans hrest

end Server

/-- A backend without optional features. -/
def Backend.plain {H : Type} (root : H) : Backend H where
  root
  xattrs := false
  symlinks := false
  hardLinks := false
  openLifecycle := false
  maxNameBytes := 255
  persistentHandles := none

/-- A backend with one object. -/
def Backend.single : Backend Unit := .plain ()

/-- The same with a durable encoding for the object. -/
def Backend.persistent : Backend Unit :=
  { Backend.single with persistentHandles := some fun _ => some [7] }

/-- A boot with fixed surroundings. -/
def Boot.fixed : Boot where
  random := fun i => if i = 7 then 1 else 0
  writeVerifier := 0
  clock := 0
  wallSec := 0
  wallNsec := 0
  fhHash := fun _ => 0
  fhShardMask := 0

/-- A regular file. -/
def Attrs.someFile : Attrs := ⟨.file, 1, 0⟩

/-- A directory. -/
def Attrs.someDir : Attrs := ⟨.directory, 1, 0⟩

/-! ## Two clients -/

namespace Scripted

def config : ServerConfig Unit where
  backend := .single
  delegations := ⟨false, 0, 0, 0⟩
  writeVerifier := 0

/-- The filehandle of the backend's object, the first one minted. -/
def fh : Bytes := [0, 0, 0, 0, 0, 0, 0, 1, 0, 0, 0, 0, 0, 0, 0, 1]

/-- An operation of a COMPOUND bound to the client, with the object as current filehandle. -/
def opBy (clientid : Option Clientid4) (op : NfsArgop4) :
    Request Unit (NfsResop4 × CompoundState) :=
  handleOp config ⟨⟨.none⟩, clientid, none⟩ 1 op { minorversion := 1, currentFh := some fh }

def openBy (clientid : Clientid4) (access deny : U32) : Request Unit (NfsResop4 × CompoundState) :=
  opBy (some clientid) (.open ⟨access, deny, ⟨clientid, [1]⟩, .noCreate, .fh⟩)

/-- LOCK by a new lock owner of the client. -/
def lockBy (clientid : Clientid4) (opened : StateidOther) (locktype : NfsLockType4)
    (offset length : U64) : Request Unit (NfsResop4 × CompoundState) :=
  opBy (some clientid) (.lock ⟨locktype, offset, length, .newLockOwner ⟨1, opened⟩ ⟨clientid, [1]⟩⟩)

/-- The object is retired. -/
def retire : Request Unit (NfsResop4 × CompoundState) :=
  (fun _ => (.putrootfh .stale, { minorversion := 1 })) <$> invalidateObjects 1 [1]

/-- Two clients introduce themselves, the root gets its filehandle, and both clients open
the object. The opens get the stateids `mint 1 1` and `mint 2 2`. -/
def setUp : List (Request Unit (NfsResop4 × CompoundState)) :=
  [opBy none (.exchangeId ⟨⟨1, [1]⟩, .none⟩), opBy none (.exchangeId ⟨⟨1, [2]⟩, .none⟩),
    opBy none .putrootfh, openBy 1 3 0, openBy 2 3 0]

def setUpSchedule : List Nat :=
  [0, 1] ++ List.replicate 12 2 ++ List.replicate 20 3 ++ List.replicate 20 4

/-- The run of the set-up and further requests, in the order of a schedule. -/
def run (requests : List (Request Unit (NfsResop4 × CompoundState))) (schedule : List Nat) :
    Trace Unit ×
      Machine Unit (NfsResop4 × CompoundState) :=
  (Server.scripted Backend.single .someFile).play ⟨Server.new Unit .fixed, setUp ++ requests⟩
    (setUpSchedule ++ schedule)

theorem run_run (requests : List (Request Unit (NfsResop4 × CompoundState)))
    (schedule : List Nat) :
    (Server.system Backend.single).Run ⟨Server.new Unit .fixed, setUp ++ requests⟩
      (run requests schedule).1 (run requests schedule).2 :=
  (Server.scripted Backend.single .someFile).play_run _ _

/-! ## Records on one slot -/

/-- A wire format for COMPOUNDs of one SEQUENCE on the first slot of the session `(1, 2)`: the
first byte is the sequence id. A reply says whether it is one of success. -/
def codec : CompoundCodec where
  decode
    | [] => none
    | q :: _ => some ("", ⟨1, [.sequence ⟨mintSessionid 1 2, q.setWidth 32, 0, 0, true⟩]⟩)
  encode _ res := [if res.status = .ok then 0 else 1]

/-- A wire format for a list of COMPOUNDs: the first byte is the position in the list. -/
def codecOf (compounds : List Compound4Args) : CompoundCodec where
  decode
    | [] => none
    | i :: _ => compounds[i.toNat]?.map fun args => ("", args)
  encode _ res := [if res.status = .ok then 0 else 1]

/-- The record of a COMPOUND call with an empty credential. -/
def record (xid : U32) (payload : Bytes) : Bytes :=
  be32 xid ++ be32 0 ++ be32 rpcVersion ++ be32 nfsProgram ++ be32 nfsV4 ++ be32 1 ++
    OpaqueAuth.null.encode ++ OpaqueAuth.null.encode ++ payload

/-- The requests that carry the COMPOUNDs of a list. -/
def requests (cfg : ServerConfig Unit) (compounds : List Compound4Args) :
    List (Request Unit (Option Bytes)) :=
  (List.range compounds.length).map fun i =>
    processRpcMessage cfg ⟨[.none]⟩ (codecOf compounds) (record 0 [BitVec.ofNat 8 i]) 0

/-- CREATE_SESSION by the client, with one slot. -/
def sessionArgs (clientid : Clientid4) (sequence : Sequenceid4) : CreateSessionArgs4 where
  clientid
  sequence
  flags := 0
  foreChanAttrs := ⟨0, 4096, 4096, 4096, 8, 1, []⟩
  cbProgram := 0
  secParms := []

/-- The same with a backchannel. -/
def callbackSessionArgs (clientid : Clientid4) (sequence : Sequenceid4) : CreateSessionArgs4 :=
  { sessionArgs clientid sequence with
    flags := createSession4FlagConnBackChan, cbProgram := 1, secParms := [.none] }

/-- A client introduces itself and creates the session `(1, 2)`. -/
def sessionSetUp : List Section :=
  [.exchangeId ⟨⟨1, [1]⟩, .none⟩, .createSession (sessionArgs 1 1) 0]

end Scripted

end EmbedNfs
