import EmbedNfs.Effects.Operations
import EmbedNfs.Server.Scripted

/-!
# READDIR makes progress

A reply to READDIR that is not the last one holds an entry with a new cookie, so that a client
that follows the cookies gets on, if some entry of the backend's page gets into the reply or there
is nothing to list. The server leaves entries out silently, and the reply to a page all of whose
entries are retired is empty and not the last: the client has no cookie to go on with and asks for
the same page again (`readdir_stuck`).
-/

namespace EmbedNfs

variable {H : Type}

/-- What is not left out: the handles that may be registered, the objects that they become, the
handles by which the backend knows these, and the names of their attributes. -/
structure Kept (H : Type) where
  handles : H → Bool
  ids : ObjectId → Bool
  targets : H → Bool
  names : String → Bool

/-- Everything is kept. -/
def Kept.all : Kept H := ⟨fun _ => true, fun _ => true, fun _ => true, fun _ => true⟩

/-- Whether READDIR does not leave the object out. -/
def Kept.object (k : Kept H) : ServerObject → Bool
  | .fs id => k.ids id
  | .namedAttrDir _ => false
  | .namedAttrFile id name => k.ids id && k.names name

/-- Whether the answer makes READDIR leave out nothing that is kept: a handle is registered, an
object has a handle and attributes, and it is not retired. -/
def Call.keeps (k : Kept H) : (c : Call H) → c.Ret → Bool
  | .registered handle, r => !k.handles handle || r.all k.ids
  | .register handle, r => !k.handles handle || r.toOption.any k.ids
  | .backendHandle id, r => !k.ids id || r.any k.targets
  | .mapOp (.isRetired object), r => !k.object object || !r
  | .backend _ _ _ (.getattr handle), r => !k.targets handle || r.toOption.isSome
  | .backend _ _ _ (.getXattr handle name), r =>
    !(k.targets handle && k.names name) || r.toOption.isSome
  | _, _ => true

/-- Whether an entry of the page is kept before any that carries the requested cookie. -/
def Kept.offered (k : Kept H) (cookie : U64) : List (DirEntry H) → Bool
  | [] => false
  | entry :: entries =>
    entry.cookie ≠ cookie && (k.handles entry.handle || k.offered cookie entries)

/-- Whether an attribute from the requested cookie on is kept. -/
def Kept.offeredAttr (k : Kept H) (cookie : U64) (names : List String) : Bool :=
  names.length < 2 ^ 63 && (names.drop (if cookie = 0 then 0 else cookie.toNat - 2)).any k.names

/-- Whether what the backend lists has an entry that is kept. -/
def Call.offers (k : Kept H) (cookie : U64) : (c : Call H) → c.Ret → Bool
  | .mapOp (.fhToObject _), r =>
    match r with
    | some (.namedAttrDir parent) => k.ids parent
    | _ => true
  | .backend _ _ _ (.readdir _ _ _ _), r => r.toOption.all fun page => k.offered cookie page.entries
  | .backend _ _ _ (.listXattrs _), r => r.toOption.all (k.offeredAttr cookie)
  | _, _ => true

/-- Whether the backend lists nothing, or a last page of which nothing is registered. -/
def Call.listsNothing (refused : H → Bool) (cookie : U64) : (c : Call H) → c.Ret → Bool
  | .registered handle, r => !refused handle || r.isNone
  | .register handle, r => !refused handle || r.toOption.isNone
  | .backend _ _ _ (.readdir _ _ _ _), r =>
    r.toOption.all fun page => page.eof && page.entries.all fun entry => refused entry.handle
  | .backend _ _ _ (.listXattrs _), r =>
    r.toOption.all fun names => names.length ≤ if cookie = 0 then 0 else cookie.toNat - 2
  | _, _ => true

/-- The answers by which READDIR leaves no entry out. -/
def Call.keepsEntries (c : Call H) (r : c.Ret) : Bool := c.keeps .all r

def Call.KeepsEntries (c : Call H) (r : c.Ret) : Prop := c.keepsEntries r = true

theorem exists_ok_of_isSome {ε α : Type} {r : Except ε α} (h : r.toOption.isSome = true) :
    ∃ a, r = .ok a := by
  cases r with
  | ok a => exact ⟨a, rfl⟩
  | error e => cases h

/-- Along the answers that leave out nothing that is kept, the program only returns values with
`Q`. -/
abbrev Keeping {α : Type} (k : Kept H) (Q : α → Prop) (p : Request H α) : Prop :=
  p.Ensures (fun c r => c.keeps k r = true) Q

/-- The name and the cookie of an entry. -/
def ReaddirItem.place (item : ReaddirItem) : String × U64 := (item.name, item.cookie)

def Entry4.place (entry : Entry4) : String × U64 := (entry.name, entry.cookie)

section Keeping

variable {α β ε : Type} {backend : Backend H} {ctx : RequestContext} {k : Kept H}

theorem Keeping.any (p : Request H α) : Keeping k (fun _ => True) p := Program.Ensures.trivial p

theorem Keeping.andThen {Q : Except ε α → Prop} {Q' : Except ε β → Prop}
    {p : Request H (Except ε α)} {f : α → Request H (Except ε β)} (hp : Keeping k Q p)
    (hok : ∀ a, Q (.ok a) → Keeping k Q' (f a)) (herror : ∀ e, Q (.error e) → Q' (.error e)) :
    Keeping k Q' (Request.andThen p f) := by
  refine Program.Along.bind hp fun r hr => ?_
  cases r with
  | ok a => exact hok a hr
  | error e => exact herror e hr

theorem registerHandle_keeping (handle : H) :
    Keeping k (fun r => k.handles handle = true → ∃ id, r = .ok id ∧ k.ids id = true)
      (registerHandle handle) := by
  refine ⟨trivial, fun r hr => ?_⟩
  cases r with
  | some id =>
    intro hhandle
    exact ⟨id, rfl, by simpa [Call.keeps, hhandle] using hr⟩
  | none =>
    refine ⟨trivial, fun r hr hhandle => ?_⟩
    have hany : r.toOption.any k.ids = true := by simpa [Call.keeps, hhandle] using hr
    cases r with
    | ok id => exact ⟨id, rfl, hany⟩
    | error e => cases hany

theorem resolveBackendHandle_keeping {id : ObjectId} (hid : k.ids id = true) :
    Keeping k (fun r => ∃ handle, r = .ok handle ∧ k.targets handle = true)
      (resolveBackendHandle id) := by
  refine ⟨trivial, fun r hr => ?_⟩
  have hany : r.any k.targets = true := by simpa [Call.keeps, hid] using hr
  cases r with
  | some handle => exact ⟨handle, rfl, hany⟩
  | none => cases hany

theorem getattr_keeping {id : ObjectId} (hid : k.ids id = true) :
    Keeping k (fun r => ∃ attrs, r = .ok attrs) (getattr ctx id) := by
  refine Keeping.andThen (resolveBackendHandle_keeping hid) (fun handle hhandle => ?_) ?_
  · obtain ⟨_, heq, htarget⟩ := hhandle
    cases heq
    exact ⟨trivial, fun r hr => exists_ok_of_isSome (by simpa [Call.keeps, htarget] using hr)⟩
  · rintro e ⟨_, h, -⟩
    cases h

theorem publishFh_keeping {object : ServerObject} (hobject : k.object object = true) (fh : Bytes) :
    Keeping k (fun r => ∃ fh, r = some fh) (publishFh object fh) := by
  refine ⟨trivial, fun r _ => ?_⟩
  cases r with
  | some winner =>
    show Keeping k _ (if winner ≠ fh then _ else _)
    split
    · exact ⟨trivial, fun _ _ => ⟨winner, rfl⟩⟩
    · exact ⟨winner, rfl⟩
  | none =>
    refine ⟨trivial, fun r hr => ?_⟩
    cases r with
    | true => simp [Call.keeps, hobject] at hr
    | false => exact ⟨fh, rfl⟩

theorem objectToFh_keeping {object : ServerObject} (hobject : k.object object = true) :
    Keeping k (fun r => ∃ fh, r = some fh) (objectToFh object) := by
  refine ⟨trivial, fun r _ => ?_⟩
  cases r with
  | some fh => exact ⟨fh, rfl⟩
  | none =>
    refine ⟨trivial, fun r hr => ?_⟩
    cases r with
    | true => simp [Call.keeps, hobject] at hr
    | false =>
      show Keeping k _ (claimPersistentFh object >>= _)
      refine Program.Along.bind (Keeping.any _) fun r _ => ?_
      cases r with
      | some fh => exact publishFh_keeping hobject fh
      | none => exact ⟨trivial, fun fh _ => ⟨trivial, fun _ _ => publishFh_keeping hobject fh⟩⟩

theorem xattrValue_keeping (hxattrs : backend.xattrs = true) {parent : ObjectId} {name : String}
    (hid : k.ids parent = true) (hname : k.names name = true) :
    Keeping k (fun r => ∃ value, r = .ok value) (xattrValue backend ctx parent name) := by
  refine Keeping.andThen (resolveBackendHandle_keeping hid) (fun handle hhandle => ?_) ?_
  · obtain ⟨_, heq, htarget⟩ := hhandle
    cases heq
    rw [if_pos hxattrs]
    refine ⟨trivial, fun r hr => ?_⟩
    obtain ⟨value, rfl⟩ := exists_ok_of_isSome (r := r) (by
      simpa [Call.keeps, htarget, hname] using hr)
    exact ⟨_, rfl⟩
  · rintro e ⟨_, h, -⟩
    cases h

/-- The attributes of the object can be had if the backend gives them. -/
def Readable (backend : Backend H) : ServerObject → Prop
  | .fs _ => True
  | .namedAttrDir _ => False
  | .namedAttrFile _ _ => backend.xattrs = true

theorem buildAttr_keeping {object : ServerObject} (h : Readable backend object)
    (hobject : k.object object = true) :
    Keeping k (fun r => ∃ attr, r = .ok attr) (buildAttr backend ctx object) := by
  cases object with
  | fs id =>
    refine Keeping.andThen (getattr_keeping hobject) (fun attrs _ => ⟨_, rfl⟩) ?_
    rintro e ⟨_, h⟩
    cases h
  | namedAttrDir parent => exact h.elim
  | namedAttrFile parent name =>
    obtain ⟨hid, hname⟩ := Bool.and_eq_true_iff.mp hobject
    refine Keeping.andThen (getattr_keeping hid) (fun _ _ => ?_) ?_
    · refine Keeping.andThen (xattrValue_keeping h hid hname) (fun value _ => ?_) ?_
      · exact ⟨trivial, fun synth _ => ⟨_, rfl⟩⟩
      · rintro e ⟨_, h⟩
        cases h
    · rintro e ⟨_, h⟩
      cases h

/-- The entry is not left out. -/
def Kept.Gets (k : Kept H) (backend : Backend H) (item : ReaddirItem) : Prop :=
  k.object item.object = true ∧ Readable backend item.object

theorem itemAttr_keeping (item : ReaddirItem) :
    Keeping k (fun r => k.Gets backend item → ∃ attr, r = .ok attr)
      (itemAttr backend ctx item) := by
  by_cases h : k.Gets backend item
  · unfold itemAttr
    split
    · exact fun _ => ⟨_, rfl⟩
    · exact (buildAttr_keeping h.2 h.1).imp fun _ hr _ => hr
  · exact (Keeping.any _).imp fun _ _ hgets => absurd hgets h

theorem itemFh_keeping (backend : Backend H) (item : ReaddirItem) :
    Keeping k (fun r => k.Gets backend item → ∃ fh, r = some fh) (objectToFh item.object) := by
  by_cases h : k.Gets backend item
  · exact (objectToFh_keeping h.1).imp fun _ hr _ => hr
  · exact (Keeping.any _).imp fun _ _ hgets => absurd hgets h

/-! ## The page -/

theorem registerEntries_keeping (f : String → U64 → α) (entries : List (DirEntry H)) :
    Keeping .all (fun r => r.map (fun entry => f entry.name entry.cookie) =
      entries.map fun entry => f entry.name entry.cookie) (registerEntries entries) := by
  induction entries with
  | nil => exact rfl
  | cons entry entries ih =>
    refine Program.Along.bind (registerHandle_keeping entry.handle) fun r hr => ?_
    obtain ⟨id, rfl, -⟩ := hr rfl
    refine Program.Along.bind ih fun rest hrest => ?_
    exact congrArg (f entry.name entry.cookie :: ·) hrest

/-- An entry that is not left out comes before any that carries the requested cookie. -/
def Kept.Reaches (k : Kept H) (backend : Backend H) (cookie : U64) : List ReaddirItem → Prop
  | [] => False
  | item :: items => item.cookie ≠ cookie ∧ (k.Gets backend item ∨ k.Reaches backend cookie items)

theorem Kept.reaches_of_mem {cookie : U64} {items : List ReaddirItem}
    (hcookie : ∀ item ∈ items, item.cookie ≠ cookie) {item : ReaddirItem} (hmem : item ∈ items)
    (hgets : k.Gets backend item) : k.Reaches backend cookie items := by
  induction items with
  | nil => cases hmem
  | cons first items ih =>
    refine ⟨hcookie first List.mem_cons_self, ?_⟩
    rcases List.mem_cons.mp hmem with rfl | hmem
    · exact Or.inl hgets
    · exact Or.inr (ih (fun item h => hcookie item (List.mem_cons_of_mem _ h)) hmem)

/-- The entry of a directory as READDIR takes it up. -/
def DirEntry.item (entry : DirEntry ObjectId) : ReaddirItem :=
  ⟨entry.name, .fs entry.handle, entry.cookie, entry.attrs⟩

theorem registerEntries_offered (backend : Backend H) (cookie : U64) (entries : List (DirEntry H)) :
    Keeping k (fun r => k.offered cookie entries = true →
      k.Reaches backend cookie (r.map DirEntry.item)) (registerEntries entries) := by
  induction entries with
  | nil => exact nofun
  | cons entry entries ih =>
    refine Program.Along.bind (registerHandle_keeping entry.handle) fun r hr => ?_
    cases r with
    | ok id =>
      refine Program.Along.bind ih fun rest hrest hoffered => ?_
      simp only [Kept.offered, Bool.and_eq_true, Bool.or_eq_true, decide_eq_true_eq] at hoffered
      refine ⟨hoffered.1, hoffered.2.imp (fun hhandle => ?_) hrest⟩
      obtain ⟨_, heq, hid⟩ := hr hhandle
      cases heq
      exact ⟨hid, trivial⟩
    | error e =>
      refine Program.Along.imp ih fun rest hrest hoffered => ?_
      simp only [Kept.offered, Bool.and_eq_true, Bool.or_eq_true, decide_eq_true_eq] at hoffered
      refine hrest (hoffered.2.resolve_left fun hhandle => ?_)
      obtain ⟨_, heq, -⟩ := hr hhandle
      cases heq

theorem namedAttrItems_cookie {parent : ObjectId} {cookie : U64} {names : List String}
    (hlength : names.length < 2 ^ 63) (hcookie : cookie ≠ 1 ∧ cookie ≠ 2) {item : ReaddirItem}
    (h : item ∈ namedAttrItems parent cookie names) :
    item.cookie ≠ cookie ∧ ∃ name, item.object = .namedAttrFile parent name := by
  obtain ⟨⟨name, idx⟩, hmem, rfl⟩ := List.mem_map.mp h
  refine ⟨fun heq => ?_, name, rfl⟩
  have hidx := (List.mem_zipIdx hmem).2.1
  have hnat := congrArg BitVec.toNat heq
  have h1 : cookie.toNat ≠ 1 := fun h => hcookie.1 (BitVec.eq_of_toNat_eq h)
  have h2 : cookie.toNat ≠ 2 := fun h => hcookie.2 (BitVec.eq_of_toNat_eq h)
  have hlt := cookie.isLt
  have h3 : (3 : U64).toNat = 3 := rfl
  by_cases hzero : cookie = 0
  · subst hzero
    simp only [if_true, BitVec.toNat_add, BitVec.toNat_ofNat, List.length_drop, h3] at hnat hidx
    have hz : (0 : U64).toNat = 0 := rfl
    omega
  · have h0 : cookie.toNat ≠ 0 := fun h => hzero (BitVec.eq_of_toNat_eq h)
    simp only [if_neg hzero, BitVec.toNat_add, BitVec.toNat_ofNat, List.length_drop, h3] at hnat hidx
    omega

/-- The answers to a READDIR some entry of which gets into the reply. -/
def Call.Offers (k : Kept H) (cookie : U64) (c : Call H) (r : c.Ret) : Prop :=
  c.keeps k r = true ∧ c.offers k cookie r = true

theorem Keeping.offers {Q : α → Prop} {p : Request H α} (h : Keeping k Q p) (cookie : U64) :
    p.Ensures (Call.Offers k cookie) Q :=
  h.mono (fun _ _ h => h.1) (fun _ _ => trivial) fun _ h => h

/-- What READDIR goes through is a page of a directory whose entries it registers, or the attributes
of a named-attribute directory. -/
theorem readdirItems_ensures {may : (c : Call H) → c.Ret → Prop} {args : ReaddirArgs4}
    {object : ServerObject} {P : List ReaddirItem → Bool → Prop}
    (hpage : ∀ handle count withAttrs page,
      may (.backend ctx none [] (.readdir handle args.cookie count withAttrs)) (.ok page) →
      (registerEntries page.entries).Ensures may fun entries =>
        P (entries.map DirEntry.item) page.eof)
    (hnames : ∀ parent handle names, object = .namedAttrDir parent → backend.xattrs = true →
      may (.backend ctx none [] (.listXattrs handle)) (.ok names) →
      P (namedAttrItems parent args.cookie names) true) :
    (readdirItems backend ctx args object).Ensures may fun r =>
      ∀ items eof, r = .ok (items, eof) → P items eof := by
  cases object with
  | fs dirId =>
    refine Program.Along.bind (Q := fun r => ∀ page, r = .ok page →
      P (page.entries.map DirEntry.item) page.eof) ?_ fun r hr => ?_
    · refine Program.Along.bind (Program.Ensures.trivial _) fun r _ => ?_
      cases r with
      | error e => exact nofun
      | ok handle =>
        refine ⟨trivial, fun r hr => ?_⟩
        cases r with
        | error e => exact nofun
        | ok page =>
          show Program.Ensures may _ (registerEntries page.entries >>= _)
          refine Program.Along.bind (hpage handle _ _ page hr) fun entries hentries => ?_
          rintro _ h
          cases h
          exact hentries
    · cases r with
      | error e => exact nofun
      | ok page =>
        rintro items eof h
        cases h
        exact hr page rfl
  | namedAttrDir parent =>
    show Program.Ensures may _ (if _ then _ else _)
    split
    · exact nofun
    · rename_i hxattrs
      refine Program.Along.bind (Program.Ensures.trivial _) fun r _ => ?_
      cases r with
      | error e => exact nofun
      | ok handle =>
        refine ⟨trivial, fun r hr => ?_⟩
        cases r with
        | error e => exact nofun
        | ok names =>
          rintro items eof h
          cases h
          exact hnames parent handle names rfl (by simpa using hxattrs) hr
  | namedAttrFile parent name => exact nofun

theorem readdirItems_offers {args : ReaddirArgs4} (hcookie : args.cookie ≠ 1 ∧ args.cookie ≠ 2)
    {object : ServerObject} (hparent : ∀ parent, object = .namedAttrDir parent → k.ids parent = true) :
    (readdirItems backend ctx args object).Ensures (Call.Offers k args.cookie) fun r =>
      ∀ items eof, r = .ok (items, eof) → k.Reaches backend args.cookie items := by
  refine readdirItems_ensures (P := fun items _ => k.Reaches backend args.cookie items)
    (fun handle count withAttrs page hmay => ?_) fun parent handle names hobject hxattrs hmay => ?_
  · exact ((registerEntries_offered backend args.cookie page.entries).offers args.cookie).imp
      fun entries hentries => hentries hmay.2
  · obtain ⟨hlength, hany⟩ := Bool.and_eq_true_iff.mp hmay.2
    obtain ⟨name, hname, hkept⟩ := List.any_eq_true.mp hany
    obtain ⟨idx, hidx⟩ := List.getElem?_of_mem hname
    refine Kept.reaches_of_mem (fun item h => ?_)
      (List.mem_map_of_mem (List.mk_mem_zipIdx_iff_getElem?.mpr hidx)) ⟨?_, hxattrs⟩
    · exact (namedAttrItems_cookie (of_decide_eq_true hlength) hcookie h).1
    · exact Bool.and_eq_true_iff.mpr ⟨hparent parent hobject, hkept⟩

theorem registerEntries_refused {refused : H → Bool} {cookie : U64} (entries : List (DirEntry H)) :
    (registerEntries entries).Ensures (fun c r => c.listsNothing refused cookie r = true) fun r =>
      (entries.all fun entry => refused entry.handle) = true → r = [] := by
  induction entries with
  | nil => exact fun _ => rfl
  | cons entry entries ih =>
    have hregister : (registerHandle entry.handle).Ensures
        (fun c r => c.listsNothing refused cookie r = true) fun r =>
          refused entry.handle = true → ∃ e, r = .error e := by
      refine ⟨trivial, fun r hr => ?_⟩
      cases r with
      | some id => exact fun hrefused => by simp [Call.listsNothing, hrefused] at hr
      | none =>
        refine ⟨trivial, fun r hr hrefused => ?_⟩
        cases r with
        | ok id => simp [Call.listsNothing, hrefused, Except.toOption] at hr
        | error e => exact ⟨e, rfl⟩
    refine Program.Along.bind hregister fun r hr => ?_
    cases r with
    | ok id =>
      refine Program.Along.bind ih fun rest _ hall => ?_
      simp only [List.all_cons, Bool.and_eq_true] at hall
      obtain ⟨_, heq⟩ := hr hall.1
      cases heq
    | error e =>
      refine Program.Along.imp ih fun rest hrest hall => ?_
      simp only [List.all_cons, Bool.and_eq_true] at hall
      exact hrest hall.2

theorem readdirItems_nothing {refused : H → Bool} {args : ReaddirArgs4} (object : ServerObject) :
    (readdirItems backend ctx args object).Ensures
      (fun c r => c.listsNothing refused args.cookie r = true) fun r =>
      ∀ items eof, r = .ok (items, eof) → items = [] ∧ eof = true := by
  refine readdirItems_ensures (P := fun items eof => items = [] ∧ eof = true)
    (fun handle count withAttrs page hmay => ?_) fun parent handle names _ _ hmay => ⟨?_, rfl⟩
  · obtain ⟨heof, hall⟩ := Bool.and_eq_true_iff.mp hmay
    exact (registerEntries_refused page.entries).imp fun entries hentries =>
      ⟨by rw [hentries hall]; rfl, heof⟩
  · dsimp only [namedAttrItems]
    rw [List.drop_eq_nil_of_le (of_decide_eq_true hmay)]
    rfl

/-! ## The reply -/

theorem ReaddirReply.push_some {reply reply' : ReaddirReply} {args : ReaddirArgs4} {entry : Entry4}
    (h : reply.push args entry = .ok (some reply')) : reply'.entries = reply.entries ++ [entry] := by
  unfold ReaddirReply.push at h
  dsimp only at h
  split at h
  · cases h
  · split at h
    · cases h
    · cases h
      rfl

theorem ReaddirReply.push_none {reply : ReaddirReply} {args : ReaddirArgs4} {entry : Entry4}
    (h : reply.push args entry = .ok none) : reply.entries ≠ [] := by
  unfold ReaddirReply.push at h
  dsimp only at h
  split at h
  · rename_i hfull
    intro hnil
    simp [hnil] at hfull
  · split at h
    · cases h
    · cases h

theorem readdirLoop_takes {encode : FattrEncoder} {args : ReaddirArgs4} {minorversion : U32}
    (items : List ReaddirItem) (reply : ReaddirReply)
    (hitems : ∀ item ∈ items, Kept.all.Gets backend item) :
    Keeping .all (fun r => ∀ entries, r = .ok entries →
      ∃ k ≤ items.length, entries.map Entry4.place =
        reply.entries.map Entry4.place ++ (items.take k).map ReaddirItem.place ∧
          (reply.entries = [] → items ≠ [] → 0 < k))
      (readdirLoop backend encode ctx args minorversion items reply) := by
  induction items generalizing reply with
  | nil =>
    rintro entries h
    cases h
    exact ⟨0, le_rfl, by simp, fun _ h => absurd rfl h⟩
  | cons item items ih =>
    have hitem := hitems item List.mem_cons_self
    have hitems' := fun item' h => hitems item' (List.mem_cons_of_mem item h)
    refine Program.Along.bind (itemAttr_keeping item) fun r hr => ?_
    obtain ⟨attr, rfl⟩ := hr hitem
    refine Program.Along.bind (Keeping.any _) fun r _ => ?_
    cases r with
    | error e => exact nofun
    | ok stats =>
      refine Program.Along.bind (itemFh_keeping backend item) fun r hr => ?_
      obtain ⟨fh, rfl⟩ := hr hitem
      dsimp only
      split
      · exact nofun
      · rename_i hfull
        rintro entries h
        cases h
        exact ⟨0, Nat.zero_le _, by simp, fun h => absurd h (ReaddirReply.push_none hfull)⟩
      · rename_i reply' hpush
        have hentries := ReaddirReply.push_some hpush
        refine (ih reply' hitems').imp fun r hr entries h => ?_
        obtain ⟨k, hk, hplaces, -⟩ := hr entries h
        refine ⟨k + 1, Nat.succ_le_succ hk, ?_, fun _ _ => Nat.succ_pos k⟩
        rw [hplaces, hentries]
        simp [Entry4.place, ReaddirItem.place]

/-- Once the reply has an entry with another cookie it keeps it, and the first entry that gets
into an empty reply is one. -/
theorem readdirLoop_reaches {encode : FattrEncoder} {args : ReaddirArgs4} {minorversion : U32}
    (items : List ReaddirItem) (reply : ReaddirReply)
    (h : (∃ entry ∈ reply.entries, entry.cookie ≠ args.cookie) ∨
      reply.entries = [] ∧ k.Reaches backend args.cookie items) :
    Keeping k (fun r => ∀ entries, r = .ok entries → ∃ entry ∈ entries, entry.cookie ≠ args.cookie)
      (readdirLoop backend encode ctx args minorversion items reply) := by
  induction items generalizing reply with
  | nil =>
    rintro entries heq
    cases heq
    exact h.resolve_right fun h => h.2
  | cons item items ih =>
    -- If the entry is left out, the rest of the page is looked at with the same reply.
    have hskip : ¬ k.Gets backend item → Keeping k _
        (readdirLoop backend encode ctx args minorversion items reply) := fun hgets =>
      ih reply (h.imp_right fun h => ⟨h.1, h.2.2.resolve_left hgets⟩)
    refine Program.Along.bind (itemAttr_keeping item) fun r hr => ?_
    cases r with
    | error e => exact hskip fun hgets => by obtain ⟨_, heq⟩ := hr hgets; cases heq
    | ok attr =>
      refine Program.Along.bind (Keeping.any _) fun r _ => ?_
      cases r with
      | error e => exact nofun
      | ok stats =>
        refine Program.Along.bind (itemFh_keeping backend item) fun r hr => ?_
        cases r with
        | none => exact hskip fun hgets => by obtain ⟨_, heq⟩ := hr hgets; cases heq
        | some fh =>
          dsimp only
          split
          · exact nofun
          · rename_i hfull
            rintro entries heq
            cases heq
            exact h.resolve_right fun h => ReaddirReply.push_none hfull h.1
          · rename_i reply' hpush
            have hentries := ReaddirReply.push_some hpush
            refine ih reply' (Or.inl ?_)
            rw [hentries]
            rcases h with ⟨entry, hmem, hne⟩ | ⟨-, hne, -⟩
            · exact ⟨entry, List.mem_append_left _ hmem, hne⟩
            · exact ⟨_, List.mem_append_right _ List.mem_cons_self, hne⟩

theorem readdirCheck_cookie {args : ReaddirArgs4} {dirAttr : ServerFileAttr} {u : Unit}
    (h : readdirCheck args dirAttr = .ok u) : args.cookie ≠ 1 ∧ args.cookie ≠ 2 := by
  unfold readdirCheck at h
  split at h
  · cases h
  · split at h
    · cases h
    · rename_i hcookie
      exact not_or.mp hcookie

theorem opReaddir_ensures {may : (c : Call H) → c.Ret → Prop} {encode : FattrEncoder}
    {args : ReaddirArgs4} {currentFh : Option Bytes} {minorversion : U32}
    {O : ServerObject → Prop} {P : List ReaddirItem → Bool → Prop} {Q : ReaddirRes4 → Prop}
    (hobject : (resolveObject backend currentFh).Ensures may fun r =>
      ∀ fh object, r = .ok (fh, object) → O object)
    (hitems : ∀ object dirAttr, O object → readdirCheck args dirAttr = .ok () →
      (readdirItems backend ctx args object).Ensures may fun r =>
        ∀ items eof, r = .ok (items, eof) → P items eof)
    (hloop : ∀ items eof verifier, P items eof → readdirResokLen [] ≤ args.maxcount.toNat →
      (readdirLoop backend encode ctx args minorversion items
        ⟨[], 0, readdirResokLen []⟩).Ensures may fun r => ∀ entries, r = .ok entries →
          Q ⟨verifier, entries, eof && entries.length = items.length⟩) :
    (opReaddir backend encode ctx args currentFh minorversion).Ensures may fun r =>
      ∀ res, r = .readdir .ok (some res) → Q res := by
  refine Program.Along.bind hobject fun r hr => ?_
  cases r with
  | error status => exact nofun
  | ok resolved =>
    show Program.Ensures may _ (readdirGate ctx resolved.2 >>= _)
    refine Program.Along.bind (Program.Ensures.trivial _) fun r _ => ?_
    cases r with
    | error status => exact nofun
    | ok _ =>
      show Program.Ensures may _ (buildAttr backend ctx resolved.2 >>= _)
      refine Program.Along.bind (Program.Ensures.trivial _) fun r _ => ?_
      cases r with
      | error e => exact fun _ h => nomatch (NfsResop4.readdir.inj h).2
      | ok dirAttr =>
        simp only [Program.pure_eq, Program.ret_bind]
        cases hcheck : readdirCheck args dirAttr with
        | error status => exact nofun
        | ok _ =>
          refine Program.Along.bind (hitems resolved.2 dirAttr (hr _ _ rfl) hcheck)
            fun r hpage => ?_
          cases r with
          | error status => exact nofun
          | ok page =>
            show Program.Ensures may _ (if _ then _ else _)
            split
            · exact nofun
            · rename_i hroom
              refine Program.Along.bind (hloop page.1 page.2 dirAttr.changeId (hpage _ _ rfl)
                (Nat.le_of_not_lt hroom)) fun r hr => ?_
              cases r with
              | error status => exact nofun
              | ok entries =>
                rintro res h
                cases h
                exact hr entries rfl

theorem decodePersistentFh_fs {may : (c : Call H) → c.Ret → Prop} (fh : Bytes) :
    (decodePersistentFh backend fh).Ensures may fun r =>
      ∀ object, r = .ok object → ∃ id, object = .fs id := by
  unfold decodePersistentFh
  split
  · split
    · refine Program.Along.bind (Program.Ensures.trivial _) fun r _ => ?_
      cases r with
      | error e => exact nofun
      | ok handle =>
        show Program.Ensures may _ (registerHandle handle >>= _)
        refine Program.Along.bind (Program.Ensures.trivial _) fun r _ => ?_
        cases r with
        | error e => exact nofun
        | ok id =>
          show Program.Ensures may _ (objectToFh (.fs id) >>= _)
          refine Program.Along.bind (Program.Ensures.trivial _) fun r _ => ?_
          cases r with
          | none => exact nofun
          | some minted =>
            show Program.Ensures may _ (if _ then _ else _)
            split
            · rintro _ h
              cases h
              exact ⟨id, rfl⟩
            · exact nofun
    · exact nofun
  · exact nofun

theorem resolveObject_offers {cookie : U64} (fh : Option Bytes) :
    (resolveObject backend fh).Ensures (Call.Offers k cookie) fun r =>
      ∀ fh object, r = .ok (fh, object) →
        ∀ parent, object = .namedAttrDir parent → k.ids parent = true := by
  cases fh with
  | none => exact nofun
  | some fh =>
    refine ⟨trivial, fun r hr => ?_⟩
    cases r with
    | some object =>
      rintro _ _ h parent hparent
      cases h
      subst hparent
      exact hr.2
    | none =>
      show Program.Ensures _ _ (decodePersistentFh backend fh >>= _)
      refine Program.Along.bind (decodePersistentFh_fs fh) fun r hr => ?_
      cases r with
      | error status => exact nofun
      | ok object =>
        rintro _ _ h parent hparent
        cases h
        obtain ⟨id, rfl⟩ := hr object rfl
        cases hparent

theorem opReaddir_offers {encode : FattrEncoder} {args : ReaddirArgs4} {currentFh : Option Bytes}
    {minorversion : U32} :
    (opReaddir backend encode ctx args currentFh minorversion).Ensures
      (Call.Offers k args.cookie) fun r => ∀ res, r = .readdir .ok (some res) →
        res.eof = false → ∃ entry ∈ res.entries, entry.cookie ≠ args.cookie := by
  refine opReaddir_ensures (P := fun items _ => k.Reaches backend args.cookie items)
    (resolveObject_offers currentFh) (fun object dirAttr hparent hcheck => ?_)
    fun items eof verifier hreaches _ => ?_
  · exact readdirItems_offers (readdirCheck_cookie hcheck) hparent
  · refine ((readdirLoop_reaches items _ (Or.inr ⟨rfl, hreaches⟩)).offers args.cookie).imp ?_
    exact fun r hr entries h _ => hr entries h

theorem opReaddir_nothing {refused : H → Bool} {encode : FattrEncoder} {args : ReaddirArgs4}
    {currentFh : Option Bytes} {minorversion : U32} :
    (opReaddir backend encode ctx args currentFh minorversion).Ensures
      (fun c r => c.listsNothing refused args.cookie r = true) fun r =>
      ∀ res, r = .readdir .ok (some res) → res.eof = true := by
  refine opReaddir_ensures (O := fun _ => True) (P := fun items eof => items = [] ∧ eof = true)
    ((Program.Ensures.trivial _).imp fun _ _ _ _ _ => trivial)
    (fun object dirAttr _ _ => readdirItems_nothing object) fun items eof verifier hpage _ => ?_
  obtain ⟨rfl, rfl⟩ := hpage
  rintro entries h
  cases h
  rfl

end Keeping

/-! ## Runs -/

variable [DecidableEq H]

/-- **READDIR makes progress.** A reply that is not the last has an entry with a new cookie, if some
entry of the backend's page, before any that carries the requested cookie, is not left out, or if
the page is the last and nothing of it is registered. -/
theorem readdir_progress {cfg : ServerConfig H} {ctx : OpContext} {connectionId : U64}
    {args : ReaddirArgs4} {state : CompoundState}
    {c c' : Machine H (NfsResop4 × CompoundState)}
    {tr : Trace H} {t : Nat}
    (hrun : (Server.system cfg.backend).Run c tr c')
    (hthread : c.threads[t]? = some (handleOp cfg ctx connectionId (.readdir args) state))
    (hlists : (∃ k, ∀ e ∈ tr, e.thread = t → e.call.Offers k args.cookie e.answer) ∨
      ∃ refused, ∀ e ∈ tr, e.thread = t → e.call.listsNothing refused args.cookie e.answer = true)
    {res : ReaddirRes4} {state' : CompoundState}
    (hdone : c'.threads[t]? = some (.ret (.readdir .ok (some res), state')))
    (heof : res.eof = false) : ∃ entry ∈ res.entries, entry.cookie ≠ args.cookie := by
  -- Both conditions are conditions on the answers to the READDIR's own calls.
  have halong : ∀ may : (c : Call H) → c.Ret → Prop,
      (∀ e ∈ tr, e.thread = t → may e.call e.answer) →
      (opReaddir cfg.backend cfg.encodeFattr4 ctx.request args state.currentFh
        state.minorversion).Ensures may (fun r => ∀ res, r = .readdir .ok (some res) →
          res.eof = false → ∃ entry ∈ res.entries, entry.cookie ≠ args.cookie) →
      ∃ entry ∈ res.entries, entry.cookie ≠ args.cookie := by
    intro may hmay hop
    have hhandled : (handleOp cfg ctx connectionId (.readdir args) state).Ensures may
        fun r => ∀ res, r.1 = .readdir .ok (some res) → res.eof = false →
          ∃ entry ∈ res.entries, entry.cookie ≠ args.cookie :=
      Program.Along.bind hop fun _ h => h
    obtain ⟨-, p, hp, hresult⟩ := hrun.along hthread hmay hhandled
    rw [hdone] at hp
    cases hp
    exact hresult res rfl heof
  rcases hlists with ⟨k, hoffers⟩ | ⟨refused, hnothing⟩
  · exact halong _ hoffers opReaddir_offers
  · refine halong _ hnothing (opReaddir_nothing.imp fun r hr res h heof => ?_)
    exact absurd (hr res h) (Bool.eq_false_iff.mp heof)

/-! ## A directory with one entry -/

namespace Scripted

/-- The scripted world with a directory that lists one object, which is not the last. -/
def listingAnswer (backend : Backend Bool) (s : Server Bool) : (c : Call Bool) → c.Ret × Server Bool
  | .backend _ _ _ (.readdir _ _ _ _) => (.ok ⟨[⟨"a", true, 3, none⟩], false⟩, s)
  | c => Server.scriptedAnswer backend .someDir s c

def listing (backend : Backend Bool) : (Server.system backend).Resolver where
  answer := listingAnswer backend
  exec s c := by
    cases c with
    | backend ctx origin dirs c => cases c <;> rfl
    | _ => first | rfl | exact ⟨rfl, rfl⟩

def listingConfig : ServerConfig Bool where
  backend := .plain false
  delegations := ⟨false, 0, 0, 0⟩
  writeVerifier := 0

/-- The root is made the current filehandle. -/
def putRoot : Request Bool (NfsResop4 × CompoundState) :=
  handleOp listingConfig ⟨⟨.none⟩, none, none⟩ 1 .putrootfh { minorversion := 1 }

/-- The listed object is retired. -/
def retireListed : Request Bool (NfsResop4 × CompoundState) :=
  (fun _ => (.putrootfh .ok, { minorversion := 1 })) <$>
    (Program.perform (.retireMatching id) : Request Bool _)

/-- READDIR of the root from its start. -/
def listRoot : Request Bool (NfsResop4 × CompoundState) :=
  handleOp listingConfig ⟨⟨.none⟩, none, none⟩ 1 (.readdir ⟨0, 0, 0, 512, ⟨[]⟩⟩)
    { minorversion := 1, currentFh := some fh }

/-- The requests after one another. -/
def listingRun (requests : List (Request Bool (NfsResop4 × CompoundState))) :
    Trace Bool ×
      Machine Bool (NfsResop4 × CompoundState) :=
  (listing listingConfig.backend).play ⟨Server.new Bool .fixed, requests⟩
    ((List.range requests.length).flatMap fun t => List.replicate 20 t)

end Scripted

open Scripted

theorem listingRun_run (requests : List (Request Bool (NfsResop4 × CompoundState))) :
    (Server.system listingConfig.backend).Run ⟨Server.new Bool .fixed, requests⟩
      (listingRun requests).1 (listingRun requests).2 :=
  (listing listingConfig.backend).play_run _ _

theorem readdir_progress_listing :
    ∃ entry ∈ [(⟨3, "a", ⟨⟨[]⟩, []⟩⟩ : Entry4)], entry.cookie ≠ 0 := by
  have hresult : (listingRun [putRoot, listRoot]).2.threads[1]?.bind Program.result =
      some (.readdir .ok (some ⟨1, [⟨3, "a", ⟨⟨[]⟩, []⟩⟩], false⟩),
        { minorversion := 1, currentFh := some fh }) := by
    decide +kernel
  have hkeeps : ((listingRun [putRoot, listRoot]).1.all fun e =>
      e.thread ≠ 1 || (e.call.keeps .all e.answer && e.call.offers .all 0 e.answer)) = true := by
    decide +kernel
  refine readdir_progress (listingRun_run [putRoot, listRoot])
    (show [putRoot, listRoot][1]? = some listRoot from rfl) (Or.inl ⟨.all, fun e he ht => ?_⟩)
    (of_bind_result hresult) rfl
  simpa [ht, Call.Offers] using List.all_eq_true.mp hkeeps e he

/-- A page whose entries are all retired makes an empty reply that is not the last. -/
theorem readdir_stuck :
    (Server.system listingConfig.backend).Run
      ⟨Server.new Bool .fixed, [putRoot, retireListed, listRoot]⟩
      (listingRun [putRoot, retireListed, listRoot]).1
      (listingRun [putRoot, retireListed, listRoot]).2 ∧
    ((listingRun [putRoot, retireListed, listRoot]).2.threads[2]?.bind Program.result).map Prod.fst =
      some (.readdir .ok (some ⟨1, [], false⟩)) :=
  ⟨listingRun_run _, by decide +kernel⟩

end EmbedNfs
