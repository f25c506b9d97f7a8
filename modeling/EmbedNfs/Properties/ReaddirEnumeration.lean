import EmbedNfs.MemFs.Operations
import EmbedNfs.Properties.ReaddirProgress

/-!
# READDIR lists a directory exactly

A client that starts at cookie 0 and asks again with the last cookie and the verifier of each
reply gets every name of an in-memory directory once, in order, and the last reply is the only
one that says so. The cookie of the entry at position `i` is `i + 3`, so a client that has got
`p` entries asks for what follows cookie `p + 2`. Every reply that is not the last holds an
entry, and the argument is by induction on the entries that are left.
-/

namespace EmbedNfs

open MemFs

/-- The name and the cookie of an entry of the file system. -/
def DirEntry.place {H : Type} (entry : DirEntry H) : String × U64 := (entry.name, entry.cookie)

/-- The cookie with which a client that has got `p` entries goes on. -/
def cookieAt (p : Nat) : U64 := if p = 0 then 0 else BitVec.ofNat 64 (p + 2)

/-- The entries from position `p` on, with their cookies. -/
def placesFrom (names : List String) (p : Nat) : List (String × U64) :=
  ((names.drop p).zipIdx p).map fun (name, i) => (name, BitVec.ofNat 64 (i + 3))

/-- The reply to a client that has got `p` of the names: some more of them, and whether these are
the last. -/
def GoodReply (names : List String) (p : Nat) (res : ReaddirRes4) : Prop :=
  ∃ k, p + k ≤ names.length ∧ res.entries.map Entry4.place = (placesFrom names p).take k ∧
    (res.eof = true ↔ p + k = names.length) ∧ (res.eof = false → 0 < k)

/-- What is fixed while a client lists a directory of an in-memory file system: the directory's
filehandle and inode, and what the file system answers to `readdir`. -/
structure Listing where
  fs : State
  fh : Bytes
  dirId : ObjectId
  dir : InodeId
  inode : Inode
  entries : Table String InodeId
  hinode : fs.inodes.get dir = some inode
  hentries : inode.entries? = some entries
  hlength : entries.entries.length < 2 ^ 63

namespace Listing

variable (l : Listing)

/-- The names of the directory in order. -/
def names : List String := (State.sortedEntries l.entries).map Prod.fst

/-- Whether a call about the directory is answered as it is fixed. -/
def answers : (c : Call InodeId) → c.Ret → Bool
  | .backendHandle id, r => id ≠ l.dirId || r = some l.dir
  | .mapOp (.fhToObject fh), r => fh ≠ l.fh || r = some (.fs l.dirId)
  | .backend _ _ _ (.readdir dir cookie maxEntries withAttrs), r =>
    dir ≠ l.dir || r = l.fs.readdir dir cookie maxEntries withAttrs
  | _, _ => true

/-- Whether the call lists the directory. -/
def lists : Call InodeId → Bool
  | .backend _ _ _ (.readdir dir _ _ _) => dir = l.dir
  | _ => false

/-- The answers while the directory is not modified and none of its entries is retired. -/
def May (c : Call InodeId) (r : c.Ret) : Prop :=
  (c.KeepsEntries r ∨ l.lists c = true) ∧ l.answers c r = true

theorem eq_of_or {α : Type} [DecidableEq α] {β : Type} [DecidableEq β] {a : α} {r r' : β}
    (h : (a ≠ a || r = r' : Bool) = true) : r = r' := by
  simpa using h

theorem May.keepsEntries {l : Listing} {c : Call InodeId} {r : c.Ret} (h : l.May c r) :
    c.KeepsEntries r := by
  obtain ⟨hkeeps | hlists, -⟩ := h
  · exact hkeeps
  · unfold lists at hlists
    split at hlists
    · rfl
    · cases hlists

theorem ensures {α : Type} {Q : α → Prop} {p : Request InodeId α} (h : Keeping .all Q p) :
    p.Ensures l.May Q :=
  h.mono (fun _ _ h => h.keepsEntries) (fun _ _ => trivial) fun _ h => h

theorem length_names : l.names.length = l.entries.entries.length := by
  simp [names, State.sortedEntries]

theorem start_cookieAt {p : Nat} (hp : p < 2 ^ 63) :
    (if cookieAt p = 0 then 0 else (cookieAt p).toNat - 2) = p := by
  by_cases hzero : p = 0
  · simp [cookieAt, hzero]
  · have hnat : (cookieAt p).toNat = p + 2 := by
      rw [cookieAt, if_neg hzero, BitVec.toNat_ofNat]
      exact Nat.mod_eq_of_lt (by omega)
    have hne : cookieAt p ≠ 0 := by
      intro h
      rw [h] at hnat
      cases hnat
    rw [if_neg hne, hnat]
    omega

theorem readdir_page {p : Nat} (hp : p ≤ l.names.length) {maxEntries : U32}
    (hmax : maxEntries ≠ 0) {withAttrs : Bool} {page : DirPage InodeId}
    (h : l.fs.readdir l.dir (cookieAt p) maxEntries withAttrs = .ok page) :
    page.entries.map DirEntry.place = (placesFrom l.names p).take maxEntries.toNat ∧
      (page.eof = true ↔ l.names.length ≤ p + page.entries.length) := by
  have hlt : p < 2 ^ 63 := by
    have := l.hlength
    rw [l.length_names] at hp
    omega
  simp only [State.readdir, l.hinode, l.hentries, start_cookieAt hlt, if_neg hmax] at h
  split at h
  · cases h
  · cases h
    refine ⟨?_, ?_⟩
    · apply List.ext_getElem?
      intro i
      simp only [placesFrom, names, List.map_map, List.getElem?_map, List.getElem?_zipIdx,
        List.getElem?_take, List.getElem?_drop]
      by_cases hi : i < maxEntries.toNat
      · cases (State.sortedEntries l.entries)[p + i]? with
        | none => simp [hi]
        | some e => simp [hi, Nat.add_assoc, DirEntry.place]
      · simp [hi]
    · rw [l.length_names]
      simp

theorem length_placesFrom (names : List String) (p : Nat) :
    (placesFrom names p).length = names.length - p := by
  simp [placesFrom]

theorem readdirItems_page {backend : Backend InodeId} {ctx : RequestContext} {args : ReaddirArgs4}
    {p : Nat} (hp : p ≤ l.names.length) (hcookie : args.cookie = cookieAt p) :
    (readdirItems backend ctx args (.fs l.dirId)).Ensures l.May fun r =>
      ∀ items eof, r = .ok (items, eof) →
        ∃ m > 0, items.map ReaddirItem.place = (placesFrom l.names p).take m ∧
          (eof = true ↔ l.names.length ≤ p + items.length) ∧
          ∀ item ∈ items, Kept.all.Gets backend item := by
  have hmax : (if args.maxcount / 128 = 0 then (1 : U32) else args.maxcount / 128) ≠ 0 := by
    split
    · decide
    · assumption
  refine Program.Along.bind (Q := fun r => ∀ page, r = .ok page →
    page.entries.map DirEntry.place = (placesFrom l.names p).take
      (if args.maxcount / 128 = 0 then (1 : U32) else args.maxcount / 128).toNat ∧
      (page.eof = true ↔ l.names.length ≤ p + page.entries.length)) ?_ fun r hr => ?_
  · refine ⟨trivial, fun r hr => ?_⟩
    cases eq_of_or hr.2
    refine ⟨trivial, fun r hr => ?_⟩
    have hanswer := eq_of_or hr.2
    cases r with
    | error e => exact nofun
    | ok page =>
      rw [hcookie] at hanswer
      obtain ⟨hplaces, heof⟩ := l.readdir_page hp hmax hanswer.symm
      show Program.Ensures l.May _ (registerEntries page.entries >>= _)
      refine Program.Along.bind (l.ensures (registerEntries_keeping Prod.mk page.entries))
        fun entries hentries => ?_
      rintro _ h
      cases h
      have hlength : entries.length = page.entries.length := by
        simpa using congrArg List.length hentries
      exact ⟨hentries.trans hplaces, by rw [heof, hlength]⟩
  · cases r with
    | error e => exact nofun
    | ok page =>
      obtain ⟨hplaces, heof⟩ := hr page rfl
      rintro items eof h
      cases h
      refine ⟨(if args.maxcount / 128 = 0 then (1 : U32) else args.maxcount / 128).toNat, ?_, ?_,
        by rw [heof, List.length_map], fun item hitem => ?_⟩
      · exact Nat.pos_of_ne_zero fun h => hmax (BitVec.eq_of_toNat_eq h)
      · rw [← hplaces, List.map_map]
        rfl
      · obtain ⟨entry, -, rfl⟩ := List.mem_map.mp hitem
        exact ⟨rfl, trivial⟩

theorem goodReply_of_page {p m k : Nat} (hp : p ≤ l.names.length) (hm : 0 < m)
    {items : List ReaddirItem} {eof : Bool} {entries : List Entry4} {verifier : U64}
    (hitems : items.map ReaddirItem.place = (placesFrom l.names p).take m)
    (heof : eof = true ↔ l.names.length ≤ p + items.length) (hk : k ≤ items.length)
    (hentries : entries.map Entry4.place = (items.take k).map ReaddirItem.place)
    (hpos : items ≠ [] → 0 < k) :
    GoodReply l.names p ⟨verifier, entries, eof && entries.length = items.length⟩ := by
  have hlength : items.length = min m (l.names.length - p) := by
    simpa [length_placesFrom] using congrArg List.length hitems
  have hcount : entries.length = k := by
    simpa [hk] using congrArg List.length hentries
  have hwhole : (eof && decide (entries.length = items.length)) = true ↔
      p + k = l.names.length := by
    rw [Bool.and_eq_true, heof, decide_eq_true_eq]
    omega
  refine ⟨k, by omega, ?_, hwhole, fun h => ?_⟩
  · rw [hentries, List.map_take, hitems, List.take_take, Nat.min_eq_left (by omega)]
  · by_cases hnil : items = []
    · have hzero : items.length = 0 := by rw [hnil, List.length_nil]
      exact absurd (hwhole.mpr (by omega)) (Bool.eq_false_iff.mp h)
    · exact hpos hnil

theorem resolveObject_dir {backend : Backend InodeId} :
    (resolveObject backend (some l.fh)).Ensures l.May fun r =>
      ∀ fh object, r = .ok (fh, object) → object = .fs l.dirId := by
  refine ⟨trivial, fun r hr => ?_⟩
  cases eq_of_or hr.2
  rintro fh object h
  cases h
  rfl

theorem opReaddir_reply {backend : Backend InodeId} {encode : FattrEncoder} {ctx : RequestContext}
    {args : ReaddirArgs4} {minorversion : U32} {p : Nat} (hp : p ≤ l.names.length)
    (hcookie : args.cookie = cookieAt p) :
    (opReaddir backend encode ctx args (some l.fh) minorversion).Ensures l.May fun r =>
      ∀ res, r = .readdir .ok (some res) → GoodReply l.names p res := by
  refine opReaddir_ensures
    (P := fun items eof => ∃ m > 0, items.map ReaddirItem.place = (placesFrom l.names p).take m ∧
      (eof = true ↔ l.names.length ≤ p + items.length) ∧
      ∀ item ∈ items, Kept.all.Gets backend item)
    l.resolveObject_dir ?_ fun items eof verifier hpage _ => ?_
  · rintro _ dirAttr rfl -
    exact l.readdirItems_page hp hcookie
  · obtain ⟨m, hm, hplaces, heof, hreadable⟩ := hpage
    refine (l.ensures (readdirLoop_takes items _ hreadable)).imp fun r hr entries h => ?_
    obtain ⟨k, hk, hentries, hpos⟩ := hr entries h
    exact l.goodReply_of_page hp hm hplaces heof hk hentries (hpos rfl)

end Listing

/-! ## The client -/

/-- The cookie of the last entry, or the one that was asked for. -/
def ReaddirRes4.nextCookie (res : ReaddirRes4) (cookie : U64) : U64 :=
  (res.entries.getLast?.map Entry4.cookie).getD cookie

/-- A client that repeats READDIR with the last cookie and the verifier it got, until a reply
says that nothing is left, or for the given number of calls. -/
def enumerate {H : Type} (cfg : ServerConfig H) (ctx : OpContext) (connectionId : U64)
    (state : CompoundState) (args : ReaddirArgs4) :
    Nat → Request H (Except NfsResop4 (List ReaddirRes4))
  | 0 => return .ok []
  | calls + 1 => do
    match (← handleOp cfg ctx connectionId (.readdir args) state).1 with
    | .readdir .ok (some res) =>
      if res.eof then return .ok [res]
      else
        let args :=
          { args with cookie := res.nextCookie args.cookie, cookieverf := res.cookieverf }
        match ← enumerate cfg ctx connectionId state args calls with
        | .ok replies => return .ok (res :: replies)
        | .error r => return .error r
    | r => return .error r

/-- Only the last of the replies says that nothing is left. -/
def EndsAtEof (replies : List ReaddirRes4) : Prop :=
  ∃ earlier last, replies = earlier ++ [last] ∧ last.eof = true ∧
    ∀ res ∈ earlier, res.eof = false

/-- The entries of the replies. -/
def listed (replies : List ReaddirRes4) : List Entry4 := replies.flatMap ReaddirRes4.entries

theorem drop_placesFrom (names : List String) (p k : Nat) :
    (placesFrom names p).drop k = placesFrom names (p + k) := by
  apply List.ext_getElem?
  intro i
  simp only [placesFrom, List.getElem?_drop, List.getElem?_map, List.getElem?_zipIdx]
  simp [Nat.add_assoc]

theorem GoodReply.nextCookie {names : List String} {p k : Nat} {res : ReaddirRes4} {cookie : U64}
    (hk : p + k ≤ names.length) (hpos : 0 < k)
    (hentries : res.entries.map Entry4.place = (placesFrom names p).take k) :
    res.nextCookie cookie = cookieAt (p + k) := by
  have hlast : (res.entries.map Entry4.place).getLast? =
      some (names[p + (k - 1)], BitVec.ofNat 64 (p + (k - 1) + 3)) := by
    rw [hentries, List.getLast?_eq_getElem?, List.length_take, Listing.length_placesFrom,
      Nat.min_eq_left (by omega), List.getElem?_take_of_lt (by omega)]
    simp [placesFrom, List.getElem?_eq_getElem (show p + (k - 1) < names.length by omega)]
  rw [List.getLast?_map] at hlast
  obtain ⟨entry, hentry, hplace⟩ := Option.map_eq_some_iff.mp hlast
  have hcookie : entry.cookie = BitVec.ofNat 64 (p + (k - 1) + 3) := congrArg Prod.snd hplace
  rw [ReaddirRes4.nextCookie, hentry, Option.map_some, Option.getD_some, hcookie, cookieAt,
    if_neg (by omega)]
  congr 1
  omega

theorem EndsAtEof.cons {res : ReaddirRes4} {replies : List ReaddirRes4} (h : EndsAtEof replies)
    (hres : res.eof = false) : EndsAtEof (res :: replies) := by
  obtain ⟨earlier, last, rfl, hlast, hearlier⟩ := h
  refine ⟨res :: earlier, last, rfl, hlast, fun res' hmem => ?_⟩
  rcases List.mem_cons.mp hmem with rfl | hmem
  · exact hres
  · exact hearlier res' hmem

namespace Listing

variable (l : Listing) {cfg : ServerConfig InodeId} {ctx : OpContext} {connectionId : U64}
  {state : CompoundState}

theorem enumerate_places (hstate : state.currentFh = some l.fh) (calls : Nat) {args : ReaddirArgs4}
    {p : Nat} (hp : p ≤ l.names.length) (hcookie : args.cookie = cookieAt p)
    (hcalls : l.names.length - p < calls) :
    (enumerate cfg ctx connectionId state args calls).Ensures l.May fun r =>
      ∀ replies, r = .ok replies →
        EndsAtEof replies ∧ (listed replies).map Entry4.place = placesFrom l.names p := by
  induction calls generalizing args p with
  | zero => exact absurd hcalls (Nat.not_lt_zero _)
  | succ calls ih =>
    have hreply : (handleOp cfg ctx connectionId (.readdir args) state).Ensures l.May fun r =>
        ∀ res, r.1 = .readdir .ok (some res) → GoodReply l.names p res := by
      refine Program.Along.bind ?_ fun _ h => h
      rw [hstate]
      exact l.opReaddir_reply hp hcookie
    refine Program.Along.bind hreply fun r hr => ?_
    obtain ⟨r, state'⟩ := r
    dsimp only
    split
    · rename_i res
      obtain ⟨k, hk, hentries, heof, hpos⟩ := hr res rfl
      have hsplit := List.take_append_drop k (placesFrom l.names p)
      rw [← hentries, drop_placesFrom] at hsplit
      split
      · rename_i hlast
        rintro _ h
        cases h
        refine ⟨⟨[], res, rfl, hlast, fun _ h => (List.not_mem_nil h).elim⟩, ?_⟩
        have hrest : placesFrom l.names (p + k) = [] := by
          simp [placesFrom, heof.mp hlast]
        rw [hrest, List.append_nil] at hsplit
        simpa [listed] using hsplit
      · rename_i hmore
        have hmore := Bool.eq_false_iff.mpr hmore
        have hpos := hpos hmore
        refine Program.Along.bind (ih hk (GoodReply.nextCookie hk hpos hentries) (by omega))
          fun r hr => ?_
        cases r with
        | error e => exact nofun
        | ok replies =>
          obtain ⟨hends, hplaces⟩ := hr replies rfl
          rintro _ h
          cases h
          refine ⟨hends.cons hmore, ?_⟩
          rw [← hsplit, ← hplaces]
          simp [listed]
    · exact nofun

theorem names_sorted : l.names.Pairwise (· < ·) := by
  have hle : l.names.Pairwise (· ≤ ·) := by
    have : Std.Total fun a b : String × InodeId => a.1 ≤ b.1 :=
      ⟨fun a b => String.le_total a.1 b.1⟩
    have : IsTrans (String × InodeId) fun a b => a.1 ≤ b.1 :=
      ⟨fun _ _ _ hab hbc => String.le_trans hab hbc⟩
    exact List.pairwise_map.mpr (List.pairwise_insertionSort _ l.entries.entries)
  have hnodup : l.names.Nodup :=
    ((List.perm_insertionSort _ l.entries.entries).map Prod.fst).nodup_iff.mpr l.entries.nodupKeys
  exact (hle.and hnodup).imp fun ⟨hle, hne⟩ =>
    String.not_le.mp fun h => hne (String.le_antisymm hle h)

theorem mem_names (name : String) : name ∈ l.names ↔ (l.entries.get name).isSome := by
  simp [names, State.sortedEntries, Table.mem_entries, Option.isSome_iff_exists]

theorem map_fst_placesFrom (names : List String) : (placesFrom names 0).map Prod.fst = names := by
  simp [placesFrom, Function.comp_def, List.zipIdx_map_fst]

theorem cookies_sorted : ((placesFrom l.names 0).map Prod.snd).Pairwise (· < ·) := by
  refine List.pairwise_iff_getElem.mpr fun i j hi hj hij => ?_
  have hlength : l.names.length < 2 ^ 63 := l.length_names ▸ l.hlength
  have hj' : j < l.names.length := by simpa [length_placesFrom] using hj
  simp only [placesFrom, List.getElem_map, List.getElem_zipIdx, BitVec.lt_def, BitVec.toNat_ofNat]
  rw [Nat.mod_eq_of_lt (by omega), Nat.mod_eq_of_lt (by omega)]
  omega

/-- A client that follows the cookies gets the names of the directory, each once and in order,
and only its last reply says that nothing is left. -/
theorem readdir_enumerates {args : ReaddirArgs4} {calls : Nat}
    {c c' : Machine InodeId
      (Except NfsResop4 (List ReaddirRes4))}
    {tr : Trace InodeId} {t : Nat}
    (hrun : (Server.system cfg.backend).Run c tr c')
    (hthread : c.threads[t]? = some (enumerate cfg ctx connectionId state args calls))
    (hstate : state.currentFh = some l.fh) (hstart : args.cookie = 0)
    (hcalls : l.entries.entries.length < calls)
    (hanswers : ∀ e ∈ tr, e.thread = t → l.May e.call e.answer) {replies : List ReaddirRes4}
    (hdone : c'.threads[t]? = some (.ret (.ok replies))) :
    EndsAtEof replies ∧
      ((listed replies).map Entry4.name).Pairwise (· < ·) ∧
      (∀ name, name ∈ (listed replies).map Entry4.name ↔ (l.entries.get name).isSome) ∧
      ((listed replies).map Entry4.cookie).Pairwise (· < ·) := by
  have halong : (enumerate cfg ctx connectionId state args calls).Ensures l.May _ :=
    l.enumerate_places hstate calls (Nat.zero_le _) hstart (by rwa [l.length_names])
  obtain ⟨-, p, hp, hresult⟩ := hrun.along hthread hanswers halong
  rw [hdone] at hp
  cases hp
  obtain ⟨hends, hplaces⟩ := hresult replies rfl
  have hnames : (listed replies).map Entry4.name = l.names := by
    rw [← map_fst_placesFrom l.names, ← hplaces, List.map_map]
    rfl
  have hcookies : (listed replies).map Entry4.cookie = (placesFrom l.names 0).map Prod.snd := by
    rw [← hplaces, List.map_map]
    rfl
  rw [hnames, hcookies]
  exact ⟨hends, l.names_sorted, l.mem_names, l.cookies_sorted⟩

end Listing

/-! ## A directory with two files -/

namespace Scripted

/-- The root of an in-memory file system with two files. -/
def twoFiles : State :=
  (State.new ⟨0, 0⟩).run
    [(⟨0, 0⟩, .create ⟨.none⟩ rootId "b" .file {}), (⟨0, 0⟩, .create ⟨.none⟩ rootId "a" .file {})]

/-- The scripted world with a backend that lists these files. -/
def twoFilesAnswer (backend : Backend InodeId) (s : Server InodeId) :
    (c : Call InodeId) → c.Ret × Server InodeId
  | .backend _ _ _ (.readdir dir cookie maxEntries withAttrs) =>
    (twoFiles.readdir dir cookie maxEntries withAttrs, s)
  | c => Server.scriptedAnswer backend .someDir s c

def listTwoFiles (backend : Backend InodeId) : (Server.system backend).Resolver where
  answer := twoFilesAnswer backend
  exec s c := by
    cases c with
    | backend ctx origin dirs c => cases c <;> rfl
    | _ => first | rfl | exact ⟨rfl, rfl⟩

def memFsConfig : ServerConfig InodeId where
  backend := .plain rootId
  delegations := ⟨false, 0, 0, 0⟩
  writeVerifier := 0

/-- The root is made the current filehandle, and then a client lists it, one entry a call. -/
def enumerateRoot : List (Request InodeId (Except NfsResop4 (List ReaddirRes4))) :=
  [(fun r => .error r.1) <$>
      handleOp memFsConfig ⟨⟨.none⟩, none, none⟩ 1 .putrootfh { minorversion := 1 },
    enumerate memFsConfig ⟨⟨.none⟩, none, none⟩ 1 { minorversion := 1, currentFh := some fh }
      ⟨0, 0, 0, 128, ⟨[]⟩⟩ 3]

def enumerateRun : Trace InodeId ×
    Machine InodeId (Except NfsResop4 (List ReaddirRes4)) :=
  (listTwoFiles memFsConfig.backend).play ⟨Server.new InodeId .fixed, enumerateRoot⟩
    (List.replicate 20 0 ++ List.replicate 40 1)

/-- What is fixed while the root is listed. -/
def rootListing : Listing where
  fs := twoFiles
  fh := fh
  dirId := 1
  dir := rootId
  inode := (twoFiles.inodes.get rootId).get (by decide +kernel)
  entries := ((twoFiles.inodes.get rootId).get (by decide +kernel)).entries?.get (by decide +kernel)
  hinode := (Option.some_get _).symm
  hentries := (Option.some_get _).symm
  hlength := by decide +kernel

/-- The replies. -/
def rootReplies : List ReaddirRes4 :=
  [⟨1, [⟨3, "a", ⟨⟨[]⟩, []⟩⟩], false⟩, ⟨1, [⟨4, "b", ⟨⟨[]⟩, []⟩⟩], true⟩]

end Scripted

open Scripted

theorem readdir_enumerates_two_files :
    EndsAtEof rootReplies ∧
      ((listed rootReplies).map Entry4.name).Pairwise (· < ·) ∧
      (∀ name, name ∈ (listed rootReplies).map Entry4.name ↔
        (rootListing.entries.get name).isSome) ∧
      ((listed rootReplies).map Entry4.cookie).Pairwise (· < ·) := by
  have hresult : enumerateRun.2.threads[1]?.bind Program.result = some (.ok rootReplies) := by
    decide +kernel
  have hanswers : (enumerateRun.1.all fun e => e.thread ≠ 1 ||
      ((e.call.keepsEntries e.answer || rootListing.lists e.call) &&
        rootListing.answers e.call e.answer)) = true := by
    decide +kernel
  refine rootListing.readdir_enumerates
    ((listTwoFiles memFsConfig.backend).play_run ⟨Server.new InodeId .fixed, enumerateRoot⟩ _)
    (show enumerateRoot[1]? = some _ from rfl) rfl rfl (by decide +kernel) (fun e he ht => ?_)
    (of_bind_result hresult)
  simpa [ht, Listing.May, Call.KeepsEntries] using List.all_eq_true.mp hanswers e he

end EmbedNfs
