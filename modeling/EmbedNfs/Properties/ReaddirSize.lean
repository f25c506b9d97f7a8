import EmbedNfs.Properties.AttributeSupport

/-!
# The size of a READDIR result

The loop of `op_readdir` counts the bytes of the entries it takes, and the count is the length of
their encoding: a mask that `encode_fattr4` builds has no zero word at its end, so that the words
counted are the words written. The result therefore keeps to `maxcount`, and to `dircount` as soon
as it holds two entries.
-/

namespace EmbedNfs

variable {H : Type}

/-- What the names and cookies of some entries take. -/
def readdirDirLen (entries : List Entry4) : Nat := (entries.map readdirDirInfoLen).sum

theorem length_encode_fattr {fattr : Fattr4} (h : fattr.attrmask.Tight) :
    fattr.encode.length = xdrFattr4Len fattr := by
  rw [Fattr4.encode, Bitmap4.encode, h, encodeList, List.length_append, List.length_append,
    length_flatMap_be32, length_be32, length_encodeOpaque, xdrFattr4Len]

theorem length_encode_entry {entry : Entry4} (h : entry.attrs.attrmask.Tight) :
    (encodeBool true ++ entry.encode).length = readdirEntryListItemLen entry := by
  rw [Entry4.encode, List.length_append, List.length_append, List.length_append,
    length_encodeBool, length_be64, length_encodeString, length_encode_fattr h,
    readdirEntryListItemLen]

theorem length_encode_readdir (res : ReaddirRes4)
    (h : ∀ entry ∈ res.entries, entry.attrs.attrmask.Tight) :
    res.encode.length = readdirResokLen res.entries := by
  have hentries : (res.entries.flatMap fun entry => encodeBool true ++ entry.encode).length =
      (res.entries.map readdirEntryListItemLen).sum := by
    rw [List.length_flatMap]
    exact congrArg List.sum (List.map_congr_left fun entry hentry =>
      length_encode_entry (h entry hentry))
  simp only [ReaddirRes4.encode, List.length_append, hentries, length_be64, length_encodeBool,
    readdirResokLen]

/-! ## The loop -/

/-- A reply whose counts are those of its entries, within the limits of the request. -/
structure ReaddirReply.Within (args : ReaddirArgs4) (reply : ReaddirReply) : Prop where
  total : reply.totalBytes = readdirResokLen reply.entries
  dir : reply.dirBytes = readdirDirLen reply.entries
  maxcount : reply.totalBytes ≤ args.maxcount.toNat
  dircount : 2 ≤ reply.entries.length → args.dircount ≠ 0 →
    reply.dirBytes ≤ args.dircount.toNat
  tight : ∀ entry ∈ reply.entries, entry.attrs.attrmask.Tight

theorem readdirResokLen_append (entries : List Entry4) (entry : Entry4) :
    readdirResokLen (entries ++ [entry]) =
      readdirResokLen entries + readdirEntryListItemLen entry := by
  simp only [readdirResokLen, List.map_append, List.sum_append, List.map_cons, List.map_nil,
    List.sum_cons, List.sum_nil]
  omega

theorem readdirDirLen_append (entries : List Entry4) (entry : Entry4) :
    readdirDirLen (entries ++ [entry]) = readdirDirLen entries + readdirDirInfoLen entry := by
  simp only [readdirDirLen, List.map_append, List.sum_append, List.map_cons, List.map_nil,
    List.sum_cons, List.sum_nil]
  omega

theorem ReaddirReply.Within.push {args : ReaddirArgs4} {reply reply' : ReaddirReply}
    {entry : Entry4} (h : reply.Within args) (htight : entry.attrs.attrmask.Tight)
    (hpush : reply.push args entry = .ok (some reply')) : reply'.Within args := by
  unfold ReaddirReply.push at hpush
  dsimp only at hpush
  split at hpush
  · cases hpush
  rename_i hroom
  split at hpush
  · cases hpush
  rename_i hfirst
  cases hpush
  have hmax : reply.totalBytes + readdirEntryListItemLen entry ≤ args.maxcount.toNat := by
    by_contra hlt
    by_cases hnil : reply.entries = []
    · exact hfirst ⟨by simp [hnil], by omega⟩
    · exact hroom ⟨by simp [hnil], .inr (by omega)⟩
  constructor
  · rw [readdirResokLen_append, h.total]
  · rw [readdirDirLen_append, h.dir]
  · exact hmax
  · -- a second entry is checked against `dircount`
    intro htwo hdircount
    by_contra hlt
    dsimp only at hlt
    have hnil : reply.entries ≠ [] := fun hnil => by
      simp [hnil] at htwo
    refine hroom ⟨by simp [hnil], .inl ?_⟩
    simp only [exceedsDircount, decide_eq_true_eq]
    exact ⟨hdircount, by omega⟩
  · intro other hmem
    rcases List.mem_append.mp hmem with hmem | hmem
    · exact h.tight other hmem
    · rw [List.mem_singleton.mp hmem]
      exact htight

/-- What the limits of a request say about a result. -/
def ReaddirRes4.Within (args : ReaddirArgs4) (res : ReaddirRes4) : Prop :=
  res.encode.length ≤ args.maxcount.toNat ∧
    res.encode.length = readdirResokLen res.entries ∧
      (res.entries.length ≠ 1 → args.dircount ≠ 0 →
        readdirDirLen res.entries ≤ args.dircount.toNat)

theorem ReaddirReply.Within.result {args : ReaddirArgs4} {reply : ReaddirReply}
    (h : reply.Within args) (verifier : Verifier4) (eof : Bool) :
    ReaddirRes4.Within args ⟨verifier, reply.entries, eof⟩ := by
  have hlen := length_encode_readdir ⟨verifier, reply.entries, eof⟩ h.tight
  refine ⟨?_, hlen, fun hone hdircount => ?_⟩
  · rw [hlen, ← h.total]
    exact h.maxcount
  · by_cases hnil : reply.entries = []
    · simp [hnil, readdirDirLen]
    · have hpos := List.length_pos_iff.mpr hnil
      rw [← h.dir]
      refine h.dircount ?_ hdircount
      dsimp only at hone
      omega

section

variable {backend : Backend H} {ctx : RequestContext} {args : ReaddirArgs4} {minorversion : U32}
  {record : ServerObject → ServerFileAttr → EncodedFileAttr} {limits : FsLimits}
  {capabilities : FsCapabilities} (may : (c : Call H) → c.Ret → Prop)

theorem readdirLoop_within (items : List ReaddirItem) (reply : ReaddirReply)
    (h : reply.Within args) :
    (readdirLoop backend (fattrEncoder record limits capabilities) ctx args minorversion items
      reply).Ensures may fun r => ∀ entries, r = .ok entries →
        ∃ reply' : ReaddirReply, reply'.Within args ∧ reply'.entries = entries := by
  induction items generalizing reply with
  | nil =>
    rintro entries hr
    cases hr
    exact ⟨reply, h, rfl⟩
  | cons item items ih =>
    refine Program.Along.bind (Program.Ensures.trivial _) fun r _ => ?_
    cases r with
    | error e => exact ih reply h
    | ok attr =>
      refine Program.Along.bind (Program.Ensures.trivial _) fun r _ => ?_
      cases r with
      | error e => exact nofun
      | ok stats =>
        refine Program.Along.bind (Program.Ensures.trivial _) fun r _ => ?_
        cases r with
        | none => exact ih reply h
        | some fh =>
          dsimp only
          split
          · exact nofun
          · rintro entries hr
            cases hr
            exact ⟨reply, h, rfl⟩
          · rename_i reply' hpush
            exact ih reply' (h.push encodeFattr4_tight hpush)

theorem opReaddir_within {currentFh : Option Bytes} :
    (opReaddir backend (fattrEncoder record limits capabilities) ctx args currentFh
      minorversion).Ensures may fun r => ∀ res, r = .readdir .ok (some res) → res.Within args := by
  refine opReaddir_ensures (O := fun _ => True) (P := fun _ _ => True)
    ((Program.Ensures.trivial _).imp fun _ _ _ _ _ => trivial)
    (fun _ _ _ _ => (Program.Ensures.trivial _).imp fun _ _ _ _ _ => trivial)
    fun items eof verifier _ hroom => ?_
  have hempty : ReaddirReply.Within args ⟨[], 0, readdirResokLen []⟩ :=
    ⟨rfl, rfl, hroom, fun h => absurd h (by decide), fun _ h => absurd h List.not_mem_nil⟩
  refine (readdirLoop_within may items _ hempty).imp fun r hr entries h => ?_
  obtain ⟨reply, hwithin, rfl⟩ := hr entries h
  exact hwithin.result verifier _

end

variable [DecidableEq H]

/-- In every run, the result of a successful READDIR takes at most `maxcount` bytes, exactly as many
as `readdir_resok_len` computes, and its names and cookies at most `dircount`, if that is given and
there is not only one entry. -/
theorem readdir_size {cfg : ServerConfig H} {ctx : OpContext} {connectionId : U64}
    {args : ReaddirArgs4} {state state' : CompoundState}
    {record : ServerObject → ServerFileAttr → EncodedFileAttr} {limits : FsLimits}
    {capabilities : FsCapabilities}
    {c c' : Machine H (NfsResop4 × CompoundState)}
    {tr : Trace H} {t : Nat} {res : ReaddirRes4}
    (hencode : cfg.encodeFattr4 = fattrEncoder record limits capabilities)
    (hrun : (Server.system cfg.backend).Run c tr c')
    (hthread : c.threads[t]? = some (handleOp cfg ctx connectionId (.readdir args) state))
    (hdone : c'.threads[t]? = some (.ret (.readdir .ok (some res), state'))) :
    res.Within args := by
  have halong : (handleOp cfg ctx connectionId (.readdir args) state).Along (fun _ _ => True)
      (fun _ => True) fun r => ∀ res, r.1 = .readdir .ok (some res) → res.Within args := by
    refine Program.Along.bind ?_ fun _ h => h
    rw [hencode]
    exact opReaddir_within _
  obtain ⟨-, p, hp, hresult⟩ := hrun.along hthread (fun _ _ _ => trivial) halong
  rw [hdone] at hp
  cases hp
  exact hresult res rfl

namespace Scripted

/-- The scripted world's configuration with the encoder of the source. -/
def encodingConfig : ServerConfig Bool :=
  { listingConfig with
    encodeFattr4 := fattrEncoder (fun _ attr => { plainFile with toServerFileAttr := attr })
      plainContext.limits plainContext.capabilities }

/-- READDIR of the root with the sizes of the entries. -/
def listSizes : Request Bool (NfsResop4 × CompoundState) :=
  handleOp encodingConfig ⟨⟨.none⟩, none, none⟩ 1 (.readdir ⟨0, 0, 0, 512, ⟨[16]⟩⟩)
    { minorversion := 1, currentFh := some fh }

end Scripted

open Scripted

theorem readdir_size_listing :
    ReaddirRes4.Within ⟨0, 0, 0, 512, ⟨[16]⟩⟩ ⟨1, [⟨3, "a", ⟨⟨[16]⟩, be64 0⟩⟩], false⟩ := by
  have hresult : (listingRun [putRoot, listSizes]).2.threads[1]?.bind Program.result =
      some (.readdir .ok (some ⟨1, [⟨3, "a", ⟨⟨[16]⟩, be64 0⟩⟩], false⟩),
        { minorversion := 1, currentFh := some fh }) := by
    decide +kernel
  have hrun : (Server.system encodingConfig.backend).Run
      ⟨Server.new Bool .fixed, [putRoot, listSizes]⟩ (listingRun [putRoot, listSizes]).1
      (listingRun [putRoot, listSizes]).2 := listingRun_run _
  exact readdir_size rfl hrun (show [putRoot, listSizes][1]? = some listSizes from rfl)
    (of_bind_result hresult)

end EmbedNfs
