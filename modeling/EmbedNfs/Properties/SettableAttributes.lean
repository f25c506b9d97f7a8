import EmbedNfs.Properties.AttributeEncoding

/-!
# Settable attributes

`decode_setattr` gives back exactly the settings that a client encodes, for every subset of the
settable attributes, and refuses their bytes if they are cut short anywhere. That a cut is noticed
follows from two facts about a reader: it takes exactly the encoding off the front of its input,
and where it succeeds more input changes nothing.
-/

namespace EmbedNfs

/-! ## Readers on longer inputs -/

/-- Where the reader succeeds, it succeeds on every longer input and leaves what is added. -/
def Reader.Local {α : Type} (reader : Reader α) : Prop :=
  ∀ src a rest, reader src = some (a, rest) → ∀ more, reader (src ++ more) = some (a, rest ++ more)

theorem Reader.bind_some {α β : Type} {reader : Reader α} {next : α → Reader β} {src rest : Bytes}
    {b : β} (h : (reader >>= next) src = some (b, rest)) :
    ∃ a mid, reader src = some (a, mid) ∧ next a mid = some (b, rest) := by
  obtain ⟨read, hread, hnext⟩ := Option.bind_eq_some_iff.mp h
  exact ⟨read.1, read.2, hread, hnext⟩

theorem Reader.bind_eq {α β : Type} {reader : Reader α} {next : α → Reader β} {src mid : Bytes}
    {a : α} (h : reader src = some (a, mid)) : (reader >>= next) src = next a mid := by
  simp only [Bind.bind, StateT.bind, h, Option.bind_some]

namespace Reader.Local

variable {α β : Type}

theorem pure (a : α) : Reader.Local (Pure.pure a) := by
  intro src b rest h more
  cases h
  rfl

theorem failure : Reader.Local (Alternative.failure : Reader α) := by
  intro src b rest h
  cases h

theorem bind {reader : Reader α} {next : α → Reader β} (h : reader.Local)
    (hnext : ∀ a, (next a).Local) : (reader >>= next).Local := by
  intro src b rest hb more
  obtain ⟨a, mid, ha, hb⟩ := Reader.bind_some hb
  rw [Reader.bind_eq (h src a mid ha more)]
  exact hnext a mid b rest hb more

theorem map {reader : Reader α} (f : α → β) (h : reader.Local) : (f <$> reader).Local := by
  have hmap : f <$> reader = reader >>= fun a => Pure.pure (f a) := by
    funext src
    simp only [Functor.map, StateT.map, Bind.bind, StateT.bind]
    rfl
  rw [hmap]
  exact h.bind fun a => pure (f a)

theorem ite {p : Prop} [Decidable p] {reader reader' : Reader α} (h : reader.Local)
    (h' : reader'.Local) : (if p then reader else reader').Local := by
  split
  · exact h
  · exact h'

theorem eq_none {reader : Reader α} (h : reader.Local) {a : α} {bytes part : Bytes}
    (hreads : Reads reader a bytes) (hpart : part <+: bytes) (hne : part ≠ bytes) :
    reader part = none := by
  obtain ⟨more, rfl⟩ := hpart
  cases hread : reader part with
  | none => rfl
  | some read =>
    -- More input would leave what is missing, but nothing is left.
    have hlonger := h part read.1 read.2 hread more
    have hwhole := hreads []
    rw [List.append_nil, hlonger] at hwhole
    have hleft := congrArg Prod.snd (Option.some.inj hwhole)
    rw [(List.append_eq_nil_iff.mp hleft).2, List.append_nil] at hne
    exact absurd rfl hne

end Reader.Local

theorem readU32_local : readU32.Local := by
  intro src a rest h more
  match src, h with
  | _ :: _ :: _ :: _ :: _, h =>
    cases h
    rfl

theorem readU64_local : readU64.Local :=
  readU32_local.bind fun _ => readU32_local.bind fun _ => .pure _

theorem readBool_local : readBool.Local := by
  refine readU32_local.bind fun v => ?_
  split
  · exact .pure _
  · split
    · exact .pure _
    · exact .failure

theorem readTime_local : readTime.Local :=
  readU64_local.bind fun _ => readU32_local.bind fun _ => .pure _

/-- Data of a length and its padding, off the front. -/
def readPadded (len : Nat) : Reader Bytes := fun src =>
  if src.length < len + xdrPad len then none
  else some (src.take len, src.drop (len + xdrPad len))

theorem readOpaque_eq : readOpaque = readU32 >>= fun len => readPadded len.toNat := by
  unfold readOpaque
  congr 1
  funext len src
  simp only [bind, StateT.bind, get, getThe, MonadStateOf.get, StateT.get, Option.pure_def,
    Option.bind_some, readPadded]
  split
  · rfl
  · rfl

theorem readPadded_local (len : Nat) : (readPadded len).Local := by
  intro src a rest h more
  unfold readPadded at h ⊢
  split at h
  · cases h
  · rename_i hlen
    cases h
    rw [if_neg (by rw [List.length_append]; omega), List.take_append_of_le_length (by omega),
      List.drop_append_of_le_length (by omega)]

theorem readOpaque_local : readOpaque.Local := by
  rw [readOpaque_eq]
  exact readU32_local.bind fun len => readPadded_local len.toNat

theorem readString_local : readString.Local := by
  refine readOpaque_local.bind fun data => ?_
  split
  · exact .pure _
  · exact .failure

theorem readSetTime_local : readSetTime.Local := by
  refine readU32_local.bind fun how => ?_
  split
  · exact .pure _
  · split
    · exact readTime_local.bind fun _ => .pure _
    · exact .pure _

theorem readAttr_local {α : Type} (mask : Bitmap4) (bit : Nat) (old : Option α)
    {reader : Reader (Option α)} (h : reader.Local) : (readAttr mask bit old reader).Local :=
  .ite h (.pure old)

theorem readSetattr_local (mask : Bitmap4) : (readSetattr mask).Local := by
  unfold readSetattr
  refine (readAttr_local _ _ _ (readU64_local.map _)).bind fun size => ?_
  refine (readAttr_local _ _ _ (readBool_local.map _)).bind fun archive => ?_
  refine (readAttr_local _ _ _ (readBool_local.map _)).bind fun hidden => ?_
  refine (readAttr_local _ _ _ (readU32_local.map _)).bind fun mode => ?_
  refine (readAttr_local _ _ _ (readString_local.map _)).bind fun uid => ?_
  refine (readAttr_local _ _ _ (readString_local.map _)).bind fun gid => ?_
  refine (readAttr_local _ _ _ (readBool_local.map _)).bind fun system => ?_
  refine (readAttr_local _ _ _ readSetTime_local).bind fun atime => ?_
  refine (readAttr_local _ _ _ (readTime_local.map _)).bind fun backup => ?_
  refine (readAttr_local _ _ _ (readTime_local.map _)).bind fun birthtime => ?_
  exact (readAttr_local _ _ _ readSetTime_local).bind fun mtime => .pure _

/-! ## Settings -/

/-- The text of an owner: decimal digits, and a domain after an `@`. -/
def ownerText (digits : List Char) (domain : Option String) : String :=
  String.ofList digits ++ domain.elim "" ("@" ++ ·)

/-- An owner by number. The text has a length that its prefix can tell. -/
structure OwnerName where
  digits : List Char
  domain : Option String
  nonempty : digits ≠ []
  decimal : ∀ c ∈ digits, c.isDigit = true
  inRange : Nat.ofDigitChars 10 digits 0 < 2 ^ 32
  fits : (ownerText digits domain).utf8ByteSize < 2 ^ 32

namespace OwnerName

def text (owner : OwnerName) : String := ownerText owner.digits owner.domain

def number (owner : OwnerName) : U32 := BitVec.ofNat 32 (Nat.ofDigitChars 10 owner.digits 0)

theorem takeWhile_text (owner : OwnerName) :
    owner.text.toList.takeWhile (· ≠ '@') = owner.digits := by
  have hdigits : ∀ c ∈ owner.digits, decide (c ≠ '@') = true := by
    intro c hc
    rw [decide_eq_true_iff]
    rintro rfl
    exact absurd (owner.decimal _ hc) (by decide)
  rw [text, ownerText, String.toList_append, String.toList_ofList,
    List.takeWhile_append_of_pos hdigits]
  cases owner.domain with
  | none => simp
  | some domain => simp

theorem ownerNumber_text (owner : OwnerName) : ownerNumber owner.text = some owner.number := by
  have hsign : ∀ ds, owner.digits ≠ '+' :: ds := by
    intro ds h
    exact absurd (owner.decimal '+' (h ▸ List.mem_cons_self)) (by decide)
  have hchecks : ¬ (owner.digits.isEmpty = true ∨ (!owner.digits.all Char.isDigit) = true) := by
    rw [not_or]
    refine ⟨by simpa using owner.nonempty, ?_⟩
    simpa using owner.decimal
  rw [ownerNumber, takeWhile_text, parseU32, String.toList_ofList]
  split
  · rename_i ds hds
    exact absurd hds (hsign ds)
  · simp only [if_neg hchecks]
    exact if_pos owner.inRange

end OwnerName

/-- The settings that a client sends. -/
structure Settings where
  size : Option U64 := none
  archive : Option Bool := none
  hidden : Option Bool := none
  mode : Option U32 := none
  owner : Option OwnerName := none
  ownerGroup : Option OwnerName := none
  system : Option Bool := none
  timeAccess : Option SetTime := none
  timeBackup : Option Timestamp := none
  timeCreate : Option Timestamp := none
  timeModify : Option SetTime := none

def encodeTime (time : Timestamp) : Bytes := be64 time.seconds ++ be32 time.nanos

/-- A `settime4`. -/
def encodeSetTime : SetTime → Bytes
  | .serverNow => be32 0
  | .client time => be32 1 ++ encodeTime time

namespace Settings

/-- The attributes by ascending bit, each with its value if it is set. -/
def fields (s : Settings) : List (Nat × Option Bytes) :=
  [(fattr4Size, s.size.map be64),
    (fattr4Archive, s.archive.map encodeBool),
    (fattr4Hidden, s.hidden.map encodeBool),
    (fattr4Mode, s.mode.map be32),
    (fattr4Owner, s.owner.map fun owner => encodeString owner.text),
    (fattr4OwnerGroup, s.ownerGroup.map fun owner => encodeString owner.text),
    (fattr4System, s.system.map encodeBool),
    (fattr4TimeAccessSet, s.timeAccess.map encodeSetTime),
    (fattr4TimeBackup, s.timeBackup.map encodeTime),
    (fattr4TimeCreate, s.timeCreate.map encodeTime),
    (fattr4TimeModifySet, s.timeModify.map encodeSetTime)]

theorem fields_sorted (s : Settings) : (s.fields.map Prod.fst).Pairwise (· < ·) := by
  simp only [fields, List.map_cons, List.map_nil]
  decide

def has (s : Settings) (bit : Nat) : Bool :=
  s.fields.any fun field => field.1 == bit && field.2.isSome

/-- The values of the attributes that are set, in ascending bit order. -/
def encode (s : Settings) : Bytes := s.fields.flatMap fun field => field.2.getD []

/-- What the settings ask for: the permission bits of the mode, and a birth time from the create
time, or else from the backup time. -/
def attrs (s : Settings) : SetAttrs where
  size := s.size
  archive := s.archive
  hidden := s.hidden
  mode := s.mode.map (· &&& modePermMask)
  uid := s.owner.map OwnerName.number
  gid := s.ownerGroup.map OwnerName.number
  system := s.system
  atime := s.timeAccess
  mtime := s.timeModify
  birthtime := (s.timeCreate.or s.timeBackup).map .client

end Settings

theorem reads_setTime (time : SetTime) : Reads readSetTime (some time) (encodeSetTime time) := by
  cases time with
  | serverNow => exact (reads_be32 0).bind (Reads.pure (some SetTime.serverNow))
  | client time =>
    exact (reads_be32 1).bind ((reads_time time).bindPure fun time => some (SetTime.client time))

theorem reads_owner (owner : OwnerName) :
    Reads (ownerNumber <$> readString) (some owner.number) (encodeString owner.text) := by
  rw [← owner.ownerNumber_text]
  exact (reads_encodeString owner.fits).map ownerNumber

theorem reads_attr {α β : Type} {mask : Bitmap4} {bit : Nat} {old : Option α}
    {reader : Reader (Option α)} {field : Option β} {encode : β → Bytes} (result : Option α)
    (hbit : mask.isSet bit = field.isSome) (hnone : field = none → result = old)
    (hsome : ∀ b, field = some b → Reads reader result (encode b)) :
    Reads (readAttr mask bit old reader) result ((field.map encode).getD []) := by
  unfold readAttr
  cases field with
  | none =>
    rw [if_neg (by simp [hbit]), hnone rfl]
    exact Reads.pure old
  | some b =>
    rw [if_pos (by simp [hbit])]
    exact hsome b rfl

theorem reads_settings {mask : Bitmap4} {s : Settings} (hmask : ∀ bit, mask.isSet bit = s.has bit) :
    Reads (readSetattr mask) s.attrs s.encode := by
  have hbits : mask.isSet fattr4Size = s.size.isSome ∧
      mask.isSet fattr4Archive = s.archive.isSome ∧ mask.isSet fattr4Hidden = s.hidden.isSome ∧
      mask.isSet fattr4Mode = s.mode.isSome ∧ mask.isSet fattr4Owner = s.owner.isSome ∧
      mask.isSet fattr4OwnerGroup = s.ownerGroup.isSome ∧
      mask.isSet fattr4System = s.system.isSome ∧
      mask.isSet fattr4TimeAccessSet = s.timeAccess.isSome ∧
      mask.isSet fattr4TimeBackup = s.timeBackup.isSome ∧
      mask.isSet fattr4TimeCreate = s.timeCreate.isSome ∧
      mask.isSet fattr4TimeModifySet = s.timeModify.isSome := by
    simp [hmask, Settings.has, Settings.fields, fattr4Size, fattr4Archive, fattr4Hidden,
      fattr4Mode, fattr4Owner, fattr4OwnerGroup, fattr4System, fattr4TimeAccessSet,
      fattr4TimeBackup, fattr4TimeCreate, fattr4TimeModifySet]
  obtain ⟨hsize, harchive, hhidden, hmode, howner, hgroup, hsystem, haccess, hbackup, hcreate,
    hmodify⟩ := hbits
  have hbool : ∀ {field : Option Bool} (b : Bool), field = some b →
      Reads (some <$> readBool) field (encodeBool b) :=
    fun b h => h ▸ (reads_encodeBool b).map some
  have hname : ∀ {field : Option OwnerName} (owner : OwnerName), field = some owner →
      Reads (ownerNumber <$> readString) (field.map OwnerName.number) (encodeString owner.text) :=
    fun owner h => h ▸ reads_owner owner
  have htime : ∀ {field : Option SetTime} (time : SetTime), field = some time →
      Reads readSetTime field (encodeSetTime time) :=
    fun time h => h ▸ reads_setTime time
  have hunset : ∀ {α β : Type} {f : α → β} {field : Option α}, field = none →
      field.map f = none := fun h => h ▸ rfl
  unfold readSetattr
  simp only [Settings.encode, Settings.fields, List.flatMap_cons, List.flatMap_nil]
  refine (reads_attr _ hsize id fun b h => h ▸ (reads_be64 b).map some).bind ?_
  refine (reads_attr _ harchive id hbool).bind ?_
  refine (reads_attr _ hhidden id hbool).bind ?_
  refine (reads_attr s.attrs.mode hmode hunset fun b h => ?_).bind ?_
  · rw [Settings.attrs, h]
    exact (reads_be32 b).map fun mode => some (mode &&& modePermMask)
  refine (reads_attr _ howner hunset hname).bind ?_
  refine (reads_attr _ hgroup hunset hname).bind ?_
  refine (reads_attr _ hsystem id hbool).bind ?_
  refine (reads_attr _ haccess id htime).bind ?_
  refine (reads_attr (s.timeBackup.map SetTime.client) hbackup hunset fun b h => ?_).bind ?_
  · rw [h]
    exact (reads_time b).map fun time => some (SetTime.client time)
  -- The create time replaces the backup time.
  refine (reads_attr s.attrs.birthtime hcreate (fun h => ?_) fun b h => ?_).bind ?_
  · rw [Settings.attrs, h, Option.none_or]
  · rw [Settings.attrs, h, Option.some_or]
    exact (reads_time b).map fun time => some (SetTime.client time)
  exact (reads_attr _ hmodify id htime).bind (Reads.pure s.attrs)

/-- **Settable attributes decode faithfully.** From a mask with exactly the bits of the settings,
and their values in ascending bit order, `decode_setattr` makes the settings; if the values are
cut short it refuses them. -/
theorem settings_decode {mask : Bitmap4} {s : Settings}
    (hmask : ∀ bit, mask.isSet bit = s.has bit) :
    decodeSetattr ⟨mask, s.encode⟩ = .ok s.attrs ∧
      ∀ part, part <+: s.encode → part ≠ s.encode →
        decodeSetattr ⟨mask, part⟩ = .error .badXdr := by
  have hreads := reads_settings hmask
  refine ⟨?_, fun part hpart hne => ?_⟩
  · have hwhole := hreads []
    rw [List.append_nil] at hwhole
    simp only [decodeSetattr, hwhole]
  · simp only [decodeSetattr, (readSetattr_local mask).eq_none hreads hpart hne]

/-- The owner `501@localhost`. -/
def localOwner : OwnerName where
  digits := ['5', '0', '1']
  domain := some "localhost"
  nonempty := by decide
  decimal := List.all_eq_true.mp rfl
  inRange := by decide
  fits := by decide +kernel

theorem isSet_eq_has {mask : Bitmap4} {s : Settings} (hwords : mask.words.length ≤ 2)
    (h : ∀ bit < 64, mask.isSet bit = s.has bit) (bit : Nat) : mask.isSet bit = s.has bit := by
  by_cases hlt : bit < 64
  · exact h bit hlt
  · have hset : mask.isSet bit = false := by
      rw [Bitmap4.isSet, List.getElem?_eq_none (by omega)]
      rfl
    have hhas : s.has bit = false := by
      rw [Settings.has, List.any_eq_false]
      intro field hfield
      have hsmall : ∀ n ∈ s.fields.map Prod.fst, n < 64 := by
        simp only [Settings.fields, List.map_cons, List.map_nil]
        decide
      have := hsmall field.1 (List.mem_map_of_mem hfield)
      simp [show field.1 ≠ bit by omega]
    rw [hset, hhas]

/-- A size, an owner and a modification time of the server. -/
def someSettings : Settings where
  size := some 7
  owner := some localOwner
  timeModify := some .serverNow

theorem settings_decode_owner :
    decodeSetattr ⟨⟨[16, 0x400010]⟩, be64 7 ++ encodeString "501@localhost" ++ be32 0⟩ =
        .ok { size := some 7, uid := some 501, mtime := some .serverNow } ∧
      decodeSetattr ⟨⟨[16, 0x400010]⟩, be64 7 ++ encodeString "501@localhost"⟩ =
        .error .badXdr := by
  have hmask : ∀ bit, (⟨[16, 0x400010]⟩ : Bitmap4).isSet bit =
      someSettings.has bit :=
    isSet_eq_has (by decide) (by decide +kernel)
  obtain ⟨hdecode, hpart⟩ := settings_decode hmask
  have hencode : someSettings.encode = be64 7 ++ encodeString "501@localhost" ++ be32 0 := by
    decide +kernel
  rw [hencode] at hdecode hpart
  refine ⟨hdecode.trans (by decide +kernel), hpart _ (List.prefix_append _ _) ?_⟩
  decide +kernel

end EmbedNfs
