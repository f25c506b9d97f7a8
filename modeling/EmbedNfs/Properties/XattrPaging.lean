import EmbedNfs.Server.Ops.Xattrs

/-!
# Listing extended attributes page by page

A page of LISTXATTRS starts where its cookie says, takes as many names as fit and says where the
next one starts. A client that follows the cookies therefore walks through the list: every page
but one at the end of the list takes at least one name.
-/

namespace EmbedNfs

/-- What the encoding of some names takes within a page. -/
def namesLen (names : List String) : Nat :=
  (names.map fun name => xdrOpaqueLen name.utf8ByteSize).sum

theorem ListxattrsResOk4.length_encode (res : ListxattrsResOk4) :
    res.encode.length = 16 + namesLen res.names := by
  simp only [ListxattrsResOk4.encode, List.length_append, length_be64, length_encodeList,
    length_encodeString, length_encodeBool, namesLen]
  omega

theorem pageEnd_ok {maxcount start : Nat} (names : List String) {used stop stop' : Nat}
    (hstart : start ≤ stop) (h : pageEnd maxcount start names used stop = .ok stop') :
    ∃ k ≤ names.length, stop' = stop + k ∧ (k ≠ 0 → used + namesLen (names.take k) ≤ maxcount) ∧
      (stop' = start → names = []) := by
  induction names generalizing used stop with
  | nil =>
    cases h
    exact ⟨0, Nat.le_refl 0, rfl, fun h => absurd rfl h, fun _ => rfl⟩
  | cons name names ih =>
    simp only [pageEnd] at h
    split at h
    · split at h
      · cases h
      · rename_i hfull hstop
        cases h
        exact ⟨0, Nat.zero_le _, rfl, fun h => absurd rfl h, fun h => absurd h hstop⟩
    · rename_i hfits
      obtain ⟨k, hk, hstop', hused, -⟩ := ih (by omega) h
      refine ⟨k + 1, Nat.succ_le_succ hk, by omega, fun _ => ?_, fun h => by omega⟩
      simp only [List.take_succ_cons, namesLen, List.map_cons, List.sum_cons]
      by_cases hk0 : k = 0
      · subst hk0
        simp only [List.take_zero, List.map_nil, List.sum_nil]
        omega
      · have hrest := hused hk0
        simp only [namesLen] at hrest
        omega

theorem listxattrsPage_ok {names : Slice String} {cookie : U64} {maxcount : U32}
    {page : ListxattrsResOk4} (h : listxattrsPage names cookie maxcount = .ok page) :
    cookie.toNat ≤ names.val.length ∧
      names.val.drop cookie.toNat = page.names ++ names.val.drop page.cookie.toNat ∧
      page.cookie.toNat = cookie.toNat + page.names.length ∧
      page.cookie.toNat ≤ names.val.length ∧
      (page.eof = true ↔ page.cookie.toNat = names.val.length) ∧
      (page.names = [] → page.eof = true) ∧
      (page.names ≠ [] → page.encode.length ≤ maxcount.toNat) := by
  simp only [listxattrsPage] at h
  split at h
  · cases h
  rename_i hle
  cases hend : pageEnd maxcount.toNat cookie.toNat (names.val.drop cookie.toNat) (8 + 4 + 4)
      cookie.toNat with
  | error e =>
    rw [hend] at h
    cases h
  | ok stop =>
    rw [hend] at h
    cases h
    obtain ⟨k, hk, rfl, hused, hempty⟩ := pageEnd_ok _ (Nat.le_refl _) hend
    rw [List.length_drop] at hk
    have hcookie : (BitVec.ofNat 64 (cookie.toNat + k)).toNat = cookie.toNat + k := by
      rw [BitVec.toNat_ofNat, Nat.mod_eq_of_lt]
      have := names.property
      omega
    have hnames : (names.val.take (cookie.toNat + k)).drop cookie.toNat =
        (names.val.drop cookie.toNat).take k := by
      rw [List.drop_take, Nat.add_sub_cancel_left]
    have hlength : ((names.val.drop cookie.toNat).take k).length = k := by
      rw [List.length_take, List.length_drop]
      omega
    simp only [hcookie, hnames, hlength, decide_eq_true_eq, true_and]
    refine ⟨by omega, ?_, by omega, fun hnil => ?_, fun hne => ?_⟩
    · rw [← List.drop_drop, List.take_append_drop]
    · -- no name was taken, so none was left
      have hk0 : k = 0 := by rw [← hlength, hnil, List.length_nil]
      have hdone := List.drop_eq_nil_iff.mp (hempty (by omega))
      omega
    · rw [ListxattrsResOk4.length_encode]
      refine hused fun hk0 => hne ?_
      rw [hk0, List.take_zero]

/-! ## Following the cookies -/

section

variable {names : Slice String}

theorem listxattrsFrom_cons {cookie : U64} {maxcount : U32} {maxcounts : List U32}
    {pages : List ListxattrsResOk4}
    (h : listxattrsFrom names cookie (maxcount :: maxcounts) = .ok pages) :
    ∃ page, listxattrsPage names cookie maxcount = .ok page ∧
      (page.eof = true ∧ pages = [page] ∨
        page.eof = false ∧ ∃ rest, pages = page :: rest ∧
          listxattrsFrom names page.cookie maxcounts = .ok rest) := by
  simp only [listxattrsFrom] at h
  cases hpage : listxattrsPage names cookie maxcount with
  | error e =>
    rw [hpage] at h
    cases h
  | ok page =>
    rw [hpage] at h
    refine ⟨page, rfl, ?_⟩
    cases heof : page.eof with
    | true =>
      simp only [bind, Except.bind, heof, if_true] at h
      cases h
      exact .inl ⟨rfl, rfl⟩
    | false =>
      simp only [bind, Except.bind, heof, Bool.false_eq_true, if_false] at h
      cases hrest : listxattrsFrom names page.cookie maxcounts with
      | error e =>
        rw [hrest] at h
        cases h
      | ok rest =>
        rw [hrest] at h
        cases h
        exact .inr ⟨rfl, rest, rfl, rfl⟩

theorem listxattrsFrom_increasing (maxcounts : List U32) {cookie : U64}
    {pages : List ListxattrsResOk4} (h : listxattrsFrom names cookie maxcounts = .ok pages)
    (hcookie : cookie.toNat < names.val.length) :
    (cookie :: pages.map ListxattrsResOk4.cookie).IsChain (· < ·) := by
  induction maxcounts generalizing cookie pages with
  | nil =>
    cases h
    exact .singleton _
  | cons maxcount maxcounts ih =>
    obtain ⟨page, hpage, hnext⟩ := listxattrsFrom_cons h
    obtain ⟨-, -, hlength, hle, heof, hempty, -⟩ := listxattrsPage_ok hpage
    have hlt : cookie < page.cookie := by
      rw [BitVec.lt_def]
      by_cases hnil : page.names = []
      · have := heof.mp (hempty hnil)
        omega
      · have := List.length_pos_iff.mpr hnil
        omega
    rcases hnext with ⟨-, rfl⟩ | ⟨hmore, rest, rfl, hrest⟩
    · exact .cons_cons hlt (.singleton _)
    · have hlast : page.cookie.toNat ≠ names.val.length := fun hend => by
        rw [heof.mpr hend] at hmore
        cases hmore
      exact .cons_cons hlt (ih hrest (by omega))

theorem listxattrsFrom_eof (maxcounts : List U32) {cookie : U64} {pages : List ListxattrsResOk4}
    (h : listxattrsFrom names cookie maxcounts = .ok pages) {k : Nat} {page : ListxattrsResOk4}
    (hk : pages[k]? = some page) :
    page.eof = true ↔
      (pages.take (k + 1)).flatMap ListxattrsResOk4.names = names.val.drop cookie.toNat := by
  induction maxcounts generalizing cookie pages k with
  | nil =>
    cases h
    cases hk
  | cons maxcount maxcounts ih =>
    obtain ⟨first, hfirst, hnext⟩ := listxattrsFrom_cons h
    obtain ⟨-, hdrop, -, hle, heof, -, -⟩ := listxattrsPage_ok hfirst
    -- what is left after the first page decides whether it was the last one
    have hhead : first.eof = true ↔ first.names = names.val.drop cookie.toNat := by
      rw [hdrop, heof, List.self_eq_append_right, List.drop_eq_nil_iff]
      omega
    cases k with
    | zero =>
      have hpage : first = page := by
        rcases hnext with ⟨-, rfl⟩ | ⟨-, rest, rfl, -⟩ <;> simpa using hk
      rcases hnext with ⟨-, rfl⟩ | ⟨-, rest, rfl, -⟩ <;>
        simpa [hpage, List.take_succ_cons] using hpage ▸ hhead
    | succ k =>
      rcases hnext with ⟨-, rfl⟩ | ⟨-, rest, rfl, hrest⟩
      · cases hk
      · rw [List.getElem?_cons_succ] at hk
        rw [ih hrest hk, List.take_succ_cons, List.flatMap_cons, hdrop,
          List.append_cancel_left_eq]

theorem listxattrsFrom_last (maxcounts : List U32) {cookie : U64} {pages : List ListxattrsResOk4}
    (h : listxattrsFrom names cookie maxcounts = .ok pages) {k : Nat} {page : ListxattrsResOk4}
    (hk : pages[k]? = some page) (heof : page.eof = true) : k + 1 = pages.length := by
  induction maxcounts generalizing cookie pages k with
  | nil =>
    cases h
    cases hk
  | cons maxcount maxcounts ih =>
    obtain ⟨first, -, ⟨-, rfl⟩ | ⟨hmore, rest, rfl, hrest⟩⟩ := listxattrsFrom_cons h
    · obtain ⟨hlt, -⟩ := List.getElem?_eq_some_iff.mp hk
      simp only [List.length_singleton] at hlt ⊢
      omega
    · cases k with
      | zero =>
        rw [List.getElem?_cons_zero, Option.some_inj] at hk
        rw [hk, heof] at hmore
        cases hmore
      | succ k =>
        rw [List.getElem?_cons_succ] at hk
        rw [ih hrest hk, List.length_cons]

theorem listxattrsFrom_fits (maxcounts : List U32) {cookie : U64} {pages : List ListxattrsResOk4}
    (h : listxattrsFrom names cookie maxcounts = .ok pages) {k : Nat} {page : ListxattrsResOk4}
    {maxcount : U32} (hk : pages[k]? = some page) (hmax : maxcounts[k]? = some maxcount)
    (hne : page.names ≠ []) : page.encode.length ≤ maxcount.toNat := by
  induction maxcounts generalizing cookie pages k with
  | nil => cases hmax
  | cons maxcount' maxcounts ih =>
    obtain ⟨first, hfirst, hnext⟩ := listxattrsFrom_cons h
    obtain ⟨-, -, -, -, -, -, hfits⟩ := listxattrsPage_ok hfirst
    cases k with
    | zero =>
      have hpage : first = page := by
        rcases hnext with ⟨-, rfl⟩ | ⟨-, rest, rfl, -⟩ <;> simpa using hk
      rw [List.getElem?_cons_zero, Option.some_inj] at hmax
      subst hpage hmax
      exact hfits hne
    | succ k =>
      rw [List.getElem?_cons_succ] at hmax
      rcases hnext with ⟨-, rfl⟩ | ⟨-, rest, rfl, hrest⟩
      · cases hk
      · rw [List.getElem?_cons_succ] at hk
        exact ih hrest hk hmax

theorem listxattrsFrom_ends (maxcounts : List U32) {cookie : U64} {pages : List ListxattrsResOk4}
    (h : listxattrsFrom names cookie maxcounts = .ok pages)
    (hcookie : cookie.toNat ≤ names.val.length)
    (hcalls : names.val.length < cookie.toNat + maxcounts.length) :
    ∃ page ∈ pages, page.eof = true := by
  induction maxcounts generalizing cookie pages with
  | nil =>
    rw [List.length_nil] at hcalls
    omega
  | cons maxcount maxcounts ih =>
    obtain ⟨page, hpage, ⟨heof, rfl⟩ | ⟨hmore, rest, rfl, hrest⟩⟩ := listxattrsFrom_cons h
    · exact ⟨page, List.mem_singleton.mpr rfl, heof⟩
    · obtain ⟨-, -, hlength, hle, -, hempty, -⟩ := listxattrsPage_ok hpage
      have hpos : 0 < page.names.length := List.length_pos_iff.mpr fun hnil => by
        rw [hempty hnil] at hmore
        cases hmore
      rw [List.length_cons] at hcalls
      obtain ⟨last, hmem, heof⟩ := ih hrest hle (by omega)
      exact ⟨last, List.mem_cons_of_mem page hmem, heof⟩

end

/-- A client that lists the attributes from the start, whatever limits it gives, gets cookies that
grow until the end, pages that make up the list, and the end reported on the page that ends it;
a page with names fits its limit. -/
theorem listxattrs_paging (names : Slice String) (maxcounts : List U32)
    (pages : List ListxattrsResOk4) (h : listxattrsFrom names 0 maxcounts = .ok pages) :
    (names.val ≠ [] → (0 :: pages.map ListxattrsResOk4.cookie).IsChain (· < ·)) ∧
    (∀ k page, pages[k]? = some page → (page.eof = true ↔
      (pages.take (k + 1)).flatMap ListxattrsResOk4.names = names.val)) ∧
    ((∃ page ∈ pages, page.eof = true) →
      pages.flatMap ListxattrsResOk4.names = names.val) ∧
    (names.val.length < maxcounts.length → ∃ page ∈ pages, page.eof = true) ∧
    (∀ (k : Nat) (page : ListxattrsResOk4) (maxcount : U32), pages[k]? = some page →
      maxcounts[k]? = some maxcount → page.names ≠ [] →
        page.encode.length ≤ maxcount.toNat) := by
  refine ⟨fun hne => ?_, fun k page hk => ?_, ?_, fun hcalls => ?_, ?_⟩
  · exact listxattrsFrom_increasing maxcounts h (List.length_pos_iff.mpr hne)
  · exact listxattrsFrom_eof maxcounts h hk
  · rintro ⟨page, hmem, heof⟩
    obtain ⟨k, hk⟩ := List.mem_iff_getElem?.mp hmem
    have hall := (listxattrsFrom_eof maxcounts h hk).mp heof
    rwa [listxattrsFrom_last maxcounts h hk heof, List.take_length] at hall
  · exact listxattrsFrom_ends maxcounts h (Nat.zero_le _) (by
      simpa using hcalls)
  · intro k page maxcount hk hmax hne
    exact listxattrsFrom_fits maxcounts h hk hmax hne

theorem listxattrs_paging_two :
    listxattrsFrom ⟨["a", "b"], by decide⟩ 0 [24, 24] =
        .ok [⟨1, ["a"], false⟩, ⟨2, ["b"], true⟩] ∧
      ([⟨1, ["a"], false⟩, ⟨2, ["b"], true⟩] : List ListxattrsResOk4).flatMap
        ListxattrsResOk4.names = ["a", "b"] :=
  have h : listxattrsFrom ⟨["a", "b"], by decide⟩ 0 [24, 24] =
      .ok [⟨1, ["a"], false⟩, ⟨2, ["b"], true⟩] := by decide +kernel
  ⟨h, (listxattrs_paging _ _ _ h).2.2.1 ⟨⟨2, ["b"], true⟩, by decide, rfl⟩⟩

end EmbedNfs
