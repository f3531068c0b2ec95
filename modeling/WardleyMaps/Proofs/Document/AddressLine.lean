/-
Module: WardleyMaps.Proofs.Document.AddressLine
Purpose: An address in front of a source is read as it is written, unless it opens a comment.
Main exports: AddressName, AddressText, addressLine, Document.withAddress, readAddress_addressLine,
  ofLines_addressLine, read_addressLine
-/
import WardleyMaps.Proofs.Comment.OnePass
import WardleyMaps.Proofs.Document.Append
import WardleyMaps.Proofs.Document.LongNumber
import WardleyMaps.Proofs.Statement.Placed
import WardleyMaps.Proofs.Text.Mark

namespace WardleyMaps

open Text

/-!
On the line of an address slashes open no comment, but a slash and a star open one, and what follows
them is not read. Without these the line is kept whole (`bareLines_addressLine`), belongs to no pass
but the one over addresses (`ofLines_addressLine`) and leaves no body open. So the document is that
of the source below, one line further down, with one address more (`read_addressLine`). With them at
least two characters are lost, and what is left is too short for the name and the address.
-/

/-- Names in front of an address. -/
structure AddressName (t : Text) : Prop where
  trimmed : Trimmed t
  ne_nil : t ≠ []
  line : '\n' ∉ t
  bracket : '[' ∉ t
  free : ¬ ['/', '*'] <:+: t

/-- Addresses that can stand in brackets on a line. -/
structure AddressText (t : Text) : Prop where
  trimmed : Trimmed t
  ne_nil : t ≠ []
  line : '\n' ∉ t
  bracket : ']' ∉ t

/-- The statement of an address. -/
def addressLine (name address : Text) : Text :=
  "url".toList ++ ' ' :: (name ++ ' ' :: '[' :: (address ++ [']']))

/-- The document with an address in front of the others. -/
def Document.withAddress (a : Address) (d : Document) : Document :=
  { d with addresses := a :: d.addresses }

/-- The findings with an address in front of the others. -/
def Findings.withAddress (a : Address) (f : Findings) : Findings :=
  { f with addresses := { f.addresses with items := a :: f.addresses.items } }

/-! ### Comments on the line -/

/-- Where slashes open no comment, a line is kept if no block opens on it. -/
theorem keepOutside_of_unopened {t : Text} (h : ¬ ['/', '*'] <:+: t) :
    keepOutside true false t = (t, false) := by
  have hcut : cut "/*".toList t = none := cut_eq_none_iff.2 h
  rw [keepOutside]
  split
  · rfl
  · next before rest hfound =>
    rw [hcut] at hfound
    cases hfound

theorem length_keepOutside_le (address inBlock : Bool) (t : Text) :
    (keepOutside address inBlock t).1.length ≤ t.length := by
  rw [keepOutside_eq_scan]
  exact (scan_sublist address _ t).length_le

/-- The opening of a block is lost, whatever becomes of what follows. -/
theorem length_keepOutside_of_opened {t : Text} (h : ['/', '*'] <:+: t) :
    (keepOutside true false t).1.length + 2 ≤ t.length := by
  rw [keepOutside]
  split
  · next hfound => exact absurd h (cut_eq_none_iff.1 hfound)
  · next before rest hfound =>
    have hlater := length_keepOutside_le true true rest
    have hparts : t.length = before.length + (rest.length + 2) := by
      rw [cut_eq_some hfound]
      simp
    simp only [if_true, List.length_append]
    omega

/-! ### Reading an address -/

theorem readAddress_eq_ok {number : Nat} {line : Text} {a : Address} :
    readAddress number line = .ok a ↔
      ∃ b, requireBracket "url" "[address]" (afterKeyword "url".toList line) = .ok b ∧
        trim b.before ≠ [] ∧ trim b.inside ≠ [] ∧
        a = { line := number, name := trim b.before, address := trim b.inside } := by
  simp only [readAddress, bind_eq_ok, requireText_eq_ok]
  constructor
  · rintro ⟨b, hb, name, ⟨hname, rfl⟩, h⟩
    split at h
    · cases h
    · next haddress => exact ⟨b, hb, hname, by simpa using haddress, (Except.ok.inj h).symm⟩
  · rintro ⟨b, hb, hname, haddress, rfl⟩
    exact ⟨b, hb, _, ⟨hname, rfl⟩, if_neg (by simpa using haddress)⟩

/-- A line is long enough for the address that is read from it: the keyword and a blank, the name,
and the address between brackets. -/
theorem length_of_readAddress {number : Nat} {line : Text} {a : Address}
    (hkeyword : startsWithKeyword "url".toList line = true)
    (h : readAddress number line = .ok a) :
    a.name.length + a.address.length + 6 ≤ line.length := by
  obtain ⟨b, hb, -, -, rfl⟩ := readAddress_eq_ok.1 h
  obtain ⟨hrest, -, -⟩ := requireBracket_eq_ok.1 hb
  obtain ⟨gap, -, hline, hgap⟩ := exists_gap_of_startsWithKeyword hkeyword
  have hwritten : afterKeyword "url".toList line ≠ [] := by
    rw [hrest]
    simp
  have hblank : 0 < gap.length := List.length_pos_iff.2 (mt hgap.1 hwritten)
  have hwhole := congrArg List.length hline
  rw [hrest] at hwhole
  simp at hwhole
  have htrim := (infix_trim line).length_le
  have hname := (infix_trim b.before).length_le
  have haddress := (infix_trim b.inside).length_le
  simp only
  omega

/-! ### Passes over a line of another kind -/

section

variable {α κ : Type} {k line : Text} (hk : Token k) (hline : startsWithKeyword k line = true)
include hk hline

/-- A pass over kinds gathers nothing from a line with the keyword of none of them. -/
theorem collectKinds_singleton_of_ne {kinds : List κ} {keyword : κ → String}
    (hkinds : ∀ kind ∈ kinds, Token (keyword kind).toList ∧ k ≠ (keyword kind).toList)
    (build : κ → Nat → Text → Except Cause α) (n : Nat) :
    collect (kindOf kinds keyword) build [(line, n)] = collect (kindOf kinds keyword) build [] := by
  have hnone : kindOf kinds keyword line = none :=
    kindOf_eq_none_of_ne hk (fun kind hkind => (hkinds kind hkind).1)
      (fun kind hkind => (hkinds kind hkind).2) hline
  simp [collect, hnone]

theorem collectKeyword_singleton_of_ne {keyword : String} (hkeyword : Token keyword.toList)
    (hne : k ≠ keyword.toList) (build : Nat → Text → Except Cause α) (n : Nat) :
    collectKeyword keyword build [(line, n)] = collectKeyword keyword build [] :=
  collectKinds_singleton_of_ne hk hline (by simp [hkeyword, hne]) _ n

end

/-! ### The line -/

section

variable {name address : Text} (hname : AddressName name)
include hname

theorem trimmed_addressLine_rest : Trimmed (name ++ ' ' :: '[' :: (address ++ [']'])) := by
  constructor
  · intro c hc
    apply hname.trimmed.head c
    rwa [List.head?_append_of_ne_nil _ hname.ne_nil] at hc
  · intro c hc
    have hlast : (name ++ ' ' :: '[' :: (address ++ [']'])).getLast? = some ']' := by
      simp [List.getLast?_append, List.getLast?_cons]
    obtain rfl : ']' = c := Option.some.inj (hlast.symm.trans hc)
    decide

theorem keyword_addressLine :
    startsWithKeyword "url".toList (addressLine name address) = true ∧
      afterKeyword "url".toList (addressLine name address) =
        name ++ ' ' :: '[' :: (address ++ [']']) := by
  have hrest : Trimmed (name ++ ' ' :: '[' :: (address ++ [']'])) :=
    trimmed_addressLine_rest hname
  exact keyword_of_line (by decide) hrest (by simp)

theorem trimmed_addressLine : Trimmed (addressLine name address) := by
  have hrest : Trimmed (name ++ ' ' :: '[' :: (address ++ [']'])) :=
    trimmed_addressLine_rest hname
  constructor
  · intro c hc
    obtain rfl : 'u' = c := Option.some.inj hc
    decide
  · intro c hc
    apply hrest.last c
    rw [addressLine, List.getLast?_append_of_ne_nil _ (by simp)] at hc
    rwa [List.getLast?_cons_of_ne_nil (by simp)] at hc

theorem trim_addressLine : trim (addressLine name address) = addressLine name address :=
  trim_eq_self (trimmed_addressLine hname)

theorem isAddressLine_addressLine : isAddressLine (addressLine name address) = true := by
  rw [isAddressLine, trim_addressLine hname]
  rfl

/-- A block opens on the line just when one opens in the address. -/
theorem opened_addressLine_iff :
    ['/', '*'] <:+: addressLine name address ↔ ['/', '*'] <:+: address := by
  have hfree := hname.free
  simp [addressLine, pair_infix_cons, pair_infix_append, hfree]

variable (haddress : AddressText address)
include haddress

theorem newline_not_mem_addressLine : '\n' ∉ addressLine name address := by
  simp [addressLine, hname.line, haddress.line]

/-- The name and the address are read as they are written. -/
theorem readAddress_addressLine (number : Nat) :
    readAddress number (addressLine name address) = .ok { line := number, name, address } := by
  have hbefore : trim (name ++ [' ']) = name := by
    rw [trim_append_of_blank (by decide), trim_eq_self hname.trimmed]
  have hinside : trim address = address := trim_eq_self haddress.trimmed
  have hopen : '[' ∉ name ++ [' '] := by
    simp [hname.bracket]
  have hbracket : requireBracket "url" "[address]" (name ++ ' ' :: '[' :: (address ++ [']'])) =
      .ok { before := name ++ [' '], inside := address, after := [] } :=
    requireBracket_eq_ok.2 ⟨by simp, hopen, haddress.bracket⟩
  apply readAddress_eq_ok.2
  refine ⟨_, (keyword_addressLine hname).2.symm ▸ hbracket, ?_, ?_, ?_⟩
  · rw [hbefore]
    exact hname.ne_nil
  · rw [hinside]
    exact haddress.ne_nil
  · rw [hbefore, hinside]

/-- What is left of a line below which nothing of it goes on. -/
theorem bareLines_addressLine (hfree : ¬ ['/', '*'] <:+: address) (source : Text) :
    bareLines (addressLine name address ++ '\n' :: source) =
      addressLine name address :: bareLines source := by
  have hlines : lines (addressLine name address) = [addressLine name address] :=
    List.splitOn_eq_singleton (newline_not_mem_addressLine hname haddress)
  have hkept : keepOutside (isAddressLine (addressLine name address)) false
      (addressLine name address) = (addressLine name address, false) := by
    rw [isAddressLine_addressLine hname]
    exact keepOutside_of_unopened (mt (opened_addressLine_iff hname).1 hfree)
  have hblock : blockAfter false (lines (addressLine name address)) = false := by
    rw [hlines, blockAfter, hkept]
    rfl
  have hbare : bareLines (addressLine name address) = [addressLine name address] := by
    have hends : trimEnd (addressLine name address) = addressLine name address :=
      trimEnd_eq_self (trimmed_addressLine hname).last
    rw [bareLines, hlines]
    simp only [stripLines, hkept, hends]
  rw [bareLines_append hblock, hbare, List.singleton_append]

/-! ### The passes -/

omit haddress in
theorem opensBody_addressLine : opensBody (addressLine name address) = false :=
  opensBody_of_startsWithKeyword (by decide) (by decide) (keyword_addressLine hname).1

omit haddress in
/-- No body is open behind the line. -/
theorem openAfter_addressLine : openAfter false (addressLine name address) = false := by
  have hlast : (addressLine name address).getLast? = some ']' := by
    simp [addressLine, List.getLast?_append, List.getLast?_cons]
  rw [openAfter, opensBody_addressLine hname, if_neg Bool.false_ne_true, endsWithBrace,
    trim_addressLine hname, hlast]
  decide

/-- Alone, the line is seen by the pass over addresses only. -/
theorem ofLines_addressLine :
    Findings.ofLines [addressLine name address] =
      (Findings.ofLines []).withAddress { line := 1, name, address } := by
  have hurl : Token "url".toList := by decide
  have hkeyword : startsWithKeyword "url".toList (addressLine name address) = true :=
    (keyword_addressLine hname).1
  have hinBody : inBody [addressLine name address] = [false] := by
    simp [inBody, inBodyFrom, opensBody_addressLine hname]
  have hmasked : maskBodies [addressLine name address] = [addressLine name address] := by
    rw [maskBodies, hinBody]
    rfl
  have hpipelines : readPipelines [(false, addressLine name address, 1)] = readPipelines [] := by
    have hother : startsWithKeyword "pipeline".toList (addressLine name address) = false :=
      startsWithKeyword_of_ne hurl (by decide) (by decide) hkeyword
    simp [readPipelines, -String.reduceToList, hother]
  have hlinks : collectLinks [(addressLine name address, 1)] = collectLinks [] := by
    have hcandidate : isLinkCandidate (addressLine name address) = false :=
      isLinkCandidate_of_reserved hurl (by decide) hkeyword
    simp [collectLinks, collect, hcandidate]
  have haddresses : collectKeyword "url" readAddress [(addressLine name address, 1)] =
      { items := [{ line := 1, name, address }], problems := [] } := by
    simp [collectKeyword, collect, kindOf_unit hkeyword, readAddress_addressLine hname haddress]
  have hattitudes : ∀ kind ∈ attitudeKinds,
      Token kind.keyword.toList ∧ "url".toList ≠ kind.keyword.toList := by
    decide
  have haccelerators : ∀ kind ∈ acceleratorKinds,
      Token (acceleratorKeyword kind).toList ∧ "url".toList ≠ (acceleratorKeyword kind).toList := by
    decide
  have hmethods : ∀ kind ∈ methodKinds,
      Token kind.keyword.toList ∧ "url".toList ≠ kind.keyword.toList := by
    decide
  rw [Findings.ofLines_eq, hmasked, hinBody]
  simp (disch := decide) only [List.zipIdx_singleton, List.zip_cons_cons, List.zip_nil_right,
    Findings.gather, collectKeyword_singleton_of_ne hurl hkeyword, hpipelines, hlinks, haddresses,
    collectKinds_singleton_of_ne hurl hkeyword hattitudes,
    collectKinds_singleton_of_ne hurl hkeyword haccelerators,
    collectKinds_singleton_of_ne hurl hkeyword hmethods]
  rfl

/-- Above other lines the line adds its address, and moves them down. -/
theorem ofLines_addressLine_cons (bare : List Text) :
    Findings.ofLines (addressLine name address :: bare) =
      ((Findings.ofLines bare).renumber (· + 1)).withAddress { line := 1, name, address } := by
  have hapart : ¬ (EndsWithHeader [addressLine name address] ∧ BeginsWithBody bare) := by
    rintro ⟨⟨place, header, pipeline, hheader, -⟩, -⟩
    have hmem := List.mem_of_getElem? hheader.line
    obtain rfl : header = addressLine name address := List.mem_singleton.1 hmem
    have hother : startsWithKeyword "pipeline".toList (addressLine name address) = false :=
      startsWithKeyword_of_ne (by decide) (by decide) (by decide) (keyword_addressLine hname).1
    rw [hheader.keyword] at hother
    cases hother
  have hend : [addressLine name address].foldl openAfter false = false :=
    openAfter_addressLine hname
  have hboth := ofLines_append hend hapart
  rw [ofLines_addressLine hname haddress] at hboth
  exact hboth

/-- An address in front of a source is kept as it is written if it opens no comment, and the rest of
the document is that of the source, one line further down. No address that opens a comment is kept.
-/
theorem read_addressLine (source : Text) :
    (¬ ['/', '*'] <:+: address →
      Document.read (addressLine name address ++ '\n' :: source) =
        (Document.read source).map fun doc =>
          (doc.renumber (· + 1)).withAddress { line := 1, name, address }) ∧
    (['/', '*'] <:+: address →
      ∀ doc, Document.read (addressLine name address ++ '\n' :: source) = .ok doc →
        { line := 1, name, address } ∉ doc.addresses) := by
  constructor
  · intro hfree
    have hdrafts : ∀ (a : Address) (f : Findings),
        ((f.renumber (· + 1)).withAddress a).drafts.items =
          f.drafts.items.map (AnnotationDraft.renumber (· + 1)) := fun _ _ => rfl
    rw [Document.read_eq_map, Document.read_eq_map, bareLines_addressLine hname haddress hfree,
      ofLines_addressLine_cons hname haddress, hdrafts, mapM_settle_renumber]
    cases (Findings.ofLines (bareLines source)).drafts.items.mapM AnnotationDraft.settle with
    | error tooLong => rfl
    | ok annotations =>
        have hmoved := Findings.document_renumber (σ := (· + 1)) (fun _ _ => Nat.succ_lt_succ)
          (Findings.ofLines (bareLines source)) annotations
        exact congrArg (fun doc => Except.ok (Document.withAddress _ doc)) hmoved
  · intro hopened doc hread hmem
    obtain ⟨annotations, -, rfl⟩ := Document.read_eq_ok.1 hread
    obtain ⟨i, line, hline, hkeyword, haddressRead⟩ := exists_line_of_keyword hmem
    obtain rfl : 0 = i := Nat.succ.inj (line_of_readAddress haddressRead)
    -- What is left of the line is too short for the name and the address.
    have hlines : lines (addressLine name address ++ '\n' :: source) =
        addressLine name address :: lines source := by
      rw [lines_append, lines,
        List.splitOn_eq_singleton (newline_not_mem_addressLine hname haddress)]
      rfl
    rw [bareLines, hlines, stripLines, List.getElem?_cons_zero, Option.some.injEq] at hline
    have hlong := length_of_readAddress hkeyword haddressRead
    have hkept := length_keepOutside_of_opened ((opened_addressLine_iff hname).2 hopened)
    have hends := (trimEnd_sublist (keepOutside true false (addressLine name address)).1).length_le
    rw [← hline, isAddressLine_addressLine hname] at hlong
    simp [addressLine] at hlong hkept hends
    omega

end

theorem addressName_tea : AddressName "Tea shop".toList where
  trimmed := by decide
  ne_nil := by decide
  line := by decide
  bracket := by decide
  free := cut_eq_none_iff.1 (by decide)

/-- Slashes, brackets and the end of a comment are kept. -/
theorem read_addressLine_tea :
    let name := "Tea shop".toList
    let kept := "https://tea.shop//a[1*/".toList
    let lost := "https://tea.shop/*".toList
    let source := "component Cup".toList
    let unplaced : Cause := .missing "component" "[visibility, maturity]"
    Document.read (addressLine name kept ++ '\n' :: source) =
        .ok
          { addresses := [{ line := 1, name, address := kept }]
            problems := [{ line := 2, cause := unplaced }] } ∧
      ∀ doc, Document.read (addressLine name lost ++ '\n' :: source) = .ok doc →
        { line := 1, name, address := lost } ∉ doc.addresses := by
  intro name kept lost source unplaced
  have hkept : AddressText kept := ⟨by decide, by decide, by decide, by decide⟩
  have hlost : AddressText lost := ⟨by decide, by decide, by decide, by decide⟩
  have hfree : ¬ ['/', '*'] <:+: kept := cut_eq_none_iff.1 (by decide)
  have hopened : ['/', '*'] <:+: lost := ⟨"https://tea.shop".toList, [], by decide⟩
  have hsource : Document.read source =
      .ok { problems := [{ line := 1, cause := unplaced }] } := by
    decide +kernel
  constructor
  · rw [(read_addressLine addressName_tea hkept source).1 hfree, hsource]
    rfl
  · exact (read_addressLine addressName_tea hlost source).2 hopened

/-- A slash and a star hide the end of the address, and the element below. -/
theorem read_addressLine_opened :
    let name := "Tea shop".toList
    let address := "https://tea.shop/*".toList
    let source := "component Cup [0.5, 0.5]".toList
    AddressName name ∧ ¬ ['/', '/'] <:+: name ∧ ¬ ['*', '/'] <:+: name ∧ AddressText address ∧
      Document.read (addressLine name address ++ '\n' :: source) =
        .ok { problems := [{ line := 1, cause := .unclosedBracket "coordinates" }] } ∧
      Document.read (addressLine name address ++ '\n' :: source) ≠
        (Document.read source).map fun doc =>
          (doc.renumber (· + 1)).withAddress { line := 1, name, address } := by
  refine ⟨addressName_tea, cut_eq_none_iff.1 (by decide), cut_eq_none_iff.1 (by decide),
    ⟨by decide, by decide, by decide, by decide⟩, by decide +kernel,
    by decide +kernel⟩

end WardleyMaps
