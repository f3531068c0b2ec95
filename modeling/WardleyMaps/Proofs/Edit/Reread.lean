/-
Module: WardleyMaps.Proofs.Edit.Reread
Purpose: Reading a document again after a maturity was written.
Main exports: Document.evolve, maturitySpan_of_readEvolution, EvolveLine.Rewritten,
  updateEvolution_read
-/
import WardleyMaps.Proofs.Document.Inside
import WardleyMaps.Proofs.Edit.CommentFree
import WardleyMaps.Proofs.Edit.Evolve
import WardleyMaps.Proofs.Statement.WrittenMaturity

namespace WardleyMaps

open Text

/-!
A maturity is written over the token that the entity was read from, so the document that is read
from the new source is the old one with this entity at another maturity, as long as the written
number is a token itself. A number that is written without a point, or with a minus sign, is not:
then the statement has no maturity, or names another component (`updateEvolution_read`).
-/

/-- The document with one of its evolutions at another maturity. -/
def Document.evolve (doc : Document) (maturity : Double) (e : Evolution) : Document :=
  { doc with
    evolved := doc.evolved.map fun other => if other = e then { e with maturity } else other }

/-! ### The span on the line of an entity -/

/-- The span of a token on a line, when `front` is what stands between the keyword's blanks and the
token's blank. -/
def EvolveLine.span (l : EvolveLine) (front : Text) (found : MaturityToken) : Span :=
  { before := l.lead ++ "evolve".toList ++ l.gap ++ front ++ [found.blank]
    old := found.token
    after := found.rest ++ l.trail }

/-- On the line of an entity the span is the token that its maturity was read from. -/
theorem maturitySpan_of_readEvolution {l : EvolveLine} {number : Nat} {e : Evolution}
    (h : readEvolution number (trimEnd l.text) = .ok e) (hidden : Bool) :
    ∃ found front, findMaturity (' ' :: l.body) = some found ∧ found.before = ' ' :: front ∧
      maturitySpan e.name { raw := l.text, bare := trimEnd l.text, hidden } =
        some (l.span front found) := by
  have hname := evolveName_of_readEvolution h
  obtain ⟨found, label, hfound, -, -, hentity⟩ := readEvolution_eq_ok.1 h
  rw [l.afterKeyword_eq] at hfound
  have hstated : Extends e.name (splitNames (trim found.before)).1 := by
    rw [hentity]
    exact .refl _
  obtain ⟨rest, later, hbodyEq, hrest, hlater, hfoundEq⟩ :=
    exists_behind_name hname l.trimmed hfound hstated
  have hrestNe : rest ≠ [] := by
    rintro rfl
    cases hlater
  have hend : endOfName? e.name l.body = some rest :=
    endOfName?_eq_some.2 ⟨hbodyEq, hrestNe, hrest⟩
  refine ⟨found, e.name ++ later.before, hfound, by rw [hfoundEq]; rfl, ?_⟩
  rw [maturitySpan_evolveLine hname.trimmed hname.ne_nil, hend, Option.bind_some, hlater, hfoundEq]
  simp [EvolveLine.span]

/-! ### Characters of numerals -/

theorem plain_of_isDigit {c : Char} (h : isDigit c = true) : Plain c := by
  constructor <;> rintro rfl <;> exact absurd h (by decide +kernel)

theorem MaturityText.plain {t : Text} (h : MaturityText t) : ∀ c ∈ t, Plain c := by
  intro c hc
  rcases h.chars c hc with hdigit | rfl
  · exact plain_of_isDigit hdigit
  · constructor <;> decide

theorem FixedChar.plain {c : Char} (h : FixedChar c) : Plain c := by
  rcases h with hdigit | rfl | rfl
  · exact plain_of_isDigit (by simp [isDigit, digitValue?_of_isDigit hdigit])
  · constructor <;> decide
  · constructor <;> decide

theorem fixedText_eq_ok {precision : Int} {x : Double} {t : Text}
    (h : x.fixedText precision = .ok t) : t = x.fixed precision.toNat ∧ 0 ≤ precision ∧
      precision < (Nat.pow 2 31 : Nat) := by
  unfold Double.fixedText placesOf at h
  split at h
  · next hboth =>
    rw [Bool.and_eq_true, decide_eq_true_eq, decide_eq_true_eq] at hboth
    exact ⟨(Except.ok.inj h).symm, hboth⟩
  · cases h

/-! ### The line with another number -/

/-- The ends of a text do not depend on what stands in its middle, as long as that ends with no
blank. -/
theorem trimmed_around {front middle middle' rest : Text} (hfront : front ≠ [])
    (hne : middle' ≠ []) (hlast : ∀ c ∈ middle'.getLast?, isBlank c = false)
    (h : Trimmed (front ++ middle ++ rest)) : Trimmed (front ++ middle' ++ rest) := by
  constructor
  · obtain ⟨c, cs, rfl⟩ := List.exists_cons_of_ne_nil hfront
    exact h.head
  · intro c hc
    cases hrest : rest.getLast? with
    | some d =>
        apply h.last c
        rw [List.getLast?_append, hrest] at hc ⊢
        exact hc
    | none =>
        apply hlast c
        rw [List.getLast?_append, hrest, Option.none_or, List.getLast?_append_of_ne_nil _ hne] at hc
        exact hc

/-- Lines that differ in the middle have the same braces when there are none in the middle. -/
theorem sameBraces_around {a b front middle middle' rest : Text}
    (ha : trim a = front ++ middle ++ rest) (hb : trim b = front ++ middle' ++ rest)
    (hfront : front ≠ []) (hmiddle : middle ≠ []) (hmiddle' : middle' ≠ [])
    (hbrace : ∀ c ∈ ['{', '}'], c ∉ middle ∧ c ∉ middle') : SameBraces a b := by
  obtain ⟨c, cs, rfl⟩ := List.exists_cons_of_ne_nil hfront
  constructor
  · rw [Bool.eq_iff_iff, closesBody_iff, closesBody_iff, ha, hb]
    simp [hbrace]
  · rw [opensBody, opensBody, ha, hb]
    simp only [startsWith, List.cons_append, after?]
    split <;> rfl
  · have hlast : ∀ m : Text, m ≠ [] → '{' ∉ m →
        ((c :: cs ++ m ++ rest).getLast? = some '{' ↔ rest.getLast? = some '{') := by
      intro m hm hnone
      rw [List.getLast?_append]
      cases hrest : rest.getLast? with
      | some d => simp
      | none =>
          rw [Option.none_or, List.getLast?_append_of_ne_nil _ hm]
          simp only [reduceCtorEq, iff_false]
          exact fun hbad => hnone (List.mem_of_getLast? hbad)
    obtain ⟨hold, hnew⟩ := hbrace '{' (by simp)
    rw [endsWithBrace, endsWithBrace, ha, hb, Bool.eq_iff_iff, decide_eq_true_eq, decide_eq_true_eq,
      hlast _ hmiddle hold, hlast _ hmiddle' hnew]
  · rw [ha, hb]
    simp

/-- Lines that differ in the middle of what they say have the same braces when there are none in the
middle. -/
theorem EvolveLine.sameBraces {l l' : EvolveLine} {front middle middle' rest : Text}
    (hgap : l'.gap = l.gap) (h : l.body = front ++ middle ++ rest)
    (h' : l'.body = front ++ middle' ++ rest) (hmiddle : middle ≠ []) (hmiddle' : middle' ≠ [])
    (hbrace : ∀ c ∈ ['{', '}'], c ∉ middle ∧ c ∉ middle') :
    SameBraces (trimEnd l.text) (trimEnd l'.text) := by
  have htrim : trim (trimEnd l.text) = ("evolve".toList ++ (l.gap ++ front)) ++ middle ++ rest := by
    rw [trim_trimEnd, l.trim_text, h]
    simp
  have htrim' : trim (trimEnd l'.text) =
      ("evolve".toList ++ (l.gap ++ front)) ++ middle' ++ rest := by
    rw [trim_trimEnd, l'.trim_text, h', hgap]
    simp
  exact sameBraces_around htrim htrim' (by simp) hmiddle hmiddle' hbrace

/-- A line on which a number stands in place of the token: what it says, and that it differs from
the old line in nothing that comments or bodies depend on. -/
structure EvolveLine.Rewritten (l l' : EvolveLine) (front : Text) (found : MaturityToken)
    (numeral : Text) : Prop where
  old : l.text = (l.span front found).line found.token
  text : l'.text = (l.span front found).line numeral
  body : ' ' :: l'.body = found.before ++ found.blank :: (numeral ++ found.rest)
  alike : Alike "evolve".toList (trimEnd l.text) (trimEnd l'.text)
  uncommented : Uncommented false l.text → Uncommented false l'.text

theorem EvolveLine.exists_rewritten (l : EvolveLine) {found : MaturityToken} {front numeral : Text}
    (hfound : findMaturity (' ' :: l.body) = some found) (hbefore : found.before = ' ' :: front)
    (hwritten : Written numeral) (hplain : ∀ c ∈ numeral, Plain c) :
    ∃ l', l.Rewritten l' front found numeral := by
  obtain ⟨hsplit, hblank, hshape, -⟩ := findMaturity_iff.1 hfound
  have htoken := hshape.maturityText
  have hbody : l.body = (front ++ [found.blank]) ++ found.token ++ found.rest := by
    rw [hbefore] at hsplit
    simpa using hsplit
  have htrimmed : Trimmed ((front ++ [found.blank]) ++ numeral ++ found.rest) :=
    trimmed_around (by simp) hwritten.ne_nil hwritten.trimmed.last (hbody ▸ l.trimmed)
  have hgap : l.gap ≠ [] := by
    intro hnil
    rw [l.apart.1 hnil] at hbody
    simp at hbody
  let l' : EvolveLine :=
    { l with
      body := (front ++ [found.blank]) ++ numeral ++ found.rest
      trimmed := htrimmed
      apart := by simp [hgap] }
  have htext : l'.text = (l.span front found).line numeral := by
    simp [l', EvolveLine.text, span, Span.line]
  have htextOld : l.text = (l.span front found).line found.token := by
    rw [EvolveLine.text, hbody]
    simp [span, Span.line]
  have hbrace : ∀ c ∈ ['{', '}'], c ∉ found.token ∧ c ∉ numeral := by
    intro c hc
    have hending : ∀ d ∈ ['{', '}'], d ∈ endingChars ∧ isDigit d = false ∧ d ≠ '.' := by
      rw [List.forall_mem_cons, List.forall_mem_singleton]
      exact ⟨by decide +kernel, by decide +kernel⟩
    obtain ⟨hmem, hdigit, hpoint⟩ := hending c hc
    exact ⟨htoken.not_mem hdigit hpoint, hwritten.not_mem hmem⟩
  have hbraces : SameBraces (trimEnd l.text) (trimEnd l'.text) :=
    EvolveLine.sameBraces rfl hbody rfl htoken.ne_nil hwritten.ne_nil hbrace
  refine ⟨l', htextOld, htext, by simp [l', hbefore],
    ⟨by decide, by decide, l.startsWithKeyword, l'.startsWithKeyword, hbraces⟩, ?_⟩
  rw [htext, htextOld, Span.line, Span.line, uncommented_around htoken.plain htoken.ne_nil,
    uncommented_around hplain hwritten.ne_nil]
  exact id

/-! ### The document that is read again -/

/-- A source of which only the entity's line differs is read as the document with the entity at the
maturity of that line. -/
theorem Document.read_evolve {source written : Text} {doc : Document} {e : Evolution}
    {maturity : Double} {above below : List Text} {a b : Text}
    (hread : Document.read source = .ok doc) (hsource : bareLines source = above ++ a :: below)
    (hwritten : bareLines written = above ++ b :: below) (h : Alike "evolve".toList a b)
    (hold : readEvolution (1 + above.length) a = .ok e)
    (hnew : readEvolution (1 + above.length) b = .ok { e with maturity }) :
    Document.read written = .ok (doc.evolve maturity e) := by
  obtain ⟨annotations, hannotations, rfl⟩ := Document.read_eq_ok.1 hread
  rw [hsource] at hannotations ⊢
  rw [Document.read_eq_ok, hwritten, h.ofLines_evolve hold hnew]
  exact ⟨annotations, hannotations, rfl⟩

/-- Where the maturity of an entity stands in a source, when its edit is made on the entity's own
line: the lines around this line, the parts of the line, and the token. -/
structure Evolution.Site (source : Text) (e : Evolution) (p : EditPlace) (l : EvolveLine)
    (found : MaturityToken) (front : Text) : Prop where
  lines : lines source = p.above ++ l.text :: p.below
  bare : (bareLines source)[p.above.length]? = some (trimEnd l.text)
  number : e.line = p.above.length + 1
  readOn : readEvolution (p.above.length + 1) (trimEnd l.text) = .ok e
  token : findMaturity (' ' :: l.body) = some found
  before : found.before = ' ' :: front
  span : p.span = l.span front found

theorem exists_evolutionSite {source : Text} {doc : Document} {e : Evolution} {p : EditPlace}
    (hread : Document.read source = .ok doc) (he : e ∈ doc.evolved)
    (huncommented : ∀ form ∈ (sourceForms source)[e.line - 1]?, form.bare = trimEnd form.raw)
    (hlocated : locateFirst (maturitySpan e.name) (sourceForms source) = some p)
    (hline : p.lineNumber = e.line) : ∃ l found front, e.Site source p l found front := by
  obtain ⟨above, form, below, hforms, -, hspan, habove, hbelow⟩ := exists_of_locateFirst hlocated
  obtain ⟨i, bare, hnumber, hbare, ⟨hkeyword, -⟩, hbuild⟩ := exists_evolveHit_of_mem hread he
  have hlength : p.above.length = above.length := by
    rw [habove, List.length_map]
  have hi : p.above.length = i := by
    rw [hnumber] at hline
    exact Nat.succ.inj hline
  have hform : (sourceForms source)[i]? = some form := by
    rw [hforms, ← hi, hlength]
    simp
  obtain ⟨raw, formBare, hidden⟩ := form
  obtain rfl : formBare = trimEnd raw := huncommented _ (by simpa [hnumber] using hform)
  have hbareForm := (sourceForms_getElem?.1 hform).2.1
  obtain rfl : trimEnd raw = bare := Option.some.inj (hbareForm.symm.trans hbare)
  obtain ⟨l, rfl⟩ := exists_evolveLine hkeyword
  obtain ⟨found, front, hfound, hbefore, hspanEq⟩ := maturitySpan_of_readEvolution hbuild hidden
  rw [← hi] at hbare hbuild hnumber
  refine ⟨l, found, front, ?_, hbare, hnumber, hbuild, hfound, hbefore,
    Option.some.inj (hspan.symm.trans hspanEq)⟩
  rw [← map_raw_sourceForms, hforms, List.map_append, List.map_cons, habove, hbelow]

/-- Writing a number over the token changes the entity's line only, with and without comments. -/
theorem Evolution.Site.exists_line {source : Text} {e : Evolution} {p : EditPlace} {l : EvolveLine}
    {found : MaturityToken} {front numeral : Text} (hsite : e.Site source p l found front)
    (hwritten : Written numeral) (hplain : ∀ c ∈ numeral, Plain c) :
    ∃ above line below, above.length = p.above.length ∧
      bareLines source = above ++ trimEnd l.text :: below ∧
      bareLines (p.write numeral).source = above ++ line :: below ∧
      Alike "evolve".toList (trimEnd l.text) line ∧
      ' ' :: afterKeyword "evolve".toList line =
        found.before ++ found.blank :: (numeral ++ found.rest) := by
  obtain ⟨l', hold, htext, hbody, halike, hkeep⟩ :=
    l.exists_rewritten hsite.token hsite.before hwritten hplain
  have hblank : ¬ Blank l.text := by
    rw [← trim_eq_nil_iff, l.trim_text]
    simp
  have hnewline : '\n' ∉ l'.text := by
    have hnone : '\n' ∉ l.text :=
      newline_not_mem_of_mem_lines (t := source) (by rw [hsite.lines]; simp)
    rw [hold, Span.line, List.mem_append, List.mem_append, not_or, not_or] at hnone
    rw [htext, Span.line, List.mem_append, List.mem_append, not_or, not_or]
    exact ⟨⟨hnone.1.1, hwritten.not_mem (by decide)⟩, hnone.2⟩
  have huncommented : Uncommented (isAddressLine l.text) l.text →
      Uncommented (isAddressLine l'.text) l'.text := by
    rw [l.isAddressLine_eq, l'.isAddressLine_eq]
    exact hkeep
  obtain ⟨hbareOld, hbareNew⟩ :=
    bareLines_replace hsite.lines hsite.bare hblank huncommented hnewline
  have hsource : (p.write numeral).source = unlines (p.above ++ l'.text :: p.below) := by
    rw [EditPlace.write, EditPlace.source, hsite.span, htext]
  rw [← hsource] at hbareNew
  rw [← l'.afterKeyword_eq] at hbody
  exact ⟨_, _, _, length_stripLines false p.above, hbareOld, hbareNew, halike, hbody⟩

/-- An evolution of a document is read on the line with its number. -/
theorem readEvolution_of_mem {source line : Text} {doc : Document} {e : Evolution}
    {above below : List Text} (hread : Document.read source = .ok doc) (he : e ∈ doc.evolved)
    (hsource : bareLines source = above ++ line :: below) (hnumber : e.line = above.length + 1) :
    readEvolution (above.length + 1) line = .ok e := by
  obtain ⟨i, bare, hline, hbare, -, hbuild⟩ := exists_evolveHit_of_mem hread he
  obtain rfl : i = above.length := Nat.succ.inj (hline.symm.trans hnumber)
  rw [hsource, List.getElem?_append_right le_rfl, Nat.sub_self, List.getElem?_cons_zero,
    Option.some.injEq] at hbare
  rw [hbare]
  exact hbuild

/-- A numeral is the same number as a maturity. -/
theorem maturityValue_of_readNumber {field : String} {numeral : Text} {value : Double}
    (hnumeral : Trimmed numeral) (h : readNumber field numeral = .ok value) :
    maturityValue numeral = value := by
  rw [readNumber, trim_eq_self hnumeral] at h
  rw [maturityValue]
  split at h
  · next x hx =>
    rw [hx]
    exact Except.ok.inj h
  · cases h

/-- Writing a maturity over the token of an entity changes nothing but this entity's maturity
exactly when the number is written with places and without a sign. -/
theorem updateEvolution_read {source : Text} {doc : Document} {e : Evolution} {maturity : Double}
    {precision : Int} {edited : Edited} (hread : Document.read source = .ok doc)
    (he : e ∈ doc.evolved)
    (huncommented : ∀ form ∈ (sourceForms source)[e.line - 1]?, form.bare = trimEnd form.raw)
    (hfinite : maturity.isFinite = true)
    (hupdate : updateEvolution source e.name maturity precision = .ok (some edited))
    (hline : edited.lineNumber = e.line) :
    ∃ written, Rereads precision maturity written ∧
      (Document.read edited.source = .ok (doc.evolve written e) ↔
        0 < precision ∧ maturity.isNegative = false) := by
  obtain ⟨p, numeral, hlocated, hnumeral, rfl⟩ := updateEvolution_eq_ok.1 hupdate
  obtain ⟨l, found, front, hsite⟩ := exists_evolutionSite hread he huncommented hlocated hline
  obtain ⟨hfixed, hprecision, hlimit⟩ := fixedText_eq_ok hnumeral
  have hwritten := written_fixedText hfinite hnumeral
  -- The number that is written, and what it is read as.
  obtain ⟨value, _, hsame, hvalue⟩ := exists_rereads hfinite hprecision hlimit
  obtain rfl := Except.ok.inj (hnumeral.symm.trans hsame)
  refine ⟨value, ⟨numeral, hnumeral, hvalue⟩, ?_⟩
  have hplaces : 0 < precision.toNat ↔ 0 < precision := by omega
  have hscan := scanMaturity_fixed hfinite precision.toNat
    (findMaturity_iff.1 hsite.token).2.2.1.ended
  simp only [← hfixed, hplaces] at hscan
  -- The line of the entity before and after the edit.
  obtain ⟨above, line, below, hlength, hold, hnew, halike, hbody⟩ :=
    hsite.exists_line hwritten (hfixed ▸ fun c hc => (fixed_chars hfinite _ c hc).plain)
  have hreadOn := hsite.readOn
  have htoken := hsite.token
  rw [← l.afterKeyword_eq] at htoken
  rw [← hlength] at hreadOn
  by_cases hreadable : 0 < precision ∧ maturity.isNegative = false
  · rw [if_pos hreadable, scanMaturity_iff] at hscan
    have hreadNew := readEvolution_written hreadOn htoken hbody hscan.2
    rw [maturityValue_of_readNumber hwritten.trimmed (hvalue "")] at hreadNew
    rw [Nat.add_comm] at hreadOn hreadNew
    exact iff_of_true (Document.read_evolve hread hold hnew halike hreadOn hreadNew) hreadable
  · rw [if_neg hreadable] at hscan
    refine iff_of_false ?_ hreadable
    intro hagain
    have hmem : { e with maturity := value } ∈ (doc.evolve value e).evolved :=
      List.mem_map.2 ⟨e, he, if_pos rfl⟩
    have hnumber : e.line = above.length + 1 := by rw [hlength, hsite.number]
    have hbuild := readEvolution_of_mem hagain hmem hnew hnumber
    exact readEvolution_unreadable hreadOn htoken hbody hscan (fun c hc => (hwritten.chars c hc).1)
      (hfixed ▸ exists_digit_fixed hfinite _) hbuild ⟨rfl, rfl⟩

/-- With two places the evolution is read again, without places it is lost. -/
theorem updateEvolution_read_tea :
    let source := "evolve Tea 0.5".toList
    let tea : Evolution := { line := 1, name := "Tea".toList, maturity := 0.5 }
    let doc : Document := { evolved := [tea] }
    Document.read source = .ok doc ∧
      (∃ edited written, updateEvolution source tea.name 0.7 2 = .ok (some edited) ∧
        Rereads 2 0.7 written ∧ Document.read edited.source = .ok (doc.evolve written tea)) ∧
      ∃ edited written, updateEvolution source tea.name 0.7 0 = .ok (some edited) ∧
        Rereads 0 0.7 written ∧ Document.read edited.source ≠ .ok (doc.evolve written tea) := by
  intro source tea doc
  have hread : Document.read source = .ok doc := by decide +kernel
  have huncommented :
      ∀ form ∈ (sourceForms source)[tea.line - 1]?, form.bare = trimEnd form.raw := by
    decide +kernel
  have hplaces : updateEvolution source tea.name 0.7 2 =
      .ok (some
        { lineNumber := 1, written := "0.70".toList, source := "evolve Tea 0.70".toList }) := by
    decide +kernel
  have hnone : updateEvolution source tea.name 0.7 0 =
      .ok (some { lineNumber := 1, written := "1".toList, source := "evolve Tea 1".toList }) := by
    decide +kernel
  obtain ⟨written, hwritten, hagain⟩ :=
    updateEvolution_read hread (List.mem_singleton_self tea) huncommented (by decide +kernel)
      hplaces rfl
  obtain ⟨lost, hlost, hnever⟩ :=
    updateEvolution_read hread (List.mem_singleton_self tea) huncommented (by decide +kernel)
      hnone rfl
  exact ⟨hread, ⟨_, written, hplaces, hwritten, hagain.2 ⟨by decide, by decide +kernel⟩⟩,
    _, lost, hnone, hlost, fun h => absurd (hnever.1 h).1 (by decide)⟩

end WardleyMaps
