/-
Module: WardleyMaps.Proofs.Edit.Move
Purpose: Reading a document again after one of its entities was moved.
Main exports: Movable, Document.move, Movable.Free, Movable.MovedBy, Document.read_move,
  updatePosition_read
-/
import WardleyMaps.Proofs.Comment.Segment
import WardleyMaps.Proofs.Document.Replace
import WardleyMaps.Proofs.Edit.Bracket
import WardleyMaps.Proofs.Edit.Place
import WardleyMaps.Proofs.Statement.Coordinates

namespace WardleyMaps

open Text

/-!
Moving an entity writes into the source, not into the document. When the entity's name is declared
once, no note holds the name and the entity's line has no comment, the document that is read from
the new source is the old one with this entity at another place. Everything else is the same: other
entities, the numbers of their lines, the presentation and the problems.
-/

/-! ### Entities that can be moved -/

/-- An entity with a name and a position of its own. -/
inductive Movable where
  | element (component : Component)
  | anchor (anchor : Anchor)
  | submap (component : Component)
deriving DecidableEq

namespace Movable

/-- The number of the entity's line. -/
def line : Movable → Nat
  | .element c | .submap c => c.line
  | .anchor a => a.line

/-- The entity's name. -/
def name : Movable → Text
  | .element c | .submap c => c.name
  | .anchor a => a.name

/-- The keyword of the entity's statement. -/
def keyword : Movable → String
  | .element _ => componentKeyword false
  | .anchor _ => "anchor"
  | .submap _ => componentKeyword true

/-- The entity belongs to a document. -/
def Of (doc : Document) : Movable → Prop
  | .element c => c ∈ doc.elements
  | .anchor a => a ∈ doc.anchors
  | .submap c => c ∈ doc.submaps

instance (doc : Document) : (d : Movable) → Decidable (d.Of doc)
  | .element c => inferInstanceAs (Decidable (c ∈ doc.elements))
  | .anchor a => inferInstanceAs (Decidable (a ∈ doc.anchors))
  | .submap c => inferInstanceAs (Decidable (c ∈ doc.submaps))

/-- The entity at another position. -/
def movedTo (position : Position) : Movable → Movable
  | .element c => .element { c with position }
  | .anchor a => .anchor { a with position }
  | .submap c => .submap { c with position }

/-- The entity is what its statement on a line is read as. -/
def ReadOn (number : Nat) (line : Text) : Movable → Prop
  | .element c => readComponent false number line = .ok c
  | .anchor a => readAnchor number line = .ok a
  | .submap c => readComponent true number line = .ok c

end Movable

/-- The document with one of its entities at another position. -/
def Document.move (doc : Document) (position : Position) : Movable → Document
  | .element c =>
      { doc with
        elements := doc.elements.map fun other => if other = c then { c with position } else other }
  | .anchor a =>
      { doc with
        anchors := doc.anchors.map fun other => if other = a then { a with position } else other }
  | .submap c =>
      { doc with
        submaps := doc.submaps.map fun other => if other = c then { c with position } else other }

/-- The line of the entity is the only one that declares its name outside of bodies, no note holds
the name, and leaving comments out takes nothing but blanks at the end away from the line. The line
itself thus lies outside of bodies. -/
structure Movable.Free (source : Text) (d : Movable) : Prop where
  only : matchingLines source d.name = [d.line]
  unnoted : ∀ form ∈ sourceForms source, noteHolds d.name form.bare = false
  uncommented : ∀ form ∈ (sourceForms source)[d.line - 1]?, form.bare = trimEnd form.raw

/-- Writing a position for the entity's name gives a source that is read as the same document with
the entity at the position that the written numerals denote. -/
def Movable.MovedBy (source : Text) (doc : Document) (d : Movable) (position : Position)
    (precision : Int) : Prop :=
  ∃ edited written, updatePosition source d.name position precision = .ok (some edited) ∧
    Rereads precision position.visibility written.visibility ∧
    Rereads precision position.maturity written.maturity ∧
    Document.read edited.source = .ok (doc.move written d)

/-! ### From the document to the line -/

/-- An entity of a document is read on the line with its number, which begins with its keyword. -/
theorem Movable.Of.exists_line {source : Text} {doc : Document} {d : Movable}
    (hread : Document.read source = .ok doc) (hd : d.Of doc) :
    ∃ i line, d.line = i + 1 ∧ (bareLines source)[i]? = some line ∧
      startsWithKeyword d.keyword.toList line = true ∧ d.ReadOn (i + 1) line := by
  obtain ⟨annotations, -, rfl⟩ := Document.read_eq_ok.1 hread
  cases d with
  | element c =>
      obtain ⟨i, line, hline, -, hkeyword, hbuild⟩ :=
        exists_visible_line_of_keyword (by decide) hd
      exact ⟨i, line, line_of_readComponent hbuild, hline, hkeyword, hbuild⟩
  | anchor a =>
      obtain ⟨i, line, hline, hkeyword, hbuild⟩ := exists_line_of_keyword hd
      exact ⟨i, line, line_of_readAnchor hbuild, hline, hkeyword, hbuild⟩
  | submap c =>
      obtain ⟨i, line, hline, hkeyword, hbuild⟩ := exists_line_of_keyword hd
      exact ⟨i, line, line_of_readComponent hbuild, hline, hkeyword, hbuild⟩

/-! ### From the line to the document -/

theorem Movable.keyword_positioned (d : Movable) : d.keyword.toList ∈ positionedKeywords := by
  cases d with
  | element c => exact (by decide : (componentKeyword false).toList ∈ positionedKeywords)
  | anchor a => exact (by decide : "anchor".toList ∈ positionedKeywords)
  | submap c => exact (by decide : (componentKeyword true).toList ∈ positionedKeywords)

theorem Movable.ReadOn.line_eq {number : Nat} {line : Text} {d : Movable}
    (h : d.ReadOn number line) : d.line = number := by
  cases d with
  | element c => exact line_of_readComponent h
  | anchor a => exact line_of_readAnchor h
  | submap c => exact line_of_readComponent h

/-- The entity stands on its line as a declaration, and other contents between the brackets are read
as the same entity at another position. -/
theorem Movable.ReadOn.declaration {number : Nat} {line : Text} {d : Movable}
    (h : d.ReadOn number line) (hkeyword : startsWithKeyword d.keyword.toList line = true) :
    ∃ front inside tail, Declaration d.keyword.toList d.name front inside tail line ∧
      '}' ∉ inside ∧
      ∀ other inside' position,
        Declaration d.keyword.toList d.name front inside' tail other →
        (∀ field, readPosition field inside' = .ok position) →
        (d.movedTo position).ReadOn number other := by
  cases d with
  | element c =>
      obtain ⟨front, inside, tail, hdeclaration, hposition, hreread⟩ :=
        declaration_of_readComponent hkeyword h
      exact ⟨front, inside, tail, hdeclaration, brace_not_mem_of_readPosition hposition,
        fun other inside' position hother hinside =>
          hreread other inside' position hother (hinside _)⟩
  | anchor a =>
      obtain ⟨front, inside, tail, hdeclaration, hposition, hreread⟩ :=
        declaration_of_readAnchor hkeyword h
      exact ⟨front, inside, tail, hdeclaration, brace_not_mem_of_readPosition hposition,
        fun other inside' position hother hinside =>
          hreread other inside' position hother (hinside _)⟩
  | submap c =>
      obtain ⟨front, inside, tail, hdeclaration, hposition, hreread⟩ :=
        declaration_of_readComponent hkeyword h
      exact ⟨front, inside, tail, hdeclaration, brace_not_mem_of_readPosition hposition,
        fun other inside' position hother hinside =>
          hreread other inside' position hother (hinside _)⟩

/-- Declarations that differ between their brackets only are alike. -/
theorem Declaration.alike {keyword name front inside inside' tail a b : Text}
    (hpositioned : keyword ∈ positionedKeywords)
    (h : Declaration keyword name front inside tail a)
    (h' : Declaration keyword name front inside' tail b) (hinside : '}' ∉ inside)
    (hinside' : '}' ∉ inside') : Alike keyword a b := by
  obtain ⟨htoken, hreserved⟩ : Token keyword ∧ keyword ∈ reservedWords :=
    (by decide : ∀ k ∈ positionedKeywords, Token k ∧ k ∈ reservedWords) keyword hpositioned
  have hfront : front ≠ [] := by
    obtain ⟨gap, space, rfl, -, hgap, -⟩ := h.heading.parts
    simp [hgap]
  obtain ⟨c, cs, rfl⟩ := List.exists_cons_of_ne_nil hfront
  refine ⟨htoken, hreserved, h.startsWithKeyword, h'.startsWithKeyword, ?_⟩
  constructor
  · rw [Bool.eq_iff_iff, closesBody_iff, closesBody_iff, h.shape, h'.shape]
    simp [hinside, hinside']
  · rw [opensBody, opensBody, h.shape, h'.shape]
    simp only [startsWith, List.cons_append, after?]
    split <;> rfl
  · rw [endsWithBrace, endsWithBrace, h.shape, h'.shape, List.getLast?_append_cons,
      List.getLast?_append_cons]
  · rw [h.shape, h'.shape]
    simp

/-- What is found when the entity is read at another position on its line. -/
theorem Findings.document_move {d : Movable} {position : Position} {a b : Text}
    {above below : List Text} (h : Alike d.keyword.toList a b)
    (hvisible : (inBody (above ++ a :: below))[above.length]? = some false)
    (hold : d.ReadOn (1 + above.length) a)
    (hnew : (d.movedTo position).ReadOn (1 + above.length) b) :
    (Findings.ofLines (above ++ b :: below)).drafts =
        (Findings.ofLines (above ++ a :: below)).drafts ∧
      ∀ annotations, (Findings.ofLines (above ++ b :: below)).document annotations =
        ((Findings.ofLines (above ++ a :: below)).document annotations).move position d := by
  cases d with
  | element c =>
      rw [Alike.ofLines_element hvisible h hold hnew]
      exact ⟨rfl, fun _ => rfl⟩
  | anchor a =>
      rw [Alike.ofLines_anchor hvisible h hold hnew]
      exact ⟨rfl, fun _ => rfl⟩
  | submap c =>
      rw [Alike.ofLines_submap hvisible h hold hnew]
      exact ⟨rfl, fun _ => rfl⟩

/-- A source of which only the entity's line differs is read as the document with the entity at the
position of that line. -/
theorem Document.read_move {source written : Text} {doc : Document} {d : Movable}
    {position : Position} {above below : List Text} {a b : Text}
    (hread : Document.read source = .ok doc) (hsource : bareLines source = above ++ a :: below)
    (hwritten : bareLines written = above ++ b :: below) (h : Alike d.keyword.toList a b)
    (hvisible : (inBody (bareLines source))[above.length]? = some false)
    (hold : d.ReadOn (1 + above.length) a)
    (hnew : (d.movedTo position).ReadOn (1 + above.length) b) :
    Document.read written = .ok (doc.move position d) := by
  obtain ⟨annotations, hannotations, rfl⟩ := Document.read_eq_ok.1 hread
  rw [hsource] at hvisible hannotations ⊢
  obtain ⟨hdrafts, hdocument⟩ := Findings.document_move h hvisible hold hnew
  rw [Document.read_eq_ok, hwritten]
  exact ⟨annotations, by rw [hdrafts, hannotations], (hdocument annotations).symm⟩

/-! ### The line that is edited -/

/-- No position is written into a line that does not declare the name. -/
theorem positionSpan_eq_none_of_not_mem {source name : Text} {i : Nat} {form : SourceLine}
    (hform : (sourceForms source)[i]? = some form) (hnot : i + 1 ∉ matchingLines source name)
    (hnote : noteHolds name form.bare = false) : positionSpan name form = none := by
  refine positionSpan_eq_none ?_ hnote
  by_contra hcontra
  rw [not_or, Bool.not_eq_true, Bool.not_eq_false] at hcontra
  exact hnot (mem_matchingLines.2 ⟨i, form, rfl, hform, hcontra⟩)

/-- The only line that declares a name is the one that is edited. -/
theorem locateFirst_of_only {source name : Text} {i : Nat} {form : SourceLine} {span : Span}
    (hform : (sourceForms source)[i]? = some form) (hspan : positionSpan name form = some span)
    (honly : matchingLines source name = [i + 1])
    (hnotes : ∀ other ∈ sourceForms source, noteHolds name other.bare = false) :
    ∃ above below, lines source = above ++ form.raw :: below ∧ above.length = i ∧
      locateFirst (positionSpan name) (sourceForms source) = some { above, span, below } := by
  obtain ⟨before, after, hforms, hlen⟩ := exists_around hform
  have hlines : lines source = before.map (·.raw) ++ form.raw :: after.map (·.raw) := by
    rw [← map_raw_sourceForms, hforms, List.map_append, List.map_cons]
  refine ⟨_, _, hlines, by simp [hlen], ?_⟩
  rw [hforms]
  refine locateFirst_append ?_ hspan after
  intro other hother
  obtain ⟨j, hj⟩ := List.getElem?_of_mem hother
  have hjlt : j < before.length := (List.getElem?_eq_some_iff.1 hj).1
  have hjform : (sourceForms source)[j]? = some other := by
    rw [hforms, List.getElem?_append_left hjlt, hj]
  apply positionSpan_eq_none_of_not_mem hjform
  · rw [honly, List.mem_singleton]
    omega
  · exact hnotes other (List.mem_of_getElem? hjform)

/-- A line with brackets has no comment when none of its three parts has one. -/
theorem BracketLine.uncommented_iff {address : Bool} (l : BracketLine) :
    Uncommented address l.text ↔ Uncommented address (l.lead ++ l.front) ∧
      Uncommented address l.inside ∧ Uncommented address (l.tail ++ l.trail) := by
  have hsplit : l.text =
      (l.lead ++ l.front) ++ '[' :: (l.inside ++ ']' :: (l.tail ++ l.trail)) := by
    simp [text]
  rw [hsplit, uncommented_append plain_openingBracket, uncommented_append plain_closingBracket]

theorem BracketLine.Declares.isAddressLine_eq {l : BracketLine} {keyword name : Text}
    (hpositioned : keyword ∈ positionedKeywords) (h : l.Declares keyword name) :
    isAddressLine l.text = false := by
  obtain ⟨gap, space, hfront, -⟩ := h.declaration.heading.parts
  have hshape := h.declaration.shape
  rw [trim_trimEnd] at hshape
  rw [isAddressLine, hshape, hfront]
  simp only [positionedKeywords, List.mem_cons, List.not_mem_nil, or_false] at hpositioned
  rcases hpositioned with rfl | rfl | rfl <;> rfl

/-- Writing between the brackets of a line changes this line only, with and without comments. -/
theorem BracketLine.bareLines_write {source keyword name pair : Text} {l : BracketLine}
    {above below : List Text} (hpositioned : keyword ∈ positionedKeywords)
    (h : l.Declares keyword name) (hlines : lines source = above ++ l.text :: below)
    (hbare : (bareLines source)[above.length]? = some (trimEnd l.text)) (hslash : '/' ∉ pair)
    (hclose : ']' ∉ pair) (hnewline : '\n' ∉ pair) :
    bareLines source =
        stripLines false above ++ trimEnd l.text :: stripLines false below ∧
      bareLines (unlines (above ++ (l.withInside pair).text :: below)) =
        stripLines false above ++ trimEnd (l.withInside pair).text :: stripLines false below := by
  have hparts : '\n' ∉ l.text := newline_not_mem_of_mem_lines (t := source) (by rw [hlines]; simp)
  simp only [text, List.mem_append, List.mem_cons, not_or] at hparts
  apply bareLines_replace hlines hbare
  · intro hblank
    exact absurd (hblank '[' (by simp [text])) (by decide)
  · rw [h.isAddressLine_eq hpositioned, (h.withInside hclose).isAddressLine_eq hpositioned,
      uncommented_iff, uncommented_iff]
    exact fun hold => ⟨hold.1, uncommented_of_slash_not_mem hslash, hold.2.2⟩
  · simp only [text, withInside, List.mem_append, List.mem_cons, not_or]
    tauto

/-! ### The document that is read again -/

/-- Where an entity stands in a source: the lines around its own one, and the parts of this line.
Written at this place, other contents of the brackets are read as another position. -/
structure Movable.Site (source : Text) (d : Movable) (above : List Text) (l : BracketLine)
    (below : List Text) : Prop where
  lines : lines source = above ++ l.text :: below
  bare : (bareLines source)[above.length]? = some (trimEnd l.text)
  visible : (inBody (bareLines source))[above.length]? = some false
  declares : l.Declares d.keyword.toList d.name
  unbraced : '}' ∉ l.inside
  readOn : d.ReadOn (1 + above.length) (trimEnd l.text)
  readAgain : ∀ pair position, ']' ∉ pair → (∀ field, readPosition field pair = .ok position) →
    (d.movedTo position).ReadOn (1 + above.length) (trimEnd (l.withInside pair).text)
  located : locateFirst (positionSpan d.name) (sourceForms source) =
    some { above, span := l.span, below }

/-- An entity that can be moved alone has a site. -/
theorem Movable.Free.exists_site {source : Text} {doc : Document} {d : Movable}
    (hread : Document.read source = .ok doc) (hd : d.Of doc) (hfree : d.Free source) :
    ∃ above l below, d.Site source above l below := by
  obtain ⟨i, bare, hline, hbare, hkeyword, hreadOn⟩ := hd.exists_line hread
  obtain ⟨front, inside, tail, hdeclaration, hbrace, hreread⟩ := hreadOn.declaration hkeyword
  have honly := hfree.only
  rw [hline] at honly
  have hmem : i + 1 ∈ matchingLines source d.name := by
    rw [honly]
    exact List.mem_singleton_self _
  obtain ⟨j, ⟨raw, bareForm, hidden⟩, hj, hform, hhidden, -⟩ := mem_matchingLines.1 hmem
  obtain rfl : i = j := by omega
  have huncommented := hfree.uncommented _ (by simpa [hline] using hform)
  obtain ⟨-, hbareForm, hflag⟩ := sourceForms_getElem?.1 hform
  simp only at hhidden huncommented hbareForm hflag
  subst hhidden
  obtain rfl : bareForm = bare := Option.some.inj (hbareForm.symm.trans hbare)
  subst huncommented
  -- The line as it stands in the source has the same parts, and more blanks at its end perhaps.
  obtain ⟨l, rfl, rfl, rfl, rfl, hdeclares⟩ := hdeclaration.exists_bracketLine
  obtain ⟨above, below, hlines, rfl, hlocated⟩ := locateFirst_of_only hform
    (positionSpan_of_declares d.keyword_positioned hdeclares) honly hfree.unnoted
  rw [Nat.add_comm] at hreadOn hreread
  refine ⟨above, l, below, hlines, hbare, hflag, hdeclares, hbrace, hreadOn, ?_, hlocated⟩
  intro pair position hclose hposition
  exact hreread _ pair position (hdeclares.withInside hclose).declaration hposition

/-- An entity whose name is declared once, on a line without comments, and held by no note is moved
alone: the edited source is read as the same document with this entity at the written position. -/
theorem updatePosition_read {source : Text} {doc : Document} {d : Movable} {position : Position}
    {precision : Int} (hread : Document.read source = .ok doc) (hd : d.Of doc)
    (hfree : d.Free source) (hv : position.visibility.isFinite = true)
    (hm : position.maturity.isFinite = true) (hprecision : 0 ≤ precision)
    (hlimit : precision < (Nat.pow 2 31 : Nat)) : d.MovedBy source doc position precision := by
  obtain ⟨above, l, below, hsite⟩ := hfree.exists_site hread hd
  -- The numerals that are written, and what they are read as.
  obtain ⟨visibility, hvisibility⟩ := exists_rereads hv hprecision hlimit
  obtain ⟨maturity, hmaturity⟩ := exists_rereads hm hprecision hlimit
  let written : Position := { visibility, maturity }
  obtain ⟨pair, hpair, hposition, hslash, hclose, hbrace, hnewline⟩ :
      ∃ pair, pairText precision position = .ok pair ∧
        (∀ field, readPosition field pair = .ok written) ∧
        '/' ∉ pair ∧ ']' ∉ pair ∧ '}' ∉ pair ∧ '\n' ∉ pair :=
    readPosition_pairText hv hm hvisibility hmaturity
  -- The edited line is the only one that differs, and no reader but one sees it.
  obtain ⟨hbareOld, hbareNew⟩ := BracketLine.bareLines_write d.keyword_positioned hsite.declares
    hsite.lines hsite.bare hslash hclose hnewline
  have halike := hsite.declares.declaration.alike d.keyword_positioned
    (hsite.declares.withInside hclose).declaration hsite.unbraced hbrace
  have hlength : (stripLines false above).length = above.length := length_stripLines false above
  have hagain : Document.read (unlines (above ++ (l.withInside pair).text :: below)) =
      .ok (doc.move written d) := by
    apply Document.read_move hread hbareOld hbareNew halike
    · rw [hlength]
      exact hsite.visible
    · rw [hlength]
      exact hsite.readOn
    · rw [hlength]
      exact hsite.readAgain pair written hclose hposition
  refine ⟨EditPlace.write { above, span := l.span, below } pair, written, ?_, hvisibility,
    hmaturity, ?_⟩
  · rw [updatePosition, hpair, hsite.located]
    rfl
  · rw [EditPlace.write, EditPlace.source, l.line_span]
    exact hagain

/-! ### One element -/

/-- A source with a comment and an element. -/
def kettleSource : Text :=
  "// tea\ncomponent Kettle [0.25, 0.5]".toList

/-- The element of this source. -/
def kettle : Component :=
  { line := 2, name := "Kettle".toList, position := { visibility := 0.25, maturity := 0.5 } }

theorem updatePosition_read_kettle :
    Document.read kettleSource = .ok { elements := [kettle] } ∧
      (Movable.element kettle).Free kettleSource ∧
      (Movable.element kettle).MovedBy kettleSource { elements := [kettle] }
        { visibility := 0.45, maturity := 0.4 } 2 := by
  have hread : Document.read kettleSource = .ok { elements := [kettle] } := by decide +kernel
  have hfree : (Movable.element kettle).Free kettleSource :=
    ⟨by decide +kernel, by decide +kernel, by decide +kernel⟩
  exact ⟨hread, hfree, updatePosition_read hread (by decide +kernel) hfree (by decide +kernel)
    (by decide +kernel) (by decide) (by decide)⟩

/-- No number is written with 2³¹ places, so nothing is moved then. -/
theorem not_movedBy_of_every_precision :
    ¬ ∀ (source : Text) (doc : Document) (d : Movable) (position : Position) (precision : Int),
      Document.read source = .ok doc → d.Of doc → d.Free source →
      position.visibility.isFinite = true → position.maturity.isFinite = true → 0 ≤ precision →
      d.MovedBy source doc position precision := by
  intro h
  obtain ⟨edited, written, hupdate, -⟩ := h kettleSource { elements := [kettle] } (.element kettle)
    { visibility := 0.45, maturity := 0.4 } (Nat.pow 2 31 : Nat) (by decide +kernel)
    (by decide +kernel) ⟨by decide +kernel, by decide +kernel, by decide +kernel⟩
    (by decide +kernel) (by decide +kernel) (by decide)
  have hrefused : updatePosition kettleSource kettle.name { visibility := 0.45, maturity := 0.4 }
      (Nat.pow 2 31 : Nat) = .error .tooLarge := by decide +kernel
  have hname : (Movable.element kettle).name = kettle.name := rfl
  rw [hname, hrefused] at hupdate
  cases hupdate

end WardleyMaps
