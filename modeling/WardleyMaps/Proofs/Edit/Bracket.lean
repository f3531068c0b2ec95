/-
Module: WardleyMaps.Proofs.Edit.Bracket
Purpose: The pair of brackets that a position is written into.
Main exports: BracketLine, BracketLine.Declares, Declaration.exists_bracketLine,
  declaration?_of_heading, exists_heading_of_declaration?, Declaration.declares_iff,
  positionSpan_of_declares, positionSpan_eq_none
-/
import WardleyMaps.Proofs.Edit.Span
import WardleyMaps.Proofs.Statement.Placed

namespace WardleyMaps

open Text

/-!
The reader of a document takes a declaration apart by cutting and trimming, the editor matches it
from the left on the line as it stands in the source. On a line whose only blanks and brackets are
those of the declaration they agree on the brackets (`positionSpan_of_declares`).
-/

/-- A line with a pair of brackets: the blanks at its ends, and what stands before, in and after the
brackets. -/
structure BracketLine where
  lead : Text
  front : Text
  inside : Text
  tail : Text
  trail : Text

/-- The characters of the line. -/
def BracketLine.text (l : BracketLine) : Text :=
  l.lead ++ (l.front ++ '[' :: l.inside ++ ']' :: l.tail) ++ l.trail

/-- The span between the brackets. -/
def BracketLine.span (l : BracketLine) : Span :=
  { before := l.lead ++ l.front ++ ['['], old := l.inside, after := ']' :: (l.tail ++ l.trail) }

/-- The line with other contents between the brackets. -/
def BracketLine.withInside (l : BracketLine) (inside : Text) : BracketLine :=
  { l with inside }

theorem BracketLine.line_span (l : BracketLine) (new : Text) :
    l.span.line new = (l.withInside new).text := by
  simp [span, Span.line, text, withInside]

/-- The parts of a line that hold a declaration. -/
structure BracketLine.Declares (l : BracketLine) (keyword name : Text) : Prop where
  lead : Blank l.lead
  trail : Blank l.trail
  declaration : Declaration keyword name l.front l.inside l.tail (trimEnd l.text)

theorem BracketLine.Declares.withInside {l : BracketLine} {keyword name other : Text}
    (h : l.Declares keyword name) (hother : ']' ∉ other) :
    (l.withInside other).Declares keyword name :=
  ⟨h.lead, h.trail, (h.declaration.withInside h.lead h.trail hother).trimEnd⟩

/-- A line is its parts and blanks at its ends when it holds a declaration. -/
theorem Declaration.exists_bracketLine {keyword name front inside tail raw : Text}
    (h : Declaration keyword name front inside tail (Text.trimEnd raw)) :
    ∃ l : BracketLine, raw = l.text ∧ l.front = front ∧ l.inside = inside ∧ l.tail = tail ∧
      l.Declares keyword name := by
  obtain ⟨lead, trail, hlead, htrail, hraw⟩ := exists_trim raw
  have hshape : trim raw = front ++ '[' :: inside ++ ']' :: tail := by
    rw [← trim_trimEnd, h.shape]
  let l : BracketLine := { lead, front, inside, tail, trail }
  obtain rfl : raw = l.text := by rw [hraw, hshape]; rfl
  exact ⟨l, rfl, rfl, rfl, rfl, hlead, htrail, h⟩

/-- No name begins with a blank. -/
theorem bracketAfterName?_cons_of_blank {name : Text} (hname : Trimmed name) (hne : name ≠ [])
    (c : Char) (t : Text) (hc : isBlank c = true) : bracketAfterName? name (c :: t) = none := by
  obtain ⟨d, ds, rfl⟩ := List.exists_cons_of_ne_nil hne
  have hnot : d ≠ c := by
    rintro rfl
    rw [hname.head d rfl] at hc
    cases hc
  rw [bracketAfterName?, after?_cons_ne hnot]
  rfl

/-- Behind a heading and an opening bracket the text is found that follows the bracket. -/
theorem declaration?_of_heading {keyword name front : Text}
    (hpositioned : keyword ∈ positionedKeywords) (h : Heading keyword name front) (opened : Text) :
    declaration? name (front ++ '[' :: opened) = some opened := by
  obtain ⟨gap, space, rfl, hgap, hgapNe, hspace⟩ := h.parts
  have hname : bracketAfterName? name (name ++ (space ++ '[' :: opened)) = some opened := by
    have hbracket : trimStart ('[' :: opened) = '[' :: opened :=
      trimStart_eq_self_of_head (by decide)
    simp [bracketAfterName?, after?_append, trimStart_append_of_blank hspace, hbracket]
  have hhead : ∀ c ∈ (name ++ (space ++ '[' :: opened)).head?, isBlank c = false := by
    intro c hc
    apply h.trimmed.head c
    obtain ⟨d, ds, rfl⟩ := List.exists_cons_of_ne_nil h.ne_nil
    exact hc
  have hfound := hname
  rw [← afterBlanks_of_refused (bracketAfterName?_cons_of_blank h.trimmed h.ne_nil) hgap hgapNe
    hhead] at hfound
  have hsplit : keyword ++ gap ++ name ++ space ++ '[' :: opened =
      keyword ++ (gap ++ (name ++ (space ++ '[' :: opened))) := by simp
  rw [hsplit]
  -- No keyword begins like another one.
  simp only [positionedKeywords, List.mem_cons, List.not_mem_nil, or_false] at hpositioned
  rcases hpositioned with rfl | rfl | rfl
  · rw [declaration?, positionedKeywords, List.findSome?_cons, after?_append, Option.bind_some,
      hfound]
  · have hcomponent : ∀ t, after? "component".toList ("anchor".toList ++ t) = none := fun _ => rfl
    rw [declaration?, positionedKeywords, List.findSome?_cons, hcomponent, List.findSome?_cons,
      after?_append, Option.bind_some, hfound]
    rfl
  · have hcomponent : ∀ t, after? "component".toList ("submap".toList ++ t) = none := fun _ => rfl
    have hanchor : ∀ t, after? "anchor".toList ("submap".toList ++ t) = none := fun _ => rfl
    rw [declaration?, positionedKeywords, List.findSome?_cons, hcomponent, List.findSome?_cons,
      hanchor, List.findSome?_cons, after?_append, Option.bind_some, hfound]
    rfl

/-- What is matched up to follows a heading and an opening bracket. -/
theorem exists_heading_of_declaration? {name t opened : Text} (hname : Trimmed name)
    (hne : name ≠ []) (hunopened : '[' ∉ name) (h : declaration? name t = some opened) :
    ∃ keyword ∈ positionedKeywords, ∃ front, Heading keyword name front ∧
      t = front ++ '[' :: opened := by
  obtain ⟨keyword, hkeyword, hmatch⟩ := List.exists_of_findSome?_eq_some h
  obtain ⟨rest, hrest, hblanks⟩ := Option.bind_eq_some_iff.1 hmatch
  obtain ⟨gap, s, rfl, hgap, hgapNe, hbracket⟩ := exists_gap_of_afterBlanks hblanks
  obtain ⟨later, hlater, hopened⟩ := Option.bind_eq_some_iff.1 hbracket
  have hopen : trimStart later = '[' :: opened := by
    split at hopened
    · next heq => rw [heq, Option.some.inj hopened]
    · cases hopened
  obtain ⟨space, hspace, hlaterEq⟩ := exists_trimStart later
  refine ⟨keyword, hkeyword, keyword ++ gap ++ name ++ space,
    ⟨⟨gap, space, rfl, hgap, hgapNe, hspace⟩, hname, hne, hunopened⟩, ?_⟩
  rw [after?_eq_some.1 hrest, after?_eq_some.1 hlater, hlaterEq, hopen]
  simp

/-- A text in front of its first bracket is the heading of one name only. -/
theorem Heading.name_unique {keyword name name' front : Text} (h : Heading keyword name front)
    (h' : Heading keyword name' front) : name = name' := by
  obtain ⟨gap, space, hfront, hgap, -, hspace⟩ := h.parts
  obtain ⟨gap', space', hfront', hgap', -, hspace'⟩ := h'.parts
  have hboth : keyword ++ (gap ++ name ++ space) = keyword ++ (gap' ++ name' ++ space') := by
    rw [← List.append_assoc, ← List.append_assoc, ← List.append_assoc, ← List.append_assoc,
      ← hfront, ← hfront']
  have hsame : gap ++ name ++ space = gap' ++ name' ++ space' := List.append_cancel_left hboth
  rw [← trim_surrounded hgap h.trimmed hspace, hsame, trim_surrounded hgap' h'.trimmed hspace']

theorem Heading.bracket_not_mem {keyword name front : Text} (hkeyword : '[' ∉ keyword)
    (h : Heading keyword name front) : '[' ∉ front := by
  obtain ⟨gap, space, rfl, hgap, -, hspace⟩ := h.parts
  have hgapNot : '[' ∉ gap := not_mem_of_blank (by decide) hgap
  have hspaceNot : '[' ∉ space := not_mem_of_blank (by decide) hspace
  simp [hkeyword, hgapNot, h.unopened, hspaceNot]

/-- A line with a declaration declares one name only. -/
theorem Declaration.declares_iff {keyword name front inside tail line other : Text}
    (hpositioned : keyword ∈ positionedKeywords)
    (h : Declaration keyword name front inside tail line) (htrimmed : Trimmed other)
    (hne : other ≠ []) (hunopened : '[' ∉ other) : declares other line = true ↔ other = name := by
  have hshape : trim line = front ++ '[' :: (inside ++ ']' :: tail) := by simp [h.shape]
  constructor
  · intro hdeclares
    obtain ⟨opened, hopened⟩ := Option.isSome_iff_exists.1 hdeclares
    obtain ⟨keyword', hpositioned', front', hheading, htrim⟩ :=
      exists_heading_of_declaration? htrimmed hne hunopened hopened
    have hkeywords : ∀ k ∈ positionedKeywords, Token k ∧ '[' ∉ k := by decide
    obtain rfl : keyword' = keyword :=
      keyword_unique (hkeywords _ hpositioned').1 (hkeywords _ hpositioned).1
        (hheading.startsWithKeyword htrim) h.startsWithKeyword
    -- Both headings end at the first bracket of the line.
    have hnot := (hkeywords _ hpositioned).2
    have hcut := cutAt_append (hheading.bracket_not_mem hnot) opened
    rw [← htrim, hshape, cutAt_append (h.heading.bracket_not_mem hnot)] at hcut
    obtain rfl : front = front' := congrArg Prod.fst (Option.some.inj hcut)
    exact hheading.name_unique h.heading
  · rintro rfl
    rw [declares, hshape, declaration?_of_heading hpositioned h.heading]
    rfl

theorem declaration?_cons_of_blank {name : Text} {c : Char} (hc : isBlank c = true) (t : Text) :
    declaration? name (c :: t) = none := by
  have hnone : ∀ keyword ∈ positionedKeywords, after? keyword (c :: t) = none := by
    intro keyword hkeyword
    have htoken : ∀ k ∈ positionedKeywords, ∃ d ds, k = d :: ds ∧ isBlank d = false := by
      simp only [positionedKeywords, List.forall_mem_cons]
      exact ⟨⟨_, _, rfl, by decide⟩, ⟨_, _, rfl, by decide⟩, ⟨_, _, rfl, by decide⟩, by simp⟩
    obtain ⟨d, ds, rfl, hd⟩ := htoken keyword hkeyword
    apply after?_cons_ne
    rintro rfl
    rw [hd] at hc
    exact absurd hc (by decide)
  rw [declaration?, List.findSome?_eq_none_iff]
  intro keyword hkeyword
  rw [hnone keyword hkeyword]
  rfl

/-- The span between two brackets, when the line is written as its parts. -/
theorem spanToBracket_append (front tail : Text) {inside : Text} (h : ']' ∉ inside) :
    spanToBracket (front ++ '[' :: (inside ++ ']' :: tail)) (inside ++ ']' :: tail) =
      some { before := front ++ ['['], old := inside, after := ']' :: tail } := by
  have hbefore : front ++ '[' :: (inside ++ ']' :: tail) =
      (front ++ ['[']) ++ (inside ++ ']' :: tail) := by simp
  rw [spanToBracket, cutAt_append h, Option.map_some, take_before hbefore]

/-- The span that a position is written into stands between the brackets of the declaration. -/
theorem positionSpan_of_declares {keyword name : Text} {l : BracketLine}
    (hpositioned : keyword ∈ positionedKeywords) (h : l.Declares keyword name) :
    positionSpan name { raw := l.text, bare := trimEnd l.text, hidden := false } = some l.span := by
  have hheading := h.declaration.heading
  have hkeyword : positionedKeywords.any (startsWithKeyword · (trimEnd l.text)) = true :=
    List.any_eq_true.2 ⟨keyword, hpositioned, h.declaration.startsWithKeyword⟩
  have hshape : trim (trimEnd l.text) = l.front ++ '[' :: (l.inside ++ ']' :: l.tail) := by
    simp [h.declaration.shape]
  have hdeclares : declares name (trimEnd l.text) = true := by
    rw [declares, hshape, declaration?_of_heading hpositioned hheading]
    rfl
  have hraw : l.text =
      l.lead ++ (l.front ++ '[' :: (l.inside ++ ']' :: (l.tail ++ l.trail))) := by
    simp [BracketLine.text]
  have hfound : findEdge (declaration? name) false l.text =
      some (l.inside ++ ']' :: (l.tail ++ l.trail)) := by
    rw [hraw, findEdge_append_of_blank (fun c t hc => declaration?_cons_of_blank hc t) h.lead]
    exact findEdge_of_accept (declaration?_of_heading hpositioned hheading _) (by simp)
  have hspan : spanToBracket l.text (l.inside ++ ']' :: (l.tail ++ l.trail)) = some l.span := by
    rw [hraw, ← List.append_assoc, spanToBracket_append _ _ h.declaration.closed]
    rfl
  simp only [positionSpan, hkeyword, hdeclares, hfound, hspan, Option.bind_some, ↓reduceIte,
    Bool.not_true, Bool.or_false, Bool.false_eq_true]

/-- Nothing is written into a line that does not declare the name, inside of bodies or at all, and
is no note that holds it. -/
theorem positionSpan_eq_none {name : Text} {line : SourceLine}
    (hdeclares : line.hidden = true ∨ declares name line.bare = false)
    (hnote : noteHolds name line.bare = false) : positionSpan name line = none := by
  unfold positionSpan
  split
  · rcases hdeclares with h | h <;> simp [h]
  · simp [hnote]

end WardleyMaps
