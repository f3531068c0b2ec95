/-
Module: WardleyMaps.Proofs.Statement.Placed
Purpose: The shape of a statement that gives a name and a position.
Main exports: Declaration, declaration_of_readPlaced, Declaration.readPlaced,
  Declaration.withInside, declaration_of_readComponent, declaration_of_readAnchor
-/
import WardleyMaps.Proofs.Document.Pass
import WardleyMaps.Proofs.Statement.Keyword

namespace WardleyMaps

open Text

/-!
A statement with a position is, up to blanks, its keyword, a name, and a pair of brackets. The
reader finds these parts by searching and trimming; `Declaration` names them. Both say the same
(`declaration_of_readPlaced`, `Declaration.readPlaced`), so that a line with other contents between
its brackets is read with these contents and nothing else changed.
-/

/-- What stands before the brackets: a keyword, blanks, a name, and perhaps blanks. -/
structure Heading (keyword name front : Text) : Prop where
  parts : ∃ gap space, front = keyword ++ gap ++ name ++ space ∧ Blank gap ∧ gap ≠ [] ∧ Blank space
  trimmed : Trimmed name
  ne_nil : name ≠ []
  unopened : '[' ∉ name

/-- A trimmed line is a heading and a pair of brackets, up to a tail. -/
structure Declaration (keyword name front inside tail line : Text) : Prop where
  heading : Heading keyword name front
  shape : trim line = front ++ '[' :: inside ++ ']' :: tail
  closed : ']' ∉ inside

theorem requireBracket_eq_ok {statement part : String} {t : Text} {b : Bracketed} :
    requireBracket statement part t = .ok b ↔
      t = b.before ++ '[' :: b.inside ++ ']' :: b.after ∧ '[' ∉ b.before ∧ ']' ∉ b.inside := by
  have hbind : requireBracket statement part t =
      match splitBracket t with
      | .error e => .error e
      | .ok (some b) => .ok b
      | .ok none => .error (.missing statement part) := by
    unfold requireBracket
    cases splitBracket t with
    | error e => rfl
    | ok found => cases found <;> rfl
  rw [hbind]
  unfold splitBracket
  constructor
  · intro h
    cases hopen : cutAt '[' t with
    | none => simp [hopen] at h
    | some parts =>
        obtain ⟨before, rest⟩ := parts
        cases hclose : cutAt ']' rest with
        | none => simp [hopen, hclose] at h
        | some parts =>
            obtain ⟨inside, after⟩ := parts
            simp only [hopen, hclose, Except.ok.injEq] at h
            subst h
            obtain ⟨rfl, hbefore⟩ := cutAt_eq_some hopen
            obtain ⟨rfl, hinside⟩ := cutAt_eq_some hclose
            exact ⟨by simp, hbefore, hinside⟩
  · rintro ⟨rfl, hbefore, hinside⟩
    rw [List.append_assoc, List.cons_append, cutAt_append hbefore]
    simp only [cutAt_append hinside]

theorem readPlaced_eq_ok {statement : String} {t : Text} {placed : Placed} :
    readPlaced statement t = .ok placed ↔
      ∃ b, requireBracket statement "[visibility, maturity]" t = .ok b ∧
        readPosition (statement ++ " coordinates") b.inside = .ok placed.position ∧
        placed.name = trim b.before ∧ placed.tail = b.after := by
  simp only [readPlaced, bind_eq_ok, Except.ok.injEq]
  constructor
  · rintro ⟨b, hb, position, hposition, rfl⟩
    exact ⟨b, hb, hposition, rfl, rfl⟩
  · rintro ⟨b, hb, hposition, hname, htail⟩
    refine ⟨b, hb, placed.position, hposition, ?_⟩
    rw [← hname, ← htail]

/-- What is read as a name and a position stands on the line in this shape. -/
theorem declaration_of_readPlaced {keyword line : Text} {statement : String} {placed : Placed}
    (hkeyword : startsWithKeyword keyword line = true)
    (h : readPlaced statement (afterKeyword keyword line) = .ok placed) (hne : placed.name ≠ []) :
    ∃ front inside, Declaration keyword placed.name front inside placed.tail line ∧
      readPosition (statement ++ " coordinates") inside = .ok placed.position := by
  obtain ⟨b, hb, hposition, hname, htail⟩ := readPlaced_eq_ok.1 h
  obtain ⟨heq, hopen, hclose⟩ := requireBracket_eq_ok.1 hb
  obtain ⟨rest, htrim, hrest⟩ := startsWithKeyword_iff.1 hkeyword
  have hafter : afterKeyword keyword line = trim rest := by
    rw [afterKeyword, htrim, List.drop_left]
  rw [hafter] at heq
  -- The end of a trimmed line is trimmed, so only blanks in front of the name are lost.
  obtain ⟨lead, hlead, hrestEq⟩ := (htrim ▸ trimmed_trim line : Trimmed _).exists_trim_of_append
  obtain ⟨front, space, hfront, hspace, hbefore⟩ := exists_trim b.before
  rw [← hname] at hbefore
  have hgap : lead ++ front ≠ [] := by
    intro hnil
    obtain ⟨rfl, rfl⟩ := List.append_eq_nil_iff.1 hnil
    obtain ⟨c, cs, hcons⟩ := List.exists_cons_of_ne_nil hne
    have hhead : rest.head? = some c := by
      rw [hrestEq, heq, hbefore, hcons]
      rfl
    have hnot : isBlank c = false := by
      apply (trimmed_trim b.before).head c
      rw [← hname, hcons]
      rfl
    rw [hrest c hhead] at hnot
    exact absurd hnot (by decide)
  have hheading :
      Heading keyword placed.name (keyword ++ (lead ++ front) ++ placed.name ++ space) := by
    refine ⟨⟨_, _, rfl, hlead.append hfront, hgap, hspace⟩, hname ▸ trimmed_trim b.before, hne, ?_⟩
    intro hmem
    apply hopen
    rw [hbefore]
    simp [hmem]
  refine ⟨_, b.inside, ⟨hheading, ?_, hclose⟩, hposition⟩
  rw [htrim, hrestEq, heq, hbefore, htail]
  simp

theorem Heading.startsWithKeyword {keyword name front rest line : Text}
    (h : Heading keyword name front) (hshape : trim line = front ++ rest) :
    startsWithKeyword keyword line = true := by
  obtain ⟨gap, space, hfront, hgap, hne, -⟩ := h.parts
  rw [startsWithKeyword_iff]
  refine ⟨gap ++ (name ++ space ++ rest), by simp [hshape, hfront], ?_⟩
  intro c hc
  obtain ⟨d, ds, rfl⟩ := List.exists_cons_of_ne_nil hne
  simp only [List.cons_append, List.head?_cons, Option.mem_def, Option.some.injEq] at hc
  exact hc ▸ hgap d List.mem_cons_self

theorem Declaration.startsWithKeyword {keyword name front inside tail line : Text}
    (h : Declaration keyword name front inside tail line) :
    startsWithKeyword keyword line = true := by
  have hshape : trim line = front ++ ('[' :: inside ++ ']' :: tail) := by
    rw [h.shape, List.append_assoc]
  exact h.heading.startsWithKeyword hshape

/-- A line of this shape is read as its name and the position between its brackets. -/
theorem Declaration.readPlaced {keyword name front inside tail line : Text}
    (h : Declaration keyword name front inside tail line) {statement : String} {position : Position}
    (hposition : readPosition (statement ++ " coordinates") inside = .ok position) :
    readPlaced statement (afterKeyword keyword line) = .ok { name, position, tail } := by
  obtain ⟨gap, space, hfront, hgap, -, hspace⟩ := h.heading.parts
  have hline : trim line = (keyword ++ gap) ++ (name ++ space ++ '[' :: inside ++ ']' :: tail) := by
    simp [h.shape, hfront]
  have hmiddle : Trimmed (name ++ space ++ '[' :: inside ++ ']' :: tail) := by
    refine (hline ▸ trimmed_trim line).of_append ?_
    intro c hc
    obtain ⟨d, ds, hcons⟩ := List.exists_cons_of_ne_nil h.heading.ne_nil
    apply h.heading.trimmed.head c
    rw [hcons] at hc ⊢
    exact hc
  have hafter : afterKeyword keyword line = name ++ space ++ '[' :: inside ++ ']' :: tail := by
    rw [afterKeyword, hline, List.append_assoc, List.drop_left]
    have hsurrounded := trim_surrounded hgap hmiddle blank_nil
    rwa [List.append_nil] at hsurrounded
  have hname : name = trim (name ++ space) := by
    have hsurrounded := trim_surrounded blank_nil h.heading.trimmed hspace
    exact hsurrounded.symm
  have hopen : '[' ∉ name ++ space := by
    rw [List.mem_append, not_or]
    exact ⟨h.heading.unopened, not_mem_of_blank (by decide) hspace⟩
  exact readPlaced_eq_ok.2
    ⟨⟨name ++ space, inside, tail⟩, requireBracket_eq_ok.2 ⟨hafter, hopen, h.closed⟩, hposition,
      hname, rfl⟩

/-- The ends of a text with brackets do not depend on what stands between them. -/
theorem trimmed_brackets {front inside tail : Text} (hne : front ≠ [])
    (h : Trimmed (front ++ '[' :: inside ++ ']' :: tail)) (other : Text) :
    Trimmed (front ++ '[' :: other ++ ']' :: tail) := by
  constructor
  · intro c hc
    apply h.head c
    obtain ⟨d, ds, rfl⟩ := List.exists_cons_of_ne_nil hne
    exact hc
  · intro c hc
    apply h.last c
    rw [List.getLast?_append_cons] at hc ⊢
    exact hc

/-- Other contents between the brackets leave a declaration of the same name. -/
theorem Declaration.withInside {keyword name front inside tail line : Text}
    (h : Declaration keyword name front inside tail line) {lead trail other : Text}
    (hlead : Blank lead) (htrail : Blank trail) (hother : ']' ∉ other) :
    Declaration keyword name front other tail
      (lead ++ (front ++ '[' :: other ++ ']' :: tail) ++ trail) := by
  have hne : front ≠ [] := by
    obtain ⟨gap, space, rfl, -, hgap, -⟩ := h.heading.parts
    simp [hgap]
  have hmiddle := trimmed_brackets hne (h.shape ▸ trimmed_trim line) other
  exact ⟨h.heading, trim_surrounded hlead hmiddle htrail, hother⟩

/-- Blanks at the end of a line do not matter. -/
theorem Declaration.trimEnd {keyword name front inside tail line : Text}
    (h : Declaration keyword name front inside tail line) :
    Declaration keyword name front inside tail (trimEnd line) :=
  ⟨h.heading, by rw [trim_trimEnd, h.shape], h.closed⟩

/-! ### Components and anchors -/

theorem requireText_eq_ok {statement part : String} {t u : Text} :
    requireText statement part t = .ok u ↔ t ≠ [] ∧ u = t := by
  cases t <;> simp [requireText, eq_comm]

/-- The component that a name, a position and options make up. -/
def Placed.component (placed : Placed) (submap : Bool) (number : Nat) (label : LabelOffset) :
    Component :=
  let reading := readDecorators placed.tail
  { line := number
    name := placed.name
    position := placed.position
    inertia := reading.inertia || hasInertia placed.tail
    evolveTo := readInlineEvolution placed.tail
    label
    decorators := reading.decorators
    labelSpacing := reading.spacing
    reference := readReference placed.tail
    submap }

theorem readComponent_eq_ok {submap : Bool} {number : Nat} {line : Text} {c : Component} :
    readComponent submap number line = .ok c ↔
      ∃ placed label,
        readPlaced (componentKeyword submap)
          (afterKeyword (componentKeyword submap).toList line) = .ok placed ∧
        placed.name ≠ [] ∧
        readLabel (readDecorators placed.tail).spacing placed.tail = .ok label ∧
        c = placed.component submap number label := by
  simp only [readComponent, bind_eq_ok, requireText_eq_ok, Except.ok.injEq]
  constructor
  · rintro ⟨placed, hplaced, _, ⟨hne, rfl⟩, label, hlabel, rfl⟩
    exact ⟨placed, label, hplaced, hne, hlabel, rfl⟩
  · rintro ⟨placed, label, hplaced, hne, hlabel, rfl⟩
    exact ⟨placed, hplaced, _, ⟨hne, rfl⟩, label, hlabel, rfl⟩

theorem readAnchor_eq_ok {number : Nat} {line : Text} {a : Anchor} :
    readAnchor number line = .ok a ↔
      ∃ placed, readPlaced "anchor" (afterKeyword "anchor".toList line) = .ok placed ∧
        placed.name ≠ [] ∧
        a = { line := number, name := placed.name, position := placed.position } := by
  simp only [readAnchor, bind_eq_ok, requireText_eq_ok, Except.ok.injEq]
  constructor
  · rintro ⟨placed, hplaced, _, ⟨hne, rfl⟩, rfl⟩
    exact ⟨placed, hplaced, hne, rfl⟩
  · rintro ⟨placed, hplaced, hne, rfl⟩
    exact ⟨placed, hplaced, _, ⟨hne, rfl⟩, rfl⟩

theorem line_of_readComponent {submap : Bool} {number : Nat} {line : Text} {c : Component}
    (h : readComponent submap number line = .ok c) : c.line = number := by
  obtain ⟨placed, label, -, -, -, rfl⟩ := readComponent_eq_ok.1 h
  rfl

theorem line_of_readAnchor {number : Nat} {line : Text} {a : Anchor}
    (h : readAnchor number line = .ok a) : a.line = number := by
  obtain ⟨placed, -, -, rfl⟩ := readAnchor_eq_ok.1 h
  rfl

/-- A component stands on its line as a declaration, and the same line with other contents between
the brackets is read as the same component at another position. -/
theorem declaration_of_readComponent {submap : Bool} {number : Nat} {line : Text} {c : Component}
    (hkeyword : startsWithKeyword (componentKeyword submap).toList line = true)
    (h : readComponent submap number line = .ok c) :
    ∃ front inside tail,
      Declaration (componentKeyword submap).toList c.name front inside tail line ∧
      readPosition (componentKeyword submap ++ " coordinates") inside = .ok c.position ∧
      ∀ other inside' position,
        Declaration (componentKeyword submap).toList c.name front inside' tail other →
        readPosition (componentKeyword submap ++ " coordinates") inside' = .ok position →
        readComponent submap number other = .ok { c with position } := by
  obtain ⟨placed, label, hplaced, hne, hlabel, rfl⟩ := readComponent_eq_ok.1 h
  obtain ⟨front, inside, hdeclaration, hposition⟩ := declaration_of_readPlaced hkeyword hplaced hne
  refine ⟨front, inside, placed.tail, hdeclaration, hposition, ?_⟩
  intro other inside' position hother hposition'
  exact readComponent_eq_ok.2 ⟨_, label, hother.readPlaced hposition', hne, hlabel, rfl⟩

/-- The same of an anchor. -/
theorem declaration_of_readAnchor {number : Nat} {line : Text} {a : Anchor}
    (hkeyword : startsWithKeyword "anchor".toList line = true)
    (h : readAnchor number line = .ok a) :
    ∃ front inside tail,
      Declaration "anchor".toList a.name front inside tail line ∧
      readPosition ("anchor" ++ " coordinates") inside = .ok a.position ∧
      ∀ other inside' position,
        Declaration "anchor".toList a.name front inside' tail other →
        readPosition ("anchor" ++ " coordinates") inside' = .ok position →
        readAnchor number other = .ok { a with position } := by
  obtain ⟨placed, hplaced, hne, rfl⟩ := readAnchor_eq_ok.1 h
  obtain ⟨front, inside, hdeclaration, hposition⟩ := declaration_of_readPlaced hkeyword hplaced hne
  refine ⟨front, inside, placed.tail, hdeclaration, hposition, ?_⟩
  intro other inside' position hother hposition'
  exact readAnchor_eq_ok.2 ⟨_, hother.readPlaced hposition', hne, rfl⟩

end WardleyMaps
