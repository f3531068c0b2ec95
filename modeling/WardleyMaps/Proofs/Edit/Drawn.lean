/-
Module: WardleyMaps.Proofs.Edit.Drawn
Purpose: The entity that a name refers to, and the entity that is moved by this name.
Main exports: Movable.positioned, Document.Clear, Movable.Visible, mem_matchingLines_iff_visible,
  updatePosition_first, updatePosition_drawn
-/
import Mathlib.Data.List.Nodup
import WardleyMaps.Document.Lookup
import WardleyMaps.Proofs.Edit.Frame
import WardleyMaps.Proofs.Edit.Move

namespace WardleyMaps

open Text

/-!
A name is drawn by kind, as a component before an anchor and as an anchor before a submap, and it is
moved by line, at the first declaration outside of bodies. When no two entities of a kind share a
name, only entities of another kind come between the two: the one that is drawn is the one that is
moved exactly when no such entity of the name stands above it (`updatePosition_drawn`).
-/

/-- What is drawn for a name that refers to the entity. -/
def Movable.positioned : Movable → Positioned
  | .element c | .submap c => .component c
  | .anchor a => .anchor a

/-- The name that is drawn. -/
def Positioned.name : Positioned → Text
  | .component c => c.name
  | .anchor a => a.name

/-- No two entities of a kind share a name. -/
structure Document.NamesUnique (doc : Document) : Prop where
  elements : (doc.elements.map (·.name)).Nodup
  anchors : (doc.anchors.map (·.name)).Nodup
  submaps : (doc.submaps.map (·.name)).Nodup

/-- The document is what a source without comments is read as, its names are unique, each line that
declares the given name can be read, and no note holds this name. -/
structure Document.Clear (source name : Text) (doc : Document) : Prop where
  read : Document.read source = .ok doc
  uncommented : ∀ form ∈ sourceForms source, form.bare = trimEnd form.raw
  unique : doc.NamesUnique
  readable : ∀ problem ∈ doc.problems, problem.line ∉ matchingLines source name
  unnoted : ∀ form ∈ sourceForms source, noteHolds name form.bare = false

instance (doc : Document) : Decidable doc.NamesUnique :=
  decidable_of_iff ((doc.elements.map (·.name)).Nodup ∧ (doc.anchors.map (·.name)).Nodup ∧
      (doc.submaps.map (·.name)).Nodup)
    ⟨fun h => ⟨h.1, h.2.1, h.2.2⟩, fun h => ⟨h.elements, h.anchors, h.submaps⟩⟩

instance (source name : Text) (doc : Document) : Decidable (doc.Clear source name) :=
  decidable_of_iff (Document.read source = .ok doc ∧
      (∀ form ∈ sourceForms source, form.bare = trimEnd form.raw) ∧ doc.NamesUnique ∧
      (∀ problem ∈ doc.problems, problem.line ∉ matchingLines source name) ∧
      ∀ form ∈ sourceForms source, noteHolds name form.bare = false)
    ⟨fun h => ⟨h.1, h.2.1, h.2.2.1, h.2.2.2.1, h.2.2.2.2⟩,
      fun h => ⟨h.read, h.uncommented, h.unique, h.readable, h.unnoted⟩⟩

/-- The entity belongs to the document, has the name, and stands outside of bodies. -/
structure Movable.Visible (source name : Text) (doc : Document) (d : Movable) : Prop where
  of : d.Of doc
  named : d.name = name
  outside : (inBody (bareLines source))[d.line - 1]? = some false

/-! ### Names -/

/-- Whatever a name refers to is drawn under this name. -/
theorem Document.name_of_positionedNamed? {doc : Document} {name : Text} {found : Positioned}
    (h : doc.positionedNamed? name = some found) : found.name = name := by
  simp only [positionedNamed?, elementNamed?, Option.orElse_eq_orElse, Option.orElse_eq_or,
    Option.or_eq_some_iff, Option.map_eq_some_iff] at h
  rcases h with ⟨c, hc, rfl⟩ | ⟨-, ⟨a, ha, rfl⟩ | ⟨-, ⟨c, hc, rfl⟩ | ⟨-, c, hc, rfl⟩⟩⟩
  · simpa [Positioned.name] using List.find?_some hc
  · simpa [Positioned.name] using List.find?_some ha
  · simpa [Positioned.name] using List.find?_some hc
  · obtain ⟨e, he, hbase⟩ := List.exists_of_findSome?_eq_some hc
    obtain ⟨base, -, rfl⟩ := Option.map_eq_some_iff.1 hbase
    exact of_decide_eq_true (List.mem_filter.1 he).2

theorem Movable.name_positioned (d : Movable) : d.positioned.name = d.name := by
  cases d <;> rfl

/-- There is one entity of a kind and a name. -/
theorem Document.NamesUnique.eq_of_name {doc : Document} (h : doc.NamesUnique) {d other : Movable}
    (hd : d.Of doc) (hother : other.Of doc) (hkeyword : other.keyword = d.keyword)
    (hname : other.name = d.name) : other = d := by
  cases d with
  | element c =>
      cases other with
      | element c' => exact congrArg _ (List.inj_on_of_nodup_map h.elements hother hd hname)
      | anchor a' | submap c' => simp [Movable.keyword, componentKeyword] at hkeyword
  | anchor a =>
      cases other with
      | anchor a' => exact congrArg _ (List.inj_on_of_nodup_map h.anchors hother hd hname)
      | element c' | submap c' => simp [Movable.keyword, componentKeyword] at hkeyword
  | submap c =>
      cases other with
      | submap c' => exact congrArg _ (List.inj_on_of_nodup_map h.submaps hother hd hname)
      | element c' | anchor a' => simp [Movable.keyword, componentKeyword] at hkeyword

/-! ### The lines that declare a name -/

theorem Findings.mem_problems_document {f : Findings} {problems : List Problem} {problem : Problem}
    (hmem : problems ∈ f.problems) (h : problem ∈ problems) (annotations : List NumberedNote) :
    problem ∈ (f.document annotations).problems :=
  List.mem_mergeSort.2 (List.mem_flatten.2 ⟨problems, hmem, h⟩)

/-- A line outside of bodies with the keyword of a position is an entity or a problem. -/
theorem exists_movable_or_problem {source keyword line : Text} {doc : Document} {i : Nat}
    (hread : Document.read source = .ok doc) (hpositioned : keyword ∈ positionedKeywords)
    (hkeyword : startsWithKeyword keyword line = true) (hline : (bareLines source)[i]? = some line)
    (hvisible : (inBody (bareLines source))[i]? = some false) :
    (∃ d : Movable, d.Of doc ∧ d.ReadOn (i + 1) line ∧
      startsWithKeyword d.keyword.toList line = true) ∨
      ∃ problem ∈ doc.problems, problem.line = i + 1 := by
  obtain ⟨annotations, -, rfl⟩ := Document.read_eq_ok.1 hread
  let f := Findings.ofLines (bareLines source)
  have hproblems : f.elements.problems ∈ f.problems ∧ f.anchors.problems ∈ f.problems ∧
      f.submaps.problems ∈ f.problems := by
    simp [Findings.problems]
  simp only [positionedKeywords, List.mem_cons, List.not_mem_nil, or_false] at hpositioned
  rcases hpositioned with rfl | rfl | rfl
  · have hfound : (∃ c ∈ f.elements.items, readComponent false (i + 1) line = .ok c) ∨
        ∃ problem ∈ f.elements.problems, problem.line = i + 1 :=
      item_or_problem_of_keyword (maskBodies_of_visible hline hvisible) hkeyword
    rcases hfound with ⟨c, hc, hbuild⟩ | ⟨problem, hproblem, hnumber⟩
    · exact .inl ⟨.element c, hc, hbuild, hkeyword⟩
    · exact .inr ⟨problem, Findings.mem_problems_document hproblems.1 hproblem _, hnumber⟩
  · have hfound : (∃ a ∈ f.anchors.items, readAnchor (i + 1) line = .ok a) ∨
        ∃ problem ∈ f.anchors.problems, problem.line = i + 1 :=
      item_or_problem_of_keyword hline hkeyword
    rcases hfound with ⟨a, ha, hbuild⟩ | ⟨problem, hproblem, hnumber⟩
    · exact .inl ⟨.anchor a, ha, hbuild, hkeyword⟩
    · exact .inr ⟨problem, Findings.mem_problems_document hproblems.2.1 hproblem _, hnumber⟩
  · have hfound : (∃ c ∈ f.submaps.items, readComponent true (i + 1) line = .ok c) ∨
        ∃ problem ∈ f.submaps.problems, problem.line = i + 1 :=
      item_or_problem_of_keyword hline hkeyword
    rcases hfound with ⟨c, hc, hbuild⟩ | ⟨problem, hproblem, hnumber⟩
    · exact .inl ⟨.submap c, hc, hbuild, hkeyword⟩
    · exact .inr ⟨problem, Findings.mem_problems_document hproblems.2.2 hproblem _, hnumber⟩

/-- An entity outside of bodies stands on its line as a declaration. -/
theorem Movable.Visible.exists_form {source name : Text} {doc : Document} {d : Movable}
    (h : d.Visible source name doc) (hread : Document.read source = .ok doc) :
    ∃ i form front inside tail, d.line = i + 1 ∧ (sourceForms source)[i]? = some form ∧
      form.hidden = false ∧ Declaration d.keyword.toList name front inside tail form.bare := by
  obtain ⟨i, bare, hnumber, hbare, hkeyword, hreadOn⟩ := h.of.exists_line hread
  obtain ⟨form, hform, rfl⟩ := exists_form_of_bare hbare
  obtain ⟨front, inside, tail, hdeclaration, -⟩ := hreadOn.declaration hkeyword
  have hflag := h.outside
  rw [hnumber, Nat.add_sub_cancel] at hflag
  rw [h.named] at hdeclaration
  exact ⟨i, form, front, inside, tail, hnumber, hform,
    Option.some.inj ((sourceForms_getElem?.1 hform).2.2.symm.trans hflag), hdeclaration⟩

/-- The lines that declare a name are those of the entities of this name outside of bodies. -/
theorem mem_matchingLines_iff_visible {source name keyword front : Text} {doc : Document}
    (h : doc.Clear source name) (hname : Heading keyword name front) {number : Nat} :
    number ∈ matchingLines source name ↔
      ∃ d : Movable, d.Visible source name doc ∧ d.line = number := by
  constructor
  · intro hmem
    obtain ⟨i, form, rfl, hform, hhidden, hdeclares⟩ := mem_matchingLines.1 hmem
    obtain ⟨-, hline, hflag⟩ := sourceForms_getElem?.1 hform
    rw [hhidden] at hflag
    obtain ⟨opened, hopened⟩ := Option.isSome_iff_exists.1 hdeclares
    obtain ⟨keyword', hpositioned, front', hheading, htrim⟩ :=
      exists_heading_of_declaration? hname.trimmed hname.ne_nil hname.unopened hopened
    rcases exists_movable_or_problem h.read hpositioned (hheading.startsWithKeyword htrim) hline
      hflag with ⟨d, hd, hreadOn, hkeyword⟩ | ⟨problem, hproblem, hnumber⟩
    · obtain ⟨_, _, _, hdeclaration, -⟩ := hreadOn.declaration hkeyword
      have hnamed := (hdeclaration.declares_iff d.keyword_positioned hname.trimmed hname.ne_nil
        hname.unopened).1 hdeclares
      have hnumber := hreadOn.line_eq
      exact ⟨d, ⟨hd, hnamed.symm, by simpa [hnumber] using hflag⟩, hnumber⟩
    · exact absurd (hnumber ▸ hmem) (h.readable problem hproblem)
  · rintro ⟨d, hd, rfl⟩
    obtain ⟨i, form, _, _, _, hnumber, hform, hhidden, hdeclaration⟩ := hd.exists_form h.read
    have hdeclares := (hdeclaration.declares_iff d.keyword_positioned hname.trimmed hname.ne_nil
      hname.unopened).2 rfl
    exact mem_matchingLines.2 ⟨i, form, hnumber, hform, hhidden, hdeclares⟩

/-! ### The line that is moved -/

/-- A position is written into the lines that declare the name, and into no other ones. -/
theorem positionSpan_isSome_iff {source name keyword front : Text} {doc : Document}
    (h : doc.Clear source name) (hname : Heading keyword name front) {i : Nat} {form : SourceLine}
    (hform : (sourceForms source)[i]? = some form) :
    (positionSpan name form).isSome ↔ i + 1 ∈ matchingLines source name := by
  constructor
  · intro hsome
    by_contra hnot
    have hnote := h.unnoted form (List.mem_of_getElem? hform)
    rw [positionSpan_eq_none_of_not_mem hform hnot hnote] at hsome
    cases hsome
  · intro hmem
    obtain ⟨d, hd, hnumber⟩ := (mem_matchingLines_iff_visible h hname).1 hmem
    obtain ⟨j, other, _, _, _, hline, hother, hhidden, hdeclaration⟩ := hd.exists_form h.read
    obtain rfl : j = i := by omega
    obtain rfl : other = form := Option.some.inj (hother.symm.trans hform)
    obtain ⟨raw, bare, hidden⟩ := other
    obtain rfl : bare = trimEnd raw := h.uncommented _ (List.mem_of_getElem? hform)
    obtain ⟨l, rfl, -, -, -, hdeclares⟩ := hdeclaration.exists_bracketLine
    subst hhidden
    rw [positionSpan_of_declares d.keyword_positioned hdeclares]
    rfl

theorem exists_pairText {precision : Int} (h : 0 ≤ precision)
    (hlimit : precision < (Nat.pow 2 31 : Nat)) (position : Position) :
    ∃ pair, pairText precision position = .ok pair := by
  have hfixed : ∀ x : Double, x.fixedText precision = .ok (x.fixed precision.toNat) := by
    intro x
    rw [Double.fixedText, placesOf_eq_ok h hlimit]
    rfl
  exact ⟨_, pairText_eq_ok.2 ⟨_, _, hfixed _, hfixed _, rfl⟩⟩

/-- A position is written into the first of the lines that declare the name. -/
theorem updatePosition_first {source name keyword front : Text} {doc : Document}
    {precision : Int} (h : doc.Clear source name)
    (hname : Heading keyword name front) (hdeclared : matchingLines source name ≠ [])
    (hprecision : 0 ≤ precision) (hlimit : precision < (Nat.pow 2 31 : Nat))
    (position : Position) :
    ∃ edited, updatePosition source name position precision = .ok (some edited) ∧
      edited.lineNumber ∈ matchingLines source name ∧
      ∀ number ∈ matchingLines source name, edited.lineNumber ≤ number := by
  obtain ⟨pair, hpair⟩ := exists_pairText hprecision hlimit position
  cases hlocated : locateFirst (positionSpan name) (sourceForms source) with
  | none =>
      obtain ⟨number, hmem⟩ := List.exists_mem_of_ne_nil _ hdeclared
      obtain ⟨i, form, rfl, hform, -⟩ := mem_matchingLines.1 hmem
      have hsome := (positionSpan_isSome_iff h hname hform).2 hmem
      rw [locateFirst_eq_none.1 hlocated form (List.mem_of_getElem? hform)] at hsome
      cases hsome
  | some p =>
      obtain ⟨form, hform, hspan, hfirst⟩ := exists_form_of_locateFirst hlocated
      refine ⟨p.write pair, updatePosition_eq_ok.2 ⟨p, pair, hlocated, hpair, rfl⟩, ?_, ?_⟩
      · exact (positionSpan_isSome_iff h hname hform).1 (by rw [hspan]; rfl)
      · intro number hmem
        obtain ⟨j, other, rfl, hother, -⟩ := mem_matchingLines.1 hmem
        have hsome := (positionSpan_isSome_iff h hname hother).2 hmem
        by_contra hlt
        have hj : j < p.above.length := by
          simp only [EditPlace.write, EditPlace.lineNumber] at hlt
          omega
        rw [hfirst j hj other hother] at hsome
        cases hsome

/-- In a source without comments a name that refers to an entity outside of bodies is moved there
exactly when no entity of another kind and of this name, outside of bodies as well, stands above it.
-/
theorem updatePosition_drawn {source name : Text} {doc : Document} {d : Movable} {precision : Int}
    (h : doc.Clear source name) (hdrawn : doc.positionedNamed? name = some d.positioned)
    (hd : d.Of doc) (houtside : (inBody (bareLines source))[d.line - 1]? = some false)
    (hprecision : 0 ≤ precision) (hlimit : precision < (Nat.pow 2 31 : Nat)) (position : Position) :
    ∃ edited, updatePosition source name position precision = .ok (some edited) ∧
      (edited.lineNumber = d.line ↔ ∀ other : Movable, other.Visible source name doc →
        other.keyword ≠ d.keyword → d.line ≤ other.line) := by
  have hnamed : d.name = name :=
    d.name_positioned.symm.trans (Document.name_of_positionedNamed? hdrawn)
  have hvisible : d.Visible source name doc := ⟨hd, hnamed, houtside⟩
  obtain ⟨_, _, front, _, _, -, -, -, hdeclaration⟩ := hvisible.exists_form h.read
  have hlines : ∀ number, number ∈ matchingLines source name ↔
      ∃ other : Movable, other.Visible source name doc ∧ other.line = number :=
    fun _ => mem_matchingLines_iff_visible h hdeclaration.heading
  have hmem : d.line ∈ matchingLines source name := (hlines _).2 ⟨d, hvisible, rfl⟩
  obtain ⟨edited, hupdate, hedited, hleast⟩ := updatePosition_first h hdeclaration.heading
    (List.ne_nil_of_mem hmem) hprecision hlimit position
  refine ⟨edited, hupdate, ?_, ?_⟩
  · intro heq other hother _
    rw [← heq]
    exact hleast _ ((hlines _).2 ⟨other, hother, rfl⟩)
  · intro hfirst
    obtain ⟨other, hother, hnumber⟩ := (hlines _).1 hedited
    by_cases hkeyword : other.keyword = d.keyword
    · -- Of the same kind and name it is the entity itself.
      rw [← hnumber,
        h.unique.eq_of_name hd hother.of hkeyword (hother.named.trans hnamed.symm)]
    · exact le_antisymm (hleast _ hmem) (hnumber ▸ hfirst other hother hkeyword)

/-- A component is moved when the anchor of its name stands below it. -/
theorem updatePosition_drawn_above :
    let source := "component Tea [0.5, 0.5]\nanchor Tea [0.9, 0.1]".toList
    let tea : Component :=
      { line := 1, name := "Tea".toList, position := { visibility := 0.5, maturity := 0.5 } }
    let cup : Anchor :=
      { line := 2, name := "Tea".toList, position := { visibility := 0.9, maturity := 0.1 } }
    let doc : Document := { elements := [tea], anchors := [cup] }
    doc.Clear source tea.name ∧ doc.positionedNamed? tea.name = some (.component tea) ∧
      ∃ edited, updatePosition source tea.name { visibility := 0.2, maturity := 0.3 } 2 =
        .ok (some edited) ∧ edited.lineNumber = tea.line := by
  intro source tea cup doc
  have hclear : doc.Clear source tea.name := by decide +kernel
  have hdrawn : doc.positionedNamed? tea.name = some (Movable.element tea).positioned := by
    decide +kernel
  have hprecision : (0 : Int) ≤ 2 := by decide
  obtain ⟨edited, hupdate, hmoved⟩ := updatePosition_drawn hclear hdrawn
    (List.mem_singleton_self tea) (by decide +kernel) hprecision (by decide)
    { visibility := 0.2, maturity := 0.3 }
  refine ⟨hclear, hdrawn, edited, hupdate, hmoved.2 ?_⟩
  intro other hother _
  cases other with
  | element c => exact (congrArg Component.line (List.mem_singleton.1 hother.of)).ge
  | anchor a =>
      obtain rfl : a = cup := List.mem_singleton.1 hother.of
      decide
  | submap c => cases hother.of

/-- An anchor above the component of the same name is moved in its place. -/
theorem not_moved_of_anchor_above :
    ¬ ∀ (source name : Text) (doc : Document) (d : Movable) (position : Position) (precision : Int),
      doc.Clear source name → doc.positionedNamed? name = some d.positioned → d.Of doc →
      (inBody (bareLines source))[d.line - 1]? = some false → 0 ≤ precision →
      precision < (Nat.pow 2 31 : Nat) →
      ∃ edited, updatePosition source name position precision = .ok (some edited) ∧
        edited.lineNumber = d.line := by
  let source : Text := "anchor A [0.9, 0.1]\ncomponent A [0.5, 0.5]".toList
  let anchor : Anchor :=
    { line := 1, name := "A".toList, position := { visibility := 0.9, maturity := 0.1 } }
  let component : Component :=
    { line := 2, name := "A".toList, position := { visibility := 0.5, maturity := 0.5 } }
  let doc : Document := { elements := [component], anchors := [anchor] }
  have hclear : doc.Clear source "A".toList := by decide +kernel
  intro h
  obtain ⟨edited, hupdate, hline⟩ := h source "A".toList doc (.element component)
    { visibility := 0.2, maturity := 0.3 } 2 hclear (by decide +kernel)
    (List.mem_singleton_self component) (by decide +kernel) (by decide) (by decide)
  have hfirst : updatePosition source "A".toList { visibility := 0.2, maturity := 0.3 } 2 =
      .ok (some
        { lineNumber := 1, written := "0.20, 0.30".toList,
          source := "anchor A [0.20, 0.30]\ncomponent A [0.5, 0.5]".toList }) := by
    decide +kernel
  obtain rfl := Option.some.inj (Except.ok.inj (hfirst.symm.trans hupdate))
  exact absurd hline (by decide)

end WardleyMaps
