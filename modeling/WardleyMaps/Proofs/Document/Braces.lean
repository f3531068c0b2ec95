/-
Module: WardleyMaps.Proofs.Document.Braces
Purpose: Both searches for bodies of braces agree, and what that means for the components.
Main exports: bodyPlaces, childOn, BracesAgree, Document.ComponentsInBodies, mem_bodyPlaces,
  componentsInBodies_of_read
-/
import WardleyMaps.Proofs.Document.Header

namespace WardleyMaps

open Text

/-!
One search goes through all lines and marks those inside closed bodies (`bodyLines`), the other one
looks ahead from a header for the body that it owns (`bodyPlaces`). What the second one finds was
marked by the first one, no two headers find the same line, and a header finds its body unclosed
only if the first search marks no line below it (`BracesAgree`). So a component is either an element
of the map or belongs to one pipeline, and a pipeline has all components of its body
(`Document.ComponentsInBodies`).
-/

/-- The places of the lines between the braces of the body of a header, counted from zero. -/
def bodyPlaces (bare : List Text) (place : Nat) (header : Text) : List Nat :=
  match pipelineBody header (bare.drop (place + 1)) with
  | .closed skipped inner => List.range' (place + 1 + skipped) inner.length
  | _ => []

/-- The component of a pipeline that a line declares, if it declares one and can be read. -/
def childOn (bare : List Text) (i : Nat) : Option PipelineChild :=
  bare[i]?.bind fun line =>
    if startsWithKeyword "component".toList line then (readPipelineChild (i + 1) line).toOption
    else none

/-- Lines in which both searches for bodies agree. -/
structure BracesAgree (bare : List Text) : Prop where
  /-- The lines in the body of a header lie inside of bodies. -/
  inside : ∀ place header, HeaderAt bare place header →
    ∀ i ∈ bodyPlaces bare place header, i ∈ bodyLines bare
  /-- No line lies in the bodies of two headers. -/
  disjoint : ∀ place header other header', HeaderAt bare place header →
    HeaderAt bare other header' → place ≠ other →
      (bodyPlaces bare place header).Disjoint (bodyPlaces bare other header')
  /-- Below a header with an unclosed body no line lies inside of a body. -/
  unclosed : ∀ place header, HeaderAt bare place header →
    pipelineBody header (bare.drop (place + 1)) = .unclosed → ∀ i ∈ bodyLines bare, i < place

/-- A document in which components are either elements or belong to the pipeline whose body they
stand in. -/
structure Document.ComponentsInBodies (source : Text) (doc : Document) : Prop where
  /-- No line is both an element and a component of a pipeline. -/
  apart : ∀ c ∈ doc.elements, ∀ p ∈ doc.pipelines, ∀ child ∈ p.children, c.line ≠ child.line
  /-- The components of all pipelines, one pipeline after the other, are in the strict order of
  their lines. -/
  ordered : ((doc.pipelines.flatMap (·.children)).map (·.line)).Pairwise (· < ·)
  /-- The components of a pipeline are those that the lines of its body declare. -/
  complete : ∀ p ∈ doc.pipelines, ∃ place header, HeaderAt (bareLines source) place header ∧
    p.line = place + 1 ∧
    p.children =
      (bodyPlaces (bareLines source) place header).filterMap (childOn (bareLines source))

/-! ### Marked lines -/

theorem mem_bodyLines {bare : List Text} {i : Nat} :
    i ∈ bodyLines bare ↔ (inBody bare)[i]? = some true := by
  simp only [bodyLines, List.mem_map, List.mem_filter]
  constructor
  · rintro ⟨⟨flag, number⟩, ⟨hmem, hflag⟩, rfl⟩
    obtain rfl : flag = true := hflag
    exact List.mk_mem_zipIdx_iff_getElem?.1 hmem
  · intro h
    exact ⟨(true, i), ⟨List.mk_mem_zipIdx_iff_getElem?.2 h, rfl⟩, rfl⟩

/-- Where no line closes a body, none lies inside of a closed one. -/
theorem inBodyFrom_of_unclosed {ls : List Text} (h : ls.any closesBody = false) (isOpen : Bool) :
    ∀ flag ∈ inBodyFrom isOpen ls, flag = false := by
  induction ls generalizing isOpen with
  | nil => cases isOpen <;> simp [inBodyFrom]
  | cons line rest ih =>
      rw [List.any_cons, Bool.or_eq_false_iff] at h
      rw [inBodyFrom_cons]
      refine List.forall_mem_cons.2 ⟨?_, ih h.2 _⟩
      cases isOpen <;> simp [hiddenBy, h.1, h.2]

/-! ### The body of a header -/

theorem any_closesBody_of_untilClosed {skipped : Nat} {ls : List Text}
    (h : untilClosed skipped ls = .unclosed) : ls.any closesBody = false := by
  rw [untilClosed] at h
  split at h
  · cases h
  · next hany => simpa using hany

theorem any_closesBody_of_bodyBelow {skipped : Nat} {ls : List Text}
    (h : bodyBelow skipped ls = .unclosed) : ls.any closesBody = false := by
  induction ls generalizing skipped with
  | nil => rfl
  | cons line rest ih =>
      rw [bodyBelow] at h
      rw [List.any_cons, Bool.or_eq_false_iff]
      split at h
      · next hblank =>
        exact ⟨closesBody_of_trim_nil (List.isEmpty_iff.1 hblank), ih h⟩
      · split at h
        · split at h
          · cases h
          · next hc => exact ⟨eq_false_of_ne_true hc, any_closesBody_of_untilClosed h⟩
        · cases h

/-- The body of a header is unclosed only if no line below closes any. -/
theorem any_closesBody_of_pipelineBody {header : Text} {below : List Text}
    (h : pipelineBody header below = .unclosed) : below.any closesBody = false := by
  rw [pipelineBody] at h
  split at h
  · exact any_closesBody_of_untilClosed h
  · exact any_closesBody_of_bodyBelow h

theorem mem_bodyPlaces {bare : List Text} {place i : Nat} {header : Text}
    (h : HeaderAt bare place header) :
    i ∈ bodyPlaces bare place header ↔ ∃ line, BodyLine bare place i line := by
  constructor
  · intro hmem
    rw [bodyPlaces] at hmem
    split at hmem
    · next skipped inner hbody =>
      obtain ⟨j, hj, rfl⟩ := List.mem_range'.1 hmem
      exact ⟨inner[j], header, skipped, inner, j, h, hbody, List.getElem?_eq_getElem hj, by omega⟩
    · cases hmem
  · rintro ⟨line, header', skipped, inner, j, hheader, hbody, hline, rfl⟩
    obtain rfl : header = header' := Option.some.inj (h.line.symm.trans hheader.line)
    rw [bodyPlaces, hbody]
    exact List.mem_range'.2 ⟨j, (List.getElem?_eq_some_iff.1 hline).1, by omega⟩

theorem pairwise_bodyPlaces (bare : List Text) (place : Nat) (header : Text) :
    (bodyPlaces bare place header).Pairwise (· < ·) := by
  rw [bodyPlaces]
  split
  · exact List.pairwise_lt_range'
  · exact List.Pairwise.nil

theorem bracesAgree (bare : List Text) : BracesAgree bare := by
  constructor
  · intro place header hheader i hi
    obtain ⟨line, hline⟩ := (mem_bodyPlaces hheader).1 hi
    exact mem_bodyLines.2 hline.hidden.2
  · intro place header other header' hheader hheader' hne
    apply List.disjoint_left.2
    intro i hi hi'
    obtain ⟨line, hline⟩ := (mem_bodyPlaces hheader).1 hi
    obtain ⟨line', hline'⟩ := (mem_bodyPlaces hheader').1 hi'
    rcases Nat.lt_or_gt_of_ne hne with hlt | hlt
    · exact Nat.lt_asymm (hline.lt_later hheader' hlt) hline'.lt
    · exact Nat.lt_asymm (hline'.lt_later hheader hlt) hline.lt
  · intro place header hheader hbody i hi
    obtain ⟨above, below, rfl, rfl, hvisible⟩ := hheader.exists_around
    rw [drop_around rfl] at hbody
    obtain ⟨flags, hlen, hflags⟩ := exists_inBodyFrom_append false above (header :: below)
    by_contra hge
    rw [mem_bodyLines, inBody, hflags, inBodyFrom_cons, hvisible,
      List.getElem?_append_right (by omega)] at hi
    rcases List.mem_cons.1 (List.mem_of_getElem? hi) with hfalse | hmem
    · cases hfalse
    · cases inBodyFrom_of_unclosed (any_closesBody_of_pipelineBody hbody) _ _ hmem

/-! ### Components -/

theorem line_of_childOn {bare : List Text} {i : Nat} {child : PipelineChild}
    (h : childOn bare i = some child) : child.line = i + 1 := by
  obtain ⟨line, -, hchild⟩ := Option.bind_eq_some_iff.1 h
  split at hchild
  · cases hread : readPipelineChild (i + 1) line with
    | error cause => simp [hread, Except.toOption] at hchild
    | ok found =>
        obtain rfl : found = child := by simpa [hread, Except.toOption] using hchild
        exact line_of_readPipelineChild hread
  · cases hchild

theorem itemOn_component {bare : List Text} {i : Nat} {line : Text} (h : bare[i]? = some line) :
    itemOn (kindOf [()] fun _ => "component") (fun _ => readPipelineChild) (line, i + 1) =
      childOn bare i := by
  rw [itemOn, childOn, h, Option.bind_some]
  split
  · next hkeyword => rw [kindOf_unit hkeyword, Option.bind_some]
  · next hkeyword =>
    have hnone : kindOf [()] (fun _ => "component") line = none :=
      kindOf_eq_none.2 fun _ _ => eq_false_of_ne_true hkeyword
    rw [hnone, Option.bind_none]

/-- The pass over the components of a body reads them from the places of their lines. -/
theorem items_component {bare inner : List Text} {n : Nat}
    (h : ∀ j line, inner[j]? = some line → bare[n + j]? = some line) :
    (collectKeyword "component" readPipelineChild (inner.zipIdx (n + 1))).items =
      (List.range' n inner.length).filterMap (childOn bare) := by
  rw [collectKeyword, collect_eq]
  simp only
  induction inner generalizing n with
  | nil => rfl
  | cons line rest ih =>
      have hrest : ∀ j other, rest[j]? = some other → bare[n + 1 + j]? = some other := by
        intro j other hj
        rw [Nat.add_right_comm, Nat.add_assoc]
        exact h (j + 1) other hj
      have hline : bare[n]? = some line := h 0 line rfl
      rw [List.zipIdx_cons, List.length_cons, List.range'_succ, List.filterMap_cons,
        List.filterMap_cons, itemOn_component hline, ih hrest]

/-- A pipeline has the components of the body of its header. -/
theorem exists_header_of_pipeline {bare : List Text} {pipeline : Pipeline}
    (hmem : pipeline ∈ (readPipelines ((inBody bare).zip (bare.zipIdx 1))).items) :
    ∃ place header, HeaderAt bare place header ∧ pipeline.line = place + 1 ∧
      pipeline.children = (bodyPlaces bare place header).filterMap (childOn bare) := by
  obtain ⟨place, header, p, hheader, -, hline, hchildren⟩ := exists_header_of_item hmem
  refine ⟨place, header, hheader, hline, ?_⟩
  rw [hchildren, readChildren, bodyPlaces]
  cases hbody : pipelineBody header (bare.drop (place + 1)) with
  | missing => rfl
  | unclosed => rfl
  | closed skipped inner =>
      simp only
      rw [Nat.add_right_comm (place + 1) 1 skipped]
      refine items_component fun j line hj => ?_
      exact (BodyLine.mk ⟨header, skipped, inner, j, hheader, hbody, hj, rfl⟩).hidden.1

/-- Pipelines come in the order of their lines. -/
theorem pairwise_pipelines (bare : List Text) :
    (readPipelines ((inBody bare).zip (bare.zipIdx 1))).items.Pairwise
      fun p q => p.line < q.line := by
  have hline : ∀ {h p}, pipelineOf h = some p → p.line = h.1.2 := by
    intro h p hp
    obtain ⟨q, hread, rfl⟩ := pipelineOf_eq_some.1 hp
    rw [Pipeline.line_withChildren, (readPipelineHeader_eq_ok hread).1]
  rw [readPipelines_eq]
  refine List.Pairwise.filterMap pipelineOf (fun a b hlt p hp q hq => ?_)
    (pairwise_headersFrom bare)
  rw [hline hp, hline hq]
  exact hlt

/-- Both searches for bodies agree in all lines, so that in every document a component is either an
element or belongs to the one pipeline in whose body it stands. -/
theorem componentsInBodies_of_read :
    (∀ bare, BracesAgree bare) ∧
      ∀ source doc, Document.read source = .ok doc → doc.ComponentsInBodies source := by
  refine ⟨bracesAgree, fun source doc h => ?_⟩
  obtain ⟨annotations, -, rfl⟩ := Document.read_eq_ok.1 h
  have hchild : ∀ {place header child}, HeaderAt (bareLines source) place header →
      child ∈ (bodyPlaces (bareLines source) place header).filterMap
        (childOn (bareLines source)) →
      ∃ i line, child.line = i + 1 ∧ BodyLine (bareLines source) place i line := by
    intro place header child hheader hmem
    obtain ⟨i, hi, hchild⟩ := List.mem_filterMap.1 hmem
    obtain ⟨line, hline⟩ := (mem_bodyPlaces hheader).1 hi
    exact ⟨i, line, line_of_childOn hchild, hline⟩
  constructor
  · intro c hc p hp child hmem hsame
    obtain ⟨place, header, hheader, -, hchildren⟩ := exists_header_of_pipeline hp
    obtain ⟨i, line, hi, hbody⟩ := hchild hheader (hchildren ▸ hmem)
    obtain ⟨j, other, -, hvisible, -, hread⟩ := exists_visible_line_of_keyword (by decide) hc
    have hplaces : j = i := by
      have hj := line_of_readComponent hread
      omega
    rw [hplaces, hbody.hidden.2] at hvisible
    cases hvisible
  · refine List.pairwise_map.2 (List.pairwise_flatMap.2 ⟨fun p hp => ?_, ?_⟩)
    · obtain ⟨place, header, hheader, -, hchildren⟩ := exists_header_of_pipeline hp
      rw [hchildren]
      refine List.Pairwise.filterMap _ (fun i j hlt child hi other hj => ?_)
        (pairwise_bodyPlaces (bareLines source) place header)
      rw [line_of_childOn hi, line_of_childOn hj]
      exact Nat.succ_lt_succ hlt
    · refine (pairwise_pipelines (bareLines source)).imp_of_mem ?_
      intro p q hp hq hlt child hmem other hmem'
      obtain ⟨place, header, hheader, hnumber, hchildren⟩ := exists_header_of_pipeline hp
      obtain ⟨place', header', hheader', hnumber', hchildren'⟩ := exists_header_of_pipeline hq
      obtain ⟨i, line, hi, hbody⟩ := hchild hheader (hchildren ▸ hmem)
      obtain ⟨j, line', hj, hbody'⟩ := hchild hheader' (hchildren' ▸ hmem')
      have hbefore := hbody.lt_later hheader' (by omega)
      have hbehind := hbody'.lt
      omega
  · exact fun p hp => exists_header_of_pipeline hp

/-- One cup is an element, the other one belongs to the first of two pipelines. -/
theorem componentsInBodies_of_read_cups :
    let source := ("pipeline Kettle\n\n\x7b\ncomponent Cup [0.5]\ncomponent Pot\n\x7d\n" ++
      "component Cup [0.5, 0.25]\npipeline Tea \x7b\ncomponent Leaf [0.25]\n\x7d").toList
    let doc : Document :=
      { elements := [{ line := 7, name := "Cup".toList,
                       position := { visibility := 0.5, maturity := 0.25 } }]
        pipelines :=
          [{ line := 1, name := "Kettle".toList, shown := true, first := 0.5, last := 0.5,
             children := [{ line := 4, name := "Cup".toList, maturity := 0.5 }] },
            { line := 8, name := "Tea".toList, shown := true, first := 0.25, last := 0.25,
              children := [{ line := 9, name := "Leaf".toList, maturity := 0.25 }] }]
        problems := [{ line := 5, cause := .missing "pipeline component" "[maturity]" }] }
    Document.read source = .ok doc ∧ doc.ComponentsInBodies source := by
  intro source doc
  have hread : Document.read source = .ok doc := by decide +kernel
  exact ⟨hread, componentsInBodies_of_read.2 source doc hread⟩

end WardleyMaps
