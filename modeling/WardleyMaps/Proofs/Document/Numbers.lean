/-
Module: WardleyMaps.Proofs.Document.Numbers
Purpose: Which numbers of a document are finite.
Main exports: JsonValue.numbers, Document.forall_numbers, given_of_read, isFinite_iff_of_read
-/
import WardleyMaps.Document.Encode
import WardleyMaps.Proofs.Document.Header
import WardleyMaps.Proofs.Document.Verdict
import WardleyMaps.Proofs.Number.Range
import WardleyMaps.Proofs.Statement.Annotation
import WardleyMaps.Proofs.Statement.Numerals

namespace WardleyMaps

open Text

/-!
The numbers of a document are those in its JSON value. Each of them is given by a line, that is by
a numeral on it or by a standard (`given_of_read`). The grammar of numerals has no word for what is
not finite, but it bounds neither digits nor exponents; so the only infinite numbers are those of
numerals that denote too much (`isFinite_iff_of_read`).
-/

/-! ### The numbers of a value -/

mutual
/-- All numbers of a value that may have a fraction, in their order. -/
def JsonValue.numbers : JsonValue → List Double
  | .number x => [x]
  | .array items => numbersOfItems items
  | .object members => numbersOfMembers members
  | .null | .boolean _ | .integer _ | .text _ => []
/-- The numbers of the items of an array. -/
def JsonValue.numbersOfItems : List JsonValue → List Double
  | [] => []
  | item :: items => item.numbers ++ numbersOfItems items
/-- The numbers of the members of an object. -/
def JsonValue.numbersOfMembers : List (String × JsonValue) → List Double
  | [] => []
  | (_, value) :: members => value.numbers ++ numbersOfMembers members
end

namespace JsonValue

theorem numbersOfItems_map {α : Type} (encode : α → JsonValue) (l : List α) :
    numbersOfItems (l.map encode) = l.flatMap fun a => (encode a).numbers := by
  induction l with
  | nil => rfl
  | cons a others ih => rw [List.map_cons, numbersOfItems, ih, List.flatMap_cons]

end JsonValue

open JsonValue

/-! ### The numbers of entities -/

theorem Component.numbers_encode (c : Component) :
    c.encode.numbers =
      c.position.encode.numbers ++ c.evolveTo.toList ++ c.label.encode.numbers := by
  obtain ⟨_, _, _, _, evolveTo, _, _, _, reference, _⟩ := c
  cases evolveTo <;> cases reference <;> rfl

theorem Anchor.numbers_encode (a : Anchor) : a.encode.numbers = a.position.encode.numbers :=
  rfl

theorem Note.numbers_encode (n : Note) : n.encode.numbers = n.position.encode.numbers :=
  rfl

theorem Accelerator.numbers_encode (a : Accelerator) :
    a.encode.numbers = a.position.encode.numbers :=
  rfl

theorem Evolution.numbers_encode (e : Evolution) :
    e.encode.numbers = e.maturity :: e.label.encode.numbers :=
  rfl

theorem PipelineChild.numbers_encode (c : PipelineChild) :
    c.encode.numbers = c.maturity :: c.label.encode.numbers :=
  rfl

theorem Pipeline.numbers_encode (p : Pipeline) :
    p.encode.numbers = p.first :: p.last :: p.children.flatMap (·.encode.numbers) := by
  simp [Pipeline.encode, numbers, numbersOfMembers, numbersOfItems_map]

theorem NumberedNote.numbers_encode (n : NumberedNote) :
    n.encode.numbers = n.places.flatMap (·.encode.numbers) := by
  simp [NumberedNote.encode, numbers, numbersOfMembers, numbersOfItems_map]

theorem Attitude.numbers_encode (a : Attitude) :
    a.encode.numbers = a.corner.encode.numbers ++ a.opposite.encode.numbers := by
  obtain ⟨_, kind, _, _, width, height⟩ := a
  cases kind <;> cases width <;> cases height <;> rfl

theorem Presentation.numbers_encode (p : Presentation) :
    p.encode.numbers = p.legend.encode.numbers ++ p.size.encode.numbers :=
  rfl

theorem Link.numbers_encode (l : Link) : l.encode.numbers = [] := by
  obtain ⟨_, _, arrow, context⟩ := l
  cases context <;> cases arrow <;> rfl

theorem Problem.numbers_encode (p : Problem) : p.encode.numbers = [] := by
  obtain ⟨_, cause⟩ := p
  cases cause <;> rfl

theorem Document.numbers_encode (d : Document) :
    d.encode.numbers =
      d.elements.flatMap (·.encode.numbers) ++ d.anchors.flatMap (·.encode.numbers) ++
      d.evolved.flatMap (·.encode.numbers) ++ d.pipelines.flatMap (·.encode.numbers) ++
      d.annotations.flatMap (·.encode.numbers) ++ d.notes.flatMap (·.encode.numbers) ++
      d.submaps.flatMap (·.encode.numbers) ++ d.attitudes.flatMap (·.encode.numbers) ++
      d.accelerators.flatMap (·.encode.numbers) ++ d.presentation.encode.numbers := by
  have stages : ∀ s : Stage, s.encode.numbers = [] := fun _ => rfl
  have addresses : ∀ a : Address, a.encode.numbers = [] := fun _ => rfl
  have methods : ∀ m : Method, m.encode.numbers = [] := fun _ => rfl
  have nothing : ∀ {α : Type} (l : List α), l.flatMap (fun _ => ([] : List Double)) = [] :=
    fun l => List.flatMap_eq_nil_iff.2 fun _ _ => rfl
  simp [Document.encode, numbers, numbersOfMembers, numbersOfItems_map, Link.numbers_encode,
    Problem.numbers_encode, stages, addresses, methods, nothing]

/-! ### What one line gives -/

theorem Position.StatedIn.given {p : Position} {t : Text} (h : p.StatedIn t) :
    ∀ x ∈ p.encode.numbers, x.GivenBy t := by
  have numbers : p.encode.numbers = [p.visibility, p.maturity] := rfl
  intro x mem
  rw [numbers, List.mem_pair] at mem
  rcases mem with rfl | rfl
  · exact .inr h.visibility
  · exact .inr h.maturity

theorem LabelOffset.GivenBy.given {l : LabelOffset} {t : Text} (h : l.GivenBy t) :
    ∀ x ∈ l.encode.numbers, x.GivenBy t := by
  have numbers : l.encode.numbers = [l.x, l.y] := rfl
  intro x mem
  rw [numbers, List.mem_pair] at mem
  rcases mem with rfl | rfl
  · exact h.x
  · exact h.y

theorem given_of_readComponent {submap : Bool} {number : Nat} {line : Text} {c : Component}
    (read : readComponent submap number line = .ok c) : ∀ x ∈ c.encode.numbers, x.GivenBy line := by
  obtain ⟨placed, label, position, -, offset, rfl⟩ := readComponent_eq_ok.1 read
  obtain ⟨stated, tail⟩ := stated_of_readPlaced position
  have body := infix_afterKeyword (componentKeyword submap).toList line
  have behind := tail.trans body
  rw [Component.numbers_encode, List.forall_mem_append, List.forall_mem_append]
  refine ⟨⟨(stated.mono body).given, ?_⟩, ?_⟩
  · intro x inline
    exact .inr ((stated_of_readInlineEvolution (Option.mem_toList.1 inline)).mono behind)
  · exact ((given_of_readLabel offset (spacing_mem _)).mono behind).given

theorem given_of_readAnchor {number : Nat} {line : Text} {a : Anchor}
    (read : readAnchor number line = .ok a) : ∀ x ∈ a.encode.numbers, x.GivenBy line := by
  obtain ⟨placed, position, -, rfl⟩ := readAnchor_eq_ok.1 read
  exact ((stated_of_readPlaced position).1.mono (infix_afterKeyword _ line)).given

theorem given_of_readNote {number : Nat} {line : Text} {n : Note}
    (read : readNote number line = .ok n) : ∀ x ∈ n.encode.numbers, x.GivenBy line := by
  obtain ⟨placed, position, named⟩ := bind_eq_ok.1 read
  obtain ⟨text, -, whole⟩ := bind_eq_ok.1 named
  obtain rfl := Except.ok.inj whole
  exact ((stated_of_readPlaced position).1.mono (infix_afterKeyword _ line)).given

theorem given_of_readAccelerator {slowing : Bool} {number : Nat} {line : Text} {a : Accelerator}
    (read : readAccelerator slowing number line = .ok a) :
    ∀ x ∈ a.encode.numbers, x.GivenBy line := by
  obtain ⟨placed, position, named⟩ := bind_eq_ok.1 read
  obtain ⟨name, -, whole⟩ := bind_eq_ok.1 named
  obtain rfl := Except.ok.inj whole
  exact ((stated_of_readPlaced position).1.mono (infix_afterKeyword _ line)).given

theorem given_of_readAttitude {kind : AttitudeKind} {number : Nat} {line : Text} {a : Attitude}
    (read : readAttitude kind number line = .ok a) : ∀ x ∈ a.encode.numbers, x.GivenBy line := by
  obtain ⟨b, found, area⟩ := bind_eq_ok.1 read
  obtain ⟨xs, coordinates, corners⟩ := bind_eq_ok.1 area
  have inside := (infix_of_requireBracket found).1.trans (infix_afterKeyword _ line)
  have stated : ∀ x ∈ xs, x.StatedIn line := fun x mem =>
    (stated_of_readCoordinates coordinates x mem).mono inside
  split at corners
  · next v1 m1 v2 m2 =>
    obtain rfl := Except.ok.inj corners
    rw [Attitude.numbers_encode, List.forall_mem_append]
    exact ⟨Position.StatedIn.given ⟨stated v1 (by simp), stated m1 (by simp)⟩,
      Position.StatedIn.given ⟨stated v2 (by simp), stated m2 (by simp)⟩⟩
  · cases corners

theorem given_of_readEvolution {number : Nat} {line : Text} {e : Evolution}
    (read : readEvolution number line = .ok e) : ∀ x ∈ e.encode.numbers, x.GivenBy line := by
  obtain ⟨found, label, search, -, offset, rfl⟩ := readEvolution_eq_ok.1 read
  obtain ⟨stated, rest⟩ := stated_of_findMaturity search
  have body := infix_afterKeyword "evolve".toList line
  rw [Evolution.numbers_encode, List.forall_mem_cons]
  exact ⟨.inr (stated.mono body),
    ((given_of_readLabel offset (spacing_mem _)).mono (rest.trans body)).given⟩

theorem given_of_readNumberedNote {number : Nat} {line : Text} {d : AnnotationDraft}
    {n : NumberedNote} (read : readNumberedNote number line = .ok d) (settled : d.settle = .ok n) :
    ∀ x ∈ n.encode.numbers, x.GivenBy line := by
  obtain ⟨p, parts, places, said, rfl⟩ := readNumberedNote_eq_ok_iff.1 read
  obtain ⟨-, rfl⟩ := NoteParts.settle_draft_iff.1 settled
  have inside : p.inside <:+: line := by
    refine List.IsInfix.trans ?_ (infix_afterKeyword "annotation".toList line)
    rw [parts.whole]
    exact ⟨p.digits ++ (p.skipped ++ ['[']), ']' :: p.behind, by simp⟩
  rw [NumberedNote.numbers_encode, List.forall_mem_flatMap]
  exact fun q mem => ((stated_of_saysPlaces said q mem).mono inside).given

theorem given_of_readPipelineChild {number : Nat} {line : Text} {c : PipelineChild}
    (read : readPipelineChild number line = .ok c) : ∀ x ∈ c.encode.numbers, x.GivenBy line := by
  obtain ⟨b, found, named⟩ := bind_eq_ok.1 read
  obtain ⟨name, -, coordinates⟩ := bind_eq_ok.1 named
  obtain ⟨xs, numbers, maturity⟩ := bind_eq_ok.1 coordinates
  have body := infix_afterKeyword "component".toList line
  obtain ⟨inside, after⟩ := infix_of_requireBracket found
  split at maturity
  · next maturity' =>
    obtain ⟨label, offset, whole⟩ := bind_eq_ok.1 maturity
    obtain rfl := Except.ok.inj whole
    have stated := stated_of_readCoordinates numbers maturity' (by simp)
    rw [PipelineChild.numbers_encode, List.forall_mem_cons]
    exact ⟨.inr (stated.mono (inside.trans body)),
      ((given_of_readLabel offset (by decide)).mono (after.trans body)).given⟩
  · cases maturity

theorem given_of_readPipelineHeader {number : Nat} {line : Text} {p : Pipeline}
    (read : readPipelineHeader number line = .ok p) :
    p.first.GivenBy line ∧ p.last.GivenBy line := by
  obtain ⟨found, bracket, header⟩ := bind_eq_ok.1 read
  cases found with
  | none =>
      obtain ⟨name, -, whole⟩ := bind_eq_ok.1 header
      obtain rfl := Except.ok.inj whole
      exact ⟨.inl (by simp [standardNumbers]), .inl (by simp [standardNumbers])⟩
  | some b =>
      obtain ⟨name, -, span⟩ := bind_eq_ok.1 header
      obtain ⟨⟨first, last⟩, numbers, whole⟩ := bind_eq_ok.1 span
      obtain rfl := Except.ok.inj whole
      obtain ⟨left, right⟩ := stated_of_readPair numbers
      have inside := (infix_of_splitBracket bracket).trans
        ((infix_dropBrace _).trans (infix_afterKeyword _ line))
      exact ⟨.inr (left.mono inside), .inr (right.mono inside)⟩

theorem given_of_readSize {line : Text} {size : Size} (read : readSize line = .ok size) :
    ∀ x ∈ size.encode.numbers, x.GivenBy line := by
  obtain ⟨b, found, pair⟩ := bind_eq_ok.1 read
  obtain ⟨⟨width, height⟩, numbers, whole⟩ := bind_eq_ok.1 pair
  obtain rfl := Except.ok.inj whole
  obtain ⟨left, right⟩ := stated_of_readPair numbers
  have inside := (infix_of_requireBracket found).1.trans (infix_afterKeyword _ line)
  intro x mem
  rcases List.mem_pair.1 mem with rfl | rfl
  · exact .inr (left.mono inside)
  · exact .inr (right.mono inside)

theorem given_of_readLegend {line : Text} {legend : Position}
    (read : readLegend line = .ok legend) : ∀ x ∈ legend.encode.numbers, x.GivenBy line := by
  obtain ⟨b, found, position⟩ := bind_eq_ok.1 read
  have inside := (infix_of_requireBracket found).1.trans (infix_afterKeyword _ line)
  exact ((stated_of_readPosition position).mono inside).given

/-! ### What the lines of a source give -/

/-- The number is stated on one of the lines or a standard. -/
def Double.GivenAmong (x : Double) (bare : List Text) : Prop :=
  x ∈ standardNumbers ∨ ∃ line ∈ bare, x.StatedIn line

theorem Double.GivenBy.among {x : Double} {line : Text} {bare : List Text} (h : x.GivenBy line)
    (mem : line ∈ bare) : x.GivenAmong bare :=
  h.imp_right fun stated => ⟨line, mem, stated⟩

section

variable {α κ : Type} {bare : List Text} {encode : α → JsonValue}

/-- What a pass over one keyword gathers is given by its lines. -/
theorem given_of_collectKeyword {keyword : String} {build : Nat → Text → Except Cause α}
    (given : ∀ number line item, build number line = .ok item →
      ∀ x ∈ (encode item).numbers, x.GivenBy line) :
    ∀ item ∈ (collectKeyword keyword build (bare.zipIdx 1)).items,
      ∀ x ∈ (encode item).numbers, x.GivenAmong bare := by
  intro item mem x number
  obtain ⟨i, line, atLine, -, read⟩ := exists_line_of_keyword mem
  exact (given _ line item read x number).among (List.mem_of_getElem? atLine)

/-- What a pass over several keywords gathers is given by its lines. -/
theorem given_of_collectKinds {accept : Text → Option κ} {build : κ → Nat → Text → Except Cause α}
    (given : ∀ kind number line item, build kind number line = .ok item →
      ∀ x ∈ (encode item).numbers, x.GivenBy line) :
    ∀ item ∈ (collect accept build (bare.zipIdx 1)).items,
      ∀ x ∈ (encode item).numbers, x.GivenAmong bare := by
  intro item mem x number
  obtain ⟨i, line, kind, atLine, -, read⟩ := exists_line_of_item mem
  exact (given kind _ line item read x number).among (List.mem_of_getElem? atLine)

end

/-- What is chosen again and again is one of those to choose from. -/
theorem foldl_choice_mem {choose : Double → Double → Double}
    (choice : ∀ a b, choose a b = a ∨ choose a b = b) (children : List PipelineChild) (x : Double) :
    children.foldl (fun chosen child => choose chosen child.maturity) x ∈
      x :: children.map (·.maturity) := by
  induction children generalizing x with
  | nil => exact List.mem_cons_self
  | cons child others ih =>
      rw [List.foldl_cons, List.map_cons]
      rcases choice x child.maturity with same | same
      · rw [same]
        exact List.cons_subset_cons x (List.subset_cons_self _ _) (ih x)
      · rw [same]
        exact List.mem_cons_of_mem x (ih child.maturity)

/-- The span of a pipeline is that of maturities of its components. -/
theorem spanOf_mem (first : PipelineChild) (others : List PipelineChild) :
    (spanOf first others).1 ∈ (first :: others).map (·.maturity) ∧
      (spanOf first others).2 ∈ (first :: others).map (·.maturity) := by
  constructor
  · apply foldl_choice_mem
    intro a b
    rw [Double.min]
    split <;> simp
  · apply foldl_choice_mem
    intro a b
    rw [Double.max]
    split <;> simp

/-- A pipeline keeps its span or has one between maturities of its components. -/
theorem Pipeline.span_withChildren (p : Pipeline) (children : List PipelineChild) :
    ((p.withChildren children).first = p.first ∨
        (p.withChildren children).first ∈ children.map (·.maturity)) ∧
      ((p.withChildren children).last = p.last ∨
        (p.withChildren children).last ∈ children.map (·.maturity)) := by
  cases children with
  | nil => exact ⟨.inl rfl, .inl rfl⟩
  | cons child others => exact (spanOf_mem child others).imp .inr .inr

theorem given_of_pipeline {bare : List Text} {pipeline : Pipeline}
    (mem : pipeline ∈ (readPipelines ((inBody bare).zip (bare.zipIdx 1))).items) :
    ∀ x ∈ pipeline.encode.numbers, x.GivenAmong bare := by
  have inside : ∀ child ∈ pipeline.children, ∀ x ∈ child.encode.numbers, x.GivenAmong bare := by
    obtain ⟨place, header, -, -, -, each⟩ := mem_items_readPipelines mem
    intro child childMem x number
    obtain ⟨i, line, -, childOf, -, read⟩ := each child childMem
    exact (given_of_readPipelineChild read x number).among
      (List.mem_of_getElem? childOf.bodyLine.hidden.1)
  have maturities : ∀ x ∈ pipeline.children.map (·.maturity), x.GivenAmong bare := by
    intro x maturity
    obtain ⟨child, childMem, rfl⟩ := List.mem_map.1 maturity
    exact inside child childMem _ List.mem_cons_self
  rw [readPipelines_eq, List.mem_filterMap] at mem
  obtain ⟨⟨⟨header, number⟩, below⟩, headers, made⟩ := mem
  obtain ⟨place, atPlace, -, -⟩ := mem_headersFrom headers
  obtain ⟨p, read, rfl⟩ := pipelineOf_eq_some.1 made
  obtain ⟨first, last⟩ := given_of_readPipelineHeader read
  have line := List.mem_of_getElem? atPlace.line
  rw [Pipeline.children_withChildren (readPipelineHeader_eq_ok read).2] at maturities
  obtain ⟨least, most⟩ := p.span_withChildren (readChildren (header, number) below).items
  rw [Pipeline.numbers_encode, List.forall_mem_cons, List.forall_mem_cons, List.forall_mem_flatMap]
  refine ⟨?_, ?_, inside⟩
  · rcases least with same | maturity
    · exact same ▸ first.among line
    · exact maturities _ maturity
  · rcases most with same | maturity
    · exact same ▸ last.among line
    · exact maturities _ maturity

/-- The last entity of a pass is given by its line, or a standard takes its place. -/
theorem given_of_getLast {α : Type} {encode : α → JsonValue} {bare : List Text} {items : List α}
    {standard : α} (given : ∀ item ∈ items, ∀ x ∈ (encode item).numbers, x.GivenAmong bare)
    (fallback : ∀ x ∈ (encode standard).numbers, x ∈ standardNumbers) :
    ∀ x ∈ (encode (items.getLast?.getD standard)).numbers, x.GivenAmong bare := by
  cases last : items.getLast? with
  | none => exact fun x number => .inl (fallback x number)
  | some item => exact given item (List.mem_of_getLast? last)

/-- Every number of a document is given by a line of the source. -/
theorem given_of_read {source : Text} {doc : Document} (read : Document.read source = .ok doc) :
    ∀ x ∈ doc.encode.numbers, x.GivenAmong (bareLines source) := by
  obtain ⟨annotations, settled, rfl⟩ := Document.read_eq_ok.1 read
  simp only [Document.numbers_encode, List.forall_mem_append, List.forall_mem_flatMap]
  refine ⟨⟨⟨⟨⟨⟨⟨⟨⟨?elements, ?anchors⟩, ?evolved⟩, ?pipelines⟩, ?annotations⟩, ?notes⟩, ?submaps⟩,
    ?attitudes⟩, ?accelerators⟩, ?presentation⟩
  case elements =>
    intro c mem x number
    obtain ⟨i, line, atLine, -, -, read⟩ := exists_visible_line_of_keyword (by decide) mem
    exact (given_of_readComponent read x number).among (List.mem_of_getElem? atLine)
  case anchors => exact given_of_collectKeyword fun _ _ _ => given_of_readAnchor
  case evolved => exact given_of_collectKeyword fun _ _ _ => given_of_readEvolution
  case pipelines => exact fun pipeline mem => given_of_pipeline mem
  case annotations =>
    intro note mem x number
    obtain ⟨draft, drafted, settle⟩ := exists_mem_of_mapM_eq_ok settled note mem
    obtain ⟨i, line, atLine, -, read⟩ := exists_line_of_keyword drafted
    exact (given_of_readNumberedNote read settle x number).among (List.mem_of_getElem? atLine)
  case notes => exact given_of_collectKeyword fun _ _ _ => given_of_readNote
  case submaps => exact given_of_collectKeyword fun _ _ _ => given_of_readComponent
  case attitudes => exact given_of_collectKinds fun _ _ _ _ => given_of_readAttitude
  case accelerators => exact given_of_collectKinds fun _ _ _ _ => given_of_readAccelerator
  case presentation =>
    rw [Presentation.numbers_encode, List.forall_mem_append]
    constructor
    · exact given_of_getLast (given_of_collectKeyword fun _ _ _ => given_of_readLegend)
        (by decide +kernel)
    · exact given_of_getLast (given_of_collectKeyword fun _ _ _ => given_of_readSize)
        (by decide +kernel)

/-! ### Finite numbers -/

theorem isFinite_of_mem_standardNumbers : ∀ x ∈ standardNumbers, x.isFinite = true := by
  decide +kernel

/-- A number of a document is never undefined, and it is finite unless a numeral of the source that
reads as this number denotes too much. -/
theorem isFinite_iff_of_read {source : Text} {doc : Document}
    (read : Document.read source = .ok doc) :
    ∀ x ∈ doc.encode.numbers, x ≠ .nan ∧
      (x.isFinite = true ↔ ∀ line ∈ bareLines source, ∀ n : Numeral,
        n.StandsIn line → n.value = x → |n.denoted| < overflowValue) := by
  intro x mem
  rcases given_of_read read x mem with standard | ⟨line, lineMem, n, stands, rfl⟩
  · have finite := isFinite_of_mem_standardNumbers x standard
    constructor
    · rintro rfl
      cases finite
    · refine iff_of_true finite fun line _ n _ value => ?_
      rw [← n.isFinite_value_iff, value]
      exact finite
  · refine ⟨n.value_ne_nan, ?_⟩
    constructor
    · intro finite line _ m _ value
      rw [← m.isFinite_value_iff, value]
      exact finite
    · intro small
      exact n.isFinite_value_iff.2 (small line lineMem n stands rfl)

/-- The exponent of the visibility makes it infinite. -/
theorem not_isFinite_of_large_exponent :
    let source := "component Cup [1e999, 0.5]".toList
    let cup : Component :=
      { line := 1, name := "Cup".toList
        position := { visibility := .infinite false, maturity := 0.5 } }
    let doc : Document := { elements := [cup] }
    Document.read source = .ok doc ∧ .infinite false ∈ doc.encode.numbers ∧
      ∃ line ∈ bareLines source, ∃ n : Numeral, n.StandsIn line ∧ n.value = .infinite false ∧
        overflowValue ≤ |n.denoted| := by
  intro source cup doc
  have read : Document.read source = .ok doc := by decide +kernel
  have mem : .infinite false ∈ doc.encode.numbers := List.mem_cons_self
  refine ⟨read, mem, ?_⟩
  by_contra none
  have finite := (isFinite_iff_of_read read _ mem).2.2 fun line lineMem n stands value =>
    lt_of_not_ge fun large => none ⟨line, lineMem, n, stands, value, large⟩
  cases finite

end WardleyMaps
