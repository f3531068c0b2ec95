/-
Module: WardleyMaps.Proofs.Document.Locality
Purpose: A line of a source determines what belongs to it and nothing of the other lines.
Main exports: SimpleLine, replaceLine, linkOn, Document.without, AgreeElsewhere,
  Findings.exists_ofLines_replace, read_replaceLine_iff
-/
import WardleyMaps.Proofs.Document.Append
import WardleyMaps.Proofs.Document.LongNumber
import WardleyMaps.Proofs.Document.Replace

namespace WardleyMaps

open Text

/-!
A line that neither bodies nor comments have to do with is read on its own. So what the passes find
in a source is what they find above the line, on the line and below it, and when another such line
takes its place only the part in the middle is another one (`Findings.exists_ofLines_replace`). In
the document this part is made up of the entities and the problem with the number of the line, and
of at most one link. What a document has but once, its title, its stages and its presentation, is
chosen among the lines and may come from the line or not. All that can go wrong is that the number
of an annotation is too long, which is a fault of the whole reading.
-/

/-! ### The lines in question -/

/-- A line with something on it that is no header, holds no brace and opens no comment. -/
structure SimpleLine (line : Text) : Prop where
  single : '\n' ∉ line
  written : ¬ Blank line
  openingBrace : '{' ∉ line
  closingBrace : '}' ∉ line
  lineComment : ¬ "//".toList <:+: line
  blockComment : ¬ "/*".toList <:+: line
  header : isHeader line = false

/-- The source with another line at a place counted from zero. -/
def replaceLine (source : Text) (i : Nat) (line : Text) : Text :=
  unlines ((lines source).set i line)

/-- The link on a line, if it is one. -/
def linkOn (line : Text) : Option Link :=
  if isLinkCandidate line then (readLink line).toOption.join else none

/-- A document without the entities and the problems of a line. A pipeline stays with all its
components. -/
def Document.without (n : Nat) (d : Document) : Document :=
  { d with
    elements := d.elements.filter (·.line ≠ n)
    anchors := d.anchors.filter (·.line ≠ n)
    evolved := d.evolved.filter (·.line ≠ n)
    annotations := d.annotations.filter (·.line ≠ n)
    notes := d.notes.filter (·.line ≠ n)
    submaps := d.submaps.filter (·.line ≠ n)
    addresses := d.addresses.filter (·.line ≠ n)
    attitudes := d.attitudes.filter (·.line ≠ n)
    accelerators := d.accelerators.filter (·.line ≠ n)
    methods := d.methods.filter (·.line ≠ n)
    problems := d.problems.filter (·.line ≠ n) }

/-- Two documents agree in all that does not belong to a line. Links carry no number, so those that
stand on the line are named, and the others are the same ones in the same order. -/
structure AgreeElsewhere (n : Nat) (old new : Text) (d d' : Document) : Prop where
  entities : d'.without n =
    { d.without n with
      title := d'.title
      stages := d'.stages
      presentation := d'.presentation
      links := d'.links }
  links : ∃ before after, d.links = before ++ (linkOn old).toList ++ after ∧
    d'.links = before ++ (linkOn new).toList ++ after

namespace SimpleLine

variable {line a b : Text}

theorem uncommented (h : SimpleLine line) : Uncommented (isAddressLine line) line :=
  uncommented_of_unopened h.lineComment h.blockComment

theorem not_mem_trim {c : Char} (h : c ∉ line) : c ∉ trim line := by
  obtain ⟨lead, trail, -, -, ht⟩ := exists_trim line
  intro mem
  apply h
  rw [ht]
  exact List.mem_append_left _ (List.mem_append_right _ mem)

/-- No body opens or closes on what is left of the line. -/
theorem braces (h : SimpleLine line) :
    closesBody (trimEnd line) = false ∧ opensBody (trimEnd line) = false ∧
      endsWithBrace (trimEnd line) = false ∧ (trim (trimEnd line)).isEmpty = false := by
  have noOpening := not_mem_trim h.openingBrace
  refine ⟨?_, ?_, ?_, ?_⟩
  · rw [← Bool.not_eq_true, closesBody_iff, trim_trimEnd]
    exact not_mem_trim h.closingBrace
  · cases first : trim line with
    | nil => simp [opensBody, startsWith, trim_trimEnd, first, after?]
    | cons c rest =>
        apply opensBody_eq_false_of_head ((trim_trimEnd line).trans first)
        rintro rfl
        exact noOpening (first ▸ List.mem_cons_self)
  · rw [endsWithBrace, decide_eq_false_iff_not, trim_trimEnd]
    exact fun last => noOpening (List.mem_of_getLast? last)
  · rw [List.isEmpty_eq_false_iff, ne_eq, trim_trimEnd, trim_eq_nil_iff]
    exact h.written

theorem sameBraces (ha : SimpleLine a) (hb : SimpleLine b) :
    SameBraces (trimEnd a) (trimEnd b) := by
  obtain ⟨closes, opens, ends, written⟩ := ha.braces
  obtain ⟨closes', opens', ends', written'⟩ := hb.braces
  exact ⟨by rw [closes, closes'], by rw [opens, opens'], by rw [ends, ends'],
    by rw [written, written']⟩

theorem isHeader_trimEnd (h : SimpleLine line) : isHeader (trimEnd line) = false := by
  rw [← h.header]
  simp only [isHeader, startsWithKeyword, readPipelineHeader, afterKeyword, trim_trimEnd]

end SimpleLine

/-- Blanks at the end of a line do not matter to its link. -/
theorem linkOn_trimEnd (line : Text) : linkOn (trimEnd line) = linkOn line := by
  have candidate : isLinkCandidate (trimEnd line) = isLinkCandidate line := by
    rw [isLinkCandidate, isLinkCandidate, trim_trimEnd]
  have read : readLink (trimEnd line) = readLink line := by
    rw [readLink, readLink, trim_trimEnd]
  rw [linkOn, linkOn, candidate, read]

/-! ### What the passes find on one line -/

/-- What the passes find on a line outside of bodies that is no header. -/
def Findings.onLine (number : Nat) (line : Text) : Findings :=
  .gather [(line, number)] [(line, number)] (brokenHeader number line)

/-- Findings that belong to one line: the entities and the problems have its number. -/
structure Findings.OnLine (n : Nat) (f : Findings) : Prop where
  notes : ∀ item ∈ f.notes.items, item.line = n
  drafts : ∀ item ∈ f.drafts.items, item.line = n
  elements : ∀ item ∈ f.elements.items, item.line = n
  pipelines : f.pipelines.items = []
  evolved : ∀ item ∈ f.evolved.items, item.line = n
  anchors : ∀ item ∈ f.anchors.items, item.line = n
  submaps : ∀ item ∈ f.submaps.items, item.line = n
  addresses : ∀ item ∈ f.addresses.items, item.line = n
  attitudes : ∀ item ∈ f.attitudes.items, item.line = n
  accelerators : ∀ item ∈ f.accelerators.items, item.line = n
  methods : ∀ item ∈ f.methods.items, item.line = n
  problems : ∀ problem ∈ f.problems.flatten, problem.line = n

section

variable {α κ : Type} {accept : Text → Option κ} {build : κ → Nat → Text → Except Cause α}

/-- What a pass gathers from one line has the number of this line. -/
theorem line_of_mem_collect {numberOf : α → Nat} (numbers : Numbers build numberOf) {line : Text}
    {n : Nat} : ∀ item ∈ (collect accept build [(line, n)]).items, numberOf item = n := by
  intro item mem
  obtain ⟨p, only, kind, -, read⟩ := mem_items_collect.1 mem
  cases List.mem_singleton.1 only
  exact numbers kind n line item read

theorem line_of_mem_problems_collect {line : Text} {n : Nat} :
    ∀ problem ∈ (collect accept build [(line, n)]).problems, problem.line = n := by
  intro problem mem
  obtain ⟨p, only, kind, -, -, number⟩ := mem_problems_collect.1 mem
  cases List.mem_singleton.1 only
  exact number

end

theorem line_of_mem_brokenHeader {line : Text} {n : Nat} :
    ∀ problem ∈ (brokenHeader n line).problems, problem.line = n := by
  intro problem mem
  simp only [brokenHeader] at mem
  split at mem
  · split at mem
    · cases List.mem_singleton.1 mem
      rfl
    · cases mem
  · cases mem

theorem Findings.onLine_onLine (n : Nat) (line : Text) : (Findings.onLine n line).OnLine n where
  notes := line_of_mem_collect fun _ _ _ _ => line_of_readNote
  drafts := line_of_mem_collect fun _ _ _ _ => line_of_readNumberedNote
  elements := line_of_mem_collect fun _ _ _ _ => line_of_readComponent
  pipelines := rfl
  evolved := line_of_mem_collect fun _ _ _ _ => line_of_readEvolution
  anchors := line_of_mem_collect fun _ _ _ _ => line_of_readAnchor
  submaps := line_of_mem_collect fun _ _ _ _ => line_of_readComponent
  addresses := line_of_mem_collect fun _ _ _ _ => line_of_readAddress
  attitudes := line_of_mem_collect fun _ _ _ _ => line_of_readAttitude
  accelerators := line_of_mem_collect fun _ _ _ _ => line_of_readAccelerator
  methods := line_of_mem_collect fun _ _ _ _ => line_of_readMethod
  problems := by
    intro problem mem
    rw [Findings.problems_eq] at mem
    obtain ⟨p, -, found⟩ := List.mem_flatMap.1 mem
    cases p with
    | pipeline => exact line_of_mem_brokenHeader problem found
    | child => cases found
    | link =>
        have found : problem ∈ (collect (fun line => if isLinkCandidate line then some () else none)
          (fun _ _ line => readLink line) [(line, n)]).problems := found
        exact line_of_mem_problems_collect problem found
    | _ => exact line_of_mem_problems_collect problem found

/-- The link of a line is what the pass over links gathers there. -/
theorem items_collectLinks_singleton (n : Nat) (line : Text) :
    (collectLinks [(line, n)]).items = (linkOn line).toList := by
  cases candidate : isLinkCandidate line with
  | false => simp [collectLinks, collect, linkOn, candidate]
  | true =>
      cases read : readLink line with
      | error cause => simp [collectLinks, collect, linkOn, candidate, read, Except.toOption]
      | ok link =>
          cases link <;> simp [collectLinks, collect, linkOn, candidate, read, Except.toOption]

/-- When a line outside of bodies that is no header is replaced by another one with the same braces,
the passes find the same above and below it. -/
theorem Findings.exists_ofLines_replace {a b : Text} (same : SameBraces a b)
    (opens : opensBody a = false) (written : (trim a).isEmpty = false)
    (headers : ∀ x, x = a ∨ x = b → isHeader x = false) {above below : List Text}
    (visible : (inBody (above ++ a :: below))[above.length]? = some false) :
    ∃ f g : Findings, ∀ x, x = a ∨ x = b →
      Findings.ofLines (above ++ x :: below) =
        f.append ((Findings.onLine (1 + above.length) x).append g) := by
  obtain ⟨before, after, pipelines⟩ :=
    exists_readPipelines_replace same opens written headers false 1 above below visible
  obtain ⟨above', below', length, maskedOld, maskedNew⟩ :=
    maskBodies_replace same above below visible
  have masked : ∀ x, x = a ∨ x = b →
      maskBodies (above ++ x :: below) = above' ++ x :: below' := by
    rintro x (rfl | rfl)
    · exact maskedOld
    · exact maskedNew
  refine ⟨.gather (above.zipIdx 1) (above'.zipIdx 1) before,
    .gather (below.zipIdx (1 + above.length + 1)) (below'.zipIdx (1 + above.length + 1)) after,
    fun x hx => ?_⟩
  rw [Findings.onLine, ← Findings.gather_append, ← Findings.gather_append, Findings.ofLines_eq,
    masked x hx, inBody, pipelines x hx, zipIdx_append_cons, zipIdx_append_cons, length]
  rfl

/-! ### The document without the line -/

/-- What belongs to the line is left out. -/
theorem filter_others {α : Type} {numberOf : α → Nat} {n : Nat} {own : List α}
    (numbers : ∀ item ∈ own, numberOf item = n) (before after : List α) :
    (before ++ (own ++ after)).filter (numberOf · ≠ n) =
      (before ++ after).filter (numberOf · ≠ n) := by
  have none : own.filter (numberOf · ≠ n) = [] := by
    rw [List.filter_eq_nil_iff]
    intro item mem
    simp [numbers item mem]
  rw [List.filter_append, List.filter_append, none, List.nil_append, List.filter_append]

theorem sortProblems_perm (problems : List Problem) : (sortProblems problems).Perm problems :=
  List.mergeSort_perm _ _

/-- Problems of another line are in the same order with and without those of the line, since no two
problems have one line. -/
theorem filter_sortProblems {all own others : List Problem} {n : Nat}
    (together : all.Perm (own ++ others)) (distinct : (all.map (·.line)).Nodup)
    (numbers : ∀ problem ∈ own, problem.line = n) :
    (sortProblems all).filter (·.line ≠ n) = (sortProblems others).filter (·.line ≠ n) := by
  have distinctOthers : (others.map (·.line)).Nodup := by
    have := (together.map (·.line)).nodup_iff.1 distinct
    rw [List.map_append] at this
    exact this.of_append_right
  have sorted : ∀ {problems : List Problem}, (problems.map (·.line)).Nodup →
      ((sortProblems problems).filter (·.line ≠ n)).Pairwise fun p q => p.line < q.line :=
    fun distinct => (List.pairwise_map.1 (pairwise_lt_sortProblems distinct)).filter _
  refine List.Perm.eq_of_pairwise ?_ (sorted distinct) (sorted distinctOthers) ?_
  · intro p q _ _ lt gt
    exact absurd lt (Nat.lt_asymm gt)
  · have ownLeftOut : (own ++ others).filter (·.line ≠ n) = others.filter (·.line ≠ n) :=
      filter_others numbers [] others
    have left := ((sortProblems_perm all).trans together).filter (·.line ≠ n)
    rw [ownLeftOut] at left
    exact left.trans ((sortProblems_perm others).symm.filter _)

/-- Without the entities of the line a document is the one that the findings above and below the
line make up, except for what it has but once and the links. -/
theorem Findings.without_document {f g own : Findings} {n : Nat} (onLine : own.OnLine n)
    (distinct : ((f.append (own.append g)).problems.flatten.map (·.line)).Nodup)
    {before ownNotes after : List NumberedNote} (numbers : ∀ note ∈ ownNotes, note.line = n) :
    let d := (f.append (own.append g)).document (before ++ (ownNotes ++ after))
    d.without n =
      { ((f.append g).document (before ++ after)).without n with
        title := d.title
        stages := d.stages
        presentation := d.presentation
        links := d.links } := by
  intro d
  have problems : (f.append (own.append g)).problems.flatten.Perm
      (own.problems.flatten ++ (f.append g).problems.flatten) := by
    have moved := List.perm_append_comm_assoc f.problems.flatten own.problems.flatten
      g.problems.flatten
    exact (problems_append_perm f (own.append g)).trans
      (((problems_append_perm own g).append_left _).trans
        (moved.trans ((problems_append_perm f g).symm.append_left _)))
  rw [Document.mk.injEq]
  simp only [d, Document.without, Findings.document, filter_sortProblems problems distinct
    onLine.problems, true_and, and_true]
  simp only [Findings.append, Pass.append, filter_others numbers, filter_others onLine.elements,
    filter_others onLine.anchors, filter_others onLine.evolved, filter_others onLine.notes,
    filter_others onLine.submaps, filter_others onLine.addresses, filter_others onLine.attitudes,
    filter_others onLine.accelerators, filter_others onLine.methods, onLine.pipelines,
    List.nil_append, and_self]

/-! ### Whole sources -/

/-- Notes of two lists of drafts come from each of them. -/
theorem mapM_append_eq_ok {ε α β : Type} {f : α → Except ε β} {l l' : List α} {bs : List β} :
    (l ++ l').mapM f = .ok bs ↔
      ∃ first second, l.mapM f = .ok first ∧ l'.mapM f = .ok second ∧ bs = first ++ second := by
  rw [List.mapM_append]
  constructor
  · intro h
    obtain ⟨first, hfirst, h⟩ := bind_eq_ok.1 h
    obtain ⟨second, hsecond, h⟩ := bind_eq_ok.1 h
    exact ⟨first, second, hfirst, hsecond, (Except.ok.inj h).symm⟩
  · rintro ⟨first, second, hfirst, hsecond, rfl⟩
    rw [hfirst, hsecond]
    rfl

/-- The lines without comments around a line that no comment has to do with. -/
theorem bareLines_around {above below : List Text} {line : Text} (simple : SimpleLine line)
    (single : ∀ l ∈ above ++ below, '\n' ∉ l) (outside : blockAfter false above = false) :
    bareLines (unlines (above ++ line :: below)) =
      stripLines false above ++ trimEnd line :: stripLines false below := by
  have split : lines (unlines (above ++ line :: below)) = above ++ line :: below := by
    apply lines_unlines (by simp)
    intro l mem
    rcases List.mem_append.1 mem with high | low
    · exact single l (List.mem_append_left _ high)
    · rcases List.mem_cons.1 low with rfl | low
      · exact simple.single
      · exact single l (List.mem_append_right _ low)
  rw [bareLines, split, stripLines_uncommented outside simple.uncommented]

/-- What the reading of a source makes of findings that are those above a line, on it and below
it. -/
theorem Findings.settled_iff {f own g : Findings} {notes : List NumberedNote} :
    (f.append (own.append g)).drafts.items.mapM AnnotationDraft.settle = .ok notes ↔
      ∃ before ownNotes after,
        f.drafts.items.mapM AnnotationDraft.settle = .ok before ∧
        own.drafts.items.mapM AnnotationDraft.settle = .ok ownNotes ∧
        g.drafts.items.mapM AnnotationDraft.settle = .ok after ∧
        notes = before ++ (ownNotes ++ after) := by
  have drafts : (f.append (own.append g)).drafts.items =
      f.drafts.items ++ (own.drafts.items ++ g.drafts.items) := rfl
  rw [drafts, mapM_append_eq_ok]
  constructor
  · rintro ⟨before, rest, hbefore, hrest, rfl⟩
    obtain ⟨ownNotes, after, hown, hafter, rfl⟩ := mapM_append_eq_ok.1 hrest
    exact ⟨before, ownNotes, after, hbefore, hown, hafter, rfl⟩
  · rintro ⟨before, ownNotes, after, hbefore, hown, hafter, rfl⟩
    exact ⟨before, ownNotes ++ after, hbefore,
      mapM_append_eq_ok.2 ⟨ownNotes, after, hown, hafter, rfl⟩, rfl⟩

/-- The notes of one line have its number. -/
theorem Findings.OnLine.notes_settled {own : Findings} {n : Nat} (onLine : own.OnLine n)
    {ownNotes : List NumberedNote}
    (settled : own.drafts.items.mapM AnnotationDraft.settle = .ok ownNotes) :
    ∀ note ∈ ownNotes, note.line = n := by
  intro note mem
  obtain ⟨draft, hdraft, hsettle⟩ := exists_mem_of_mapM_eq_ok settled note mem
  rw [line_of_settle hsettle, onLine.drafts draft hdraft]

/-- A line outside of bodies and comments, counted from zero, on which a source has a given text. -/
structure PlainAt (source : Text) (i : Nat) (line : Text) : Prop where
  line : (lines source)[i]? = some line
  outsideComments : blockAfter false ((lines source).take i) = false
  outsideBodies : (inBody (bareLines source))[i]? = some false

/-- What the passes find in a source before and after a line is replaced. -/
theorem exists_findings_replaceLine {source old line : Text} {i : Nat}
    (plain : PlainAt source i old) (oldSimple : SimpleLine old) (newSimple : SimpleLine line) :
    ∃ f g : Findings,
      Findings.ofLines (bareLines source) =
        f.append ((Findings.onLine (i + 1) (trimEnd old)).append g) ∧
      Findings.ofLines (bareLines (replaceLine source i line)) =
        f.append ((Findings.onLine (i + 1) (trimEnd line)).append g) := by
  obtain ⟨above, below, around, length⟩ := exists_around plain.line
  have single : ∀ l ∈ above ++ below, '\n' ∉ l := by
    intro l mem
    apply newline_not_mem_of_mem_lines (t := source)
    rw [around]
    rcases List.mem_append.1 mem with high | low
    · exact List.mem_append_left _ high
    · exact List.mem_append_right _ (List.mem_cons_of_mem _ low)
  have outside : blockAfter false above = false := by
    have before := plain.outsideComments
    rwa [around, ← length, List.take_left] at before
  have bareOld : bareLines source =
      stripLines false above ++ trimEnd old :: stripLines false below := by
    rw [← bareLines_around oldSimple single outside, ← around, unlines_lines]
  have bareNew : bareLines (replaceLine source i line) =
      stripLines false above ++ trimEnd line :: stripLines false below := by
    rw [← bareLines_around newSimple single outside, replaceLine, around, ← length]
    simp
  have lengthBare : (stripLines false above).length = i := by rw [length_stripLines, length]
  have visible : (inBody (stripLines false above ++ trimEnd old :: stripLines false below))[
      (stripLines false above).length]? = some false := by
    rw [← bareOld, lengthBare]
    exact plain.outsideBodies
  have headers : ∀ x, x = trimEnd old ∨ x = trimEnd line → isHeader x = false := by
    rintro x (rfl | rfl)
    · exact oldSimple.isHeader_trimEnd
    · exact newSimple.isHeader_trimEnd
  obtain ⟨-, opens, -, written⟩ := oldSimple.braces
  obtain ⟨f, g, findings⟩ := Findings.exists_ofLines_replace
    (oldSimple.sameBraces newSimple) opens written headers visible
  rw [lengthBare, Nat.add_comm 1 i] at findings
  exact ⟨f, g, by rw [bareOld, findings _ (.inl rfl)], by rw [bareNew, findings _ (.inr rfl)]⟩

/-- Documents of findings that differ on one line agree elsewhere. -/
theorem Findings.agreeElsewhere {f g : Findings} {n : Nat} {old new : Text}
    (distinct : ∀ x, x = old ∨ x = new →
      ((f.append ((Findings.onLine n (trimEnd x)).append g)).problems.flatten.map (·.line)).Nodup)
    {before after oldNotes newNotes : List NumberedNote}
    (oldNumbers : ∀ note ∈ oldNotes, note.line = n)
    (newNumbers : ∀ note ∈ newNotes, note.line = n) :
    AgreeElsewhere n old new
      ((f.append ((Findings.onLine n (trimEnd old)).append g)).document
        (before ++ (oldNotes ++ after)))
      ((f.append ((Findings.onLine n (trimEnd new)).append g)).document
        (before ++ (newNotes ++ after))) where
  entities := by
    rw [without_document (onLine_onLine n _) (distinct new (.inr rfl)) newNumbers,
      without_document (onLine_onLine n _) (distinct old (.inl rfl)) oldNumbers]
  links := by
    have links (x : Text) (notes : List NumberedNote) :
        ((f.append ((Findings.onLine n (trimEnd x)).append g)).document notes).links =
          f.links.items ++ (linkOn x).toList ++ g.links.items := by
      rw [← linkOn_trimEnd, ← items_collectLinks_singleton n, List.append_assoc]
      rfl
    exact ⟨f.links.items, g.links.items, links old _, links new _⟩

/-- When a line that is outside of bodies and comments is replaced by another one, in a source that
can be read, everything that belongs to other lines stays as it is, if and only if the new line is
no annotation with a number that is too long. Otherwise the new source cannot be read at all. -/
theorem read_replaceLine_iff {source old line : Text} {i : Nat} {doc : Document}
    (plain : PlainAt source i old) (oldSimple : SimpleLine old) (newSimple : SimpleLine line)
    (read : Document.read source = .ok doc) :
    (∃ doc', Document.read (replaceLine source i line) = .ok doc' ∧
      AgreeElsewhere (i + 1) old line doc doc') ↔ numberTooLong line = false := by
  obtain ⟨f, g, findingsOld, findingsNew⟩ := exists_findings_replaceLine plain oldSimple newSimple
  obtain ⟨notes, settled, rfl⟩ := Document.read_eq_ok.1 read
  rw [findingsOld] at settled ⊢
  obtain ⟨before, oldNotes, after, hbefore, hold, hafter, rfl⟩ := Findings.settled_iff.1 settled
  rw [← numberTooLong_trimEnd, ← exists_settled_iff (i + 1)]
  constructor
  · rintro ⟨doc', read', -⟩
    obtain ⟨notes', settled', -⟩ := Document.read_eq_ok.1 read'
    rw [findingsNew] at settled'
    obtain ⟨-, newNotes, -, -, hnew, -, -⟩ := Findings.settled_iff.1 settled'
    exact ⟨newNotes, hnew⟩
  · rintro ⟨newNotes, hnew⟩
    have distinct : ∀ x, x = old ∨ x = line →
        ((f.append ((Findings.onLine (i + 1) (trimEnd x)).append g)).problems.flatten.map
          (·.line)).Nodup := by
      rintro x (rfl | rfl)
      · exact findingsOld ▸ nodup_lines_problems _
      · exact findingsNew ▸ nodup_lines_problems _
    refine ⟨_, Document.read_eq_ok.2 ⟨before ++ (newNotes ++ after), ?_, rfl⟩, ?_⟩
    · rw [findingsNew]
      exact Findings.settled_iff.2 ⟨before, newNotes, after, hbefore, hnew, hafter, rfl⟩
    · rw [findingsNew]
      exact Findings.agreeElsewhere distinct ((Findings.onLine_onLine _ _).notes_settled hold)
        ((Findings.onLine_onLine _ _).notes_settled hnew)

/-- An annotation with too many ones is a line of the kind in question. -/
theorem simpleLine_onesNote {count : Nat} (long : maxIntegerDigits < count) :
    SimpleLine (onesNote count) where
  single := not_mem_onesNote (by decide) count
  written := fun blank => absurd (blank 'a' List.mem_cons_self) (by decide)
  openingBrace := not_mem_onesNote (by decide) count
  closingBrace := not_mem_onesNote (by decide) count
  lineComment := fun inside =>
    not_mem_onesNote (c := '/') (by decide) count (inside.subset (by decide))
  blockComment := fun inside =>
    not_mem_onesNote (c := '/') (by decide) count (inside.subset (by decide))
  header := by
    have tooLong := numberTooLong_onesNote long
    rw [numberTooLong, Bool.and_eq_true] at tooLong
    exact isHeader_of_keyword
      (startsWithKeyword_of_ne (by decide) (by decide) (by decide) tooLong.1)

/-- Here the second of two lines is replaced: by a note without a position, which is a problem of
this line only, and by an annotation with a number of 4301 digits, with which nothing is read. -/
theorem read_replaceLine_iff_cup :
    ∃ doc, Document.read "component Cup [0.5, 0.25]\nnote hot [0.1, 0.2]".toList = .ok doc ∧
      doc.elements =
        [{ line := 1, name := "Cup".toList,
           position := { visibility := 0.5, maturity := 0.25 } }] ∧
      (∃ doc', Document.read (replaceLine "component Cup [0.5, 0.25]\nnote hot [0.1, 0.2]".toList 1
          "note hot".toList) = .ok doc' ∧
        AgreeElsewhere 2 "note hot [0.1, 0.2]".toList "note hot".toList doc doc') ∧
      ¬ ∃ doc', Document.read (replaceLine "component Cup [0.5, 0.25]\nnote hot [0.1, 0.2]".toList 1
          (onesNote 4301)) = .ok doc' ∧
        AgreeElsewhere 2 "note hot [0.1, 0.2]".toList (onesNote 4301) doc doc' := by
  have plain : PlainAt "component Cup [0.5, 0.25]\nnote hot [0.1, 0.2]".toList 1
      "note hot [0.1, 0.2]".toList := by
    constructor <;> decide +kernel
  have oldSimple : SimpleLine "note hot [0.1, 0.2]".toList := by constructor <;> decide +kernel
  have newSimple : SimpleLine "note hot".toList := by constructor <;> decide +kernel
  have elements :
      (Document.read "component Cup [0.5, 0.25]\nnote hot [0.1, 0.2]".toList).toOption.map
        (·.elements) = some
          [{ line := 1, name := "Cup".toList,
             position := { visibility := 0.5, maturity := 0.25 } }] := by
    decide +kernel
  cases read : Document.read "component Cup [0.5, 0.25]\nnote hot [0.1, 0.2]".toList with
  | error e =>
      rw [read] at elements
      cases elements
  | ok doc =>
      rw [read] at elements
      refine ⟨doc, rfl, Option.some.inj elements, ?_, ?_⟩
      · exact (read_replaceLine_iff plain oldSimple newSimple read).2 (by decide +kernel)
      · rw [read_replaceLine_iff plain oldSimple (simpleLine_onesNote (by decide)) read,
          numberTooLong_onesNote (by decide)]
        exact nofun

end WardleyMaps
