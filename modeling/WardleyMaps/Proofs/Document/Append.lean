/-
Module: WardleyMaps.Proofs.Document.Append
Purpose: The document of two sources, one below the other.
Main exports: EndsWithHeader, BeginsWithBody, Document.stack, pipelineBody_append,
  inBodyFrom_append, markLines_append, read_append
-/
import Mathlib.Data.List.Perm.Basic
import WardleyMaps.Proofs.Comment.Segment
import WardleyMaps.Proofs.Document.Marked
import WardleyMaps.Proofs.Document.Verdict

namespace WardleyMaps

open Text

/-!
Reading is a homomorphism: the document of two sources, one below the other, is put together from
their documents (`read_append`). What must not happen is that something which the upper source opens
goes on in the lower one. So at the end of the upper source no block comment may be open and no body
of braces, and its last statement must not be a pipeline header for which the lower source begins
with a body (`EndsWithHeader`, `BeginsWithBody`). Then the marks of the lines are those of both
sources (`markLines_append`), every header finds the body that it has in its own source
(`pipelineBody_append`), and the passes gather first from the one and then from the other.
-/

/-- The last line that is not blank is the header of a pipeline, and opens no body at its end. -/
def EndsWithHeader (bare : List Text) : Prop :=
  ∃ place header pipeline, HeaderAt bare place header ∧ endsWithBrace header = false ∧
    readPipelineHeader (place + 1) header = .ok pipeline ∧
    ∀ line ∈ bare.drop (place + 1), Blank line

/-- The first line that is not blank begins with an opening brace. -/
def BeginsWithBody (bare : List Text) : Prop :=
  ∃ gap line rest, bare = gap ++ line :: rest ∧ (∀ other ∈ gap, Blank other) ∧
    opensBody line = true

/-- Whether a source has a statement of the keyword that can be read. -/
def states {α : Type} (keyword : String) (read : Text → Except Cause α) (source : Text) : Bool :=
  (bareLines source).any fun line => startsWithKeyword keyword.toList line && (read line).isOk

/-- The document of two sources, one below the other, from the documents of both. The first title
and the first naming of the stages count, and the last style, legend and size. -/
def Document.stack (a b : Text) (upper lower : Document) : Document :=
  let moved := lower.renumber (· + (lines a).length)
  { title := if states "title" readTitle a then upper.title else lower.title
    elements := upper.elements ++ moved.elements
    links := upper.links ++ moved.links
    anchors := upper.anchors ++ moved.anchors
    evolved := upper.evolved ++ moved.evolved
    pipelines := upper.pipelines ++ moved.pipelines
    annotations := upper.annotations ++ moved.annotations
    notes := upper.notes ++ moved.notes
    stages := if states "evolution" readStages a then upper.stages else lower.stages
    submaps := upper.submaps ++ moved.submaps
    addresses := upper.addresses ++ moved.addresses
    attitudes := upper.attitudes ++ moved.attitudes
    accelerators := upper.accelerators ++ moved.accelerators
    methods := upper.methods ++ moved.methods
    presentation :=
      { style :=
          if states "style" readStyle b then lower.presentation.style
          else upper.presentation.style
        legend :=
          if states "annotations" readLegend b then lower.presentation.legend
          else upper.presentation.legend
        size :=
          if states "size" readSize b then lower.presentation.size else upper.presentation.size }
    problems := upper.problems ++ moved.problems }

/-! ### Bodies -/

/-- A body that is open before some lines and not behind them is closed by one of them. -/
theorem any_closesBody_of_foldl {ls : List Text} (h : ls.foldl openAfter true = false) :
    ls.any closesBody = true := by
  induction ls with
  | nil => cases h
  | cons line rest ih =>
      by_cases hc : closesBody line = true
      · simp [hc]
      · have hopen : openAfter true line = true := by simp [openAfter, hc]
        rw [List.foldl_cons, hopen] at h
        rw [List.any_cons, ih h, Bool.or_true]

/-- Lines below do not matter for the marks of lines that leave no body open. -/
theorem inBodyFrom_append {isOpen : Bool} {above : List Text}
    (h : above.foldl openAfter isOpen = false) (below : List Text) :
    inBodyFrom isOpen (above ++ below) = inBodyFrom isOpen above ++ inBody below := by
  induction above generalizing isOpen with
  | nil =>
      obtain rfl : isOpen = false := h
      rfl
  | cons line rest ih =>
      rw [List.foldl_cons] at h
      have hhidden : hiddenBy isOpen line (rest ++ below) = hiddenBy isOpen line rest := by
        cases hopen : openAfter isOpen line with
        | true =>
            have hany : rest.any closesBody = true := any_closesBody_of_foldl (hopen ▸ h)
            cases isOpen <;> simp [hiddenBy, hany]
        | false =>
            cases isOpen with
            | true =>
                have hc : closesBody line = true := by simpa [openAfter] using hopen
                simp [hiddenBy, hc]
            | false =>
                by_cases hopens : opensBody line = true
                · have hc : closesBody line = true := by simpa [openAfter, hopens] using hopen
                  simp [hiddenBy, hc]
                · simp [hiddenBy, hopens]
      rw [List.cons_append, inBodyFrom_cons, inBodyFrom_cons, ih h, hhidden, List.cons_append]

theorem untilClosed_append {above : List Text} (h : above.any closesBody = true) (skipped : Nat)
    (below : List Text) : untilClosed skipped (above ++ below) = untilClosed skipped above := by
  induction above with
  | nil => cases h
  | cons line rest ih =>
      rw [List.cons_append, untilClosed_cons, untilClosed_cons]
      by_cases hc : closesBody line = true
      · rw [if_pos hc, if_pos hc]
      · rw [List.any_cons, eq_false_of_ne_true hc, Bool.false_or] at h
        rw [ih h]

theorem not_blank_of_opensBody {line : Text} (h : opensBody line = true) : ¬ Blank line := by
  intro hblank
  rw [opensBody, trim_eq_nil_iff.2 hblank] at h
  cases h

theorem beginsWithBody_cons {line : Text} {rest : List Text} :
    BeginsWithBody (line :: rest) ↔
      opensBody line = true ∨ Blank line ∧ BeginsWithBody rest := by
  constructor
  · rintro ⟨gap, first, others, hsplit, hgap, hfirst⟩
    cases gap with
    | nil =>
        obtain ⟨rfl, rfl⟩ := List.cons.inj hsplit
        exact .inl hfirst
    | cons other gap =>
        obtain ⟨rfl, rfl⟩ := List.cons.inj hsplit
        exact .inr ⟨hgap line List.mem_cons_self, gap, first, others, rfl,
          fun l hl => hgap l (List.mem_cons_of_mem line hl), hfirst⟩
  · rintro (hopens | ⟨hblank, gap, first, others, rfl, hgap, hfirst⟩)
    · exact ⟨[], line, rest, rfl, by simp, hopens⟩
    · exact ⟨line :: gap, first, others, rfl, List.forall_mem_cons.2 ⟨hblank, hgap⟩, hfirst⟩

/-- The search for a body below a header finds none just when the lines do not begin with one. -/
theorem bodyBelow_eq_missing_iff {ls : List Text} (skipped : Nat) :
    bodyBelow skipped ls = .missing ↔ ¬ BeginsWithBody ls := by
  induction ls generalizing skipped with
  | nil => simp [bodyBelow, BeginsWithBody]
  | cons line rest ih =>
      rw [bodyBelow, beginsWithBody_cons]
      by_cases hopens : opensBody line = true
      · have hwritten : ¬ (trim line).isEmpty = true := fun hempty =>
          not_blank_of_opensBody hopens (trim_eq_nil_iff.1 (List.isEmpty_iff.1 hempty))
        rw [if_neg hwritten, if_pos hopens, untilClosed]
        simp only [hopens, true_or, not_true_eq_false, iff_false]
        split
        · simp
        · split <;> simp
      · rw [if_neg hopens]
        split
        · next hblank =>
          have hline : Blank line := trim_eq_nil_iff.1 (List.isEmpty_iff.1 hblank)
          simp [ih, hopens, hline]
        · next hwritten =>
          have hline : ¬ Blank line := fun hline =>
            hwritten (List.isEmpty_iff.2 (trim_eq_nil_iff.2 hline))
          simp [hopens, hline]

theorem bodyBelow_append {above below : List Text} (h : above.foldl openAfter false = false)
    (hapart : (∀ line ∈ above, Blank line) → ¬ BeginsWithBody below) (skipped : Nat) :
    bodyBelow skipped (above ++ below) = bodyBelow skipped above := by
  induction above generalizing skipped with
  | nil => exact (bodyBelow_eq_missing_iff skipped).2 (hapart (by simp))
  | cons line rest ih =>
      rw [List.foldl_cons] at h
      rw [List.cons_append, bodyBelow, bodyBelow]
      split
      · next hblank =>
        have htrim : trim line = [] := List.isEmpty_iff.1 hblank
        rw [openAfter_of_trim_nil htrim] at h
        exact ih h (fun hrest =>
          hapart (List.forall_mem_cons.2 ⟨trim_eq_nil_iff.1 htrim, hrest⟩)) _
      · split
        · next hopens =>
          split
          · rfl
          · next hc =>
            have hopen : openAfter false line = true := by simp [openAfter, hopens, hc]
            rw [hopen] at h
            exact untilClosed_append (any_closesBody_of_foldl h) _ _
        · rfl

/-- A header that is not hidden has the body that it has in its own source. -/
theorem pipelineBody_append {header : Text} {isOpen : Bool} {above below : List Text}
    (hopens : opensBody header = false) (hhidden : hiddenBy isOpen header above = false)
    (hend : (header :: above).foldl openAfter isOpen = false)
    (hapart : endsWithBrace header = false → (∀ line ∈ above, Blank line) →
      ¬ BeginsWithBody below) :
    pipelineBody header (above ++ below) = pipelineBody header above := by
  cases isOpen with
  | true =>
      -- A body that is open before the header is closed below, so the header would be hidden.
      have hany := any_closesBody_of_foldl hend
      rw [List.any_cons] at hany
      exact absurd hany (Bool.not_eq_true _ ▸ hhidden)
  | false =>
      rw [List.foldl_cons, openAfter, hopens, if_neg Bool.false_ne_true] at hend
      rw [pipelineBody, pipelineBody]
      split
      · next hends =>
        rw [hends] at hend
        exact untilClosed_append (any_closesBody_of_foldl hend) 0 below
      · next hends =>
        rw [Bool.not_eq_true] at hends
        rw [hends] at hend
        exact bodyBelow_append hend (hapart hends) 0

/-! ### Marked lines -/

theorem markLines_append {above : List Text} (h : above.foldl openAfter false = false)
    (below : List Text) :
    markLines (above ++ below) =
      markLines above ++ (markLines below).map (MarkedLine.renumber (· + above.length)) := by
  have hbelow : (markLines below).map (MarkedLine.renumber (· + above.length)) =
      (inBody below).zip (below.zipIdx (1 + above.length)) :=
    map_renumber_zip_zipIdx (fun i _ => by omega) (inBody below)
  have hmarks : inBody (above ++ below) = inBody above ++ inBody below := inBodyFrom_append h below
  rw [hbelow, markLines, markLines, hmarks, List.zipIdx_append,
    List.zip_append (by simp [length_inBody])]

/-- A marked line of a document, with what stands around it. -/
theorem exists_of_markLines {bare : List Text} {above below : List MarkedLine} {m : MarkedLine}
    (h : markLines bare = above ++ m :: below) :
    ∃ upper lower, bare = upper ++ m.2.1 :: lower ∧ (inBody bare)[upper.length]? = some m.1 ∧
      m.2.2 = upper.length + 1 ∧ below.map Prod.snd = lower.zipIdx (upper.length + 2) := by
  have hget : (markLines bare)[above.length]? = some m := by simp [h]
  obtain ⟨hmark, hline⟩ := List.getElem?_zip_eq_some.1 hget
  rw [List.getElem?_zipIdx, Option.map_eq_some_iff] at hline
  obtain ⟨line, hline, hm⟩ := hline
  obtain ⟨upper, lower, hbare, hlen⟩ := exists_around hline
  have hbelow : below.map Prod.snd = (bare.zipIdx 1).drop (above.length + 1) := by
    rw [← map_snd_zip_zipIdx (length_inBody bare), ← List.map_drop, ← markLines, h, drop_around rfl]
  refine ⟨upper, lower, by rw [hbare, ← hm], by rw [hlen, hmark], by rw [← hm, hlen]; omega, ?_⟩
  rw [hbelow, hbare, List.zipIdx_append, List.zipIdx_cons, drop_around (by simp [hlen])]
  congr 1
  omega

/-- Where no body is open at the end and none begins below for a last header, every header finds the
body that it has. -/
theorem bodiesEnd_markLines {above below : List Text} (h : above.foldl openAfter false = false)
    (hapart : ¬ (EndsWithHeader above ∧ BeginsWithBody below)) :
    BodiesEnd (markLines above)
      ((markLines below).map (MarkedLine.renumber (· + above.length))) := by
  intro before header after pipeline hsplit hkeyword hread
  obtain ⟨upper, lower, hbare, hvisible, hnumber, hafter⟩ := exists_of_markLines hsplit
  have hheader : HeaderAt above upper.length header.1 := ⟨by simp [hbare], hvisible, hkeyword⟩
  have hmark := inBody_getElem?_around upper lower header.1
  rw [← hbare, hvisible, Option.some.injEq] at hmark
  rw [hbare, List.foldl_append] at h
  have hlater : ((markLines below).map (MarkedLine.renumber (· + above.length))).map Prod.snd =
      below.zipIdx (upper.length + 2 + lower.length) := by
    have hlength : 1 + above.length = upper.length + 2 + lower.length := by
      rw [hbare, List.length_append, List.length_cons]
      omega
    rw [markLines, map_renumber_zip_zipIdx (m := 1 + above.length) (fun i _ => by omega),
      map_snd_zip_zipIdx (length_inBody below), hlength]
  rw [List.map_append, hafter, hlater, ← List.zipIdx_append, foundBody_zipIdx, foundBody_zipIdx,
    pipelineBody_append hheader.opensBody_eq hmark.symm h]
  intro hends hblank hbegins
  refine hapart ⟨⟨upper.length, header.1, pipeline, hheader, hends, ?_, ?_⟩, hbegins⟩
  · rwa [hnumber] at hread
  · rwa [hbare, drop_around rfl]

/-! ### Two sources -/

theorem lines_append (a b : Text) : lines (a ++ '\n' :: b) = lines a ++ lines b :=
  List.splitOn_append_cons_self a b

theorem bareLines_append {a : Text} (h : blockAfter false (lines a) = false) (b : Text) :
    bareLines (a ++ '\n' :: b) = bareLines a ++ bareLines b := by
  rw [bareLines, lines_append, stripLines_append, h, bareLines, bareLines]

theorem length_bareLines (source : Text) : (bareLines source).length = (lines source).length :=
  length_stripLines false _

/-- All passes gather from the upper lines first. -/
theorem ofLines_append {above below : List Text} (h : above.foldl openAfter false = false)
    (hapart : ¬ (EndsWithHeader above ∧ BeginsWithBody below)) :
    Findings.ofLines (above ++ below) =
      (Findings.ofLines above).append
        ((Findings.ofLines below).renumber (· + above.length)) := by
  rw [Findings.ofLines_eq_ofMarked, markLines_append h,
    Findings.ofMarked_append (bodiesEnd_markLines h hapart), Findings.ofMarked_renumber,
    Findings.ofLines_eq_ofMarked, Findings.ofLines_eq_ofMarked]

/-! ### The document of both -/

section

variable {α : Type} {keyword : String} {read : Text → Except Cause α}

/-- A source has a statement that can be read just when its pass gathers one. -/
theorem states_eq (source : Text) :
    states keyword read source =
      !(collectKeyword keyword (fun _ => read) ((bareLines source).zipIdx 1)).items.isEmpty := by
  rw [Bool.eq_iff_iff, Bool.not_eq_true', List.isEmpty_eq_false_iff_exists_mem, states,
    List.any_eq_true]
  constructor
  · rintro ⟨line, hmem, hline⟩
    rw [Bool.and_eq_true] at hline
    obtain ⟨i, hi⟩ := List.mem_iff_getElem?.1 hmem
    obtain ⟨item, hread⟩ : ∃ item, read line = .ok item := by
      cases hread : read line with
      | error cause => simp [hread, Except.isOk, Except.toBool] at hline
      | ok item => exact ⟨item, rfl⟩
    have hnumbered : (line, i + 1) ∈ (bareLines source).zipIdx 1 :=
      List.mk_mem_zipIdx_iff_le_and_getElem?_sub.2 ⟨by omega, by simpa using hi⟩
    exact ⟨item, mem_items_collect.2 ⟨_, hnumbered, (), kindOf_unit hline.1, hread⟩⟩
  · rintro ⟨item, hitem⟩
    obtain ⟨i, line, kind, hline, haccept, hread⟩ := exists_line_of_item hitem
    refine ⟨line, List.mem_of_getElem? hline, ?_⟩
    simp [(kindOf_eq_some haccept).2, hread, Except.isOk, Except.toBool]

/-- The first statement of two lists is that of the first list, if it has one. -/
theorem head?_getD_states (source : Text) (others : List α) (standard : α) :
    ((collectKeyword keyword (fun _ => read) ((bareLines source).zipIdx 1)).items ++
        others).head?.getD standard =
      if states keyword read source then
        (collectKeyword keyword (fun _ => read)
          ((bareLines source).zipIdx 1)).items.head?.getD standard
      else others.head?.getD standard := by
  rw [states_eq]
  cases (collectKeyword keyword (fun _ => read) ((bareLines source).zipIdx 1)).items <;> simp

/-- The last statement of two lists is that of the second list, if it has one. -/
theorem getLast?_getD_states (source : Text) (others : List α) (standard : α) :
    (others ++ (collectKeyword keyword (fun _ => read)
        ((bareLines source).zipIdx 1)).items).getLast?.getD standard =
      if states keyword read source then
        (collectKeyword keyword (fun _ => read)
          ((bareLines source).zipIdx 1)).items.getLast?.getD standard
      else others.getLast?.getD standard := by
  rw [states_eq]
  generalize (collectKeyword keyword (fun _ => read) ((bareLines source).zipIdx 1)).items = items
  cases items with
  | nil => simp
  | cons item rest => simp [List.getLast?_cons]

end

theorem mapM_append {ε α β : Type} {f : α → Except ε β} {l l' : List α} {bs bs' : List β}
    (h : l.mapM f = .ok bs) (h' : l'.mapM f = .ok bs') : (l ++ l').mapM f = .ok (bs ++ bs') := by
  rw [List.mapM_append, h, h']
  rfl

theorem line_le_of_mem_problems {bare : List Text} {problem : Problem}
    (h : problem ∈ (Findings.ofLines bare).problems.flatten) :
    0 < problem.line ∧ problem.line ≤ bare.length := by
  rw [Findings.problems_eq] at h
  obtain ⟨p, -, hp⟩ := List.mem_flatMap.1 h
  obtain ⟨q, -, i, line, hnumber, hsees, haccepts, -⟩ := faultOn_of_problemsOf hp
  have hlt := (List.getElem?_eq_some_iff.1 (hsees.bare haccepts.ne_nil)).1
  omega

theorem Findings.problemsOf_append (f g : Findings) (p : PassName) :
    (f.append g).problemsOf p = f.problemsOf p ++ g.problemsOf p := by
  cases p <;> rfl

theorem Findings.problems_append_perm (f g : Findings) :
    (f.append g).problems.flatten.Perm (f.problems.flatten ++ g.problems.flatten) := by
  have hproblemsOf : (f.append g).problemsOf = fun p => f.problemsOf p ++ g.problemsOf p :=
    funext (problemsOf_append f g)
  rw [problems_eq, problems_eq, problems_eq, hproblemsOf]
  exact (List.flatMap_append_perm problemOrder f.problemsOf g.problemsOf).symm

/-- The problems of the upper source come first. -/
theorem sortProblems_append {above below : List Text} (h : above.foldl openAfter false = false)
    (hapart : ¬ (EndsWithHeader above ∧ BeginsWithBody below)) :
    sortProblems (Findings.ofLines (above ++ below)).problems.flatten =
      sortProblems (Findings.ofLines above).problems.flatten ++
        (sortProblems (Findings.ofLines below).problems.flatten).map
          (Problem.renumber (· + above.length)) := by
  have hsorted : ∀ bare : List Text,
      (sortProblems (Findings.ofLines bare).problems.flatten).Pairwise fun p q =>
        p.line < q.line := fun bare =>
    List.pairwise_map.1 (pairwise_lt_sortProblems (nodup_lines_problems bare))
  have hperm : ∀ problems, (sortProblems problems).Perm problems :=
    fun problems => List.mergeSort_perm _ _
  have hmem : ∀ {bare : List Text} {p}, p ∈ sortProblems (Findings.ofLines bare).problems.flatten →
      0 < p.line ∧ p.line ≤ bare.length :=
    fun hp => line_le_of_mem_problems ((hperm _).mem_iff.1 hp)
  -- Both sides are in the strict order of their lines, so they are equal if they hold the same.
  refine List.Perm.eq_of_pairwise (fun p q _ _ hpq hqp => absurd hpq (Nat.lt_asymm hqp))
    (hsorted _) ?_ ?_
  · refine List.pairwise_append.2 ⟨hsorted above, List.pairwise_map.2 ?_, ?_⟩
    · exact (hsorted below).imp fun hlt => Nat.add_lt_add_right hlt _
    · intro p hp q hq
      obtain ⟨r, hr, rfl⟩ := List.mem_map.1 hq
      have hupper := hmem hp
      have hlower := hmem hr
      simp only [Problem.renumber]
      omega
  · rw [ofLines_append h hapart]
    refine (hperm _).trans ((Findings.problems_append_perm _ _).trans ?_)
    rw [Findings.problems_renumber, ← List.map_flatten]
    exact ((hperm _).symm.append ((hperm _).symm.map _))

/-- The document of two sources, one below the other, is put together from their documents, where
nothing that the upper one opens goes on in the lower one. -/
theorem read_append {a b : Text} {upper lower : Document} (ha : Document.read a = .ok upper)
    (hb : Document.read b = .ok lower) (hblock : blockAfter false (lines a) = false)
    (hbody : (bareLines a).foldl openAfter false = false)
    (hapart : ¬ (EndsWithHeader (bareLines a) ∧ BeginsWithBody (bareLines b))) :
    Document.read (a ++ '\n' :: b) = .ok (.stack a b upper lower) := by
  obtain ⟨annotations, hsettle, rfl⟩ := Document.read_eq_ok.1 ha
  obtain ⟨annotations', hsettle', rfl⟩ := Document.read_eq_ok.1 hb
  have hfound := ofLines_append hbody hapart
  have hproblems := sortProblems_append hbody hapart
  rw [length_bareLines] at hfound hproblems
  rw [hfound] at hproblems
  rw [Document.read_eq_ok, bareLines_append hblock, hfound]
  refine ⟨annotations ++ annotations'.map (NumberedNote.renumber (· + (lines a).length)), ?_, ?_⟩
  · have hmoved : ((Findings.ofLines (bareLines b)).drafts.items.map
        (AnnotationDraft.renumber (· + (lines a).length))).mapM AnnotationDraft.settle =
          .ok (annotations'.map (NumberedNote.renumber (· + (lines a).length))) := by
      rw [mapM_settle_renumber, hsettle']
      rfl
    exact mapM_append hsettle hmoved
  · have htitle : ∀ others standard,
        ((Findings.ofLines (bareLines a)).titles.items ++ others).head?.getD standard = _ :=
      head?_getD_states a
    have hstages : ∀ others standard,
        ((Findings.ofLines (bareLines a)).stages.items ++ others).head?.getD standard = _ :=
      head?_getD_states a
    have hstyle : ∀ others standard,
        (others ++ (Findings.ofLines (bareLines b)).styles.items).getLast?.getD standard = _ :=
      getLast?_getD_states b
    have hlegend : ∀ others standard,
        (others ++ (Findings.ofLines (bareLines b)).legends.items).getLast?.getD standard = _ :=
      getLast?_getD_states b
    have hsize : ∀ others standard,
        (others ++ (Findings.ofLines (bareLines b)).sizes.items).getLast?.getD standard = _ :=
      getLast?_getD_states b
    simp only [Document.stack, Document.renumber, Findings.document, hproblems]
    simp only [Findings.append, Findings.renumber, Pass.append, Pass.renumber, List.map_id, htitle,
      hstages, hstyle, hlegend, hsize]
    rfl

/-- The title is that of the upper source and the style that of the lower one; the problem moves. -/
theorem read_append_kettle :
    let a := "title Tea\nstyle plain\npipeline Kettle\n\x7b\ncomponent Cup [0.5]\n\x7d".toList
    let b := "title Coffee\nstyle colour\ncomponent Pot".toList
    let upper : Document :=
      { title := "Tea".toList
        pipelines := [{ line := 3, name := "Kettle".toList, shown := true, first := 0.5,
                        last := 0.5,
                        children := [{ line := 5, name := "Cup".toList, maturity := 0.5 }] }]
        presentation := { style := "plain".toList } }
    let lower (number : Nat) : Document :=
      { title := "Coffee".toList
        presentation := { style := "colour".toList }
        problems := [{ line := number, cause := .missing "component" "[visibility, maturity]" }] }
    Document.read a = .ok upper ∧ Document.read b = .ok (lower 3) ∧
      Document.read (a ++ '\n' :: b) =
        .ok
          { upper with
            presentation := (lower 9).presentation
            problems := (lower 9).problems } := by
  intro a b upper lower
  have ha : Document.read a = .ok upper := by decide +kernel
  have hb : Document.read b = .ok (lower 3) := by decide +kernel
  have hboth : Document.read (a ++ '\n' :: b) = .ok (.stack a b upper (lower 3)) :=
    read_append ha hb (by decide +kernel) (by decide +kernel) fun h =>
      (bodyBelow_eq_missing_iff 0).1 (by decide +kernel) h.2
  have hstack : Document.stack a b upper (lower 3) =
      { upper with
        presentation := (lower 9).presentation
        problems := (lower 9).problems } := by
    decide +kernel
  exact ⟨ha, hb, hstack ▸ hboth⟩

end WardleyMaps
