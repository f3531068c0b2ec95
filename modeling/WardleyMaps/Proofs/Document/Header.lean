/-
Module: WardleyMaps.Proofs.Document.Header
Purpose: The headers of pipelines and the lines of their components.
Main exports: headersFrom, readPipelines_eq, HeaderAt, BodyLine, ChildOf, mem_headersFrom,
  mem_headersFrom_of_headerAt, BodyLine.hidden, BodyLine.lt_later, mem_pipelineProblems,
  nodup_lines_readPipelines
-/
import Mathlib.Data.List.Nodup
import WardleyMaps.Proofs.Body
import WardleyMaps.Proofs.Document.Pass
import WardleyMaps.Proofs.Statement.Placed

namespace WardleyMaps

open Text

/-!
A header that is looked at lies outside of bodies, and the lines of its own body lie inside of one
(`BodyLine.hidden`). Up to the end of its body all lines are blank or hidden, so the next header
stands behind it (`BodyLine.lt_later`). Hence no line belongs to two headers, and the problems that
pipelines have come from different lines (`nodup_lines_readPipelines`).
-/

/-! ### One header at a time -/

/-- The headers among marked lines, each with the lines below it. -/
def headersFrom : List (Bool × NumberedLine) → List (NumberedLine × List Text)
  | [] => []
  | (hidden, header) :: rest =>
      if hidden || !startsWithKeyword "pipeline".toList header.1 then headersFrom rest
      else (header, rest.map fun (_, line, _) => line) :: headersFrom rest

/-- The pipeline of a header, if the header can be read. -/
def pipelineOf (h : NumberedLine × List Text) : Option Pipeline :=
  (readPipelineHeader h.1.2 h.1.1).toOption.map fun p =>
    p.withChildren (readChildren h.1 h.2).items

/-- The problems of a header and its body. -/
def pipelineProblems (h : NumberedLine × List Text) : List Problem :=
  match readPipelineHeader h.1.2 h.1.1 with
  | .error cause => [{ line := h.1.2, cause }]
  | .ok _ => (readChildren h.1 h.2).problems

/-- Pipelines are gathered header by header. -/
theorem readPipelines_eq (marked : List (Bool × NumberedLine)) :
    readPipelines marked =
      { items := (headersFrom marked).filterMap pipelineOf
        problems := (headersFrom marked).flatMap pipelineProblems } := by
  induction marked with
  | nil => rfl
  | cons head rest ih =>
      obtain ⟨hidden, header⟩ := head
      rw [readPipelines, headersFrom, ih]
      split
      · rfl
      · cases hread : readPipelineHeader header.2 header.1 with
        | error cause => simp [pipelineOf, pipelineProblems, hread, Except.toOption]
        | ok pipeline => simp [pipelineOf, pipelineProblems, hread, Except.toOption]

/-- A header outside of bodies, at a place counted from zero. -/
structure HeaderAt (bare : List Text) (i : Nat) (header : Text) : Prop where
  line : bare[i]? = some header
  visible : (inBody bare)[i]? = some false
  keyword : startsWithKeyword "pipeline".toList header = true

theorem mem_headersFrom_zip {flags : List Bool} {ls : List Text} {n : Nat}
    {h : NumberedLine × List Text} (hlen : flags.length = ls.length)
    (hmem : h ∈ headersFrom (flags.zip (ls.zipIdx n))) :
    ∃ i, ls[i]? = some h.1.1 ∧ flags[i]? = some false ∧
      startsWithKeyword "pipeline".toList h.1.1 = true ∧ h.1.2 = n + i ∧ h.2 = ls.drop (i + 1) := by
  induction ls generalizing flags n with
  | nil => simp [headersFrom] at hmem
  | cons line rest ih =>
      cases flags with
      | nil => simp at hlen
      | cons flag flags =>
          have hlen' : flags.length = rest.length := by simpa using hlen
          rw [List.zipIdx_cons, List.zip_cons_cons, headersFrom] at hmem
          have hlater : h ∈ headersFrom (flags.zip (rest.zipIdx (n + 1))) →
              ∃ i, (line :: rest)[i]? = some h.1.1 ∧ (flag :: flags)[i]? = some false ∧
                startsWithKeyword "pipeline".toList h.1.1 = true ∧ h.1.2 = n + i ∧
                h.2 = (line :: rest).drop (i + 1) := by
            intro hrest
            obtain ⟨i, hline, hflag, hkeyword, hnumber, hbelow⟩ := ih hlen' hrest
            exact ⟨i + 1, hline, hflag, hkeyword, by omega, hbelow⟩
          split at hmem
          · exact hlater hmem
          · next hskip =>
            rcases List.mem_cons.1 hmem with rfl | hrest
            · simp only [Bool.or_eq_true, Bool.not_eq_true', not_or, Bool.not_eq_true,
                Bool.not_eq_false] at hskip
              exact ⟨0, rfl, by simp [hskip.1], hskip.2, rfl, map_line_zip_zipIdx hlen' (n + 1)⟩
            · exact hlater hrest

/-- Every header is one of the lines, and the lines below it are those behind it. -/
theorem mem_headersFrom {bare : List Text} {h : NumberedLine × List Text}
    (hmem : h ∈ headersFrom ((inBody bare).zip (bare.zipIdx 1))) :
    ∃ i, HeaderAt bare i h.1.1 ∧ h.1.2 = i + 1 ∧ h.2 = bare.drop (i + 1) := by
  obtain ⟨i, hline, hflag, hkeyword, hnumber, hbelow⟩ :=
    mem_headersFrom_zip (length_inBody bare) hmem
  exact ⟨i, ⟨hline, hflag, hkeyword⟩, by omega, hbelow⟩

theorem mem_headersFrom_append {above below : List (Bool × NumberedLine)}
    {h : NumberedLine × List Text} (mem : h ∈ headersFrom below) :
    h ∈ headersFrom (above ++ below) := by
  induction above with
  | nil => exact mem
  | cons head rest ih =>
      obtain ⟨hidden, header⟩ := head
      rw [List.cons_append, headersFrom]
      split
      · exact ih
      · exact List.mem_cons_of_mem _ ih

/-- A header outside of bodies is found, with the lines below it. -/
theorem mem_headersFrom_of_headerAt {bare : List Text} {i : Nat} {header : Text}
    (h : HeaderAt bare i header) :
    ((header, i + 1), bare.drop (i + 1)) ∈
      headersFrom ((inBody bare).zip (bare.zipIdx 1)) := by
  have marked : ((inBody bare).zip (bare.zipIdx 1))[i]? = some (false, header, i + 1) := by
    refine List.getElem?_zip_eq_some.2 ⟨h.visible, ?_⟩
    rw [List.getElem?_zipIdx, h.line, Option.map_some, Nat.add_comm]
  obtain ⟨above, below, split, place⟩ := exists_around marked
  have lower := congrArg (List.drop (i + 1)) (map_line_zip_zipIdx (length_inBody bare) 1)
  rw [← List.map_drop, split, drop_around place] at lower
  have seen : ¬(false || !startsWithKeyword "pipeline".toList header) = true := by
    rw [h.keyword]
    decide
  rw [split]
  apply mem_headersFrom_append
  rw [headersFrom, if_neg seen, lower]
  exact List.mem_cons_self

/-- Headers come in the order of their lines. -/
theorem pairwise_headersFrom (bare : List Text) :
    (headersFrom ((inBody bare).zip (bare.zipIdx 1))).Pairwise fun a b => a.1.2 < b.1.2 := by
  have hsublist : ∀ marked : List (Bool × NumberedLine),
      ((headersFrom marked).map fun h => h.1).Sublist (marked.map Prod.snd) := by
    intro marked
    induction marked with
    | nil => exact List.Sublist.slnil
    | cons head rest ih =>
        obtain ⟨hidden, header⟩ := head
        rw [headersFrom]
        split
        · exact ih.cons _
        · exact ih.cons_cons _
  have hlines := hsublist ((inBody bare).zip (bare.zipIdx 1))
  rw [map_snd_zip_zipIdx (length_inBody bare)] at hlines
  have hnumbers : ((bare.zipIdx 1).map Prod.snd).Pairwise (· < ·) := by
    rw [List.zipIdx_map_snd]
    exact List.pairwise_lt_range'
  have hheaders := hnumbers.sublist (hlines.map Prod.snd)
  rw [List.map_map] at hheaders
  exact List.pairwise_map.1 hheaders

/-! ### The body of a header -/

/-- The flags behind some lines are those of the lines behind, where a body is open if these lines
leave one open. -/
theorem exists_inBodyFrom_append (isOpen : Bool) (above below : List Text) :
    ∃ flags, flags.length = above.length ∧
      inBodyFrom isOpen (above ++ below) =
        flags ++ inBodyFrom (above.foldl openAfter isOpen) below := by
  induction above generalizing isOpen with
  | nil => exact ⟨[], rfl, rfl⟩
  | cons line rest ih =>
      obtain ⟨flags, hlen, heq⟩ := ih (openAfter isOpen line)
      rw [List.cons_append, inBodyFrom_cons, heq]
      exact ⟨_ :: flags, by simp [hlen], rfl⟩

/-- The mark of a line depends on whether a body is open before it. -/
theorem inBody_getElem?_around (above below : List Text) (line : Text) :
    (inBody (above ++ line :: below))[above.length]? =
      some (hiddenBy (above.foldl openAfter false) line below) := by
  obtain ⟨flags, hlen, hflags⟩ := exists_inBodyFrom_append false above (line :: below)
  rw [inBody, hflags, inBodyFrom_cons, ← hlen, List.getElem?_append_right (Nat.le_refl _),
    Nat.sub_self, List.getElem?_cons_zero]

theorem HeaderAt.opensBody_eq {bare : List Text} {i : Nat} {header : Text}
    (h : HeaderAt bare i header) : opensBody header = false :=
  opensBody_of_startsWithKeyword (by decide) (by decide) h.keyword

/-- What stands around a header. -/
theorem HeaderAt.exists_around {bare : List Text} {i : Nat} {header : Text}
    (h : HeaderAt bare i header) :
    ∃ above below, bare = above ++ header :: below ∧ above.length = i ∧
      hiddenBy (above.foldl openAfter false) header below = false := by
  obtain ⟨above, below, rfl, rfl⟩ := Text.exists_around h.line
  have hvisible := h.visible
  rw [inBody_getElem?_around, Option.some.injEq] at hvisible
  exact ⟨above, below, rfl, rfl, hvisible⟩

/-- Up to the end of its body all lines below a header are blank or hidden. -/
theorem HeaderAt.markedBody {bare inner : List Text} {i skipped : Nat} {header : Text}
    (h : HeaderAt bare i header)
    (hbody : pipelineBody header (bare.drop (i + 1)) = .closed skipped inner) :
    MarkedBody skipped inner (((inBody bare).zip bare).drop (i + 1)) := by
  obtain ⟨above, below, rfl, rfl, hvisible⟩ := h.exists_around
  rw [drop_around rfl] at hbody
  obtain ⟨flags, hlen, hflags⟩ := exists_inBodyFrom_append false above (header :: below)
  have hmarked : ((inBody (above ++ header :: below)).zip (above ++ header :: below)).drop
      (above.length + 1) =
        (inBodyFrom (openAfter (above.foldl openAfter false) header) below).zip below := by
    rw [inBody, hflags, inBodyFrom_cons, List.zip_append hlen, List.zip_cons_cons,
      drop_around (by simp [hlen])]
  rw [hmarked]
  exact markedBody_of_closed h.opensBody_eq hvisible hbody

/-- A line between the braces of the body of a header; both are given with their places, counted
from zero. -/
structure BodyLine (bare : List Text) (place i : Nat) (line : Text) : Prop where
  body : ∃ header skipped inner j, HeaderAt bare place header ∧
    pipelineBody header (bare.drop (place + 1)) = .closed skipped inner ∧
    inner[j]? = some line ∧ i = place + 1 + skipped + j

theorem BodyLine.lt {bare : List Text} {place i : Nat} {line : Text}
    (h : BodyLine bare place i line) : place < i := by
  obtain ⟨header, skipped, inner, j, -, -, -, rfl⟩ := h.body
  omega

/-- The lines in the body of a header are hidden. -/
theorem BodyLine.hidden {bare : List Text} {place i : Nat} {line : Text}
    (h : BodyLine bare place i line) : bare[i]? = some line ∧ (inBody bare)[i]? = some true := by
  obtain ⟨header, skipped, inner, j, hheader, hbody, hline, rfl⟩ := h.body
  obtain ⟨gap, inside, tail, hmarked, hlen, hinner, -, hinside⟩ :=
    (hheader.markedBody hbody).parts
  have hj : inside[j]? = some (true, line) := by
    rw [← hinner, List.getElem?_map, Option.map_eq_some_iff] at hline
    obtain ⟨⟨flag, found⟩, hfound, rfl⟩ := hline
    obtain rfl : flag = true := hinside _ (List.mem_of_getElem? hfound)
    exact hfound
  have hlt : j < inside.length := (List.getElem?_eq_some_iff.1 hj).1
  have hzip : ((inBody bare).zip bare)[place + 1 + skipped + j]? = some (true, line) := by
    rw [Nat.add_assoc, ← List.getElem?_drop, hmarked, List.append_assoc,
      List.getElem?_append_right (by omega), ← hlen, Nat.add_sub_cancel_left,
      List.getElem?_append_left hlt, hj]
  obtain ⟨hflag, hbare⟩ := List.getElem?_zip_eq_some.1 hzip
  exact ⟨hbare, hflag⟩

/-- A later header stands behind the whole body. -/
theorem BodyLine.lt_later {bare : List Text} {place i k : Nat} {line later : Text}
    (h : BodyLine bare place i line) (hlater : HeaderAt bare k later) (hlt : place < k) :
    i < k := by
  obtain ⟨header, skipped, inner, j, hheader, hbody, hline, rfl⟩ := h.body
  obtain ⟨gap, inside, tail, hmarked, hlen, hinner, hgap, hinside⟩ :=
    (hheader.markedBody hbody).parts
  have hj : j < inside.length := by
    have hlt := (List.getElem?_eq_some_iff.1 hline).1
    rwa [← hinner, List.length_map] at hlt
  by_contra hcontra
  have hzip : (gap ++ inside ++ tail)[k - (place + 1)]? = some (false, later) := by
    rw [← hmarked, List.getElem?_drop, Nat.add_sub_cancel' (by omega)]
    exact List.getElem?_zip_eq_some.2 ⟨hlater.visible, hlater.line⟩
  rw [List.getElem?_append_left (by rw [List.length_append]; omega)] at hzip
  have hblank : ¬ Blank later := by
    intro hblank
    exact trim_ne_nil_of_startsWithKeyword (by decide) hlater.keyword (trim_eq_nil_iff.2 hblank)
  rcases List.mem_append.1 (List.mem_of_getElem? hzip) with hmem | hmem
  · rcases hgap _ hmem with hflag | hflag
    · exact absurd hflag Bool.false_ne_true
    · exact hblank hflag
  · exact absurd (hinside _ hmem) Bool.false_ne_true

/-- A line in the body of a header that can be read; both are given with their places, counted from
zero. -/
structure ChildOf (bare : List Text) (place i : Nat) (line : Text) : Prop where
  body : ∃ header pipeline skipped inner j, HeaderAt bare place header ∧
    readPipelineHeader (place + 1) header = .ok pipeline ∧
    pipelineBody header (bare.drop (place + 1)) = .closed skipped inner ∧
    inner[j]? = some line ∧ i = place + 1 + skipped + j

theorem ChildOf.bodyLine {bare : List Text} {place i : Nat} {line : Text}
    (h : ChildOf bare place i line) : BodyLine bare place i line :=
  have ⟨header, _, skipped, inner, j, hheader, _, hbody, hline, hi⟩ := h.body
  ⟨header, skipped, inner, j, hheader, hbody, hline, hi⟩

/-! ### What is gathered from one header -/

theorem exists_childOf {bare inner : List Text} {place skipped : Nat} {header line : Text}
    {pipeline : Pipeline} {number : Nat} (h : HeaderAt bare place header)
    (hread : readPipelineHeader (place + 1) header = .ok pipeline)
    (hbody : pipelineBody header (bare.drop (place + 1)) = .closed skipped inner)
    (hmem : (line, number) ∈ inner.zipIdx (place + 1 + 1 + skipped)) :
    ∃ i, number = i + 1 ∧ ChildOf bare place i line := by
  rw [List.mk_mem_zipIdx_iff_le_and_getElem?_sub] at hmem
  obtain ⟨hle, hline⟩ := hmem
  exact ⟨number - 1, by omega, header, pipeline, skipped, inner, _, h, hread, hbody, hline,
    by omega⟩

/-- A problem of a pipeline is one of its header, or of a component in its body. -/
theorem mem_pipelineProblems {bare : List Text} {place : Nat} {header : Text} {problem : Problem}
    (h : HeaderAt bare place header)
    (hmem : problem ∈ pipelineProblems ((header, place + 1), bare.drop (place + 1))) :
    (problem.line = place + 1 ∧
      (readPipelineHeader (place + 1) header = .error problem.cause ∨
        (∃ pipeline, readPipelineHeader (place + 1) header = .ok pipeline) ∧
          problem.cause = .unclosedBody ∧
          pipelineBody header (bare.drop (place + 1)) = .unclosed)) ∨
    ∃ i line, problem.line = i + 1 ∧ ChildOf bare place i line ∧
      startsWithKeyword "component".toList line = true ∧
      readPipelineChild (i + 1) line = .error problem.cause := by
  unfold pipelineProblems at hmem
  simp only at hmem
  cases hread : readPipelineHeader (place + 1) header with
  | error cause =>
      rw [hread, List.mem_singleton] at hmem
      exact .inl ⟨by rw [hmem], .inl (by rw [hmem])⟩
  | ok pipeline =>
      rw [hread] at hmem
      unfold readChildren at hmem
      simp only at hmem
      cases hbody : pipelineBody header (bare.drop (place + 1)) with
      | missing => simp [hbody] at hmem
      | unclosed =>
          simp only [hbody, List.mem_singleton] at hmem
          exact .inl ⟨by rw [hmem], .inr ⟨⟨pipeline, rfl⟩, by rw [hmem], rfl⟩⟩
      | closed skipped inner =>
          rw [hbody] at hmem
          obtain ⟨⟨line, number⟩, hp, kind, haccept, hbuild, hnumber⟩ := mem_problems_collect.1 hmem
          obtain ⟨i, rfl, hchild⟩ := exists_childOf h hread hbody hp
          exact .inr ⟨i, line, hnumber, hchild, (kindOf_eq_some haccept).2, hbuild⟩

/-- The problems of one pipeline come from different lines. -/
theorem nodup_lines_pipelineProblems (h : NumberedLine × List Text) :
    ((pipelineProblems h).map (·.line)).Nodup := by
  unfold pipelineProblems
  split
  · simp
  · unfold readChildren
    split
    · simp
    · simp
    · next skipped inner _ =>
      refine List.Nodup.sublist (sublist_problems_collect _) ?_
      rw [List.zipIdx_map_snd]
      exact List.nodup_range'

/-- The problems of all pipelines come from different lines. -/
theorem nodup_lines_readPipelines (bare : List Text) :
    ((readPipelines ((inBody bare).zip (bare.zipIdx 1))).problems.map (·.line)).Nodup := by
  rw [readPipelines_eq]
  simp only [List.map_flatMap]
  rw [List.nodup_flatMap]
  refine ⟨fun h _ => nodup_lines_pipelineProblems h, ?_⟩
  refine List.Pairwise.imp_of_mem ?_ (pairwise_headersFrom bare)
  rintro ⟨⟨header, number⟩, below⟩ ⟨⟨header', number'⟩, below'⟩ hmem hmem' hlt
  obtain ⟨place, hheader, hnumber, hbelow⟩ := mem_headersFrom hmem
  obtain ⟨place', hheader', hnumber', hbelow'⟩ := mem_headersFrom hmem'
  simp only at hheader hnumber hbelow hheader' hnumber' hbelow' hlt
  subst hnumber hbelow hnumber' hbelow'
  -- All problems of the first header lie above the second one, and those of the second do not.
  apply List.disjoint_left.2
  intro n hn hn'
  obtain ⟨problem, hproblem, rfl⟩ := List.mem_map.1 hn
  obtain ⟨problem', hproblem', hsame⟩ := List.mem_map.1 hn'
  have hfirst : problem.line ≤ place' := by
    rcases mem_pipelineProblems hheader hproblem with ⟨hline, -⟩ | ⟨i, line, hline, hchild, -⟩
    · omega
    · have := hchild.bodyLine.lt_later hheader' (by omega)
      omega
  have hsecond : place' < problem'.line := by
    rcases mem_pipelineProblems hheader' hproblem' with ⟨hline, -⟩ | ⟨i, line, hline, hchild, -⟩
    · omega
    · have := hchild.bodyLine.lt
      omega
  omega

/-! ### Entities of pipelines -/

theorem line_of_readPipelineChild {number : Nat} {line : Text} {child : PipelineChild}
    (h : readPipelineChild number line = .ok child) : child.line = number := by
  obtain ⟨b, -, h⟩ := bind_eq_ok.1 h
  obtain ⟨name, -, h⟩ := bind_eq_ok.1 h
  obtain ⟨numbers, -, h⟩ := bind_eq_ok.1 h
  split at h
  · obtain ⟨label, -, h⟩ := bind_eq_ok.1 h
    rw [← Except.ok.inj h]
  · cases h

theorem readPipelineHeader_eq_ok {number : Nat} {line : Text} {pipeline : Pipeline}
    (h : readPipelineHeader number line = .ok pipeline) :
    pipeline.line = number ∧ pipeline.children = [] := by
  obtain ⟨found, -, h⟩ := bind_eq_ok.1 h
  cases found with
  | none =>
      obtain ⟨name, -, h⟩ := bind_eq_ok.1 h
      rw [← Except.ok.inj h]
      exact ⟨rfl, rfl⟩
  | some b =>
      obtain ⟨name, -, h⟩ := bind_eq_ok.1 h
      obtain ⟨pair, -, h⟩ := bind_eq_ok.1 h
      rw [← Except.ok.inj h]
      exact ⟨rfl, rfl⟩

theorem Pipeline.line_withChildren (p : Pipeline) (children : List PipelineChild) :
    (p.withChildren children).line = p.line := by
  cases children <;> rfl

theorem Pipeline.children_withChildren {p : Pipeline} (h : p.children = [])
    (children : List PipelineChild) : (p.withChildren children).children = children := by
  cases children with
  | nil => exact h
  | cons child others => rfl

theorem pipelineOf_eq_some {h : NumberedLine × List Text} {pipeline : Pipeline} :
    pipelineOf h = some pipeline ↔
      ∃ p, readPipelineHeader h.1.2 h.1.1 = .ok p ∧
        pipeline = p.withChildren (readChildren h.1 h.2).items := by
  unfold pipelineOf
  cases readPipelineHeader h.1.2 h.1.1 <;> simp [Except.toOption, eq_comm]

/-- A pipeline is made from its header and the body below it. -/
theorem exists_header_of_item {bare : List Text} {pipeline : Pipeline}
    (hmem : pipeline ∈ (readPipelines ((inBody bare).zip (bare.zipIdx 1))).items) :
    ∃ place header p, HeaderAt bare place header ∧
      readPipelineHeader (place + 1) header = .ok p ∧ pipeline.line = place + 1 ∧
      pipeline.children =
        (readChildren (header, place + 1) (bare.drop (place + 1))).items := by
  rw [readPipelines_eq, List.mem_filterMap] at hmem
  obtain ⟨⟨⟨header, number⟩, below⟩, hheaders, hpipeline⟩ := hmem
  obtain ⟨place, hheader, hnumber, hbelow⟩ := mem_headersFrom hheaders
  simp only at hheader hnumber hbelow
  subst hnumber hbelow
  obtain ⟨p, hread, rfl⟩ := pipelineOf_eq_some.1 hpipeline
  obtain ⟨hline, hnone⟩ := readPipelineHeader_eq_ok hread
  exact ⟨place, header, p, hheader, hread, by rw [Pipeline.line_withChildren, hline],
    Pipeline.children_withChildren hnone _⟩

/-- A pipeline comes from its header, and its components from lines in the body. -/
theorem mem_items_readPipelines {bare : List Text} {pipeline : Pipeline}
    (hmem : pipeline ∈ (readPipelines ((inBody bare).zip (bare.zipIdx 1))).items) :
    ∃ place header, HeaderAt bare place header ∧ pipeline.line = place + 1 ∧
      (∃ p, readPipelineHeader (place + 1) header = .ok p) ∧
      ∀ child ∈ pipeline.children, ∃ i line, child.line = i + 1 ∧ ChildOf bare place i line ∧
        startsWithKeyword "component".toList line = true ∧
        readPipelineChild (i + 1) line = .ok child := by
  obtain ⟨place, header, p, hheader, hread, hline, hchildren⟩ := exists_header_of_item hmem
  refine ⟨place, header, hheader, hline, ⟨p, hread⟩, fun child hchild => ?_⟩
  rw [hchildren, readChildren] at hchild
  cases hbody : pipelineBody header (bare.drop (place + 1)) with
  | missing => simp [hbody] at hchild
  | unclosed => simp [hbody] at hchild
  | closed skipped inner =>
      rw [hbody] at hchild
      obtain ⟨⟨line, number⟩, hp, kind, haccept, hbuild⟩ := mem_items_collect.1 hchild
      obtain ⟨i, rfl, hchildOf⟩ := exists_childOf hheader hread hbody hp
      exact ⟨i, line, line_of_readPipelineChild hbuild, hchildOf, (kindOf_eq_some haccept).2,
        hbuild⟩

end WardleyMaps
