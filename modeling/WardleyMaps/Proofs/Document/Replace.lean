/-
Module: WardleyMaps.Proofs.Document.Replace
Purpose: What the passes find when one line is replaced by another of the same keyword.
Main exports: Pass.replace, isHeader, exists_readPipelines_replace, readPipelines_replace, Alike,
  Alike.ofLines_element, Alike.ofLines_anchor, Alike.ofLines_submap
-/
import WardleyMaps.Edit.Position
import WardleyMaps.Proofs.Body
import WardleyMaps.Proofs.Document.Pass
import WardleyMaps.Proofs.Document.Renumber
import WardleyMaps.Proofs.Statement.Placed

namespace WardleyMaps

open Text

/-!
A line outside of bodies is replaced by another one with the same keyword and the same braces. The
pass of this keyword finds another entity there, and no pass finds anything else. Passes that look
at one line at a time do not recognise either line, since a line has one keyword; the pipelines look
at lines below their headers, but see no difference there (`readPipelines_replace`). The other
pipelines stay the same even when one of the lines is a header that cannot be read
(`exists_readPipelines_replace`).
-/

/-! ### One pass -/

/-- What a pass gathered, with one entity in place of another. -/
def Pass.replace {α : Type} [DecidableEq α] (p : Pass α) (old new : α) : Pass α :=
  { p with items := p.items.map fun item => if item = old then new else item }

section

variable {α κ : Type} {accept : Text → Option κ} {build : κ → Nat → Text → Except Cause α}

/-- Readers that write the number of the line into what they read. -/
def Numbers (build : κ → Nat → Text → Except Cause α) (numberOf : α → Nat) : Prop :=
  ∀ kind number line item, build kind number line = .ok item → numberOf item = number

/-- The entities of other lines are other entities. -/
theorem ne_of_mem_collect {numberOf : α → Nat} (hnumber : Numbers build numberOf) {kind : κ}
    {number : Nat} {line : Text} {item : α} (hbuild : build kind number line = .ok item)
    {others : List NumberedLine} (hothers : ∀ p ∈ others, p.2 ≠ number) :
    ∀ other ∈ (collect accept build others).items, other ≠ item := by
  rintro other hmem rfl
  obtain ⟨p, hp, kind', -, hother⟩ := mem_items_collect.1 hmem
  apply hothers p hp
  rw [← hnumber _ _ _ _ hother, ← hnumber _ _ _ _ hbuild]

/-- A pass that reads one entity from each of two lines sees the one in place of the other. -/
theorem collect_replace_of_ok [DecidableEq α] {numberOf : α → Nat}
    (hnumber : Numbers build numberOf) {a b : Text} {number : Nat} {kind : κ} {old new : α}
    (ha : accept a = some kind) (hb : accept b = some kind)
    (hold : build kind number a = .ok old) (hnew : build kind number b = .ok new)
    {above below : List NumberedLine} (habove : ∀ p ∈ above, p.2 ≠ number)
    (hbelow : ∀ p ∈ below, p.2 ≠ number) :
    collect accept build (above ++ (b, number) :: below) =
      (collect accept build (above ++ (a, number) :: below)).replace old new := by
  have hkeep : ∀ others : List NumberedLine, (∀ p ∈ others, p.2 ≠ number) →
      (collect accept build others).items.map (fun item => if item = old then new else item) =
        (collect accept build others).items := by
    intro others hothers
    conv_rhs => rw [← List.map_id (collect accept build others).items]
    apply List.map_congr_left
    intro other hmem
    rw [if_neg (ne_of_mem_collect hnumber hold hothers other hmem), id]
  rw [collect_of_ok ha hold, collect_of_ok hb hnew]
  simp [Pass.replace, hkeep above habove, hkeep below hbelow]

end

/-! ### Numbers of lines -/

theorem zipIdx_append_cons (above below : List Text) (line : Text) (n : Nat) :
    (above ++ line :: below).zipIdx n =
      above.zipIdx n ++ (line, n + above.length) :: below.zipIdx (n + above.length + 1) := by
  rw [List.zipIdx_append, List.zipIdx_cons]

theorem number_ne_of_above {above : List Text} {n : Nat} {p : NumberedLine}
    (hp : p ∈ above.zipIdx n) : p.2 ≠ n + above.length := by
  have := List.snd_lt_add_of_mem_zipIdx hp
  omega

theorem number_ne_of_below {below : List Text} {n m : Nat} {p : NumberedLine}
    (hp : p ∈ below.zipIdx (n + m + 1)) : p.2 ≠ n + m := by
  have := List.le_snd_of_mem_zipIdx hp
  omega

/-! ### Pipelines -/

/-- Whether a line is the header of a pipeline: a statement `pipeline` that can be read. -/
def isHeader (line : Text) : Bool :=
  startsWithKeyword "pipeline".toList line && (readPipelineHeader 0 line).isOk

/-- What the pass over pipelines gathers from a line outside of bodies that is no header: a problem,
if it is a statement `pipeline` that cannot be read. -/
def brokenHeader (number : Nat) (line : Text) : Pass Pipeline :=
  { items := []
    problems :=
      if startsWithKeyword "pipeline".toList line then
        match readPipelineHeader number line with
        | .error cause => [{ line := number, cause }]
        | .ok _ => []
      else [] }

/-- A header is one under every number. -/
theorem isHeader_eq (number : Nat) (line : Text) :
    isHeader line =
      (startsWithKeyword "pipeline".toList line && (readPipelineHeader number line).isOk) := by
  have other : readPipelineHeader 0 line =
      (readPipelineHeader number line).map (Pipeline.renumber fun _ => 0) :=
    readPipelineHeader_renumber (fun _ => 0) number line
  rw [isHeader, other]
  cases readPipelineHeader number line <;> rfl

theorem isHeader_of_keyword {line : Text} (h : startsWithKeyword "pipeline".toList line = false) :
    isHeader line = false := by
  rw [isHeader, h, Bool.false_and]

theorem brokenHeader_of_keyword {line : Text}
    (h : startsWithKeyword "pipeline".toList line = false) (number : Nat) :
    brokenHeader number line = { items := [], problems := [] } := by
  simp only [brokenHeader, h, Bool.false_eq_true, ↓reduceIte]

/-- A line that is no header has no body, so the pass over pipelines sees it on its own. -/
theorem readPipelines_cons_of_not_header {line : Text} (h : isHeader line = false) (number : Nat)
    (rest : List (Bool × NumberedLine)) :
    readPipelines ((false, line, number) :: rest) =
      (brokenHeader number line).append (readPipelines rest) := by
  rw [isHeader_eq number] at h
  rw [readPipelines, brokenHeader]
  cases hkeyword : startsWithKeyword "pipeline".toList line with
  | false => simp [Pass.append]
  | true =>
      rw [hkeyword, Bool.true_and] at h
      cases hread : readPipelineHeader number line with
      | error cause => simp [Pass.append]
      | ok pipeline => rw [hread] at h; cases h

/-- A line above lines of which one is replaced, and the pipelines that the pass gathers from it. -/
theorem exists_readPipelines_cons {a b line : Text} (h : SameBraces a b)
    (hopens : opensBody a = false) (hblank : (trim a).isEmpty = false) (isOpen : Bool) (n : Nat)
    (above below : List Text)
    (hvisible : (inBodyFrom (openAfter isOpen line) (above ++ a :: below))[above.length]? =
      some false) :
    ∃ own : Pass Pipeline, ∀ x, x = a ∨ x = b →
      readPipelines ((inBodyFrom isOpen (line :: (above ++ x :: below))).zip
          ((line :: (above ++ x :: below)).zipIdx n)) =
        own.append (readPipelines ((inBodyFrom (openAfter isOpen line) (above ++ x :: below)).zip
          ((above ++ x :: below).zipIdx (n + 1)))) := by
  -- The flag of the line and the body below it are the same for both texts.
  have hflag : ∀ x, x = a ∨ x = b → hiddenBy isOpen line (above ++ x :: below) =
      hiddenBy isOpen line (above ++ a :: below) := by
    rintro x (rfl | rfl)
    · rfl
    · cases isOpen <;> simp only [hiddenBy, h.any_closes]
  by_cases hskip : (hiddenBy isOpen line (above ++ a :: below) ||
      !startsWithKeyword "pipeline".toList line) = true
  · refine ⟨{ items := [], problems := [] }, fun x hx => ?_⟩
    rw [inBodyFrom_cons, List.zipIdx_cons, List.zip_cons_cons, readPipelines, hflag x hx]
    simp only [hskip, ↓reduceIte]
    rfl
  · simp only [Bool.or_eq_true, Bool.not_eq_true', not_or, Bool.not_eq_true,
      Bool.not_eq_false] at hskip
    have hheader : opensBody line = false :=
      opensBody_of_startsWithKeyword (by decide) (by decide) hskip.2
    have hbody : ∀ x, x = a ∨ x = b →
        pipelineBody line (above ++ x :: below) = pipelineBody line (above ++ a :: below) := by
      rintro x (rfl | rfl)
      · rfl
      · exact (pipelineBody_replace h hopens hblank hheader isOpen above below hskip.1
          hvisible).symm
    cases hread : readPipelineHeader n line with
    | error cause =>
        refine ⟨{ items := [], problems := [{ line := n, cause }] }, fun x hx => ?_⟩
        rw [inBodyFrom_cons, List.zipIdx_cons, List.zip_cons_cons, readPipelines, hflag x hx]
        simp only [hskip, hread, Bool.not_true, Bool.or_self, Bool.false_eq_true, ↓reduceIte]
        rfl
    | ok pipeline =>
        let children := readChildren (line, n) (above ++ a :: below)
        refine ⟨{ items := [pipeline.withChildren children.items], problems := children.problems },
          fun x hx => ?_⟩
        rw [inBodyFrom_cons, List.zipIdx_cons, List.zip_cons_cons, readPipelines, hflag x hx]
        simp only [hskip, hread, Bool.not_true, Bool.or_self, Bool.false_eq_true, ↓reduceIte,
          map_line_zip_zipIdx (length_inBodyFrom _ _), readChildren, hbody x hx, children]
        rfl

/-- When a line outside of bodies that is no header is replaced by another one, the pipelines that
the pass gathers above and below it stay the same. -/
theorem exists_readPipelines_replace {a b : Text} (h : SameBraces a b)
    (hopens : opensBody a = false) (hblank : (trim a).isEmpty = false)
    (hheaders : ∀ x, x = a ∨ x = b → isHeader x = false)
    (isOpen : Bool) (n : Nat) (above below : List Text)
    (hvisible : (inBodyFrom isOpen (above ++ a :: below))[above.length]? = some false) :
    ∃ before after : Pass Pipeline, ∀ x, x = a ∨ x = b →
      readPipelines
          ((inBodyFrom isOpen (above ++ x :: below)).zip ((above ++ x :: below).zipIdx n)) =
        before.append ((brokenHeader (n + above.length) x).append after) := by
  induction above generalizing isOpen n with
  | nil =>
      refine ⟨{ items := [], problems := [] }, readPipelines
        ((inBodyFrom (openAfter isOpen a) below).zip (below.zipIdx (n + 1))), fun x hx => ?_⟩
      have hfirst : ∀ x, x = a ∨ x = b → hiddenBy isOpen x below = false ∧
          openAfter isOpen x = openAfter isOpen a := by
        rw [List.nil_append, inBodyFrom_cons] at hvisible
        have hflag : hiddenBy isOpen a below = false := by simpa using hvisible
        rintro x (rfl | rfl)
        · exact ⟨hflag, rfl⟩
        · rw [← hflag]
          cases isOpen <;> simp [hiddenBy, openAfter, h.closes, h.opens, h.ends]
      rw [List.nil_append, inBodyFrom_cons, List.zipIdx_cons, List.zip_cons_cons, (hfirst x hx).1,
        (hfirst x hx).2, readPipelines_cons_of_not_header (hheaders x hx)]
      rfl
  | cons line rest ih =>
      rw [List.cons_append, inBodyFrom_cons, List.length_cons, List.getElem?_cons_succ] at hvisible
      obtain ⟨before, after, hlater⟩ := ih _ (n + 1) hvisible
      obtain ⟨own, hown⟩ := exists_readPipelines_cons h hopens hblank isOpen n rest below hvisible
      refine ⟨own.append before, after, fun x hx => ?_⟩
      have hnumber : n + 1 + rest.length = n + (line :: rest).length := by
        rw [List.length_cons]
        omega
      rw [List.cons_append, hown x hx, hlater x hx, hnumber]
      simp [Pass.append]

/-- No pipeline sees that a line outside of bodies was replaced. -/
theorem readPipelines_replace {a b : Text} (h : SameBraces a b) (hopens : opensBody a = false)
    (hblank : (trim a).isEmpty = false)
    (ha : startsWithKeyword "pipeline".toList a = false)
    (hb : startsWithKeyword "pipeline".toList b = false) (isOpen : Bool) (n : Nat)
    (above below : List Text)
    (hvisible : (inBodyFrom isOpen (above ++ a :: below))[above.length]? = some false) :
    readPipelines ((inBodyFrom isOpen (above ++ a :: below)).zip ((above ++ a :: below).zipIdx n)) =
      readPipelines
        ((inBodyFrom isOpen (above ++ b :: below)).zip ((above ++ b :: below).zipIdx n)) := by
  have hheaders : ∀ x, x = a ∨ x = b → isHeader x = false := by
    rintro x (rfl | rfl)
    · exact isHeader_of_keyword ha
    · exact isHeader_of_keyword hb
  obtain ⟨before, after, hread⟩ :=
    exists_readPipelines_replace h hopens hblank hheaders isOpen n above below hvisible
  rw [hread a (.inl rfl), hread b (.inr rfl), brokenHeader_of_keyword ha,
    brokenHeader_of_keyword hb]

/-- A line is replaced among the masked lines as well, unless it is masked itself. -/
theorem maskBodies_replace_of_flag {a b : Text} (h : SameBraces a b) (above below : List Text)
    {hidden : Bool} (hflag : (inBody (above ++ a :: below))[above.length]? = some hidden) :
    ∃ above' below', above'.length = above.length ∧
      maskBodies (above ++ a :: below) = above' ++ (if hidden then [] else a) :: below' ∧
      maskBodies (above ++ b :: below) = above' ++ (if hidden then [] else b) :: below' := by
  obtain ⟨before, after, hflags, hlen⟩ := exists_around hflag
  have hflags' : inBody (above ++ b :: below) = before ++ hidden :: after := by
    rw [← hflags]
    exact (inBodyFrom_replace h false above below).symm
  refine ⟨List.zipWith (fun hidden line => if hidden then [] else line) before above,
    List.zipWith (fun hidden line => if hidden then [] else line) after below, ?_, ?_, ?_⟩
  · simp [hlen]
  · simp [maskBodies, hflags, List.zipWith_append hlen]
  · simp [maskBodies, hflags', List.zipWith_append hlen]

/-- A line outside of bodies is replaced among the masked lines as well. -/
theorem maskBodies_replace {a b : Text} (h : SameBraces a b) (above below : List Text)
    (hvisible : (inBody (above ++ a :: below))[above.length]? = some false) :
    ∃ above' below', above'.length = above.length ∧
      maskBodies (above ++ a :: below) = above' ++ a :: below' ∧
      maskBodies (above ++ b :: below) = above' ++ b :: below' := by
  simpa using maskBodies_replace_of_flag h above below hvisible

/-! ### All passes -/

/-- Two lines that begin with the same reserved keyword and have the same braces. -/
structure Alike (keyword a b : Text) : Prop where
  token : Token keyword
  reserved : keyword ∈ reservedWords
  old : startsWithKeyword keyword a = true
  new : startsWithKeyword keyword b = true
  braces : SameBraces a b

/-- The keywords of statements that give no name a position of its own. -/
def otherKeywords : List String :=
  ["title", "evolution", "style", "annotations", "size", "note", "annotation", "pipeline", "evolve",
    "url"] ++ attitudeKinds.map AttitudeKind.keyword ++ acceleratorKinds.map acceleratorKeyword ++
    methodKinds.map MethodKind.keyword

theorem positioned_ne_other : ∀ k ∈ positionedKeywords, ∀ other ∈ otherKeywords,
    Token other.toList ∧ k ≠ other.toList := by
  decide

theorem unbraced_reservedWords : ∀ k ∈ reservedWords, k.head? ≠ some '{' := by
  decide

section

variable {keyword a b : Text} (h : Alike keyword a b)
include h

theorem Alike.opensBody_eq : opensBody a = false :=
  opensBody_of_startsWithKeyword h.token.ne_nil (unbraced_reservedWords _ h.reserved) h.old

/-- The passes of other keywords pass over both lines. -/
theorem Alike.collectKeyword {α : Type} {other : String} {build : Nat → Text → Except Cause α}
    (hother : Token other.toList ∧ keyword ≠ other.toList) (above below : List NumberedLine)
    (number : Nat) :
    collectKeyword other build (above ++ (b, number) :: below) =
      collectKeyword other build (above ++ (a, number) :: below) := by
  apply collect_replace_of_none
  · exact kindOf_eq_none_of_ne h.token (by simpa using hother.1) (by simpa using hother.2) h.new
  · exact kindOf_eq_none_of_ne h.token (by simpa using hother.1) (by simpa using hother.2) h.old

theorem Alike.collectKinds {α κ : Type} {kinds : List κ} {word : κ → String}
    {build : κ → Nat → Text → Except Cause α}
    (hother : ∀ kind ∈ kinds, Token (word kind).toList ∧ keyword ≠ (word kind).toList)
    (above below : List NumberedLine) (number : Nat) :
    collect (kindOf kinds word) build (above ++ (b, number) :: below) =
      collect (kindOf kinds word) build (above ++ (a, number) :: below) := by
  have htoken := fun kind hkind => (hother kind hkind).1
  have hne := fun kind hkind => (hother kind hkind).2
  apply collect_replace_of_none
  · exact kindOf_eq_none_of_ne h.token htoken hne h.new
  · exact kindOf_eq_none_of_ne h.token htoken hne h.old

theorem Alike.collectLinks (above below : List NumberedLine) (number : Nat) :
    collectLinks (above ++ (b, number) :: below) =
      collectLinks (above ++ (a, number) :: below) := by
  unfold WardleyMaps.collectLinks
  rw [collect_replace_of_none]
  · simp [isLinkCandidate_of_reserved h.token h.reserved h.new]
  · simp [isLinkCandidate_of_reserved h.token h.reserved h.old]

/-- When the pipelines are the same, only the passes of the keywords that an edit is made on may
tell a line that begins with one of these keywords from another one. -/
theorem Alike.ofLines_of_pipelines
    (hother : ∀ other ∈ otherKeywords.erase "evolve",
      Token other.toList ∧ keyword ≠ other.toList) {above below : List Text}
    (hpipelines : (Findings.ofLines (above ++ b :: below)).pipelines =
      (Findings.ofLines (above ++ a :: below)).pipelines) :
    Findings.ofLines (above ++ b :: below) =
      { Findings.ofLines (above ++ a :: below) with
        elements := (Findings.ofLines (above ++ b :: below)).elements
        evolved := (Findings.ofLines (above ++ b :: below)).evolved
        anchors := (Findings.ofLines (above ++ b :: below)).anchors
        submaps := (Findings.ofLines (above ++ b :: below)).submaps } := by
  rw [Findings.mk.injEq]
  simp only [hpipelines, true_and]
  simp only [Findings.ofLines, zipIdx_append_cons]
  refine ⟨?_, ?_, ?_, ?_, ?_, ?_, ?_, ?_, ?_, ?_, ?_, ?_⟩
  · exact h.collectKeyword (hother "title" (by decide)) _ _ _
  · exact h.collectKeyword (hother "evolution" (by decide)) _ _ _
  · exact h.collectKeyword (hother "style" (by decide)) _ _ _
  · exact h.collectKeyword (hother "annotations" (by decide)) _ _ _
  · exact h.collectKeyword (hother "size" (by decide)) _ _ _
  · exact h.collectKeyword (hother "note" (by decide)) _ _ _
  · exact h.collectKeyword (hother "annotation" (by decide)) _ _ _
  · exact h.collectLinks _ _ _
  · exact h.collectKeyword (hother "url" (by decide)) _ _ _
  · exact h.collectKinds (fun kind hkind => hother _ (by revert kind; decide)) _ _ _
  · exact h.collectKinds (fun kind hkind => hother _ (by revert kind; decide)) _ _ _
  · exact h.collectKinds (fun kind hkind => hother _ (by revert kind; decide)) _ _ _

/-- Only the passes of elements, anchors and submaps may tell a line that begins with one of their
keywords from another one. -/
theorem Alike.ofLines (hpositioned : keyword ∈ positionedKeywords) {above below : List Text}
    (hvisible : (inBody (above ++ a :: below))[above.length]? = some false) :
    Findings.ofLines (above ++ b :: below) =
      { Findings.ofLines (above ++ a :: below) with
        elements := (Findings.ofLines (above ++ b :: below)).elements
        anchors := (Findings.ofLines (above ++ b :: below)).anchors
        submaps := (Findings.ofLines (above ++ b :: below)).submaps } := by
  have hother := positioned_ne_other keyword hpositioned
  have hpipeline := hother "pipeline" (by decide)
  have hpipelines : (Findings.ofLines (above ++ b :: below)).pipelines =
      (Findings.ofLines (above ++ a :: below)).pipelines := by
    have hread := readPipelines_replace h.braces h.opensBody_eq
      (by simpa using trim_ne_nil_of_startsWithKeyword h.token h.old)
      (startsWithKeyword_of_ne h.token hpipeline.1 hpipeline.2 h.old)
      (startsWithKeyword_of_ne h.token hpipeline.1 hpipeline.2 h.new) false 1 above below hvisible
    simpa only [Findings.ofLines, inBody, zipIdx_append_cons] using hread.symm
  have hevolved : (Findings.ofLines (above ++ b :: below)).evolved =
      (Findings.ofLines (above ++ a :: below)).evolved := by
    simp only [Findings.ofLines, zipIdx_append_cons]
    exact h.collectKeyword (hother "evolve" (by decide)) _ _ _
  rw [h.ofLines_of_pipelines (fun other hmem => hother other (List.mem_of_mem_erase hmem))
    hpipelines, hevolved]

theorem Alike.elements_eq (hne : keyword ≠ "component".toList) {above below : List Text}
    (hvisible : (inBody (above ++ a :: below))[above.length]? = some false) :
    (Findings.ofLines (above ++ b :: below)).elements =
      (Findings.ofLines (above ++ a :: below)).elements := by
  obtain ⟨above', below', hlen, hold, hnew⟩ := maskBodies_replace h.braces above below hvisible
  simp only [Findings.ofLines, hold, hnew, zipIdx_append_cons]
  exact h.collectKeyword ⟨by decide, hne⟩ _ _ _

theorem Alike.anchors_eq (hne : keyword ≠ "anchor".toList) (above below : List Text) :
    (Findings.ofLines (above ++ b :: below)).anchors =
      (Findings.ofLines (above ++ a :: below)).anchors := by
  simp only [Findings.ofLines, zipIdx_append_cons]
  exact h.collectKeyword ⟨by decide, hne⟩ _ _ _

theorem Alike.submaps_eq (hne : keyword ≠ "submap".toList) (above below : List Text) :
    (Findings.ofLines (above ++ b :: below)).submaps =
      (Findings.ofLines (above ++ a :: below)).submaps := by
  simp only [Findings.ofLines, zipIdx_append_cons]
  exact h.collectKeyword ⟨by decide, hne⟩ _ _ _

end

/-! ### The pass that sees the difference -/

/-- The pass of the common keyword reads one entity in place of the other. -/
theorem Alike.collectKeyword_of_ok {α : Type} [DecidableEq α] {keyword : String} {a b : Text}
    (h : Alike keyword.toList a b) {build : Nat → Text → Except Cause α} {numberOf : α → Nat}
    (hnumber : ∀ number line item, build number line = .ok item → numberOf item = number)
    (above below : List Text) (n : Nat) {old new : α} (hold : build (n + above.length) a = .ok old)
    (hnew : build (n + above.length) b = .ok new) :
    WardleyMaps.collectKeyword keyword build ((above ++ b :: below).zipIdx n) =
      (WardleyMaps.collectKeyword keyword build ((above ++ a :: below).zipIdx n)).replace
        old new := by
  rw [zipIdx_append_cons, zipIdx_append_cons]
  exact collect_replace_of_ok (fun _ => hnumber) (kindOf_unit h.old) (kindOf_unit h.new) hold hnew
    (fun _ => number_ne_of_above) (fun _ => number_ne_of_below)

section

variable {a b : Text} {above below : List Text}
  (hvisible : (inBody (above ++ a :: below))[above.length]? = some false)
include hvisible

theorem Alike.ofLines_element (h : Alike "component".toList a b) {old new : Component}
    (hold : readComponent false (1 + above.length) a = .ok old)
    (hnew : readComponent false (1 + above.length) b = .ok new) :
    Findings.ofLines (above ++ b :: below) =
      { Findings.ofLines (above ++ a :: below) with
        elements := (Findings.ofLines (above ++ a :: below)).elements.replace old new } := by
  have helements : (Findings.ofLines (above ++ b :: below)).elements =
      (Findings.ofLines (above ++ a :: below)).elements.replace old new := by
    obtain ⟨above', below', hlen, holdMask, hnewMask⟩ :=
      maskBodies_replace h.braces above below hvisible
    simp only [Findings.ofLines, holdMask, hnewMask]
    rw [← hlen] at hold hnew
    exact h.collectKeyword_of_ok (fun _ _ _ => line_of_readComponent) above' below' 1 hold hnew
  rw [h.ofLines (by decide) hvisible, helements, h.anchors_eq (by decide), h.submaps_eq (by decide)]

theorem Alike.ofLines_anchor (h : Alike "anchor".toList a b) {old new : Anchor}
    (hold : readAnchor (1 + above.length) a = .ok old)
    (hnew : readAnchor (1 + above.length) b = .ok new) :
    Findings.ofLines (above ++ b :: below) =
      { Findings.ofLines (above ++ a :: below) with
        anchors := (Findings.ofLines (above ++ a :: below)).anchors.replace old new } := by
  have hanchors : (Findings.ofLines (above ++ b :: below)).anchors =
      (Findings.ofLines (above ++ a :: below)).anchors.replace old new :=
    h.collectKeyword_of_ok (fun _ _ _ => line_of_readAnchor) above below 1 hold hnew
  rw [h.ofLines (by decide) hvisible, hanchors, h.elements_eq (by decide) hvisible,
    h.submaps_eq (by decide)]

theorem Alike.ofLines_submap (h : Alike "submap".toList a b) {old new : Component}
    (hold : readComponent true (1 + above.length) a = .ok old)
    (hnew : readComponent true (1 + above.length) b = .ok new) :
    Findings.ofLines (above ++ b :: below) =
      { Findings.ofLines (above ++ a :: below) with
        submaps := (Findings.ofLines (above ++ a :: below)).submaps.replace old new } := by
  have hsubmaps : (Findings.ofLines (above ++ b :: below)).submaps =
      (Findings.ofLines (above ++ a :: below)).submaps.replace old new :=
    h.collectKeyword_of_ok (fun _ _ _ => line_of_readComponent) above below 1 hold hnew
  rw [h.ofLines (by decide) hvisible, hsubmaps, h.elements_eq (by decide) hvisible,
    h.anchors_eq (by decide)]

end

end WardleyMaps
