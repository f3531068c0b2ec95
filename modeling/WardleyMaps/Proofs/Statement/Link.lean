/-
Module: WardleyMaps.Proofs.Statement.Link
Purpose: Links are read back from their names and their arrow, and no other line is a link.
Main exports: Operator, operators, LinkName, cutArrow_plain, cutArrow_value, cutArrow_eq_none_iff,
  readLink_operators
-/
import WardleyMaps.Proofs.Text.Mark
import WardleyMaps.Statement.Link

namespace WardleyMaps

open Text

/-!
All arrows begin with one of four pairs of characters. In names that hold none of them, with blanks
around, no arrow begins; so the arrow between two names is the first one on the line, and the only
question is which of the arrows is found in its place: an arrow is looked for before those that
begin like it, and behind `+<` no point may follow (`cutArrow_plain`, `cutArrow_value`). A line
without any arrow is no link, and every other line is one or is refused (`cutArrow_eq_none_iff`).
-/

/-- An arrow as it is written, and what it says of its link: whether the link is a flow, whether it
goes towards the future and the past, and the value that it carries. -/
structure Operator where
  mark : Text
  flow : Bool
  future : Bool
  past : Bool
  carried : Option Text
deriving DecidableEq, Repr

/-- An arrow with a value: the value in single quotes behind a plus, and the tip. -/
def valueMark (carried tip : Text) : Text :=
  '+' :: '\'' :: (carried ++ '\'' :: tip)

/-- The seven arrows, three of them with a value. -/
def operators (carried : Text) : List Operator :=
  [⟨['-', '>'], false, false, false, none⟩,
    ⟨['+', '>'], true, false, false, none⟩,
    ⟨['+', '<', '>'], true, false, true, none⟩,
    ⟨['+', '<'], true, true, false, none⟩,
    ⟨valueMark carried ['>'], true, true, false, some carried⟩,
    ⟨valueMark carried ['<', '>'], true, true, true, some carried⟩,
    ⟨valueMark carried ['<'], true, false, true, some carried⟩]

/-- What an arrow says of its link is what the operator says. -/
structure Arrow.Says (arrow : Arrow) (op : Operator) : Prop where
  flow : arrow.isFlow = op.flow
  future : arrow.isFuture = op.future
  past : arrow.isPast = op.past
  carried : arrow.carried? = op.carried

/-- No arrow begins in the text. -/
structure ArrowFree (t : Text) : Prop where
  dependency : ¬ ['-', '>'] <:+: t
  flow : ¬ ['+', '>'] <:+: t
  back : ¬ ['+', '<'] <:+: t
  value : ¬ ['+', '\''] <:+: t

/-- Names that may stand at the ends of a link. -/
structure LinkName (t : Text) : Prop where
  trimmed : Trimmed t
  ne_nil : t ≠ []
  line : '\n' ∉ t
  context : ';' ∉ t
  free : ArrowFree t

/-! ### Arrows between texts without arrows -/

theorem ArrowFree.append_blank {t space : Text} (h : ArrowFree t) (hspace : Blank space) :
    ArrowFree (t ++ space) where
  dependency := mt (pair_infix_append_of_blank (by decide) (by decide) hspace).1 h.dependency
  flow := mt (pair_infix_append_of_blank (by decide) (by decide) hspace).1 h.flow
  back := mt (pair_infix_append_of_blank (by decide) (by decide) hspace).1 h.back
  value := mt (pair_infix_append_of_blank (by decide) (by decide) hspace).1 h.value

theorem ArrowFree.prepend_blank {t space : Text} (h : ArrowFree t) (hspace : Blank space) :
    ArrowFree (space ++ t) where
  dependency := mt (pair_infix_prepend_of_blank (by decide) (by decide) hspace).1 h.dependency
  flow := mt (pair_infix_prepend_of_blank (by decide) (by decide) hspace).1 h.flow
  back := mt (pair_infix_prepend_of_blank (by decide) (by decide) hspace).1 h.back
  value := mt (pair_infix_prepend_of_blank (by decide) (by decide) hspace).1 h.value

/-- Without a plus in front of a quote there is no arrow with a value. -/
theorem cutValueArrow_eq_none_of_apart {t : Text} (h : ¬ ['+', '\''] <:+: t) :
    cutValueArrow t = none := by
  induction t with
  | nil => rfl
  | cons c rest ih =>
      have hhere : after? ['+', '\''] (c :: rest) = none := by
        apply after?_eq_none_of_apart
        exact fun hstart => h hstart.isInfix
      rw [pair_infix_cons, not_or] at h
      rw [cutValueArrow, hhere, ih h.2]
      simp

/-- Behind a part of a line in which none begins, an arrow with a value is found as without this
part. -/
theorem cutValueArrow_append {a b : Text} (ha : ¬ ['+', '\''] <:+: a) (hb : b.head? ≠ some '\'')
    (hline : '\n' ∉ a) :
    cutValueArrow (a ++ b) =
      (cutValueArrow b).map fun (before, found) => (a ++ before, found) := by
  induction a with
  | nil => simp
  | cons c rest ih =>
      have hhere : after? ['+', '\''] (c :: (rest ++ b)) = none :=
        after?_eq_none_of_apart [] (not_pair_prefix_append ha hb)
      rw [pair_infix_cons, not_or] at ha
      rw [List.mem_cons, not_or] at hline
      rw [List.cons_append, cutValueArrow, hhere, ih ha.2 hline.2]
      simp [Ne.symm hline.1, Function.comp_def]

section

variable {before after : Text} (hbefore : ArrowFree before) (hafter : ArrowFree after)
include hbefore hafter

/-- A plain arrow between texts without arrows is found in its place. -/
theorem cutArrow_plain (hpoint : after.head? ≠ some '>') :
    ∀ p ∈ plainArrows, cutArrow (before ++ (p.1 ++ after)) = some (before, p.2, after) := by
  -- The marks that are tried before the right one fail where it stands, and on both sides of it.
  have hflow := cut_eq_none_of_apart [] hafter.flow
  have hboth := cut_eq_none_of_apart ['>'] hafter.back
  have hback := cut_eq_none_of_apart [] hafter.back
  have hpointAfter : after? ['>'] after = none := by
    cases after with
    | nil => rfl
    | cons c rest => exact after?_cons_ne (fun h => hpoint (by rw [h]; rfl)) [] rest
  intro p hp
  have hvalue : cutValueArrow (before ++ (p.1 ++ after)) = none := by
    apply cutValueArrow_eq_none_of_apart
    simp only [plainArrows, List.mem_cons, List.not_mem_nil, or_false] at hp
    rcases hp with rfl | rfl | rfl | rfl <;>
      simp [pair_infix_append, pair_infix_cons, hbefore.value, hafter.value]
  have hseam : ∀ y ∈ ['>', '<'], (p.1 ++ after).head? ≠ some y := by
    simp only [plainArrows, List.mem_cons, List.not_mem_nil, or_false] at hp
    rcases hp with rfl | rfl | rfl | rfl <;> simp
  have hcutFlow := cut_append_of_apart [] hbefore.flow (hseam '>' (by simp))
  have hcutBoth := cut_append_of_apart ['>'] hbefore.back (hseam '<' (by simp))
  have hcutBack := cut_append_of_apart [] hbefore.back (hseam '<' (by simp))
  have hcutDependency := cut_append_of_apart [] hbefore.dependency (hseam '>' (by simp))
  rw [cutArrow, hvalue]
  simp only [plainArrows, String.reduceToList, List.findSome?_cons, hcutFlow, hcutBoth, hcutBack,
    hcutDependency]
  simp only [plainArrows, List.mem_cons, List.not_mem_nil, or_false] at hp
  rcases hp with rfl | rfl | rfl | rfl
  · simp [cut, after?]
  · simp [cut, after?, hflow]
  · simp [cut, after?, hflow, hboth, hpointAfter]
  · simp [cut, after?, hflow, hboth, hback]

end

/-- An arrow with a value behind a text without arrows is found in its place. -/
theorem cutArrow_value {before after carried tip : Text} {arrow : Arrow}
    (hbefore : ArrowFree before) (hline : '\n' ∉ before) (hcarried : '\'' ∉ carried)
    (htip : arrowEnd? carried (tip ++ after) = some (arrow, after)) :
    cutArrow (before ++ (valueMark carried tip ++ after)) = some (before, arrow, after) := by
  have hhere : cutValueArrow (valueMark carried tip ++ after) = some ([], arrow, after) := by
    have hopened : after? ['+', '\''] (valueMark carried tip ++ after) =
        some (carried ++ '\'' :: (tip ++ after)) := by
      simp [valueMark, after?]
    rw [valueMark, List.cons_append] at hopened ⊢
    rw [cutValueArrow, hopened]
    simp [cutAt_append hcarried, htip]
  have hseam : (valueMark carried tip ++ after).head? ≠ some '\'' := by
    simp [valueMark]
  rw [cutArrow, cutValueArrow_append hbefore.value hseam hline, hhere]
  simp

/-- The three tips of arrows with a value. No point may follow the last one. -/
theorem arrowEnd?_tip {after : Text} (hpoint : after.head? ≠ some '>') (hline : '\n' ∉ after)
    (carried : Text) :
    arrowEnd? carried (['>'] ++ after) = some (.value carried, after) ∧
      arrowEnd? carried (['<', '>'] ++ after) = some (.valueBoth carried, after) ∧
      arrowEnd? carried (['<'] ++ after) = some (.valueBack carried, after) := by
  refine ⟨by simp [arrowEnd?, hline], by simp [arrowEnd?, hline], ?_⟩
  cases after with
  | nil => rfl
  | cons c rest =>
      have hc : c ≠ '>' := fun h => hpoint (by rw [h]; rfl)
      simp [arrowEnd?, hc, hline]

/-! ### Lines without an arrow -/

/-- The tips of arrows with a value. -/
def tips : List Text :=
  [['>'], ['<', '>'], ['<']]

/-- The arrow with a value at the start of a text, and what follows it. -/
def valueArrow? (t : Text) : Option (Arrow × Text) :=
  (after? ['+', '\''] t).bind fun opened =>
    (cutAt '\'' opened).bind fun (carried, closed) => arrowEnd? carried closed

theorem exists_tip_of_arrowEnd? {carried t after : Text} {arrow : Arrow}
    (h : arrowEnd? carried t = some (arrow, after)) : ∃ tip ∈ tips, t = tip ++ after := by
  unfold arrowEnd? at h
  split at h
  · next rest =>
    split at h
    · cases h
    · cases h
      exact ⟨['<', '>'], by simp [tips], rfl⟩
  · next rest _ =>
    split at h
    · cases h
    · cases h
      exact ⟨['<'], by simp [tips], rfl⟩
  · next rest =>
    split at h
    · cases h
    · cases h
      exact ⟨['>'], by simp [tips], rfl⟩
  · cases h

theorem arrowEnd?_ne_none {carried tip after : Text} (htip : tip ∈ tips) (hline : '\n' ∉ after) :
    arrowEnd? carried (tip ++ after) ≠ none := by
  simp only [tips, List.mem_cons, List.not_mem_nil, or_false] at htip
  rcases htip with rfl | rfl | rfl
  · simp [arrowEnd?, hline]
  · simp [arrowEnd?, hline]
  · -- With a point behind it this tip is the one before.
    cases after with
    | nil => simp [arrowEnd?]
    | cons c rest =>
        rw [List.mem_cons, not_or] at hline
        by_cases hc : c = '>'
        · simp [arrowEnd?, hc, hline.2]
        · simp [arrowEnd?, hc, hline.1, hline.2]

theorem valueArrow?_eq_none_iff {t : Text} (hline : '\n' ∉ t) :
    valueArrow? t = none ↔
      ∀ carried, '\'' ∉ carried → ∀ tip ∈ tips, ¬ valueMark carried tip <+: t := by
  constructor
  · rintro hnone carried hcarried tip htip ⟨after, rfl⟩
    have hopened : after? ['+', '\''] (valueMark carried tip ++ after) =
        some (carried ++ '\'' :: (tip ++ after)) := by
      simp [valueMark, after?]
    rw [valueArrow?, hopened, Option.bind_some, cutAt_append hcarried, Option.bind_some] at hnone
    apply arrowEnd?_ne_none htip _ hnone
    exact fun hmem => hline (List.mem_append_right _ hmem)
  · intro hmarks
    rw [Option.eq_none_iff_forall_ne_some]
    rintro ⟨arrow, after⟩ hfound
    obtain ⟨opened, hopened, hclosed⟩ := Option.bind_eq_some_iff.1 hfound
    obtain ⟨⟨carried, closed⟩, hcut, htip⟩ := Option.bind_eq_some_iff.1 hclosed
    obtain ⟨hparts, hcarried⟩ := cutAt_eq_some hcut
    obtain ⟨tip, hmem, hrest⟩ := exists_tip_of_arrowEnd? htip
    apply hmarks carried hcarried tip hmem
    refine ⟨after, ?_⟩
    rw [after?_eq_some.1 hopened, hparts, hrest]
    simp [valueMark]

theorem cutValueArrow_eq_none_iff {t : Text} (hline : '\n' ∉ t) :
    cutValueArrow t = none ↔
      ∀ carried, '\'' ∉ carried → ∀ tip ∈ tips, ¬ valueMark carried tip <:+: t := by
  induction t with
  | nil => simp [cutValueArrow, valueMark]
  | cons c rest ih =>
      have hstart := valueArrow?_eq_none_iff hline
      rw [List.mem_cons, not_or] at hline
      have hstep : cutValueArrow (c :: rest) = none ↔
          valueArrow? (c :: rest) = none ∧ cutValueArrow rest = none := by
        rw [cutValueArrow]
        split
        · next arrow after hfound =>
          have hvalue : valueArrow? (c :: rest) = some (arrow, after) := hfound
          simp [hvalue]
        · next hnone =>
          have hvalue : valueArrow? (c :: rest) = none := hnone
          simp [hvalue, Ne.symm hline.1]
      rw [hstep, hstart, ih hline.2]
      simp only [List.infix_cons_iff, not_or]
      constructor
      · exact fun h carried hcarried tip htip =>
          ⟨h.1 carried hcarried tip htip, h.2 carried hcarried tip htip⟩
      · exact fun h =>
          ⟨fun carried hcarried tip htip => (h carried hcarried tip htip).1,
            fun carried hcarried tip htip => (h carried hcarried tip htip).2⟩

/-- A line holds no arrow just when none of the seven stands on it, with any value. -/
theorem cutArrow_eq_none_iff {t : Text} (hline : '\n' ∉ t) :
    cutArrow t = none ↔
      ∀ carried, '\'' ∉ carried → ∀ op ∈ operators carried, ¬ op.mark <:+: t := by
  simp only [cutArrow, Option.orElse_eq_orElse, Option.orElse_eq_or, Option.or_eq_none_iff,
    cutValueArrow_eq_none_iff hline, plainArrows, List.findSome?_eq_none_iff, cut_eq_none_iff,
    String.reduceToList, List.forall_mem_cons, List.not_mem_nil, false_implies, implies_true,
    and_true, Option.map_eq_none_iff, operators, tips]
  constructor
  · rintro ⟨hvalues, hflow, hboth, hback, hdependency⟩ carried hcarried
    exact ⟨hdependency, hflow, hboth, hback, hvalues carried hcarried⟩
  · intro h
    obtain ⟨hdependency, hflow, hboth, hback, -⟩ := h [] List.not_mem_nil
    exact ⟨fun carried hcarried => (h carried hcarried).2.2.2.2, hflow, hboth, hback, hdependency⟩

/-! ### Reading a link -/

theorem readLink_eq_none_iff {line : Text} :
    readLink line = .ok none ↔ cutArrow (trim line) = none := by
  unfold readLink
  cases cutArrow (trim line) with
  | none => simp
  | some found =>
      simp only [reduceCtorEq, iff_false]
      split <;> simp

/-- A link between two names has them for its ends, and no context without a semicolon. -/
theorem readLink_of_cutArrow {line before after : Text} {arrow : Arrow}
    (hcut : cutArrow (trim line) = some (before, arrow, after)) (hcontext : ';' ∉ after)
    (hstart : trim before ≠ []) (htarget : trim after ≠ []) :
    readLink line = .ok (some { start := trim before, target := trim after, arrow }) := by
  have hsplit : splitContext after = (trim after, none) := by
    unfold splitContext
    split
    · rfl
    · next found target context hfound =>
      apply absurd _ hcontext
      rw [(cutAt_eq_some hfound).1]
      simp
  simp [readLink, hcut, hsplit, hstart, htarget]

theorem trimmed_valueMark {tip : Text} (htip : tip ∈ tips) (carried : Text) :
    Trimmed (valueMark carried tip) := by
  refine ⟨by simp [valueMark]; decide, ?_⟩
  have hne : tip ≠ [] := by
    rintro rfl
    simp [tips] at htip
  have hlast : (valueMark carried tip).getLast? = tip.getLast? := by
    have hparts : valueMark carried tip = ('+' :: '\'' :: carried ++ ['\'']) ++ tip := by
      simp [valueMark]
    rw [hparts, List.getLast?_append_of_ne_nil _ hne]
  have htips : ∀ tip ∈ tips, Trimmed tip := by
    decide
  rw [hlast]
  exact (htips tip htip).last

/-- No mark of an operator is empty or has a blank at its ends. -/
theorem trimmed_mark {carried : Text} {op : Operator} (h : op ∈ operators carried) :
    Trimmed op.mark ∧ op.mark ≠ [] := by
  simp only [operators, List.mem_cons, List.not_mem_nil, or_false] at h
  rcases h with rfl | rfl | rfl | rfl | rfl | rfl | rfl
  · exact ⟨by decide, by decide⟩
  · exact ⟨by decide, by decide⟩
  · exact ⟨by decide, by decide⟩
  · exact ⟨by decide, by decide⟩
  · exact ⟨trimmed_valueMark (by simp [tips]) _, by simp [valueMark]⟩
  · exact ⟨trimmed_valueMark (by simp [tips]) _, by simp [valueMark]⟩
  · exact ⟨trimmed_valueMark (by simp [tips]) _, by simp [valueMark]⟩

/-- Between texts without arrows every operator is found, and says what it is documented to say. -/
theorem exists_arrow_of_operator {before after carried : Text} (hbefore : ArrowFree before)
    (hafter : ArrowFree after) (hpoint : after.head? ≠ some '>') (hline : '\n' ∉ before)
    (hline' : '\n' ∉ after) (hcarried : '\'' ∉ carried) {op : Operator}
    (hop : op ∈ operators carried) :
    ∃ arrow : Arrow, cutArrow (before ++ (op.mark ++ after)) = some (before, arrow, after) ∧
      arrow.Says op := by
  have hplain := cutArrow_plain hbefore hafter hpoint
  obtain ⟨hforward, hboth, hback⟩ := arrowEnd?_tip hpoint hline' carried
  simp only [operators, List.mem_cons, List.not_mem_nil, or_false] at hop
  rcases hop with rfl | rfl | rfl | rfl | rfl | rfl | rfl
  · exact ⟨_, hplain ("->".toList, .dependency) (by simp [plainArrows]), rfl, rfl, rfl, rfl⟩
  · exact ⟨_, hplain ("+>".toList, .flow) (by simp [plainArrows]), rfl, rfl, rfl, rfl⟩
  · exact ⟨_, hplain ("+<>".toList, .flowBoth) (by simp [plainArrows]), rfl, rfl, rfl, rfl⟩
  · exact ⟨_, hplain ("+<".toList, .flowBack) (by simp [plainArrows]), rfl, rfl, rfl, rfl⟩
  · exact ⟨_, cutArrow_value hbefore hline hcarried hforward, rfl, rfl, rfl, rfl⟩
  · exact ⟨_, cutArrow_value hbefore hline hcarried hboth, rfl, rfl, rfl, rfl⟩
  · exact ⟨_, cutArrow_value hbefore hline hcarried hback, rfl, rfl, rfl, rfl⟩

/-- A link is read back from two names and an operator between them, with any blanks around the
names; and exactly the lines on which no operator stands are no links. -/
theorem readLink_operators :
    (∀ {start target carried lead gap space trail : Text} {op : Operator},
      LinkName start → LinkName target → target.head? ≠ some '>' →
      '\'' ∉ carried → '\n' ∉ carried → op ∈ operators carried →
      Blank lead → Blank gap → Blank space → Blank trail → '\n' ∉ gap → '\n' ∉ space →
      ∃ link, readLink (lead ++ (start ++ gap ++ op.mark ++ space ++ target) ++ trail) =
          .ok (some link) ∧
        link.start = start ∧ link.target = target ∧ link.context = none ∧ link.arrow.Says op) ∧
    ∀ {line : Text}, '\n' ∉ line →
      (readLink line = .ok none ↔
        ∀ carried, '\'' ∉ carried → ∀ op ∈ operators carried, ¬ op.mark <:+: line) := by
  constructor
  · intro start target carried lead gap space trail op hstart htarget hpoint hcarried _ hop hlead
      hgap hspace htrail hgapLine hspaceLine
    have hhead : (space ++ target).head? ≠ some '>' := by
      cases space with
      | nil => exact hpoint
      | cons c rest =>
          intro hc
          have hblank : isBlank c = true := hspace c List.mem_cons_self
          obtain rfl : c = '>' := Option.some.inj hc
          exact absurd hblank (by decide)
    obtain ⟨arrow, hcut, htail⟩ := exists_arrow_of_operator (hstart.free.append_blank hgap)
      (htarget.free.prepend_blank hspace) hhead (by simp [hstart.line, hgapLine])
      (by simp [htarget.line, hspaceLine]) hcarried hop
    have hshape : start ++ gap ++ (op.mark ++ (space ++ target)) =
        start ++ gap ++ op.mark ++ space ++ target := by
      simp
    have htrimmed : Trimmed (start ++ gap ++ op.mark ++ space ++ target) := by
      simpa using trimmed_between hstart.trimmed hstart.ne_nil htarget.trimmed htarget.ne_nil
        (gap ++ op.mark ++ space)
    have htrimStart : trim (start ++ gap) = start := by
      rw [trim_append_of_blank hgap, trim_eq_self hstart.trimmed]
    have htrimTarget : trim (space ++ target) = target := by
      rw [trim_prepend_of_blank hspace, trim_eq_self htarget.trimmed]
    have hcontext : ';' ∉ space ++ target := by
      simp [htarget.context, not_mem_of_blank (c := ';') (by decide) hspace]
    rw [hshape, ← trim_surrounded hlead htrimmed htrail] at hcut
    refine ⟨_, readLink_of_cutArrow hcut hcontext ?_ ?_, htrimStart, htrimTarget, rfl, htail⟩
    · rw [htrimStart]
      exact hstart.ne_nil
    · rw [htrimTarget]
      exact htarget.ne_nil
  · intro line hline
    have htrimLine : '\n' ∉ trim line := fun h => hline ((infix_trim line).subset h)
    rw [readLink_eq_none_iff, cutArrow_eq_none_iff htrimLine]
    constructor
    · intro h carried hcarried op hop
      rw [← infix_trim_iff (trimmed_mark hop).1 (trimmed_mark hop).2]
      exact h carried hcarried op hop
    · intro h carried hcarried op hop
      rw [infix_trim_iff (trimmed_mark hop).1 (trimmed_mark hop).2]
      exact h carried hcarried op hop

/-- Names with loose signs of arrows in them, and a value that looks like other arrows. -/
theorem readLink_operators_tea :
    (∃ link, readLink ([' '] ++ ("hot > tea".toList ++ [' '] ++ valueMark "->".toList ['<'] ++
          [' ', ' '] ++ "< water -".toList) ++ [' ']) = .ok (some link) ∧
      link.start = "hot > tea".toList ∧ link.target = "< water -".toList ∧ link.context = none ∧
      link.arrow.Says ⟨valueMark "->".toList ['<'], true, false, true, some "->".toList⟩) ∧
    (readLink "hot + tea < water".toList = .ok none ↔
      ∀ carried, '\'' ∉ carried → ∀ op ∈ operators carried,
        ¬ op.mark <:+: "hot + tea < water".toList) := by
  have hfree : ∀ name ∈ ["hot > tea".toList, "< water -".toList], ArrowFree name := by
    intro name hname
    simp only [List.mem_cons, List.not_mem_nil, or_false] at hname
    rcases hname with rfl | rfl <;> constructor <;> exact cut_eq_none_iff.1 (by decide)
  have hhot : LinkName "hot > tea".toList :=
    ⟨by decide, by decide, by decide, by decide, hfree _ (by simp)⟩
  have hwater : LinkName "< water -".toList :=
    ⟨by decide, by decide, by decide, by decide, hfree _ (by simp)⟩
  have hone : Blank [' '] := by decide
  constructor
  · have hop : ⟨valueMark "->".toList ['<'], true, false, true, some "->".toList⟩ ∈
        operators "->".toList := by
      simp [operators]
    have hspace : Blank [' ', ' '] := by decide
    have hread := readLink_operators.1 hhot hwater (by decide) (by decide) (by decide) hop
      hone hone hspace hone (by decide) (by decide)
    exact hread
  · exact readLink_operators.2 (by decide)

end WardleyMaps
