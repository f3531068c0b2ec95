/-
Module: WardleyMaps.Proofs.Statement.Context
Purpose: When the context of a link is read as nothing else.
Main exports: Arrow.marksBefore, NoEarlierArrow, givenContext, findSome?_plainArrows_iff,
  cutValueArrow_append_of_some, cutArrow_append_iff, opaqueContext_iff
-/
import WardleyMaps.Proofs.Statement.Link

namespace WardleyMaps

open Text

/-!
The arrow of a link is looked for on the whole line, and only then the context is cut off behind it.
A context that goes on behind a link therefore never moves the arrow that was found, but it may
bring one that is looked for before it: a plain arrow that comes earlier in the fixed order, or the
rest of an arrow with a value. Without such an arrow the context is free text, and with one the line
is read as another link or refused (`opaqueContext_iff`).
-/

/-- The plain arrows that are looked for before an arrow. -/
def Arrow.marksBefore : Arrow → List Text
  | .flowBoth => [['+', '>']]
  | .flowBack => [['+', '>'], ['+', '<', '>']]
  | .dependency => [['+', '>'], ['+', '<', '>'], ['+', '<']]
  | .flow | .value _ | .valueBoth _ | .valueBack _ => []

/-- With its context a line holds no arrow that is looked for before its own: no plain one in the
context, and, unless its own arrow carries a value, none with a value, which may begin in front of
the semicolon. -/
structure NoEarlierArrow (arrow : Arrow) (line context : Text) : Prop where
  plain : ∀ mark ∈ arrow.marksBefore, ¬ mark <:+: context
  value : arrow.carried? = none → ∀ carried, '\'' ∉ carried → ∀ tip ∈ tips,
    ¬ valueMark carried tip <:+: line ++ ';' :: context

/-- The context that the text behind a semicolon gives. -/
def givenContext (t : Text) : Option Text :=
  if trim t = [] then none else some (trim t)

/-! ### Plain arrows -/

/-- A plain arrow, where its mark occurs for the first time. -/
def plainArrowIn (t : Text) (p : Text × Arrow) : Option (Text × Arrow × Text) :=
  (cut p.1 t).map fun (before, after) => (before, p.2, after)

theorem cutArrow_eq (t : Text) :
    cutArrow t = (cutValueArrow t).or (plainArrows.findSome? (plainArrowIn t)) := by
  rw [cutArrow, Option.orElse_eq_orElse, Option.orElse_eq_or]
  rfl

/-- The other plain arrows are looked for before an arrow or after it. -/
theorem exists_around_plainArrow {p : Text × Arrow} (hp : p ∈ plainArrows) :
    ∃ earlier later, plainArrows = earlier ++ p :: later ∧
      earlier.map Prod.fst = p.2.marksBefore ∧ ∀ q ∈ earlier ++ later, q.2 ≠ p.2 := by
  obtain ⟨i, hi, rfl⟩ := List.getElem_of_mem hp
  refine ⟨plainArrows.take i, plainArrows.drop (i + 1), ?_, ?_⟩
  · rw [← List.drop_eq_getElem_cons hi, List.take_append_drop]
  · have hall : ∀ i : Fin 4, (plainArrows.take i).map Prod.fst = plainArrows[i].2.marksBefore ∧
        ∀ q ∈ plainArrows.take i ++ plainArrows.drop (i + 1), q.2 ≠ plainArrows[i].2 := by
      decide
    exact hall ⟨i, hi⟩

theorem arrow_of_findSome? {t before after : Text} {arrow : Arrow} {ps : List (Text × Arrow)}
    (h : ps.findSome? (plainArrowIn t) = some (before, arrow, after)) : ∃ q ∈ ps, q.2 = arrow := by
  obtain ⟨q, hq, hfound⟩ := List.exists_of_findSome?_eq_some h
  obtain ⟨parts, -, hparts⟩ := Option.map_eq_some_iff.1 hfound
  exact ⟨q, hq, congrArg (fun found => found.2.1) hparts⟩

/-- A plain arrow is found when none of those before it occurs. -/
theorem findSome?_plainArrows_iff {p : Text × Arrow} (hp : p ∈ plainArrows)
    {t before after : Text} :
    plainArrows.findSome? (plainArrowIn t) = some (before, p.2, after) ↔
      (∀ mark ∈ p.2.marksBefore, ¬ mark <:+: t) ∧ cut p.1 t = some (before, after) := by
  obtain ⟨earlier, later, hsplit, hmarks, hother⟩ := exists_around_plainArrow hp
  have hbefore : (∀ mark ∈ p.2.marksBefore, ¬ mark <:+: t) ↔
      earlier.findSome? (plainArrowIn t) = none := by
    rw [← hmarks, List.findSome?_eq_none_iff]
    simp [plainArrowIn, cut_eq_none_iff]
  have hhere : plainArrowIn t p = some (before, p.2, after) ↔ cut p.1 t = some (before, after) := by
    simp [plainArrowIn, Prod.ext_iff]
  rw [hsplit, List.findSome?_append, List.findSome?_cons, hbefore, ← hhere]
  cases hearlier : earlier.findSome? (plainArrowIn t) with
  | some found =>
      simp only [Option.some_or, reduceCtorEq, false_and, iff_false]
      intro hfound
      rw [hfound] at hearlier
      obtain ⟨q, hq, harrow⟩ := arrow_of_findSome? hearlier
      exact hother q (List.mem_append_left _ hq) harrow
  | none =>
      simp only [Option.none_or, true_and]
      cases hplain : plainArrowIn t p with
      | some found => simp
      | none =>
          simp only [reduceCtorEq, iff_false]
          intro hlater
          obtain ⟨q, hq, harrow⟩ := arrow_of_findSome? hlater
          exact hother q (List.mem_append_right _ hq) harrow

/-! ### Arrows with a value -/

theorem carried_of_arrowEnd? {carried t after : Text} {arrow : Arrow}
    (h : arrowEnd? carried t = some (arrow, after)) : arrow.carried? = some carried := by
  unfold arrowEnd? at h
  split at h
  · split at h
    · cases h
    · cases h
      rfl
  · split at h
    · cases h
    · cases h
      rfl
  · split at h
    · cases h
    · cases h
      rfl
  · cases h

theorem valueArrow?_quoted {carried : Text} (h : '\'' ∉ carried) (closed : Text) :
    valueArrow? ('+' :: '\'' :: (carried ++ '\'' :: closed)) = arrowEnd? carried closed := by
  simp [valueArrow?, after?, cutAt_append h]

/-- An arrow with a value begins with a plus and a value in quotes. -/
theorem exists_quoted {t after : Text} {arrow : Arrow} (h : valueArrow? t = some (arrow, after)) :
    ∃ carried closed, t = '+' :: '\'' :: (carried ++ '\'' :: closed) ∧ '\'' ∉ carried ∧
      arrowEnd? carried closed = some (arrow, after) := by
  obtain ⟨opened, hopened, hclosed⟩ := Option.bind_eq_some_iff.1 h
  obtain ⟨⟨carried, closed⟩, hcut, htip⟩ := Option.bind_eq_some_iff.1 hclosed
  obtain ⟨rfl, hcarried⟩ := cutAt_eq_some hcut
  exact ⟨carried, closed, after?_eq_some.1 hopened, hcarried, htip⟩

theorem cutValueArrow_cons (c : Char) (cs : Text) :
    cutValueArrow (c :: cs) =
      match valueArrow? (c :: cs) with
      | some (arrow, after) => some ([], arrow, after)
      | none =>
          if c = '\n' then none
          else (cutValueArrow cs).map fun (before, found) => (c :: before, found) :=
  rfl

theorem carried_of_cutValueArrow {t before after : Text} {arrow : Arrow}
    (h : cutValueArrow t = some (before, arrow, after)) : arrow.carried? ≠ none := by
  induction t generalizing before with
  | nil => cases h
  | cons c cs ih =>
      rw [cutValueArrow_cons] at h
      split at h
      · next found later hfound =>
        obtain ⟨carried, closed, -, -, htip⟩ := exists_quoted hfound
        obtain ⟨-, rfl, -⟩ : [] = before ∧ found = arrow ∧ later = after := by
          simpa using h
        rw [carried_of_arrowEnd? htip]
        exact Option.some_ne_none carried
      · split at h
        · cases h
        · obtain ⟨⟨front, found⟩, hlater, hparts⟩ := Option.map_eq_some_iff.1 h
          obtain ⟨-, rfl⟩ := Prod.mk.inj hparts
          exact ih hlater

/-- A value that opens in front of another arrow with a value is closed before this one ends. -/
theorem exists_closed_of_later {c : Char} {cs opened : Text} (hline : '\n' ∉ cs)
    (hlater : cutValueArrow cs ≠ none) (h : after? ['+', '\''] (c :: cs) = some opened) :
    ∃ carried closed, opened = carried ++ '\'' :: closed ∧ '\'' ∉ carried ∧ closed ≠ [] := by
  obtain ⟨rfl, rfl⟩ : c = '+' ∧ cs = '\'' :: opened := by
    simpa using after?_eq_some.1 h
  rw [ne_eq, cutValueArrow_eq_none_iff hline] at hlater
  push Not at hlater
  obtain ⟨value, -, tip, -, hmark⟩ := hlater
  have hinside : valueMark value tip <:+: opened := by
    rw [List.infix_cons_iff] at hmark
    exact hmark.resolve_left (by simp [valueMark])
  -- The other arrow has two quotes, so the first quote of all is not the last character.
  have htwo : 2 ≤ opened.count '\'' := by
    have hcount := hinside.sublist.count_le '\''
    simp only [valueMark, List.count_cons, List.count_append] at hcount
    simp at hcount
    omega
  obtain ⟨⟨carried, closed⟩, hcut⟩ : ∃ parts, cutAt '\'' opened = some parts := by
    rw [← Option.ne_none_iff_exists', ne_eq, cutAt_eq_none_iff, not_not, ← List.count_pos_iff]
    omega
  obtain ⟨rfl, hcarried⟩ := cutAt_eq_some hcut
  refine ⟨carried, closed, rfl, hcarried, ?_⟩
  rintro rfl
  rw [List.count_append, List.count_eq_zero_of_not_mem hcarried] at htwo
  simp at htwo

/-! ### A line that goes on -/

section

variable {rest : Text} (hrest : '\n' ∉ rest) (hpoint : rest.head? ≠ some '>')
include hrest hpoint

/-- The tip of an arrow is the same when the line goes on behind it. -/
theorem arrowEnd?_append {carried closed : Text} (hclosed : '\n' ∉ closed) (hne : closed ≠ []) :
    arrowEnd? carried (closed ++ rest) =
      (arrowEnd? carried closed).map fun (arrow, after) => (arrow, after ++ rest) := by
  obtain ⟨c, cs, rfl⟩ := List.exists_cons_of_ne_nil hne
  rw [List.mem_cons, not_or] at hclosed
  by_cases hback : c = '<'
  · cases cs with
    | nil =>
        -- Only here the character behind the line might belong to the tip.
        cases rest with
        | nil => simp [arrowEnd?, hback]
        | cons d ds =>
            have hd : d ≠ '>' := fun h => hpoint (by rw [h]; rfl)
            rw [List.mem_cons, not_or] at hrest
            simp [arrowEnd?, hback, hd, hrest]
    | cons d ds =>
        rw [List.mem_cons, not_or] at hclosed
        by_cases hd : d = '>'
        · simp [arrowEnd?, hback, hd, hclosed.2.2, hrest]
        · simp [arrowEnd?, hback, hd, hclosed.2.1, hclosed.2.2, hrest]
  · by_cases hforward : c = '>'
    · simp [arrowEnd?, hforward, hclosed.2, hrest]
    · simp [arrowEnd?, hback, hforward]

theorem valueArrow?_append_of_some {t after : Text} {arrow : Arrow} (hline : '\n' ∉ t)
    (h : valueArrow? t = some (arrow, after)) :
    valueArrow? (t ++ rest) = some (arrow, after ++ rest) := by
  obtain ⟨carried, closed, rfl, hcarried, htip⟩ := exists_quoted h
  have hne : closed ≠ [] := by
    rintro rfl
    cases htip
  have hclosed : '\n' ∉ closed := fun hmem => hline (by simp [hmem])
  have hshape : '+' :: '\'' :: (carried ++ '\'' :: closed) ++ rest =
      '+' :: '\'' :: (carried ++ '\'' :: (closed ++ rest)) := by
    simp
  rw [hshape, valueArrow?_quoted hcarried, arrowEnd?_append hrest hpoint hclosed hne, htip]
  rfl

/-- In front of an arrow with a value no other one begins for what comes behind the line. -/
theorem valueArrow?_append_of_later {c : Char} {cs : Text} (hline : '\n' ∉ cs)
    (hlater : cutValueArrow cs ≠ none) (h : valueArrow? (c :: cs) = none) :
    valueArrow? (c :: cs ++ rest) = none := by
  have hlength : ['+', '\''].length ≤ (c :: cs).length := by
    cases cs with
    | nil => exact absurd rfl hlater
    | cons d ds => simp
  have hstart := after?_append_of_length hlength rest
  cases hopened : after? ['+', '\''] (c :: cs) with
  | none =>
      rw [hopened] at hstart
      rw [valueArrow?, hstart]
      rfl
  | some opened =>
      obtain ⟨carried, closed, rfl, hcarried, hne⟩ := exists_closed_of_later hline hlater hopened
      obtain ⟨rfl, rfl⟩ : c = '+' ∧ cs = '\'' :: (carried ++ '\'' :: closed) := by
        simpa using after?_eq_some.1 hopened
      have hclosed : '\n' ∉ closed := fun hmem => hline (by simp [hmem])
      have hshape : '+' :: '\'' :: (carried ++ '\'' :: closed) ++ rest =
          '+' :: '\'' :: (carried ++ '\'' :: (closed ++ rest)) := by
        simp
      rw [valueArrow?_quoted hcarried] at h
      rw [hshape, valueArrow?_quoted hcarried, arrowEnd?_append hrest hpoint hclosed hne, h]
      rfl

/-- An arrow with a value is found in the same place when the line goes on behind it. -/
theorem cutValueArrow_append_of_some {t before after : Text} {arrow : Arrow} (hline : '\n' ∉ t)
    (h : cutValueArrow t = some (before, arrow, after)) :
    cutValueArrow (t ++ rest) = some (before, arrow, after ++ rest) := by
  induction t generalizing before with
  | nil => cases h
  | cons c cs ih =>
      rw [cutValueArrow_cons] at h
      rw [List.cons_append, cutValueArrow_cons, ← List.cons_append]
      cases hhere : valueArrow? (c :: cs) with
      | some found =>
          rw [hhere] at h
          obtain ⟨rfl, hfound⟩ := Prod.mk.inj (Option.some.inj h)
          obtain ⟨rfl, rfl⟩ := Prod.mk.inj hfound
          rw [valueArrow?_append_of_some hrest hpoint hline hhere]
      | none =>
          rw [List.mem_cons, not_or] at hline
          rw [hhere, if_neg (Ne.symm hline.1)] at h
          obtain ⟨⟨front, found⟩, hlater, hparts⟩ := Option.map_eq_some_iff.1 h
          obtain ⟨rfl, rfl⟩ := Prod.mk.inj hparts
          have hne : cutValueArrow cs ≠ none := by simp [hlater]
          rw [valueArrow?_append_of_later hrest hpoint hline.2 hne hhere, if_neg (Ne.symm hline.1),
            ih hline.2 hlater]
          rfl

end

/-! ### The arrow of the whole line -/

/-- No arrow that is looked for before the given one is in the text. -/
structure FirstArrow (arrow : Arrow) (t : Text) : Prop where
  plain : ∀ mark ∈ arrow.marksBefore, ¬ mark <:+: t
  value : arrow.carried? = none → cutValueArrow t = none

theorem carried_of_plainArrow : ∀ p ∈ plainArrows, p.2.carried? = none := by
  decide

theorem FirstArrow.of_cutArrow {t before after : Text} {arrow : Arrow}
    (h : cutArrow t = some (before, arrow, after)) : FirstArrow arrow t := by
  rw [cutArrow_eq, Option.or_eq_some_iff] at h
  rcases h with hvalue | ⟨hnone, hplain⟩
  · have hcarried := carried_of_cutValueArrow hvalue
    refine ⟨?_, fun hplain => absurd hplain hcarried⟩
    cases arrow with
    | value | valueBoth | valueBack => simp [Arrow.marksBefore]
    | dependency | flow | flowBoth | flowBack => exact absurd rfl hcarried
  · obtain ⟨p, hp, rfl⟩ := arrow_of_findSome? hplain
    exact ⟨((findSome?_plainArrows_iff hp).1 hplain).1, fun _ => hnone⟩

/-- The arrow of a line is found again when the line goes on, unless one that is looked for before
it is there then. -/
theorem cutArrow_append {t rest before after : Text} {arrow : Arrow} (hline : '\n' ∉ t)
    (hrest : '\n' ∉ rest) (hpoint : rest.head? ≠ some '>')
    (h : cutArrow t = some (before, arrow, after)) (hfirst : FirstArrow arrow (t ++ rest)) :
    cutArrow (t ++ rest) = some (before, arrow, after ++ rest) := by
  rw [cutArrow_eq, Option.or_eq_some_iff] at h ⊢
  rcases h with hvalue | ⟨-, hplain⟩
  · exact .inl (cutValueArrow_append_of_some hrest hpoint hline hvalue)
  · obtain ⟨p, hp, rfl⟩ := arrow_of_findSome? hplain
    have hcut := ((findSome?_plainArrows_iff hp).1 hplain).2
    exact .inr ⟨hfirst.value (carried_of_plainArrow p hp),
      (findSome?_plainArrows_iff hp).2 ⟨hfirst.plain, cut_append hcut rest⟩⟩

theorem suffix_of_cutValueArrow {t before after : Text} {arrow : Arrow}
    (h : cutValueArrow t = some (before, arrow, after)) : after <:+ t := by
  induction t generalizing before with
  | nil => cases h
  | cons c cs ih =>
      rw [cutValueArrow_cons] at h
      split at h
      · next found later hfound =>
        obtain ⟨-, -, rfl⟩ : [] = before ∧ found = arrow ∧ later = after := by
          simpa using h
        obtain ⟨carried, closed, hshape, -, htip⟩ := exists_quoted hfound
        obtain ⟨tip, -, rfl⟩ := exists_tip_of_arrowEnd? htip
        exact ⟨'+' :: '\'' :: (carried ++ '\'' :: tip), by simp [hshape]⟩
      · split at h
        · cases h
        · obtain ⟨⟨front, found⟩, hlater, hparts⟩ := Option.map_eq_some_iff.1 h
          obtain ⟨-, rfl⟩ := Prod.mk.inj hparts
          exact (ih hlater).trans (List.suffix_cons c cs)

theorem suffix_of_cutArrow {t before after : Text} {arrow : Arrow}
    (h : cutArrow t = some (before, arrow, after)) : after <:+ t := by
  rw [cutArrow_eq, Option.or_eq_some_iff] at h
  rcases h with hvalue | ⟨-, hplain⟩
  · exact suffix_of_cutValueArrow hvalue
  · obtain ⟨p, hp, rfl⟩ := arrow_of_findSome? hplain
    have hcut := ((findSome?_plainArrows_iff hp).1 hplain).2
    exact ⟨before ++ p.1, (cut_eq_some hcut).symm⟩

/-! ### Lines with a context -/

theorem marksBefore_apart (arrow : Arrow) :
    ∀ mark ∈ arrow.marksBefore, Trimmed mark ∧ mark ≠ [] ∧ ';' ∉ mark := by
  cases arrow <;> simp only [Arrow.marksBefore] <;> decide

/-- A context brings no earlier arrow just when none is on the whole line. -/
theorem noEarlierArrow_iff {line context : Text} {arrow : Arrow} (hline : '\n' ∉ line)
    (hcontext : '\n' ∉ context) (h : FirstArrow arrow (trim line)) :
    NoEarlierArrow arrow line context ↔ FirstArrow arrow (trim (line ++ ';' :: context)) := by
  have hplain : ∀ mark ∈ arrow.marksBefore,
      (mark <:+: trim (line ++ ';' :: context) ↔ mark <:+: context) := by
    intro mark hmark
    obtain ⟨htrimmed, hne, hapart⟩ := marksBefore_apart arrow mark hmark
    have hnone := h.plain mark hmark
    rw [infix_trim_iff htrimmed hne] at hnone
    rw [infix_trim_iff htrimmed hne, infix_append_cons_iff hapart, or_iff_right hnone]
  have hwhole : '\n' ∉ trim (line ++ ';' :: context) := by
    intro hmem
    have hsome := (infix_trim _).subset hmem
    simp [hline, hcontext] at hsome
  have hvalue : cutValueArrow (trim (line ++ ';' :: context)) = none ↔
      ∀ carried, '\'' ∉ carried → ∀ tip ∈ tips,
        ¬ valueMark carried tip <:+: line ++ ';' :: context := by
    rw [cutValueArrow_eq_none_iff hwhole]
    apply forall_congr'
    intro carried
    apply imp_congr_right
    intro _
    apply forall₂_congr
    intro tip htip
    rw [infix_trim_iff (trimmed_valueMark htip carried) (by simp [valueMark])]
  constructor
  · exact fun hnone => ⟨fun mark hmark => mt (hplain mark hmark).1 (hnone.plain mark hmark),
      fun harrow => hvalue.2 (hnone.value harrow)⟩
  · exact fun hfirst => ⟨fun mark hmark => mt (hplain mark hmark).2 (hfirst.plain mark hmark),
      fun harrow => hvalue.1 (hfirst.value harrow)⟩

theorem readLink_eq_some_iff {line : Text} {link : Link} :
    readLink line = .ok (some link) ↔
      ∃ before after, cutArrow (trim line) = some (before, link.arrow, after) ∧
        link.start = trim before ∧ (link.target, link.context) = splitContext after ∧
        link.start ≠ [] ∧ link.target ≠ [] := by
  unfold readLink
  cases hcut : cutArrow (trim line) with
  | none => simp
  | some found =>
      obtain ⟨before, arrow, after⟩ := found
      obtain ⟨start, target, arrow', context⟩ := link
      simp only [Option.some.injEq, Prod.mk.injEq]
      constructor
      · intro h
        split at h
        · cases h
        · next hne =>
          simp only [Except.ok.injEq, Option.some.injEq, Link.mk.injEq] at h
          obtain ⟨rfl, rfl, rfl, rfl⟩ := h
          rw [Bool.or_eq_true, not_or, List.isEmpty_iff, List.isEmpty_iff] at hne
          exact ⟨before, after, ⟨rfl, rfl, rfl⟩, rfl, rfl, hne⟩
      · rintro ⟨_, _, ⟨rfl, rfl, rfl⟩, rfl, hsplit, hstart, htarget⟩
        rw [← hsplit]
        simp [hstart, htarget]

/-- What a line with a context is when it is trimmed. -/
theorem exists_trim_append_cons {line : Text} (hne : trim line ≠ []) {c : Char}
    (hc : isBlank c = false) (rest : Text) :
    ∃ space, Blank space ∧
      trim (line ++ c :: rest) = trim line ++ (space ++ c :: trimEnd rest) := by
  obtain ⟨lead, trail, hlead, htrail, hline⟩ := exists_trim line
  refine ⟨trail, htrail, ?_⟩
  have hshape : line ++ c :: rest = lead ++ (trim line ++ (trail ++ c :: rest)) := by
    conv_lhs => rw [hline]
    simp
  rw [hshape, trim_prepend_of_blank hlead, trim_append_of_trimmed (trimmed_trim line) hne,
    trimEnd_append_cons hc]

theorem splitContext_append {target space context : Text} (htarget : ';' ∉ target)
    (hspace : Blank space) :
    splitContext (target ++ (space ++ ';' :: trimEnd context)) =
      (trim target, givenContext context) := by
  have hfree : ';' ∉ target ++ space := by
    simp [htarget, not_mem_of_blank (c := ';') (by decide) hspace]
  rw [← List.append_assoc, splitContext, cutAt_append hfree]
  simp [trim_append_of_blank hspace, givenContext]

/-- The context of a link is free text, and leaves everything else about the link alone, if and only
if it brings no arrow that is looked for before the arrow of the link. -/
theorem opaqueContext_iff {line context : Text} {link : Link} (hline : '\n' ∉ line)
    (hcontext : '\n' ∉ context) (hfree : ';' ∉ line) (hread : readLink line = .ok (some link)) :
    readLink (line ++ ';' :: context) = .ok (some { link with context := givenContext context }) ↔
      NoEarlierArrow link.arrow line context := by
  obtain ⟨before, after, hcut, hstart, hsplit, hstartNe, htargetNe⟩ := readLink_eq_some_iff.1 hread
  rw [noEarlierArrow_iff hline hcontext (.of_cutArrow hcut)]
  constructor
  · intro hopaque
    obtain ⟨_, _, hcut', -⟩ := readLink_eq_some_iff.1 hopaque
    exact .of_cutArrow hcut'
  · intro hfirst
    have hne : trim line ≠ [] := by
      intro hnil
      rw [hnil] at hcut
      cases hcut
    obtain ⟨space, hspace, hwhole⟩ := exists_trim_append_cons hne (c := ';') (by decide) context
    have hafter : ';' ∉ after := fun hmem =>
      hfree ((infix_trim line).subset ((suffix_of_cutArrow hcut).subset hmem))
    have hplain : splitContext after = (trim after, none) := by
      simp [splitContext, cutAt_eq_none_iff.2 hafter]
    have htarget : link.target = trim after := (Prod.mk.inj (hsplit.trans hplain)).1
    have hlineTrim : '\n' ∉ trim line := fun hmem => hline ((infix_trim line).subset hmem)
    have hrest : '\n' ∉ space ++ ';' :: trimEnd context := by
      intro hmem
      have hsome : '\n' ∈ trim (line ++ ';' :: context) := by
        rw [hwhole]
        exact List.mem_append_right _ hmem
      simpa [hline, hcontext] using (infix_trim _).subset hsome
    have hpoint : (space ++ ';' :: trimEnd context).head? ≠ some '>' := by
      cases space with
      | nil => simp
      | cons c cs => simpa using ne_of_isBlank (hspace c List.mem_cons_self) (by decide)
    rw [hwhole] at hfirst
    have hcut' := cutArrow_append hlineTrim hrest hpoint hcut hfirst
    rw [← hwhole] at hcut'
    refine readLink_eq_some_iff.2 ⟨before, _, hcut', hstart, ?_, hstartNe, htargetNe⟩
    rw [splitContext_append hafter hspace, htarget]

/-- A context may hold an arrow that is looked for later, here a dependency behind a flow, but none
that is looked for earlier, here a flow behind a dependency. -/
theorem opaqueContext_tea :
    readLink ("cup+>tea".toList ++ ';' :: " hot -> cold".toList) =
        .ok (some ⟨"cup".toList, "tea".toList, .flow, some "hot -> cold".toList⟩) ∧
      readLink ("cup->tea".toList ++ ';' :: " hot +> cold".toList) ≠
        .ok (some ⟨"cup".toList, "tea".toList, .dependency, some "hot +> cold".toList⟩) := by
  have hflow : readLink "cup+>tea".toList =
      .ok (some ⟨"cup".toList, "tea".toList, .flow, none⟩) := by decide
  have hdependency : readLink "cup->tea".toList =
      .ok (some ⟨"cup".toList, "tea".toList, .dependency, none⟩) := by decide
  have hnone : NoEarlierArrow .flow "cup+>tea".toList " hot -> cold".toList := by
    refine ⟨by simp [Arrow.marksBefore], fun _ => ?_⟩
    exact (cutValueArrow_eq_none_iff (by decide)).1 (by decide)
  have hsome : ¬ NoEarlierArrow .dependency "cup->tea".toList " hot +> cold".toList := by
    intro h
    apply h.plain ['+', '>'] (by simp [Arrow.marksBefore])
    exact ⟨" hot ".toList, " cold".toList, by decide⟩
  constructor
  · exact (opaqueContext_iff (by decide) (by decide) (by decide) hflow).2 hnone
  · exact fun h => hsome ((opaqueContext_iff (by decide) (by decide) (by decide) hdependency).1 h)

end WardleyMaps
