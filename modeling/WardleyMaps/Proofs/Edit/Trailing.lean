/-
Module: WardleyMaps.Proofs.Edit.Trailing
Purpose: What the editors find on a line with more blanks behind it.
Main exports: Stable, SourceLine.lengthen, Span.lengthen, positionSpan_lengthen,
  maturitySpan_lengthen
-/
import WardleyMaps.Proofs.Edit.Evolve

namespace WardleyMaps

open Text

/-!
The editors recognise a statement on its line without comments and then look for it on the line as
it stands in the source, where blanks may follow. A position is not found in these blanks, for it
stands between brackets. The name of an `evolve` statement may reach into them, and so a line may be
matched that was not matched without them, and matched in another place. But nothing except blanks
follows such a match, so no maturity does; and no later place of the line could be matched instead,
because there are not enough characters left on the line that are no blanks (`ink`).
-/

/-! ### Marks without blanks -/

theorem after?_append_of_blank {mark trail : Text} (hmark : ∀ c ∈ mark, isBlank c = false)
    (htrail : Blank trail) (t : Text) :
    after? mark (t ++ trail) = (after? mark t).map (· ++ trail) := by
  induction mark generalizing t with
  | nil => rfl
  | cons p ps ih =>
      rw [List.forall_mem_cons] at hmark
      cases t with
      | cons c cs =>
          rw [List.cons_append, after?, after?, ih hmark.2]
          split <;> rfl
      | nil =>
          cases trail with
          | nil => rfl
          | cons c cs =>
              have hc : p ≠ c := by
                rintro rfl
                exact absurd (htrail p List.mem_cons_self) (by simp [hmark.1])
              exact after?_cons_ne hc ps cs

theorem cut_append_of_blank {mark trail : Text} (hmark : ∀ c ∈ mark, isBlank c = false)
    (hne : mark ≠ []) (htrail : Blank trail) (t : Text) :
    cut mark (t ++ trail) =
      (cut mark t).map fun parts => (parts.1, parts.2 ++ trail) := by
  have nothing : after? mark [] = none := by
    obtain ⟨c, cs, rfl⟩ := List.exists_cons_of_ne_nil hne
    rfl
  induction t with
  | nil =>
      rw [List.nil_append, cut.eq_1 mark, nothing]
      induction trail with
      | nil => simp [cut, nothing]
      | cons c cs ih =>
          have here := after?_append_of_blank hmark htrail []
          rw [List.nil_append, nothing] at here
          rw [cut, here, ih htrail.tail]
          rfl
  | cons c cs ih =>
      have here := after?_append_of_blank hmark htrail (c :: cs)
      rw [List.cons_append] at here ⊢
      rw [cut, cut, here, ih]
      cases after? mark (c :: cs) with
      | some rest => rfl
      | none => cases cut mark cs <;> rfl

theorem cutAt_append_of_blank {mark : Char} {trail : Text} (hmark : isBlank mark = false)
    (htrail : Blank trail) (t : Text) :
    cutAt mark (t ++ trail) =
      (cutAt mark t).map fun parts => (parts.1, parts.2 ++ trail) := by
  induction t with
  | nil =>
      have hnot : mark ∉ trail := not_mem_of_blank hmark htrail
      cases hcut : cutAt mark trail with
      | none => rw [List.nil_append, hcut]; rfl
      | some parts => exact absurd (by simp [(cutAt_eq_some hcut).1]) hnot
  | cons c cs ih =>
      rw [List.cons_append, cutAt, cutAt, ih]
      split
      · rfl
      · cases cutAt mark cs <;> rfl

/-! ### What is accepted in front of blanks -/

/-- Behind a text blanks stay behind what is accepted of it, unless something else is accepted that
is lost; and nothing is accepted of the empty text. -/
structure Stable (lost : Text → Prop) (accept : Text → Option Text) : Prop where
  nil : accept [] = none
  append : ∀ trail, Blank trail → ∀ t,
    accept (t ++ trail) = (accept t).map (· ++ trail) ∨
      ∃ rest, lost rest ∧ accept (t ++ trail) = some rest

section

variable {lost : Text → Prop} {accept : Text → Option Text}

theorem Stable.blank (h : Stable lost accept) {t : Text} (ht : Blank t) :
    accept t = none ∨ ∃ rest, lost rest ∧ accept t = some rest := by
  have behind := h.append t ht []
  rwa [List.nil_append, h.nil] at behind

theorem Stable.afterBlanks_of_blank (h : Stable lost accept) {t : Text} (ht : Blank t) :
    afterBlanks accept t = none ∨ ∃ rest, lost rest ∧ afterBlanks accept t = some rest := by
  induction t with
  | nil => exact .inl rfl
  | cons c cs ih =>
      have hcs : Blank cs := ht.tail
      rw [afterBlanks, if_pos (ht c List.mem_cons_self)]
      rcases ih hcs with refused | ⟨rest, hrest, found⟩
      · rw [refused]
        exact h.blank hcs
      · exact .inr ⟨rest, hrest, by rw [found]; rfl⟩

theorem Stable.behindBlanks (h : Stable lost accept) : Stable lost (afterBlanks accept) := by
  refine ⟨rfl, fun trail htrail t => ?_⟩
  induction t with
  | nil => exact h.afterBlanks_of_blank htrail
  | cons c cs ih =>
      rw [List.cons_append, afterBlanks, afterBlanks]
      split
      · -- The first alternative is taken again, or it is lost, or the second one decides.
        rcases ih with same | ⟨rest, hrest, found⟩
        · rw [same]
          cases afterBlanks accept cs with
          | some deep => exact .inl rfl
          | none => exact h.append trail htrail cs
        · exact .inr ⟨rest, hrest, by rw [found]; rfl⟩
      · exact .inl rfl

theorem Stable.behindKeyword (h : Stable lost accept) {keyword : Text} (hkeyword : Token keyword) :
    Stable lost fun t => (after? keyword t).bind accept := by
  constructor
  · cases keyword with
    | nil => exact h.nil
    | cons c cs => rfl
  · intro trail htrail t
    rw [after?_append_of_blank hkeyword.not_blank htrail]
    cases after? keyword t with
    | none => exact .inl rfl
    | some rest => exact h.append trail htrail rest

end

/-- Nothing is lost. -/
theorem Stable.append_eq {accept : Text → Option Text} (h : Stable (fun _ => False) accept)
    {trail : Text} (htrail : Blank trail) (t : Text) :
    accept (t ++ trail) = (accept t).map (· ++ trail) :=
  (h.append trail htrail t).resolve_right fun ⟨_, lost, _⟩ => lost

/-! ### Positions -/

theorem bracketAfterName?_eq_some {name t opened : Text} :
    bracketAfterName? name t = some opened ↔
      ∃ gap, Blank gap ∧ t = name ++ gap ++ '[' :: opened := by
  rw [bracketAfterName?, Option.bind_eq_some_iff]
  simp only [after?_eq_some]
  constructor
  · rintro ⟨rest, rfl, hmatch⟩
    obtain ⟨gap, hgap, hrest⟩ := exists_trimStart rest
    split at hmatch
    · next found hopen =>
      obtain rfl := Option.some.inj hmatch
      exact ⟨gap, hgap, by rw [List.append_assoc, ← hopen, ← hrest]⟩
    · cases hmatch
  · rintro ⟨gap, hgap, rfl⟩
    refine ⟨gap ++ '[' :: opened, by simp, ?_⟩
    rw [trimStart_append_of_blank hgap, trimStart_eq_self_of_head (by decide)]
    rfl

/-- What stands in front of a row of blanks, when a character that is no blank is found in both. -/
theorem exists_of_append_blank {t trail front rest : Text} {c : Char} (htrail : Blank trail)
    (hc : isBlank c = false) (h : t ++ trail = front ++ c :: rest) :
    ∃ later, t = front ++ c :: later ∧ rest = later ++ trail := by
  rcases List.append_eq_append_iff.1 h with ⟨a, hfront, htail⟩ | ⟨a, ht, hcons⟩
  · have hmem : c ∈ trail := by simp [htail]
    exact absurd hmem (not_mem_of_blank hc htrail)
  · cases a with
    | nil =>
        have hmem : c ∈ trail := by simp [← show c :: rest = trail by simpa using hcons]
        exact absurd hmem (not_mem_of_blank hc htrail)
    | cons d ds =>
        obtain ⟨rfl, hrest⟩ := List.cons.inj hcons
        exact ⟨ds, ht, hrest⟩

theorem stable_bracketAfterName? (name : Text) :
    Stable (fun _ => False) (bracketAfterName? name) := by
  constructor
  · rw [Option.eq_none_iff_forall_ne_some]
    intro opened h
    obtain ⟨gap, -, hnil⟩ := bracketAfterName?_eq_some.1 h
    simp at hnil
  · intro trail htrail t
    refine .inl (Option.ext fun opened => ?_)
    rw [Option.map_eq_some_iff, bracketAfterName?_eq_some]
    constructor
    · rintro ⟨gap, hgap, htext⟩
      obtain ⟨later, ht, hopened⟩ := exists_of_append_blank htrail (by decide) htext
      exact ⟨later, bracketAfterName?_eq_some.2 ⟨gap, hgap, ht⟩, hopened.symm⟩
    · rintro ⟨later, hlater, rfl⟩
      obtain ⟨gap, hgap, rfl⟩ := bracketAfterName?_eq_some.1 hlater
      exact ⟨gap, hgap, by simp⟩

theorem stable_declaration? (name : Text) : Stable (fun _ => False) (declaration? name) := by
  have words : ∀ keyword ∈ positionedKeywords, Token keyword := by decide
  have each : ∀ keyword ∈ positionedKeywords, Stable (fun _ => False) fun t =>
      (after? keyword t).bind (afterBlanks (bracketAfterName? name)) := fun keyword hkeyword =>
    (stable_bracketAfterName? name).behindBlanks.behindKeyword (words keyword hkeyword)
  constructor
  · exact List.findSome?_eq_none_iff.2 fun keyword hkeyword => (each keyword hkeyword).nil
  · intro trail htrail t
    left
    unfold declaration?
    generalize positionedKeywords = keywords at each
    induction keywords with
    | nil => rfl
    | cons keyword others ih =>
        rw [List.forall_mem_cons] at each
        have first := each.1.append_eq htrail t
        rw [List.findSome?_cons, List.findSome?_cons, first, ih each.2]
        cases (after? keyword t).bind (afterBlanks (bracketAfterName? name)) <;> rfl

theorem Stable.findEdge_of_blank {accept : Text → Option Text}
    (h : Stable (fun _ => False) accept) {t : Text} (ht : Blank t) (joined : Bool) :
    findEdge accept joined t = none := by
  induction t generalizing joined with
  | nil => rfl
  | cons c cs ih =>
      have refused : accept (c :: cs) = none :=
        (h.blank ht).resolve_right fun ⟨_, lost, _⟩ => lost
      rw [findEdge, refused, ite_self]
      exact ih ht.tail _

theorem Stable.findEdge_append {accept : Text → Option Text} (h : Stable (fun _ => False) accept)
    {trail : Text} (htrail : Blank trail) (joined : Bool) (t : Text) :
    findEdge accept joined (t ++ trail) = (findEdge accept joined t).map (· ++ trail) := by
  induction t generalizing joined with
  | nil => exact h.findEdge_of_blank htrail joined
  | cons c cs ih =>
      have here := h.append_eq htrail (c :: cs)
      rw [List.cons_append] at here ⊢
      rw [findEdge, findEdge, here, ih]
      cases joined with
      | true => rfl
      | false => cases accept (c :: cs) <;> rfl

/-- The line with more behind it. -/
def SourceLine.lengthen (trail : Text) (line : SourceLine) : SourceLine :=
  { line with raw := line.raw ++ trail }

/-- The span on a line with more behind it. -/
def Span.lengthen (trail : Text) (s : Span) : Span :=
  { s with after := s.after ++ trail }

theorem Span.lengthen_line (trail : Text) (s : Span) (new : Text) :
    (s.lengthen trail).line new = s.line new ++ trail := by
  simp [lengthen, line]

/-- What stands in front of the end of a line does not depend on what is behind both. -/
theorem take_append_of_append (line rest trail : Text) :
    (line ++ trail).take ((line ++ trail).length - (rest ++ trail).length) =
      line.take (line.length - rest.length) := by
  rw [List.length_append, List.length_append, Nat.add_sub_add_right,
    List.take_append_of_le_length (Nat.sub_le _ _)]

theorem spanToBracket_lengthen {trail : Text} (htrail : Blank trail) (line opened : Text) :
    spanToBracket (line ++ trail) (opened ++ trail) =
      (spanToBracket line opened).map (Span.lengthen trail) := by
  rw [spanToBracket, spanToBracket, cutAt_append_of_blank (by decide) htrail,
    take_append_of_append]
  cases cutAt ']' opened <;> rfl

/-- Blanks behind a line stay behind the position on it. -/
theorem positionSpan_lengthen {trail : Text} (htrail : Blank trail) (name : Text)
    (line : SourceLine) :
    positionSpan name (line.lengthen trail) =
      (positionSpan name line).map (Span.lengthen trail) := by
  obtain ⟨raw, bare, hidden⟩ := line
  change positionSpan name ⟨raw ++ trail, bare, hidden⟩ = _
  simp only [positionSpan]
  split
  · split
    · rfl
    · rw [(stable_declaration? name).findEdge_append htrail]
      cases findEdge (declaration? name) false raw with
      | none => rfl
      | some opened => exact spanToBracket_lengthen htrail raw opened
  · split
    · have word : Token "note".toList := by decide
      rw [cut_append_of_blank word.not_blank word.ne_nil htrail]
      cases cut "note".toList raw with
      | none => rfl
      | some parts =>
          simp only [Option.map_some, Option.bind_some]
          rw [cutAt_append_of_blank (by decide) htrail]
          cases cutAt '[' parts.2 with
          | none => rfl
          | some found => exact spanToBracket_lengthen htrail raw found.2
    · rfl

/-! ### Maturities -/

/-- How many characters of a text are no blanks. -/
def ink (t : Text) : Nat :=
  t.countP (!isBlank ·)

theorem ink_append (a b : Text) : ink (a ++ b) = ink a + ink b :=
  List.countP_append

theorem ink_eq_zero {t : Text} : ink t = 0 ↔ Blank t := by
  simp [ink, List.countP_eq_zero, Blank]

theorem ink_le_of_suffix {s t : Text} (h : s <:+ t) : ink s ≤ ink t :=
  h.sublist.countP_le

/-- A name that ends a text, or goes on in the blanks behind it, is followed by blanks only. -/
theorem stable_endOfName? (name : Text) : Stable Blank (endOfName? name) := by
  constructor
  · rw [Option.eq_none_iff_forall_ne_some]
    intro rest h
    obtain ⟨hnil, hne, -⟩ := endOfName?_eq_some.1 h
    exact hne (List.append_eq_nil_iff.1 hnil.symm).2
  · intro trail htrail t
    cases hfound : endOfName? name (t ++ trail) with
    | none =>
        refine .inl ?_
        cases hshort : endOfName? name t with
        | none => rfl
        | some rest =>
            obtain ⟨rfl, hne, hend⟩ := endOfName?_eq_some.1 hshort
            have hlong : endOfName? name (name ++ rest ++ trail) = some (rest ++ trail) := by
              refine endOfName?_eq_some.2 ⟨by simp, by simp [hne], ?_⟩
              rcases hend with rfl | ⟨c, cs, rfl, hblank⟩ | ⟨more, rfl⟩
              · exact absurd rfl hne
              · exact .inr (.inl ⟨c, cs ++ trail, rfl, hblank⟩)
              · exact .inr (.inr ⟨more ++ trail, by simp⟩)
            rw [hfound] at hlong
            cases hlong
    | some rest =>
        obtain ⟨htext, hne, hend⟩ := endOfName?_eq_some.1 hfound
        rcases List.append_eq_append_iff.1 htext with ⟨a, -, hrest⟩ | ⟨a, rfl, rfl⟩
        · refine .inr ⟨rest, ?_, rfl⟩
          rw [hrest] at htrail
          exact fun c hc => htrail c (List.mem_append_right a hc)
        · cases a with
          | nil => exact .inr ⟨trail, htrail, rfl⟩
          | cons c cs =>
              refine .inl ?_
              rw [endOfName?_eq_some.2 ⟨rfl, List.cons_ne_nil c cs, ?_⟩]
              · rfl
              · rcases hend with hnil | ⟨d, ds, hcons, hblank⟩ | ⟨more, harrow⟩
                · cases hnil
                · obtain ⟨rfl, -⟩ := List.cons.inj hcons
                  exact .inr (.inl ⟨c, cs, rfl, hblank⟩)
                · -- The whole arrow stands in front of the blanks.
                  have hhead : (c :: cs) ++ trail = ['-'] ++ '>' :: more := harrow
                  obtain ⟨later, hlater, -⟩ := exists_of_append_blank htrail (by decide) hhead
                  exact .inr (.inr ⟨later, hlater⟩)

theorem stable_evolveHeader? (name : Text) : Stable Blank (evolveHeader? name) :=
  (stable_endOfName? name).behindBlanks.behindKeyword (by decide)

/-- What is matched in front of the rest is the keyword, blanks and the name. -/
theorem ink_of_evolveHeader? {name t rest : Text} (h : evolveHeader? name t = some rest) :
    ink t = ink "evolve".toList + ink name + ink rest := by
  obtain ⟨later, hkeyword, hblanks⟩ := Option.bind_eq_some_iff.1 h
  obtain ⟨gap, s, rfl, hgap, -, hname⟩ := exists_gap_of_afterBlanks hblanks
  obtain ⟨rfl, -, -⟩ := endOfName?_eq_some.1 hname
  rw [after?_eq_some.1 hkeyword]
  simp only [ink_append, ink_eq_zero.2 hgap]
  omega

/-- Blanks behind a text stay behind the first maturity in it that follows the name. -/
theorem findPlace_evolveHeader?_append {trail : Text} (htrail : Blank trail) (name t : Text) :
    (findPlace (evolveHeader? name) (t ++ trail)).bind findMaturity =
      ((findPlace (evolveHeader? name) t).bind findMaturity).map fun found =>
        { found with rest := found.rest ++ trail } := by
  induction t with
  | nil =>
      have refused : ∀ c u, isBlank c = true → evolveHeader? name (c :: u) = none := by
        intro c u hc
        have hne : 'e' ≠ c := by
          rintro rfl
          exact absurd hc (by decide)
        simp [evolveHeader?, after?_cons_ne hne]
      have nothing := findPlace_append_of_blank refused htrail []
      rw [List.append_nil] at nothing
      rw [List.nil_append, nothing]
      rfl
  | cons c cs ih =>
      rcases (stable_evolveHeader? name).append trail htrail (c :: cs) with
        same | ⟨rest, lost, found⟩
      · rw [List.cons_append] at same ⊢
        rw [findPlace, findPlace, same]
        cases evolveHeader? name (c :: cs) with
        | none => exact ih
        | some rest => exact findMaturity_append_of_blank htrail rest
      · -- All that is no blank was matched, so a match without the blanks matches it as well.
        have behind : (findPlace (evolveHeader? name) (c :: cs)).bind findMaturity = none := by
          cases hplace : findPlace (evolveHeader? name) (c :: cs) with
          | none => rfl
          | some later =>
              obtain ⟨s, hs, hheader⟩ := findPlace_suffix hplace
              have hle := ink_le_of_suffix hs
              have hlong := ink_of_evolveHeader? found
              rw [ink_append, ink_eq_zero.2 htrail, ink_eq_zero.2 lost] at hlong
              rw [ink_of_evolveHeader? hheader] at hle
              exact findMaturity_of_blank (ink_eq_zero.1 (by omega))
        rw [findPlace_of_accept found (by simp), behind]
        exact findMaturity_of_blank lost

/-- Blanks behind a line stay behind the maturity on it. -/
theorem maturitySpan_lengthen {trail : Text} (htrail : Blank trail) (name : Text)
    (line : SourceLine) :
    maturitySpan name (line.lengthen trail) =
      (maturitySpan name line).map (Span.lengthen trail) := by
  obtain ⟨raw, bare, hidden⟩ := line
  change maturitySpan name ⟨raw ++ trail, bare, hidden⟩ = _
  simp only [maturitySpan]
  split
  · have found := findPlace_evolveHeader?_append htrail name raw
    have outside : ∀ (place : Option Text) (make : MaturityToken → Span),
        (place.bind fun rest => (findMaturity rest).map make) =
          (place.bind findMaturity).map make :=
      fun _ _ => Option.map_bind.symm
    rw [outside, outside, found, Option.map_map, Option.map_map]
    congr 1
    funext token
    simp only [Function.comp_apply, Span.lengthen, Span.mk.injEq, and_true]
    rw [← List.append_assoc, take_append_of_append]
  · rfl

end WardleyMaps
