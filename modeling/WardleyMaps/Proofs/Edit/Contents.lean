/-
Module: WardleyMaps.Proofs.Edit.Contents
Purpose: Lines that differ in the contents of one pair of brackets at most.
Main exports: Inert, inert_of_pairText, UpToBracket, Refilled, Refilled.declares_eq,
  Refilled.noteHolds_eq, positionSpan_refill
-/
import WardleyMaps.Proofs.Edit.Frame
import WardleyMaps.Proofs.Edit.Reach
import WardleyMaps.Proofs.Edit.Reread
import WardleyMaps.Proofs.Text.Mark
import WardleyMaps.Proofs.Text.Word

namespace WardleyMaps

open Text

/-!
Whether a line is the one to edit is decided by what stands before its first brackets, and where on
it the edit is made by what stands before the brackets that are found. So a line whose brackets
were given other contents is recognised as before (`Refilled`), and the same brackets are found on
it again (`positionSpan_refill`).
-/

/-! ### What is written -/

/-- A text that no reader takes for anything but the contents of brackets: no part of a comment, no
bracket or brace, and no end of a line. -/
structure Inert (t : Text) : Prop where
  plain : ∀ c ∈ t, Plain c
  unopened : '[' ∉ t
  unclosed : ']' ∉ t
  unbraced : '}' ∉ t
  single : '\n' ∉ t

theorem inert_of_pairText {precision : Int} {position : Position} {pair : Text}
    (visible : position.visibility.isFinite = true) (mature : position.maturity.isFinite = true)
    (written : pairText precision position = .ok pair) : Inert pair := by
  obtain ⟨first, second, hfirst, hsecond, rfl⟩ := pairText_eq_ok.1 written
  have apart := not_mem_pair_of_written (written_fixedText visible hfirst)
    (written_fixedText mature hsecond)
  have digits : ∀ {x : Double} {t : Text}, x.isFinite = true → x.fixedText precision = .ok t →
      ∀ c ∈ t, Plain c := by
    intro x t finite h c hc
    obtain ⟨rfl, -⟩ := fixedText_eq_ok h
    exact (fixed_chars finite _ c hc).plain
  have separator : ∀ c ∈ ", ".toList, Plain c := by
    intro c hc
    rcases List.mem_pair.1 hc with rfl | rfl <;> constructor <;> decide
  refine ⟨?_, apart _ (by decide) (by decide), apart _ (by decide) (by decide),
    apart _ (by decide) (by decide), apart _ (by decide) (by decide)⟩
  simp only [List.forall_mem_append]
  exact ⟨⟨digits visible hfirst, separator⟩, digits mature hsecond⟩

theorem isBlank_openingBracket : isBlank '[' = false := by
  decide

/-! ### Searches that end at an opening bracket -/

/-- Whatever follows an opening bracket belongs to what is found, and has no part in finding it. -/
def UpToBracket (accept : Text → Option Text) : Prop :=
  ∀ t rest, accept (t ++ '[' :: rest) = (accept (t ++ ['['])).map (· ++ rest)

theorem upToBracket_bracketAfterName? {name : Text} (unopened : '[' ∉ name) :
    UpToBracket (bracketAfterName? name) := by
  intro t rest
  rw [bracketAfterName?, bracketAfterName?, after?_append_cons unopened t rest,
    after?_append_cons unopened t []]
  cases after? name t with
  | none => rfl
  | some later =>
      simp only [Option.map_some, Option.bind_some, trimStart_append_cons isBlank_openingBracket]
      cases trimStart later with
      | nil => rfl
      | cons c cs =>
          by_cases hc : c = '['
          · simp [hc]
          · simp [hc]

theorem UpToBracket.afterBlanks {accept : Text → Option Text} (h : UpToBracket accept) :
    UpToBracket (afterBlanks accept) := by
  intro t rest
  induction t with
  | nil => simp [WardleyMaps.afterBlanks, isBlank_openingBracket]
  | cons c cs ih =>
      simp only [List.cons_append, WardleyMaps.afterBlanks, ih, h cs rest]
      split
      · cases WardleyMaps.afterBlanks accept (cs ++ ['[']) <;> rfl
      · rfl

theorem UpToBracket.afterKeyword {accept : Text → Option Text} (h : UpToBracket accept)
    {keyword : Text} (unopened : '[' ∉ keyword) :
    UpToBracket fun t => (after? keyword t).bind accept := by
  intro t rest
  simp only [after?_append_cons unopened t rest, after?_append_cons unopened t []]
  cases after? keyword t with
  | none => rfl
  | some later => exact h later rest

theorem UpToBracket.findSome? {α : Type} {accept : α → Text → Option Text} {xs : List α}
    (h : ∀ x ∈ xs, UpToBracket (accept x)) :
    UpToBracket fun t => xs.findSome? fun x => accept x t := by
  intro t rest
  induction xs with
  | nil => rfl
  | cons x others ih =>
      rw [List.forall_mem_cons] at h
      simp only [List.findSome?_cons, h.1 t rest, ih h.2]
      cases accept x (t ++ ['[']) <;> rfl

theorem upToBracket_declaration? {name : Text} (unopened : '[' ∉ name) :
    UpToBracket (declaration? name) := by
  apply UpToBracket.findSome?
  intro keyword positioned
  exact (upToBracket_bracketAfterName? unopened).afterBlanks.afterKeyword
    (bracket_not_mem_keyword keyword positioned)

theorem declaration?_openingBracket (name rest : Text) : declaration? name ('[' :: rest) = none :=
  rfl

/-- A bracket that is found is found again with something else behind it. -/
theorem findEdge_refill {name : Text} (unopened : '[' ∉ name) {joined : Bool} {front old : Text}
    (found : findEdge (declaration? name) joined (front ++ '[' :: old) = some old) (new : Text) :
    findEdge (declaration? name) joined (front ++ '[' :: new) = some new := by
  have split : ∀ rest, findEdge (declaration? name) joined (front ++ '[' :: rest) =
      ((findEdge (fun t => declaration? name (t ++ ['['])) joined front).map (· ++ rest)).or
        (findEdge (declaration? name) (endsWord joined front) ('[' :: rest)) := by
    intro rest
    rw [Text.findEdge_append, findEdge_map]
    simp only [upToBracket_declaration? unopened _ rest]
  rw [split] at found ⊢
  cases front_found : findEdge (fun t => declaration? name (t ++ ['['])) joined front with
  | some more =>
      rw [front_found] at found
      have nothing : more = [] := by simpa using found
      simp [nothing]
  | none =>
      -- Behind the bracket less is found than all that follows it.
      rw [front_found, Option.map_none, Option.none_or] at found
      obtain ⟨s, within, accepted⟩ := findEdge_suffix found
      have shorter := (declaration?_suffix accepted).length_le
      rcases List.suffix_cons_iff.1 within with rfl | later
      · rw [declaration?_openingBracket] at accepted
        cases accepted
      · have within_rest := later.length_le
        rw [List.length_cons] at shorter
        omega

/-! ### Other contents -/

/-- Two lines that are the same, or differ in the contents of one pair of brackets. -/
inductive Refilled (old new : Text) : Text → Text → Prop
  | same (line : Text) : Refilled old new line line
  | contents (front tail : Text) :
      Refilled old new (front ++ '[' :: (old ++ ']' :: tail)) (front ++ '[' :: (new ++ ']' :: tail))

section

variable {old new a b : Text}

theorem trimEnd_brackets (front inside tail : Text) :
    trimEnd (front ++ '[' :: (inside ++ ']' :: tail)) =
      front ++ '[' :: (inside ++ ']' :: trimEnd tail) := by
  rw [trimEnd_append_cons isBlank_openingBracket, trimEnd_append_cons (by decide)]

theorem Refilled.trimEnd (h : Refilled old new a b) :
    Refilled old new (trimEnd a) (trimEnd b) := by
  cases h with
  | same => exact .same _
  | contents front tail =>
      rw [trimEnd_brackets, trimEnd_brackets]
      exact .contents front _

theorem Refilled.trim (h : Refilled old new a b) : Refilled old new (trim a) (trim b) := by
  cases h with
  | same => exact .same _
  | contents front tail =>
      rw [Text.trim, Text.trim, trimStart_append_cons isBlank_openingBracket,
        trimStart_append_cons isBlank_openingBracket]
      exact (Refilled.contents (trimStart front) tail).trimEnd

theorem Refilled.startsWith_eq (h : Refilled old new a b) {start : Text} (unopened : '[' ∉ start) :
    startsWith start a = startsWith start b := by
  cases h with
  | same => rfl
  | contents front tail =>
      simp only [startsWith, after?_append_cons unopened, Option.isSome_map]

theorem Refilled.startsWithKeyword_eq (h : Refilled old new a b) {keyword : Text}
    (unopened : '[' ∉ keyword) : startsWithKeyword keyword a = startsWithKeyword keyword b := by
  unfold startsWithKeyword
  have trimmed := h.trim
  generalize Text.trim a = s, Text.trim b = t at trimmed
  cases trimmed with
  | same => rfl
  | contents front tail =>
      rw [after?_append_cons unopened, after?_append_cons unopened]
      cases after? keyword front with
      | none => rfl
      | some rest => cases rest <;> rfl

theorem Refilled.declares_eq (h : Refilled old new a b) {name : Text} (unopened : '[' ∉ name) :
    declares name a = declares name b := by
  unfold declares
  have trimmed := h.trim
  generalize Text.trim a = s, Text.trim b = t at trimmed
  cases trimmed with
  | same => rfl
  | contents front tail =>
      rw [upToBracket_declaration? unopened front (old ++ _),
        upToBracket_declaration? unopened front (new ++ _), Option.isSome_map, Option.isSome_map]

theorem takeWhile_openingBracket (front rest : Text) :
    (front ++ '[' :: rest).takeWhile (· ≠ '[') = front.takeWhile (· ≠ '[') := by
  induction front with
  | nil => rfl
  | cons c cs ih =>
      rw [List.cons_append, List.takeWhile_cons, List.takeWhile_cons]
      split
      · exact congrArg (c :: ·) ih
      · rfl

/-- The text of a note ends at its first bracket. -/
theorem Refilled.noteHolds_eq (h : Refilled old new a b) (name : Text) :
    noteHolds name a = noteHolds name b := by
  have unopened : '[' ∉ "note".toList := by decide
  unfold noteHolds
  rw [h.startsWithKeyword_eq unopened]
  cases keyword : startsWithKeyword "note".toList b with
  | false => rfl
  | true =>
      obtain ⟨rest, starts, -⟩ := startsWithKeyword_iff.1 keyword
      have trimmed := h.trim
      generalize Text.trim a = s, Text.trim b = t at trimmed starts
      cases trimmed with
      | same => rfl
      | contents front tail =>
          have whole := after?_append "note".toList rest
          rw [← starts, after?_append_cons unopened] at whole
          obtain ⟨behind, found, -⟩ := Option.map_eq_some_iff.1 whole
          obtain rfl := after?_eq_some.1 found
          have drop : ∀ more, ("note".toList ++ behind ++ '[' :: more).drop 4 =
              behind ++ '[' :: more := fun _ => rfl
          rw [drop, drop, takeWhile_openingBracket, takeWhile_openingBracket]

theorem Refilled.endsWithBrace_eq (h : Refilled old new a b) :
    endsWithBrace a = endsWithBrace b := by
  unfold endsWithBrace
  have trimmed := h.trim
  generalize Text.trim a = s, Text.trim b = t at trimmed
  cases trimmed with
  | same => rfl
  | contents front tail =>
      rw [List.getLast?_append_cons, List.getLast?_append_cons, ← List.cons_append,
        ← List.cons_append, List.getLast?_append_cons, List.getLast?_append_cons]

theorem Refilled.blank_eq (h : Refilled old new a b) :
    (Text.trim a).isEmpty = (Text.trim b).isEmpty := by
  have trimmed := h.trim
  generalize Text.trim a = s, Text.trim b = t at trimmed
  cases trimmed with
  | same => rfl
  | contents front tail => cases front <;> rfl

/-- What is written closes no body. -/
theorem Refilled.closes (h : Refilled old new a b) (unbraced : '}' ∉ new)
    (closed : closesBody b = true) : closesBody a = true := by
  cases h with
  | same => exact closed
  | contents front tail =>
      rw [closesBody, List.contains_iff_mem] at closed ⊢
      simp only [List.mem_append, List.mem_cons] at closed ⊢
      tauto

/-- Contents without braces do not matter to bodies. -/
theorem Refilled.sameBraces (h : Refilled old new a b) (braced : '}' ∉ old) (unbraced : '}' ∉ new) :
    SameBraces a b := by
  refine ⟨?_, h.trim.startsWith_eq (by decide), h.endsWithBrace_eq, h.blank_eq⟩
  cases h with
  | same => rfl
  | contents front tail =>
      rw [Bool.eq_iff_iff, closesBody, closesBody, List.contains_iff_mem, List.contains_iff_mem]
      simp [braced, unbraced]

end

/-! ### The brackets that are found -/

/-- The parts of a line with a span that reaches up to a closing bracket. -/
theorem exists_parts_of_spanToBracket {line opened : Text} {span : Span}
    (behind : ('[' :: opened) <:+ line) (found : spanToBracket line opened = some span) :
    ∃ front tail, line = front ++ '[' :: (span.old ++ ']' :: tail) ∧
      opened = span.old ++ ']' :: tail ∧ span.before = front ++ ['['] ∧
        span.after = ']' :: tail := by
  obtain ⟨⟨old, tail⟩, closing, rfl⟩ := Option.map_eq_some_iff.1 found
  obtain ⟨rfl, -⟩ := cutAt_eq_some closing
  obtain ⟨front, rfl⟩ := behind
  exact ⟨front, tail, rfl, rfl, take_before (by simp), rfl⟩

/-- A mark in front of a bracket is found with anything behind the bracket. -/
theorem cut_refill {mark front before between old : Text} {c : Char}
    (found : cut mark (front ++ c :: old) = some (before, between ++ c :: old)) (rest : Text) :
    cut mark (front ++ rest) = some (before, between ++ rest) := by
  have inFront : front = before ++ mark ++ between := by
    have whole := cut_eq_some found
    rwa [← List.append_assoc, List.append_cancel_right_eq] at whole
  cases earlier : cut mark front with
  | none => exact absurd ⟨before, between, inFront.symm⟩ (cut_eq_none_iff.1 earlier)
  | some parts =>
      obtain ⟨before', between'⟩ := parts
      have again := cut_append earlier (c :: old)
      rw [found, Option.some.injEq, Prod.mk.injEq, List.append_cancel_right_eq] at again
      obtain ⟨rfl, rfl⟩ := again
      exact cut_append earlier rest

/-- The brackets that are found on a line are found again with other contents. -/
theorem positionSpan_refill {name new bare : Text} {form : SourceLine} {span : Span}
    (unopened : '[' ∉ name) (found : positionSpan name form = some span) (unclosed : ']' ∉ new)
    (refilled : Refilled span.old new form.bare bare) :
    positionSpan name { form with raw := span.line new, bare } = some { span with old := new } := by
  -- On either kind of line the search goes on from one bracket to the next closing one.
  have close : ∀ front tail, span.before = front ++ ['['] → span.after = ']' :: tail →
      span.line new = front ++ '[' :: (new ++ ']' :: tail) ∧
        spanToBracket (span.line new) (new ++ ']' :: tail) = some { span with old := new } := by
    intro front tail before after
    have line : span.line new = front ++ '[' :: (new ++ ']' :: tail) := by
      simp [Span.line, before, after]
    refine ⟨line, ?_⟩
    rw [line, spanToBracket_append front tail unclosed, before, after]
  have keywords : positionedKeywords.any (startsWithKeyword · form.bare) =
      positionedKeywords.any (startsWithKeyword · bare) := by
    simp [positionedKeywords, refilled.startsWithKeyword_eq]
  unfold positionSpan at found ⊢
  simp only [← keywords, ← refilled.declares_eq unopened, ← refilled.noteHolds_eq]
  split at found
  · next declaration =>
    rw [if_pos declaration]
    split at found
    · cases found
    · next visible =>
      obtain ⟨opened, search, spanned⟩ := Option.bind_eq_some_iff.1 found
      obtain ⟨s, within, accepted⟩ := findEdge_suffix search
      obtain ⟨front, tail, line, rfl, before, after⟩ :=
        exists_parts_of_spanToBracket ((declaration?_suffix accepted).trans within) spanned
      obtain ⟨written, closed⟩ := close front tail before after
      rw [line] at search
      rw [if_neg visible, ← closed, written, findEdge_refill unopened search]
      rfl
  · next other =>
    rw [if_neg other]
    split at found
    · next note =>
      obtain ⟨⟨lead, rest⟩, search, later⟩ := Option.bind_eq_some_iff.1 found
      obtain ⟨⟨between, opened⟩, opening, spanned⟩ := Option.bind_eq_some_iff.1 later
      obtain ⟨rfl, free⟩ := cutAt_eq_some opening
      have within : ('[' :: opened) <:+ form.raw :=
        ⟨lead ++ "note".toList ++ between, by rw [cut_eq_some search]; simp⟩
      obtain ⟨front, tail, line, rfl, before, after⟩ :=
        exists_parts_of_spanToBracket within spanned
      obtain ⟨written, closed⟩ := close front tail before after
      rw [line] at search
      rw [if_pos note, ← closed, written, cut_refill search, Option.bind_some, cutAt_append free]
      rfl
    · cases found

end WardleyMaps
