/-
Module: WardleyMaps.Proofs.Edit.Kept
Purpose: The lines of a source after a position was written into it.
Main exports: EditPlace.Quiet, keepOutside_refill, inBodyFrom_refill, sourceForms_write,
  locateFirst_write
-/
import WardleyMaps.Proofs.Edit.Contents

namespace WardleyMaps

open Text

/-!
A source is scanned anew after each edit, for comments, for bodies and for the lines that declare a
name. What is written between brackets changes nothing about other lines in any of these respects,
if the scanner of comments passes the old contents as it passes the new ones (`EditPlace.Quiet`) and
no body ends in the old contents. Then the forms of the new source are the old ones but for the
edited line, whose brackets have other contents (`sourceForms_write`).
-/

/-! ### Comments -/

/-- Before the slash of a closing the scanner stands only inside of a text. -/
theorem eq_nil_of_scanEnd_closing {address : Bool} {s : ScanState} {t : Text}
    (h : scanEnd address s t = .closing) : t = [] := by
  induction t generalizing s with
  | nil => rfl
  | cons c rest ih =>
      obtain rfl := ih h
      cases s <;> simp [scanEnd, ScanState.step] at h

/-- What is kept of a line with a plain character is kept in front of it and behind it. -/
theorem scan_append {c : Char} (hc : Plain c) (address : Bool) (s : ScanState) (a b : Text) :
    scan address s (a ++ c :: b) =
      (unmarked (commentMarks address s a) a ++
        ((if ((scanEnd address s a).step address c b.head?).1 then [] else [c]) ++
          (scan address (scanEnd address s a).settled b).1),
        (scan address (scanEnd address s a).settled b).2) := by
  rw [scan, commentMarks_append hc, scanEnd_append hc, unmarked_append (length_commentMarks _ _ _)]
  cases mark : ((scanEnd address s a).step address c b.head?).1 <;> simp [scan, unmarked]

/-- In a comment plain characters are passed over. -/
theorem unmarked_of_comment (address : Bool) {s : ScanState} (settled : s.settled = s)
    (comment : ¬ s.IsCode) {t : Text} (plain : ∀ c ∈ t, Plain c) :
    unmarked (commentMarks address s t) t = [] ∧ scanEnd address s t = s := by
  induction t with
  | nil => exact ⟨rfl, rfl⟩
  | cons c rest ih =>
      rw [List.forall_mem_cons] at plain
      have next := ScanState.step_plain plain.1 address rest.head? s
      have marked := ScanState.step_of_not_isCode comment address c rest.head?
      rw [commentMarks, scanEnd, next, settled, marked]
      exact ih plain.2

/-- The scanner passes a text between brackets as if it were nothing: no comment is open in front of
it and none begins in it, or it holds no character that a comment could begin or end with. -/
def Passes (address : Bool) (s : ScanState) (inside : Text) : Prop :=
  s.IsCode ∧ Uncommented address inside ∨ ∀ c ∈ inside, Plain c

theorem scan_brackets_of_code {address : Bool} {s : ScanState} {front inside : Text}
    (code : (scanEnd address s front).settled.IsCode) (start : s ≠ .closing)
    (uncommented : Uncommented address inside) (tail : Text) :
    scan address s (front ++ '[' :: (inside ++ ']' :: tail)) =
      (unmarked (commentMarks address s front) front ++
        '[' :: (inside ++ ']' :: (scan address (.outside false) tail).1),
        (scan address (.outside false) tail).2) := by
  have before : (scanEnd address s front).IsCode := by
    cases state : scanEnd address s front with
    | closing =>
        rw [eq_nil_of_scanEnd_closing state] at state
        exact absurd state start
    | _ => rw [state] at code; exact code
  have kept := unmarked_eq_self (length_commentMarks address (.outside false) inside) uncommented
  rw [scan_append plain_openingBracket, before.settled, scan_append plain_closingBracket,
    before.plain plain_openingBracket, uncommented.isCode.plain plain_closingBracket,
    uncommented.isCode.settled, kept]
  simp

theorem scan_brackets_of_comment {address : Bool} {s : ScanState} {front inside : Text}
    (comment : ¬ (scanEnd address s front).settled.IsCode) (plain : ∀ c ∈ inside, Plain c)
    (tail : Text) :
    scan address s (front ++ '[' :: (inside ++ ']' :: tail)) =
      (unmarked (commentMarks address s front) front ++
        (scan address (scanEnd address s front).settled tail).1,
        (scan address (scanEnd address s front).settled tail).2) := by
  have before : ¬ (scanEnd address s front).IsCode := fun code =>
    comment (code.settled ▸ ScanState.isCode_outside false)
  have settled : (scanEnd address s front).settled.settled = (scanEnd address s front).settled := by
    cases scanEnd address s front <;> rfl
  obtain ⟨lost, behind⟩ := unmarked_of_comment address settled comment plain
  rw [scan_append plain_openingBracket, scan_append plain_closingBracket,
    ScanState.step_of_not_isCode before, behind, lost, ScanState.step_of_not_isCode comment,
    settled]
  simp

/-- With other contents of its brackets the same is kept around them, and the same is open behind
the line. -/
theorem keepOutside_refill {address inBlock : Bool} {front old new : Text}
    (passes : Passes address (scanEnd address (.start inBlock) front).settled old)
    (plain : ∀ c ∈ new, Plain c) (tail : Text) :
    Refilled old new (keepOutside address inBlock (front ++ '[' :: (old ++ ']' :: tail))).1
        (keepOutside address inBlock (front ++ '[' :: (new ++ ']' :: tail))).1 ∧
      (keepOutside address inBlock (front ++ '[' :: (old ++ ']' :: tail))).2 =
        (keepOutside address inBlock (front ++ '[' :: (new ++ ']' :: tail))).2 := by
  have of_plain : ∀ {t : Text}, (∀ c ∈ t, Plain c) → Uncommented address t :=
    fun h => uncommented_of_slash_not_mem fun slash => (h _ slash).slash rfl
  rw [keepOutside_eq_scan, keepOutside_eq_scan]
  by_cases code : (scanEnd address (.start inBlock) front).settled.IsCode
  · have uncommented : Uncommented address old := passes.elim (·.2) of_plain
    have start : ScanState.start inBlock ≠ .closing := by cases inBlock <;> decide
    rw [scan_brackets_of_code code start uncommented,
      scan_brackets_of_code code start (of_plain plain)]
    exact ⟨.contents _ _, rfl⟩
  · have oldPlain : ∀ c ∈ old, Plain c := passes.elim (fun h => absurd h.1 code) id
    rw [scan_brackets_of_comment code oldPlain, scan_brackets_of_comment code plain]
    exact ⟨.same _, rfl⟩

/-! ### Bodies -/

/-- A line outside of bodies may lose its closing braces: where a body is open before it, it has
none. -/
theorem inBodyFrom_unclosed {a b : Text} (opens : opensBody a = opensBody b)
    (ends : endsWithBrace a = endsWithBrace b) (closes : closesBody b = true → closesBody a = true)
    (opensNot : opensBody a = false) {isOpen : Bool} {above below : List Text}
    (visible : (inBodyFrom isOpen (above ++ a :: below))[above.length]? = some false) :
    inBodyFrom isOpen (above ++ a :: below) = inBodyFrom isOpen (above ++ b :: below) ∧
      (isOpen = true →
        (above ++ a :: below).any closesBody = (above ++ b :: below).any closesBody) := by
  induction above generalizing isOpen with
  | nil =>
      rw [List.nil_append, inBodyFrom_cons] at visible
      rw [List.nil_append, List.nil_append, inBodyFrom_cons, inBodyFrom_cons]
      cases isOpen with
      | false => simp [hiddenBy, openAfter, ← opens, opensNot, ends]
      | true =>
          simp only [hiddenBy, List.length_nil, List.getElem?_cons_zero, Option.some.injEq,
            Bool.or_eq_false_iff] at visible
          have unclosed : closesBody b = false := by
            rw [← Bool.not_eq_true]
            intro closed
            rw [closes closed] at visible
            exact absurd visible.1 (by decide)
          simp [hiddenBy, openAfter, visible.1, unclosed]
  | cons line rest ih =>
      rw [List.cons_append, inBodyFrom_cons, List.length_cons, List.getElem?_cons_succ] at visible
      obtain ⟨later, opened⟩ := ih visible
      rw [List.cons_append, List.cons_append, inBodyFrom_cons, inBodyFrom_cons, later]
      cases isOpen with
      | true =>
          have any : closesBody line = false →
              (rest ++ a :: below).any closesBody = (rest ++ b :: below).any closesBody := by
            intro unclosed
            exact opened (by simp [openAfter, unclosed])
          cases closed : closesBody line with
          | true => simp [hiddenBy, closed]
          | false => simp only [hiddenBy, List.any_cons, closed, any closed, implies_true, and_self]
      | false =>
          have any : opensBody line = true → closesBody line = false →
              (rest ++ a :: below).any closesBody = (rest ++ b :: below).any closesBody := by
            intro opening unclosed
            exact opened (by simp [openAfter, opening, unclosed])
          cases opening : opensBody line with
          | false => simp [hiddenBy, opening]
          | true =>
              cases closed : closesBody line with
              | true => simp [hiddenBy, closed]
              | false => simp [hiddenBy, opening, closed, any opening closed]

/-- Other contents of the brackets of a line leave all bodies as they are, if the old ones hold no
closing brace or the line lies outside of bodies. -/
theorem inBody_refill {old new a b : Text} (refilled : Refilled old new a b) (unbraced : '}' ∉ new)
    (opens : opensBody a = false) {above below : List Text}
    (braces : '}' ∈ old → (inBody (above ++ a :: below))[above.length]? = some false) :
    inBody (above ++ a :: below) = inBody (above ++ b :: below) := by
  by_cases braced : '}' ∈ old
  · exact (inBodyFrom_unclosed (refilled.trim.startsWith_eq (by decide)) refilled.endsWithBrace_eq
      (refilled.closes unbraced) opens (braces braced)).1
  · exact inBodyFrom_replace (refilled.sameBraces braced unbraced) false above below

/-! ### Edits of a source -/

/-- The scanner of comments passes the contents of the brackets that are edited. -/
def EditPlace.Quiet (p : EditPlace) : Prop :=
  Passes (isAddressLine p.line) p.state p.span.old

theorem set_around {α : Type} {above : List α} {i : Nat} (h : above.length = i) (x y : α)
    (below : List α) : (above ++ x :: below).set i y = above ++ y :: below := by
  rw [List.set_append_right _ _ h.le, h, Nat.sub_self, List.set_cons_zero]

section

variable {source name new : Text} {p : EditPlace} {form : SourceLine}

theorem lines_write (at_line : lines source = p.above ++ p.line :: p.below) (single : '\n' ∉ new) :
    lines (p.source new) = (lines source).set p.above.length (p.span.line new) := by
  rw [EditPlace.lines_source at_line single, at_line, set_around rfl]

theorem exists_brackets (bracketed : p.span.Bracketed p.line) :
    ∃ front tail, p.span.before = front ++ ['['] ∧ p.span.after = ']' :: tail ∧
      ∀ x, p.span.line x = front ++ '[' :: (x ++ ']' :: tail) := by
  obtain ⟨front, before⟩ := bracketed.on.before
  obtain ⟨tail, after⟩ := bracketed.after
  exact ⟨front, tail, before, after, fun x => by simp [Span.line, before, after]⟩

theorem refilled_line (bracketed : p.span.Bracketed p.line) (new : Text) :
    Refilled p.span.old new p.line (p.span.line new) := by
  obtain ⟨front, tail, -, -, line⟩ := exists_brackets bracketed
  rw [EditPlace.line, line, line]
  exact .contents front tail

theorem isAddressLine_write (bracketed : p.span.Bracketed p.line) (new : Text) :
    isAddressLine (p.span.line new) = isAddressLine p.line :=
  ((refilled_line bracketed new).trim.startsWith_eq (by decide)).symm

/-- Behind the opening bracket the scanner stands as it stood. -/
theorem EditPlace.state_eq_settled {front : Text} (before : p.span.before = front ++ ['[']) :
    p.state =
      (scanEnd (isAddressLine p.line) (.start (blockAfter false p.above)) front).settled := by
  rw [state, before, scanEnd_append plain_openingBracket]
  rfl

/-- An edit at a quiet place changes one line without comments, and there the contents of brackets
at most. -/
theorem bareLines_write (at_line : lines source = p.above ++ p.line :: p.below)
    (bracketed : p.span.Bracketed p.line) (quiet : p.Quiet) (inert : Inert new) :
    ∃ bare bare', (bareLines source)[p.above.length]? = some bare ∧
      Refilled p.span.old new bare bare' ∧
      bareLines (p.source new) = (bareLines source).set p.above.length bare' := by
  obtain ⟨front, tail, before, after, line⟩ := exists_brackets bracketed
  have passes := quiet
  rw [EditPlace.Quiet, EditPlace.state_eq_settled before] at passes
  obtain ⟨kept, stillOpen⟩ := keepOutside_refill passes inert.plain tail
  have here : p.span.line p.span.old = p.line := rfl
  rw [← line, ← line, here] at kept stillOpen
  have length : (stripLines false p.above).length = p.above.length := length_stripLines false _
  refine ⟨_, _, ?_, kept.trimEnd, ?_⟩
  · rw [bareLines, at_line, stripLines_append, List.getElem?_append_right length.le, length,
      Nat.sub_self, stripLines]
    rfl
  · rw [bareLines, bareLines, lines_write at_line inert.single, at_line, set_around rfl,
      stripLines_append, stripLines_append, stripLines, stripLines, set_around length,
      isAddressLine_write bracketed, stillOpen]

/-- A line that a position is written into begins with a keyword. -/
theorem opensBody_of_positionSpan {span : Span} (found : positionSpan name form = some span) :
    opensBody form.bare = false := by
  unfold positionSpan at found
  split at found
  · next declaration =>
    obtain ⟨keyword, positioned, starts⟩ := List.any_eq_true.1 declaration
    have keywords : ∀ k ∈ positionedKeywords, k ≠ [] ∧ k.head? ≠ some '{' := by decide
    exact opensBody_of_startsWithKeyword (keywords _ positioned).1 (keywords _ positioned).2 starts
  · split at found
    · next note =>
      rw [noteHolds, Bool.and_eq_true] at note
      exact opensBody_of_startsWithKeyword (by decide) (by decide) note.1
    · cases found

/-- An edit at a quiet place keeps all forms of a source but the one of its line, and of this form
it keeps all but the contents of brackets. -/
theorem sourceForms_write (at_line : lines source = p.above ++ p.line :: p.below)
    (at_form : (sourceForms source)[p.above.length]? = some form)
    (found : positionSpan name form = some p.span) (quiet : p.Quiet)
    (braces : '}' ∈ p.span.old → form.hidden = false) (inert : Inert new) :
    ∃ bare, Refilled p.span.old new form.bare bare ∧
      sourceForms (p.source new) =
        (sourceForms source).set p.above.length { form with raw := p.span.line new, bare } := by
  obtain ⟨raw, bare_form, hidden⟩ := sourceForms_getElem?.1 at_form
  have line_eq : form.raw = p.line := by
    rw [at_line, List.getElem?_append_right le_rfl, Nat.sub_self, List.getElem?_cons_zero] at raw
    exact (Option.some.inj raw).symm
  have bracketed : p.span.Bracketed p.line := line_eq ▸ positionSpan_bracketed found
  obtain ⟨bare, bare', here, refilled, written⟩ :=
    bareLines_write at_line bracketed quiet inert
  obtain rfl : form.bare = bare := Option.some.inj (bare_form.symm.trans here)
  have bodies : inBody (bareLines (p.source new)) = inBody (bareLines source) := by
    obtain ⟨above, below, whole, length⟩ := exists_around here
    rw [written, whole, set_around length]
    refine (inBody_refill refilled inert.unbraced (opensBody_of_positionSpan found) ?_).symm
    intro braced
    rw [← whole, length, hidden, braces braced]
  refine ⟨bare', refilled, List.ext_getElem? fun i => Option.ext fun other => ?_⟩
  rw [sourceForms_getElem?, lines_write at_line inert.single, bodies, written]
  by_cases same : p.above.length = i
  · subst same
    have inside : ∀ {α : Type} {l : List α} {x y : α}, l[p.above.length]? = some x →
        (l.set p.above.length y)[p.above.length]? = some y := by
      intro α l x y h
      exact List.getElem?_set_self (List.getElem?_eq_some_iff.1 h).1
    rw [inside raw, inside here, inside at_form, hidden]
    obtain ⟨a, b, c⟩ := other
    simp
  · rw [List.getElem?_set_ne same, List.getElem?_set_ne same, List.getElem?_set_ne same,
      sourceForms_getElem?]

/-! ### The place of the next edit -/

/-- The place with a text in its span. -/
def EditPlace.refill (p : EditPlace) (new : Text) : EditPlace :=
  { p with span := { p.span with old := new } }

/-- The next edit for the same name is made at the same place. -/
theorem locateFirst_write (unopened : '[' ∉ name)
    (located : locateFirst (positionSpan name) (sourceForms source) = some p) (quiet : p.Quiet)
    (braces : '}' ∈ p.span.old →
      ∀ form ∈ (sourceForms source)[p.above.length]?, form.hidden = false)
    (inert : Inert new) :
    locateFirst (positionSpan name) (sourceForms (p.source new)) = some (p.refill new) := by
  have at_line := EditPlace.lines_eq located fun _ _ found => (positionSpan_bracketed found).on.line
  obtain ⟨above, form, below, forms, refused, found, raws_above, raws_below⟩ :=
    exists_of_locateFirst located
  have length : above.length = p.above.length := by rw [raws_above, List.length_map]
  have at_form : (sourceForms source)[p.above.length]? = some form := by simp [forms, ← length]
  obtain ⟨bare, refilled, written⟩ := sourceForms_write at_line at_form found quiet
    (fun braced => braces braced form at_form) inert
  rw [written, forms, set_around length,
    locateFirst_append refused (positionSpan_refill unopened found inert.unclosed refilled),
    ← raws_above, ← raws_below]
  rfl

end

end WardleyMaps
