/-
Module: WardleyMaps.Proofs.Comment.Segment
Purpose: The scanner over pieces of a line, and lines without comments.
Main exports: commentMarks_append, ScanState.settled, Uncommented, uncommented_append,
  uncommented_of_unopened, keepOutside_of_uncommented, uncommented_of_trimEnd_eq, blockAfter,
  stripLines_append, stripLines_uncommented, uncommented_of_stripLines
-/
import WardleyMaps.Proofs.Comment.Scanner

namespace WardleyMaps

open Text

/-!
A slash and a star are the only characters that make up delimiters. Any other character cuts a line
into two pieces that the scanner reads one after the other (`commentMarks_append`), and it leaves
the scanner in one of three states: outside, inside a block, or behind `//`. A line has no comment
when the scanner marks none of its characters; whether that is so can be told from the text that is
left, because a delimiter is no blank (`uncommented_of_trimEnd_eq`).
-/

/-- Characters that are no part of a delimiter, nor keep one from being seen. -/
structure Plain (c : Char) : Prop where
  slash : c ≠ '/'
  star : c ≠ '*'
  colon : c ≠ ':'

theorem Plain.of_isBlank {c : Char} (h : isBlank c = true) : Plain c := by
  constructor <;> rintro rfl <;> exact absurd h (by decide)

theorem plain_openingBracket : Plain '[' := by
  constructor <;> decide

theorem plain_closingBracket : Plain ']' := by
  constructor <;> decide

/-- The state behind a plain character. -/
def ScanState.settled : ScanState → ScanState
  | .outside _ | .paired | .closing => .outside false
  | .opening | .inside => .inside
  | .dropped => .dropped

theorem ScanState.step_plain {c : Char} (hc : Plain c) (address : Bool) (next : Option Char)
    (s : ScanState) : (s.step address c next).2 = s.settled := by
  cases s <;> simp [ScanState.step, ScanState.settled, hc.slash, hc.star, hc.colon]

/-- A plain character that follows changes nothing. -/
theorem ScanState.step_before_plain {c : Char} (hc : Plain c) (address : Bool) (d : Char)
    (s : ScanState) : s.step address d (some c) = s.step address d none := by
  cases s <;> simp [ScanState.step, hc.slash, hc.star]

theorem scanEnd_append {c : Char} (hc : Plain c) (address : Bool) (s : ScanState) (a b : Text) :
    scanEnd address s (a ++ c :: b) = scanEnd address (scanEnd address s a).settled b := by
  induction a generalizing s with
  | nil => simp [scanEnd, ScanState.step_plain hc]
  | cons d ds ih =>
      cases ds with
      | nil =>
          simp only [List.cons_append, List.nil_append, scanEnd, List.head?_cons, List.head?_nil,
            ScanState.step_before_plain hc, ScanState.step_plain hc]
      | cons e es =>
          rw [List.cons_append, scanEnd, scanEnd, List.cons_append, ← List.cons_append, ih]
          rfl

theorem commentMarks_append {c : Char} (hc : Plain c) (address : Bool) (s : ScanState)
    (a b : Text) :
    commentMarks address s (a ++ c :: b) =
      commentMarks address s a ++ ((scanEnd address s a).step address c b.head?).1 ::
        commentMarks address (scanEnd address s a).settled b := by
  induction a generalizing s with
  | nil => simp [commentMarks, scanEnd, ScanState.step_plain hc]
  | cons d ds ih =>
      cases ds with
      | nil =>
          simp only [List.cons_append, List.nil_append, commentMarks, scanEnd, List.head?_cons,
            List.head?_nil, ScanState.step_before_plain hc, ScanState.step_plain hc]
      | cons e es =>
          rw [List.cons_append, commentMarks, commentMarks, scanEnd, List.cons_append,
            ← List.cons_append, ih]
          rfl

theorem length_commentMarks (address : Bool) (s : ScanState) (t : Text) :
    (commentMarks address s t).length = t.length := by
  induction t generalizing s with
  | nil => rfl
  | cons c cs ih => simp [commentMarks, ih]

theorem unmarked_append {marks marks' : List Bool} {t t' : Text}
    (hlen : marks.length = t.length) :
    unmarked (marks ++ marks') (t ++ t') = unmarked marks t ++ unmarked marks' t' := by
  rw [unmarked, List.zip_append hlen, List.filterMap_append]
  rfl

theorem mem_of_mem_unmarked {marks : List Bool} {t : Text} {c : Char}
    (h : c ∈ unmarked marks t) : c ∈ t := by
  obtain ⟨⟨mark, d⟩, hmem, hd⟩ := List.mem_filterMap.1 h
  cases mark with
  | true => cases hd
  | false =>
      obtain rfl : d = c := Option.some.inj hd
      exact (List.of_mem_zip hmem).2

/-! ### Lines without comments -/

/-- The scanner marks no character of a text that it enters outside of comments. -/
def Uncommented (address : Bool) (t : Text) : Prop :=
  ∀ b ∈ commentMarks address (.outside false) t, b = false

instance (address : Bool) (t : Text) : Decidable (Uncommented address t) :=
  inferInstanceAs (Decidable (∀ b ∈ _, _))

/-- The states in which no comment is open. -/
def ScanState.IsCode : ScanState → Prop
  | .outside _ | .paired => True
  | _ => False

theorem ScanState.isCode_outside (afterColon : Bool) : (ScanState.outside afterColon).IsCode :=
  trivial

instance : DecidablePred ScanState.IsCode
  | .outside _ | .paired => isTrue trivial
  | .opening | .inside | .closing | .dropped => isFalse id

/-- In code a character is marked only if it opens a comment, and then it is a slash. -/
theorem ScanState.IsCode.step {s : ScanState} (hs : s.IsCode) (address : Bool) (c : Char)
    (next : Option Char) :
    ((s.step address c next).1 = true ∧ c = '/') ∨
      ((s.step address c next).1 = false ∧ (s.step address c next).2.IsCode) := by
  cases s with
  | outside afterColon =>
      simp only [ScanState.step]
      split
      · next h => exact .inl ⟨rfl, h.1⟩
      · split
        · next h =>
          cases afterColon with
          | false => exact .inl ⟨rfl, h.1⟩
          | true => exact .inr ⟨rfl, trivial⟩
        · exact .inr ⟨rfl, trivial⟩
  | paired =>
      simp only [ScanState.step]
      split
      · next h => exact .inl ⟨rfl, h.1⟩
      · exact .inr ⟨rfl, trivial⟩
  | opening | inside | closing | dropped => exact hs.elim

/-- In a comment every character is marked. -/
theorem ScanState.step_of_not_isCode {s : ScanState} (hs : ¬ s.IsCode) (address : Bool) (c : Char)
    (next : Option Char) : (s.step address c next).1 = true := by
  cases s with
  | outside afterColon => exact absurd trivial hs
  | paired => exact absurd trivial hs
  | inside =>
      simp only [ScanState.step]
      split <;> rfl
  | opening | closing | dropped => rfl

theorem ScanState.IsCode.settled {s : ScanState} (hs : s.IsCode) : s.settled = .outside false := by
  cases s <;> first | rfl | exact hs.elim

theorem ScanState.IsCode.plain {s : ScanState} (hs : s.IsCode) {c : Char} (hc : Plain c)
    (address : Bool) (next : Option Char) : (s.step address c next).1 = false := by
  rcases hs.step address c next with ⟨-, rfl⟩ | ⟨h, -⟩
  · exact absurd rfl hc.slash
  · exact h

/-- If all marked characters are blanks, none is marked, and code goes on behind the text. -/
theorem commentMarks_of_blank {address : Bool} {s : ScanState} (hs : s.IsCode) {t : Text}
    (h : ∀ p ∈ (commentMarks address s t).zip t, p.1 = true → isBlank p.2 = true) :
    (∀ b ∈ commentMarks address s t, b = false) ∧ (scanEnd address s t).IsCode := by
  induction t generalizing s with
  | nil => simpa [commentMarks, scanEnd] using hs
  | cons c cs ih =>
      simp only [commentMarks, List.zip_cons_cons, List.forall_mem_cons] at h
      rcases hs.step address c cs.head? with ⟨hmark, rfl⟩ | ⟨hmark, hcode⟩
      · exact absurd (h.1 hmark) (by decide)
      · obtain ⟨hall, hend⟩ := ih hcode h.2
        exact ⟨by simpa [commentMarks, hmark] using hall, hend⟩

theorem Uncommented.isCode {address : Bool} {t : Text} (h : Uncommented address t) :
    (scanEnd address (.outside false) t).IsCode := by
  refine (commentMarks_of_blank (ScanState.isCode_outside false) ?_).2
  intro p hp hmark
  have := h p.1 (List.of_mem_zip hp).1
  simp [this] at hmark

/-- A plain character cuts a line without comments into two such lines. -/
theorem uncommented_append {c : Char} (hc : Plain c) (address : Bool) (a b : Text) :
    Uncommented address (a ++ c :: b) ↔ Uncommented address a ∧ Uncommented address b := by
  have key : Uncommented address a →
      (Uncommented address (a ++ c :: b) ↔ Uncommented address b) := by
    intro ha
    have hstep := ha.isCode.plain hc address b.head?
    have ha' := ha
    unfold Uncommented at ha' ⊢
    rw [commentMarks_append hc, hstep, ha.isCode.settled]
    simp only [List.forall_mem_append, List.forall_mem_cons, true_and]
    exact ⟨fun h => h.2, fun h => ⟨ha', h⟩⟩
  constructor
  · intro h
    have ha : Uncommented address a := by
      intro m hm
      apply h m
      rw [commentMarks_append hc]
      exact List.mem_append_left _ hm
    exact ⟨ha, (key ha).1 h⟩
  · rintro ⟨ha, hb⟩
    exact (key ha).2 hb

/-- Plain characters in front of a line do not matter. -/
theorem uncommented_plain_append {address : Bool} {middle : Text} (h : ∀ c ∈ middle, Plain c)
    (b : Text) : Uncommented address (middle ++ b) ↔ Uncommented address b := by
  have hnil : Uncommented address [] := by simp [Uncommented, commentMarks]
  induction middle with
  | nil => rfl
  | cons c cs ih =>
      rw [List.forall_mem_cons] at h
      have hcons := uncommented_append h.1 address [] (cs ++ b)
      rw [List.nil_append] at hcons
      exact (hcons.trans (and_iff_right hnil)).trans (ih h.2)

/-- Plain characters cut a line without comments into two such lines. -/
theorem uncommented_around {address : Bool} {a middle : Text} (h : ∀ c ∈ middle, Plain c)
    (hne : middle ≠ []) (b : Text) :
    Uncommented address (a ++ middle ++ b) ↔ Uncommented address a ∧ Uncommented address b := by
  obtain ⟨c, cs, rfl⟩ := List.exists_cons_of_ne_nil hne
  rw [List.forall_mem_cons] at h
  rw [List.append_assoc, List.cons_append, uncommented_append h.1, uncommented_plain_append h.2]

/-- In code no character is marked up to the first slash. -/
theorem commentMarks_of_slash_not_mem {address : Bool} {s : ScanState} (hs : s.IsCode) {t : Text}
    (h : '/' ∉ t) (rest : Text) :
    ∀ b ∈ (commentMarks address s (t ++ rest)).take t.length, b = false := by
  induction t generalizing s with
  | nil => simp
  | cons c cs ih =>
      rw [List.mem_cons, not_or] at h
      rcases hs.step address c (cs ++ rest).head? with ⟨-, rfl⟩ | ⟨hmark, hcode⟩
      · exact absurd rfl h.1
      · rw [List.cons_append, commentMarks, List.length_cons, List.take_succ_cons]
        exact List.forall_mem_cons.2 ⟨hmark, ih hcode h.2⟩

/-- Without a slash there is no comment. -/
theorem uncommented_of_slash_not_mem {address : Bool} {t : Text} (h : '/' ∉ t) :
    Uncommented address t := by
  have hmarks : ∀ b ∈ (commentMarks address (.outside false) (t ++ [])).take t.length, b = false :=
    commentMarks_of_slash_not_mem (ScanState.isCode_outside false) h []
  rw [List.append_nil, ← length_commentMarks address (.outside false) t, List.take_length] at hmarks
  exact hmarks

/-- In code no character is marked if neither opening occurs. -/
theorem commentMarks_of_unopened {address : Bool} {s : ScanState} (hs : s.IsCode) {t : Text}
    (hline : ¬ "//".toList <:+: t) (hblock : ¬ "/*".toList <:+: t) :
    ∀ b ∈ commentMarks address s t, b = false := by
  induction t generalizing s with
  | nil => simp [commentMarks]
  | cons c cs ih =>
      have hopening : ∀ d, ¬ ['/', d] <:+: c :: cs → ¬ (c = '/' ∧ cs.head? = some d) := by
        rintro d hnot ⟨rfl, hhead⟩
        obtain ⟨rest, rfl⟩ := List.head?_eq_some_iff.1 hhead
        exact hnot (List.prefix_append ['/', d] rest).isInfix
      have hslashes := hopening '/' hline
      have hstar := hopening '*' hblock
      have hstep : (s.step address c cs.head?).1 = false ∧
          (s.step address c cs.head?).2.IsCode := by
        cases s with
        | outside afterColon =>
            simp only [ScanState.step, if_neg hstar]
            rw [if_neg fun h => hslashes ⟨h.1, h.2.1⟩]
            exact ⟨rfl, trivial⟩
        | paired =>
            rw [ScanState.step, if_neg hstar]
            exact ⟨rfl, trivial⟩
        | opening | inside | closing | dropped => exact hs.elim
      rw [commentMarks, List.forall_mem_cons]
      exact ⟨hstep.1, ih hstep.2 (fun h => hline (h.trans (List.suffix_cons c cs).isInfix))
        (fun h => hblock (h.trans (List.suffix_cons c cs).isInfix))⟩

/-- Without an opening there is no comment. -/
theorem uncommented_of_unopened {address : Bool} {t : Text} (hline : ¬ "//".toList <:+: t)
    (hblock : ¬ "/*".toList <:+: t) : Uncommented address t :=
  commentMarks_of_unopened (ScanState.isCode_outside false) hline hblock

theorem unmarked_eq_self {marks : List Bool} {t : Text} (hlen : marks.length = t.length)
    (h : ∀ b ∈ marks, b = false) : unmarked marks t = t := by
  induction t generalizing marks with
  | nil => simp [unmarked]
  | cons c cs ih =>
      cases marks with
      | nil => simp at hlen
      | cons b bs =>
          rw [List.forall_mem_cons] at h
          have := ih (by simpa using hlen) h.2
          simpa [unmarked, h.1] using this

/-- A line without comments is kept, and no block is open behind it. -/
theorem keepOutside_of_uncommented {address : Bool} {t : Text} (h : Uncommented address t) :
    keepOutside address false t = (t, false) := by
  have hkept := unmarked_eq_self (length_commentMarks address (.outside false) t) h
  have hcode := h.isCode
  rw [keepOutside_eq_scan, scan, ScanState.start, if_neg Bool.false_ne_true, hkept]
  cases hs : scanEnd address (.outside false) t <;> rw [hs] at hcode <;>
    first | rfl | exact hcode.elim

/-! ### Telling from what is left -/

/-- Characters are marked or left. -/
theorem countP_unmarked (p : Char → Bool) {marks : List Bool} {t : Text}
    (hlen : marks.length = t.length) :
    t.countP p = (unmarked marks t).countP p + (marks.zip t).countP fun q => q.1 && p q.2 := by
  induction t generalizing marks with
  | nil => simp [unmarked]
  | cons c cs ih =>
      cases marks with
      | nil => simp at hlen
      | cons b bs =>
          have hbs : bs.length = cs.length := by simpa using hlen
          have h := ih hbs
          cases b <;> simp [unmarked, List.countP_cons] at h ⊢ <;> omega

theorem countP_trimEnd (t : Text) :
    (trimEnd t).countP (!isBlank ·) = t.countP (!isBlank ·) := by
  obtain ⟨trail, htrail, ht⟩ := exists_trimEnd t
  have hzero : trail.countP (!isBlank ·) = 0 := by
    rw [List.countP_eq_zero]
    intro c hc
    simp [htrail c hc]
  conv_rhs => rw [ht, List.countP_append, hzero, Nat.add_zero]

/-- If all characters that a line loses inside a block are blanks, the line loses all. -/
theorem unmarked_inside_of_blank {address : Bool} {t : Text}
    (h : ∀ p ∈ (commentMarks address .inside t).zip t, p.1 = true → isBlank p.2 = true) :
    unmarked (commentMarks address .inside t) t = [] := by
  induction t with
  | nil => rfl
  | cons c cs ih =>
      simp only [commentMarks, List.zip_cons_cons, List.forall_mem_cons] at h
      by_cases hclose : c = '*' ∧ cs.head? = some '/'
      · have hmark : (ScanState.inside.step address c cs.head?).1 = true := by
          simp [ScanState.step, hclose]
        have hblank := h.1 hmark
        rw [hclose.1] at hblank
        exact absurd hblank (by decide)
      · have hstep : ScanState.inside.step address c cs.head? = (true, .inside) := by
          simp [ScanState.step, hclose]
        rw [hstep] at h
        simpa [commentMarks, hstep, unmarked] using ih h.2

/-- A line that leaving comments out only shortens by blanks at its end has no comment, and no block
is open before it, unless it is blank. -/
theorem uncommented_of_trimEnd_eq {address inBlock : Bool} {t : Text}
    (h : trimEnd (keepOutside address inBlock t).1 = trimEnd t) (hne : ¬ Blank t) :
    inBlock = false ∧ Uncommented address t := by
  have hkeep : (keepOutside address inBlock t).1 =
      unmarked (commentMarks address (.start inBlock) t) t := by
    rw [keepOutside_eq_scan, scan]
  rw [hkeep] at h
  have hmarked : ∀ p ∈ (commentMarks address (.start inBlock) t).zip t,
      p.1 = true → isBlank p.2 = true := by
    have hcount := countP_unmarked (!isBlank ·) (length_commentMarks address (.start inBlock) t)
    have htrim := congrArg (List.countP (!isBlank ·)) h
    rw [countP_trimEnd, countP_trimEnd] at htrim
    rw [← htrim] at hcount
    have hzero := Nat.left_eq_add.1 hcount
    intro p hp hmark
    have := List.countP_eq_zero.1 hzero p hp
    simpa [hmark] using this
  cases inBlock with
  | false => exact ⟨rfl, (commentMarks_of_blank (ScanState.isCode_outside false) hmarked).1⟩
  | true =>
      have hnil : unmarked (commentMarks address .inside t) t = [] :=
        unmarked_inside_of_blank hmarked
      rw [ScanState.start, if_pos rfl, hnil] at h
      refine absurd (List.rdropWhile_eq_nil_iff.1 ?_) hne
      rw [← trimEnd_eq_rdropWhile, ← h]
      rfl

/-! ### Many lines -/

/-- Whether a block comment is open after lines. The flag tells that one is open before them. -/
def blockAfter : Bool → List Text → Bool
  | inBlock, [] => inBlock
  | inBlock, line :: rest => blockAfter (keepOutside (isAddressLine line) inBlock line).2 rest

theorem stripLines_append (inBlock : Bool) (above below : List Text) :
    stripLines inBlock (above ++ below) =
      stripLines inBlock above ++ stripLines (blockAfter inBlock above) below := by
  induction above generalizing inBlock with
  | nil => rfl
  | cons line rest ih => simp [stripLines, blockAfter, ih]

/-- A line without comments that no block reaches is kept up to the blanks at its end, and lets no
block reach the lines below it. -/
theorem stripLines_uncommented {inBlock : Bool} {above : List Text} {line : Text}
    (hblock : blockAfter inBlock above = false) (hline : Uncommented (isAddressLine line) line)
    (below : List Text) :
    stripLines inBlock (above ++ line :: below) =
      stripLines inBlock above ++ trimEnd line :: stripLines false below := by
  rw [stripLines_append, hblock, stripLines, keepOutside_of_uncommented hline]

/-- A line of which only blanks at the end are left out has no comment, and no block reaches it. -/
theorem uncommented_of_stripLines {above below : List Text} {line : Text}
    (h : (stripLines false (above ++ line :: below))[above.length]? = some (trimEnd line))
    (hne : ¬ Blank line) :
    blockAfter false above = false ∧ Uncommented (isAddressLine line) line := by
  rw [stripLines_append, List.getElem?_append_right (by simp [length_stripLines]),
    length_stripLines, Nat.sub_self, stripLines] at h
  exact uncommented_of_trimEnd_eq (Option.some.inj h) hne

end WardleyMaps
