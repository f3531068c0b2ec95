/-
Module: WardleyMaps.Proofs.Comment.Scanner
Purpose: A scanner that tells of each character of a line whether it belongs to a comment, and its
  agreement with the search for the ends of comments.
Main exports: ScanState, ScanState.step, commentMarks, scanEnd, keepOutside_eq_scan
-/
import WardleyMaps.Comment
import WardleyMaps.Proofs.Text.Cut

namespace WardleyMaps

open Text

/-!
`keepOutside` searches for the next opening or closing and cuts there. The scanner of this file
reads one character at a time and sees the one after it; it marks the characters of comments,
delimiters included. Both keep the same characters and end in the same state
(`keepOutside_eq_scan`), so that what is known about single characters holds of whole lines.
-/

/-- Where the scanner stands between two characters of a line: outside of comments, with the flag
that a colon precedes; before the second slash of a pair that was passed over; before the star of
an opening; inside a block; before the slash of a closing; or behind `//`. -/
inductive ScanState where
  | outside (afterColon : Bool)
  | paired
  | opening
  | inside
  | closing
  | dropped
deriving DecidableEq, Repr

/-- Whether the next character belongs to a comment, and the state behind it. The character after it
is known as well. -/
def ScanState.step (address : Bool) (c : Char) (next : Option Char) :
    ScanState → Bool × ScanState
  | .outside afterColon =>
      if c = '/' ∧ next = some '*' then (true, .opening)
      else if c = '/' ∧ next = some '/' ∧ address = false then
        if afterColon then (false, .paired) else (true, .dropped)
      else (false, .outside (c = ':'))
  | .paired =>
      if c = '/' ∧ next = some '*' then (true, .opening) else (false, .outside (c = ':'))
  | .opening => (true, .inside)
  | .inside => if c = '*' ∧ next = some '/' then (true, .closing) else (true, .inside)
  | .closing => (true, .outside false)
  | .dropped => (true, .dropped)

/-- For each character of the rest of a line, whether it belongs to a comment. -/
def commentMarks (address : Bool) : ScanState → Text → List Bool
  | _, [] => []
  | s, c :: rest =>
      (s.step address c rest.head?).1 :: commentMarks address (s.step address c rest.head?).2 rest

/-- The state behind the rest of a line. -/
def scanEnd (address : Bool) : ScanState → Text → ScanState
  | s, [] => s
  | s, c :: rest => scanEnd address (s.step address c rest.head?).2 rest

/-- The characters that carry no mark. -/
def unmarked (marks : List Bool) (t : Text) : Text :=
  (marks.zip t).filterMap fun (marked, c) => if marked then none else some c

/-- The state at the start of a line; the flag tells that a block comment is open. -/
def ScanState.start (inBlock : Bool) : ScanState :=
  if inBlock then .inside else .outside false

/-- Whether a block comment is open. -/
def ScanState.isInside : ScanState → Bool
  | .inside => true
  | _ => false

/-- What the scanner keeps of the rest of a line, and whether a block comment is open at its end. -/
def scan (address : Bool) (s : ScanState) (t : Text) : Text × Bool :=
  (unmarked (commentMarks address s t) t, (scanEnd address s t).isInside)

/-- A character in front of what is kept. -/
def keepFront (c : Char) (later : Text × Bool) : Text × Bool :=
  (c :: later.1, later.2)

theorem scan_cons (address : Bool) (s : ScanState) (c : Char) (rest : Text) :
    scan address s (c :: rest) =
      if (s.step address c rest.head?).1 then scan address (s.step address c rest.head?).2 rest
      else keepFront c (scan address (s.step address c rest.head?).2 rest) := by
  cases h : (s.step address c rest.head?).1 <;>
    simp [scan, commentMarks, scanEnd, unmarked, keepFront, h]

/-! ### Inside a block -/

/-- A block is left behind its first closing. -/
theorem scan_inside (address : Bool) (t : Text) :
    scan address .inside t =
      match cut "*/".toList t with
      | none => ([], true)
      | some (_, rest) => scan address (.outside false) rest := by
  induction t with
  | nil => rfl
  | cons c cs ih =>
      rw [scan_cons]
      by_cases hclose : c = '*' ∧ cs.head? = some '/'
      · obtain ⟨rfl, hhead⟩ := hclose
        cases cs with
        | nil => simp at hhead
        | cons d rest =>
            obtain rfl : d = '/' := by simpa using hhead
            simp [ScanState.step, scan_cons, cut, after?]
      · have hafter : after? "*/".toList (c :: cs) = none := by
          cases cs with
          | nil => simp [after?]
          | cons d rest =>
              simp only [List.head?_cons, Option.some.injEq, not_and] at hclose
              by_cases hc : c = '*'
              · simp [after?, hc, Ne.symm (hclose hc)]
              · simp [after?, Ne.symm hc]
        simp only [ScanState.step, hclose, ↓reduceIte, cut, hafter, ih]
        cases cut "*/".toList cs <;> rfl

/-! ### Outside of comments -/

/-- What `keepOutside` keeps when the character before may be a colon. -/
def keepFrom (address afterColon : Bool) (t : Text) : Text × Bool :=
  let comment := if address then none else beforeLineComment afterColon t
  match cut "/*".toList t with
  | none => (comment.getD t, false)
  | some (before, rest) =>
      match comment with
      | some kept =>
          if kept.length < before.length then (kept, false)
          else (before ++ (keepOutside address true rest).1, (keepOutside address true rest).2)
      | none => (before ++ (keepOutside address true rest).1, (keepOutside address true rest).2)

theorem keepOutside_false (address : Bool) (t : Text) :
    keepOutside address false t = keepFrom address false t := by
  rw [keepOutside, keepFrom]
  split
  · next hcut => simp only [hcut]
  · next before rest hcut =>
    cases (if address then none else beforeLineComment false t) <;> simp only [hcut]

theorem keepOutside_true (address : Bool) (t : Text) :
    keepOutside address true t =
      match cut "*/".toList t with
      | none => ([], true)
      | some (_, rest) => keepOutside address false rest := by
  rw [keepOutside]
  split <;> next hcut => simp only [hcut]

theorem keepFrom_nil (address afterColon : Bool) :
    keepFrom address afterColon [] = ([], false) := by
  cases address <;> simp [keepFrom, cut, after?, beforeLineComment]

theorem keepFrom_opening (address afterColon : Bool) (rest : Text) :
    keepFrom address afterColon ('/' :: '*' :: rest) = keepOutside address true rest := by
  have hcut : cut "/*".toList ('/' :: '*' :: rest) = some ([], rest) := by simp [cut, after?]
  simp only [keepFrom, hcut]
  split <;> simp

theorem keepFrom_comment (rest : Text) :
    keepFrom false false ('/' :: '/' :: rest) = ([], false) := by
  have hcomment : beforeLineComment false ('/' :: '/' :: rest) = some [] := by
    simp [beforeLineComment]
  have hcut : cut "/*".toList ('/' :: '/' :: rest) =
      (cut "/*".toList ('/' :: rest)).map fun parts => ('/' :: parts.1, parts.2) := by
    simp [cut, after?]
  simp only [keepFrom, hcomment, hcut, Bool.false_eq_true, ↓reduceIte]
  cases cut "/*".toList ('/' :: rest) <;> simp

/-- A character that opens nothing is kept. -/
theorem keepFrom_plain {address afterColon : Bool} {c : Char} {rest : Text}
    (hblock : ¬ (c = '/' ∧ rest.head? = some '*'))
    (hline : ¬ (c = '/' ∧ rest.head? = some '/' ∧ address = false)) :
    keepFrom address afterColon (c :: rest) = keepFront c (keepFrom address (c = ':') rest) := by
  have hafter : after? "/*".toList (c :: rest) = none := by
    cases rest with
    | nil => simp [after?]
    | cons d ds =>
        simp only [List.head?_cons, Option.some.injEq, not_and] at hblock
        by_cases hc : c = '/'
        · simp [after?, hc, Ne.symm (hblock hc)]
        · simp [after?, Ne.symm hc]
  have hcut : cut "/*".toList (c :: rest) =
      (cut "/*".toList rest).map fun parts => (c :: parts.1, parts.2) := by
    rw [cut, hafter]
  have hcomment : (if address then none else beforeLineComment afterColon (c :: rest)) =
      (if address then none else beforeLineComment (c = ':') rest).map (c :: ·) := by
    cases address with
    | true => rfl
    | false =>
        cases rest with
        | nil => rfl
        | cons d ds =>
            have hslashes : ¬ (c = '/' ∧ d = '/') := by simpa using hline
            simp [beforeLineComment, hslashes]
  simp only [keepFrom, hcut, hcomment]
  generalize (if address then none else beforeLineComment (decide (c = ':')) rest) = comment
  cases cut "/*".toList rest with
  | none => cases comment <;> rfl
  | some parts =>
      cases comment with
      | none => rfl
      | some kept =>
          simp only [Option.map_some, List.length_cons, Nat.add_lt_add_iff_right]
          split <;> rfl

/-- Slashes after a colon are passed over, but the second of them may open a block. -/
theorem keepFrom_pair (rest : Text) :
    keepFrom false true ('/' :: '/' :: rest) =
      if rest.head? = some '*' then keepFront '/' (keepOutside false true rest.tail)
      else keepFront '/' (keepFront '/' (keepFrom false false rest)) := by
  have hcomment : beforeLineComment true ('/' :: '/' :: rest) =
      (beforeLineComment false rest).map fun kept => '/' :: '/' :: kept := by
    simp [beforeLineComment]
  by_cases hstar : rest.head? = some '*'
  · cases rest with
    | nil => simp at hstar
    | cons d ds =>
        obtain rfl : d = '*' := by simpa using hstar
        have hcut : cut "/*".toList ('/' :: '/' :: '*' :: ds) = some (['/'], ds) := by
          simp [cut, after?]
        simp only [keepFrom, hcut, hcomment, Bool.false_eq_true, ↓reduceIte, List.head?_cons,
          List.tail_cons, keepFront]
        cases beforeLineComment false ('*' :: ds) <;> simp
  · have hafter : after? "/*".toList ('/' :: rest) = none := by
      cases rest with
      | nil => simp [after?]
      | cons d ds =>
          have hd : ¬ '*' = d := by simpa [eq_comm] using hstar
          simp [after?, hd]
    have hcut : cut "/*".toList ('/' :: '/' :: rest) =
        (cut "/*".toList rest).map fun parts => ('/' :: '/' :: parts.1, parts.2) := by
      rw [cut, show after? "/*".toList ('/' :: '/' :: rest) = none by simp [after?], cut, hafter]
      cases cut "/*".toList rest <;> rfl
    simp only [keepFrom, hcut, hcomment, hstar, Bool.false_eq_true, ↓reduceIte]
    cases cut "/*".toList rest with
    | none => cases beforeLineComment false rest <;> rfl
    | some parts =>
        cases beforeLineComment false rest with
        | none => rfl
        | some kept =>
            simp only [Option.map_some, List.length_cons, Nat.add_lt_add_iff_right]
            split <;> rfl

/-! ### Outside of blocks, as the scanner reads -/

theorem scan_opening (address afterColon : Bool) (rest : Text) :
    scan address (.outside afterColon) ('/' :: '*' :: rest) = scan address .inside rest := by
  simp [scan_cons, ScanState.step]

theorem scan_dropped (t : Text) : scan false .dropped t = ([], false) := by
  induction t with
  | nil => rfl
  | cons c cs ih => simpa [scan_cons, ScanState.step] using ih

theorem scan_comment (rest : Text) :
    scan false (.outside false) ('/' :: '/' :: rest) = ([], false) := by
  simp [scan_cons, ScanState.step, scan_dropped]

theorem scan_plain {address afterColon : Bool} {c : Char} {rest : Text}
    (hblock : ¬ (c = '/' ∧ rest.head? = some '*'))
    (hline : ¬ (c = '/' ∧ rest.head? = some '/' ∧ address = false)) :
    scan address (.outside afterColon) (c :: rest) =
      keepFront c (scan address (.outside (c = ':')) rest) := by
  rw [scan_cons]
  simp only [ScanState.step, hblock, hline, ↓reduceIte, Bool.false_eq_true]

/-- Behind a colon the second of two slashes may still open a block. -/
theorem scan_pair (rest : Text) :
    scan false (.outside true) ('/' :: '/' :: rest) =
      if rest.head? = some '*' then keepFront '/' (scan false .inside rest.tail)
      else keepFront '/' (keepFront '/' (scan false (.outside false) rest)) := by
  by_cases hstar : rest.head? = some '*'
  · cases rest with
    | nil => simp at hstar
    | cons c cs =>
        obtain rfl : c = '*' := by simpa using hstar
        simp [scan_cons, ScanState.step]
  · simp [scan_cons, ScanState.step, hstar]

/-! ### Agreement -/

/-- Cutting at the ends of comments keeps what the scanner keeps. The induction is on the length: a
block or a pair of slashes is passed at once. -/
theorem scan_eq_keep (address : Bool) (t : Text) :
    (∀ afterColon, scan address (.outside afterColon) t = keepFrom address afterColon t) ∧
      scan address .inside t = keepOutside address true t := by
  induction hn : t.length using Nat.strong_induction_on generalizing t with
  | _ n ih =>
    subst hn
    have outside : ∀ rest : Text, rest.length < t.length → ∀ afterColon,
        scan address (.outside afterColon) rest = keepFrom address afterColon rest :=
      fun rest h => (ih _ h rest rfl).1
    have inside : ∀ rest : Text, rest.length < t.length →
        scan address .inside rest = keepOutside address true rest :=
      fun rest h => (ih _ h rest rfl).2
    constructor
    · intro afterColon
      rcases t with _ | ⟨c, rest⟩
      · exact (keepFrom_nil address afterColon).symm
      by_cases hblock : c = '/' ∧ rest.head? = some '*'
      · obtain ⟨rfl, hhead⟩ := hblock
        obtain ⟨ds, rfl⟩ := List.head?_eq_some_iff.1 hhead
        rw [scan_opening, keepFrom_opening]
        apply inside
        rw [List.length_cons, List.length_cons]
        omega
      by_cases hline : c = '/' ∧ rest.head? = some '/' ∧ address = false
      · obtain ⟨rfl, hhead, rfl⟩ := hline
        obtain ⟨ds, rfl⟩ := List.head?_eq_some_iff.1 hhead
        cases afterColon with
        | false => rw [scan_comment, keepFrom_comment]
        | true =>
            have htail : ds.tail.length < ('/' :: '/' :: ds).length := by
              rw [List.length_tail, List.length_cons, List.length_cons]
              omega
            have hrest : ds.length < ('/' :: '/' :: ds).length := by
              rw [List.length_cons, List.length_cons]
              omega
            rw [scan_pair, keepFrom_pair, inside _ htail, outside _ hrest]
      · rw [scan_plain hblock hline, keepFrom_plain hblock hline]
        rw [outside rest (Nat.lt_succ_self _)]
    · rw [scan_inside, keepOutside_true]
      cases hcut : cut "*/".toList t with
      | none => rfl
      | some parts =>
          obtain ⟨before, rest⟩ := parts
          simp only
          rw [keepOutside_false, outside rest (length_lt_of_cut (by decide) hcut)]

/-- Leaving comments out keeps the characters that the scanner does not mark. -/
theorem keepOutside_eq_scan (address inBlock : Bool) (t : Text) :
    keepOutside address inBlock t = scan address (.start inBlock) t := by
  cases inBlock with
  | false => rw [keepOutside_false]; exact ((scan_eq_keep address t).1 false).symm
  | true => exact (scan_eq_keep address t).2.symm

end WardleyMaps
