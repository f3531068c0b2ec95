/-
Module: WardleyMaps.Statement.NumberedNote
Purpose: The statement `annotation` with its number, places and text.
Main exports: AnnotationDraft, readNumberedNote, AnnotationDraft.settle, NumberTooLong
-/
import WardleyMaps.Number.Literal
import WardleyMaps.Statement.Field

namespace WardleyMaps

open Text

/-!
An annotation stands at one place, `annotation 1 [v, m] text`, or at several,
`annotation 1 [[v, m], [v, m]] text`. The outer bracket ends where as many brackets were closed as
opened. A number of more than 4300 digits is not converted: the whole reading stops at it.
-/

/-- An annotation whose number is still a row of digits. -/
structure AnnotationDraft where
  line : Nat
  digits : List Nat
  places : List Position
  text : Text
deriving DecidableEq

/-- The number of an annotation has more digits than may be converted. -/
structure NumberTooLong where
  digits : Nat
deriving DecidableEq, Repr

/-- The wording of the refusal. -/
def NumberTooLong.message (e : NumberTooLong) : String :=
  s!"Exceeds the limit (4300 digits) for integer string conversion: value has {e.digits} digits; "
    ++ "use sys.set_int_max_str_digits() to increase the limit"

/-- What stands before the bracket that closes the one opened before the text, and what follows it.
The count tells how many more brackets are open. -/
def closingBracket : Nat → Text → Option (Text × Text)
  | _, [] => none
  | inner, c :: rest =>
      if c = ']' then
        match inner with
        | 0 => some ([], rest)
        | inner + 1 => (closingBracket inner rest).map fun (body, later) => (c :: body, later)
      else
        (closingBracket (if c = '[' then inner + 1 else inner) rest).map
          fun (body, later) => (c :: body, later)

/-- The contents of the innermost brackets, in order. The first argument is what was read since the
last opening bracket, backwards, none outside of brackets. -/
def innermostGroups : Option Text → Text → List Text
  | _, [] => []
  | group, c :: rest =>
      if c = '[' then innermostGroups (some []) rest
      else if c = ']' then
        match group with
        | some read => read.reverse :: innermostGroups none rest
        | none => innermostGroups none rest
      else innermostGroups (group.map (c :: ·)) rest

/-- The places of an annotation and the text after them. -/
def readPlaces (t : Text) : Except Cause (List Position × Text) := do
  match cutAt '[' t with
  | none => .error (.missing "annotation" "[visibility, maturity]")
  | some (_, opened) =>
      match closingBracket 0 opened with
      | none => .error (.unclosedBracket "annotation")
      | some (inside, after) =>
          let body := trim inside
          let groups := if startsWith ['['] body then innermostGroups none body else [body]
          if groups.isEmpty then .error (.without "annotation" "positions")
          else
            let places ← groups.mapM (readPosition "annotation position")
            .ok (places, trim after)

/-- The statement `annotation`, up to the conversion of its number. -/
def readNumberedNote (number : Nat) (line : Text) : Except Cause AnnotationDraft := do
  match spanDigits (afterKeyword "annotation".toList line) with
  | ([], _) => .error (.missing "annotation" "its number")
  | (digits, rest) =>
      let (places, text) ← readPlaces (trimStart rest)
      .ok { line := number, digits, places, text }

/-- The annotation with its number converted. -/
def AnnotationDraft.settle (d : AnnotationDraft) : Except NumberTooLong NumberedNote :=
  if maxIntegerDigits < d.digits.length then .error { digits := d.digits.length }
  else
    .ok { line := d.line, number := digitsValue d.digits, places := d.places, text := d.text }

end WardleyMaps
