/-
Module: WardleyMaps.Statement.Link
Purpose: Links between names, which have an arrow instead of a keyword.
Main exports: isLinkCandidate, splitContext, readLink
-/
import WardleyMaps.Statement.Field

namespace WardleyMaps

open Text

/-!
A line that begins with no keyword and holds an arrow is a link. An arrow with a value in single
quotes counts before the plain ones, and these are looked for in the fixed order `+>`, `+<>`, `+<`,
`->`; the first occurrence of the arrow divides the line. What follows a semicolon behind the arrow
is the context of the link.
-/

/-- The first tokens of lines that are never links. -/
def reservedWords : List Text :=
  ["evolution", "anchor", "evolve", "component", "style", "build", "buy", "outsource", "title",
    "annotation", "annotations", "pipeline", "note", "pioneers", "settlers", "townplanners",
    "submap", "url", "accelerator", "deaccelerator", "size", "market",
    "ecosystem"].map String.toList

/-- Whether a line may be a link: not blank, no brace in front, and no reserved word up to the first
blank or bracket. -/
def isLinkCandidate (line : Text) : Bool :=
  let t := trim line
  match t with
  | [] => false
  | c :: _ =>
      c ≠ '{' && c ≠ '}' && !reservedWords.contains (t.takeWhile fun d => !isBlank d && d ≠ '[')

/-- The target of a link and its context: the trimmed text after a semicolon, if there is any. -/
def splitContext (t : Text) : Text × Option Text :=
  match cutAt ';' t with
  | none => (trim t, none)
  | some (target, context) =>
      (trim target, if (trim context).isEmpty then none else some (trim context))

/-- The end of an arrow with a value, and what follows it up to the end of the line. -/
def arrowEnd? (carried : Text) : Text → Option (Arrow × Text)
  | '<' :: '>' :: rest => if rest.contains '\n' then none else some (.valueBoth carried, rest)
  | '<' :: rest => if rest.contains '\n' then none else some (.valueBack carried, rest)
  | '>' :: rest => if rest.contains '\n' then none else some (.value carried, rest)
  | _ => none

/-- The first arrow with a value, and what stands before and after it. No newline may stand before
or after the arrow. -/
def cutValueArrow : Text → Option (Text × Arrow × Text)
  | [] => none
  | c :: rest =>
      let here := (after? ['+', '\''] (c :: rest)).bind fun opened =>
        (cutAt '\'' opened).bind fun (carried, closed) => arrowEnd? carried closed
      match here with
      | some (arrow, after) => some ([], arrow, after)
      | none =>
          if c = '\n' then none
          else (cutValueArrow rest).map fun (before, found) => (c :: before, found)

/-- The plain arrows in the order in which they are looked for. -/
def plainArrows : List (Text × Arrow) :=
  [("+>".toList, .flow), ("+<>".toList, .flowBoth), ("+<".toList, .flowBack),
    ("->".toList, .dependency)]

/-- The arrow of a line, and what stands before and after it. -/
def cutArrow (t : Text) : Option (Text × Arrow × Text) :=
  cutValueArrow t <|> plainArrows.findSome? fun (mark, arrow) =>
    (cut mark t).map fun (before, after) => (before, arrow, after)

/-- The link on a line, none if the line holds no arrow. -/
def readLink (line : Text) : Except Cause (Option Link) :=
  match cutArrow (trim line) with
  | none => .ok none
  | some (before, arrow, after) =>
      let (target, context) := splitContext after
      let start := trim before
      if start.isEmpty || target.isEmpty then .error .endpointsNeeded
      else .ok (some { start, target, arrow, context })

end WardleyMaps
