/-
Module: WardleyMaps.Body
Purpose: The lines that lie inside bodies of braces.
Main exports: inBody, maskBodies, bodyLines, PipelineBody, pipelineBody
-/
import WardleyMaps.Text.Cut

namespace WardleyMaps

/-!
A body of braces opens on a line that begins with an opening brace, or on the line after a header
that ends with one; it goes on to the next line with a closing brace, and both end lines belong to
it. A body that is never closed hides nothing. Two readers rely on this: components inside bodies
are not drawn on their own (`inBody`), and a pipeline header owns the body that opens at it
(`pipelineBody`).
-/

open Text

/-- Lines that close the body they stand in. -/
def closesBody (line : Text) : Bool :=
  line.contains '}'

/-- Lines that begin with an opening brace. -/
def opensBody (line : Text) : Bool :=
  startsWith ['{'] (trim line)

/-- Header lines: their body opens at their end. -/
def endsWithBrace (line : Text) : Bool :=
  (trim line).getLast? = some '{'

/-- For each line, whether it lies inside a closed body. The flag tells that a body is open before
the lines; a line in an open body lies in a closed one if that line or a later one closes it. -/
def inBodyFrom : Bool → List Text → List Bool
  | _, [] => []
  | true, line :: rest =>
      if closesBody line then true :: inBodyFrom false rest
      else rest.any closesBody :: inBodyFrom true rest
  | false, line :: rest =>
      if opensBody line then
        if closesBody line then true :: inBodyFrom false rest
        else rest.any closesBody :: inBodyFrom true rest
      else false :: inBodyFrom (endsWithBrace line) rest

/-- For each line of a document, whether it lies inside a closed body. -/
def inBody (ls : List Text) : List Bool :=
  inBodyFrom false ls

/-- The lines with those inside bodies made empty. -/
def maskBodies (ls : List Text) : List Text :=
  List.zipWith (fun hidden line => if hidden then [] else line) (inBody ls) ls

/-- The positions of the lines inside bodies, counted from zero. -/
def bodyLines (ls : List Text) : List Nat :=
  ((inBody ls).zipIdx.filter Prod.fst).map Prod.snd

/-- The body of a header: the lines after it up to the brace line, and those between the braces. -/
inductive PipelineBody where
  | missing
  | unclosed
  | closed (skipped : Nat) (inner : List Text)
deriving DecidableEq, Repr

/-- The lines before the one that closes a body, after as many lines as were passed over already. -/
def untilClosed (skipped : Nat) (ls : List Text) : PipelineBody :=
  if ls.any closesBody then .closed skipped (ls.takeWhile (!closesBody ·)) else .unclosed

/-- The body that opens on the first of the lines that is not blank. -/
def bodyBelow (skipped : Nat) : List Text → PipelineBody
  | [] => .missing
  | line :: rest =>
      if (trim line).isEmpty then bodyBelow (skipped + 1) rest
      else if opensBody line then
        if closesBody line then .closed (skipped + 1) [] else untilClosed (skipped + 1) rest
      else .missing

/-- The body of a header line, given the lines after it: it opens at the end of the header, or on
the next line that is not blank. -/
def pipelineBody (header : Text) (below : List Text) : PipelineBody :=
  if endsWithBrace header then untilClosed 0 below else bodyBelow 0 below

theorem length_inBodyFrom (isOpen : Bool) (ls : List Text) :
    (inBodyFrom isOpen ls).length = ls.length := by
  induction ls generalizing isOpen with
  | nil => cases isOpen <;> rfl
  | cons line rest ih => cases isOpen <;> simp only [inBodyFrom] <;> (repeat' split) <;> simp [ih]

end WardleyMaps
