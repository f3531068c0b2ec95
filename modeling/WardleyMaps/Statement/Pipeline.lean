/-
Module: WardleyMaps.Statement.Pipeline
Purpose: The header of a pipeline and the components in its body.
Main exports: readPipelineHeader, readPipelineChild
-/
import WardleyMaps.Statement.Option

namespace WardleyMaps

open Text

/-!
A header names the pipeline and may give its span. A header without a span is not shown until
components in its body give it one.
-/

/-- The text without an opening brace at its end and the blanks before the brace. -/
def dropBrace (t : Text) : Text :=
  if t.getLast? = some '{' then trimEnd t.dropLast else t

/-- The statement `pipeline` with a name and perhaps a span. -/
def readPipelineHeader (number : Nat) (line : Text) : Except Cause Pipeline := do
  let rest := dropBrace (afterKeyword "pipeline".toList line)
  match ← splitBracket rest with
  | none =>
      let name ← requireText "pipeline" "name" rest
      .ok { line := number, name }
  | some b =>
      let name ← requireText "pipeline" "name" (trim b.before)
      let (first, last) ← readPair "pipeline maturity range" b.inside
      .ok { line := number, name, shown := true, first, last }

/-- The statement `component` inside a body, which gives a maturity only. -/
def readPipelineChild (number : Nat) (line : Text) : Except Cause PipelineChild := do
  let b ← requireBracket "pipeline component" "[maturity]" (afterKeyword "component".toList line)
  let name ← requireText "pipeline component" "name" (trim b.before)
  match ← readCoordinates 1 "pipeline component maturity" b.inside with
  | [maturity] =>
      let label ← readLabel 0 b.after
      .ok { line := number, name, maturity, label }
  | _ => .error (.wrongCount 1 "pipeline component maturity" (trim b.inside))

end WardleyMaps
