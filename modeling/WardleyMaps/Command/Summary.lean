/-
Module: WardleyMaps.Command.Summary
Purpose: A document in a few lines of text.
Main exports: Document.summary
-/
import WardleyMaps.Document.Basic
import WardleyMaps.Number.Shortest
import WardleyMaps.Text.Cut
import WardleyMaps.Text.Quoted

namespace WardleyMaps

open Text

/-!
The summary tells the title, how many entities of each kind there are, where the elements lie, and
what is wrong with the source. Kinds without entities are left out.
-/

/-- How many entities of each kind a document has. -/
def Document.counts (d : Document) : List (String × Nat) :=
  [("elements", d.elements.length), ("anchors", d.anchors.length), ("submaps", d.submaps.length),
    ("links", d.links.length), ("evolved", d.evolved.length), ("pipelines", d.pipelines.length),
    ("notes", d.notes.length), ("annotations", d.annotations.length)]

/-- The line of an element. -/
def Component.summaryLine (c : Component) : Text :=
  [' ', ' '] ++ c.name ++ [' ', '['] ++ c.position.visibility.text ++ [',', ' ']
    ++ c.position.maturity.text ++ [']']

/-- The line of a problem. -/
def Problem.summaryLine (p : Problem) : Text :=
  (s!"line {p.line}: {p.cause.message}").toList

/-- The summary of a document. -/
def Document.summary (d : Document) : Text :=
  unlines <|
    ("title: ".toList ++ d.title)
      :: (d.counts.filter (0 < ·.2)).map (fun (kind, count) => (s!"{kind}: {count}").toList)
      ++ d.elements.map Component.summaryLine
      ++ d.problems.map Problem.summaryLine

end WardleyMaps
