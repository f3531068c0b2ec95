/-
Module: WardleyMaps.Comment
Purpose: Leaving comments out of map source without moving any line.
Main exports: stripComments, stripLines, keepOutside
-/
import WardleyMaps.Text.Cut

namespace WardleyMaps

/-!
A comment is `// …` to the end of its line or `/* … */` over any number of lines, whichever opens
first. Addresses hold `//` too: one directly after a colon opens no comment, and on a line that
begins with `url` none does. Every line of the source stays a line, so that later readers report the
line numbers of the source; what is left of a line ends with a character that is not blank.
-/

open Text

/-- What stands before the first `//` that opens a comment, none if the text holds no such. The flag
tells that the character before the text is a colon; slashes after a colon are passed over in
pairs. -/
def beforeLineComment : Bool → Text → Option Text
  | _, [] => none
  | _, [_] => none
  | afterColon, c :: d :: rest =>
      if c = '/' && d = '/' then
        if afterColon then (beforeLineComment false rest).map fun kept => c :: d :: kept
        else some []
      else (beforeLineComment (c = ':') (d :: rest)).map (c :: ·)

/-- What is kept of the rest of a line, and whether a block comment is open at its end. The first
flag tells that `//` opens no comment on this line, the second that a block comment is open at the
start of the rest. -/
def keepOutside (address : Bool) : Bool → Text → Text × Bool
  | true, t =>
      match h : cut "*/".toList t with
      | none => ([], true)
      | some (_, rest) =>
          have : rest.length < t.length := length_lt_of_cut (by decide) h
          keepOutside address false rest
  | false, t =>
      let comment := if address then none else beforeLineComment false t
      match h : cut "/*".toList t with
      | none => (comment.getD t, false)
      | some (before, rest) =>
          have : rest.length < t.length := length_lt_of_cut (by decide) h
          match comment with
          | some kept =>
              if kept.length < before.length then (kept, false)
              else
                let later := keepOutside address true rest
                (before ++ later.1, later.2)
          | none =>
              let later := keepOutside address true rest
              (before ++ later.1, later.2)
termination_by _ t => t.length

/-- Lines that begin with `url` hold an address, in which `//` is no comment. -/
def isAddressLine (line : Text) : Bool :=
  startsWith "url".toList (trim line)

/-- The lines without their comments. The flag tells that a block comment is open before them. -/
def stripLines : Bool → List Text → List Text
  | _, [] => []
  | inBlock, line :: rest =>
      let (kept, stillOpen) := keepOutside (isAddressLine line) inBlock line
      trimEnd kept :: stripLines stillOpen rest

/-- Map source without its comments, line by line. -/
def stripComments (source : Text) : Text :=
  unlines (stripLines false (lines source))

theorem length_stripLines (inBlock : Bool) (ls : List Text) :
    (stripLines inBlock ls).length = ls.length := by
  induction ls generalizing inBlock with
  | nil => rfl
  | cons line rest ih => simp [stripLines, ih]

end WardleyMaps
