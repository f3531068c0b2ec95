/-
Module: WardleyMaps.Text.Blank
Purpose: Text as a list of characters, its blank characters, and cutting blanks off its ends.
Main exports: Text, Text.isBlank, Text.trim, Text.trimEnd, Text.words
-/

namespace WardleyMaps

/-!
Map source is read one character at a time, so a text is a list of characters. Blanks are all the
characters that Unicode counts as white space, together with the four separators U+001C to U+001F.
The zero-width space U+200B and the byte-order mark U+FEFF are not blanks.
-/

/-- Map source, and every piece cut out of it. A lone surrogate is no character, so texts that hold
one are left out. -/
abbrev Text := List Char

namespace Text

/-- Whether a character's number lies in one of the given closed ranges. -/
def inRanges (ranges : List (Nat × Nat)) (c : Char) : Bool :=
  ranges.any fun r => r.1 ≤ c.toNat && c.toNat ≤ r.2

/-- The blank characters, as closed ranges of character numbers. -/
def blankRanges : List (Nat × Nat) :=
  [(0x09, 0x0D), (0x1C, 0x20), (0x85, 0x85), (0xA0, 0xA0), (0x1680, 0x1680), (0x2000, 0x200A),
    (0x2028, 0x2029), (0x202F, 0x202F), (0x205F, 0x205F), (0x3000, 0x3000)]

/-- Blank characters separate tokens and are cut off at the ends of names. -/
def isBlank (c : Char) : Bool :=
  inRanges blankRanges c

/-- The text from its first character on that is not blank. -/
def trimStart (t : Text) : Text :=
  t.dropWhile isBlank

/-- The text up to its last character that is not blank. -/
def trimEnd (t : Text) : Text :=
  (t.reverse.dropWhile isBlank).reverse

/-- The text without the blanks at both ends. -/
def trim (t : Text) : Text :=
  trimEnd (trimStart t)

/-- The words of a text, in order: its maximal runs of characters that are not blank. -/
def words (t : Text) : List Text :=
  (t.splitOnP isBlank).filter (!·.isEmpty)

theorem isBlank_newline : isBlank '\n' = true := by decide

theorem trimStart_eq_self_of_head {c : Char} {t : Text} (h : isBlank c = false) :
    trimStart (c :: t) = c :: t := by
  simp [trimStart, h]

theorem trim_nil : trim [] = [] := rfl

end Text

end WardleyMaps
