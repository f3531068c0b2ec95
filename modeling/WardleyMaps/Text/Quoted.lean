/-
Module: WardleyMaps.Text.Quoted
Purpose: Text in quotes, as messages show names and tokens.
Main exports: Text.quoted, Text.quotedList, Text.ofNat, Text.ofInt
-/
import WardleyMaps.Text.Printable

namespace WardleyMaps.Text

/-!
A quoted text stands between single quotes, or between double quotes when it holds a single quote
and no double quote. The quote that was chosen and the backslash are escaped by a backslash, and a
character that is not printable is written by its number.
-/

/-- A number in decimal digits. -/
def ofNat (n : Nat) : Text :=
  Nat.toDigits 10 n

/-- An integer in decimal digits. -/
def ofInt (i : Int) : Text :=
  if i < 0 then '-' :: ofNat i.natAbs else ofNat i.natAbs

/-- A number in lower-case hexadecimal digits, filled with zeros to a least width. -/
def hexadecimal (width n : Nat) : Text :=
  let digits := Nat.toDigits 16 n
  List.replicate (width - digits.length) '0' ++ digits

/-- One character between the given quotes. -/
def escaped (quote c : Char) : Text :=
  if c = quote || c = '\\' then ['\\', c]
  else if c = '\t' then ['\\', 't']
  else if c = '\n' then ['\\', 'n']
  else if c = '\r' then ['\\', 'r']
  else if isPrintable c then [c]
  else if c.toNat < 0x100 then '\\' :: 'x' :: hexadecimal 2 c.toNat
  else if c.toNat < 0x10000 then '\\' :: 'u' :: hexadecimal 4 c.toNat
  else '\\' :: 'U' :: hexadecimal 8 c.toNat

/-- The quotes for a text: single ones, unless only these occur in it. -/
def quoteFor (t : Text) : Char :=
  if t.contains '\'' && !t.contains '"' then '"' else '\''

/-- A text in quotes. -/
def quoted (t : Text) : Text :=
  let quote := quoteFor t
  quote :: t.flatMap (escaped quote) ++ [quote]

/-- Quoted texts in square brackets. -/
def quotedList (ts : List Text) : Text :=
  '[' :: List.intercalate [',', ' '] (ts.map quoted) ++ [']']

end WardleyMaps.Text
