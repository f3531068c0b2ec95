/-
Module: WardleyMaps.Json.Basic
Purpose: Values of the JSON format and their indented text.
Main exports: JsonValue, JsonValue.pretty
-/
import WardleyMaps.Number.Shortest

namespace WardleyMaps

/-!
Objects keep the order of their members. The indented text puts each member and each item on a line
of its own, two blanks further in than what holds it. Control characters, quotes and backslashes are
escaped and all other characters are written as they are. Numbers that are infinite or undefined
have the names that the format's common extension gives them.
-/

/-- A value of the JSON format; integers have no bound. -/
inductive JsonValue where
  | null
  | boolean (b : Bool)
  | integer (i : Int)
  | number (x : Double)
  | text (t : Text)
  | array (items : List JsonValue)
  | object (members : List (String × JsonValue))

namespace JsonValue

/-- A string as a value. -/
def string (s : String) : JsonValue :=
  .text s.toList

/-- A value that may be missing. -/
def orNull (o : Option JsonValue) : JsonValue :=
  o.getD .null

/-- A number as the format writes it. -/
def numberText : Double → Text
  | .nan => "NaN".toList
  | .infinite negative => if negative then "-Infinity".toList else "Infinity".toList
  | x => x.text

/-- One character of a string. -/
def escapedChar (c : Char) : Text :=
  if c = '"' then "\\\"".toList
  else if c = '\\' then "\\\\".toList
  else if c = '\n' then "\\n".toList
  else if c = '\r' then "\\r".toList
  else if c = '\t' then "\\t".toList
  else if c.toNat = 8 then "\\b".toList
  else if c.toNat = 12 then "\\f".toList
  else if c.toNat < 32 then '\\' :: 'u' :: Text.hexadecimal 4 c.toNat
  else [c]

/-- A string between double quotes. -/
def stringText (t : Text) : Text :=
  '"' :: t.flatMap escapedChar ++ ['"']

/-- A new line with the given indentation. -/
def newLine (depth : Nat) : Text :=
  '\n' :: List.replicate (2 * depth) ' '

mutual
/-- The indented text of a value that stands at a depth. -/
def prettyAt (depth : Nat) : JsonValue → Text
  | .null => "null".toList
  | .boolean b => if b then "true".toList else "false".toList
  | .integer i => Text.ofInt i
  | .number x => numberText x
  | .text t => stringText t
  | .array [] => "[]".toList
  | .array (item :: items) =>
      '[' :: newLine (depth + 1) ++ prettyAt (depth + 1) item ++ prettyItems (depth + 1) items
        ++ newLine depth ++ [']']
  | .object [] => ['\x7b', '\x7d']
  | .object ((key, value) :: members) =>
      '\x7b' :: newLine (depth + 1) ++ stringText key.toList ++ ": ".toList
        ++ prettyAt (depth + 1) value ++ prettyMembers (depth + 1) members
        ++ newLine depth ++ ['\x7d']
/-- Further items of an array. -/
def prettyItems (depth : Nat) : List JsonValue → Text
  | [] => []
  | item :: items => ',' :: newLine depth ++ prettyAt depth item ++ prettyItems depth items
/-- Further members of an object. -/
def prettyMembers (depth : Nat) : List (String × JsonValue) → Text
  | [] => []
  | (key, value) :: members =>
      ',' :: newLine depth ++ stringText key.toList ++ ": ".toList ++ prettyAt depth value
        ++ prettyMembers depth members
end

/-- The indented text of a value. -/
def pretty (v : JsonValue) : Text :=
  prettyAt 0 v

end JsonValue

end WardleyMaps
