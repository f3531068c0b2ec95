/-
Module: WardleyMaps.Toml.Read
Purpose: Reading documents of the TOML format.
Main exports: readToml, TomlError
-/
import WardleyMaps.Toml.Scalar

namespace WardleyMaps

open Text

/-!
A document is a list of statements, each ended by the end of its line: headers of tables, headers of
items of arrays of tables, and keys with values. What was written is protected. A header must not
come twice, a key must not get a second value, and nothing may be added to an array or table that
was written as a value. Values stand in one another only so deep.
-/

/-- Why a text is no document: it is not well formed, or its values are nested too deep. -/
inductive TomlError where
  | malformed
  | tooDeep
deriving DecidableEq, Repr

/-- What was read, if it was well formed. -/
def wellFormed {α : Type} : Option α → Except TomlError α
  | some a => .ok a
  | none => .error .malformed

/-! ### Values -/

/-- Skips blanks, line ends and comments. A control character in a comment is an error. -/
def skipBetweenItems (inComment : Bool) : Text → Option Text
  | [] => some []
  | c :: rest =>
      if inComment then
        if c = '\n' then skipBetweenItems false rest
        else if isTomlControl c then none
        else skipBetweenItems true rest
      else if isTomlBlank c || c = '\n' then skipBetweenItems false rest
      else if c = '#' then skipBetweenItems true rest
      else some (c :: rest)

/-- Values that hold other values. -/
def TomlValue.isNested : TomlValue → Bool
  | .array _ => true
  | .table _ => true
  | _ => false

/-- Whether a path leads to one of the given places or below it. -/
def reaches (path : List Text) (places : List (List Text)) : Bool :=
  places.any fun place => place.isPrefixOf path

/-- Expects an equals sign; what follows it, without blanks in front. -/
def afterEquals? : Text → Option Text
  | '=' :: rest => some (skipTomlBlanks rest)
  | _ => none

/-- How deep values may stand in one another: an array takes two steps, a table three. -/
def nestingRoom : Nat := 985

mutual
/-- A value, given the room that is left for nested values. The fuel bounds the depth of the nesting
and the number of items. -/
def readTomlValue : Nat → Nat → Text → Except TomlError (TomlValue × Text)
  | 0, _, _ => .error .malformed
  | fuel + 1, room, '[' :: rest =>
      if room < 2 then .error .tooDeep
      else do
        let (items, rest) ← readItems fuel (room - 2) (← wellFormed (skipBetweenItems false rest))
        .ok (.array items, rest)
  | fuel + 1, room, '\x7b' :: rest =>
      if room < 3 then .error .tooDeep
      else
        match skipTomlBlanks rest with
        | '\x7d' :: rest => .ok (.table [], rest)
        | rest => do
            let (entries, rest) ← readMembers fuel (room - 3) [] [] rest
            .ok (.table entries, rest)
  | _ + 1, _, t => wellFormed (readTomlScalar t)
/-- The items of an array up to its closing bracket. -/
def readItems : Nat → Nat → Text → Except TomlError (List TomlValue × Text)
  | 0, _, _ => .error .malformed
  | _ + 1, _, ']' :: rest => .ok ([], rest)
  | fuel + 1, room, t => do
      let (item, rest) ← readTomlValue fuel room t
      match ← wellFormed (skipBetweenItems false rest) with
      | ']' :: rest => .ok ([item], rest)
      | ',' :: rest =>
          let (items, rest) ← readItems fuel room (← wellFormed (skipBetweenItems false rest))
          .ok (item :: items, rest)
      | _ => .error .malformed
/-- The members of a table on one line up to its closing brace, added to those before. Nothing may
be added to the closed places: the arrays and tables among the members before. -/
def readMembers : Nat → Nat → TomlTable → List (List Text) → Text →
    Except TomlError (TomlTable × Text)
  | 0, _, _, _, _ => .error .malformed
  | fuel + 1, room, entries, closed, t => do
      let (path, rest) ← wellFormed (readTomlKey t)
      let (value, rest) ← readTomlValue fuel room (← wellFormed (afterEquals? rest))
      if reaches path closed then .error .malformed
      else
        let entries ← wellFormed (entries.addAt? false path value)
        match skipTomlBlanks rest with
        | '\x7d' :: rest => .ok (entries, rest)
        | ',' :: rest =>
            let closed := if value.isNested then path :: closed else closed
            readMembers fuel room entries closed (skipTomlBlanks rest)
        | _ => .error .malformed
end

/-! ### Statements -/

/-- A document as far as it was read: its entries, the table that the last header opened, the tables
that must get no further header, the values that must not be added to, and the tables that get no
further header once the next one has come. -/
structure TomlDraft where
  entries : TomlTable := []
  header : List Text := []
  opened : List (List Text) := []
  closed : List (List Text) := []
  implied : List (List Text) := []

namespace TomlDraft

/-- Before a header: the tables that keys with points implied are open from here on. -/
def settle (d : TomlDraft) : TomlDraft :=
  { d with opened := d.implied ++ d.opened, implied := [] }

/-- A header opens a table for the first time. -/
def openTable (d : TomlDraft) (path : List Text) : Option TomlDraft :=
  if d.opened.contains path || reaches path d.closed then none
  else
    (d.entries.changeAt? true some path).map fun entries =>
      { d with entries, header := path, opened := path :: d.opened }

/-- A header begins a further item of an array of tables; below it all begins anew. -/
def openItem (d : TomlDraft) (path : List Text) : Option TomlDraft :=
  if reaches path d.closed then none
  else
    let outside (place : List Text) : Bool := !path.isPrefixOf place
    (d.entries.appendAt? path).map fun entries =>
      { d with
        entries
        header := path
        opened := path :: d.opened.filter outside
        closed := d.closed.filter outside }

/-- A key gets its value below the last header. A key with points must not lead into a table that
was opened by a header. -/
def addEntry (d : TomlDraft) (path : List Text) (value : TomlValue) : Option TomlDraft :=
  let through := (List.range' 1 (path.length - 1)).map fun n => d.header ++ path.take n
  if through.any d.opened.contains then none
  else if reaches (d.header ++ path.dropLast) d.closed then none
  else
    (d.entries.addAt? true (d.header ++ path) value).map fun entries =>
      { d with
        entries
        implied := through ++ d.implied
        closed := if value.isNested then (d.header ++ path) :: d.closed else d.closed }

/-- One statement. -/
def readStatement (d : TomlDraft) : Text → Except TomlError (TomlDraft × Text)
  | '#' :: rest => .ok (d, '#' :: rest)
  | '[' :: '[' :: rest => do
      let (path, rest) ← wellFormed (readTomlKey (skipTomlBlanks rest))
      let d ← wellFormed (d.settle.openItem path)
      let rest ← wellFormed (after? [']', ']'] rest)
      .ok (d, rest)
  | '[' :: rest => do
      let (path, rest) ← wellFormed (readTomlKey (skipTomlBlanks rest))
      let d ← wellFormed (d.settle.openTable path)
      let rest ← wellFormed (after? [']'] rest)
      .ok (d, rest)
  | t => do
      let (path, rest) ← wellFormed (readTomlKey t)
      let (value, rest) ←
        readTomlValue (2 * t.length + 2) nestingRoom (← wellFormed (afterEquals? rest))
      let d ← wellFormed (d.addEntry path value)
      .ok (d, rest)

/-- What follows a comment on its line. -/
def skipTomlComment : Text → Option Text
  | '#' :: rest =>
      if (rest.takeWhile (· ≠ '\n')).any isTomlControl then none
      else some (rest.dropWhile (· ≠ '\n'))
  | t => some t

/-- Statements up to the end, at most as many lines as the fuel allows. -/
def readStatements : Nat → TomlDraft → Text → Except TomlError TomlDraft
  | 0, _, _ => .error .malformed
  | fuel + 1, d, t =>
      match skipTomlBlanks t with
      | [] => .ok d
      | '\n' :: rest => readStatements fuel d rest
      | t => do
          let (d, rest) ← d.readStatement t
          match ← wellFormed (skipTomlComment (skipTomlBlanks rest)) with
          | [] => .ok d
          | '\n' :: rest => readStatements fuel d rest
          | _ => .error .malformed

end TomlDraft

/-- A text with carriage returns before line feeds left out. -/
def joinLineEnds : Text → Text
  | '\r' :: '\n' :: rest => '\n' :: joinLineEnds rest
  | c :: rest => c :: joinLineEnds rest
  | [] => []

/-- The entries of a document. -/
def readToml (t : Text) : Except TomlError TomlTable :=
  let t := joinLineEnds t
  (TomlDraft.readStatements (t.length + 1) {} t).map (·.entries)

end WardleyMaps
