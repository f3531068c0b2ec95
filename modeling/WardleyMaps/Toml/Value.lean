/-
Module: WardleyMaps.Toml.Value
Purpose: Values of the TOML format, their plain text and their use as other types.
Main exports: TomlValue, TomlDate, TomlTime, TomlValue.shown, TomlValue.isTrue, ShowFault
-/
import WardleyMaps.Number.Literal
import WardleyMaps.Number.Shortest

namespace WardleyMaps

/-!
A value is shown as text when a setting asks for text but the file gives something else: booleans
begin with a capital, texts inside of arrays and tables are quoted, and dates and times inside of
these are written as constructions from their parts. Arrays and tables are shown only if they stand
in one another no deeper than there is room for.
-/

/-- A day. -/
structure TomlDate where
  year : Nat
  month : Nat
  day : Nat
deriving DecidableEq, Repr

/-- A time of day, down to microseconds. -/
structure TomlTime where
  hour : Nat
  minute : Nat
  second : Nat
  micros : Nat
deriving DecidableEq, Repr

/-- A value of the format. The offset of a point in time is in minutes from universal time, missing
for local time. Tables keep the order of their entries. -/
inductive TomlValue where
  | text (t : Text)
  | integer (i : Int)
  | float (x : Double)
  | boolean (b : Bool)
  | date (d : TomlDate)
  | time (t : TomlTime)
  | dateTime (d : TomlDate) (t : TomlTime) (offset : Option Int)
  | array (items : List TomlValue)
  | table (entries : List (Text × TomlValue))

/-- The entries of a table. -/
abbrev TomlTable := List (Text × TomlValue)

/-- The value of a key. -/
def TomlTable.get? (t : TomlTable) (key : Text) : Option TomlValue :=
  (t.find? (·.1 = key)).map Prod.snd

/-- Puts a value in place of the one that a key has. -/
def TomlTable.replace (t : TomlTable) (key : Text) (value : TomlValue) : TomlTable :=
  t.map fun entry => if entry.1 = key then (key, value) else entry

/-- Changes the table that a path of keys leads to. Missing tables are made on the way. Through an
array the path leads into its last item if `throughArrays` holds. It leads through no other value.
-/
def TomlTable.changeAt? (throughArrays : Bool) (change : TomlTable → Option TomlTable) :
    List Text → TomlTable → Option TomlTable
  | [], t => change t
  | key :: path, t =>
      match t.get? key with
      | none => (changeAt? throughArrays change path []).map fun inner => t ++ [(key, .table inner)]
      | some (.table inner) =>
          (changeAt? throughArrays change path inner).map fun inner => t.replace key (.table inner)
      | some (.array items) =>
          match throughArrays, items.getLast? with
          | true, some (.table inner) =>
              (changeAt? throughArrays change path inner).map fun inner =>
                t.replace key (.array (items.dropLast ++ [.table inner]))
          | _, _ => none
      | some _ => none

/-- Adds a value under a path of keys that must not have one. -/
def TomlTable.addAt? (throughArrays : Bool) (path : List Text) (value : TomlValue) (t : TomlTable) :
    Option TomlTable :=
  match path.getLast? with
  | none => none
  | some key =>
      changeAt? throughArrays
        (fun inner => if (inner.get? key).isSome then none else some (inner ++ [(key, value)]))
        path.dropLast t

/-- Adds an empty table to the array of tables under a path of keys. -/
def TomlTable.appendAt? (path : List Text) (t : TomlTable) : Option TomlTable :=
  match path.getLast? with
  | none => none
  | some key =>
      changeAt? true
        (fun inner =>
          match inner.get? key with
          | none => some (inner ++ [(key, .array [.table []])])
          | some (.array items) => some (inner.replace key (.array (items ++ [.table []])))
          | some _ => none)
        path.dropLast t

/-- A number with zeros in front up to a least width. -/
def padded (width n : Nat) : Text :=
  let digits := Text.ofNat n
  List.replicate (width - digits.length) '0' ++ digits

/-- A day as year, month and day between hyphens. -/
def TomlDate.text (d : TomlDate) : Text :=
  padded 4 d.year ++ '-' :: padded 2 d.month ++ '-' :: padded 2 d.day

/-- A time of day; microseconds are left out when there are none. -/
def TomlTime.text (t : TomlTime) : Text :=
  padded 2 t.hour ++ ':' :: padded 2 t.minute ++ ':' :: padded 2 t.second
    ++ (if t.micros = 0 then [] else '.' :: padded 6 t.micros)

/-- An offset from universal time as hours and minutes. -/
def offsetText (offset : Int) : Text :=
  (if offset < 0 then '-' else '+') :: padded 2 (offset.natAbs / 60)
    ++ ':' :: padded 2 (offset.natAbs % 60)

/-- Parts between commas. -/
def commaList (parts : List Text) : Text :=
  List.intercalate [',', ' '] parts

/-- The parts of a time that are written when it is constructed from them: seconds and microseconds
are left out when they are zero and nothing follows them. -/
def TomlTime.parts (t : TomlTime) : List Nat :=
  if t.micros ≠ 0 then [t.hour, t.minute, t.second, t.micros]
  else if t.second ≠ 0 then [t.hour, t.minute, t.second]
  else [t.hour, t.minute]

/-- The construction of an offset from universal time. -/
def offsetConstruction (offset : Int) : Text :=
  if offset = 0 then "datetime.timezone.utc".toList
  else
    let days := if offset < 0 then "days=-1, ".toList else []
    let seconds := (if offset < 0 then 86400 + 60 * offset else 60 * offset).toNat
    "datetime.timezone(datetime.timedelta(".toList ++ days ++ "seconds=".toList
      ++ Text.ofNat seconds ++ "))".toList

/-- Why a value cannot be shown: an integer in it has too many digits, or its parts are nested too
deep. -/
inductive ShowFault where
  | integer (e : IntegerTooLong)
  | tooDeep
deriving DecidableEq, Repr

/-- How deep arrays and tables that are shown may stand in one another. -/
def showingRoom : Nat := 988

namespace TomlValue

mutual
/-- A value as it is shown inside of arrays and tables, given the room that is left for its own
parts. -/
def nested (room : Nat) : TomlValue → Except ShowFault Text
  | .text t => .ok (Text.quoted t)
  | .integer i => (writeInteger i).mapError .integer
  | .float x => .ok x.text
  | .boolean b => .ok (if b then "True".toList else "False".toList)
  | .date d =>
      .ok ("datetime.date(".toList ++ commaList ([d.year, d.month, d.day].map Text.ofNat) ++ [')'])
  | .time t => .ok ("datetime.time(".toList ++ commaList (t.parts.map Text.ofNat) ++ [')'])
  | .dateTime d t offset =>
      let numbers := ([d.year, d.month, d.day] ++ t.parts).map Text.ofNat
      let zone := offset.toList.map fun o => "tzinfo=".toList ++ offsetConstruction o
      .ok ("datetime.datetime(".toList ++ commaList (numbers ++ zone) ++ [')'])
  | .array items => (nestedItems room items).map fun parts => '[' :: commaList parts ++ [']']
  | .table entries =>
      (nestedEntries room entries).map fun parts => '\x7b' :: commaList parts ++ ['\x7d']
/-- The items of an array as they are shown. -/
def nestedItems : Nat → List TomlValue → Except ShowFault (List Text)
  | _, [] => .ok []
  | 0, _ :: _ => .error .tooDeep
  | room + 1, item :: items => do
      let part ← nested room item
      let parts ← nestedItems (room + 1) items
      .ok (part :: parts)
/-- The entries of a table as they are shown. -/
def nestedEntries : Nat → List (Text × TomlValue) → Except ShowFault (List Text)
  | _, [] => .ok []
  | 0, _ :: _ => .error .tooDeep
  | room + 1, (key, value) :: entries => do
      let part ← nested room value
      let parts ← nestedEntries (room + 1) entries
      .ok ((Text.quoted key ++ ": ".toList ++ part) :: parts)
end

/-- A value as plain text. -/
def shown : TomlValue → Except ShowFault Text
  | .text t => .ok t
  | .date d => .ok d.text
  | .time t => .ok t.text
  | .dateTime d t offset =>
      .ok (d.text ++ ' ' :: t.text ++ (offset.map offsetText).getD [])
  | v => nested showingRoom v

/-- Whether a value counts as true: all but zero, false and what is empty. -/
def isTrue : TomlValue → Bool
  | .text t => !t.isEmpty
  | .integer i => i ≠ 0
  | .float (.finite _ units _) => units ≠ 0
  | .float _ => true
  | .boolean b => b
  | .array items => !items.isEmpty
  | .table entries => !entries.isEmpty
  | _ => true

end TomlValue

end WardleyMaps
