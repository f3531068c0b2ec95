/-
Module: WardleyMaps.Command.Switch
Purpose: Telling switches from plain words among the arguments of a command line.
Main exports: SwitchTable, ArgWord, classify, classifyAll
-/
import WardleyMaps.Text.Cut
import WardleyMaps.Text.Digit

namespace WardleyMaps

open Text

/-!
A switch is written by its name. A name of two hyphens may be cut short as long as only one name
begins so, and switches of one hyphen and one letter may be written together, with an equals sign
behind the first or without. No switch takes a value. What looks like a negative number, or holds a
space, is a plain word, and so is everything after two hyphens that stand alone.
-/

/-- What a switch asks for. -/
inductive Switch where
  | help
  | verbose
  | trace
  | json
  | strict
  | pixels
  | write
  | path
deriving DecidableEq, Repr

/-- The switches that may be given at one place, under their names. -/
abbrev SwitchTable := List (Text × Switch)

/-- An argument by its role: a plain word, the two hyphens after which all words are plain,
switches, an unknown switch, or a switch with a value that it does not take. -/
inductive ArgWord where
  | plain (t : Text)
  | separator
  | switches (given : List Switch)
  | unknown
  | wrong
deriving DecidableEq, Repr

/-- Two hyphens. -/
def separatorText : Text := ['-', '-']

/-- Negative numbers in decimal digits, with or without a fraction. -/
def looksNegative : Text → Bool
  | '-' :: t =>
      let ends (rest : Text) : Bool := rest = [] || rest = ['\n']
      match spanDigits t with
      | (_, '.' :: rest) =>
          let (fraction, rest) := spanDigits rest
          !fraction.isEmpty && ends rest
      | (whole, rest) => !whole.isEmpty && ends rest
  | _ => false

/-- The switch of a name. -/
def SwitchTable.get? (table : SwitchTable) (name : Text) : Option Switch :=
  (table.find? (·.1 = name)).map Prod.snd

/-- What follows the letter of a switch in the same argument: more letters, each a switch. Anything
else would be a value. -/
def readCluster (table : SwitchTable) (given : List Switch) : Text → ArgWord
  | [] => .switches given
  | c :: rest =>
      match table.get? ['-', c] with
      | none => .wrong
      | some s => readCluster table (given ++ [s]) rest

/-- A switch that was found by its name with what follows an equals sign behind it. Only behind a
single letter it may be more letters. -/
def withValue (table : SwitchTable) (name : Text) (s : Switch) : Option Text → ArgWord
  | none => .switches [s]
  | some value =>
      if value = [] || startsWith separatorText name then .wrong
      else readCluster table [s] value

/-- The words that an argument may be taken for because it begins like a switch. -/
def candidates (table : SwitchTable) (t : Text) : List ArgWord :=
  if startsWith separatorText t then
    let (name, value) :=
      match cutAt '=' t with
      | some (name, value) => (name, some value)
      | none => (t, none)
    (table.filter fun entry => startsWith name entry.1).map fun entry =>
      withValue table entry.1 entry.2 value
  else
    (table.filter fun entry => entry.1 = t.take 2).map fun entry =>
      readCluster table [entry.2] (t.drop 2)

/-- The role of an argument, none if it may stand for several switches. -/
def classify (table : SwitchTable) (t : Text) : Option ArgWord :=
  if !startsWith ['-'] t || t = ['-'] then some (.plain t)
  else
    let assigned := (cutAt '=' t).bind fun (name, value) =>
      (table.get? name).map fun s => withValue table name s (some value)
    match table.get? t, assigned with
    | some s, _ => some (.switches [s])
    | none, some word => some word
    | none, none =>
        match candidates table t with
        | [word] => some word
        | [] =>
            if looksNegative t || t.contains ' ' then some (.plain t) else some .unknown
        | _ => none

/-- The roles of all arguments. -/
def classifyAll (table : SwitchTable) : List Text → Option (List ArgWord)
  | [] => some []
  | t :: rest =>
      if t = separatorText then some (.separator :: rest.map .plain)
      else do
        let word ← classify table t
        let words ← classifyAll table rest
        some (word :: words)

end WardleyMaps
