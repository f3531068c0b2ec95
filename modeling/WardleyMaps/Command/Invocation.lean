/-
Module: WardleyMaps.Command.Invocation
Purpose: The commands, their arguments and how a command line is read.
Main exports: Command, Invocation, Usage, Invocation.read
-/
import WardleyMaps.Command.Switch
import WardleyMaps.Number.Literal

namespace WardleyMaps

open Text

/-!
A command line gives switches that hold for every command, the name of a command, and the words and
switches of that command in any order. A line that asks for help, or that is not well formed, names
no command; whichever comes first on the line decides. Where all words are plain, two more hyphens
in the place of a word leave it blank.
-/

/-- A command with its arguments; of these, all but a file may be blank. -/
inductive Command where
  | parse (file : Text) (json strict : Bool)
  | move (file : Text) (name : Option Text) (first second : Option Double) (pixels write : Bool)
  | evolve (file : Text) (name : Option Text) (maturity : Option Double) (write : Bool)
  | settings (pathOnly : Bool)
deriving DecidableEq

/-- The name of a command. -/
def Command.name : Command → Text
  | .parse _ _ _ => "parse".toList
  | .move _ _ _ _ _ _ => "move".toList
  | .evolve _ _ _ _ => "evolve".toList
  | .settings _ => "settings".toList

/-- The file that a command works on. -/
def Command.file? : Command → Option Text
  | .parse file _ _ => some file
  | .move file _ _ _ _ _ => some file
  | .evolve file _ _ _ => some file
  | .settings _ => none

/-- A command, and whether all records and the traces are to be written. -/
structure Invocation where
  verbose : Bool
  trace : Bool
  command : Command
deriving DecidableEq

/-- Why a line names no command: it asks for help, or is not well formed. -/
inductive Usage where
  | help
  | wrong
deriving DecidableEq, Repr

/-- The code with which a line that names no command ends. -/
def Usage.code : Usage → Nat
  | .help => 0
  | .wrong => 2

/-- What was read of a line: plain words, none for a blank one, switches, and whether something was
left over. -/
structure Gathered where
  words : List (Option Text) := []
  switches : List Switch := []
  leftOver : Bool := false

/-- What comes before an argument: a word of the command, two hyphens that stand with the word after
them, or anything else. -/
inductive Preceding where
  | word
  | separator
  | other
deriving DecidableEq, Repr

/-- The word that stands at the place of a plain one: two hyphens are blank, unless other two stand
with them. -/
def wordAfter (before : Preceding) (t : Text) : Option Text :=
  if t = separatorText && before ≠ .separator then none else some t

/-- The words and switches of a command. A command takes a number of words, and a word must be
acceptable at its place. The hyphens after which all words are plain stand with the word before
them, if it belongs to the command, or else with the one after them. -/
def gather (count : Nat) (accepts : Nat → Option Text → Bool) :
    Preceding → Gathered → List ArgWord → Except Usage Gathered
  | _, g, [] => if g.words.length < count then .error .wrong else .ok g
  | before, g, word :: rest =>
      match word with
      | .plain t =>
          if g.words.length < count then
            let word := wordAfter before t
            if accepts g.words.length word then
              gather count accepts .word { g with words := g.words ++ [word] } rest
            else .error .wrong
          else gather count accepts .other { g with leftOver := true } rest
      | .separator =>
          if before = .word then gather count accepts .other g rest
          else
            let stands := g.words.length < count && !rest.isEmpty
            gather count accepts .separator { g with leftOver := g.leftOver || !stands } rest
      | .switches given =>
          if given.contains .help then .error .help
          else gather count accepts .other { g with switches := g.switches ++ given } rest
      | .unknown => gather count accepts .other { g with leftOver := true } rest
      | .wrong => .error .wrong

/-- Read the arguments of a command. -/
def gatherFor (table : SwitchTable) (count : Nat) (accepts : Nat → Option Text → Bool)
    (args : List Text) : Except Usage Gathered :=
  match classifyAll table args with
  | none => .error .wrong
  | some words => gather count accepts .other {} words

/-- The switches for help; every place has them. -/
def helpSwitches : SwitchTable :=
  [("-h".toList, .help), ("--help".toList, .help)]

/-- Words whose place is at least the given one must be numbers, unless they are blank. -/
def numbersFrom (first place : Nat) (word : Option Text) : Bool :=
  place < first || word.all fun t => (Double.readLiteral? t).isSome

/-- The word at a place, none if it is blank. -/
def Gathered.word (g : Gathered) (place : Nat) : Option Text :=
  g.words[place]?.join

/-- The number at a place, where `numbersFrom` accepted the word; none if it is blank. -/
def Gathered.number (g : Gathered) (place : Nat) : Option Double :=
  (g.word place).bind Double.readLiteral?

/-- The file of a command, its first word. That is not blank, since no word comes before it. -/
def Gathered.file (g : Gathered) : Text :=
  (g.word 0).getD []

/-- Whether a switch was given. -/
def Gathered.has (g : Gathered) (s : Switch) : Bool :=
  g.switches.contains s

/-- Read a command by its name and the arguments after it; the flag tells that something was left
over. The name `watch` is reserved: only its help may be asked for. -/
def readCommand (name : Text) (args : List Text) : Except Usage (Command × Bool) :=
  if name = "parse".toList then do
    let table := helpSwitches ++ [("--json".toList, .json), ("--strict".toList, .strict)]
    let g ← gatherFor table 1 (fun _ _ => true) args
    .ok (.parse g.file (g.has .json) (g.has .strict), g.leftOver)
  else if name = "move".toList then do
    let table := helpSwitches ++ [("--pixels".toList, .pixels), ("--write".toList, .write)]
    let g ← gatherFor table 4 (numbersFrom 2) args
    .ok (.move g.file (g.word 1) (g.number 2) (g.number 3) (g.has .pixels) (g.has .write),
      g.leftOver)
  else if name = "evolve".toList then do
    let g ← gatherFor (helpSwitches ++ [("--write".toList, .write)]) 3 (numbersFrom 2) args
    .ok (.evolve g.file (g.word 1) (g.number 2) (g.has .write), g.leftOver)
  else if name = "settings".toList then do
    let g ← gatherFor (helpSwitches ++ [("--path".toList, .path)]) 0 (fun _ _ => true) args
    .ok (.settings (g.has .path), g.leftOver)
  else if name = "watch".toList then do
    let _ ← gatherFor helpSwitches 1 (fun _ _ => true) args
    .error .wrong
  else .error .wrong

/-- The switches before the name of a command. -/
def globalSwitches : SwitchTable :=
  helpSwitches
    ++ [("-v".toList, .verbose), ("--verbose".toList, .verbose), ("--trace".toList, .trace)]

/-- Read what comes before the name of a command, and the command. -/
def readGlobal (g : Gathered) : List (Text × ArgWord) → Except Usage Invocation
  | [] => .error .wrong
  | (_, word) :: rest =>
      match word with
      | .plain name => do
          let (command, leftOver) ← readCommand name (rest.map Prod.fst)
          if g.leftOver || leftOver then .error .wrong
          else .ok { verbose := g.has .verbose, trace := g.has .trace, command }
      | .switches given =>
          if given.contains .help then .error .help
          else readGlobal { g with switches := g.switches ++ given } rest
      | .unknown => readGlobal { g with leftOver := true } rest
      | .separator => .error .wrong
      | .wrong => .error .wrong

/-- Read a command line. -/
def Invocation.read (args : List Text) : Except Usage Invocation :=
  match classifyAll globalSwitches args with
  | none => .error .wrong
  | some words => readGlobal {} (args.zip words)

end WardleyMaps
