/-
Module: WardleyMaps.Statement.Option
Purpose: The options that may follow the coordinates of a component.
Main exports: readLabel, readDecorators, readReference, readInlineEvolution, hasInertia
-/
import WardleyMaps.Statement.Field

namespace WardleyMaps

open Text

/-!
Options may stand in any order behind the coordinates: `label [x, y]`, the word `inertia`,
decorators in parentheses, `evolve` with a number and `url(…)`. Each is looked for in the whole of
the rest of the line, and the first place that fits counts. Letters in decorators may be large or
small.
-/

/-- The bracket of a label, after its keyword. -/
def labelInside? (t : Text) : Option Text :=
  match trimStart t with
  | '[' :: rest => (cutAt ']' rest).map Prod.fst
  | _ => none

/-- The offset that a label option gives, none without one. -/
def readGivenLabel (tail : Text) : Except Cause (Option LabelOffset) :=
  match findWord "label".toList labelInside? tail with
  | none => .ok none
  | some inside => do
      let (x, y) ← readPair "label offset" inside
      .ok (some { x, y })

/-- The offset that a label option gives, else the standard offset with the spacing of decorators.
-/
def readLabel (spacing : Nat) (tail : Text) : Except Cause LabelOffset :=
  (readGivenLabel tail).map fun given => given.getD (LabelOffset.standard.spread spacing)

/-- Whether the word `inertia` occurs on its own. -/
def hasInertia (tail : Text) : Bool :=
  let wordEnds (rest : Text) : Option Unit := if startsWord rest then none else some ()
  (findWord "inertia".toList wordEnds tail).isSome

/-- A numeral after at least one blank. -/
def numeralAfterBlank? : Text → Option Double
  | [] => none
  | c :: rest =>
      if isBlank c then (Numeral.scan (trimStart rest)).map fun scanned => scanned.1.value else none

/-- The maturity of an evolution that is given along with the component. -/
def readInlineEvolution (tail : Text) : Option Double :=
  findWord "evolve".toList numeralAfterBlank? tail

/-- What parentheses hold, if the text begins with an opening one that is closed. -/
def parenthesised? : Text → Option Text
  | '(' :: rest => (cutAt ')' rest).map Prod.fst
  | _ => none

/-- The reference of a `url(…)` option, none if it is blank. -/
def readReference (tail : Text) : Option Text :=
  match findWord "url".toList parenthesised? tail with
  | none => none
  | some inside => if (trim inside).isEmpty then none else some (trim inside)

/-- The words that parentheses may hold. -/
inductive DecoratorWord where
  | ecosystem
  | market
  | buy
  | build
  | outsource
  | inertia
deriving DecidableEq, Repr

/-- The small form of a letter, as far as decorators may hold it: the Kelvin sign has the letter `k`
for its small form. -/
def foldCase (c : Char) : Char :=
  if c.toNat = 0x212A then 'k' else c.toLower

/-- The decorator that a token between commas names, in any letter case. -/
def DecoratorWord.read? (token : Text) : Option DecoratorWord :=
  let word := (trim token).map foldCase
  if word = "ecosystem".toList then some .ecosystem
  else if word = "market".toList then some .market
  else if word = "buy".toList then some .buy
  else if word = "build".toList then some .build
  else if word = "outsource".toList then some .outsource
  else if word = "inertia".toList then some .inertia
  else none

/-- How far a decorator pushes the label away. -/
def DecoratorWord.spacing : DecoratorWord → Nat
  | .ecosystem => 3
  | .market | .buy | .build | .outsource => 2
  | .inertia => 0

/-- Raise the flag of a decorator; inertia is no flag. -/
def Decorators.raise (d : Decorators) : DecoratorWord → Decorators
  | .ecosystem => { d with ecosystem := true }
  | .market => { d with market := true }
  | .buy => { d with buy := true }
  | .build => { d with build := true }
  | .outsource => { d with outsource := true }
  | .inertia => d

/-- What the parentheses of a line hold, one after the other; those of `url(…)` are left out. -/
def parenthesisGroups (t : Text) : List Text :=
  match t with
  | [] => []
  | c :: rest =>
      match h : after? "url(".toList (c :: rest) with
      | some later =>
          have : later.length < rest.length + 1 := by
            have := congrArg List.length (after?_eq_some.1 h)
            simp at this
            omega
          parenthesisGroups later
      | none =>
          if c = '(' then
            match hc : cutAt ')' rest with
            | some (inside, later) =>
                have : later.length < rest.length + 1 := by
                  have := congrArg List.length (cutAt_eq_some hc).1
                  simp at this
                  omega
                inside :: parenthesisGroups later
            | none => []
          else parenthesisGroups rest
termination_by t.length

/-- What the decorators of a component say together. -/
structure DecoratorReading where
  decorators : Decorators
  spacing : Nat
  inertia : Bool
deriving DecidableEq, Repr

/-- The decorators among the words of all parentheses: their flags, the largest of their spacings,
and whether inertia is among them. -/
def readDecorators (tail : Text) : DecoratorReading :=
  let found := ((parenthesisGroups tail).flatMap (·.splitOn ',')).filterMap DecoratorWord.read?
  { decorators := found.foldl Decorators.raise {}
    spacing := found.foldl (fun most word => max most word.spacing) 0
    inertia := found.contains .inertia }

end WardleyMaps
