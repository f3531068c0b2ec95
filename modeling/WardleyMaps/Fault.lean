/-
Module: WardleyMaps.Fault
Purpose: The faults that end an operation without an answer.
Main exports: Fault, Fault.kind, Fault.message, BlankOperand
-/
import WardleyMaps.Files.Directory
import WardleyMaps.Number.Fixed
import WardleyMaps.Settings.Read
import WardleyMaps.Statement.NumberedNote
import WardleyMaps.Surface

namespace WardleyMaps

/-!
Most of what can go wrong is part of an answer: problems of a document, files that cannot be read,
names that nothing declares. What remains ends the operation.
-/

/-- What an operand that was left blank would be needed for: as the name to look for, as a number to
be written, or as a number of pixels. -/
inductive BlankOperand where
  | name
  | numeral
  | pixels
deriving DecidableEq, Repr

/-- The wording of the refusal. -/
def BlankOperand.message : BlankOperand → String
  | .name => "decoding to str: need a bytes-like object, list found"
  | .numeral => "unsupported format string passed to list.__format__"
  | .pixels => "unsupported operand type(s) for -: 'list' and 'float'"

/-- Why an operation ends without an answer: the number of an annotation is too long, coordinates
cannot have the wanted number of places, nothing can be drawn on the surface, no settings can be had
from their file, an integer is too long to be written, a file cannot be reached, or an operand is
blank. -/
inductive Fault where
  | number (e : NumberTooLong)
  | precision (e : PrecisionError)
  | surface (e : SurfaceTooSmall)
  | load (e : LoadFault)
  | integer (e : IntegerTooLong)
  | file (e : FileFault)
  | blank (e : BlankOperand)
deriving DecidableEq

/-- The name of the kind of a fault. -/
def Fault.kind : Fault → String
  | .number _ => "ValueError"
  | .precision _ => "ValueError"
  | .surface _ => "ValueError"
  | .load e => e.kind
  | .integer _ => "ValueError"
  | .file e => e.cause.kind
  | .blank _ => "TypeError"

/-- The wording of a fault. -/
def Fault.message : Fault → String
  | .number e => e.message
  | .precision e => e.message
  | .surface e => e.message
  | .load e => e.message
  | .integer e => e.message
  | .file e => e.message
  | .blank e => e.message

end WardleyMaps
