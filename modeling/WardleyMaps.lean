import WardleyMaps.Main
import WardleyMaps.Session.Run
import WardleyMaps.Proofs.Text.Cut
import WardleyMaps.Proofs.Comment.Scanner
import WardleyMaps.Proofs.Comment.Segment
import WardleyMaps.Proofs.Body
import WardleyMaps.Proofs.Document.Pass
import WardleyMaps.Proofs.Number.Written
import WardleyMaps.Proofs.Statement.Keyword
import WardleyMaps.Proofs.Statement.Placed
import WardleyMaps.Proofs.Document.Replace
import WardleyMaps.Proofs.Edit.Place
import WardleyMaps.Proofs.Statement.Coordinates
import WardleyMaps.Proofs.Edit.Bracket
import WardleyMaps.Proofs.Edit.Move
import WardleyMaps.Proofs.Document.Header
import WardleyMaps.Proofs.Document.Verdict
import WardleyMaps.Proofs.Edit.CommentFree
import WardleyMaps.Proofs.Session.Consistency
import WardleyMaps.Proofs.Statement.Maturity
import WardleyMaps.Proofs.Edit.Frame
import WardleyMaps.Proofs.Statement.Evolve
import WardleyMaps.Proofs.Edit.Evolve
import WardleyMaps.Proofs.Document.Inside
import WardleyMaps.Proofs.Statement.WrittenMaturity
import WardleyMaps.Proofs.Edit.Reread
import WardleyMaps.Proofs.Edit.Drawn
import WardleyMaps.Proofs.Document.Gather
import WardleyMaps.Proofs.Document.Renumber
import WardleyMaps.Proofs.Document.Marked
import WardleyMaps.Proofs.Document.Insert
import WardleyMaps.Proofs.Document.Append
import WardleyMaps.Proofs.Document.Braces
import WardleyMaps.Proofs.Edit.Reach
import WardleyMaps.Proofs.Files.Directory
import WardleyMaps.Proofs.Files.Utf8
import WardleyMaps.Proofs.Session.Outcome
import WardleyMaps.Proofs.Session.Attempt
import WardleyMaps.Proofs.Session.Announced
import WardleyMaps.Proofs.Session.WriteBack
import WardleyMaps.Proofs.Session.Refusal
import WardleyMaps.Proofs.Document.LongNumber
import WardleyMaps.Proofs.Document.Locality
import WardleyMaps.Proofs.Cue.Unchanged
import WardleyMaps.Proofs.Cue.Running
import WardleyMaps.Proofs.Cue.Recent
import WardleyMaps.Proofs.Document.Reported
import WardleyMaps.Proofs.Number.Range
import WardleyMaps.Proofs.Document.Numbers
import WardleyMaps.Proofs.Settings.Complete
import WardleyMaps.Proofs.Settings.Load
import WardleyMaps.Proofs.Files.Absolute
import WardleyMaps.Proofs.Log
import WardleyMaps.Proofs.Session.Edited
import WardleyMaps.Proofs.Command.Line
import WardleyMaps.Proofs.Command.SameEdit
import WardleyMaps.Proofs.Comment.OnePass
import WardleyMaps.Proofs.Edit.LineEnd
import WardleyMaps.Proofs.Session.Watch
import WardleyMaps.Proofs.Command.Ending
import WardleyMaps.Proofs.Text.Mark
import WardleyMaps.Proofs.Statement.Link
import WardleyMaps.Proofs.Document.AddressLine
import WardleyMaps.Proofs.Statement.Reference
import WardleyMaps.Proofs.Statement.OptionRow
import WardleyMaps.Proofs.Statement.Context
import WardleyMaps.Proofs.Statement.Evolvable
import WardleyMaps.Proofs.Statement.Skipped
import WardleyMaps.Proofs.Edit.Commute
import WardleyMaps.Proofs.Edit.Drag
import WardleyMaps.Proofs.Command.Files
import WardleyMaps.Proofs.Settings.Saved
import WardleyMaps.Proofs.Surface
import WardleyMaps.Proofs.Log.LastConfiguration
