/-
Module: WardleyMaps.Proofs.Command.SameEdit
Purpose: An edit that a command makes is the one that a session makes.
Main exports: Command.run_edit, Invocation.run_edit, SameEdit, sameEdit_of_invocation,
  sameEdit_of_command
-/
import Mathlib.Control.Monad.Basic
import WardleyMaps.Command.Run
import WardleyMaps.Proofs.Command.Line
import WardleyMaps.Proofs.Document.Reported
import WardleyMaps.Proofs.Files.Absolute
import WardleyMaps.Proofs.Log

namespace WardleyMaps

open Text

/-!
A command that edits a file and a session that has opened the file make the same thing of its text,
since both of them make what `MapEdit.edited` makes of it. They differ in how they come to the text
and where they leave it. A command reads and writes the path that it is given, a session writes the
absolute path, which leads to the same place. A command also opens a log, which must not be the file
itself: its content would be lost before the command reads it.
-/

/-- The code that tells whether there was something to edit. -/
def editCode (found : Option Edited) : Nat :=
  if found.isSome then codeSuccess else codeNoMatch

section

variable {w : LogWorld} {file source : Text} {p : Path} {bytes : List UInt8} {doc : Document}

/-! ### Commands -/

/-- Delivering an edit writes it to the file, or leaves the file as it is. -/
theorem LogWorld.deliverEdit_keeps (h : w.Keeps file p bytes) (stamp : Text)
    (edited : Except Fault (Option Edited)) (entries : Option Edited → List LogEntry)
    (complaint : Text) :
    (w.deliverEdit stamp file true edited entries complaint).result = edited.map editCode ∧
      (w.deliverEdit stamp file true edited entries complaint).world.directory.read file =
        .ok (bytesAfter bytes edited) := by
  cases edited with
  | error f => exact ⟨rfl, h.holds.read_eq⟩
  | ok found =>
      have kept := keeps_emitAll h stamp (entries found)
      cases found with
      | none => exact ⟨rfl, kept.holds.read_eq⟩
      | some e =>
          have written : (w.emitAll stamp (entries (some e))).directory.writeText file e.source =
              .ok ((w.emitAll stamp (entries (some e))).directory.set p
                (.file (Utf8.encode e.source))) := kept.holds.write_eq kept.fine _
          simp only [deliverEdit, deliver, if_true, written]
          exact ⟨rfl, (kept.holds.set_self _).read_eq⟩

/-- A command goes on with the text of a file that can be read. -/
theorem LogWorld.withText_of_keeps (h : w.Keeps file p bytes)
    (text : Utf8.decode bytes = .ok source) (next : Text → CommandOutcome) :
    w.withText file next = next source := by
  have usable := (Directory.resolve_eq_ok.1 h.holds.leads).1
  have content : w.directory.readText file = .ok source :=
    Directory.readText_eq_ok.2 ⟨bytes, h.holds.read_eq, text⟩
  simp only [withText, usable, content]

/-! A command with `--pixels` takes the position of the pixel on the surface of the map. -/

theorem targetPosition_of_small {canvas : CanvasSettings} {e : SurfaceTooSmall}
    (read : Document.read source = .ok doc) (small : Surface.forMap (some doc) canvas = .error e)
    (w : LogWorld) (stamp : Text) (first second : Option Double) :
    targetPosition w stamp canvas source first second true = .error (.surface e) := by
  unfold targetPosition
  rw [if_pos rfl, read]
  dsimp only [Except.mapError, bind, Except.bind]
  rw [small]

theorem targetPosition_eq_ok {canvas : CanvasSettings} {first second : Option Double}
    {stamp : Text} {target : LogWorld × Option Double × Option Double} :
    targetPosition w stamp canvas source first second true = .ok target ↔
      ∃ doc s x y, Document.read source = .ok doc ∧ Surface.forMap (some doc) canvas = .ok s ∧
        first = some x ∧ second = some y ∧
        target = (w.emitAll stamp (readingEntries source doc),
          some (s.toNormalized { x, y }).position.visibility,
          some (s.toNormalized { x, y }).position.maturity) := by
  simp only [targetPosition, if_true, bind_eq_ok, mapError_eq_ok]
  constructor
  · rintro ⟨doc, read, s, made, placed⟩
    split at placed
    · next x y =>
      exact ⟨doc, s, x, y, read, made, rfl, rfl, (Except.ok.inj placed).symm⟩
    · cases placed
  · rintro ⟨doc, s, x, y, read, made, rfl, rfl, rfl⟩
    exact ⟨doc, read, s, made, rfl⟩

/-- A command that edits a file ends as the edit of its text does, and what that gives is written to
the file. -/
theorem Command.run_edit (h : w.Keeps file p bytes) (text : Utf8.decode bytes = .ok source)
    (read : Document.read source = .ok doc) (stamp : Text) (store : SettingsStore)
    (edit : MapEdit) :
    ((edit.command file).run w stamp store).result =
        (edit.edited store.settings source doc).map editCode ∧
      ((edit.command file).run w stamp store).world.directory.read file =
        .ok (bytesAfter bytes (edit.edited store.settings source doc)) := by
  cases edit with
  | move name position =>
      simp only [MapEdit.command, Command.run, LogWorld.withText_of_keeps h text, targetPosition]
      exact LogWorld.deliverEdit_keeps h stamp _ _ _
  | drag name pixel =>
      simp only [MapEdit.command, Command.run, LogWorld.withText_of_keeps h text]
      rw [MapEdit.edited]
      cases surface : Surface.forMap (some doc) store.settings.canvas with
      | error e =>
          rw [targetPosition_of_small read surface]
          exact ⟨rfl, h.holds.read_eq⟩
      | ok s =>
          rw [targetPosition_eq_ok.2 ⟨doc, s, pixel.x, pixel.y, read, surface, rfl, rfl, rfl⟩]
          exact LogWorld.deliverEdit_keeps (LogWorld.keeps_emitAll h stamp _) stamp _ _ _
  | evolve name maturity =>
      simp only [MapEdit.command, Command.run, LogWorld.withText_of_keeps h text]
      exact LogWorld.deliverEdit_keeps h stamp _ _ _

/-- A whole invocation does so too, if its log leaves the file alone. -/
theorem Invocation.run_edit {d : Directory} {store : SettingsStore}
    (loaded : SettingsStore.ofDirectory d = .ok store)
    (usable : unusablePath? store.settings.logging.logFile = none)
    (spared : store.settings.logging.Spares d file) (holds : d.HoldsFile file p bytes)
    (fine : d.trouble? p = none)
    (text : Utf8.decode bytes = .ok source) (read : Document.read source = .ok doc)
    {i : Invocation} {edit : MapEdit} (asked : i.command = edit.command file) (stamp : Text) :
    (i.run stamp d).result = (edit.edited store.settings source doc).map editCode ∧
      (i.run stamp d).world.directory.read file =
        .ok (bytesAfter bytes (edit.edited store.settings source doc)) := by
  have configured := LogWorld.keeps_configure holds fine
    (s := i.logSettings store.settings.logging) spared
  have named := LogWorld.keeps_emit configured stamp
    (.trace "MAIN".toList ("command ".toList ++ i.command.name))
  have usable' : unusablePath? (i.logSettings store.settings.logging).logFile = none := usable
  simp only [Invocation.run, loaded, usable', asked]
  rw [asked] at named
  exact Command.run_edit named text read stamp store edit

end

/-! ### Both ways -/

/-- A command and an action of a session have made the same edit of a file: success, nothing to edit
and each fault of the one go with those of the other, and the file has the same bytes. -/
structure SameEdit (file : Text) (c : CommandOutcome) (o : Outcome) : Prop where
  success : c.result = .ok codeSuccess ↔ o.result = .ok (.flag true)
  noMatch : c.result = .ok codeNoMatch ↔ o.result = .ok (.flag false)
  faults : ∀ f, c.result = .error f ↔ o.result = .error f
  content : c.world.directory.read file = o.workspace.directory.read file

/-- Two ways to make one edit. -/
theorem SameEdit.of_edited {file : Text} {c : CommandOutcome} {o : Outcome} {bytes : List UInt8}
    {edited : Except Fault (Option Edited)}
    (command : c.result = edited.map editCode ∧
      c.world.directory.read file = .ok (bytesAfter bytes edited))
    (session : o.result = edited.map (fun found => .flag found.isSome) ∧
      o.workspace.directory.read file = .ok (bytesAfter bytes edited)) : SameEdit file c o := by
  obtain ⟨code, content⟩ := command
  obtain ⟨answer, content'⟩ := session
  refine { success := ?_, noMatch := ?_, faults := fun f => ?_,
           content := content.trans content'.symm }
  all_goals
    rw [code, answer]
    cases edited with
    | error f => simp [Except.map]
    | ok found => cases found <;> simp [Except.map, editCode, codeSuccess, codeNoMatch]

section

variable {d : Directory} {store : SettingsStore} {file source : Text} {doc : Document}
  {edit : MapEdit}

/-- A command that edits a file, with whatever switches for the log, makes the same edit as a
session that opens the file and makes it there. -/
theorem sameEdit_of_invocation (apart : d.NamedApart)
    (loaded : SettingsStore.ofDirectory d = .ok store)
    (on : store.settings.editor.writeBack = true) (content : d.readText file = .ok source)
    (writable : d.writable (d.absolute file) = true) (read : Document.read source = .ok doc)
    (readable : ∀ e, edit.edited store.settings source doc = .ok (some e) →
      ∃ after, Document.read e.source = .ok after)
    (usable : unusablePath? store.settings.logging.logFile = none)
    (spared : store.settings.logging.Spares d file) {i : Invocation}
    (asked : i.command = edit.command file) (stamp : Text) (clock : Double) (monitored : Bool) :
    let opened := (Workspace.start store.settings d clock monitored).run [] (.openFile file)
    SameEdit file (i.run stamp d) (opened.workspace.run [] edit.action) := by
  intro opened
  have shows : opened.workspace.Shows store.settings d (d.absolute file) source doc :=
    (Workspace.run_openFile content read clock monitored).2
  obtain ⟨bytes, found, text⟩ := Directory.readText_eq_ok.1 content
  obtain ⟨p, holds⟩ := Directory.exists_holdsFile found
  obtain ⟨leads, fine⟩ : d.resolve (d.absolute file) = .ok p ∧ d.trouble? p = none := by
    obtain ⟨q, there, -, fine⟩ := Directory.writable_iff.1 writable
    cases Directory.resolve_absolute_unique apart holds.leads there
    exact ⟨there, fine⟩
  exact .of_edited (Invocation.run_edit loaded usable spared holds fine text read asked stamp)
    (Workspace.run_edit shows on leads holds fine edit readable)

/-- What an edit makes of a source can be read if no line of it has a number that is too long. -/
theorem readable_of_edited {settings : Settings} {after : Edited}
    (edited : edit.edited settings source doc = .ok (some after))
    (short : ∀ line ∈ bareLines after.source, numberTooLong line = false) :
    ∀ e, edit.edited settings source doc = .ok (some e) →
      ∃ doc', Document.read e.source = .ok doc' := by
  intro e found
  cases Option.some.inj (Except.ok.inj (found.symm.trans edited))
  exact (exists_read_iff _).2 short

end

/-- Take a file that can be written to and whose content is a text that can be read, as what the
edit makes of it can be, with settings that have edits written back. A session can open the file, a
line that asks for the edit is read as its command, and every invocation of the command, with
whatever switches for the log, makes the same edit as the session, unless the log file of the
settings cannot be named or is the file itself. -/
theorem sameEdit_of_command (d : Directory) (apart : d.NamedApart) (store : SettingsStore)
    (loaded : SettingsStore.ofDirectory d = .ok store)
    (on : store.settings.editor.writeBack = true) (file source : Text) (doc : Document)
    (content : d.readText file = .ok source) (writable : d.writable (d.absolute file) = true)
    (read : Document.read source = .ok doc) (edit : MapEdit)
    (readable : ∀ e, edit.edited store.settings source doc = .ok (some e) →
      ∃ after, Document.read e.source = .ok after)
    (usable : unusablePath? store.settings.logging.logFile = none)
    (spared : store.settings.logging.Spares d file) (stamp : Text) (clock : Double)
    (monitored : Bool) :
    let opened := (Workspace.start store.settings d clock monitored).run [] (.openFile file)
    opened.result = .ok (.flag true) ∧
      (∀ args, edit.Line file args →
        ∃ i, Invocation.read args = .ok i ∧ i.command = edit.command file) ∧
      ∀ i : Invocation, i.command = edit.command file →
        SameEdit file (i.run stamp d) (opened.workspace.run [] edit.action) :=
  ⟨(Workspace.run_openFile content read clock monitored).1,
    fun _ line => ⟨_, line.read, rfl⟩,
    fun _ asked => sameEdit_of_invocation apart loaded on content writable read readable usable
      spared asked stamp clock monitored⟩

/-- An edit of a file by a line and by a session, with a log file beside it. -/
theorem sameEdit_of_command_cup :
    let file : Text := "cups.owm".toList
    let source : Text := "component Cup [0.5, 0.5]".toList
    let content : Text := "[logging]\nlog_file = \"cups.log\"\n".toList
    let d : Directory :=
      { nodes := [([file], .file (Utf8.encode source)), (["config".toList], .folder),
          (["config".toList, "settings.toml".toList], .file (Utf8.encode content))] }
    let settings : Settings := { logging := { logFile := "cups.log".toList } }
    let edit : MapEdit := .move "Cup".toList { visibility := 1, maturity := 0 }
    let opened := (Workspace.start settings d 0 true).run [] (.openFile file)
    settings.logging.Spares d file ∧ opened.result = .ok (.flag true) ∧
      ∃ i, Invocation.read
          ["move".toList, file, "Cup".toList, "1".toList, "0".toList, "--write".toList] = .ok i ∧
        SameEdit file (i.run [] d) (opened.workspace.run [] edit.action) := by
  intro file source content d settings edit opened
  obtain ⟨doc, read⟩ : ∃ doc, Document.read source = .ok doc :=
    (exists_read_iff _).2 (by decide +kernel)
  have moved : edit.edited settings source doc = .ok (some
      { lineNumber := 1, written := "1.00, 0.00".toList,
        source := "component Cup [1.00, 0.00]".toList }) := by
    dsimp only [edit, MapEdit.edited]
    decide +kernel
  have spared : settings.logging.Spares d file := by
    intro _
    decide +kernel
  obtain ⟨success, lines, same⟩ := sameEdit_of_command d (by decide) { settings }
    (by decide +kernel) rfl file source doc (by decide +kernel) (by decide +kernel) read edit
    (readable_of_edited moved (by decide +kernel)) (by decide +kernel) spared [] 0 true
  obtain ⟨i, line, asked⟩ := lines
    ["move".toList, file, "Cup".toList, "1".toList, "0".toList, "--write".toList]
    (.move (by decide +kernel) (by decide +kernel) (by decide +kernel))
  exact ⟨spared, success, i, line, same i asked⟩

/-- Here the log file is the file itself: the command finds nothing to edit in what is left of it.
-/
theorem not_sameEdit_of_own_log :
    let file : Text := "cups.owm".toList
    let source : Text := "component Cup [0.5, 0.5]".toList
    let content : Text := "[logging]\nlog_file = \"cups.owm\"\n".toList
    let d : Directory :=
      { nodes := [([file], .file (Utf8.encode source)), (["config".toList], .folder),
          (["config".toList, "settings.toml".toList], .file (Utf8.encode content))] }
    let settings : Settings := { logging := { logFile := file } }
    let edit : MapEdit := .move "Cup".toList { visibility := 1, maturity := 0 }
    let opened := (Workspace.start settings d 0 true).run [] (.openFile file)
    SettingsStore.ofDirectory d = .ok { settings } ∧ settings.editor.writeBack = true ∧
      d.readText file = .ok source ∧ d.writable (d.absolute file) = true ∧
      ∃ doc, Document.read source = .ok doc ∧
        (∀ e, edit.edited settings source doc = .ok (some e) →
          ∃ after, Document.read e.source = .ok after) ∧
        ∃ i, Invocation.read
            ["move".toList, file, "Cup".toList, "1".toList, "0".toList, "--write".toList] = .ok i ∧
          opened.result = .ok (.flag true) ∧
          ¬ SameEdit file (i.run [] d) (opened.workspace.run [] edit.action) := by
  intro file source content d settings edit opened
  obtain ⟨doc, read⟩ : ∃ doc, Document.read source = .ok doc :=
    (exists_read_iff _).2 (by decide +kernel)
  have moved : edit.edited settings source doc = .ok (some
      { lineNumber := 1, written := "1.00, 0.00".toList,
        source := "component Cup [1.00, 0.00]".toList }) := by
    dsimp only [edit, MapEdit.edited]
    decide +kernel
  have line : edit.Line file
      ["move".toList, file, "Cup".toList, "1".toList, "0".toList, "--write".toList] :=
    .move (by decide +kernel) (by decide +kernel) (by decide +kernel)
  refine ⟨by decide +kernel, rfl, by decide +kernel, by decide +kernel, doc, read,
    readable_of_edited moved (by decide +kernel), _, line.read, by decide +kernel, fun same => ?_⟩
  have answered : (opened.workspace.run [] edit.action).result = .ok (.flag true) := by
    decide +kernel
  have success := same.success.2 answered
  revert success
  decide +kernel

end WardleyMaps
