/-
Module: WardleyMaps.Proofs.Command.Files
Purpose: Which files a command changes.
Main exports: LogWorld.Bystander, CommandOutcome.WritesShown, Command.writesShown,
  Invocation.writesShown, Invocation.run_files
-/
import WardleyMaps.Proofs.Command.SameEdit
import WardleyMaps.Proofs.Command.WriteSwitch
import WardleyMaps.Proofs.Files.Utf8

namespace WardleyMaps

open Text

/-!
Without a log file a command writes at one point only, after all else that can fail has been done.
So a command that edits a file either leaves the directory as it was, or it puts into its file the
text that it prints when it is not told to write (`Invocation.run_files`). The write itself is the
last thing that may fail, and it may do so after the file was emptied: then the command has no
success and the first bytes of the text are what is left. Both runs go through the same steps up to
the last one, and are compared there (`LogWorld.deliver_files`).
-/

/-! ### The log -/

/-- The log of a world writes to the console only, and the files are those of a directory. -/
structure LogWorld.Bystander (w : LogWorld) (d : Directory) : Prop where
  console : ∀ h ∈ w.log.handlers, h.sink = .console
  directory : w.directory = d

namespace LogWorld

variable {w : LogWorld} {d : Directory} {stamp file source : Text}

theorem Bystander.emit (h : w.Bystander d) (stamp : Text) (e : LogEntry) :
    (emit stamp w e).Bystander d := by
  obtain ⟨same, console⟩ := emit_of_console h.console stamp e
  exact ⟨console, same.trans h.directory⟩

theorem Bystander.emitAll (h : w.Bystander d) (stamp : Text) (es : List LogEntry) :
    (w.emitAll stamp es).Bystander d := by
  induction es generalizing w with
  | nil => exact h
  | cons e rest ih => exact ih (h.emit stamp e)

theorem bystander_configure (d : Directory) {s : LogSettings} (fileless : s.logFile = []) :
    (configure { log := {}, directory := d } s).Bystander d :=
  ⟨(configure_of_console d fileless).2, (configure_of_console d fileless).1⟩

end LogWorld

/-! ### Two runs -/

/-- What a command has done to a directory, next to what the same command shows without writing. The
latter leaves all files as they are, and so does a command that does not write. A command that
writes ends as the other one, unless that one succeeds: then it writes what is shown into its file,
and ends with whether that could be done. -/
structure CommandOutcome.WritesShown (d : Directory) (file : Text) (writes : Bool)
    (o shown : CommandOutcome) : Prop where
  shown_untouched : shown.world.directory = d
  silent : writes = false → o.world.directory = d
  stopped : shown.result ≠ .ok codeSuccess → o.result = shown.result ∧ o.world.directory = d
  written : writes = true → shown.result = .ok codeSuccess →
    o.result = .ok (if d.writable file then codeSuccess else codeUnreadable) ∧
      o.world.directory = d.afterWrite file (Utf8.encode shown.output)

section

variable {w : LogWorld} {d : Directory} {file source : Text} {write : Bool}

/-- A command that stops before it delivers leaves the files as they are. -/
theorem CommandOutcome.writesShown_of_stopped {o : CommandOutcome}
    (untouched : o.world.directory = d) (failed : o.result ≠ .ok codeSuccess) :
    o.WritesShown d file write o where
  shown_untouched := untouched
  silent := fun _ => untouched
  stopped := fun _ => ⟨rfl, untouched⟩
  written := fun _ success => absurd success failed

/-- A command that never writes leaves the files as they are. -/
theorem CommandOutcome.writesShown_of_silent {o : CommandOutcome}
    (untouched : o.world.directory = d) : o.WritesShown d file false o where
  shown_untouched := untouched
  silent := fun _ => untouched
  stopped := fun _ => ⟨rfl, untouched⟩
  written := by rintro ⟨⟩

namespace CommandOutcome.WritesShown

variable {writes : Bool} {o shown : CommandOutcome}

/-- A command that succeeds in writing could write what the other one shows. -/
theorem success (h : o.WritesShown d file writes shown) (asked : writes = true)
    (success : o.result = .ok codeSuccess) :
    shown.result = .ok codeSuccess ∧ d.writable file = true := by
  by_cases succeeds : shown.result = .ok codeSuccess
  · refine ⟨succeeds, ?_⟩
    have ends := (h.written asked succeeds).1
    by_contra refused
    rw [success, if_neg refused] at ends
    cases ends
  · exact absurd ((h.stopped succeeds).1 ▸ success) succeeds

/-- Files stay as they are unless a command writes and has success in it or is interrupted. -/
theorem untouched (h : o.WritesShown d file writes shown)
    (parted : ¬ (writes = true ∧ shown.result = .ok codeSuccess ∧ (o.result = .ok codeSuccess ∨
      o.result = .ok codeUnreadable ∧ ∃ p stored, d.Interrupted file p stored))) :
    o.world.directory = d := by
  cases asked : writes with
  | false => exact h.silent asked
  | true =>
      by_cases succeeds : shown.result = .ok codeSuccess
      · obtain ⟨ends, after⟩ := h.written asked succeeds
        by_cases writable : d.writable file = true
        · rw [if_pos writable] at ends
          exact absurd ⟨asked, succeeds, .inl ends⟩ parted
        · rw [if_neg writable] at ends
          rw [after]
          refine (Directory.afterWrite_of_not_writable writable _).resolve_right ?_
          exact fun interrupted => parted ⟨asked, succeeds, .inr ⟨ends, interrupted⟩⟩
      · exact (h.stopped succeeds).2

end CommandOutcome.WritesShown

namespace LogWorld

theorem failing_files (h : w.Bystander d) (f : Fault) :
    (w.failing f).WritesShown d file write (w.failing f) :=
  CommandOutcome.writesShown_of_stopped h.directory (by rintro ⟨⟩)

theorem complaining_files (h : w.Bystander d) (complaint : Text) {code : Nat}
    (failed : code ≠ codeSuccess) :
    (w.complaining complaint code).WritesShown d file write (w.complaining complaint code) :=
  CommandOutcome.writesShown_of_stopped h.directory
    fun success => failed (Except.ok.inj success)

/-- The point at which both runs part. -/
theorem deliver_files (h : w.Bystander d) (file source : Text) (write : Bool) :
    (w.deliver file source write).WritesShown d file write (w.deliver file source false) := by
  unfold deliver
  rw [if_neg Bool.false_ne_true]
  cases write with
  | false => exact CommandOutcome.writesShown_of_silent h.directory
  | true =>
      refine
        { shown_untouched := h.directory
          silent := by rintro ⟨⟩
          stopped := fun failed => absurd rfl failed
          written := fun _ _ => ?_ }
      have writable : (d.write file (Utf8.encode source)).isOk = d.writable file :=
        Directory.isOk_write
      rw [if_pos rfl, h.directory, Directory.writeText, ← writable]
      unfold Directory.afterWrite printing
      cases d.write file (Utf8.encode source) with
      | error failed => exact ⟨rfl, rfl⟩
      | ok directory => exact ⟨rfl, rfl⟩

theorem deliverEdit_files (h : w.Bystander d) (stamp : Text) (edited : Except Fault (Option Edited))
    (entries : Option Edited → List LogEntry) (complaint : Text) :
    (w.deliverEdit stamp file write edited entries complaint).WritesShown d file write
      (w.deliverEdit stamp file false edited entries complaint) := by
  cases edited with
  | error f => exact failing_files h f
  | ok found =>
      cases found with
      | none => exact complaining_files (h.emitAll stamp _) complaint (by decide)
      | some e => exact deliver_files (h.emitAll stamp _) file e.source write

/-- Two runs that go on with the same text of a file. -/
theorem withText_files (h : w.Bystander d) {next shown : Text → CommandOutcome}
    (each : ∀ source, (next source).WritesShown d file write (shown source)) :
    (w.withText file next).WritesShown d file write (w.withText file shown) := by
  unfold withText
  cases unusablePath? file with
  | some fault => exact failing_files h _
  | none =>
      cases w.directory.readText file with
      | error fault => exact complaining_files h _ (by decide)
      | ok source => exact each source

end LogWorld

/-- A command that edits a file, and the one that prints. -/
theorem Command.writesShown (h : w.Bystander d) (stamp : Text) (store : SettingsStore) {c : Command}
    (asked : c.file? = some file) :
    (c.run w stamp store).WritesShown d file c.writes (c.withoutWrite.run w stamp store) := by
  cases c with
  | parse other json strict =>
      cases asked
      refine LogWorld.withText_files h fun source => ?_
      cases Document.read source with
      | error e => exact LogWorld.failing_files h _
      | ok doc =>
          exact CommandOutcome.writesShown_of_silent (h.emitAll stamp _).directory
  | move other name first second pixels write =>
      cases asked
      refine LogWorld.withText_files h fun source => ?_
      cases pixels with
      | false => exact LogWorld.deliverEdit_files h stamp _ _ _
      | true =>
          cases target : targetPosition w stamp store.settings.canvas source first second true with
          | error f => exact LogWorld.failing_files h f
          | ok placed =>
              obtain ⟨doc, s, x, y, -, -, -, -, rfl⟩ := targetPosition_eq_ok.1 target
              exact LogWorld.deliverEdit_files (h.emitAll stamp _) stamp _ _ _
  | evolve other name maturity write =>
      cases asked
      exact LogWorld.withText_files h fun source => LogWorld.deliverEdit_files h stamp _ _ _
  | settings pathOnly => cases asked

end

/-- The same of a whole invocation. -/
theorem Invocation.writesShown (i : Invocation) (stamp : Text) (d : Directory) {file : Text}
    (asked : i.command.file? = some file)
    (fileless : ∀ s, SettingsStore.load d = .ok s → s.logging.logFile = []) :
    (i.run stamp d).WritesShown d file i.command.writes (i.withoutWrite.run stamp d) := by
  unfold run SettingsStore.ofDirectory
  cases loaded : SettingsStore.load d with
  | error e => exact CommandOutcome.writesShown_of_stopped rfl (by rintro ⟨⟩)
  | ok s =>
      have noFile : (i.logSettings s.logging).logFile = [] := fileless s loaded
      have noFile' : (i.withoutWrite.logSettings s.logging).logFile = [] := fileless s loaded
      have usable : unusablePath? [] = none := rfl
      have begun := (LogWorld.bystander_configure d noFile).emit stamp
        (.trace "MAIN".toList ("command ".toList ++ i.command.name))
      have both := i.command.writesShown begun stamp
        { settings := s, missing := !d.present settingsFile } asked
      simp only [Except.map, noFile, noFile', usable]
      rw [withoutWrite, Command.name_withoutWrite]
      exact
        { shown_untouched := both.shown_untouched
          silent := both.silent
          stopped := both.stopped
          written := both.written }

/-- A command line that asks for a command with a file changes no file unless a word on it asks to
write, the same line without such words would succeed, and the command succeeds too or its write is
interrupted. After a success the file holds what that line prints, and nothing else changed. If the
write is interrupted, the command ends with the code of files that cannot be written, the file holds
the first bytes of what would be printed, and nothing else changed. -/
theorem Invocation.run_files {args : List Text} {i : Invocation}
    (line : Invocation.read args = .ok i) (stamp : Text) (d : Directory) {file : Text}
    (asked : i.command.file? = some file)
    (fileless : ∀ s, SettingsStore.load d = .ok s → s.logging.logFile = []) :
    let o := i.run stamp d
    let shown := i.withoutWrite.run stamp d
    let bytes := Utf8.encode shown.output
    (¬ (asksToWrite args = true ∧ shown.result = .ok codeSuccess ∧ (o.result = .ok codeSuccess ∨
        o.result = .ok codeUnreadable ∧ ∃ p stored, d.Interrupted file p stored)) →
      o.world.directory = d) ∧
    shown.world.directory = d ∧
    (KeepsHyphens args → Invocation.read (withoutWriteSwitches args) = .ok i.withoutWrite) ∧
    (asksToWrite args = true → o.result = .ok codeSuccess →
      shown.result = .ok codeSuccess ∧ d.Rewrites file bytes o.world.directory) ∧
    (asksToWrite args = true → shown.result = .ok codeSuccess →
      ∀ p stored, d.Interrupted file p stored →
        o.result = .ok codeUnreadable ∧
          d.Rewrites file (bytes.take stored) o.world.directory) := by
  intro o shown bytes
  obtain ⟨asks, without⟩ := Invocation.read_withoutWriteSwitches line
  have both := i.writesShown stamp d asked fileless
  rw [asks] at both
  refine ⟨both.untouched, both.shown_untouched, without, fun writes success => ?_,
    fun writes succeeds p stored interrupted => ?_⟩
  · obtain ⟨succeeds, writable⟩ := both.success writes success
    obtain ⟨p, leads, place, fine⟩ := Directory.writable_iff.1 writable
    have written : d.write file bytes = .ok (d.set p (.file bytes)) :=
      Directory.write_eq_ok.2 ⟨p, leads, place, fine, rfl⟩
    have after : o.world.directory = d.set p (.file bytes) :=
      (both.written writes succeeds).2.trans (Directory.afterWrite_of_eq_ok written)
    exact ⟨succeeds, after ▸ Directory.rewrites_set leads place bytes⟩
  · obtain ⟨ends, left⟩ := both.written writes succeeds
    rw [if_neg interrupted.not_writable] at ends
    have after : o.world.directory = d.set p (.file (bytes.take stored)) :=
      left.trans (interrupted.afterWrite_eq bytes)
    exact ⟨ends, after ▸ Directory.rewrites_set interrupted.leads interrupted.file _⟩

/-- A file with line ends of two kinds, and nothing else. -/
def teaDirectory : Directory where
  nodes :=
    [(["tea.owm".toList], .file (Utf8.encode "title Té\r\ncomponent Cup [0.1, 0.2]\n".toList))]

/-- The same with room for eight bytes when the file is written. -/
def fullDirectory : Directory :=
  { teaDirectory with troubles := [(["tea.owm".toList], .interrupted 8)] }

/-- What moves the cup in that file. -/
def moveCup : Invocation where
  verbose := false
  trace := false
  command := .move "tea.owm".toList (some "Cup".toList) (some 0.5) (some 0.25) false true

/-- A line that asks for this. -/
def moveCupLine : List Text :=
  ["move".toList, "tea.owm".toList, "Cup".toList, "--write".toList, "0.5".toList, "0.25".toList]

/-- The cup is moved in the file, or as far as there is room: here up to the first half of a letter.
-/
theorem Invocation.run_files_tea :
    Invocation.read moveCupLine = .ok moveCup ∧
      Invocation.read ["move".toList, "tea.owm".toList, "Cup".toList, "0.5".toList,
        "0.25".toList] = .ok moveCup.withoutWrite ∧
      (moveCup.withoutWrite.run [] teaDirectory).output =
        "title Té\r\ncomponent Cup [0.50, 0.25]\n".toList ∧
      (moveCup.run [] teaDirectory).world.directory.read "tea.owm".toList =
        .ok (Utf8.encode "title Té\r\ncomponent Cup [0.50, 0.25]\n".toList) ∧
      (moveCup.run [] fullDirectory).world.directory.read "tea.owm".toList =
        .ok (Utf8.encode "title T".toList ++ [0xC3]) := by
  have line : Invocation.read moveCupLine = .ok moveCup := by decide +kernel
  have shown : (moveCup.withoutWrite.run [] teaDirectory).output =
      "title Té\r\ncomponent Cup [0.50, 0.25]\n".toList := by decide +kernel
  have shown' : (moveCup.withoutWrite.run [] fullDirectory).output =
      "title Té\r\ncomponent Cup [0.50, 0.25]\n".toList := by decide +kernel
  have asked : moveCup.command.file? = some "tea.owm".toList := by decide +kernel
  have fileless : ∀ d ∈ [teaDirectory, fullDirectory], ∀ s, SettingsStore.load d = .ok s →
      s.logging.logFile = [] := by
    have standard : ∀ d ∈ [teaDirectory, fullDirectory], SettingsStore.load d = .ok {} := by
      decide +kernel
    intro d mem s loaded
    rw [← Except.ok.inj ((standard d mem).symm.trans loaded)]
  obtain ⟨-, -, without, written, -⟩ :=
    Invocation.run_files line [] teaDirectory asked (fileless _ (by simp))
  obtain ⟨-, written⟩ := written (by decide +kernel) (by decide +kernel)
  obtain ⟨-, -, -, -, cut⟩ :=
    Invocation.run_files line [] fullDirectory asked (fileless _ (by simp))
  obtain ⟨-, cut⟩ := cut (by decide +kernel) (by decide +kernel) ["tea.owm".toList] 8
    { leads := by decide +kernel, file := by decide +kernel, trouble := by decide +kernel }
  refine ⟨line, without (by decide +kernel), shown, by rw [written.content, shown], ?_⟩
  rw [cut.content, shown']
  decide +kernel

/-- A line that asks to evolve the cup and to write, with a word that is cut short. -/
def evolveCupLine : List Text :=
  ["evolve".toList, "tea.owm".toList, "Cup".toList, "--w".toList, "0.25".toList]

/-- A line that asks to evolve what has two hyphens for a name. -/
def evolveHyphensLine : List Text :=
  ["evolve".toList, "tea.owm".toList, "--write".toList, "--".toList, "--".toList, "0.25".toList]

/-- A file may change without the whole word that asks to write, which may be cut short, and without
success, since a write that is interrupted has emptied the file before. Nor need the line without
the word print what is written, if hyphens follow the word. -/
theorem Invocation.changed_without_word_or_success :
    let source : Text :=
      "title Tea\ncomponent Cup [0.73, 0.78]\nevolve Cup 0.9\nevolve -- 0.5\n".toList
    let file : Text := "tea.owm".toList
    let d : Directory := { nodes := [([file], .file (Utf8.encode source))] }
    let evolve (name : Option Text) (write : Bool) : Invocation :=
      { verbose := false, trace := false, command := .evolve file name (some 0.25) write }
    let evolveCup := evolve (some "Cup".toList) true
    let evolveHyphens := evolve (some "--".toList) true
    let evolveBlank := evolve none false
    SettingsStore.load d = .ok {} ∧ SettingsStore.load fullDirectory = .ok {} ∧
      (Invocation.read evolveCupLine = .ok evolveCup ∧ "--write".toList ∉ evolveCupLine ∧
        (evolveCup.run [] d).world.directory.read file ≠ d.read file) ∧
      (Invocation.read moveCupLine = .ok moveCup ∧
        (moveCup.run [] fullDirectory).result = .ok codeUnreadable ∧
        (moveCup.run [] fullDirectory).world.directory.read file ≠ fullDirectory.read file) ∧
      Invocation.read evolveHyphensLine = .ok evolveHyphens ∧
        Invocation.read (withoutWriteSwitches evolveHyphensLine) = .ok evolveBlank ∧
        (evolveHyphens.run [] d).result = .ok codeSuccess ∧
        (evolveHyphens.run [] d).world.directory.read file ≠
          .ok (Utf8.encode (evolveBlank.run [] d).output) := by
  intro source file d evolve evolveCup evolveHyphens evolveBlank
  refine ⟨?_, ?_, ⟨?_, ?_, ?_⟩, ⟨?_, ?_, ?_⟩, ?_, ?_, ?_, ?_⟩ <;> decide +kernel

end WardleyMaps
