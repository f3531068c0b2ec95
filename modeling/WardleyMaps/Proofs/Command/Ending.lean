/-
Module: WardleyMaps.Proofs.Command.Ending
Purpose: Which invocations end with a code, and which with a fault.
Main exports: CommandOutcome.EndsIff, Command.Served, Invocation.Managed, Invocation.endsIff_run
-/
import WardleyMaps.Proofs.Command.SameEdit
import WardleyMaps.Proofs.Edit.Drawn
import WardleyMaps.Proofs.Files.Utf8
import WardleyMaps.Proofs.Settings.Load

namespace WardleyMaps

open Text

/-!
A command that complains ends with a code as well as one that succeeds. Only the faults of what it
calls pass through it, and each of them has its cause in what the invocation is given: the settings
file, the names of files, the operands, the numbers of annotations, the size of the surface, the
number of places. The causes are listed by what must not be the case (`Command.Served`,
`Invocation.Managed`), and an invocation ends with one of the three codes exactly if none of them is
(`Invocation.endsIff_run`).
-/

/-- The codes with which commands end: 0, 1 and 2. -/
def KnownCode (code : Nat) : Prop :=
  code = codeSuccess ∨ code = codeNoMatch ∨ code = codeUnreadable

/-- An outcome has one of the three codes or a fault, and it has a code exactly on a condition. -/
structure CommandOutcome.EndsIff (o : CommandOutcome) (P : Prop) : Prop where
  coded : ∀ code, o.result = .ok code → KnownCode code
  ends_iff : (∃ code, o.result = .ok code) ↔ P

/-! ### What commands ask for -/

/-- No line of a source has a number that is too long. -/
def NumbersFit (source : Text) : Prop :=
  ∀ line ∈ bareLines source, numberTooLong line = false

/-- A number of places with which coordinates can be written. -/
def UsablePlaces (precision : Int) : Prop :=
  0 ≤ precision ∧ precision < (Nat.pow 2 31 : Nat)

/-- The surface for a document: of its own size if it asks for one, else of that of the settings. -/
def CanvasSettings.surfaceFor (canvas : CanvasSettings) (doc : Document) : Surface Double :=
  let size := doc.presentation.size
  if size.isSet then { width := size.width, height := size.height, padding := canvas.padding }
  else { width := canvas.width, height := canvas.height, padding := canvas.padding }

/-- Something is left of a surface inside its padding. -/
def Surface.HasRoom (s : Surface Double) : Prop :=
  s.spanX.le 0 = false ∧ s.spanY.le 0 = false

/-- The pixels of the surface for a source stand for positions. -/
def CanvasSettings.Shows (canvas : CanvasSettings) (source : Text) : Prop :=
  NumbersFit source ∧
    ∀ doc, Document.read source = .ok doc → (canvas.surfaceFor doc).HasRoom

/-- Some line of a source evolves a name. -/
def Evolves (source name : Text) : Prop :=
  ∃ form ∈ sourceForms source, maturitySpan name form ≠ none

/-- The integers of the settings have no more digits than are written. -/
structure Settings.ShortIntegers (s : Settings) : Prop where
  precision : (ofNat s.editor.coordinatePrecision.natAbs).length ≤ maxIntegerDigits
  debounce : (ofNat s.watcher.debounceMs.natAbs).length ≤ maxIntegerDigits

/-- What a command asks of its operands, the settings and the text of its file: what it reads as a
map has no number that is too long, what it writes has a usable number of places, and no operand
that it comes to use is blank. -/
def Command.Served (s : Settings) (source : Text) : Command → Prop
  | .parse _ _ _ => NumbersFit source
  | .move _ name first second pixels _ =>
      name.isSome ∧ first.isSome ∧ second.isSome ∧
        UsablePlaces s.editor.coordinatePrecision ∧ (pixels = true → s.canvas.Shows source)
  | .evolve _ name maturity _ =>
      ∃ t, name = some t ∧
        (Evolves source t → maturity.isSome ∧ UsablePlaces s.editor.coordinatePrecision)
  | .settings _ => True

/-- What the command that shows the settings asks of the directory: the file is present, or it can
be made. Settings that are to be shown must have short integers. -/
def Settings.Shown (s : Settings) (d : Directory) (pathOnly : Bool) : Prop :=
  if d.present settingsFile then pathOnly = true ∨ s.ShortIntegers
  else ∃ d', d.ensureFolder settingsFolder = .ok d' ∧ d'.writable settingsFile = true

/-! ### Parts of commands -/

section

variable {w : LogWorld} {stamp file source : Text} {P : Prop}

theorem CommandOutcome.EndsIff.of_iff {o : CommandOutcome} {Q : Prop} (h : o.EndsIff P)
    (same : P ↔ Q) : o.EndsIff Q where
  coded := h.coded
  ends_iff := h.ends_iff.trans same

/-- Only the result of an outcome matters. -/
theorem CommandOutcome.EndsIff.of_result {o other : CommandOutcome} (h : o.EndsIff P)
    (same : other.result = o.result) : other.EndsIff P where
  coded := same ▸ h.coded
  ends_iff := same ▸ h.ends_iff

namespace LogWorld

theorem endsIff_failing (w : LogWorld) (f : Fault) (never : ¬ P) : (w.failing f).EndsIff P where
  coded := by rintro code ⟨⟩
  ends_iff := iff_of_false (by rintro ⟨code, ⟨⟩⟩) never

theorem endsIff_printing (w : LogWorld) (output : Text) {code : Nat} (known : KnownCode code)
    (always : P) : (w.printing output code).EndsIff P where
  coded := by rintro other ⟨⟩; exact known
  ends_iff := iff_of_true ⟨code, rfl⟩ always

theorem endsIff_complaining (w : LogWorld) (complaint : Text) {code : Nat} (known : KnownCode code)
    (always : P) : (w.complaining complaint code).EndsIff P where
  coded := by rintro other ⟨⟩; exact known
  ends_iff := iff_of_true ⟨code, rfl⟩ always

/-- A command that reads a file has a code if it cannot, and otherwise ends as what it goes on with
does. -/
theorem endsIff_withText {next : Text → CommandOutcome} {Q : Text → Prop}
    (each : ∀ source, (next source).EndsIff (Q source)) :
    (w.withText file next).EndsIff
      ('\x00' ∉ file ∧ ∀ source, w.directory.readText file = .ok source → Q source) := by
  unfold withText
  cases usable : unusablePath? file with
  | some fault =>
      refine endsIff_failing w _ fun h => ?_
      rw [Directory.unusablePath?_eq_none.2 h.1] at usable
      cases usable
  | none =>
      have named := Directory.unusablePath?_eq_none.1 usable
      cases content : w.directory.readText file with
      | error fault =>
          exact endsIff_complaining w _ (.inr (.inr rfl)) ⟨named, by rintro source ⟨⟩⟩
      | ok source =>
          refine (each source).of_iff ⟨fun h => ⟨named, ?_⟩, fun h => h.2 source rfl⟩
          rintro other ⟨⟩
          exact h

/-- An edit that was made is delivered, or it is complained about. -/
theorem endsIff_deliver (w : LogWorld) (file source : Text) (write : Bool) (always : P) :
    (w.deliver file source write).EndsIff P := by
  unfold deliver
  cases write with
  | false => exact endsIff_printing w source (.inl rfl) always
  | true =>
      cases w.directory.writeText file source with
      | error failed =>
          exact endsIff_complaining { w with directory := failed.directory } _ (.inr (.inr rfl))
            always
      | ok directory => exact endsIff_printing { w with directory } [] (.inl rfl) always

theorem endsIff_deliverEdit (w : LogWorld) (stamp file : Text) (write : Bool)
    (edited : Except Fault (Option Edited)) (entries : Option Edited → List LogEntry)
    (complaint : Text) :
    (w.deliverEdit stamp file write edited entries complaint).EndsIff
      (∃ found, edited = .ok found) := by
  cases edited with
  | error f => exact endsIff_failing w f (by rintro ⟨found, ⟨⟩⟩)
  | ok found =>
      cases found with
      | none => exact endsIff_complaining _ complaint (.inr (.inl rfl)) ⟨_, rfl⟩
      | some e => exact endsIff_deliver _ file e.source write ⟨_, rfl⟩

end LogWorld

/-! ### Edits -/

theorem exists_placesOf_iff {precision : Int} :
    (∃ places, placesOf precision = .ok places) ↔ UsablePlaces precision := by
  rw [placesOf, UsablePlaces]
  split
  · next usable =>
    rw [Bool.and_eq_true, decide_eq_true_eq, decide_eq_true_eq] at usable
    exact iff_of_true ⟨_, rfl⟩ usable
  · next other =>
    rw [Bool.and_eq_true, decide_eq_true_eq, decide_eq_true_eq] at other
    exact iff_of_false (by rintro ⟨places, ⟨⟩⟩) other

theorem exists_fixedText_iff {precision : Int} (x : Double) :
    (∃ t, x.fixedText precision = .ok t) ↔ UsablePlaces precision := by
  rw [← exists_placesOf_iff, Double.fixedText]
  cases placesOf precision <;> simp [Except.map]

/-- A position can be written exactly with a usable number of places, whether or not there is
something to edit. -/
theorem exists_updatePosition_iff {name : Text} {position : Position} {precision : Int} :
    (∃ found, updatePosition source name position precision = .ok found) ↔
      UsablePlaces precision := by
  constructor
  · rintro ⟨found, moved⟩
    obtain ⟨pair, written, -⟩ := bind_eq_ok.1 moved
    obtain ⟨visibility, -, first, -, -⟩ := pairText_eq_ok.1 written
    exact (exists_fixedText_iff _).1 ⟨visibility, first⟩
  · rintro ⟨least, most⟩
    obtain ⟨pair, written⟩ := exists_pairText least most position
    exact ⟨_, bind_eq_ok.2 ⟨pair, written, rfl⟩⟩

theorem updateEvolution_eq_none_iff_not_evolves {name : Text} (maturity : Double)
    (precision : Int) :
    updateEvolution source name maturity precision = .ok none ↔ ¬ Evolves source name := by
  simp [updateEvolution_eq_none, Evolves]

/-- A maturity is written only if there is something to edit. -/
theorem exists_updateEvolution_iff {name : Text} {maturity : Double} {precision : Int} :
    (∃ found, updateEvolution source name maturity precision = .ok found) ↔
      (Evolves source name → UsablePlaces precision) := by
  by_cases evolves : Evolves source name
  · rw [forall_prop_of_true evolves, ← exists_fixedText_iff maturity]
    have located : locateFirst (maturitySpan name) (sourceForms source) ≠ none := by
      simpa [locateFirst_eq_none, Evolves] using evolves
    obtain ⟨place, located⟩ := Option.ne_none_iff_exists'.1 located
    rw [updateEvolution, located]
    cases maturity.fixedText precision <;> simp [Except.map]
  · exact iff_of_true ⟨none, (updateEvolution_eq_none_iff_not_evolves _ _).2 evolves⟩
      fun yes => absurd yes evolves

/-- A name is found unless it is blank. -/
theorem soughtName_eq_ok {name : Option Text} {t : Text} :
    soughtName name = .ok t ↔ name = some t := by
  cases name <;> simp [soughtName]

/-- Two numbers are written if neither is blank. -/
theorem writtenPair_eq_ok {precision : Int} {first second : Option Double} {x y : Double} :
    writtenPair precision first second = .ok { visibility := x, maturity := y } ↔
      first = some x ∧ second = some y := by
  cases first with
  | none => simp [writtenPair]
  | some visibility =>
      cases second with
      | none =>
          rw [writtenPair]
          cases placesOf precision <;> simp
      | some maturity => simp [writtenPair]

theorem exists_movedTo_iff {name : Option Text} {first second : Option Double}
    {precision : Int} :
    (∃ found, movedTo source name first second precision = .ok found) ↔
      name.isSome ∧ first.isSome ∧ second.isSome ∧ UsablePlaces precision := by
  simp only [movedTo, bind_eq_ok, mapError_eq_ok, soughtName_eq_ok]
  constructor
  · rintro ⟨found, t, rfl, position, written, moved⟩
    obtain ⟨rfl, rfl⟩ := writtenPair_eq_ok.1 written
    exact ⟨rfl, rfl, rfl, exists_updatePosition_iff.1 ⟨found, moved⟩⟩
  · rintro ⟨named, hfirst, hsecond, places⟩
    obtain ⟨t, rfl⟩ := Option.isSome_iff_exists.1 named
    obtain ⟨x, rfl⟩ := Option.isSome_iff_exists.1 hfirst
    obtain ⟨y, rfl⟩ := Option.isSome_iff_exists.1 hsecond
    obtain ⟨found, moved⟩ := exists_updatePosition_iff.2 places
    exact ⟨found, t, rfl, _, writtenPair_eq_ok.2 ⟨rfl, rfl⟩, moved⟩

theorem exists_evolvedTo_iff {name : Option Text} {maturity : Option Double} {precision : Int} :
    (∃ found, evolvedTo source name maturity precision = .ok found) ↔
      ∃ t, name = some t ∧ (Evolves source t → maturity.isSome ∧ UsablePlaces precision) := by
  simp only [evolvedTo, bind_eq_ok, soughtName_eq_ok]
  rw [exists_comm]
  refine exists_congr fun t => ?_
  rw [exists_and_left]
  refine and_congr_right fun _ => ?_
  cases maturity with
  | some m => simp [mapError_eq_ok, exists_updateEvolution_iff]
  | none =>
      simp only [Option.isSome_none, Bool.false_eq_true, false_and, imp_false]
      rw [← updateEvolution_eq_none_iff_not_evolves 0 precision]
      -- A blank number is no fault where there is nothing to edit.
      split
      · next nothing => exact iff_of_true ⟨none, rfl⟩ nothing
      · next other => exact iff_of_false (by rintro ⟨found, ⟨⟩⟩) other

/-! ### Pixels -/

theorem forMap_eq (doc : Document) (canvas : CanvasSettings) :
    Surface.forMap (some doc) canvas = Surface.make (canvas.surfaceFor doc) := by
  unfold Surface.forMap CanvasSettings.surfaceFor
  cases own : doc.presentation.size.isSet <;> simp [Option.filter, own]

theorem exists_make_iff {s : Surface Double} :
    (∃ made, Surface.make s = .ok made) ↔ s.HasRoom := by
  rw [Surface.make, Surface.HasRoom]
  cases s.spanX.le 0 <;> cases s.spanY.le 0 <;> simp

/-- Two numbers of pixels give a position if there is something to draw on. -/
theorem exists_targetPosition_iff {canvas : CanvasSettings} {first second : Option Double} :
    (∃ target, targetPosition w stamp canvas source first second true = .ok target) ↔
      first.isSome ∧ second.isSome ∧ canvas.Shows source := by
  simp only [targetPosition_eq_ok]
  constructor
  · rintro ⟨-, doc, s, x, y, read, made, rfl, rfl, -⟩
    refine ⟨rfl, rfl, (exists_read_iff source).1 ⟨doc, read⟩, fun other read' => ?_⟩
    cases read.symm.trans read'
    exact exists_make_iff.1 ⟨s, (forMap_eq doc canvas).symm.trans made⟩
  · rintro ⟨hfirst, hsecond, fit, room⟩
    obtain ⟨x, rfl⟩ := Option.isSome_iff_exists.1 hfirst
    obtain ⟨y, rfl⟩ := Option.isSome_iff_exists.1 hsecond
    obtain ⟨doc, read⟩ := (exists_read_iff source).2 fit
    obtain ⟨s, made⟩ := exists_make_iff.2 (room doc read)
    exact ⟨_, doc, s, x, y, read, (forMap_eq doc canvas).trans made, rfl, rfl, rfl⟩

/-! ### Commands -/

/-- A command with a file ends with a code if the file can be named and, should it hold a text, if
the text serves the command. -/
theorem Command.endsIff_run_of_file (w : LogWorld) (stamp : Text) (store : SettingsStore)
    {c : Command} (asked : c.file? = some file) :
    (c.run w stamp store).EndsIff ('\x00' ∉ file ∧
      ∀ source, w.directory.readText file = .ok source → c.Served store.settings source) := by
  cases c with
  | parse other json strict =>
      cases asked
      refine LogWorld.endsIff_withText fun source => ?_
      cases read : Document.read source with
      | error e =>
          refine LogWorld.endsIff_failing w _ fun fit => ?_
          obtain ⟨doc, read'⟩ := (exists_read_iff source).2 fit
          cases read.symm.trans read'
      | ok doc =>
          refine LogWorld.endsIff_printing _ _ ?_ ((exists_read_iff source).1 ⟨doc, read⟩)
          split
          · exact .inr (.inl rfl)
          · exact .inl rfl
  | move other name first second pixels write =>
      cases asked
      refine LogWorld.endsIff_withText fun source => ?_
      cases pixels with
      | false =>
          refine (LogWorld.endsIff_deliverEdit w stamp file write _ _ _).of_iff ?_
          simp [exists_movedTo_iff, Served]
      | true =>
          cases target : targetPosition w stamp store.settings.canvas source first second true with
          | error f =>
              refine LogWorld.endsIff_failing w f fun served => ?_
              obtain ⟨-, hfirst, hsecond, -, shows⟩ := served
              obtain ⟨target', placed⟩ :=
                exists_targetPosition_iff.2 ⟨hfirst, hsecond, shows rfl⟩
              cases target.symm.trans placed
          | ok placed =>
              obtain ⟨hfirst, hsecond, shows⟩ := exists_targetPosition_iff.1 ⟨placed, target⟩
              obtain ⟨doc, s, x, y, -, -, -, -, rfl⟩ := targetPosition_eq_ok.1 target
              refine (LogWorld.endsIff_deliverEdit _ stamp file write _ _ _).of_iff ?_
              simp [exists_movedTo_iff, Served, hfirst, hsecond, shows]
  | evolve other name maturity write =>
      cases asked
      refine LogWorld.endsIff_withText fun source => ?_
      exact (LogWorld.endsIff_deliverEdit w stamp file write _ _ _).of_iff exists_evolvedTo_iff
  | settings pathOnly => cases asked

end

/-! ### The settings -/

/-- All lines are written unless one of them cannot be. -/
theorem writeLines_eq_none_iff {ε : Type} {l : List (Except ε Text)} :
    (writeLines l).2 = none ↔ ∀ line ∈ l, ∃ t, line = .ok t := by
  induction l with
  | nil => simp [writeLines]
  | cons line rest ih =>
      cases line with
      | error e => simp [writeLines]
      | ok t => simp [writeLines, ih]

theorem exists_integerLine_iff {key : String} {i : Int} :
    (∃ t, integerLine key i = .ok t) ↔ (ofNat i.natAbs).length ≤ maxIntegerDigits := by
  rw [integerLine, writeInteger]
  split
  · next long => exact iff_of_false (by rintro ⟨t, ⟨⟩⟩) (Nat.not_le.2 long)
  · next short => exact iff_of_true ⟨_, rfl⟩ (Nat.not_lt.1 short)

/-- The settings are written as a whole if their integers are short. -/
theorem Settings.exists_written_iff {s : Settings} :
    (∃ t, s.written = (t, none)) ↔ s.ShortIntegers := by
  have whole : (∃ t, s.written = (t, none)) ↔ s.written.2 = none :=
    ⟨by rintro ⟨t, h⟩; rw [h], fun h => ⟨s.written.1, Prod.ext rfl h⟩⟩
  rw [whole, written, writeLines_eq_none_iff]
  constructor
  · intro each
    constructor
    · exact exists_integerLine_iff.1 (each
        (integerLine "coordinate_precision" s.editor.coordinatePrecision)
        (by simp [groups, groupLines, List.intercalate]))
    · exact exists_integerLine_iff.1 (each (integerLine "debounce_ms" s.watcher.debounceMs)
        (by simp [groups, groupLines, List.intercalate]))
  · intro short
    simp [groups, groupLines, List.intercalate, exists_integerLine_iff, short.precision,
      short.debounce, numberLine, switchLine, textLine]

theorem Settings.exists_text_iff {s : Settings} : (∃ t, s.text = .ok t) ↔ s.ShortIntegers := by
  rw [← exists_written_iff, text]
  obtain ⟨t, tooLong⟩ := s.written
  cases tooLong <;> simp

namespace SettingsStore

variable {store : SettingsStore} {d : Directory}

/-- Settings with short integers are saved if their file can be made. -/
theorem exists_save_iff (short : store.settings.ShortIntegers) :
    (∃ after, store.save d = .ok after) ↔
      ∃ d', d.ensureFolder settingsFolder = .ok d' ∧ d'.writable settingsFile = true := by
  obtain ⟨t, whole⟩ := Settings.exists_written_iff.2 short
  have writes (d' : Directory) :
      d'.writable settingsFile = true ↔ ∃ after, d'.writeText settingsFile t = .ok after :=
    Directory.exists_write_iff.symm
  simp only [save, whole, bind_eq_ok, mapError_eq_ok, writes]
  constructor
  · rintro ⟨after, d', folder, written, wrote, -⟩
    exact ⟨d', folder, written, wrote⟩
  · rintro ⟨d', folder, written, wrote⟩
    exact ⟨written, d', folder, written, wrote, rfl⟩

/-- A file that is there is shown if the integers of its settings are short, and its name in any
case. -/
theorem endsIff_settings_of_present (w : LogWorld) (stamp : Text) (known : store.missing = false)
    (there : w.directory.present settingsFile = true) (pathOnly : Bool) :
    ((Command.settings pathOnly).run w stamp store).EndsIff
      (pathOnly = true ∨ store.settings.ShortIntegers) := by
  have kept : store.ensureFile w.directory = .ok (store, w.directory) := by
    simp [ensureFile, known, there]
  simp only [Command.run, kept]
  cases pathOnly with
  | true => exact LogWorld.endsIff_printing _ _ (.inl rfl) (.inl rfl)
  | false =>
      cases shown : store.settings.text with
      | error e =>
          refine LogWorld.endsIff_failing _ _ fun short => ?_
          obtain ⟨t, shown'⟩ := Settings.exists_text_iff.2 (by simpa using short)
          cases shown.symm.trans shown'
      | ok t =>
          have short := Settings.exists_text_iff.1 ⟨t, shown⟩
          exact LogWorld.endsIff_printing _ _ (.inl rfl) (.inr short)

/-- A file that is missing must be made before settings with short integers are shown. -/
theorem endsIff_settings_of_missing (w : LogWorld) (stamp : Text) (store : SettingsStore)
    (missing : store.missing = true) (short : store.settings.ShortIntegers) (pathOnly : Bool) :
    ((Command.settings pathOnly).run w stamp store).EndsIff
      (∃ d', w.directory.ensureFolder settingsFolder = .ok d' ∧
        d'.writable settingsFile = true) := by
  have saves : store.ensureFile w.directory =
      (store.save w.directory).map fun d => ({ store with missing := false }, d) := by
    simp [ensureFile, missing]
  rw [← exists_save_iff short]
  simp only [Command.run, saves]
  cases store.save w.directory with
  | error stopped => exact LogWorld.endsIff_failing _ _ (by rintro ⟨after, ⟨⟩⟩)
  | ok after =>
      obtain ⟨t, shown⟩ := Settings.exists_text_iff.2 short
      cases pathOnly with
      | true => exact LogWorld.endsIff_printing _ _ (.inl rfl) ⟨after, rfl⟩
      | false =>
          simp only [Except.map, shown]
          exact LogWorld.endsIff_printing _ _ (.inl rfl) ⟨after, rfl⟩

end SettingsStore

/-! ### Invocations -/

/-- The log, the files and the console when the command of an invocation begins. -/
def Invocation.begun (i : Invocation) (stamp : Text) (d : Directory) (s : Settings) : LogWorld :=
  let configured : LogWorld := { log := {}, directory := d }
  (configured.configure (i.logSettings s.logging)).emit stamp
    (.trace "MAIN".toList ("command ".toList ++ i.command.name))

/-- What an invocation asks of a directory and of the settings there: the log file and the file of
the command can be named, the text of that file, as it is found when the log is open, serves the
command, and the settings can be shown if that is the command. -/
structure Invocation.Managed (i : Invocation) (stamp : Text) (d : Directory) (s : Settings) :
    Prop where
  logFile : '\x00' ∉ s.logging.logFile
  named : ∀ file, i.command.file? = some file → '\x00' ∉ file
  served : ∀ file source, i.command.file? = some file →
    (i.begun stamp d s).directory.readText file = .ok source → i.command.Served s source
  shown : ∀ pathOnly, i.command = .settings pathOnly → s.Shown d pathOnly

section

variable {d : Directory} {s : Settings}

/-- Opening the log takes nothing away. -/
theorem Invocation.present_begun (i : Invocation) (stamp : Text) {t : Text}
    (there : d.present t = true) :
    (i.begun stamp d s).directory.present t = true :=
  LogWorld.kept_emit (Directory.keptByFiles_present t)
    (LogWorld.kept_configure (Directory.keptByFiles_present t) there _) stamp _

/-- The standard settings ask for no log file. -/
theorem Invocation.directory_begun_standard (i : Invocation) (stamp : Text) :
    (i.begun stamp d {}).directory = d :=
  have configured := LogWorld.configure_of_console d rfl
  (LogWorld.emit_of_console configured.2 stamp _).1.trans configured.1

/-- A missing file stands for the standard settings. -/
theorem SettingsStore.load_of_missing (missing : d.present settingsFile = false) :
    SettingsStore.load d = .ok {} := by
  rw [load]
  cases content : d.readText settingsFile with
  | error fault => rfl
  | ok t =>
      obtain ⟨bytes, found, -⟩ := Directory.readText_eq_ok.1 content
      cases missing.symm.trans (Directory.present_of_read found)

theorem Invocation.managed_iff_of_file (i : Invocation) (stamp : Text)
    (logFile : '\x00' ∉ s.logging.logFile) {file : Text} (asked : i.command.file? = some file) :
    i.Managed stamp d s ↔ '\x00' ∉ file ∧
      ∀ source, (i.begun stamp d s).directory.readText file = .ok source →
        i.command.Served s source := by
  constructor
  · exact fun managed =>
      ⟨managed.named file asked, fun source => managed.served file source asked⟩
  · rintro ⟨named, served⟩
    refine { logFile, named := ?_, served := ?_, shown := ?_ }
    · intro other same
      cases asked.symm.trans same
      exact named
    · intro other source same content
      cases asked.symm.trans same
      exact served source content
    · intro pathOnly same
      rw [same] at asked
      cases asked

theorem Invocation.managed_iff_of_settings (i : Invocation) (stamp : Text)
    (logFile : '\x00' ∉ s.logging.logFile) {pathOnly : Bool}
    (asked : i.command = .settings pathOnly) :
    i.Managed stamp d s ↔ s.Shown d pathOnly := by
  have fileless : i.command.file? = none := by rw [asked]; rfl
  refine ⟨fun managed => managed.shown pathOnly asked, fun shown => ?_⟩
  refine { logFile, named := ?_, served := ?_, shown := ?_ }
  · intro file other
    cases fileless.symm.trans other
  · intro file source other
    cases fileless.symm.trans other
  · intro other same
    cases asked.symm.trans same
    exact shown

/-- The command itself ends with a code if what is asked for is given, but for the name of the log
file, which comes first. -/
theorem Invocation.endsIff_command (i : Invocation) (stamp : Text)
    (loaded : SettingsStore.load d = .ok s) (logFile : '\x00' ∉ s.logging.logFile) :
    (i.command.run (i.begun stamp d s) stamp
      { settings := s, missing := !d.present settingsFile }).EndsIff (i.Managed stamp d s) := by
  cases asked : i.command.file? with
  | some file =>
      exact (i.command.endsIff_run_of_file _ stamp _ asked).of_iff
        (i.managed_iff_of_file stamp logFile asked).symm
  | none =>
      obtain ⟨pathOnly, command⟩ : ∃ pathOnly, i.command = .settings pathOnly := by
        cases command : i.command with
        | settings pathOnly => exact ⟨pathOnly, rfl⟩
        | _ => rw [command] at asked; cases asked
      rw [command]
      refine CommandOutcome.EndsIff.of_iff ?_ (i.managed_iff_of_settings stamp logFile command).symm
      cases there : d.present settingsFile with
      | true =>
          rw [Settings.Shown, if_pos there]
          have kept := i.present_begun (s := s) stamp there
          exact SettingsStore.endsIff_settings_of_present _ _ rfl kept pathOnly
      | false =>
          -- Without a file the settings are the standard ones, and the log has no file either.
          obtain rfl : s = {} :=
            Except.ok.inj (loaded.symm.trans (SettingsStore.load_of_missing there))
          have ends := SettingsStore.endsIff_settings_of_missing (i.begun stamp d {}) stamp
            { missing := true } rfl ⟨by decide, by decide⟩ pathOnly
          rw [directory_begun_standard] at ends
          rw [Settings.Shown, there]
          exact ends

end

/-- An invocation ends with one of the codes 0, 1 and 2, or with a fault. It ends with a code if and
only if the settings file leads to no fault, and the settings that it stands for, the operands and
the files give the command all that it asks for. -/
theorem Invocation.endsIff_run (i : Invocation) (stamp : Text) (d : Directory) :
    (i.run stamp d).EndsIff
      ((∀ fault, ¬ SettingsStore.Raises d fault) ∧
        ∀ s, SettingsStore.StandsFor d s → i.Managed stamp d s) := by
  let silent : LogWorld := { log := {}, directory := d }
  cases loaded : SettingsStore.load d with
  | error e =>
      have failed : (i.run stamp d).result = .error (.load e) := by
        simp only [run, SettingsStore.ofDirectory, loaded, Except.map]
        rfl
      refine (LogWorld.endsIff_failing silent (.load e) fun h => ?_).of_result failed
      exact h.1 e (SettingsStore.load_eq_error.1 loaded)
  | ok s =>
      have standsFor := SettingsStore.standsFor_of_load loaded
      have fine (fault : LoadFault) : ¬ SettingsStore.Raises d fault := by
        intro raises
        cases loaded.symm.trans (SettingsStore.load_eq_error.2 raises)
      have managed_iff : i.Managed stamp d s ↔ (∀ fault, ¬ SettingsStore.Raises d fault) ∧
          ∀ s, SettingsStore.StandsFor d s → i.Managed stamp d s := by
        refine ⟨fun managed => ⟨fine, fun other h => ?_⟩, fun h => h.2 s standsFor⟩
        rwa [h.unique standsFor]
      refine CommandOutcome.EndsIff.of_iff ?_ managed_iff
      cases usable : unusablePath? s.logging.logFile with
      | some fault =>
          have failed : (i.run stamp d).result = .error (.file fault) := by
            simp only [run, SettingsStore.ofDirectory, loaded, Except.map, logSettings, usable]
            rfl
          refine (LogWorld.endsIff_failing silent (.file fault) fun h => ?_).of_result failed
          rw [Directory.unusablePath?_eq_none.2 h.logFile] at usable
          cases usable
      | none =>
          have same : (i.run stamp d).result = (i.command.run (i.begun stamp d s) stamp
              { settings := s, missing := !d.present settingsFile }).result := by
            simp only [run, SettingsStore.ofDirectory, loaded, Except.map, logSettings, usable]
            rfl
          exact (i.endsIff_command stamp loaded
            (Directory.unusablePath?_eq_none.1 usable)).of_result same

/-- The number of an annotation that has nothing to do with the name is too long: an invocation that
would find no such name ends with no code. -/
theorem not_ended_of_long_number :
    let file : Text := "notes.owm".toList
    let d : Directory := { nodes := [([file], .file (Utf8.encode (onesNote 4301)))] }
    ∃ i, Invocation.read ["move".toList, file, "Cup".toList, "250".toList, "300".toList,
        "--pixels".toList] = .ok i ∧ ∀ code, (i.run [] d).result ≠ .ok code := by
  intro file d
  let i : Invocation :=
    { verbose := false, trace := false,
      command := .move file (some "Cup".toList) (some 250) (some 300) true false }
  refine ⟨i, by decide +kernel, fun code ended => ?_⟩
  have asked := (i.endsIff_run [] d).ends_iff.1 ⟨code, ended⟩
  have standard : SettingsStore.StandsFor d {} :=
    SettingsStore.standsFor_of_load (SettingsStore.load_of_missing (by decide +kernel))
  have content : (i.begun [] d {}).directory.readText file = .ok (onesNote 4301) := by
    rw [Invocation.directory_begun_standard]
    have found : d.read file = .ok (Utf8.encode (onesNote 4301)) :=
      Directory.read_eq_ok.2 ⟨[file], by decide +kernel, rfl⟩
    exact Directory.readText_eq_ok.2 ⟨_, found, Utf8.decode_encode _⟩
  obtain ⟨-, -, -, -, shows⟩ := (asked.2 {} standard).served file _ rfl content
  obtain ⟨doc, read⟩ := (exists_read_iff _).2 (shows rfl).1
  obtain ⟨e, failed⟩ := exists_error_read_onesNote (show maxIntegerDigits < 4301 by decide)
  cases read.symm.trans failed

end WardleyMaps
