/-
Module: WardleyMaps.Proofs.Log.LastConfiguration
Purpose: What is printed depends on the last configuration of the log alone.
Main exports: LogCall, LogWorld.run, Log.InStep, LogWorld.inStep_run, LogWorld.Serves,
  LogSettings.Decides, LogSettings.decides_iff
-/
import Mathlib.Data.List.Nodup
import WardleyMaps.Proofs.Log

namespace WardleyMaps

/-!
A handler that records are passed to without being installed would survive every later
configuration, and each record would be printed once more. No sequence of calls leads there: all
handlers that records are passed to stay installed (`LogWorld.inStep_run`), so closing the log takes
them all (`Log.handlers_close`). A configuration therefore starts from none, and it ends with one
handler for the console, whether or not its file can be opened (`LogWorld.configure_of_usable`).
From then on an admitted record is printed once (`LogWorld.Serves.prints`). The exception is a file
name with a null character: it stops the configuration after the old handlers are closed and before
the new ones get any record. Then the handler of last resort has the say, if there is one, and its
bare texts are not the lines that the settings ask for (`LogSettings.decides_iff`).
-/

/-- What is done with the log. -/
inductive LogCall where
  | configure (s : LogSettings)
  | close
  | report (stamp : Text) (e : LogEntry)

namespace LogWorld

/-- A log with which nothing was done yet, with a handler of last resort or without one. -/
def fresh (d : Directory) (lastResort : Bool) : LogWorld :=
  { log := { lastResort }, directory := d }

/-- Do something with the log. -/
def call (w : LogWorld) : LogCall → LogWorld
  | .configure s => w.configure s
  | .close => w.close
  | .report stamp e => w.emit stamp e

/-- Do one thing after the other with the log. -/
def run (w : LogWorld) (calls : List LogCall) : LogWorld :=
  calls.foldl call w

/-- Reporting entries, each with a stamp of its own, adds a text to the console. -/
def Prints (w : LogWorld) (later : List (Text × LogEntry)) (text : Text) : Prop :=
  (w.run (later.map fun (stamp, e) => .report stamp e)).console = w.console ++ text

end LogWorld

/-- What settings print of an entry: the line of its record if they admit it. -/
def LogSettings.line (s : LogSettings) (stamp : Text) (e : LogEntry) : Text :=
  match e.record? s.trace with
  | none => []
  | some r => if 0 < r.level ∧ s.threshold ≤ r.level then r.line stamp else []

/-- What settings print of entries: the line of each admitted record once, in their order. -/
def LogSettings.lines (s : LogSettings) (later : List (Text × LogEntry)) : Text :=
  later.flatMap fun (stamp, e) => s.line stamp e

/-- As the last configuration, settings decide what is printed: whatever was done with the log
before, entries that are reported later print what they print without it, and that is each admitted
record once. -/
def LogSettings.Decides (s : LogSettings) (lastResort : Bool) : Prop :=
  ∀ (d : Directory) (before : List LogCall) (later : List (Text × LogEntry)),
    let last := (LogWorld.fresh d lastResort).run (before ++ [.configure s])
    let alone := (LogWorld.fresh d lastResort).run [.configure s]
    (∀ text, last.Prints later text ↔ alone.Prints later text) ∧
      alone.Prints later (s.lines later)

/-! ### Installed handlers -/

namespace Log

variable {log : Log}

/-- All handlers that records are passed to are installed. -/
def InStep (log : Log) : Prop :=
  log.handlers.map LogHandler.number ⊆ log.installed.map LogHandler.number

theorem mem_handlers_foldr_detach {hs : List LogHandler} {h : LogHandler} :
    h ∈ (hs.foldr detach log).handlers ↔
      h ∈ log.handlers ∧ h.number ∉ hs.map LogHandler.number := by
  induction hs with
  | nil => simp
  | cons first rest ih =>
      simp only [List.foldr_cons, detach, List.mem_filter, ih, List.map_cons, List.mem_cons,
        not_or, decide_not, Bool.not_eq_true', decide_eq_false_iff_not]
      tauto

/-- Closing the log leaves no handler. -/
theorem handlers_close (inStep : log.InStep) : log.close.handlers = [] := by
  refine List.eq_nil_iff_forall_not_mem.2 fun h mem => ?_
  obtain ⟨attached, other⟩ := mem_handlers_foldr_detach.1 mem
  exact other (inStep (List.mem_map_of_mem attached))

/-- After closing, the installed handlers are all that records are passed to. -/
theorem handlers_attachAll (none : log.handlers = [])
    (distinct : (log.installed.map LogHandler.number).Nodup) :
    log.attachAll.handlers = log.installed := by
  suffices attached : ∀ (hs : List LogHandler) (log : Log),
      ((log.handlers ++ hs).map LogHandler.number).Nodup →
        (hs.foldl attach log).handlers = log.handlers ++ hs by
    have whole := attached log.installed log (by rwa [none])
    rwa [none] at whole
  intro hs
  induction hs with
  | nil => intro log _; simp
  | cons first rest ih =>
      intro log distinct
      have new : log.attach first = { log with handlers := log.handlers ++ [first] } := by
        refine if_neg fun known => ?_
        obtain ⟨h, mem, same⟩ := List.any_eq_true.1 known
        rw [List.map_append, List.nodup_append] at distinct
        exact distinct.2.2 _ (List.mem_map_of_mem mem) _ (List.mem_map_of_mem List.mem_cons_self)
          (by simpa using same)
      rw [List.foldl_cons, new, ih _ (by simpa using distinct), List.append_assoc,
        List.singleton_append]

end Log

/-! ### Reporting -/

/-- Whether a handler prints on the console. -/
def LogHandler.onConsole (h : LogHandler) : Bool :=
  h.sink = .console

namespace LogWorld

variable {w : LogWorld} {s : LogSettings}

/-- A line is printed as often as there are handlers for the console. -/
theorem console_writeAll (line : Text) (w : LogWorld) (hs : List LogHandler) :
    (writeAll line w hs).1.console =
      w.console ++ (List.replicate (hs.countP LogHandler.onConsole) line).flatten := by
  induction hs generalizing w with
  | nil => simp [writeAll]
  | cons first rest ih =>
      obtain ⟨number, sink⟩ := first
      rw [writeAll]
      refine (ih _).trans ?_
      cases sink with
      | console =>
          simp [writeLine, LogHandler.onConsole, List.replicate_succ]
      | file path offset => simp [writeLine, LogHandler.onConsole]

/-- Handlers are written to in place. -/
theorem handlers_writeAll (line : Text) (w : LogWorld) (hs : List LogHandler) :
    (writeAll line w hs).2.map LogHandler.number = hs.map LogHandler.number ∧
      (writeAll line w hs).2.map LogHandler.onConsole = hs.map LogHandler.onConsole := by
  induction hs generalizing w with
  | nil => exact ⟨rfl, rfl⟩
  | cons first rest ih =>
      obtain ⟨numbers, consoles⟩ := ih (writeLine line w first.sink).1
      refine ⟨congrArg (first.number :: ·) numbers, congrArg₂ List.cons ?_ consoles⟩
      obtain ⟨number, sink⟩ := first
      cases sink <;> rfl

/-- Reporting an entry changes no more of the handlers than how far files were written. -/
theorem handlers_emit (stamp : Text) (w : LogWorld) (e : LogEntry) :
    (emit stamp w e).log.handlers.map LogHandler.number =
        w.log.handlers.map LogHandler.number ∧
      (emit stamp w e).log.handlers.map LogHandler.onConsole =
        w.log.handlers.map LogHandler.onConsole := by
  rcases emit_cases stamp w e with same | ⟨text, same⟩ | ⟨line, same⟩
  · rw [same]
    exact ⟨rfl, rfl⟩
  · rw [same]
    exact ⟨rfl, rfl⟩
  · rw [same]
    exact handlers_writeAll line w w.log.handlers

/-- How often a line is printed. -/
def consoles (w : LogWorld) : Nat :=
  w.log.handlers.countP LogHandler.onConsole

theorem consoles_emit (stamp : Text) (w : LogWorld) (e : LogEntry) :
    (emit stamp w e).consoles = w.consoles := by
  have same := congrArg (List.count true) (handlers_emit stamp w e).2
  simpa [consoles, List.count, List.countP_map, Function.comp_def] using same

/-- What a handler of the console prints of an entry, if anything. -/
def line (w : LogWorld) (stamp : Text) (e : LogEntry) : Text :=
  match e.record? w.log.tracing with
  | none => []
  | some r => if admits w.log r then r.line stamp else []

/-- What the handler of last resort prints of an entry, if anything. -/
def bare (w : LogWorld) (e : LogEntry) : Text :=
  match e.record? w.log.tracing with
  | none => []
  | some r => if admits w.log r && resorts w.log r then r.bare else []

/-- What is printed of an entry: its line once for each handler of the console, or its bare text if
there is no handler at all. -/
def shown (w : LogWorld) (stamp : Text) (e : LogEntry) : Text :=
  if w.log.handlers = [] then w.bare e else (List.replicate w.consoles (w.line stamp e)).flatten

/-- Reporting an entry changes nothing of what is printed of others. -/
theorem shown_emit (stamp : Text) (w : LogWorld) (e : LogEntry) :
    (emit stamp w e).shown = w.shown := by
  have handlerless : (emit stamp w e).log.handlers = [] ↔ w.log.handlers = [] := by
    have same := congrArg List.length (handlers_emit stamp w e).1
    rw [List.length_map, List.length_map] at same
    rw [← List.length_eq_zero_iff, same, List.length_eq_zero_iff]
  funext stamp' e'
  have sameLine : (emit stamp w e).line stamp' e' = w.line stamp' e' := by
    unfold line admits
    rw [log_emit]
  have sameBare : (emit stamp w e).bare e' = w.bare e' := by
    unfold bare admits resorts
    rw [log_emit]
  simp only [shown, handlerless, sameLine, sameBare, consoles_emit]

theorem console_emit (stamp : Text) (w : LogWorld) (e : LogEntry) :
    (emit stamp w e).console = w.console ++ w.shown stamp e := by
  unfold emit shown line bare
  cases e.record? w.log.tracing with
  | none => simp
  | some r =>
      dsimp only
      by_cases admitted : admits w.log r = true
      · unfold pass
        by_cases handlerless : w.log.handlers = []
        · by_cases printed : resorts w.log r = true <;> simp [admitted, handlerless, printed]
        · simp only [admitted, handlerless, if_true, if_false]
          exact console_writeAll (r.line stamp) w w.log.handlers
      · simp [admitted]

/-- Entries print one after the other what each of them prints. -/
theorem prints_shown (w : LogWorld) (later : List (Text × LogEntry)) :
    w.Prints later (later.flatMap fun (stamp, e) => w.shown stamp e) := by
  induction later generalizing w with
  | nil => exact (List.append_nil _).symm
  | cons first rest ih =>
      obtain ⟨stamp, e⟩ := first
      have others := ih (w.emit stamp e)
      rw [shown_emit, Prints, console_emit, List.append_assoc] at others
      exact others

/-- What is printed is determined. -/
theorem Prints.iff {w : LogWorld} {later : List (Text × LogEntry)} {text text' : Text}
    (prints : w.Prints later text) : w.Prints later text' ↔ text' = text := by
  rw [Prints, show _ = _ from prints, List.append_cancel_left_eq, eq_comm]

/-! ### Runs -/

theorem inStep_of_handlers_eq_nil (none : w.log.handlers = []) : w.log.InStep := by
  simp [Log.InStep, none]

/-- The log that opening a file leaves: at most one more handler is installed. -/
theorem log_openFile (w : LogWorld) (name : Text) :
    (w.openFile name).log = w.log ∨ ∃ p, (w.openFile name).log = w.log.install (.file p 0) := by
  unfold openFile
  split
  · exact .inl rfl
  · split
    · exact .inl rfl
    · next p _ => exact .inr ⟨p, rfl⟩

/-- The world works as settings ask for. -/
structure Serves (w : LogWorld) (s : LogSettings) : Prop where
  console_once : w.consoles = 1
  threshold : w.log.threshold = s.threshold
  tracing : w.log.tracing = s.trace

/-- Configuring passes records to what it installed, and prints them once. -/
theorem configure_of_usable (inStep : w.log.InStep) (usable : '\x00' ∉ s.logFile) :
    (w.configure s).log.handlers = (w.configure s).log.installed ∧ (w.configure s).Serves s := by
  have closed : w.log.close.handlers = [] := Log.handlers_close inStep
  have named : ¬ (unusablePath? s.logFile).isSome = true := by simpa [unusablePath?] using usable
  unfold configure
  simp only [if_neg named]
  generalize opened : openFile { w with log := w.log.close.install .console } s.logFile = w'
  -- The installed handlers are the console, numbered first, and perhaps a file.
  obtain ⟨none, distinct, once⟩ : w'.log.handlers = [] ∧
      (w'.log.installed.map LogHandler.number).Nodup ∧
        w'.log.installed.countP LogHandler.onConsole = 1 := by
    subst opened
    rcases log_openFile { w with log := w.log.close.install .console } s.logFile with
      same | ⟨p, same⟩
    · rw [same]
      exact ⟨closed, by simp [Log.install, Log.close],
        by simp [Log.install, Log.close, LogHandler.onConsole]⟩
    · rw [same]
      exact ⟨closed, by simp [Log.install, Log.close],
        by simp [Log.install, Log.close, LogHandler.onConsole]⟩
  have attached := Log.handlers_attachAll none distinct
  exact ⟨attached.trans (Log.installed_attachAll _).symm,
    { console_once := (congrArg (List.countP LogHandler.onConsole) attached).trans once
      threshold := rfl
      tracing := rfl }⟩

/-- A name that no file can have stops the configuration when no record is passed to anything. -/
theorem handlers_configure_of_null (inStep : w.log.InStep) (null : '\x00' ∈ s.logFile) :
    (w.configure s).log.handlers = [] := by
  have named : (unusablePath? s.logFile).isSome = true := by simpa [unusablePath?] using null
  unfold configure
  simp only [if_pos named]
  exact Log.handlers_close inStep

theorem inStep_call (inStep : w.log.InStep) (c : LogCall) : (w.call c).log.InStep := by
  cases c with
  | configure s =>
      by_cases null : '\x00' ∈ s.logFile
      · exact inStep_of_handlers_eq_nil (handlers_configure_of_null inStep null)
      · rw [Log.InStep, call, (configure_of_usable inStep null).1]
        exact List.Subset.refl _
  | close => exact inStep_of_handlers_eq_nil (Log.handlers_close inStep)
  | report stamp e =>
      rw [Log.InStep, call, (handlers_emit stamp w e).1, log_emit]
      exact inStep

/-- Whatever is done with the log, no handler gets records that is not installed. -/
theorem inStep_run (inStep : w.log.InStep) (calls : List LogCall) : (w.run calls).log.InStep := by
  induction calls generalizing w with
  | nil => exact inStep
  | cons c rest ih => exact ih (inStep_call inStep c)

/-- A log that serves settings prints each admitted record once. -/
theorem Serves.prints (serves : w.Serves s) (later : List (Text × LogEntry)) :
    w.Prints later (s.lines later) := by
  have handled : w.log.handlers ≠ [] := by
    intro none
    have once := serves.console_once
    rw [consoles, none] at once
    cases once
  have same : w.shown = s.line := by
    funext stamp e
    simp [shown, handled, serves.console_once, line, LogSettings.line, admits, serves.threshold,
      serves.tracing]
  simpa [same, LogSettings.lines] using w.prints_shown later

/-- Without handlers, what is printed of records is bare. -/
theorem prints_bare (none : w.log.handlers = []) (later : List (Text × LogEntry)) :
    w.Prints later (later.flatMap fun (_, e) => w.bare e) := by
  simpa [shown, none] using w.prints_shown later

end LogWorld

/-- Some record is admitted by settings, and its line is not its bare text. -/
theorem LogSettings.exists_line_ne_bare (s : LogSettings) :
    ∃ e, ∀ w : LogWorld, s.line [] e ≠ w.bare e := by
  refine ⟨.event (max 1 s.threshold) [] [], fun w same => ?_⟩
  have admitted : 0 < max 1 s.threshold ∧ s.threshold ≤ max 1 s.threshold := by omega
  simp only [line, LogEntry.record?, admitted, and_self, if_true, LogRecord.line, LogWorld.bare]
    at same
  -- The line begins with a bracket; the bare text of this record is a line end, or is not printed.
  split at same <;> simp [LogRecord.bare] at same

/-- Settings decide what is printed unless no file can have the name of their log file. -/
theorem LogSettings.decides_iff (s : LogSettings) (lastResort : Bool) :
    s.Decides lastResort ↔ '\x00' ∉ s.logFile := by
  have fresh (d : Directory) : (LogWorld.fresh d lastResort).log.InStep :=
    LogWorld.inStep_of_handlers_eq_nil rfl
  constructor
  · intro decides null
    obtain ⟨e, differs⟩ := s.exists_line_ne_bare
    have once := (decides { nodes := [] } [] [([], e)]).2
    have printed := LogWorld.prints_bare
      (LogWorld.handlers_configure_of_null (fresh { nodes := [] }) null) [([], e)]
    exact differs _ (by simpa [lines] using printed.iff.1 once)
  · intro usable d before later
    have alone := (LogWorld.configure_of_usable (fresh d) usable).2.prints later
    have last := (LogWorld.configure_of_usable
      (LogWorld.inStep_run (fresh d) before) usable).2.prints later
    refine ⟨fun text => ?_, alone⟩
    rw [LogWorld.run, List.foldl_append]
    exact last.iff.trans alone.iff.symm

/-- With a null character in the name of the log file, records are not printed as the settings ask
for, be there a handler of last resort or not. -/
theorem LogSettings.not_decides_of_null_character :
    let s : LogSettings := { logFile := ['a', '\x00'] }
    ¬ s.Decides true ∧ ¬ s.Decides false :=
  ⟨fun decides => (decides_iff _ _).1 decides (by decide),
    fun decides => (decides_iff _ _).1 decides (by decide)⟩

end WardleyMaps
