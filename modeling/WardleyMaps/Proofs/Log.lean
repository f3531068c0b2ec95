/-
Module: WardleyMaps.Proofs.Log
Purpose: The log writes to its own file only.
Main exports: LogSink.Apart, LogWorld.Keeps, LogSettings.Spares, LogWorld.keeps_configure,
  LogWorld.keeps_emitAll, Directory.KeptByFiles
-/
import WardleyMaps.Log
import WardleyMaps.Proofs.Files.Directory

namespace WardleyMaps

/-!
Records go to the handlers that were opened when the log was configured, and a handler writes to the
place of its file. So a file that the log was not told to write to stays as it is, whatever is
reported (`LogWorld.keeps_emitAll`), and configuring the log, which empties its file, keeps all
others (`LogWorld.keeps_configure`). Of the directory as a whole it keeps whatever holds also after
a file is put where there is no folder (`Directory.KeptByFiles`). Both rest on what reporting an
entry may come to (`LogWorld.emit_cases`).
-/

/-- What is written to a sink does not go to a place. -/
def LogSink.Apart (p : Path) : LogSink → Prop
  | .console => True
  | .file path _ => path ≠ p

/-- A file that can be written stands where a path leads, and no handler writes to it or will do so.
-/
structure LogWorld.Keeps (w : LogWorld) (file : Text) (p : Path) (bytes : List UInt8) : Prop where
  holds : w.directory.HoldsFile file p bytes
  fine : w.directory.trouble? p = none
  apart : ∀ h ∈ w.log.handlers, h.sink.Apart p
  installed_apart : ∀ h ∈ w.log.installed, h.sink.Apart p

/-- The log file that settings ask for, if they ask for one, is not the file that a path leads to.
-/
def LogSettings.Spares (s : LogSettings) (d : Directory) (file : Text) : Prop :=
  s.logFile ≠ [] → d.resolve (d.absolute s.logFile) ≠ d.resolve file

/-! ### Handlers -/

namespace Log

theorem installed_attachAll (log : Log) : log.attachAll.installed = log.installed := by
  suffices attached : ∀ (hs : List LogHandler) (log : Log),
      (hs.foldl attach log).installed = log.installed from attached _ _
  intro hs
  induction hs with
  | nil => exact fun log => rfl
  | cons first rest ih =>
      intro log
      refine (ih _).trans ?_
      unfold attach
      split <;> rfl

/-- Records are passed to nothing but the old handlers and the installed ones. -/
theorem mem_handlers_attachAll {log : Log} {h : LogHandler} (mem : h ∈ log.attachAll.handlers) :
    h ∈ log.handlers ∨ h ∈ log.installed := by
  suffices attached : ∀ (hs : List LogHandler) (log : Log), h ∈ (hs.foldl attach log).handlers →
      h ∈ log.handlers ∨ h ∈ hs from attached _ _ mem
  intro hs
  induction hs with
  | nil => exact fun log mem => .inl mem
  | cons first rest ih =>
      intro log mem
      rcases ih _ mem with old | new
      · unfold attach at old
        split at old
        · exact .inl old
        · rcases List.mem_append.1 old with old | new
          · exact .inl old
          · exact .inr (List.mem_singleton.1 new ▸ List.mem_cons_self)
      · exact .inr (.tail _ new)

end Log

/-! ### Reporting -/

namespace LogWorld

variable {w : LogWorld}

/-- What reporting an entry comes to: nothing, a text on the console, or a line for all handlers. -/
theorem emit_cases (stamp : Text) (w : LogWorld) (e : LogEntry) :
    emit stamp w e = w ∨
      (∃ text, emit stamp w e = { w with console := w.console ++ text }) ∨
      ∃ line, emit stamp w e = w.writeOut line := by
  unfold emit
  split
  · exact .inl rfl
  · next r _ =>
    split
    · unfold pass
      split
      · split
        · exact .inr (.inl ⟨_, rfl⟩)
        · exact .inl rfl
      · exact .inr (.inr ⟨_, rfl⟩)
    · exact .inl rfl

/-- Writing is no business of the log as such. -/
theorem log_writeAll (line : Text) (w : LogWorld) (handlers : List LogHandler) :
    (writeAll line w handlers).1.log = w.log := by
  induction handlers generalizing w with
  | nil => rfl
  | cons first rest ih =>
      refine (ih _).trans ?_
      cases first.sink <;> rfl

/-- Reporting an entry changes nothing of the log but its handlers. -/
theorem log_emit (stamp : Text) (w : LogWorld) (e : LogEntry) :
    (emit stamp w e).log = { w.log with handlers := (emit stamp w e).log.handlers } := by
  rcases emit_cases stamp w e with same | ⟨text, same⟩ | ⟨line, same⟩
  · rw [same]
  · rw [same]
  · have kept := log_writeAll line w w.log.handlers
    rw [same, writeOut]
    generalize writeAll line w w.log.handlers = written at kept ⊢
    rw [← kept]

end LogWorld

/-! ### The directory as a whole -/

/-- What is true of a directory stays true when a file is put where there is no folder. -/
def Directory.KeptByFiles (P : Directory → Prop) : Prop :=
  ∀ ⦃d p⦄ (bytes : List UInt8), d.node? p ≠ some .folder → P d → P (d.set p (.file bytes))

/-- A path stays present. -/
theorem Directory.keptByFiles_present (t : Text) : KeptByFiles fun d => d.present t = true :=
  fun _ _ _ file there => present_set file there

/-- A file that can be written stays so. -/
theorem Directory.keptByFiles_trouble? (q : Path) : KeptByFiles fun d => d.trouble? q = none :=
  fun d p bytes _ fine => (trouble?_set d p (.file bytes) q).trans fine

namespace LogWorld

variable {P : Directory → Prop} {w : LogWorld}

theorem kept_writeAll (kept : Directory.KeptByFiles P) (holds : P w.directory) (line : Text)
    (handlers : List LogHandler) : P (writeAll line w handlers).1.directory := by
  induction handlers generalizing w with
  | nil => exact holds
  | cons first rest ih =>
      apply ih
      cases first.sink with
      | console => exact holds
      | file path offset =>
          show P (w.directory.writeAt path offset (Utf8.encode line))
          unfold Directory.writeAt
          split
          · next old stands => exact kept _ (by simp [stands]) holds
          · exact holds

theorem kept_emit (kept : Directory.KeptByFiles P) (holds : P w.directory) (stamp : Text)
    (e : LogEntry) : P (emit stamp w e).directory := by
  rcases emit_cases stamp w e with same | ⟨text, same⟩ | ⟨line, same⟩
  · rw [same]
    exact holds
  · rw [same]
    exact holds
  · rw [same]
    exact kept_writeAll kept holds line w.log.handlers

theorem kept_openFile (kept : Directory.KeptByFiles P) (holds : P w.directory) (name : Text) :
    P (w.openFile name).directory := by
  unfold openFile
  split
  · exact holds
  · split
    · exact holds
    · next p opened => exact kept [] (Directory.openPlace_eq_ok.1 opened).2.1 holds

theorem kept_configure (kept : Directory.KeptByFiles P) (holds : P w.directory) (s : LogSettings) :
    P (w.configure s).directory := by
  unfold configure
  split
  · exact holds
  · exact kept_openFile (w := { w with log := w.log.close.install .console }) kept holds _

end LogWorld

/-! ### A file apart from the log -/

namespace LogWorld

variable {w : LogWorld} {file : Text} {p : Path} {bytes : List UInt8}

theorem holds_writeAt {d : Directory} (h : d.HoldsFile file p bytes) {path : Path}
    (other : path ≠ p) (offset : Nat) (written : List UInt8) :
    (d.writeAt path offset written).HoldsFile file p bytes := by
  unfold Directory.writeAt
  split
  · next old stands => exact h.set_of_ne other (by simp [stands]) _
  · exact h

/-- A sink that is apart stays so and leaves the file as it is. -/
theorem holds_writeLine (h : w.directory.HoldsFile file p bytes) (line : Text) {sink : LogSink}
    (apart : sink.Apart p) :
    (writeLine line w sink).1.directory.HoldsFile file p bytes ∧
      (writeLine line w sink).2.Apart p := by
  cases sink with
  | console => exact ⟨h, trivial⟩
  | file path offset => exact ⟨holds_writeAt h apart _ _, apart⟩

theorem holds_writeAll (h : w.directory.HoldsFile file p bytes) (line : Text)
    {handlers : List LogHandler} (apart : ∀ handler ∈ handlers, handler.sink.Apart p) :
    (writeAll line w handlers).1.directory.HoldsFile file p bytes ∧
      ∀ handler ∈ (writeAll line w handlers).2, handler.sink.Apart p := by
  induction handlers generalizing w with
  | nil => exact ⟨h, apart⟩
  | cons first rest ih =>
      obtain ⟨holds, first'⟩ := holds_writeLine h line (apart first List.mem_cons_self)
      obtain ⟨holds', rest'⟩ := ih holds fun handler mem => apart handler (.tail _ mem)
      exact ⟨holds', List.forall_mem_cons.2 ⟨first', rest'⟩⟩

/-- Reporting an entry keeps the file. -/
theorem keeps_emit (h : w.Keeps file p bytes) (stamp : Text) (e : LogEntry) :
    (emit stamp w e).Keeps file p bytes := by
  obtain ⟨holds, apart⟩ : (emit stamp w e).directory.HoldsFile file p bytes ∧
      ∀ handler ∈ (emit stamp w e).log.handlers, handler.sink.Apart p := by
    rcases emit_cases stamp w e with same | ⟨text, same⟩ | ⟨line, same⟩
    · rw [same]
      exact ⟨h.holds, h.apart⟩
    · rw [same]
      exact ⟨h.holds, h.apart⟩
    · rw [same]
      exact holds_writeAll h.holds line h.apart
  refine { holds, apart, fine := ?_, installed_apart := ?_ }
  · exact kept_emit (Directory.keptByFiles_trouble? p) h.fine stamp e
  · rw [log_emit]
    exact h.installed_apart

theorem keeps_emitAll (h : w.Keeps file p bytes) (stamp : Text) (es : List LogEntry) :
    (w.emitAll stamp es).Keeps file p bytes := by
  induction es generalizing w with
  | nil => exact h
  | cons e rest ih => exact ih (keeps_emit h stamp e)

/-- Opening a log file elsewhere keeps the file. -/
theorem keeps_openFile (h : w.Keeps file p bytes) {name : Text}
    (spared : name ≠ [] → w.directory.resolve (w.directory.absolute name) ≠ .ok p) :
    (w.openFile name).Keeps file p bytes := by
  have fine := kept_openFile (Directory.keptByFiles_trouble? p) h.fine name
  unfold openFile at fine ⊢
  split
  · exact h
  · next named =>
    rw [if_neg named] at fine
    split
    · exact { h with }
    · next q opened =>
      obtain ⟨leads, place, -⟩ := Directory.openPlace_eq_ok.1 opened
      have other : q ≠ p := fun same => spared named (same ▸ leads)
      rw [opened] at fine
      refine
        { holds := h.holds.set_of_ne other place _
          fine
          apart := h.apart
          installed_apart := fun handler mem => ?_ }
      rcases List.mem_append.1 mem with old | new
      · exact h.installed_apart handler old
      · rw [List.mem_singleton.1 new]
        exact other

/-- Configuring the log keeps a file that is not its own. -/
theorem keeps_configure {d : Directory} (h : d.HoldsFile file p bytes)
    (fine : d.trouble? p = none) {s : LogSettings} (spared : s.Spares d file) :
    (configure { log := {}, directory := d } s).Keeps file p bytes := by
  have begun : LogWorld.Keeps
      { log := Log.install {} .console, directory := d } file p bytes :=
    { holds := h
      fine
      apart := fun handler mem => absurd mem List.not_mem_nil
      installed_apart := fun handler mem => List.mem_singleton.1 mem ▸ trivial }
  unfold configure
  split
  · exact begun
  · have opened := keeps_openFile begun fun named => h.leads ▸ spared named
    refine
      { holds := opened.holds
        fine := opened.fine
        apart := fun handler mem => ?_
        installed_apart := ?_ }
    · rcases Log.mem_handlers_attachAll mem with old | new
      · exact opened.apart handler old
      · exact opened.installed_apart handler new
    · exact (Log.installed_attachAll _).symm ▸ opened.installed_apart

end LogWorld

/-! ### A log without a file -/

namespace LogWorld

variable {w : LogWorld}

/-- Writing to the console leaves the directory as it is. -/
theorem writeAll_of_console (line : Text) {handlers : List LogHandler}
    (console : ∀ h ∈ handlers, h.sink = .console) :
    (writeAll line w handlers).1.directory = w.directory ∧
      ∀ h ∈ (writeAll line w handlers).2, h.sink = .console := by
  induction handlers generalizing w with
  | nil => exact ⟨rfl, console⟩
  | cons first rest ih =>
      obtain ⟨here, others⟩ := List.forall_mem_cons.1 console
      obtain ⟨same, others'⟩ := ih (w := (writeLine line w first.sink).1) others
      rw [here] at same
      refine ⟨?_, List.forall_mem_cons.2 ⟨?_, others'⟩⟩
      · rw [writeAll, here]
        exact same
      · rw [here]

theorem emit_of_console (console : ∀ h ∈ w.log.handlers, h.sink = .console) (stamp : Text)
    (e : LogEntry) :
    (emit stamp w e).directory = w.directory ∧
      ∀ h ∈ (emit stamp w e).log.handlers, h.sink = .console := by
  rcases emit_cases stamp w e with same | ⟨text, same⟩ | ⟨line, same⟩
  · rw [same]
    exact ⟨rfl, console⟩
  · rw [same]
    exact ⟨rfl, console⟩
  · rw [same]
    exact writeAll_of_console line console

/-- Without a log file only the console is opened. -/
theorem configure_of_console (d : Directory) {s : LogSettings} (fileless : s.logFile = []) :
    (configure { log := {}, directory := d } s).directory = d ∧
      ∀ h ∈ (configure { log := {}, directory := d } s).log.handlers, h.sink = .console := by
  unfold configure
  rw [fileless]
  refine ⟨rfl, fun h mem => ?_⟩
  rcases Log.mem_handlers_attachAll mem with old | new
  · exact absurd old List.not_mem_nil
  · rw [List.mem_singleton.1 new]

end LogWorld

end WardleyMaps
