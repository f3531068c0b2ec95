/-
Module: WardleyMaps.Proofs.Session.Edited
Purpose: What a session without listeners makes of a file that is opened and edited.
Main exports: MapEdit, MapEdit.edited, Workspace.Shows, Workspace.run_openFile,
  Workspace.run_edit
-/
import WardleyMaps.Proofs.Files.Directory
import WardleyMaps.Proofs.Session.Announced

namespace WardleyMaps

open Text

/-!
An edit of a map is a function of its source, of its document, from which it takes the surface for
pixels, and of the settings (`MapEdit.edited`). A session that has opened a file shows the text of
the file (`Workspace.run_openFile`). An edit in it ends as that function does, and what the function
gives is written to the file, if edits are written back (`Workspace.run_edit`).
-/

/-- An edit of a map: to move a name to a position or to a pixel of the surface, or to evolve it. -/
inductive MapEdit where
  | move (name : Text) (position : Position)
  | drag (name : Text) (pixel : Pixel Double)
  | evolve (name : Text) (maturity : Double)

/-- An edit as an action of a session. -/
def MapEdit.action : MapEdit → Action
  | .move name position => .move name position
  | .drag name pixel => .drag name pixel
  | .evolve name maturity => .evolve name maturity

/-- What an edit makes of a source with its document, none if there is nothing to edit. -/
def MapEdit.edited (settings : Settings) (source : Text) (doc : Document) :
    MapEdit → Except Fault (Option Edited)
  | .move name position =>
      (updatePosition source name position settings.editor.coordinatePrecision).mapError .precision
  | .drag name pixel => do
      let surface ← (Surface.forMap (some doc) settings.canvas).mapError .surface
      (updatePosition source name (surface.toNormalized pixel).position
        settings.editor.coordinatePrecision).mapError .precision
  | .evolve name maturity =>
      (updateEvolution source name maturity settings.editor.coordinatePrecision).mapError .precision

/-- The bytes of the file of a map after an edit. -/
def bytesAfter (bytes : List UInt8) : Except Fault (Option Edited) → List UInt8
  | .ok (some e) => Utf8.encode e.source
  | _ => bytes

/-! ### Taking a text -/

/-- A workspace has taken a text in the place of the one that it had. -/
structure Workspace.Took (aimed : Workspace) (t : Text) (doc : Document) (w : Workspace) :
    Prop where
  text : w.session.text = t
  loaded : w.session.loaded = true
  document : aimed.session.loaded = false → w.session.document = doc
  path : w.session.path = aimed.session.path
  settings : w.settings = aimed.settings
  directory : w.directory = aimed.directory

namespace Workspace

/-- An action that replaces the text by one that can be read takes it and comes to its end. -/
theorem run_of_replaceText {w aimed : Workspace} {a : Action} {t : Text} {doc : Document}
    {closing : Closing} {outputs : List Output}
    (begun : w.begin a = (aimed.replaceText t closing).after outputs)
    (read : Document.read t = .ok doc) :
    ∃ taken, aimed.Took t doc taken ∧
      (w.run [] a).workspace = (closing.finish taken).1 ∧
      (w.run [] a).result = .ok (closing.finish taken).2.2 := by
  by_cases same : aimed.session.loaded = true ∧ aimed.session.text = t
  · have already : (aimed.session.loaded && decide (aimed.session.text = t)) = true := by
      simp [same.1, same.2]
    rw [replaceText, if_pos already] at begun
    have phase : (w.begin a).phase = .ended (.ok (closing.finish aimed).2.2) := by rw [begun]; rfl
    refine ⟨aimed, ?_, ?_, ?_⟩
    · exact { text := same.2, loaded := same.1, document := fun fresh => by simp [same.1] at fresh,
              path := rfl, settings := rfl, directory := rfl }
    · rw [run_ended phase, begun]
      rfl
    · rw [run_ended phase]
  · have other : ¬ (aimed.session.loaded && decide (aimed.session.text = t)) = true := by
      simpa using same
    rw [replaceText, if_neg other, read] at begun
    have phase : (w.begin a).phase = .telling closing := by rw [begun]; rfl
    refine ⟨(w.begin a).workspace, ?_, ?_, ?_⟩
    · rw [begun]
      exact { text := rfl, loaded := rfl, document := fun _ => rfl, path := rfl, settings := rfl,
              directory := rfl }
    · rw [run_untaken phase, closing.resume_ok rfl]
      rfl
    · rw [run_untaken phase, closing.resume_ok rfl]
      rfl

/-! ### Opening -/

/-- A workspace shows the text of a file that was opened. -/
structure Shows (settings : Settings) (d : Directory) (path source : Text) (doc : Document)
    (w : Workspace) : Prop where
  settings : w.settings = settings
  directory : w.directory = d
  path : w.session.path = some path
  text : w.session.text = source
  document : w.session.document = doc

/-- The second part of opening a file leaves all that is shown. -/
theorem shows_finish_watch {settings : Settings} {d : Directory} {path source : Text}
    {doc : Document} {w : Workspace} (h : w.Shows settings d path source doc) :
    (Closing.watch.finish w).1.Shows settings d path source doc := by
  simp only [Closing.finish, startWatching]
  split
  · exact { settings := h.settings, directory := h.directory, path := h.path, text := h.text,
            document := h.document }
  · exact h

/-- Opening a file whose text can be read succeeds and shows it. -/
theorem run_openFile {settings : Settings} {d : Directory} {path source : Text} {doc : Document}
    (content : d.readText path = .ok source) (read : Document.read source = .ok doc)
    (clock : Double) (monitored : Bool) :
    ((start settings d clock monitored).run [] (.openFile path)).result = .ok (.flag true) ∧
      ((start settings d clock monitored).run [] (.openFile path)).workspace.Shows settings d
        (d.absolute path) source doc := by
  have usable : unusablePath? path = none := by
    obtain ⟨bytes, found, -⟩ := Directory.readText_eq_ok.1 content
    obtain ⟨p, leads, -⟩ := Directory.read_eq_ok.1 found
    exact (Directory.resolve_eq_ok.1 leads).1
  let w := start settings d clock monitored
  let aimed := (Action.openFile path).aim w
  have begun : w.begin (.openFile path) = (aimed.replaceText source .watch).after
      (.report (traceEnter sessionCategory openFileName) :: w.stopSignals) := by
    show w.openFile path = _
    rw [openFile, usable]
    simp only
    rw [show w.directory = d from rfl, content]
    rfl
  obtain ⟨taken, took, workspace, result⟩ := run_of_replaceText begun read
  rw [workspace, result]
  refine ⟨congrArg Except.ok ((Closing.watch.answer_finish taken).2 rfl), shows_finish_watch ?_⟩
  exact { settings := took.settings, directory := took.directory, path := took.path,
          text := took.text, document := took.document rfl }

/-! ### Editing -/

section

variable {w : Workspace} {settings : Settings} {d : Directory} {path source : Text}
  {doc : Document}

theorem begin_drag_of_error {e : SurfaceTooSmall} (small : w.surface = .error e) (name : Text)
    (pixel : Pixel Double) : w.begin (.drag name pixel) = w.failing [] (.surface e) := by
  unfold begin
  dsimp only
  rw [small]

/-- A pixel of the surface is moved to as the position that it stands for. -/
theorem begin_drag_of_ok {s : Surface Double} (made : w.surface = .ok s) (name : Text)
    (pixel : Pixel Double) :
    w.begin (.drag name pixel) = w.move name (s.toNormalized pixel).position := by
  unfold begin
  dsimp only
  rw [made]

/-- How an edit begins: it stops with a fault, or finds nothing to edit, or replaces the text. -/
theorem begin_edit (h : w.Shows settings d path source doc) (edit : MapEdit) :
    match edit.edited settings source doc with
    | .error f => w.begin edit.action = w.failing [] f
    | .ok none => ∃ outputs, w.begin edit.action = w.answering outputs (.flag false)
    | .ok (some e) =>
        ∃ outputs,
          w.begin edit.action = (w.replaceText e.source (.announce true)).after outputs := by
  have applied (x : Except PrecisionError (Option Edited)) (entries : Option Edited → List LogEntry)
      (notice : Text) :
      match x.mapError Fault.precision with
      | .error f => w.applyEdit x entries notice = w.failing [] f
      | .ok none => ∃ outputs, w.applyEdit x entries notice = w.answering outputs (.flag false)
      | .ok (some e) =>
          ∃ outputs, w.applyEdit x entries notice =
            (w.replaceText e.source (.announce true)).after outputs := by
    cases x with
    | error e => rfl
    | ok found =>
        cases found with
        | none => exact ⟨_, rfl⟩
        | some e => exact ⟨_, rfl⟩
  cases edit with
  | move name position =>
      rw [← h.settings, ← h.text]
      exact applied _ _ _
  | drag name pixel =>
      have same : w.surface = Surface.forMap (some doc) settings.canvas := by
        rw [Workspace.surface, h.document, h.settings]
      rw [MapEdit.action, MapEdit.edited]
      cases surface : Surface.forMap (some doc) settings.canvas with
      | error e => exact begin_drag_of_error (same.trans surface) name pixel
      | ok s =>
          rw [begin_drag_of_ok (same.trans surface), ← h.settings, ← h.text]
          exact applied _ _ _
  | evolve name maturity =>
      rw [← h.settings, ← h.text]
      exact applied _ _ _

/-- The second part of an edit writes the text to the open file. -/
theorem finish_announce_directory {p : Path} (on : w.settings.editor.writeBack = true)
    (opened : w.session.path = some path) (leads : w.directory.resolve path = .ok p)
    (file : w.directory.node? p ≠ some .folder) (fine : w.directory.trouble? p = none) :
    ((Closing.announce true).finish w).1.directory =
      w.directory.set p (.file (Utf8.encode w.session.text)) := by
  have written : w.directory.writeText path w.session.text =
      .ok (w.directory.set p (.file (Utf8.encode w.session.text))) :=
    Directory.write_eq_ok.2 ⟨p, leads, file, fine, rfl⟩
  simp only [Closing.finish, on, Bool.and_self, if_true, saveFile, opened, written]

/-- An edit in a session that shows a file ends as the edit of its text does, and what that gives is
written to the file: under the path that the session has, and so under every path to it. -/
theorem run_edit {file : Text} {p : Path} {bytes : List UInt8}
    (h : w.Shows settings d path source doc) (on : settings.editor.writeBack = true)
    (leads : d.resolve path = .ok p) (holds : d.HoldsFile file p bytes)
    (fine : d.trouble? p = none) (edit : MapEdit)
    (readable : ∀ e, edit.edited settings source doc = .ok (some e) →
      ∃ after, Document.read e.source = .ok after) :
    (w.run [] edit.action).result =
        (edit.edited settings source doc).map (fun found => .flag found.isSome) ∧
      (w.run [] edit.action).workspace.directory.read file =
        .ok (bytesAfter bytes (edit.edited settings source doc)) := by
  have begun := begin_edit h edit
  cases edited : edit.edited settings source doc with
  | error f =>
      simp only [edited] at begun
      have phase : (w.begin edit.action).phase = .ended (.error f) := by rw [begun]; rfl
      rw [run_ended phase, begun]
      exact ⟨rfl, h.directory ▸ holds.read_eq⟩
  | ok found =>
      cases found with
      | none =>
          simp only [edited] at begun
          obtain ⟨outputs, begun⟩ := begun
          have phase : (w.begin edit.action).phase = .ended (.ok (.flag false)) := by
            rw [begun]
            rfl
          rw [run_ended phase, begun]
          exact ⟨rfl, h.directory ▸ holds.read_eq⟩
      | some e =>
          simp only [edited] at begun
          obtain ⟨outputs, begun⟩ := begun
          obtain ⟨after, read⟩ := readable e edited
          obtain ⟨taken, took, workspace, result⟩ := run_of_replaceText begun read
          have directory : taken.directory = d := took.directory.trans h.directory
          have on' : taken.settings.editor.writeBack = true := by rw [took.settings, h.settings, on]
          have written := finish_announce_directory on' (took.path.trans h.path)
            (directory ▸ leads) (directory ▸ holds.not_folder) (directory ▸ fine)
          rw [workspace, result, written, directory, took.text]
          exact ⟨congrArg Except.ok ((Closing.answer_finish taken (.announce true)).2 rfl),
            (holds.set_self _).read_eq⟩

end

end Workspace

end WardleyMaps
