/-
Module: WardleyMaps.Proofs.Session.WriteBack
Purpose: After an edit the open file holds the text, and reading it again changes nothing.
Main exports: Workspace.WrittenBack, Closing.writtenBack_finish, Workspace.run_reload,
  written_back_of_edit
-/
import WardleyMaps.Proofs.Files.Directory
import WardleyMaps.Proofs.Files.Utf8
import WardleyMaps.Proofs.Session.Announced

namespace WardleyMaps

open Text

/-!
An edit that succeeds saves the text in its second part. By then listeners may have replaced the
text, opened another file or changed the settings; what is saved is the text as it then is, to the
file that is then open. The second parts that follow leave text, path and settings alone and write
nothing but this text (`Closing.finish_writtenBack`). So the file holds the text when the outermost
action is over, and since the bytes of a text are read back as the text, reloading finds nothing
new.
-/

/-- The edits: actions that change one statement of the text. -/
def Action.edits : Action → Bool
  | .move _ _ | .drag _ _ | .evolve _ _ => true
  | _ => false

/-- Whether an edit came to an end with success. -/
def edited (entry : Action × Except Fault Answer) : Bool :=
  entry.1.edits && succeeded entry.2

/-- If edits are written back and the open file can be written to, it holds the text. -/
def Workspace.WrittenBack (w : Workspace) : Prop :=
  w.settings.editor.writeBack = true → ∀ path, w.session.path = some path →
    w.directory.writable path = true → w.directory.read path = .ok (Utf8.encode w.session.text)

/-! ### Saving -/

namespace Workspace

variable {w : Workspace}

/-- Once the text was saved, the open file holds it, if it can be written to. -/
theorem writtenBack_saveFile (w : Workspace) : w.saveFile.1.WrittenBack := by
  rw [saveFile]
  split
  · next closed =>
    intro _ path opened
    cases closed.symm.trans opened
  · next path opened =>
    split
    · next failed refused =>
      intro _ path' opened' writable
      cases opened.symm.trans opened'
      exact absurd writable (Directory.not_writable_of_write_eq_error refused)
    · next directory written =>
      intro _ path' opened' _
      cases opened.symm.trans opened'
      exact Directory.read_write written

end Workspace

namespace Closing

/-- The second part of an edit writes the text back. -/
theorem writtenBack_finish (w : Workspace) : ((Closing.announce true).finish w).1.WrittenBack := by
  rw [finish]
  split
  · exact w.writtenBack_saveFile
  · next off =>
    intro on
    exact absurd on off

/-- What was written back stays so in the second part of every action. -/
theorem finish_writtenBack {w : Workspace} (h : w.WrittenBack) (closing : Closing) :
    (closing.finish w).1.WrittenBack := by
  cases closing with
  | giveDocument => exact h
  | accept => exact h
  | announce save =>
      cases save with
      | true => exact writtenBack_finish w
      | false => exact h
  | watch =>
      simp only [finish, Workspace.startWatching]
      split
      · exact h
      · exact h

end Closing

/-! ### Actions -/

/-- An edit announces its text and saves it. -/
theorem Action.closing?_of_edits {a : Action} (edits : a.edits = true) :
    a.closing? = some (.announce true) := by
  cases a with
  | move | drag | evolve => rfl
  | _ => cases edits

namespace Workspace

variable {w : Workspace} {a : Action}

/-- An edit that is over at once with success wrote the text back, since it is the text that was
there. -/
theorem writtenBack_ended {result : Except Fault Answer} (phase : (w.begin a).phase = .ended result)
    (done : edited (a, result) = true) : (w.begin a).workspace.WrittenBack := by
  rw [edited, Bool.and_eq_true, succeeded_iff] at done
  obtain ⟨edits, rfl⟩ := done
  cases w.begin_attempt (a.closing?_of_edits edits) with
  | refused result' phase' kept silent refusal readable =>
      cases phase.symm.trans phase'
      exact absurd rfl refusal
  | again phase' finished announces =>
      rw [finished]
      exact Closing.writtenBack_finish _
  | unread t e unreadable phase' silent taken => cases phase.symm.trans phase'
  | told phase' silent => cases phase.symm.trans phase'

/-- An edit of whose document listeners hear saves the text in its second part. -/
theorem closing_of_edits {closing : Closing} (phase : (w.begin a).phase = .telling closing)
    (edits : a.edits = true) : closing = .announce true := by
  cases w.begin_attempt (a.closing?_of_edits edits) with
  | refused result phase' kept silent refusal readable => cases phase.symm.trans phase'
  | again phase' finished announces => cases phase.symm.trans phase'
  | unread t e unreadable phase' silent taken => cases phase.symm.trans phase'
  | told phase' silent =>
      cases phase.symm.trans phase'
      rfl

/-- Reloading a file that holds the text finds nothing new: nothing is told to anybody, and all
stays as it is. -/
theorem run_reload {path : Text} (opened : w.session.path = some path)
    (written : w.directory.read path = .ok (Utf8.encode w.session.text)) (queue : List Action) :
    w.run queue .reload =
      { workspace := w
        queue
        outputs := []
        result := .ok (.flag false)
        done := [(.reload, .ok (.flag false))] } := by
  have text : w.directory.readText path = .ok w.session.text :=
    Directory.readText_eq_ok.2 ⟨_, written, Utf8.decode_encode _⟩
  have begun : w.begin .reload = w.answering [] (.flag false) := by
    show w.reload = _
    rw [reload, opened]
    simp only [text, if_true]
  have phase : (w.begin .reload).phase = .ended (.ok (.flag false)) := congrArg Progress.phase begun
  rw [run_ended phase, begun]
  rfl

end Workspace

/-! ### Whole runs -/

/-- The text was written back if an edit came to an end with success. -/
def Outcome.EditsWritten (o : Outcome) : Prop :=
  o.done.any edited = true → o.workspace.WrittenBack

/-- Bringing an action to its end keeps what was written back, and an edit writes the text back. -/
theorem Outcome.EditsWritten.resume {heard : Outcome} (h : heard.EditsWritten) {w : Workspace}
    {a : Action} {closing : Closing} (phase : (w.begin a).phase = .telling closing) :
    (closing.resume a (w.begin a).outputs heard).EditsWritten := by
  intro done
  cases result : heard.result with
  | error fault =>
      rw [closing.resume_error result] at done ⊢
      rw [List.any_append, Bool.or_eq_true] at done
      rcases done with inner | own
      · exact h inner
      · simp [edited, succeeded] at own
  | ok answer =>
      rw [closing.resume_ok result] at done ⊢
      rw [List.any_append, Bool.or_eq_true] at done
      rcases done with inner | own
      · exact closing.finish_writtenBack (h inner)
      · simp only [List.any_cons, List.any_nil, Bool.or_false, edited, Bool.and_eq_true] at own
        rw [Workspace.closing_of_edits phase own.1]
        exact Closing.writtenBack_finish _

/-- In the course of an action during which an edit succeeded, the text was written back. -/
theorem Workspace.run_editsWritten (w : Workspace) (queue : List Action) (a : Action) :
    (w.run queue a).EditsWritten := by
  apply run_induction
  · intro w done
    cases done
  · intro w queue a result phase done
    rw [run_ended phase] at done ⊢
    exact writtenBack_ended phase (by simpa using done)
  · intro w a closing heard phase h
    exact h.resume phase

/-- After every action during which an edit succeeded, be it the action itself or one that listeners
took up at any depth: if edits are then written back and the open file can then be written to, its
bytes are those of the text of the session, and reloading it answers that nothing changed, tells
nobody anything and leaves everything as it is. -/
theorem written_back_of_edit (w : Workspace) (queue actions : List Action) :
    ∀ o ∈ w.runAll queue actions, o.done.any edited = true →
      o.workspace.settings.editor.writeBack = true →
      ∀ path, o.workspace.session.path = some path →
        o.workspace.directory.writable path = true →
          o.workspace.directory.read path = .ok (Utf8.encode o.workspace.session.text) ∧
          ∀ later : List Action,
            o.workspace.run later .reload =
              { workspace := o.workspace
                queue := later
                outputs := []
                result := .ok (.flag false)
                done := [(.reload, .ok (.flag false))] } := by
  intro o mem done on path opened writable
  obtain ⟨w', queue', a, -, rfl⟩ := Workspace.exists_run_of_mem_runAll mem
  have written := w'.run_editsWritten queue' a done on path opened writable
  exact ⟨written, Workspace.run_reload opened written⟩

/-- Here a component is moved while listeners hear of a text that was typed. -/
theorem written_back_of_edit_nested :
    let path : Text := "/cups.owm".toList
    let moved : Text := "component Cup [0.25, 0.50]".toList
    let files : Directory := { nodes := [(["cups.owm".toList], .file [])] }
    let actions : List Action :=
      [.openFile "cups.owm".toList,
        .leave (.move "Cup".toList { visibility := 0.25, maturity := 0.5 }),
        .setText "component Cup [0.5, 0.5]".toList]
    ∃ o ∈ (Workspace.start {} files 0 true).runAll [] actions,
      o.workspace.session.path = some path ∧
      o.workspace.session.text = moved ∧
      o.workspace.directory.read path = .ok (Utf8.encode o.workspace.session.text) ∧
      (o.workspace.run [] .reload).outputs = [] := by
  intro path moved files actions
  let start := Workspace.start {} files 0 true
  let opened := start.run [] actions[0]
  let left := opened.workspace.run opened.queue actions[1]
  let o := left.workspace.run left.queue actions[2]
  have mem : o ∈ start.runAll [] actions := by
    simp [Workspace.runAll, actions, o, left, opened]
  have atPath : o.workspace.session.path = some path := by decide +kernel
  have written := written_back_of_edit start [] actions o mem (by decide +kernel)
    (by decide +kernel) path atPath (by decide +kernel)
  refine ⟨o, mem, atPath, by decide +kernel, written.1, ?_⟩
  rw [written.2]

end WardleyMaps
