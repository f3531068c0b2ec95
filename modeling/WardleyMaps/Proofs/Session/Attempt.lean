/-
Module: WardleyMaps.Proofs.Session.Attempt
Purpose: What an action that is to replace the text can come to before its second part.
Main exports: announced, Action.closing?, Progress.Attempt, Workspace.begin_attempt,
  Workspace.begin_aside
-/
import WardleyMaps.Proofs.Session.Effect

namespace WardleyMaps

open Text

/-!
The actions that replace the text differ in where the new text comes from and in what they do once
listeners heard of the new document. Apart from that they can come to one of four things
(`Workspace.begin_attempt`): there is no text to take, or it is the text that is there already, or
it cannot be read, or listeners are to hear of its document. No other action announces a text
(`Workspace.begin_aside`).
-/

/-! ### What is announced -/

/-- The text that an output announces. -/
def Output.announcedText : Output → Option Text
  | .signal (.textChanged t) => some t
  | _ => none

/-- The texts that are announced, in the order of the outputs. -/
def announced (outputs : List Output) : List Text :=
  outputs.filterMap Output.announcedText

@[simp] theorem announced_nil : announced [] = [] := rfl

@[simp] theorem announced_append (before after : List Output) :
    announced (before ++ after) = announced before ++ announced after :=
  List.filterMap_append

@[simp] theorem announced_cons_report (e : LogEntry) (rest : List Output) :
    announced (.report e :: rest) = announced rest := rfl

@[simp] theorem announced_cons_textChanged (t : Text) (rest : List Output) :
    announced (.signal (.textChanged t) :: rest) = t :: announced rest := rfl

@[simp] theorem announced_documentChanged (s : Session) :
    announced [.signal (.documentChanged s)] = [] := rfl

@[simp] theorem announced_reports (es : List LogEntry) : announced (reports es) = [] := by
  induction es with
  | nil => rfl
  | cons e rest ih => exact ih

@[simp] theorem announced_fileTrouble (verb path : Text) (message : String) :
    announced (Workspace.fileTrouble verb path message) = [] := rfl

@[simp] theorem announced_stopSignals (w : Workspace) : announced w.stopSignals = [] := by
  rw [Workspace.stopSignals]
  split <;> rfl

@[simp] theorem Closing.announced_abandon (closing : Closing) (f : Fault) :
    announced (closing.abandon f) = [] := by
  cases closing <;> rfl

/-- Writing the file announces nothing. -/
@[simp] theorem Workspace.announced_saveFile (w : Workspace) : announced w.saveFile.2.1 = [] := by
  rw [saveFile]
  split
  · rfl
  · split <;> rfl

/-! ### The second part of an action -/

/-- Whether the second part of an action announces the text. -/
def Closing.announces : Closing → Bool
  | .announce _ | .watch => true
  | .giveDocument | .accept => false

/-- The text that is announced is the current one. -/
theorem Closing.announced_finish (w : Workspace) (closing : Closing) :
    announced (closing.finish w).2.1 =
      List.replicate closing.announces.toNat w.session.text := by
  cases closing with
  | giveDocument => rfl
  | accept => rfl
  | announce save =>
      rw [Closing.finish]
      split
      · simp [Closing.announces]
      · rfl
  | watch =>
      simp only [Closing.finish, Workspace.startWatching]
      split <;> rfl

/-- The second part of an action never says that it failed; where it announces the text, it says
that it did not. -/
theorem Closing.answer_finish (w : Workspace) (closing : Closing) :
    (closing.finish w).2.2 ≠ .flag false ∧
      (closing.announces = true → (closing.finish w).2.2 = .flag true) := by
  cases closing with
  | giveDocument => constructor <;> (intro other; cases other)
  | accept => constructor <;> (intro other; cases other)
  | announce save =>
      rw [Closing.finish]
      split <;> exact ⟨by rintro ⟨⟩, fun _ => rfl⟩
  | watch => exact ⟨by rintro ⟨⟩, fun _ => rfl⟩

/-! ### Replacing the text -/

/-- What an action that replaces the text does once listeners heard of the new document. -/
def Action.closing? : Action → Option Closing
  | .setText _ => some .giveDocument
  | .move _ _ | .drag _ _ | .evolve _ _ => some (.announce true)
  | .openFile _ => some .watch
  | .reload | .fileChanged => some (.announce false)
  | _ => none

/-- The workspace in which an action replaces the text: a file that is opened is the open one by
then. -/
def Action.aim (w : Workspace) : Action → Workspace
  | .openFile path =>
      { w with session := { w.session with path := some (w.directory.absolute path) } }
  | _ => w

/-- What the first part of an action that is to replace the text comes to. The workspace in which
the text is replaced is given. -/
inductive Progress.Attempt (before aimed : Workspace) (closing : Closing) (p : Progress) : Prop
  /-- There is no text to take, and all stays as it is. -/
  | refused (result : Except Fault Answer) (phase : p.phase = .ended result)
      (kept : p.workspace = before) (silent : announced p.outputs = [])
      (refusal : result ≠ .ok (.flag true)) (readable : metUnreadable result = false)
  /-- The text is the one whose document was accepted, so only the second part is done. -/
  | again (phase : p.phase = .ended (.ok (closing.finish aimed).2.2))
      (finished : p.workspace = (closing.finish aimed).1)
      (announces : announced p.outputs = announced (closing.finish aimed).2.1)
  /-- The text was taken and cannot be read. -/
  | unread (t : Text) (e : NumberTooLong) (failed : Document.read t = .error e)
      (phase : p.phase = .ended (.error (.number e))) (silent : announced p.outputs = [])
      (taken : p.workspace.session =
        { aimed.session with text := t, revision := aimed.session.revision + 1 })
  /-- The document of the text was accepted. -/
  | told (phase : p.phase = .telling closing) (silent : announced p.outputs = [])

/-- Outputs that announce nothing may come first. -/
theorem Progress.Attempt.after {before aimed : Workspace} {closing : Closing} {p : Progress}
    (h : p.Attempt before aimed closing) {outputs : List Output} (quiet : announced outputs = []) :
    (p.after outputs).Attempt before aimed closing := by
  have same : announced (p.after outputs).outputs = announced p.outputs := by
    rw [Progress.after, announced_append, quiet, List.nil_append]
  cases h with
  | refused result phase kept silent refusal readable =>
      exact .refused result phase kept (same.trans silent) refusal readable
  | again phase finished announces => exact .again phase finished (same.trans announces)
  | unread t e failed phase silent taken =>
      exact .unread t e failed phase (same.trans silent) taken
  | told phase silent => exact .told phase (same.trans silent)

namespace Workspace

variable (w : Workspace)

/-- A refusal with an answer. -/
theorem answering_attempt (aimed : Workspace) (closing : Closing) {outputs : List Output}
    {a : Answer} (silent : announced outputs = []) (refusal : a ≠ .flag true) :
    (w.answering outputs a).Attempt w aimed closing :=
  .refused (.ok a) rfl rfl silent (fun same => refusal (Except.ok.inj same)) rfl

/-- A refusal with a fault. -/
theorem failing_attempt (aimed : Workspace) (closing : Closing) {outputs : List Output} {f : Fault}
    (silent : announced outputs = []) (readable : metUnreadable (.error f) = false) :
    (w.failing outputs f).Attempt w aimed closing :=
  .refused (.error f) rfl rfl silent nofun readable

theorem replaceText_attempt (before : Workspace) (t : Text) (closing : Closing) :
    (w.replaceText t closing).Attempt before w closing := by
  rw [replaceText]
  split
  · exact .again rfl rfl rfl
  · cases read : Document.read t with
    | error e => exact .unread t e read rfl (by simp [failing]) rfl
    | ok d => exact .told rfl (by simp [accept, Progress.after])

theorem applyEdit_attempt (edited : Except PrecisionError (Option Edited))
    (entries : Option Edited → List LogEntry) (notice : Text) :
    (w.applyEdit edited entries notice).Attempt w w (.announce true) := by
  cases edited with
  | error e => exact w.failing_attempt _ _ announced_nil rfl
  | ok found =>
      cases found with
      | none => exact w.answering_attempt _ _ (announced_reports _) nofun
      | some e => exact (w.replaceText_attempt _ _ _).after (announced_reports _)

theorem move_attempt (name : Text) (position : Position) :
    (w.move name position).Attempt w w (.announce true) := by
  rw [move]
  exact w.applyEdit_attempt _ _ _

theorem evolve_attempt (name : Text) (maturity : Double) :
    (w.evolve name maturity).Attempt w w (.announce true) := by
  rw [evolve]
  exact w.applyEdit_attempt _ _ _

theorem openFile_attempt (path : Text) :
    (w.openFile path).Attempt w ((Action.openFile path).aim w) .watch := by
  rw [openFile]
  split
  · exact w.failing_attempt _ _ (by simp) rfl
  · split
    · exact w.answering_attempt _ _ (by simp) (by intro same; cases same)
    · exact (replaceText_attempt _ _ _ _).after (by simp)

theorem reload_attempt : w.reload.Attempt w w (.announce false) := by
  rw [reload]
  split
  · exact w.answering_attempt _ _ announced_nil (by intro same; cases same)
  · split
    · exact w.answering_attempt _ _ (announced_fileTrouble _ _ _) (by intro same; cases same)
    · split
      · exact w.answering_attempt _ _ announced_nil (by intro same; cases same)
      · exact (w.replaceText_attempt _ _ _).after rfl

/-- What the first part of an action that is to replace the text comes to. -/
theorem begin_attempt {a : Action} {closing : Closing} (replaces : a.closing? = some closing) :
    (w.begin a).Attempt w (a.aim w) closing := by
  unfold begin
  cases a with
  | setText t => cases replaces; exact w.replaceText_attempt w t .giveDocument
  | move name position => cases replaces; exact w.move_attempt name position
  | drag name pixel =>
      cases replaces
      dsimp only
      split
      · exact w.failing_attempt _ _ announced_nil rfl
      · exact w.move_attempt _ _
  | evolve name maturity => cases replaces; exact w.evolve_attempt name maturity
  | openFile path => cases replaces; exact w.openFile_attempt path
  | reload => cases replaces; exact w.reload_attempt
  | fileChanged =>
      cases replaces
      dsimp only
      split
      · exact w.reload_attempt
      · exact w.answering_attempt _ _ announced_nil nofun
  | _ => cases replaces

/-- The first part of another action announces nothing. Listeners hear of a document only if one was
handed in, and nothing but success is reported then. -/
theorem begin_aside {a : Action} (aside : a.closing? = none) :
    announced (w.begin a).outputs = [] ∧
      ∀ closing, (w.begin a).phase = .telling closing → closing = .accept := by
  have answering (w' : Workspace) (outputs : List Output) (b : Answer)
      (silent : announced outputs = []) :
      announced (w'.answering outputs b).outputs = [] ∧
        ∀ closing, (w'.answering outputs b).phase = .telling closing → closing = .accept :=
    ⟨silent, nofun⟩
  have failing (w' : Workspace) (f : Fault) :
      announced (w'.failing [] f).outputs = [] ∧
        ∀ closing, (w'.failing [] f).phase = .telling closing → closing = .accept :=
    ⟨rfl, nofun⟩
  unfold begin
  cases a with
  | save => exact answering _ _ _ w.announced_saveFile
  | stop => exact answering _ _ _ (announced_stopSignals w)
  | sample now => exact answering _ _ _ announced_nil
  | commit delta source =>
      dsimp only
      rw [commit]
      split
      · exact failing _ _
      · split
        · refine ⟨by simp [accept, Progress.after], ?_⟩
          rintro closing phase
          cases phase
          rfl
        · exact answering _ _ _ (by simp)
  | surface =>
      dsimp only
      split
      · exact failing _ _
      · exact answering _ _ _ announced_nil
  | look => exact answering _ _ _ announced_nil
  | setClock now => exact answering _ _ _ announced_nil
  | changeSettings change => exact answering _ _ _ announced_nil
  | showFile path =>
      dsimp only
      split
      · exact failing _ _
      · exact answering _ _ _ announced_nil
  | changeFiles change =>
      dsimp only
      split
      · exact failing _ _
      · exact answering _ _ _ announced_nil
  | refused fault => exact failing _ _
  | leave later => exact answering _ _ _ announced_nil
  | _ => cases aside

end Workspace

end WardleyMaps
