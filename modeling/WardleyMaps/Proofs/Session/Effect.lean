/-
Module: WardleyMaps.Proofs.Session.Effect
Purpose: What one action can do to the map of a session, and what its listeners hear of that.
Main exports: heard, Session.SameMap, Session.Accepts, Progress.Effect, Workspace.begin_effect,
  Closing.finish_session
-/
import WardleyMaps.Session.Run

namespace WardleyMaps

open Text

/-!
The first part of an action does one of three things. It leaves the map alone and tells nobody, or
it accepts the document of a new text and tells of exactly that document, or it meets a text that
cannot be read (`Workspace.begin_effect`). The second part leaves the map alone.
-/

/-! ### What listeners hear -/

/-- The session that listeners see with an output, if a new document comes with it. -/
def Output.seen : Output → Option Session
  | .signal (.documentChanged s) => some s
  | _ => none

/-- The sessions that listeners see with new documents, in the order of the outputs. -/
def heard (outputs : List Output) : List Session :=
  outputs.filterMap Output.seen

@[simp] theorem heard_nil : heard [] = [] := rfl

@[simp] theorem heard_append (before after : List Output) :
    heard (before ++ after) = heard before ++ heard after :=
  List.filterMap_append

@[simp] theorem heard_cons_report (e : LogEntry) (rest : List Output) :
    heard (.report e :: rest) = heard rest := rfl

@[simp] theorem heard_documentChanged (s : Session) :
    heard [.signal (.documentChanged s)] = [s] := rfl

/-- Nobody hears of a document through the log. -/
@[simp] theorem heard_reports (es : List LogEntry) : heard (reports es) = [] := by
  induction es with
  | nil => rfl
  | cons e rest ih => exact ih

@[simp] theorem heard_fileTrouble (verb path : Text) (message : String) :
    heard (Workspace.fileTrouble verb path message) = [] := rfl

@[simp] theorem heard_stopSignals (w : Workspace) : heard w.stopSignals = [] := by
  rw [Workspace.stopSignals]
  split <;> rfl

@[simp] theorem Closing.heard_abandon (closing : Closing) (f : Fault) :
    heard (closing.abandon f) = [] := by
  cases closing <;> rfl

/-! ### Parts that leave the map alone -/

/-- Writing the file leaves the session alone, and listeners hear of no document. -/
theorem Workspace.saveFile_silent (w : Workspace) :
    w.saveFile.1.session = w.session ∧ heard w.saveFile.2.1 = [] := by
  rw [Workspace.saveFile]
  split
  · exact ⟨rfl, rfl⟩
  · split
    · exact ⟨rfl, rfl⟩
    · exact ⟨rfl, rfl⟩

/-- The second part of an action leaves the session alone. -/
theorem Closing.finish_session (w : Workspace) (closing : Closing) :
    (closing.finish w).1.session = w.session := by
  cases closing with
  | giveDocument => rfl
  | accept => rfl
  | announce save =>
      rw [Closing.finish]
      split
      · exact w.saveFile_silent.1
      · rfl
  | watch =>
      simp only [Closing.finish, Workspace.startWatching]
      split <;> rfl

/-- Listeners hear of no document in the second part of an action. -/
theorem Closing.heard_finish (w : Workspace) (closing : Closing) :
    heard (closing.finish w).2.1 = [] := by
  cases closing with
  | giveDocument => rfl
  | accept => rfl
  | announce save =>
      rw [Closing.finish]
      split
      · exact w.saveFile_silent.2
      · rfl
  | watch =>
      simp only [Closing.finish, Workspace.startWatching]
      split <;> rfl

/-! ### Effects on the map -/

namespace Session

/-- A session has the same map as one before: its text, its documents and its revision. The open
file and the cues may be others. -/
structure SameMap (old new : Session) : Prop where
  text : new.text = old.text
  document : new.document = old.document
  previous : new.previous = old.previous
  loaded : new.loaded = old.loaded
  revision : new.revision = old.revision

/-- A session has accepted the document of its text, where it had another one before. -/
structure Accepts (old new : Session) : Prop where
  read : Document.read new.text = .ok new.document
  previous : new.previous = if old.loaded then some old.document else none
  loaded : new.loaded = true
  revision : new.revision = old.revision + 1

theorem SameMap.refl (s : Session) : s.SameMap s :=
  ⟨rfl, rfl, rfl, rfl, rfl⟩

theorem SameMap.of_eq {old new : Session} (h : new = old) : old.SameMap new := by
  subst h
  exact .refl new

theorem SameMap.trans {s t u : Session} (first : s.SameMap t) (second : t.SameMap u) :
    s.SameMap u where
  text := second.text.trans first.text
  document := second.document.trans first.document
  previous := second.previous.trans first.previous
  loaded := second.loaded.trans first.loaded
  revision := second.revision.trans first.revision

/-- What is accepted after the same map is accepted after the map. -/
theorem SameMap.accepts {s t u : Session} (same : s.SameMap t) (accepts : t.Accepts u) :
    s.Accepts u where
  read := accepts.read
  previous := by rw [accepts.previous, same.loaded, same.document]
  loaded := accepts.loaded
  revision := by rw [accepts.revision, same.revision]

end Session

/-- Whether an action ended at a text that could not be read. Nothing else gives this fault, unless
the operands were refused with it. -/
def metUnreadable : Except Fault Answer → Bool
  | .error (.number _) => true
  | _ => false

/-- What the first part of an action can do to the map of a session. -/
inductive Progress.Effect (before : Session) (p : Progress) : Prop where
  | kept (result : Except Fault Answer) (phase : p.phase = .ended result)
      (silent : heard p.outputs = []) (same : before.SameMap p.workspace.session)
  | told (closing : Closing) (phase : p.phase = .telling closing)
      (once : heard p.outputs = [p.workspace.session])
      (accepts : before.Accepts p.workspace.session)
  | unread (result : Except Fault Answer) (phase : p.phase = .ended result)
      (met : metUnreadable result = true)

namespace Progress.Effect

/-- Outputs that tell of no document may come first. -/
theorem after {s : Session} {p : Progress} (h : p.Effect s) {outputs : List Output}
    (silent : heard outputs = []) : (p.after outputs).Effect s := by
  cases h with
  | kept result phase quiet same =>
      refine .kept result phase ?_ same
      rw [Progress.after, heard_append, silent, quiet, List.nil_append]
  | told closing phase once accepts =>
      refine .told closing phase ?_ accepts
      rw [Progress.after, heard_append, silent, once, List.nil_append]
  | unread result phase met => exact .unread result phase met

/-- An effect on the same map is an effect on the map. -/
theorem of_sameMap {s t : Session} {p : Progress} (same : s.SameMap t) (h : p.Effect t) :
    p.Effect s := by
  cases h with
  | kept result phase silent same' => exact .kept result phase silent (same.trans same')
  | told closing phase once accepts => exact .told closing phase once (same.accepts accepts)
  | unread result phase met => exact .unread result phase met

end Progress.Effect

namespace Workspace

/-- An answer without a new document leaves the map alone. -/
theorem answering_effect {s : Session} {w : Workspace} {outputs : List Output}
    (silent : heard outputs = []) (same : s.SameMap w.session) (a : Answer) :
    (w.answering outputs a).Effect s :=
  .kept (.ok a) rfl silent same

/-- A fault without a new document leaves the map alone. -/
theorem failing_effect {s : Session} {w : Workspace} {outputs : List Output}
    (silent : heard outputs = []) (same : s.SameMap w.session) (f : Fault) :
    (w.failing outputs f).Effect s :=
  .kept (.error f) rfl silent same

/-- Accepting the document of a new text tells of the session that holds both. -/
theorem accept_effect {w : Workspace} {t : Text} {d : Document} (read : Document.read t = .ok d)
    (closing : Closing) :
    (({ w with session := { w.session with text := t, revision := w.session.revision + 1 } }
      : Workspace).accept d closing).Effect w.session := by
  refine .told closing rfl ?_ ⟨read, rfl, rfl, rfl⟩
  rw [accept, heard_append, heard_reports, List.nil_append, heard_documentChanged]

/-- A text that is replaced by itself leaves the map alone, another one is read. -/
theorem replaceText_effect (w : Workspace) (t : Text) (closing : Closing) :
    (w.replaceText t closing).Effect w.session := by
  rw [replaceText]
  split
  · exact answering_effect (closing.heard_finish w) (.of_eq (closing.finish_session w)) _
  · cases read : Document.read t with
    | error e => exact .unread (.error (.number e)) rfl rfl
    | ok d => exact (accept_effect read closing).after (heard_reports _)

/-- A document that was read for another revision is dropped. -/
theorem commit_effect (w : Workspace) {delta : Int} (late : delta ≠ 0) (source : Text) :
    (w.commit delta source).Effect w.session := by
  rw [commit]
  cases read : Document.read source with
  | error e => exact .unread (.error (.number e)) rfl rfl
  | ok d =>
      simp only [if_neg late]
      exact answering_effect (by simp) (.refl _) _

/-- An edit that finds nothing to change leaves the map alone. -/
theorem applyEdit_effect (w : Workspace) (edited : Except PrecisionError (Option Edited))
    (entries : Option Edited → List LogEntry) (notice : Text) :
    (w.applyEdit edited entries notice).Effect w.session := by
  cases edited with
  | error e => exact failing_effect heard_nil (.refl _) _
  | ok found =>
      cases found with
      | none => exact answering_effect (heard_reports _) (.refl _) _
      | some e => exact (w.replaceText_effect _ _).after (heard_reports _)

theorem move_effect (w : Workspace) (name : Text) (position : Position) :
    (w.move name position).Effect w.session := by
  rw [move]
  exact w.applyEdit_effect _ _ _

theorem evolve_effect (w : Workspace) (name : Text) (maturity : Double) :
    (w.evolve name maturity).Effect w.session := by
  rw [evolve]
  exact w.applyEdit_effect _ _ _

/-- A file that is opened gives its path to the session, and its text unless it cannot be read. -/
theorem openFile_effect (w : Workspace) (path : Text) : (w.openFile path).Effect w.session := by
  rw [openFile]
  split
  · exact failing_effect (by simp) (.refl _) _
  · split
    · exact answering_effect (by simp) (.refl _) _
    · refine ((replaceText_effect _ _ _).after (by simp)).of_sameMap ?_
      exact ⟨rfl, rfl, rfl, rfl, rfl⟩

/-- Reloading takes the text of the open file, if it can be read and is another one. -/
theorem reload_effect (w : Workspace) : w.reload.Effect w.session := by
  rw [reload]
  split
  · exact answering_effect heard_nil (.refl _) _
  · split
    · exact answering_effect (heard_fileTrouble _ _ _) (.refl _) _
    · split
      · exact answering_effect heard_nil (.refl _) _
      · exact (w.replaceText_effect _ _).after rfl

end Workspace

/-- Documents are handed in only for another revision than the current one, also by what is left for
later. -/
def Action.CommitsLate : Action → Prop
  | .commit delta _ => delta ≠ 0
  | .leave later => later.CommitsLate
  | _ => True

/-- The first part of every action keeps the map, tells of the document of a new text, or meets a
text that cannot be read. -/
theorem Workspace.begin_effect (w : Workspace) {a : Action} (late : a.CommitsLate) :
    (w.begin a).Effect w.session := by
  unfold begin
  cases a with
  | setText t => exact w.replaceText_effect t .giveDocument
  | move name position => exact w.move_effect name position
  | drag name pixel =>
      dsimp only
      split
      · exact failing_effect heard_nil (.refl w.session) _
      · exact w.move_effect _ _
  | evolve name maturity => exact w.evolve_effect name maturity
  | openFile path => exact w.openFile_effect path
  | reload => exact w.reload_effect
  | save => exact answering_effect w.saveFile_silent.2 (.of_eq w.saveFile_silent.1) _
  | stop => exact answering_effect (heard_stopSignals w) (.refl w.session) _
  | fileChanged =>
      dsimp only
      split
      · exact w.reload_effect
      · exact answering_effect heard_nil (.refl w.session) _
  | sample now =>
      refine answering_effect heard_nil ?_ _
      exact ⟨rfl, rfl, rfl, rfl, rfl⟩
  | commit delta source => exact w.commit_effect late source
  | surface =>
      dsimp only
      split
      · exact failing_effect heard_nil (.refl w.session) _
      · exact answering_effect heard_nil (.refl w.session) _
  | look => exact answering_effect heard_nil (.refl w.session) _
  | setClock now =>
      refine answering_effect heard_nil ?_ _
      exact .refl w.session
  | changeSettings change =>
      refine answering_effect heard_nil ?_ _
      exact .refl w.session
  | showFile path =>
      dsimp only
      split
      · exact failing_effect heard_nil (.refl w.session) _
      · exact answering_effect heard_nil (.refl w.session) _
  | refused fault => exact failing_effect heard_nil (.refl w.session) _
  | changeFiles change =>
      dsimp only
      split
      · exact failing_effect heard_nil (.refl w.session) _
      · refine answering_effect heard_nil ?_ _
        exact .refl w.session
  | leave later => exact answering_effect heard_nil (.refl w.session) _

end WardleyMaps
