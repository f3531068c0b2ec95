/-
Module: WardleyMaps.Proofs.Session.Refusal
Purpose: What an action on the map that fails leaves behind.
Main exports: Action.worksOnMap, failed, Outcome.Undisturbed, Session.Halted,
  unchanged_iff_of_failed
-/
import WardleyMaps.Proofs.Document.LongNumber
import WardleyMaps.Proofs.Session.Attempt
import WardleyMaps.Proofs.Session.Outcome

namespace WardleyMaps

open Text

/-!
An action on the map fails when it raises a fault or answers that there was nothing to do. Before
its document is accepted it can do so in several places: the file cannot be read or written, no
statement has the name, the surface is too small, a number cannot be written with that many places.
Each of them comes before anything of the session is replaced. The one that comes later is the
reading of the new text itself, which meets a number that is too long: by then the text, its
revision and the path of a file that is opened have been replaced (`Session.Halted`). After the
document was accepted nothing fails, unless listeners do.
-/

/-- The actions on the map: its text is typed, edited, opened, reloaded or saved. -/
def Action.worksOnMap : Action → Bool
  | .setText _ | .move _ _ | .drag _ _ | .evolve _ _ | .openFile _ | .reload | .fileChanged
  | .save =>
      true
  | _ => false

/-- Whether an action failed: it raised a fault, or it answered that nothing was done. -/
def failed : Except Fault Answer → Bool
  | .error _ | .ok (.flag false) => true
  | .ok _ => false

/-- No action that listeners took up meanwhile raised a fault. -/
def Outcome.Undisturbed (o : Outcome) : Prop :=
  ∀ entry ∈ o.done.dropLast, entry.2.isOk = true

instance (o : Outcome) : Decidable o.Undisturbed :=
  inferInstanceAs (Decidable (∀ entry ∈ o.done.dropLast, entry.2.isOk = true))

/-- Nothing disturbs an action that is the only one. -/
theorem Outcome.undisturbed_of_done {o : Outcome} {entry : Action × Except Fault Answer}
    (only : o.done = [entry]) : o.Undisturbed := by
  intro inner mem
  rw [only] at mem
  exact absurd mem List.not_mem_nil

/-- A session has taken a text that cannot be read, and all else of it is as before. -/
structure Session.Halted (e : NumberTooLong) (aimed new : Session) : Prop where
  unreadable : Document.read new.text = .error e
  revision : new.revision = aimed.revision + 1
  document : new.document = aimed.document
  previous : new.previous = aimed.previous
  loaded : new.loaded = aimed.loaded
  path : new.path = aimed.path
  cues : new.cues = aimed.cues

/-! ### Failures after the document was accepted -/

/-- Once listeners heard of the document, nothing fails unless they do. -/
theorem Closing.failed_resume {closing : Closing} {a : Action} {before : List Output}
    {heard : Outcome} (fails : failed (closing.resume a before heard).result = true) :
    ∃ fault, heard.result = .error fault := by
  cases result : heard.result with
  | error fault => exact ⟨fault, rfl⟩
  | ok answer =>
      rw [closing.resume_ok result] at fails
      have fine := (closing.answer_finish heard.workspace).1
      unfold failed at fails
      split at fails
      · next raised => cases raised
      · next refused => exact absurd (Except.ok.inj refused) fine
      · cases fails

namespace Workspace

variable {w : Workspace} {queue : List Action} {a : Action}

/-- An action that fails undisturbed is over before listeners hear of a document. -/
theorem exists_ended_of_failed (fails : failed (w.run queue a).result = true)
    (calm : (w.run queue a).Undisturbed) :
    ∃ result, (w.begin a).phase = .ended result := by
  cases phase : (w.begin a).phase with
  | ended result => exact ⟨result, rfl⟩
  | telling closing =>
      exfalso
      cases queue with
      | nil =>
          rw [run_untaken phase] at fails
          obtain ⟨fault, raised⟩ := Closing.failed_resume fails
          cases raised
      | cons next rest =>
          rw [run_taken phase] at fails calm
          obtain ⟨fault, raised⟩ := Closing.failed_resume fails
          -- The fault is that of the action that listeners took up.
          rw [closing.resume_error raised, Outcome.Undisturbed, List.dropLast_concat, done_run,
            raised] at calm
          have fine := calm _ (List.mem_append_right _ (List.mem_singleton_self _))
          cases fine

/-! ### Failures before it -/

/-- An action on the map that is over at once and failed either left the session alone, or it took a
text that cannot be read. -/
theorem session_of_failed (works : a.worksOnMap = true) {result : Except Fault Answer}
    (phase : (w.begin a).phase = .ended result) (fails : failed result = true) :
    (metUnreadable result = false ∧ (w.begin a).workspace.session = w.session) ∨
      ∃ e, result = .error (.number e) ∧
        (a.aim w).session.Halted e (w.begin a).workspace.session := by
  cases replaces : a.closing? with
  | none =>
      -- The action that is left is saving.
      cases a with
      | save =>
          cases phase
          exact .inl ⟨rfl, w.saveFile_silent.1⟩
      | setText | move | drag | evolve | openFile | reload | fileChanged => cases replaces
      | _ => cases works
  | some closing =>
      cases w.begin_attempt replaces with
      | refused result' phase' kept silent refusal readable =>
          cases phase.symm.trans phase'
          exact .inl ⟨readable, congrArg Workspace.session kept⟩
      | again phase' finished announces =>
          cases phase.symm.trans phase'
          have fine := (closing.answer_finish (a.aim w)).1
          unfold failed at fails
          split at fails
          · next raised => cases raised
          · next refused => exact absurd (Except.ok.inj refused) fine
          · cases fails
      | unread t e unreadable phase' silent taken =>
          cases phase.symm.trans phase'
          rw [taken]
          exact .inr ⟨e, rfl, unreadable, rfl, rfl, rfl, rfl, rfl, rfl⟩
      | told phase' silent => cases phase.symm.trans phase'

end Workspace

/-- The path of the open file is all of a session that an action may have replaced before it takes
the text. -/
theorem Action.revision_aim (w : Workspace) (a : Action) :
    (a.aim w).session.revision = w.session.revision := by
  cases a <;> rfl

/-- An action on the map that fails, while no action of the listeners raises a fault, leaves the
session as it was if and only if it was not a text that cannot be read that stopped it. In that case
the session has the new text and the next revision, still has the document of the text before, and
has the path of the file, if one was opened. -/
theorem unchanged_iff_of_failed (w : Workspace) (queue : List Action) (a : Action)
    (works : a.worksOnMap = true) (fails : failed (w.run queue a).result = true)
    (calm : (w.run queue a).Undisturbed) :
    ((w.run queue a).workspace.session = w.session ↔
      metUnreadable (w.run queue a).result = false) ∧
    ∀ e, (w.run queue a).result = .error (.number e) →
      (a.aim w).session.Halted e (w.run queue a).workspace.session := by
  obtain ⟨result, phase⟩ := Workspace.exists_ended_of_failed fails calm
  rw [Workspace.run_ended phase] at fails ⊢
  rcases Workspace.session_of_failed works phase fails with ⟨readable, same⟩ | ⟨e, rfl, halted⟩
  · refine ⟨iff_of_true same readable, ?_⟩
    rintro e rfl
    cases readable
  · constructor
    · refine iff_of_false ?_ nofun
      intro same
      have revision := halted.revision
      rw [same, a.revision_aim] at revision
      omega
    · rintro e' raised
      cases raised
      exact halted

/-- A text that cannot be read is kept nevertheless when it is typed. -/
theorem Workspace.run_setText_of_unread {w : Workspace} {t : Text} {e : NumberTooLong}
    (unread : Document.read t = .error e) (other : w.session.text ≠ t) (queue : List Action) :
    w.run queue (.setText t) =
      { workspace :=
          { w with session := { w.session with text := t, revision := w.session.revision + 1 } }
        queue
        outputs := []
        result := .error (.number e)
        done := [(.setText t, .error (.number e))] } := by
  have begun : w.begin (.setText t) =
      { workspace :=
          { w with session := { w.session with text := t, revision := w.session.revision + 1 } }
        outputs := []
        phase := .ended (.error (.number e)) } := by
    show w.replaceText t .giveDocument = _
    rw [replaceText, if_neg (by simp [other]), unread]
    rfl
  have phase := congrArg Progress.phase begun
  rw [run_ended phase, begun]
  rfl

/-- Here a text is typed whose annotation has a number of 4301 digits. It stays in the session
beside the document of the text before. -/
theorem changed_of_long_number :
    ∃ first o : Outcome,
      first = (Workspace.start {} { nodes := [] } 0 true).run []
        (.setText "anchor A [1, 0]".toList) ∧
      o = first.workspace.run [] (.setText (onesNote 4301)) ∧
      (∃ e, o.result = .error (.number e)) ∧
      o.workspace.session ≠ first.workspace.session ∧
      o.workspace.session.text = onesNote 4301 ∧
      o.workspace.session.document = first.workspace.session.document := by
  obtain ⟨first, hfirst⟩ : ∃ first : Outcome, first =
      (Workspace.start {} { nodes := [] } 0 true).run [] (.setText "anchor A [1, 0]".toList) :=
    ⟨_, rfl⟩
  have other : first.workspace.session.text ≠ onesNote 4301 := by
    have given : first.workspace.session.text = "anchor A [1, 0]".toList := by
      rw [hfirst]
      decide +kernel
    have capital : 'A' ∉ onesNote 4301 := not_mem_onesNote (by decide) 4301
    intro same
    rw [← same, given] at capital
    exact capital (by decide +kernel)
  have long : maxIntegerDigits < 4301 := by decide
  obtain ⟨e, unread⟩ := exists_error_read_onesNote long
  have ran := Workspace.run_setText_of_unread unread other []
  obtain ⟨o, ho⟩ : ∃ o, o = first.workspace.run [] (.setText (onesNote 4301)) := ⟨_, rfl⟩
  have result : o.result = .error (.number e) := by rw [ho, ran]
  have fails : failed o.result = true := by rw [result]; rfl
  have calm : o.Undisturbed := Outcome.undisturbed_of_done (by rw [ho, ran])
  have unchanged := unchanged_iff_of_failed first.workspace [] (.setText (onesNote 4301)) rfl
    (ho ▸ fails) (ho ▸ calm)
  rw [← ho] at unchanged
  refine ⟨first, o, hfirst, ho, ⟨e, result⟩, ?_, ?_, (unchanged.2 e result).document⟩
  · intro same
    have readable := unchanged.1.1 same
    rw [result] at readable
    cases readable
  · rw [ho, ran]

end WardleyMaps
