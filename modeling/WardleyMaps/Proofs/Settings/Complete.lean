/-
Module: WardleyMaps.Proofs.Settings.Complete
Purpose: When completing the settings file leaves a file alone, over whole runs of a store.
Main exports: StoreState, StoreAction, StoreState.step, StoreState.run, StoreState.missing_run_iff,
  kept_by_ensureFile_iff
-/
import Mathlib.Control.Monad.Basic
import Mathlib.Data.List.Induction
import WardleyMaps.Proofs.Files.Directory
import WardleyMaps.Settings.Store

namespace WardleyMaps

open Text

/-!
Completing writes the settings file if it is missing, or if it is remembered as missing. It is
remembered so from the time at which the settings were loaded first, and only completing itself
forgets it (`StoreState.missing_run_iff`): neither saving nor what others write to the file does. So
a file that stands there is left alone if it was there at first or was completed since; otherwise it
is written over, and keeps its content only if that is what is left of the write
(`kept_by_ensureFile_iff`).
-/

/-! ### Runs -/

/-- A store of settings, and the directory that holds its file. -/
structure StoreState where
  store : SettingsStore
  directory : Directory

/-- What can be done with a store. Besides, others may change the files. -/
inductive StoreAction where
  | set (change : Settings → Settings)
  | save
  | ensureFile
  | reload
  | changeFiles (change : Directory → Except FileFault Directory)

namespace StoreState

/-- The state after something was written, and the fault if that came to no good end. Such a fault
leaves the directory with what was written before it. -/
def writing {α : Type} (s : StoreState) (result : Except SaveFault α) (next : α → StoreState) :
    StoreState × Option Fault :=
  match result with
  | .ok a => (next a, none)
  | .error stopped => ({ s with directory := stopped.directory }, some stopped.fault)

/-- The state after an action, and the fault if there was one. -/
def step (s : StoreState) : StoreAction → StoreState × Option Fault
  | .set change => ({ s with store := { s.store with settings := change s.store.settings } }, none)
  | .save => s.writing (s.store.save s.directory) fun directory => { s with directory }
  | .ensureFile =>
      s.writing (s.store.ensureFile s.directory) fun (store, directory) => { store, directory }
  | .reload =>
      match s.store.reload s.directory with
      | .ok store => ({ s with store }, none)
      | .error e => (s, some (.load e))
  | .changeFiles change =>
      match change s.directory with
      | .ok directory => ({ s with directory }, none)
      | .error e => (s, some (.file e))

/-- The state after some actions. -/
def run (s : StoreState) (actions : List StoreAction) : StoreState :=
  actions.foldl (fun s a => (s.step a).1) s

theorem run_concat (s : StoreState) (ran : List StoreAction) (a : StoreAction) :
    s.run (ran ++ [a]) = ((s.run ran).step a).1 := by
  rw [run, List.foldl_append]
  rfl

/-- The settings file was completed in the course of some actions: completing was one of them and
came to a good end. -/
def Completed (s : StoreState) (actions : List StoreAction) : Prop :=
  ∃ ran, ran ++ [.ensureFile] <+: actions ∧ ((s.run ran).step .ensureFile).2 = none

theorem completed_concat_iff {s : StoreState} {ran : List StoreAction} {a : StoreAction} :
    s.Completed (ran ++ [a]) ↔
      s.Completed ran ∨ a = .ensureFile ∧ ((s.run ran).step .ensureFile).2 = none := by
  constructor
  · rintro ⟨ran', happens, fine⟩
    rcases List.prefix_concat_iff.1 happens with same | earlier
    · obtain ⟨rfl, last⟩ := List.append_inj' same rfl
      exact .inr ⟨(List.singleton_inj.1 last).symm, fine⟩
    · exact .inl ⟨ran', earlier, fine⟩
  · rintro (⟨ran', earlier, fine⟩ | ⟨rfl, fine⟩)
    · exact ⟨ran', earlier.trans (List.prefix_append ran [a]), fine⟩
    · exact ⟨ran, List.prefix_refl _, fine⟩

/-! ### What is remembered -/

/-- Other actions than completing remember of the file what was remembered before. -/
theorem missing_step_of_ne (s : StoreState) {a : StoreAction} (other : a ≠ .ensureFile) :
    (s.step a).1.store.missing = s.store.missing := by
  cases a with
  | set change => rfl
  | save =>
      simp only [step]
      cases s.store.save s.directory <;> rfl
  | ensureFile => exact absurd rfl other
  | reload =>
      simp only [step, SettingsStore.reload]
      cases SettingsStore.load s.directory <;> rfl
  | changeFiles change =>
      simp only [step]
      cases change s.directory <;> rfl

/-- Completing forgets that the file was missing unless it fails. -/
theorem missing_step_ensureFile (s : StoreState) :
    (s.step .ensureFile).1.store.missing =
      (s.store.missing && (s.step .ensureFile).2.isSome) := by
  simp only [step, SettingsStore.ensureFile]
  cases missing : s.store.missing with
  | true => cases saved : s.store.save s.directory <;> simp [Except.map, writing, missing]
  | false =>
      cases present : s.directory.present settingsFile with
      | true => simp [writing, missing]
      | false => cases saved : s.store.save s.directory <;> simp [Except.map, writing, missing]

/-- One action leaves the file remembered as missing unless it completes it. -/
theorem missing_step_iff (s : StoreState) (a : StoreAction) :
    (s.step a).1.store.missing = true ↔
      s.store.missing = true ∧ ¬ (a = .ensureFile ∧ (s.step .ensureFile).2 = none) := by
  by_cases completes : a = .ensureFile
  · rw [completes, missing_step_ensureFile, Bool.and_eq_true, Option.isSome_iff_ne_none]
    simp
  · rw [s.missing_step_of_ne completes]
    simp [completes]

/-- After some actions the file is remembered as missing exactly if it was so at first and was not
completed since. -/
theorem missing_run_iff (s : StoreState) (actions : List StoreAction) :
    (s.run actions).store.missing = true ↔ s.store.missing = true ∧ ¬ s.Completed actions := by
  induction actions using List.reverseRecOn with
  | nil =>
      have never : ¬ s.Completed [] := by
        rintro ⟨ran, happens, -⟩
        simp at happens
      exact (and_iff_left never).symm
  | append_singleton ran a ih =>
      rw [run_concat, missing_step_iff, ih, completed_concat_iff, not_or, and_assoc]

end StoreState

/-! ### Writing over a file -/

namespace SettingsStore

variable {d : Directory} {bytes : List UInt8}

/-- Where the settings file stands, its folder stands as well. -/
theorem ensureFolder_of_read (stands : d.read settingsFile = .ok bytes) :
    d.ensureFolder settingsFolder = .ok d := by
  obtain ⟨p, leads, -⟩ := Directory.read_eq_ok.1 stands
  obtain ⟨-, -, -, walked⟩ := Directory.resolve_eq_ok.1 leads
  have route : d.route settingsFile = d.route settingsFolder ++ ["settings.toml".toList] :=
    (List.append_assoc d.here ["config".toList] ["settings.toml".toList]).symm
  rw [route, Directory.walk_append] at walked
  cases folder : d.walk [] (d.route settingsFolder) with
  | error cause => rw [folder] at walked; cases walked
  | ok q =>
      have found : d.resolve settingsFolder = .ok q :=
        Directory.resolve_eq_ok.2 ⟨by decide +kernel, by decide, by decide +kernel, folder⟩
      have isFolder : d.node? q = some .folder := by
        rw [folder] at walked
        exact (Directory.enter_eq_ok.1 (Directory.walk_cons_eq_ok.1 walked).1).1
      simp only [Directory.ensureFolder, found, bind, Except.bind, isFolder]

/-- Saving over a file ends well, or it stops at the write or at an integer that is too long. In any
case the file then holds what is left of writing what can be written of the settings. -/
theorem read_of_save (s : SettingsStore) (stands : d.read settingsFile = .ok bytes) :
    let left := d.leftBy settingsFile bytes (Utf8.encode s.settings.written.1)
    (∃ d', s.save d = .ok d' ∧ d'.read settingsFile = .ok left) ∨
      ∃ stopped, s.save d = .error stopped ∧ stopped.directory.read settingsFile = .ok left := by
  obtain ⟨p, holds⟩ := Directory.exists_holdsFile stands
  have held := (holds.afterWrite (Utf8.encode s.settings.written.1)).read_eq
  unfold Directory.afterWrite at held
  simp only [save, ensureFolder_of_read stands, Directory.writeText, Except.mapError, bind,
    Except.bind]
  cases written : d.write settingsFile (Utf8.encode s.settings.written.1) with
  | error failed =>
      rw [written] at held
      exact .inr ⟨_, rfl, held⟩
  | ok after =>
      rw [written] at held
      cases s.settings.written.2 with
      | none => exact .inl ⟨_, rfl, held⟩
      | some e => exact .inr ⟨_, rfl, held⟩

end SettingsStore

/-- What completing leaves of a file: the file itself if it is not remembered as missing, and
otherwise what saving leaves of it. -/
theorem StoreState.read_of_ensureFile (s : StoreState) {bytes : List UInt8}
    (stands : s.directory.read settingsFile = .ok bytes) :
    (s.step .ensureFile).1.directory.read settingsFile =
      .ok (if s.store.missing then
        s.directory.leftBy settingsFile bytes (Utf8.encode s.store.settings.written.1)
        else bytes) := by
  have present : s.directory.present settingsFile = true := Directory.present_of_read stands
  cases missing : s.store.missing with
  | false =>
      simp only [step, SettingsStore.ensureFile, missing, present, writing]
      exact stands
  | true =>
      simp only [step, SettingsStore.ensureFile, missing, Bool.true_or, if_true]
      rcases s.store.read_of_save stands with ⟨d', saved, held⟩ | ⟨stopped, saved, held⟩
      · simp only [saved, Except.map, writing]
        exact held
      · simp only [saved, Except.map, writing]
        exact held

/-- In a run of any length over a store that was opened on any directory, completing leaves the
content of a settings file that stands there unchanged if and only if the file was there when the
store was opened, or it was completed in the course of the run, or its content is just what is left
when the settings are written over it: all that can be written of them, unless the write fails. -/
theorem kept_by_ensureFile_iff (d : Directory) (store : SettingsStore)
    (opened : SettingsStore.ofDirectory d = .ok store) (actions : List StoreAction)
    (bytes : List UInt8) :
    let start : StoreState := { store, directory := d }
    let s := start.run actions
    s.directory.read settingsFile = .ok bytes →
      ((s.step .ensureFile).1.directory.read settingsFile = .ok bytes ↔
        d.present settingsFile = true ∨ start.Completed actions ∨
          bytes =
            s.directory.leftBy settingsFile bytes (Utf8.encode s.store.settings.written.1)) := by
  intro start s stands
  have remembered : s.store.missing = true ↔
      ¬ d.present settingsFile = true ∧ ¬ start.Completed actions := by
    have first : start.store.missing = !d.present settingsFile := by
      rw [SettingsStore.ofDirectory] at opened
      cases loaded : SettingsStore.load d with
      | error e => rw [loaded] at opened; cases opened
      | ok settings => rw [loaded] at opened; cases opened; rfl
    rw [start.missing_run_iff, first, Bool.not_eq_true', Bool.not_eq_true]
  rw [s.read_of_ensureFile stands, Except.ok.injEq, ← or_assoc]
  by_cases there : d.present settingsFile = true ∨ start.Completed actions
  · have kept : s.store.missing = false := by
      rw [← Bool.not_eq_true, remembered, not_and_or, not_not, not_not]
      exact there
    exact iff_of_true (by simp [kept]) (.inl there)
  · rw [if_pos (remembered.2 (not_or.1 there)), or_iff_right there, eq_comm]

/-- Here the file was missing when the store was opened, and others made it before it was completed.
What they wrote is lost. -/
theorem written_over_of_late_file :
    let content : Text := "[canvas]\nwidth = 900\n".toList
    let d : Directory := { nodes := [] }
    let store : SettingsStore := { missing := true }
    let start : StoreState := { store, directory := d }
    let made : StoreAction :=
      .changeFiles fun d => d.replace settingsFile (.file (Utf8.encode content))
    SettingsStore.ofDirectory d = .ok store ∧
      (start.run [made]).directory.read settingsFile = .ok (Utf8.encode content) ∧
      ((start.run [made]).step .ensureFile).2 = none ∧
      ((start.run [made]).step .ensureFile).1.directory.read settingsFile ≠
        .ok (Utf8.encode content) := by
  intro content d store start made
  have opened : SettingsStore.ofDirectory d = .ok store := by decide +kernel
  have stands : (start.run [made]).directory.read settingsFile = .ok (Utf8.encode content) := by
    decide +kernel
  refine ⟨opened, stands, by decide +kernel, fun kept => ?_⟩
  rcases (kept_by_ensureFile_iff d store opened [made] _ stands).1 kept with
    present | completed | same
  · revert present
    decide +kernel
  · rcases (@StoreState.completed_concat_iff start [] made).1 completed with
      ⟨ran, happens, -⟩ | ⟨other, -⟩
    · simp at happens
    · simp [made] at other
  · revert same
    decide +kernel

end WardleyMaps
