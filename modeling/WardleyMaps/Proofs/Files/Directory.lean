/-
Module: WardleyMaps.Proofs.Files.Directory
Purpose: What was written to a file is read from it, and what a write leaves that fails.
Main exports: Directory.writable, Directory.walk_append, Directory.Interrupted,
  Directory.write_cases, Directory.read_eq_ok, Directory.read_write, Directory.HoldsFile,
  Directory.Rewrites, Directory.afterWrite, Directory.leftBy
-/
import WardleyMaps.Files.Directory
import WardleyMaps.Proofs.Fallible

namespace WardleyMaps.Directory

/-!
A path is followed through folders, and only a place that is no folder is written to. So writing
changes none of the places that a path leads through, and the path that led to the place leads there
afterwards (`resolve_set`), where the bytes stand that were written (`read_write`). A write that
fails leaves the directory as it was, unless it is interrupted, and changes nothing but the bytes of
the file in any case (`write_cases`).
-/

/-- Whether a file may be written where a path leads: there is none yet, or it replaces one, and the
write will not fail. -/
def writable (d : Directory) (t : Text) : Bool :=
  match d.resolve t with
  | .ok p => d.node? p ≠ some .folder && d.trouble? p = none
  | .error _ => false

variable {d d' : Directory} {p q : Path} {n : Node} {t : Text} {bytes : List UInt8}

/-! ### Places -/

/-- The outermost folder is never replaced. -/
theorem ne_nil_of_node? (file : d.node? p ≠ some .folder) : p ≠ [] := by
  rintro rfl
  exact file rfl

/-- What was put at a place stands there. -/
theorem node?_set_self (d : Directory) (n : Node) (inside : p ≠ []) :
    (d.set p n).node? p = some n := by
  rw [node?, if_neg inside, set]
  split
  · next taken =>
    generalize d.nodes = nodes at taken
    induction nodes with
    | nil => cases taken
    | cons entry rest ih =>
        by_cases found : entry.1 = p
        · simp [found]
        · have later : rest.any (·.1 = p) = true := by simpa [found] using taken
          simpa [found] using ih later
  · next free =>
    have absent : d.nodes.find? (·.1 = p) = none := by
      rw [List.find?_eq_none]
      intro entry mem found
      exact free (List.any_eq_true.2 ⟨entry, mem, found⟩)
    simp [List.find?_append, absent]

/-- The other places are as before. -/
theorem node?_set_of_ne (d : Directory) (n : Node) (other : q ≠ p) :
    (d.set p n).node? q = d.node? q := by
  rw [node?, node?, set]
  split
  · rfl
  · split
    · congr 1
      generalize d.nodes = nodes
      induction nodes with
      | nil => rfl
      | cons entry rest ih =>
          by_cases found : entry.1 = p
          · simp [found, Ne.symm other, ih]
          · by_cases sought : entry.1 = q
            · simp [sought, other]
            · simp [found, sought, ih]
    · simp [List.find?_append, Ne.symm other]

/-- The working directory stays. -/
@[simp] theorem here_set (d : Directory) (p : Path) (n : Node) : (d.set p n).here = d.here := by
  rw [set]
  split <;> rfl

/-- Writing fails where it failed before. -/
@[simp] theorem trouble?_set (d : Directory) (p : Path) (n : Node) (q : Path) :
    (d.set p n).trouble? q = d.trouble? q := by
  rw [set]
  split <;> rfl

/-! ### Paths -/

/-- A name leads on from a folder unless it is too long. -/
theorem enter_eq_ok {folder : Path} {name : Text} :
    d.enter folder name = .ok q ↔
      d.node? folder = some .folder ∧ (Utf8.encode name).length ≤ maxNameBytes ∧
        q = passed folder name := by
  rw [enter]
  cases d.node? folder with
  | none => simp
  | some node =>
      cases node with
      | file bytes => simp
      | folder =>
          by_cases short : maxNameBytes < (Utf8.encode name).length
          · simp [short, Nat.not_le.2 short]
          · simp [short, Nat.not_lt.1 short, eq_comm]

/-- The first name leads where the others lead on from. -/
theorem walk_cons_eq_ok {here : Path} {name : Text} {rest : List Text} :
    d.walk here (name :: rest) = .ok q ↔
      d.enter here name = .ok (passed here name) ∧ d.walk (passed here name) rest = .ok q := by
  rw [walk, List.foldlM_cons, bind_eq_ok]
  constructor
  · rintro ⟨next, entered, led⟩
    obtain rfl := (enter_eq_ok.1 entered).2.2
    exact ⟨entered, led⟩
  · rintro ⟨entered, led⟩
    exact ⟨_, entered, led⟩

/-- Names lead from where the names before them led. -/
theorem walk_append (d : Directory) (here : Path) (names more : List Text) :
    d.walk here (names ++ more) = (d.walk here names).bind fun p => d.walk p more :=
  List.foldlM_append

/-- A name leads where it led before a file was put somewhere, since it leads on from a folder. -/
theorem enter_set (file : d.node? p ≠ some .folder) {here : Path} {name : Text}
    (found : d.enter here name = .ok q) : (d.set p n).enter here name = .ok q := by
  obtain ⟨folder, short, rfl⟩ := enter_eq_ok.1 found
  have other : here ≠ p := by
    rintro rfl
    exact file folder
  exact enter_eq_ok.2 ⟨(node?_set_of_ne d n other).trans folder, short, rfl⟩

/-- So names lead where they led before. -/
theorem walk_set (file : d.node? p ≠ some .folder) {here : Path} {names : List Text}
    (found : d.walk here names = .ok q) : (d.set p n).walk here names = .ok q := by
  induction names generalizing here with
  | nil => exact found
  | cons name rest ih =>
      obtain ⟨entered, led⟩ := walk_cons_eq_ok.1 found
      exact walk_cons_eq_ok.2 ⟨enter_set file entered, ih led⟩

/-- A path that can be used leads where its names lead. -/
theorem resolve_eq_ok :
    d.resolve t = .ok p ↔
      unusablePath? t = none ∧ t ≠ [] ∧ (Utf8.encode t).length ≤ maxPathBytes ∧
        d.walk [] (d.route t) = .ok p := by
  rw [resolve, mapError_eq_ok]
  cases unusablePath? t with
  | some fault => simp
  | none =>
      by_cases named : t = []
      · simp [named]
      · by_cases short : maxPathBytes < (Utf8.encode t).length
        · simp [named, short, Nat.not_le.2 short]
        · simp [named, short, Nat.not_lt.1 short]

/-- A path leads where it led before a file was put somewhere. -/
theorem resolve_set (file : d.node? p ≠ some .folder) (found : d.resolve t = .ok q) :
    (d.set p n).resolve t = .ok q := by
  have sameRoute : (d.set p n).route t = d.route t := by rw [route, route, here_set]
  rw [resolve_eq_ok] at found ⊢
  obtain ⟨usable, named, short, walked⟩ := found
  rw [sameRoute]
  exact ⟨usable, named, short, walk_set file walked⟩

/-- A path can be used by its name unless that holds a null character. -/
theorem unusablePath?_eq_none : unusablePath? t = none ↔ '\x00' ∉ t := by
  simp [unusablePath?]

/-- What is present stays so when a file is put somewhere. -/
theorem present_set (file : d.node? p ≠ some .folder) (there : d.present t = true) :
    (d.set p n).present t = true := by
  rw [present] at there ⊢
  cases leads : d.resolve t with
  | error fault => simp [leads] at there
  | ok q =>
      rw [resolve_set file leads]
      by_cases same : q = p
      · subst same
        simp only [node?_set_self d n (ne_nil_of_node? file), Option.isSome_some]
      · simpa only [node?_set_of_ne d n same, leads] using there

/-! ### Reading and writing -/

/-- A file is opened where its path leads, unless a folder is there or it must not be written. -/
theorem openPlace_eq_ok :
    d.openPlace t = .ok p ↔
      d.resolve t = .ok p ∧ d.node? p ≠ some .folder ∧ d.trouble? p ≠ some .refused := by
  simp only [openPlace, bind_eq_ok]
  constructor
  · rintro ⟨q, leads, opened⟩
    split at opened
    · cases opened
    · next file =>
      split at opened
      · cases opened
      · next permitted =>
        cases opened
        exact ⟨leads, file, permitted⟩
  · rintro ⟨leads, file, permitted⟩
    exact ⟨p, leads, by rw [if_neg file, if_neg permitted]⟩

/-- A path leads to a place where a file is opened to be written, but only so many bytes get there.
-/
structure Interrupted (d : Directory) (t : Text) (p : Path) (stored : Nat) : Prop where
  leads : d.resolve t = .ok p
  file : d.node? p ≠ some .folder
  trouble : d.trouble? p = some (.interrupted stored)

/-- What a write comes to: the file holds the bytes, or it is not opened and nothing changes, or it
holds the first of the bytes. -/
theorem write_cases (d : Directory) (t : Text) (bytes : List UInt8) :
    (∃ p, (d.resolve t = .ok p ∧ d.node? p ≠ some .folder ∧ d.trouble? p = none) ∧
      d.write t bytes = .ok (d.set p (.file bytes))) ∨
    (∃ fault, d.openPlace t = .error fault ∧ d.write t bytes = .error { fault, directory := d }) ∨
    ∃ p stored, d.Interrupted t p stored ∧
      d.write t bytes =
        .error
          { fault := { cause := .noSpace, path := t }
            directory := d.set p (.file (bytes.take stored)) } := by
  rw [write]
  cases opened : d.openPlace t with
  | error fault => exact .inr (.inl ⟨fault, rfl, rfl⟩)
  | ok p =>
      obtain ⟨leads, file, permitted⟩ := openPlace_eq_ok.1 opened
      dsimp only
      cases trouble : d.trouble? p with
      | none => exact .inl ⟨p, ⟨leads, file, trouble⟩, rfl⟩
      | some kind =>
          cases kind with
          | refused => exact absurd trouble permitted
          | interrupted stored => exact .inr (.inr ⟨p, stored, ⟨leads, file, trouble⟩, rfl⟩)

/-- A file is written where its path leads, unless a folder is there or the write fails. -/
theorem write_eq_ok :
    d.write t bytes = .ok d' ↔
      ∃ p, d.resolve t = .ok p ∧ d.node? p ≠ some .folder ∧ d.trouble? p = none ∧
        d' = d.set p (.file bytes) := by
  constructor
  · intro written
    rcases d.write_cases t bytes with
      ⟨p, ⟨leads, file, fine⟩, same⟩ | ⟨fault, -, same⟩ | ⟨p, stored, -, same⟩
    · exact ⟨p, leads, file, fine, Except.ok.inj (written.symm.trans same)⟩
    · cases written.symm.trans same
    · cases written.symm.trans same
  · rintro ⟨p, leads, file, fine, rfl⟩
    have opened : d.openPlace t = .ok p :=
      openPlace_eq_ok.2 ⟨leads, file, by rw [fine]; exact nofun⟩
    rw [write, opened]
    dsimp only
    rw [fine]

/-- A file may be written where its path leads, unless a folder is there or the write fails. -/
theorem writable_iff :
    d.writable t = true ↔
      ∃ p, d.resolve t = .ok p ∧ d.node? p ≠ some .folder ∧ d.trouble? p = none := by
  rw [writable]
  cases d.resolve t with
  | error fault => simp
  | ok p => simp

/-- Where a path leads to a file that may be written, nothing goes wrong. -/
theorem trouble?_of_writable (writable : d.writable t = true) (leads : d.resolve t = .ok p) :
    d.trouble? p = none := by
  obtain ⟨q, leads', -, fine⟩ := writable_iff.1 writable
  cases leads.symm.trans leads'
  exact fine

/-- Any bytes are written where a file may be written, and nowhere else. -/
theorem exists_write_iff : (∃ d', d.write t bytes = .ok d') ↔ d.writable t = true := by
  simp only [writable_iff, write_eq_ok]
  constructor
  · rintro ⟨d', p, leads, file, fine, -⟩
    exact ⟨p, leads, file, fine⟩
  · rintro ⟨p, leads, file, fine⟩
    exact ⟨_, p, leads, file, fine, rfl⟩

theorem isOk_write : (d.write t bytes).isOk = d.writable t := by
  rw [Bool.eq_iff_iff, ← @exists_write_iff d t bytes]
  cases d.write t bytes <;> simp [Except.isOk, Except.toBool]

/-- A file is read where its path leads. -/
theorem read_eq_ok :
    d.read t = .ok bytes ↔ ∃ p, d.resolve t = .ok p ∧ d.node? p = some (.file bytes) := by
  rw [read]
  cases d.resolve t with
  | error fault => simp [bind, Except.bind]
  | ok p =>
      cases stands : d.node? p with
      | none => simp [bind, Except.bind, stands]
      | some node => cases node <;> simp [bind, Except.bind, stands]

/-- A text is read where bytes are that are a text. -/
theorem readText_eq_ok {source : Text} :
    d.readText t = .ok source ↔ ∃ bytes, d.read t = .ok bytes ∧ Utf8.decode bytes = .ok source := by
  rw [readText]
  cases d.read t with
  | error fault =>
      constructor
      · intro h
        cases h
      · rintro ⟨bytes, found, -⟩
        cases found
  | ok bytes =>
      show (Utf8.decode bytes).mapError ReadFault.bytes = .ok source ↔ _
      simp [mapError_eq_ok]

/-- A file that can be read is present. -/
theorem present_of_read (found : d.read t = .ok bytes) : d.present t = true := by
  obtain ⟨p, leads, there⟩ := read_eq_ok.1 found
  simp only [present, leads, there, Option.isSome_some]

/-! ### One file -/

/-- A path leads to a place where a file with the given bytes stands. -/
structure HoldsFile (d : Directory) (t : Text) (p : Path) (bytes : List UInt8) : Prop where
  leads : d.resolve t = .ok p
  stands : d.node? p = some (.file bytes)

/-- What was put where a path leads is held there. -/
theorem holdsFile_set (leads : d.resolve t = .ok p) (file : d.node? p ≠ some .folder)
    (bytes : List UInt8) : (d.set p (.file bytes)).HoldsFile t p bytes where
  leads := resolve_set file leads
  stands := node?_set_self d _ (ne_nil_of_node? file)

theorem exists_holdsFile (found : d.read t = .ok bytes) : ∃ p, d.HoldsFile t p bytes := by
  obtain ⟨p, leads, stands⟩ := read_eq_ok.1 found
  exact ⟨p, leads, stands⟩

namespace HoldsFile

theorem read_eq (h : d.HoldsFile t p bytes) : d.read t = .ok bytes :=
  read_eq_ok.2 ⟨p, h.leads, h.stands⟩

/-- Putting a file elsewhere leaves it there. -/
theorem set_of_ne (h : d.HoldsFile t p bytes) (other : q ≠ p) (file : d.node? q ≠ some .folder)
    (n : Node) : (d.set q n).HoldsFile t p bytes :=
  { leads := resolve_set file h.leads
    stands := (node?_set_of_ne d n other.symm).trans h.stands }

theorem not_folder (h : d.HoldsFile t p bytes) : d.node? p ≠ some .folder := by
  simp [h.stands]

/-- Putting a file there replaces it. -/
theorem set_self (h : d.HoldsFile t p bytes) (new : List UInt8) :
    (d.set p (.file new)).HoldsFile t p new :=
  holdsFile_set h.leads h.not_folder new

/-- It can be written to if that does not fail. -/
theorem write_eq (h : d.HoldsFile t p bytes) (fine : d.trouble? p = none) (new : List UInt8) :
    d.write t new = .ok (d.set p (.file new)) :=
  write_eq_ok.2 ⟨p, h.leads, h.not_folder, fine, rfl⟩

end HoldsFile

/-- The bytes that were written are read. -/
theorem read_write (written : d.write t bytes = .ok d') : d'.read t = .ok bytes := by
  obtain ⟨p, leads, file, -, rfl⟩ := write_eq_ok.1 written
  exact (holdsFile_set leads file bytes).read_eq

/-- A directory in which a file has other bytes and nothing else changed. -/
structure Rewrites (d : Directory) (t : Text) (bytes : List UInt8) (d' : Directory) : Prop where
  content : d'.read t = .ok bytes
  place : ∃ p, d.resolve t = .ok p ∧ d' = d.set p (.file bytes) ∧
    ∀ q, q ≠ p → d'.node? q = d.node? q

theorem rewrites_set (leads : d.resolve t = .ok p) (file : d.node? p ≠ some .folder)
    (bytes : List UInt8) : d.Rewrites t bytes (d.set p (.file bytes)) where
  content := (holdsFile_set leads file bytes).read_eq
  place := ⟨p, leads, rfl, fun _ other => node?_set_of_ne d _ other⟩

/-! ### Writes that fail -/

/-- The directory after a write, be it that it failed. -/
def afterWrite (d : Directory) (t : Text) (bytes : List UInt8) : Directory :=
  match d.write t bytes with
  | .ok after => after
  | .error failed => failed.directory

theorem afterWrite_of_eq_ok (written : d.write t bytes = .ok d') : d.afterWrite t bytes = d' := by
  rw [afterWrite, written]

namespace Interrupted

variable {stored : Nat}

/-- An interrupted write leaves the first of the bytes. -/
theorem afterWrite_eq (h : d.Interrupted t p stored) (bytes : List UInt8) :
    d.afterWrite t bytes = d.set p (.file (bytes.take stored)) := by
  have opened : d.openPlace t = .ok p :=
    openPlace_eq_ok.2 ⟨h.leads, h.file, by rw [h.trouble]; exact nofun⟩
  rw [afterWrite, write, opened]
  dsimp only
  rw [h.trouble]

theorem not_writable (h : d.Interrupted t p stored) : ¬ d.writable t = true := by
  intro writable
  cases h.trouble.symm.trans (trouble?_of_writable writable h.leads)

/-- Whatever the file comes to hold, the next write is interrupted as well. -/
theorem set (h : d.Interrupted t p stored) (bytes : List UInt8) :
    (d.set p (.file bytes)).Interrupted t p stored where
  leads := resolve_set h.file h.leads
  file := (holdsFile_set h.leads h.file bytes).not_folder
  trouble := (trouble?_set d p _ p).trans h.trouble

end Interrupted

/-- A write to a file that cannot be written changes nothing unless it is interrupted. -/
theorem afterWrite_of_not_writable (refused : ¬ d.writable t = true) (bytes : List UInt8) :
    d.afterWrite t bytes = d ∨ ∃ p stored, d.Interrupted t p stored := by
  rw [afterWrite]
  rcases d.write_cases t bytes with ⟨p, fine, -⟩ | ⟨fault, -, same⟩ | ⟨p, stored, interrupted, -⟩
  · exact absurd (writable_iff.2 ⟨p, fine⟩) refused
  · rw [same]
    exact .inl rfl
  · exact .inr ⟨p, stored, interrupted⟩

/-- A file that could not be written cannot be written to after that. -/
theorem not_writable_of_write_eq_error {failed : WriteFault}
    (refused : d.write t bytes = .error failed) : ¬ failed.directory.writable t = true := by
  rcases d.write_cases t bytes with ⟨p, -, same⟩ | ⟨fault, -, same⟩ | ⟨p, stored, interrupted, same⟩
  · cases refused.symm.trans same
  · have isOk : (d.write t bytes).isOk = d.writable t := isOk_write
    have unwritable : d.writable t = false := by
      rw [← isOk, same]
      rfl
    cases refused.symm.trans same
    exact ne_true_of_eq_false unwritable
  · cases refused.symm.trans same
    exact (interrupted.set _).not_writable

/-- What is left of a write in a file that held bytes before: these, if the file is not opened, and
otherwise all of the new ones, or the first of them. -/
def leftBy (d : Directory) (t : Text) (old new : List UInt8) : List UInt8 :=
  match d.resolve t with
  | .error _ => old
  | .ok p =>
      match d.trouble? p with
      | none => new
      | some .refused => old
      | some (.interrupted stored) => new.take stored

theorem HoldsFile.afterWrite (h : d.HoldsFile t p bytes) (new : List UInt8) :
    (d.afterWrite t new).HoldsFile t p (d.leftBy t bytes new) := by
  rw [leftBy, h.leads]
  dsimp only
  cases trouble : d.trouble? p with
  | none =>
      rw [afterWrite_of_eq_ok (h.write_eq trouble new)]
      exact h.set_self new
  | some kind =>
      cases kind with
      | refused =>
          have unwritable : ¬ d.writable t = true := by
            intro writable
            cases trouble.symm.trans (trouble?_of_writable writable h.leads)
          rcases afterWrite_of_not_writable unwritable new with same | ⟨q, stored, interrupted⟩
          · rw [same]
            exact h
          · cases h.leads.symm.trans interrupted.leads
            cases trouble.symm.trans interrupted.trouble
      | interrupted stored =>
          have interrupted : d.Interrupted t p stored := ⟨h.leads, h.not_folder, trouble⟩
          rw [interrupted.afterWrite_eq]
          exact h.set_self _

end WardleyMaps.Directory
