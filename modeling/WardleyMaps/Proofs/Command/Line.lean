/-
Module: WardleyMaps.Proofs.Command.Line
Purpose: How a line is read that asks for an edit of a file.
Main exports: PlainWord, classify_of_plainWord, Invocation.read_of_plainWord, MapEdit.command,
  MapEdit.Line, MapEdit.Line.read
-/
import WardleyMaps.Command.Invocation
import WardleyMaps.Proofs.Document.Pass
import WardleyMaps.Proofs.Session.Edited
import WardleyMaps.Proofs.Text.Cut

namespace WardleyMaps

open Text

/-!
A line that asks for an edit has the name of the command, the file, the name and the numbers of the
edit, and then switches. It is read as that command (`MapEdit.Line.read`) where no word of it can be
taken for a switch. A number in decimal digits can not, not even a negative one, since no switch is
named by a digit or a point.
-/

/-- A word that is not taken for a switch: it begins with no hyphen, or is a negative number in
decimal digits. -/
def PlainWord (t : Text) : Prop :=
  startsWith ['-'] t = false ∨ looksNegative t = true

instance (t : Text) : Decidable (PlainWord t) :=
  inferInstanceAs (Decidable (_ ∨ _))

/-- A hyphen with something behind it that does not begin a number. -/
def namesSwitch : Text → Bool
  | '-' :: c :: _ => !isDigit c && c ≠ '.'
  | _ => false

/-- All switches are named as switches are. -/
def SwitchTable.WellNamed (table : SwitchTable) : Prop :=
  ∀ entry ∈ table, namesSwitch entry.1 = true

instance (table : SwitchTable) : Decidable table.WellNamed :=
  inferInstanceAs (Decidable (∀ entry ∈ table, namesSwitch entry.1 = true))

/-! ### Plain words -/

theorem namesSwitch_append {start : Text} (h : namesSwitch start = true) (rest : Text) :
    namesSwitch (start ++ rest) = true := by
  unfold namesSwitch at h
  split at h
  · exact h
  · cases h

/-- A negative number is not named as switches are: behind its hyphen stands a digit or a point. -/
theorem namesSwitch_of_looksNegative {t : Text} (h : looksNegative t = true) :
    namesSwitch t = false := by
  unfold namesSwitch
  split
  · next c rest =>
    by_contra named
    obtain ⟨noDigit, noPoint⟩ : isDigit c = false ∧ c ≠ '.' := by simpa using named
    have none : digitValue? c = none := by simpa [isDigit] using noDigit
    simp only [looksNegative, spanDigits, none] at h
    split at h
    · next same => exact noPoint (List.cons.inj (Prod.mk.inj same).2).1
    · next same =>
      rw [← (Prod.mk.inj same).1] at h
      cases h
  · rfl

theorem PlainWord.ne_separator {t : Text} (plain : PlainWord t) : t ≠ separatorText := by
  rintro rfl
  revert plain
  decide +kernel

theorem SwitchTable.WellNamed.get?_eq_none {table : SwitchTable} (named : table.WellNamed)
    {name : Text} (other : namesSwitch name = false) : table.get? name = none := by
  have unnamed : ∀ entry ∈ table, entry.1 ≠ name := by
    rintro entry mem rfl
    cases (named entry mem).symm.trans other
  simpa [get?] using fun t s mem => unnamed (t, s) mem

/-- Plain words are read as such. -/
theorem classify_of_plainWord {table : SwitchTable} (named : table.WellNamed) {t : Text}
    (plain : PlainWord t) : classify table t = some (.plain t) := by
  rcases plain with word | negative
  · simp [classify, word]
  have other : namesSwitch t = false := namesSwitch_of_looksNegative negative
  -- What begins the word is not the name of a switch either.
  have begins {start rest : Text} (whole : t = start ++ rest) : namesSwitch start = false := by
    by_contra h
    rw [whole, namesSwitch_append (by simpa using h)] at other
    cases other
  have unassigned {parts : Text × Text} (found : cutAt '=' t = some parts) :
      table.get? parts.1 = none := named.get?_eq_none (begins (cutAt_eq_some found).1)
  have short : startsWith separatorText t = false := by
    cases found : after? separatorText t with
    | none => simp [startsWith, found]
    | some rest => exact absurd (begins (after?_eq_some.1 found)) (by decide +kernel)
  have noCandidates : candidates table t = [] := by
    have : ∀ entry ∈ table, entry.1 ≠ t.take 2 := by
      intro entry mem same
      have : namesSwitch (t.take 2) = false := begins (List.take_append_drop 2 t).symm
      cases (named entry mem).symm.trans (same ▸ this)
    simpa [candidates, short] using this
  cases found : cutAt '=' t with
  | none => simp [classify, named.get?_eq_none other, found, noCandidates, negative]
  | some parts =>
      simp [classify, named.get?_eq_none other, found, unassigned found, noCandidates, negative]

/-- The roles behind the first argument are those of the other ones, or all plain. -/
theorem classifyAll_cons_eq_some {table : SwitchTable} {t : Text} {rest : List Text}
    {words : List ArgWord} :
    classifyAll table (t :: rest) = some words ↔
      t = separatorText ∧ words = .separator :: rest.map .plain ∨
        t ≠ separatorText ∧ ∃ word later, classify table t = some word ∧
          classifyAll table rest = some later ∧ words = word :: later := by
  rw [classifyAll]
  by_cases single : t = separatorText
  · simp [single, eq_comm]
  · rw [if_neg single]
    cases classify table t with
    | none => simp [single]
    | some word => cases classifyAll table rest <;> simp [single, eq_comm]

/-- The words of a line that begins with plain ones. -/
theorem classifyAll_of_plainWord {table : SwitchTable} (named : table.WellNamed)
    {words : List Text} (plain : ∀ t ∈ words, PlainWord t) (rest : List Text) :
    classifyAll table (words ++ rest) =
      (classifyAll table rest).map (words.map ArgWord.plain ++ ·) := by
  induction words with
  | nil => simp
  | cons t words ih =>
      obtain ⟨first, later⟩ := List.forall_mem_cons.1 plain
      rw [List.cons_append, classifyAll, if_neg first.ne_separator,
        classify_of_plainWord named first, ih later]
      cases classifyAll table rest <;> rfl

/-- A plain word takes its place in a command that lacks words. -/
theorem gather_of_plainWord {count : Nat} {accepts : Nat → Option Text → Bool} {g : Gathered}
    {t : Text} (plain : PlainWord t) (room : g.words.length < count)
    (accepted : accepts g.words.length (some t) = true) (before : Preceding)
    (rest : List ArgWord) :
    gather count accepts before g (.plain t :: rest) =
      gather count accepts .word { g with words := g.words ++ [some t] } rest := by
  have word : wordAfter before t = some t := by simp [wordAfter, plain.ne_separator]
  rw [gather]
  simp only [room, if_true, word, accepted]

/-- Switches behind plain words are read after them. -/
theorem gatherFor_of_plainWord {table : SwitchTable} (named : table.WellNamed) {words : List Text}
    (plain : ∀ t ∈ words, PlainWord t) {switches : List Text} {given : List ArgWord}
    (trailing : classifyAll table switches = some given) (count : Nat)
    (accepts : Nat → Option Text → Bool) :
    gatherFor table count accepts (words ++ switches) =
      gather count accepts .other {} (words.map ArgWord.plain ++ given) := by
  rw [gatherFor, classifyAll_of_plainWord named plain, trailing]
  rfl

theorem numbersFrom_of_readLiteral? {t : Text} {x : Double} (h : Double.readLiteral? t = some x)
    (first place : Nat) : numbersFrom first place (some t) = true := by
  simp [numbersFrom, h]

/-! ### The commands -/

theorem readCommand_move {file name first second : Text}
    (plain : ∀ t ∈ [file, name, first, second], PlainWord t) {x y : Double}
    (hx : Double.readLiteral? first = some x) (hy : Double.readLiteral? second = some y)
    (pixels : Bool) :
    readCommand "move".toList ([file, name, first, second] ++
        if pixels then ["--pixels".toList, "--write".toList] else ["--write".toList]) =
      .ok (.move file (some name) (some x) (some y) pixels true, false) := by
  let table := helpSwitches ++ [("--pixels".toList, .pixels), ("--write".toList, .write)]
  have trailing : classifyAll table
      (if pixels then ["--pixels".toList, "--write".toList] else ["--write".toList]) =
      some
        (if pixels then [.switches [.pixels], .switches [.write]] else [.switches [.write]]) := by
    cases pixels <;> rfl
  rw [readCommand, if_neg (by decide +kernel), if_pos rfl]
  simp only []
  rw [gatherFor_of_plainWord (by decide +kernel) plain trailing]
  simp only [List.map_cons, List.map_nil, List.cons_append, List.nil_append]
  rw [gather_of_plainWord (plain file (by simp)) (by simp) rfl,
    gather_of_plainWord (plain name (by simp)) (by simp) rfl,
    gather_of_plainWord (plain first (by simp)) (by simp)
      (numbersFrom_of_readLiteral? hx _ _),
    gather_of_plainWord (plain second (by simp)) (by simp)
      (numbersFrom_of_readLiteral? hy _ _)]
  cases pixels with
  | false =>
      show Except.ok (Command.move file (some name) (Double.readLiteral? first)
        (Double.readLiteral? second) false true, false) = _
      rw [hx, hy]
  | true =>
      show Except.ok (Command.move file (some name) (Double.readLiteral? first)
        (Double.readLiteral? second) true true, false) = _
      rw [hx, hy]

theorem readCommand_evolve {file name first : Text}
    (plain : ∀ t ∈ [file, name, first], PlainWord t) {x : Double}
    (hx : Double.readLiteral? first = some x) :
    readCommand "evolve".toList ([file, name, first] ++ ["--write".toList]) =
      .ok (.evolve file (some name) (some x) true, false) := by
  have trailing : classifyAll (helpSwitches ++ [("--write".toList, .write)]) ["--write".toList] =
      some [.switches [.write]] := rfl
  rw [readCommand, if_neg (by decide +kernel), if_neg (by decide +kernel), if_pos rfl,
    gatherFor_of_plainWord (by decide +kernel) plain trailing]
  simp only [List.map_cons, List.map_nil, List.cons_append, List.nil_append]
  rw [gather_of_plainWord (plain file (by simp)) (by simp) rfl,
    gather_of_plainWord (plain name (by simp)) (by simp) rfl,
    gather_of_plainWord (plain first (by simp)) (by simp)
      (numbersFrom_of_readLiteral? hx _ _)]
  show Except.ok (Command.evolve file (some name) (Double.readLiteral? first) true, false) = _
  rw [hx]

/-! ### Lines -/

theorem length_of_classifyAll {table : SwitchTable} {args : List Text} {words : List ArgWord}
    (h : classifyAll table args = some words) : words.length = args.length := by
  induction args generalizing words with
  | nil =>
      cases h
      rfl
  | cons t rest ih =>
      rcases classifyAll_cons_eq_some.1 h with ⟨-, rfl⟩ | ⟨-, word, later, -, roles, rfl⟩
      · simp
      · simp [ih roles]

theorem globalSwitches_wellNamed : globalSwitches.WellNamed := by
  decide +kernel

/-- The command's name and what stands behind it. -/
theorem readGlobal_plain_eq_ok {table : SwitchTable} {g : Gathered} {t name : Text}
    {rest : List Text} {later : List ArgWord} {i : Invocation}
    (roles : classifyAll table rest = some later) :
    readGlobal g ((t, .plain name) :: rest.zip later) = .ok i ↔
      g.leftOver = false ∧ ∃ c, readCommand name rest = .ok (c, false) ∧
        i = { verbose := g.has .verbose, trace := g.has .trace, command := c } := by
  rw [readGlobal, List.map_fst_zip (length_of_classifyAll roles).ge, bind_eq_ok]
  constructor
  · rintro ⟨⟨c, leftOver⟩, named, ended⟩
    dsimp only at ended
    split at ended
    · cases ended
    next kept =>
    obtain ⟨whole, rfl⟩ : g.leftOver = false ∧ leftOver = false := by simpa using kept
    exact ⟨whole, c, named, (Except.ok.inj ended).symm⟩
  · rintro ⟨whole, c, named, rfl⟩
    refine ⟨_, named, ?_⟩
    rw [whole]
    rfl

/-- A line without switches in front is read as the command that its first word names. -/
theorem Invocation.read_of_plainWord {name : Text} (words switches : List Text)
    (plain : ∀ t ∈ name :: words, PlainWord t) {given : List ArgWord}
    (trailing : classifyAll globalSwitches switches = some given) {command : Command}
    (named : readCommand name (words ++ switches) = .ok (command, false)) :
    Invocation.read (name :: words ++ switches) =
      .ok { verbose := false, trace := false, command } := by
  have roles (start : List Text) (plain : ∀ t ∈ start, PlainWord t) :
      classifyAll globalSwitches (start ++ switches) = some (start.map ArgWord.plain ++ given) := by
    rw [classifyAll_of_plainWord globalSwitches_wellNamed plain switches, trailing]
    rfl
  rw [Invocation.read, roles _ plain]
  exact (readGlobal_plain_eq_ok (roles words (List.forall_mem_cons.1 plain).2)).2
    ⟨rfl, command, named, rfl⟩

/-- An edit as a command that writes back what it makes of a file. -/
def MapEdit.command (file : Text) : MapEdit → Command
  | .move name position =>
      .move file (some name) (some position.visibility) (some position.maturity) false true
  | .drag name pixel => .move file (some name) (some pixel.x) (some pixel.y) true true
  | .evolve name maturity => .evolve file (some name) (some maturity) true

/-- The lines that ask for an edit of a file and to write it back. -/
inductive MapEdit.Line (file : Text) : MapEdit → List Text → Prop
  | move {name first second : Text} {position : Position}
      (plain : ∀ t ∈ [file, name, first, second], PlainWord t)
      (visibility : Double.readLiteral? first = some position.visibility)
      (maturity : Double.readLiteral? second = some position.maturity) :
      Line file (.move name position)
        ["move".toList, file, name, first, second, "--write".toList]
  | drag {name first second : Text} {pixel : Pixel Double}
      (plain : ∀ t ∈ [file, name, first, second], PlainWord t)
      (x : Double.readLiteral? first = some pixel.x)
      (y : Double.readLiteral? second = some pixel.y) :
      Line file (.drag name pixel)
        ["move".toList, file, name, first, second, "--pixels".toList, "--write".toList]
  | evolve {name first : Text} {maturity : Double}
      (plain : ∀ t ∈ [file, name, first], PlainWord t)
      (number : Double.readLiteral? first = some maturity) :
      Line file (.evolve name maturity)
        ["evolve".toList, file, name, first, "--write".toList]

/-- A line that asks for an edit is read as its command. -/
theorem MapEdit.Line.read {file : Text} {edit : MapEdit} {args : List Text}
    (line : edit.Line file args) :
    Invocation.read args =
      .ok { verbose := false, trace := false, command := edit.command file } := by
  have write : classifyAll globalSwitches ["--write".toList] = some [.unknown] := rfl
  have pixelsWrite : classifyAll globalSwitches ["--pixels".toList, "--write".toList] =
      some [.unknown, .unknown] := rfl
  cases line with
  | move plain visibility maturity =>
      exact Invocation.read_of_plainWord [_, _, _, _] ["--write".toList]
        (List.forall_mem_cons.2 ⟨by decide +kernel, plain⟩) write
        (readCommand_move plain visibility maturity false)
  | drag plain x y =>
      exact Invocation.read_of_plainWord [_, _, _, _] ["--pixels".toList, "--write".toList]
        (List.forall_mem_cons.2 ⟨by decide +kernel, plain⟩) pixelsWrite
        (readCommand_move plain x y true)
  | evolve plain number =>
      exact Invocation.read_of_plainWord [_, _, _] ["--write".toList]
        (List.forall_mem_cons.2 ⟨by decide +kernel, plain⟩) write
        (readCommand_evolve plain number)

end WardleyMaps
