/-
Module: WardleyMaps.Proofs.Command.WriteSwitch
Purpose: Which command lines ask to write, and how they are read without that.
Main exports: Command.writes, Command.withoutWrite, writeSwitches, asksToWrite,
  withoutWriteSwitches, KeepsHyphens, Gathers, Invocation.read_withoutWriteSwitches
-/
import Mathlib.Data.List.Infix
import WardleyMaps.Proofs.Command.Line

namespace WardleyMaps

open Text

/-!
A command is told to write exactly if one of the words for that stands on its line, in front of the
hyphens after which all words are plain, and without these words the line is read as the same
command that is not told to write (`Invocation.read_withoutWriteSwitches`). The reading of the
arguments is described by a relation (`Gathers`), and both facts are proved along it. Only where
such a word stands right before two pairs of hyphens the line may be read differently without it
(`KeepsHyphens`).
-/

/-- Whether a command is told to write. -/
def Command.writes : Command → Bool
  | .move _ _ _ _ _ write | .evolve _ _ _ write => write
  | .parse _ _ _ | .settings _ => false

/-- The command that prints instead. -/
def Command.withoutWrite : Command → Command
  | .move file name first second pixels _ => .move file name first second pixels false
  | .evolve file name maturity _ => .evolve file name maturity false
  | .parse file json strict => .parse file json strict
  | .settings pathOnly => .settings pathOnly

/-- The invocation that prints instead. -/
def Invocation.withoutWrite (i : Invocation) : Invocation :=
  { i with command := i.command.withoutWrite }

theorem Command.name_withoutWrite (c : Command) : c.withoutWrite.name = c.name := by
  cases c <;> rfl

/-- The words that ask to write: a name of a switch may be cut short. -/
def writeSwitches : List Text :=
  ["--w".toList, "--wr".toList, "--wri".toList, "--writ".toList, "--write".toList]

/-- Whether a line asks to write. -/
def asksToWrite : List Text → Bool
  | [] => false
  | t :: rest => t ≠ separatorText && (t ∈ writeSwitches || asksToWrite rest)

/-- A line without the words that ask to write. -/
def withoutWriteSwitches : List Text → List Text
  | [] => []
  | t :: rest =>
      if t = separatorText then t :: rest
      else if t ∈ writeSwitches then withoutWriteSwitches rest
      else t :: withoutWriteSwitches rest

/-- No word that asks to write stands right before two pairs of hyphens. Without such a word the
first pair would stand with what comes before that, and the second would be blank. -/
def KeepsHyphens (args : List Text) : Prop :=
  ∀ t ∈ writeSwitches, ¬ [t, separatorText, separatorText] <:+: args

instance (args : List Text) : Decidable (KeepsHyphens args) :=
  inferInstanceAs (Decidable (∀ t ∈ writeSwitches, ¬ [t, separatorText, separatorText] <:+: args))

theorem KeepsHyphens.tail {t : Text} {rest : List Text} (kept : KeepsHyphens (t :: rest)) :
    KeepsHyphens rest :=
  fun asks mem inside => kept asks mem (inside.trans (List.infix_cons (List.infix_refl rest)))

/-! ### Switches -/

/-- Only one switch of a table asks to write, and its name can be cut short. -/
structure SwitchTable.Writes (table : SwitchTable) : Prop where
  named : ∀ entry ∈ table, entry.2 = .write → entry.1 = "--write".toList
  read : ∀ t ∈ writeSwitches, classify table t = some (.switches [.write])

/-- No switch of a table asks to write. -/
def SwitchTable.Silent (table : SwitchTable) : Prop :=
  ∀ t ∈ writeSwitches, classify table t = some .unknown

instance (table : SwitchTable) : Decidable table.Silent :=
  inferInstanceAs (Decidable (∀ t ∈ writeSwitches, classify table t = some .unknown))

/-- What an argument may be read as: a plain word is the argument itself, and it asks to write only
if it is one of the words for that. -/
def ArgWord.IsRoleOf (t : Text) : ArgWord → Prop
  | .plain word => word = t
  | .separator => False
  | .switches given => .write ∈ given → t ∈ writeSwitches
  | .unknown | .wrong => True

/-- What is longer than two hyphens and can be completed to the name of the switch. -/
theorem mem_writeSwitches_of_startsWith {t : Text} (begins : startsWith separatorText t = true)
    (longer : t ≠ separatorText) (shortened : startsWith t "--write".toList = true) :
    t ∈ writeSwitches := by
  obtain ⟨rest, whole⟩ := Option.isSome_iff_exists.1 shortened
  have start : t ∈ List.inits "--write".toList :=
    (List.mem_inits _ _).2 ⟨rest, (after?_eq_some.1 whole).symm⟩
  have each : ∀ u ∈ List.inits "--write".toList, startsWith separatorText u = true →
      u ≠ separatorText → u ∈ writeSwitches := by decide +kernel
  exact each t start begins longer

/-- A switch that is found in a table stands there under its name. -/
theorem SwitchTable.mem_of_get? {table : SwitchTable} {name : Text} {s : Switch}
    (found : table.get? name = some s) : (name, s) ∈ table := by
  obtain ⟨entry, first, rfl⟩ := Option.map_eq_some_iff.1 found
  have same : entry.1 = name := by simpa using List.find?_some first
  rw [← same]
  exact List.mem_of_find?_eq_some first

section

variable {table : SwitchTable}
  (named : ∀ entry ∈ table, entry.2 = .write → entry.1 = "--write".toList)

include named

theorem readCluster_isRole {given : List Switch} (other : .write ∉ given) (t letters : Text) :
    (readCluster table given letters).IsRoleOf t := by
  induction letters generalizing given with
  | nil => exact fun mem => absurd mem other
  | cons c letters ih =>
      rw [readCluster]
      cases found : table.get? ['-', c] with
      | none => trivial
      | some s =>
          refine ih fun mem => ?_
          rcases List.mem_append.1 mem with mem | mem
          · exact other mem
          -- A name of one letter is too short.
          have long := named _ (SwitchTable.mem_of_get? found) (List.mem_singleton.1 mem).symm
          revert long
          simp

theorem withValue_isRole {entry : Text × Switch} (mem : entry ∈ table) (t value : Text) :
    (withValue table entry.1 entry.2 (some value)).IsRoleOf t := by
  rw [withValue]
  split
  · trivial
  · next single =>
    refine readCluster_isRole named (fun write => single ?_) t value
    rw [named entry mem (List.mem_singleton.1 write).symm]
    simp [startsWith, separatorText, after?]

theorem candidates_isRole {t : Text} (longer : t ≠ separatorText) {word : ArgWord}
    (mem : word ∈ candidates table t) : word.IsRoleOf t := by
  rw [candidates] at mem
  split at mem
  · next begins =>
    cases assigned : cutAt '=' t with
    | none =>
        simp only [assigned, List.mem_map, List.mem_filter] at mem
        obtain ⟨entry, ⟨known, shortened⟩, rfl⟩ := mem
        intro write
        rw [named entry known (List.mem_singleton.1 write).symm] at shortened
        exact mem_writeSwitches_of_startsWith begins longer shortened
    | some parts =>
        simp only [assigned, List.mem_map, List.mem_filter] at mem
        obtain ⟨entry, ⟨known, -⟩, rfl⟩ := mem
        exact withValue_isRole named known t parts.2
  · simp only [List.mem_map, List.mem_filter] at mem
    obtain ⟨entry, ⟨known, letter⟩, rfl⟩ := mem
    refine readCluster_isRole named (fun write => ?_) t _
    have long := named entry known (List.mem_singleton.1 write).symm
    have two : entry.1.length ≤ 2 := by
      rw [of_decide_eq_true letter]
      exact List.length_take_le 2 t
    rw [long] at two
    revert two
    decide +kernel

/-- The role of an argument. -/
theorem classify_isRole {t : Text} (longer : t ≠ separatorText) {word : ArgWord}
    (role : classify table t = some word) : word.IsRoleOf t := by
  rw [classify] at role
  split at role
  · cases role
    rfl
  · dsimp only at role
    split at role
    · next s _ found =>
      cases role
      intro write
      have full : t = "--write".toList :=
        named _ (SwitchTable.mem_of_get? found) (List.mem_singleton.1 write).symm
      rw [full]
      decide +kernel
    · next _ assigned =>
      cases role
      obtain ⟨parts, -, found⟩ := Option.bind_eq_some_iff.1 assigned
      obtain ⟨s, known, rfl⟩ := Option.map_eq_some_iff.1 found
      exact withValue_isRole named (SwitchTable.mem_of_get? known) t parts.2
    · split at role
      · next only =>
        cases role
        exact candidates_isRole named longer (by simp [only])
      · split at role
        · cases role
          rfl
        · cases role
          trivial
      · cases role

end

/-- What an argument is read as by a command that can be told to write. -/
inductive ArgWord.RoleOf (t : Text) : ArgWord → Prop
  | write (asks : t ∈ writeSwitches) : RoleOf t (.switches [.write])
  | plain (other : t ∉ writeSwitches) (longer : t ≠ separatorText) : RoleOf t (.plain t)
  | switches {given : List Switch} (other : t ∉ writeSwitches) (silent : .write ∉ given) :
      RoleOf t (.switches given)
  | unknown (other : t ∉ writeSwitches) : RoleOf t .unknown
  | wrong (other : t ∉ writeSwitches) : RoleOf t .wrong

theorem SwitchTable.Writes.roleOf {table : SwitchTable} (writes : table.Writes) {t : Text}
    (longer : t ≠ separatorText) {word : ArgWord} (role : classify table t = some word) :
    word.RoleOf t := by
  by_cases asks : t ∈ writeSwitches
  · cases role.symm.trans (writes.read t asks)
    exact .write asks
  have kind := classify_isRole writes.named longer role
  cases word with
  | plain word =>
      cases kind
      exact .plain asks longer
  | separator => exact kind.elim
  | switches given => exact .switches asks (mt kind asks)
  | unknown => exact .unknown asks
  | wrong => exact .wrong asks

/-! ### Gathering -/

/-- How the words and switches of a command are read where nothing is left over. -/
inductive Gathers (count : Nat) (accepts : Nat → Option Text → Bool) :
    Preceding → Gathered → List ArgWord → Gathered → Prop
  | enough {before : Preceding} {g : Gathered} (full : count ≤ g.words.length)
      (whole : g.leftOver = false) : Gathers count accepts before g [] g
  | plain {before : Preceding} {g g' : Gathered} {t : Text} {rest : List ArgWord}
      (room : g.words.length < count)
      (accepted : accepts g.words.length (wordAfter before t) = true)
      (later : Gathers count accepts .word
        { g with words := g.words ++ [wordAfter before t] } rest g') :
      Gathers count accepts before g (.plain t :: rest) g'
  | separatorBehind {g g' : Gathered} {rest : List ArgWord}
      (later : Gathers count accepts .other g rest g') :
      Gathers count accepts .word g (.separator :: rest) g'
  | separatorBefore {before : Preceding} {g g' : Gathered} {rest : List ArgWord}
      (loose : before ≠ .word) (room : g.words.length < count) (more : rest ≠ [])
      (later : Gathers count accepts .separator g rest g') :
      Gathers count accepts before g (.separator :: rest) g'
  | switches {before : Preceding} {g g' : Gathered} {given : List Switch} {rest : List ArgWord}
      (noHelp : .help ∉ given)
      (later : Gathers count accepts .other { g with switches := g.switches ++ given } rest g') :
      Gathers count accepts before g (.switches given :: rest) g'

/-- What was gathered but for the switches that ask to write. -/
def Gathered.withoutWrite (g : Gathered) : Gathered :=
  { g with switches := g.switches.filter (· ≠ .write) }

section

variable {count : Nat} {accepts : Nat → Option Text → Bool} {before before' : Preceding}
  {g g' : Gathered}

theorem Gathers.whole {words : List ArgWord} (read : Gathers count accepts before g words g') :
    g.leftOver = false ∧ g'.leftOver = false := by
  induction read with
  | enough full whole => exact ⟨whole, whole⟩
  | plain room accepted later ih => exact ih
  | separatorBehind later ih => exact ih
  | separatorBefore loose room more later ih => exact ih
  | switches noHelp later ih => exact ih

/-- What is read with nothing left over is read as the relation says, and the other way round. -/
theorem gathers_of_gather {words : List ArgWord}
    (read : gather count accepts before g words = .ok g') (whole : g'.leftOver = false) :
    Gathers count accepts before g words g' := by
  induction words generalizing before g with
  | nil =>
      rw [gather] at read
      split at read
      · cases read
      · next full =>
        cases read
        exact .enough (Nat.le_of_not_lt full) whole
  | cons word rest ih =>
      cases word with
      | plain t =>
          rw [gather] at read
          split at read
          · next room =>
            dsimp only at read
            split at read
            · next accepted => exact .plain room accepted (ih read)
            · cases read
          · cases (ih read).whole.1
      | separator =>
          rw [gather] at read
          split at read
          · next behind =>
            cases behind
            exact .separatorBehind (ih read)
          · next loose =>
            obtain ⟨kept, stands⟩ := Bool.or_eq_false_iff.1 (ih read).whole.1
            obtain ⟨room, more⟩ : g.words.length < count ∧ rest ≠ [] := by simpa using stands
            dsimp only at read
            rw [stands, Bool.or_false] at read
            exact .separatorBefore loose room more (ih read)
      | switches given =>
          rw [gather] at read
          split at read
          · cases read
          · next noHelp => exact .switches (by simpa using noHelp) (ih read)
      | unknown =>
          rw [gather] at read
          cases (ih read).whole.1
      | wrong => cases read

theorem Gathers.gather_eq {words : List ArgWord} (read : Gathers count accepts before g words g') :
    gather count accepts before g words = .ok g' := by
  induction read with
  | enough full whole => rw [gather, if_neg (Nat.not_lt.2 full)]
  | plain room accepted later ih =>
      rw [gather, if_pos room]
      dsimp only
      rw [if_pos accepted, ih]
  | separatorBehind later ih => rw [gather, if_pos rfl, ih]
  | @separatorBefore _ g _ rest loose room more later ih =>
      have stands : (!(decide (g.words.length < count) && !rest.isEmpty)) = false := by
        simp [room, List.isEmpty_eq_false_iff.2 more]
      rw [gather, if_neg loose]
      dsimp only
      rw [stands, Bool.or_false]
      exact ih
  | switches noHelp later ih => rw [gather, if_neg (by simpa using noHelp), ih]

/-- A word that is longer than the hyphens is never blank. -/
theorem wordAfter_of_longer {t : Text} (longer : t ≠ separatorText) :
    wordAfter before t = some t := by
  simp [wordAfter, longer]

/-- Plain words do not ask to write. -/
theorem Gathers.plains {rest : List Text}
    (read : Gathers count accepts before g (rest.map .plain) g') :
    Gathers count accepts before g.withoutWrite (rest.map .plain) g'.withoutWrite ∧
      g'.switches = g.switches := by
  induction rest generalizing before g with
  | nil =>
      obtain ⟨full, whole⟩ := read
      exact ⟨.enough full whole, rfl⟩
  | cons t rest ih =>
      obtain - | ⟨room, accepted, later⟩ := read
      obtain ⟨read, kept⟩ := ih later
      exact ⟨.plain room accepted read, kept⟩

/-- Two hyphens behind a switch stand with the word after them, and without the switch with the word
before them. The word after them is not blank in either case. -/
theorem Gathers.separator {rest : List Text}
    (parted : before' = before ∨ before = .other ∧ ¬ [separatorText] <+: rest)
    (read : Gathers count accepts before g (.separator :: rest.map .plain) g') :
    Gathers count accepts before' g.withoutWrite (.separator :: rest.map .plain)
      g'.withoutWrite := by
  cases read with
  | separatorBehind later =>
      obtain rfl | ⟨⟨⟩, -⟩ := parted
      exact .separatorBehind later.plains.1
  | separatorBefore loose room more later =>
      by_cases behind : before' = .word
      · cases behind
        obtain ⟨-, word⟩ := parted.resolve_left loose.symm
        cases rest with
        | nil => exact absurd rfl more
        | cons u rest =>
            have longer : u ≠ separatorText := fun same => word ⟨rest, by rw [same]; rfl⟩
            obtain - | ⟨room, accepted, later⟩ := later
            rw [wordAfter_of_longer longer] at accepted later
            refine .separatorBehind (.plain room ?_ ?_)
            · rwa [wordAfter_of_longer longer]
            · rw [wordAfter_of_longer longer]
              exact later.plains.1
      · exact .separatorBefore behind room more later.plains.1

variable {table : SwitchTable}

/-- A command is told to write by a word for that and in no other way. -/
theorem Gathers.has_write (writes : table.Writes) {args : List Text} {words : List ArgWord}
    (roles : classifyAll table args = some words) (read : Gathers count accepts before g words g') :
    g'.has .write = (g.has .write || asksToWrite args) := by
  induction args generalizing before g words with
  | nil =>
      cases roles
      cases read
      simp [asksToWrite]
  | cons t rest ih =>
      rcases classifyAll_cons_eq_some.1 roles with
        ⟨rfl, rfl⟩ | ⟨longer, word, later, role, others, rfl⟩
      · have kept : g'.switches = g.switches := by
          cases read with
          | separatorBehind later => exact later.plains.2
          | separatorBefore loose room more later => exact later.plains.2
        simp [Gathered.has, kept, asksToWrite]
      · cases writes.roleOf longer role with
        | write asks =>
            obtain - | - | - | - | ⟨-, read⟩ := read
            rw [ih others read]
            simp [asksToWrite, longer, asks, Gathered.has]
        | plain other =>
            obtain - | ⟨-, -, read⟩ := read
            rw [ih others read]
            simp [asksToWrite, longer, other, Gathered.has]
        | switches other silent =>
            obtain - | - | - | - | ⟨-, read⟩ := read
            rw [ih others read]
            simp [asksToWrite, longer, other, silent, Gathered.has]
        | unknown => cases read
        | wrong => cases read

/-- Without the words that ask to write the same is read, but not that. -/
theorem Gathers.withoutWrite (writes : table.Writes) {args : List Text} {words : List ArgWord}
    (roles : classifyAll table args = some words)
    (lone : KeepsHyphens args)
    (parted : before' = before ∨ before = .other ∧ ¬ [separatorText, separatorText] <+: args)
    (read : Gathers count accepts before g words g') :
    ∃ words', classifyAll table (withoutWriteSwitches args) = some words' ∧
      Gathers count accepts before' g.withoutWrite words' g'.withoutWrite := by
  induction args generalizing before before' g words with
  | nil =>
      cases roles
      obtain ⟨full, whole⟩ := read
      exact ⟨[], rfl, .enough full whole⟩
  | cons t rest ih =>
      rcases classifyAll_cons_eq_some.1 roles with
        ⟨rfl, rfl⟩ | ⟨longer, word, later, role, others, rfl⟩
      · have same : withoutWriteSwitches (separatorText :: rest) = separatorText :: rest := by
          rw [withoutWriteSwitches, if_pos rfl]
        refine ⟨_, same ▸ roles, read.separator (parted.imp_right fun parted => ?_)⟩
        exact ⟨parted.1, fun word => parted.2 (List.prefix_cons_inj separatorText |>.2 word)⟩
      · rw [withoutWriteSwitches, if_neg longer]
        cases writes.roleOf longer role with
        | write asks =>
            obtain - | - | - | - | ⟨-, read⟩ := read
            rw [if_pos asks]
            have apart : ¬ [separatorText, separatorText] <+: rest :=
              fun first => lone t asks ((List.prefix_cons_inj t).2 first).isInfix
            obtain ⟨words, roles, read⟩ := ih others lone.tail (.inr ⟨rfl, apart⟩) read
            exact ⟨words, roles, by simpa [Gathered.withoutWrite] using read⟩
        | plain other =>
            obtain - | ⟨room, accepted, read⟩ := read
            rw [wordAfter_of_longer longer] at accepted read
            obtain ⟨words, roles, read⟩ := ih others lone.tail (.inl rfl) read
            rw [if_neg other]
            refine ⟨_, classifyAll_cons_eq_some.2 (.inr ⟨longer, _, _, role, roles, rfl⟩), ?_⟩
            refine .plain room ?_ ?_
            · rwa [wordAfter_of_longer longer]
            · rwa [wordAfter_of_longer longer]
        | switches other silent =>
            obtain - | - | - | - | ⟨noHelp, read⟩ := read
            obtain ⟨words, roles, read⟩ := ih others lone.tail (.inl rfl) read
            have kept : ∀ s ∈ _, decide (s ≠ Switch.write) = true :=
              fun s mem => decide_eq_true fun same => silent (same ▸ mem)
            rw [if_neg other]
            refine ⟨_, classifyAll_cons_eq_some.2 (.inr ⟨longer, _, _, role, roles, rfl⟩), ?_⟩
            refine .switches noHelp ?_
            rwa [Gathered.withoutWrite, List.filter_append, List.filter_eq_self.2 kept] at read
        | unknown => cases read
        | wrong => cases read

/-- Where nothing can be told to write, a word for that would be left over. -/
theorem Gathers.asksToWrite_eq_false (silent : table.Silent) {args : List Text}
    {words : List ArgWord} (roles : classifyAll table args = some words)
    (read : Gathers count accepts before g words g') :
    asksToWrite args = false := by
  induction args generalizing before g words with
  | nil => rfl
  | cons t rest ih =>
      rcases classifyAll_cons_eq_some.1 roles with
        ⟨rfl, rfl⟩ | ⟨longer, word, later, role, others, rfl⟩
      · simp [asksToWrite]
      have other : t ∉ writeSwitches := by
        intro asks
        cases role.symm.trans (silent t asks)
        cases read
      have rest : asksToWrite rest = false := by
        cases read with
        | plain room accepted later => exact ih others later
        | separatorBehind later => exact ih others later
        | separatorBefore loose room more later => exact ih others later
        | switches noHelp later => exact ih others later
      simp [asksToWrite, other, rest]

/-! ### Commands -/

theorem withoutWriteSwitches_eq_self {args : List Text} (silent : asksToWrite args = false) :
    withoutWriteSwitches args = args := by
  induction args with
  | nil => rfl
  | cons t rest ih =>
      rw [withoutWriteSwitches]
      by_cases single : t = separatorText
      · rw [if_pos single]
      · obtain ⟨other, later⟩ : t ∉ writeSwitches ∧ asksToWrite rest = false := by
          simpa [asksToWrite, single] using silent
        rw [if_neg single, if_neg other, ih later]

@[simp]
theorem Gathered.word_withoutWrite (g : Gathered) (place : Nat) :
    g.withoutWrite.word place = g.word place := rfl

@[simp]
theorem Gathered.number_withoutWrite (g : Gathered) (place : Nat) :
    g.withoutWrite.number place = g.number place := rfl

@[simp]
theorem Gathered.file_withoutWrite (g : Gathered) : g.withoutWrite.file = g.file := rfl

@[simp]
theorem Gathered.leftOver_withoutWrite (g : Gathered) : g.withoutWrite.leftOver = g.leftOver := rfl

theorem Gathered.has_withoutWrite (g : Gathered) (s : Switch) :
    g.withoutWrite.has s = (g.has s && s ≠ .write) := by
  simp [has, withoutWrite, List.contains_eq_mem]

theorem gatherFor_eq_ok {args : List Text} (read : gatherFor table count accepts args = .ok g)
    (whole : g.leftOver = false) :
    ∃ words, classifyAll table args = some words ∧ Gathers count accepts .other {} words g := by
  rw [gatherFor] at read
  cases roles : classifyAll table args with
  | none => simp [roles] at read
  | some words =>
      rw [roles] at read
      exact ⟨words, rfl, gathers_of_gather read whole⟩

/-- The arguments of a command that can be told to write. -/
theorem gatherFor_withoutWriteSwitches (writes : table.Writes) {args : List Text}
    (read : gatherFor table count accepts args = .ok g) (whole : g.leftOver = false) :
    g.has .write = asksToWrite args ∧
      (KeepsHyphens args →
        gatherFor table count accepts (withoutWriteSwitches args) = .ok g.withoutWrite) := by
  obtain ⟨words, roles, read⟩ := gatherFor_eq_ok read whole
  refine ⟨by simpa [Gathered.has] using read.has_write writes roles, fun lone => ?_⟩
  obtain ⟨words', roles', read'⟩ := read.withoutWrite writes roles lone (.inl rfl)
  rw [gatherFor, roles']
  exact read'.gather_eq

/-- The arguments of a command that cannot. -/
theorem gatherFor_silent (silent : table.Silent) {args : List Text}
    (read : gatherFor table count accepts args = .ok g) (whole : g.leftOver = false) :
    asksToWrite args = false := by
  obtain ⟨words, roles, read⟩ := gatherFor_eq_ok read whole
  exact read.asksToWrite_eq_false silent roles

end

theorem moveSwitches_writes : SwitchTable.Writes
    (helpSwitches ++ [("--pixels".toList, .pixels), ("--write".toList, .write)]) :=
  ⟨by decide +kernel, by decide +kernel⟩

theorem evolveSwitches_writes :
    SwitchTable.Writes (helpSwitches ++ [("--write".toList, .write)]) :=
  ⟨by decide +kernel, by decide +kernel⟩

/-- A command is told to write exactly if its arguments ask to, and without that they are read as
the command that prints. -/
theorem readCommand_withoutWriteSwitches {name : Text} {args : List Text} {c : Command}
    (read : readCommand name args = .ok (c, false)) :
    c.writes = asksToWrite args ∧
      (KeepsHyphens args →
        readCommand name (withoutWriteSwitches args) = .ok (c.withoutWrite, false)) := by
  -- Where no argument asks to write, the arguments stay as they are.
  have printing (silent : asksToWrite args = false) (writes : c.writes = false)
      (same : c.withoutWrite = c) :
      c.writes = asksToWrite args ∧
        (KeepsHyphens args →
          readCommand name (withoutWriteSwitches args) = .ok (c.withoutWrite, false)) := by
    rw [writes, silent, withoutWriteSwitches_eq_self silent, same]
    exact ⟨rfl, fun _ => read⟩
  have shape := read
  rw [readCommand] at shape
  split at shape
  · obtain ⟨g, gathered, made⟩ := bind_eq_ok.1 shape
    obtain ⟨rfl, whole⟩ := Prod.mk.inj (Except.ok.inj made)
    exact printing (gatherFor_silent (by decide +kernel) gathered whole) rfl rfl
  split at shape
  · next noParse move =>
    obtain ⟨g, gathered, made⟩ := bind_eq_ok.1 shape
    obtain ⟨rfl, whole⟩ := Prod.mk.inj (Except.ok.inj made)
    obtain ⟨writes, without⟩ := gatherFor_withoutWriteSwitches moveSwitches_writes gathered whole
    refine ⟨writes, fun lone => ?_⟩
    rw [readCommand, if_neg noParse, if_pos move]
    refine bind_eq_ok.2 ⟨_, without lone, ?_⟩
    simp [Gathered.has_withoutWrite, Command.withoutWrite, whole]
  split at shape
  · next noParse noMove evolve =>
    obtain ⟨g, gathered, made⟩ := bind_eq_ok.1 shape
    obtain ⟨rfl, whole⟩ := Prod.mk.inj (Except.ok.inj made)
    obtain ⟨writes, without⟩ := gatherFor_withoutWriteSwitches evolveSwitches_writes gathered whole
    refine ⟨writes, fun lone => ?_⟩
    rw [readCommand, if_neg noParse, if_neg noMove, if_pos evolve]
    refine bind_eq_ok.2 ⟨_, without lone, ?_⟩
    simp [Gathered.has_withoutWrite, Command.withoutWrite, whole]
  split at shape
  · obtain ⟨g, gathered, made⟩ := bind_eq_ok.1 shape
    obtain ⟨rfl, whole⟩ := Prod.mk.inj (Except.ok.inj made)
    exact printing (gatherFor_silent (by decide +kernel) gathered whole) rfl rfl
  split at shape
  · obtain ⟨g, gathered, made⟩ := bind_eq_ok.1 shape
    cases made
  · cases shape

/-! ### Lines -/

theorem exists_classifyAll_withoutWriteSwitches {table : SwitchTable} {args : List Text}
    {words : List ArgWord} (roles : classifyAll table args = some words) :
    ∃ words', classifyAll table (withoutWriteSwitches args) = some words' := by
  induction args generalizing words with
  | nil => exact ⟨words, roles⟩
  | cons t rest ih =>
      rcases classifyAll_cons_eq_some.1 roles with ⟨rfl, -⟩ | ⟨longer, word, later, role, others, -⟩
      · exact ⟨words, by rwa [withoutWriteSwitches, if_pos rfl]⟩
      obtain ⟨words', kept⟩ := ih others
      rw [withoutWriteSwitches, if_neg longer]
      split
      · exact ⟨words', kept⟩
      · exact ⟨_, classifyAll_cons_eq_some.2 (.inr ⟨longer, _, _, role, kept, rfl⟩)⟩

theorem readGlobal_whole {g : Gathered} {words : List (Text × ArgWord)} {i : Invocation}
    (read : readGlobal g words = .ok i) : g.leftOver = false := by
  induction words generalizing g with
  | nil => cases read
  | cons word rest ih =>
      obtain ⟨t, word⟩ := word
      cases word with
      | plain name =>
          obtain ⟨made, -, ended⟩ := bind_eq_ok.1 read
          dsimp only at ended
          split at ended
          · cases ended
          · next kept => exact (Bool.or_eq_false_iff.1 (Bool.eq_false_iff.2 kept)).1
      | separator => cases read
      | switches given =>
          rw [readGlobal] at read
          split at read
          · cases read
          · exact ih (g := { g with switches := g.switches ++ given }) read
      | unknown =>
          rw [readGlobal] at read
          cases ih read
      | wrong => cases read

theorem globalSwitches_silent : globalSwitches.Silent := by
  decide +kernel

/-- What stands in front of the command's name does not ask to write. -/
theorem readGlobal_withoutWriteSwitches {g : Gathered} {args : List Text} {words : List ArgWord}
    {i : Invocation} (roles : classifyAll globalSwitches args = some words)
    (read : readGlobal g (args.zip words) = .ok i) :
    i.command.writes = asksToWrite args ∧
      (KeepsHyphens args →
        ∃ words', classifyAll globalSwitches (withoutWriteSwitches args) = some words' ∧
          readGlobal g ((withoutWriteSwitches args).zip words') = .ok i.withoutWrite) := by
  induction args generalizing g words with
  | nil => cases read
  | cons t rest ih =>
      rcases classifyAll_cons_eq_some.1 roles with
        ⟨rfl, rfl⟩ | ⟨longer, word, later, role, others, rfl⟩
      · cases read
      rw [List.zip_cons_cons] at read
      have other : t ∉ writeSwitches := by
        intro asks
        cases role.symm.trans (globalSwitches_silent t asks)
        rw [readGlobal] at read
        cases readGlobal_whole read
      have asks : asksToWrite (t :: rest) = asksToWrite rest := by simp [asksToWrite, longer, other]
      have kept : withoutWriteSwitches (t :: rest) = t :: withoutWriteSwitches rest := by
        rw [withoutWriteSwitches, if_neg longer, if_neg other]
      rw [asks, kept]
      cases word with
      | plain name =>
          obtain ⟨whole, c, named, rfl⟩ := (readGlobal_plain_eq_ok others).1 read
          obtain ⟨writes, without⟩ := readCommand_withoutWriteSwitches named
          refine ⟨writes, fun lone => ?_⟩
          obtain ⟨words', roles'⟩ := exists_classifyAll_withoutWriteSwitches others
          refine ⟨_, classifyAll_cons_eq_some.2 (.inr ⟨longer, _, _, role, roles', rfl⟩), ?_⟩
          exact (readGlobal_plain_eq_ok roles').2 ⟨whole, _, without lone.tail, rfl⟩
      | separator => cases read
      | switches given =>
          rw [readGlobal] at read
          split at read
          · cases read
          next noHelp =>
          obtain ⟨writes, without⟩ := ih others read
          refine ⟨writes, fun lone => ?_⟩
          obtain ⟨words', roles', read'⟩ := without lone.tail
          refine ⟨_, classifyAll_cons_eq_some.2 (.inr ⟨longer, _, _, role, roles', rfl⟩), ?_⟩
          rw [List.zip_cons_cons, readGlobal, if_neg noHelp]
          exact read'
      | unknown =>
          rw [readGlobal] at read
          cases readGlobal_whole read
      | wrong => cases read

/-- A command line asks for a command that is told to write exactly if one of its words asks to
write, and without these words it asks for the command that prints. -/
theorem Invocation.read_withoutWriteSwitches {args : List Text} {i : Invocation}
    (line : Invocation.read args = .ok i) :
    i.command.writes = asksToWrite args ∧
      (KeepsHyphens args →
        Invocation.read (withoutWriteSwitches args) = .ok i.withoutWrite) := by
  rw [Invocation.read] at line
  split at line
  · cases line
  next words roles =>
  obtain ⟨writes, without⟩ := readGlobal_withoutWriteSwitches roles line
  refine ⟨writes, fun lone => ?_⟩
  obtain ⟨words', roles', read⟩ := without lone
  rw [Invocation.read, roles']
  exact read

end WardleyMaps
