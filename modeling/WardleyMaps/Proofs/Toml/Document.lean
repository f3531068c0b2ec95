/-
Module: WardleyMaps.Proofs.Toml.Document
Purpose: A document that consists of groups of keys with values is read as the table of these.
Main exports: TomlEntry, TomlGroup, groupsText, groupsTable, readToml_groups
-/
import WardleyMaps.Proofs.Toml.Scalar
import WardleyMaps.Toml.Read

namespace WardleyMaps

open Text

/-!
Every line of such a document is one statement, and reading goes on behind it (`TomlDraft.Reads`). A
header opens a new table and a key adds its value to the last one, so what was read up to a line is
the table of the lines before it (`draftOf`). From line to line this leads to the table of the whole
document (`readToml_groups`).
-/

/-- A key that needs no quotes. -/
def BareKey (key : String) : Prop :=
  key.toList ≠ [] ∧ key.toList.all isBareKey = true

instance (key : String) : Decidable (BareKey key) :=
  inferInstanceAs (Decidable (_ ∧ _))

theorem BareKey.chars {key : String} (bare : BareKey key) : ∀ c ∈ key.toList, isBareKey c = true :=
  List.all_eq_true.1 bare.2

/-- A key with its value, and the text of this value. -/
structure TomlEntry where
  key : String
  text : Text
  value : TomlValue
  bare : BareKey key
  reads : ReadsAs text value

/-- A group of keys with values; no key comes twice. -/
structure TomlGroup where
  name : String
  entries : List TomlEntry
  bare : BareKey name
  distinct : (entries.map (·.key.toList)).Nodup

/-- The line of a key. -/
def TomlEntry.line (e : TomlEntry) : Text :=
  entryText e.key e.text

/-- The table of some keys. -/
def entriesTable (entries : List TomlEntry) : TomlTable :=
  entries.map fun e => (e.key.toList, e.value)

/-- The header of a group and its lines. -/
def TomlGroup.lines (g : TomlGroup) : List Text :=
  ('[' :: g.name.toList ++ [']', '\n']) :: g.entries.map TomlEntry.line

/-- Groups with an empty line between them. -/
def groupsText (groups : List TomlGroup) : Text :=
  (List.intercalate [['\n']] (groups.map TomlGroup.lines)).flatten

/-- The table of some groups. -/
def groupsTable (groups : List TomlGroup) : TomlTable :=
  groups.map fun g => (g.name.toList, .table (entriesTable g.entries))

/-! ### Statements -/

theorem skipTomlBlanks_of_head {t : Text} (begins : ∀ c ∈ t.head?, isTomlBlank c = false) :
    skipTomlBlanks t = t := by
  cases t with
  | nil => rfl
  | cons c t => rw [skipTomlBlanks, List.dropWhile_cons_of_neg (by simp [begins c rfl])]

namespace ReadsAs

variable {t : Text} {v : TomlValue}

theorem head_append (reads : ReadsAs t v) (rest : Text) :
    ∀ c ∈ (t ++ '\n' :: rest).head?, isTomlBlank c = false ∧ c ≠ '[' ∧ c ≠ '\x7b' := by
  cases t with
  | nil =>
      rintro _ ⟨⟩
      decide
  | cons c t => exact reads.begins

theorem readTomlValue_eq (reads : ReadsAs t v) (fuel room : Nat) (rest : Text) :
    readTomlValue (fuel + 1) room (t ++ '\n' :: rest) = .ok (v, '\n' :: rest) := by
  have head := reads.head_append rest
  unfold readTomlValue
  split
  · next none => cases none
  · next same =>
    rw [same] at head
    exact absurd rfl (head '[' rfl).2.1
  · next same =>
    rw [same] at head
    exact absurd rfl (head '\x7b' rfl).2.2
  · rw [reads.scalar]
    rfl

end ReadsAs

namespace BareKey

variable {key : String}

theorem exists_cons (bare : BareKey key) :
    ∃ c later, key.toList = c :: later ∧ isBareKey c = true := by
  obtain ⟨c, later, whole⟩ := List.exists_cons_of_ne_nil bare.1
  exact ⟨c, later, whole, bare.chars c (by rw [whole]; exact List.mem_cons_self)⟩

/-- Characters of bare keys mean nothing else where a statement begins. -/
theorem begins_of_isBareKey {c : Char} (bare : isBareKey c = true) :
    isTomlBlank c = false ∧ c ∉ ['#', '[', '"', '\'', '\n', '\r'] := by
  have apart {d : Char} (h : isBareKey d = false) : c ≠ d := by
    rintro rfl
    cases bare.symm.trans h
  have others : ∀ d ∈ [' ', '\t', '#', '[', '"', '\'', '\n', '\r'], c ≠ d := by
    simp only [List.forall_mem_cons]
    exact ⟨apart rfl, apart rfl, apart rfl, apart rfl, apart rfl, apart rfl, apart rfl, apart rfl,
      nofun⟩
  refine ⟨?_, fun mem => others c (List.mem_cons_of_mem _ (List.mem_cons_of_mem _ mem)) rfl⟩
  simp [isTomlBlank, others ' ', others '\t']

/-- A bare key ends in front of another character. -/
theorem readTomlKey_append (bare : BareKey key) {behind : Text}
    (ends : ∀ c ∈ behind.head?, isBareKey c = false)
    (single : (skipTomlBlanks behind).head? ≠ some '.') :
    readTomlKey (key.toList ++ behind) = some ([key.toList], skipTomlBlanks behind) := by
  obtain ⟨c, later, whole, first⟩ := bare.exists_cons
  have row : (key.toList ++ behind).takeWhile isBareKey = key.toList ∧
      (key.toList ++ behind).dropWhile isBareKey = behind := by
    rw [List.takeWhile_append_of_pos bare.chars, List.dropWhile_append_of_pos bare.chars]
    cases behind with
    | nil => simp
    | cons d behind =>
        have other := ends d rfl
        simp [other]
  have part : readKeyPart (key.toList ++ behind) = some (key.toList, behind) := by
    have begins := (begins_of_isBareKey first).2
    unfold readKeyPart
    split
    · next same =>
      rw [whole] at same
      obtain ⟨rfl, -⟩ := List.cons.inj same
      simp at begins
    · next same =>
      rw [whole] at same
      obtain ⟨rfl, -⟩ := List.cons.inj same
      simp at begins
    · rw [row.1, row.2, if_neg (by simpa using bare.1)]
  rw [readTomlKey, readKeyParts, part]
  simp only [Option.bind_eq_bind, Option.bind_some]
  split
  · next dotted =>
    rw [dotted] at single
    exact absurd rfl single
  · rfl

end BareKey

namespace TomlDraft

/-- Reading a text leads from one draft to another, with enough fuel for its lines. -/
def Reads (d : TomlDraft) (t : Text) (after : TomlDraft) : Prop :=
  ∀ fuel, t.length < fuel → readStatements fuel d t = .ok after

theorem reads_nil (d : TomlDraft) : d.Reads [] d := by
  intro fuel enough
  obtain ⟨fuel, rfl⟩ := Nat.exists_eq_succ_of_ne_zero (Nat.ne_of_gt enough)
  rfl

variable {d next after : TomlDraft} {rest : Text}

theorem Reads.emptyLine (later : d.Reads rest after) : d.Reads ('\n' :: rest) after := by
  intro fuel enough
  obtain ⟨fuel, rfl⟩ := Nat.exists_eq_succ_of_ne_zero (Nat.ne_of_gt (Nat.zero_lt_of_lt enough))
  exact later fuel (Nat.lt_of_succ_lt_succ enough)

/-- Reading goes on behind a line that is a statement. -/
theorem Reads.line (later : next.Reads rest after) {line : Text}
    (begins : ∀ c ∈ (line ++ '\n' :: rest).head?, isTomlBlank c = false ∧ c ≠ '\n')
    (statement : d.readStatement (line ++ '\n' :: rest) = .ok (next, '\n' :: rest)) :
    d.Reads (line ++ '\n' :: rest) after := by
  intro fuel enough
  obtain ⟨fuel, rfl⟩ := Nat.exists_eq_succ_of_ne_zero (Nat.ne_of_gt (Nat.zero_lt_of_lt enough))
  have further : readStatements fuel next rest = .ok after := by
    refine later fuel ?_
    simp only [List.length_append, List.length_cons] at enough
    omega
  have noBlank : skipTomlBlanks (line ++ '\n' :: rest) = line ++ '\n' :: rest :=
    skipTomlBlanks_of_head fun c head => (begins c head).1
  rw [readStatements, noBlank]
  split
  · next none => simp at none
  · next same =>
    rw [same] at begins
    exact absurd rfl (begins '\n' rfl).2
  · rw [statement]
    exact further

end TomlDraft

/-! ### Tables -/

namespace TomlTable

variable {t : TomlTable} {name : Text}

theorem get?_eq_none_iff : t.get? name = none ↔ name ∉ t.map Prod.fst := by
  rw [get?, Option.map_eq_none_iff, List.find?_eq_none]
  simp only [decide_eq_true_eq, List.mem_map, not_exists, not_and]

/-- A key that comes once has the value that stands beside it. -/
theorem get?_of_mem {v : TomlValue} (distinct : (t.map Prod.fst).Nodup) (mem : (name, v) ∈ t) :
    t.get? name = some v := by
  induction t with
  | nil => cases mem
  | cons entry t ih =>
      obtain ⟨fresh, later⟩ := List.nodup_cons.1 distinct
      rw [get?, List.find?_cons]
      rcases List.mem_cons.1 mem with rfl | behind
      · simp
      · have other : entry.1 ≠ name := by
          rintro rfl
          exact fresh (List.mem_map.2 ⟨_, behind, rfl⟩)
        rw [decide_eq_false other]
        exact ih later behind

theorem get?_append_self (fresh : name ∉ t.map Prod.fst) (v : TomlValue) :
    get? (t ++ [(name, v)]) name = some v := by
  have none : t.find? (·.1 = name) = none := Option.map_eq_none_iff.1 (get?_eq_none_iff.2 fresh)
  rw [get?, List.find?_append, none]
  simp

theorem replace_append_self (fresh : name ∉ t.map Prod.fst) (v w : TomlValue) :
    replace (t ++ [(name, v)]) name w = t ++ [(name, w)] := by
  have kept : t.map (fun entry => if entry.1 = name then (name, w) else entry) = t := by
    refine (List.map_congr_left fun entry mem => ?_).trans (List.map_id t)
    exact if_neg fun same : entry.1 = name => fresh (same ▸ List.mem_map_of_mem mem)
  rw [replace, List.map_append, kept]
  simp

end TomlTable

/-- A draft after some tables: the headers of all of them came, and no value is closed. -/
def draftOf (tables : TomlTable) (header : List Text) : TomlDraft where
  entries := tables
  header := header
  opened := tables.reverse.map fun entry => [entry.1]

namespace TomlDraft

variable {tables inner : TomlTable} {header : List Text} {name key : Text}

/-- The header of a new table opens it. -/
theorem openTable_draftOf (fresh : name ∉ tables.map Prod.fst) :
    (draftOf tables header).settle.openTable [name] =
      some (draftOf (tables ++ [(name, .table [])]) [name]) := by
  have unopened : (tables.reverse.map fun entry => [entry.1]).contains [name] = false := by
    simpa using fresh
  have made :
      TomlTable.changeAt? true some [name] tables = some (tables ++ [(name, .table [])]) := by
    rw [TomlTable.changeAt?, TomlTable.get?_eq_none_iff.2 fresh]
    rfl
  simp only [openTable, settle, draftOf, List.nil_append, unopened, reaches, List.any_nil,
    Bool.or_self, Bool.false_eq_true, if_false, made, Option.map_some]
  simp

/-- A key adds its value to the last table. -/
theorem addEntry_draftOf (fresh : name ∉ tables.map Prod.fst) (new : key ∉ inner.map Prod.fst)
    {v : TomlValue} (flat : v.isNested = false) :
    (draftOf (tables ++ [(name, .table inner)]) [name]).addEntry [key] v =
      some (draftOf (tables ++ [(name, .table (inner ++ [(key, v)]))]) [name]) := by
  have added : TomlTable.addAt? true [name, key] v (tables ++ [(name, .table inner)]) =
      some (tables ++ [(name, .table (inner ++ [(key, v)]))]) := by
    rw [TomlTable.addAt?]
    simp only [List.getLast?_cons_cons, List.getLast?_singleton, List.dropLast]
    rw [TomlTable.changeAt?, TomlTable.get?_append_self fresh]
    simp only [TomlTable.changeAt?, TomlTable.get?_eq_none_iff.2 new]
    simp [TomlTable.replace_append_self fresh]
  simp only [addEntry, draftOf, List.length_singleton, Nat.sub_self, List.range'_zero,
    List.map_nil, List.any_nil, reaches, Bool.false_eq_true, if_false, flat, List.nil_append,
    List.singleton_append, added, Option.map_some]
  simp

/-- The statement of a header. -/
theorem readStatement_header {name : String} (bare : BareKey name)
    (fresh : name.toList ∉ tables.map Prod.fst) (rest : Text) :
    (draftOf tables header).readStatement ('[' :: name.toList ++ [']'] ++ '\n' :: rest) =
      .ok (draftOf (tables ++ [(name.toList, .table [])]) [name.toList], '\n' :: rest) := by
  obtain ⟨c, later, whole, first⟩ := bare.exists_cons
  obtain ⟨noBlank, begins⟩ := BareKey.begins_of_isBareKey first
  have key : readTomlKey (skipTomlBlanks (name.toList ++ [']'] ++ '\n' :: rest)) =
      some ([name.toList], ']' :: '\n' :: rest) := by
    rw [List.append_assoc, skipTomlBlanks_of_head, bare.readTomlKey_append]
    · rfl
    · rintro _ ⟨⟩
      decide
    · exact of_decide_eq_true rfl
    · rw [whole]
      rintro _ ⟨⟩
      exact noBlank
  unfold readStatement
  split
  · next same => cases same
  · next same =>
    rw [whole] at same
    obtain ⟨rfl, -⟩ := List.cons.inj (List.cons.inj same).2
    simp at begins
  · next tail _ same =>
    obtain rfl : tail = name.toList ++ [']'] ++ '\n' :: rest := (List.cons.inj same).2.symm
    simp only [key, openTable_draftOf fresh, wellFormed, bind, Except.bind]
    rfl
  · next other => exact absurd rfl (other _)

/-- The statement of a key. -/
theorem readStatement_entry (e : TomlEntry) (fresh : name ∉ tables.map Prod.fst)
    (new : e.key.toList ∉ inner.map Prod.fst) (rest : Text) :
    (draftOf (tables ++ [(name, .table inner)]) [name]).readStatement
        (e.key.toList ++ (" = ".toList ++ e.text) ++ '\n' :: rest) =
      .ok (draftOf (tables ++ [(name, .table (inner ++ [(e.key.toList, e.value)]))]) [name],
        '\n' :: rest) := by
  obtain ⟨c, later, whole, first⟩ := e.bare.exists_cons
  obtain ⟨noBlank, begins⟩ := BareKey.begins_of_isBareKey first
  have line : e.key.toList ++ (" = ".toList ++ e.text) ++ '\n' :: rest =
      e.key.toList ++ ' ' :: '=' :: ' ' :: (e.text ++ '\n' :: rest) := by
    simp [List.append_assoc]
  have key : readTomlKey (e.key.toList ++ ' ' :: '=' :: ' ' :: (e.text ++ '\n' :: rest)) =
      some ([e.key.toList], '=' :: ' ' :: (e.text ++ '\n' :: rest)) := by
    rw [e.bare.readTomlKey_append]
    · rfl
    · rintro _ ⟨⟩
      decide
    · exact of_decide_eq_true rfl
  have equals : afterEquals? ('=' :: ' ' :: (e.text ++ '\n' :: rest)) =
      some (e.text ++ '\n' :: rest) := by
    have skipped : skipTomlBlanks (' ' :: (e.text ++ '\n' :: rest)) = e.text ++ '\n' :: rest :=
      skipTomlBlanks_of_head fun c mem => (e.reads.head_append rest c mem).1
    rw [afterEquals?, skipped]
  -- A statement that begins with a key is neither a comment nor a header.
  have apart {mark : Char} {after : Text} (special : mark ∈ ['#', '[', '"', '\'', '\n', '\r'])
      (same : e.key.toList ++ ' ' :: '=' :: ' ' :: (e.text ++ '\n' :: rest) = mark :: after) :
      False := by
    rw [whole] at same
    obtain ⟨rfl, -⟩ := List.cons.inj same
    exact begins special
  rw [line]
  unfold readStatement
  split
  · next same => exact (apart (by decide) same).elim
  · next same => exact (apart (by decide) same).elim
  · next same => exact (apart (by decide) same).elim
  · simp only [key, equals, e.reads.readTomlValue_eq, addEntry_draftOf fresh new e.reads.flat,
      wellFormed, bind, Except.bind]

end TomlDraft

/-! ### Groups -/

theorem groupsText_singleton (g : TomlGroup) :
    groupsText [g] = g.lines.flatten ++ groupsText [] := by
  simp [groupsText, List.intercalate]

theorem groupsText_cons_cons (g h : TomlGroup) (groups : List TomlGroup) :
    groupsText (g :: h :: groups) = g.lines.flatten ++ '\n' :: groupsText (h :: groups) := by
  simp [groupsText, List.intercalate]

namespace TomlDraft

variable {tables : TomlTable} {header : List Text} {rest : Text} {after : TomlDraft}

/-- The lines of a group add their values to its table. -/
theorem Reads.entries {name : Text} (fresh : name ∉ tables.map Prod.fst) {entries : List TomlEntry}
    {inner : TomlTable} (distinct : (inner.map Prod.fst ++ entries.map (·.key.toList)).Nodup)
    (later : (draftOf (tables ++ [(name, .table (inner ++ entriesTable entries))]) [name]).Reads
      rest after) :
    (draftOf (tables ++ [(name, .table inner)]) [name]).Reads
      ((entries.map TomlEntry.line).flatten ++ rest) after := by
  induction entries generalizing inner with
  | nil => simpa [entriesTable] using later
  | cons e entries ih =>
      have new : e.key.toList ∉ inner.map Prod.fst := fun mem =>
        (List.nodup_append.1 distinct).2.2 _ mem _ (by simp) rfl
      have line : ((e :: entries).map TomlEntry.line).flatten ++ rest =
          e.key.toList ++ (" = ".toList ++ e.text) ++
            '\n' :: ((entries.map TomlEntry.line).flatten ++ rest) := by
        simp [TomlEntry.line, entryText, List.append_assoc]
      rw [line]
      refine Reads.line (ih ?_ ?_) ?_ (readStatement_entry e fresh new _)
      · simpa using distinct
      · simpa [entriesTable] using later
      · obtain ⟨c, key, whole, first⟩ := e.bare.exists_cons
        obtain ⟨noBlank, begins⟩ := BareKey.begins_of_isBareKey first
        rw [whole]
        rintro _ ⟨⟩
        exact ⟨noBlank, fun lineEnd => begins (by simp [lineEnd])⟩

/-- A group makes a new table. -/
theorem Reads.group {g : TomlGroup} (fresh : g.name.toList ∉ tables.map Prod.fst)
    (later : (draftOf (tables ++ groupsTable [g]) [g.name.toList]).Reads rest after) :
    (draftOf tables header).Reads (g.lines.flatten ++ rest) after := by
  have line : g.lines.flatten ++ rest =
      '[' :: g.name.toList ++ [']'] ++
        '\n' :: ((g.entries.map TomlEntry.line).flatten ++ rest) := by
    simp [TomlGroup.lines]
  rw [line]
  have entries := @Reads.entries tables rest after g.name.toList fresh g.entries [] g.distinct later
  refine Reads.line entries ?_ (readStatement_header g.bare fresh _)
  rintro _ ⟨⟩
  decide

/-- Groups make new tables, one after the other. -/
theorem exists_reads_groups {groups : List TomlGroup}
    (distinct : (tables.map Prod.fst ++ groups.map (·.name.toList)).Nodup) :
    ∃ last, (draftOf tables header).Reads (groupsText groups)
      (draftOf (tables ++ groupsTable groups) last) := by
  induction groups generalizing tables header with
  | nil =>
      refine ⟨header, ?_⟩
      rw [groupsTable, List.map_nil, List.append_nil]
      exact reads_nil _
  | cons g groups ih =>
      have fresh : g.name.toList ∉ tables.map Prod.fst := fun mem =>
        (List.nodup_append.1 distinct).2.2 _ mem _ (by simp) rfl
      have further : ((tables ++ groupsTable [g]).map Prod.fst ++
          groups.map (·.name.toList)).Nodup := by
        simpa [groupsTable] using distinct
      obtain ⟨last, later⟩ := @ih (tables ++ groupsTable [g]) [g.name.toList] further
      have table : tables ++ groupsTable [g] ++ groupsTable groups =
          tables ++ groupsTable (g :: groups) := by
        simp [groupsTable]
      rw [table] at later
      refine ⟨last, ?_⟩
      cases groups with
      | nil =>
          rw [groupsText_singleton]
          exact Reads.group fresh later
      | cons h groups =>
          rw [groupsText_cons_cons]
          exact Reads.group fresh later.emptyLine

end TomlDraft

/-! ### Whole documents -/

theorem joinLineEnds_of_not_mem {t : Text} (plain : '\r' ∉ t) : joinLineEnds t = t := by
  induction t with
  | nil => rfl
  | cons c t ih =>
      obtain ⟨first, later⟩ := not_or.1 (mt List.mem_cons.2 plain)
      rw [joinLineEnds, ih later]
      rintro _ rfl
      exact absurd rfl first

theorem BareKey.return_not_mem {key : String} (bare : BareKey key) : '\r' ∉ key.toList := fun mem =>
  absurd (bare.chars '\r' mem) (by decide)

theorem TomlGroup.return_not_mem_lines (g : TomlGroup) : '\r' ∉ g.lines.flatten := by
  have lines : ∀ e ∈ g.entries, '\r' ∉ e.line := fun e _ => by
    simp [TomlEntry.line, entryText, e.bare.return_not_mem, e.reads.oneLine]
  simpa [TomlGroup.lines, g.bare.return_not_mem] using lines

theorem return_not_mem_groupsText (groups : List TomlGroup) : '\r' ∉ groupsText groups := by
  induction groups with
  | nil => exact List.not_mem_nil
  | cons g groups ih =>
      cases groups with
      | nil =>
          rw [groupsText_singleton, List.mem_append, not_or]
          exact ⟨g.return_not_mem_lines, List.not_mem_nil⟩
      | cons h groups =>
          rw [groupsText_cons_cons, List.mem_append, List.mem_cons, not_or, not_or]
          exact ⟨g.return_not_mem_lines, by decide, ih⟩

/-- A document of groups is read as the table of these. -/
theorem readToml_groups {groups : List TomlGroup}
    (distinct : (groups.map (·.name.toList)).Nodup) :
    readToml (groupsText groups) = .ok (groupsTable groups) := by
  obtain ⟨last, reads⟩ := @TomlDraft.exists_reads_groups [] [] groups distinct
  have read := reads ((groupsText groups).length + 1) (Nat.lt_succ_self _)
  rw [readToml, joinLineEnds_of_not_mem (return_not_mem_groupsText groups)]
  exact congrArg (Except.map TomlDraft.entries) read

end WardleyMaps
