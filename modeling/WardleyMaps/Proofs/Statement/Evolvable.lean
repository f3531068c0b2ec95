/-
Module: WardleyMaps.Proofs.Statement.Evolvable
Purpose: Which components a statement `evolve` can name, and under which new names.
Main exports: HoldsMaturity, findMaturity_eq_none_iff, evolveLine, EvolvedAs, evolvedAs_iff,
  evolvable_iff
-/
import WardleyMaps.Proofs.Statement.Numerals
import WardleyMaps.Proofs.Statement.WrittenMaturity

namespace WardleyMaps

open Text

/-!
The name of a component may be any text up to its bracket, and a statement `evolve` has no mark
between the names and the maturity behind them. So a name that holds a maturity token itself is cut
short there: what is read has fewer digits than what is written (`evolvedAs_iff`). All other names,
with any other digits and points in them, are read as they are written, with and without a new name
behind an arrow (`evolvable_iff`).
-/

/-- Somewhere in the text a maturity token follows a blank. -/
def HoldsMaturity (t : Text) : Prop :=
  ∃ before blank token rest, t = before ++ blank :: (token ++ rest) ∧ isBlank blank = true ∧
    MaturityShape token rest

/-- A statement `evolve` with names and a token. -/
def evolveLine (names token : Text) : Text :=
  "evolve".toList ++ ' ' :: (names ++ ' ' :: token)

/-- The statement `evolve` is read as the name, the new name and the number of the token. -/
def EvolvedAs (names token name newName : Text) : Prop :=
  ∀ number, ∃ e, readEvolution number (evolveLine names token) = .ok e ∧ e.name = name ∧
    e.newName = newName ∧ Double.read? token = some e.maturity

/-! ### Tokens -/

theorem findMaturity_eq_none_iff {t : Text} : findMaturity t = none ↔ ¬ HoldsMaturity t := by
  constructor
  · rintro hnone ⟨before, blank, token, rest, rfl, hblank, hshape⟩
    have hhere : findMaturity (blank :: (token ++ rest)) = some ⟨[], blank, token, rest⟩ :=
      findMaturity_iff.2 ⟨rfl, hblank, hshape, rfl⟩
    rw [findMaturity_append (isDigit_of_isBlank hblank) (ne_point_of_isBlank hblank), hhere]
      at hnone
    split at hnone <;> cases hnone
  · intro hfree
    by_contra hsome
    obtain ⟨found, hfound⟩ := Option.ne_none_iff_exists'.1 hsome
    obtain ⟨hwhole, hblank, hshape, -⟩ := findMaturity_iff.1 hfound
    exact hfree ⟨_, _, _, _, hwhole, hblank, hshape⟩

theorem MaturityShape.not_blank {token rest : Text} (h : MaturityShape token rest) :
    ∀ c ∈ token, isBlank c = false := by
  obtain ⟨whole, fraction, rfl, hwhole, hfraction, -⟩ := h.parts
  have hdigit : ∀ c, isDigit c = true → isBlank c = false := by
    intro c hc
    obtain ⟨value, hvalue⟩ := Option.isSome_iff_exists.1 hc
    exact isBlank_of_digit hvalue
  intro c hc
  rcases List.mem_append.1 hc with hc | hc
  · exact hdigit c (hwhole c hc)
  · rcases List.mem_cons.1 hc with rfl | hc
    · decide
    · exact hdigit c (hfraction c hc)

theorem MaturityShape.exists_digit {token rest : Text} (h : MaturityShape token rest) :
    ∃ c ∈ token, isDigit c = true := by
  obtain ⟨whole, fraction, rfl, -, hfraction, hne⟩ := h.parts
  obtain ⟨c, cs, rfl⟩ := List.exists_cons_of_ne_nil hne
  exact ⟨c, by simp, hfraction c List.mem_cons_self⟩

theorem MaturityShape.trimmed {token rest : Text} (h : MaturityShape token rest) : Trimmed token :=
  ⟨fun c hc => h.not_blank c (List.mem_of_mem_head? hc),
    fun c hc => h.not_blank c (List.mem_of_getLast? hc)⟩

theorem MaturityShape.ne_nil {token rest : Text} (h : MaturityShape token rest) : token ≠ [] := by
  obtain ⟨c, hc, -⟩ := h.exists_digit
  exact List.ne_nil_of_mem hc

/-- A token denotes its maturity. -/
theorem MaturityShape.read? {token rest : Text} (h : MaturityShape token rest) :
    Double.read? token = some (maturityValue token) := by
  obtain ⟨n, hscan⟩ := exists_scan_of_shape h
  simp [maturityValue, Double.read?, hscan]

/-! ### Statements -/

section

variable {names token : Text} (hnames : Trimmed names) (hne : (splitNames names).1 ≠ [])
  (htoken : MaturityShape token [])
include hnames hne htoken

omit htoken in
theorem names_ne_nil : names ≠ [] := by
  rintro rfl
  exact hne (by decide)

theorem afterKeyword_evolveLine :
    afterKeyword "evolve".toList (evolveLine names token) = names ++ ' ' :: token := by
  have hnamesNe := names_ne_nil hnames hne
  have htrimmed : Trimmed (names ++ ' ' :: token) :=
    trimmed_between hnames hnamesNe htoken.trimmed htoken.ne_nil [' ']
  exact (keyword_of_line (by decide) htrimmed (by simp [hnamesNe])).2

omit hnames hne in
/-- The token of the statement is the first one, unless the names hold one. -/
theorem findMaturity_evolveLine :
    findMaturity (' ' :: (names ++ ' ' :: token)) =
      match findMaturity (' ' :: names) with
      | some found => some { found with rest := found.rest ++ ' ' :: token }
      | none => some { before := ' ' :: names, blank := ' ', token, rest := [] } := by
  have hspace : isBlank ' ' = true := by decide
  have hhere : findMaturity (' ' :: token) = some ⟨[], ' ', token, []⟩ :=
    findMaturity_iff.2 ⟨by simp, hspace, htoken, rfl⟩
  rw [← List.cons_append,
    findMaturity_append (isDigit_of_isBlank hspace) (ne_point_of_isBlank hspace), hhere]
  cases findMaturity (' ' :: names) <;> simp

/-- Names without a token are read as they are written. -/
theorem readEvolution_evolveLine (hfree : ¬ HoldsMaturity (' ' :: names)) (number : Nat) :
    readEvolution number (evolveLine names token) =
      .ok { line := number, name := (splitNames names).1, maturity := maturityValue token,
            newName := (splitNames names).2 } := by
  have hnone := findMaturity_eq_none_iff.2 hfree
  have hfound : findMaturity (' ' :: afterKeyword "evolve".toList (evolveLine names token)) =
      some ⟨' ' :: names, ' ', token, []⟩ := by
    rw [afterKeyword_evolveLine hnames hne htoken, findMaturity_evolveLine htoken, hnone]
  have hbefore : trim (' ' :: names) = names := by
    rw [trim_cons_of_blank (by decide), trim_eq_self hnames]
  have hplain : readDecorators [] = ⟨{}, 0, false⟩ := by
    simp [readDecorators, parenthesisGroups]
  refine readEvolution_eq_ok.2 ⟨_, LabelOffset.standard, hfound, ?_, ?_, ?_⟩
  · rw [hbefore]
    exact hne
  · rw [hplain]
    rfl
  · simp only [MaturityToken.evolution, hbefore, hplain]

/-- The names of a statement are read as they are written if and only if they hold no token. -/
theorem evolvedAs_iff :
    EvolvedAs names token (splitNames names).1 (splitNames names).2 ↔
      ¬ HoldsMaturity (' ' :: names) := by
  constructor
  · intro hevolves hholds
    obtain ⟨e, hread, hname, hnewName, -⟩ := hevolves 0
    obtain ⟨found, label, hfound, -, -, rfl⟩ := readEvolution_eq_ok.1 hread
    rw [← not_not (a := HoldsMaturity _), ← findMaturity_eq_none_iff, ← ne_eq,
      Option.ne_none_iff_exists'] at hholds
    obtain ⟨inner, hinner⟩ := hholds
    rw [afterKeyword_evolveLine hnames hne htoken, findMaturity_evolveLine htoken, hinner] at hfound
    obtain rfl := Option.some.inj hfound
    obtain ⟨hwhole, -, hshape, -⟩ := findMaturity_iff.1 hinner
    -- The token in the names has a digit, which is in neither of the names that are read.
    have hcount : inner.before.countP isDigit = names.countP isDigit := by
      rw [← countP_isDigit_trim, ← digitCount_splitNames, ← digitCount_splitNames names]
      exact congrArg₂ (·.countP isDigit + ·.countP isDigit) hname hnewName
    have hpos : 0 < inner.token.countP isDigit := List.countP_pos_iff.2 hshape.exists_digit
    have hall := congrArg (List.countP isDigit) hwhole
    rw [List.countP_cons_of_neg (by decide), List.countP_append, List.countP_cons,
      List.countP_append] at hall
    omega
  · intro hfree number
    exact ⟨_, readEvolution_evolveLine hnames hne htoken hfree number, rfl, rfl, htoken.read?⟩

end

/-! ### Components -/

theorem splitNames_of_plain {name : Text} (h : ¬ "->".toList <:+: name) :
    splitNames name = (name, []) := by
  rw [splitNames, cut_eq_none_iff.2 h]

theorem splitNames_arrow {name newName : Text} (hname : Trimmed name) (hnew : Trimmed newName)
    (h : ¬ "->".toList <:+: name) :
    splitNames (name ++ ("->".toList ++ newName)) = (name, newName) := by
  have hcut := cut_arrow_append (c := '-') (by decide) (cut_eq_none_iff.2 h) ('>' :: newName)
  have hhere : cut "->".toList ('-' :: '>' :: newName) = some ([], newName) := rfl
  rw [hhere] at hcut
  change cut "->".toList (name ++ ("->".toList ++ newName)) = some (name ++ [], newName) at hcut
  rw [splitNames, hcut]
  simp only [List.append_nil, trim_eq_self hname, trim_eq_self hnew]

/-- An arrow keeps the tokens on both sides of it apart. -/
theorem holdsMaturity_arrow_iff {name newName : Text} :
    HoldsMaturity (' ' :: (name ++ ("->".toList ++ newName))) ↔
      HoldsMaturity (' ' :: name) ∨ HoldsMaturity newName := by
  have hunbroken : ∀ c ∈ ['-', '>'], isBlank c = false := by
    simp only [List.forall_mem_cons, List.not_mem_nil, false_implies, implies_true, and_true]
    decide
  have hfound := findMaturity_append (c := '-') (by decide +kernel) (by decide) (' ' :: name)
    ('>' :: newName)
  have hbehind := findMaturity_append_of_unbroken hunbroken newName
  change findMaturity ('-' :: '>' :: newName) = _ at hbehind
  change findMaturity (' ' :: (name ++ ("->".toList ++ newName))) = _ at hfound
  rw [← not_iff_not, not_or, ← findMaturity_eq_none_iff, ← findMaturity_eq_none_iff,
    ← findMaturity_eq_none_iff, hfound, hbehind]
  cases findMaturity (' ' :: name) <;> simp

theorem trimmed_arrow {name newName : Text} (hname : Trimmed name) (hne : name ≠ [])
    (hnew : Trimmed newName) : Trimmed (name ++ ("->".toList ++ newName)) := by
  cases newName with
  | nil => exact trimmed_between hname hne (by decide : Trimmed ['>']) (by simp) ['-']
  | cons c cs => exact trimmed_between hname hne hnew (by simp) "->".toList

theorem name_of_readComponent {submap : Bool} {number : Nat} {line : Text} {c : Component}
    (h : readComponent submap number line = .ok c) : Trimmed c.name ∧ c.name ≠ [] := by
  obtain ⟨placed, label, hplaced, hne, -, rfl⟩ := readComponent_eq_ok.1 h
  obtain ⟨b, -, -, hname, -⟩ := readPlaced_eq_ok.1 hplaced
  have htrimmed : Trimmed placed.name := hname ▸ trimmed_trim b.before
  exact ⟨htrimmed, hne⟩

/-- A component can be evolved, with and without a new name, if and only if neither its name nor the
new name holds a maturity token. -/
theorem evolvable_iff {submap : Bool} {number : Nat} {line newName token : Text} {c : Component}
    (hread : readComponent submap number line = .ok c) (hplain : ¬ "->".toList <:+: c.name)
    (hnew : Trimmed newName) (htoken : MaturityShape token []) :
    (EvolvedAs c.name token c.name [] ∧
        EvolvedAs (c.name ++ ("->".toList ++ newName)) token c.name newName) ↔
      ¬ HoldsMaturity (' ' :: c.name) ∧ ¬ HoldsMaturity newName := by
  obtain ⟨hname, hne⟩ := name_of_readComponent hread
  have hself := splitNames_of_plain hplain
  have harrow := splitNames_arrow hname hnew hplain
  have hone := evolvedAs_iff hname (by rw [hself]; exact hne) htoken
  have hboth := evolvedAs_iff (trimmed_arrow hname hne hnew) (by rw [harrow]; exact hne) htoken
  rw [hself] at hone
  rw [harrow] at hboth
  rw [hone, hboth, holdsMaturity_arrow_iff, not_or, ← and_assoc, and_self]

/-- A name may end in a whole number, but not in one with a point. -/
theorem evolvable_release :
    (EvolvedAs "Release 2".toList "0.6".toList "Release 2".toList [] ∧
        EvolvedAs "Release 2->v2.5".toList "0.6".toList "Release 2".toList "v2.5".toList) ∧
      ¬ (EvolvedAs "Release 1.5".toList "0.6".toList "Release 1.5".toList [] ∧
        EvolvedAs "Release 1.5->Next".toList "0.6".toList "Release 1.5".toList "Next".toList) := by
  have htoken : MaturityShape "0.6".toList [] :=
    ⟨⟨['0'], ['6'], rfl, List.forall_mem_singleton.2 (by decide +kernel),
      List.forall_mem_singleton.2 (by decide +kernel), by decide⟩, by simp⟩
  have hrelease : readComponent false 0 "component Release 2 [0.3, 0.4]".toList =
      .ok { line := 0, name := "Release 2".toList, position := ⟨0.3, 0.4⟩ } := by
    decide +kernel
  have hpoint : readComponent false 0 "component Release 1.5 [0.3, 0.4]".toList =
      .ok { line := 0, name := "Release 1.5".toList, position := ⟨0.3, 0.4⟩ } := by
    decide +kernel
  have hfree : ¬ HoldsMaturity " Release 2".toList ∧ ¬ HoldsMaturity "v2.5".toList :=
    ⟨findMaturity_eq_none_iff.1 (by decide +kernel), findMaturity_eq_none_iff.1 (by decide +kernel)⟩
  have hholds : HoldsMaturity " Release 1.5".toList := by
    rw [← not_not (a := HoldsMaturity _), ← findMaturity_eq_none_iff]
    decide +kernel
  constructor
  · exact (evolvable_iff hrelease (cut_eq_none_iff.1 (by decide)) (by decide) htoken).2 hfree
  · exact fun h =>
      ((evolvable_iff hpoint (cut_eq_none_iff.1 (by decide)) (by decide) htoken).1 h).1 hholds

end WardleyMaps
