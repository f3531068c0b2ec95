/-
Module: WardleyMaps.Proofs.Statement.WrittenMaturity
Purpose: What a statement `evolve` is read as when its maturity token is written anew.
Main exports: Double.isNegative, scanMaturity_fixed, digitCount_splitNames,
  readEvolution_written, readEvolution_unreadable
-/
import WardleyMaps.Proofs.Statement.Coordinates
import WardleyMaps.Proofs.Statement.Evolve

namespace WardleyMaps

open Text

/-!
A number is written with a minus sign if it is negative and without a point if it has no places, and
a maturity token has a point and no sign. So only some written numbers are tokens
(`scanMaturity_fixed`). A token in place of another one is read as the new maturity of the same
names; what is no token is read as a part of the names, which thereby have more digits than before
(`readEvolution_unreadable`).
-/

/-! ### Written numbers -/

/-- Whether a number is written with a minus sign; a zero may be. -/
def Double.isNegative : Double → Bool
  | .finite negative _ _ | .infinite negative => negative
  | .nan => false

/-- The parts of a written number. -/
theorem exists_fixed {x : Double} (hx : x.isFinite = true) (places : Nat) :
    ∃ whole fraction : Text, whole ≠ [] ∧ (∀ c ∈ whole, isDigit c = true) ∧
      (∀ c ∈ fraction, isDigit c = true) ∧ fraction.length = places ∧
      x.fixed places = (if x.isNegative then ['-'] else []) ++
        (whole ++ if places = 0 then [] else '.' :: fraction) := by
  cases x with
  | infinite negative => simp [Double.isFinite] at hx
  | nan => simp [Double.isFinite] at hx
  | finite negative units hunits =>
      obtain ⟨whole, fraction, hne, hlength, hdigits, -, hwritten⟩ :=
        exists_writePlaces places (roundHalfEven (units * Nat.pow 10 places) unitsPerOne)
      have hdigit : ∀ c ∈ whole ++ fraction, isDigit c = true := by
        intro c hc
        simp [isDigit, digitValue?_of_isDigit (hdigits c hc)]
      rw [List.forall_mem_append] at hdigit
      refine ⟨whole, fraction, hne, hdigit.1, hdigit.2, hlength, ?_⟩
      rw [Double.fixed, hwritten]
      cases negative <;> rfl

/-- A written number is scanned as a maturity token when it has places and no sign. -/
theorem scanMaturity_fixed {x : Double} (hx : x.isFinite = true) (places : Nat) {rest : Text}
    (hrest : ∀ c ∈ rest.head?, isDigit c = false ∧ c ≠ '.') :
    scanMaturity (x.fixed places ++ rest) =
      if 0 < places ∧ x.isNegative = false then some (x.fixed places, rest) else none := by
  obtain ⟨whole, fraction, hne, hwhole, hfraction, hlength, hwritten⟩ := exists_fixed hx places
  split
  · next hreadable =>
    obtain ⟨hplaces, hnegative⟩ := hreadable
    rw [hnegative, if_neg Bool.false_ne_true, List.nil_append, if_neg hplaces.ne'] at hwritten
    have hfractionNe : fraction ≠ [] := by
      rintro rfl
      exact hplaces.ne hlength
    exact scanMaturity_iff.2
      ⟨rfl, ⟨whole, fraction, hwritten, hwhole, hfraction, hfractionNe⟩, hrest⟩
  · next hunreadable =>
    rw [hwritten]
    cases hnegative : x.isNegative with
    | true => simp [scanMaturity, (by decide +kernel : isDigit '-' = false)]
    | false =>
        have hplaces : places = 0 := by
          by_contra hpos
          exact hunreadable ⟨Nat.pos_of_ne_zero hpos, hnegative⟩
        obtain ⟨-, hdrop⟩ := takeWhile_digits hwhole fun c hc => (hrest c hc).1
        rw [hplaces, if_pos rfl, if_neg Bool.false_ne_true, List.nil_append, List.append_nil,
          scanMaturity, hdrop]
        split
        · exact absurd rfl (hrest '.' rfl).2
        · rfl

/-- Every written number has a digit. -/
theorem exists_digit_fixed {x : Double} (hx : x.isFinite = true) (places : Nat) :
    ∃ c ∈ x.fixed places, isDigit c = true := by
  obtain ⟨whole, fraction, hne, hwhole, -, -, hwritten⟩ := exists_fixed hx places
  obtain ⟨c, cs, rfl⟩ := List.exists_cons_of_ne_nil hne
  exact ⟨c, by simp [hwritten], hwhole c List.mem_cons_self⟩

/-! ### Digits of names -/

theorem countP_isDigit_of_blank {t : Text} (h : Blank t) : t.countP isDigit = 0 := by
  rw [List.countP_eq_zero]
  intro c hc
  rw [isDigit_of_isBlank (h c hc)]
  exact Bool.false_ne_true

theorem countP_isDigit_trim (t : Text) : (trim t).countP isDigit = t.countP isDigit := by
  obtain ⟨lead, trail, hlead, htrail, ht⟩ := exists_trim t
  conv_rhs => rw [ht, List.countP_append, List.countP_append, countP_isDigit_of_blank hlead,
    countP_isDigit_of_blank htrail, Nat.zero_add, Nat.add_zero]

/-- Both names together have the digits of the text that they are split from. -/
theorem digitCount_splitNames (target : Text) :
    (splitNames target).1.countP isDigit + (splitNames target).2.countP isDigit =
      target.countP isDigit := by
  have harrow : "->".toList.countP isDigit = 0 := by decide +kernel
  unfold splitNames
  split
  · next name newName hcut =>
    rw [countP_isDigit_trim, countP_isDigit_trim, cut_eq_some hcut, List.countP_append,
      List.countP_append, harrow, Nat.add_zero]
  · simp

/-! ### The statement with another token -/

/-- Text without blanks holds no token. -/
theorem findMaturity_append_of_unbroken {t : Text} (h : ∀ c ∈ t, isBlank c = false) (rest : Text) :
    findMaturity (t ++ rest) =
      (findMaturity rest).map fun found => { found with before := t ++ found.before } := by
  induction t with
  | nil => simp
  | cons c cs ih =>
      rw [List.forall_mem_cons] at h
      rw [List.cons_append, findMaturity, h.1, if_neg Bool.false_ne_true, ih h.2, Option.map_map]
      rfl

section

variable {number : Nat} {line other : Text} {e : Evolution} {found : MaturityToken} {written : Text}
  (hread : readEvolution number line = .ok e)
  (hfound : findMaturity (' ' :: afterKeyword "evolve".toList line) = some found)
  (hother : ' ' :: afterKeyword "evolve".toList other =
    found.before ++ found.blank :: (written ++ found.rest))
include hread hfound hother

/-- With another token in place of the first one the statement is read as the same entity with
another maturity. -/
theorem readEvolution_written (hshape : MaturityShape written found.rest) :
    readEvolution number other = .ok { e with maturity := maturityValue written } := by
  obtain ⟨found', label, hfound', hne, hlabel, rfl⟩ := readEvolution_eq_ok.1 hread
  obtain rfl := Option.some.inj (hfound.symm.trans hfound')
  obtain ⟨-, hblank, -, hnone⟩ := findMaturity_iff.1 hfound
  have hagain : findMaturity (' ' :: afterKeyword "evolve".toList other) =
      some { found with token := written } :=
    findMaturity_iff.2 ⟨hother, hblank, hshape, hnone⟩
  exact readEvolution_eq_ok.2 ⟨_, label, hagain, hne, hlabel, rfl⟩

/-- What is no token becomes a part of the names. -/
theorem readEvolution_unreadable (hscan : scanMaturity (written ++ found.rest) = none)
    (hunbroken : ∀ c ∈ written, isBlank c = false) (hdigit : ∃ c ∈ written, isDigit c = true)
    {e' : Evolution} (hagain : readEvolution number other = .ok e') :
    ¬ (e'.name = e.name ∧ e'.newName = e.newName) := by
  obtain ⟨found', label, hfound', -, -, rfl⟩ := readEvolution_eq_ok.1 hread
  obtain rfl := Option.some.inj (hfound.symm.trans hfound')
  obtain ⟨later, _, hlater, -, -, rfl⟩ := readEvolution_eq_ok.1 hagain
  obtain ⟨-, hblank, -, hnone⟩ := findMaturity_iff.1 hfound
  -- The first token is behind the written text, so this text stands before it.
  have hbefore : ∃ more, later.before = found.before ++ found.blank :: (written ++ more) := by
    rw [hother, findMaturity_append (isDigit_of_isBlank hblank) (ne_point_of_isBlank hblank), hnone,
      findMaturity, if_pos hblank, hscan, findMaturity_append_of_unbroken hunbroken] at hlater
    simp only [Option.map_map, Option.map_eq_some_iff] at hlater
    obtain ⟨last, -, rfl⟩ := hlater
    exact ⟨last.before, rfl⟩
  rintro ⟨hname, hnewName⟩
  have hcount : later.before.countP isDigit = found.before.countP isDigit := by
    rw [← countP_isDigit_trim, ← digitCount_splitNames, ← countP_isDigit_trim found.before,
      ← digitCount_splitNames (trim found.before)]
    exact congrArg₂ (·.countP isDigit + ·.countP isDigit) hname hnewName
  obtain ⟨more, hmore⟩ := hbefore
  have hpos : 0 < written.countP isDigit := List.countP_pos_iff.2 hdigit
  rw [hmore, List.countP_append, List.countP_cons, List.countP_append] at hcount
  omega

end

end WardleyMaps
