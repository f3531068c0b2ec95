/-
Module: WardleyMaps.Proofs.Statement.Maturity
Purpose: Where the first maturity token of a text stands.
Main exports: MaturityShape, scanMaturity_iff, findMaturity_append, findMaturity_iff
-/
import WardleyMaps.Proofs.Text.Trim
import WardleyMaps.Statement.Evolve

namespace WardleyMaps

open Text

/-!
A maturity token ends at the first character that is neither a digit nor a point. So a text may be
cut in front of any such character, and the search for a token goes on in the second part only when
there is none in the first (`findMaturity_append`). A token that was found is therefore told by its
shape and by the part in front of it (`findMaturity_iff`).
-/

/-- Digits, perhaps none, a point and digits again; neither a digit nor a point follows. -/
structure MaturityShape (token rest : Text) : Prop where
  parts : ∃ whole fraction, token = whole ++ '.' :: fraction ∧ (∀ c ∈ whole, isDigit c = true) ∧
    (∀ c ∈ fraction, isDigit c = true) ∧ fraction ≠ []
  ended : ∀ c ∈ rest.head?, isDigit c = false ∧ c ≠ '.'

theorem isDigit_point : isDigit '.' = false := by
  decide +kernel

theorem ne_point_of_isBlank {c : Char} (h : isBlank c = true) : c ≠ '.' := by
  rintro rfl
  exact absurd h (by decide)

/-- A row of digits is taken as a whole. -/
theorem takeWhile_digits {digits rest : Text} (h : ∀ c ∈ digits, isDigit c = true)
    (hrest : ∀ c ∈ rest.head?, isDigit c = false) :
    (digits ++ rest).takeWhile isDigit = digits ∧ (digits ++ rest).dropWhile isDigit = rest := by
  rw [List.takeWhile_append_of_pos h, List.dropWhile_append_of_pos h]
  cases rest with
  | nil => simp
  | cons c cs => simp [hrest c rfl]

theorem head?_dropWhile_isDigit (t : Text) :
    ∀ c ∈ (t.dropWhile isDigit).head?, isDigit c = false := by
  intro c hc
  have h := List.head?_dropWhile_not isDigit t
  rw [Option.mem_def.1 hc] at h
  exact h

/-- A token is scanned where one stands. -/
theorem scanMaturity_iff {t token rest : Text} :
    scanMaturity t = some (token, rest) ↔ t = token ++ rest ∧ MaturityShape token rest := by
  constructor
  · intro h
    unfold scanMaturity at h
    split at h
    · next later hpoint =>
      simp only at h
      split at h
      · cases h
      · next hended =>
        rw [Bool.or_eq_true, not_or, decide_eq_true_eq, List.isEmpty_iff] at hended
        simp only [Option.some.injEq, Prod.mk.injEq] at h
        obtain ⟨rfl, rfl⟩ := h
        refine ⟨?_, ⟨t.takeWhile isDigit, later.takeWhile isDigit, rfl, ?_, ?_, hended.1⟩, ?_⟩
        · rw [List.append_assoc, List.cons_append, List.takeWhile_append_dropWhile, ← hpoint,
            List.takeWhile_append_dropWhile]
        · exact fun c hc => List.mem_takeWhile_imp hc
        · exact fun c hc => List.mem_takeWhile_imp hc
        · intro c hc
          refine ⟨head?_dropWhile_isDigit later c hc, ?_⟩
          rintro rfl
          exact hended.2 hc
    · cases h
  · rintro ⟨rfl, ⟨whole, fraction, rfl, hwhole, hfraction, hne⟩, hended⟩
    have hstop : ∀ c ∈ ('.' :: (fraction ++ rest)).head?, isDigit c = false := by
      simp [isDigit_point]
    obtain ⟨htake, hdrop⟩ := takeWhile_digits hwhole hstop
    obtain ⟨htake', hdrop'⟩ := takeWhile_digits hfraction fun c hc => (hended c hc).1
    have hpoint : rest.head? ≠ some '.' := fun hhead => (hended '.' hhead).2 rfl
    rw [scanMaturity, List.append_assoc, List.cons_append, htake, hdrop]
    simp [htake', hdrop', hne, hpoint]

/-! ### Cutting the text -/

section

variable {c : Char} (hdigit : isDigit c = false) (hpoint : c ≠ '.')
include hdigit hpoint

/-- What follows a separator does not matter for the token in front of it. -/
theorem scanMaturity_append (t rest : Text) :
    scanMaturity (t ++ c :: rest) =
      (scanMaturity t).map fun scanned => (scanned.1, scanned.2 ++ c :: rest) := by
  have htake : ∀ u : Text, (u ++ c :: rest).takeWhile isDigit = u.takeWhile isDigit := by
    intro u
    rw [List.takeWhile_append]
    split
    · next hall =>
      have hself := (List.takeWhile_prefix isDigit).eq_of_length hall
      simp [hdigit, hself]
    · rfl
  have hdrop : ∀ u : Text,
      (u ++ c :: rest).dropWhile isDigit = u.dropWhile isDigit ++ c :: rest := by
    intro u
    rw [List.dropWhile_append]
    split
    · next hall => simp [hdigit, List.isEmpty_iff.1 hall]
    · rfl
  unfold scanMaturity
  rw [hdrop, htake]
  cases hfront : t.dropWhile isDigit with
  | nil => simp [hpoint]
  | cons d later =>
      by_cases hd : d = '.'
      · subst hd
        simp only [List.cons_append, htake, hdrop]
        have hhead : (later.dropWhile isDigit ++ c :: rest).head? = some '.' ↔
            (later.dropWhile isDigit).head? = some '.' := by
          cases later.dropWhile isDigit <;> simp [hpoint]
        simp only [hhead]
        split <;> rfl
      · simp [hd]

/-- The search goes on behind a separator when there is no token in front of it. -/
theorem findMaturity_append (front rest : Text) :
    findMaturity (front ++ c :: rest) =
      match findMaturity front with
      | some found => some { found with rest := found.rest ++ c :: rest }
      | none => (findMaturity (c :: rest)).map fun found =>
          { found with before := front ++ found.before } := by
  induction front with
  | nil => simp [findMaturity.eq_1]
  | cons d ds ih =>
      have hscan : (if isBlank d then scanMaturity (ds ++ c :: rest) else none) =
          (if isBlank d then scanMaturity ds else none).map
            fun scanned => (scanned.1, scanned.2 ++ c :: rest) := by
        split
        · exact scanMaturity_append hdigit hpoint ds rest
        · rfl
      rw [List.cons_append, findMaturity, findMaturity, ih, hscan]
      -- A token at the first character is the first one; else the search goes on behind it.
      cases (if isBlank d then scanMaturity ds else none) with
      | some scanned => rfl
      | none =>
          cases findMaturity ds with
          | some found => rfl
          | none => simp [Function.comp_def]

end

/-- The first token of a text: a blank stands in front of it, and no token in front of that. -/
theorem findMaturity_iff {t : Text} {found : MaturityToken} :
    findMaturity t = some found ↔
      t = found.before ++ found.blank :: (found.token ++ found.rest) ∧
        isBlank found.blank = true ∧ MaturityShape found.token found.rest ∧
        findMaturity found.before = none := by
  constructor
  · intro h
    induction t generalizing found with
    | nil => simp [findMaturity] at h
    | cons c cs ih =>
        rw [findMaturity] at h
        split at h
        · next token later hscan =>
          obtain rfl := Option.some.inj h
          rw [Option.ite_none_right_eq_some, scanMaturity_iff] at hscan
          obtain ⟨hblank, rfl, hshape⟩ := hscan
          exact ⟨rfl, hblank, hshape, rfl⟩
        · next hscan =>
          obtain ⟨later, hlater, rfl⟩ := Option.map_eq_some_iff.1 h
          obtain ⟨rfl, hblank, hshape, hnone⟩ := ih hlater
          refine ⟨rfl, hblank, hshape, ?_⟩
          -- What follows the blank of the token does not matter for a token in front of it.
          have hfront : (if isBlank c then scanMaturity later.before else none) = none := by
            split
            · next hc =>
              rw [if_pos hc, scanMaturity_append (isDigit_of_isBlank hblank)
                (ne_point_of_isBlank hblank), Option.map_eq_none_iff] at hscan
              exact hscan
            · rfl
          rw [findMaturity, hfront, hnone]
          rfl
  · rintro ⟨rfl, hblank, hshape, hnone⟩
    have hhere : findMaturity (found.blank :: (found.token ++ found.rest)) =
        some { found with before := [] } := by
      rw [findMaturity, if_pos hblank, scanMaturity_iff.2 ⟨rfl, hshape⟩]
    rw [findMaturity_append (isDigit_of_isBlank hblank) (ne_point_of_isBlank hblank), hnone, hhere]
    simp

/-- There is no token among blanks. -/
theorem findMaturity_of_blank {t : Text} (h : Blank t) : findMaturity t = none := by
  cases hfound : findMaturity t with
  | none => rfl
  | some found =>
      obtain ⟨rfl, -, ⟨⟨whole, fraction, htoken, -⟩, -⟩, -⟩ := findMaturity_iff.1 hfound
      have hpoint : isBlank '.' = true := h '.' (by simp [htoken])
      exact absurd hpoint (by decide)

/-- Blanks at the end hold no token. -/
theorem findMaturity_append_of_blank {trail : Text} (h : Blank trail) (t : Text) :
    findMaturity (t ++ trail) =
      (findMaturity t).map fun found => { found with rest := found.rest ++ trail } := by
  cases trail with
  | nil => simp
  | cons c cs =>
      have hc : isBlank c = true := h c List.mem_cons_self
      rw [findMaturity_append (isDigit_of_isBlank hc) (ne_point_of_isBlank hc),
        findMaturity_of_blank h]
      cases findMaturity t <;> rfl

end WardleyMaps
