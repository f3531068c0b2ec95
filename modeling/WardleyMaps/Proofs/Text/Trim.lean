/-
Module: WardleyMaps.Proofs.Text.Trim
Purpose: What trimming takes away, and the characters that are no blanks.
Main exports: Text.Blank, Text.Trimmed, Text.exists_trim, Text.infix_trim, Text.trim_surrounded,
  Text.isWord_of_isBlank, Text.isDigit_of_isBlank
-/
import Mathlib.Data.List.DropRight
import WardleyMaps.Text.Digit
import WardleyMaps.Text.Word

namespace WardleyMaps.Text

/-!
A text is what trimming leaves of it between two rows of blanks (`exists_trim`), and whatever has no
blank at its ends is what trimming leaves of it between any two rows of blanks (`trim_surrounded`).
All other facts about trimmed text follow from these two.
-/

/-- Texts that consist of blanks. -/
def Blank (t : Text) : Prop :=
  ∀ c ∈ t, isBlank c = true

-- The characters of the text are gone through, not all characters that there are.
instance (t : Text) : Decidable (Blank t) :=
  List.decidableBAll (isBlank · = true) t

/-- Texts with no blank at either end; the empty text is one of them. -/
structure Trimmed (t : Text) : Prop where
  head : ∀ c ∈ t.head?, isBlank c = false
  last : ∀ c ∈ t.getLast?, isBlank c = false

theorem blank_nil : Blank [] := by
  simp [Blank]

theorem blank_singleton {c : Char} (h : isBlank c = true) : Blank [c] := by
  simpa [Blank] using h

theorem ne_of_isBlank {c d : Char} (hc : isBlank c = true) (hd : isBlank d = false) : c ≠ d := by
  rintro rfl
  rw [hc] at hd
  cases hd

theorem Blank.append {a b : Text} (ha : Blank a) (hb : Blank b) : Blank (a ++ b) := by
  intro c hc
  rcases List.mem_append.1 hc with hc | hc
  · exact ha c hc
  · exact hb c hc

theorem Blank.left {a b : Text} (h : Blank (a ++ b)) : Blank a :=
  fun c hc => h c (List.mem_append_left b hc)

theorem Blank.tail {c : Char} {t : Text} (h : Blank (c :: t)) : Blank t :=
  fun d hd => h d (List.mem_cons_of_mem c hd)

theorem not_mem_of_blank {c : Char} (hc : isBlank c = false) {t : Text} (h : Blank t) : c ∉ t := by
  intro hmem
  rw [h c hmem] at hc
  exact absurd hc (by decide)

/-! ### The two ends -/

theorem trimStart_append_of_blank {lead : Text} (h : Blank lead) (t : Text) :
    trimStart (lead ++ t) = trimStart t :=
  List.dropWhile_append_of_pos h

theorem trimStart_append_cons {c : Char} (hc : isBlank c = false) (t rest : Text) :
    trimStart (t ++ c :: rest) = trimStart t ++ c :: rest := by
  induction t with
  | nil => simp [trimStart, hc]
  | cons d others ih =>
      rw [trimStart, trimStart, List.cons_append, List.dropWhile_cons, List.dropWhile_cons]
      split
      · exact ih
      · rfl

theorem exists_trimStart (t : Text) : ∃ lead, Blank lead ∧ t = lead ++ trimStart t :=
  ⟨t.takeWhile isBlank, fun _ hc => List.mem_takeWhile_imp hc, List.takeWhile_append_dropWhile.symm⟩

theorem trimStart_head (t : Text) : ∀ c ∈ (trimStart t).head?, isBlank c = false := by
  intro c hc
  have h := List.head?_dropWhile_not isBlank t
  rw [show t.dropWhile isBlank = trimStart t from rfl, Option.mem_def.1 hc] at h
  exact h

theorem trimEnd_eq_rdropWhile (t : Text) : trimEnd t = t.rdropWhile isBlank :=
  rfl

theorem trimEnd_append_of_blank {trail : Text} (h : Blank trail) (t : Text) :
    trimEnd (t ++ trail) = trimEnd t := by
  have hr : ∀ c ∈ trail.reverse, isBlank c = true := fun c hc => h c (List.mem_reverse.1 hc)
  rw [trimEnd, List.reverse_append, List.dropWhile_append_of_pos hr, trimEnd]

theorem trimEnd_eq_self {t : Text} (h : ∀ c ∈ t.getLast?, isBlank c = false) : trimEnd t = t := by
  rw [trimEnd_eq_rdropWhile, List.rdropWhile_eq_self_iff]
  intro hne
  simp [h _ (List.getLast?_eq_some_getLast hne)]

theorem exists_trimEnd (t : Text) : ∃ trail, Blank trail ∧ t = trimEnd t ++ trail := by
  refine ⟨t.rtakeWhile isBlank, ?_, (List.rdropWhile_append_rtakeWhile).symm⟩
  intro c hc
  exact List.mem_rtakeWhile_imp hc

theorem trimEnd_last (t : Text) : ∀ c ∈ (trimEnd t).getLast?, isBlank c = false := by
  intro c hc
  have hne : t.rdropWhile isBlank ≠ [] := by
    rintro hnil
    rw [trimEnd_eq_rdropWhile, hnil] at hc
    simp at hc
  have hlast := List.rdropWhile_last_not isBlank t hne
  rw [trimEnd_eq_rdropWhile, List.getLast?_eq_some_getLast hne] at hc
  obtain rfl := Option.some.inj hc
  simpa using hlast

theorem trimEnd_append_cons {c : Char} (hc : isBlank c = false) (t rest : Text) :
    trimEnd (t ++ c :: rest) = t ++ c :: trimEnd rest := by
  obtain ⟨trail, htrail, hrest⟩ := exists_trimEnd rest
  have hwhole : t ++ c :: rest = (t ++ c :: trimEnd rest) ++ trail := by
    conv_lhs => rw [hrest]
    simp
  rw [hwhole, trimEnd_append_of_blank htrail]
  apply trimEnd_eq_self
  intro d hd
  rw [List.getLast?_append_cons, List.getLast?_cons] at hd
  cases hlast : (trimEnd rest).getLast? with
  | none =>
      rw [hlast] at hd
      obtain rfl : c = d := Option.some.inj hd
      exact hc
  | some e =>
      rw [hlast] at hd
      obtain rfl : e = d := Option.some.inj hd
      exact trimEnd_last rest e hlast

/-! ### Both ends -/

theorem trimmed_trim (t : Text) : Trimmed (trim t) := by
  refine ⟨?_, trimEnd_last _⟩
  intro c hc
  obtain ⟨trail, -, htrail⟩ := exists_trimEnd (trimStart t)
  apply trimStart_head t c
  rw [htrail]
  rw [trim] at hc
  simp [List.head?_append, Option.mem_def.1 hc]

/-- A text is its trimmed form between two rows of blanks. -/
theorem exists_trim (t : Text) :
    ∃ lead trail, Blank lead ∧ Blank trail ∧ t = lead ++ trim t ++ trail := by
  obtain ⟨lead, hlead, hstart⟩ := exists_trimStart t
  obtain ⟨trail, htrail, hend⟩ := exists_trimEnd (trimStart t)
  refine ⟨lead, trail, hlead, htrail, ?_⟩
  rw [trim, List.append_assoc, ← hend, ← hstart]

theorem trimStart_suffix (t : Text) : trimStart t <:+ t :=
  List.dropWhile_suffix isBlank

theorem infix_trim (t : Text) : trim t <:+: t := by
  obtain ⟨lead, trail, -, -, whole⟩ := exists_trim t
  exact ⟨lead, trail, whole.symm⟩

/-- Trimming takes away blanks around a text that has none at its ends, and no more. -/
theorem trim_surrounded {lead t trail : Text} (hlead : Blank lead) (ht : Trimmed t)
    (htrail : Blank trail) : trim (lead ++ t ++ trail) = t := by
  cases t with
  | nil =>
      have h : Blank (lead ++ [] ++ trail) := by simpa using hlead.append htrail
      have hs : trimStart (lead ++ [] ++ trail) = [] := List.dropWhile_eq_nil_iff.2 h
      rw [trim, hs]
      rfl
  | cons c cs =>
      have hc : isBlank c = false := ht.head c rfl
      have hs : trimStart (lead ++ (c :: cs) ++ trail) = (c :: cs) ++ trail := by
        rw [List.append_assoc, trimStart_append_of_blank hlead, List.cons_append,
          trimStart_eq_self_of_head hc]
      rw [trim, hs, trimEnd_append_of_blank htrail, trimEnd_eq_self ht.last]

theorem trim_eq_self {t : Text} (h : Trimmed t) : trim t = t := by
  simpa using trim_surrounded blank_nil h blank_nil

instance (t : Text) : Decidable (Trimmed t) :=
  decidable_of_iff (trim t = t) ⟨fun h => h ▸ trimmed_trim t, trim_eq_self⟩

@[simp]
theorem trim_trim (t : Text) : trim (trim t) = trim t :=
  trim_eq_self (trimmed_trim t)

theorem trim_append_of_blank {trail : Text} (h : Blank trail) (t : Text) :
    trim (t ++ trail) = trim t := by
  obtain ⟨a, b, ha, hb, ht⟩ := exists_trim t
  calc trim (t ++ trail) = trim (a ++ trim t ++ (b ++ trail)) := by
        rw [← List.append_assoc, ← ht]
    _ = trim t := trim_surrounded ha (trimmed_trim t) (hb.append h)

theorem trim_prepend_of_blank {lead : Text} (h : Blank lead) (t : Text) :
    trim (lead ++ t) = trim t := by
  rw [trim, trimStart_append_of_blank h, trim]

@[simp]
theorem trim_trimEnd (t : Text) : trim (trimEnd t) = trim t := by
  obtain ⟨trail, htrail, ht⟩ := exists_trimEnd t
  conv_rhs => rw [ht, trim_append_of_blank htrail]

@[simp]
theorem trim_trimStart (t : Text) : trim (trimStart t) = trim t := by
  obtain ⟨lead, hlead, ht⟩ := exists_trimStart t
  conv_rhs => rw [ht, trim_prepend_of_blank hlead]

/-- Around a character that is no blank, both sides are trimmed on their own. -/
theorem trim_append_cons {c : Char} (hc : isBlank c = false) (a b : Text) :
    trim (a ++ c :: b) = trimStart a ++ c :: trimEnd b := by
  rw [trim, trimStart_append_cons hc, trimEnd_append_cons hc]

theorem trim_eq_nil_iff {t : Text} : trim t = [] ↔ Blank t := by
  constructor
  · intro h
    obtain ⟨lead, trail, hlead, htrail, ht⟩ := exists_trim t
    rw [ht, h, List.append_nil]
    exact hlead.append htrail
  · intro h
    simpa [trim_nil] using trim_append_of_blank h []

theorem trim_cons_of_blank {c : Char} (h : isBlank c = true) (t : Text) :
    trim (c :: t) = trim t := by
  have hstart : trimStart (c :: t) = trimStart t :=
    List.dropWhile_cons_of_pos h
  rw [trim, hstart, trim]

/-- A text that begins with no blank is its trimmed form in front of a row of blanks. -/
theorem exists_trim_of_head {t : Text} (h : ∀ c ∈ t.head?, isBlank c = false) :
    ∃ trail, Blank trail ∧ t = trim t ++ trail := by
  have hstart : trimStart t = t := by
    cases t with
    | nil => rfl
    | cons c cs => exact trimStart_eq_self_of_head (h c rfl)
  rw [trim, hstart]
  exact exists_trimEnd t

/-- Behind a trimmed text only blanks at the end are left out. -/
theorem trim_append_of_trimmed {name : Text} (hname : Trimmed name) (hne : name ≠ []) (t : Text) :
    trim (name ++ t) = name ++ trimEnd t := by
  obtain ⟨trail, htrail, ht⟩ := exists_trimEnd t
  have htrimmed : Trimmed (name ++ trimEnd t) := by
    obtain ⟨c, cs, rfl⟩ := List.exists_cons_of_ne_nil hne
    refine ⟨hname.head, ?_⟩
    intro d hd
    rw [List.getLast?_append, Option.mem_def, Option.or_eq_some_iff] at hd
    rcases hd with hd | ⟨-, hd⟩
    · exact trimEnd_last t d hd
    · exact hname.last d hd
  calc trim (name ++ t) = trim ((name ++ trimEnd t) ++ trail) := by rw [List.append_assoc, ← ht]
    _ = name ++ trimEnd t := by rw [trim_append_of_blank htrail, trim_eq_self htrimmed]

/-- Trimmed texts stay so at both ends of a longer one. -/
theorem trimmed_between {a b : Text} (ha : Trimmed a) (hane : a ≠ []) (hb : Trimmed b)
    (hbne : b ≠ []) (middle : Text) : Trimmed (a ++ (middle ++ b)) := by
  constructor
  · intro c hc
    apply ha.head c
    rwa [List.head?_append_of_ne_nil _ hane] at hc
  · intro c hc
    apply hb.last c
    rwa [← List.append_assoc, List.getLast?_append_of_ne_nil _ hbne] at hc

/-- The end of a trimmed text is trimmed if it begins with no blank. -/
theorem Trimmed.of_append {a b : Text} (h : Trimmed (a ++ b))
    (hb : ∀ c ∈ b.head?, isBlank c = false) : Trimmed b := by
  refine ⟨hb, ?_⟩
  intro c hc
  apply h.last c
  cases b with
  | nil => simp at hc
  | cons d ds => simpa [List.getLast?_append] using hc

/-- At the end of a trimmed text only blanks in front are left out. -/
theorem Trimmed.exists_trim_of_append {a b : Text} (h : Trimmed (a ++ b)) :
    ∃ lead, Blank lead ∧ b = lead ++ trim b := by
  obtain ⟨lead, trail, hlead, htrail, hb⟩ := exists_trim b
  have hnil : trail = [] := by
    by_contra hcons
    obtain ⟨c, hc⟩ : ∃ c, trail.getLast? = some c := by
      cases hl : trail.getLast? with
      | none => exact absurd (List.getLast?_eq_none_iff.1 hl) hcons
      | some c => exact ⟨c, rfl⟩
    have hlast : (a ++ b).getLast? = some c := by
      rw [hb, ← List.append_assoc, List.getLast?_append, hc]
      rfl
    have hblank := h.last c hlast
    rw [htrail c (List.mem_of_getLast? hc)] at hblank
    exact absurd hblank (by decide)
  rw [hnil, List.append_nil] at hb
  exact ⟨lead, hlead, hb⟩

/-! ### Characters that are no blanks -/

/-- Ranges that lie apart have no character in common. -/
theorem inRanges_of_apart {rs qs : List (Nat × Nat)} {c : Char}
    (apart : ∀ r ∈ rs, ∀ q ∈ qs, r.2 < q.1 ∨ q.2 < r.1) (h : inRanges rs c = true) :
    inRanges qs c = false := by
  simp only [inRanges, List.any_eq_true, Bool.and_eq_true, decide_eq_true_eq, Prod.exists] at h
  obtain ⟨low, high, hr, h1, h2⟩ := h
  simp only [inRanges, List.any_eq_false, Bool.and_eq_true, decide_eq_true_eq, not_and, Prod.forall]
  intro low' high' hq h3
  rcases apart _ hr _ hq with hlt | hlt <;> simp only at hlt <;> omega

theorem blank_apart_word : ∀ r ∈ blankRanges, ∀ q ∈ wordRanges, r.2 < q.1 ∨ q.2 < r.1 := by
  decide +kernel

/-- No blank is part of a word. -/
theorem isWord_of_isBlank {c : Char} (h : isBlank c = true) : isWord c = false := by
  by_cases hascii : c.toNat < 0x80
  · have hrange : 9 ≤ c.toNat ∧ c.toNat ≤ 13 ∨ 28 ≤ c.toNat ∧ c.toNat ≤ 32 := by
      simp only [isBlank, inRanges, blankRanges, List.any_eq_true, Bool.and_eq_true,
        decide_eq_true_eq, Prod.exists, List.mem_cons, Prod.mk.injEq, List.not_mem_nil,
        or_false] at h
      omega
    have hunderscore : c ≠ '_' := by
      rintro rfl
      simp at hrange
    have halnum : c.isAlphanum = false := by
      have hlow : ∀ n : Fin 33, (Char.ofNat n).isAlphanum = false := by decide
      have hc := hlow ⟨c.toNat, by omega⟩
      rwa [Char.ofNat_toNat] at hc
    simp [isWord, hascii, hunderscore, halnum]
  · simp [isWord, hascii, inRanges_of_apart blank_apart_word h]

theorem blank_apart_digit : ∀ r ∈ blankRanges, ∀ z ∈ zeroDigits, r.2 < z ∨ z + 9 < r.1 := by
  decide +kernel

/-- No blank is a digit. -/
theorem isDigit_of_isBlank {c : Char} (h : isBlank c = true) : isDigit c = false := by
  simp only [isBlank, inRanges, List.any_eq_true, Bool.and_eq_true, decide_eq_true_eq,
    Prod.exists] at h
  obtain ⟨low, high, hmem, hlow, hhigh⟩ := h
  have hascii : ∀ r ∈ blankRanges, r.2 < 0x30 ∨ 0x80 ≤ r.1 := by decide
  have hrange := hascii _ hmem
  simp only at hrange
  by_cases hlt : c.toNat < 0x80
  · have hnot : ¬ (0x30 ≤ c.toNat ∧ c.toNat ≤ 0x39) := by omega
    simp [isDigit, digitValue?, hlt, hnot]
  · have hnone : zeroDigits.find? (fun z => z ≤ c.toNat && c.toNat ≤ z + 9) = none := by
      rw [List.find?_eq_none]
      intro z hz hboth
      rw [Bool.and_eq_true, decide_eq_true_eq, decide_eq_true_eq] at hboth
      have hapart := blank_apart_digit _ hmem z hz
      simp only at hapart
      omega
    simp only [isDigit, digitValue?, hlt, hnone, ↓reduceIte, Option.map_none, Option.isSome_none]

end WardleyMaps.Text
