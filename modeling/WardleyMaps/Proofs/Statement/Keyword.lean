/-
Module: WardleyMaps.Proofs.Statement.Keyword
Purpose: The keyword of a line.
Main exports: Token, startsWithKeyword_iff, exists_gap_of_startsWithKeyword, keyword_of_line,
  keyword_unique, isLinkCandidate_of_reserved, kindOf_eq_some, kindOf_eq_none,
  exists_line_of_keyword, item_or_problem_of_keyword
-/
import WardleyMaps.Proofs.Body
import WardleyMaps.Proofs.Document.Pass
import WardleyMaps.Proofs.Text.Cut

namespace WardleyMaps

open Text

/-!
A keyword is a token without blanks, so it is all that stands before the first blank of a trimmed
line. Therefore a line begins with one keyword at most (`keyword_unique`), and a line that begins
with a reserved one is no link (`isLinkCandidate_of_reserved`).
-/

/-- Texts that a line may begin with as a whole token: neither empty nor with a blank or an opening
bracket in them. -/
structure Token (t : Text) : Prop where
  ne_nil : t ≠ []
  unbroken : ∀ c ∈ t, isBlank c = false ∧ c ≠ '['

-- The characters of the text are gone through, not all characters that there are.
instance (t : Text) : Decidable (Token t) :=
  letI : Decidable (∀ c ∈ t, isBlank c = false ∧ c ≠ '[') := List.decidableBAll _ t
  decidable_of_iff (t ≠ [] ∧ ∀ c ∈ t, isBlank c = false ∧ c ≠ '[')
    ⟨fun h => ⟨h.1, h.2⟩, fun h => ⟨h.1, h.2⟩⟩

theorem Token.not_blank {t : Text} (h : Token t) : ∀ c ∈ t, isBlank c = false :=
  fun c hc => (h.unbroken c hc).1

theorem Token.trimmed {t : Text} (h : Token t) : Trimmed t :=
  ⟨fun c hc => h.not_blank c (List.mem_of_mem_head? hc),
    fun c hc => h.not_blank c (List.mem_of_getLast? hc)⟩

theorem startsWithKeyword_iff {keyword line : Text} :
    startsWithKeyword keyword line = true ↔
      ∃ rest, trim line = keyword ++ rest ∧ ∀ c ∈ rest.head?, isBlank c = true := by
  unfold startsWithKeyword
  constructor
  · intro h
    split at h
    · next hafter => exact ⟨[], after?_eq_some.1 hafter, by simp⟩
    · next c rest hafter => exact ⟨c :: rest, after?_eq_some.1 hafter, by simpa using h⟩
    · simp at h
  · rintro ⟨rest, htrim, hrest⟩
    rw [htrim, after?_append]
    cases rest with
    | nil => rfl
    | cons c cs => exact hrest c rfl

/-- A line is its keyword, blanks, and what follows the keyword, if anything does. -/
theorem exists_gap_of_startsWithKeyword {keyword line : Text}
    (h : startsWithKeyword keyword line = true) :
    ∃ gap, Blank gap ∧ trim line = keyword ++ (gap ++ afterKeyword keyword line) ∧
      (gap = [] ↔ afterKeyword keyword line = []) := by
  obtain ⟨rest, htrim, hrest⟩ := startsWithKeyword_iff.1 h
  have hafter : afterKeyword keyword line = trim rest := by
    rw [afterKeyword, htrim, List.drop_left]
  have htrimmed : Trimmed (keyword ++ rest) := htrim ▸ trimmed_trim line
  obtain ⟨gap, hgap, hrestEq⟩ := htrimmed.exists_trim_of_append
  rw [hafter, htrim]
  refine ⟨gap, hgap, congrArg _ hrestEq, ?_, ?_⟩
  · rintro rfl
    rw [List.nil_append] at hrestEq
    rw [← hrestEq]
    cases rest with
    | nil => rfl
    | cons c cs =>
        have hnot : isBlank c = false := (trimmed_trim (c :: cs)).head c (by rw [← hrestEq]; rfl)
        rw [hrest c rfl] at hnot
        exact absurd hnot (by decide)
  · intro hnil
    rw [hnil, List.append_nil] at hrestEq
    subst hrestEq
    cases hlast : rest.getLast? with
    | none => exact List.getLast?_eq_none_iff.1 hlast
    | some c =>
        have hnot : isBlank c = false := htrimmed.last c (by simp [List.getLast?_append, hlast])
        rw [hgap c (List.mem_of_getLast? hlast)] at hnot
        exact absurd hnot (by decide)

theorem afterKeyword_append {keyword lead : Text} (hkeyword : Token keyword) (hlead : Blank lead)
    (rest : Text) : afterKeyword keyword (lead ++ (keyword ++ rest)) = trim rest := by
  rw [afterKeyword, trim_prepend_of_blank hlead,
    trim_append_of_trimmed hkeyword.trimmed hkeyword.ne_nil, List.drop_left, trim_trimEnd]

/-- A line that consists of a keyword and what follows it after a blank. -/
theorem keyword_of_line {keyword rest : Text} (hkeyword : Token keyword) (hrest : Trimmed rest)
    (hrest' : rest ≠ []) :
    startsWithKeyword keyword (keyword ++ ' ' :: rest) = true ∧
      afterKeyword keyword (keyword ++ ' ' :: rest) = rest := by
  have ends : trimEnd (' ' :: rest) = ' ' :: rest := by
    apply trimEnd_eq_self
    rw [List.getLast?_cons_of_ne_nil hrest']
    exact hrest.last
  have whole : trim (keyword ++ ' ' :: rest) = keyword ++ ' ' :: rest := by
    rw [trim_append_of_trimmed hkeyword.trimmed hkeyword.ne_nil, ends]
  constructor
  · rw [startsWithKeyword, whole, after?_append]
    rfl
  · rw [afterKeyword, whole, List.drop_left, trim_cons_of_blank (by decide), trim_eq_self hrest]

/-- The token is all that stands before the first blank. -/
theorem takeWhile_of_startsWithKeyword {keyword line : Text} {p : Char → Bool}
    (hp : ∀ c ∈ keyword, p c = true) (hblank : ∀ c, isBlank c = true → p c = false)
    (h : startsWithKeyword keyword line = true) : (trim line).takeWhile p = keyword := by
  obtain ⟨rest, htrim, hrest⟩ := startsWithKeyword_iff.1 h
  rw [htrim, List.takeWhile_append_of_pos hp]
  cases rest with
  | nil => simp
  | cons c cs => simp [hblank c (hrest c rfl)]

/-- A line begins with one keyword at most. -/
theorem keyword_unique {k l line : Text} (hk : Token k) (hl : Token l)
    (h : startsWithKeyword k line = true) (h' : startsWithKeyword l line = true) : k = l := by
  have hfirst := takeWhile_of_startsWithKeyword (p := (!isBlank ·))
    (fun c hc => by simp [(hk.unbroken c hc).1]) (fun c hc => by simp [hc]) h
  have hsecond := takeWhile_of_startsWithKeyword (p := (!isBlank ·))
    (fun c hc => by simp [(hl.unbroken c hc).1]) (fun c hc => by simp [hc]) h'
  exact hfirst.symm.trans hsecond

theorem startsWithKeyword_of_ne {k l line : Text} (hk : Token k) (hl : Token l) (hne : k ≠ l)
    (h : startsWithKeyword k line = true) : startsWithKeyword l line = false := by
  rw [← Bool.not_eq_true]
  exact fun h' => hne (keyword_unique hk hl h h')

theorem trim_ne_nil_of_startsWithKeyword {k line : Text} (hk : Token k)
    (h : startsWithKeyword k line = true) : trim line ≠ [] := by
  obtain ⟨rest, htrim, -⟩ := startsWithKeyword_iff.1 h
  simp [htrim, hk.ne_nil]

/-- A line that begins with a reserved word is no link. -/
theorem isLinkCandidate_of_reserved {k line : Text} (hk : Token k)
    (hreserved : k ∈ reservedWords) (h : startsWithKeyword k line = true) :
    isLinkCandidate line = false := by
  have hfirst := takeWhile_of_startsWithKeyword (p := fun c => !isBlank c && c ≠ '[')
    (fun c hc => by simp [hk.unbroken c hc]) (fun c hc => by simp [hc]) h
  unfold isLinkCandidate
  simp only
  split
  · rfl
  · next c rest htrim =>
    rw [hfirst]
    simp [hreserved]

/-- Lines that begin with a keyword open no body. -/
theorem opensBody_of_startsWithKeyword {keyword line : Text} (hne : keyword ≠ [])
    (hbrace : keyword.head? ≠ some '{') (h : startsWithKeyword keyword line = true) :
    opensBody line = false := by
  obtain ⟨c, cs, rfl⟩ := List.exists_cons_of_ne_nil hne
  obtain ⟨rest, htrim, -⟩ := startsWithKeyword_iff.1 h
  apply opensBody_eq_false_of_head htrim
  rintro rfl
  exact hbrace rfl

/-! ### Kinds of statements that differ in their keyword -/

theorem kindOf_eq_some {κ : Type} {kinds : List κ} {keyword : κ → String} {line : Text} {kind : κ}
    (h : kindOf kinds keyword line = some kind) :
    kind ∈ kinds ∧ startsWithKeyword (keyword kind).toList line = true :=
  ⟨List.mem_of_find?_eq_some h,
    List.find?_some (p := fun kind => startsWithKeyword (keyword kind).toList line) h⟩

theorem kindOf_eq_none {κ : Type} {kinds : List κ} {keyword : κ → String} {line : Text} :
    kindOf kinds keyword line = none ↔
      ∀ kind ∈ kinds, startsWithKeyword (keyword kind).toList line = false := by
  simp [kindOf]

/-- A line with another keyword is of no kind. -/
theorem kindOf_eq_none_of_ne {κ : Type} {kinds : List κ} {keyword : κ → String} {k line : Text}
    (hk : Token k) (hkinds : ∀ kind ∈ kinds, Token (keyword kind).toList)
    (hne : ∀ kind ∈ kinds, k ≠ (keyword kind).toList) (h : startsWithKeyword k line = true) :
    kindOf kinds keyword line = none :=
  kindOf_eq_none.2 fun kind hkind =>
    startsWithKeyword_of_ne hk (hkinds kind hkind) (hne kind hkind) h

/-! ### Passes of one keyword -/

section

variable {α : Type} {keyword : String} {build : Nat → Text → Except Cause α} {ls : List Text}

theorem kindOf_unit {line : Text} (h : startsWithKeyword keyword.toList line = true) :
    kindOf [()] (fun _ => keyword) line = some () :=
  List.find?_cons_of_pos h

/-- An item is read from a line that begins with the keyword. -/
theorem exists_line_of_keyword {item : α}
    (h : item ∈ (collectKeyword keyword build (ls.zipIdx 1)).items) :
    ∃ i line, ls[i]? = some line ∧ startsWithKeyword keyword.toList line = true ∧
      build (i + 1) line = .ok item := by
  obtain ⟨i, line, kind, hline, haccept, hbuild⟩ := exists_line_of_item h
  exact ⟨i, line, hline, (kindOf_eq_some haccept).2, hbuild⟩

/-- An item is read from a line outside of bodies, when the lines inside are made empty. -/
theorem exists_visible_line_of_keyword {item : α} (hne : keyword.toList ≠ [])
    (h : item ∈ (collectKeyword keyword build ((maskBodies ls).zipIdx 1)).items) :
    ∃ i line, ls[i]? = some line ∧ (inBody ls)[i]? = some false ∧
      startsWithKeyword keyword.toList line = true ∧ build (i + 1) line = .ok item := by
  obtain ⟨i, line, hline, hkeyword, hbuild⟩ := exists_line_of_keyword h
  have hwritten : line ≠ [] := by
    rintro rfl
    obtain ⟨c, cs, hcons⟩ := List.exists_cons_of_ne_nil hne
    rw [startsWithKeyword, trim_nil, hcons] at hkeyword
    cases hkeyword
  obtain ⟨hls, hvisible⟩ := maskBodies_getElem? hline hwritten
  exact ⟨i, line, hls, hvisible, hkeyword, hbuild⟩

/-- A line that begins with the keyword gives an item or is a problem. -/
theorem item_or_problem_of_keyword {i : Nat} {line : Text} (hline : ls[i]? = some line)
    (hkeyword : startsWithKeyword keyword.toList line = true) :
    (∃ item ∈ (collectKeyword keyword build (ls.zipIdx 1)).items, build (i + 1) line = .ok item) ∨
      ∃ problem ∈ (collectKeyword keyword build (ls.zipIdx 1)).problems, problem.line = i + 1 :=
  item_or_problem hline (kindOf_unit hkeyword)

end

end WardleyMaps
