/-
Module: WardleyMaps.Proofs.Text.Word
Purpose: Words in texts that are put together from parts.
Main exports: Text.WordText, Text.HoldsWord, Text.findEdge_append, Text.findWord_append,
  Text.findWord_eq_none_iff, Text.holdsWord_append_cons, Text.findWord_append_of_not_holdsWord
-/
import WardleyMaps.Proofs.Text.Cut

namespace WardleyMaps.Text

/-!
A search for a keyword goes through a text once, and all that it keeps of what it has passed is
whether a word character stands before the place. So the search through two texts, one behind the
other, is the search through the first one, in sight of the second, and then the search through the
second (`findEdge_append`). A character between them that no word holds, and the keyword neither,
makes the two searches independent (`findWord_append`). What is looked for behind a keyword mostly
refuses to begin within a word. Then it is found only where the keyword is a word of its own
(`findWord_eq_none_of_not_holdsWord`).
-/

/-- Whether the character at the end of a text is a word character; the flag tells so of the
character before the text. -/
def endsWord (joined : Bool) (t : Text) : Bool :=
  (t.getLast?.map isWord).getD joined

/-- Keywords that are made of word characters. -/
structure WordText (t : Text) : Prop where
  ne_nil : t ≠ []
  word : ∀ c ∈ t, isWord c = true

-- The characters of the text are gone through, not all characters that there are.
instance (t : Text) : Decidable (WordText t) :=
  letI : Decidable (∀ c ∈ t, isWord c = true) := List.decidableBAll _ t
  decidable_of_iff (t ≠ [] ∧ ∀ c ∈ t, isWord c = true) ⟨fun h => ⟨h.1, h.2⟩, fun h => ⟨h.1, h.2⟩⟩

theorem WordText.not_mem {t : Text} (h : WordText t) {c : Char} (hc : isWord c = false) :
    c ∉ t := by
  intro hmem
  rw [h.word c hmem] at hc
  cases hc

/-- A word occurs on its own, without word characters on either side. -/
def HoldsWord (word t : Text) : Prop :=
  ∃ before after, t = before ++ (word ++ after) ∧ endsWord false before = false ∧
    startsWord after = false

theorem endsWord_cons (joined : Bool) (c : Char) (t : Text) :
    endsWord joined (c :: t) = endsWord (isWord c) t := by
  rw [endsWord, endsWord, List.getLast?_cons]
  cases t.getLast? <;> rfl

theorem startsWord_append {c : Char} (hc : isWord c = false) (t rest : Text) :
    startsWord (t ++ c :: rest) = startsWord t := by
  cases t with
  | nil => exact hc
  | cons d others => rfl

/-- A beginning without a character is found in front of this character or not at all. -/
theorem after?_append_cons {start : Text} {c : Char} (hc : c ∉ start) (t rest : Text) :
    after? start (t ++ c :: rest) = (after? start t).map (· ++ c :: rest) := by
  induction start generalizing t with
  | nil => rfl
  | cons p ps ih =>
      rw [List.mem_cons, not_or] at hc
      cases t with
      | nil => simp [after?, Ne.symm hc.1]
      | cons d others =>
          rw [List.cons_append, after?, after?]
          split
          · exact ih hc.2 others
          · rfl

/-! ### Searches -/

section

variable {α : Type}

theorem findEdge_append (accept : Text → Option α) (joined : Bool) (a b : Text) :
    findEdge accept joined (a ++ b) =
      (findEdge (fun t => accept (t ++ b)) joined a).or
        (findEdge accept (endsWord joined a) b) := by
  induction a generalizing joined with
  | nil => rfl
  | cons c rest ih =>
      rw [List.cons_append, findEdge, findEdge, endsWord_cons]
      cases joined with
      | true => exact ih _
      | false =>
          simp only [Bool.false_eq_true, ↓reduceIte, List.cons_append]
          cases accept (c :: (rest ++ b)) with
          | some found => rfl
          | none => exact ih _

theorem findEdge_map {β : Type} (accept : Text → Option α) (f : α → β) (joined : Bool) (t : Text) :
    (findEdge accept joined t).map f = findEdge (fun here => (accept here).map f) joined t := by
  induction t generalizing joined with
  | nil => rfl
  | cons c rest ih =>
      rw [findEdge, findEdge]
      cases joined with
      | true => exact ih _
      | false =>
          simp only [Bool.false_eq_true, ↓reduceIte]
          cases accept (c :: rest) with
          | some found => rfl
          | none => exact ih _

theorem findWord_map {β : Type} (keyword : Text) (accept : Text → Option α) (f : α → β) (t : Text) :
    (findWord keyword accept t).map f = findWord keyword (fun rest => (accept rest).map f) t := by
  rw [findWord, findWord, findEdge_map]
  congr 1
  funext here
  exact Option.map_bind

/-- Nothing is found just when nothing is accepted at any edge. -/
theorem findEdge_eq_none_iff {accept : Text → Option α} {joined : Bool} {t : Text} :
    findEdge accept joined t = none ↔
      ∀ before here, t = before ++ here → here ≠ [] → endsWord joined before = false →
        accept here = none := by
  induction t generalizing joined with
  | nil =>
      simp only [findEdge, true_iff]
      intro before here ht hne
      exact absurd (List.append_eq_nil_iff.1 ht.symm).2 hne
  | cons c rest ih =>
      have hstep : findEdge accept joined (c :: rest) = none ↔
          (joined = false → accept (c :: rest) = none) ∧
            findEdge accept (isWord c) rest = none := by
        rw [findEdge]
        cases joined with
        | true => simp
        | false =>
            simp only [Bool.false_eq_true, ↓reduceIte, true_implies]
            cases accept (c :: rest) <;> simp
      rw [hstep, ih]
      constructor
      · rintro ⟨hhere, hlater⟩ before here ht hne hedge
        cases before with
        | nil =>
            obtain rfl : c :: rest = here := ht
            exact hhere hedge
        | cons d before =>
            obtain ⟨rfl, rfl⟩ := List.cons.inj ht
            exact hlater before here rfl hne (endsWord_cons joined c before ▸ hedge)
      · intro h
        refine ⟨fun hjoined => h [] (c :: rest) rfl (by simp) hjoined, ?_⟩
        intro before here ht hne hedge
        apply h (c :: before) here (by rw [ht]; rfl) hne
        rw [endsWord_cons]
        exact hedge

theorem findWord_eq_none_iff {keyword : Text} (hne : keyword ≠ []) {accept : Text → Option α}
    {t : Text} :
    findWord keyword accept t = none ↔
      ∀ before after, t = before ++ (keyword ++ after) → endsWord false before = false →
        accept after = none := by
  rw [findWord, findEdge_eq_none_iff]
  constructor
  · intro h before after ht hedge
    have hhere := h before (keyword ++ after) ht (by simp [hne]) hedge
    rwa [after?_append, Option.bind_some] at hhere
  · intro h before here ht _ hedge
    cases hafter : after? keyword here with
    | none => rfl
    | some after => exact h before after (after?_eq_some.1 hafter ▸ ht) hedge

variable {keyword : Text} {c : Char}

/-- Behind a character that is in no word, and not in the keyword, the search begins anew. -/
theorem findWord_append (hkeyword : WordText keyword) (hc : isWord c = false)
    (accept : Text → Option α) (a b : Text) :
    findWord keyword accept (a ++ c :: b) =
      (findWord keyword (fun t => accept (t ++ c :: b)) a).or (findWord keyword accept b) := by
  have hfront : (fun t => (after? keyword (t ++ c :: b)).bind accept) =
      fun t => (after? keyword t).bind fun rest => accept (rest ++ c :: b) := by
    funext t
    rw [after?_append_cons (hkeyword.not_mem hc), Option.bind_map]
    rfl
  have hhere : after? keyword (c :: b) = none := by
    obtain ⟨p, ps, rfl⟩ := List.exists_cons_of_ne_nil hkeyword.ne_nil
    apply after?_cons_ne
    rintro rfl
    exact hkeyword.not_mem hc List.mem_cons_self
  have hbehind : ∀ joined, findEdge (fun t => (after? keyword t).bind accept) joined (c :: b) =
      findWord keyword accept b := by
    intro joined
    rw [findEdge, hhere, hc]
    cases joined <;> rfl
  rw [findWord, findEdge_append, hfront, hbehind]
  rfl

/-- Where what follows the keyword is told without this character, the searches are apart. -/
theorem findWord_append_of_local (hkeyword : WordText keyword) (hc : isWord c = false)
    {accept : Text → Option α} {b : Text}
    (hlocal : ∀ t, accept (t ++ c :: b) = accept t) (a : Text) :
    findWord keyword accept (a ++ c :: b) =
      (findWord keyword accept a).or (findWord keyword accept b) := by
  have hfront : (fun t => accept (t ++ c :: b)) = accept := funext hlocal
  rw [findWord_append hkeyword hc, hfront]

/-- Blanks in front are passed over. -/
theorem findWord_prepend_of_blank (hkeyword : WordText keyword) (accept : Text → Option α)
    {lead : Text} (hlead : Blank lead) (t : Text) :
    findWord keyword accept (lead ++ t) = findWord keyword accept t := by
  induction lead with
  | nil => rfl
  | cons c rest ih =>
      have hc : isWord c = false := isWord_of_isBlank (hlead c List.mem_cons_self)
      have hstep := findWord_append hkeyword hc accept [] (rest ++ t)
      rw [List.cons_append, ← ih hlead.tail]
      exact hstep

theorem findWord_of_accept (hkeyword : WordText keyword) {accept : Text → Option α} {rest : Text}
    {found : α} (h : accept rest = some found) :
    findWord keyword accept (keyword ++ rest) = some found := by
  apply findEdge_of_accept
  · rw [after?_append]
    exact h
  · simp [hkeyword.ne_nil]

/-! ### Words on their own -/

theorem holdsWord_iff (hne : keyword ≠ []) {t : Text} :
    HoldsWord keyword t ↔
      findWord keyword (fun rest => if startsWord rest then none else some ()) t ≠ none := by
  rw [ne_eq, findWord_eq_none_iff hne]
  simp only [not_forall, HoldsWord]
  constructor
  · rintro ⟨before, after, ht, hbefore, hafter⟩
    exact ⟨before, after, ht, hbefore, by simp [hafter]⟩
  · rintro ⟨before, after, ht, hbefore, hafter⟩
    exact ⟨before, after, ht, hbefore, by simpa using hafter⟩

/-- A word stands on one side of a character that no word holds. -/
theorem holdsWord_append_cons (hkeyword : WordText keyword) (hc : isWord c = false) {a b : Text} :
    HoldsWord keyword (a ++ c :: b) ↔ HoldsWord keyword a ∨ HoldsWord keyword b := by
  have hne := hkeyword.ne_nil
  rw [holdsWord_iff hne, holdsWord_iff hne, holdsWord_iff hne,
    findWord_append_of_local hkeyword hc]
  · rw [ne_eq, Option.or_eq_none_iff, not_and_or]
  · intro t
    rw [startsWord_append hc]

theorem HoldsWord.isInfix {t : Text} (h : HoldsWord keyword t) : keyword <:+: t := by
  obtain ⟨before, after, ht, -, -⟩ := h
  exact ⟨before, after, by rw [ht, List.append_assoc]⟩

theorem not_holdsWord_of_blank (hkeyword : WordText keyword) {t : Text} (ht : Blank t) :
    ¬ HoldsWord keyword t := by
  intro h
  obtain ⟨d, hd⟩ := List.exists_mem_of_ne_nil keyword hkeyword.ne_nil
  have hword := isWord_of_isBlank (ht d (h.isInfix.subset hd))
  rw [hkeyword.word d hd] at hword
  cases hword

/-- Blanks at the ends hold no word. -/
theorem holdsWord_trim (hkeyword : WordText keyword) {t : Text} :
    HoldsWord keyword (trim t) ↔ HoldsWord keyword t := by
  have hstart : ∀ {lead u : Text}, Blank lead →
      (HoldsWord keyword (lead ++ u) ↔ HoldsWord keyword u) := by
    intro lead u hlead
    rw [holdsWord_iff hkeyword.ne_nil, holdsWord_iff hkeyword.ne_nil,
      findWord_prepend_of_blank hkeyword _ hlead]
  have hend : ∀ {trail u : Text}, Blank trail →
      (HoldsWord keyword (u ++ trail) ↔ HoldsWord keyword u) := by
    intro trail u htrail
    cases trail with
    | nil => rw [List.append_nil]
    | cons d rest =>
        have hd : isWord d = false := isWord_of_isBlank (htrail d List.mem_cons_self)
        rw [holdsWord_append_cons hkeyword hd,
          or_iff_left (not_holdsWord_of_blank hkeyword htrail.tail)]
  obtain ⟨lead, trail, hlead, htrail, ht⟩ := exists_trim t
  rw [ht, trim_append_of_blank htrail, trim_prepend_of_blank hlead, trim_trim, hend htrail,
    hstart hlead]

/-- A word of word characters holds no word but itself. -/
theorem eq_of_holdsWord {word : Text} (hword : WordText word) (h : HoldsWord keyword word) :
    keyword = word := by
  obtain ⟨before, after, rfl, hbefore, hafter⟩ := h
  have hnil : before = [] := by
    cases hlast : before.getLast? with
    | none => exact List.getLast?_eq_none_iff.1 hlast
    | some d =>
        have hd : isWord d = true :=
          hword.word d (List.mem_append_left _ (List.mem_of_getLast? hlast))
        rw [endsWord, hlast, Option.map_some, Option.getD_some, hd] at hbefore
        cases hbefore
  cases after with
  | nil => simp [hnil]
  | cons d rest =>
      have hd : isWord d = true := hword.word d (by simp)
      rw [startsWord, hd] at hafter
      cases hafter

/-- A word among pieces with marks between them stands in one of them. -/
theorem exists_holdsWord_of_intercalate (hkeyword : WordText keyword) (hc : isWord c = false)
    {pieces : List Text} (h : HoldsWord keyword ([c].intercalate pieces)) :
    ∃ piece ∈ pieces, HoldsWord keyword piece := by
  induction pieces with
  | nil => exact absurd h (not_holdsWord_of_blank hkeyword blank_nil)
  | cons first others ih =>
      cases others with
      | nil => exact ⟨first, List.mem_cons_self, by simpa [List.intercalate] using h⟩
      | cons second others =>
          have hshape : [c].intercalate (first :: second :: others) =
              first ++ c :: [c].intercalate (second :: others) := by
            simp [List.intercalate]
          rw [hshape, holdsWord_append_cons hkeyword hc] at h
          rcases h with h | h
          · exact ⟨first, List.mem_cons_self, h⟩
          · obtain ⟨piece, hmem, hpiece⟩ := ih h
            exact ⟨piece, List.mem_cons_of_mem _ hmem, hpiece⟩

/-- What begins no word is not found in a text that does not hold the keyword. -/
theorem findWord_eq_none_of_not_holdsWord (hne : keyword ≠ []) {accept : Text → Option α}
    (hstart : ∀ rest, startsWord rest = true → accept rest = none) {t : Text}
    (h : ¬ HoldsWord keyword t) : findWord keyword accept t = none := by
  rw [findWord_eq_none_iff hne]
  intro before after ht hbefore
  apply hstart
  by_contra hafter
  exact h ⟨before, after, ht, hbefore, Bool.not_eq_true _ ▸ hafter⟩

/-- What begins no word is looked for behind a text that does not hold the keyword, if blanks follow
the text. -/
theorem findWord_append_of_not_holdsWord (hkeyword : WordText keyword) {accept : Text → Option α}
    (hstart : ∀ rest, startsWord rest = true → accept rest = none) {t rest : Text}
    (h : ¬ HoldsWord keyword t) (hrest : ∀ d ∈ rest.head?, isBlank d = true) :
    findWord keyword accept (t ++ rest) = findWord keyword accept rest := by
  cases rest with
  | nil =>
      rw [List.append_nil, findWord_eq_none_of_not_holdsWord hkeyword.ne_nil hstart h]
      rfl
  | cons d rest =>
      have hd : isBlank d = true := hrest d rfl
      have hfront : findWord keyword (fun u => accept (u ++ d :: rest)) t = none := by
        apply findWord_eq_none_of_not_holdsWord hkeyword.ne_nil _ h
        intro u hu
        exact hstart _ (by rw [startsWord_append (isWord_of_isBlank hd), hu])
      rw [findWord_append hkeyword (isWord_of_isBlank hd), hfront, Option.none_or]
      exact (findWord_prepend_of_blank hkeyword accept (blank_singleton hd) rest).symm

end

end WardleyMaps.Text
