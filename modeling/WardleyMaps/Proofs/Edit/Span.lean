/-
Module: WardleyMaps.Proofs.Edit.Span
Purpose: Where the span of an edit stands on its line.
Main exports: Span.On, Span.Bracketed, positionSpan_bracketed, positionSpan_eq_some,
  maturitySpan_shape, maturitySpan_eq_some
-/
import WardleyMaps.Edit.Evolution
import WardleyMaps.Proofs.Statement.Maturity
import WardleyMaps.Proofs.Text.Cut

namespace WardleyMaps

open Text

/-!
Both editors match a beginning of a statement somewhere on the line and look for the span in what
follows. Whatever they match, the span stands on the line behind one character that is known: an
opening bracket in front of a position, a blank in front of a maturity.
-/

/-- A span stands on a line behind a character. -/
structure Span.On (s : Span) (line : Text) (mark : Char) : Prop where
  line : line = s.line s.old
  before : ∃ front, s.before = front ++ [mark]

/-- A span holds all that stands between an opening bracket of a line and the next closing one. -/
structure Span.Bracketed (s : Span) (line : Text) : Prop where
  on : s.On line '['
  closed : ']' ∉ s.old
  after : ∃ tail, s.after = ']' :: tail

/-! ### Matching -/

theorem findPlace_suffix {α : Type} {accept : Text → Option α} {t : Text} {found : α}
    (h : findPlace accept t = some found) : ∃ s, s <:+ t ∧ accept s = some found := by
  induction t with
  | nil => simp [findPlace] at h
  | cons c cs ih =>
      rw [findPlace] at h
      split at h
      · next hfound =>
        cases h
        exact ⟨c :: cs, List.suffix_refl _, hfound⟩
      · obtain ⟨s, hs, haccept⟩ := ih h
        exact ⟨s, hs.trans (List.suffix_cons c cs), haccept⟩

theorem findEdge_suffix {α : Type} {accept : Text → Option α} {joined : Bool} {t : Text} {found : α}
    (h : findEdge accept joined t = some found) : ∃ s, s <:+ t ∧ accept s = some found := by
  induction t generalizing joined with
  | nil => simp [findEdge] at h
  | cons c cs ih =>
      rw [findEdge] at h
      split at h
      · next hfound =>
        cases h
        cases joined with
        | true => cases hfound
        | false => exact ⟨c :: cs, List.suffix_refl _, hfound⟩
      · obtain ⟨s, hs, haccept⟩ := ih h
        exact ⟨s, hs.trans (List.suffix_cons c cs), haccept⟩

/-- What is accepted stands behind a row of blanks. -/
theorem exists_gap_of_afterBlanks {α : Type} {accept : Text → Option α} {t : Text} {found : α}
    (h : afterBlanks accept t = some found) :
    ∃ gap s, t = gap ++ s ∧ Blank gap ∧ gap ≠ [] ∧ accept s = some found := by
  induction t with
  | nil => simp [afterBlanks] at h
  | cons c cs ih =>
      rw [afterBlanks] at h
      split at h
      · next hc =>
        have hblank : Blank [c] := fun d hd => by
          rw [List.mem_singleton.1 hd]
          exact hc
        cases hlater : afterBlanks accept cs with
        | some later =>
            rw [hlater] at h
            cases h
            obtain ⟨gap, s, rfl, hgap, -, haccept⟩ := ih hlater
            exact ⟨c :: gap, s, rfl, hblank.append hgap, List.cons_ne_nil c gap, haccept⟩
        | none =>
            rw [hlater] at h
            exact ⟨[c], cs, rfl, hblank, List.cons_ne_nil c [], h⟩
      · cases h

/-- All blanks are passed over when no blank is accepted. -/
theorem afterBlanks_of_refused {α : Type} {accept : Text → Option α}
    (hrefuse : ∀ c t, isBlank c = true → accept (c :: t) = none) {gap t : Text} (hgap : Blank gap)
    (hne : gap ≠ []) (ht : ∀ c ∈ t.head?, isBlank c = false) :
    afterBlanks accept (gap ++ t) = accept t := by
  induction gap with
  | nil => exact absurd rfl hne
  | cons c cs ih =>
      have hc : isBlank c = true := hgap c List.mem_cons_self
      rw [List.cons_append, afterBlanks, if_pos hc]
      cases cs with
      | nil =>
          have hnone : afterBlanks accept t = none := by
            cases t with
            | nil => rfl
            | cons d ds => simp [afterBlanks, ht d rfl]
          simp [hnone]
      | cons d ds =>
          have hd : isBlank d = true := hgap d (by simp)
          rw [ih hgap.tail (List.cons_ne_nil d ds), List.cons_append, hrefuse d _ hd]
          simp

theorem after?_suffix {start t rest : Text} (h : after? start t = some rest) : rest <:+ t :=
  ⟨start, (after?_eq_some.1 h).symm⟩

theorem cutAt_suffix {mark : Char} {t before rest : Text} (h : cutAt mark t = some (before, rest)) :
    (mark :: rest) <:+ t :=
  ⟨before, (cutAt_eq_some h).1.symm⟩

/-! ### Positions -/

/-- What a declaration is matched up to follows an opening bracket. -/
theorem declaration?_suffix {name t opened : Text} (h : declaration? name t = some opened) :
    ('[' :: opened) <:+ t := by
  obtain ⟨keyword, -, hkeyword⟩ := List.exists_of_findSome?_eq_some h
  obtain ⟨rest, hrest, hblanks⟩ := Option.bind_eq_some_iff.1 hkeyword
  obtain ⟨gap, s, hs, -, -, hbracket⟩ := exists_gap_of_afterBlanks hblanks
  obtain ⟨later, hlater, hopened⟩ := Option.bind_eq_some_iff.1 hbracket
  have hopen : trimStart later = '[' :: opened := by
    split at hopened
    · next heq => rw [heq, Option.some.inj hopened]
    · cases hopened
  have hlaterSuffix : ('[' :: opened) <:+ later := hopen ▸ List.dropWhile_suffix isBlank
  have hname : ('[' :: opened) <:+ s := hlaterSuffix.trans (after?_suffix hlater)
  exact (hname.trans ⟨gap, hs.symm⟩).trans (after?_suffix hrest)

theorem bracketed_of_spanToBracket {line opened : Text} {s : Span}
    (hopen : ('[' :: opened) <:+ line) (h : spanToBracket line opened = some s) :
    s.Bracketed line := by
  obtain ⟨⟨old, after⟩, hcut, rfl⟩ := Option.map_eq_some_iff.1 h
  obtain ⟨hopened, hclosed⟩ := cutAt_eq_some hcut
  obtain ⟨front, rfl⟩ := hopen
  have hbefore : (front ++ '[' :: opened).take ((front ++ '[' :: opened).length - opened.length) =
      front ++ ['['] := take_before (by simp)
  refine ⟨⟨?_, front, hbefore⟩, hclosed, after, rfl⟩
  rw [Span.line, hbefore, hopened]
  simp

/-- A position is written between brackets. -/
theorem positionSpan_bracketed {name : Text} {line : SourceLine} {s : Span}
    (h : positionSpan name line = some s) : s.Bracketed line.raw := by
  unfold positionSpan at h
  split at h
  · split at h
    · cases h
    · obtain ⟨opened, hfound, hspan⟩ := Option.bind_eq_some_iff.1 h
      obtain ⟨t, ht, hdeclaration⟩ := findEdge_suffix hfound
      exact bracketed_of_spanToBracket ((declaration?_suffix hdeclaration).trans ht) hspan
  · split at h
    · obtain ⟨⟨before, rest⟩, hcut, hrest⟩ := Option.bind_eq_some_iff.1 h
      obtain ⟨⟨between, opened⟩, hopen, hspan⟩ := Option.bind_eq_some_iff.1 hrest
      have hsuffix : rest <:+ line.raw := ⟨before ++ "note".toList, (cut_eq_some hcut).symm⟩
      exact bracketed_of_spanToBracket ((cutAt_suffix hopen).trans hsuffix) hspan
    · cases h

theorem positionSpan_eq_some {name : Text} {line : SourceLine} {s : Span}
    (h : positionSpan name line = some s) : s.On line.raw '[' ∧ ∃ tail, s.after = ']' :: tail :=
  ⟨(positionSpan_bracketed h).on, (positionSpan_bracketed h).after⟩

/-! ### Maturities -/

/-- Maturity tokens consist of digits and a point. -/
structure MaturityText (t : Text) : Prop where
  ne_nil : t ≠ []
  chars : ∀ c ∈ t, isDigit c = true ∨ c = '.'

theorem MaturityText.not_mem {t : Text} (h : MaturityText t) {c : Char} (hdigit : isDigit c = false)
    (hpoint : c ≠ '.') : c ∉ t := by
  intro hmem
  rcases h.chars c hmem with hc | hc
  · rw [hdigit] at hc
    cases hc
  · exact hpoint hc

theorem MaturityShape.maturityText {token rest : Text} (h : MaturityShape token rest) :
    MaturityText token := by
  obtain ⟨whole, fraction, rfl, hwhole, hfraction, -⟩ := h.parts
  refine ⟨by simp, ?_⟩
  simp only [List.forall_mem_append, List.forall_mem_cons]
  exact ⟨fun c hc => .inl (hwhole c hc), .inr trivial, fun c hc => .inl (hfraction c hc)⟩

theorem endOfName?_suffix {name t rest : Text} (h : endOfName? name t = some rest) :
    rest <:+ t := by
  obtain ⟨later, hlater, hmatch⟩ := Option.bind_eq_some_iff.1 h
  have hsame : later = rest := by
    split at hmatch
    · split at hmatch
      · exact Option.some.inj hmatch
      · cases hmatch
    · cases hmatch
  exact hsame ▸ after?_suffix hlater

theorem evolveHeader?_suffix {name t rest : Text} (h : evolveHeader? name t = some rest) :
    rest <:+ t := by
  obtain ⟨later, hlater, hblanks⟩ := Option.bind_eq_some_iff.1 h
  obtain ⟨gap, u, hu, -, -, hname⟩ := exists_gap_of_afterBlanks hblanks
  exact ((endOfName?_suffix hname).trans ⟨gap, hu.symm⟩).trans (after?_suffix hlater)

/-- A maturity is written in place of a whole maturity token behind a blank. -/
theorem maturitySpan_shape {name : Text} {line : SourceLine} {s : Span}
    (h : maturitySpan name line = some s) :
    ∃ blank, isBlank blank = true ∧ s.On line.raw blank ∧ MaturityShape s.old s.after := by
  unfold maturitySpan at h
  split at h
  · obtain ⟨rest, hplace, hspan⟩ := Option.bind_eq_some_iff.1 h
    obtain ⟨found, hfound, rfl⟩ := Option.map_eq_some_iff.1 hspan
    obtain ⟨t, ht, hheader⟩ := findPlace_suffix hplace
    obtain ⟨hrest, hblank, hshape, -⟩ := findMaturity_iff.1 hfound
    obtain ⟨front, hfront⟩ := (evolveHeader?_suffix hheader).trans ht
    have hraw : line.raw =
        (front ++ found.before ++ [found.blank]) ++ (found.token ++ found.rest) := by
      rw [← hfront, hrest]
      simp
    have hbefore : line.raw.take (line.raw.length - (found.token ++ found.rest).length) =
        front ++ found.before ++ [found.blank] := take_before hraw
    refine ⟨found.blank, hblank, ⟨?_, front ++ found.before, hbefore⟩, hshape⟩
    rw [Span.line, hbefore, hraw]
    simp
  · cases h

theorem maturitySpan_eq_some {name : Text} {line : SourceLine} {s : Span}
    (h : maturitySpan name line = some s) :
    ∃ blank, isBlank blank = true ∧ s.On line.raw blank ∧ MaturityText s.old := by
  obtain ⟨blank, hblank, hon, hshape⟩ := maturitySpan_shape h
  exact ⟨blank, hblank, hon, hshape.maturityText⟩

end WardleyMaps
