/-
Module: WardleyMaps.Proofs.Statement.Skipped
Purpose: Which annotations are read although a part of their line is dropped.
Main exports: OfSyntax, ofSyntax_readNumberedNote, OnlyListed, SkipsNothing, placeBracket_iff,
  DropsNothing, dropsNothing_iff
-/
import WardleyMaps.Proofs.Statement.Annotation

namespace WardleyMaps

open Text

/-!
The reader of annotations accepts every line with digits, a bracket behind them and places in this
bracket. So it accepts more than is written by the rules: it passes over a text between the digits
and the bracket, and over everything around the innermost brackets of a list. These are the only
places where a part of a line is dropped (`SkipsNothing`), and a number that is too long is the only
reason for a refusal that is no problem of the line (`ofSyntax_readNumberedNote`).
-/

/-! ### Refusals -/

/-- If the reading fails, it is for the wording of the line. -/
def OfSyntax {α : Type} (reading : Except Cause α) : Prop :=
  ∀ cause, reading = .error cause → cause.kind = .lineSyntax

theorem ofSyntax_ok {α : Type} (a : α) : OfSyntax (.ok a) := by
  intro cause h
  cases h

theorem ofSyntax_error {α : Type} {cause : Cause} (h : cause.kind = .lineSyntax) :
    OfSyntax (.error cause : Except Cause α) := by
  intro other hother
  exact Except.error.inj hother ▸ h

theorem OfSyntax.bind {α β : Type} {reading : Except Cause α} {next : α → Except Cause β}
    (hreading : OfSyntax reading) (hnext : ∀ a, OfSyntax (next a)) :
    OfSyntax (reading >>= next) := by
  cases reading with
  | ok a => exact hnext a
  | error cause => exact ofSyntax_error (hreading cause rfl)

theorem ofSyntax_mapM {α β : Type} {read : α → Except Cause β} (hread : ∀ a, OfSyntax (read a))
    (l : List α) : OfSyntax (l.mapM read) := by
  induction l with
  | nil => exact ofSyntax_ok []
  | cons a rest ih =>
      rw [List.mapM_cons]
      exact (hread a).bind fun b => ih.bind fun bs => ofSyntax_ok (b :: bs)

theorem ofSyntax_readNumber (field : String) (token : Text) :
    OfSyntax (readNumber field token) := by
  unfold readNumber
  split
  · exact ofSyntax_ok _
  · exact ofSyntax_error rfl

theorem ofSyntax_readPosition (field : String) (inside : Text) :
    OfSyntax (readPosition field inside) := by
  have hcoordinates : OfSyntax (readCoordinates 2 field inside) := by
    unfold readCoordinates
    dsimp only
    split
    · exact ofSyntax_error rfl
    · exact ofSyntax_mapM (ofSyntax_readNumber field) _
  have hpair : OfSyntax (readPair field inside) := by
    refine hcoordinates.bind fun numbers => ?_
    split
    · exact ofSyntax_ok _
    · exact ofSyntax_error rfl
  exact hpair.bind fun _ => ofSyntax_ok _

theorem ofSyntax_readPlaces (t : Text) : OfSyntax (readPlaces t) := by
  unfold readPlaces
  split
  · exact ofSyntax_error rfl
  split
  · exact ofSyntax_error rfl
  dsimp only
  generalize (if startsWith ['['] _ then innermostGroups none _ else [_]) = pieces
  split
  · exact ofSyntax_error rfl
  · exact (ofSyntax_mapM (ofSyntax_readPosition _) pieces).bind fun _ => ofSyntax_ok _

/-- Whatever is wrong with an annotation is wrong with its line. -/
theorem ofSyntax_readNumberedNote (number : Nat) (line : Text) :
    OfSyntax (readNumberedNote number line) := by
  unfold readNumberedNote
  split
  · exact ofSyntax_error rfl
  · exact (ofSyntax_readPlaces _).bind fun _ => ofSyntax_ok _

/-! ### What is passed over -/

/-- Nothing stands around the innermost brackets of a text but blanks and the commas of a list. -/
def OnlyListed (inside : Text) : Prop :=
  ∀ first groups, TakenApart inside first groups → groups ≠ [] → Blank first ∧ ListGaps groups

/-- Nothing but blanks stands in front of the bracket, and nothing but a list around its innermost
brackets. -/
structure SkipsNothing (p : NoteParts) : Prop where
  front : Blank p.skipped
  around : OnlyListed p.inside

/-- A bracket says places without anything left out if and only if it is one place or a list. -/
theorem placeBracket_iff {inside : Text} {places : List Position} :
    PlaceBracket inside places ↔ SaysPlaces inside places ∧ OnlyListed inside := by
  constructor
  · intro h
    refine ⟨h.saysPlaces, fun first groups hparts hne => ?_⟩
    cases h with
    | single hposition =>
        obtain ⟨hopening, hclosing⟩ := hposition.no_bracket
        have halone : TakenApart inside inside [] :=
          ⟨rfl, apart_of_no_closing hclosing, by simp⟩
        exact absurd (hparts.unique halone).2 hne
    | list hrow =>
        obtain ⟨first', groups', hparts', hfirst, hgaps, -⟩ := placeRow_iff.1 hrow
        obtain ⟨rfl, rfl⟩ := hparts.unique hparts'
        exact ⟨hfirst, hgaps⟩
  · rintro ⟨hsaid, hlisted⟩
    cases hsaid with
    | single hposition => exact .single hposition
    | several _ hparts hne heach =>
        obtain ⟨hfirst, hgaps⟩ := hlisted _ _ hparts hne
        exact .list (placeRow_iff.2 ⟨_, _, hparts, hfirst, hgaps, heach⟩)

/-- A line is read without dropping anything: an annotation that is returned is written on the line
as it should be, and where none is returned, the line is refused for its wording. -/
structure DropsNothing (number : Nat) (line : Text) : Prop where
  written : ∀ draft note, readNumberedNote number line = .ok draft → draft.settle = .ok note →
    ∃ values, WrittenNote line values note.places note.text ∧
      note.number = Nat.ofDigits 10 values.reverse
  refused : (∀ draft note, readNumberedNote number line = .ok draft → draft.settle ≠ .ok note) →
    ∃ cause, readNumberedNote number line = .error cause ∧ cause.kind = .lineSyntax

/-- An annotation is read from the digits behind its keyword and the places in the first bracket
behind them. Nothing of its line is dropped if and only if the number is short enough and nothing is
passed over in front of the bracket and around the innermost brackets in it. -/
theorem dropsNothing_iff {line : Text}
    (hkeyword : startsWithKeyword "annotation".toList line = true) (number : Nat) :
    (∀ draft, readNumberedNote number line = .ok draft ↔
        ∃ p : NoteParts, p.On line ∧
          ∃ places, SaysPlaces p.inside places ∧ draft = p.draft number places) ∧
      (DropsNothing number line ↔
        ∀ (p : NoteParts) (places : List Position), p.On line → SaysPlaces p.inside places →
          p.values.length ≤ maxIntegerDigits ∧ SkipsNothing p) := by
  refine ⟨fun draft => readNumberedNote_eq_ok_iff, ?_, ?_⟩
  · intro h p places hp hsaid
    have hread : readNumberedNote number line = .ok (p.draft number places) :=
      readNumberedNote_eq_ok_iff.2 ⟨p, hp, places, hsaid, rfl⟩
    have hshort : p.values.length ≤ maxIntegerDigits := by
      by_contra hlong
      have hnone : ∀ draft note, readNumberedNote number line = .ok draft →
          draft.settle ≠ .ok note := by
        intro draft note hdraft hsettle
        obtain rfl := Except.ok.inj (hread.symm.trans hdraft)
        exact hlong (NoteParts.settle_draft_iff.1 hsettle).1
      obtain ⟨cause, hcause, -⟩ := h.refused hnone
      rw [hread] at hcause
      cases hcause
    have hsettle : (p.draft number places).settle = .ok (p.note number places) :=
      NoteParts.settle_draft_iff.2 ⟨hshort, rfl⟩
    obtain ⟨values, hwritten, -⟩ := h.written _ _ hread hsettle
    obtain ⟨q, hq, hfront, hbracket, -, -⟩ := hwritten.exists_on
    obtain rfl := hp.unique hq
    exact ⟨hshort, hfront, (placeBracket_iff.1 hbracket).2⟩
  · intro h
    constructor
    · intro draft note hread hsettle
      obtain ⟨p, hp, places, hsaid, rfl⟩ := readNumberedNote_eq_ok_iff.1 hread
      obtain ⟨-, rfl⟩ := NoteParts.settle_draft_iff.1 hsettle
      obtain ⟨-, hnothing⟩ := h p places hp hsaid
      refine ⟨p.values, (writtenNote_iff hkeyword).2 ⟨p, hp, hnothing.front, ?_, rfl, rfl⟩, rfl⟩
      exact placeBracket_iff.2 ⟨hsaid, hnothing.around⟩
    · intro hnone
      cases hread : readNumberedNote number line with
      | error cause => exact ⟨cause, rfl, ofSyntax_readNumberedNote number line cause hread⟩
      | ok draft =>
          obtain ⟨p, hp, places, hsaid, rfl⟩ := readNumberedNote_eq_ok_iff.1 hread
          obtain ⟨hshort, -⟩ := h p places hp hsaid
          exact absurd (NoteParts.settle_draft_iff.2 ⟨hshort, rfl⟩) (hnone _ _ hread)

/-- A word in front of the bracket is dropped; without the word nothing is. -/
theorem dropsNothing_note :
    DropsNothing 1 "annotation 1 [0.1, 0.2] note".toList ∧
      ¬ DropsNothing 1 "annotation 1 x [0.1, 0.2] note".toList := by
  have hposition : SaysPosition "0.1, 0.2".toList ⟨0.1, 0.2⟩ :=
    ⟨"0.1".toList, " 0.2".toList, rfl, by decide +kernel, by decide +kernel⟩
  have hdigits : SaysDigits "1".toList [1] := .cons (by decide) .nil
  have hspace {rest : Text} : ∀ c ∈ List.head? (' ' :: rest), isDigit c = false := by
    rintro c hc
    cases hc
    decide
  have hwritten : NoteParts.On ⟨"1".toList, [1], [' '], "0.1, 0.2".toList, " note".toList⟩
      "annotation 1 [0.1, 0.2] note".toList :=
    ⟨by decide, by decide, hdigits, hspace, by decide, hposition.balanced⟩
  have hloose : NoteParts.On ⟨"1".toList, [1], " x ".toList, "0.1, 0.2".toList, " note".toList⟩
      "annotation 1 x [0.1, 0.2] note".toList :=
    ⟨by decide, by decide, hdigits, hspace, by decide, hposition.balanced⟩
  constructor
  · refine (dropsNothing_iff (by decide) 1).2.2 fun p places hp _ => ?_
    obtain rfl := hp.unique hwritten
    exact ⟨by decide, by decide, (placeBracket_iff.1 (.single hposition)).2⟩
  · intro h
    obtain ⟨-, hfront, -⟩ := (dropsNothing_iff (by decide) 1).2.1 h _ _ hloose (.single hposition)
    exact absurd hfront (by decide)

end WardleyMaps
