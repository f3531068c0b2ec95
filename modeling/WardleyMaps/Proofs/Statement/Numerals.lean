/-
Module: WardleyMaps.Proofs.Statement.Numerals
Purpose: Every number that a statement gives is denoted by a numeral on its line, or is a standard.
Main exports: Numeral.StandsIn, Double.StatedIn, standardNumbers, Double.GivenBy,
  stated_of_readCoordinates, given_of_readLabel, stated_of_saysPlaces, stated_maturity
-/
import WardleyMaps.Proofs.Edit.Span
import WardleyMaps.Proofs.Statement.Evolve
import WardleyMaps.Proofs.Statement.Placed
import WardleyMaps.Proofs.Statement.Places
import WardleyMaps.Statement.Pipeline

namespace WardleyMaps

open Text

/-!
A reader cuts pieces out of its line and converts them. What a piece of a text states, the text
states as well (`Double.StatedIn.mono`), so each reader is followed from the piece that it converts
to the line. Numbers that are not on the line are those of the standards: the span of a pipeline,
the place of the list of annotations, and the offset of a label, which decorators push away.
-/

/-- A piece of the text begins with the numeral. -/
def Numeral.StandsIn (n : Numeral) (t : Text) : Prop :=
  ∃ piece rest, piece <:+: t ∧ Numeral.scan piece = some (n, rest)

/-- The number is the value of a numeral in the text. -/
def Double.StatedIn (x : Double) (t : Text) : Prop :=
  ∃ n : Numeral, n.StandsIn t ∧ n.value = x

/-- How far decorators may push a label away. -/
def decoratorSpacings : List Nat :=
  [0, 2, 3]

/-- The numbers of a document that need not be stated. -/
def standardNumbers : List Double :=
  [0, 0.1, 0.2, 0.8, 0.9] ++ decoratorSpacings.flatMap fun spacing =>
    [(LabelOffset.standard.spread spacing).x, (LabelOffset.standard.spread spacing).y]

/-- The number is stated in the text or a standard. -/
def Double.GivenBy (x : Double) (t : Text) : Prop :=
  x ∈ standardNumbers ∨ x.StatedIn t

/-- Both numbers of the position are stated in the text. -/
structure Position.StatedIn (p : Position) (t : Text) : Prop where
  visibility : p.visibility.StatedIn t
  maturity : p.maturity.StatedIn t

/-- Both numbers of the offset are given by the text. -/
structure LabelOffset.GivenBy (l : LabelOffset) (t : Text) : Prop where
  x : l.x.GivenBy t
  y : l.y.GivenBy t

/-! ### Pieces -/

theorem Double.StatedIn.mono {x : Double} {piece t : Text} (h : x.StatedIn piece)
    (inside : piece <:+: t) : x.StatedIn t := by
  obtain ⟨n, ⟨inner, rest, within, scanned⟩, value⟩ := h
  exact ⟨n, ⟨inner, rest, within.trans inside, scanned⟩, value⟩

theorem Double.GivenBy.mono {x : Double} {piece t : Text} (h : x.GivenBy piece)
    (inside : piece <:+: t) : x.GivenBy t :=
  h.imp_right fun stated => stated.mono inside

theorem Position.StatedIn.mono {p : Position} {piece t : Text} (h : p.StatedIn piece)
    (inside : piece <:+: t) : p.StatedIn t :=
  ⟨h.visibility.mono inside, h.maturity.mono inside⟩

theorem LabelOffset.GivenBy.mono {l : LabelOffset} {piece t : Text} (h : l.GivenBy piece)
    (inside : piece <:+: t) : l.GivenBy t :=
  ⟨h.x.mono inside, h.y.mono inside⟩

theorem infix_afterKeyword (keyword line : Text) : afterKeyword keyword line <:+: line :=
  ((infix_trim _).trans (List.drop_suffix _ _).isInfix).trans (infix_trim line)

/-- A bracket and what follows it are pieces of the text. -/
theorem infix_of_requireBracket {statement part : String} {t : Text} {b : Bracketed}
    (found : requireBracket statement part t = .ok b) : b.inside <:+: t ∧ b.after <:+: t := by
  obtain ⟨rfl, -, -⟩ := requireBracket_eq_ok.1 found
  refine ⟨⟨b.before ++ ['['], ']' :: b.after, by simp⟩, ?_⟩
  exact ((List.suffix_cons _ _).trans (List.suffix_append _ _)).isInfix

theorem infix_of_splitBracket {t : Text} {b : Bracketed} (found : splitBracket t = .ok (some b)) :
    b.inside <:+: t := by
  have required : requireBracket "" "" t = .ok b := by
    rw [requireBracket, found]
    rfl
  exact (infix_of_requireBracket required).1

theorem infix_dropBrace (t : Text) : dropBrace t <:+: t := by
  unfold dropBrace
  split
  · obtain ⟨trail, -, whole⟩ := exists_trimEnd t.dropLast
    have front : trimEnd t.dropLast <+: t.dropLast := ⟨trail, whole.symm⟩
    exact (front.trans (List.dropLast_prefix t)).isInfix
  · exact List.infix_refl t

/-! ### Numerals -/

theorem stated_of_scan {n : Numeral} {t rest : Text} (scanned : Numeral.scan t = some (n, rest)) :
    n.value.StatedIn t :=
  ⟨n, ⟨t, rest, List.infix_refl t, scanned⟩, rfl⟩

theorem stated_of_read? {t : Text} {x : Double} (read : Double.read? t = some x) :
    x.StatedIn t := by
  unfold Double.read? at read
  split at read
  · next n scanned =>
    obtain rfl := Option.some.inj read
    exact stated_of_scan scanned
  · cases read

theorem stated_of_readNumber {field : String} {token : Text} {x : Double}
    (read : readNumber field token = .ok x) : x.StatedIn token :=
  (stated_of_read? (readNumber_eq_ok.1 read)).mono (infix_trim token)

/-! ### Brackets -/

theorem stated_of_readCoordinates {count : Int} {field : String} {inside : Text} {xs : List Double}
    (read : readCoordinates count field inside = .ok xs) : ∀ x ∈ xs, x.StatedIn inside := by
  unfold readCoordinates at read
  dsimp only at read
  split at read
  · cases read
  intro x mem
  obtain ⟨part, partMem, number⟩ := exists_mem_of_mapM_eq_ok read x mem
  obtain ⟨piece, pieceMem, rfl⟩ := List.mem_map.1 partMem
  exact (stated_of_readNumber number).mono
    ((infix_trim piece).trans (infix_of_mem_splitOn pieceMem))

theorem stated_of_readPair {field : String} {inside : Text} {a b : Double}
    (read : readPair field inside = .ok (a, b)) : a.StatedIn inside ∧ b.StatedIn inside := by
  obtain ⟨xs, numbers, pair⟩ := bind_eq_ok.1 read
  split at pair
  · next a' b' =>
    obtain ⟨rfl, rfl⟩ := Prod.mk.inj (Except.ok.inj pair)
    have stated := stated_of_readCoordinates numbers
    exact ⟨stated a' (by simp), stated b' (by simp)⟩
  · cases pair

theorem stated_of_readPosition {field : String} {inside : Text} {p : Position}
    (read : readPosition field inside = .ok p) : p.StatedIn inside := by
  obtain ⟨⟨a, b⟩, pair, whole⟩ := bind_eq_ok.1 read
  obtain rfl := Except.ok.inj whole
  obtain ⟨visibility, maturity⟩ := stated_of_readPair pair
  exact ⟨visibility, maturity⟩

/-- A name with a position states the position, and options are looked for behind it. -/
theorem stated_of_readPlaced {statement : String} {t : Text} {placed : Placed}
    (read : readPlaced statement t = .ok placed) :
    placed.position.StatedIn t ∧ placed.tail <:+: t := by
  obtain ⟨b, found, position, -, tail⟩ := readPlaced_eq_ok.1 read
  obtain ⟨inside, after⟩ := infix_of_requireBracket found
  exact ⟨(stated_of_readPosition position).mono inside, tail ▸ after⟩

/-! ### Options -/

/-- What is accepted behind a word stands in the text. -/
theorem exists_suffix_of_findWord {α : Type} {keyword : Text} {accept : Text → Option α} {t : Text}
    {found : α} (h : findWord keyword accept t = some found) :
    ∃ rest, rest <:+ t ∧ accept rest = some found := by
  obtain ⟨here, suffix, accepted⟩ := findEdge_suffix h
  obtain ⟨rest, behind, accepted⟩ := Option.bind_eq_some_iff.1 accepted
  exact ⟨rest, (after?_suffix behind).trans suffix, accepted⟩

theorem infix_of_labelInside? {t inside : Text} (h : labelInside? t = some inside) :
    inside <:+: t := by
  unfold labelInside? at h
  split at h
  · next rest opened =>
    obtain ⟨⟨inner, after⟩, closed, rfl⟩ := Option.map_eq_some_iff.1 h
    obtain ⟨whole, -⟩ := cutAt_eq_some closed
    have piece : inner <:+: '[' :: rest := ⟨['['], ']' :: after, by rw [whole]; rfl⟩
    exact piece.trans (opened ▸ (trimStart_suffix t).isInfix)
  · cases h

/-- The decorators push a label away by one of the spacings. -/
theorem spacing_mem (tail : Text) : (readDecorators tail).spacing ∈ decoratorSpacings := by
  have each : ∀ (words : List DecoratorWord) (most : Nat), most ∈ decoratorSpacings →
      words.foldl (fun most word => max most word.spacing) most ∈ decoratorSpacings := by
    intro words
    induction words with
    | nil => exact fun _ mem => mem
    | cons word others ih =>
        intro most mem
        apply ih
        revert most
        cases word <;> decide
  exact each _ 0 (by decide)

theorem given_of_readLabel {spacing : Nat} {tail : Text} {label : LabelOffset}
    (read : readLabel spacing tail = .ok label) (pushed : spacing ∈ decoratorSpacings) :
    label.GivenBy tail := by
  unfold readLabel readGivenLabel at read
  split at read
  · obtain rfl := Except.ok.inj read
    have standard : ∀ x ∈ [(LabelOffset.standard.spread spacing).x,
        (LabelOffset.standard.spread spacing).y], x ∈ standardNumbers := by
      intro x mem
      exact List.mem_append_right _ (List.mem_flatMap.2 ⟨spacing, pushed, mem⟩)
    exact ⟨.inl (standard _ (by simp)), .inl (standard _ (by simp))⟩
  · next inside found =>
    obtain ⟨rest, suffix, opened⟩ := exists_suffix_of_findWord found
    have piece := (infix_of_labelInside? opened).trans suffix.isInfix
    cases pair : readPair "label offset" inside with
    | error cause =>
        rw [pair] at read
        cases read
    | ok offset =>
        rw [pair] at read
        obtain rfl := Except.ok.inj read
        obtain ⟨left, top⟩ := stated_of_readPair pair
        exact ⟨.inr (left.mono piece), .inr (top.mono piece)⟩

theorem stated_of_readInlineEvolution {tail : Text} {x : Double}
    (read : readInlineEvolution tail = some x) : x.StatedIn tail := by
  obtain ⟨rest, suffix, accepted⟩ := exists_suffix_of_findWord read
  unfold numeralAfterBlank? at accepted
  split at accepted
  · cases accepted
  · next c later =>
    split at accepted
    · obtain ⟨⟨n, behind⟩, scanned, rfl⟩ := Option.map_eq_some_iff.1 accepted
      have piece : trimStart later <:+: c :: later :=
        ((trimStart_suffix later).trans (List.suffix_cons c later)).isInfix
      exact ((stated_of_scan scanned).mono piece).mono suffix.isInfix
    · cases accepted

/-! ### Maturities -/

theorem spanSign_unsigned {t : Text} (h : ∀ c ∈ t.head?, c ≠ '-' ∧ c ≠ '+') :
    spanSign t = (false, t) := by
  unfold spanSign
  split
  · exact absurd rfl (h '-' rfl).1
  · exact absurd rfl (h '+' rfl).2
  · rfl

theorem ne_sign_of_isDigit {c : Char} (digit : isDigit c = true) : c ≠ '-' ∧ c ≠ '+' := by
  constructor <;> rintro rfl <;> exact absurd digit (by decide +kernel)

/-- A maturity token is a numeral. -/
theorem exists_scan_of_shape {token rest : Text} (shape : MaturityShape token rest) :
    ∃ n, Numeral.scan token = some (n, []) := by
  obtain ⟨whole, fraction, rfl, wholeDigits, fractionDigits, written⟩ := shape.parts
  obtain ⟨values, wholeValues⟩ := exists_saysDigits wholeDigits
  obtain ⟨parts, fractionValues⟩ := exists_saysDigits fractionDigits
  have span : spanDigits (whole ++ '.' :: fraction) = (values, '.' :: fraction) :=
    spanDigits_eq_iff.2 ⟨whole, rfl, wholeValues, by simp [isDigit_point]⟩
  have spanFraction : spanDigits fraction = (parts, []) :=
    spanDigits_eq_iff.2 ⟨fraction, by simp, fractionValues, by simp⟩
  have unsigned : spanSign (whole ++ '.' :: fraction) = (false, whole ++ '.' :: fraction) := by
    apply spanSign_unsigned
    cases whole with
    | nil => simp
    | cons d ds =>
        intro c head
        cases head
        exact ne_sign_of_isDigit (wholeDigits d List.mem_cons_self)
  have decimal : spanDecimal (whole ++ '.' :: fraction) = some (values, parts, []) := by
    rw [spanDecimal, span]
    cases values with
    | nil =>
        cases parts with
        | nil => exact absurd rfl (fractionValues.ne_nil_iff.1 written)
        | cons part others => simp only [spanFraction]
    | cons value others => simp only [spanFraction]
  rw [Numeral.scan, unsigned]
  simp only [decimal]
  exact ⟨_, rfl⟩

theorem stated_maturityValue {token rest : Text} (shape : MaturityShape token rest) :
    (maturityValue token).StatedIn token := by
  obtain ⟨n, scanned⟩ := exists_scan_of_shape shape
  have value : maturityValue token = n.value := by
    rw [maturityValue, Double.read?, scanned]
    rfl
  rw [value]
  exact stated_of_scan scanned

/-- The body of an evolution states its maturity, and options are looked for behind it. -/
theorem stated_of_findMaturity {body : Text} {found : MaturityToken}
    (search : findMaturity (' ' :: body) = some found) :
    (maturityValue found.token).StatedIn body ∧ found.rest <:+: body := by
  obtain ⟨whole, -, shape, -⟩ := findMaturity_iff.1 search
  have suffix : found.token ++ found.rest <:+ body := by
    cases before : found.before with
    | nil =>
        rw [before] at whole
        obtain ⟨-, same⟩ := List.cons.inj whole
        exact same ▸ List.suffix_refl _
    | cons c cs =>
        rw [before] at whole
        obtain ⟨-, same⟩ := List.cons.inj whole
        exact same ▸ (List.suffix_cons _ _).trans (List.suffix_append _ _)
  constructor
  · exact (stated_maturityValue shape).mono
      ((List.prefix_append _ _).isInfix.trans suffix.isInfix)
  · exact ((List.suffix_append _ _).trans suffix).isInfix

/-! ### Places of annotations -/

theorem stated_of_saysPosition {inside : Text} {p : Position} (said : SaysPosition inside p) :
    p.StatedIn inside := by
  have read : readPosition "" inside = .ok p := readPosition_eq_ok.2 said
  exact stated_of_readPosition read

/-- The places that a bracket says are stated in it. -/
theorem stated_of_saysPlaces {inside : Text} {places : List Position}
    (said : SaysPlaces inside places) : ∀ p ∈ places, p.StatedIn inside := by
  cases said with
  | single position => simpa using stated_of_saysPosition position
  | @several first groups _ _ parts _ each =>
      have read : (groups.map Group.inside).mapM (readPosition "") = .ok places :=
        mapM_readPosition_iff.2 each
      intro p mem
      obtain ⟨piece, pieceMem, position⟩ := exists_mem_of_mapM_eq_ok read p mem
      obtain ⟨g, groupMem, rfl⟩ := List.mem_map.1 pieceMem
      exact (stated_of_readPosition position).mono (parts.infix_inside g groupMem)

end WardleyMaps
