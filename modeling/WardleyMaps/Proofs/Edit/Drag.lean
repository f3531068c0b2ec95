/-
Module: WardleyMaps.Proofs.Edit.Drag
Purpose: What remains of the positions that a drag passes through.
Main exports: dragTo, moveOffset?, LastWins, Steady, Steady.write, Steady.dragTo_eq, lastWins_iff
-/
import WardleyMaps.Proofs.Edit.Kept

namespace WardleyMaps

open Text

/-!
A drag writes one position after another into the same source. The last one alone matters as long as
each edit is made in the place of the one before. Two edits are made in the same place just when as
many characters stand in front of it, and otherwise the brackets of the first edit keep its position
or the second one is not made at all (`lastWins_iff`). A whole drag stays in its place when the
scanner of comments passes the old contents of the brackets and no body ends in them
(`Steady.dragTo_eq`).
-/

/-- Positions written one after the other. -/
def dragTo (source name : Text) (precision : Int) (positions : List Position) :
    Except PrecisionError Text :=
  positions.foldlM (fun text position => applyPosition text name position precision) source

/-- The characters of a source in front of the span of a place. -/
def EditPlace.front (p : EditPlace) : Text :=
  p.above.flatMap (· ++ ['\n']) ++ p.span.before

/-- The characters of a source behind the span of a place. -/
def EditPlace.behind (p : EditPlace) : Text :=
  p.span.after ++ p.below.flatMap ('\n' :: ·)

/-- How many characters stand in front of the contents that a position for a name is written over,
none if it is not written at all. -/
def moveOffset? (source name : Text) : Option Nat :=
  (locateFirst (positionSpan name) (sourceForms source)).map (·.front.length)

/-- Positions that are written next leave no trace of the first one. -/
def LastWins (source name : Text) (first : Position) (precision : Int) : Prop :=
  ∀ last : Position, last.visibility.isFinite = true → last.maturity.isFinite = true →
    (applyPosition source name first precision).bind (applyPosition · name last precision) =
      applyPosition source name last precision

/-! ### The written pair -/

/-- Whether a position can be written is a matter of the number of places only. -/
theorem pairText_cases (precision : Int) :
    (∃ e, ∀ position, pairText precision position = .error e) ∨
      ∀ position, ∃ pair, pairText precision position = .ok pair := by
  cases places : placesOf precision with
  | error e => exact .inl ⟨e, fun position => by simp [pairText, Double.fixedText, places]; rfl⟩
  | ok n =>
      refine .inr fun position => ?_
      exact ⟨_, by simp [pairText, Double.fixedText, places, Except.map]; rfl⟩

/-- Two positions are written differently. -/
theorem exists_apart {precision : Int}
    (writable : ∀ position, ∃ pair, pairText precision position = .ok pair) :
    ∃ (p q : Position) (x y : Text), p.visibility.isFinite = true ∧ p.maturity.isFinite = true ∧
      q.visibility.isFinite = true ∧ q.maturity.isFinite = true ∧
      pairText precision p = .ok x ∧ pairText precision q = .ok y ∧ x ≠ y := by
  let p : Position := { visibility := .zero false, maturity := .zero false }
  let q : Position := { visibility := .zero true, maturity := .zero false }
  obtain ⟨x, hx⟩ := writable p
  obtain ⟨y, hy⟩ := writable q
  refine ⟨p, q, x, y, rfl, rfl, rfl, rfl, hx, hy, ?_⟩
  obtain ⟨first, second, hfirst, hsecond, rfl⟩ := pairText_eq_ok.1 hx
  obtain ⟨minus, second', hminus, hsecond', rfl⟩ := pairText_eq_ok.1 hy
  obtain rfl : second = second' := Except.ok.inj (hsecond.symm.trans hsecond')
  obtain ⟨rfl, -⟩ := fixedText_eq_ok hfirst
  obtain ⟨rfl, -⟩ := fixedText_eq_ok hminus
  -- The sign of a zero is written.
  have signed : q.visibility.fixed precision.toNat = '-' :: p.visibility.fixed precision.toNat :=
    rfl
  intro same
  have lengths := congrArg List.length same
  simp [signed] at lengths

theorem applyPosition_of_pairText {source name pair : Text} {position : Position} {precision : Int}
    (written : pairText precision position = .ok pair) :
    applyPosition source name position precision =
      .ok (((locateFirst (positionSpan name) (sourceForms source)).map (·.source pair)).getD
        source) := by
  rw [applyPosition, updatePosition, written]
  cases locateFirst (positionSpan name) (sourceForms source) <;> rfl

/-! ### The text around a place -/

theorem EditPlace.source_eq (p : EditPlace) (new : Text) :
    p.source new = p.front ++ new ++ p.behind := by
  rw [source, unlines_append_cons]
  simp [front, behind, Span.line]

/-- What is between the brackets that are found, and what stands around them. -/
structure EditPlace.Around (p : EditPlace) (source : Text) : Prop where
  whole : source = p.front ++ p.span.old ++ p.behind
  opened : ∃ front, p.front = front ++ ['[']
  unclosed : ']' ∉ p.span.old
  closed : ∃ rest, p.behind = ']' :: rest

theorem EditPlace.around {source name : Text} {p : EditPlace}
    (located : locateFirst (positionSpan name) (sourceForms source) = some p) :
    p.Around source := by
  obtain ⟨form, -, found, -⟩ := exists_form_of_locateFirst located
  have at_line := EditPlace.lines_eq located fun _ _ found => (positionSpan_bracketed found).on.line
  have bracketed := positionSpan_bracketed found
  obtain ⟨front, before⟩ := bracketed.on.before
  obtain ⟨tail, after⟩ := bracketed.after
  refine ⟨?_, ⟨p.above.flatMap (· ++ ['\n']) ++ front, by simp [EditPlace.front, before]⟩,
    bracketed.closed, ⟨tail ++ p.below.flatMap ('\n' :: ·), by simp [behind, after]⟩⟩
  rw [← source_eq]
  exact (replaces_write at_line []).before

/-- Behind as many characters the same brackets are found. -/
theorem EditPlace.Around.same {p q : EditPlace} {new : Text}
    (around : p.Around (q.source new)) (unclosed : ']' ∉ new)
    (closed : ∃ rest, q.behind = ']' :: rest) (length : p.front.length = q.front.length) :
    p.front = q.front ∧ p.behind = q.behind := by
  have whole := around.whole
  obtain ⟨rest, behind⟩ := closed
  obtain ⟨rest', behind'⟩ := around.closed
  rw [q.source_eq, List.append_assoc, List.append_assoc] at whole
  obtain ⟨fronts, later⟩ := List.append_inj whole length.symm
  refine ⟨fronts.symm, ?_⟩
  rw [behind, behind'] at later ⊢
  have cut := cutAt_append unclosed rest
  rw [later, cutAt_append around.unclosed] at cut
  obtain ⟨-, rfl⟩ := Prod.mk.inj (Option.some.inj cut)
  rfl

/-- What is written in front of a closing bracket stands whole in front of the next opening one. -/
theorem exists_closing {written tail front rest : Text} (unopened : '[' ∉ written)
    (h : written ++ ']' :: tail = front ++ '[' :: rest) : ∃ gap, front = written ++ ']' :: gap := by
  rcases List.append_eq_append_iff.1 h with ⟨gap, rfl, later⟩ | ⟨gap, rfl, later⟩
  · cases gap with
    | nil => cases later
    | cons c cs =>
        obtain ⟨rfl, -⟩ := List.cons.inj later
        exact ⟨cs, rfl⟩
  · cases gap with
    | nil => cases later
    | cons c cs =>
        obtain ⟨rfl, -⟩ := List.cons.inj later
        exact absurd (by simp) unopened

/-- What is written twice behind one text and in front of a closing bracket is written alike. -/
theorem eq_of_shifted {x y gap tail rest rest' : Text} (xo : '[' ∉ x) (yo : '[' ∉ y) (xc : ']' ∉ x)
    (yc : ']' ∉ y) (hx : x ++ ']' :: tail = gap ++ '[' :: rest)
    (hy : y ++ ']' :: tail = gap ++ '[' :: rest') : x = y := by
  obtain ⟨more, rfl⟩ := exists_closing xo hx
  obtain ⟨more', same⟩ := exists_closing yo hy
  have cut := cutAt_append xc more
  rw [same, cutAt_append yc] at cut
  exact (congrArg Prod.fst (Option.some.inj cut)).symm

/-- Two texts that are written differently show in which brackets they are written. -/
theorem fronts_eq {front front' tail tail' x y : Text} (xo : '[' ∉ x) (yo : '[' ∉ y) (xc : ']' ∉ x)
    (yc : ']' ∉ y) (apart : x ≠ y)
    (hx : front ++ '[' :: (x ++ ']' :: tail) = front' ++ '[' :: (x ++ ']' :: tail'))
    (hy : front ++ '[' :: (y ++ ']' :: tail) = front' ++ '[' :: (y ++ ']' :: tail')) :
    front = front' := by
  rcases List.append_eq_append_iff.1 hx with ⟨gap, rfl, later⟩ | ⟨gap, rfl, later⟩
  · cases gap with
    | nil => rw [List.append_nil]
    | cons c cs =>
        obtain ⟨rfl, shifted⟩ := List.cons.inj later
        rw [List.append_assoc, List.append_cancel_left_eq, List.cons_append, List.cons.injEq] at hy
        exact absurd (eq_of_shifted xo yo xc yc shifted hy.2) apart
  · cases gap with
    | nil => rw [List.append_nil]
    | cons c cs =>
        obtain ⟨rfl, shifted⟩ := List.cons.inj later
        rw [List.append_assoc, List.append_cancel_left_eq, List.cons_append, List.cons.injEq] at hy
        exact absurd (eq_of_shifted xo yo xc yc shifted hy.2.symm) apart

/-! ### Two edits -/

theorem EditPlace.source_inj {p : EditPlace} {x y : Text} (h : p.source x = p.source y) :
    x = y := by
  rwa [p.source_eq, p.source_eq, List.append_left_inj, List.append_right_inj] at h

/-- Two texts that are written differently show at which place they are written. -/
theorem EditPlace.front_eq_of_source {p q : EditPlace} {source source' x y : Text}
    (hp : p.Around source) (hq : q.Around source') (xi : Inert x) (yi : Inert y) (apart : x ≠ y)
    (hx : q.source x = p.source x) (hy : q.source y = p.source y) : q.front = p.front := by
  obtain ⟨front, opened⟩ := hp.opened
  obtain ⟨front', opened'⟩ := hq.opened
  obtain ⟨rest, closed⟩ := hp.closed
  obtain ⟨rest', closed'⟩ := hq.closed
  simp only [source_eq, opened, opened', closed, closed', List.append_assoc, List.cons_append,
    List.nil_append] at hx hy ⊢
  rw [fronts_eq xi.unopened yi.unopened xi.unclosed yi.unclosed apart hx hy]

section

variable {source name pair : Text} {precision : Int} {p : EditPlace}
  (writable : ∀ position, ∃ pair, pairText precision position = .ok pair)
  (located : locateFirst (positionSpan name) (sourceForms source) = some p)

include writable located

/-- Where the second edit wins, it is made in the place of the first one: two positions that are
written differently are enough to tell the places apart. -/
theorem moveOffset?_of_wins
    (wins : ∀ last : Position, last.visibility.isFinite = true → last.maturity.isFinite = true →
      applyPosition (p.source pair) name last precision =
        applyPosition source name last precision) :
    moveOffset? (p.source pair) name = some p.front.length := by
  obtain ⟨a, b, x, y, av, am, bv, bm, hx, hy, apart⟩ := exists_apart writable
  have wx := wins a av am
  have wy := wins b bv bm
  rw [applyPosition_of_pairText hx, applyPosition_of_pairText hx, located] at wx
  rw [applyPosition_of_pairText hy, applyPosition_of_pairText hy, located] at wy
  rw [moveOffset?]
  cases again : locateFirst (positionSpan name) (sourceForms (p.source pair)) with
  | none =>
      rw [again] at wx wy
      have same : p.source x = p.source y := (Except.ok.inj wx).symm.trans (Except.ok.inj wy)
      exact absurd (EditPlace.source_inj same) apart
  | some q =>
      rw [again] at wx wy
      rw [Option.map_some, EditPlace.front_eq_of_source (EditPlace.around located)
        (EditPlace.around again) (inert_of_pairText av am hx) (inert_of_pairText bv bm hy) apart
        (Except.ok.inj wx) (Except.ok.inj wy)]

/-- An edit in the place of the first one replaces all that this has written. -/
theorem applyPosition_of_moveOffset? (inert : Inert pair)
    (same : moveOffset? (p.source pair) name = some p.front.length) (last : Position) :
    applyPosition (p.source pair) name last precision =
      applyPosition source name last precision := by
  obtain ⟨x, hx⟩ := writable last
  obtain ⟨q, again, length⟩ := Option.map_eq_some_iff.1 same
  obtain ⟨fronts, behinds⟩ :=
    (EditPlace.around again).same inert.unclosed (EditPlace.around located).closed length
  rw [applyPosition_of_pairText hx, applyPosition_of_pairText hx, located, again,
    Option.map_some, Option.map_some, Option.getD_some, Option.getD_some, q.source_eq,
    p.source_eq, fronts, behinds]

end

/-- The second of two edits wins just when it is made in the place of the first one. -/
theorem lastWins_iff_offset {source name : Text} {first : Position} {precision : Int}
    (visible : first.visibility.isFinite = true) (mature : first.maturity.isFinite = true) :
    LastWins source name first precision ↔
      ∀ moved, applyPosition source name first precision = .ok moved →
        moveOffset? moved name = moveOffset? source name := by
  rcases pairText_cases precision with ⟨e, refused⟩ | writable
  · -- Without a usable number of places no edit is made.
    have failed : ∀ (text : Text) (position : Position),
        applyPosition text name position precision = .error e := by
      intro text position
      rw [applyPosition, updatePosition, refused]
      rfl
    refine iff_of_true (fun last _ _ => ?_) (fun moved done => ?_)
    · rw [failed, failed]
      rfl
    · rw [failed] at done
      cases done
  obtain ⟨pair, written⟩ := writable first
  have inert := inert_of_pairText visible mature written
  have edit : applyPosition source name first precision =
      .ok (((locateFirst (positionSpan name) (sourceForms source)).map (·.source pair)).getD
        source) := applyPosition_of_pairText written
  cases located : locateFirst (positionSpan name) (sourceForms source) with
  | none =>
      rw [located] at edit
      simp only [LastWins, edit]
      exact iff_of_true (fun last _ _ => rfl) (fun moved done => by rw [← Except.ok.inj done]; rfl)
  | some p =>
      have offset : moveOffset? source name = some p.front.length := by
        rw [moveOffset?, located, Option.map_some]
      rw [located, Option.map_some, Option.getD_some] at edit
      simp only [LastWins, edit, Except.ok.injEq, forall_eq', Except.bind, offset]
      exact ⟨fun wins => moveOffset?_of_wins writable located wins,
        fun same last _ _ => applyPosition_of_moveOffset? writable located inert same last⟩

/-! ### Whole drags -/

/-- An edit for a name and all that follow it are made in one place: the scanner of comments passes
the contents of the brackets, and no body ends in them. -/
structure Steady (source name : Text) : Prop where
  unopened : '[' ∉ name
  quiet : ∀ p ∈ locateFirst (positionSpan name) (sourceForms source), p.Quiet
  braces : ∀ p ∈ locateFirst (positionSpan name) (sourceForms source), '}' ∈ p.span.old →
    ∀ form ∈ (sourceForms source)[p.above.length]?, form.hidden = false

/-- A step of a drag leaves the place of the next one as it is. -/
theorem Steady.write {source name pair : Text} {p : EditPlace} (h : Steady source name)
    (located : locateFirst (positionSpan name) (sourceForms source) = some p) (inert : Inert pair) :
    locateFirst (positionSpan name) (sourceForms (p.source pair)) = some (p.refill pair) ∧
      Steady (p.source pair) name := by
  have again := locateFirst_write h.unopened located (h.quiet p located) (h.braces p located) inert
  refine ⟨again, h.unopened, fun q hq => ?_, fun q hq braced => ?_⟩
  · obtain rfl : p.refill pair = q := Option.some.inj (again.symm.trans hq)
    exact .inr inert.plain
  · obtain rfl : p.refill pair = q := Option.some.inj (again.symm.trans hq)
    exact absurd braced inert.unbraced

/-- Of a drag only the last position remains. -/
theorem Steady.dragTo_eq {source name : Text} {precision : Int} (h : Steady source name)
    {between : List Position}
    (finite : ∀ q ∈ between, q.visibility.isFinite = true ∧ q.maturity.isFinite = true)
    (last : Position) :
    dragTo source name precision (between ++ [last]) =
      applyPosition source name last precision := by
  induction between generalizing source with
  | nil => simp [dragTo]
  | cons first later ih =>
      rw [List.forall_mem_cons] at finite
      rcases pairText_cases precision with ⟨e, refused⟩ | writable
      · simp only [dragTo, List.cons_append, List.foldlM_cons, applyPosition, updatePosition,
          refused]
        rfl
      obtain ⟨pair, written⟩ := writable first
      obtain ⟨x, hx⟩ := writable last
      have inert := inert_of_pairText finite.1.1 finite.1.2 written
      rw [List.cons_append, dragTo, List.foldlM_cons, applyPosition_of_pairText written]
      change dragTo _ name precision (later ++ [last]) = _
      cases located : locateFirst (positionSpan name) (sourceForms source) with
      | none => exact ih h finite.2
      | some p =>
          obtain ⟨again, steady⟩ := h.write located inert
          rw [Option.map_some, Option.getD_some, ih steady finite.2,
            applyPosition_of_pairText hx, applyPosition_of_pairText hx, located, again]
          rfl

/-- After two edits the source is as after the second one alone just when both are made in one
place, and after all edits of a steady drag it is as after the last one. -/
theorem lastWins_iff (source name : Text) (precision : Int) :
    (∀ first : Position, first.visibility.isFinite = true → first.maturity.isFinite = true →
      (LastWins source name first precision ↔
        ∀ moved, applyPosition source name first precision = .ok moved →
          moveOffset? moved name = moveOffset? source name)) ∧
    (Steady source name → ∀ (between : List Position) (last : Position),
      (∀ q ∈ between, q.visibility.isFinite = true ∧ q.maturity.isFinite = true) →
      dragTo source name precision (between ++ [last]) =
        applyPosition source name last precision) :=
  ⟨fun _ visible mature => lastWins_iff_offset visible mature,
    fun steady _ last finite => steady.dragTo_eq finite last⟩

/-- An edit in a comment may leave the comment open, and an edit of a note may take away the brace
that closes a body. Then the next edit is not made in its place. -/
theorem not_lastWins :
    let p : Position := { visibility := 0.5, maturity := 0.6 }
    let q : Position := { visibility := 0.7, maturity := 0.8 }
    ¬ LastWins "/* component A [ */ component A [0.1, 0.2]".toList "A".toList p 2 ∧
      ¬ LastWins "\x7b\ncomponent A [0.1, 0.2]\nnote A [0.3\x7d, 0.4]".toList "A".toList p 2 ∧
      dragTo "component A [0.1, 0.2]".toList "A".toList 2 [p, q] =
        .ok "component A [0.70, 0.80]".toList := by
  intro p q
  have finite : p.visibility.isFinite = true ∧ p.maturity.isFinite = true := by decide +kernel
  refine ⟨?_, ?_, ?_⟩
  · rw [(lastWins_iff _ _ _).1 p finite.1 finite.2]
    intro same
    exact absurd (same "/* component A [0.50, 0.60]".toList (by decide +kernel)) (by decide +kernel)
  · rw [(lastWins_iff _ _ _).1 p finite.1 finite.2]
    intro same
    exact absurd (same "\x7b\ncomponent A [0.1, 0.2]\nnote A [0.50, 0.60]".toList
      (by decide +kernel)) (by decide +kernel)
  · have located : locateFirst (positionSpan "A".toList)
        (sourceForms "component A [0.1, 0.2]".toList) =
        some
          { above := []
            span := { before := "component A [".toList, old := "0.1, 0.2".toList, after := [']'] }
            below := [] } := by decide +kernel
    have steady : Steady "component A [0.1, 0.2]".toList "A".toList := by
      refine ⟨by decide, fun place found => ?_, fun place found braced => ?_⟩
      · obtain rfl := Option.some.inj (located.symm.trans found)
        exact .inl ⟨by decide +kernel, by decide +kernel⟩
      · obtain rfl := Option.some.inj (located.symm.trans found)
        exact absurd braced (by decide)
    rw [show [p, q] = [p] ++ [q] from rfl,
      (lastWins_iff _ _ _).2 steady [p] q (by simpa using finite)]
    decide +kernel

end WardleyMaps
