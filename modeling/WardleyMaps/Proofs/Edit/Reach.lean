/-
Module: WardleyMaps.Proofs.Edit.Reach
Purpose: Which entities of a document the editor of positions reaches.
Main exports: Movable.Unbroken, Movable.Reached, slash_of_marks, findEdge_append,
  EditPlace.exists_search, Movable.Unbroken.positionSpan_isSome, Movable.Of.unbroken,
  reached_of_read
-/
import WardleyMaps.Proofs.Edit.CommentFree
import WardleyMaps.Proofs.Edit.Drawn

namespace WardleyMaps

open Text

/-!
The reader takes a statement from its line without comments; the editor recognises it there too,
but looks for it on the line as it stands in the source, and leaves the lines inside bodies alone.
So it reaches every entity outside of bodies whose heading has no comment in it (`reached_of_read`).
What stands before such a heading are blanks and comments, so it begins a word: a comment in front
of it ends with a slash (`slash_of_marks`). An earlier match, perhaps in such a comment, hides the
heading, but not the closing bracket behind it (`suffix_of_cutAt`).
-/

/-- The heading of the entity, up to and with its opening bracket, stands on the entity's line of
the source as it is read. No character of it belongs to a comment, and only blanks and comments
stand before it. -/
structure Movable.Unbroken (source : Text) (d : Movable) : Prop where
  heading : ∃ (p : EditPlace) (front : Text), lines source = p.above ++ p.line :: p.below ∧
    p.lineNumber = d.line ∧ p.span.old = front ++ ['['] ∧
    Heading d.keyword.toList d.name front ∧ p.CommentFree ∧
    Blank (unmarked (p.marks.take p.span.before.length) p.span.before)

/-- The editor reaches the entity where it may. -/
structure Movable.Reached (source : Text) (d : Movable) : Prop where
  /-- The line of the entity is among those that declare its name, unless it lies inside a body. -/
  declared : d.line ∈ matchingLines source d.name ↔
    (inBody (bareLines source))[d.line - 1]? = some false
  /-- The line of an element lies outside of bodies. -/
  element : ∀ c, d = .element c → (inBody (bareLines source))[d.line - 1]? = some false
  /-- Outside of bodies a position is written for the name if no comment stands in the heading. -/
  written : (inBody (bareLines source))[d.line - 1]? = some false → d.Unbroken source →
    ∀ (position : Position) (precision : Int), 0 ≤ precision → precision < (Nat.pow 2 31 : Nat) →
      ∃ edited, updatePosition source d.name position precision = .ok (some edited)

/-! ### Comments in front of a heading -/

theorem mem_unmarked_of_getElem? {marks : List Bool} {t : Text} {i : Nat} {c : Char}
    (hmark : marks[i]? = some false) (hc : t[i]? = some c) : c ∈ unmarked marks t :=
  List.mem_filterMap.2
    ⟨(false, c), List.mem_of_getElem? (List.getElem?_zip_eq_some.2 ⟨hmark, hc⟩), rfl⟩

/-- Only the slash that closes a block is marked in front of a character that is not. -/
theorem ScanState.slash_of_step {s : ScanState} {address : Bool} {c d : Char} {next : Option Char}
    (hclosing : s = .closing → c = '/') (hmarked : (s.step address c (some d)).1 = true)
    (hunmarked : ((s.step address c (some d)).2.step address d next).1 = false) : c = '/' := by
  by_cases hs : s.IsCode
  · rcases hs.step address c (some d) with ⟨-, hslash⟩ | ⟨hcode, -⟩
    · exact hslash
    · rw [hcode] at hmarked
      cases hmarked
  · have hbehind : (s.step address c (some d)).2.IsCode := by
      by_contra hbehind
      rw [ScanState.step_of_not_isCode hbehind] at hunmarked
      cases hunmarked
    cases s with
    | outside afterColon => exact absurd trivial hs
    | paired => exact absurd trivial hs
    | opening => exact hbehind.elim
    | inside =>
        simp only [ScanState.step] at hbehind
        split at hbehind <;> exact hbehind.elim
    | closing => exact hclosing rfl
    | dropped => exact hbehind.elim

/-- The scanner stands before the slash of a closing only if a slash is next. -/
theorem ScanState.closing_step {s : ScanState} {address : Bool} {c : Char} {rest : Text}
    (h : (s.step address c rest.head?).2 = .closing) : rest.head? = some '/' := by
  cases s with
  | inside =>
      simp only [ScanState.step] at h
      split at h
      · next hclose => exact hclose.2
      · cases h
  | outside afterColon =>
      simp only [ScanState.step] at h
      split at h
      · cases h
      · split at h
        · split at h <;> cases h
        · cases h
  | paired =>
      simp only [ScanState.step] at h
      split at h <;> cases h
  | opening | closing | dropped => cases h

/-- A marked character in front of one that is not marked is a slash. -/
theorem slash_of_marks {address : Bool} {s : ScanState} {before rest : Text} {c d : Char}
    (hclosing : s = .closing → (before ++ c :: d :: rest).head? = some '/')
    (hmarked : (commentMarks address s (before ++ c :: d :: rest))[before.length]? = some true)
    (hunmarked :
      (commentMarks address s (before ++ c :: d :: rest))[before.length + 1]? = some false) :
    c = '/' := by
  induction before generalizing s with
  | nil =>
      simp only [List.nil_append, commentMarks, List.length_nil, List.getElem?_cons_zero,
        List.getElem?_cons_succ, Option.some.injEq, List.head?_cons] at hmarked hunmarked hclosing
      exact ScanState.slash_of_step hclosing hmarked hunmarked
  | cons e es ih =>
      simp only [List.cons_append, commentMarks, List.length_cons,
        List.getElem?_cons_succ] at hmarked hunmarked
      exact ih ScanState.closing_step hmarked hunmarked

/-! ### Matches at and before a heading -/

/-- A text that is accepted behind no word character is found, or an earlier one is. -/
theorem findEdge_append {α : Type} {accept : Text → Option α} {before t : Text}
    (haccept : (accept t).isSome) (hne : t ≠ []) (hedge : ∀ c ∈ before.getLast?, isWord c = false)
    {joined : Bool} (hjoined : before = [] → joined = false) :
    ∃ s found, t <:+ s ∧ accept s = some found ∧
      findEdge accept joined (before ++ t) = some found := by
  induction before generalizing joined with
  | nil =>
      obtain ⟨found, hfound⟩ := Option.isSome_iff_exists.1 haccept
      obtain rfl := hjoined rfl
      exact ⟨t, found, List.suffix_refl t, hfound, findEdge_of_accept hfound hne⟩
  | cons c cs ih =>
      rw [List.cons_append, findEdge]
      split
      · next found hfound =>
        cases joined with
        | true => cases hfound
        | false => exact ⟨c :: (cs ++ t), found, ⟨c :: cs, rfl⟩, hfound, rfl⟩
      · refine ih (fun d hd => hedge d ?_) fun hnil => hedge c (by simp [hnil])
        rw [Option.mem_def] at hd ⊢
        rw [List.getLast?_cons, hd, Option.getD_some]

theorem cutAt_isSome {mark : Char} {t : Text} (h : mark ∈ t) : (cutAt mark t).isSome := by
  induction t with
  | nil => cases h
  | cons c cs ih =>
      rw [cutAt]
      split
      · rfl
      · next hc =>
        rw [Option.isSome_map]
        exact ih ((List.mem_cons.1 h).resolve_left (Ne.symm hc))

/-- What follows a mark still stands at the end of what follows an earlier one. -/
theorem suffix_of_cutAt {mark : Char} {t before opened rest : Text}
    (h : cutAt mark t = some (before, opened)) (hrest : (mark :: rest) <:+ t) :
    rest <:+ opened := by
  obtain ⟨rfl, hbefore⟩ := cutAt_eq_some h
  rcases List.suffix_or_suffix_of_suffix hrest (List.suffix_append before (mark :: opened)) with
    hin | hin
  · rcases List.suffix_cons_iff.1 hin with heq | hlater
    · exact (List.cons.inj heq).2 ▸ List.suffix_refl rest
    · exact (List.suffix_cons mark rest).trans hlater
  · rcases List.suffix_cons_iff.1 hin with heq | hlater
    · exact (List.cons.inj heq).2 ▸ List.suffix_refl opened
    · -- A mark would stand before the first one.
      obtain ⟨lead, hlead⟩ := hrest
      obtain ⟨between, rfl⟩ := hlater
      have hsame : before ++ mark :: opened = (lead ++ mark :: between) ++ mark :: opened := by
        rw [← hlead]
        simp
      have hsplit : before = lead ++ mark :: between := List.append_cancel_right hsame
      exact absurd (by simp [hsplit]) hbefore

/-- The closing bracket of a declaration stands behind its first opening one. -/
theorem closing_mem_of_trim {lead front front' inside tail behind : Text} (hlead : Blank lead)
    (hfront : '[' ∉ front) (hfront' : '[' ∉ front')
    (h : trim (lead ++ (front ++ ['[']) ++ behind) = front' ++ '[' :: inside ++ ']' :: tail) :
    ']' ∈ behind := by
  obtain ⟨lead', trail, hlead', -, hline⟩ := exists_trim (lead ++ (front ++ ['[']) ++ behind)
  rw [h] at hline
  have hopen : '[' ∉ lead ++ front := by
    have hnot : '[' ∉ lead := not_mem_of_blank (by decide) hlead
    simp [hnot, hfront]
  have hopen' : '[' ∉ lead' ++ front' := by
    have hnot : '[' ∉ lead' := not_mem_of_blank (by decide) hlead'
    simp [hnot, hfront']
  have hsame : (lead ++ front) ++ '[' :: behind =
      (lead' ++ front') ++ '[' :: (inside ++ ']' :: (tail ++ trail)) := by
    simpa using hline
  have hcut := cutAt_append hopen behind
  rw [hsame, cutAt_append hopen'] at hcut
  have hbehind : inside ++ ']' :: (tail ++ trail) = behind :=
    congrArg Prod.snd (Option.some.inj hcut)
  simp [← hbehind]

/-! ### The heading on its line -/

section

variable {p : EditPlace}

theorem EditPlace.length_marks (p : EditPlace) : p.marks.length = p.line.length :=
  length_commentMarks _ _ _

/-- What is left of the line without comments, when the span holds none. -/
theorem EditPlace.unmarked_line (hfree : p.CommentFree) :
    unmarked p.marks p.line =
      unmarked (p.marks.take p.span.before.length) p.span.before ++ p.span.old ++
        unmarked ((p.marks.drop p.span.before.length).drop p.span.old.length) p.span.after := by
  have hlength := p.length_marks
  simp only [line, Span.line, List.length_append] at hlength
  have hbefore : (p.marks.take p.span.before.length).length = p.span.before.length := by
    rw [List.length_take]
    omega
  have hspan : p.spanMarks.length = p.span.old.length := by
    rw [spanMarks, List.length_take, List.length_drop]
    omega
  have hmarks : p.marks = p.marks.take p.span.before.length ++ (p.spanMarks ++
      (p.marks.drop p.span.before.length).drop p.span.old.length) := by
    rw [spanMarks, List.take_append_drop, List.take_append_drop]
  conv_lhs => rw [hmarks, line, Span.line, List.append_assoc, unmarked_append hbefore,
    unmarked_append hspan, unmarked_eq_self hspan hfree, ← List.append_assoc]

/-- A span that holds no comment and has only blanks and comments before it begins a word. -/
theorem EditPlace.isWord_before (hfree : p.CommentFree) (hne : p.span.old ≠ [])
    (hblank : Blank (unmarked (p.marks.take p.span.before.length) p.span.before)) :
    ∀ c ∈ p.span.before.getLast?, isWord c = false := by
  intro c hc
  obtain ⟨front, hfront⟩ := List.getLast?_eq_some_iff.1 (Option.mem_def.1 hc)
  obtain ⟨d, ds, hold⟩ := List.exists_cons_of_ne_nil hne
  have hline : p.line = front ++ c :: d :: (ds ++ p.span.after) := by
    simp [line, Span.line, hfront, hold]
  have hbehind : p.span.before.length = front.length + 1 := by
    rw [hfront, List.length_append, List.length_singleton]
  have hlength : p.marks.length = front.length + 2 + (ds ++ p.span.after).length := by
    rw [p.length_marks, hline, List.length_append, List.length_cons, List.length_cons]
    omega
  have hnext : p.marks[front.length + 1]? = some false := by
    have hget := List.getElem?_eq_getElem (l := p.marks) (i := front.length + 1) (by omega)
    have hmem : p.marks[front.length + 1] ∈ p.spanMarks := by
      refine List.mem_of_getElem? (i := 0) ?_
      rw [EditPlace.spanMarks, hold, List.getElem?_take_of_lt (by simp), List.getElem?_drop,
        hbehind]
      exact hget
    rw [hget, hfree _ hmem]
  have hget := List.getElem?_eq_getElem (l := p.marks) (i := front.length) (by omega)
  cases hmark : p.marks[front.length] with
  | false =>
      have hmem : c ∈ unmarked (p.marks.take p.span.before.length) p.span.before := by
        refine mem_unmarked_of_getElem? (i := front.length) ?_ (by simp [hfront])
        rw [List.getElem?_take_of_lt (by omega), hget, hmark]
      exact isWord_of_isBlank (hblank c hmem)
  | true =>
      rw [hmark] at hget
      rw [EditPlace.marks, hline] at hget hnext
      have hstart : ScanState.start (blockAfter false p.above) ≠ .closing := by
        rw [ScanState.start]
        split <;> simp
      obtain rfl := slash_of_marks (fun h => absurd h hstart) hget hnext
      decide

theorem bracket_not_mem_keyword : ∀ keyword ∈ positionedKeywords, '[' ∉ keyword := by
  decide

/-- The search for a declaration finds the heading that the span holds, or an earlier match, which
may take in the heading but leaves what stands behind it. -/
theorem EditPlace.exists_search {keyword name front : Text}
    (hkeyword : keyword ∈ positionedKeywords) (hheading : Heading keyword name front)
    (hold : p.span.old = front ++ ['[']) (hedge : ∀ c ∈ p.span.before.getLast?, isWord c = false) :
    ∃ opened, findEdge (declaration? name) false p.line = some opened ∧
      p.span.after <:+ opened := by
  have haccept := declaration?_of_heading hkeyword hheading p.span.after
  obtain ⟨s, opened, hsuffix, hopened, hfound⟩ := findEdge_append
    (Option.isSome_iff_exists.2 ⟨_, haccept⟩) (by simp) hedge fun _ => rfl
  obtain ⟨keyword', hpositioned, front', hheading', hs⟩ := exists_heading_of_declaration?
    hheading.trimmed hheading.ne_nil hheading.unopened hopened
  have hcut : cutAt '[' s = some (front', opened) := by
    rw [hs, cutAt_append (hheading'.bracket_not_mem (bracket_not_mem_keyword _ hpositioned))]
  have hbehind : ('[' :: p.span.after) <:+ s := (List.suffix_append front _).trans hsuffix
  refine ⟨opened, ?_, suffix_of_cutAt hcut hbehind⟩
  rw [line, Span.line, hold, List.append_assoc, List.append_assoc]
  exact hfound

end

/-- On a line outside of bodies a position is written if no comment stands in the heading. -/
theorem Movable.Unbroken.positionSpan_isSome {source : Text} {d : Movable} {i : Nat}
    {form : SourceLine} {front inside tail : Text} (h : d.Unbroken source) (hline : d.line = i + 1)
    (hform : (sourceForms source)[i]? = some form) (hhidden : form.hidden = false)
    (hdeclaration : Declaration d.keyword.toList d.name front inside tail form.bare) :
    (positionSpan d.name form).isSome := by
  obtain ⟨p, front', hlines, hnumber, hold, hheading, hfree, hblank⟩ := h.heading
  have hunopened := bracket_not_mem_keyword _ d.keyword_positioned
  have hplace : p.above.length = i := by
    rw [EditPlace.lineNumber] at hnumber
    omega
  obtain ⟨hraw, hbare, -⟩ := sourceForms_getElem?.1 hform
  have hrawEq : form.raw = p.line := by
    rw [hlines, ← hplace] at hraw
    simpa using hraw.symm
  have hbareEq : form.bare = trimEnd (unmarked p.marks p.line) := by
    rw [← hplace, EditPlace.bareLines_getElem? hlines] at hbare
    exact (Option.some.inj hbare).symm
  have hshape := hdeclaration.shape
  rw [hbareEq, trim_trimEnd, EditPlace.unmarked_line hfree, hold] at hshape
  have hclosing : ']' ∈ p.span.after :=
    mem_of_mem_unmarked (closing_mem_of_trim hblank (hheading.bracket_not_mem hunopened)
      (hdeclaration.heading.bracket_not_mem hunopened) hshape)
  obtain ⟨opened, hsearch, hafter⟩ := EditPlace.exists_search d.keyword_positioned hheading hold
    (EditPlace.isWord_before hfree (by simp [hold]) hblank)
  rw [← hrawEq] at hsearch
  have hkeyword : positionedKeywords.any (startsWithKeyword · form.bare) = true :=
    List.any_eq_true.2 ⟨_, d.keyword_positioned, hdeclaration.startsWithKeyword⟩
  have hdeclares : declares d.name form.bare = true :=
    (hdeclaration.declares_iff d.keyword_positioned hheading.trimmed hheading.ne_nil
      hheading.unopened).2 rfl
  have hspan : (spanToBracket form.raw opened).isSome := by
    rw [spanToBracket, Option.isSome_map]
    exact cutAt_isSome (hafter.subset hclosing)
  simpa only [positionSpan, hkeyword, hhidden, hdeclares, hsearch, Option.bind_some, ↓reduceIte,
    Bool.not_true, Bool.or_false, Bool.false_eq_true] using hspan

/-- The heading is unbroken on a line without comments. -/
theorem Movable.Of.unbroken {source : Text} {doc : Document} {d : Movable}
    (hread : Document.read source = .ok doc) (hd : d.Of doc)
    (huncommented : ∀ form ∈ (sourceForms source)[d.line - 1]?, form.bare = trimEnd form.raw) :
    d.Unbroken source := by
  obtain ⟨i, bare, hline, hbare, hkeyword, hreadOn⟩ := hd.exists_line hread
  obtain ⟨⟨raw, bare, hidden⟩, hform, rfl⟩ := exists_form_of_bare hbare
  obtain rfl : bare = trimEnd raw := huncommented _ (by rwa [hline, Nat.add_sub_cancel])
  obtain ⟨front, inside, tail, hdeclaration, -⟩ := hreadOn.declaration hkeyword
  obtain ⟨l, rfl, rfl, rfl, rfl, hdeclares⟩ := hdeclaration.exists_bracketLine
  obtain ⟨above, below, hlines, rfl⟩ := exists_around (sourceForms_getElem?.1 hform).1
  let p : EditPlace :=
    { above
      span :=
        { before := l.lead
          old := l.front ++ ['[']
          after := l.inside ++ ']' :: (l.tail ++ l.trail) }
      below }
  have htext : l.text = p.line := by simp [p, EditPlace.line, Span.line, BracketLine.text]
  have hwritten : ¬ Blank l.text := by
    intro hblank
    have hnil := trim_eq_nil_iff.2 hblank
    rw [← trim_trimEnd, hdeclaration.shape] at hnil
    simp at hnil
  have hmarks : ∀ mark ∈ p.marks, mark = false := by
    rw [bareLines, hlines] at hbare
    obtain ⟨hblock, hnone⟩ := uncommented_of_stripLines hbare hwritten
    rw [htext] at hnone
    rw [EditPlace.marks, hblock]
    exact hnone
  refine ⟨p, l.front, by rw [hlines, htext], hline.symm, rfl, hdeclaration.heading, ?_, ?_⟩
  · exact fun mark hmark => hmarks mark (List.mem_of_mem_drop (List.mem_of_mem_take hmark))
  · exact fun c hc => hdeclares.lead c (mem_of_mem_unmarked hc)

/-! ### Everything drawn -/

/-- The line of an element lies outside of bodies. -/
theorem element_outside {source : Text} {doc : Document} {c : Component}
    (hread : Document.read source = .ok doc) (hc : c ∈ doc.elements) :
    (inBody (bareLines source))[c.line - 1]? = some false := by
  obtain ⟨annotations, -, rfl⟩ := Document.read_eq_ok.1 hread
  obtain ⟨i, line, -, hvisible, -, hbuild⟩ := exists_visible_line_of_keyword (by decide) hc
  rw [line_of_readComponent hbuild, Nat.add_sub_cancel]
  exact hvisible

/-- The editor reaches every entity outside of bodies in whose heading no comment stands. -/
theorem reached_of_read {source : Text} {doc : Document} {d : Movable}
    (hread : Document.read source = .ok doc) (hd : d.Of doc) : d.Reached source := by
  obtain ⟨i, bare, hline, hbare, hkeyword, hreadOn⟩ := hd.exists_line hread
  obtain ⟨form, hform, rfl⟩ := exists_form_of_bare hbare
  obtain ⟨front, inside, tail, hdeclaration, -⟩ := hreadOn.declaration hkeyword
  have hflag := (sourceForms_getElem?.1 hform).2.2
  constructor
  · rw [mem_matchingLines, hline, Nat.add_sub_cancel]
    constructor
    · rintro ⟨j, other, hj, hother, hhidden, -⟩
      obtain rfl : i = j := Nat.succ.inj hj
      obtain rfl : form = other := Option.some.inj (hform.symm.trans hother)
      rw [hflag, hhidden]
    · intro houtside
      rw [hflag, Option.some.injEq] at houtside
      have hdeclares : declares d.name form.bare = true :=
        (hdeclaration.declares_iff d.keyword_positioned hdeclaration.heading.trimmed
          hdeclaration.heading.ne_nil hdeclaration.heading.unopened).2 rfl
      exact ⟨i, form, rfl, hform, houtside, hdeclares⟩
  · rintro c rfl
    exact element_outside hread hd
  · intro houtside hunbroken position precision hprecision hlimit
    rw [hline, Nat.add_sub_cancel, hflag, Option.some.injEq] at houtside
    have hspan := hunbroken.positionSpan_isSome hline hform houtside hdeclaration
    obtain ⟨pair, hpair⟩ := exists_pairText hprecision hlimit position
    cases hlocated : locateFirst (positionSpan d.name) (sourceForms source) with
    | none =>
        rw [locateFirst_eq_none.1 hlocated form (List.mem_of_getElem? hform)] at hspan
        cases hspan
    | some p =>
        exact ⟨p.write pair, updatePosition_eq_ok.2 ⟨p, pair, hlocated, hpair, rfl⟩⟩

/-- A component is moved with a comment before its heading and one behind it. -/
theorem reached_of_read_commented :
    let source := "/* pot */component Tea [0.5, 0.25] // cup".toList
    let tea : Component :=
      { line := 1, name := "Tea".toList, position := { visibility := 0.5, maturity := 0.25 } }
    let d : Movable := .element tea
    let doc : Document := { elements := [tea] }
    Document.read source = .ok doc ∧ d.Unbroken source ∧ d.line ∈ matchingLines source d.name ∧
      ∃ edited, updatePosition source d.name { visibility := 0.2, maturity := 0.3 } 2 =
        .ok (some edited) := by
  intro source tea d doc
  have hread : Document.read source = .ok doc := by decide +kernel
  have hreached : d.Reached source := reached_of_read hread (List.mem_singleton_self tea)
  have hgap : Blank [' '] := List.forall_mem_singleton.2 (by decide)
  have htrim : trim "Tea".toList = "Tea".toList := by decide
  have hheading : Heading "component".toList "Tea".toList "component Tea ".toList :=
    { parts := ⟨[' '], [' '], rfl, hgap, by decide, hgap⟩
      trimmed := htrim ▸ trimmed_trim _
      ne_nil := by decide
      unopened := by decide }
  let place : EditPlace :=
    { above := []
      span :=
        { before := "/* pot */".toList
          old := "component Tea [".toList
          after := "0.5, 0.25] // cup".toList }
      below := [] }
  have hblank : unmarked (place.marks.take place.span.before.length) place.span.before = [] := by
    decide +kernel
  have hunbroken : d.Unbroken source :=
    ⟨place, _, by decide +kernel, rfl, rfl, hheading, by decide +kernel, hblank ▸ blank_nil⟩
  have houtside := hreached.element tea rfl
  exact ⟨hread, hunbroken, hreached.declared.2 houtside,
    hreached.written houtside hunbroken _ _ (by decide) (by decide)⟩

/-- An anchor inside a body is drawn, but the editor does not reach it. -/
theorem not_reached_inside_body :
    ¬ ∀ (source : Text) (doc : Document) (d : Movable), Document.read source = .ok doc → d.Of doc →
      d.line ∈ matchingLines source d.name ∧
        ∀ (position : Position) (precision : Int), 0 ≤ precision →
          ∃ edited, updatePosition source d.name position precision = .ok (some edited) := by
  let source : Text := "pipeline P\n\x7b\nanchor A [0.9, 0.1]\n\x7d".toList
  let anchor : Anchor :=
    { line := 3, name := "A".toList, position := { visibility := 0.9, maturity := 0.1 } }
  let doc : Document := { pipelines := [{ line := 1, name := "P".toList }], anchors := [anchor] }
  intro h
  have hread : Document.read source = .ok doc := by decide +kernel
  obtain ⟨edited, hupdate⟩ := (h source doc (.anchor anchor) hread
    (List.mem_singleton_self anchor)).2 { visibility := 0.5, maturity := 0.6 } 2 (by decide)
  have hnone : updatePosition source "A".toList { visibility := 0.5, maturity := 0.6 } 2 =
      .ok none := by decide +kernel
  cases hnone.symm.trans hupdate

end WardleyMaps
