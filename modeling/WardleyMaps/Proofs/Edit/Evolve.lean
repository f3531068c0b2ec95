/-
Module: WardleyMaps.Proofs.Edit.Evolve
Purpose: The statement into which a maturity is written.
Main exports: EvolveLine, maturitySpan_evolveLine, EvolveHit, maturitySpan_isSome_iff, NamedEdit,
  updateEvolution_named
-/
import WardleyMaps.Proofs.Edit.Place
import WardleyMaps.Proofs.Edit.Span
import WardleyMaps.Proofs.Statement.Evolve

namespace WardleyMaps

open Text

/-!
The editor matches the keyword and a name on the line as it stands in the source, and looks for the
token behind them. On a line without comments this finds the token that the reader takes for the
maturity (`maturitySpan_evolveLine`). But the match ends at any blank behind the name, where the
name that is read may go on: an edit of `Power` is made on `evolve Power Station 0.5` as well. So
the edit is right exactly when the first such statement gives no longer name
(`updateEvolution_named`).
-/

/-! ### The parts of a line -/

/-- A line with a statement `evolve`: blanks around the keyword, blanks behind it, and what the
statement says. -/
structure EvolveLine where
  lead : Text
  gap : Text
  body : Text
  trail : Text
  blank_lead : Blank lead
  blank_gap : Blank gap
  blank_trail : Blank trail
  trimmed : Trimmed body
  apart : gap = [] ↔ body = []

/-- The characters of the line. -/
def EvolveLine.text (l : EvolveLine) : Text :=
  l.lead ++ ("evolve".toList ++ (l.gap ++ l.body)) ++ l.trail

/-- A line with the keyword has these parts, also when blanks at its end are left out. -/
theorem exists_evolveLine {raw : Text}
    (h : startsWithKeyword "evolve".toList (trimEnd raw) = true) :
    ∃ l : EvolveLine, raw = l.text := by
  obtain ⟨gap, hgap, htrim, hapart⟩ := exists_gap_of_startsWithKeyword h
  obtain ⟨lead, trail, hlead, htrail, hraw⟩ := exists_trim raw
  rw [← trim_trimEnd raw, htrim] at hraw
  exact ⟨⟨lead, gap, _, trail, hlead, hgap, htrail, trimmed_trim _, hapart⟩, hraw⟩

theorem EvolveLine.trim_text (l : EvolveLine) :
    trim l.text = "evolve".toList ++ (l.gap ++ l.body) := by
  apply trim_surrounded l.blank_lead _ l.blank_trail
  constructor
  · intro c hc
    obtain rfl : 'e' = c := by simpa using hc
    decide
  · intro c hc
    cases hbody : l.body with
    | nil =>
        rw [hbody, l.apart.2 hbody] at hc
        obtain rfl : 'e' = c := by simpa using hc
        decide
    | cons d ds =>
        apply l.trimmed.last c
        rw [hbody, List.getLast?_append_of_ne_nil _ (by simp),
          List.getLast?_append_of_ne_nil _ (by simp)] at hc
        rw [hbody]
        exact hc

theorem EvolveLine.startsWithKeyword (l : EvolveLine) :
    startsWithKeyword "evolve".toList (trimEnd l.text) = true := by
  rw [startsWithKeyword_iff, trim_trimEnd]
  refine ⟨l.gap ++ l.body, l.trim_text, ?_⟩
  intro c hc
  cases hgap : l.gap with
  | nil =>
      rw [hgap, l.apart.1 hgap] at hc
      cases hc
  | cons d ds =>
      rw [hgap] at hc
      obtain rfl : d = c := by simpa using hc
      exact l.blank_gap d (by simp [hgap])

theorem EvolveLine.afterKeyword_eq (l : EvolveLine) :
    afterKeyword "evolve".toList (trimEnd l.text) = l.body := by
  have hbody := trim_surrounded l.blank_gap l.trimmed blank_nil
  rw [List.append_nil] at hbody
  rw [afterKeyword, trim_trimEnd, l.trim_text, List.drop_left, hbody]

theorem EvolveLine.isAddressLine_eq (l : EvolveLine) : isAddressLine l.text = false := by
  rw [isAddressLine, l.trim_text]
  rfl

/-! ### Matching the name -/

theorem endOfName?_eq_some {name t rest : Text} :
    endOfName? name t = some rest ↔ t = name ++ rest ∧ rest ≠ [] ∧ NameEnd rest := by
  rw [endOfName?, Option.bind_eq_some_iff]
  simp only [after?_eq_some]
  constructor
  · rintro ⟨later, rfl, hmatch⟩
    split at hmatch
    · next c cs =>
      rw [Option.ite_none_right_eq_some, Option.some.injEq, Bool.or_eq_true] at hmatch
      obtain ⟨hend, rfl⟩ := hmatch
      refine ⟨rfl, List.cons_ne_nil c cs, ?_⟩
      rcases hend with hblank | harrow
      · exact .inr (.inl ⟨c, cs, rfl, hblank⟩)
      · obtain ⟨more, hmore⟩ := Option.isSome_iff_exists.1 harrow
        exact .inr (.inr ⟨more, after?_eq_some.1 hmore⟩)
    · cases hmatch
  · rintro ⟨rfl, hne, hend⟩
    refine ⟨rest, rfl, ?_⟩
    rcases hend with rfl | ⟨c, cs, rfl, hblank⟩ | ⟨more, rfl⟩
    · exact absurd rfl hne
    · simp [hblank]
    · simp [startsWith, after?]

section

variable {name : Text} (hname : Trimmed name) (hne : name ≠ [])
include hname hne

theorem endOfName?_cons_of_blank (c : Char) (t : Text) (hc : isBlank c = true) :
    endOfName? name (c :: t) = none := by
  rw [Option.eq_none_iff_forall_ne_some]
  intro rest hrest
  obtain ⟨heq, -, -⟩ := endOfName?_eq_some.1 hrest
  obtain ⟨d, ds, rfl⟩ := List.exists_cons_of_ne_nil hne
  obtain ⟨rfl, -⟩ := List.cons.inj heq
  rw [hname.head c rfl] at hc
  cases hc

/-- Behind the keyword the name is looked for where the statement goes on. -/
theorem evolveHeader?_append {gap t : Text} (hgap : Blank gap) (hgapNe : gap ≠ [])
    (ht : ∀ c ∈ t.head?, isBlank c = false) :
    evolveHeader? name ("evolve".toList ++ (gap ++ t)) = endOfName? name t := by
  rw [evolveHeader?, after?_append, Option.bind_some]
  exact afterBlanks_of_refused (endOfName?_cons_of_blank hname hne) hgap hgapNe ht

/-- On the line without comments the name is looked for where the statement goes on. -/
theorem EvolveLine.evolveHeader?_trim (l : EvolveLine) :
    evolveHeader? name (trim (trimEnd l.text)) = endOfName? name l.body := by
  rw [trim_trimEnd, l.trim_text]
  by_cases hgap : l.gap = []
  · have hnone : endOfName? name [] = none := by
      obtain ⟨c, cs, rfl⟩ := List.exists_cons_of_ne_nil hne
      rfl
    rw [hgap, l.apart.1 hgap, hnone]
    rfl
  · exact evolveHeader?_append hname hne l.blank_gap hgap l.trimmed.head

/-- On the line as it stands in the source the same name is found, and blanks at the end of the line
follow it as well. -/
theorem EvolveLine.findPlace_text (l : EvolveLine) {rest : Text}
    (h : endOfName? name l.body = some rest) :
    findPlace (evolveHeader? name) l.text = some (rest ++ l.trail) := by
  have hrefuse : ∀ c t, isBlank c = true → evolveHeader? name (c :: t) = none := by
    intro c t hc
    have hnot : 'e' ≠ c := by
      rintro rfl
      exact absurd hc (by decide)
    rw [evolveHeader?]
    exact congrArg (Option.bind · _) (after?_cons_ne hnot _ t)
  obtain ⟨hbody, hrestNe, hrest⟩ := endOfName?_eq_some.1 h
  have hgap : l.gap ≠ [] := by
    intro hnil
    rw [l.apart.1 hnil, eq_comm, List.append_eq_nil_iff] at hbody
    exact hne hbody.1
  have hhead : ∀ c ∈ (name ++ (rest ++ l.trail)).head?, isBlank c = false := by
    obtain ⟨c, cs, rfl⟩ := List.exists_cons_of_ne_nil hne
    exact hname.head
  have hheader : evolveHeader? name ("evolve".toList ++ (l.gap ++ (name ++ (rest ++ l.trail)))) =
      some (rest ++ l.trail) := by
    rw [evolveHeader?_append hname hne l.blank_gap hgap hhead, endOfName?_eq_some]
    exact ⟨rfl, by simp [hrestNe], hrest.append l.blank_trail.nameEnd⟩
  have htext : l.text = l.lead ++ ("evolve".toList ++ (l.gap ++ (name ++ (rest ++ l.trail)))) := by
    rw [EvolveLine.text, hbody]
    simp
  rw [htext, findPlace_append_of_blank hrefuse l.blank_lead]
  exact findPlace_of_accept hheader (by simp)

/-- The span is the first token behind the name, when the statement begins with the name. -/
theorem maturitySpan_evolveLine (l : EvolveLine) (hidden : Bool) :
    maturitySpan name { raw := l.text, bare := trimEnd l.text, hidden } =
      (endOfName? name l.body).bind fun rest => (findMaturity rest).map fun found =>
        { before := l.lead ++ "evolve".toList ++ l.gap ++ name ++ found.before ++ [found.blank]
          old := found.token
          after := found.rest ++ l.trail } := by
  have hbare := l.evolveHeader?_trim hname hne
  cases hend : endOfName? name l.body with
  | none =>
      rw [maturitySpan, hbare, hend, Option.isSome_none, Bool.and_false]
      rfl
  | some rest =>
      rw [maturitySpan, l.startsWithKeyword, hbare, hend, l.findPlace_text hname hne hend,
        Option.bind_some, Option.bind_some, findMaturity_append_of_blank l.blank_trail,
        Option.map_map]
      apply Option.map_congr
      intro found hfound
      obtain ⟨hsplit, -⟩ := findMaturity_iff.1 hfound
      have hline : l.text = (l.lead ++ "evolve".toList ++ l.gap ++ name ++ found.before ++
          [found.blank]) ++ (found.token ++ (found.rest ++ l.trail)) := by
        rw [EvolveLine.text, (endOfName?_eq_some.1 hend).1, hsplit]
        simp
      simp only [Function.comp_apply, take_before hline]

end

/-! ### The lines that an edit may hit -/

/-- A line states the evolution of a name, or of a longer one that begins with it. -/
def EvolveHit (name bare : Text) : Prop :=
  startsWithKeyword "evolve".toList bare = true ∧
    ∃ stated, statedName? (afterKeyword "evolve".toList bare) = some stated ∧ Extends name stated

/-- There is a span on the lines that state the name or a longer one, and on no others. -/
theorem maturitySpan_isSome_iff {name : Text} (hname : EvolveName name) {form : SourceLine}
    (huncommented : form.bare = trimEnd form.raw) :
    (maturitySpan name form).isSome ↔ EvolveHit name form.bare := by
  obtain ⟨raw, bare, hidden⟩ := form
  simp only at huncommented
  subst huncommented
  by_cases hkeyword : startsWithKeyword "evolve".toList (trimEnd raw) = true
  · obtain ⟨l, rfl⟩ := exists_evolveLine hkeyword
    rw [EvolveHit, l.afterKeyword_eq, statedName?_iff hname l.trimmed,
      maturitySpan_evolveLine hname.trimmed hname.ne_nil, Option.isSome_iff_exists]
    simp only [Option.bind_eq_some_iff, Option.map_eq_some_iff, endOfName?_eq_some]
    constructor
    · rintro ⟨_, rest, ⟨heq, -, hrest⟩, found, hfound, rfl⟩
      exact ⟨hkeyword, rest, found, heq, hrest, hfound⟩
    · rintro ⟨-, rest, found, heq, hrest, hfound⟩
      have hne : rest ≠ [] := by
        rintro rfl
        cases hfound
      exact ⟨_, rest, ⟨heq, hne, hrest⟩, found, hfound, rfl⟩
  · have hnone : maturitySpan name { raw, bare := trimEnd raw, hidden } = none := by
      rw [Bool.not_eq_true] at hkeyword
      rw [maturitySpan, hkeyword]
      rfl
    rw [hnone]
    exact ⟨fun h => absurd h (by simp), fun h => absurd h.1 hkeyword⟩

/-- A line that is read as the evolution of a name is hit. -/
theorem evolveHit_of_readEvolution {number : Nat} {line : Text} {e : Evolution}
    (hkeyword : startsWithKeyword "evolve".toList line = true)
    (h : readEvolution number line = .ok e) : EvolveHit e.name line :=
  ⟨hkeyword, e.name, statedName?_of_readEvolution h, .refl e.name⟩

/-- The lines of the entities of a name are hit. -/
theorem exists_evolveHit_of_mem {source : Text} {doc : Document} {e : Evolution}
    (hread : Document.read source = .ok doc) (he : e ∈ doc.evolved) :
    ∃ i bare, e.line = i + 1 ∧ (bareLines source)[i]? = some bare ∧ EvolveHit e.name bare ∧
      readEvolution (i + 1) bare = .ok e := by
  obtain ⟨annotations, -, rfl⟩ := Document.read_eq_ok.1 hread
  obtain ⟨i, bare, hbare, hkeyword, hbuild⟩ := exists_line_of_keyword he
  exact ⟨i, bare, line_of_readEvolution hbuild, hbare, evolveHit_of_readEvolution hkeyword hbuild,
    hbuild⟩

/-! ### The edit -/

/-- The line with a number is the first one that states the name or a longer one. -/
def FirstHit (source name : Text) (number : Nat) : Prop :=
  ∃ i bare, number = i + 1 ∧ (bareLines source)[i]? = some bare ∧ EvolveHit name bare ∧
    ∀ j < i, ∀ earlier ∈ (bareLines source)[j]?, ¬ EvolveHit name earlier

/-- A maturity for a name is written on the line of the first evolution of this name, and nowhere
when no evolution has this name. -/
structure NamedEdit (source : Text) (doc : Document) (name : Text) (maturity : Double)
    (precision : Int) : Prop where
  edited : ∀ edited, updateEvolution source name maturity precision = .ok (some edited) →
    ∃ e ∈ doc.evolved, e.name = name ∧ e.line = edited.lineNumber ∧
      ∀ other ∈ doc.evolved, other.name = name → e.line ≤ other.line
  unedited : updateEvolution source name maturity precision = .ok none ↔
    ∀ e ∈ doc.evolved, e.name ≠ name

section

variable {source name : Text} {maturity : Double} {precision : Int}
  (huncommented : ∀ form ∈ sourceForms source, form.bare = trimEnd form.raw)
include huncommented

theorem updateEvolution_firstHit (hname : EvolveName name) {edited : Edited}
    (h : updateEvolution source name maturity precision = .ok (some edited)) :
    FirstHit source name edited.lineNumber := by
  obtain ⟨p, numeral, hlocated, -, rfl⟩ := updateEvolution_eq_ok.1 h
  obtain ⟨form, hform, hspan, hnone⟩ := exists_form_of_locateFirst hlocated
  have hhit : ∀ other ∈ sourceForms source,
      (maturitySpan name other).isSome ↔ EvolveHit name other.bare :=
    fun other hother => maturitySpan_isSome_iff hname (huncommented other hother)
  refine ⟨p.above.length, form.bare, rfl, (sourceForms_getElem?.1 hform).2.1, ?_, ?_⟩
  · rw [← hhit form (List.mem_of_getElem? hform), hspan]
    rfl
  · intro j hj earlier hearlier
    obtain ⟨other, hother, rfl⟩ := exists_form_of_bare hearlier
    rw [← hhit other (List.mem_of_getElem? hother), hnone j hj other hother]
    simp

theorem updateEvolution_none_iff (hname : EvolveName name) :
    updateEvolution source name maturity precision = .ok none ↔
      ∀ bare ∈ bareLines source, ¬ EvolveHit name bare := by
  rw [updateEvolution_eq_none]
  constructor
  · intro hnone bare hbare hhit
    obtain ⟨i, hi⟩ := List.getElem?_of_mem hbare
    obtain ⟨form, hform, rfl⟩ := exists_form_of_bare hi
    have hmem := List.mem_of_getElem? hform
    have hsome := (maturitySpan_isSome_iff hname (huncommented form hmem)).2 hhit
    rw [hnone form hmem] at hsome
    cases hsome
  · intro hnone form hform
    rw [← Option.not_isSome_iff_eq_none, maturitySpan_isSome_iff hname (huncommented form hform)]
    obtain ⟨i, hi⟩ := List.getElem?_of_mem hform
    exact hnone _ (List.mem_of_getElem? (sourceForms_getElem?.1 hi).2.1)

/-- No evolution of the name stands above the line of the edit. -/
theorem lineNumber_le_of_mem {doc : Document} {e : Evolution} {edited : Edited}
    (hread : Document.read source = .ok doc) (he : e ∈ doc.evolved)
    (h : updateEvolution source e.name maturity precision = .ok (some edited)) :
    edited.lineNumber ≤ e.line := by
  obtain ⟨j, bare, hline, hbare, hhit, hbuild⟩ := exists_evolveHit_of_mem hread he
  obtain ⟨i, _, hnumber, -, -, hfirst⟩ :=
    updateEvolution_firstHit huncommented (evolveName_of_readEvolution hbuild) h
  have hle : ¬ j < i := fun hlt => hfirst j hlt bare hbare hhit
  omega

/-- An edit is made when there is an evolution of the name. -/
theorem updateEvolution_ne_none_of_mem {doc : Document} {e : Evolution}
    (hread : Document.read source = .ok doc) (he : e ∈ doc.evolved) :
    updateEvolution source e.name maturity precision ≠ .ok none := by
  obtain ⟨i, bare, -, hbare, hhit, hbuild⟩ := exists_evolveHit_of_mem hread he
  intro hnone
  exact (updateEvolution_none_iff huncommented (evolveName_of_readEvolution hbuild)).1 hnone bare
    (List.mem_of_getElem? hbare) hhit

end

/-- In a source without comments a maturity is written on the first line that states the name or a
longer one, and nowhere without such a line. The edit is made by name exactly when that line, if
there is one, is read as the evolution of the name itself. -/
theorem updateEvolution_named {source numeral : Text} {doc : Document} {maturity : Double}
    {precision : Int} (name : Text) (hread : Document.read source = .ok doc)
    (huncommented : ∀ form ∈ sourceForms source, form.bare = trimEnd form.raw)
    (hnumeral : maturity.fixedText precision = .ok numeral) :
    (EvolveName name → ∀ edited,
      updateEvolution source name maturity precision = .ok (some edited) →
        FirstHit source name edited.lineNumber) ∧
    (EvolveName name → (updateEvolution source name maturity precision = .ok none ↔
      ∀ bare ∈ bareLines source, ¬ EvolveHit name bare)) ∧
    (NamedEdit source doc name maturity precision ↔ ∀ edited,
      updateEvolution source name maturity precision = .ok (some edited) →
        ∃ e ∈ doc.evolved, e.name = name ∧ e.line = edited.lineNumber) := by
  refine ⟨fun hname _ => updateEvolution_firstHit huncommented hname,
    updateEvolution_none_iff huncommented, ?_, ?_⟩
  · intro h edited hedited
    obtain ⟨e, he, hnamed, hline, -⟩ := h.edited edited hedited
    exact ⟨e, he, hnamed, hline⟩
  · intro h
    constructor
    · intro edited hedited
      obtain ⟨e, he, hnamed, hline⟩ := h edited hedited
      refine ⟨e, he, hnamed, hline, ?_⟩
      rintro other hother rfl
      rw [hline]
      exact lineNumber_le_of_mem huncommented hread hother hedited
    · constructor
      · rintro hnone e he rfl
        exact updateEvolution_ne_none_of_mem huncommented hread he hnone
      · intro hnone
        rw [updateEvolution_eq_none, ← locateFirst_eq_none]
        by_contra hsome
        obtain ⟨p, hlocated⟩ := Option.ne_none_iff_exists'.1 hsome
        obtain ⟨e, he, hnamed, -⟩ :=
          h _ (updateEvolution_eq_ok.2 ⟨p, numeral, hlocated, hnumeral, rfl⟩)
        exact hnone e he hnamed

/-- An edit of `Power` is made on the statement of another component. -/
theorem not_namedEdit_of_longer_name :
    let source := "evolve Power Station 0.5".toList
    ∃ doc, Document.read source = .ok doc ∧
      FirstHit source "Power".toList 1 ∧ ¬ NamedEdit source doc "Power".toList 0.9 2 := by
  intro source
  let station : Evolution := { line := 1, name := "Power Station".toList, maturity := 0.5 }
  let edited : Edited :=
    { lineNumber := 1, written := "0.90".toList, source := "evolve Power Station 0.90".toList }
  have hread : Document.read source = .ok { evolved := [station] } := by decide +kernel
  have huncommented : ∀ form ∈ sourceForms source, form.bare = trimEnd form.raw := by
    decide +kernel
  have hupdate : updateEvolution source "Power".toList 0.9 2 = .ok (some edited) := by
    decide +kernel
  have htrimmed : Trimmed "Power".toList := by
    constructor
    · intro c hc
      obtain rfl : 'P' = c := Option.some.inj hc
      decide
    · intro c hc
      obtain rfl : 'r' = c := Option.some.inj hc
      decide
  have hname : EvolveName "Power".toList := ⟨htrimmed, by decide, by decide, by decide +kernel⟩
  obtain ⟨hfirst, -, hiff⟩ := updateEvolution_named "Power".toList hread huncommented
    (by decide +kernel : Double.fixedText 2 0.9 = .ok "0.90".toList)
  refine ⟨_, hread, hfirst hname edited hupdate, ?_⟩
  rw [hiff]
  intro h
  obtain ⟨e, he, hnamed, -⟩ := h edited hupdate
  obtain rfl := List.mem_singleton.1 he
  exact absurd hnamed (by decide)

end WardleyMaps
