/-
Module: WardleyMaps.Proofs.Statement.Evolve
Purpose: The names that a statement `evolve` gives in front of its maturity.
Main exports: splitNames, statedName?, readEvolution_eq_ok, EvolveName, NameEnd, Extends,
  findMaturity_behind_name, exists_behind_name, statedName?_iff, evolveName_of_readEvolution
-/
import WardleyMaps.Proofs.Document.Pass
import WardleyMaps.Proofs.Statement.Maturity
import WardleyMaps.Proofs.Statement.Placed
import WardleyMaps.Proofs.Text.Mark

namespace WardleyMaps

open Text

/-!
All that stands in front of the maturity token is taken for names, so a statement that begins with a
name may give a longer one: after `evolve Power`, a blank and more words belong to the name. Only an
arrow, or the blank of the token itself, ends the name (`exists_stated`). A name that can be given
at all has no token and no arrow of its own (`EvolveName`), so behind such a name the token is
looked for as if nothing stood before it (`findMaturity_behind_name`).
-/

/-! ### Cutting at an arrow -/

/-- The parts of the names in front of a maturity: up to the first arrow and behind it. -/
def splitNames (target : Text) : Text × Text :=
  match cut "->".toList target with
  | some (name, newName) => (trim name, trim newName)
  | none => (target, [])

/-- The mark does not occur in front of its first occurrence. -/
theorem cut_before {mark t before rest : Text} (hmark : mark ≠ [])
    (h : cut mark t = some (before, rest)) : cut mark before = none := by
  induction t generalizing before with
  | nil =>
      obtain ⟨_, -, hparts⟩ := Option.map_eq_some_iff.1 h
      obtain ⟨rfl, -⟩ := Prod.mk.inj hparts
      simpa [cut_eq_none_iff] using hmark
  | cons c cs ih =>
      rw [cut] at h
      split at h
      · obtain ⟨rfl, -⟩ := Prod.mk.inj (Option.some.inj h)
        simpa [cut_eq_none_iff] using hmark
      · next hnone =>
        obtain ⟨⟨later, _⟩, hlater, hparts⟩ := Option.map_eq_some_iff.1 h
        obtain ⟨rfl, rfl⟩ := Prod.mk.inj hparts
        have hhere : after? mark (c :: later) = none := by
          by_contra hsome
          obtain ⟨more, hmore⟩ := Option.ne_none_iff_exists'.1 hsome
          rw [cut_eq_some hlater, List.append_assoc, ← List.cons_append, after?_eq_some.1 hmore,
            List.append_assoc, after?_append] at hnone
          cases hnone
        rw [cut, hhere, ih hlater]
        rfl

/-- An arrow does not begin in front of a character other than its own point. -/
theorem cut_arrow_append {c : Char} (hc : c ≠ '>') {front : Text}
    (h : cut "->".toList front = none) (rest : Text) :
    cut "->".toList (front ++ c :: rest) =
      (cut "->".toList (c :: rest)).map fun parts => (front ++ parts.1, parts.2) := by
  apply cut_append_of_apart (y := '>') []
  · exact cut_eq_none_iff.1 h
  · simpa using hc

/-! ### Ends of names -/

/-- A name may end in front of a text: at its end, at a blank or at an arrow. -/
def NameEnd (t : Text) : Prop :=
  t = [] ∨ (∃ c rest, t = c :: rest ∧ isBlank c = true) ∨ ∃ rest, t = '-' :: '>' :: rest

/-- A name itself, or a longer one that goes on with a blank. -/
def Extends (name stated : Text) : Prop :=
  ∃ more, stated = name ++ more ∧ ∀ c ∈ more.head?, isBlank c = true

theorem Extends.refl (name : Text) : Extends name name :=
  ⟨[], by simp, by simp⟩

theorem NameEnd.append {a b : Text} (ha : NameEnd a) (hb : NameEnd b) : NameEnd (a ++ b) := by
  rcases ha with rfl | ⟨c, rest, rfl, hc⟩ | ⟨rest, rfl⟩
  · exact hb
  · exact .inr (.inl ⟨c, rest ++ b, rfl, hc⟩)
  · exact .inr (.inr ⟨rest ++ b, rfl⟩)

theorem NameEnd.of_head {t : Text} (h : ∀ c ∈ t.head?, isBlank c = true) : NameEnd t := by
  cases t with
  | nil => exact .inl rfl
  | cons c rest => exact .inr (.inl ⟨c, rest, rfl, h c rfl⟩)

theorem Text.Blank.nameEnd {t : Text} (h : Blank t) : NameEnd t :=
  .of_head fun c hc => h c (List.mem_of_mem_head? hc)

/-- The part up to a blank ends a name where the whole does. -/
theorem NameEnd.before {t rest : Text} {blank : Char} (h : NameEnd (t ++ blank :: rest))
    (hblank : isBlank blank = true) : NameEnd t := by
  cases t with
  | nil => exact .inl rfl
  | cons c cs =>
      rcases h with h | ⟨d, ds, heq, hd⟩ | ⟨more, heq⟩
      · cases h
      · obtain ⟨rfl, -⟩ := List.cons.inj heq
        exact .inr (.inl ⟨c, cs, rfl, hd⟩)
      · obtain ⟨rfl, hrest⟩ := List.cons.inj heq
        cases cs with
        | nil =>
            obtain ⟨rfl, -⟩ := List.cons.inj hrest
            exact absurd hblank (by decide)
        | cons d ds =>
            obtain ⟨rfl, -⟩ := List.cons.inj hrest
            exact .inr (.inr ⟨ds, rfl⟩)

theorem NameEnd.trimEnd {t : Text} (h : NameEnd t) : NameEnd (trimEnd t) := by
  obtain ⟨trail, htrail, ht⟩ := exists_trimEnd t
  cases trail with
  | nil =>
      rw [List.append_nil] at ht
      exact ht ▸ h
  | cons c cs => exact NameEnd.before (ht ▸ h) (htrail c List.mem_cons_self)

/-- Where a name ends there is neither a digit nor a point. -/
theorem NameEnd.head {c : Char} {t : Text} (h : NameEnd (c :: t)) :
    isDigit c = false ∧ c ≠ '.' ∧ c ≠ '>' := by
  rcases h with h | ⟨d, ds, heq, hd⟩ | ⟨more, heq⟩
  · cases h
  · obtain ⟨rfl, -⟩ := List.cons.inj heq
    refine ⟨isDigit_of_isBlank hd, ne_point_of_isBlank hd, ?_⟩
    rintro rfl
    exact absurd hd (by decide)
  · obtain ⟨rfl, -⟩ := List.cons.inj heq
    exact ⟨by decide +kernel, by decide, by decide⟩

/-! ### The statement -/

/-- The entity that a maturity token and the text around it make up. -/
def MaturityToken.evolution (found : MaturityToken) (number : Nat) (label : LabelOffset) :
    Evolution :=
  let names := splitNames (trim found.before)
  let reading := readDecorators found.rest
  { line := number
    name := names.1
    maturity := maturityValue found.token
    newName := names.2
    label
    decorators := reading.decorators
    labelSpacing := reading.spacing }

theorem readEvolution_eq_ok {number : Nat} {line : Text} {e : Evolution} :
    readEvolution number line = .ok e ↔
      ∃ found label, findMaturity (' ' :: afterKeyword "evolve".toList line) = some found ∧
        (splitNames (trim found.before)).1 ≠ [] ∧
        readLabel (readDecorators found.rest).spacing found.rest = .ok label ∧
        e = found.evolution number label := by
  unfold readEvolution
  cases findMaturity (' ' :: afterKeyword "evolve".toList line) with
  | none => simp
  | some found =>
      simp only [bind_eq_ok, requireText_eq_ok, Except.ok.injEq, Option.some.injEq]
      constructor
      · rintro ⟨_, ⟨hne, rfl⟩, label, hlabel, rfl⟩
        exact ⟨found, label, rfl, hne, hlabel, rfl⟩
      · rintro ⟨_, label, rfl, hne, hlabel, rfl⟩
        exact ⟨_, ⟨hne, rfl⟩, label, hlabel, rfl⟩

theorem line_of_readEvolution {number : Nat} {line : Text} {e : Evolution}
    (h : readEvolution number line = .ok e) : e.line = number := by
  obtain ⟨found, label, -, -, -, rfl⟩ := readEvolution_eq_ok.1 h
  rfl

/-- The name that the text behind the keyword gives, whether or not the rest of it can be read. -/
def statedName? (body : Text) : Option Text :=
  (findMaturity (' ' :: body)).map fun found => (splitNames (trim found.before)).1

/-- Names that a statement `evolve` can give. -/
structure EvolveName (name : Text) : Prop where
  trimmed : Trimmed name
  ne_nil : name ≠ []
  unsplit : cut "->".toList name = none
  untokened : findMaturity (' ' :: name) = none

/-! ### The token behind a name -/

/-- Behind a name the token is looked for as if nothing stood before it. -/
theorem findMaturity_behind_name {name rest : Text} (hname : EvolveName name)
    (hrest : NameEnd rest) :
    findMaturity (' ' :: (name ++ rest)) =
      (findMaturity rest).map fun found =>
        { found with before := ' ' :: name ++ found.before } := by
  cases rest with
  | nil => simp [hname.untokened, findMaturity.eq_1]
  | cons c cs =>
      obtain ⟨hdigit, hpoint, -⟩ := hrest.head
      rw [← List.cons_append, findMaturity_append hdigit hpoint, hname.untokened]

/-- Blanks at the end of what follows a name are no part of a longer one. -/
theorem extends_trimEnd (name : Text) {t : Text} (h : ∀ c ∈ t.head?, isBlank c = true) :
    Extends name (name ++ trimEnd t) := by
  refine ⟨trimEnd t, rfl, ?_⟩
  obtain ⟨trail, -, ht⟩ := exists_trimEnd t
  intro c hc
  apply h c
  rw [ht, List.head?_append, Option.mem_def.1 hc]
  rfl

/-- Names in front of a token that begin with a name give this one or a longer one. -/
theorem extends_splitNames {name before : Text} (hname : EvolveName name)
    (hbefore : NameEnd before) :
    Extends name (splitNames (trim (' ' :: (name ++ before)))).1 := by
  rw [trim_cons_of_blank (by decide), trim_append_of_trimmed hname.trimmed hname.ne_nil]
  -- What follows the name decides where the first arrow is.
  rcases hbefore.trimEnd with hnil | ⟨c, rest, hrest, hc⟩ | ⟨rest, hrest⟩
  · rw [hnil, List.append_nil, splitNames, hname.unsplit]
    exact .refl name
  · have hpoint : c ≠ '>' := by
      rintro rfl
      exact absurd hc (by decide)
    rw [hrest, splitNames, cut_arrow_append hpoint hname.unsplit]
    cases hcut : cut "->".toList (c :: rest) with
    | none => exact ⟨c :: rest, rfl, by simpa using hc⟩
    | some parts =>
        obtain ⟨x, y⟩ := parts
        simp only [Option.map_some]
        rw [trim_append_of_trimmed hname.trimmed hname.ne_nil]
        apply extends_trimEnd
        intro d hd
        have hhead : (c :: rest).head? = some d := by
          rw [cut_eq_some hcut, List.append_assoc, List.head?_append, Option.mem_def.1 hd]
          rfl
        obtain rfl : c = d := by simpa using hhead
        exact hc
  · have hcut : cut "->".toList ('-' :: '>' :: rest) = some ([], rest) := rfl
    rw [hrest, splitNames, cut_arrow_append (by decide) hname.unsplit, hcut]
    simp only [Option.map_some, List.append_nil, trim_eq_self hname.trimmed]
    exact .refl name

/-! ### From the token to the name -/

/-- The first name stands at the front of the names and ends there, with them or at an arrow. -/
theorem exists_splitNames {target : Text} (htarget : Trimmed target) :
    ∃ more, target = (splitNames target).1 ++ more ∧ NameEnd more := by
  cases hcut : cut "->".toList target with
  | none =>
      rw [splitNames, hcut]
      exact ⟨[], (List.append_nil target).symm, .inl rfl⟩
  | some parts =>
      obtain ⟨x, y⟩ := parts
      rw [splitNames, hcut]
      have hx : ∀ c ∈ x.head?, isBlank c = false := by
        intro c hc
        apply htarget.head c
        rw [cut_eq_some hcut, List.append_assoc, List.head?_append, Option.mem_def.1 hc]
        rfl
      obtain ⟨gap, hgap, hgapEq⟩ := exists_trim_of_head hx
      refine ⟨gap ++ ("->".toList ++ y), ?_, hgap.nameEnd.append (.inr (.inr ⟨_, rfl⟩))⟩
      conv_lhs => rw [cut_eq_some hcut, hgapEq]
      simp

/-- The name that is given stands in front of the token and ends there, at a blank or at an arrow.
-/
theorem exists_stated {body : Text} {found : MaturityToken} (hbody : Trimmed body)
    (hfound : findMaturity (' ' :: body) = some found)
    (hne : (splitNames (trim found.before)).1 ≠ []) :
    ∃ more, found.before = ' ' :: ((splitNames (trim found.before)).1 ++ more) ∧ NameEnd more := by
  obtain ⟨hsplit, hblank, -, -⟩ := findMaturity_iff.1 hfound
  -- The token is not the first thing behind the keyword, for then no name would be given.
  obtain ⟨front, hfront⟩ : ∃ front, found.before = ' ' :: front := by
    cases hbefore : found.before with
    | nil =>
        rw [hbefore] at hne
        exact absurd rfl hne
    | cons c cs =>
        rw [hbefore] at hsplit
        obtain ⟨rfl, -⟩ := List.cons.inj hsplit
        exact ⟨cs, rfl⟩
  have hhead : ∀ c ∈ front.head?, isBlank c = false := by
    intro c hc
    apply hbody.head c
    rw [hfront, List.cons_append] at hsplit
    rw [(List.cons.inj hsplit).2, List.head?_append, Option.mem_def.1 hc]
    rfl
  obtain ⟨trail, htrail, hends⟩ := exists_trim_of_head hhead
  obtain ⟨more, hmore, hend⟩ := exists_splitNames (trimmed_trim front)
  rw [hfront, trim_cons_of_blank (by decide)]
  refine ⟨more ++ trail, ?_, hend.append htrail.nameEnd⟩
  rw [← List.append_assoc, ← hmore, ← hends]

/-- A statement that gives a name or a longer one begins with the name, the name ends there, and the
token is the first one behind it. -/
theorem exists_behind_name {name body : Text} {found : MaturityToken} (hname : EvolveName name)
    (hbody : Trimmed body) (hfound : findMaturity (' ' :: body) = some found)
    (hextends : Extends name (splitNames (trim found.before)).1) :
    ∃ rest later, body = name ++ rest ∧ NameEnd rest ∧ findMaturity rest = some later ∧
      found = { later with before := ' ' :: name ++ later.before } := by
  obtain ⟨more, hstated, hmore⟩ := hextends
  have hne : (splitNames (trim found.before)).1 ≠ [] := by
    rw [hstated]
    simp [hname.ne_nil]
  obtain ⟨later, hbefore, hlater⟩ := exists_stated hbody hfound hne
  obtain ⟨hsplit, hblank, -, -⟩ := findMaturity_iff.1 hfound
  rw [hbefore, hstated] at hsplit
  have hrest : NameEnd (more ++ (later ++ found.blank :: (found.token ++ found.rest))) :=
    (NameEnd.of_head hmore).append (hlater.append (.inr (.inl ⟨_, _, rfl, hblank⟩)))
  have hbodyEq :
      body = name ++ (more ++ (later ++ found.blank :: (found.token ++ found.rest))) := by
    simpa using hsplit
  rw [hbodyEq, findMaturity_behind_name hname hrest] at hfound
  obtain ⟨token, htoken, heq⟩ := Option.map_eq_some_iff.1 hfound
  exact ⟨_, token, hbodyEq, hrest, htoken, heq.symm⟩

/-- A statement gives a name, or a longer one, exactly when it begins with the name, the name ends
there, and a token follows. -/
theorem statedName?_iff {name body : Text} (hname : EvolveName name) (hbody : Trimmed body) :
    (∃ stated, statedName? body = some stated ∧ Extends name stated) ↔
      ∃ rest found, body = name ++ rest ∧ NameEnd rest ∧ findMaturity rest = some found := by
  constructor
  · rintro ⟨stated, hstated, hextends⟩
    obtain ⟨found, hfound, rfl⟩ := Option.map_eq_some_iff.1 hstated
    obtain ⟨rest, later, hbodyEq, hrest, hlater, -⟩ :=
      exists_behind_name hname hbody hfound hextends
    exact ⟨rest, later, hbodyEq, hrest, hlater⟩
  · rintro ⟨rest, found, rfl, hrest, hfound⟩
    obtain ⟨hsplit, hblank, -, -⟩ := findMaturity_iff.1 hfound
    refine ⟨(splitNames (trim (' ' :: name ++ found.before))).1, ?_, ?_⟩
    · rw [statedName?, findMaturity_behind_name hname hrest, hfound]
      rfl
    · exact extends_splitNames hname (NameEnd.before (hsplit ▸ hrest) hblank)

theorem trimmed_splitNames {target : Text} (h : Trimmed target) :
    Trimmed (splitNames target).1 := by
  unfold splitNames
  split
  · exact trimmed_trim _
  · exact h

theorem unsplit_splitNames (target : Text) : cut "->".toList (splitNames target).1 = none := by
  unfold splitNames
  split
  · next x y hcut =>
    have hnone := cut_before (by decide) hcut
    obtain ⟨lead, trail, -, -, hx⟩ := exists_trim x
    rw [cut_eq_none_iff] at hnone ⊢
    intro hinfix
    apply hnone
    rw [hx]
    exact hinfix.trans ⟨lead, trail, rfl⟩
  · next hcut => exact hcut

/-- Names that are given can be given. -/
theorem evolveName_of_found {body : Text} {found : MaturityToken} (hbody : Trimmed body)
    (hfound : findMaturity (' ' :: body) = some found)
    (hne : (splitNames (trim found.before)).1 ≠ []) :
    EvolveName (splitNames (trim found.before)).1 := by
  obtain ⟨more, hbefore, hmore⟩ := exists_stated hbody hfound hne
  obtain ⟨-, -, -, hnone⟩ := findMaturity_iff.1 hfound
  refine ⟨trimmed_splitNames (trimmed_trim _), hne, unsplit_splitNames _, ?_⟩
  -- There is no token in all that stands before the first one.
  rw [hbefore] at hnone
  cases more with
  | nil => simpa using hnone
  | cons c cs =>
      obtain ⟨hdigit, hpoint, -⟩ := hmore.head
      rw [← List.cons_append, findMaturity_append hdigit hpoint] at hnone
      split at hnone
      · cases hnone
      · next h => exact h

theorem evolveName_of_readEvolution {number : Nat} {line : Text} {e : Evolution}
    (h : readEvolution number line = .ok e) : EvolveName e.name := by
  obtain ⟨found, label, hfound, hne, -, rfl⟩ := readEvolution_eq_ok.1 h
  exact evolveName_of_found (trimmed_trim _) hfound hne

/-- The name that is read is the one that the statement gives. -/
theorem statedName?_of_readEvolution {number : Nat} {line : Text} {e : Evolution}
    (h : readEvolution number line = .ok e) :
    statedName? (afterKeyword "evolve".toList line) = some e.name := by
  obtain ⟨found, label, hfound, -, -, rfl⟩ := readEvolution_eq_ok.1 h
  rw [statedName?, hfound]
  rfl

end WardleyMaps
