/-
Module: WardleyMaps.Proofs.Statement.Brackets
Purpose: Which bracket closes the first one, and which brackets are the innermost ones.
Main exports: Balanced, closingBracket_append, closingBracket_zero_iff, Apart, TakenApart,
  exists_takenApart, TakenApart.innermostGroups, TakenApart.unique, innermostGroups_trim
-/
import WardleyMaps.Proofs.Text.Trim
import WardleyMaps.Statement.NumberedNote

namespace WardleyMaps

open Text

/-!
Two searches go through the brackets of an annotation: one counts how many are open, the other
gathers the innermost ones. Each has a grammar of its own. The bracket that closes the first one is
the one in front of which all others have their partners (`closingBracket_zero_iff`), and every text
is taken apart into its innermost brackets and the gaps around them in exactly one way
(`exists_takenApart`, `TakenApart.unique`). What stands in the gaps is not looked at.
-/

/-! ### Balanced brackets -/

/-- Texts in which every bracket has its partner. -/
inductive Balanced : Text → Prop
  | nil : Balanced []
  | plain {c : Char} {rest : Text} (hopening : c ≠ '[') (hclosing : c ≠ ']')
      (hrest : Balanced rest) : Balanced (c :: rest)
  | bracket {inside rest : Text} (hinside : Balanced inside) (hrest : Balanced rest) :
      Balanced ('[' :: (inside ++ ']' :: rest))

theorem Balanced.append {a b : Text} (ha : Balanced a) (hb : Balanced b) : Balanced (a ++ b) := by
  induction ha with
  | nil => exact hb
  | plain hopening hclosing _ ih => exact .plain hopening hclosing ih
  | bracket hinside _ _ ih =>
      rw [List.cons_append, List.append_assoc]
      exact .bracket hinside ih

theorem balanced_of_no_bracket {t : Text} (hopening : '[' ∉ t) (hclosing : ']' ∉ t) :
    Balanced t := by
  induction t with
  | nil => exact .nil
  | cons c rest ih =>
      rw [List.mem_cons, not_or] at hopening hclosing
      exact .plain (Ne.symm hopening.1) (Ne.symm hclosing.1) (ih hopening.2 hclosing.2)

theorem balanced_of_blank {t : Text} (h : Blank t) : Balanced t :=
  balanced_of_no_bracket (not_mem_of_blank (by decide) h) (not_mem_of_blank (by decide) h)

theorem closingBracket_cons {c : Char} (hclosing : c ≠ ']') (inner : Nat) (t : Text) :
    closingBracket inner (c :: t) =
      (closingBracket (if c = '[' then inner + 1 else inner) t).map
        fun parts => (c :: parts.1, parts.2) := by
  rw [closingBracket.eq_def]
  simp only [if_neg hclosing]

/-- Balanced brackets are passed over. -/
theorem closingBracket_append {a : Text} (ha : Balanced a) (inner : Nat) (t : Text) :
    closingBracket inner (a ++ t) =
      (closingBracket inner t).map fun parts => (a ++ parts.1, parts.2) := by
  induction ha generalizing inner t with
  | nil => simp
  | plain hopening hclosing _ ih =>
      rw [List.cons_append, closingBracket_cons hclosing, if_neg hopening, ih, Option.map_map]
      rfl
  | @bracket inside rest _ _ ihInside ihRest =>
      have hclose : closingBracket (inner + 1) (']' :: (rest ++ t)) =
          (closingBracket inner (rest ++ t)).map fun parts => (']' :: parts.1, parts.2) := rfl
      rw [List.cons_append, List.append_assoc, List.cons_append, closingBracket_cons (by decide),
        if_pos rfl, ihInside, hclose, ihRest]
      simp [Option.map_map, Function.comp_def]

/-- Texts that close as many brackets as told, one after the other, and are balanced apart from
that. -/
def ClosesBrackets : Nat → Text → Prop
  | 0, t => Balanced t
  | inner + 1, t =>
      ∃ inside rest, t = inside ++ ']' :: rest ∧ Balanced inside ∧ ClosesBrackets inner rest

theorem ClosesBrackets.plain {inner : Nat} {c : Char} {t : Text} (hopening : c ≠ '[')
    (hclosing : c ≠ ']') (h : ClosesBrackets inner t) : ClosesBrackets inner (c :: t) := by
  cases inner with
  | zero => exact Balanced.plain hopening hclosing h
  | succ inner =>
      obtain ⟨inside, rest, rfl, hinside, hrest⟩ := h
      exact ⟨c :: inside, rest, rfl, .plain hopening hclosing hinside, hrest⟩

/-- One more bracket is opened in front. -/
theorem ClosesBrackets.opening {inner : Nat} {t : Text} (h : ClosesBrackets (inner + 1) t) :
    ClosesBrackets inner ('[' :: t) := by
  obtain ⟨inside, rest, rfl, hinside, hrest⟩ := h
  cases inner with
  | zero => exact Balanced.bracket hinside hrest
  | succ inner =>
      obtain ⟨within, behind, rfl, hwithin, hbehind⟩ := hrest
      exact ⟨'[' :: (inside ++ ']' :: within), behind, by simp, .bracket hinside hwithin, hbehind⟩

theorem closesBrackets_of_closingBracket {inner : Nat} {t body later : Text}
    (h : closingBracket inner t = some (body, later)) :
    t = body ++ ']' :: later ∧ ClosesBrackets inner body := by
  induction t generalizing inner body later with
  | nil => cases h
  | cons c rest ih =>
      have longer {k : Nat}
          (hmap : (closingBracket k rest).map (fun parts => (c :: parts.1, parts.2)) =
            some (body, later)) :
          ∃ front, body = c :: front ∧ rest = front ++ ']' :: later ∧ ClosesBrackets k front := by
        obtain ⟨⟨front, behind⟩, hfound, hparts⟩ := Option.map_eq_some_iff.1 hmap
        obtain ⟨rfl, rfl⟩ := Prod.mk.inj hparts
        exact ⟨front, rfl, ih hfound⟩
      unfold closingBracket at h
      split at h
      · next hc =>
        cases inner with
        | zero =>
            obtain ⟨rfl, rfl⟩ := Prod.mk.inj (Option.some.inj h)
            exact ⟨by simp [hc], Balanced.nil⟩
        | succ inner =>
            obtain ⟨front, rfl, rfl, hfront⟩ := longer h
            exact ⟨rfl, [], front, by simp [hc], .nil, hfront⟩
      · next hclosing =>
        obtain ⟨front, rfl, rfl, hfront⟩ := longer h
        refine ⟨rfl, ?_⟩
        by_cases hopening : c = '['
        · rw [if_pos hopening] at hfront
          exact hopening ▸ hfront.opening
        · rw [if_neg hopening] at hfront
          exact hfront.plain hopening hclosing

/-- The bracket that closes the first one is the one in front of which all others have their
partners. -/
theorem closingBracket_zero_iff {t inside later : Text} :
    closingBracket 0 t = some (inside, later) ↔ t = inside ++ ']' :: later ∧ Balanced inside := by
  refine ⟨closesBrackets_of_closingBracket, ?_⟩
  rintro ⟨rfl, hinside⟩
  rw [closingBracket_append hinside]
  simp [closingBracket]

/-! ### Innermost brackets -/

/-- Texts in which no bracket is closed after one was opened. -/
def Apart (t : Text) : Prop :=
  ¬ ['[', ']'].Sublist t

/-- An innermost bracket, and what stands between it and the next one. -/
@[ext]
structure Group where
  inside : Text
  gap : Text

structure Group.Innermost (g : Group) : Prop where
  opening : '[' ∉ g.inside
  closing : ']' ∉ g.inside
  apart : Apart g.gap

/-- The text that consists of what stands in front of brackets, and of these brackets and the gaps
behind them. -/
def rejoin (first : Text) : List Group → Text
  | [] => first
  | g :: others => first ++ '[' :: (g.inside ++ ']' :: rejoin g.gap others)

/-- A text, taken apart into what stands in front of its innermost brackets, these brackets, and the
gaps behind each of them. -/
structure TakenApart (t first : Text) (groups : List Group) : Prop where
  whole : t = rejoin first groups
  apart : Apart first
  innermost : ∀ g ∈ groups, g.Innermost

theorem rejoin_append (a first : Text) (groups : List Group) :
    rejoin (a ++ first) groups = a ++ rejoin first groups := by
  cases groups <;> simp [rejoin]

/-- Behind its first bracket a text is taken apart as well. -/
theorem TakenApart.behind {t first : Text} {g : Group} {others : List Group}
    (h : TakenApart t first (g :: others)) :
    g.Innermost ∧ TakenApart (rejoin g.gap others) g.gap others := by
  obtain ⟨hg, hothers⟩ := List.forall_mem_cons.1 h.innermost
  exact ⟨hg, rfl, hg.apart, hothers⟩

theorem apart_cons_iff {c : Char} {t : Text} :
    Apart (c :: t) ↔ Apart t ∧ (c = '[' → ']' ∉ t) := by
  unfold Apart
  rw [List.cons_sublist_cons', List.singleton_sublist]
  tauto

theorem apart_of_no_closing {t : Text} (h : ']' ∉ t) : Apart t := by
  intro hboth
  exact h (hboth.subset (by simp))

theorem apart_of_blank {t : Text} (h : Blank t) : Apart t :=
  apart_of_no_closing (not_mem_of_blank (by decide) h)

theorem not_apart_append {a b : Text} (ha : '[' ∈ a) (hb : ']' ∈ b) : ¬ Apart (a ++ b) :=
  fun h => h ((List.singleton_sublist.2 ha).append (List.singleton_sublist.2 hb))

theorem Apart.append_cons {a b : Text} (ha : Apart a) (hb : ']' ∉ b) : Apart (a ++ '[' :: b) := by
  induction a with
  | nil => exact apart_of_no_closing (by simpa using hb)
  | cons c rest ih =>
      rw [apart_cons_iff] at ha
      rw [List.cons_append, apart_cons_iff]
      refine ⟨ih ha.1, fun hc => ?_⟩
      simpa [hb] using ha.2 hc

theorem innermostGroups_cons {c : Char} (hclosing : c ≠ ']') (group : Option Text) (t : Text) :
    innermostGroups group (c :: t) =
      if c = '[' then innermostGroups (some []) t else innermostGroups (group.map (c :: ·)) t := by
  rw [innermostGroups.eq_def]
  simp only [if_neg hclosing]

theorem innermostGroups_of_no_closing {u : Text} (hu : ']' ∉ u) (group : Option Text) :
    innermostGroups group u = [] := by
  induction u generalizing group with
  | nil => rfl
  | cons c rest ih =>
      rw [List.mem_cons, not_or] at hu
      rw [innermostGroups_cons (Ne.symm hu.1), ih hu.2, ih hu.2, ite_self]

theorem innermostGroups_append_of_no_closing {u : Text} (hu : ']' ∉ u) (group : Option Text)
    (t : Text) : innermostGroups group (u ++ '[' :: t) = innermostGroups (some []) t := by
  induction u generalizing group with
  | nil => rw [List.nil_append, innermostGroups_cons (by decide), if_pos rfl]
  | cons c rest ih =>
      rw [List.mem_cons, not_or] at hu
      rw [List.cons_append, innermostGroups_cons (Ne.symm hu.1), ih hu.2, ih hu.2, ite_self]

theorem innermostGroups_apart {u : Text} (hu : Apart u) : innermostGroups none u = [] := by
  induction u with
  | nil => rfl
  | cons c rest ih =>
      obtain ⟨hrest, hc⟩ := apart_cons_iff.1 hu
      rw [innermostGroups]
      split
      · next hopening => exact innermostGroups_of_no_closing (hc hopening) _
      · rw [Option.map_none, ih hrest, ite_self]

theorem innermostGroups_append_opening {u : Text} (hu : Apart u) (t : Text) :
    innermostGroups none (u ++ '[' :: t) = innermostGroups (some []) t := by
  induction u with
  | nil => rw [List.nil_append, innermostGroups_cons (by decide), if_pos rfl]
  | cons c rest ih =>
      obtain ⟨hrest, hc⟩ := apart_cons_iff.1 hu
      rw [List.cons_append, innermostGroups]
      split
      · next hopening => exact innermostGroups_append_of_no_closing (hc hopening) _ t
      · rw [Option.map_none, ih hrest, ite_self]

theorem innermostGroups_append_closing {u : Text} (hopening : '[' ∉ u) (hclosing : ']' ∉ u)
    (read t : Text) :
    innermostGroups (some read) (u ++ ']' :: t) =
      (read.reverse ++ u) :: innermostGroups none t := by
  induction u generalizing read with
  | nil => simp [innermostGroups]
  | cons c rest ih =>
      rw [List.mem_cons, not_or] at hopening hclosing
      rw [List.cons_append, innermostGroups_cons (Ne.symm hclosing.1),
        if_neg (Ne.symm hopening.1), Option.map_some, ih hopening.2 hclosing.2]
      simp

/-- The innermost brackets are gathered, and nothing else. -/
theorem TakenApart.innermostGroups {t first : Text} {groups : List Group}
    (h : TakenApart t first groups) :
    innermostGroups none t = groups.map Group.inside := by
  induction groups generalizing t first with
  | nil => rw [h.whole, rejoin, innermostGroups_apart h.apart, List.map_nil]
  | cons g others ih =>
      obtain ⟨hg, hbehind⟩ := h.behind
      rw [h.whole, rejoin, innermostGroups_append_opening h.apart,
        innermostGroups_append_closing hg.opening hg.closing, ih hbehind]
      rfl

/-- The innermost brackets of a text stand in it. -/
theorem TakenApart.infix_inside {t first : Text} {groups : List Group}
    (h : TakenApart t first groups) : ∀ g ∈ groups, g.inside <:+: t := by
  induction groups generalizing t first with
  | nil => simp
  | cons g others ih =>
      obtain ⟨-, hbehind⟩ := h.behind
      rw [h.whole, List.forall_mem_cons]
      refine ⟨⟨first ++ ['['], ']' :: rejoin g.gap others, by simp [rejoin]⟩, fun g' hg' => ?_⟩
      have hsuffix : rejoin g.gap others <:+ rejoin first (g :: others) :=
        ⟨first ++ '[' :: (g.inside ++ [']']), by simp [rejoin]⟩
      exact (ih hbehind g' hg').trans hsuffix.isInfix

/-- Every text can be taken apart. -/
theorem exists_takenApart (t : Text) : ∃ first groups, TakenApart t first groups := by
  induction t with
  | nil => exact ⟨[], [], rfl, apart_of_no_closing (by simp), by simp⟩
  | cons c rest ih =>
      obtain ⟨first, groups, rfl, hapart, hinnermost⟩ := ih
      by_cases hbracket : c = '[' ∧ ']' ∈ first
      · -- The bracket that is opened here is closed in front of the next one that is opened.
        obtain ⟨rfl, hclosing⟩ := hbracket
        obtain ⟨inside, gap, rfl, hfree⟩ := List.eq_append_cons_of_mem hclosing
        have hwhole : '[' :: rejoin (inside ++ ']' :: gap) groups =
            rejoin [] (⟨inside, gap⟩ :: groups) := by
          rw [List.append_cons, rejoin_append]
          simp [rejoin]
        refine ⟨[], ⟨inside, gap⟩ :: groups, hwhole, apart_of_no_closing (by simp),
          List.forall_mem_cons.2 ⟨⟨?_, hfree, ?_⟩, hinnermost⟩⟩
        · exact fun hopening => not_apart_append hopening List.mem_cons_self hapart
        · intro hgap
          apply hapart
          exact hgap.trans ((List.sublist_cons_self _ _).trans (List.sublist_append_right _ _))
      · have hwhole := rejoin_append [c] first groups
        refine ⟨c :: first, groups, hwhole.symm, apart_cons_iff.2 ⟨hapart, ?_⟩, hinnermost⟩
        exact fun hc hmem => hbracket ⟨hc, hmem⟩

/-- A text is cut at a character in one way only, if no part goes on behind such a place. -/
theorem append_cons_unique {c : Char} {a a' b b' : Text} (h : a ++ c :: b = a' ++ c :: b')
    (hlong : ∀ u, a' ≠ a ++ c :: u) (hlong' : ∀ u, a ≠ a' ++ c :: u) : a = a' ∧ b = b' := by
  rcases List.append_eq_append_iff.1 h with ⟨u, ha, hu⟩ | ⟨u, ha, hu⟩
  · cases u with
    | nil => exact ⟨by simpa using ha.symm, (List.cons.inj hu).2⟩
    | cons d rest => exact absurd ((List.cons.inj hu).1 ▸ ha) (hlong rest)
  · cases u with
    | nil => exact ⟨by simpa using ha, (List.cons.inj hu).2.symm⟩
    | cons d rest => exact absurd ((List.cons.inj hu).1 ▸ ha) (hlong' rest)

/-- The first innermost bracket of a text is told by the text alone. -/
theorem bracket_unique {a a' r r' : Text} {g g' : Group} (ha : Apart a) (ha' : Apart a')
    (hg : g.Innermost) (hg' : g'.Innermost)
    (h : a ++ '[' :: (g.inside ++ ']' :: r) = a' ++ '[' :: (g'.inside ++ ']' :: r')) :
    a = a' ∧ g.inside = g'.inside ∧ r = r' := by
  have hfront {x y : Text} (hx : '[' ∈ x) (hy : Apart y) (u : Text) : y ≠ x ++ ']' :: u := by
    rintro rfl
    exact not_apart_append hx List.mem_cons_self hy
  have hclosed : (a ++ '[' :: g.inside) ++ ']' :: r = (a' ++ '[' :: g'.inside) ++ ']' :: r' := by
    simpa using h
  obtain ⟨hopened, hr⟩ := append_cons_unique hclosed
    (hfront (by simp) (ha'.append_cons hg'.closing)) (hfront (by simp) (ha.append_cons hg.closing))
  have hinner {x y i i' : Text} (hi : '[' ∉ i) (hsame : x ++ '[' :: i = y ++ '[' :: i')
      (u : Text) : y ≠ x ++ '[' :: u := by
    rintro rfl
    apply hi
    rw [List.append_assoc, List.append_cancel_left_eq, List.cons_append] at hsame
    rw [(List.cons.inj hsame).2]
    simp
  obtain ⟨hgap, hinside⟩ := append_cons_unique hopened (hinner hg.opening hopened)
    (hinner hg'.opening hopened.symm)
  exact ⟨hgap, hinside, hr⟩

/-- A text with an innermost bracket in it is not free of them. -/
theorem not_apart_rejoin (first : Text) (g : Group) (others : List Group) :
    ¬ Apart (rejoin first (g :: others)) := by
  have hwhole : rejoin first (g :: others) =
      (first ++ '[' :: g.inside) ++ ']' :: rejoin g.gap others := by
    simp [rejoin]
  rw [hwhole]
  exact not_apart_append (by simp) List.mem_cons_self

/-- A text is taken apart in one way only. -/
theorem TakenApart.unique {t first first' : Text} {groups groups' : List Group}
    (h : TakenApart t first groups) (h' : TakenApart t first' groups') :
    first = first' ∧ groups = groups' := by
  have hwhole : rejoin first groups = rejoin first' groups' := h.whole.symm.trans h'.whole
  induction groups generalizing t first first' groups' with
  | nil =>
      cases groups' with
      | nil => exact ⟨hwhole, rfl⟩
      | cons g' others' => exact absurd (hwhole ▸ h.apart) (not_apart_rejoin first' g' others')
  | cons g others ih =>
      cases groups' with
      | nil => exact absurd (hwhole ▸ h'.apart) (not_apart_rejoin first g others)
      | cons g' others' =>
          obtain ⟨hg, hbehind⟩ := h.behind
          obtain ⟨hg', hbehind'⟩ := h'.behind
          obtain ⟨rfl, hinside, hrest⟩ := bracket_unique h.apart h'.apart hg hg' hwhole
          rw [← hrest] at hbehind'
          obtain ⟨hgap, rfl⟩ := ih hbehind hbehind' hrest
          rw [Group.ext hinside hgap]
          exact ⟨rfl, rfl⟩

theorem innermostGroups_append_of_blank {trail : Text} (htrail : Blank trail)
    (group : Option Text) (t : Text) :
    innermostGroups group (t ++ trail) = innermostGroups group t := by
  have hnone : ']' ∉ trail := not_mem_of_blank (by decide) htrail
  induction t generalizing group with
  | nil => rw [List.nil_append, innermostGroups_of_no_closing hnone, innermostGroups]
  | cons c rest ih =>
      by_cases hclosing : c = ']'
      · subst hclosing
        cases group <;> simp [innermostGroups, ih]
      · rw [List.cons_append, innermostGroups_cons hclosing, innermostGroups_cons hclosing, ih, ih]

theorem innermostGroups_prepend_of_blank {lead : Text} (hlead : Blank lead) (t : Text) :
    innermostGroups none (lead ++ t) = innermostGroups none t := by
  induction lead with
  | nil => rfl
  | cons c rest ih =>
      have hblank : isBlank c = true := hlead c List.mem_cons_self
      rw [List.cons_append, innermostGroups_cons (ne_of_isBlank hblank (by decide)),
        if_neg (ne_of_isBlank hblank (by decide))]
      exact ih hlead.tail

theorem innermostGroups_trim (t : Text) :
    innermostGroups none (trim t) = innermostGroups none t := by
  obtain ⟨lead, trail, hlead, htrail, ht⟩ := exists_trim t
  conv_rhs => rw [ht, innermostGroups_append_of_blank htrail,
    innermostGroups_prepend_of_blank hlead]

end WardleyMaps
