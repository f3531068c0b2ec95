/-
Module: WardleyMaps.Proofs.Text.Mark
Purpose: Where marks of several characters occur in texts that are put together from parts.
Main exports: Text.cut_eq_none_iff, Text.pair_infix_append, Text.pair_infix_append_of_blank,
  Text.cut_append_of_apart, Text.cut_append, Text.infix_append_cons_iff, Text.infix_trim_iff
-/
import WardleyMaps.Proofs.Text.Cut

namespace WardleyMaps.Text

/-!
Whether a mark occurs is told by its first two characters. They are neighbours somewhere in one of
two parts, or they meet where the parts are joined (`pair_infix_append`). In front of a part in
which they are no neighbours, and at whose end they do not meet, nothing has to be looked for
(`cut_append_of_apart`).
-/

theorem cut_eq_none_iff {mark t : Text} :
    cut mark t = none ↔ ¬ mark <:+: t := by
  have hstart : ∀ u : Text, after? mark u = none ↔ ¬ mark <+: u := by
    intro u
    rw [Option.eq_none_iff_forall_ne_some]
    constructor
    · rintro h ⟨rest, rfl⟩
      exact h rest (after?_append mark rest)
    · intro h rest hrest
      exact h ⟨rest, (after?_eq_some.1 hrest).symm⟩
  induction t with
  | nil => simp [cut, hstart]
  | cons c cs ih =>
      rw [cut, List.infix_cons_iff, not_or, ← hstart]
      cases hafter : after? mark (c :: cs) with
      | some rest => simp
      | none => simp [ih]

/-! ### Neighbours -/

theorem pair_infix_cons {x y c : Char} {t : Text} :
    [x, y] <:+: c :: t ↔ (x = c ∧ t.head? = some y) ∨ [x, y] <:+: t := by
  rw [List.infix_cons_iff, List.cons_prefix_cons]
  cases t with
  | nil => simp
  | cons d rest => simp [List.cons_prefix_cons, eq_comm (a := y)]

/-- Neighbours stand in one of two parts, or on both sides of the seam. -/
theorem pair_infix_append {x y : Char} {a b : Text} :
    [x, y] <:+: a ++ b ↔
      [x, y] <:+: a ∨ [x, y] <:+: b ∨ (a.getLast? = some x ∧ b.head? = some y) := by
  induction a with
  | nil => simp
  | cons c rest ih =>
      rw [List.cons_append, pair_infix_cons, pair_infix_cons, ih]
      cases rest with
      | nil =>
          simp only [List.nil_append, List.head?_nil, List.getLast?_nil, List.getLast?_singleton,
            Option.some.injEq, reduceCtorEq, and_false, false_and, false_or, or_false,
            List.infix_nil, List.cons_ne_nil]
          rw [eq_comm (a := c), or_comm]
      | cons d others =>
          rw [List.getLast?_cons_cons, List.cons_append, List.head?_cons, List.head?_cons, or_assoc]

/-- Characters that are no blanks are no nearer to each other for blanks at the end. -/
theorem pair_infix_append_of_blank {x y : Char} (hx : isBlank x = false) (hy : isBlank y = false)
    {a space : Text} (hspace : Blank space) : [x, y] <:+: a ++ space ↔ [x, y] <:+: a := by
  have hinside : ¬ [x, y] <:+: space := by
    intro h
    apply not_mem_of_blank hx hspace
    exact h.subset List.mem_cons_self
  have hseam : space.head? ≠ some y := by
    intro h
    apply not_mem_of_blank hy hspace
    exact List.mem_of_mem_head? h
  rw [pair_infix_append]
  simp [hinside, hseam]

/-- The same of blanks in front. -/
theorem pair_infix_prepend_of_blank {x y : Char} (hx : isBlank x = false) (hy : isBlank y = false)
    {space b : Text} (hspace : Blank space) : [x, y] <:+: space ++ b ↔ [x, y] <:+: b := by
  have hinside : ¬ [x, y] <:+: space := by
    intro h
    apply not_mem_of_blank hy hspace
    exact h.subset (List.mem_cons_of_mem x List.mem_cons_self)
  have hseam : space.getLast? ≠ some x := by
    intro h
    apply not_mem_of_blank hx hspace
    exact List.mem_of_getLast? h
  rw [pair_infix_append]
  simp [hinside, hseam]

/-- Neighbours at the start of two parts stand in the first one, unless they meet at the seam. -/
theorem not_pair_prefix_append {x y c : Char} {rest b : Text} (ha : ¬ [x, y] <:+: c :: rest)
    (hb : b.head? ≠ some y) : ¬ [x, y] <+: c :: (rest ++ b) := by
  rw [List.cons_prefix_cons]
  rw [pair_infix_cons, not_or] at ha
  rintro ⟨hc, hnext⟩
  cases rest with
  | nil =>
      apply hb
      obtain ⟨more, hmore⟩ := hnext
      rw [← List.nil_append b, ← hmore]
      rfl
  | cons d others =>
      apply ha.1
      exact ⟨hc, congrArg some (List.cons_prefix_cons.1 hnext).1.symm⟩

theorem after?_eq_none_of_apart {x y : Char} (zs : Text) {t : Text} (h : ¬ [x, y] <+: t) :
    after? (x :: y :: zs) t = none := by
  rw [Option.eq_none_iff_forall_ne_some]
  intro rest hrest
  apply h
  exact ⟨zs ++ rest, (after?_eq_some.1 hrest).symm⟩

/-- Behind a part in which its first two characters are no neighbours, and at whose end they do not
meet, a mark is found as without this part. -/
theorem cut_append_of_apart {x y : Char} (zs : Text) {a b : Text} (ha : ¬ [x, y] <:+: a)
    (hb : b.head? ≠ some y) :
    cut (x :: y :: zs) (a ++ b) =
      (cut (x :: y :: zs) b).map fun parts => (a ++ parts.1, parts.2) := by
  induction a with
  | nil => simp
  | cons c rest ih =>
      have hnone : after? (x :: y :: zs) (c :: (rest ++ b)) = none :=
        after?_eq_none_of_apart zs (not_pair_prefix_append ha hb)
      rw [pair_infix_cons, not_or] at ha
      rw [List.cons_append, cut, hnone, ih ha.2]
      cases cut (x :: y :: zs) b <;> rfl

/-- A mark does not occur where its first two characters are no neighbours. -/
theorem cut_eq_none_of_apart {x y : Char} (zs : Text) {t : Text} (h : ¬ [x, y] <:+: t) :
    cut (x :: y :: zs) t = none := by
  rw [cut_eq_none_iff]
  intro hmark
  apply h
  exact List.IsInfix.trans ⟨[], zs, rfl⟩ hmark

/-! ### Longer texts -/

theorem after?_append_of_length {start t : Text} (h : start.length ≤ t.length) (rest : Text) :
    after? start (t ++ rest) = (after? start t).map (· ++ rest) := by
  induction start generalizing t with
  | nil => rfl
  | cons p ps ih =>
      cases t with
      | nil => simp at h
      | cons c cs =>
          rw [List.cons_append, after?, after?]
          split
          · exact ih (by simpa using h)
          · rfl

/-- A mark that occurs is found in the same place when the text goes on behind it. -/
theorem cut_append {mark t before after : Text} (h : cut mark t = some (before, after))
    (rest : Text) : cut mark (t ++ rest) = some (before, after ++ rest) := by
  induction t generalizing before with
  | nil =>
      obtain ⟨later, hlater, hparts⟩ := Option.map_eq_some_iff.1 h
      obtain ⟨rfl, rfl⟩ := Prod.mk.inj hparts
      obtain ⟨rfl, rfl⟩ := List.append_eq_nil_iff.1 (after?_eq_some.1 hlater).symm
      cases rest <;> rfl
  | cons c cs ih =>
      have hlength : mark.length ≤ (c :: cs).length := by
        rw [cut_eq_some h, List.length_append, List.length_append]
        omega
      have hstart := after?_append_of_length hlength rest
      rw [List.cons_append] at hstart
      rw [cut] at h
      rw [List.cons_append, cut, hstart]
      cases hhere : after? mark (c :: cs) with
      | some later =>
          rw [hhere] at h
          obtain ⟨rfl, rfl⟩ := Prod.mk.inj (Option.some.inj h)
          rfl
      | none =>
          rw [hhere] at h
          obtain ⟨⟨front, behind⟩, hcut, hparts⟩ := Option.map_eq_some_iff.1 h
          obtain ⟨rfl, rfl⟩ := Prod.mk.inj hparts
          simp [ih hcut]

theorem prefix_append_cons_iff {mark : Text} {c : Char} (hc : c ∉ mark) {a b : Text} :
    mark <+: a ++ c :: b ↔ mark <+: a := by
  constructor
  · rintro ⟨rest, hrest⟩
    rcases List.append_eq_append_iff.1 hrest with ⟨u, ha, -⟩ | ⟨u, hmark, hu⟩
    · exact ⟨u, ha.symm⟩
    · cases u with
      | nil => exact ⟨[], by simpa using hmark⟩
      | cons d ds =>
          obtain ⟨rfl, -⟩ := List.cons.inj hu
          apply absurd _ hc
          rw [hmark]
          simp
  · exact fun h => h.trans (List.prefix_append _ _)

/-- A mark that does not hold a character stands on one side of it. -/
theorem infix_append_cons_iff {mark : Text} {c : Char} (hc : c ∉ mark) {a b : Text} :
    mark <:+: a ++ c :: b ↔ mark <:+: a ∨ mark <:+: b := by
  induction a with
  | nil =>
      rw [List.nil_append, List.infix_cons_iff, ← List.nil_append (c :: b),
        prefix_append_cons_iff hc, List.infix_nil, List.prefix_nil]
  | cons d rest ih =>
      rw [List.cons_append, List.infix_cons_iff, List.infix_cons_iff, ih, ← List.cons_append,
        prefix_append_cons_iff hc, or_assoc]

/-! ### Trimming -/

/-- What begins with no blank does not reach into blanks in front of a text. -/
theorem infix_of_infix_prepend {mark lead t : Text} (hne : mark ≠ [])
    (hhead : ∀ c ∈ mark.head?, isBlank c = false) (hlead : Blank lead)
    (h : mark <:+: lead ++ t) : mark <:+: t := by
  induction lead with
  | nil => exact h
  | cons c rest ih =>
      rw [List.cons_append, List.infix_cons_iff] at h
      cases h with
      | inl hstart =>
          obtain ⟨d, ds, rfl⟩ := List.exists_cons_of_ne_nil hne
          have hsame : d = c := (List.cons_prefix_cons.1 hstart).1
          have hblank : isBlank d = true := hsame ▸ hlead c List.mem_cons_self
          rw [hhead d rfl] at hblank
          cases hblank
      | inr hlater => exact ih hlead.tail hlater

/-- What has no blank at its ends occurs in a text just when it occurs in its trimmed form. -/
theorem infix_trim_iff {mark : Text} (hmark : Trimmed mark) (hne : mark ≠ []) (t : Text) :
    mark <:+: trim t ↔ mark <:+: t := by
  constructor
  · exact fun h => h.trans (infix_trim t)
  · intro h
    obtain ⟨lead, trail, hlead, htrail, ht⟩ := exists_trim t
    rw [ht, List.append_assoc] at h
    have hfront : mark <:+: trim t ++ trail := infix_of_infix_prepend hne hmark.head hlead h
    -- Blanks at the end are blanks in front of the reversed text.
    rw [← List.reverse_infix, List.reverse_append] at hfront
    rw [← List.reverse_infix]
    apply infix_of_infix_prepend (by simpa using hne) _ _ hfront
    · simpa using hmark.last
    · exact fun c hc => htrail c (List.mem_reverse.1 hc)

end WardleyMaps.Text
