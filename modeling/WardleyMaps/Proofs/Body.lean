/-
Module: WardleyMaps.Proofs.Body
Purpose: What lies in bodies of braces when a line outside of them changes, and where the body of a
  pipeline lies.
Main exports: SameBraces, inBodyFrom_replace, pipelineBody_replace, MarkedBody, markedBody_of_closed
-/
import WardleyMaps.Body
import WardleyMaps.Proofs.Text.Trim

namespace WardleyMaps

open Text

/-!
Two readers look for bodies: `inBodyFrom` goes through all lines once and marks those inside of
closed bodies, `pipelineBody` looks ahead from one header. From a header that is not marked itself
the second one finds marked lines only (`markedBody_of_closed`). A line that is not marked can be
replaced by one with the same braces; neither reader sees the difference (`inBodyFrom_replace`,
`pipelineBody_replace`).
-/

/-! ### One line at a time -/

/-- Whether a body is open behind a line. -/
def openAfter : Bool → Text → Bool
  | true, line => !closesBody line
  | false, line => if opensBody line then !closesBody line else endsWithBrace line

/-- Whether a line lies inside a closed body, given whether one is open before it. -/
def hiddenBy : Bool → Text → List Text → Bool
  | true, line, rest => closesBody line || rest.any closesBody
  | false, line, rest => opensBody line && (closesBody line || rest.any closesBody)

theorem inBodyFrom_cons (isOpen : Bool) (line : Text) (rest : List Text) :
    inBodyFrom isOpen (line :: rest) =
      hiddenBy isOpen line rest :: inBodyFrom (openAfter isOpen line) rest := by
  cases isOpen with
  | true => cases hc : closesBody line <;> simp [inBodyFrom, hiddenBy, openAfter, hc]
  | false =>
      cases ho : opensBody line <;> cases hc : closesBody line <;>
        simp [inBodyFrom, hiddenBy, openAfter, ho, hc]

theorem length_inBody (ls : List Text) : (inBody ls).length = ls.length :=
  length_inBodyFrom false ls

theorem opensBody_eq_false_of_head {line : Text} {c : Char} {rest : Text}
    (h : trim line = c :: rest) (hc : c ≠ '{') : opensBody line = false := by
  simp [opensBody, startsWith, h, after?, Ne.symm hc]

theorem closesBody_iff {line : Text} : closesBody line = true ↔ '}' ∈ trim line := by
  obtain ⟨lead, trail, hlead, htrail, htrim⟩ := exists_trim line
  have hleadNot : '}' ∉ lead := not_mem_of_blank (by decide) hlead
  have htrailNot : '}' ∉ trail := not_mem_of_blank (by decide) htrail
  rw [closesBody, List.contains_iff_mem]
  conv_lhs => rw [htrim]
  simp [hleadNot, htrailNot]

theorem closesBody_of_trim_nil {line : Text} (h : trim line = []) : closesBody line = false := by
  rw [← Bool.not_eq_true, closesBody_iff, h]
  exact List.not_mem_nil

/-- Behind a blank line a body is open if one is open before it. -/
theorem openAfter_of_trim_nil {line : Text} (h : trim line = []) (isOpen : Bool) :
    openAfter isOpen line = isOpen := by
  cases isOpen with
  | true => rw [openAfter, closesBody_of_trim_nil h, Bool.not_false]
  | false => simp [openAfter, opensBody, endsWithBrace, startsWith, h, after?]

/-- A masked line that is not empty is a line outside of bodies. -/
theorem maskBodies_getElem? {ls : List Text} {i : Nat} {line : Text}
    (h : (maskBodies ls)[i]? = some line) (hne : line ≠ []) :
    ls[i]? = some line ∧ (inBody ls)[i]? = some false := by
  rw [maskBodies, List.getElem?_zipWith] at h
  cases hflag : (inBody ls)[i]? with
  | none => simp [hflag] at h
  | some flag =>
      cases hline : ls[i]? with
      | none => simp [hflag, hline] at h
      | some found =>
          cases flag with
          | false => simpa [hflag, hline] using h
          | true =>
              simp only [hflag, hline, ↓reduceIte, Option.some.injEq] at h
              exact absurd h.symm hne

/-- A line outside of bodies is not masked. -/
theorem maskBodies_of_visible {ls : List Text} {i : Nat} {line : Text} (h : ls[i]? = some line)
    (hvisible : (inBody ls)[i]? = some false) : (maskBodies ls)[i]? = some line := by
  simp [maskBodies, List.getElem?_zipWith, h, hvisible]

/-! ### Replacing a line -/

/-- Lines that open and close bodies alike, and of which none or both are blank. -/
structure SameBraces (a b : Text) : Prop where
  closes : closesBody a = closesBody b
  opens : opensBody a = opensBody b
  ends : endsWithBrace a = endsWithBrace b
  blank : (trim a).isEmpty = (trim b).isEmpty

theorem SameBraces.any_closes {a b : Text} (h : SameBraces a b) (above below : List Text) :
    (above ++ a :: below).any closesBody = (above ++ b :: below).any closesBody := by
  simp [h.closes]

theorem inBodyFrom_replace {a b : Text} (h : SameBraces a b) (isOpen : Bool)
    (above below : List Text) :
    inBodyFrom isOpen (above ++ a :: below) = inBodyFrom isOpen (above ++ b :: below) := by
  induction above generalizing isOpen with
  | nil =>
      rw [List.nil_append, List.nil_append, inBodyFrom_cons, inBodyFrom_cons]
      cases isOpen <;> simp [hiddenBy, openAfter, h.closes, h.opens, h.ends]
  | cons line rest ih =>
      rw [List.cons_append, List.cons_append, inBodyFrom_cons, inBodyFrom_cons, ih]
      cases isOpen <;> simp only [hiddenBy, h.any_closes]

theorem untilClosed_cons (skipped : Nat) (line : Text) (rest : List Text) :
    untilClosed skipped (line :: rest) =
      if closesBody line then .closed skipped []
      else
        match untilClosed skipped rest with
        | .closed _ inner => .closed skipped (line :: inner)
        | _ => .unclosed := by
  by_cases hc : closesBody line = true
  · simp [untilClosed, hc]
  · by_cases hany : rest.any closesBody = true
    · simp [untilClosed, hc, hany]
    · simp [untilClosed, hc, hany]

/-- The body that is open before some lines stays the same when a line outside of bodies is replaced
by another one. -/
theorem untilClosed_replace {a b : Text} (h : SameBraces a b) (skipped : Nat)
    (above below : List Text)
    (hvisible : (inBodyFrom true (above ++ a :: below))[above.length]? = some false) :
    untilClosed skipped (above ++ a :: below) = untilClosed skipped (above ++ b :: below) := by
  induction above with
  | nil =>
      rw [List.nil_append, inBodyFrom_cons] at hvisible
      simp only [hiddenBy, List.length_nil, List.getElem?_cons_zero, Option.some.injEq,
        Bool.or_eq_false_iff] at hvisible
      have hb : closesBody b = false := h.closes ▸ hvisible.1
      simp [untilClosed, hvisible.1, hvisible.2, hb]
  | cons line rest ih =>
      rw [List.cons_append, List.cons_append, untilClosed_cons, untilClosed_cons]
      by_cases hc : closesBody line = true
      · simp [hc]
      · rw [List.cons_append, inBodyFrom_cons] at hvisible
        have hopen : openAfter true line = true := by simp [openAfter, hc]
        rw [hopen, List.length_cons, List.getElem?_cons_succ] at hvisible
        rw [ih hvisible]

/-- The body that opens below is the same when a line outside of bodies is replaced, unless this
line could open it. -/
theorem bodyBelow_replace {a b : Text} (h : SameBraces a b) (hopens : opensBody a = false)
    (hblank : (trim a).isEmpty = false) (skipped : Nat) (above below : List Text)
    (hvisible : (inBodyFrom false (above ++ a :: below))[above.length]? = some false) :
    bodyBelow skipped (above ++ a :: below) = bodyBelow skipped (above ++ b :: below) := by
  induction above generalizing skipped with
  | nil =>
      have hopens' : opensBody b = false := h.opens ▸ hopens
      have hblank' : (trim b).isEmpty = false := h.blank ▸ hblank
      simp [bodyBelow, hopens, hblank, hopens', hblank']
  | cons line rest ih =>
      rw [List.cons_append, List.cons_append, bodyBelow, bodyBelow]
      rw [List.cons_append, inBodyFrom_cons, List.length_cons, List.getElem?_cons_succ] at hvisible
      split
      · next hempty =>
        have htrim : trim line = [] := List.isEmpty_iff.1 hempty
        rw [openAfter_of_trim_nil htrim] at hvisible
        exact ih _ hvisible
      · split
        · next hopen =>
          split
          · rfl
          · next hc =>
            have hstate : openAfter false line = true := by simp [openAfter, hopen, hc]
            rw [hstate] at hvisible
            exact untilClosed_replace h _ _ _ hvisible
        · rfl

/-- Where no line closes a body, replacing a line changes nothing either. -/
theorem bodyBelow_replace_of_unclosed {a b : Text} (h : SameBraces a b)
    (hopens : opensBody a = false) (hblank : (trim a).isEmpty = false) (skipped : Nat)
    (above below : List Text) (hnone : (above ++ a :: below).any closesBody = false) :
    bodyBelow skipped (above ++ a :: below) = bodyBelow skipped (above ++ b :: below) := by
  induction above generalizing skipped with
  | nil =>
      have hopens' : opensBody b = false := h.opens ▸ hopens
      have hblank' : (trim b).isEmpty = false := h.blank ▸ hblank
      simp [bodyBelow, hopens, hblank, hopens', hblank']
  | cons line rest ih =>
      rw [List.cons_append, List.any_cons, Bool.or_eq_false_iff] at hnone
      have hnone' := h.any_closes rest below ▸ hnone.2
      rw [List.cons_append, List.cons_append, bodyBelow, bodyBelow, ih _ hnone.2]
      simp [hnone.1, untilClosed, hnone.2, hnone']

/-- The body of a header that is not hidden stays the same when a line outside of bodies is replaced
by another one. -/
theorem pipelineBody_replace {a b header : Text} (h : SameBraces a b)
    (hopens : opensBody a = false) (hblank : (trim a).isEmpty = false)
    (hheader : opensBody header = false) (isOpen : Bool) (above below : List Text)
    (hhidden : hiddenBy isOpen header (above ++ a :: below) = false)
    (hvisible :
      (inBodyFrom (openAfter isOpen header) (above ++ a :: below))[above.length]? = some false) :
    pipelineBody header (above ++ a :: below) = pipelineBody header (above ++ b :: below) := by
  unfold pipelineBody
  cases isOpen with
  | true =>
      rw [hiddenBy, Bool.or_eq_false_iff] at hhidden
      have hopen : openAfter true header = true := by simp [openAfter, hhidden.1]
      rw [hopen] at hvisible
      split
      · exact untilClosed_replace h 0 above below hvisible
      · exact bodyBelow_replace_of_unclosed h hopens hblank 0 above below hhidden.2
  | false =>
      rw [openAfter, hheader, if_neg Bool.false_ne_true] at hvisible
      split
      · next hends =>
        rw [hends] at hvisible
        exact untilClosed_replace h 0 above below hvisible
      · next hends =>
        rw [Bool.not_eq_true] at hends
        rw [hends] at hvisible
        exact bodyBelow_replace h hopens hblank 0 above below hvisible

/-! ### Where the body of a header lies -/

/-- Marked lines in three parts: those up to the brace line, which are blank or marked; those
between the braces, which are all marked; and the others. -/
structure MarkedBody (skipped : Nat) (inner : List Text) (marked : List (Bool × Text)) : Prop where
  parts : ∃ gap inside tail, marked = gap ++ inside ++ tail ∧ gap.length = skipped ∧
    inside.map Prod.snd = inner ∧ (∀ p ∈ gap, p.1 = true ∨ Blank p.2) ∧ ∀ p ∈ inside, p.1 = true

theorem MarkedBody.cons {skipped : Nat} {inner : List Text} {marked : List (Bool × Text)}
    (h : MarkedBody skipped inner marked) {p : Bool × Text} (hp : p.1 = true ∨ Blank p.2) :
    MarkedBody (skipped + 1) inner (p :: marked) := by
  obtain ⟨gap, inside, tail, rfl, hlen, hinner, hgap, hinside⟩ := h.parts
  exact ⟨p :: gap, inside, tail, by simp, by simp [hlen], hinner,
    List.forall_mem_cons.2 ⟨hp, hgap⟩, hinside⟩

/-- The count of lines passed over only counts. -/
theorem markedBody_untilClosed {skipped n : Nat} {inner ls : List Text}
    (h : untilClosed skipped ls = .closed n inner) :
    n = skipped ∧ MarkedBody 0 inner ((inBodyFrom true ls).zip ls) := by
  induction ls generalizing inner n with
  | nil => simp [untilClosed] at h
  | cons line rest ih =>
      rw [untilClosed_cons] at h
      rw [inBodyFrom_cons, List.zip_cons_cons]
      by_cases hc : closesBody line = true
      · rw [if_pos hc] at h
        simp only [PipelineBody.closed.injEq] at h
        obtain ⟨rfl, rfl⟩ := h
        exact ⟨rfl, [], [], _, rfl, rfl, rfl, by simp, by simp⟩
      · rw [if_neg hc] at h
        cases hrest : untilClosed skipped rest with
        | missing => simp [hrest] at h
        | unclosed => simp [hrest] at h
        | closed m others =>
            rw [hrest] at h
            simp only [PipelineBody.closed.injEq] at h
            obtain ⟨rfl, rfl⟩ := h
            obtain ⟨-, hparts⟩ := ih hrest
            obtain ⟨gap, inside, tail, hmarked, hlen, hinner, -, hinside⟩ := hparts.parts
            obtain rfl := List.length_eq_zero_iff.1 hlen
            have hopen : openAfter true line = true := by simp [openAfter, hc]
            have hhidden : hiddenBy true line rest = true := by
              have hany : rest.any closesBody = true := by
                by_contra hnone
                simp [untilClosed, hnone] at hrest
              simp [hiddenBy, hany]
            refine ⟨rfl, [], (true, line) :: inside, tail, ?_, rfl, ?_, by simp, ?_⟩
            · simp [hopen, hhidden, hmarked]
            · simp [hinner]
            · exact List.forall_mem_cons.2 ⟨rfl, hinside⟩

theorem markedBody_bodyBelow {skipped n : Nat} {inner ls : List Text}
    (h : bodyBelow skipped ls = .closed n inner) :
    ∃ m, n = skipped + m ∧ MarkedBody m inner ((inBodyFrom false ls).zip ls) := by
  induction ls generalizing skipped with
  | nil => simp [bodyBelow] at h
  | cons line rest ih =>
      rw [bodyBelow] at h
      rw [inBodyFrom_cons, List.zip_cons_cons]
      split at h
      · next hempty =>
        have htrim : trim line = [] := List.isEmpty_iff.1 hempty
        obtain ⟨m, rfl, hbody⟩ := ih h
        rw [openAfter_of_trim_nil htrim]
        exact ⟨m + 1, by omega, hbody.cons (.inr (trim_eq_nil_iff.1 htrim))⟩
      · split at h
        · next hopen =>
          split at h
          · next hc =>
            simp only [PipelineBody.closed.injEq] at h
            obtain ⟨rfl, rfl⟩ := h
            have hhidden : hiddenBy false line rest = true := by simp [hiddenBy, hopen, hc]
            exact ⟨1, rfl, [_], [], _, rfl, rfl, rfl, by simp [hhidden], by simp⟩
          · next hc =>
            obtain ⟨rfl, hbody⟩ := markedBody_untilClosed h
            have hstate : openAfter false line = true := by simp [openAfter, hopen, hc]
            have hhidden : hiddenBy false line rest = true := by
              have hany : rest.any closesBody = true := by
                by_contra hnone
                simp [untilClosed, hnone] at h
              simp [hiddenBy, hopen, hany]
            rw [hstate]
            exact ⟨1, rfl, hbody.cons (.inl hhidden)⟩
        · simp at h

theorem bodyBelow_ne_closed {skipped n : Nat} {inner ls : List Text}
    (h : ls.any closesBody = false) : bodyBelow skipped ls ≠ .closed n inner := by
  induction ls generalizing skipped with
  | nil => simp [bodyBelow]
  | cons line rest ih =>
      rw [List.any_cons, Bool.or_eq_false_iff] at h
      rw [bodyBelow]
      split
      · exact ih h.2
      · simp only [h.1, Bool.false_eq_true, ↓reduceIte, untilClosed, h.2]
        split <;> simp

/-- The body of a header that is not hidden: up to its last line all lines below the header are
blank or hidden, and those between the braces are hidden. -/
theorem markedBody_of_closed {header : Text} {isOpen : Bool} {below inner : List Text}
    {skipped : Nat} (hheader : opensBody header = false)
    (hhidden : hiddenBy isOpen header below = false)
    (h : pipelineBody header below = .closed skipped inner) :
    MarkedBody skipped inner ((inBodyFrom (openAfter isOpen header) below).zip below) := by
  unfold pipelineBody at h
  cases isOpen with
  | true =>
      rw [hiddenBy, Bool.or_eq_false_iff] at hhidden
      split at h
      · simp [untilClosed, hhidden.2] at h
      · exact absurd h (bodyBelow_ne_closed hhidden.2)
  | false =>
      rw [openAfter, hheader, if_neg Bool.false_ne_true]
      split at h
      · next hends =>
        obtain ⟨rfl, hbody⟩ := markedBody_untilClosed h
        rwa [hends]
      · next hends =>
        rw [Bool.not_eq_true] at hends
        obtain ⟨m, rfl, hbody⟩ := markedBody_bodyBelow h
        rwa [hends, Nat.zero_add]

end WardleyMaps
