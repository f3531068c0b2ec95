/-
Module: WardleyMaps.Proofs.Comment.Blanks
Purpose: Leaving comments out of lines with more blanks at their ends.
Main exports: keepOutside_prepend_of_blank, keepOutside_append_of_blank, Lengthened,
  stripLines_lengthened, Widened, map_trim_stripLines_widened
-/
import WardleyMaps.Proofs.Comment.Segment

namespace WardleyMaps

open Text

/-!
A blank is a plain character, so it neither opens nor closes a comment, and more blanks at the ends
of a line belong to a comment or are kept as they are. Those behind the line are then trimmed away,
and nothing is different (`stripLines_lengthened`). Those before it are not, but they stay at the
front of what is left (`map_trim_stripLines_widened`).
-/

/-! ### In front of a line -/

/-- Outside of comments, blanks are kept and change nothing. -/
theorem scan_outside_prepend_of_blank (address : Bool) {lead : Text} (h : Blank lead) (t : Text) :
    scan address (.outside false) (lead ++ t) =
      (lead ++ (scan address (.outside false) t).1, (scan address (.outside false) t).2) := by
  induction lead with
  | nil => rfl
  | cons c cs ih =>
      have hslash : c ≠ '/' :=
        ne_of_mem_of_not_mem List.mem_cons_self (not_mem_of_blank (by decide) h)
      have hcolon : c ≠ ':' :=
        ne_of_mem_of_not_mem List.mem_cons_self (not_mem_of_blank (by decide) h)
      rw [List.cons_append, scan_plain (fun hc => hslash hc.1) (fun hc => hslash hc.1),
        decide_eq_false hcolon, ih h.tail]
      rfl

/-- Inside a block, blanks are left out and change nothing. -/
theorem scan_inside_prepend_of_blank (address : Bool) {lead : Text} (h : Blank lead) (t : Text) :
    scan address .inside (lead ++ t) = scan address .inside t := by
  induction lead with
  | nil => rfl
  | cons c cs ih =>
      have hstar : c ≠ '*' :=
        ne_of_mem_of_not_mem List.mem_cons_self (not_mem_of_blank (by decide) h)
      rw [List.cons_append, scan_cons]
      simpa [ScanState.step, hstar] using ih h.tail

theorem scan_inside_of_blank (address : Bool) {t : Text} (h : Blank t) :
    scan address .inside t = ([], true) := by
  have hscan := scan_inside_prepend_of_blank address h []
  rwa [List.append_nil] at hscan

theorem keepOutside_prepend_of_blank (address inBlock : Bool) {lead : Text} (h : Blank lead)
    (t : Text) :
    ∃ front, Blank front ∧ keepOutside address inBlock (lead ++ t) =
      (front ++ (keepOutside address inBlock t).1, (keepOutside address inBlock t).2) := by
  rw [keepOutside_eq_scan, keepOutside_eq_scan]
  cases inBlock with
  | false => exact ⟨lead, h, scan_outside_prepend_of_blank address h t⟩
  | true => exact ⟨[], blank_nil, scan_inside_prepend_of_blank address h t⟩

/-! ### Behind a line -/

/-- No line ends between the two characters that open a block. -/
theorem scanEnd_eq_opening {address : Bool} {s : ScanState} {t : Text}
    (h : scanEnd address s t = .opening) : t = [] ∧ s = .opening := by
  induction t generalizing s with
  | nil => exact ⟨rfl, h⟩
  | cons c rest ih =>
      rw [scanEnd] at h
      obtain ⟨rfl, hstep⟩ := ih h
      cases s <;> simp [ScanState.step] at hstep

@[simp]
theorem ScanState.settled_settled (s : ScanState) : s.settled.settled = s.settled := by
  cases s <;> rfl

theorem ScanState.isInside_settled {s : ScanState} (h : s ≠ .opening) :
    s.settled.isInside = s.isInside := by
  cases s <;> first | rfl | exact absurd rfl h

theorem scanEnd_of_blank {address : Bool} {s : ScanState} (hs : s.settled = s) {t : Text}
    (h : Blank t) : scanEnd address s t = s := by
  induction t with
  | nil => rfl
  | cons c rest ih =>
      rw [scanEnd, ScanState.step_plain (Plain.of_isBlank (h c List.mem_cons_self)), hs]
      exact ih h.tail

/-- Blanks behind a text belong to a comment or are kept, and no block opens or closes in them. -/
theorem scan_append_of_blank {address : Bool} {s : ScanState} (hs : s ≠ .opening) {trail : Text}
    (h : Blank trail) (t : Text) :
    ∃ back, Blank back ∧
      scan address s (t ++ trail) = ((scan address s t).1 ++ back, (scan address s t).2) := by
  cases trail with
  | nil => exact ⟨[], blank_nil, by simp⟩
  | cons c rest =>
      have plain := Plain.of_isBlank (h c List.mem_cons_self)
      have rest_blank : Blank rest := h.tail
      let s' := scanEnd address s t
      have notOpening : s' ≠ .opening := fun atEnd => hs (scanEnd_eq_opening atEnd).2
      let marks := (s'.step address c rest.head?).1 :: commentMarks address s'.settled rest
      let back := unmarked marks (c :: rest)
      have back_blank : Blank back := fun d hd => h d (mem_of_mem_unmarked hd)
      refine ⟨back, back_blank, Prod.ext ?_ ?_⟩
      · rw [scan, commentMarks_append plain, unmarked_append (length_commentMarks _ _ _)]
        rfl
      · rw [scan, scanEnd_append plain, scanEnd_of_blank (ScanState.settled_settled _) rest_blank]
        exact ScanState.isInside_settled notOpening

theorem keepOutside_append_of_blank (address inBlock : Bool) {trail : Text} (h : Blank trail)
    (t : Text) :
    ∃ back, Blank back ∧ keepOutside address inBlock (t ++ trail) =
      ((keepOutside address inBlock t).1 ++ back, (keepOutside address inBlock t).2) := by
  rw [keepOutside_eq_scan, keepOutside_eq_scan]
  refine scan_append_of_blank ?_ h t
  cases inBlock <;> exact nofun

/-! ### Lines with more blanks -/

/-- The line with more blanks behind it. -/
def Lengthened (line long : Text) : Prop :=
  ∃ trail, Blank trail ∧ long = line ++ trail

/-- The line with more blanks before and behind it. -/
def Widened (line wide : Text) : Prop :=
  ∃ lead trail, Blank lead ∧ Blank trail ∧ wide = lead ++ line ++ trail

theorem Widened.trim_eq {line wide : Text} (h : Widened line wide) : trim wide = trim line := by
  obtain ⟨lead, trail, hlead, htrail, rfl⟩ := h
  rw [trim_append_of_blank htrail, trim_prepend_of_blank hlead]

theorem isAddressLine_of_trim_eq {a b : Text} (h : trim a = trim b) :
    isAddressLine a = isAddressLine b := by
  rw [isAddressLine, h, isAddressLine]

/-- Of lines with more blanks behind them the same is left. -/
theorem stripLines_lengthened {ls long : List Text} (h : List.Forall₂ Lengthened ls long)
    (inBlock : Bool) : stripLines inBlock long = stripLines inBlock ls := by
  induction h generalizing inBlock with
  | nil => rfl
  | cons first _ ih =>
      obtain ⟨trail, htrail, rfl⟩ := first
      rename_i line _ _ _
      obtain ⟨back, hback, hkept⟩ :=
        keepOutside_append_of_blank (isAddressLine line) inBlock htrail line
      simp only [stripLines, isAddressLine_of_trim_eq (trim_append_of_blank htrail line), hkept, ih,
        trimEnd_append_of_blank hback]

/-- Of lines with more blanks at their ends the same is left, up to blanks before it. -/
theorem map_trim_stripLines_widened {ls wide : List Text} (h : List.Forall₂ Widened ls wide)
    (inBlock : Bool) :
    (stripLines inBlock wide).map trim = (stripLines inBlock ls).map trim := by
  induction h generalizing inBlock with
  | nil => rfl
  | @cons line _ _ _ first _ ih =>
      have haddress := isAddressLine_of_trim_eq first.trim_eq
      obtain ⟨lead, trail, hlead, htrail, rfl⟩ := first
      obtain ⟨back, hback, hkept⟩ :=
        keepOutside_append_of_blank (isAddressLine line) inBlock htrail (lead ++ line)
      obtain ⟨front, hfront, hbehind⟩ :=
        keepOutside_prepend_of_blank (isAddressLine line) inBlock hlead line
      simp only [stripLines, haddress, hkept, hbehind, List.map_cons, ih, trim_trimEnd,
        trim_append_of_blank hback, trim_prepend_of_blank hfront]

end WardleyMaps
