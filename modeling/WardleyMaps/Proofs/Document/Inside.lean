/-
Module: WardleyMaps.Proofs.Document.Inside
Purpose: What the passes find when one line is replaced that may stand inside of a body.
Main exports: Unseen, readPipelines_unseen, Alike.ofLines_evolve
-/
import Mathlib.Data.List.Forall2
import WardleyMaps.Proofs.Document.Replace
import WardleyMaps.Proofs.Statement.Evolve

namespace WardleyMaps

open Text

/-!
A statement `evolve` is read inside of bodies as well, and there the pipelines look at its line too.
They do not recognise it: it is no header, no component and no brace line. So lines are compared one
by one (`Unseen`), and whatever the pipelines make of a list of lines they make of the other list,
except that the bodies they cut out hold the other lines (`PipelineBody.Agrees`).
-/

/-! ### Lines that pipelines do not tell apart -/

/-- Two lines are the same, or no header and no component of a pipeline, with the same braces. -/
inductive Unseen : Text → Text → Prop where
  | same (line : Text) : Unseen line line
  | other {a b : Text} (braces : SameBraces a b)
      (headers : ∀ line ∈ [a, b], startsWithKeyword "pipeline".toList line = false)
      (components : ∀ line ∈ [a, b], startsWithKeyword "component".toList line = false) : Unseen a b

theorem SameBraces.refl (line : Text) : SameBraces line line :=
  ⟨rfl, rfl, rfl, rfl⟩

theorem SameBraces.openAfter_eq {a b : Text} (h : SameBraces a b) (isOpen : Bool) :
    openAfter isOpen a = openAfter isOpen b := by
  cases isOpen <;> simp [openAfter, h.closes, h.opens, h.ends]

theorem Unseen.braces {a b : Text} (h : Unseen a b) : SameBraces a b := by
  cases h with
  | same => exact .refl a
  | other braces => exact braces

theorem forall₂_unseen_replace {a b : Text} (h : Unseen a b) (above below : List Text) :
    List.Forall₂ Unseen (above ++ a :: below) (above ++ b :: below) := by
  have hsame : ∀ ls : List Text, List.Forall₂ Unseen ls ls :=
    fun ls => List.forall₂_same.2 fun line _ => .same line
  exact List.rel_append (hsame above) (.cons h (hsame below))

/-- Two bodies of one header, of the same shape and with lines that are not told apart. -/
inductive PipelineBody.Agrees : PipelineBody → PipelineBody → Prop where
  | missing : Agrees .missing .missing
  | unclosed : Agrees .unclosed .unclosed
  | closed (skipped : Nat) {inner inner' : List Text} (lines : List.Forall₂ Unseen inner inner') :
      Agrees (.closed skipped inner) (.closed skipped inner')

section

variable {ls ms : List Text} (h : List.Forall₂ Unseen ls ms)
include h

theorem any_closesBody_unseen : ls.any closesBody = ms.any closesBody := by
  induction h with
  | nil => rfl
  | cons hline _ ih => rw [List.any_cons, List.any_cons, ih, hline.braces.closes]

theorem hiddenBy_unseen {a b : Text} (hline : Unseen a b) (isOpen : Bool) :
    hiddenBy isOpen a ls = hiddenBy isOpen b ms := by
  have hany := any_closesBody_unseen h
  cases isOpen <;> simp only [hiddenBy, hline.braces.closes, hline.braces.opens, hany]

theorem untilClosed_unseen (skipped : Nat) :
    (untilClosed skipped ls).Agrees (untilClosed skipped ms) := by
  have hinner :
      List.Forall₂ Unseen (ls.takeWhile (!closesBody ·)) (ms.takeWhile (!closesBody ·)) := by
    induction h with
    | nil => exact .nil
    | @cons line line' _ _ hline _ ih =>
        rw [List.takeWhile_cons, List.takeWhile_cons, hline.braces.closes]
        split
        · exact .cons hline ih
        · exact .nil
  rw [untilClosed, untilClosed, any_closesBody_unseen h]
  split
  · exact .closed skipped hinner
  · exact .unclosed

theorem bodyBelow_unseen (skipped : Nat) :
    (bodyBelow skipped ls).Agrees (bodyBelow skipped ms) := by
  induction h generalizing skipped with
  | nil => exact .missing
  | cons hline hrest ih =>
      rw [bodyBelow, bodyBelow, hline.braces.blank, hline.braces.opens, hline.braces.closes]
      split
      · exact ih _
      · split
        · split
          · exact .closed _ .nil
          · exact untilClosed_unseen hrest _
        · exact .missing

/-- The components that are read from a body do not depend on its other lines. -/
theorem collectComponents_unseen {α : Type} {build : Nat → Text → Except Cause α} (n : Nat) :
    collectKeyword "component" build (ls.zipIdx n) =
      collectKeyword "component" build (ms.zipIdx n) := by
  have hnone : ∀ line, startsWithKeyword "component".toList line = false →
      kindOf [()] (fun _ => "component") line = none := by
    intro line hline
    simpa [kindOf_eq_none] using hline
  induction h generalizing n with
  | nil => rfl
  | cons hline _ ih =>
      have hlater := ih (n + 1)
      unfold collectKeyword at hlater ⊢
      cases hline with
      | same => rw [List.zipIdx_cons, List.zipIdx_cons, collect, collect, hlater]
      | other _ _ hcomponents =>
          rw [List.zipIdx_cons, List.zipIdx_cons, collect, collect, hlater,
            hnone _ (hcomponents _ (by simp)), hnone _ (hcomponents _ (by simp))]

theorem readChildren_unseen (header : NumberedLine) :
    readChildren header ls = readChildren header ms := by
  have hbody : (pipelineBody header.1 ls).Agrees (pipelineBody header.1 ms) := by
    unfold pipelineBody
    split
    · exact untilClosed_unseen h 0
    · exact bodyBelow_unseen h 0
  unfold readChildren
  generalize pipelineBody header.1 ls = body at hbody ⊢
  generalize pipelineBody header.1 ms = body' at hbody ⊢
  cases hbody with
  | missing => rfl
  | unclosed => rfl
  | closed skipped hlines => exact collectComponents_unseen hlines _

/-- The pipelines are the same. -/
theorem readPipelines_unseen (isOpen : Bool) (n : Nat) :
    readPipelines ((inBodyFrom isOpen ls).zip (ls.zipIdx n)) =
      readPipelines ((inBodyFrom isOpen ms).zip (ms.zipIdx n)) := by
  induction h generalizing isOpen n with
  | nil => rfl
  | @cons line line' rest rest' hline hrest ih =>
      have hflag := hiddenBy_unseen hrest hline isOpen
      have hstate := hline.braces.openAfter_eq isOpen
      rw [inBodyFrom_cons, inBodyFrom_cons, List.zipIdx_cons, List.zipIdx_cons,
        List.zip_cons_cons, List.zip_cons_cons, readPipelines, readPipelines, hflag, hstate, ih]
      simp only [map_line_zip_zipIdx (length_inBodyFrom _ _)]
      cases hline with
      | same => rw [readChildren_unseen hrest]
      | other _ hheaders _ =>
          rw [hheaders _ (by simp), hheaders _ (by simp)]
          simp only [Bool.not_false, Bool.or_true, ↓reduceIte]

end

/-! ### All passes -/

/-- The keywords of all statements but `evolve`. -/
def settledKeywords : List String :=
  ["component", "anchor", "submap"] ++ otherKeywords.erase "evolve"

theorem evolve_ne_settled : ∀ other ∈ settledKeywords,
    Token other.toList ∧ "evolve".toList ≠ other.toList := by
  decide

theorem Alike.unseen {a b : Text} (h : Alike "evolve".toList a b) : Unseen a b := by
  have hnone : ∀ other ∈ settledKeywords, ∀ line ∈ [a, b],
      startsWithKeyword other.toList line = false := by
    intro other hother line hline
    obtain ⟨htoken, hne⟩ := evolve_ne_settled other hother
    rw [List.mem_pair] at hline
    rcases hline with rfl | rfl
    · exact startsWithKeyword_of_ne h.token htoken hne h.old
    · exact startsWithKeyword_of_ne h.token htoken hne h.new
  exact .other h.braces (hnone "pipeline" (by decide)) (hnone "component" (by decide))

/-- The pass over evolutions reads one entity in place of the other, and no pass finds anything
else. -/
theorem Alike.ofLines_evolve {a b : Text} (h : Alike "evolve".toList a b) {above below : List Text}
    {old new : Evolution} (hold : readEvolution (1 + above.length) a = .ok old)
    (hnew : readEvolution (1 + above.length) b = .ok new) :
    Findings.ofLines (above ++ b :: below) =
      { Findings.ofLines (above ++ a :: below) with
        evolved := (Findings.ofLines (above ++ a :: below)).evolved.replace old new } := by
  have hevolved : (Findings.ofLines (above ++ b :: below)).evolved =
      (Findings.ofLines (above ++ a :: below)).evolved.replace old new :=
    h.collectKeyword_of_ok (fun _ _ _ => line_of_readEvolution) above below 1 hold hnew
  have helements : (Findings.ofLines (above ++ b :: below)).elements =
      (Findings.ofLines (above ++ a :: below)).elements := by
    have hlength : above.length < (inBody (above ++ a :: below)).length := by
      simp [length_inBody]
    obtain ⟨above', below', -, hmaskOld, hmaskNew⟩ :=
      maskBodies_replace_of_flag h.braces above below (List.getElem?_eq_getElem hlength)
    simp only [Findings.ofLines, hmaskOld, hmaskNew, zipIdx_append_cons]
    split
    · rfl
    · exact h.collectKeyword (evolve_ne_settled "component" (by decide)) _ _ _
  have hpipelines : (Findings.ofLines (above ++ b :: below)).pipelines =
      (Findings.ofLines (above ++ a :: below)).pipelines :=
    (readPipelines_unseen (forall₂_unseen_replace h.unseen above below) false 1).symm
  rw [h.ofLines_of_pipelines
    (fun other hmem => evolve_ne_settled other (List.mem_append_right _ hmem)) hpipelines, hevolved,
    helements, h.anchors_eq (by decide), h.submaps_eq (by decide)]

end WardleyMaps
