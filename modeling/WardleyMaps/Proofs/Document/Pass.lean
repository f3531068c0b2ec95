/-
Module: WardleyMaps.Proofs.Document.Pass
Purpose: What one pass over numbered lines gathers.
Main exports: collect_eq, mem_items_collect, mem_problems_collect, exists_line_of_item,
  exists_line_of_problem, mem_problems_collect_zipIdx, sublist_problems_collect, bareLines,
  Document.read_eq_ok
-/
import WardleyMaps.Document.Read
import WardleyMaps.Proofs.Fallible

namespace WardleyMaps

open Text

/-!
A pass looks at each line on its own (`collect_eq`): its items and problems come from the lines that
it recognises, in the order of these lines (`sublist_problems_collect`). A line that it does not
recognise may be replaced by another such line (`collect_replace_of_none`).
-/

/-! ### One pass -/

variable {α κ : Type}

/-- The item that a pass makes of a line, if it recognises the line and can read it. -/
def itemOn (accept : Text → Option κ) (build : κ → Nat → Text → Except Cause α)
    (p : NumberedLine) : Option α :=
  (accept p.1).bind fun kind => (build kind p.2 p.1).toOption

/-- The problem that a pass has with a line, if it recognises the line and cannot read it. -/
def problemOn (accept : Text → Option κ) (build : κ → Nat → Text → Except Cause α)
    (p : NumberedLine) : Option Problem :=
  (accept p.1).bind fun kind =>
    match build kind p.2 p.1 with
    | .ok _ => none
    | .error cause => some { line := p.2, cause }

variable {accept : Text → Option κ} {build : κ → Nat → Text → Except Cause α}

/-- A pass gathers line by line. -/
theorem collect_eq (ls : List NumberedLine) :
    collect accept build ls =
      { items := ls.filterMap (itemOn accept build)
        problems := ls.filterMap (problemOn accept build) } := by
  induction ls with
  | nil => rfl
  | cons head rest ih =>
      obtain ⟨line, number⟩ := head
      rw [collect, ih]
      cases haccept : accept line with
      | none => simp [itemOn, problemOn, haccept]
      | some kind =>
          cases hbuild : build kind number line <;>
            simp [itemOn, problemOn, haccept, hbuild, Except.toOption]

theorem itemOn_eq_some {p : NumberedLine} {item : α} :
    itemOn accept build p = some item ↔
      ∃ kind, accept p.1 = some kind ∧ build kind p.2 p.1 = .ok item := by
  simp only [itemOn, Option.bind_eq_some_iff]
  constructor
  · rintro ⟨kind, haccept, hbuild⟩
    refine ⟨kind, haccept, ?_⟩
    cases h : build kind p.2 p.1 <;> simp [h, Except.toOption] at hbuild
    rw [hbuild]
  · rintro ⟨kind, haccept, hbuild⟩
    exact ⟨kind, haccept, by simp [hbuild, Except.toOption]⟩

theorem problemOn_eq_some {p : NumberedLine} {problem : Problem} :
    problemOn accept build p = some problem ↔
      ∃ kind, accept p.1 = some kind ∧ build kind p.2 p.1 = .error problem.cause ∧
        problem.line = p.2 := by
  simp only [problemOn, Option.bind_eq_some_iff]
  constructor
  · rintro ⟨kind, haccept, hbuild⟩
    refine ⟨kind, haccept, ?_⟩
    cases h : build kind p.2 p.1 <;> simp [h] at hbuild
    simp [← hbuild]
  · rintro ⟨kind, haccept, hbuild, hline⟩
    exact ⟨kind, haccept, by rw [hbuild]; simp [← hline]⟩

theorem mem_items_collect {ls : List NumberedLine} {item : α} :
    item ∈ (collect accept build ls).items ↔
      ∃ p ∈ ls, ∃ kind, accept p.1 = some kind ∧ build kind p.2 p.1 = .ok item := by
  simp only [collect_eq, List.mem_filterMap, itemOn_eq_some]

theorem mem_problems_collect {ls : List NumberedLine} {problem : Problem} :
    problem ∈ (collect accept build ls).problems ↔
      ∃ p ∈ ls, ∃ kind, accept p.1 = some kind ∧ build kind p.2 p.1 = .error problem.cause ∧
        problem.line = p.2 := by
  simp only [collect_eq, List.mem_filterMap, problemOn_eq_some]

/-- The numbers of the problems come in the order of the lines, each at most once. -/
theorem sublist_problems_collect (ls : List NumberedLine) :
    ((collect accept build ls).problems.map (·.line)).Sublist (ls.map Prod.snd) := by
  rw [collect_eq]
  induction ls with
  | nil => exact List.Sublist.slnil
  | cons head rest ih =>
      cases h : problemOn accept build head with
      | none =>
          rw [List.filterMap_cons_none h]
          exact ih.cons _
      | some problem =>
          obtain ⟨kind, -, -, hline⟩ := problemOn_eq_some.1 h
          simp only [List.filterMap_cons_some h, List.map_cons, hline]
          exact ih.cons_cons _

/-! ### The lines of a document -/

/-- An item of a pass over all lines is read from the line with a number. -/
theorem exists_line_of_item {ls : List Text} {item : α}
    (h : item ∈ (collect accept build (ls.zipIdx 1)).items) :
    ∃ i line kind, ls[i]? = some line ∧ accept line = some kind ∧
      build kind (i + 1) line = .ok item := by
  obtain ⟨⟨line, number⟩, hp, kind, haccept, hbuild⟩ := mem_items_collect.1 h
  rw [List.mk_mem_zipIdx_iff_le_and_getElem?_sub] at hp
  refine ⟨number - 1, line, kind, hp.2, haccept, ?_⟩
  rw [Nat.sub_add_cancel hp.1]
  exact hbuild

/-- A problem of a pass over all lines is one of the line with its number. -/
theorem exists_line_of_problem {ls : List Text} {problem : Problem}
    (h : problem ∈ (collect accept build (ls.zipIdx 1)).problems) :
    ∃ i line kind, problem.line = i + 1 ∧ ls[i]? = some line ∧ accept line = some kind ∧
      build kind (i + 1) line = .error problem.cause := by
  obtain ⟨⟨line, number⟩, hp, kind, haccept, hbuild, hnumber⟩ := mem_problems_collect.1 h
  rw [List.mk_mem_zipIdx_iff_le_and_getElem?_sub] at hp
  have hnumber' : number - 1 + 1 = number := Nat.sub_add_cancel hp.1
  exact ⟨number - 1, line, kind, by rw [hnumber, hnumber'], hp.2, haccept, by rw [hnumber', hbuild]⟩

/-- The problems of a pass over all lines are those of the lines that it recognises. -/
theorem mem_problems_collect_zipIdx {ls : List Text} {problem : Problem} :
    problem ∈ (collect accept build (ls.zipIdx 1)).problems ↔
      ∃ i line kind, problem.line = i + 1 ∧ ls[i]? = some line ∧ accept line = some kind ∧
        build kind (i + 1) line = .error problem.cause := by
  refine ⟨exists_line_of_problem, ?_⟩
  rintro ⟨i, line, kind, number, atLine, recognised, refused⟩
  refine mem_problems_collect.2 ⟨(line, i + 1), ?_, kind, recognised, refused, number⟩
  exact List.mk_mem_zipIdx_iff_le_and_getElem?_sub.2 ⟨by omega, by simpa using atLine⟩

/-- A line that a pass over all lines recognises gives an item or is a problem. -/
theorem item_or_problem {ls : List Text} {i : Nat} {line : Text} {kind : κ}
    (hline : ls[i]? = some line) (haccept : accept line = some kind) :
    (∃ item ∈ (collect accept build (ls.zipIdx 1)).items, build kind (i + 1) line = .ok item) ∨
      ∃ problem ∈ (collect accept build (ls.zipIdx 1)).problems, problem.line = i + 1 := by
  have hmem : (line, i + 1) ∈ ls.zipIdx 1 :=
    List.mk_mem_zipIdx_iff_le_and_getElem?_sub.2 ⟨by omega, by simpa using hline⟩
  cases hbuild : build kind (i + 1) line with
  | ok item =>
      exact .inl ⟨item, mem_items_collect.2 ⟨_, hmem, kind, haccept, hbuild⟩, rfl⟩
  | error cause =>
      exact .inr ⟨⟨i + 1, cause⟩,
        mem_problems_collect.2 ⟨_, hmem, kind, haccept, hbuild, rfl⟩, rfl⟩

/-- The problems of a pass over all lines come from different lines. -/
theorem nodup_lines_collect (ls : List Text) :
    ((collect accept build (ls.zipIdx 1)).problems.map (·.line)).Nodup := by
  refine List.Nodup.sublist (sublist_problems_collect _) ?_
  rw [List.zipIdx_map_snd]
  exact List.nodup_range'

/-- The lines of a source without their comments. -/
def bareLines (source : Text) : List Text :=
  stripLines false (lines source)

theorem Document.read_eq_ok {source : Text} {doc : Document} :
    Document.read source = .ok doc ↔
      ∃ annotations,
        (Findings.ofLines (bareLines source)).drafts.items.mapM AnnotationDraft.settle =
          .ok annotations ∧
        doc = (Findings.ofLines (bareLines source)).document annotations := by
  simp only [Document.read, bind_eq_ok, Except.ok.injEq, bareLines]
  exact ⟨fun ⟨a, h, heq⟩ => ⟨a, h, heq.symm⟩, fun ⟨a, h, heq⟩ => ⟨a, h, heq.symm⟩⟩

/-! ### Flags and numbers -/

/-- Lines with flags and numbers are numbered lines. -/
theorem map_snd_zip_zipIdx {flags : List Bool} {ls : List Text} (hlen : flags.length = ls.length)
    (n : Nat) : (flags.zip (ls.zipIdx n)).map Prod.snd = ls.zipIdx n :=
  List.map_snd_zip (by simp [hlen])

/-- Lines with flags and numbers, without both. -/
theorem map_line_zip_zipIdx {flags : List Bool} {ls : List Text} (hlen : flags.length = ls.length)
    (n : Nat) : (flags.zip (ls.zipIdx n)).map (fun (_, line, _) => line) = ls := by
  calc (flags.zip (ls.zipIdx n)).map (fun (_, line, _) => line)
      = ((flags.zip (ls.zipIdx n)).map Prod.snd).map Prod.fst := by
        rw [List.map_map]
        rfl
    _ = ls := by rw [map_snd_zip_zipIdx hlen, List.zipIdx_map_fst]

/-! ### Other lines, the same pass -/

/-- A pass does not see the difference between two lines that it does not recognise. -/
theorem collect_replace_of_none {a b : Text} (ha : accept a = none) (hb : accept b = none)
    (above below : List NumberedLine) (number : Nat) :
    collect accept build (above ++ (a, number) :: below) =
      collect accept build (above ++ (b, number) :: below) := by
  simp [collect_eq, itemOn, problemOn, ha, hb]

/-- A pass gathers one item from a line that it recognises and can read. -/
theorem collect_of_ok {line : Text} {number : Nat} {kind : κ} {item : α}
    (h : accept line = some kind) (hbuild : build kind number line = .ok item)
    (above below : List NumberedLine) :
    collect accept build (above ++ (line, number) :: below) =
      { items := (collect accept build above).items ++ item :: (collect accept build below).items
        problems :=
          (collect accept build above).problems ++ (collect accept build below).problems } := by
  simp [collect_eq, itemOn, problemOn, h, hbuild, Except.toOption]

end WardleyMaps
