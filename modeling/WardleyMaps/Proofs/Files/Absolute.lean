/-
Module: WardleyMaps.Proofs.Files.Absolute
Purpose: The absolute path of a file leads to the same place as the path it was made of.
Main exports: Directory.ProperName, Directory.NamedApart, Directory.resolve_absolute_unique
-/
import WardleyMaps.Proofs.Files.Directory
import WardleyMaps.Proofs.Text.Cut

namespace WardleyMaps.Directory

open Text

/-!
An absolute path is put together from the names that a path leads through, with those left out that
lead nowhere. Where names can be followed at all, they lead to the place that is left of them
(`eq_follow_of_walk`). Of this place no name leads nowhere, and none holds a slash, so that the
absolute path is taken apart into the same names again (`follow_route_absolute`). The two paths may
still differ in whether they can be followed, since one may be too long.
-/

/-- A name that leads into a folder. -/
def ProperName (name : Text) : Prop :=
  name ≠ [] ∧ name ≠ ['.'] ∧ name ≠ ['.', '.']

/-- The names of the working directory hold no slash. -/
def NamedApart (d : Directory) : Prop :=
  ∀ name ∈ d.here, '/' ∉ name

instance (d : Directory) : Decidable d.NamedApart :=
  inferInstanceAs (Decidable (∀ name ∈ d.here, '/' ∉ name))

theorem passed_of_proper {name : Text} (proper : ProperName name) (path : Path) :
    passed path name = path ++ [name] := by
  simp [passed, proper.1, proper.2.1, proper.2.2]

/-! ### Where names lead -/

/-- Names that can be followed lead to what is left of them. -/
theorem eq_foldl_of_walk {d : Directory} {here p : Path} {names : List Text}
    (found : d.walk here names = .ok p) : p = names.foldl passed here := by
  induction names generalizing here with
  | nil => exact (Except.ok.inj found).symm
  | cons name rest ih => exact ih (walk_cons_eq_ok.1 found).2

theorem eq_follow_of_walk {d : Directory} {p : Path} {names : List Text}
    (found : d.walk [] names = .ok p) : p = follow names :=
  eq_foldl_of_walk found

/-- What is left of names are those of them that lead into a folder. -/
theorem mem_foldl_passed {names : List Text} {path : Path} {name : Text}
    (mem : name ∈ names.foldl passed path) : name ∈ path ∨ name ∈ names ∧ ProperName name := by
  induction names generalizing path with
  | nil => exact .inl mem
  | cons first rest ih =>
      rw [List.foldl_cons] at mem
      rcases ih mem with before | ⟨later, proper⟩
      · rw [passed] at before
        split at before
        · exact .inl before
        · next moves =>
          split at before
          · exact .inl (path.dropLast_sublist.subset before)
          · next down =>
            rcases List.mem_append.1 before with before | own
            · exact .inl before
            · cases List.mem_singleton.1 own
              refine .inr ⟨List.mem_cons_self, ?_, ?_, down⟩ <;> simp_all
      · exact .inr ⟨List.mem_cons_of_mem first later, proper⟩

/-- Names that lead into folders are all left. -/
theorem foldl_passed_of_proper {names : List Text} (proper : ∀ name ∈ names, ProperName name)
    (path : Path) : names.foldl passed path = path ++ names := by
  induction names generalizing path with
  | nil => exact (List.append_nil path).symm
  | cons name rest ih =>
      rw [List.foldl_cons, passed_of_proper (proper name List.mem_cons_self),
        ih fun name mem => proper name (List.mem_cons_of_mem _ mem), List.append_assoc]
      rfl

/-! ### Absolute paths -/

/-- No name of a path holds a slash. -/
theorem slash_not_mem_route {d : Directory} (apart : d.NamedApart) {t name : Text}
    (mem : name ∈ d.route t) : '/' ∉ name := by
  rw [route] at mem
  split at mem
  · exact not_mem_of_mem_splitOn mem
  · rcases List.mem_append.1 mem with own | own
    · exact apart name own
    · exact not_mem_of_mem_splitOn own

/-- The names of a path behind a slash. -/
theorem names_slash (t : Text) : names ('/' :: t) = [] :: names t := by
  rw [names, names, List.splitOn_cons_eq_if_modifyHead, if_pos (beq_self_eq_true _)]

/-- What is left of the names of a path is left of those of its absolute path. -/
theorem follow_route_absolute {d : Directory} (apart : d.NamedApart) (t : Text) :
    follow (d.route (d.absolute t)) = follow (d.route t) := by
  have proper : ∀ name ∈ follow (d.route t), ProperName name ∧ '/' ∉ name := by
    intro name mem
    rcases mem_foldl_passed mem with none | ⟨own, proper⟩
    · exact absurd none List.not_mem_nil
    · exact ⟨proper, slash_not_mem_route apart own⟩
  -- Between its slashes, the absolute path has the names that are left, or nothing.
  have inner : (names (List.intercalate ['/'] (follow (d.route t)))).foldl passed [] =
      follow (d.route t) := by
    by_cases empty : follow (d.route t) = []
    · rw [empty]
      rfl
    · rw [names, List.splitOn_intercalate '/' (fun name mem => (proper name mem).2) empty,
        foldl_passed_of_proper fun name mem => (proper name mem).1]
      rfl
  have slashed (t : Text) : d.route ('/' :: t) = [] :: names t := by
    have starts : startsWith ['/'] ('/' :: t) = true := by simp [startsWith, after?]
    rw [route, if_pos starts, names_slash]
  rw [absolute, follow]
  split
  · rw [slashed, names_slash]
    exact inner
  · rw [slashed]
    exact inner

/-- A path and its absolute path lead to the same place where both of them lead somewhere. -/
theorem resolve_absolute_unique {d : Directory} (apart : d.NamedApart) {t : Text} {p q : Path}
    (leads : d.resolve t = .ok p) (leads' : d.resolve (d.absolute t) = .ok q) : q = p := by
  obtain ⟨-, -, -, walked⟩ := resolve_eq_ok.1 leads
  obtain ⟨-, -, -, walked'⟩ := resolve_eq_ok.1 leads'
  rw [eq_follow_of_walk walked, eq_follow_of_walk walked', follow_route_absolute apart]

end WardleyMaps.Directory
