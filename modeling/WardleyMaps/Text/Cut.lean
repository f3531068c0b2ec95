/-
Module: WardleyMaps.Text.Cut
Purpose: Finding a piece of text inside another and cutting there.
Main exports: Text.after?, Text.cut, Text.cutAt, Text.pieces, Text.findEdge, Text.lines
-/
import WardleyMaps.Text.Word

namespace WardleyMaps.Text

/-!
Cutting returns what stands before and after the place that was found, so that a statement is taken
apart without positions: the two parts and the mark between them make up the text again
(`cut_eq_some`, `cutAt_eq_some`).
-/

/-- What follows a given beginning, none when the text begins otherwise. -/
def after? : Text → Text → Option Text
  | [], t => some t
  | _ :: _, [] => none
  | p :: ps, c :: cs => if p = c then after? ps cs else none

/-- Whether a text begins with another. -/
def startsWith (start t : Text) : Bool :=
  (after? start t).isSome

/-- What stands before and after the first occurrence of a piece of text. -/
def cut (mark : Text) : Text → Option (Text × Text)
  | [] => (after? mark []).map fun rest => ([], rest)
  | c :: cs =>
      match after? mark (c :: cs) with
      | some rest => some ([], rest)
      | none => (cut mark cs).map fun parts => (c :: parts.1, parts.2)

/-- Whether a piece of text occurs in another. -/
def occurs (mark t : Text) : Bool :=
  (cut mark t).isSome

/-- What stands before and after the first occurrence of a character. -/
def cutAt (mark : Char) : Text → Option (Text × Text)
  | [] => none
  | c :: cs =>
      if c = mark then some ([], cs)
      else (cutAt mark cs).map fun parts => (c :: parts.1, parts.2)

theorem after?_eq_some {start t rest : Text} : after? start t = some rest ↔ t = start ++ rest := by
  induction start generalizing t with
  | nil => simp [after?, eq_comm]
  | cons p ps ih =>
    cases t with
    | nil => simp [after?]
    | cons c cs =>
      by_cases h : p = c
      · subst h
        simp [after?, ih]
      · simp [after?, h, Ne.symm h]

theorem after?_append (start rest : Text) : after? start (start ++ rest) = some rest :=
  after?_eq_some.2 rfl

/-- The parts and the mark make up the text again. -/
theorem cut_eq_some {mark t before rest : Text} (h : cut mark t = some (before, rest)) :
    t = before ++ mark ++ rest := by
  induction t generalizing before with
  | nil =>
    simp only [cut, Option.map_eq_some_iff, Prod.mk.injEq] at h
    obtain ⟨r, hr, rfl, rfl⟩ := h
    simpa using after?_eq_some.1 hr
  | cons c cs ih =>
    rw [cut] at h
    split at h
    · next r hr =>
      obtain ⟨rfl, rfl⟩ := Prod.mk.inj (Option.some.inj h)
      simpa using after?_eq_some.1 hr
    · simp only [Option.map_eq_some_iff, Prod.exists, Prod.mk.injEq] at h
      obtain ⟨b, r, hbr, rfl, rfl⟩ := h
      simpa using ih hbr

/-- The parts and the mark make up the text again, and the mark is not in the part before it. -/
theorem cutAt_eq_some {mark : Char} {t before rest : Text}
    (h : cutAt mark t = some (before, rest)) :
    t = before ++ mark :: rest ∧ mark ∉ before := by
  induction t generalizing before with
  | nil => simp [cutAt] at h
  | cons c cs ih =>
    rw [cutAt] at h
    split at h
    · next hc =>
      obtain ⟨rfl, rfl⟩ := Prod.mk.inj (Option.some.inj h)
      simp [hc]
    · next hc =>
      simp only [Option.map_eq_some_iff, Prod.exists, Prod.mk.injEq] at h
      obtain ⟨b, r, hbr, rfl, rfl⟩ := h
      obtain ⟨rfl, hb⟩ := ih hbr
      exact ⟨rfl, by simp [Ne.symm hc, hb]⟩

/-- What remains after a mark is shorter than the text that was cut. -/
theorem length_lt_of_cut {mark t before rest : Text} (hm : mark ≠ [])
    (h : cut mark t = some (before, rest)) : rest.length < t.length := by
  have hlen := congrArg List.length (cut_eq_some h)
  have := List.length_pos_iff.2 hm
  simp at hlen
  omega

/-- The pieces between the occurrences of a mark, found from left to right. -/
def pieces (mark : Text) (nonempty : mark ≠ []) (t : Text) : List Text :=
  match h : cut mark t with
  | none => [t]
  | some (before, rest) =>
      have : rest.length < t.length := length_lt_of_cut nonempty h
      before :: pieces mark nonempty rest
termination_by t.length

/-- What `accept` makes of a text at the first place where it agrees. -/
def findPlace {α : Type} (accept : Text → Option α) : Text → Option α
  | [] => none
  | c :: cs =>
      match accept (c :: cs) with
      | some found => some found
      | none => findPlace accept cs

/-- What `accept` makes of a text at the first place where it agrees and that follows no word
character. The flag tells that the character before the text is one. -/
def findEdge {α : Type} (accept : Text → Option α) : Bool → Text → Option α
  | _, [] => none
  | joined, c :: cs =>
      match if joined then none else accept (c :: cs) with
      | some found => some found
      | none => findEdge accept (isWord c) cs

/-- What `accept` makes of the text after a keyword, at the first place where the keyword begins a
word and `accept` agrees. -/
def findWord {α : Type} (keyword : Text) (accept : Text → Option α) (t : Text) : Option α :=
  findEdge (fun here => (after? keyword here).bind accept) false t

/-- The lines of a text; a newline ends each of them but the last. -/
def lines (t : Text) : List Text :=
  t.splitOn '\n'

/-- The text of which these are the lines. -/
def unlines (ls : List Text) : Text :=
  List.intercalate ['\n'] ls

end WardleyMaps.Text
