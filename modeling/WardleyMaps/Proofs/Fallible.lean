/-
Module: WardleyMaps.Proofs.Fallible
Purpose: When computations that may end with a fault end with a value.
Main exports: bind_eq_ok, mapError_eq_ok, mapM_eq_ok_iff, exists_mapM_eq_ok_iff
-/
import Mathlib.Data.List.Forall2

namespace WardleyMaps

/-!
Reading, writing and looking up are put together from parts that may fail. The whole has a value
exactly if each part has one (`bind_eq_ok`, `mapM_eq_ok_iff`), and how a fault is told makes no
difference to that (`mapError_eq_ok`).
-/

variable {ε ε' α β : Type}

/-- How a fault is told makes no difference where there is none. -/
theorem mapError_eq_ok {x : Except ε α} {f : ε → ε'} {a : α} :
    x.mapError f = .ok a ↔ x = .ok a := by
  cases x with
  | error e => constructor <;> (intro h; cases h)
  | ok b => constructor <;> (intro h; cases h; rfl)

/-- A computation in two parts succeeds when both do. -/
theorem bind_eq_ok {x : Except ε α} {f : α → Except ε β} {b : β} :
    (x >>= f) = .ok b ↔ ∃ a, x = .ok a ∧ f a = .ok b := by
  cases x <;> simp [bind, Except.bind]

theorem exists_of_mapM_eq_ok {f : α → Except ε β} {l : List α} {bs : List β}
    (h : l.mapM f = .ok bs) : ∀ a ∈ l, ∃ b, f a = .ok b := by
  induction l generalizing bs with
  | nil => simp
  | cons head rest ih =>
      rw [List.mapM_cons] at h
      obtain ⟨b, hb, hrest⟩ := bind_eq_ok.1 h
      obtain ⟨others, hothers, -⟩ := bind_eq_ok.1 hrest
      exact List.forall_mem_cons.2 ⟨⟨b, hb⟩, ih hothers⟩

/-- A list is converted exactly if each of its entries is. -/
theorem exists_mapM_eq_ok_iff {f : α → Except ε β} {l : List α} :
    (∃ bs, l.mapM f = .ok bs) ↔ ∀ a ∈ l, ∃ b, f a = .ok b := by
  refine ⟨fun ⟨_, all⟩ => exists_of_mapM_eq_ok all, ?_⟩
  induction l with
  | nil => exact fun _ => ⟨[], rfl⟩
  | cons head rest ih =>
      intro each
      obtain ⟨b, first⟩ := each head List.mem_cons_self
      obtain ⟨bs, others⟩ := ih fun a mem => each a (List.mem_cons_of_mem _ mem)
      refine ⟨b :: bs, ?_⟩
      rw [List.mapM_cons, first, others]
      rfl

/-- Lists are converted entry by entry. -/
theorem mapM_eq_ok_iff {f : α → Except ε β} {l : List α} {bs : List β} :
    l.mapM f = .ok bs ↔ List.Forall₂ (fun a b => f a = .ok b) l bs := by
  induction l generalizing bs with
  | nil =>
      rw [List.mapM_nil, List.forall₂_nil_left_iff]
      exact ⟨fun h => (Except.ok.inj h).symm, fun h => h ▸ rfl⟩
  | cons head rest ih =>
      rw [List.mapM_cons, bind_eq_ok, List.forall₂_cons_left_iff]
      constructor
      · rintro ⟨first, hfirst, hrest⟩
        obtain ⟨others, hothers, heq⟩ := bind_eq_ok.1 hrest
        cases heq
        exact ⟨first, others, hfirst, ih.1 hothers, rfl⟩
      · rintro ⟨first, others, hfirst, hothers, rfl⟩
        exact ⟨first, hfirst, bind_eq_ok.2 ⟨others, ih.2 hothers, rfl⟩⟩

theorem exists_mem_of_mapM_eq_ok {f : α → Except ε β} {l : List α} {bs : List β}
    (h : l.mapM f = .ok bs) : ∀ b ∈ bs, ∃ a ∈ l, f a = .ok b := by
  induction l generalizing bs with
  | nil =>
      intro b hb
      cases h
      cases hb
  | cons head rest ih =>
      rw [List.mapM_cons] at h
      obtain ⟨first, hfirst, hrest⟩ := bind_eq_ok.1 h
      obtain ⟨others, hothers, heq⟩ := bind_eq_ok.1 hrest
      cases heq
      intro b hb
      rcases List.mem_cons.1 hb with rfl | hb
      · exact ⟨head, List.mem_cons_self, hfirst⟩
      · obtain ⟨a, ha, hab⟩ := ih hothers b hb
        exact ⟨a, List.mem_cons_of_mem _ ha, hab⟩

end WardleyMaps
