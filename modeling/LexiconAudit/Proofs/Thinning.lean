import LexiconAudit.Proofs.Keyed
import Mathlib.Data.List.Forall2

/-!
This module contains lists from which some elements are left out, while the others stay in their places. What is
only asked of elements that stay has the same answer for both lists.
-/

namespace LexiconAudit

variable {α β κ ν : Type}

/--
The second list is the first one without some of its spare elements; the elements that stay are related.
-/
inductive Thinned (spare : α → Prop) (r : α → α → Prop) : List α → List α → Prop where
  | nil : Thinned spare r [] []
  | keep {x y : α} {xs ys : List α} : r x y → Thinned spare r xs ys → Thinned spare r (x :: xs) (y :: ys)
  | leave {x : α} {xs ys : List α} : spare x → Thinned spare r xs ys → Thinned spare r (x :: xs) ys

namespace Thinned

variable {spare : α → Prop} {r : α → α → Prop} {xs ys : List α}

theorem forall₂ (h : Thinned spare r xs ys) (hspare : ∀ x, ¬spare x) : List.Forall₂ r xs ys := by
  induction h with
  | nil => exact .nil
  | keep hxy _ ih => exact .cons hxy ih
  | leave hx _ _ => exact absurd hx (hspare _)

theorem filter (h : Thinned spare r xs ys) {p : α → Bool} (hspare : ∀ x, spare x → p x = false)
    (hr : ∀ x y, r x y → p x = p y) : List.Forall₂ r (xs.filter p) (ys.filter p) := by
  induction h with
  | nil => exact .nil
  | @keep x y _ _ hxy _ ih =>
    rw [List.filter_cons, List.filter_cons, hr x y hxy]
    split
    . exact .cons hxy ih
    . exact ih
  | @leave x _ _ hx _ ih =>
    rw [List.filter_cons_of_neg (by simp [hspare x hx])]
    exact ih

theorem length_filter_le (h : Thinned spare r xs ys) {p : α → Bool} (hr : ∀ x y, r x y → p x = p y) :
    (ys.filter p).length ≤ (xs.filter p).length := by
  induction h with
  | nil => exact Nat.le_refl _
  | @keep x y _ _ hxy _ ih =>
    rw [List.filter_cons, List.filter_cons, hr x y hxy]
    split
    . exact Nat.succ_le_succ ih
    . exact ih
  | leave _ _ ih => exact Nat.le_trans ih ((List.sublist_cons_self _ _).filter p).length_le

theorem filterMap (h : Thinned spare r xs ys) {f : α → Option β} (hspare : ∀ x, spare x → f x = none)
    (hr : ∀ x y, r x y → f x = f y) : xs.filterMap f = ys.filterMap f := by
  induction h with
  | nil => rfl
  | @keep x y _ _ hxy _ ih => rw [List.filterMap_cons, List.filterMap_cons, hr x y hxy, ih]
  | @leave x _ _ hx _ ih => rw [List.filterMap_cons, hspare x hx, ih]

end Thinned

theorem eq_of_rel {r : α → α → Prop} {x y : Option α} (h : Option.Rel r x y) (hr : ∀ a b, r a b → a = b) :
    x = y := by
  cases h with
  | none => rfl
  | some hab => rw [hr _ _ hab]

/-! Lists of pairs. -/

variable [DecidableEq κ] {free : κ → Prop} {r : κ → ν → ν → Prop} {fields fields' : List (κ × ν)}

/--
The second list is the first one without some pairs whose key is free; the other keys keep values that are related.
-/
def ThinnedFields (free : κ → Prop) (r : κ → ν → ν → Prop) : (fields fields' : List (κ × ν)) → Prop :=
  Thinned (fun field => free field.1) fun field field' => field.1 = field'.1 ∧ r field.1 field.2 field'.2

theorem ThinnedFields.lookup (h : ThinnedFields free r fields fields') {key : κ} (hkey : ¬free key) :
    Option.Rel (r key) (fields.lookup key) (fields'.lookup key) := by
  unfold ThinnedFields at h
  induction h with
  | nil => exact .none
  | @keep field field' _ _ hfield _ ih =>
    obtain ⟨name, value⟩ := field
    obtain ⟨name', value'⟩ := field'
    obtain ⟨rfl, hvalue⟩ := hfield
    by_cases hname : key = name
    . subst hname
      rw [List.lookup_cons_self, List.lookup_cons_self]
      exact .some hvalue
    . rw [Keyed.lookup_cons_of_ne hname, Keyed.lookup_cons_of_ne hname]
      exact ih
  | @leave field _ _ hfield _ ih =>
    have hname : key ≠ field.1 := by
      rintro rfl
      exact hkey hfield
    rw [Keyed.lookup_cons_of_ne hname]
    exact ih

end LexiconAudit
