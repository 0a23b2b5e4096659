import LexiconAudit.Keyed
import Mathlib.Data.List.Induction

/-!
This module contains what looking up and setting keys gives in a list of pairs whose keys are all different, and
what a run of changes leaves: each key at the place of its first change, with a value that only the changes to
this key decide.
-/

namespace LexiconAudit.Keyed

variable {κ α : Type} [DecidableEq κ]

theorem lookup_cons_of_ne {key other : κ} (h : key ≠ other) {value : α} {list : List (κ × α)} :
    ((other, value) :: list).lookup key = list.lookup key := by
  rw [List.lookup_cons, beq_false_of_ne h]

theorem lookup_of_mem {key : κ} {value : α} {list : List (κ × α)} (h : (list.map Prod.fst).Nodup)
    (hmem : (key, value) ∈ list) : list.lookup key = some value := by
  induction list with
  | nil => cases hmem
  | cons pair list ih =>
    obtain ⟨other, value'⟩ := pair
    rw [List.map_cons, List.nodup_cons] at h
    rcases List.mem_cons.1 hmem with heq | hrest
    . cases heq
      rw [List.lookup_cons_self]
    . have hne : key ≠ other := by
        rintro rfl
        exact h.1 (List.mem_map.2 ⟨(key, value), hrest, rfl⟩)
      rw [lookup_cons_of_ne hne, ih h.2 hrest]

theorem mem_of_lookup {key : κ} {value : α} {list : List (κ × α)} (h : list.lookup key = some value) :
    (key, value) ∈ list := by
  obtain ⟨before, behind, rfl, -⟩ := List.lookup_eq_some_iff.1 h
  exact List.mem_append_right _ List.mem_cons_self

theorem set_of_not_mem {key : κ} {value : α} {list : List (κ × α)}
    (h : key ∉ list.map Prod.fst) : set key value list = list ++ [(key, value)] := by
  induction list with
  | nil => rfl
  | cons pair list ih =>
    rw [List.map_cons, List.mem_cons, not_or] at h
    change (if pair.1 = key then _ else pair :: set key value list) = _
    rw [if_neg (Ne.symm h.1), ih h.2]
    rfl

theorem foldl_set_of_nodup (before : List (κ × α)) {more : List (κ × α)}
    (h : ((before ++ more).map Prod.fst).Nodup) :
    more.foldl (fun list pair => set pair.1 pair.2 list) before = before ++ more := by
  induction more generalizing before with
  | nil => rw [List.foldl_nil, List.append_nil]
  | cons pair more ih =>
    have hfresh : pair.1 ∉ before.map Prod.fst := by
      rw [List.map_append, List.nodup_append] at h
      intro hmem
      exact h.2.2 pair.1 hmem pair.1 List.mem_cons_self rfl
    rw [List.foldl_cons, set_of_not_mem hfresh, ih]
    . simp
    . simpa using h

/-! Runs of changes. -/

section Run

variable {σ : Type} (key : σ → κ) (change : σ → Option α → α)

def run (steps : List σ) : List (κ × α) :=
  steps.foldl (fun list step => alter (key step) (change step) list) []

theorem run_append_singleton (steps : List σ) (step : σ) :
    run key change (steps ++ [step]) = alter (key step) (change step) (run key change steps) := by
  rw [run, List.foldl_append]
  rfl

theorem keys_run (steps : List σ) :
    (run key change steps).map Prod.fst = (steps.map key).eraseDups := by
  induction steps using List.reverseRecOn with
  | nil => rfl
  | append_singleton steps step ih =>
    rw [run_append_singleton, keys_alter, ih, List.map_append, List.eraseDups_append, List.map_singleton,
      List.removeAll, List.filter_cons, List.filter_nil, List.elem_eq_mem]
    by_cases hmem : key step ∈ steps.map key
    . rw [if_pos (List.mem_eraseDups.2 hmem), decide_eq_true hmem]
      exact (List.append_nil _).symm
    . rw [if_neg (mt List.mem_eraseDups.1 hmem), decide_eq_false hmem]
      rfl

theorem nodup_keys_run (steps : List σ) : ((run key change steps).map Prod.fst).Nodup := by
  induction steps using List.reverseRecOn with
  | nil => exact List.nodup_nil
  | append_singleton steps step ih =>
    rw [run_append_singleton]
    exact nodup_keys_alter _ _ ih

theorem lookup_run (steps : List σ) (other : κ) :
    (run key change steps).lookup other =
      (steps.filter fun step => key step = other).foldl (fun value step => some (change step value)) none := by
  induction steps using List.reverseRecOn with
  | nil => rfl
  | append_singleton steps step ih =>
    rw [run_append_singleton, List.filter_append, List.foldl_append, ← ih]
    by_cases hkey : key step = other
    . subst hkey
      simp [lookup_alter_self]
    . simp [lookup_alter_of_ne (Ne.symm hkey), hkey]

variable (value : σ → α)

theorem lookup_run_const (steps : List σ) (other : κ) :
    (run key (fun step _ => value step) steps).lookup other =
      (steps.map fun step => (key step, value step)).reverse.lookup other := by
  induction steps using List.reverseRecOn with
  | nil => rfl
  | append_singleton steps step ih =>
    rw [run_append_singleton, List.map_append, List.reverse_append]
    by_cases hkey : other = key step
    . subst hkey
      rw [lookup_alter_self]
      exact (List.lookup_cons_self ..).symm
    . rw [lookup_alter_of_ne hkey, ih]
      exact (lookup_cons_of_ne hkey).symm

/--
What is left of settings of keys: each key once, in the order of the first settings, with the value of its last.
-/
structure IsLatest (settings list : List (κ × α)) : Prop where
  keys_eq : list.map Prod.fst = (settings.map Prod.fst).eraseDups
  nodup_keys : (list.map Prod.fst).Nodup
  value_eq : ∀ pair ∈ list, settings.reverse.lookup pair.1 = some pair.2

theorem isLatest_run (steps : List σ) :
    IsLatest (steps.map fun step => (key step, value step)) (run key (fun step _ => value step) steps) where
  keys_eq := by
    rw [keys_run, List.map_map]
    rfl
  nodup_keys := nodup_keys_run _ _ steps
  value_eq pair hpair := by
    rw [← lookup_run_const]
    exact lookup_of_mem (nodup_keys_run _ _ steps) hpair

end Run

end LexiconAudit.Keyed
