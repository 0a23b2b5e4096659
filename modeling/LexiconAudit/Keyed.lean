/-!
This module contains lists of pairs in which a key has one place, namely that of its first pair: fields of
objects, attributes of elements, and whatever else keeps the order in which its keys were first given.
-/

namespace LexiconAudit.Keyed

variable {κ α : Type} [DecidableEq κ]

/--
The list with the value of `key` changed: in its place if it has one, else at the end.
-/
def alter (key : κ) (change : Option α → α) : List (κ × α) → List (κ × α)
  | [] => [(key, change none)]
  | (name, value) :: rest =>
    if name = key then (name, change (some value)) :: rest else (name, value) :: alter key change rest

def set (key : κ) (value : α) (list : List (κ × α)) : List (κ × α) :=
  alter key (fun _ => value) list

theorem lookup_alter_self (key : κ) (change : Option α → α) (list : List (κ × α)) :
    (alter key change list).lookup key = some (change (list.lookup key)) := by
  induction list with
  | nil => simp [alter]
  | cons pair rest ih =>
    obtain ⟨name, value⟩ := pair
    by_cases h : name = key
    . simp [alter, h]
    . have hne : (key == name) = false := by simpa using fun heq => h heq.symm
      simp [alter, h, List.lookup_cons, hne, ih]

theorem lookup_alter_of_ne {key other : κ} (h : other ≠ key) (change : Option α → α)
    (list : List (κ × α)) : (alter key change list).lookup other = list.lookup other := by
  have hne : (other == key) = false := by simpa using h
  induction list with
  | nil => simp [alter, List.lookup_cons, hne]
  | cons pair rest ih =>
    obtain ⟨name, value⟩ := pair
    by_cases hname : name = key
    . simp [alter, hname, List.lookup_cons, hne]
    . simp [alter, hname, List.lookup_cons, ih]

theorem keys_alter (key : κ) (change : Option α → α) (list : List (κ × α)) :
    (alter key change list).map Prod.fst =
      if key ∈ list.map Prod.fst then list.map Prod.fst else list.map Prod.fst ++ [key] := by
  induction list with
  | nil => simp [alter]
  | cons pair rest ih =>
    obtain ⟨name, value⟩ := pair
    by_cases h : name = key
    . simp [alter, h]
    . have hne : key ≠ name := fun heq => h heq.symm
      simp only [alter, h, ↓reduceIte, List.map_cons, ih, List.mem_cons, hne, false_or]
      split <;> rfl

theorem nodup_keys_alter (key : κ) (change : Option α → α) {list : List (κ × α)}
    (h : (list.map Prod.fst).Nodup) : ((alter key change list).map Prod.fst).Nodup := by
  rw [keys_alter]
  split
  . exact h
  . next hmem =>
    rw [List.nodup_append]
    refine ⟨h, by simp, ?_⟩
    intro a ha b hb heq
    simp only [List.mem_singleton] at hb
    exact hmem (hb ▸ heq ▸ ha)

end LexiconAudit.Keyed
