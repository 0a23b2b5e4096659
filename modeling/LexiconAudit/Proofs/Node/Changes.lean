import LexiconAudit.Node.Basic
import LexiconAudit.Proofs.Keyed

/-!
This module contains elements that are made by a run of changes: settings of attributes and of the text, and
children that are put behind the others. An attribute keeps the place of its first setting and has the value of
its last, and settings of attributes make no difference to the children and the text.
-/

namespace LexiconAudit.Node

inductive Change where
  | setAttribute (name value : String)
  | addChild (child : Node)
  | addChildren (children : List Node)
  | setText (text : String)

namespace Change

def apply (node : Node) : Change → Node
  | setAttribute name value => node.setAttribute name value
  | addChild child => node.addChild child
  | addChildren children => node.addChildren children
  | setText text => node.setText text

def setting? : Change → Option (String × String)
  | setAttribute name value => some (name, value)
  | _ => none

variable {change : Change}

theorem eq_setAttribute {name value : String} (h : change.setting? = some (name, value)) :
    change = setAttribute name value := by
  cases change <;> cases h
  rfl

theorem apply_withAttributes (h : change.setting? = none) (node : Node) (attributes : List (String × String)) :
    change.apply { node with attributes } = { change.apply node with attributes } := by
  cases change <;> first | rfl | cases h

end Change

def settings (changes : List Change) : List (String × String) :=
  changes.filterMap Change.setting?

def otherChanges (changes : List Change) : List Change :=
  changes.filter fun change => change.setting?.isNone

theorem mem_settings_iff {changes : List Change} {name value : String} :
    (name, value) ∈ settings changes ↔ Change.setAttribute name value ∈ changes := by
  rw [settings, List.mem_filterMap]
  constructor
  . rintro ⟨change, hmem, hsetting⟩
    exact Change.eq_setAttribute hsetting ▸ hmem
  . intro hmem
    exact ⟨_, hmem, rfl⟩

def made (name : String) (changes : List Change) : Node :=
  changes.foldl Change.apply { name }

theorem made_append_singleton (name : String) (changes : List Change) (change : Change) :
    made name (changes ++ [change]) = change.apply (made name changes) := by
  rw [made, List.foldl_append]
  rfl

def attributesAfter (settings : List (String × String)) : List (String × String) :=
  Keyed.run Prod.fst (fun setting _ => setting.2) settings

theorem made_eq (name : String) (changes : List Change) : made name changes =
    { made name (otherChanges changes) with attributes := attributesAfter (settings changes) } := by
  induction changes using List.reverseRecOn with
  | nil => rfl
  | append_singleton changes change ih =>
    have hothers : otherChanges (changes ++ [change]) = otherChanges changes ++ otherChanges [change] :=
      List.filter_append ..
    have hsettings : settings (changes ++ [change]) = settings changes ++ settings [change] :=
      List.filterMap_append ..
    rw [made_append_singleton, ih, hothers, hsettings]
    cases hsetting : change.setting? with
    | some setting =>
      cases Change.eq_setAttribute hsetting
      have hnone : otherChanges [Change.setAttribute setting.1 setting.2] = [] := rfl
      have hself : settings [Change.setAttribute setting.1 setting.2] = [setting] := rfl
      rw [hnone, hself, List.append_nil, attributesAfter, attributesAfter, Keyed.run_append_singleton]
      rfl
    | none =>
      have hother : otherChanges [change] = [change] := List.filter_eq_self.2 (by simp [hsetting])
      have hnone : settings [change] = [] := List.filterMap_eq_nil_iff.2 (by simp [hsetting])
      rw [Change.apply_withAttributes hsetting, hother, hnone, List.append_nil, made_append_singleton]

theorem attribute?_made (name : String) (changes : List Change) (key : String) :
    (made name changes).attribute? key = (settings changes).reverse.lookup key := by
  rw [made_eq]
  change (attributesAfter (settings changes)).lookup key = _
  rw [attributesAfter, Keyed.lookup_run_const, List.map_id']

/--
After any changes, each attribute that was set is there once, in the order of the first settings, with the value of its
last setting, which is also what is found under its name; under other names nothing is found. The children and the
text are what the other changes make of them.
-/
theorem attributes_made (name : String) (changes : List Change) :
    Keyed.IsLatest (settings changes) (made name changes).attributes ∧
      (∀ key, (made name changes).attribute? key = (settings changes).reverse.lookup key) ∧
      (∀ key, (made name changes).attribute? key = none ↔ ∀ value, Change.setAttribute key value ∉ changes) ∧
      (made name changes).children = (made name (otherChanges changes)).children ∧
      (made name changes).text = (made name (otherChanges changes)).text := by
  refine ⟨?_, attribute?_made name changes, fun key => ?_, ?_, ?_⟩
  . have hlatest := Keyed.isLatest_run Prod.fst Prod.snd (settings changes)
    rw [List.map_id'] at hlatest
    rw [made_eq]
    exact hlatest
  . rw [attribute?_made, List.lookup_eq_none_iff]
    constructor
    . intro h value hmem
      simpa using h (key, value) (List.mem_reverse.2 (mem_settings_iff.2 hmem))
    . rintro h ⟨other, value⟩ hmem
      rw [bne_iff_ne]
      rintro rfl
      exact h value (mem_settings_iff.1 (List.mem_reverse.1 hmem))
  . rw [made_eq]
  . rw [made_eq]

example : (made "annotation" [.setAttribute "class" "question", .setText "", .setAttribute "ref" "label=A",
    .setAttribute "class" "note"]).attributes = [("class", "note"), ("ref", "label=A")] := by
  decide

end LexiconAudit.Node
