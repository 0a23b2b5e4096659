import LexiconAudit.Proofs.Keyed
import LexiconAudit.Proofs.Xml.Writable
import LexiconAudit.Xml.Building
import Mathlib.Data.List.Nodup

/-!
This module contains what happens to the tree under construction at the tags of elements that were written
from a tree: no namespaces are in scope, and an element that is closed is the normal form of what was written.
-/

namespace LexiconAudit.Xml

def resolved (attributes : List (String × String)) : List (QName × List Char) :=
  attributes.map fun pair => (⟨[], pair.1.toList⟩, pair.2.toList)

theorem resolve?_resolved {attributes : List (String × String)} (h : (attributes.map Prod.fst).Nodup) :
    Building.resolve? [] (resolved attributes) = some attributes := by
  have hkeys {key : QName × List Char → Option (Option (List Char) × List Char)}
      (hkey : ∀ pair : String × String, key (⟨[], pair.1.toList⟩, pair.2.toList) = some (none, pair.1.toList)) :
      (resolved attributes).mapM key = some (attributes.map fun pair => (none, pair.1.toList)) := by
    clear h
    induction attributes with
    | nil => rfl
    | cons pair attributes ih =>
      rw [resolved, List.map_cons, List.mapM_cons, ← resolved, ih, hkey]
      rfl
  have hnodup : (attributes.map fun pair => ((none : Option (List Char)), pair.1.toList)).Nodup := by
    have hinjective : Function.Injective fun name : String => ((none : Option (List Char)), name.toList) := by
      intro name name' heq
      exact String.toList_inj.1 (Prod.mk.inj heq).2
    have := List.Nodup.map hinjective h
    rwa [List.map_map] at this
  unfold Building.resolve?
  rw [hkeys fun _ => rfl]
  change (if _ then some _ else none) = _
  rw [if_pos hnodup, resolved, List.foldl_map]
  simp only [String.ofList_toList]
  exact congrArg some (Keyed.foldl_set_of_nodup [] h)

def within (stack : List OpenElement) : Building :=
  { stack, tagSeen := true }

def opened (node : Node) : OpenElement where
  name := ⟨[], node.name.toList⟩
  attributes := node.attributes
  scope := []

theorem scope_within {stack : List OpenElement} (h : ∀ e ∈ stack, e.scope = []) :
    (within stack).scope = [] := by
  cases stack with
  | nil => rfl
  | cons e stack =>
    change [] ++ e.scope.filter _ = []
    rw [h e List.mem_cons_self]
    rfl

section Stack

variable {stack : List OpenElement} (hstack : ∀ e ∈ stack, e.scope = [])

include hstack

theorem element?_within {node : Node} (h : (node.attributes.map Prod.fst).Nodup) :
    { within stack with attributes := resolved node.attributes }.element? ⟨[], node.name.toList⟩ =
      some (opened node) := by
  have hscope : { within stack with attributes := resolved node.attributes }.scope = [] := scope_within hstack
  unfold Building.element?
  rw [hscope]
  change (Building.resolve? [] (resolved node.attributes)).bind _ = _
  rw [resolve?_resolved h]
  rfl

theorem openElement?_opened {node : Node} (h : (node.attributes.map Prod.fst).Nodup) :
    { within stack with attributes := resolved node.attributes }.openElement? ⟨[], node.name.toList⟩ .opened =
      some (within (opened node :: stack)) := by
  rw [Building.openElement?, element?_within hstack h]
  rfl

theorem openElement?_closed {node : Node} (h : (node.attributes.map Prod.fst).Nodup) :
    { within stack with attributes := resolved node.attributes }.openElement? ⟨[], node.name.toList⟩ .closed =
      some ((within stack).addNode (opened node).toNode) := by
  rw [Building.openElement?, element?_within hstack h]
  rfl

theorem closeElement?_within {e : OpenElement} (hscope : e.scope = []) :
    (within (e :: stack)).closeElement? e.name = some ((within stack).addNode e.toNode) := by
  have hresolve : Building.resolve? (within (e :: stack)).scope (within (e :: stack)).attributes = some [] := by
    rw [scope_within (List.forall_mem_cons.2 ⟨hscope, hstack⟩)]
    rfl
  unfold Building.closeElement?
  change (if (within (e :: stack)).tagSeen ∧ _ ∧ _ then _ else _) = _
  rw [hresolve, if_pos ⟨rfl, rfl, rfl⟩]
  rfl

end Stack

theorem addAttribute?_of_plain (b : Building) {pair : String × String} (h : WritableAttribute pair)
    (value : List Char) : b.addAttribute? ⟨[], pair.1.toList⟩ value =
      some { b with attributes := b.attributes ++ [(⟨[], pair.1.toList⟩, value)] } := by
  have hbase : pair.1.toList ≠ "xmlns".toList := fun heq => h.ne_xmlns (String.toList_inj.1 heq)
  unfold Building.addAttribute?
  rw [if_neg (by simp), if_neg hbase]

theorem toNode_of_children_eq_nil {e : OpenElement} (h : e.children = []) : e.toNode =
    { name := String.ofList e.name.base, attributes := e.attributes,
      text := some (if e.text.all Text.isBlank then "" else String.ofList e.text) } := by
  rw [OpenElement.toNode, if_pos (List.isEmpty_iff.2 h)]

theorem toNode_of_children_ne_nil {e : OpenElement} (h : e.children ≠ []) : e.toNode =
    { name := String.ofList e.name.base, attributes := e.attributes, children := e.children } := by
  rw [OpenElement.toNode, if_neg (by simpa using h)]

theorem toNode_opened_text {node : Node} (h : node.children = []) :
    { opened node with text := (node.text.getD "").toList }.toNode = node.normal := by
  rw [Node.normal_of_children_eq_nil h, toNode_of_children_eq_nil rfl]
  simp only [opened, String.ofList_toList, h]
  rfl

theorem toNode_opened_children {node : Node} (hne : node.children ≠ []) (htext : node.text = none)
    (between : List Char) :
    { opened node with text := between, children := node.children.map Node.normal }.toNode = node.normal := by
  rw [Node.normal_of_children_ne_nil hne, toNode_of_children_ne_nil (by simpa using hne)]
  simp only [opened, String.ofList_toList, htext]

end LexiconAudit.Xml
