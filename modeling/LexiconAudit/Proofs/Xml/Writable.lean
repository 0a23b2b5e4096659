import LexiconAudit.Node.Markup
import LexiconAudit.Text.Blank
import LexiconAudit.Xml.Markup

/-!
This module contains the trees that survive being written as a document and read again, and the form in
which they come back: an element without children has a text then, and a text of blanks is empty.
-/

namespace LexiconAudit

namespace Xml

def IsNCName (name : String) : Prop :=
  Scan.isPlainName name.toList = true ∧ ∀ c ∈ name.toList, isNameChar c = true ∧ c ≠ ':'

instance (name : String) : Decidable (IsNCName name) :=
  have : Decidable (∀ c ∈ name.toList, isNameChar c = true ∧ c ≠ ':') := List.decidableBAll _ _
  inferInstanceAs (Decidable (_ ∧ _))

/--
An attribute whose value is read as it is written: line ends and tabs would become blanks.
-/
structure WritableAttribute (pair : String × String) : Prop where
  name : IsNCName pair.1
  ne_xmlns : pair.1 ≠ "xmlns"
  document : ∀ c ∈ pair.2.toList, isDocumentChar c = true
  plain : ∀ c ∈ pair.2.toList, c ≠ '\t' ∧ c ≠ '\n' ∧ c ≠ '\r'

/--
A text that is read as it is written: a carriage return would become a line feed.
-/
structure WritableText (text : String) : Prop where
  document : ∀ c ∈ text.toList, isDocumentChar c = true
  plain : ∀ c ∈ text.toList, c ≠ '\r'

/--
Elements that can be written: each has a text or children but not both, and different attributes.
-/
inductive Writable : Node → Prop where
  | mk {node : Node} : IsNCName node.name → (∀ pair ∈ node.attributes, WritableAttribute pair) →
    (node.attributes.map Prod.fst).Nodup → (node.children ≠ [] → node.text = none) →
      (∀ text, node.text = some text → WritableText text) → (∀ child ∈ node.children, Writable child) →
        Writable node

theorem writable_iff (node : Node) : Writable node ↔ (IsNCName node.name ∧
    (∀ pair ∈ node.attributes, WritableAttribute pair) ∧ (node.attributes.map Prod.fst).Nodup ∧
    (node.children ≠ [] → node.text = none) ∧ (∀ text ∈ node.text.toList, WritableText text)) ∧
    ∀ child ∈ node.children, Writable child := by
  constructor
  . rintro ⟨hname, hattributes, hnodup, hempty, htext, hchildren⟩
    exact ⟨⟨hname, hattributes, hnodup, hempty, fun text h => htext text (Option.mem_toList.1 h)⟩, hchildren⟩
  . rintro ⟨⟨hname, hattributes, hnodup, hempty, htext⟩, hchildren⟩
    exact .mk hname hattributes hnodup hempty (fun text h => htext text (Option.mem_toList.2 h)) hchildren

instance : DecidablePred WritableAttribute := fun pair =>
  have : Decidable (∀ c ∈ pair.2.toList, isDocumentChar c = true) := List.decidableBAll _ _
  have : Decidable (∀ c ∈ pair.2.toList, c ≠ '\t' ∧ c ≠ '\n' ∧ c ≠ '\r') := List.decidableBAll _ _
  decidable_of_iff (IsNCName pair.1 ∧ pair.1 ≠ "xmlns" ∧ (∀ c ∈ pair.2.toList, isDocumentChar c = true) ∧
      ∀ c ∈ pair.2.toList, c ≠ '\t' ∧ c ≠ '\n' ∧ c ≠ '\r')
    ⟨fun ⟨name, ne_xmlns, document, plain⟩ => ⟨name, ne_xmlns, document, plain⟩,
      fun ⟨name, ne_xmlns, document, plain⟩ => ⟨name, ne_xmlns, document, plain⟩⟩

instance : DecidablePred WritableText := fun text =>
  have : Decidable (∀ c ∈ text.toList, isDocumentChar c = true) := List.decidableBAll _ _
  have : Decidable (∀ c ∈ text.toList, c ≠ '\r') := List.decidableBAll _ _
  decidable_of_iff ((∀ c ∈ text.toList, isDocumentChar c = true) ∧ ∀ c ∈ text.toList, c ≠ '\r')
    ⟨fun ⟨document, plain⟩ => ⟨document, plain⟩, fun ⟨document, plain⟩ => ⟨document, plain⟩⟩

mutual

def decideWritable : (node : Node) → Decidable (Writable node)
  | ⟨name, attributes, text, children⟩ =>
    have := decideAllWritable children
    decidable_of_iff' _ (writable_iff ⟨name, attributes, text, children⟩)

def decideAllWritable : (nodes : List Node) → Decidable (∀ node ∈ nodes, Writable node)
  | [] => isTrue (List.forall_mem_nil _)
  | node :: nodes =>
    have := decideWritable node
    have := decideAllWritable nodes
    decidable_of_iff' _ List.forall_mem_cons

end

instance : DecidablePred Writable :=
  decideWritable

end Xml

namespace Node

mutual

/--
The tree as it is read again once it has been written.
-/
def normal : Node → Node
  | ⟨name, attributes, text, children⟩ =>
    if children.isEmpty then
      { name, attributes, text := some (if Text.allBlank (text.getD "") then "" else text.getD "") }
    else
      { name, attributes, text, children := normals children }

def normals : List Node → List Node
  | [] => []
  | node :: nodes => node.normal :: normals nodes

end

theorem normals_eq_map (nodes : List Node) : normals nodes = nodes.map normal := by
  induction nodes with
  | nil => rfl
  | cons node nodes ih => rw [normals, ih, List.map_cons]

theorem normal_of_children_eq_nil {node : Node} (h : node.children = []) : node.normal =
    { node with text := some (if Text.allBlank (node.text.getD "") then "" else node.text.getD "") } := by
  cases node
  cases h
  rfl

theorem normal_of_children_ne_nil {node : Node} (h : node.children ≠ []) :
    node.normal = { node with children := node.children.map normal } := by
  cases node
  rw [normal, if_neg (by simpa using h), normals_eq_map]

end Node

end LexiconAudit
