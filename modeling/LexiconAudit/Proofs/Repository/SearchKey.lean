import LexiconAudit.Proofs.Text.Search
import LexiconAudit.Repository.Layout

/-!
This module contains the search keys of elements: they do not depend on how the elements are laid out, and
the key of an element contains those of all elements below it.
-/

namespace LexiconAudit

namespace Text

theorem stripLayout_append (cs ds : List Char) :
    stripLayout (cs ++ ds) = stripLayout cs ++ stripLayout ds :=
  List.filter_append ..

end Text

namespace Repository

open Node (Layout markup markups)
open Text (stripLayout stripLayout_append)

theorem stripLayout_lineEnd (layout : Layout) : stripLayout layout.lineEnd = [] := by
  cases layout <;> rfl

theorem stripLayout_indent (layout : Layout) (depth : Nat) : stripLayout (layout.indent depth) = [] := by
  cases layout with
  | compact => rfl
  | indented => exact List.filter_eq_nil_iff.2 fun c hc => by simp [List.eq_of_mem_replicate hc]

mutual

theorem stripLayout_markup (layout : Layout) (depth : Nat) (node : Node) :
    stripLayout (markup layout depth node) = searchKey node := by
  match node with
  | ⟨name, attributes, text, children⟩ =>
    rw [searchKey, Node.toXml, String.toList_ofList]
    unfold markup
    rw [stripLayout_append, stripLayout_indent, stripLayout_append (Layout.compact.indent 0), stripLayout_indent]
    split
    . rfl
    . simp only [stripLayout_append, stripLayout_lineEnd, stripLayout_indent]
      rw [stripLayout_markups layout (depth + 1) children, stripLayout_markups .compact 1 children]

theorem stripLayout_markups (layout : Layout) (depth : Nat) (nodes : List Node) :
    stripLayout (markups layout depth nodes) = nodes.flatMap searchKey := by
  match nodes with
  | [] => rfl
  | node :: nodes =>
    rw [markups, stripLayout_append, stripLayout_append, stripLayout_lineEnd, stripLayout_markup layout depth node,
      stripLayout_markups layout depth nodes]
    rfl

end

theorem searchKey_of_children_ne_nil {node : Node} (h : node.children ≠ []) : searchKey node =
    stripLayout (Node.startTag node.name node.attributes) ++ node.children.flatMap searchKey ++
      stripLayout (Node.endTag node.name) := by
  obtain ⟨name, attributes, text, children⟩ := node
  rw [← stripLayout_markup .compact 0, markup, if_neg (by simpa using h)]
  simp only [stripLayout_append, stripLayout_lineEnd, stripLayout_indent, stripLayout_markups,
    List.nil_append, List.append_nil]

theorem searchKey_infix_of_mem {node child : Node} (h : child ∈ node.children) :
    searchKey child <:+: searchKey node := by
  rw [searchKey_of_children_ne_nil (List.ne_nil_of_mem h)]
  refine List.IsInfix.trans ?_ (List.infix_append _ _ _)
  obtain ⟨before, behind, hchildren⟩ := List.append_of_mem h
  rw [hchildren, List.flatMap_append, List.flatMap_cons, ← List.append_assoc]
  exact List.infix_append _ _ _

theorem searchKey_infix_of_descend? {node found : Node} {path : List String}
    (h : node.descend? path = some found) : searchKey found <:+: searchKey node := by
  induction path generalizing node with
  | nil =>
    cases h
    exact List.infix_refl _
  | cons name path ih =>
    obtain ⟨child, hchild, hfound⟩ := Option.bind_eq_some_iff.1 h
    exact (ih hfound).trans (searchKey_infix_of_mem (List.mem_of_find?_eq_some hchild))

end Repository

end LexiconAudit
