import LexiconAudit.Node.Vocabulary
import LexiconAudit.Proofs.Xml.Writable

/-!
This module contains the elements of a tree, what holds of all of them, and the tree that is left when its
markers are taken out.
-/

namespace LexiconAudit.Node

mutual

def elements : Node → List Node
  | ⟨name, attributes, text, children⟩ => ⟨name, attributes, text, children⟩ :: elementsOf children

def elementsOf : List Node → List Node
  | [] => []
  | node :: nodes => node.elements ++ elementsOf nodes

end

theorem elementsOf_eq_flatMap (nodes : List Node) : elementsOf nodes = nodes.flatMap elements := by
  induction nodes with
  | nil => rfl
  | cons node nodes ih => rw [elementsOf, ih, List.flatMap_cons]

theorem elements_eq (node : Node) : node.elements = node :: node.children.flatMap elements := by
  cases node
  rw [elements, elementsOf_eq_flatMap]

theorem mem_elements_self (node : Node) : node ∈ node.elements := by
  rw [elements_eq]
  exact List.mem_cons_self

theorem elements_subset_of_mem {node child : Node} (h : child ∈ node.children) :
    child.elements ⊆ node.elements := by
  intro element helement
  rw [elements_eq node]
  exact List.mem_cons_of_mem _ (List.mem_flatMap.2 ⟨child, h, helement⟩)

theorem mem_elements_of_descend? {node found : Node} {path : List String} (h : node.descend? path = some found) :
    found ∈ node.elements := by
  induction path generalizing node with
  | nil =>
    cases h
    exact mem_elements_self _
  | cons name path ih =>
    obtain ⟨child, hchild, hfound⟩ := Option.bind_eq_some_iff.1 h
    exact elements_subset_of_mem (List.mem_of_find?_eq_some hchild) (ih hfound)

def Throughout (P : Node → Prop) (node : Node) : Prop :=
  ∀ element ∈ node.elements, P element

variable {P Q : Node → Prop} {node : Node}

instance [DecidablePred P] : DecidablePred (Throughout P) := fun _ =>
  List.decidableBAll _ _

theorem throughout_iff : Throughout P node ↔ P node ∧ ∀ child ∈ node.children, Throughout P child := by
  unfold Throughout
  rw [elements_eq, List.forall_mem_cons, List.forall_mem_flatMap]

theorem Throughout.self (h : Throughout P node) : P node :=
  (throughout_iff.1 h).1

theorem Throughout.of_mem (h : Throughout P node) {child : Node} (hchild : child ∈ node.children) :
    Throughout P child :=
  (throughout_iff.1 h).2 child hchild

theorem Throughout.mono (h : Throughout P node) (hPQ : ∀ element, P element → Q element) :
    Throughout Q node :=
  fun element helement => hPQ element (h element helement)

theorem Throughout.and (hP : Throughout P node) (hQ : Throughout Q node) :
    Throughout (fun element => P element ∧ Q element) node :=
  fun element helement => ⟨hP element helement, hQ element helement⟩

theorem Throughout.induction (step : ∀ node, P node → (∀ child ∈ node.children, Q child) → Q node) (node : Node)
    (h : Throughout P node) : Q node := by
  refine step node h.self fun child hchild => ?_
  have hsmaller : sizeOf child < sizeOf node := by
    have hmem := List.sizeOf_lt_of_mem hchild
    cases node
    simp only [mk.sizeOf_spec] at hmem ⊢
    omega
  exact Throughout.induction step child (h.of_mem hchild)
termination_by sizeOf node

/-! The markers of a tree. -/

def marksOf (nodes : List Node) : List Node :=
  (nodes.flatMap elements).filter expectsAbsence

@[simp]
theorem marksOf_nil : marksOf [] = [] := rfl

@[simp]
theorem marksOf_append (nodes nodes' : List Node) : marksOf (nodes ++ nodes') = marksOf nodes ++ marksOf nodes' := by
  simp [marksOf]

theorem marksOf_singleton (node : Node) :
    marksOf [node] = (if node.expectsAbsence then [node] else []) ++ marksOf node.children := by
  rw [marksOf, List.flatMap_singleton, elements_eq, List.filter_cons]
  cases node.expectsAbsence <;> rfl

theorem child?_eq_head? (node : Node) (name : String) : node.child? name = (node.childrenNamed name).head? :=
  (List.head?_filter ..).symm

/-! The tree without its markers. -/

mutual

def withoutMarkers : Node → Node
  | ⟨name, attributes, text, children⟩ => ⟨name, attributes, text, allWithoutMarkers children⟩

def allWithoutMarkers : List Node → List Node
  | [] => []
  | node :: nodes =>
    if node.expectsAbsence then allWithoutMarkers nodes else node.withoutMarkers :: allWithoutMarkers nodes

end

def present (node : Node) : List Node :=
  node.children.filter fun child => !child.expectsAbsence

theorem mem_present_iff {child : Node} :
    child ∈ node.present ↔ child ∈ node.children ∧ child.expectsAbsence = false := by
  simp [present]

theorem allWithoutMarkers_eq_map (nodes : List Node) :
    allWithoutMarkers nodes = (nodes.filter fun node => !node.expectsAbsence).map withoutMarkers := by
  induction nodes with
  | nil => rfl
  | cons node nodes ih =>
    rw [allWithoutMarkers, ih]
    cases h : node.expectsAbsence <;> simp [h]

theorem withoutMarkers_eq (node : Node) :
    node.withoutMarkers = { node with children := node.present.map withoutMarkers } := by
  cases node
  rw [withoutMarkers, allWithoutMarkers_eq_map]
  rfl

def returned (node : Node) : Node :=
  node.withoutMarkers.normal

theorem name_normal (node : Node) : node.normal.name = node.name := by
  cases node
  unfold normal
  split <;> rfl

theorem attributes_normal (node : Node) : node.normal.attributes = node.attributes := by
  cases node
  unfold normal
  split <;> rfl

theorem children_normal (node : Node) : node.normal.children = node.children.map normal := by
  by_cases h : node.children = []
  . rw [normal_of_children_eq_nil h, h]
    rfl
  . rw [normal_of_children_ne_nil h]

theorem name_returned (node : Node) : node.returned.name = node.name := by
  rw [returned, name_normal, withoutMarkers_eq]

theorem attributes_returned (node : Node) : node.returned.attributes = node.attributes := by
  rw [returned, attributes_normal, withoutMarkers_eq]

theorem children_returned (node : Node) : node.returned.children = node.present.map returned := by
  rw [returned, children_normal, withoutMarkers_eq, List.map_map]
  rfl

theorem mem_children_returned_iff {child : Node} : child ∈ node.returned.children ↔
    ∃ other ∈ node.children, other.expectsAbsence = false ∧ other.returned = child := by
  rw [children_returned, List.mem_map]
  simp only [mem_present_iff, and_assoc]

end LexiconAudit.Node
