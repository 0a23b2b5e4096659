import LexiconAudit.Proofs.Node.Elements
import LexiconAudit.Proofs.Thinning
import LexiconAudit.Repository.Comparison

/-!
This module contains what stored elements may hold beyond the expected ones. Attributes and children that no
expected element mentions do not change the result of a comparison, be it a discrepancy or none.
-/

namespace LexiconAudit.Repository

/-! What is compared with what. -/

/--
The expected elements that a stored child is compared with when its parent is compared with `parents` and the
children `before` stand in front of it: the messages at its place among the messages, or everything of its name if
it is the first of that name. A marker is not compared with anything.
-/
def partnersOf (parents before : List Node) (child : Node) : List Node :=
  if child.name = Node.messageName then
    parents.filterMap fun parent =>
      (parent.childrenNamed Node.messageName)[(before.filter fun other => other.name = Node.messageName).length]?
  else if before.any fun other => other.name = child.name then
    []
  else
    parents.flatMap fun parent => (parent.childrenNamed child.name).filter fun other => !other.expectsAbsence

/--
A stored element, the expected elements that it is compared with, and whether all those that the elements around it
are compared with have children.
-/
structure Spot where
  node : Node
  partners : List Node
  branching : Bool := true

namespace Spot

/--
Whether the texts in the element are not compared, neither here nor in the elements around it.
-/
def isFree (spot : Spot) : Bool :=
  spot.branching && spot.partners.all Node.hasChildren

def children (spot : Spot) : List Spot :=
  go [] spot.node.children
where
  go (before : List Node) : List Node → List Spot
    | [] => []
    | child :: others =>
      { node := child, partners := partnersOf spot.partners before child, branching := spot.isFree }
        :: go (before ++ [child]) others

end Spot

/--
The element has what the stored one has and, anywhere in it, more that no expected element mentions: attributes
that none of its partners has and, where texts are not compared, children of which none of its partners has one of
that name.
-/
inductive Exceeds : Spot → Node → Prop where
  | mk {spot : Spot} {node : Node} {kept : List Node} :
    node.name = spot.node.name → node.text = spot.node.text →
      ThinnedFields (fun name => ∀ partner ∈ spot.partners, name ∉ partner.attributes.map Prod.fst) (fun _ => Eq)
        node.attributes spot.node.attributes →
        Thinned (fun child => spot.isFree = true ∧ ∀ partner ∈ spot.partners, partner.childrenNamed child.name = [])
          Eq node.children kept →
          List.Forall₂ Exceeds spot.children kept → Exceeds spot node

theorem Exceeds.name {spot : Spot} {node : Node} (h : Exceeds spot node) : node.name = spot.node.name := by
  obtain ⟨hname, -⟩ := h
  exact hname

/-! The children of a name. -/

namespace Spot

theorem map_node_go (spot : Spot) (before others : List Node) :
    (children.go spot before others).map node = others := by
  induction others generalizing before with
  | nil => rfl
  | cons child others ih =>
    rw [children.go, List.map_cons, ih]

def named (spot : Spot) (name : String) : List Spot :=
  spot.children.filter fun child => child.node.name = name

theorem map_node_named (spot : Spot) (name : String) :
    (spot.named name).map node = spot.node.childrenNamed name := by
  have hnodes := map_node_go spot [] spot.node.children
  unfold named Node.childrenNamed
  conv => rhs; rw [← hnodes, List.filter_map]
  rfl

theorem partners_go_message {spot : Spot} {before others : List Node} {i : Nat} {child : Spot}
    (h : ((children.go spot before others).filter fun child => child.node.name = Node.messageName)[i]? = some child) :
    child.partners = spot.partners.filterMap fun parent => (parent.childrenNamed Node.messageName)[
      (before.filter fun other => other.name = Node.messageName).length + i]? := by
  induction others generalizing before i with
  | nil => cases h
  | cons other others ih =>
    rw [children.go, List.filter_cons] at h
    split at h
    . next hname =>
      rw [decide_eq_true_eq] at hname
      cases i with
      | zero =>
        cases h
        exact if_pos hname
      | succ i =>
        rw [ih h, List.filter_append, List.filter_cons_of_pos (by simpa using hname), List.length_append]
        simp only [List.filter_nil, List.length_singleton, Nat.add_assoc, Nat.add_comm 1]
    . next hname =>
      rw [ih h, List.filter_append, List.filter_cons_of_neg (by simpa using hname)]
      simp

theorem partners_go_other {spot : Spot} {before others : List Node} {name : String} {child : Spot}
    (hname : name ≠ Node.messageName) (hbefore : ∀ other ∈ before, other.name ≠ name)
    (h : ((children.go spot before others).filter fun child => child.node.name = name).head? = some child) :
    child.partners =
      spot.partners.flatMap fun parent => (parent.childrenNamed name).filter fun other => !other.expectsAbsence := by
  induction others generalizing before with
  | nil => cases h
  | cons other others ih =>
    rw [children.go, List.filter_cons] at h
    split at h
    . next heq =>
      rw [decide_eq_true_eq] at heq
      cases h
      subst heq
      have hany : before.any (fun before => before.name = other.name) = false := by simpa using hbefore
      exact (if_neg hname).trans (if_neg (by rw [hany]; exact Bool.false_ne_true))
    . next hne =>
      refine ih ?_ h
      rw [List.forall_mem_append, List.forall_mem_singleton]
      exact ⟨hbefore, by simpa using hne⟩

theorem mem_partners_of_message {spot : Spot} {i : Nat} {child : Spot}
    (h : (spot.named Node.messageName)[i]? = some child) {partner message : Node} (hpartner : partner ∈ spot.partners)
    (hmessage : (partner.childrenNamed Node.messageName)[i]? = some message) : message ∈ child.partners := by
  rw [partners_go_message h, List.mem_filterMap]
  refine ⟨partner, hpartner, ?_⟩
  rw [List.filter_nil, List.length_nil, Nat.zero_add]
  exact hmessage

theorem mem_partners_of_other {spot : Spot} {name : String} {child : Spot} (hname : name ≠ Node.messageName)
    (h : (spot.named name).head? = some child) {partner other : Node} (hpartner : partner ∈ spot.partners)
    (hother : other ∈ partner.childrenNamed name) (hpresent : other.expectsAbsence = false) :
    other ∈ child.partners := by
  have hbefore : ∀ other ∈ ([] : List Node), other.name ≠ name := List.forall_mem_nil _
  rw [partners_go_other hname hbefore h, List.mem_flatMap]
  refine ⟨partner, hpartner, List.mem_filter.2 ⟨hother, ?_⟩⟩
  rw [hpresent, Bool.not_false]

end Spot

namespace Exceeds

variable {spot : Spot} {node : Node} (h : Exceeds spot node)

include h

theorem forall₂_named {partner child : Node} (hpartner : partner ∈ spot.partners)
    (hchild : child ∈ partner.children) :
    List.Forall₂ Exceeds (spot.named child.name) (node.childrenNamed child.name) := by
  obtain ⟨-, -, -, hthinned, hkept⟩ := h
  have hspare (other : Node)
      (hother : spot.isFree = true ∧ ∀ partner ∈ spot.partners, partner.childrenNamed other.name = []) :
      decide (other.name = child.name) = false := by
    refine decide_eq_false fun heq => ?_
    have hnil := hother.2 partner hpartner
    rw [heq] at hnil
    exact List.filter_eq_nil_iff.1 hnil child hchild (decide_eq_true rfl)
  have hfilter := hthinned.filter hspare fun other other' heq => by rw [heq]
  rw [List.forall₂_eq_eq_eq] at hfilter
  unfold Node.childrenNamed
  rw [hfilter]
  refine List.rel_filter ?_ hkept
  intro child node hexceeds
  beta_reduce
  rw [hexceeds.name]

theorem child?_rel {partner child : Node} (hpartner : partner ∈ spot.partners) (hchild : child ∈ partner.children) :
    Option.Rel Exceeds (spot.named child.name).head? (node.child? child.name) := by
  have hnamed := h.forall₂_named hpartner hchild
  rw [Node.child?_eq_head?]
  generalize spot.named child.name = spots at hnamed ⊢
  generalize node.childrenNamed child.name = nodes at hnamed ⊢
  cases hnamed with
  | nil => exact .none
  | cons hfirst _ => exact .some hfirst

theorem attribute?_eq {partner : Node} (hpartner : partner ∈ spot.partners) {name : String}
    (hname : name ∈ partner.attributes.map Prod.fst) : node.attribute? name = spot.node.attribute? name := by
  obtain ⟨-, -, hattributes, -, -⟩ := h
  exact eq_of_rel (hattributes.lookup fun hfree => hfree partner hpartner hname) fun _ _ => id

end Exceeds

theorem compareAttributes_congr {element : String} {record : Nat} {stored stored' : Node}
    {attributes : List (String × String)}
    (h : ∀ name ∈ attributes.map Prod.fst, stored'.attribute? name = stored.attribute? name) :
    compareAttributes element record stored' attributes = compareAttributes element record stored attributes := by
  induction attributes with
  | nil => rfl
  | cons pair attributes ih =>
    obtain ⟨name, value⟩ := pair
    rw [List.map_cons, List.forall_mem_cons] at h
    rw [compareAttributes, compareAttributes, h.1, ih h.2]

/-! Texts. -/

mutual

theorem value_of_exceeds (stored : Node) {partners : List Node} {branching : Bool} {node : Node}
    (h : Exceeds ⟨stored, partners, branching⟩ node) (hfree : Spot.isFree ⟨stored, partners, branching⟩ = false) :
    node.value = stored.value := by
  match stored with
  | ⟨name, attributes, text, children⟩ =>
    obtain ⟨-, htext, -, hthinned, hkept⟩ := h
    have hchildren := hthinned.forall₂ fun _ hspare => Bool.false_ne_true (hfree.symm.trans hspare.1)
    rw [List.forall₂_eq_eq_eq] at hchildren
    rw [Node.value_eq, Node.value, hchildren, values_of_exceeds children hkept hfree, htext]

theorem values_of_exceeds (stored : List Node) {spot : Spot} {before nodes : List Node}
    (h : List.Forall₂ Exceeds (Spot.children.go spot before stored) nodes) (hfree : spot.isFree = false) :
    Node.values nodes = Node.values stored := by
  match stored with
  | [] =>
    cases h
    rfl
  | child :: stored =>
    cases h with
    | cons hchild hrest =>
      have hchildfree : Spot.isFree ⟨child, partnersOf spot.partners before child, spot.isFree⟩ = false := by
        rw [Spot.isFree, hfree, Bool.false_and]
      rw [Node.values, Node.values, value_of_exceeds child hchild hchildfree, values_of_exceeds stored hrest hfree]

end

/-! Comparisons. -/

theorem compare_eq (record : Nat) (expected stored : Node) :
    compare record expected stored =
      compareAttributes expected.name record stored expected.attributes >>= fun _ =>
        if expected.children = [] then
          if stored.value = expected.text.getD "" then .ok () else .error (.valueDiffers expected.name record)
        else
          compareChildren expected.name record stored false expected.children := by
  cases expected with
  | mk name attributes text children =>
    rw [compare]
    simp only [List.isEmpty_iff]

theorem compareChildren_message {parent : String} {record : Nat} {stored : Node} {child : Node}
    (hname : child.name = Node.messageName) (children : List Node) :
    compareChildren parent record stored false (child :: children) =
      compareMessages parent record 0 (stored.childrenNamed Node.messageName) (child :: children) >>= fun _ =>
        compareChildren parent record stored true children := by
  rw [compareChildren, if_pos hname]
  cases stored.childrenNamed Node.messageName with
  | nil =>
    rw [compareMessages, if_pos hname]
    rfl
  | cons message messages =>
    rw [compareMessages, if_pos hname, bind_assoc]
    rfl

/--
Whatever a stored element has beyond the expected ones, it does not change how it compares with this one.
-/
def Undisturbed (record : Nat) (expected : Node) : Prop :=
  ∀ spot node, Exceeds spot node → expected ∈ spot.partners →
    compare record expected node = compare record expected spot.node

section Children

variable {record : Nat} {children : List Node} (hundisturbed : ∀ child ∈ children, Undisturbed record child)

include hundisturbed

theorem compareMessages_of_exceeds (parent : String) (index : Nat) {spots : List Spot} {nodes : List Node}
    (h : List.Forall₂ Exceeds spots nodes)
    (hpartner : ∀ (i : Nat) (child : Node) (spot : Spot),
      (children.filter fun child => child.name = Node.messageName)[i]? = some child →
        spots[i]? = some spot → child ∈ spot.partners) :
    compareMessages parent record index nodes children =
      compareMessages parent record index (spots.map Spot.node) children := by
  induction children generalizing index spots nodes with
  | nil => rw [compareMessages, compareMessages]
  | cons child children ih =>
    rw [List.forall_mem_cons] at hundisturbed
    unfold compareMessages
    split
    . next hname =>
      rw [List.filter_cons_of_pos (by simpa using hname)] at hpartner
      cases h with
      | nil => rfl
      | @cons spot node _ _ hspot hrest =>
        rw [List.map_cons]
        dsimp only
        rw [hundisturbed.1 spot node hspot (hpartner 0 child spot rfl rfl),
          ih hundisturbed.2 (index + 1) hrest fun i child spot => hpartner (i + 1) child spot]
    . next hname =>
      rw [List.filter_cons_of_neg (by simpa using hname)] at hpartner
      exact ih hundisturbed.2 index h hpartner

theorem compareChildren_of_exceeds (parent : String) {spot : Spot} {node : Node} (h : Exceeds spot node)
    {expected : Node} (hpartner : expected ∈ spot.partners) (hchildren : children ⊆ expected.children) {done : Bool}
    (hmessages : done = false →
      (children.filter fun child => child.name = Node.messageName) = expected.childrenNamed Node.messageName) :
    compareChildren parent record node done children = compareChildren parent record spot.node done children := by
  induction children generalizing done with
  | nil => rw [compareChildren, compareChildren]
  | cons child children ih =>
    have hall := hundisturbed
    rw [List.forall_mem_cons] at hundisturbed
    rw [List.cons_subset] at hchildren
    by_cases hname : child.name = Node.messageName
    . have hrest : compareChildren parent record node true children =
          compareChildren parent record spot.node true children :=
        ih hundisturbed.2 hchildren.2 Bool.noConfusion
      cases done with
      | true =>
        rw [compareChildren, compareChildren, if_pos hname, if_pos hname]
        exact hrest
      | false =>
        have hnamed := h.forall₂_named hpartner hchildren.1
        rw [hname] at hnamed
        rw [compareChildren_message hname, compareChildren_message hname, hrest,
          compareMessages_of_exceeds hall parent 0 hnamed, Spot.map_node_named]
        rw [hmessages rfl]
        intro i message other hmessage hother
        exact Spot.mem_partners_of_message hother hpartner hmessage
    . rw [List.filter_cons_of_neg (by simpa using hname)] at hmessages
      have hrel := h.child?_rel hpartner hchildren.1
      rw [compareChildren, compareChildren, if_neg hname, if_neg hname, ih hundisturbed.2 hchildren.2 hmessages,
        Node.child?_eq_head? spot.node, ← Spot.map_node_named, List.head?_map]
      generalize hfirst : (spot.named child.name).head? = first at hrel ⊢
      generalize node.child? child.name = found at hrel ⊢
      cases hrel with
      | none => rfl
      | @some first found hexceeds =>
        cases hpresent : child.expectsAbsence with
        | true => rfl
        | false =>
          have hmem : child ∈ first.partners := Spot.mem_partners_of_other hname hfirst hpartner
            (List.mem_filter.2 ⟨hchildren.1, decide_eq_true rfl⟩) hpresent
          dsimp only [Option.map_some]
          rw [hundisturbed.1 first found hexceeds hmem]

end Children

theorem undisturbed (record : Nat) (expected : Node) : Undisturbed record expected := by
  refine Node.Throughout.induction (P := fun _ => True) ?_ expected fun _ _ => trivial
  intro expected _ ih spot node h hpartner
  have hattributes : compareAttributes expected.name record node expected.attributes =
      compareAttributes expected.name record spot.node expected.attributes :=
    compareAttributes_congr fun name hname => h.attribute?_eq hpartner hname
  rw [compare_eq, compare_eq, hattributes]
  split
  . next hnil =>
    have hfree : spot.isFree = false := by
      rw [Spot.isFree, List.all_eq_false.2 ⟨_, hpartner, by simp [Node.hasChildren, hnil]⟩, Bool.and_false]
    rw [value_of_exceeds spot.node h hfree]
  . rw [compareChildren_of_exceeds ih expected.name h hpartner (List.Subset.refl _) fun _ => rfl]

/--
A stored tree may have more than the expected one mentions: the result of the comparison is the same, be it a
discrepancy or none.
-/
theorem compare_exceeding (record : Nat) {expected stored stored' : Node}
    (h : Exceeds { node := stored, partners := [expected] } stored') :
    compare record expected stored' = compare record expected stored :=
  undisturbed record expected _ _ h List.mem_cons_self

def askedNote : Node where
  name := Node.annotationName
  attributes := [(Node.referenceKey, "label=sun")]
  children := [
    { name := Node.messageName, attributes := [(Node.statusKey, "open")], text := some "check" },
    Node.absent "Tag"]

def storedNote (more moreOfMessage : List (String × String)) (others : List Node) : Node where
  name := Node.annotationName
  attributes := more ++ [(Node.referenceKey, "app=flex&label=sun")]
  children := others ++ [
    { name := Node.messageName, attributes := (Node.statusKey, "closed") :: moreOfMessage, text := some "check" },
    .leaf Node.messageName "done"]

theorem compare_storedNote :
    Exceeds { node := storedNote [] [] [], partners := [askedNote] }
        (storedNote [("guid", "n7")] [("author", "sky")] [.leaf "History" "read"]) ∧
      compare 4 askedNote (storedNote [("guid", "n7")] [("author", "sky")] [.leaf "History" "read"]) =
        .error (.attributeDiffers Node.statusKey Node.messageName 4) := by
  have hexceeds : Exceeds { node := storedNote [] [] [], partners := [askedNote] }
      (storedNote [("guid", "n7")] [("author", "sky")] [.leaf "History" "read"]) := by
    refine .mk rfl rfl (.leave (by decide) (.keep ⟨rfl, rfl⟩ .nil))
      (.leave ⟨rfl, ?_⟩ (.keep rfl (.keep rfl .nil))) (.cons ?_ (.cons ?_ .nil))
    . rw [List.forall_mem_singleton]
      rfl
    . exact .mk rfl rfl (.keep ⟨rfl, rfl⟩ (.leave (by decide) .nil)) .nil .nil
    . exact .mk rfl rfl .nil .nil .nil
  refine ⟨hexceeds, ?_⟩
  rw [compare_exceeding 4 hexceeds]
  with_unfolding_all rfl

end LexiconAudit.Repository
