import LexiconAudit.Proofs.Checking
import LexiconAudit.Proofs.Text.Search
import LexiconAudit.Repository.Comparison

/-!
This module contains the relation between an expected element and a stored one that comparing them decides.
The stored element covers the expected one: it has its attributes, its text or its children, and possibly
more.
-/

namespace LexiconAudit.Repository

/--
The stored element has an expected attribute. A reference contains the expected value, any other attribute
is equal to it; the mark of absence is not looked for.
-/
def AttributeHolds (stored : Node) (pair : String × String) : Prop :=
  pair.1 = Node.absenceKey ∨ ∃ found, stored.attribute? pair.1 = some found ∧
    if pair.1 = Node.referenceKey then pair.2.toList <:+: found.toList else found = pair.2

theorem compareAttributes_eq_ok_iff {element : String} {record : Nat} {stored : Node}
    {attributes : List (String × String)} :
    compareAttributes element record stored attributes = .ok () ↔
      ∀ pair ∈ attributes, AttributeHolds stored pair := by
  induction attributes with
  | nil => simp [compareAttributes]
  | cons pair attributes ih =>
    obtain ⟨name, value⟩ := pair
    unfold compareAttributes
    rw [List.forall_mem_cons, ← ih, AttributeHolds]
    split
    . next habsence => simp [habsence]
    next habsence =>
    simp only [habsence, false_or]
    split
    . next hnone => simp [hnone]
    next found hfound =>
    simp only [hfound, Option.some.injEq, exists_eq_left']
    split
    . rw [← Text.occurs_iff]
      split
      . next hoccurs => simp [hoccurs]
      . next hoccurs => simp [hoccurs]
    . split
      . next heq => simp [heq]
      . next hne => simp [hne]

/--
A leaf is covered by an element with its text. Of other elements the messages are covered one by one by the
first messages stored, and every other child by the first one of its name; a marker is covered by there
being none.
-/
inductive Covers : Node → Node → Prop where
  | leaf {expected stored : Node} :
    (∀ pair ∈ expected.attributes, AttributeHolds stored pair) → expected.children = [] →
      stored.value = expected.text.getD "" → Covers expected stored
  | branch {expected stored : Node} {matched rest : List Node} :
    (∀ pair ∈ expected.attributes, AttributeHolds stored pair) → expected.children ≠ [] →
      stored.childrenNamed Node.messageName = matched ++ rest →
        List.Forall₂ Covers (expected.childrenNamed Node.messageName) matched →
          (∀ child ∈ expected.children, child.name ≠ Node.messageName →
            ((stored.child? child.name).isSome ↔ child.expectsAbsence = false)) →
            (∀ child ∈ expected.children, child.name ≠ Node.messageName → ∀ found,
              stored.child? child.name = some found → Covers child found) → Covers expected stored

theorem Covers.attributes {expected stored : Node} (h : Covers expected stored) :
    ∀ pair ∈ expected.attributes, AttributeHolds stored pair := by
  cases h with
  | leaf h => exact h
  | branch h => exact h

theorem Covers.attribute? {expected stored : Node} (h : Covers expected stored) {key value : String}
    (habsence : key ≠ Node.absenceKey) (hreference : key ≠ Node.referenceKey)
    (hkey : expected.attribute? key = some value) : stored.attribute? key = some value := by
  obtain ⟨before, after, hmem, -⟩ := List.lookup_eq_some_iff.1 hkey
  have hpair : (key, value) ∈ expected.attributes := by simp [hmem]
  rcases h.attributes _ hpair with heq | ⟨found, hfound, hvalue⟩
  . exact absurd heq habsence
  . rw [if_neg hreference] at hvalue
    rw [hfound, hvalue]

def MessagesCovered (expected stored : List Node) : Prop :=
  ∃ matched rest, stored = matched ++ rest ∧ List.Forall₂ Covers expected matched

def ChildCovered (stored child : Node) : Prop :=
  ((stored.child? child.name).isSome ↔ child.expectsAbsence = false) ∧
    ∀ found, stored.child? child.name = some found → Covers child found

theorem childCovered_iff_of_absent {stored child : Node} (h : child.expectsAbsence = true) :
    ChildCovered stored child ↔ ∀ other ∈ stored.children, other.name ≠ child.name := by
  have hnone : ChildCovered stored child ↔ stored.child? child.name = none := by
    unfold ChildCovered
    cases stored.child? child.name <;> simp [h]
  rw [hnone, Node.child?, List.find?_eq_none]
  simp only [decide_eq_true_eq, ne_eq]

theorem childCovered_iff_of_present {stored child : Node} (h : child.expectsAbsence = false) :
    ChildCovered stored child ↔ ∃ found, stored.child? child.name = some found ∧ Covers child found := by
  unfold ChildCovered
  cases stored.child? child.name <;> simp [h]

theorem messagesCovered_nil (stored : List Node) : MessagesCovered [] stored :=
  ⟨[], stored, rfl, .nil⟩

theorem messagesCovered_cons_iff {message : Node} {messages stored : List Node} :
    MessagesCovered (message :: messages) stored ↔
      ∃ first others, stored = first :: others ∧ Covers message first ∧ MessagesCovered messages others := by
  constructor
  . intro ⟨_, rest, hstored, hforall⟩
    cases hforall with
    | cons hfirst hforall => exact ⟨_, _, hstored, hfirst, _, rest, rfl, hforall⟩
  . intro ⟨first, _, hstored, hfirst, matched, rest, hothers, hforall⟩
    exact ⟨first :: matched, rest, by rw [hstored, hothers]; rfl, .cons hfirst hforall⟩

theorem covers_iff_of_children_eq_nil {expected stored : Node} (h : expected.children = []) :
    Covers expected stored ↔
      (∀ pair ∈ expected.attributes, AttributeHolds stored pair) ∧ stored.value = expected.text.getD "" := by
  constructor
  . intro hcovers
    cases hcovers with
    | leaf hattributes _ hvalue => exact ⟨hattributes, hvalue⟩
    | branch _ hne => exact absurd h hne
  . intro ⟨hattributes, hvalue⟩
    exact .leaf hattributes h hvalue

theorem covers_iff_of_children_ne_nil {expected stored : Node} (h : expected.children ≠ []) :
    Covers expected stored ↔ (∀ pair ∈ expected.attributes, AttributeHolds stored pair) ∧
      MessagesCovered (expected.childrenNamed Node.messageName) (stored.childrenNamed Node.messageName) ∧
        ∀ child ∈ expected.children, child.name ≠ Node.messageName → ChildCovered stored child := by
  constructor
  . intro hcovers
    cases hcovers with
    | leaf _ hnil => exact absurd hnil h
    | branch hattributes _ hmatched hforall hpresent hcovers =>
      refine ⟨hattributes, ⟨_, _, hmatched, hforall⟩, ?_⟩
      intro child hchild hname
      exact ⟨hpresent child hchild hname, hcovers child hchild hname⟩
  . intro ⟨hattributes, ⟨_, _, hmatched, hforall⟩, hcovered⟩
    exact .branch hattributes h hmatched hforall (fun child hchild hname => (hcovered child hchild hname).1)
      fun child hchild hname => (hcovered child hchild hname).2

mutual

theorem compare_eq_ok_iff {record : Nat} (expected : Node) {stored : Node} :
    compare record expected stored = .ok () ↔ Covers expected stored := by
  match expected with
  | ⟨name, attributes, text, children⟩ =>
    unfold compare
    rw [bind_unit_eq_ok_iff, compareAttributes_eq_ok_iff]
    split
    . next hnil =>
      rw [List.isEmpty_iff] at hnil
      rw [covers_iff_of_children_eq_nil hnil]
      simp
    . next hne =>
      rw [covers_iff_of_children_ne_nil (by simpa using hne), compareChildren_eq_ok_iff children]
      simp [Node.childrenNamed]

theorem compareChildren_eq_ok_iff {parent : String} {record : Nat} {stored : Node} {done : Bool}
    (children : List Node) : compareChildren parent record stored done children = .ok () ↔
      (done = false → MessagesCovered (children.filter fun child => child.name = Node.messageName)
        (stored.childrenNamed Node.messageName)) ∧
        ∀ child ∈ children, child.name ≠ Node.messageName → ChildCovered stored child := by
  match children with
  | [] => simp [compareChildren, messagesCovered_nil]
  | child :: children =>
    unfold compareChildren
    rw [List.forall_mem_cons]
    split
    . next hname =>
      rw [List.filter_cons_of_pos (by simpa using hname), messagesCovered_cons_iff]
      dsimp only
      split
      . next hdone =>
        rw [Bool.not_eq_true'] at hdone
        split
        . next hnone => simp [hnone, hdone, bind_unit_eq_ok_iff]
        . next message messages hmessages =>
          rw [bind_unit_eq_ok_iff, bind_unit_eq_ok_iff, compare_eq_ok_iff child,
            compareMessages_eq_ok_iff children, compareChildren_eq_ok_iff children]
          simp [hmessages, hdone, hname, and_assoc]
      . next hdone =>
        rw [compareChildren_eq_ok_iff children]
        simp_all
    . next hname =>
      rw [List.filter_cons_of_neg (by simpa using hname)]
      dsimp only
      split
      . next found hfound =>
        split
        . next habsent => simp [ChildCovered, hname, hfound, habsent, bind_unit_eq_ok_iff]
        . next hpresent =>
          have hcovered : ChildCovered stored child ↔ Covers child found := by
            simp [ChildCovered, hfound, hpresent]
          rw [bind_unit_eq_ok_iff, compare_eq_ok_iff child, compareChildren_eq_ok_iff children, hcovered]
          simp only [ne_eq, hname, not_false_eq_true, true_implies]
          exact and_left_comm
      . next hnone =>
        split
        . next habsent =>
          rw [bind_unit_eq_ok_iff, compareChildren_eq_ok_iff children]
          simp [ChildCovered, hname, hnone, habsent]
        . next hpresent => simp [ChildCovered, hname, hnone, hpresent, bind_unit_eq_ok_iff]

theorem compareMessages_eq_ok_iff {parent : String} {record index : Nat} {messages : List Node}
    (children : List Node) : compareMessages parent record index messages children = .ok () ↔
      MessagesCovered (children.filter fun child => child.name = Node.messageName) messages := by
  match children with
  | [] => simp [compareMessages, messagesCovered_nil]
  | child :: children =>
    unfold compareMessages
    split
    . next hname =>
      rw [List.filter_cons_of_pos (by simpa using hname), messagesCovered_cons_iff]
      cases messages with
      | nil => simp
      | cons message messages =>
        rw [bind_unit_eq_ok_iff, compare_eq_ok_iff child, compareMessages_eq_ok_iff children]
        simp
    . next hname =>
      rw [List.filter_cons_of_neg (by simpa using hname)]
      exact compareMessages_eq_ok_iff children

end

/--
Comparing decides whether the stored element covers the expected one. It covers a leaf by its attributes and its
value, and another element by its attributes, by messages position by position and by the first child of each other
name, of which there is none for a marker; where the messages stand among the children does not matter.
-/
theorem compare_decides_covers (record : Nat) (expected stored : Node) :
    (compare record expected stored = .ok () ↔ Covers expected stored) ∧
      (Covers expected stored ↔
        (∀ pair ∈ expected.attributes, AttributeHolds stored pair) ∧
          (expected.children = [] → stored.value = expected.text.getD "") ∧
          (expected.children ≠ [] →
            MessagesCovered (expected.childrenNamed Node.messageName) (stored.childrenNamed Node.messageName) ∧
              (∀ child ∈ expected.children, child.name ≠ Node.messageName → child.expectsAbsence = true →
                ∀ other ∈ stored.children, other.name ≠ child.name) ∧
              ∀ child ∈ expected.children, child.name ≠ Node.messageName → child.expectsAbsence = false →
                ∃ found, stored.child? child.name = some found ∧ Covers child found)) := by
  refine ⟨compare_eq_ok_iff expected, ?_⟩
  by_cases hnil : expected.children = []
  . rw [covers_iff_of_children_eq_nil hnil]
    simp [hnil]
  . have hchildren : (∀ child ∈ expected.children, child.name ≠ Node.messageName → ChildCovered stored child) ↔
        (∀ child ∈ expected.children, child.name ≠ Node.messageName → child.expectsAbsence = true →
          ∀ other ∈ stored.children, other.name ≠ child.name) ∧
        ∀ child ∈ expected.children, child.name ≠ Node.messageName → child.expectsAbsence = false →
          ∃ found, stored.child? child.name = some found ∧ Covers child found := by
      rw [← forall₂_and]
      refine forall₂_congr fun child _ => ?_
      rw [← imp_and]
      refine imp_congr_right fun _ => ?_
      cases hpresent : child.expectsAbsence with
      | true => simp [childCovered_iff_of_absent hpresent]
      | false => simp [childCovered_iff_of_present hpresent]
    rw [covers_iff_of_children_ne_nil hnil, hchildren]
    simp only [hnil, false_implies, true_and, ne_eq, not_false_eq_true, true_implies]

end LexiconAudit.Repository
