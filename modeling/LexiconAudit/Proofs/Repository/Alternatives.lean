import LexiconAudit.Proofs.Node.Elements
import LexiconAudit.Proofs.Repository.Reflexivity

/-!
This module contains the comparison of a gloss or a definition with a stored one in several writing systems. Only
the first alternative is looked at, so the others do not matter if and only if they stand behind the expected one.
-/

namespace LexiconAudit.Repository

open Fixture.Reader (alternative container definition gloss)

def styledText (system value : String) : Node where
  name := Node.strName
  attributes := [(Node.writingSystemKey, system)]
  children := [alternative Node.runName system value]

/--
What a fixture expects of a gloss or a definition, and the one alternative in it.
-/
inductive Multitext (system value : String) : (expected single : Node) → Prop where
  | gloss : Multitext system value (gloss system value) (alternative Node.uniName system value)
  | definition : Multitext system value (definition system value) (styledText system value)

def germanFirst : Node :=
  container Node.glossName [alternative Node.uniName "de" "y", alternative Node.uniName "en" "x"]

theorem compare_germanFirst :
    Multitext "en" "x" (gloss "en" "x") (alternative Node.uniName "en" "x") ∧
      (∀ child ∈ germanFirst.children, child.name = Node.uniName) ∧
      (germanFirst.children.map fun child => child.attribute? Node.writingSystemKey).Nodup ∧
      (∃ child ∈ germanFirst.children, compare 0 (alternative Node.uniName "en" "x") child = .ok ()) ∧
      compare 0 (gloss "en" "x") germanFirst =
        .error (.attributeDiffers Node.writingSystemKey Node.uniName 0) := by
  have hmem : alternative Node.uniName "en" "x" ∈ germanFirst.children := List.mem_cons_of_mem _ List.mem_cons_self
  refine ⟨.gloss, by decide, by decide, ⟨_, hmem, ?_⟩, ?_⟩
  . with_unfolding_all rfl
  . with_unfolding_all rfl

section Alternatives

variable {single stored fitting : Node} {before after : List Node}
  (hchildren : stored.children = before ++ fitting :: after)
  (hname : ∀ child ∈ stored.children, child.name = single.name)

include hchildren hname

theorem child?_single_eq_head? : stored.child? single.name = (before ++ fitting :: after).head? := by
  have hall : stored.childrenNamed single.name = stored.children :=
    List.filter_eq_self.2 fun child hchild => decide_eq_true (hname child hchild)
  rw [Node.child?_eq_head?, hall, hchildren]

theorem covers_container_iff_eq_nil {name system : String}
    (hsystem : single.attribute? Node.writingSystemKey = some system) (hsingle : single.name ≠ Node.messageName)
    (hpresent : single.expectsAbsence = false)
    (hapart : (stored.children.map fun child => child.attribute? Node.writingSystemKey).Nodup)
    (hfitting : Covers single fitting) : Covers (container name [single]) stored ↔ before = [] := by
  have habsence : Node.writingSystemKey ≠ Node.absenceKey := by decide
  have hreference : Node.writingSystemKey ≠ Node.referenceKey := by decide
  rw [covers_container_iff (List.cons_ne_nil single []) (List.forall_mem_singleton.2 hsingle)
    (List.forall_mem_singleton.2 hpresent), List.forall_mem_singleton, child?_single_eq_head? hchildren hname]
  constructor
  . intro ⟨found, hfound, hcovers⟩
    cases before with
    | nil => rfl
    | cons first before =>
      cases hfound
      -- the one in front and the one that fits would have the same writing system
      rw [hchildren, List.cons_append, List.map_cons, List.nodup_cons,
        hcovers.attribute? habsence hreference hsystem] at hapart
      refine absurd (List.mem_map.2 ⟨fitting, ?_, hfitting.attribute? habsence hreference hsystem⟩) hapart.1
      exact List.mem_append_right _ List.mem_cons_self
  . rintro rfl
    exact ⟨fitting, rfl, hfitting⟩

end Alternatives

/--
A stored gloss or definition whose alternatives have different writing systems passes if and only if the one that
fits is the first, whatever stands behind it.
-/
theorem compare_multitext_iff {system value : String} (hvalue : value ≠ "") {expected single : Node}
    (h : Multitext system value expected single) (record : Nat) {stored fitting : Node} {before after : List Node}
    (hchildren : stored.children = before ++ fitting :: after)
    (hname : ∀ child ∈ stored.children, child.name = single.name)
    (hapart : (stored.children.map fun child => child.attribute? Node.writingSystemKey).Nodup)
    (hfitting : compare record single fitting = .ok ()) :
    compare record expected stored = .ok () ↔ before = [] := by
  rw [compare_eq_ok_iff] at hfitting ⊢
  cases h with
  | gloss =>
    have hsingle : Node.uniName ≠ Node.messageName := by decide
    rw [gloss_of_ne_empty hvalue]
    exact covers_container_iff_eq_nil hchildren hname rfl hsingle rfl hapart hfitting
  | definition =>
    have hsingle : Node.strName ≠ Node.messageName := by decide
    rw [definition_of_ne_empty hvalue]
    exact covers_container_iff_eq_nil hchildren hname rfl hsingle rfl hapart hfitting

def starDefinition (systems : List (String × String)) : Node :=
  container Node.definitionName (systems.map fun pair => styledText pair.1 pair.2)

theorem compare_starDefinition :
    compare 2 (definition "fr" "étoile") (starDefinition [("fr", "étoile"), ("de", "Stern"), ("en", "star")]) = .ok () ∧
      compare 2 (definition "fr" "étoile") (starDefinition [("de", "Stern"), ("fr", "étoile"), ("en", "star")]) ≠
        .ok () := by
  have hfitting : compare 2 (styledText "fr" "étoile") (styledText "fr" "étoile") = .ok () := by
    with_unfolding_all rfl
  have hfront : (starDefinition [("fr", "étoile"), ("de", "Stern"), ("en", "star")]).children =
      [] ++ styledText "fr" "étoile" :: [styledText "de" "Stern", styledText "en" "star"] := rfl
  have hbehind : (starDefinition [("de", "Stern"), ("fr", "étoile"), ("en", "star")]).children =
      [styledText "de" "Stern"] ++ styledText "fr" "étoile" :: [styledText "en" "star"] := rfl
  constructor
  . exact (compare_multitext_iff (by decide) .definition 2 hfront (by decide) (by decide) hfitting).2 rfl
  . rw [ne_eq, compare_multitext_iff (by decide) .definition 2 hbehind (by decide) (by decide) hfitting]
    exact List.cons_ne_nil _ _

end LexiconAudit.Repository
