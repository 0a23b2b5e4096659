import LexiconAudit.Proofs.Node.Elements
import LexiconAudit.Proofs.Xml.Elements

/-!
This module contains the shape of elements that are read from a document, and what each step of reading adds to the
tree under construction: its closed elements have that shape, and its elements come in the order in which they were
opened.
-/

namespace LexiconAudit.Xml

/--
The shape of an element that was read from a document.
-/
structure IsLoaded (node : Node) : Prop where
  name_ne_empty : node.name ≠ ""
  nodup_keys : (node.attributes.map Prod.fst).Nodup
  text_eq_none : node.children ≠ [] → node.text = none
  exists_text : node.children = [] →
    ∃ text, node.text = some text ∧ (text = "" ∨ ∃ c ∈ text.toList, Text.isBlank c = false)

abbrev Attributes := List (QName × List Char)

structure Start where
  name : QName
  attributes : Attributes

/--
The name and the attributes that an element has once it is read.
-/
def Start.opening (start : Start) : String × List (String × String) :=
  (String.ofList start.name.base,
    Keyed.run (fun given => String.ofList given.1.base) (fun given _ => String.ofList given.2) start.attributes)

def openings (node : Node) : List (String × List (String × String)) :=
  node.elements.map fun element => (element.name, element.attributes)

/-! Elements that are open. -/

namespace OpenElement

structure IsSound (e : OpenElement) : Prop where
  base_ne_nil : e.name.base ≠ []
  nodup_keys : (e.attributes.map Prod.fst).Nodup
  children_loaded : ∀ child ∈ e.children, child.Throughout IsLoaded

theorem IsSound.throughout_toNode {e : OpenElement} (h : e.IsSound) : e.toNode.Throughout IsLoaded := by
  have hname : String.ofList e.name.base ≠ "" := by
    rw [Ne, ← String.toList_inj, String.toList_ofList]
    exact h.base_ne_nil
  rw [Node.throughout_iff]
  by_cases hchildren : e.children = []
  . rw [toNode_of_children_eq_nil hchildren]
    refine ⟨⟨hname, h.nodup_keys, fun hne => absurd rfl hne, fun _ => ⟨_, rfl, ?_⟩⟩, List.forall_mem_nil _⟩
    by_cases hblank : e.text.all Text.isBlank = true
    . exact .inl (if_pos hblank)
    . rw [if_neg hblank, String.toList_ofList]
      simpa using Or.inr hblank
  . rw [toNode_of_children_ne_nil hchildren]
    exact ⟨⟨hname, h.nodup_keys, fun _ => rfl, fun heq => absurd heq hchildren⟩, h.children_loaded⟩

def openings (e : OpenElement) : List (String × List (String × String)) :=
  (String.ofList e.name.base, e.attributes) :: e.children.flatMap Xml.openings

theorem openings_toNode (e : OpenElement) : Xml.openings e.toNode = e.openings := by
  unfold Xml.openings
  rw [Node.elements_eq, List.map_cons, List.map_flatMap]
  by_cases hchildren : e.children = []
  . rw [toNode_of_children_eq_nil hchildren, openings, hchildren]
    rfl
  . rw [toNode_of_children_ne_nil hchildren]
    rfl

end OpenElement

/-! Trees under construction. -/

namespace Building

structure IsSound (b : Building) : Prop where
  roots_loaded : ∀ node ∈ b.roots, node.Throughout IsLoaded
  stack_sound : ∀ e ∈ b.stack, e.IsSound

def openings (b : Building) : List (String × List (String × String)) :=
  b.roots.flatMap Xml.openings ++ b.stack.reverse.flatMap OpenElement.openings

structure Takes (b : Building) (starts : List Start) (b' : Building) : Prop where
  sound : b.IsSound → b'.IsSound
  openings_eq : b'.openings = b.openings ++ starts.map Start.opening

variable {b b' b'' : Building} {starts more : List Start}

theorem Takes.refl_of_eq (hroots : b'.roots = b.roots) (hstack : b'.stack = b.stack) : Takes b [] b' where
  sound h := ⟨hroots ▸ h.roots_loaded, hstack ▸ h.stack_sound⟩
  openings_eq := by
    rw [openings, hroots, hstack, ← openings]
    exact (List.append_nil _).symm

theorem Takes.trans (h : Takes b starts b') (h' : Takes b' more b'') : Takes b (starts ++ more) b'' where
  sound hb := h'.sound (h.sound hb)
  openings_eq := by rw [h'.openings_eq, h.openings_eq, List.map_append, List.append_assoc]

theorem Takes.of_eq (h : Takes b starts b') (hroots : b.roots = b''.roots) (hstack : b.stack = b''.stack) :
    Takes b'' starts b' :=
  (Takes.refl_of_eq hroots hstack).trans h

theorem takes_addText (b : Building) (text : List Char) : Takes b [] (b.addText text) := by
  unfold addText
  split
  . exact .refl_of_eq rfl rfl
  . next e stack hstack =>
    refine ⟨fun h => ⟨h.roots_loaded, ?_⟩, ?_⟩
    . have hsound := h.stack_sound
      rw [hstack, List.forall_mem_cons] at hsound
      exact List.forall_mem_cons.2 ⟨⟨hsound.1.base_ne_nil, hsound.1.nodup_keys, hsound.1.children_loaded⟩, hsound.2⟩
    . simp [openings, hstack, OpenElement.openings]

theorem attributes_addText (b : Building) (text : List Char) : (b.addText text).attributes = b.attributes := by
  unfold addText
  split <;> rfl

theorem isSound_addNode (h : b.IsSound) {node : Node} (hnode : node.Throughout IsLoaded) :
    (b.addNode node).IsSound := by
  unfold addNode
  split
  . refine ⟨?_, h.stack_sound⟩
    exact List.forall_mem_append.2 ⟨h.roots_loaded, List.forall_mem_singleton.2 hnode⟩
  . next e stack hstack =>
    have hsound := h.stack_sound
    rw [hstack, List.forall_mem_cons] at hsound
    refine ⟨h.roots_loaded, List.forall_mem_cons.2 ⟨⟨hsound.1.base_ne_nil, hsound.1.nodup_keys, ?_⟩, hsound.2⟩⟩
    exact List.forall_mem_append.2 ⟨hsound.1.children_loaded, List.forall_mem_singleton.2 hnode⟩

theorem openings_addNode (b : Building) (node : Node) :
    (b.addNode node).openings = b.openings ++ Xml.openings node := by
  unfold addNode
  split
  . next hstack => simp [openings, hstack]
  . next hstack => simp [openings, hstack, OpenElement.openings]

theorem attributes_addNode (b : Building) (node : Node) : (b.addNode node).attributes = b.attributes := by
  unfold addNode
  split <;> rfl

theorem element?_eq_some {name : QName} {e : OpenElement} (h : b.element? name = some e) :
    e.openings = [Start.opening ⟨name, b.attributes⟩] ∧ (name.base ≠ [] → e.IsSound) := by
  obtain ⟨attributes, hattributes, h⟩ := Option.bind_eq_some_iff.1 h
  obtain ⟨keys, -, hresolve⟩ := Option.bind_eq_some_iff.1 hattributes
  have hrun : attributes = (Start.opening ⟨name, b.attributes⟩).2 := by
    split at hresolve
    . exact (Option.some.inj hresolve).symm
    . cases hresolve
  split at h
  . cases h
    refine ⟨by rw [OpenElement.openings, hrun]; rfl, fun hbase => ⟨hbase, ?_, List.forall_mem_nil _⟩⟩
    rw [hrun]
    exact Keyed.nodup_keys_run _ _ _
  . cases h

theorem takes_openElement? {name : QName} {ending : TagEnd} (hbase : name.base ≠ []) (hending : ending ≠ .cut)
    (h : b.openElement? name ending = some b') : Takes b [⟨name, b.attributes⟩] b' ∧ b'.attributes = [] := by
  cases ending with
  | cut => exact absurd rfl hending
  | opened =>
    obtain ⟨e, helement, rfl⟩ := Option.map_eq_some_iff.1 h
    obtain ⟨hopenings, hsound⟩ := element?_eq_some helement
    refine ⟨⟨fun h => ⟨h.roots_loaded, List.forall_mem_cons.2 ⟨hsound hbase, h.stack_sound⟩⟩, ?_⟩, rfl⟩
    simp [openings, hopenings, endTag]
  | closed =>
    obtain ⟨e, helement, rfl⟩ := Option.map_eq_some_iff.1 h
    obtain ⟨hopenings, hsound⟩ := element?_eq_some helement
    refine ⟨⟨fun h => ?_, ?_⟩, attributes_addNode _ _⟩
    . exact isSound_addNode (b := b.endTag) ⟨h.roots_loaded, h.stack_sound⟩ (hsound hbase).throughout_toNode
    . rw [openings_addNode, OpenElement.openings_toNode, hopenings]
      rfl

theorem takes_closeElement? {name : QName} (h : b.closeElement? name = some b') :
    Takes b [] b' ∧ b'.attributes = [] := by
  unfold closeElement? at h
  split at h
  . cases h
  . next e stack hstack =>
    split at h
    . cases h
      refine ⟨⟨fun h => ?_, ?_⟩, attributes_addNode _ _⟩
      . have hsound := h.stack_sound
        rw [hstack, List.forall_mem_cons] at hsound
        exact isSound_addNode (b := { b.endTag with stack }) ⟨h.roots_loaded, hsound.2⟩ hsound.1.throughout_toNode
      . rw [openings_addNode, OpenElement.openings_toNode]
        simp [openings, hstack, endTag]
    . cases h

end Building

end LexiconAudit.Xml
