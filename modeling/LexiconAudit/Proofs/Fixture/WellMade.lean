import LexiconAudit.Proofs.Fixture.Shape
import LexiconAudit.Proofs.Node.Elements
import LexiconAudit.Proofs.Text.Case

/-!
This module contains what is true of every element that a fixture spells, whatever its strings are: it can
be named in a document, it has an attribute once, it has no text beside its children, and no marker among
its children says that there must be no messages.
-/

namespace LexiconAudit.Fixture

open Node (Throughout throughout_iff)
open Reader (alternative container definition gloss lexemeForm Message)

structure WellMade (node : Node) : Prop where
  name : node.expectsAbsence = false → Xml.IsNCName node.name
  keys : ∀ pair ∈ node.attributes, Xml.IsNCName pair.1 ∧ pair.1 ≠ "xmlns"
  nodup : (node.attributes.map Prod.fst).Nodup
  text : node.children ≠ [] → node.text = none
  markers : ∀ child ∈ node.children, child.expectsAbsence = true → child.name ≠ Node.messageName

/-! Elements without children. -/

theorem throughout_absent (name : String) : Throughout WellMade (Node.absent name) := by
  refine throughout_iff.2 ⟨⟨nofun, ?_, by simp [Node.absent], nofun, nofun⟩, nofun⟩
  exact List.forall_mem_singleton.2 ⟨by decide, by decide⟩

theorem IsMarker.throughout {node : Node} (h : IsMarker node) : Throughout WellMade node := by
  obtain ⟨field, rfl⟩ := h
  exact throughout_absent _

theorem IsMarker.name_ne_messageName {node : Node} (h : IsMarker node) : node.name ≠ Node.messageName := by
  obtain ⟨field, rfl⟩ := h
  exact Text.upperFirst_ne rfl (by decide) field

theorem wellMade_systemKey : Xml.IsNCName Node.writingSystemKey ∧ Node.writingSystemKey ≠ "xmlns" := by
  decide

theorem throughout_alternative {name : String} (hname : Xml.IsNCName name) (system value : String) :
    Throughout WellMade (alternative name system value) := by
  refine throughout_iff.2 ⟨⟨fun _ => hname, ?_, by simp [alternative], nofun, nofun⟩, nofun⟩
  exact List.forall_mem_singleton.2 wellMade_systemKey

theorem Message.attributes_toNode (m : Message) :
    m.toNode.attributes = m.status.toList.map fun status => (Node.statusKey, status) := by
  unfold Reader.Message.toNode
  split <;> next h => rw [h]; rfl

theorem Message.children_toNode (m : Message) : m.toNode.children = [] := by
  unfold Reader.Message.toNode
  split <;> rfl

theorem Message.name_toNode (m : Message) : m.toNode.name = Node.messageName := by
  unfold Reader.Message.toNode
  split <;> rfl

theorem Message.expectsAbsence_toNode (m : Message) : m.toNode.expectsAbsence = false := by
  unfold Node.expectsAbsence Node.attribute?
  rw [Message.attributes_toNode]
  cases m.status <;> rfl

theorem throughout_message (m : Message) : Throughout WellMade m.toNode := by
  refine throughout_iff.2 ⟨⟨fun _ => ?_, ?_, ?_, ?_, ?_⟩, ?_⟩
  . rw [Message.name_toNode]
    decide
  . rw [Message.attributes_toNode]
    intro pair hpair
    obtain ⟨status, -, rfl⟩ := List.mem_map.1 hpair
    exact show Xml.IsNCName Node.statusKey ∧ Node.statusKey ≠ "xmlns" by decide
  . rw [Message.attributes_toNode]
    cases m.status <;> simp
  all_goals
    rw [Message.children_toNode]
    nofun

/-! Elements with children. -/

theorem throughout_container {name : String} {children : List Node} (hname : Xml.IsNCName name)
    (hmarkers : ∀ child ∈ children, child.expectsAbsence = true → child.name ≠ Node.messageName)
    (h : ∀ child ∈ children, Throughout WellMade child) : Throughout WellMade (container name children) :=
  throughout_iff.2 ⟨⟨fun _ => hname, nofun, by simp [container], fun _ => rfl, hmarkers⟩, h⟩

theorem throughout_container_single {name : String} {child : Node} (hname : Xml.IsNCName name)
    (hpresent : child.expectsAbsence = false) (h : Throughout WellMade child) :
    Throughout WellMade (container name [child]) :=
  throughout_container hname (List.forall_mem_singleton.2 (by simp [hpresent])) (List.forall_mem_singleton.2 h)

theorem throughout_lexemeForm (system value : String) : Throughout WellMade (lexemeForm system value) := by
  apply throughout_container_single (by decide) rfl
  apply throughout_container_single (by decide) rfl
  apply throughout_container_single (by decide) rfl
  exact throughout_alternative (by decide) system value

theorem throughout_gloss (system value : String) : Throughout WellMade (gloss system value) := by
  unfold gloss
  split
  . exact throughout_absent _
  . exact throughout_container_single (by decide) rfl (throughout_alternative (by decide) system value)

theorem throughout_definition (system value : String) : Throughout WellMade (definition system value) := by
  unfold definition
  split
  . exact throughout_absent _
  . apply throughout_container_single (by decide) rfl
    refine throughout_iff.2 ⟨⟨fun _ => ?_, ?_, by simp, fun _ => rfl, ?_⟩, ?_⟩
    . exact show Xml.IsNCName Node.strName by decide
    . exact List.forall_mem_singleton.2 wellMade_systemKey
    . exact List.forall_mem_singleton.2 nofun
    . exact List.forall_mem_singleton.2 (throughout_alternative (by decide) system value)

/-! Senses, entries and notes. -/

theorem SenseChild.throughout {child : Node} (h : SenseChild child) : Throughout WellMade child := by
  cases h with
  | marker h => exact h.throughout
  | definition system value => exact throughout_definition system value
  | gloss system value => exact throughout_gloss system value

theorem SenseChild.name_ne_messageName {child : Node} (h : SenseChild child) :
    child.name ≠ Node.messageName := by
  cases h with
  | marker h => exact h.name_ne_messageName
  | definition system value =>
    unfold Reader.definition
    split <;> exact show Node.definitionName ≠ Node.messageName by decide
  | gloss system value =>
    unfold Reader.gloss
    split <;> exact show Node.glossName ≠ Node.messageName by decide

theorem SenseShape.throughout {sense : Node} (h : SenseShape sense) : Throughout WellMade sense := by
  obtain ⟨hchildren⟩ := h
  exact throughout_container (by decide) (fun child hchild _ => (hchildren child hchild).name_ne_messageName)
    fun child hchild => (hchildren child hchild).throughout

theorem SenseShape.expectsAbsence {sense : Node} (h : SenseShape sense) : sense.expectsAbsence = false := by
  obtain ⟨-⟩ := h
  rfl

theorem EntryChild.throughout {child : Node} (h : EntryChild child) : Throughout WellMade child := by
  cases h with
  | marker h => exact h.throughout
  | lexeme system value => exact throughout_lexemeForm system value
  | senses h =>
    exact throughout_container (by decide) (fun sense hsense => by simp [(h sense hsense).expectsAbsence])
      fun sense hsense => (h sense hsense).throughout

theorem EntryChild.name_ne_messageName {child : Node} (h : EntryChild child) :
    child.name ≠ Node.messageName := by
  cases h with
  | marker h => exact h.name_ne_messageName
  | lexeme => exact show Node.lexemeFormName ≠ Node.messageName by decide
  | senses => exact show Node.sensesName ≠ Node.messageName by decide

theorem EntryShape.throughout {entry : Node} (h : EntryShape entry) : Throughout WellMade entry := by
  obtain ⟨hchildren, -⟩ := h
  exact throughout_container (by decide) (fun child hchild _ => (hchildren child hchild).name_ne_messageName)
    fun child hchild => (hchildren child hchild).throughout

theorem EntryShape.expectsAbsence {entry : Node} (h : EntryShape entry) : entry.expectsAbsence = false := by
  obtain ⟨-, -⟩ := h
  rfl

theorem noteKey {key : String} (h : key = Node.classKey ∨ key = Node.referenceKey) :
    (Xml.IsNCName key ∧ key ≠ "xmlns") ∧ key ≠ Node.absenceKey := by
  rcases h with rfl | rfl <;> decide

theorem NoteShape.throughout {note : Node} (h : NoteShape note) : Throughout WellMade note := by
  obtain @⟨attributes, messages, marks, hnodup, hkeys, hmarks⟩ := h
  refine throughout_iff.2 ⟨⟨fun _ => ?_, ?_, hnodup, fun _ => rfl, ?_⟩, ?_⟩
  . exact show Xml.IsNCName Node.annotationName by decide
  . exact fun pair hpair => (noteKey (hkeys pair.1 (List.mem_map_of_mem hpair))).1
  . refine List.forall_mem_append.2 ⟨?_, fun mark hmark _ => (hmarks mark hmark).name_ne_messageName⟩
    refine List.forall_mem_map.2 fun m _ habsence => ?_
    cases (Message.expectsAbsence_toNode m).symm.trans habsence
  . refine List.forall_mem_append.2 ⟨?_, fun mark hmark => (hmarks mark hmark).throughout⟩
    exact List.forall_mem_map.2 fun m _ => throughout_message m

theorem NoteShape.expectsAbsence {note : Node} (h : NoteShape note) : note.expectsAbsence = false := by
  obtain @⟨attributes, messages, marks, hnodup, hkeys, hmarks⟩ := h
  have hnone : attributes.lookup Node.absenceKey = none := by
    refine List.lookup_eq_none_iff.2 fun pair hpair => bne_iff_ne.2 ?_
    exact (noteKey (hkeys pair.1 (List.mem_map_of_mem hpair))).2.symm
  unfold Node.expectsAbsence Node.attribute?
  dsimp only
  rw [hnone]

/-! Sections. -/

theorem SectionShape.throughout {part : Node} (h : SectionShape part) : Throughout WellMade part := by
  cases h with
  | lexicon h =>
    exact throughout_container (by decide) (fun entry hentry => by simp [(h entry hentry).expectsAbsence])
      fun entry hentry => (h entry hentry).throughout
  | notes h =>
    exact throughout_container (by decide) (fun note hnote => by simp [(h note hnote).expectsAbsence])
      fun note hnote => (h note hnote).throughout

theorem TreeShape.throughout {tree : Node} (h : TreeShape tree) : Throughout WellMade tree := by
  obtain ⟨hsections⟩ := h
  refine throughout_container (by decide) (fun part hpart => ?_)
    fun part hpart => (hsections part hpart).throughout
  cases hsections part hpart with
  | lexicon => nofun
  | notes => nofun

theorem wellMade_of_parse {text : String} {tree : Node} (h : parse text = .ok tree) :
    Throughout WellMade tree :=
  (treeShape_of_parse h).throughout

end LexiconAudit.Fixture
