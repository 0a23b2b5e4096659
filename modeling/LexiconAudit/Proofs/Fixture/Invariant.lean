import LexiconAudit.Proofs.Fixture.References
import LexiconAudit.Proofs.Fixture.WellMade
import LexiconAudit.Proofs.Keyed

/-!
This module contains the invariant of the trees that fixtures spell, element by element and without the
readers: what an element is called, its attributes and its text, and what its children are. Both sides of an
audit rely on it. Comments may stand anywhere in the text.
-/

namespace LexiconAudit.Fixture

open Node (Throughout)
open Reader (Message)

structure Encloses (name : String) (P : Node → Prop) (node : Node) : Prop where
  name : node.name = name
  attributes : node.attributes = []
  text : node.text = none
  children : ∀ child ∈ node.children, P child

def LexemeForm (node : Node) : Prop :=
  ∃ system value, node = {
    name := Node.lexemeFormName
    children := [{
      name := Node.stemName
      children := [{
        name := Node.formName
        children := [{
          name := Node.uniName
          attributes := [(Node.writingSystemKey, system)]
          text := some value }] }] }] }

def DefinitionForm (node : Node) : Prop :=
  ∃ system value, value ≠ "" ∧ node = {
    name := Node.definitionName
    children := [{
      name := Node.strName
      attributes := [(Node.writingSystemKey, system)]
      children := [{
        name := Node.runName
        attributes := [(Node.writingSystemKey, system)]
        text := some value }] }] }

def GlossForm (node : Node) : Prop :=
  ∃ system value, value ≠ "" ∧ node = {
    name := Node.glossName
    children := [{
      name := Node.uniName
      attributes := [(Node.writingSystemKey, system)]
      text := some value }] }

/--
A marker says that something must not be there, and nothing else.
-/
structure MarkerForm (node : Node) : Prop where
  name : node.name ≠ ""
  attributes : node.attributes = [(Node.absenceKey, "true")]
  text : node.text = none
  children : node.children = []

/--
A message has a text, be it empty, and at most a status.
-/
structure MessageForm (node : Node) : Prop where
  name : node.name = Node.messageName
  attributes : node.attributes = [] ∨ ∃ status, node.attributes = [(Node.statusKey, status)]
  text : ∃ text, node.text = some text
  children : node.children = []

/--
A note has at most one class and at most one reference, which is a labelled one. Its messages come before its
markers.
-/
structure NoteForm (node : Node) : Prop where
  name : node.name = Node.annotationName
  nodup : (node.attributes.map Prod.fst).Nodup
  attributes : ∀ pair ∈ node.attributes, pair.1 = Node.classKey ∨
    pair.1 = Node.referenceKey ∧ ∃ target, pair.2 = Node.labelMark ++ target
  text : node.text = none
  children : ∃ messages marks, node.children = messages ++ marks ∧ (∀ message ∈ messages, MessageForm message) ∧
    ∀ mark ∈ marks, MarkerForm mark

def SenseForm : Node → Prop :=
  Encloses Node.senseName fun child => DefinitionForm child ∨ GlossForm child ∨ MarkerForm child

def SensesForm : Node → Prop :=
  Encloses Node.sensesName SenseForm

/--
At least one of the children of an entry is a lexeme.
-/
structure EntryForm (node : Node) : Prop where
  encloses : Encloses Node.entryName (fun child => LexemeForm child ∨ SensesForm child ∨ MarkerForm child) node
  lexeme : ∃ child ∈ node.children, LexemeForm child

def TreeForm : Node → Prop :=
  Encloses Node.rootName fun part => Encloses Node.lexiconName EntryForm part ∨ Encloses Node.notesName NoteForm part

/-! The parts of entries. -/

theorem encloses_container {name : String} {P : Node → Prop} {children : List Node}
    (h : ∀ child ∈ children, P child) : Encloses name P (Reader.container name children) :=
  ⟨rfl, rfl, rfl, h⟩

theorem markerForm_absent {name : String} (h : name ≠ "") : MarkerForm (.absent name) :=
  ⟨h, rfl, rfl, rfl⟩

theorem IsMarker.form {node : Node} (h : IsMarker node) : MarkerForm node := by
  obtain ⟨field, rfl⟩ := h
  exact markerForm_absent (Text.upperFirst_ne_empty field.2)

theorem lexemeForm_form (system value : String) : LexemeForm (Reader.lexemeForm system value) :=
  ⟨system, value, rfl⟩

theorem SenseChild.form {child : Node} (h : SenseChild child) :
    DefinitionForm child ∨ GlossForm child ∨ MarkerForm child := by
  cases h with
  | marker h => exact .inr (.inr h.form)
  | definition system value =>
    unfold Reader.definition
    split
    . exact .inr (.inr (markerForm_absent (by decide)))
    . next hvalue => exact .inl ⟨system, value, fun heq => hvalue (heq ▸ rfl), rfl⟩
  | gloss system value =>
    unfold Reader.gloss
    split
    . exact .inr (.inr (markerForm_absent (by decide)))
    . next hvalue => exact .inr (.inl ⟨system, value, fun heq => hvalue (heq ▸ rfl), rfl⟩)

theorem SenseShape.form {sense : Node} (h : SenseShape sense) : SenseForm sense := by
  obtain ⟨hchildren⟩ := h
  exact encloses_container fun child hchild => (hchildren child hchild).form

theorem EntryChild.form {child : Node} (h : EntryChild child) :
    LexemeForm child ∨ SensesForm child ∨ MarkerForm child := by
  cases h with
  | marker h => exact .inr (.inr h.form)
  | lexeme system value => exact .inl (lexemeForm_form system value)
  | senses h => exact .inr (.inl (encloses_container fun sense hsense => (h sense hsense).form))

theorem EntryShape.form {entry : Node} (h : EntryShape entry) : EntryForm entry := by
  obtain ⟨hchildren, hlexeme⟩ := h
  exact ⟨encloses_container fun child hchild => (hchildren child hchild).form,
    _, hlexeme, lexemeForm_form _ _⟩

/-! The parts of notes. -/

theorem Message.form (m : Message) : MessageForm m.toNode where
  name := Message.name_toNode m
  attributes := by
    rw [Message.attributes_toNode]
    cases m.status with
    | none => exact .inl rfl
    | some status => exact .inr ⟨status, rfl⟩
  text := by
    unfold Reader.Message.toNode
    split <;> exact ⟨_, rfl⟩
  children := Message.children_toNode m

theorem NoteShape.form {note : Node} (h : NoteShape note) (hlabelled : Labelled note) : NoteForm note := by
  obtain @⟨attributes, messages, marks, hnodup, hkeys, hmarks⟩ := h
  refine ⟨rfl, hnodup, fun ⟨key, value⟩ hpair => ?_, rfl, ?_⟩
  . rcases hkeys key (List.mem_map_of_mem hpair) with rfl | rfl
    . exact .inl rfl
    . exact .inr ⟨rfl, hlabelled value (Keyed.lookup_of_mem hnodup hpair)⟩
  . refine ⟨messages.map Message.toNode, marks, rfl, ?_, fun mark hmark => (hmarks mark hmark).form⟩
    exact List.forall_mem_map.2 fun m _ => Message.form m

/-! Trees. -/

theorem treeForm_of_parse {text : String} {tree : Node} (h : parse text = .ok tree) : TreeForm tree := by
  obtain ⟨tokens, -, htokens⟩ := bind_eq_ok_iff.1 h
  have hnote : Reader.note.Answers fun note => NoteShape note ∧ Labelled note :=
    fun _ _ _ hrun => ⟨answers_note hrun, answers_note_labelled hrun⟩
  obtain ⟨sections, rfl, hsections⟩ := sections_of_ofTokens answers_entry hnote htokens
  refine encloses_container fun part hpart => ?_
  cases hsections part hpart with
  | lexicon hentries => exact .inl (encloses_container fun entry hentry => (hentries entry hentry).form)
  | notes hnotes => exact .inr (encloses_container fun note hnote => (hnotes note hnote).1.form (hnotes note hnote).2)

/--
Every tree that a text spells has the form, wherever comments stand in the text, and none of its elements has
both a text and children.
-/
theorem treeForm_unmixed_of_parse {text : String} {tree : Node} (h : parse text = .ok tree) :
    TreeForm tree ∧ Throughout (fun node => node.text = none ∨ node.children = []) tree := by
  refine ⟨treeForm_of_parse h, (wellMade_of_parse h).mono fun node hnode => ?_⟩
  by_cases hchildren : node.children = []
  . exact .inr hchildren
  . exact .inl (hnode.text hchildren)

/-! An empty definition, and comments in front of a section, behind a sense and in a message. -/

def duskText : String :=
  "[// no top\n\x7blexicon: [\x7blexeme: \x7ben: \x7bvalue: 'dusk'\x7d\x7d, senses: ["
    ++ "\x7bdefinition: \x7ben: \x7bvalue: ''\x7d\x7d\x7d /* no gloss */]\x7d],"
    ++ " notes: [\x7bref: 'dusk', message: \x7b/* no class */ value: 'when?'\x7d\x7d]\x7d]"

def duskTree : Node :=
  { name := Node.rootName, children := [
    { name := Node.lexiconName, children := [{ name := Node.entryName, children := [
      Reader.lexemeForm "en" "dusk",
      { name := Node.sensesName, children := [{ name := Node.senseName, children := [
        .absent Node.definitionName, .absent Node.glossName] }] }] }] },
    { name := Node.notesName, children := [{
      name := Node.annotationName
      attributes := [(Node.referenceKey, "label=dusk")]
      children := [.leaf Node.messageName "when?"] }] }] }

set_option maxRecDepth 10000 in
theorem treeForm_duskTree :
    parse duskText = .ok duskTree ∧ TreeForm duskTree ∧
      Throughout (fun node => node.text = none ∨ node.children = []) duskTree := by
  have hparse : parse duskText = .ok duskTree := by with_unfolding_all rfl
  exact ⟨hparse, treeForm_unmixed_of_parse hparse⟩

end LexiconAudit.Fixture
