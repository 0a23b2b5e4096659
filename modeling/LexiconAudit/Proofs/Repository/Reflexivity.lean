import LexiconAudit.Proofs.Fixture.WellMade
import LexiconAudit.Proofs.Keyed
import LexiconAudit.Proofs.Repository.Covering

/-!
This module contains the comparison of what fixtures spell with itself. A note always passes. An entry
passes if and only if its repetitions say nothing new, since whatever is repeated is compared with the first
element of its name.
-/

namespace LexiconAudit.Repository

open Fixture (EntryChild EntryShape NoteShape SectionShape SenseChild SenseShape)
open Fixture.Reader (alternative container definition gloss lexemeForm)

inductive Unmarked : Node → Prop where
  | mk {node : Node} : node.expectsAbsence = false → (∀ child ∈ node.children, Unmarked child) →
    Unmarked node

theorem Unmarked.present {node : Node} (h : Unmarked node) : node.expectsAbsence = false := by
  obtain ⟨hpresent, -⟩ := h
  exact hpresent

theorem Unmarked.of_mem {node child : Node} (h : Unmarked node) (hchild : child ∈ node.children) :
    Unmarked child := by
  obtain ⟨-, hchildren⟩ := h
  exact hchildren child hchild

/--
A sense says nothing but what the first sense says.
-/
def SenseRepeats (first sense : Node) : Prop :=
  if sense.children = [] then
    first.children = []
  else
    ∀ child ∈ sense.children, first.child? child.name = some child

/--
No sense of a list says anything but what the first sense of the first list says.
-/
def SensesRepeat (first senses : Node) : Prop :=
  if senses.children = [] then
    ∀ sense ∈ first.children, sense.children = []
  else
    ∃ head, first.children.head? = some head ∧ ∀ sense ∈ senses.children, SenseRepeats head sense

/--
Neither the lexemes nor the senses of an entry say more than the first of them.
-/
structure SaysOneThing (entry : Node) : Prop where
  lexemes : ∀ form ∈ entry.childrenNamed Node.lexemeFormName,
    entry.child? Node.lexemeFormName = some form
  senses : ∀ senses ∈ entry.childrenNamed Node.sensesName, ∀ first,
    entry.child? Node.sensesName = some first → SensesRepeat first senses

/-! Containers and leaves. -/

theorem values_eq_empty_iff {nodes : List Node} :
    Node.values nodes = "" ↔ ∀ node ∈ nodes, node.value = "" := by
  induction nodes with
  | nil => simp [Node.values]
  | cons node nodes ih => rw [Node.values, String.append_eq_empty_iff, List.forall_mem_cons, ih]

theorem value_container_eq_empty_iff {name : String} {children : List Node} :
    (container name children).value = "" ↔ ∀ child ∈ children, child.value = "" := by
  rw [Node.value_eq, ← values_eq_empty_iff]
  exact String.append_eq_empty_iff.trans (and_iff_right rfl)

theorem value_alternative (name system value : String) : (alternative name system value).value = value := by
  rw [Node.value_eq]
  exact String.append_empty

theorem attributeHolds_self {node : Node} (h : (node.attributes.map Prod.fst).Nodup) :
    ∀ pair ∈ node.attributes, AttributeHolds node pair := by
  intro ⟨name, value⟩ hmem
  refine .inr ⟨value, Keyed.lookup_of_mem h hmem, ?_⟩
  split
  . exact List.infix_refl _
  . rfl

theorem covers_self_of_children_eq_nil {node : Node} (hnil : node.children = [])
    (h : (node.attributes.map Prod.fst).Nodup) : Covers node node := by
  refine .leaf (attributeHolds_self h) hnil ?_
  rw [Node.value_eq, hnil]
  exact String.append_empty

theorem attributeHolds_system_iff {stored : Node} {system system' : String}
    (h : stored.attribute? Node.writingSystemKey = some system') :
    AttributeHolds stored (Node.writingSystemKey, system) ↔ system' = system := by
  unfold AttributeHolds
  rw [h]
  simp [show Node.writingSystemKey ≠ Node.absenceKey by decide,
    show Node.writingSystemKey ≠ Node.referenceKey by decide]

theorem covers_alternative_iff {name system value system' value' : String} :
    Covers (alternative name system value) (alternative name system' value') ↔
      system' = system ∧ value' = value := by
  rw [covers_iff_of_children_eq_nil rfl, value_alternative]
  refine and_congr ?_ Iff.rfl
  exact List.forall_mem_singleton.trans (attributeHolds_system_iff rfl)

theorem covers_container_iff {name : String} {children : List Node} {stored : Node} (h : children ≠ [])
    (hname : ∀ child ∈ children, child.name ≠ Node.messageName)
    (hpresent : ∀ child ∈ children, child.expectsAbsence = false) :
    Covers (container name children) stored ↔
      ∀ child ∈ children, ∃ found, stored.child? child.name = some found ∧ Covers child found := by
  have hmessages : (container name children).childrenNamed Node.messageName = [] := by
    simpa [Node.childrenNamed, container] using hname
  have hcovered {child : Node} (hchild : child ∈ children) : ChildCovered stored child ↔
      ∃ found, stored.child? child.name = some found ∧ Covers child found := by
    unfold ChildCovered
    cases stored.child? child.name with
    | none => simp [hpresent child hchild]
    | some found => simp [hpresent child hchild]
  rw [covers_iff_of_children_ne_nil h, hmessages]
  constructor
  . rintro ⟨_, _, hall⟩ child hchild
    exact (hcovered hchild).1 (hall child hchild (hname child hchild))
  . intro hall
    refine ⟨by simp [container], messagesCovered_nil _, ?_⟩
    intro child hchild _
    exact (hcovered hchild).2 (hall child hchild)

theorem covers_single_iff {expected stored child found : Node} (hexpected : expected.children = [child])
    (hstored : stored.children = [found]) (hfound : found.name = child.name)
    (hname : child.name ≠ Node.messageName) (hpresent : child.expectsAbsence = false) :
    Covers expected stored ↔
      (∀ pair ∈ expected.attributes, AttributeHolds stored pair) ∧ Covers child found := by
  have hmessages : expected.childrenNamed Node.messageName = [] := by
    simp [Node.childrenNamed, hexpected, hname]
  have hchild : stored.child? child.name = some found := by
    simp [Node.child?, hstored, hfound]
  rw [covers_iff_of_children_ne_nil (by simp [hexpected]), hmessages, hexpected]
  simp [messagesCovered_nil, ChildCovered, hname, hpresent, hchild]

/-! Lexemes, glosses and definitions cover equal ones only. -/

theorem covers_container_single_iff {name name' : String} {child found : Node}
    (hfound : found.name = child.name) (hname : child.name ≠ Node.messageName)
    (hpresent : child.expectsAbsence = false) :
    Covers (container name [child]) (container name' [found]) ↔ Covers child found := by
  rw [covers_single_iff rfl rfl hfound hname hpresent]
  simp [container]

theorem covers_lexemeForm_iff {system value system' value' : String} :
    Covers (lexemeForm system value) (lexemeForm system' value') ↔
      lexemeForm system' value' = lexemeForm system value := by
  unfold lexemeForm
  rw [covers_container_single_iff (by rfl) (by exact show Node.stemName ≠ _ by decide) (by rfl),
    covers_container_single_iff (by rfl) (by exact show Node.formName ≠ _ by decide) (by rfl),
    covers_container_single_iff (by rfl) (by exact show Node.uniName ≠ _ by decide) (by rfl),
    covers_alternative_iff]
  simp [container, alternative]

theorem SenseChild.cases_of_present {child : Node} (h : SenseChild child)
    (hpresent : child.expectsAbsence = false) :
    ∃ system value, value ≠ "" ∧ (child = definition system value ∨ child = gloss system value) := by
  cases h with
  | marker h =>
    obtain ⟨name, rfl⟩ := h
    cases hpresent
  | definition system value =>
    refine ⟨system, value, ?_, .inl rfl⟩
    rintro rfl
    cases hpresent
  | gloss system value =>
    refine ⟨system, value, ?_, .inr rfl⟩
    rintro rfl
    cases hpresent

theorem definition_of_ne_empty {system value : String} (h : value ≠ "") :
    definition system value = container Node.definitionName [{
      name := Node.strName
      attributes := [(Node.writingSystemKey, system)]
      children := [alternative Node.runName system value] }] :=
  if_neg (by simpa using h)

theorem gloss_of_ne_empty {system value : String} (h : value ≠ "") :
    gloss system value = container Node.glossName [alternative Node.uniName system value] :=
  if_neg (by simpa using h)

theorem covers_definition_iff {system value system' value' : String} (h : value ≠ "") (h' : value' ≠ "") :
    Covers (definition system value) (definition system' value') ↔
      definition system' value' = definition system value := by
  rw [definition_of_ne_empty h, definition_of_ne_empty h',
    covers_container_single_iff (by rfl) (by exact show Node.strName ≠ _ by decide) (by rfl),
    covers_single_iff rfl rfl (by rfl) (by exact show Node.runName ≠ _ by decide) (by rfl)]
  rw [covers_alternative_iff, List.forall_mem_singleton, attributeHolds_system_iff (by rfl)]
  simp [container, alternative]

theorem covers_gloss_iff {system value system' value' : String} (h : value ≠ "") (h' : value' ≠ "") :
    Covers (gloss system value) (gloss system' value') ↔ gloss system' value' = gloss system value := by
  rw [gloss_of_ne_empty h, gloss_of_ne_empty h',
    covers_container_single_iff (by rfl) (by exact show Node.uniName ≠ _ by decide) (by rfl)]
  rw [covers_alternative_iff]
  simp [container, alternative]

theorem SenseChild.covers_iff {child found : Node} (hchild : SenseChild child) (hfound : SenseChild found)
    (hpresent : child.expectsAbsence = false) (hpresent' : found.expectsAbsence = false)
    (hname : found.name = child.name) : Covers child found ↔ found = child := by
  have hne : Node.definitionName ≠ Node.glossName := by decide
  obtain ⟨system, value, h, rfl | rfl⟩ := SenseChild.cases_of_present hchild hpresent
  . obtain ⟨system', value', h', rfl | rfl⟩ := SenseChild.cases_of_present hfound hpresent'
    . exact covers_definition_iff h h'
    . rw [gloss_of_ne_empty h', definition_of_ne_empty h] at hname
      exact absurd hname.symm hne
  . obtain ⟨system', value', h', rfl | rfl⟩ := SenseChild.cases_of_present hfound hpresent'
    . rw [definition_of_ne_empty h', gloss_of_ne_empty h] at hname
      exact absurd hname hne
    . exact covers_gloss_iff h h'

theorem SenseChild.value_ne_empty {child : Node} (h : SenseChild child)
    (hpresent : child.expectsAbsence = false) : child.value ≠ "" := by
  obtain ⟨system, value, hvalue, rfl | rfl⟩ := SenseChild.cases_of_present h hpresent
  . rw [definition_of_ne_empty hvalue, ne_eq, value_container_eq_empty_iff]
    rw [List.forall_mem_singleton, Node.value_eq]
    simp [Node.values, value_alternative, hvalue]
  . rw [gloss_of_ne_empty hvalue, ne_eq, value_container_eq_empty_iff]
    rw [List.forall_mem_singleton, value_alternative]
    exact hvalue

/-! Senses. -/

theorem SenseShape.value_eq_empty_iff {sense : Node} (h : SenseShape sense) (hunmarked : Unmarked sense) :
    sense.value = "" ↔ sense.children = [] := by
  cases h with
  | @mk children hchildren =>
    rw [value_container_eq_empty_iff]
    change _ ↔ children = []
    constructor
    . intro hempty
      refine List.eq_nil_iff_forall_not_mem.2 fun child hchild => ?_
      exact SenseChild.value_ne_empty (hchildren child hchild) (hunmarked.of_mem hchild).present
        (hempty child hchild)
    . rintro rfl
      nofun

theorem SenseShape.covers_iff {sense first : Node} (h : SenseShape sense) (hfirst : SenseShape first)
    (hunmarked : Unmarked sense) (hunmarked' : Unmarked first) :
    Covers sense first ↔ SenseRepeats first sense := by
  unfold SenseRepeats
  split
  . next hnil =>
    rw [covers_iff_of_children_eq_nil hnil, ← SenseShape.value_eq_empty_iff hfirst hunmarked']
    obtain ⟨_⟩ := h
    simp [container]
  . next hne =>
    obtain ⟨hchildren⟩ := h
    obtain ⟨hothers⟩ := hfirst
    have hpresent := fun child (hchild : child ∈ _) => (hunmarked.of_mem hchild).present
    refine (covers_container_iff hne (fun child hchild =>
      (hchildren child hchild).name_ne_messageName) hpresent).trans ?_
    refine forall₂_congr fun child hchild => ?_
    constructor
    -- children of one name cover each other only if they are equal
    . rintro ⟨found, hfound, hcovers⟩
      have hmem := List.mem_of_find?_eq_some hfound
      have hname : found.name = child.name := by simpa using List.find?_some hfound
      have heq := (SenseChild.covers_iff (hchildren child hchild) (hothers found hmem)
        (hpresent child hchild) (hunmarked'.of_mem hmem).present hname).1 hcovers
      rwa [heq] at hfound
    . intro hfound
      refine ⟨child, hfound, ?_⟩
      exact (SenseChild.covers_iff (hchildren child hchild) (hchildren child hchild)
        (hpresent child hchild) (hpresent child hchild) rfl).2 rfl

theorem child?_senseName_eq_head? {nodes : List Node} (h : ∀ node ∈ nodes, SenseShape node) :
    (container Node.sensesName nodes).child? Node.senseName = nodes.head? := by
  cases nodes with
  | nil => rfl
  | cons node nodes =>
    obtain ⟨-⟩ := h node List.mem_cons_self
    rfl

theorem covers_senses_iff {nodes others : List Node} (h : ∀ node ∈ nodes, SenseShape node)
    (hothers : ∀ node ∈ others, SenseShape node) (hunmarked : ∀ node ∈ nodes, Unmarked node)
    (hunmarked' : ∀ node ∈ others, Unmarked node) :
    Covers (container Node.sensesName nodes) (container Node.sensesName others) ↔
      SensesRepeat (container Node.sensesName others) (container Node.sensesName nodes) := by
  unfold SensesRepeat
  split
  . next hnil =>
    rw [covers_iff_of_children_eq_nil hnil]
    have hempty : (∀ sense ∈ others, sense.value = "") ↔ ∀ sense ∈ others, sense.children = [] :=
      forall₂_congr fun sense hsense =>
        SenseShape.value_eq_empty_iff (hothers sense hsense) (hunmarked' sense hsense)
    change (∀ pair ∈ [], _) ∧ (container Node.sensesName others).value = "" ↔ ∀ sense ∈ others, _
    rw [value_container_eq_empty_iff, hempty]
    simp
  . next hne =>
    have hne : nodes ≠ [] := hne
    have hname : ∀ node ∈ nodes, node.name = Node.senseName := by
      intro node hnode
      obtain ⟨-⟩ := h node hnode
      rfl
    have hhead : ∀ node ∈ nodes,
        ((∃ found, (container Node.sensesName others).child? node.name = some found ∧ Covers node found) ↔
          ∃ head, others.head? = some head ∧ SenseRepeats head node) := by
      intro node hnode
      rw [hname node hnode, child?_senseName_eq_head? hothers]
      refine exists_congr fun head => and_congr_right fun hhead => ?_
      have hmem := List.mem_of_mem_head? hhead
      exact SenseShape.covers_iff (h node hnode) (hothers head hmem) (hunmarked node hnode)
        (hunmarked' head hmem)
    rw [covers_container_iff hne (fun node hnode => hname node hnode ▸ by decide)
      fun node hnode => (hunmarked node hnode).present]
    refine (forall₂_congr hhead).trans ?_
    change _ ↔ ∃ head, others.head? = some head ∧ ∀ node ∈ nodes, SenseRepeats head node
    cases others.head? with
    | none =>
      obtain ⟨node, hnode⟩ := List.exists_mem_of_ne_nil nodes hne
      simp only [reduceCtorEq, false_and, exists_false, imp_false, iff_false, not_forall, not_not]
      exact ⟨node, hnode⟩
    | some head => simp

/-! Entries and notes. -/

theorem EntryChild.cases_of_present {child : Node} (h : EntryChild child)
    (hpresent : child.expectsAbsence = false) :
    (∃ system value, child = lexemeForm system value) ∨
      ∃ nodes, child = container Node.sensesName nodes ∧ ∀ node ∈ nodes, SenseShape node := by
  cases h with
  | marker h =>
    obtain ⟨name, rfl⟩ := h
    cases hpresent
  | lexeme system value => exact .inl ⟨system, value, rfl⟩
  | senses h => exact .inr ⟨_, rfl, h⟩

theorem mem_of_child? {node found : Node} {name : String} (h : node.child? name = some found) :
    found ∈ node.children ∧ found.name = name :=
  ⟨List.mem_of_find?_eq_some h, by simpa using List.find?_some h⟩

theorem isSome_child?_of_mem {node child : Node} (h : child ∈ node.children) :
    (node.child? child.name).isSome := by
  unfold Node.child?
  rw [List.find?_isSome]
  exact ⟨child, h, by simp⟩

section Entries

variable {entry : Node} (h : ∀ child ∈ entry.children, EntryChild child) (hunmarked : Unmarked entry)

include h hunmarked

theorem exists_covers_lexemeForm_iff {system value : String} :
    (∃ found, entry.child? Node.lexemeFormName = some found ∧ Covers (lexemeForm system value) found) ↔
      entry.child? Node.lexemeFormName = some (lexemeForm system value) := by
  constructor
  . intro ⟨found, hfound, hcovers⟩
    obtain ⟨hmem, hname⟩ := mem_of_child? hfound
    rcases EntryChild.cases_of_present (h found hmem) (hunmarked.of_mem hmem).present with
      ⟨system', value', rfl⟩ | ⟨nodes, rfl, -⟩
    . rw [hfound, covers_lexemeForm_iff.1 hcovers]
    . exact absurd (show Node.sensesName = Node.lexemeFormName from hname) (by decide)
  . intro hfound
    exact ⟨_, hfound, covers_lexemeForm_iff.2 rfl⟩

theorem exists_covers_senses_iff {nodes : List Node} (hnodes : ∀ node ∈ nodes, SenseShape node)
    (hmem : container Node.sensesName nodes ∈ entry.children) :
    (∃ found, entry.child? Node.sensesName = some found ∧ Covers (container Node.sensesName nodes) found) ↔
      ∀ first, entry.child? Node.sensesName = some first →
        SensesRepeat first (container Node.sensesName nodes) := by
  have hsome : (entry.child? Node.sensesName).isSome := isSome_child?_of_mem hmem
  obtain ⟨found, hfound⟩ := Option.isSome_iff_exists.1 hsome
  obtain ⟨hfoundmem, hname⟩ := mem_of_child? hfound
  simp only [hfound, Option.some.injEq, exists_eq_left', forall_eq']
  rcases EntryChild.cases_of_present (h found hfoundmem) (hunmarked.of_mem hfoundmem).present with
    ⟨system, value, rfl⟩ | ⟨others, rfl, hothers⟩
  . exact absurd (show Node.lexemeFormName = Node.sensesName from hname) (by decide)
  . exact covers_senses_iff hnodes hothers (fun node hnode => (hunmarked.of_mem hmem).of_mem hnode)
      fun node hnode => (hunmarked.of_mem hfoundmem).of_mem hnode

end Entries

theorem covers_entry_iff {entry : Node} (h : EntryShape entry) (hunmarked : Unmarked entry) :
    Covers entry entry ↔ SaysOneThing entry := by
  obtain ⟨hchildren, hlexeme⟩ := h
  have hpresent := fun child (hchild : child ∈ _) => (hunmarked.of_mem hchild).present
  rw [covers_container_iff (List.ne_nil_of_mem hlexeme) (fun child hchild =>
    (hchildren child hchild).name_ne_messageName) hpresent]
  constructor
  . intro hcovers
    refine ⟨fun form hform => ?_, fun senses hsenses => ?_⟩
    . obtain ⟨hmem, hname⟩ := List.mem_filter.1 hform
      rcases EntryChild.cases_of_present (hchildren form hmem) (hpresent form hmem) with
        ⟨system, value, rfl⟩ | ⟨nodes, rfl, -⟩
      . exact (exists_covers_lexemeForm_iff hchildren hunmarked).1 (hcovers _ hmem)
      . exact absurd hname (show ¬decide (Node.sensesName = Node.lexemeFormName) = true by decide)
    . obtain ⟨hmem, hname⟩ := List.mem_filter.1 hsenses
      rcases EntryChild.cases_of_present (hchildren senses hmem) (hpresent senses hmem) with
        ⟨system, value, rfl⟩ | ⟨nodes, rfl, hnodes⟩
      . exact absurd hname (show ¬decide (Node.lexemeFormName = Node.sensesName) = true by decide)
      . exact (exists_covers_senses_iff hchildren hunmarked hnodes hmem).1 (hcovers _ hmem)
  . intro ⟨hlexemes, hsenses⟩ child hmem
    rcases EntryChild.cases_of_present (hchildren child hmem) (hpresent child hmem) with
      ⟨system, value, rfl⟩ | ⟨nodes, rfl, hnodes⟩
    . refine (exists_covers_lexemeForm_iff hchildren hunmarked).2 (hlexemes _ ?_)
      exact List.mem_filter.2 ⟨hmem, show decide (Node.lexemeFormName = Node.lexemeFormName) = true by decide⟩
    . refine (exists_covers_senses_iff hchildren hunmarked hnodes hmem).2 (hsenses _ ?_)
      exact List.mem_filter.2 ⟨hmem, show decide (Node.sensesName = Node.sensesName) = true by decide⟩

theorem covers_message (m : Fixture.Reader.Message) : Covers m.toNode m.toNode := by
  exact covers_self_of_children_eq_nil (Fixture.Message.children_toNode m)
    (Fixture.throughout_message m).self.nodup

theorem covers_note {note : Node} (h : NoteShape note) (hunmarked : Unmarked note) : Covers note note := by
  cases h with
  | @mk attributes messages marks hnodup _ hmarks =>
    -- without markers a note holds messages and nothing else
    have hnil : marks = [] := by
      refine List.eq_nil_iff_forall_not_mem.2 fun mark hmark => ?_
      have hpresent := (hunmarked.of_mem (List.mem_append_right _ hmark)).present
      obtain ⟨name, rfl⟩ := hmarks mark hmark
      cases hpresent
    subst hnil
    rw [List.append_nil] at hunmarked ⊢
    cases messages with
    | nil => exact covers_self_of_children_eq_nil rfl hnodup
    | cons first messages =>
      rw [covers_iff_of_children_ne_nil (by simp)]
      have hname : ∀ child ∈ (first :: messages).map Fixture.Reader.Message.toNode,
          child.name = Node.messageName := by
        intro child hchild
        obtain ⟨m, -, rfl⟩ := List.mem_map.1 hchild
        exact Fixture.Message.name_toNode m
      refine ⟨attributeHolds_self hnodup, ⟨_, [], (List.append_nil _).symm, ?_⟩, ?_⟩
      . refine List.forall₂_same.2 fun child hchild => ?_
        obtain ⟨m, -, rfl⟩ := List.mem_map.1 (List.mem_filter.1 hchild).1
        exact covers_message m
      . intro child hchild hother
        exact absurd (hname child hchild) hother

/--
Of what a fixture without markers spells, every note passes when it is compared with itself, and an entry
does if and only if it says one thing.
-/
theorem compare_self_eq_ok_iff {text : String} {tree : Node} (h : Fixture.parse text = .ok tree)
    (hunmarked : Unmarked tree) (record : Nat) {part node : Node} (hpart : part ∈ tree.children)
    (hnode : node ∈ part.children) :
    (node.name = Node.annotationName → compare record node node = .ok ()) ∧
      (node.name = Node.entryName → (compare record node node = .ok () ↔ SaysOneThing node)) := by
  have hbelow := (hunmarked.of_mem hpart).of_mem hnode
  rw [compare_eq_ok_iff]
  obtain ⟨hsections⟩ := Fixture.treeShape_of_parse h
  cases hsections part hpart with
  | lexicon hentries =>
    have hentry := hentries node hnode
    refine ⟨fun hname => ?_, fun _ => covers_entry_iff hentry hbelow⟩
    obtain ⟨-, -⟩ := hentry
    exact absurd (show Node.entryName = Node.annotationName from hname) (by decide)
  | notes hnotes =>
    have hnote := hnotes node hnode
    refine ⟨fun _ => covers_note hnote hbelow, fun hname => ?_⟩
    obtain ⟨-, -, -⟩ := hnote
    exact absurd (show Node.annotationName = Node.entryName from hname) (by decide)

/-! An entry whose two senses differ, and a fixture that passes. -/

theorem unmarked_container {name : String} {children : List Node} (h : ∀ child ∈ children, Unmarked child) :
    Unmarked (container name children) :=
  .mk rfl h

theorem unmarked_single {name : String} {child : Node} (h : Unmarked child) :
    Unmarked (container name [child]) :=
  unmarked_container (List.forall_mem_singleton.2 h)

theorem unmarked_alternative (name system value : String) : Unmarked (alternative name system value) :=
  .mk rfl nofun

theorem unmarked_lexemeForm (system value : String) : Unmarked (lexemeForm system value) :=
  unmarked_single (unmarked_single (unmarked_single (unmarked_alternative _ _ _)))

theorem unmarked_gloss {system value : String} (h : value ≠ "") : Unmarked (gloss system value) := by
  rw [gloss_of_ne_empty h]
  exact unmarked_single (unmarked_alternative _ _ _)

def sensesEntry (first second : String) : Node :=
  container Node.entryName [lexemeForm "en" "sun", container Node.sensesName [
    container Node.senseName [gloss "en" first], container Node.senseName [gloss "en" second]]]

theorem unmarked_sensesEntry {first second : String} (hfirst : first ≠ "") (hsecond : second ≠ "") :
    Unmarked (sensesEntry first second) := by
  apply unmarked_container
  rw [List.forall_mem_cons, List.forall_mem_singleton]
  refine ⟨unmarked_lexemeForm _ _, unmarked_container ?_⟩
  rw [List.forall_mem_cons, List.forall_mem_singleton]
  exact ⟨unmarked_single (unmarked_gloss hfirst), unmarked_single (unmarked_gloss hsecond)⟩

def twoSensesText : String :=
  "[\x7blexicon: [\x7blexeme: \x7ben: \x7bvalue: 'sun'\x7d\x7d, senses: ["
    ++ "\x7bgloss: \x7ben: \x7bvalue: 'star'\x7d\x7d\x7d, "
    ++ "\x7bgloss: \x7ben: \x7bvalue: 'light'\x7d\x7d\x7d]\x7d]\x7d]"

def twoSensesTree : Node :=
  container Node.rootName [container Node.lexiconName [sensesEntry "star" "light"]]

set_option maxRecDepth 10000 in
theorem compare_twoSensesEntry :
    Fixture.parse twoSensesText = .ok twoSensesTree ∧ Unmarked twoSensesTree ∧
      compare 0 (sensesEntry "star" "light") (sensesEntry "star" "light") =
        .error (.valueDiffers Node.uniName 0) := by
  refine ⟨by with_unfolding_all rfl, ?_, by with_unfolding_all rfl⟩
  exact unmarked_single (unmarked_single (unmarked_sensesEntry (by decide) (by decide)))

def echoText : String :=
  "[\x7blexicon: [\x7blexeme: \x7ben: \x7bvalue: 'sun'\x7d\x7d, senses: ["
    ++ "\x7bgloss: \x7ben: \x7bvalue: 'star'\x7d\x7d\x7d, "
    ++ "\x7bgloss: \x7ben: \x7bvalue: 'star'\x7d\x7d\x7d]\x7d]\x7d, "
    ++ "\x7bnotes: [\x7bref: 'sun', message: \x7bvalue: 'check'\x7d, replies: [\x7bvalue: 'done'\x7d]\x7d]\x7d]"

def threadNote : Node where
  name := Node.annotationName
  attributes := [(Node.referenceKey, "label=sun")]
  children := [.leaf Node.messageName "check", .leaf Node.messageName "done"]

def echoTree : Node :=
  container Node.rootName [container Node.lexiconName [sensesEntry "star" "star"],
    container Node.notesName [threadNote]]

theorem saysOneThing_sensesEntry (gloss : String) : SaysOneThing (sensesEntry gloss gloss) where
  lexemes form hform := by
    have hforms : (sensesEntry gloss gloss).childrenNamed Node.lexemeFormName = [lexemeForm "en" "sun"] := rfl
    rw [hforms, List.mem_singleton] at hform
    rw [hform]
    rfl
  senses senses hsenses first hfirst := by
    cases List.mem_singleton.1 hsenses
    cases hfirst
    have hrepeats : SenseRepeats (container Node.senseName [Fixture.Reader.gloss "en" gloss])
        (container Node.senseName [Fixture.Reader.gloss "en" gloss]) := by
      simp [SenseRepeats, container, Node.child?]
    exact ⟨_, rfl, List.forall_mem_cons.2 ⟨hrepeats, List.forall_mem_singleton.2 hrepeats⟩⟩

set_option maxRecDepth 10000 in
theorem compare_echoTree : compare 3 threadNote threadNote = .ok () ∧
    SaysOneThing (sensesEntry "star" "star") ∧
      compare 3 (sensesEntry "star" "star") (sensesEntry "star" "star") = .ok () := by
  have hparse : Fixture.parse echoText = .ok echoTree := by with_unfolding_all rfl
  have hunmarked : Unmarked echoTree := by
    apply unmarked_container
    rw [List.forall_mem_cons, List.forall_mem_singleton]
    refine ⟨unmarked_single (unmarked_sensesEntry (by decide) (by decide)), unmarked_single ?_⟩
    exact .mk rfl (List.forall_mem_cons.2 ⟨.mk rfl nofun, List.forall_mem_singleton.2 (.mk rfl nofun)⟩)
  have hself := @compare_self_eq_ok_iff _ _ hparse hunmarked 3
  have hnote := (hself (List.mem_cons_of_mem _ List.mem_cons_self) List.mem_cons_self).1 rfl
  have hentry := (hself List.mem_cons_self List.mem_cons_self).2 rfl
  have hsame := saysOneThing_sensesEntry "star"
  exact ⟨hnote, hsame, hentry.2 hsame⟩

end LexiconAudit.Repository
