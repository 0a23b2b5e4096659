import LexiconAudit.Proofs.Fixture.WellMade
import LexiconAudit.Proofs.Repository.Reflexivity
import LexiconAudit.Proofs.Repository.SearchKey
import Mathlib.Data.List.Nodup

/-!
This module contains what is stored of a tree that a fixture spells: its entries in one lexicon and its
notes, both without their markers. What is read of an element that was stored covers the element, if the
names of its children tell them apart and its strings survive being written.
-/

namespace LexiconAudit.Repository

open Fixture (EntryShape NoteShape TreeShape WellMade)
open Fixture.Reader (alternative container lexemeForm)
open Node (Throughout throughout_iff)

def entriesOf (tree : Node) : List Node :=
  (tree.childrenNamed Node.lexiconName).flatMap Node.children

theorem mem_entriesOf_iff {tree entry : Node} : entry ∈ entriesOf tree ↔
    ∃ part ∈ tree.children, part.name = Node.lexiconName ∧ entry ∈ part.children := by
  unfold entriesOf Node.childrenNamed
  rw [List.mem_flatMap]
  simp only [List.mem_filter, decide_eq_true_eq, and_assoc]

def lexiconOf (tree : Node) : Node :=
  container Node.lexiconName ((entriesOf tree).map Node.withoutMarkers)

def entryKey? (entry : Node) : Option (List Char) :=
  entry.entryForm?.map searchKey

/-! Which trees can be stored. -/

/--
Every child that is no marker has a name of its own.
-/
def NoRepeats (node : Node) : Prop :=
  (node.present.map Node.name).Nodup

/--
No marker has the name of a child that is no marker.
-/
def MarkersApart (node : Node) : Prop :=
  ∀ mark ∈ node.children, mark.expectsAbsence = true → ∀ child ∈ node.present, mark.name ≠ child.name

/--
The strings of an element survive being written. In an attribute tabs and line feeds would become blanks,
and a text of blanks alone would be lost.
-/
structure Plain (node : Node) : Prop where
  values : ∀ pair ∈ node.attributes, Xml.WritableText pair.2 ∧ '\t' ∉ pair.2.toList ∧ '\n' ∉ pair.2.toList
  text : ∀ text ∈ node.text, Xml.WritableText text
  visible : ∀ text ∈ node.text, Text.allBlank text = true → text = ""

/--
Entries say everything once and differ in their forms, markers are not about what is there, the notes are in
one section, and all strings survive being written.
-/
structure Storable (tree : Node) : Prop where
  single : ∀ entry ∈ entriesOf tree, entry.Throughout NoRepeats
  apart : tree.Throughout MarkersApart
  keys : ((entriesOf tree).map entryKey?).Nodup
  notes : (tree.childrenNamed Node.notesName).length ≤ 1
  strings : tree.Throughout Plain

instance : DecidablePred NoRepeats := fun _ =>
  inferInstanceAs (Decidable (List.Nodup _))

instance : DecidablePred MarkersApart := fun _ =>
  inferInstanceAs (Decidable (∀ _ ∈ _, _ → ∀ _ ∈ _, _))

instance : DecidablePred Plain := fun node =>
  decidable_of_iff ((∀ pair ∈ node.attributes,
      Xml.WritableText pair.2 ∧ '\t' ∉ pair.2.toList ∧ '\n' ∉ pair.2.toList) ∧
      (∀ text ∈ node.text, Xml.WritableText text) ∧ ∀ text ∈ node.text, Text.allBlank text = true → text = "")
    ⟨fun ⟨values, text, visible⟩ => ⟨values, text, visible⟩,
      fun ⟨values, text, visible⟩ => ⟨values, text, visible⟩⟩

/-! Writing. -/

theorem Plain.writableAttribute {node : Node} (h : Plain node) (hmade : WellMade node) {pair : String × String}
    (hpair : pair ∈ node.attributes) : Xml.WritableAttribute pair := by
  obtain ⟨hname, hxmlns⟩ := hmade.keys pair hpair
  obtain ⟨hwritable, htab, hline⟩ := h.values pair hpair
  refine ⟨hname, hxmlns, hwritable.document, fun c hc => ⟨?_, ?_, hwritable.plain c hc⟩⟩
  . rintro rfl
    exact htab hc
  . rintro rfl
    exact hline hc

theorem writable_withoutMarkers {node : Node} (hmade : node.Throughout WellMade) (hplain : node.Throughout Plain)
    (hpresent : node.expectsAbsence = false) : Xml.Writable node.withoutMarkers := by
  revert hpresent
  refine Throughout.induction (Q := fun node => node.expectsAbsence = false → Xml.Writable node.withoutMarkers)
    (fun node ⟨hmade, hplain⟩ ih hpresent => ?_) node (hmade.and hplain)
  rw [Node.withoutMarkers_eq]
  refine .mk (hmade.name hpresent) (fun pair hpair => hplain.writableAttribute hmade hpair) hmade.nodup ?_
    (fun text htext => hplain.text text htext) ?_
  . intro hne
    apply hmade.text
    rintro hnil
    simp [Node.present, hnil] at hne
  . refine List.forall_mem_map.2 fun child hchild => ?_
    obtain ⟨hmem, hchild⟩ := Node.mem_present_iff.1 hchild
    exact ih child hmem hchild

theorem writable_lexiconOf {tree : Node} (h : ∀ entry ∈ entriesOf tree, EntryShape entry)
    (hplain : ∀ entry ∈ entriesOf tree, entry.Throughout Plain) : Xml.Writable (lexiconOf tree) := by
  refine .mk (by exact show Xml.IsNCName Node.lexiconName by decide) nofun List.nodup_nil (fun _ => rfl) nofun ?_
  refine List.forall_mem_map.2 fun entry hentry => ?_
  exact writable_withoutMarkers (h entry hentry).throughout (hplain entry hentry) (h entry hentry).expectsAbsence

/-! Comparing. -/

/--
An element whose children can be told apart and whose text can be read again.
-/
structure Clear (node : Node) : Prop where
  nodup : (node.attributes.map Prod.fst).Nodup
  visible : ∀ text ∈ node.text, Text.allBlank text = true → text = ""
  markers : ∀ child ∈ node.children, child.expectsAbsence = true → child.name ≠ Node.messageName
  single : ∀ child ∈ node.children, ∀ other ∈ node.present, child.name = other.name →
    child.name ≠ Node.messageName → child = other

theorem clear_of_wellMade {node : Node} (hmade : WellMade node) (hplain : Plain node) (hapart : MarkersApart node)
    (hsingle : ∀ child ∈ node.present, ∀ other ∈ node.present, child.name = other.name →
      child.name ≠ Node.messageName → child = other) : Clear node where
  nodup := hmade.nodup
  visible := hplain.visible
  markers := hmade.markers
  single := by
    intro child hchild other hother hname hmessage
    cases hmark : child.expectsAbsence with
    | true => exact absurd hname (hapart child hchild hmark other hother)
    | false => exact hsingle child (Node.mem_present_iff.2 ⟨hchild, hmark⟩) other hother hname hmessage

theorem childrenNamed_returned {node : Node} {name : String}
    (h : ∀ child ∈ node.children, child.expectsAbsence = true → child.name ≠ name) :
    node.returned.childrenNamed name = (node.childrenNamed name).map Node.returned := by
  unfold Node.childrenNamed
  rw [Node.children_returned, Node.present, List.filter_map, List.filter_filter]
  congr 1
  refine List.filter_congr fun child hchild => ?_
  rw [Function.comp_apply, Node.name_returned]
  cases hmark : child.expectsAbsence with
  | true => simp [h child hchild hmark]
  | false => simp

theorem find?_eq_some_of_unique {α : Type} {p : α → Bool} {as : List α} {a : α} (ha : a ∈ as) (hp : p a = true)
    (hunique : ∀ other ∈ as, p other = true → other = a) : as.find? p = some a := by
  obtain ⟨found, hfound⟩ := Option.isSome_iff_exists.1 (List.find?_isSome.2 ⟨a, ha, hp⟩)
  rw [hfound, hunique found (List.mem_of_find?_eq_some hfound) (List.find?_some hfound)]

theorem child?_eq_some {node child : Node} (hchild : child ∈ node.children)
    (hunique : ∀ other ∈ node.children, other.name = child.name → other = child) :
    node.child? child.name = some child :=
  find?_eq_some_of_unique hchild (by simp) fun other hother hname => hunique other hother (by simpa using hname)

section Clear

variable {node child : Node} (h : Clear node) (hname : child.name ≠ Node.messageName)

include h hname

theorem Clear.child?_eq (hchild : child ∈ node.present) : node.child? child.name = some child := by
  refine child?_eq_some (Node.mem_present_iff.1 hchild).1 fun other hother heq => ?_
  exact h.single other hother child hchild heq (heq ▸ hname)

theorem Clear.child?_returned_of_present (hchild : child ∈ node.present) :
    node.returned.child? child.name = some child.returned := by
  have hmem : child.returned ∈ node.returned.children := by
    rw [Node.children_returned]
    exact List.mem_map_of_mem hchild
  rw [← Node.name_returned child]
  refine child?_eq_some hmem fun found hfound heq => ?_
  obtain ⟨other, hother, -, rfl⟩ := Node.mem_children_returned_iff.1 hfound
  rw [Node.name_returned, Node.name_returned] at heq
  rw [h.single other hother child hchild heq (heq ▸ hname)]

theorem Clear.child?_returned_of_marker (hchild : child ∈ node.children) (hmark : child.expectsAbsence = true) :
    node.returned.child? child.name = none := by
  refine List.find?_eq_none.2 fun found hfound => ?_
  obtain ⟨other, hother, hpresent, rfl⟩ := Node.mem_children_returned_iff.1 hfound
  rw [Node.name_returned, decide_eq_true_eq]
  intro heq
  have hsame := h.single child hchild other (Node.mem_present_iff.2 ⟨hother, hpresent⟩) heq.symm hname
  rw [hsame, hpresent] at hmark
  cases hmark

end Clear

theorem normal_of_visible {node : Node} (hnil : node.children = [])
    (h : ∀ text ∈ node.text, Text.allBlank text = true → text = "") :
    node.normal = { node with text := some (node.text.getD "") } := by
  rw [Node.normal_of_children_eq_nil hnil]
  congr 2
  cases htext : node.text with
  | none => exact ite_self _
  | some text =>
    split
    . next hblank => exact (h text htext hblank).symm
    . rfl

theorem Clear.value_returned {node : Node} (h : Clear node) (hnil : node.children = []) :
    node.returned.value = node.text.getD "" := by
  have hsame : node.withoutMarkers = node := by
    rw [Node.withoutMarkers_eq, Node.present, hnil]
    cases node
    cases hnil
    rfl
  rw [Node.returned, hsame, normal_of_visible hnil h.visible, Node.value_eq, hnil]
  exact String.append_empty

theorem covers_returned {node : Node} (h : node.Throughout Clear) : Covers node node.returned := by
  refine Throughout.induction (Q := fun node => Covers node node.returned) (fun node hclear ih => ?_) node h
  have hattributes : ∀ pair ∈ node.attributes, AttributeHolds node.returned pair := by
    intro pair hpair
    have hself := attributeHolds_self hclear.nodup pair hpair
    unfold AttributeHolds Node.attribute? at hself ⊢
    rwa [Node.attributes_returned]
  by_cases hnil : node.children = []
  . exact .leaf hattributes hnil (hclear.value_returned hnil)
  rw [covers_iff_of_children_ne_nil hnil]
  -- messages are compared one by one, every other child with the only one of its name
  refine ⟨hattributes, ⟨_, [], (List.append_nil _).symm, ?_⟩, ?_⟩
  . rw [childrenNamed_returned hclear.markers, List.forall₂_map_right_iff]
    exact List.forall₂_same.2 fun child hchild => ih child (List.mem_filter.1 hchild).1
  . intro child hchild hname
    unfold ChildCovered
    cases hmark : child.expectsAbsence with
    | true => simp [hclear.child?_returned_of_marker hname hchild hmark]
    | false =>
      rw [hclear.child?_returned_of_present hname (Node.mem_present_iff.2 ⟨hchild, hmark⟩)]
      simpa using ih child hchild

/-! Entries and notes. -/

theorem EntryShape.clear {entry : Node} (h : EntryShape entry) (hplain : entry.Throughout Plain)
    (hapart : entry.Throughout MarkersApart) (hsingle : entry.Throughout NoRepeats) : entry.Throughout Clear := by
  refine ((h.throughout.and hplain).and (hapart.and hsingle)).mono ?_
  rintro node ⟨⟨hmade, hplain⟩, hapart, hsingle⟩
  refine clear_of_wellMade hmade hplain hapart fun child hchild other hother hname _ => ?_
  exact List.inj_on_of_nodup_map hsingle hchild hother hname

theorem NoteShape.clear {note : Node} (h : NoteShape note) (hplain : note.Throughout Plain)
    (hapart : note.Throughout MarkersApart) : note.Throughout Clear := by
  have hmade := h.throughout
  have hclear := ((hmade.and hplain).and hapart)
  obtain @⟨attributes, messages, marks, hnodup, hkeys, hmarks⟩ := h
  refine throughout_iff.2 ⟨?_, ?_⟩
  . refine clear_of_wellMade hmade.self hplain.self hapart.self fun child hchild _ _ _ hmessage => ?_
    -- what is no marker in a note is a message
    obtain ⟨hmem, hpresent⟩ := Node.mem_present_iff.1 hchild
    rcases List.mem_append.1 hmem with hmem | hmem
    . obtain ⟨m, -, rfl⟩ := List.mem_map.1 hmem
      exact absurd (Fixture.Message.name_toNode m) hmessage
    . obtain ⟨field, rfl⟩ := hmarks child hmem
      cases hpresent
  . intro child hchild
    have hnil : child.children = [] := by
      rcases List.mem_append.1 hchild with hmem | hmem
      . obtain ⟨m, -, rfl⟩ := List.mem_map.1 hmem
        exact Fixture.Message.children_toNode m
      . obtain ⟨field, rfl⟩ := hmarks child hmem
        rfl
    refine throughout_iff.2 ⟨?_, by rw [hnil]; nofun⟩
    refine clear_of_wellMade (hmade.of_mem hchild).self (hplain.of_mem hchild).self (hapart.of_mem hchild).self ?_
    simp [Node.present, hnil]

theorem returned_lexemeForm {system value : String} (h : Text.allBlank value = true → value = "") :
    (lexemeForm system value).returned = lexemeForm system value := by
  have halternative : (alternative Node.uniName system value).normal = alternative Node.uniName system value := by
    refine normal_of_visible rfl fun text htext => ?_
    cases htext
    exact h
  have hcontainer (name : String) (child : Node) :
      (container name [child]).normal = container name [child.normal] := by
    rw [Node.normal_of_children_ne_nil (by simp [container])]
    rfl
  have hmarkers : (lexemeForm system value).withoutMarkers = lexemeForm system value := rfl
  rw [Node.returned, hmarkers]
  unfold lexemeForm
  rw [hcontainer, hcontainer, hcontainer, halternative]

theorem EntryShape.exists_form {entry : Node} (h : EntryShape entry) (hclear : entry.Throughout Clear) :
    ∃ form, entry.entryForm? = some form ∧ entry.returned.entryForm? = some form ∧
      searchKey form <:+: searchKey entry.withoutMarkers := by
  obtain @⟨children, system, value, -, hlexeme⟩ := h
  have hmem : lexemeForm system value ∈ (container Node.entryName children).present :=
    Node.mem_present_iff.2 ⟨hlexeme, rfl⟩
  have hname : (lexemeForm system value).name ≠ Node.messageName :=
    show Node.lexemeFormName ≠ Node.messageName by decide
  have hvisible : Text.allBlank value = true → value = "" := by
    have hform := ((((hclear.of_mem hlexeme).of_mem List.mem_cons_self).of_mem List.mem_cons_self).of_mem
      List.mem_cons_self).self
    exact hform.visible value rfl
  have hchild := hclear.self.child?_eq hname hmem
  have hreturned := hclear.self.child?_returned_of_present hname hmem
  rw [returned_lexemeForm hvisible] at hreturned
  refine ⟨container Node.formName [alternative Node.uniName system value], ?_, ?_, ?_⟩
  . change (Node.child? _ (lexemeForm system value).name).bind _ = _
    rw [hchild]
    rfl
  . change (Node.child? _ (lexemeForm system value).name).bind _ = _
    rw [hreturned]
    rfl
  . have hbelow : (lexemeForm system value).descend? [Node.stemName, Node.formName] =
        some (container Node.formName [alternative Node.uniName system value]) := rfl
    refine (searchKey_infix_of_descend? hbelow).trans (searchKey_infix_of_mem ?_)
    rw [Node.withoutMarkers_eq]
    exact List.mem_map.2 ⟨_, hmem, rfl⟩

end LexiconAudit.Repository
