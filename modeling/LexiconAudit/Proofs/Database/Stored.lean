import LexiconAudit.Proofs.Database.Lexicon
import LexiconAudit.Proofs.Database.Pairing
import LexiconAudit.Proofs.Repository.Storable
import Mathlib.Data.List.Perm.Basic

/-!
This module contains what a database holds into which a tree was stored: a document for every entry, with
the fields that the entry gives, and a comment for every note, with its messages folded. A stored document
matches its entry.
-/

namespace LexiconAudit.Database

open Fixture (EntryChild EntryShape NoteShape SectionShape SenseChild SenseShape)
open Fixture.Reader (container definition gloss lexemeForm)
open Repository (NoRepeats SenseChild.cases_of_present EntryChild.cases_of_present)

/-! What is stored. -/

def inSystem (system value : String) : Json :=
  .object [(system, .object [("value", .string value)])]

/--
The field that an element of a sense is stored in. An empty text can be stored as such or not at all.
-/
inductive SenseField : Node → String × Json → Prop where
  | definition (system value : String) :
    SenseField (definition system value) ("definition", inSystem system value)
  | gloss (system value : String) : SenseField (gloss system value) ("gloss", inSystem system value)

structure FieldsOf (FieldOf : Node → String × Json → Prop) (node : Node) (fields : List (String × Json)) :
    Prop where
  nodup : (fields.map Prod.fst).Nodup
  given : ∀ field ∈ fields, ∃ child ∈ node.children, FieldOf child field
  stored : ∀ child ∈ node.present, ∃ field ∈ fields, FieldOf child field

/--
The field that an element of an entry is stored in. Senses are stored as a list of objects.
-/
inductive EntryField : Node → String × Json → Prop where
  | lexeme (system value : String) :
    EntryField (lexemeForm system value) ("lexeme", inSystem system value)
  | senses {nodes : List Node} {objects : List (List (String × Json))} :
    List.Forall₂ (FieldsOf SenseField) nodes objects →
      EntryField (container Node.sensesName nodes) ("senses", .array (objects.map Json.object))

def DocumentOf (entry : Node) (document : Json) : Prop :=
  ∃ fields, document = .object fields ∧ FieldsOf EntryField entry fields

def commentOn (word : String) (thread : Thread) : Json :=
  .object [
    ("content", .string thread.content),
    ("status", .string (thread.status.getD "")),
    ("regarding", .object [("word", .string word), ("meaning", .string "")]),
    ("replies", .array (thread.replies.map fun reply => .object [("content", .string reply)]))]

def CommentOf (note : Node) (comment : Json) : Prop :=
  ∃ word thread, note.targetKey? = some word ∧ threadOf? note = some thread ∧ comment = commentOn word thread

def notesOf (tree : Node) : List Node :=
  (tree.childrenNamed Node.notesName).flatMap Node.children

/--
The database holds, in any order, the documents of all entries and the comments of all notes of a tree.
-/
structure Holds (memory : Memory) (database : String) (tree : Node) : Prop where
  lexicon : ∃ documents, List.Forall₂ DocumentOf (Repository.entriesOf tree) documents ∧
    (memory.documents database lexiconCollection).Perm documents
  comments : ∃ comments, List.Forall₂ CommentOf (notesOf tree) comments ∧
    (memory.documents database commentsCollection).Perm comments

/-! Which trees can be stored. -/

/--
An element that gives no field twice, and whose markers are about other fields.
-/
structure FieldsApart (node : Node) : Prop where
  single : NoRepeats node
  markers : ∀ mark ∈ node.children, mark.expectsAbsence = true → ∀ child ∈ node.present,
    fieldName mark.name ≠ fieldName child.name

/--
Entries and their senses give every field once, no two entries have a lexeme of the same value, the notes
are in one section, each is about something and says something, and no two are about the same word and say
the same first.
-/
structure Storable (tree : Node) : Prop where
  entries : ∀ entry ∈ Repository.entriesOf tree, FieldsApart entry
  senses : ∀ entry ∈ Repository.entriesOf tree, ∀ senses ∈ entry.childrenNamed Node.sensesName,
    ∀ sense ∈ senses.children, FieldsApart sense
  lexemes : (Repository.entriesOf tree).Pairwise fun entry other => ∀ system value system' value',
    lexemeForm system value ∈ entry.children → lexemeForm system' value' ∈ other.children → value ≠ value'
  together : (tree.childrenNamed Node.notesName).length ≤ 1
  notes : ∀ note ∈ notesOf tree, note.childrenNamed Node.messageName ≠ [] ∧
    ∃ word, note.targetKey? = some word ∧ word ≠ ""
  pairs : ((notesOf tree).map notePair).Nodup

/-! Fields. -/

theorem fieldName_lexemeForm : fieldName Node.lexemeFormName = "lexeme" := rfl

theorem fieldName_senses : fieldName Node.sensesName = "senses" := by decide

theorem fieldName_definition : fieldName Node.definitionName = "definition" := by decide

theorem fieldName_gloss : fieldName Node.glossName = "gloss" := by decide

theorem hollow_inSystem_empty (system : String) : Hollow (inSystem system "") := by
  rw [← isPopulated_eq_false_iff]
  rfl

theorem systemTexts_definition {system value : String} (h : value ≠ "") :
    systemTexts (definition system value) = [(system, value)] := by
  rw [Repository.definition_of_ne_empty h, systemTexts_container, allSystemTexts, systemTexts_of_attribute rfl,
    Node.value_eq, Node.values, Repository.value_alternative]
  simp [allSystemTexts, Node.values]

theorem systemTexts_gloss {system value : String} (h : value ≠ "") :
    systemTexts (gloss system value) = [(system, value)] := by
  rw [Repository.gloss_of_ne_empty h, systemTexts_container, allSystemTexts, systemTexts_of_attribute rfl,
    Repository.value_alternative]
  rfl

theorem SenseField.eq_of_present {child : Node} {field : String × Json} (h : SenseField child field)
    (hpresent : child.expectsAbsence = false) : child.name ≠ Node.sensesName ∧ ∃ system value,
      systemTexts child = [(system, value)] ∧ field = (fieldName child.name, inSystem system value) := by
  cases h with
  | definition system value =>
    have hvalue : value ≠ "" := by
      rintro rfl
      cases hpresent
    refine ⟨?_, system, value, systemTexts_definition hvalue, ?_⟩
    . rw [Repository.definition_of_ne_empty hvalue]
      exact show Node.definitionName ≠ Node.sensesName by decide
    . rw [Repository.definition_of_ne_empty hvalue, ← fieldName_definition]
      rfl
  | gloss system value =>
    have hvalue : value ≠ "" := by
      rintro rfl
      cases hpresent
    refine ⟨?_, system, value, systemTexts_gloss hvalue, ?_⟩
    . rw [Repository.gloss_of_ne_empty hvalue]
      exact show Node.glossName ≠ Node.sensesName by decide
    . rw [Repository.gloss_of_ne_empty hvalue, ← fieldName_gloss]
      rfl

theorem SenseField.hollow_of_marker {child : Node} {field : String × Json} (h : SenseField child field)
    (hmarker : child.expectsAbsence = true) : Hollow field.2 := by
  cases h with
  | definition system value =>
    by_cases hvalue : value = ""
    . rw [hvalue]
      exact hollow_inSystem_empty system
    . rw [Repository.definition_of_ne_empty hvalue] at hmarker
      cases hmarker
  | gloss system value =>
    by_cases hvalue : value = ""
    . rw [hvalue]
      exact hollow_inSystem_empty system
    . rw [Repository.gloss_of_ne_empty hvalue] at hmarker
      cases hmarker

section Fields

variable {FieldOf : Node → String × Json → Prop} {node : Node} {fields : List (String × Json)}

theorem FieldsOf.lookup_eq (h : FieldsOf FieldOf node fields) {key : String} {value : Json}
    (hmem : (key, value) ∈ fields) : fields.lookup key = some value :=
  Keyed.lookup_of_mem h.nodup hmem

theorem FieldsOf.matches_marker (h : FieldsOf FieldOf node fields) (hapart : FieldsApart node)
    (hkey : ∀ child field, FieldOf child field → child.expectsAbsence = false →
      field.1 = fieldName child.name)
    (hhollow : ∀ child field, FieldOf child field → child.expectsAbsence = true → Hollow field.2)
    {mark : Node} (hmem : mark ∈ node.children) (hmark : mark.expectsAbsence = true) :
    Matches fields mark := by
  refine .marker hmark fun stored hstored => ?_
  obtain ⟨before, after, hfields, -⟩ := List.lookup_eq_some_iff.1 hstored
  obtain ⟨child, hchild, hfield⟩ := h.given (fieldName mark.name, stored) (by simp [hfields])
  cases habsent : child.expectsAbsence with
  | true => exact hhollow child _ hfield habsent
  | false =>
    have hpresent : child ∈ node.present := Node.mem_present_iff.2 ⟨hchild, habsent⟩
    exact absurd (hkey child _ hfield habsent) (hapart.markers mark hmem hmark child hpresent)

theorem FieldsOf.matches_text (h : FieldsOf FieldOf node fields) {child : Node} {system value : String}
    (hpresent : child.expectsAbsence = false) (hname : child.name ≠ Node.sensesName)
    (htexts : systemTexts child = [(system, value)])
    (hmem : (fieldName child.name, inSystem system value) ∈ fields) : Matches fields child := by
  refine .text hpresent hname fun system' value' hwrites => ⟨_, h.lookup_eq hmem, ?_⟩
  rw [← mem_systemTexts_iff, htexts, List.mem_singleton] at hwrites
  cases hwrites
  simp [inSystem, Json.field?]

end Fields

theorem matches_of_senseFields {sense : Node} {fields : List (String × Json)} (hapart : FieldsApart sense)
    (h : FieldsOf SenseField sense fields) : ∀ child ∈ sense.children, Matches fields child := by
  intro child hchild
  cases hmark : child.expectsAbsence with
  | true =>
    refine h.matches_marker hapart (fun child field hfield hpresent => ?_)
      (fun child field hfield => hfield.hollow_of_marker) hchild hmark
    obtain ⟨-, system, value, -, rfl⟩ := hfield.eq_of_present hpresent
    rfl
  | false =>
    obtain ⟨field, hmem, hfield⟩ := h.stored child (Node.mem_present_iff.2 ⟨hchild, hmark⟩)
    obtain ⟨hname, system, value, htexts, rfl⟩ := hfield.eq_of_present hmark
    exact h.matches_text hmark hname htexts hmem

theorem EntryField.expectsAbsence {child : Node} {field : String × Json} (h : EntryField child field) :
    child.expectsAbsence = false := by
  cases h <;> rfl

theorem EntryField.key_eq {child : Node} {field : String × Json} (h : EntryField child field) :
    field.1 = fieldName child.name := by
  cases h with
  | lexeme => exact fieldName_lexemeForm.symm
  | senses => exact fieldName_senses.symm

theorem EntryShape.senseShape {entry : Node} (h : EntryShape entry) {nodes : List Node}
    (hmem : container Node.sensesName nodes ∈ entry.children) : ∀ node ∈ nodes, SenseShape node := by
  obtain ⟨hchildren, -⟩ := h
  rcases EntryChild.cases_of_present (hchildren _ hmem) rfl with ⟨system, value, heq⟩ | ⟨nodes', heq, hnodes⟩
  . exact absurd (congrArg Node.name heq) (show Node.sensesName ≠ Node.lexemeFormName by decide)
  . cases heq
    exact hnodes

theorem matches_of_entryFields {entry : Node} {fields : List (String × Json)} (hapart : FieldsApart entry)
    (hshape : EntryShape entry) (hsenses : ∀ senses ∈ entry.childrenNamed Node.sensesName,
      ∀ sense ∈ senses.children, FieldsApart sense)
    (h : FieldsOf EntryField entry fields) : ∀ child ∈ entry.children, Matches fields child := by
  intro child hchild
  cases hmark : child.expectsAbsence with
  | true =>
    refine h.matches_marker hapart (fun child field hfield _ => hfield.key_eq) (fun child field hfield hmark => ?_)
      hchild hmark
    cases hfield.expectsAbsence.symm.trans hmark
  | false =>
    obtain ⟨field, hmem, hfield⟩ := h.stored child (Node.mem_present_iff.2 ⟨hchild, hmark⟩)
    cases hfield with
    | lexeme system value =>
      exact h.matches_text rfl (show Node.lexemeFormName ≠ Node.sensesName by decide)
        (systemTexts_lexemeForm system value) hmem
    | @senses nodes objects hobjects =>
      have hnodes : ∀ node ∈ nodes, SenseShape node := EntryShape.senseShape hshape hchild
      have hnamed : (container Node.sensesName nodes).childrenNamed Node.senseName = nodes := by
        refine List.filter_eq_self.2 fun node hnode => ?_
        obtain ⟨-⟩ := hnodes node hnode
        exact decide_eq_true rfl
      have hapart : ∀ node ∈ nodes, FieldsApart node :=
        hsenses _ (List.mem_filter.2 ⟨hchild, decide_eq_true rfl⟩)
      rw [← fieldName_senses] at hmem
      refine .senses rfl rfl (h.lookup_eq hmem) ?_
      rw [hnamed]
      refine List.Forall₂.flip ?_
      exact ((List.forall₂_and_left _ _).2 ⟨hapart, hobjects⟩).imp fun _ _ ⟨hapart, hfields⟩ =>
        matches_of_senseFields hapart hfields

/-! Entries. -/

theorem EntryField.eq_of_lexeme {system value : String} {field : String × Json}
    (h : EntryField (lexemeForm system value) field) : field = ("lexeme", inSystem system value) := by
  generalize hchild : lexemeForm system value = child at h
  cases h with
  | lexeme system' value' =>
    simp only [lexemeForm, container, Fixture.Reader.alternative, Node.mk.injEq, List.cons.injEq, Prod.mk.injEq,
      Option.some.injEq, and_true, true_and] at hchild
    rw [hchild.1, hchild.2]
  | senses =>
    exact absurd (congrArg Node.name hchild) (show Node.lexemeFormName ≠ Node.sensesName by decide)

theorem FieldsOf.headword?_eq {entry : Node} {fields : List (String × Json)}
    (h : FieldsOf EntryField entry fields) {system value : String}
    (hmem : lexemeForm system value ∈ entry.children) : headword? (.object fields) = some value := by
  obtain ⟨field, hfield, hlexeme⟩ := h.stored _ (Node.mem_present_iff.2 ⟨hmem, rfl⟩)
  cases hlexeme.eq_of_lexeme
  unfold headword?
  simp [Json.field?, h.lookup_eq hfield, inSystem, Json.asObject?, Json.asString?]

theorem FieldsOf.isDeleted_eq {entry : Node} {fields : List (String × Json)}
    (h : FieldsOf EntryField entry fields) : isDeleted (.object fields) = false := by
  have hlookup : fields.lookup "isDeleted" = none := by
    rw [List.lookup_eq_none_iff]
    intro field hfield
    obtain ⟨child, -, hgiven⟩ := h.given field hfield
    cases hgiven <;> rfl
  unfold isDeleted
  rw [Json.field?, hlookup]
  rfl

theorem DocumentOf.headword?_eq {entry : Node} {document : Json} (h : DocumentOf entry document)
    {system value : String} (hmem : lexemeForm system value ∈ entry.children) :
    headword? document = some value := by
  obtain ⟨fields, rfl, hfields⟩ := h
  exact hfields.headword?_eq hmem

theorem exists_child?_eq_lexemeForm {entry : Node} (h : EntryShape entry) (hapart : FieldsApart entry) :
    ∃ system value, entry.child? Node.lexemeFormName = some (lexemeForm system value) ∧
      lexemeForm system value ∈ entry.children := by
  have hchildren : ∀ child ∈ entry.children, EntryChild child := by
    obtain ⟨hchildren, -⟩ := h
    exact hchildren
  obtain ⟨system, value, hlexeme⟩ : ∃ system value, lexemeForm system value ∈ entry.children := by
    obtain ⟨-, hlexeme⟩ := h
    exact ⟨_, _, hlexeme⟩
  obtain ⟨form, hform⟩ := Option.isSome_iff_exists.1 (Repository.isSome_child?_of_mem hlexeme)
  obtain ⟨hmem, hname⟩ := Repository.mem_of_child? hform
  have hpresent : form.expectsAbsence = false := by
    refine Bool.eq_false_iff.2 fun hmark => ?_
    exact hapart.markers form hmem hmark _ (Node.mem_present_iff.2 ⟨hlexeme, rfl⟩) (congrArg fieldName hname)
  rcases EntryChild.cases_of_present (hchildren form hmem) hpresent with
    ⟨system', value', rfl⟩ | ⟨nodes, rfl, -⟩
  . exact ⟨system', value', hform, hmem⟩
  . exact absurd hname (show Node.sensesName ≠ Node.lexemeFormName by decide)

theorem isStored_of_documentOf {documents : List Json} {entry : Node} {document : Json}
    (h : DocumentOf entry document) (hmem : document ∈ documents) (hshape : EntryShape entry)
    (hapart : FieldsApart entry) (hsenses : ∀ senses ∈ entry.childrenNamed Node.sensesName,
      ∀ sense ∈ senses.children, FieldsApart sense) : IsStored documents entry := by
  obtain ⟨fields, rfl, hfields⟩ := h
  obtain ⟨system, value, hform, hlexeme⟩ := exists_child?_eq_lexemeForm hshape hapart
  have hwrites : Writes (lexemeForm system value) system value := by
    rw [← mem_systemTexts_iff, systemTexts_lexemeForm]
    exact List.mem_cons_self
  have hlive : .object fields ∈ liveDocuments documents :=
    List.mem_filter.2 ⟨hmem, by rw [hfields.isDeleted_eq]; rfl⟩
  exact ⟨_, system, value, fields, hform, hwrites, hlive, hfields.headword?_eq hlexeme,
    matches_of_entryFields hapart hshape hsenses hfields⟩

theorem nodup_headwords {entries : List Node} {documents : List Json}
    (h : List.Forall₂ DocumentOf entries documents) (hshape : ∀ entry ∈ entries, EntryShape entry)
    (hlexemes : entries.Pairwise fun entry other => ∀ system value system' value',
      lexemeForm system value ∈ entry.children → lexemeForm system' value' ∈ other.children → value ≠ value') :
    (documents.filterMap headword?).Nodup := by
  have hlexeme {entry : Node} (hentry : EntryShape entry) :
      ∃ system value, lexemeForm system value ∈ entry.children := by
    obtain ⟨-, hlexeme⟩ := hentry
    exact ⟨_, _, hlexeme⟩
  induction h with
  | nil => exact List.nodup_nil
  | @cons entry document entries documents hdocument hdocuments ih =>
    rw [List.forall_mem_cons] at hshape
    rw [List.pairwise_cons] at hlexemes
    obtain ⟨system, value, hmem⟩ := hlexeme hshape.1
    rw [List.filterMap_cons_some (hdocument.headword?_eq hmem), List.nodup_cons]
    refine ⟨fun hshared => ?_, ih hshape.2 hlexemes.2⟩
    obtain ⟨other, hother, hword⟩ := List.mem_filterMap.1 hshared
    obtain ⟨entry', hentry', hdocument'⟩ := exists_of_mem_right hdocuments hother
    obtain ⟨system', value', hmem'⟩ := hlexeme (hshape.2 entry' hentry')
    have heq := (hdocument'.headword?_eq hmem').symm.trans hword
    exact hlexemes.1 entry' hentry' system value system' value' hmem hmem' (Option.some.inj heq).symm

end LexiconAudit.Database
