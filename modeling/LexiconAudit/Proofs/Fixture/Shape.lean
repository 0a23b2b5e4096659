import LexiconAudit.Fixture.Reader
import LexiconAudit.Proofs.Checking
import LexiconAudit.Proofs.Reading

/-!
This module contains the shape of the trees that fixtures spell, wherever their comments stand: which
children an entry, a sense and a note can have, and what these look like.
-/

namespace LexiconAudit.Fixture

open Reading
open Reader hiding lexicon notes object sense entry note reply message senses fixture

variable {α : Type}

def IsMarker (node : Node) : Prop :=
  ∃ field : { field : String // field ≠ "" }, node = .absent (Text.upperFirst field)

/--
A marker, or a definition or a gloss. Those without a text are markers themselves.
-/
inductive SenseChild : Node → Prop where
  | marker {node : Node} : IsMarker node → SenseChild node
  | definition (system value : String) : SenseChild (definition system value)
  | gloss (system value : String) : SenseChild (gloss system value)

inductive SenseShape : Node → Prop where
  | mk {children : List Node} : (∀ child ∈ children, SenseChild child) →
    SenseShape (container Node.senseName children)

inductive EntryChild : Node → Prop where
  | marker {node : Node} : IsMarker node → EntryChild node
  | lexeme (system value : String) : EntryChild (lexemeForm system value)
  | senses {nodes : List Node} : (∀ node ∈ nodes, SenseShape node) →
    EntryChild (container Node.sensesName nodes)

/--
An entry has at least one lexeme.
-/
inductive EntryShape : Node → Prop where
  | mk {children : List Node} {system value : String} : (∀ child ∈ children, EntryChild child) →
    lexemeForm system value ∈ children → EntryShape (container Node.entryName children)

inductive NoteShape : Node → Prop where
  | mk {attributes : List (String × String)} {messages : List Message} {marks : List Node} :
    (attributes.map Prod.fst).Nodup →
      (∀ key ∈ attributes.map Prod.fst, key = Node.classKey ∨ key = Node.referenceKey) →
        (∀ mark ∈ marks, IsMarker mark) →
          NoteShape {
            name := Node.annotationName
            attributes
            children := messages.map Message.toNode ++ marks }

inductive SectionShape : Node → Prop where
  | lexicon {entries : List Node} : (∀ entry ∈ entries, EntryShape entry) →
    SectionShape (container Node.lexiconName entries)
  | notes {notes : List Node} : (∀ note ∈ notes, NoteShape note) →
    SectionShape (container Node.notesName notes)

inductive TreeShape : Node → Prop where
  | mk {sections : List Node} : (∀ part ∈ sections, SectionShape part) →
    TreeShape (container Node.rootName sections)

/-! Members, items and comments. -/

theorem answers_members {member : Key → α → Reader α} {P : α → Prop}
    (hmember : ∀ key a, P a → (member key a).Answers P) {a : α} (ha : P a) :
    (members member a).Answers P := by
  refine Answers.loop (fun a ha => ?_) ha
  refine Answers.bind (Answers.trivial _) fun token _ => ?_
  split
  case h_1 => exact Answers.pure ha
  case h_4 => exact Answers.fail _
  all_goals
    refine Answers.bind (Answers.trivial _) fun _ _ => Answers.bind (hmember _ a ha) fun a' ha' => ?_
    refine Answers.bind (Answers.trivial _) fun token _ => ?_
    split
    . exact Answers.pure ha'
    . exact Answers.pure ha'
    . exact Answers.fail _

theorem answers_foldItems {item : α → Reader α} {P : α → Prop} (hitem : ∀ a, P a → (item a).Answers P)
    {a : α} (ha : P a) : (foldItems item a).Answers P := by
  refine Answers.loop (fun a ha => ?_) ha
  refine Answers.bind (Answers.trivial _) fun token _ => ?_
  split
  . exact Answers.bind (Answers.trivial _) fun _ _ => Answers.pure ha
  . refine Answers.bind (hitem a ha) fun a' ha' => Answers.bind (Answers.trivial _) fun token _ => ?_
    split
    . exact Answers.pure ha'
    . exact Answers.pure ha'
    . exact Answers.fail _

theorem answers_items {item : Reader α} {P : α → Prop} (hitem : item.Answers P) :
    (items item).Answers fun as => ∀ a ∈ as, P a := by
  refine answers_foldItems (fun as has => Answers.bind hitem fun a ha => Answers.pure ?_) (by simp)
  simpa [or_imp, forall_and] using ⟨has, ha⟩

theorem answers_object {place : Place} {property : Property → Option (α → Reader α)} {P : α → Prop}
    (hproperty : ∀ {p read}, property p = some read → ∀ a, P a → (read a).Answers P) {a : α} (ha : P a) :
    (Reader.object place property a).Answers P := by
  refine answers_members (fun key a ha => ?_) ha
  split
  . exact Answers.fail _
  . split
    . exact Answers.fail _
    . next read hread => exact hproperty hread a ha

theorem ne_empty_of_absentField? {body field : String} (h : absentField? body = some field) : field ≠ "" := by
  unfold absentField? at h
  split at h
  . split at h
    . split at h
      . cases h
      . next hne =>
        cases h
        exact fun hempty => hne (String.ofList_eq_empty_iff.1 hempty)
    . cases h
  . cases h

theorem isMarker_of_mem_markers {bodies : List String} {node : Node} (h : node ∈ markers bodies) : IsMarker node := by
  obtain ⟨body, -, hbody⟩ := List.mem_filterMap.1 h
  obtain ⟨field, hfield, rfl⟩ := Option.map_eq_some_iff.1 hbody
  exact ⟨⟨field, ne_empty_of_absentField? hfield⟩, rfl⟩

theorem answers_takeMarkers : takeMarkers.Answers fun nodes => ∀ node ∈ nodes, IsMarker node :=
  Answers.bind (Answers.trivial _) fun _ _ => Answers.pure fun _ hnode => isMarker_of_mem_markers hnode

/-! Entries. -/

theorem answers_sense_property {p : Property} {read : List Node → Reader (List Node)}
    (hread : Reader.sense.property p = some read) {children : List Node}
    (h : ∀ child ∈ children, SenseChild child) :
    (read children).Answers fun children => ∀ child ∈ children, SenseChild child := by
  cases p <;> cases hread
  all_goals
    refine Answers.bind answers_takeMarkers fun marks hmarks => ?_
    refine Answers.bind (Answers.trivial _) fun _ _ => Answers.pure ?_
    simp only [List.forall_mem_append, List.forall_mem_singleton]
  . exact ⟨⟨h, fun mark hmark => .marker (hmarks mark hmark)⟩, .definition _ _⟩
  . exact ⟨⟨h, fun mark hmark => .marker (hmarks mark hmark)⟩, .gloss _ _⟩
  . exact ⟨h, fun mark hmark => .marker (hmarks mark hmark)⟩

theorem answers_sense : Reader.sense.Answers SenseShape := by
  unfold Reader.sense
  refine Answers.bind (Answers.trivial _) fun _ _ => ?_
  refine Answers.bind (answers_object (fun hread _ h => answers_sense_property hread h) (by simp)) ?_
  intro children hchildren
  refine Answers.bind answers_takeMarkers fun marks hmarks => Answers.pure (.mk ?_)
  exact List.forall_mem_append.2 ⟨hchildren, fun mark hmark => .marker (hmarks mark hmark)⟩

theorem SenseShape.addChildren {node : Node} {marks : List Node} (h : SenseShape node)
    (hmarks : ∀ mark ∈ marks, IsMarker mark) : SenseShape (node.addChildren marks) := by
  obtain ⟨hchildren⟩ := h
  refine .mk (List.forall_mem_append.2 ⟨hchildren, fun mark hmark => .marker (hmarks mark hmark)⟩)

theorem senseShape_of_markLast {marks senses senses' : List Node} (h : markLast marks senses = some senses')
    (hmarks : ∀ mark ∈ marks, IsMarker mark) (hsenses : ∀ sense ∈ senses, SenseShape sense) :
    ∀ sense ∈ senses', SenseShape sense := by
  fun_induction markLast marks senses generalizing senses' with
  | case1 =>
    cases h
    exact hsenses
  | case2 => cases h
  | case3 last =>
    cases h
    rw [List.forall_mem_singleton] at hsenses ⊢
    exact hsenses.addChildren hmarks
  | case4 sense senses _ ih =>
    obtain ⟨rest, hrest, rfl⟩ := Option.map_eq_some_iff.1 h
    rw [List.forall_mem_cons] at hsenses ⊢
    exact ⟨hsenses.1, ih hrest hsenses.2⟩

theorem answers_senses : Reader.senses.Answers EntryChild := by
  unfold Reader.senses
  refine Answers.bind (Answers.trivial _) fun bracket _ => ?_
  refine Answers.bind (answers_items answers_sense) fun senses hsenses => ?_
  refine Answers.bind answers_takeMarkers fun marks hmarks => ?_
  split
  . next senses' h => exact Answers.pure (.senses (senseShape_of_markLast h hmarks hsenses))
  . exact Answers.fail _

def DraftShape (draft : EntryDraft) : Prop :=
  (∀ child ∈ draft.children, EntryChild child) ∧
    (draft.hasLexeme = true → ∃ system value, lexemeForm system value ∈ draft.children)

theorem answers_entry_property {p : Property} {read : EntryDraft → Reader EntryDraft}
    (hread : Reader.entry.property p = some read) {draft : EntryDraft} (h : DraftShape draft) :
    (read draft).Answers DraftShape := by
  cases p <;> cases hread
  all_goals refine Answers.bind answers_takeMarkers fun marks hmarks => ?_
  . refine Answers.bind (Answers.trivial _) fun ⟨system, value⟩ _ => Answers.pure ⟨?_, ?_⟩
    . simp only [List.forall_mem_append, List.forall_mem_singleton]
      exact ⟨⟨h.1, fun mark hmark => .marker (hmarks mark hmark)⟩, .lexeme system value⟩
    . intro _
      exact ⟨system, value, by simp⟩
  . refine Answers.bind answers_senses fun senses hsenses => Answers.pure ⟨?_, ?_⟩
    . simp only [List.forall_mem_append, List.forall_mem_singleton]
      exact ⟨⟨h.1, fun mark hmark => .marker (hmarks mark hmark)⟩, hsenses⟩
    . intro hlexeme
      obtain ⟨system, value, hmem⟩ := h.2 hlexeme
      exact ⟨system, value, by simp [hmem]⟩

theorem answers_entry : Reader.entry.Answers EntryShape := by
  unfold Reader.entry
  refine Answers.bind (Answers.trivial _) fun brace _ => ?_
  refine Answers.bind (P := DraftShape)
    (answers_object (fun hread _ h => answers_entry_property hread h) ?_) ?_
  . exact ⟨by simp, nofun⟩
  intro draft hdraft
  refine Answers.bind answers_takeMarkers fun marks hmarks => ?_
  split
  . next hlexeme =>
    obtain ⟨system, value, hmem⟩ := hdraft.2 hlexeme
    refine Answers.pure (.mk ?_ (List.mem_append_left _ hmem))
    exact List.forall_mem_append.2 ⟨hdraft.1, fun mark hmark => .marker (hmarks mark hmark)⟩
  . exact Answers.fail _

/-! Notes. -/

structure NoteDraftShape (draft : NoteDraft) : Prop where
  name : draft.node.name = Node.annotationName
  text : draft.node.text = none
  children : draft.node.children = []
  nodup : (draft.node.attributes.map Prod.fst).Nodup
  keys : ∀ key ∈ draft.node.attributes.map Prod.fst, key = Node.classKey ∨ key = Node.referenceKey
  markers : ∀ mark ∈ draft.markers, IsMarker mark

theorem NoteDraftShape.setAttribute {draft : NoteDraft} (h : NoteDraftShape draft) {key : String}
    (hkey : key = Node.classKey ∨ key = Node.referenceKey) (value : String) :
    NoteDraftShape { draft with node := draft.node.setAttribute key value } where
  name := h.name
  text := h.text
  children := h.children
  nodup := Keyed.nodup_keys_alter key _ h.nodup
  keys := by
    intro other hother
    simp only [Node.setAttribute, Keyed.set, Keyed.keys_alter] at hother
    split at hother
    . exact h.keys other hother
    . rcases List.mem_append.1 hother with hother | hother
      . exact h.keys other hother
      . exact List.mem_singleton.1 hother ▸ hkey
  markers := h.markers

theorem answers_note_property {p : Property} {read : NoteDraft → Reader NoteDraft}
    (hread : Reader.note.property p = some read) {draft : NoteDraft} (h : NoteDraftShape draft) :
    (read draft).Answers NoteDraftShape := by
  cases p <;> cases hread
  all_goals
    refine Answers.bind answers_takeMarkers fun marks hmarks => ?_
    have hmarked : NoteDraftShape { draft with markers := draft.markers ++ marks } :=
      { h with markers := List.forall_mem_append.2 ⟨h.markers, hmarks⟩ }
    refine Answers.bind (Answers.trivial _) fun value _ => ?_
  . exact Answers.pure (hmarked.setAttribute (.inl rfl) value)
  . exact Answers.pure (hmarked.setAttribute (.inr rfl) _)
  . exact Answers.pure { hmarked with }
  . exact Answers.bind (Answers.trivial _) fun _ _ => Answers.pure { hmarked with }
  . exact Answers.bind (Answers.trivial _) fun _ _ => Answers.pure { hmarked with }

theorem answers_note : Reader.note.Answers NoteShape := by
  unfold Reader.note
  refine Answers.bind (Answers.trivial _) fun _ _ => ?_
  refine Answers.bind (P := NoteDraftShape)
    (answers_object (fun hread _ h => answers_note_property hread h) ?_) ?_
  . exact ⟨rfl, rfl, rfl, by simp, by simp, by simp⟩
  intro draft h
  refine Answers.bind answers_takeMarkers fun marks hmarks => Answers.pure ?_
  have hnode : draft.node.addChildren (draft.messages.map Message.toNode ++ draft.replies.map Message.toNode
      ++ (draft.markers ++ marks)) = {
      name := Node.annotationName
      attributes := draft.node.attributes
      children := (draft.messages ++ draft.replies).map Message.toNode ++ (draft.markers ++ marks) } := by
    simp [Node.addChildren, h.name, h.text, h.children]
  rw [hnode]
  exact .mk h.nodup h.keys (List.forall_mem_append.2 ⟨h.markers, hmarks⟩)

/-! Sections. -/

theorem answers_section_list {item : Reader Node} {P : Node → Prop} (hitem : item.Answers P)
    (name wanted : String) : (do
      let _ ← expect .leftBracket wanted
      let nodes ← items (do dropComments; item)
      dropComments
      return container name nodes : Reader Node).Answers
      fun node => ∃ nodes, (∀ node ∈ nodes, P node) ∧ node = container name nodes := by
  refine Answers.bind (Answers.trivial _) fun _ _ => ?_
  refine Answers.bind (answers_items (Answers.bind (Answers.trivial _) fun _ _ => hitem)) fun nodes h => ?_
  exact Answers.bind (Answers.trivial _) fun _ _ => Answers.pure ⟨nodes, h, rfl⟩

inductive SectionOf (P Q : Node → Prop) : Node → Prop where
  | lexicon {entries : List Node} : (∀ entry ∈ entries, P entry) →
    SectionOf P Q (container Node.lexiconName entries)
  | notes {notes : List Node} : (∀ note ∈ notes, Q note) →
    SectionOf P Q (container Node.notesName notes)

theorem SectionOf.shape {part : Node} (h : SectionOf EntryShape NoteShape part) : SectionShape part := by
  cases h with
  | lexicon h => exact .lexicon h
  | notes h => exact .notes h

section Sections

variable {P Q : Node → Prop} (hentry : Reader.entry.Answers P) (hnote : Reader.note.Answers Q)

include hentry hnote

theorem answers_section_property {p : Property} {read : List Node → Reader (List Node)}
    (hread : Reader.sectionObject.property p = some read) {sections : List Node}
    (h : ∀ part ∈ sections, SectionOf P Q part) :
    (read sections).Answers fun sections => ∀ part ∈ sections, SectionOf P Q part := by
  cases p <;> cases hread
  all_goals refine Answers.bind (Answers.trivial _) fun _ _ => ?_
  . refine Answers.bind (answers_section_list hentry _ _) fun _ hnode => Answers.pure ?_
    obtain ⟨entries, hentries, rfl⟩ := hnode
    exact List.forall_mem_append.2 ⟨h, List.forall_mem_singleton.2 (.lexicon hentries)⟩
  . refine Answers.bind (answers_section_list hnote _ _) fun _ hnode => Answers.pure ?_
    obtain ⟨notes, hnotes, rfl⟩ := hnode
    exact List.forall_mem_append.2 ⟨h, List.forall_mem_singleton.2 (.notes hnotes)⟩

theorem answers_sectionObject {sections : List Node} (h : ∀ part ∈ sections, SectionOf P Q part) :
    (sectionObject sections).Answers fun sections => ∀ part ∈ sections, SectionOf P Q part := by
  unfold sectionObject
  refine Answers.bind (Answers.trivial _) fun _ _ => ?_
  refine Answers.bind
    (answers_object (fun hread _ h => answers_section_property hentry hnote hread h) h) fun sections h => ?_
  exact Answers.bind (Answers.trivial _) fun _ _ => Answers.pure h

theorem answers_fixture : Reader.fixture.Answers fun tree =>
    ∃ sections, tree = container Node.rootName sections ∧ ∀ part ∈ sections, SectionOf P Q part := by
  unfold Reader.fixture
  refine Answers.bind (Answers.trivial _) fun token _ => ?_
  split
  . refine Answers.bind
      (answers_foldItems (fun _ h => answers_sectionObject hentry hnote h) (by simp)) fun sections h => ?_
    exact Answers.bind (Answers.trivial _) fun _ _ => Answers.pure ⟨sections, rfl, h⟩
  . exact Answers.fail _

theorem sections_of_ofTokens {tokens : Tokens} {tree : Node} (h : ofTokens tokens = .ok tree) :
    ∃ sections, tree = container Node.rootName sections ∧ ∀ part ∈ sections, SectionOf P Q part := by
  unfold ofTokens at h
  cases hrun : Reader.fixture.run ⟨tokens.list, [], tokens.stop⟩ with
  | error r =>
    rw [hrun] at h
    cases h
  | ok result =>
    rw [hrun] at h
    cases h
    exact answers_fixture hentry hnote hrun

end Sections

theorem treeShape_of_ofTokens {tokens : Tokens} {tree : Node} (h : ofTokens tokens = .ok tree) :
    TreeShape tree := by
  obtain ⟨sections, rfl, hsections⟩ := sections_of_ofTokens answers_entry answers_note h
  exact .mk fun part hpart => (hsections part hpart).shape

theorem treeShape_of_parse {text : String} {tree : Node} (h : parse text = .ok tree) : TreeShape tree := by
  obtain ⟨tokens, -, htokens⟩ := bind_eq_ok_iff.1 h
  exact treeShape_of_ofTokens htokens

end LexiconAudit.Fixture
