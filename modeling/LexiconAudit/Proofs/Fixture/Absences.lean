import LexiconAudit.Proofs.Fixture.Marking

/-!
This module contains what becomes of the absence comments of a fixture, wherever they stand. An entry has a
marker for each of them, in their order, on itself or on one of its senses. A note has one for each that it
hears. No other comment makes a marker.
-/

namespace LexiconAudit.Fixture

open Grammar
open Node (marksOf)
open Reader (alternative container lexemeForm)

/-! Where markers stand. -/

theorem mem_marksOf_iff {mark : Node} {nodes : List Node} :
    mark ∈ marksOf nodes ↔ ∃ node ∈ nodes, mark ∈ marksOf [node] := by
  simp only [marksOf, List.mem_filter, List.mem_flatMap, List.mem_singleton, exists_eq_left, ← exists_and_right,
    and_assoc]

theorem IsMarker.eq_of_mem_marksOf {node mark : Node} (h : IsMarker node) (hmark : mark ∈ marksOf [node]) :
    mark = node := by
  rw [marksOf_eq_self (List.forall_mem_singleton.2 h)] at hmark
  exact List.mem_singleton.1 hmark

theorem SenseChild.eq_of_mem_marksOf {child mark : Node} (h : SenseChild child) (hmark : mark ∈ marksOf [child]) :
    mark = child := by
  cases h with
  | marker h => exact h.eq_of_mem_marksOf hmark
  | definition system value =>
    rw [marksOf_definition] at hmark
    cases hvalue : value.isEmpty <;> rw [hvalue] at hmark
    . cases hmark
    . cases List.mem_singleton.1 hmark
      simp [Reader.definition, hvalue]
  | gloss system value =>
    rw [marksOf_gloss] at hmark
    cases hvalue : value.isEmpty <;> rw [hvalue] at hmark
    . cases hmark
    . cases List.mem_singleton.1 hmark
      simp [Reader.gloss, hvalue]

theorem SenseShape.mem_children_of_mem_marksOf {sense mark : Node} (h : SenseShape sense)
    (hmark : mark ∈ marksOf [sense]) : sense.name = Node.senseName ∧ mark ∈ sense.children := by
  obtain ⟨hchildren⟩ := h
  rw [marksOf_container] at hmark
  obtain ⟨child, hchild, hmark⟩ := mem_marksOf_iff.1 hmark
  rw [(hchildren child hchild).eq_of_mem_marksOf hmark]
  exact ⟨rfl, hchild⟩

theorem EntryShape.places {entry mark : Node} (h : EntryShape entry) (hmark : mark ∈ marksOf [entry]) :
    mark ∈ entry.children ∨ ∃ senses ∈ entry.children, senses.name = Node.sensesName ∧
      ∃ sense ∈ senses.children, sense.name = Node.senseName ∧ mark ∈ sense.children := by
  obtain ⟨hchildren, -⟩ := h
  rw [marksOf_container] at hmark
  obtain ⟨child, hchild, hmark⟩ := mem_marksOf_iff.1 hmark
  cases hchildren child hchild with
  | marker h =>
    rw [h.eq_of_mem_marksOf hmark]
    exact .inl hchild
  | lexeme system value =>
    rw [marksOf_lexemeForm] at hmark
    cases hmark
  | senses h =>
    rw [marksOf_container] at hmark
    obtain ⟨sense, hsense, hmark⟩ := mem_marksOf_iff.1 hmark
    exact .inr ⟨_, hchild, rfl, sense, hsense, (h sense hsense).mem_children_of_mem_marksOf hmark⟩

theorem NoteShape.marksOf_eq {note : Node} (h : NoteShape note) :
    marksOf [note] = note.children.filter Node.expectsAbsence := by
  have hpresent := h.expectsAbsence
  obtain @⟨attributes, messages, marks, -, -, hmarks⟩ := h
  rw [Node.marksOf_singleton, hpresent, Node.marksOf_append, marksOf_messages, marksOf_eq_self hmarks]
  have hmessages : (messages.map Reader.Message.toNode).filter Node.expectsAbsence = [] := by
    simp [List.filter_map, Function.comp_def, Message.expectsAbsence_toNode]
  have hself : marks.filter Node.expectsAbsence = marks := by
    refine List.filter_eq_self.2 fun mark hmark => ?_
    obtain ⟨field, rfl⟩ := hmarks mark hmark
    rfl
  rw [List.filter_append, hmessages, hself]
  rfl

/-! Entries. -/

structure EntryMarks (record : Record) (entry : Node) : Prop where
  inOrder : entry.elements.filter Node.expectsAbsence = record.origins.filterMap Origin.marker?
  /-- But for those of empty values, the markers are those of all its comments. -/
  ofComments : (record.origins.filter Origin.isComment).filterMap Origin.marker? = markers record.comments
  places : ∀ mark ∈ entry.elements, mark.expectsAbsence = true →
    mark ∈ entry.children ∨ ∃ senses ∈ entry.children, senses.name = Node.sensesName ∧
      ∃ sense ∈ senses.children, sense.name = Node.senseName ∧ mark ∈ sense.children

theorem Bears.noteMarks {ks : List Kind} {record : Record} {node : Node} (h : Bears record node)
    (hrecord : record ∈ records ks) (hscope : record.scope = .note) :
    node.children.filter Node.expectsAbsence = markers record.heard := by
  rcases h.shape with ⟨hentry, -⟩ | ⟨-, hshape⟩
  . cases hscope.symm.trans hentry
  . rw [← hshape.marksOf_eq, h.marks, Record.markers_heard, Record.marks,
      List.filter_eq_self.2 (isComment_of_note hrecord hscope)]

theorem Record.heard_eq_comments {ks : List Kind} {record : Record} (h : record ∈ records ks)
    (hscope : record.scope = .entry) : record.heard = record.comments :=
  List.filterMap_congr (heard?_eq_comment? h hscope)

theorem marksOf_eq_filter (node : Node) : marksOf [node] = node.elements.filter Node.expectsAbsence := by
  rw [marksOf, List.flatMap_singleton]

theorem Bears.entryMarks {ks : List Kind} {record : Record} {node : Node} (h : Bears record node)
    (hrecord : record ∈ records ks) (hscope : record.scope = .entry) : EntryMarks record node where
  inOrder := by
    rw [← marksOf_eq_filter, h.marks]
    rfl
  ofComments := by rw [← Record.markers_heard, Record.heard_eq_comments hrecord hscope]
  places := by
    rcases h.shape with ⟨-, hshape⟩ | ⟨hnote, -⟩
    . intro mark hmark hmarker
      exact hshape.places (marksOf_eq_filter node ▸ List.mem_filter.2 ⟨hmark, hmarker⟩)
    . cases hscope.symm.trans hnote

theorem Bears.name_eq_entryName_iff {record : Record} {node : Node} (h : Bears record node) :
    node.name = Node.entryName ↔ record.scope = .entry := by
  rcases h.shape with ⟨hscope, ⟨-, -⟩⟩ | ⟨hscope, ⟨-, -, -⟩⟩
  . exact iff_of_true rfl hscope
  . exact iff_of_false (show ¬Node.annotationName = Node.entryName by decide) (by simp [hscope])

theorem Bears.name_eq_annotationName_iff {record : Record} {node : Node} (h : Bears record node) :
    node.name = Node.annotationName ↔ record.scope = .note := by
  rcases h.shape with ⟨hscope, ⟨-, -⟩⟩ | ⟨hscope, ⟨-, -, -⟩⟩
  . exact iff_of_false (show ¬Node.entryName = Node.annotationName by decide) (by simp [hscope])
  . exact iff_of_true rfl hscope

theorem SectionShape.marksOf_eq {part : Node} (h : SectionShape part) : marksOf [part] = marksOf part.children := by
  cases h <;> exact marksOf_container _ _

theorem TreeShape.marksOf_eq {tree : Node} (h : TreeShape tree) :
    marksOf [tree] = marksOf (tree.children.flatMap Node.children) := by
  obtain ⟨hsections⟩ := h
  rename_i sections
  rw [marksOf_container]
  simp only [container]
  induction sections with
  | nil => rfl
  | cons part sections ih =>
    rw [List.forall_mem_cons] at hsections
    rw [← List.singleton_append, Node.marksOf_append, List.flatMap_append, List.flatMap_singleton,
      Node.marksOf_append, hsections.1.marksOf_eq, ih hsections.2]

theorem marksOf_eq_flatMap {all : List Record} {nodes : List Node} (h : List.Forall₂ Bears all nodes) :
    marksOf nodes = all.flatMap Record.marks := by
  induction h with
  | nil => rfl
  | cons h _ ih => rw [← List.singleton_append, Node.marksOf_append, ih, h.marks, List.flatMap_cons]

/--
The absence comments between the braces of an entry, wherever they stand, are its markers, in order and one
for each; its empty definitions and glosses are the others. All other markers of the tree are those of the
notes, so that a comment outside of the entries and the notes makes none.
-/
theorem entryMarks_of_ofTokens {tokens : Tokens} {tree : Node} (h : ofTokens tokens = .ok tree) :
    List.Forall₂ (fun record node => (node.name = Node.entryName ↔ record.scope = .entry) ∧
        (record.scope = .entry → EntryMarks record node))
      (records (tokens.list.map Token.kind)) (tree.children.flatMap Node.children) ∧
    tree.elements.filter Node.expectsAbsence =
      (records (tokens.list.map Token.kind)).flatMap (fun record => record.origins.filterMap Origin.marker?) ∧
    CommentsInside (tokens.list.map Token.kind) := by
  have hbears := bears_of_ofTokens h
  refine ⟨?_, ?_, commentsInside _⟩
  . refine List.forall₂_iff_zip.2 ⟨hbears.length_eq, fun {record node} hmem => ?_⟩
    have hpair := List.forall₂_zip hbears hmem
    exact ⟨hpair.name_eq_entryName_iff, hpair.entryMarks (List.of_mem_zip hmem).1⟩
  . rw [← marksOf_eq_filter, (treeShape_of_ofTokens h).marksOf_eq, marksOf_eq_flatMap hbears]
    rfl

def scatteredEntry : Tokens where
  list := [.leftBracket, .leftBrace, .word "lexicon", .colon, .leftBracket, .comment "no status",
    .leftBrace, .word "lexeme", .colon, .leftBrace, .word "en", .colon, .comment "no pictures", .leftBrace,
    .word "value", .colon, .string "sun", .rightBrace, .rightBrace, .comma, .word "senses", .colon, .leftBracket,
    .leftBrace, .word "gloss", .colon, .leftBrace, .word "en", .colon, .leftBrace, .word "value", .colon,
    .comment "no definition", .string "", .rightBrace, .rightBrace, .rightBrace, .comma, .comment "no note",
    .rightBracket, .comment "no etymology", .rightBrace, .rightBracket, .rightBrace, .rightBracket].map (⟨·, ⟨1, 1⟩⟩)
  stop := ⟨1, 1⟩

def scatteredTree : Node :=
  container Node.rootName [container Node.lexiconName [container Node.entryName [
    lexemeForm "en" "sun", Node.absent "Pictures",
    container Node.sensesName [container Node.senseName
      [Node.absent Node.glossName, Node.absent Node.definitionName, Node.absent "Note"]],
    Node.absent "Etymology"]]]

theorem ofTokens_scatteredEntry : ofTokens scatteredEntry = .ok scatteredTree := by
  with_unfolding_all rfl

theorem entryMarks_scatteredEntry :
    records (scatteredEntry.list.map Token.kind) = [⟨.entry, [.comment "no pictures" true, .empty Node.glossName,
      .comment "no definition" true, .comment "no note" true, .comment "no etymology" true]⟩] ∧
    List.Forall₂ (fun record node => (node.name = Node.entryName ↔ record.scope = .entry) ∧
        (record.scope = .entry → EntryMarks record node))
      (records (scatteredEntry.list.map Token.kind)) (scatteredTree.children.flatMap Node.children) :=
  ⟨by decide, (entryMarks_of_ofTokens ofTokens_scatteredEntry).1⟩

/-! Notes. -/

/--
The markers of a note are those of the absence comments that it hears, in order and one for each; they are
those of all absence comments between its braces unless one of these is not heard.
-/
theorem noteMarks_of_ofTokens {tokens : Tokens} {tree : Node} (h : ofTokens tokens = .ok tree) :
    List.Forall₂ (fun record node => (node.name = Node.annotationName ↔ record.scope = .note) ∧
        (record.scope = .note →
          node.children.filter Node.expectsAbsence = markers record.heard ∧
          (node.children.filter Node.expectsAbsence = markers record.comments ↔ record.lost = [])))
      (records (tokens.list.map Token.kind)) (tree.children.flatMap Node.children) ∧
    CommentsInside (tokens.list.map Token.kind) := by
  have hbears := bears_of_ofTokens h
  refine ⟨?_, commentsInside _⟩
  refine List.forall₂_iff_zip.2 ⟨hbears.length_eq, fun {record node} hmem => ?_⟩
  have hpair := List.forall₂_zip hbears hmem
  refine ⟨hpair.name_eq_annotationName_iff, fun hscope => ?_⟩
  have hmarks := hpair.noteMarks (List.of_mem_zip hmem).1 hscope
  rw [hmarks]
  exact ⟨rfl, record.markers_heard_eq_iff⟩

def hushedNote : Tokens where
  list := [.leftBracket, .leftBrace, .word "notes", .colon, .leftBracket,
    .leftBrace, .word "ref", .colon, .string "sun", .comment "no tags", .comma, .word "message", .colon,
    .comment "no class", .leftBrace, .comment "no status", .word "value", .colon, .string "hot", .rightBrace,
    .rightBrace, .rightBracket, .rightBrace, .rightBracket].map (⟨·, ⟨1, 1⟩⟩)
  stop := ⟨1, 1⟩

def hushedTree : Node :=
  container Node.rootName [container Node.notesName [{
    name := Node.annotationName
    attributes := [(Node.referenceKey, "label=sun")]
    children := [Node.leaf Node.messageName "hot", Node.absent "Tags"] }]]

theorem ofTokens_hushedNote : ofTokens hushedNote = .ok hushedTree := by
  with_unfolding_all rfl

theorem noteMarks_hushedNote :
    records (hushedNote.list.map Token.kind) =
      [⟨.note, [.comment "no tags" true, .comment "no class" false, .comment "no status" false]⟩] ∧
    List.Forall₂ (fun record node => (node.name = Node.annotationName ↔ record.scope = .note) ∧
        (record.scope = .note →
          node.children.filter Node.expectsAbsence = markers record.heard ∧
          (node.children.filter Node.expectsAbsence = markers record.comments ↔ record.lost = [])))
      (records (hushedNote.list.map Token.kind)) (hushedTree.children.flatMap Node.children) :=
  ⟨by decide, (noteMarks_of_ofTokens ofTokens_hushedNote).1⟩

theorem not_all_heard_hushedNote :
    ofTokens hushedNote = .ok hushedTree ∧
      ¬List.Forall₂ (fun record node => record.scope = .note →
          node.children.filter Node.expectsAbsence = markers record.comments)
        (records (hushedNote.list.map Token.kind)) (hushedTree.children.flatMap Node.children) := by
  refine ⟨ofTokens_hushedNote, fun h => ?_⟩
  obtain ⟨-⟩ | ⟨h, -⟩ := h
  have hlength := congrArg List.length (h rfl)
  exact absurd hlength (by decide)

end LexiconAudit.Fixture
