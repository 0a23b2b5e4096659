import LexiconAudit.Proofs.Database.Stored
import LexiconAudit.Proofs.Database.Stores
import LexiconAudit.Proofs.Repository.Storing

/-!
This module contains the verification of a database into which the tree of a fixture was stored: it passes.
-/

namespace LexiconAudit.Database

open Fixture (EntryChild EntryShape NoteShape SectionShape SenseChild SenseShape)
open Fixture.Reader (container definition gloss lexemeForm)
open Repository (NoRepeats SenseChild.cases_of_present EntryChild.cases_of_present)

/-! Entries. -/

theorem verifyLexicon_of_holds {memory : Memory} {database : String} {tree part : Node}
    (hshape : ∀ entry ∈ Repository.entriesOf tree, EntryShape entry) (hstorable : Storable tree)
    (h : Holds memory database tree) (hpart : part ∈ tree.childrenNamed Node.lexiconName) :
    verifyLexicon memory.store database part = .ok () := by
  obtain ⟨documents, hdocuments, hperm⟩ := h.lexicon
  have hunique : ((liveDocuments (memory.documents database lexiconCollection)).filterMap headword?).Nodup := by
    refine ((List.filter_sublist.filterMap headword?).nodup ?_)
    rw [(hperm.filterMap headword?).nodup_iff]
    exact nodup_headwords hdocuments hshape hstorable.lexemes
  have hentries : ∀ entry ∈ part.children, entry ∈ Repository.entriesOf tree :=
    fun entry hentry => List.mem_flatMap.2 ⟨part, hpart, hentry⟩
  unfold verifyLexicon
  refine bind_eq_ok_iff.2 ⟨_, rfl, ?_⟩
  dsimp only
  rw [LexiconIndex.sharedWord?_ofDocuments_eq_none_iff.2 hunique]
  refine (verifyEntries_eq_ok_iff hunique fun entry hentry => hshape entry (hentries entry hentry)).2 ?_
  intro entry hentry
  obtain ⟨document, hdocument, hstored⟩ := exists_of_mem_left hdocuments (hentries entry hentry)
  exact isStored_of_documentOf hstored (hperm.symm.subset hdocument) (hshape entry (hentries entry hentry))
    (hstorable.entries entry (hentries entry hentry)) (hstorable.senses entry (hentries entry hentry))

/-! Notes. -/

theorem normalStatus_normalStatus (status : String) : normalStatus (normalStatus status) = normalStatus status := by
  unfold normalStatus
  by_cases h : status.isEmpty
  . rw [if_pos h]
    rfl
  . rw [if_neg h, if_neg h]

theorem isDeleted_commentOn (word : String) (thread : Thread) : isDeleted (commentOn word thread) = false := rfl

theorem replyTexts_commentOn (word : String) (thread : Thread) :
    replyTexts (commentOn word thread) = thread.replies := by
  have hreplies : (commentOn word thread).field? "replies" =
    some (.array (thread.replies.map fun reply => .object [("content", .string reply)])) := rfl
  have hlive : ∀ reply ∈ thread.replies, !isDeleted (.object [("content", .string reply)]) = true :=
    fun _ _ => rfl
  unfold replyTexts
  rw [hreplies]
  change List.map _ (List.filter _ (thread.replies.map _)) = _
  rw [List.filter_map, List.map_map, List.filter_eq_self.2 (by simpa using hlive)]
  exact List.map_id'' (fun _ => rfl) _

theorem isAbout_commentOn {lexicon : List Json} {word : String} {thread : Thread} (h : word ≠ "") :
    IsAbout lexicon (commentOn word thread) word := by
  have hregarding : (commentOn word thread).field? "regarding" =
      some (.object [("word", .string word), ("meaning", .string "")]) := rfl
  refine .word (.word hregarding ?_ ?_ ?_ ?_ rfl)
  . exact ⟨_, rfl, nofun, by simpa using h⟩
  . rintro ⟨value, hvalue, -⟩
    cases hvalue
  . exact ⟨_, rfl, nofun⟩
  . rintro ⟨value, hvalue, -⟩
    cases hvalue

theorem agrees_commentOn {note : Node} {word : String} {thread : Thread} (h : threadOf? note = some thread) :
    Agrees note (commentOn word thread) := by
  intro thread' hthread'
  cases h.symm.trans hthread'
  refine ⟨fun status hstatus => ?_, ?_⟩
  . have hnormal : normalStatus status = status := by
      unfold threadOf? Thread.ofMessages? at h
      split at h
      . cases h
      . cases h
        obtain ⟨given, -, rfl⟩ := Option.map_eq_some_iff.1 hstatus
        exact normalStatus_normalStatus given
    have hfield : (commentOn word thread).field? "status" = some (.string (thread.status.getD "")) := rfl
    rw [hfield, hstatus]
    exact hnormal
  . exact (replyTexts_commentOn word thread).symm ▸ List.prefix_rfl

theorem notePair_of_commentOf {note : Node} {comment : Json} (h : CommentOf note comment) :
    notePair note = commentPair ((note.targetKey?).getD "") comment := by
  obtain ⟨word, thread, hword, hthread, rfl⟩ := h
  unfold notePair commentPair
  rw [hword]
  unfold threadOf? at hthread
  cases hmessages : note.childrenNamed Node.messageName with
  | nil =>
    rw [hmessages] at hthread
    cases hthread
  | cons message messages =>
    rw [hmessages] at hthread
    cases hthread
    rfl

theorem pairedOff_of_commentOf {notes notes' : List Node} {comments : List Json}
    (hnodup : (notes.map notePair).Nodup) (h : List.Forall₂ CommentOf notes' comments) (hperm : notes'.Perm notes) :
    PairedOff notes (notes'.map fun note => note.targetKey?.getD "") comments where
  nodup := hnodup
  perm := by
    have hpairs : List.zipWith commentPair (notes'.map fun note => note.targetKey?.getD "") comments =
        notes'.map notePair := by
      clear hperm
      induction h with
      | nil => rfl
      | cons hcomment _ ih =>
        rw [List.map_cons, List.zipWith_cons_cons, List.map_cons, notePair_of_commentOf hcomment, ih]
    rw [hpairs]
    exact (hperm.map notePair).symm
  agrees := by
    intro note hnote key comment hmem hpair
    rw [List.zip_map_left, List.mem_map] at hmem
    obtain ⟨⟨note', _⟩, hzip, heq⟩ := hmem
    cases heq
    -- the comment is that of a note with the same pair, and there is only one
    have hcomment := (List.forall₂_iff_zip.1 h).2 hzip
    have hsame : note = note' := by
      refine List.inj_on_of_nodup_map hnodup hnote (hperm.subset (List.of_mem_zip hzip).1) ?_
      rw [hpair, notePair_of_commentOf hcomment]
      rfl
    subst hsame
    obtain ⟨word, thread, -, hthread, rfl⟩ := hcomment
    exact agrees_commentOn hthread

theorem notesOf_eq {tree part : Node} (h : (tree.childrenNamed Node.notesName).length ≤ 1)
    (hpart : part ∈ tree.childrenNamed Node.notesName) : notesOf tree = part.children := by
  obtain ⟨other, hother⟩ := List.length_eq_one_iff.1
    (Nat.le_antisymm h (List.length_pos_iff.2 (List.ne_nil_of_mem hpart)))
  unfold notesOf
  rw [hother, List.mem_singleton] at hpart
  rw [hother, hpart, List.flatMap_singleton]

theorem verifyNotes_of_holds {memory : Memory} {database : String} {tree part : Node}
    (hshape : ∀ note ∈ part.children, NoteShape note) (hstorable : Storable tree) (h : Holds memory database tree)
    (hpart : part ∈ tree.childrenNamed Node.notesName) : verifyNotes memory.store database part = .ok () := by
  have hnotes : part.childrenNamed Node.annotationName = notesOf tree := by
    rw [notesOf_eq hstorable.together hpart]
    refine List.filter_eq_self.2 fun note hnote => ?_
    obtain ⟨-, -, -⟩ := hshape note hnote
    exact decide_eq_true rfl
  obtain ⟨comments, hcomments, hstored⟩ := h.comments
  obtain ⟨notes, hforall, hperm⟩ := List.perm_comp_forall₂ hstored (List.Forall₂.flip hcomments)
  have hlive : liveDocuments (memory.documents database commentsCollection) =
      memory.documents database commentsCollection := by
    refine List.filter_eq_self.2 fun comment hcomment => ?_
    obtain ⟨note, -, word, thread, -, -, rfl⟩ := exists_of_mem_left hforall hcomment
    rw [isDeleted_commentOn]
    rfl
  have habout : List.Forall₂ (IsAbout (memory.documents database lexiconCollection))
      (liveDocuments (memory.documents database commentsCollection))
      (notes.map fun note => note.targetKey?.getD "") := by
    rw [hlive, List.forall₂_map_right_iff]
    refine List.Forall₂.flip (((List.forall₂_and_left _ _).2
      ⟨fun note hnote => hstorable.notes note (hperm.subset hnote), hforall.flip⟩).imp ?_)
    rintro note comment ⟨⟨-, word, hword, hne⟩, word', thread, hword', -, rfl⟩
    cases hword.symm.trans hword'
    rw [flip, hword]
    exact isAbout_commentOn hne
  have hcomplete : ∀ note ∈ notesOf tree, Complete note := by
    intro note hnote
    obtain ⟨hmessages, word, hword, -⟩ := hstorable.notes note hnote
    obtain ⟨reference, hreference, -⟩ := Option.map_eq_some_iff.1 hword
    exact ⟨by rw [hreference]; rfl, hmessages⟩
  have hpaired := pairedOff_of_commentOf hstorable.pairs hforall.flip hperm
  rw [← paired_zipWith_iff] at hpaired
  have hlength := hpaired.perm.length_eq
  rw [List.length_map, List.length_map] at hlength
  unfold verifyNotes
  refine bind_eq_ok_iff.2 ⟨_, openComments_eq_ok_iff.2 ⟨_, habout, by rw [hlive]⟩, ?_⟩
  dsimp only
  rw [hnotes, if_pos hlength]
  exact (matchNotes_eq_ok_iff hcomplete hlength).2 hpaired

/-! Databases into which a tree was stored. -/

theorem exists_fieldsOf {FieldOf : Node → String × Json → Prop} {node : Node} (names : List String)
    (hsingle : NoRepeats node)
    (hkey : ∀ child field, FieldOf child field → child.expectsAbsence = false → field.1 = fieldName child.name)
    (hfield : ∀ child ∈ node.present, child.name ∈ names ∧ ∃ field, FieldOf child field)
    (hnames : ∀ name ∈ names, ∀ other ∈ names, fieldName name = fieldName other → name = other) :
    ∃ fields, FieldsOf FieldOf node fields := by
  obtain ⟨fields, hfields⟩ := exists_forall₂ fun child hchild => (hfield child hchild).2
  have hkeys : List.Forall₂ (fun name key => fieldName name = key) (node.present.map Node.name)
      (fields.map Prod.fst) := by
    rw [List.forall₂_map_left_iff, List.forall₂_map_right_iff]
    have hpresent : ∀ child ∈ node.present, child.expectsAbsence = false :=
      fun child hchild => (Node.mem_present_iff.1 hchild).2
    exact ((List.forall₂_and_left _ _).2 ⟨hpresent, hfields⟩).imp fun child field ⟨hpresent, hfield⟩ =>
      (hkey child field hfield hpresent).symm
  rw [← List.forall₂_map_left_iff, List.forall₂_eq_eq_eq] at hkeys
  refine ⟨fields, ?_, fun field hmem => ?_, fun child hchild => exists_of_mem_left hfields hchild⟩
  . rw [← hkeys]
    refine List.Nodup.map_on (fun name hname other hother => ?_) hsingle
    obtain ⟨child, hchild, rfl⟩ := List.mem_map.1 hname
    obtain ⟨child', hchild', rfl⟩ := List.mem_map.1 hother
    exact hnames _ (hfield child hchild).1 _ (hfield child' hchild').1
  . obtain ⟨child, hchild, hgiven⟩ := exists_of_mem_right hfields hmem
    exact ⟨child, (Node.mem_present_iff.1 hchild).1, hgiven⟩

theorem exists_senseFields {sense : Node} (h : SenseShape sense) (hapart : FieldsApart sense) :
    ∃ fields, FieldsOf SenseField sense fields := by
  refine exists_fieldsOf [Node.definitionName, Node.glossName] hapart.single (fun child field hfield hpresent => ?_)
    (fun child hchild => ?_) (by decide)
  . obtain ⟨-, system, value, -, rfl⟩ := hfield.eq_of_present hpresent
    rfl
  . obtain ⟨hchildren⟩ := h
    obtain ⟨hmem, hpresent⟩ := Node.mem_present_iff.1 hchild
    obtain ⟨system, value, hvalue, rfl | rfl⟩ := SenseChild.cases_of_present (hchildren child hmem) hpresent
    . refine ⟨?_, _, .definition system value⟩
      rw [Repository.definition_of_ne_empty hvalue]
      exact List.mem_cons_self
    . refine ⟨?_, _, .gloss system value⟩
      rw [Repository.gloss_of_ne_empty hvalue]
      exact List.mem_cons_of_mem _ List.mem_cons_self

theorem exists_documentOf {entry : Node} (h : EntryShape entry) (hapart : FieldsApart entry)
    (hsenses : ∀ senses ∈ entry.childrenNamed Node.sensesName, ∀ sense ∈ senses.children, FieldsApart sense) :
    ∃ document, DocumentOf entry document := by
  have hchildren : ∀ child ∈ entry.children, EntryChild child := by
    obtain ⟨hchildren, -⟩ := h
    exact hchildren
  have hfields : ∃ fields, FieldsOf EntryField entry fields := by
    refine exists_fieldsOf [Node.lexemeFormName, Node.sensesName] hapart.single
      (fun child field hfield _ => hfield.key_eq) (fun child hchild => ?_) (by decide)
    obtain ⟨hmem, hpresent⟩ := Node.mem_present_iff.1 hchild
    rcases EntryChild.cases_of_present (hchildren child hmem) hpresent with
      ⟨system, value, rfl⟩ | ⟨nodes, rfl, hnodes⟩
    . exact ⟨List.mem_cons_self, _, .lexeme system value⟩
    . have hapart : ∀ node ∈ nodes, FieldsApart node := hsenses _ (List.mem_filter.2 ⟨hmem, decide_eq_true rfl⟩)
      obtain ⟨objects, hobjects⟩ :=
        exists_forall₂ fun node hnode => exists_senseFields (hnodes node hnode) (hapart node hnode)
      exact ⟨List.mem_cons_of_mem _ List.mem_cons_self, _, .senses hobjects⟩
  obtain ⟨fields, hfields⟩ := hfields
  exact ⟨.object fields, fields, rfl, hfields⟩

theorem exists_commentOf {note : Node} {word : String} (hword : note.targetKey? = some word)
    (hmessages : note.childrenNamed Node.messageName ≠ []) : ∃ comment, CommentOf note comment := by
  obtain ⟨message, messages, hcons⟩ := List.exists_cons_of_ne_nil hmessages
  exact ⟨_, word, _, hword, by rw [threadOf?, hcons]; rfl, rfl⟩

theorem exists_holds {tree : Node} (hshape : ∀ entry ∈ Repository.entriesOf tree, EntryShape entry)
    (h : Storable tree) (database : String) : ∃ memory, Holds memory database tree := by
  obtain ⟨documents, hdocuments⟩ := exists_forall₂ fun entry hentry =>
    exists_documentOf (hshape entry hentry) (h.entries entry hentry) (h.senses entry hentry)
  obtain ⟨comments, hcomments⟩ : ∃ comments, List.Forall₂ CommentOf (notesOf tree) comments := by
    refine exists_forall₂ fun note hnote => ?_
    obtain ⟨hmessages, word, hword, -⟩ := h.notes note hnote
    exact exists_commentOf hword hmessages
  refine ⟨(Memory.replace {} database lexiconCollection documents).replace database commentsCollection comments,
    ⟨documents, hdocuments, ?_⟩, ⟨comments, hcomments, ?_⟩⟩
  . rw [Memory.documents_replace_of_ne _ _ _ _ (by decide), Memory.documents_replace_self]
  . rw [Memory.documents_replace_self]

/-! Verification. -/

/--
A fixture that gives every field once and can tell its entries and notes apart can be stored, and every
database into which it was stored is verified against it.
-/
theorem verifyProject_of_holds {text : String} {tree : Node} (hparse : Fixture.parse text = .ok tree)
    (h : Storable tree) (project : String) :
    (∃ memory, Holds memory (databaseName defaultPrefix project) tree) ∧
      ∀ memory : Memory, Holds memory (databaseName defaultPrefix project) tree →
        verifyProject memory.store project tree = .ok () := by
  have htreeShape := Fixture.treeShape_of_parse hparse
  have hshape : ∀ entry ∈ Repository.entriesOf tree, EntryShape entry :=
    fun _ hentry => Repository.entryShape_of_mem_entriesOf htreeShape hentry
  refine ⟨exists_holds hshape h _, fun memory hholds => forM_eq_ok_iff.2 fun part hpart => ?_⟩
  have hsection : SectionShape part := by
    obtain ⟨hsections⟩ := htreeShape
    exact hsections part hpart
  unfold verifySection
  cases hsection with
  | lexicon =>
    rw [if_pos (by rfl)]
    exact verifyLexicon_of_holds hshape h hholds (List.mem_filter.2 ⟨hpart, decide_eq_true rfl⟩)
  | notes hnotes =>
    rw [if_neg (by exact show ¬Node.notesName = Node.lexiconName by decide), if_pos (by rfl)]
    exact verifyNotes_of_holds hnotes h hholds (List.mem_filter.2 ⟨hpart, decide_eq_true rfl⟩)

/-! An entry with a sense that has no gloss, and a note with a reply. -/

def tideText : String :=
  "[\x7blexicon: [\x7blexeme: \x7ben: \x7bvalue: 'tide'\x7d\x7d, senses: ["
    ++ "\x7bdefinition: \x7ben: \x7bvalue: 'rise'\x7d\x7d, gloss: \x7bfr: \x7bvalue: ''\x7d\x7d\x7d]\x7d]\x7d, "
    ++ "\x7bnotes: [\x7bref: 'tide', message: \x7bvalue: 'when', status: ''\x7d, "
    ++ "replies: [\x7bvalue: 'noon'\x7d]\x7d]\x7d]"

def tideSense : Node :=
  container Node.senseName [definition "en" "rise", gloss "fr" ""]

def tideEntry : Node :=
  container Node.entryName [lexemeForm "en" "tide", container Node.sensesName [tideSense]]

def tideNote : Node where
  name := Node.annotationName
  attributes := [(Node.referenceKey, "label=tide")]
  children := [
    { name := Node.messageName, attributes := [(Node.statusKey, "")], text := some "when" },
    .leaf Node.messageName "noon"]

def tideTree : Node :=
  container Node.rootName [container Node.lexiconName [tideEntry], container Node.notesName [tideNote]]

def tideMemory : Memory where
  databases := [("sf_sea", [
    (lexiconCollection, [.object [
      ("senses", .array [.object [("definition", inSystem "en" "rise"), ("gloss", inSystem "fr" "")]]),
      ("lexeme", inSystem "en" "tide")]]),
    (commentsCollection, [commentOn "tide" ⟨"when", some "open", ["noon"]⟩])])]

set_option maxRecDepth 10000 in
theorem parse_tideText : Fixture.parse tideText = .ok tideTree := by
  with_unfolding_all rfl

theorem fieldsOf_tideSense : FieldsOf SenseField tideSense
    [("definition", inSystem "en" "rise"), ("gloss", inSystem "fr" "")] where
  nodup := by decide
  given := by
    refine List.forall_mem_cons.2 ⟨⟨_, List.mem_cons_self, .definition _ _⟩, List.forall_mem_singleton.2 ?_⟩
    exact ⟨_, List.mem_cons_of_mem _ List.mem_cons_self, .gloss _ _⟩
  stored := List.forall_mem_singleton.2 ⟨_, List.mem_cons_self, .definition _ _⟩

theorem documentOf_tideEntry : DocumentOf tideEntry (.object [
    ("senses", .array [.object [("definition", inSystem "en" "rise"), ("gloss", inSystem "fr" "")]]),
    ("lexeme", inSystem "en" "tide")]) := by
  have hsenses : EntryField (container Node.sensesName [tideSense])
      ("senses", .array [.object [("definition", inSystem "en" "rise"), ("gloss", inSystem "fr" "")]]) :=
    .senses (.cons fieldsOf_tideSense .nil)
  refine ⟨_, rfl, by decide, ?_, ?_⟩
  . refine List.forall_mem_cons.2 ⟨⟨_, List.mem_cons_of_mem _ List.mem_cons_self, hsenses⟩, ?_⟩
    exact List.forall_mem_singleton.2 ⟨_, List.mem_cons_self, .lexeme _ _⟩
  . refine List.forall_mem_cons.2 ⟨⟨_, List.mem_cons_of_mem _ List.mem_cons_self, .lexeme _ _⟩, ?_⟩
    exact List.forall_mem_singleton.2 ⟨_, List.mem_cons_self, hsenses⟩

theorem holds_tideMemory : Holds tideMemory "sf_sea" tideTree where
  lexicon := ⟨_, .cons documentOf_tideEntry .nil, .refl _⟩
  comments := ⟨_, .cons ⟨"tide", ⟨"when", some "open", ["noon"]⟩, by with_unfolding_all rfl, rfl, rfl⟩ .nil, .refl _⟩

theorem storable_tideTree : Storable tideTree where
  entries := List.forall_mem_singleton.2 ⟨by decide, by decide⟩
  senses := by
    refine List.forall_mem_singleton.2 (List.forall_mem_singleton.2 (List.forall_mem_singleton.2 ?_))
    exact ⟨by decide, by decide⟩
  lexemes := List.pairwise_singleton _ _
  together := by decide
  notes := List.forall_mem_singleton.2 ⟨nofun, "tide", by with_unfolding_all rfl, by decide⟩
  pairs := List.nodup_singleton _

theorem verifyProject_tideMemory :
    Fixture.parse tideText = .ok tideTree ∧ Storable tideTree ∧
      Holds tideMemory (databaseName defaultPrefix "sea") tideTree ∧
        verifyProject tideMemory.store "sea" tideTree = .ok () :=
  ⟨parse_tideText, storable_tideTree, holds_tideMemory,
    (verifyProject_of_holds parse_tideText storable_tideTree "sea").2 tideMemory holds_tideMemory⟩

end LexiconAudit.Database
