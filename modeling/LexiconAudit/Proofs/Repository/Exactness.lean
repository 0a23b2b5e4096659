import LexiconAudit.Proofs.Fixture.References
import LexiconAudit.Proofs.Repository.Lookup
import LexiconAudit.Proofs.Repository.Reflexivity

/-!
This module contains what a repository holds once it is verified. Entries are looked up without regard to
layout, but whatever passes holds the expected lexemes, references, statuses and texts as they are.
-/

namespace LexiconAudit.Repository

open Fixture (EntryShape NoteShape SectionShape)
open Fixture.Reader (alternative container lexemeForm)

def HasLexeme (entry : Node) (system value : String) : Prop :=
  ∃ uni, entry.descend? [Node.lexemeFormName, Node.stemName, Node.formName, Node.uniName] = some uni ∧
    uni.attribute? Node.writingSystemKey = some system ∧ uni.value = value

/--
Some file of the lexicon holds an entry with every lexeme that is expected, of which there is one at least.
-/
def HoldsEntry (files : Files.Tree) (root : String) (expected : Node) : Prop :=
  ∃ paths path lexicon stored, lexiconFiles files root = .ok paths ∧ path ∈ paths ∧
    loadDocument files path = .ok lexicon ∧ stored ∈ lexicon.childrenNamed Node.entryName ∧
      (∃ system value, lexemeForm system value ∈ expected.children) ∧
        ∀ system value, lexemeForm system value ∈ expected.children → HasLexeme stored system value

/--
A message with the expected text and, if one is expected, the expected status.
-/
structure HoldsMessage (expected stored : Node) : Prop where
  value : stored.value = expected.value
  status : ∀ status, expected.attribute? Node.statusKey = some status →
    stored.attribute? Node.statusKey = some status

/--
A note with the expected class, a reference that contains the expected one behind the mark of a label, and
the expected messages in front of all others.
-/
structure HoldsNote (expected stored : Node) : Prop where
  noteClass : ∀ value, expected.attribute? Node.classKey = some value →
    stored.attribute? Node.classKey = some value
  reference : ∀ value, expected.attribute? Node.referenceKey = some value → ∃ target found,
    value = Node.labelMark ++ target ∧ stored.attribute? Node.referenceKey = some found ∧
      (Node.labelMark ++ target).toList <:+: found.toList
  messages : ∃ matched rest, stored.childrenNamed Node.messageName = matched ++ rest ∧
    List.Forall₂ HoldsMessage (expected.childrenNamed Node.messageName) matched

def HoldsNotes (files : Files.Tree) (root : String) (expected : Node) : Prop :=
  ∃ document, loadDocument files (notesFile root) = .ok document ∧
    List.Forall₂ HoldsNote (expected.childrenNamed Node.annotationName)
      (document.childrenNamed Node.annotationName)

/-! Entries. -/

theorem hasLexeme_of_covers {expected stored : Node} (h : Covers expected stored) {system value : String}
    (hmem : lexemeForm system value ∈ expected.children) : HasLexeme stored system value := by
  have hne : expected.children ≠ [] := List.ne_nil_of_mem hmem
  obtain ⟨-, -, hchildren⟩ := (covers_iff_of_children_ne_nil hne).1 h
  obtain ⟨hsome, hcovers⟩ := hchildren _ hmem (show Node.lexemeFormName ≠ Node.messageName by decide)
  obtain ⟨form, hform⟩ := Option.isSome_iff_exists.1 (hsome.2 rfl)
  have hform : stored.child? Node.lexemeFormName = some form := hform
  -- below the lexeme every expected element is an only child, and found by its name
  have hinside {name : String} {child found : Node} (hchild : child.name ≠ Node.messageName)
      (hpresent : child.expectsAbsence = false) (hcovers : Covers (container name [child]) found) :
      ∃ inner, found.child? child.name = some inner ∧ Covers child inner :=
    (covers_container_iff (List.cons_ne_nil _ _) (List.forall_mem_singleton.2 hchild)
      (List.forall_mem_singleton.2 hpresent)).1 hcovers child List.mem_cons_self
  obtain ⟨stem, hstem, hcovers⟩ :=
    hinside (show Node.stemName ≠ Node.messageName by decide) rfl (hcovers form hform)
  have hstem : form.child? Node.stemName = some stem := hstem
  obtain ⟨inner, hinner, hcovers⟩ := hinside (show Node.formName ≠ Node.messageName by decide) rfl hcovers
  have hinner : stem.child? Node.formName = some inner := hinner
  obtain ⟨uni, huni, hcovers⟩ := hinside (show Node.uniName ≠ Node.messageName by decide) rfl hcovers
  have huni : inner.child? Node.uniName = some uni := huni
  refine ⟨uni, ?_, ?_, ?_⟩
  . simp only [Node.descend?, hform, hstem, hinner, huni, Option.bind_some]
  . exact hcovers.attribute? (by decide) (by decide) rfl
  . exact ((covers_iff_of_children_eq_nil rfl).1 hcovers).2

theorem mem_of_firstContaining {files : Files.Tree} {key : List Char} {paths : List String} {path : String}
    (h : firstContaining files key paths = .ok (some path)) : path ∈ paths := by
  induction paths with
  | nil => cases h
  | cons first paths ih =>
    unfold firstContaining at h
    split at h
    . cases h
    . split at h
      . cases h
        exact List.mem_cons_self
      . exact List.mem_cons_of_mem _ (ih h)

theorem exists_covers_of_verifyEntry {files : Files.Tree} {root : String} {record : Nat} {expected : Node}
    (h : verifyEntry files (.ofRoot files root) record expected = .ok ()) :
    ∃ paths path lexicon stored, lexiconFiles files root = .ok paths ∧ path ∈ paths ∧
      loadDocument files path = .ok lexicon ∧ stored ∈ lexicon.childrenNamed Node.entryName ∧
        Covers expected stored := by
  unfold verifyEntry at h
  split at h
  . cases h
  next form hform =>
  obtain ⟨located, hlocate, h⟩ := bind_eq_ok_iff.1 h
  obtain ⟨paths, hpaths, hfirst⟩ := bind_eq_ok_iff.1 hlocate
  split at h
  . cases h
  next path =>
  obtain ⟨lexicon, hload, h⟩ := bind_eq_ok_iff.1 h
  split at h
  . cases h
  next stored hfound =>
  exact ⟨paths, path, lexicon, stored, hpaths, mem_of_firstContaining hfirst, hload,
    List.mem_of_find?_eq_some hfound, (compare_eq_ok_iff expected).1 h⟩

theorem verifyEntry_of_verifyEntries {files : Files.Tree} {locator : Locator} {record : Nat}
    {entries : List Node} (h : verifyEntries files locator record entries = .ok ()) {entry : Node}
    (hmem : entry ∈ entries) : ∃ record, verifyEntry files locator record entry = .ok () := by
  induction entries generalizing record with
  | nil => cases hmem
  | cons first entries ih =>
    obtain ⟨hfirst, hrest⟩ := bind_unit_eq_ok_iff.1 h
    rcases List.mem_cons.1 hmem with rfl | hmem
    . exact ⟨record, hfirst⟩
    . exact ih hrest hmem

theorem holdsEntry_of_verifyEntry {files : Files.Tree} {root : String} {record : Nat} {expected : Node}
    (hshape : EntryShape expected)
    (h : verifyEntry files (.ofRoot files root) record expected = .ok ()) :
    HoldsEntry files root expected := by
  obtain ⟨paths, path, lexicon, stored, hpaths, hpath, hload, hstored, hcovers⟩ :=
    exists_covers_of_verifyEntry h
  refine ⟨paths, path, lexicon, stored, hpaths, hpath, hload, hstored, ?_, ?_⟩
  . obtain ⟨-, hlexeme⟩ := hshape
    exact ⟨_, _, hlexeme⟩
  . intro system value hmem
    exact hasLexeme_of_covers hcovers hmem

/-! Notes. -/

theorem covers_of_compareNotes {record : Nat} {expected stored : List Node}
    (hlength : expected.length = stored.length) (h : compareNotes record expected stored = .ok ()) :
    List.Forall₂ Covers expected stored := by
  induction expected generalizing record stored with
  | nil =>
    cases List.eq_nil_of_length_eq_zero hlength.symm
    exact .nil
  | cons note notes ih =>
    cases stored with
    | nil => cases hlength
    | cons found others =>
      obtain ⟨hnote, hnotes⟩ := bind_unit_eq_ok_iff.1 h
      exact .cons ((compare_eq_ok_iff note).1 hnote) (ih (Nat.succ.inj hlength) hnotes)

theorem holdsMessage_of_covers {expected stored : Node} (hnil : expected.children = [])
    (h : Covers expected stored) : HoldsMessage expected stored where
  value := by
    rw [((covers_iff_of_children_eq_nil hnil).1 h).2, Node.value_eq, hnil]
    exact String.append_empty.symm
  status _ hstatus := h.attribute? (by decide) (by decide) hstatus

theorem children_eq_nil_of_message {note message : Node} (h : NoteShape note)
    (hmem : message ∈ note.childrenNamed Node.messageName) : message.children = [] := by
  obtain ⟨hchild, hname⟩ := List.mem_filter.1 hmem
  obtain ⟨-, -, hmarks⟩ := h
  rcases List.mem_append.1 hchild with hchild | hchild
  . obtain ⟨m, -, rfl⟩ := List.mem_map.1 hchild
    exact Fixture.Message.children_toNode m
  . exact absurd (of_decide_eq_true hname) (hmarks message hchild).name_ne_messageName

theorem holdsNote_of_covers {expected stored : Node} (hshape : NoteShape expected)
    (hlabelled : Fixture.Labelled expected) (h : Covers expected stored) : HoldsNote expected stored where
  noteClass _ hvalue := h.attribute? (by decide) (by decide) hvalue
  reference := by
    intro value hvalue
    obtain ⟨target, rfl⟩ := hlabelled value hvalue
    obtain ⟨before, after, hmem, -⟩ := List.lookup_eq_some_iff.1 hvalue
    have hpair : (Node.referenceKey, Node.labelMark ++ target) ∈ expected.attributes := by simp [hmem]
    rcases h.attributes _ hpair with habsence | ⟨found, hfound, hinfix⟩
    . exact absurd (show Node.referenceKey = Node.absenceKey from habsence) (by decide)
    . rw [if_pos rfl] at hinfix
      exact ⟨target, found, rfl, hfound, hinfix⟩
  messages := by
    by_cases hnil : expected.children = []
    . refine ⟨[], stored.childrenNamed Node.messageName, rfl, ?_⟩
      rw [Node.childrenNamed, hnil]
      exact .nil
    . obtain ⟨-, ⟨matched, rest, hstored, hforall⟩, -⟩ := (covers_iff_of_children_ne_nil hnil).1 h
      have hleaves : ∀ message ∈ expected.childrenNamed Node.messageName, message.children = [] :=
        fun _ hmessage => children_eq_nil_of_message hshape hmessage
      refine ⟨matched, rest, hstored, ?_⟩
      exact ((List.forall₂_and_left _ _).2 ⟨hleaves, hforall⟩).imp fun _ _ ⟨hnil, hcovers⟩ =>
        holdsMessage_of_covers hnil hcovers

theorem holdsNotes_of_verifyNotes {files : Files.Tree} {root : String} {part : Node}
    (hshape : ∀ note ∈ part.children, NoteShape note)
    (hlabelled : ∀ note ∈ part.children, Fixture.Labelled note)
    (h : verifyNotes files (.ofRoot files root) part = .ok ()) : HoldsNotes files root part := by
  unfold verifyNotes at h
  split at h
  . obtain ⟨document, hload, h⟩ := bind_eq_ok_iff.1 h
    dsimp only at h
    split at h
    . next hlength =>
      have hcovers := covers_of_compareNotes hlength h
      have hmade : ∀ note ∈ part.childrenNamed Node.annotationName, NoteShape note ∧ Fixture.Labelled note :=
        fun note hnote => ⟨hshape note (List.mem_filter.1 hnote).1, hlabelled note (List.mem_filter.1 hnote).1⟩
      refine ⟨document, hload, ?_⟩
      exact ((List.forall₂_and_left _ _).2 ⟨hmade, hcovers⟩).imp fun _ _ ⟨⟨hshape, hlabelled⟩, hcovers⟩ =>
        holdsNote_of_covers hshape hlabelled hcovers
    . cases h
  . cases h

/--
A repository that is verified against what a fixture spells holds every expected entry with exactly its
lexemes, and the expected notes in their order with exactly their classes, statuses and texts.
-/
theorem holds_of_verify {files : Files.Tree} {root text : String} {tree : Node}
    (hparse : Fixture.parse text = .ok tree) (h : verify files root tree = .ok ()) :
    ∀ part ∈ tree.children,
      (part.name = Node.lexiconName → ∀ entry ∈ part.children, HoldsEntry files root entry) ∧
        (part.name = Node.notesName → HoldsNotes files root part) := by
  intro part hpart
  have hverify : verifySection files (.ofRoot files root) part = .ok () := forM_eq_ok_iff.1 h part hpart
  obtain ⟨hsections⟩ := Fixture.treeShape_of_parse hparse
  cases hsections part hpart with
  | @lexicon entries hentries =>
    refine ⟨fun _ entry hentry => ?_, fun hname => ?_⟩
    . rw [verifySection_lexicon] at hverify
      obtain ⟨record, hrecord⟩ := verifyEntry_of_verifyEntries hverify hentry
      exact holdsEntry_of_verifyEntry (hentries entry hentry) hrecord
    . exact absurd (show Node.lexiconName = Node.notesName from hname) (by decide)
  | @notes notes hnotes =>
    refine ⟨fun hname => ?_, fun hname => ?_⟩
    . exact absurd (show Node.notesName = Node.lexiconName from hname) (by decide)
    . rw [verifySection_notes] at hverify
      refine holdsNotes_of_verifyNotes hnotes (fun note hnote => ?_) hverify
      exact Fixture.labelled_of_parse hparse hpart rfl hnote

/-! An entry and a note that are stored with more than is expected. -/

def moonText : String :=
  "[\x7blexicon: [\x7blexeme: \x7ben: \x7bvalue: 'new moon'\x7d\x7d\x7d]\x7d, "
    ++ "\x7bnotes: [\x7bref: 'moon', message: \x7bvalue: 'full', status: 'open'\x7d\x7d]\x7d]"

def noteOn (attributes : List (String × String)) (status : String) (messages : List String) : Node where
  name := Node.annotationName
  attributes := attributes
  children := messages.map fun text =>
    { name := Node.messageName, attributes := [(Node.statusKey, status)], text := some text }

def moonTree : Node :=
  container Node.rootName [
    container Node.lexiconName [container Node.entryName [lexemeForm "en" "new moon"]],
    container Node.notesName [noteOn [(Node.referenceKey, "label=moon")] "open" ["full"]]]

def storedLexicon : Node :=
  container Node.lexiconName [glossedEntry "moon" "satellite", glossedEntry "new moon" "phase"]

def storedNotes : Node :=
  container Node.notesName [noteOn [(Node.classKey, "question"), (Node.referenceKey, "link?label=moon&tag=")]
    "open" ["full", "half"]]

def moonFile : String × Node :=
  ("repo/Linguistics/Lexicon/Lexicon_01.lexdb", storedLexicon)

def moonFiles : Files.Tree where
  tops := [(some 0, [("repo", .directory [
    ("Linguistics", .directory [("Lexicon", .directory [
      ("Lexicon_01.lexdb", .file (.plain (Text.Utf8.encode storedLexicon.toXmlPretty)) false)])]),
    ("Lexicon.fwstub.ChorusNotes", .file (.plain (Text.Utf8.encode storedNotes.toXml)) false)])])]

theorem stores_moonFiles : Stores moonFiles "repo" [moonFile] where
  listed := by
    have hlist : moonFiles.list (lexiconDirectory "repo") = .ok ["Lexicon_01.lexdb"] := by
      with_unfolding_all rfl
    exact lexiconFiles_of_list hlist rfl
  written := by
    have hfind : moonFiles.find moonFile.1 =
        .ok (⟨some 0, ["repo", "Linguistics", "Lexicon", "Lexicon_01.lexdb"]⟩,
          .file (.plain (Text.Utf8.encode storedLexicon.toXmlPretty)) false) := by with_unfolding_all rfl
    exact List.forall_mem_singleton.2 ⟨.indented, Files.Tree.readText_of_find hfind⟩

theorem verifyEntry_moonFiles : verifyEntry moonFiles (.ofRoot moonFiles "repo") 0
    (container Node.entryName [lexemeForm "en" "new moon"]) = .ok () := by
  have hform : (container Node.entryName [lexemeForm "en" "new moon"]).entryForm? =
    some (container Node.formName [alternative Node.uniName "en" "new moon"]) := rfl
  have hstored : (glossedEntry "new moon" "phase").entryForm? =
    some (container Node.formName [alternative Node.uniName "en" "new moon"]) := rfl
  have hfirst : firstHolding? (searchKey (container Node.formName [alternative Node.uniName "en" "new moon"]))
      [moonFile] = some moonFile := by
    apply List.find?_cons_of_pos
    rw [Text.occurs_iff]
    exact (searchKey_infix_of_descend? hstored).trans
      (searchKey_infix_of_mem (List.mem_cons_of_mem _ List.mem_cons_self))
  obtain ⟨layout, htext⟩ := stores_moonFiles.written _ List.mem_cons_self
  rw [verifyEntry_of_located stores_moonFiles hform hfirst, loadDocument_of_written htext (by decide +kernel)]
  with_unfolding_all rfl

theorem verifyNotes_moonFiles : verifyNotes moonFiles (.ofRoot moonFiles "repo")
    (container Node.notesName [noteOn [(Node.referenceKey, "label=moon")] "open" ["full"]]) = .ok () := by
  have hfind : moonFiles.find (notesFile "repo") = .ok (⟨some 0, ["repo", "Lexicon.fwstub.ChorusNotes"]⟩,
      .file (.plain (Text.Utf8.encode storedNotes.toXml)) false) := by with_unfolding_all rfl
  have hisFile : moonFiles.isFile (Locator.ofRoot moonFiles "repo").notes = true :=
    Files.Tree.isFile_of_find hfind
  unfold verifyNotes
  rw [if_pos hisFile]
  change (do let document ← loadDocument moonFiles (notesFile "repo"); _) = _
  have htext : moonFiles.readText (notesFile "repo") = .ok (String.ofList (Node.markup .compact 0 storedNotes)) :=
    Files.Tree.readText_of_find hfind
  rw [loadDocument_of_written htext (by decide +kernel)]
  with_unfolding_all rfl

set_option maxRecDepth 10000 in
theorem holds_moonFiles :
    Fixture.parse moonText = .ok moonTree ∧ verify moonFiles "repo" moonTree = .ok () ∧
      HoldsEntry moonFiles "repo" (container Node.entryName [lexemeForm "en" "new moon"]) ∧
        HoldsNotes moonFiles "repo"
          (container Node.notesName [noteOn [(Node.referenceKey, "label=moon")] "open" ["full"]]) := by
  have hparse : Fixture.parse moonText = .ok moonTree := by with_unfolding_all rfl
  have hverify : verify moonFiles "repo" moonTree = .ok () := by
    refine forM_eq_ok_iff.2 (List.forall_mem_cons.2 ⟨?_, List.forall_mem_singleton.2 ?_⟩)
    . rw [verifySection_lexicon, verifyEntries]
      exact bind_unit_eq_ok_iff.2 ⟨verifyEntry_moonFiles, rfl⟩
    . rw [verifySection_notes]
      exact verifyNotes_moonFiles
  have hholds := holds_of_verify hparse hverify
  have hlexicon := (hholds _ List.mem_cons_self).1 rfl _ List.mem_cons_self
  have hnotes := (hholds _ (List.mem_cons_of_mem _ List.mem_cons_self)).2 rfl
  exact ⟨hparse, hverify, hlexicon, hnotes⟩

end LexiconAudit.Repository
