import LexiconAudit.Fixture.Reader
import LexiconAudit.Proofs.Files.Writing
import LexiconAudit.Proofs.Repository.Covering
import LexiconAudit.Proofs.Repository.SearchKey
import LexiconAudit.Proofs.Xml.RoundTrip
import LexiconAudit.Repository.Verification

/-!
This module contains the look-up of entries in a repository whose files hold lexicons that were written from
trees: the first file with the key of an entry is taken, and the first entry with that key in it.
-/

namespace LexiconAudit.Repository

open Node (Layout markup)

structure Stores (files : Files.Tree) (root : String) (lexicons : List (String × Node)) : Prop where
  listed : lexiconFiles files root = .ok (lexicons.map Prod.fst)
  written : ∀ pair ∈ lexicons, ∃ layout, files.readText pair.1 = .ok (String.ofList (markup layout 0 pair.2))

variable {files : Files.Tree} {root : String} {lexicons : List (String × Node)}

theorem lexiconFiles_of_list {names : List String} {name : String}
    (h : files.list (lexiconDirectory root) = .ok names) (hname : names.filter isLexiconFile = [name]) :
    lexiconFiles files root = .ok [Files.join (lexiconDirectory root) name] := by
  unfold lexiconFiles
  dsimp only
  rw [h]
  dsimp only
  rw [hname, List.mergeSort_singleton]
  rfl

/--
The first of some lexicons that a key occurs in, with its file.
-/
def firstHolding? (key : List Char) (lexicons : List (String × Node)) : Option (String × Node) :=
  lexicons.find? fun pair => Text.occurs key (searchKey pair.2)

theorem firstContaining_eq
    (h : ∀ pair ∈ lexicons, ∃ layout, files.readText pair.1 = .ok (String.ofList (markup layout 0 pair.2)))
    (key : List Char) :
    firstContaining files key (lexicons.map Prod.fst) = .ok ((firstHolding? key lexicons).map Prod.fst) := by
  induction lexicons with
  | nil => rfl
  | cons pair lexicons ih =>
    rw [List.forall_mem_cons] at h
    obtain ⟨⟨layout, htext⟩, h⟩ := h
    rw [List.map_cons, firstContaining, htext]
    dsimp only
    rw [String.toList_ofList, stripLayout_markup, firstHolding?, List.find?_cons, ih h]
    cases Text.occurs key (searchKey pair.2) <;> rfl

theorem loadDocument_of_written {path : String} {layout : Layout} {node : Node}
    (h : files.readText path = .ok (String.ofList (markup layout 0 node))) (hwritable : Xml.Writable node) :
    loadDocument files path = .ok node.normal := by
  rw [loadDocument, h]
  dsimp only
  rw [Xml.parse_markup hwritable layout]

theorem verifyEntry_of_located (h : Stores files root lexicons) {expected form : Node}
    (hform : expected.entryForm? = some form) {first : String × Node}
    (hfirst : firstHolding? (searchKey form) lexicons = some first) (record : Nat) :
    verifyEntry files (.ofRoot files root) record expected = (do
      match findEntry? (searchKey form) (← loadDocument files first.1) with
      | none => .error (.entryNotInFile form)
      | some found => compare record expected found) := by
  have hlocate : (Locator.ofRoot files root).locate (searchKey form) = .ok (some first.1) := by
    unfold Locator.ofRoot
    dsimp only
    rw [h.listed]
    refine (firstContaining_eq h.written _).trans ?_
    rw [hfirst]
    rfl
  rw [verifyEntry, hform]
  dsimp only
  rw [hlocate]
  rfl

/--
An entry whose form is written like that of a stored one is looked up in the first file with the key of this
form, and compared with the first entry in it that has the key.
-/
theorem verifyEntry_eq_ok_iff_firstHolding (h : Stores files root lexicons) {expected form : Node}
    (hform : expected.entryForm? = some form) {holding : String × Node} (hholding : holding ∈ lexicons)
    {entry form' : Node} (hentry : entry ∈ holding.2.childrenNamed Node.entryName)
    (hform' : entry.entryForm? = some form') (hxml : form'.toXml = form.toXml) (record : Nat) :
    ∃ first, firstHolding? (searchKey form) lexicons = some first ∧
      (Xml.Writable first.2 → loadDocument files first.1 = .ok first.2.normal) ∧
        (verifyEntry files (.ofRoot files root) record expected = .ok () ↔ ∃ document found,
          loadDocument files first.1 = .ok document ∧ findEntry? (searchKey form) document = some found ∧
            compare record expected found = .ok ()) := by
  have hkey : searchKey form <:+: searchKey holding.2 := by
    have hsame : searchKey form = searchKey form' := by rw [searchKey, searchKey, hxml]
    rw [hsame]
    exact (searchKey_infix_of_descend? hform').trans (searchKey_infix_of_mem (List.mem_filter.1 hentry).1)
  obtain ⟨first, hfirst⟩ : ∃ first, firstHolding? (searchKey form) lexicons = some first := by
    rw [← Option.isSome_iff_exists, firstHolding?, List.find?_isSome]
    exact ⟨holding, hholding, Text.occurs_iff.2 hkey⟩
  obtain ⟨layout, htext⟩ := h.written first (List.mem_of_find?_eq_some hfirst)
  refine ⟨first, hfirst, loadDocument_of_written htext, ?_⟩
  rw [verifyEntry_of_located h hform hfirst, bind_eq_ok_iff]
  refine exists_congr fun document => ?_
  cases hfound : findEntry? (searchKey form) document with
  | none => simp
  | some found => simp

/-! Sections. -/

theorem verifySection_lexicon (locator : Locator) (entries : List Node) :
    verifySection files locator (Fixture.Reader.container Node.lexiconName entries) =
      verifyEntries files locator 0 entries :=
  if_pos rfl

theorem verifySection_notes (locator : Locator) (notes : List Node) :
    verifySection files locator (Fixture.Reader.container Node.notesName notes) =
      verifyNotes files locator (Fixture.Reader.container Node.notesName notes) := by
  have hother : Node.notesName ≠ Node.lexiconName := by decide
  exact (if_neg hother).trans (if_pos rfl)

/-! Two entries of one form in one file. -/

open Fixture.Reader (alternative container gloss lexemeForm)

def glossedEntry (lexeme meaning : String) : Node :=
  container Node.entryName [lexemeForm "en" lexeme, container Node.sensesName [
    container Node.senseName [gloss "en" meaning]]]

def starText : String :=
  "[\x7blexicon: [\x7blexeme: \x7ben: \x7bvalue: 'sun'\x7d\x7d, senses: ["
    ++ "\x7bgloss: \x7ben: \x7bvalue: 'star'\x7d\x7d\x7d]\x7d]\x7d]"

def starTree : Node :=
  container Node.rootName [container Node.lexiconName [glossedEntry "sun" "star"]]

def homographs : Node :=
  container Node.lexiconName [glossedEntry "sun" "light", glossedEntry "sun" "star"]

def homographFile : String × Node :=
  ("repo/Linguistics/Lexicon/Lexicon_01.lexdb", homographs)

def homographFiles : Files.Tree where
  tops := [(some 0, [("repo", .directory [("Linguistics", .directory [("Lexicon", .directory [
    ("Lexicon_01.lexdb", .file (.plain (Text.Utf8.encode homographs.toXml)) false)])])])])]

theorem lexiconFiles_homographs : lexiconFiles homographFiles "repo" = .ok [homographFile.1] := by
  have hlist : homographFiles.list (lexiconDirectory "repo") = .ok ["Lexicon_01.lexdb"] := by
    with_unfolding_all rfl
  exact lexiconFiles_of_list hlist rfl

theorem readText_homographs : homographFiles.readText homographFile.1 = .ok homographs.toXml := by
  have hfind : homographFiles.find homographFile.1 =
      .ok (⟨some 0, ["repo", "Linguistics", "Lexicon", "Lexicon_01.lexdb"]⟩,
        .file (.plain (Text.Utf8.encode homographs.toXml)) false) := by with_unfolding_all rfl
  exact Files.Tree.readText_of_find hfind

theorem stores_homographs : Stores homographFiles "repo" [homographFile] where
  listed := lexiconFiles_homographs
  written := List.forall_mem_singleton.2 ⟨.compact, readText_homographs⟩

theorem writable_homographs : Xml.Writable homographs := by decide +kernel

theorem verifyEntry_homograph :
    Fixture.parse starText = .ok starTree ∧ lexiconFiles homographFiles "repo" = .ok [homographFile.1] ∧
      homographFiles.readText homographFile.1 = .ok homographs.toXml ∧
        glossedEntry "sun" "star" ∈ homographs.children ∧
          compare 0 (glossedEntry "sun" "star") (glossedEntry "sun" "star") = .ok () ∧
            verifyEntry homographFiles (.ofRoot homographFiles "repo") 0 (glossedEntry "sun" "star") =
              .error (.valueDiffers Node.uniName 0) := by
  refine ⟨by with_unfolding_all rfl, lexiconFiles_homographs, readText_homographs,
    List.mem_cons_of_mem _ List.mem_cons_self, by with_unfolding_all rfl, ?_⟩
  have hload := loadDocument_of_written readText_homographs writable_homographs
  have hform : (glossedEntry "sun" "star").entryForm? =
    some (container Node.formName [alternative Node.uniName "en" "sun"]) := rfl
  have hfirst : firstHolding? (searchKey (container Node.formName [alternative Node.uniName "en" "sun"]))
      [homographFile] = some homographFile := by
    apply List.find?_cons_of_pos
    rw [Text.occurs_iff]
    exact (searchKey_infix_of_descend? hform).trans
      (searchKey_infix_of_mem (List.mem_cons_of_mem _ List.mem_cons_self))
  rw [verifyEntry_of_located stores_homographs hform hfirst, hload]
  with_unfolding_all rfl

theorem verifyEntry_lightEntry : Xml.Writable homographs ∧
    ∃ first, firstHolding? (searchKey (container Node.formName [alternative Node.uniName "en" "sun"]))
        [homographFile] = some first ∧
      (Xml.Writable first.2 → loadDocument homographFiles first.1 = .ok first.2.normal) ∧
        (verifyEntry homographFiles (.ofRoot homographFiles "repo") 3 (glossedEntry "sun" "light") = .ok () ↔
          ∃ document found, loadDocument homographFiles first.1 = .ok document ∧
            findEntry? (searchKey (container Node.formName [alternative Node.uniName "en" "sun"])) document =
              some found ∧ compare 3 (glossedEntry "sun" "light") found = .ok ()) := by
  refine ⟨writable_homographs, ?_⟩
  exact verifyEntry_eq_ok_iff_firstHolding stores_homographs rfl List.mem_cons_self
    (List.mem_filter.2 ⟨List.mem_cons_self, by decide⟩) rfl rfl 3

end LexiconAudit.Repository
