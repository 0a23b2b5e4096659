import LexiconAudit.Repository.Comparison
import LexiconAudit.Repository.Layout
import LexiconAudit.Xml.Document

/-!
This module contains the verification of a repository against an expected tree. Entries are found by their
form and notes by their position; the first discrepancy is the answer.
-/

namespace LexiconAudit.Repository

def loadDocument (files : Files.Tree) (path : String) : Except Discrepancy Node :=
  match files.readText path with
  | .error fault => .error (.unreadable path fault)
  | .ok text =>
    match Xml.parse text with
    | some node => .ok node
    | none => .error (.malformedDocument path)

def findEntry? (key : List Char) (lexicon : Node) : Option Node :=
  (lexicon.childrenNamed Node.entryName).find? fun entry =>
    match entry.entryForm? with
    | some form => searchKey form = key
    | none => false

def verifyEntry (files : Files.Tree) (locator : Locator) (record : Nat) (expected : Node) :
    Except Discrepancy Unit :=
  match expected.entryForm? with
  | none => .error (.entryWithoutForm record)
  | some form => do
    match ← locator.locate (searchKey form) with
    | none => .error (.entryNotLocated form)
    | some path =>
      match findEntry? (searchKey form) (← loadDocument files path) with
      | none => .error (.entryNotInFile form)
      | some stored => compare record expected stored

def verifyEntries (files : Files.Tree) (locator : Locator) (record : Nat) :
    List Node → Except Discrepancy Unit
  | [] => .ok ()
  | entry :: entries => do
    verifyEntry files locator record entry
    verifyEntries files locator (record + 1) entries

def compareNotes (record : Nat) : (expected stored : List Node) → Except Discrepancy Unit
  | note :: notes, found :: others => do
    compare record note found
    compareNotes (record + 1) notes others
  | _, _ => .ok ()

def verifyNotes (files : Files.Tree) (locator : Locator) (notes : Node) : Except Discrepancy Unit :=
  if files.isFile locator.notes then do
    let document ← loadDocument files locator.notes
    let expected := notes.childrenNamed Node.annotationName
    let stored := document.childrenNamed Node.annotationName
    if expected.length = stored.length then
      compareNotes 0 expected stored
    else
      .error (.annotationCount expected.length stored.length)
  else
    .error (.notesFileMissing locator.notes)

def verifySection (files : Files.Tree) (locator : Locator) (part : Node) : Except Discrepancy Unit :=
  if part.name = Node.lexiconName then
    verifyEntries files locator 0 part.children
  else if part.name = Node.notesName then
    verifyNotes files locator part
  else
    .error (.unexpectedSection part.name)

def verifyWith (files : Files.Tree) (locator : Locator) (expected : Node) : Except Discrepancy Unit :=
  expected.children.forM (verifySection files locator)

def verify (files : Files.Tree) (root : String) (expected : Node) : Except Discrepancy Unit :=
  verifyWith files (.ofRoot files root) expected

end LexiconAudit.Repository
