import LexiconAudit.Database.Fields
import LexiconAudit.Database.Notes

/-!
This module contains the verification of a project database against an expected tree. Entries are found by
their headword and notes by what they are about; the first discrepancy is the answer.
-/

namespace LexiconAudit.Database

def fetch (store : Store) (database collection : String) : Except Discrepancy (List Json) :=
  match store.findAll database collection with
  | .ok documents => .ok documents
  | .error fault => .error (.store fault)

def expectedHeadword? (entry : Node) : Option String := do
  let (_, word) ← (systemTexts (← entry.child? Node.lexemeFormName)).head?
  return word

def verifyEntry (index : LexiconIndex) (record : Nat) (expected : Node) : Except Discrepancy Unit :=
  match expectedHeadword? expected with
  | none => .error (.entryWithoutLexeme record)
  | some word =>
    match (index.entry? word).bind Json.asObject? with
    | none => .error (.entryMissing word record)
    | some fields => compareFields record fields expected.children

def verifyEntries (index : LexiconIndex) (record : Nat) : List Node → Except Discrepancy Unit
  | [] => .ok ()
  | entry :: entries => do
    verifyEntry index record entry
    verifyEntries index (record + 1) entries

def verifyLexicon (store : Store) (database : String) (lexicon : Node) : Except Discrepancy Unit := do
  let index := LexiconIndex.ofDocuments (← fetch store database lexiconCollection)
  match index.sharedWord? with
  | some word => .error (.sharedHeadword word)
  | none => verifyEntries index 0 lexicon.children

/--
The live comments with what they are about. The lexicon is only read if a comment points at an entry.
-/
def openComments (store : Store) (database : String) : Except Discrepancy (List OpenComment) := do
  let comments := (← fetch store database commentsCollection).filter fun comment => !isDeleted comment
  let targets ← targets 0 comments
  let index ←
    if targets.any Target.isEntry then
      pure (LexiconIndex.ofDocuments (← fetch store database lexiconCollection))
    else
      pure {}
  let keys ← targets.mapM (Target.key index)
  return List.zipWith OpenComment.mk keys comments

def verifyNotes (store : Store) (database : String) (notes : Node) : Except Discrepancy Unit := do
  let comments ← openComments store database
  let expected := notes.childrenNamed Node.annotationName
  if expected.length = comments.length then
    matchNotes 0 expected comments
  else
    .error (.noteCount expected.length comments.length)

def verifySection (store : Store) (database : String) (part : Node) : Except Discrepancy Unit :=
  if part.name = Node.lexiconName then
    verifyLexicon store database part
  else if part.name = Node.notesName then
    verifyNotes store database part
  else
    .error (.unexpectedSection part.name)

def verify (store : Store) (database : String) (expected : Node) : Except Discrepancy Unit :=
  expected.children.forM (verifySection store database)

def verifyProject (store : Store) (project : String) (expected : Node) : Except Discrepancy Unit :=
  verify store (databaseName defaultPrefix project) expected

end LexiconAudit.Database
