import LexiconAudit.Database.Store
import LexiconAudit.Node.Vocabulary

/-!
This module contains the ways in which a project database can fall short of the expected tree, and their
wording.
-/

namespace LexiconAudit.Database

inductive TargetFault where
  | noTarget
  | wordWithoutMeaning
  | wordWithFieldValue
  | wordNotText
  | fieldWithoutValue
  | fieldWithMeaning
  | fieldWithoutEntry
  | wordAndField
  | neitherWordNorField
  deriving DecidableEq, Repr

def TargetFault.message : TargetFault → String
  | noTarget => "has no 'regarding'"
  | wordWithoutMeaning => "targets a word but has no 'meaning'"
  | wordWithFieldValue => "targets a word but also has 'fieldValue'"
  | wordNotText => "has a non-string 'word'"
  | fieldWithoutValue => "targets a field but has no 'fieldValue'"
  | fieldWithMeaning => "targets a field but also has 'meaning'"
  | fieldWithoutEntry => "targets a field but has no 'entryRef'"
  | wordAndField => "has both 'word' and 'field' in 'regarding'"
  | neitherWordNorField => "has neither 'word' nor 'field' in 'regarding'"

inductive CommentLabel where
  | named (id : String)
  | placed (position : Nat)
  deriving DecidableEq, Repr

def CommentLabel.describe : CommentLabel → String
  | named id => s!"note '{id}'"
  | placed position => s!"note #{position}"

/--
What is wrong with a project database. A `record` is the place of an entry or a note in its section,
counted from zero.
-/
inductive Discrepancy where
  | unexpectedSection (name : String)
  | store (fault : StoreFault)
  | sharedHeadword (word : String)
  | entryWithoutLexeme (record : Nat)
  | entryMissing (word : String) (record : Nat)
  | fieldPresent (field element : String) (record : Nat)
  | fieldMissing (field element : String) (record : Nat)
  | sensesNotList (record : Nat)
  | senseCount (record expected found : Nat)
  | senseNotDocument (index record : Nat)
  | valueDiffers (field : String) (record : Nat)
  | systemMissing (system field : String) (record : Nat)
  | systemDiffers (field system : String) (record : Nat) (expected found : String)
  | badTarget (comment : CommentLabel) (fault : TargetFault)
  | targetMissing (id : String)
  | noteCount (expected found : Nat)
  | noteWithoutReference (record : Nat)
  | noteMissing (key : String) (record : Nat)
  | noteWithContentMissing (key content : String) (record : Nat)
  | noteAmbiguous (key content : String) (record : Nat)
  | statusDiffers (key : String) (record : Nat) (expected found : String)
  | replyCount (key : String) (record expected found : Nat)
  | replyDiffers (index : Nat) (key : String) (record : Nat) (expected found : String)
  deriving Repr

def Discrepancy.message : Discrepancy → String
  | unexpectedSection name => s!"contains unexpected element of kind {name}"
  | store fault => s!"I/O error on {fault.source}: {fault.message}"
  | sharedHeadword word => s!"Multiple lexEntries for '{word}'"
  | entryWithoutLexeme record => s!"expected LexEntry has no lexeme (record {record})"
  | entryMissing word record => s!"Can't find lexEntry for '{word}' (record {record})"
  | fieldPresent field element record =>
    s!"Found field '{field}' for element '{element}' which should not be there (record {record})"
  | fieldMissing field element record =>
    s!"No field '{field}' for element '{element}' (record {record})"
  | sensesNotList record => s!"Field 'senses' is not an array (record {record})"
  | senseCount record expected found =>
    s!"Unexpected count of elements of 'senses' for record {record}: expected {expected}, found {found}"
  | senseNotDocument index record => s!"Sense #{index} is not a document (record {record})"
  | valueDiffers field record => s!"Different values for field '{field}' (record {record})"
  | systemMissing system field record =>
    s!"No writing system '{system}' for field '{field}' (record {record})"
  | systemDiffers field system record expected found =>
    s!"Different values for field '{field}' in writing system '{system}' (record {record}): "
      ++ s!"expected '{expected}', found '{found}'"
  | badTarget comment fault => s!"{comment.describe} {fault.message}"
  | targetMissing id => s!"Can't find lexEntry '{id}' referenced by a note"
  | noteCount expected found => s!"Different number of notes: expected {expected}, found {found}"
  | noteWithoutReference record =>
    s!"expected annotation has no '{Node.referenceKey}' (record {record})"
  | noteMissing key record => s!"Can't find note for '{key}' (record {record})"
  | noteWithContentMissing key content record =>
    s!"Can't find note for '{key}' with content '{content}' (record {record})"
  | noteAmbiguous key content record =>
    s!"Multiple notes for '{key}' with content '{content}' (record {record})"
  | statusDiffers key record expected found =>
    s!"Different status for note '{key}' (record {record}): expected '{expected}', found '{found}'"
  | replyCount key record expected found =>
    s!"Different number of replies for note '{key}' (record {record}): "
      ++ s!"expected at least {expected}, found {found}"
  | replyDiffers index key record expected found =>
    s!"Different reply #{index} for note '{key}' (record {record}): "
      ++ s!"expected '{expected}', found '{found}'"

end LexiconAudit.Database
