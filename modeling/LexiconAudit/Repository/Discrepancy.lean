import LexiconAudit.Files.Tree
import LexiconAudit.Node.Markup
import LexiconAudit.Text.Normal

/-!
This module contains the ways in which a repository can fall short of the expected tree, and their wording.
-/

namespace LexiconAudit.Repository

/--
What is wrong with a repository. A `record` is the place of an entry or a note in its section, counted
from zero.
-/
inductive Discrepancy where
  | unexpectedSection (name : String)
  | entryWithoutForm (record : Nat)
  | entryNotLocated (form : Node)
  | entryNotInFile (form : Node)
  | notesFileMissing (path : String)
  | annotationCount (expected found : Nat)
  | attributeMissing (name element : String) (record : Nat)
  | referenceDiffers (name element : String) (record : Nat)
  | attributeDiffers (name element : String) (record : Nat)
  | valueDiffers (element : String) (record : Nat)
  | elementPresent (name parent : String) (record : Nat)
  | elementMissing (name parent : String) (record : Nat)
  | messageMissing (index : Nat) (parent : String) (record : Nat)
  | unreadable (path : String) (fault : Files.Fault)
  | malformedDocument (path : String)
  deriving Repr

def Discrepancy.message : Discrepancy → String
  | unexpectedSection name => s!"contains unexpected element of kind {name}"
  | entryWithoutForm record =>
    s!"expected LexEntry has no LexemeForm/MoStemAllomorph/Form (record {record})"
  | entryNotLocated form => s!"Can't find expected LexEntry: {Text.onOneLine form.toXml}"
  | entryNotInFile form => s!"Missing LexEntry: '{Text.onOneLine form.toXml}'"
  | notesFileMissing path => s!"Can't find annotations file {path}"
  | annotationCount expected found =>
    s!"Different number of annotations: expected {expected}, found {found}"
  | attributeMissing name element record =>
    s!"No attribute '{name}' for element '{element}' (record {record})"
  | referenceDiffers name element record =>
    s!"Attribute '{name}' of element '{element}' doesn't contain expected value (record {record})"
  | attributeDiffers name element record =>
    s!"Different values for attribute '{name}' of element '{element}' (record {record})"
  | valueDiffers element record => s!"Different values for element '{element}' (record {record})"
  | elementPresent name parent record =>
    s!"Found element '{name}' for parent '{parent}' which should not be there (record {record})"
  | elementMissing name parent record =>
    s!"No element '{name}' for parent '{parent}' (record {record})"
  | messageMissing index parent record =>
    s!"No element 'message' #{index} for parent '{parent}' (record {record})"
  | unreadable path fault => s!"I/O error on {path}: {fault.message}"
  | malformedDocument path => s!"I/O error on {path}: xml parse failed: the document is not well formed"

end LexiconAudit.Repository
