import LexiconAudit.Node.Basic
import LexiconAudit.Text.Search

/-!
This module contains the element and attribute names that carry a meaning, the marker for an element that
must not be there, and the key of a note.
-/

namespace LexiconAudit.Node

/-! Element names. -/

def rootName : String := "root"
def lexiconName : String := "Lexicon"
def entryName : String := "LexEntry"
def lexemeFormName : String := "LexemeForm"
def stemName : String := "MoStemAllomorph"
def formName : String := "Form"
def sensesName : String := "Senses"
def senseName : String := "ownseq"
def definitionName : String := "Definition"
def glossName : String := "Gloss"
def uniName : String := "AUni"
def strName : String := "AStr"
def runName : String := "Run"
def notesName : String := "notes"
def annotationName : String := "annotation"
def messageName : String := "message"

/-! Attribute names. -/

def writingSystemKey : String := "ws"
def referenceKey : String := "ref"
def classKey : String := "class"
def statusKey : String := "status"
def absenceKey : String := "expectAbsence"

def labelMark : String := "label="

def absent (name : String) : Node :=
  { name, attributes := [(absenceKey, "true")] }

/--
Whether the element is a marker of absence; the case of `true` does not matter.
-/
def expectsAbsence (node : Node) : Bool :=
  match node.attribute? absenceKey with
  | some value => value.toList.map Char.toLower = "true".toList
  | none => false

/--
The key of a note: its reference from behind the last `label=` up to the next `&`.
-/
def targetKey? (node : Node) : Option String :=
  (node.attribute? referenceKey).map fun reference =>
    let label := (Text.afterLast? labelMark.toList reference.toList).getD reference.toList
    String.ofList (label.takeWhile (· ≠ '&'))

def entryForm? (entry : Node) : Option Node :=
  entry.descend? [lexemeFormName, stemName, formName]

end LexiconAudit.Node
