import LexiconAudit.Json.Basic
import LexiconAudit.Node.Vocabulary
import LexiconAudit.Text.Case

/-!
This module contains what a stored document says: its id, whether it is deleted, the headword of an entry,
and which stored field an element of the expected tree is about.
-/

namespace LexiconAudit.Database

def lexiconCollection : String := "lexicon"

def commentsCollection : String := "lexiconComments"

def defaultPrefix : String := "sf_"

def databaseName (start project : String) : String :=
  start ++ project

/--
The id that a value is: a string, or an object that holds it under `$oid`.
-/
def objectId? : Json → Option String
  | .string id => some id
  | value => (value.field? "$oid").bind Json.asString?

def documentId? (document : Json) : Option String :=
  (document.field? "_id").bind objectId?

def isDeleted (document : Json) : Bool :=
  (document.field? "isDeleted").bind Json.asBool? == some true

/--
The headword of an entry: the value of the first writing system of its lexeme.
-/
def headword? (entry : Json) : Option String := do
  let systems ← (← entry.field? "lexeme").asObject?
  let (_, first) ← systems.head?
  (← first.field? "value").asString?

mutual

/--
Whether a value holds anything but nulls and empty strings.
-/
def isPopulated : Json → Bool
  | .null => false
  | .string text => !text.isEmpty
  | .bool _ | .number _ => true
  | .array items => anyPopulated items
  | .object fields => anyFieldPopulated fields

def anyPopulated : List Json → Bool
  | [] => false
  | item :: items => isPopulated item || anyPopulated items

def anyFieldPopulated : List (String × Json) → Bool
  | [] => false
  | (_, value) :: fields => isPopulated value || anyFieldPopulated fields

end

def fieldName (element : String) : String :=
  if element = Node.lexemeFormName then "lexeme" else Text.lowerFirst element

end LexiconAudit.Database
