import LexiconAudit.Fixture.Token

/-!
This module contains the reasons for which a text is no fixture, and their wording.
-/

namespace LexiconAudit.Fixture

/--
The objects of the fixture language that allow some properties and not others.
-/
inductive Place where
  | part
  | entry
  | sense
  | note
  | message
  deriving DecidableEq, Repr

def Place.describe : Place → String
  | .part => "a section"
  | .entry => "a lex entry"
  | .sense => "a sense"
  | .note => "a note"
  | .message => "a message"

inductive Fault where
  | unterminatedString
  | unterminatedComment
  | unexpectedCharacter (c : Char)
  | invalidEscape (c : Char)
  | invalidCodeEscape
  | unpairedSurrogate
  | invalidSurrogatePair
  | notAnArray
  | unclosedArray
  | trailingContent
  | unexpected (wanted : String) (found : Kind)
  | unknownProperty (name : String)
  | propertyNotAllowed (name : String) (place : Place)
  | entryWithoutLexeme
  | absenceOutsideSense
  | mixedReply
  | emptyReply
  deriving DecidableEq, Repr

def Fault.message : Fault → String
  | unterminatedString => "unterminated string"
  | unterminatedComment => "unterminated comment"
  | unexpectedCharacter c => s!"unexpected character '{c}'"
  | invalidEscape c => s!"invalid escape sequence '\\{c}'"
  | invalidCodeEscape => "invalid \\u escape"
  | unpairedSurrogate => "unpaired surrogate in \\u escape"
  | invalidSurrogatePair => "invalid surrogate pair"
  | notAnArray => "JSON data doesn't have an array as outermost element"
  | unclosedArray => "JSON data didn't end with an end-of-array token"
  | trailingContent => "unexpected content after the outermost array"
  | unexpected wanted found => s!"expected {wanted}, found {found.describe}"
  | unknownProperty name => s!"unknown property '{name}'"
  | propertyNotAllowed name place => s!"property '{name}' is not allowed in {place.describe}"
  | entryWithoutLexeme => "lex entry has no 'lexeme'"
  | absenceOutsideSense => "absence comment outside a sense"
  | mixedReply => "reply mixes 'message' with bare message fields"
  | emptyReply => "empty reply"

structure Rejection where
  fault : Fault
  position : Text.Position
  deriving DecidableEq, Repr

def Rejection.message (r : Rejection) : String :=
  s!"{r.fault.message} (line {r.position.line}, column {r.position.column})"

end LexiconAudit.Fixture
