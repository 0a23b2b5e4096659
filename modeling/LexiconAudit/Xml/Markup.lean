import LexiconAudit.Text.Digit
import LexiconAudit.Text.Scanner
import LexiconAudit.Xml.Character

/-!
This module contains the pieces that the content of an element is written in: tags, runs of text, marked
sections, comments and processing instructions. A piece is read without regard to what is around it.
-/

namespace LexiconAudit.Xml

open Text (Scanner)

/--
A name with its qualifier, which is empty if there is none.
-/
structure QName where
  qualifier : List Char
  base : List Char
  deriving DecidableEq, Repr

inductive TagEnd where
  | opened
  | closed
  | cut
  deriving DecidableEq, Repr

/--
A tag that opens an element. The values of its attributes are as they are written.
-/
structure Tag where
  name : QName
  attributes : List (QName × List Char) := []
  ending : TagEnd
  deriving Repr

inductive Piece where
  | tag (tag : Tag)
  | endTag (name : QName)
  /-- Text in which references stand for characters or further content. -/
  | text (run : List Char)
  | marked (run : List Char)
  | aside
  deriving Repr

inductive Reference where
  | char (c : Char)
  | entity (name : List Char)
  deriving DecidableEq, Repr

namespace Scan

open Text.Scanner

def skipSpaces : Scanner Unit := do
  let _ ← takeWhile isSpace

def spaces : Scanner Unit := do
  let _ ← takeWhile1 isSpace

def name : Scanner (List Char) := do
  let c ← next
  if isNameStart c then return c :: (← takeWhile isNameChar) else fail

def isPlainName : List Char → Bool
  | [] => false
  | c :: _ => isNameStart c

def qualified? (run : List Char) : Option QName :=
  match Text.breakAt [':'] run with
  | none => if isPlainName run then some ⟨[], run⟩ else none
  | some (qualifier, base) =>
    if base.contains ':' || !isPlainName base || !(qualifier.isEmpty || isPlainName qualifier) then
      none
    else
      some ⟨qualifier, base⟩

def qname : Scanner QName := do
  match qualified? (← takeWhile1 isNameChar) with
  | some name => return name
  | none => fail

def quote : Scanner Char := do
  let c ← next
  if c = '"' ∨ c = '\'' then return c else fail

def assignment : Scanner (QName × List Char) := do
  let name ← qname
  skipSpaces
  expect '='
  skipSpaces
  let mark ← quote
  let value ← takeWhile fun c => c ≠ mark && c ≠ '<'
  require (value.all isDocumentChar)
  expect mark
  return (name, value)

def tagRound (tag : Tag) : Scanner (Reading.Round Tag Tag) := do
  match ← front with
  | none => return .done tag
  | some c =>
    skipSpaces
    match ← front with
    | none => fail
    | some '/' =>
      literal "/>"
      return .done { tag with ending := .closed }
    | some '>' =>
      literal ">"
      return .done { tag with ending := .opened }
    | some _ =>
      if isSpace c then
        let found ← assignment
        return .again { tag with attributes := tag.attributes ++ [found] }
      else
        fail

theorem strict_qname : qname.Strict :=
  (strict_takeWhile1 _).bind_left _

theorem strict_assignment : assignment.Strict :=
  strict_qname.bind_left _

theorem advances_tagRound (tag : Tag) : (tagRound tag).Advances := by
  refine .bind_right _ fun c => ?_
  split
  . exact .done _
  . refine .bind_right _ fun _ => .bind_right _ fun d => ?_
    split
    . exact (Reading.Strict.fail _).advances
    . exact .bind_right _ fun _ => .done _
    . exact .bind_right _ fun _ => .done _
    . split
      . exact (strict_assignment.bind_left _).advances
      . exact (Reading.Strict.fail _).advances

def tag : Scanner Tag := do
  let name ← qname
  Reading.loop tagRound advances_tagRound { name, ending := .cut }

def endTag : Scanner QName := do
  let name ← qname
  skipSpaces
  expect '>'
  return name

def comment : Scanner Unit := do
  let body ← before "-->"
  require (body.all isDocumentChar && !Text.occurs ['-', '-'] body && body.getLast? ≠ some '-')

def instruction : Scanner Unit := do
  require (!(← startsWith "xml "))
  let _ ← name
  skipSpaces
  let body ← before "?>"
  require (body.all isDocumentChar)

def marked : Scanner (List Char) := do
  let body ← before "]]>"
  require (body.all isDocumentChar)
  return body

/--
Read a run of text whose first character is `c`. It may not hold the mark that ends a marked section.
-/
def text (c : Char) : Scanner (List Char) := do
  let run := c :: (← takeWhile (· ≠ '<'))
  require (run.all isDocumentChar && !Text.occurs [']', ']', '>'] run)
  return run

def piece : Scanner Piece := do
  let c ← next
  if c = '<' then
    if ← optional "!--" then
      comment
      return .aside
    else if ← optional "![CDATA[" then
      return .marked (← marked)
    else if ← optional "?" then
      instruction
      return .aside
    else if ← optional "/" then
      return .endTag (← endTag)
    else
      return .tag (← tag)
  else
    return .text (← text c)

theorem strict_piece : piece.Strict :=
  strict_next.bind_left _

/--
The character with this code. A code that fits 32 bits but is no character's stands for the replacement
character.
-/
def charOfCode? (code : Nat) : Option Char :=
  if code.isValidChar then some (Char.ofNat code)
  else if code < UInt32.size then some '\uFFFD'
  else none

def codeReference (base : Nat) (digits : List Char) : Scanner Reference := do
  match (Text.number? base digits).bind charOfCode? with
  | some c => if isDocumentChar c then return .char c else fail
  | none => fail

def namedReference (name : List Char) : Reference :=
  match String.ofList name with
  | "quot" => .char '"'
  | "amp" => .char '&'
  | "apos" => .char '\''
  | "lt" => .char '<'
  | "gt" => .char '>'
  | _ => .entity name

def reference : Scanner Reference := do
  let found ←
    if ← optional "#x" then
      codeReference 16 (← takeWhile (Text.isDigit 16))
    else if ← optional "#" then
      codeReference 10 (← takeWhile (Text.isDigit 10))
    else
      pure (namedReference (← name))
  expect ';'
  return found

end Scan

end LexiconAudit.Xml
