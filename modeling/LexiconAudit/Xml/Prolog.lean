import LexiconAudit.Xml.Markup

/-!
This module contains what may stand before and behind the root element of a document: the declaration of
the version, comments, processing instructions, and the document type with the entities that it declares.
-/

namespace LexiconAudit.Xml

open Text (Scanner)

/--
The texts that a document declares for names. Of two for one name the first counts.
-/
abbrev Entities := List (List Char × List Char)

namespace Scan

open Text.Scanner

def spacesOrEnd : Scanner Unit := do
  match ← front with
  | none => return ()
  | some c =>
    if isSpace c then skipSpaces
    else require (← startsWith "?>")

def declaration : Scanner Unit := do
  if ← startsWith "<?xml " then
    literal "<?xml"
    spacesOrEnd
    require (← startsWith "version")
    let _ ← assignment
    spacesOrEnd
    if ← startsWith "encoding" then
      let _ ← assignment
      spacesOrEnd
    if ← startsWith "standalone" then
      let _ ← assignment
    skipSpaces
    literal "?>"

def asideRound (_ : Unit) : Scanner (Reading.Round Unit Unit) := do
  skipSpaces
  match ← front with
  | some '<' =>
    if ← startsWith "<!--" then
      literal "<!--"
      comment
      return .again ()
    else if ← startsWith "<?" then
      literal "<?"
      instruction
      return .again ()
    else
      return .done ()
  | _ => return .done ()

theorem advances_asideRound (u : Unit) : (asideRound u).Advances := by
  refine .bind_right _ fun _ => .bind_right _ fun c => ?_
  split
  . refine .bind_right _ fun b => ?_
    split
    . exact ((strict_literal (by decide)).bind_left _).advances
    . refine .bind_right _ fun b => ?_
      split
      . exact ((strict_literal (by decide)).bind_left _).advances
      . exact .done _
  . exact .done _

def asides : Scanner Unit :=
  Reading.loop asideRound advances_asideRound ()

def quotedText : Scanner (List Char) := do
  let mark ← quote
  let body ← takeWhile (· ≠ mark)
  expect mark
  return body

def externalId : Scanner Bool := do
  if ← optional "SYSTEM" then
    spaces
    let _ ← quotedText
    return true
  else if ← optional "PUBLIC" then
    spaces
    let _ ← quotedText
    spaces
    let _ ← quotedText
    return true
  else
    return false

/--
Read the declaration of an entity behind its keyword. One that refers to another resource declares no text.
-/
def entity : Scanner (Option (List Char × List Char)) := do
  spaces
  let parameter ← optional "%"
  if parameter then spaces
  let declared ← name
  spaces
  let found ← definition parameter
  skipSpaces
  expect '>'
  return found.map fun body => (declared, body)
where
  definition (parameter : Bool) : Scanner (Option (List Char)) := do
    match ← front with
    | some '"' => return some (← quotedText)
    | some '\'' => return some (← quotedText)
    | _ =>
      require (← externalId)
      if !parameter then
        skipSpaces
        if ← optional "NDATA" then
          spaces
          let _ ← name
      return none

def otherDeclaration : Scanner Unit := do
  if ← optional "!ELEMENT" then rest
  else if ← optional "!ATTLIST" then rest
  else if ← optional "!NOTATION" then rest
  else fail
where
  rest : Scanner Unit := do
    let _ ← takeWhile (· ≠ '>')
    expect '>'

def declarationRound (entities : Entities) : Scanner (Reading.Round Entities Entities) := do
  skipSpaces
  match ← next with
  | '<' =>
    if ← optional "!ENTITY" then
      return .again (entities ++ (← entity).toList)
    else if ← optional "!--" then
      comment
      return .again entities
    else if ← optional "?" then
      instruction
      return .again entities
    else
      otherDeclaration
      return .again entities
  | ']' =>
    skipSpaces
    expect '>'
    return .done entities
  | _ => fail

theorem strict_declarationRound (entities : Entities) : (declarationRound entities).Strict :=
  .bind_right _ fun _ => strict_next.bind_left _

def documentType : Scanner Entities := do
  if ← optional "<!DOCTYPE" then
    spaces
    let _ ← name
    skipSpaces
    let _ ← externalId
    skipSpaces
    match ← next with
    | '>' => return []
    | '[' =>
      Reading.loop declarationRound (fun entities => (strict_declarationRound entities).advances) []
    | _ => fail
  else
    return []

def prolog : Scanner Entities := do
  let _ ← optional "\uFEFF"
  declaration
  asides
  let entities ← documentType
  asides
  return entities

end Scan

end LexiconAudit.Xml
