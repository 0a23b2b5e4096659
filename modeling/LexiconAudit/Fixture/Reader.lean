import LexiconAudit.Fixture.Absence
import LexiconAudit.Fixture.Lexer
import LexiconAudit.Fixture.Unread

/-!
This module contains the logic to turn the tokens of a fixture into the expected tree. A fixture is a list
of sections; a section gives the entries of the lexicon or its notes. The tree has an element per section
below its root, and markers for fields that must not be there.
-/

namespace LexiconAudit.Fixture

inductive Property where
  | lexicon
  | notes
  | lexeme
  | senses
  | definition
  | gloss
  | partOfSpeech
  | noteClass
  | ref
  | message
  | messages
  | replies
  | status
  | value
  deriving DecidableEq, Repr

def Property.ofName? : String → Option Property
  | "lexicon" => some lexicon
  | "notes" => some notes
  | "lexeme" => some lexeme
  | "senses" => some senses
  | "definition" => some definition
  | "gloss" => some gloss
  | "partOfSpeech" => some partOfSpeech
  | "class" => some noteClass
  | "ref" => some ref
  | "message" => some message
  | "messages" => some messages
  | "replies" => some replies
  | "status" => some status
  | "value" => some value
  | _ => none

namespace Reader

variable {α : Type}

def object (place : Place) (property : Property → Option (α → Reader α)) (a : α) : Reader α :=
  members (fun key a =>
    match Property.ofName? key.name with
    | none => reject key.token (.unknownProperty key.name)
    | some p =>
      match property p with
      | none => reject key.token (.propertyNotAllowed key.name place)
      | some read => read a) a

def takeMarkers : Reader (List Node) := do
  return markers (← takeComments)

def skipWithin : (depth : Nat) → Reader Unit
  | 0 => do unexpected "a value" (← next)
  | depth + 1 => do
    let token ← next
    match token.kind with
    | .leftBrace => members (fun _ _ => skipWithin depth) ()
    | .leftBracket => foldItems (fun _ => skipWithin depth) ()
    | .string _ | .number _ | .truth _ | .null => return ()
    | _ => unexpected "a value" token

/--
Read any value and drop it. A value takes a token for each level, so it cannot nest deeper than there are
tokens left.
-/
def skip : Reader Unit where
  run u := (skipWithin u.tokens.length).run u
  size_le h := (skipWithin _).size_le h

/--
Read a text in a writing system: an object with one member, named by the writing system, whose value is an
object with the single member `value`.
-/
def writingSystemValue : Reader (String × String) := do
  let _ ← expect .leftBrace "a writing-system object"
  let token ← next
  let system ←
    match token.kind with
    | .string system | .word system => pure system
    | _ => unexpected "a writing-system code" token
  let _ ← expect .colon "':'"
  let _ ← expect .leftBrace "'\x7b' to open the writing-system value"
  let token ← next
  if token.kind = .string "value" ∨ token.kind = .word "value" then
    let _ ← expect .colon "':'"
    let value ← expectString "'value'"
    let _ ← expect .rightBrace "'\x7d' after the value"
    let _ ← expect .rightBrace "'\x7d' (exactly one writing system per value)"
    return (system, value)
  else
    unexpected "property 'value'" token

def alternative (name system value : String) : Node :=
  { name, attributes := [(Node.writingSystemKey, system)], text := some value }

def container (name : String) (children : List Node) : Node :=
  { name, children }

def lexemeForm (system value : String) : Node :=
  container Node.lexemeFormName [container Node.stemName [container Node.formName
    [alternative Node.uniName system value]]]

/--
A definition; an empty one stands for none.
-/
def definition (system value : String) : Node :=
  if value.isEmpty then
    Node.absent Node.definitionName
  else
    container Node.definitionName [{
      name := Node.strName
      attributes := [(Node.writingSystemKey, system)]
      children := [alternative Node.runName system value] }]

/--
A gloss; an empty one stands for none.
-/
def gloss (system value : String) : Node :=
  if value.isEmpty then
    Node.absent Node.glossName
  else
    container Node.glossName [alternative Node.uniName system value]

/--
Read a sense. A comment belongs to the property behind it; one behind the last property counts too.
-/
def sense : Reader Node := do
  let _ ← expect .leftBrace "a sense object"
  let children ← object .sense property []
  return container Node.senseName (children ++ (← takeMarkers))
where
  property : Property → Option (List Node → Reader (List Node))
    | .definition => some fun children => do
      let markers ← takeMarkers
      let (system, value) ← writingSystemValue
      return children ++ markers ++ [definition system value]
    | .gloss => some fun children => do
      let markers ← takeMarkers
      let (system, value) ← writingSystemValue
      return children ++ markers ++ [gloss system value]
    | .partOfSpeech => some fun children => do
      let markers ← takeMarkers
      skip
      return children ++ markers
    | _ => none

/--
Give the markers written behind the last sense to it.
-/
def markLast (markers : List Node) : List Node → Option (List Node)
  | [] => if markers.isEmpty then some [] else none
  | [last] => some [last.addChildren markers]
  | sense :: senses => (markLast markers senses).map (sense :: ·)

def senses : Reader Node := do
  let bracket ← expect .leftBracket "'[' to open the senses"
  let senses ← items sense
  match markLast (← takeMarkers) senses with
  | some senses => return container Node.sensesName senses
  | none => reject bracket .absenceOutsideSense

structure EntryDraft where
  children : List Node := []
  hasLexeme : Bool := false

def entry : Reader Node := do
  let brace ← expect .leftBrace "a lex entry object"
  let draft ← object .entry property {}
  let markers ← takeMarkers
  if draft.hasLexeme then
    return container Node.entryName (draft.children ++ markers)
  else
    reject brace .entryWithoutLexeme
where
  property : Property → Option (EntryDraft → Reader EntryDraft)
    | .lexeme => some fun draft => do
      let markers ← takeMarkers
      let (system, value) ← writingSystemValue
      return ⟨draft.children ++ markers ++ [lexemeForm system value], true⟩
    | .senses => some fun draft => do
      let markers ← takeMarkers
      return { draft with children := draft.children ++ markers ++ [← senses] }
    | _ => none

/--
Read the entries of the lexicon. A comment between two entries says nothing.
-/
def lexicon : Reader Node := do
  let _ ← expect .leftBracket "'[' to open the lexicon"
  let entries ← items (do dropComments; entry)
  dropComments
  return container Node.lexiconName entries

structure Message where
  status : Option String := none
  value : Option String := none

def Message.toNode (m : Message) : Node :=
  let node := Node.leaf Node.messageName (m.value.getD "")
  match m.status with
  | some status => node.setAttribute Node.statusKey status
  | none => node

def messageProperty : Property → Option (Message → Reader Message)
  | .status => some fun m => do return { m with status := ← expectString "'status'" }
  | .value => some fun m => do return { m with value := ← expectString "'value'" }
  | _ => none

def message : Reader Message := do
  let _ ← expect .leftBrace "a message object"
  let m ← object .message messageProperty {}
  dropComments
  return m

structure ReplyDraft where
  named : Option Message := none
  bare : Option Message := none

def reply : Reader Message := do
  let brace ← expect .leftBrace "a reply object"
  let draft ← object .message property {}
  dropComments
  match draft.named, draft.bare with
  | some m, none => return m
  | none, some m => return m
  | some _, some _ => reject brace .mixedReply
  | none, none => reject brace .emptyReply
where
  property : Property → Option (ReplyDraft → Reader ReplyDraft)
    | .message => some fun draft => do return { draft with named := ← message }
    | p => (messageProperty p).map fun read => fun draft => do
      return { draft with bare := ← read (draft.bare.getD {}) }

structure NoteDraft where
  node : Node := { name := Node.annotationName }
  messages : List Message := []
  replies : List Message := []
  markers : List Node := []

/--
Read a note. Its messages come before its replies, in whatever order they are written, and its markers
come last.
-/
def note : Reader Node := do
  let _ ← expect .leftBrace "a note object"
  let draft ← object .note property {}
  let markers := draft.markers ++ (← takeMarkers)
  return draft.node.addChildren
    (draft.messages.map Message.toNode ++ draft.replies.map Message.toNode ++ markers)
where
  /-- Take the comments before a property into the draft, then read the property. -/
  marked (read : NoteDraft → Reader NoteDraft) (draft : NoteDraft) : Reader NoteDraft := do
    let markers ← takeMarkers
    read { draft with markers := draft.markers ++ markers }
  property : Property → Option (NoteDraft → Reader NoteDraft)
    | .noteClass => some <| marked fun draft => do
      let value ← expectString "'class'"
      return { draft with node := draft.node.setAttribute Node.classKey value }
    | .ref => some <| marked fun draft => do
      let target ← expectString "'ref'"
      return { draft with node := draft.node.setAttribute Node.referenceKey (Node.labelMark ++ target) }
    | .message => some <| marked fun draft => do
      return { draft with messages := draft.messages ++ [← message] }
    | .messages => some <| marked fun draft => do
      let _ ← expect .leftBracket "'[' to open the messages"
      return { draft with messages := draft.messages ++ (← items reply) }
    | .replies => some <| marked fun draft => do
      let _ ← expect .leftBracket "'[' to open the replies"
      return { draft with replies := draft.replies ++ (← items reply) }
    | _ => none

def notes : Reader Node := do
  let _ ← expect .leftBracket "'[' to open the notes"
  let annotations ← items (do dropComments; note)
  dropComments
  return container Node.notesName annotations

def sectionObject (sections : List Node) : Reader (List Node) := do
  let _ ← expect .leftBrace "a section object"
  let sections ← object .part property sections
  dropComments
  return sections
where
  property : Property → Option (List Node → Reader (List Node))
    | .lexicon => some fun sections => do
      dropComments
      return sections ++ [← lexicon]
    | .notes => some fun sections => do
      dropComments
      return sections ++ [← notes]
    | _ => none

def fixture : Reader Node := do
  let token ← next .notAnArray
  if token.kind = .leftBracket then
    let sections ← foldItems sectionObject []
    finish
    return container Node.rootName sections
  else
    reject token .notAnArray

end Reader

def ofTokens (tokens : Tokens) : Except Rejection Node :=
  (Reader.fixture.run { tokens := tokens.list, stop := tokens.stop }).map Prod.fst

def parse (text : String) : Except Rejection Node := do
  ofTokens (← tokenize text)

end LexiconAudit.Fixture
