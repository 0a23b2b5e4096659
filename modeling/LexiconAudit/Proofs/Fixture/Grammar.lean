import LexiconAudit.Fixture.Reader

/-!
This module contains the grammar of fixtures as a relation between tokens and what they stand for. It
knows no reader and no comments put aside: an absence comment is a part of the member in front of which it
stands, or of the object whose closing brace it precedes.
-/

namespace LexiconAudit.Fixture.Grammar

open Reader (Message container lexemeForm)

variable {α : Type}

/--
Which tokens can stand for which value.
-/
abbrev Phrase (α : Type) := List Kind → α → Prop

/-! Lists and objects. A comma may stand behind the last item. -/

inductive Separated (item : Phrase α) : Phrase (List α) where
  | none : Separated item [] []
  | last {ks : List Kind} {a : α} : item ks a → Separated item ks [a]
  | next {ks ks' : List Kind} {a : α} {as : List α} :
    item ks a → Separated item ks' as → Separated item (ks ++ .comma :: ks') (a :: as)

inductive Listed (item : Phrase α) : Phrase (List α) where
  | mk {ks : List Kind} {as : List α} :
    Separated item ks as → Listed item (.leftBracket :: (ks ++ [.rightBracket])) as

inductive Scope where
  | part
  | entry
  | sense
  | note
  | other
  deriving DecidableEq, Repr

/--
Whether a comment directly in this object can say that a field must not be there.
-/
def Scope.marked : Scope → Bool
  | entry | sense | note => true
  | part | other => false

/--
The comments that may stand directly before a property name or the closing brace.
-/
def Absences (scope : Scope) (bodies : List String) : Prop :=
  ∀ body ∈ bodies, scope.marked = true ∧ (absentField? body).isSome = true

inductive Member (scope : Scope) (value : String → Phrase α) : Phrase (List String × α) where
  | mk {bodies : List String} {k : Kind} {name : String} {ks : List Kind} {a : α} :
    Absences scope bodies → k = .string name ∨ k = .word name → value name ks a →
      Member scope value (bodies.map .comment ++ k :: .colon :: ks) (bodies, a)

inductive Object (scope : Scope) (value : String → Phrase α) :
    Phrase (List (List String × α) × List String) where
  | mk {ks : List Kind} {members : List (List String × α)} {bodies : List String} :
    Separated (Member scope value) ks members → Absences scope bodies →
      Object scope value (.leftBrace :: (ks ++ bodies.map .comment ++ [.rightBrace])) (members, bodies)

/--
The value of a property that the place knows.
-/
def Known (property : Property → Phrase α) (name : String) : Phrase α :=
  fun ks a => ∃ p, Property.ofName? name = some p ∧ property p ks a

def childrenOf (members : List (List String × List Node)) (bodies : List String) : List Node :=
  members.flatMap (fun (before, nodes) => markers before ++ nodes) ++ markers bodies

/-! Values of any shape, for parts of speech. -/

inductive Value : Phrase Unit where
  | string (text : String) : Value [.string text] ()
  | number (text : String) : Value [.number text] ()
  | truth (value : Bool) : Value [.truth value] ()
  | null : Value [.null] ()
  | list {ks : List Kind} {us : List Unit} : Listed Value ks us → Value ks ()
  | object {ks : List Kind} {members : List (List String × Unit)} {bodies : List String} :
    Object .other (fun _ => Value) ks (members, bodies) → Value ks ()

/-! Entries of the lexicon. -/

inductive WritingSystemValue : Phrase (String × String) where
  | mk {k k' : Kind} {system value : String} :
    k = .string system ∨ k = .word system → k' = .string "value" ∨ k' = .word "value" →
      WritingSystemValue
        [.leftBrace, k, .colon, .leftBrace, k', .colon, .string value, .rightBrace, .rightBrace]
        (system, value)

inductive SenseProperty : Property → Phrase (List Node) where
  | definition {ks : List Kind} {system value : String} :
    WritingSystemValue ks (system, value) →
      SenseProperty .definition ks [Reader.definition system value]
  | gloss {ks : List Kind} {system value : String} :
    WritingSystemValue ks (system, value) → SenseProperty .gloss ks [Reader.gloss system value]
  | partOfSpeech {ks : List Kind} : Value ks () → SenseProperty .partOfSpeech ks []

inductive Sense : Phrase Node where
  | mk {ks : List Kind} {members : List (List String × List Node)} {bodies : List String} :
    Object .sense (Known SenseProperty) ks (members, bodies) →
      Sense ks (container Node.senseName (childrenOf members bodies))

inductive EntryPart where
  | lexeme (system value : String)
  | senses (nodes : List Node)

@[simp]
def EntryPart.node : EntryPart → Node
  | lexeme system value => lexemeForm system value
  | senses nodes => container Node.sensesName nodes

@[simp]
def EntryPart.isLexeme : EntryPart → Bool
  | lexeme .. => true
  | senses _ => false

inductive EntryProperty : Property → Phrase EntryPart where
  | lexeme {ks : List Kind} {system value : String} :
    WritingSystemValue ks (system, value) → EntryProperty .lexeme ks (.lexeme system value)
  | senses {ks : List Kind} {senses : List Node} :
    Listed Sense ks senses → EntryProperty .senses ks (.senses senses)

inductive Entry : Phrase Node where
  | mk {ks : List Kind} {members : List (List String × EntryPart)} {bodies : List String} :
    Object .entry (Known EntryProperty) ks (members, bodies) →
    members.any (·.2.isLexeme) = true →
      Entry ks (container Node.entryName
        (childrenOf (members.map fun (before, part) => (before, [part.node])) bodies))

/-! Notes. -/

inductive MessageProperty : Property → Phrase Message where
  | status (text : String) : MessageProperty .status [.string text] { status := some text }
  | value (text : String) : MessageProperty .value [.string text] { value := some text }

/--
The message that its properties make: of several with one name the last one counts.
-/
def messageOf (parts : List Message) : Message where
  status := (parts.filterMap Message.status).getLast?
  value := (parts.filterMap Message.value).getLast?

inductive MessageObject : Phrase Message where
  | mk {ks : List Kind} {members : List (List String × Message)} {bodies : List String} :
    Object .other (Known MessageProperty) ks (members, bodies) →
      MessageObject ks (messageOf (members.map Prod.snd))

inductive NamedMessage : Property → Phrase Message where
  | mk {ks : List Kind} {m : Message} : MessageObject ks m → NamedMessage .message ks m

inductive Reply : Phrase Message where
  | named {ks : List Kind} {members : List (List String × Message)} {bodies : List String} {m : Message} :
    Object .other (Known NamedMessage) ks (members, bodies) → (members.map Prod.snd).getLast? = some m →
      Reply ks m
  | bare {ks : List Kind} {members : List (List String × Message)} {bodies : List String} :
    Object .other (Known MessageProperty) ks (members, bodies) → members ≠ [] →
      Reply ks (messageOf (members.map Prod.snd))

inductive NotePart where
  | noteClass (text : String)
  | ref (target : String)
  | messages (messages : List Message)
  | replies (replies : List Message)

@[simp]
def NotePart.attribute? : NotePart → Option (String × String)
  | noteClass text => some (Node.classKey, text)
  | ref target => some (Node.referenceKey, Node.labelMark ++ target)
  | _ => none

@[simp]
def NotePart.messageList : NotePart → List Message
  | messages ms => ms
  | _ => []

@[simp]
def NotePart.replyList : NotePart → List Message
  | replies ms => ms
  | _ => []

inductive NoteProperty : Property → Phrase NotePart where
  | noteClass (text : String) : NoteProperty .noteClass [.string text] (.noteClass text)
  | ref (target : String) : NoteProperty .ref [.string target] (.ref target)
  | message {ks : List Kind} {m : Message} :
    MessageObject ks m → NoteProperty .message ks (.messages [m])
  | messages {ks : List Kind} {ms : List Message} :
    Listed Reply ks ms → NoteProperty .messages ks (.messages ms)
  | replies {ks : List Kind} {ms : List Message} :
    Listed Reply ks ms → NoteProperty .replies ks (.replies ms)

/--
The element of a note: an attribute has the last value given for it at the place of the first; messages
come before replies and replies before markers.
-/
def noteOf (parts : List NotePart) (bodies : List String) : Node where
  name := Node.annotationName
  attributes := (parts.filterMap NotePart.attribute?).foldl
    (fun attributes (name, value) => Keyed.set name value attributes) []
  children := (parts.flatMap NotePart.messageList).map Message.toNode
    ++ (parts.flatMap NotePart.replyList).map Message.toNode ++ markers bodies

inductive Note : Phrase Node where
  | mk {ks : List Kind} {members : List (List String × NotePart)} {bodies : List String} :
    Object .note (Known NoteProperty) ks (members, bodies) →
      Note ks (noteOf (members.map Prod.snd) (members.flatMap Prod.fst ++ bodies))

/-! Sections and the whole fixture. -/

inductive SectionProperty : Property → Phrase Node where
  | lexicon {ks : List Kind} {entries : List Node} :
    Listed Entry ks entries → SectionProperty .lexicon ks (container Node.lexiconName entries)
  | notes {ks : List Kind} {notes : List Node} :
    Listed Note ks notes → SectionProperty .notes ks (container Node.notesName notes)

inductive Part : Phrase (List Node) where
  | mk {ks : List Kind} {members : List (List String × Node)} {bodies : List String} :
    Object .part (Known SectionProperty) ks (members, bodies) → Part ks (members.map Prod.snd)

inductive Document : Phrase Node where
  | mk {ks : List Kind} {parts : List (List Node)} :
    Listed Part ks parts → Document ks (container Node.rootName parts.flatten)

end LexiconAudit.Fixture.Grammar
