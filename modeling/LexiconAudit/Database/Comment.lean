import LexiconAudit.Database.Discrepancy
import LexiconAudit.Database.LexiconIndex

/-!
This module contains what a stored comment is about. It names a word, or it names a field of an entry, and
then it is about the headword of that entry.
-/

namespace LexiconAudit.Database

inductive Target where
  | word (word : String)
  | entry (id : String)
  deriving DecidableEq, Repr

def isSet : Json → Bool
  | .null => false
  | .string text => !text.isEmpty
  | _ => true

def commentLabel (position : Nat) (comment : Json) : CommentLabel :=
  match documentId? comment with
  | some id => .named id
  | none => .placed position

/--
The target of a comment. A word comes with a meaning and a field with its value, either of which may be
empty, and neither comes with what belongs to the other.
-/
def target (comment : Json) : Except TargetFault Target :=
  match (comment.field? "regarding").bind Json.asObject? with
  | none => .error .noTarget
  | some regarding =>
    let has (key : String) : Bool := (regarding.lookup key).any isSet
    let declares (key : String) : Bool :=
      match regarding.lookup key with
      | none | some .null => false
      | some _ => true
    match has "word", has "field" with
    | true, false =>
      if !declares "meaning" then .error .wordWithoutMeaning
      else if has "fieldValue" then .error .wordWithFieldValue
      else
        match (regarding.lookup "word").bind Json.asString? with
        | some word => .ok (.word word)
        | none => .error .wordNotText
    | false, true =>
      if !declares "fieldValue" then .error .fieldWithoutValue
      else if has "meaning" then .error .fieldWithMeaning
      else
        match (comment.field? "entryRef").bind objectId? with
        | some id => .ok (.entry id)
        | none => .error .fieldWithoutEntry
    | true, true => .error .wordAndField
    | false, false => .error .neitherWordNorField

def targets (position : Nat) : (comments : List Json) → Except Discrepancy (List Target)
  | [] => .ok []
  | comment :: comments =>
    match target comment with
    | .error fault => .error (.badTarget (commentLabel position comment) fault)
    | .ok target => do return target :: (← targets (position + 1) comments)

def Target.key (index : LexiconIndex) : Target → Except Discrepancy String
  | .word w => .ok w
  | .entry id =>
    match index.wordOfId? id with
    | some headword => .ok headword
    | none => .error (.targetMissing id)

def Target.isEntry : Target → Bool
  | .word _ => false
  | .entry _ => true

end LexiconAudit.Database
